import OmaChat.Lib.Bytes

/-!
# Handles and display names

`GlobalHandle` and `DisplayName` of `account.rs`. A value of either type is a text that passed `parse`, so the check is
part of the type.
-/

namespace OmaChat.Crypto
open Wire

def minHandleBytes : Nat := 3

def maxHandleBytes : Nat := 32

def maxDisplayNameChars : Nat := 80

def maxDisplayNameBytes : Nat := 256

def isAsciiLowercase (b : UInt8) : Bool := 97 ≤ b.toNat && b.toNat ≤ 122

def isAsciiDigit (b : UInt8) : Bool := 48 ≤ b.toNat && b.toNat ≤ 57

/-- The bytes after the first one of a handle. -/
def isHandleByte (b : UInt8) : Bool := isAsciiLowercase b || isAsciiDigit b || b == 95

/-- The check of `GlobalHandle::parse` on the bytes of the canonical text. -/
def validHandleBytes : List UInt8 → Bool
  | [] => false
  | b :: rest =>
    minHandleBytes ≤ rest.length + 1 && rest.length + 1 ≤ maxHandleBytes && isAsciiLowercase b &&
      rest.all isHandleByte

structure GlobalHandle where
  text : String
  valid : validHandleBytes (utf8 text) = true

/-- `str::strip_prefix('@')`, or the text itself -/
def stripAt (value : String) : String :=
  match value.toList with
  | '@' :: rest => String.ofList rest
  | _ => value

def GlobalHandle.parse (value : String) : Option GlobalHandle :=
  if h : validHandleBytes (utf8 (stripAt value)) = true then some ⟨stripAt value, h⟩ else none

def isUnsafeDisplayFormat (c : Char) : Bool :=
  c.toNat == 0xad || c.toNat == 0x61c || (0x200b ≤ c.toNat && c.toNat ≤ 0x200f) ||
    (0x202a ≤ c.toNat && c.toNat ≤ 0x202e) || (0x2060 ≤ c.toNat && c.toNat ≤ 0x206f) || c.toNat == 0xfeff ||
    (0xfff9 ≤ c.toNat && c.toNat ≤ 0xfffb) || (0xe0000 ≤ c.toNat && c.toNat ≤ 0xe007f)

/-- The check of `DisplayName::parse`. -/
def validDisplayName (value : String) : Bool :=
  !(value.length == 0 || maxDisplayNameChars < value.length || maxDisplayNameBytes < value.utf8ByteSize ||
    trim value != value || value.toList.any fun c => isControl c || isUnsafeDisplayFormat c)

structure DisplayName where
  text : String
  valid : validDisplayName text = true

def DisplayName.parse (value : String) : Option DisplayName :=
  if h : validDisplayName value = true then some ⟨value, h⟩ else none

end OmaChat.Crypto

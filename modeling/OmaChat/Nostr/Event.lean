import OmaChat.Lib.Json

/-!
# Nostr events

`event.rs`: events before and after signing, the canonical JSON whose SHA-256 is their id, the resource limits, and
`SignedEvent::verify`. The curve, the hash and the JSON parser are libraries; `Primitives` collects what the daemon uses
of them.
-/

namespace OmaChat.Nostr
open Wire

abbrev Tag := List String

structure UnsignedEvent where
  pubkey : String
  createdAt : UInt64
  kind : UInt32
  tags : List Tag
  content : String
  deriving DecidableEq

structure SignedEvent where
  id : String
  pubkey : String
  createdAt : UInt64
  kind : UInt32
  tags : List Tag
  content : String
  sig : String
  deriving DecidableEq

/-- `Rumor` of `gift_wrap.rs`: an event with an id and no signature. -/
structure Rumor where
  id : String
  pubkey : String
  createdAt : UInt64
  kind : UInt32
  tags : List Tag
  content : String
  deriving DecidableEq

structure EventLimits where
  maxSerializedBytes : Nat := 256 * 1024
  maxContentBytes : Nat := 64 * 1024
  maxTags : Nat := 64
  maxTagFields : Nat := 16
  maxTagFieldBytes : Nat := 1024
  maxFutureSeconds : UInt64 := 15 * 60

/-- `EventError`. The error of the JSON parser is not kept. -/
inductive EventError where
  | json
  | invalidHex (expectedBytes : Nat)
  | secretKey
  | publicKey
  | publicKeyMismatch
  | signing
  | signature
  | idMismatch
  | serializedTooLarge (bytes maximum : Nat)
  | contentTooLarge (bytes maximum : Nat)
  | tooManyTags (count maximum : Nat)
  | tooManyTagFields (tagIndex count maximum : Nat)
  | tagFieldTooLarge (tagIndex fieldIndex bytes maximum : Nat)
  | tooFarInFuture (createdAt maximum : UInt64)
  deriving DecidableEq

/-- The library functions on keys, signatures, encrypted texts and JSON. -/
structure Primitives where
  /-- The x-only public key of a secret key; none if the scalar is not valid. -/
  publicKey : Bytes 32 → Option (Bytes 32)
  /-- The bytes are an x-only public key. -/
  keyValid : Bytes 32 → Bool
  sha256 : List UInt8 → Bytes 32
  /-- BIP-340 signature with auxiliary randomness. -/
  sign : (secret message auxiliary : Bytes 32) → Option (Bytes 64)
  verify : (key message : Bytes 32) → (signature : Bytes 64) → Bool
  nip44Encrypt : (secret recipient : Bytes 32) → (plaintext : String) → (nonce : Bytes 32) → Option String
  nip44Decrypt : (secret sender : Bytes 32) → (payload : String) → Option String
  /-- The bech32 texts of a public and a secret key, and the keys that such texts stand for. -/
  npub : Bytes 32 → String
  fromNpub : String → Option (Bytes 32)
  fromNsec : String → Option (Bytes 32)
  /-- The JSON parser for events and rumors. -/
  decodeEvent : List UInt8 → Option SignedEvent
  decodeRumor : String → Option Rumor

/-! ## Fields -/

def isLowerHex (b : UInt8) : Bool := (48 ≤ b.toNat && b.toNat ≤ 57) || (97 ≤ b.toNat && b.toNat ≤ 102)

def decodeHex (n : Nat) (value : String) : Except EventError (Bytes n) :=
  if value.utf8ByteSize ≠ n * 2 ∨ (utf8 value).any fun b => !isLowerHex b then .error (.invalidHex n)
  else
    match (hexDecode value).bind (Bytes.ofList? n) with
    | some bytes => .ok bytes
    | none => .error (.invalidHex n)

/-- The loop over the fields of one tag in `UnsignedEvent::validate`. -/
def validateFields (limits : EventLimits) (tagIndex : Nat) : Nat → Tag → Except EventError Unit
  | _, [] => .ok ()
  | fieldIndex, field :: rest =>
    if limits.maxTagFieldBytes < field.utf8ByteSize then
      .error (.tagFieldTooLarge tagIndex fieldIndex field.utf8ByteSize limits.maxTagFieldBytes)
    else validateFields limits tagIndex (fieldIndex + 1) rest

/-- The loop over the tags in `UnsignedEvent::validate`. -/
def validateTags (limits : EventLimits) : Nat → List Tag → Except EventError Unit
  | _, [] => .ok ()
  | tagIndex, tag :: rest => do
    if limits.maxTagFields < tag.length then
      .error (.tooManyTagFields tagIndex tag.length limits.maxTagFields)
    else
      validateFields limits tagIndex 0 tag
      validateTags limits (tagIndex + 1) rest

def UnsignedEvent.validate (event : UnsignedEvent) (limits : EventLimits) : Except EventError Unit := do
  let _ ← decodeHex 32 event.pubkey
  if limits.maxContentBytes < event.content.utf8ByteSize then
    .error (.contentTooLarge event.content.utf8ByteSize limits.maxContentBytes)
  else if limits.maxTags < event.tags.length then
    .error (.tooManyTags event.tags.length limits.maxTags)
  else validateTags limits 0 event.tags

def tagsJson (tags : List Tag) : Json := .arr (tags.map Json.strings)

def UnsignedEvent.canonicalJson (event : UnsignedEvent) : String :=
  Json.render (.arr [.num 0, .str event.pubkey, .num event.createdAt.toNat, .num event.kind.toNat,
    tagsJson event.tags, .str event.content])

def UnsignedEvent.id (p : Primitives) (event : UnsignedEvent) : Bytes 32 := p.sha256 (utf8 event.canonicalJson)

def SignedEvent.json (event : SignedEvent) : Json :=
  .obj [("id", .str event.id), ("pubkey", .str event.pubkey), ("created_at", .num event.createdAt.toNat),
    ("kind", .num event.kind.toNat), ("tags", tagsJson event.tags), ("content", .str event.content),
    ("sig", .str event.sig)]

def SignedEvent.unsigned (event : SignedEvent) : UnsignedEvent :=
  ⟨event.pubkey, event.createdAt, event.kind, event.tags, event.content⟩

/-! ## Signing and verification -/

def UnsignedEvent.signWithAux (p : Primitives) (event : UnsignedEvent) (secretKey auxiliary : Bytes 32)
    (limits : EventLimits) : Except EventError SignedEvent := do
  event.validate limits
  match p.publicKey secretKey with
  | none => .error .secretKey
  | some verifying => do
    let pubkey ← decodeHex 32 event.pubkey
    if verifying ≠ pubkey then .error .publicKeyMismatch
    else
      match p.sign secretKey (event.id p) auxiliary with
      | none => .error .signing
      | some signature =>
        .ok ⟨hexEncode (event.id p).val, event.pubkey, event.createdAt, event.kind, event.tags, event.content,
          hexEncode signature.val⟩

def SignedEvent.verify (p : Primitives) (event : SignedEvent) (now : UInt64) (limits : EventLimits) :
    Except EventError Unit := do
  let serialized := (Json.render event.json).utf8ByteSize
  if limits.maxSerializedBytes < serialized then
    .error (.serializedTooLarge serialized limits.maxSerializedBytes)
  else if satAdd now limits.maxFutureSeconds < event.createdAt then
    .error (.tooFarInFuture event.createdAt (satAdd now limits.maxFutureSeconds))
  else do
    event.unsigned.validate limits
    let supplied ← decodeHex 32 event.id
    if event.unsigned.id p ≠ supplied then .error .idMismatch
    else do
      let publicKey ← decodeHex 32 event.pubkey
      if !p.keyValid publicKey then .error .publicKey
      else do
        let signature ← decodeHex 64 event.sig
        if p.verify publicKey (event.unsigned.id p) signature then .ok () else .error .signature

def SignedEvent.fromJson (p : Primitives) (bytes : List UInt8) (now : UInt64) (limits : EventLimits) :
    Except EventError SignedEvent := do
  if limits.maxSerializedBytes < bytes.length then
    .error (.serializedTooLarge bytes.length limits.maxSerializedBytes)
  else
    match p.decodeEvent bytes with
    | none => .error .json
    | some event => do
      event.verify p now limits
      .ok event

end OmaChat.Nostr

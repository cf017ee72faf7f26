import OmaChat.Crypto.Account
import OmaChat.Proto.Hosted
import OmaChat.Server.Storage

/-!
# The service

`service.rs` answers one request at a time: it registers devices, claims and resolves handles, and binds and unbinds
Nostr keys against a proof that the keys of the account signed. `Service.handle` is the whole of it. The signature checks
and the bech32 form of a key come from libraries and are a `Verifier`.
-/

namespace OmaChat.Server
open Wire Effects Proto Crypto

/-- The library functions that the service uses on keys and signatures. -/
structure Verifier where
  /-- `VerifyingKey::from_bytes` accepts the device key. -/
  deviceKeyValid : Bytes 32 → Bool
  /-- `verify_strict` accepts the signature of a device key. -/
  deviceVerifies : (key : Bytes 32) → (message : Blob) → (signature : Bytes 64) → Bool
  /-- `verify_nostr` accepts the signature of a Nostr key. -/
  nostrVerifies : (key : Bytes 32) → (message : Blob) → (signature : Bytes 64) → Bool
  /-- `npub_from_public_key` -/
  npub : Bytes 32 → String

/-- Keys that sign in the open: a signature is the key and the last 32 bytes of the message. -/
def Verifier.transparent : Verifier where
  deviceKeyValid _ := true
  deviceVerifies key message signature := signature.val == key.val ++ message.reverse.take 32
  nostrVerifies key message signature := signature.val == key.val ++ message.reverse.take 32
  npub key := hexEncode key.val

/-- `Command` of `protocol.rs` -/
inductive Command where
  | hello (minimumVersion maximumVersion : UInt16) (devicePublicKey : String)
  | authenticate (signature : String) (displayName : Option String)
  | status
  | claimHandle (handle : String)
  | resolveHandle (handle : String)
  | bindNostr (nostrPublicKey nonce : String) (timestamp : UInt64) (deviceSignature nostrSignature : String)
  | unbindNostr (nonce : String) (timestamp : UInt64) (deviceSignature : String)
  deriving DecidableEq

/-- `ServiceRequest`, without the channel ends of `Attach`, which no request reads. -/
inductive ServiceRequest where
  | register (devicePublicKey : Bytes 32) (displayName : Option String) (now : UInt64)
  | attach (accountId : String) (sessionId : UInt64)
  | detach (accountId : String) (sessionId : UInt64)
  | nip05 (name : String)
  | command (accountId : String) (devicePublicKey : Bytes 32) (command : Command) (now : UInt64)
  deriving DecidableEq

structure ServiceConfig where
  serverPublicKey : Bytes 32
  nip05Relays : List String

/-- `Service`, beside its storage. An account without subscribers has no entry in the source's map. -/
structure Service where
  config : ServiceConfig
  subscribers : String → List UInt64

/-- A method of `Service`. -/
abbrev ServiceMethod (α : Type) : Type := Method Call.Answer Service ServerError α

def storageError : StorageError → ServerError
  | .notFound => ⟨.notFound, "no such record"⟩
  | .handleTaken => ⟨.handleTaken, "that handle is already taken"⟩
  | .handleAlreadySet => ⟨.handleAlreadySet, "this account already has a handle"⟩
  | .nostrPubkeyTaken => ⟨.nostrPubkeyTaken, "that nostr public key is already bound to another handle"⟩
  | .replayedProof => ⟨.replayedProof, "that nostr proof was already used"⟩
  | _ => ⟨.storage, "persistent storage failed"⟩

/-- `self.storage.method(..).map_err(storage_error)?` -/
def stored {α : Type} (m : StorageMethod Service α) : ServiceMethod α := m.mapError storageError

/-- `ok_or_else` -/
def okOr {α : Type} (error : ServerError) : Option α → Except ServerError α
  | some a => .ok a
  | none => .error error

/-! ## Checks -/

/-- `auth::decode_key` and `auth::decode_signature`: hexadecimal of exactly `n` bytes. -/
def decodeFixed (n : Nat) (value : String) : Option (Bytes n) := do
  let bytes ← hexDecode value
  Bytes.ofList? n bytes

def decodeNostrKey (value : String) : Except ServerError (Bytes 32) :=
  okOr ⟨.invalidRequest, "expected 64 hex characters"⟩ (decodeFixed 32 value)

/-- `auth::decode_signature(..).map_err(..)?` for the signature in `field` -/
def decodeSignature (field value : String) : Except ServerError (Bytes 64) :=
  okOr ⟨.invalidRequest, field ++ " must be 128 hex characters"⟩ (decodeFixed 64 value)

def freshTimestamp (timestamp now : UInt64) : Except ServerError Unit :=
  if timestamp ≤ satAdd now nostrProofSkewSeconds ∧ satSub now nostrProofSkewSeconds ≤ timestamp then .ok ()
  else .error ⟨.invalidRequest, "nostr proof timestamp is outside the freshness window"⟩

def parseHandle (value : String) : Except ServerError GlobalHandle :=
  okOr ⟨.invalidHandle, "handles are 3 to 32 lowercase letters, digits or '_' and start with a letter"⟩
    (GlobalHandle.parse value)

section Verify
variable (v : Verifier)

def verifyDevice (devicePublicKey : Bytes 32) (transcript : Blob) (signature : Bytes 64) : Except ServerError Unit :=
  if !v.deviceKeyValid devicePublicKey then .error ⟨.invalidRequest, "device key is not Ed25519"⟩
  else if v.deviceVerifies devicePublicKey transcript signature then .ok ()
  else .error ⟨.invalidSignature, "the device signature did not verify for this nostr proof"⟩

/-- `verify_nostr(..).map_err(..)?` -/
def verifyNostr (nostrPublicKey : Bytes 32) (transcript : Blob) (signature : Bytes 64) : Except ServerError Unit :=
  if v.nostrVerifies nostrPublicKey transcript signature then .ok ()
  else .error ⟨.invalidSignature, "the nostr schnorr signature did not verify"⟩

/-! ## Answers -/

def registrationJson (account : AccountRecord) (devicePublicKey : Bytes 32) (newAccount : Bool) : Json :=
  .object [("account_id", .str account.id), ("handle", .ofOption account.handle),
    ("display_name", .str account.displayName), ("device_public_key", .str (hexEncode devicePublicKey.val)),
    ("new_account", .bool newAccount)]

def bindingJson (handle : String) (nostrPublicKey : Bytes 32) : Json :=
  .object [("handle", .str handle), ("nostr_public_key", .str (hexEncode nostrPublicKey.val)),
    ("npub", .str (v.npub nostrPublicKey))]

/-! ## Requests -/

def Service.account (accountId : String) : ServiceMethod AccountRecord := do
  let found ← stored (Server.account accountId)
  Method.ofExcept (okOr ⟨.notFound, "account no longer exists"⟩ found)

def Service.resolve (handle : GlobalHandle) : ServiceMethod AccountRecord := do
  let found ← stored (Server.resolveHandle handle.text)
  Method.ofExcept (okOr ⟨.notFound, "no account has that handle"⟩ found)

/-- The name of a new account in `Service::register`. -/
def newDisplayName (devicePublicKey : Bytes 32) : Option String → Except ServerError String
  | some name =>
    match DisplayName.parse name with
    | some parsed => .ok parsed.text
    | none => .error ⟨.invalidName, "display names are 1 to 80 printable characters"⟩
  | none => .ok ("user-" ++ String.ofList ((hexEncode devicePublicKey.val).toList.take 8))

def Service.register (devicePublicKey : Bytes 32) (displayName : Option String) (now : UInt64) : ServiceMethod Json := do
  match ← stored (accountForDevice devicePublicKey) with
  | some account => do
    stored (touchDevice devicePublicKey now)
    pure (registrationJson account devicePublicKey false)
  | none => do
    let displayName ← Method.ofExcept (newDisplayName devicePublicKey displayName)
    let account ← stored (createAccount devicePublicKey displayName now)
    pure (registrationJson account devicePublicKey true)

structure BindProof where
  nostrPublicKey : String
  nonce : String
  timestamp : UInt64
  deviceSignature : String
  nostrSignature : String

def Service.bindNostr (accountId : String) (devicePublicKey : Bytes 32) (proof : BindProof) (now : UInt64) :
    ServiceMethod Json := do
  let account ← Service.account accountId
  let handle ← Method.ofExcept (okOr ⟨.invalidHandle, "claim a handle before binding a nostr key"⟩ account.handle)
  let nostrPublicKey ← Method.ofExcept (decodeNostrKey proof.nostrPublicKey)
  let nonce ← Method.ofExcept (decodeNostrKey proof.nonce)
  let deviceSignature ← Method.ofExcept (decodeSignature "device_signature" proof.deviceSignature)
  let nostrSignature ← Method.ofExcept (decodeSignature "nostr_signature" proof.nostrSignature)
  Method.ofExcept (freshTimestamp proof.timestamp now)
  let service ← Method.get
  let transcript := nostrBindTranscript service.config.serverPublicKey accountId handle nostrPublicKey nonce
    proof.timestamp
  Method.ofExcept (verifyDevice v devicePublicKey transcript deviceSignature)
  Method.ofExcept (verifyNostr v nostrPublicKey transcript nostrSignature)
  stored (rememberProofNonce nonce accountId now nostrProofSkewSeconds)
  stored (Server.bindNostr accountId nostrPublicKey)
  pure (bindingJson v handle nostrPublicKey)

def Service.unbindNostr (accountId : String) (devicePublicKey : Bytes 32) (nonce : String) (timestamp : UInt64)
    (deviceSignature : String) (now : UInt64) : ServiceMethod Json := do
  let account ← Service.account accountId
  let handle ← Method.ofExcept (okOr ⟨.invalidHandle, "this account has no handle"⟩ account.handle)
  let key ← stored (nostrPubkey accountId)
  let bound ← Method.ofExcept (okOr ⟨.notFound, "no nostr key is bound"⟩ key)
  let nonce ← Method.ofExcept (decodeNostrKey nonce)
  let deviceSignature ← Method.ofExcept (decodeSignature "device_signature" deviceSignature)
  Method.ofExcept (freshTimestamp timestamp now)
  let service ← Method.get
  let transcript := nostrUnbindTranscript service.config.serverPublicKey accountId handle bound nonce timestamp
  Method.ofExcept (verifyDevice v devicePublicKey transcript deviceSignature)
  stored (rememberProofNonce nonce accountId now nostrProofSkewSeconds)
  let _ ← stored (Server.unbindNostr accountId)
  pure (.object [("handle", .str handle), ("nostr_public_key", .null)])

def isNameByte (b : UInt8) : Bool := isAsciiLowercase b || isAsciiDigit b || b == 45 || b == 95 || b == 46

def Service.nip05 (name : String) : ServiceMethod Json := do
  if name = "" then
    Method.throw ⟨.invalidRequest, "name query parameter is required"⟩
  else
    let name := name.map Char.toLower
    if 64 < name.utf8ByteSize ∨ ¬ (utf8 name).all isNameByte then
      Method.throw ⟨.invalidName, "nip-05 names are 1 to 64 characters from a-z, 0-9, '-', '_' and '.'"⟩
    else
      let found ← stored (nostrForHandle name)
      let publicKey ← Method.ofExcept (okOr ⟨.notFound, "no nostr key for that name"⟩ found)
      let hexKey := hexEncode publicKey.val
      let names := Json.object [(name, .str hexKey)]
      let service ← Method.get
      if service.config.nip05Relays = [] then
        pure (.object [("names", names)])
      else
        pure (.object [("names", names), ("relays", .object [(hexKey, .arr (service.config.nip05Relays.map .str))])])

def Service.command (accountId : String) (devicePublicKey : Bytes 32) (command : Command) (now : UInt64) :
    ServiceMethod Json :=
  match command with
  | .hello .. | .authenticate .. =>
    Method.throw ⟨.alreadyAuthenticated, "this connection is already authenticated"⟩
  | .status => do
    let account ← Service.account accountId
    let nostrPublicKey ← stored (nostrPubkey accountId)
    let service ← Method.get
    pure (.object [("protocol_version", .num protocolVersion), ("account_id", .str account.id),
      ("handle", .ofOption account.handle), ("display_name", .str account.displayName),
      ("device_public_key", .str (hexEncode devicePublicKey.val)),
      ("server_public_key", .str (hexEncode service.config.serverPublicKey.val)),
      ("nostr_public_key", .ofOption (nostrPublicKey.map fun key => hexEncode key.val))])
  | .claimHandle handle => do
    let handle ← Method.ofExcept (parseHandle handle)
    stored (Server.claimHandle accountId handle.text)
    pure (.object [("handle", .str handle.text)])
  | .resolveHandle handle => do
    let handle ← Method.ofExcept (parseHandle handle)
    let account ← Service.resolve handle
    pure (.object [("account_id", .str account.id), ("handle", .ofOption account.handle),
      ("display_name", .str account.displayName)])
  | .bindNostr nostrPublicKey nonce timestamp deviceSignature nostrSignature =>
    Service.bindNostr v accountId devicePublicKey
      ⟨nostrPublicKey, nonce, timestamp, deviceSignature, nostrSignature⟩ now
  | .unbindNostr nonce timestamp deviceSignature =>
    Service.unbindNostr v accountId devicePublicKey nonce timestamp deviceSignature now

def Service.handle : ServiceRequest → ServiceMethod Json
  | .register devicePublicKey displayName now => Service.register devicePublicKey displayName now
  | .attach accountId sessionId => do
    Method.modify fun service =>
      { service with
        subscribers := Function.update service.subscribers accountId (service.subscribers accountId ++ [sessionId]) }
    pure .null
  | .nip05 name => Service.nip05 name
  | .detach accountId sessionId => do
    Method.modify fun service =>
      { service with
        subscribers := Function.update service.subscribers accountId
          ((service.subscribers accountId).filter (· != sessionId)) }
    pure .null
  | .command accountId devicePublicKey command now => Service.command v accountId devicePublicKey command now

end Verify

end OmaChat.Server

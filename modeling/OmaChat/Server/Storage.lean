import OmaChat.Lib.Method
import OmaChat.Lib.Aead
import OmaChat.Server.Database

/-!
# The storage of the server

The methods of `Storage` as methods over the statements of the database. `self.connection.execute(..)?` is
`execute`; where the source looks at the error itself the method uses `result`.
-/

namespace OmaChat.Server
open Wire Effects

def schemaVersion : Nat := 3

def nonceBytes : Nat := 24

def keyCheckPlaintext : Blob := utf8 "omachat-server storage key check"

/-- `StorageError`. The version text of `UnsupportedSchema` is kept as the bytes it is printed from. -/
inductive StorageError where
  | sqlite (error : SqlError)
  | unsupportedSchema (version : Blob)
  | wrongKey
  | random
  | seal
  | corrupt
  | notFound
  | handleTaken
  | handleAlreadySet
  | nostrPubkeyTaken
  | replayedProof
  deriving DecidableEq

/-- A method of `Storage`; `σ` is the state of the caller, which no method of the storage looks at. -/
abbrev StorageMethod (σ α : Type) : Type := Method Call.Answer σ StorageError α

variable {σ : Type}

/-- Run a statement and look at its outcome. -/
def result (statement : Statement) : StorageMethod σ (Except SqlError statement.Answer) := Method.request (Call.sql statement)

/-- Run a statement; a failure ends the method. -/
def execute (statement : Statement) : StorageMethod σ statement.Answer := do
  match ← result statement with
  | .ok answer => pure answer
  | .error error => Method.throw (.sqlite error)

/-- `getrandom::fill` -/
def fillRandom (length : Nat) : StorageMethod σ (Bytes length) := do
  match (← Method.request (Call.random length) : Option (Bytes length)) with
  | some bytes => pure bytes
  | none => Method.throw .random

/-! ## Opening -/

/-- The `match` on the stored version in `Storage::migrate`. -/
def migrateFrom (version : Option Blob) : StorageMethod σ Unit :=
  if version = none ∨ version = some (utf8 "2") then do
    execute .addNostrPubkey
    execute .createNostrIndex
    execute .createProofNonces
    execute (.upsertMeta "schema_version" (utf8 (toString schemaVersion)))
  else if version = some (utf8 (toString schemaVersion)) then
    pure ()
  else if version = some (utf8 "1") then
    Method.throw (.unsupportedSchema
      (utf8 "1 (hosted chat database; run that product from the hosted-archive branch)"))
  else
    Method.throw (.unsupportedSchema (version.getD []))

/-- `Storage::migrate`. Each statement of an `execute_batch` is committed on its own. -/
def migrate : StorageMethod σ Unit := do
  execute .createMeta
  execute .createAccounts
  execute .createDevices
  let version ← execute (.selectMeta "schema_version")
  migrateFrom version

section Sealing
variable (aead : Aead) (key : Bytes 32)

def sealWith (associated plaintext : Blob) : StorageMethod σ Blob := do
  let nonce ← fillRandom 24
  match aead.encrypt key nonce associated plaintext with
  | some ciphertext => pure (nonce.val ++ ciphertext)
  | none => Method.throw .seal

def openSealed (associated sealed : Blob) : Except StorageError Blob :=
  if sealed.length < nonceBytes + 16 then .error .corrupt
  else
    match Bytes.ofList? 24 (sealed.take nonceBytes) with
    | none => .error .corrupt
    | some nonce =>
      match aead.decrypt key nonce associated (sealed.drop nonceBytes) with
      | some plaintext => .ok plaintext
      | none => .error .corrupt

def verifyKey : StorageMethod σ Unit := do
  match (← execute (.selectMeta "key_check") : Option Blob) with
  | none => do
    let sealed ← sealWith aead key (utf8 "key_check") keyCheckPlaintext
    execute (.insertMeta "key_check" sealed)
  | some sealed =>
    match openSealed aead key (utf8 "key_check") sealed with
    | .ok opened => if opened = keyCheckPlaintext then pure () else Method.throw .wrongKey
    | .error _ => Method.throw .wrongKey

/-- `Storage::open`, from the first statement on. -/
def openStorage : StorageMethod σ Unit := do
  migrate
  verifyKey aead key

end Sealing

/-! ## Accounts and devices -/

def randomId : StorageMethod σ String := do
  let bytes ← fillRandom 16
  pure (hexEncode bytes.val)

def accountForDevice (devicePublicKey : Bytes 32) : StorageMethod σ (Option AccountRecord) :=
  execute (.selectDeviceAccount devicePublicKey.val)

def account (accountId : String) : StorageMethod σ (Option AccountRecord) := execute (.selectAccount accountId)

def touchDevice (devicePublicKey : Bytes 32) (now : UInt64) : StorageMethod σ Unit :=
  execute (.touchDevice devicePublicKey.val (toI64 now))

def createAccount (devicePublicKey : Bytes 32) (displayName : String) (now : UInt64) :
    StorageMethod σ AccountRecord := do
  let id ← randomId
  execute (.insertAccountAndDevice id displayName devicePublicKey.val (toI64 now))
  pure ⟨id, none, displayName, now⟩

def claimHandle (accountId handle : String) : StorageMethod σ Unit := do
  match (← execute (.selectHandle accountId) : Option (Option String)) with
  | none => Method.throw .notFound
  | some (some _) => Method.throw .handleAlreadySet
  | some none => do
    match ← result (.setHandle accountId handle) with
    | .ok _ => pure ()
    | .error error => Method.throw (if isConstraint error then .handleTaken else .sqlite error)

def resolveHandle (handle : String) : StorageMethod σ (Option AccountRecord) := execute (.selectByHandle handle)

/-! ## Nostr keys -/

def fixedKey (bytes : Blob) : Except StorageError (Bytes 32) :=
  match Bytes.ofList? 32 bytes with
  | some key => .ok key
  | none => .error .corrupt

def nostrPubkey (accountId : String) : StorageMethod σ (Option (Bytes 32)) := do
  match (← execute (.selectNostrPubkey accountId) : Option (Option Blob)) with
  | none => Method.throw .notFound
  | some none => pure none
  | some (some bytes) => do
    let key ← Method.ofExcept (fixedKey bytes)
    pure (some key)

def bindNostr (accountId : String) (pubkey : Bytes 32) : StorageMethod σ Unit := do
  match (← result (.setNostrPubkey accountId pubkey.val) : Except SqlError Nat) with
  | .ok 0 => Method.throw .notFound
  | .ok _ => pure ()
  | .error error => Method.throw (if isConstraint error then .nostrPubkeyTaken else .sqlite error)

def unbindNostr (accountId : String) : StorageMethod σ Bool := do
  let changed : Nat ← execute (.clearNostrPubkey accountId)
  match ← account accountId with
  | none => Method.throw .notFound
  | some _ => pure (changed == 1)

def nostrForHandle (handle : String) : StorageMethod σ (Option (Bytes 32)) := do
  match (← execute (.selectNostrForHandle handle) : Option (Option Blob)) with
  | none | some none => pure none
  | some (some bytes) => do
    let key ← Method.ofExcept (fixedKey bytes)
    pure (some key)

def rememberProofNonce (nonce : Bytes 32) (accountId : String) (now skewSeconds : UInt64) : StorageMethod σ Unit := do
  execute (.deleteNoncesBefore (toI64 (satSub now skewSeconds)))
  match ← result (.insertNonce nonce.val accountId (toI64 now)) with
  | .ok _ => pure ()
  | .error error => Method.throw (if isConstraint error then .replayedProof else .sqlite error)

end OmaChat.Server

import OmaChat.Daemon.Calls

/-!
# The sealed Nostr identity

`NostrVault` and the three ways to a new identity: the chat actor's `ensure_identity` and the commands
`IdentityGenerate` and `IdentityImport`. All of them write through `save_new`, which reads the record first.
-/

namespace OmaChat.Daemon
open Wire Effects Nostr

inductive NostrIdentityError where
  | random
  | invalidSecret
  | invalidPublicKey
  | invalidSignature
  | sign
  | bech32
  deriving DecidableEq

inductive NostrStoreError where
  | store (error : StoreError)
  | identity (error : NostrIdentityError)
  | encoding
  | alreadyPresent
  deriving DecidableEq

/-- What can stop `send` in the Nostr crates. -/
inductive SendError where
  | giftWrap (error : GiftWrapError)
  | pool (error : RelayPoolError)
  deriving DecidableEq

inductive ChatError where
  | store (error : NostrStoreError)
  | sealed (error : StoreError)
  | identity (error : NostrIdentityError)
  | nip05 (error : Nip05Error)
  | invalidPeer
  | invalidRelay
  | invalidText
  | selfContact
  | noRelays
  | notConnected
  | notFound
  | tooLarge
  | send (error : SendError)
  | clock
  | stopped
  deriving DecidableEq

/-- `NostrSecret`: a secret key that has a public key. -/
structure NostrSecret (p : Primitives) where
  secret : Bytes 32
  publicKey : Bytes 32
  valid : p.publicKey secret = some publicKey

def NostrSecret.fromBytes (p : Primitives) (secret : Bytes 32) : Option (NostrSecret p) :=
  match h : p.publicKey secret with
  | some publicKey => some ⟨secret, publicKey, h⟩
  | none => none

section Vault
variable (p : Primitives) {σ : Type}

/-- `NostrSecret::generate` -/
def generateSecret : Method Call.Answer σ NostrIdentityError (NostrSecret p) := do
  match (← Method.request (Call.random 32) : Option (Bytes 32)) with
  | none => Method.throw .random
  | some bytes =>
    match NostrSecret.fromBytes p bytes with
    | some secret => pure secret
    | none => Method.throw .invalidSecret

/-- `NostrSecret::from_nsec` -/
def secretFromNsec (nsec : String) : Except NostrIdentityError (NostrSecret p) :=
  match p.fromNsec nsec with
  | none => .error .bech32
  | some bytes =>
    match NostrSecret.fromBytes p bytes with
    | some secret => .ok secret
    | none => .error .invalidSecret

/-- `NostrVault::load` -/
def loadSecret : Method Call.Answer σ NostrStoreError (Option (NostrSecret p)) := do
  match (← Method.request (Call.read .identity) : Except StoreError (Option (Bytes 32))) with
  | .ok none => Method.throw .encoding
  | .ok (some bytes) =>
    match NostrSecret.fromBytes p bytes with
    | some secret => pure (some secret)
    | none => Method.throw (.identity .invalidSecret)
  | .error .recordNotFound => pure none
  | .error error => Method.throw (.store error)

/-- `NostrVault::save_new`. The read only asks whether it succeeds, so a record that cannot be read counts as absent. -/
def saveNew (secret : NostrSecret p) : Method Call.Answer σ NostrStoreError Unit := do
  match (← Method.request (Call.read .identity) : Except StoreError (Option (Bytes 32))) with
  | .ok _ => Method.throw .alreadyPresent
  | .error _ =>
    match (← Method.request (Call.write .identity secret.secret) : Except StoreError Unit) with
    | .ok _ => pure ()
    | .error error => Method.throw (.store error)

/-- `Actor::ensure_identity`; the flag says whether the key was generated. -/
def ensureIdentity : Method Call.Answer σ ChatError (NostrSecret p × Bool) := do
  match ← (loadSecret p).mapError .store with
  | some secret => pure (secret, false)
  | none =>
    let secret ← (generateSecret p).mapError .identity
    match ← (saveNew p secret).attempt with
    | .ok _ => pure (secret, true)
    | .error .alreadyPresent =>
      match ← (loadSecret p).mapError .store with
      | some secret => pure (secret, false)
      | none => Method.throw .stopped
    | .error error => Method.throw (.store error)

/-- The errors of `CoreError` that a new identity can end in. -/
inductive IdentityError where
  | identity (error : NostrIdentityError)
  | nostrStore (error : NostrStoreError)
  deriving DecidableEq

/-- `DaemonCore::identity_generate`, with the key that it reports. -/
def identityGenerate : Method Call.Answer σ IdentityError (NostrSecret p) := do
  let secret ← (generateSecret p).mapError .identity
  (saveNew p secret).mapError .nostrStore
  pure secret

/-- `DaemonCore::identity_import`, with the key that it reports. -/
def identityImport (nsec : String) : Method Call.Answer σ IdentityError (NostrSecret p) := do
  let secret ← Method.ofExcept ((secretFromNsec p nsec).mapError .identity)
  (saveNew p secret).mapError .nostrStore
  pure secret

end Vault

end OmaChat.Daemon

import OmaChat.Server.Service

/-!
# What a request keeps

A request is a sequence of statements and checks, so what each of its statements keeps, the request keeps. The results
here are over any world and any preorder on its states: the statements that a method makes are its hypotheses.

* `StatementKeeps step I s` : the statement `s` keeps `I`, whatever it answers;
* `keeps_nostrPubkey`, `keeps_rememberProofNonce`, .. : one lemma for each method of the storage and the service;
* `along_handle` : what goes along the structure of a method holds of every request;
* `keeps_handle` : what every request keeps. Of the statements that it makes only the purge of old nonces depends on its
  clock reading.
-/

namespace OmaChat.Server
open Wire Effects Proto
open Method (along_keeps keeps_bind keeps_pure keeps_throw)

variable {accountId : String} {ω : Type}

section Frames
variable {σ : Type} {step : Answering Call.Answer ω} {I : σ × ω → σ × ω → Prop}

/-- A statement keeps `I`. -/
def StatementKeeps (step : Answering Call.Answer ω) (I : σ × ω → σ × ω → Prop) (s : Statement) : Prop :=
  ∀ u w r w', step (.sql s) w r w' → I (u, w) (u, w')

/-- Drawing random bytes keeps `I`. -/
def RandomKeeps (step : Answering Call.Answer ω) (I : σ × ω → σ × ω → Prop) : Prop :=
  ∀ n u w r w', step (.random n) w r w' → I (u, w) (u, w')

variable {handle : String} {s : Statement} {now : UInt64}

theorem keeps_result (hs : StatementKeeps step I s) : Method.Keeps step I (result s) := Method.keeps_request hs

variable [IsPreorder (σ × ω) I]

theorem keeps_execute (hs : StatementKeeps step I s) : Method.Keeps step I (execute s) := by
  apply keeps_bind (keeps_result hs)
  intro r
  cases r with
  | ok a => exact keeps_pure a
  | error e => exact keeps_throw _

/-! ## Methods of the storage -/

theorem keeps_fillRandom (hr : RandomKeeps step I) (length : Nat) : Method.Keeps step I (fillRandom length) := by
  apply keeps_bind (Method.keeps_request (hr length))
  intro r
  cases r with
  | none => exact keeps_throw _
  | some bytes => exact keeps_pure bytes

theorem keeps_randomId (hr : RandomKeeps step I) : Method.Keeps step I randomId :=
  keeps_bind (keeps_fillRandom hr 16) fun _ => keeps_pure _

theorem keeps_createAccount {devicePublicKey : Bytes 32} {displayName : String} (hr : RandomKeeps step I)
    (hs : ∀ id, StatementKeeps step I (.insertAccountAndDevice id displayName devicePublicKey.val (toI64 now))) :
    Method.Keeps step I (createAccount devicePublicKey displayName now) := by
  apply keeps_bind (keeps_randomId hr)
  intro id
  exact keeps_bind (keeps_execute (hs id)) fun _ => keeps_pure _

theorem keeps_claimHandle (hsel : StatementKeeps step I (.selectHandle accountId))
    (hset : StatementKeeps step I (.setHandle accountId handle)) : Method.Keeps step I (claimHandle accountId handle) := by
  apply keeps_bind (keeps_execute hsel)
  intro existing
  rcases existing with _ | _ | _
  · exact keeps_throw _
  · apply keeps_bind (keeps_result hset)
    intro r
    cases r with
    | ok _ => exact keeps_pure _
    | error _ => exact keeps_throw _
  · exact keeps_throw _

theorem keeps_nostrPubkey (hs : StatementKeeps step I (.selectNostrPubkey accountId)) :
    Method.Keeps step I (nostrPubkey accountId) := by
  apply keeps_bind (keeps_execute hs)
  intro stored
  rcases stored with _ | _ | bytes
  · exact keeps_throw _
  · exact keeps_pure _
  · exact keeps_bind (Method.keeps_ofExcept _) fun _ => keeps_pure _

theorem keeps_bindNostr {pubkey : Bytes 32} (hs : StatementKeeps step I (.setNostrPubkey accountId pubkey.val)) :
    Method.Keeps step I (bindNostr accountId pubkey) := by
  apply keeps_bind (keeps_result hs)
  intro r
  rcases r with _ | _ | _
  · exact keeps_throw _
  · exact keeps_throw _
  · exact keeps_pure _

theorem keeps_unbindNostr (hclear : StatementKeeps step I (.clearNostrPubkey accountId))
    (hsel : StatementKeeps step I (.selectAccount accountId)) : Method.Keeps step I (unbindNostr accountId) := by
  apply keeps_bind (keeps_execute hclear)
  intro changed
  apply keeps_bind (keeps_execute hsel)
  intro found
  cases found with
  | none => exact keeps_throw _
  | some _ => exact keeps_pure _

theorem keeps_nostrForHandle (hs : StatementKeeps step I (.selectNostrForHandle handle)) :
    Method.Keeps step I (nostrForHandle handle) := by
  apply keeps_bind (keeps_execute hs)
  intro stored
  rcases stored with _ | _ | bytes
  · exact keeps_pure _
  · exact keeps_pure _
  · exact keeps_bind (Method.keeps_ofExcept _) fun _ => keeps_pure _

theorem keeps_rememberProofNonce {nonce : Bytes 32} {skewSeconds : UInt64}
    (hpurge : StatementKeeps step I (.deleteNoncesBefore (toI64 (satSub now skewSeconds))))
    (hins : StatementKeeps step I (.insertNonce nonce.val accountId (toI64 now))) :
    Method.Keeps step I (rememberProofNonce nonce accountId now skewSeconds) := by
  apply keeps_bind (keeps_execute hpurge)
  intro _
  apply keeps_bind (keeps_result hins)
  intro r
  cases r with
  | ok _ => exact keeps_pure _
  | error _ => exact keeps_throw _

end Frames

/-! ## The errors of the service -/

/-- An error whose message takes at most 100 bytes in a frame. -/
def Short (error : ServerError) : Prop := Json.escapedSize error.message ≤ 100

instance (error : ServerError) : Decidable (Short error) := inferInstanceAs (Decidable (_ ≤ _))

section Errors
variable {v : Verifier} {e : ServerError} {devicePublicKey : Bytes 32} {transcript : Blob} {signature : Bytes 64}

theorem short_okOr {α : Type} {error : ServerError} {o : Option α} (herr : Short error) (h : okOr error o = .error e) :
    Short e := by
  cases o with
  | none =>
    cases h
    exact herr
  | some a => cases h

theorem short_freshTimestamp {timestamp now : UInt64} (h : freshTimestamp timestamp now = .error e) : Short e := by
  unfold freshTimestamp at h
  split at h
  · cases h
  · cases h
    decide

theorem short_verifyDevice (h : verifyDevice v devicePublicKey transcript signature = .error e) : Short e := by
  unfold verifyDevice at h
  split_ifs at h <;> cases h <;> decide

theorem short_verifyNostr {nostrPublicKey : Bytes 32}
    (h : verifyNostr v nostrPublicKey transcript signature = .error e) : Short e := by
  unfold verifyNostr at h
  split at h
  · cases h
  · cases h
    decide

theorem short_newDisplayName {displayName : Option String}
    (h : newDisplayName devicePublicKey displayName = .error e) : Short e := by
  unfold newDisplayName at h
  split at h
  · split at h <;> cases h
    decide
  · cases h

end Errors

/-! ## Requests -/

/-- The clock reading that a request carries. -/
def ServiceRequest.now? : ServiceRequest → Option UInt64
  | .register _ _ now => some now
  | .command _ _ _ now => some now
  | _ => none

/-- The methods of the storage that a request makes. A purge of old nonces reaches up to the start of the window before
its clock reading. -/
inductive ServiceRequest.Makes (request : ServiceRequest) : (α : Type) → StorageMethod Service α → Prop where
  | execute (s : Statement) : (∀ limit, s ≠ .deleteNoncesBefore limit) → request.Makes _ (execute s)
  | createAccount (devicePublicKey : Bytes 32) (displayName : String) (now : UInt64) :
      request.Makes _ (createAccount devicePublicKey displayName now)
  | claimHandle (accountId handle : String) : request.Makes _ (claimHandle accountId handle)
  | nostrPubkey (accountId : String) : request.Makes _ (nostrPubkey accountId)
  | bindNostr (accountId : String) (pubkey : Bytes 32) : request.Makes _ (bindNostr accountId pubkey)
  | unbindNostr (accountId : String) : request.Makes _ (unbindNostr accountId)
  | nostrForHandle (handle : String) : request.Makes _ (nostrForHandle handle)
  | rememberProofNonce (nonce : Bytes 32) (accountId : String) {now : UInt64} : request.now? = some now →
      request.Makes _ (rememberProofNonce nonce accountId now nostrProofSkewSeconds)

section Along
variable {P : (α : Type) → ServiceMethod α → Prop} (hP : Method.Along Short P) (v : Verifier)
include hP

theorem along_okOr {α : Type} {error : ServerError} (herr : Short error) (o : Option α) :
    P α (Method.ofExcept (okOr error o)) := hP.ofExcept fun _ => short_okOr herr

theorem along_account (h : P _ (stored (execute (.selectAccount accountId)))) : P _ (Service.account accountId) :=
  hP.bind h fun _ => along_okOr hP (by decide) _

theorem along_nip05 {name : String} (h : ∀ handle, P _ (stored (nostrForHandle handle))) : P _ (Service.nip05 name) := by
  unfold Service.nip05
  split
  · exact hP.throw (by decide)
  dsimp only
  split
  · exact hP.throw (by decide)
  refine hP.bind (h _) fun found => ?_
  refine hP.bind (along_okOr hP (by decide) _) fun publicKey => ?_
  refine hP.bind hP.get fun service => ?_
  split <;> exact hP.pure _

theorem along_status {devicePublicKey : Bytes 32} (now : UInt64)
    (hacct : P _ (stored (execute (.selectAccount accountId)))) (hkey : P _ (stored (nostrPubkey accountId))) :
    P _ (Service.command v accountId devicePublicKey .status now) := by
  refine hP.bind (along_account hP hacct) fun account => ?_
  refine hP.bind hkey fun key => ?_
  exact hP.bind hP.get fun _ => hP.pure _

theorem along_resolveHandle (accountId text : String) (devicePublicKey : Bytes 32) (now : UInt64)
    (h : ∀ handle, P _ (stored (execute (.selectByHandle handle)))) :
    P _ (Service.command v accountId devicePublicKey (.resolveHandle text) now) := by
  refine hP.bind (along_okOr hP (by decide) _) fun handle => ?_
  refine hP.bind ?_ fun _ => hP.pure _
  exact hP.bind (h _) fun _ => along_okOr hP (by decide) _

theorem along_register {devicePublicKey : Bytes 32} {displayName : Option String} {now : UInt64}
    (hfind : P _ (stored (accountForDevice devicePublicKey))) (htouch : P _ (stored (touchDevice devicePublicKey now)))
    (hcreate : ∀ name, P _ (stored (createAccount devicePublicKey name now))) :
    P _ (Service.register devicePublicKey displayName now) := by
  refine hP.bind hfind fun found => ?_
  cases found with
  | some account => exact hP.bind htouch fun _ => hP.pure _
  | none =>
    refine hP.bind (hP.ofExcept fun e => short_newDisplayName) fun name => ?_
    exact hP.bind (hcreate name) fun _ => hP.pure _

/-- **A property that goes along the methods** holds of every request, if it holds of the methods of the storage that the
request makes. -/
theorem along_handle {request : ServiceRequest}
    (hsubscribers : ∀ f : Service → String → List UInt64,
      P _ (Method.modify fun service => { service with subscribers := f service }))
    (h : ∀ {α : Type} {m : StorageMethod Service α}, request.Makes α m → P α (stored m)) :
    P _ (Service.handle v request) := by
  cases request with
  | register =>
    exact along_register hP (h (.execute (.selectDeviceAccount _) (by simp)))
      (h (.execute (.touchDevice _ _) (by simp))) fun _ => h (.createAccount _ _ _)
  | attach => exact hP.bind (hsubscribers _) fun _ => hP.pure _
  | detach => exact hP.bind (hsubscribers _) fun _ => hP.pure _
  | nip05 name => exact along_nip05 hP fun _ => h (.nostrForHandle _)
  | command accountId devicePublicKey command now =>
    have hacct := along_account hP (h (.execute (.selectAccount accountId) (by simp)))
    cases command with
    | hello => exact hP.throw (by decide)
    | authenticate => exact hP.throw (by decide)
    | status => exact along_status hP v now (h (.execute _ (by simp))) (h (.nostrPubkey _))
    | claimHandle text =>
      refine hP.bind (along_okOr hP (by decide) _) fun handle => ?_
      exact hP.bind (h (.claimHandle _ _)) fun _ => hP.pure _
    | resolveHandle text => exact along_resolveHandle hP v accountId text devicePublicKey now fun _ => h (.execute _ (by simp))
    | bindNostr =>
      refine hP.bind hacct fun account => ?_
      refine hP.bind (along_okOr hP (by decide) _) fun handle => ?_
      refine hP.bind (along_okOr hP (by decide) _) fun nostrPublicKey => ?_
      refine hP.bind (along_okOr hP (by decide) _) fun nonce => ?_
      refine hP.bind (along_okOr hP (by decide) _) fun deviceSignature => ?_
      refine hP.bind (along_okOr hP (by decide) _) fun nostrSignature => ?_
      refine hP.bind (hP.ofExcept fun e => short_freshTimestamp) fun _ => ?_
      refine hP.bind hP.get fun service => ?_
      refine hP.bind (hP.ofExcept fun e => short_verifyDevice) fun _ => ?_
      refine hP.bind (hP.ofExcept fun e => short_verifyNostr) fun _ => ?_
      refine hP.bind (h (.rememberProofNonce _ _ rfl)) fun _ => ?_
      exact hP.bind (h (.bindNostr _ _)) fun _ => hP.pure _
    | unbindNostr =>
      refine hP.bind hacct fun account => ?_
      refine hP.bind (along_okOr hP (by decide) _) fun handle => ?_
      refine hP.bind (h (.nostrPubkey _)) fun key => ?_
      refine hP.bind (along_okOr hP (by decide) _) fun bound => ?_
      refine hP.bind (along_okOr hP (by decide) _) fun nonce => ?_
      refine hP.bind (along_okOr hP (by decide) _) fun deviceSignature => ?_
      refine hP.bind (hP.ofExcept fun e => short_freshTimestamp) fun _ => ?_
      refine hP.bind hP.get fun service => ?_
      refine hP.bind (hP.ofExcept fun e => short_verifyDevice) fun _ => ?_
      refine hP.bind (h (.rememberProofNonce _ _ rfl)) fun _ => ?_
      exact hP.bind (h (.unbindNostr _)) fun _ => hP.pure _

end Along

section Requests
variable {step : Answering Call.Answer ω} {I : Service × ω → Service × ω → Prop} (v : Verifier)

theorem keeps_stored {α : Type} {m : StorageMethod Service α} (hm : Method.Keeps step I m) :
    Method.Keeps step I (stored m) :=
  Method.keeps_mapError storageError hm

variable [IsPreorder (Service × ω) I]

theorem keeps_account (hs : StatementKeeps step I (.selectAccount accountId)) :
    Method.Keeps step I (Service.account accountId) := along_account along_keeps (keeps_stored (keeps_execute hs))

/-- What every request keeps: the preorder that its statements keep. -/
theorem keeps_handle {request : ServiceRequest} (hr : RandomKeeps step I)
    (hattach : ∀ service subscribers w, I (service, w) ({ service with subscribers }, w))
    (hs : ∀ s, (∀ limit, s ≠ .deleteNoncesBefore limit) → StatementKeeps step I s)
    (hpurge : ∀ now, request.now? = some now →
      StatementKeeps step I (.deleteNoncesBefore (toI64 (satSub now nostrProofSkewSeconds)))) :
    Method.Keeps step I (Service.handle v request) := by
  refine along_handle along_keeps v (fun f => Method.keeps_modify fun service w => hattach service _ w) ?_
  intro α m hm
  apply keeps_stored
  cases hm with
  | execute s hne => exact keeps_execute (hs s hne)
  | createAccount => exact keeps_createAccount hr fun id => hs _ (by simp)
  | claimHandle => exact keeps_claimHandle (hs _ (by simp)) (hs _ (by simp))
  | nostrPubkey => exact keeps_nostrPubkey (hs _ (by simp))
  | bindNostr => exact keeps_bindNostr (hs _ (by simp))
  | unbindNostr => exact keeps_unbindNostr (hs _ (by simp)) (hs _ (by simp))
  | nostrForHandle => exact keeps_nostrForHandle (hs _ (by simp))
  | rememberProofNonce _ _ hnow => exact keeps_rememberProofNonce (hpurge _ hnow) (hs _ (by simp))

end Requests

end OmaChat.Server

import OmaChat.Lib.Run
import OmaChat.Lib.Tasks
import OmaChat.Lib.Durable
import OmaChat.Daemon.Actor

/-!
# The books of the chat actor

The actor alone reads and writes the contacts, messages and relays, so their records are part of the world here
(`World`); the identity belongs to other tasks as well, and it, the clock, the pool and the hub may answer anything.
`Books` is what is left of an actor and its world when only the two lists and their records are kept.

* `Quiet m` : the method `m` leaves the books alone; `Calm m` : it does not even make a call about them;
* `storeMessage_books`, `prepareSend_books`, .. : what every other method does to them;
* `chatStep_books` : what one step of the actor does to them.
-/

namespace OmaChat.Daemon
open Wire Effects Nostr Proto Durable

structure World where
  contacts : Disk (List Contact)
  messages : Disk (List StoredMessage)
  relays : Disk (List String)

def Absent (error : StoreError) : Prop := error = .recordNotFound

/-- The answers that a call can get, and what it does to the records. -/
def Answers : Answering Call.Answer World
  | .read .contacts, w, r, w' => ∃ d, Reads Absent w.contacts r d ∧ w' = { w with contacts := d }
  | .read .messages, w, r, w' => ∃ d, Reads Absent w.messages r d ∧ w' = { w with messages := d }
  | .read .relays, w, r, w' => ∃ d, Reads Absent w.relays r d ∧ w' = { w with relays := d }
  | .write .contacts l, w, r, w' => ∃ d, Writes w.contacts l r d ∧ w' = { w with contacts := d }
  | .write .messages l, w, r, w' => ∃ d, Writes w.messages l r d ∧ w' = { w with messages := d }
  | .write .relays l, w, r, w' => ∃ d, Writes w.relays l r d ∧ w' = { w with relays := d }
  | _, w, _, w' => w' = w

/-- Contacts and messages, in memory and on disk. -/
@[ext] structure Books where
  contacts : Mirror Contact
  messages : Mirror StoredMessage

def books (c : Actor × World) : Books := ⟨⟨c.1.contacts, c.2.contacts⟩, ⟨c.1.messages, c.2.messages⟩⟩

@[simp] theorem books_contacts (c : Actor × World) : (books c).contacts = ⟨c.1.contacts, c.2.contacts⟩ := rfl

@[simp] theorem books_messages (c : Actor × World) : (books c).messages = ⟨c.1.messages, c.2.messages⟩ := rfl

/-! ## Quiet methods -/

def SameBooks (c c' : Actor × World) : Prop := books c' = books c

instance : IsPreorder (Actor × World) SameBooks where
  refl _ := rfl
  trans _ _ _ h h' := Eq.trans h' h

/-- The method leaves the books alone, whatever its calls are answered. -/
def Quiet {ε α : Type} (m : Method Call.Answer Actor ε α) : Prop := Method.Keeps Answers SameBooks m

/-- The calls that are not about the contacts and messages. -/
def Call.quiet : Call → Bool
  | .read .contacts | .read .messages | .write .contacts _ | .write .messages _ => false
  | _ => true

/-- The calls that are not about the contacts and messages: no record of these, and no event of the messages. -/
def Call.calm : Call → Bool
  | .publishHub event => event.topic ≠ .messages
  | call => call.quiet

variable {call : Call} {ε : Type}

theorem Call.quiet_of_calm (h : call.calm) : call.quiet := by
  cases call <;> first | rfl | exact h

def calmProtocol : Protocol Call.Answer Unit := ⟨(), fun _ call => call.calm, fun _ _ _ => ()⟩

/-- The method makes calm calls only, and leaves both lists as they are. -/
def Calm {ε α : Type} (m : Method Call.Answer Actor ε α) : Prop :=
  ∀ actor, m.Obeys calmProtocol actor () fun _ _ actor' =>
    actor'.contacts = actor.contacts ∧ actor'.messages = actor.messages

section Combinators
open Method
variable {ε ε' α β : Type}

theorem calm_pure (a : α) : Calm (pure a : Method Call.Answer Actor ε α) := fun _ => obeys_pure.2 ⟨rfl, rfl⟩

theorem calm_throw (e : ε) : Calm (throw e : Method Call.Answer Actor ε α) := fun _ => obeys_throw.2 ⟨rfl, rfl⟩

theorem calm_ofExcept (x : Except ε α) : Calm (ofExcept x : Method Call.Answer Actor ε α) := by
  intro actor
  rw [obeys_ofExcept]
  exact ⟨rfl, rfl⟩

theorem calm_get : Calm (get : Method Call.Answer Actor ε Actor) := fun _ => obeys_get.2 ⟨rfl, rfl⟩

theorem calm_modify {f : Actor → Actor}
    (hf : ∀ actor, (f actor).contacts = actor.contacts ∧ (f actor).messages = actor.messages) :
    Calm (modify f : Method Call.Answer Actor ε Unit) := fun actor => obeys_modify.2 (hf actor)

theorem calm_request (h : call.calm) : Calm (request call : Method Call.Answer Actor ε call.Answer) :=
  fun _ => obeys_request.2 ⟨h, fun _ => ⟨rfl, rfl⟩⟩

variable {m : Method Call.Answer Actor ε α}

theorem calm_bind {f : α → Method Call.Answer Actor ε β} (hm : Calm m) (hf : ∀ a, Calm (f a)) : Calm (m >>= f) := by
  intro actor
  rw [obeys_bind]
  refine (hm actor).mono fun _ x actor₁ ⟨hcts, hmsgs⟩ => ?_
  cases x with
  | error e => exact ⟨hcts, hmsgs⟩
  | ok a =>
    refine (hf a actor₁).mono fun _ _ _ hnext => ?_
    rw [hcts, hmsgs] at hnext
    exact hnext

theorem calm_mapError (f : ε → ε') (hm : Calm m) : Calm (m.mapError f) := fun actor => obeys_mapError.2 (hm actor)

theorem calm_attempt (hm : Calm m) :
    Calm (m.attempt : Method Call.Answer Actor ε' (Except ε α)) := fun actor => obeys_attempt.2 (hm actor)

end Combinators

theorem Answers.quiet {w w' : World} {r : call.Answer} (h : Answers call w r w') (hquiet : call.quiet) :
    w'.contacts = w.contacts ∧ w'.messages = w.messages := by
  have hsame (hw : w' = w) : w'.contacts = w.contacts ∧ w'.messages = w.messages := by rw [hw]; exact ⟨rfl, rfl⟩
  have hrelays {d : Disk (List String)} (hw : w' = { w with relays := d }) :
      w'.contacts = w.contacts ∧ w'.messages = w.messages := by rw [hw]; exact ⟨rfl, rfl⟩
  cases call with
  | read record =>
    cases record with
    | relays => exact h.elim fun _ h => hrelays h.2
    | identity => exact hsame h
    | _ => cases hquiet
  | write record =>
    cases record with
    | relays => exact h.elim fun _ h => hrelays h.2
    | identity => exact hsame h
    | _ => cases hquiet
  | _ => exact hsame h

theorem Calm.quiet {α : Type} {m : Method Call.Answer Actor ε α} (h : Calm m) : Quiet m := by
  intro c x c' hexec
  have hobeys := Method.obeys_iff.1 (h c.1)
  obtain ⟨-, ⟨hcts, hmsgs⟩, hw⟩ := Prog.Obeys.exec
    (K := fun (_ : Unit) (w : World) => w.contacts = c.2.contacts ∧ w.messages = c.2.messages)
    (fun _ call w r w' hcalm hw hs => by
      obtain ⟨hcts, hmsgs⟩ := hs.quiet (Call.quiet_of_calm hcalm)
      exact ⟨hcts.trans hw.1, hmsgs.trans hw.2⟩) hexec hobeys ⟨rfl, rfl⟩
  exact Books.ext (by rw [books_contacts, books_contacts, hcts, hw.1]) (by rw [books_messages, books_messages, hmsgs, hw.2])

theorem quiet_request (h : call.quiet) : Quiet (Method.request call : Method Call.Answer Actor ε call.Answer) := by
  refine Method.keeps_request fun s w r w' hs => ?_
  obtain ⟨hcts, hmsgs⟩ := hs.quiet h
  exact Books.ext (by rw [books_contacts, books_contacts, hcts]) (by rw [books_messages, books_messages, hmsgs])

theorem quiet_publish (topic : Topic) (payload : Json) : Quiet (publish topic payload) :=
  Method.keeps_bind (quiet_request rfl) fun _ => quiet_request rfl

section Calm
open Method
variable (p : Primitives)

theorem calm_unixTime : Calm unixTime := by
  refine calm_bind (calm_request rfl) fun time => ?_
  split
  · exact calm_pure _
  · exact calm_throw _

theorem calm_publish {topic : Topic} (h : topic ≠ .messages) (payload : Json) : Calm (publish topic payload) :=
  calm_bind (calm_request rfl) fun _ => calm_request (by simpa [Call.calm] using h)

theorem calm_loadSecret : Calm (loadSecret p) := by
  refine calm_bind (calm_request rfl) fun answer => ?_
  split
  · exact calm_throw _
  · split
    · exact calm_pure _
    · exact calm_throw _
  · exact calm_pure _
  · exact calm_throw _

theorem calm_generateSecret : Calm (generateSecret p) := by
  refine calm_bind (calm_request rfl) fun answer => ?_
  split
  · exact calm_throw _
  · split
    · exact calm_pure _
    · exact calm_throw _

theorem calm_saveNew (secret : NostrSecret p) : Calm (saveNew p secret) := by
  refine calm_bind (calm_request rfl) fun answer => ?_
  split
  · exact calm_throw _
  · refine calm_bind (calm_request rfl) fun written => ?_
    split
    · exact calm_pure _
    · exact calm_throw _

theorem calm_ensureIdentity : Calm (ensureIdentity p) := by
  refine calm_bind (calm_mapError _ (calm_loadSecret p)) fun loaded => ?_
  split
  · exact calm_pure _
  · refine calm_bind (calm_mapError _ (calm_generateSecret p)) fun secret => ?_
    refine calm_bind (calm_attempt (calm_saveNew p secret)) fun outcome => ?_
    split
    · exact calm_pure _
    · refine calm_bind (calm_mapError _ (calm_loadSecret p)) fun stored => ?_
      split
      · exact calm_pure _
      · exact calm_throw _
    · exact calm_throw _

theorem calm_optionalSecret : Calm (optionalSecret p) := by
  refine calm_bind (calm_attempt (calm_loadSecret p)) fun loaded => ?_
  split <;> exact calm_pure _

theorem calm_requiredSecret : Calm (requiredSecret p) := by
  refine calm_bind (calm_mapError _ (calm_loadSecret p)) fun loaded => ?_
  split
  · exact calm_pure _
  · exact calm_throw _

theorem calm_publishInboxList (secret : NostrSecret p) : Calm (publishInboxList p secret) := by
  refine calm_bind calm_get fun actor => ?_
  dsimp only
  split
  · exact calm_pure _
  refine calm_bind (calm_request rfl) fun now => ?_
  split
  · exact calm_pure _
  refine calm_bind (calm_request rfl) fun event => ?_
  split
  · exact calm_pure _
  refine calm_bind calm_get fun actor => ?_
  split
  · refine calm_bind (calm_request rfl) fun connected => ?_
    split
    · exact calm_bind (calm_request rfl) fun _ => calm_pure _
    · exact calm_pure _
  · exact calm_pure _

theorem calm_ensureSubscription : Calm (ensureSubscription p) := by
  refine calm_bind (calm_optionalSecret p) fun loaded => ?_
  split
  · exact calm_pure _
  refine calm_bind calm_get fun actor => ?_
  split
  · exact calm_pure _
  refine calm_bind (calm_request rfl) fun now => ?_
  dsimp only
  split
  · exact calm_bind (calm_request rfl) fun _ =>
      calm_bind (calm_modify fun _ => ⟨rfl, rfl⟩) fun _ => calm_publishInboxList p _
  · exact calm_bind (calm_modify fun _ => ⟨rfl, rfl⟩) fun _ => calm_publishInboxList p _

theorem calm_closePool : Calm closePool := by
  refine calm_bind calm_get fun actor => ?_
  split
  · exact calm_request rfl
  · exact calm_pure _

theorem calm_restartPool : Calm (restartPool p) := by
  refine calm_bind calm_closePool fun _ => calm_bind (calm_optionalSecret p) fun secret =>
    calm_bind (calm_modify fun _ => ⟨rfl, rfl⟩) fun _ => calm_bind calm_get fun actor => ?_
  split
  · exact calm_pure _
  refine calm_bind (calm_optionalSecret p) fun _ => calm_bind (calm_request rfl) fun spawned => ?_
  split
  · exact calm_bind (calm_modify fun _ => ⟨rfl, rfl⟩) fun _ => calm_ensureSubscription p
  · exact calm_pure _

theorem calm_ensurePool : Calm (ensurePool p) := by
  refine calm_bind (calm_optionalSecret p) fun secret => calm_bind calm_get fun actor => ?_
  split
  · exact calm_ensureSubscription p
  · exact calm_restartPool p

theorem calm_publishToRelays (event : SignedEvent) : Calm (publishToRelays event) := by
  refine calm_bind calm_get fun actor => ?_
  split
  · refine calm_bind (calm_request rfl) fun connected => ?_
    split
    · refine calm_bind (calm_request rfl) fun outcome => ?_
      split
      · exact calm_pure _
      · exact calm_throw _
    · exact calm_throw _
  · exact calm_throw _

theorem calm_resolvePeer (peer : String) : Calm (resolvePeer p peer) := by
  refine calm_bind calm_get fun actor => ?_
  split
  · refine calm_bind (calm_request rfl) fun resolved => ?_
    split
    · exact calm_throw _
    · exact calm_pure _
  split
  · exact calm_pure _
  split
  · split
    · exact calm_throw _
    · split
      · exact calm_pure _
      · exact calm_throw _
  split
  · exact calm_throw _
  split
  · exact calm_throw _
  · exact calm_pure _

theorem calm_randomArray : Calm randomArray := by
  refine calm_bind (calm_request rfl) fun bytes => ?_
  split
  · exact calm_pure _
  · exact calm_throw _

theorem calm_randomSecretKey (attempts : Nat) : Calm (randomSecretKey p attempts) := by
  induction attempts with
  | zero => exact calm_throw _
  | succ attempts ih =>
    refine calm_bind calm_randomArray fun candidate => ?_
    split
    · exact calm_pure _
    · exact ih

theorem calm_randomPastTimestamp (now : UInt64) : Calm (randomPastTimestamp now) := by
  refine calm_bind (calm_request rfl) fun bytes => ?_
  split
  · exact calm_throw _
  · exact calm_pure _

theorem calm_createGiftWrap (rumor : Rumor) (sender recipient : Bytes 32) (now : UInt64) :
    Calm (createGiftWrap p rumor sender recipient now) :=
  calm_bind (calm_randomPastTimestamp now) fun _ => calm_bind calm_randomArray fun _ =>
    calm_bind calm_randomArray fun _ => calm_bind (calm_randomSecretKey p 128) fun _ =>
    calm_bind (calm_randomPastTimestamp now) fun _ => calm_bind calm_randomArray fun _ =>
    calm_bind calm_randomArray fun _ => calm_ofExcept _

theorem calm_incoming (notification : RelayNotification) : Calm (incoming p notification) := by
  unfold incoming
  split
  · split
    · exact calm_pure _
    refine calm_bind (calm_optionalSecret p) fun loaded => ?_
    split
    · exact calm_pure _
    refine calm_bind (calm_request rfl) fun now => ?_
    split
    · exact calm_pure _
    split
    · exact calm_pure _
    · exact calm_bind calm_get fun _ => calm_pure _
  · exact calm_pure _

theorem calm_identityValue (generated : Bool) : Calm (identityValue p generated) :=
  calm_bind (calm_requiredSecret p) fun _ => calm_pure _

theorem calm_relayValue : Calm relayValue := calm_bind calm_get fun _ => calm_pure _

theorem calm_snapshotValue : Calm (snapshotValue p) :=
  calm_bind (calm_optionalSecret p) fun _ => calm_bind calm_get fun _ => calm_pure _

theorem calm_prepare : Calm (prepare p) :=
  calm_bind (calm_ensureIdentity p) fun _ => calm_bind (calm_modify fun _ => ⟨rfl, rfl⟩) fun _ =>
    calm_bind (calm_restartPool p) fun _ => calm_identityValue p _

theorem calm_canonicalizeRelays (canonical relays : List String) : Calm (canonicalizeRelays canonical relays) := by
  induction relays generalizing canonical with
  | nil => exact calm_pure _
  | cons relay rest ih =>
    refine calm_bind (calm_request rfl) fun url => ?_
    split
    · exact calm_throw _
    split
    · exact calm_throw _
    · exact ih _

theorem calm_canonicalRelays (relays : List String) : Calm (canonicalRelays relays) := by
  unfold canonicalRelays
  split
  · exact calm_throw _
  · exact calm_canonicalizeRelays [] relays

theorem calm_setRelays (relays : List String) : Calm (setRelays p relays) := by
  have hsave (l : List String) : Calm (saveRecord .relays l) := by
    refine calm_bind (calm_request rfl) fun written => ?_
    split
    · exact calm_pure _
    · exact calm_throw _
  refine calm_bind ?_ fun canonical => calm_bind (hsave canonical) fun _ =>
    calm_bind (calm_modify fun _ => ⟨rfl, rfl⟩) fun _ => calm_bind (calm_restartPool p) fun _ => calm_relayValue
  split
  · exact calm_pure _
  · exact calm_canonicalRelays relays

def ChatRequest.quiet : ChatRequest → Bool
  | .addContact _ | .removeContact _ | .send _ _ => false
  | _ => true

theorem calm_handle {request : ChatRequest} (h : request.quiet) : Calm (handle p request) := by
  cases request with
  | addContact peer => cases h
  | removeContact npub => cases h
  | send peer text => cases h
  | prepare => exact calm_prepare p
  | setRelays relays => exact calm_setRelays p relays
  | reload =>
    exact calm_bind (calm_modify fun _ => ⟨rfl, rfl⟩) fun _ => calm_bind (calm_restartPool p) fun _ =>
      calm_identityValue p false
  | snapshot => exact calm_snapshotValue p
  | loopback base => exact calm_bind (calm_modify fun _ => ⟨rfl, rfl⟩) fun _ => calm_pure _
  | showRelays => exact calm_relayValue
  | listContacts => exact calm_bind calm_get fun _ => calm_pure _
  | messages => exact calm_bind calm_get fun _ => calm_pure _
  | shutdown => exact calm_pure _

end Calm

section Identity
open Method
variable {p : Primitives} {ω : Type} {step : Answering Call.Answer ω} {c c' : Actor × ω}

/-- What `optionalSecret` makes of the answer of the store. -/
def readSecret (p : Primitives) : Except StoreError (Option (Bytes 32)) → Option (NostrSecret p)
  | .ok (some bytes) => NostrSecret.fromBytes p bytes
  | _ => none

theorem optionalSecret_eq : optionalSecret p = request (.read .identity) >>= fun r => pure (readSecret p r) := by
  funext actor
  refine congrArg (Prog.call (Call.read .identity)) (funext fun r => ?_)
  match r with
  | .ok none => rfl
  | .ok (some bytes) => cases h : NostrSecret.fromBytes p bytes <;> simp [Prog.bind, h, readSecret] <;> rfl
  | .error e => cases e <;> rfl

theorem exec_optionalSecret_iff {x : Except ChatError (Option (NostrSecret p))} : (optionalSecret p).Exec step c x c' ↔
    ∃ r, step (.read .identity) c.2 r c'.2 ∧ c'.1 = c.1 ∧ x = .ok (readSecret p r) := by
  rw [optionalSecret_eq, exec_request_bind]
  simp only [exec_pure]
  constructor
  · rintro ⟨r, w, hr, hx, rfl⟩
    exact ⟨r, hr, rfl, hx⟩
  · rintro ⟨r, hr, hactor, hx⟩
    exact ⟨r, c'.2, hr, hx, Prod.ext hactor rfl⟩

end Identity

/-! ## Changes of the books -/

/-- The actor makes `l` its contacts and tries to save them. -/
structure SavesContacts (l : List Contact) (b b' : Books) : Prop where
  contacts : ∃ r : Except StoreError Unit, Mirror.Saves l r b.contacts b'.contacts
  messages : b'.messages = b.messages

/-- The actor adds `message` to its messages, without the oldest if there are `MAX_MESSAGES`, and tries to save them. -/
structure StoresMessage (message : StoredMessage) (b b' : Books) : Prop where
  messages : ∃ r : Except StoreError Unit,
    Mirror.Saves (Window.push maxMessages b.messages.memory message) r b.messages b'.messages
  contacts : b'.contacts = b.contacts

inductive AddsContact : Books → Books → Prop where
  | same (b : Books) : AddsContact b b
  | adds {b b' : Books} (contact : Contact) : SavesContacts (b.contacts.memory ++ [contact]) b b' → AddsContact b b'

/-- What removing contacts can do: nothing is saved if there is nothing to remove. -/
inductive RemovesContact : Books → Books → Prop where
  | same (b : Books) : RemovesContact b b
  | removes {b b' : Books} (keep : Contact → Bool) : b.contacts.memory.filter keep ≠ b.contacts.memory →
      SavesContacts (b.contacts.memory.filter keep) b b' → RemovesContact b b'

structure Reloads (b b' : Books) : Prop where
  contacts : ∃ r, Mirror.Loads Absent r b.contacts b'.contacts
  messages : ∃ r, Mirror.Loads Absent r b.messages b'.messages

section Changes
open Method
variable (p : Primitives) {c c' : Actor × World} {x : Except ChatError Unit} {ω : Type} {record : Record}
  {message : StoredMessage} {peer text : String} {step : Answering Call.Answer ω}

theorem exec_saveRecord {c c' : Actor × ω} {value : record.Value} :
    (saveRecord record value).Exec step c x c' ↔
      ∃ r, step (.write record value) c.2 r c'.2 ∧ c'.1 = c.1 ∧ x = Except.mapError .sealed r := by
  unfold saveRecord
  rw [exec_request_bind]
  constructor
  · rintro ⟨r, w, hs, h⟩
    cases r with
    | ok a =>
      obtain ⟨rfl, rfl⟩ := exec_pure.1 h
      exact ⟨_, hs, rfl, rfl⟩
    | error e =>
      obtain ⟨rfl, rfl⟩ := exec_throw.1 h
      exact ⟨_, hs, rfl, rfl⟩
  · rintro ⟨r, hs, h₁, rfl⟩
    refine ⟨r, c'.2, hs, ?_⟩
    cases r with
    | ok a => exact exec_pure.2 ⟨rfl, by rw [← h₁]⟩
    | error e => exact exec_throw.2 ⟨rfl, by rw [← h₁]⟩

theorem exec_loadRecord_bind {β : Type} {c c' : Actor × ω}
    {f : Option record.Value → ChatMethod β} {y : Except ChatError β} :
    (loadRecord record >>= f).Exec step c y c' ↔
      ∃ r w₁, step (.read record) c.2 r w₁ ∧ (f r.toOption.join).Exec step (c.1, w₁) y c' := by
  unfold loadRecord
  rw [Method.bind_assoc, exec_request_bind]
  refine exists_congr fun r => ?_
  cases r <;> exact Iff.rfl

theorem saveContacts_books {l : List Contact} {actor : Actor}
    (h : (saveRecord .contacts l).Exec Answers ({ actor with contacts := l }, c.2) x c')
    (hm : actor.messages = c.1.messages) : SavesContacts l (books c) (books c') := by
  obtain ⟨r, ⟨d, hd, hw⟩, ha, -⟩ := exec_saveRecord.1 h
  refine ⟨⟨r, ?_, ?_⟩, ?_⟩
  · rw [books_contacts, ha]
  · rw [books_contacts, books_contacts, hw]
    exact hd
  · rw [books_messages, books_messages, ha, hw, ← hm]

theorem storeMessage_books {x : Except ChatError StoredMessage}
    (h : (storeMessage message).Exec Answers c x c') : StoresMessage message (books c) (books c') := by
  obtain ⟨y, c₁, h₁, hb⟩ := exec_bind_of_keeps (I := SameBooks)
    (fun _ => keeps_bind (quiet_publish _ _) fun _ => keeps_pure _) (exec_get_bind.1 (exec_modify_bind.1 h))
  obtain ⟨r, ⟨d, hd, hw⟩, ha, -⟩ := exec_saveRecord.1 h₁
  rw [show books c' = books c₁ from hb]
  refine ⟨⟨r, ?_, ?_⟩, ?_⟩
  · rw [books_messages, ha]
    rfl
  · rw [books_messages, books_messages, hw]
    exact hd
  · rw [books_contacts, books_contacts, ha, hw]

/-- The answers of a world that is no wider than `Answers`. -/
abbrev Within (step : Answering Call.Answer World) : Prop :=
  ∀ call w r w', step call w r w' → Answers call w r w'

theorem within_answers : Within Answers := fun _ _ _ _ h => h

theorem Quiet.keeps {α : Type} {m : Method Call.Answer Actor ε α} (h : Quiet m)
    {step : Answering Call.Answer World} (hstep : Within step) : Keeps step SameBooks m :=
  fun _ _ _ hexec => h _ _ _ (hexec.mono hstep)

/-- What a request with a peer does to the contacts: nothing, or the peer that was resolved is added. -/
inductive AddsPeer (step : Answering Call.Answer World) (peer : String) (c c' : Actor × World) :
    Prop where
  | same : SameBooks c c' → AddsPeer step peer c c'
  | adds {c₁ c₂ : Actor × World} {pubkey : Bytes 32} {nip05 : Option String} : SameBooks c c₁ →
      (resolvePeer p peer).Exec step c₁ (.ok (pubkey, nip05)) c₂ →
      SavesContacts (c.1.contacts ++ [newContact p pubkey nip05]) (books c) (books c') → AddsPeer step peer c c'

section Peers
variable {step : Answering Call.Answer World} {peer : String} {pubkey : Bytes 32} {nip05 : Option String}

theorem AddsPeer.addsContact (h : AddsPeer p step peer c c') : AddsContact (books c) (books c') := by
  cases h with
  | same hb =>
    rw [show books c' = books c from hb]
    exact .same _
  | adds _ _ hsaves => exact .adds _ hsaves

theorem AddsPeer.of_saves {c₁ c₂ c₃ : Actor × World}
    (hb₁ : SameBooks c c₁) (hresolve : (resolvePeer p peer).Exec step c₁ (.ok (pubkey, nip05)) c₂) (hb : SameBooks c c₃)
    (h : SavesContacts (c₃.1.contacts ++ [newContact p pubkey nip05]) (books c₃) (books c')) : AddsPeer p step peer c c' := by
  refine .adds hb₁ hresolve ?_
  rw [← show books c₃ = books c from hb,
    show c.1.contacts = c₃.1.contacts from (congrArg (fun b => b.contacts.memory) hb).symm]
  exact h

theorem rememberContact_saves (hstep : Within step) (h : (rememberContact p pubkey nip05).Exec step c x c') :
    SameBooks c c' ∨ SavesContacts (c.1.contacts ++ [newContact p pubkey nip05]) (books c) (books c') := by
  unfold rememberContact at h
  rw [exec_get_bind] at h
  split at h
  · obtain ⟨-, rfl⟩ := exec_pure.1 h
    exact .inl rfl
  split at h
  · obtain ⟨-, rfl⟩ := exec_throw.1 h
    exact .inl rfl
  · exact .inr (saveContacts_books (h.mono hstep) rfl)

theorem addContact_peer (hstep : Within step) {x : Except ChatError Json}
    (h : (addContact p peer).Exec step c x c') : AddsPeer p step peer c c' := by
  unfold addContact at h
  -- the identity, the peer and the user's own key first
  obtain hb | ⟨_, c₁, hb₁, -, h⟩ := exec_keeps_bind (refl_of SameBooks c) ((calm_ensureIdentity p).quiet.keeps hstep) h
  · exact .same hb
  obtain hb | ⟨_, c₂, hb₂, hresolve, h⟩ := exec_keeps_bind hb₁ ((calm_resolvePeer p peer).quiet.keeps hstep) h
  · exact .same hb
  obtain hb | ⟨mine, c₃, hb, -, h⟩ := exec_keeps_bind hb₂ ((calm_requiredSecret p).quiet.keeps hstep) h
  · exact .same hb
  split at h
  · obtain ⟨-, rfl⟩ := exec_throw.1 h
    exact .same hb
  rw [exec_get_bind] at h
  split at h
  · obtain ⟨-, rfl⟩ := exec_pure.1 h
    exact .same hb
  split at h
  · obtain ⟨-, rfl⟩ := exec_throw.1 h
    exact .same hb
  · obtain ⟨y, c₄, h₄, hb₄⟩ := exec_bind_of_keeps (I := SameBooks)
      (fun _ => Quiet.keeps (keeps_bind (quiet_publish _ _) fun _ => keeps_bind (calm_ensurePool p).quiet fun _ => keeps_pure _)
        hstep) (exec_get_bind.1 (exec_modify_bind.1 h))
    refine .of_saves p hb₁ hresolve hb ?_
    rw [show books c' = books c₄ from hb₄]
    exact saveContacts_books (h₄.mono hstep) rfl

theorem prepareSend_peer (hstep : Within step) {x : Except ChatError (Outgoing p)}
    (h : (prepareSend p peer text).Exec step c x c') : AddsPeer p step peer c c' := by
  unfold prepareSend at h
  split at h
  · obtain ⟨-, rfl⟩ := exec_throw.1 h
    exact .same rfl
  obtain hb | ⟨_, c₁, hb₁, -, h⟩ := exec_keeps_bind (refl_of SameBooks c) ((calm_ensureIdentity p).quiet.keeps hstep) h
  · exact .same hb
  obtain hb | ⟨_, c₂, hb₂, -, h⟩ := exec_keeps_bind hb₁ ((calm_ensurePool p).quiet.keeps hstep) h
  · exact .same hb
  obtain hb | ⟨_, c₃, hb, hresolve, h⟩ := exec_keeps_bind hb₂ ((calm_resolvePeer p peer).quiet.keeps hstep) h
  · exact .same hb
  dsimp only at h
  split at h
  · obtain ⟨-, rfl⟩ := exec_throw.1 h
    exact .same hb
  · obtain ⟨y, c₄, h₄, hb₄⟩ :=
      exec_bind_of_keeps (I := SameBooks) (fun _ => Quiet.keeps (keeps_bind calm_unixTime.quiet fun _ =>
      keeps_bind (keeps_ofExcept _) fun _ => keeps_pure _) hstep) h
    obtain hb₃ | hsaves := rememberContact_saves p hstep h₄
    · exact .same (trans_of SameBooks hb (trans_of SameBooks hb₃ hb₄))
    · refine .of_saves p hb₂ hresolve hb ?_
      rw [show books c' = books c₄ from hb₄]
      exact hsaves

end Peers

theorem addContact_books {x : Except ChatError Json} (h : (addContact p peer).Exec Answers c x c') :
    AddsContact (books c) (books c') := (addContact_peer p within_answers h).addsContact

theorem removeContact_books {npub : String} {x : Except ChatError Json}
    (h : (removeContact p npub).Exec Answers c x c') : RemovesContact (books c) (books c') := by
  unfold removeContact at h
  split at h
  · obtain ⟨-, rfl⟩ := exec_throw.1 h
    exact .same _
  rw [exec_get_bind] at h
  dsimp only at h
  rw [exec_modify_bind] at h
  split at h
  · obtain ⟨-, rfl⟩ := exec_throw.1 h
    -- nothing was filtered out
    rename_i hlen
    have hkept := List.filter_eq_self.2 (List.length_filter_eq_length_iff.1 hlen)
    rw [hkept]
    exact .same _
  · rename_i hlen
    obtain ⟨y, c₁, h₁, hb₁⟩ := exec_bind_of_keeps (I := SameBooks) (fun _ => keeps_pure _) h
    rw [show books c' = books c₁ from hb₁]
    exact .removes _ (fun hsame => hlen (congrArg List.length hsame)) (saveContacts_books h₁ rfl)

theorem prepareSend_books {x : Except ChatError (Outgoing p)}
    (h : (prepareSend p peer text).Exec Answers c x c') : AddsContact (books c) (books c') :=
  (prepareSend_peer p within_answers h).addsContact

theorem sendRumor_books {outgoing : Outgoing p} {x : Except ChatError Json}
    (h : (sendRumor p outgoing text).Exec Answers c x c') :
    books c' = books c ∨ StoresMessage (outgoingMessage p outgoing text) (books c) (books c') := by
  unfold sendRumor at h
  obtain hb | ⟨recipientWrap, c₁, hb₁, -, h⟩ :=
    exec_keeps_bind (refl_of SameBooks c) (calm_createGiftWrap p _ _ _ _).quiet h
  · exact .inl hb
  obtain hb | ⟨selfWrap, c₂, hb₂, -, h⟩ := exec_keeps_bind hb₁ (calm_createGiftWrap p _ _ _ _).quiet h
  · exact .inl hb
  obtain hb | ⟨_, c₃, hb₃, -, h⟩ := exec_keeps_bind hb₂ (calm_publishToRelays recipientWrap).quiet h
  · exact .inl hb
  obtain hb | ⟨_, c₄, hb, -, h⟩ := exec_keeps_bind hb₃ (keeps_attempt (calm_publishToRelays selfWrap).quiet) h
  · exact .inl hb
  rw [← show books c₄ = books c from hb]
  obtain ⟨y, c₅, h₅, hb₅⟩ := exec_bind_of_keeps (I := SameBooks) (fun _ => keeps_pure _) h
  rw [show books c' = books c₅ from hb₅]
  exact .inr (storeMessage_books h₅)

theorem any_id_iff {messages : List StoredMessage} {id : String} :
    (messages.any fun stored => stored.id == id) = true ↔ id ∈ messages.map StoredMessage.id := by simp

theorem storeIncoming_books (h : (storeIncoming (some message)).Exec Answers c x c') :
    (message.id ∈ c.1.messages.map StoredMessage.id ∧ books c' = books c) ∨
      (message.id ∉ c.1.messages.map StoredMessage.id ∧ StoresMessage message (books c) (books c')) := by
  unfold storeIncoming at h
  rw [exec_get_bind] at h
  split at h
  · rename_i hid
    obtain ⟨-, rfl⟩ := exec_pure.1 h
    exact .inl ⟨any_id_iff.1 hid, rfl⟩
  · rename_i hid
    obtain ⟨y, c₁, h₁, hb₁⟩ := exec_bind_of_keeps (I := SameBooks) (fun _ => keeps_pure _) h
    obtain ⟨z, h₁, -⟩ := exec_attempt.1 h₁
    rw [show books c' = books c₁ from hb₁]
    exact .inr ⟨fun hmem => hid (any_id_iff.2 hmem), storeMessage_books h₁⟩

theorem start_books {configuredRelays : List String}
    (h : (start p configuredRelays).Exec Answers c x c') : Reloads (books c) (books c') := by
  unfold start at h
  obtain ⟨_, w₁, ⟨_, _, hw₁⟩, h⟩ := exec_loadRecord_bind.1 h
  obtain ⟨r₂, w₂, ⟨d₂, hd₂, hw₂⟩, h⟩ := exec_loadRecord_bind.1 h
  obtain ⟨r₃, w₃, ⟨d₃, hd₃, hw₃⟩, h⟩ := exec_loadRecord_bind.1 h
  rw [exec_modify_bind] at h
  rw [show books c' = _ from (calm_restartPool p).quiet _ _ _ h]
  subst hw₁ hw₂ hw₃
  exact ⟨⟨r₂, Mirror.loads_of_reads hd₂ rfl⟩, ⟨r₃, Mirror.loads_of_reads hd₃ rfl⟩⟩

end Changes

/-! ## Steps of the actor -/

/-- The steps of the actor, with what they turn out to be about: the rumor that a send prepares, unless it fails before
that, and the message that a notification brings, if any. -/
inductive ChatLabel (p : Primitives) where
  | start (configuredRelays : List String)
  | request (request : ChatRequest)
  | send (peer text : String) (outgoing : Option (Outgoing p))
  | deliver (notification : RelayNotification) (message : Option StoredMessage)

section Steps
open Method
variable {p : Primitives}

def ChatStepIn (step : Answering Call.Answer World) (c : Actor × World) : ChatLabel p → Actor × World → Prop
  | .start configuredRelays, c' => ∃ x, (start p configuredRelays).Exec step c x c'
  | .request request, c' => (∀ peer text, request ≠ .send peer text) ∧ ∃ x, (handle p request).Exec step c x c'
  | .send peer text none, c' => ∃ e, (prepareSend p peer text).Exec step c (.error e) c'
  | .send peer text (some outgoing), c' => ∃ c₁, (prepareSend p peer text).Exec step c (.ok outgoing) c₁ ∧
      ∃ x, (sendRumor p outgoing text).Exec step c₁ x c'
  | .deliver notification message, c' => ∃ c₁, (incoming p notification).Exec step c (.ok message) c₁ ∧
      ∃ x, (storeIncoming message).Exec step c₁ x c'

abbrev ChatStep : Actor × World → ChatLabel p → Actor × World → Prop := ChatStepIn Answers

variable {b b' : Books} {l : ChatLabel p} {c c' : Actor × World}

theorem ChatStepIn.mono {step step' : Answering Call.Answer World}
    (hstep : ∀ call w r w', step call w r w' → step' call w r w')
    (h : ChatStepIn step c l c') : ChatStepIn step' c l c' := by
  cases l with
  | start configuredRelays =>
    obtain ⟨x, h⟩ := h
    exact ⟨x, h.mono hstep⟩
  | request request =>
    obtain ⟨hr, x, h⟩ := h
    exact ⟨hr, x, h.mono hstep⟩
  | send peer text outgoing =>
    cases outgoing with
    | none =>
      obtain ⟨e, h⟩ := h
      exact ⟨e, h.mono hstep⟩
    | some outgoing =>
      obtain ⟨c₁, h₁, x, h₂⟩ := h
      exact ⟨c₁, h₁.mono hstep, x, h₂.mono hstep⟩
  | deliver notification message =>
    obtain ⟨c₁, h₁, x, h₂⟩ := h
    exact ⟨c₁, h₁.mono hstep, x, h₂.mono hstep⟩

theorem handle_step {request : ChatRequest} {x : Except ChatError Json}
    (h : (handle p request).Exec Answers c x c') : ∃ l : ChatLabel p, ChatStep c l c' := by
  by_cases hr : ∀ peer text, request ≠ .send peer text
  · exact ⟨.request request, hr, x, h⟩
  · simp only [ne_eq, not_forall, not_not] at hr
    obtain ⟨peer, text, rfl⟩ := hr
    obtain ⟨e, -, h⟩ | ⟨outgoing, c₁, h₁, h₂⟩ := exec_bind.1 (show (send p peer text).Exec Answers c x c' from h)
    · exact ⟨.send peer text none, e, h⟩
    · exact ⟨.send peer text (some outgoing), c₁, h₁, x, h₂⟩

def BooksStep : ChatLabel p → Books → Books → Prop
  | .start _ => Reloads
  | .request (.addContact _) | .send _ _ none => AddsContact
  | .request (.removeContact _) => RemovesContact
  | .request _ | .deliver _ none => fun b b' => b' = b
  | .send _ text (some outgoing) => fun b b' => ∃ b₁, AddsContact b b₁ ∧
      (b' = b₁ ∨ StoresMessage (outgoingMessage p outgoing text) b₁ b')
  | .deliver _ (some message) => fun b b' =>
    (message.id ∈ b.messages.memory.map StoredMessage.id ∧ b' = b) ∨
      (message.id ∉ b.messages.memory.map StoredMessage.id ∧ StoresMessage message b b')

/-- **Every step of the actor is a step of its books.** -/
theorem chatStep_books (h : ChatStep c l c') : BooksStep l (books c) (books c') := by
  cases l with
  | start configuredRelays =>
    obtain ⟨x, h⟩ := h
    exact start_books p h
  | request request =>
    obtain ⟨hr, x, h⟩ := h
    cases request with
    | send peer text => exact absurd rfl (hr peer text)
    | addContact peer => exact addContact_books p h
    | removeContact npub => exact removeContact_books p h
    | _ =>
      exact (calm_handle p rfl).quiet _ _ _ h
  | send peer text outgoing =>
    cases outgoing with
    | none =>
      obtain ⟨e, h⟩ := h
      exact prepareSend_books p h
    | some outgoing =>
      obtain ⟨c₁, h₁, x, h₂⟩ := h
      exact ⟨books c₁, prepareSend_books p h₁, sendRumor_books p h₂⟩
  | deliver notification message =>
    obtain ⟨c₁, h₁, x, h₂⟩ := h
    have hb : books c₁ = books c := (calm_incoming p notification).quiet _ _ _ h₁
    cases message with
    | none =>
      obtain ⟨-, rfl⟩ := exec_pure.1 h₂
      exact hb
    | some message =>
      have h := storeIncoming_books h₂
      rw [hb, show c₁.1.messages = c.1.messages from congrArg (fun b => b.messages.memory) hb] at h
      exact h

/-! ## What a step does to the messages -/

theorem AddsContact.messages (h : AddsContact b b') : b'.messages = b.messages := by
  cases h with
  | same => rfl
  | adds contact h => exact h.messages

theorem RemovesContact.messages (h : RemovesContact b b') : b'.messages = b.messages := by
  cases h with
  | same => rfl
  | removes keep _ h => exact h.messages

theorem messages_cases (h : BooksStep l b b') : b'.messages = b.messages ∨
      (∃ relays, l = .start relays ∧ ∃ r, Mirror.Loads Absent r b.messages b'.messages) ∨
      (∃ peer text outgoing, l = .send peer text (some outgoing) ∧ ∃ r : Except StoreError Unit, Mirror.Saves
        (Window.push maxMessages b.messages.memory (outgoingMessage p outgoing text)) r b.messages b'.messages) ∨
      ∃ notification message, l = .deliver notification (some message) ∧
        message.id ∉ b.messages.memory.map StoredMessage.id ∧ ∃ r : Except StoreError Unit,
          Mirror.Saves (Window.push maxMessages b.messages.memory message) r b.messages b'.messages := by
  cases l with
  | start relays => exact .inr (.inl ⟨relays, rfl, h.messages⟩)
  | request request =>
    cases request with
    | addContact _ => exact .inl (AddsContact.messages h)
    | removeContact _ => exact .inl (RemovesContact.messages h)
    | _ => exact .inl (congrArg Books.messages h)
  | send peer text outgoing =>
    cases outgoing with
    | none => exact .inl (AddsContact.messages h)
    | some outgoing =>
      obtain ⟨b₁, hc, rfl | hs⟩ := h
      · exact .inl hc.messages
      · have hm := hs.messages
        rw [hc.messages] at hm
        exact .inr (.inr (.inl ⟨peer, text, outgoing, rfl, hm⟩))
  | deliver notification message =>
    cases message with
    | none => exact .inl (congrArg Books.messages h)
    | some message =>
      obtain ⟨-, rfl⟩ | ⟨hid, hs⟩ := h
      · exact .inl rfl
      · exact .inr (.inr (.inr ⟨notification, message, rfl, hid, hs.messages⟩))

/-! ## What a step does to the contacts -/

def ChatLabel.mayAddContact : ChatLabel p → Bool
  | .request (.addContact _) | .send _ _ _ => true
  | _ => false

theorem AddsContact.contacts (h : AddsContact b b') :
    b'.contacts = b.contacts ∨ ∃ (contact : Contact) (r : Except StoreError Unit),
      Mirror.Saves (b.contacts.memory ++ [contact]) r b.contacts b'.contacts := by
  cases h with
  | same => exact .inl rfl
  | adds contact h => exact .inr ⟨contact, h.contacts⟩

theorem contacts_cases (h : BooksStep l b b') : b'.contacts = b.contacts ∨
      (∃ relays, l = .start relays ∧ ∃ r, Mirror.Loads Absent r b.contacts b'.contacts) ∨
      (l.mayAddContact = true ∧ ∃ (contact : Contact) (r : Except StoreError Unit),
        Mirror.Saves (b.contacts.memory ++ [contact]) r b.contacts b'.contacts) ∨
      ∃ keep : Contact → Bool, b.contacts.memory.filter keep ≠ b.contacts.memory ∧ ∃ r : Except StoreError Unit,
        Mirror.Saves (b.contacts.memory.filter keep) r b.contacts b'.contacts := by
  cases l with
  | start relays => exact .inr (.inl ⟨relays, rfl, h.contacts⟩)
  | request request =>
    cases request with
    | addContact peer =>
      obtain hc | hc := AddsContact.contacts h
      · exact .inl hc
      · exact .inr (.inr (.inl ⟨rfl, hc⟩))
    | removeContact npub =>
      cases h with
      | same => exact .inl rfl
      | removes keep hkeep hs => exact .inr (.inr (.inr ⟨keep, hkeep, hs.contacts⟩))
    | _ => exact .inl (congrArg Books.contacts h)
  | send peer text outgoing =>
    obtain ⟨b₁, hc, hb⟩ : ∃ b₁, AddsContact b b₁ ∧ b'.contacts = b₁.contacts := by
      cases outgoing with
      | none => exact ⟨b', h, rfl⟩
      | some outgoing =>
        obtain ⟨b₁, hc, rfl | hs⟩ := h
        · exact ⟨_, hc, rfl⟩
        · exact ⟨b₁, hc, hs.contacts⟩
    rw [hb]
    obtain hc | hc := hc.contacts
    · exact .inl hc
    · exact .inr (.inr (.inl ⟨rfl, hc⟩))
  | deliver notification message =>
    cases message with
    | none => exact .inl (congrArg Books.contacts h)
    | some message =>
      obtain ⟨-, rfl⟩ | ⟨-, hs⟩ := h
      · exact .inl rfl
      · exact .inl hs.contacts

end Steps

end OmaChat.Daemon

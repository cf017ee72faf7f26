import OmaChat.Daemon.Live

/-!
# Stored messages are announced

What the calls of the chat actor tell of its messages. They are loaded once; after that the list changes by one message at
a time, which is saved first and announced to the clients right after.

* `Ledger` : what the calls so far tell; `historyProtocol` : the calls that the actor may make then.
* `Reports m` : the method `m` makes only such calls, and the list in memory is the one that they tell.
* `obeys_start`, `Job.obeys` : every job of the actor does.
-/

namespace OmaChat.Daemon
open Wire Effects Nostr Proto Durable Method

/-- What the actor's calls tell of its messages. -/
inductive Ledger where
  | loading
  /-- Those that were loaded or announced, and the one that is saved and not yet announced. -/
  | holds (announced : List StoredMessage) (owed : Option StoredMessage)

variable {actor : Actor} {g : Ledger} {β : Type}

def Ledger.May : Ledger → Call → Prop
  | .loading, .write .messages _ => False
  | .holds _ none, .read .messages => False
  | .holds announced none, .write .messages saved => ∃ message, saved = Window.push maxMessages announced message
  | .loading, .publishHub event | .holds _ none, .publishHub event => event.topic ≠ .messages
  | .loading, _ | .holds _ none, _ => True
  | .holds _ (some message), .publishHub event => Announces event message
  | .holds _ (some _), call => call = .nextSequence

/-- What an answer tells. A list that could not be saved stays in memory, and is not announced. -/
def Ledger.learn : Ledger → (call : Call) → call.Answer → Ledger
  | .loading, .read .messages, answer => .holds (answer.toOption.join.getD []) none
  | .holds announced _, .write .messages saved, .ok _ => .holds announced saved.getLast?
  | .holds _ _, .write .messages saved, .error _ => .holds saved none
  | .holds announced (some message), .publishHub _, _ => .holds (Window.push maxMessages announced message) none
  | g, _, _ => g

def historyProtocol : Protocol Call.Answer Ledger := ⟨.loading, Ledger.May, Ledger.learn⟩

/-! ## Methods -/

def Ledger.Settled : Ledger → Prop
  | .loading | .holds _ none => True
  | .holds _ (some _) => False

theorem Ledger.Settled.calm (hg : g.Settled) {call : Call} (h : call.calm) :
    g.May call ∧ ∀ answer, g.learn call answer = g := by
  obtain rfl | ⟨announced, rfl⟩ : g = .loading ∨ ∃ announced, g = .holds announced none := by
    match g, hg with
    | .loading, _ => exact .inl rfl
    | .holds announced none, _ => exact .inr ⟨announced, rfl⟩
  all_goals
    cases call with
    | publishHub event =>
      have htopic : event.topic ≠ .messages := of_decide_eq_true h
      exact ⟨htopic, fun _ => rfl⟩
    | read record | write record _ =>
      cases record with
      | contacts | messages => cases h
      | identity | relays => exact ⟨trivial, fun _ => rfl⟩
    | _ => exact ⟨trivial, fun _ => rfl⟩

section Methods
variable {ε ε' α : Type} {m : Method Call.Answer Actor ε α}

theorem Calm.obeys (h : Calm m) (hg : g.Settled) :
    m.Obeys historyProtocol actor g fun g' _ actor' => g' = g ∧ actor'.messages = actor.messages := by
  have hm := obeys_iff.1 (h actor)
  refine obeys_iff.2 (Prog.Obeys.mono (hm.transfer (K := fun _ g' => g' = g) ?_ rfl) ?_)
  · rintro _ _ call rfl hcall
    exact hg.calm hcall
  · rintro g' y ⟨_, hg', hy⟩
    exact ⟨hg', hy.2⟩

/-- From the list in memory as what is told, the method makes only calls that it may, and ends so. -/
def Reports (m : Method Call.Answer Actor ε α) : Prop :=
  ∀ actor, m.Obeys historyProtocol actor (.holds actor.messages none) fun g _ actor' => g = .holds actor'.messages none

theorem Calm.reports (h : Calm m) : Reports m := by
  intro actor
  refine (h.obeys (g := .holds actor.messages none) trivial).mono fun g _ actor' hg => ?_
  rw [hg.1, hg.2]

theorem reports_bind {f : α → Method Call.Answer Actor ε β} (hm : Reports m) (hf : ∀ a, Reports (f a)) :
    Reports (m >>= f) := by
  intro actor
  rw [obeys_bind]
  refine (hm actor).mono fun g x actor₁ hg => ?_
  subst hg
  cases x with
  | error e => rfl
  | ok a => exact hf a actor₁

theorem reports_attempt (hm : Reports m) :
    Reports (m.attempt : Method Call.Answer Actor ε' (Except ε α)) := fun actor => obeys_attempt.2 (hm actor)

theorem reports_modify {f : Actor → Actor} (hf : ∀ actor, (f actor).messages = actor.messages) :
    Reports (modify f : Method Call.Answer Actor ε Unit) := by
  intro actor
  rw [obeys_modify, hf]

end Methods

section Actor
variable (p : Primitives)

theorem obeys_publish_owed (message : StoredMessage) (announced : List StoredMessage) (actor : Actor) :
    (publish .messages message.value).Obeys historyProtocol actor (.holds announced (some message)) fun g _ actor' =>
      g = .holds (Window.push maxMessages announced message) none ∧ actor' = actor := by
  unfold publish
  rw [obeys_request_bind]
  refine ⟨rfl, fun sequence => obeys_request.2 ⟨⟨rfl, rfl⟩, fun _ => ⟨rfl, rfl⟩⟩⟩

/-- **A message that is stored is announced, once it is saved.** -/
theorem reports_storeMessage (message : StoredMessage) : Reports (storeMessage message) := by
  intro actor
  unfold storeMessage saveRecord
  simp only [obeys_bind, obeys_modify, obeys_get, obeys_request]
  refine ⟨⟨message, rfl⟩, fun answer => ?_⟩
  cases answer with
  | error error => exact obeys_throw.2 rfl
  | ok _ =>
    have hlast : (Window.push maxMessages actor.messages message).getLast? = some message := by simp [Window.push]
    refine obeys_pure.2 ?_
    rw [show historyProtocol.learn _ _ _ = Ledger.holds actor.messages (some message) from congrArg _ hlast]
    refine (obeys_publish_owed message actor.messages _).mono fun g x actor' hg => ?_
    obtain ⟨rfl, rfl⟩ := hg
    cases x with
    | error e => rfl
    | ok _ => exact obeys_pure.2 rfl

theorem reports_saveContacts (contacts : List Contact) : Reports (saveRecord .contacts contacts) := by
  intro actor
  refine obeys_request_bind.2 ⟨trivial, fun answer => ?_⟩
  cases answer with
  | error error => exact obeys_throw.2 rfl
  | ok _ => exact obeys_pure.2 rfl

theorem reports_insertContact (contact : Contact) : Reports (insertContact p contact) := by
  refine reports_bind (reports_modify fun _ => rfl) fun _ => reports_bind calm_get.reports fun actor => ?_
  refine reports_bind (reports_saveContacts _) fun _ => reports_bind ?_ fun _ => ?_
  · exact (calm_publish (by decide) _).reports
  · exact reports_bind (calm_ensurePool p).reports fun _ => (calm_pure _).reports

theorem reports_addContact (peer : String) : Reports (addContact p peer) := by
  refine reports_bind (calm_ensureIdentity p).reports fun _ => reports_bind (calm_resolvePeer p peer).reports fun peer => ?_
  refine reports_bind (calm_requiredSecret p).reports fun mine => ?_
  split
  · exact (calm_throw _).reports
  refine reports_bind calm_get.reports fun actor => ?_
  split
  · exact (calm_pure _).reports
  split
  · exact (calm_throw _).reports
  · exact reports_insertContact p _

theorem reports_removeContact (npub : String) : Reports (removeContact p npub) := by
  unfold removeContact
  split
  · exact (calm_throw _).reports
  refine reports_bind calm_get.reports fun actor => reports_bind (reports_modify fun _ => rfl) fun _ => ?_
  split
  · exact (calm_throw _).reports
  · exact reports_bind (reports_saveContacts _) fun _ => (calm_pure _).reports

theorem reports_rememberContact (pubkey : Bytes 32) (nip05 : Option String) : Reports (rememberContact p pubkey nip05) := by
  refine reports_bind calm_get.reports fun actor => ?_
  split
  · exact (calm_pure _).reports
  split
  · exact (calm_throw _).reports
  · refine reports_bind (reports_modify fun _ => rfl) fun _ => reports_bind calm_get.reports fun actor => ?_
    exact reports_saveContacts _

theorem reports_prepareSend (peer text : String) : Reports (prepareSend p peer text) := by
  unfold prepareSend
  split
  · exact (calm_throw _).reports
  refine reports_bind (calm_ensureIdentity p).reports fun identity => reports_bind (calm_ensurePool p).reports fun _ => ?_
  refine reports_bind (calm_resolvePeer p peer).reports fun ⟨recipient, nip05⟩ => ?_
  dsimp only
  split
  · exact (calm_throw _).reports
  refine reports_bind (reports_rememberContact p _ _) fun _ => reports_bind calm_unixTime.reports fun now => ?_
  exact reports_bind (calm_ofExcept _).reports fun rumor => (calm_pure _).reports

theorem reports_send (peer text : String) : Reports (send p peer text) := by
  refine reports_bind (reports_prepareSend p peer text) fun outgoing => ?_
  refine reports_bind (calm_createGiftWrap p _ _ _ _).reports fun recipientWrap => ?_
  refine reports_bind (calm_createGiftWrap p _ _ _ _).reports fun selfWrap => ?_
  refine reports_bind (calm_publishToRelays _).reports fun _ => ?_
  refine reports_bind (calm_attempt (calm_publishToRelays _)).reports fun _ => ?_
  exact reports_bind (reports_storeMessage _) fun message => (calm_pure _).reports

theorem reports_onNotification (notification : RelayNotification) : Reports (onNotification p notification) := by
  refine reports_bind (calm_incoming p notification).reports fun message => ?_
  unfold storeIncoming
  split
  · exact (calm_pure _).reports
  refine reports_bind calm_get.reports fun actor => ?_
  split
  · exact (calm_pure _).reports
  · exact reports_bind (reports_attempt (reports_storeMessage _)) fun _ => (calm_pure _).reports

theorem reports_handle (request : ChatRequest) : Reports (handle p request) := by
  cases request with
  | send peer text => exact reports_send p peer text
  | addContact peer => exact reports_addContact p peer
  | removeContact npub => exact reports_removeContact p npub
  | _ =>
    exact (calm_handle p rfl).reports

/-! ## Jobs -/

/-- How a job ends: the list in memory is the one that was told, and a snapshot is one of the actor as it is then. -/
def Job.Ends (job : Job) (g : Ledger) (x : Except ChatError Json) (actor : Actor) : Prop :=
  g = .holds actor.messages none ∧
    (job = .snapshot → ∀ value, x = .ok value → ∃ secret : Option (NostrSecret p), value = snapshotOf actor secret)

theorem obeys_loadRecord_bind {record : Record} {f : Option record.Value → ChatMethod β}
    {Q : Ledger → Except ChatError β → Actor → Prop} (hmay : g.May (.read record))
    (hf : ∀ answer, (f answer.toOption.join).Obeys historyProtocol actor (g.learn (.read record) answer) Q) :
    (loadRecord record >>= f).Obeys historyProtocol actor g Q := by
  unfold loadRecord
  rw [Method.bind_assoc, obeys_request_bind]
  refine ⟨hmay, fun answer => ?_⟩
  have hnext := hf answer
  cases answer with
  | error error => exact obeys_bind.2 (obeys_pure.2 hnext)
  | ok value => exact obeys_bind.2 (obeys_pure.2 hnext)

theorem obeys_start (relays : List String) (actor : Actor) :
    ((Job.start relays).method p).Obeys historyProtocol actor .loading ((Job.start relays).Ends p) := by
  have hst : (start p relays).Obeys historyProtocol actor .loading fun g _ actor' => g = .holds actor'.messages none := by
    refine obeys_loadRecord_bind trivial fun relays => obeys_loadRecord_bind trivial fun contacts => ?_
    refine obeys_loadRecord_bind trivial fun messages => obeys_bind.2 (obeys_modify.2 ?_)
    exact (calm_restartPool p).reports _
  refine obeys_bind.2 (hst.mono fun g x actor' hg => ?_)
  cases x with
  | error e => exact ⟨hg, nofun⟩
  | ok _ => exact obeys_pure.2 ⟨hg, nofun⟩

/-- **Every other job tells what it does to them.** -/
theorem Job.obeys {job : Job} (h : ∀ relays, job ≠ .start relays) (actor : Actor) :
    (job.method p).Obeys historyProtocol actor (.holds actor.messages none) (job.Ends p) := by
  cases job with
  | start relays => exact absurd rfl (h relays)
  | request asked => exact (reports_handle p asked actor).mono fun g x actor' hg => ⟨hg, nofun⟩
  | notification heard =>
    have hm : Reports ((Job.notification heard).method p) :=
      reports_bind (reports_onNotification p heard) fun _ => (calm_pure _).reports
    exact (hm actor).mono fun g x actor' hg => ⟨hg, nofun⟩
  | snapshot =>
    refine obeys_bind.2 (((calm_optionalSecret p).reports actor).mono fun g x actor' hg => ?_)
    cases x with
    | error e => exact ⟨hg, fun _ _ => nofun⟩
    | ok secret =>
      refine obeys_bind.2 (obeys_get.2 (obeys_pure.2 ⟨hg, fun _ value hv => ⟨secret, ?_⟩⟩))
      exact (Except.ok.inj hv).symm

end Actor

end OmaChat.Daemon

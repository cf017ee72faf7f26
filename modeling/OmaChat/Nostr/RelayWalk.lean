import OmaChat.Nostr.Checks
import OmaChat.Nostr.RelayRules

/-!
# The walk through a relay actor

The actor keeps to `relayRules`, whatever the relay and its callers do:

* `Stored`, `Gated`, `Running`, `Ending` and `Apart` say what the actor's variables have to do with the view of it while
  there is a connection, once it is given up and until there is a new one;
* every part of the actor has a lemma that takes it from one of them to another;
* `obeys_runActor` puts them together, by induction on the rounds of a session and of the actor.
-/

namespace OmaChat.Nostr
open Wire Effects
open Method (obeys_attempt obeys_bind obeys_get obeys_modify obeys_ofExcept obeys_pure obeys_throw)

variable {g g' : View}

/-! ## Views and variables -/

/-- The calls that the rules of a view do not speak of. -/
def RelayCall.isPlain : RelayCall → Bool
  | .write _ _ | .pending => false
  | _ => true

/-- Calls without an effect on a view, while there is a connection. -/
structure Quiet (g g' : View) : Prop where
  events : g'.events = g.events
  held : g'.held = g.held
  publishes : g'.publishes = g.publishes
  replaying : g'.replaying = g.replaying
  fine : g'.fine = g.fine
  lost : g.lost = none → g'.lost = none
  calls : g.calls ≤ g'.calls

theorem Quiet.refl (g : View) : Quiet g g := ⟨rfl, rfl, rfl, rfl, rfl, id, Nat.le_refl _⟩

theorem quiet_tick (g : View) : Quiet g g.tick :=
  ⟨rfl, rfl, rfl, rfl, rfl, fun h => congrArg (Option.map (· + 1)) h, Nat.le_succ _⟩

theorem Quiet.trans {g'' : View} (h : Quiet g g') (h' : Quiet g' g'') : Quiet g g'' where
  events := h'.events.trans h.events
  held := h'.held.trans h.held
  publishes := h'.publishes.trans h.publishes
  replaying := h'.replaying.trans h.replaying
  fine := h'.fine.trans h.fine
  lost hlost := h'.lost (h.lost hlost)
  calls := h.calls.trans h'.calls

section Walk
variable {library : RelayLibrary} {config : RelayConfig} {fuel n : Nat} {s : Actor} {α : Type}

variable (config) in
/-- What the actor stores is what was seen of it. -/
structure Stored (subscriptions : List (String × List Json)) (pending : List (String × Nat)) (g : View) : Prop where
  held : ∀ entry ∈ subscriptions, entry.1 ∈ g.held
  encodes : config.startsOpen = true → g.fine = true → ∀ entry ∈ subscriptions,
    (ClientFrame.request entry.1 entry.2).Encodes config
  pending : pending.length ≤ g.publishes

variable (config) in
/-- There is a connection, and `n` rounds are left. -/
structure Connected (fuel n : Nat) (s : Actor) (g : View) : Prop where
  stored : Stored config s.subscriptions s.pending g
  lost : g.lost = none
  calls : fuel ≤ g.calls + n

variable (config) in
/-- The actor writes only through an open gate, and opens it only for the answer to the latest challenge. -/
structure Gated (s : Actor) (g : View) : Prop where
  opened : s.sessionAuthenticated = true → GateOpen config g.events
  closed : s.sessionAuthenticated = false → config.auth ≠ none
  awaits : ∀ authentication, s.pendingAuthentication = some authentication →
    config.auth ≠ none ∧ ∃ signed, signed.id = authentication.eventId ∧ Answered g.events signed

variable (config) in
structure Running (fuel n : Nat) (s : Actor) (g : View) : Prop extends Connected config fuel n s g where
  gated : Gated config s g

variable (config) in
/-- The connection is given up, and was lost at most `k` calls ago. -/
structure Ending (fuel n k : Nat) (s : Actor) (g : View) : Prop where
  stored : Stored config s.subscriptions s.pending g
  lost : ∀ m, g.lost = some m → m ≤ k
  calls : fuel ≤ g.calls + n

variable {k k' response : Nat} {call : RelayCall} {frame : ClientFrame} {reply : Reply}
  {Q : View → Except RelayError Unit → Actor → Prop} {notification : RelayNotification}
  {challenge message subscriptionId text : String} {error : RelayError} {filters : List Json} {accepted : Bool}

theorem Stored.view {subscriptions : List (String × List Json)} {pending : List (String × Nat)}
    (h : Stored config subscriptions pending g) (hheld : g'.held = g.held) (hpub : g'.publishes = g.publishes)
    (hfine : g'.fine = true → g.fine = true) : Stored config subscriptions pending g' where
  held entry he := by
    rw [hheld]
    exact h.held entry he
  encodes hst h' := h.encodes hst (hfine h')
  pending := by
    rw [hpub]
    exact h.pending

theorem Connected.quiet (h : Connected config fuel n s g) (hq : Quiet g g') : Connected config fuel n s g' where
  stored := h.stored.view hq.held hq.publishes (hq.fine ▸ id)
  lost := hq.lost h.lost
  calls := by
    have hcalls := h.calls
    have hmore := hq.calls
    omega

theorem Gated.view (h : Gated config s g) (hevents : g'.events = g.events) : Gated config s g' :=
  ⟨fun hopen => hevents ▸ h.opened hopen, h.closed, fun a ha => hevents ▸ h.awaits a ha⟩

theorem Running.quiet (h : Running config fuel n s g) (hq : Quiet g g') : Running config fuel n s g' :=
  ⟨h.toConnected.quiet hq, h.gated.view hq.events⟩

theorem Connected.ending (h : Connected config fuel n s g) (k : Nat) : Ending config fuel n k s g where
  stored := h.stored
  lost m hm := by
    rw [h.lost] at hm
    cases hm
  calls := h.calls

theorem Ending.mono (h : Ending config fuel n k s g) (hk : k ≤ k') : Ending config fuel n k' s g :=
  ⟨h.stored, fun m hm => (h.lost m hm).trans hk, h.calls⟩

theorem mayCall_plain (hcall : call.isPlain = true)
    (hcleans : g.fine = true → ∀ n, g.lost = some n → call.isCleanup = true ∧ n ≤ 7 + g.publishes) :
    MayCall library config fuel g call where
  gated frame text h := by
    rw [h] at hcall
    cases hcall
  auth signed text h := by
    rw [h] at hcall
    cases hcall
  holds subscriptionId filters text h := by
    rw [h] at hcall
    cases hcall
  cleans := hcleans
  goesOn h := by
    rw [h] at hcall
    cases hcall

theorem Connected.cleans (h : Connected config fuel n s g) (call : RelayCall) :
    g.fine = true → ∀ n, g.lost = some n → call.isCleanup = true ∧ n ≤ 7 + g.publishes := by
  intro _ m hm
  rw [h.lost] at hm
  cases hm

theorem Connected.may (h : Connected config fuel n s g) (hcall : call.isPlain = true) :
    MayCall library config fuel g call := mayCall_plain hcall (h.cleans call)

theorem Ending.may (h : Ending config fuel n k s g) (hk : k ≤ 7 + g.publishes)
    (hcall : call.isPlain = true) (hcleanup : call.isCleanup = true) : MayCall library config fuel g call := by
  apply mayCall_plain hcall
  intro _ m hm
  exact ⟨hcleanup, (h.lost m hm).trans hk⟩

theorem Ending.tick (h : Ending config fuel n k s g) : Ending config fuel n (k + 1) s g.tick where
  stored := h.stored.view rfl rfl id
  lost m hm := by
    obtain ⟨m', hm', rfl⟩ := Option.map_eq_some_iff.1 hm
    exact Nat.succ_le_succ (h.lost m' hm')
  calls := by
    have hcalls := h.calls
    show fuel ≤ g.calls + 1 + n
    omega

theorem Connected.mayWrite (h : Connected config fuel n s g) (hgated : frame.isGated = true → GateOpen config g.events)
    (hauth : ∀ signed, frame = .auth signed → AnswersLatest library config g.events signed)
    (hheld : ∀ subscriptionId filters, frame = .request subscriptionId filters → subscriptionId ∈ g.held) :
    MayCall library config fuel g (.write frame text) where
  gated frame' text' heq := by
    cases heq
    exact hgated
  auth signed text' heq := by
    cases heq
    exact hauth signed rfl
  holds subscriptionId filters text' heq := by
    cases heq
    exact hheld subscriptionId filters rfl
  cleans := h.cleans _
  goesOn heq := by cases heq

theorem obeys_call_bind {f : call.Answer → ActorMethod α} {Q : View → Except RelayError α → Actor → Prop} :
    (Nostr.call call >>= f).Obeys (relayRules library config fuel) s g Q ↔ MayCall library config fuel g call ∧
      ∀ r, (f r).Obeys (relayRules library config fuel) s (g.learn library config call r) Q := Method.obeys_request_bind

theorem obeys_respond : (respond response reply).Obeys (relayRules library config fuel) s g Q ↔
      MayCall library config fuel g (.respond response reply) ∧ Q g.tick (.ok ()) s := by
  unfold respond call
  rw [Method.obeys_request]
  exact and_congr_right fun _ => ⟨fun h => h (), fun h _ => h⟩

theorem obeys_notify (hmay : MayCall library config fuel g (.notify notification)) (hok : Q g.tick (.ok ()) s)
    (herr : ∀ e, Q { g.tick with fine := false } (.error e) s) :
    (notify notification).Obeys (relayRules library config fuel) s g Q := by
  unfold notify
  rw [obeys_call_bind]
  refine ⟨hmay, fun sent => ?_⟩
  cases sent with
  | ok _ => exact obeys_pure.2 hok
  | error e => cases e <;> exact obeys_throw.2 (herr _)

theorem Connected.obeys_notify (h : Connected config fuel n s g) (hok : ∀ g', Quiet g g' → Q g' (.ok ()) s)
    (herr : ∀ g' e, Ending config fuel n 0 s g' → g'.fine = false → Q g' (.error e) s) :
    (notify notification).Obeys (relayRules library config fuel) s g Q := by
  apply Nostr.obeys_notify (h.may rfl) (hok _ (quiet_tick g))
  intro e
  have hlost : g.tick.lost = none := (quiet_tick g).lost h.lost
  have hcalls := h.calls
  refine herr _ e ⟨h.stored.view rfl rfl (fun hfine => by cases hfine), ?_, ?_⟩ rfl
  · intro m hm
    rw [hlost] at hm
    cases hm
  · show fuel ≤ g.calls + 1 + n
    omega

/-- Sending a frame while there is a connection: it does not encode, it is written, or the connection is lost. -/
theorem Connected.obeys_sendFrame
    (h : Connected config fuel n s g) (hmay : ∀ text, MayCall library config fuel g (.write frame text))
    (hok : ∀ text, frame.Encodes config → Q (g.learn library config (.write frame text) (.ok ())) (.ok ()) s)
    (herr : ∀ g' e, Ending config fuel n 0 s g' →
      ((g.fine = true → frame.Encodes config) → g.replaying = true → g'.fine = false) → Q g' (.error e) s) :
    (sendFrame config frame).Obeys (relayRules library config fuel) s g Q := by
  unfold sendFrame
  rw [obeys_bind, obeys_ofExcept]
  cases htext : frame.toJson config.frameLimits with
  | error e =>
    refine herr g _ (h.ending 0) fun hencodes _ => ?_
    by_contra hfine
    obtain ⟨text, hencoded⟩ := encodes_iff.1 (hencodes (by simpa using hfine))
    rw [htext] at hencoded
    cases hencoded
  | ok text =>
    dsimp only [Except.mapError]
    rw [obeys_call_bind]
    refine ⟨hmay text, fun sent => ?_⟩
    rw [obeys_ofExcept]
    cases sent with
    | ok _ => exact hok text (encodes_iff.2 ⟨text, htext⟩)
    | error e =>
      have hcalls := h.calls
      have hlearn : g.learn library config (.write frame text) (.error e) =
          { g.tick with lost := some 0, fine := g.fine && !g.replaying } := by cases frame <;> rfl
      rw [hlearn]
      refine herr _ _ ⟨h.stored.view rfl rfl ?_, ?_, ?_⟩ ?_
      · exact fun hfine => (Bool.and_eq_true_iff.1 hfine).1
      · intro m hm
        cases hm
        exact Nat.le_refl 0
      · show fuel ≤ g.calls + 1 + n
        omega
      · intro _ hreplaying
        show (g.fine && !g.replaying) = false
        rw [hreplaying, Bool.not_true, Bool.and_false]

/-! ## Replays -/

theorem obeys_inOrder {β : Type} {entries : List β} {Q : View → Except RelayError (List β) → Actor → Prop}
    (hmay : MayCall library config fuel g (.iterate entries.length))
    (h : ∀ order, (∀ entry ∈ order, entry ∈ entries) → order.length = entries.length → Q g.tick (.ok order) s) :
    (inOrder entries).Obeys (relayRules library config fuel) s g Q := by
  unfold inOrder
  rw [obeys_call_bind]
  refine ⟨hmay, fun order => obeys_pure.2 (h _ ?_ List.length_ofFn)⟩
  intro entry he
  obtain ⟨i, rfl⟩ := (List.mem_ofFn' _ _).1 he
  exact List.getElem_mem _

variable (config) in
/-- The outcome of a replay: every request was written, or the connection is given up, and then a replay that began a session
ends the actor. -/
def Replayed (fuel n : Nat) (s : Actor) (g g' : View) (x : Except RelayError Unit) (s' : Actor) : Prop :=
  s' = s ∧ match x with
    | .ok _ => Quiet g g'
    | .error _ => Ending config fuel n 0 s g' ∧ (config.startsOpen = true → g.replaying = true → g'.fine = false)

theorem Replayed.of_quiet {g₀ : View} {x : Except RelayError Unit} {s' : Actor} (hq : Quiet g₀ g)
    (h : Replayed config fuel n s g g' x s') : Replayed config fuel n s g₀ g' x s' := by
  refine ⟨h.1, ?_⟩
  cases x with
  | ok a => exact hq.trans h.2
  | error e => exact ⟨h.2.1, fun hst hreplaying => h.2.2 hst (hq.replaying.trans hreplaying)⟩

theorem Connected.obeys_replayEach {entries : List (String × List Json)} (h : Connected config fuel n s g)
    (hopen : GateOpen config g.events) (hentries : ∀ entry ∈ entries, entry ∈ s.subscriptions) :
    (replayEach config entries).Obeys (relayRules library config fuel) s g (Replayed config fuel n s g) := by
  induction entries generalizing g with
  | nil => exact obeys_pure.2 ⟨rfl, Quiet.refl g⟩
  | cons entry rest ih =>
    obtain ⟨he, hrest⟩ := List.forall_mem_cons.1 hentries
    unfold replayEach
    rw [obeys_bind]
    refine h.obeys_sendFrame (fun text => ?_) (fun text _ => ?_) (fun g' e hend hfine => ?_)
    · apply h.mayWrite
      · exact fun _ => hopen
      · intro signed heq
        cases heq
      · intro subscriptionId filters heq
        cases heq
        exact h.stored.held _ he
    · have hquiet := quiet_tick g
      exact (ih (h.quiet hquiet) (hquiet.events ▸ hopen) hrest).mono fun g' x s' hx => hx.of_quiet hquiet
    · exact ⟨rfl, hend, fun hst => hfine fun hg => h.stored.encodes hst hg _ he⟩

theorem Connected.obeys_replaySubscriptions (h : Connected config fuel n s g) (hopen : GateOpen config g.events) :
    (replaySubscriptions config).Obeys (relayRules library config fuel) s g (Replayed config fuel n s g) := by
  have hquiet := quiet_tick g
  unfold replaySubscriptions
  rw [obeys_bind, obeys_get]
  dsimp only
  rw [obeys_bind]
  apply obeys_inOrder (h.may rfl)
  intro order hord _
  exact ((h.quiet hquiet).obeys_replayEach (hquiet.events ▸ hopen) hord).mono fun g' x s' hx => hx.of_quiet hquiet

/-! ## Commands -/

variable (config) in
/-- The outcome of a round: the session goes on, the connection is given up, or the actor is to end. -/
def Turned (fuel n : Nat) (g : View) (x : Except RelayError LoopStep) (s : Actor) : Prop :=
  match x with
  | .ok .continue => Running config fuel n s g
  | .ok (.break true) => Ending config fuel n 1 s g
  | .ok (.break false) => g.fine = false
  | .error _ => False

theorem learn_write_gated (hframe : frame.isGated = true) (text : String) :
    g.learn library config (.write frame text) (.ok ()) = g.tick := by
  cases frame with
  | auth => cases hframe
  | _ => rfl

theorem Connected.obeys_sendAndReply {onSent : ActorMethod Unit}
    (h : Connected config fuel n s g) (hframe : frame.isGated = true) (hopen : GateOpen config g.events)
    (hheld : ∀ subscriptionId filters, frame = .request subscriptionId filters → subscriptionId ∈ g.held)
    (hsent : frame.Encodes config → onSent.Obeys (relayRules library config fuel) s g.tick fun g' x s' =>
      (∃ a, x = .ok a) ∧ Running config fuel n s' g') :
    (sendAndReply config frame response onSent).Obeys (relayRules library config fuel) s g (Turned config fuel n) := by
  unfold sendAndReply
  rw [obeys_bind, obeys_attempt]
  refine h.obeys_sendFrame (fun text => ?_) (fun text hencodes => ?_) (fun g' e hend _ => ?_)
  · apply h.mayWrite (fun _ => hopen) _ hheld
    rintro signed rfl
    cases hframe
  · rw [learn_write_gated hframe]
    dsimp only
    rw [obeys_bind]
    refine (hsent hencodes).mono ?_
    rintro g' x s' ⟨⟨a, rfl⟩, hrun⟩
    exact obeys_pure.2 hrun
  · dsimp only
    rw [obeys_bind, obeys_respond]
    exact ⟨hend.may (by omega) rfl rfl, obeys_pure.2 hend.tick⟩

section
variable (h : Running config fuel n s g)
include h

theorem Running.obeys_reply :
    (respond response reply).Obeys (relayRules library config fuel) s g fun g' x s' =>
      (∃ a, x = .ok a) ∧ Running config fuel n s' g' := by
  rw [obeys_respond]
  exact ⟨h.may rfl, ⟨_, rfl⟩, h.quiet (quiet_tick g)⟩

theorem Running.obeys_reply_continue :
    (respond response reply >>= fun _ => pure LoopStep.continue).Obeys (relayRules library config fuel) s g
      (Turned config fuel n) := by
  rw [obeys_bind]
  refine h.obeys_reply.mono ?_
  rintro g' x s' ⟨⟨a, rfl⟩, hrun⟩
  exact obeys_pure.2 hrun

end

theorem Connected.obeys_isAwaited {id : String} {Q : View → Except RelayError Bool → Actor → Prop}
    (h : Connected config fuel n s g) (hQ : ∀ g' b, Quiet g g' → Q g' (.ok b) s) :
    (isAwaited id).Obeys (relayRules library config fuel) s g Q := by
  unfold isAwaited
  rw [obeys_bind, obeys_get]
  dsimp only
  split
  · exact obeys_pure.2 (hQ _ _ (Quiet.refl g))
  · rw [obeys_call_bind]
    exact ⟨h.may rfl, fun closed => obeys_pure.2 (hQ _ _ (quiet_tick g))⟩

theorem Running.withPending (h : Running config fuel n s g) (pending : List (String × Nat))
    (hpend : pending.length ≤ g.publishes) : Running config fuel n { s with pending := pending } g :=
  ⟨⟨⟨h.stored.held, h.stored.encodes, hpend⟩, h.lost, h.calls⟩, { h.gated with }⟩

theorem Running.obeys_onPublish {signed : SignedEvent} (h : Running config fuel n s g)
    (hroom : s.pending.length + 1 ≤ g.publishes) :
    (onPublish config signed response).Obeys (relayRules library config fuel) s g (Turned config fuel n) := by
  have hremoved := length_removeKey_le signed.id s.pending
  unfold onPublish
  rw [obeys_bind, obeys_get]
  dsimp only
  split
  · exact h.obeys_reply_continue
  next hopen =>
    rw [obeys_bind]
    apply h.obeys_isAwaited
    intro g₁ awaited hq
    have h₁ := h.quiet hq
    have hpub := hq.publishes
    dsimp only
    split
    · exact h₁.obeys_reply_continue
    · rw [obeys_bind, obeys_modify]
      dsimp only
      have h₂ := h₁.withPending (removeKey signed.id s.pending) (by omega)
      refine h₂.obeys_sendAndReply rfl (h₁.gated.opened (by simpa using hopen)) ?_ fun _ => ?_
      · intro _ _ heq
        cases heq
      · rw [obeys_modify]
        refine ⟨⟨_, rfl⟩, (h₂.quiet (quiet_tick _)).withPending _ ?_⟩
        have hagain := length_removeKey_le signed.id (removeKey signed.id s.pending)
        show (removeKey signed.id (removeKey signed.id s.pending)).length + 1 ≤ g₁.publishes
        omega

theorem Running.insert (h : Running config fuel n s g)
    (hheld : subscriptionId ∈ g.held)
    (hencodes : config.startsOpen = true → g.fine = true → (ClientFrame.request subscriptionId filters).Encodes config) :
    Running config fuel n { s with subscriptions := insertKey subscriptionId filters s.subscriptions } g := by
  refine ⟨⟨⟨?_, ?_, h.stored.pending⟩, h.lost, h.calls⟩, { h.gated with }⟩
  · intro entry he
    rcases List.mem_cons.1 he with rfl | he
    · exact hheld
    · exact h.stored.held entry (mem_removeKey.1 he).1
  · intro hst hfine entry he
    rcases List.mem_cons.1 he with rfl | he
    · exact hencodes hst hfine
    · exact h.stored.encodes hst hfine entry (mem_removeKey.1 he).1

theorem Running.obeys_onSubscribe (h : Running config fuel n s g) (hheld : subscriptionId ∈ g.held)
    (hencodes : g.fine = true → config.auth = none ∨ config.startsOpen = false ∨
      (ClientFrame.request subscriptionId filters).Encodes config) :
    (onSubscribe config subscriptionId filters response).Obeys (relayRules library config fuel) s g
      (Turned config fuel n) := by
  unfold onSubscribe
  rw [obeys_bind, obeys_get]
  dsimp only
  split
  next hcl =>
    rw [obeys_bind, obeys_bind, obeys_modify]
    dsimp only
    have hsto (hst : config.startsOpen = true) (hfine : g.fine = true) :
        (ClientFrame.request subscriptionId filters).Encodes config :=
      ((hencodes hfine).resolve_left (h.gated.closed (by simpa using hcl))).resolve_left (by simp [hst])
    refine (h.insert hheld hsto).obeys_reply.mono ?_
    rintro g' x s' ⟨⟨a, rfl⟩, hrun⟩
    exact obeys_pure.2 hrun
  next hopen =>
    refine h.obeys_sendAndReply rfl (h.gated.opened (by simpa using hopen)) ?_ fun hwr => ?_
    · intro _ _ heq
      cases heq
      exact hheld
    · rw [obeys_bind, obeys_modify]
      dsimp only
      exact ((h.quiet (quiet_tick g)).insert hheld fun _ _ => hwr).obeys_reply

theorem obeys_onClose (h : Running config fuel n { s with subscriptions := removeKey subscriptionId s.subscriptions } g) :
    (onClose config subscriptionId response).Obeys (relayRules library config fuel) s g (Turned config fuel n) := by
  unfold onClose
  rw [obeys_bind, obeys_modify]
  dsimp only
  rw [obeys_bind, obeys_get]
  dsimp only
  split
  · exact h.obeys_reply_continue
  next hopen =>
    refine h.obeys_sendAndReply rfl (h.gated.opened (by simpa using hopen)) ?_ fun _ => ?_
    · intro _ _ heq
      cases heq
    · exact (h.quiet (quiet_tick g)).obeys_reply

theorem mayCall_unfine (hfine : g.fine = false) (hcall : call.isPlain = true) : MayCall library config fuel g call := by
  apply mayCall_plain hcall
  intro h
  rw [hfine] at h
  cases h

theorem Running.obeys_onCommand (h : Running config fuel n s g) (command : Option RelayCommand) :
    (onCommand config command).Obeys (relayRules library config fuel) s (g.take config command) (Turned config fuel n) := by
  have hsto := h.stored
  rcases command with _ | ⟨signed, response⟩ | ⟨subscriptionId, filters, response⟩ | ⟨subscriptionId, response⟩ | _
  · exact obeys_pure.2 rfl
  · have hpend := hsto.pending
    refine Running.obeys_onPublish ⟨⟨⟨hsto.held, hsto.encodes, ?_⟩, h.lost, h.calls⟩, h.gated.view rfl⟩ ?_
    · exact Nat.le_succ_of_le hpend
    · exact Nat.succ_le_succ hpend
  · refine Running.obeys_onSubscribe ⟨⟨⟨?_, ?_, hsto.pending⟩, h.lost, h.calls⟩, h.gated.view rfl⟩
      List.mem_cons_self ?_
    · exact fun entry he => List.mem_cons_of_mem _ (hsto.held entry he)
    · exact fun hst hfine => hsto.encodes hst (Bool.and_eq_true_iff.1 hfine).1
    · simp [View.take]
  · refine obeys_onClose ⟨⟨⟨?_, ?_, hsto.pending⟩, h.lost, h.calls⟩, { h.gated with }⟩
    · intro entry he
      obtain ⟨he, hne⟩ := mem_removeKey.1 he
      exact List.mem_filter.2 ⟨hsto.held entry he, decide_eq_true hne⟩
    · exact fun hst hfine entry he => hsto.encodes hst hfine entry (mem_removeKey.1 he).1
  · unfold onCommand
    rw [obeys_call_bind]
    exact ⟨mayCall_unfine rfl rfl, fun _ => obeys_pure.2 rfl⟩

/-! ## Frames of the relay -/

theorem gateEvent_eq (library : RelayLibrary) (config : RelayConfig) (text : String) (now : UInt64) :
    gateEvent library config text =
      match RelayFrame.fromJson library.frames library.primitives (utf8 text) now config.eventLimits config.frameLimits with
      | .ok (.authChallenge challenge) => some (.challenged challenge)
      | .ok (.ok eventId accepted _) => some (.verdict eventId accepted)
      | _ => none := by
  unfold gateEvent RelayFrame.fromJson
  cases validateFrameSize (utf8 text).length config.frameLimits with
  | error e => rfl
  | ok _ =>
    cases (library.frames.fromSlice (utf8 text)).bind (wireRelayFrame library.frames) with
    | none => rfl
    | some frame =>
      -- only the check of an event reads the clock
      cases frame with
      | event subscriptionId signed =>
        have hnone : ∀ now', (match (do
            (RelayFrame.event subscriptionId signed).validate library.primitives now' config.eventLimits
              config.frameLimits
            .ok (.event subscriptionId signed) : Except FrameError RelayFrame) with
          | .ok (.authChallenge challenge) => some (GateEvent.challenged challenge)
          | .ok (.ok eventId accepted _) => some (.verdict eventId accepted)
          | _ => none) = none := by
          intro now'
          cases (RelayFrame.event subscriptionId signed).validate library.primitives now' config.eventLimits
            config.frameLimits <;> rfl
        exact (hnone 0).trans (hnone now).symm
      | _ => rfl

variable (config) in
def Handled (fuel n : Nat) (g : View) (x : Except RelayError Unit) (s : Actor) : Prop :=
  match x with
  | .ok _ => Running config fuel n s g
  | .error _ => Ending config fuel n 0 s g

theorem Connected.obeys_signChallenge {signer : RelayAuthSigner} {url : String} {now : UInt64}
    {Q : View → Except RelayError SignedEvent → Actor → Prop} (h : Connected config fuel n s g)
    (hok : ∀ g' signature, Quiet g g' →
      Q g' (.ok ((challengeAnswer signer url challenge now).withSignature library.primitives signature)) s)
    (herr : ∀ g' e, Quiet g g' → Q g' (.error e) s) :
    (signChallenge library config signer url challenge now).Obeys (relayRules library config fuel) s g Q := by
  unfold signChallenge
  split
  · exact obeys_throw.2 (herr g _ (Quiet.refl g))
  · rw [obeys_call_bind]
    refine ⟨h.may rfl, fun drawn => ?_⟩
    have hquiet := quiet_tick g
    cases drawn with
    | none => exact obeys_throw.2 (herr _ _ hquiet)
    | some auxiliary =>
      dsimp only
      rw [obeys_ofExcept]
      generalize hsigned : (do
        (challengeAnswer signer url challenge now).validate config.eventLimits
        (challengeAnswer signer url challenge now).signWithAux library.primitives signer.secretKey auxiliary
          config.eventLimits) = signed
      cases signed with
      | error e => exact herr _ _ hquiet
      | ok signed =>
        obtain ⟨_, _, hsigned⟩ := bind_ok_iff.1 hsigned
        obtain ⟨_, _, signature, _, _, _, rfl⟩ := signWithAux_ok_iff.1 hsigned
        exact hok _ signature hquiet

theorem Running.obeys_onChallenge (h : Running config fuel n s g) :
    (onChallenge library config challenge).Obeys (relayRules library config fuel) s
      { g with events := g.events ++ [.challenged challenge] } (Handled config fuel n) := by
  have h₀ : Connected config fuel n s { g with events := g.events ++ [.challenged challenge] } :=
    ⟨h.stored.view rfl rfl id, h.lost, h.calls⟩
  unfold onChallenge
  rw [obeys_bind]
  refine h₀.obeys_notify (fun g₁ hq₁ => ?_) (fun g₁ e hend _ => hend)
  have h₁ := h₀.quiet hq₁
  cases hauth : config.auth with
  | none =>
    refine obeys_pure.2 ⟨h₁, fun _ => .inl hauth, h.gated.closed, fun authentication hsome => ?_⟩
    exact absurd hauth (h.gated.awaits authentication hsome).1
  | some signer =>
    dsimp only
    rw [obeys_bind, obeys_modify]
    dsimp only
    have h₂ : Connected config fuel n { s with sessionAuthenticated := false } g₁ :=
      ⟨h₁.stored, h₁.lost, h₁.calls⟩
    rw [obeys_call_bind]
    refine ⟨h₂.may rfl, fun now => ?_⟩
    have hq₂ := quiet_tick g₁
    rw [obeys_bind]
    refine (h₂.quiet hq₂).obeys_signChallenge (fun g₃ signature hq₃ => ?_)
      (fun g₃ e hq₃ => ((h₂.quiet hq₂).quiet hq₃).ending 0)
    have h₃ := (h₂.quiet hq₂).quiet hq₃
    have hlatest : LatestChallenge g₃.events challenge := by
      rw [hq₃.events, hq₂.events, hq₁.events]
      exact latestChallenge_append challenge
    dsimp only
    rw [obeys_bind]
    refine h₃.obeys_sendFrame (fun text => ?_) (fun text _ => ?_) (fun g₄ e hend _ => hend)
    · apply h₃.mayWrite
      · intro hgated
        cases hgated
      · intro signed heq
        cases heq
        exact ⟨signer, challenge, now, hauth, hlatest, rfl, rfl⟩
      · intro _ _ heq
        cases heq
    · dsimp only
      rw [obeys_modify]
      have hsome : config.auth ≠ none := by simp [hauth]
      refine ⟨⟨h₃.stored.view rfl rfl id, ?_, ?_⟩, ?_, fun _ => hsome, ?_⟩
      · exact (quiet_tick g₃).lost h₃.lost
      · have hcalls := h₃.calls
        show fuel ≤ g₃.calls + 1 + n
        omega
      · intro hopen
        cases hopen
      · intro authentication heq
        cases heq
        exact ⟨hsome, _, rfl, hlatest.answered _⟩

theorem Running.heard {events : List GateEvent} (h : Running config fuel n s g) (hevents : Unchallenged events) :
    Running config fuel n s { g with events := g.events ++ events } := by
  refine ⟨⟨h.stored.view rfl rfl id, h.lost, h.calls⟩, fun hopen => ?_, h.gated.closed, fun authentication hsome => ?_⟩
  · rcases h.gated.opened hopen with hnone | ⟨hst, hunchallenged⟩ | hacc
    · exact .inl hnone
    · exact .inr (.inl ⟨hst, hunchallenged.append hevents⟩)
    · exact .inr (.inr (hacc.append hevents))
  · obtain ⟨hauth, signed, hid, hansd⟩ := h.gated.awaits authentication hsome
    exact ⟨hauth, signed, hid, hansd.append hevents⟩

theorem unchallenged_verdict (eventId : String) (accepted : Bool) : Unchallenged [.verdict eventId accepted] := by
  intro challenge h
  cases List.mem_singleton.1 h

theorem Running.obeys_notify_handled (h : Running config fuel n s g) :
    (notify notification).Obeys (relayRules library config fuel) s g (Handled config fuel n) :=
  h.toConnected.obeys_notify (fun _ hq => h.quiet hq) (fun _ _ hend _ => hend)

theorem Connected.judged (h : Connected config fuel n s g) (authenticated : Bool)
    (hauth : config.auth ≠ none) (hopen : authenticated = true → GateOpen config g.events) :
    Running config fuel n { s with pendingAuthentication := none, sessionAuthenticated := authenticated } g := by
  refine ⟨⟨h.stored, h.lost, h.calls⟩, hopen, fun _ => hauth, ?_⟩
  intro authentication heq
  cases heq

theorem Connected.obeys_onAuthenticationOk {authentication : PendingAuthentication}
    (h : Connected config fuel n s g) (hauth : config.auth ≠ none) (hopen : accepted = true → GateOpen config g.events) :
    (onAuthenticationOk config authentication accepted message).Obeys (relayRules library config fuel) s g
      (Handled config fuel n) := by
  have hjudged := h.judged accepted hauth hopen
  unfold onAuthenticationOk
  rw [obeys_bind, obeys_modify]
  dsimp only
  cases accepted with
  | false =>
    rw [if_neg Bool.false_ne_true, obeys_bind, obeys_modify]
    exact hjudged.obeys_notify_handled
  | true =>
    rw [if_pos rfl, obeys_bind, obeys_modify]
    dsimp only
    rw [obeys_bind]
    refine (hjudged.obeys_replaySubscriptions (hopen rfl)).mono ?_
    rintro g' x s' ⟨rfl, hx⟩
    cases x with
    | ok a => exact (hjudged.quiet hx).obeys_notify_handled
    | error e => exact hx.1

theorem Running.obeys_onOk {eventId : String} (h : Running config fuel n s g) :
    (onOk config eventId accepted message).Obeys (relayRules library config fuel) s
      { g with events := g.events ++ [.verdict eventId accepted] } (Handled config fuel n) := by
  have h₀ := h.heard (unchallenged_verdict eventId accepted)
  unfold onOk
  rw [obeys_bind, obeys_get]
  dsimp only
  cases hfilter : s.pendingAuthentication.filter (·.eventId = eventId) with
  | some authentication =>
    obtain ⟨hpend, hid⟩ := Option.filter_eq_some_iff.1 hfilter
    obtain ⟨hauth, signed, hsigned, hansd⟩ := h.gated.awaits authentication hpend
    apply h₀.obeys_onAuthenticationOk hauth
    rintro rfl
    rw [← of_decide_eq_true hid, ← hsigned]
    exact .inr (.inr hansd.accepted)
  | none =>
    dsimp only
    cases s.pending.lookup eventId with
    | none => exact obeys_pure.2 h₀
    | some response =>
      dsimp only
      rw [obeys_bind, obeys_modify]
      have hremoved := (length_removeKey_le eventId s.pending).trans h.stored.pending
      have h₁ := h₀.withPending _ hremoved
      rw [obeys_respond]
      refine ⟨h₁.may ?_, h₁.quiet (quiet_tick _)⟩
      cases accepted <;> rfl

theorem Running.obeys_handleRelayFrame (h : Running config fuel n s g) :
    (handleRelayFrame library config (utf8 text)).Obeys (relayRules library config fuel) s
      { g with events := g.events ++ (gateEvent library config text).toList } (Handled config fuel n) := by
  have h₀ : Connected config fuel n s { g with events := g.events ++ (gateEvent library config text).toList } :=
    ⟨h.stored.view rfl rfl id, h.lost, h.calls⟩
  have h₁ := h.quiet (quiet_tick g)
  unfold handleRelayFrame
  rw [obeys_call_bind]
  refine ⟨h₀.may rfl, fun now => ?_⟩
  show Method.Obeys _ _ s { g.tick with events := g.tick.events ++ (gateEvent library config text).toList } _
  rw [obeys_bind, obeys_ofExcept, gateEvent_eq library config text now]
  cases RelayFrame.fromJson library.frames library.primitives (utf8 text) now config.eventLimits config.frameLimits with
  | error e => exact (h₁.heard unchallenged_nil).ending 0
  | ok frame =>
    cases frame with
    | ok eventId accepted message => exact h₁.obeys_onOk
    | authChallenge challenge => exact h₁.obeys_onChallenge
    | _ => exact (h₁.heard unchallenged_nil).obeys_notify_handled

theorem Running.withProgress (h : Running config fuel n s g) : Running config fuel n { s with sessionProgress := true } g :=
  ⟨⟨h.stored, h.lost, h.calls⟩, { h.gated with }⟩

/-! ## A session -/

theorem Connected.dropped (h : Connected config fuel n s g) : Ending config fuel n 1 s { g with lost := some 0 } := by
  refine ⟨h.stored.view rfl rfl id, fun m hm => ?_, h.calls⟩
  cases hm
  exact Nat.zero_le 1

theorem Running.obeys_onMessage (h : Running config fuel n s g) (next : Option (Except String Incoming)) :
    (onMessage library config next).Obeys (relayRules library config fuel) s (g.turn library config (.message next))
      (Turned config fuel n) := by
  rcases next with _ | e | message
  · exact obeys_pure.2 h.dropped
  · exact obeys_pure.2 h.dropped
  · cases message with
    | text text =>
      unfold onMessage progress
      rw [obeys_bind, obeys_modify]
      dsimp only
      rw [obeys_bind, obeys_attempt]
      refine (h.withProgress.obeys_handleRelayFrame).mono ?_
      rintro g' x s' hx
      cases x with
      | ok a => exact obeys_pure.2 hx
      | error e => exact obeys_pure.2 (Ending.mono hx (Nat.zero_le 1))
    | ping | pong =>
      unfold onMessage progress
      rw [obeys_bind, obeys_modify]
      exact obeys_pure.2 h.withProgress
    | _ => exact obeys_pure.2 h.dropped

theorem Running.obeys_takeTurn (h : Running config fuel n s g) (next : RelayTurn) :
    (takeTurn library config next).Obeys (relayRules library config fuel) s (g.turn library config next)
      (Turned config fuel n) := by
  cases next with
  | command command => exact h.obeys_onCommand command
  | message next => exact h.obeys_onMessage next
  | idle => exact obeys_pure.2 h.dropped
  | ping =>
    unfold takeTurn
    rw [obeys_call_bind]
    refine ⟨h.may rfl, fun sent => ?_⟩
    cases sent with
    | ok _ => exact obeys_pure.2 (h.quiet (quiet_tick g))
    | error e => exact obeys_pure.2 (h.toConnected.quiet (quiet_tick g)).dropped

theorem Running.select (h : Running config fuel (n + 1) s g) :
    Running config fuel n s { g.tick with replaying := false } := by
  refine ⟨⟨h.stored.view rfl rfl id, (quiet_tick g).lost h.lost, ?_⟩, h.gated.view rfl⟩
  have hcalls := h.calls
  show fuel ≤ g.calls + 1 + n
  omega

theorem obeys_beyond {Q : View → Except RelayError α → Actor → Prop}
    (hcleans : ∀ m, g.lost = some m → m ≤ 7 + g.publishes) (hcalls : fuel ≤ g.calls) :
    (beyond : ActorMethod α).Obeys (relayRules library config fuel) s g Q := by
  unfold beyond
  rw [obeys_call_bind]
  refine ⟨⟨?_, ?_, ?_, fun _ m hm => ⟨rfl, hcleans m hm⟩, fun _ => hcalls⟩, fun never => nomatch never⟩
  · intro _ _ heq
    cases heq
  · intro _ _ heq
    cases heq
  · intro _ _ _ heq
    cases heq

theorem Ending.rounds {n' : Nat} (h : Ending config fuel n k s g) (hn : n ≤ n') : Ending config fuel n' k s g := by
  refine ⟨h.stored, h.lost, ?_⟩
  have hcalls := h.calls
  omega

variable (config) in
/-- The outcome of a session: the connection is given up, or the actor is to end. -/
def Over (fuel n : Nat) (g : View) (x : Except RelayError Bool) (s : Actor) : Prop :=
  match x with
  | .ok true => Ending config fuel n 1 s g
  | .ok false => g.fine = false
  | .error _ => False

theorem Running.obeys_session (h : Running config fuel n s g) :
    (session library config n).Obeys (relayRules library config fuel) s g (Over config fuel n) := by
  induction n generalizing s g with
  | zero =>
    refine obeys_beyond (fun m hm => ?_) h.calls
    rw [h.lost] at hm
    cases hm
  | succ n ih =>
    unfold session
    rw [obeys_call_bind]
    refine ⟨h.may rfl, fun next => ?_⟩
    rw [obeys_bind]
    refine (h.select.obeys_takeTurn next).mono ?_
    rintro g' x s' hx
    rcases x with e | _ | disconnect
    · exact hx.elim
    · refine (ih hx).mono ?_
      rintro g'' y s'' hy
      rcases y with e | _ | _
      · exact hy.elim
      · exact hy
      · exact Ending.rounds hy (Nat.le_succ n)
    · refine obeys_pure.2 ?_
      cases disconnect with
      | false => exact hx
      | true => exact Ending.rounds hx (Nat.le_succ n)

/-! ## The loop -/

theorem obeys_failPending_unfine (hfine : g.fine = false) :
    (failPending error).Obeys (relayRules library config fuel) s g fun g' _ _ => g'.fine = false := by
  have heach : ∀ entries, Method.Holds (relayRules library config fuel) (fun g => g.fine = false) (failEach error entries) := by
    intro entries
    induction entries with
    | nil => exact Method.holds_pure ()
    | cons entry rest ih =>
      refine Method.holds_bind (Method.holds_request fun g hg => ⟨mayCall_unfine hg rfl, fun _ => hg⟩) fun _ => ih
  unfold failPending
  rw [obeys_bind, obeys_get]
  dsimp only
  rw [obeys_bind]
  refine obeys_inOrder (mayCall_unfine hfine rfl) fun order _ _ => ?_
  dsimp only
  rw [obeys_bind, obeys_modify]
  exact Method.holds_iff.1 (heach order) _ _ hfine

theorem Ending.obeys_failEach {entries : List (String × Nat)}
    (h : Ending config fuel n k s g)
    (hk : k + entries.length ≤ 8 + g.publishes) :
    (failEach error entries).Obeys (relayRules library config fuel) s g fun g' x s' =>
      (∃ a, x = .ok a) ∧ s' = s ∧ g'.publishes = g.publishes ∧ Ending config fuel n (k + entries.length) s g' := by
  induction entries generalizing g k with
  | nil => exact obeys_pure.2 ⟨⟨_, rfl⟩, rfl, rfl, h⟩
  | cons entry rest ih =>
    rw [List.length_cons] at hk ⊢
    unfold failEach
    rw [obeys_bind, obeys_respond]
    refine ⟨h.may (by omega) rfl rfl, ?_⟩
    have hk' : k + 1 + rest.length ≤ 8 + g.tick.publishes := by
      show k + 1 + rest.length ≤ 8 + g.publishes
      omega
    refine (ih h.tick hk').mono ?_
    rintro g' x s' ⟨hx, rfl, hpub, hend⟩
    refine ⟨hx, rfl, hpub, ?_⟩
    rw [Nat.add_right_comm] at hend
    exact hend

theorem Ending.withoutPending (h : Ending config fuel n k s g) : Ending config fuel n k { s with pending := [] } g :=
  ⟨⟨h.stored.held, h.stored.encodes, Nat.zero_le _⟩, h.lost, h.calls⟩

theorem Ending.obeys_failPending (h : Ending config fuel n 1 s g) :
    (failPending error).Obeys (relayRules library config fuel) s g fun g' x s' =>
      (∃ a, x = .ok a) ∧ Ending config fuel n (2 + g'.publishes) s' g' := by
  unfold failPending
  rw [obeys_bind, obeys_get]
  dsimp only
  rw [obeys_bind]
  refine obeys_inOrder (h.may (by omega) rfl rfl) fun order _ hlen => ?_
  dsimp only
  rw [obeys_bind, obeys_modify]
  dsimp only
  have hpend := h.stored.pending
  have hroom : 1 + 1 + order.length ≤ 8 + g.tick.publishes := by
    show 1 + 1 + order.length ≤ 8 + g.publishes
    omega
  refine (h.tick.withoutPending.obeys_failEach hroom).mono ?_
  rintro g' x s' ⟨hx, rfl, hpub, hend⟩
  refine ⟨hx, hend.mono ?_⟩
  have hsame : g'.publishes = g.publishes := hpub
  omega

variable (config) in
/-- The actor has no connection, and is to wait, reject a command or connect next. -/
structure Apart (fuel n k : Nat) (s : Actor) (g : View) : Prop extends Ending config fuel n (k + g.publishes) s g where
  awaits : s.pendingAuthentication = none

section
variable (h : Apart config fuel n k s g)
include h

theorem Apart.tick : Apart config fuel n (k + 1) s g.tick := by
  refine ⟨?_, h.awaits⟩
  have htick := h.toEnding.tick
  rw [Nat.add_right_comm] at htick
  exact htick

theorem Apart.may (hk : k ≤ 7) (hcall : call.isPlain = true)
    (hcleanup : call.isCleanup = true) : MayCall library config fuel g call :=
  h.toEnding.may (by omega) hcall hcleanup

theorem Apart.mono (hk : k ≤ k') : Apart config fuel n k' s g := ⟨h.toEnding.mono (by omega), h.awaits⟩

theorem Apart.withFailures {failures : UInt32} :
    Apart config fuel n k { s with consecutiveFailures := failures } g :=
  ⟨⟨h.stored, h.lost, h.calls⟩, h.awaits⟩

end

variable (config) in
def Parted (fuel n k : Nat) (g : View) (x : Except RelayError Unit) (s : Actor) : Prop :=
  match x with
  | .ok _ => Apart config fuel n k s g
  | .error _ => g.fine = false

theorem Apart.disconnected (h : Apart config fuel n k s g) :
    Apart config fuel n (k + 1) s { g.tick with lost := some ((g.lost.map (· + 1)).getD 0) } := by
  have htick := h.tick
  refine ⟨⟨h.stored.view rfl rfl id, fun m hm => ?_, htick.calls⟩, h.awaits⟩
  cases hm
  cases hlost : g.lost with
  | none => exact Nat.zero_le _
  | some m =>
    have hm := h.lost m hlost
    show m + 1 ≤ k + 1 + g.publishes
    omega

theorem Ending.obeys_endSession (h : Ending config fuel n 1 s g) :
    endSession.Obeys (relayRules library config fuel) s g (Parted config fuel n 4) := by
  unfold endSession
  rw [obeys_bind]
  refine h.obeys_failPending.mono ?_
  rintro g₁ x s₁ ⟨⟨a, rfl⟩, h₁⟩
  dsimp only
  rw [obeys_bind, obeys_modify]
  dsimp only
  have h₂ : Apart config fuel n 2 { s₁ with pendingAuthentication := none } g₁ :=
    ⟨⟨h₁.stored, h₁.lost, h₁.calls⟩, rfl⟩
  rw [obeys_call_bind]
  refine ⟨h₂.may (by omega) rfl rfl, fun _ => ?_⟩
  have h₃ := h₂.disconnected
  rw [obeys_bind]
  refine Nostr.obeys_notify (h₃.may (by omega) rfl rfl) ?_ fun e => rfl
  dsimp only
  rw [obeys_modify]
  exact h₃.tick.withFailures

theorem Apart.obeys_connectFailed (h : Apart config fuel n 0 s g) :
    connectFailed.Obeys (relayRules library config fuel) s g (Parted config fuel n 4) := by
  unfold connectFailed
  rw [obeys_call_bind]
  refine ⟨h.may (by omega) rfl rfl, fun _ => ?_⟩
  rw [obeys_modify]
  exact (h.disconnected.mono (by omega)).withFailures

variable (config) in
/-- The outcome of a connection: the actor is to wait and connect again, or to end. -/
def Departed (fuel n : Nat) (g : View) (x : Except RelayError Bool) (s : Actor) : Prop :=
  match x with
  | .ok true => Apart config fuel n 4 s g
  | _ => g.fine = false

theorem Apart.obeys_onConnectFailed (h : Apart config fuel n 0 s g) :
    onConnectFailed.Obeys (relayRules library config fuel) s g (Departed config fuel n) := by
  unfold onConnectFailed
  rw [obeys_bind]
  refine h.obeys_connectFailed.mono ?_
  rintro g' x s' hx
  cases x with
  | ok a => exact obeys_pure.2 hx
  | error e => exact hx

section
variable (h : Connected config fuel n s g) (hawaits : s.pendingAuthentication = none) (hevents : g.events = [])
    (hreplaying : g.replaying = true)
include h hawaits hevents hreplaying

theorem Connected.obeys_beginSession :
    (beginSession config).Obeys (relayRules library config fuel) s g fun g' x s' =>
      match x with
      | .ok _ => Running config fuel n s' g'
      | .error _ => g'.fine = false := by
  unfold beginSession
  rw [obeys_call_bind]
  refine ⟨h.may rfl, fun _ => ?_⟩
  have hq₁ := quiet_tick g
  rw [obeys_bind]
  refine (h.quiet hq₁).obeys_notify (fun g₂ hq₂ => ?_) fun _ _ _ hfine => hfine
  have hq := hq₁.trans hq₂
  have h₂ := h.quiet hq
  dsimp only
  rw [obeys_bind, obeys_modify]
  dsimp only
  have hopen : config.startsOpen = true → GateOpen config g₂.events := by
    intro hst
    refine .inr (.inl ⟨hst, ?_⟩)
    rw [hq.events, hevents]
    exact unchallenged_nil
  have h₃ : Running config fuel n { s with sessionAuthenticated := config.startsOpen, sessionProgress := false } g₂ := by
    refine ⟨⟨h₂.stored, h₂.lost, h₂.calls⟩, hopen, fun hcl hnone => ?_,
      fun a ha => ?_⟩
    · have hst : config.startsOpen = false := hcl
      simp [RelayConfig.startsOpen, hnone] at hst
    rw [show s.pendingAuthentication = some a from ha] at hawaits
    cases hawaits
  split
  next hst =>
    refine (h₃.obeys_replaySubscriptions (hopen hst)).mono ?_
    rintro g' x s' ⟨rfl, hx⟩
    cases x with
    | ok a => exact h₃.quiet hx
    | error e => exact hx.2 hst (hq.replaying.trans hreplaying)
  · exact obeys_pure.2 h₃

theorem Connected.obeys_onConnected :
    (onConnected library config n).Obeys (relayRules library config fuel) s g (Departed config fuel n) := by
  unfold onConnected
  rw [obeys_bind]
  refine (h.obeys_beginSession hawaits hevents hreplaying).mono ?_
  rintro g₁ x s₁ hx
  cases x with
  | error e => exact hx
  | ok a =>
    dsimp only
    rw [obeys_bind]
    refine (Running.obeys_session hx).mono ?_
    rintro g₂ y s₂ hy
    rcases y with e | _ | _
    · exact hy.elim
    · exact obeys_pure.2 hy
    · dsimp only
      rw [if_pos rfl, obeys_bind]
      refine (Ending.obeys_endSession hy).mono ?_
      rintro g₃ z s₃ hz
      cases z with
      | ok b => exact obeys_pure.2 hz
      | error e => exact hz

end

theorem Apart.obeys_waitToReconnect {delay : Nat} (h : Apart config fuel n 4 s g) :
    (waitToReconnect delay).Obeys (relayRules library config fuel) s g fun g' x s' =>
      match x with
      | .ok true => g'.fine = false
      | .ok false => Apart config fuel n 6 s' g'
      | .error _ => False := by
  unfold waitToReconnect
  rw [obeys_call_bind]
  refine ⟨h.may (by omega) rfl rfl, fun answer => ?_⟩
  rcases answer with _ | _ | command
  · exact obeys_pure.2 (h.tick.mono (by omega))
  · exact obeys_pure.2 rfl
  · have hreject : ∀ response, (respond response (.failed .disconnected) >>= fun _ => pure false).Obeys
        (relayRules library config fuel) s g.tick fun g' x s' =>
          match x with
          | .ok true => g'.fine = false
          | .ok false => Apart config fuel n 6 s' g'
          | .error _ => False := by
      intro response
      rw [obeys_bind, obeys_respond]
      exact ⟨h.tick.may (by omega) rfl rfl, obeys_pure.2 h.tick.tick⟩
    cases command with
    | shutdown => exact obeys_pure.2 rfl
    | publish _ response | subscribe _ _ response | close _ response => exact hreject response

theorem Apart.connecting (h : Apart config fuel (n + 1) 6 s g) : Apart config fuel n 7 s g.tick := by
  have htick := h.tick
  refine ⟨⟨htick.stored, htick.lost, ?_⟩, h.awaits⟩
  have hcalls := h.calls
  show fuel ≤ g.calls + 1 + n
  omega

theorem Apart.obeys_connect (h : Apart config fuel (n + 1) 6 s g) :
    (connect library config n).Obeys (relayRules library config fuel) s g (Departed config fuel n) := by
  have h₁ := h.connecting
  unfold connect
  rw [obeys_call_bind]
  refine ⟨h.may (by omega) rfl rfl, fun _ => ?_⟩
  rw [obeys_call_bind]
  refine ⟨h₁.may (by omega) rfl rfl, fun connected => ?_⟩
  cases connected with
  | false =>
    have h₂ : Apart config fuel n 0 s { g.tick.tick with lost := some 0 } := by
      refine ⟨⟨h₁.stored.view rfl rfl id, fun m hm => ?_, h₁.tick.calls⟩, h₁.awaits⟩
      cases hm
      exact Nat.zero_le _
    exact h₂.obeys_onConnectFailed
  | true =>
    have h₂ : Connected config fuel n s { g.tick.tick with events := [], replaying := true, lost := none } :=
      ⟨h₁.stored.view rfl rfl id, rfl, h₁.tick.calls⟩
    exact h₂.obeys_onConnected h₁.awaits rfl rfl

theorem Apart.obeys_runActorLoop (h : Apart config fuel n 6 s g) :
    (runActorLoop library config n).Obeys (relayRules library config fuel) s g fun g' _ _ => g'.fine = false := by
  induction n generalizing s g with
  | zero =>
    refine obeys_beyond (fun m hm => ?_) h.calls
    have hlost := h.lost m hm
    omega
  | succ n ih =>
    unfold runActorLoop
    rw [obeys_bind]
    refine h.obeys_connect.mono ?_
    rintro g₂ x s₂ hx
    rcases x with e | _ | _
    · exact hx
    · exact obeys_failPending_unfine hx
    · dsimp only
      rw [if_pos rfl, obeys_bind, obeys_get]
      dsimp only
      rw [obeys_bind]
      refine (Apart.obeys_waitToReconnect hx).mono ?_
      rintro g₃ y s₃ hy
      rcases y with e | _ | _
      · exact hy.elim
      · exact ih hy
      · exact obeys_failPending_unfine hy

theorem obeys_runActor (library : RelayLibrary) (config : RelayConfig) (fuel : Nat) :
    (runActor library config fuel).Obeys (relayRules library config fuel) {} .start fun g _ _ => g.fine = false := by
  have hst : Apart config fuel fuel 6 {} View.start := by
    refine ⟨⟨⟨?_, ?_, Nat.zero_le _⟩, ?_, Nat.le_add_left _ _⟩, rfl⟩
    · intro entry he
      cases he
    · intro _ _ entry he
      cases he
    · intro m hm
      cases hm
  unfold runActor
  rw [obeys_bind, obeys_attempt]
  refine hst.obeys_runActorLoop.mono ?_
  intro g x s hfine
  dsimp only
  rw [obeys_call_bind]
  refine ⟨mayCall_unfine hfine rfl, fun _ => ?_⟩
  rw [obeys_ofExcept]
  exact hfine

end Walk

end OmaChat.Nostr

import OmaChat.Nostr.Pool

/-!
# What an operation on a pool does with one subscription

For a fixed subscription, `PoolView` is what can be seen of an operation from outside: the reply channel that it made last,
whether the pool that it last read or wrote has the subscription, and the closes that it has sent. `poolRules` says which
calls the operation may make then, and `yields_run` that every operation keeps to them:

* a command carries the channel that was made for it;
* a relay is asked for the subscription only while the pool has it, and only `subscribe` adds it to the pool;
* a close is sent once the pool does not have it.
-/

namespace OmaChat.Nostr
open Wire Effects
open Method (obeys_bind obeys_pure obeys_throw yields_attempt yields_bind yields_pure yields_request)

def RelayPool.wants {n : Nat} (pool : RelayPool n) (subscriptionId : String) : Bool :=
  pool.subscriptions.any (·.1 = subscriptionId)

structure PoolView (n : Nat) where
  channel : Option (Fin n × Nat) := none
  known : Option Bool := none
  sent : List (Fin n × Nat) := []

section Rules
variable {n : Nat} (subscriptionId : String)

def PoolView.learn (g : PoolView n) : (call : PoolCall n) → call.Answer → PoolView n
  | .read, pool => { g with known := some (pool.wants subscriptionId) }
  | .write pool, _ => { g with known := some (pool.wants subscriptionId) }
  | .channel relay, response => { g with channel := some (relay, response) }
  | .trySend relay (.close closed response), .ok _ =>
    { g with channel := none, sent := if closed = subscriptionId then (relay, response) :: g.sent else g.sent }
  | .trySend _ _, _ => { g with channel := none }
  | _, _ => g

/-- What an operation may do; `adds` says that it is meant to add the subscription. -/
structure MayAsk (adds : Bool) (g : PoolView n) (call : PoolCall n) : Prop where
  sends : ∀ relay command, call = .trySend relay command →
    ∃ response, g.channel = some (relay, response) ∧ command.response = some response
  asks : ∀ relay filters response, call = .trySend relay (.subscribe subscriptionId filters response) → g.known = some true
  closes : ∀ relay response, call = .trySend relay (.close subscriptionId response) → adds = false ∧ g.known = some false
  writes : ∀ pool, call = .write pool → pool.wants subscriptionId = true → adds = true ∨ g.known = some true

def poolRules (adds : Bool) : Protocol (PoolCall.Answer (n := n)) (PoolView n) where
  start := {}
  may := MayAsk subscriptionId adds
  learn := PoolView.learn subscriptionId

def PoolOperation.adds : PoolOperation → Bool
  | .subscribe added _ => added = subscriptionId
  | _ => false

end Rules

/-! ## The walk -/

section
variable {n : Nat} {sub : String} {adds : Bool} {g : PoolView n} {s : Unit} {α : Type} {relay : Fin n} {pool : RelayPool n}
  {command : Nat → RelayCommand} {call : PoolCall n} {f : call.Answer → PoolMethod n α}

/-- The calls that no rule is about. -/
def PoolCall.isPlain : PoolCall n → Bool
  | .trySend _ _ | .write _ => false
  | _ => true

theorem mayAsk_plain (h : call.isPlain = true) : MayAsk sub adds g call := by
  refine ⟨?_, ?_, ?_, ?_⟩
  · rintro _ _ rfl
    cases h
  · rintro _ _ _ rfl
    cases h
  · rintro _ _ rfl
    cases h
  · rintro _ rfl
    cases h

theorem mayAsk_write (h : pool.wants sub = true → adds = true ∨ g.known = some true) : MayAsk sub adds g (.write pool) where
  sends relay command heq := by cases heq
  asks relay filters response heq := by cases heq
  closes relay response heq := by cases heq
  writes pool' heq := by
    cases heq
    exact h

theorem obeys_plain_bind {Q : PoolView n → Except RelayError α → Unit → Prop} (h : call.isPlain = true) :
    (ask call >>= f).Obeys (poolRules sub adds) s g Q ↔ ∀ r, (f r).Obeys (poolRules sub adds) s (g.learn sub call r) Q :=
  Method.obeys_request_bind.trans (and_iff_right (mayAsk_plain h))

variable {Q : PoolView n → α → Unit → Prop} {response : Nat}

theorem yields_plain_bind (h : call.isPlain = true) :
    (ask call >>= f).Yields (poolRules sub adds) s g Q ↔ ∀ r, (f r).Yields (poolRules sub adds) s (g.learn sub call r) Q := by
  rw [ask, yields_bind, yields_request]
  exact and_iff_right (mayAsk_plain h)

theorem yields_write_bind {f : Unit → PoolMethod n α} (h : pool.wants sub = true → adds = true ∨ g.known = some true) :
    (ask (.write pool) >>= f).Yields (poolRules sub adds) s g Q ↔
      (f ()).Yields (poolRules sub adds) s { g with known := some (pool.wants sub) } Q := by
  rw [ask, yields_bind, yields_request]
  exact (and_iff_right (mayAsk_write h)).trans ⟨fun hf => hf (), fun hf _ => hf⟩

variable (sub adds) in
/-- A command that may be sent to a relay with what is known of the pool. -/
structure Sendable (known : Option Bool) (command : Nat → RelayCommand) : Prop where
  response : ∀ response, (command response).response = some response
  asks : ∀ filters response response', command response = .subscribe sub filters response' → known = some true
  closes : ∀ response response', command response = .close sub response' → adds = false ∧ known = some false

theorem learn_close (closed : String) (response : Nat) :
    g.learn sub (.trySend relay (.close closed response)) (.ok ()) =
      { g with channel := none, sent := if closed = sub then (relay, response) :: g.sent else g.sent } := rfl

theorem mem_sent_learn {answer : call.Answer} (h : (relay, response) ∈ g.sent) :
    (relay, response) ∈ (g.learn sub call answer).sent := by
  cases call with
  | trySend relay' command =>
    cases command with
    | close closed response' =>
      cases answer with
      | ok _ =>
        rw [learn_close]
        dsimp only
        split
        · exact List.mem_cons_of_mem _ h
        · exact h
      | error e => exact h
    | _ => cases answer <;> exact h
  | _ => exact h

theorem learn_trySend_known (relay : Fin n) (command : RelayCommand) (sent : Except TrySendError Unit) :
    (g.learn sub (.trySend relay command) sent).known = g.known := by
  cases command <;> cases sent <;> rfl

theorem obeys_sendWithChannel (h : Sendable sub adds g.known command) :
    (sendWithChannel relay command).Obeys (poolRules sub adds) s g fun g' _ _ => g'.known = g.known := by
  unfold sendWithChannel send
  rw [obeys_plain_bind rfl]
  intro response
  rw [obeys_bind, ask, Method.obeys_request_bind]
  refine ⟨⟨?_, ?_, ?_, ?_⟩, fun sent => ?_⟩
  · intro relay' command' heq
    cases heq
    exact ⟨response, rfl, h.response response⟩
  · intro relay' filters response' heq
    injection heq with _ hcmd
    exact h.asks filters response response' hcmd
  · intro relay' response' heq
    injection heq with _ hcmd
    exact h.closes response response' hcmd
  · intro pool heq
    cases heq
  · have hknown : ((g.learn sub (.channel relay) response).learn sub (.trySend relay (command response)) sent).known = g.known :=
      learn_trySend_known relay (command response) sent
    cases sent with
    | ok _ => exact obeys_pure.2 (obeys_pure.2 hknown)
    | error e => cases e <;> exact obeys_throw.2 hknown

theorem obeys_awaitReply : (awaitReply relay response).Obeys (poolRules sub adds) s g fun g' _ _ => g' = g := by
  unfold awaitReply
  rw [obeys_plain_bind rfl]
  intro answer
  cases answer with
  | reply result =>
    rw [Method.obeys_ofExcept]
    rfl
  | timeout | dropped => exact obeys_throw.2 rfl

theorem yields_sendEach {relays : List (Fin n)} (h : Sendable sub adds g.known command) :
    (sendEach command relays).Yields (poolRules sub adds) s g fun g' _ _ => g'.known = g.known := by
  induction relays generalizing g with
  | nil => exact yields_pure.2 rfl
  | cons relay rest ih =>
    unfold sendEach
    rw [yields_bind, yields_attempt]
    refine (obeys_sendWithChannel h).mono fun g₁ x s₁ hknown => ?_
    rw [yields_bind]
    refine (ih (hknown ▸ h)).mono fun g₂ sent s₂ hknown' => ?_
    exact yields_pure.2 (hknown'.trans hknown)

theorem yields_awaitEach {sent : List (Fin n × Except RelayError Nat)} :
    (awaitEach sent).Yields (poolRules sub adds) s g fun g' _ _ => g' = g := by
  induction sent with
  | nil => exact yields_pure.2 rfl
  | cons entry rest ih =>
    obtain ⟨relay, x⟩ := entry
    cases x with
    | error e =>
      unfold awaitEach
      rw [yields_bind]
      exact ih.mono fun g' results _ hsame => yields_pure.2 hsame
    | ok response =>
      unfold awaitEach
      rw [yields_bind, yields_attempt]
      refine obeys_awaitReply.mono ?_
      rintro _ result s₁ rfl
      rw [yields_bind]
      exact ih.mono fun g' results _ hsame => yields_pure.2 hsame

theorem yields_askEach (h : Sendable sub adds g.known command) :
    (askEach command).Yields (poolRules sub adds) s g fun g' _ _ => g'.known = g.known := by
  unfold askEach
  rw [yields_bind]
  refine (yields_sendEach h).mono fun g₁ sent s₁ hknown => ?_
  exact yields_awaitEach.mono fun g₂ results s₂ hsame => hsame ▸ hknown

/-! ### Operations -/

theorem wants_eq_true : pool.wants sub = true ↔ ∃ entry ∈ pool.subscriptions, entry.1 = sub := by
  simp [RelayPool.wants]

theorem wants_congr {pool' : RelayPool n} (h : pool'.subscriptions = pool.subscriptions) :
    pool'.wants sub = pool.wants sub := by
  unfold RelayPool.wants
  rw [h]

theorem subscriptions_syncEach (pool : RelayPool n) (id : String) (results : List (Fin n × Except RelayError Unit)) :
    (pool.syncEach id results).subscriptions = pool.subscriptions := by
  unfold RelayPool.syncEach
  induction results generalizing pool with
  | nil => rfl
  | cons x results ih =>
    rw [List.foldl_cons, ih]
    split <;> rfl

theorem yields_subscribe {added : String} {filters : List Json} :
    (subscribe added filters).Yields (poolRules sub (decide (added = sub))) s g fun _ _ _ => True := by
  unfold subscribe
  rw [yields_plain_bind rfl]
  intro pool
  split
  · exact yields_pure.2 trivial
  · dsimp only
    generalize hsto : ({ pool.unsync added with subscriptions := insertKey added filters pool.subscriptions } : RelayPool n) =
      stored
    have hsubs : stored.subscriptions = insertKey added filters pool.subscriptions := by rw [← hsto]
    rw [yields_write_bind]
    · rw [yields_bind]
      refine (yields_askEach ⟨fun _ => rfl, ?_, ?_⟩).mono ?_
      · intro filters' response response' heq
        cases heq
        refine congrArg some (wants_eq_true.2 ⟨(sub, filters), ?_, rfl⟩)
        rw [hsubs]
        exact List.mem_cons_self
      · intro response response' heq
        cases heq
      · intro g₁ results s₁ hk
        rw [yields_write_bind]
        · exact yields_pure.2 trivial
        · intro hwants
          rw [wants_congr (subscriptions_syncEach _ _ _)] at hwants
          exact .inr (hk.trans (congrArg some hwants))
    · intro hwants
      obtain ⟨entry, he, rfl⟩ := wants_eq_true.1 hwants
      rw [hsubs, insertKey, List.mem_cons] at he
      rcases he with rfl | he
      · exact .inl (decide_eq_true rfl)
      · refine .inr (congrArg some ?_)
        exact wants_eq_true.2 ⟨entry, (mem_removeKey.1 he).1, rfl⟩

theorem yields_closeSubscription {closed : String} :
    (closeSubscription closed).Yields (poolRules sub false) s g fun g' _ _ =>
      closed = sub → g'.known = some false := by
  unfold closeSubscription
  rw [yields_plain_bind rfl]
  intro pool
  generalize hremoved : ({ pool.unsync closed with subscriptions := removeKey closed pool.subscriptions } : RelayPool n) =
    removed
  have hsubs : removed.subscriptions = removeKey closed pool.subscriptions := by rw [← hremoved]
  rw [yields_write_bind]
  · have hgone : closed = sub → removed.wants sub = false := by
      rintro rfl
      rw [Bool.eq_false_iff]
      intro hwants
      obtain ⟨entry, he, heq⟩ := wants_eq_true.1 hwants
      rw [hsubs] at he
      exact (mem_removeKey.1 he).2 heq
    refine (yields_askEach ⟨fun _ => rfl, ?_, ?_⟩).mono ?_
    · intro filters' response response' heq
      cases heq
    · intro response response' heq
      cases heq
      exact ⟨rfl, congrArg some (hgone rfl)⟩
    · exact fun g₁ results s₁ hk hcl => hk.trans (congrArg some (hgone hcl))
  · intro hwants
    obtain ⟨entry, he, rfl⟩ := wants_eq_true.1 hwants
    rw [hsubs] at he
    exact .inr (congrArg some (wants_eq_true.2 ⟨entry, (mem_removeKey.1 he).1, rfl⟩))

theorem yields_resubscribe {entries : List (String × List Json)}
    (hk : g.known = some (pool.wants sub)) (hentries : ∀ entry ∈ entries, entry ∈ pool.subscriptions) :
    (resubscribe relay pool entries).Yields (poolRules sub false) s g fun _ _ _ => True := by
  induction entries generalizing g pool with
  | nil => exact yields_pure.2 trivial
  | cons entry rest ih =>
    obtain ⟨he, hrest⟩ := List.forall_mem_cons.1 hentries
    have hsendable : Sendable sub false g.known (.subscribe entry.1 entry.2) := by
      refine ⟨fun _ => rfl, ?_, ?_⟩
      · intro filters' response response' heq
        cases heq
        rw [hk]
        exact congrArg some (wants_eq_true.2 ⟨entry, he, rfl⟩)
      · intro response response' heq
        cases heq
    unfold resubscribe subscribeRelay
    rw [yields_bind, yields_attempt, obeys_bind]
    refine (obeys_sendWithChannel hsendable).mono fun g₁ x s₁ hknown => ?_
    have hk₁ := hknown.trans hk
    cases x with
    | error e => exact ih hk₁ hrest
    | ok response =>
      refine obeys_awaitReply.mono ?_
      rintro _ y s₂ rfl
      cases y with
      | error e => exact ih hk₁ hrest
      | ok a =>
        dsimp only
        refine (yields_write_bind ?_).2 (ih rfl hrest)
        exact fun hwants => .inr (hk₁.trans (congrArg some hwants))

theorem yields_onRelayConnected : (onRelayConnected relay).Yields (poolRules sub false) s g fun _ _ _ => True := by
  unfold onRelayConnected missing
  rw [yields_plain_bind rfl]
  intro pool
  dsimp only
  rw [yields_write_bind fun hwants => .inr (congrArg some hwants), yields_bind, yields_plain_bind rfl]
  intro order
  refine yields_pure.2 (yields_resubscribe rfl fun entry he => ?_)
  obtain ⟨i, rfl⟩ := (List.mem_ofFn' _ _).1 (List.mem_filter.1 he).1
  exact List.getElem_mem _

theorem yields_nextNotification {fuel : Nat} :
    (nextNotification (n := n) fuel).Yields (poolRules sub false) s g fun _ _ _ => True := by
  induction fuel generalizing g with
  | zero =>
    unfold nextNotification
    rw [yields_plain_bind rfl]
    exact fun never => nomatch never
  | succ fuel ih =>
    unfold nextNotification
    rw [yields_plain_bind rfl]
    intro next
    rcases next with _ | ⟨relay, _ | notification⟩
    · exact yields_pure.2 trivial
    · dsimp only
      rw [yields_plain_bind rfl]
      intro pool
      rw [yields_write_bind fun hwants => .inr (congrArg some hwants)]
      generalize withClosed relay pool.closedNotifications = closed
      split
      · exact yields_pure.2 trivial
      · exact ih
    · cases notification with
      | connected =>
        dsimp only
        rw [yields_bind]
        exact yields_onRelayConnected.mono fun _ _ _ _ => yields_pure.2 trivial
      | event id signed =>
        dsimp only
        rw [yields_plain_bind rfl]
        intro fresh
        split
        · exact yields_pure.2 trivial
        · exact ih
      | _ => exact yields_pure.2 trivial

theorem yields_run (sub : String) (operation : PoolOperation) (fuel : Nat) :
    (operation.run fuel).Yields (poolRules (n := n) sub (operation.adds sub)) () {} fun g _ _ =>
      operation = .closeSubscription sub → g.known = some false := by
  cases operation with
  | subscribe added filters =>
    unfold PoolOperation.run
    rw [yields_bind]
    refine yields_subscribe.mono fun g results s _ => yields_pure.2 fun heq => ?_
    cases heq
  | closeSubscription closed =>
    unfold PoolOperation.run
    rw [yields_bind]
    refine yields_closeSubscription.mono fun g results s hconcluded => yields_pure.2 fun heq => ?_
    cases heq
    exact hconcluded rfl
  | nextNotification =>
    unfold PoolOperation.run
    rw [yields_bind]
    refine yields_nextNotification.mono fun g notification s _ => yields_pure.2 fun heq => ?_
    cases heq

end

end OmaChat.Nostr

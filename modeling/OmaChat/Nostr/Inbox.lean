import OmaChat.Lib.Recall
import OmaChat.Nostr.Pool
import OmaChat.Nostr.Transparent

/-!
# Inboxes for direct messages

`dm_inbox.rs` and `dm_inbox_runtime.rs`: an inbox opens the gift wraps that come in, and its runtime reads them from a pool of
relays on which it is authenticated. Both the pool and the inbox remember the ids of the events that they have seen: the pool
those that it has handed on, the inbox those that it has opened.

* `DmInbox.receive`, `nextActivity` : the functions of the source;
* `Arrival` : a notification that the pool gets from one of its relays, and the instant at which it does;
* `PoolMemory.take`, `InboxState.round` : what becomes of one arrival, in the pool and in the runtime;
* `exec_nextActivity` : an execution of `nextActivity` is a sequence of rounds of which the last one returns.
-/

namespace OmaChat.Nostr
open Wire Effects
open Method (exec_apart exec_attempt exec_bind exec_pure exec_request_bind exec_update keeps_bind keeps_pure keeps_request
  keeps_throw)

variable {n : Nat} {now : UInt64} {x : Except RelayError Unit}

/-! ## Inboxes -/

structure DmInboxConfig where
  lookbackSeconds : UInt64 := 30 * 24 * 60 * 60
  fetchLimit : Nat := 500
  dedupCapacity : Nat := 10000
  dedupTtlSeconds : UInt64 := 30 * 24 * 60 * 60
  eventLimits : EventLimits := {}

structure DmMessageMetadata where
  giftWrapId : String
  sealId : String
  rumorId : String
  authorPubkey : String
  createdAt : UInt64

structure DmMessage where
  metadata : DmMessageMetadata
  tags : List Tag
  content : String

inductive DmInboxReceive where
  | message (message : DmMessage)
  | blocked (metadata : DmMessageMetadata)
  | duplicate (giftWrapId : String)

structure DmInbox where
  config : DmInboxConfig
  blockedAuthors : List String
  seen : Recall String

namespace DmInbox

/-- `DmInboxError` of `dm_inbox.rs` -/
inductive Error where
  | invalidConfig
  | invalidPublicKey
  | invalidSecretKey
  | wrongRecipient
  | unexpectedGiftWrapKind (actual : UInt32)
  | unexpectedRumorKind (actual : UInt32)
  | giftWrap (error : GiftWrapError)

def new (config : DmInboxConfig) : Except Error DmInbox :=
  if config.lookbackSeconds = 0 ∨ config.fetchLimit = 0 ∨ config.dedupCapacity = 0 ∨ config.dedupTtlSeconds = 0 then
    .error .invalidConfig
  else .ok ⟨config, [], .empty⟩

def validateXonly (value : String) : Except Error Unit :=
  if value.utf8ByteSize = 64 ∧ (utf8 value).all isLowerHex then .ok () else .error .invalidPublicKey

def blockAuthor (inbox : DmInbox) (author : String) : Except Error DmInbox := do
  validateXonly author
  .ok { inbox with blockedAuthors := author :: inbox.blockedAuthors }

def unblockAuthor (inbox : DmInbox) (author : String) : Except Error DmInbox := do
  validateXonly author
  .ok { inbox with blockedAuthors := inbox.blockedAuthors.filter (· ≠ author) }

def requireExactOuterRecipient (giftWrap : SignedEvent) (recipientHex : String) : Except Error Unit :=
  let recipients := (giftWrap.tags.filter fun tag => tag.head? = some "p").filterMap (·[1]?)
  if recipients = [recipientHex] then .ok () else .error .wrongRecipient

def applyAuthorPolicy (inbox : DmInbox) (giftWrap : SignedEvent) (opened : OpenedGiftWrap) : DmInboxReceive :=
  let metadata : DmMessageMetadata :=
    ⟨giftWrap.id, opened.sealEvent.id, opened.rumor.id, opened.rumor.pubkey, opened.rumor.createdAt⟩
  if opened.rumor.pubkey ∈ inbox.blockedAuthors then .blocked metadata
  else .message ⟨metadata, opened.rumor.tags, opened.rumor.content⟩

def remember (inbox : DmInbox) (eventId : String) (now : UInt64) : Bool × DmInbox :=
  let (new, seen) := inbox.seen.remember inbox.config.dedupTtlSeconds.toNat inbox.config.dedupCapacity now.toNat eventId
  (new, { inbox with seen := seen })

/-- `DmInbox::receive`. An error leaves the inbox as it was. -/
def receive (p : Primitives) (inbox : DmInbox) (giftWrap : SignedEvent) (recipientSecretKey : Bytes 32) (now : UInt64) :
    Except Error (DmInboxReceive × DmInbox) :=
  if giftWrap.kind ≠ giftWrapKind then .error (.unexpectedGiftWrapKind giftWrap.kind)
  else do
    let recipient ← (xonlyPublicKey p recipientSecretKey).mapError fun _ => .invalidSecretKey
    requireExactOuterRecipient giftWrap (hexEncode recipient.val)
    let opened ← (openGiftWrap p giftWrap recipientSecretKey now inbox.config.eventLimits).mapError .giftWrap
    if opened.rumor.kind ≠ chatMessageKind then .error (.unexpectedRumorKind opened.rumor.kind)
    else
      match inbox.remember giftWrap.id now with
      | (false, inbox) => .ok (.duplicate giftWrap.id, inbox)
      | (true, inbox) => .ok (inbox.applyAuthorPolicy giftWrap opened, inbox)

end DmInbox

/-! ## The runtime -/

/-- The parts of `DmInboxRuntimeConfig` that are used once the runtime is connected. -/
structure DmInboxRuntimeConfig where
  inbox : DmInboxConfig := {}
  pool : RelayPoolConfig := {}
  subscriptionId : String := "omachat-nip17-inbox"

/-- The errors of `DmInboxRuntimeError` that the functions below return. -/
inductive DmInboxRuntimeError where
  | invalidRecipientSecret
  | identityMismatch
  | authenticationRejected (relayIndex : Nat) (message : String)
  | unexpectedAuthenticationIdentity (relayIndex : Nat) (publicKey : String)
  | authenticationTimeout (authenticated required : Nat)
  | subscriptionRejected (relayIndex : Nat) (error : RelayError)
  | subscriptionClosed (relayIndex : Nat) (message : String)
  | unauthenticatedEvent (relayIndex : Nat)
  | inbox (error : DmInbox.Error)
  | stopped

/-- `DmInboxRuntimeActivity`, with the fields of `DmInboxRuntimeEvent` -/
inductive DmInboxRuntimeActivity where
  | inbox (relayIndex : Nat) (receive : DmInboxReceive)
  | authenticationRestored

/-- `AuthenticatedDmInboxRuntime` but for its pool. Its relays are numbered below `n`, which is `relay_count`. -/
structure InboxRuntime (n : Nat) where
  inbox : DmInbox
  recipientSecretKey : Bytes 32
  recipientPublicKey : String
  authenticatedRelays : Finset (Fin n)
  subscriptionId : String

section Runtime
variable (p : Primitives)

/-- The body of the loop of `AuthenticatedDmInboxRuntime::next_activity`: what it returns for a notification of the pool, if
it does. -/
def InboxRuntime.onNotification (now : UInt64) (relay : Fin n) (notification : RelayNotification) (runtime : InboxRuntime n) :
    Except DmInboxRuntimeError (Option DmInboxRuntimeActivity) × InboxRuntime n :=
  match notification with
  | .connected | .disconnected | .authChallenge _ =>
    (.ok none, { runtime with authenticatedRelays := runtime.authenticatedRelays.erase relay })
  | .authenticated publicKey =>
    if publicKey ≠ runtime.recipientPublicKey then
      (.error (.unexpectedAuthenticationIdentity relay publicKey), runtime)
    else
      let authenticatedRelays := insert relay runtime.authenticatedRelays
      let next := { runtime with authenticatedRelays := authenticatedRelays }
      if runtime.authenticatedRelays.card ≠ n ∧ authenticatedRelays.card = n then
        (.ok (some .authenticationRestored), next)
      else (.ok none, next)
  | .authenticationRejected _ message =>
    (.error (.authenticationRejected relay message),
      { runtime with authenticatedRelays := runtime.authenticatedRelays.erase relay })
  | .event subscriptionId event =>
    if subscriptionId ≠ runtime.subscriptionId then (.ok none, runtime)
    else if relay ∉ runtime.authenticatedRelays then (.error (.unauthenticatedEvent relay), runtime)
    else
      match runtime.inbox.receive p event runtime.recipientSecretKey now with
      | .error error => (.error (.inbox error), runtime)
      | .ok (receive, inbox) => (.ok (some (.inbox relay receive)), { runtime with inbox := inbox })
  | .closed subscriptionId message =>
    if subscriptionId = runtime.subscriptionId then (.error (.subscriptionClosed relay message), runtime)
    else (.ok none, runtime)
  | .endOfStoredEvents _ | .notice _ => (.ok none, runtime)

abbrev RuntimeMethod (n : Nat) (α : Type) : Type := Method (PoolCall.Answer (n := n)) (InboxRuntime n) DmInboxRuntimeError α

/-- `AuthenticatedDmInboxRuntime::next_activity`, whose pool is given `rounds` rounds for each notification -/
def nextActivity (rounds : Nat) (now : UInt64) : Nat → RuntimeMethod n DmInboxRuntimeActivity
  | 0 => do
    let never : Empty ← Method.request PoolCall.pending
    nomatch never
  | fuel + 1 => do
    match ← Method.apart (nextNotification rounds) () with
    | .ok (some (relay, notification)) => do
      match ← Method.update (InboxRuntime.onNotification p now relay notification) with
      | some activity => pure activity
      | none => nextActivity rounds now fuel
    -- `next_notification` has no error
    | .ok none | .error _ => Method.throw .stopped

end Runtime

/-! ## Rounds -/

/-- What a pool gets from one of its relays, and when; no notification once the channel of the relay is closed. -/
structure Arrival (n : Nat) where
  relay : Fin n
  notification : Option RelayNotification
  instant : Nat

/-- The fields of `RelayPool` that decide which notifications it hands on. -/
structure PoolMemory (n : Nat) where
  closedNotifications : List (Fin n)
  seen : Recall String

section Rounds
def PoolMemory.rememberEvent (config : RelayPoolConfig) (memory : PoolMemory n) (instant : Nat) (id : String) :
    Bool × PoolMemory n :=
  let (new, seen) := memory.seen.remember config.dedupTtl config.dedupCapacity instant id
  (new, { memory with seen := seen })

/-- The body of the loop of `RelayPool::next_notification`: what it returns for an arrival, if it does. -/
def PoolMemory.take (config : RelayPoolConfig) (memory : PoolMemory n) (arrival : Arrival n) :
    Option (Option (Fin n × RelayNotification)) × PoolMemory n :=
  match arrival.notification with
  | none =>
    let closed := withClosed arrival.relay memory.closedNotifications
    if closed.length = n then (some none, { memory with closedNotifications := closed })
    else (none, { memory with closedNotifications := closed })
  | some .connected =>
    (some (some (arrival.relay, .connected)),
      { memory with closedNotifications := memory.closedNotifications.filter (· ≠ arrival.relay) })
  | some (.event subscriptionId event) =>
    match memory.rememberEvent config arrival.instant event.id with
    | (true, memory) => (some (some (arrival.relay, .event subscriptionId event)), memory)
    | (false, memory) => (none, memory)
  | some notification => (some (some (arrival.relay, notification)), memory)

structure InboxState (n : Nat) where
  runtime : InboxRuntime n
  memory : PoolMemory n

variable (p : Primitives) (config : RelayPoolConfig)

/-- What an arrival leads to: through the pool, and if it hands it on, through the runtime. -/
def InboxState.round (now : UInt64) (s : InboxState n) (arrival : Arrival n) :
    Except DmInboxRuntimeError (Option DmInboxRuntimeActivity) × InboxState n :=
  match s.memory.take config arrival with
  | (none, memory) => (.ok none, ⟨s.runtime, memory⟩)
  | (some none, memory) => (.error .stopped, ⟨s.runtime, memory⟩)
  | (some (some (relay, notification)), memory) =>
    let (x, runtime) := s.runtime.onNotification p now relay notification
    (x, ⟨runtime, memory⟩)

/-- Rounds with the arrivals in order, of which only the last one returns. Without an arrival the method returns once all
relays are closed. -/
inductive Rounds (now : UInt64) :
    InboxState n → List (Arrival n) → Except DmInboxRuntimeError DmInboxRuntimeActivity → InboxState n → Prop where
  | stopped {s : InboxState n} : (∀ relay, relay ∈ s.memory.closedNotifications) → Rounds now s [] (.error .stopped) s
  | returns {s s' : InboxState n} {arrival : Arrival n} {activity : DmInboxRuntimeActivity} :
      s.round p config now arrival = (.ok (some activity), s') → Rounds now s [arrival] (.ok activity) s'
  | fails {s s' : InboxState n} {arrival : Arrival n} {error : DmInboxRuntimeError} :
      s.round p config now arrival = (.error error, s') → Rounds now s [arrival] (.error error) s'
  | passes {s s₁ s' : InboxState n} {arrival : Arrival n} {arrivals : List (Arrival n)}
      {x : Except DmInboxRuntimeError DmInboxRuntimeActivity} :
      s.round p config now arrival = (.ok none, s₁) → Rounds now s₁ arrivals x s' →
        Rounds now s (arrival :: arrivals) x s'

end Rounds

/-! ## Executions -/

structure PoolWorld (n : Nat) where
  pool : RelayPool n
  seen : Recall String
  arrivals : List (Arrival n)

section Executions
variable {p : Primitives} {config : RelayPoolConfig}

def PoolWorld.memory (w : PoolWorld n) : PoolMemory n := ⟨w.pool.closedNotifications, w.seen⟩

/-- How the calls of a pool are answered: any relay that is not closed may have the next notification, and `remember_event`
reads the clock when it has come. -/
def PoolWorld.Step (config : RelayPoolConfig) : (call : PoolCall n) → PoolWorld n → call.Answer → PoolWorld n → Prop
  | .read, w, pool, w' => pool = w.pool ∧ w' = w
  | .write pool, w, _, w' => w' = { w with pool := pool }
  | .notification, w, some (relay, notification), w' =>
    relay ∉ w.pool.closedNotifications ∧
      ∃ instant, w' = { w with arrivals := w.arrivals ++ [⟨relay, notification, instant⟩] }
  | .notification, w, none, w' => (∀ relay, relay ∈ w.pool.closedNotifications) ∧ w' = w
  | .remember eventId, w, new, w' =>
    ∃ arrival ∈ w.arrivals.getLast?, ∃ seen,
      (new, seen) = w.seen.remember config.dedupTtl config.dedupCapacity arrival.instant eventId ∧ w' = { w with seen := seen }
  | _, w, _, w' => w' = w

/-- Rounds of the pool with the arrivals in order, of which only the last one returns. -/
inductive Takes (config : RelayPoolConfig) :
    PoolMemory n → List (Arrival n) → Option (Fin n × RelayNotification) → PoolMemory n → Prop where
  | closed {m : PoolMemory n} : (∀ relay, relay ∈ m.closedNotifications) → Takes config m [] none m
  | returns {m m' : PoolMemory n} {arrival : Arrival n} {out : Option (Fin n × RelayNotification)} :
      m.take config arrival = (some out, m') → Takes config m [arrival] out m'
  | passes {m m₁ m' : PoolMemory n} {arrival : Arrival n} {arrivals : List (Arrival n)}
      {out : Option (Fin n × RelayNotification)} :
      m.take config arrival = (none, m₁) → Takes config m₁ arrivals out m' → Takes config m (arrival :: arrivals) out m'

def Unchanged (c c' : Unit × PoolWorld n) : Prop := c'.2 = c.2

instance : IsPreorder (Unit × PoolWorld n) Unchanged where
  refl _ := rfl
  trans _ _ _ h h' := h'.trans h

theorem keeps_subscribeRelay (relay : Fin n) (subscriptionId : String) (filters : List Json) :
    Method.Keeps (PoolWorld.Step config) Unchanged (subscribeRelay relay subscriptionId filters) := by
  unfold subscribeRelay sendWithChannel send awaitReply
  refine keeps_bind (keeps_bind ?_ fun response => keeps_bind ?_ fun _ => keeps_pure _)
    fun response => ?_
  · exact keeps_request fun _ _ _ _ h => h
  · refine keeps_bind (keeps_request fun _ _ _ _ h => h) fun sent => ?_
    rcases sent with (_ | _) | _
    · exact keeps_throw _
    · exact keeps_throw _
    · exact keeps_pure _
  · refine keeps_bind (keeps_request fun _ _ _ _ h => h) fun awaited => ?_
    cases awaited with
    | reply result => exact Method.keeps_ofExcept _
    | timeout => exact keeps_throw _
    | dropped => exact keeps_throw _

variable {w w' : PoolWorld n}

theorem exec_resubscribe {relay : Fin n} {entries : List (String × List Json)} {pool : RelayPool n}
    (hpool : pool.closedNotifications = w.pool.closedNotifications)
    (h : (resubscribe relay pool entries).Exec (PoolWorld.Step config) ((), w) x ((), w')) :
    x = .ok () ∧ w'.memory = w.memory ∧ w'.arrivals = w.arrivals := by
  induction entries generalizing pool w with
  | nil =>
    obtain ⟨rfl, hw⟩ := exec_pure.1 h
    obtain rfl : w' = w := congrArg Prod.snd hw
    exact ⟨rfl, rfl, rfl⟩
  | cons entry rest ih =>
    obtain ⟨subscriptionId, filters⟩ := entry
    unfold resubscribe at h
    rcases exec_bind.1 h with ⟨e, -, hattempt⟩ | ⟨result, ⟨⟨⟩, w₁⟩, hattempt, hrest⟩
    · obtain ⟨_, -, herr⟩ := exec_attempt.1 hattempt
      cases herr
    · obtain ⟨y, hsubscribe, -⟩ := exec_attempt.1 hattempt
      obtain rfl : w₁ = w := keeps_subscribeRelay relay subscriptionId filters _ _ _ hsubscribe
      cases result with
      | error error => exact ih hpool hrest
      | ok _ =>
        obtain ⟨_, w₂, hwrite, hrest⟩ := exec_request_bind.1 hrest
        obtain rfl : w₂ = { w₁ with pool := pool.sync subscriptionId relay } := hwrite
        obtain ⟨hx, hmemory, harr⟩ := ih (w := { w₁ with pool := pool.sync subscriptionId relay }) rfl hrest
        refine ⟨hx, hmemory.trans ?_, harr⟩
        show (⟨pool.closedNotifications, w₁.seen⟩ : PoolMemory n) = ⟨w₁.pool.closedNotifications, w₁.seen⟩
        rw [hpool]

theorem exec_onRelayConnected {relay : Fin n} (h : (onRelayConnected relay).Exec (PoolWorld.Step config) ((), w) x ((), w')) :
    x = .ok () ∧ w'.memory = { w.memory with
      closedNotifications := w.memory.closedNotifications.filter (· ≠ relay) } ∧ w'.arrivals = w.arrivals := by
  unfold onRelayConnected missing at h
  obtain ⟨pool, w₁, ⟨rfl, rfl⟩, h⟩ := exec_request_bind.1 h
  obtain ⟨_, w₂, hwrite, h⟩ := exec_request_bind.1 h
  rw [Method.bind_assoc] at h
  obtain ⟨order, w₃, hiterate, h⟩ := exec_request_bind.1 h
  obtain rfl : w₃ = w₂ := hiterate
  obtain rfl : w₃ = _ := hwrite
  exact exec_resubscribe rfl (Method.exec_pure_bind.1 h)

theorem exec_nextNotification {rounds : Nat} {x : Except RelayError (Option (Fin n × RelayNotification))}
    (h : (nextNotification rounds).Exec (PoolWorld.Step config) ((), w) x ((), w')) :
    ∃ out arrivals, x = .ok out ∧ w'.arrivals = w.arrivals ++ arrivals ∧ Takes config w.memory arrivals out w'.memory := by
  induction rounds generalizing w with
  | zero =>
    obtain ⟨never, -⟩ := exec_request_bind.1 h
    cases never
  | succ rounds ih =>
    unfold nextNotification at h
    obtain ⟨answer, w₁, hstep, h⟩ := exec_request_bind.1 h
    rcases answer with _ | ⟨relay, notification⟩
    · obtain ⟨hcl, rfl⟩ := hstep
      obtain ⟨rfl, hw⟩ := exec_pure.1 h
      obtain rfl : w' = w₁ := congrArg Prod.snd hw
      exact ⟨none, [], rfl, (List.append_nil _).symm, .closed hcl⟩
    · obtain ⟨-, instant, rfl⟩ := hstep
      -- what a round that goes on leaves to the induction hypothesis
      have hpasses (w₂ : PoolWorld n) (hw₂ : w₂.arrivals = w.arrivals ++ [⟨relay, notification, instant⟩])
          (htake : w.memory.take config ⟨relay, notification, instant⟩ = (none, w₂.memory))
          (h : (nextNotification rounds).Exec (PoolWorld.Step config) ((), w₂) x ((), w')) :
          ∃ out arrivals, x = .ok out ∧ w'.arrivals = w.arrivals ++ arrivals ∧
            Takes config w.memory arrivals out w'.memory := by
        obtain ⟨out, arrivals, hx, harr, htakes⟩ := ih h
        refine ⟨out, ⟨relay, notification, instant⟩ :: arrivals, hx, ?_, .passes htake htakes⟩
        rw [harr, hw₂, List.append_assoc, List.singleton_append]
      have hreturns (w₂ : PoolWorld n) {out : Option (Fin n × RelayNotification)}
          (hw₂ : w₂.arrivals = w.arrivals ++ [⟨relay, notification, instant⟩])
          (htake : w.memory.take config ⟨relay, notification, instant⟩ = (some out, w₂.memory))
          (h : (pure out : PoolMethod n _).Exec (PoolWorld.Step config) ((), w₂) x ((), w')) :
          ∃ out arrivals, x = .ok out ∧ w'.arrivals = w.arrivals ++ arrivals ∧
            Takes config w.memory arrivals out w'.memory := by
        obtain ⟨rfl, hw⟩ := exec_pure.1 h
        obtain rfl : w' = w₂ := congrArg Prod.snd hw
        exact ⟨out, [_], rfl, hw₂, .returns htake⟩
      rcases notification with _ | notification
      · -- the channel of the relay is closed
        obtain ⟨pool, w₁, ⟨rfl, rfl⟩, h⟩ := exec_request_bind.1 h
        obtain ⟨_, w₂, hwrite, h⟩ := exec_request_bind.1 h
        obtain rfl : w₂ = _ := hwrite
        by_cases hn : (withClosed relay w.pool.closedNotifications).length = n
        · refine hreturns _ rfl ?_ (by simpa only [if_pos hn] using h)
          exact if_pos hn
        · refine hpasses _ rfl ?_ (by simpa only [if_neg hn] using h)
          exact if_neg hn
      · cases notification with
        | connected =>
          obtain ⟨_, ⟨⟨⟩, w₁⟩, hconnected, h⟩ | ⟨e, rfl, hconnected⟩ := (exec_bind.1 h).symm
          · obtain ⟨-, hmemory, harr⟩ := exec_onRelayConnected hconnected
            refine hreturns _ harr ?_ h
            rw [hmemory]
            rfl
          · obtain ⟨hok, -⟩ := exec_onRelayConnected hconnected
            cases hok
        | event subscriptionId event =>
          obtain ⟨new, w₁, ⟨arrival, hlast, seen, hseen, rfl⟩, h⟩ := exec_request_bind.1 h
          rw [List.getLast?_concat, Option.mem_some_iff] at hlast
          subst hlast
          have htake : w.memory.take config ⟨relay, some (.event subscriptionId event), instant⟩ =
              if new then (some (some (relay, .event subscriptionId event)), ⟨w.pool.closedNotifications, seen⟩)
              else (none, ⟨w.pool.closedNotifications, seen⟩) := by
            simp only [PoolMemory.take, PoolMemory.rememberEvent, PoolWorld.memory, ← hseen]
            cases new <;> rfl
          cases new with
          | true => exact hreturns ⟨w.pool, seen, w.arrivals ++ [_]⟩ rfl htake h
          | false => exact hpasses ⟨w.pool, seen, w.arrivals ++ [_]⟩ rfl htake h
        | _ => exact hreturns ⟨w.pool, w.seen, w.arrivals ++ [_]⟩ rfl rfl h

theorem Takes.rounds {m m' : PoolMemory n} {arrivals arrivals' : List (Arrival n)} {runtime : InboxRuntime n}
    {out : Option (Fin n × RelayNotification)} {x : Except DmInboxRuntimeError DmInboxRuntimeActivity} {s' : InboxState n}
    (h : Takes config m arrivals out m')
    (hcl : out = none → (∀ relay, relay ∈ m'.closedNotifications) → Rounds p config now ⟨runtime, m'⟩ arrivals' x s')
    (hlast : ∀ m₁ arrival, m₁.take config arrival = (some out, m') →
      Rounds p config now ⟨runtime, m₁⟩ (arrival :: arrivals') x s') :
    Rounds p config now ⟨runtime, m⟩ (arrivals ++ arrivals') x s' := by
  induction h with
  | closed hall => exact hcl rfl hall
  | returns htake => exact hlast _ _ htake
  | passes htake _ ih => exact .passes (by simp only [InboxState.round, htake]) (ih hcl hlast)

/-- **An execution of `next_activity`**, with any relays and any answers of theirs, takes the arrivals in order through
rounds, and returns in the last one. -/
theorem exec_nextActivity {rounds fuel : Nat} {runtime runtime' : InboxRuntime n}
    {x : Except DmInboxRuntimeError DmInboxRuntimeActivity}
    (h : (nextActivity p rounds now fuel).Exec (PoolWorld.Step config) (runtime, w) x (runtime', w')) :
    ∃ arrivals, w'.arrivals = w.arrivals ++ arrivals ∧
      Rounds p config now ⟨runtime, w.memory⟩ arrivals x ⟨runtime', w'.memory⟩ := by
  induction fuel generalizing runtime w with
  | zero =>
    obtain ⟨never, -⟩ := exec_request_bind.1 h
    cases never
  | succ fuel ih =>
    unfold nextActivity at h
    obtain ⟨_, ⟨runtime₁, w₁⟩, hpool, h⟩ | ⟨e, -, hpool⟩ := (exec_bind.1 h).symm
    · obtain ⟨z, ⟨⟩, hnext, hz, hruntime⟩ := exec_apart.1 hpool
      obtain ⟨out, arrivals, rfl, harr, htakes⟩ := exec_nextNotification hnext
      cases hz
      obtain rfl : runtime₁ = runtime := hruntime
      rcases out with _ | ⟨relay, notification⟩
      · obtain ⟨rfl, hw⟩ := Method.exec_throw.1 h
        obtain ⟨rfl, rfl⟩ : runtime' = runtime₁ ∧ w' = w₁ := ⟨congrArg Prod.fst hw, congrArg Prod.snd hw⟩
        refine ⟨arrivals, harr, ?_⟩
        rw [← List.append_nil arrivals]
        exact htakes.rounds (fun _ hall => .stopped hall) fun m₁ arrival htake =>
          .fails (by simp only [InboxState.round, htake])
      · -- the runtime returns, fails or goes on with the notification
        dsimp only at h
        obtain ⟨y, ⟨runtime₂, w₂⟩, hupdate, h⟩ | ⟨error, rfl, hupdate⟩ := (exec_bind.1 h).symm
        · obtain ⟨hon, hw₂⟩ := exec_update.1 hupdate
          obtain rfl : w₂ = w₁ := hw₂
          cases y with
          | none =>
            obtain ⟨arrivals', harr', hrounds⟩ := ih h
            refine ⟨arrivals ++ arrivals', by rw [harr', harr, List.append_assoc], ?_⟩
            refine htakes.rounds (fun hnone => (by cases hnone)) fun m₁ arrival htake => .passes ?_ hrounds
            simp only [InboxState.round, htake, ← hon]
          | some activity =>
            obtain ⟨rfl, hw⟩ := exec_pure.1 h
            obtain ⟨rfl, rfl⟩ : runtime' = runtime₂ ∧ w' = w₂ := ⟨congrArg Prod.fst hw, congrArg Prod.snd hw⟩
            refine ⟨arrivals, harr, ?_⟩
            rw [← List.append_nil arrivals]
            refine htakes.rounds (fun hnone => (by cases hnone)) fun m₁ arrival htake => .returns ?_
            simp only [InboxState.round, htake, ← hon]
        · obtain ⟨hon, hw'⟩ := exec_update.1 hupdate
          obtain rfl : w' = w₁ := hw'
          refine ⟨arrivals, harr, ?_⟩
          rw [← List.append_nil arrivals]
          refine htakes.rounds (fun hnone => (by cases hnone)) fun m₁ arrival htake => .fails ?_
          simp only [InboxState.round, htake, ← hon]
    · obtain ⟨z, ⟨⟩, -, hz, -⟩ := exec_apart.1 hpool
      cases hz

/-- The connection of the only relay is lost, which passes, and then it is authenticated again. -/
theorem exec_nextActivity_restored : ∃ runtime runtime' w w',
    (nextActivity unsealed 1 0 2).Exec (PoolWorld.Step {}) (runtime, w) (.ok .authenticationRestored) (runtime', w') ∧
    Rounds unsealed {} 0 ⟨runtime, w.memory⟩ [⟨(0 : Fin 1), some .disconnected, 0⟩, ⟨0, some (.authenticated ""), 0⟩]
      (.ok .authenticationRestored) ⟨runtime', w'.memory⟩ := by
  have hexec : (nextActivity unsealed 1 0 2).Exec (PoolWorld.Step {})
      (⟨⟨{}, [], .empty⟩, .replicate 32 0, "", {0}, ""⟩, (⟨{}, .empty, []⟩ : PoolWorld 1))
      (.ok .authenticationRestored) _ :=
    exec_bind.2 <| .inr ⟨_, (_, _), exec_apart.2 ⟨_, (), exec_request_bind.2
      ⟨some (0, some .disconnected), _, ⟨List.not_mem_nil, 0, rfl⟩, exec_pure.2 ⟨rfl, rfl⟩⟩, rfl, rfl⟩,
    exec_bind.2 <| .inr ⟨_, (_, _), exec_update.2 ⟨rfl, rfl⟩,
    exec_bind.2 <| .inr ⟨_, (_, _), exec_apart.2 ⟨_, (), exec_request_bind.2
      ⟨some (0, some (.authenticated "")), _, ⟨List.not_mem_nil, 0, rfl⟩, exec_pure.2 ⟨rfl, rfl⟩⟩, rfl, rfl⟩,
    exec_bind.2 <| .inr ⟨_, (_, _), exec_update.2 ⟨rfl, rfl⟩, exec_pure.2 ⟨rfl, rfl⟩⟩⟩⟩⟩
  obtain ⟨arrivals, harr, hrounds⟩ := exec_nextActivity hexec
  obtain rfl : _ = arrivals := harr
  exact ⟨_, _, _, _, hexec, hrounds⟩

end Executions

end OmaChat.Nostr

import OmaChat.Lib.Run
import OmaChat.Nostr.RelayRules

/-!
# Relay pools

`pool.rs`: a pool keeps one connection to each of its relays, asks every one of them for the subscriptions of its caller, and
asks again when a relay has connected.

The operations of a pool are programs over `PoolCall`, which read and write the fields of the pool. A `Network` is a pool with
the actors of its connections: a command goes into the queue of an actor, the actor takes it from there when it selects or
waits, and its reply goes into a channel. Operations come one after the other and may be abandoned at any call; everything
else happens in any order. What an actor has done is its log, and `Label` has all that can happen next.
-/

namespace OmaChat.Nostr
open Wire Effects

variable {n : Nat}

/-- `RelayPoolConfig`, with the time to live in milliseconds -/
structure RelayPoolConfig where
  acknowledgementThreshold : Nat := 1
  dedupCapacity : Nat := 10000
  dedupTtl : Nat := 5 * 60 * 1000

inductive RelayPoolError where
  | invalidConfig (message : String)
  | connection (error : RelayError)
  | acknowledgementThreshold (accepted required attempted : Nat)
  deriving DecidableEq

/-! ## Operations -/

/-- The fields of `RelayPool` that decide what it asks of its `n` relays. -/
structure RelayPool (n : Nat) where
  subscriptions : List (String × List Json) := []
  subscriptionSync : Fin n → List String := fun _ => []
  closedNotifications : List (Fin n) := []

/-- What a caller that waits for a reply gets. -/
inductive Awaited where
  | reply (result : Except RelayError Unit)
  | timeout
  | dropped

inductive PoolCall (n : Nat) where
  | read
  | write (pool : RelayPool n)
  /-- The order in which a map with so many entries is iterated. -/
  | iterate (count : Nat)
  /-- `oneshot::channel()` for a command to a relay. -/
  | channel (relay : Fin n)
  /-- `commands.try_send` -/
  | trySend (relay : Fin n) (command : RelayCommand)
  /-- `timeout(response_timeout, receiver)` -/
  | await (relay : Fin n) (response : Nat)
  /-- The next notification of the relays whose notifications are not closed. -/
  | notification
  /-- `remember_event` -/
  | remember (eventId : String)
  /-- What lies beyond the fuel. -/
  | pending

@[reducible] def PoolCall.Answer {n : Nat} : PoolCall n → Type
  | .read => RelayPool n
  | .iterate count => Equiv.Perm (Fin count)
  | .channel _ => Nat
  | .trySend _ _ => Except TrySendError Unit
  | .await _ _ => Awaited
  | .notification => Option (Fin n × Option RelayNotification)
  | .remember _ => Bool
  | .pending => Empty
  | .write _ => Unit

abbrev PoolMethod (n : Nat) (α : Type) : Type := Method (PoolCall.Answer (n := n)) Unit RelayError α

def ask (call : PoolCall n) : PoolMethod n call.Answer := Method.request call

def send (relay : Fin n) (command : RelayCommand) : PoolMethod n Unit := do
  match ← ask (.trySend relay command) with
  | .ok _ => pure ()
  | .error .full => Method.throw .backpressure
  | .error .closed => Method.throw .stopped

/-- The first part of `RelayConnection::subscribe` and `RelayConnection::close_subscription`: a command is sent with a new
reply channel. -/
def sendWithChannel (relay : Fin n) (command : Nat → RelayCommand) : PoolMethod n Nat := do
  let response ← ask (.channel relay)
  send relay (command response)
  pure response

/-- The second part: the reply is waited for. -/
def awaitReply (relay : Fin n) (response : Nat) : PoolMethod n Unit := do
  match ← ask (.await relay response) with
  | .reply result => Method.ofExcept result
  | .timeout => Method.throw .responseTimeout
  | .dropped => Method.throw .stopped

/-- `RelayConnection::subscribe` -/
def subscribeRelay (relay : Fin n) (subscriptionId : String) (filters : List Json) : PoolMethod n Unit := do
  let response ← sendWithChannel relay (.subscribe subscriptionId filters)
  awaitReply relay response

/-- `join_all` polls every future once before it waits for one of them: every command is sent. -/
def sendEach (command : Nat → RelayCommand) : List (Fin n) → PoolMethod n (List (Fin n × Except RelayError Nat))
  | [] => pure []
  | relay :: rest => do
    let sent ← Method.attempt (sendWithChannel relay command)
    let others ← sendEach command rest
    pure ((relay, sent) :: others)

/-- `join_all`, once every command is sent: a reply that has arrived is not lost, so they can be waited for in turn. -/
def awaitEach : List (Fin n × Except RelayError Nat) → PoolMethod n (List (Except RelayError Unit))
  | [] => pure []
  | (_, .error error) :: rest => do
    let results ← awaitEach rest
    pure (.error error :: results)
  | (relay, .ok response) :: rest => do
    let result ← Method.attempt (awaitReply relay response)
    let results ← awaitEach rest
    pure (result :: results)

/-- `join_all` of the same command to every relay -/
def askEach (command : Nat → RelayCommand) : PoolMethod n (List (Except RelayError Unit)) := do
  let sent ← sendEach command (List.finRange n)
  awaitEach sent

/-- The pool without a subscription in its sets of synchronised ones. -/
def RelayPool.unsync (pool : RelayPool n) (subscriptionId : String) : RelayPool n :=
  { pool with subscriptionSync := fun relay => (pool.subscriptionSync relay).filter (· ≠ subscriptionId) }

/-- `self.subscription_sync[relay_index].insert(subscription_id)` -/
def RelayPool.sync (pool : RelayPool n) (subscriptionId : String) (relay : Fin n) : RelayPool n :=
  { pool with subscriptionSync := Function.update pool.subscriptionSync relay (subscriptionId :: pool.subscriptionSync relay) }

/-- The pool once the results of a subscription are known. -/
def RelayPool.syncEach (subscriptionId : String) (pool : RelayPool n) (results : List (Fin n × Except RelayError Unit)) :
    RelayPool n :=
  results.foldl (fun pool x => if x.2.isOk then pool.sync subscriptionId x.1 else pool) pool

def subscribe (subscriptionId : String) (filters : List Json) : PoolMethod n (List (Except RelayError Unit)) := do
  let pool ← ask .read
  if pool.subscriptions.lookup subscriptionId = some filters ∧ ∀ relay, subscriptionId ∈ pool.subscriptionSync relay then
    pure []
  else do
    let stored := { pool.unsync subscriptionId with
      subscriptions := insertKey subscriptionId filters pool.subscriptions }
    ask (.write stored)
    let results ← askEach (.subscribe subscriptionId filters)
    ask (.write (stored.syncEach subscriptionId ((List.finRange n).zip results)))
    pure results

def closeSubscription (subscriptionId : String) : PoolMethod n (List (Except RelayError Unit)) := do
  let pool ← ask .read
  ask (.write { pool.unsync subscriptionId with subscriptions := removeKey subscriptionId pool.subscriptions })
  askEach (.close subscriptionId)

/-- The subscriptions that a relay which has connected is asked for again. -/
def resubscribe (relay : Fin n) : RelayPool n → List (String × List Json) → PoolMethod n Unit
  | _, [] => pure ()
  | pool, (subscriptionId, filters) :: rest => do
    match ← Method.attempt (subscribeRelay relay subscriptionId filters) with
    | .ok _ => do
      ask (.write (pool.sync subscriptionId relay))
      resubscribe relay (pool.sync subscriptionId relay) rest
    | .error _ => resubscribe relay pool rest

/-- The subscriptions that are missing at a relay, in the order of the map. -/
def missing (relay : Fin n) (pool : RelayPool n) : PoolMethod n (List (String × List Json)) := do
  let order ← ask (.iterate pool.subscriptions.length)
  let entries := List.ofFn fun i => pool.subscriptions.get (order i)
  pure (entries.filter fun entry => entry.1 ∉ pool.subscriptionSync relay)

/-- `RelayNotification::Connected` -/
def onRelayConnected (relay : Fin n) : PoolMethod n Unit := do
  let pool ← ask .read
  let opened := { pool with closedNotifications := pool.closedNotifications.filter (· ≠ relay) }
  ask (.write opened)
  let entries ← missing relay opened
  resubscribe relay opened entries

def withClosed (relay : Fin n) (closed : List (Fin n)) : List (Fin n) := if relay ∈ closed then closed else relay :: closed

def nextNotification : Nat → PoolMethod n (Option (Fin n × RelayNotification))
  | 0 => do
    let never : Empty ← ask .pending
    nomatch never
  | fuel + 1 => do
    match ← ask .notification with
    | none => pure none
    | some (relay, none) => do
      let pool ← ask .read
      let closed := withClosed relay pool.closedNotifications
      ask (.write { pool with closedNotifications := closed })
      if closed.length = n then pure none else nextNotification fuel
    | some (relay, some .connected) => do
      onRelayConnected relay
      pure (some (relay, .connected))
    | some (relay, some (.event subscriptionId signed)) => do
      let fresh ← ask (.remember signed.id)
      if fresh then pure (some (relay, .event subscriptionId signed)) else nextNotification fuel
    | some (relay, some other) => pure (some (relay, other))

inductive PoolOperation where
  | subscribe (subscriptionId : String) (filters : List Json)
  | closeSubscription (subscriptionId : String)
  | nextNotification

/-- What an operation returns: the results of its relays, or a notification. -/
inductive PoolResult (n : Nat) where
  | results (results : List (Except RelayError Unit))
  | notification (notification : Option (Fin n × RelayNotification))

def PoolOperation.run (fuel : Nat) : PoolOperation → PoolMethod n (PoolResult n)
  | .subscribe subscriptionId filters => do
    let results ← Nostr.subscribe subscriptionId filters
    pure (.results results)
  | .closeSubscription subscriptionId => do
    let results ← Nostr.closeSubscription subscriptionId
    pure (.results results)
  | .nextNotification => do
    let notification ← Nostr.nextNotification fuel
    pure (.notification notification)

/-! ## Networks -/

def tokens (queue : List RelayCommand) : List Nat := queue.filterMap RelayCommand.response

structure Network (n : Nat) where
  logs : Fin n → RelayLog
  ended : Fin n → Bool
  queues : Fin n → List RelayCommand
  notifications : Fin n → List RelayNotification
  replies : Fin n → Nat → Option Reply
  issued : Fin n → Nat
  pool : RelayPool n
  operation : Option (PoolOperation × List (Sigma (PoolCall.Answer (n := n))))

def Reply.outcome : Reply → Option (Except RelayError Unit)
  | .done => some (.ok ())
  | .failed error => some (.error error)
  | .acknowledged _ _ => none

inductive Label (n : Nat) where
  | actor (relay : Fin n) (call : RelayCall) (answer : call.Answer)
  | stop (relay : Fin n)
  | begin (operation : PoolOperation)
  | operate (call : PoolCall n) (answer : call.Answer)
  | finish (operation : PoolOperation) (result : PoolResult n)
  | abandon
  /-- A publication, or the end of the pool. -/
  | publish (relay : Fin n) (signed : SignedEvent)
  | shutdown (relay : Fin n)

namespace Network
def start : Network n := ⟨fun _ => [], fun _ => false, fun _ => [], fun _ => [], fun _ _ => none, fun _ => 0, {}, none⟩

def withQueue (s : Network n) (relay : Fin n) (queue : List RelayCommand) : Network n :=
  { s with queues := Function.update s.queues relay queue }

def withReply (s : Network n) (relay : Fin n) (response : Nat) (reply : Option Reply) : Network n :=
  { s with replies := Function.update s.replies relay (Function.update (s.replies relay) response reply) }

def withNotifications (s : Network n) (relay : Fin n) (notifications : List RelayNotification) : Network n :=
  { s with notifications := Function.update s.notifications relay notifications }

def withChannel (s : Network n) (relay : Fin n) : Network n :=
  { s.withReply relay (s.issued relay) none with issued := Function.update s.issued relay (s.issued relay + 1) }

/-- What an answered call of an actor changes, but for its log. -/
def afterCall (s : Network n) (relay : Fin n) : (call : RelayCall) → call.Answer → Network n
  | .select, .command (some _) | .wait _, .command (some _) => s.withQueue relay (s.queues relay).tail
  | .notify notification, .ok _ => s.withNotifications relay (s.notifications relay ++ [notification])
  | .respond response reply, _ => s.withReply relay response (some reply)
  | _, _ => s

def MayAnswer (s : Network n) (relay : Fin n) : (call : RelayCall) → call.Answer → Prop
  | .select, .command (some command) | .wait _, .command (some command) => (s.queues relay).head? = some command
  | _, _ => True

/-- What an answered call of the pool changes, but for its log. -/
def afterAsk (s : Network n) : (call : PoolCall n) → call.Answer → Network n
  | .write pool, _ => { s with pool := pool }
  | .channel relay, _ => s.withChannel relay
  | .trySend relay command, .ok _ => s.withQueue relay (s.queues relay ++ [command])
  | .notification, some (relay, some _) => s.withNotifications relay (s.notifications relay).tail
  | _, _ => s

def MayAnswerAsk (s : Network n) : (call : PoolCall n) → call.Answer → Prop
  | .read, pool => pool = s.pool
  | .channel relay, response => response = s.issued relay
  | .trySend relay _, .ok _ => s.ended relay = false
  | .trySend relay _, .error .closed => s.ended relay = true
  | .await relay response, .reply result => (s.replies relay response).bind Reply.outcome = some result
  | .await relay _, .dropped => s.ended relay = true
  | .notification, some (relay, some notification) => (s.notifications relay).head? = some notification
  | .notification, some (relay, none) => s.ended relay = true ∧ s.notifications relay = []
  | _, _ => True

def next (s : Network n) : Label n → Network n
  | .actor relay call answer =>
    { s.afterCall relay call answer with logs := Function.update s.logs relay (s.logs relay ++ [⟨call, answer⟩]) }
  | .stop relay => { s with ended := Function.update s.ended relay true }
  | .begin operation => { s with operation := some (operation, []) }
  | .operate call answer =>
    { s.afterAsk call answer with operation := s.operation.map fun x => (x.1, x.2 ++ [⟨call, answer⟩]) }
  | .finish _ _ | .abandon => { s with operation := none }
  | .publish relay signed =>
    (s.withChannel relay).withQueue relay (s.queues relay ++ [.publish signed (s.issued relay)])
  | .shutdown relay => s.withQueue relay (s.queues relay ++ [.shutdown])

section Steps
variable (library : RelayLibrary) (configs : Fin n → RelayConfig) (fuel : Nat)

/-- When a label can happen. An actor that has returned, or whose task is aborted, stops. -/
def Enabled (s : Network n) : Label n → Prop
  | .actor relay call answer =>
    s.ended relay = false ∧ (runActor library (configs relay) fuel {}).Calls (s.logs relay) call ∧
      s.MayAnswer relay call answer
  | .begin _ => s.operation = none
  | .operate call answer =>
    ∃ operation log, s.operation = some (operation, log) ∧ (operation.run fuel ()).Calls log call ∧
      s.MayAnswerAsk call answer
  | .finish operation result =>
    ∃ log, s.operation = some (operation, log) ∧ (operation.run fuel ()).After log (.ret (.ok result, ()))
  | .stop _ | .abandon | .publish _ _ | .shutdown _ => True

def Step (s : Network n) (l : Label n) (s' : Network n) : Prop := s.Enabled library configs fuel l ∧ s' = s.next l

end Steps

end Network

end OmaChat.Nostr

import Mathlib.Data.Finset.Card
import Mathlib.Data.Fintype.Basic
import OmaChat.Nostr.RelayList

/-!
# Discovery of replaceable events

`dm_relay_discovery.rs` and `replaceable_discovery.rs`: a discovery waits for its relays, subscribes to the events of one
author, and keeps the best valid event until enough relays have ended their stored events. The notifications of the pool
before a deadline are a list; a list that is used up is the deadline.
-/

namespace OmaChat.Nostr
open Wire

variable {n : Nat}

abbrev PoolNotification (n : Nat) : Type := Fin n × RelayNotification

/-- The errors of `DmRelayDiscoveryError` and `ReplaceableDiscoveryError` that a discovery on a pool returns. -/
inductive DiscoveryError where
  | authenticationTimeout
  | authenticationRejected (message : String)
  | unexpectedAuthenticatedPrincipal
  | subscriptionRejected
  | insufficientRelaySubscriptions (required actual : Nat)
  | subscriptionClosed (message : String)
  | queryTimeout
  /-- `NoValidMetadata`, `NoValidEvent` -/
  | noValidEvent
  | poolStopped
  deriving DecidableEq

/-- `DmRelayDiscoveryResult`, `ReplaceableDiscoveryResult` -/
structure DiscoveryResult where
  event : SignedEvent
  queriedRelays : Nat
  completedRelays : Nat
  deriving DecidableEq

section Phases
/-! ## Readiness -/

/-- The first loop of `discover_inner` of the DM relays, and `await_required_authentication`. -/
def awaitRequiredAuthentication (expectedAuthenticationKey : String) (minimum : Nat) :
    List (PoolNotification n) → Finset (Fin n) → Except DiscoveryError Unit
  | [], authenticated => if minimum ≤ authenticated.card then .ok () else .error .authenticationTimeout
  | (relay, notification) :: rest, authenticated =>
    if minimum ≤ authenticated.card then .ok ()
    else
      match notification with
      | .authenticated publicKey =>
        if publicKey = expectedAuthenticationKey then
          awaitRequiredAuthentication expectedAuthenticationKey minimum rest (insert relay authenticated)
        else .error .unexpectedAuthenticatedPrincipal
      | .authenticationRejected publicKey message =>
        if publicKey = expectedAuthenticationKey then .error (.authenticationRejected message)
        else .error .unexpectedAuthenticatedPrincipal
      | _ => awaitRequiredAuthentication expectedAuthenticationKey minimum rest authenticated

/-- What `await_challenge_driven_readiness` knows about the relays. -/
structure Readiness (n : Nat) where
  connectedAt : Fin n → Option Nat := fun _ => none
  challenged : Finset (Fin n) := ∅
  authenticated : Finset (Fin n) := ∅

def Readiness.ready (s : Readiness n) (challengeSettleTimeout now : Nat) : Finset (Fin n) :=
  Finset.univ.filter fun relay => (s.connectedAt relay).any fun connected =>
    relay ∈ s.authenticated ∨ relay ∉ s.challenged ∧ challengeSettleTimeout ≤ now - connected

/-- A notification in `await_challenge_driven_readiness` -/
def Readiness.receive (expectedAuthenticationKey : String) (now : Nat) (s : Readiness n) :
    PoolNotification n → Except DiscoveryError (Readiness n)
  | (relay, .connected) => .ok { s with connectedAt := Function.update s.connectedAt relay (some now) }
  | (relay, .disconnected) => .ok {
      connectedAt := Function.update s.connectedAt relay none
      challenged := s.challenged.erase relay
      authenticated := s.authenticated.erase relay }
  | (relay, .authChallenge _) => .ok { s with challenged := insert relay s.challenged }
  | (relay, .authenticated publicKey) =>
    if publicKey = expectedAuthenticationKey then .ok {
      connectedAt := Function.update s.connectedAt relay (some ((s.connectedAt relay).getD now))
      challenged := s.challenged.erase relay
      authenticated := insert relay s.authenticated }
    else .error .unexpectedAuthenticatedPrincipal
  | (_, .authenticationRejected publicKey message) =>
    if publicKey = expectedAuthenticationKey then .error (.authenticationRejected message)
    else .error .unexpectedAuthenticatedPrincipal
  | _ => .ok s

/-- A round of the loop in `await_challenge_driven_readiness`: the time at its start, and the notification with the time
that it comes at unless the wait ends without one. -/
structure ReadinessRound (n : Nat) where
  now : Nat
  notification : Option (Nat × PoolNotification n)

def awaitChallengeDrivenReadiness (expectedAuthenticationKey : String) (minimum challengeSettleTimeout deadline : Nat) :
    List (ReadinessRound n) → Readiness n → Except DiscoveryError Unit
  | [], _ => .error .authenticationTimeout
  | round :: rest, s =>
    if minimum ≤ (s.ready challengeSettleTimeout round.now).card then .ok ()
    else if deadline ≤ round.now then .error .authenticationTimeout
    else
      match round.notification with
      | none => awaitChallengeDrivenReadiness expectedAuthenticationKey minimum challengeSettleTimeout deadline rest s
      | some (now, notification) =>
        match s.receive expectedAuthenticationKey now notification with
        | .error error => .error error
        | .ok s => awaitChallengeDrivenReadiness expectedAuthenticationKey minimum challengeSettleTimeout deadline rest s

def subscribedRelays (results : List (Except RelayError Unit)) : Finset (Fin n) :=
  Finset.univ.filter fun relay => (results[relay.val]?).any Except.isOk

/-! ## Queries -/

/-- What the query loops of the two discoveries differ in, and what they read. -/
structure Query (n : Nat) where
  subscriptionId : String
  expectedAuthenticationKey : String
  subscribed : Finset (Fin n)
  validate : SignedEvent → Bool
  /-- The first event replaces the second. -/
  better : SignedEvent → SignedEvent → Bool
  finished : Finset (Fin n) → Bool

structure Progress (n : Nat) where
  completed : Finset (Fin n) := ∅
  best : Option SignedEvent := none

namespace Query
variable (q : Query n)

/-- The condition under which an event becomes the best one, and the assignment. -/
def select (best : Option SignedEvent) (event : SignedEvent) : Option SignedEvent :=
  if q.validate event ∧ best.all (q.better event) then some event else best

def receive (s : Progress n) : PoolNotification n → Except DiscoveryError (Progress n)
  | (relay, notification) =>
    if relay ∉ q.subscribed then .ok s
    else
      match notification with
      | .event subscriptionId event =>
        if subscriptionId = q.subscriptionId then .ok { s with best := q.select s.best event } else .ok s
      | .endOfStoredEvents subscriptionId =>
        if subscriptionId = q.subscriptionId then .ok { s with completed := insert relay s.completed } else .ok s
      | .closed subscriptionId message =>
        if subscriptionId = q.subscriptionId then .error (.subscriptionClosed message) else .ok s
      | .authenticationRejected publicKey message =>
        if publicKey = q.expectedAuthenticationKey then .error (.authenticationRejected message) else .ok s
      | _ => .ok s

def loop : List (PoolNotification n) → Progress n → Except DiscoveryError (Progress n)
  | [], s => if q.finished s.completed then .ok s else .error .queryTimeout
  | notification :: rest, s =>
    if q.finished s.completed then .ok s
    else
      match q.receive s notification with
      | .error error => .error error
      | .ok s => loop rest s

/-- The query loop and what is made of its result. -/
def run (notifications : List (PoolNotification n)) : Except DiscoveryError DiscoveryResult :=
  match q.loop notifications {} with
  | .error error => .error error
  | .ok s =>
    match s.best with
    | none => .error .noValidEvent
    | some event => .ok ⟨event, q.subscribed.card, s.completed.card⟩

end Query

end Phases

/-! ## The two discoveries -/

/-- The arguments of `discover_inner` of the DM relays. -/
structure DmRelayDiscovery where
  minimumAuthenticatedRelays : Nat := 1
  subscriptionId : String := "omachat-dm-relay-discovery"
  expectedAuthenticationKey : String
  recipientPublicKey : Bytes 32
  now : UInt64
  eventLimits : EventLimits
  inboxPolicy : DmInboxPolicy

/-- What happens to a discovery: the notifications while it waits for its relays, the results of the subscription, and the
notifications of the query. -/
structure DiscoveryAnswers (n : Nat) (α : Type) where
  readiness : List α
  results : List (Except RelayError Unit)
  notifications : List (PoolNotification n)

namespace DmRelayDiscovery
variable (p : Primitives) (urls : RelayUrlLibrary) (d : DmRelayDiscovery)

/-- The comparison of `(created_at, id)` -/
def better (event current : SignedEvent) : Bool :=
  current.createdAt < event.createdAt ∨ event.createdAt = current.createdAt ∧ current.id < event.id

def query (subscribed : Finset (Fin n)) : Query n where
  subscriptionId := d.subscriptionId
  expectedAuthenticationKey := d.expectedAuthenticationKey
  subscribed := subscribed
  validate event := (verifyDmInbox p urls event d.recipientPublicKey d.now d.eventLimits d.inboxPolicy).isOk
  better := better
  finished completed := subscribed ⊆ completed

/-- `discover_inner` of the DM relays -/
def discoverInner (answers : DiscoveryAnswers n (PoolNotification n)) : Except DiscoveryError DiscoveryResult := do
  awaitRequiredAuthentication d.expectedAuthenticationKey d.minimumAuthenticatedRelays answers.readiness ∅
  if answers.results.length ≠ n then .error .poolStopped
  else
    let subscribed : Finset (Fin n) := subscribedRelays answers.results
    if subscribed = ∅ then .error .subscriptionRejected
    else (d.query p urls subscribed).run answers.notifications

end DmRelayDiscovery

/-- The arguments of `discover_inner` of replaceable events; times are in milliseconds. -/
structure ReplaceableDiscovery where
  authenticationPolicy : RelayAuthenticationPolicy
  authenticationDeadline : Nat
  challengeSettleTimeout : Nat
  minimumReadyRelays : Nat
  subscriptionId : String
  expectedAuthenticationKey : String
  validateEvent : SignedEvent → Bool

namespace ReplaceableDiscovery
variable (d : ReplaceableDiscovery)

/-- The comparison of `created_at`, then of `id` in the other order -/
def better (event current : SignedEvent) : Bool :=
  current.createdAt < event.createdAt ∨ event.createdAt = current.createdAt ∧ event.id < current.id

def query (subscribed : Finset (Fin n)) : Query n where
  subscriptionId := d.subscriptionId
  expectedAuthenticationKey := d.expectedAuthenticationKey
  subscribed := subscribed
  validate := d.validateEvent
  better := better
  finished completed := d.minimumReadyRelays ≤ completed.card

def awaitRelayReadiness (rounds : List (ReadinessRound n)) : Except DiscoveryError Unit :=
  match d.authenticationPolicy with
  | .requireWhenConfigured =>
    awaitRequiredAuthentication d.expectedAuthenticationKey d.minimumReadyRelays
      ((rounds.takeWhile (·.notification.isSome)).filterMap fun round => round.notification.map Prod.snd) ∅
  | .authenticateWhenChallenged =>
    awaitChallengeDrivenReadiness d.expectedAuthenticationKey d.minimumReadyRelays d.challengeSettleTimeout
      d.authenticationDeadline rounds {}

/-- `discover_inner` of replaceable events -/
def discoverInner (answers : DiscoveryAnswers n (ReadinessRound n)) : Except DiscoveryError DiscoveryResult := do
  d.awaitRelayReadiness answers.readiness
  if answers.results.length ≠ n then .error .poolStopped
  else
    let subscribed : Finset (Fin n) := subscribedRelays answers.results
    if subscribed = ∅ then .error .subscriptionRejected
    else if subscribed.card < d.minimumReadyRelays then
      .error (.insufficientRelaySubscriptions d.minimumReadyRelays subscribed.card)
    else (d.query subscribed).run answers.notifications

end ReplaceableDiscovery

end OmaChat.Nostr

import OmaChat.Lib.Tasks
import OmaChat.Nostr.Relay

/-!
# What a relay actor does

`View` is what can be seen of an actor from outside: on the connection that it has, the challenges of the relay, the events
that answered them and the verdicts of the relay; the subscriptions that it may hold; and how its last connection ended.
`relayRules` says for every view which calls the actor may make:

* it writes an event, a request or a close only while the gate is open, and answers the latest challenge;
* it requests only subscriptions that it may hold;
* after a lost connection it only cleans up, for a bounded number of calls, and connects again;
* it ends only after one of the few things that are meant to end it, or a replay that failed.

That the actor keeps to them is shown by one walk through it, in `RelayWalk`.
-/

namespace OmaChat.Nostr
open Wire Effects

/-! ## The gate -/

/-- What decides on a connection whether the actor may write. -/
inductive GateEvent where
  | challenged (challenge : String)
  | answered (signed : SignedEvent)
  | verdict (eventId : String) (accepted : Bool)

def Unchallenged (events : List GateEvent) : Prop := ∀ challenge, GateEvent.challenged challenge ∉ events

def LatestChallenge (events : List GateEvent) (challenge : String) : Prop :=
  ∃ before after, events = before ++ .challenged challenge :: after ∧ Unchallenged after

/-- The latest challenge was answered with an event. -/
def Answered (events : List GateEvent) (signed : SignedEvent) : Prop :=
  ∃ before challenge between after, events = before ++ .challenged challenge :: (between ++ .answered signed :: after) ∧
    Unchallenged between ∧ Unchallenged after

/-- The relay has accepted the event that answered the latest challenge. -/
def Accepted (events : List GateEvent) : Prop :=
  ∃ before signed after, events = before ++ .verdict signed.id true :: after ∧ Answered before signed ∧ Unchallenged after

section Gate
variable {events events' : List GateEvent}

theorem unchallenged_nil : Unchallenged [] := by
  intro challenge h
  cases h

theorem Unchallenged.append (h : Unchallenged events) (h' : Unchallenged events') : Unchallenged (events ++ events') := by
  intro challenge hmem
  rcases List.mem_append.1 hmem with hmem | hmem
  · exact h challenge hmem
  · exact h' challenge hmem

variable {signed : SignedEvent}

theorem Answered.append (h : Answered events signed) (h' : Unchallenged events') : Answered (events ++ events') signed := by
  obtain ⟨before, challenge, between, after, rfl, hbetween, ha⟩ := h
  exact ⟨before, challenge, between, after ++ events', by simp, hbetween, ha.append h'⟩

theorem Accepted.append (h : Accepted events) (h' : Unchallenged events') : Accepted (events ++ events') := by
  obtain ⟨before, signed, after, rfl, hansd, ha⟩ := h
  exact ⟨before, signed, after ++ events', by simp, hansd, ha.append h'⟩

theorem Answered.accepted (h : Answered events signed) :
    Accepted (events ++ [.verdict signed.id true]) := ⟨events, signed, [], rfl, h, unchallenged_nil⟩

theorem latestChallenge_append (challenge : String) : LatestChallenge (events ++ [.challenged challenge]) challenge :=
  ⟨events, [], rfl, unchallenged_nil⟩

theorem LatestChallenge.answered {challenge : String} (h : LatestChallenge events challenge) (signed : SignedEvent) :
    Answered (events ++ [.answered signed]) signed := by
  obtain ⟨before, after, rfl, ha⟩ := h
  exact ⟨before, challenge, after, [], by simp, ha, unchallenged_nil⟩

end Gate

section Rules
variable (library : RelayLibrary) (config : RelayConfig)

def gateEvent (text : String) : Option GateEvent :=
  match RelayFrame.fromJson library.frames library.primitives (utf8 text) 0 config.eventLimits config.frameLimits with
  | .ok (.authChallenge challenge) => some (.challenged challenge)
  | .ok (.ok eventId accepted _) => some (.verdict eventId accepted)
  | _ => none

/-- The frames that only an open gate lets through. -/
def ClientFrame.isGated : ClientFrame → Bool
  | .event _ | .request _ _ | .close _ => true
  | .auth _ => false

/-- The gate is open: the actor has no signer, or the relay has accepted the answer to its latest challenge, or it has not
asked for one and the actor does not wait for that. -/
def GateOpen (events : List GateEvent) : Prop :=
  config.auth = none ∨ config.startsOpen = true ∧ Unchallenged events ∨ Accepted events

def AnswersLatest (events : List GateEvent) (signed : SignedEvent) : Prop :=
  ∃ signer challenge now, config.auth = some signer ∧ LatestChallenge events challenge ∧
    signed.unsigned = challengeAnswer signer config.url challenge now ∧
    signed.id = hexEncode ((challengeAnswer signer config.url challenge now).id library.primitives).val

/-! ## Views -/

def ClientFrame.Encodes (frame : ClientFrame) : Prop := (frame.toJson config.frameLimits).isOk = true

instance (frame : ClientFrame) : Decidable (frame.Encodes config) := inferInstanceAs (Decidable (_ = true))

variable {config} in
theorem encodes_iff {frame : ClientFrame} : frame.Encodes config ↔ ∃ text, frame.toJson config.frameLimits = .ok text := by
  unfold ClientFrame.Encodes
  cases frame.toJson config.frameLimits <;> simp [Except.isOk, Except.toBool]

structure View where
  /-- What happened to the gate of the connection. -/
  events : List GateEvent
  /-- The subscriptions that the actor took and has not closed. -/
  held : List String
  /-- The number of publications that the actor took. -/
  publishes : Nat
  /-- A connection was made, and its session has not begun. -/
  replaying : Bool
  /-- The number of calls since the connection was lost. -/
  lost : Option Nat
  /-- Nothing has happened that ends the actor. -/
  fine : Bool
  calls : Nat

def View.start : View := ⟨[], [], 0, false, none, true, 0⟩

namespace View

def tick (g : View) : View := { g with lost := g.lost.map (· + 1), calls := g.calls + 1 }

def take (g : View) : Option RelayCommand → View
  | some (.publish _ _) => { g with publishes := g.publishes + 1 }
  | some (.subscribe subscriptionId filters _) =>
    { g with
      held := subscriptionId :: g.held
      fine := g.fine &&
        (config.auth.isNone || (!config.startsOpen || decide ((ClientFrame.request subscriptionId filters).Encodes config))) }
  | some (.close subscriptionId _) => { g with held := g.held.filter (· ≠ subscriptionId) }
  | some .shutdown | none => { g with fine := false }

def turn (g : View) : RelayTurn → View
  | .command command => g.take config command
  | .message (some (.ok (.text text))) => { g with events := g.events ++ (gateEvent library config text).toList }
  | .message (some (.ok .ping)) | .message (some (.ok .pong)) | .ping => g
  | .message _ | .idle => { g with lost := some 0 }

def learn (g : View) : (call : RelayCall) → call.Answer → View
  | .connect, true => { g.tick with events := [], replaying := true, lost := none }
  | .connect, false => { g.tick with lost := some 0 }
  | .select, next => { g.tick with replaying := false }.turn library config next
  | .write (.auth signed) _, .ok _ => { g.tick with events := g.events ++ [.answered signed] }
  | .write _ _, .error _ => { g.tick with lost := some 0, fine := g.fine && !g.replaying }
  | .ping, .error _ => { g.tick with lost := some 0 }
  | .notify _, .error _ => { g.tick with fine := false }
  | .health .disconnected, _ => { g.tick with lost := some ((g.lost.map (· + 1)).getD 0) }
  | .wait _, .command none | .wait _, .command (some .shutdown) => { g.tick with fine := false }
  | _, _ => g.tick

end View

def RelayCall.isCleanup : RelayCall → Bool
  | .health _ | .notify _ | .iterate _ | .respond _ _ | .wait _ | .connect | .pending => true
  | _ => false

structure MayCall (fuel : Nat) (g : View) (call : RelayCall) : Prop where
  gated : ∀ frame text, call = .write frame text → frame.isGated = true → GateOpen config g.events
  auth : ∀ signed text, call = .write (.auth signed) text → AnswersLatest library config g.events signed
  holds : ∀ subscriptionId filters text, call = .write (.request subscriptionId filters) text → subscriptionId ∈ g.held
  cleans : g.fine = true → ∀ n, g.lost = some n → call.isCleanup = true ∧ n ≤ 7 + g.publishes
  goesOn : call = .pending → fuel ≤ g.calls

def relayRules (fuel : Nat) : Protocol RelayCall.Answer View where
  start := .start
  may := MayCall library config fuel
  learn := View.learn library config

end Rules

end OmaChat.Nostr

import OmaChat.Lib.Method
import OmaChat.Nostr.Frame

/-!
# Relay connections

`relay.rs`: an actor that owns the connection to one relay. It connects, replays its subscriptions, takes commands and reads
frames until the connection is lost, waits and connects again. With a signer it answers the challenges of the relay, and
while a session is not authenticated it writes no event, request or close.

The actor is a program over `RelayCall`. Its loops have no bound: a program goes round them `fuel` times and then awaits an
answer that never comes, so everything that the actor does, up to any moment, is what such a program does for some `fuel`.
A reply channel is the number that the command carries, and a `HashMap` is a list that is iterated in any order.
-/

namespace OmaChat.Nostr
open Wire Effects

/-! ## Configuration -/

structure RelayAuthSigner where
  secretKey : Bytes 32
  publicKey : Bytes 32

inductive RelayAuthenticationPolicy where
  | requireWhenConfigured
  | authenticateWhenChallenged
  deriving DecidableEq

/-- The parts of `RelayConfig` that the actor reads; delays are in milliseconds. -/
structure RelayConfig where
  url : String
  auth : Option RelayAuthSigner
  authenticationPolicy : RelayAuthenticationPolicy
  reconnectInitialDelay : Nat
  reconnectMaxDelay : Nat
  eventLimits : EventLimits
  frameLimits : FrameLimits

structure RelayLibrary where
  primitives : Primitives
  frames : FrameLibrary
  hash : String → UInt32 → UInt64

def nip42AuthKind : UInt32 := 22242

inductive AuthError where
  | emptyChallenge
  | random
  | event (error : EventError)
  deriving DecidableEq

/-- The errors of `RelayError` that the actor and its callers see, with the errors that they are made from. -/
inductive RelayError where
  | webSocket (error : String)
  | frame (error : FrameError)
  | backpressure
  | responseTimeout
  | disconnected
  | stopped
  | duplicatePublish
  | publishRejected (message : String)
  | notAuthenticated
  | authentication (error : AuthError)
  deriving DecidableEq

inductive RelayHealth where
  | connecting
  | connected
  | disconnected
  | stopped
  deriving DecidableEq

inductive RelayNotification where
  | connected
  | disconnected
  | event (subscriptionId : String) (signed : SignedEvent)
  | endOfStoredEvents (subscriptionId : String)
  | closed (subscriptionId message : String)
  | notice (message : String)
  | authChallenge (challenge : String)
  | authenticated (publicKey : String)
  | authenticationRejected (publicKey message : String)
  deriving DecidableEq

/-- What is sent on a reply channel: an acknowledgement of a publication, the end of another command, or an error. -/
inductive Reply where
  | acknowledged (eventId message : String)
  | done
  | failed (error : RelayError)
  deriving DecidableEq

/-- `Command` -/
inductive RelayCommand where
  | publish (signed : SignedEvent) (response : Nat)
  | subscribe (subscriptionId : String) (filters : List Json) (response : Nat)
  | close (subscriptionId : String) (response : Nat)
  | shutdown

def RelayCommand.response : RelayCommand → Option Nat
  | .publish _ response | .subscribe _ _ response | .close _ response => some response
  | .shutdown => none

/-! ## Calls -/

/-- `TrySendError` of a channel -/
inductive TrySendError where
  | full
  | closed
  deriving DecidableEq

/-- A `tungstenite::Message` that arrives. -/
inductive Incoming where
  | text (text : String)
  | ping
  | pong
  | close
  | binary
  | frame
  deriving DecidableEq

/-- The branch of `select!` in the actor's session that is ready first. -/
inductive RelayTurn where
  | command (command : Option RelayCommand)
  | message (next : Option (Except String Incoming))
  | ping
  | idle

/-- The branch of `select!` in `wait_to_reconnect` that is ready first. -/
inductive Wait where
  | elapsed
  | command (command : Option RelayCommand)

inductive RelayCall where
  /-- `health.send` -/
  | health (health : RelayHealth)
  | connect
  /-- `notifications.try_send` -/
  | notify (notification : RelayNotification)
  /-- The order in which a map with so many entries is iterated. -/
  | iterate (count : Nat)
  | select
  /-- `socket.send` of the text that encodes a frame. -/
  | write (frame : ClientFrame) (text : String)
  | ping
  /-- `socket.close(None)`, whose outcome is ignored. -/
  | close
  /-- `response.send`, whose outcome is ignored. -/
  | respond (response : Nat) (reply : Reply)
  /-- `sender.is_closed()` -/
  | isClosed (response : Nat)
  /-- `wait_to_reconnect` for so many milliseconds. -/
  | wait (delay : Nat)
  | unixTimestamp
  | random
  /-- What lies beyond the fuel. -/
  | pending
  deriving DecidableEq

/-- The answer to a call. An error of the WebSocket library is its text. -/
@[reducible] def RelayCall.Answer : RelayCall → Type
  | .connect => Bool
  | .notify _ => Except TrySendError Unit
  | .iterate count => Equiv.Perm (Fin count)
  | .select => RelayTurn
  | .write _ _ | .ping => Except String Unit
  | .isClosed _ => Bool
  | .wait _ => Wait
  | .unixTimestamp => UInt64
  | .random => Option (Bytes 32)
  | .pending => Empty
  | .health _ | .close | .respond _ _ => Unit

/-! ## The actor -/

structure PendingAuthentication where
  eventId : String
  publicKey : String
  deriving DecidableEq

/-- The variables of `run_actor_loop`. The last two are those of one session. -/
structure Actor where
  subscriptions : List (String × List Json) := []
  pending : List (String × Nat) := []
  pendingAuthentication : Option PendingAuthentication := none
  consecutiveFailures : UInt32 := 0
  sessionAuthenticated : Bool := false
  sessionProgress : Bool := false
  deriving DecidableEq

abbrev RelayLog : Type := List (Sigma RelayCall.Answer)

abbrev ActorMethod (α : Type) : Type := Method RelayCall.Answer Actor RelayError α

/-- `HashMap::remove` -/
def removeKey {α : Type} (key : String) (entries : List (String × α)) : List (String × α) := entries.filter (·.1 ≠ key)

/-- `HashMap::insert` -/
def insertKey {α : Type} (key : String) (value : α) (entries : List (String × α)) : List (String × α) :=
  (key, value) :: removeKey key entries

variable {α : Type}

theorem length_removeKey_le (key : String) (entries : List (String × α)) :
    (removeKey key entries).length ≤ entries.length := List.length_filter_le _ _

theorem mem_removeKey {key : String} {entries : List (String × α)} {entry : String × α} :
    entry ∈ removeKey key entries ↔ entry ∈ entries ∧ entry.1 ≠ key := by
  unfold removeKey
  rw [List.mem_filter, decide_eq_true_eq]

def call (call : RelayCall) : ActorMethod call.Answer := Method.request call

def beyond {α : Type} : ActorMethod α := do
  let never : Empty ← call .pending
  nomatch never

def notify (notification : RelayNotification) : ActorMethod Unit := do
  match ← call (.notify notification) with
  | .ok _ => pure ()
  | .error .full => Method.throw .backpressure
  | .error .closed => Method.throw .stopped

/-- `response.send` -/
def respond (response : Nat) (reply : Reply) : ActorMethod Unit := call (.respond response reply)

/-- `fail_pending`, over the entries in the order of the map -/
def failEach (error : RelayError) : List (String × Nat) → ActorMethod Unit
  | [] => pure ()
  | (_, response) :: rest => do
    respond response (.failed error)
    failEach error rest

/-- The entries of a map in an order of the world's choice. -/
def inOrder {α : Type} (entries : List α) : ActorMethod (List α) := do
  let order ← call (.iterate entries.length)
  pure (List.ofFn fun i => entries.get (order i))

def failPending (error : RelayError) : ActorMethod Unit := do
  let actor ← Method.get
  let entries ← inOrder actor.pending
  Method.modify fun actor => { actor with pending := [] }
  failEach error entries

/-- `reconnect_delay`, in milliseconds -/
def reconnectDelay (library : RelayLibrary) (config : RelayConfig) (failures : UInt32) : Nat :=
  let exponent := min (failures.toNat - 1) 20
  let capped := min (config.reconnectInitialDelay * 2 ^ exponent) config.reconnectMaxDelay
  let jitterPerMille := 750 + (library.hash config.url failures).toNat % 501
  let jittered := min (max (capped * jitterPerMille / 1000) 1) config.reconnectMaxDelay
  min jittered (2 ^ 64 - 1)

def rejectCommand (command : RelayCommand) (error : RelayError) : ActorMethod Unit :=
  match command with
  | .publish _ response | .subscribe _ _ response | .close _ response => respond response (.failed error)
  | .shutdown => pure ()

/-- `wait_to_reconnect`: whether the actor is to stop. -/
def waitToReconnect (delay : Nat) : ActorMethod Bool := do
  match ← call (.wait delay) with
  | .elapsed => pure false
  | .command none | .command (some .shutdown) => pure true
  | .command (some other) => do
    rejectCommand other .disconnected
    pure false

section Session
variable (library : RelayLibrary) (config : RelayConfig)

def sendFrame (frame : ClientFrame) : ActorMethod Unit := do
  let text ← Method.ofExcept ((frame.toJson config.frameLimits).mapError .frame)
  let sent ← call (.write frame text)
  Method.ofExcept (Except.mapError .webSocket sent)

/-- The loop of `replay_subscriptions` -/
def replayEach : List (String × List Json) → ActorMethod Unit
  | [] => pure ()
  | (subscriptionId, filters) :: rest => do
    sendFrame config (.request subscriptionId filters)
    replayEach rest

def replaySubscriptions : ActorMethod Unit := do
  let actor ← Method.get
  let entries ← inOrder actor.subscriptions
  replayEach config entries

/-! ### Commands -/

/-- What a branch of the loop does next: go round it again, or break with whether to connect again. -/
inductive LoopStep where
  | continue
  | break (disconnect : Bool)
  deriving DecidableEq

/-- A frame is sent and the outcome is replied; an error ends the session. -/
def sendAndReply (frame : ClientFrame) (response : Nat) (onSent : ActorMethod Unit) : ActorMethod LoopStep := do
  match ← Method.attempt (sendFrame config frame) with
  | .ok _ => do
    onSent
    pure .continue
  | .error error => do
    respond response (.failed error)
    pure (.break true)

/-- `sender.is_closed()` of the publication that is pending under an id: whether there is one that is waited for. -/
def isAwaited (id : String) : ActorMethod Bool := do
  let actor ← Method.get
  match actor.pending.lookup id with
  | none => pure false
  | some sender => do
    let closed : Bool ← call (.isClosed sender)
    pure !closed

/-- `Some(Command::Publish { event, response })` -/
def onPublish (signed : SignedEvent) (response : Nat) : ActorMethod LoopStep := do
  let actor ← Method.get
  if !actor.sessionAuthenticated then do
    respond response (.failed .notAuthenticated)
    pure .continue
  else if ← isAwaited signed.id then do
    respond response (.failed .duplicatePublish)
    pure .continue
  else do
    Method.modify fun actor => { actor with pending := removeKey signed.id actor.pending }
    sendAndReply config (.event signed) response
      (Method.modify fun actor => { actor with pending := insertKey signed.id response actor.pending })

/-- `Some(Command::Subscribe { subscription_id, filters, response })` -/
def onSubscribe (subscriptionId : String) (filters : List Json) (response : Nat) : ActorMethod LoopStep := do
  let store : ActorMethod Unit := do
    Method.modify fun actor => { actor with subscriptions := insertKey subscriptionId filters actor.subscriptions }
    respond response .done
  let actor ← Method.get
  if !actor.sessionAuthenticated then do
    store
    pure .continue
  else sendAndReply config (.request subscriptionId filters) response store

/-- `Some(Command::Close { subscription_id, response })` -/
def onClose (subscriptionId : String) (response : Nat) : ActorMethod LoopStep := do
  Method.modify fun actor => { actor with subscriptions := removeKey subscriptionId actor.subscriptions }
  let actor ← Method.get
  if !actor.sessionAuthenticated then do
    respond response .done
    pure .continue
  else sendAndReply config (.close subscriptionId) response (respond response .done)

def onCommand : Option RelayCommand → ActorMethod LoopStep
  | some (.publish signed response) => onPublish config signed response
  | some (.subscribe subscriptionId filters response) => onSubscribe config subscriptionId filters response
  | some (.close subscriptionId response) => onClose config subscriptionId response
  | some .shutdown => do
    call .close
    pure (.break false)
  | none => pure (.break false)

/-! ### Frames of the relay -/

def challengeAnswer (signer : RelayAuthSigner) (relayUrl challenge : String) (createdAt : UInt64) : UnsignedEvent :=
  ⟨hexEncode signer.publicKey.val, createdAt, nip42AuthKind, [["relay", relayUrl], ["challenge", challenge]], ""⟩

def signChallenge (signer : RelayAuthSigner) (relayUrl challenge : String) (createdAt : UInt64) :
    ActorMethod SignedEvent := do
  if challenge = "" then Method.throw (.authentication .emptyChallenge)
  else
    match ← call .random with
    | none => Method.throw (.authentication .random)
    | some auxiliary =>
      let event := challengeAnswer signer relayUrl challenge createdAt
      let signed := do
        event.validate config.eventLimits
        event.signWithAux library.primitives signer.secretKey auxiliary config.eventLimits
      Method.ofExcept (signed.mapError fun error => .authentication (.event error))

/-- `RelayFrame::AuthChallenge(challenge)` -/
def onChallenge (challenge : String) : ActorMethod Unit := do
  notify (.authChallenge challenge)
  match config.auth with
  | none => pure ()
  | some signer => do
    Method.modify fun actor => { actor with sessionAuthenticated := false }
    let now ← call .unixTimestamp
    let signed ← signChallenge library config signer config.url challenge now
    sendFrame config (.auth signed)
    Method.modify fun actor => { actor with pendingAuthentication := some ⟨signed.id, signed.pubkey⟩ }

def onAuthenticationOk (authentication : PendingAuthentication) (accepted : Bool) (message : String) :
    ActorMethod Unit := do
  Method.modify fun actor => { actor with pendingAuthentication := none }
  if accepted then do
    Method.modify fun actor => { actor with sessionAuthenticated := true }
    replaySubscriptions config
    notify (.authenticated authentication.publicKey)
  else do
    Method.modify fun actor => { actor with sessionAuthenticated := false }
    notify (.authenticationRejected authentication.publicKey message)

/-- `RelayFrame::Ok { event_id, accepted, message }` -/
def onOk (eventId : String) (accepted : Bool) (message : String) : ActorMethod Unit := do
  let actor ← Method.get
  match actor.pendingAuthentication.filter (·.eventId = eventId) with
  | some authentication => onAuthenticationOk config authentication accepted message
  | none =>
    match actor.pending.lookup eventId with
    | none => pure ()
    | some response => do
      Method.modify fun actor => { actor with pending := removeKey eventId actor.pending }
      respond response (if accepted then .acknowledged eventId message else .failed (.publishRejected message))

def handleRelayFrame (bytes : List UInt8) : ActorMethod Unit := do
  let now ← call .unixTimestamp
  let frame ← Method.ofExcept <|
    (RelayFrame.fromJson library.frames library.primitives bytes now config.eventLimits config.frameLimits).mapError .frame
  match frame with
  | .event subscriptionId signed => notify (.event subscriptionId signed)
  | .endOfStoredEvents subscriptionId => notify (.endOfStoredEvents subscriptionId)
  | .ok eventId accepted message => onOk config eventId accepted message
  | .closed subscriptionId message => notify (.closed subscriptionId message)
  | .notice message => notify (.notice message)
  | .authChallenge challenge => onChallenge library config challenge

def progress : ActorMethod Unit := Method.modify fun actor => { actor with sessionProgress := true }

def onMessage : Option (Except String Incoming) → ActorMethod LoopStep
  | some (.ok (.text text)) => do
    progress
    match ← Method.attempt (handleRelayFrame library config (utf8 text)) with
    | .ok _ => pure .continue
    | .error _ => pure (.break true)
  | some (.ok .ping) | some (.ok .pong) => do
    progress
    pure .continue
  | none | some (.error _) | some (.ok .close) | some (.ok .binary) | some (.ok .frame) => pure (.break true)

/-! ### The loops -/

def takeTurn : RelayTurn → ActorMethod LoopStep
  | .command command => onCommand config command
  | .message next => onMessage library config next
  | .ping => do
    match ← call .ping with
    | .ok _ => pure .continue
    | .error _ => pure (.break true)
  | .idle => pure (.break true)

/-- The loop of a session; its value says whether to connect again. -/
def session : Nat → ActorMethod Bool
  | 0 => beyond
  | fuel + 1 => do
    match ← takeTurn library config (← call .select) with
    | .continue => session fuel
    | .break disconnect => pure disconnect

/-- A session may write from its start without a signer, or if it authenticates only when it is challenged. -/
def RelayConfig.startsOpen : Bool := config.auth.isNone || config.authenticationPolicy = .authenticateWhenChallenged

def beginSession : ActorMethod Unit := do
  call (.health .connected)
  notify .connected
  Method.modify fun actor => { actor with sessionAuthenticated := config.startsOpen, sessionProgress := false }
  if config.startsOpen then replaySubscriptions config else pure ()

/-- `u32::saturating_add(1)` -/
def nextFailures (failures : UInt32) : UInt32 := if failures.toNat + 1 < 2 ^ 32 then failures + 1 else failures

def endSession : ActorMethod Unit := do
  failPending .disconnected
  Method.modify fun actor => { actor with pendingAuthentication := none }
  call (.health .disconnected)
  notify .disconnected
  Method.modify fun actor =>
    { actor with consecutiveFailures := if actor.sessionProgress then 0 else nextFailures actor.consecutiveFailures }

def connectFailed : ActorMethod Unit := do
  call (.health .disconnected)
  Method.modify fun actor => { actor with consecutiveFailures := nextFailures actor.consecutiveFailures }

/-- A connection that was made; the value says whether to wait and connect again. -/
def onConnected (fuel : Nat) : ActorMethod Bool := do
  beginSession config
  let disconnect ← session library config fuel
  if disconnect then do
    endSession
    pure true
  else pure false

def onConnectFailed : ActorMethod Bool := do
  connectFailed
  pure true

def connect (fuel : Nat) : ActorMethod Bool := do
  call (.health .connecting)
  let connected : Bool ← call .connect
  if connected then onConnected library config fuel else onConnectFailed

def runActorLoop : Nat → ActorMethod Unit
  | 0 => beyond
  | fuel + 1 => do
    let again ← connect library config fuel
    if again then do
      let actor ← Method.get
      let stop ← waitToReconnect (reconnectDelay library config actor.consecutiveFailures)
      if stop then failPending .stopped else runActorLoop fuel
    else failPending .stopped

def runActor (fuel : Nat) : ActorMethod Unit := do
  let result ← Method.attempt (runActorLoop library config fuel)
  call (.health .stopped)
  Method.ofExcept result

end Session

end OmaChat.Nostr

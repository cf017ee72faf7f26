import OmaChat.Lib.Oneshot
import OmaChat.Lib.Run
import OmaChat.Lib.JsonText
import OmaChat.Proto.Hosted

/-!
# The hosted transport

`hosted_service.rs`: the task that keeps one connection to the hosted server (`run`, `session`), and the calls that the
daemon makes through it (`HostedHandle::call`). Each wait of the task or of a call is a step of its own. Where `select!` has
more than one branch ready, any of them may be taken.

Connections are numbered, and beside the state of the task stand the ids that its sessions gave to calls and the frames that
answered one.
-/

namespace OmaChat.Daemon
open Wire Proto Oneshot

structure HostedAccount where
  accountId : String
  handle : Option String
  displayName : Option String
  newAccount : Bool

inductive HostedState where
  | connecting
  | connected (account : HostedAccount)
  | disconnected (reason : String)
  | stopped

def HostedState.label : HostedState → String
  | .connecting => "connecting"
  | .connected _ => "connected"
  | .disconnected _ => "disconnected"
  | .stopped => "stopped"

def HostedState.account : HostedState → Option HostedAccount
  | .connected account => some account
  | _ => none

inductive HostedEvent where
  | state (state : HostedState)
  | server (kind : String) (data : Json)

inductive HostedError where
  | disconnected
  | timeout
  | stopped
  | server (error : ServerError)
  | protocol (reason : String)
  deriving DecidableEq

/-- `HostedError::to_string` -/
def HostedError.text : HostedError → String
  | .disconnected => "hosted server connection dropped"
  | .timeout => "hosted server did not answer in time"
  | .stopped => "hosted transport is stopped"
  | .server error => "hosted server refused: " ++ error.message
  | .protocol reason => "hosted server protocol failure: " ++ reason

def requestQueue : Nat := 64

/-- The capacity of the queue of events, in `DaemonCore::start_hosted_with`. -/
def hostedEventQueue : Nat := 256

/-! ## Frames -/

def errorCodes : List ErrorCode :=
  [.unsupportedVersion, .invalidRequest, .notAuthenticated, .alreadyAuthenticated, .invalidSignature, .invalidHandle,
   .handleTaken, .handleAlreadySet, .invalidName, .nostrPubkeyTaken, .replayedProof, .notFound, .tooLarge, .rateLimited,
   .storage, .internal]

/-- `ErrorCode::deserialize` -/
def readErrorCode : Json → Option ErrorCode
  | .str name | .obj [(name, .null)] => errorCodes.find? fun code => code.name == name
  | _ => none

/-- `ServerError::deserialize` -/
def readServerError : Json → Option ServerError
  | .obj fields => do
    let code ← (fields.lookup "code").bind readErrorCode
    match fields.lookup "message" with
    | some (.str message) => some ⟨code, message⟩
    | _ => none
  | .arr [code, .str message] => (readErrorCode code).map fun code => ⟨code, message⟩
  | _ => none

def textField (key : String) (value : Json) : Option String :=
  match value.field key with
  | some (.str text) => some text
  | _ => none

def responseOutcome (value : Json) : Except HostedError Json :=
  match value.field "ok" with
  | some (.bool true) => .ok ((value.field "result").getD .null)
  | some (.bool false) =>
    match readServerError ((value.field "error").getD .null) with
    | some error => .error (.server error)
    | none => .error (.protocol "server sent a malformed error")
  | _ => .error (.protocol "server response lacks an ok field")

/-- What `HostedHandle::call` is asked for. -/
structure HostedRequest where
  method : String
  params : Json

/-- The frame that `session` sends for a request. -/
def requestFrame (id : String) (request : HostedRequest) : Json :=
  .object ([("version", .num protocolVersion), ("id", .str id), ("method", .str request.method)] ++
    match request.params with
    | .null => []
    | params => [("params", params)])

/-! ## The state -/

abbrev CallId := Nat

/-- Where a `HostedHandle::call` is. -/
inductive CallStage where
  /-- It waits for room in the queue of requests. -/
  | sending
  | waiting
  | finished (outcome : Except HostedError Json)

/-- A `HostedHandle::call` -/
structure HostedCall where
  request : HostedRequest
  stage : CallStage

/-- Where `run` is. -/
inductive HostedPhase where
  | top
  /-- In `publish_state`, before the watch is set. -/
  | publishing (state : HostedState)
  /-- In `publish_state`, before the event is queued. -/
  | queueing (state : HostedState)
  | connecting
  | session
  /-- In `session`, with an event of the server for the queue. -/
  | forwarding (kind : String) (data : Json)
  /-- Between two attempts to connect. -/
  | backoff
  /-- It has stopped, and answers what is left in the queue of requests. -/
  | draining
  | ended

structure Given where
  connection : Nat
  id : String
  call : CallId
  request : HostedRequest

/-- A frame that was written on a connection, or was lost in writing it. -/
structure Written where
  connection : Nat
  call : CallId
  frame : Json

/-- A frame that answered a call, read on a connection. -/
structure Receipt where
  connection : Nat
  id : String
  call : CallId
  frame : Json

structure Hosted where
  phase : HostedPhase
  stop : Bool
  state : HostedState
  events : List HostedEvent
  requests : List (CallId × HostedRequest)
  closed : Bool
  pending : List (String × CallId)
  nextId : Nat
  calls : CallId → Option HostedCall
  replies : CallId → Cell (Except HostedError Json)
  connection : Nat
  given : List Given
  frames : List Written
  receipts : List Receipt

namespace Hosted

def spawn : Hosted where
  phase := .top
  stop := false
  state := .connecting
  events := []
  requests := []
  closed := false
  pending := []
  nextId := 1
  calls := fun _ => none
  replies := fun _ => .empty
  connection := 0
  given := []
  frames := []
  receipts := []

def setCall (t : Hosted) (i : CallId) (call : HostedCall) : Hosted := { t with calls := Function.update t.calls i (some call) }

/-- `reply.send(outcome)` -/
def reply (t : Hosted) (i : CallId) (outcome : Except HostedError Json) : Hosted :=
  { t with replies := send t.replies i outcome }

/-- The end of `session`, which drops `pending`, and what `run` does next. -/
def endSession (t : Hosted) (reason : String) : Hosted :=
  { t with
    pending := []
    replies := drop t.replies (t.pending.map Prod.snd)
    phase := .publishing (if t.stop then .stopped else .disconnected reason) }

/-- What `run` does after `publish_state`. -/
def goOn (t : Hosted) : HostedState → Hosted
  | .connecting => { t with phase := .connecting }
  | .connected _ => { t with phase := .session, pending := [], nextId := 1, connection := t.connection + 1 }
  | .disconnected _ => { t with phase := .backoff }
  | .stopped => { t with phase := .draining, closed := true }

/-- `session` writes the frame of a request, which gets the next id. -/
def write (t : Hosted) (i : CallId) (request : HostedRequest) : Hosted :=
  { t with
    nextId := t.nextId + 1
    frames := t.frames ++ [⟨t.connection, i, requestFrame (toString t.nextId) request⟩] }

def accept (t : Hosted) (i : CallId) (request : HostedRequest) : Hosted :=
  { t.write i request with
    pending := t.pending ++ [(toString t.nextId, i)]
    given := t.given ++ [⟨t.connection, toString t.nextId, i, request⟩] }

/-- `session` has read a frame. -/
def readFrame (t : Hosted) (frame : Json) : Hosted :=
  match textField "event" frame with
  | some kind => { t with phase := .forwarding kind ((frame.field "data").getD .null) }
  | none =>
    match textField "id" frame with
    | none => t.endSession "server sent an uncorrelated frame"
    | some id =>
      match t.pending.lookup id with
      | none => t
      | some i =>
        { t.reply i (responseOutcome frame) with
          pending := t.pending.filter fun entry => entry.1 ≠ id
          receipts := t.receipts ++ [⟨t.connection, id, i, frame⟩] }

end Hosted

/-! ## Steps -/

inductive HostedLabel where
  | call (i : CallId) (request : HostedRequest)
  | send (i : CallId)
  | finish (i : CallId) (outcome : Except HostedError Json)
  | stop
  /-- `run` or `session` goes on by itself. -/
  | run
  /-- `connect` returns. -/
  | connect (outcome : Except HostedError HostedAccount)
  /-- `session` takes a request from the queue. -/
  | accept
  /-- `session` reads a text. -/
  | frame (text : String)
  /-- The session ends because of the socket, or because it is to stop. -/
  | close (reason : String)
  | take (event : HostedEvent)

/-- One step of the transport, of a call or of the daemon that uses them. A timeout is noticed only while there is no
reply. The daemon consumes the events as long as there is a transport, so that `session` never finds their queue closed. -/
inductive HostedStep (fromStr : String → Option Json) : Hosted → HostedLabel → Hosted → Prop where
  | call {t : Hosted} {i : CallId} (request : HostedRequest) : t.calls i = none →
      HostedStep fromStr t (.call i request) (t.setCall i ⟨request, .sending⟩)
  | send {t : Hosted} {i : CallId} {request : HostedRequest} : t.calls i = some ⟨request, .sending⟩ → t.closed = false →
      t.requests.length < requestQueue →
      HostedStep fromStr t (.send i) { t.setCall i ⟨request, .waiting⟩ with requests := t.requests ++ [(i, request)] }
  | refuse {t : Hosted} {i : CallId} {request : HostedRequest} : t.calls i = some ⟨request, .sending⟩ → t.closed = true →
      HostedStep fromStr t (.finish i (.error .stopped)) (t.setCall i ⟨request, .finished (.error .stopped)⟩)
  | receive {t : Hosted} {i : CallId} {request : HostedRequest} {outcome : Except HostedError Json} :
      t.calls i = some ⟨request, .waiting⟩ → t.replies i = .sent outcome →
      HostedStep fromStr t (.finish i outcome) (t.setCall i ⟨request, .finished outcome⟩)
  | dropped {t : Hosted} {i : CallId} {request : HostedRequest} : t.calls i = some ⟨request, .waiting⟩ →
      t.replies i = .dropped →
      HostedStep fromStr t (.finish i (.error .disconnected)) (t.setCall i ⟨request, .finished (.error .disconnected)⟩)
  | timeout {t : Hosted} {i : CallId} {request : HostedRequest} : t.calls i = some ⟨request, .waiting⟩ →
      t.replies i = .empty →
      HostedStep fromStr t (.finish i (.error .timeout)) (t.setCall i ⟨request, .finished (.error .timeout)⟩)
  | stop (t : Hosted) : HostedStep fromStr t .stop { t with stop := true }
  | top {t : Hosted} : t.phase = .top →
      HostedStep fromStr t .run { t with phase := .publishing (if t.stop then .stopped else .connecting) }
  | watch {t : Hosted} {state : HostedState} : t.phase = .publishing state →
      HostedStep fromStr t .run { t with state := state, phase := .queueing state }
  | queue {t : Hosted} {state : HostedState} : t.phase = .queueing state → t.events.length < hostedEventQueue →
      HostedStep fromStr t .run (Hosted.goOn { t with events := t.events ++ [.state state] } state)
  | interrupt {t : Hosted} : t.phase = .connecting → t.stop = true →
      HostedStep fromStr t .run { t with phase := .publishing .stopped }
  | connect {t : Hosted} (account : HostedAccount) : t.phase = .connecting →
      HostedStep fromStr t (.connect (.ok account)) { t with phase := .publishing (.connected account) }
  | connectFails {t : Hosted} (error : HostedError) : t.phase = .connecting →
      HostedStep fromStr t (.connect (.error error))
        { t with phase := .publishing (if error = .stopped then .stopped else .disconnected error.text) }
  | wake {t : Hosted} : t.phase = .backoff → HostedStep fromStr t .run { t with phase := .top }
  | reject {t : Hosted} {i : CallId} {request : HostedRequest} {rest : List (CallId × HostedRequest)} : t.phase = .backoff →
      t.requests = (i, request) :: rest →
      HostedStep fromStr t .run { t.reply i (.error .disconnected) with requests := rest }
  | quit {t : Hosted} : t.phase = .backoff → t.stop = true →
      HostedStep fromStr t .run { t with phase := .publishing .stopped }
  | accept {t : Hosted} {i : CallId} {request : HostedRequest} {rest : List (CallId × HostedRequest)} : t.phase = .session →
      t.requests = (i, request) :: rest → HostedStep fromStr t .accept (Hosted.accept { t with requests := rest } i request)
  | acceptFails {t : Hosted} {i : CallId} {request : HostedRequest} {rest : List (CallId × HostedRequest)} :
      t.phase = .session → t.requests = (i, request) :: rest → HostedStep fromStr t .run
        ((Hosted.reply (Hosted.write { t with requests := rest } i request) i (.error .disconnected)).endSession "send failed")
  | frame {t : Hosted} {text : String} {frame : Json} : t.phase = .session → fromStr text = some frame →
      HostedStep fromStr t (.frame text) (t.readFrame frame)
  | malformed {t : Hosted} {text : String} : t.phase = .session → fromStr text = none →
      HostedStep fromStr t (.frame text) (t.endSession "server sent malformed JSON")
  | forward {t : Hosted} {kind : String} {data : Json} : t.phase = .forwarding kind data →
      t.events.length < hostedEventQueue →
      HostedStep fromStr t .run { t with phase := .session, events := t.events ++ [.server kind data] }
  | close {t : Hosted} (reason : String) : t.phase = .session → HostedStep fromStr t (.close reason) (t.endSession reason)
  | drain {t : Hosted} {i : CallId} {request : HostedRequest} {rest : List (CallId × HostedRequest)} : t.phase = .draining →
      t.requests = (i, request) :: rest →
      HostedStep fromStr t .run { t.reply i (.error .stopped) with requests := rest }
  | ended {t : Hosted} : t.phase = .draining → t.requests = [] → HostedStep fromStr t .run { t with phase := .ended }
  | take {t : Hosted} {event : HostedEvent} {rest : List HostedEvent} : t.events = event :: rest →
      HostedStep fromStr t (.take event) { t with events := rest }

end OmaChat.Daemon

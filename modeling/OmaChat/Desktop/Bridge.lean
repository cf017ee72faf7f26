import OmaChat.Lib.JsonText
import OmaChat.Lib.Run
import OmaChat.Proto.Ipc

/-!
# The desktop bridge

`bridge.py`: the session that carries the commands of the window to the daemon and its answers back. A method gives the
session that it leaves, or the exception that it raises; `run` ends with the first exception. Time is in milliseconds, and
what is emitted is collected in the session.
-/

namespace OmaChat.Desktop
open Wire

def limit : Nat := 65536

def topics : List String := ["status", "conversations", "messages", "delivery"]

def allowed : List String :=
  ["chat-prepare", "identity-show", "identity-generate", "identity-import", "contacts-add", "contacts-remove", "contacts-list",
   "relays-show", "relays-set", "send", "messages", "hosted-claim-handle", "hosted-resolve-handle", "hosted-bind-nostr",
   "hosted-unbind-nostr"]

def slow : List String := ["send", "relays-set", "contacts-add", "chat-prepare", "identity-generate", "identity-import"]

/-- The exceptions that `run` knows. -/
inductive Exception where
  | valueError (message : Json)
  | timeoutError (message : String)
  | typeError
  | attributeError

/-- `ValueError` with a text -/
def Exception.value (message : String) : Exception := .valueError (.str message)

def encode (value : Json) : Except Exception (List UInt8) :=
  if limit < value.render.utf8ByteSize then .error (.value "Request exceeds IPC size limit")
  else .ok (utf8 value.render ++ [10])

/-- An entry of `pending` -/
structure Pending where
  identity : String
  target : String
  deadline : Nat

structure Session where
  timeout : Nat := 5000
  pending : List Pending := []
  serial : Nat := 0
  output : List UInt8 := []
  ready : Bool := false
  events : List Json := []
  sequence : Int := -1
  emitted : List Json := []

namespace Session

/-- `emit` of `run` -/
def emit (s : Session) (value : Json) : Except Exception Session :=
  match encode value with
  | .error error => .error error
  | .ok _ => .ok { s with emitted := s.emitted ++ [value] }

def requestValue (serial : Nat) (method : String) (params : Option Json) : Json :=
  .obj ([("version", .num Proto.ipcVersion), ("id", .str (toString serial)), ("method", .str method)] ++
    (params.map fun params => ("params", params)).toList)

/-- `Session.request` -/
def request (s : Session) (now : Nat) (method : String) (params : Option Json) (target : String) (deadline : Option Nat) :
    Except Exception Session :=
  if 32 ≤ s.pending.length then .error (.value "Too many pending requests")
  else
    match encode (requestValue (s.serial + 1) method params) with
    | .error error => .error error
    | .ok data =>
      if limit * 2 < s.output.length + data.length then .error (.value "IPC write queue is full")
      else .ok { s with
        serial := s.serial + 1
        pending := s.pending ++ [⟨toString (s.serial + 1), target, now + deadline.getD s.timeout⟩]
        output := s.output ++ data }

/-- `Session.__init__` -/
def start (now : Nat) : Except Exception Session :=
  ({} : Session).request now "hello"
    (some (.obj [("minimum_version", .num Proto.ipcVersion), ("maximum_version", .num Proto.ipcVersion)])) "hello" none

/-- `value.get(key)`, with `None` for a missing key and for a null -/
def get (value : Json) (key : String) : Option Json :=
  match value.field key with
  | some .null => none
  | other => other

/-- The part of `Session.command` for a valid id -/
def forward (s : Session) (now : Nat) (identity : String) (value : Json) : Except Exception Session :=
  let refusal : Json := .obj [("kind", .str "response"), ("id", .str identity), ("ok", .bool false),
    ("error", .str "Daemon is not ready or command is unsupported")]
  if s.ready then
    match get value "method" with
    | some (.str method) =>
      if method ∈ allowed then
        s.request now method (get value "params") identity
          (if method ∈ slow ∨ "hosted-".toList <+: method.toList then some 30000 else none)
      else s.emit refusal
    | some (.arr _) | some (.obj _) => .error .typeError
    | _ => s.emit refusal
  else s.emit refusal

/-- `Session.command` -/
def command (s : Session) (now : Nat) (value : Json) : Except Exception Session :=
  match get value "id" with
  | some (.str identity) =>
    if "ui-".toList <+: identity.toList ∧ identity.length ≤ 64 then s.forward now identity value
    else .error (.value "Invalid UI request ID")
  | _ => .error (.value "Invalid UI request ID")

/-- The frame for the window when the answer to a request is received; the request for the target `hello` has none. -/
def frame (target : String) (ok : Bool) (result : Option Json) (error : Json) : Json :=
  if target = "snapshot" then .obj [("kind", .str "snapshot"), ("data", result.getD .null)]
  else if target = "prepare" then
    .obj [("kind", .str "identity"), ("ok", .bool ok), ("data", if ok then result.getD .null else .obj []),
      ("error", if ok then .str "" else error)]
  else
    .obj [("kind", .str "response"), ("id", .str target), ("ok", .bool ok), ("data", result.getD .null),
      ("error", if ok then .str "" else error)]

def isSnapshot (result : Option Json) : Bool :=
  match result with
  | some (.obj fields) => match (Json.obj fields).field "messages" with
    | some (.arr _) => true
    | _ => false
  | _ => false

def emitEvents (s : Session) : List Json → Except Exception Session
  | [] => .ok s
  | event :: rest =>
    match s.emit (.obj [("kind", .str "event"), ("data", event)]) with
    | .error error => .error error
    | .ok s => s.emitEvents rest

def prepare (s : Session) (now : Nat) : Except Exception Session :=
  match { s with ready := true }.emitEvents s.events with
  | .error error => .error error
  | .ok s => { s with events := [] }.request now "chat-prepare" none "prepare" (some 30000)

/-- The last part of `Session.receive`: the answer to a request that was pending. -/
def answered (s : Session) (now : Nat) (target : String) (ok : Bool) (result : Option Json) (error : Json) :
    Except Exception Session :=
  if target = "hello" then
    if ok then s.request now "subscribe" (some (.obj [("topics", Json.strings topics)])) "snapshot" none
    else .error (.valueError error)
  else if target = "snapshot" then
    if ok ∧ isSnapshot result then
      match s.emit (frame target ok result error) with
      | .error error => .error error
      | .ok s => s.prepare now
    else .error (.value "Daemon did not provide a chat snapshot")
  else s.emit (frame target ok result error)

/-- `value.get("error", {}).get("message", …)` -/
def errorMessage (value : Json) : Except Exception Json :=
  match value.field "error" with
  | none => .ok (.str "Daemon rejected the request")
  | some (.obj fields) => .ok (((Json.obj fields).field "message").getD (.str "Daemon rejected the request"))
  | some _ => .error .attributeError

/-- The first part of `Session.receive`: an event -/
def receiveEvent (s : Session) (topic : Json) (value : Json) : Except Exception Session := do
  let true := topics.any (topic = .str ·) | throw (.value "Invalid daemon event")
  let some (.obj _) := value.field "payload" | throw (.value "Invalid daemon event")
  let some (.num sequence) := value.field "sequence" | throw (.value "Invalid daemon event ordering")
  if (sequence : Int) ≤ s.sequence then throw (.value "Invalid daemon event ordering")
  let s := { s with sequence := sequence }
  if s.ready then s.emit (.obj [("kind", .str "event"), ("data", value)])
  else
    if 64 ≤ s.events.length then throw (.value "Snapshot event buffer overflow")
    pure { s with events := s.events ++ [value] }

/-- `self.pending.get(identity)` -/
def find (s : Session) (identity : String) : Option Pending := s.pending.find? (·.identity = identity)

/-- `self.pending.pop(identity)` -/
def pop (s : Session) (identity : String) : Session := { s with pending := s.pending.filter (·.identity ≠ identity) }

/-- The part of `Session.receive` for a response -/
def receiveResponse (s : Session) (now : Nat) (value : Json) : Except Exception Session :=
  let status := value.field "status"
  if status ≠ some (.str "ok") ∧ status ≠ some (.str "error") then
    .error (.value "Uncorrelated or malformed daemon response")
  else
    match value.field "id" with
    | some (.str identity) =>
      match s.find identity with
      | none => .error (.value "Uncorrelated or malformed daemon response")
      | some entry => do
        let error ← errorMessage value
        (s.pop identity).answered now entry.target (status = some (.str "ok")) (get value "result") error
    | some (.arr _) | some (.obj _) => .error .typeError
    | _ => .error (.value "Uncorrelated or malformed daemon response")

/-- `Session.receive` -/
def receive (s : Session) (now : Nat) (value : Json) : Except Exception Session :=
  if value.field "version" ≠ some (.num Proto.ipcVersion) then
    .error (.value "Incompatible daemon: desktop requires IPC v4")
  else
    match value.field "topic" with
    | some topic => s.receiveEvent topic value
    | none => s.receiveResponse now value

/-- The loop of `Session.check_deadlines` -/
def checkEach (s : Session) (now : Nat) : List Pending → Except Exception Session
  | [] => .ok s
  | entry :: rest =>
    if now < entry.deadline then s.checkEach now rest
    else if entry.target = "hello" ∨ entry.target = "snapshot" then .error (.timeoutError "Daemon request timed out")
    else
      match (s.pop entry.identity).emit (.obj [("kind", .str "response"), ("id", .str entry.target), ("ok", .bool false),
        ("unknown", .bool true), ("error", .str "The daemon did not answer in time. Check before repeating a send.")]) with
      | .error error => .error error
      | .ok s => s.checkEach now rest

/-- `Session.check_deadlines` -/
def checkDeadlines (s : Session) (now : Nat) : Except Exception Session := s.checkEach now s.pending

end Session

/-! ## Runs -/

/-- A session, the number of requests that the daemon has answered, and the requests that were given up. -/
structure Bridge where
  session : Session
  answered : Nat := 0
  expired : List String := []

inductive Label where
  | command (now : Nat) (value : Json)
  | check (now : Nat)
  | flush (count : Nat)
  | respond (now : Nat) (outcome : Proto.ResponseOutcome)

namespace Bridge

def next (b : Bridge) : String := toString (b.answered + 1)

def answer (b : Bridge) (outcome : Proto.ResponseOutcome) : Json := Proto.Response.json ⟨Proto.ipcVersion, b.next, outcome⟩

/-- A step, unless it raises an exception. The daemon answers the requests in order. -/
def step (b : Bridge) : Label → Option Bridge
  | .command now value => (b.session.command now value).toOption.map fun s => { b with session := s }
  | .check now => (b.session.checkDeadlines now).toOption.map fun s =>
    { b with
      session := s
      expired := b.expired ++ (b.session.pending.map Pending.identity).filter (· ∉ s.pending.map Pending.identity) }
  | .flush count => some { b with session := { b.session with output := b.session.output.drop count } }
  | .respond now outcome =>
    if b.answered < b.session.serial then
      (b.session.receive now (b.answer outcome)).toOption.map fun s => { b with session := s, answered := b.answered + 1 }
    else none

end Bridge

end OmaChat.Desktop

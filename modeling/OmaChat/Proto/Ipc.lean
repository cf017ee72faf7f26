import OmaChat.Lib.Json

/-!
# The daemon's line protocol

The events and responses of `ipc.rs` and the line that `encode_line` makes of them.
-/

namespace OmaChat.Proto
open Wire

/-- `VERSION` -/
def ipcVersion : Nat := 4

def maxLineBytes : Nat := 64 * 1024

inductive Topic where
  | status
  | conversations
  | messages
  | presence
  | delivery
  deriving DecidableEq

def Topic.name : Topic → String
  | .status => "status"
  | .conversations => "conversations"
  | .messages => "messages"
  | .presence => "presence"
  | .delivery => "delivery"

structure Event where
  version : Nat
  sequence : UInt64
  topic : Topic
  payload : Json

/-- `ErrorCode` of `ipc.rs` -/
inductive IpcErrorCode where
  | invalidRequest
  | versionMismatch
  | notFound
  | conflict
  | unavailable
  | internal
  deriving DecidableEq

def IpcErrorCode.name : IpcErrorCode → String
  | .invalidRequest => "invalid-request"
  | .versionMismatch => "version-mismatch"
  | .notFound => "not-found"
  | .conflict => "conflict"
  | .unavailable => "unavailable"
  | .internal => "internal"

inductive ResponseOutcome where
  | ok (result : Json)
  | error (code : IpcErrorCode) (message : String)

structure Response where
  version : Nat
  id : String
  outcome : ResponseOutcome

def Event.json (event : Event) : Json :=
  .obj [("version", .num event.version), ("sequence", .num event.sequence.toNat), ("topic", .str event.topic.name),
    ("payload", event.payload)]

/-- The serialized form of a response: the outcome is flattened into it. -/
def Response.json (response : Response) : Json :=
  .obj ([("version", .num response.version), ("id", .str response.id)] ++
    match response.outcome with
    | .ok result => [("status", .str "ok"), ("result", result)]
    | .error code message =>
      [("status", .str "error"), ("error", .obj [("code", .str code.name), ("message", .str message)])])

/-- `encode_line`: the compact text and a line feed, or nothing if the text is longer than a line may be. -/
def encodeLine (message : Json) : Option String :=
  if maxLineBytes < (Json.render message).utf8ByteSize then none else some (Json.render message ++ "\n")

end OmaChat.Proto

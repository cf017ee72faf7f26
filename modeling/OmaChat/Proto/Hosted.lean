import OmaChat.Lib.Json

/-!
# The hosted protocol

The errors of `hosted.rs`, the names that it accepts, the frames of the server, and the transcripts that are signed: to
open a connection, to authenticate, and to bind or unbind a Nostr key.
-/

namespace OmaChat.Proto
open Wire

inductive ErrorCode where
  | unsupportedVersion
  | invalidRequest
  | notAuthenticated
  | alreadyAuthenticated
  | invalidSignature
  | invalidHandle
  | handleTaken
  | handleAlreadySet
  | invalidName
  | nostrPubkeyTaken
  | replayedProof
  | notFound
  | tooLarge
  | rateLimited
  | storage
  | internal
  deriving DecidableEq

def ErrorCode.name : ErrorCode → String
  | .unsupportedVersion => "unsupported-version"
  | .invalidRequest => "invalid-request"
  | .notAuthenticated => "not-authenticated"
  | .alreadyAuthenticated => "already-authenticated"
  | .invalidSignature => "invalid-signature"
  | .invalidHandle => "invalid-handle"
  | .handleTaken => "handle-taken"
  | .handleAlreadySet => "handle-already-set"
  | .invalidName => "invalid-name"
  | .nostrPubkeyTaken => "nostr-pubkey-taken"
  | .replayedProof => "replayed-proof"
  | .notFound => "not-found"
  | .tooLarge => "too-large"
  | .rateLimited => "rate-limited"
  | .storage => "storage"
  | .internal => "internal"

structure ServerError where
  code : ErrorCode
  message : String
  deriving DecidableEq

def protocolVersion : Nat := 1

def maxFrameBytes : Nat := 16 * 1024

def maxRequestIdBytes : Nat := 64

def maxNameBytes : Nat := 64

def eventLagged : String := "lagged"

def nostrProofSkewSeconds : UInt64 := 300

def authDomain : List UInt8 := utf8 "omachat-server-auth-v1" ++ [0]

def helloDomain : List UInt8 := utf8 "omachat-server-hello-v1" ++ [0]

def nostrBindDomain : List UInt8 := utf8 "omachat-nostr-bind-v1" ++ [0]

def nostrUnbindDomain : List UInt8 := utf8 "omachat-nostr-unbind-v1" ++ [0]

def helloTranscript (challenge devicePublicKey : Bytes 32) : List UInt8 := helloDomain ++ challenge.val ++ devicePublicKey.val

def authTranscript (serverPublicKey challenge devicePublicKey : Bytes 32) : List UInt8 :=
  authDomain ++ serverPublicKey.val ++ challenge.val ++ devicePublicKey.val

/-- `push_str`: the length as two bytes, and as much of the text as the length counts. -/
def pushStr (value : String) : List UInt8 :=
  let length := if value.utf8ByteSize ≤ 65535 then value.utf8ByteSize else 65535
  beBytes 2 length ++ (utf8 value).take length

def proofTranscript (domain : List UInt8) (serverPublicKey : Bytes 32) (accountId handle : String)
    (nostrPublicKey nonce : Bytes 32) (timestamp : UInt64) : List UInt8 :=
  domain ++ serverPublicKey.val ++ pushStr accountId ++ pushStr handle ++ nostrPublicKey.val ++ nonce.val ++
    beBytes 8 timestamp.toNat

def nostrBindTranscript := proofTranscript nostrBindDomain

def nostrUnbindTranscript := proofTranscript nostrUnbindDomain

/-! ## Names -/

def validateName (value : String) : Except ServerError String :=
  if value = "" ∨ maxNameBytes < value.utf8ByteSize ∨ trim value ≠ value ∨ value.toList.any isControl then
    .error ⟨.invalidName, "names are 1 to 64 bytes without control characters or surrounding whitespace"⟩
  else .ok value

/-! ## Frames -/

/-- The value that `success_frame` renders. -/
def successReply (id : String) (result : Json) : Json :=
  .object [("version", .num protocolVersion), ("id", .str id), ("ok", .bool true), ("result", result)]

def successFrame (id : String) (result : Json) : String := (successReply id result).render

/-- The value that `failure_frame` renders. -/
def failureReply (id : String) (error : ServerError) : Json :=
  .object [("version", .num protocolVersion), ("id", .str id), ("ok", .bool false),
    ("error", .object [("code", .str error.code.name), ("message", .str error.message)])]

def failureFrame (id : String) (error : ServerError) : String := (failureReply id error).render

def eventFrame (kind : String) (data : Json) : String :=
  (Json.object [("version", .num protocolVersion), ("event", .str kind), ("data", data)]).render

theorem successReply_fields (id : String) (result : Json) : successReply id result =
    .obj [("id", .str id), ("ok", .bool true), ("result", result), ("version", .num protocolVersion)] := by
  simp [successReply, Json.object, Json.insertField, Json.keyLt]

theorem failureReply_fields (id : String) (error : ServerError) : failureReply id error =
    .obj [("error", .obj [("code", .str error.code.name), ("message", .str error.message)]), ("id", .str id),
      ("ok", .bool false), ("version", .num protocolVersion)] := by
  simp [failureReply, Json.object, Json.insertField, Json.keyLt]

theorem utf8ByteSize_successFrame (id : String) (result : Json) :
    (successFrame id result).utf8ByteSize = 41 + Json.escapedSize id + result.size := by
  have hkeys : Json.escapedSize "version" = 7 ∧ Json.escapedSize "id" = 2 ∧ Json.escapedSize "ok" = 2 ∧
      Json.escapedSize "result" = 6 ∧ (Json.num protocolVersion).size = 1 ∧ (Json.bool true).size = 4 := by decide
  rw [successFrame, Json.utf8ByteSize_render, successReply_fields]
  simp [Json.size_obj, Json.fieldSize, Json.size_str]
  omega

theorem escapedSize_name (code : ErrorCode) : Json.escapedSize code.name ≤ 21 := by
  cases code <;> decide

theorem utf8ByteSize_failureFrame (id : String) (error : ServerError) :
    (failureFrame id error).utf8ByteSize =
      65 + Json.escapedSize id + Json.escapedSize error.code.name + Json.escapedSize error.message := by
  have hkeys : Json.escapedSize "version" = 7 ∧ Json.escapedSize "id" = 2 ∧ Json.escapedSize "ok" = 2 ∧
      Json.escapedSize "error" = 5 ∧ Json.escapedSize "code" = 4 ∧ Json.escapedSize "message" = 7 ∧
      (Json.num protocolVersion).size = 1 ∧ (Json.bool false).size = 5 := by decide
  rw [failureFrame, Json.utf8ByteSize_render, failureReply_fields]
  simp [Json.size_obj, Json.fieldSize, Json.size_str]
  omega

end OmaChat.Proto

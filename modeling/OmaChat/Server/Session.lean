import OmaChat.Server.Service

/-!
# Sessions

`session.rs` speaks the hosted protocol over one WebSocket connection. `authenticate` asks for a hello, answers it with a
challenge, verifies the signature of the device and registers it; `serve` then passes the requests of the client to the
service, for the account and the device that authenticated; `run` is the whole connection.

A session is a program over `SessionCall`. What is awaited under a timeout is answered by nothing if the time passes
first. The loops of the source have no bound, so a program goes round them `fuel` times and then awaits an answer that never
comes: everything that a session does, up to any moment, is what such a program does for some `fuel`.
-/

namespace OmaChat.Server
open Wire Effects Proto

/-! ## Calls -/

inductive Message where
  | text (text : String)
  | binary (payload : Blob)
  | ping (payload : Blob)
  | pong (payload : Blob)
  | close
  | frame
  deriving DecidableEq

/-- What a session awaits: the WebSocket handshake, the next message, a message that is sent, and an answer of the
service. -/
inductive Io where
  | accept
  | next
  | send (message : Message)
  | call (request : ServiceRequest)
  deriving DecidableEq

/-- The outcome of what is awaited. An error of the WebSocket library is its text. -/
@[reducible] def Io.Answer : Io → Type
  | .accept => Except String Unit
  | .next => Option (Except String Message)
  | .send _ => Except String Unit
  | .call _ => Except ServerError Json

/-- The branch of `select!` in `serve` that is ready first. `changed` has an error without its sender, and the inbox ends
with its own. -/
inductive Turn where
  | shutdown (changed : Option Bool)
  | inbox (frame : Option String)
  | message (next : Option (Except String Message))
  | tick

inductive SessionCall where
  /-- `.await` -/
  | await (io : Io)
  /-- `timeout(..).await` -/
  | within (io : Io)
  | select
  | lagged
  /-- `socket.close(None)`, whose outcome is ignored. -/
  | close
  | randomChallenge
  | unixNow
  /-- `Instant::now`, in nanoseconds -/
  | instant
  /-- What lies beyond the fuel. -/
  | pending
  deriving DecidableEq

@[reducible] def SessionCall.Answer : SessionCall → Type
  | .await io => io.Answer
  | .within io => Option io.Answer
  | .select => Turn
  | .lagged => Bool
  | .close => Unit
  | .randomChallenge => Option (Bytes 32)
  | .unixNow => UInt64
  | .instant => Nat
  | .pending => Empty

/-! ## The state of a session -/

inductive SessionError where
  | admissionTimeout
  | authenticationTimeout
  | webSocket (error : String)
  | service (error : ServerError)
  | randomness
  | malformedRegistration
  deriving DecidableEq

inductive CloseReason where
  | clientClosed
  | protocolViolation
  | authenticationFailed
  | idle
  | lagged
  | shutdown
  | failed
  deriving DecidableEq

structure SessionReport where
  authenticated : Bool := false
  requests : UInt64 := 0
  reason : CloseReason := .clientClosed
  error : Option SessionError := none
  deriving DecidableEq

/-- A part of a session, which writes its report. -/
abbrev SessionMethod (α : Type) : Type := Method SessionCall.Answer SessionReport SessionError α

/-- `SessionLimits`, in nanoseconds and requests. The other two timeouts are those of `SessionCall.within`. -/
structure SessionLimits where
  idleTimeout : Nat
  requestsPerSecond : UInt32
  requestBurst : UInt32

/-- `ServerIdentity`: the public key, and what its signing key signs. -/
structure ServerIdentity where
  publicKey : Bytes 32
  sign : Blob → Bytes 64

def ServerIdentity.signHello (identity : ServerIdentity) (challenge devicePublicKey : Bytes 32) : Bytes 64 :=
  identity.sign (helloTranscript challenge devicePublicKey)

/-- `SessionContext`, without the channels that are calls here. -/
structure SessionContext where
  identity : ServerIdentity
  limits : SessionLimits
  sessionId : UInt64

structure Authenticated where
  accountId : String
  devicePublicKey : Bytes 32
  deriving DecidableEq

inductive Handshake where
  | authenticated (authenticated : Authenticated)
  | close
  deriving DecidableEq

inductive RequestLoop where
  | continue
  | close
  deriving DecidableEq

/-! ## What a session asks of the world -/

/-- `io.await` -/
def await (io : Io) : SessionMethod io.Answer := Method.request (SessionCall.await io)

/-- `timeout(.., io).await`, where the time passing is the given error. -/
def within (timeout : SessionError) (io : Io) : SessionMethod io.Answer := do
  let answer : Option io.Answer ← Method.request (SessionCall.within io)
  match answer with
  | some answer => pure answer
  | none => Method.throw timeout

/-- What is awaited in `authenticate`. -/
def inTime (io : Io) : SessionMethod io.Answer := within .authenticationTimeout io

/-- The turn of `select!` in `serve` -/
def select : SessionMethod Turn := Method.request SessionCall.select

/-- `lagged.load(Ordering::SeqCst)` -/
def isLagged : SessionMethod Bool := Method.request SessionCall.lagged

/-- `let _ = socket.close(None).await` -/
def closeSocket : SessionMethod Unit := Method.request SessionCall.close

/-- `random_challenge().map_err(|_| SessionError::Randomness)?` -/
def randomChallenge : SessionMethod (Bytes 32) := do
  let drawn : Option (Bytes 32) ← Method.request SessionCall.randomChallenge
  match drawn with
  | some challenge => pure challenge
  | none => Method.throw .randomness

def unixNow : SessionMethod UInt64 := Method.request SessionCall.unixNow

/-- `Instant::now` -/
def instant : SessionMethod Nat := Method.request SessionCall.instant

def pending {α : Type} : SessionMethod α := do
  let never : Empty ← Method.request SessionCall.pending
  nomatch never

/-! ## The token bucket -/

structure TokenBucket where
  tokens : UInt32
  capacity : UInt32
  perSecond : UInt32
  refilled : Nat
  deriving DecidableEq

/-- `TokenBucket::new` at the given instant -/
def TokenBucket.new (capacity perSecond : UInt32) (created : Nat) : TokenBucket := ⟨capacity, capacity, perSecond, created⟩

/-- `u32::try_from(refill).unwrap_or(u32::MAX)` -/
def clampU32 (n : Nat) : Nat := min n (2 ^ 32 - 1)

/-- `tokens.saturating_add(refill).min(capacity)` -/
def TokenBucket.topUp (bucket : TokenBucket) (refill : Nat) : UInt32 :=
  UInt32.ofNat (min (clampU32 (bucket.tokens.toNat + clampU32 refill)) bucket.capacity.toNat)

/-- The tokens that have come in at the instant `now`. -/
def TokenBucket.refill (bucket : TokenBucket) (now : Nat) : Nat :=
  (now - bucket.refilled) / 1000000 * bucket.perSecond.toNat / 1000

/-- The end of `TokenBucket::take`. -/
def TokenBucket.spend (bucket : TokenBucket) : Bool × TokenBucket :=
  if bucket.tokens = 0 then (false, bucket) else (true, { bucket with tokens := bucket.tokens - 1 })

def TokenBucket.take (bucket : TokenBucket) : SessionMethod (Bool × TokenBucket) := do
  let now ← instant
  let refill := bucket.refill now
  if 0 < refill then
    let refilled ← instant
    pure { bucket with tokens := bucket.topUp refill, refilled := refilled }.spend
  else
    pure bucket.spend

/-! ## Requests and frames -/

structure Request where
  version : UInt16
  id : String
  command : Command
  deriving DecidableEq

/-- `parse_request`, for the parser of the JSON library, whose error is a text. -/
def parseRequest (fromStr : String → Except String Request) (text : String) : Except ServerError Request :=
  match fromStr text with
  | .error error => .error ⟨.invalidRequest, "request is not a valid protocol frame: " ++ error⟩
  | .ok request =>
    if request.id = "" ∨ maxRequestIdBytes < request.id.utf8ByteSize then
      .error ⟨.invalidRequest, "id is 1 to 64 bytes"⟩
    else .ok request

/-- `socket.send(..).await.map_err(SessionError::WebSocket)?` -/
def send (await : (io : Io) → SessionMethod io.Answer) (message : Message) : SessionMethod Unit := do
  let sent ← await (.send message)
  Method.ofExcept (Except.mapError .webSocket sent)

def sendText (await : (io : Io) → SessionMethod io.Answer) (frame : String) : SessionMethod Unit :=
  if maxFrameBytes < frame.utf8ByteSize then
    Method.throw (.service ⟨.tooLarge, "outgoing frame exceeds wire budget"⟩)
  else send await (.text frame)

/-- `report.reason = reason` -/
def closing (reason : CloseReason) : SessionMethod Unit := Method.modify fun report => { report with reason := reason }

/-- `report.requests += 1` -/
def countRequest : SessionMethod Unit := Method.modify fun report => { report with requests := report.requests + 1 }

/-- Tell the client an error, and note why the connection closes. -/
def refuse {α : Type} (id : String) (error : ServerError) (reason : CloseReason) (result : α) : SessionMethod α := do
  sendText inTime (failureFrame id error)
  closing reason
  pure result

/-- The error for a request of another version. -/
def unsupportedVersion : ServerError :=
  ⟨.unsupportedVersion, "only protocol version " ++ toString protocolVersion ++ " is supported"⟩

/-- The error for a message that is not a text. -/
def onlyText : ServerError := ⟨.invalidRequest, "only JSON text frames are accepted"⟩

/-! ## The handshake -/

/-- `verify_device_signature(..).is_ok()` -/
def verifyDeviceSignature (v : Verifier) (serverPublicKey challenge devicePublicKey : Bytes 32) (signature : Bytes 64) :
    Bool :=
  v.deviceKeyValid devicePublicKey &&
    v.deviceVerifies devicePublicKey (authTranscript serverPublicKey challenge devicePublicKey) signature

/-- `value.get("account_id").and_then(Value::as_str)` -/
def accountIdOf (value : Json) : Option String :=
  match value.field "account_id" with
  | some (.str accountId) => some accountId
  | _ => none

section Session
variable (v : Verifier) (fromStr : String → Except String Request) (context : SessionContext)

def nextRequest : Nat → SessionMethod (Option (String × Command))
  | 0 => pending
  | fuel + 1 => do
    match ← inTime .next with
    | none => do
      closing .clientClosed
      pure none
    | some message => do
      match ← Method.ofExcept (Except.mapError .webSocket message) with
      | .text text => do
        countRequest
        match parseRequest fromStr text with
        | .ok request =>
          if request.version.toNat = protocolVersion then pure (some (request.id, request.command))
          else refuse request.id unsupportedVersion .protocolViolation none
        | .error error => refuse "" error .protocolViolation none
      | .ping payload => do
        send inTime (.pong payload)
        nextRequest fuel
      | .pong _ => nextRequest fuel
      | .close => do
        closing .clientClosed
        pure none
      | .binary _ | .frame => refuse "" onlyText .protocolViolation none

/-- The end of `authenticate`: the device that signed the challenge is registered. -/
def registerDevice (authId : String) (devicePublicKey : Bytes 32) (displayName : Option String) :
    SessionMethod Handshake := do
  let now ← unixNow
  match ← inTime (.call (.register devicePublicKey displayName now)) with
  | .ok result => do
    let accountId ← Method.ofExcept (match accountIdOf result with
      | some accountId => .ok accountId
      | none => .error .malformedRegistration)
    sendText inTime (successFrame authId result)
    pure (.authenticated ⟨accountId, devicePublicKey⟩)
  | .error error => refuse authId error .authenticationFailed .close

/-- The second request of `authenticate`: the signature of the challenge. -/
def answerChallenge (fuel : Nat) (devicePublicKey challenge : Bytes 32) : SessionMethod Handshake := do
  match ← nextRequest fromStr fuel with
  | none => pure .close
  | some (authId, .authenticate signature displayName) =>
    if (decodeFixed 64 signature).any
        (verifyDeviceSignature v context.identity.publicKey challenge devicePublicKey) then
      registerDevice authId devicePublicKey displayName
    else
      refuse authId ⟨.invalidSignature, "the challenge signature did not verify for this device key"⟩
        .authenticationFailed .close
  | some (authId, _) =>
    refuse authId ⟨.notAuthenticated, "send authenticate before any other request"⟩ .protocolViolation .close

def helloResult (challenge devicePublicKey : Bytes 32) : Json :=
  .object [("version", .num protocolVersion), ("challenge", .str (hexEncode challenge.val)),
    ("server_public_key", .str (hexEncode context.identity.publicKey.val)),
    ("server_signature", .str (hexEncode (context.identity.signHello challenge devicePublicKey).val))]

/-- The challenge in `authenticate`, for the device of the hello. -/
def challengeDevice (fuel : Nat) (helloId : String) (devicePublicKey : Bytes 32) : SessionMethod Handshake := do
  let challenge ← randomChallenge
  sendText inTime (successFrame helloId (helloResult context challenge devicePublicKey))
  answerChallenge v fromStr context fuel devicePublicKey challenge

def authenticate (fuel : Nat) : SessionMethod Handshake := do
  match ← nextRequest fromStr fuel with
  | none => pure .close
  | some (helloId, .hello minimumVersion maximumVersion devicePublicKey) =>
    if protocolVersion < minimumVersion.toNat ∨ maximumVersion.toNat < protocolVersion then
      refuse helloId ⟨.unsupportedVersion, "this server speaks protocol version " ++ toString protocolVersion⟩
        .protocolViolation .close
    else
      match decodeFixed 32 devicePublicKey with
      | some devicePublicKey => challengeDevice v fromStr context fuel helloId devicePublicKey
      | none =>
        refuse helloId ⟨.invalidRequest, "device_public_key must be 64 hex characters"⟩ .protocolViolation .close
  | some (helloId, _) =>
    refuse helloId ⟨.notAuthenticated, "send hello before any other request"⟩ .protocolViolation .close

/-! ## An authenticated session -/

/-- The frame that answers a request that the service answered. -/
def responseFrame (id : String) : Except ServerError Json → String
  | .ok value =>
    let frame := successFrame id value
    if frame.utf8ByteSize ≤ maxFrameBytes then frame
    else failureFrame id ⟨.tooLarge, "response exceeds frame budget; use a paged request"⟩
  | .error error => failureFrame id error

def handleRequest (authenticated : Authenticated) (bucket : TokenBucket) (text : String) :
    SessionMethod (RequestLoop × TokenBucket) := do
  match parseRequest fromStr text with
  | .error error => do
    sendText await (failureFrame "" error)
    pure (.close, bucket)
  | .ok request =>
    if request.version.toNat ≠ protocolVersion then do
      sendText await (failureFrame request.id unsupportedVersion)
      pure (.continue, bucket)
    else do
      let (granted, bucket) ← bucket.take
      if !granted then do
        sendText await (failureFrame request.id ⟨.rateLimited, "slow down and retry"⟩)
        pure (.continue, bucket)
      else do
        let now ← unixNow
        let result ← await (.call (.command authenticated.accountId authenticated.devicePublicKey request.command now))
        sendText await (responseFrame request.id result)
        pure (.continue, bucket)

/-- `serve`, from a turn of its loop on -/
def serve (authenticated : Authenticated) : Nat → TokenBucket → (lastActivity : Nat) → SessionMethod Unit
  | 0, _, _ => pending
  | fuel + 1, bucket, lastActivity => do
    match ← select with
    | .shutdown changed =>
      if changed ≠ some false then closing .shutdown else serve authenticated fuel bucket lastActivity
    | .inbox none => closing .shutdown
    | .inbox (some frame) => do
      sendText await frame
      if ← isLagged then
        sendText await (eventFrame eventLagged
          (.object [("message", .str "events were dropped; reload conversations and history")]))
        closing .lagged
      else serve authenticated fuel bucket lastActivity
    | .message none => closing .clientClosed
    | .message (some message) => do
      let lastActivity ← instant
      match ← Method.ofExcept (Except.mapError .webSocket message) with
      | .text text => do
        countRequest
        match ← handleRequest fromStr authenticated bucket text with
        | (.close, _) => closing .protocolViolation
        | (.continue, bucket) => serve authenticated fuel bucket lastActivity
      | .ping payload => do
        send await (.pong payload)
        serve authenticated fuel bucket lastActivity
      | .pong _ => serve authenticated fuel bucket lastActivity
      | .close => closing .clientClosed
      | .binary _ | .frame => do
        sendText await (failureFrame "" onlyText)
        closing .protocolViolation
    | .tick => do
      let now ← instant
      if context.limits.idleTimeout ≤ now - lastActivity then closing .idle
      else serve authenticated fuel bucket lastActivity

/-- The part of `run` after the handshake. -/
def runAuthenticated (fuel : Nat) (authenticated : Authenticated) : SessionMethod Unit := do
  Method.modify fun report => { report with authenticated := true }
  let attached ← await (.call (.attach authenticated.accountId context.sessionId))
  let _ ← Method.ofExcept (Except.mapError .service attached)
  let refilled ← instant
  let lastActivity ← instant
  let limits := context.limits
  let outcome ← Method.attempt <| serve fromStr context authenticated fuel
    (.new limits.requestBurst limits.requestsPerSecond refilled) lastActivity
  let _ ← await (.call (.detach authenticated.accountId context.sessionId))
  closeSocket
  Method.ofExcept outcome

def run (fuel : Nat) : SessionMethod Unit := do
  let accepted ← within .admissionTimeout .accept
  Method.ofExcept (Except.mapError .webSocket accepted)
  match ← Method.attempt (authenticate v fromStr context fuel) with
  | .ok (.authenticated authenticated) => runAuthenticated fromStr context fuel authenticated
  | .ok .close => closeSocket
  | .error .authenticationTimeout => do
    closeSocket
    Method.throw .authenticationTimeout
  | .error error => Method.throw error

def runSession (fuel : Nat) : Prog SessionCall.Answer SessionReport :=
  (run v fromStr context fuel {}).bind fun
    | (.ok _, report) => .ret report
    | (.error error, report) => .ret { report with reason := .failed, error := some error }

end Session

end OmaChat.Server

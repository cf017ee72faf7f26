import OmaChat.Lib.JsonText
import OmaChat.Nostr.Event

/-!
# The frames between a client and a relay

`frame.rs`: what a client writes to a relay and what it reads from one. A frame is a JSON array; a `FrameLibrary` has the
JSON parser and the reader of an event that is a part of a frame.
-/

namespace OmaChat.Nostr
open Wire

structure FrameLimits where
  maxFrameBytes : Nat := 512 * 1024
  maxSubscriptionIdBytes : Nat := 64
  maxMessageBytes : Nat := 4 * 1024
  maxFilters : Nat := 16

/-- `FrameError`. The error of the JSON parser is not kept. -/
inductive FrameError where
  | json
  | event (error : EventError)
  | frameTooLarge (bytes maximum : Nat)
  | invalidSubscriptionId
  | invalidEventId
  | messageTooLarge (bytes maximum : Nat)
  | invalidFilterCount (count maximum : Nat)
  | filterMustBeObject
  deriving DecidableEq

/-! ## Checks -/

def validateFrameSize (bytes : Nat) (limits : FrameLimits) : Except FrameError Unit :=
  if limits.maxFrameBytes < bytes then .error (.frameTooLarge bytes limits.maxFrameBytes) else .ok ()

def validateSubscriptionId (value : String) (limits : FrameLimits) : Except FrameError Unit :=
  if value = "" ∨ limits.maxSubscriptionIdBytes < value.utf8ByteSize ∨ value.toList.any isControl then
    .error .invalidSubscriptionId
  else .ok ()

def validateMessage (value : String) (limits : FrameLimits) : Except FrameError Unit :=
  if limits.maxMessageBytes < value.utf8ByteSize then
    .error (.messageTooLarge value.utf8ByteSize limits.maxMessageBytes)
  else .ok ()

def validateHexId (value : String) : Except FrameError Unit :=
  if value.utf8ByteSize = 64 ∧ (utf8 value).all isLowerHex then .ok () else .error .invalidEventId

def isObject : Json → Bool
  | .obj _ => true
  | _ => false

/-! ## What a client writes -/

inductive ClientFrame where
  | event (signed : SignedEvent)
  | request (subscriptionId : String) (filters : List Json)
  | close (subscriptionId : String)
  | auth (signed : SignedEvent)
  deriving DecidableEq

/-- The JSON of a frame, once it has passed its own checks. -/
def ClientFrame.json (limits : FrameLimits) : ClientFrame → Except FrameError Json
  | .event signed => .ok (.arr [.str "EVENT", signed.json])
  | .request subscriptionId filters => do
    validateSubscriptionId subscriptionId limits
    if filters = [] ∨ limits.maxFilters < filters.length then
      .error (.invalidFilterCount filters.length limits.maxFilters)
    else if filters.any fun filter => !isObject filter then .error .filterMustBeObject
    else .ok (.arr (.str "REQ" :: .str subscriptionId :: filters))
  | .close subscriptionId => do
    validateSubscriptionId subscriptionId limits
    .ok (.arr [.str "CLOSE", .str subscriptionId])
  | .auth signed => .ok (.arr [.str "AUTH", signed.json])

def ClientFrame.toJson (frame : ClientFrame) (limits : FrameLimits) : Except FrameError String := do
  let json ← frame.json limits
  let text := json.render
  validateFrameSize text.utf8ByteSize limits
  .ok text

/-! ## What a relay writes -/

/-- `RelayFrame`, and before its checks `WireRelayFrame`. -/
inductive RelayFrame where
  | event (subscriptionId : String) (signed : SignedEvent)
  | endOfStoredEvents (subscriptionId : String)
  | ok (eventId : String) (accepted : Bool) (message : String)
  | closed (subscriptionId message : String)
  | notice (message : String)
  | authChallenge (challenge : String)
  deriving DecidableEq

structure FrameLibrary where
  /-- `serde_json::from_slice` -/
  fromSlice : List UInt8 → Option Json
  eventOf : Json → Option SignedEvent

/-- `WireRelayFrameVisitor::visit_seq` -/
def wireRelayFrame (library : FrameLibrary) : Json → Option RelayFrame
  | .arr [.str "EVENT", .str subscriptionId, signed] => (library.eventOf signed).map (.event subscriptionId)
  | .arr [.str "EOSE", .str subscriptionId] => some (.endOfStoredEvents subscriptionId)
  | .arr [.str "OK", .str eventId, .bool accepted, .str message] => some (.ok eventId accepted message)
  | .arr [.str "CLOSED", .str subscriptionId, .str message] => some (.closed subscriptionId message)
  | .arr [.str "NOTICE", .str message] => some (.notice message)
  | .arr [.str "AUTH", .str challenge] => some (.authChallenge challenge)
  | _ => none

/-- The checks of `RelayFrame::from_json` on a frame that was read. -/
def RelayFrame.validate (p : Primitives) (now : UInt64) (eventLimits : EventLimits) (frameLimits : FrameLimits) :
    RelayFrame → Except FrameError Unit
  | .event subscriptionId signed => do
    validateSubscriptionId subscriptionId frameLimits
    (signed.verify p now eventLimits).mapError .event
  | .endOfStoredEvents subscriptionId => validateSubscriptionId subscriptionId frameLimits
  | .ok eventId _ message => do
    validateHexId eventId
    validateMessage message frameLimits
  | .closed subscriptionId message => do
    validateSubscriptionId subscriptionId frameLimits
    validateMessage message frameLimits
  | .notice message => validateMessage message frameLimits
  | .authChallenge challenge => validateMessage challenge frameLimits

def RelayFrame.fromJson (library : FrameLibrary) (p : Primitives) (bytes : List UInt8) (now : UInt64)
    (eventLimits : EventLimits) (frameLimits : FrameLimits) : Except FrameError RelayFrame := do
  validateFrameSize bytes.length frameLimits
  match (library.fromSlice bytes).bind (wireRelayFrame library) with
  | none => .error .json
  | some frame => do
    frame.validate p now eventLimits frameLimits
    .ok frame

end OmaChat.Nostr

import OmaChat.Lib.Tasks
import OmaChat.Server.Session

/-!
# What a session asks of the service

A session asks the service to register a device only after that device signed the challenge of this connection, and it
asks for anything else only as the device and the account that it registered.

* `history` : what happened on a connection, from the log of its calls: the texts of the client, the challenges, the frames
  that were sent, and the requests to the service;
* `DeviceProof` : the history of a handshake, with the checks that it passed;
* `Established` : a history that begins with a handshake and the registration that returned the account;
* `Authorized` : the requests that a history allows;
* `session_requests_authorized` : a session makes only requests that the history of its connection allows.
-/

namespace OmaChat.Server
open Wire Effects Proto
open Method (holds_bind holds_modify holds_ofExcept holds_pure yields_bind yields_ofExcept yields_pure yields_request
  yields_throw)

variable {account : String} {call : SessionCall} {device : Bytes 32} {α : Type}

/-! ## The history of a connection -/

/-- What happens on a connection. A request of the session to the service has no answer if the time passed first. -/
inductive Happening where
  | received (text : String)
  | challenged (challenge : Bytes 32)
  | sent (frame : String)
  | asked (request : ServiceRequest) (answer : Option (Except ServerError Json))

variable {h : List Happening}

/-- What happens when something awaited is ready. -/
def Io.happening : (io : Io) → io.Answer → Option Happening
  | .next, some (.ok (.text text)) => some (.received text)
  | .send (.text frame), .ok _ => some (.sent frame)
  | .call request, answer => some (.asked request (some answer))
  | _, _ => none

def SessionCall.happening : (call : SessionCall) → call.Answer → Option Happening
  | .await io, answer => io.happening answer
  | .within io, some answer => io.happening answer
  | .within (.call request), none => some (.asked request none)
  | .select, .message (some (.ok (.text text))) => some (.received text)
  | .randomChallenge, some challenge => some (.challenged challenge)
  | _, _ => none

/-- The history that a log of calls records. -/
def history (log : List (Sigma SessionCall.Answer)) : List Happening := log.filterMap fun entry => entry.1.happening entry.2

/-- The request to the service that a call makes. -/
def SessionCall.asks : SessionCall → Option ServiceRequest
  | .await (.call request) => some request
  | .within (.call request) => some request
  | _ => none

section Session
variable (v : Verifier) (fromStr : String → Except String Request) (context : SessionContext)

/-- The whole history of a handshake that proves a device key: a hello for the key, the challenge and the frame that
tells it, and a signature of the device over the transcript of this server, the challenge and the key. -/
inductive DeviceProof : List Happening → Bytes 32 → Option String → Prop where
  | intro {hello authenticate helloId authId deviceText signatureText : String} {minimum maximum : UInt16}
      {device challenge : Bytes 32} {signature : Bytes 64} {displayName : Option String} :
      parseRequest fromStr hello = .ok ⟨1, helloId, .hello minimum maximum deviceText⟩ →
      minimum.toNat ≤ protocolVersion → protocolVersion ≤ maximum.toNat →
      decodeFixed 32 deviceText = some device →
      parseRequest fromStr authenticate = .ok ⟨1, authId, .authenticate signatureText displayName⟩ →
      decodeFixed 64 signatureText = some signature →
      v.deviceVerifies device (authTranscript context.identity.publicKey challenge device) signature = true →
      DeviceProof [.received hello, .challenged challenge,
        .sent (successFrame helloId (helloResult context challenge device)), .received authenticate] device displayName

/-- The history begins with a handshake of the device, whose registration returned the account. -/
def Established (h : List Happening) (device : Bytes 32) (account : String) : Prop :=
  ∃ proof displayName now result rest, DeviceProof v fromStr context proof device displayName ∧
    accountIdOf result = some account ∧
    h = proof ++ .asked (.register device displayName now) (some (.ok result)) :: rest

/-- The request is made for the account and, if it names a device, as the device. -/
def ServiceRequest.Carries (device : Bytes 32) (account : String) : ServiceRequest → Prop
  | .attach accountId _ => accountId = account
  | .detach accountId _ => accountId = account
  | .command accountId devicePublicKey _ _ => accountId = account ∧ devicePublicKey = device
  | .register .. => False
  | .nip05 _ => False

/-- The requests that a history allows: the registration right after a handshake, and after it what is carried out for the
device and the account. -/
def Authorized (h : List Happening) (request : ServiceRequest) : Prop :=
  (∃ device displayName now, request = .register device displayName now ∧
      DeviceProof v fromStr context h device displayName) ∨
    ∃ device account, Established v fromStr context h device account ∧ request.Carries device account

/-- What a session may do, by the history of its connection. -/
def sessionProtocol : Protocol SessionCall.Answer (List Happening) where
  start := []
  may h call := ∀ request, call.asks = some request → Authorized v fromStr context h request
  learn h call answer := h ++ (call.happening answer).toList

variable {v fromStr context}

theorem learnAll_eq (h : List Happening) (log : List (Sigma SessionCall.Answer)) :
    (sessionProtocol v fromStr context).learnAll h log = h ++ history log := by
  induction log generalizing h with
  | nil => exact (List.append_nil h).symm
  | cons entry log ih =>
    have hhistory : history (entry :: log) = (entry.1.happening entry.2).toList ++ history log := by
      unfold history
      rw [List.filterMap_cons]
      cases entry.1.happening entry.2 <;> rfl
    rw [hhistory, ← List.append_assoc]
    exact ih _

variable {hello id : String} {displayName : Option String} {command : Command}

theorem Established.append (he : Established v fromStr context h device account) (rest : List Happening) :
    Established v fromStr context (h ++ rest) device account := by
  obtain ⟨proof, displayName, now, result, rest', hpf, hacct, rfl⟩ := he
  refine ⟨proof, displayName, now, result, rest' ++ rest, hpf, hacct, ?_⟩
  rw [List.append_assoc, List.cons_append]

/-! ## The handshake -/

variable {s : SessionReport}

theorem may_of_asks_none (hcall : call.asks = none) : (sessionProtocol v fromStr context).may h call := by
  intro request hreq
  rw [hcall] at hreq
  cases hreq

theorem yields_inTime {io : Io} {Q : List Happening → io.Answer → SessionReport → Prop}
    (hmay : (sessionProtocol v fromStr context).may h (.within io))
    (hQ : ∀ answer, Q (h ++ (io.happening answer).toList) answer s) :
    (inTime io).Yields (sessionProtocol v fromStr context) s h Q := by
  unfold inTime within
  rw [yields_bind, yields_request]
  refine ⟨hmay, fun answer => ?_⟩
  cases answer with
  | none => exact yields_throw
  | some answer => exact yields_pure.2 (hQ answer)

theorem yields_send (message : Message) :
    (send inTime message).Yields (sessionProtocol v fromStr context) s h fun h' _ _ =>
      h' = h ++ ((Io.send message).happening (.ok ())).toList := by
  unfold send
  rw [yields_bind]
  refine yields_inTime (may_of_asks_none rfl) fun answer => ?_
  rw [yields_ofExcept]
  intro u hu
  cases answer with
  | error e => cases hu
  | ok u => rfl

theorem yields_sendText (frame : String) :
    (sendText inTime frame).Yields (sessionProtocol v fromStr context) s h fun h' _ _ => h' = h ++ [.sent frame] := by
  unfold sendText
  split
  · exact yields_throw
  · exact yields_send _

theorem yields_refuse (id : String) (error : ServerError) (reason : CloseReason) (result : α) :
    (refuse id error reason result).Yields (sessionProtocol v fromStr context) s h fun _ r _ => r = result := by
  unfold refuse closing
  rw [yields_bind]
  refine (yields_sendText (failureFrame id error)).mono ?_
  intro h' u s' _
  rw [yields_bind, Method.yields_modify, yields_pure]

/-- If there is a request, it is the text that was received after `h`, and nothing else has happened since. -/
def Delivered (fromStr : String → Except String Request) (h h' : List Happening) (request : Option (String × Command)) :
    Prop :=
  ∀ id command, request = some (id, command) →
    ∃ text, h' = h ++ [.received text] ∧ parseRequest fromStr text = .ok ⟨1, id, command⟩

theorem yields_refuse_none (id : String) (error : ServerError) (reason : CloseReason) {h' : List Happening} :
    (refuse id error reason none).Yields (sessionProtocol v fromStr context) s h' fun h'' request _ =>
      Delivered fromStr h h'' request := by
  refine (yields_refuse id error reason none).mono ?_
  intro _ request _ hnone id command hsome
  rw [hnone] at hsome
  cases hsome

theorem yields_nextRequest (fuel : Nat) :
    (nextRequest fromStr fuel).Yields (sessionProtocol v fromStr context) s h fun h' request _ =>
      Delivered fromStr h h' request := by
  -- by induction on the fuel: a ping or a pong leaves the history as it was
  induction fuel generalizing s with
  | zero =>
    unfold nextRequest pending
    rw [yields_bind, yields_request]
    exact ⟨may_of_asks_none rfl, nofun⟩
  | succ fuel ih =>
    unfold nextRequest
    rw [yields_bind]
    refine yields_inTime (may_of_asks_none rfl) fun answer => ?_
    cases answer with
    | none => simp [closing, Delivered]
    | some message =>
      dsimp only
      rw [yields_bind, yields_ofExcept]
      intro received hrecv
      cases message with
      | error e => cases hrecv
      | ok message =>
        cases hrecv
        cases received with
        | text text =>
          dsimp only [countRequest]
          rw [yields_bind, Method.yields_modify]
          cases hp : parseRequest fromStr text with
          | error error => exact yields_refuse_none _ _ _
          | ok request =>
            dsimp only
            by_cases hver : request.version.toNat = protocolVersion
            · rw [if_pos hver, yields_pure]
              intro id command hreq
              cases hreq
              have hone : request.version = 1 := UInt16.toNat_inj.1 hver
              exact ⟨text, rfl, by rw [hp, ← hone]⟩
            · rw [if_neg hver]
              exact yields_refuse_none _ _ _
        | ping payload =>
          dsimp only
          rw [yields_bind]
          refine (yields_send _).mono ?_
          intro h' u s' hh'
          simpa [hh', Io.happening] using ih
        | pong payload => simpa [Io.happening] using ih
        | close => simp [closing, Delivered]
        | binary payload => exact yields_refuse_none _ _ _
        | frame => exact yields_refuse_none _ _ _

/-- A handshake that ends with an account has established it. -/
def Establishes (v : Verifier) (fromStr : String → Except String Request) (context : SessionContext) (h : List Happening)
    (handshake : Handshake) : Prop :=
  ∀ a, handshake = .authenticated a → Established v fromStr context h a.devicePublicKey a.accountId

theorem yields_refuse_close (id : String) (error : ServerError) (reason : CloseReason) :
    (refuse id error reason Handshake.close).Yields (sessionProtocol v fromStr context) s h fun h' handshake _ =>
      Establishes v fromStr context h' handshake := by
  refine (yields_refuse id error reason Handshake.close).mono ?_
  intro _ handshake _ hclose a ha
  rw [hclose] at ha
  cases ha

theorem yields_registerDevice (authId : String) (hpf : DeviceProof v fromStr context h device displayName) :
    (registerDevice authId device displayName).Yields (sessionProtocol v fromStr context) s h fun h' handshake _ =>
      Establishes v fromStr context h' handshake := by
  unfold registerDevice unixNow
  rw [yields_bind, yields_request]
  refine ⟨may_of_asks_none rfl, fun now => ?_⟩
  have hnow : (sessionProtocol v fromStr context).learn h .unixNow now = h := List.append_nil h
  rw [yields_bind, hnow]
  refine yields_inTime ?_ fun answer => ?_
  · intro request hreq
    cases hreq
    exact .inl ⟨device, displayName, now, rfl, hpf⟩
  · cases answer with
    | error error => exact yields_refuse_close _ _ _
    | ok result =>
      dsimp only
      rw [yields_bind, yields_ofExcept]
      intro accountId hacct
      rw [yields_bind]
      refine (yields_sendText _).mono ?_
      intro h' u s' hh'
      rw [yields_pure]
      intro a ha
      cases ha
      have hid : accountIdOf result = some accountId := by
        cases hid : accountIdOf result with
        | none => rw [hid] at hacct; cases hacct
        | some id => rw [hid] at hacct; cases hacct; rfl
      refine ⟨h, displayName, now, result, [.sent (successFrame authId result)], hpf, hid, ?_⟩
      rw [hh', List.append_assoc]
      rfl

theorem yields_answerChallenge {helloId deviceText : String} {minimum maximum : UInt16} (fuel : Nat) (challenge : Bytes 32)
    (hhello : parseRequest fromStr hello = .ok ⟨1, helloId, .hello minimum maximum deviceText⟩)
    (hminimum : minimum.toNat ≤ protocolVersion) (hmaximum : protocolVersion ≤ maximum.toNat)
    (hdev : decodeFixed 32 deviceText = some device) :
    (answerChallenge v fromStr context fuel device challenge).Yields (sessionProtocol v fromStr context) s
      [.received hello, .challenged challenge, .sent (successFrame helloId (helloResult context challenge device))]
      fun h' handshake _ => Establishes v fromStr context h' handshake := by
  unfold answerChallenge
  rw [yields_bind]
  refine (yields_nextRequest fuel).mono ?_
  intro h' request s' hreq
  cases request with
  | none => simp [Establishes]
  | some request =>
    obtain ⟨authId, command⟩ := request
    obtain ⟨text, hh', hp⟩ := hreq authId command rfl
    cases command with
    | authenticate signatureText displayName =>
      dsimp only
      split
      · next hverifies =>
          cases hsig : decodeFixed 64 signatureText with
          | none => rw [hsig] at hverifies; cases hverifies
          | some signature =>
            rw [hsig, Option.any_some, verifyDeviceSignature, Bool.and_eq_true] at hverifies
            apply yields_registerDevice
            rw [hh']
            exact .intro hhello hminimum hmaximum hdev hp hsig hverifies.2
      · exact yields_refuse_close _ _ _
    | _ => exact yields_refuse_close _ _ _

theorem yields_authenticate (fuel : Nat) :
    (authenticate v fromStr context fuel).Yields (sessionProtocol v fromStr context) s [] fun h' handshake _ =>
      Establishes v fromStr context h' handshake := by
  unfold authenticate
  rw [yields_bind]
  refine (yields_nextRequest fuel).mono ?_
  intro h' request s' hreq
  cases request with
  | none => simp [Establishes]
  | some request =>
    obtain ⟨helloId, command⟩ := request
    obtain ⟨text, hh', hp⟩ := hreq helloId command rfl
    cases command with
    | hello minimum maximum deviceText =>
      dsimp only
      by_cases hver : protocolVersion < minimum.toNat ∨ maximum.toNat < protocolVersion
      · rw [if_pos hver]
        exact yields_refuse_close _ _ _
      · rw [if_neg hver]
        cases hdev : decodeFixed 32 deviceText with
        | none => exact yields_refuse_close _ _ _
        | some device =>
          dsimp only
          unfold challengeDevice randomChallenge
          rw [yields_bind, yields_bind, yields_request]
          refine ⟨may_of_asks_none rfl, fun drawn => ?_⟩
          cases drawn with
          | none => exact yields_throw
          | some challenge =>
            dsimp only
            rw [yields_pure, yields_bind]
            refine (yields_sendText _).mono ?_
            intro h'' u s'' hh''
            rw [hh'', hh']
            exact yields_answerChallenge fuel challenge hp (by omega) (by omega) hdev
    | _ => exact yields_refuse_close _ _ _

/-! ## The session after it -/

section
variable (account device v fromStr context) in
/-- The method goes on for the device and its account, whose handshake is complete. -/
abbrev Serves (m : SessionMethod α) : Prop :=
  Method.Holds (sessionProtocol v fromStr context) (Established v fromStr context · device account) m

theorem holds_call (hcall : ∀ request, call.asks = some request → request.Carries device account) :
    Serves account device v fromStr context (Method.request call : SessionMethod call.Answer) := by
  refine Method.holds_request fun h hh => ⟨?_, fun _ => hh.append _⟩
  intro request hreq
  exact .inr ⟨device, account, hh, hcall request hreq⟩

theorem holds_quiet (hcall : call.asks = none) :
    Serves account device v fromStr context (Method.request call : SessionMethod call.Answer) := by
  apply holds_call
  intro request hreq
  rw [hcall] at hreq
  cases hreq

theorem holds_pending : Serves account device v fromStr context (pending : SessionMethod α) := by
  unfold pending
  refine holds_bind (holds_quiet rfl) ?_
  intro never
  cases never

theorem holds_send (message : Message) : Serves account device v fromStr context (send await message) := by
  unfold send await
  exact holds_bind (holds_quiet rfl) fun _ => holds_ofExcept _

theorem holds_sendText (frame : String) : Serves account device v fromStr context (sendText await frame) := by
  unfold sendText
  split
  · exact Method.holds_throw _
  · exact holds_send _

theorem holds_take (bucket : TokenBucket) : Serves account device v fromStr context bucket.take := by
  unfold TokenBucket.take instant
  refine holds_bind (holds_quiet rfl) ?_
  intro now
  dsimp only
  split
  · exact holds_bind (holds_quiet rfl) fun _ => holds_pure _
  · exact holds_pure _

theorem holds_handleRequest (bucket : TokenBucket) (text : String) :
    Serves account device v fromStr context (handleRequest fromStr ⟨account, device⟩ bucket text) := by
  unfold handleRequest
  cases parseRequest fromStr text with
  | error error =>
    dsimp only
    exact holds_bind (holds_sendText _) fun _ => holds_pure _
  | ok request =>
    dsimp only
    by_cases hver : request.version.toNat ≠ protocolVersion
    · rw [if_pos hver]
      exact holds_bind (holds_sendText _) fun _ => holds_pure _
    · rw [if_neg hver]
      refine holds_bind (holds_take bucket) ?_
      intro taken
      obtain ⟨_ | _, bucket⟩ := taken
      · exact holds_bind (holds_sendText _) fun _ => holds_pure _
      · refine holds_bind (holds_quiet rfl) ?_
        intro now
        refine holds_bind (holds_call ?_) ?_
        · intro asked hasked
          cases hasked
          exact ⟨rfl, rfl⟩
        · intro result
          exact holds_bind (holds_sendText _) fun _ => holds_pure _

theorem holds_serve (fuel : Nat) (bucket : TokenBucket) (lastActivity : Nat) :
    Serves account device v fromStr context (serve fromStr context ⟨account, device⟩ fuel bucket lastActivity) := by
  induction fuel generalizing bucket lastActivity with
  | zero =>
    unfold serve
    exact holds_pending
  | succ fuel ih =>
    unfold serve select
    refine holds_bind (holds_quiet rfl) ?_
    intro turn
    cases turn with
    | shutdown changed =>
      dsimp only
      split
      · exact holds_modify _
      · exact ih _ _
    | inbox frame =>
      cases frame with
      | none => exact holds_modify _
      | some frame =>
        refine holds_bind (holds_sendText _) fun _ => ?_
        refine holds_bind (holds_quiet rfl) ?_
        intro lagged
        split
        · exact holds_bind (holds_sendText _) fun _ => holds_modify _
        · exact ih _ _
    | message next =>
      cases next with
      | none => exact holds_modify _
      | some message =>
        refine holds_bind (holds_quiet rfl) ?_
        intro lastActivity
        refine holds_bind (holds_ofExcept _) ?_
        intro message
        cases message with
        | text text =>
          refine holds_bind (holds_modify _) fun _ => ?_
          refine holds_bind (holds_handleRequest bucket text) ?_
          intro handled
          obtain ⟨_ | _, bucket⟩ := handled
          · exact ih _ _
          · exact holds_modify _
        | ping payload => exact holds_bind (holds_send _) fun _ => ih _ _
        | pong payload => exact ih _ _
        | close => exact holds_modify _
        | binary payload => exact holds_bind (holds_sendText _) fun _ => holds_modify _
        | frame => exact holds_bind (holds_sendText _) fun _ => holds_modify _
    | tick =>
      refine holds_bind (holds_quiet rfl) ?_
      intro now
      split
      · exact holds_modify _
      · exact ih _ _

theorem holds_runAuthenticated (fuel : Nat) :
    Serves account device v fromStr context (runAuthenticated fromStr context fuel ⟨account, device⟩) := by
  unfold runAuthenticated
  refine holds_bind (holds_modify _) fun _ => ?_
  refine holds_bind (holds_call ?_) fun _ => ?_
  · intro request hreq
    cases hreq
    rfl
  refine holds_bind (holds_ofExcept _) fun _ => ?_
  refine holds_bind (holds_quiet rfl) fun _ => ?_
  refine holds_bind (holds_quiet rfl) fun _ => ?_
  refine holds_bind (Method.holds_attempt (holds_serve _ _ _)) fun _ => ?_
  refine holds_bind (holds_call ?_) fun _ => ?_
  · intro request hreq
    cases hreq
    rfl
  exact holds_bind (holds_quiet rfl) fun _ => holds_ofExcept _

end

/-! ## A device that proves its key -/

theorem helloFrame_fits {version : UInt16}
    (hp : parseRequest fromStr hello = .ok ⟨version, id, command⟩) (challenge device : Bytes 32) :
    (successFrame id (helloResult context challenge device)).utf8ByteSize ≤ maxFrameBytes := by
  have hid : id.utf8ByteSize ≤ maxRequestIdBytes := by
    unfold parseRequest at hp
    split at hp
    · cases hp
    · split_ifs at hp with h
      cases hp
      exact Nat.not_lt.1 (not_or.1 h).2
  have hkeys : Json.escapedSize "version" = 7 ∧ Json.escapedSize "challenge" = 9 ∧
      Json.escapedSize "server_public_key" = 17 ∧ Json.escapedSize "server_signature" = 16 ∧
      (Json.num protocolVersion).size = 1 := by decide
  have hobject : helloResult context challenge device = .obj [("challenge", .str (hexEncode challenge.val)),
      ("server_public_key", .str (hexEncode context.identity.publicKey.val)),
      ("server_signature", .str (hexEncode (context.identity.signHello challenge device).val)),
      ("version", .num protocolVersion)] := by
    simp [helloResult, Json.object, Json.insertField, Json.keyLt]
  have hchal := Json.escapedSize_hexEncode challenge
  have hsrv := Json.escapedSize_hexEncode context.identity.publicKey
  have hsig := Json.escapedSize_hexEncode (context.identity.signHello challenge device)
  have hesc := Json.escapedSize_le id
  rw [utf8ByteSize_successFrame, hobject]
  simp [Json.size_obj, Json.fieldSize, Json.size_str]
  unfold maxRequestIdBytes at hid
  unfold maxFrameBytes
  omega

/-- What a client sends that authenticates, and what it is answered. -/
structure Exchanged where
  hello : String
  helloId : String
  challenge : Bytes 32
  authenticate : String
  authId : String
  displayName : Option String
  now : UInt64
  result : Json

variable {x : Exchanged}

/-- The calls of a session in such a handshake, for a device. -/
def Exchanged.log (x : Exchanged) (context : SessionContext) (device : Bytes 32) : List (Sigma SessionCall.Answer) :=
  [⟨.within .next, some (some (.ok (.text x.hello)))⟩, ⟨.randomChallenge, some x.challenge⟩,
   ⟨.within (.send (.text (successFrame x.helloId (helloResult context x.challenge device)))), some (.ok ())⟩,
   ⟨.within .next, some (some (.ok (.text x.authenticate)))⟩, ⟨.unixNow, x.now⟩,
   ⟨.within (.call (.register device x.displayName x.now)), some (.ok x.result)⟩,
   ⟨.within (.send (.text (successFrame x.authId x.result))), some (.ok ())⟩]

/-- The client sends a hello for the device and a signature of the challenge, and the service registers the account. -/
structure Exchanged.Passes (v : Verifier) (fromStr : String → Except String Request) (context : SessionContext)
    (x : Exchanged) (device : Bytes 32) (account : String) : Prop where
  hello : ∃ minimum maximum text, parseRequest fromStr x.hello = .ok ⟨1, x.helloId, .hello minimum maximum text⟩ ∧
    minimum.toNat ≤ protocolVersion ∧ protocolVersion ≤ maximum.toNat ∧ decodeFixed 32 text = some device
  authenticate : ∃ text signature,
    parseRequest fromStr x.authenticate = .ok ⟨1, x.authId, .authenticate text x.displayName⟩ ∧
    decodeFixed 64 text = some signature ∧
    verifyDeviceSignature v context.identity.publicKey x.challenge device signature = true
  account : accountIdOf x.result = some account
  fits : (successFrame x.authId x.result).utf8ByteSize ≤ maxFrameBytes

/-- **A device that signs the challenge is authenticated,** if the service registers it, and its session is attached. -/
theorem calls_attach (hx : x.Passes v fromStr context device account) (fuel : Nat) :
    (runSession v fromStr context (fuel + 1)).Calls (⟨.within .accept, some (.ok ())⟩ :: x.log context device)
      (.await (.call (.attach account context.sessionId))) := by
  obtain ⟨minimum, maximum, deviceText, hhello, hminimum, hmaximum, hdev⟩ := hx.hello
  obtain ⟨signatureText, signature, hauthenticate, hsig, hverify⟩ := hx.authenticate
  have hchal : ¬ maxFrameBytes < (successFrame x.helloId (helloResult context x.challenge device)).utf8ByteSize :=
    Nat.not_lt.2 (helloFrame_fits hhello x.challenge device)
  have hres : ¬ maxFrameBytes < (successFrame x.authId x.result).utf8ByteSize := Nat.not_lt.2 hx.fits
  have hver : (1 : UInt16).toNat = protocolVersion := rfl
  rw [Prog.calls_iff_follow]
  simp [Exchanged.log, runSession, run, authenticate, nextRequest, challengeDevice, answerChallenge, registerDevice,
    runAuthenticated, within, inTime, randomChallenge, unixNow, await, countRequest, sendText, send, Method.bind_apply,
    Method.pure_apply, Method.ite_apply, Method.request, Method.attempt, Method.modify, Method.ofExcept, Except.mapError,
    Prog.bind, Prog.follow, Prog.head?, hhello, hminimum.not_gt, hmaximum.not_gt, hdev, hchal, hauthenticate,
    hsig, hverify, hx.account, hres, hver]

def sevenContext : SessionContext where
  identity := ⟨.replicate 32 7, fun _ => .replicate 64 8⟩
  limits := ⟨300 * 10 ^ 9, 20, 40⟩
  sessionId := 1

/-- The frames of a client with a device key of ones, which signs in the open. -/
def onesExchange : Exchanged where
  hello := "\x7b\"version\":1,\"id\":\"a\",\"method\":\"hello\",\"params\":\x7b\"minimum_version\":1," ++
    "\"maximum_version\":1,\"device_public_key\":\"" ++ hexEncode (List.replicate 32 1) ++ "\"\x7d\x7d"
  helloId := "a"
  challenge := .replicate 32 9
  authenticate := "\x7b\"version\":1,\"id\":\"b\",\"method\":\"authenticate\",\"params\":\x7b\"signature\":\"" ++
    hexEncode (List.replicate 64 1) ++ "\"\x7d\x7d"
  authId := "b"
  displayName := none
  now := 1000
  result := registrationJson ⟨"a1", none, "user-01010101", 1000⟩ (.replicate 32 1) true

def parseOnes (text : String) : Except String Request :=
  if text = onesExchange.hello then .ok ⟨1, "a", .hello 1 1 (hexEncode (List.replicate 32 1))⟩
  else if text = onesExchange.authenticate then .ok ⟨1, "b", .authenticate (hexEncode (List.replicate 64 1)) none⟩
  else .error "expected value at line 1 column 1"

theorem decodeFixed_hexEncode {n : Nat} (b : Bytes n) : decodeFixed n (hexEncode b.val) = some b := by
  unfold decodeFixed
  rw [hexDecode_hexEncode]
  exact Bytes.ofList?_val b

theorem onesExchange_passes : onesExchange.Passes .transparent parseOnes sevenContext (.replicate 32 1) "a1" where
  hello := by
    refine ⟨1, 1, _, ?_, by decide, by decide, decodeFixed_hexEncode _⟩
    unfold parseRequest parseOnes
    rw [if_pos rfl]
    exact if_neg (by decide)
  authenticate := by
    have ho : onesExchange.authenticate ≠ onesExchange.hello := by decide +kernel
    refine ⟨_, .replicate 64 1, ?_, decodeFixed_hexEncode _, by decide +kernel⟩
    unfold parseRequest parseOnes
    rw [if_neg ho, if_pos rfl]
    exact if_neg (by decide)
  account := by decide
  fits := by
    rw [utf8ByteSize_successFrame]
    decide +kernel

/-! ## The whole session -/

theorem yields_run (fuel : Nat) :
    (run v fromStr context fuel).Yields (sessionProtocol v fromStr context) s [] fun _ _ _ => True := by
  unfold run within
  rw [yields_bind, yields_bind, yields_request]
  refine ⟨may_of_asks_none rfl, fun accepted => ?_⟩
  cases accepted with
  | none => exact yields_throw
  | some accepted =>
    dsimp only
    rw [yields_pure, yields_bind, yields_ofExcept]
    intro _ _
    rw [yields_bind]
    refine (yields_authenticate fuel).attempt.mono ?_
    intro h' outcome s' hout
    cases outcome with
    | ok handshake =>
      cases handshake with
      | authenticated a =>
        have hest := hout _ rfl a rfl
        exact ((holds_runAuthenticated fuel).yields hest).mono fun _ _ _ _ => trivial
      | close => exact yields_request.2 ⟨may_of_asks_none rfl, fun _ => trivial⟩
    | error error =>
      cases error with
      | authenticationTimeout =>
        dsimp only [closeSocket]
        rw [yields_bind, yields_request]
        exact ⟨may_of_asks_none rfl, fun _ => yields_throw⟩
      | _ => exact yields_throw

theorem obeys_runSession (fuel : Nat) :
    (runSession v fromStr context fuel).Obeys (sessionProtocol v fromStr context) (fun _ _ => True) [] := by
  unfold runSession
  rw [Prog.obeys_bind]
  refine Prog.Obeys.mono (Method.obeys_iff.1 (Method.yields_iff.1 (yields_run fuel))) ?_
  intro h outcome _
  obtain ⟨_ | _, report⟩ := outcome
  · trivial
  · trivial

/-- The requests to the service in a history. -/
def requests (h : List Happening) : List ServiceRequest :=
  h.filterMap fun
    | .asked request _ => some request
    | _ => none

theorem DeviceProof.requests_eq (hpf : DeviceProof v fromStr context h device displayName) : requests h = [] := by
  cases hpf
  rfl

/-- **A session acts only for the device that authenticated.** Whatever has happened on a connection so far, a request that
its session makes to the service is the first one, a registration for a device that has just signed this connection's
challenge, or it carries the device and the account of such a registration. Without that handshake, complete and in order,
a session asks nothing of the service. -/
theorem session_requests_authorized {fuel : Nat} {log : List (Sigma SessionCall.Answer)} {call : SessionCall}
    {request : ServiceRequest} (hcall : (runSession v fromStr context fuel).Calls log call)
    (hasks : call.asks = some request) :
    (∃ device displayName now, request = .register device displayName now ∧
        DeviceProof v fromStr context (history log) device displayName ∧ requests (history log) = []) ∨
      ∃ device account, Established v fromStr context (history log) device account ∧ request.Carries device account := by
  have hmay := (obeys_runSession fuel).may hcall
  rw [learnAll_eq, List.nil_append] at hmay
  rcases hmay request hasks with ⟨device, displayName, now, hrequest, hproof⟩ | hestablished
  · exact .inl ⟨device, displayName, now, hrequest, hproof, hproof.requests_eq⟩
  · exact .inr hestablished

theorem attach_request_authorized :
    ∃ device account,
      Established .transparent parseOnes sevenContext
        (history (⟨.within .accept, some (.ok ())⟩ :: onesExchange.log sevenContext (.replicate 32 1))) device account ∧
      (ServiceRequest.attach "a1" 1).Carries device account := by
  rcases session_requests_authorized (calls_attach onesExchange_passes 0) rfl with ⟨_, _, _, hrequest, _⟩ | hestablished
  · cases hrequest
  · exact hestablished

end Session

end OmaChat.Server

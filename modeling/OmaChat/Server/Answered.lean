import OmaChat.Server.Frames
import OmaChat.Server.Handshake

/-!
# One answer for each request

On an authenticated session the server answers each text frame once, before it reads the next one or closes. An answer
has to fit in a frame: `send_text` refuses a larger one, and the session then ends without an answer. Of the errors that a
session tells its client, only the text of the JSON parser is not bounded.

* `answering` : a protocol that says, by what has happened since the session read a frame, whether it may read the next one;
* `text_answered_iff` : a session keeps to it, so a frame is answered exactly once if and only if the error for it
  fits, where it has one.
-/

namespace OmaChat.Server
open Wire Effects Proto
open Method (obeys_bind obeys_modify obeys_ofExcept obeys_pure obeys_request_bind)

/-! ## The errors of the service -/

section
variable {step : Answering Call.Answer Database} {v : Verifier}

theorem short_storageError (e : StorageError) : Short (storageError e) := by
  unfold storageError
  split <;> decide

/-- **The errors of the service are short.** -/
theorem fails_handle (request : ServiceRequest) : Method.Fails step Short (Service.handle v request) := by
  refine along_handle Method.along_fails v (fun f => Method.fails_modify _) fun _ => Method.fails_mapError ?_
  intro c e c' _
  exact short_storageError e

end

/-! ## What happens after a frame is read -/

/-- What has happened since the session read a message: the text, the frames that were sent, the number of calls, and
whether the transport worked and the errors of the service were short. -/
structure Since where
  text : Option String
  sent : List String
  calls : Nat
  works : Bool

def Turn.text? : Turn → Option String
  | .message (some (.ok (.text text))) => some text
  | _ => none

def SessionCall.sends : (call : SessionCall) → call.Answer → List String
  | .await (.send (.text frame)), .ok _ => [frame]
  | _, _ => []

/-- The transport works, and an error of the service is short. -/
def SessionCall.works : (call : SessionCall) → call.Answer → Bool
  | .await (.send _), .error _ => false
  | .await (.call _), .error e => decide (Short e)
  | _, _ => true

/-- The frame that a session reads, or the end of the session, is where an answer has to be out. -/
def SessionCall.isBoundary : SessionCall → Bool
  | .select => true
  | .close => true
  | _ => false

def Since.learn (g : Since) : (call : SessionCall) → call.Answer → Since
  | .select, turn => ⟨turn.text?, [], 0, true⟩
  | .close, _ => ⟨none, [], 0, true⟩
  | call, answer => ⟨g.text, g.sent ++ call.sends answer, g.calls + 1, g.works && call.works answer⟩

section Answers
variable (fromStr : String → Except String Request)

/-- The id that the answer to a text carries. -/
def requestId (text : String) : String :=
  match parseRequest fromStr text with
  | .ok request => request.id
  | .error _ => ""

def CarriesId (id frame : String) : Prop :=
  (∃ result, frame = successFrame id result) ∨ ∃ error, frame = failureFrame id error

/-- The error of the JSON parser for the text, if it has one, fits in a frame. -/
def ErrorFits (text : String) : Prop := ∀ error, fromStr text = .error error → 119 + Json.escapedSize error ≤ maxFrameBytes

/-- One frame was sent, it is not too large, and it carries the id of the text. -/
def AnsweredOnce (text : String) (sent : List String) : Prop :=
  ∃ frame, sent = [frame] ∧ frame.utf8ByteSize ≤ maxFrameBytes ∧ CarriesId (requestId fromStr text) frame

/-- After at most `n` calls, the text was answered exactly if it can be. -/
def Settled (n : Nat) (g : Since) : Prop :=
  g.works = true → ∀ text, g.text = some text → g.calls ≤ n ∧
    (AnsweredOnce fromStr text g.sent ↔ ErrorFits fromStr text)

/-- A session may read or close when it has answered the last text, and makes at most seven calls until then. -/
def answering : Protocol SessionCall.Answer Since where
  start := ⟨none, [], 0, true⟩
  may g call :=
    (g.works = true → ∀ text, g.text = some text → g.calls ≤ 7) ∧ (call.isBoundary = true → Settled fromStr 7 g)
  learn := Since.learn

variable {fromStr} {s : SessionReport} {g : Since} {frame text : String} {n : Nat} {call : SessionCall} {request : Request}
  {α : Type} {v : Verifier} {error : ServerError} {log : List (Sigma SessionCall.Answer)}

theorem escapedSize_requestId (h : parseRequest fromStr text = .ok request) : Json.escapedSize request.id ≤ 384 := by
  unfold parseRequest at h
  split at h
  · cases h
  · split at h
    · cases h
    next hid =>
      cases h
      have hle := Json.escapedSize_le request.id
      unfold maxRequestIdBytes at hid
      omega

theorem failureFrame_fits (h : parseRequest fromStr text = .ok request)
    (herr : Short error) : (failureFrame request.id error).utf8ByteSize ≤ maxFrameBytes := by
  have hid := escapedSize_requestId h
  have hname := escapedSize_name error.code
  rw [utf8ByteSize_failureFrame]
  unfold Short at herr
  unfold maxFrameBytes
  omega

theorem carriesId_responseFrame (id : String) (result : Except ServerError Json) :
    CarriesId id (responseFrame id result) := by
  cases result with
  | error error => exact .inr ⟨error, rfl⟩
  | ok value =>
    dsimp only [responseFrame]
    split
    · exact .inl ⟨value, rfl⟩
    · exact .inr ⟨_, rfl⟩

theorem responseFrame_fits (h : parseRequest fromStr text = .ok request)
    {result : Except ServerError Json} (hres : ∀ e, result = .error e → Short e) :
    (responseFrame request.id result).utf8ByteSize ≤ maxFrameBytes := by
  cases result with
  | error error => exact failureFrame_fits h (hres error rfl)
  | ok value =>
    dsimp only [responseFrame]
    split
    next hfits => exact hfits
    · exact failureFrame_fits h (by decide)

theorem errorFits_of_ok (h : parseRequest fromStr text = .ok request) : ErrorFits fromStr text := by
  intro error herr
  rw [parseRequest, herr] at h
  cases h

theorem errorFits_iff (h : parseRequest fromStr text = .error error) :
    ErrorFits fromStr text ↔ (failureFrame "" error).utf8ByteSize ≤ maxFrameBytes := by
  unfold ErrorFits
  unfold parseRequest at h
  split at h
  next e he =>
    cases h
    have hsz : Json.escapedSize "" = 0 ∧ Json.escapedSize ErrorCode.invalidRequest.name = 15 ∧
        Json.escapedSize "request is not a valid protocol frame: " = 39 := by decide
    rw [utf8ByteSize_failureFrame, Json.escapedSize_append]
    simp only [he, Except.error.injEq, forall_eq']
    omega
  next request hreq =>
    split at h
    · cases h
      refine iff_of_true ?_ ?_
      · intro error herr
        rw [hreq] at herr
        cases herr
      · rw [utf8ByteSize_failureFrame]
        decide
    · cases h

/-! ## A session -/

theorem settled_of_lost (h : g.works = false) : Settled fromStr n g := by
  intro hworks
  rw [h] at hworks
  cases hworks

/-- While a text is not answered, few calls are made. -/
def Within (n : Nat) (g : Since) : Prop := ∀ text, g.text = some text → g.calls ≤ n

theorem may_of_within (hcall : call.isBoundary = false) (hg : Within n g) (hn : n ≤ 7) : (answering fromStr).may g call := by
  refine ⟨fun _ text htext => (hg text htext).trans hn, fun hboundary => ?_⟩
  rw [hcall] at hboundary
  cases hboundary

theorem learn_call (request : ServiceRequest) (result : Except ServerError Json) :
    g.learn (.await (.call request)) result =
      ⟨g.text, g.sent, g.calls + 1, g.works && (SessionCall.await (.call request)).works result⟩ := by
  cases result <;> exact congrArg (fun sent => Since.mk g.text sent _ _) (List.append_nil _)

theorem obeys_await_bind {io : Io} {f : io.Answer → SessionMethod α}
    {Q : Since → Except SessionError α → SessionReport → Prop} :
    (await io >>= f).Obeys (answering fromStr) s g Q ↔ (answering fromStr).may g (.await io) ∧
      ∀ r, (f r).Obeys (answering fromStr) s (g.learn (.await io) r) Q := obeys_request_bind

theorem obeys_sendText {Q : Since → Except SessionError Unit → SessionReport → Prop}
    (hmay : (answering fromStr).may g (.await (.send (.text frame))))
    (hlarge : maxFrameBytes < frame.utf8ByteSize → ∀ e, Q g (.error e) s)
    (hsent : frame.utf8ByteSize ≤ maxFrameBytes → Q ⟨g.text, g.sent ++ [frame], g.calls + 1, g.works && true⟩ (.ok ()) s)
    (hlost : ∀ g', g'.works = false → ∀ e, Q g' (.error e) s) :
    (sendText await frame).Obeys (answering fromStr) s g Q := by
  unfold sendText
  split
  next h => exact Method.obeys_throw.2 (hlarge h _)
  next h =>
    unfold send await
    rw [obeys_bind, Method.obeys_request]
    refine ⟨hmay, fun sent => ?_⟩
    dsimp only
    rw [obeys_ofExcept]
    cases sent with
    | ok _ => exact hsent (Nat.le_of_not_lt h)
    | error e => exact hlost _ (Bool.and_false _) _

theorem obeys_answer (htext : g.text = some text) (hsent : g.sent = []) (hcalls : g.calls ≤ 5)
    (hid : CarriesId (requestId fromStr text) frame)
    (hfits : g.works = true → (ErrorFits fromStr text ↔ frame.utf8ByteSize ≤ maxFrameBytes)) (a : α) :
    (sendText await frame >>= fun _ => pure a).Obeys (answering fromStr) s g fun g _ _ => Settled fromStr 6 g := by
  have hwithin : Within 5 g := fun _ _ => hcalls
  rw [obeys_bind]
  apply obeys_sendText (may_of_within rfl hwithin (by omega))
  · intro hlarge _ hworks text' htext'
    rw [htext] at htext'
    cases htext'
    refine ⟨by omega, iff_of_false ?_ ?_⟩
    · rintro ⟨frame', hframe', -⟩
      rw [hsent] at hframe'
      cases hframe'
    · rw [hfits hworks]
      omega
  · intro hsmall
    dsimp only
    rw [obeys_pure]
    intro hworks text' htext'
    dsimp only at htext' hworks ⊢
    rw [htext] at htext'
    cases htext'
    rw [Bool.and_true] at hworks
    refine ⟨by omega, iff_of_true ⟨frame, ?_, hsmall, hid⟩ ?_⟩
    · rw [hsent, List.nil_append]
    · exact (hfits hworks).2 hsmall
  · intro g' hlost _
    exact settled_of_lost hlost

/-- What does not send: at most `n` calls are made, and the rest stays. -/
structure Quiet (n : Nat) (g g' : Since) : Prop where
  text : g'.text = g.text
  sent : g'.sent = g.sent
  works : g'.works = true → g.works = true
  calls : g'.calls ≤ g.calls + n

theorem obeys_instant {Q : Since → Except SessionError Nat → SessionReport → Prop} (hg : Within n g) (hn : n ≤ 7)
    (h : ∀ g' now, Quiet 1 g g' → Q g' (.ok now) s) : instant.Obeys (answering fromStr) s g Q := by
  unfold instant
  rw [Method.obeys_request]
  refine ⟨may_of_within rfl hg hn, fun now => h _ now ⟨rfl, List.append_nil _, ?_, Nat.le_refl _⟩⟩
  intro hworks
  exact (Bool.and_eq_true_iff.1 hworks).1

theorem obeys_take (bucket : TokenBucket) (hg : Within 5 g) :
    bucket.take.Obeys (answering fromStr) s g fun g' x s' => Quiet 2 g g' ∧ s' = s ∧ ∃ r, x = .ok r := by
  unfold TokenBucket.take
  rw [obeys_bind]
  apply obeys_instant hg (by omega)
  intro g₁ now h₁
  dsimp only
  split
  · rw [obeys_bind]
    have hg₁ : Within 6 g₁ := by
      intro text htext
      have hcalls := hg text (h₁.text ▸ htext)
      have hmore := h₁.calls
      omega
    apply obeys_instant hg₁ (by omega)
    intro g₂ refilled h₂
    refine obeys_pure.2 ⟨⟨h₂.text.trans h₁.text, h₂.sent.trans h₁.sent, fun h => h₁.works (h₂.works h), ?_⟩,
      rfl, _, rfl⟩
    have hcalls₁ := h₁.calls
    have hcalls₂ := h₂.calls
    omega
  · refine obeys_pure.2 ⟨⟨h₁.text, h₁.sent, h₁.works, ?_⟩, rfl, _, rfl⟩
    have hcalls₁ := h₁.calls
    omega

/-- **A request is answered once.** -/
theorem obeys_handleRequest (authenticated : Authenticated) (bucket : TokenBucket)
    (htext : g.text = some text) (hsent : g.sent = []) (hcalls : g.calls ≤ 1) :
    (handleRequest fromStr authenticated bucket text).Obeys (answering fromStr) s g fun g _ _ => Settled fromStr 6 g := by
  unfold handleRequest
  cases hp : parseRequest fromStr text with
  | error error =>
    have hid : requestId fromStr text = "" := by rw [requestId, hp]
    apply obeys_answer htext hsent (by omega) _ fun _ => errorFits_iff hp
    rw [hid]
    exact .inr ⟨_, rfl⟩
  | ok request =>
    have hid : requestId fromStr text = request.id := by rw [requestId, hp]
    have hfits := errorFits_of_ok hp
    have hfailure (error : ServerError) : CarriesId (requestId fromStr text) (failureFrame request.id error) := by
      rw [hid]
      exact .inr ⟨_, rfl⟩
    dsimp only
    by_cases hver : request.version.toNat ≠ protocolVersion
    · rw [if_pos hver]
      refine obeys_answer htext hsent (by omega) (hfailure _) (fun _ => iff_of_true hfits ?_) _
      exact failureFrame_fits hp (by decide)
    rw [if_neg hver, obeys_bind]
    refine (obeys_take bucket fun _ _ => by omega).mono ?_
    rintro g₁ _ _ ⟨h₁, rfl, ⟨granted, bucket⟩, rfl⟩
    have hcalls₁ := h₁.calls
    dsimp only
    by_cases hgranted : granted = false
    · rw [hgranted]
      refine obeys_answer (h₁.text.trans htext) (h₁.sent.trans hsent) (by omega) (hfailure _)
        (fun _ => iff_of_true hfits ?_) _
      exact failureFrame_fits hp (by decide)
    rw [if_neg (by simpa using hgranted)]
    have hwithin : Within 3 g₁ := fun _ _ => by omega
    unfold unixNow
    rw [obeys_request_bind]
    refine ⟨may_of_within rfl hwithin (by omega), fun now => ?_⟩
    have hlearned :
      (answering fromStr).learn g₁ .unixNow now = ⟨g₁.text, g₁.sent ++ [], g₁.calls + 1, g₁.works && true⟩ :=
      rfl
    rw [obeys_await_bind, hlearned, List.append_nil, Bool.and_true]
    refine ⟨may_of_within rfl (n := 4) (fun _ _ => by dsimp only; omega) (by omega), fun result => ?_⟩
    rw [learn_call]
    apply obeys_answer
    · exact h₁.text.trans htext
    · exact h₁.sent.trans hsent
    · dsimp only
      omega
    · rw [hid]
      exact carriesId_responseFrame _ _
    · intro hworks
      refine iff_of_true hfits (responseFrame_fits hp fun e he => ?_)
      rw [he] at hworks
      exact of_decide_eq_true (Bool.and_eq_true_iff.1 hworks).2

/-! ## The loop -/

theorem Settled.mono {n' : Nat} (h : Settled fromStr n g) (hn : n ≤ n') : Settled fromStr n' g := by
  intro hworks text htext
  obtain ⟨hcalls, hans⟩ := h hworks text htext
  exact ⟨hcalls.trans hn, hans⟩

def Idle (g : Since) : Prop := g.text = none

theorem Idle.settled (h : Idle g) : Settled fromStr n g := by
  intro _ text htext
  rw [h] at htext
  cases htext

theorem Idle.may (h : Idle g) (call : SessionCall) : (answering fromStr).may g call := by
  refine ⟨fun _ text htext => ?_, fun _ => h.settled⟩
  rw [h] at htext
  cases htext

theorem Settled.may (h : Settled fromStr 7 g) : (answering fromStr).may g call :=
  ⟨fun hworks text htext => (h hworks text htext).1, fun _ => h⟩

theorem Idle.learn (h : Idle g) (hcall : call.isBoundary = false) (answer : call.Answer) : Idle (g.learn call answer) := by
  cases call with
  | select => cases hcall
  | close => cases hcall
  | _ => exact h

theorem idle_request (hcall : call.isBoundary = false) :
    Method.Holds (answering fromStr) Idle (Method.request call : SessionMethod call.Answer) :=
  Method.holds_request fun _ hg => ⟨hg.may call, fun answer => hg.learn hcall answer⟩

theorem idle_send (message : Message) : Method.Holds (answering fromStr) Idle (send await message) :=
  Method.holds_bind (idle_request rfl) fun _ => Method.holds_ofExcept _

theorem idle_sendText (frame : String) : Method.Holds (answering fromStr) Idle (sendText await frame) := by
  unfold sendText
  split
  · exact Method.holds_throw _
  · exact idle_send _

theorem obeys_idle_bind {β : Type} {m : SessionMethod α} {f : α → SessionMethod β}
    (hm : Method.Holds (answering fromStr) Idle m) (hg : Idle g)
    (hf : ∀ g s a, Idle g → (f a).Obeys (answering fromStr) s g fun g _ _ => Settled fromStr n g) :
    (m >>= f).Obeys (answering fromStr) s g fun g _ _ => Settled fromStr n g := by
  rw [obeys_bind]
  refine (Method.holds_iff.1 hm s g hg).mono ?_
  intro g' x s' hg'
  cases x with
  | ok a => exact hf g' s' a hg'
  | error e => exact hg'.settled

theorem obeys_closing {reason : CloseReason} (hg : Settled fromStr 6 g) :
    (closing reason).Obeys (answering fromStr) s g fun g _ _ => Settled fromStr 6 g := obeys_modify.2 hg

theorem obeys_serve (context : SessionContext) (authenticated : Authenticated) (fuel : Nat) (bucket : TokenBucket)
    (lastActivity : Nat) (hg : Settled fromStr 6 g) :
    (serve fromStr context authenticated fuel bucket lastActivity).Obeys (answering fromStr) s g
      fun g _ _ => Settled fromStr 6 g := by
  induction fuel generalizing bucket lastActivity s g with
  | zero =>
    unfold serve pending
    rw [obeys_request_bind]
    exact ⟨(hg.mono (by omega)).may, fun never => Empty.elim never⟩
  | succ fuel ih =>
    unfold serve select
    rw [obeys_request_bind]
    refine ⟨(hg.mono (by omega)).may, fun turn => ?_⟩
    have hlearned : (answering fromStr).learn g .select turn = ⟨turn.text?, [], 0, true⟩ := rfl
    rw [hlearned]
    have hidle : Idle ⟨none, [], 0, true⟩ := rfl
    cases turn with
    | shutdown changed =>
      dsimp only [Turn.text?]
      split
      · exact obeys_closing hidle.settled
      · exact ih _ _ hidle.settled
    | inbox frame =>
      cases frame with
      | none => exact obeys_closing hidle.settled
      | some frame =>
        dsimp only [Turn.text?]
        refine obeys_idle_bind (idle_sendText frame) hidle fun g s _ hg => ?_
        refine obeys_idle_bind (idle_request rfl) hg fun g s late hg => ?_
        split
        · exact obeys_idle_bind (idle_sendText _) hg fun g s _ hg => obeys_closing hg.settled
        · exact ih _ _ hg.settled
    | message next =>
      cases next with
      | none => exact obeys_closing hidle.settled
      | some message =>
        cases message with
        | error e =>
          dsimp only [Turn.text?]
          refine obeys_idle_bind (idle_request rfl) hidle fun g s now hg => ?_
          rw [obeys_bind, obeys_ofExcept]
          exact hg.settled
        | ok message =>
          cases message with
          | text text =>
            dsimp only [Turn.text?]
            rw [obeys_bind]
            apply obeys_instant (n := 0) (fun _ _ => Nat.le_refl 0) (by omega)
            intro g now hg
            have hcalls := hg.calls
            dsimp only at hcalls ⊢
            rw [obeys_bind, obeys_ofExcept]
            dsimp only [Except.mapError]
            unfold countRequest
            rw [obeys_bind, obeys_modify]
            dsimp only
            rw [obeys_bind]
            refine (obeys_handleRequest authenticated bucket hg.text hg.sent (by omega)).mono ?_
            intro g x s hg
            cases x with
            | error e => exact hg
            | ok result =>
              obtain ⟨loop, bucket⟩ := result
              cases loop with
              | close => exact obeys_closing hg
              | «continue» => exact ih _ _ hg
          | ping payload =>
            refine obeys_idle_bind (idle_request rfl) hidle fun g s now hg => ?_
            rw [obeys_bind, obeys_ofExcept]
            exact obeys_idle_bind (idle_send _) hg fun g s _ hg => ih _ _ hg.settled
          | pong payload =>
            refine obeys_idle_bind (idle_request rfl) hidle fun g s now hg => ?_
            rw [obeys_bind, obeys_ofExcept]
            exact ih _ _ hg.settled
          | close =>
            refine obeys_idle_bind (idle_request rfl) hidle fun g s now hg => ?_
            rw [obeys_bind, obeys_ofExcept]
            exact obeys_closing hg.settled
          | binary payload | frame =>
            refine obeys_idle_bind (idle_request rfl) hidle fun g s now hg => ?_
            rw [obeys_bind, obeys_ofExcept]
            exact obeys_idle_bind (idle_sendText _) hg fun g s _ hg => obeys_closing hg.settled
    | tick =>
      dsimp only [Turn.text?]
      refine obeys_idle_bind (idle_request rfl) hidle fun g s now hg => ?_
      split
      · exact obeys_closing hg.settled
      · exact ih _ _ hg.settled

/-- **An authenticated session** reads and closes only after it has answered. -/
theorem obeys_runAuthenticated (context : SessionContext) (fuel : Nat) (authenticated : Authenticated) :
    (runAuthenticated fromStr context fuel authenticated).Obeys (answering fromStr) s (answering fromStr).start
      fun g _ _ => Settled fromStr 7 g := by
  unfold runAuthenticated
  rw [obeys_bind, obeys_modify]
  refine obeys_idle_bind (idle_request rfl) rfl fun g s attached hg => ?_
  refine obeys_idle_bind (Method.holds_ofExcept _) hg fun g s _ hg => ?_
  refine obeys_idle_bind (idle_request rfl) hg fun g s refilled hg => ?_
  refine obeys_idle_bind (idle_request rfl) hg fun g s lastActivity hg => ?_
  rw [obeys_bind, Method.obeys_attempt]
  refine (obeys_serve context authenticated fuel _ _ hg.settled).mono ?_
  intro g outcome s hg
  dsimp only
  rw [obeys_await_bind]
  refine ⟨(hg.mono (by omega)).may, fun detached => ?_⟩
  rw [learn_call]
  unfold closeSocket
  rw [obeys_request_bind]
  have hdetached : Settled fromStr 7 ⟨g.text, g.sent, g.calls + 1, g.works &&
      (SessionCall.await (.call (.detach authenticated.accountId context.sessionId))).works detached⟩ := by
    intro hworks text htext
    obtain ⟨hcalls, hans⟩ := hg (Bool.and_eq_true_iff.1 hworks).1 text htext
    exact ⟨Nat.succ_le_succ hcalls, hans⟩
  refine ⟨hdetached.may, fun _ => ?_⟩
  have hidle : Idle ⟨none, [], 0, true⟩ := rfl
  rw [obeys_ofExcept]
  exact hidle.settled

/-! ## The log of a session -/

/-- What the service answers to a session: the outcome of a request, or that the service is gone. -/
def ServiceAnswers (v : Verifier) (request : ServiceRequest) (answer : Except ServerError Json) : Prop :=
  (∃ c c', (Service.handle v request).Exec SqliteStep c answer c') ∨
    answer = .error ⟨.internal, "service stopped"⟩ ∨ answer = .error ⟨.internal, "service dropped the request"⟩

theorem short_of_serviceAnswers {request : ServiceRequest} {e : ServerError}
    (h : ServiceAnswers v request (.error e)) : Short e := by
  rcases h with ⟨c, c', hexec⟩ | he | he
  · exact fails_handle request c e c' hexec
  · cases he
    decide
  · cases he
    decide

/-- A call that is answered as it should: what is sent is taken, and the service answers. -/
def WorkingAnswer (v : Verifier) : Sigma SessionCall.Answer → Prop
  | ⟨.await (.send _), answer⟩ => answer = .ok ()
  | ⟨.await (.call request), answer⟩ => ServiceAnswers v request answer
  | _ => True

def sentFrames (log : List (Sigma SessionCall.Answer)) : List String := log.flatMap fun entry => entry.1.sends entry.2

theorem works_of_working {entry : Sigma SessionCall.Answer} (h : WorkingAnswer v entry) : entry.1.works entry.2 = true := by
  obtain ⟨call, answer⟩ := entry
  cases call with
  | await io =>
    cases io with
    | send message =>
      have hsent : answer = .ok () := h
      rw [hsent]
      rfl
    | call request =>
      cases answer with
      | ok result => rfl
      | error e => exact decide_eq_true (short_of_serviceAnswers h)
    | accept | next => rfl
  | _ => rfl

theorem learnAll_answering (hlog : ∀ entry ∈ log, entry.1.isBoundary = false)
    (hworks : ∀ entry ∈ log, WorkingAnswer v entry) :
    (answering fromStr).learnAll g log = ⟨g.text, g.sent ++ sentFrames log, g.calls + log.length, g.works⟩ := by
  induction log generalizing g with
  | nil => rw [sentFrames, List.flatMap_nil, List.append_nil]; rfl
  | cons entry log ih =>
    obtain ⟨he, hlog⟩ := List.forall_mem_cons.1 hlog
    obtain ⟨hwork, hworks⟩ := List.forall_mem_cons.1 hworks
    have hlearn : g.learn entry.1 entry.2 = ⟨g.text, g.sent ++ entry.1.sends entry.2, g.calls + 1, g.works⟩ := by
      have hworking := works_of_working hwork
      obtain ⟨call, answer⟩ := entry
      cases call with
      | select => cases he
      | close => cases he
      | _ =>
        dsimp only [Since.learn] at hworking ⊢
        rw [hworking, Bool.and_true]
    have hf : (answering fromStr).learnAll g (entry :: log) =
        (answering fromStr).learnAll (g.learn entry.1 entry.2) log := rfl
    rw [hf, hlearn, ih hlog hworks, sentFrames, sentFrames, List.flatMap_cons, List.length_cons, List.append_assoc]
    dsimp only
    rw [Nat.add_assoc, Nat.add_comm 1]

/-- The program is about to read the next message or to close, or it has ended. -/
def AtBoundary {α : Type} : Prog SessionCall.Answer α → Prop
  | .ret _ => True
  | .call call _ => call.isBoundary = true

def readsText (text : String) : Sigma SessionCall.Answer := ⟨.select, .message (some (.ok (.text text)))⟩

/-- **One answer for each text.** On an authenticated session whose transport and service work, a text that was read is
followed by at most seven calls until the session reads on, closes or ends. By then exactly one frame was sent, of at most
the size of a frame and with the id of the request, if and only if the error of the JSON parser for the text, where there
is one, fits in a frame. -/
theorem text_answered_iff {v : Verifier} {context : SessionContext} {fuel : Nat} {authenticated : Authenticated}
    {report : SessionReport} {before after : List (Sigma SessionCall.Answer)} {text : String}
    {rest : Prog SessionCall.Answer (Except SessionError Unit × SessionReport)}
    (hrun : (runAuthenticated fromStr context fuel authenticated report).After (before ++ readsText text :: after) rest)
    (hafter : ∀ entry ∈ after, entry.1.isBoundary = false) (hworks : ∀ entry ∈ after, WorkingAnswer v entry) :
    after.length ≤ 7 ∧ (AtBoundary rest → (AnsweredOnce fromStr text (sentFrames after) ↔ ErrorFits fromStr text)) := by
  have hobeys := (Method.obeys_iff.1 (obeys_runAuthenticated (s := report) context fuel authenticated)).after hrun
  have hknown : (answering fromStr).learnAll (answering fromStr).start (before ++ readsText text :: after) =
      ⟨some text, sentFrames after, after.length, true⟩ := by
    have hread (g : Since) : (answering fromStr).learnAll g (readsText text :: after) =
        (answering fromStr).learnAll ⟨some text, [], 0, true⟩ after := rfl
    rw [Protocol.learnAll, List.foldl_append]
    refine (hread _).trans ?_
    rw [learnAll_answering hafter hworks]
    simp
  rw [hknown] at hobeys
  cases rest with
  | ret x =>
    have hsettled : Settled fromStr 7 _ := hobeys
    obtain ⟨hcalls, hanswer⟩ := hsettled rfl text rfl
    exact ⟨hcalls, fun _ => hanswer⟩
  | call call next =>
    obtain ⟨⟨hcalls, hsettled⟩, -⟩ := hobeys
    exact ⟨hcalls rfl text rfl, fun hboundary => (hsettled hboundary rfl text rfl).2⟩

/-! ## Two sessions -/

/-- A device of the account `a1`. -/
def onesDevice : Authenticated := ⟨"a1", .replicate 32 1⟩

def attached : List (Sigma SessionCall.Answer) :=
  [⟨.await (.call (.attach "a1" 1)), .ok .null⟩, ⟨.instant, 0⟩, ⟨.instant, 0⟩]

end Answers

def quietService : Service × Database := ({ config := ⟨.replicate 32 0, []⟩, subscribers := fun _ => [] }, .fresh)

/-- A hello on an authenticated session, which the service refuses. -/
def secondHello : List (Sigma SessionCall.Answer) :=
  let error : ServerError := ⟨.alreadyAuthenticated, "this connection is already authenticated"⟩
  [⟨.instant, 0⟩, ⟨.instant, 0⟩, ⟨.unixNow, (1000 : UInt64)⟩,
   ⟨.await (.call (.command "a1" (.replicate 32 1) (.hello 1 1 (hexEncode (List.replicate 32 1))) 1000)), .error error⟩,
   ⟨.await (.send (.text (failureFrame "a" error))), .ok ()⟩]

theorem calls_secondHello :
    (runAuthenticated parseOnes sevenContext 2 onesDevice {}).Calls
      (attached ++ readsText onesExchange.hello :: secondHello) .select := by
  decide +kernel

theorem secondHello_answered :
    secondHello.length ≤ 7 ∧
      (AnsweredOnce parseOnes onesExchange.hello (sentFrames secondHello) ↔ ErrorFits parseOnes onesExchange.hello) := by
  obtain ⟨next, hrun⟩ := calls_secondHello
  have hafter : ∀ entry ∈ secondHello, entry.1.isBoundary = false := by decide
  have hworks : ∀ entry ∈ secondHello, WorkingAnswer .transparent entry := by
    unfold secondHello
    simp only [List.forall_mem_cons]
    refine ⟨trivial, trivial, trivial, ?_, rfl, fun _ h => by cases h⟩
    exact .inl ⟨quietService, quietService, Method.exec_throw.2 ⟨rfl, rfl⟩⟩
  obtain ⟨hcalls, hanswer⟩ := text_answered_iff hrun hafter hworks
  exact ⟨hcalls, hanswer rfl⟩

def unknownMethod (name : String) : String := "\x7b\"version\":1,\"id\":\"a\",\"method\":\"" ++ name ++ "\"\x7d"

/-- The JSON parser, on such a request: its error names the method. -/
def parseUnknown (name text : String) : Except String Request :=
  if text = unknownMethod name then
    .error ("unknown variant `" ++ name ++ "`, expected one of `hello`, `authenticate`, `status`, `claim-handle`, " ++
      "`resolve-handle`, `bind-nostr`, `unbind-nostr` at line 1 column " ++ toString (unknownMethod name).utf8ByteSize)
  else .error "expected value at line 1 column 1"

section Unknown
variable {name : String} (hname : 16300 ≤ name.utf8ByteSize)
include hname

theorem unknownMethod_too_large {error : ServerError}
    (h : parseRequest (parseUnknown name) (unknownMethod name) = .error error) :
    maxFrameBytes < (failureFrame "" error).utf8ByteSize := by
  have hesc := Json.utf8ByteSize_le_escapedSize name
  have hcode : Json.escapedSize ErrorCode.invalidRequest.name = 15 := by decide
  have htext : Json.escapedSize "request is not a valid protocol frame: " = 39 := by decide
  rw [parseRequest, parseUnknown, if_pos rfl] at h
  cases h
  simp only [utf8ByteSize_failureFrame, Json.escapedSize_append]
  unfold maxFrameBytes
  omega

theorem calls_close_of_unknownMethod :
    (runAuthenticated (parseUnknown name) sevenContext 1 onesDevice {}).Calls
      (attached ++ readsText (unknownMethod name) :: [⟨.instant, (0 : Nat)⟩,
        ⟨.await (.call (.detach "a1" 1)), .ok .null⟩])
      .close := by
  obtain ⟨error, hp⟩ : ∃ error, parseRequest (parseUnknown name) (unknownMethod name) = .error error := by
    rw [parseRequest, parseUnknown, if_pos rfl]
    exact ⟨_, rfl⟩
  have hlarge := unknownMethod_too_large hname hp
  rw [Prog.calls_iff_follow]
  simp [attached, readsText, onesDevice, sevenContext, runAuthenticated, serve, select, instant, await, closeSocket,
    countRequest, handleRequest, sendText, Method.bind_apply, Method.pure_apply, Method.request, Method.attempt,
    Method.modify, Method.ofExcept, Method.throw, Except.mapError, Prog.bind, Prog.follow, Prog.head?, hp, hlarge]

theorem unanswered_of_unknownMethod :
    ∃ after, (runAuthenticated (parseUnknown name) sevenContext 1 onesDevice {}).Calls
        (attached ++ readsText (unknownMethod name) :: after) .close ∧
      (∀ entry ∈ after, entry.1.isBoundary = false) ∧ (∀ entry ∈ after, WorkingAnswer .transparent entry) ∧
      sentFrames after = [] := by
  refine ⟨_, calls_close_of_unknownMethod hname, by decide, ?_, by decide⟩
  have hdetached : ∃ c', (Service.handle .transparent (.detach "a1" 1)).Exec SqliteStep quietService (.ok .null) c' :=
    ⟨_, Method.exec_bind_ok.2 ⟨(), _, Method.exec_modify.2 ⟨rfl, rfl⟩, Method.exec_pure.2 ⟨rfl, rfl⟩⟩⟩
  simp only [List.forall_mem_cons]
  exact ⟨trivial, .inl ⟨quietService, hdetached⟩, fun _ h => by cases h⟩

end Unknown

theorem utf8ByteSize_replicate (n : Nat) {c : Char} (h : c.utf8Size = 1) :
    (String.ofList (List.replicate n c)).utf8ByteSize = n := by
  rw [utf8ByteSize_ofList, charBytes, List.map_replicate, List.sum_replicate, h, smul_eq_mul, Nat.mul_one]

/-- A name of 16300 letters. It is irreducible, or else the elaborator would write them out. -/
@[irreducible] def longName : String := String.ofList (List.replicate 16300 'm')

theorem utf8ByteSize_longName : longName.utf8ByteSize = 16300 := by
  unfold longName
  exact utf8ByteSize_replicate 16300 rfl

theorem utf8ByteSize_between {a b : String} {m n : Nat} (ha : a.utf8ByteSize = m) (hb : b.utf8ByteSize = n) (s : String) :
    (a ++ s ++ b).utf8ByteSize = m + s.utf8ByteSize + n := by
  rw [String.utf8ByteSize_append, String.utf8ByteSize_append, ha, hb]

theorem utf8ByteSize_unknownMethod (name : String) : (unknownMethod name).utf8ByteSize = 32 + name.utf8ByteSize + 2 := by
  have hst : "\x7b\"version\":1,\"id\":\"a\",\"method\":\"".utf8ByteSize = 32 := by decide +kernel
  have hend : "\"\x7d".utf8ByteSize = 2 := by decide +kernel
  exact utf8ByteSize_between hst hend name

/-- The session of a client that asks for a method with that name ends without an answer. -/
theorem unknownMethod_unanswered :
    (unknownMethod longName).utf8ByteSize ≤ maxFrameBytes ∧
      ∃ after, (runAuthenticated (parseUnknown longName) sevenContext 1 onesDevice {}).Calls
          (attached ++ readsText (unknownMethod longName) :: after) .close ∧
        (∀ entry ∈ after, entry.1.isBoundary = false) ∧ (∀ entry ∈ after, WorkingAnswer .transparent entry) ∧
        sentFrames after = [] := by
  have hname := utf8ByteSize_longName
  refine ⟨?_, unanswered_of_unknownMethod (by omega)⟩
  rw [utf8ByteSize_unknownMethod, hname]
  decide

end OmaChat.Server

import OmaChat.Daemon.HostedCalls
import OmaChat.Lib.Endless

/-!
# The outcomes of hosted calls

What the calls through the hosted transport end with, over whole runs.

* `CallStep` : what a step can do to one call; `Hosted.Sound` : what holds in every state;
* `run_outcomes` : a call gets one outcome at most; `run_answerRead` : a result was read in a frame with the id of the call;
* `HostedStep.cuts`, `closed_outcomes` : the calls that wait when their connection, or the transport, ends;
* `call_ends` : in a fair run every call ends; `requests_written_once` : a request is written once at most.
-/

namespace OmaChat.Daemon
open Wire Proto Oneshot Transition Filter

variable {fromStr : String → Option Json} {i : CallId} {l : HostedLabel} {request : HostedRequest} {t t' : Hosted}

def Hosted.outcome (t : Hosted) (i : CallId) : Option (Except HostedError Json) :=
  match t.calls i with
  | some ⟨_, .finished outcome⟩ => some outcome
  | _ => none

def HostedLabel.outcome (i : CallId) : HostedLabel → Option (Except HostedError Json)
  | .finish j outcome => if j = i then some outcome else none
  | _ => none

def outcomes (i : CallId) (ls : List HostedLabel) : List (Except HostedError Json) := ls.filterMap (HostedLabel.outcome i)

variable {frame : Json}

theorem HostedLabel.outcome_eq_some {outcome : Except HostedError Json} :
    l.outcome i = some outcome ↔ l = .finish i outcome := by
  cases l with
  | finish j o =>
    simp [HostedLabel.outcome, HostedLabel.finish.injEq]
  | _ => simp [HostedLabel.outcome]

theorem outcomes_cons (i : CallId) (l : HostedLabel) (ls : List HostedLabel) :
    outcomes i (l :: ls) = (l.outcome i).toList ++ outcomes i ls := by
  unfold outcomes
  cases h : l.outcome i with
  | none => rw [List.filterMap_cons_none h]; rfl
  | some outcome => rw [List.filterMap_cons_some h]; rfl

/-! ## What a step does to one call -/

inductive CallStep (t : Hosted) (l : HostedLabel) (t' : Hosted) (i : CallId) : Prop where
  | stays : t'.calls i = t.calls i → l.outcome i = none → CallStep t l t' i
  | made (request : HostedRequest) : t.calls i = none → t'.calls i = some ⟨request, .sending⟩ → l.outcome i = none →
      CallStep t l t' i
  | sent (request : HostedRequest) : t.calls i = some ⟨request, .sending⟩ → t'.calls i = some ⟨request, .waiting⟩ →
      l.outcome i = none → CallStep t l t' i
  | ended {request : HostedRequest} {stage : CallStage} {outcome : Except HostedError Json} :
      t.calls i = some ⟨request, stage⟩ → t.book.Ends i stage outcome →
      t'.calls i = some ⟨request, .finished outcome⟩ → l = .finish i outcome → CallStep t l t' i

section Steps
variable {s : Hosted} {ls : List HostedLabel}

theorem Hosted.same_goOn (t : Hosted) (state : HostedState) : (t.goOn state).calls = t.calls ∧
    (t.goOn state).requests = t.requests ∧ (t.goOn state).events = t.events ∧ (t.goOn state).given = t.given := by
  cases state <;> exact ⟨rfl, rfl, rfl, rfl⟩

theorem Hosted.same_readFrame (t : Hosted) (frame : Json) : (t.readFrame frame).calls = t.calls ∧
    (t.readFrame frame).requests = t.requests ∧ (t.readFrame frame).events = t.events ∧
    (t.readFrame frame).given = t.given := by
  unfold Hosted.readFrame
  split
  · exact ⟨rfl, rfl, rfl, rfl⟩
  split
  · exact ⟨rfl, rfl, rfl, rfl⟩
  split <;> exact ⟨rfl, rfl, rfl, rfl⟩

theorem Hosted.calls_setCall_self (t : Hosted) (i : CallId) (call : HostedCall) : (t.setCall i call).calls i = some call :=
  Function.update_self ..

theorem Hosted.calls_setCall_of_ne (t : Hosted) {j : CallId} (h : j ≠ i) (call : HostedCall) :
    (t.setCall i call).calls j = t.calls j :=
  Function.update_of_ne h ..

/-- **All that a step can do to one call.** -/
theorem HostedStep.callStep (h : HostedStep fromStr t l t') (i : CallId) : CallStep t l t' i := by
  -- the steps of one call, for that call and for others
  have hends {j : CallId} {request : HostedRequest} {stage : CallStage} {outcome : Except HostedError Json}
      (hj : t.calls j = some ⟨request, stage⟩) (he : t.book.Ends j stage outcome) :
      CallStep t (.finish j outcome) (t.setCall j ⟨request, .finished outcome⟩) i := by
    by_cases heq : i = j
    · subst heq
      exact .ended hj he (t.calls_setCall_self ..) rfl
    · exact .stays (t.calls_setCall_of_ne heq _) (if_neg (Ne.symm heq))
  cases h with
  | @call j request hj =>
    by_cases heq : i = j
    · subst heq
      exact .made request hj (t.calls_setCall_self ..) rfl
    · exact .stays (t.calls_setCall_of_ne heq _) rfl
  | @send j request hj _ _ =>
    by_cases heq : i = j
    · subst heq
      exact .sent request hj (t.calls_setCall_self ..) rfl
    · exact .stays (t.calls_setCall_of_ne heq _) rfl
  | refuse hj _ => exact hends hj .refused
  | receive hj hr => exact hends hj (.received hr)
  | dropped hj hr => exact hends hj (.dropped hr)
  | timeout hj hr => exact hends hj (.timeout hr)
  | @queue state _ _ => exact .stays (congrFun (Hosted.same_goOn _ state).1 i) rfl
  | @frame _ frame _ _ => exact .stays (congrFun (t.same_readFrame frame).1 i) rfl
  | _ => exact .stays rfl rfl

theorem HostedStep.outcome (h : HostedStep fromStr t l t') (i : CallId) :
    (t'.outcome i).toList = (t.outcome i).toList ++ (l.outcome i).toList := by
  unfold Hosted.outcome
  cases h.callStep i with
  | stays hcalls hl => rw [hcalls, hl, Option.toList_none, List.append_nil]
  | made request hnone hcalls hl => rw [hcalls, hl, hnone]; rfl
  | sent request hsending hcalls hl => rw [hcalls, hl, hsending]; rfl
  | ended hcalls he hfin hl =>
    rw [hcalls, hfin, HostedLabel.outcome_eq_some.2 hl]
    cases he <;> rfl

theorem run_outcome (h : Run (HostedStep fromStr) t ls s) (i : CallId) :
    (s.outcome i).toList = (t.outcome i).toList ++ outcomes i ls := by
  induction h with
  | nil t => exact (List.append_nil _).symm
  | cons hl _ ih => rw [ih, hl.outcome, outcomes_cons, List.append_assoc]

theorem run_outcomes (h : Run (HostedStep fromStr) .spawn ls t) (i : CallId) : outcomes i ls = (t.outcome i).toList :=
  (run_outcome h i).symm

theorem outcomes_of_steps {I : Hosted → Prop} {P : Except HostedError Json → Prop}
    (hstep : ∀ t l t', HostedStep fromStr t l t' → I t → I t' ∧ ∀ outcome, l = .finish i outcome → P outcome)
    (h : Run (HostedStep fromStr) t ls s) (ht : I t) : ∀ outcome ∈ outcomes i ls, P outcome := by
  induction h with
  | nil t => exact fun _ hmem => absurd hmem List.not_mem_nil
  | cons hl _ ih =>
    obtain ⟨hnext, hP⟩ := hstep _ _ _ hl ht
    intro outcome hmem
    rw [outcomes_cons] at hmem
    rcases List.mem_append.1 hmem with hmem | hmem
    · exact hP outcome (HostedLabel.outcome_eq_some.1 (Option.mem_toList.1 hmem))
    · exact ih hnext outcome hmem

/-! ## What holds in every state -/

def HostedPhase.stopped : HostedPhase → Bool
  | .draining | .ended => true
  | _ => false

structure Hosted.Sound (t : Hosted) : Prop where
  tidy : t.Tidy
  book : BookSound t.book
  closed : t.closed = t.phase.stopped
  ended : t.phase = .ended → t.requests = []
  room : t.requests.length ≤ requestQueue
  events : t.events.length ≤ hostedEventQueue

theorem Hosted.sound_spawn : Hosted.spawn.Sound where
  tidy _ := rfl
  book := bookSound_spawn
  closed := rfl
  ended := nofun
  room := Nat.zero_le _
  events := Nat.zero_le _

variable {b b' : CallBook} {r : Receipt} {outcome : Except HostedError Json}

theorem BookSteps.sound (h : BookSteps b b') (hb : BookSound b) : BookSound b' := by
  induction h with
  | refl => exact hb
  | tail _ hstep ih => exact hstep.sound ih

theorem Hosted.closed_endSession (h : t.closed = false) (reason : String) :
    (t.endSession reason).closed = (t.endSession reason).phase.stopped := h

theorem Hosted.closed_goOn (h : t.closed = false) (state : HostedState) :
    (t.goOn state).closed = (t.goOn state).phase.stopped := by
  cases state with
  | stopped => rfl
  | _ => exact h

theorem Hosted.closed_readFrame (hp : t.phase = .session) (h : t.closed = false) (frame : Json) :
    (t.readFrame frame).closed = (t.readFrame frame).phase.stopped := by
  unfold Hosted.readFrame
  split
  · exact h
  split
  · exact Hosted.closed_endSession h _
  split
  · rw [hp]
    exact h
  · exact h.trans (congrArg HostedPhase.stopped hp.symm)

section
variable (h : HostedStep fromStr t l t')
include h

theorem HostedStep.closed (ht : t.closed = t.phase.stopped) : t'.closed = t'.phase.stopped := by
  have hopen {phase : HostedPhase} (hp : t.phase = phase) (hruns : phase.stopped = false) : t.closed = false := by
    rw [ht, hp, hruns]
  cases h with
  | top hp | watch hp | interrupt hp | connect _ hp | connectFails _ hp | wake hp | quit hp | forward hp =>
    exact hopen hp rfl
  | @queue state hp _ => exact Hosted.closed_goOn (t := { t with events := t.events ++ [.state state] }) (hopen hp rfl) state
  | reject | accept | drain => exact ht
  | acceptFails hp _ | malformed hp _ | close _ hp => exact Hosted.closed_endSession (hopen hp rfl) _
  | frame hp _ => exact Hosted.closed_readFrame hp (hopen hp rfl) _
  | ended hp _ =>
    rw [hp] at ht
    exact ht
  | _ => exact ht

theorem HostedStep.requests :
    t'.requests = t.requests ∨
      (t.closed = false ∧ t'.phase = t.phase ∧ t.requests.length < requestQueue ∧
        ∃ x, t'.requests = t.requests ++ [x] ∧ t.calls x.1 = some ⟨x.2, .sending⟩) ∨
      ∃ x, t.requests = x :: t'.requests := by
  cases h with
  | send hi hcl hroom => exact .inr (.inl ⟨hcl, rfl, hroom, _, rfl, hi⟩)
  | reject _ hr | accept _ hr | acceptFails _ hr | drain _ hr => exact .inr (.inr ⟨_, hr⟩)
  | queue => exact .inl (Hosted.same_goOn _ _).2.1
  | frame => exact .inl (Hosted.same_readFrame _ _).2.1
  | _ => exact .inl rfl

theorem HostedStep.events :
    t'.events = t.events ∨ (t.events.length < hostedEventQueue ∧ ∃ event, t'.events = t.events ++ [event]) ∨
      ∃ event, t.events = event :: t'.events := by
  cases h with
  | queue _ hroom => exact .inr (.inl ⟨hroom, _, (Hosted.same_goOn _ _).2.2.1⟩)
  | forward _ hroom => exact .inr (.inl ⟨hroom, _, rfl⟩)
  | take hr => exact .inr (.inr ⟨_, hr⟩)
  | frame => exact .inl (Hosted.same_readFrame _ _).2.2.1
  | _ => exact .inl rfl

theorem HostedStep.ended_phase (hp : t'.phase = .ended) : t.phase = .ended ∨ t.requests = [] := by
  cases h with
  | call | send | refuse | receive | dropped | timeout | stop | take | reject | accept | drain => exact .inl hp
  | ended _ hr => exact .inr hr
  | @queue state => cases state <;> cases hp
  | @frame _ frame hsession _ =>
    unfold Hosted.readFrame at hp
    split at hp
    · cases hp
    split at hp
    · cases hp
    split at hp <;> exact .inl hp
  | _ => cases hp

/-- **Every step keeps the transport sound.** -/
theorem HostedStep.sound (ht : t.Sound) : t'.Sound where
  tidy := h.tidy ht.tidy
  book := BookSteps.sound (h.book ht.tidy) ht.book
  closed := h.closed ht.closed
  ended hp := by
    have hnil : t.requests = [] := (h.ended_phase hp).elim ht.ended id
    rcases h.requests with hsame | ⟨hopen, hph, -⟩ | ⟨x, hx⟩
    · rw [hsame, hnil]
    · -- the queue is open, so the task has not ended
      have hcl := ht.closed
      rw [hopen, ← hph, hp] at hcl
      cases hcl
    · rw [hnil] at hx
      cases hx
  room := by
    have hroom := ht.room
    rcases h.requests with hsame | ⟨-, -, hlt, x, hx, -⟩ | ⟨x, hx⟩
    · rw [hsame]
      exact hroom
    · rw [hx, List.length_append]
      exact hlt
    · rw [hx, List.length_cons] at hroom
      omega
  events := by
    have hroom := ht.events
    rcases h.events with hsame | ⟨hlt, event, hx⟩ | ⟨event, hx⟩
    · rw [hsame]
      exact hroom
    · rw [hx, List.length_append]
      exact hlt
    · rw [hx, List.length_cons] at hroom
      omega

end

theorem run_sound (h : Run (HostedStep fromStr) t ls s) (ht : t.Sound) : s.Sound :=
  h.invariant (fun _ _ _ hl hs => hl.sound hs) ht

/-! ## Replies -/

theorem BookStep.reply_stays (h : BookStep b b') (hb : BookSound b) (hi : b.replies i ≠ .empty) :
    b'.replies i = b.replies i := by
  have hnot : i ∉ b.owners := fun hmem => hi (hb.held.empty i hmem)
  cases h with
  | reject hr _ =>
    refine send_of_ne ?_ _
    rintro rfl
    exact hnot (List.mem_append_left _ (List.mem_map.2 ⟨_, hr ▸ List.mem_cons_self, rfl⟩))
  | @answer id j frame _ hj =>
    refine send_of_ne ?_ _
    rintro rfl
    obtain ⟨l₁, l₂, hl, -⟩ := List.lookup_eq_some_iff.1 hj
    exact hnot (List.mem_append_right _ (List.mem_map.2 ⟨(id, i), by simp [hl], rfl⟩))
  | close => exact drop_of_not_mem fun hmem => hnot (List.mem_append_right _ hmem)
  | _ => rfl

theorem BookSteps.reply_stays (h : BookSteps b b') (hb : BookSound b) (hi : b.replies i ≠ .empty) :
    b'.replies i = b.replies i := by
  induction h with
  | refl => rfl
  | tail hsteps hstep ih =>
    rw [← ih]
    exact hstep.reply_stays (BookSteps.sound hsteps hb) (ih ▸ hi)

theorem HostedStep.reply_stays (h : HostedStep fromStr t l t') (ht : t.Sound) (hi : t.replies i ≠ .empty) :
    t'.replies i = t.replies i :=
  BookSteps.reply_stays (h.book ht.tidy) ht.book hi

theorem HostedStep.receipt (h : HostedStep fromStr t l t') (hr : r ∈ t'.receipts) :
    r ∈ t.receipts ∨ ∃ text, l = .frame text ∧ t.phase = .session ∧ fromStr text = some r.frame ∧
      textField "event" r.frame = none ∧ r.connection = t.connection ∧ t'.given = t.given := by
  cases h with
  | @frame text frame hp htext =>
    unfold Hosted.readFrame at hr ⊢
    split at hr
    · exact .inl hr
    rename_i hev
    split at hr
    · exact .inl hr
    split at hr
    · exact .inl hr
    · rcases List.mem_append.1 hr with hr | hr
      · exact .inl hr
      · obtain rfl := List.mem_singleton.1 hr
        exact .inr ⟨text, rfl, hp, htext, hev, rfl, by simp [*, Hosted.reply]⟩
  | @queue state =>
    left
    cases state <;> exact hr
  | _ => exact .inl hr

theorem run_receipt (h : Run (HostedStep fromStr) t ls s) (hr : r ∈ s.receipts) :
    r ∈ t.receipts ∨ ∃ before text after u u', ls = before ++ .frame text :: after ∧
      Run (HostedStep fromStr) t before u ∧
      HostedStep fromStr u (.frame text) u' ∧ Run (HostedStep fromStr) u' after s ∧ u.phase = .session ∧
      fromStr text = some r.frame ∧ r.connection = u.connection ∧ r ∈ u'.receipts ∧ u'.given = u.given := by
  induction h with
  | nil t => exact .inl hr
  | cons hl hrest ih =>
    rcases ih hr with hr | ⟨before, text, after, u, u', hls, hb, hread⟩
    · rcases hl.receipt hr with hr' | ⟨text, rfl, hp, htext, -, hconn, hgiven⟩
      · exact .inl hr'
      · exact .inr ⟨[], text, _, _, _, rfl, .nil _, hl, hrest, hp, htext, hconn, hr, hgiven⟩
    · exact .inr ⟨_ :: before, text, after, u, u', by rw [hls]; rfl, .cons hl hb, hread⟩

/-- In a run to `s`, the session reads the answer to a call: a frame with the id that was given to this call, and to no
other, on the connection that the frame is read from. -/
def AnswerRead (fromStr : String → Option Json) (ls : List HostedLabel) (s : Hosted) (i : CallId)
    (outcome : Except HostedError Json) : Prop :=
  ∃ before text after t frame, ∃ g ∈ t.given, ls = before ++ .frame text :: after ∧
    Run (HostedStep fromStr) .spawn before t ∧ Run (HostedStep fromStr) t (.frame text :: after) s ∧ t.phase = .session ∧
    g.call = i ∧ g.connection = t.connection ∧
    (∀ g' ∈ t.given, g'.call = i ∨ (g'.connection = g.connection ∧ g'.id = g.id) → g' = g) ∧
    fromStr text = some frame ∧ textField "id" frame = some g.id ∧ outcome = responseOutcome frame

theorem run_answerRead (h : Run (HostedStep fromStr) .spawn ls s) (hr : r ∈ s.receipts) :
    AnswerRead fromStr ls s r.call (responseOutcome r.frame) := by
  rcases run_receipt h hr with hr | ⟨before, text, after, t, t', hls, hb, hl, ha, hp, htext, hconn, hr, hgiven⟩
  · cases hr
  have hsound : t'.Sound := hl.sound (run_sound hb Hosted.sound_spawn)
  obtain ⟨hid, g, hg, hsame, hgid, hcall⟩ := hsound.book.receipts r hr
  have hdist := hsound.book.distinct
  rw [show t'.book.given = t.given from hgiven] at hg hdist
  refine ⟨before, text, after, t, r.frame, g, hg, hls, hb, .cons hl ha, hp, hcall, hsame.trans hconn, ?_, htext,
    hgid ▸ hid, rfl⟩
  intro g' hg' heq
  exact hdist g' hg' g hg (heq.elim (fun h => .inr (h.trans hcall.symm)) .inl)

theorem run_explains (h : Run (HostedStep fromStr) .spawn ls s) (hmem : outcome ∈ outcomes i ls) :
    outcome = .error .timeout ∨ outcome = .error .disconnected ∨ outcome = .error .stopped ∨
      AnswerRead fromStr ls s i outcome := by
  have hfin : ∃ request, s.calls i = some ⟨request, .finished outcome⟩ := by
    rw [run_outcomes h, Option.mem_toList, Hosted.outcome] at hmem
    split at hmem
    · rename_i request o hcall
      cases hmem
      exact ⟨request, hcall⟩
    · cases hmem
  obtain ⟨request, hcall⟩ := hfin
  rcases (run_sound h Hosted.sound_spawn).book.finished i request outcome hcall with htimeout | hexplains
  · exact .inl htimeout
  · cases hexplains with
    | lost hlost => exact hlost.elim (fun h => .inr (.inl (by rw [h]))) fun h => .inr (.inr (.inl (by rw [h])))
    | frame hr hi =>
      subst hi
      exact .inr (.inr (.inr (run_answerRead h hr)))

/-! ## Connections and the transport end -/

/-- **A session that ends answers every call that it has taken and not answered.** -/
theorem HostedStep.cuts (h : HostedStep fromStr t l t') (ht : t.Sound) (hin : t.phase.inSession = true)
    (hout : t'.phase.inSession = false) (hwait : t.calls i = some ⟨request, .waiting⟩)
    (hempty : t.replies i = .empty) (htaken : i ∉ t'.requests.map Prod.fst) :
    t'.replies i = .dropped ∨ t'.replies i = .sent (.error .disconnected) := by
  have howner := List.mem_append.1 (ht.book.owned i request hwait hempty)
  have hdrops {t₁ : Hosted} {reason : String} (hpend : t₁.pending = t.pending) (hrequests : t₁.requests = t.requests)
      (hgone : i ∉ (t₁.endSession reason).requests.map Prod.fst) : (t₁.endSession reason).replies i = .dropped := by
    have hmem := howner.resolve_left (by rw [← show t₁.requests = t.book.requests from hrequests]; exact hgone)
    exact drop_of_mem (hpend ▸ hmem)
  have hph : t'.phase = t.phase → False := by
    intro hsame
    rw [hsame, hin] at hout
    cases hout
  cases h with
  | top hp | watch hp | queue hp | interrupt hp | connect _ hp | connectFails _ hp | wake hp | quit hp | ended hp =>
    rw [hp] at hin
    cases hin
  | forward => cases hout
  | malformed | close => exact .inl (hdrops rfl rfl htaken)
  | @acceptFails j request' rest hp hr =>
    by_cases hmem : i ∈ t.pending.map Prod.snd
    · exact .inl (drop_of_mem hmem)
    · right
      have hrequested := howner.resolve_right hmem
      rw [show t.book.requests = (j, request') :: rest from hr, List.map_cons] at hrequested
      obtain rfl := (List.mem_cons.1 hrequested).resolve_right htaken
      exact (drop_of_not_mem hmem).trans (send_self ..)
  | @frame text frame hp _ =>
    unfold Hosted.readFrame at hout htaken ⊢
    split at hout
    · cases hout
    split at hout
    · simp only [*] at htaken ⊢
      exact .inl (hdrops rfl rfl htaken)
    split at hout <;> exact (Bool.noConfusion (hin.symm.trans hout))
  | _ => exact (hph rfl).elim

/-- The call was made, and its caller does not wait for the queue any more. -/
def Hosted.HasSent (t : Hosted) (i : CallId) : Prop :=
  t.calls i ≠ none ∧ ∀ request, t.calls i ≠ some ⟨request, .sending⟩

theorem CallStep.outcome_of_reply (h : CallStep t (.finish i outcome) t' i) (hsent : t.HasSent i) (hi : t.replies i ≠ .empty) :
    t.replies i = .sent outcome ∨ (t.replies i = .dropped ∧ outcome = .error .disconnected) := by
  have hlabel : (HostedLabel.finish i outcome).outcome i = some outcome := HostedLabel.outcome_eq_some.2 rfl
  cases h with
  | stays _ hl | made _ _ _ hl | sent _ _ _ hl =>
    rw [hlabel] at hl
    cases hl
  | ended hcalls he _ hl =>
    cases hl
    cases he with
    | refused => exact absurd hcalls (hsent.2 _)
    | received hr => exact .inl hr
    | dropped hr => exact .inr ⟨hr, rfl⟩
    | timeout hr => exact absurd hr hi

theorem CallStep.sent_stays (h : CallStep t l t' i) (hsent : t.HasSent i) : t'.HasSent i := by
  unfold Hosted.HasSent
  cases h with
  | stays hsame _ =>
    rw [hsame]
    exact hsent
  | made _ hnone => exact absurd hnone hsent.1
  | sent request hsending => exact absurd hsending (hsent.2 request)
  | ended _ _ hfin _ =>
    rw [hfin]
    exact ⟨nofun, nofun⟩

theorem cut_outcomes (h : Run (HostedStep fromStr) t ls s) (ht : t.Sound) (hsent : t.HasSent i)
    (hcut : t.replies i = .dropped ∨ t.replies i = .sent (.error .disconnected)) :
    ∀ outcome ∈ outcomes i ls, outcome = .error .disconnected := by
  refine outcomes_of_steps (I := fun t => t.Sound ∧ t.HasSent i ∧
    (t.replies i = .dropped ∨ t.replies i = .sent (.error .disconnected))) ?_ h ⟨ht, hsent, hcut⟩
  rintro t l t' hl ⟨ht, hsent, hcut⟩
  have hne : t.replies i ≠ .empty := by
    rcases hcut with hcut | hcut <;> exact hcut ▸ nofun
  refine ⟨⟨hl.sound ht, (hl.callStep i).sent_stays hsent, hl.reply_stays ht hne ▸ hcut⟩, ?_⟩
  rintro outcome rfl
  rcases (hl.callStep i).outcome_of_reply hsent hne with hrep | ⟨-, hlost⟩
  · rcases hcut with hcut | hcut
    · cases hcut.symm.trans hrep
    · exact (Cell.sent.inj (hcut.symm.trans hrep)).symm
  · exact hlost

theorem HostedStep.closed_reply (h : HostedStep fromStr t l t') (hstop : t.phase.stopped = true) :
    t'.phase.stopped = true ∧ (t'.replies i = t.replies i ∨ t'.replies i = .sent (.error .stopped)) := by
  cases h with
  | @drain j _ _ hp hr =>
    refine ⟨hstop, ?_⟩
    by_cases heq : i = j
    · subst heq
      exact .inr (send_self ..)
    · exact .inl (send_of_ne heq _)
  | ended => exact ⟨rfl, .inl rfl⟩
  | top hp | watch hp | queue hp | interrupt hp | connect _ hp | connectFails _ hp | wake hp | reject hp | quit hp
  | accept hp | acceptFails hp | frame hp | malformed hp | forward hp | close _ hp =>
    rw [hp] at hstop
    cases hstop
  | _ => exact ⟨hstop, .inl rfl⟩

/-- **A call that has no reply when the transport ends gets `Stopped`, or times out.** -/
theorem closed_outcomes (h : Run (HostedStep fromStr) t ls s) (ht : t.Sound) (hcl : t.closed = true)
    (hempty : t.replies i = .empty) : ∀ outcome ∈ outcomes i ls, outcome = .error .stopped ∨ outcome = .error .timeout := by
  refine outcomes_of_steps (I := fun t => t.phase.stopped = true ∧
    (t.replies i = .empty ∨ t.replies i = .sent (.error .stopped))) ?_ h ⟨ht.closed ▸ hcl, .inl hempty⟩
  rintro t l t' hl ⟨hstop, hrep⟩
  obtain ⟨hstop', hnext⟩ := hl.closed_reply (i := i) hstop
  refine ⟨⟨hstop', hnext.elim (fun h => h ▸ hrep) .inr⟩, ?_⟩
  rintro outcome rfl
  have hlabel : (HostedLabel.finish i outcome).outcome i = some outcome := HostedLabel.outcome_eq_some.2 rfl
  cases hl.callStep i with
  | stays _ hl | made _ _ _ hl | sent _ _ _ hl =>
    rw [hlabel] at hl
    cases hl
  | ended _ he _ hl =>
    cases hl
    cases he with
    | refused => exact .inl rfl
    | timeout => exact .inr rfl
    | dropped hr => exact absurd (hrep.imp hr.symm.trans hr.symm.trans) (by simp)
    | received hr =>
      rcases hrep with hrep | hrep
      · cases hrep.symm.trans hr
      · exact .inl (Cell.sent.inj (hrep.symm.trans hr)).symm

theorem Hosted.Sound.ended_replies (ht : t.Sound) (hp : t.phase = .ended)
    (hwait : t.calls i = some ⟨request, .waiting⟩) : t.replies i ≠ .empty := by
  intro hempty
  rcases List.mem_append.1 (ht.book.owned i request hwait hempty) with hmem | hmem
  · rw [show t.book.requests = [] from ht.ended hp] at hmem
    cases hmem
  · rw [show t.book.pending = [] from ht.tidy (hp ▸ rfl)] at hmem
    cases hmem

end Steps

/-! ## Every call ends -/

def HostedLabel.ofTask : HostedLabel → Bool
  | .run | .connect _ | .accept | .frame _ | .close _ => true
  | _ => false

/-- The kinds of steps that are not put off for ever. -/
inductive HostedAct where
  | send (i : CallId)
  | finish (i : CallId)
  | serve
  /-- The task goes on. In a session it may wait for the server. -/
  | task
  | take

def HostedAct.Does : HostedAct → Hosted → HostedLabel → Hosted → Prop
  | .send i, _, l, _ => l = .send i
  | .finish i, _, l, _ => ∃ outcome, l = .finish i outcome
  | .serve, t, _, t' => t'.requests.length < t.requests.length
  | .task, t, l, _ => l.ofTask = true ∧ t.phase ≠ .session
  | .take, _, l, _ => ∃ event, l = .take event

/-- An endless run from the start in which no kind of step is put off for ever. -/
structure FairRun (fromStr : String → Option Json) extends Endless (HostedStep fromStr) where
  start : state 0 = Hosted.spawn
  fair : ∀ act : HostedAct, toEndless.Fair act.Does

/-- How far the task is from a session, or from a wait between two of them. -/
def HostedPhase.rank : HostedPhase → Nat
  | .top => 6
  | .publishing .connecting => 5
  | .queueing .connecting => 4
  | .connecting => 3
  | .publishing _ => 2
  | .queueing _ => 1
  | _ => 0

def HostedPhase.serves : HostedPhase → Bool
  | .session | .backoff | .draining | .ended => true
  | _ => false

section Live
theorem HostedPhase.rank_goOn (t : Hosted) (state : HostedState) (h : (t.goOn state).phase.serves = false) :
    (t.goOn state).phase.rank < (HostedPhase.queueing state).rank := by
  cases state with
  | connecting => exact (by decide : 3 < 4)
  | _ => cases h

theorem HostedStep.rank (h : HostedStep fromStr t l t') (ht : t.phase.serves = false) (ht' : t'.phase.serves = false) :
    t'.phase.rank ≤ t.phase.rank ∧ (l.ofTask = true → t'.phase.rank < t.phase.rank) := by
  have hserves {phase : HostedPhase} (hp : t.phase = phase) : phase.serves = false := hp ▸ ht
  have hlt (h : t'.phase.rank < t.phase.rank) :
      t'.phase.rank ≤ t.phase.rank ∧ (l.ofTask = true → t'.phase.rank < t.phase.rank) := ⟨h.le, fun _ => h⟩
  cases h with
  | top hp =>
    apply hlt
    rw [hp]
    dsimp only
    split <;> decide
  | @watch state hp =>
    apply hlt
    rw [hp]
    cases state <;> exact Nat.lt_succ_self _
  | @queue state hp _ =>
    apply hlt
    rw [hp]
    exact HostedPhase.rank_goOn _ state ht'
  | interrupt hp _ | connect _ hp =>
    apply hlt
    rw [hp]
    exact (by decide : 2 < 3)
  | connectFails error hp =>
    apply hlt
    rw [hp]
    dsimp only
    split <;> exact (by decide : 2 < 3)
  | forward => cases ht'
  | wake hp | reject hp | quit hp | accept hp | acceptFails hp | frame hp | malformed hp | close _ hp | drain hp | ended hp =>
    cases hserves hp
  | _ => exact ⟨le_rfl, nofun⟩

theorem serve_enabled (hp : t.phase = .session ∨ t.phase = .backoff) (hr : t.requests ≠ []) :
    Enabled (HostedStep fromStr) HostedAct.serve.Does t := by
  obtain ⟨⟨i, request⟩, rest, hcons⟩ := List.exists_cons_of_ne_nil hr
  have hshorter : rest.length < t.requests.length := by rw [hcons]; exact Nat.lt_succ_self _
  rcases hp with hp | hp
  · exact ⟨_, _, .accept hp hcons, hshorter⟩
  · exact ⟨_, _, .reject hp hcons, hshorter⟩

theorem task_enabled (hp : t.phase.serves = false) (hroom : t.events.length < hostedEventQueue) :
    Enabled (HostedStep fromStr) HostedAct.task.Does t := by
  cases hph : t.phase with
  | top => exact ⟨_, _, .top hph, rfl, by simp [hph]⟩
  | publishing state => exact ⟨_, _, .watch hph, rfl, by simp [hph]⟩
  | queueing state => exact ⟨_, _, .queue hph hroom, rfl, by simp [hph]⟩
  | connecting => exact ⟨_, _, .connectFails .disconnected hph, rfl, by simp [hph]⟩
  | forwarding kind data => exact ⟨_, _, .forward hph hroom, rfl, by simp [hph]⟩
  | _ =>
    rw [hph] at hp
    cases hp

theorem HostedStep.events_of_take {event : HostedEvent} (h : HostedStep fromStr t (.take event) t') :
    t'.events.length < t.events.length := by
  cases h with
  | take hevs =>
    rw [hevs]
    exact Nat.lt_succ_self _

theorem finish_enabled (hwait : t.calls i = some ⟨request, .waiting⟩) :
    Enabled (HostedStep fromStr) (HostedAct.finish i).Does t := by
  cases hrep : t.replies i with
  | empty => exact ⟨_, _, .timeout hwait hrep, _, rfl⟩
  | sent outcome => exact ⟨_, _, .receive hwait hrep, _, rfl⟩
  | dropped => exact ⟨_, _, .dropped hwait hrep, _, rfl⟩

theorem HostedStep.outcome_of_finish {outcome : Except HostedError Json} (h : HostedStep fromStr t (.finish i outcome) t') :
    t'.outcome i ≠ none := by
  intro hnone
  have hsame := h.outcome i
  rw [HostedLabel.outcome_eq_some.2 rfl, hnone] at hsame
  exact List.append_ne_nil_of_right_ne_nil _ (List.cons_ne_nil _ _) hsame.symm

/-- The call waits for its reply. -/
def Hosted.Waits (t : Hosted) (i : CallId) : Prop := ∃ request, t.calls i = some ⟨request, .waiting⟩

theorem HostedStep.waits_of_send (h : HostedStep fromStr t (.send i) t') : t'.Waits i := by
  cases h with
  | send => exact ⟨_, Hosted.calls_setCall_self ..⟩

theorem HostedStep.waits (h : HostedStep fromStr t l t') (hwait : t.Waits i) : t'.Waits i ∨ t'.outcome i ≠ none := by
  obtain ⟨request, hwait⟩ := hwait
  cases h.callStep i with
  | stays hsame _ => exact .inl ⟨request, hsame.trans hwait⟩
  | made _ hnone => cases hnone.symm.trans hwait
  | sent _ hsending => cases hsending.symm.trans hwait
  | ended _ _ _ hl =>
    subst hl
    exact .inr h.outcome_of_finish

variable (run : FairRun fromStr)

theorem FairRun.sound (n : Nat) : (run.state n).Sound :=
  Endless.invariant (fun _ _ _ hl hs => hl.sound hs) (run.start ▸ Hosted.sound_spawn) n

variable {run} {n : Nat}

theorem waiting_ends (hwait : (run.state n).Waits i) : ∃ m ≥ n, (run.state m).outcome i ≠ none := by
  by_contra! hnone
  have hwaits (m : Nat) (hm : n ≤ m) : (run.state m).Waits i := by
    refine Endless.keeps (I := fun t : Hosted => t.Waits i) ?_ hwait hm
    intro k hk l hl hwait
    exact (hl.waits hwait).resolve_right fun h => h (hnone (k + 1) (by omega))
  have hen : ∃ᶠ m in atTop, Enabled (HostedStep fromStr) (HostedAct.finish i).Does (run.state m) := by
    refine Eventually.frequently (eventually_atTop.2 ⟨n, fun m hm => ?_⟩)
    obtain ⟨request, hwait⟩ := hwaits m hm
    exact finish_enabled hwait
  obtain ⟨m, hm, htakes⟩ := frequently_atTop.1 (run.fair _ hen) n
  obtain ⟨l, hl, outcome, rfl⟩ := htakes.is_step
  exact hl.outcome_of_finish (hnone (m + 1) (by omega))

theorem serves_again : ∃ᶠ m in atTop, (run.state m).phase.serves = true := by
  by_contra hnever
  have haway : ∀ᶠ m in atTop, (run.state m).phase.serves = false := by
    simpa only [not_frequently, Bool.not_eq_true] using hnever
  obtain ⟨N, hN⟩ := eventually_atTop.1 haway
  -- so it comes closer until it is held up
  have hheld : ¬ ∃ᶠ m in atTop, run.Takes HostedAct.task.Does m := by
    refine Endless.not_frequently_of_rank (fun t : Hosted => t.phase.rank) (eventually_atTop.2 ⟨N, fun m hm => ?_⟩)
    rcases run.moves m with ⟨l, hl, hstep⟩ | ⟨hnone, hsame⟩
    · obtain ⟨hle, hlt⟩ := hstep.rank (hN m hm) (hN (m + 1) (by omega))
      refine ⟨hle, fun ⟨l', hl', htask, _⟩ => hlt ?_⟩
      rw [Option.some.inj (hl.symm.trans hl')]
      exact htask
    · refine ⟨by rw [hsame], fun ⟨l', hl', _⟩ => ?_⟩
      cases hnone.symm.trans hl'
  -- by the queue of events, which is full
  have hfull : ∀ᶠ m in atTop, hostedEventQueue ≤ (run.state m).events.length := by
    have hdisabled := not_frequently.1 (mt (run.fair .task) hheld)
    filter_upwards [haway, hdisabled] with m hm hdisabled
    by_contra hroom
    exact hdisabled (task_enabled hm (by omega))
  -- but the daemon takes events
  have htake : ∃ᶠ m in atTop, run.Takes HostedAct.take.Does m := by
    refine run.fair .take (hfull.frequently.mono fun m hm => ?_)
    cases hevs : (run.state m).events with
    | nil =>
      rw [hevs] at hm
      exact absurd hm (by decide)
    | cons event rest => exact ⟨_, _, .take hevs, event, rfl⟩
  obtain ⟨M, hM⟩ := eventually_atTop.1 hfull
  obtain ⟨m, hm, htakes⟩ := frequently_atTop.1 htake M
  obtain ⟨l, hl, event, rfl⟩ := htakes.is_step
  have hstill := hM (m + 1) (by omega)
  have hroom := (run.sound m).events
  have hless := hl.events_of_take
  omega

theorem sending_ends (run : FairRun fromStr) (n : Nat) (i : CallId) :
    ∃ m ≥ n, ∀ request, (run.state m).calls i ≠ some ⟨request, .sending⟩ := by
  by_contra! hstays
  -- neither of the steps that end the wait is taken, so they are possible for a while only
  have hnever {act : HostedAct} (hact : act = .send i ∨ act = .finish i) :
      ∀ᶠ m in atTop, ¬ Enabled (HostedStep fromStr) act.Does (run.state m) := by
    rw [← not_frequently]
    intro hen
    obtain ⟨m, hm, htakes⟩ := frequently_atTop.1 (run.fair act hen) n
    obtain ⟨l, hl, hdoes⟩ := htakes.is_step
    obtain ⟨request, hnext⟩ := hstays (m + 1) (by omega)
    rcases hact with rfl | rfl
    · cases hdoes
      obtain ⟨request', hwait⟩ := hl.waits_of_send
      cases hwait.symm.trans hnext
    · obtain ⟨outcome, rfl⟩ := hdoes
      refine hl.outcome_of_finish ?_
      rw [Hosted.outcome, hnext]
  have hfull : ∀ᶠ m in atTop, (run.state m).closed = false ∧ requestQueue ≤ (run.state m).requests.length := by
    filter_upwards [hnever (.inl rfl), hnever (.inr rfl), eventually_ge_atTop n] with m hsend hfin hm
    obtain ⟨request, hcall⟩ := hstays m hm
    have hopen : (run.state m).closed = false := by
      by_contra hcl
      exact hfin ⟨_, _, .refuse hcall (Bool.not_eq_false _ ▸ hcl), _, rfl⟩
    refine ⟨hopen, ?_⟩
    by_contra hroom
    exact hsend ⟨_, _, .send hcall hopen (by omega), rfl⟩
  -- a queue that stays full is not served, so the task never comes to serve it
  have hidle : ∀ᶠ m in atTop, ¬ Enabled (HostedStep fromStr) HostedAct.serve.Does (run.state m) := by
    rw [← not_frequently]
    intro hen
    obtain ⟨m, hm⟩ := ((run.fair .serve hen).and_eventually ((eventually_atTop.1 hfull).elim fun N hN =>
      eventually_atTop.2 ⟨N, fun m hm => hN (m + 1) (by omega)⟩)).exists
    obtain ⟨htakes, -, hstill⟩ := hm
    obtain ⟨l, -, hshorter⟩ := htakes.is_step
    have hroom := (run.sound m).room
    have hless : (run.state (m + 1)).requests.length < (run.state m).requests.length := hshorter
    omega
  -- but it comes to a phase in which it can
  obtain ⟨m, hserves, ⟨hopen, hlen⟩, hidle⟩ := (serves_again.and_eventually (hfull.and hidle)).exists
  have hne : (run.state m).requests ≠ [] := by
    intro hnil
    rw [hnil] at hlen
    exact absurd hlen (by decide)
  have hstop : (run.state m).phase.stopped = false := (run.sound m).closed ▸ hopen
  cases hph : (run.state m).phase with
  | session => exact hidle (serve_enabled (.inl hph) hne)
  | backoff => exact hidle (serve_enabled (.inr hph) hne)
  | draining | ended =>
    rw [hph] at hstop
    cases hstop
  | _ =>
    rw [hph] at hserves
    cases hserves

/-- **In a fair run every call gets an outcome.** -/
theorem call_ends (hcall : (run.state n).calls i ≠ none) : ∃ m ≥ n, (run.state m).outcome i ≠ none := by
  have hmade (m : Nat) (hm : n ≤ m) : (run.state m).calls i ≠ none := by
    refine Endless.keeps (I := fun t : Hosted => t.calls i ≠ none) ?_ hcall hm
    intro k _ l hl hk
    cases hl.callStep i with
    | stays hsame _ => rw [hsame]; exact hk
    | made _ _ hnext | sent _ _ hnext | ended _ _ hnext => rw [hnext]; exact nofun
  obtain ⟨m, hm, hsent⟩ := sending_ends run n i
  obtain ⟨⟨request, stage⟩, hstage⟩ := Option.ne_none_iff_exists'.1 (hmade m hm)
  cases stage with
  | sending => exact absurd hstage (hsent request)
  | waiting =>
    obtain ⟨k, hk, hout⟩ := waiting_ends ⟨request, hstage⟩
    exact ⟨k, hm.trans hk, hout⟩
  | finished outcome =>
    refine ⟨m, hm, ?_⟩
    rw [Hosted.outcome, hstage]
    exact nofun

end Live

/-! ## Calls are answered -/

/-- **Hosted calls are answered.** In every run a call gets one outcome at most. An outcome other than a timeout,
`Disconnected` or `Stopped` is the content of a frame that the session reads, with the id that this session gave to the call
and to no other, on the connection that it reads from. A call that the session has taken, and that waits without a reply
when the session ends, can only get `Disconnected` from then on; without a reply when the transport has closed its queue,
only `Stopped` or a timeout; and once the transport has ended, every call that waits has its reply. In a fair run every call
gets an outcome. -/
theorem hosted_calls_answered (fromStr : String → Option Json) :
    (∀ ls t, Run (HostedStep fromStr) .spawn ls t → ∀ i,
      outcomes i ls = (t.outcome i).toList ∧
      (∀ outcome ∈ outcomes i ls, outcome = .error .timeout ∨ outcome = .error .disconnected ∨
        outcome = .error .stopped ∨ AnswerRead fromStr ls t i outcome) ∧
      (∀ request, t.calls i = some ⟨request, .waiting⟩ → t.replies i = .empty → t.phase.inSession = true →
        ∀ l t' ls' s, HostedStep fromStr t l t' → t'.phase.inSession = false → i ∉ t'.requests.map Prod.fst →
          Run (HostedStep fromStr) t' ls' s → ∀ outcome ∈ outcomes i ls', outcome = .error .disconnected) ∧
      (t.closed = true → t.replies i = .empty → ∀ ls' s, Run (HostedStep fromStr) t ls' s →
        ∀ outcome ∈ outcomes i ls', outcome = .error .stopped ∨ outcome = .error .timeout) ∧
      (∀ request, t.calls i = some ⟨request, .waiting⟩ → t.phase = .ended → t.replies i ≠ .empty)) ∧
    ∀ (run : FairRun fromStr) (n : Nat) (i : CallId), (run.state n).calls i ≠ none →
      ∃ m ≥ n, (run.state m).outcome i ≠ none := by
  refine ⟨fun ls t h i => ?_, fun run n i => call_ends⟩
  have ht := run_sound h Hosted.sound_spawn
  refine ⟨run_outcomes h i, fun outcome => run_explains h, ?_,
    fun hclosed hempty ls' s hrun => closed_outcomes hrun ht hclosed hempty,
    fun request hwait hp => ht.ended_replies hp hwait⟩
  intro request hwait hempty hin l t' ls' s hl hout htaken hrun
  have hcut := hl.cuts ht hin hout hwait hempty htaken
  have hsent : t.HasSent i := ⟨by rw [hwait]; exact nofun, by rw [hwait]; exact nofun⟩
  exact cut_outcomes hrun (hl.sound ht) ((hl.callStep i).sent_stays hsent) hcut

/-- A transport that is stopped before it connects; then a call comes. -/
def stoppedAt : Nat → Hosted
  | 0 => .spawn
  | 1 => { Hosted.spawn with stop := true }
  | 2 => { Hosted.spawn with stop := true, phase := .publishing .stopped }
  | 3 => { Hosted.spawn with stop := true, phase := .queueing .stopped, state := .stopped }
  | 4 => stopping .draining [.state .stopped]
  | 5 => (stopping .draining [.state .stopped]).setCall 0 ⟨⟨"account", .null⟩, .sending⟩
  | 6 => refused .draining [.state .stopped]
  | 7 => refused .ended [.state .stopped]
  | _ => refused .ended []
where
  stopping (phase : HostedPhase) (events : List HostedEvent) : Hosted :=
    { Hosted.spawn with stop := true, phase := phase, state := .stopped, events := events, closed := true }
  refused (phase : HostedPhase) (events : List HostedEvent) : Hosted :=
    ((stopping phase events).setCall 0 ⟨⟨"account", .null⟩, .sending⟩).setCall 0
      ⟨⟨"account", .null⟩, .finished (.error .stopped)⟩

theorem not_enabled_of_ended (hp : t.phase = .ended) (hevs : t.events = [])
    (hcalls : ∀ i call, t.calls i = some call → ∃ outcome, call.stage = .finished outcome) (act : HostedAct) :
    ¬ Enabled (HostedStep fromStr) act.Does t := by
  rintro ⟨l, t', hl, hdoes⟩
  have hph {phase : HostedPhase} (h : t.phase = phase) (hne : phase ≠ .ended) : False := hne (h.symm.trans hp)
  have hcall {i : CallId} {request : HostedRequest} {stage : CallStage} (h : t.calls i = some ⟨request, stage⟩)
      (hne : ∀ outcome, stage ≠ .finished outcome) : False := by
    obtain ⟨outcome, hout⟩ := hcalls i _ h
    exact hne outcome hout
  cases hl with
  | call | stop => cases act <;> simp [HostedAct.Does, HostedLabel.ofTask, Hosted.setCall] at hdoes
  | send h | refuse h | receive h | dropped h | timeout h => exact hcall h nofun
  | take h => cases hevs.symm.trans h
  | top h | watch h | queue h | interrupt h | connect _ h | connectFails _ h | wake h | reject h | quit h | accept h
  | acceptFails h | frame h | malformed h | forward h | close _ h | drain h | ended h => exact hph h nofun

def stoppedRun (fromStr : String → Option Json) : FairRun fromStr where
  state := stoppedAt
  label
    | 0 => some .stop
    | 1 | 2 | 3 | 6 => some .run
    | 4 => some (.call 0 ⟨"account", .null⟩)
    | 5 => some (.finish 0 (.error .stopped))
    | 7 => some (.take (.state .stopped))
    | _ => none
  moves
    | 0 => .inl ⟨_, rfl, .stop _⟩
    | 1 => .inl ⟨_, rfl, .top rfl⟩
    | 2 => .inl ⟨_, rfl, .watch rfl⟩
    | 3 => .inl ⟨_, rfl, .queue (show (stoppedAt 3).phase = .queueing .stopped from rfl) (by decide)⟩
    | 4 => .inl ⟨_, rfl, .call _ rfl⟩
    | 5 => .inl ⟨_, rfl, .refuse rfl rfl⟩
    | 6 => .inl ⟨_, rfl, .ended rfl rfl⟩
    | 7 => .inl ⟨_, rfl, .take rfl⟩
    | _ + 8 => .inr ⟨rfl, rfl⟩
  start := rfl
  fair act henabled := by
    obtain ⟨n, hn, h⟩ := frequently_atTop.1 henabled 8
    obtain ⟨k, rfl⟩ := Nat.exists_eq_add_of_le' hn
    refine absurd h (not_enabled_of_ended rfl rfl ?_ act)
    intro i call hcall
    by_cases hi : i = 0
    · subst hi
      cases (Hosted.calls_setCall_self ..).symm.trans hcall
      exact ⟨_, rfl⟩
    · have hnone : (stoppedAt (k + 8)).calls i = none :=
        (Hosted.calls_setCall_of_ne _ hi _).trans (Hosted.calls_setCall_of_ne _ hi _)
      cases hnone.symm.trans hcall

def Hosted.online (account : HostedAccount) : Hosted :=
  { Hosted.spawn with
    phase := .session
    state := .connected account
    events := [.state .connecting, .state (.connected account)]
    connection := 1 }

theorem run_online (fromStr : String → Option Json) (account : HostedAccount) :
    Run (HostedStep fromStr) .spawn [.run, .run, .run, .connect (.ok account), .run, .run] (.online account) := by
  have hempty : 0 < hostedEventQueue := by decide
  have hone : 1 < hostedEventQueue := by decide
  exact .cons (.top rfl) <| .cons (.watch rfl) <| .cons (.queue rfl hempty) <| .cons (.connect account rfl) <|
    .cons (.watch rfl) <| .cons (.queue rfl hone) <| .nil _

theorem Hosted.readFrame_reply {id : String} (hev : textField "event" frame = none)
    (hid : textField "id" frame = some id) (hi : t.pending.lookup id = some i) :
    t.readFrame frame =
      { t.reply i (responseOutcome frame) with
        pending := t.pending.filter fun entry => entry.1 ≠ id
        receipts := t.receipts ++ [⟨t.connection, id, i, frame⟩] } := by
  unfold Hosted.readFrame
  rw [hev, hid]
  dsimp only
  rw [hi]

theorem run_online_call {text : String} (account : HostedAccount)
    (request : HostedRequest) (htext : fromStr text = some frame) (hev : textField "event" frame = none)
    (hid : textField "id" frame = some "1") :
    ∃ t, Run (HostedStep fromStr) (.online account)
      [.call 0 request, .send 0, .accept, .frame text, .finish 0 (responseOutcome frame)] t := by
  let called := (Hosted.online account).setCall 0 ⟨request, .sending⟩
  let sent := { called.setCall 0 ⟨request, .waiting⟩ with requests := [(0, request)] }
  let accepted := Hosted.accept { sent with requests := [] } 0 request
  have hlookup : accepted.pending.lookup "1" = some 0 := show List.lookup "1" [(toString 1, 0)] = some 0 by decide
  have hrep : (accepted.readFrame frame).replies 0 = .sent (responseOutcome frame) := by
    rw [Hosted.readFrame_reply hev hid hlookup]
    exact send_self accepted.replies 0 _
  have hcalls : (accepted.readFrame frame).calls 0 = some ⟨request, .waiting⟩ := by
    rw [(accepted.same_readFrame frame).1]
    exact called.calls_setCall_self 0 _
  have hroom : 0 < requestQueue := by decide
  exact ⟨_, .cons (.call request rfl) <| .cons (.send (Hosted.calls_setCall_self ..) rfl hroom) <|
    .cons (.accept rfl rfl) <| .cons (.frame rfl htext) <| .cons (.receive hcalls hrep) <| .nil _⟩

theorem hosted_calls_answered_served :
    (∃ t, ∃ ls : List HostedLabel, Run (HostedStep (Function.partialInv Json.render)) .spawn ls t ∧
      outcomes 0 ls = [.ok (.str "pong")] ∧ AnswerRead (Function.partialInv Json.render) ls t 0 (.ok (.str "pong"))) ∧
    ∃ m ≥ 5, ((stoppedRun (Function.partialInv Json.render)).state m).outcome 0 ≠ none := by
  obtain ⟨hsafe, hlive⟩ := hosted_calls_answered (Function.partialInv Json.render)
  have hread := Function.partialInv_left (fun _ _ h => Json.render_inj h)
    (.obj [("id", .str "1"), ("ok", .bool true), ("result", .str "pong")])
  obtain ⟨t, hcall⟩ := run_online_call ⟨"a", none, none, true⟩ ⟨"ping", .null⟩ hread (by decide) (by decide)
  have hrun := (run_online _ ⟨"a", none, none, true⟩).append hcall
  obtain ⟨-, hexplained, -⟩ := hsafe _ t hrun 0
  refine ⟨⟨t, _, hrun, rfl, ?_⟩, hlive (stoppedRun _) 5 0 nofun⟩
  have houtcome := hexplained (.ok (.str "pong")) (List.mem_singleton_self _)
  simpa using houtcome

/-! ## What is written -/

theorem textField_requestFrame (id : String) (request : HostedRequest) : textField "id" (requestFrame id request) = some id := by
  unfold requestFrame
  split <;> simp [textField, Json.object, Json.insertField, Json.keyLt, Json.field]

section Writing
variable (h : HostedStep fromStr t l t')
include h

/-- A step writes nothing, and leaves the connection and its next id or makes a connection; or it writes the request that is
first in the queue. -/
theorem HostedStep.frames_cases :
    (t'.frames = t.frames ∧ (t'.connection = t.connection ∧ t'.nextId = t.nextId ∨
      t'.connection = t.connection + 1 ∧ t'.nextId = 1)) ∨
    ∃ i request, t.requests = (i, request) :: t'.requests ∧ t'.calls = t.calls ∧ t'.connection = t.connection ∧
      t'.nextId = t.nextId + 1 ∧ t'.frames = t.frames ++ [⟨t.connection, i, requestFrame (toString t.nextId) request⟩] := by
  cases h with
  | accept _ hr | acceptFails _ hr => exact .inr ⟨_, _, hr, rfl, rfl, rfl, rfl⟩
  | @queue state =>
    cases state with
    | connected => exact .inl ⟨rfl, .inr ⟨rfl, rfl⟩⟩
    | _ => exact .inl ⟨rfl, .inl ⟨rfl, rfl⟩⟩
  | frame =>
    unfold Hosted.readFrame
    split
    · exact .inl ⟨rfl, .inl ⟨rfl, rfl⟩⟩
    split
    · exact .inl ⟨rfl, .inl ⟨rfl, rfl⟩⟩
    split <;> exact .inl ⟨rfl, .inl ⟨rfl, rfl⟩⟩
  | _ => exact .inl ⟨rfl, .inl ⟨rfl, rfl⟩⟩

/-- A call whose request left the queue keeps its request and does not come back to the queue. -/
theorem HostedStep.taken_stays {stage : CallStage} (hcall : t.calls i = some ⟨request, stage⟩) (hstage : stage ≠ .sending)
    (hi : i ∉ t.requests.map Prod.fst) :
    (∃ stage, t'.calls i = some ⟨request, stage⟩ ∧ stage ≠ .sending) ∧ i ∉ t'.requests.map Prod.fst := by
  constructor
  · cases h.callStep i with
    | stays hsame => exact ⟨stage, hsame.trans hcall, hstage⟩
    | made _ hnone => cases hnone.symm.trans hcall
    | sent _ hsending => cases hsending.symm.trans hcall; exact absurd rfl hstage
    | ended hrequest _ hfin => cases hrequest.symm.trans hcall; exact ⟨_, hfin, nofun⟩
  · rcases h.requests with hsame | ⟨-, -, -, x, hx, hsending⟩ | ⟨x, hx⟩
    · rwa [hsame]
    · rw [hx, List.map_append, List.mem_append, not_or]
      refine ⟨hi, fun hmem => hstage ?_⟩
      rw [List.mem_singleton.1 hmem, hsending] at hcall
      cases hcall
      rfl
    · rw [hx, List.map_cons, List.mem_cons, not_or] at hi
      exact hi.2

end Writing

def Written.Apart (x y : Written) : Prop :=
  x.call ≠ y.call ∧ (x.connection = y.connection → textField "id" x.frame ≠ textField "id" y.frame)

/-- The frame is that of its call's request, with an id that its connection does not give again. -/
structure Hosted.Made (t : Hosted) (x : Written) : Prop where
  connection : x.connection ≤ t.connection
  taken : x.call ∉ t.requests.map Prod.fst
  frame : ∃ n ≤ t.frames.length, ∃ request, x.frame = requestFrame (toString n) request ∧
    (x.connection = t.connection → n < t.nextId) ∧
    ∃ stage, t.calls x.call = some ⟨request, stage⟩ ∧ stage ≠ .sending

structure Hosted.Wrote (t : Hosted) : Prop where
  apart : t.frames.Pairwise Written.Apart
  next : t.nextId ≤ t.frames.length + 1
  made : ∀ x ∈ t.frames, t.Made x

theorem HostedStep.made {x : Written} (h : HostedStep fromStr t l t') (hx : t.Made x)
    (hmore : t.frames.length ≤ t'.frames.length) (hconn : t.connection ≤ t'.connection)
    (hnext : t'.connection = t.connection → t.nextId ≤ t'.nextId) : t'.Made x := by
  obtain ⟨n, hn, request, hframe, hlt, stage, hcall, hstage⟩ := hx.frame
  obtain ⟨hcall', htaken⟩ := h.taken_stays hcall hstage hx.taken
  refine ⟨hx.connection.trans hconn, htaken, n, hn.trans hmore, request, hframe, fun heq => ?_, hcall'⟩
  have hsame : t'.connection = t.connection := by
    have := hx.connection
    omega
  exact (hlt (heq.trans hsame)).trans_le (hnext hsame)

theorem HostedStep.wrote (h : HostedStep fromStr t l t') (ht : t.Sound) (hw : t.Wrote) : t'.Wrote := by
  have hle := hw.next
  rcases h.frames_cases with ⟨hframes, hids⟩ | ⟨i, request, hr, hcalls, hconn, hnext, hframes⟩
  · refine ⟨hframes ▸ hw.apart, by rw [hframes]; omega, fun x hx => ?_⟩
    exact h.made (hw.made x (hframes ▸ hx)) (by rw [hframes]) (by omega) (by omega)
  · -- the call comes from the queue, where none stands that was written
    have hmem : (i, request) ∈ t.requests := hr ▸ List.mem_cons_self
    have hlength : t'.frames.length = t.frames.length + 1 := by rw [hframes, List.length_append]; rfl
    refine ⟨?_, by omega, fun x hx => ?_⟩
    · rw [hframes]
      refine List.pairwise_append.2 ⟨hw.apart, List.pairwise_singleton _ _, fun x hx y hy => ?_⟩
      obtain rfl := List.mem_singleton.1 hy
      obtain ⟨-, htaken, n, -, request', hframe, hlt, -⟩ := hw.made x hx
      refine ⟨fun heq => htaken (List.mem_map.2 ⟨_, hmem, heq.symm⟩), fun heq hid => (hlt heq).ne ?_⟩
      rw [hframe, textField_requestFrame, textField_requestFrame, Option.some.injEq] at hid
      exact Json.toString_inj hid
    · rw [hframes] at hx
      rcases List.mem_append.1 hx with hx | hx
      · exact h.made (hw.made x hx) (by omega) hconn.ge fun _ => by omega
      · obtain rfl := List.mem_singleton.1 hx
        obtain ⟨stage, hcall, hstage⟩ := ht.book.requested _ hmem
        have hnodup := (List.nodup_append.1 ht.book.held.nodup).1
        rw [show t.book.requests = _ from hr, List.map_cons, List.nodup_cons] at hnodup
        exact ⟨hconn.ge, hnodup.1, t.nextId, by omega, request, rfl, fun _ => by omega, stage, hcalls ▸ hcall, hstage⟩

/-- **At most once.** Whatever connections are lost and made again, and whichever writes fail: the frames that the sessions
wrote, or lost in writing, are of different calls, and on one connection they have different ids; each is the frame of its
call's request with an id that is a `u64`. The run writes fewer than `2 ^ 64` frames, so that the ids of the source, which
wrap there, are those of the model. -/
theorem requests_written_once {ls : List HostedLabel} (h : Run (HostedStep fromStr) .spawn ls t)
    (hfew : t.frames.length < 2 ^ 64) :
    t.frames.Pairwise Written.Apart ∧ ∀ x ∈ t.frames, ∃ (id : UInt64) (request : HostedRequest) (stage : CallStage),
      x.frame = requestFrame (toString id.toNat) request ∧ t.calls x.call = some ⟨request, stage⟩ := by
  obtain ⟨-, hw⟩ :=
    h.invariant (I := fun t => t.Sound ∧ t.Wrote) (fun _ _ _ hl ht => ⟨hl.sound ht.1, hl.wrote ht.1 ht.2⟩)
    ⟨Hosted.sound_spawn, .nil, Nat.le_refl _, nofun⟩
  refine ⟨hw.apart, fun x hx => ?_⟩
  obtain ⟨n, hn, request, hframe, -, stage, hcall, -⟩ := (hw.made x hx).frame
  refine ⟨.ofNat n, request, stage, ?_, hcall⟩
  rw [UInt64.toNat_ofNat_of_lt' (hn.trans_lt hfew)]
  exact hframe

/-- A request is written, the connection is lost and made again, and another request gets the same id. -/
theorem requests_written_reconnected : ∃ ls t, Run (HostedStep fun _ => none) .spawn ls t ∧
    t.frames = [⟨1, 0, requestFrame "1" ⟨"ping", .null⟩⟩, ⟨2, 1, requestFrame "1" ⟨"status", .null⟩⟩] ∧
    t.frames.Pairwise Written.Apart := by
  have hrun := (run_online (fun _ => none) ⟨"a", none, none, true⟩).append <|
    .cons (.call (i := 0) ⟨"ping", .null⟩ rfl) <|
    .cons (.send (Hosted.calls_setCall_self _ 0 _) rfl (by decide)) <| .cons (.accept rfl rfl) <| .cons (.close "lost" rfl) <|
    .cons (.watch rfl) <| .cons (.queue rfl (by decide)) <| .cons (.wake rfl) <| .cons (.top rfl) <| .cons (.watch rfl) <|
    .cons (.queue rfl (by decide)) <| .cons (.connect ⟨"a", none, none, true⟩ rfl) <| .cons (.watch rfl) <|
    .cons (.queue rfl (by decide)) <| .cons (.call (i := 1) ⟨"status", .null⟩ rfl) <|
    .cons (.send (Hosted.calls_setCall_self _ 1 _) rfl (by decide)) <| .cons (.accept rfl rfl) <| .nil _
  exact ⟨_, _, hrun, rfl, (requests_written_once hrun (by decide)).1⟩

end OmaChat.Daemon

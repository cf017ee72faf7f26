import OmaChat.Daemon.Hosted

/-!
# Calls to the hosted server

Which outcomes the calls through the hosted transport get, whatever the callers, the server and the connections do.

* `CallBook` : the part of the transport that calls and their replies are about; `BookStep` : all that can happen to it, and
  `HostedStep.book` : every step of the transport is made of that;
* `BookSound` : what holds in every state; `BookStep.sound` : every step keeps it.
-/

namespace OmaChat.Daemon
open Wire Proto Oneshot Transition

variable {i : CallId} {outcome : Except HostedError Json}

/-- The requests that wait, the entries of the session, and the calls with their replies. -/
structure CallBook where
  requests : List (CallId × HostedRequest)
  pending : List (String × CallId)
  nextId : Nat
  calls : CallId → Option HostedCall
  replies : CallId → Cell (Except HostedError Json)
  connection : Nat
  given : List Given
  receipts : List Receipt

def Hosted.book (t : Hosted) : CallBook :=
  ⟨t.requests, t.pending, t.nextId, t.calls, t.replies, t.connection, t.given, t.receipts⟩

namespace CallBook

def owners (b : CallBook) : List CallId := b.requests.map Prod.fst ++ b.pending.map Prod.snd

def setCall (b : CallBook) (i : CallId) (call : HostedCall) : CallBook :=
  { b with calls := Function.update b.calls i (some call) }

/-- What a call that waits can end with, by itself or because of its reply. -/
inductive Ends (b : CallBook) (i : CallId) : CallStage → Except HostedError Json → Prop where
  | refused : Ends b i .sending (.error .stopped)
  | received {outcome : Except HostedError Json} : b.replies i = .sent outcome → Ends b i .waiting outcome
  | dropped : b.replies i = .dropped → Ends b i .waiting (.error .disconnected)
  | timeout : b.replies i = .empty → Ends b i .waiting (.error .timeout)

end CallBook

/-- The errors that a call gets without a frame. -/
def Lost (error : HostedError) : Prop := error = .disconnected ∨ error = .stopped

inductive BookStep : CallBook → CallBook → Prop where
  | call {b : CallBook} {i : CallId} (request : HostedRequest) : b.calls i = none →
      BookStep b (b.setCall i ⟨request, .sending⟩)
  | send {b : CallBook} {i : CallId} {request : HostedRequest} : b.calls i = some ⟨request, .sending⟩ →
      BookStep b { b.setCall i ⟨request, .waiting⟩ with requests := b.requests ++ [(i, request)] }
  | finish {b : CallBook} {i : CallId} {request : HostedRequest} {stage : CallStage} {outcome : Except HostedError Json} :
      b.calls i = some ⟨request, stage⟩ → b.Ends i stage outcome →
        BookStep b (b.setCall i ⟨request, .finished outcome⟩)
  | reject {b : CallBook} {i : CallId} {request : HostedRequest} {rest : List (CallId × HostedRequest)} {error : HostedError} :
      b.requests = (i, request) :: rest → Lost error →
      BookStep b { b with requests := rest, replies := send b.replies i (.error error) }
  | connect {b : CallBook} : b.pending = [] → BookStep b { b with nextId := 1, connection := b.connection + 1 }
  | accept {b : CallBook} {i : CallId} {request : HostedRequest} {rest : List (CallId × HostedRequest)} :
      b.requests = (i, request) :: rest →
      BookStep b { b with
        requests := rest
        pending := b.pending ++ [(toString b.nextId, i)]
        nextId := b.nextId + 1
        given := b.given ++ [⟨b.connection, toString b.nextId, i, request⟩] }
  | skip (b : CallBook) : BookStep b { b with nextId := b.nextId + 1 }
  | answer {b : CallBook} {id : String} {i : CallId} {frame : Json} : textField "id" frame = some id →
      b.pending.lookup id = some i →
      BookStep b { b with
        pending := b.pending.filter fun entry => entry.1 ≠ id
        replies := Oneshot.send b.replies i (responseOutcome frame)
        receipts := b.receipts ++ [⟨b.connection, id, i, frame⟩] }
  | close (b : CallBook) : BookStep b { b with pending := [], replies := drop b.replies (b.pending.map Prod.snd) }

/-! ## Every step of the transport -/

/-- The task is in `session`. -/
def HostedPhase.inSession : HostedPhase → Bool
  | .session | .forwarding _ _ => true
  | _ => false

def Hosted.Tidy (t : Hosted) : Prop := t.phase.inSession = false → t.pending = []

section Steps
variable {fromStr : String → Option Json} {t t' : Hosted} {l : HostedLabel}

theorem Hosted.tidy_endSession (t : Hosted) (reason : String) : (t.endSession reason).Tidy := fun _ => rfl

theorem Hosted.tidy_goOn (h : t.pending = []) (state : HostedState) : (t.goOn state).Tidy := by
  cases state with
  | connected account => exact nofun
  | _ => exact fun _ => h

theorem Hosted.tidy_readFrame (hp : t.phase = .session) (frame : Json) : (t.readFrame frame).Tidy := by
  unfold Hosted.readFrame
  split
  · exact nofun
  split
  · exact t.tidy_endSession _
  split
  · exact fun h => absurd (hp ▸ h) (by decide)
  · exact fun h => absurd (hp ▸ h) (by decide)

theorem HostedStep.tidy (h : HostedStep fromStr t l t') (ht : t.Tidy) : t'.Tidy := by
  have hnil {phase : HostedPhase} (hp : t.phase = phase) (hout : phase.inSession = false) : t.pending = [] := ht (hp ▸ hout)
  cases h with
  | top hp | watch hp | interrupt hp _ | connect _ hp | connectFails _ hp | wake hp | reject hp _ | quit hp _ | drain hp _
  | ended hp _ => exact fun _ => hnil hp rfl
  | @queue state hp _ => exact Hosted.tidy_goOn (t := { t with events := t.events ++ [.state state] }) (hnil hp rfl) state
  | accept hp _ => exact fun hout => absurd (hp ▸ hout) (by decide)
  | acceptFails | malformed | close => exact Hosted.tidy_endSession _ _
  | frame hp _ => exact Hosted.tidy_readFrame hp _
  | forward => exact nofun
  | _ => exact ht

abbrev BookSteps : CallBook → CallBook → Prop := Relation.ReflTransGen BookStep

theorem Hosted.book_endSession (t : Hosted) (reason : String) : BookSteps t.book (t.endSession reason).book :=
  .single (.close t.book)

theorem Hosted.book_goOn (h : t.pending = []) (state : HostedState) : BookSteps t.book (t.goOn state).book := by
  cases state with
  | connected account =>
    have hstep := BookStep.connect (b := t.book) h
    have hbook : (t.goOn (.connected account)).book = { t.book with nextId := 1, connection := t.connection + 1 } := by
      simp [Hosted.goOn, Hosted.book, h]
    rw [hbook]
    exact .single hstep
  | _ => exact .refl

theorem Hosted.book_readFrame (t : Hosted) (frame : Json) : BookSteps t.book (t.readFrame frame).book := by
  unfold Hosted.readFrame
  split
  · exact .refl
  split
  · exact t.book_endSession _
  split
  · exact .refl
  · rename_i id hid _ i hi
    exact .single (.answer hid hi)

/-- **Every step of the transport is made of steps of the calls and replies.** -/
theorem HostedStep.book (h : HostedStep fromStr t l t') (ht : t.Tidy) : BookSteps t.book t'.book := by
  cases h with
  | call request hi => exact .single (.call (b := t.book) request hi)
  | send hi _ _ => exact .single (.send (b := t.book) hi)
  | refuse hi _ => exact .single (.finish (b := t.book) hi .refused)
  | receive hi hr => exact .single (.finish (b := t.book) hi (.received hr))
  | dropped hi hr => exact .single (.finish (b := t.book) hi (.dropped hr))
  | timeout hi hr => exact .single (.finish (b := t.book) hi (.timeout hr))
  | @queue state hp _ =>
    exact Hosted.book_goOn (t := { t with events := t.events ++ [.state state] }) (ht (by rw [hp]; rfl)) state
  | reject hp hr => exact .single (.reject (b := t.book) hr (.inl rfl))
  | accept hp hr => exact .single (.accept (b := t.book) hr)
  | acceptFails hp hr => exact .tail (.tail (.single (.skip t.book)) (.reject hr (.inl rfl))) (.close _)
  | frame hp _ => exact t.book_readFrame _
  | malformed hp _ => exact t.book_endSession _
  | close reason hp => exact t.book_endSession _
  | drain hp hr => exact .single (.reject (b := t.book) hr (.inr rfl))
  | _ => exact .refl

end Steps

/-! ## What holds of them -/

/-- The outcome of a call that no frame answered, or that one did. -/
inductive Explains (receipts : List Receipt) (i : CallId) : Except HostedError Json → Prop where
  | lost {error : HostedError} : Lost error → Explains receipts i (.error error)
  | frame {receipt : Receipt} : receipt ∈ receipts → receipt.call = i → Explains receipts i (responseOutcome receipt.frame)

theorem Explains.mono {receipts receipts' : List Receipt}
    (h : Explains receipts i outcome) (hr : ∀ r ∈ receipts, r ∈ receipts') : Explains receipts' i outcome := by
  cases h with
  | lost hlost => exact .lost hlost
  | frame hmem hcall => exact .frame (hr _ hmem) hcall

structure BookSound (b : CallBook) : Prop where
  /-- Every reply can be sent once at most. -/
  held : Held b.owners b.replies
  /-- A request that waits is the one of its call. -/
  requested : ∀ x ∈ b.requests, ∃ stage, b.calls x.1 = some ⟨x.2, stage⟩ ∧ stage ≠ .sending
  /-- A reply is not sent before its request. -/
  unsent : ∀ i, (∀ request stage, b.calls i = some ⟨request, stage⟩ → stage = .sending) → b.replies i = .empty
  /-- A call that waits for a reply gets one. -/
  owned : ∀ i request, b.calls i = some ⟨request, .waiting⟩ → b.replies i = .empty → i ∈ b.owners
  /-- An id is given to the request of its call. -/
  given : ∀ g ∈ b.given, g.connection ≤ b.connection ∧ ∃ stage, b.calls g.call = some ⟨g.request, stage⟩ ∧
    stage ≠ .sending
  /-- An id is given once on a connection, and a call gets one id. -/
  distinct : ∀ g ∈ b.given, ∀ g' ∈ b.given, (g.connection = g'.connection ∧ g.id = g'.id) ∨
    g.call = g'.call → g = g'
  /-- The next id is new. -/
  next : ∀ g ∈ b.given, g.connection = b.connection → ∃ n < b.nextId, g.id = toString n
  /-- The entries are ids that were given on this connection. -/
  pending : ∀ entry ∈ b.pending, ∃ g ∈ b.given, g.connection = b.connection ∧ g.id = entry.1 ∧ g.call = entry.2
  /-- A call with an id has its entry, until it is answered. -/
  entry : ∀ g ∈ b.given, b.replies g.call = .empty → (g.id, g.call) ∈ b.pending ∧ g.connection = b.connection
  /-- A receipt is of an id that was given. -/
  receipts : ∀ r ∈ b.receipts, textField "id" r.frame = some r.id ∧
    ∃ g ∈ b.given, g.connection = r.connection ∧ g.id = r.id ∧ g.call = r.call
  replies : ∀ i outcome, b.replies i = .sent outcome → Explains b.receipts i outcome
  finished : ∀ i request outcome, b.calls i = some ⟨request, .finished outcome⟩ →
    outcome = .error .timeout ∨ Explains b.receipts i outcome

theorem bookSound_spawn : BookSound Hosted.spawn.book where
  held := held_nil _
  requested := nofun
  unsent _ _ := rfl
  owned := nofun
  given := nofun
  distinct := nofun
  next := nofun
  pending := nofun
  entry := nofun
  receipts := nofun
  replies := nofun
  finished := nofun

section Sound
variable {b b' : CallBook} {j : CallId} {request : HostedRequest} {stage : CallStage} {c : HostedCall}

namespace CallBook

@[simp] theorem calls_setCall_self : (b.setCall i c).calls i = some c := Function.update_self ..

theorem calls_setCall_of_ne (h : j ≠ i) : (b.setCall i c).calls j = b.calls j := Function.update_of_ne h ..

end CallBook

namespace BookSound
open CallBook

section
variable (h : BookSound b)
include h

theorem sent_of_owner (hi : i ∈ b.owners) : ∃ request stage, b.calls i = some ⟨request, stage⟩ ∧
    stage ≠ .sending := by
  rcases List.mem_append.1 hi with hi | hi
  · obtain ⟨x, hx, rfl⟩ := List.mem_map.1 hi
    obtain ⟨stage, hcall, hstage⟩ := h.requested x hx
    exact ⟨_, stage, hcall, hstage⟩
  · obtain ⟨entry, he, rfl⟩ := List.mem_map.1 hi
    obtain ⟨g, hg, -, -, hcall⟩ := h.pending entry he
    obtain ⟨-, stage, hstage⟩ := h.given g hg
    exact ⟨_, stage, hcall ▸ hstage⟩

theorem entry_unique {e e' : String × CallId} (he : e ∈ b.pending) (he' : e' ∈ b.pending)
    (heq : e.1 = e'.1 ∨ e.2 = e'.2) : e = e' := by
  obtain ⟨g, hg, hconn, hid, hcall⟩ := h.pending e he
  obtain ⟨g', hg', hconn', hid', hcall'⟩ := h.pending e' he'
  have hsame : g = g' := by
    refine h.distinct g hg g' hg' (heq.imp (fun h1 => ⟨hconn.trans hconn'.symm, ?_⟩) fun h2 => ?_)
    · rw [hid, hid', h1]
    · rw [hcall, hcall', h2]
  subst hsame
  exact Prod.ext (hid.symm.trans hid') (hcall.symm.trans hcall')

theorem given_not_requested {g : Given} (hg : g ∈ b.given) : g.call ∉ b.requests.map Prod.fst := by
  intro hmem
  have hempty := h.held.empty g.call (List.mem_append_left _ hmem)
  obtain ⟨he, -⟩ := h.entry g hg hempty
  exact (List.nodup_append'.1 h.held.nodup).2.2 hmem (List.mem_map.2 ⟨_, he, rfl⟩)

/-- A call changes its stage, and its request may be queued. -/
theorem setCall {requests : List (CallId × HostedRequest)}
    (hsame : ∀ request' old, b.calls i = some ⟨request', old⟩ → request' = request)
    (hnew : stage = .sending → b.calls i = none)
    (hrequests : ∀ x ∈ requests, x ∈ b.requests ∨ x = (i, request) ∧ stage ≠ .sending)
    (hheld : Held (requests.map Prod.fst ++ b.pending.map Prod.snd) b.replies)
    (howners : ∀ j, j ∈ b.owners ∨ j = i ∧ stage = .waiting → j ∈ requests.map Prod.fst ++ b.pending.map Prod.snd)
    (hfin : ∀ outcome, stage = .finished outcome → outcome = .error .timeout ∨ Explains b.receipts i outcome) :
    BookSound { b.setCall i ⟨request, stage⟩ with requests := requests } := by
  have hself {j : CallId} {request' : HostedRequest} {now : CallStage} (heq : j = i)
      (hj : (b.setCall i ⟨request, stage⟩).calls j = some ⟨request', now⟩) : stage = now := by
    rw [heq, calls_setCall_self] at hj
    exact (HostedCall.mk.inj (Option.some.inj hj)).2
  have hsent {j : CallId} {request' : HostedRequest} (hj : ∃ old, b.calls j = some ⟨request', old⟩ ∧ old ≠ .sending) :
      ∃ now, (b.setCall i ⟨request, stage⟩).calls j = some ⟨request', now⟩ ∧ now ≠ .sending := by
    obtain ⟨old, hcall, hold⟩ := hj
    by_cases heq : j = i
    · subst heq
      obtain rfl := hsame _ _ hcall
      exact ⟨stage, calls_setCall_self, fun hstage => absurd ((hnew hstage).symm.trans hcall) nofun⟩
    · exact ⟨old, (calls_setCall_of_ne heq).trans hcall, hold⟩
  refine { h with held := hheld, requested := ?_, unsent := ?_, owned := ?_, given := ?_, finished := ?_ }
  · intro x hx
    rcases hrequests x hx with hx | ⟨rfl, hstage⟩
    · exact hsent (h.requested x hx)
    · exact ⟨stage, calls_setCall_self, hstage⟩
  · intro j hj
    by_cases heq : j = i
    · subst heq
      exact h.unsent j fun _ _ hcall => absurd ((hnew (hj _ _ calls_setCall_self)).symm.trans hcall) nofun
    · exact h.unsent j fun request' old hcall => hj request' old ((calls_setCall_of_ne heq).trans hcall)
  · intro j request' hj hempty
    by_cases heq : j = i
    · exact howners j (.inr ⟨heq, hself heq hj⟩)
    · exact howners j (.inl (h.owned j request' ((calls_setCall_of_ne heq).symm.trans hj) hempty))
  · exact fun g hg => (h.given g hg).imp_right hsent
  · intro j request' outcome hj
    by_cases heq : j = i
    · exact heq ▸ hfin outcome (hself heq hj)
    · exact h.finished j request' outcome ((calls_setCall_of_ne heq).symm.trans hj)

theorem call (request : HostedRequest) (hi : b.calls i = none) : BookSound (b.setCall i ⟨request, .sending⟩) := by
  refine h.setCall ?_ (fun _ => hi) (fun x hx => .inl hx) h.held ?_ nofun
  · exact fun _ _ hcall => absurd (hi.symm.trans hcall) nofun
  · exact fun j hj => hj.resolve_right nofun

theorem send (hi : b.calls i = some ⟨request, .sending⟩) :
    BookSound { b.setCall i ⟨request, .waiting⟩ with requests := b.requests ++ [(i, request)] } := by
  have hsame {request' : HostedRequest} {old : CallStage} (hcall : b.calls i = some ⟨request', old⟩) :
      request' = request ∧ old = .sending := by
    rw [hi] at hcall
    obtain ⟨rfl, rfl⟩ := HostedCall.mk.inj (Option.some.inj hcall)
    exact ⟨rfl, rfl⟩
  have hunsent : b.replies i = .empty := h.unsent i fun _ _ hcall => (hsame hcall).2
  have hnot : i ∉ b.owners := by
    intro hmem
    obtain ⟨_, stage, hcall, hstage⟩ := h.sent_of_owner hmem
    exact hstage (hsame hcall).2
  have hperm : ((b.requests ++ [(i, request)]).map Prod.fst ++ b.pending.map Prod.snd).Perm (i :: b.owners) := by
    rw [List.map_append, List.append_assoc]
    exact List.perm_middle
  refine h.setCall (fun _ _ hcall => (hsame hcall).1) nofun ?_ ((h.held.cons hnot hunsent).perm hperm) ?_ nofun
  · intro x hx
    rcases List.mem_append.1 hx with hx | hx
    · exact .inl hx
    · exact .inr ⟨List.mem_singleton.1 hx, nofun⟩
  · intro j hj
    refine hperm.mem_iff.2 ?_
    rcases hj with hj | ⟨rfl, -⟩
    · exact List.mem_cons_of_mem _ hj
    · exact List.mem_cons_self

theorem finish (hi : b.calls i = some ⟨request, stage⟩)
    (hends : b.Ends i stage outcome) : BookSound (b.setCall i ⟨request, .finished outcome⟩) := by
  refine h.setCall ?_ nofun (fun x hx => .inl hx) h.held ?_ ?_
  · intro _ _ hcall
    rw [hi] at hcall
    exact (HostedCall.mk.inj (Option.some.inj hcall)).1.symm
  · exact fun j hj => hj.resolve_right nofun
  · intro outcome' heq
    obtain rfl := CallStage.finished.inj heq
    cases hends with
    | refused => exact .inr (.lost (.inr rfl))
    | received hrep => exact .inr (h.replies i outcome hrep)
    | dropped => exact .inr (.lost (.inl rfl))
    | timeout => exact .inl rfl

end

variable {rest : List (CallId × HostedRequest)}

theorem reject (h : BookSound b) {error : HostedError} (hr : b.requests = (i, request) :: rest) (herr : Lost error) :
    BookSound { b with requests := rest, replies := Oneshot.send b.replies i (.error error) } := by
  have howners : b.owners = i :: (rest.map Prod.fst ++ b.pending.map Prod.snd) := by rw [owners, hr]; rfl
  have hheld := h.held
  rw [howners] at hheld
  refine { h with held := hheld.send _, requested := ?_, unsent := ?_, owned := ?_, entry := ?_, replies := ?_ }
  · exact fun x hx => h.requested x (hr ▸ List.mem_cons_of_mem _ hx)
  · intro j hj
    have hne : j ≠ i := by
      rintro rfl
      obtain ⟨_, stage, hcall, hstage⟩ := h.sent_of_owner (howners ▸ List.mem_cons_self)
      exact hstage (hj _ _ hcall)
    exact (send_of_ne hne _).trans (h.unsent j hj)
  · intro j request' hj hrep
    obtain ⟨hne, hrep⟩ := send_eq_empty hrep
    have hmem := h.owned j request' hj hrep
    rw [howners] at hmem
    exact (List.mem_cons.1 hmem).resolve_left hne
  · intro g hg hrep
    exact h.entry g hg (send_eq_empty hrep).2
  · intro j outcome hj
    rcases send_eq_sent hj with ⟨-, rfl⟩ | hj
    · exact .lost herr
    · exact h.replies j outcome hj

theorem connect (h : BookSound b) (hp : b.pending = []) :
    BookSound { b with nextId := 1, connection := b.connection + 1 } := by
  refine { h with given := ?_, next := ?_, pending := ?_, entry := ?_ }
  · intro g hg
    obtain ⟨hle, hcall⟩ := h.given g hg
    exact ⟨Nat.le_succ_of_le hle, hcall⟩
  · intro g hg hconn
    have hle := (h.given g hg).1
    have hnow : g.connection = b.connection + 1 := hconn
    omega
  · intro entry he
    rw [show ({ b with nextId := 1, connection := b.connection + 1 } : CallBook).pending = [] from hp] at he
    cases he
  · intro g hg hrep
    have he := (h.entry g hg hrep).1
    rw [hp] at he
    cases he

theorem accept (h : BookSound b) (hr : b.requests = (i, request) :: rest) : BookSound { b with
      requests := rest
      pending := b.pending ++ [(toString b.nextId, i)]
      nextId := b.nextId + 1
      given := b.given ++ [⟨b.connection, toString b.nextId, i, request⟩] } := by
  have hf : (i, request) ∈ b.requests := hr ▸ List.mem_cons_self
  have hperm : (rest.map Prod.fst ++ (b.pending ++ [(toString b.nextId, i)]).map Prod.snd).Perm b.owners := by
    rw [owners, hr, List.map_append, ← List.append_assoc]
    exact List.perm_append_singleton ..
  -- the new id is new, and so is its call
  have hnew {g : Given} (hg : g ∈ b.given)
      (heq : (g.connection = b.connection ∧ g.id = toString b.nextId) ∨ g.call = i) : False := by
    rcases heq with ⟨hconn, hid⟩ | hcall
    · obtain ⟨n, hn, hid'⟩ := h.next g hg hconn
      have heq : n = b.nextId := Json.toString_inj (hid'.symm.trans hid)
      omega
    · exact h.given_not_requested hg (hcall ▸ List.mem_map_of_mem hf)
  refine { h with
    held := h.held.perm hperm, requested := ?_, owned := ?_, given := ?_, distinct := ?_, next := ?_, pending := ?_
    entry := ?_, receipts := ?_ }
  · exact fun x hx => h.requested x (hr ▸ List.mem_cons_of_mem _ hx)
  · exact fun j request' hj hrep => hperm.mem_iff.2 (h.owned j request' hj hrep)
  · intro g hg
    rcases List.mem_append.1 hg with hg | hg
    · exact h.given g hg
    · obtain rfl := List.mem_singleton.1 hg
      exact ⟨le_rfl, h.requested _ hf⟩
  · intro g hg g' hg' heq
    rcases List.mem_append.1 hg with hg | hg <;> rcases List.mem_append.1 hg' with hg' | hg'
    · exact h.distinct g hg g' hg' heq
    · obtain rfl := List.mem_singleton.1 hg'
      exact (hnew hg heq).elim
    · obtain rfl := List.mem_singleton.1 hg
      exact (hnew hg' (heq.imp (fun ⟨h1, h2⟩ => ⟨h1.symm, h2.symm⟩) Eq.symm)).elim
    · rw [List.mem_singleton.1 hg, List.mem_singleton.1 hg']
  · intro g hg hconn
    rcases List.mem_append.1 hg with hg | hg
    · obtain ⟨n, hn, hid⟩ := h.next g hg hconn
      exact ⟨n, Nat.lt_succ_of_lt hn, hid⟩
    · obtain rfl := List.mem_singleton.1 hg
      exact ⟨b.nextId, Nat.lt_succ_self _, rfl⟩
  · intro entry he
    rcases List.mem_append.1 he with he | he
    · obtain ⟨g, hg, hrest⟩ := h.pending entry he
      exact ⟨g, List.mem_append_left _ hg, hrest⟩
    · obtain rfl := List.mem_singleton.1 he
      exact ⟨_, List.mem_append_right _ (List.mem_singleton_self _), rfl, rfl, rfl⟩
  · intro g hg hrep
    rcases List.mem_append.1 hg with hg | hg
    · obtain ⟨he, hconn⟩ := h.entry g hg hrep
      exact ⟨List.mem_append_left _ he, hconn⟩
    · obtain rfl := List.mem_singleton.1 hg
      exact ⟨List.mem_append_right _ (List.mem_singleton_self _), rfl⟩
  · intro r hmem
    obtain ⟨hid, g, hg, hrest⟩ := h.receipts r hmem
    exact ⟨hid, g, List.mem_append_left _ hg, hrest⟩

theorem answer (h : BookSound b) {id : String} {frame : Json} (hid : textField "id" frame = some id)
    (hi : b.pending.lookup id = some i) :
    BookSound { b with
      pending := b.pending.filter fun entry => entry.1 ≠ id
      replies := Oneshot.send b.replies i (responseOutcome frame)
      receipts := b.receipts ++ [⟨b.connection, id, i, frame⟩] } := by
  have hentry : (id, i) ∈ b.pending := by
    obtain ⟨l₁, l₂, hl, -⟩ := List.lookup_eq_some_iff.1 hi
    rw [hl]
    exact List.mem_append_right _ List.mem_cons_self
  have ho {e : String × CallId} (he : e ∈ b.pending) : e.1 = id ↔ e.2 = i := by
    constructor
    · intro heq
      exact congrArg Prod.snd (h.entry_unique he hentry (.inl heq))
    · intro heq
      exact congrArg Prod.fst (h.entry_unique he hentry (.inr heq))
  have hkept {e : String × CallId} : e ∈ b.pending.filter (fun entry => entry.1 ≠ id) ↔ e ∈ b.pending ∧ e.2 ≠ i := by
    rw [List.mem_filter, decide_eq_true_iff]
    exact and_congr_right fun he => not_congr (ho he)
  refine { h with
    held := ⟨?_, ?_⟩, unsent := ?_, owned := ?_, pending := ?_, entry := ?_, receipts := ?_, replies := ?_, finished := ?_ }
  · exact h.held.nodup.sublist (List.Sublist.append_left (List.filter_sublist.map _) _)
  · intro j hj
    have hne : j ≠ i := by
      rintro rfl
      rcases List.mem_append.1 hj with hj | hj
      · exact (List.nodup_append'.1 h.held.nodup).2.2 hj (List.mem_map.2 ⟨_, hentry, rfl⟩)
      · obtain ⟨e, he, heq⟩ := List.mem_map.1 hj
        exact (hkept.1 he).2 heq
    refine (send_of_ne hne _).trans (h.held.empty j ?_)
    exact (List.Sublist.append_left (List.filter_sublist.map _) _).subset hj
  · intro j hj
    have hne : j ≠ i := by
      rintro rfl
      obtain ⟨_, stage, hcall, hstage⟩ := h.sent_of_owner (List.mem_append_right _ (List.mem_map.2 ⟨_, hentry, rfl⟩))
      exact hstage (hj _ _ hcall)
    exact (send_of_ne hne _).trans (h.unsent j hj)
  · intro j request' hj hrep
    obtain ⟨hne, hrep⟩ := send_eq_empty hrep
    rcases List.mem_append.1 (h.owned j request' hj hrep) with hmem | hmem
    · exact List.mem_append_left _ hmem
    · obtain ⟨e, he, rfl⟩ := List.mem_map.1 hmem
      exact List.mem_append_right _ (List.mem_map.2 ⟨e, hkept.2 ⟨he, hne⟩, rfl⟩)
  · exact fun entry he => h.pending entry (hkept.1 he).1
  · intro g hg hrep
    obtain ⟨hne, hrep⟩ := send_eq_empty hrep
    obtain ⟨he, hconn⟩ := h.entry g hg hrep
    exact ⟨hkept.2 ⟨he, hne⟩, hconn⟩
  · intro r hr
    rcases List.mem_append.1 hr with hr | hr
    · exact h.receipts r hr
    · obtain rfl := List.mem_singleton.1 hr
      exact ⟨hid, h.pending _ hentry⟩
  · intro j outcome hj
    rcases send_eq_sent hj with ⟨rfl, rfl⟩ | hj
    · have hreceipt : (⟨b.connection, id, j, frame⟩ : Receipt) ∈ b.receipts ++ [⟨b.connection, id, j, frame⟩] :=
        List.mem_append_right _ (List.mem_singleton_self _)
      exact .frame hreceipt rfl
    · exact (h.replies j outcome hj).mono fun r hr => List.mem_append_left _ hr
  · intro j request' outcome hj
    exact (h.finished j request' outcome hj).imp_right fun he => he.mono fun r hr => List.mem_append_left _ hr

theorem close (h : BookSound b) : BookSound { b with pending := [], replies := drop b.replies (b.pending.map Prod.snd) } := by
  have hperm : (b.pending.map Prod.snd ++ b.requests.map Prod.fst).Perm b.owners := List.perm_append_comm
  refine { h with held := ?_, unsent := ?_, owned := ?_, pending := nofun, entry := ?_, replies := ?_ }
  · have hheld := (h.held.perm hperm).drop
    rw [owners, List.map_nil, List.append_nil]
    exact hheld
  · intro j hj
    refine (drop_of_not_mem fun hmem => ?_).trans (h.unsent j hj)
    obtain ⟨_, stage, hcall, hstage⟩ := h.sent_of_owner (List.mem_append_right _ hmem)
    exact hstage (hj _ _ hcall)
  · intro j request' hj hrep
    obtain ⟨hnot, hsame⟩ := drop_of_ne (by rw [show drop _ _ j = _ from hrep]; nofun)
    rcases List.mem_append.1 (h.owned j request' hj (hsame.symm.trans hrep)) with hmem | hmem
    · exact List.mem_append_left _ hmem
    · exact absurd hmem hnot
  · intro g hg hrep
    obtain ⟨hnot, hsame⟩ := drop_of_ne (by rw [show drop _ _ g.call = _ from hrep]; nofun)
    exact absurd (List.mem_map.2 ⟨_, (h.entry g hg (hsame.symm.trans hrep)).1, rfl⟩) hnot
  · intro j outcome hj
    obtain ⟨-, hsame⟩ := drop_of_ne (by rw [show drop _ _ j = _ from hj]; nofun)
    exact h.replies j outcome (hsame.symm.trans hj)

end BookSound

/-- **Every step keeps the book of calls sound.** -/
theorem BookStep.sound (h : BookStep b b') (hb : BookSound b) : BookSound b' := by
  cases h with
  | call request hi => exact hb.call request hi
  | send hi => exact hb.send hi
  | finish hi hends => exact hb.finish hi hends
  | reject hr herr => exact hb.reject hr herr
  | connect hp => exact hb.connect hp
  | accept hr => exact hb.accept hr
  | skip =>
    refine { hb with next := fun g hg hconn => ?_ }
    obtain ⟨n, hn, hid⟩ := hb.next g hg hconn
    exact ⟨n, Nat.lt_succ_of_lt hn, hid⟩
  | answer hid hi => exact hb.answer hid hi
  | close => exact hb.close

end Sound

end OmaChat.Daemon

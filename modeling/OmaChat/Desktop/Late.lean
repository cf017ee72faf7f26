import OmaChat.Desktop.Bridge

/-!
# Late answers

What a session of the desktop bridge does with the answers of the daemon. `Inv` says what is pending: while the session is
not ready one request of its own, then requests whose answers are only shown, each of them asked and neither answered nor
given up. `answer_received_iff`: an answer is received if its request was not given up, and is one that the session expects
and can show.
-/

namespace OmaChat.Desktop
open Wire Transition

variable {deadline : Option Nat} {entry : Pending} {error value : Json} {method target : String} {now : Nat}
  {params : Option Json} {s s' : Session}

def Fits (value : Json) : Prop := value.render.utf8ByteSize ≤ limit

namespace Session
variable {identity : String}

theorem encode_of_fits (h : Fits value) : encode value = .ok (utf8 value.render ++ [10]) := if_neg (Nat.not_lt_of_le h)

theorem encode_of_long (h : ¬ Fits value) : encode value = .error (.value "Request exceeds IPC size limit") :=
  if_pos (Nat.lt_of_not_le h)

theorem emit_of_fits (h : Fits value) : s.emit value = .ok { s with emitted := s.emitted ++ [value] } := by
  rw [emit, encode_of_fits h]

theorem request_ok (h : s.request now method params target deadline = .ok s') :
    s'.serial = s.serial + 1 ∧
      s'.pending = s.pending ++ [⟨toString (s.serial + 1), target, now + deadline.getD s.timeout⟩] ∧
      s'.ready = s.ready ∧ s'.events = s.events := by
  unfold request at h
  split_ifs at h
  split at h
  · cases h
  · split_ifs at h
    cases h
    exact ⟨rfl, rfl, rfl, rfl⟩

theorem request_of_fits (now : Nat) (target : String) (deadline : Option Nat) {size : Nat}
    (hpend : s.pending = []) (hfits : (requestValue (s.serial + 1) method params).render.utf8ByteSize ≤ size)
    (hsize : size ≤ limit) (houtput : s.output.length < limit) :
    ∃ s', s.request now method params target deadline = .ok s' ∧ s'.output.length ≤ s.output.length + size + 1 := by
  have hlen : (s.output ++ (utf8 (requestValue (s.serial + 1) method params).render ++ [10])).length ≤
      s.output.length + size + 1 := by
    rw [List.length_append, List.length_append, length_utf8, List.length_singleton]
    omega
  have hroom : ¬ limit * 2 < s.output.length + (utf8 (requestValue (s.serial + 1) method params).render ++ [10]).length := by
    rw [← List.length_append]
    omega
  rw [request, hpend, if_neg (by decide), encode_of_fits (Nat.le_trans hfits hsize)]
  dsimp only
  rw [if_neg hroom]
  exact ⟨_, rfl, hlen⟩

theorem emit_ok (h : s.emit value = .ok s') :
    s'.serial = s.serial ∧ s'.pending = s.pending ∧ s'.ready = s.ready ∧ s'.events = s.events ∧ s'.output = s.output := by
  unfold emit at h
  split at h
  · cases h
  · cases h
    exact ⟨rfl, rfl, rfl, rfl, rfl⟩

/-! ## Answers -/

def outcomeOk : Proto.ResponseOutcome → Bool
  | .ok _ => true
  | .error _ _ => false

def outcomeResult : Proto.ResponseOutcome → Option Json
  | .ok .null => none
  | .ok result => some result
  | .error _ _ => none

def outcomeError : Proto.ResponseOutcome → Json
  | .ok _ => .str "Daemon rejected the request"
  | .error _ message => .str message

theorem receiveResponse_of_fields (value : Json) {ok : Bool}
    (hstat : value.field "status" = some (.str (if ok then "ok" else "error")))
    (hid : value.field "id" = some (.str identity)) (herr : errorMessage value = .ok error) :
    s.receiveResponse now value =
      match s.find identity with
      | none => .error (.value "Uncorrelated or malformed daemon response")
      | some entry => (s.pop identity).answered now entry.target ok (get value "result") error := by
  have hok : decide (value.field "status" = some (.str "ok")) = ok := by
    cases ok <;> simp [hstat]
  have hk : ¬ (value.field "status" ≠ some (.str "ok") ∧ value.field "status" ≠ some (.str "error")) := by
    cases ok <;> simp [hstat]
  unfold receiveResponse
  dsimp only
  rw [if_neg hk, hid, hok, herr]
  rfl

theorem receive_answer (identity : String) (outcome : Proto.ResponseOutcome) :
    s.receive now (Proto.Response.json ⟨Proto.ipcVersion, identity, outcome⟩) =
      match s.find identity with
      | none => .error (.value "Uncorrelated or malformed daemon response")
      | some entry => (s.pop identity).answered now entry.target (outcomeOk outcome) (outcomeResult outcome)
          (outcomeError outcome) := by
  have hver : (Proto.Response.json ⟨Proto.ipcVersion, identity, outcome⟩).field "version" =
      some (.num Proto.ipcVersion) := rfl
  have htopic : (Proto.Response.json ⟨Proto.ipcVersion, identity, outcome⟩).field "topic" = none := by
    cases outcome <;> rfl
  have hstat : (Proto.Response.json ⟨Proto.ipcVersion, identity, outcome⟩).field "status" =
      some (.str (if outcomeOk outcome then "ok" else "error")) := by
    cases outcome <;> rfl
  have herr : errorMessage (Proto.Response.json ⟨Proto.ipcVersion, identity, outcome⟩) = .ok (outcomeError outcome) := by
    cases outcome <;> rfl
  have hres : get (Proto.Response.json ⟨Proto.ipcVersion, identity, outcome⟩) "result" = outcomeResult outcome := by
    cases outcome with
    | ok result => cases result <;> rfl
    | error => rfl
  rw [receive, if_neg (not_not.2 hver), htopic]
  dsimp only
  rw [receiveResponse_of_fields _ hstat rfl herr, hres]

/-- Whether an answer is one that its request expects, and can be shown. -/
def Accepted (target : String) (outcome : Proto.ResponseOutcome) : Prop :=
  if target = "hello" then outcomeOk outcome = true
  else (target = "snapshot" → outcomeOk outcome = true ∧ isSnapshot (outcomeResult outcome) = true) ∧
    Fits (frame target (outcomeOk outcome) (outcomeResult outcome) (outcomeError outcome))

theorem mem_find (h : s.find identity = some entry) : entry ∈ s.pending ∧ entry.identity = identity :=
  ⟨List.mem_of_find?_eq_some h, by simpa using List.find?_some h⟩

theorem find_of_mem (h : identity ∈ s.pending.map Pending.identity) : ∃ entry, s.find identity = some entry := by
  obtain ⟨entry, he, rfl⟩ := List.mem_map.1 h
  rw [← Option.isSome_iff_exists, find, List.find?_isSome]
  exact ⟨entry, he, decide_eq_true rfl⟩

end Session

/-! ## The books of a session -/

/-- The ids that are pending: of the requests that were made, those that were neither answered nor given up. -/
structure Books (ids : List String) (serial answered : Nat) (expired : List String) : Prop where
  bounded : answered ≤ serial
  asked : ∀ id ∈ ids, ∃ k, answered < k ∧ k ≤ serial ∧ id = toString k
  kept : ∀ k, answered < k → k ≤ serial → toString k ∉ expired → toString k ∈ ids
  expired : ∀ id ∈ expired, id ∉ ids ∧ ∃ k ≤ serial, id = toString k

namespace Books
variable {ids ids' expired : List String} {serial answered : Nat}

section
variable (h : Books ids serial answered expired)
include h

theorem next_iff (hlt : answered < serial) :
    toString (answered + 1) ∈ ids ↔ toString (answered + 1) ∉ expired :=
  ⟨fun hmem hexp => (h.expired _ hexp).1 hmem, h.kept _ (Nat.lt_succ_self _) hlt⟩

theorem request : Books (ids ++ [toString (serial + 1)]) (serial + 1) answered expired := by
  refine ⟨Nat.le_succ_of_le h.bounded, fun id hid => ?_, fun k hk hle hexp => ?_, fun id hid => ?_⟩
  · rcases List.mem_append.1 hid with hid | hid
    · obtain ⟨k, hk, hle, rfl⟩ := h.asked id hid
      exact ⟨k, hk, Nat.le_succ_of_le hle, rfl⟩
    · exact ⟨serial + 1, Nat.lt_succ_of_le h.bounded, Nat.le_refl _, List.mem_singleton.1 hid⟩
  · rcases Nat.lt_or_eq_of_le hle with hlt | rfl
    · exact List.mem_append_left _ (h.kept k hk (Nat.le_of_lt_succ hlt) hexp)
    · exact List.mem_append_right _ (List.mem_singleton_self _)
  · obtain ⟨hids, k, hle, rfl⟩ := h.expired id hid
    refine ⟨fun hmem => ?_, k, Nat.le_succ_of_le hle, rfl⟩
    rcases List.mem_append.1 hmem with hmem | hmem
    · exact hids hmem
    · have hk := Json.toString_inj (List.mem_singleton.1 hmem)
      omega

theorem drop (hsub : ids' ⊆ ids) : Books ids' serial answered (expired ++ ids.filter (· ∉ ids')) := by
  refine ⟨h.bounded, fun id hid => h.asked id (hsub hid), fun k hk hle hexp => ?_, fun id hid => ?_⟩
  · rw [List.mem_append, not_or] at hexp
    have hmem := h.kept k hk hle hexp.1
    by_contra hnot
    exact hexp.2 (List.mem_filter.2 ⟨hmem, decide_eq_true hnot⟩)
  · rcases List.mem_append.1 hid with hid | hid
    · exact ⟨fun hmem => (h.expired id hid).1 (hsub hmem), (h.expired id hid).2⟩
    · obtain ⟨hmem, hnot⟩ := List.mem_filter.1 hid
      obtain ⟨k, -, hle, rfl⟩ := h.asked id hmem
      exact ⟨of_decide_eq_true hnot, k, hle, rfl⟩

theorem answer (hlt : answered < serial) :
    Books (ids.filter (· ≠ toString (answered + 1))) serial (answered + 1) expired := by
  refine ⟨hlt, fun id hid => ?_, fun k hk hle hexp => ?_, fun id hid => ?_⟩
  · obtain ⟨hmem, hne⟩ := List.mem_filter.1 hid
    obtain ⟨k, hk, hle, rfl⟩ := h.asked id hmem
    refine ⟨k, Nat.lt_of_le_of_ne hk fun heq => ?_, hle, rfl⟩
    exact of_decide_eq_true hne (by rw [heq])
  · refine List.mem_filter.2 ⟨h.kept k (by omega) hle hexp, decide_eq_true fun heq => ?_⟩
    have hk' := Json.toString_inj heq
    omega
  · exact ⟨fun hmem => (h.expired id hid).1 (List.mem_filter.1 hmem).1, (h.expired id hid).2⟩

end

end Books

/-! ## The invariant -/

inductive Starting (s : Session) : Prop where
  | hello (deadline : Nat) : s.serial = 1 → s.pending = [⟨"1", "hello", deadline⟩] →
    s.output.length ≤ 500 → Starting s
  | snapshot (deadline : Nat) : s.serial = 2 → s.pending = [⟨"2", "snapshot", deadline⟩] →
    s.output.length ≤ 1000 → Starting s

def Session.ids (s : Session) : List String := s.pending.map Pending.identity

/-- What is pending in a session, and what the answers are for. -/
structure Inv (b : Bridge) : Prop where
  books : Books b.session.ids b.session.serial b.answered b.expired
  starting : b.session.ready = false → b.session.events = [] ∧ Starting b.session
  shown : b.session.ready = true → ∀ entry ∈ b.session.pending, entry.target ≠ "hello" ∧ entry.target ≠ "snapshot"

section Steps
variable {b : Bridge}

theorem ids_request
    (h : s.request now method params target deadline = .ok s') : s'.ids = s.ids ++ [toString (s.serial + 1)] := by
  unfold Session.ids
  rw [(Session.request_ok h).2.1, List.map_append]
  rfl

theorem ids_pop (identity : String) : (s.pop identity).ids = s.ids.filter (· ≠ identity) := by
  unfold Session.ids Session.pop
  rw [List.filter_map]
  rfl

theorem Inv.request (h : Inv b) (hrdy : b.session.ready = true) (ht : target ≠ "hello" ∧ target ≠ "snapshot")
    (hreq : b.session.request now method params target deadline = .ok s) : Inv { b with session := s } := by
  obtain ⟨hser, hpend, hrdy', -⟩ := Session.request_ok hreq
  refine ⟨?_, fun hnot => ?_, fun _ entry he => ?_⟩
  · show Books s.ids s.serial b.answered b.expired
    rw [ids_request hreq, hser]
    exact h.books.request
  · rw [hrdy', hrdy] at hnot
    cases hnot
  · rw [hpend] at he
    rcases List.mem_append.1 he with he | he
    · exact h.shown hrdy entry he
    · cases List.mem_singleton.1 he
      exact ht

theorem Inv.emit (h : Inv b) (hemit : b.session.emit value = .ok s) : Inv { b with session := s } := by
  obtain ⟨hser, hpend, hrdy, hevs, houtput⟩ := Session.emit_ok hemit
  refine ⟨?_, fun hnot => ?_, fun hrdy' entry he => ?_⟩
  · show Books (s.pending.map Pending.identity) s.serial b.answered b.expired
    rw [hpend, hser]
    exact h.books
  · obtain ⟨hnone, hstarting⟩ := h.starting (hrdy ▸ hnot)
    refine ⟨hevs.trans hnone, ?_⟩
    cases hstarting with
    | hello deadline hk hp ho => exact .hello deadline (hser.trans hk) (hpend.trans hp) (houtput ▸ ho)
    | snapshot deadline hk hp ho => exact .snapshot deadline (hser.trans hk) (hpend.trans hp) (houtput ▸ ho)
  · exact h.shown (hrdy ▸ hrdy') entry (hpend ▸ he)

theorem command_cases (h : s.command now value = .ok s') :
    (∃ refusal, s.emit refusal = .ok s') ∨ s.ready = true ∧ ∃ identity method params deadline,
      "ui-".toList <+: identity.toList ∧ s.request now method params identity deadline = .ok s' := by
  unfold Session.command at h
  split at h
  · split_ifs at h with hid
    unfold Session.forward at h
    dsimp only at h
    split_ifs at h with hrdy
    · split at h
      · rename_i method _
        by_cases hmeth : method ∈ allowed
        · rw [if_pos hmeth] at h
          exact .inr ⟨hrdy, _, _, _, _, hid.1, h⟩
        · rw [if_neg hmeth] at h
          exact .inl ⟨_, h⟩
      · cases h
      · cases h
      · exact .inl ⟨_, h⟩
    · exact .inl ⟨_, h⟩
  · cases h

theorem Inv.command (h : Inv b) (hcmd : b.session.command now value = .ok s) : Inv { b with session := s } := by
  rcases command_cases hcmd with ⟨refusal, hemit⟩ | ⟨hrdy, identity, method, params, deadline, hid, hreq⟩
  · exact h.emit hemit
  · refine h.request hrdy ⟨?_, ?_⟩ hreq
    · rintro rfl
      exact absurd hid (by decide)
    · rintro rfl
      exact absurd hid (by decide)

theorem checkEach_ok {entries : List Pending} (h : s.checkEach now entries = .ok s') :
    s'.serial = s.serial ∧ s'.ready = s.ready ∧ s'.events = s.events ∧ s'.output = s.output ∧
      ∃ given : List String, s'.pending = s.pending.filter (·.identity ∉ given) ∧
        ∀ id ∈ given, ∃ entry ∈ entries, entry.identity = id ∧ entry.target ≠ "hello" ∧
          entry.target ≠ "snapshot" := by
  induction entries generalizing s with
  | nil =>
    cases h
    exact ⟨rfl, rfl, rfl, rfl, [], by simp, fun id hid => by cases hid⟩
  | cons entry rest ih =>
    unfold Session.checkEach at h
    split_ifs at h with hwaits hown
    · obtain ⟨hser, hrdy, hevs, houtput, given, hpend, hgiven⟩ := ih h
      refine ⟨hser, hrdy, hevs, houtput, given, hpend, fun id hid => ?_⟩
      obtain ⟨other, ho, hid⟩ := hgiven id hid
      exact ⟨other, List.mem_cons_of_mem _ ho, hid⟩
    · split at h
      · cases h
      rename_i s₁ hemit
      obtain ⟨hser₁, hpend₁, hrdy₁, hevs₁, houtput₁⟩ := Session.emit_ok hemit
      obtain ⟨hser, hrdy, hevs, houtput, given, hpend, hgiven⟩ := ih h
      refine ⟨hser.trans hser₁, hrdy.trans hrdy₁, hevs.trans hevs₁, houtput.trans houtput₁,
        entry.identity :: given, ?_, fun id hid => ?_⟩
      · rw [hpend, hpend₁, Session.pop, List.filter_filter]
        refine List.filter_congr fun other _ => ?_
        simp [not_or, Bool.and_comm]
      · rcases List.mem_cons.1 hid with rfl | hid
        · exact ⟨entry, List.mem_cons_self, rfl, fun heq => hown (.inl heq), fun heq => hown (.inr heq)⟩
        · obtain ⟨other, ho, hid⟩ := hgiven id hid
          exact ⟨other, List.mem_cons_of_mem _ ho, hid⟩

theorem Inv.check (h : Inv b) (hcheck : b.session.checkDeadlines now = .ok s) :
    Inv { b with session := s, expired := b.expired ++ b.session.ids.filter (· ∉ s.ids) } := by
  obtain ⟨hser, hrdy, hevs, houtput, given, hpend, hgiven⟩ := checkEach_ok hcheck
  have hids : s.ids ⊆ b.session.ids := by
    unfold Session.ids
    rw [hpend]
    exact List.map_subset _ (List.filter_subset_self _)
  refine ⟨?_, fun hnot => ?_, fun hrdy' entry he => ?_⟩
  · show Books s.ids s.serial b.answered _
    rw [hser]
    exact h.books.drop hids
  · obtain ⟨hnone, hstarting⟩ := h.starting (hrdy ▸ hnot)
    refine ⟨hevs.trans hnone, ?_⟩
    -- the only pending request is one that the check does not give up
    have hnothing : (∀ entry ∈ b.session.pending, entry.target = "hello" ∨ entry.target = "snapshot") →
        s.pending = b.session.pending := by
      intro hown
      have hempty : given = [] := by
        rw [List.eq_nil_iff_forall_not_mem]
        intro id hid
        obtain ⟨entry, he, -, hhello, hsnap⟩ := hgiven id hid
        rcases hown entry he with heq | heq
        · exact hhello heq
        · exact hsnap heq
      rw [hpend, hempty]
      simp
    cases hstarting with
    | hello deadline hk hp ho =>
      refine .hello deadline (hser.trans hk) ((hnothing ?_).trans hp) (houtput ▸ ho)
      simp [hp]
    | snapshot deadline hk hp ho =>
      refine .snapshot deadline (hser.trans hk) ((hnothing ?_).trans hp) (houtput ▸ ho)
      simp [hp]
  · rw [hpend] at he
    exact h.shown (hrdy ▸ hrdy') entry (List.mem_filter.1 he).1

/-! ### Answers -/

theorem answered_hello (hser : s.serial = 1) (hpend : s.pending = []) (houtput : s.output.length ≤ 500)
    (result : Option Json) (error : Json) :
    ∃ s' deadline, s.answered now "hello" true result error = .ok s' ∧ s'.serial = 2 ∧
      s'.pending = [⟨"2", "snapshot", deadline⟩] ∧ s'.ready = s.ready ∧ s'.events = s.events ∧
        s'.output.length ≤ 1000 := by
  have hsize : (Session.requestValue (s.serial + 1) "subscribe"
      (some (.obj [("topics", Json.strings topics)]))).render.utf8ByteSize ≤ 400 := by
    rw [hser]
    decide +kernel
  have hroom : s.output.length < limit := Nat.lt_of_le_of_lt houtput (by decide)
  obtain ⟨s', hreq, hlen⟩ := Session.request_of_fits now "snapshot" none hpend hsize (by decide) hroom
  obtain ⟨hser', hpend', hrdy, hevs⟩ := Session.request_ok hreq
  rw [hpend, hser] at hpend'
  refine ⟨s', now + s.timeout, ?_, by rw [hser', hser], hpend', hrdy, hevs, by omega⟩
  unfold Session.answered
  rw [if_pos rfl, if_pos rfl, hreq]

theorem answered_snapshot {result : Option Json} (hser : s.serial = 2) (hpend : s.pending = [])
    (houtput : s.output.length ≤ 1000) (hevs : s.events = []) (hres : Session.isSnapshot result = true)
    (hfits : Fits (Session.frame "snapshot" true result error)) :
    ∃ s' deadline, s.answered now "snapshot" true result error = .ok s' ∧ s'.serial = 3 ∧
      s'.pending = [⟨"3", "prepare", deadline⟩] ∧ s'.ready = true := by
  obtain ⟨s₁, hemit⟩ : ∃ s₁, s.emit (Session.frame "snapshot" true result error) = .ok s₁ :=
    ⟨_, Session.emit_of_fits hfits⟩
  obtain ⟨hser₁, hpend₁, -, hevs₁, houtput₁⟩ := Session.emit_ok hemit
  have hsize : (Session.requestValue (s₁.serial + 1) "chat-prepare" none).render.utf8ByteSize ≤ 400 := by
    rw [hser₁, hser]
    decide +kernel
  have hroom : s₁.output.length < limit := by
    rw [houtput₁]
    exact Nat.lt_of_le_of_lt houtput (by decide)
  obtain ⟨s', hreq, -⟩ := Session.request_of_fits (s := { s₁ with ready := true, events := [] }) now "prepare" (some 30000)
    (hpend₁.trans hpend) hsize (by decide) hroom
  obtain ⟨hser', hpend', hrdy, -⟩ := Session.request_ok hreq
  have hansd : s.answered now "snapshot" true result error = .ok s' := by
    have hevs' : ({ s₁ with ready := true } : Session).emitEvents s₁.events = .ok { s₁ with ready := true } := by
      rw [hevs₁, hevs, Session.emitEvents]
    unfold Session.answered
    rw [if_neg (by decide), if_pos rfl, if_pos ⟨rfl, hres⟩, hemit]
    dsimp only
    rw [Session.prepare, hevs']
    exact hreq
  refine ⟨s', now + 30000, hansd, ?_, ?_, hrdy⟩
  · rw [hser', hser₁, hser]
  · rw [hpend', hpend₁, hpend, hser₁, hser]
    rfl

theorem Inv.cases (h : Inv b) (hfind : b.session.find b.next = some entry) :
    (b.session.ready = true ∧ entry.target ≠ "hello" ∧ entry.target ≠ "snapshot") ∨
      b.session.ready = false ∧ b.session.events = [] ∧ (b.session.pop b.next).pending = [] ∧
        (entry.target = "hello" ∧ b.session.serial = 1 ∧ b.session.output.length ≤ 500 ∨
          entry.target = "snapshot" ∧ b.session.serial = 2 ∧ b.session.output.length ≤ 1000) := by
  obtain ⟨hmem, hid⟩ := Session.mem_find hfind
  cases hrdy : b.session.ready with
  | true => exact .inl ⟨rfl, h.shown hrdy entry hmem⟩
  | false =>
    obtain ⟨hevs, hstarting⟩ := h.starting hrdy
    refine .inr ⟨rfl, hevs, ?_⟩
    cases hstarting with
    | hello deadline hser hpend houtput =>
      rw [hpend, List.mem_singleton] at hmem
      subst hmem
      refine ⟨?_, .inl ⟨rfl, hser, houtput⟩⟩
      rw [← hid]
      simp [Session.pop, hpend]
    | snapshot deadline hser hpend houtput =>
      rw [hpend, List.mem_singleton] at hmem
      subst hmem
      refine ⟨?_, .inr ⟨rfl, hser, houtput⟩⟩
      rw [← hid]
      simp [Session.pop, hpend]

theorem answered_shown (ht : target ≠ "hello" ∧ target ≠ "snapshot") (ok : Bool) (result : Option Json)
    (error : Json) : s.answered now target ok result error = s.emit (Session.frame target ok result error) := by
  unfold Session.answered
  rw [if_neg ht.1, if_neg ht.2]

theorem answered_refused {outcome : Proto.ResponseOutcome} (h : ¬ Session.Accepted target outcome)
    (ht : target = "hello" ∨ target = "snapshot") :
    ∃ exception, s.answered now target (Session.outcomeOk outcome) (Session.outcomeResult outcome)
      (Session.outcomeError outcome) = .error exception := by
  unfold Session.Accepted at h
  unfold Session.answered
  rcases ht with rfl | rfl
  · rw [if_pos rfl] at h ⊢
    rw [if_neg h]
    exact ⟨_, rfl⟩
  · rw [if_neg (by decide)] at h ⊢
    rw [if_pos rfl]
    by_cases hres : Session.outcomeOk outcome = true ∧ Session.isSnapshot (Session.outcomeResult outcome) = true
    · have hlong := fun hfits => h ⟨fun _ => hres, hfits⟩
      rw [if_pos hres, Session.emit, Session.encode_of_long hlong]
      exact ⟨_, rfl⟩
    · rw [if_neg hres]
      exact ⟨_, rfl⟩

/-- What becomes of the answer to a pending request: a session with the same invariant if the answer is accepted, and an
exception otherwise. -/
theorem Inv.answered (h : Inv b) (now : Nat) (hlt : b.answered < b.session.serial)
    (hfind : b.session.find b.next = some entry) (outcome : Proto.ResponseOutcome) :
    (Session.Accepted entry.target outcome ∧ ∃ s, (b.session.pop b.next).answered now entry.target (Session.outcomeOk outcome)
        (Session.outcomeResult outcome) (Session.outcomeError outcome) = .ok s ∧
          Inv { b with session := s, answered := b.answered + 1 }) ∨
      ¬ Session.Accepted entry.target outcome ∧ ∃ exception, (b.session.pop b.next).answered now entry.target
        (Session.outcomeOk outcome) (Session.outcomeResult outcome) (Session.outcomeError outcome) = .error exception := by
  have hbooks : Books (b.session.pop b.next).ids b.session.serial (b.answered + 1) b.expired := by
    rw [ids_pop]
    exact h.books.answer hlt
  by_cases hacc : Session.Accepted entry.target outcome
  · refine .inl ⟨hacc, ?_⟩
    unfold Session.Accepted at hacc
    -- the answer to a request of the session itself is followed by the next one
    have hmade : (b.session.pop b.next).pending = [] → ∀ (s : Session) (serial : Nat) (target : String) (deadline : Nat),
        b.session.serial + 1 = serial → s.serial = serial → s.pending = [⟨toString serial, target, deadline⟩] →
          Books s.ids s.serial (b.answered + 1) b.expired := by
      rintro hpend s - target deadline rfl hser' hpend'
      have hnone : (b.session.pop b.next).ids = [] := by
        rw [Session.ids, hpend, List.map_nil]
      rw [hnone] at hbooks
      rw [hser', Session.ids, hpend']
      exact hbooks.request
    rcases h.cases hfind with ⟨hrdy, ht⟩ | ⟨hrdy, hevs, hpend, ⟨ht, hser, houtput⟩ | ⟨ht, hser, houtput⟩⟩
    · rw [if_neg ht.1] at hacc
      rw [answered_shown ht, Session.emit_of_fits hacc.2]
      refine ⟨_, rfl, hbooks, fun hnot => ?_, fun _ other ho => ?_⟩
      · rw [show ({ b.session.pop b.next with emitted := _ } : Session).ready = b.session.ready from rfl, hrdy] at hnot
        cases hnot
      · exact h.shown hrdy other (List.mem_filter.1 ho).1
    · rw [if_pos ht] at hacc
      rw [ht, hacc]
      obtain ⟨s, deadline, hs, hser', hpend', hrdy', hevs', houtput'⟩ :=
        answered_hello (s := b.session.pop b.next) hser hpend houtput (Session.outcomeResult outcome)
          (Session.outcomeError outcome)
      refine ⟨s, hs, ?_, fun _ => ⟨hevs'.trans hevs, .snapshot deadline hser' hpend' houtput'⟩, fun hnot => ?_⟩
      · exact hmade hpend s 2 _ deadline (by rw [hser]) hser' hpend'
      · rw [hrdy'.trans hrdy] at hnot
        cases hnot
    · rw [ht, if_neg (by decide)] at hacc
      obtain ⟨hok, hres⟩ := hacc.1 rfl
      rw [hok] at hacc
      rw [ht, hok]
      obtain ⟨s, deadline, hs, hser', hpend', hrdy'⟩ :=
        answered_snapshot (s := b.session.pop b.next) hser hpend houtput hevs hres hacc.2
      refine ⟨s, hs, ?_, fun hnot => ?_, fun _ other ho => ?_⟩
      · exact hmade hpend s 3 _ deadline (by rw [hser]) hser' hpend'
      · rw [hrdy'] at hnot
        cases hnot
      · rw [hpend', List.mem_singleton] at ho
        subst ho
        simp
  · refine .inr ⟨hacc, ?_⟩
    rcases h.cases hfind with ⟨-, ht⟩ | ⟨-, -, -, ⟨ht, -⟩ | ⟨ht, -⟩⟩
    · rw [answered_shown ht, Session.emit, Session.encode_of_long]
      · exact ⟨_, rfl⟩
      · intro hfits
        refine hacc ?_
        unfold Session.Accepted
        rw [if_neg ht.1]
        exact ⟨fun heq => absurd heq ht.2, hfits⟩
    · exact answered_refused hacc (.inl ht)
    · exact answered_refused hacc (.inr ht)

/-! ### Runs -/

theorem Inv.start (h : Session.start now = .ok s) : Inv { session := s } := by
  have hsize : (Session.requestValue (({} : Session).serial + 1) "hello"
      (some (.obj [("minimum_version", .num Proto.ipcVersion),
        ("maximum_version", .num Proto.ipcVersion)]))).render.utf8ByteSize ≤ 400 := by
    decide +kernel
  obtain ⟨s₁, hreq, hlen⟩ := Session.request_of_fits now "hello" none rfl hsize (by decide) (by decide)
  rw [Session.start, hreq] at h
  cases h
  obtain ⟨hser, hpend, hrdy, hevs⟩ := Session.request_ok hreq
  have hids : s.ids = [toString (0 + 1)] := by
    rw [ids_request hreq]
    rfl
  refine ⟨?_, fun _ => ⟨hevs, .hello _ hser hpend (Nat.le_trans hlen (by decide))⟩, fun hnot => ?_⟩
  · show Books s.ids s.serial 0 []
    have hnone : Books [] 0 0 [] := ⟨Nat.le_refl _, by simp, fun k hk hle => by omega, by simp⟩
    rw [hids, hser]
    exact hnone.request
  · rw [hrdy] at hnot
    cases hnot

theorem Inv.flush (h : Inv b) (count : Nat) :
    Inv { b with session := { b.session with output := b.session.output.drop count } } := by
  refine ⟨h.books, fun hrdy => ⟨(h.starting hrdy).1, ?_⟩, h.shown⟩
  have hlen : (b.session.output.drop count).length ≤ b.session.output.length := by
    rw [List.length_drop]
    omega
  cases (h.starting hrdy).2 with
  | hello deadline hser hpend houtput => exact .hello deadline hser hpend (Nat.le_trans hlen houtput)
  | snapshot deadline hser hpend houtput => exact .snapshot deadline hser hpend (Nat.le_trans hlen houtput)

theorem Inv.receive (h : Inv b) (now : Nat) (hlt : b.answered < b.session.serial) (outcome : Proto.ResponseOutcome) :
    (∃ entry s, b.session.find b.next = some entry ∧ Session.Accepted entry.target outcome ∧
        b.session.receive now (b.answer outcome) = .ok s ∧ Inv { b with session := s, answered := b.answered + 1 }) ∨
      (∀ entry, b.session.find b.next = some entry → ¬ Session.Accepted entry.target outcome) ∧
        ∃ exception, b.session.receive now (b.answer outcome) = .error exception := by
  unfold Bridge.answer
  rw [Session.receive_answer]
  cases hfind : b.session.find b.next with
  | none => exact .inr ⟨fun entry he => (nomatch he), _, rfl⟩
  | some entry =>
    rcases h.answered now hlt hfind outcome with ⟨hacc, s, hs, hinv⟩ | ⟨hacc, exception, hs⟩
    · exact .inl ⟨entry, s, rfl, hacc, hs, hinv⟩
    · refine .inr ⟨fun other ho => ?_, exception, hs⟩
      cases ho
      exact hacc

theorem Inv.step {l : Label} {b' : Bridge} (h : Inv b) (hstep : b.step l = some b') : Inv b' := by
  cases l with
  | command now value =>
    unfold Bridge.step at hstep
    dsimp only at hstep
    cases hcmd : b.session.command now value with
    | error exception =>
      rw [hcmd] at hstep
      cases hstep
    | ok s =>
      rw [hcmd] at hstep
      cases hstep
      exact h.command hcmd
  | check now =>
    unfold Bridge.step at hstep
    dsimp only at hstep
    cases hcheck : b.session.checkDeadlines now with
    | error exception =>
      rw [hcheck] at hstep
      cases hstep
    | ok s =>
      rw [hcheck] at hstep
      cases hstep
      exact h.check hcheck
  | flush count =>
    cases hstep
    exact h.flush count
  | respond now outcome =>
    unfold Bridge.step at hstep
    dsimp only at hstep
    split_ifs at hstep with hlt
    rcases h.receive now hlt outcome with ⟨-, s, -, -, hs, hinv⟩ | ⟨-, exception, hs⟩
    · rw [hs] at hstep
      cases hstep
      exact hinv
    · rw [hs] at hstep
      cases hstep

def Reachable (b : Bridge) : Prop :=
  ∃ now s ls, Session.start now = .ok s ∧ Run (fun b l b' => b.step l = some b') { session := s } ls b

theorem Reachable.inv (h : Reachable b) : Inv b := by
  obtain ⟨now, s, ls, hst, hrun⟩ := h
  exact hrun.invariant (fun _ _ _ hstep hinv => hinv.step hstep) (.start hst)

end Steps

/-- An answer of the daemon is received if its request was not given up, and if it is one that the request expects and that
can be shown; otherwise it ends the session. -/
theorem answer_received_iff {b : Bridge} (h : Reachable b) (now : Nat) (hlt : b.answered < b.session.serial)
    (outcome : Proto.ResponseOutcome) :
    (b.session.receive now (b.answer outcome)).isOk = true ↔ b.next ∉ b.expired ∧
      ∀ entry, b.session.find b.next = some entry → Session.Accepted entry.target outcome := by
  have hinv := h.inv
  have hpending : b.next ∈ b.session.ids ↔ b.next ∉ b.expired := hinv.books.next_iff hlt
  rcases hinv.receive now hlt outcome with ⟨entry, s, hfind, haccepted, hs, -⟩ | ⟨hrefused, exception, hs⟩
  · rw [hs, hfind, ← hpending]
    refine ⟨fun _ => ⟨?_, fun other hother => ?_⟩, fun _ => rfl⟩
    · obtain ⟨hmem, hid⟩ := Session.mem_find hfind
      exact List.mem_map.2 ⟨entry, hmem, hid⟩
    · cases hother
      exact haccepted
  · rw [hs, ← hpending]
    refine ⟨(nomatch ·), fun ⟨hmem, haccepted⟩ => ?_⟩
    obtain ⟨entry, hfind⟩ := Session.find_of_mem hmem
    exact absurd (haccepted entry hfind) (hrefused entry hfind)

def sending : List Label :=
  [.respond 1 (.ok (.obj [("version", .num 4)])), .respond 2 (.ok (.obj [("messages", .arr [])])), .respond 3 (.ok (.obj [])),
   .command 10 (.obj [("id", .str "ui-1"), ("method", .str "send")])]

def started (ls : List Label) : Option Bridge :=
  (Session.start 0).toOption.bind fun s => ls.foldlM Bridge.step { session := s }

theorem reachable_started (ls : List Label) {p : Bridge → Bool} (h : (started ls).any p = true) :
    ∃ b, Reachable b ∧ p b = true := by
  obtain ⟨b, hb, hp⟩ := (Option.any_eq_true _ _).1 h
  obtain ⟨s, hs, hsteps⟩ := Option.bind_eq_some_iff.1 hb
  refine ⟨b, ⟨0, s, ls, ?_, .of_foldlM hsteps⟩, hp⟩
  cases hst : Session.start 0 with
  | error exception =>
    rw [hst] at hs
    cases hs
  | ok s' =>
    rw [hst] at hs
    cases hs
    rfl

/-- The answer that comes in time is received. -/
theorem sent_answer_received : ∃ b, Reachable b ∧ b.next = "4" ∧
    (b.session.receive 20000 (b.answer (.ok (.obj [])))).isOk = true := by
  obtain ⟨b, hb, hp⟩ := reachable_started sending (p := fun b => b.next = "4" ∧ b.answered < b.session.serial ∧
    b.next ∉ b.expired ∧ (b.session.find b.next).all (·.target = "ui-1")) (by decide +kernel)
  obtain ⟨hnext, hlt, hexpired, hall⟩ := of_decide_eq_true hp
  refine ⟨b, hb, hnext, (answer_received_iff hb 20000 hlt (.ok (.obj []))).2 ⟨hexpired, fun entry hentry => ?_⟩⟩
  rw [hentry] at hall
  have htarget : entry.target = "ui-1" := of_decide_eq_true hall
  rw [htarget]
  unfold Session.Accepted
  rw [if_neg (by decide)]
  exact ⟨fun heq => absurd heq (by decide), by unfold Fits; decide +kernel⟩

/-- The answer that comes after the deadline check has given its request up ends the session. -/
theorem late_answer_raises : ∃ b, Reachable b ∧ b.next = "4" ∧ b.answered < b.session.serial ∧
    b.session.receive 40000 (b.answer (.ok (.obj []))) = .error (.value "Uncorrelated or malformed daemon response") := by
  obtain ⟨b, hb, hp⟩ := reachable_started (sending ++ [.check 30010]) (p := fun b => b.next = "4" ∧
    b.answered < b.session.serial ∧ (b.session.find b.next).isNone) (by decide +kernel)
  obtain ⟨hnext, hlt, hfind⟩ := of_decide_eq_true hp
  refine ⟨b, hb, hnext, hlt, ?_⟩
  unfold Bridge.answer
  rw [Session.receive_answer, Option.isNone_iff_eq_none.1 hfind]

end OmaChat.Desktop

import Mathlib.Tactic

/-!
# Readers of a stream

A reader takes one symbol after the other; each gives it a new state and some outputs, or makes it fail.

* `run` : what a reader does with a list of symbols; `run_append` follows it part by part;
* `failure` : the position of the symbol at which it fails;
* `batches` : the same with the symbols cut into batches, when the outputs of a batch are only handed over if the whole
  batch was read. `batches_eq_run` : only the outputs of the batch that fails can be missing; `batches_of_flatten_eq` : so how
  much two cuttings hand over depends on where their batches begin.
-/

namespace Feed
variable {σ α β ε : Type} (step : σ → β → Except ε (σ × List α))

/-- The outputs of a reader, and how it ends. -/
def run : σ → List β → List α × Except ε σ
  | s, [] => ([], .ok s)
  | s, b :: bs =>
    match step s b with
    | .error e => ([], .error e)
    | .ok (s', out) => (out ++ (run s' bs).1, (run s' bs).2)

/-- The position of the symbol at which a reader fails. -/
def failure : σ → List β → Option Nat
  | _, [] => none
  | s, b :: bs =>
    match step s b with
    | .error _ => some 0
    | .ok (s', _) => (failure s' bs).map (· + 1)

/-- Of the batch that has the position, the symbols of a kind that come before it. -/
def before (kind : β → Bool) : List (List β) → Nat → Nat
  | [], _ => 0
  | batch :: rest, n => if n < batch.length then (batch.take n).countP kind else before kind rest (n - batch.length)

/-- What the batches hand over, the outputs that are lost, and how the reader ends. -/
def batches : σ → List (List β) → List α × List α × Except ε σ
  | s, [] => ([], [], .ok s)
  | s, batch :: rest =>
    match run step s batch with
    | (out, .error e) => ([], out, .error e)
    | (out, .ok s') => (out ++ (batches s' rest).1, (batches s' rest).2)

variable {step} {s s' : σ} {b : β} {bs bs' : List β} {out : List α} {e : ε}

theorem run_cons_ok (h : step s b = .ok (s', out)) : run step s (b :: bs) = (out ++ (run step s' bs).1, (run step s' bs).2) := by
  rw [run, h]

theorem run_cons_error (h : step s b = .error e) : run step s (b :: bs) = ([], .error e) := by
  rw [run, h]

theorem run_append : run step s (bs ++ bs') = match run step s bs with
    | (out, .error e) => (out, .error e)
    | (out, .ok s') => (out ++ (run step s' bs').1, (run step s' bs').2) := by
  induction bs generalizing s with
  | nil => rfl
  | cons b bs ih =>
    cases hstep : step s b with
    | error e => rw [List.cons_append, run_cons_error hstep, run_cons_error hstep]
    | ok x =>
      rw [List.cons_append, run_cons_ok hstep, run_cons_ok hstep, ih]
      rcases run step x.1 bs with ⟨out, e | s'⟩
      · rfl
      · exact Prod.ext (List.append_assoc ..).symm rfl

variable (step) in
/-- What is handed over and what is lost make up the outputs of the whole stream, and the end is that of the stream. -/
theorem batches_eq_run (s : σ) (chunks : List (List β)) :
    (batches step s chunks).1 ++ (batches step s chunks).2.1 = (run step s chunks.flatten).1 ∧
      (batches step s chunks).2.2 = (run step s chunks.flatten).2 := by
  induction chunks generalizing s with
  | nil => exact ⟨rfl, rfl⟩
  | cons batch rest ih =>
    rcases hrun : run step s batch with ⟨out, e | s'⟩
    · rw [List.flatten_cons, batches, run_append, hrun]
      exact ⟨rfl, rfl⟩
    · rw [List.flatten_cons, batches, run_append, hrun]
      refine ⟨?_, (ih s').2⟩
      show (out ++ _) ++ _ = _
      rw [List.append_assoc, (ih s').1]

variable {chunks : List (List β)}

theorem batches_lost_of_ok (h : (batches step s chunks).2.2 = .ok s') : (batches step s chunks).2.1 = [] := by
  induction chunks generalizing s with
  | nil => rfl
  | cons batch rest ih =>
    rcases hrun : run step s batch with ⟨out, e | s₁⟩
    · rw [batches, hrun] at h
      cases h
    · rw [batches, hrun] at h ⊢
      exact ih h

theorem batches_of_run_ok (h : run step s chunks.flatten = (out, .ok s')) : batches step s chunks = (out, [], .ok s') := by
  obtain ⟨hout, hend⟩ := batches_eq_run step s chunks
  rw [h] at hout hend
  have hlost := batches_lost_of_ok hend
  rw [hlost, List.append_nil] at hout
  exact Prod.ext hout (Prod.ext hlost hend)

/-! ## How much is lost -/

section
variable {kind : β → Bool}

variable (step kind) in
/-- Every symbol of the kind gives one output, and no other symbol gives any. -/
def Counts : Prop := ∀ s b s' out, step s b = .ok (s', out) → out.length = if kind b then 1 else 0

/-- A reader comes to the end, or it has given the outputs of the symbols before the one at which it fails. -/
theorem run_cases (hkind : Counts step kind) (s : σ) (bs : List β) :
    (∃ out s', run step s bs = (out, .ok s') ∧ failure step s bs = none) ∨
      ∃ out e n, run step s bs = (out, .error e) ∧ failure step s bs = some n ∧ n < bs.length ∧
        out.length = (bs.take n).countP kind := by
  induction bs generalizing s with
  | nil => exact .inl ⟨[], s, rfl, rfl⟩
  | cons b bs ih =>
    cases hstep : step s b with
    | error e =>
      refine .inr ⟨[], e, 0, run_cons_error hstep, ?_, Nat.zero_lt_succ _, rfl⟩
      rw [failure, hstep]
    | ok x =>
      obtain ⟨s₁, out₁⟩ := x
      rw [run_cons_ok hstep, failure, hstep]
      dsimp only
      rcases ih s₁ with ⟨out, s', hrun, hnone⟩ | ⟨out, e, n, hrun, hsome, hlt, hlen⟩
      · rw [hrun, hnone]
        exact .inl ⟨_, _, rfl, rfl⟩
      · rw [hrun, hsome]
        refine .inr ⟨_, _, _, rfl, rfl, Nat.succ_lt_succ hlt, ?_⟩
        rw [List.take_succ_cons, List.countP_cons, List.length_append, hkind s b s₁ out₁ hstep, hlen, Nat.add_comm]

theorem failure_append_ok (h : run step s bs = (out, .ok s')) :
    failure step s (bs ++ bs') = (failure step s' bs').map (· + bs.length) := by
  induction bs generalizing s out with
  | nil =>
    cases h
    simp
  | cons b bs ih =>
    cases hstep : step s b with
    | error e =>
      rw [run_cons_error hstep] at h
      cases h
    | ok x =>
      rw [run_cons_ok hstep] at h
      have hrun : run step x.1 bs = ((run step x.1 bs).1, .ok s') := Prod.ext rfl (congrArg Prod.snd h :)
      rw [List.cons_append, failure, hstep]
      dsimp only
      rw [ih hrun, Option.map_map]
      rfl

theorem failure_append_error {n : Nat} (h : failure step s bs = some n) : failure step s (bs ++ bs') = some n := by
  induction bs generalizing s n with
  | nil => cases h
  | cons b bs ih =>
    rw [List.cons_append, failure]
    rw [failure] at h
    cases hstep : step s b with
    | error e =>
      rw [hstep] at h
      exact h
    | ok x =>
      rw [hstep] at h
      obtain ⟨m, hm, rfl⟩ := Option.map_eq_some_iff.1 h
      dsimp only
      rw [ih hm]
      rfl

/-- The batch that fails loses the outputs of its symbols before the one at which the stream fails. -/
theorem length_lost (hkind : Counts step kind) (s : σ) (chunks : List (List β)) :
    (batches step s chunks).2.1.length = ((failure step s chunks.flatten).map (before kind chunks)).getD 0 := by
  induction chunks generalizing s with
  | nil => rfl
  | cons batch rest ih =>
    rw [batches, List.flatten_cons]
    rcases run_cases hkind s batch with ⟨out, s', hrun, -⟩ | ⟨out, e, n, hrun, hfail, hlt, hlen⟩
    · rw [failure_append_ok hrun, hrun]
      dsimp only
      rw [ih s', Option.map_map]
      refine congrArg (fun f => ((failure step s' rest.flatten).map f).getD 0) (funext fun n => ?_)
      show _ = before kind (batch :: rest) (n + batch.length)
      rw [before, if_neg (by omega), Nat.add_sub_cancel]
    · rw [failure_append_error hfail, hrun, Option.map_some, Option.getD_some, before, if_pos hlt]
      exact hlen

variable (s) in
/-- Two ways of cutting a stream: they end alike, and hand over the same if and only if equally many symbols of the kind come
before the failure in the batches that have it. -/
theorem batches_of_flatten_eq {chunks' : List (List β)} (hkind : Counts step kind) (h : chunks.flatten = chunks'.flatten) :
    (batches step s chunks).2.2 = (batches step s chunks').2.2 ∧
      ((batches step s chunks).1 = (batches step s chunks').1 ↔
        (failure step s chunks.flatten).map (before kind chunks) =
          (failure step s chunks.flatten).map (before kind chunks')) := by
  obtain ⟨hout, hend⟩ := batches_eq_run step s chunks
  obtain ⟨hout', hend'⟩ := batches_eq_run step s chunks'
  have hlost := length_lost hkind s chunks
  have hlost' := length_lost hkind s chunks'
  rw [← h] at hout' hend' hlost'
  have hall := hout.trans hout'.symm
  refine ⟨hend.trans hend'.symm, fun heq => ?_, fun heq => ?_⟩
  · rw [heq] at hall
    rw [List.append_cancel_left hall, hlost'] at hlost
    cases hfail : failure step s chunks.flatten with
    | none => rfl
    | some n =>
      rw [hfail] at hlost
      exact congrArg some hlost.symm
  · rw [heq, ← hlost'] at hlost
    exact (List.append_inj' hall hlost).1

end

end Feed

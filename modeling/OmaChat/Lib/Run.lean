import Mathlib.Tactic

/-!
# Runs of a labelled transition system

`Run step s ls s'` : the steps labelled `ls` lead from `s` to `s'`. A step relation that also asks for a condition on the
state and the label gives the runs whose every step meets it.

* `Run.invariant` : what every step keeps holds at the end of a run;
* `Run.labels` : every step of a run has one of its labels;
* `Run.of_foldlM` : the runs that are computed.
-/

namespace Transition
variable {S L : Type} {step : S → L → S → Prop}

inductive Run (step : S → L → S → Prop) : S → List L → S → Prop where
  | nil (s : S) : Run step s [] s
  | cons {s s₁ s' : S} {l : L} {ls : List L} : step s l s₁ → Run step s₁ ls s' → Run step s (l :: ls) s'

variable {s s' : S} {ls : List L}

theorem Run.invariant {I : S → Prop} (hstep : ∀ s l s', step s l s' → I s → I s') (h : Run step s ls s')
    (hs : I s) : I s' := by
  induction h with
  | nil s => exact hs
  | cons hl _ ih => exact ih (hstep _ _ _ hl hs)

theorem Run.labels {all : List L} (h : Run step s ls s') (hall : ∀ l ∈ ls, l ∈ all) :
    Run (fun s l s' => step s l s' ∧ l ∈ all) s ls s' := by
  induction h with
  | nil s => exact .nil s
  | cons hl _ ih =>
    exact .cons ⟨hl, hall _ List.mem_cons_self⟩ (ih fun l hmem => hall l (List.mem_cons_of_mem _ hmem))

theorem Run.append {s₁ : S} {ls' : List L} (h : Run step s ls s₁) (h' : Run step s₁ ls' s') :
    Run step s (ls ++ ls') s' := by
  induction h with
  | nil s => exact h'
  | cons hl _ ih => exact .cons hl (ih h')

theorem Run.mono {step' : S → L → S → Prop} (hstep : ∀ s l s', step s l s' → step' s l s') (h : Run step s ls s') :
    Run step' s ls s' := by
  induction h with
  | nil s => exact .nil s
  | cons hl _ ih => exact .cons (hstep _ _ _ hl) ih

theorem Run.of_foldlM {next : S → L → Option S} (h : ls.foldlM next s = some s') :
    Run (fun s l s' => next s l = some s') s ls s' := by
  induction ls generalizing s with
  | nil =>
    cases h
    exact .nil _
  | cons l ls ih =>
    rw [List.foldlM_cons] at h
    obtain ⟨s₁, hnext, hrest⟩ := Option.bind_eq_some_iff.1 h
    exact .cons hnext (ih hrest)

end Transition

import OmaChat.Lib.Run
import Mathlib.Order.Filter.AtTopBot.Basic

/-!
# Endless runs and fairness

`Endless step` : an endless run, in which at some times nothing happens. A kind of steps is a relation of the two states and
the label.

* `Endless.Fair` : a kind of steps that is possible again and again is taken again and again;
* `Endless.invariant` : what every step keeps holds at all times;
* `Endless.not_frequently_of_rank` : steps that lower a rank which nothing raises come to an end.
-/

namespace Transition
open Filter
variable {S L : Type} {step : S → L → S → Prop}

/-- An endless run. At a time without a label nothing happens. -/
structure Endless (step : S → L → S → Prop) where
  state : Nat → S
  label : Nat → Option L
  moves : ∀ n, (∃ l, label n = some l ∧ step (state n) l (state (n + 1))) ∨ (label n = none ∧ state (n + 1) = state n)

def Enabled (step kind : S → L → S → Prop) (s : S) : Prop := ∃ l s', step s l s' ∧ kind s l s'

namespace Endless
variable (run : Endless step)

def Takes (kind : S → L → S → Prop) (n : Nat) : Prop :=
  ∃ l, run.label n = some l ∧ kind (run.state n) l (run.state (n + 1))

/-- A kind of steps that is possible again and again is taken again and again. -/
def Fair (kind : S → L → S → Prop) : Prop :=
  (∃ᶠ n in atTop, Enabled step kind (run.state n)) → ∃ᶠ n in atTop, run.Takes kind n

variable {run} {kind : S → L → S → Prop} {n : Nat} {I : S → Prop}

theorem Takes.is_step (h : run.Takes kind n) :
    ∃ l, step (run.state n) l (run.state (n + 1)) ∧ kind (run.state n) l (run.state (n + 1)) := by
  obtain ⟨l, hl, hkind⟩ := h
  rcases run.moves n with ⟨l', hl', hstep⟩ | ⟨hnone, -⟩
  · obtain rfl := Option.some.inj (hl.symm.trans hl')
    exact ⟨l, hstep, hkind⟩
  · rw [hl] at hnone
    cases hnone

theorem keeps (hstep : ∀ m, n ≤ m → ∀ l, step (run.state m) l (run.state (m + 1)) → I (run.state m) →
    I (run.state (m + 1))) (hn : I (run.state n)) {m : Nat} (hm : n ≤ m) : I (run.state m) := by
  induction m, hm using Nat.le_induction with
  | base => exact hn
  | succ m hm ih =>
    rcases run.moves m with ⟨l, -, hl⟩ | ⟨-, hsame⟩
    · exact hstep m hm l hl ih
    · rw [hsame]
      exact ih

theorem invariant (hstep : ∀ s l s', step s l s' → I s → I s') (h : I (run.state 0)) (n : Nat) : I (run.state n) :=
  keeps (fun _ _ _ hl hm => hstep _ _ _ hl hm) h (Nat.zero_le n)

theorem not_frequently_of_rank (rank : S → Nat) (h : ∀ᶠ n in atTop, rank (run.state (n + 1)) ≤ rank (run.state n) ∧
      (run.Takes kind n → rank (run.state (n + 1)) < rank (run.state n))) :
    ¬ ∃ᶠ n in atTop, run.Takes kind n := by
  intro htakes
  obtain ⟨N, hN⟩ := eventually_atTop.1 h
  have hle {n m : Nat} (hn : N ≤ n) (hm : n ≤ m) : rank (run.state m) ≤ rank (run.state n) := by
    induction m, hm using Nat.le_induction with
    | base => exact le_rfl
    | succ m hm ih => exact (hN m (hn.trans hm)).1.trans ih
  -- the rank at a later time is always lower still
  have hlow (k : Nat) : ∃ n ≥ N, rank (run.state n) + k ≤ rank (run.state N) := by
    induction k with
    | zero => exact ⟨N, le_rfl, le_rfl⟩
    | succ k ih =>
      obtain ⟨n, hn, hrank⟩ := ih
      obtain ⟨m, hm, htake⟩ := frequently_atTop.1 htakes n
      have hfrom := hle hn hm
      have hdrop := (hN m (hn.trans hm)).2 htake
      exact ⟨m + 1, by omega, by omega⟩
  obtain ⟨n, -, hn⟩ := hlow (rank (run.state N) + 1)
  omega

end Endless

end Transition

import Mathlib.Tactic

/-!
# Readers of growing prefixes

A reader takes in a sequence piece by piece. After each piece it looks at all that it has: it stops with a result, or it goes
on, and at the end of the sequence it has a last look.

* `read` : the result, for what the reader makes of each prefix (`stop`) and of the whole (`final`). `read_eq_of_invariant` is
  the rule for what every division into pieces comes to;
* `TwoLimits` : a reader that looks for a mark and then for an end. It stops with `tooLarge` if there are more than `soft`
  elements without the mark, or more than `cap` in all;
* `read_independent_iff` : the result of such a reader does not depend on the pieces, unless a piece leaps over the
  positions at which one of the limits is exceeded (`LeapsSoft`, `LeapsCap`).
-/

namespace Prefixes
variable {β : Type}

/-- The result of a reader that has come to the given position. -/
def read (stop : Nat → Option β) (final : β) : Nat → List Nat → β
  | _, [] => final
  | n, size :: sizes => (stop (n + size)).getD (read stop final (n + size) sizes)

structure Pieces (width total : Nat) (sizes : List Nat) : Prop where
  sum : sizes.sum = total
  pos : ∀ size ∈ sizes, 0 < size
  le : ∀ size ∈ sizes, size ≤ width

section Rules
variable {stop : Nat → Option β} {final result : β} {width total : Nat} {leap p : Nat}

theorem read_eq_of_invariant (I : Nat → Prop)
    (hstep : ∀ p q, I p → p < q → q ≤ p + width → q ≤ total → stop q = some result ∨ stop q = none ∧ I q)
    (hend : I total → final = result) {sizes : List Nat} (hp : I p) (hpieces : Pieces width (total - p) sizes)
    (hle : p ≤ total) : read stop final p sizes = result := by
  induction sizes generalizing p with
  | nil =>
    have hsum := hpieces.sum
    have htot : p = total := by
      simp at hsum
      omega
    subst htot
    exact hend hp
  | cons size sizes ih =>
    have hsum := hpieces.sum
    have hpos := hpieces.pos size List.mem_cons_self
    have hwidth := hpieces.le size List.mem_cons_self
    rw [List.sum_cons] at hsum
    unfold read
    rcases hstep p (p + size) hp (by omega) (by omega) (by omega) with hstop | ⟨hstop, hnext⟩
    · rw [hstop]
      rfl
    · rw [hstop]
      refine ih hnext ⟨by omega, fun other ho => ?_, fun other ho => ?_⟩ (by omega)
      · exact hpieces.pos other (List.mem_cons_of_mem _ ho)
      · exact hpieces.le other (List.mem_cons_of_mem _ ho)

theorem read_ones {k : Nat} (h : ∀ q, p < q → q ≤ p + k → stop q = none) (sizes : List Nat) :
    read stop final p (List.replicate k 1 ++ sizes) = read stop final (p + k) sizes := by
  induction k generalizing p with
  | zero => rfl
  | succ k ih =>
    rw [List.replicate_succ, List.cons_append, read, h (p + 1) (by omega) (by omega), Option.getD_none,
      ih fun q hlt hle => h q (by omega) (by omega)]
    congr 1
    omega

/-- One element at a time up to a position, a leap, and one element at a time again. -/
def leaping (p leap total : Nat) : List Nat := List.replicate p 1 ++ leap :: List.replicate (total - (p + leap)) 1

theorem pieces_leaping (hleap : 0 < leap) (hwidth : leap ≤ width) (htot : p + leap ≤ total) :
    Pieces width total (leaping p leap total) := by
  have hones : ∀ size ∈ leaping p leap total, size = 1 ∨ size = leap := by
    intro size hsize
    simp only [leaping, List.mem_append, List.mem_cons, List.mem_replicate] at hsize
    omega
  refine ⟨?_, fun size hsize => ?_, fun size hsize => ?_⟩
  · simp [leaping]
    omega
  · rcases hones size hsize with rfl | rfl <;> omega
  · rcases hones size hsize with rfl | rfl <;> omega

theorem read_leaping (h : ∀ q, 0 < q → q ≤ p → stop q = none) (hstop : stop (p + leap) = some result)
    (total : Nat) : read stop final 0 (leaping p leap total) = result := by
  rw [leaping, read_ones (by simpa using h), Nat.zero_add, read, hstop]
  rfl

end Rules

/-! ## Two limits -/

/-- A reader with two limits: `mark` is the position behind the mark, and `done` the one at which the rest is complete. -/
structure TwoLimits (β : Type) where
  soft : Nat
  cap : Nat
  mark : Nat
  done : Nat
  tooLarge : β
  outcome : β
  final : β
  mark_pos : 0 < mark
  mark_le : mark ≤ done

namespace TwoLimits
variable (r : TwoLimits β) (width total : Nat)

def stop (n : Nat) : Option β :=
  if r.cap < n then some r.tooLarge
  else if n < r.mark then if r.soft < n then some r.tooLarge else none
  else if r.done ≤ n then some r.outcome
  else none

/-- A piece can leap from the first limit behind the mark, and what is read then is not too large. -/
def LeapsSoft : Prop :=
  r.soft + 1 < r.mark ∧ r.mark ≤ r.soft + width ∧ r.mark ≤ r.cap ∧ r.mark ≤ total ∧
    (r.done ≤ r.cap ∧ r.done ≤ total ∧ r.outcome ≠ r.tooLarge ∨ total < r.done ∧
      total ≤ r.cap ∧ r.final ≠ r.tooLarge)

/-- A piece can leap from before the end over the second limit, and what ends there is not too large. -/
def LeapsCap : Prop :=
  r.mark ≤ r.soft + 1 ∧ r.done ≤ r.cap ∧ r.cap < total ∧ r.cap + 2 ≤ r.done + width ∧ r.outcome ≠ r.tooLarge

variable {r width total} {n : Nat}

theorem stop_eq_none (hcap : n ≤ r.cap) (hsoft : n < r.mark → n ≤ r.soft) (hdone : n < r.done) : r.stop n = none := by
  unfold stop
  split_ifs <;> first | rfl | omega

theorem stop_of_cap (h : r.cap < n) : r.stop n = some r.tooLarge := if_pos h

theorem stop_of_soft (hsoft : r.soft < n) (hmark : n < r.mark) : r.stop n = some r.tooLarge := by
  unfold stop
  split_ifs <;> rfl

theorem stop_of_done (hcap : n ≤ r.cap) (hdone : r.done ≤ n) : r.stop n = some r.outcome := by
  have hmark := r.mark_le
  unfold stop
  rw [if_neg (by omega), if_neg (by omega), if_pos hdone]

theorem read_from_mark (hmark : r.mark ≤ total) (hf : r.mark < r.done) :
    (r.done ≤ r.cap → r.done ≤ total →
        read r.stop r.final r.mark (List.replicate (total - r.mark) 1) = r.outcome) ∧
      (total < r.done → total ≤ r.cap → read r.stop r.final r.mark (List.replicate (total - r.mark) 1) = r.final) := by
  have hones : Pieces 1 (total - r.mark) (List.replicate (total - r.mark) 1) := by
    refine ⟨by simp, ?_, ?_⟩
    · intro size hsize
      rw [List.eq_of_mem_replicate hsize]
      exact Nat.one_pos
    · intro size hsize
      rw [List.eq_of_mem_replicate hsize]
  constructor
  · intro hcap htot
    refine read_eq_of_invariant (fun p => r.mark ≤ p ∧ p < r.done) ?_ (fun h => ?_) ⟨le_rfl, hf⟩ hones hmark
    · intro p q hp hlt hle hq
      by_cases hdone : r.done ≤ q
      · exact .inl (stop_of_done (by omega) hdone)
      · exact .inr ⟨stop_eq_none (by omega) (by omega) (by omega), by omega⟩
    · omega
  · intro htot hcap
    refine read_eq_of_invariant (fun p => r.mark ≤ p ∧ p < r.done) ?_ (fun _ => rfl) ⟨le_rfl, hf⟩ hones hmark
    intro p q hp hlt hle hq
    exact .inr ⟨stop_eq_none (by omega) (by omega) (by omega), by omega⟩

/-- With a leap behind the mark the result is what is read then; element by element the first limit is exceeded. -/
theorem read_differs_of_leapsSoft (h : r.LeapsSoft width total) :
    ∃ sizes sizes', Pieces width total sizes ∧ Pieces width total sizes' ∧
      read r.stop r.final 0 sizes = r.tooLarge ∧ read r.stop r.final 0 sizes' ≠ r.tooLarge := by
  obtain ⟨hsoft, hwidth, hcap, htot, hres⟩ := h
  have hbelow : ∀ q, 0 < q → q ≤ r.soft → r.stop q = none := by
    intro q hpos hle
    have hmark := r.mark_le
    exact stop_eq_none (by omega) (by omega) (by omega)
  have hleap : r.soft + (r.mark - r.soft) = r.mark := by omega
  refine ⟨leaping r.soft 1 total, leaping r.soft (r.mark - r.soft) total,
    pieces_leaping (by omega) (by omega) (by omega), pieces_leaping (by omega) (by omega) (by omega), ?_, ?_⟩
  · exact read_leaping hbelow (stop_of_soft (by omega) hsoft) total
  · by_cases hf : r.mark < r.done
    · have hread : read r.stop r.final 0 (leaping r.soft (r.mark - r.soft) total) =
          read r.stop r.final r.mark (List.replicate (total - r.mark) 1) := by
        rw [leaping, read_ones (by simpa using hbelow), Nat.zero_add, read, hleap, stop_eq_none hcap (by omega) hf]
        rfl
      obtain ⟨hout, hfinal⟩ := read_from_mark htot hf
      rw [hread]
      rcases hres with ⟨hdone, hdone', hne⟩ | ⟨hlate, hwithin, hne⟩
      · rw [hout hdone hdone']
        exact hne
      · rw [hfinal hlate hwithin]
        exact hne
    · have hdone : r.done ≤ r.mark := by omega
      have hne : r.outcome ≠ r.tooLarge := by
        rcases hres with ⟨-, -, hne⟩ | ⟨hlate, -⟩
        · exact hne
        · omega
      rw [read_leaping hbelow (by rw [hleap]; exact stop_of_done hcap hdone)]
      exact hne

theorem read_differs_of_leapsCap (h : r.LeapsCap width total) :
    ∃ sizes sizes', Pieces width total sizes ∧ Pieces width total sizes' ∧
      read r.stop r.final 0 sizes = r.tooLarge ∧ read r.stop r.final 0 sizes' ≠ r.tooLarge := by
  obtain ⟨hsoft, hdone, hcap, hwidth, hne⟩ := h
  have hmark := r.mark_le
  have hpos := r.mark_pos
  have hbelow : ∀ q, 0 < q → q ≤ r.done - 1 → r.stop q = none := by
    intro q hq hle
    exact stop_eq_none (by omega) (by omega) (by omega)
  refine ⟨leaping (r.done - 1) (r.cap + 2 - r.done) total, leaping (r.done - 1) 1 total,
    pieces_leaping (by omega) (by omega) (by omega), pieces_leaping (by omega) (by omega) (by omega), ?_, ?_⟩
  · exact read_leaping hbelow (stop_of_cap (by omega)) total
  · rw [read_leaping hbelow (stop_of_done (by omega) (by omega))]
    exact hne

theorem read_eq_of_no_leap (hsoft : ¬ r.LeapsSoft width total) (hcap : ¬ r.LeapsCap width total) :
    ∃ result, ∀ sizes, Pieces width total sizes → read r.stop r.final 0 sizes = result := by
  have hmark := r.mark_le
  have hpos := r.mark_pos
  by_cases hexceeds : r.soft + 1 < r.mark ∧ r.soft < r.cap ∧ r.soft < total
  · -- the first limit is exceeded before the mark, so that no reader comes to the end
    refine ⟨r.tooLarge, fun sizes hsz => read_eq_of_invariant
      (fun p => p ≤ r.soft ∨ r.mark ≤ r.soft + width ∧ r.mark ≤ p ∧ p ≤ r.cap ∧ p < r.done)
      ?_ ?_ (.inl (Nat.zero_le _)) hsz (Nat.zero_le _)⟩
    · intro p q hp hlt hle hq
      by_cases hover : r.cap < q
      · exact .inl (stop_of_cap hover)
      by_cases hb : q < r.mark
      · by_cases hbelow : q ≤ r.soft
        · exact .inr ⟨stop_eq_none (by omega) (by omega) (by omega), .inl hbelow⟩
        · exact .inl (stop_of_soft (by omega) hb)
      · by_cases hdone : r.done ≤ q
        · left
          rw [stop_of_done (by omega) hdone]
          by_contra hne
          exact hsoft ⟨hexceeds.1, by omega, by omega, by omega, .inl ⟨by omega, by omega, fun heq => hne (heq ▸ rfl)⟩⟩
        · exact .inr ⟨stop_eq_none (by omega) (by omega) (by omega), .inr (by omega)⟩
    · intro hend
      by_contra hne
      exact hsoft ⟨hexceeds.1, by omega, by omega, by omega, .inr ⟨by omega, by omega, hne⟩⟩
  by_cases hdone : r.done ≤ r.cap ∧ r.done ≤ total
  · -- the end comes within the limits
    refine ⟨r.outcome, fun sizes hsz => read_eq_of_invariant (fun p => p < r.done) ?_ (by omega) (by omega)
      hsz (Nat.zero_le _)⟩
    intro p q hp hlt hle hq
    by_cases hover : r.cap < q
    · left
      rw [stop_of_cap hover]
      by_contra hne
      exact hcap ⟨by omega, by omega, by omega, by omega, fun heq => hne (heq ▸ rfl)⟩
    · by_cases hend : r.done ≤ q
      · exact .inl (stop_of_done (by omega) hend)
      · exact .inr ⟨stop_eq_none (by omega) (by omega) (by omega), by omega⟩
  by_cases hover : r.cap < total
  · refine ⟨r.tooLarge, fun sizes hsz => read_eq_of_invariant (fun p => p ≤ r.cap) ?_ (by omega) (by omega)
      hsz (Nat.zero_le _)⟩
    intro p q hp hlt hle hq
    by_cases hq' : r.cap < q
    · exact .inl (stop_of_cap hq')
    · exact .inr ⟨stop_eq_none (by omega) (by omega) (by omega), by omega⟩
  · refine ⟨r.final, fun sizes hsz => read_eq_of_invariant (fun _ => True) ?_ (fun _ => rfl) trivial
      hsz (Nat.zero_le _)⟩
    intro p q hp hlt hle hq
    exact .inr ⟨stop_eq_none (by omega) (by omega) (by omega), trivial⟩

variable (r width total) in
/-- **The result does not depend on the pieces** exactly if no piece can leap over the positions that exceed a limit. -/
theorem read_independent_iff :
    (∀ sizes sizes', Pieces width total sizes → Pieces width total sizes' →
        read r.stop r.final 0 sizes = read r.stop r.final 0 sizes') ↔
      ¬ (r.LeapsSoft width total ∨ r.LeapsCap width total) := by
  constructor
  · rintro hsame (hleaps | hleaps)
    · obtain ⟨sizes, sizes', hsz, hsz', hlarge, ho⟩ := read_differs_of_leapsSoft hleaps
      exact ho ((hsame sizes' sizes hsz' hsz).trans hlarge)
    · obtain ⟨sizes, sizes', hsz, hsz', hlarge, ho⟩ := read_differs_of_leapsCap hleaps
      exact ho ((hsame sizes' sizes hsz' hsz).trans hlarge)
  · intro hleaps sizes sizes' hsz hsz'
    obtain ⟨result, hres⟩ := read_eq_of_no_leap (fun h => hleaps (.inl h)) (fun h => hleaps (.inr h))
    rw [hres sizes hsz, hres sizes' hsz']

end TwoLimits

end Prefixes

import Mathlib.Tactic

/-!
# One-shot replies

A caller waits on a cell that is filled once: whoever holds the sending half puts a value into it, or drops it. The halves
are handed from list to list, so what counts is the list of all that are held.

* `Held owners cells` : no half is held twice, and the cells of those that are held are empty;
* `Held.perm`, `Held.cons` : the halves change hands, and a new one is held;
* `Held.send`, `Held.drop` : the holder uses halves up.
-/

namespace Oneshot
variable {ι α : Type}

inductive Cell (α : Type) where
  | empty
  | sent (value : α)
  | dropped

/-- Every half is held once at most, and not used up. -/
structure Held (owners : List ι) (cells : ι → Cell α) : Prop where
  nodup : owners.Nodup
  empty : ∀ i ∈ owners, cells i = .empty

theorem held_nil (cells : ι → Cell α) : Held [] cells := ⟨List.nodup_nil, fun _ h => absurd h List.not_mem_nil⟩

variable {cells : ι → Cell α} {i j : ι} {l owners : List ι} {value : α}

theorem Held.perm {owners' : List ι} (h : Held owners cells) (hperm : owners'.Perm owners) :
    Held owners' cells := ⟨hperm.nodup_iff.2 h.nodup, fun i hi => h.empty i (hperm.mem_iff.1 hi)⟩

theorem Held.cons (h : Held owners cells) (hi : i ∉ owners) (hempty : cells i = .empty) : Held (i :: owners) cells := by
  refine ⟨List.nodup_cons.2 ⟨hi, h.nodup⟩, fun j hj => ?_⟩
  rcases List.mem_cons.1 hj with rfl | hj
  · exact hempty
  · exact h.empty j hj

variable [DecidableEq ι]

def send (cells : ι → Cell α) (i : ι) (value : α) : ι → Cell α := Function.update cells i (.sent value)

def drop (cells : ι → Cell α) (l : List ι) : ι → Cell α := fun i => if i ∈ l then .dropped else cells i

theorem send_self (cells : ι → Cell α) (i : ι) (value : α) : send cells i value i = .sent value := Function.update_self ..

theorem send_of_ne (h : j ≠ i) (value : α) : send cells i value j = cells j := Function.update_of_ne h ..

theorem send_eq_empty (h : send cells i value j = .empty) : j ≠ i ∧ cells j = .empty := by
  have hne : j ≠ i := by
    rintro rfl
    rw [send_self] at h
    cases h
  exact ⟨hne, (send_of_ne hne value).symm.trans h⟩

theorem send_eq_sent {value' : α} (h : send cells i value j = .sent value') :
    (j = i ∧ value' = value) ∨ cells j = .sent value' := by
  by_cases hj : j = i
  · subst hj
    rw [send_self] at h
    exact .inl ⟨rfl, (Cell.sent.inj h).symm⟩
  · exact .inr ((send_of_ne hj value).symm.trans h)

theorem drop_of_mem (h : i ∈ l) : drop cells l i = .dropped := if_pos h

theorem drop_of_not_mem (h : i ∉ l) : drop cells l i = cells i := if_neg h

theorem drop_of_ne (h : drop cells l i ≠ .dropped) : i ∉ l ∧ drop cells l i = cells i := by
  have hnot : i ∉ l := fun hmem => h (drop_of_mem hmem)
  exact ⟨hnot, drop_of_not_mem hnot⟩

theorem Held.send (h : Held (i :: owners) cells) (value : α) : Held owners (send cells i value) := by
  obtain ⟨hi, hnd⟩ := List.nodup_cons.1 h.nodup
  refine ⟨hnd, fun j hj => ?_⟩
  have hne : j ≠ i := fun heq => hi (heq ▸ hj)
  rw [send_of_ne hne]
  exact h.empty j (List.mem_cons_of_mem _ hj)

theorem Held.drop (h : Held (l ++ owners) cells) : Held owners (drop cells l) := by
  obtain ⟨-, hnd, hdisjoint⟩ := List.nodup_append'.1 h.nodup
  refine ⟨hnd, fun j hj => ?_⟩
  have hl : j ∉ l := fun hl => hdisjoint hl hj
  rw [drop_of_not_mem hl]
  exact h.empty j (List.mem_append_right _ hj)

end Oneshot

import Mathlib.Tactic

/-!
# A bounded history

`push n l x` appends `x` to a list that keeps its last entries: when `l` holds `n` of them, the oldest goes first.
-/

namespace Window
variable {α β : Type}

/-- What is left of the history when an entry is to be added: the oldest goes if the history is full. -/
def evict (n : Nat) (l : List α) : List α := if l.length = n then l.tail else l

def push (n : Nat) (l : List α) (x : α) : List α := evict n l ++ [x]

theorem evict_sublist (n : Nat) (l : List α) : (evict n l).Sublist l := by
  unfold evict
  split_ifs
  · exact l.tail_sublist
  · exact List.Sublist.refl l

variable {l : List α} {k n : Nat} {x : α}

theorem length_push_le (hn : 0 < n) (h : l.length ≤ n) (x : α) : (push n l x).length ≤ n := by
  unfold push evict
  split_ifs with hl
  · simp only [List.length_append, List.length_tail, List.length_singleton]
    omega
  · simp only [List.length_append, List.length_singleton]
    omega

theorem eq_or_mem_of_mem_push {y : α} (h : y ∈ push n l x) : y = x ∨ y ∈ l := by
  rcases List.mem_append.1 h with h | h
  · exact .inr ((evict_sublist n l).subset h)
  · exact .inl (List.mem_singleton.1 h)

theorem mem_push_self (n : Nat) (l : List α) (x : α) : x ∈ push n l x := by simp [push]

theorem nodup_map_push {f : α → β} (h : (l.map f).Nodup) (hx : f x ∉ (evict n l).map f) : ((push n l x).map f).Nodup := by
  rw [push, List.map_append, List.map_singleton]
  exact (h.sublist ((evict_sublist n l).map f)).append (List.nodup_singleton _) (by simpa using hx)

/-! ## Many entries -/

theorem foldl_push (hn : 0 < n) (xs : List α) (h : l.length ≤ n) :
    xs.foldl (push n) l = (l ++ xs).drop (l.length + xs.length - n) := by
  induction xs generalizing l with
  | nil =>
    rw [List.foldl_nil, List.append_nil, List.length_nil, Nat.add_zero, Nat.sub_eq_zero_of_le h, List.drop_zero]
  | cons x xs ih =>
    rw [List.foldl_cons, ih (length_push_le hn h x)]
    by_cases hl : l.length = n
    · obtain ⟨y, l, rfl⟩ : ∃ y l', l = y :: l' := List.exists_cons_of_length_pos (by omega)
      have hpush : push n (y :: l) x = l ++ [x] := by rw [push, evict, if_pos hl, List.tail_cons]
      rw [hpush, List.cons_append]
      simp only [List.length_append, List.length_cons, List.length_nil] at hl ⊢
      rw [show l.length + 1 + (xs.length + 1) - n = (l.length + (0 + 1) + xs.length - n) + 1 by omega,
        List.drop_succ_cons, List.append_assoc, List.singleton_append]
    · have hpush : push n l x = l ++ [x] := by rw [push, evict, if_neg hl]
      rw [hpush, List.append_assoc, List.singleton_append]
      simp only [List.length_append, List.length_cons, List.length_nil]
      congr 1
      omega

/-- `Recent k x l` : at most `k` entries of the history are newer than `x`. -/
def Recent (k : Nat) (x : α) (l : List α) : Prop := ∃ older newer, l = older ++ x :: newer ∧ newer.length ≤ k

theorem Recent.mem (h : Recent k x l) : x ∈ l := by
  obtain ⟨older, newer, rfl, -⟩ := h
  simp

theorem Recent.mono {j : Nat} (h : Recent j x l) (hjk : j ≤ k) : Recent k x l := by
  obtain ⟨older, newer, rfl, hn⟩ := h
  exact ⟨older, newer, rfl, hn.trans hjk⟩

theorem recent_push_self (n : Nat) (l : List α) (x : α) : Recent 0 x (push n l x) := ⟨evict n l, [], rfl, le_rfl⟩

theorem Recent.push (h : Recent k x l) (hk : k + 1 < n) (y : α) : Recent (k + 1) x (push n l y) := by
  obtain ⟨older, newer, rfl, hn⟩ := h
  unfold Window.push evict
  split_ifs with hl
  · cases older with
    | nil =>
      simp only [List.nil_append, List.length_cons] at hl
      omega
    | cons z older =>
      refine ⟨older, newer ++ [y], by simp, ?_⟩
      rw [List.length_append, List.length_singleton]
      omega
  · refine ⟨older, newer ++ [y], by simp, ?_⟩
    rw [List.length_append, List.length_singleton]
    omega

end Window

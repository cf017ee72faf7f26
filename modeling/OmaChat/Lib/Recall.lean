import Mathlib.Tactic

/-!
# A bounded memory of keys

A `Recall κ` is a set of keys with the queue of the times at which they came in, which forgets from the front of the queue.
`remember ttl capacity now k` forgets the keys at the front that are `ttl` old, says whether `k` is new, and takes it in; if
the memory is full, the oldest keys go first.

* `mem_seen` : the set and the queue hold the same keys, by the construction of the type;
* `remember_isNew`, `mem_remember` : what `remember` answers, and what the memory holds after it;
* `Law`, `Law.remember` : what holds of a whole history of calls, at any times. A key is new again only after it has grown
  `ttl` old or `capacity` other keys have come in.
-/

/-- A set of keys and the queue of their times. -/
structure Recall (κ : Type) [DecidableEq κ] where
  seen : Finset κ
  order : List (Nat × κ)
  nodup : (order.map Prod.snd).Nodup
  seen_eq : seen = (order.map Prod.snd).toFinset

namespace Recall
variable {κ : Type} [DecidableEq κ]

def empty : Recall κ := ⟨∅, [], List.nodup_nil, rfl⟩

theorem mem_seen {m : Recall κ} {k : κ} : k ∈ m.seen ↔ k ∈ m.order.map Prod.snd := by rw [m.seen_eq, List.mem_toFinset]

def forgetOldest (m : Recall κ) : Recall κ where
  seen := match m.order with
    | [] => m.seen
    | (_, oldest) :: _ => m.seen.erase oldest
  order := m.order.tail
  nodup := m.nodup.sublist ((List.tail_sublist _).map _)
  seen_eq := by
    obtain ⟨seen, order, nodup, rfl⟩ := m
    cases order with
    | nil => rfl
    | cons entry rest =>
      have hfresh : entry.2 ∉ rest.map Prod.snd := (List.nodup_cons.1 nodup).1
      show (List.toFinset (entry.2 :: rest.map Prod.snd)).erase entry.2 = (rest.map Prod.snd).toFinset
      rw [List.toFinset_cons, Finset.erase_insert (by simpa using hfresh)]

theorem order_forgetOldest (m : Recall κ) : m.forgetOldest.order = m.order.tail := rfl

theorem forgetOldest_subset (m : Recall κ) : m.forgetOldest.seen ⊆ m.seen := by
  intro k hk
  rw [mem_seen] at hk ⊢
  exact ((List.tail_sublist m.order).map _).subset hk

/-- The loop that forgets the front of the queue as long as a test of the memory and the front says so, for a number of
rounds. -/
def forgetRounds (test : Recall κ → Nat × κ → Bool) : Nat → Recall κ → Recall κ
  | 0, m => m
  | rounds + 1, m =>
    match m.order.head? with
    | some front => if test m front then forgetRounds test rounds m.forgetOldest else m
    | none => m

/-- Every round shortens the queue, so that there are no more rounds than entries. -/
def forgetWhile (test : Recall κ → Nat × κ → Bool) (m : Recall κ) : Recall κ := forgetRounds test m.order.length m

theorem forgetRounds_subset (test : Recall κ → Nat × κ → Bool) (rounds : Nat) (m : Recall κ) :
    (forgetRounds test rounds m).seen ⊆ m.seen := by
  induction rounds generalizing m with
  | zero => exact Finset.Subset.refl _
  | succ rounds ih =>
    unfold forgetRounds
    split
    · split_ifs
      · exact (ih m.forgetOldest).trans m.forgetOldest_subset
      · exact Finset.Subset.refl _
    · exact Finset.Subset.refl _

theorem forgetWhile_subset (test : Recall κ → Nat × κ → Bool) (m : Recall κ) : (m.forgetWhile test).seen ⊆ m.seen :=
  forgetRounds_subset test _ m

/-- Forget the keys at the front that are `ttl` old. -/
def expire (ttl now : Nat) : Recall κ → Recall κ := forgetWhile fun _ front => decide (ttl ≤ now - front.1)

def evict (capacity : Nat) : Recall κ → Recall κ := forgetWhile fun m _ => decide (capacity ≤ m.seen.card)

def insert (now : Nat) (k : κ) (m : Recall κ) (hk : k ∉ m.seen) : Recall κ where
  seen := Insert.insert k m.seen
  order := m.order ++ [(now, k)]
  nodup := by
    rw [List.map_append]
    exact m.nodup.append (List.nodup_singleton _) (by simpa [mem_seen] using hk)
  seen_eq := by
    ext x
    rw [Finset.mem_insert, mem_seen, List.mem_toFinset, List.map_append, List.mem_append]
    simp only [List.map_cons, List.map_nil, List.mem_singleton]
    exact or_comm

/-- Was the key new? And the memory after it. -/
def remember (ttl capacity now : Nat) (k : κ) (m : Recall κ) : Bool × Recall κ :=
  if hk : k ∈ (m.expire ttl now).seen then (false, m.expire ttl now)
  else (true, ((m.expire ttl now).evict capacity).insert now k fun h => hk (forgetWhile_subset _ _ h))

variable {ttl capacity now : Nat} {k x : κ} {m : Recall κ}

theorem remember_isNew : (m.remember ttl capacity now k).1 = true ↔ k ∉ (m.expire ttl now).seen := by
  unfold remember
  split_ifs with hk
  · simp [hk]
  · simp [hk]

theorem mem_remember (h : x ∈ (m.remember ttl capacity now k).2.seen) :
    x ∈ m.seen ∨ x = k ∧ (m.remember ttl capacity now k).1 = true := by
  unfold remember at h ⊢
  split_ifs at h ⊢ with hk
  · exact .inl (forgetWhile_subset _ _ h)
  · rcases Finset.mem_insert.1 h with rfl | h
    · exact .inr ⟨rfl, rfl⟩
    · exact .inl (forgetWhile_subset _ _ (forgetWhile_subset _ _ h))

theorem expire_of_recent (h : ∀ entry ∈ m.order.head?, now - entry.1 < ttl) : m.expire ttl now = m := by
  unfold expire forgetWhile
  cases hord : m.order with
  | nil => rfl
  | cons front rest =>
    have hfront : now - front.1 < ttl := h front (by rw [hord]; rfl)
    rw [List.length_cons, forgetRounds, hord]
    simp only [List.head?_cons]
    rw [if_neg (by simpa using hfront)]

/-! ## What forgetting takes away -/

theorem card_seen (m : Recall κ) : m.seen.card = m.order.length := by
  rw [m.seen_eq, List.toFinset_card_of_nodup m.nodup, List.length_map]

section
variable (test : Recall κ → Nat × κ → Bool) (rounds : Nat) (m : Recall κ)

theorem forgetRounds_gone :
    ∃ gone, m.order = gone ++ (forgetRounds test rounds m).order ∧
      ∀ before entry after, gone = before ++ entry :: after →
        ∃ m' : Recall κ, m'.order = entry :: (after ++ (forgetRounds test rounds m).order) ∧ test m' entry = true := by
  induction rounds generalizing m with
  | zero => exact ⟨[], rfl, fun before entry after h => absurd h (by simp)⟩
  | succ rounds ih =>
    unfold forgetRounds
    cases hord : m.order with
    | nil => exact ⟨[], by simp [hord], fun before entry after h => absurd h (by simp)⟩
    | cons front rest =>
      dsimp only [List.head?_cons]
      by_cases htest : test m front = true
      · rw [if_pos htest]
        obtain ⟨gone, hgone, hpassed⟩ := ih m.forgetOldest
        have hrest : rest = gone ++ (forgetRounds test rounds m.forgetOldest).order := by
          rw [← hgone, order_forgetOldest, hord, List.tail_cons]
        refine ⟨front :: gone, by rw [List.cons_append, ← hrest], ?_⟩
        intro before entry after h
        cases before with
        | nil =>
          obtain ⟨rfl, rfl⟩ := List.cons.inj h
          exact ⟨m, by rw [hord, ← hrest], htest⟩
        | cons first before => exact hpassed before entry after (List.cons.inj h).2
      · rw [if_neg htest]
        exact ⟨[], by simp [hord], fun before entry after h => absurd h (by simp)⟩

theorem forgetRounds_ends (h : m.order.length ≤ rounds) :
    ∀ front ∈ (forgetRounds test rounds m).order.head?, test (forgetRounds test rounds m) front = false := by
  induction rounds generalizing m with
  | zero =>
    intro front hfront
    rw [forgetRounds, List.length_eq_zero_iff.1 (Nat.le_zero.1 h)] at hfront
    cases hfront
  | succ rounds ih =>
    unfold forgetRounds
    cases hord : m.order.head? with
    | none =>
      intro front hfront
      rw [hord] at hfront
      cases hfront
    | some first =>
      dsimp only
      by_cases htest : test m first = true
      · rw [if_pos htest]
        apply ih
        rw [order_forgetOldest, List.length_tail]
        omega
      · rw [if_neg htest, hord]
        rintro front ⟨⟩
        exact Bool.not_eq_true _ ▸ htest

end

theorem expire_gone (m : Recall κ) (ttl now : Nat) :
    ∃ gone, m.order = gone ++ (m.expire ttl now).order ∧ ∀ entry ∈ gone, ttl ≤ now - entry.1 := by
  obtain ⟨gone, hord, hgone⟩ := forgetRounds_gone (fun _ front => decide (ttl ≤ now - front.1)) m.order.length m
  refine ⟨gone, hord, fun entry he => ?_⟩
  obtain ⟨before, after, hsplit⟩ := List.append_of_mem he
  obtain ⟨-, -, htest⟩ := hgone before entry after hsplit
  exact of_decide_eq_true htest

theorem evict_gone (m : Recall κ) (capacity : Nat) :
    ∃ gone, m.order = gone ++ (m.evict capacity).order ∧
      ∀ before entry after, gone = before ++ entry :: after →
        capacity ≤ (after ++ (m.evict capacity).order).length + 1 := by
  obtain ⟨gone, hord, hgone⟩ := forgetRounds_gone (fun m _ => decide (capacity ≤ m.seen.card)) m.order.length m
  refine ⟨gone, hord, fun before entry after hsplit => ?_⟩
  obtain ⟨m', hord', htest⟩ := hgone before entry after hsplit
  have hfull : capacity ≤ m'.seen.card := of_decide_eq_true htest
  rwa [card_seen, hord', List.length_cons] at hfull

theorem card_evict_lt (m : Recall κ) (hcap : 0 < capacity) : (m.evict capacity).seen.card < capacity := by
  have hends := forgetRounds_ends (fun m _ => decide (capacity ≤ m.seen.card)) m.order.length m (Nat.le_refl _)
  change ∀ front ∈ (m.evict capacity).order.head?, decide (capacity ≤ (m.evict capacity).seen.card) = false at hends
  cases hord : (m.evict capacity).order with
  | nil =>
    rw [card_seen, hord]
    exact hcap
  | cons front rest =>
    have hfront := hends front (by rw [hord]; rfl)
    exact Nat.lt_of_not_le (of_decide_eq_false hfront)

/-! ## Histories -/

/-- A call of `remember`, and whether it said that the key was new. -/
structure Call (κ : Type) where
  now : Nat
  key : κ
  isNew : Bool

def accepted (calls : List (Call κ)) : List κ := (calls.filter (·.isNew)).map (·.key)

variable {α : Type}

theorem accepted_append (calls calls' : List (Call α)) : accepted (calls ++ calls') = accepted calls ++ accepted calls' := by
  simp [accepted]

/-- The calls after `call` are a reason to forget its key: one of them found it `ttl` old, or `capacity` other keys came
in. -/
def Outlived (ttl capacity : Nat) (call : Call κ) (later : List (Call κ)) : Prop :=
  (∃ c ∈ later, call.now + ttl ≤ c.now) ∨ capacity ≤ ((accepted later).toFinset.erase call.key).card

theorem Outlived.cons {call : Call κ} {later : List (Call κ)} (h : Outlived ttl capacity call later) (c : Call κ) :
    Outlived ttl capacity call (c :: later) := by
  rcases h with ⟨c', hc', htime⟩ | hcard
  · exact .inl ⟨c', List.mem_cons_of_mem _ hc', htime⟩
  · refine .inr (Nat.le_trans hcard (Finset.card_le_card (Finset.erase_subset_erase _ ?_)))
    intro x hx
    rw [List.mem_toFinset] at hx ⊢
    rw [← List.singleton_append, accepted_append]
    exact List.mem_append_right _ hx

/-- The key of a call stands in the queue, and all keys behind it came in after it. -/
def Held (m : Recall κ) (call : Call κ) (later : List (Call κ)) : Prop :=
  call.key ∉ accepted later ∧
    ∃ front back, m.order = front ++ (call.now, call.key) :: back ∧ ∀ entry ∈ back, entry.2 ∈ accepted later

/-- What holds of a memory and the calls that led to it, the latest first. -/
structure Law (ttl capacity : Nat) (calls : List (Call κ)) (m : Recall κ) : Prop where
  bounded : m.seen.card ≤ capacity
  known : ∀ x ∈ m.seen, x ∈ accepted calls
  held : ∀ later call earlier, calls = later ++ call :: earlier → call.isNew = true →
    Held m call later ∨ Outlived ttl capacity call later
  duplicate : ∀ later call earlier, calls = later ++ call :: earlier → call.isNew = false → call.key ∈ accepted earlier
  again : ∀ later call between first earlier, calls = later ++ call :: (between ++ first :: earlier) →
    first.isNew = true → call.isNew = true → call.key = first.key → Outlived ttl capacity first (call :: between)

theorem Law.empty (ttl capacity : Nat) : Law ttl capacity [] (empty : Recall κ) where
  bounded := Nat.zero_le _
  known := fun x hx => absurd hx (Finset.notMem_empty x)
  held := fun later call earlier h => absurd h (by simp)
  duplicate := fun later call earlier h => absurd h (by simp)
  again := fun later call between first earlier h => absurd h (by simp)

theorem gone_or_stays {gone rest front back : List α} {entry : α} (h : gone ++ rest = front ++ entry :: back) :
    (∃ after, gone = front ++ entry :: after ∧ back = after ++ rest) ∨ ∃ front', rest = front' ++ entry :: back := by
  obtain ⟨a, hfront, hrest⟩ | ⟨c, hgone, hback⟩ := List.append_eq_append_iff.1 h
  · exact .inr ⟨a, hrest⟩
  · cases c with
    | nil => exact .inr ⟨[], hback.symm⟩
    | cons e c =>
      obtain ⟨rfl, rfl⟩ := List.cons.inj hback
      exact .inl ⟨c, hgone, rfl⟩

variable {calls later : List (Call κ)} {call : Call κ}

/-- After the old keys have expired, a key is held as before, or the time of this call is a reason to forget it. -/
theorem Held.expire (httl : 0 < ttl) (h : Held m call later) (now : Nat) :
    Held (m.expire ttl now) call later ∨ call.now + ttl ≤ now := by
  obtain ⟨hnew, front, back, hord, hback⟩ := h
  obtain ⟨gone, hgone, hold⟩ := expire_gone m ttl now
  rw [hord] at hgone
  rcases gone_or_stays hgone.symm with ⟨after, hsplit, -⟩ | ⟨front', hrest⟩
  · right
    have hage := hold (call.now, call.key) (by rw [hsplit]; simp)
    dsimp only at hage
    omega
  · exact .inl ⟨hnew, front', back, hrest, hback⟩

theorem Held.mem_seen (h : Held m call later) : call.key ∈ m.seen := by
  obtain ⟨-, front, back, hord, -⟩ := h
  rw [Recall.mem_seen, hord]
  simp

theorem Held.insert (h : Held m call later) (hk : k ∉ m.seen) (now : Nat)
    (hk' : k ∉ (m.evict capacity).seen) :
    Held ((m.evict capacity).insert now k hk') call (⟨now, k, true⟩ :: later) ∨
      Outlived ttl capacity call (⟨now, k, true⟩ :: later) := by
  have hne : call.key ≠ k := fun heq => hk (heq ▸ h.mem_seen)
  obtain ⟨hnew, front, back, hord, hback⟩ := h
  have hacc : accepted (⟨now, k, true⟩ :: later) = k :: accepted later := rfl
  obtain ⟨gone, hgone, hfull⟩ := evict_gone m capacity
  rw [hord] at hgone
  rcases gone_or_stays hgone.symm with ⟨after, hsplit, hrest⟩ | ⟨front', hrest⟩
  · -- it was evicted: the keys behind it and the new one came in after it
    right
    right
    have hcap := hfull front (call.now, call.key) after hsplit
    rw [← hrest] at hcap
    have hnd := m.nodup
    rw [hord, List.map_append, List.map_cons] at hnd
    have hbackNodup := (List.nodup_cons.1 (List.nodup_append.1 hnd).2.1)
    have hkback : k ∉ back.map Prod.snd := by
      intro hmem
      apply hk
      rw [Recall.mem_seen, hord]
      simp only [List.map_append, List.map_cons, List.mem_append, List.mem_cons]
      exact .inr (.inr hmem)
    have hsubset : (k :: back.map Prod.snd).toFinset ⊆ (accepted (⟨now, k, true⟩ :: later)).toFinset.erase call.key := by
      intro x hx
      rw [List.mem_toFinset, List.mem_cons] at hx
      rw [Finset.mem_erase, List.mem_toFinset, hacc, List.mem_cons]
      rcases hx with rfl | hx
      · exact ⟨hne.symm, .inl rfl⟩
      · obtain ⟨entry, he, rfl⟩ := List.mem_map.1 hx
        exact ⟨fun heq => hbackNodup.1 (heq ▸ hx), .inr (hback entry he)⟩
    have hcard := Finset.card_le_card hsubset
    rw [List.toFinset_card_of_nodup (List.nodup_cons.2 ⟨hkback, hbackNodup.2⟩), List.length_cons, List.length_map] at hcard
    omega
  · left
    refine ⟨?_, front', back ++ [(now, k)], ?_, ?_⟩
    · rw [hacc, List.mem_cons, not_or]
      exact ⟨hne, hnew⟩
    · show (m.evict capacity).order ++ [(now, k)] = _
      rw [hrest, List.append_assoc, List.cons_append]
    · intro entry he
      rw [hacc, List.mem_cons]
      rcases List.mem_append.1 he with he | he
      · exact .inr (hback entry he)
      · rw [List.mem_singleton.1 he]
        exact .inl rfl

theorem Held.remember (httl : 0 < ttl) (h : Held m call later) (now : Nat) (k : κ) :
    Held (m.remember ttl capacity now k).2 call (⟨now, k, (m.remember ttl capacity now k).1⟩ :: later) ∨
      Outlived ttl capacity call (⟨now, k, (m.remember ttl capacity now k).1⟩ :: later) := by
  rcases h.expire httl now with hheld | htime
  · unfold Recall.remember
    split_ifs with hk
    · exact .inl hheld
    · exact hheld.insert hk now fun hmem => hk (forgetWhile_subset _ _ hmem)
  · exact .inr (.inl ⟨_, List.mem_cons_self, htime⟩)

/-- **A call keeps the law.** -/
theorem Law.remember (httl : 0 < ttl) (hcap : 0 < capacity) (h : Law ttl capacity calls m) (now : Nat) (k : κ) :
    Law ttl capacity (⟨now, k, (m.remember ttl capacity now k).1⟩ :: calls) (m.remember ttl capacity now k).2 where
  bounded := by
    unfold Recall.remember
    split_ifs with hk
    · exact Nat.le_trans (Finset.card_le_card (forgetWhile_subset _ _)) h.bounded
    · show (Insert.insert k ((m.expire ttl now).evict capacity).seen).card ≤ capacity
      have hroom := card_evict_lt (m.expire ttl now) hcap
      have hcard := Finset.card_insert_le k ((m.expire ttl now).evict capacity).seen
      omega
  known := by
    intro x hx
    rw [← List.singleton_append, accepted_append, List.mem_append]
    rcases mem_remember hx with hx | ⟨rfl, hnew⟩
    · exact .inr (h.known x hx)
    · left
      rw [hnew]
      exact List.mem_singleton_self _
  held := by
    intro later call earlier hsplit hnew
    cases later with
    | nil =>
      obtain ⟨rfl, -⟩ := List.cons.inj hsplit
      left
      unfold Recall.remember at hnew ⊢
      split_ifs at hnew ⊢ with hk
      exact ⟨List.not_mem_nil, _, [], rfl, fun entry he => absurd he List.not_mem_nil⟩
    | cons c later =>
      obtain ⟨rfl, rfl⟩ := List.cons.inj hsplit
      rcases h.held later call earlier rfl hnew with hheld | hout
      · exact hheld.remember httl now k
      · exact .inr (hout.cons _)
  duplicate := by
    intro later call earlier hsplit hold
    cases later with
    | nil =>
      obtain ⟨rfl, rfl⟩ := List.cons.inj hsplit
      have hmem : k ∈ (m.expire ttl now).seen := by
        by_contra hk
        rw [remember_isNew.2 hk] at hold
        cases hold
      exact h.known k (forgetWhile_subset _ _ hmem)
    | cons c later =>
      obtain ⟨-, rfl⟩ := List.cons.inj hsplit
      exact h.duplicate later call earlier rfl hold
  again := by
    intro later call between first earlier hsplit hf hcall hkey
    cases later with
    | nil =>
      obtain ⟨rfl, rfl⟩ := List.cons.inj hsplit
      rcases h.held between first earlier rfl hf with hheld | hout
      · rcases hheld.remember httl now k with hheld' | hout
        · -- its key is new, so that it was not held any more
          have hmem : first.key ∈ accepted (⟨now, k, (m.remember ttl capacity now k).1⟩ :: between) := by
            rw [show (m.remember ttl capacity now k).1 = true from hcall, ← hkey]
            exact List.mem_cons_self
          exact absurd hmem hheld'.1
        · exact hout
      · exact hout.cons _
    | cons c later =>
      obtain ⟨-, rfl⟩ := List.cons.inj hsplit
      exact h.again later call between first earlier rfl hf hcall hkey

end Recall

import OmaChat.Lib.Bytes

/-!
# Computations on machine words

A `Compute ε α` is a computation of a 64-bit program that was built without overflow checks: an addition that does not fit
wraps around and is noted, a slice out of bounds panics, and an error ends the computation as `?` does.

* `Compute.Safe` : no step overflowed and nothing panicked, so that there is a result;
* `safe_bind` takes a sequence apart;
* `Octets` : bytes in memory, of which there are fewer than `2 ^ 63`; `upto`, `since` and `range` are its slices, and
  `Extends` says that more bytes have come in;
* `find` : the first occurrence of a pattern. Bytes that come in later do not move it (`findFrom_append`, `findFrom_take`).
-/

namespace Words

variable {ε : Type}

inductive End (ε α : Type) where
  | ok (a : α)
  | error (e : ε)
  | panic
  deriving DecidableEq

/-- Whether an arithmetic step overflowed, and the end. -/
structure Compute (ε α : Type) where
  overflowed : Bool
  result : End ε α
  deriving DecidableEq

namespace Compute
variable {α β : Type}

/-- Go on with the value; what was noted stays noted. -/
protected def bind (m : Compute ε α) (f : α → Compute ε β) : Compute ε β :=
  match m.result with
  | .ok a => ⟨m.overflowed || (f a).overflowed, (f a).result⟩
  | .error e => ⟨m.overflowed, .error e⟩
  | .panic => ⟨m.overflowed, .panic⟩

instance : Monad (Compute ε) where
  pure a := ⟨false, .ok a⟩
  bind := Compute.bind

def throw (e : ε) : Compute ε α := ⟨false, .error e⟩

def panicked : Compute ε α := ⟨false, .panic⟩

def ofOption (e : ε) : Option α → Compute ε α
  | some a => pure a
  | none => throw e

def ofExcept : Except ε α → Compute ε α
  | .ok a => pure a
  | .error e => throw e

/-- `a + b` on `usize` -/
def add (a b : Nat) : Compute ε Nat := ⟨decide (2 ^ 64 ≤ a + b), .ok ((a + b) % 2 ^ 64)⟩

variable {m : Compute ε α} {f : α → Compute ε β} {a b : Nat}

theorem add_eq (h : a + b < 2 ^ 64) : (add a b : Compute ε Nat) = pure (a + b) := by
  unfold add
  rw [Nat.mod_eq_of_lt h, decide_eq_false (by omega)]
  rfl

def Safe (m : Compute ε α) : Prop := m.overflowed = false ∧ m.result ≠ .panic

instance [DecidableEq ε] [DecidableEq α] (m : Compute ε α) : Decidable m.Safe := inferInstanceAs (Decidable (_ ∧ _))

@[simp] theorem safe_pure (a : α) : (pure a : Compute ε α).Safe := by
  refine ⟨rfl, ?_⟩
  intro h
  cases h

@[simp] theorem safe_throw (e : ε) : (throw e : Compute ε α).Safe := by
  refine ⟨rfl, ?_⟩
  intro h
  cases h

@[simp] theorem pure_bind' (a : α) (f : α → Compute ε β) : (pure a : Compute ε α) >>= f = f a := by
  show Compute.bind ⟨false, .ok a⟩ f = f a
  simp [Compute.bind]

@[simp] theorem throw_bind (e : ε) (f : α → Compute ε β) : (throw e : Compute ε α) >>= f = throw e := rfl

theorem safe_bind : (m >>= f).Safe ↔ m.Safe ∧ ∀ a, m.result = .ok a → (f a).Safe := by
  show (Compute.bind m f).Safe ↔ _
  rcases m with ⟨overflowed, result⟩
  cases result <;> simp [Compute.bind, Safe, and_assoc]

theorem safe_bind_iff_left (hf : ∀ a, (f a).Safe) : (m >>= f).Safe ↔ m.Safe := by
  rw [safe_bind]
  exact and_iff_left fun a _ => hf a

theorem result_bind (m : Compute ε α) (f : α → Compute ε β) :
    (m >>= f).result = match m.result with
      | .ok a => (f a).result
      | .error e => .error e
      | .panic => .panic := by
  show (Compute.bind m f).result = _
  rcases m with ⟨overflowed, result⟩
  cases result <;> rfl

theorem result_bind_eq_ok {b : β} : (m >>= f).result = .ok b ↔ ∃ a, m.result = .ok a ∧ (f a).result = .ok b := by
  show (Compute.bind m f).result = _ ↔ _
  rcases m with ⟨overflowed, result⟩
  cases result <;> simp [Compute.bind]

theorem not_safe_add_bind (h : 2 ^ 64 ≤ a + b) (f : Nat → Compute ε β) : ¬ (add a b >>= f).Safe := by
  rw [safe_bind]
  rintro ⟨hadd, -⟩
  have hnoted : (add a b : Compute ε Nat).overflowed = true := decide_eq_true h
  have hclear := hadd.1
  rw [hnoted] at hclear
  cases hclear

end Compute

/-! ## Bytes in memory -/

/-- A `&[u8]`, whose length fits in an `isize`. -/
def Octets : Type := { l : List UInt8 // l.length < 2 ^ 63 }

namespace Octets
instance : DecidableEq Octets := inferInstanceAs (DecidableEq { l : List UInt8 // l.length < 2 ^ 63 })

def length (b : Octets) : Nat := b.val.length

/-- The bytes after the first `n`. -/
def drop (b : Octets) (n : Nat) : Octets :=
  ⟨b.val.drop n, by have h := b.property; have hd := List.length_drop (i := n) (l := b.val); omega⟩

/-- The first `n` bytes. -/
def take (b : Octets) (n : Nat) : Octets :=
  ⟨b.val.take n, by have h := b.property; have ht := List.length_take (i := n) (l := b.val); omega⟩

/-- `Vec::extend_from_slice`, unless the bytes do not fit in memory. -/
def push (b : Octets) (l : List UInt8) : Option Octets :=
  if h : (b.val ++ l).length < 2 ^ 63 then some ⟨b.val ++ l, h⟩ else none

def Extends (b longer : Octets) : Prop := ∃ more, longer.val = b.val ++ more

variable {i j n : Nat} {b longer : Octets} {l needle : List UInt8}

theorem Extends.length_le (h : b.Extends longer) : b.length ≤ longer.length := by
  obtain ⟨more, hmore⟩ := h
  unfold length
  rw [hmore, List.length_append]
  omega

theorem Extends.drop (h : b.Extends longer) (hn : n ≤ b.length) : (b.drop n).Extends (longer.drop n) := by
  obtain ⟨more, hmore⟩ := h
  refine ⟨more, ?_⟩
  show longer.val.drop n = b.val.drop n ++ more
  rw [hmore]
  exact List.drop_append_of_le_length hn

theorem Extends.take (h : b.Extends longer) (hn : n ≤ b.length) : longer.take n = b.take n := by
  obtain ⟨more, hmore⟩ := h
  apply Subtype.ext
  show longer.val.take n = b.val.take n
  rw [hmore]
  exact List.take_append_of_le_length hn

theorem length_lt (b : Octets) : b.length < 2 ^ 63 := b.property

@[simp] theorem length_drop (b : Octets) (n : Nat) : (b.drop n).length = b.length - n := List.length_drop

@[simp] theorem length_take (b : Octets) (n : Nat) : (b.take n).length = min n b.length := List.length_take

/-- `&b[i..j]` -/
def range (b : Octets) (i j : Nat) : Compute ε Octets :=
  if i ≤ j ∧ j ≤ b.length then pure ((b.drop i).take (j - i)) else .panicked

/-- `&b[..j]` -/
def upto (b : Octets) (j : Nat) : Compute ε Octets := if j ≤ b.length then pure (b.take j) else .panicked

/-- `&b[i..]` -/
def since (b : Octets) (i : Nat) : Compute ε Octets := if i ≤ b.length then pure (b.drop i) else .panicked

theorem range_eq (hij : i ≤ j) (hj : j ≤ b.length) :
    (b.range i j : Compute ε Octets) = pure ((b.drop i).take (j - i)) := if_pos ⟨hij, hj⟩

theorem upto_eq (hj : j ≤ b.length) : (b.upto j : Compute ε Octets) = pure (b.take j) := if_pos hj

theorem since_eq (hi : i ≤ b.length) : (b.since i : Compute ε Octets) = pure (b.drop i) := if_pos hi

def findFrom (needle : List UInt8) : List UInt8 → Option Nat
  | [] => none
  | b :: rest => if needle.isPrefixOf (b :: rest) then some 0 else (findFrom needle rest).map (· + 1)

/-- `haystack.windows(needle.len()).position(|window| window == needle)` for a pattern with at least one byte. -/
def find (haystack : Octets) (needle : List UInt8) : Option Nat := findFrom needle haystack.val

theorem findFrom_le (h : findFrom needle l = some i) : i + needle.length ≤ l.length := by
  induction l generalizing i with
  | nil => cases h
  | cons b rest ih =>
    unfold findFrom at h
    split at h
    · next hst =>
        replace hst := List.isPrefixOf_iff_prefix.1 hst
        have hle := hst.length_le
        cases h
        omega
    · rw [Option.map_eq_some_iff] at h
      obtain ⟨k, hk, rfl⟩ := h
      have hle := ih hk
      rw [List.length_cons]
      omega

theorem findFrom_eq_some_iff (hneedle : needle ≠ []) :
    findFrom needle l = some i ↔ needle <+: l.drop i ∧ ∀ j < i, ¬ needle <+: l.drop j := by
  induction l generalizing i with
  | nil => simp [findFrom, hneedle]
  | cons b l ih =>
    unfold findFrom
    by_cases hst : needle <+: b :: l
    · have hif : needle.isPrefixOf (b :: l) = true := List.isPrefixOf_iff_prefix.2 hst
      rw [if_pos hif]
      cases i with
      | zero => simp [hst]
      | succ i =>
        refine iff_of_false (by simp) fun h => ?_
        exact h.2 0 (Nat.succ_pos i) hst
    · rw [if_neg (mt List.isPrefixOf_iff_prefix.1 hst)]
      cases i with
      | zero => simp [hst]
      | succ i =>
        rw [Option.map_eq_some_iff]
        simp only [Nat.add_right_cancel_iff, exists_eq_right, List.drop_succ_cons, ih]
        refine and_congr_right fun _ => ⟨fun h j hj => ?_, fun h j hj => h (j + 1) (Nat.succ_lt_succ hj)⟩
        cases j with
        | zero => exact hst
        | succ j => exact h j (Nat.lt_of_succ_lt_succ hj)

theorem findFrom_append (hneedle : needle ≠ []) (h : findFrom needle l = some i)
    (rest : List UInt8) : findFrom needle (l ++ rest) = some i := by
  have hle := findFrom_le h
  rw [findFrom_eq_some_iff hneedle] at h ⊢
  refine ⟨?_, fun j hj hl => h.2 j hj ?_⟩
  · rw [List.drop_append_of_le_length (by omega)]
    exact h.1.trans (List.prefix_append _ rest)
  · rw [List.drop_append_of_le_length (by omega)] at hl
    apply List.prefix_of_prefix_length_le hl (List.prefix_append _ rest)
    rw [List.length_drop]
    omega

theorem findFrom_take (hneedle : needle ≠ []) (h : findFrom needle l = some i) (n : Nat) :
    findFrom needle (l.take n) = if i + needle.length ≤ n then some i else none := by
  split_ifs with hle
  · rw [findFrom_eq_some_iff hneedle] at h ⊢
    simp only [List.drop_take, List.prefix_take_iff]
    exact ⟨⟨h.1, by omega⟩, fun j hj hl => h.2 j hj hl.1⟩
  · cases hfound : findFrom needle (l.take n) with
    | none => rfl
    | some k =>
      have hwhole := findFrom_append hneedle hfound (l.drop n)
      rw [List.take_append_drop, h] at hwhole
      cases hwhole
      have hend := findFrom_le hfound
      have hlen := List.length_take_le n l
      omega

theorem findFrom_take_of_none (hneedle : needle ≠ []) (h : findFrom needle l = none) (n : Nat) :
    findFrom needle (l.take n) = none := by
  cases hfound : findFrom needle (l.take n) with
  | none => rfl
  | some k =>
    have hwhole := findFrom_append hneedle hfound (l.drop n)
    rw [List.take_append_drop, h] at hwhole
    cases hwhole

theorem find_le {haystack : Octets} (h : haystack.find needle = some i) : i + needle.length ≤ haystack.length := findFrom_le h

theorem Extends.find (h : b.Extends longer) (hneedle : needle ≠ [])
    (hfind : b.find needle = some i) : longer.find needle = some i := by
  obtain ⟨more, hmore⟩ := h
  unfold Octets.find
  rw [hmore]
  exact findFrom_append hneedle hfind more

end Octets

end Words

import Mathlib.Tactic

/-!
# Byte strings and machine words

* `Bytes n` : byte strings of a fixed length, the length part of the value;
* `utf8`, `hexEncode`, `hexDecode`, `beBytes` : text, hexadecimal and big-endian encodings;
* `beNat` : the number that big-endian bytes stand for (`beNat_beBytes`);
* `charBytes` : the number of bytes of a text, character by character;
* `satAdd`, `satSub` : addition and subtraction of 64-bit words that stop at the ends of their range;
* `checkedAdd`, `checkedSub`, `checkedDiv`, `checkedMul`, `nextPowerOfTwo` : arithmetic that fails outside of it;
* `isControl`, `isWhitespace`, `trim` : the Unicode classes of characters that text checks use.
-/

namespace Wire

variable {n : Nat}

/-- Byte strings of length `n`. -/
def Bytes (n : Nat) : Type := { l : List UInt8 // l.length = n }

namespace Bytes

instance (n : Nat) : DecidableEq (Bytes n) := inferInstanceAs (DecidableEq { _l : List UInt8 // _ })

/-- A byte string as one of length `n`, if it has that length. -/
def ofList? (n : Nat) (l : List UInt8) : Option (Bytes n) := if h : l.length = n then some ⟨l, h⟩ else none

/-- The byte `b`, `n` times. -/
def replicate (n : Nat) (b : UInt8) : Bytes n := ⟨List.replicate n b, List.length_replicate⟩

/-- The bytes from `start` on, `len` of them. -/
def slice {n : Nat} (b : Bytes n) (start len : Nat) (h : start + len ≤ n) : Bytes len :=
  ⟨(b.val.drop start).take len, by rw [List.length_take, List.length_drop, b.property]; omega⟩

@[simp] theorem ofList?_val (b : Bytes n) : ofList? n b.val = some b := dif_pos b.property

theorem append_inj {a b : Bytes n} {x y : List UInt8} (h : a.val ++ x = b.val ++ y) : a = b ∧ x = y := by
  obtain ⟨hab, hxy⟩ := List.append_inj h (a.property.trans b.property.symm)
  exact ⟨Subtype.ext hab, hxy⟩

end Bytes

theorem append_sep_inj {α : Type} {sep : α} {a b x y : List α} (ha : sep ∉ a) (hb : sep ∉ b)
    (h : a ++ [sep] ++ x = b ++ [sep] ++ y) : a = b ∧ x = y := by
  induction a generalizing b with
  | nil =>
    cases b with
    | nil => exact ⟨rfl, (List.cons.inj h).2⟩
    | cons c b =>
      have hc : sep = c := (List.cons.inj h).1
      exact absurd (List.mem_cons.2 (.inl hc)) hb
  | cons c a ih =>
    cases b with
    | nil =>
      have hc : c = sep := (List.cons.inj h).1
      exact absurd (List.mem_cons.2 (.inl hc.symm)) ha
    | cons d b =>
      obtain ⟨hcd, hrest⟩ := List.cons.inj h
      have ha' : sep ∉ a := fun hmem => ha (List.mem_cons_of_mem _ hmem)
      have hb' : sep ∉ b := fun hmem => hb (List.mem_cons_of_mem _ hmem)
      obtain ⟨hab, hxy⟩ := ih ha' hb' hrest
      exact ⟨by rw [hcd, hab], hxy⟩

def utf8 (s : String) : List UInt8 := s.toUTF8.data.toList

def fromUtf8 (bytes : List UInt8) : Option String := String.fromUTF8? ⟨bytes.toArray⟩

/-- The last `n` base-256 digits of `x`, most significant first. -/
def beBytes (n x : Nat) : List UInt8 := ((List.range n).map fun i => UInt8.ofNat (x / 256 ^ i)).reverse

variable {x : Nat} {s : String} {l : List UInt8} {c : Char} {a b : UInt64}

theorem utf8_inj {t : String} (h : utf8 s = utf8 t) : s = t := by
  apply String.toByteArray_inj.1
  apply ByteArray.ext
  exact Array.toList_inj.1 h

theorem fromUtf8_utf8 (s : String) : fromUtf8 (utf8 s) = some s := by
  have hb : (⟨(utf8 s).toArray⟩ : ByteArray) = s.toByteArray := rfl
  rw [fromUtf8, hb, String.fromUTF8?, dif_pos s.isValidUTF8]
  rfl

/-! ## Big-endian numbers -/

/-- The number that base-256 digits stand for, most significant first. -/
def beNat (l : List UInt8) : Nat := l.foldl (fun n b => n * 256 + b.toNat) 0

theorem length_beBytes (n x : Nat) : (beBytes n x).length = n := by simp [beBytes]

theorem beBytes_succ (n x : Nat) : beBytes (n + 1) x = beBytes n (x / 256) ++ [UInt8.ofNat x] := by
  have hdiv (i : Nat) : x / 256 ^ (i + 1) = x / 256 / 256 ^ i := by rw [Nat.pow_succ', Nat.div_div_eq_div_mul]
  simp only [beBytes, List.range_succ_eq_map, List.map_cons, List.map_map, List.reverse_cons, Nat.pow_zero, Nat.div_one]
  simp [hdiv]

theorem beNat_concat (l : List UInt8) (b : UInt8) : beNat (l ++ [b]) = beNat l * 256 + b.toNat := by
  simp [beNat]

theorem beNat_beBytes (h : x < 256 ^ n) : beNat (beBytes n x) = x := by
  induction n generalizing x with
  | zero =>
    rw [Nat.pow_zero] at h
    have hx : x = 0 := by omega
    rw [hx]
    rfl
  | succ n ih =>
    have hlt : x / 256 < 256 ^ n := by
      rw [Nat.pow_succ] at h
      exact Nat.div_lt_of_lt_mul (by omega)
    have hmod : (UInt8.ofNat x).toNat = x % 256 := by simp
    rw [beBytes_succ, beNat_concat, ih hlt, hmod]
    omega

theorem beNat_lt (l : List UInt8) : beNat l < 256 ^ l.length := by
  induction l using List.reverseRecOn with
  | nil => decide
  | append_singleton l b ih =>
    have hb := b.toNat_lt
    rw [beNat_concat, List.length_append, List.length_singleton, pow_succ]
    omega

theorem beBytes_beNat (l : List UInt8) : beBytes l.length (beNat l) = l := by
  induction l using List.reverseRecOn with
  | nil => rfl
  | append_singleton l b ih =>
    have hb := b.toNat_lt
    have hdiv : beNat (l ++ [b]) / 256 = beNat l := by
      rw [beNat_concat]
      omega
    have hlast : UInt8.ofNat (beNat (l ++ [b])) = b := by
      rw [← UInt8.toNat_inj, UInt8.toNat_ofNat', beNat_concat]
      omega
    rw [List.length_append, List.length_singleton, beBytes_succ, hdiv, hlast, ih]

theorem beBytes_inj {y : Nat} (hx : x < 256 ^ n) (hy : y < 256 ^ n) (h : beBytes n x = beBytes n y) : x = y := by
  rw [← beNat_beBytes hx, h, beNat_beBytes hy]

/-! ## Sizes of texts -/

def charBytes (l : List Char) : Nat := (l.map Char.utf8Size).sum

@[simp] theorem charBytes_nil : charBytes [] = 0 := rfl

@[simp] theorem charBytes_cons (c : Char) (l : List Char) : charBytes (c :: l) = c.utf8Size + charBytes l := by
  simp [charBytes]

@[simp] theorem charBytes_append (l l' : List Char) : charBytes (l ++ l') = charBytes l + charBytes l' := by
  simp [charBytes]

theorem charBytes_replicate (n : Nat) (c : Char) : charBytes (List.replicate n c) = n * c.utf8Size := by
  simp [charBytes]

theorem utf8ByteSize_ofList (l : List Char) : (String.ofList l).utf8ByteSize = charBytes l := by
  induction l with
  | nil => rfl
  | cons c l ih =>
    rw [String.ofList_cons, String.utf8ByteSize_append, ih, charBytes_cons]
    simp

theorem charBytes_toList (s : String) : charBytes s.toList = s.utf8ByteSize := by
  rw [← utf8ByteSize_ofList, String.ofList_toList]

theorem utf8Size_of_ascii (h : c.toNat < 128) : c.utf8Size = 1 := by
  have hv : c.val.toNat ≤ 127 := Nat.le_of_lt_succ h
  exact if_pos (UInt32.le_iff_toNat_le.2 hv)

theorem length_utf8 (s : String) : (utf8 s).length = s.utf8ByteSize := by
  rw [utf8, Array.length_toList]
  rfl

theorem utf8_ofList (l : List Char) : utf8 (String.ofList l) = l.flatMap String.utf8EncodeChar := by
  rw [utf8]
  simp [String.toUTF8, List.utf8Encode]

/-! ## Hexadecimal -/

def hexDigit (n : Nat) : Char := if n < 10 then Char.ofNat (48 + n) else Char.ofNat (87 + n)

/-- The value of a hexadecimal digit, in either case. -/
def hexValue (c : Char) : Option Nat :=
  if '0' ≤ c ∧ c ≤ '9' then some (c.toNat - 48)
  else if 'a' ≤ c ∧ c ≤ 'f' then some (c.toNat - 87)
  else if 'A' ≤ c ∧ c ≤ 'F' then some (c.toNat - 55)
  else none

def hexEncode (l : List UInt8) : String :=
  String.ofList (l.flatMap fun b => [hexDigit (b.toNat / 16), hexDigit (b.toNat % 16)])

/-- The bytes a list of digits stands for; none if a character is not a digit or the last one has no partner. -/
def hexDecodeChars : List Char → Option (List UInt8)
  | [] => some []
  | [_] => none
  | hi :: lo :: rest => do
    let h ← hexValue hi
    let l ← hexValue lo
    let bytes ← hexDecodeChars rest
    return UInt8.ofNat (16 * h + l) :: bytes

def hexDecode (s : String) : Option (List UInt8) := hexDecodeChars s.toList

theorem utf8Size_hexDigit (h : n < 16) : (hexDigit n).utf8Size = 1 := by
  interval_cases n <;> rfl

theorem hexValue_hexDigit (h : n < 16) : hexValue (hexDigit n) = some n := by
  interval_cases n <;> decide

theorem hexDecode_hexEncode (l : List UInt8) : hexDecode (hexEncode l) = some l := by
  rw [hexDecode, hexEncode, String.toList_ofList]
  induction l with
  | nil => rfl
  | cons b l ih =>
    have hb : b.toNat < 256 := b.toNat_lt
    have hbyte : UInt8.ofNat (16 * (b.toNat / 16) + b.toNat % 16) = b := by
      rw [Nat.div_add_mod, UInt8.ofNat_toNat]
    simp only [List.flatMap_cons, List.cons_append, List.nil_append, hexDecodeChars, ih,
      hexValue_hexDigit (show b.toNat / 16 < 16 by omega), hexValue_hexDigit (show b.toNat % 16 < 16 by omega),
      Option.bind_eq_bind, Option.bind_some, hbyte]
    rfl

theorem hexEncode_of_hexDecode (hs : ∀ c ∈ s.toList, ∃ n < 16, c = hexDigit n)
    (h : hexDecode s = some l) : hexEncode l = s := by
  rw [hexEncode, ← String.ofList_toList (s := s)]
  congr 1
  unfold hexDecode at h
  generalize s.toList = chars at hs h
  induction chars using hexDecodeChars.induct generalizing l with
  | case1 =>
    cases h
    rfl
  | case2 => cases h
  | case3 hi lo rest ih =>
    obtain ⟨m, hm, rfl⟩ := hs hi List.mem_cons_self
    obtain ⟨n, hn, rfl⟩ := hs lo (List.mem_cons_of_mem _ List.mem_cons_self)
    simp only [hexDecodeChars, hexValue_hexDigit hm, hexValue_hexDigit hn, Option.bind_eq_bind, Option.bind_some,
      Option.bind_eq_some_iff] at h
    obtain ⟨bytes, hrest, hl⟩ := h
    cases hl
    have hbyte : (UInt8.ofNat (16 * m + n)).toNat = 16 * m + n := UInt8.toNat_ofNat_of_lt' (show 16 * m + n < 256 by omega)
    have hdiv : (16 * m + n) / 16 = m := by omega
    have hmod : (16 * m + n) % 16 = n := by omega
    rw [List.flatMap_cons, hbyte, hdiv, hmod,
      ih (fun c hc => hs c (List.mem_cons_of_mem _ (List.mem_cons_of_mem _ hc))) hrest]
    rfl

theorem mem_hexEncode (h : c ∈ (hexEncode l).toList) : ∃ n < 16, c = hexDigit n := by
  rw [hexEncode, String.toList_ofList] at h
  simp only [List.mem_flatMap, List.mem_cons, List.not_mem_nil, or_false] at h
  obtain ⟨x, -, hc⟩ := h
  have hx : x.toNat < 256 := x.toNat_lt
  rcases hc with rfl | rfl
  · exact ⟨_, by omega, rfl⟩
  · exact ⟨_, by omega, rfl⟩

theorem utf8ByteSize_hexEncode (l : List UInt8) : (hexEncode l).utf8ByteSize = 2 * l.length := by
  rw [hexEncode, utf8ByteSize_ofList]
  induction l with
  | nil => rfl
  | cons b l ih =>
    have hb : b.toNat < 256 := b.toNat_lt
    rw [List.flatMap_cons, charBytes_append, ih, charBytes_cons, charBytes_cons, charBytes_nil,
      utf8Size_hexDigit (by omega), utf8Size_hexDigit (by omega), List.length_cons]
    omega

theorem mem_utf8_hexEncode {b : UInt8} (h : b ∈ utf8 (hexEncode l)) : ∃ n < 16, b ∈ String.utf8EncodeChar (hexDigit n) := by
  rw [← String.ofList_toList (s := hexEncode l), utf8_ofList, List.mem_flatMap] at h
  obtain ⟨c, hc, hb⟩ := h
  obtain ⟨n, hn, rfl⟩ := mem_hexEncode hc
  exact ⟨n, hn, hb⟩

/-! ## Words -/

def satAdd (a b : UInt64) : UInt64 := if a.toNat + b.toNat < 2 ^ 64 then a + b else UInt64.ofNat (2 ^ 64 - 1)

def satSub (a b : UInt64) : UInt64 := if b ≤ a then a - b else 0

theorem toNat_satSub (a b : UInt64) : (satSub a b).toNat = a.toNat - b.toNat := by
  unfold satSub
  split_ifs with h
  · exact UInt64.toNat_sub_of_le _ _ h
  · rw [UInt64.le_iff_toNat_le] at h
    simp only [UInt64.toNat_zero]
    omega

theorem satSub_le_satSub (h : a ≤ b) (k : UInt64) : satSub a k ≤ satSub b k := by
  rw [UInt64.le_iff_toNat_le] at h ⊢
  rw [toNat_satSub, toNat_satSub]
  omega

theorem le_satAdd {c : UInt64} (h : a.toNat ≤ b.toNat + c.toNat) : a ≤ satAdd b c := by
  have ha := a.toNat_lt
  rw [UInt64.le_iff_toNat_le]
  unfold satAdd
  split_ifs with hfits
  · rw [UInt64.toNat_add, Nat.mod_eq_of_lt hfits]
    exact h
  · rw [UInt64.toNat_ofNat']
    omega

def checkedAdd (a b : Nat) : Option Nat := if a + b < 2 ^ 64 then some (a + b) else none

def checkedSub (a b : Nat) : Option Nat := if b ≤ a then some (a - b) else none

def checkedDiv (a b : Nat) : Option Nat := if b = 0 then none else some (a / b)

def checkedMul (a b : Nat) : Option Nat := if a * b < 2 ^ 64 then some (a * b) else none

/-- The least power of two that is not below `n`. -/
def nextPowerOfTwo (n : Nat) : Nat := if n ≤ 1 then 1 else 2 ^ ((n - 1).log2 + 1)

/-- The least power of two that is not below `n`, if it is a word. -/
def checkedNextPowerOfTwo (n : Nat) : Option Nat :=
  if nextPowerOfTwo n < 2 ^ 64 then some (nextPowerOfTwo n) else none

theorem le_nextPowerOfTwo (n : Nat) : n ≤ nextPowerOfTwo n := by
  unfold nextPowerOfTwo
  split_ifs with h
  · exact h
  · have hlt : n - 1 < 2 ^ ((n - 1).log2 + 1) := Nat.lt_log2_self
    omega

theorem nextPowerOfTwo_lt (h : 1 < n) : nextPowerOfTwo n < 2 * n := by
  have hle : 2 ^ (n - 1).log2 ≤ n - 1 := Nat.log2_self_le (by omega)
  rw [nextPowerOfTwo, if_neg (by omega), Nat.pow_succ]
  omega

theorem nextPowerOfTwo_le_two_pow {k : Nat} (h : n ≤ 2 ^ k) : nextPowerOfTwo n ≤ 2 ^ k := by
  unfold nextPowerOfTwo
  split_ifs with hn
  · exact Nat.one_le_two_pow
  · have hlog : (n - 1).log2 < k := (Nat.log2_lt (by omega)).2 (by omega)
    exact Nat.pow_le_pow_right (by decide) hlog

theorem nextPowerOfTwo_eq_two_pow (n : Nat) : ∃ k, nextPowerOfTwo n = 2 ^ k := by
  unfold nextPowerOfTwo
  split_ifs
  · exact ⟨0, rfl⟩
  · exact ⟨_, rfl⟩

theorem nextPowerOfTwo_eq {m : Nat} (h : n ≤ m) (hm : m ≤ nextPowerOfTwo n) : nextPowerOfTwo m = nextPowerOfTwo n := by
  obtain ⟨j, hj⟩ := nextPowerOfTwo_eq_two_pow n
  obtain ⟨k, hk⟩ := nextPowerOfTwo_eq_two_pow m
  apply le_antisymm
  · rw [hj] at hm ⊢
    exact nextPowerOfTwo_le_two_pow hm
  · have hle := h.trans (le_nextPowerOfTwo m)
    rw [hk] at hle ⊢
    exact nextPowerOfTwo_le_two_pow hle

/-! ## Characters -/

/-- The control characters (general category `Cc`). -/
def isControl (c : Char) : Bool := c.toNat < 0x20 || (0x7f ≤ c.toNat && c.toNat < 0xa0)

/-- The characters with the property `White_Space`. -/
def isWhitespace (c : Char) : Bool :=
  (0x9 ≤ c.toNat && c.toNat ≤ 0xd) || (0x2000 ≤ c.toNat && c.toNat ≤ 0x200a) ||
    [0x20, 0x85, 0xa0, 0x1680, 0x2028, 0x2029, 0x202f, 0x205f, 0x3000].contains c.toNat

def trim (s : String) : String := String.ofList ((s.toList.dropWhile isWhitespace).reverse.dropWhile isWhitespace).reverse

theorem trim_eq_self (h : ∀ c ∈ s.toList, isWhitespace c = false) : trim s = s := by
  have hdrop (l : List Char) (hl : ∀ c ∈ l, isWhitespace c = false) : l.dropWhile isWhitespace = l := by
    cases l with
    | nil => rfl
    | cons c l => rw [List.dropWhile_cons, hl c List.mem_cons_self]; rfl
  rw [trim, hdrop _ h, hdrop _ (fun c hc => h c (List.mem_reverse.1 hc)), List.reverse_reverse, String.ofList_toList]

end Wire

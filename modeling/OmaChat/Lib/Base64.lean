import OmaChat.Lib.Json

/-!
# Base64

The standard alphabet with padding: three bytes are four characters, and `=` fills the last group. `decode` is strict:
it takes the canonical padding only, and the bits that the padding leaves over have to be zero.

* `decode_encode` : what was encoded decodes to itself;
* `escapedSize_encode` : the text stands in JSON as it is.
-/

namespace Wire.Base64

def digit (n : Nat) : Char :=
  if n < 26 then Char.ofNat (65 + n)
  else if n < 52 then Char.ofNat (71 + n)
  else if n < 62 then Char.ofNat (n - 4)
  else if n = 62 then '+'
  else '/'

def value (c : Char) : Option Nat :=
  if 'A' ≤ c ∧ c ≤ 'Z' then some (c.toNat - 65)
  else if 'a' ≤ c ∧ c ≤ 'z' then some (c.toNat - 71)
  else if '0' ≤ c ∧ c ≤ '9' then some (c.toNat + 4)
  else if c = '+' then some 62
  else if c = '/' then some 63
  else none

def encodeChars : List UInt8 → List Char
  | [] => []
  | [a] => [digit (a.toNat / 4), digit (a.toNat % 4 * 16), '=', '=']
  | [a, b] => [digit (a.toNat / 4), digit (a.toNat % 4 * 16 + b.toNat / 16), digit (b.toNat % 16 * 4), '=']
  | a :: b :: c :: rest =>
    digit (a.toNat / 4) :: digit (a.toNat % 4 * 16 + b.toNat / 16) :: digit (b.toNat % 16 * 4 + c.toNat / 64) ::
      digit (c.toNat % 64) :: encodeChars rest

def encode (bytes : List UInt8) : String := String.ofList (encodeChars bytes)

/-- The byte of a group that ends in two `=`. -/
def decodeOne (x y : Char) : Option (List UInt8) := do
  let a ← value x
  let b ← value y
  if b % 16 = 0 then some [UInt8.ofNat (a * 4 + b / 16)] else none

/-- The two bytes of a group that ends in one `=`. -/
def decodeTwo (x y z : Char) : Option (List UInt8) := do
  let a ← value x
  let b ← value y
  let c ← value z
  if c % 4 = 0 then some [UInt8.ofNat (a * 4 + b / 16), UInt8.ofNat (b % 16 * 16 + c / 4)] else none

/-- The three bytes of a group without `=`. -/
def decodeThree (x y z w : Char) : Option (List UInt8) := do
  let a ← value x
  let b ← value y
  let c ← value z
  let d ← value w
  some [UInt8.ofNat (a * 4 + b / 16), UInt8.ofNat (b % 16 * 16 + c / 4), UInt8.ofNat (c % 4 * 64 + d)]

def decodeChars : List Char → Option (List UInt8)
  | [] => some []
  | x :: y :: z :: w :: rest =>
    if w = '=' then
      if rest ≠ [] then none
      else if z = '=' then decodeOne x y
      else decodeTwo x y z
    else do
      let group ← decodeThree x y z w
      let bytes ← decodeChars rest
      some (group ++ bytes)
  | _ => none

def decode (text : String) : Option (List UInt8) := decodeChars text.toList

/-! ## The alphabet -/

variable {n : Nat}

theorem value_digit (h : n < 64) : value (digit n) = some n := by
  interval_cases n <;> decide

theorem digit_ne_pad (h : n < 64) : digit n ≠ '=' := by
  interval_cases n <;> decide

def IsChar (c : Char) : Prop := c = '=' ∨ ∃ n < 64, c = digit n

theorem isChar_digit (h : n < 64) : IsChar (digit n) := .inr ⟨n, h, rfl⟩

theorem IsChar.plain {c : Char} (h : IsChar c) : c.utf8Size = 1 ∧ Json.escapeChar c = [c] ∧ c ≠ '#' := by
  obtain rfl | ⟨n, hn, rfl⟩ := h
  · decide
  · interval_cases n <;> decide

theorem isChar_of_mem_encodeChars (bytes : List UInt8) : ∀ c ∈ encodeChars bytes, IsChar c := by
  induction bytes using encodeChars.induct with
  | case1 => simp [encodeChars]
  | case2 a =>
    have ha := a.toNat_lt
    simp only [encodeChars, List.forall_mem_cons]
    refine ⟨isChar_digit (by omega), isChar_digit (by omega), .inl rfl, .inl rfl, by simp⟩
  | case3 a b =>
    have ha := a.toNat_lt
    have hb := b.toNat_lt
    simp only [encodeChars, List.forall_mem_cons]
    refine ⟨isChar_digit (by omega), isChar_digit (by omega), isChar_digit (by omega), .inl rfl, by simp⟩
  | case4 a b c rest ih =>
    have ha := a.toNat_lt
    have hb := b.toNat_lt
    have hc := c.toNat_lt
    simp only [encodeChars, List.forall_mem_cons]
    exact ⟨isChar_digit (by omega), isChar_digit (by omega), isChar_digit (by omega), isChar_digit (by omega), ih⟩

theorem length_encodeChars (bytes : List UInt8) : (encodeChars bytes).length = (bytes.length + 2) / 3 * 4 := by
  induction bytes using encodeChars.induct with
  | case1 => rfl
  | case2 a => simp [encodeChars]
  | case3 a b => simp [encodeChars]
  | case4 a b c rest ih =>
    simp only [encodeChars, List.length_cons, ih]
    omega

theorem charBytes_of_isChar {l : List Char} (h : ∀ c ∈ l, IsChar c) :
    charBytes l = l.length ∧ l.flatMap Json.escapeChar = l := by
  induction l with
  | nil => exact ⟨rfl, rfl⟩
  | cons c l ih =>
    obtain ⟨hsize, hescape⟩ := ih fun d hd => h d (List.mem_cons_of_mem _ hd)
    obtain ⟨hc, he, -⟩ := (h c List.mem_cons_self).plain
    constructor
    · rw [charBytes_cons, hc, hsize, List.length_cons, Nat.add_comm]
    · rw [List.flatMap_cons, he, hescape, List.singleton_append]

theorem utf8ByteSize_encode (bytes : List UInt8) : (encode bytes).utf8ByteSize = (bytes.length + 2) / 3 * 4 := by
  rw [encode, utf8ByteSize_ofList, (charBytes_of_isChar (isChar_of_mem_encodeChars bytes)).1, length_encodeChars]

theorem escapedSize_encode (bytes : List UInt8) : Json.escapedSize (encode bytes) = (encode bytes).utf8ByteSize := by
  rw [Json.escapedSize, ← charBytes_toList, encode, String.toList_ofList,
    (charBytes_of_isChar (isChar_of_mem_encodeChars bytes)).2]

/-! ## Decoding what was encoded -/

section
variable (a b c : UInt8)

theorem ofNat_eq_self {x : UInt8} (h : n = x.toNat) : UInt8.ofNat n = x := by
  rw [h, UInt8.ofNat_toNat]

theorem decodeOne_encoded : decodeOne (digit (a.toNat / 4)) (digit (a.toNat % 4 * 16)) = some [a] := by
  have ha := a.toNat_lt
  unfold decodeOne
  rw [value_digit (by omega), value_digit (by omega)]
  simp only [Option.bind_eq_bind, Option.bind_some]
  rw [if_pos (by omega), ofNat_eq_self (x := a) (by omega)]

theorem decodeTwo_encoded :
    decodeTwo (digit (a.toNat / 4)) (digit (a.toNat % 4 * 16 + b.toNat / 16)) (digit (b.toNat % 16 * 4)) = some [a, b] := by
  have ha := a.toNat_lt
  have hb := b.toNat_lt
  unfold decodeTwo
  rw [value_digit (by omega), value_digit (by omega), value_digit (by omega)]
  simp only [Option.bind_eq_bind, Option.bind_some]
  rw [if_pos (by omega), ofNat_eq_self (x := a) (by omega), ofNat_eq_self (x := b) (by omega)]

theorem decodeThree_encoded :
    decodeThree (digit (a.toNat / 4)) (digit (a.toNat % 4 * 16 + b.toNat / 16))
      (digit (b.toNat % 16 * 4 + c.toNat / 64)) (digit (c.toNat % 64)) = some [a, b, c] := by
  have ha := a.toNat_lt
  have hb := b.toNat_lt
  have hc := c.toNat_lt
  unfold decodeThree
  rw [value_digit (by omega), value_digit (by omega), value_digit (by omega), value_digit (by omega)]
  simp only [Option.bind_eq_bind, Option.bind_some]
  rw [ofNat_eq_self (x := a) (by omega), ofNat_eq_self (x := b) (by omega), ofNat_eq_self (x := c) (by omega)]

end

theorem decodeChars_encodeChars (bytes : List UInt8) : decodeChars (encodeChars bytes) = some bytes := by
  induction bytes using encodeChars.induct with
  | case1 => rfl
  | case2 a =>
    rw [encodeChars, decodeChars, if_pos rfl, if_neg (not_not.2 rfl), if_pos rfl, decodeOne_encoded]
  | case3 a b =>
    have hb := b.toNat_lt
    rw [encodeChars, decodeChars, if_pos rfl, if_neg (not_not.2 rfl), if_neg (digit_ne_pad (by omega)), decodeTwo_encoded]
  | case4 a b c rest ih =>
    have hc := c.toNat_lt
    rw [encodeChars, decodeChars, if_neg (digit_ne_pad (by omega)), decodeThree_encoded, ih]
    rfl

theorem decode_encode (bytes : List UInt8) : decode (encode bytes) = some bytes := by
  rw [decode, encode, String.toList_ofList, decodeChars_encodeChars]

theorem head?_encode_ne (bytes : List UInt8) : (encode bytes).toList.head? ≠ some '#' := by
  rw [encode, String.toList_ofList]
  intro h
  exact (isChar_of_mem_encodeChars bytes _ (List.mem_of_mem_head? h)).plain.2.2 rfl

end Wire.Base64

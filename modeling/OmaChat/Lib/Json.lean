import OmaChat.Lib.Bytes

/-!
# JSON values and their compact text

Values as the serializer sees them: numbers are natural numbers, a record lists its fields in the order of its
declaration (`obj`), and `object` builds a map whose keys come out in order, as a `BTreeMap` does. `render` is the compact
text, without blanks and with the escapes of `serde_json`.
-/

namespace Wire

inductive Json where
  | null
  | bool (b : Bool)
  | num (n : Nat)
  | str (s : String)
  | arr (items : List Json)
  | obj (fields : List (String × Json))

namespace Json

/-- The order of keys: the one of their code points, which is also the one of their UTF-8 bytes. -/
def keyLt : List Char → List Char → Bool
  | _, [] => false
  | [], _ :: _ => true
  | a :: as, b :: bs => a.toNat < b.toNat || (a.toNat == b.toNat && keyLt as bs)

/-- Put a field into a map that is sorted by key; a later value replaces an earlier one. -/
def insertField (key : String) (value : Json) : List (String × Json) → List (String × Json)
  | [] => [(key, value)]
  | (k, v) :: rest =>
    if keyLt key.toList k.toList then (key, value) :: (k, v) :: rest
    else if key = k then (key, value) :: rest
    else (k, v) :: insertField key value rest

def object (fields : List (String × Json)) : Json := .obj (fields.foldl (fun map field => insertField field.1 field.2 map) [])

def field (key : String) : Json → Option Json
  | .obj fields => fields.lookup key
  | _ => none

theorem lookup_insertField_of_ne {key k : String} (h : key ≠ k) (value : Json) (fields : List (String × Json)) :
    (insertField k value fields).lookup key = fields.lookup key := by
  have hne : (key == k) = false := beq_eq_false_iff_ne.2 h
  induction fields with
  | nil => rw [insertField, List.lookup_cons, hne]
  | cons field rest ih =>
    unfold insertField
    split_ifs with hlt heq
    · rw [List.lookup_cons, hne]
    · rw [List.lookup_cons, List.lookup_cons, ← heq, hne]
    · rw [List.lookup_cons, List.lookup_cons, ih]

def ofOption : Option String → Json
  | none => .null
  | some s => .str s

def strings (items : List String) : Json := .arr (items.map .str)

/-- The values of the JSON library: numbers are 64-bit words here, and the keys of a map are in order. -/
inductive IsValue : Json → Prop where
  | null : IsValue .null
  | bool (b : Bool) : IsValue (.bool b)
  | num {n : Nat} : n < 2 ^ 64 → IsValue (.num n)
  | str (s : String) : IsValue (.str s)
  | arr {items : List Json} : (∀ item ∈ items, IsValue item) → IsValue (.arr items)
  | object {fields : List (String × Json)} : (∀ field ∈ fields, IsValue field.2) → IsValue (object fields)

/-! ## Text -/

/-- How a character stands inside a string: quotes, backslashes and control characters are escaped. -/
def escapeChar (c : Char) : List Char :=
  if c = '"' then ['\\', '"']
  else if c = '\\' then ['\\', '\\']
  else if c.toNat = 8 then ['\\', 'b']
  else if c.toNat = 9 then ['\\', 't']
  else if c.toNat = 10 then ['\\', 'n']
  else if c.toNat = 12 then ['\\', 'f']
  else if c.toNat = 13 then ['\\', 'r']
  else if c.toNat < 32 then ['\\', 'u', '0', '0', hexDigit (c.toNat / 16), hexDigit (c.toNat % 16)]
  else [c]

def renderString (s : String) : List Char := '"' :: s.toList.flatMap escapeChar ++ ['"']

mutual

def renderChars : Json → List Char
  | .null => ['n', 'u', 'l', 'l']
  | .bool true => ['t', 'r', 'u', 'e']
  | .bool false => ['f', 'a', 'l', 's', 'e']
  | .num n => (Nat.toDigits 10 n)
  | .str s => renderString s
  | .arr items => '[' :: renderItems items ++ [']']
  | .obj fields => '\x7b' :: renderFields fields ++ ['\x7d']

def renderItems : List Json → List Char
  | [] => []
  | [item] => renderChars item
  | item :: next :: rest => renderChars item ++ ',' :: renderItems (next :: rest)

def renderFields : List (String × Json) → List Char
  | [] => []
  | [(key, value)] => renderString key ++ ':' :: renderChars value
  | (key, value) :: next :: rest =>
    renderString key ++ ':' :: renderChars value ++ ',' :: renderFields (next :: rest)

end

/-- The compact text of a value, as `serde_json::to_string` gives it. -/
def render (value : Json) : String := String.ofList value.renderChars

/-- A parser that reads the values of the JSON library back from their compact text. -/
def Reads (fromSlice : List UInt8 → Option Json) : Prop :=
  ∀ value, IsValue value → fromSlice (utf8 value.render) = some value

/-! ## Size -/

def size (value : Json) : Nat := charBytes value.renderChars

theorem utf8ByteSize_render (value : Json) : value.render.utf8ByteSize = value.size := utf8ByteSize_ofList _

theorem length_utf8_render (value : Json) : (utf8 value.render).length = value.size := utf8ByteSize_render value

/-- The number of bytes of a text inside the quotes. -/
def escapedSize (s : String) : Nat := charBytes (s.toList.flatMap escapeChar)

theorem charBytes_escapeChar (c : Char) :
    c.utf8Size ≤ charBytes (escapeChar c) ∧ charBytes (escapeChar c) ≤ 6 * c.utf8Size := by
  by_cases hascii : c.toNat < 128
  · rw [utf8Size_of_ascii hascii]
    unfold escapeChar
    split_ifs
    any_goals decide
    -- the escape by number, and no escape
    · rw [charBytes_cons, charBytes_cons, charBytes_cons, charBytes_cons, charBytes_cons, charBytes_cons,
        utf8Size_hexDigit (by omega), utf8Size_hexDigit (by omega)]
      decide
    · rw [charBytes_cons, charBytes_nil, utf8Size_of_ascii hascii]
      omega
  · have hplain : escapeChar c = [c] := by
      unfold escapeChar
      split_ifs with h₁ h₂ <;> first | rfl | omega | (subst_vars; exact absurd (by decide) hascii)
    rw [hplain, charBytes_cons, charBytes_nil]
    omega

theorem escapedSize_append (s t : String) : escapedSize (s ++ t) = escapedSize s + escapedSize t := by
  rw [escapedSize, String.toList_append, List.flatMap_append, charBytes_append]
  rfl

theorem utf8ByteSize_le_escapedSize (s : String) : s.utf8ByteSize ≤ escapedSize s := by
  rw [← charBytes_toList, escapedSize]
  induction s.toList with
  | nil => rfl
  | cons c l ih =>
    rw [charBytes_cons, List.flatMap_cons, charBytes_append]
    exact Nat.add_le_add (charBytes_escapeChar c).1 ih

theorem escapedSize_le (s : String) : escapedSize s ≤ 6 * s.utf8ByteSize := by
  rw [← charBytes_toList, escapedSize]
  induction s.toList with
  | nil => rfl
  | cons c l ih =>
    rw [charBytes_cons, List.flatMap_cons, charBytes_append, Nat.mul_add]
    exact Nat.add_le_add (charBytes_escapeChar c).2 ih

variable {s : String} {n : Nat}

theorem escapedSize_le_two_mul (h : ∀ c ∈ s.toList, 32 ≤ c.toNat ∨ c.toNat = 9 ∨ c.toNat = 10) :
    escapedSize s ≤ 2 * s.utf8ByteSize := by
  have hchar (c : Char) (hc : 32 ≤ c.toNat ∨ c.toNat = 9 ∨ c.toNat = 10) : charBytes (escapeChar c) ≤ 2 * c.utf8Size := by
    have hpos : 1 ≤ c.utf8Size := Char.utf8Size_pos c
    have htwo : 2 ≤ 2 * c.utf8Size := by omega
    unfold escapeChar
    split_ifs with hquote hslash h8 h9 h10 h12 h13 hctl
    any_goals
      refine Nat.le_trans ?_ htwo
      decide
    · omega
    · rw [charBytes_cons, charBytes_nil]
      omega
  rw [← charBytes_toList, escapedSize]
  generalize s.toList = l at h
  induction l with
  | nil => exact Nat.zero_le _
  | cons c l ih =>
    have hc := hchar c (h c List.mem_cons_self)
    have hl := ih fun d hd => h d (List.mem_cons_of_mem _ hd)
    rw [charBytes_cons, List.flatMap_cons, charBytes_append]
    omega

theorem escapedSize_of_plain (h : ∀ c ∈ s.toList, escapeChar c = [c]) : escapedSize s = s.utf8ByteSize := by
  have hplain : s.toList.flatMap escapeChar = s.toList := by
    rw [List.flatMap_congr h, List.flatMap_singleton']
  rw [escapedSize, hplain, charBytes_toList]

theorem escapedSize_hexEncode (b : Bytes n) : escapedSize (hexEncode b.val) = 2 * n := by
  have hdig : ∀ n < 16, escapeChar (hexDigit n) = [hexDigit n] := by decide +kernel
  rw [escapedSize_of_plain, utf8ByteSize_hexEncode, b.property]
  intro c hc
  obtain ⟨k, hk, rfl⟩ := mem_hexEncode hc
  exact hdig k hk

theorem escapedSize_replicate (n : Nat) (c : Char) :
    escapedSize (String.ofList (List.replicate n c)) = n * charBytes (escapeChar c) := by
  rw [escapedSize, String.toList_ofList]
  induction n with
  | zero => simp
  | succ n ih =>
    rw [List.replicate_succ, List.flatMap_cons, charBytes_append, ih, Nat.add_mul, Nat.one_mul, Nat.add_comm]

theorem charBytes_renderString (s : String) : charBytes (renderString s) = 2 + escapedSize s := by
  have hq : '"'.utf8Size = 1 := rfl
  rw [renderString, List.cons_append, charBytes_cons, charBytes_append, charBytes_cons, charBytes_nil, hq, escapedSize]
  omega

theorem size_str (s : String) : (str s).size = 2 + escapedSize s := by
  rw [size, renderChars, charBytes_renderString]

theorem size_num_le {k : Nat} (hk : 0 < k) (h : n < 10 ^ k) : (num n).size ≤ k := by
  have hdig : ∀ c ∈ Nat.toDigits 10 n, c.utf8Size = 1 := by
    intro c hc
    have hd := Nat.isDigit_of_mem_toDigits (by decide) le_rfl hc
    simp only [Char.isDigit, ge_iff_le, Bool.and_eq_true, decide_eq_true_eq, UInt32.le_iff_toNat_le] at hd
    exact utf8Size_of_ascii (Nat.lt_of_le_of_lt hd.2 (by decide))
  rw [size, renderChars, charBytes, List.map_congr_left hdig, List.map_const', List.sum_replicate, smul_eq_mul, mul_one]
  exact (Nat.length_toDigits_le_iff (by decide) hk).2 h

theorem charBytes_renderItems (items : List Json) :
    charBytes (renderItems items) = (items.map size).sum + (items.length - 1) := by
  have hc : ','.utf8Size = 1 := rfl
  induction items with
  | nil => rfl
  | cons item rest ih =>
    cases rest with
    | nil => simp [renderItems, size]
    | cons next rest =>
      rw [renderItems, charBytes_append, charBytes_cons, ih, hc]
      simp only [List.map_cons, List.sum_cons, List.length_cons, size]
      omega

theorem size_arr (items : List Json) : (arr items).size = 2 + (items.map size).sum + (items.length - 1) := by
  have ho : '['.utf8Size = 1 := rfl
  have hc : ']'.utf8Size = 1 := rfl
  rw [size, renderChars, List.cons_append, charBytes_cons, charBytes_append, charBytes_renderItems, charBytes_cons,
    charBytes_nil, ho, hc]
  omega

def fieldSize (field : String × Json) : Nat := (str field.1).size + 1 + field.2.size

theorem charBytes_renderFields (fields : List (String × Json)) :
    charBytes (renderFields fields) = (fields.map fieldSize).sum + (fields.length - 1) := by
  have hcolon : ':'.utf8Size = 1 := rfl
  have hc : ','.utf8Size = 1 := rfl
  induction fields with
  | nil => rfl
  | cons field rest ih =>
    obtain ⟨key, value⟩ := field
    cases rest with
    | nil =>
      rw [renderFields, charBytes_append, charBytes_cons, charBytes_renderString, hcolon]
      simp only [List.map_cons, List.map_nil, List.sum_cons, List.sum_nil, fieldSize, size_str, List.length_singleton]
      simp only [size]
      omega
    | cons next rest =>
      rw [renderFields, List.append_assoc, List.cons_append, charBytes_append, charBytes_cons, charBytes_append,
        charBytes_cons, ih, charBytes_renderString, hcolon, hc]
      simp only [List.map_cons, List.sum_cons, List.length_cons, fieldSize, size_str]
      simp only [size]
      omega

theorem utf8ByteSize_render_pos (fields : List (String × Json)) : 1 ≤ (obj fields).render.utf8ByteSize := by
  rw [utf8ByteSize_render, size, renderChars, List.cons_append, charBytes_cons]
  exact Nat.le_add_right_of_le (Char.utf8Size_pos _)

theorem size_obj (fields : List (String × Json)) :
    (obj fields).size = 2 + (fields.map fieldSize).sum + (fields.length - 1) := by
  have ho : '\x7b'.utf8Size = 1 := rfl
  have hc : '\x7d'.utf8Size = 1 := rfl
  rw [size, renderChars, List.cons_append, charBytes_cons, charBytes_append, charBytes_renderFields, charBytes_cons,
    charBytes_nil, ho, hc]
  omega

end Json

end Wire

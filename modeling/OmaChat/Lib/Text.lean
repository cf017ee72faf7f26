import OmaChat.Lib.Bytes

/-!
# Texts: pieces and ASCII

* `splitOnce`, `splitText` : a text at the first occurrence of a character, and at all of them; `splitN` and `splitLines`
  are the pieces of a status line and of a head. `joinLines` puts the lines of a head together;
* `parseUnsigned` : the number that a text stands for, as integer types of the standard library read it. It reads digits back
  whose value (`digitsValue`) fits;
* `lower` : ASCII letters in lower case, all other characters as they are;
* `all_utf8_iff` : what holds of all bytes of a text, and only of ASCII bytes, is what holds of its characters.
-/

namespace Wire

/-! ## Pieces -/

/-- `str::split_once` at a character -/
def splitOnce (sep : Char) (s : String) : Option (String × String) :=
  match s.toList.dropWhile (· != sep) with
  | [] => none
  | _ :: rest => some (String.ofList (s.toList.takeWhile (· != sep)), String.ofList rest)

/-- `str::split` at a character -/
def splitText (sep : Char) (s : String) : List String := (s.toList.splitOn sep).map String.ofList

/-- `str::splitn` at a character -/
def splitN (sep : Char) : Nat → String → List String
  | 0, _ => []
  | 1, s => [s]
  | n + 2, s =>
    match splitOnce sep s with
    | none => [s]
    | some (first, rest) => first :: splitN sep (n + 1) rest

/-- The lines of a text that `\r\n` separates. -/
def splitLinesList : List Char → List (List Char)
  | [] => [[]]
  | '\r' :: '\n' :: rest => [] :: splitLinesList rest
  | c :: rest =>
    match splitLinesList rest with
    | [] => [[c]]
    | line :: lines => (c :: line) :: lines

/-- `str::split` at `\r\n` -/
def splitLines (s : String) : List String := (splitLinesList s.toList).map String.ofList

/-- `str::contains` -/
def containsText (part s : String) : Bool := s.toList.tails.any part.toList.isPrefixOf

variable {a s : String} {c sep : Char} {b line : List Char} {radix : Nat}

theorem splitOnce_of_append {a : List Char} (hs : s.toList = a ++ sep :: b) (ha : sep ∉ a) :
    splitOnce sep s = some (String.ofList a, String.ofList b) := by
  have hne : ∀ c ∈ a, (c != sep) = true := by
    intro c hc
    rw [bne_iff_ne]
    intro h
    rw [h] at hc
    exact ha hc
  have hdrop : s.toList.dropWhile (· != sep) = sep :: b := by
    rw [hs, List.dropWhile_append_of_pos hne, List.dropWhile_cons_of_neg (by simp)]
  have htake : s.toList.takeWhile (· != sep) = a := by
    rw [hs, List.takeWhile_append_of_pos hne, List.takeWhile_cons_of_neg (by simp), List.append_nil]
  unfold splitOnce
  rw [hdrop, htake]

theorem splitOnce_append {b : String} (hs : s.toList = a.toList ++ sep :: b.toList)
    (ha : sep ∉ a.toList) : splitOnce sep s = some (a, b) := by
  rw [splitOnce_of_append hs ha, String.ofList_toList, String.ofList_toList]

theorem splitText_of_notMem (h : sep ∉ s.toList) : splitText sep s = [s] := by
  unfold splitText
  rw [List.splitOn_eq_singleton h, List.map_singleton, String.ofList_toList]

theorem splitLinesList_of_notMem (h : '\n' ∉ line) : splitLinesList line = [line] := by
  induction line with
  | nil => rfl
  | cons c line ih =>
    have hline := ih fun hmem => h (List.mem_cons_of_mem c hmem)
    cases line with
    | nil => simp [splitLinesList]
    | cons d line =>
      have hd : d ≠ '\n' := by
        rintro rfl
        simp at h
      rw [splitLinesList, hline]
      rintro rest - heq
      cases heq
      exact hd rfl

theorem splitLinesList_append (h : '\n' ∉ line) (rest : List Char) :
    splitLinesList (line ++ '\r' :: '\n' :: rest) = line :: splitLinesList rest := by
  induction line with
  | nil => simp [splitLinesList]
  | cons c line ih =>
    have hline := ih fun hmem => h (List.mem_cons_of_mem c hmem)
    rw [List.cons_append, splitLinesList, hline]
    rintro rest' - heq
    cases line with
    | nil => cases heq
    | cons d line =>
      cases heq
      simp at h

def joinLines : List String → String
  | [] => ""
  | [line] => line
  | line :: lines => line ++ "\r\n" ++ joinLines lines

theorem splitLines_joinLines {lines : List String} (hne : lines ≠ []) (h : ∀ line ∈ lines, '\n' ∉ line.toList) :
    splitLines (joinLines lines) = lines := by
  unfold splitLines
  induction lines with
  | nil => exact absurd rfl hne
  | cons line lines ih =>
    have hline := h line List.mem_cons_self
    cases lines with
    | nil => simp [joinLines, splitLinesList_of_notMem hline]
    | cons next lines =>
      have hrest := ih (by simp) fun other ho => h other (List.mem_cons_of_mem _ ho)
      have hlist : (joinLines (line :: next :: lines)).toList =
          line.toList ++ '\r' :: '\n' :: (joinLines (next :: lines)).toList := by
        simp [joinLines]
      rw [hlist, splitLinesList_append hline, List.map_cons, hrest, String.ofList_toList]

theorem headD_splitText (hs : s.toList = a.toList ++ sep :: b) (ha : sep ∉ a.toList) : (splitText sep s).headD "" = a := by
  unfold splitText
  rw [hs, List.splitOn_append_cons_self_of_not_mem ha]
  simp

/-! ## Numbers -/

theorem hexValue_eq_some {digit : Nat} (h : hexValue c = some digit) : digit < 16 ∧ isWhitespace c = false := by
  have hlow : c.toNat < 128 := by
    unfold hexValue at h
    split_ifs at h with hdecimal hsmall hcapital
    · exact Nat.lt_of_le_of_lt (UInt32.le_iff_toNat_le.1 hdecimal.2) (by decide)
    · exact Nat.lt_of_le_of_lt (UInt32.le_iff_toNat_le.1 hsmall.2) (by decide)
    · exact Nat.lt_of_le_of_lt (UInt32.le_iff_toNat_le.1 hcapital.2) (by decide)
  have hascii : ∀ n < 128, ∀ digit ∈ hexValue (Char.ofNat n), digit < 16 ∧ isWhitespace (Char.ofNat n) = false := by
    decide +kernel
  have hc := hascii c.toNat hlow digit
  rw [Char.ofNat_toNat] at hc
  exact hc h

def parseDigits (radix : Nat) : List Char → Nat → Option Nat
  | [], value => some value
  | c :: rest, value =>
    match hexValue c with
    | some digit => if digit < radix then parseDigits radix rest (value * radix + digit) else none
    | none => none

/-- `from_str_radix` of an unsigned type with the values below `bound`, for a radix up to 16: an optional sign and at least
one digit. -/
def parseUnsigned (radix bound : Nat) (s : String) : Option Nat :=
  let digits := match s.toList with
    | '+' :: rest => rest
    | text => text
  if digits = [] then none
  else
    match parseDigits radix digits 0 with
    | some value => if value < bound then some value else none
    | none => none

def digitsValue (radix : Nat) (digits : List Char) : Nat :=
  digits.foldl (fun value c => value * radix + (hexValue c).getD 0) 0

theorem parseDigits_eq {digits : List Char} (h : ∀ c ∈ digits, ∃ digit < radix, hexValue c = some digit) (value : Nat) :
    parseDigits radix digits value = some (digits.foldl (fun value c => value * radix + (hexValue c).getD 0) value) := by
  induction digits generalizing value with
  | nil => rfl
  | cons c digits ih =>
    obtain ⟨digit, hlt, hc⟩ := h c List.mem_cons_self
    unfold parseDigits
    rw [hc]
    dsimp only
    rw [if_pos hlt, ih fun d hd => h d (List.mem_cons_of_mem c hd), List.foldl_cons, hc]
    rfl

theorem parseUnsigned_digits {bound : Nat} (hne : s.toList ≠ [])
    (h : ∀ c ∈ s.toList, ∃ digit < radix, hexValue c = some digit) (hbd : digitsValue radix s.toList < bound) :
    parseUnsigned radix bound s = some (digitsValue radix s.toList) := by
  have hsign : '+' ∉ s.toList := by
    intro hmem
    obtain ⟨digit, -, hdig⟩ := h _ hmem
    have hnone : hexValue '+' = none := by decide
    rw [hnone] at hdig
    cases hdig
  unfold parseUnsigned
  split
  next rest heq =>
    rw [heq] at hsign
    simp at hsign
  next =>
    rw [if_neg hne, parseDigits_eq h]
    exact if_pos hbd

/-! ## Letter case -/

/-- `str::to_ascii_lowercase` -/
def lower (s : String) : String := s.map Char.toLower

theorem toLower_toLower (c : Char) : c.toLower.toLower = c.toLower := by
  by_cases h : c.toNat < 128
  · have hascii : ∀ n < 128, (Char.ofNat n).toLower.toLower = (Char.ofNat n).toLower := by decide +kernel
    have hc := hascii c.toNat h
    rwa [Char.ofNat_toNat] at hc
  · have hc : c.toLower = c := by
      unfold Char.toLower
      apply dif_neg
      intro hupper
      exact h (Nat.lt_of_le_of_lt (UInt32.le_iff_toNat_le.1 hupper.2) (by decide))
    rw [hc, hc]

theorem lower_eq (s : String) : lower s = String.ofList (s.toList.map Char.toLower) := by
  rw [← String.toList_inj, lower, String.toList_map, String.toList_ofList]

theorem lower_lower (s : String) : lower (lower s) = lower s := by
  unfold lower
  apply String.toList_injective
  rw [String.toList_map, String.toList_map, List.map_map]
  exact List.map_congr_left fun c _ => toLower_toLower c

theorem mem_lower (h : c ∈ (lower s).toList) : ∃ d ∈ s.toList, d.toLower = c := by
  unfold lower at h
  rw [String.toList_map] at h
  exact List.mem_map.1 h

theorem lt_toLower (h : c.toLower ≠ c) : c < c.toLower := by
  unfold Char.toLower at h ⊢
  split_ifs at h ⊢ with hupper
  · have hle := UInt32.le_iff_toNat_le.1 hupper.2
    rw [Char.lt_def, UInt32.lt_iff_toNat_lt]
    show c.val.toNat < (c.val + ('a'.val - 'A'.val)).toNat
    rw [UInt32.toNat_add]
    have hz : 'Z'.val.toNat = 90 := rfl
    have hd : ('a'.val - 'A'.val).toNat = 32 := rfl
    omega
  · exact absurd rfl h

theorem lt_lower (h : lower s ≠ s) : s < lower s := by
  have hlist : ∀ l : List Char, l.map Char.toLower ≠ l → l < l.map Char.toLower := by
    intro l
    induction l with
    | nil => exact fun h => absurd rfl h
    | cons c l ih =>
      intro hne
      rw [List.map_cons, List.cons_lt_cons_iff]
      by_cases hc : c.toLower = c
      · right
        refine ⟨hc.symm, ih fun hl => hne ?_⟩
        rw [List.map_cons, hc, hl]
      · exact .inl (lt_toLower hc)
  rw [String.lt_iff, lower, String.toList_map]
  apply hlist
  intro heq
  apply h
  apply String.toList_injective
  rw [lower, String.toList_map, heq]

/-! ## ASCII -/

theorem utf8_eq_flatMap (s : String) : utf8 s = s.toList.flatMap String.utf8EncodeChar := by
  conv_lhs => rw [← String.ofList_toList (s := s)]
  exact utf8_ofList _

theorem utf8_append (s t : String) : utf8 (s ++ t) = utf8 s ++ utf8 t := by
  rw [utf8_eq_flatMap, utf8_eq_flatMap, utf8_eq_flatMap, String.toList_append, List.flatMap_append]

theorem utf8EncodeChar_of_ascii (h : c.toNat < 128) : String.utf8EncodeChar c = [UInt8.ofNat c.toNat] := by
  unfold String.utf8EncodeChar
  exact if_pos (Nat.le_of_lt_succ h)

theorem utf8_of_ascii (h : ∀ c ∈ s.toList, c.toNat < 128) : utf8 s = s.toList.map fun c => UInt8.ofNat c.toNat := by
  rw [utf8_eq_flatMap]
  generalize s.toList = l at h ⊢
  induction l with
  | nil => rfl
  | cons c l ih =>
    rw [List.flatMap_cons, utf8EncodeChar_of_ascii (h c List.mem_cons_self), ih fun d hd => h d (List.mem_cons_of_mem c hd)]
    rfl

/-- No byte of a character outside of ASCII is one of ASCII. -/
theorem le_of_mem_utf8EncodeChar_of_not_ascii (h : ¬ c.toNat < 128) {b : UInt8} (hb : b ∈ String.utf8EncodeChar c) :
    128 ≤ b.toNat := by
  have hc : ¬ c.val.toNat ≤ 127 := fun hle => h (Nat.lt_succ_of_le hle)
  unfold String.utf8EncodeChar at hb
  simp only [if_neg hc] at hb
  split_ifs at hb
  all_goals
    simp only [List.mem_cons, List.not_mem_nil, or_false] at hb
    rcases hb with rfl | rfl | rfl | rfl | rfl
  all_goals
    rw [UInt8.toNat_ofNat']
    omega

theorem le_of_mem_utf8EncodeChar (h : 32 ≤ c.toNat) {b : UInt8} (hb : b ∈ String.utf8EncodeChar c) : 32 ≤ b.toNat := by
  by_cases hascii : c.toNat < 128
  · rw [utf8EncodeChar_of_ascii hascii, List.mem_singleton] at hb
    rw [hb, UInt8.toNat_ofNat']
    omega
  · exact Nat.le_trans (by decide) (le_of_mem_utf8EncodeChar_of_not_ascii hascii hb)

theorem mem_of_mem_utf8 {b : UInt8} (hb : b ∈ utf8 s) (hascii : b.toNat < 128) : Char.ofNat b.toNat ∈ s.toList := by
  rw [utf8_eq_flatMap, List.mem_flatMap] at hb
  obtain ⟨c, hc, hb⟩ := hb
  by_cases hlow : c.toNat < 128
  · rw [utf8EncodeChar_of_ascii hlow, List.mem_singleton] at hb
    rw [hb, UInt8.toNat_ofNat', Nat.mod_eq_of_lt (by omega), Char.ofNat_toNat]
    exact hc
  · exact absurd hascii (Nat.not_lt.2 (le_of_mem_utf8EncodeChar_of_not_ascii hlow hb))

theorem all_utf8_iff {p : UInt8 → Bool} (hp : ∀ b, p b = true → b.toNat < 128) (s : String) :
    (utf8 s).all p = true ↔ ∀ c ∈ s.toList, c.toNat < 128 ∧ p (UInt8.ofNat c.toNat) = true := by
  rw [utf8_eq_flatMap, List.all_flatMap, List.all_eq_true]
  refine forall₂_congr fun c _ => ?_
  by_cases hc : c.toNat < 128
  · rw [utf8EncodeChar_of_ascii hc]
    simp [hc]
  · obtain ⟨b, hb⟩ := List.exists_mem_of_ne_nil _ (String.utf8EncodeChar_ne_nil (c := c))
    have hhigh := le_of_mem_utf8EncodeChar_of_not_ascii hc hb
    constructor
    · intro hall
      exact absurd (hp b (List.all_eq_true.1 hall b hb)) (Nat.not_lt.2 hhigh)
    · intro h
      exact absurd h.1 hc

end Wire

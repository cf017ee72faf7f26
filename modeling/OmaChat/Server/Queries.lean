import OmaChat.Server.Nip05

/-!
# The names in request targets

What `percent_decode` and `query_name` accept, and what they make of it.

* `Escaped pair bytes` : behind every percent sign stand two bytes that `pair` reads; `unescape pair` puts in their place
  what it reads, and a space for a plus. `percentDecodeBytes_eq_some_iff` : these two are the decoder;
* `percentDecode_strict_iff` : the decoder reads a plus and a digit as well, and that is all that sets it apart from a decoder
  which asks for two hexadecimal digits;
* `percentDecode_of_encodes` : it undoes every percent-encoding;
* `queryName_eq_some_iff` : the targets in which there is a name.
-/

namespace OmaChat.Server
open Wire Proto

variable {bytes : List UInt8} {high low : UInt8}

/-! ## Escapes -/

def hexDigitValue (b : UInt8) : Option Nat := hexValue (Char.ofNat b.toNat)

def digitPair (high low : UInt8) : Option UInt8 := do
  let h ← hexDigitValue high
  let l ← hexDigitValue low
  some (UInt8.ofNat (16 * h + l))

/-- Behind every percent sign stand two bytes that `pair` reads. -/
def Escaped (pair : UInt8 → UInt8 → Option UInt8) (bytes : List UInt8) : Prop :=
  ∀ before after, bytes = before ++ 37 :: after → ∃ high low rest, after = high :: low :: rest ∧
    (pair high low).isSome = true

/-- The bytes with every escape replaced by its byte, and every plus by a space. -/
def unescape (pair : UInt8 → UInt8 → Option UInt8) : List UInt8 → List UInt8
  | [] => []
  | byte :: rest =>
    if byte = 43 then 32 :: unescape pair rest
    else if byte = 37 then
      match rest with
      | high :: low :: rest => (pair high low).getD 0 :: unescape pair rest
      | _ => []
    else byte :: unescape pair rest

def PlusEscape (bytes : List UInt8) : Prop :=
  ∃ before low rest, bytes = before ++ 37 :: 43 :: low :: rest ∧ (hexDigitValue low).isSome = true

section Escaped
variable {pair : UInt8 → UInt8 → Option UInt8} {byte : UInt8} {rest : List UInt8}

theorem unescape_plus : unescape pair (43 :: rest) = 32 :: unescape pair rest := by
  rw [unescape.eq_def]
  exact if_pos rfl

theorem unescape_escape : unescape pair (37 :: high :: low :: rest) = (pair high low).getD 0 :: unescape pair rest := by
  rw [unescape.eq_def]
  rfl

theorem unescape_plain (hplus : byte ≠ 43) (hpct : byte ≠ 37) :
    unescape pair (byte :: rest) = byte :: unescape pair rest := by
  rw [unescape.eq_def]
  exact (if_neg hplus).trans (if_neg hpct)

theorem escaped_nil : Escaped pair [] := by
  intro before after h
  exact absurd h (by simp)

theorem escaped_cons (h : byte ≠ 37) : Escaped pair (byte :: bytes) ↔ Escaped pair bytes := by
  constructor
  · intro hall before after heq
    exact hall (byte :: before) after (by rw [heq, List.cons_append])
  · intro hall before after heq
    cases before with
    | nil =>
      rw [List.nil_append, List.cons.injEq] at heq
      exact absurd heq.1 h
    | cons b before =>
      rw [List.cons_append, List.cons.injEq] at heq
      exact hall before after heq.2

theorem escaped_escape (hhigh : high ≠ 37) (hlow : low ≠ 37) :
    Escaped pair (37 :: high :: low :: rest) ↔ (pair high low).isSome = true ∧ Escaped pair rest := by
  have hrest : Escaped pair (high :: low :: rest) ↔ Escaped pair rest := (escaped_cons hhigh).trans (escaped_cons hlow)
  rw [← hrest]
  constructor
  · intro hall
    obtain ⟨h, l, rest', heq, hpair⟩ := hall [] _ rfl
    cases heq
    refine ⟨hpair, fun before after h => hall (37 :: before) after ?_⟩
    rw [h, List.cons_append]
  · rintro ⟨hpair, hall⟩ before after heq
    cases before with
    | nil =>
      cases heq
      exact ⟨high, low, rest, rfl, hpair⟩
    | cons b before =>
      rw [List.cons_append, List.cons.injEq] at heq
      exact hall before after heq.2

theorem escaped_head (h : Escaped pair (37 :: bytes)) :
    ∃ high low rest, bytes = high :: low :: rest ∧ (pair high low).isSome = true := h [] bytes rfl

end Escaped

theorem ne_of_digitPair (h : (digitPair high low).isSome = true) : (high ≠ 37 ∧ low ≠ 37) ∧ high ≠ 43 := by
  have hpct : hexDigitValue 37 = none := by decide
  have hplus : hexDigitValue 43 = none := by decide
  refine ⟨⟨?_, ?_⟩, ?_⟩ <;> rintro rfl <;> revert h <;> unfold digitPair
  · simp [hpct]
  · cases hexDigitValue high <;> simp [hpct]
  · simp [hplus]

theorem hexPair_of_ne (h : high ≠ 43) : hexPair high low = digitPair high low := if_neg h

theorem hexPair_plus (low : UInt8) : hexPair 43 low = (hexDigitValue low).map UInt8.ofNat := by
  unfold hexPair
  rw [if_pos rfl]
  rfl

theorem ne_of_hexPair (h : (hexPair high low).isSome = true) : high ≠ 37 ∧ low ≠ 37 := by
  by_cases hplus : high = 43
  · subst hplus
    refine ⟨by decide, ?_⟩
    rintro rfl
    exact absurd h (by decide)
  · rw [hexPair_of_ne hplus] at h
    exact (ne_of_digitPair h).1

theorem map_eq_some_iff_of {α β : Type} {o : Option α} {P : Prop} {x : α}
    (h : ∀ y, o = some y ↔ P ∧ y = x) (f : α → β)
    (z : β) : o.map f = some z ↔ P ∧ z = f x := by
  rw [Option.map_eq_some_iff]
  constructor
  · rintro ⟨y, hy, rfl⟩
    obtain ⟨hP, rfl⟩ := (h y).1 hy
    exact ⟨hP, rfl⟩
  · rintro ⟨hP, rfl⟩
    exact ⟨x, (h x).2 ⟨hP, rfl⟩, rfl⟩

/-- **The decoder** accepts what is escaped in its own sense, and replaces the escapes. -/
theorem percentDecodeBytes_eq_some_iff (bytes out : List UInt8) :
    percentDecodeBytes bytes = some out ↔ Escaped hexPair bytes ∧ out = unescape hexPair bytes := by
  fun_induction percentDecodeBytes bytes generalizing out with
  | case1 =>
    rw [unescape, Option.some.injEq, and_iff_right escaped_nil]
    exact eq_comm
  | case2 rest ih =>
    rw [unescape_plus, escaped_cons (by decide)]
    exact map_eq_some_iff_of ih (32 :: ·) out
  | case3 high low rest hplus ih =>
    rw [unescape_escape]
    cases hpair : hexPair high low with
    | none =>
      refine iff_of_false (by simp) fun h => ?_
      obtain ⟨high', low', rest', heq, hsome⟩ := escaped_head h.1
      cases heq
      rw [hpair] at hsome
      cases hsome
    | some decoded =>
      have hsome : (hexPair high low).isSome = true := by rw [hpair]; rfl
      obtain ⟨hhigh, hlow⟩ := ne_of_hexPair hsome
      rw [escaped_escape hhigh hlow, and_iff_right hsome, Option.bind_eq_bind, Option.bind_some, Option.getD_some]
      exact map_eq_some_iff_of ih (decoded :: ·) out
  | case4 rest hshort hplus =>
    refine iff_of_false (by simp) fun h => ?_
    obtain ⟨high, low, rest', rfl, -⟩ := escaped_head h.1
    exact hshort high low rest' rfl
  | case5 byte rest hplus hpct ih =>
    rw [unescape_plain hplus hpct, escaped_cons hpct]
    exact map_eq_some_iff_of ih (byte :: ·) out

theorem percentDecode_eq_some_iff (value name : String) :
    percentDecode value = some name ↔
      Escaped hexPair (utf8 value) ∧ fromUtf8 (unescape hexPair (utf8 value)) = some name := by
  unfold percentDecode
  rw [Option.bind_eq_some_iff]
  constructor
  · rintro ⟨out, hout, hname⟩
    obtain ⟨hesc, rfl⟩ := (percentDecodeBytes_eq_some_iff _ _).1 hout
    exact ⟨hesc, hname⟩
  · rintro ⟨hesc, hname⟩
    exact ⟨_, (percentDecodeBytes_eq_some_iff _ _).2 ⟨hesc, rfl⟩, hname⟩

/-! ## Two digits -/

theorem escaped_hexPair (h : Escaped digitPair bytes) : Escaped hexPair bytes := by
  intro before after heq
  obtain ⟨high, low, rest, ha, hpair⟩ := h before after heq
  refine ⟨high, low, rest, ha, ?_⟩
  rw [hexPair_of_ne (ne_of_digitPair hpair).2]
  exact hpair

theorem escaped_digitPair (h : Escaped hexPair bytes) (hplus : ¬ PlusEscape bytes) : Escaped digitPair bytes := by
  intro before after heq
  obtain ⟨high, low, rest, rfl, hpair⟩ := h before after heq
  refine ⟨high, low, rest, rfl, ?_⟩
  by_cases hhigh : high = 43
  · subst hhigh
    rw [hexPair_plus, Option.isSome_map] at hpair
    exact absurd ⟨before, low, rest, heq, hpair⟩ hplus
  · rwa [hexPair_of_ne hhigh] at hpair

theorem not_plusEscape_of_escaped (h : Escaped digitPair bytes) : ¬ PlusEscape bytes := by
  rintro ⟨before, low, rest, heq, -⟩
  obtain ⟨high', low', rest', ha, hpair⟩ := h before _ heq
  cases ha
  exact (ne_of_digitPair hpair).2 rfl

theorem unescape_of_escaped (h : Escaped digitPair bytes) : unescape hexPair bytes = unescape digitPair bytes := by
  fun_induction unescape hexPair bytes with
  | case1 => rw [unescape]
  | case2 rest ih =>
    rw [unescape_plus, ih ((escaped_cons (by decide)).1 h)]
  | case3 high low rest hplus ih =>
    obtain ⟨high', low', rest', heq, hpair⟩ := escaped_head h
    cases heq
    obtain ⟨⟨hhigh, hlow⟩, hne⟩ := ne_of_digitPair hpair
    rw [unescape_escape, ih ((escaped_escape hhigh hlow).1 h).2, hexPair_of_ne hne]
  | case4 rest hshort hplus =>
    obtain ⟨high, low, rest', rfl, -⟩ := escaped_head h
    exact absurd rfl (hshort high low rest')
  | case5 byte rest hplus hpct ih =>
    rw [unescape_plain hplus hpct, ih ((escaped_cons hpct).1 h)]

/-- **The strict reading** of a value: every percent sign is followed by two hexadecimal digits, and the bytes are text. The
decoder keeps to it exactly if it does not accept an escape of a plus and a digit. -/
theorem percentDecode_strict_iff (value : String) :
    (∀ name, percentDecode value = some name ↔
        Escaped digitPair (utf8 value) ∧ fromUtf8 (unescape digitPair (utf8 value)) = some name) ↔
      ¬ (PlusEscape (utf8 value) ∧ Escaped hexPair (utf8 value) ∧
        (fromUtf8 (unescape hexPair (utf8 value))).isSome = true) := by
  constructor
  · rintro hstrict ⟨hplus, hesc, hsome⟩
    obtain ⟨name, hname⟩ := Option.isSome_iff_exists.1 hsome
    have hdec := (percentDecode_eq_some_iff value name).2 ⟨hesc, hname⟩
    exact not_plusEscape_of_escaped ((hstrict name).1 hdec).1 hplus
  · intro hnot name
    rw [percentDecode_eq_some_iff]
    constructor
    · rintro ⟨hesc, hname⟩
      have hplus : ¬ PlusEscape (utf8 value) := fun hplus => hnot ⟨hplus, hesc, by rw [hname]; rfl⟩
      have hdig := escaped_digitPair hesc hplus
      rw [← unescape_of_escaped hdig]
      exact ⟨hdig, hname⟩
    · rintro ⟨hdig, hname⟩
      rw [← unescape_of_escaped hdig] at hname
      exact ⟨escaped_hexPair hdig, hname⟩

/-! ## Percent-encodings -/

/-- The ways to percent-encode bytes: a byte other than a plus and a percent sign may stand for itself, a space may be a plus,
and every byte may be escaped, with digits of either case. -/
inductive Encodes : List UInt8 → List UInt8 → Prop where
  | nil : Encodes [] []
  | plain {byte : UInt8} {bytes encoded : List UInt8} : byte ≠ 43 → byte ≠ 37 → Encodes bytes encoded →
      Encodes (byte :: bytes) (byte :: encoded)
  | space {bytes encoded : List UInt8} : Encodes bytes encoded → Encodes (32 :: bytes) (43 :: encoded)
  | escape {byte high low : UInt8} {bytes encoded : List UInt8} : digitPair high low = some byte → Encodes bytes encoded →
      Encodes (byte :: bytes) (37 :: high :: low :: encoded)

theorem percentDecodeBytes_of_encodes {encoded : List UInt8} (h : Encodes bytes encoded) :
    percentDecodeBytes encoded = some bytes := by
  induction h with
  | nil => rw [percentDecodeBytes]
  | plain hplus hpct _ ih =>
    unfold percentDecodeBytes
    rw [if_neg hplus, if_neg hpct, ih]
    rfl
  | space _ ih =>
    unfold percentDecodeBytes
    rw [if_pos rfl, ih]
    rfl
  | escape hpair _ ih =>
    have hne := (ne_of_digitPair (by rw [hpair]; rfl)).2
    unfold percentDecodeBytes
    rw [if_neg (by decide), if_pos rfl]
    dsimp only
    rw [hexPair_of_ne hne, hpair, ih]
    rfl

theorem percentDecode_of_encodes {name value : String} (h : Encodes (utf8 name) (utf8 value)) :
    percentDecode value = some name := by
  unfold percentDecode
  rw [percentDecodeBytes_of_encodes h]
  exact fromUtf8_utf8 name

/-! ## Targets -/

/-- The part of a target before its first question mark, and the part behind it. -/
def targetParts (target : String) : String × String := (splitOnce '?' target).getD (target, "")

def parameter (pair : String) : String × String := (splitOnce '=' pair).getD (pair, "")

/-- The values of the parameters that are called `name`. -/
def nameParameters (pairs : List String) : List String := ((pairs.map parameter).filter fun x => x.1 = "name").map Prod.snd

theorem queryPair_eq (name : Option String) (pair : String) :
    queryPair name pair = if (parameter pair).1 = "name" then (percentDecode (parameter pair).2).map some else some name := rfl

theorem nameParameters_cons (pair : String) (pairs : List String) :
    nameParameters (pair :: pairs) =
      if (parameter pair).1 = "name" then (parameter pair).2 :: nameParameters pairs else nameParameters pairs := by
  unfold nameParameters
  rw [List.map_cons, List.filter_cons]
  by_cases h : (parameter pair).1 = "name"
  · rw [if_pos h, if_pos (decide_eq_true h), List.map_cons]
  · rw [if_neg h, if_neg (by simpa using h)]

theorem foldlM_queryPair (pairs : List String) (name : Option String) :
    pairs.foldlM queryPair name = ((nameParameters pairs).mapM percentDecode).map fun names => names.getLast?.or name := by
  induction pairs generalizing name with
  | nil => rfl
  | cons pair pairs ih =>
    rw [List.foldlM_cons, queryPair_eq, nameParameters_cons]
    by_cases hname : (parameter pair).1 = "name"
    · rw [if_pos hname, if_pos hname, List.mapM_cons]
      cases percentDecode (parameter pair).2 with
      | none => rfl
      | some value =>
        rw [Option.map_some, Option.bind_eq_bind, Option.bind_some, ih, Option.bind_eq_bind, Option.bind_some]
        cases (nameParameters pairs).mapM percentDecode with
        | none => rfl
        | some names =>
          rcases List.eq_nil_or_concat names with rfl | ⟨names, last, rfl⟩
          · rfl
          · simp [List.getLast?_cons]
    · rw [if_neg hname, if_neg hname]
      exact ih name

/-- **The name in a target.** -/
theorem queryName_eq_some_iff (target name : String) :
    queryName target = some name ↔ (targetParts target).1 = "/.well-known/nostr.json" ∧
      ∃ names, (nameParameters (splitText '&' (targetParts target).2)).mapM percentDecode = some names ∧
        names.getLast? = some name := by
  have hempty : splitText '&' "" = [""] := splitText_of_notMem (by decide)
  have hnone : nameParameters [""] = [] := by decide +kernel
  unfold queryName
  rw [← targetParts]
  dsimp only
  by_cases hpath : (targetParts target).1 = "/.well-known/nostr.json"
  · rw [if_neg (not_not.2 hpath), and_iff_right hpath]
    by_cases hquery : (targetParts target).2 = ""
    · rw [if_pos hquery, hquery, hempty, hnone]
      simp
    · rw [if_neg hquery, foldlM_queryPair]
      cases (nameParameters (splitText '&' (targetParts target).2)).mapM percentDecode <;> simp
  · rw [if_pos hpath]
    exact iff_of_false (by simp) fun h => hpath h.1

/-- **Query decoding.** A value is read strictly unless it is accepted with an escape of a plus and a digit, every
percent-encoding is undone, and a target has the last of its names exactly if all of them can be decoded. -/
theorem query_decoding_iff (value target name : String) :
    ((∀ name, percentDecode value = some name ↔
        Escaped digitPair (utf8 value) ∧ fromUtf8 (unescape digitPair (utf8 value)) = some name) ↔
      ¬ (PlusEscape (utf8 value) ∧ Escaped hexPair (utf8 value) ∧
        (fromUtf8 (unescape hexPair (utf8 value))).isSome = true)) ∧
    (Encodes (utf8 name) (utf8 value) → percentDecode value = some name) ∧
    (queryName target = some name ↔ (targetParts target).1 = "/.well-known/nostr.json" ∧
      ∃ names, (nameParameters (splitText '&' (targetParts target).2)).mapM percentDecode = some names ∧
        names.getLast? = some name) :=
  ⟨percentDecode_strict_iff value, percentDecode_of_encodes, queryName_eq_some_iff target name⟩

/-- A plus is taken for a sign. -/
theorem plus_escape_accepted : percentDecode "%+f" = some "\x0f" ∧ ¬ Escaped digitPair (utf8 "%+f") := by
  refine ⟨by decide +kernel, fun h => ?_⟩
  apply not_plusEscape_of_escaped h
  exact ⟨[], 102, [], by decide +kernel, by decide +kernel⟩

end OmaChat.Server

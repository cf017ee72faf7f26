import OmaChat.Lib.Json
import OmaChat.Lib.Text

/-!
# The compact text determines the value

`render_inj`: two values with the same compact text are equal. Every part of the text says where it ends: an escape by its
first characters (`unescape`), a string by its quote, a number by the character behind its digits, an array and an object
by their brackets. `le_of_mem_utf8_render`: the text has no control byte, so it is one line.
-/

namespace Wire.Json

/-! ## Strings -/

/-- The character that an escape stands for, and what follows it. -/
def unescape : List Char → Option (Char × List Char)
  | [] => none
  | c :: rest =>
    if c ≠ '\\' then some (c, rest)
    else
      match rest with
      | 'b' :: rest => some (Char.ofNat 8, rest)
      | 't' :: rest => some (Char.ofNat 9, rest)
      | 'n' :: rest => some (Char.ofNat 10, rest)
      | 'f' :: rest => some (Char.ofNat 12, rest)
      | 'r' :: rest => some (Char.ofNat 13, rest)
      | 'u' :: _ :: _ :: hi :: lo :: rest => do
        let h ← hexValue hi
        let l ← hexValue lo
        some (Char.ofNat (16 * h + l), rest)
      | d :: rest => some (d, rest)
      | [] => none

theorem unescape_escapeChar (c : Char) (rest : List Char) : unescape (escapeChar c ++ rest) = some (c, rest) := by
  have hc : Char.ofNat c.toNat = c := Char.ofNat_toNat c
  unfold escapeChar
  split_ifs with hquote hslash h8 h9 h10 h12 h13 hctl
  · rw [hquote]; rfl
  · rw [hslash]; rfl
  · rw [← hc, h8]; rfl
  · rw [← hc, h9]; rfl
  · rw [← hc, h10]; rfl
  · rw [← hc, h12]; rfl
  · rw [← hc, h13]; rfl
  · have hn : 16 * (c.toNat / 16) + c.toNat % 16 = c.toNat := Nat.div_add_mod _ _
    show (do let h ← hexValue _; let l ← hexValue _; some (Char.ofNat (16 * h + l), rest)) = _
    rw [hexValue_hexDigit (by omega), hexValue_hexDigit (by omega)]
    simp [hn, hc]
  · exact if_pos hslash

theorem head?_escapeChar_ne (c : Char) : (escapeChar c).head? ≠ some '"' := by
  unfold escapeChar
  split_ifs with hquote
  any_goals simp
  exact hquote

variable {l l' x y : List Char} {c : Char} {a b : Json} {n : Nat}

theorem escaped_inj (h : l.flatMap escapeChar ++ '"' :: x = l'.flatMap escapeChar ++ '"' :: y) : l = l' ∧ x = y := by
  -- an escape never starts with the quote that ends the string
  have hends (c : Char) (rest : List Char) (z : List Char) : escapeChar c ++ rest ≠ '"' :: z := by
    intro heq
    apply head?_escapeChar_ne c
    cases hesc : escapeChar c with
    | nil =>
      have hb := (charBytes_escapeChar c).1
      rw [hesc] at hb
      exact absurd (Nat.le_zero.1 hb) (Char.utf8Size_pos c).ne'
    | cons d rest =>
      rw [hesc] at heq
      rw [(List.cons.inj heq).1]
      rfl
  induction l generalizing l' with
  | nil =>
    cases l' with
    | nil => exact ⟨rfl, (List.cons.inj h).2⟩
    | cons d l' =>
      rw [List.flatMap_cons, List.append_assoc] at h
      exact absurd h.symm (hends d _ _)
  | cons c l ih =>
    cases l' with
    | nil =>
      rw [List.flatMap_cons, List.append_assoc] at h
      exact absurd h (hends c _ _)
    | cons d l' =>
      rw [List.flatMap_cons, List.flatMap_cons, List.append_assoc, List.append_assoc] at h
      have hboth := congrArg unescape h
      rw [unescape_escapeChar, unescape_escapeChar, Option.some.injEq, Prod.mk.injEq] at hboth
      obtain ⟨hl, hxy⟩ := ih hboth.2
      exact ⟨by rw [hboth.1, hl], hxy⟩

theorem renderString_inj {s t : String} (h : renderString s ++ x = renderString t ++ y) : s = t ∧ x = y := by
  unfold renderString at h
  simp only [List.cons_append, List.append_assoc, List.cons.injEq, true_and] at h
  obtain ⟨hl, hxy⟩ := escaped_inj h
  exact ⟨String.toList_inj.1 hl, hxy⟩

/-! ## Numbers -/

def Stops (l : List Char) : Prop := ∀ c, l.head? = some c → c.isDigit = false

theorem stops_cons (h : c.isDigit = false) : Stops (c :: l) := by
  intro d hd
  rw [← Option.some.inj hd]
  exact h

theorem digits_inj (hl : ∀ c ∈ l, c.isDigit = true) (hl' : ∀ c ∈ l', c.isDigit = true)
    (hx : Stops x) (hy : Stops y) (h : l ++ x = l' ++ y) : l = l' ∧ x = y := by
  induction l generalizing l' with
  | nil =>
    cases l' with
    | nil => exact ⟨rfl, h⟩
    | cons d l' =>
      have hd := hx d (by rw [show x = d :: l' ++ y from h]; rfl)
      rw [hl' d List.mem_cons_self] at hd
      cases hd
  | cons c l ih =>
    cases l' with
    | nil =>
      have hc := hy c (by rw [show y = c :: l ++ x from h.symm]; rfl)
      rw [hl c List.mem_cons_self] at hc
      cases hc
    | cons d l' =>
      obtain ⟨hcd, hrest⟩ := List.cons.inj h
      obtain ⟨heq, hxy⟩ := ih (fun c hc => hl c (List.mem_cons_of_mem _ hc))
        (fun c hc => hl' c (List.mem_cons_of_mem _ hc)) hrest
      exact ⟨by rw [hcd, heq], hxy⟩

theorem num_inj {m : Nat} (hx : Stops x) (hy : Stops y)
    (h : Nat.toDigits 10 n ++ x = Nat.toDigits 10 m ++ y) : n = m ∧ x = y := by
  have hdig (k : Nat) : ∀ c ∈ Nat.toDigits 10 k, c.isDigit = true :=
    fun c hc => Nat.isDigit_of_mem_toDigits (by decide) le_rfl hc
  obtain ⟨hnm, hxy⟩ := digits_inj (hdig n) (hdig m) hx hy h
  refine ⟨?_, hxy⟩
  rw [← Nat.ofDigitChars_ten_toDigits (n := n), hnm, Nat.ofDigitChars_ten_toDigits]

/-! ## Values -/

/-- A value with the same constructor, and the same truth value. -/
def shape : Json → Json
  | .num _ => .num 0
  | .str _ => .str ""
  | .arr _ => .arr []
  | .obj _ => .obj []
  | a => a

/-- The shape that the first character of a text announces. -/
def shapeOf (c : Char) : Option Json :=
  if c = 'n' then some .null
  else if c = 't' then some (.bool true)
  else if c = 'f' then some (.bool false)
  else if c.isDigit then some (.num 0)
  else if c = '"' then some (.str "")
  else if c = '[' then some (.arr [])
  else if c = '\x7b' then some (.obj [])
  else none

theorem head?_renderChars (a : Json) : ∃ c, (renderChars a).head? = some c ∧ shapeOf c = some (shape a) := by
  cases a with
  | null => exact ⟨_, rfl, rfl⟩
  | bool b => cases b <;> exact ⟨_, rfl, rfl⟩
  | num n =>
    cases hdig : Nat.toDigits 10 n with
    | nil => exact absurd hdig Nat.toDigits_ne_nil
    | cons c rest =>
      have hc : c.isDigit = true := Nat.isDigit_of_mem_toDigits (by decide) le_rfl (hdig ▸ List.mem_cons_self)
      refine ⟨c, by rw [renderChars, hdig]; rfl, ?_⟩
      unfold shapeOf
      rw [if_neg (by rintro rfl; cases hc), if_neg (by rintro rfl; cases hc), if_neg (by rintro rfl; cases hc), if_pos hc]
      rfl
  | str s => exact ⟨_, by rw [renderChars, renderString]; rfl, rfl⟩
  | arr items => exact ⟨_, by rw [renderChars]; rfl, rfl⟩
  | obj fields => exact ⟨_, by rw [renderChars]; rfl, rfl⟩

theorem head?_append_renderChars (h : (renderChars a ++ x).head? = some c) : shapeOf c = some (shape a) := by
  obtain ⟨d, hd, hshape⟩ := head?_renderChars a
  rw [List.head?_append, hd] at h
  rw [← Option.some.inj h]
  exact hshape

theorem shape_eq (h : renderChars a ++ x = renderChars b ++ y) : shape a = shape b := by
  obtain ⟨c, hc, hshape⟩ := head?_renderChars a
  apply Option.some.inj
  rw [← hshape]
  apply head?_append_renderChars (x := y)
  rw [← h, List.head?_append, hc]
  rfl

theorem renderChars_ne_close (hc : shapeOf c = none) : renderChars a ++ x ≠ c :: y := by
  intro h
  cases hc.symm.trans (head?_append_renderChars (a := a) (x := x) (by rw [h]; rfl))

theorem renderItems_cons (a : Json) (rest : List Json) :
    renderItems (a :: rest) = renderChars a ++ (if rest = [] then [] else ',' :: renderItems rest) := by
  cases rest with
  | nil => simp [renderItems]
  | cons b rest => simp [renderItems]

theorem renderFields_cons (key : String) (a : Json) (rest : List (String × Json)) :
    renderFields ((key, a) :: rest) =
      renderString key ++ ':' :: (renderChars a ++ (if rest = [] then [] else ',' :: renderFields rest)) := by
  cases rest with
  | nil => simp [renderFields]
  | cons b rest => simp [renderFields]

theorem stops_rest {α : Type} {rest : List α} [Decidable (rest = [])]
    (hc : c.isDigit = false) : Stops ((if rest = [] then [] else ',' :: l) ++ c :: x) := by
  split_ifs
  · exact stops_cons hc
  · exact stops_cons (by decide)

-- the recursion is on the first value; what follows it is only known not to go on with a digit
mutual

theorem renderChars_inj : (a b : Json) → {x y : List Char} → Stops x → Stops y →
    renderChars a ++ x = renderChars b ++ y → a = b ∧ x = y
  | .null, b, x, y, _, _, h => by
    have hshape := shape_eq h
    cases b with
    | null => exact ⟨rfl, List.append_cancel_left h⟩
    | _ => cases hshape
  | .bool b₀, b, x, y, _, _, h => by
    have hshape := shape_eq h
    cases b with
    | bool b =>
      cases hshape
      exact ⟨rfl, List.append_cancel_left h⟩
    | _ => cases hshape
  | .num n, b, x, y, hx, hy, h => by
    have hshape := shape_eq h
    cases b with
    | num m =>
      obtain ⟨hnm, hxy⟩ := num_inj hx hy h
      exact ⟨by rw [hnm], hxy⟩
    | _ => cases hshape
  | .str s, b, x, y, _, _, h => by
    have hshape := shape_eq h
    cases b with
    | str t =>
      obtain ⟨hst, hxy⟩ := renderString_inj h
      exact ⟨by rw [hst], hxy⟩
    | _ => cases hshape
  | .arr items, b, x, y, _, _, h => by
    have hshape := shape_eq h
    cases b with
    | arr items' =>
      simp only [renderChars, List.cons_append, List.append_assoc, List.nil_append, List.cons.injEq, true_and] at h
      obtain ⟨hitems, hxy⟩ := renderItems_inj items items' h
      exact ⟨by rw [hitems], hxy⟩
    | _ => cases hshape
  | .obj fields, b, x, y, _, _, h => by
    have hshape := shape_eq h
    cases b with
    | obj fields' =>
      simp only [renderChars, List.cons_append, List.append_assoc, List.nil_append, List.cons.injEq, true_and] at h
      obtain ⟨hfields, hxy⟩ := renderFields_inj fields fields' h
      exact ⟨by rw [hfields], hxy⟩
    | _ => cases hshape

theorem renderItems_inj : (as bs : List Json) → {x y : List Char} →
    renderItems as ++ ']' :: x = renderItems bs ++ ']' :: y → as = bs ∧ x = y
  | [], [], x, y, h => ⟨rfl, (List.cons.inj h).2⟩
  | [], b :: bs, x, y, h => by
    rw [renderItems_cons, List.append_assoc] at h
    exact absurd h.symm (renderChars_ne_close (by decide))
  | a :: as, [], x, y, h => by
    rw [renderItems_cons, List.append_assoc] at h
    exact absurd h (renderChars_ne_close (by decide))
  | a :: as, b :: bs, x, y, h => by
    rw [renderItems_cons, renderItems_cons, List.append_assoc, List.append_assoc] at h
    obtain ⟨hab, hrest⟩ := renderChars_inj a b (stops_rest (by decide)) (stops_rest (by decide)) h
    split_ifs at hrest with has hbs hbs
    · exact ⟨by rw [hab, has, hbs], (List.cons.inj hrest).2⟩
    · exact absurd (List.cons.inj hrest).1 (by decide)
    · exact absurd (List.cons.inj hrest).1 (by decide)
    · obtain ⟨hitems, hxy⟩ := renderItems_inj as bs (List.cons.inj hrest).2
      exact ⟨by rw [hab, hitems], hxy⟩

theorem renderFields_inj : (as bs : List (String × Json)) → {x y : List Char} →
    renderFields as ++ '\x7d' :: x = renderFields bs ++ '\x7d' :: y → as = bs ∧ x = y
  | [], [], x, y, h => ⟨rfl, (List.cons.inj h).2⟩
  | [], (key, b) :: bs, x, y, h => by
    rw [renderFields_cons, renderString] at h
    exact absurd (List.cons.inj h).1 (by decide)
  | (key, a) :: as, [], x, y, h => by
    rw [renderFields_cons, renderString] at h
    exact absurd (List.cons.inj h).1 (by decide)
  | (key, a) :: as, (key', b) :: bs, x, y, h => by
    rw [renderFields_cons, renderFields_cons, List.append_assoc, List.append_assoc] at h
    obtain ⟨hkey, hv⟩ := renderString_inj h
    simp only [List.cons_append, List.append_assoc, List.cons.injEq, true_and] at hv
    obtain ⟨hab, hrest⟩ := renderChars_inj a b (stops_rest (by decide)) (stops_rest (by decide)) hv
    split_ifs at hrest with has hbs hbs
    · exact ⟨by rw [hkey, hab, has, hbs], (List.cons.inj hrest).2⟩
    · exact absurd (List.cons.inj hrest).1 (by decide)
    · exact absurd (List.cons.inj hrest).1 (by decide)
    · obtain ⟨hfields, hxy⟩ := renderFields_inj as bs (List.cons.inj hrest).2
      exact ⟨by rw [hkey, hab, hfields], hxy⟩

end

theorem render_inj (h : a.render = b.render) : a = b := by
  have hchars : renderChars a ++ [] = renderChars b ++ [] := by
    rw [List.append_nil, List.append_nil]
    exact String.ofList_injective h
  exact (renderChars_inj a b (by intro c hc; cases hc) (by intro c hc; cases hc) hchars).1

theorem toString_inj {k k' : Nat} (h : toString k = toString k') : k = k' := by
  have hrender : (Json.num k).render = (Json.num k').render := h
  cases render_inj hrender
  rfl

instance : DecidableEq Json := fun a b => decidable_of_iff (a.render = b.render) ⟨render_inj, congrArg render⟩

theorem reads_partialInv : Reads (Function.partialInv fun value : Json => utf8 value.render) := by
  intro value _
  exact Function.partialInv_left (fun _ _ h => render_inj (utf8_inj h)) value

/-! ## Printable -/

def Printable (l : List Char) : Prop := ∀ c ∈ l, 32 ≤ c.toNat

theorem Printable.append (h : Printable l) (h' : Printable l') : Printable (l ++ l') := List.forall_mem_append.2 ⟨h, h'⟩

theorem Printable.cons (hc : 32 ≤ c.toNat) (h : Printable l) : Printable (c :: l) := List.forall_mem_cons.2 ⟨hc, h⟩

theorem printable_nil : Printable [] := by
  intro c h
  cases h

theorem printable_hexDigit (h : n < 16) : 32 ≤ (hexDigit n).toNat := by
  revert h n
  decide

theorem printable_escapeChar (c : Char) : Printable (escapeChar c) := by
  unfold escapeChar
  split_ifs with h₁ h₂ h₃ h₄ h₅ h₆ h₇ hctl
  all_goals simp [Printable]
  · exact ⟨printable_hexDigit (by omega), printable_hexDigit (by omega)⟩
  · exact Nat.le_of_not_lt hctl

theorem printable_renderString (s : String) : Printable (renderString s) := by
  refine .append (.cons (by decide) fun c hc => ?_) (.cons (by decide) printable_nil)
  obtain ⟨d, -, hc⟩ := List.mem_flatMap.1 hc
  exact printable_escapeChar d c hc

mutual

theorem printable_renderChars : (a : Json) → Printable (renderChars a)
  | .null => by simp [Printable, renderChars]
  | .bool b => by cases b <;> simp [Printable, renderChars]
  | .num n => by
    intro c hc
    have hdig := Nat.isDigit_of_mem_toDigits (by decide) (by decide) hc
    simp only [Char.isDigit, Bool.and_eq_true, decide_eq_true_eq] at hdig
    exact Nat.le_trans (by decide) (UInt32.le_iff_toNat_le.1 hdig.1)
  | .str s => printable_renderString s
  | .arr items => .append (.cons (by decide) (printable_renderItems items)) (.cons (by decide) printable_nil)
  | .obj fields => .append (.cons (by decide) (printable_renderFields fields)) (.cons (by decide) printable_nil)

theorem printable_renderItems : (items : List Json) → Printable (renderItems items)
  | [] => printable_nil
  | a :: rest => by
    rw [renderItems_cons]
    refine (printable_renderChars a).append ?_
    split_ifs
    · exact printable_nil
    · exact .cons (by decide) (printable_renderItems rest)

theorem printable_renderFields : (fields : List (String × Json)) → Printable (renderFields fields)
  | [] => printable_nil
  | (key, a) :: rest => by
    rw [renderFields_cons]
    refine (printable_renderString key).append (.cons (by decide) ((printable_renderChars a).append ?_))
    split_ifs
    · exact printable_nil
    · exact .cons (by decide) (printable_renderFields rest)

end

theorem le_of_mem_utf8_render {value : Json} {b : UInt8} (h : b ∈ utf8 value.render) : 32 ≤ b.toNat := by
  rw [render, utf8_ofList, List.mem_flatMap] at h
  obtain ⟨c, hc, hb⟩ := h
  exact le_of_mem_utf8EncodeChar (printable_renderChars value c hc) hb

end Wire.Json

import OmaChat.Lib.JsonText

/-!
# Records from JSON values

How derived deserializers take a value apart. A record (`fields`) is an object with its fields in any order, without unknown
or repeated ones, or an array with their values in order; an enumeration with an inner tag (`tagged`) is an object with the
tag among its fields, or an array that begins with it.
-/

namespace Wire.Json

/-- A value whose numbers are 64-bit words and that is nested less deeply than the bound. -/
inductive IsText : Nat → Json → Prop where
  | null (depth : Nat) : IsText depth .null
  | bool (depth : Nat) (b : Bool) : IsText depth (.bool b)
  | num (depth : Nat) {n : Nat} : n < 2 ^ 64 → IsText depth (.num n)
  | str (depth : Nat) (s : String) : IsText depth (.str s)
  | arr {depth : Nat} {items : List Json} : (∀ item ∈ items, IsText depth item) → IsText (depth + 1) (.arr items)
  | obj {depth : Nat} {fields : List (String × Json)} : (∀ field ∈ fields, IsText depth field.2) →
      IsText (depth + 1) (.obj fields)

/-- A parser that reads values back from their compact text, with the fields of an object in the order of the text, unless
they are nested more than 127 times. -/
def ReadsText (fromSlice : List UInt8 → Option Json) : Prop :=
  ∀ value, IsText 127 value → fromSlice (utf8 value.render) = some value

theorem readsText_partialInv : ReadsText (Function.partialInv fun value : Json => utf8 value.render) := by
  intro value _
  exact Function.partialInv_left (fun a b h => render_inj (utf8_inj h)) value

theorem IsText.mono {depth depth' : Nat} {value : Json} (h : IsText depth value) (hle : depth ≤ depth') :
    IsText depth' value := by
  induction h generalizing depth' with
  | null => exact .null _
  | bool _ b => exact .bool _ b
  | num _ hn => exact .num _ hn
  | str _ s => exact .str _ s
  | arr _ ih =>
    obtain ⟨depth', rfl⟩ := Nat.exists_eq_add_of_lt hle
    exact .arr fun item hitem => ih item hitem (Nat.le_add_right _ _)
  | obj _ ih =>
    obtain ⟨depth', rfl⟩ := Nat.exists_eq_add_of_lt hle
    exact .obj fun field hf => ih field hf (Nat.le_add_right _ _)

/-! ## Records -/

def fields (names : List String) : Json → Option (List Json)
  | .obj entries =>
    if (∀ entry ∈ entries, entry.1 ∈ names) ∧ (entries.map Prod.fst).Nodup then
      names.mapM fun name => entries.lookup name
    else none
  | .arr items => if items.length = names.length then some items else none
  | _ => none

def tagged (tag : String) : Json → Option (String × Json)
  | .obj entries =>
    match entries.filter (·.1 = tag) with
    | [(_, .str name)] => some (name, .obj (entries.filter (·.1 ≠ tag)))
    | _ => none
  | .arr (.str name :: rest) => some (name, .arr rest)
  | _ => none

def u16 : Json → Option UInt16
  | .num n => if n < 2 ^ 16 then some (UInt16.ofNat n) else none
  | _ => none

def string : Json → Option String
  | .str s => some s
  | _ => none

/-- `Vec<T>` -/
def vec {α : Type} (item : Json → Option α) : Json → Option (List α)
  | .arr items => items.mapM item
  | _ => none

theorem u16_num (n : UInt16) : u16 (.num n.toNat) = some n := by
  rw [u16, if_pos n.toNat_lt, UInt16.ofNat_toNat]

theorem string_str (s : String) : string (.str s) = some s := rfl

variable {α : Type} {entries : List (String × Json)}

theorem mapM_map_eq_some {β γ : Type} {f : β → Option γ} {g : α → β} {h : α → γ} {l : List α}
    (hf : ∀ a ∈ l, f (g a) = some (h a)) : (l.map g).mapM f = some (l.map h) := by
  induction l with
  | nil => rfl
  | cons a l ih =>
    obtain ⟨ha, hl⟩ := List.forall_mem_cons.1 hf
    rw [List.map_cons, List.mapM_cons, ha, ih hl]
    rfl

theorem vec_arr {item : Json → Option α} {render : α → Json} (h : ∀ a, item (render a) = some a) (items : List α) :
    vec item (.arr (items.map render)) = some items := by
  rw [vec, mapM_map_eq_some fun a _ => h a, List.map_id']

theorem lookup_of_mem (hnames : (entries.map Prod.fst).Nodup) {entry : String × Json}
    (h : entry ∈ entries) : entries.lookup entry.1 = some entry.2 := by
  induction entries with
  | nil => cases h
  | cons first rest ih =>
    obtain ⟨hf, hrest⟩ := List.nodup_cons.1 hnames
    rcases List.mem_cons.1 h with rfl | h
    · exact List.lookup_cons_self
    · have hne : (entry.1 == first.1) = false := by
        rw [beq_eq_false_iff_ne]
        intro heq
        exact hf (heq ▸ List.mem_map_of_mem h)
      rw [List.lookup_cons, hne]
      exact ih hrest h

theorem fields_obj {names : List String} (hnames : names.Nodup)
    (h : entries.map Prod.fst = names) : fields names (.obj entries) = some (entries.map Prod.snd) := by
  subst h
  rw [fields, if_pos ⟨fun entry he => List.mem_map_of_mem he, hnames⟩]
  exact mapM_map_eq_some fun entry he => lookup_of_mem hnames he

end Wire.Json

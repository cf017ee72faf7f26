import Mathlib.Tactic

/-!
# Bounded maps that can be written as a whole

An ordered map with at most `capacity` keys that is kept such that `encode` succeeds on it. A record that makes the map too
long to encode is taken out again.

* `insertUnder` : a record for a key that has one is judged against it, and a new key needs room;
* `store_cases`, `insertUnder_cases` : what an insertion does. A refusal leaves the map as it was;
* `Outcome.fits`, `Outcome.grows` : the bounds hold after every insertion, and a measure of the records that the
  rule respects never falls;
* `Guarded` : the same over runs of insertions;
* `Submap`, `reload` : a map whose records are inserted again, in the order of their keys, comes back.
-/

open Std (ExtTreeMap TransOrd LawfulEqOrd)

namespace BoundedMap
variable {κ ρ ε α : Type} [Ord κ]

inductive Ruling (ε : Type) where
  | replace
  | keep
  | refuse (error : ε)

inductive Mutation where
  | stored
  | unchanged
  deriving DecidableEq

section Operations
variable [TransOrd κ] (encode : ExtTreeMap κ ρ → Except ε α)

/-- The record is stored, unless the map can then not be encoded: then the key gets back what it had. -/
def store (key : κ) (record : ρ) (records : ExtTreeMap κ ρ) : Except ε Mutation × ExtTreeMap κ ρ :=
  let stored := records.insert key record
  match encode stored with
  | .ok _ => (.ok .stored, stored)
  | .error error =>
    match records[key]? with
    | some previous => (.error error, stored.insert key previous)
    | none => (.error error, stored.erase key)

/-- The record is stored if the rule for its key says so, or if there is room for a new key. -/
def insertUnder (capacity : Nat) (full : ε) (rule : ρ → Ruling ε) (key : κ) (record : ρ) (records : ExtTreeMap κ ρ) :
    Except ε Mutation × ExtTreeMap κ ρ :=
  match records[key]? with
  | some current =>
    match rule current with
    | .refuse error => (.error error, records)
    | .keep => (.ok .unchanged, records)
    | .replace => store encode key record records
  | none => if capacity ≤ records.size then (.error full, records) else store encode key record records

end Operations

variable [TransOrd κ] [LawfulEqOrd κ] {encode : ExtTreeMap κ ρ → Except ε α} {capacity : Nat} {full : ε}
  {rule : ρ → Ruling ε} {key : κ} {record : ρ} {records : ExtTreeMap κ ρ}

theorem getElem?_insert_eq (records : ExtTreeMap κ ρ) (key k : κ) (record : ρ) [Decidable (key = k)] :
    (records.insert key record)[k]? = if key = k then some record else records[k]? := by
  rw [ExtTreeMap.getElem?_insert]
  simp only [Std.LawfulEqCmp.compare_eq_iff_eq]

theorem toList_singleton (key : κ) (record : ρ) : ((∅ : ExtTreeMap κ ρ).insert key record).toList = [(key, record)] := by
  have hlen : ((∅ : ExtTreeMap κ ρ).insert key record).toList.length = 1 := by
    rw [ExtTreeMap.length_toList, ExtTreeMap.size_insert]
    simp
  obtain ⟨entry, he⟩ := List.length_eq_one_iff.1 hlen
  have hmem : (key, record) ∈ ((∅ : ExtTreeMap κ ρ).insert key record).toList := by
    rw [ExtTreeMap.mem_toList_iff_getElem?_eq_some, ExtTreeMap.getElem?_insert_self]
  rw [he, List.mem_singleton] at hmem
  rw [he, hmem]

/-! ## What an insertion does -/

theorem insert_previous {previous : ρ} (h : records[key]? = some previous) :
    (records.insert key record).insert key previous = records := by
  classical
  apply ExtTreeMap.ext_getElem?
  intro k
  rw [getElem?_insert_eq, getElem?_insert_eq]
  split_ifs with hk
  · rw [← hk, h]
  · rfl

theorem erase_new (h : records[key]? = none) : (records.insert key record).erase key = records := by
  classical
  apply ExtTreeMap.ext_getElem?
  intro k
  rw [ExtTreeMap.getElem?_erase, getElem?_insert_eq]
  simp only [Std.LawfulEqCmp.compare_eq_iff_eq]
  split_ifs with hk
  · rw [← hk, h]
  · rfl

/-- **A record is stored, or the map is as it was.** -/
theorem store_cases (encode : ExtTreeMap κ ρ → Except ε α) (key : κ) (record : ρ) (records : ExtTreeMap κ ρ) :
    (∃ a, encode (records.insert key record) = .ok a ∧
      store encode key record records = (Except.ok Mutation.stored, records.insert key record)) ∨
    ∃ error, encode (records.insert key record) = .error error ∧
      store encode key record records = (Except.error error, records) := by
  unfold store
  cases henc : encode (records.insert key record) with
  | ok a => exact .inl ⟨a, rfl, by simp only [henc]⟩
  | error error =>
    refine .inr ⟨error, rfl, ?_⟩
    cases hprevious : records[key]? with
    | some previous => simp only [henc, insert_previous hprevious]
    | none => simp only [henc, erase_new hprevious]

inductive Outcome (encode : ExtTreeMap κ ρ → Except ε α) (capacity : Nat) (rule : ρ → Ruling ε) (key : κ) (record : ρ)
    (records : ExtTreeMap κ ρ) : Except ε Mutation × ExtTreeMap κ ρ → Prop where
  | refused (error : ε) : Outcome encode capacity rule key record records (Except.error error, records)
  | kept {current : ρ} : records[key]? = some current → rule current = .keep →
      Outcome encode capacity rule key record records (Except.ok Mutation.unchanged, records)
  | stored {a : α} : (∀ current, records[key]? = some current → rule current = .replace) →
      (records[key]? = none → records.size < capacity) → encode (records.insert key record) = .ok a →
      Outcome encode capacity rule key record records (Except.ok Mutation.stored, records.insert key record)

theorem outcome_store (hrule : ∀ current, records[key]? = some current → rule current = .replace)
    (hroom : records[key]? = none → records.size < capacity) :
    Outcome encode capacity rule key record records (store encode key record records) := by
  rcases store_cases encode key record records with ⟨a, henc, hstore⟩ | ⟨error, -, hstore⟩
  · rw [hstore]
    exact .stored hrule hroom henc
  · rw [hstore]
    exact .refused error

theorem insertUnder_cases : Outcome encode capacity rule key record records
    (insertUnder encode capacity full rule key record records) := by
  unfold insertUnder
  cases hcur : records[key]? with
  | some current =>
    dsimp only
    cases hrule : rule current with
    | refuse error => exact .refused error
    | keep => exact .kept hcur hrule
    | replace =>
      apply outcome_store
      · intro other ho
        rw [hcur] at ho
        cases ho
        exact hrule
      · intro hnone
        rw [hcur] at hnone
        cases hnone
  | none =>
    by_cases hfull : capacity ≤ records.size
    · dsimp only
      rw [if_pos hfull]
      exact .refused full
    · dsimp only
      rw [if_neg hfull]
      apply outcome_store
      · intro current hsome
        rw [hcur] at hsome
        cases hsome
      · intro _
        exact Nat.lt_of_not_le hfull

theorem insertUnder_new {a : α} (hnew : records[key]? = none) (hroom : records.size < capacity)
    (henc : encode (records.insert key record) = .ok a) :
    insertUnder encode capacity full rule key record records = (Except.ok Mutation.stored, records.insert key record) := by
  unfold insertUnder
  rw [hnew]
  dsimp only
  rw [if_neg (Nat.not_le.2 hroom)]
  rcases store_cases encode key record records with ⟨_, -, hstore⟩ | ⟨error, herr, -⟩
  · exact hstore
  · rw [henc] at herr
    cases herr

/-! ## What every insertion keeps -/

structure Fits (encode : ExtTreeMap κ ρ → Except ε α) (capacity : Nat) (records : ExtTreeMap κ ρ) : Prop where
  size : records.size ≤ capacity
  encodes : ∃ a, encode records = .ok a

variable {result : Except ε Mutation × ExtTreeMap κ ρ}

omit [LawfulEqOrd κ] in
theorem Outcome.unchanged {error : ε} (h : Outcome encode capacity rule key record records result)
    (herr : result.1 = .error error) : result.2 = records := by
  cases h with
  | refused error => rfl
  | kept hcur hrule => cases herr
  | stored hrule hroom henc => cases herr

omit [LawfulEqOrd κ] in
theorem Outcome.fits (h : Outcome encode capacity rule key record records result) (hfits : Fits encode capacity records) :
    Fits encode capacity result.2 := by
  cases h with
  | refused error => exact hfits
  | kept hcur hrule => exact hfits
  | @stored a hrule hroom henc =>
    refine ⟨?_, a, henc⟩
    show (records.insert key record).size ≤ capacity
    rw [ExtTreeMap.size_insert]
    split_ifs with hmem
    · exact hfits.size
    · apply hroom
      exact ExtTreeMap.getElem?_eq_none fun hkey => hmem (ExtTreeMap.contains_iff_mem.2 hkey)

variable {m m' : ExtTreeMap κ ρ} {k : κ}

theorem Outcome.grows {τ : Type} [Preorder τ] {measure : ρ → τ} (h : Outcome encode capacity rule key record records result)
    (hrule : ∀ current, rule current = .replace → measure current ≤ measure record) {current : ρ}
    (hcur : records[k]? = some current) : ∃ later, result.2[k]? = some later ∧ measure current ≤ measure later := by
  classical
  cases h with
  | refused error => exact ⟨current, hcur, le_refl _⟩
  | kept _ _ => exact ⟨current, hcur, le_refl _⟩
  | stored hrepl hroom henc =>
    dsimp only
    rw [getElem?_insert_eq]
    split_ifs with hkey
    · exact ⟨record, rfl, hrule current (hrepl current (by rw [hkey, hcur]))⟩
    · exact ⟨current, hcur, le_refl _⟩

/-- What holds of every record before an insertion and of the record that is inserted holds of every record after it. -/
theorem Outcome.all {P : κ → ρ → Prop} (h : Outcome encode capacity rule key record records result)
    (hrecs : ∀ (k : κ) (r : ρ), records[k]? = some r → P k r) (hrec : P key record) :
    ∀ (k : κ) (r : ρ), result.2[k]? = some r → P k r := by
  classical
  cases h with
  | refused error => exact hrecs
  | kept _ _ => exact hrecs
  | stored hrepl hroom henc =>
    intro k r hr
    dsimp only at hr
    rw [getElem?_insert_eq] at hr
    split_ifs at hr with hkey
    · cases hr
      exact hkey ▸ hrec
    · exact hrecs k r hr

/-! ## Runs of insertions -/

section
variable {σ ι τ : Type} [Preorder τ]

def inserts (insert : σ → ι → Except ε Mutation × σ) (start : σ) (insertions : List ι) : σ :=
  insertions.foldl (fun state insertion => (insert state insertion).2) start

/-- Every insertion is refused at once, or is one of a record with the property `P` by a rule that replaces no record by one
with less. -/
structure Guarded (encode : ExtTreeMap κ ρ → Except ε α) (capacity : Nat) (P : κ → ρ → Prop) (measure : ρ → τ)
    (view : σ → ExtTreeMap κ ρ) (insert : σ → ι → Except ε Mutation × σ) : Prop where
  view_injective : Function.Injective view
  step : ∀ state insertion, (∃ error, insert state insertion = (.error error, state)) ∨
    ∃ (key : κ) (record : ρ) (rule : ρ → Ruling ε), P key record ∧
      (∀ current, rule current = .replace → measure current ≤ measure record) ∧
      Outcome encode capacity rule key record (view state) ((insert state insertion).1, view (insert state insertion).2)

variable {P : κ → ρ → Prop} {measure : ρ → τ} {view : σ → ExtTreeMap κ ρ} 
  {insert : σ → ι → Except ε Mutation × σ}

omit [LawfulEqOrd κ] in
theorem Guarded.unchanged (h : Guarded encode capacity P measure view insert) {state : σ} {insertion : ι} {error : ε}
    (herr : (insert state insertion).1 = .error error) : (insert state insertion).2 = state := by
  rcases h.step state insertion with ⟨error', heq⟩ | ⟨key, record, rule, -, -, hout⟩
  · rw [heq]
  · exact h.view_injective (hout.unchanged herr)

variable {start : σ}

omit [LawfulEqOrd κ] in
theorem Guarded.fits (h : Guarded encode capacity P measure view insert) (hst : Fits encode capacity (view start))
    (insertions : List ι) : Fits encode capacity (view (inserts insert start insertions)) := by
  induction insertions generalizing start with
  | nil => exact hst
  | cons insertion rest ih =>
    rw [inserts, List.foldl_cons]
    apply ih
    rcases h.step start insertion with ⟨error, heq⟩ | ⟨key, record, rule, -, -, hout⟩
    · rw [heq]
      exact hst
    · exact hout.fits hst

theorem Guarded.all (h : Guarded encode capacity P measure view insert)
    (hst : ∀ (k : κ) (r : ρ), (view start)[k]? = some r → P k r) (insertions : List ι) :
    ∀ (k : κ) (r : ρ), (view (inserts insert start insertions))[k]? = some r → P k r := by
  induction insertions generalizing start with
  | nil => exact hst
  | cons insertion rest ih =>
    rw [inserts, List.foldl_cons]
    apply ih
    rcases h.step start insertion with ⟨error, heq⟩ | ⟨key, record, rule, hrec, -, hout⟩
    · rw [heq]
      exact hst
    · exact hout.all hst hrec

theorem Guarded.grows (h : Guarded encode capacity P measure view insert) {current : ρ}
    (hcur : (view start)[k]? = some current) (insertions : List ι) :
    ∃ later, (view (inserts insert start insertions))[k]? = some later ∧ measure current ≤ measure later := by
  induction insertions generalizing start current with
  | nil => exact ⟨current, hcur, le_refl _⟩
  | cons insertion rest ih =>
    rw [inserts, List.foldl_cons]
    rcases h.step start insertion with ⟨error, heq⟩ | ⟨key, record, rule, -, hrule, hout⟩
    · rw [heq]
      exact ih hcur
    · obtain ⟨next, hnext, hle⟩ := hout.grows hrule hcur
      obtain ⟨later, hl, hle'⟩ := ih hnext
      exact ⟨later, hl, le_trans hle hle'⟩

end

/-! ## Inserting the records again -/

def Submap (m m' : ExtTreeMap κ ρ) : Prop := ∀ (k : κ) (r : ρ), m[k]? = some r → m'[k]? = some r

theorem Submap.subperm (h : Submap m m') : m.toList.Subperm m'.toList := by
  apply List.subperm_of_subset
  · exact ExtTreeMap.distinct_keys_toList.imp fun hne heq => hne (by rw [heq]; exact Std.ReflOrd.compare_self)
  · rintro ⟨k, r⟩ he
    exact ExtTreeMap.mem_toList_iff_getElem?_eq_some.2 (h k r (ExtTreeMap.mem_toList_iff_getElem?_eq_some.1 he))

theorem Submap.size_le (h : Submap m m') : m.size ≤ m'.size := by
  rw [← ExtTreeMap.length_toList, ← ExtTreeMap.length_toList]
  exact h.subperm.length_le

def Holds (entries : List (κ × ρ)) (m : ExtTreeMap κ ρ) : Prop :=
  ∀ (k : κ) (r : ρ), m[k]? = some r ↔ (k, r) ∈ entries

theorem Holds.insert {before : List (κ × ρ)} {r : ρ} (h : Holds before m)
    (hnew : ∀ entry ∈ before, entry.1 ≠ k) : m[k]? = none ∧ Holds (before ++ [(k, r)]) (m.insert k r) := by
  classical
  constructor
  · by_contra hsome
    obtain ⟨r', hr'⟩ := Option.ne_none_iff_exists'.1 hsome
    exact hnew _ ((h k r').1 hr') rfl
  · intro k' r'
    rw [getElem?_insert_eq, List.mem_append, List.mem_singleton, Prod.mk.injEq, ← h k' r']
    split_ifs with hkey
    · subst hkey
      constructor
      · intro hr
        cases hr
        exact .inr ⟨rfl, rfl⟩
      · rintro (hr | ⟨-, rfl⟩)
        · exact absurd rfl (hnew _ ((h k r').1 hr))
        · rfl
    · constructor
      · exact .inl
      · rintro (hr | ⟨heq, -⟩)
        · exact hr
        · exact absurd heq.symm hkey

/-- **A map comes back** when its entries are inserted one after the other, by a step that stores an entry whenever its key
is new and the map with it is a part of the whole. -/
theorem reload {σ : Type} {mk : ExtTreeMap κ ρ → σ} {step : σ → κ × ρ → Except ε σ} (records : ExtTreeMap κ ρ)
    (hstep : ∀ m k r, records[k]? = some r → m[k]? = none → Submap (m.insert k r) records →
      step (mk m) (k, r) = .ok (mk (m.insert k r))) :
    ∀ before after m, records.toList = before ++ after → Holds before m → after.foldlM step (mk m) = .ok (mk records) := by
  intro before after
  induction after generalizing before with
  | nil =>
    intro m hsplit hholds
    have hm : m = records := by
      apply ExtTreeMap.ext_getElem?
      intro k
      apply Option.ext
      intro r
      rw [hholds k r, ← ExtTreeMap.mem_toList_iff_getElem?_eq_some, hsplit, List.append_nil]
    rw [hm]
    rfl
  | cons entry after ih =>
    intro m hsplit hholds
    obtain ⟨k, r⟩ := entry
    have hsplit' : records.toList = (before ++ [(k, r)]) ++ after := by rw [hsplit, List.append_assoc, List.singleton_append]
    have hmem : records[k]? = some r := by
      rw [← ExtTreeMap.mem_toList_iff_getElem?_eq_some, hsplit]
      simp
    have hnew : ∀ entry ∈ before, entry.1 ≠ k := by
      have hdist := ExtTreeMap.distinct_keys_toList (t := records)
      rw [hsplit] at hdist
      intro entry he heq
      exact (List.pairwise_append.1 hdist).2.2 entry he (k, r) List.mem_cons_self
        (by rw [heq]; exact Std.ReflOrd.compare_self)
    obtain ⟨hnone, hholds'⟩ := hholds.insert (r := r) hnew
    have hsub : Submap (m.insert k r) records := by
      intro k' r' hr'
      rw [← ExtTreeMap.mem_toList_iff_getElem?_eq_some, hsplit']
      exact List.mem_append_left _ ((hholds' k' r').1 hr')
    rw [List.foldlM_cons, hstep m k r hmem hnone hsub]
    exact ih _ _ hsplit' hholds'

omit [LawfulEqOrd κ] in
theorem holds_empty : Holds [] (∅ : ExtTreeMap κ ρ) := by
  intro k r
  simp

end BoundedMap

import Mathlib.Tactic

/-!
# A record on disk and its copy in memory

`Disk V` is one record of a store that seals what it keeps: it may be absent, intact, no longer authentic, or authentic and
not parsable. Beside the record it carries what its owner has been told of it: the value of the last write or read that
succeeded, and of the last one that was tried; and what became of each write since the record was last read. A write may
fail before the record is replaced, or after it.

`Mirror V` is a list in memory that is loaded from such a record once and saved to it after every change.

* `Mirror.Step.tracks` : the list in memory is always the one that was last tried;
* `Mirror.Step.follows` : so it is the one last saved as long as writes succeed, and the first that fails sets them apart;
* `Mirror.Step.kept`, `Mirror.Step.lacks` : the record is the one that was read until a write replaces it, and then has
  nothing that was not in memory.
-/

namespace Durable

inductive Condition where
  | readable
  | unauthentic
  | malformed
  deriving DecidableEq

/-- A sealed record: the value that was written, and what has become of it. -/
structure Sealed (V : Type) where
  value : V
  condition : Condition

/-- What became of a write; one that fails late has replaced the record. -/
inductive Outcome where
  | ok
  | failed
  | failedLate
  deriving DecidableEq

structure Disk (V : Type) where
  stored : Option (Sealed V)
  saved : Option V
  attempted : Option V
  outcomes : List Outcome

variable {V ε : Type}

/-- `Reads absent d r d'` : a read of the record `d` can be answered `r`. The answer is an error, or a value that does not
parse (`ok none`), or the value; only an error `e` with `absent e` tells that there is no record. -/
inductive Reads (absent : ε → Prop) : Disk V → Except ε (Option V) → Disk V → Prop where
  | value {d : Disk V} {v : V} : d.stored = some ⟨v, .readable⟩ →
      Reads absent d (.ok (some v)) { d with saved := some v, attempted := some v, outcomes := [] }
  | malformed {d : Disk V} {v : V} : d.stored = some ⟨v, .malformed⟩ →
      Reads absent d (.ok none) { d with saved := none, attempted := none, outcomes := [] }
  | error {d : Disk V} {e : ε} : (absent e → d.stored = none) →
      Reads absent d (.error e) { d with saved := none, attempted := none, outcomes := [] }

/-- `Writes d v r d'` : a write of `v` to the record `d` can be answered `r`. -/
inductive Writes : Disk V → V → Except ε Unit → Disk V → Prop where
  | ok (d : Disk V) (v : V) : Writes d v (.ok ()) ⟨some ⟨v, .readable⟩, some v, some v, d.outcomes ++ [.ok]⟩
  | before (d : Disk V) (v : V) (e : ε) :
      Writes d v (.error e) { d with attempted := some v, outcomes := d.outcomes ++ [.failed] }
  | after (d : Disk V) (v : V) (e : ε) :
      Writes d v (.error e) ⟨some ⟨v, .readable⟩, d.saved, some v, d.outcomes ++ [.failedLate]⟩

/-- The last write, if there was one, succeeded. -/
def Disk.LastOk (d : Disk V) : Prop := ∀ o ∈ d.outcomes.getLast?, o = .ok

/-- The last write is the only one that failed. -/
def Disk.FirstFailure (d : Disk V) : Prop := ¬ d.LastOk ∧ ∀ o ∈ d.outcomes.dropLast, o = .ok

/-- Every write failed before it replaced the record. -/
def Disk.Unreplaced (d : Disk V) : Prop := ∀ o ∈ d.outcomes, o = .failed

variable {d d' : Disk V} {absent : ε → Prop} {r : Except ε (Option V)} {v : V}

section
variable (h : Reads absent d r d')
include h

theorem Reads.saved_eq : d'.saved = r.toOption.join := by
  cases h <;> rfl

theorem Reads.attempted_eq : d'.attempted = d'.saved := by
  cases h <;> rfl

theorem Reads.outcomes : d'.outcomes = [] := by
  cases h <;> rfl

theorem Reads.stored : d'.stored = d.stored := by
  cases h <;> rfl

theorem Reads.answer : (∃ v, r.toOption.join = some v ∧ d.stored = some ⟨v, .readable⟩) ∨ r.toOption.join = none := by
  cases h with
  | value hd => exact .inl ⟨_, rfl, hd⟩
  | malformed => exact .inr rfl
  | error => exact .inr rfl

end

section
variable {r : Except ε Unit} (h : Writes d v r d')
include h

theorem Writes.attempted : d'.attempted = some v := by
  cases h <;> rfl

theorem Writes.stored : d'.stored = d.stored ∨ d'.stored = some ⟨v, .readable⟩ := by
  cases h with
  | ok => exact .inr rfl
  | before => exact .inl rfl
  | after => exact .inr rfl

theorem Writes.stored_ok (hr : r = .ok ()) : d'.stored = some ⟨v, .readable⟩ := by
  subst hr
  cases h
  rfl

end

/-! ## Lists in memory -/

structure Mirror (V : Type) where
  memory : List V
  disk : Disk (List V)

namespace Mirror

/-- The list last saved or loaded; nothing could be loaded is the empty list. -/
def saved (m : Mirror V) : List V := m.disk.saved.getD []

def attempted (m : Mirror V) : List V := m.disk.attempted.getD []

/-- The owner makes `l` the list in memory and then tries to save it. -/
structure Saves (l : List V) (r : Except ε Unit) (m m' : Mirror V) : Prop where
  memory : m'.memory = l
  writes : Writes m.disk l r m'.disk

/-- The owner loads the list, and has the empty list if that fails. -/
structure Loads (absent : ε → Prop) (r : Except ε (Option (List V))) (m m' : Mirror V) : Prop where
  memory : m'.memory = m'.saved
  reads : Reads absent m.disk r m'.disk

variable {m m' : Mirror V} {absent : ε → Prop} {r : Except ε (Option (List V))} {l : List V} {P : List V → Prop}

theorem loads_of_reads
    (h : Reads absent m.disk r m'.disk) (hm : m'.memory = r.toOption.join.getD []) : Loads absent r m m' := by
  refine ⟨?_, h⟩
  rw [hm, saved, h.saved_eq]

def Tracks (m : Mirror V) : Prop := m.memory = m.attempted

theorem Saves.tracks {r : Except ε Unit} (h : Saves l r m m') : m'.Tracks := by
  rw [Tracks, attempted, h.writes.attempted, h.memory]
  rfl

theorem Loads.tracks (h : Loads absent r m m') : m'.Tracks := by
  rw [Tracks, h.memory, attempted, h.reads.attempted_eq]
  rfl

theorem Loads.blank (h : Loads absent r m m') (hsaved : m'.disk.saved = none) :
    m'.memory = [] ∧ m'.disk.stored = m.disk.stored := by
  refine ⟨?_, h.reads.stored⟩
  rw [h.memory, saved, hsaved]
  rfl

/-- The list in memory and the one on disk have the property `P`. -/
structure All (P : List V → Prop) (m : Mirror V) : Prop where
  memory : P m.memory
  stored : ∀ s, m.disk.stored = some s → P s.value

theorem Saves.all {r : Except ε Unit} (h : Saves l r m m') (hm : m.All P) (hl : P l) : m'.All P := by
  refine ⟨by rw [h.memory]; exact hl, fun s hs => ?_⟩
  rcases h.writes.stored with hd | hd
  · exact hm.stored s (hd ▸ hs)
  · rw [hd, Option.some.injEq] at hs
    rw [← hs]
    exact hl

theorem Loads.all (h : Loads absent r m m') (hm : m.All P) (hnil : P []) : m'.All P := by
  refine ⟨?_, fun s hs => hm.stored s (h.reads.stored ▸ hs)⟩
  rw [h.memory, saved, h.reads.saved_eq]
  rcases h.reads.answer with ⟨v, hv, hd⟩ | hv
  · rw [hv]
    exact hm.stored _ hd
  · rw [hv]
    exact hnil

def Holds (entries : List V) (m : Mirror V) : Prop := ∃ s, m.disk.stored = some s ∧ ∀ x ∈ entries, x ∈ s.value

/-! ## What an owner does -/

/-- An owner does nothing to its list, or loads it, or makes and saves a change; `Room l` tells that every change of `l`
is another list. -/
inductive Step (absent : ε → Prop) (Room : List V → Prop) (starts : Prop) (m m' : Mirror V) : Prop where
  | same (h : m' = m)
  | loads (h : starts) (r : Except ε (Option (List V))) (hl : Loads absent r m m')
  | saves (l : List V) (r : Except ε Unit) (hl : Room m.memory → l ≠ m.memory) (hs : Saves l r m m')

/-- The list in memory is the one last saved if the last write succeeded, and another one if that was the first to fail. -/
structure Follows (Room : List V → Prop) (m : Mirror V) : Prop where
  agrees : m.disk.LastOk → m.memory = m.saved
  differs : m.disk.FirstFailure → Room m.saved → m.memory ≠ m.saved

variable {Room : List V → Prop}

theorem Loads.follows (h : Loads absent r m m') : m'.Follows Room := by
  refine ⟨fun _ => h.memory, fun hfails => absurd ?_ hfails.1⟩
  simp [Disk.LastOk, h.reads.outcomes]

theorem Saves.follows {r : Except ε Unit} (h : Saves l r m m') (hl : Room m.memory → l ≠ m.memory)
    (hm : m.Follows Room) : m'.Follows Room := by
  obtain ⟨memory, d⟩ := m'
  obtain ⟨hmemory, hwrites⟩ := h
  obtain rfl : memory = l := hmemory
  dsimp only at hwrites
  -- A write that fails leaves the list last saved, which was the one in memory if no earlier write had failed.
  have hfailed {d' : Disk (List V)} {o : Outcome} (ho : o ≠ .ok) (houtcomes : d'.outcomes = m.disk.outcomes ++ [o])
      (hsaved : d'.saved = m.disk.saved) : Follows Room ⟨memory, d'⟩ := by
    refine ⟨fun hlast => absurd (by simpa [Disk.LastOk, houtcomes] using hlast) ho, fun hfails hroom => ?_⟩
    have hok : ∀ x ∈ m.disk.outcomes, x = .ok := by simpa [houtcomes] using hfails.2
    have hbefore : m.memory = m.saved := hm.agrees fun x hx => hok x (List.mem_of_getLast? hx)
    have hsame : saved ⟨memory, d'⟩ = m.memory := by rw [hbefore, saved, saved, hsaved]
    rw [hsame] at hroom ⊢
    exact hl hroom
  cases hwrites with
  | ok => exact ⟨fun _ => rfl, fun hfails => absurd (by simp [Disk.LastOk]) hfails.1⟩
  | before => exact hfailed (by decide) rfl rfl
  | after => exact hfailed (by decide) rfl rfl

section
variable {Room : List V → Prop} {starts : Prop} (h : Step absent Room starts m m')
include h

theorem Step.tracks (hm : m.Tracks) : m'.Tracks := by
  cases h with
  | same h => rwa [h]
  | loads _ _ hl => exact hl.tracks
  | saves _ _ _ hs => exact hs.tracks

theorem Step.follows (hm : m.Follows Room) : m'.Follows Room := by
  cases h with
  | same h => rwa [h]
  | loads _ _ hl => exact hl.follows
  | saves _ _ hl hs => exact hs.follows hl hm

theorem Step.kept (hgoes : ¬ starts) {s : Sealed (List V)} (hm : m.disk.Unreplaced → m.disk.stored = some s) :
    m'.disk.Unreplaced → m'.disk.stored = some s := by
  cases h with
  | same h => rwa [h]
  | loads h => exact absurd h hgoes
  | saves _ _ _ hs =>
    intro hall
    cases hd : m'.disk
    have hw := hs.writes
    rw [hd] at hw hall
    cases hw with
    | ok => cases hall .ok (by simp)
    | before => exact hm fun o ho => hall o (List.mem_append_left _ ho)
    | after => cases hall .failedLate (by simp)

theorem Step.lacks (hgoes : ¬ starts) {x : V} (hx : x ∉ m'.memory)
    (hm : ¬ m.disk.Unreplaced → ∀ s, m.disk.stored = some s → x ∉ s.value) :
    ¬ m'.disk.Unreplaced → ∀ s, m'.disk.stored = some s → x ∉ s.value := by
  cases h with
  | same h => rwa [h]
  | loads h => exact absurd h hgoes
  | saves _ _ _ hs =>
    intro hreplaced s hsto
    rw [hs.memory] at hx
    rcases hd : m'.disk with ⟨stored, sv, att, outs⟩
    have hw := hs.writes
    rw [hd] at hw hreplaced hsto
    cases hw with
    | before =>
      refine hm (fun hall => hreplaced fun o ho => ?_) s hsto
      rcases List.mem_append.1 ho with ho | ho
      · exact hall o ho
      · exact List.mem_singleton.1 ho
    | ok => exact Option.some.inj hsto ▸ hx
    | after => exact Option.some.inj hsto ▸ hx

end

end Mirror

end Durable

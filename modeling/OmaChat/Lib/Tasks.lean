import OmaChat.Lib.Method

/-!
# Tasks that share a world

Tasks are programs that run side by side: a step of the system answers one call of one task, so the calls of different
tasks interleave in every way.

* `Prog.Obeys P Q p g` : by the protocol `P`, a program that knows `g` makes only calls that it may, learns from the
  answers, and returns what its knowledge then allows. `Method.obeys_bind` and the lemmas beside it compute it, and
  `Prog.Obeys.may` says what it means for the calls along a log;
* `Method.Yields P m s g R` : a method that obeys and, if it returns a value, ends in a state where `R` holds of it;
* `Method.Holds P I m` : a method that may make all its calls while it knows `I`, and goes on knowing `I`;
* `Tasks.Step` : one step of the tasks;
* `Tasks.Step.sound` : if a call keeps what the other tasks know, and gives its own task what that learns, then what the
  tasks know is so throughout.
-/

namespace Effects
open Function (update update_idem update_self)

variable {E α γ ω : Type}

/-! ## What a program knows -/

/-- What a program knows at its start, which calls its knowledge allows, and what it learns from an answer. -/
structure Protocol {E : Type} (R : E → Type) (γ : Type) where
  start : γ
  may : γ → E → Prop
  learn : γ → (e : E) → R e → γ

section Obeys
variable {R : E → Type} {β σ ε ε' : Type} {P : Protocol R γ}

/-- A program that knows `g` makes only calls that it may, and returns what it knows enough for. -/
def Prog.Obeys (P : Protocol R γ) (Q : γ → α → Prop) : Prog R α → γ → Prop
  | .ret a, g => Q g a
  | .call e next, g => P.may g e ∧ ∀ r, (next r).Obeys P Q (P.learn g e r)

variable {p q : Prog R α} {g : γ} {Q : γ → α → Prop} {log : List (Sigma R)} {a : α}

theorem Prog.obeys_bind {Q : γ → β → Prop} {f : α → Prog R β} :
    (p.bind f).Obeys P Q g ↔ p.Obeys P (fun g a => (f a).Obeys P Q g) g := by
  induction p generalizing g with
  | ret a => rfl
  | call e next ih => simp only [Prog.bind, Prog.Obeys, ih]

theorem Prog.Obeys.mono {Q' : γ → α → Prop} (h : p.Obeys P Q g) (hQ : ∀ g a, Q g a → Q' g a) : p.Obeys P Q' g := by
  induction p generalizing g with
  | ret a => exact hQ g a h
  | call e next ih => exact ⟨h.1, fun r => ih r (h.2 r)⟩

def Protocol.learnAll (P : Protocol R γ) (g : γ) (log : List (Sigma R)) : γ := log.foldl (fun g x => P.learn g x.1 x.2) g

theorem Prog.Obeys.after (hq : p.After log q) (h : p.Obeys P Q g) : q.Obeys P Q (P.learnAll g log) := by
  induction hq generalizing g with
  | nil p => exact h
  | cons _ ih => exact ih (h.2 _)

theorem Prog.Obeys.learned {I : γ → Prop}
    (h : p.Obeys P Q g) (hq : p.After log q) (hI : ∀ g e r, P.may g e → I g → I (P.learn g e r)) (hg : I g) :
    I (P.learnAll g log) := by
  induction hq generalizing g with
  | nil p => exact hg
  | cons _ ih => exact ih (h.2 _) (hI _ _ _ h.1 hg)

theorem Prog.Obeys.may {e : E} (he : p.Calls log e) (h : p.Obeys P Q g) : P.may (P.learnAll g log) e := by
  obtain ⟨next, hnext⟩ := he
  exact (h.after hnext).1

/-- A program that obeys one protocol obeys another that allows as much, as long as what it knows by the two goes together. -/
theorem Prog.Obeys.transfer {γ' : Type} {P' : Protocol R γ'} {K : γ → γ' → Prop}
    (hmay : ∀ g g' e, K g g' → P.may g e → P'.may g' e ∧ ∀ r, K (P.learn g e r) (P'.learn g' e r))
    {g' : γ'} (h : p.Obeys P Q g) (hg : K g g') :
    p.Obeys P' (fun g' a => ∃ g, K g g' ∧ Q g a) g' := by
  induction p generalizing g g' with
  | ret a => exact ⟨g, hg, h⟩
  | call e next ih =>
    obtain ⟨hcall, hlearn⟩ := hmay g g' e hg h.1
    exact ⟨hcall, fun r => ih r (h.2 r) (hlearn r)⟩

variable {step : Answering R ω} {w w' : ω}

theorem Prog.Obeys.exec {K : γ → ω → Prop}
    (hstep : ∀ g e w r w', P.may g e → K g w → step e w r w' → K (P.learn g e r) w')
    (hexec : p.Exec step w a w') (h : p.Obeys P Q g) (hg : K g w) :
    ∃ g', Q g' a ∧ K g' w' := by
  induction hexec generalizing g with
  | ret a w => exact ⟨g, h, hg⟩
  | call hs _ ih => exact ih (h.2 _) (hstep _ _ _ _ _ h.1 hg hs)

namespace Method

/-- A method on the state `s` obeys, with an outcome and a state that `Q` allows. It is irreducible, or else the elaborator
would run the method. -/
@[irreducible] def Obeys (P : Protocol R γ) (m : Method R σ ε α) (s : σ) (g : γ)
    (Q : γ → Except ε α → σ → Prop) : Prop :=
  (m s).Obeys P (fun g y => Q g y.1 y.2) g

variable {s : σ} {g : γ} {m : Method R σ ε α} {Q : γ → Except ε α → σ → Prop} {e : E}

theorem obeys_iff : m.Obeys P s g Q ↔ (m s).Obeys P (fun g y => Q g y.1 y.2) g := by
  unfold Obeys
  rfl

theorem Obeys.mono {Q' : γ → Except ε α → σ → Prop} (h : m.Obeys P s g Q)
    (hQ : ∀ g x s, Q g x s → Q' g x s) : m.Obeys P s g Q' := by
  rw [obeys_iff] at h ⊢
  exact Prog.Obeys.mono h fun g y => hQ g y.1 y.2

@[simp] theorem obeys_pure : (pure a : Method R σ ε α).Obeys P s g Q ↔ Q g (.ok a) s := obeys_iff

@[simp] theorem obeys_throw {e : ε} : (throw e : Method R σ ε α).Obeys P s g Q ↔ Q g (.error e) s := obeys_iff

@[simp] theorem obeys_modify {f : σ → σ} {Q : γ → Except ε Unit → σ → Prop} :
    (modify f : Method R σ ε Unit).Obeys P s g Q ↔ Q g (.ok ()) (f s) := obeys_iff

@[simp] theorem obeys_get {Q : γ → Except ε σ → σ → Prop} : (get : Method R σ ε σ).Obeys P s g Q ↔
    Q g (.ok s) s := obeys_iff

@[simp] theorem obeys_ofExcept {x : Except ε α} : (ofExcept x : Method R σ ε α).Obeys P s g Q ↔ Q g x s := by
  cases x with
  | ok a => exact obeys_pure
  | error e => exact obeys_throw

@[simp] theorem obeys_request {Q : γ → Except ε (R e) → σ → Prop} :
    (request e : Method R σ ε (R e)).Obeys P s g Q ↔ P.may g e ∧ ∀ r, Q (P.learn g e r) (.ok r) s := obeys_iff

@[simp] theorem obeys_bind {f : α → Method R σ ε β} {Q : γ → Except ε β → σ → Prop} :
    (m >>= f).Obeys P s g Q ↔ m.Obeys P s g fun g x s => match x with
      | .ok a => (f a).Obeys P s g Q
      | .error e => Q g (.error e) s := by
  rw [obeys_iff, obeys_iff]
  refine Prog.obeys_bind.trans (iff_of_eq (congrArg (fun Q => (m s).Obeys P Q g) ?_))
  funext g y
  rcases y with ⟨e | a, s⟩
  · rfl
  · exact propext obeys_iff.symm

theorem obeys_request_bind {f : R e → Method R σ ε β} {Q : γ → Except ε β → σ → Prop} :
    (request e >>= f).Obeys P s g Q ↔ P.may g e ∧ ∀ r, (f r).Obeys P s (P.learn g e r) Q := by
  rw [obeys_bind, obeys_request]

@[simp] theorem obeys_mapError {f : ε → ε'} {Q : γ → Except ε' α → σ → Prop} :
    (m.mapError f).Obeys P s g Q ↔ m.Obeys P s g fun g x s => Q g (x.mapError f) s := by
  rw [obeys_iff, obeys_iff]
  refine Prog.obeys_bind.trans (iff_of_eq (congrArg (fun Q => (m s).Obeys P Q g) ?_))
  funext g y
  rcases y with ⟨_ | _, _⟩ <;> rfl

@[simp] theorem obeys_attempt {Q : γ → Except ε' (Except ε α) → σ → Prop} :
    (m.attempt : Method R σ ε' (Except ε α)).Obeys P s g Q ↔ m.Obeys P s g fun g x s => Q g (.ok x) s := by
  rw [obeys_iff, obeys_iff]
  exact Prog.obeys_bind

/-- Run a method as a task of its own, which returns what `f` makes of the outcome. -/
def task (m : Method R σ ε α) (s : σ) (f : Except ε α → β) : Prog R β := (m s).bind fun y => .ret (f y.1)

theorem obeys_task {f : Except ε α → β} {Q : γ → β → Prop} :
    (m.task s f).Obeys P Q g ↔ m.Obeys P s g fun g x _ => Q g (f x) := by
  rw [obeys_iff]
  exact Prog.obeys_bind

/-- A method on the state `s` obeys, and if it returns a value then one that `Q` allows. It is irreducible, or else the
elaborator would run the method. -/
@[irreducible] def Yields (P : Protocol R γ) (m : Method R σ ε α) (s : σ) (g : γ) (Q : γ → α → σ → Prop) : Prop :=
  m.Obeys P s g fun g x s => ∀ a, x = .ok a → Q g a s

section Yields

variable {Q : γ → α → σ → Prop} {m : Method R σ ε α}

theorem Yields.mono {Q' : γ → α → σ → Prop} (h : m.Yields P s g Q) (hQ : ∀ g a s, Q g a s → Q' g a s) :
    m.Yields P s g Q' := by
  unfold Yields at h ⊢
  exact h.mono fun g _ s hx a ha => hQ g a s (hx a ha)

@[simp] theorem yields_pure : (pure a : Method R σ ε α).Yields P s g Q ↔ Q g a s := by
  unfold Yields
  simp

@[simp] theorem yields_throw {e : ε} : (throw e : Method R σ ε α).Yields P s g Q := by
  unfold Yields
  simp

@[simp] theorem yields_modify {f : σ → σ} {Q : γ → Unit → σ → Prop} :
    (modify f : Method R σ ε Unit).Yields P s g Q ↔ Q g () (f s) := by
  unfold Yields
  rw [obeys_modify]
  exact ⟨fun h => h () rfl, fun h _ _ => h⟩

@[simp] theorem yields_ofExcept {x : Except ε α} : (ofExcept x : Method R σ ε α).Yields P s g Q ↔
    ∀ a, x = .ok a → Q g a s := by
  unfold Yields
  simp

@[simp] theorem yields_request {Q : γ → R e → σ → Prop} :
    (request e : Method R σ ε (R e)).Yields P s g Q ↔ P.may g e ∧ ∀ r, Q (P.learn g e r) r s := by
  unfold Yields
  simp

@[simp] theorem yields_bind {f : α → Method R σ ε β} {Q : γ → β → σ → Prop} :
    (m >>= f).Yields P s g Q ↔ m.Yields P s g fun g a s => (f a).Yields P s g Q := by
  unfold Yields
  rw [obeys_bind]
  refine iff_of_eq (congrArg (m.Obeys P s g) ?_)
  funext g x s
  cases x <;> simp

theorem yields_iff : m.Yields P s g Q ↔ m.Obeys P s g fun g x s => ∀ a, x = .ok a → Q g a s := by
  unfold Yields
  rfl

@[simp] theorem yields_mapError {f : ε → ε'} : (m.mapError f).Yields P s g Q ↔ m.Yields P s g Q := by
  rw [yields_iff, yields_iff, obeys_mapError]
  refine iff_of_eq (congrArg (m.Obeys P s g) ?_)
  funext g x s
  cases x <;> simp [Except.mapError]

@[simp] theorem yields_attempt {Q : γ → Except ε α → σ → Prop} :
    (m.attempt : Method R σ ε' (Except ε α)).Yields P s g Q ↔ m.Obeys P s g Q := by
  unfold Yields
  simp

theorem Yields.attempt (h : m.Yields P s g Q) :
    (m.attempt : Method R σ ε' (Except ε α)).Yields P s g fun g x s => ∀ a, x = .ok a → Q g a s :=
  yields_attempt.2 (yields_iff.1 h)

end Yields

/-- Whenever it knows `I`, the method may make all its calls, and it still knows `I` after each of them. -/
@[irreducible] def Holds (P : Protocol R γ) (I : γ → Prop) (m : Method R σ ε α) : Prop :=
  ∀ s g, I g → m.Obeys P s g fun g _ _ => I g

section Holds
variable {I : γ → Prop} {m : Method R σ ε α}

theorem holds_iff : Holds P I m ↔ ∀ s g, I g → m.Obeys P s g fun g _ _ => I g := by
  unfold Holds
  rfl

theorem Holds.yields (h : Holds P I m) (hg : I g) : m.Yields P s g fun g _ _ => I g :=
  yields_iff.2 ((holds_iff.1 h s g hg).mono fun _ _ _ hI _ _ => hI)

theorem holds_pure (a : α) : Holds P I (pure a : Method R σ ε α) := holds_iff.2 fun _ _ hg => obeys_pure.2 hg

theorem holds_throw (e : ε) : Holds P I (throw e : Method R σ ε α) := holds_iff.2 fun _ _ hg => obeys_throw.2 hg

theorem holds_modify (f : σ → σ) : Holds P I (modify f : Method R σ ε Unit) := holds_iff.2 fun _ _ hg => obeys_modify.2 hg

theorem holds_ofExcept (x : Except ε α) : Holds P I (ofExcept x : Method R σ ε α) := by
  rw [holds_iff]
  intro s g hg
  rw [obeys_ofExcept]
  exact hg

theorem holds_request (he : ∀ g, I g → P.may g e ∧ ∀ r, I (P.learn g e r)) :
    Holds P I (request e : Method R σ ε (R e)) := holds_iff.2 fun _ g hg => obeys_request.2 (he g hg)

theorem holds_bind {f : α → Method R σ ε β} (hm : Holds P I m) (hf : ∀ a, Holds P I (f a)) : Holds P I (m >>= f) := by
  rw [holds_iff] at hm ⊢
  intro s g hg
  rw [obeys_bind]
  refine (hm s g hg).mono fun g x s hg => ?_
  cases x with
  | ok a => exact holds_iff.1 (hf a) s g hg
  | error e => exact hg

theorem holds_attempt (hm : Holds P I m) : Holds P I (m.attempt : Method R σ ε' (Except ε α)) := by
  rw [holds_iff] at hm ⊢
  intro s g hg
  rw [obeys_attempt]
  exact hm s g hg

end Holds

end Method

end Obeys

/-! ## Steps of the tasks -/

/-- What every task still has to do, and the world that the tasks share. -/
structure Tasks {E : Type} (R : E → Type) (α ι ω : Type) where
  task : ι → Option (Prog R α)
  world : ω

inductive TaskLabel {E : Type} (R : E → Type) (α ι T : Type) where
  | spawn (i : ι) (t : T)
  | call (i : ι) (e : E) (r : R e)
  | finish (i : ι) (a : α)

namespace Tasks
variable {R : E → Type} {ι T : Type}

/-- One step of the tasks. A task of the kind `t` runs `program t`, and `step i e w r w'` says that the call `e` of task `i`
may be answered `r`. -/
inductive Step [DecidableEq ι] (program : T → Prog R α) (step : ι → Answering R ω) :
    Tasks R α ι ω → TaskLabel R α ι T → Tasks R α ι ω → Prop where
  | spawn {s : Tasks R α ι ω} {i : ι} (t : T) : s.task i = none →
      Step program step s (.spawn i t) ⟨Function.update s.task i (some (program t)), s.world⟩
  | call {s : Tasks R α ι ω} {i : ι} {e : E} {next : R e → Prog R α} {r : R e} {w : ω} :
      s.task i = some (.call e next) → step i e s.world r w →
      Step program step s (.call i e r) ⟨Function.update s.task i (some (next r)), w⟩
  | finish {s : Tasks R α ι ω} {i : ι} {a : α} : s.task i = some (.ret a) →
      Step program step s (.finish i a) ⟨Function.update s.task i none, s.world⟩

/-- What a protocol needs of the programs and the world: `know i g w` says that what task `i` knows is so in `w`. -/
structure Guards (P : Protocol R γ) (Q : γ → α → Prop) (know : ι → γ → ω → Prop) (program : T → Prog R α)
    (step : ι → Answering R ω) : Prop where
  begins : ∀ t, (program t).Obeys P Q P.start
  own : ∀ {i e w r w' g}, step i e w r w' → P.may g e → know i g w → know i (P.learn g e r) w'
  other : ∀ {i j e w r w' g g'}, j ≠ i → step i e w r w' → P.may g e → know i g w → know j g' w → know j g' w'
  ends : ∀ {i g a w}, Q g a → know i g w → know i P.start w

/-- Task `i`, which has `p` left to do, obeys, and what it knows is so. A task that does not run knows what it will know
at its start. -/
def SoundAt (P : Protocol R γ) (Q : γ → α → Prop) (know : ι → γ → ω → Prop) (w : ω)
    (i : ι) : Option (Prog R α) → Prop
  | some p => ∃ g, p.Obeys P Q g ∧ know i g w
  | none => know i P.start w

def Sound (P : Protocol R γ) (Q : γ → α → Prop) (know : ι → γ → ω → Prop) (s : Tasks R α ι ω) : Prop :=
  ∀ i, SoundAt P Q know s.world i (s.task i)

variable {P : Protocol R γ} {Q : γ → α → Prop} {know : ι → γ → ω → Prop}
  {s s' : Tasks R α ι ω} {i : ι} {w w' : ω}
  {p : Prog R α} {o : Option (Prog R α)} {f : ι → Option (Prog R α)}

theorem Sound.running (h : Sound P Q know s) (hp : s.task i = some p) : ∃ g, p.Obeys P Q g ∧ know i g s.world := by
  have hi := h i
  rwa [hp] at hi

theorem Sound.idle (h : Sound P Q know s) (hi : s.task i = none) : know i P.start s.world := by
  have hi' := h i
  rwa [hi] at hi'

theorem SoundAt.mono (h : SoundAt P Q know w i o) (hw : ∀ g, know i g w → know i g w') : SoundAt P Q know w' i o := by
  cases o with
  | none => exact hw _ h
  | some p =>
    obtain ⟨g, hp, hg⟩ := h
    exact ⟨g, hp, hw g hg⟩

variable [DecidableEq ι] {program : T → Prog R α} {step : ι → Answering R ω}

theorem Step.call_next {e : E} {next : R e → Prog R α} {r : R e} (hp : p = .call e next) (h : step i e w r w') :
    Step program step ⟨update f i (some p), w⟩ (.call i e r) ⟨update f i (some (next r)), w'⟩ := by
  have hidem : update f i (some (next r)) = update (update f i (some p)) i (some (next r)) :=
    (update_idem ..).symm
  rw [hidem]
  exact .call ((update_self ..).trans (congrArg some hp)) h

theorem Step.finish_next {a : α} (hp : p = .ret a) :
    Step program step ⟨update f i (some p), w⟩ (.finish i a) ⟨update f i none, w⟩ := by
  have hidem : update f i none = update (update f i (some p)) i none :=
    (update_idem ..).symm
  rw [hidem]
  exact .finish ((update_self ..).trans (congrArg some hp))

theorem sound_update (hi : SoundAt P Q know w i o)
    (ho : ∀ j, j ≠ i → SoundAt P Q know w j (s.task j)) : Sound P Q know ⟨update s.task i o, w⟩ := by
  intro j
  by_cases hj : j = i
  · subst hj
    simpa only [update_self] using hi
  · simpa only [Function.update_of_ne hj] using ho j hj

/-- **What the tasks know stays so,** if the protocol guards it. -/
theorem Step.sound (hP : Guards P Q know program step) {l : TaskLabel R α ι T} (h : Step program step s l s')
    (hs : Sound P Q know s) : Sound P Q know s' := by
  cases h with
  | spawn t hidle => exact sound_update ⟨P.start, hP.begins t, hs.idle hidle⟩ fun j _ => hs j
  | call hp hstep =>
    obtain ⟨g, ⟨hmay, hnext⟩, hg⟩ := hs.running hp
    refine sound_update ⟨_, hnext _, hP.own hstep hmay hg⟩ fun j hj => ?_
    exact (hs j).mono fun g' => hP.other hj hstep hmay hg
  | finish hp =>
    obtain ⟨g, hq, hg⟩ := hs.running hp
    exact sound_update (hP.ends hq hg) fun j _ => hs j

end Tasks

end Effects

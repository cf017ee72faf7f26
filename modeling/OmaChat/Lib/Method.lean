import OmaChat.Lib.Prog

/-!
# Methods: programs with a state of their own

`Method R σ ε α` is a method on a state `σ`: it makes calls, may change the state, and ends with a value or an error.
An error ends the method but undoes nothing: what was done to the state before it stays, as after `?` in a method on
`&mut self`.

* `Method.Exec step m c x c'` : in the world `step`, from the state and world `c` the method can answer `x` and leave `c'`;
* `exec_bind`, `exec_bind_ok` take a sequence apart;
* `run machine m c` : the outcome against one machine, which `run_bind` and the lemmas beside it compute;
* `Keeps step I m` : every execution of `m` relates what it found to what it left by the preorder `I`. It is proved
  along the method's structure (`keeps_pure`, `keeps_bind`, ..) from what each call keeps;
* `Fails step P m` : every error of `m` has the property `P`, proved along the structure in the same way.
-/

namespace Effects

/-- A method on a state `σ` that makes calls `R`, and ends with a value or an error. -/
def Method {E : Type} (R : E → Type) (σ ε α : Type) : Type := σ → Prog R (Except ε α × σ)

namespace Method
variable {E : Type} {R : E → Type} {σ ε ε' α β ω : Type}

/-- Go on with the value, or stop with the error. -/
protected def bind (m : Method R σ ε α) (f : α → Method R σ ε β) : Method R σ ε β := fun s =>
  (m s).bind fun
    | (.ok a, s') => f a s'
    | (.error e, s') => .ret (.error e, s')

instance : Monad (Method R σ ε) where
  pure a := fun s => .ret (.ok a, s)
  bind := Method.bind

theorem bind_pure (m : Method R σ ε α) : m >>= pure = m := by
  funext s
  refine Eq.trans (congrArg (Prog.bind (m s)) (funext fun r => ?_)) (Prog.bind_ret (m s))
  rcases r with ⟨_ | _, _⟩ <;> rfl

theorem bind_assoc {γ : Type} (m : Method R σ ε α) (f : α → Method R σ ε β) (g : β → Method R σ ε γ) :
    (m >>= f) >>= g = m >>= fun a => f a >>= g := by
  funext s
  refine (Prog.bind_assoc (m s) _ _).trans (congrArg (Prog.bind (m s)) (funext fun r => ?_))
  rcases r with ⟨_ | _, _⟩ <;> rfl

def throw (e : ε) : Method R σ ε α := fun s => .ret (.error e, s)

def request (e : E) : Method R σ ε (R e) := fun s => .call e fun r => .ret (.ok r, s)

def ofExcept : Except ε α → Method R σ ε α
  | .ok a => pure a
  | .error e => throw e

def get : Method R σ ε σ := fun s => .ret (.ok s, s)

def modify (f : σ → σ) : Method R σ ε Unit := fun s => .ret (.ok (), f s)

/-- Change the state by a function that also gives the outcome. -/
def update (f : σ → Except ε α × σ) : Method R σ ε α := fun s => .ret (f s)

/-- A method on another state, whose outcome is a value here. -/
def apart {τ : Type} (m : Method R τ ε' α) (t : τ) : Method R σ ε (Except ε' α) := fun s =>
  (m t).bind fun y => .ret (.ok y.1, s)

def mapError (f : ε → ε') (m : Method R σ ε α) : Method R σ ε' α := fun s =>
  (m s).bind fun
    | (.ok a, s') => .ret (.ok a, s')
    | (.error e, s') => .ret (.error (f e), s')

def attempt (m : Method R σ ε α) : Method R σ ε' (Except ε α) := fun s =>
  (m s).bind fun (x, s') => .ret (.ok x, s')

/-! ## Against one machine -/

def run (machine : (e : E) → ω → R e × ω) (m : Method R σ ε α) (c : σ × ω) : Except ε α × (σ × ω) :=
  let y := (m c.1).run machine c.2
  (y.1.1, (y.1.2, y.2))

section Run
variable {machine : (e : E) → ω → R e × ω} {c : σ × ω}

@[simp] theorem run_pure (a : α) : (pure a : Method R σ ε α).run machine c = (.ok a, c) := rfl

@[simp] theorem run_throw (e : ε) : (throw e : Method R σ ε α).run machine c = (.error e, c) := rfl

@[simp] theorem run_ofExcept (x : Except ε α) : (ofExcept x : Method R σ ε α).run machine c = (x, c) := by
  cases x <;> rfl

@[simp] theorem run_get : (get : Method R σ ε σ).run machine c = (.ok c.1, c) := rfl

@[simp] theorem run_request (e : E) :
    (request e : Method R σ ε (R e)).run machine c = (.ok (machine e c.2).1, (c.1, (machine e c.2).2)) := rfl

@[simp] theorem run_bind (m : Method R σ ε α) (f : α → Method R σ ε β) :
    (m >>= f).run machine c = match m.run machine c with
      | (.ok a, c') => (f a).run machine c'
      | (.error e, c') => (.error e, c') := by
  have hbind : (m >>= f) c.1 = (m c.1).bind fun
      | (.ok a, s') => f a s'
      | (.error e, s') => .ret (.error e, s') := rfl
  unfold run
  rw [hbind, Prog.run_bind]
  rcases (m c.1).run machine c.2 with ⟨⟨_ | _, _⟩, _⟩ <;> rfl

@[simp] theorem run_mapError (m : Method R σ ε α) (f : ε → ε') :
    (m.mapError f).run machine c = ((m.run machine c).1.mapError f, (m.run machine c).2) := by
  unfold run mapError
  rw [Prog.run_bind]
  rcases (m c.1).run machine c.2 with ⟨⟨_ | _, _⟩, _⟩ <;> rfl

end Run

/-! ## Executions -/

/-- Executions of a method, over the pair of its state and the world. -/
def Exec (step : Answering R ω) (m : Method R σ ε α) (c : σ × ω) (x : Except ε α) (c' : σ × ω) : Prop :=
  (m c.1).Exec step c.2 (x, c'.1) c'.2

section Exec
variable {step : Answering R ω} {c c' : σ × ω} {x : Except ε α} {m : Method R σ ε α} {y : Except ε β} {a : α}
  {f : α → Method R σ ε β} {e : E}

theorem Exec.mono {step' : Answering R ω} (hstep : ∀ e w r w', step e w r w' → step' e w r w')
    (h : m.Exec step c x c') : m.Exec step' c x c' := Prog.Exec.mono hstep h

theorem exec_ret {y : Except ε α} {f : σ → σ} :
    Exec step (fun s => Prog.ret (y, f s) : Method R σ ε α) c x c' ↔ x = y ∧ c' = (f c.1, c.2) := by
  unfold Exec
  rw [Prog.exec_ret, Prod.mk.injEq, Prod.ext_iff, and_assoc]

@[simp] theorem exec_pure : (pure a : Method R σ ε α).Exec step c x c' ↔ x = .ok a ∧ c' = c := exec_ret (f := id)

@[simp] theorem exec_throw {e : ε} : (throw e : Method R σ ε α).Exec step c x c' ↔ x = .error e ∧ c' = c :=
  exec_ret (f := id)

@[simp] theorem exec_ofExcept {y : Except ε α} : (ofExcept y : Method R σ ε α).Exec step c x c' ↔ x = y ∧ c' = c := by
  cases y
  · exact exec_throw
  · exact exec_pure

@[simp] theorem exec_get {y : Except ε σ} : (get : Method R σ ε σ).Exec step c y c' ↔ y = .ok c.1 ∧ c' = c := by
  show (Prog.ret _).Exec step _ _ _ ↔ _
  rw [Prog.exec_ret, Prod.mk.injEq, Prod.ext_iff, and_assoc]

@[simp] theorem exec_modify {f : σ → σ} {y : Except ε Unit} :
    (modify f : Method R σ ε Unit).Exec step c y c' ↔ y = .ok () ∧ c' = (f c.1, c.2) := exec_ret

@[simp] theorem exec_update {f : σ → Except ε α × σ} :
    (update f : Method R σ ε α).Exec step c x c' ↔ (x, c'.1) = f c.1 ∧ c'.2 = c.2 := by
  show (Prog.ret _).Exec step _ _ _ ↔ _
  rw [Prog.exec_ret]

theorem exec_apart {τ : Type} {m : Method R τ ε' α} {t : τ} {y : Except ε (Except ε' α)} :
    (m.apart t : Method R σ ε (Except ε' α)).Exec step c y c' ↔
      ∃ z t', m.Exec step (t, c.2) z (t', c'.2) ∧ y = .ok z ∧ c'.1 = c.1 := by
  show ((m t) >>= _).Exec step _ _ _ ↔ _
  rw [Prog.exec_bind]
  constructor
  · rintro ⟨⟨z, t'⟩, w₁, hm, hret⟩
    obtain ⟨h, rfl⟩ := Prog.exec_ret.1 hret
    rw [Prod.mk.injEq] at h
    exact ⟨z, t', hm, h.1, h.2⟩
  · rintro ⟨z, t', hm, rfl, hs⟩
    refine ⟨(z, t'), c'.2, hm, Prog.exec_ret.2 ⟨?_, rfl⟩⟩
    rw [hs]

@[simp] theorem exec_request {y : Except ε (R e)} :
    (request e : Method R σ ε (R e)).Exec step c y c' ↔ ∃ r, step e c.2 r c'.2 ∧ y = .ok r ∧ c'.1 = c.1 := by
  show (Prog.call _ _).Exec step _ _ _ ↔ _
  simp only [Prog.exec_call, Prog.exec_ret, Prod.mk.injEq]
  constructor
  · rintro ⟨r, w₁, hs, ⟨rfl, h₁⟩, rfl⟩
    exact ⟨r, hs, rfl, h₁⟩
  · rintro ⟨r, hs, rfl, h₁⟩
    exact ⟨r, _, hs, ⟨rfl, h₁⟩, rfl⟩

theorem exec_bind : (m >>= f).Exec step c y c' ↔
      (∃ e, y = .error e ∧ m.Exec step c (.error e) c') ∨ ∃ a c₁, m.Exec step c (.ok a) c₁ ∧
        (f a).Exec step c₁ y c' := by
  show ((m c.1) >>= _).Exec step _ _ _ ↔ _
  rw [Prog.exec_bind]
  constructor
  · rintro ⟨⟨z, s₁⟩, w₁, hm, hf⟩
    cases z with
    | ok a => exact .inr ⟨a, (s₁, w₁), hm, hf⟩
    | error e =>
      obtain ⟨h, hw⟩ := Prog.exec_ret.1 hf
      rw [Prod.mk.injEq] at h
      refine .inl ⟨e, h.1, ?_⟩
      rw [← h.2, ← hw] at hm
      exact hm
  · rintro (⟨e, rfl, hm⟩ | ⟨a, c₁, hm, hf⟩)
    · exact ⟨_, _, hm, .ret _ _⟩
    · exact ⟨_, _, hm, hf⟩

@[simp] theorem exec_bind_ok {b : β} :
    (m >>= f).Exec step c (.ok b) c' ↔ ∃ a c₁, m.Exec step c (.ok a) c₁ ∧ (f a).Exec step c₁ (.ok b) c' := by
  rw [exec_bind]
  simp

@[simp] theorem exec_pure_bind : ((pure a : Method R σ ε α) >>= f).Exec step c y c' ↔ (f a).Exec step c y c' := Iff.rfl

@[simp] theorem exec_get_bind {f : σ → Method R σ ε β} :
    ((get : Method R σ ε σ) >>= f).Exec step c y c' ↔ (f c.1).Exec step c y c' := Iff.rfl

@[simp] theorem exec_modify_bind {g : σ → σ} {f : Unit → Method R σ ε β} :
    ((modify g : Method R σ ε Unit) >>= f).Exec step c y c' ↔ (f ()).Exec step (g c.1, c.2) y c' := Iff.rfl

@[simp] theorem exec_request_bind {f : R e → Method R σ ε β} :
    ((request e : Method R σ ε (R e)) >>= f).Exec step c y c' ↔
      ∃ r w₁, step e c.2 r w₁ ∧ (f r).Exec step (c.1, w₁) y c' := by
  show (Prog.call e _).Exec step _ _ _ ↔ _
  exact Prog.exec_call

theorem exec_map {g : Except ε α → Except ε' β} {y : Except ε' β} :
    Exec step (fun s => (m s).bind fun z => .ret (g z.1, z.2)) c y c' ↔ ∃ z, m.Exec step c z c' ∧ y = g z := by
  show ((m c.1) >>= _).Exec step _ _ _ ↔ _
  rw [Prog.exec_bind]
  constructor
  · rintro ⟨⟨z, s₁⟩, w₁, hm, hf⟩
    obtain ⟨h, hw⟩ := Prog.exec_ret.1 hf
    obtain ⟨hy, hs⟩ := Prod.mk.inj h
    rw [← show c'.1 = s₁ from hs, ← hw] at hm
    exact ⟨z, hm, hy⟩
  · rintro ⟨z, hm, rfl⟩
    exact ⟨_, _, hm, .ret _ _⟩

theorem exec_mapError {f : ε → ε'} {y : Except ε' α} :
    (m.mapError f).Exec step c y c' ↔ ∃ z, m.Exec step c z c' ∧ y = z.mapError f := by
  rw [← exec_map]
  refine iff_of_eq (congrArg (Prog.Exec step · _ _ _) (congrArg (Prog.bind (m c.1)) (funext fun z => ?_)))
  rcases z with ⟨_ | _, _⟩ <;> rfl

@[simp] theorem exec_mapError_ok {f : ε → ε'} : (m.mapError f).Exec step c (.ok a) c' ↔ m.Exec step c (.ok a) c' := by
  rw [exec_mapError]
  constructor
  · rintro ⟨z, hm, hz⟩
    cases z with
    | ok b => cases hz; exact hm
    | error e => cases hz
  · exact fun hm => ⟨_, hm, rfl⟩

@[simp] theorem exec_attempt {y : Except ε' (Except ε α)} :
    (m.attempt : Method R σ ε' (Except ε α)).Exec step c y c' ↔ ∃ z, m.Exec step c z c' ∧ y = .ok z := exec_map

end Exec

/-! ## Along a log

A method on a state, as a program. With `Prog.follow` these execute a method symbolically. -/

theorem pure_apply (a : α) (s : σ) : (pure a : Method R σ ε α) s = .ret (.ok a, s) := rfl

theorem bind_apply (m : Method R σ ε α) (f : α → Method R σ ε β) (s : σ) : (m >>= f) s = (m s).bind fun
    | (.ok a, s') => f a s'
    | (.error e, s') => .ret (.error e, s') := rfl

theorem ite_apply (c : Prop) [Decidable c] (m m' : Method R σ ε α) (s : σ) :
    (if c then m else m') s = if c then m s else m' s := by
  split <;> rfl

/-! ## What a method keeps -/

/-- Every execution of `m` relates what it found to what it left by `I`. -/
def Keeps (step : Answering R ω) (I : σ × ω → σ × ω → Prop) (m : Method R σ ε α) : Prop :=
  ∀ c x c', m.Exec step c x c' → I c c'

section Keeps
variable {step : Answering R ω} {I : σ × ω → σ × ω → Prop}

theorem keeps_request {e : E} (he : ∀ s w r w', step e w r w' → I (s, w) (s, w')) :
    Keeps step I (request e : Method R σ ε (R e)) := by
  rintro ⟨s, w⟩ x ⟨s', w'⟩ h
  obtain ⟨r, hs, -, rfl⟩ := exec_request.1 h
  exact he _ _ r _ hs

theorem keeps_modify {f : σ → σ} (hf : ∀ s w, I (s, w) (f s, w)) : Keeps step I (modify f : Method R σ ε Unit) := by
  rintro ⟨s, w⟩ x c' h
  obtain ⟨-, rfl⟩ := exec_modify.1 h
  exact hf s w

variable {m : Method R σ ε α} {f : α → Method R σ ε β} {c c' : σ × ω} {x : Except ε β}

theorem keeps_mapError (f : ε → ε') (hm : Keeps step I m) : Keeps step I (m.mapError f) := by
  intro c x c' h
  obtain ⟨z, hz, -⟩ := exec_mapError.1 h
  exact hm _ _ _ hz

theorem keeps_attempt (hm : Keeps step I m) : Keeps step I (m.attempt : Method R σ ε' (Except ε α)) := by
  intro c x c' h
  obtain ⟨z, hz, -⟩ := exec_attempt.1 h
  exact hm _ _ _ hz

variable [IsPreorder (σ × ω) I]

theorem keeps_of_same (hm : ∀ c x c', m.Exec step c x c' → c' = c) : Keeps step I m := by
  intro c x c' h
  rw [hm c x c' h]
  exact refl_of I c

theorem keeps_pure (a : α) : Keeps step I (pure a : Method R σ ε α) := keeps_of_same fun _ _ _ h => (exec_pure.1 h).2

theorem keeps_throw (e : ε) : Keeps step I (throw e : Method R σ ε α) := keeps_of_same fun _ _ _ h => (exec_throw.1 h).2

theorem keeps_ofExcept (y : Except ε α) : Keeps step I (ofExcept y : Method R σ ε α) :=
  keeps_of_same fun _ _ _ h => (exec_ofExcept.1 h).2

theorem keeps_get : Keeps step I (get : Method R σ ε σ) := keeps_of_same fun _ _ _ h => (exec_get.1 h).2

theorem keeps_bind (hm : Keeps step I m) (hf : ∀ a, Keeps step I (f a)) : Keeps step I (m >>= f) := by
  intro c x c' h
  rcases exec_bind.1 h with ⟨e, -, h₁⟩ | ⟨a, c₁, h₁, h₂⟩
  · exact hm _ _ _ h₁
  · exact trans_of I (hm _ _ _ h₁) (hf a _ _ _ h₂)

/-- After what has kept `I`, a method that keeps it fails, or gives its value to the next one. -/
theorem exec_keeps_bind {c₀ : σ × ω} (hi : I c₀ c) (hm : Keeps step I m) (h : (m >>= f).Exec step c x c') :
    I c₀ c' ∨ ∃ a c₁, I c₀ c₁ ∧ m.Exec step c (.ok a) c₁ ∧ (f a).Exec step c₁ x c' := by
  rcases exec_bind.1 h with ⟨e, -, h₁⟩ | ⟨a, c₁, h₁, h₂⟩
  · exact .inl (trans_of I hi (hm _ _ _ h₁))
  · exact .inr ⟨a, c₁, trans_of I hi (hm _ _ _ h₁), h₁, h₂⟩

theorem exec_bind_of_keeps (hf : ∀ a, Keeps step I (f a)) (h : (m >>= f).Exec step c x c') :
    ∃ y c₁, m.Exec step c y c₁ ∧ I c₁ c' := by
  rcases exec_bind.1 h with ⟨e, -, h₁⟩ | ⟨a, c₁, h₁, h₂⟩
  · exact ⟨_, _, h₁, refl_of I _⟩
  · exact ⟨_, _, h₁, hf a _ _ _ h₂⟩

end Keeps

/-! ## The errors of a method -/

/-- Every execution of `m` that ends with an error ends with one that has the property `P`. -/
def Fails (step : Answering R ω) (P : ε → Prop) (m : Method R σ ε α) : Prop :=
  ∀ c e c', m.Exec step c (.error e) c' → P e

section Fails
variable {step : Answering R ω} {P : ε → Prop}

theorem fails_pure (a : α) : Fails step P (pure a : Method R σ ε α) := by
  intro c e c' h
  cases (exec_pure.1 h).1

theorem fails_ofExcept {x : Except ε α} (hx : ∀ e, x = .error e → P e) : Fails step P (ofExcept x : Method R σ ε α) := by
  intro c e c' h
  exact hx e (exec_ofExcept.1 h).1.symm

theorem fails_get : Fails step P (get : Method R σ ε σ) := by
  intro c e c' h
  cases (exec_get.1 h).1

theorem fails_modify (f : σ → σ) : Fails step P (modify f : Method R σ ε Unit) := by
  intro c e c' h
  cases (exec_modify.1 h).1

variable {m : Method R σ ε α}

theorem fails_bind {f : α → Method R σ ε β} (hm : Fails step P m) (hf : ∀ a, Fails step P (f a)) :
    Fails step P (m >>= f) := by
  intro c e c' h
  rcases exec_bind.1 h with ⟨e', he', h₁⟩ | ⟨a, c₁, -, h₂⟩
  · cases he'
    exact hm _ _ _ h₁
  · exact hf a _ _ _ h₂

theorem fails_mapError {P : ε' → Prop} {f : ε → ε'} (hm : Fails step (fun e => P (f e)) m) :
    Fails step P (m.mapError f) := by
  intro c e c' h
  obtain ⟨z, hz, he⟩ := exec_mapError.1 h
  cases z with
  | ok a => cases he
  | error e' =>
    cases he
    exact hm _ _ _ hz

end Fails

/-- A property of methods that goes along their structure, if their errors have the property `ok`. -/
structure Along (ok : ε → Prop) (P : (α : Type) → Method R σ ε α → Prop) : Prop where
  pure {α : Type} (a : α) : P α (pure a)
  ofExcept {α : Type} {x : Except ε α} (hx : ∀ e, x = .error e → ok e) : P α (ofExcept x)
  get : P σ get
  bind {α β : Type} {m : Method R σ ε α} {f : α → Method R σ ε β} (hm : P α m) (hf : ∀ a, P β (f a)) :
    P β (m >>= f)

theorem Along.throw {ok : ε → Prop} {P : (α : Type) → Method R σ ε α → Prop} (h : Along ok P) {e : ε} (he : ok e) :
    P α (Method.throw e) :=
  h.ofExcept (x := .error e) fun _ heq => Except.error.inj heq ▸ he

theorem along_keeps {ok : ε → Prop} {step : Answering R ω} {I : σ × ω → σ × ω → Prop}
    [IsPreorder (σ × ω) I] : Along ok fun α (m : Method R σ ε α) => Keeps step I m :=
  ⟨keeps_pure, fun _ => keeps_ofExcept _, keeps_get, keeps_bind⟩

theorem along_fails {ok : ε → Prop} {step : Answering R ω} :
    Along ok fun α (m : Method R σ ε α) => Fails step ok m :=
  ⟨fails_pure, fails_ofExcept, fails_get, fails_bind⟩

end Method

end Effects

import Mathlib.Tactic

/-!
# Programs as trees of calls

`Prog R α` is a program that makes calls `e : E`, each answered by a value of `R e`, and returns an `α`. The tree
says which call comes next for every answer to the calls before it, so one definition of a program can be

* run against a machine that answers every call (`run`);
* cut after any number of calls, which leaves the machine as a crash at that point finds it (`crash`);
* executed in a world that answers calls in more than one way (`Exec`, with `exec_bind` to take a sequence apart and
  `exec_run` to build an execution from a machine);
* executed in a world that keeps a log of the calls and their answers (`logged`);
* stopped between two calls while others act on the world (`Resumes`);
* followed along a log of calls and answers (`After`), to the call that it makes next (`Calls`).
-/

namespace Effects

/-- A program over calls `E`; the call `e` is answered by a value of `R e`. -/
inductive Prog {E : Type} (R : E → Type) (α : Type) : Type where
  | ret (a : α) : Prog R α
  | call (e : E) (next : R e → Prog R α) : Prog R α

/-- How a world may answer the calls, and what becomes of it. -/
abbrev Answering {E : Type} (R : E → Type) (ω : Type) : Type := (e : E) → ω → R e → ω → Prop

namespace Prog
variable {E : Type} {R : E → Type} {α β σ : Type}

def bind : Prog R α → (α → Prog R β) → Prog R β
  | .ret a, f => f a
  | .call e next, f => .call e fun r => (next r).bind f

instance : Monad (Prog R) where
  pure := .ret
  bind := bind

@[simp] theorem ret_bind (a : α) (f : α → Prog R β) : (Prog.ret a >>= f) = f a := rfl

@[simp] theorem call_bind (e : E) (next : R e → Prog R α) (f : α → Prog R β) :
    (Prog.call e next >>= f) = .call e fun r => next r >>= f := rfl

theorem bind_ret (p : Prog R α) : (p >>= Prog.ret) = p := by
  induction p with
  | ret a => rfl
  | call e next ih => simp only [call_bind, ih]

theorem bind_assoc {γ : Type} (p : Prog R α) (f : α → Prog R β) (g : β → Prog R γ) :
    (p >>= f) >>= g = p >>= fun a => f a >>= g := by
  induction p with
  | ret a => rfl
  | call e next ih => simp only [call_bind, ih]

/-! ## Against one machine -/

def run (machine : (e : E) → σ → R e × σ) : Prog R α → σ → α × σ
  | .ret a, s => (a, s)
  | .call e next, s => (next (machine e s).1).run machine (machine e s).2

theorem run_bind (machine : (e : E) → σ → R e × σ) (p : Prog R α) (f : α → Prog R β) (s : σ) :
    (p.bind f).run machine s = (f (p.run machine s).1).run machine (p.run machine s).2 := by
  induction p generalizing s with
  | ret a => rfl
  | call e next ih => exact ih _ _

/-- The machine after the first `n` calls of a program, which is where a crash then finds it. -/
def crash (machine : (e : E) → σ → R e × σ) : Nat → Prog R α → σ → σ
  | 0, _, s => s
  | _ + 1, .ret _, s => s
  | n + 1, .call e next, s => (next (machine e s).1).crash machine n (machine e s).2

/-! ## In a world with several answers -/

/-- `p.Exec step w a w'` : from the world `w` the program can return `a` and leave the world `w'`, where
`step e w r w'` says that the call `e` made in `w` may be answered `r` and leave `w'`. -/
inductive Exec (step : Answering R σ) : Prog R α → σ → α → σ → Prop where
  | ret (a : α) (w : σ) : Exec step (.ret a) w a w
  | call {e : E} {next : R e → Prog R α} {r : R e} {a : α} {w w₁ w' : σ} :
      step e w r w₁ → Exec step (next r) w₁ a w' → Exec step (.call e next) w a w'

section World
variable {step : Answering R σ} {w w' w₀ : σ} {a : α} {p : Prog R α} {e : E}

@[simp] theorem exec_ret {b : α} : (Prog.ret a : Prog R α).Exec step w b w' ↔ b = a ∧ w' = w := by
  constructor
  · rintro ⟨⟩; exact ⟨rfl, rfl⟩
  · rintro ⟨rfl, rfl⟩; exact .ret _ _

variable {next : R e → Prog R α}

@[simp] theorem exec_call : (Prog.call e next).Exec step w a w' ↔
    ∃ r w₁, step e w r w₁ ∧ (next r).Exec step w₁ a w' := by
  constructor
  · rintro ⟨⟩; exact ⟨_, _, ‹_›, ‹_›⟩
  · rintro ⟨r, w₁, hs, hn⟩; exact .call hs hn

theorem exec_bind {f : α → Prog R β} {b : β} :
    (p >>= f).Exec step w b w' ↔ ∃ a w₁, p.Exec step w a w₁ ∧ (f a).Exec step w₁ b w' := by
  induction p generalizing w with
  | ret a => simp
  | call e next ih =>
    simp only [call_bind, exec_call, ih]
    constructor
    · rintro ⟨r, w₁, hs, a, w₂, hp, hf⟩
      exact ⟨a, w₂, ⟨r, w₁, hs, hp⟩, hf⟩
    · rintro ⟨a, w₂, ⟨r, w₁, hs, hp⟩, hf⟩
      exact ⟨r, w₁, hs, a, w₂, hp, hf⟩

theorem Exec.mono {step' : Answering R σ} (hstep : ∀ e w r w', step e w r w' → step' e w r w')
    (h : p.Exec step w a w') : p.Exec step' w a w' := by
  induction h with
  | ret a w => exact .ret a w
  | call hs _ ih => exact .call (hstep _ _ _ _ hs) ih

/-- `rest`, from the world `w`, is what is left of the program `p` that began in `w₀`. -/
def Resumes (step : Answering R σ) (p : Prog R α) (w₀ : σ) (rest : Prog R α) (w : σ) : Prop :=
  ∀ a w', rest.Exec step w a w' → p.Exec step w₀ a w'

theorem resumes_start (p : Prog R α) (w : σ) : p.Resumes step w p w := fun _ _ h => h

theorem Resumes.call {r : R e} {w₁ : σ}
    (h : p.Resumes step w₀ (.call e next) w) (hs : step e w r w₁) : p.Resumes step w₀ (next r) w₁ :=
  fun _ _ hn => h _ _ (.call hs hn)

theorem Resumes.ret (h : p.Resumes step w₀ (.ret a) w) : p.Exec step w₀ a w := h _ _ (.ret a w)

/-- The world that also keeps the calls so far, with their answers. -/
def logged (step : Answering R σ) (e : E) (w : σ × List (Sigma R)) (r : R e) (w' : σ × List (Sigma R)) :
    Prop :=
  step e w.1 r w'.1 ∧ w'.2 = w.2 ++ [⟨e, r⟩]

theorem exec_run {machine : (e : E) → σ → R e × σ} (hm : ∀ e w, step e w (machine e w).1 (machine e w).2)
    (p : Prog R α) (w : σ) : p.Exec step w (p.run machine w).1 (p.run machine w).2 := by
  induction p generalizing w with
  | ret a => exact .ret a w
  | call e next ih => exact .call (hm e w) (ih _ _)

end World

/-! ## Along a log -/

/-- After the calls of the log, with their answers, `q` is what is left of the program. -/
inductive After : Prog R α → List (Sigma R) → Prog R α → Prop where
  | nil (p : Prog R α) : After p [] p
  | cons {e : E} {next : R e → Prog R α} {r : R e} {log : List (Sigma R)} {q : Prog R α} :
      After (next r) log q → After (.call e next) (⟨e, r⟩ :: log) q

variable {p q : Prog R α} {log log' : List (Sigma R)} {e : E}

theorem After.split (h : p.After (log ++ log') q) : ∃ rest, p.After log rest ∧ rest.After log' q := by
  induction log generalizing p with
  | nil => exact ⟨p, .nil p, h⟩
  | cons x log ih =>
    cases h with
    | cons h =>
      obtain ⟨rest, hrest, h⟩ := ih h
      exact ⟨rest, .cons hrest, h⟩

/-- After the calls of the log, the program makes the call `e`. -/
def Calls (p : Prog R α) (log : List (Sigma R)) (e : E) : Prop := ∃ next, p.After log (.call e next)

theorem After.calls {r : R e} (h : p.After (log ++ ⟨e, r⟩ :: log') q) : p.Calls log e := by
  obtain ⟨rest, hrest, hcons⟩ := h.split
  cases hcons
  exact ⟨_, hrest⟩

/-! ### Following a log

Where equality of calls can be decided, so can the questions what a program calls and what it returns after a log. -/

def head? : Prog R α → Option E
  | .ret _ => none
  | .call e _ => some e

def result? : Prog R α → Option α
  | .ret a => some a
  | .call _ _ => none

theorem head?_eq_some : p.head? = some e ↔ ∃ next, p = .call e next := by
  cases p with
  | ret a => simp [head?]
  | call e' next =>
    simp only [head?, Option.some.injEq]
    constructor
    · rintro rfl
      exact ⟨next, rfl⟩
    · rintro ⟨next', h⟩
      cases h
      rfl

theorem result?_eq_some {a : α} : p.result? = some a ↔ p = .ret a := by
  cases p <;> simp [result?]

section Follow
variable [DecidableEq E]

/-- What is left of the program after the calls of the log, if it makes them. -/
def follow : Prog R α → List (Sigma R) → Option (Prog R α)
  | p, [] => some p
  | .ret _, _ :: _ => none
  | .call e next, ⟨e', r⟩ :: log => if h : e' = e then (next (h ▸ r)).follow log else none

theorem after_iff_follow : p.After log q ↔ p.follow log = some q := by
  constructor
  · intro h
    induction h with
    | nil p => simp [follow]
    | cons _ ih => simpa [follow] using ih
  · intro h
    induction log generalizing p with
    | nil =>
      simp only [follow, Option.some.injEq] at h
      exact h ▸ .nil p
    | cons x log ih =>
      cases p with
      | ret a => cases h
      | call e next =>
        obtain ⟨e', r⟩ := x
        unfold follow at h
        split at h
        · rename_i heq
          subst heq
          exact .cons (ih h)
        · cases h

theorem calls_iff_follow : p.Calls log e ↔ (p.follow log).bind head? = some e := by
  simp only [Calls, after_iff_follow, Option.bind_eq_some_iff, head?_eq_some]
  constructor
  · rintro ⟨next, h⟩
    exact ⟨_, h, next, rfl⟩
  · rintro ⟨_, h, next, rfl⟩
    exact ⟨next, h⟩

theorem after_ret_iff_follow {a : α} : p.After log (.ret a) ↔ (p.follow log).bind result? = some a := by
  simp [after_iff_follow, Option.bind_eq_some_iff, result?_eq_some]

instance : Decidable (p.Calls log e) := decidable_of_iff _ calls_iff_follow.symm

instance [DecidableEq α] {a : α} : Decidable (p.After log (.ret a)) := decidable_of_iff _ after_ret_iff_follow.symm

end Follow

end Prog

end Effects

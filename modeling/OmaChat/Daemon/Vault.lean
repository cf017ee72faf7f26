import OmaChat.Daemon.Progress

/-!
# Who writes the identity

The chat actor and the commands `IdentityGenerate` and `IdentityImport` run side by side and all write the identity
through `save_new`. Each read and each write of the record is a step of its own here, a read may fail, and a write may fail
after it took effect.

* `identity_kept` : if a task writes only when it found no record and none was written since, the secret stays until it is
  erased, and a caller that is told a key is told the one in the record;
* `identity_replaced` : `save_new` does not see to that. Two callers can both find no record, and a read that fails counts
  as absence.
-/

namespace OmaChat.Daemon
open Wire Effects Nostr Durable Transition

variable {known : Option (Bytes 32)} {p : Primitives} {ι : Type} [DecidableEq ι]

/-! ## The tasks -/

inductive IdentityTask where
  | ensureIdentity
  | identityGenerate
  | identityImport (nsec : String)

/-- What a task does, and the key that its caller is told. -/
def IdentityTask.program (p : Primitives) : IdentityTask → Prog Call.Answer (Option (NostrSecret p))
  | .ensureIdentity => (Daemon.ensureIdentity p).task () fun x => x.toOption.map Prod.fst
  | .identityGenerate => (Daemon.identityGenerate p).task () Except.toOption
  | .identityImport nsec => (Daemon.identityImport p nsec).task () Except.toOption

/-- The record of the identity, and the tasks that last found no record, if none was written since. -/
structure Vault (ι : Type) where
  record : Disk (Bytes 32)
  fresh : Set ι

def Vault.secret (w : Vault ι) : Option (Bytes 32) := w.record.stored.map Sealed.value

/-- The answers that the calls of task `i` can get. -/
def VaultAnswers (i : ι) : Answering Call.Answer (Vault ι)
  | .read .identity, w, r, w' => ∃ d, Reads Absent w.record r d ∧
      w' = ⟨d, { j | if j = i then w.record.stored = none else j ∈ w.fresh }⟩
  | .write .identity key, w, r, w' => ∃ d, Writes w.record key r d ∧ w' = ⟨d, { j | j ∈ w.fresh ∧ d.stored = none }⟩
  | _, w, _, w' => w' = w

/-- A task knows the key that it read or wrote. -/
def identityProtocol : Protocol Call.Answer (Option (Bytes 32)) where
  start := none
  may _ _ := True
  learn known
    | .read .identity, .ok (some key) => some key
    | .write .identity key, .ok _ => some key
    | _, _ => known

section Obeys
open Method
variable {σ : Type} {s : σ}

theorem yields_loadSecret : (loadSecret p).Yields identityProtocol s known fun known loaded _ =>
    ∀ secret, loaded = some secret → known = some secret.secret := by
  rw [loadSecret, yields_bind, yields_request]
  refine ⟨trivial, fun r => ?_⟩
  match r with
  | .ok none => exact yields_throw
  | .ok (some bytes) =>
    dsimp only
    split
    · rename_i secret hsec
      refine yields_pure.2 fun secret' h => ?_
      obtain rfl := Option.some.inj h
      exact congrArg some (NostrSecret.secret_of_fromBytes hsec).symm
    · exact yields_throw
  | .error error => cases error <;> simp

theorem yields_saveNew (secret : NostrSecret p) :
    (saveNew p secret).Yields identityProtocol s known fun known _ _ => known = some secret.secret := by
  rw [saveNew, yields_bind, yields_request]
  refine ⟨trivial, fun r => ?_⟩
  match r with
  | .ok _ => exact yields_throw
  | .error _ =>
    rw [yields_bind, yields_request]
    refine ⟨trivial, fun r => ?_⟩
    match r with
    | .ok _ => exact yields_pure.2 rfl
    | .error _ => exact yields_throw

theorem yields_generateSecret : (generateSecret p).Yields identityProtocol s known fun _ _ _ => True := by
  rw [generateSecret, yields_bind, yields_request]
  refine ⟨trivial, fun r => ?_⟩
  split
  · exact yields_throw
  · split
    · exact yields_pure.2 trivial
    · exact yields_throw

theorem yields_ensureIdentity : (ensureIdentity p).Yields identityProtocol s known fun known told _ =>
    known = some told.1.secret := by
  refine yields_bind.2 (yields_mapError.2 (yields_loadSecret.mono fun known loaded s hloaded => ?_))
  cases loaded with
  | some secret => exact yields_pure.2 (hloaded secret rfl)
  | none =>
    refine yields_bind.2 (yields_mapError.2 (yields_generateSecret.mono fun known secret s _ => ?_))
    refine yields_bind.2 ((yields_saveNew secret).attempt.mono fun known x s hx => ?_)
    match x with
    | .ok _ => exact yields_pure.2 (hx () rfl)
    | .error .alreadyPresent =>
      refine yields_bind.2 (yields_mapError.2 (yields_loadSecret.mono fun known loaded s hloaded => ?_))
      cases loaded with
      | none => exact yields_throw
      | some secret => exact yields_pure.2 (hloaded secret rfl)
    | .error (.store _) | .error (.identity _) | .error .encoding => exact yields_throw

theorem yields_saveNew_told (secret : NostrSecret p) :
    ((saveNew p secret).mapError IdentityError.nostrStore >>= fun _ => pure secret).Yields identityProtocol s known
      fun known told _ => known = some told.secret := by
  refine yields_bind.2 (yields_mapError.2 ((yields_saveNew secret).mono fun known _ s hk => ?_))
  exact yields_pure.2 hk

theorem yields_identityGenerate : (identityGenerate p).Yields identityProtocol s known fun known told _ =>
    known = some told.secret := by
  refine yields_bind.2 (yields_mapError.2 (yields_generateSecret.mono fun known secret s _ => ?_))
  exact yields_saveNew_told secret

theorem yields_identityImport (nsec : String) : (identityImport p nsec).Yields identityProtocol s known
    fun known told _ => known = some told.secret :=
  yields_bind.2 (yields_ofExcept.2 fun secret _ => yields_saveNew_told secret)

end Obeys

/-! ## Interleavings -/

theorem eq_ok_of_toOption {ε α : Type} {x : Except ε α} {a : α} (h : x.toOption = some a) : x = .ok a := by
  cases x with
  | error e => cases h
  | ok b => exact congrArg Except.ok (Option.some.inj h)

def Told (known : Option (Bytes 32)) (told : Option (NostrSecret p)) : Prop :=
  ∀ secret, told = some secret → known = some secret.secret

theorem obeys_program (t : IdentityTask) : (t.program p).Obeys identityProtocol Told none := by
  cases t with
  | ensureIdentity =>
    rw [IdentityTask.program, Method.obeys_task]
    refine (Method.yields_iff.1 yields_ensureIdentity).mono fun known x _ hx secret h => ?_
    obtain ⟨told, hx', rfl⟩ := Option.map_eq_some_iff.1 h
    exact hx told (eq_ok_of_toOption hx')
  | identityGenerate =>
    rw [IdentityTask.program, Method.obeys_task]
    exact (Method.yields_iff.1 yields_identityGenerate).mono fun known x _ hx secret h => hx secret (eq_ok_of_toOption h)
  | identityImport nsec =>
    rw [IdentityTask.program, Method.obeys_task]
    exact (Method.yields_iff.1 (yields_identityImport nsec)).mono fun known x _ hx secret h => hx secret (eq_ok_of_toOption h)

abbrev Vaults (p : Primitives) (ι : Type) : Type := Tasks Call.Answer (Option (NostrSecret p)) ι (Vault ι)

inductive VaultLabel (p : Primitives) (ι : Type) where
  | task (l : TaskLabel Call.Answer (Option (NostrSecret p)) ι IdentityTask)
  | erase

/-- One step on the identity. `panic_erase` stops the actor and waits for the commands at work before it erases. -/
inductive VaultStep : Vaults p ι → VaultLabel p ι → Vaults p ι → Prop where
  | task {s s' : Vaults p ι} {l : TaskLabel Call.Answer (Option (NostrSecret p)) ι IdentityTask} :
      Tasks.Step (IdentityTask.program p) VaultAnswers s l s' → VaultStep s (.task l) s'
  | erase {s : Vaults p ι} : (∀ i, s.task i = none) → VaultStep s .erase ⟨s.task, ⟨⟨none, none, none, []⟩, ∅⟩⟩

/-- A task writes only if it found no record and none was written since. -/
def Guarded (s : Vaults p ι) : VaultLabel p ι → Prop
  | .task (.call i (.write .identity _) _) => i ∈ s.world.fresh
  | _ => True

def GuardedStep (s : Vaults p ι) (l : VaultLabel p ι) (s' : Vaults p ι) : Prop := VaultStep s l s' ∧ Guarded s l

def GuardedAnswers (i : ι) (call : Call) (w : Vault ι) (r : call.Answer) (w' : Vault ι) : Prop :=
  VaultAnswers i call w r w' ∧ ∀ key, call = .write .identity key → i ∈ w.fresh

variable {s s' : Vaults p ι} {i : ι} {call : Call} {w w' : Vault ι} {l : VaultLabel p ι} {key : Bytes 32}

theorem GuardedStep.task {l : TaskLabel Call.Answer (Option (NostrSecret p)) ι IdentityTask}
    (h : GuardedStep s (.task l) s') : Tasks.Step (IdentityTask.program p) GuardedAnswers s l s' := by
  obtain ⟨⟨h⟩, hg⟩ := h
  cases h with
  | spawn t hi => exact .spawn t hi
  | finish hi => exact .finish hi
  | call hi hr =>
    refine .call hi ⟨hr, fun key he => ?_⟩
    subst he
    exact hg

variable {r : call.Answer}

/-- A call leaves the secret as it is, or is a write that makes the secret its own. A task becomes fresh only if there is
no record, and with a record that was just written none is. -/
theorem VaultAnswers.cases (h : VaultAnswers i call w r w') :
    (w'.secret = w.secret ∧ ∀ j ∈ w'.fresh, j ∈ w.fresh ∨ w.secret = none) ∨
      ∃ key, call = .write .identity key ∧ w'.secret = some key ∧ w'.fresh = ∅ := by
  have hsame (hw : w' = w) : w'.secret = w.secret ∧ ∀ j ∈ w'.fresh, j ∈ w.fresh ∨ w.secret = none := by
    rw [hw]
    exact ⟨rfl, fun j hj => .inl hj⟩
  cases call with
  | read record =>
    cases record with
    | identity =>
      obtain ⟨d, hr, rfl⟩ := h
      refine .inl ⟨by rw [Vault.secret, Vault.secret, hr.stored], fun j hj => ?_⟩
      rw [Set.mem_ofPred_eq] at hj
      split_ifs at hj
      · exact .inr (Option.map_eq_none_iff.2 hj)
      · exact .inl hj
    | _ => exact .inl (hsame h)
  | write record key =>
    cases record with
    | identity =>
      obtain ⟨d, hr, rfl⟩ := h
      rcases hr.stored with hs | hs
      · exact .inl ⟨by rw [Vault.secret, Vault.secret, hs], fun j hj => .inl hj.1⟩
      · exact .inr ⟨key, rfl, by rw [Vault.secret, hs]; rfl, by simp [hs]⟩
    | _ => exact .inl (hsame h)
  | _ => exact .inl (hsame h)

/-- What a task knows is so: there is no record while some task is fresh, and a key that it knows is in the record. -/
structure Knows (known : Option (Bytes 32)) (w : Vault ι) : Prop where
  fresh : ∀ j ∈ w.fresh, w.secret = none
  key : ∀ key, known = some key → w.secret = some key

/-- **A guarded call keeps a secret and what is known of it.** -/
theorem GuardedAnswers.keeps (h : GuardedAnswers i call w r w') (hk : Knows known w) : Knows known w' := by
  obtain ⟨ha, hg⟩ := h
  rcases ha.cases with ⟨hs, hf⟩ | ⟨key, hcall, hs, hf⟩
  · refine ⟨fun k hk' => ?_, fun key h => by rw [hs]; exact hk.key key h⟩
    rw [hs]
    rcases hf k hk' with hk' | hn
    · exact hk.fresh k hk'
    · exact hn
  · -- a fresh task writes, so there was no record and nothing to know
    have hnone := hk.fresh i (hg key hcall)
    refine ⟨by rw [hf]; exact fun _ hj => hj.elim, fun key' h => ?_⟩
    rw [hk.key key' h] at hnone
    cases hnone

theorem VaultAnswers.learn (h : VaultAnswers i call w r w') (hk : ∀ key, known = some key → w'.secret = some key) :
    ∀ key, identityProtocol.learn known call r = some key → w'.secret = some key := by
  intro key hkey
  dsimp only [identityProtocol] at hkey
  split at hkey
  · obtain rfl := Option.some.inj hkey
    obtain ⟨d, hr, rfl⟩ := h
    obtain ⟨v, hv, hs⟩ | hnone := hr.answer
    · obtain rfl := Option.some.inj hv
      rw [Vault.secret, hr.stored, hs]
      rfl
    · cases hnone
  · obtain rfl := Option.some.inj hkey
    obtain ⟨d, hr, rfl⟩ := h
    rw [Vault.secret, hr.stored_ok rfl]
    rfl
  · exact hk key hkey

theorem identity_guards : Tasks.Guards identityProtocol Told (fun _ : ι => Knows) (IdentityTask.program p)
    GuardedAnswers where
  begins := obeys_program
  own h _ hk := ⟨(h.keeps hk).fresh, h.1.learn (h.keeps hk).key⟩
  other _ h _ _ hk := h.keeps hk
  ends _ hk := ⟨hk.fresh, nofun⟩

def Settled (s : Vaults p ι) : Prop := Tasks.Sound identityProtocol Told (fun _ => Knows) s

theorem GuardedStep.settled (h : GuardedStep s l s') (hs : Settled s) : Settled s' := by
  cases l with
  | task l => exact h.task.sound identity_guards hs
  | erase =>
    obtain ⟨h, -⟩ := h
    cases h with
    | erase hidle =>
      intro i
      rw [hidle i]
      exact ⟨fun _ hj => hj.elim, nofun⟩

theorem GuardedStep.secret (h : GuardedStep s l s') (hl : l ≠ .erase)
    (hs : Settled s) (hkey : s.world.secret = some key) : s'.world.secret = some key := by
  cases l with
  | erase => exact absurd rfl hl
  | task l =>
    cases h.task with
    | spawn => exact hkey
    | finish => exact hkey
    | call hp hr =>
      obtain ⟨g, -, hg⟩ := hs.running hp
      exact (hr.keeps ⟨hg.fresh, fun _ h => h ▸ hkey⟩).key key rfl

theorem run_secret {ls : List (VaultLabel p ι)} (h : Run GuardedStep s ls s') (hl : .erase ∉ ls)
    (hs : Settled s) (hkey : s.world.secret = some key) : s'.world.secret = some key := by
  induction h with
  | nil => exact hkey
  | cons hstep _ ih =>
    rw [List.mem_cons, not_or] at hl
    exact ih hl.2 (hstep.settled hs) (hstep.secret (Ne.symm hl.1) hs hkey)

/-! ## One caller -/

section
variable {s : Vaults unsealed ι}

def quietVault (stored : Option (Sealed (Bytes 32))) : Vaults unsealed Bool :=
  ⟨fun _ => none, ⟨⟨stored, none, none, []⟩, ∅⟩⟩

def secretOf (key : Bytes 32) : NostrSecret unsealed := ⟨key, key, rfl⟩

theorem generate_calls (key : Bytes 32) (e : StoreError) : ∃ asks reads writes,
    IdentityTask.identityGenerate.program unsealed = .call (.random 32) asks ∧
      asks (some key) = .call (.read .identity) reads ∧ reads (.error e) = .call (.write .identity key) writes ∧
      writes (.ok ()) = .ret (some (secretOf key)) ∧ ∀ found, reads (.ok found) = .ret none :=
  ⟨_, _, _, rfl, rfl, rfl, rfl, fun _ => rfl⟩

theorem generate_reads (i : ι) (key : Bytes 32) (e : StoreError) (hi : s.task i = none)
    (he : Absent e → s.world.record.stored = none) :
    ∃ s' writes, Run VaultStep s [.task (.spawn i .identityGenerate), .task (.call i (.random 32) (some key)),
        .task (.call i (.read .identity) (.error e))] s' ∧
      s'.task = Function.update s.task i (some (.call (.write .identity key) writes)) ∧
      s'.world.record.stored = s.world.record.stored ∧ writes (.ok ()) = .ret (some (secretOf key)) := by
  obtain ⟨asks, reads, writes, hprog, hasks, hreads, hwrites, -⟩ := generate_calls key e
  refine ⟨_, writes, .cons (.task (.spawn _ hi)) <| .cons (.task (.call_next hprog rfl)) <|
    .cons (.task (.call_next hasks ⟨_, .error he, rfl⟩)) (.nil _), ?_, rfl, hwrites⟩
  rw [hreads]

theorem generate_writes {next : Except StoreError Unit → Prog Call.Answer _}
    (hi : s.task i = some (.call (.write .identity key) next)) (hnext : next (.ok ()) = .ret (some (secretOf key))) :
    ∃ s', Run VaultStep s [.task (.call i (.write .identity key) (.ok ())), .task (.finish i (some (secretOf key)))] s' ∧
      s'.task = Function.update s.task i none ∧ s'.world.secret = some key := by
  exact ⟨_, .cons (.task (.call hi ⟨_, .ok _ _, rfl⟩)) <| .cons (.task (.finish_next hnext)) (.nil _), rfl, rfl⟩

end

/-! ## The secret -/

/-- **If tasks write only when they found no record and none was written since, the secret is never replaced,** and whoever
is told a key is told the one in the record. -/
theorem identity_kept {s s₁ : Vaults p ι} {ls : List (VaultLabel p ι)} (hidle : ∀ i, s.task i = none)
    (hfresh : s.world.fresh = ∅) (h : Run GuardedStep s ls s₁) :
    (∀ ls' s₂, Run GuardedStep s₁ ls' s₂ → .erase ∉ ls' → ∀ key, s₁.world.secret = some key →
      s₂.world.secret = some key) ∧
    ∀ i secret s₂, GuardedStep s₁ (.task (.finish i (some secret))) s₂ → s₁.world.secret = some secret.secret := by
  have hs : Settled s := by
    intro i
    rw [hidle i]
    exact ⟨fun j hj => by rw [hfresh] at hj; exact hj.elim, nofun⟩
  have hs₁ : Settled s₁ := h.invariant (fun _ _ _ hstep => hstep.settled) hs
  refine ⟨fun ls' s₂ h' hl key => run_secret h' hl hs₁, fun i secret s₂ hfinish => ?_⟩
  cases hfinish.task with
  | finish hp =>
    obtain ⟨known, htold, hk⟩ := hs₁.running hp
    exact hk.key _ (htold secret rfl)

/-- A caller generates a key and is told the one in the record; a second one, who comes later, finds it and leaves it. -/
theorem identity_kept_second_caller : ∃ ls s₁ s₂ ls' s₃, Run GuardedStep (quietVault none) ls s₁ ∧
    GuardedStep s₁ (.task (.finish false (some (secretOf aliceKey)))) s₂ ∧ s₁.world.secret = some aliceKey ∧
    Run GuardedStep s₁ (.task (.spawn true .identityGenerate) :: ls') s₃ ∧ .task (.finish true none) ∈ ls' ∧
    s₃.world.secret = some aliceKey := by
  obtain ⟨asks, reads, writes, hprogram, hasks, hreads, hwrites, -⟩ := generate_calls aliceKey .recordNotFound
  obtain ⟨asks', reads', writes', hprogram', hasks', -, -, hfound⟩ := generate_calls bobKey .recordNotFound
  obtain ⟨s₁, h, htold, hidle, hstored⟩ :
    ∃ s₁, Run GuardedStep (quietVault none) [.task (.spawn false .identityGenerate),
      .task (.call false (.random 32) (some aliceKey)), .task (.call false (.read .identity) (.error .recordNotFound)),
      .task (.call false (.write .identity aliceKey) (.ok ()))] s₁ ∧
      s₁.task false = some (.ret (some (secretOf aliceKey))) ∧ s₁.task true = none ∧
      s₁.world.record.stored = some ⟨aliceKey, .readable⟩ :=
    ⟨_, .cons ⟨.task (.spawn _ rfl), trivial⟩ <| .cons ⟨.task (.call_next hprogram rfl), trivial⟩ <|
      .cons ⟨.task (.call_next hasks ⟨_, .error fun _ => rfl, rfl⟩), trivial⟩ <|
      .cons ⟨.task (.call_next hreads ⟨_, .ok _ _, rfl⟩), by simp [Guarded, quietVault]⟩ (.nil _),
      congrArg some hwrites, rfl, rfl⟩
  have hkept := identity_kept (fun _ => rfl) rfl h
  have hsecret := hkept.2 _ _ _ ⟨.task (.finish htold), trivial⟩
  have hlater : Run GuardedStep s₁ [.task (.spawn true .identityGenerate), .task (.call true (.random 32) (some bobKey)),
      .task (.call true (.read .identity) (.ok (some aliceKey))), .task (.finish true none)] _ :=
    .cons ⟨.task (.spawn _ hidle), trivial⟩ <| .cons ⟨.task (.call_next hprogram' rfl), trivial⟩ <|
    .cons ⟨.task (.call_next hasks' ⟨_, .value hstored, rfl⟩), trivial⟩ <|
    .cons ⟨.task (.finish_next (hfound _)), trivial⟩ (.nil _)
  exact ⟨_, s₁, _, _, _, h, ⟨.task (.finish htold), trivial⟩, hsecret, hlater, by simp,
    hkept.1 _ _ hlater (by simp) _ hsecret⟩

/-- Two callers generate a key at the same time, and one when the read fails: both times a secret is replaced. -/
theorem identity_replaced :
    (∃ ls₁ s₁ ls₂ s₂, Run VaultStep (quietVault none) ls₁ s₁ ∧
      .task (.finish false (some (secretOf aliceKey))) ∈ ls₁ ∧ s₁.world.secret = some aliceKey ∧
      Run VaultStep s₁ ls₂ s₂ ∧ .erase ∉ ls₂ ∧ s₂.world.secret = some bobKey) ∧
    ∃ ls s, Run VaultStep (quietVault (some ⟨aliceKey, .readable⟩)) ls s ∧ .erase ∉ ls ∧
      s.world.secret = some bobKey := by
  constructor
  · obtain ⟨s₁, writes, h₁, ht₁, hs₁, hw⟩ := generate_reads (s := quietVault none) false aliceKey .recordNotFound rfl
      fun _ => rfl
    obtain ⟨s₂, writes', h₂, ht₂, hs₂, hw'⟩ := generate_reads (s := s₁) true bobKey .recordNotFound
      (by rw [ht₁]; rfl) fun _ => hs₁
    obtain ⟨s₃, h₃, ht₃, hs₃⟩ := generate_writes (s := s₂) (i := false) (by rw [ht₂, ht₁]; rfl) hw
    obtain ⟨s₄, h₄, ht₄, hs₄⟩ := generate_writes (s := s₃) (i := true) (by rw [ht₃, ht₂, ht₁]; rfl) hw'
    exact ⟨_, s₃, _, s₄, (h₁.append h₂).append h₃, by simp, hs₃, h₄, by simp, hs₄⟩
  · obtain ⟨s₁, writes, h₁, ht₁, hs₁, hw⟩ :=
      generate_reads (s := quietVault (some ⟨aliceKey, .readable⟩)) false bobKey
      .io rfl nofun
    obtain ⟨s₂, h₂, -, hs₂⟩ := generate_writes (s := s₁) (i := false) (by rw [ht₁]; rfl) hw
    exact ⟨_, s₂, h₁.append h₂, by simp, hs₂⟩

end OmaChat.Daemon

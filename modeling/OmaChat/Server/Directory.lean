import OmaChat.Server.Migration
import OmaChat.Server.Effects

/-!
# The directory of accounts, devices, handles and keys

* `Directory` : the invariant of the two tables, with the exchange that bound each key;
* `directory_of_run` : the invariant in every reachable state, what later states keep of it, and which failed requests
  leave the tables as they were.
-/

namespace OmaChat.Server
open Wire Effects Proto Crypto Transition

variable {A : List NostrRow} {D : List DeviceRow} {server : Bytes 32} {v : Verifier} {xs ys : List Handled}

/-! ## The invariant -/

/-- The invariant of the directory after the exchanges `xs`. -/
structure Directory (v : Verifier) (server : Bytes 32) (xs : List Handled) (A : List NostrRow)
    (D : List DeviceRow) : Prop where
  ids : (A.map (·.id)).Nodup
  devices : (D.map (·.publicKey)).Nodup
  /-- A device belongs to an account, and by `ids` and `devices` to one. -/
  owner : ∀ d ∈ D, ∃ a ∈ A, a.id = d.accountId
  grammar : ∀ a ∈ A, ∀ handle, a.handle = some handle → validHandleBytes (utf8 handle) = true
  handles : ∀ a ∈ A, ∀ b ∈ A, ∀ handle, a.handle = some handle → b.handle = some handle → a.id = b.id
  keys : ∀ a ∈ A, ∀ b ∈ A, ∀ key, a.nostrPubkey = some key → b.nostrPubkey = some key → a.id = b.id
  bound : ∀ a ∈ A, ∀ key, a.nostrPubkey = some key →
    ∃ handle, a.handle = some handle ∧ ∃ x ∈ xs, SignedBinding v server a.id handle key x

/-- What later states keep: a device stays with its account, and an account with a handle keeps it. -/
structure Persists (A : List NostrRow) (D : List DeviceRow) (A' : List NostrRow)
    (D' : List DeviceRow) : Prop where
  devices : ∀ d ∈ D, ∃ d' ∈ D', d'.publicKey = d.publicKey ∧ d'.accountId = d.accountId
  handles : ∀ a ∈ A, ∀ handle, a.handle = some handle → ∃ a' ∈ A', a'.id = a.id ∧ a'.handle = some handle

section Invariant
variable {x : Handled} {A' A'' : List NostrRow} {D' D'' : List DeviceRow}

theorem Directory.empty (v : Verifier) (server : Bytes 32) : Directory v server [] [] [] :=
  ⟨List.nodup_nil, List.nodup_nil, nofun, nofun, nofun, nofun, nofun⟩

theorem Persists.refl (A : List NostrRow) (D : List DeviceRow) : Persists A D A D where
  devices d hd := ⟨d, hd, rfl, rfl⟩
  handles a ha _ h := ⟨a, ha, rfl, h⟩

theorem Persists.trans (h : Persists A D A' D') (h' : Persists A' D' A'' D'') : Persists A D A'' D'' where
  devices d hd := by
    obtain ⟨d₁, hd₁, hkey₁, hid₁⟩ := h.devices d hd
    obtain ⟨d₂, hd₂, hkey₂, hid₂⟩ := h'.devices d₁ hd₁
    exact ⟨d₂, hd₂, hkey₂.trans hkey₁, hid₂.trans hid₁⟩
  handles a ha handle hhdl := by
    obtain ⟨a₁, ha₁, hid₁, hhdl₁⟩ := h.handles a ha handle hhdl
    obtain ⟨a₂, ha₂, hid₂, hhdl₂⟩ := h'.handles a₁ ha₁ handle hhdl₁
    exact ⟨a₂, ha₂, hid₂.trans hid₁, hhdl₂⟩

theorem Directory.mono (h : Directory v server xs A D) : Directory v server (xs ++ [x]) A D :=
  { h with
    bound := by
      intro a ha key hkey
      obtain ⟨handle, hhdl, y, hy, hsigned⟩ := h.bound a ha key hkey
      exact ⟨handle, hhdl, y, List.mem_append_left _ hy, hsigned⟩ }

variable {handle id text : String} {a : NostrRow} {key : Blob}
  {f : NostrRow → NostrRow}

theorem Directory.map (h : Directory v server xs A D) (hid : ∀ a, (f a).id = a.id)
    (grammar : ∀ a ∈ A, ∀ handle, (f a).handle = some handle → validHandleBytes (utf8 handle) = true)
    (handles : ∀ a ∈ A, ∀ b ∈ A, ∀ handle, (f a).handle = some handle → (f b).handle = some handle → a.id = b.id)
    (keys : ∀ a ∈ A, ∀ b ∈ A, ∀ key, (f a).nostrPubkey = some key → (f b).nostrPubkey = some key → a.id = b.id)
    (bound : ∀ a ∈ A, ∀ key, (f a).nostrPubkey = some key →
      ∃ handle, (f a).handle = some handle ∧ ∃ x ∈ ys, SignedBinding v server a.id handle key x) :
    Directory v server ys (A.map f) D := by
  have hids : (A.map f).map (·.id) = A.map (·.id) := by
    rw [List.map_map]
    exact List.map_congr_left fun a _ => hid a
  refine ⟨hids ▸ h.ids, h.devices, ?_, ?_, ?_, ?_, ?_⟩
  · intro d hd
    obtain ⟨a, ha, hida⟩ := h.owner d hd
    exact ⟨f a, List.mem_map_of_mem ha, (hid a).trans hida⟩
  · intro a' ha'
    obtain ⟨a, ha, rfl⟩ := List.mem_map.1 ha'
    exact grammar a ha
  · intro a' ha' b' hb' handle hahandle hbhandle
    obtain ⟨a, ha, rfl⟩ := List.mem_map.1 ha'
    obtain ⟨b, hb, rfl⟩ := List.mem_map.1 hb'
    rw [hid, hid]
    exact handles a ha b hb handle hahandle hbhandle
  · intro a' ha' b' hb' key hakey hbkey
    obtain ⟨a, ha, rfl⟩ := List.mem_map.1 ha'
    obtain ⟨b, hb, rfl⟩ := List.mem_map.1 hb'
    rw [hid, hid]
    exact keys a ha b hb key hakey hbkey
  · intro a' ha' key hkey
    obtain ⟨a, ha, rfl⟩ := List.mem_map.1 ha'
    rw [hid]
    exact bound a ha key hkey

theorem Directory.touched (h : Directory v server xs A D) (publicKey : Blob) (lastSeen : Int) :
    Directory v server xs A (D.map (touchRow publicKey lastSeen)) :=
  { h with
    devices := by
      rw [List.map_map, List.map_congr_left (g := (·.publicKey))]
      · exact h.devices
      · intro d _
        simp only [Function.comp, touchRow]
        split <;> rfl
    owner := by
      intro d hd
      obtain ⟨d₀, hd₀, rfl⟩ := List.mem_map.1 hd
      obtain ⟨a, ha, hid⟩ := h.owner d₀ hd₀
      refine ⟨a, ha, ?_⟩
      unfold touchRow
      split <;> exact hid }

theorem nodup_map_concat {α β : Type} {l : List α} {a : α} {f : α → β} (h : (l.map f).Nodup)
    (ha : ∀ b ∈ l, f b ≠ f a) :
    ((l ++ [a]).map f).Nodup := by
  rw [List.map_append, List.nodup_append']
  refine ⟨h, List.nodup_singleton _, ?_⟩
  rw [List.disjoint_left]
  intro y hy hy'
  obtain ⟨b, hb, rfl⟩ := List.mem_map.1 hy
  exact ha b hb (List.mem_singleton.1 hy')

theorem Directory.created (h : Directory v server xs A D) {displayName : String} {publicKey : Blob} {now : Int}
    (hid : ∀ a ∈ A, a.id ≠ id) (hkey : ∀ d ∈ D, d.publicKey ≠ publicKey) :
    Directory v server xs (A ++ [⟨id, none, displayName, now, none⟩]) (D ++ [⟨publicKey, id, now, now⟩]) := by
  -- the new row has neither a handle nor a key
  have hold {a : NostrRow} (ha : a ∈ A ++ [⟨id, none, displayName, now, none⟩])
      (hsome : (∃ handle, a.handle = some handle) ∨ ∃ key, a.nostrPubkey = some key) : a ∈ A := by
    rcases List.mem_append.1 ha with ha | ha
    · exact ha
    · rw [List.mem_singleton.1 ha] at hsome
      rcases hsome with ⟨_, h⟩ | ⟨_, h⟩ <;> cases h
  refine ⟨nodup_map_concat h.ids hid, nodup_map_concat h.devices hkey, ?_, ?_, ?_, ?_, ?_⟩
  · intro d hd
    rcases List.mem_append.1 hd with hd | hd
    · obtain ⟨a, ha, hida⟩ := h.owner d hd
      exact ⟨a, List.mem_append_left _ ha, hida⟩
    · rw [List.mem_singleton.1 hd]
      exact ⟨_, List.mem_append_right _ (List.mem_singleton_self _), rfl⟩
  · intro a ha handle hhdl
    exact h.grammar a (hold ha (.inl ⟨_, hhdl⟩)) handle hhdl
  · intro a ha b hb handle hahandle hbhandle
    exact h.handles a (hold ha (.inl ⟨_, hahandle⟩)) b (hold hb (.inl ⟨_, hbhandle⟩)) handle hahandle hbhandle
  · intro a ha b hb key hakey hbkey
    exact h.keys a (hold ha (.inr ⟨_, hakey⟩)) b (hold hb (.inr ⟨_, hbkey⟩)) key hakey hbkey
  · intro a ha key hakey
    exact h.bound a (hold ha (.inr ⟨_, hakey⟩)) key hakey

/-! ## The rows that change -/

theorem claimRow_handle (h : (claimRow id handle a).handle = some text) :
    a.handle = some text ∨ a.id = id ∧ a.handle = none ∧ text = handle := by
  unfold claimRow at h
  split_ifs at h with hsel
  · rw [Bool.and_eq_true, beq_iff_eq, Option.isNone_iff_eq_none] at hsel
    exact .inr ⟨hsel.1, hsel.2, (Option.some.inj h).symm⟩
  · exact .inl h

theorem claimRow_rest (id handle : String) (a : NostrRow) :
    (claimRow id handle a).id = a.id ∧ (claimRow id handle a).nostrPubkey = a.nostrPubkey := by
  unfold claimRow
  split_ifs <;> exact ⟨rfl, rfl⟩

theorem claimRow_of_handle (h : a.handle = some text) : (claimRow id handle a).handle = some text := by
  unfold claimRow
  simp [h]

theorem bindRow_key {key' : Blob} (h : (bindRow id key a).nostrPubkey = some key') :
    a.id = id ∧ key' = key ∨ a.id ≠ id ∧ a.nostrPubkey = some key' := by
  unfold bindRow at h
  split_ifs at h with hsel
  · exact .inl ⟨beq_iff_eq.1 hsel, (Option.some.inj h).symm⟩
  · exact .inr ⟨fun hid => hsel (beq_iff_eq.2 hid), h⟩

theorem bindRow_rest (id : String) (key : Blob) (a : NostrRow) :
    (bindRow id key a).id = a.id ∧ (bindRow id key a).handle = a.handle := by
  unfold bindRow
  split_ifs <;> exact ⟨rfl, rfl⟩

theorem clearRow_key (h : (clearRow id a).nostrPubkey = some key) : a.nostrPubkey = some key := by
  unfold clearRow at h
  split_ifs at h
  exact h

theorem clearRow_rest (id : String) (a : NostrRow) :
    (clearRow id a).id = a.id ∧ (clearRow id a).handle = a.handle := by
  unfold clearRow
  split_ifs <;> exact ⟨rfl, rfl⟩

section
variable (h : Directory v server xs A D)
include h

theorem Directory.claimed (id : String) {handle : GlobalHandle}
    (hfree : ∀ a ∈ A, a.handle ≠ some handle.text) : Directory v server xs (A.map (claimRow id handle.text)) D := by
  apply h.map fun a => (claimRow_rest id handle.text a).1
  · intro a ha text htext
    rcases claimRow_handle htext with hold | ⟨-, -, rfl⟩
    · exact h.grammar a ha text hold
    · exact handle.valid
  · intro a ha b hb text hatext hbtext
    rcases claimRow_handle hatext with haold | ⟨haid, -, rfl⟩
    · rcases claimRow_handle hbtext with hbold | ⟨-, -, rfl⟩
      · exact h.handles a ha b hb text haold hbold
      · exact absurd haold (hfree a ha)
    · rcases claimRow_handle hbtext with hbold | ⟨hbid, -, -⟩
      · exact absurd hbold (hfree b hb)
      · rw [haid, hbid]
  · intro a ha b hb key hakey hbkey
    rw [(claimRow_rest id handle.text _).2] at hakey hbkey
    exact h.keys a ha b hb key hakey hbkey
  · intro a ha key hkey
    rw [(claimRow_rest id handle.text a).2] at hkey
    obtain ⟨text, htext, hsigned⟩ := h.bound a ha key hkey
    exact ⟨text, claimRow_of_handle htext, hsigned⟩

theorem Directory.bindKey (ha : a ∈ A) (hid : a.id = id) (hhdl : a.handle = some handle)
    (hfree : ∀ b ∈ A, b.nostrPubkey = some key → b.id = id) (hsigned : SignedBinding v server id handle key x) :
    Directory v server (xs ++ [x]) (A.map (bindRow id key)) D := by
  apply h.map fun b => (bindRow_rest id key b).1
  · intro b hb text htext
    rw [(bindRow_rest id key b).2] at htext
    exact h.grammar b hb text htext
  · intro b hb b' hb' text htext htext'
    rw [(bindRow_rest id key _).2] at htext htext'
    exact h.handles b hb b' hb' text htext htext'
  · intro b hb b' hb' key' hkey hkey'
    rcases bindRow_key hkey with ⟨hb₁, rfl⟩ | ⟨hb₁, hold⟩
    · rcases bindRow_key hkey' with ⟨hb₂, -⟩ | ⟨-, hold'⟩
      · rw [hb₁, hb₂]
      · rw [hb₁, hfree b' hb' hold']
    · rcases bindRow_key hkey' with ⟨-, rfl⟩ | ⟨-, hold'⟩
      · exact absurd (hfree b hb hold) hb₁
      · exact h.keys b hb b' hb' key' hold hold'
  · intro b hb key' hkey
    rw [(bindRow_rest id key b).2]
    rcases bindRow_key hkey with ⟨hbid, rfl⟩ | ⟨-, hold⟩
    · -- ids are unique, so this is the row of the account
      have hb' : b = a := List.inj_on_of_nodup_map h.ids hb ha (hbid.trans hid.symm)
      subst hb'
      exact ⟨handle, hhdl, x, by simp, hid ▸ hsigned⟩
    · exact h.mono.bound b hb key' hold

theorem Directory.cleared (id : String) : Directory v server xs (A.map (clearRow id)) D := by
  apply h.map fun a => (clearRow_rest id a).1
  · intro a ha text htext
    rw [(clearRow_rest id a).2] at htext
    exact h.grammar a ha text htext
  · intro a ha b hb text hatext hbtext
    rw [(clearRow_rest id _).2] at hatext hbtext
    exact h.handles a ha b hb text hatext hbtext
  · intro a ha b hb key hakey hbkey
    exact h.keys a ha b hb key (clearRow_key hakey) (clearRow_key hbkey)
  · intro a ha key hkey
    rw [(clearRow_rest id a).2]
    exact h.bound a ha key (clearRow_key hkey)

/-- **Every effect keeps the invariant.** -/
theorem Directory.effect (he : Effect v server A D x A' D') : Directory v server (xs ++ [x]) A' D' := by
  cases he with
  | none => exact h.mono
  | touched publicKey lastSeen => exact (h.touched publicKey lastSeen).mono
  | created id displayName publicKey now _ _ hid hkey => exact (h.created hid hkey).mono
  | claimed id handle _ _ hfree => exact (h.claimed id hfree).mono
  | bound id handle key a _ _ ha hid hhdl hfree hsigned => exact h.bindKey ha hid hhdl hfree hsigned
  | cleared id => exact (h.cleared id).mono

end

theorem Persists.of_map (hid : ∀ a, (f a).id = a.id)
    (hhdl : ∀ a ∈ A, ∀ handle, a.handle = some handle → (f a).handle = some handle) : Persists A D (A.map f) D where
  devices d hd := ⟨d, hd, rfl, rfl⟩
  handles a ha handle h := ⟨f a, List.mem_map_of_mem ha, hid a, hhdl a ha handle h⟩

theorem Effect.persists (he : Effect v server A D x A' D') : Persists A D A' D' := by
  cases he with
  | none => exact .refl A D
  | touched publicKey lastSeen =>
    refine ⟨?_, (Persists.refl A D).handles⟩
    intro d hd
    refine ⟨_, List.mem_map_of_mem hd, ?_⟩
    unfold touchRow
    split <;> exact ⟨rfl, rfl⟩
  | created =>
    refine ⟨?_, ?_⟩
    · intro d hd
      exact ⟨d, List.mem_append_left _ hd, rfl, rfl⟩
    · intro a ha handle hhdl
      exact ⟨a, List.mem_append_left _ ha, rfl, hhdl⟩
  | claimed id handle => exact .of_map (fun a => (claimRow_rest id handle.text a).1) fun a _ _ => claimRow_of_handle
  | bound id _ key =>
    refine .of_map (fun a => (bindRow_rest id key a).1) fun a _ handle hhdl => ?_
    rw [(bindRow_rest id key a).2, hhdl]
  | cleared id =>
    refine .of_map (fun a => (clearRow_rest id a).1) fun a _ handle hhdl => ?_
    rw [(clearRow_rest id a).2, hhdl]

theorem Effect.unchanged_iff (he : Effect v server A D x A' D') {e : ServerError} (hans : x.answer = .error e) :
    A' = A ∧ D' = D ↔ ¬ LookupLost x.log := by
  cases he with
  | none hlost => exact iff_of_true ⟨rfl, rfl⟩ hlost
  | touched _ _ _ hok => cases hok.symm.trans hans
  | created _ _ _ _ _ hok => cases hok.symm.trans hans
  | claimed _ _ _ hok => cases hok.symm.trans hans
  | bound _ _ _ _ _ hok => cases hok.symm.trans hans
  | cleared id a ha hid hkey hlost =>
    refine iff_of_false ?_ (not_not.2 (hlost.2 ⟨e, hans⟩))
    intro hsame
    -- the row of the account is still among the rows, with its key
    rw [← hsame.1] at ha
    obtain ⟨b, -, rfl⟩ := List.mem_map.1 ha
    apply hkey
    rw [(clearRow_rest id b).1] at hid
    unfold clearRow
    split_ifs with hsel
    · rfl
    · simpa [hid] using hsel

end Invariant

/-! ## Runs -/

section
variable {c c' : Service × Database}

theorem directory_run (hsrv : c.1.config.serverPublicKey = server) (htab : Tables c.2 A D)
    (h : Directory v server xs A D) (hrun : Run (DirectoryStep v) c ys c') :
    c'.1.config.serverPublicKey = server ∧
      ∃ A' D', Tables c'.2 A' D' ∧ Directory v server (xs ++ ys) A' D' ∧ Persists A D A' D' := by
  induction hrun generalizing xs A D with
  | nil c => exact ⟨hsrv, A, D, htab, by rwa [List.append_nil], .refl A D⟩
  | @cons c c₁ c' x ys hstep _ ih =>
    obtain ⟨hcfg, A₁, D₁, htab₁, heff⟩ := step_effect htab hstep
    rw [hsrv] at heff
    obtain ⟨hsrv', A', D', htab', h', hpersists⟩ := ih ((congrArg _ hcfg).trans hsrv) htab₁ (h.effect heff)
    rw [List.append_assoc] at h'
    exact ⟨hsrv', A', D', htab', h', heff.persists.trans hpersists⟩

end

/-- **The directory of the service.** After every run from an empty directory, whatever the database answers: a device
belongs to one account, a handle has the grammar of handles and belongs to one account, and a bound key belongs to one
account, which has a handle, and the key and the device signed the binding. What a device and a handle belong to is the
same in all later states. A request that is then answered with an error leaves both tables as they were, exactly if it is
not an `unbind-nostr` that lost its query for the account after it cleared the key. -/
theorem directory_of_run (v : Verifier) (c₀ c c' : Service × Database) (xs ys : List Handled) (h₀ : Tables c₀.2 [] [])
    (hrun : Run (DirectoryStep v) c₀ xs c) (hlater : Run (DirectoryStep v) c ys c') :
    ∃ A D A' D', Tables c.2 A D ∧ Tables c'.2 A' D' ∧ Directory v c₀.1.config.serverPublicKey xs A D ∧
      Persists A D A' D' ∧
      ∀ x c₁, DirectoryStep v c x c₁ → ∀ e, x.answer = .error e →
        (SameDirectory c.2 c₁.2 ↔ ¬ LookupLost x.log) := by
  obtain ⟨hserver, A, D, htables, hdirectory, -⟩ := directory_run rfl h₀ (.empty v _) hrun
  obtain ⟨-, A', D', htables', -, hpersists⟩ := directory_run hserver htables hdirectory hlater
  refine ⟨A, D, A', D', htables, htables', hdirectory, hpersists, ?_⟩
  intro x c₁ hstep e he
  obtain ⟨-, A₁, D₁, htables₁, heffect⟩ := step_effect htables hstep
  rw [← heffect.unchanged_iff he]
  unfold SameDirectory
  rw [htables₁.accounts_eq, htables₁.devices_eq, htables.accounts_eq, htables.devices_eq]
  simp

/-! ## A lost query -/

/-- A database that fails the calls with the numbers in `fails`. -/
def failing (entropy : (n : Nat) → Option (Bytes n)) (fails : Nat → Bool) :
    (call : Call) → Database × CallLog → call.Answer × (Database × CallLog)
  | .sql s, (db, log) =>
    let outcome := if fails log.length then (.error .io, db) else s.eval db
    (outcome.1, (outcome.2, log ++ [⟨.sql s, outcome.1⟩]))
  | .random n, (db, log) => (entropy n, (db, log ++ [⟨.random n, entropy n⟩]))

theorem logged_failing (entropy : (n : Nat) → Option (Bytes n)) (fails : Nat → Bool) (call : Call)
    (w : Database × CallLog) :
    Prog.logged SqliteStep call w (failing entropy fails call w).1 (failing entropy fails call w).2 := by
  obtain ⟨db, log⟩ := w
  cases call with
  | random n => exact ⟨rfl, rfl⟩
  | sql s =>
    refine ⟨?_, rfl⟩
    simp only [failing]
    split
    · exact .inr ⟨rfl, rfl⟩
    · exact .inl rfl

/-- The service of keys that sign in the open answers a request. -/
def answerWith (fails : Nat → Bool) (c : Service × Database) (request : ServiceRequest) : Handled × (Service × Database) :=
  let outcome := (Service.handle .transparent request c.1).run (failing (fun n => some (.replicate n 9)) fails) (c.2, [])
  (⟨request, outcome.1.1, outcome.2.2⟩, (outcome.1.2, outcome.2.1))

theorem directoryStep_answerWith (fails : Nat → Bool) (c : Service × Database) (request : ServiceRequest) :
    DirectoryStep .transparent c (answerWith fails c request).1 (answerWith fails c request).2 :=
  Prog.exec_run (logged_failing _ fails) _ _

def newService : Service × Database where
  fst := { config := ⟨.replicate 32 0, []⟩, subscribers := fun _ => [] }
  snd := ((openStorage .transparent (.replicate 32 0) ()).run (sqlite fun n => some (.replicate n 9)) .fresh).2

def firstAccount : String := "09090909090909090909090909090909"

/-- A device registers, claims the handle `ada` and binds a Nostr key. -/
def registered : Handled × (Service × Database) :=
  answerWith (fun _ => false) newService (.register (.replicate 32 1) none 1000)

def claimed : Handled × (Service × Database) :=
  answerWith (fun _ => false) registered.2 (.command firstAccount (.replicate 32 1) (.claimHandle "ada") 1000)

def boundKey : Handled × (Service × Database) :=
  answerWith (fun _ => false) claimed.2 (.command firstAccount (.replicate 32 1) aheadProof 1000)

/-- The device unbinds the key, and the sixth call, which looks for the account, fails. -/
def unbindLost : Handled × (Service × Database) :=
  answerWith (· == 5) boundKey.2 (.command firstAccount (.replicate 32 1)
    (.unbindNostr "0808080808080808080808080808080808080808080808080808080808080808" 1000
      "0101010101010101010101010101010101010101010101010101010101010101e803000000000000080808080808080808080808080808080808080808080808")
    1000)

theorem run_boundKey :
    Run (DirectoryStep .transparent) newService [registered.1, claimed.1, boundKey.1] boundKey.2 :=
  .cons (directoryStep_answerWith _ _ _) (.cons (directoryStep_answerWith _ _ _)
    (.cons (directoryStep_answerWith _ _ _) (.nil _)))

def Handled.error? (x : Handled) : Option ServerError :=
  match x.answer with
  | .error e => some e
  | .ok _ => none

theorem accounts_unbindLost :
    (boundKey.2.2.accounts, unbindLost.2.2.accounts, unbindLost.1.error?) =
      (some (.withNostr [⟨firstAccount, some "ada", "user-01010101", 1000, some (List.replicate 32 5)⟩] true),
        some (.withNostr [⟨firstAccount, some "ada", "user-01010101", 1000, none⟩] true),
        some ⟨.storage, "persistent storage failed"⟩) := by
  decide +kernel

theorem directory_of_run_boundKey :
    Tables newService.2 [] [] ∧ ∃ A D, Tables boundKey.2.2 A D ∧
      Directory .transparent (.replicate 32 0) [registered.1, claimed.1, boundKey.1] A D ∧
      (A.map fun a => (a.handle, a.nostrPubkey)) = [(some "ada", some (List.replicate 32 5))] := by
  obtain ⟨A, D, -, -, htables, -, hdirectory, -, -⟩ := directory_of_run .transparent newService boundKey.2 unbindLost.2
    [registered.1, claimed.1, boundKey.1] [unbindLost.1] ⟨rfl, rfl⟩ run_boundKey
    (.cons (directoryStep_answerWith _ _ _) (.nil _))
  refine ⟨⟨rfl, rfl⟩, A, D, htables, hdirectory, ?_⟩
  have hA := htables.accounts_eq.symm.trans (Prod.mk.inj accounts_unbindLost).1
  cases hA
  rfl

/-- The query that `unbind-nostr` makes last fails: the device is told that the storage failed, and its key is gone. -/
theorem unbind_fails_and_clears :
    Tables newService.2 [] [] ∧
      Run (DirectoryStep .transparent) newService [registered.1, claimed.1, boundKey.1, unbindLost.1] unbindLost.2 ∧
      unbindLost.1.error? = some ⟨.storage, "persistent storage failed"⟩ ∧
      boundKey.2.2.accounts = some (.withNostr [⟨firstAccount, some "ada", "user-01010101", 1000,
        some (List.replicate 32 5)⟩] true) ∧
      unbindLost.2.2.accounts = some (.withNostr [⟨firstAccount, some "ada", "user-01010101", 1000, none⟩] true) ∧
      ¬ SameDirectory boundKey.2.2 unbindLost.2.2 := by
  have h := accounts_unbindLost
  rw [Prod.mk.injEq, Prod.mk.injEq] at h
  obtain ⟨hbefore, hafter, hanswer⟩ := h
  refine ⟨⟨rfl, rfl⟩, run_boundKey.append (.cons (directoryStep_answerWith _ _ _) (.nil _)), hanswer, hbefore, hafter, ?_⟩
  intro hsame
  have h := hsame.1
  rw [hbefore, hafter] at h
  cases h

end OmaChat.Server

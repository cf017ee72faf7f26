import OmaChat.Lib.Run
import OmaChat.Server.Frames

/-!
# Replayed proofs

A bind or unbind proof carries a nonce and a timestamp. The service accepts a timestamp within 300 seconds of its clock on
either side, and it remembers a nonce for 300 seconds after it saw it. The two windows do not cover each other: a proof
whose timestamp lies ahead of the clock stays fresh for longer than its nonce is remembered.

* `ReplayWindow timestamp seen now` : the nonce of a fresh proof that was seen at `seen` is forgotten at `now`, and the
  timestamp is still fresh.
* `NoncesKept` : what every request keeps of the table of nonces.
* `accepted_at_most_once` : in every run without a resubmission in the replay window, a proof is accepted at most once.
-/

namespace OmaChat.Server
open Wire Effects Proto Transition

variable {accountId nonceText : String} {nonce : Bytes 32} {now timestamp : UInt64} {oldest : Int} {proof : Command}
  {request : ServiceRequest} {s : Statement} {v : Verifier} {σ : Type}

/-! ## The table of nonces -/

/-- The row is in the table `nostr_proof_nonces`. -/
def HasNonce (db : Database) (row : NonceRow) : Prop := ∃ rows, db.proofNonces = some rows ∧ row ∈ rows

/-- The rows seen at `oldest` or later are kept from `c` to `c'`. -/
def NoncesKept (σ : Type) (oldest : Int) (c c' : σ × Database) : Prop :=
  ∀ row, oldest ≤ row.seenAt → HasNonce c.2 row → HasNonce c'.2 row

instance (σ : Type) (oldest : Int) : IsPreorder (σ × Database) (NoncesKept σ oldest) where
  refl _ _ _ h := h
  trans _ _ _ h h' row hrow hin := h' row hrow (h row hrow hin)

variable {db : Database} {row : NonceRow}

theorem NoncesKept.of_eq {c c' : σ × Database} (h : c'.2.proofNonces = c.2.proofNonces) : NoncesKept σ oldest c c' := by
  rintro row - ⟨rows, hrows, hin⟩
  exact ⟨rows, h.trans hrows, hin⟩

section Frames
variable {α : Type} (db : Database)

theorem onMeta_proofNonces (f : List MetaRow → Except SqlError α × List MetaRow) :
    (db.onMeta f).2.proofNonces = db.proofNonces := by
  unfold Database.onMeta; split <;> rfl

theorem onAccounts_proofNonces (f : AccountsTable → Except SqlError α × AccountsTable) :
    (db.onAccounts f).2.proofNonces = db.proofNonces := by
  unfold Database.onAccounts; split <;> rfl

theorem onDevices_proofNonces (f : List DeviceRow → Except SqlError α × List DeviceRow) :
    (db.onDevices f).2.proofNonces = db.proofNonces := by
  unfold Database.onDevices; split <;> rfl

theorem insertAccountAndDevice_proofNonces (id displayName : String) (publicKey : Blob) (now : Int) :
    (db.insertAccountAndDevice id displayName publicKey now).2.proofNonces = db.proofNonces := by
  have h₁ := onAccounts_proofNonces db (AccountsTable.insert id displayName now)
  unfold Database.insertAccountAndDevice
  rcases ha : db.onAccounts (AccountsTable.insert id displayName now) with ⟨_ | _, db₁⟩
  · rfl
  rw [ha] at h₁
  have h₂ := onDevices_proofNonces db₁ (insertDeviceRow ⟨publicKey, id, now, now⟩)
  dsimp only
  rcases hd : db₁.onDevices (insertDeviceRow ⟨publicKey, id, now, now⟩) with ⟨_ | _, db₂⟩
  · rfl
  · rw [hd] at h₂
    exact h₂.trans h₁

end Frames

theorem mem_onNonces_delete (hrow : oldest ≤ row.seenAt)
    (h : HasNonce db row) : HasNonce ((Statement.deleteNoncesBefore oldest).eval db).2 row := by
  obtain ⟨rows, hrows, hin⟩ := h
  refine ⟨rows.filter fun row => !(row.seenAt < oldest), ?_, ?_⟩
  · simp only [Statement.eval, Database.onNonces, hrows]
  · rw [List.mem_filter]
    exact ⟨hin, by simpa using hrow⟩

theorem mem_onNonces_insert {new : NonceRow} (h : HasNonce db row) : HasNonce (db.onNonces (insertNonceRow new)).2 row := by
  obtain ⟨rows, hrows, hin⟩ := h
  simp only [Database.onNonces, hrows, insertNonceRow]
  split
  · exact ⟨rows, rfl, hin⟩
  · exact ⟨rows ++ [new], rfl, List.mem_append_left _ hin⟩

theorem noncesKept_eval {s : σ} (statement : Statement)
    (hpurge : ∀ limit, statement = .deleteNoncesBefore limit → limit ≤ oldest) (db : Database) :
    NoncesKept σ oldest (s, db) (s, (statement.eval db).2) := by
  cases statement with
  | deleteNoncesBefore limit =>
    intro row hrow hin
    exact mem_onNonces_delete ((hpurge limit rfl).trans hrow) hin
  | insertNonce nonce accountId seenAt => exact fun row _ hin => mem_onNonces_insert hin
  | createProofNonces =>
    rintro row - ⟨rows, hrows, hin⟩
    change db.proofNonces = some rows at hrows
    exact ⟨rows, by simp only [Statement.eval, hrows, Option.getD_some], hin⟩
  | selectDeviceAccount publicKey =>
    refine NoncesKept.of_eq ?_
    simp only [Statement.eval]
    split
    · rfl
    · exact onAccounts_proofNonces db _
  | insertAccountAndDevice id displayName publicKey now =>
    exact NoncesKept.of_eq (insertAccountAndDevice_proofNonces db id displayName publicKey now)
  | createMeta => exact NoncesKept.of_eq rfl
  | createAccounts => exact NoncesKept.of_eq rfl
  | createDevices => exact NoncesKept.of_eq rfl
  | selectMeta => exact NoncesKept.of_eq (onMeta_proofNonces db _)
  | upsertMeta => exact NoncesKept.of_eq (onMeta_proofNonces db _)
  | insertMeta => exact NoncesKept.of_eq (onMeta_proofNonces db _)
  | touchDevice => exact NoncesKept.of_eq (onDevices_proofNonces db _)
  | _ =>
    exact NoncesKept.of_eq (onAccounts_proofNonces db _)

/-! ## What requests keep -/

theorem statementKeeps_nonces (hpurge : ∀ limit, s = .deleteNoncesBefore limit → limit ≤ oldest) :
    StatementKeeps SqliteStep (NoncesKept σ oldest) s := by
  intro u db r db' hstep
  rcases hstep with hstep | ⟨-, rfl⟩
  · have hdb' : db' = (s.eval db).2 := congrArg Prod.snd hstep
    exact hdb' ▸ noncesKept_eval s hpurge db
  · exact refl_of (NoncesKept σ oldest) _

theorem statementKeeps_nonces_of_ne (h : ∀ limit, s ≠ .deleteNoncesBefore limit) :
    StatementKeeps SqliteStep (NoncesKept σ oldest) s :=
  statementKeeps_nonces fun limit hs => absurd hs (h limit)

theorem noncesKept_handle (v : Verifier)
    (hold : ∀ now, request.now? = some now → toI64 (satSub now nostrProofSkewSeconds) ≤ oldest) :
    Method.Keeps SqliteStep (NoncesKept Service oldest) (Service.handle v request) := by
  refine keeps_handle v ?_ ?_ (fun s => statementKeeps_nonces_of_ne) fun now hnow => ?_
  · intro n u db r db' hstep
    cases hstep
    exact refl_of (NoncesKept Service oldest) _
  · exact fun _ _ _ => NoncesKept.of_eq rfl
  · refine statementKeeps_nonces fun limit hlimit => ?_
    cases hlimit
    exact hold now hnow

/-! ## Accepted proofs -/

section
variable {c c' : σ × Database}

theorem exec_result_ok {r : Except SqlError s.Answer} :
    (result s).Exec SqliteStep c (.ok r) c' ↔ SqliteStep (.sql s) c.2 r c'.2 ∧ c'.1 = c.1 := by
  rw [result, Method.exec_request]
  constructor
  · rintro ⟨r', hstep, hr, hc⟩
    cases hr
    exact ⟨hstep, hc⟩
  · rintro ⟨hstep, hc⟩
    exact ⟨r, hstep, rfl, hc⟩

theorem exec_execute_ok {a : s.Answer} :
    (execute s).Exec SqliteStep c (.ok a) c' ↔ s.eval c.2 = (.ok a, c'.2) ∧ c'.1 = c.1 := by
  rw [execute, Method.exec_bind_ok]
  constructor
  · rintro ⟨r, c₁, hr, hrest⟩
    obtain ⟨hstep, hc⟩ := exec_result_ok.1 hr
    cases r with
    | error e =>
      obtain ⟨h, -⟩ := Method.exec_throw.1 hrest
      cases h
    | ok a' =>
      obtain ⟨h, rfl⟩ := Method.exec_pure.1 hrest
      cases h
      rcases hstep with hstep | ⟨h, -⟩
      · exact ⟨hstep.symm, hc⟩
      · cases h
  · rintro ⟨heval, hc⟩
    exact ⟨.ok a, c', exec_result_ok.2 ⟨.inl heval.symm, hc⟩, Method.exec_pure.2 ⟨rfl, rfl⟩⟩

theorem exec_rememberProofNonce_ok {skewSeconds : UInt64}
    (h : (rememberProofNonce nonce accountId now skewSeconds).Exec SqliteStep c (.ok ()) c') :
    (∀ row, HasNonce c.2 row → toI64 (satSub now skewSeconds) ≤ row.seenAt → row.nonce ≠ nonce.val) ∧
      HasNonce c'.2 ⟨nonce.val, accountId, toI64 now⟩ := by
  obtain ⟨_, c₁, hdel, hins⟩ := Method.exec_bind_ok.1 h
  obtain ⟨heval, -⟩ := exec_execute_ok.1 hdel
  obtain ⟨r, c₂, hres, hlast⟩ := Method.exec_bind_ok.1 hins
  obtain ⟨hstep, -⟩ := exec_result_ok.1 hres
  have hdb : ((Statement.deleteNoncesBefore (toI64 (satSub now skewSeconds))).eval c.2).2 = c₁.2 := by rw [heval]
  cases r with
  | error e =>
    obtain ⟨h, -⟩ := Method.exec_throw.1 hlast
    cases h
  | ok _ =>
    obtain ⟨-, rfl⟩ := Method.exec_pure.1 hlast
    rcases hstep with hstep | ⟨h, -⟩
    swap
    · cases h
    simp only [Statement.eval, Database.onNonces, insertNonceRow] at hstep
    cases hrows : c₁.2.proofNonces with
    | none => simp [hrows] at hstep
    | some rows =>
      simp only [hrows] at hstep
      split at hstep
      · simp at hstep
      next hnew =>
        rw [Bool.not_eq_true, List.any_eq_false] at hnew
        refine ⟨fun row hrow hold heq => ?_, rows ++ [⟨nonce.val, accountId, toI64 now⟩], ?_, by simp⟩
        · have hin := mem_onNonces_delete hold hrow
          rw [hdb] at hin
          obtain ⟨rows', hrows', hmem⟩ := hin
          rw [hrows, Option.some_inj] at hrows'
          subst hrows'
          exact hnew row hmem (by simp [heq])
        · rw [Prod.mk.injEq] at hstep
          rw [hstep.2]

end

/-- The nonce and the timestamp of a command that carries a proof. -/
def Command.proof? : Command → Option (String × UInt64)
  | .bindNostr _ nonce timestamp _ _ => some (nonce, timestamp)
  | .unbindNostr nonce timestamp _ => some (nonce, timestamp)
  | _ => none

section Proofs
variable {c c' : Service × Database} {devicePublicKey : Bytes 32} {answer : Json}

/-- What an accepted proof tells: it is fresh, its nonce was not remembered, and now it is. -/
structure AcceptedAt (nonce : Bytes 32) (accountId : String) (timestamp now : UInt64) (db db' : Database) : Prop where
  fresh : freshTimestamp timestamp now = .ok ()
  unseen : ∀ row, HasNonce db row → toI64 (satSub now nostrProofSkewSeconds) ≤ row.seenAt → row.nonce ≠ nonce.val
  seen : HasNonce db' ⟨nonce.val, accountId, toI64 now⟩

/-- A proof is accepted by checks that keep every nonce, `rememberProofNonce`, and an update that keeps every nonce. -/
theorem AcceptedAt.of_remember {c₁ c₂ : Service × Database}
    (hfresh : freshTimestamp timestamp now = .ok ()) (hb : ∀ oldest, NoncesKept Service oldest c c₁)
    (h : (stored (rememberProofNonce nonce accountId now nostrProofSkewSeconds)).Exec SqliteStep c₁ (.ok ()) c₂)
    (ha : ∀ oldest, NoncesKept Service oldest c₂ c') : AcceptedAt nonce accountId timestamp now c.2 c'.2 := by
  obtain ⟨hunseen, hseen⟩ := exec_rememberProofNonce_ok (Method.exec_mapError_ok.1 h)
  refine ⟨hfresh, fun row hrow hold => ?_, ha _ _ le_rfl hseen⟩
  exact hunseen row (hb _ row hold hrow) hold

theorem acceptedAt_of_bind {proof : BindProof}
    (h : (Service.bindNostr v accountId devicePublicKey proof now).Exec SqliteStep c (.ok answer) c') :
    ∃ nonce, decodeNostrKey proof.nonce = .ok nonce ∧ AcceptedAt nonce accountId proof.timestamp now c.2 c'.2 := by
  obtain ⟨account, c₁, hacct, h⟩ := Method.exec_bind_ok.1 h
  simp only [Method.exec_bind_ok, Method.exec_ofExcept, Method.exec_get] at h
  obtain ⟨handle, _, ⟨-, rfl⟩, key, _, ⟨-, rfl⟩, nonce, _, ⟨hnonce, rfl⟩, deviceSignature, _, ⟨-, rfl⟩,
    nostrSignature, _, ⟨-, rfl⟩, _, _, ⟨hfresh, rfl⟩, service, _, ⟨-, rfl⟩, _, _, ⟨-, rfl⟩, _, _, ⟨-, rfl⟩, _, c₂,
    hremember, _, c₃, hbind, hlast⟩ := h
  obtain ⟨-, rfl⟩ := Method.exec_pure.1 hlast
  refine ⟨nonce, hnonce.symm, .of_remember hfresh.symm (fun oldest => ?_) hremember fun oldest => ?_⟩
  · exact keeps_account (statementKeeps_nonces_of_ne (by simp)) _ _ _ hacct
  · exact keeps_stored (keeps_bindNostr (statementKeeps_nonces_of_ne (by simp))) _ _ _ hbind

theorem acceptedAt_of_unbind {deviceSignature : String}
    (h : (Service.unbindNostr v accountId devicePublicKey nonceText timestamp deviceSignature now).Exec SqliteStep c
      (.ok answer) c') :
    ∃ nonce, decodeNostrKey nonceText = .ok nonce ∧ AcceptedAt nonce accountId timestamp now c.2 c'.2 := by
  obtain ⟨account, c₁, hacct, h⟩ := Method.exec_bind_ok.1 h
  simp only [Method.exec_bind_ok, Method.exec_ofExcept, Method.exec_get] at h
  obtain ⟨handle, _, ⟨-, rfl⟩, key, c₂, hkey, bound, _, ⟨-, rfl⟩, nonce, _, ⟨hnonce, rfl⟩, deviceSignature, _, ⟨-, rfl⟩,
    _, _, ⟨hfresh, rfl⟩, service, _, ⟨-, rfl⟩, _, _, ⟨-, rfl⟩, _, c₃, hremember, _, c₄, hunbind, hlast⟩ := h
  obtain ⟨-, rfl⟩ := Method.exec_pure.1 hlast
  refine ⟨nonce, hnonce.symm, .of_remember hfresh.symm (fun oldest => ?_) hremember fun oldest => ?_⟩
  · exact trans_of (NoncesKept Service oldest) (keeps_account (statementKeeps_nonces_of_ne (by simp)) _ _ _ hacct)
      (keeps_stored (keeps_nostrPubkey (statementKeeps_nonces_of_ne (by simp))) _ _ _ hkey)
  · exact keeps_stored (keeps_unbindNostr (statementKeeps_nonces_of_ne (by simp))
      (statementKeeps_nonces_of_ne (by simp))) _ _ _ hunbind

theorem acceptedAt_of_handle (hpf : proof.proof? = some (nonceText, timestamp))
    (h : (Service.handle v (.command accountId devicePublicKey proof now)).Exec SqliteStep c (.ok answer) c') :
    ∃ nonce, decodeNostrKey nonceText = .ok nonce ∧ AcceptedAt nonce accountId timestamp now c.2 c'.2 := by
  cases proof with
  | bindNostr => cases hpf; exact acceptedAt_of_bind h
  | unbindNostr => cases hpf; exact acceptedAt_of_unbind h
  | _ => cases hpf

end Proofs

/-! ## Runs -/

abbrev Exchange : Type := ServiceRequest × Except ServerError Json

def ServiceStep (v : Verifier) (c : Service × Database) (exchange : Exchange) (c' : Service × Database) : Prop :=
  (Service.handle v exchange.1).Exec SqliteStep c exchange.2 c'

/-- The clock reading with which a request submits a proof for an account. -/
def submittedAt (accountId : String) (proof : Command) : ServiceRequest → Option UInt64
  | .command id _ command now => if id = accountId ∧ command = proof then some now else none
  | _ => none

def accepts (accountId : String) (proof : Command) : Exchange → Bool
  | (request, .ok _) => (submittedAt accountId proof request).isSome
  | (_, .error _) => false

/-- The timestamp of a proof is fresh at `seen` and at `now`, and its nonce that was seen at `seen` is purged at `now`. -/
def ReplayWindow (timestamp seen now : UInt64) : Prop :=
  freshTimestamp timestamp seen = .ok () ∧ freshTimestamp timestamp now = .ok () ∧
    toI64 seen < toI64 (satSub now nostrProofSkewSeconds)

instance (timestamp seen now : UInt64) : Decidable (ReplayWindow timestamp seen now) :=
  inferInstanceAs (Decidable (_ = _ ∧ _ = _ ∧ _ < _))

/-- The clock readings of the requests never decrease. -/
def ClockSorted (exchanges : List Exchange) : Prop := (exchanges.filterMap (·.1.now?)).Pairwise (· ≤ ·)

instance (exchanges : List Exchange) : Decidable (ClockSorted exchanges) := inferInstanceAs (Decidable (List.Pairwise _ _))

section Runs
variable {c c' : Service × Database} {exchanges : List Exchange}

theorem submittedAt_eq_some :
    submittedAt accountId proof request = some now ↔ ∃ key, request = .command accountId key proof now := by
  cases request with
  | command id key command now' =>
    simp only [submittedAt]
    split_ifs with h
    · obtain ⟨rfl, rfl⟩ := h
      simp
    · simp only [ServiceRequest.command.injEq, false_iff, not_exists]
      rintro key' ⟨h₁, -, h₂, -⟩
      exact h ⟨h₁, h₂⟩
  | register => simp [submittedAt]
  | attach => simp [submittedAt]
  | detach => simp [submittedAt]
  | nip05 => simp [submittedAt]

variable {exchange : Exchange} {seen : UInt64}

theorem accepts_iff : accepts accountId proof exchange = true ↔
      ∃ key now answer, exchange = (.command accountId key proof now, .ok answer) := by
  obtain ⟨request, _ | answer⟩ := exchange
  · simp [accepts]
  · simp only [accepts, Option.isSome_iff_exists, submittedAt_eq_some, Prod.mk.injEq]
    constructor
    · rintro ⟨now, key, rfl⟩
      exact ⟨key, now, answer, rfl, rfl⟩
    · rintro ⟨key, now, _, rfl, -⟩
      exact ⟨now, key, rfl⟩

theorem ClockSorted.of_cons (h : ClockSorted (exchange :: exchanges)) : ClockSorted exchanges :=
  h.sublist ((List.sublist_cons_self exchange exchanges).filterMap _)

/-- The nonce that was seen at `seen` is remembered, or every request to come finds it outside the window before its
clock reading. -/
def Spent (nonce : Bytes 32) (accountId : String) (seen : UInt64) (db : Database) (exchanges : List Exchange) : Prop :=
  HasNonce db ⟨nonce.val, accountId, toI64 seen⟩ ∨
    ∀ now ∈ exchanges.filterMap (·.1.now?), toI64 seen < toI64 (satSub now nostrProofSkewSeconds)

theorem Spent.step (h : Spent nonce accountId seen c.2 (exchange :: exchanges)) (hstep : ServiceStep v c exchange c')
    (hsorted : ClockSorted (exchange :: exchanges)) : Spent nonce accountId seen c'.2 exchanges := by
  rcases h with hrow | hpast
  swap
  · exact .inr fun now hnow => hpast now (((List.sublist_cons_self _ _).filterMap _).subset hnow)
  by_cases hold : ∀ now, exchange.1.now? = some now → toI64 (satSub now nostrProofSkewSeconds) ≤ toI64 seen
  · exact .inl (noncesKept_handle v hold _ _ _ hstep _ le_rfl hrow)
  · -- the purge of this request takes the row, and no later clock reading is earlier
    push Not at hold
    obtain ⟨now, hnow, hlt⟩ := hold
    right
    intro later hl
    rw [ClockSorted, List.filterMap_cons, hnow, List.pairwise_cons] at hsorted
    exact hlt.trans_le (toI64_le_toI64 (satSub_le_satSub (hsorted.1 later hl) _))

theorem Spent.not_accepts (hpf : proof.proof? = some (nonceText, timestamp))
    (hnonce : decodeNostrKey nonceText = .ok nonce) (hrun : Run (ServiceStep v) c exchanges c')
    (hseen : freshTimestamp timestamp seen = .ok ()) (h : Spent nonce accountId seen c.2 exchanges)
    (hsorted : ClockSorted exchanges)
    (hwindow : ∀ now ∈ exchanges.filterMap (submittedAt accountId proof ·.1), ¬ ReplayWindow timestamp seen now) :
    exchanges.countP (accepts accountId proof) = 0 := by
  induction hrun with
  | nil => rfl
  | @cons c c₁ c' exchange exchanges hstep _ ih =>
    have hrest := ih (h.step hstep hsorted) hsorted.of_cons
      fun now hnow => hwindow now (((List.sublist_cons_self _ _).filterMap _).subset hnow)
    rw [List.countP_cons, hrest, Nat.zero_add, ite_eq_right_iff]
    intro haccepts
    exfalso
    obtain ⟨key, now, answer, rfl⟩ := accepts_iff.1 haccepts
    obtain ⟨nonce', hnonce', hacc⟩ := acceptedAt_of_handle hpf hstep
    have heq : nonce' = nonce := Except.ok.inj (hnonce'.symm.trans hnonce)
    subst heq
    have hsubmitted : now ∈ ((.command accountId key proof now, .ok answer) :: exchanges : List Exchange).filterMap
        (submittedAt accountId proof ·.1) := by
      simp [submittedAt]
    -- the proof is fresh, so outside the replay window its nonce is still there
    have hold : toI64 (satSub now nostrProofSkewSeconds) ≤ toI64 seen := by
      by_contra hlt
      exact hwindow now hsubmitted ⟨hseen, hacc.fresh, not_le.1 hlt⟩
    rcases h with hrow | hpast
    · exact hacc.unseen _ hrow hold rfl
    · exact absurd (hpast now (by simp [ServiceRequest.now?])) (not_lt.2 hold)

/-- **A proof is used at most once outside the replay window.** In every run of the service whose clock never goes back,
if no two submissions of a proof for an account lie so that the timestamp is fresh at both and the first one's nonce is
purged at the second, the proof is accepted at most once, whatever the database answers. -/
theorem accepted_at_most_once (v : Verifier) (accountId : String) (proof : Command) (nonceText : String)
    (timestamp : UInt64) (c c' : Service × Database) (exchanges : List Exchange)
    (hproof : proof.proof? = some (nonceText, timestamp)) (hrun : Run (ServiceStep v) c exchanges c')
    (hsorted : ClockSorted exchanges)
    (hwindow : (exchanges.filterMap (submittedAt accountId proof ·.1)).Pairwise
      fun seen now => ¬ ReplayWindow timestamp seen now) :
    exchanges.countP (accepts accountId proof) ≤ 1 := by
  induction hrun with
  | nil => exact Nat.zero_le 1
  | @cons c c₁ c' exchange exchanges hstep hrest ih =>
    by_cases haccepts : accepts accountId proof exchange = true
    · obtain ⟨key, now, answer, rfl⟩ := accepts_iff.1 haccepts
      obtain ⟨nonce, hnonce, haccepted⟩ := acceptedAt_of_handle hproof hstep
      have hsub : submittedAt accountId proof (.command accountId key proof now) = some now := by simp [submittedAt]
      rw [List.filterMap_cons, hsub, List.pairwise_cons] at hwindow
      rw [List.countP_cons_of_pos haccepts,
        Spent.not_accepts hproof hnonce hrest haccepted.fresh (.inl haccepted.seen) hsorted.of_cons hwindow.1]
    · rw [List.countP_cons_of_neg haccepts]
      exact ih hsorted.of_cons (hwindow.sublist ((List.sublist_cons_self _ _).filterMap _))

end Runs

/-! ## A replay -/

/-- A bind proof with the timestamp 1300, signed by a device key of ones and a Nostr key of fives. -/
def aheadProof : Command :=
  .bindNostr "0505050505050505050505050505050505050505050505050505050505050505"
    "0707070707070707070707070707070707070707070707070707070707070707" 1300
    "01010101010101010101010101010101010101010101010101010101010101011405000000000000070707070707070707070707070707070707070707070707"
    "05050505050505050505050505050505050505050505050505050505050505051405000000000000070707070707070707070707070707070707070707070707"

/-- A service with one account that has claimed the handle `ada`. -/
def adaService : Service × Database where
  fst := { config := ⟨.replicate 32 0, []⟩, subscribers := fun _ => [] }
  snd :=
    { metaRows := some []
      accounts := some (.withNostr [⟨"a1", some "ada", "Ada", 10, none⟩] true)
      devices := some [⟨List.replicate 32 1, "a1", 10, 10⟩]
      proofNonces := some [] }

/-- The service without I/O failures answers the submission of `aheadProof` at `now`. -/
def submitAhead (c : Service × Database) (now : UInt64) : Exchange × (Service × Database) :=
  let request := ServiceRequest.command "a1" (.replicate 32 1) aheadProof now
  let outcome := (Service.handle .transparent request c.1).run (sqlite fun _ => none) c.2
  ((request, outcome.1.1), (outcome.1.2, outcome.2))

theorem serviceStep_submitAhead (c : Service × Database) (now : UInt64) :
    ServiceStep .transparent c (submitAhead c now).1 (submitAhead c now).2 :=
  Prog.exec_run (sqliteStep_sqlite _) _ _

def submitTwice (now later : UInt64) : List Exchange :=
  [(submitAhead adaService now).1, (submitAhead (submitAhead adaService now).2 later).1]

theorem run_submitTwice (now later : UInt64) :
    Run (ServiceStep .transparent) adaService (submitTwice now later)
      (submitAhead (submitAhead adaService now).2 later).2 :=
  .cons (serviceStep_submitAhead _ _) (.cons (serviceStep_submitAhead _ _) (.nil _))

/-- At 1000 and again at 1100 the nonce is still remembered. -/
theorem accepted_at_most_once_at_1100 : (submitTwice 1000 1100).countP (accepts "a1" aheadProof) ≤ 1 :=
  accepted_at_most_once .transparent "a1" aheadProof _ 1300 adaService _ (submitTwice 1000 1100) rfl
    (run_submitTwice 1000 1100) (by decide) (by decide +kernel)

/-- At 1000 and again at 1301 the same proof is accepted both times: the nonce was seen at 1000 and is purged below 1001,
and the timestamp 1300 is fresh at both. -/
theorem proof_accepted_twice :
    ClockSorted (submitTwice 1000 1301) ∧
      Run (ServiceStep .transparent) adaService (submitTwice 1000 1301)
        (submitAhead (submitAhead adaService 1000).2 1301).2 ∧
      (submitTwice 1000 1301).countP (accepts "a1" aheadProof) = 2 :=
  ⟨by decide, run_submitTwice 1000 1301, by decide +kernel⟩

end OmaChat.Server

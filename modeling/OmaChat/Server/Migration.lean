import OmaChat.Server.Storage

/-!
# Opening a database that an earlier start left half migrated

`Storage::open` migrates with statements that SQLite commits one by one. A crash between two of them leaves one of three
kinds of content, and the next start meets it:

* `Unmigrated` : the column `nostr_pubkey` is missing and version 3 is not written: the migration runs to its end;
* `HalfMigrated` : the column is there and version 3 is not written: `ALTER TABLE` fails, and so does every later start;
* `Migrated` : version 3 is written: only the key check is left to do.

`reopens_after_crash_iff` says for every crash point which of them it is. The bad ones are the three after `ALTER TABLE`
and before the version is written.
-/

namespace OmaChat.Server
open Wire Effects

variable {db : Database} {n : Nat} {nonce : Bytes 24} {β σ : Type}

/-! ## Running statements one by one -/

section
variable {entropy : (n : Nat) → Option (Bytes n)} {s : Statement} {a : s.Answer} {e : SqlError}
  {f : s.Answer → StorageMethod σ β} {u : σ} {db' : Database}

theorem execute_bind (s : Statement) (f : s.Answer → StorageMethod σ β) (u : σ) :
    (execute s >>= f) u = .call (.sql s) fun r : Except SqlError s.Answer =>
      match r with
      | .ok a => f a u
      | .error e => .ret (.error (.sqlite e), u) := by
  refine congrArg (Prog.call (Call.sql s)) (funext fun r => ?_)
  cases r <;> rfl

theorem run_execute_ok (h : s.eval db = (.ok a, db')) :
    ((execute s >>= f) u).run (sqlite entropy) db = (f a u).run (sqlite entropy) db' := by
  simp only [execute_bind, Prog.run, sqlite, h]

theorem run_execute_error (h : s.eval db = (.error e, db')) :
    ((execute s >>= f) u).run (sqlite entropy) db = ((.error (.sqlite e), u), db') := by
  simp only [execute_bind, Prog.run, sqlite, h]

theorem crash_execute_ok (h : s.eval db = (.ok a, db')) :
    ((execute s >>= f) u).crash (sqlite entropy) (n + 1) db = (f a u).crash (sqlite entropy) n db' := by
  simp only [execute_bind, Prog.crash, sqlite, h]

end

/-! ## What the content of a database says -/

/-- The value stored in `meta` under a key. -/
def Database.metaValue (db : Database) (key : String) : Option Blob :=
  ((db.metaRows.getD []).find? (·.key == key)).map (·.value)

/-- The columns of `accounts` that every schema has. -/
def Database.accountRows (db : Database) : List (AccountRow Unit) :=
  match db.accounts with
  | none => []
  | some (.withoutNostr rows) => rows
  | some (.withNostr rows _) => rows.map fun row => { row with nostrPubkey := () }

def Database.deviceRows (db : Database) : List DeviceRow := db.devices.getD []

/-- Every account and device row of `db` is in `db'`, and no other. -/
def SameRows (db db' : Database) : Prop := db'.accountRows = db.accountRows ∧ db'.deviceRows = db.deviceRows

theorem SameRows.trans {db₁ db₂ : Database} (h : SameRows db db₁) (h' : SameRows db₁ db₂) : SameRows db db₂ :=
  ⟨h'.1.trans h.1, h'.2.trans h.2⟩

section Content
variable (aead : Aead) (key : Bytes 32)

/-- A stored key check, if there is one, opens under `key`. -/
def KeyCheckOpens (db : Database) : Prop :=
  ∀ sealed, db.metaValue "key_check" = some sealed → openSealed aead key (utf8 "key_check") sealed = .ok keyCheckPlaintext

/-- The version that `migrate` upgrades from. -/
def VersionBelowThree (db : Database) : Prop :=
  db.metaValue "schema_version" = none ∨ db.metaValue "schema_version" = some (utf8 "2")

/-- The content that a server of schema 2 leaves, sealed under `key`. -/
structure SchemaTwo (db : Database) : Prop where
  version : db.metaValue "schema_version" = some (utf8 "2")
  accounts : ∃ rows, db.accounts = some (.withoutNostr rows)
  devices : db.devices ≠ none
  keyCheck : KeyCheckOpens aead key db

structure Unmigrated (db : Database) : Prop where
  version : VersionBelowThree db
  accounts : db.accounts = none ∨ ∃ rows, db.accounts = some (.withoutNostr rows)
  keyCheck : KeyCheckOpens aead key db

structure HalfMigrated (db : Database) : Prop where
  version : VersionBelowThree db
  accounts : ∃ rows unique, db.accounts = some (.withNostr rows unique)

structure Migrated (db : Database) : Prop where
  version : db.metaValue "schema_version" = some (utf8 (toString schemaVersion))
  keyCheck : KeyCheckOpens aead key db

theorem unmigrated_fresh : Unmigrated aead key .fresh where
  version := .inl rfl
  accounts := .inl rfl
  keyCheck := by intro sealed h; cases h

theorem SchemaTwo.unmigrated (h : SchemaTwo aead key db) : Unmigrated aead key db where
  version := .inr h.version
  accounts := .inr h.accounts
  keyCheck := h.keyCheck

/-- The content after the three `CREATE TABLE IF NOT EXISTS` of `migrate`. -/
def Database.prepared (db : Database) : Database :=
  { db with
    metaRows := some (db.metaRows.getD [])
    accounts := some (db.accounts.getD (.withoutNostr []))
    devices := some (db.devices.getD []) }

theorem sameRows_prepared (db : Database) : SameRows db db.prepared := by
  obtain ⟨m, a, d, p⟩ := db
  cases a <;> exact ⟨rfl, rfl⟩

/-! ## Rows of `meta` -/

theorem find?_upsertMetaRow_self (k : String) (v : Blob) (rows : List MetaRow) :
    ((upsertMetaRow k v rows).find? (·.key == k)).map (·.value) = some v := by
  unfold upsertMetaRow
  split_ifs with h
  · induction rows with
    | nil => simp at h
    | cons row rows ih =>
      by_cases hr : row.key = k
      · simp [hr]
      · have hr' : (row.key == k) = false := by simpa using hr
        rw [List.any_cons, hr', Bool.false_or] at h
        simpa [hr] using ih h
  · have hnone : rows.find? (·.key == k) = none := by
      rw [List.find?_eq_none]
      intro row hrow hk
      exact h (List.any_eq_true.2 ⟨row, hrow, hk⟩)
    simp [List.find?_append, hnone]

theorem find?_upsertMetaRow_of_ne {k k' : String} (hk : k' ≠ k) (v : Blob) (rows : List MetaRow) :
    (upsertMetaRow k v rows).find? (·.key == k') = rows.find? (·.key == k') := by
  unfold upsertMetaRow
  split_ifs with h
  · clear h
    induction rows with
    | nil => rfl
    | cons row rows ih =>
      rw [List.map_cons, List.find?_cons, List.find?_cons, ih]
      by_cases hr : row.key = k
      · simp [hr, beq_eq_false_iff_ne.2 hk.symm]
      · simp [hr]
  · simp [List.find?_append, hk.symm]

/-! ## The key check -/

theorem openSealed_seal (nonce : Bytes 24) {ciphertext : Blob}
    (hlen : ciphertext.length = keyCheckPlaintext.length + 16)
    (hdec : aead.decrypt key nonce (utf8 "key_check") ciphertext = some keyCheckPlaintext) :
    openSealed aead key (utf8 "key_check") (nonce.val ++ ciphertext) = .ok keyCheckPlaintext := by
  have hn : nonce.val.length = 24 := nonce.property
  have htake : (nonce.val ++ ciphertext).take nonceBytes = nonce.val := by simp [nonceBytes, hn]
  have hdrop : (nonce.val ++ ciphertext).drop nonceBytes = ciphertext := by simp [nonceBytes, hn]
  have hlong : ¬ (nonce.val ++ ciphertext).length < nonceBytes + 16 := by
    rw [List.length_append, hn, hlen]
    simp only [nonceBytes]
    omega
  simp only [openSealed, if_neg hlong, htake, hdrop, Bytes.ofList?_val, hdec]

section VerifyKey
variable {aead key} {entropy : (n : Nat) → Option (Bytes n)} {u : σ}

theorem eval_selectMeta (hm : db.metaRows ≠ none) (k : String) :
    (Statement.selectMeta k).eval db = (.ok (db.metaValue k), db) := by
  obtain ⟨_ | rows, a, d, p⟩ := db
  · exact absurd rfl hm
  · rfl

theorem verifyKey_of_stored (hm : db.metaRows ≠ none) {sealed : Blob} (hs : db.metaValue "key_check" = some sealed)
    (hk : KeyCheckOpens aead key db) :
    (verifyKey aead key u).run (sqlite entropy) db = ((.ok (), u), db) ∧
      ∀ n, (verifyKey aead key u).crash (sqlite entropy) n db = db := by
  have hsel := eval_selectMeta hm "key_check"
  rw [hs] at hsel
  refine ⟨?_, fun n => ?_⟩
  · rw [verifyKey, run_execute_ok hsel]
    simp only [hk sealed hs, if_true]
    rfl
  · cases n with
    | zero => rfl
    | succ n =>
      rw [verifyKey, crash_execute_ok hsel]
      simp only [hk sealed hs, if_true]
      cases n <;> rfl

def Database.withKeyCheck (db : Database) (sealed : Blob) : Database :=
  { db with metaRows := some (db.metaRows.getD [] ++ [⟨"key_check", sealed⟩]) }

theorem metaValue_version_withKeyCheck (db : Database) (sealed : Blob) :
    (db.withKeyCheck sealed).metaValue "schema_version" = db.metaValue "schema_version" := by
  simp [Database.metaValue, Database.withKeyCheck, List.find?_append]

theorem metaValue_keyCheck_withKeyCheck (hs : db.metaValue "key_check" = none) (sealed : Blob) :
    (db.withKeyCheck sealed).metaValue "key_check" = some sealed := by
  simp only [Database.metaValue, Option.map_eq_none_iff] at hs
  simp [Database.metaValue, Database.withKeyCheck, List.find?_append, hs]

theorem eval_insertKeyCheck (hm : db.metaRows ≠ none) (hs : db.metaValue "key_check" = none) (sealed : Blob) :
    (Statement.insertMeta "key_check" sealed).eval db = (.ok (), db.withKeyCheck sealed) := by
  obtain ⟨_ | rows, a, d, p⟩ := db
  · exact absurd rfl hm
  · have hnone : rows.any (·.key == "key_check") = false := by
      simpa [Database.metaValue, List.find?_eq_none] using hs
    simp [Statement.eval, Database.onMeta, Database.withKeyCheck, hnone]

theorem sealWith_bind (associated plaintext : Blob) (f : Blob → StorageMethod σ β) :
    (sealWith aead key associated plaintext >>= f) u = .call (.random 24) fun r : Option (Bytes 24) =>
      match r with
      | none => .ret (.error .random, u)
      | some nonce =>
        match aead.encrypt key nonce associated plaintext with
        | some ciphertext => f (nonce.val ++ ciphertext) u
        | none => .ret (.error .seal, u) := by
  refine congrArg (Prog.call (Call.random 24)) (funext fun r => ?_)
  cases r with
  | none => rfl
  | some nonce =>
    show Method.bind (match aead.encrypt key nonce associated plaintext with
      | some ciphertext => pure (nonce.val ++ ciphertext)
      | none => Method.throw .seal) f u = _
    dsimp only
    cases aead.encrypt key nonce associated plaintext <;> rfl

section
variable (hm : db.metaRows ≠ none)
include hm

theorem run_verifyKey_of_absent (hs : db.metaValue "key_check" = none) (hr : entropy 24 = some nonce) :
    ∃ sealed, (verifyKey aead key u).run (sqlite entropy) db = ((.ok (), u), db.withKeyCheck sealed) := by
  obtain ⟨ciphertext, henc, -, -⟩ := aead.encrypt_decrypts key nonce (utf8 "key_check") keyCheckPlaintext (by decide)
  have hsel := eval_selectMeta hm "key_check"
  rw [hs] at hsel
  refine ⟨nonce.val ++ ciphertext, ?_⟩
  have hins := eval_insertKeyCheck hm hs (nonce.val ++ ciphertext)
  rw [verifyKey, run_execute_ok hsel]
  simp only [sealWith_bind, Prog.run, sqlite, hr, henc]
  rw [← Method.bind_pure (execute _), run_execute_ok hins]
  rfl

theorem crash_verifyKey_of_absent (hs : db.metaValue "key_check" = none) (n : Nat) :
    (verifyKey aead key u).crash (sqlite entropy) n db = db ∨
      ∃ sealed, openSealed aead key (utf8 "key_check") sealed = .ok keyCheckPlaintext ∧
        (verifyKey aead key u).crash (sqlite entropy) n db = db.withKeyCheck sealed := by
  have hsel := eval_selectMeta hm "key_check"
  rw [hs] at hsel
  obtain _ | _ | n := n
  · exact .inl rfl
  · rw [verifyKey, crash_execute_ok hsel]
    exact .inl rfl
  rw [verifyKey, crash_execute_ok hsel]
  simp only [sealWith_bind, Prog.crash, sqlite]
  cases hr : entropy 24 with
  | none => cases n <;> exact .inl rfl
  | some nonce =>
    obtain ⟨ciphertext, henc, hlen, hdec⟩ := aead.encrypt_decrypts key nonce (utf8 "key_check") keyCheckPlaintext (by decide)
    simp only [henc]
    cases n with
    | zero => exact .inl rfl
    | succ n =>
      right
      refine ⟨nonce.val ++ ciphertext, openSealed_seal aead key nonce hlen hdec, ?_⟩
      rw [← Method.bind_pure (execute _), crash_execute_ok (eval_insertKeyCheck hm hs _)]
      cases n <;> rfl

theorem run_verifyKey (hk : KeyCheckOpens aead key db) (hr : entropy 24 = some nonce) :
    ∃ db', (verifyKey aead key u).run (sqlite entropy) db = ((.ok (), u), db') ∧
      db'.metaValue "schema_version" = db.metaValue "schema_version" ∧ SameRows db db' := by
  cases hs : db.metaValue "key_check" with
  | none =>
    obtain ⟨sealed, hrun⟩ := run_verifyKey_of_absent hm hs hr
    exact ⟨_, hrun, metaValue_version_withKeyCheck db sealed, rfl, rfl⟩
  | some sealed => exact ⟨db, (verifyKey_of_stored hm hs hk).1, rfl, rfl, rfl⟩

theorem Migrated.crash_verifyKey (h : Migrated aead key db) (n : Nat) :
    Migrated aead key ((verifyKey aead key u).crash (sqlite entropy) n db) ∧
      SameRows db ((verifyKey aead key u).crash (sqlite entropy) n db) := by
  cases hs : db.metaValue "key_check" with
  | none =>
    rcases crash_verifyKey_of_absent hm hs n with hc | ⟨sealed, hopen, hc⟩
    · rw [hc]; exact ⟨h, rfl, rfl⟩
    · rw [hc]
      refine ⟨⟨(metaValue_version_withKeyCheck db sealed).trans h.version, ?_⟩, rfl, rfl⟩
      intro sealed' hs'
      rw [metaValue_keyCheck_withKeyCheck hs, Option.some_inj] at hs'
      exact hs' ▸ hopen
  | some sealed =>
    rw [(verifyKey_of_stored hm hs h.keyCheck).2 n]
    exact ⟨h, rfl, rfl⟩

end

end VerifyKey

/-! ## The migration -/

section
variable {aead key} {entropy : (n : Nat) → Option (Bytes n)} {u : σ}

theorem openStorage_eq : (openStorage aead key : StorageMethod σ Unit) =
    execute .createMeta >>= fun _ => execute .createAccounts >>= fun _ => execute .createDevices >>= fun _ =>
      execute (.selectMeta "schema_version") >>= fun version => migrateFrom version >>= fun _ => verifyKey aead key := by
  simp only [openStorage, migrate, Method.bind_assoc]

theorem eval_selectVersion_prepared (db : Database) :
    (Statement.selectMeta "schema_version").eval db.prepared = (.ok (db.metaValue "schema_version"), db.prepared) :=
  eval_selectMeta (fun h => by cases h) _

theorem run_openStorage (db : Database) :
    (openStorage aead key u).run (sqlite entropy) db =
      ((migrateFrom (db.metaValue "schema_version") >>= fun _ => verifyKey aead key) u).run (sqlite entropy)
        db.prepared := by
  rw [openStorage_eq, run_execute_ok rfl, run_execute_ok rfl, run_execute_ok rfl]
  exact run_execute_ok (eval_selectVersion_prepared db)

theorem crash_openStorage (db : Database) (n : Nat) :
    (openStorage aead key u).crash (sqlite entropy) (n + 4) db =
      ((migrateFrom (db.metaValue "schema_version") >>= fun _ => verifyKey aead key) u).crash (sqlite entropy) n
        db.prepared := by
  rw [openStorage_eq, crash_execute_ok rfl, crash_execute_ok rfl, crash_execute_ok rfl]
  exact crash_execute_ok (eval_selectVersion_prepared db)

/-- The content after `ALTER TABLE`, and with the index if `unique`. -/
def Database.withColumn (db : Database) (unique : Bool) : Database :=
  { db with accounts := some (.withNostr (db.accountRows.map fun row => { row with nostrPubkey := none }) unique) }

/-- The content after `CREATE TABLE nostr_proof_nonces`. -/
def Database.withNonces (db : Database) : Database := { db with proofNonces := some (db.proofNonces.getD []) }

def Database.withVersion (db : Database) : Database :=
  { db with
    metaRows := some (upsertMetaRow "schema_version" (utf8 (toString schemaVersion)) (db.metaRows.getD [])) }

theorem sameRows_withColumn (db : Database) (unique : Bool) : SameRows db (db.withColumn unique) := by
  refine ⟨?_, rfl⟩
  show List.map _ (List.map _ db.accountRows) = db.accountRows
  rw [List.map_map]
  exact List.map_id db.accountRows

theorem Unmigrated.eval_addNostrPubkey (h : Unmigrated aead key db) :
    Statement.addNostrPubkey.eval db.prepared = (.ok (), db.prepared.withColumn false) := by
  obtain ⟨m, a, d, p⟩ := db
  rcases h.accounts with ha | ⟨rows, ha⟩ <;> (cases ha; rfl)

theorem eval_createNostrIndex (db : Database) :
    Statement.createNostrIndex.eval (db.withColumn false) = (.ok (), db.withColumn true) := by
  simp [Statement.eval, Database.onAccounts, Database.withColumn, AccountsTable.createNostrIndex]

theorem eval_upsertVersion (hm : db.metaRows ≠ none) :
    (Statement.upsertMeta "schema_version" (utf8 (toString schemaVersion))).eval db = (.ok (), db.withVersion) := by
  obtain ⟨_ | rows, a, d, p⟩ := db
  · exact absurd rfl hm
  · rfl

/-- The content after the migration and before the key check. -/
def Database.upgraded (db : Database) : Database := ((db.prepared.withColumn true).withNonces).withVersion

theorem Unmigrated.upgraded (h : Unmigrated aead key db) : Migrated aead key db.upgraded where
  version := find?_upsertMetaRow_self _ _ _
  keyCheck := by
    intro sealed hs
    refine h.keyCheck sealed ?_
    rw [← hs]
    exact congrArg (Option.map _) (find?_upsertMetaRow_of_ne (by decide) _ _).symm

theorem sameRows_upgraded (db : Database) : SameRows db db.upgraded :=
  (sameRows_prepared db).trans (sameRows_withColumn db.prepared true)

theorem migrateFrom_bind (h : VersionBelowThree db) :
    ((migrateFrom (db.metaValue "schema_version") >>= fun _ => verifyKey aead key) : StorageMethod σ Unit) =
      execute .addNostrPubkey >>= fun _ => execute .createNostrIndex >>= fun _ => execute .createProofNonces >>= fun _ =>
        execute (.upsertMeta "schema_version" (utf8 (toString schemaVersion))) >>= fun _ => verifyKey aead key := by
  unfold VersionBelowThree at h
  rw [migrateFrom, if_pos h]
  simp only [Method.bind_assoc]

theorem Unmigrated.run_openStorage (h : Unmigrated aead key db) :
    (openStorage aead key u).run (sqlite entropy) db = (verifyKey aead key u).run (sqlite entropy) db.upgraded := by
  rw [Server.run_openStorage, migrateFrom_bind h.version, run_execute_ok h.eval_addNostrPubkey,
    run_execute_ok (eval_createNostrIndex _), run_execute_ok rfl]
  exact run_execute_ok (eval_upsertVersion fun hm => by cases hm)

theorem HalfMigrated.run_openStorage (h : HalfMigrated db) :
    (openStorage aead key u).run (sqlite entropy) db = ((.error (.sqlite .duplicateColumn), u), db.prepared) := by
  obtain ⟨rows, unique, ha⟩ := h.accounts
  have heval : Statement.addNostrPubkey.eval db.prepared = (.error .duplicateColumn, db.prepared) := by
    obtain ⟨m, a, d, p⟩ := db
    cases ha
    rfl
  rw [Server.run_openStorage, migrateFrom_bind h.version, run_execute_error heval]

theorem Migrated.run_openStorage (h : Migrated aead key db) :
    (openStorage aead key u).run (sqlite entropy) db = (verifyKey aead key u).run (sqlite entropy) db.prepared := by
  rw [Server.run_openStorage, h.version]
  rfl

/-! ## Crash points -/

theorem Unmigrated.crash_of_le_four (h : Unmigrated aead key db) (hn : n ≤ 4) :
    Unmigrated aead key ((openStorage aead key u).crash (sqlite entropy) n db) ∧
      SameRows db ((openStorage aead key u).crash (sqlite entropy) n db) := by
  have hprep : Unmigrated aead key db.prepared := by
    refine ⟨h.version, ?_, h.keyCheck⟩
    rcases h.accounts with ha | ⟨rows, ha⟩
    · exact .inr ⟨[], by simp [Database.prepared, ha]⟩
    · exact .inr ⟨rows, by simp [Database.prepared, ha]⟩
  obtain rfl | rfl | rfl | rfl | rfl : n = 0 ∨ n = 1 ∨ n = 2 ∨ n = 3 ∨ n = 4 := by omega
  · exact ⟨h, rfl, rfl⟩
  · rw [openStorage_eq, crash_execute_ok rfl]
    exact ⟨⟨h.version, h.accounts, h.keyCheck⟩, rfl, rfl⟩
  · rw [openStorage_eq, crash_execute_ok rfl, crash_execute_ok rfl]
    exact ⟨⟨h.version, hprep.accounts, h.keyCheck⟩, (sameRows_prepared db).1, rfl⟩
  · rw [openStorage_eq, crash_execute_ok rfl, crash_execute_ok rfl, crash_execute_ok rfl]
    exact ⟨hprep, sameRows_prepared db⟩
  · rw [crash_openStorage db 0]
    exact ⟨hprep, sameRows_prepared db⟩

theorem Unmigrated.crash_of_five_le (h : Unmigrated aead key db) (hn : 5 ≤ n) (hn' : n ≤ 7) :
    HalfMigrated ((openStorage aead key u).crash (sqlite entropy) n db) := by
  obtain rfl | rfl | rfl : n = 5 ∨ n = 6 ∨ n = 7 := by omega
  · rw [crash_openStorage db 1, migrateFrom_bind h.version, crash_execute_ok h.eval_addNostrPubkey]
    exact ⟨h.version, _, _, rfl⟩
  · rw [crash_openStorage db 2, migrateFrom_bind h.version, crash_execute_ok h.eval_addNostrPubkey,
      crash_execute_ok (eval_createNostrIndex _)]
    exact ⟨h.version, _, _, rfl⟩
  · rw [crash_openStorage db 3, migrateFrom_bind h.version, crash_execute_ok h.eval_addNostrPubkey,
      crash_execute_ok (eval_createNostrIndex _), crash_execute_ok rfl]
    exact ⟨h.version, _, _, rfl⟩

theorem Unmigrated.crash_of_eight_le (h : Unmigrated aead key db) (hn : 8 ≤ n) :
    Migrated aead key ((openStorage aead key u).crash (sqlite entropy) n db) ∧
      SameRows db ((openStorage aead key u).crash (sqlite entropy) n db) := by
  obtain ⟨k, rfl⟩ := Nat.exists_eq_add_of_le' hn
  have hcrash : (openStorage aead key u).crash (sqlite entropy) (k + 8) db =
      (verifyKey aead key u).crash (sqlite entropy) k db.upgraded := by
    rw [crash_openStorage db (k + 4), migrateFrom_bind h.version, crash_execute_ok h.eval_addNostrPubkey,
      crash_execute_ok (eval_createNostrIndex _), crash_execute_ok rfl]
    exact crash_execute_ok (eval_upsertVersion fun hm => by cases hm)
  rw [hcrash]
  obtain ⟨hm, hsame⟩ := h.upgraded.crash_verifyKey (fun hm => by cases hm) k
  exact ⟨hm, (sameRows_upgraded db).trans hsame⟩

end

/-! ## The next start -/

/-- The next start opens `db`, reports schema version 3, and has the rows that the content `before` had. -/
def Reopens (entropy : (n : Nat) → Option (Bytes n)) (before db : Database) : Prop :=
  ∃ db', (openStorage aead key ()).run (sqlite entropy) db = ((.ok (), ()), db') ∧
    db'.metaValue "schema_version" = some (utf8 "3") ∧ SameRows before db'

section Reopen
variable {aead key} {entropy : (n : Nat) → Option (Bytes n)} {before : Database}

theorem Unmigrated.reopens (h : Unmigrated aead key db) (hr : entropy 24 = some nonce) (hb : SameRows before db) :
    Reopens aead key entropy before db := by
  obtain ⟨db', hrun, hver, hsame⟩ := run_verifyKey (fun hm => by cases hm) h.upgraded.keyCheck hr
  exact ⟨db', h.run_openStorage.trans hrun, hver.trans h.upgraded.version, (hb.trans (sameRows_upgraded db)).trans hsame⟩

theorem Migrated.reopens (h : Migrated aead key db) (hr : entropy 24 = some nonce) (hb : SameRows before db) :
    Reopens aead key entropy before db := by
  have hk : KeyCheckOpens aead key db.prepared := h.keyCheck
  obtain ⟨db', hrun, hver, hsame⟩ := run_verifyKey (fun hm => by cases hm) hk hr
  exact ⟨db', h.run_openStorage.trans hrun, hver.trans h.version, (hb.trans (sameRows_prepared db)).trans hsame⟩

theorem HalfMigrated.not_reopens (h : HalfMigrated db) : ¬ Reopens aead key entropy before db := by
  rintro ⟨db', hrun, -⟩
  rw [h.run_openStorage] at hrun
  cases hrun

end Reopen

/-- **Which crash points of `open` the next start survives.** From a fresh database or one of schema 2, cut after `n`
calls: the next start with the same key succeeds, reports version 3 and keeps every row exactly when the cut falls before
`ALTER TABLE`, which is the fifth statement, or after the version is written, which is the eighth. -/
theorem reopens_after_crash_iff (entropy entropy' : (n : Nat) → Option (Bytes n)) (nonce : Bytes 24) (db : Database)
    (n : Nat) (hdb : db = .fresh ∨ SchemaTwo aead key db) (hr : entropy' 24 = some nonce) :
    Reopens aead key entropy' db ((openStorage aead key ()).crash (sqlite entropy) n db) ↔ n ≤ 4 ∨ 8 ≤ n := by
  have h : Unmigrated aead key db := by
    rcases hdb with rfl | hdb
    · exact unmigrated_fresh aead key
    · exact hdb.unmigrated
  constructor
  · intro hre
    by_contra hn
    exact (h.crash_of_five_le (by omega) (by omega)).not_reopens hre
  · rintro (hn | hn)
    · obtain ⟨hc, hsame⟩ := h.crash_of_le_four hn
      exact hc.reopens hr hsame
    · obtain ⟨hc, hsame⟩ := h.crash_of_eight_le hn
      exact hc.reopens hr hsame

end Content

/-- A database of schema 2 with one account and its device, sealed under the key of zeros. -/
def schemaTwoDatabase : Database where
  metaRows := some [⟨"schema_version", utf8 "2"⟩,
    ⟨"key_check", List.replicate 24 7 ++ keyCheckPlaintext ++ List.replicate 16 0⟩]
  accounts := some (.withoutNostr [⟨"a1", some "ada", "Ada", 10, ()⟩])
  devices := some [⟨List.replicate 32 1, "a1", 10, 12⟩]
  proofNonces := none

theorem schemaTwo_schemaTwoDatabase : SchemaTwo .transparent (.replicate 32 0) schemaTwoDatabase where
  version := rfl
  accounts := ⟨_, rfl⟩
  devices := by decide
  keyCheck := by
    intro sealed hs
    cases hs
    rfl

theorem reopens_after_crash_iff_at_version :
    Reopens .transparent (.replicate 32 0) (fun n => some (.replicate n 9)) schemaTwoDatabase
      ((openStorage .transparent (.replicate 32 0) ()).crash (sqlite fun _ => none) 8 schemaTwoDatabase) :=
  (reopens_after_crash_iff .transparent (.replicate 32 0) (fun _ => none) (fun n => some (.replicate n 9))
    (.replicate 24 9) schemaTwoDatabase 8 (.inr schemaTwo_schemaTwoDatabase) rfl).2 (.inr (by decide))

/-- The crash right after `ALTER TABLE`: the next start fails on the column that is already there. -/
theorem crash_after_alter_not_reopens :
    ((openStorage .transparent (.replicate 32 0) ()).run (sqlite fun n => some (.replicate n 9))
        ((openStorage .transparent (.replicate 32 0) ()).crash (sqlite fun _ => none) 5 schemaTwoDatabase)).1.1 =
      .error (.sqlite .duplicateColumn) ∧
    ¬ Reopens .transparent (.replicate 32 0) (fun n => some (.replicate n 9)) schemaTwoDatabase
      ((openStorage .transparent (.replicate 32 0) ()).crash (sqlite fun _ => none) 5 schemaTwoDatabase) := by
  have hrun : ((openStorage .transparent (.replicate 32 0) ()).run (sqlite fun n => some (.replicate n 9))
      ((openStorage .transparent (.replicate 32 0) ()).crash (sqlite fun _ => none) 5 schemaTwoDatabase)).1.1 =
      .error (.sqlite .duplicateColumn) := rfl
  refine ⟨hrun, ?_⟩
  rintro ⟨db', hok, -⟩
  rw [hok] at hrun
  cases hrun

end OmaChat.Server

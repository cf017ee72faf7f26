import OmaChat.Server.Migration

/-!
# What a refused database looks like afterwards

`Storage::open` refuses a file of another schema and a file that was sealed under another key. Both refusals come after
statements that have already been committed: the tables are created before the version is read, and the migration runs
before the key is checked.

* `Refused e` : the two refusals;
* `refused_leaves_prepared`, `refused_leaves_column` : what the refused file holds then;
* `refused_unchanged_iff` : the file is as it was exactly when its tables were there and no migration was due.
-/

namespace OmaChat.Server
open Wire Effects

variable {e : StorageError}

/-- `UnsupportedSchema` or `WrongKey` -/
def Refused (e : StorageError) : Prop := (∃ version, e = .unsupportedSchema version) ∨ e = .wrongKey

theorem Refused.ne_sqlite (h : Refused e) (error : SqlError) : e ≠ .sqlite error := by
  intro he
  subst he
  obtain ⟨_, hv⟩ | hw := h
  · cases hv
  · cases hw

section Refused
variable {aead : Aead} {key : Bytes 32} {u u' : Unit} {db db' : Database}

theorem exec_execute_bind {s : Statement} {f : s.Answer → StorageMethod Unit Unit} (he : ∀ error, e ≠ .sqlite error)
    (h : (execute s >>= f).Exec SqliteStep (u, db) (.error e) (u', db')) :
    ∃ a db₁, s.eval db = (.ok a, db₁) ∧ (f a).Exec SqliteStep (u, db₁) (.error e) (u', db') := by
  unfold Method.Exec at h
  rw [execute_bind, Prog.exec_call] at h
  obtain ⟨r, db₁, hstep, hnext⟩ := h
  cases r with
  | error error =>
    obtain ⟨hout, -⟩ := Prog.exec_ret.1 hnext
    cases hout
    exact absurd rfl (he error)
  | ok a =>
    refine ⟨a, db₁, ?_, hnext⟩
    rcases hstep with hstep | ⟨hio, -⟩
    · exact hstep.symm
    · cases hio

theorem exec_verifyKey_refused (he : Refused e) (hm : db.metaRows ≠ none)
    (h : (verifyKey aead key).Exec SqliteStep (u, db) (.error e) (u', db')) : db' = db := by
  unfold verifyKey at h
  obtain ⟨stored, db₁, hsel, h⟩ := exec_execute_bind he.ne_sqlite h
  rw [eval_selectMeta hm] at hsel
  cases hsel
  cases hs : db.metaValue "key_check" with
  | some sealed =>
    simp only [hs] at h
    split at h
    · split_ifs at h
      · exact absurd (Method.exec_pure.1 h).1 (by simp)
      · exact congrArg Prod.snd (Method.exec_throw.1 h).2
    · exact congrArg Prod.snd (Method.exec_throw.1 h).2
  | none =>
    -- storing a key check can fail, but not with a refusal
    exfalso
    simp only [hs] at h
    unfold Method.Exec at h
    rw [sealWith_bind, Prog.exec_call] at h
    obtain ⟨r, db₂, -, h⟩ := h
    cases r with
    | none =>
      obtain ⟨hout, -⟩ := Prog.exec_ret.1 h
      cases hout
      obtain ⟨_, hv⟩ | hw := he
      · cases hv
      · cases hw
    | some nonce =>
      dsimp only at h
      cases henc : aead.encrypt key nonce (utf8 "key_check") keyCheckPlaintext with
      | none =>
        simp only [henc] at h
        obtain ⟨hout, -⟩ := Prog.exec_ret.1 h
        cases hout
        obtain ⟨_, hv⟩ | hw := he
        · cases hv
        · cases hw
      | some ciphertext =>
        simp only [henc] at h
        rw [← Method.bind_pure (execute _)] at h
        obtain ⟨_, _, -, hret⟩ := exec_execute_bind he.ne_sqlite h
        exact absurd (Method.exec_pure.1 hret).1 (by simp)

theorem exec_openStorage_refused (he : Refused e)
    (h : (openStorage aead key).Exec SqliteStep (u, db) (.error e) (u', db')) :
    (migrateFrom (db.metaValue "schema_version") >>= fun _ => verifyKey aead key).Exec SqliteStep (u, db.prepared)
      (.error e) (u', db') := by
  rw [openStorage_eq] at h
  obtain ⟨_, _, hmeta, h⟩ := exec_execute_bind he.ne_sqlite h
  cases hmeta
  obtain ⟨_, _, haccounts, h⟩ := exec_execute_bind he.ne_sqlite h
  cases haccounts
  obtain ⟨_, _, hdevices, h⟩ := exec_execute_bind he.ne_sqlite h
  cases hdevices
  obtain ⟨_, _, hver, h⟩ := exec_execute_bind he.ne_sqlite h
  cases hver
  exact h

theorem refused_leaves_prepared (he : Refused e) (hv : ¬ VersionBelowThree db)
    (h : (openStorage aead key).Exec SqliteStep (u, db) (.error e) (u', db')) : db' = db.prepared := by
  have h := exec_openStorage_refused he h
  unfold VersionBelowThree at hv
  unfold migrateFrom at h
  rw [if_neg hv] at h
  split_ifs at h
  · exact exec_verifyKey_refused he (fun hm => by cases hm) h
  · obtain ⟨_, -, ht⟩ | ⟨_, _, ht, -⟩ := Method.exec_bind.1 h
    · exact congrArg Prod.snd (Method.exec_throw.1 ht).2
    · exact absurd (Method.exec_throw.1 ht).1 (by simp)
  · obtain ⟨_, -, ht⟩ | ⟨_, _, ht, -⟩ := Method.exec_bind.1 h
    · exact congrArg Prod.snd (Method.exec_throw.1 ht).2
    · exact absurd (Method.exec_throw.1 ht).1 (by simp)

theorem refused_leaves_column (he : Refused e) (hv : VersionBelowThree db)
    (h : (openStorage aead key).Exec SqliteStep (u, db) (.error e) (u', db')) :
    (∀ rows unique, db.accounts ≠ some (.withNostr rows unique)) ∧ db' = db.upgraded := by
  have h := exec_openStorage_refused he h
  rw [migrateFrom_bind hv] at h
  obtain ⟨_, db₁, halter, h⟩ := exec_execute_bind he.ne_sqlite h
  have hwithout : ∀ rows unique, db.accounts ≠ some (.withNostr rows unique) := by
    intro rows unique ha
    obtain ⟨m, a, d, n⟩ := db
    cases ha
    cases halter
  have hcolumn : db₁ = db.prepared.withColumn false := by
    obtain ⟨m, _ | _ | _, d, n⟩ := db
    · cases halter
      rfl
    · cases halter
      rfl
    · exact absurd rfl (hwithout _ _)
  subst hcolumn
  obtain ⟨_, db₂, hindex, h⟩ := exec_execute_bind he.ne_sqlite h
  rw [eval_createNostrIndex] at hindex
  cases hindex
  obtain ⟨_, db₃, hnonces, h⟩ := exec_execute_bind he.ne_sqlite h
  cases hnonces
  obtain ⟨_, db₄, hver, h⟩ := exec_execute_bind he.ne_sqlite h
  cases hver
  exact ⟨hwithout, exec_verifyKey_refused he (fun hm => by cases hm) h⟩

end Refused

/-- **When a refused file is left alone.** `Storage::open` refuses a file, for its schema or for the key: its tables,
columns and rows are the same afterwards exactly when both tables of the directory were there and the file was not due
for a migration. -/
theorem refused_unchanged_iff (aead : Aead) (key : Bytes 32) (db db' : Database) (e : StorageError) (he : Refused e)
    (h : (openStorage aead key).Exec SqliteStep ((), db) (.error e) ((), db')) :
    db' = db ↔ db.accounts ≠ none ∧ db.devices ≠ none ∧ ¬ VersionBelowThree db := by
  by_cases hv : VersionBelowThree db
  · obtain ⟨hbefore, hafter⟩ := refused_leaves_column he hv h
    constructor
    · intro hsame
      exact absurd (congrArg Database.accounts (hsame.symm.trans hafter)) (hbefore _ _)
    · intro hcond
      exact absurd hv hcond.2.2
  · rw [refused_leaves_prepared he hv h]
    obtain ⟨m, a, d, n⟩ := db
    have hm : m ≠ none := by
      intro hm
      subst hm
      exact hv (.inl rfl)
    constructor
    · intro hsame
      simp only [Database.prepared, Database.mk.injEq] at hsame
      refine ⟨?_, ?_, hv⟩
      · intro ha
        cases ha.symm.trans hsame.2.1.symm
      · intro hd
        cases hd.symm.trans hsame.2.2.1.symm
    · intro hcond
      obtain ⟨rows, rfl⟩ := Option.ne_none_iff_exists'.1 hm
      obtain ⟨accounts, rfl⟩ := Option.ne_none_iff_exists'.1 hcond.1
      obtain ⟨devices, rfl⟩ := Option.ne_none_iff_exists'.1 hcond.2.1
      rfl

/-- The file of a server of schema 3, sealed under the key of zeros. -/
def schemaThreeDatabase : Database where
  metaRows := some [⟨"schema_version", utf8 "3"⟩,
    ⟨"key_check", List.replicate 24 7 ++ keyCheckPlaintext ++ List.replicate 16 0⟩]
  accounts := some (.withNostr [⟨"a1", some "ada", "Ada", 10, none⟩] true)
  devices := some [⟨List.replicate 32 1, "a1", 10, 12⟩]
  proofNonces := some []

theorem refused_unchanged_schema_three :
    ∃ db', (openStorage .transparent (.replicate 32 1)).Exec SqliteStep ((), schemaThreeDatabase) (.error .wrongKey)
      ((), db') ∧ db' = schemaThreeDatabase := by
  have h : (openStorage .transparent (.replicate 32 1)).Exec SqliteStep ((), schemaThreeDatabase) (.error .wrongKey)
      ((), ((openStorage .transparent (.replicate 32 1) ()).run (sqlite fun _ => none) schemaThreeDatabase).2) :=
    Prog.exec_run (sqliteStep_sqlite fun _ => none) _ _
  refine ⟨_, h, (refused_unchanged_iff .transparent (.replicate 32 1) _ _ _ (.inr rfl) h).2 ⟨by decide, by decide, ?_⟩⟩
  rintro (hv | hv)
  · cases hv
  · exact absurd hv (by decide)

/-- The file of schema 2, opened with the key of ones: the refused file is now of schema 3. The file of schema 1 with no
other table than `meta`: the refused file has two more. -/
theorem refused_files_change :
    ((openStorage .transparent (.replicate 32 1) ()).run (sqlite fun _ => none) schemaTwoDatabase =
        ((.error .wrongKey, ()), schemaTwoDatabase.upgraded) ∧ schemaTwoDatabase.upgraded ≠ schemaTwoDatabase ∧
      schemaTwoDatabase.upgraded.metaValue "schema_version" = some (utf8 "3")) ∧
    ∃ version, (openStorage .transparent (.replicate 32 0) ()).run (sqlite fun _ => none)
        ⟨some [⟨"schema_version", utf8 "1"⟩], none, none, none⟩ =
      ((.error (.unsupportedSchema version), ()),
        ⟨some [⟨"schema_version", utf8 "1"⟩], some (.withoutNostr []), some [], none⟩) := by
  refine ⟨⟨rfl, by decide, rfl⟩, _, rfl⟩

end OmaChat.Server

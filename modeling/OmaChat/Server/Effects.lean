import OmaChat.Server.Replay

/-!
# What a request does to the directory

The service changes the tables `accounts` and `devices` in five ways only, and `Effect` lists them: it notes when a device
was last seen, adds an account with its device, sets a handle that was not set, binds a key against a proof that the key
and the device signed, and clears a key. Every other request leaves both tables alone.

* `DirectoryStep` : the service handles one request, with a log of the calls that it made;
* `Undisturbed` : the parts of a request that leave the tables alone, from the statements that they make;
* `step_effect` : the effects are all that a request can do.

One failed request has an effect: an `unbind-nostr` whose last query fails (`LookupLost`). `Storage::unbind_nostr` clears
the key first and looks for the account afterwards, and the two statements are not one transaction.
-/

namespace OmaChat.Server
open Wire Effects Proto Crypto
open Method (along_keeps exec_bind exec_bind_ok exec_mapError_ok exec_ofExcept exec_pure exec_throw keeps_bind keeps_modify
  keeps_pure keeps_throw)

/-! ## Steps with a log -/

abbrev CallLog : Type := List (Sigma Call.Answer)

abbrev LoggedStep : Answering Call.Answer (Database × CallLog) := Prog.logged SqliteStep

/-- A request, its answer, and the calls that the service made for it. -/
structure Handled where
  request : ServiceRequest
  answer : Except ServerError Json
  log : CallLog

def DirectoryStep (v : Verifier) (c : Service × Database) (x : Handled) (c' : Service × Database) : Prop :=
  (Service.handle v x.request).Exec LoggedStep (c.1, (c.2, [])) x.answer (c'.1, (c'.2, x.log))

/-- The log ends with the query for the account that `unbind_nostr` makes after it cleared the key, and the query
failed. -/
def LookupLost (log : CallLog) : Prop :=
  ∃ before id changed, log = before ++ [⟨.sql (.clearNostrPubkey id), .ok changed⟩,
    ⟨.sql (.selectAccount id), .error .io⟩]

def NoClear (log : CallLog) : Prop := ∀ id r, (⟨.sql (.clearNostrPubkey id), r⟩ : Sigma Call.Answer) ∉ log

variable {s : Statement} {α : Type} {db db' : Database} {before log : CallLog} {call : Call}

theorem NoClear.not_lookupLost (h : NoClear log) : ¬ LookupLost log := by
  rintro ⟨before, id, changed, rfl⟩
  exact h id (.ok changed) (by simp)

variable {r : call.Answer}

theorem not_lookupLost_concat (h : ∀ id, (⟨call, r⟩ : Sigma Call.Answer) ≠ ⟨.sql (.selectAccount id), .error .io⟩) :
    ¬ LookupLost (before ++ [⟨call, r⟩]) := by
  rintro ⟨before', id, changed, heq⟩
  have hlast := congrArg List.getLast? heq
  simp only [List.getLast?_append, List.getLast?_singleton, List.getLast?_cons_cons, Option.some_or] at hlast
  exact h id (Option.some.inj hlast)

theorem not_lookupLost_ok {a : s.Answer} : ¬ LookupLost (before ++ [⟨.sql s, .ok a⟩]) := by
  apply not_lookupLost_concat
  intro id heq
  obtain ⟨hcall, hr⟩ := Sigma.mk.inj heq
  cases hcall
  cases hr

/-! ## Statements that leave the tables alone -/

/-- The statements that write `accounts` or `devices`. -/
def Statement.writesDirectory : Statement → Bool
  | .createAccounts | .createDevices | .addNostrPubkey | .createNostrIndex => true
  | .touchDevice .. | .insertAccountAndDevice .. | .setHandle .. | .setNostrPubkey .. | .clearNostrPubkey _ => true
  | _ => false

theorem onAccounts_of_read {f : AccountsTable → Except SqlError α × AccountsTable}
    (hf : ∀ table, (f table).2 = table) : (db.onAccounts f).2 = db := by
  obtain ⟨m, _ | table, d, n⟩ := db
  · rfl
  · simp only [Database.onAccounts, hf]

theorem onRows_of_read {f : {N : Type} → List (AccountRow N) → Except SqlError α × List (AccountRow N)}
    (hf : ∀ {N : Type} (rows : List (AccountRow N)), (f rows).2 = rows) (table : AccountsTable) :
    (AccountsTable.onRows f table).2 = table := by
  cases table with
  | withoutNostr rows => simp only [AccountsTable.onRows, hf]
  | withNostr rows unique => simp only [AccountsTable.onRows, hf]

theorem onNostrRows_of_read {f : List NostrRow → Bool → Except SqlError α × List NostrRow}
    (hf : ∀ rows unique, (f rows unique).2 = rows) (table : AccountsTable) :
    (AccountsTable.onNostrRows f table).2 = table := by
  cases table with
  | withoutNostr rows => rfl
  | withNostr rows unique => simp only [AccountsTable.onNostrRows, hf]

theorem eval_keeps_tables (hs : s.writesDirectory = false) (db : Database) :
    (s.eval db).2.accounts = db.accounts ∧ (s.eval db).2.devices = db.devices := by
  have hread {α : Type} {f : AccountsTable → Except SqlError α × AccountsTable} (hf : ∀ table, (f table).2 = table) :
      (db.onAccounts f).2.accounts = db.accounts ∧ (db.onAccounts f).2.devices = db.devices := by
    rw [onAccounts_of_read hf]
    exact ⟨rfl, rfl⟩
  have hmeta {α : Type} (f : List MetaRow → Except SqlError α × List MetaRow) :
      (db.onMeta f).2.accounts = db.accounts ∧ (db.onMeta f).2.devices = db.devices := by
    unfold Database.onMeta
    split <;> exact ⟨rfl, rfl⟩
  have hnonces {α : Type} (f : List NonceRow → Except SqlError α × List NonceRow) :
      (db.onNonces f).2.accounts = db.accounts ∧ (db.onNonces f).2.devices = db.devices := by
    unfold Database.onNonces
    split <;> exact ⟨rfl, rfl⟩
  cases s with
  | createMeta => exact ⟨rfl, rfl⟩
  | createProofNonces => exact ⟨rfl, rfl⟩
  | selectMeta => exact hmeta _
  | upsertMeta => exact hmeta _
  | insertMeta => exact hmeta _
  | deleteNoncesBefore => exact hnonces _
  | insertNonce => exact hnonces _
  | selectDeviceAccount publicKey =>
    simp only [Statement.eval]
    split
    · exact ⟨rfl, rfl⟩
    · exact hread (onRows_of_read fun _ => rfl)
  | selectAccount => exact hread (onRows_of_read fun _ => rfl)
  | selectHandle => exact hread (onRows_of_read fun _ => rfl)
  | selectByHandle => exact hread (onRows_of_read fun _ => rfl)
  | selectNostrPubkey => exact hread (onNostrRows_of_read fun _ _ => rfl)
  | selectNostrForHandle => exact hread (onNostrRows_of_read fun _ _ => rfl)
  | _ => cases hs

def SameDirectory (db db' : Database) : Prop := db'.accounts = db.accounts ∧ db'.devices = db.devices

theorem sameDirectory_of_step (hs : s.writesDirectory = false)
    {r : Except SqlError s.Answer} (h : SqliteStep (.sql s) db r db') : SameDirectory db db' := by
  rcases h with h | ⟨-, rfl⟩
  · have hdb' : db' = (s.eval db).2 := congrArg Prod.snd h
    exact hdb' ▸ eval_keeps_tables hs db
  · exact ⟨rfl, rfl⟩

/-- Both tables and the configuration stay, and no key is cleared. -/
def Undisturbed (c c' : Service × (Database × CallLog)) : Prop :=
  c'.1.config = c.1.config ∧ c'.2.1.accounts = c.2.1.accounts ∧ c'.2.1.devices = c.2.1.devices ∧
    (NoClear c.2.2 → NoClear c'.2.2)

instance : IsPreorder (Service × (Database × CallLog)) Undisturbed where
  refl _ := ⟨rfl, rfl, rfl, id⟩
  trans _ _ _ h h' := ⟨h'.1.trans h.1, h'.2.1.trans h.2.1, h'.2.2.1.trans h.2.2.1, fun hlog => h'.2.2.2 (h.2.2.2 hlog)⟩

theorem undisturbed_concat {service : Service} (haccounts : db'.accounts = db.accounts) (hdevices : db'.devices = db.devices)
    (hcall : ∀ id, call ≠ .sql (.clearNostrPubkey id)) :
    Undisturbed (service, (db, log)) (service, (db', log ++ [⟨call, r⟩])) := by
  refine ⟨rfl, haccounts, hdevices, ?_⟩
  intro hlog id r' hmem
  rcases List.mem_append.1 hmem with hmem | hmem
  · exact hlog id r' hmem
  · rw [List.mem_singleton] at hmem
    exact hcall id (congrArg Sigma.fst hmem).symm

theorem statementKeeps_undisturbed (hs : s.writesDirectory = false) :
    StatementKeeps LoggedStep Undisturbed s := by
  rintro service ⟨db, log⟩ r ⟨db', log'⟩ ⟨hstep, hlog⟩
  cases hlog
  have htab : SameDirectory db db' := sameDirectory_of_step hs hstep
  apply undisturbed_concat htab.1 htab.2
  intro id hcall
  cases hcall
  cases hs

theorem randomKeeps_undisturbed : RandomKeeps LoggedStep Undisturbed := by
  rintro n service ⟨db, log⟩ r ⟨db', log'⟩ ⟨hstep, hlog⟩
  cases hlog
  cases hstep
  exact undisturbed_concat rfl rfl nofun

/-! ## Statements in the logged world -/

section
variable {σ : Type} {c c' : σ × (Database × CallLog)} {s : Statement}

theorem exec_result_bind {f : Except SqlError s.Answer → StorageMethod σ α} {x : Except StorageError α}
    (h : (result s >>= f).Exec LoggedStep c x c') :
    ∃ r c₁, SqliteStep (.sql s) c.2.1 r c₁.2.1 ∧ c₁.2.2 = c.2.2 ++ [⟨.sql s, r⟩] ∧ c₁.1 = c.1 ∧
      (f r).Exec LoggedStep c₁ x c' := by
  obtain ⟨r, w, ⟨hstep, hlog⟩, h⟩ := Method.exec_request_bind.1 h
  exact ⟨r, (c.1, w), hstep, hlog, rfl, h⟩

theorem exec_execute_logged {x : Except StorageError s.Answer} (h : (execute s).Exec LoggedStep c x c') :
    ∃ r : Except SqlError s.Answer, x = r.mapError .sqlite ∧ SqliteStep (.sql s) c.2.1 r c'.2.1 ∧
      c'.2.2 = c.2.2 ++ [⟨.sql s, r⟩] ∧ c'.1 = c.1 := by
  obtain ⟨r, c₁, hstep, hlog, hc, h⟩ := exec_result_bind h
  cases r with
  | ok a =>
    obtain ⟨rfl, rfl⟩ := exec_pure.1 h
    exact ⟨_, rfl, hstep, hlog, hc⟩
  | error e =>
    obtain ⟨rfl, rfl⟩ := exec_throw.1 h
    exact ⟨_, rfl, hstep, hlog, hc⟩

theorem eval_of_execute_ok {a : s.Answer} (h : (execute s).Exec LoggedStep c (.ok a) c') :
    s.eval c.2.1 = (.ok a, c'.2.1) ∧ c'.2.2 = c.2.2 ++ [⟨.sql s, .ok a⟩] ∧ c'.1 = c.1 := by
  obtain ⟨_ | a', hx, hstep, hlog, hc⟩ := exec_execute_logged h
  · cases hx
  · cases hx
    rcases hstep with hstep | ⟨⟨⟩, -⟩
    exact ⟨hstep.symm, hlog, hc⟩

end

/-! ## What a request can do -/

/-- The two tables of the directory, with the column and the index of schema 3. -/
structure Tables (db : Database) (accounts : List NostrRow) (devices : List DeviceRow) : Prop where
  accounts_eq : db.accounts = some (.withNostr accounts true)
  devices_eq : db.devices = some devices

/-- The exchange in which `key` was bound to the account `accountId` with the handle `handle`: its proof carries a
signature of the key and one of the device over the same transcript. -/
inductive SignedBinding (v : Verifier) (server : Bytes 32) (accountId handle : String) : Blob → Handled → Prop where
  | intro {device key nonce : Bytes 32} {deviceSignature nostrSignature : Bytes 64} {keyText nonceText : String}
      {deviceText nostrText : String} {timestamp now : UInt64} {answer : Json} {log : CallLog} :
      decodeNostrKey keyText = .ok key → decodeNostrKey nonceText = .ok nonce →
      decodeSignature "device_signature" deviceText = .ok deviceSignature →
      decodeSignature "nostr_signature" nostrText = .ok nostrSignature →
      v.deviceKeyValid device = true →
      v.deviceVerifies device (nostrBindTranscript server accountId handle key nonce timestamp) deviceSignature = true →
      v.nostrVerifies key (nostrBindTranscript server accountId handle key nonce timestamp) nostrSignature = true →
      SignedBinding v server accountId handle key.val
        ⟨.command accountId device (.bindNostr keyText nonceText timestamp deviceText nostrText) now, .ok answer, log⟩

/-- A row after `UPDATE devices SET last_seen ..` -/
def touchRow (publicKey : Blob) (lastSeen : Int) (row : DeviceRow) : DeviceRow :=
  if row.publicKey == publicKey then { row with lastSeen } else row

/-- A row after `UPDATE accounts SET handle ..` -/
def claimRow (id handle : String) (row : NostrRow) : NostrRow :=
  if row.id == id && row.handle.isNone then { row with handle := some handle } else row

/-- A row after `UPDATE accounts SET nostr_pubkey = ?2 ..` -/
def bindRow (id : String) (key : Blob) (row : NostrRow) : NostrRow :=
  if row.id == id then { row with nostrPubkey := some key } else row

/-- A row after `UPDATE accounts SET nostr_pubkey = NULL ..` -/
def clearRow (id : String) (row : NostrRow) : NostrRow :=
  if row.id == id && row.nostrPubkey.isSome then { row with nostrPubkey := none } else row

/-- What a request can do to the rows `A` of `accounts` and `D` of `devices`. -/
inductive Effect (v : Verifier) (server : Bytes 32) (A : List NostrRow) (D : List DeviceRow)
    (x : Handled) : List NostrRow → List DeviceRow → Prop where
  | none : ¬ LookupLost x.log → Effect v server A D x A D
  | touched {answer : Json} (publicKey : Blob) (lastSeen : Int) : ¬ LookupLost x.log → x.answer = .ok answer →
      Effect v server A D x A (D.map (touchRow publicKey lastSeen))
  | created {answer : Json} (id displayName : String) (publicKey : Blob) (now : Int) : ¬ LookupLost x.log →
      x.answer = .ok answer → (∀ a ∈ A, a.id ≠ id) → (∀ d ∈ D, d.publicKey ≠ publicKey) →
      Effect v server A D x (A ++ [⟨id, none, displayName, now, none⟩]) (D ++ [⟨publicKey, id, now, now⟩])
  | claimed {answer : Json} (id : String) (handle : GlobalHandle) : ¬ LookupLost x.log → x.answer = .ok answer →
      (∀ a ∈ A, a.handle ≠ some handle.text) →
      Effect v server A D x (A.map (claimRow id handle.text)) D
  | bound {answer : Json} (id handle : String) (key : Blob) (a : NostrRow) : ¬ LookupLost x.log →
      x.answer = .ok answer → a ∈ A → a.id = id → a.handle = some handle →
      (∀ b ∈ A, b.nostrPubkey = some key → b.id = id) → SignedBinding v server id handle key x →
      Effect v server A D x (A.map (bindRow id key)) D
  | cleared (id : String) (a : NostrRow) : a ∈ A → a.id = id → a.nostrPubkey ≠ none →
      (LookupLost x.log ↔ ∃ e, x.answer = .error e) →
      Effect v server A D x (A.map (clearRow id)) D

/-- A request that ends in `c'` had one of the effects. -/
def HasEffect (v : Verifier) (config : ServiceConfig) (A : List NostrRow) (D : List DeviceRow)
    (request : ServiceRequest) (answer : Except ServerError Json) (c' : Service × (Database × CallLog)) : Prop :=
  c'.1.config = config ∧ ∃ A' D', Tables c'.2.1 A' D' ∧
    Effect v config.serverPublicKey A D ⟨request, answer, c'.2.2⟩ A' D'

section Effects
variable {v : Verifier} {A : List NostrRow} {D : List DeviceRow} {request : ServiceRequest}
  {c c₁ c' : Service × (Database × CallLog)} {answer : Except ServerError Json}

/-- Before a request writes, the tables are the old ones and no key was cleared. -/
structure Ready (config : ServiceConfig) (A : List NostrRow) (D : List DeviceRow)
    (c : Service × (Database × CallLog)) : Prop where
  config_eq : c.1.config = config
  tables : Tables c.2.1 A D
  noClear : NoClear c.2.2

variable {config : ServiceConfig}

theorem Ready.undisturbed (h : Ready config A D c) (h' : Undisturbed c c') : Ready config A D c' where
  config_eq := h'.1.trans h.config_eq
  tables := ⟨h'.2.1.trans h.tables.accounts_eq, h'.2.2.1.trans h.tables.devices_eq⟩
  noClear := h'.2.2.2 h.noClear

theorem Ready.hasEffect (h : Ready config A D c') : HasEffect v config A D request answer c' :=
  ⟨h.config_eq, A, D, h.tables, .none h.noClear.not_lookupLost⟩

variable {s : Statement} {deviceText id nonceText : String} {α : Type} {now timestamp : UInt64} {device : Bytes 32}

theorem Ready.bind {ε β : Type} {m : Method Call.Answer Service ε α} {f : α → Method Call.Answer Service ε β}
    {x : Except ε β}
    (h : Ready config A D c) (hm : Method.Keeps LoggedStep Undisturbed m)
    (hexec : (m >>= f).Exec LoggedStep c x c') :
    Ready config A D c' ∨ ∃ a c₁, Ready config A D c₁ ∧ m.Exec LoggedStep c (.ok a) c₁ ∧
      (f a).Exec LoggedStep c₁ x c' := by
  rcases exec_bind.1 hexec with ⟨e, -, h₁⟩ | ⟨a, c₁, h₁, h₂⟩
  · exact .inl (h.undisturbed (hm _ _ _ h₁))
  · exact .inr ⟨a, c₁, h.undisturbed (hm _ _ _ h₁), h₁, h₂⟩

variable {r : Except SqlError s.Answer}

theorem Ready.failed {e : SqlError} (h : Ready config A D c)
    (hr : r = .error e) (hstep : SqliteStep (.sql s) c.2.1 r c'.2.1) (hlog : c'.2.2 = c.2.2 ++ [⟨.sql s, r⟩])
    (hc : c'.1 = c.1) (hs : ∀ e', (s.eval c.2.1).1 = .error e' → (s.eval c.2.1).2 = c.2.1)
    (hselect : ∀ id, s ≠ .selectAccount id) : HasEffect v config A D request answer c' := by
  subst hr
  have hdb : c'.2.1 = c.2.1 := by
    rcases hstep with hstep | ⟨-, hdb⟩
    · have h₁ : (s.eval c.2.1).1 = .error e := (congrArg Prod.fst hstep).symm
      exact (congrArg Prod.snd hstep).trans (hs e h₁)
    · exact hdb
  refine ⟨hc ▸ h.config_eq, A, D, hdb ▸ h.tables, .none ?_⟩
  dsimp only
  rw [hlog]
  apply not_lookupLost_concat
  intro id heq
  have hcall := congrArg Sigma.fst heq
  exact hselect id (Call.sql.inj hcall)

theorem Ready.wrote {a : s.Answer} {A' : List NostrRow} {D' : List DeviceRow}
    (h : Ready config A D c) (hlog : c'.2.2 = c.2.2 ++ [⟨.sql s, .ok a⟩]) (hc : c'.1 = c.1) (htab : Tables c'.2.1 A' D')
    (heff : ¬ LookupLost c'.2.2 → Effect v config.serverPublicKey A D ⟨request, answer, c'.2.2⟩ A' D') :
    HasEffect v config A D request answer c' := by
  refine ⟨hc ▸ h.config_eq, A', D', htab, heff ?_⟩
  rw [hlog]
  exact not_lookupLost_ok

section
variable (h : Ready config A D c) (hs : ∀ e', (s.eval c.2.1).1 = .error e' → (s.eval c.2.1).2 = c.2.1)
    (hselect : ∀ id, s ≠ .selectAccount id)
include h hs hselect

theorem Ready.outcome
    (hstep : SqliteStep (.sql s) c.2.1 r c'.2.1) (hlog : c'.2.2 = c.2.2 ++ [⟨.sql s, r⟩]) (hc : c'.1 = c.1) :
    (∃ e, r = .error e ∧ ∀ request answer, HasEffect v config A D request answer c') ∨
      ∃ a, r = .ok a ∧ s.eval c.2.1 = (.ok a, c'.2.1) := by
  cases r with
  | error e => exact .inl ⟨e, rfl, fun _ _ => h.failed rfl hstep hlog hc hs hselect⟩
  | ok a =>
    rcases hstep with hstep | ⟨hio, -⟩
    · exact .inr ⟨a, rfl, hstep.symm⟩
    · cases hio

theorem Ready.write_error {e : StorageError}
    (hexec : (execute s).Exec LoggedStep c (.error e) c') : HasEffect v config A D request answer c' := by
  obtain ⟨_ | _, hx, hstep, hlog, hc⟩ := exec_execute_logged hexec
  · exact h.failed rfl hstep hlog hc hs hselect
  · cases hx

end

/-- The answer of a request whose last part is a method of the storage. -/
def answered {α : Type} (g : α → Json) (z : Except StorageError α) : Except ServerError Json :=
  (z.mapError storageError).map g

theorem hasEffect_stored {m : StorageMethod Service α} {g : α → Json}
    (hm : ∀ z c₁, m.Exec LoggedStep c z c₁ → HasEffect v config A D request (answered g z) c₁)
    (hexec : (stored m >>= fun a => pure (g a)).Exec LoggedStep c answer c') :
    HasEffect v config A D request answer c' := by
  rcases exec_bind.1 hexec with ⟨e, rfl, hsto⟩ | ⟨a, c₁, hsto, hlast⟩
  · obtain ⟨z, hz, heq⟩ := Method.exec_mapError.1 hsto
    have h := hm z _ hz
    unfold answered at h
    rwa [← heq] at h
  · obtain ⟨rfl, rfl⟩ := exec_pure.1 hlast
    exact hm _ _ (exec_mapError_ok.1 hsto)

section Writes

variable {db db' : Database} {displayName id : String} {g : Unit → Json} {z : Except StorageError Unit}
  {a : NostrRow} {publicKey : Bytes 32} {now : UInt64}

theorem unchanged_of_eval_ok {a : s.Answer} (heval : s.eval db = (.ok a, db')) :
    ∀ e', (s.eval db).1 = .error e' → (s.eval db).2 = db := by
  intro e' he
  rw [heval] at he
  cases he

theorem effect_touchDevice (h : Ready config A D c) (hexec : (touchDevice publicKey now).Exec LoggedStep c z c') :
    HasEffect v config A D request (answered g z) c' := by
  have heval : (Statement.touchDevice publicKey.val (toI64 now)).eval c.2.1 = (.ok (), { c.2.1 with
      devices := some (D.map (touchRow publicKey.val (toI64 now))) }) := by
    simp only [Statement.eval, Database.onDevices, h.tables.devices_eq]
    rfl
  cases z with
  | error e => exact h.write_error (unchanged_of_eval_ok heval) (by simp) hexec
  | ok a =>
    obtain ⟨hdb, hlog, hc⟩ := eval_of_execute_ok hexec
    rw [heval, Prod.mk.injEq] at hdb
    refine h.wrote hlog hc ?_ fun hlost => .touched publicKey.val (toI64 now) hlost rfl
    rw [← hdb.2]
    exact ⟨h.tables.accounts_eq, rfl⟩

theorem eval_insert_of_error {publicKey : Blob} {now : Int} {e : SqlError}
    (h : ((Statement.insertAccountAndDevice id displayName publicKey now).eval db).1 = .error e) :
    ((Statement.insertAccountAndDevice id displayName publicKey now).eval db).2 = db := by
  change (db.insertAccountAndDevice id displayName publicKey now).1 = _ at h
  change (db.insertAccountAndDevice id displayName publicKey now).2 = _
  unfold Database.insertAccountAndDevice at h ⊢
  rcases ha : db.onAccounts (AccountsTable.insert id displayName now) with ⟨_ | _, db₁⟩
  · rfl
  · simp only [ha] at h ⊢
    rcases hd : db₁.onDevices (insertDeviceRow ⟨publicKey, id, now, now⟩) with ⟨_ | _, db₂⟩
    · rfl
    · simp only [hd] at h
      cases h

theorem eval_insert_of_ok {publicKey : Blob} {now : Int} (htab : Tables db A D)
    (h : (Statement.insertAccountAndDevice id displayName publicKey now).eval db = (.ok (), db')) :
    (∀ a ∈ A, a.id ≠ id) ∧ (∀ d ∈ D, d.publicKey ≠ publicKey) ∧
      Tables db' (A ++ [⟨id, none, displayName, now, none⟩]) (D ++ [⟨publicKey, id, now, now⟩]) := by
  simp only [Statement.eval, Database.insertAccountAndDevice, Database.onAccounts, htab.accounts_eq,
    AccountsTable.insert] at h
  by_cases hid : A.any (·.id == id)
  · simp [hid] at h
  · simp only [hid, if_false, Database.onDevices, htab.devices_eq, insertDeviceRow, Bool.false_eq_true] at h
    by_cases hkey : D.any (·.publicKey == publicKey)
    · simp [hkey] at h
    · simp only [hkey, if_false, Bool.false_eq_true, Prod.mk.injEq, true_and] at h
      subst h
      simp only [List.any_eq_true, beq_iff_eq, not_exists, not_and] at hid hkey
      exact ⟨hid, hkey, rfl, rfl⟩

theorem effect_createAccount {g : AccountRecord → Json} {z : Except StorageError AccountRecord} (h : Ready config A D c)
    (hexec : (createAccount publicKey displayName now).Exec LoggedStep c z c') :
    HasEffect v config A D request (answered g z) c' := by
  rcases h.bind (keeps_randomId randomKeeps_undisturbed) hexec with hr | ⟨id, c₁, h₁, -, hexec⟩
  · exact hr.hasEffect
  rcases exec_bind.1 hexec with ⟨e, rfl, hins⟩ | ⟨_, c₂, hins, hlast⟩
  · exact h₁.write_error (fun _ => eval_insert_of_error) nofun hins
  · obtain ⟨rfl, rfl⟩ := exec_pure.1 hlast
    obtain ⟨hdb, hlog, hc⟩ := eval_of_execute_ok hins
    obtain ⟨hid, hkey, htab⟩ := eval_insert_of_ok h₁.tables hdb
    exact h₁.wrote hlog hc htab fun hlost => .created _ _ _ _ hlost rfl hid hkey

theorem Tables.unchanged (htab : Tables db A D) : { db with accounts := some (.withNostr A true) } = db := by
  obtain ⟨m, a, d, n⟩ := db
  cases htab.accounts_eq
  rfl

theorem Tables.onAccounts (htab : Tables db A D) (f : AccountsTable → Except SqlError α × AccountsTable) :
    db.onAccounts f = ((f (.withNostr A true)).1, { db with accounts := some (f (.withNostr A true)).2 }) := by
  simp only [Database.onAccounts, htab.accounts_eq]

theorem effect_claimHandle {handle : GlobalHandle} (h : Ready config A D c)
    (hexec : (claimHandle id handle.text).Exec LoggedStep c z c') :
    HasEffect v config A D request (answered g z) c' := by
  rcases h.bind (keeps_execute (statementKeeps_undisturbed rfl)) hexec with hr | ⟨existing, c₁, h₁, -, hexec⟩
  · exact hr.hasEffect
  rcases existing with _ | _ | _
  · obtain ⟨-, rfl⟩ := exec_throw.1 hexec
    exact h₁.hasEffect
  swap
  · obtain ⟨-, rfl⟩ := exec_throw.1 hexec
    exact h₁.hasEffect
  obtain ⟨r, c₂, hstep, hlog, hc, hlast⟩ := exec_result_bind hexec
  have heval : (Statement.setHandle id handle.text).eval c₁.2.1 = _ := h₁.tables.onAccounts _
  simp only [AccountsTable.onRows, setHandleRows] at heval
  have hs : ∀ e', ((Statement.setHandle id handle.text).eval c₁.2.1).1 = .error e' →
      ((Statement.setHandle id handle.text).eval c₁.2.1).2 = c₁.2.1 := by
    intro e' he'
    rw [heval] at he' ⊢
    split_ifs at he' ⊢
    exact h₁.tables.unchanged
  rcases h₁.outcome hs nofun hstep hlog hc with ⟨e, rfl, hno⟩ | ⟨n, rfl, hok⟩
  · obtain ⟨-, rfl⟩ := exec_throw.1 hlast
    exact hno _ _
  obtain ⟨rfl, rfl⟩ := exec_pure.1 hlast
  rw [heval] at hok
  split_ifs at hok with htaken
  · cases hok
  have htab : Tables c'.2.1 (A.map (claimRow id handle.text)) D := by
    rw [← show _ = c'.2.1 from congrArg Prod.snd hok]
    exact ⟨rfl, h₁.tables.devices_eq⟩
  -- a row without a handle was found, or the statement changed none
  by_cases hsel : A.any fun row => row.id == id && row.handle.isNone
  · refine h₁.wrote hlog hc htab fun hlost => .claimed id handle hlost rfl ?_
    intro a ha hhdl
    apply htaken
    rw [hsel, Bool.true_and, List.any_eq_true]
    exact ⟨a, ha, by simp [hhdl]⟩
  · have hsame : A.map (claimRow id handle.text) = A :=
      (List.map_congr_left fun row hrow => if_neg fun hr => hsel (List.any_eq_true.2 ⟨row, hrow, hr⟩)).trans
        (List.map_id' A)
    rw [hsame] at htab
    exact h₁.wrote hlog hc htab fun hlost => .none hlost

theorem effect_bindNostr {handle : String} {key : Bytes 32} (h : Ready config A D c) (ha : a ∈ A) (hid : a.id = id)
    (hhdl : a.handle = some handle)
    (hsigned : ∀ answer log, SignedBinding v config.serverPublicKey id handle key.val ⟨request, .ok answer, log⟩)
    (hexec : (bindNostr id key).Exec LoggedStep c z c') :
    HasEffect v config A D request (answered g z) c' := by
  obtain ⟨r, c₁, hstep, hlog, hc, hlast⟩ := exec_result_bind hexec
  have heval : (Statement.setNostrPubkey id key.val).eval c.2.1 = _ := h.tables.onAccounts _
  simp only [AccountsTable.onNostrRows, setNostrPubkeyRows] at heval
  have hany : A.any (·.id == id) = true := List.any_eq_true.2 ⟨a, ha, by simp [hid]⟩
  rw [hany, Bool.and_self, Bool.true_and] at heval
  have hs : ∀ e', ((Statement.setNostrPubkey id key.val).eval c.2.1).1 = .error e' →
      ((Statement.setNostrPubkey id key.val).eval c.2.1).2 = c.2.1 := by
    intro e' he'
    rw [heval] at he' ⊢
    split_ifs at he' ⊢
    exact h.tables.unchanged
  rcases h.outcome hs nofun hstep hlog hc with ⟨e, rfl, hno⟩ | ⟨n, rfl, hok⟩
  · obtain ⟨-, rfl⟩ := exec_throw.1 hlast
    exact hno _ _
  rw [heval] at hok
  split_ifs at hok with htaken
  · cases hok
  have hcnt : A.countP (·.id == id) = n := Except.ok.inj (congrArg Prod.fst hok)
  have hpos : 0 < n := by
    rw [← hcnt, List.countP_pos_iff]
    exact ⟨a, ha, by simp [hid]⟩
  obtain ⟨n, rfl⟩ := Nat.exists_eq_succ_of_ne_zero hpos.ne'
  obtain ⟨rfl, rfl⟩ := exec_pure.1 hlast
  have htab : Tables c'.2.1 (A.map (bindRow id key.val)) D := by
    rw [← show _ = c'.2.1 from congrArg Prod.snd hok]
    exact ⟨rfl, h.tables.devices_eq⟩
  refine h.wrote hlog hc htab fun hlost => .bound id handle key.val a hlost rfl ha hid hhdl ?_ (hsigned _ _)
  intro b hb hkey
  by_contra hne
  apply htaken
  rw [List.any_eq_true]
  exact ⟨b, hb, by simp [hne, hkey]⟩

theorem eval_selectAccount (htab : Tables db A D) (id : String) :
    (Statement.selectAccount id).eval db = (.ok ((A.find? (·.id == id)).map accountRow), db) := by
  have heval : (Statement.selectAccount id).eval db = _ := htab.onAccounts _
  simpa only [AccountsTable.onRows, htab.unchanged] using heval

theorem find_clearRow (ha : a ∈ A) (hid : a.id = id) : ∃ row, (A.map (clearRow id)).find? (·.id == id) = some row := by
  rw [← Option.isSome_iff_exists, List.find?_isSome]
  refine ⟨_, List.mem_map_of_mem ha, ?_⟩
  unfold clearRow
  split <;> simp [hid]

theorem effect_unbindNostr {g : Bool → Json} {z : Except StorageError Bool}
    (h : Ready config A D c) (ha : a ∈ A) (hid : a.id = id) (hkey : a.nostrPubkey ≠ none)
    (hexec : (unbindNostr id).Exec LoggedStep c z c') :
    HasEffect v config A D request (answered g z) c' := by
  have heval : (Statement.clearNostrPubkey id).eval c.2.1 = _ := h.tables.onAccounts _
  rcases exec_bind.1 hexec with ⟨e, rfl, hclear⟩ | ⟨changed, c₁, hclear, hexec⟩
  · exact h.write_error (unchanged_of_eval_ok heval) nofun hclear
  obtain ⟨hdb, hlog, hc⟩ := eval_of_execute_ok hclear
  rw [heval] at hdb
  have htab : Tables c₁.2.1 (A.map (clearRow id)) D := by
    rw [← show _ = c₁.2.1 from congrArg Prod.snd hdb]
    exact ⟨rfl, h.tables.devices_eq⟩
  have hselect := eval_selectAccount htab id
  have heff {c' : Service × (Database × CallLog)} {z : Except StorageError Bool} (hdb' : c'.2.1 = c₁.2.1)
      (hc' : c'.1 = c₁.1) (hlost : LookupLost c'.2.2 ↔ ∃ e, answered g z = .error e) :
      HasEffect v config A D request (answered g z) c' :=
    ⟨hc' ▸ hc ▸ h.config_eq, _, _, hdb' ▸ htab, .cleared id a ha hid hkey hlost⟩
  rcases exec_bind.1 hexec with ⟨e, rfl, hsel⟩ | ⟨found, c₂, hsel, hlast⟩
  · -- the query fails after the key was cleared
    obtain ⟨r, hx, hstep, hlog', hc'⟩ := exec_execute_logged hsel
    cases r with
    | ok a => cases hx
    | error e' =>
      rcases hstep with hstep | ⟨hio, hdb'⟩
      · rw [hselect] at hstep
        cases hstep
      · cases hio
        refine heff hdb' hc' ⟨fun _ => ⟨_, rfl⟩, fun _ => ⟨c.2.2, id, changed, ?_⟩⟩
        rw [hlog', hlog, List.append_assoc]
        rfl
  · obtain ⟨hstep, hlog', hc'⟩ := eval_of_execute_ok hsel
    obtain ⟨row, hrow⟩ := find_clearRow ha hid
    rw [hselect, hrow, Prod.mk.injEq] at hstep
    cases hstep.1
    obtain ⟨rfl, rfl⟩ := exec_pure.1 hlast
    refine heff hstep.2.symm hc' (iff_of_false ?_ (by rintro ⟨e, ⟨⟩⟩))
    rw [hlog']
    exact not_lookupLost_ok

end Writes

/-! ## Requests -/

theorem Ready.check {y : Except ServerError α} {f : α → ServiceMethod Json} (h : Ready config A D c)
    (hexec : (Method.ofExcept y >>= f).Exec LoggedStep c answer c') :
    HasEffect v config A D request answer c' ∨ ∃ a, y = .ok a ∧ (f a).Exec LoggedStep c answer c' := by
  rcases exec_bind.1 hexec with ⟨e, -, h₁⟩ | ⟨a, c₁, h₁, h₂⟩
  · obtain ⟨-, rfl⟩ := exec_ofExcept.1 h₁
    exact .inl h.hasEffect
  · obtain ⟨hy, rfl⟩ := exec_ofExcept.1 h₁
    exact .inr ⟨a, hy.symm, h₂⟩

theorem effect_register {publicKey : Bytes 32} {displayName : Option String} (h : Ready config A D c)
    (hexec : (Service.register publicKey displayName now).Exec LoggedStep c answer c') :
    HasEffect v config A D request answer c' := by
  unfold Service.register at hexec
  rcases h.bind (keeps_stored (keeps_execute (statementKeeps_undisturbed rfl))) hexec with hr | ⟨found, c₁, h₁, -, hexec⟩
  · exact hr.hasEffect
  cases found with
  | some account => exact hasEffect_stored (fun z c₂ hz => effect_touchDevice h₁ hz) hexec
  | none =>
    rcases h₁.check hexec with hdone | ⟨name, -, hexec⟩
    · exact hdone
    · exact hasEffect_stored (fun z c₂ hz => effect_createAccount h₁ hz) hexec

theorem exec_account_found {account : AccountRecord} (h : Ready config A D c)
    (hexec : (Service.account id).Exec LoggedStep c (.ok account) c') :
    ∃ a ∈ A, a.id = id ∧ account.handle = a.handle := by
  obtain ⟨found, c₁, hfound, hok⟩ := exec_bind_ok.1 hexec
  obtain ⟨hstep, -⟩ := eval_of_execute_ok (exec_mapError_ok.1 hfound)
  rw [eval_selectAccount h.tables, Prod.mk.injEq] at hstep
  obtain ⟨hok, -⟩ := exec_ofExcept.1 hok
  cases hrow : A.find? (·.id == id) with
  | none =>
    rw [hrow] at hstep
    cases hstep.1
    cases hok
  | some a =>
    rw [hrow] at hstep
    cases hstep.1
    cases hok
    exact ⟨a, List.mem_of_find?_eq_some hrow, by simpa using List.find?_some hrow, rfl⟩

theorem eval_selectNostrPubkey (htab : Tables db A D) (id : String) :
    (Statement.selectNostrPubkey id).eval db = (.ok ((A.find? (·.id == id)).map (·.nostrPubkey)), db) := by
  have heval : (Statement.selectNostrPubkey id).eval db = _ := htab.onAccounts _
  simpa only [AccountsTable.onNostrRows, htab.unchanged] using heval

theorem exec_nostrPubkey_found {key : Bytes 32} (h : Ready config A D c)
    (hexec : (stored (nostrPubkey id)).Exec LoggedStep c (.ok (some key)) c') :
    ∃ a ∈ A, a.id = id ∧ a.nostrPubkey ≠ none := by
  obtain ⟨found, c₁, hfound, hok⟩ := exec_bind_ok.1 (exec_mapError_ok.1 hexec)
  obtain ⟨hstep, -⟩ := eval_of_execute_ok hfound
  rw [eval_selectNostrPubkey h.tables, Prod.mk.injEq] at hstep
  cases hrow : A.find? (·.id == id) with
  | none =>
    rw [hrow] at hstep
    cases hstep.1
    exact absurd (exec_throw.1 hok).1 nofun
  | some a =>
    rw [hrow] at hstep
    cases hstep.1
    refine ⟨a, List.mem_of_find?_eq_some hrow, by simpa using List.find?_some hrow, ?_⟩
    intro hnone
    rw [Option.map_some, hnone] at hok
    exact absurd (exec_pure.1 hok).1 nofun

theorem effect_bind {keyText nostrText : String} (h : Ready config A D c)
    (hexec : (Service.bindNostr v id device ⟨keyText, nonceText, timestamp, deviceText, nostrText⟩ now).Exec
      LoggedStep c answer c') :
    HasEffect v config A D (.command id device (.bindNostr keyText nonceText timestamp deviceText nostrText) now) answer
      c' := by
  unfold Service.bindNostr at hexec
  rcases h.bind (keeps_account (statementKeeps_undisturbed rfl)) hexec with hr | ⟨account, c₁, h₁, hacct, hexec⟩
  · exact hr.hasEffect
  obtain ⟨a, ha, hid, hrecord⟩ := exec_account_found h hacct
  rcases h₁.check hexec with hdone | ⟨handle, hhdl, hexec⟩
  · exact hdone
  rcases h₁.check hexec with hdone | ⟨key, hkey, hexec⟩
  · exact hdone
  rcases h₁.check hexec with hdone | ⟨nonce, hnonce, hexec⟩
  · exact hdone
  rcases h₁.check hexec with hdone | ⟨deviceSignature, hdev, hexec⟩
  · exact hdone
  rcases h₁.check hexec with hdone | ⟨nostrSignature, hnostr, hexec⟩
  · exact hdone
  rcases h₁.check hexec with hdone | ⟨_, -, hexec⟩
  · exact hdone
  have hexec := Method.exec_get_bind.1 hexec
  rw [h₁.config_eq] at hexec
  rcases h₁.check hexec with hdone | ⟨_, hdeviceOk, hexec⟩
  · exact hdone
  rcases h₁.check hexec with hdone | ⟨_, hnostrOk, hexec⟩
  · exact hdone
  rcases h₁.bind (keeps_stored (keeps_rememberProofNonce (statementKeeps_undisturbed rfl)
      (statementKeeps_undisturbed rfl))) hexec with hr | ⟨_, c₂, h₂, -, hexec⟩
  · exact hr.hasEffect
  have hhdl' : a.handle = some handle := by
    rw [← hrecord]
    cases hrec : account.handle with
    | none =>
      rw [hrec] at hhdl
      cases hhdl
    | some text =>
      rw [hrec] at hhdl
      cases hhdl
      rfl
  have hvalid : v.deviceKeyValid device = true ∧ v.deviceVerifies device (nostrBindTranscript config.serverPublicKey id
      handle key nonce timestamp) deviceSignature = true := by
    unfold verifyDevice at hdeviceOk
    split_ifs at hdeviceOk with hk hv
    exact ⟨by simpa using hk, hv⟩
  have hvrf : v.nostrVerifies key (nostrBindTranscript config.serverPublicKey id handle key nonce timestamp)
      nostrSignature = true := by
    unfold verifyNostr at hnostrOk
    split_ifs at hnostrOk with hv
    exact hv
  exact hasEffect_stored (fun z c₃ hz => effect_bindNostr h₂ ha hid hhdl'
    (fun _ _ => .intro hkey hnonce hdev hnostr hvalid.1 hvalid.2 hvrf) hz) hexec

theorem effect_unbind (h : Ready config A D c)
    (hexec : (Service.unbindNostr v id device nonceText timestamp deviceText now).Exec LoggedStep c answer
      c') : HasEffect v config A D request answer c' := by
  unfold Service.unbindNostr at hexec
  rcases h.bind (keeps_account (statementKeeps_undisturbed rfl)) hexec with hr | ⟨account, c₁, h₁, -, hexec⟩
  · exact hr.hasEffect
  rcases h₁.check hexec with hdone | ⟨handle, -, hexec⟩
  · exact hdone
  rcases h₁.bind (keeps_stored (keeps_nostrPubkey (statementKeeps_undisturbed rfl))) hexec with
    hr | ⟨key, c₂, h₂, hkey, hexec⟩
  · exact hr.hasEffect
  rcases h₂.check hexec with hdone | ⟨bound, hbd, hexec⟩
  · exact hdone
  rcases h₂.check hexec with hdone | ⟨nonce, -, hexec⟩
  · exact hdone
  rcases h₂.check hexec with hdone | ⟨deviceSignature, -, hexec⟩
  · exact hdone
  rcases h₂.check hexec with hdone | ⟨_, -, hexec⟩
  · exact hdone
  have hexec := Method.exec_get_bind.1 hexec
  rcases h₂.check hexec with hdone | ⟨_, -, hexec⟩
  · exact hdone
  rcases h₂.bind (keeps_stored (keeps_rememberProofNonce (statementKeeps_undisturbed rfl)
      (statementKeeps_undisturbed rfl))) hexec with hr | ⟨_, c₃, h₃, -, hexec⟩
  · exact hr.hasEffect
  have hsome : key = some bound := by
    cases key with
    | none => cases hbd
    | some key' => exact congrArg some (Except.ok.inj hbd)
  rw [hsome] at hkey
  obtain ⟨a, ha, hid, hne⟩ := exec_nostrPubkey_found h₁ hkey
  exact hasEffect_stored (fun z c₄ hz => effect_unbindNostr h₃ ha hid hne hz) hexec

/-- **All that a request can do.** -/
theorem step_effect {c c' : Service × Database} {x : Handled} (htab : Tables c.2 A D) (h : DirectoryStep v c x c') :
    c'.1.config = c.1.config ∧ ∃ A' D', Tables c'.2 A' D' ∧ Effect v c.1.config.serverPublicKey A D x A' D' := by
  have hrdy : Ready c.1.config A D (c.1, (c.2, [])) := ⟨rfl, htab, fun _ _ => List.not_mem_nil⟩
  have hkept (hm : Method.Keeps LoggedStep Undisturbed (Service.handle v x.request)) :
      HasEffect v c.1.config A D x.request x.answer (c'.1, (c'.2, x.log)) :=
    (hrdy.undisturbed (hm _ _ _ h)).hasEffect
  suffices heff : HasEffect v c.1.config A D x.request x.answer (c'.1, (c'.2, x.log)) from heff
  obtain ⟨request, answer, log⟩ := x
  unfold DirectoryStep at h
  cases request with
  | register publicKey displayName now => exact effect_register hrdy h
  | attach =>
    refine hkept (keeps_bind (keeps_modify fun _ _ => ?_) fun _ => keeps_pure _)
    exact ⟨rfl, rfl, rfl, id⟩
  | detach =>
    refine hkept (keeps_bind (keeps_modify fun _ _ => ?_) fun _ => keeps_pure _)
    exact ⟨rfl, rfl, rfl, id⟩
  | nip05 name =>
    exact hkept (along_nip05 along_keeps fun _ => keeps_stored (keeps_nostrForHandle (statementKeeps_undisturbed rfl)))
  | command id device command now =>
    cases command with
    | hello => exact hkept (keeps_throw _)
    | authenticate => exact hkept (keeps_throw _)
    | status =>
      exact hkept (along_status along_keeps v now (keeps_stored (keeps_execute (statementKeeps_undisturbed rfl)))
        (keeps_stored (keeps_nostrPubkey (statementKeeps_undisturbed rfl))))
    | resolveHandle text =>
      exact hkept (along_resolveHandle along_keeps v id text device now fun _ =>
        keeps_stored (keeps_execute (statementKeeps_undisturbed rfl)))
    | claimHandle text =>
      rcases hrdy.check h with hdone | ⟨handle, -, hexec⟩
      · exact hdone
      · exact hasEffect_stored (fun z c₂ hz => effect_claimHandle hrdy hz) hexec
    | bindNostr => exact effect_bind hrdy h
    | unbindNostr => exact effect_unbind hrdy h

end Effects

end OmaChat.Server

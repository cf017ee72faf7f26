import OmaChat.Lib.Prog
import OmaChat.Lib.Bytes

/-!
# The account database

`storage.rs` keeps accounts, devices and used proof nonces in one SQLite database. A `Database` is the content of that
file: the tables that exist and their rows. A `Statement` is one SQL statement of `storage.rs`, and `Statement.eval`
is what SQLite does for it, with the primary keys, the unique columns and the `IF NOT EXISTS` clauses of the schema.
Outside a transaction SQLite commits each statement on its own, so a crash falls between two statements; the one
transaction of the file, the insertion of an account and its device, is one `Statement` for that reason.
-/

namespace OmaChat.Server
open Wire Effects

/-- The value of a `BLOB` column. -/
abbrev Blob := List UInt8

/-- A row of `meta`. -/
structure MetaRow where
  key : String
  value : Blob
  deriving DecidableEq

/-- A row of `accounts`. The column `nostr_pubkey` came with schema 3: `N` is `Unit` before and `Option Blob` after. -/
structure AccountRow (N : Type) where
  id : String
  handle : Option String
  displayName : String
  createdAt : Int
  nostrPubkey : N
  deriving DecidableEq

/-- A row of `accounts` with the column of schema 3. -/
abbrev NostrRow : Type := AccountRow (Option Blob)

/-- A row of `devices`. -/
structure DeviceRow where
  publicKey : Blob
  accountId : String
  createdAt : Int
  lastSeen : Int
  deriving DecidableEq

/-- A row of `nostr_proof_nonces`. -/
structure NonceRow where
  nonce : Blob
  accountId : String
  seenAt : Int
  deriving DecidableEq

/-- The table `accounts` with or without the column `nostr_pubkey`; `unique` says whether the unique index
`accounts_nostr_pubkey` exists, which needs the column. -/
inductive AccountsTable where
  | withoutNostr (rows : List (AccountRow Unit))
  | withNostr (rows : List NostrRow) (unique : Bool)
  deriving DecidableEq

/-- The content of the database file; a table that was not created is `none`. -/
structure Database where
  metaRows : Option (List MetaRow)
  accounts : Option AccountsTable
  devices : Option (List DeviceRow)
  proofNonces : Option (List NonceRow)
  deriving DecidableEq

def Database.fresh : Database := ⟨none, none, none, none⟩

structure AccountRecord where
  id : String
  handle : Option String
  displayName : String
  createdAt : UInt64
  deriving DecidableEq

def fromI64 (value : Int) : UInt64 := UInt64.ofNat value.toNat

def toI64 (value : UInt64) : Int := if value.toNat < 2 ^ 63 then value.toNat else 2 ^ 63 - 1

theorem toI64_le_toI64 {a b : UInt64} (h : a ≤ b) : toI64 a ≤ toI64 b := by
  rw [UInt64.le_iff_toNat_le] at h
  unfold toI64
  split_ifs <;> omega

def accountRow {N : Type} (row : AccountRow N) : AccountRecord where
  id := row.id
  handle := row.handle
  displayName := row.displayName
  createdAt := fromI64 row.createdAt

/-- What SQLite reports. `io` stands for every failure that does not follow from the content. -/
inductive SqlError where
  | constraint
  | noSuchTable
  | noSuchColumn
  | duplicateColumn
  | io
  deriving DecidableEq

def isConstraint : SqlError → Bool
  | .constraint => true
  | _ => false

/-! ## Statements -/

/-- The statements of `storage.rs`. -/
inductive Statement where
  | createMeta
  | createAccounts
  | createDevices
  | selectMeta (key : String)
  | addNostrPubkey
  | createNostrIndex
  | createProofNonces
  | upsertMeta (key : String) (value : Blob)
  | insertMeta (key : String) (value : Blob)
  | selectDeviceAccount (publicKey : Blob)
  | selectAccount (id : String)
  | touchDevice (publicKey : Blob) (lastSeen : Int)
  | insertAccountAndDevice (id displayName : String) (publicKey : Blob) (now : Int)
  | selectHandle (id : String)
  | setHandle (id handle : String)
  | selectByHandle (handle : String)
  | selectNostrPubkey (id : String)
  | setNostrPubkey (id : String) (pubkey : Blob)
  | clearNostrPubkey (id : String)
  | selectNostrForHandle (handle : String)
  | deleteNoncesBefore (oldest : Int)
  | insertNonce (nonce : Blob) (accountId : String) (seenAt : Int)

/-- What a statement answers: the row of a query, if any, or the number of rows that an update changed. -/
@[reducible] def Statement.Answer : Statement → Type
  | .selectMeta _ => Option Blob
  | .selectDeviceAccount _ | .selectAccount _ | .selectByHandle _ => Option AccountRecord
  | .selectHandle _ => Option (Option String)
  | .selectNostrPubkey _ | .selectNostrForHandle _ => Option (Option Blob)
  | .setHandle .. | .setNostrPubkey .. | .clearNostrPubkey _ => Nat
  | _ => Unit

/-! ## What SQLite does -/

section
variable {α : Type}

/-- Read and change the rows of `meta`. -/
def Database.onMeta (db : Database) (f : List MetaRow → Except SqlError α × List MetaRow) :
    Except SqlError α × Database :=
  match db.metaRows with
  | none => (.error .noSuchTable, db)
  | some rows => ((f rows).1, { db with metaRows := some (f rows).2 })

/-- Read and change the table `accounts`. -/
def Database.onAccounts (db : Database) (f : AccountsTable → Except SqlError α × AccountsTable) :
    Except SqlError α × Database :=
  match db.accounts with
  | none => (.error .noSuchTable, db)
  | some table => ((f table).1, { db with accounts := some (f table).2 })

/-- Read and change the rows of `devices`. -/
def Database.onDevices (db : Database) (f : List DeviceRow → Except SqlError α × List DeviceRow) :
    Except SqlError α × Database :=
  match db.devices with
  | none => (.error .noSuchTable, db)
  | some rows => ((f rows).1, { db with devices := some (f rows).2 })

/-- Read and change the rows of `nostr_proof_nonces`. -/
def Database.onNonces (db : Database) (f : List NonceRow → Except SqlError α × List NonceRow) :
    Except SqlError α × Database :=
  match db.proofNonces with
  | none => (.error .noSuchTable, db)
  | some rows => ((f rows).1, { db with proofNonces := some (f rows).2 })

/-- Work on the columns that `accounts` has in every schema. -/
def AccountsTable.onRows (f : {N : Type} → List (AccountRow N) → Except SqlError α × List (AccountRow N)) :
    AccountsTable → Except SqlError α × AccountsTable
  | .withoutNostr rows => ((f rows).1, .withoutNostr (f rows).2)
  | .withNostr rows unique => ((f rows).1, .withNostr (f rows).2 unique)

/-- Work on rows with the column `nostr_pubkey`; without it the statement does not compile. -/
def AccountsTable.onNostrRows
    (f : List NostrRow → Bool → Except SqlError α × List NostrRow) :
    AccountsTable → Except SqlError α × AccountsTable
  | .withoutNostr rows => (.error .noSuchColumn, .withoutNostr rows)
  | .withNostr rows unique => ((f rows unique).1, .withNostr (f rows unique).2 unique)

end

/-- `ALTER TABLE accounts ADD COLUMN nostr_pubkey BLOB`: every row gets `NULL`. The statement has no `IF NOT EXISTS`
form, so it fails on a table that has the column. -/
def AccountsTable.addNostrPubkey : AccountsTable → Except SqlError Unit × AccountsTable
  | .withoutNostr rows => (.ok (), .withNostr (rows.map fun row => { row with nostrPubkey := none }) false)
  | .withNostr rows unique => (.error .duplicateColumn, .withNostr rows unique)

/-- `CREATE UNIQUE INDEX IF NOT EXISTS accounts_nostr_pubkey`; it fails if two rows already share a key. -/
def AccountsTable.createNostrIndex : AccountsTable → Except SqlError Unit × AccountsTable
  | .withoutNostr rows => (.error .noSuchColumn, .withoutNostr rows)
  | .withNostr rows unique =>
    if unique ∨ (rows.filterMap (·.nostrPubkey)).Nodup then (.ok (), .withNostr rows true)
    else (.error .constraint, .withNostr rows unique)

/-- `INSERT INTO meta .. ON CONFLICT(key) DO UPDATE` -/
def upsertMetaRow (key : String) (value : Blob) (rows : List MetaRow) : List MetaRow :=
  if rows.any (·.key == key) then rows.map fun row => if row.key == key then { row with value } else row
  else rows ++ [⟨key, value⟩]

/-- `UPDATE accounts SET handle = ?2 WHERE id = ?1 AND handle IS NULL`, with `handle` unique -/
def setHandleRows {N : Type} (id handle : String) (rows : List (AccountRow N)) :
    Except SqlError Nat × List (AccountRow N) :=
  let selected := fun row : AccountRow N => row.id == id && row.handle.isNone
  if rows.any selected && rows.any (·.handle == some handle) then (.error .constraint, rows)
  else (.ok (rows.countP selected), rows.map fun row => if selected row then { row with handle := some handle } else row)

/-- `UPDATE accounts SET nostr_pubkey = ?2 WHERE id = ?1`, with the key unique if the index exists -/
def setNostrPubkeyRows (id : String) (pubkey : Blob) (rows : List NostrRow) (unique : Bool) :
    Except SqlError Nat × List NostrRow :=
  if unique && rows.any (·.id == id) && rows.any fun row => row.id != id && row.nostrPubkey == some pubkey then
    (.error .constraint, rows)
  else
    (.ok (rows.countP (·.id == id)),
      rows.map fun row => if row.id == id then { row with nostrPubkey := some pubkey } else row)

/-- `UPDATE accounts SET nostr_pubkey = NULL WHERE id = ?1 AND nostr_pubkey IS NOT NULL` -/
def clearNostrPubkeyRows (id : String) (rows : List NostrRow) :
    Except SqlError Nat × List NostrRow :=
  let selected := fun row : NostrRow => row.id == id && row.nostrPubkey.isSome
  (.ok (rows.countP selected), rows.map fun row => if selected row then { row with nostrPubkey := none } else row)

/-- `INSERT INTO accounts (id, handle, display_name, created_at) VALUES (?1, NULL, ?2, ?3)`, with `id` the primary
key -/
def AccountsTable.insert (id displayName : String) (createdAt : Int) : AccountsTable → Except SqlError Unit × AccountsTable
  | .withoutNostr rows =>
    if rows.any (·.id == id) then (.error .constraint, .withoutNostr rows)
    else (.ok (), .withoutNostr (rows ++ [⟨id, none, displayName, createdAt, ()⟩]))
  | .withNostr rows unique =>
    if rows.any (·.id == id) then (.error .constraint, .withNostr rows unique)
    else (.ok (), .withNostr (rows ++ [⟨id, none, displayName, createdAt, none⟩]) unique)

/-- `INSERT INTO devices ..`, with `public_key` the primary key -/
def insertDeviceRow (row : DeviceRow) (rows : List DeviceRow) : Except SqlError Unit × List DeviceRow :=
  if rows.any (·.publicKey == row.publicKey) then (.error .constraint, rows) else (.ok (), rows ++ [row])

/-- `INSERT INTO nostr_proof_nonces ..`, with `nonce` the primary key -/
def insertNonceRow (row : NonceRow) (rows : List NonceRow) : Except SqlError Unit × List NonceRow :=
  if rows.any (·.nonce == row.nonce) then (.error .constraint, rows) else (.ok (), rows ++ [row])

/-- The transaction of `create_account`: both rows are inserted, or neither. -/
def Database.insertAccountAndDevice (db : Database) (id displayName : String) (publicKey : Blob) (now : Int) :
    Except SqlError Unit × Database :=
  match db.onAccounts (AccountsTable.insert id displayName now) with
  | (.error e, _) => (.error e, db)
  | (.ok (), db₁) =>
    match db₁.onDevices (insertDeviceRow ⟨publicKey, id, now, now⟩) with
    | (.error e, _) => (.error e, db)
    | (.ok (), db₂) => (.ok (), db₂)

def Statement.eval : (s : Statement) → Database → Except SqlError s.Answer × Database
  | .createMeta, db => (.ok (), { db with metaRows := some (db.metaRows.getD []) })
  | .createAccounts, db => (.ok (), { db with accounts := some (db.accounts.getD (.withoutNostr [])) })
  | .createDevices, db => (.ok (), { db with devices := some (db.devices.getD []) })
  | .selectMeta key, db => db.onMeta fun rows => (.ok ((rows.find? (·.key == key)).map (·.value)), rows)
  | .addNostrPubkey, db => db.onAccounts AccountsTable.addNostrPubkey
  | .createNostrIndex, db => db.onAccounts AccountsTable.createNostrIndex
  | .createProofNonces, db => (.ok (), { db with proofNonces := some (db.proofNonces.getD []) })
  | .upsertMeta key value, db => db.onMeta fun rows => (.ok (), upsertMetaRow key value rows)
  | .insertMeta key value, db => db.onMeta fun rows =>
    if rows.any (·.key == key) then (.error .constraint, rows) else (.ok (), rows ++ [⟨key, value⟩])
  | .selectDeviceAccount publicKey, db =>
    match db.devices with
    | none => (.error .noSuchTable, db)
    | some devices => db.onAccounts <| AccountsTable.onRows fun rows =>
      (.ok (do
        let device ← devices.find? (·.publicKey == publicKey)
        let row ← rows.find? (·.id == device.accountId)
        return accountRow row), rows)
  | .selectAccount id, db => db.onAccounts <| AccountsTable.onRows fun rows =>
    (.ok ((rows.find? (·.id == id)).map accountRow), rows)
  | .touchDevice publicKey lastSeen, db => db.onDevices fun rows =>
    (.ok (), rows.map fun row => if row.publicKey == publicKey then { row with lastSeen } else row)
  | .insertAccountAndDevice id displayName publicKey now, db => db.insertAccountAndDevice id displayName publicKey now
  | .selectHandle id, db => db.onAccounts <| AccountsTable.onRows fun rows =>
    (.ok ((rows.find? (·.id == id)).map (·.handle)), rows)
  | .setHandle id handle, db => db.onAccounts <| AccountsTable.onRows (setHandleRows id handle)
  | .selectByHandle handle, db => db.onAccounts <| AccountsTable.onRows fun rows =>
    (.ok ((rows.find? (·.handle == some handle)).map accountRow), rows)
  | .selectNostrPubkey id, db => db.onAccounts <| AccountsTable.onNostrRows fun rows _ =>
    (.ok ((rows.find? (·.id == id)).map (·.nostrPubkey)), rows)
  | .setNostrPubkey id pubkey, db => db.onAccounts <| AccountsTable.onNostrRows (setNostrPubkeyRows id pubkey)
  | .clearNostrPubkey id, db => db.onAccounts <| AccountsTable.onNostrRows fun rows _ => clearNostrPubkeyRows id rows
  | .selectNostrForHandle handle, db => db.onAccounts <| AccountsTable.onNostrRows fun rows _ =>
    (.ok ((rows.find? (·.handle == some handle)).map (·.nostrPubkey)), rows)
  | .deleteNoncesBefore oldest, db => db.onNonces fun rows => (.ok (), rows.filter fun row => !(row.seenAt < oldest))
  | .insertNonce nonce accountId seenAt, db => db.onNonces (insertNonceRow ⟨nonce, accountId, seenAt⟩)

/-! ## The calls of the server -/

/-- What the server asks of its surroundings: a statement of the database, or random bytes. -/
inductive Call where
  | sql (statement : Statement)
  | random (length : Nat)

/-- The answers to calls; randomness may be unavailable. -/
@[reducible] def Call.Answer : Call → Type
  | .sql statement => Except SqlError statement.Answer
  | .random length => Option (Bytes length)

/-- A database without I/O failures, beside a source of randomness. -/
def sqlite (entropy : (n : Nat) → Option (Bytes n)) : (call : Call) → Database → call.Answer × Database
  | .sql statement, db => statement.eval db
  | .random length, db => (entropy length, db)

/-- The database at its worst: a statement does what SQLite says or fails and changes nothing, and the random bytes
are anything. -/
def SqliteStep : Answering Call.Answer Database
  | .sql statement, db, r, db' => (r, db') = statement.eval db ∨ r = .error .io ∧ db' = db
  | .random _, db, _, db' => db' = db

theorem sqliteStep_sqlite (entropy : (n : Nat) → Option (Bytes n)) (call : Call) (db : Database) :
    SqliteStep call db (sqlite entropy call db).1 (sqlite entropy call db).2 := by
  cases call with
  | sql statement => exact .inl rfl
  | random length => rfl

end OmaChat.Server

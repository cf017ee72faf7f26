import OmaChat.Lib.JsonText
import OmaChat.Nostr.Nip05
import OmaChat.Server.Nip05
import OmaChat.Server.Directory

/-!
# Published handles

* `lookup` : what the service answers for a name, on a database that does not fail;
* `fetchFrom` : what the client fetches from the server, over a transport that changes nothing;
* `published_handles_resolve` : in every reachable state the client finds the key that is bound to a handle, and no key
  for any other name.
-/

namespace OmaChat.Server
open Wire Effects Proto Crypto Transition Nostr

variable {A : List NostrRow} {D : List DeviceRow} {c : Service × Database} {db : Database} {key : Bytes 32}
  {keyValid : Bytes 32 → Bool} {name : String} {v : Verifier}

def Bound (db : Database) (handle : String) (key : Bytes 32) : Prop :=
  ∃ rows indexed, db.accounts = some (.withNostr rows indexed) ∧
    ∃ row ∈ rows, row.handle = some handle ∧ row.nostrPubkey = some key.val

/-- What the service answers for a name, on a database that does not fail. -/
def lookup (v : Verifier) (c : Service × Database) (name : String) : Except ServerError Json :=
  (Method.run (sqlite fun _ => none) (Service.handle v (.nip05 name)) c).1

/-- What the client fetches from the server: the body of an answer with status 200. -/
def fetchFrom (v : Verifier) (c : Service × Database) (url : DocumentUrl) : Option (List UInt8) :=
  let (status, body) := nip05Response (lookup v c) url.target
  if status = 200 then some (utf8 body.render) else none

/-- The document of a key in `Service::nip05` -/
def nip05Document (config : ServiceConfig) (name : String) (key : Bytes 32) : Json :=
  let names := Json.object [(name, .str (hexEncode key.val))]
  if config.nip05Relays = [] then .object [("names", names)]
  else
    .object [("names", names), ("relays", .object [(hexEncode key.val, .arr (config.nip05Relays.map .str))])]

theorem eval_selectNostrForHandle (htab : Tables db A D) (handle : String) :
    (Statement.selectNostrForHandle handle).eval db =
      (.ok ((A.find? (·.handle == some handle)).map (·.nostrPubkey)), db) := by
  have hread : ((Statement.selectNostrForHandle handle).eval db).2 = db :=
    onAccounts_of_read (onNostrRows_of_read fun _ _ => rfl)
  rw [← Prod.mk.eta (p := (Statement.selectNostrForHandle handle).eval db), hread]
  simp only [Statement.eval, Database.onAccounts, htab.accounts_eq, AccountsTable.onNostrRows]

theorem all_isNameByte (hname : IsName name) : (utf8 name).all isNameByte = true := by
  have hascii : ∀ n < 128, isLocalByte (UInt8.ofNat n) = true → (Char.ofNat n).toLower = Char.ofNat n →
      isNameByte (UInt8.ofNat n) = true := by decide +kernel
  rw [utf8_of_ascii fun c hc => (hname.chars c hc).1, List.all_map, List.all_eq_true]
  intro c hc
  obtain ⟨hlt, hloc⟩ := hname.chars c hc
  refine hascii c.toNat hlt hloc ?_
  rw [Char.ofNat_toNat]
  obtain ⟨d, -, hd⟩ := mem_lower (hname.lower_eq ▸ hc)
  rw [← hd, toLower_toLower]

theorem run_nostrForHandle (htab : Tables c.2 A D) :
    (nostrForHandle name).run (sqlite fun _ => none) c =
      (match (A.find? (·.handle == some name)).bind (·.nostrPubkey) with
        | none => .ok none
        | some bytes => (fixedKey bytes).map some, c) := by
  unfold nostrForHandle execute result
  simp only [Method.run_bind, Method.run_request, sqlite, eval_selectNostrForHandle htab, Method.run_pure]
  cases A.find? (·.handle == some name) with
  | none => rfl
  | some row =>
    dsimp only [Option.map_some, Option.bind_some]
    cases row.nostrPubkey with
    | none => rfl
    | some bytes =>
      dsimp only
      rw [Method.run_bind, Method.run_ofExcept]
      cases fixedKey bytes <;> rfl

theorem lookup_eq (hname : IsName name) (htab : Tables c.2 A D) :
    lookup v c name =
      if 64 < name.utf8ByteSize then
        .error ⟨.invalidName, "nip-05 names are 1 to 64 characters from a-z, 0-9, '-', '_' and '.'"⟩
      else match (A.find? (·.handle == some name)).bind (·.nostrPubkey) with
        | none => .error ⟨.notFound, "no nostr key for that name"⟩
        | some bytes => match fixedKey bytes with
          | .ok key => .ok (nip05Document c.1.config name key)
          | .error error => .error (storageError error) := by
  have hlower : name.map Char.toLower = name := hname.lower_eq
  have hnip05 : Service.handle v (.nip05 name) = Service.nip05 name := rfl
  unfold lookup
  rw [hnip05]
  unfold Service.nip05
  rw [if_neg hname.nonempty]
  dsimp only
  rw [hlower]
  by_cases hsize : 64 < name.utf8ByteSize
  · rw [if_pos (.inl hsize), if_pos hsize]
    rfl
  have hv : ¬ (64 < name.utf8ByteSize ∨ ¬ (utf8 name).all isNameByte = true) := by
    rw [not_or, not_not]
    exact ⟨hsize, all_isNameByte hname⟩
  rw [if_neg hv, if_neg hsize, Method.run_bind, stored, Method.run_mapError, run_nostrForHandle htab]
  cases (A.find? (·.handle == some name)).bind (·.nostrPubkey) with
  | none => rfl
  | some bytes =>
    dsimp only
    cases fixedKey bytes with
    | error error => rfl
    | ok key =>
      dsimp only [Except.map, Except.mapError]
      rw [Method.run_bind, okOr, Method.run_ofExcept]
      dsimp only
      rw [Method.run_bind, Method.run_get]
      dsimp only
      unfold nip05Document
      by_cases hrs : c.1.config.nip05Relays = []
      · rw [if_pos hrs]
        dsimp only
        rw [if_pos hrs]
        rfl
      · rw [if_neg hrs]
        dsimp only
        rw [if_neg hrs]
        rfl

/-! ## The client -/

section
variable {fromSlice : List UInt8 → Option Json}

theorem isValue_nip05Document (config : ServiceConfig) (name : String) (key : Bytes 32) :
    (nip05Document config name key).IsValue := by
  have hnames : (Json.object [(name, .str (hexEncode key.val))]).IsValue := by
    apply Json.IsValue.object
    intro field hf
    rw [List.mem_singleton.1 hf]
    exact .str _
  have hrs : (Json.object [(hexEncode key.val, .arr (config.nip05Relays.map .str))]).IsValue := by
    apply Json.IsValue.object
    intro field hf
    rw [List.mem_singleton.1 hf]
    apply Json.IsValue.arr
    intro item hitem
    obtain ⟨relay, -, rfl⟩ := List.mem_map.1 hitem
    exact .str relay
  unfold nip05Document
  dsimp only
  split
  · apply Json.IsValue.object
    intro field hf
    rw [List.mem_singleton.1 hf]
    exact hnames
  · apply Json.IsValue.object
    intro field hf
    rcases List.mem_pair.1 hf with rfl | rfl
    · exact hnames
    · exact hrs

theorem field_names_nip05Document (config : ServiceConfig) (name : String) (key : Bytes 32) :
    (nip05Document config name key).field "names" = some (.obj [(name, .str (hexEncode key.val))]) := by
  unfold nip05Document
  dsimp only
  split
  · rfl
  · simp [Json.object, Json.insertField, Json.keyLt, Json.field]

theorem publicKeyFromDocument_eq (hjson : Json.Reads fromSlice) (hv : keyValid key = true) (config : ServiceConfig) :
    publicKeyFromDocument fromSlice keyValid (utf8 (nip05Document config name key).render) name = .ok key := by
  have hsize : (hexEncode key.val).utf8ByteSize = 64 := by rw [utf8ByteSize_hexEncode, key.property]
  have hdigit : ∀ n < 16, ∀ b ∈ String.utf8EncodeChar (hexDigit n), isAsciiHexDigit b = true := by decide +kernel
  have hdig : (utf8 (hexEncode key.val)).all isAsciiHexDigit = true := by
    rw [List.all_eq_true]
    intro b hb
    obtain ⟨n, hn, hb⟩ := mem_utf8_hexEncode hb
    exact hdigit n hn b hb
  have hfind : ([(name, Json.str (hexEncode key.val))].find? fun entry => eqIgnoreAsciiCase entry.1 name) =
      some (name, .str (hexEncode key.val)) := by
    apply List.find?_cons_of_pos
    exact beq_self_eq_true _
  unfold publicKeyFromDocument
  rw [hjson _ (isValue_nip05Document config name key)]
  dsimp only
  rw [field_names_nip05Document]
  dsimp only
  rw [hfind]
  dsimp only [Option.map_some]
  rw [if_neg (by rw [hsize, hdig]; simp), hexDecode_hexEncode, Option.bind_some, Bytes.ofList?_val]
  exact if_pos hv

theorem queryName_target (hname : IsName name) {urls : UrlLibrary} {loopbackBase : Option String} {domain : String}
    {url : DocumentUrl} (hurl : documentUrl urls loopbackBase name domain = .ok url) :
    queryName url.target = some name := by
  have hascii : ∀ n < 128, isLocalByte (UInt8.ofNat n) = true →
      UInt8.ofNat n ≠ 43 ∧ UInt8.ofNat n ≠ 37 ∧ Char.ofNat n ≠ '&' := by decide +kernel
  have ht : url.target = wellKnownPath ++ "?name=" ++ name := by
    unfold documentUrl at hurl
    cases loopbackBase with
    | some base =>
      dsimp only at hurl
      cases horigin : urls.loopbackOrigin base with
      | none => rw [horigin] at hurl; cases hurl
      | some origin =>
        rw [horigin, hname.formEncode_eq] at hurl
        cases hurl
        rfl
    | none =>
      dsimp only at hurl
      cases hdomain : validatePublicDomain urls domain with
      | error error => rw [hdomain] at hurl; cases hurl
      | ok _ =>
        rw [hdomain] at hurl
        cases hurl
        rfl
  rw [ht]
  apply queryName_of_plain
  · rw [utf8_of_ascii fun c hc => (hname.chars c hc).1]
    intro b hb
    obtain ⟨c, hc, rfl⟩ := List.mem_map.1 hb
    obtain ⟨hlt, hloc⟩ := hname.chars c hc
    have hc' := hascii c.toNat hlt hloc
    exact ⟨hc'.1, hc'.2.1⟩
  · intro hamp
    obtain ⟨hlt, hloc⟩ := hname.chars '&' hamp
    exact absurd rfl (hascii '&'.toNat hlt hloc).2.2

end

/-! ## Reachable states -/

section
variable {server : Bytes 32} {xs : List Handled} {row : NostrRow}

theorem bound_iff (htab : Tables db A D) :
    Bound db name key ↔ ∃ row ∈ A, row.handle = some name ∧ row.nostrPubkey = some key.val := by
  unfold Bound
  rw [htab.accounts_eq]
  constructor
  · intro ⟨rows, indexed, hrows, hrow⟩
    cases hrows
    exact hrow
  · intro hrow
    exact ⟨A, true, rfl, hrow⟩

section
variable (h : Directory v server xs A D)
include h

theorem Directory.find_handle (hrow : row ∈ A)
    (hname : row.handle = some name) : A.find? (·.handle == some name) = some row := by
  cases hfind : A.find? (·.handle == some name) with
  | none =>
    rw [List.find?_eq_none] at hfind
    exact absurd (beq_iff_eq.2 hname) (hfind row hrow)
  | some found =>
    have hmatch := List.find?_some hfind
    have hfound : found.handle = some name := beq_iff_eq.1 hmatch
    have hmem : found ∈ A := List.mem_of_find?_eq_some hfind
    have hid : found.id = row.id := h.handles found hmem row hrow name hfound hname
    rw [List.inj_on_of_nodup_map h.ids hmem hrow hid]

theorem Directory.key_of_bound (hrow : row ∈ A)
    {bytes : Blob} (hkey : row.nostrPubkey = some bytes) :
    ∃ key : Bytes 32, bytes = key.val ∧ ∃ message signature, v.nostrVerifies key message signature = true := by
  obtain ⟨handle, -, x, -, hsigned⟩ := h.bound row hrow bytes hkey
  cases hsigned with
  | intro _ _ _ _ _ _ hverifies => exact ⟨_, rfl, _, _, hverifies⟩

theorem Directory.size_handle (hrow : row ∈ A) (hname : row.handle = some name) : name.utf8ByteSize ≤ 64 := by
  have hv := h.grammar row hrow name hname
  rw [← length_utf8]
  cases hb : utf8 name with
  | nil => decide
  | cons b rest =>
    rw [hb] at hv
    simp only [validHandleBytes, maxHandleBytes, Bool.and_eq_true, decide_eq_true_eq] at hv
    obtain ⟨⟨⟨-, hlen⟩, -⟩, -⟩ := hv
    have hle := of_decide_eq_true hlen
    rw [List.length_cons]
    omega

theorem Directory.lookup_of_bound (hname : IsName name)
    (htab : Tables c.2 A D) (hbd : Bound c.2 name key) :
    lookup v c name = .ok (nip05Document c.1.config name key) := by
  obtain ⟨row, hrow, hhdl, hkey⟩ := (bound_iff htab).1 hbd
  rw [lookup_eq hname htab, if_neg (Nat.not_lt.2 (h.size_handle hrow hhdl)), h.find_handle hrow hhdl, Option.bind_some, hkey]
  dsimp only
  rw [fixedKey, Bytes.ofList?_val]

theorem Directory.lookup_of_unbound (hname : IsName name)
    (htab : Tables c.2 A D) (hunbound : ∀ key, ¬ Bound c.2 name key) :
    ∃ error, lookup v c name = .error error ∧ statusFor error ≠ 200 := by
  rw [lookup_eq hname htab]
  by_cases hsize : 64 < name.utf8ByteSize
  · rw [if_pos hsize]
    exact ⟨_, rfl, by decide⟩
  rw [if_neg hsize]
  cases hrow : A.find? (·.handle == some name) with
  | none => exact ⟨_, rfl, by decide⟩
  | some row =>
    have hmatch := List.find?_some hrow
    have hmem := List.mem_of_find?_eq_some hrow
    rw [Option.bind_some]
    cases hkey : row.nostrPubkey with
    | none => exact ⟨_, rfl, by decide⟩
    | some bytes =>
      obtain ⟨key, rfl, -⟩ := h.key_of_bound hmem hkey
      exact absurd ((bound_iff htab).2 ⟨row, hmem, beq_iff_eq.1 hmatch, hkey⟩) (hunbound key)

theorem Directory.valid_of_bound
    (hkeys : ∀ key message signature, v.nostrVerifies key message signature = true → keyValid key = true)
    (htab : Tables db A D) (hbd : Bound db name key) : keyValid key = true := by
  obtain ⟨row, hrow, -, hkey⟩ := (bound_iff htab).1 hbd
  obtain ⟨key', hkey', message, signature, hverifies⟩ := h.key_of_bound hrow hkey
  obtain rfl : key = key' := Subtype.ext hkey'
  exact hkeys key message signature hverifies

end

end

/-- **Published handles resolve.** In every reachable state, for every handle that the client accepts, in any letter case:
if a key is bound to the name in lower case, then the server answers the client's request with a document from which the
client reads that key; otherwise the server answers with an error and the client finds no key. -/
theorem published_handles_resolve {v : Verifier} {urls : UrlLibrary} {fromSlice : List UInt8 → Option Json}
    {keyValid : Bytes 32 → Bool} (hjson : Json.Reads fromSlice)
    (hkeys : ∀ key message signature, v.nostrVerifies key message signature = true → keyValid key = true)
    {c₀ c : Service × Database} {xs : List Handled} (h₀ : Tables c₀.2 [] []) (hrun : Run (DirectoryStep v) c₀ xs c)
    {handle name domain : String} {loopbackBase : Option String} {url : DocumentUrl}
    (hparse : Nostr.parseHandle handle = .ok (name, domain)) (hurl : documentUrl urls loopbackBase name domain = .ok url) :
    (∀ key, Bound c.2 name key →
      ∃ document, nip05Response (lookup v c) url.target = (200, document) ∧
        publicKeyFromDocument fromSlice keyValid (utf8 document.render) name = .ok key ∧
        Nostr.resolveHandle urls fromSlice keyValid (fetchFrom v c) handle loopbackBase = .ok ⟨name, domain, key⟩) ∧
    ((∀ key, ¬ Bound c.2 name key) →
      (∃ error, lookup v c name = .error error ∧
        nip05Response (lookup v c) url.target = (statusFor error, noNames) ∧ statusFor error ≠ 200) ∧
      Nostr.resolveHandle urls fromSlice keyValid (fetchFrom v c) handle loopbackBase = .error .fetch) := by
  obtain ⟨-, A, D, htables, hdirectory, -⟩ := directory_run rfl h₀ (.empty v _) hrun
  have hname := isName_of_parseHandle hparse
  have htarget := queryName_target hname hurl
  have hresolve : Nostr.resolveHandle urls fromSlice keyValid (fetchFrom v c) handle loopbackBase = _ :=
    resolveHandle_eq hparse hurl
  constructor
  · intro key hbound
    have hresponse := nip05Response_of_ok htarget (hdirectory.lookup_of_bound hname htables hbound)
    have hvalid := hdirectory.valid_of_bound hkeys htables hbound
    have hdocument : publicKeyFromDocument fromSlice keyValid (utf8 (nip05Document c.1.config name key).render) name =
        .ok key := publicKeyFromDocument_eq hjson hvalid c.1.config
    refine ⟨_, hresponse, hdocument, ?_⟩
    rw [hresolve, fetchFrom, hresponse]
    dsimp only
    rw [if_pos rfl]
    dsimp only
    rw [hdocument]
    rfl
  · intro hunbound
    obtain ⟨error, hlookup, hstatus⟩ := hdirectory.lookup_of_unbound hname htables hunbound
    have hresponse := nip05Response_of_error htarget hlookup
    refine ⟨⟨error, hlookup, hresponse, hstatus⟩, ?_⟩
    rw [hresolve, fetchFrom, hresponse]
    dsimp only
    rw [if_neg hstatus]

def noAddresses : UrlLibrary := ⟨fun _ => false, fun _ => none⟩

theorem published_handle_ada :
    Bound boundKey.2.2 "ada" (.replicate 32 5) ∧
      Nostr.resolveHandle noAddresses (Function.partialInv fun value : Json => utf8 value.render) (fun _ => true)
        (fetchFrom .transparent boundKey.2) "Ada@Example.com" none = .ok ⟨"ada", "example.com", .replicate 32 5⟩ := by
  have hbound : Bound boundKey.2.2 "ada" (.replicate 32 5) :=
    ⟨_, _, (Prod.mk.inj accounts_unbindLost).1, _, List.mem_singleton_self _, rfl, rfl⟩
  have hparse : Nostr.parseHandle "Ada@Example.com" = .ok ("ada", "example.com") := by decide +kernel
  have hurl : documentUrl noAddresses none "ada" "example.com" =
      .ok ⟨"https://example.com", "/.well-known/nostr.json?name=ada"⟩ := by decide +kernel
  obtain ⟨hfound, -⟩ := published_handles_resolve Json.reads_partialInv (fun _ _ _ _ => rfl) ⟨rfl, rfl⟩ run_boundKey
    hparse hurl
  obtain ⟨document, -, -, hresolved⟩ := hfound _ hbound
  exact ⟨hbound, hresolved⟩

end OmaChat.Server

import OmaChat.Lib.BoundedMap
import OmaChat.Nostr.Event

/-!
# How verified caches are stored

The caches of `dm_relay_cache.rs`, `relay_list_cache.rs` and `profile_cache.rs` write down, for every key, the event that a
record was made from and the time at which it was verified. They make the records again when they are loaded. The three
modules do this with the same code; a `CacheFormat` has what differs. `u8` and `u16` versions are natural numbers here: the
JSON parser, which is a library, refuses a number that does not fit.
-/

namespace OmaChat.Nostr
open Wire BoundedMap
open Std (ExtTreeMap)

/-- `PersistedDmRelayRecord`, `PersistedRelayListCacheRecord`, `PersistedProfileCacheRecord` -/
structure PersistedRecord where
  verifiedAt : UInt64
  sourceEvent : SignedEvent
  deriving DecidableEq

/-- `PersistedDmRelayCache`, `PersistedRelayListCache`, `PersistedProfileCache` -/
structure PersistedCache where
  version : Nat
  records : List PersistedRecord
  deriving DecidableEq

def PersistedRecord.json (record : PersistedRecord) : Json :=
  .obj [("verified_at", .num record.verifiedAt.toNat), ("source_event", record.sourceEvent.json)]

def PersistedCache.json (cache : PersistedCache) : Json :=
  .obj [("version", .num cache.version), ("records", .arr (cache.records.map PersistedRecord.json))]

/-- A source event that is verified for a key at one time, and stored as verified at another. -/
structure VerifiedInsertion where
  sourceEvent : SignedEvent
  publicKey : Bytes 32
  now : UInt64
  verifiedAt : UInt64

structure CacheFormat (ε : Type) where
  version : Nat
  maxRecords : Nat
  maxBytes : Nat
  cacheTooLarge : ε
  invalidEncoding : ε
  unsupportedVersion : Nat → ε
  cacheFull : ε
  invalidVerificationTime : ε
  /-- for a public key that is not one in hexadecimal -/
  invalidKey : ε

def persistedRecords {ρ : Type} (persisted : ρ → PersistedRecord) (records : ExtTreeMap String ρ) : List PersistedRecord :=
  records.toList.map fun entry => persisted entry.2

namespace CacheFormat
variable {ε C : Type} (format : CacheFormat ε)

def encoded (records : List PersistedRecord) : List UInt8 := utf8 (PersistedCache.json ⟨format.version, records⟩).render

/-- `to_json`. The serializer does not fail on such values. -/
def toJson (records : List PersistedRecord) : Except ε (List UInt8) :=
  if format.maxBytes < (format.encoded records).length then .error format.cacheTooLarge else .ok (format.encoded records)

/-- The loop of `from_json` -/
def loadRecords (insert : Bytes 32 → PersistedRecord → C → Except ε C) (now : UInt64) :
    (seen : List (Bytes 32)) → C → List PersistedRecord → Except ε C
  | _, cache, [] => .ok cache
  | seen, cache, record :: rest =>
    if now < record.verifiedAt then .error format.invalidVerificationTime
    else
      match (hexDecode record.sourceEvent.pubkey).bind (Bytes.ofList? 32) with
      | none => .error format.invalidKey
      | some publicKey =>
        if publicKey ∈ seen then .error format.invalidEncoding
        else do
          let cache ← insert publicKey record cache
          loadRecords insert now (publicKey :: seen) cache rest

def fromJson (decode : List UInt8 → Option PersistedCache) (insert : Bytes 32 → PersistedRecord → C → Except ε C)
    (new : C)
    (encoded : List UInt8) (now : UInt64) : Except ε C :=
  if format.maxBytes < encoded.length then .error format.cacheTooLarge
  else
    match decode encoded with
    | none => .error format.invalidEncoding
    | some persisted =>
      if persisted.version ≠ format.version then .error (format.unsupportedVersion persisted.version)
      else if format.maxRecords < persisted.records.length then .error format.cacheFull
      else format.loadRecords insert now [] new persisted.records

end CacheFormat

/-- The cache after an insertion with `?`. -/
def inserted {ε C : Type} : Except ε Mutation × C → Except ε C
  | (.ok _, cache) => .ok cache
  | (.error error, _) => .error error

/-! ## What is written can be read -/

namespace CacheFormat
variable {ε ρ σ : Type} {format : CacheFormat ε} {persisted : ρ → PersistedRecord} {bytes : List UInt8}
  {part records whole : List PersistedRecord} {key : String} {record : ρ} {m : ExtTreeMap String ρ}
  {insert : Bytes 32 → PersistedRecord → σ → Except ε σ} {now : UInt64}

theorem toJson_ok_iff :
    format.toJson records = .ok bytes ↔ (format.encoded records).length ≤ format.maxBytes ∧
      bytes = format.encoded records := by
  unfold toJson
  split_ifs with hlong
  · simp only [false_iff]
    omega
  · rw [Except.ok.injEq, eq_comm (a := bytes)]
    exact (and_iff_right (Nat.le_of_not_lt hlong)).symm

theorem size_json_le {version : Nat} (h : part.Subperm whole) :
    (PersistedCache.json ⟨version, part⟩).size ≤ (PersistedCache.json ⟨version, whole⟩).size := by
  obtain ⟨sub, hperm, hsub⟩ := h
  have hlen : part.length ≤ whole.length := hperm.length_eq ▸ hsub.length_le
  have hsum : ((part.map PersistedRecord.json).map Json.size).sum ≤ ((whole.map PersistedRecord.json).map Json.size).sum := by
    rw [← ((hperm.map PersistedRecord.json).map Json.size).sum_eq]
    exact ((hsub.map PersistedRecord.json).map Json.size).sum_le_sum fun _ _ => Nat.zero_le _
  simp only [PersistedCache.json, Json.size_obj, List.map_cons, List.map_nil, List.sum_cons, List.sum_nil, Json.fieldSize,
    Json.size_arr, List.length_cons, List.length_nil, List.length_map]
  omega

theorem size_json_singleton_le (version : Nat) (record : PersistedRecord) :
    (PersistedCache.json ⟨version, [record]⟩).size ≤ 100 + (Json.num version).size + record.sourceEvent.json.size := by
  have hnames : (Json.str "version").size = 9 ∧ (Json.str "records").size = 9 ∧ (Json.str "verified_at").size = 13 ∧
      (Json.str "source_event").size = 14 := by decide
  have htime : (Json.num record.verifiedAt.toNat).size ≤ 20 :=
    Json.size_num_le (by decide) (Nat.lt_trans (UInt64.toNat_lt _) (by decide))
  simp [PersistedCache.json, PersistedRecord.json, Json.size_obj, Json.size_arr, Json.fieldSize, hnames]
  omega

theorem toJson_part (h : part.Subperm whole)
    (hwhole : format.toJson whole = .ok bytes) : ∃ bytes', format.toJson part = .ok bytes' := by
  refine ⟨_, toJson_ok_iff.2 ⟨le_trans ?_ (toJson_ok_iff.1 hwhole).1, rfl⟩⟩
  rw [encoded, encoded, Json.length_utf8_render, Json.length_utf8_render]
  exact size_json_le h

theorem toJson_singleton
    (h : 100 + (Json.num format.version).size + (persisted record).sourceEvent.json.size ≤ format.maxBytes) :
    ∃ bytes, format.toJson (persistedRecords persisted ((∅ : ExtTreeMap String ρ).insert key record)) = .ok bytes := by
  refine ⟨_, toJson_ok_iff.2 ⟨le_trans ?_ h, rfl⟩⟩
  rw [persistedRecords, toList_singleton, List.map_singleton, encoded, Json.length_utf8_render]
  exact size_json_singleton_le _ _

theorem persistedRecords_subperm {m' : ExtTreeMap String ρ} (h : Submap m m') :
    (persistedRecords persisted m).Subperm (persistedRecords persisted m') := by
  obtain ⟨sub, hperm, hsub⟩ := h.subperm
  exact ⟨_, hperm.map _, hsub.map _⟩

theorem insertUnder_part {records : ExtTreeMap String ρ} {rule : ρ → Ruling ε} {full : ε}
    (hfits : Fits (fun records => format.toJson (persistedRecords persisted records)) format.maxRecords records)
    (hnew : m[key]? = none) (hpart : Submap (m.insert key record) records) :
    insertUnder (fun records => format.toJson (persistedRecords persisted records)) format.maxRecords full rule key record m =
      (Except.ok Mutation.stored, m.insert key record) := by
  have hroom : m.size < format.maxRecords := by
    have hsize := hpart.size_le
    have hkey : m.contains key = false := by
      rw [ExtTreeMap.contains_eq_isSome_getElem?, hnew, Option.isSome_none]
    rw [ExtTreeMap.size_insert, hkey, if_neg Bool.false_ne_true] at hsize
    exact Nat.lt_of_lt_of_le hsize hfits.size
  obtain ⟨bytes, hb⟩ := hfits.encodes
  obtain ⟨bytes', hpartial⟩ := toJson_part (persistedRecords_subperm hpart) hb
  exact insertUnder_new hnew hroom hpartial

/-- What the loop does with a record whose key is new. -/
def loadRecord (format : CacheFormat ε) (insert : Bytes 32 → PersistedRecord → σ → Except ε σ) (cache : σ)
    (record : PersistedRecord) : Except ε σ :=
  match (hexDecode record.sourceEvent.pubkey).bind (Bytes.ofList? 32) with
  | none => .error format.invalidKey
  | some publicKey => insert publicKey record cache

theorem loadRecords_eq_foldlM {seen : List (Bytes 32)} (cache : σ) (htime : ∀ record ∈ records, record.verifiedAt ≤ now)
    (hkeys : ∀ record ∈ records, ∃ key : Bytes 32, record.sourceEvent.pubkey = hexEncode key.val ∧ key ∉ seen)
    (hdist : records.Pairwise fun a b => a.sourceEvent.pubkey ≠ b.sourceEvent.pubkey) :
    format.loadRecords insert now seen cache records = records.foldlM (format.loadRecord insert) cache := by
  induction records generalizing seen cache with
  | nil => rfl
  | cons record rest ih =>
    obtain ⟨key, hkey, hseen⟩ := hkeys record List.mem_cons_self
    rw [List.pairwise_cons] at hdist
    rw [loadRecords, List.foldlM_cons, if_neg (UInt64.not_lt.2 (htime record List.mem_cons_self)), loadRecord, hkey,
      hexDecode_hexEncode, Option.bind_some, Bytes.ofList?_val]
    dsimp only
    rw [if_neg hseen]
    refine congrArg _ (funext fun cache => ih cache ?_ ?_ hdist.2)
    · intro other ho
      exact htime other (List.mem_cons_of_mem _ ho)
    · intro other ho
      obtain ⟨key', hkey', hseen'⟩ := hkeys other (List.mem_cons_of_mem _ ho)
      refine ⟨key', hkey', ?_⟩
      rw [List.mem_cons, not_or]
      refine ⟨fun heq => hdist.1 other ho ?_, hseen'⟩
      rw [hkey, hkey', heq]

/-- **A cache is read as it was written.** -/
theorem fromJson_encoded {decode : List UInt8 → Option PersistedCache}
    {mk : ExtTreeMap String ρ → σ} {records : ExtTreeMap String ρ}
    (hfits : records.size ≤ format.maxRecords)
    (hbytes : format.toJson (persistedRecords persisted records) = .ok bytes)
    (hdec : decode bytes = some ⟨format.version, persistedRecords persisted records⟩)
    (hrecs : ∀ (k : String) (r : ρ), records[k]? = some r →
      (persisted r).verifiedAt ≤ now ∧ (persisted r).sourceEvent.pubkey = k ∧ ∃ key : Bytes 32, k = hexEncode key.val)
    (hins : ∀ (m : ExtTreeMap String ρ) (key : Bytes 32) (r : ρ), records[hexEncode key.val]? = some r →
      m[hexEncode key.val]? = none → Submap (m.insert (hexEncode key.val) r) records →
        insert key (persisted r) (mk m) = .ok (mk (m.insert (hexEncode key.val) r))) :
    format.fromJson decode insert (mk ∅) bytes now = .ok (mk records) := by
  have hmem : ∀ entry ∈ records.toList, records[entry.1]? = some entry.2 :=
    fun entry he => ExtTreeMap.mem_toList_iff_getElem?_eq_some.1 he
  have hlen : (persistedRecords persisted records).length = records.size := by
    rw [persistedRecords, List.length_map, ExtTreeMap.length_toList]
  obtain ⟨hshort, rfl⟩ := toJson_ok_iff.1 hbytes
  unfold fromJson
  rw [if_neg (Nat.not_lt.2 hshort), hdec]
  dsimp only
  rw [if_neg (not_not.2 rfl), if_neg (by omega), loadRecords_eq_foldlM, persistedRecords, List.foldlM_map]
  · refine reload records ?_ [] records.toList ∅ rfl holds_empty
    intro m k r hr hnew hpart
    obtain ⟨-, hpk, key, rfl⟩ := hrecs k r hr
    dsimp only
    rw [loadRecord, hpk, hexDecode_hexEncode, Option.bind_some, Bytes.ofList?_val]
    exact hins m key r hr hnew hpart
  · intro record hrec
    obtain ⟨entry, he, rfl⟩ := List.mem_map.1 hrec
    exact (hrecs entry.1 entry.2 (hmem entry he)).1
  · intro record hrec
    obtain ⟨entry, he, rfl⟩ := List.mem_map.1 hrec
    obtain ⟨-, hpk, key, hkey⟩ := hrecs entry.1 entry.2 (hmem entry he)
    exact ⟨key, hpk.trans hkey, List.not_mem_nil⟩
  · rw [persistedRecords, List.pairwise_map]
    refine ExtTreeMap.distinct_keys_toList.imp_of_mem fun {a b} ha hb hne heq => hne ?_
    rw [(hrecs a.1 a.2 (hmem a ha)).2.1, (hrecs b.1 b.2 (hmem b hb)).2.1] at heq
    rw [heq]
    exact Std.ReflOrd.compare_self

end CacheFormat

end OmaChat.Nostr

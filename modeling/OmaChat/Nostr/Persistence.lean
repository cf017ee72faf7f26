import OmaChat.Nostr.CacheRules
import OmaChat.Nostr.Publication

/-!
# Caches that are loaded again

A cache writes down the source events of its records, and verifies all of them when it is loaded. A record that came from a
verified event is made again at any later time: an inbox whose age is beyond the policy is loaded too.

* `Made` : the record is what the verification of its source event gives;
* `caches_survive_persistence`.
-/

namespace OmaChat.Nostr
open Wire BoundedMap
open Std (ExtTreeMap)

variable {decode : List UInt8 → Option PersistedCache} {decodeFields : String → Option ProfileFields} {event : SignedEvent}
  {key : Bytes 32} {now : UInt64}

def ReadsCaches (decode : List UInt8 → Option PersistedCache) : Prop :=
  ∀ records : List PersistedRecord, decode (utf8 (PersistedCache.json ⟨1, records⟩).render) = some ⟨1, records⟩

/-- The cache is read as it was written, whenever the times of its records have come. -/
def Survives {C ρ ε : Type} (records : C → ExtTreeMap String ρ) (verifiedAt : ρ → UInt64)
    (toJson : C → Except ε (List UInt8))
    (fromJson : List UInt8 → UInt64 → Except ε C) (cache : C) : Prop :=
  ∀ now : UInt64, (∀ (key : String) (record : ρ), (records cache)[key]? = some record → verifiedAt record ≤ now) →
    ∃ bytes, toJson cache = .ok bytes ∧ fromJson bytes now = .ok cache

/-- **A cache survives** if its records can be made again: each is stored under the key of its source event, and loading it
stores it wherever a map has room for it. -/
theorem survives_of_guarded {C ρ ε : Type} (hdec : ReadsCaches decode)
    (format : CacheFormat ε) (hver : format.version = 1) (persisted : ρ → PersistedRecord) (mk : ExtTreeMap String ρ → C)
    {view : C → ExtTreeMap String ρ} {insert : C → VerifiedInsertion → Except ε Mutation × C}
    {load : UInt64 → Bytes 32 → PersistedRecord → C → Except ε C} {P : String → ρ → Prop} {measure : ρ → Nat}
    (hguarded : Guarded (fun records => format.toJson (persistedRecords persisted records)) format.maxRecords P measure
      view insert)
    (hmk : ∀ cache, mk (view cache) = cache)
    (hnew : Fits (fun records => format.toJson (persistedRecords persisted records)) format.maxRecords ∅)
    (hview : view (mk ∅) = ∅)
    (hP : ∀ key record, P key record →
      (persisted record).sourceEvent.pubkey = key ∧ ∃ publicKey : Bytes 32, key = hexEncode publicKey.val)
    (hload : ∀ (m : ExtTreeMap String ρ) (publicKey : Bytes 32) (record : ρ) (now : UInt64),
      P (hexEncode publicKey.val) record → (persisted record).verifiedAt ≤ now →
      (∀ full rule, insertUnder (fun records => format.toJson (persistedRecords persisted records)) format.maxRecords full rule
        (hexEncode publicKey.val) record m = (Except.ok Mutation.stored, m.insert (hexEncode publicKey.val) record)) →
      load now publicKey (persisted record) (mk m) = .ok (mk (m.insert (hexEncode publicKey.val) record)))
    (insertions : List VerifiedInsertion) :
    Survives view (fun record => (persisted record).verifiedAt)
      (fun cache => format.toJson (persistedRecords persisted (view cache)))
      (fun bytes now => format.fromJson decode (load now) (mk ∅) bytes now) (inserts insert (mk ∅) insertions) := by
  intro now hnow
  have hmade := hguarded.all (by rw [hview]; simp) insertions
  have hfits := hguarded.fits (by rw [hview]; exact hnew) insertions
  generalize inserts insert (mk ∅) insertions = cache at hnow hmade hfits ⊢
  obtain ⟨bytes, hb⟩ := hfits.encodes
  obtain ⟨-, hencoded⟩ := CacheFormat.toJson_ok_iff.1 hb
  refine ⟨bytes, hb, ?_⟩
  rw [← hmk cache]
  refine CacheFormat.fromJson_encoded hfits.size hb ?_ ?_ ?_
  · rw [hencoded, CacheFormat.encoded, hver]
    exact hdec _
  · intro key record hrec
    exact ⟨hnow key record hrec, hP key record (hmade key record hrec)⟩
  · intro m publicKey record hrec hfresh hpart
    exact hload m publicKey record now (hmade _ record hrec) (hnow _ record hrec)
      fun _ _ => CacheFormat.insertUnder_part hfits hfresh hpart

section Survival
variable {p : Primitives} {urls : RelayUrlLibrary} {limits : EventLimits}

/-! ## Inboxes -/

/-- The record is what the verification of its source event gives. -/
def VerifiedDmRelayRecord.Made (p : Primitives) (urls : RelayUrlLibrary) (limits : EventLimits) (policy : DmInboxPolicy)
    (record : VerifiedDmRelayRecord) : Prop :=
  ∃ now inbox draft, verifyDmInbox p urls record.sourceEvent record.recipientPubkey now limits policy = .ok inbox ∧
    inbox.toCacheRecord urls record.verifiedAt = .ok draft ∧ draft.canonicalizeAndValidate urls = .ok record

namespace VerifiedDmRelayCache
variable {policy : DmInboxPolicy} {inbox : VerifiedDmInbox} {draft : VerifiedDmRelayRecord}

theorem toCacheRecord_ok {verifiedAt : UInt64} (hin : verifyDmInbox p urls event key now limits policy = .ok inbox)
    (hdraft : inbox.toCacheRecord urls verifiedAt = .ok draft) :
    draft.recipientPubkey = key ∧ draft.sourceEvent = event ∧ draft.verifiedAt = verifiedAt ∧
      draft.sourceCreatedAt = event.createdAt ∧ draft.sourceCreatedAt ≤ verifiedAt := by
  obtain ⟨-, list, hlist, -, -, -, -, rfl⟩ := verifyDmInbox_ok_iff.1 hin
  obtain ⟨hvrf, -⟩ := parseRelayList_ok_iff.1 hlist
  rw [toCacheRecord_eq rfl (decodeHex_ok_iff.1 hvrf.id)] at hdraft
  have hcan := canonicalizeAndValidate_ok hdraft
  rw [hcan.fields]
  exact ⟨rfl, rfl, rfl, createdAt_of_parseRelayList hlist, hcan.time⟩

theorem guarded_insertVerified (p : Primitives) (urls : RelayUrlLibrary) (limits : EventLimits) (policy : DmInboxPolicy) :
    Guarded (fun records => toJson ⟨records⟩) 4096
      (fun key record => key = hexEncode record.recipientPubkey.val ∧ record.Made p urls limits policy)
      (fun record => record.sourceCreatedAt.toNat) records (insertVerified p urls limits policy) where
  view_injective := records_injective
  step := by
    intro cache i
    unfold insertVerified
    cases hin : verifyDmInbox p urls i.sourceEvent i.publicKey i.now limits policy with
    | error error => exact .inl ⟨_, rfl⟩
    | ok inbox =>
      dsimp only
      cases hdraft : inbox.toCacheRecord urls i.verifiedAt with
      | error error => exact .inl ⟨_, rfl⟩
      | ok draft =>
        dsimp only
        rcases insert_cases urls cache draft with hrefused | ⟨record, hrec, hout⟩
        · exact .inl hrefused
        · obtain ⟨hkey, hev, hvrf, -, -⟩ := toCacheRecord_ok hin hdraft
          have hfields := (canonicalizeAndValidate_ok hrec).fields
          refine .inr ⟨_, record, _, ⟨rfl, i.now, inbox, draft, ?_, ?_, hrec⟩,
            fun _ hrepl => UInt64.le_iff_toNat_le.1 (rule_replace hrepl), hout⟩
          · rw [hfields, hkey, hev]
            exact hin
          · rw [hfields, hvrf]
            exact hdraft

theorem insertVerified_new {i : VerifiedInsertion} {record : VerifiedDmRelayRecord}
    {bytes : List UInt8} (hin : verifyDmInbox p urls i.sourceEvent i.publicKey i.now limits policy = .ok inbox)
    (hdraft : inbox.toCacheRecord urls i.verifiedAt = .ok draft) (hrec : draft.canonicalizeAndValidate urls = .ok record)
    (hb : toJson ⟨(∅ : ExtTreeMap String VerifiedDmRelayRecord).insert (hexEncode record.recipientPubkey.val) record⟩ =
      .ok bytes) :
    insertVerified p urls limits policy {} i =
      (.ok .stored,
        ⟨(∅ : ExtTreeMap String VerifiedDmRelayRecord).insert (hexEncode record.recipientPubkey.val) record⟩) := by
  have hroom : (∅ : ExtTreeMap String VerifiedDmRelayRecord).size < maxCachedDmRecipients := by
    rw [ExtTreeMap.size_empty]
    decide
  have hsto : insertUnder (fun records => toJson ⟨records⟩) maxCachedDmRecipients .cacheFull (rule record)
      (hexEncode record.recipientPubkey.val) record ∅ = _ := insertUnder_new ExtTreeMap.getElem?_empty hroom hb
  unfold insertVerified
  rw [hin]
  dsimp only
  rw [hdraft]
  dsimp only
  unfold insert
  rw [hrec]
  dsimp only
  rw [hsto]

theorem survives (hdec : ReadsCaches decode) (policy : DmInboxPolicy) (insertions : List VerifiedInsertion) :
    Survives records VerifiedDmRelayRecord.verifiedAt toJson
      (fun bytes now => fromJson p urls decode bytes now limits policy)
      (inserts (insertVerified p urls limits policy) {} insertions) := by
  refine survives_of_guarded hdec dmRelayCacheFormat rfl VerifiedDmRelayRecord.persisted VerifiedDmRelayCache.mk
    (guarded_insertVerified p urls limits policy) (fun _ => rfl) (fits_empty _ rfl rfl) rfl ?_ ?_ insertions
  · rintro key record ⟨rfl, _, _, _, -, -, hcan⟩
    have hcan := canonicalizeAndValidate_ok hcan
    refine ⟨?_, record.recipientPubkey, rfl⟩
    rw [hcan.fields]
    exact hcan.author
  · rintro m publicKey record now ⟨hkey, before, inbox, draft, hin, hdraft, hcan⟩ hnow hsto
    obtain rfl := hexEncode_val_inj hkey
    obtain ⟨-, -, -, htime, hle⟩ := toCacheRecord_ok hin hdraft
    rw [htime] at hle
    have hins : insertUnder (fun records => toJson ⟨records⟩) maxCachedDmRecipients .cacheFull (rule record)
        (hexEncode record.recipientPubkey.val) record m = _ := hsto .cacheFull (rule record)
    unfold insertVerified
    dsimp only [VerifiedDmRelayRecord.persisted]
    rw [verifyDmInbox_later hin (UInt64.le_trans hle hnow)]
    dsimp only
    rw [hdraft]
    dsimp only
    unfold insert
    rw [hcan]
    dsimp only
    rw [hins]
    rfl

end VerifiedDmRelayCache

/-! ## Relay lists -/

namespace VerifiedRelayListCache
variable {relayLimits : RelayDiscoveryLimits}

def insertVerified (p : Primitives) (urls : RelayUrlLibrary) (limits : EventLimits) (relayLimits : RelayDiscoveryLimits)
    (cache : VerifiedRelayListCache) (i : VerifiedInsertion) :
    Except RelayListCacheError RelayListCacheMutation × VerifiedRelayListCache :=
  cache.insertEvent p urls i.sourceEvent i.now i.verifiedAt limits relayLimits

theorem guarded_insertVerified (p : Primitives) (urls : RelayUrlLibrary) (limits : EventLimits)
    (relayLimits : RelayDiscoveryLimits) :
    Guarded (fun records => toJson ⟨records⟩) 4096 (Made p urls limits relayLimits)
      (fun record => record.sourceEvent.createdAt.toNat) records (insertVerified p urls limits relayLimits) where
  view_injective := records_injective
  step := by
    intro cache i
    rcases insertEvent_cases p urls cache i.sourceEvent i.now i.verifiedAt limits relayLimits with
      hrefused | ⟨list, htime, hlist, hout⟩
    · exact .inl hrefused
    · exact .inr ⟨list.publicKey, ⟨list, i.sourceEvent, i.verifiedAt⟩, rule i.sourceEvent,
        ⟨htime, ⟨i.now, hlist⟩, rfl⟩, fun _ hrepl => UInt64.le_iff_toNat_le.1 (rule_replace hrepl), hout⟩

theorem survives (hdec : ReadsCaches decode) (relayLimits : RelayDiscoveryLimits) (insertions : List VerifiedInsertion) :
    Survives records VerifiedRelayListCacheRecord.verifiedAt toJson
      (fun bytes now => fromJson p urls decode bytes now limits relayLimits)
      (inserts (insertVerified p urls limits relayLimits) {} insertions) := by
  refine survives_of_guarded hdec relayListCacheFormat rfl VerifiedRelayListCacheRecord.persisted VerifiedRelayListCache.mk
    (guarded_insertVerified p urls limits relayLimits) (fun _ => rfl) (fits_empty _ rfl rfl) rfl ?_ ?_ insertions
  · rintro key record ⟨-, ⟨now, hlist⟩, rfl⟩
    obtain ⟨hvrf, -, -, -, -, hauth, -⟩ := parseRelayList_ok_iff.1 hlist
    obtain ⟨publicKey, -, hpk, -, -, -⟩ := hvrf.signed
    exact ⟨hauth.symm, publicKey, hauth.trans (decodeHex_ok_iff.1 hpk)⟩
  · rintro m publicKey record now ⟨htime, ⟨before, hlist⟩, hkey⟩ hnow hsto
    have hins : insertUnder (fun records => toJson ⟨records⟩) maxCachedRelayLists .cacheFull (rule record.sourceEvent)
        (hexEncode publicKey.val) record m = _ := hsto .cacheFull (rule record.sourceEvent)
    rw [hkey] at hins
    dsimp only [VerifiedRelayListCacheRecord.persisted] at hnow ⊢
    rw [insertEvent_eq hnow htime (parseRelayList_later hlist (UInt64.le_trans htime hnow)) hins, hkey]
    rfl

end VerifiedRelayListCache

/-! ## Profiles -/

variable {profile : VerifiedNostrProfile}

theorem verifyProfileMetadata_ok_iff :
    verifyProfileMetadata urls p decodeFields event key now limits = .ok profile ↔
      Verified p event now limits ∧ event.kind = profileMetadataKind ∧ event.pubkey = hexEncode key.val ∧
      event.tags = [] ∧
      ∃ raw, (decodeFields event.content).bind (RawProfile.visitMap {}) = some raw ∧ validateKnownFields urls raw = .ok () ∧
        profile = ⟨key, event.id, event.createdAt, raw.nostrName, raw.nostrName.map classifyName, raw.displayName, raw.about,
          raw.picture, event⟩ := by
  unfold verifyProfileMetadata
  rw [then_ok_iff, mapError_ok_iff, verify_ok_iff, refuse_ok_iff, refuse_ok_iff, refuse_ok_iff, not_not, not_not, not_not]
  cases (decodeFields event.content).bind (RawProfile.visitMap {}) with
  | none => simp
  | some raw => simp [then_ok_iff, eq_comm (a := profile)]

theorem verifyProfileMetadata_later {later : UInt64}
    (h : verifyProfileMetadata urls p decodeFields event key now limits = .ok profile) (hl : event.createdAt ≤ later) :
    verifyProfileMetadata urls p decodeFields event key later limits = .ok profile := by
  obtain ⟨hvrf, hprof⟩ := verifyProfileMetadata_ok_iff.1 h
  exact verifyProfileMetadata_ok_iff.2 ⟨hvrf.later hl, hprof⟩

namespace VerifiedProfileCache
/-- The record is what its source event says, for the author of the event. -/
structure Made (p : Primitives) (urls : RelayUrlLibrary) (decodeFields : String → Option ProfileFields) (limits : EventLimits)
    (key : String) (record : VerifiedProfileCacheRecord) : Prop where
  time : record.profile.sourceCreatedAt ≤ record.verifiedAt
  profile : ∃ now, verifyProfileMetadata urls p decodeFields record.profile.sourceEvent record.profile.publicKey now limits =
    .ok record.profile
  key : key = hexEncode record.profile.publicKey.val

theorem guarded_insertVerified (p : Primitives) (urls : RelayUrlLibrary) (decodeFields : String → Option ProfileFields)
    (limits : EventLimits) :
    Guarded (fun records => toJson ⟨records⟩) 4096 (Made p urls decodeFields limits)
      (fun record => record.profile.sourceCreatedAt.toNat) records (insertVerified p urls decodeFields limits) where
  view_injective := records_injective
  step := by
    intro cache i
    unfold insertVerified
    cases hprof : verifyProfileMetadata urls p decodeFields i.sourceEvent i.publicKey i.now limits with
    | error error => exact .inl ⟨_, rfl⟩
    | ok profile =>
      rcases insert_cases cache profile i.verifiedAt with hrefused | ⟨htime, hout⟩
      · exact .inl hrefused
      · obtain ⟨-, -, -, -, _, -, -, heq⟩ := verifyProfileMetadata_ok_iff.1 hprof
        refine .inr ⟨hexEncode profile.publicKey.val, ⟨profile, i.verifiedAt⟩, rule profile,
          ⟨htime, ⟨i.now, ?_⟩, rfl⟩, fun _ hrepl => UInt64.le_iff_toNat_le.1 (rule_replace hrepl), hout⟩
        rw [heq] at hprof ⊢
        exact hprof

theorem survives (hdec : ReadsCaches decode) (decodeFields : String → Option ProfileFields)
    (insertions : List VerifiedInsertion) :
    Survives records VerifiedProfileCacheRecord.verifiedAt toJson
      (fun bytes now => fromJson p urls decodeFields decode bytes now limits)
      (inserts (insertVerified p urls decodeFields limits) {} insertions) := by
  refine survives_of_guarded hdec profileCacheFormat rfl VerifiedProfileCacheRecord.persisted VerifiedProfileCache.mk
    (guarded_insertVerified p urls decodeFields limits) (fun _ => rfl) (fits_empty _ rfl rfl) rfl ?_ ?_ insertions
  · rintro key record ⟨-, ⟨now, hprof⟩, rfl⟩
    obtain ⟨-, -, hauth, -⟩ := verifyProfileMetadata_ok_iff.1 hprof
    exact ⟨hauth, record.profile.publicKey, rfl⟩
  · rintro m publicKey record now ⟨htime, ⟨before, hprof⟩, hkey⟩ hnow hsto
    obtain rfl := hexEncode_val_inj hkey
    have hins : insertUnder (fun records => toJson ⟨records⟩) maxCachedProfiles .cacheFull (rule record.profile)
        (hexEncode record.profile.publicKey.val) record m = _ := hsto .cacheFull (rule record.profile)
    obtain ⟨-, -, -, -, _, -, -, heq⟩ := verifyProfileMetadata_ok_iff.1 hprof
    have hcreated : record.profile.sourceEvent.createdAt ≤ now := by
      rw [heq] at htime
      exact UInt64.le_trans htime hnow
    unfold insertVerified
    dsimp only [VerifiedProfileCacheRecord.persisted] at hnow ⊢
    rw [verifyProfileMetadata_later hprof hcreated]
    dsimp only
    unfold insert
    rw [if_neg (UInt64.not_lt.2 htime)]
    dsimp only
    rw [hins]
    rfl

end VerifiedProfileCache

/-- **The caches survive persistence.** A cache that was built by verifying and inserting events under fixed limits and a
fixed policy is written, and is read again as it was at every time that is not before the verification of a record. -/
theorem caches_survive_persistence (p : Primitives) (urls : RelayUrlLibrary) (decodeFields : String → Option ProfileFields)
    (limits : EventLimits) (policy : DmInboxPolicy) (relayLimits : RelayDiscoveryLimits) (insertions : List VerifiedInsertion)
    (hdecode : ReadsCaches decode) :
    Survives VerifiedDmRelayCache.records VerifiedDmRelayRecord.verifiedAt VerifiedDmRelayCache.toJson
      (fun bytes now => VerifiedDmRelayCache.fromJson p urls decode bytes now limits policy)
      (inserts (VerifiedDmRelayCache.insertVerified p urls limits policy) {} insertions) ∧
    Survives VerifiedRelayListCache.records VerifiedRelayListCacheRecord.verifiedAt VerifiedRelayListCache.toJson
      (fun bytes now => VerifiedRelayListCache.fromJson p urls decode bytes now limits relayLimits)
      (inserts (VerifiedRelayListCache.insertVerified p urls limits relayLimits) {} insertions) ∧
    Survives VerifiedProfileCache.records VerifiedProfileCacheRecord.verifiedAt VerifiedProfileCache.toJson
      (fun bytes now => VerifiedProfileCache.fromJson p urls decodeFields decode bytes now limits)
      (inserts (VerifiedProfileCache.insertVerified p urls decodeFields limits) {} insertions) :=
  ⟨VerifiedDmRelayCache.survives hdecode policy insertions, VerifiedRelayListCache.survives hdecode relayLimits insertions,
    VerifiedProfileCache.survives hdecode decodeFields insertions⟩

end Survival

theorem PersistedRecord.json_inj {a b : PersistedRecord} (h : a.json = b.json) : a = b := by
  obtain ⟨time, event⟩ := a
  obtain ⟨time', event'⟩ := b
  simp only [PersistedRecord.json, Json.obj.injEq, List.cons.injEq, Prod.mk.injEq, Json.num.injEq, true_and, and_true] at h
  rw [UInt64.toNat_inj.1 h.1, SignedEvent.json_inj h.2]

noncomputable def cacheReader (bytes : List UInt8) : Option PersistedCache :=
  (Function.partialInv (fun records => utf8 (PersistedCache.json ⟨1, records⟩).render) bytes).map fun records =>
    ⟨1, records⟩

theorem readsCaches_cacheReader : ReadsCaches cacheReader := by
  have hinj : Function.Injective fun records => utf8 (PersistedCache.json ⟨1, records⟩).render := by
    intro a b h
    have hjson := Json.render_inj (utf8_inj h)
    simp only [PersistedCache.json, Json.obj.injEq, List.cons.injEq, Prod.mk.injEq, Json.arr.injEq, true_and, and_true] at hjson
    exact List.map_injective_iff.2 (fun _ _ => PersistedRecord.json_inj) hjson
  intro records
  rw [cacheReader, Function.partialInv_left hinj]
  rfl

def exampleInboxEvent : SignedEvent := signed (publishedInbox exampleAuthor 1700000000 ["wss://relay.example/"]) exampleAuthor

def exampleInboxRecord : VerifiedDmRelayRecord where
  recipientPubkey := exampleAuthor
  sourceEventId := remainderHash (utf8 (publishedInbox exampleAuthor 1700000000 ["wss://relay.example/"]).canonicalJson)
  sourceCreatedAt := 1700000000
  verifiedAt := 1700000000
  relays := ["wss://relay.example/"]
  sourceEvent := exampleInboxEvent

def exampleInbox : VerifiedDmInbox :=
  ⟨hexEncode exampleAuthor.val, exampleInboxEvent.id, 1700000000, ["wss://relay.example/"], exampleInboxEvent⟩

theorem verified_exampleInbox : Verified unsealed exampleInboxEvent 1700000000 {} := by
  apply transparent_verifies rfl
  · exact validate_ok_iff.2 ⟨⟨_, decodeHex_hexEncode _⟩, by decide, by decide, by decide⟩
  · exact le_trans (size_signed_le rfl) (by decide)
  · decide

theorem verify_exampleInbox :
    verifyDmInbox unsealed exampleUrls exampleInboxEvent exampleAuthor 1700000000 {} {} = .ok exampleInbox := by
  have hev : exampleInboxEvent = (publishedInbox exampleAuthor 1700000000 ["wss://relay.example/"]).withSignature
      unsealed (signature (publishedInbox exampleAuthor 1700000000 ["wss://relay.example/"]) exampleAuthor) :=
    signed_eq_withSignature [] [] _ _
  have hvrf := verified_exampleInbox
  have hlist : parseNip17DmRelayList unsealed exampleUrls exampleInboxEvent 1700000000 {} ⟨3, 2048⟩ =
      .ok ⟨hexEncode exampleAuthor.val, 1700000000, ["wss://relay.example/"].map inboxPreference⟩ := by
    rw [hev] at hvrf ⊢
    exact parse_publishedInbox hvrf (by simp; rfl) (by simp) (by simp) (by simp)
  refine verifyDmInbox_ok_iff.2 ⟨rfl, _, hlist, rfl, by decide, by decide, ?_, rfl⟩
  intro _ relay hr
  rw [List.map_singleton, List.mem_singleton] at hr
  rw [hr]
  rfl

theorem canonicalize_exampleInbox : exampleInboxRecord.canonicalizeAndValidate exampleUrls = .ok exampleInboxRecord := by
  have hid : exampleInboxRecord.sourceEventId ≠ Bytes.replicate 32 0 := by decide +kernel
  unfold VerifiedDmRelayRecord.canonicalizeAndValidate
  rw [if_neg (by decide), if_neg hid, if_neg (by decide)]
  have hbd : ¬ (exampleInboxRecord.sourceEvent.pubkey ≠ hexEncode exampleInboxRecord.recipientPubkey.val ∨
      exampleInboxRecord.sourceEvent.id ≠ hexEncode exampleInboxRecord.sourceEventId.val ∨
      exampleInboxRecord.sourceEvent.createdAt ≠ exampleInboxRecord.sourceCreatedAt) := by
    simp only [not_or, ne_eq, not_not]
    exact ⟨rfl, rfl, rfl⟩
  rw [if_neg hbd, if_neg (by decide)]
  rfl

def exampleCache : VerifiedDmRelayCache :=
  ⟨(∅ : ExtTreeMap String VerifiedDmRelayRecord).insert (hexEncode exampleInboxRecord.recipientPubkey.val)
    exampleInboxRecord⟩

theorem toJson_exampleCache : ∃ bytes, exampleCache.toJson = .ok bytes := by
  have hver : (Json.num dmRelayCacheFormat.version).size = 1 := rfl
  have hb : dmRelayCacheFormat.maxBytes = 1048576 := rfl
  have hev : exampleInboxRecord.persisted.sourceEvent.json.size ≤ 262144 := verified_exampleInbox.size
  refine CacheFormat.toJson_singleton ?_
  rw [hver, hb]
  omega

theorem toCacheRecord_exampleInbox : exampleInbox.toCacheRecord exampleUrls 1700000000 = .ok exampleInboxRecord := by
  have hrcpt : exampleInbox.recipientPublicKey = hexEncode exampleInboxRecord.recipientPubkey.val := rfl
  have hid : exampleInbox.sourceEventId = hexEncode exampleInboxRecord.sourceEventId.val := rfl
  rw [toCacheRecord_eq hrcpt hid]
  exact canonicalize_exampleInbox

theorem insertVerified_example :
    VerifiedDmRelayCache.insertVerified unsealed exampleUrls {} {} {}
      ⟨exampleInboxEvent, exampleAuthor, 1700000000, 1700000000⟩ = (.ok .stored, exampleCache) := by
  obtain ⟨bytes, hb⟩ := toJson_exampleCache
  unfold exampleCache at hb ⊢
  exact VerifiedDmRelayCache.insertVerified_new verify_exampleInbox toCacheRecord_exampleInbox canonicalize_exampleInbox hb

/-- An inbox is loaded again when it is older than the policy allows. -/
theorem stale_inbox_survives :
    ReadsCaches cacheReader ∧ ({} : DmInboxPolicy).maximumAgeSeconds < 1800000000 - exampleInboxRecord.sourceCreatedAt ∧
    inserts (VerifiedDmRelayCache.insertVerified unsealed exampleUrls {} {}) {}
      [⟨exampleInboxEvent, exampleAuthor, 1700000000, 1700000000⟩] = exampleCache ∧
    ∃ bytes, exampleCache.toJson = .ok bytes ∧
      VerifiedDmRelayCache.fromJson unsealed exampleUrls cacheReader bytes 1800000000 {} {} = .ok exampleCache := by
  have hcache : inserts (VerifiedDmRelayCache.insertVerified unsealed exampleUrls {} {}) {}
      [⟨exampleInboxEvent, exampleAuthor, 1700000000, 1700000000⟩] = exampleCache := by
    rw [inserts, List.foldl_cons, insertVerified_example, List.foldl_nil]
  have hsurvives := (caches_survive_persistence unsealed exampleUrls (fun _ => none) {} {} {}
    [⟨exampleInboxEvent, exampleAuthor, 1700000000, 1700000000⟩] readsCaches_cacheReader).1
  rw [hcache] at hsurvives
  refine ⟨readsCaches_cacheReader, by decide, hcache, hsurvives 1800000000 ?_⟩
  intro key record hrecord
  unfold exampleCache at hrecord
  rw [getElem?_insert_eq] at hrecord
  split_ifs at hrecord
  · cases hrecord
    decide
  · simp at hrecord

end OmaChat.Nostr

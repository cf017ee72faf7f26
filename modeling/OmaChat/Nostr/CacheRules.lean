import OmaChat.Nostr.DmRelayCache
import OmaChat.Nostr.ProfileCache
import OmaChat.Nostr.Readers

/-!
# The verified caches

The inboxes, relay lists and profiles that were verified are kept by three caches with rules of their own. Their insertions
all go through a bounded map. `caches_never_go_back`: no cache goes back to an older event, grows beyond its bounds or is
changed by an insertion that fails.
-/

namespace OmaChat.Nostr
open Wire BoundedMap
open Std (ExtTreeMap)

/-! ## Insertions -/

/-- The run of a cache from the empty one, whose insertions may be any. -/
structure NeverGoesBack {C I ρ ε : Type} (new : C) (insert : C → I → Except ε Mutation × C)
    (records : C → ExtTreeMap String ρ) (createdAt : ρ → UInt64) (toJson : C → Except ε (List UInt8)) : Prop where
  later : ∀ (insertions more : List I) (key : String) (record : ρ),
    (records (inserts insert new insertions))[key]? = some record →
      ∃ later, (records (inserts insert new (insertions ++ more)))[key]? = some later ∧ createdAt record ≤ createdAt later
  unchanged : ∀ (insertions : List I) (insertion : I) (error : ε),
    (insert (inserts insert new insertions) insertion).1 = .error error →
      (insert (inserts insert new insertions) insertion).2 = inserts insert new insertions
  bounded : ∀ insertions, (records (inserts insert new insertions)).size ≤ 4096
  encodes : ∀ insertions, ∃ bytes, toJson (inserts insert new insertions) = .ok bytes

variable {ε ρ : Type}

theorem neverGoesBack_of_guarded {C I : Type} {new : C} {insert : C → I → Except ε Mutation × C}
    {records : C → ExtTreeMap String ρ} {createdAt : ρ → UInt64} {encode : ExtTreeMap String ρ → Except ε (List UInt8)}
    {P : String → ρ → Prop} (h : Guarded encode 4096 P (fun record => (createdAt record).toNat) records insert)
    (hnew : Fits encode 4096 (records new)) :
    NeverGoesBack new insert records createdAt (fun cache => encode (records cache)) where
  later := by
    intro insertions more key record hrec
    rw [inserts, List.foldl_append]
    obtain ⟨later, hl, hle⟩ := h.grows hrec more
    exact ⟨later, hl, UInt64.le_iff_toNat_le.2 hle⟩
  unchanged := fun _ _ _ herr => h.unchanged herr
  bounded := fun insertions => (h.fits hnew insertions).size
  encodes := fun insertions => (h.fits hnew insertions).encodes

theorem fits_empty {format : CacheFormat ε} (persisted : ρ → PersistedRecord) (hver : format.version = 1)
    (hb : format.maxBytes = 1048576) :
    Fits (fun records => format.toJson (persistedRecords persisted records)) 4096 ∅ := by
  refine ⟨by simp, _, CacheFormat.toJson_ok_iff.2 ⟨?_, rfl⟩⟩
  have hnone : persistedRecords persisted ∅ = [] := by simp [persistedRecords]
  rw [hnone, CacheFormat.encoded, Json.length_utf8_render, hver, hb]
  decide

namespace VerifiedDmRelayCache

theorem rule_replace {record current : VerifiedDmRelayRecord} (h : rule record current = .replace) :
    current.sourceCreatedAt ≤ record.sourceCreatedAt := by
  unfold rule at h
  split_ifs at h with hold
  exact UInt64.not_lt.1 hold

theorem insert_cases (urls : RelayUrlLibrary) (cache : VerifiedDmRelayCache) (draft : VerifiedDmRelayRecord) :
    (∃ error, cache.insert urls draft = (.error error, cache)) ∨
      ∃ record, draft.canonicalizeAndValidate urls = .ok record ∧
        Outcome (fun records => toJson ⟨records⟩) 4096 (rule record) (hexEncode record.recipientPubkey.val) record
          cache.records
          ((cache.insert urls draft).1, (cache.insert urls draft).2.records) := by
  unfold insert
  cases hrec : draft.canonicalizeAndValidate urls with
  | error error => exact .inl ⟨error, rfl⟩
  | ok record => exact .inr ⟨record, rfl, insertUnder_cases⟩

theorem records_injective : Function.Injective records := by
  rintro ⟨a⟩ ⟨b⟩ rfl
  rfl

theorem guarded_insert (urls : RelayUrlLibrary) :
    Guarded (fun records => toJson ⟨records⟩) 4096 (fun _ _ => True) (fun record => record.sourceCreatedAt.toNat) records
      (insert urls) where
  view_injective := records_injective
  step := by
    intro cache draft
    rcases insert_cases urls cache draft with hrefused | ⟨record, -, hout⟩
    · exact .inl hrefused
    · exact .inr ⟨_, record, _, trivial, fun _ hrepl => UInt64.le_iff_toNat_le.1 (rule_replace hrepl), hout⟩

end VerifiedDmRelayCache

namespace VerifiedRelayListCache

variable {event : SignedEvent}

theorem rule_replace {current : VerifiedRelayListCacheRecord} (h : rule event current = .replace) :
    current.sourceEvent.createdAt ≤ event.createdAt := by
  unfold rule at h
  split_ifs at h with hold
  exact UInt64.not_lt.1 hold

theorem insertEvent_eq {p : Primitives} {urls : RelayUrlLibrary} {cache : VerifiedRelayListCache}
    {now verifiedAt : UInt64} {eventLimits : EventLimits} {relayLimits : RelayDiscoveryLimits} {list : RelayList}
    {result : Except RelayListCacheError Mutation × ExtTreeMap String VerifiedRelayListCacheRecord} (hnow : verifiedAt ≤ now)
    (htime : event.createdAt ≤ verifiedAt) (hlist : parseNip65RelayList p urls event now eventLimits relayLimits = .ok list)
    (hins : insertUnder (fun records => toJson ⟨records⟩) maxCachedRelayLists .cacheFull (rule event) list.publicKey
      ⟨list, event, verifiedAt⟩ cache.records = result) :
    cache.insertEvent p urls event now verifiedAt eventLimits relayLimits = (result.1, ⟨result.2⟩) := by
  unfold insertEvent
  rw [if_neg (not_or.2 ⟨UInt64.not_lt.2 hnow, UInt64.not_lt.2 htime⟩), hlist]
  dsimp only
  rw [hins]

theorem insertEvent_cases (p : Primitives) (urls : RelayUrlLibrary) (cache : VerifiedRelayListCache) (event : SignedEvent)
    (now verifiedAt : UInt64) (eventLimits : EventLimits) (relayLimits : RelayDiscoveryLimits) :
    (∃ error, cache.insertEvent p urls event now verifiedAt eventLimits relayLimits = (.error error, cache)) ∨
      ∃ list, event.createdAt ≤ verifiedAt ∧ parseNip65RelayList p urls event now eventLimits relayLimits = .ok list ∧
        Outcome (fun records => toJson ⟨records⟩) 4096 (rule event) list.publicKey ⟨list, event, verifiedAt⟩ cache.records
          ((cache.insertEvent p urls event now verifiedAt eventLimits relayLimits).1,
            (cache.insertEvent p urls event now verifiedAt eventLimits relayLimits).2.records) := by
  unfold insertEvent
  by_cases htime : now < verifiedAt ∨ verifiedAt < event.createdAt
  · rw [if_pos htime]
    exact .inl ⟨_, rfl⟩
  · rw [if_neg htime]
    rw [not_or] at htime
    cases hlist : parseNip65RelayList p urls event now eventLimits relayLimits with
    | error error => exact .inl ⟨_, rfl⟩
    | ok list => exact .inr ⟨list, UInt64.not_lt.1 htime.2, rfl, insertUnder_cases⟩

theorem records_injective : Function.Injective records := by
  rintro ⟨a⟩ ⟨b⟩ rfl
  rfl

/-- The record is what its source event says, for the author of the event. -/
structure Made (p : Primitives) (urls : RelayUrlLibrary) (limits : EventLimits) (relayLimits : RelayDiscoveryLimits)
    (key : String) (record : VerifiedRelayListCacheRecord) : Prop where
  time : record.sourceEvent.createdAt ≤ record.verifiedAt
  list : ∃ now, parseNip65RelayList p urls record.sourceEvent now limits relayLimits = .ok record.relayList
  key : key = record.relayList.publicKey

theorem guarded_insertEvent (p : Primitives) (urls : RelayUrlLibrary) :
    Guarded (fun records => toJson ⟨records⟩) 4096
      (fun key record => ∃ limits relayLimits, Made p urls limits relayLimits key record)
      (fun record => record.sourceEvent.createdAt.toNat) records
      fun cache (i : Insertion) => cache.insertEvent p urls i.sourceEvent i.now i.verifiedAt i.eventLimits i.relayLimits where
  view_injective := records_injective
  step := by
    intro cache i
    rcases insertEvent_cases p urls cache i.sourceEvent i.now i.verifiedAt i.eventLimits i.relayLimits with
      hrefused | ⟨list, htime, hlist, hout⟩
    · exact .inl hrefused
    · exact .inr ⟨list.publicKey, ⟨list, i.sourceEvent, i.verifiedAt⟩, rule i.sourceEvent,
        ⟨i.eventLimits, i.relayLimits, htime, ⟨i.now, hlist⟩, rfl⟩,
        fun _ hrepl => UInt64.le_iff_toNat_le.1 (rule_replace hrepl), hout⟩

end VerifiedRelayListCache

namespace VerifiedProfileCache

theorem rule_replace {profile : VerifiedNostrProfile} {current : VerifiedProfileCacheRecord}
    (h : rule profile current = .replace) : current.profile.sourceCreatedAt ≤ profile.sourceCreatedAt := by
  unfold rule at h
  split_ifs at h with hold
  exact UInt64.not_lt.1 hold

theorem insert_cases (cache : VerifiedProfileCache) (profile : VerifiedNostrProfile) (verifiedAt : UInt64) :
    (∃ error, cache.insert profile verifiedAt = (.error error, cache)) ∨
      profile.sourceCreatedAt ≤ verifiedAt ∧
        Outcome (fun records => toJson ⟨records⟩) 4096 (rule profile) (hexEncode profile.publicKey.val)
          ⟨profile, verifiedAt⟩ cache.records
          ((cache.insert profile verifiedAt).1, (cache.insert profile verifiedAt).2.records) := by
  unfold insert
  by_cases htime : verifiedAt < profile.sourceCreatedAt
  · rw [if_pos htime]
    exact .inl ⟨_, rfl⟩
  · rw [if_neg htime]
    exact .inr ⟨UInt64.not_lt.1 htime, insertUnder_cases⟩

theorem records_injective : Function.Injective records := by
  rintro ⟨a⟩ ⟨b⟩ rfl
  rfl

theorem guarded_insert :
    Guarded (fun records => toJson ⟨records⟩) 4096 (fun _ _ => True) (fun record => record.profile.sourceCreatedAt.toNat)
      records fun cache (i : VerifiedNostrProfile × UInt64) => cache.insert i.1 i.2 where
  view_injective := records_injective
  step := by
    intro cache i
    rcases insert_cases cache i.1 i.2 with hrefused | ⟨-, hout⟩
    · exact .inl hrefused
    · exact .inr ⟨hexEncode i.1.publicKey.val, ⟨i.1, i.2⟩, rule i.1, trivial,
        fun _ hrepl => UInt64.le_iff_toNat_le.1 (rule_replace hrepl), hout⟩

end VerifiedProfileCache

/-- **The caches never go back**, in runs of any insertions: the time of the event that is kept for a key never falls, an
insertion that fails changes nothing, no cache has more than 4096 keys, and every cache can be written. -/
theorem caches_never_go_back (p : Primitives) (urls : RelayUrlLibrary) :
    NeverGoesBack {} (VerifiedDmRelayCache.insert urls) VerifiedDmRelayCache.records VerifiedDmRelayRecord.sourceCreatedAt
      VerifiedDmRelayCache.toJson ∧
    NeverGoesBack {}
      (fun cache (i : VerifiedRelayListCache.Insertion) =>
        cache.insertEvent p urls i.sourceEvent i.now i.verifiedAt i.eventLimits i.relayLimits)
      VerifiedRelayListCache.records (fun record => record.sourceEvent.createdAt) VerifiedRelayListCache.toJson ∧
    NeverGoesBack {} (fun cache (i : VerifiedNostrProfile × UInt64) => cache.insert i.1 i.2) VerifiedProfileCache.records
      (fun record => record.profile.sourceCreatedAt) VerifiedProfileCache.toJson := by
  refine ⟨?_, ?_, ?_⟩
  · exact neverGoesBack_of_guarded (VerifiedDmRelayCache.guarded_insert urls) (fits_empty _ rfl rfl)
  · exact neverGoesBack_of_guarded (VerifiedRelayListCache.guarded_insertEvent p urls) (fits_empty _ rfl rfl)
  · exact neverGoesBack_of_guarded VerifiedProfileCache.guarded_insert (fits_empty _ rfl rfl)

end OmaChat.Nostr

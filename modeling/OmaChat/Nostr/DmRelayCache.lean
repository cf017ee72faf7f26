import Mathlib.Data.String.Basic
import OmaChat.Nostr.Checks
import OmaChat.Nostr.RelayList

/-!
# The cache of inboxes

`dm_relay_cache.rs`: for every recipient the relays of the inbox that they signed last. A record is made from a verified
inbox (`VerifiedDmInbox::to_cache_record`), its relays are checked and sorted again, and it is bound to its source event.
-/

namespace OmaChat.Nostr
open Wire BoundedMap
open Std (ExtTreeMap)

def maxCachedDmRecipients : Nat := 4096

def maxDmRelaysPerRecipient : Nat := 3

def maxDmRelayEndpointBytes : Nat := 2048

/-- `MAX_SERIALIZED_CACHE_BYTES` -/
def maxSerializedDmCacheBytes : Nat := 1048576

/-- `CACHE_FORMAT_VERSION` -/
def dmCacheFormatVersion : Nat := 1

/-! ## Endpoints -/

/-- The loop over the endpoints, here and in `canonical_relay_urls`. The set `seen` of the source has the elements of
`canonical`. -/
def collectEndpoints {ε : Type} (urls : RelayUrlLibrary) (endpointTooLong invalidEndpoint duplicateEndpoint : ε)
    (refused : RelayUrl → Bool) : (canonical : List String) → List String → Except ε (List String)
  | canonical, [] => .ok canonical
  | canonical, endpoint :: rest =>
    if maxDmRelayEndpointBytes < endpoint.utf8ByteSize then .error endpointTooLong
    else
      match urls.parse endpoint with
      | none => .error invalidEndpoint
      | some url =>
        if refused url then .error invalidEndpoint
        else if url.text ∈ canonical then .error duplicateEndpoint
        else
          collectEndpoints urls endpointTooLong invalidEndpoint duplicateEndpoint refused (canonical ++ [url.text]) rest

theorem collectEndpoints_ok {ε : Type} {urls : RelayUrlLibrary} {tooLong invalid duplicate : ε} {refused : RelayUrl → Bool}
    {canonical endpoints result : List String} (hnd : canonical.Nodup)
    (h : collectEndpoints urls tooLong invalid duplicate refused canonical endpoints = .ok result) :
    ∃ parsed : List RelayUrl, List.Forall₂ (fun endpoint url => urls.parse endpoint = some url ∧ refused url = false)
      endpoints parsed ∧ result = canonical ++ parsed.map (·.text) ∧ result.Nodup := by
  induction endpoints generalizing canonical with
  | nil =>
    cases h
    exact ⟨[], .nil, by simp, hnd⟩
  | cons endpoint rest ih =>
    unfold collectEndpoints at h
    obtain ⟨-, h⟩ := refuse_ok_iff.1 h
    cases hp : urls.parse endpoint with
    | none =>
      rw [hp] at h
      cases h
    | some url =>
      rw [hp] at h
      obtain ⟨hacc, h⟩ := refuse_ok_iff.1 h
      obtain ⟨hnew, h⟩ := refuse_ok_iff.1 h
      obtain ⟨parsed, hparsed, hres, hnd'⟩ := ih
        (hnd.append (List.nodup_singleton _) (by simpa using hnew)) h
      refine ⟨url :: parsed, .cons ⟨hp, Bool.eq_false_iff.2 hacc⟩ hparsed, ?_, hnd'⟩
      rw [hres, List.map_cons, List.append_assoc, List.singleton_append]

/-! ## Records -/

structure VerifiedDmRelayRecord where
  recipientPubkey : Bytes 32
  sourceEventId : Bytes 32
  sourceCreatedAt : UInt64
  verifiedAt : UInt64
  relays : List String
  sourceEvent : SignedEvent
  deriving DecidableEq

inductive DmRelayCacheError where
  | invalidRecipient
  | invalidSourceEvent
  | invalidVerificationTime
  | invalidEndpoint
  | endpointTooLong
  | duplicateEndpoint
  | tooManyRelays
  | cacheFull
  | cacheTooLarge
  | invalidEncoding
  | unsupportedVersion
  | rollback
  | equivocation
  | sourceBindingMismatch
  deriving DecidableEq

section Records
variable (urls : RelayUrlLibrary)

def refusedDmRelay (url : RelayUrl) : Bool :=
  ¬ (url.scheme = "wss" ∨ url.scheme = "ws" ∧ url.host.any urls.isLoopback) ∨ url.host = none ∨ url.username ≠ "" ∨
    url.password ≠ none ∨ url.fragment ≠ none

def VerifiedDmRelayRecord.canonicalizeAndValidate (record : VerifiedDmRelayRecord) :
    Except DmRelayCacheError VerifiedDmRelayRecord :=
  if record.recipientPubkey = Bytes.replicate 32 0 then .error .invalidRecipient
  else if record.sourceEventId = Bytes.replicate 32 0 then .error .invalidSourceEvent
  else if record.verifiedAt < record.sourceCreatedAt then .error .invalidVerificationTime
  else if record.sourceEvent.pubkey ≠ hexEncode record.recipientPubkey.val ∨
      record.sourceEvent.id ≠ hexEncode record.sourceEventId.val ∨
        record.sourceEvent.createdAt ≠ record.sourceCreatedAt then
    .error .sourceBindingMismatch
  else if maxDmRelaysPerRecipient < record.relays.length then .error .tooManyRelays
  else do
    let canonical ← collectEndpoints urls .endpointTooLong .invalidEndpoint .duplicateEndpoint (refusedDmRelay urls) []
      record.relays
    .ok { record with relays := canonical.insertionSort (· ≤ ·) }

/-- What the checks of a record say, and what they make of it. -/
structure Canonicalized (draft record : VerifiedDmRelayRecord) : Prop where
  fields : record = { draft with relays := record.relays }
  time : draft.sourceCreatedAt ≤ draft.verifiedAt
  author : draft.sourceEvent.pubkey = hexEncode draft.recipientPubkey.val
  createdAt : draft.sourceEvent.createdAt = draft.sourceCreatedAt
  few : draft.relays.length ≤ 3
  nodup : record.relays.Nodup
  relays : ∃ parsed : List RelayUrl,
    List.Forall₂ (fun endpoint url => urls.parse endpoint = some url ∧
      refusedDmRelay urls url = false) draft.relays parsed ∧ record.relays.Perm (parsed.map (·.text))

variable {urls} in
theorem canonicalizeAndValidate_ok {draft record : VerifiedDmRelayRecord} (h : draft.canonicalizeAndValidate urls = .ok record) :
    Canonicalized urls draft record := by
  unfold VerifiedDmRelayRecord.canonicalizeAndValidate at h
  obtain ⟨-, h⟩ := refuse_ok_iff.1 h
  obtain ⟨-, h⟩ := refuse_ok_iff.1 h
  obtain ⟨htime, h⟩ := refuse_ok_iff.1 h
  obtain ⟨hbd, h⟩ := refuse_ok_iff.1 h
  obtain ⟨hfew, h⟩ := refuse_ok_iff.1 h
  obtain ⟨canonical, hcollect, hok⟩ := bind_ok_iff.1 h
  cases hok
  simp only [not_or, ne_eq, not_not] at hbd
  obtain ⟨parsed, hparsed, hcan, hnd⟩ := collectEndpoints_ok List.nodup_nil hcollect
  have hperm := List.perm_insertionSort (· ≤ ·) canonical
  refine ⟨rfl, UInt64.not_lt.1 htime, hbd.1, hbd.2.2, Nat.le_of_not_lt hfew, hperm.nodup_iff.2 hnd, parsed, hparsed, ?_⟩
  rw [hcan, List.nil_append] at hperm
  rwa [hcan, List.nil_append]

def VerifiedDmInbox.toCacheRecord (inbox : VerifiedDmInbox) (verifiedAt : UInt64) :
    Except DmRelayCacheError VerifiedDmRelayRecord :=
  match (hexDecode inbox.recipientPublicKey).bind (Bytes.ofList? 32) with
  | none => .error .invalidRecipient
  | some recipientPubkey =>
    match (hexDecode inbox.sourceEventId).bind (Bytes.ofList? 32) with
    | none => .error .invalidSourceEvent
    | some sourceEventId =>
      VerifiedDmRelayRecord.canonicalizeAndValidate urls
        ⟨recipientPubkey, sourceEventId, inbox.sourceCreatedAt, verifiedAt, inbox.relayUrls, inbox.sourceEvent⟩

variable {urls} in
theorem toCacheRecord_eq {inbox : VerifiedDmInbox} {verifiedAt : UInt64} {recipientPubkey sourceEventId : Bytes 32}
    (hrcpt : inbox.recipientPublicKey = hexEncode recipientPubkey.val)
    (hid : inbox.sourceEventId = hexEncode sourceEventId.val) :
    inbox.toCacheRecord urls verifiedAt = VerifiedDmRelayRecord.canonicalizeAndValidate urls
      ⟨recipientPubkey, sourceEventId, inbox.sourceCreatedAt, verifiedAt, inbox.relayUrls, inbox.sourceEvent⟩ := by
  unfold VerifiedDmInbox.toCacheRecord
  rw [hrcpt, hid, hexDecode_hexEncode, hexDecode_hexEncode, Option.bind_some, Option.bind_some, Bytes.ofList?_val,
    Bytes.ofList?_val]

end Records

/-! ## The cache -/

def VerifiedDmRelayRecord.persisted (record : VerifiedDmRelayRecord) : PersistedRecord :=
  ⟨record.verifiedAt, record.sourceEvent⟩

structure VerifiedDmRelayCache where
  records : ExtTreeMap String VerifiedDmRelayRecord := ∅

abbrev CacheMutation : Type := Mutation

inductive DmRelayCacheLookup where
  | missing
  | fresh (record : VerifiedDmRelayRecord)
  | offlineStale (record : VerifiedDmRelayRecord)
  | unusableClockRollback (record : VerifiedDmRelayRecord)

/-- The format of `dm_relay_cache.rs` -/
def dmRelayCacheFormat : CacheFormat DmRelayCacheError where
  version := dmCacheFormatVersion
  maxRecords := maxCachedDmRecipients
  maxBytes := maxSerializedDmCacheBytes
  cacheTooLarge := .cacheTooLarge
  invalidEncoding := .invalidEncoding
  unsupportedVersion := fun _ => .unsupportedVersion
  cacheFull := .cacheFull
  invalidVerificationTime := .invalidVerificationTime
  invalidKey := .invalidRecipient

namespace VerifiedDmRelayCache

def toJson (cache : VerifiedDmRelayCache) : Except DmRelayCacheError (List UInt8) :=
  dmRelayCacheFormat.toJson (persistedRecords VerifiedDmRelayRecord.persisted cache.records)

/-- What `insert` makes of a record for a recipient that has one. -/
def rule (record current : VerifiedDmRelayRecord) : Ruling DmRelayCacheError :=
  if record.sourceCreatedAt < current.sourceCreatedAt then .refuse .rollback
  else if record.sourceCreatedAt = current.sourceCreatedAt then
    if record.sourceEventId ≠ current.sourceEventId then .refuse .equivocation
    else if record.relays ≠ current.relays ∨ record.sourceEvent ≠ current.sourceEvent then .refuse .sourceBindingMismatch
    else .keep
  else .replace

def insert (urls : RelayUrlLibrary) (cache : VerifiedDmRelayCache) (record : VerifiedDmRelayRecord) :
    Except DmRelayCacheError CacheMutation × VerifiedDmRelayCache :=
  match record.canonicalizeAndValidate urls with
  | .error error => (.error error, cache)
  | .ok record =>
    let inserted := insertUnder (fun records => toJson ⟨records⟩) maxCachedDmRecipients .cacheFull (rule record)
      (hexEncode record.recipientPubkey.val) record cache.records
    (inserted.1, ⟨inserted.2⟩)

def lookup (cache : VerifiedDmRelayCache) (recipientPubkey : Bytes 32) (now freshnessWindowSecs : UInt64) : DmRelayCacheLookup :=
  match cache.records[hexEncode recipientPubkey.val]? with
  | none => .missing
  | some record =>
    if now < record.sourceCreatedAt then .unusableClockRollback record
    else if now - record.sourceCreatedAt ≤ freshnessWindowSecs then .fresh record
    else .offlineStale record

def insertVerified (p : Primitives) (urls : RelayUrlLibrary) (eventLimits : EventLimits) (policy : DmInboxPolicy)
    (cache : VerifiedDmRelayCache) (i : VerifiedInsertion) : Except DmRelayCacheError CacheMutation × VerifiedDmRelayCache :=
  match verifyDmInbox p urls i.sourceEvent i.publicKey i.now eventLimits policy with
  | .error _ => (.error .invalidSourceEvent, cache)
  | .ok inbox =>
    match inbox.toCacheRecord urls i.verifiedAt with
    | .error error => (.error error, cache)
    | .ok record => cache.insert urls record

def fromJson (p : Primitives) (urls : RelayUrlLibrary) (decode : List UInt8 → Option PersistedCache) (encoded : List UInt8)
    (now : UInt64) (eventLimits : EventLimits) (policy : DmInboxPolicy) : Except DmRelayCacheError VerifiedDmRelayCache :=
  let staleTolerantPolicy := { policy with maximumAgeSeconds := UInt64.ofNat (2 ^ 64 - 1) }
  dmRelayCacheFormat.fromJson decode
    (fun recipient record cache => inserted
      (cache.insertVerified p urls eventLimits staleTolerantPolicy ⟨record.sourceEvent, recipient, now, record.verifiedAt⟩))
    {} encoded now

end VerifiedDmRelayCache

end OmaChat.Nostr

import OmaChat.Nostr.CacheRules
import OmaChat.Nostr.Signed
import OmaChat.Nostr.Winner

/-!
# Caches of relay lists converge

Two caches that have considered the same events, in any orders and any number of times, keep the winners of NIP-01. The id of
a winner determines everything in its event but the signature.

* `relay_list_caches_converge`;
* `resigned_lists_differ` : the signature of the winner depends on the order.
-/

namespace OmaChat.Nostr
open Wire BoundedMap
open Std (ExtTreeMap)

variable {cache : VerifiedRelayListCache} {event : SignedEvent} {p : Primitives} {urls : RelayUrlLibrary}

/-! ## What is read does not depend on the limits -/

section
variable {limits limits' : RelayDiscoveryLimits} {rawUrl : String} {relays result result' : List RelayPreference}
  {tagRelay : TagReader}

theorem normalizeRelayUrl_congr {url url' : String} (h : normalizeRelayUrl urls rawUrl limits = .ok url)
    (h' : normalizeRelayUrl urls rawUrl limits' = .ok url') : url = url' := by
  unfold normalizeRelayUrl at h h'
  obtain ⟨-, h⟩ := refuse_ok_iff.1 h
  obtain ⟨-, h'⟩ := refuse_ok_iff.1 h'
  cases hp : urls.parse rawUrl with
  | none =>
    rw [hp] at h
    cases h
  | some parsed =>
    rw [hp] at h h'
    obtain ⟨-, h⟩ := refuse_ok_iff.1 h
    obtain ⟨-, h'⟩ := refuse_ok_iff.1 h'
    exact (Except.ok.inj h).symm.trans (Except.ok.inj h')

theorem mergeRelay_congr {read write : Bool} (h : mergeRelay urls relays rawUrl read write limits = .ok result)
    (h' : mergeRelay urls relays rawUrl read write limits' = .ok result') : result = result' := by
  obtain ⟨url, hurl, h⟩ := bind_ok_iff.1 h
  obtain ⟨url', hurl', h'⟩ := bind_ok_iff.1 h'
  obtain rfl := normalizeRelayUrl_congr hurl hurl'
  cases hfind : relays.findIdx? (·.url = url) with
  | some existing =>
    rw [hfind] at h h'
    exact (Except.ok.inj h).symm.trans (Except.ok.inj h')
  | none =>
    rw [hfind] at h h'
    obtain ⟨-, h⟩ := refuse_ok_iff.1 h
    obtain ⟨-, h'⟩ := refuse_ok_iff.1 h'
    exact (Except.ok.inj h).symm.trans (Except.ok.inj h')

theorem mergeTags_congr {tags : List Tag} (h : mergeTags urls tagRelay limits relays tags = .ok result)
    (h' : mergeTags urls tagRelay limits' relays tags = .ok result') : result = result' := by
  induction tags generalizing relays with
  | nil => exact (Except.ok.inj h).symm.trans (Except.ok.inj h')
  | cons tag rest ih =>
    unfold mergeTags at h h'
    obtain ⟨relay, hr, h⟩ := bind_ok_iff.1 h
    obtain ⟨relay', hr', h'⟩ := bind_ok_iff.1 h'
    rw [hr] at hr'
    obtain rfl := Except.ok.inj hr'
    cases relay with
    | none => exact ih h h'
    | some relay =>
      obtain ⟨merged, hmerged, h⟩ := bind_ok_iff.1 h
      obtain ⟨merged', hmerged', h'⟩ := bind_ok_iff.1 h'
      obtain rfl := mergeRelay_congr hmerged hmerged'
      exact ih h h'

theorem parseRelayList_congr {kind : UInt32} {event' : SignedEvent} {now now' : UInt64}
    {eventLimits eventLimits' : EventLimits} {list list' : RelayList} (hev : event.unsigned = event'.unsigned)
    (h : parseRelayList p urls kind tagRelay event now eventLimits limits = .ok list)
    (h' : parseRelayList p urls kind tagRelay event' now' eventLimits' limits' = .ok list') : list = list' := by
  obtain ⟨-, -, -, hmerge, -, hkey, htime⟩ := parseRelayList_ok_iff.1 h
  obtain ⟨-, -, -, hmerge', -, hkey', htime'⟩ := parseRelayList_ok_iff.1 h'
  have htags : event.tags = event'.tags := congrArg UnsignedEvent.tags hev
  rw [← htags] at hmerge'
  obtain ⟨publicKey, createdAt, relays⟩ := list
  obtain ⟨publicKey', createdAt', relays'⟩ := list'
  rw [RelayList.mk.injEq]
  refine ⟨?_, ?_, mergeTags_congr hmerge hmerge'⟩
  · exact hkey.trans ((congrArg UnsignedEvent.pubkey hev).trans hkey'.symm)
  · exact htime.trans ((congrArg UnsignedEvent.createdAt hev).trans htime'.symm)

end

/-! ## Convergence -/

theorem Winner.id_eq {events : Set SignedEvent} {other : SignedEvent} (h : Winner events event)
    (h' : Winner events other) : event.id = other.id := by
  have hle := (winner_iff.1 h).2 other h'.1
  have hge := (winner_iff.1 h').2 event h.1
  have hkey : lowestKey event = lowestKey other := le_antisymm hge hle
  exact OrderDual.toDual.injective (congrArg (fun k => (ofLex k).2) hkey)

namespace VerifiedRelayListCache
def eventsOf (insertions : List Insertion) (author : String) : Set SignedEvent :=
  {event | event.pubkey = author ∧ ∃ insertion ∈ insertions, insertion.sourceEvent = event}

theorem insertEvents_cache (p : Primitives) (urls : RelayUrlLibrary) (cache : VerifiedRelayListCache)
    (insertions : List Insertion) :
    (cache.insertEvents p urls insertions).2 =
      inserts (fun cache (i : Insertion) => cache.insertEvent p urls i.sourceEvent i.now i.verifiedAt i.eventLimits i.relayLimits)
        cache insertions := by
  induction insertions generalizing cache with
  | nil => rfl
  | cons insertion rest ih => exact ih _

theorem insertEvents_pair {first second : Insertion} {stored last : VerifiedRelayListCache}
    {result result' : Except RelayListCacheError RelayListCacheMutation}
    (hf : cache.insertEvent p urls first.sourceEvent first.now first.verifiedAt first.eventLimits first.relayLimits =
      (result, stored))
    (hsecond : stored.insertEvent p urls second.sourceEvent second.now second.verifiedAt second.eventLimits second.relayLimits =
      (result', last)) :
    cache.insertEvents p urls [first, second] = ([(first.sourceEvent, result), (second.sourceEvent, result')], last) := by
  simp only [insertEvents, hf, hsecond]

theorem map_fst_insertEvents (p : Primitives) (urls : RelayUrlLibrary) (cache : VerifiedRelayListCache)
    (insertions : List Insertion) :
    (cache.insertEvents p urls insertions).1.map Prod.fst = insertions.map Insertion.sourceEvent := by
  induction insertions generalizing cache with
  | nil => rfl
  | cons insertion rest ih => exact congrArg (insertion.sourceEvent :: ·) (ih _)

variable {insertions : List Insertion} {results : List (SignedEvent × Except RelayListCacheError RelayListCacheMutation)}
  {author : String}

section
variable (h : insertEvents p urls {} insertions = (results, cache)) (hall : ∀ result ∈ results, considers result.2 = true)
include h hall

theorem mem_considered_iff : event ∈ considered results author ↔ event ∈ eventsOf insertions author := by
  have hevs := map_fst_insertEvents p urls {} insertions
  rw [h] at hevs
  have hmem : (∃ insertion ∈ insertions, insertion.sourceEvent = event) ↔ ∃ result ∈ results, result.1 = event := by
    rw [← List.mem_map, ← List.mem_map, ← hevs]
  rw [eventsOf, Set.mem_ofPred_eq, hmem, considered, List.mem_map]
  constructor
  · rintro ⟨result, hres, rfl⟩
    obtain ⟨hres, hfilter⟩ := List.mem_filter.1 hres
    exact ⟨(of_decide_eq_true hfilter).1, result, hres, rfl⟩
  · rintro ⟨hauth, result, hres, rfl⟩
    exact ⟨result, List.mem_filter.2 ⟨hres, decide_eq_true ⟨hauth, hall result hres⟩⟩, rfl⟩

theorem records_winner (hev : event ∈ eventsOf insertions author) :
    ∃ record limits relayLimits, cache.records[author]? = some record ∧
      Winner (eventsOf insertions author) record.sourceEvent ∧ Made p urls limits relayLimits author record := by
  obtain ⟨winner, hkept, hwin⟩ := kept_winner h ((mem_considered_iff h hall).2 hev)
  obtain ⟨record, hrec, rfl⟩ := Option.map_eq_some_iff.1 hkept
  have hset : {event | event ∈ considered results author} = eventsOf insertions author := by
    ext event
    exact mem_considered_iff h hall
  rw [hset] at hwin
  have hcache := insertEvents_cache p urls {} insertions
  rw [h] at hcache
  have hempty : ∀ (k : String) (r : VerifiedRelayListCacheRecord), ({} : VerifiedRelayListCache).records[k]? = some r →
      ∃ limits relayLimits, Made p urls limits relayLimits k r := by
    intro k r hr
    simp at hr
  have hmade := (guarded_insertEvent p urls).all hempty insertions author record
  rw [← hcache] at hmade
  obtain ⟨limits, relayLimits, hmade⟩ := hmade hrec
  exact ⟨record, limits, relayLimits, hrec, hwin, hmade⟩

theorem records_none (hnone : eventsOf insertions author = ∅) : cache.records[author]? = none := by
  have hkept : (insertEvents p urls {} insertions).2.kept author =
      (considered (insertEvents p urls {} insertions).1 author).argmax lowestKey := kept_insertEvents insertions
  have hconsidered : considered results author = [] := by
    rw [List.eq_nil_iff_forall_not_mem]
    intro event hev
    have hmem := (mem_considered_iff h hall).1 hev
    rw [hnone] at hmem
    exact hmem
  rw [h, hconsidered, List.argmax_nil] at hkept
  exact Option.map_eq_none_iff.1 hkept

end

end VerifiedRelayListCache

/-- **Caches of relay lists converge.** If all insertions of two runs are considered and they insert the same events, then
both caches keep, for every author, a winner of the events of the author. The winners have one id, and the same fields and
relay list, unless their texts are a collision of the hash. -/
theorem relay_list_caches_converge {p : Primitives} {urls : RelayUrlLibrary}
    {insertions insertions' : List VerifiedRelayListCache.Insertion}
    {results results' : List (SignedEvent × Except RelayListCacheError RelayListCacheMutation)}
    {cache cache' : VerifiedRelayListCache}
    (h : VerifiedRelayListCache.insertEvents p urls {} insertions = (results, cache))
    (h' : VerifiedRelayListCache.insertEvents p urls {} insertions' = (results', cache'))
    (hall : ∀ result ∈ results, VerifiedRelayListCache.considers result.2 = true)
    (hall' : ∀ result ∈ results', VerifiedRelayListCache.considers result.2 = true)
    (hsame : ∀ event, (∃ i ∈ insertions, i.sourceEvent = event) ↔ ∃ i ∈ insertions', i.sourceEvent = event)
    (author : String) :
    (VerifiedRelayListCache.eventsOf insertions author = ∅ ∧ cache.records[author]? = none ∧
      cache'.records[author]? = none) ∨
    ∃ record record', cache.records[author]? = some record ∧ cache'.records[author]? = some record' ∧
      Winner (VerifiedRelayListCache.eventsOf insertions author) record.sourceEvent ∧
      Winner (VerifiedRelayListCache.eventsOf insertions author) record'.sourceEvent ∧
      record.sourceEvent.id = record'.sourceEvent.id ∧
      (record.sourceEvent.unsigned = record'.sourceEvent.unsigned ∧ record.relayList = record'.relayList ∨
        Collision p record.sourceEvent.unsigned.canonicalJson record'.sourceEvent.unsigned.canonicalJson) := by
  have hevents : VerifiedRelayListCache.eventsOf insertions' author = VerifiedRelayListCache.eventsOf insertions author := by
    ext event
    exact and_congr_right fun _ => (hsame event).symm
  rcases Set.eq_empty_or_nonempty (VerifiedRelayListCache.eventsOf insertions author) with hnone | ⟨event, hevent⟩
  · refine .inl ⟨hnone, VerifiedRelayListCache.records_none h hall hnone, VerifiedRelayListCache.records_none h' hall' ?_⟩
    rw [hevents, hnone]
  · obtain ⟨record, limits, relayLimits, hrecord, hwinner, -, ⟨now, hlist⟩, -⟩ :=
      VerifiedRelayListCache.records_winner h hall hevent
    obtain ⟨record', limits', relayLimits', hrecord', hwinner', -, ⟨now', hlist'⟩, -⟩ :=
      VerifiedRelayListCache.records_winner h' hall' (hevents ▸ hevent)
    rw [hevents] at hwinner'
    have hid := hwinner.id_eq hwinner'
    refine .inr ⟨record, record', hrecord, hrecord', hwinner, hwinner', hid, ?_⟩
    obtain ⟨hverified, -⟩ := parseRelayList_ok_iff.1 hlist
    obtain ⟨hverified', -⟩ := parseRelayList_ok_iff.1 hlist'
    rcases eq_or_collision (hverified.id_eq hverified' hid) with heq | hcollision
    · exact .inl ⟨heq, parseRelayList_congr heq hlist hlist'⟩
    · exact .inr hcollision

/-! ### One list with two signatures -/

def resignedList : UnsignedEvent :=
  ⟨hexEncode listAuthor.val, 1700000000, nip65RelayListKind, [["r", "wss://a.example/"]], ""⟩

def resignedId : Bytes 32 := hexBytes 32 "7d3de9371d4cfec1249d71b83537a6a1668cafc0cb8f73cdc46b0a347a9b6f8a"

/-- The signatures of the list with the auxiliary randomness zero and one. -/
def zeroSignature : Bytes 64 :=
  hexBytes 64 ("1e487b03f03a80281ecd4d14ad7df4a3711fd524960a6ee25737adc8eb011e24" ++
    "f837cb75f1dc4223f32454c79e9e135130077e01f3a1c105517ade8e8e6fcab1")

def oneSignature : Bytes 64 :=
  hexBytes 64 ("337967f0f15c2af04546e6ac83edcb678532bfde5070c5cdc48527d09b19cde5" ++
    "434a2c02785743cd6b22c82842b14dc5cb3f911643b3ecf0edc9d921d4950c04")

/-- The hash of the list, and its signatures. -/
def resignedPrimitives : Primitives :=
  { listPrimitives with
    sha256 := fun _ => resignedId
    verify := fun key message signature =>
      key = listAuthor ∧ message = resignedId ∧ (signature = zeroSignature ∨ signature = oneSignature) }

def resigned (signature : Bytes 64) : SignedEvent := resignedList.withSignature resignedPrimitives signature

def resignedInsertion (signature : Bytes 64) : VerifiedRelayListCache.Insertion :=
  ⟨resigned signature, 1700000060, 1700000060, {}, {}⟩

def resignedRelays : RelayList := ⟨hexEncode listAuthor.val, 1700000000, [⟨"wss://a.example/", true, true⟩]⟩

def resignedRecord (signature : Bytes 64) : VerifiedRelayListCacheRecord := ⟨resignedRelays, resigned signature, 1700000060⟩

variable {other signature : Bytes 64}

theorem parse_resigned (hsig : signature = zeroSignature ∨ signature = oneSignature) :
    parseNip65RelayList resignedPrimitives secureUrls (resigned signature) 1700000060 {} {} = .ok resignedRelays := by
  have hvrf : Verified resignedPrimitives (resigned signature) 1700000060 {} := by
    refine verified_withSignature (decodeHex_hexEncode _) ?_ ?_ ?_ ?_ ?_
    · exact validate_ok_iff.2 ⟨⟨_, decodeHex_hexEncode _⟩, by decide, by decide, by decide⟩
    · simp only [resignedPrimitives, listPrimitives, decide_true]
    · simpa [resignedPrimitives, UnsignedEvent.id] using hsig
    · have hpk : resignedList.pubkey.utf8ByteSize = 2 * 32 := (utf8ByteSize_hexEncode _).trans (by rw [listAuthor.property])
      exact (size_withSignature_le hpk).trans (by decide)
    · decide
  have hmerge : mergeTags secureUrls nip65Tag {} [] [["r", "wss://a.example/"]] = .ok [⟨"wss://a.example/", true, true⟩] := by
    decide +kernel
  exact parseRelayList_ok_iff.2 ⟨hvrf, rfl, rfl, hmerge, by decide, rfl, rfl⟩

def resignedCache (signature : Bytes 64) : VerifiedRelayListCache :=
  ⟨(∅ : ExtTreeMap String VerifiedRelayListCacheRecord).insert (hexEncode listAuthor.val) (resignedRecord signature)⟩

theorem publicKey_resignedRelays : resignedRelays.publicKey = hexEncode listAuthor.val := rfl

theorem records_resignedCache (signature : Bytes 64) :
    (resignedCache signature).records[hexEncode listAuthor.val]? = some (resignedRecord signature) :=
  ExtTreeMap.getElem?_insert_self

theorem insertEvent_resigned (hsig : signature = zeroSignature ∨ signature = oneSignature) :
    VerifiedRelayListCache.insertEvent resignedPrimitives secureUrls {} (resigned signature) 1700000060 1700000060 {} {} =
      (.ok .stored, resignedCache signature) := by
  have hp := parse_resigned hsig
  obtain ⟨hvrf, -⟩ := parseRelayList_ok_iff.1 hp
  have hencodes : ∃ bytes, (resignedCache signature).toJson = .ok bytes := by
    have hver : (Json.num relayListCacheFormat.version).size = 1 := rfl
    have hb : relayListCacheFormat.maxBytes = 1048576 := rfl
    have hev : (resignedRecord signature).persisted.sourceEvent.json.size ≤ 262144 := hvrf.size
    refine CacheFormat.toJson_singleton ?_
    rw [hver, hb]
    omega
  obtain ⟨bytes, hb⟩ := hencodes
  have hroom : (∅ : ExtTreeMap String VerifiedRelayListCacheRecord).size < maxCachedRelayLists := by
    rw [ExtTreeMap.size_empty]
    decide
  have hsto : insertUnder (fun records => VerifiedRelayListCache.toJson ⟨records⟩) maxCachedRelayLists .cacheFull
      (VerifiedRelayListCache.rule (resigned signature)) resignedRelays.publicKey (resignedRecord signature) ∅ =
        (Except.ok Mutation.stored, (resignedCache signature).records) := by
    rw [publicKey_resignedRelays]
    exact insertUnder_new ExtTreeMap.getElem?_empty hroom hb
  exact VerifiedRelayListCache.insertEvent_eq (UInt64.le_refl _) (by decide : (1700000000 : UInt64) ≤ 1700000060) hp hsto

theorem insertEvent_resigned_again (ho : other = zeroSignature ∨ other = oneSignature) :
    (resignedCache signature).insertEvent resignedPrimitives secureUrls (resigned other) 1700000060 1700000060 {} {} =
      (.ok .unchanged, resignedCache signature) := by
  have hrule : VerifiedRelayListCache.rule (resigned other) (resignedRecord signature) = .keep := by
    unfold VerifiedRelayListCache.rule
    have htime : ∀ signature, (resigned signature).createdAt = 1700000000 := fun _ => rfl
    have hid : ∀ signature, (resigned signature).id = hexEncode (resignedList.id resignedPrimitives).val := fun _ => rfl
    have hsource : (resignedRecord signature).sourceEvent = resigned signature := rfl
    rw [hsource, htime, htime, hid, hid, if_neg (UInt64.lt_irrefl _), if_pos ⟨rfl, le_refl _⟩]
  have hins : insertUnder (fun records => VerifiedRelayListCache.toJson ⟨records⟩) maxCachedRelayLists .cacheFull
      (VerifiedRelayListCache.rule (resigned other)) resignedRelays.publicKey (resignedRecord other)
      (resignedCache signature).records = (Except.ok Mutation.unchanged, (resignedCache signature).records) := by
    unfold insertUnder
    rw [publicKey_resignedRelays, records_resignedCache]
    dsimp only
    rw [hrule]
  exact VerifiedRelayListCache.insertEvent_eq (UInt64.le_refl _) (by decide : (1700000000 : UInt64) ≤ 1700000060)
    (parse_resigned ho) hins

theorem insertEvents_resigned (hsig : signature = zeroSignature ∨ signature = oneSignature)
    (ho : other = zeroSignature ∨ other = oneSignature) :
    VerifiedRelayListCache.insertEvents resignedPrimitives secureUrls {} [resignedInsertion signature, resignedInsertion other] =
      ([(resigned signature, .ok .stored), (resigned other, .ok .unchanged)], resignedCache signature) :=
  VerifiedRelayListCache.insertEvents_pair (insertEvent_resigned hsig) (insertEvent_resigned_again ho)

/-- The list with its two signatures, in both orders: the caches keep one id. -/
theorem resigned_lists_converge :
    ∃ results results' cache cache' record record',
      VerifiedRelayListCache.insertEvents resignedPrimitives secureUrls {}
        [resignedInsertion zeroSignature, resignedInsertion oneSignature] = (results, cache) ∧
      VerifiedRelayListCache.insertEvents resignedPrimitives secureUrls {}
        [resignedInsertion oneSignature, resignedInsertion zeroSignature] = (results', cache') ∧
      cache.records[hexEncode listAuthor.val]? = some record ∧ cache'.records[hexEncode listAuthor.val]? = some record' ∧
      record.sourceEvent.id = record'.sourceEvent.id := by
  have hzero := insertEvents_resigned (.inl rfl) (.inr rfl)
  have hone := insertEvents_resigned (.inr rfl) (.inl rfl)
  rcases relay_list_caches_converge hzero hone (by simp [VerifiedRelayListCache.considers])
    (by simp [VerifiedRelayListCache.considers]) (by simp [or_comm]) (hexEncode listAuthor.val) with
    ⟨-, hnone, -⟩ | ⟨record, record', hrecord, hrecord', -, -, hid, -⟩
  · rw [records_resignedCache] at hnone
    cases hnone
  · exact ⟨_, _, _, _, record, record', hzero, hone, hrecord, hrecord', hid⟩

/-- The signature that is kept depends on the order. -/
theorem resigned_lists_differ :
    ∃ results results' cache cache',
      VerifiedRelayListCache.insertEvents resignedPrimitives secureUrls {}
        [resignedInsertion zeroSignature, resignedInsertion oneSignature] = (results, cache) ∧
      VerifiedRelayListCache.insertEvents resignedPrimitives secureUrls {}
        [resignedInsertion oneSignature, resignedInsertion zeroSignature] = (results', cache') ∧
      (∀ result ∈ results ++ results', ∃ mutation, result.2 = .ok mutation) ∧
      (cache.records[hexEncode listAuthor.val]?.map (·.sourceEvent)) ≠
        cache'.records[hexEncode listAuthor.val]?.map (·.sourceEvent) := by
  refine ⟨_, _, _, _, insertEvents_resigned (.inl rfl) (.inr rfl), insertEvents_resigned (.inr rfl) (.inl rfl), by simp, ?_⟩
  rw [records_resignedCache, records_resignedCache, Option.map_some, Option.map_some]
  intro heq
  have hsig : ∀ signature, (resignedRecord signature).sourceEvent.sig = hexEncode signature.val := fun _ => rfl
  have hsignature := congrArg SignedEvent.sig (Option.some.inj heq)
  rw [hsig, hsig] at hsignature
  exact absurd (hexEncode_val_inj hsignature) (by decide +kernel)

end OmaChat.Nostr

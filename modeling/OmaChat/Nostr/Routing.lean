import OmaChat.Nostr.Inbox
import OmaChat.Nostr.Persistence

/-!
# Routes of direct messages

`dm_relay_routing.rs`, `dm_routed_publish.rs` and the start of `dm_delivery.rs`: the relays that a gift wrap is published to
are those of the recipient's inbox, from the cache or as it was discovered, or those that the program was started with if
nothing is known of the recipient.

* `FromOwnList`, `FromBootstrap` : where the relays of a plan come from;
* `dm_routes_sound` : a plan is for its recipient, and its relays have one source.
-/

namespace OmaChat.Nostr
open Wire BoundedMap
open Std (ExtTreeMap)

variable {bootstrapRelays : List String} {inbox : VerifiedDmInbox} {now : UInt64} {p : Primitives} {recipient : Bytes 32}
  {record : VerifiedDmRelayRecord} {urls : RelayUrlLibrary}

/-! ## Routes -/

structure DmRelayRoutingPolicy where
  freshnessWindowSeconds : UInt64 := 30 * 24 * 60 * 60
  allowStaleOffline : Bool := false
  allowBootstrapWhenMissing : Bool := false

inductive DmRelayRouteProvenance where
  | verifiedFresh (sourceEventId : Bytes 32)
  | verifiedOfflineStale (sourceEventId : Bytes 32)
  | bootstrapMissingMetadata
  deriving DecidableEq

structure DmRelayRoute where
  recipientPublicKey : Bytes 32
  relayUrls : List String
  provenance : DmRelayRouteProvenance
  requiredAcknowledgements : Nat

inductive DmRelayRoutingError where
  | invalidRecipientPublicKey
  | invalidSourceEventId
  | missingMetadata
  | staleMetadata
  | clockRollback
  | noRelayEndpoints
  | tooManyRelayEndpoints
  | relayEndpointTooLong
  | invalidRelayEndpoint
  | duplicateRelayEndpoint
  deriving DecidableEq

def route (recipientPublicKey : Bytes 32) (relayUrls : List String) (provenance : DmRelayRouteProvenance) : DmRelayRoute :=
  ⟨recipientPublicKey, relayUrls, provenance, min relayUrls.length 2⟩

def routeVerified (record : VerifiedDmRelayRecord) (stale : Bool) : Except DmRelayRoutingError DmRelayRoute :=
  if record.relays = [] then .error .noRelayEndpoints
  else
    let provenance : DmRelayRouteProvenance :=
      if stale then .verifiedOfflineStale record.sourceEventId else .verifiedFresh record.sourceEventId
    .ok (route record.recipientPubkey record.relays provenance)

def routeBootstrap (urls : RelayUrlLibrary) (recipientPublicKey : Bytes 32) (bootstrapRelays : List String) :
    Except DmRelayRoutingError DmRelayRoute :=
  if bootstrapRelays = [] then .error .noRelayEndpoints
  else if maxDmRelaysPerRecipient < bootstrapRelays.length then .error .tooManyRelayEndpoints
  else do
    let canonical ← collectEndpoints urls .relayEndpointTooLong .invalidRelayEndpoint .duplicateRelayEndpoint
      (refusedDmRelay urls)
      [] bootstrapRelays
    .ok (route recipientPublicKey (canonical.insertionSort (· ≤ ·)) .bootstrapMissingMetadata)

def routeDmRelays (p : Primitives) (urls : RelayUrlLibrary) (cache : VerifiedDmRelayCache) (recipientPubkey : Bytes 32)
    (now : UInt64) (bootstrapRelays : List String) (policy : DmRelayRoutingPolicy) : Except DmRelayRoutingError DmRelayRoute :=
  if p.keyValid recipientPubkey = false then .error .invalidRecipientPublicKey
  else
    match cache.lookup recipientPubkey now policy.freshnessWindowSeconds with
    | .fresh record => routeVerified record false
    | .offlineStale record => if policy.allowStaleOffline then routeVerified record true else .error .staleMetadata
    | .unusableClockRollback _ => .error .clockRollback
    | .missing =>
      if policy.allowBootstrapWhenMissing then routeBootstrap urls recipientPubkey bootstrapRelays else .error .missingMetadata

def routeVerifiedDmInbox (p : Primitives) (inbox : VerifiedDmInbox) : Except DmRelayRoutingError DmRelayRoute :=
  match (hexDecode inbox.recipientPublicKey).bind (Bytes.ofList? 32) with
  | none => .error .invalidRecipientPublicKey
  | some recipientPublicKey =>
    if p.keyValid recipientPublicKey = false then .error .invalidRecipientPublicKey
    else
      match (hexDecode inbox.sourceEventId).bind (Bytes.ofList? 32) with
      | none => .error .invalidSourceEventId
      | some sourceEventId =>
        if inbox.relayUrls = [] then .error .noRelayEndpoints
        else .ok (route recipientPublicKey inbox.relayUrls (.verifiedFresh sourceEventId))

/-! ## Plans -/

structure RoutedDmPublishPlan where
  event : SignedEvent
  recipientPublicKey : Bytes 32
  relayUrls : List String
  provenance : DmRelayRouteProvenance
  requiredAcknowledgements : Nat

inductive RoutedDmPublishError where
  | invalidEvent (error : EventError)
  | wrongKind
  | recipientMismatch
  | emptyRoute
  deriving DecidableEq

def wrapRecipients (event : SignedEvent) : List Tag := event.tags.filter fun tag => tag.head? = some "p"

def planRoutedDmPublish (p : Primitives) (event : SignedEvent) (route : DmRelayRoute) (now : UInt64)
    (eventLimits : EventLimits) : Except RoutedDmPublishError RoutedDmPublishPlan := do
  (event.verify p now eventLimits).mapError .invalidEvent
  if event.kind ≠ giftWrapKind then .error .wrongKind
  else
    let recipient := hexEncode route.recipientPublicKey.val
    match wrapRecipients event with
    | [tag] =>
      if tag.length ≠ 2 ∨ tag[1]? ≠ some recipient then .error .recipientMismatch
      else if route.relayUrls = [] ∨ route.requiredAcknowledgements = 0 then .error .emptyRoute
      else .ok ⟨event, route.recipientPublicKey, route.relayUrls, route.provenance, route.requiredAcknowledgements⟩
    | _ => .error .recipientMismatch

/-! ## Deliveries -/

/-- The errors of `DmDeliveryError` that `spawn` returns. -/
inductive DmDeliveryError where
  | invalidPlan
  | ephemeralAuthenticationIdentity
  | pool (error : RelayPoolError)
  deriving DecidableEq

/-- `RelayPool::spawn` on relays that `connect` connects. -/
def spawnPool {C : Type} (connect : String → Except RelayError C) (relayUrls : List String) (config : RelayPoolConfig) :
    Except RelayPoolError (List C) :=
  if relayUrls = [] then .error (.invalidConfig "at least one relay is required")
  else if config.acknowledgementThreshold = 0 ∨ relayUrls.length < config.acknowledgementThreshold then
    .error (.invalidConfig "acknowledgement threshold must fit the relay count")
  else if config.dedupCapacity = 0 ∨ config.dedupTtl = 0 then
    .error (.invalidConfig "dedup capacity and TTL must be non-zero")
  else (relayUrls.mapM connect).mapError .connection

/-- `AuthenticatedDmDelivery::spawn`. The connections carry the signer and the transport route. -/
def spawnDelivery {C : Type} (connect : String → Except RelayError C) (plan : RoutedDmPublishPlan) (signer : Bytes 32) :
    Except DmDeliveryError (List C) :=
  let authenticationPublicKey := hexEncode signer.val
  if authenticationPublicKey = plan.event.pubkey then .error .ephemeralAuthenticationIdentity
  else if plan.relayUrls = [] ∨ plan.requiredAcknowledgements = 0 ∨ plan.relayUrls.length < plan.requiredAcknowledgements then
    .error .invalidPlan
  else
    (spawnPool connect plan.relayUrls { acknowledgementThreshold := plan.requiredAcknowledgements }).mapError .pool

/-! ## The URLs of a list -/

section
variable {limits : RelayDiscoveryLimits} {rawUrl : String} {relays result : List RelayPreference}

theorem canonicalText_of_normalizes {url : String} (h : normalizeRelayUrl urls rawUrl limits = .ok url) :
    canonicalText urls rawUrl = some url := by
  unfold normalizeRelayUrl at h
  obtain ⟨-, h⟩ := refuse_ok_iff.1 h
  rw [canonicalText]
  cases hp : urls.parse rawUrl with
  | none =>
    rw [hp] at h
    cases h
  | some parsed =>
    rw [hp] at h
    obtain ⟨-, h⟩ := refuse_ok_iff.1 h
    exact congrArg some (Except.ok.inj h)

theorem mergeRelay_urls {read write : Bool} (h : mergeRelay urls relays rawUrl read write limits = .ok result) :
    ∃ url, canonicalText urls rawUrl = some url ∧
      (result.map (·.url) = relays.map (·.url) ∨
        url ∉ relays.map (·.url) ∧ result.map (·.url) = relays.map (·.url) ++ [url]) := by
  obtain ⟨url, hurl, h⟩ := bind_ok_iff.1 h
  refine ⟨url, canonicalText_of_normalizes hurl, ?_⟩
  cases hfind : relays.findIdx? (·.url = url) with
  | some existing =>
    rw [hfind] at h
    cases h
    left
    refine List.ext_getElem? fun n => ?_
    rw [List.getElem?_map, List.getElem?_map, List.getElem?_modify]
    cases relays[n]? with
    | none => rfl
    | some relay =>
      simp only [Option.map_eq_map, Option.map_some, Option.some.injEq]
      split_ifs
      · rfl
      · rfl
  | none =>
    rw [hfind] at h
    obtain ⟨-, h⟩ := refuse_ok_iff.1 h
    cases h
    right
    refine ⟨?_, by rw [List.map_append, List.map_singleton]⟩
    rw [List.findIdx?_eq_none_iff] at hfind
    simpa using hfind

theorem mergeTags_urls {tagRelay : TagReader} {tags : List Tag}
    (h : mergeTags urls tagRelay limits relays tags = .ok result) (hnd : (relays.map (·.url)).Nodup) :
    (result.map (·.url)).Nodup ∧ ∀ url ∈ result.map (·.url), url ∈ relays.map (·.url) ∨
      ∃ tag ∈ tags, ∃ rawUrl flags, tagRelay tag = .ok (some (rawUrl, flags)) ∧ canonicalText urls rawUrl = some url := by
  induction tags generalizing relays with
  | nil =>
    cases h
    exact ⟨hnd, fun url hurl => .inl hurl⟩
  | cons tag rest ih =>
    unfold mergeTags at h
    obtain ⟨relay, hr, h⟩ := bind_ok_iff.1 h
    cases relay with
    | none =>
      obtain ⟨hres, hurls⟩ := ih h hnd
      refine ⟨hres, fun url hurl => (hurls url hurl).imp_right ?_⟩
      rintro ⟨other, ho, htag⟩
      exact ⟨other, List.mem_cons_of_mem _ ho, htag⟩
    | some relay =>
      obtain ⟨rawUrl, flags⟩ := relay
      obtain ⟨merged, hmerged, h⟩ := bind_ok_iff.1 h
      obtain ⟨url, hurl, hmap⟩ := mergeRelay_urls hmerged
      have hnd' : (merged.map (·.url)).Nodup ∧ ∀ other ∈ merged.map (·.url), other ∈ relays.map (·.url) ∨
        other = url := by
        rcases hmap with hsame | ⟨hnew, happend⟩
        · rw [hsame]
          exact ⟨hnd, fun other ho => .inl ho⟩
        · rw [happend]
          refine ⟨hnd.append (List.nodup_singleton _) (by simpa using hnew), fun other ho => ?_⟩
          simpa using ho
      obtain ⟨hres, hurls⟩ := ih h hnd'.1
      refine ⟨hres, fun other ho => ?_⟩
      rcases hurls other ho with hmem | ⟨later, hl, htag⟩
      · rcases hnd'.2 other hmem with hold | rfl
        · exact .inl hold
        · exact .inr ⟨tag, List.mem_cons_self, rawUrl, flags, hr, hurl⟩
      · exact .inr ⟨later, List.mem_cons_of_mem _ hl, htag⟩

theorem nip17Tag_some {tag : Tag} {flags : Bool × Bool} (h : nip17Tag tag = .ok (some (rawUrl, flags))) :
    tag = ["relay", rawUrl] := by
  unfold nip17Tag at h
  split at h
  · cases h
    rfl
  · cases h
  · cases h

end

/-! ## Where the relays come from -/

/-- The relays are those of a list that the recipient signed. -/
def FromOwnList (p : Primitives) (urls : RelayUrlLibrary) (recipient : Bytes 32) (relays : List String) : Prop :=
  ∃ event now limits, Verified p event now limits ∧ event.kind = nip17DmRelayListKind ∧
    event.pubkey = hexEncode recipient.val ∧
    ∀ relay ∈ relays, ∃ rawUrl, ["relay", rawUrl] ∈ event.tags ∧ canonicalText urls rawUrl = some relay

/-- The relays are those that the program was started with. -/
def FromBootstrap (urls : RelayUrlLibrary) (bootstrapRelays relays : List String) : Prop :=
  ∀ relay ∈ relays, ∃ endpoint ∈ bootstrapRelays, canonicalText urls endpoint = some relay

section Sources
variable {limits : EventLimits} {policy : DmInboxPolicy}

theorem verifyDmInbox_relays {event : SignedEvent}
    (h : verifyDmInbox p urls event recipient now limits policy = .ok inbox) :
    inbox.relayUrls.Nodup ∧ FromOwnList p urls recipient inbox.relayUrls := by
  obtain ⟨-, list, hlist, hkey, -, -, -, rfl⟩ := verifyDmInbox_ok_iff.1 h
  obtain ⟨hvrf, hkind, -, hmerge, -, hauth, -⟩ := parseRelayList_ok_iff.1 hlist
  obtain ⟨hnd, hurls⟩ := mergeTags_urls hmerge List.nodup_nil
  refine ⟨hnd, event, now, limits, hvrf, hkind, hauth.symm.trans hkey, fun relay hr => ?_⟩
  rcases hurls relay hr with hnone | ⟨tag, htag, rawUrl, flags, hreader, htext⟩
  · cases hnone
  · exact ⟨rawUrl, nip17Tag_some hreader ▸ htag, htext⟩

theorem map_text_eq {R : String → RelayUrl → Prop} {endpoints : List String} {parsed : List RelayUrl}
    (h : List.Forall₂ R endpoints parsed)
    (htext : ∀ endpoint ∈ endpoints, ∀ url, R endpoint url → url.text = endpoint) :
    parsed.map (·.text) = endpoints := by
  induction h with
  | nil => rfl
  | cons hurl _ ih =>
    rw [List.map_cons, htext _ List.mem_cons_self _ hurl,
      ih fun endpoint hend => htext endpoint (List.mem_cons_of_mem _ hend)]

theorem Canonicalized.perm (again : ∀ text url, urls.parse text = some url → urls.parse url.text = some url)
    {draft : VerifiedDmRelayRecord} (h : Canonicalized urls draft record)
    (hcan : ∀ endpoint ∈ draft.relays, ∃ text, canonicalText urls text = some endpoint) :
    record.relays.Perm draft.relays := by
  obtain ⟨parsed, hparsed, hperm⟩ := h.relays
  have heq : parsed.map (·.text) = draft.relays := by
    refine map_text_eq hparsed fun endpoint hend url hp => ?_
    obtain ⟨text, htext⟩ := hcan endpoint hend
    obtain ⟨url', hurl', rfl⟩ := Option.map_eq_some_iff.1 htext
    rw [again text url' hurl'] at hp
    rw [Option.some.inj hp.1]
  rwa [heq] at hperm

theorem VerifiedDmRelayRecord.Made.relays (again : ∀ text url, urls.parse text = some url → urls.parse url.text = some url)
    (h : record.Made p urls limits policy) : record.relays.Nodup ∧ FromOwnList p urls record.recipientPubkey record.relays := by
  obtain ⟨now, inbox, draft, hin, hdraft, hrec⟩ := h
  obtain ⟨-, event, time, eventLimits, hvrf, hkind, hauth, hrs⟩ := verifyDmInbox_relays hin
  have hcan := canonicalizeAndValidate_ok hrec
  -- the inbox has texts of URLs; so has the draft, and the record has the same
  obtain ⟨-, list, hlist, -, -, -, -, rfl⟩ := verifyDmInbox_ok_iff.1 hin
  obtain ⟨hsigned, -⟩ := parseRelayList_ok_iff.1 hlist
  rw [toCacheRecord_eq rfl (decodeHex_ok_iff.1 hsigned.id)] at hdraft
  have hdrafted := canonicalizeAndValidate_ok hdraft
  have hf := hdrafted.perm again fun relay hr => ?_
  · have hsecond := hcan.perm again fun relay hr => ?_
    · refine ⟨hcan.nodup, event, time, eventLimits, hvrf, hkind, hauth, fun relay hr => ?_⟩
      exact hrs relay (hf.mem_iff.1 (hsecond.mem_iff.1 hr))
    · obtain ⟨rawUrl, -, htext⟩ := hrs relay (hf.mem_iff.1 hr)
      exact ⟨rawUrl, htext⟩
  · obtain ⟨rawUrl, -, htext⟩ := hrs relay hr
    exact ⟨rawUrl, htext⟩

theorem routeBootstrap_ok {result : DmRelayRoute} (h : routeBootstrap urls recipient bootstrapRelays = .ok result) :
    ∃ relays, result = route recipient relays .bootstrapMissingMetadata ∧ relays.Nodup ∧
      FromBootstrap urls bootstrapRelays relays := by
  unfold routeBootstrap at h
  obtain ⟨-, h⟩ := refuse_ok_iff.1 h
  obtain ⟨-, h⟩ := refuse_ok_iff.1 h
  obtain ⟨canonical, hcollect, hok⟩ := bind_ok_iff.1 h
  cases hok
  obtain ⟨parsed, hparsed, rfl, hnd⟩ := collectEndpoints_ok List.nodup_nil hcollect
  have hperm := List.perm_insertionSort (· ≤ ·) ([] ++ parsed.map (·.text))
  refine ⟨_, rfl, hperm.nodup_iff.2 hnd, fun relay hr => ?_⟩
  obtain ⟨url, hurl, rfl⟩ := List.mem_map.1 (hperm.mem_iff.1 hr)
  obtain ⟨endpoint, hend, hp, -⟩ := (exists_of_forall₂ hparsed).2 url hurl
  exact ⟨endpoint, hend, by rw [canonicalText, hp, Option.map_some]⟩

end Sources

/-! ## Sound plans -/

/-- A plan for a recipient: it is for a wrap with this recipient only, its relays are distinct, as many of them as it asks for
can acknowledge it, and a delivery of it is not refused because of the plan. -/
structure SoundPlan (recipient : Bytes 32) (wrap : SignedEvent) (plan : RoutedDmPublishPlan) : Prop where
  event : plan.event = wrap
  kind : wrap.kind = giftWrapKind
  recipients : wrapRecipients wrap = [["p", hexEncode recipient.val]]
  recipient : plan.recipientPublicKey = recipient
  distinct : plan.relayUrls.Nodup
  quorum : 1 ≤ plan.requiredAcknowledgements ∧ plan.requiredAcknowledgements ≤ plan.relayUrls.length
  delivers : ∀ (C : Type) (connect : String → Except RelayError C) (signer : Bytes 32),
    spawnDelivery connect plan signer ≠ .error .invalidPlan ∧
      ∀ message, spawnDelivery connect plan signer ≠ .error (.pool (.invalidConfig message))

variable {plan : RoutedDmPublishPlan} {relays : List String} {provenance : DmRelayRouteProvenance} {wrap : SignedEvent}
  {limits : EventLimits}

theorem spawnDelivery_plan {C : Type} {connect : String → Except RelayError C} {signer : Bytes 32}
    (hquorum : 1 ≤ plan.requiredAcknowledgements ∧ plan.requiredAcknowledgements ≤ plan.relayUrls.length) :
    spawnDelivery connect plan signer ≠ .error .invalidPlan ∧
      ∀ message, spawnDelivery connect plan signer ≠ .error (.pool (.invalidConfig message)) := by
  have hsome : plan.relayUrls ≠ [] := by
    rw [← List.length_pos_iff]
    omega
  have hplan : ¬ (plan.relayUrls = [] ∨ plan.requiredAcknowledgements = 0 ∨
      plan.relayUrls.length < plan.requiredAcknowledgements) := by
    rintro (hnone | hzero | hfew)
    · exact hsome hnone
    · omega
    · omega
  have hthreshold : ¬ (plan.requiredAcknowledgements = 0 ∨ plan.relayUrls.length < plan.requiredAcknowledgements) := by omega
  have hpool : spawnPool connect plan.relayUrls { acknowledgementThreshold := plan.requiredAcknowledgements } =
      (plan.relayUrls.mapM connect).mapError .connection := by
    unfold spawnPool
    have hdedup : ¬ ((10000 : Nat) = 0 ∨ 5 * 60 * 1000 = 0) := by decide
    rw [if_neg hsome, if_neg hthreshold, if_neg hdedup]
  unfold spawnDelivery
  dsimp only
  rw [hpool, if_neg hplan]
  split_ifs with hephemeral
  · exact ⟨by simp, by simp⟩
  · cases plan.relayUrls.mapM connect with
    | ok connections => exact ⟨by simp [Except.mapError], by simp [Except.mapError]⟩
    | error error => exact ⟨by simp [Except.mapError], by simp [Except.mapError]⟩

theorem soundPlan_of_route
        (hnd : relays.Nodup)
    (h : planRoutedDmPublish p wrap (route recipient relays provenance) now limits = .ok plan) :
    SoundPlan recipient wrap plan ∧ plan.relayUrls = relays := by
  obtain ⟨-, h⟩ := then_ok_iff.1 h
  obtain ⟨hkind, h⟩ := refuse_ok_iff.1 h
  dsimp only at h
  split at h
  · rename_i tag htags
    obtain ⟨htag, h⟩ := refuse_ok_iff.1 h
    obtain ⟨hroute, h⟩ := refuse_ok_iff.1 h
    cases h
    have htagged : tag.head? = some "p" := by
      have hmem : tag ∈ wrapRecipients wrap := by rw [htags]; exact List.mem_singleton_self _
      exact of_decide_eq_true (List.mem_filter.1 hmem).2
    have hname : tag = ["p", hexEncode recipient.val] := by
      simp only [not_or, ne_eq, not_not] at htag
      obtain ⟨hlen, hrcpt⟩ := htag
      match tag with
      | [first, second] =>
        cases htagged
        cases hrcpt
        rfl
    have hquorum : 1 ≤ min relays.length 2 ∧ min relays.length 2 ≤ relays.length := by
      simp only [route, not_or] at hroute
      omega
    exact ⟨⟨rfl, not_not.1 hkind, hname ▸ htags, rfl, hnd, hquorum,
      fun C connect signer => spawnDelivery_plan hquorum⟩, rfl⟩
  · cases h

theorem planRoutedDmPublish_eq (hvrf : Verified p wrap now limits) (hkind : wrap.kind = giftWrapKind)
    (htags : wrapRecipients wrap = [["p", hexEncode recipient.val]]) (hsome : relays ≠ []) :
    planRoutedDmPublish p wrap (route recipient relays provenance) now limits =
      .ok ⟨wrap, recipient, relays, provenance, min relays.length 2⟩ := by
  have hquorum : min relays.length 2 ≠ 0 := by
    have hlen := List.length_pos_iff.2 hsome
    omega
  have hrcpt : ¬ (["p", hexEncode recipient.val].length ≠ 2 ∨
      ["p", hexEncode recipient.val][1]? ≠ some (hexEncode recipient.val)) := by simp
  refine then_ok_iff.2 ⟨mapError_ok_iff.2 (verify_ok_iff.2 hvrf), refuse_ok_iff.2 ⟨not_not.2 hkind, ?_⟩⟩
  rw [htags]
  exact refuse_ok_iff.2 ⟨hrcpt, refuse_ok_iff.2 ⟨not_or.2 ⟨hsome, hquorum⟩, rfl⟩⟩

section Reachable
/-- The cache after verified insertions, each under limits and a policy of its own. -/
def verifiedCache (p : Primitives) (urls : RelayUrlLibrary)
    (insertions : List (EventLimits × DmInboxPolicy × VerifiedInsertion)) : VerifiedDmRelayCache :=
  inserts (fun cache i => VerifiedDmRelayCache.insertVerified p urls i.1 i.2.1 cache i.2.2) {} insertions

variable {result : DmRelayRoute} {cache : VerifiedDmRelayCache} {policy : DmRelayRoutingPolicy}

theorem records_verifiedCache (insertions : List (EventLimits × DmInboxPolicy × VerifiedInsertion)) {key : String}
    (h : (verifiedCache p urls insertions).records[key]? = some record) :
    key = hexEncode record.recipientPubkey.val ∧ ∃ limits policy, record.Made p urls limits policy := by
  have hguarded : Guarded (fun records => VerifiedDmRelayCache.toJson ⟨records⟩) 4096
      (fun key record => key = hexEncode record.recipientPubkey.val ∧ ∃ limits policy, record.Made p urls limits policy)
      (fun record => record.sourceCreatedAt.toNat) VerifiedDmRelayCache.records
      fun cache (i : EventLimits × DmInboxPolicy × VerifiedInsertion) =>
        VerifiedDmRelayCache.insertVerified p urls i.1 i.2.1 cache i.2.2 := by
    refine ⟨VerifiedDmRelayCache.records_injective, fun cache i => ?_⟩
    rcases (VerifiedDmRelayCache.guarded_insertVerified p urls i.1 i.2.1).step cache i.2.2 with
      hrefused | ⟨key, record, rule, ⟨hkey, hmade⟩, hstep⟩
    · exact .inl hrefused
    · exact .inr ⟨key, record, rule, ⟨hkey, i.1, i.2.1, hmade⟩, hstep⟩
  have hempty : ∀ (k : String) (r : VerifiedDmRelayRecord), ({} : VerifiedDmRelayCache).records[k]? = some r →
      k = hexEncode r.recipientPubkey.val ∧ ∃ limits policy, r.Made p urls limits policy := by
    intro k r hr
    simp at hr
  exact hguarded.all hempty insertions key record h

theorem routeVerified_ok {stale : Bool}
    (h : routeVerified record stale = .ok result) :
    ∃ provenance, result = route record.recipientPubkey record.relays provenance := by
  obtain ⟨-, h⟩ := refuse_ok_iff.1 h
  exact ⟨_, (Except.ok.inj h).symm⟩

theorem lookup_cases (cache : VerifiedDmRelayCache) (recipient : Bytes 32) (now window : UInt64) :
    cache.records[hexEncode recipient.val]? = none ∧ cache.lookup recipient now window = .missing ∨
    ∃ record, cache.records[hexEncode recipient.val]? = some record ∧
      (cache.lookup recipient now window = .fresh record ∨ cache.lookup recipient now window = .offlineStale record ∨
        cache.lookup recipient now window = .unusableClockRollback record) := by
  unfold VerifiedDmRelayCache.lookup
  cases cache.records[hexEncode recipient.val]? with
  | none => exact .inl ⟨rfl, rfl⟩
  | some record =>
    refine .inr ⟨record, rfl, ?_⟩
    dsimp only
    split_ifs
    · exact .inr (.inr rfl)
    · exact .inl rfl
    · exact .inr (.inl rfl)

theorem routeDmRelays_ok (h : routeDmRelays p urls cache recipient now bootstrapRelays policy = .ok result) :
    (∃ record provenance, cache.records[hexEncode recipient.val]? = some record ∧
      result = route record.recipientPubkey record.relays provenance) ∨
    cache.records[hexEncode recipient.val]? = none ∧ policy.allowBootstrapWhenMissing = true ∧
      routeBootstrap urls recipient bootstrapRelays = .ok result := by
  obtain ⟨-, h⟩ := refuse_ok_iff.1 h
  rcases lookup_cases cache recipient now policy.freshnessWindowSeconds with
    ⟨hnone, hlookup⟩ | ⟨record, hrec, hlookup | hlookup | hlookup⟩
  · rw [hlookup] at h
    dsimp only at h
    split_ifs at h with hallowed
    exact .inr ⟨hnone, hallowed, h⟩
  · rw [hlookup] at h
    obtain ⟨provenance, hres⟩ := routeVerified_ok h
    exact .inl ⟨record, provenance, hrec, hres⟩
  · rw [hlookup] at h
    dsimp only at h
    split_ifs at h
    obtain ⟨provenance, hres⟩ := routeVerified_ok h
    exact .inl ⟨record, provenance, hrec, hres⟩
  · rw [hlookup] at h
    cases h

theorem routeDmRelays_fresh (hv : p.keyValid recipient = true)
    (hrec : cache.records[hexEncode recipient.val]? = some record) (htime : record.sourceCreatedAt ≤ now)
    (hfresh : now - record.sourceCreatedAt ≤ policy.freshnessWindowSeconds) (hsome : record.relays ≠ []) :
    routeDmRelays p urls cache recipient now bootstrapRelays policy =
      .ok (route record.recipientPubkey record.relays (.verifiedFresh record.sourceEventId)) := by
  have hlookup : cache.lookup recipient now policy.freshnessWindowSeconds = .fresh record := by
    unfold VerifiedDmRelayCache.lookup
    rw [hrec]
    dsimp only
    rw [if_neg (UInt64.not_lt.2 htime), if_pos hfresh]
  refine refuse_ok_iff.2 ⟨by rw [hv]; exact Bool.noConfusion, ?_⟩
  rw [hlookup]
  exact refuse_ok_iff.2 ⟨hsome, rfl⟩

theorem routeVerifiedDmInbox_ok
    (hrcpt : inbox.recipientPublicKey = hexEncode recipient.val) (h : routeVerifiedDmInbox p inbox = .ok result) :
    ∃ provenance, result = route recipient inbox.relayUrls provenance := by
  unfold routeVerifiedDmInbox at h
  rw [hrcpt, hexDecode_hexEncode, Option.bind_some, Bytes.ofList?_val] at h
  obtain ⟨-, h⟩ := refuse_ok_iff.1 h
  cases hid : (hexDecode inbox.sourceEventId).bind (Bytes.ofList? 32) with
  | none =>
    rw [hid] at h
    cases h
  | some id =>
    rw [hid] at h
    obtain ⟨-, h⟩ := refuse_ok_iff.1 h
    exact ⟨_, (Except.ok.inj h).symm⟩

end Reachable

/-- **Routes of direct messages are sound.** Every plan for a route, from a cache of verified records or from a verified inbox,
is a sound plan for the recipient. Its relays are all from a list that the recipient has signed, or, only if the cache has no
record of the recipient and the policy allows it, all from the bootstrap list. -/
theorem dm_routes_sound {p : Primitives} {urls : RelayUrlLibrary}
    (again : ∀ text url, urls.parse text = some url → urls.parse url.text = some url)
    (recipient : Bytes 32) (wrap : SignedEvent)
    (now : UInt64) (limits : EventLimits) (plan : RoutedDmPublishPlan) :
    (∀ insertions time bootstrapRelays policy result,
      routeDmRelays p urls (verifiedCache p urls insertions) recipient time bootstrapRelays policy = .ok result →
      planRoutedDmPublish p wrap result now limits = .ok plan →
      SoundPlan recipient wrap plan ∧
        (FromOwnList p urls recipient plan.relayUrls ∨
          (verifiedCache p urls insertions).records[hexEncode recipient.val]? = none ∧
            policy.allowBootstrapWhenMissing = true ∧ FromBootstrap urls bootstrapRelays plan.relayUrls)) ∧
    ∀ event time eventLimits policy inbox result, verifyDmInbox p urls event recipient time eventLimits policy = .ok inbox →
      routeVerifiedDmInbox p inbox = .ok result → planRoutedDmPublish p wrap result now limits = .ok plan →
      SoundPlan recipient wrap plan ∧ FromOwnList p urls recipient plan.relayUrls := by
  constructor
  · intro insertions time bootstrapRelays policy result hroute hplan
    rcases routeDmRelays_ok hroute with ⟨record, provenance, hrecord, rfl⟩ | ⟨hnone, hallowed, hbootstrap⟩
    · obtain ⟨hkey, eventLimits, inboxPolicy, hmade⟩ := records_verifiedCache insertions hrecord
      obtain rfl := hexEncode_val_inj hkey
      obtain ⟨hnodup, hown⟩ := hmade.relays again
      obtain ⟨hsound, hrelays⟩ := soundPlan_of_route hnodup hplan
      exact ⟨hsound, .inl (hrelays ▸ hown)⟩
    · obtain ⟨relays, rfl, hnodup, hsource⟩ := routeBootstrap_ok hbootstrap
      obtain ⟨hsound, hrelays⟩ := soundPlan_of_route hnodup hplan
      exact ⟨hsound, .inr ⟨hnone, hallowed, hrelays ▸ hsource⟩⟩
  · intro event time eventLimits policy inbox result hinbox hroute hplan
    obtain ⟨hnodup, hown⟩ := verifyDmInbox_relays hinbox
    obtain ⟨-, list, -, -, -, -, -, rfl⟩ := verifyDmInbox_ok_iff.1 hinbox
    obtain ⟨provenance, rfl⟩ := routeVerifiedDmInbox_ok rfl hroute
    obtain ⟨hsound, hrelays⟩ := soundPlan_of_route hnodup hplan
    exact ⟨hsound, hrelays ▸ hown⟩

def exampleWrap : SignedEvent :=
  signed ⟨hexEncode (Bytes.replicate 32 1).val, 1700000000, giftWrapKind, [["p", hexEncode exampleAuthor.val]], "x"⟩
    (Bytes.replicate 32 1)

def examplePlan : RoutedDmPublishPlan :=
  ⟨exampleWrap, exampleAuthor, ["wss://relay.example/"], .verifiedFresh exampleInboxRecord.sourceEventId, 1⟩

theorem verified_exampleWrap : Verified unsealed exampleWrap 1700000060 {} := by
  apply transparent_verifies rfl
  · exact validate_ok_iff.2 ⟨⟨_, decodeHex_hexEncode _⟩, by decide, by decide, by decide⟩
  · exact le_trans (size_signed_le rfl) (by decide)
  · decide

theorem plan_exampleWrap :
    planRoutedDmPublish unsealed exampleWrap
      (route exampleAuthor ["wss://relay.example/"] (.verifiedFresh exampleInboxRecord.sourceEventId)) 1700000060 {} =
        .ok examplePlan :=
  planRoutedDmPublish_eq verified_exampleWrap rfl rfl (by simp)

theorem verifiedCache_example :
    verifiedCache unsealed exampleUrls [({}, {}, ⟨exampleInboxEvent, exampleAuthor, 1700000000, 1700000000⟩)] =
      exampleCache := by
  rw [verifiedCache, inserts, List.foldl_cons, List.foldl_nil, insertVerified_example]

theorem records_exampleCache : exampleCache.records[hexEncode exampleAuthor.val]? = some exampleInboxRecord :=
  ExtTreeMap.getElem?_insert_self

theorem route_example :
    routeDmRelays unsealed exampleUrls exampleCache exampleAuthor 1700000060 [] {} =
      .ok (route exampleAuthor ["wss://relay.example/"] (.verifiedFresh exampleInboxRecord.sourceEventId)) :=
  routeDmRelays_fresh rfl records_exampleCache (by decide : (1700000000 : UInt64) ≤ 1700000060)
    (by decide : (1700000060 : UInt64) - 1700000000 ≤ 30 * 24 * 60 * 60) (by decide : ["wss://relay.example/"] ≠ [])

/-- The wrap is published to the relay of the inbox. -/
theorem example_route_sound :
    ∃ result plan,
      routeDmRelays unsealed exampleUrls
        (verifiedCache unsealed exampleUrls [({}, {}, ⟨exampleInboxEvent, exampleAuthor, 1700000000, 1700000000⟩)])
        exampleAuthor 1700000060 [] {} = .ok result ∧
      planRoutedDmPublish unsealed exampleWrap result 1700000060 {} = .ok plan ∧
      plan.relayUrls = ["wss://relay.example/"] ∧ SoundPlan exampleAuthor exampleWrap plan ∧
      FromOwnList unsealed exampleUrls exampleAuthor plan.relayUrls := by
  have hroute := route_example
  rw [← verifiedCache_example] at hroute
  obtain ⟨hsound, hsource⟩ := (dm_routes_sound urlLaws_example.again exampleAuthor exampleWrap 1700000060 {} examplePlan).1
    _ _ _ _ _ hroute plan_exampleWrap
  rcases hsource with hown | ⟨hnone, -⟩
  · exact ⟨_, examplePlan, hroute, plan_exampleWrap, rfl, hsound, hown⟩
  · rw [verifiedCache_example, records_exampleCache] at hnone
    cases hnone

end OmaChat.Nostr

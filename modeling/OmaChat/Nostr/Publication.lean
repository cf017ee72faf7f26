import OmaChat.Nostr.DmRelayCache
import OmaChat.Nostr.Readers
import OmaChat.Nostr.Signed

/-!
# Relay lists that are published

`dm_relay_list.rs` and `relay_list.rs`: an author signs a list of relays, as the inbox of their direct messages or as their
preferences. The readers of `discovery.rs` and `inbox.rs` check the URLs by rules of their own.

* `mergeTags_published`, `parseRelayList_published` : a list of distinct URLs that the reader leaves as they are is read as
  it was written;
* `nip65_published_parses` : preferences are read as they were published, merged by URL and in order;
* `dm_published_accepted_iff` : an inbox is accepted exactly if none of its URLs has a query, which the reader refuses and
  the publisher does not.
-/

namespace OmaChat.Nostr
open Wire
open Std (ExtTreeMap)

variable {auxiliary secret : Bytes 32} {event : SignedEvent} {limits : RelayDiscoveryLimits} {now : UInt64}
  {relay : RelayPreference} {relays result : List RelayPreference} {tag : Tag} {tagRelay : TagReader} {tags : List Tag}
  {text : String} {url : RelayUrl} {α β : Type}

/-! ## Direct messages -/

/-- The errors of `DmRelayListError` that `create_dm_relay_list_with_aux` returns. -/
inductive DmRelayListError where
  | invalidKey (error : EventError)
  | invalidEvent (error : EventError)
  | invalidEndpoint
  | endpointTooLong
  | duplicateEndpoint
  | noRelays
  | tooManyRelays
  deriving DecidableEq

section Creation
variable (p : Primitives) (urls : RelayUrlLibrary)

def refusedInboxUrl (url : RelayUrl) : Bool :=
  url.scheme ≠ "wss" ∨ url.host = none ∨ url.username ≠ "" ∨ url.password ≠ none ∨ url.fragment ≠ none

/-- The loop of `canonical_relay_urls` -/
def collectRelayUrls : (canonical : List String) → List String → Except DmRelayListError (List String) :=
  collectEndpoints urls .endpointTooLong .invalidEndpoint .duplicateEndpoint refusedInboxUrl

def canonicalRelayUrls (relayUrls : List String) : Except DmRelayListError (List String) := do
  if relayUrls = [] then .error .noRelays
  else if maxDmRelaysPerRecipient < relayUrls.length then .error .tooManyRelays
  else
    let canonical ← collectRelayUrls urls [] relayUrls
    .ok (canonical.insertionSort (· ≤ ·))

def createDmRelayListWithAux (secretKey : Bytes 32) (createdAt : UInt64) (relayUrls : List String)
    (auxiliaryRandomness : Bytes 32) (eventLimits : EventLimits) : Except DmRelayListError SignedEvent := do
  let relayUrls ← canonicalRelayUrls urls relayUrls
  let publicKey ← (xonlyPublicKey p secretKey).mapError .invalidKey
  let event : UnsignedEvent :=
    ⟨hexEncode publicKey.val, createdAt, nip17DmRelayListKind, relayUrls.map fun relay => ["relay", relay], ""⟩
  (event.validate eventLimits).mapError .invalidEvent
  (event.signWithAux p secretKey auxiliaryRandomness eventLimits).mapError .invalidEvent

/-! ## Preferences -/

/-- The errors of `RelayListPublicationError` that `create_nip65_relay_list_with_aux` returns. -/
inductive RelayListPublicationError where
  | invalidKey (error : EventError)
  | invalidEvent (error : EventError)
  | invalidLimits
  | noRelays
  | tooManyRelays (maximum : Nat)
  | invalidPreference
  | invalidEndpoint
  /-- the `unreachable!` of the source -/
  | unreachable
  deriving DecidableEq

def canonicalEndpoint (endpoint : String) (maxUrlBytes : Nat) : Except RelayListPublicationError String :=
  if endpoint = "" ∨ maxUrlBytes < endpoint.utf8ByteSize then .error .invalidEndpoint
  else
    match urls.parse endpoint with
    | none => .error .invalidEndpoint
    | some url =>
      if (url.scheme ≠ "wss" ∧ ¬ (url.scheme = "ws" ∧ url.numericLoopback = true)) ∨ url.host = none ∨
          url.hasPort = false ∨ url.username ≠ "" ∨ url.password ≠ none ∨ url.query ≠ none ∨
            url.fragment ≠ none then
        .error .invalidEndpoint
      else .ok url.text

/-- The flags of a relay, joined with those that its URL has so far. -/
def joinFlags (relay : RelayPreference) (entry : Option (Bool × Bool)) : Option (Bool × Bool) :=
  let flags := entry.getD (false, false)
  some (flags.1 || relay.read, flags.2 || relay.write)

/-- The loop of `canonical_preferences` -/
def mergePreferences (limits : RelayDiscoveryLimits) :
    ExtTreeMap String (Bool × Bool) → List RelayPreference →
      Except RelayListPublicationError (ExtTreeMap String (Bool × Bool))
  | merged, [] => .ok merged
  | merged, relay :: rest => do
    if !relay.read ∧ !relay.write then .error .invalidPreference
    else
      let endpoint ← canonicalEndpoint urls relay.url limits.maxUrlBytes
      mergePreferences limits (merged.alter endpoint (joinFlags relay)) rest

def preferencesOf (merged : ExtTreeMap String (Bool × Bool)) : List RelayPreference :=
  merged.toList.map fun entry => ⟨entry.1, entry.2.1, entry.2.2⟩

def canonicalPreferences (relays : List RelayPreference) (limits : RelayDiscoveryLimits) :
    Except RelayListPublicationError (List RelayPreference) := do
  if limits.maxRelays = 0 ∨ limits.maxUrlBytes = 0 then .error .invalidLimits
  else if relays = [] then .error .noRelays
  else if limits.maxRelays < relays.length then .error (.tooManyRelays limits.maxRelays)
  else
    let merged ← mergePreferences urls limits ∅ relays
    .ok (preferencesOf merged)

def preferenceTag (relay : RelayPreference) : Except RelayListPublicationError Tag :=
  match relay.read, relay.write with
  | true, false => .ok ["r", relay.url, "read"]
  | false, true => .ok ["r", relay.url, "write"]
  | true, true => .ok ["r", relay.url]
  | false, false => .error .unreachable

def createNip65RelayListWithAux (secretKey : Bytes 32) (createdAt : UInt64) (relays : List RelayPreference)
    (auxiliaryRandomness : Bytes 32) (eventLimits : EventLimits) (discoveryLimits : RelayDiscoveryLimits) :
    Except RelayListPublicationError SignedEvent := do
  let relays ← canonicalPreferences urls relays discoveryLimits
  let publicKey ← (xonlyPublicKey p secretKey).mapError .invalidKey
  let tags ← relays.mapM preferenceTag
  let event : UnsignedEvent := ⟨hexEncode publicKey.val, createdAt, nip65RelayListKind, tags, ""⟩
  (event.validate eventLimits).mapError .invalidEvent
  (event.signWithAux p secretKey auxiliaryRandomness eventLimits).mapError .invalidEvent

end Creation

/-! ## Lists that are read as they were written -/

/-- What the URL library promises: it reads the text of a URL back, there is no URL without text, and the schemes of relays
have a port of their own. -/
structure UrlLaws (urls : RelayUrlLibrary) : Prop where
  again : ∀ text url, urls.parse text = some url → urls.parse url.text = some url
  empty : urls.parse "" = none
  port : ∀ text url, urls.parse text = some url → url.scheme = "ws" ∨ url.scheme = "wss" → url.hasPort = true

section Reading
variable {p : Primitives} {urls : RelayUrlLibrary}

theorem UrlLaws.text_ne (laws : UrlLaws urls) (h : urls.parse text = some url) : url.text ≠ "" := by
  intro hempty
  have hagain := laws.again text url h
  rw [hempty, laws.empty] at hagain
  cases hagain

/-- The tag says what the preference says, and the reader leaves its URL as it is. -/
def Readable (urls : RelayUrlLibrary) (limits : RelayDiscoveryLimits) (tagRelay : TagReader) (tagOf : RelayPreference → Tag)
    (relay : RelayPreference) : Prop :=
  tagRelay (tagOf relay) = .ok (some (relay.url, relay.read, relay.write)) ∧
    normalizeRelayUrl urls relay.url limits = .ok relay.url

variable {tagOf : RelayPreference → Tag}

theorem mergeRelay_new (hurl : normalizeRelayUrl urls relay.url limits = .ok relay.url) (hnew : relay.url ∉ relays.map (·.url))
    (hroom : relays.length < limits.maxRelays) :
    mergeRelay urls relays relay.url relay.read relay.write limits = .ok (relays ++ [relay]) := by
  have hfind : relays.findIdx? (·.url = relay.url) = none := by
    rw [List.findIdx?_eq_none_iff]
    intro other ho
    rw [decide_eq_false_iff_not]
    exact fun heq => hnew (heq ▸ List.mem_map_of_mem ho)
  refine bind_ok_iff.2 ⟨relay.url, hurl, ?_⟩
  rw [hfind]
  exact refuse_ok_iff.2 ⟨Nat.not_le.2 hroom, rfl⟩

theorem mergeTags_published (relays : List RelayPreference) :
    ∀ read : List RelayPreference, (∀ relay ∈ relays, Readable urls limits tagRelay tagOf relay) →
      ((read ++ relays).map (·.url)).Nodup → (read ++ relays).length ≤ limits.maxRelays →
        mergeTags urls tagRelay limits read (relays.map tagOf) = .ok (read ++ relays) := by
  induction relays with
  | nil =>
    intro read _ _ _
    rw [List.append_nil]
    rfl
  | cons relay rest ih =>
    intro read hreadable hnd hlen
    obtain ⟨⟨htag, hurl⟩, hrest⟩ := List.forall_mem_cons.1 hreadable
    have hsplit : read ++ relay :: rest = (read ++ [relay]) ++ rest := by simp
    have hnew : relay.url ∉ read.map (·.url) := by
      rw [List.map_append, List.map_cons] at hnd
      exact fun hmem => (List.disjoint_of_nodup_append hnd) hmem List.mem_cons_self
    have hroom : read.length < limits.maxRelays := by
      rw [List.length_append, List.length_cons] at hlen
      omega
    rw [List.map_cons, mergeTags, htag]
    show (mergeRelay urls read relay.url relay.read relay.write limits >>= _) = _
    rw [mergeRelay_new hurl hnew hroom, hsplit]
    rw [hsplit] at hnd hlen
    exact ih _ hrest hnd hlen

theorem parseRelayList_published {kind : UInt32} {eventLimits : EventLimits} (hvrf : Verified p event now eventLimits)
    (hkind : event.kind = kind) (htags : event.tags = relays.map tagOf) (hlimits : validateLimits limits = .ok ())
    (hreadable : ∀ relay ∈ relays, Readable urls limits tagRelay tagOf relay) (hnd : (relays.map (·.url)).Nodup)
    (hlen : relays.length ≤ limits.maxRelays) (hsome : relays ≠ []) :
    parseRelayList p urls kind tagRelay event now eventLimits limits = .ok ⟨event.pubkey, event.createdAt, relays⟩ := by
  refine parseRelayList_ok_iff.2 ⟨hvrf, hkind, hlimits, ?_, hsome, rfl, rfl⟩
  rw [htags]
  exact mergeTags_published relays [] hreadable hnd hlen

end Reading

/-! ## The length of a list -/

theorem size_strings_le (tag : Tag) :
    (Json.strings tag).size ≤ 2 + 3 * tag.length + 6 * (tag.map String.utf8ByteSize).sum := by
  have hfields : ((tag.map Json.str).map Json.size).sum ≤ 2 * tag.length + 6 * (tag.map String.utf8ByteSize).sum := by
    induction tag with
    | nil => simp
    | cons field rest ih =>
      have hf := Json.escapedSize_le field
      simp only [List.map_cons, List.sum_cons, List.length_cons, Json.size_str]
      omega
  rw [Json.strings, Json.size_arr, List.length_map]
  omega

theorem size_tagsJson_le {bound : Nat} (h : ∀ tag ∈ tags, (Json.strings tag).size ≤ bound) :
    (tagsJson tags).size ≤ 2 + tags.length * (bound + 1) := by
  have hsum : ((tags.map Json.strings).map Json.size).sum ≤ tags.length * bound := by
    rw [List.map_map]
    have hle := List.sum_le_card_nsmul (tags.map (Json.size ∘ Json.strings)) bound (by simpa using h)
    simpa using hle
  rw [tagsJson, Json.size_arr, List.length_map, Nat.mul_succ]
  omega

theorem verified_list {p : Primitives} (laws : SignatureLaws p) {event : UnsignedEvent}
    {result : SignedEvent} (h : event.signWithAux p secret auxiliary {} = .ok result) (hcont : event.content = "")
    (hlen : event.tags.length ≤ 16) (htags : ∀ tag ∈ event.tags, (Json.strings tag).size ≤ 6300)
    (htime : event.createdAt.toNat ≤ now.toNat + 15 * 60) : Verified p result now {} := by
  refine verified_of_signWithAux laws h ?_ htime
  obtain ⟨hv, -⟩ := signWithAux_ok_iff.1 h
  have hsize : (event.withSignature p (Bytes.replicate 64 0)).json.size ≤
      2000 + (tagsJson event.tags).size + Json.escapedSize event.content := size_withSignature_le (validate_ok hv).2
  have htagsSize := size_tagsJson_le htags
  have hempty : Json.escapedSize "" = 0 := by decide
  rw [size_withSignature, hcont, hempty] at hsize
  have hbd := Nat.mul_le_mul_right (6300 + 1) hlen
  omega

/-! ## The URLs of one host -/

def exampleUrl (query : Option String) (text : String) : RelayUrl :=
  ⟨"wss", some "relay.example", false, true, "", none, query, none, text⟩

/-- The URL of a host in two spellings, and with a query. -/
def exampleUrls : RelayUrlLibrary where
  parse text :=
    if text = "wss://relay.example" ∨ text = "wss://relay.example/" then some (exampleUrl none "wss://relay.example/")
    else if text = "wss://relay.example/?a=b" then some (exampleUrl (some "a=b") "wss://relay.example/?a=b")
    else none
  isLoopback _ := false

theorem urlLaws_example : UrlLaws exampleUrls where
  again := by
    intro text url h
    dsimp only [exampleUrls] at h
    split_ifs at h
    · cases h
      rfl
    · cases h
      rfl
  empty := rfl
  port := by
    intro text url h _
    dsimp only [exampleUrls] at h
    split_ifs at h
    · cases h
      rfl
    · cases h
      rfl

def exampleAuthor : Bytes 32 := Bytes.replicate 32 3

/-! ## Preferences are read as they were published -/

def canonicalText (urls : RelayUrlLibrary) (text : String) : Option String := (urls.parse text).map (·.text)

/-- The preferences merged by URL: in order, each URL once, and its flags joined. -/
structure Merged (urls : RelayUrlLibrary) (relays result : List RelayPreference) : Prop where
  sorted : result.Pairwise fun a b => a.url < b.url
  mem_iff : ∀ merged, merged ∈ result ↔ (∃ relay ∈ relays, canonicalText urls relay.url = some merged.url) ∧
    (merged.read = true ↔ ∃ relay ∈ relays, canonicalText urls relay.url = some merged.url ∧ relay.read = true) ∧
    (merged.write = true ↔ ∃ relay ∈ relays, canonicalText urls relay.url = some merged.url ∧ relay.write = true)

section Preferences
variable {p : Primitives} {urls : RelayUrlLibrary}

theorem Merged.nodup (h : Merged urls relays result) : (result.map (·.url)).Nodup :=
  List.pairwise_map.2 (h.sorted.imp fun hlt => ne_of_lt hlt)

theorem Merged.length_le (h : Merged urls relays result) : result.length ≤ relays.length := by
  have hsubset : result.map (·.url) ⊆ relays.filterMap fun relay => canonicalText urls relay.url := by
    intro url hurl
    obtain ⟨merged, hmerged, rfl⟩ := List.mem_map.1 hurl
    obtain ⟨⟨relay, hr, htext⟩, -⟩ := (h.mem_iff merged).1 hmerged
    exact List.mem_filterMap.2 ⟨relay, hr, htext⟩
  have hle := (List.subperm_of_subset h.nodup hsubset).length_le
  rw [List.length_map] at hle
  exact hle.trans (List.length_filterMap_le _ _)

variable {endpoint : String} {merged : ExtTreeMap String (Bool × Bool)} {maxUrlBytes : Nat}

theorem canonicalEndpoint_ok (h : canonicalEndpoint urls endpoint maxUrlBytes = .ok text) :
    ∃ url, urls.parse endpoint = some url ∧ url.text = text ∧ (url.scheme = "ws" ∨ url.scheme = "wss") ∧
      url.host ≠ none ∧ url.username = "" ∧ url.password = none ∧ url.query = none ∧ url.fragment = none := by
  unfold canonicalEndpoint at h
  obtain ⟨-, h⟩ := refuse_ok_iff.1 h
  cases hp : urls.parse endpoint with
  | none =>
    rw [hp] at h
    cases h
  | some url =>
    rw [hp] at h
    obtain ⟨hacc, hok⟩ := refuse_ok_iff.1 h
    simp only [not_or, not_and_or, not_not, ne_eq] at hacc
    obtain ⟨hscheme, hhost, -, husername, hpassword, hquery, hfragment⟩ := hacc
    exact ⟨url, rfl, Except.ok.inj hok, (hscheme.imp_right And.left).symm, hhost, husername, hpassword, hquery, hfragment⟩

theorem canonicalText_of_endpoint
    (h : canonicalEndpoint urls endpoint maxUrlBytes = .ok text) : canonicalText urls endpoint = some text := by
  obtain ⟨url, hp, htext, -⟩ := canonicalEndpoint_ok h
  rw [canonicalText, hp, Option.map_some, htext]

theorem normalizeRelayUrl_text (laws : UrlLaws urls)
    (hp : urls.parse endpoint = some url) (hscheme : url.scheme = "ws" ∨ url.scheme = "wss") (hhost : url.host ≠ none)
    (husername : url.username = "") (hpassword : url.password = none) (hquery : url.query = none)
    (hfragment : url.fragment = none) (hlen : url.text.utf8ByteSize ≤ limits.maxUrlBytes) :
    normalizeRelayUrl urls url.text limits = .ok url.text := by
  have hport := laws.port endpoint url hp hscheme
  unfold normalizeRelayUrl
  rw [if_neg (not_or.2 ⟨laws.text_ne hp, not_lt.2 hlen⟩), laws.again endpoint url hp]
  refine if_neg ?_
  simp only [not_or, not_and_or, not_not, hport, hpassword, hquery, hfragment, husername, ne_eq, and_true]
  exact ⟨hscheme, hhost, by decide⟩

/-- The flags of relays with one URL, joined one after the other. -/
def joinAll (relays : List RelayPreference) (entry : Option (Bool × Bool)) : Option (Bool × Bool) :=
  relays.foldl (fun entry relay => joinFlags relay entry) entry

theorem joinAll_eq (relays : List RelayPreference) (flags : Bool × Bool) :
    joinAll relays (some flags) = some (flags.1 || relays.any (·.read), flags.2 || relays.any (·.write)) := by
  induction relays generalizing flags with
  | nil => simp [joinAll]
  | cons relay rest ih =>
    have hstep : joinAll (relay :: rest) (some flags) = joinAll rest (some (flags.1 || relay.read, flags.2 || relay.write)) :=
      rfl
    rw [hstep, ih, List.any_cons, List.any_cons, Bool.or_assoc, Bool.or_assoc]

theorem joinAll_none (relays : List RelayPreference) :
    joinAll relays none = if relays = [] then none else some (relays.any (·.read), relays.any (·.write)) := by
  cases relays with
  | nil => rfl
  | cons relay rest =>
    have hstep : joinAll (relay :: rest) none = joinAll rest (some (relay.read, relay.write)) := by
      simp [joinAll, joinFlags]
    rw [hstep, joinAll_eq, if_neg (by simp), List.any_cons, List.any_cons]

def relaysOf (urls : RelayUrlLibrary) (relays : List RelayPreference) (url : String) : List RelayPreference :=
  relays.filter fun relay => canonicalText urls relay.url = some url

theorem mergePreferences_ok {final : ExtTreeMap String (Bool × Bool)}
    (h : mergePreferences urls limits merged relays = .ok final) :
    (∀ relay ∈ relays, (relay.read = true ∨ relay.write = true) ∧
      ∃ text, canonicalEndpoint urls relay.url limits.maxUrlBytes = .ok text) ∧
    ∀ url, final[url]? = joinAll (relaysOf urls relays url) merged[url]? := by
  induction relays generalizing merged with
  | nil =>
    cases h
    exact ⟨by simp, fun url => rfl⟩
  | cons relay rest ih =>
    unfold mergePreferences at h
    obtain ⟨hflags, h⟩ := refuse_ok_iff.1 h
    obtain ⟨text, htext, h⟩ := bind_ok_iff.1 h
    obtain ⟨hrest, hfinal⟩ := ih h
    refine ⟨List.forall_mem_cons.2 ⟨⟨?_, text, htext⟩, hrest⟩, fun url => ?_⟩
    · by_contra hneither
      simp only [not_or, Bool.not_eq_true] at hneither
      exact hflags (by simp [hneither])
    · rw [hfinal, relaysOf, relaysOf, List.filter_cons, canonicalText_of_endpoint htext, ExtTreeMap.getElem?_alter]
      by_cases hurl : text = url
      · subst hurl
        simp [joinAll]
      · have hne : compare text url ≠ .eq := fun heq => hurl (Std.LawfulEqOrd.eq_of_compare heq)
        simp [hurl]

theorem mem_relaysOf {url : String} :
    relay ∈ relaysOf urls relays url ↔ relay ∈ relays ∧ canonicalText urls relay.url = some url := by
  simp [relaysOf]

theorem mem_preferencesOf : relay ∈ preferencesOf merged ↔ merged[relay.url]? = some (relay.read, relay.write) := by
  simp only [preferencesOf, List.mem_map, Prod.exists]
  constructor
  · rintro ⟨url, read, write, he, rfl⟩
    exact ExtTreeMap.mem_toList_iff_getElem?_eq_some.1 he
  · intro he
    exact ⟨relay.url, relay.read, relay.write, ExtTreeMap.mem_toList_iff_getElem?_eq_some.2 he, rfl⟩

theorem merged_preferencesOf
    (h : ∀ url, merged[url]? = joinAll (relaysOf urls relays url) none) : Merged urls relays (preferencesOf merged) where
  sorted := by
    rw [preferencesOf, List.pairwise_map]
    exact ExtTreeMap.ordered_keys_toList.imp fun hlt => compare_lt_iff_lt.1 hlt
  mem_iff := by
    intro relay
    have hany (f : RelayPreference → Bool) (b : Bool) : (relaysOf urls relays relay.url).any f = b ↔
        (b = true ↔ ∃ other ∈ relays, canonicalText urls other.url = some relay.url ∧ f other = true) := by
      rw [Bool.eq_iff_iff, List.any_eq_true, eq_comm]
      simp only [mem_relaysOf, and_assoc, iff_comm]
    rw [mem_preferencesOf, h, joinAll_none]
    by_cases hsome : relaysOf urls relays relay.url = []
    · rw [if_pos hsome]
      have hnone : ¬ ∃ other ∈ relays, canonicalText urls other.url = some relay.url := by
        rintro ⟨other, ho, htext⟩
        have hmem := mem_relaysOf.2 ⟨ho, htext⟩
        rw [hsome] at hmem
        cases hmem
      simp [hnone]
    · rw [if_neg hsome, Option.some.injEq, Prod.mk.injEq, hany, hany]
      obtain ⟨other, ho⟩ := List.exists_mem_of_ne_nil _ hsome
      have hexists : ∃ other ∈ relays, canonicalText urls other.url = some relay.url := ⟨other, mem_relaysOf.1 ho⟩
      simp only [hexists, true_and]

theorem canonicalPreferences_ok (h : canonicalPreferences urls relays limits = .ok result) :
    Merged urls relays result ∧ relays ≠ [] ∧ relays.length ≤ limits.maxRelays ∧
      ∀ relay ∈ relays, (relay.read = true ∨ relay.write = true) ∧
        ∃ text, canonicalEndpoint urls relay.url limits.maxUrlBytes = .ok text := by
  unfold canonicalPreferences at h
  obtain ⟨-, h⟩ := refuse_ok_iff.1 h
  obtain ⟨hsome, h⟩ := refuse_ok_iff.1 h
  obtain ⟨hlen, h⟩ := refuse_ok_iff.1 h
  obtain ⟨merged, hmerged, hok⟩ := bind_ok_iff.1 h
  obtain ⟨hrelays, hentries⟩ := mergePreferences_ok hmerged
  cases hok
  refine ⟨merged_preferencesOf fun url => ?_, hsome, not_lt.1 hlen, hrelays⟩
  rw [hentries, ExtTreeMap.getElem?_empty]

section
variable (hmerged : Merged urls relays result)
    (hrelays : ∀ relay ∈ relays, ∃ text, canonicalEndpoint urls relay.url limits.maxUrlBytes = .ok text)
include hmerged hrelays

theorem endpoint_of_merged (hr : relay ∈ result) :
    ∃ other ∈ relays, canonicalEndpoint urls other.url limits.maxUrlBytes = .ok relay.url := by
  obtain ⟨⟨other, ho, htext⟩, -⟩ := (hmerged.mem_iff relay).1 hr
  obtain ⟨text, hend⟩ := hrelays other ho
  rw [canonicalText_of_endpoint hend] at htext
  cases htext
  exact ⟨other, ho, hend⟩

theorem merged_ne_nil (hsome : relays ≠ []) : result ≠ [] := by
  classical
  obtain ⟨relay, hr⟩ := List.exists_mem_of_ne_nil _ hsome
  obtain ⟨text, htext⟩ := hrelays relay hr
  have hmem := (hmerged.mem_iff ⟨text,
    decide (∃ relay ∈ relays, canonicalText urls relay.url = some text ∧ relay.read = true),
    decide (∃ relay ∈ relays, canonicalText urls relay.url = some text ∧ relay.write = true)⟩).2
      ⟨⟨relay, hr, canonicalText_of_endpoint htext⟩, decide_eq_true_iff, decide_eq_true_iff⟩
  exact List.ne_nil_of_mem hmem

end

/-! ### The tags of preferences -/

theorem mapM_ok {ε : Type} {f : α → Except ε β} {l : List α} {bs : List β} (h : l.mapM f = .ok bs) :
    ∀ g : α → β, (∀ a b, f a = .ok b → g a = b) → bs = l.map g ∧ ∀ a ∈ l, f a = .ok (g a) := by
  intro g hg
  induction l generalizing bs with
  | nil =>
    cases h
    exact ⟨rfl, by simp⟩
  | cons a l ih =>
    rw [List.mapM_cons] at h
    obtain ⟨b, hb, h⟩ := bind_ok_iff.1 h
    obtain ⟨rest, hrest, hok⟩ := bind_ok_iff.1 h
    obtain ⟨rfl, hl⟩ := ih hrest
    cases hok
    rw [List.map_cons, hg a b hb]
    refine ⟨rfl, List.forall_mem_cons.2 ⟨?_, hl⟩⟩
    rw [hg a b hb]
    exact hb

def tagOf (relay : RelayPreference) : Tag := (preferenceTag relay).toOption.getD []

theorem preferenceTag_cases (h : preferenceTag relay = .ok tag) :
    nip65Tag tag = .ok (some (relay.url, relay.read, relay.write)) ∧ relay.url ∈ tag ∧
      (Json.strings tag).size ≤ 2 + 3 * 3 + 6 * (6 + relay.url.utf8ByteSize) := by
  obtain ⟨url, read, write⟩ := relay
  have hsize := size_strings_le tag
  have hr : "r".utf8ByteSize = 1 := by decide
  have hread : "read".utf8ByteSize = 4 := by decide
  have hwrite : "write".utf8ByteSize = 5 := by decide
  cases read <;> cases write <;> cases h
  all_goals
    simp [hr, hread, hwrite] at hsize
    refine ⟨rfl, by simp, ?_⟩
    dsimp only
    omega

end Preferences

/-- **Preferences are read as they were published.** If an author publishes preferences under the default limits, then at
every clock that is at most fifteen minutes behind the time of the list it is read as theirs, with the preferences merged by
URL, their flags joined, in the order of the URLs. -/
theorem nip65_published_parses {p : Primitives} {urls : RelayUrlLibrary} (laws : UrlLaws urls) (signs : SignatureLaws p)
    {secret key auxiliary : Bytes 32} {createdAt : UInt64} {relays : List RelayPreference} {event : SignedEvent}
    (hkey : p.publicKey secret = some key)
    (h : createNip65RelayListWithAux p urls secret createdAt relays auxiliary {} {} = .ok event) :
    ∃ result, Merged urls relays result ∧ ∀ now : UInt64, createdAt.toNat ≤ now.toNat + 15 * 60 →
      parseNip65RelayList p urls event now {} {} = .ok ⟨hexEncode key.val, createdAt, result⟩ := by
  obtain ⟨result, hpreferences, h⟩ := bind_ok_iff.1 h
  obtain ⟨author, hauthor, h⟩ := bind_ok_iff.1 h
  obtain ⟨tags, htags, h⟩ := bind_ok_iff.1 h
  obtain ⟨hvalid, hsign⟩ := then_ok_iff.1 h
  rw [mapError_ok_iff, xonlyPublicKey_ok_iff, hkey] at hauthor
  cases hauthor
  rw [mapError_ok_iff, validate_ok_iff] at hvalid
  rw [mapError_ok_iff] at hsign
  obtain ⟨hmerged, hsome, hlength, hrelays⟩ := canonicalPreferences_ok hpreferences
  have hendpoints := fun relay hrelay => (hrelays relay hrelay).2
  obtain ⟨rfl, htagOf⟩ := mapM_ok htags tagOf fun relay tag htag => by rw [tagOf, htag]; rfl
  have hfew : result.length ≤ 16 := hmerged.length_le.trans hlength
  have hshort (relay : RelayPreference) (hrelay : relay ∈ result) : relay.url.utf8ByteSize ≤ 1024 :=
    (hvalid.2.2.2 (tagOf relay) (List.mem_map_of_mem hrelay)).2 relay.url (preferenceTag_cases (htagOf relay hrelay)).2.1
  refine ⟨result, hmerged, fun now htime => ?_⟩
  have hverified : Verified p event now {} := by
    refine verified_list signs hsign rfl (by simpa using hfew) (fun tag htag => ?_) htime
    obtain ⟨relay, hrelay, rfl⟩ := List.mem_map.1 htag
    have hsize := (preferenceTag_cases (htagOf relay hrelay)).2.2
    have hbytes := hshort relay hrelay
    omega
  obtain ⟨-, -, signature, -, -, -, rfl⟩ := signWithAux_ok_iff.1 hsign
  refine parseRelayList_published hverified rfl rfl rfl ?_ hmerged.nodup hfew (merged_ne_nil hmerged hendpoints hsome)
  intro relay hrelay
  refine ⟨(preferenceTag_cases (htagOf relay hrelay)).1, ?_⟩
  obtain ⟨other, -, hendpoint⟩ := endpoint_of_merged hmerged hendpoints hrelay
  obtain ⟨url, hparse, htext, hscheme, hhost, husername, hpassword, hquery, hfragment⟩ := canonicalEndpoint_ok hendpoint
  have hbytes := hshort relay hrelay
  rw [← htext] at hbytes ⊢
  exact normalizeRelayUrl_text laws hparse hscheme hhost husername hpassword hquery hfragment
    (hbytes.trans (by decide : 1024 ≤ 2048))

/-- A relay for reading under one spelling and for writing under another is one relay for both. -/
theorem example_preferences_parse :
    ∃ event result,
      createNip65RelayListWithAux unsealed exampleUrls exampleAuthor 1700000000
        [⟨"wss://relay.example", true, false⟩,
          ⟨"wss://relay.example/", false, true⟩] (Bytes.replicate 32 0) {} {} = .ok event ∧
      Merged exampleUrls [⟨"wss://relay.example", true, false⟩, ⟨"wss://relay.example/", false, true⟩] result ∧
      parseNip65RelayList unsealed exampleUrls event 1699999100 {} {} =
        .ok ⟨hexEncode exampleAuthor.val, 1700000000, result⟩ := by
  have hvalid : UnsignedEvent.validate ⟨hexEncode exampleAuthor.val, 1700000000, nip65RelayListKind,
      [["r", "wss://relay.example/"]], ""⟩ {} = .ok () :=
    validate_ok_iff.2 ⟨⟨_, decodeHex_hexEncode _⟩, by decide, by decide, by decide⟩
  have hcreate : createNip65RelayListWithAux unsealed exampleUrls exampleAuthor 1700000000
      [⟨"wss://relay.example", true, false⟩, ⟨"wss://relay.example/", false, true⟩] (Bytes.replicate 32 0) {} {} =
        .ok (signed ⟨hexEncode exampleAuthor.val, 1700000000, nip65RelayListKind, [["r", "wss://relay.example/"]], ""⟩
          exampleAuthor) := by
    refine bind_ok_iff.2 ⟨[⟨"wss://relay.example/", true, true⟩], rfl, bind_ok_iff.2 ⟨exampleAuthor, rfl,
      bind_ok_iff.2 ⟨[["r", "wss://relay.example/"]], rfl, then_ok_iff.2 ⟨?_, ?_⟩⟩⟩⟩
    · rw [hvalid]
      rfl
    · rw [transparent_signs rfl hvalid]
      rfl
  obtain ⟨result, hmerged, hparse⟩ := nip65_published_parses urlLaws_example (signatureLaws_transparent [] [])
    (transparent_publicKey exampleAuthor) hcreate
  exact ⟨_, result, hcreate, hmerged, hparse 1699999100 (by decide)⟩

/-! ## Inboxes are accepted unless a URL has a query -/

/-- What the publisher asks of the URL of an inbox. -/
structure Publishable (url : RelayUrl) : Prop where
  scheme : url.scheme = "wss"
  host : url.host ≠ none
  username : url.username = ""
  password : url.password = none
  fragment : url.fragment = none

section Inboxes
variable {p : Primitives} {urls : RelayUrlLibrary} {endpoints : List String} {key : Bytes 32} {createdAt : UInt64}

theorem publishable_of_not_refused (h : refusedInboxUrl url = false) : Publishable url := by
  simp only [refusedInboxUrl, decide_eq_false_iff_not, not_or, not_not, ne_eq] at h
  obtain ⟨hscheme, hhost, husername, hpassword, hfragment⟩ := h
  exact ⟨hscheme, hhost, husername, hpassword, hfragment⟩

structure CanonicalUrls (urls : RelayUrlLibrary) (endpoints result : List String) : Prop where
  sorted : result.Pairwise (· < ·)
  mem_iff : ∀ text, text ∈ result ↔ ∃ endpoint ∈ endpoints, canonicalText urls endpoint = some text

theorem exists_of_forall₂ {R : α → β → Prop} {l : List α} {l' : List β} (h : List.Forall₂ R l l') :
    (∀ a ∈ l, ∃ b ∈ l', R a b) ∧ ∀ b ∈ l', ∃ a ∈ l, R a b := by
  induction h with
  | nil => simp
  | cons hR _ ih =>
    simp only [List.mem_cons, forall_eq_or_imp, exists_eq_or_imp]
    exact ⟨⟨.inl hR, fun a ha => .inr (ih.1 a ha)⟩, .inl hR, fun b hb => .inr (ih.2 b hb)⟩

theorem canonicalRelayUrls_ok {result : List String} (h : canonicalRelayUrls urls endpoints = .ok result) :
    CanonicalUrls urls endpoints result ∧ result ≠ [] ∧ result.length ≤ 3 ∧
      (∀ endpoint ∈ endpoints, ∃ url, urls.parse endpoint = some url ∧ Publishable url) := by
  unfold canonicalRelayUrls at h
  obtain ⟨hsome, h⟩ := refuse_ok_iff.1 h
  obtain ⟨hfew, h⟩ := refuse_ok_iff.1 h
  obtain ⟨canonical, hcollect, hok⟩ := bind_ok_iff.1 h
  cases hok
  obtain ⟨parsed, hparsed, rfl, hnd⟩ := collectEndpoints_ok List.nodup_nil hcollect
  rw [List.nil_append] at hnd ⊢
  have hlen : ((parsed.map (·.text)).insertionSort (· ≤ ·)).length = endpoints.length := by
    rw [List.length_insertionSort, List.length_map, hparsed.length_eq]
  obtain ⟨hall, hback⟩ := exists_of_forall₂ hparsed
  refine ⟨⟨?_, fun text => ?_⟩, ?_, ?_, fun endpoint hend => ?_⟩
  · have hsorted := List.pairwise_insertionSort (· ≤ ·) (parsed.map (·.text))
    have hdist := (List.perm_insertionSort (· ≤ ·) (parsed.map (·.text))).nodup_iff.2 hnd
    exact (hsorted.and hdist).imp fun hboth => lt_of_le_of_ne hboth.1 hboth.2
  · rw [List.mem_insertionSort, List.mem_map]
    constructor
    · rintro ⟨url, hurl, rfl⟩
      obtain ⟨endpoint, hend, hp, -⟩ := hback url hurl
      exact ⟨endpoint, hend, by rw [canonicalText, hp]; rfl⟩
    · rintro ⟨endpoint, hend, htext⟩
      obtain ⟨url, hurl, hp, -⟩ := hall endpoint hend
      rw [canonicalText, hp] at htext
      exact ⟨url, hurl, Option.some.inj htext⟩
  · rw [← List.length_pos_iff, hlen, List.length_pos_iff]
    exact hsome
  · rw [hlen]
    exact not_lt.1 hfew
  · obtain ⟨url, -, hp, hacc⟩ := hall endpoint hend
    exact ⟨url, hp, publishable_of_not_refused hacc⟩

theorem normalizes_of_mergeTags
    {read : List RelayPreference} (h : mergeTags urls tagRelay limits read tags = .ok result) (htag : tag ∈ tags)
    {flags : Bool × Bool} (hreader : tagRelay tag = .ok (some (text, flags))) :
    ∃ url, normalizeRelayUrl urls text limits = .ok url := by
  induction tags generalizing read with
  | nil => cases htag
  | cons first rest ih =>
    unfold mergeTags at h
    obtain ⟨said, hsaid, h⟩ := bind_ok_iff.1 h
    rcases List.mem_cons.1 htag with rfl | htag
    · rw [hreader] at hsaid
      cases hsaid
      obtain ⟨relays, hmerge, -⟩ := bind_ok_iff.1 h
      obtain ⟨url, hurl, -⟩ := bind_ok_iff.1 hmerge
      exact ⟨url, hurl⟩
    · rcases said with _ | ⟨url, r, w⟩
      · exact ih h htag
      · obtain ⟨relays, -, h⟩ := bind_ok_iff.1 h
        exact ih h htag

theorem query_of_normalizes {result : String}
    (hp : urls.parse text = some url) (h : normalizeRelayUrl urls text limits = .ok result) : url.query = none := by
  unfold normalizeRelayUrl at h
  obtain ⟨-, h⟩ := refuse_ok_iff.1 h
  rw [hp] at h
  obtain ⟨hacc, -⟩ := refuse_ok_iff.1 h
  simp only [not_or, not_not, ne_eq] at hacc
  exact hacc.2.2.2.2.2.1

def inboxPreference (url : String) : RelayPreference := ⟨url, true, true⟩

theorem map_url_inboxPreference (canonical : List String) : (canonical.map inboxPreference).map (·.url) = canonical := by
  rw [List.map_map]
  exact List.map_id canonical

def publishedInbox (key : Bytes 32) (createdAt : UInt64) (canonical : List String) : UnsignedEvent :=
  ⟨hexEncode key.val, createdAt, nip17DmRelayListKind, canonical.map fun relay => ["relay", relay], ""⟩

theorem createDmRelayList_ok (signs : SignatureLaws p) (hkey : p.publicKey secret = some key)
    (h : createDmRelayListWithAux p urls secret createdAt endpoints auxiliary {} = .ok event) :
    ∃ canonical signature, canonicalRelayUrls urls endpoints = .ok canonical ∧
      event = (publishedInbox key createdAt canonical).withSignature p signature ∧
      (∀ text ∈ canonical, text.utf8ByteSize ≤ 1024) ∧ ∀ now : UInt64, createdAt ≤ now →
        Verified p event now {} := by
  obtain ⟨canonical, hcan, h⟩ := bind_ok_iff.1 h
  obtain ⟨author, hauth, h⟩ := bind_ok_iff.1 h
  obtain ⟨hv, hsign⟩ := then_ok_iff.1 h
  rw [mapError_ok_iff, xonlyPublicKey_ok_iff, hkey] at hauth
  cases hauth
  rw [mapError_ok_iff, validate_ok_iff] at hv
  rw [mapError_ok_iff] at hsign
  obtain ⟨-, -, hfew, -⟩ := canonicalRelayUrls_ok hcan
  have hshort (text : String) (htext : text ∈ canonical) : text.utf8ByteSize ≤ 1024 :=
    (hv.2.2.2 ["relay", text] (List.mem_map_of_mem htext)).2 text (by simp)
  obtain ⟨-, -, signature, -, -, -, hev⟩ := signWithAux_ok_iff.1 hsign
  refine ⟨canonical, signature, hcan, hev, hshort, fun now htime => ?_⟩
  have hfewTags : (canonical.map fun relay => ["relay", relay]).length ≤ 16 := by
    rw [List.length_map]
    omega
  refine verified_list signs hsign rfl hfewTags (fun tag htag => ?_)
    (Nat.le_add_right_of_le (UInt64.le_iff_toNat_le.1 htime))
  obtain ⟨text, htext, rfl⟩ := List.mem_map.1 htag
  have hsize := size_strings_le ["relay", text]
  have hname : "relay".utf8ByteSize = 5 := by decide
  have hb := hshort text htext
  simp [hname] at hsize
  omega

theorem parse_publishedInbox {canonical : List String} {signature : Bytes 64}
    (hvrf : Verified p ((publishedInbox key createdAt canonical).withSignature p signature) now {})
    (hurls : ∀ text ∈ canonical, normalizeRelayUrl urls text ⟨3, 2048⟩ = .ok text) (hnd : canonical.Nodup)
    (hsome : canonical ≠ []) (hfew : canonical.length ≤ 3) :
    parseNip17DmRelayList p urls ((publishedInbox key createdAt canonical).withSignature p signature) now {} ⟨3, 2048⟩ =
      .ok ⟨hexEncode key.val, createdAt, canonical.map inboxPreference⟩ := by
  have htags : ((publishedInbox key createdAt canonical).withSignature p signature).tags =
      (canonical.map inboxPreference).map fun relay => ["relay", relay.url] := by
    rw [List.map_map]
    rfl
  have hnames := map_url_inboxPreference canonical
  refine parseRelayList_published hvrf rfl htags rfl ?_ (by rwa [hnames]) (by simpa using hfew) (by simpa using hsome)
  intro relay hr
  obtain ⟨text, htext, rfl⟩ := List.mem_map.1 hr
  exact ⟨rfl, hurls text htext⟩

end Inboxes

/-- **Inboxes are accepted as they were published,** exactly if none of their URLs has a query. If an author publishes an
inbox under the default limits, then `verify_dm_inbox` accepts it under the default policy from its time on until it is too
old, and returns the URLs in order. -/
theorem dm_published_accepted_iff {p : Primitives} {urls : RelayUrlLibrary} (laws : UrlLaws urls) (signs : SignatureLaws p)
    {secret key auxiliary : Bytes 32} {createdAt : UInt64} {endpoints : List String} {event : SignedEvent}
    (hkey : p.publicKey secret = some key)
    (h : createDmRelayListWithAux p urls secret createdAt endpoints auxiliary {} = .ok event) :
    (∀ now : UInt64, createdAt ≤ now → now.toNat ≤ createdAt.toNat + 30 * 24 * 60 * 60 →
      ∃ inbox, verifyDmInbox p urls event key now {} {} = .ok inbox ∧ inbox.recipientPublicKey = hexEncode key.val ∧
        inbox.sourceEvent = event ∧ CanonicalUrls urls endpoints inbox.relayUrls) ↔
      ∀ endpoint ∈ endpoints, ∀ url, urls.parse endpoint = some url → url.query = none := by
  obtain ⟨canonical, signature, hcanonical, rfl, hshort, hverified⟩ := createDmRelayList_ok signs hkey h
  obtain ⟨hurls, hsome, hfew, hpublishable⟩ := canonicalRelayUrls_ok hcanonical
  constructor
  · intro haccepted endpoint hendpoint url hparse
    obtain ⟨inbox, hinbox, -⟩ := haccepted createdAt (UInt64.le_refl _) (Nat.le_add_right _ _)
    obtain ⟨-, list, hlist, -⟩ := verifyDmInbox_ok_iff.1 hinbox
    obtain ⟨-, -, -, hmerge, -⟩ := parseRelayList_ok_iff.1 hlist
    have htext : url.text ∈ canonical :=
      (hurls.mem_iff url.text).2 ⟨endpoint, hendpoint, by rw [canonicalText, hparse]; rfl⟩
    obtain ⟨result, hresult⟩ := normalizes_of_mergeTags hmerge (List.mem_map_of_mem htext) rfl
    exact query_of_normalizes (laws.again endpoint url hparse) hresult
  · intro hqueries now hstart hend
    have hparsed (text : String) (htext : text ∈ canonical) : ∃ url, urls.parse text = some url ∧ url.scheme = "wss" ∧
        normalizeRelayUrl urls text ⟨3, 2048⟩ = .ok text := by
      obtain ⟨endpoint, hendpoint, hcanonicalText⟩ := (hurls.mem_iff text).1 htext
      obtain ⟨url, hparse, hurl⟩ := hpublishable endpoint hendpoint
      rw [canonicalText, hparse] at hcanonicalText
      obtain rfl : url.text = text := Option.some.inj hcanonicalText
      exact ⟨url, laws.again endpoint url hparse, hurl.scheme, normalizeRelayUrl_text laws hparse (.inr hurl.scheme) hurl.host
        hurl.username hurl.password (hqueries endpoint hendpoint url hparse) hurl.fragment
        ((hshort _ htext).trans (by decide : 1024 ≤ 2048))⟩
    have hnormalized (text : String) (htext : text ∈ canonical) := (hparsed text htext).choose_spec.2.2
    have hlist := parse_publishedInbox (hverified now hstart) hnormalized (hurls.sorted.imp fun hlt => ne_of_lt hlt) hsome hfew
    refine ⟨_, verifyDmInbox_ok_iff.2 ⟨rfl, _, hlist, rfl, hstart, ?_, fun _ relay hrelay => ?_, rfl⟩, rfl, rfl, ?_⟩
    · have hage : (30 * 24 * 60 * 60 : UInt64).toNat = 30 * 24 * 60 * 60 := by decide
      rw [UInt64.le_iff_toNat_le, UInt64.toNat_sub_of_le _ _ hstart]
      show _ ≤ (30 * 24 * 60 * 60 : UInt64).toNat
      omega
    · obtain ⟨text, htext, rfl⟩ := List.mem_map.1 hrelay
      obtain ⟨url, hparse, hscheme, -⟩ := hparsed text htext
      show secureOrLoopback urls text = true
      rw [secureOrLoopback, hparse]
      simp [hscheme]
    · rw [map_url_inboxPreference]
      exact hurls

theorem create_exampleInbox (endpoint text : String) (hcan : canonicalRelayUrls exampleUrls [endpoint] = .ok [text])
    (htext : text.utf8ByteSize ≤ 1024) :
    createDmRelayListWithAux unsealed exampleUrls exampleAuthor 1700000000 [endpoint] (Bytes.replicate 32 0) {} =
      .ok (signed (publishedInbox exampleAuthor 1700000000 [text]) exampleAuthor) := by
  have hname : "relay".utf8ByteSize ≤ 1024 := by decide
  have hv : (publishedInbox exampleAuthor 1700000000 [text]).validate {} = .ok () :=
    validate_ok_iff.2 ⟨⟨_, decodeHex_hexEncode _⟩, Nat.zero_le _, by simp [publishedInbox],
      by simp [publishedInbox, hname, htext]⟩
  refine bind_ok_iff.2 ⟨[text], hcan, bind_ok_iff.2 ⟨exampleAuthor, rfl, then_ok_iff.2 ⟨?_, ?_⟩⟩⟩
  · exact congrArg (Except.mapError _) hv
  · exact congrArg (Except.mapError _) (transparent_signs rfl hv)

/-- An inbox without a query is accepted a day later. -/
theorem example_inbox_accepted :
    ∃ event inbox,
      createDmRelayListWithAux unsealed exampleUrls exampleAuthor 1700000000 ["wss://relay.example"]
        (Bytes.replicate 32 0) {} = .ok event ∧
      verifyDmInbox unsealed exampleUrls event exampleAuthor 1700086400 {} {} = .ok inbox ∧
      CanonicalUrls exampleUrls ["wss://relay.example"] inbox.relayUrls := by
  have hcreate := create_exampleInbox "wss://relay.example" "wss://relay.example/" rfl (by decide)
  have haccepted := (dm_published_accepted_iff urlLaws_example (signatureLaws_transparent [] [])
    (transparent_publicKey exampleAuthor) hcreate).2 ?_ 1700086400 (by decide) (by decide)
  · obtain ⟨inbox, hinbox, -, -, hurls⟩ := haccepted
    exact ⟨_, inbox, hcreate, hinbox, hurls⟩
  · intro endpoint hendpoint url hparse
    rw [List.mem_singleton.1 hendpoint] at hparse
    cases hparse
    rfl

/-- An inbox whose URL has a query is published, and refused by its readers. -/
theorem example_query_refused :
    ∃ event,
      createDmRelayListWithAux unsealed exampleUrls exampleAuthor 1700000000 ["wss://relay.example/?a=b"]
        (Bytes.replicate 32 0) {} = .ok event ∧
      ∀ inbox, verifyDmInbox unsealed exampleUrls event exampleAuthor 1700000000 {} {} ≠ .ok inbox := by
  have hcreate := create_exampleInbox "wss://relay.example/?a=b" "wss://relay.example/?a=b" rfl (by decide)
  refine ⟨_, hcreate, fun inbox hinbox => ?_⟩
  obtain ⟨-, list, hlist, -⟩ := verifyDmInbox_ok_iff.1 hinbox
  obtain ⟨-, -, -, hmerge, -⟩ := parseRelayList_ok_iff.1 hlist
  have hmem : ["relay", "wss://relay.example/?a=b"] ∈
      (signed (publishedInbox exampleAuthor 1700000000 ["wss://relay.example/?a=b"]) exampleAuthor).tags := List.mem_cons_self
  obtain ⟨result, hresult⟩ := normalizes_of_mergeTags hmerge hmem rfl
  cases query_of_normalizes rfl hresult

end OmaChat.Nostr

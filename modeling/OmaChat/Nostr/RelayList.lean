import OmaChat.Nostr.CacheFormat
import OmaChat.Nostr.Relay

/-!
# Relay lists

`discovery.rs`, `inbox.rs` and `relay_list_cache.rs`: the relay lists that users publish as replaceable events, what is asked
of such an event, and the cache that keeps one list for every author. Parsing a URL is a library function; an error keeps the
error that its text is made from.
-/

namespace OmaChat.Nostr
open Wire BoundedMap
open Std (ExtTreeMap)

/-! ## Parsing -/

def nip65RelayListKind : UInt32 := 10002

def nip17DmRelayListKind : UInt32 := 10050

structure RelayDiscoveryLimits where
  maxRelays : Nat := 16
  maxUrlBytes : Nat := 2048

structure RelayPreference where
  url : String
  read : Bool
  write : Bool
  deriving DecidableEq

structure RelayList where
  publicKey : String
  createdAt : UInt64
  relays : List RelayPreference
  deriving DecidableEq

inductive RelayDiscoveryError where
  | invalidEvent (error : EventError)
  | wrongKind (expected actual : UInt32)
  | invalidLimits
  | invalidRelayTag
  | invalidRelayUrl
  | emptyRelayList
  | tooManyRelays (maximum : Nat)
  deriving DecidableEq

structure RelayUrl where
  scheme : String
  host : Option String
  /-- `host` is an IPv4 or IPv6 address, and a loopback one. -/
  numericLoopback : Bool
  hasPort : Bool
  username : String
  password : Option String
  query : Option String
  fragment : Option String
  text : String

structure RelayUrlLibrary where
  /-- `Url::parse` -/
  parse : String → Option RelayUrl
  /-- The text is a loopback address for `IpAddr`. -/
  isLoopback : String → Bool

section Parsing
variable (p : Primitives) (urls : RelayUrlLibrary)

def normalizeRelayUrl (rawUrl : String) (limits : RelayDiscoveryLimits) : Except RelayDiscoveryError String :=
  if rawUrl = "" ∨ limits.maxUrlBytes < rawUrl.utf8ByteSize then .error .invalidRelayUrl
  else
    match urls.parse rawUrl with
    | none => .error .invalidRelayUrl
    | some url =>
      if (url.scheme ≠ "ws" ∧ url.scheme ≠ "wss") ∨ url.host = none ∨ url.hasPort = false ∨ url.username ≠ "" ∨
          url.password ≠ none ∨ url.query ≠ none ∨ url.fragment ≠ none then
        .error .invalidRelayUrl
      else .ok url.text

def mergeRelay (relays : List RelayPreference) (rawUrl : String) (read write : Bool) (limits : RelayDiscoveryLimits) :
    Except RelayDiscoveryError (List RelayPreference) := do
  let url ← normalizeRelayUrl urls rawUrl limits
  match relays.findIdx? (·.url = url) with
  | some existing =>
    .ok (relays.modify existing fun relay => { relay with read := relay.read || read, write := relay.write || write })
  | none =>
    if limits.maxRelays ≤ relays.length then .error (.tooManyRelays limits.maxRelays)
    else .ok (relays ++ [⟨url, read, write⟩])

def validateLimits (limits : RelayDiscoveryLimits) : Except RelayDiscoveryError Unit :=
  if limits.maxRelays = 0 ∨ limits.maxUrlBytes = 0 then .error .invalidLimits else .ok ()

/-- What a tag says about a relay: its URL and whether it is for reading and for writing; none for another tag. -/
abbrev TagReader : Type := Tag → Except RelayDiscoveryError (Option (String × Bool × Bool))

def mergeTags (tagRelay : TagReader) (limits : RelayDiscoveryLimits) :
    List RelayPreference → List Tag → Except RelayDiscoveryError (List RelayPreference)
  | relays, [] => .ok relays
  | relays, tag :: rest => do
    match ← tagRelay tag with
    | none => mergeTags tagRelay limits relays rest
    | some (url, read, write) => do
      let relays ← mergeRelay urls relays url read write limits
      mergeTags tagRelay limits relays rest

def parseRelayList (kind : UInt32) (tagRelay : TagReader) (event : SignedEvent) (now : UInt64) (eventLimits : EventLimits)
    (limits : RelayDiscoveryLimits) : Except RelayDiscoveryError RelayList := do
  (event.verify p now eventLimits).mapError .invalidEvent
  if event.kind ≠ kind then .error (.wrongKind kind event.kind)
  else do
    validateLimits limits
    let relays ← mergeTags urls tagRelay limits [] event.tags
    if relays = [] then .error .emptyRelayList else .ok ⟨event.pubkey, event.createdAt, relays⟩

/-- The tags of `parse_nip65_relay_list` -/
def nip65Tag : TagReader
  | ["r", url] => .ok (some (url, true, true))
  | ["r", url, "read"] => .ok (some (url, true, false))
  | ["r", url, "write"] => .ok (some (url, false, true))
  | "r" :: _ => .error .invalidRelayTag
  | _ => .ok none

def parseNip65RelayList : SignedEvent → UInt64 → EventLimits → RelayDiscoveryLimits →
    Except RelayDiscoveryError RelayList :=
  parseRelayList p urls nip65RelayListKind nip65Tag

/-- The tags of `parse_nip17_dm_relay_list` -/
def nip17Tag : TagReader
  | ["relay", url] => .ok (some (url, true, true))
  | "relay" :: _ => .error .invalidRelayTag
  | _ => .ok none

def parseNip17DmRelayList : SignedEvent → UInt64 → EventLimits → RelayDiscoveryLimits →
    Except RelayDiscoveryError RelayList :=
  parseRelayList p urls nip17DmRelayListKind nip17Tag

/-! ## Inboxes -/

structure DmInboxPolicy where
  maximumAgeSeconds : UInt64 := 30 * 24 * 60 * 60
  maxRelays : Nat := 3
  maxUrlBytes : Nat := 2048
  requireTls : Bool := true

/-- The errors of `DmInboxError` that `verify_dm_inbox` returns. -/
inductive DmInboxError where
  | invalidPolicy
  | invalidRelayList (error : RelayDiscoveryError)
  | relayListSubjectMismatch
  | relayListFromFuture
  | staleRelayList (ageSeconds maximumSeconds : UInt64)
  | insecureRelay
  deriving DecidableEq

structure VerifiedDmInbox where
  recipientPublicKey : String
  sourceEventId : String
  sourceCreatedAt : UInt64
  relayUrls : List String
  sourceEvent : SignedEvent
  deriving DecidableEq

def validatePolicy (policy : DmInboxPolicy) : Except DmInboxError Unit :=
  if policy.maximumAgeSeconds = 0 ∨ policy.maxRelays = 0 ∨ 3 < policy.maxRelays ∨ policy.maxUrlBytes = 0 then
    .error .invalidPolicy
  else .ok ()

def secureOrLoopback (endpoint : String) : Bool :=
  match urls.parse endpoint with
  | none => false
  | some url => url.scheme = "wss" ∨ url.scheme = "ws" ∧ url.host.any urls.isLoopback

def verifyDmInbox (event : SignedEvent) (expectedRecipientPublicKey : Bytes 32) (now : UInt64) (eventLimits : EventLimits)
    (policy : DmInboxPolicy) : Except DmInboxError VerifiedDmInbox := do
  validatePolicy policy
  let expectedRecipient := hexEncode expectedRecipientPublicKey.val
  let list ← (parseNip17DmRelayList p urls event now eventLimits
    ⟨policy.maxRelays, policy.maxUrlBytes⟩).mapError .invalidRelayList
  if list.publicKey ≠ expectedRecipient then .error .relayListSubjectMismatch
  else if now < list.createdAt then .error .relayListFromFuture
  else if policy.maximumAgeSeconds < now - list.createdAt then
    .error (.staleRelayList (now - list.createdAt) policy.maximumAgeSeconds)
  else
    let relayUrls := list.relays.map RelayPreference.url
    if policy.requireTls ∧ relayUrls.any (!secureOrLoopback urls ·) then .error .insecureRelay
    else .ok ⟨expectedRecipient, event.id, list.createdAt, relayUrls, event⟩

end Parsing

/-! ## The cache -/

def maxCachedRelayLists : Nat := 4096

def maxSerializedRelayListCacheBytes : Nat := 1048576

def relayListCacheVersion : Nat := 1

structure VerifiedRelayListCacheRecord where
  relayList : RelayList
  sourceEvent : SignedEvent
  verifiedAt : UInt64
  deriving DecidableEq

def VerifiedRelayListCacheRecord.persisted (record : VerifiedRelayListCacheRecord) : PersistedRecord :=
  ⟨record.verifiedAt, record.sourceEvent⟩

structure VerifiedRelayListCache where
  records : ExtTreeMap String VerifiedRelayListCacheRecord := ∅

abbrev RelayListCacheMutation : Type := Mutation

inductive RelayListCacheError where
  | invalidVerificationTime
  | invalidSourceEvent
  | rollback
  | cacheFull
  | cacheTooLarge
  | invalidEncoding
  | unsupportedVersion (version : Nat)
  deriving DecidableEq

/-- The format of `relay_list_cache.rs` -/
def relayListCacheFormat : CacheFormat RelayListCacheError where
  version := relayListCacheVersion
  maxRecords := maxCachedRelayLists
  maxBytes := maxSerializedRelayListCacheBytes
  cacheTooLarge := .cacheTooLarge
  invalidEncoding := .invalidEncoding
  unsupportedVersion := .unsupportedVersion
  cacheFull := .cacheFull
  invalidVerificationTime := .invalidVerificationTime
  invalidKey := .invalidSourceEvent

namespace VerifiedRelayListCache

def toJson (cache : VerifiedRelayListCache) : Except RelayListCacheError (List UInt8) :=
  relayListCacheFormat.toJson (persistedRecords VerifiedRelayListCacheRecord.persisted cache.records)

/-- What `insert_event` makes of an event for an author that has one. -/
def rule (sourceEvent : SignedEvent) (current : VerifiedRelayListCacheRecord) : Ruling RelayListCacheError :=
  if sourceEvent.createdAt < current.sourceEvent.createdAt then .refuse .rollback
  else if sourceEvent.createdAt = current.sourceEvent.createdAt ∧ current.sourceEvent.id ≤ sourceEvent.id then .keep
  else .replace

structure Insertion where
  sourceEvent : SignedEvent
  now : UInt64
  verifiedAt : UInt64
  eventLimits : EventLimits
  relayLimits : RelayDiscoveryLimits

def insertEvent (p : Primitives) (urls : RelayUrlLibrary) (cache : VerifiedRelayListCache) (sourceEvent : SignedEvent)
    (now verifiedAt : UInt64) (eventLimits : EventLimits) (relayLimits : RelayDiscoveryLimits) :
    Except RelayListCacheError RelayListCacheMutation × VerifiedRelayListCache :=
  if now < verifiedAt ∨ verifiedAt < sourceEvent.createdAt then (.error .invalidVerificationTime, cache)
  else
    match parseNip65RelayList p urls sourceEvent now eventLimits relayLimits with
    | .error _ => (.error .invalidSourceEvent, cache)
    | .ok relayList =>
      let inserted := insertUnder (fun records => toJson ⟨records⟩) maxCachedRelayLists .cacheFull (rule sourceEvent)
        relayList.publicKey ⟨relayList, sourceEvent, verifiedAt⟩ cache.records
      (inserted.1, ⟨inserted.2⟩)

def fromJson (p : Primitives) (urls : RelayUrlLibrary) (decode : List UInt8 → Option PersistedCache) (encoded : List UInt8)
    (now : UInt64) (eventLimits : EventLimits) (relayLimits : RelayDiscoveryLimits) :
    Except RelayListCacheError VerifiedRelayListCache :=
  relayListCacheFormat.fromJson decode
    (fun _ record cache =>
      inserted (cache.insertEvent p urls record.sourceEvent now record.verifiedAt eventLimits relayLimits)) {} encoded now

end VerifiedRelayListCache

end OmaChat.Nostr

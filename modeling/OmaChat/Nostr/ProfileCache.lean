import OmaChat.Nostr.Checks
import OmaChat.Nostr.RelayList

/-!
# Profiles

`profile_verification.rs` and `profile_cache.rs`: the profile that a user signs as kind 0, what is asked of it, and the cache
that keeps one profile for every user. The JSON library gives the fields of an object in their order.
-/

namespace OmaChat.Nostr
open Wire BoundedMap
open Std (ExtTreeMap)

def profileMetadataKind : UInt32 := 0

def maxExternalNostrNameBytes : Nat := 64

def maxDisplayNameChars : Nat := 80

def maxAboutBytes : Nat := 2048

def maxPictureUrlBytes : Nat := 2048

/-! ## Verification -/

inductive ProfileNameClassification where
  | handleSyntaxCandidate
  | presentationOnly
  deriving DecidableEq

structure VerifiedNostrProfile where
  publicKey : Bytes 32
  sourceEventId : String
  sourceCreatedAt : UInt64
  nostrName : Option String
  nameClassification : Option ProfileNameClassification
  displayName : Option String
  about : Option String
  picture : Option String
  sourceEvent : SignedEvent
  deriving DecidableEq

structure RawProfile where
  nostrName : Option String := none
  displayName : Option String := none
  about : Option String := none
  picture : Option String := none
  deriving DecidableEq

/-- `ProfileVerificationError`. The error of the JSON parser is not kept. -/
inductive ProfileVerificationError where
  | invalidEvent (error : EventError)
  | wrongKind
  | authorMismatch
  | unexpectedTags
  | invalidContent
  | invalidNostrName
  | invalidDisplayName
  | invalidAbout
  | invalidPicture
  deriving DecidableEq

/-- The fields of a JSON object: a value that is not a string has no text. -/
abbrev ProfileFields : Type := List (String × Option String)

def takeField (current value : Option String) : Option (Option String) :=
  if current.isSome then none else value.map some

/-- `RawProfileVisitor::visit_map`. A field was seen if it is set. -/
def RawProfile.visitMap : RawProfile → ProfileFields → Option RawProfile
  | profile, [] => some profile
  | profile, (key, value) :: rest =>
    if key = "name" then
      (takeField profile.nostrName value).bind fun field => visitMap { profile with nostrName := field } rest
    else if key = "display_name" then
      (takeField profile.displayName value).bind fun field => visitMap { profile with displayName := field } rest
    else if key = "about" then
      (takeField profile.about value).bind fun field => visitMap { profile with about := field } rest
    else if key = "picture" then
      (takeField profile.picture value).bind fun field => visitMap { profile with picture := field } rest
    else visitMap profile rest

def classifyName (name : String) : ProfileNameClassification :=
  if name.utf8ByteSize ≤ 32 ∧ (utf8 name).all fun byte =>
      (48 ≤ byte.toNat && byte.toNat ≤ 57) || (65 ≤ byte.toNat && byte.toNat ≤ 90) ||
        (97 ≤ byte.toNat && byte.toNat ≤ 122) || byte = 45 || byte = 95 || byte = 46 then
    .handleSyntaxCandidate
  else .presentationOnly

section Verification
variable (urls : RelayUrlLibrary)

def refusedPicture (picture : String) : Bool :=
  decide (maxPictureUrlBytes < picture.utf8ByteSize) ||
    match urls.parse picture with
    | none => true
    | some url => url.scheme ≠ "https" ∨ url.host = none ∨ url.username ≠ "" ∨
      url.password ≠ none ∨ url.fragment ≠ none

def validateKnownFields (raw : RawProfile) : Except ProfileVerificationError Unit :=
  if raw.nostrName.any fun name =>
      name = "" ∨ maxExternalNostrNameBytes < name.utf8ByteSize ∨ name.toList.any isControl then
    .error .invalidNostrName
  else if raw.displayName.any fun displayName =>
      displayName = "" ∨ trim displayName ≠ displayName ∨ maxDisplayNameChars < displayName.toList.length ∨
        displayName.toList.any isControl then
    .error .invalidDisplayName
  else if raw.about.any fun about =>
      maxAboutBytes < about.utf8ByteSize ∨ about.toList.any fun c => isControl c && c ≠ '\n' && c ≠ '\t' then
    .error .invalidAbout
  else if raw.picture.any (refusedPicture urls) then .error .invalidPicture
  else .ok ()

def verifyProfileMetadata (p : Primitives) (decodeFields : String → Option ProfileFields) (event : SignedEvent)
    (expectedPublicKey : Bytes 32) (now : UInt64) (eventLimits : EventLimits) :
    Except ProfileVerificationError VerifiedNostrProfile := do
  (event.verify p now eventLimits).mapError .invalidEvent
  if event.kind ≠ profileMetadataKind then .error .wrongKind
  else if event.pubkey ≠ hexEncode expectedPublicKey.val then .error .authorMismatch
  else if event.tags ≠ [] then .error .unexpectedTags
  else
    match (decodeFields event.content).bind (RawProfile.visitMap {}) with
    | none => .error .invalidContent
    | some raw => do
      validateKnownFields urls raw
      .ok ⟨expectedPublicKey, event.id, event.createdAt, raw.nostrName, raw.nostrName.map classifyName, raw.displayName,
        raw.about, raw.picture, event⟩

end Verification

/-! ## The cache -/

def maxCachedProfiles : Nat := 4096

def maxSerializedProfileCacheBytes : Nat := 1048576

def profileCacheVersion : Nat := 1

structure VerifiedProfileCacheRecord where
  profile : VerifiedNostrProfile
  verifiedAt : UInt64
  deriving DecidableEq

def VerifiedProfileCacheRecord.persisted (record : VerifiedProfileCacheRecord) : PersistedRecord :=
  ⟨record.verifiedAt, record.profile.sourceEvent⟩

structure VerifiedProfileCache where
  records : ExtTreeMap String VerifiedProfileCacheRecord := ∅

abbrev ProfileCacheMutation : Type := Mutation

inductive ProfileCacheError where
  | invalidVerificationTime
  | invalidSourceEvent
  | rollback
  | equivocation
  | cacheFull
  | cacheTooLarge
  | invalidEncoding
  | unsupportedVersion (version : Nat)
  deriving DecidableEq

/-- The format of `profile_cache.rs` -/
def profileCacheFormat : CacheFormat ProfileCacheError where
  version := profileCacheVersion
  maxRecords := maxCachedProfiles
  maxBytes := maxSerializedProfileCacheBytes
  cacheTooLarge := .cacheTooLarge
  invalidEncoding := .invalidEncoding
  unsupportedVersion := .unsupportedVersion
  cacheFull := .cacheFull
  invalidVerificationTime := .invalidVerificationTime
  invalidKey := .invalidSourceEvent

namespace VerifiedProfileCache

def toJson (cache : VerifiedProfileCache) : Except ProfileCacheError (List UInt8) :=
  profileCacheFormat.toJson (persistedRecords VerifiedProfileCacheRecord.persisted cache.records)

/-- What `insert` makes of a profile for a user that has one. -/
def rule (profile : VerifiedNostrProfile) (current : VerifiedProfileCacheRecord) : Ruling ProfileCacheError :=
  if profile.sourceCreatedAt < current.profile.sourceCreatedAt then .refuse .rollback
  else if profile.sourceCreatedAt = current.profile.sourceCreatedAt then
    if profile.sourceEventId ≠ current.profile.sourceEventId then .refuse .equivocation else .keep
  else .replace

def insert (cache : VerifiedProfileCache) (profile : VerifiedNostrProfile) (verifiedAt : UInt64) :
    Except ProfileCacheError ProfileCacheMutation × VerifiedProfileCache :=
  if verifiedAt < profile.sourceCreatedAt then (.error .invalidVerificationTime, cache)
  else
    let inserted := insertUnder (fun records => toJson ⟨records⟩) maxCachedProfiles .cacheFull (rule profile)
      (hexEncode profile.publicKey.val) ⟨profile, verifiedAt⟩ cache.records
    (inserted.1, ⟨inserted.2⟩)

def insertVerified (p : Primitives) (urls : RelayUrlLibrary) (decodeFields : String → Option ProfileFields)
    (eventLimits : EventLimits) (cache : VerifiedProfileCache) (i : VerifiedInsertion) :
    Except ProfileCacheError ProfileCacheMutation × VerifiedProfileCache :=
  match verifyProfileMetadata urls p decodeFields i.sourceEvent i.publicKey i.now eventLimits with
  | .error _ => (.error .invalidSourceEvent, cache)
  | .ok profile => cache.insert profile i.verifiedAt

def fromJson (p : Primitives) (urls : RelayUrlLibrary) (decodeFields : String → Option ProfileFields)
    (decode : List UInt8 → Option PersistedCache) (encoded : List UInt8) (now : UInt64) (eventLimits : EventLimits) :
    Except ProfileCacheError VerifiedProfileCache :=
  profileCacheFormat.fromJson decode
    (fun publicKey record cache => inserted
      (cache.insertVerified p urls decodeFields eventLimits ⟨record.sourceEvent, publicKey, now, record.verifiedAt⟩))
    {} encoded now

end VerifiedProfileCache

end OmaChat.Nostr

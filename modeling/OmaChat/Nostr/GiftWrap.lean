import OmaChat.Nostr.Event

/-!
# Gift wraps

`gift_wrap.rs`: a chat message is a rumor; the sender seals it for the recipient and wraps the seal under a one-time key.
-/

namespace OmaChat.Nostr
open Wire

def sealKind : UInt32 := 13

def chatMessageKind : UInt32 := 14

def giftWrapKind : UInt32 := 1059

def ephemeralGiftWrapKind : UInt32 := 21059

def maxChatRecipients : Nat := 10

inductive GiftWrapError where
  | event (error : EventError)
  | encryption
  | json
  | invalidRecipientCount
  | duplicateOrSelfRecipient
  | invalidHex
  | rumorIdMismatch
  | authorMismatch
  | wrongWrapperKind
  | recipientMismatch
  | wrongSealKind
  | sealHasTags
  | rumorTooLarge
  | randomnessUnavailable
  deriving DecidableEq

section GiftWrap
variable (p : Primitives)

/-- `EventError` as a `GiftWrapError` -/
def liftEvent {α : Type} (x : Except EventError α) : Except GiftWrapError α := x.mapError .event

def xonlyPublicKey (secretKey : Bytes 32) : Except EventError (Bytes 32) :=
  match p.publicKey secretKey with
  | some key => .ok key
  | none => .error .secretKey

def Rumor.new (event : UnsignedEvent) (limits : EventLimits) : Except GiftWrapError Rumor := do
  liftEvent (event.validate limits)
  .ok ⟨hexEncode (event.id p).val, event.pubkey, event.createdAt, event.kind, event.tags, event.content⟩

/-- The fields of a rumor that its id covers. -/
def Rumor.unsigned (rumor : Rumor) : UnsignedEvent := ⟨rumor.pubkey, rumor.createdAt, rumor.kind, rumor.tags, rumor.content⟩

def Rumor.verify (rumor : Rumor) (limits : EventLimits) : Except GiftWrapError Unit := do
  liftEvent (rumor.unsigned.validate limits)
  if hexEncode (rumor.unsigned.id p).val ≠ rumor.id then .error .rumorIdMismatch else .ok ()

def Rumor.json (rumor : Rumor) : Json :=
  .obj [("id", .str rumor.id), ("pubkey", .str rumor.pubkey), ("created_at", .num rumor.createdAt.toNat),
    ("kind", .num rumor.kind.toNat), ("tags", tagsJson rumor.tags), ("content", .str rumor.content)]

/-- The `p` tags of a chat message in `create_chat_rumor`: the recipients are distinct and none is the sender. The
relay hint of a recipient is `None` wherever the daemon builds one. -/
def recipientTags (sender : String) : (seen : List String) → List (Bytes 32) → Except GiftWrapError (List Tag)
  | _, [] => .ok []
  | seen, recipient :: rest => do
    let publicKey := hexEncode recipient.val
    if publicKey = sender ∨ publicKey ∈ seen then .error .duplicateOrSelfRecipient
    else
      let tags ← recipientTags sender (publicKey :: seen) rest
      .ok (["p", publicKey] :: tags)

/-- `create_chat_rumor`, without a subject and a reply, as the chat actor calls it. -/
def createChatRumor (senderSecretKey : Bytes 32) (createdAt : UInt64) (recipients : List (Bytes 32)) (content : String)
    (limits : EventLimits) : Except GiftWrapError Rumor := do
  if recipients = [] ∨ maxChatRecipients < recipients.length then .error .invalidRecipientCount
  else
    let sender ← liftEvent (xonlyPublicKey p senderSecretKey)
    let tags ← recipientTags (hexEncode sender.val) [] recipients
    let event : UnsignedEvent := ⟨hexEncode sender.val, createdAt, chatMessageKind, tags, content⟩
    liftEvent (event.validate limits)
    Rumor.new p event limits

inductive GiftWrapPersistence where
  | persistent
  | ephemeral

def GiftWrapPersistence.kind : GiftWrapPersistence → UInt32
  | .persistent => giftWrapKind
  | .ephemeral => ephemeralGiftWrapKind

structure GiftWrapMaterial where
  sealCreatedAt : UInt64
  sealNonce : Bytes 32
  sealAuxiliaryRandomness : Bytes 32
  wrapperSecretKey : Bytes 32
  wrapperCreatedAt : UInt64
  wrapperNonce : Bytes 32
  wrapperAuxiliaryRandomness : Bytes 32

/-- `nip44_encrypt_with_nonce` -/
def encrypt (secret recipient : Bytes 32) (plaintext : String) (nonce : Bytes 32) : Except GiftWrapError String :=
  match p.nip44Encrypt secret recipient plaintext nonce with
  | some payload => .ok payload
  | none => .error .encryption

/-- `nip44_decrypt` -/
def decrypt (secret sender : Bytes 32) (payload : String) : Except GiftWrapError String :=
  match p.nip44Decrypt secret sender payload with
  | some plaintext => .ok plaintext
  | none => .error .encryption

def createGiftWrapWithMaterial (rumor : Rumor) (senderSecretKey recipientPublicKey : Bytes 32)
    (persistence : GiftWrapPersistence) (material : GiftWrapMaterial) (limits : EventLimits) :
    Except GiftWrapError SignedEvent := do
  rumor.verify p limits
  let sender ← liftEvent (xonlyPublicKey p senderSecretKey)
  if rumor.pubkey ≠ hexEncode sender.val then .error .authorMismatch
  else
    let encryptedRumor ← encrypt p senderSecretKey recipientPublicKey (Json.render rumor.json) material.sealNonce
    let sealEvent : UnsignedEvent := ⟨rumor.pubkey, material.sealCreatedAt, sealKind, [], encryptedRumor⟩
    liftEvent (sealEvent.validate limits)
    let sealSigned ← liftEvent (sealEvent.signWithAux p senderSecretKey material.sealAuxiliaryRandomness limits)
    let wrapperPublic ← liftEvent (xonlyPublicKey p material.wrapperSecretKey)
    let encryptedSeal ← encrypt p material.wrapperSecretKey recipientPublicKey (Json.render sealSigned.json)
      material.wrapperNonce
    let wrapper : UnsignedEvent := ⟨hexEncode wrapperPublic.val, material.wrapperCreatedAt, persistence.kind,
      [["p", hexEncode recipientPublicKey.val]], encryptedSeal⟩
    liftEvent (wrapper.validate limits)
    liftEvent (wrapper.signWithAux p material.wrapperSecretKey material.wrapperAuxiliaryRandomness limits)

def decodeLowerHex32 (value : String) : Except GiftWrapError (Bytes 32) := (decodeHex 32 value).mapError fun _ => .invalidHex

structure OpenedGiftWrap where
  sealEvent : SignedEvent
  rumor : Rumor

def openGiftWrap (giftWrap : SignedEvent) (recipientSecretKey : Bytes 32) (now : UInt64) (limits : EventLimits) :
    Except GiftWrapError OpenedGiftWrap := do
  liftEvent (giftWrap.verify p now limits)
  if giftWrap.kind ≠ giftWrapKind ∧ giftWrap.kind ≠ ephemeralGiftWrapKind then .error .wrongWrapperKind
  else do
    let recipient ← liftEvent (xonlyPublicKey p recipientSecretKey)
    let tags := giftWrap.tags.filter fun tag => tag.head? = some "p"
    if tags.map (·[1]?) ≠ [some (hexEncode recipient.val)] then .error .recipientMismatch
    else do
      let wrapperPublic ← decodeLowerHex32 giftWrap.pubkey
      let sealJson ← decrypt p recipientSecretKey wrapperPublic giftWrap.content
      let sealEvent ← liftEvent (SignedEvent.fromJson p (utf8 sealJson) now limits)
      if sealEvent.kind ≠ sealKind then .error .wrongSealKind
      else if sealEvent.tags ≠ [] then .error .sealHasTags
      else do
        let authorPublic ← decodeLowerHex32 sealEvent.pubkey
        let rumorJson ← decrypt p recipientSecretKey authorPublic sealEvent.content
        if limits.maxSerializedBytes < rumorJson.utf8ByteSize then .error .rumorTooLarge
        else
          match p.decodeRumor rumorJson with
          | none => .error .json
          | some rumor => do
            rumor.verify p limits
            if rumor.pubkey ≠ sealEvent.pubkey then .error .authorMismatch else .ok ⟨sealEvent, rumor⟩

end GiftWrap

end OmaChat.Nostr

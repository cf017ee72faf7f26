import OmaChat.Nostr.Checks

/-!
# Primitives without secrets

`transparent` reads the primitives so that every operation succeeds and can be computed: the public key is the secret, a
signature is the key and the message, an encrypted text is the text. It parses the rumors and seals it is given. With it
there is a gift wrap for every rumor that is not too long (`transparent_wraps`).
-/

namespace OmaChat.Nostr
open Wire

variable {createdAt sealed wrapped : UInt64} {key recipient secret : Bytes 32} {text : String}

/-! ## The primitives -/

/-- A hash: the length in one byte, and the number that the bytes stand for modulo `2 ^ 248 - 1` in the others. -/
def remainderHash (bytes : List UInt8) : Bytes 32 :=
  ⟨UInt8.ofNat bytes.length :: beBytes 31 (bytes.foldl (fun h b => (h * 256 + b.toNat) % (2 ^ 248 - 1)) 0), by simp [beBytes]⟩

theorem remainderHash_ne {a b : List UInt8} (h : a.length % 256 ≠ b.length % 256) : remainderHash a ≠ remainderHash b := by
  intro heq
  have hhead := (List.cons.inj (congrArg Subtype.val heq)).1
  apply h
  simpa using congrArg UInt8.toNat hhead

/-- The key in a text that starts with `hrp`. -/
def keyFrom (hrp text : String) : Option (Bytes 32) :=
  if hrp.toList <+: text.toList then (hexDecodeChars (text.toList.drop hrp.length)).bind (Bytes.ofList? 32) else none

/-- The primitives without secrets, with the rumors and seals that can be parsed. -/
def transparent (rumors : List Rumor) (seals : List SignedEvent) : Primitives where
  publicKey secret := some secret
  keyValid _ := true
  sha256 := remainderHash
  sign secret message _ := some ⟨secret.val ++ message.val, by rw [List.length_append, secret.2, message.2]⟩
  verify key message signature := signature.val == key.val ++ message.val
  nip44Encrypt _ _ plaintext _ := some plaintext
  nip44Decrypt _ _ payload := some payload
  npub key := "npub1" ++ hexEncode key.val
  fromNpub := keyFrom "npub1"
  fromNsec := keyFrom "nsec1"
  decodeEvent bytes := seals.find? fun event => utf8 event.json.render == bytes
  decodeRumor text := rumors.find? fun rumor => rumor.json.render == text

theorem npub_eq (key : Bytes 32) :
    trim ("npub1" ++ hexEncode key.val) = "npub1" ++ hexEncode key.val ∧
      '@' ∉ ("npub1" ++ hexEncode key.val).toList ∧ keyFrom "npub1" ("npub1" ++ hexEncode key.val) = some key := by
  have hdig : ∀ n < 16, isWhitespace (hexDigit n) = false ∧ hexDigit n ≠ '@' := by decide +kernel
  have hhrp : ∀ c ∈ "npub1".toList, isWhitespace c = false ∧ c ≠ '@' := by
    have hall : ("npub1".toList.all fun c => !isWhitespace c && c != '@') = true := by decide
    simpa using List.all_eq_true.1 hall
  have hchars : ∀ c ∈ ("npub1" ++ hexEncode key.val).toList, isWhitespace c = false ∧ c ≠ '@' := by
    intro c hc
    rw [String.toList_append, List.mem_append] at hc
    rcases hc with hc | hc
    · exact hhrp c hc
    · obtain ⟨n, hn, rfl⟩ := mem_hexEncode hc
      exact hdig n hn
  refine ⟨trim_eq_self fun c hc => (hchars c hc).1, fun hmem => (hchars _ hmem).2 rfl, ?_⟩
  have hdec := hexDecode_hexEncode key.val
  unfold hexDecode at hdec
  rw [keyFrom, String.toList_append, if_pos (List.prefix_append _ _),
    show ("npub1".toList ++ (hexEncode key.val).toList).drop "npub1".length = (hexEncode key.val).toList from rfl, hdec]
  simp

/-- Those that parse no rumor and no seal. -/
abbrev unsealed : Primitives := transparent [] []

def signed (event : UnsignedEvent) (key : Bytes 32) : SignedEvent :=
  let id := remainderHash (utf8 event.canonicalJson)
  ⟨hexEncode id.val, event.pubkey, event.createdAt, event.kind, event.tags, event.content, hexEncode (key.val ++ id.val)⟩

def sealOf (rumor : Rumor) (secret : Bytes 32) (createdAt : UInt64) : SignedEvent :=
  signed ⟨rumor.pubkey, createdAt, sealKind, [], rumor.json.render⟩ secret

def wrapOf (sealEvent : SignedEvent) (recipient key : Bytes 32) (createdAt : UInt64) : SignedEvent :=
  signed ⟨hexEncode key.val, createdAt, giftWrapKind, [["p", hexEncode recipient.val]], sealEvent.json.render⟩ key

/-! ## Gift wraps -/

section
variable {rumors : List Rumor} {seals : List SignedEvent}

@[simp] theorem transparent_publicKey (secret : Bytes 32) : (transparent rumors seals).publicKey secret = some secret := rfl

def signature (event : UnsignedEvent) (key : Bytes 32) : Bytes 64 :=
  ⟨key.val ++ (remainderHash (utf8 event.canonicalJson)).val, by
    rw [List.length_append, key.2, (remainderHash (utf8 event.canonicalJson)).2]⟩

theorem signed_eq_withSignature (rumors : List Rumor) (seals : List SignedEvent) (event : UnsignedEvent) (key : Bytes 32) :
    signed event key = event.withSignature (transparent rumors seals) (signature event key) := rfl

variable {event : UnsignedEvent} {rumor : Rumor} {now : UInt64}

theorem transparent_signs {auxiliary : Bytes 32} (hkey : event.pubkey = hexEncode key.val)
    (hv : event.validate {} = .ok ()) :
    event.signWithAux (transparent rumors seals) key auxiliary {} = .ok (signed event key) := by
  rw [signWithAux_ok_iff]
  exact ⟨hv, key, signature event key, rfl, by rw [hkey, decodeHex_hexEncode], rfl, signed_eq_withSignature _ _ event key⟩

/-- **There is a gift wrap for every rumor** of the sender whose seal and wrap are not too long. -/
theorem transparent_wraps {material : GiftWrapMaterial}
    (hverify : rumor.verify (transparent rumors seals) {} = .ok ()) (hkey : rumor.pubkey = hexEncode secret.val)
    (hrumor : rumor.json.size ≤ 65536) (hseal : (sealOf rumor secret material.sealCreatedAt).json.size ≤ 65536) :
    createGiftWrapWithMaterial (transparent rumors seals) rumor secret recipient .persistent material {} =
      .ok (wrapOf (sealOf rumor secret material.sealCreatedAt) recipient material.wrapperSecretKey
        material.wrapperCreatedAt) := by
  rw [createGiftWrap_ok_iff]
  refine ⟨sealOf rumor secret material.sealCreatedAt, hverify, ?_, ?_⟩
  · refine ⟨secret, rumor.json.render, rfl, hkey, rfl, transparent_signs hkey ?_⟩
    show UnsignedEvent.validate ⟨rumor.pubkey, _, _, _, _⟩ _ = _
    rw [hkey]
    exact validate_eq_ok (.inl rfl) (by rw [Json.utf8ByteSize_render]; exact hrumor)
  · refine ⟨material.wrapperSecretKey, (sealOf rumor secret material.sealCreatedAt).json.render, rfl, rfl,
      transparent_signs rfl (validate_eq_ok (.inr ⟨recipient, rfl⟩) ?_)⟩
    rw [Json.utf8ByteSize_render]
    exact hseal

theorem transparent_verifies (hkey : event.pubkey = hexEncode key.val) (hv : event.validate {} = .ok ())
    (hsize : (signed event key).json.size ≤ 262144) (htime : event.createdAt ≤ satAdd now (15 * 60)) :
    Verified (transparent rumors seals) (signed event key) now {} := by
  rw [signed_eq_withSignature rumors seals] at hsize ⊢
  have hdec : decodeHex 32 event.pubkey = .ok key := by rw [hkey, decodeHex_hexEncode]
  have hverify : (transparent rumors seals).verify key (event.id (transparent rumors seals)) (signature event key) =
      true := beq_self_eq_true _
  exact verified_withSignature hdec hv rfl hverify hsize htime

/-- **A gift wrap that was made for a recipient opens for them,** if its rumor and its seal can be parsed. -/
theorem transparent_opens (hrumors : rumors.find? (fun other => other.json.render == rumor.json.render) = some rumor)
    (hseals : seals.find? (fun other => utf8 other.json.render == utf8 (sealOf rumor secret sealed).json.render) =
      some (sealOf rumor secret sealed))
    (hverify : rumor.verify (transparent rumors seals) {} = .ok ()) (hkey : rumor.pubkey = hexEncode secret.val)
    (hrumor : rumor.json.size ≤ 65536) (hseal : (sealOf rumor secret sealed).json.size ≤ 65536)
    (hwrap : (wrapOf (sealOf rumor secret sealed) recipient key wrapped).json.size ≤ 262144)
    (hsealed : sealed ≤ satAdd now (15 * 60)) (hwrapped : wrapped ≤ satAdd now (15 * 60)) :
    openGiftWrap (transparent rumors seals) (wrapOf (sealOf rumor secret sealed) recipient key wrapped) recipient now {} =
      .ok ⟨sealOf rumor secret sealed, rumor⟩ := by
  have hrumorText : rumor.json.render.utf8ByteSize ≤ 65536 := by rw [Json.utf8ByteSize_render]; exact hrumor
  have hsealText : (sealOf rumor secret sealed).json.render.utf8ByteSize ≤ 65536 := by
    rw [Json.utf8ByteSize_render]; exact hseal
  have hsealValid : UnsignedEvent.validate ⟨rumor.pubkey, sealed, sealKind, [], rumor.json.render⟩ {} = .ok () := by
    rw [hkey]
    exact validate_eq_ok (.inl rfl) hrumorText
  rw [openGiftWrap_ok_iff]
  exact {
    wrapVerified := transparent_verifies rfl (validate_eq_ok (.inr ⟨recipient, rfl⟩) hsealText) hwrap hwrapped
    kind := .inl rfl
    recipient := ⟨recipient, rfl, rfl⟩
    wrapped := ⟨key, _, decodeHex_hexEncode key, rfl, Nat.le_trans hsealText (by decide), hseals⟩
    sealVerified := transparent_verifies hkey hsealValid (Nat.le_trans hseal (by decide)) hsealed
    sealKind := rfl
    sealTags := rfl
    sealed := ⟨secret, _, show decodeHex 32 rumor.pubkey = _ by rw [hkey, decodeHex_hexEncode], rfl,
      Nat.le_trans hrumorText (by decide), hrumors⟩
    rumorVerified := hverify
    author := rfl }

/-! ## Chat messages -/

def chatRumor (secret recipient : Bytes 32) (createdAt : UInt64) (text : String) : Rumor :=
  let event : UnsignedEvent := ⟨hexEncode secret.val, createdAt, chatMessageKind, [["p", hexEncode recipient.val]], text⟩
  ⟨hexEncode (remainderHash (utf8 event.canonicalJson)).val, event.pubkey, createdAt, chatMessageKind, event.tags, text⟩

theorem chatRumor_eq_chatMessage (rumors : List Rumor) (seals : List SignedEvent) :
    chatRumor secret recipient createdAt text = chatMessage (transparent rumors seals) secret recipient createdAt text := rfl

theorem transparent_createChatRumor (hne : recipient ≠ secret) (htext : text.utf8ByteSize ≤ 65536) :
    createChatRumor (transparent rumors seals) secret createdAt [recipient] text {} =
      .ok (chatRumor secret recipient createdAt text) := by
  rw [chatRumor_eq_chatMessage rumors seals]
  exact createChatRumor_eq rfl hne htext

theorem transparent_verify_chatRumor (htext : text.utf8ByteSize ≤ 65536) :
    (chatRumor secret recipient createdAt text).verify (transparent rumors seals) {} = .ok () := by
  rw [chatRumor_eq_chatMessage rumors seals]
  exact verify_chatMessage htext

theorem size_chatRumor_le : (chatRumor secret recipient createdAt text).json.size ≤ 1500 + Json.escapedSize text := by
  rw [chatRumor_eq_chatMessage [] []]
  exact size_chatMessage_le

theorem size_signed_le (hkey : event.pubkey = hexEncode key.val) :
    (signed event key).json.size ≤ 2000 + (tagsJson event.tags).size + Json.escapedSize event.content := by
  rw [signed_eq_withSignature [] []]
  exact size_withSignature_le (by rw [hkey, utf8ByteSize_hexEncode, key.property])

theorem size_sealOf_le (hkey : rumor.pubkey = hexEncode secret.val) :
    (sealOf rumor secret createdAt).json.size ≤ 2002 + 6 * rumor.json.size := by
  have hsigned : (sealOf rumor secret createdAt).json.size ≤
      2000 + (tagsJson []).size + Json.escapedSize rumor.json.render := size_signed_le hkey
  have htags : (tagsJson []).size = 2 := rfl
  have hcont := Json.escapedSize_le rumor.json.render
  rw [Json.utf8ByteSize_render] at hcont
  omega

theorem size_wrapOf_le {sealEvent : SignedEvent} :
    (wrapOf sealEvent recipient key createdAt).json.size ≤ 2500 + 6 * sealEvent.json.size := by
  have hsigned : (wrapOf sealEvent recipient key createdAt).json.size ≤
      2000 + (tagsJson [["p", hexEncode recipient.val]]).size + Json.escapedSize sealEvent.json.render :=
    size_signed_le rfl
  have htags := size_tag_le recipient
  have hcont := Json.escapedSize_le sealEvent.json.render
  rw [Json.utf8ByteSize_render] at hcont
  omega

theorem chatRumor_id_ne {createdAt' : UInt64} {text' : String}
    (h : ((Json.num createdAt.toNat).size + Json.escapedSize text) % 256 ≠
      ((Json.num createdAt'.toNat).size + Json.escapedSize text') % 256) :
    (chatRumor secret recipient createdAt text).id ≠ (chatRumor secret recipient createdAt' text').id := by
  refine fun hid => remainderHash_ne ?_ (hexEncode_val_inj hid)
  simp [length_utf8, UnsignedEvent.canonicalJson, Json.utf8ByteSize_render, Json.size_arr, Json.size_str]
  omega

theorem size_chat_le (htext : Json.escapedSize text ≤ 5000) (sealed : UInt64) :
    text.utf8ByteSize ≤ 65536 ∧ (chatRumor secret recipient createdAt text).json.size ≤ 6500 ∧
      (sealOf (chatRumor secret recipient createdAt text) secret sealed).json.size ≤ 65536 := by
  have hb := Json.utf8ByteSize_le_escapedSize text
  have hrumor : (chatRumor secret recipient createdAt text).json.size ≤ 1500 + Json.escapedSize text := size_chatRumor_le
  have hseal : (sealOf (chatRumor secret recipient createdAt text) secret sealed).json.size ≤
      2002 + 6 * (chatRumor secret recipient createdAt text).json.size := size_sealOf_le rfl
  omega

theorem transparent_wraps_chat (htext : Json.escapedSize text ≤ 5000) (reader : Bytes 32) (material : GiftWrapMaterial) :
    createGiftWrapWithMaterial (transparent rumors seals) (chatRumor secret recipient createdAt text) secret reader
      .persistent material {} = .ok (wrapOf (sealOf (chatRumor secret recipient createdAt text) secret
        material.sealCreatedAt) reader material.wrapperSecretKey material.wrapperCreatedAt) := by
  obtain ⟨hb, hrumor, hseal⟩ := size_chat_le htext material.sealCreatedAt
  exact transparent_wraps (transparent_verify_chatRumor hb) rfl (Nat.le_trans hrumor (by decide)) hseal

end

theorem transparent_opens_chat (htext : Json.escapedSize text ≤ 5000) {reader : Bytes 32} (now : UInt64)
    (hsealed : sealed ≤ satAdd now (15 * 60)) (hwrapped : wrapped ≤ satAdd now (15 * 60)) :
    let rumor := chatRumor secret recipient createdAt text
    openGiftWrap (transparent [rumor] [sealOf rumor secret sealed])
      (wrapOf (sealOf rumor secret sealed) reader key wrapped) reader now {} = .ok ⟨sealOf rumor secret sealed, rumor⟩ := by
  intro rumor
  obtain ⟨hb, hrumor, hseal⟩ : text.utf8ByteSize ≤ 65536 ∧ rumor.json.size ≤ 6500 ∧
    (sealOf rumor secret sealed).json.size ≤ 65536 := size_chat_le htext sealed
  have hsealLe : (sealOf rumor secret sealed).json.size ≤ 2002 + 6 * rumor.json.size := size_sealOf_le rfl
  have hwrap : (wrapOf (sealOf rumor secret sealed) reader key wrapped).json.size ≤
      2500 + 6 * (sealOf rumor secret sealed).json.size := size_wrapOf_le
  exact transparent_opens (by simp) (by simp) (transparent_verify_chatRumor hb) rfl (by omega) hseal (by omega)
    hsealed hwrapped

end OmaChat.Nostr

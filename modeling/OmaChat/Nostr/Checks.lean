import OmaChat.Nostr.GiftWrap

/-!
# What the checks of events and gift wraps accept

Each function that checks or builds an event succeeds exactly under the conditions that stand here as one structure:

* `Verified` for `SignedEvent::verify` (`verify_ok_iff`);
* `Opens` for `open_gift_wrap` (`openGiftWrap_ok_iff`);
* `Wraps` for `create_gift_wrap_with_material` (`createGiftWrap_ok_iff`).
-/

namespace OmaChat.Nostr
open Wire

variable {createdAt now : UInt64} {event : UnsignedEvent} {limits : EventLimits} {p : Primitives}
  {recipient secret sender : Bytes 32} {rumor : Rumor} {value : String}

/-! ## Steps that can fail -/

variable {α β ε : Type} {key : Bytes 32} {n tagIndex : Nat} {payload plaintext : String} {tags : List Tag} {x : Except ε α}
  {a : α} {f : α → Except ε β} {b : β}

theorem bind_ok_iff : (x >>= f) = .ok b ↔ ∃ a, x = .ok a ∧ f a = .ok b := by
  cases x with
  | error e =>
    constructor
    · intro h
      cases h
    · intro ⟨a, ha, _⟩
      cases ha
  | ok a =>
    constructor
    · intro h
      exact ⟨a, rfl, h⟩
    · intro ⟨a', ha, hb⟩
      rw [Except.ok.inj ha]
      exact hb

theorem then_ok_iff {x : Except ε Unit} {f : Unit → Except ε β} : (x >>= f) = .ok b ↔ x = .ok () ∧ f () = .ok b := by
  rw [bind_ok_iff, Unique.exists_iff]

theorem bind_of_ok (h : x = .ok a) : (x >>= f) = f a := by
  rw [h]
  rfl

theorem mapError_ok_iff {ε' : Type} {f : ε → ε'} : x.mapError f = .ok a ↔ x = .ok a := by
  cases x <;> simp [Except.mapError]

theorem liftEvent_ok_iff {x : Except EventError α} : liftEvent x = .ok a ↔ x = .ok a := mapError_ok_iff

theorem refuse_ok_iff {c : Prop} [Decidable c] {e : ε} : (if c then .error e else x) = .ok a ↔ ¬ c ∧ x = .ok a := by
  split_ifs with h
  · simp [h]
  · simp [h]

theorem xonlyPublicKey_ok_iff : xonlyPublicKey p secret = .ok key ↔ p.publicKey secret = some key := by
  unfold xonlyPublicKey
  cases p.publicKey secret <;> simp

theorem encrypt_ok_iff {nonce : Bytes 32} : encrypt p secret recipient plaintext nonce = .ok payload ↔
      p.nip44Encrypt secret recipient plaintext nonce = some payload := by
  unfold encrypt
  cases p.nip44Encrypt secret recipient plaintext nonce <;> simp

theorem decrypt_ok_iff :
    decrypt p secret sender payload = .ok plaintext ↔ p.nip44Decrypt secret sender payload = some plaintext := by
  unfold decrypt
  cases p.nip44Decrypt secret sender payload <;> simp

/-! ## Hexadecimal keys and valid events -/

theorem isLowerHex_hexDigit : ∀ n < 16, ∀ b ∈ String.utf8EncodeChar (hexDigit n), isLowerHex b = true := by
  decide +kernel

theorem decodeHex_hexEncode (b : Bytes n) : decodeHex n (hexEncode b.val) = .ok b := by
  have hlower : ((utf8 (hexEncode b.val)).any fun x => !isLowerHex x) = false := by
    rw [List.any_eq_false]
    intro x hx
    obtain ⟨k, hk, hx⟩ := mem_utf8_hexEncode hx
    rw [isLowerHex_hexDigit k hk x hx]
    decide
  have hsize : (hexEncode b.val).utf8ByteSize = n * 2 := by rw [utf8ByteSize_hexEncode, b.property, Nat.mul_comm]
  unfold decodeHex
  rw [if_neg (by simp [hsize, hlower]), hexDecode_hexEncode]
  simp

theorem hexDigit_of_isLowerHex {c : Char} (h : ∀ b ∈ String.utf8EncodeChar c, isLowerHex b = true) :
    ∃ n < 16, c = hexDigit n := by
  -- the first byte of a character that takes more than one byte is at least 128
  have hbyte : ∀ n < 256, isLowerHex (UInt8.ofNat n) = true → 48 ≤ n ∧ n ≤ 57 ∨ 97 ≤ n ∧ n ≤ 102 := by
    intro n hn hlower
    have hnat : (UInt8.ofNat n).toNat = n := UInt8.toNat_ofNat_of_lt' hn
    simpa [isLowerHex, hnat] using hlower
  have hc : 48 ≤ c.toNat ∧ c.toNat ≤ 57 ∨ 97 ≤ c.toNat ∧ c.toNat ≤ 102 := by
    unfold String.utf8EncodeChar at h
    have hval : c.val.toNat = c.toNat := rfl
    dsimp only at h
    rw [hval] at h
    split_ifs at h with h1 h2 h3
    · exact hbyte _ (by omega) (h _ List.mem_cons_self)
    · have := hbyte _ (by omega) (h _ List.mem_cons_self)
      omega
    · have := hbyte _ (by omega) (h _ List.mem_cons_self)
      omega
    · have := hbyte _ (by omega) (h _ List.mem_cons_self)
      omega
  rcases hc with hdig | hletter
  · refine ⟨c.toNat - 48, by omega, ?_⟩
    rw [hexDigit, if_pos (by omega), Nat.add_sub_cancel' hdig.1, Char.ofNat_toNat]
  · refine ⟨c.toNat - 87, by omega, ?_⟩
    rw [hexDigit, if_neg (by omega), Nat.add_sub_cancel' (by omega), Char.ofNat_toNat]

theorem decodeHex_ok_iff {bytes : Bytes n} : decodeHex n value = .ok bytes ↔ value = hexEncode bytes.val := by
  constructor
  · intro h
    unfold decodeHex at h
    obtain ⟨hv, h⟩ := refuse_ok_iff.1 h
    have hlower : ∀ c ∈ value.toList, ∃ n < 16, c = hexDigit n := by
      intro c hc
      refine hexDigit_of_isLowerHex fun b hb => ?_
      by_contra hnot
      refine hv (.inr (List.any_eq_true.2 ⟨b, ?_, by simpa using hnot⟩))
      rw [← String.ofList_toList (s := value), utf8_ofList]
      exact List.mem_flatMap.2 ⟨c, hc, hb⟩
    cases hdec : hexDecode value with
    | none =>
      rw [hdec] at h
      cases h
    | some l =>
      rw [hdec, Option.bind_some] at h
      unfold Bytes.ofList? at h
      split_ifs at h
      cases h
      exact (hexEncode_of_hexDecode hlower hdec).symm
  · intro h
    rw [h]
    exact decodeHex_hexEncode bytes
theorem validateFields_ok_iff {fieldIndex : Nat} {tag : Tag} : validateFields limits tagIndex fieldIndex tag = .ok () ↔
      ∀ field ∈ tag, field.utf8ByteSize ≤ limits.maxTagFieldBytes := by
  induction tag generalizing fieldIndex with
  | nil => simp [validateFields]
  | cons field rest ih =>
    unfold validateFields
    rw [refuse_ok_iff, ih, List.forall_mem_cons, not_lt]

theorem validateTags_ok_iff : validateTags limits tagIndex tags = .ok () ↔
      ∀ tag ∈ tags, tag.length ≤ limits.maxTagFields ∧
        ∀ field ∈ tag, field.utf8ByteSize ≤ limits.maxTagFieldBytes := by
  induction tags generalizing tagIndex with
  | nil => simp [validateTags]
  | cons tag rest ih =>
    unfold validateTags
    rw [refuse_ok_iff, List.forall_mem_cons, not_lt, then_ok_iff, validateFields_ok_iff, ih, and_assoc]

theorem validate_ok_iff : event.validate limits = .ok () ↔
      (∃ key, decodeHex 32 event.pubkey = .ok key) ∧ event.content.utf8ByteSize ≤ limits.maxContentBytes ∧
        event.tags.length ≤ limits.maxTags ∧
        ∀ tag ∈ event.tags, tag.length ≤ limits.maxTagFields ∧
          ∀ field ∈ tag, field.utf8ByteSize ≤ limits.maxTagFieldBytes := by
  unfold UnsignedEvent.validate
  rw [bind_ok_iff]
  simp [refuse_ok_iff, validateTags_ok_iff]

theorem validate_eq_ok {kind : UInt32} {content : String}
    (htags : tags = [] ∨ ∃ recipient : Bytes 32, tags = [["p", hexEncode recipient.val]])
    (hcont : content.utf8ByteSize ≤ 65536) :
    UnsignedEvent.validate ⟨hexEncode key.val, createdAt, kind, tags, content⟩ {} = .ok () := by
  rw [validate_ok_iff]
  refine ⟨⟨key, decodeHex_hexEncode key⟩, hcont, ?_⟩
  obtain rfl | ⟨recipient, rfl⟩ := htags
  · simp
  · have hsize : (hexEncode recipient.val).utf8ByteSize = 64 := by rw [utf8ByteSize_hexEncode, recipient.property]
    have hname : "p".utf8ByteSize = 1 := by decide
    simp [hsize, hname]

theorem hexEncode_val_inj {a b : Bytes n} (h : hexEncode a.val = hexEncode b.val) : a = b := by
  have hd := hexDecode_hexEncode a.val
  rw [h, hexDecode_hexEncode, Option.some.injEq] at hd
  exact Subtype.ext hd.symm

/-! ## Events -/

section
/-- What `SignedEvent::verify` accepts: the sizes and the time, the id, and the signature of the event's key. -/
structure Verified (p : Primitives) (event : SignedEvent) (now : UInt64) (limits : EventLimits) : Prop where
  size : event.json.size ≤ limits.maxSerializedBytes
  time : event.createdAt ≤ satAdd now limits.maxFutureSeconds
  valid : event.unsigned.validate limits = .ok ()
  id : decodeHex 32 event.id = .ok (event.unsigned.id p)
  signed : ∃ (key : Bytes 32) (signature : Bytes 64), decodeHex 32 event.pubkey = .ok key ∧ p.keyValid key = true ∧
    decodeHex 64 event.sig = .ok signature ∧ p.verify key (event.unsigned.id p) signature = true

theorem verify_ok_iff {event : SignedEvent} : event.verify p now limits = .ok () ↔ Verified p event now limits := by
  unfold SignedEvent.verify
  simp only [refuse_ok_iff, bind_ok_iff, Json.utf8ByteSize_render, not_lt, UInt64.not_lt]
  constructor
  · rintro ⟨hsize, htime, ⟨⟩, hv, id, hid, hne, key, hkey, hcheck, signature, hsig, hverify⟩
    rw [not_not] at hne
    refine ⟨hsize, htime, hv, by rw [hne]; exact hid, key, signature, hkey, by simpa using hcheck, hsig, ?_⟩
    by_contra hfalse
    rw [if_neg hfalse] at hverify
    cases hverify
  · intro ⟨hsize, htime, hv, hid, key, signature, hkey, hcheck, hsig, hverify⟩
    exact ⟨hsize, htime, (), hv, _, hid, not_not.2 rfl, key, hkey, by simp [hcheck], signature, hsig, if_pos hverify⟩

theorem fromJson_ok_iff {bytes : List UInt8} {event : SignedEvent} :
    SignedEvent.fromJson p bytes now limits = .ok event ↔
      bytes.length ≤ limits.maxSerializedBytes ∧ p.decodeEvent bytes = some event ∧ Verified p event now limits := by
  unfold SignedEvent.fromJson
  rw [refuse_ok_iff, not_lt, ← verify_ok_iff]
  cases p.decodeEvent bytes with
  | none => simp
  | some decoded =>
    constructor
    · intro ⟨hlen, h⟩
      obtain ⟨⟨⟩, hverify, hok⟩ := bind_ok_iff.1 h
      obtain rfl : decoded = event := Except.ok.inj hok
      exact ⟨hlen, rfl, hverify⟩
    · intro ⟨hlen, hdec, hverify⟩
      obtain rfl : decoded = event := Option.some.inj hdec
      exact ⟨hlen, bind_ok_iff.2 ⟨(), hverify, rfl⟩⟩

def UnsignedEvent.withSignature (p : Primitives) (event : UnsignedEvent) (signature : Bytes 64) : SignedEvent :=
  ⟨hexEncode (event.id p).val, event.pubkey, event.createdAt, event.kind, event.tags, event.content, hexEncode signature.val⟩

variable {signature : Bytes 64}

theorem signWithAux_ok_iff {auxiliary : Bytes 32} {result : SignedEvent} :
    event.signWithAux p secret auxiliary limits = .ok result ↔
      event.validate limits = .ok () ∧ ∃ key signature, p.publicKey secret = some key ∧
        decodeHex 32 event.pubkey = .ok key ∧ p.sign secret (event.id p) auxiliary = some signature ∧
        result = event.withSignature p signature := by
  unfold UnsignedEvent.signWithAux
  rw [bind_ok_iff]
  constructor
  · rintro ⟨⟨⟩, hv, h⟩
    refine ⟨hv, ?_⟩
    cases hkey : p.publicKey secret with
    | none =>
      rw [hkey] at h
      cases h
    | some key =>
      rw [hkey] at h
      obtain ⟨pubkey, hpk, h⟩ := bind_ok_iff.1 h
      obtain ⟨hne, h⟩ := refuse_ok_iff.1 h
      rw [not_not] at hne
      cases hsign : p.sign secret (event.id p) auxiliary with
      | none =>
        rw [hsign] at h
        cases h
      | some signature =>
        rw [hsign] at h
        exact ⟨key, signature, rfl, by rw [hne]; exact hpk, rfl, (Except.ok.inj h).symm⟩
  · intro ⟨hv, key, signature, hkey, hpk, hsign, hres⟩
    refine ⟨(), hv, ?_⟩
    rw [hkey]
    refine bind_ok_iff.2 ⟨key, hpk, refuse_ok_iff.2 ⟨not_not.2 rfl, ?_⟩⟩
    rw [hsign, hres]
    rfl

theorem verified_withSignature (hkey : decodeHex 32 event.pubkey = .ok key) (hv : event.validate limits = .ok ())
    (hkeyValid : p.keyValid key = true) (hverify : p.verify key (event.id p) signature = true)
    (hsize : (event.withSignature p signature).json.size ≤ limits.maxSerializedBytes)
    (htime : event.createdAt ≤ satAdd now limits.maxFutureSeconds) :
    Verified p (event.withSignature p signature) now limits :=
  ⟨hsize, htime, hv, decodeHex_hexEncode _, key, signature, hkey, hkeyValid, decodeHex_hexEncode _, hverify⟩

/-! ## Sizes -/

theorem size_time_le (t : UInt64) : (Json.num t.toNat).size ≤ 20 :=
  Json.size_num_le (by decide) (Nat.lt_trans t.toNat_lt (by decide))

theorem size_withSignature_le (hkey : event.pubkey.utf8ByteSize = 2 * 32) : (event.withSignature p signature).json.size ≤
      2000 + (tagsJson event.tags).size + Json.escapedSize event.content := by
  have hpk := Json.escapedSize_le event.pubkey
  have hid := Json.escapedSize_hexEncode (event.id p)
  have hsig := Json.escapedSize_hexEncode signature
  have htime := size_time_le event.createdAt
  have hkind : (Json.num event.kind.toNat).size ≤ 10 :=
    Json.size_num_le (by decide) (Nat.lt_trans event.kind.toNat_lt (by decide))
  have hkeys : Json.escapedSize "id" = 2 ∧ Json.escapedSize "pubkey" = 6 ∧ Json.escapedSize "created_at" = 10 ∧
      Json.escapedSize "kind" = 4 ∧ Json.escapedSize "tags" = 4 ∧ Json.escapedSize "content" = 7 ∧
      Json.escapedSize "sig" = 3 := by decide
  simp [UnsignedEvent.withSignature, SignedEvent.json, Json.size_obj, Json.fieldSize, Json.size_str]
  omega

end

/-! ## Gift wraps -/

section
/-- What `open_gift_wrap` accepts, layer by layer: the wrap and its recipient, the seal in it, the rumor in the seal. -/
structure Opens (p : Primitives) (giftWrap : SignedEvent) (secret : Bytes 32) (now : UInt64) (limits : EventLimits)
    (sealEvent : SignedEvent) (rumor : Rumor) : Prop where
  wrapVerified : Verified p giftWrap now limits
  kind : giftWrap.kind = giftWrapKind ∨ giftWrap.kind = ephemeralGiftWrapKind
  recipient : ∃ recipient, p.publicKey secret = some recipient ∧
    (giftWrap.tags.filter fun tag => tag.head? = some "p").map (·[1]?) = [some (hexEncode recipient.val)]
  wrapped : ∃ key sealJson, decodeHex 32 giftWrap.pubkey = .ok key ∧
    p.nip44Decrypt secret key giftWrap.content = some sealJson ∧
    sealJson.utf8ByteSize ≤ limits.maxSerializedBytes ∧ p.decodeEvent (utf8 sealJson) = some sealEvent
  sealVerified : Verified p sealEvent now limits
  sealKind : sealEvent.kind = Nostr.sealKind
  sealTags : sealEvent.tags = []
  sealed : ∃ author rumorJson, decodeHex 32 sealEvent.pubkey = .ok author ∧
    p.nip44Decrypt secret author sealEvent.content = some rumorJson ∧
    rumorJson.utf8ByteSize ≤ limits.maxSerializedBytes ∧ p.decodeRumor rumorJson = some rumor
  rumorVerified : rumor.verify p limits = .ok ()
  author : rumor.pubkey = sealEvent.pubkey

theorem decodeLowerHex32_ok_iff {bytes : Bytes 32} :
    decodeLowerHex32 value = .ok bytes ↔ decodeHex 32 value = .ok bytes := mapError_ok_iff

variable {giftWrap : SignedEvent}

theorem openGiftWrap_ok_iff {sealEvent : SignedEvent} : openGiftWrap p giftWrap secret now limits = .ok ⟨sealEvent, rumor⟩ ↔
      Opens p giftWrap secret now limits sealEvent rumor := by
  unfold openGiftWrap
  simp only [bind_ok_iff, liftEvent_ok_iff, refuse_ok_iff, xonlyPublicKey_ok_iff, decodeLowerHex32_ok_iff,
    decrypt_ok_iff, fromJson_ok_iff, length_utf8, not_lt, not_not]
  constructor
  · rintro ⟨⟨⟩, hwrap, hkind, recipient, hrcpt, htags, key, hkey, sealJson, hseal, decoded,
      ⟨hsealSize, hdecoded, hsealVerified⟩, hsealKind, hsealTags, author, hauth, rumorJson, hrumor, hrumorSize, h⟩
    cases hdec : p.decodeRumor rumorJson with
    | none =>
      rw [hdec] at h
      cases h
    | some read =>
      rw [hdec] at h
      obtain ⟨⟨⟩, hverify, h⟩ := bind_ok_iff.1 h
      obtain ⟨hpk, h⟩ := refuse_ok_iff.1 h
      obtain ⟨rfl, rfl⟩ : decoded = sealEvent ∧ read = rumor := by simpa using h
      exact ⟨verify_ok_iff.1 hwrap, (not_and_or.1 hkind).imp not_not.1 not_not.1, ⟨recipient, hrcpt, htags⟩,
        ⟨key, sealJson, hkey, hseal, hsealSize, hdecoded⟩, hsealVerified, hsealKind, hsealTags,
        ⟨author, rumorJson, hauth, hrumor, hrumorSize, hdec⟩, hverify, not_not.1 hpk⟩
  · intro ⟨hwrap, hkind, ⟨recipient, hrcpt, htags⟩, ⟨key, sealJson, hkey, hseal, hsealSize, hdecoded⟩,
      hsealVerified, hsealKind, hsealTags, ⟨author, rumorJson, hauth, hrumor, hrumorSize, hdec⟩, hverify, hpk⟩
    refine ⟨(), verify_ok_iff.2 hwrap, fun h => hkind.elim h.1 h.2, recipient, hrcpt, htags, key, hkey, sealJson,
      hseal, sealEvent, ⟨hsealSize, hdecoded, hsealVerified⟩, hsealKind, hsealTags, author, hauth, rumorJson, hrumor,
      hrumorSize, ?_⟩
    rw [hdec]
    exact bind_ok_iff.2 ⟨(), hverify, refuse_ok_iff.2 ⟨not_not.2 hpk, rfl⟩⟩

def sealFor (rumor : Rumor) (createdAt : UInt64) (payload : String) : UnsignedEvent :=
  ⟨rumor.pubkey, createdAt, sealKind, [], payload⟩

def wrapFor (key recipient : Bytes 32) (createdAt : UInt64) (kind : UInt32) (payload : String) : UnsignedEvent :=
  ⟨hexEncode key.val, createdAt, kind, [["p", hexEncode recipient.val]], payload⟩

/-- When `create_gift_wrap_with_material` succeeds, and with which seal in the gift wrap. -/
structure Wraps (p : Primitives) (rumor : Rumor) (secret recipient : Bytes 32) (persistence : GiftWrapPersistence)
    (material : GiftWrapMaterial) (limits : EventLimits) (sealEvent giftWrap : SignedEvent) : Prop where
  rumorVerified : rumor.verify p limits = .ok ()
  sealed : ∃ sender payload, p.publicKey secret = some sender ∧ rumor.pubkey = hexEncode sender.val ∧
    p.nip44Encrypt secret recipient rumor.json.render material.sealNonce = some payload ∧
    (sealFor rumor material.sealCreatedAt payload).signWithAux p secret material.sealAuxiliaryRandomness limits =
      .ok sealEvent
  wrapped : ∃ key payload, p.publicKey material.wrapperSecretKey = some key ∧
    p.nip44Encrypt material.wrapperSecretKey recipient sealEvent.json.render material.wrapperNonce = some payload ∧
    (wrapFor key recipient material.wrapperCreatedAt persistence.kind payload).signWithAux p material.wrapperSecretKey
      material.wrapperAuxiliaryRandomness limits = .ok giftWrap

theorem createGiftWrap_ok_iff {persistence : GiftWrapPersistence} {material : GiftWrapMaterial} :
    createGiftWrapWithMaterial p rumor secret recipient persistence material limits = .ok giftWrap ↔
      ∃ sealEvent, Wraps p rumor secret recipient persistence material limits sealEvent giftWrap := by
  unfold createGiftWrapWithMaterial
  simp only [bind_ok_iff, liftEvent_ok_iff, refuse_ok_iff, xonlyPublicKey_ok_iff, encrypt_ok_iff, not_not]
  constructor
  · rintro ⟨⟨⟩, hrumor, sender, hsender, hpk, payload, hpay, ⟨⟩, -, sealEvent, hseal, key, hkey, payload', hpay',
      ⟨⟩, -, hwrap⟩
    exact ⟨sealEvent, hrumor, ⟨sender, payload, hsender, hpk, hpay, hseal⟩, key, payload', hkey, hpay', hwrap⟩
  · intro ⟨sealEvent, hrumor, ⟨sender, payload, hsender, hpk, hpay, hseal⟩, key, payload', hkey, hpay', hwrap⟩
    -- signing validates the event once more
    exact ⟨(), hrumor, sender, hsender, hpk, payload, hpay, (), (signWithAux_ok_iff.1 hseal).1, sealEvent, hseal, key,
      hkey, payload', hpay', (), (signWithAux_ok_iff.1 hwrap).1, hwrap⟩

end

/-! ## Chat messages -/

section
variable {text : String}

def chatEvent (sender recipient : Bytes 32) (createdAt : UInt64) (text : String) : UnsignedEvent :=
  ⟨hexEncode sender.val, createdAt, chatMessageKind, [["p", hexEncode recipient.val]], text⟩

def chatMessage (p : Primitives) (sender recipient : Bytes 32) (createdAt : UInt64) (text : String) : Rumor :=
  ⟨hexEncode ((chatEvent sender recipient createdAt text).id p).val, hexEncode sender.val, createdAt, chatMessageKind,
    [["p", hexEncode recipient.val]], text⟩

theorem validate_chatEvent (htext : text.utf8ByteSize ≤ 65536) :
    (chatEvent sender recipient createdAt text).validate {} = .ok () := validate_eq_ok (.inr ⟨recipient, rfl⟩) htext

theorem createChatRumor_eq (hsender : p.publicKey secret = some sender) (hne : recipient ≠ sender)
    (htext : text.utf8ByteSize ≤ 65536) :
    createChatRumor p secret createdAt [recipient] text {} = .ok (chatMessage p sender recipient createdAt text) := by
  have hv : (chatEvent sender recipient createdAt text).validate {} = .ok () := validate_chatEvent htext
  have htags : recipientTags (hexEncode sender.val) [] [recipient] = .ok [["p", hexEncode recipient.val]] := by
    unfold recipientTags
    rw [if_neg (by simpa using fun h => hne (hexEncode_val_inj h))]
    rfl
  refine (bind_of_ok (congrArg liftEvent (xonlyPublicKey_ok_iff.2 hsender))).trans ?_
  refine (bind_of_ok htags).trans ?_
  refine (bind_of_ok (congrArg liftEvent hv)).trans ?_
  exact (bind_of_ok (congrArg liftEvent hv)).trans rfl

theorem eq_chatMessage_of_createChatRumor (hsender : p.publicKey secret = some sender)
    (h : createChatRumor p secret createdAt [recipient] text limits = .ok rumor) :
    rumor = chatMessage p sender recipient createdAt text := by
  obtain ⟨sender', hkey, h⟩ := bind_ok_iff.1 h
  obtain rfl := Except.ok.inj ((congrArg liftEvent (xonlyPublicKey_ok_iff.2 hsender)).symm.trans hkey)
  obtain ⟨tags, htags, h⟩ := bind_ok_iff.1 h
  obtain ⟨_, -, h⟩ := bind_ok_iff.1 h
  obtain ⟨_, -, h⟩ := bind_ok_iff.1 h
  unfold recipientTags at htags
  obtain ⟨-, htags⟩ := refuse_ok_iff.1 htags
  obtain rfl := Except.ok.inj htags
  exact (Except.ok.inj h).symm

theorem createChatRumor_self (hsender : p.publicKey secret = some sender) :
    createChatRumor p secret createdAt [sender] text limits = .error .duplicateOrSelfRecipient := by
  have htags : recipientTags (hexEncode sender.val) [] [sender] = .error .duplicateOrSelfRecipient := by
    unfold recipientTags
    exact if_pos (.inl rfl)
  refine (bind_of_ok (congrArg liftEvent (xonlyPublicKey_ok_iff.2 hsender))).trans ?_
  rw [htags]
  rfl

theorem verify_chatMessage (htext : text.utf8ByteSize ≤ 65536) :
    (chatMessage p sender recipient createdAt text).verify p {} = .ok () :=
  (bind_of_ok (congrArg liftEvent (validate_chatEvent htext))).trans (if_neg (not_not.2 rfl))

theorem size_tag_le (recipient : Bytes 32) : (tagsJson [["p", hexEncode recipient.val]]).size ≤ 400 := by
  have hrcpt := Json.escapedSize_hexEncode recipient
  have hp : Json.escapedSize "p" = 1 := by decide
  simp [tagsJson, Json.strings, Json.size_arr, Json.size_str]
  omega

theorem size_chatMessage_le : (chatMessage p sender recipient createdAt text).json.size ≤ 1500 + Json.escapedSize text := by
  have hid := Json.escapedSize_hexEncode ((chatEvent sender recipient createdAt text).id p)
  have hsender := Json.escapedSize_hexEncode sender
  have htags := size_tag_le recipient
  have htime := size_time_le createdAt
  have hkeys : Json.escapedSize "id" = 2 ∧ Json.escapedSize "pubkey" = 6 ∧ Json.escapedSize "created_at" = 10 ∧
      Json.escapedSize "kind" = 4 ∧ Json.escapedSize "tags" = 4 ∧ Json.escapedSize "content" = 7 ∧
      (Json.num chatMessageKind.toNat).size = 2 := by decide
  simp [chatMessage, Rumor.json, Json.size_obj, Json.fieldSize, Json.size_str]
  omega

end

end OmaChat.Nostr

import OmaChat.Lib.JsonText
import OmaChat.Crypto.Nip44
import OmaChat.Nostr.Transparent

/-!
# Gift wraps open for their recipient

`create_gift_wrap_with_material` and `open_gift_wrap` over NIP-44 as `nip44.rs` has it. `Laws` are the facts about the
libraries that the two rest on: the agreement of the shared secret, the signatures, and the JSON parser.

* `nip44_opens` : what is encrypted for a key decrypts with its secret, and is base64 with room for the text;
* `opens_of_wraps` : **every gift wrap that is made opens**;
* `wraps_chatMessage` : a gift wrap is made for every chat message;
* `gift_wrap_round_trip` : the whole.
-/

namespace OmaChat.Nostr
open Wire Crypto

variable {now : UInt64} {reader recipient secret : Bytes 32} {tags : List Tag}

/-- The primitives with NIP-44 as `nip44.rs` builds it on the libraries below it. -/
def Primitives.withNip44 (p : Primitives) (q : Nip44.Primitives) : Primitives :=
  { p with
    nip44Encrypt := fun secret recipient plaintext nonce =>
      (Nip44.encryptWithNonce q secret recipient plaintext nonce).toOption
    nip44Decrypt := fun secret sender payload => (Nip44.decrypt q secret sender payload).toOption }

structure Laws (p : Primitives) (q : Nip44.Primitives) : Prop where
  /-- The key of a secret is a key, for signatures and for the shared secret. -/
  keys : ∀ secret key, p.publicKey secret = some key →
    p.keyValid key = true ∧ q.secretValid secret = true ∧ q.publicValid key = true
  /-- Either side computes the same shared secret. -/
  shared : ∀ secret key secret' key', p.publicKey secret = some key → p.publicKey secret' = some key' →
    q.sharedX secret key' = q.sharedX secret' key
  signatures : ∀ secret key message auxiliary signature, p.publicKey secret = some key →
    p.sign secret message auxiliary = some signature → p.verify key message signature = true
  rumors : ∀ rumor : Rumor, p.decodeRumor rumor.json.render = some rumor
  events : ∀ event : SignedEvent, p.decodeEvent (utf8 event.json.render) = some event

structure Total (p : Primitives) (q : Nip44.Primitives) : Prop where
  shared : ∀ secret key secret' key', p.publicKey secret = some key → p.publicKey secret' = some key' →
    (q.sharedX secret key').isSome
  signs : ∀ secret key message auxiliary, p.publicKey secret = some key → (p.sign secret message auxiliary).isSome

section Opening
variable {p : Primitives} {q : Nip44.Primitives}

/-! ## Encryption between two keys -/

variable {key key' secret' : Bytes 32} {plaintext : String} {event : UnsignedEvent} {createdAt : UInt64}

theorem conversationKey_symm (laws : Laws p q)
    (hkey : p.publicKey secret = some key) (hkey' : p.publicKey secret' = some key') :
    Nip44.conversationKey q secret key' = Nip44.conversationKey q secret' key := by
  obtain ⟨-, hsec, hpublic⟩ := laws.keys secret key hkey
  obtain ⟨-, hsec', hpublic'⟩ := laws.keys secret' key' hkey'
  unfold Nip44.conversationKey
  rw [hsec, hpublic, hsec', hpublic', laws.shared secret key secret' key' hkey hkey']

/-- **What is encrypted for a key decrypts with its secret.** The payload needs no escapes and is longer than the text. -/
theorem nip44_opens (laws : Laws p q) {nonce : Bytes 32} {payload : String}
    (hkey : p.publicKey secret = some key) (hkey' : p.publicKey secret' = some key')
    (h : (p.withNip44 q).nip44Encrypt secret key' plaintext nonce = some payload) :
    (p.withNip44 q).nip44Decrypt secret' key payload = some plaintext ∧
      Json.escapedSize payload = payload.utf8ByteSize ∧ plaintext.utf8ByteSize ≤ payload.utf8ByteSize := by
  have hencrypt : Nip44.encryptWithNonce q secret key' plaintext nonce = .ok payload := by
    cases hres : Nip44.encryptWithNonce q secret key' plaintext nonce with
    | error e =>
      have hnone : (Nip44.encryptWithNonce q secret key' plaintext nonce).toOption = some payload := h
      rw [hres] at hnone
      cases hnone
    | ok result =>
      have hsome : (Nip44.encryptWithNonce q secret key' plaintext nonce).toOption = some payload := h
      rw [hres] at hsome
      exact congrArg Except.ok (Option.some.inj hsome)
  obtain ⟨conversation, hconversation, hpay⟩ := bind_ok_iff.1 hencrypt
  obtain ⟨n, hsize, hesc, hlong, -⟩ := Nip44.utf8ByteSize_encrypted hpay
  refine ⟨?_, hesc, by omega⟩
  show (Nip44.decrypt q secret' key payload).toOption = _
  unfold Nip44.decrypt
  rw [← conversationKey_symm laws hkey hkey', hconversation]
  show (Nip44.decryptWithConversationKey q conversation payload).toOption = _
  rw [Nip44.decrypt_encrypted hpay]
  rfl

theorem nip44_encrypts (laws : Laws p q) (total : Total p q) (nonce : Bytes 32)
    (hkey : p.publicKey secret = some key) (hkey' : p.publicKey secret' = some key')
    (hpos : 1 ≤ plaintext.utf8ByteSize) (hle : plaintext.utf8ByteSize ≤ 100000) :
    ∃ payload, (p.withNip44 q).nip44Encrypt secret key' plaintext nonce = some payload ∧
      Json.escapedSize payload = payload.utf8ByteSize ∧
      payload.utf8ByteSize ≤ 140 + plaintext.utf8ByteSize + plaintext.utf8ByteSize * 2 / 3 := by
  obtain ⟨-, hsec, -⟩ := laws.keys secret key hkey
  obtain ⟨-, -, hpublic⟩ := laws.keys secret' key' hkey'
  obtain ⟨x, hx⟩ := Option.isSome_iff_exists.1 (total.shared secret key secret' key' hkey hkey')
  have hmax : Nip44.maxPlaintextLen = 1048576 := rfl
  obtain ⟨payload, hpay⟩ : ∃ payload, Nip44.encryptWithConversationKey q (q.hkdfExtract Nip44.salt x) plaintext
      nonce = .ok payload := Nip44.encrypt_ok_iff.2 ⟨hpos, by omega⟩
  obtain ⟨n, hsize, hesc, -, hn⟩ := Nip44.utf8ByteSize_encrypted hpay
  refine ⟨payload, ?_, hesc, by omega⟩
  have hconversation : Nip44.conversationKey q secret key' = .ok (q.hkdfExtract Nip44.salt x) := by
    unfold Nip44.conversationKey
    rw [hsec, hpublic, hx]
    rfl
  show (Nip44.encryptWithNonce q secret key' plaintext nonce).toOption = _
  unfold Nip44.encryptWithNonce
  rw [hconversation]
  show (Nip44.encryptWithConversationKey q _ plaintext nonce).toOption = _
  rw [hpay]
  rfl

/-! ## Events that are signed -/

theorem utf8ByteSize_of_decodeHex {n : Nat} {value : String} {bytes : Bytes n} (h : decodeHex n value = .ok bytes) :
    value.utf8ByteSize = n * 2 := by
  unfold decodeHex at h
  split_ifs at h with hinvalid
  by_contra hne
  exact hinvalid (.inl hne)

theorem validate_ok (h : event.validate {} = .ok ()) :
    event.content.utf8ByteSize ≤ 65536 ∧ event.pubkey.utf8ByteSize = 2 * 32 := by
  obtain ⟨key, hkey, h⟩ := bind_ok_iff.1 h
  exact ⟨not_lt.1 (refuse_ok_iff.1 h).1, utf8ByteSize_of_decodeHex hkey⟩

theorem verified_of_signed (laws : Laws p q) {auxiliary : Bytes 32}
    {result : SignedEvent} (h : event.signWithAux (p.withNip44 q) secret auxiliary {} = .ok result)
    (htags : (tagsJson event.tags).size ≤ 400) (hcont : Json.escapedSize event.content = event.content.utf8ByteSize)
    (htime : event.createdAt.toNat ≤ now.toNat + 15 * 60) :
    Verified (p.withNip44 q) result now {} ∧ result.json.size ≤ 2400 + event.content.utf8ByteSize ∧
      ∃ signature, result = event.withSignature (p.withNip44 q) signature := by
  obtain ⟨hv, key, signature, hkey, hpk, hsign, rfl⟩ := signWithAux_ok_iff.1 h
  obtain ⟨hlong, hhex⟩ := validate_ok hv
  have hsize : (event.withSignature (p.withNip44 q) signature).json.size ≤
      2000 + (tagsJson event.tags).size + Json.escapedSize event.content := size_withSignature_le hhex
  have hlimit : (event.withSignature (p.withNip44 q) signature).json.size ≤ 262144 := by omega
  exact ⟨verified_withSignature hpk hv (laws.keys secret key hkey).1
    (laws.signatures secret key _ auxiliary signature hkey hsign) hlimit (le_satAdd htime), by omega, signature, rfl⟩

/-! ## Opening what was made -/

/-- Both stamps of a gift wrap are at most fifteen minutes ahead of a clock. -/
def GiftWrapMaterial.Timely (material : GiftWrapMaterial) (now : UInt64) : Prop :=
  material.sealCreatedAt.toNat ≤ now.toNat + 15 * 60 ∧ material.wrapperCreatedAt.toNat ≤ now.toNat + 15 * 60

/-- An event carries the signature of a key that is written in hexadecimal. -/
def SignedBy (p : Primitives) (event : SignedEvent) (pubkey : String) : Prop :=
  ∃ (key : Bytes 32) (signature : Bytes 64), pubkey = hexEncode key.val ∧ event.pubkey = pubkey ∧
    event.sig = hexEncode signature.val ∧ p.verify key (event.unsigned.id p) signature = true

section Wrapped
variable {rumor : Rumor} {persistence : GiftWrapPersistence} {material : GiftWrapMaterial} {sealEvent giftWrap : SignedEvent}

/-- **Every gift wrap that is made opens** for its recipient. -/
theorem opens_of_wraps (laws : Laws p q) (hrcpt : p.publicKey reader = some recipient)
    (h : Wraps (p.withNip44 q) rumor secret recipient persistence material {} sealEvent giftWrap)
    (htime : material.Timely now) : Opens (p.withNip44 q) giftWrap reader now {} sealEvent rumor := by
  obtain ⟨sender, payload, hsender, hpk, hpay, hseal⟩ := h.sealed
  obtain ⟨key, payload', hkey, hpay', hwrap⟩ := h.wrapped
  obtain ⟨hopen, hplain, hlong⟩ := nip44_opens laws hsender hrcpt hpay
  obtain ⟨hopen', hplain', hlong'⟩ := nip44_opens laws hkey hrcpt hpay'
  obtain ⟨hsealVerified, -, signature, rfl⟩ :=
    verified_of_signed laws hseal (show (tagsJson []).size ≤ 400 by decide) hplain
    htime.1
  obtain ⟨hwrapVerified, -, signature', rfl⟩ := verified_of_signed laws hwrap (size_tag_le _) hplain' htime.2
  have hcont : payload.utf8ByteSize ≤ 65536 := (validate_ok (signWithAux_ok_iff.1 hseal).1).1
  have hcont' : payload'.utf8ByteSize ≤ 65536 := (validate_ok (signWithAux_ok_iff.1 hwrap).1).1
  exact {
    wrapVerified := hwrapVerified
    kind := by cases persistence <;> simp [UnsignedEvent.withSignature, wrapFor, GiftWrapPersistence.kind]
    recipient := ⟨recipient, hrcpt, rfl⟩
    wrapped := ⟨key, _, decodeHex_hexEncode key, hopen', show _ ≤ 262144 by omega, laws.events _⟩
    sealVerified := hsealVerified
    sealKind := rfl
    sealTags := rfl
    sealed := ⟨sender, _, show decodeHex 32 rumor.pubkey = _ by rw [hpk, decodeHex_hexEncode], hopen,
      show _ ≤ 262144 by omega, laws.rumors rumor⟩
    rumorVerified := h.rumorVerified
    author := rfl }

theorem signedBy_of_wraps (laws : Laws p q)
    (h : Wraps (p.withNip44 q) rumor secret recipient persistence material {} sealEvent giftWrap) :
    SignedBy p sealEvent rumor.pubkey := by
  obtain ⟨sender, payload, hsender, hpk, -, hseal⟩ := h.sealed
  obtain ⟨-, key, signature, hkey, -, hsign, rfl⟩ := signWithAux_ok_iff.1 hseal
  obtain rfl : sender = key := Option.some.inj (hsender.symm.trans hkey)
  exact ⟨sender, signature, hpk, rfl, rfl, laws.signatures secret sender _ _ signature hsender hsign⟩

theorem publicKey_of_opens {other : Bytes 32} {sealEvent' : SignedEvent} {rumor' : Rumor}
    (h : Wraps (p.withNip44 q) rumor secret recipient persistence material {} sealEvent giftWrap)
    (hopens : Opens (p.withNip44 q) giftWrap other now {} sealEvent' rumor') : p.publicKey other = some recipient := by
  obtain ⟨key, payload', -, -, hwrap⟩ := h.wrapped
  obtain ⟨-, -, signature, -, -, -, rfl⟩ := signWithAux_ok_iff.1 hwrap
  obtain ⟨named, hnamed, htags⟩ := hopens.recipient
  have hhex : [some (hexEncode recipient.val)] = [some (hexEncode named.val)] := htags
  rw [hexEncode_val_inj (Option.some.inj (List.cons.inj hhex).1)]
  exact hnamed

end Wrapped

/-! ## Making gift wraps of chat messages -/

theorem signs_of_short (total : Total p q) {kind : UInt32}
    {content : String} (auxiliary : Bytes 32) (hkey : p.publicKey secret = some key)
    (htags : tags = [] ∨ ∃ recipient : Bytes 32, tags = [["p", hexEncode recipient.val]])
    (hplain : Json.escapedSize content = content.utf8ByteSize) (hcont : content.utf8ByteSize ≤ 65536) :
    ∃ result, UnsignedEvent.signWithAux (p.withNip44 q) ⟨hexEncode key.val, createdAt, kind, tags, content⟩ secret
      auxiliary {} = .ok result ∧ result.json.size ≤ 2400 + content.utf8ByteSize := by
  let event : UnsignedEvent := ⟨hexEncode key.val, createdAt, kind, tags, content⟩
  obtain ⟨signature, hsign⟩ := Option.isSome_iff_exists.1 (total.signs secret key (event.id p) auxiliary hkey)
  have hsize : (event.withSignature (p.withNip44 q) signature).json.size ≤
      2000 + (tagsJson tags).size + Json.escapedSize content :=
    size_withSignature_le (by rw [utf8ByteSize_hexEncode, key.property])
  have htagsSize : (tagsJson tags).size ≤ 400 := by
    obtain rfl | ⟨recipient, rfl⟩ := htags
    · decide
    · exact size_tag_le recipient
  refine ⟨event.withSignature (p.withNip44 q) signature, ?_, by omega⟩
  exact signWithAux_ok_iff.2 ⟨validate_eq_ok htags hcont, key, signature, hkey, decodeHex_hexEncode key, hsign, rfl⟩

/-- **A gift wrap is made for every chat message** whose text stands in JSON with at most 8192 bytes: the rumor has less
than ten thousand bytes, the seal less than twenty thousand, and the wrap has room for it. -/
theorem wraps_chatMessage (laws : Laws p q) (total : Total p q) {sender readerKey : Bytes 32}
    {text : String} (persistence : GiftWrapPersistence) (material : GiftWrapMaterial)
    (hsender : p.publicKey secret = some sender) (hreader : p.publicKey reader = some readerKey)
    (hkey : p.publicKey material.wrapperSecretKey = some key) (htext : Json.escapedSize text ≤ 8192) :
    ∃ sealEvent giftWrap, Wraps (p.withNip44 q) (chatMessage p sender recipient createdAt text) secret readerKey persistence
      material {} sealEvent giftWrap := by
  have hb := Json.utf8ByteSize_le_escapedSize text
  have hverify : (chatMessage p sender recipient createdAt text).verify (p.withNip44 q) {} = .ok () :=
    verify_chatMessage (by omega)
  have hrumor : (chatMessage p sender recipient createdAt text).json.render.utf8ByteSize ≤
      1500 + Json.escapedSize text := by
    rw [Json.utf8ByteSize_render]
    exact size_chatMessage_le
  have hpos : 1 ≤ (chatMessage p sender recipient createdAt text).json.render.utf8ByteSize := Json.utf8ByteSize_render_pos _
  obtain ⟨payload, hpay, hplain, hsize⟩ := nip44_encrypts laws total material.sealNonce hsender hreader hpos
    (by omega)
  obtain ⟨sealEvent, hseal, hsealSize⟩ := signs_of_short total material.sealAuxiliaryRandomness hsender (.inl rfl) hplain
    (by omega)
  rw [← Json.utf8ByteSize_render] at hsealSize
  have hsealPos : 1 ≤ sealEvent.json.render.utf8ByteSize := Json.utf8ByteSize_render_pos _
  obtain ⟨payload', hpay', hplain', hsize'⟩ := nip44_encrypts laws total material.wrapperNonce hkey hreader hsealPos
    (by omega)
  obtain ⟨giftWrap, hwrap, -⟩ := signs_of_short total material.wrapperAuxiliaryRandomness hkey (.inr ⟨readerKey, rfl⟩)
    hplain' (by omega)
  exact ⟨sealEvent, giftWrap, hverify, ⟨sender, payload, hsender, rfl, hpay, hseal⟩, key, payload', hkey, hpay', hwrap⟩

end Opening

/-! ## Libraries that keep the laws -/

theorem tagsJson_inj {tags' : List Tag} (h : tagsJson tags = tagsJson tags') : tags = tags' := by
  have hstr : Function.Injective Json.str := fun a b hab => Json.str.inj hab
  have hstrings : Function.Injective Json.strings := fun a b hab => List.map_injective_iff.2 hstr (Json.arr.inj hab)
  exact List.map_injective_iff.2 hstrings (Json.arr.inj h)

theorem Rumor.json_inj {a b : Rumor} (h : a.json = b.json) : a = b := by
  cases a
  cases b
  simp only [Rumor.json, Json.obj.injEq, List.cons.injEq, Prod.mk.injEq, true_and, and_true, Json.str.injEq,
    Json.num.injEq, UInt64.toNat_inj, UInt32.toNat_inj] at h
  obtain ⟨hid, hpk, htime, hkind, htags, hcont⟩ := h
  rw [hid, hpk, htime, hkind, tagsJson_inj htags, hcont]

theorem SignedEvent.json_inj {a b : SignedEvent} (h : a.json = b.json) : a = b := by
  cases a
  cases b
  simp only [SignedEvent.json, Json.obj.injEq, List.cons.injEq, Prod.mk.injEq, true_and, and_true, Json.str.injEq,
    Json.num.injEq, UInt64.toNat_inj, UInt32.toNat_inj] at h
  obtain ⟨hid, hpk, htime, hkind, htags, hcont, hsig⟩ := h
  rw [hid, hpk, htime, hkind, tagsJson_inj htags, hcont, hsig]

/-- The primitives without secrets, with a parser that reads every text that the serializer writes. -/
noncomputable def clear : Primitives :=
  { unsealed with
    decodeEvent := Function.partialInv fun event : SignedEvent => utf8 event.json.render
    decodeRumor := Function.partialInv fun rumor : Rumor => rumor.json.render }

/-- A curve whose shared secret is the sum of the two keys, and ciphers that do nothing. -/
def clearCurve : Nip44.Primitives where
  secretValid _ := true
  publicValid _ := true
  sharedX secret peer := some ⟨List.zipWith (· + ·) secret.val peer.val, by
    rw [List.length_zipWith, secret.property, peer.property, Nat.min_self]⟩
  hkdfExtract _ input := input
  hkdfExpand _ _ := Bytes.replicate 76 0
  keystream _ _ _ := 0
  hmac key _ := key

theorem laws_clear : Laws clear clearCurve where
  keys := fun _ _ _ => ⟨rfl, rfl, rfl⟩
  shared := by
    intro secret key secret' key' hkey hkey'
    obtain rfl : secret = key := Option.some.inj hkey
    obtain rfl : secret' = key' := Option.some.inj hkey'
    apply congrArg some
    apply Subtype.ext
    exact List.zipWith_comm_of_comm (fun a b => UInt8.add_comm a b)
  signatures := by
    intro secret key message auxiliary signature hkey hsign
    obtain rfl : secret = key := Option.some.inj hkey
    have hval := congrArg Subtype.val (Option.some.inj hsign)
    exact beq_iff_eq.2 hval.symm
  rumors := Function.partialInv_left fun a b h => Rumor.json_inj (Json.render_inj h)
  events := Function.partialInv_left fun a b h => SignedEvent.json_inj (Json.render_inj (utf8_inj h))

theorem total_clear : Total clear clearCurve where
  shared := fun _ _ _ _ _ _ => rfl
  signs := fun _ _ _ _ _ => rfl

/-- **Gift wrap round trip.** A gift wrap that `create_gift_wrap_with_material` makes for the key of a recipient opens
with the recipient's secret, at every clock that is at most fifteen minutes behind its stamps, to the same rumor under a
seal that the author of the rumor signed; a secret with another key, or none, does not open it. -/
theorem gift_wrap_round_trip {p : Primitives} {q : Nip44.Primitives} (laws : Laws p q) {rumor : Rumor}
    {senderSecret recipientSecret recipient : Bytes 32} {persistence : GiftWrapPersistence} {material : GiftWrapMaterial}
    {giftWrap : SignedEvent} (hrecipient : p.publicKey recipientSecret = some recipient)
    (hcreate : createGiftWrapWithMaterial (p.withNip44 q) rumor senderSecret recipient persistence material {} =
      .ok giftWrap) :
    (∀ now, material.Timely now → ∃ sealEvent,
      openGiftWrap (p.withNip44 q) giftWrap recipientSecret now {} = .ok ⟨sealEvent, rumor⟩ ∧
        SignedBy p sealEvent rumor.pubkey) ∧
    ∀ secret now, p.publicKey secret ≠ some recipient →
      ∃ error, openGiftWrap (p.withNip44 q) giftWrap secret now {} = .error error := by
  obtain ⟨sealEvent, hwraps⟩ := createGiftWrap_ok_iff.1 hcreate
  constructor
  · intro now htime
    exact ⟨sealEvent, openGiftWrap_ok_iff.2 (opens_of_wraps laws hrecipient hwraps htime), signedBy_of_wraps laws hwraps⟩
  · intro secret now hother
    cases hopen : openGiftWrap (p.withNip44 q) giftWrap secret now {} with
    | error e => exact ⟨e, rfl⟩
    | ok opened => exact absurd (publicKey_of_opens hwraps (openGiftWrap_ok_iff.1 hopen)) hother

/-- A greeting from the key `1…1` to the key `2…2`, wrapped under the key `3…3`, opens for its recipient and for nobody
else. -/
theorem gift_wrap_round_trip_greeting :
    let rumor := chatMessage clear (Bytes.replicate 32 1) (Bytes.replicate 32 2) 1700000000 "hello"
    let material : GiftWrapMaterial := ⟨1699990000, Bytes.replicate 32 4, Bytes.replicate 32 5, Bytes.replicate 32 3,
      1699980000, Bytes.replicate 32 6, Bytes.replicate 32 7⟩
    ∃ giftWrap, createGiftWrapWithMaterial (clear.withNip44 clearCurve) rumor (Bytes.replicate 32 1) (Bytes.replicate 32 2)
        .persistent material {} = .ok giftWrap ∧
      (∃ sealEvent, openGiftWrap (clear.withNip44 clearCurve) giftWrap (Bytes.replicate 32 2) 1700000000 {} =
        .ok ⟨sealEvent, rumor⟩ ∧ SignedBy clear sealEvent rumor.pubkey) ∧
      ∃ error, openGiftWrap (clear.withNip44 clearCurve) giftWrap (Bytes.replicate 32 8) 1700000000 {} = .error error := by
  intro rumor material
  obtain ⟨sealEvent, giftWrap, hwraps⟩ : ∃ sealEvent giftWrap, Wraps (clear.withNip44 clearCurve) rumor
      (Bytes.replicate 32 1) (Bytes.replicate 32 2) .persistent material {} sealEvent giftWrap :=
    wraps_chatMessage laws_clear total_clear .persistent material rfl rfl rfl (by decide)
  have hcreate := createGiftWrap_ok_iff.2 ⟨sealEvent, hwraps⟩
  obtain ⟨hopens, hothers⟩ := gift_wrap_round_trip laws_clear rfl hcreate
  exact ⟨giftWrap, hcreate, hopens 1700000000 ⟨by decide, by decide⟩, hothers _ _ (by decide)⟩

end OmaChat.Nostr

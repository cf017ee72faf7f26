import OmaChat.Nostr.RoundTrip

/-!
# What an event id binds, and which signed events verify

* `canonicalJson_injective`, `event_ids_bind`: the text whose hash is the id of an event determines the event. So two
  events that verify with one id, and two rumors that verify with one id, agree in every field that is hashed, or their
  texts are a collision of the hash.
* `signed_verifies_iff`: `sign_with_aux` checks the key, the content and the tags, and `verify` checks the serialized
  size as well. An event that was signed verifies exactly if that size is within the limit.
-/

namespace OmaChat.Nostr
open Wire Crypto

variable {now : UInt64} {p : Primitives}

/-! ## Ids -/

theorem canonicalJson_injective : Function.Injective UnsignedEvent.canonicalJson := by
  intro a b h
  have hjson := Json.arr.inj (Json.render_inj h)
  simp only [List.cons.injEq, true_and, and_true, Json.str.injEq, Json.num.injEq, UInt64.toNat_inj, UInt32.toNat_inj] at hjson
  obtain ⟨hpk, htime, hkind, htags, hcont⟩ := hjson
  cases a
  cases b
  simp only [UnsignedEvent.mk.injEq]
  exact ⟨hpk, htime, hkind, tagsJson_inj htags, hcont⟩

def Collision (p : Primitives) (a b : String) : Prop := a ≠ b ∧ p.sha256 (utf8 a) = p.sha256 (utf8 b)

section Ids
theorem eq_or_collision {a b : UnsignedEvent} (h : a.id p = b.id p) :
    a = b ∨ Collision p a.canonicalJson b.canonicalJson := by
  by_cases htext : a.canonicalJson = b.canonicalJson
  · exact .inl (canonicalJson_injective htext)
  · exact .inr ⟨htext, h⟩

variable {limits : EventLimits}

theorem Verified.id_eq {a b : SignedEvent} {now' : UInt64} {limits' : EventLimits}
    (ha : Verified p a now limits) (hb : Verified p b now' limits') (hid : a.id = b.id) :
    a.unsigned.id p = b.unsigned.id p := by
  apply Except.ok.inj (ε := EventError)
  rw [← ha.id, ← hb.id, hid]

theorem rumor_id_of_verify {rumor : Rumor} (h : rumor.verify p limits = .ok ()) :
    rumor.id = hexEncode (rumor.unsigned.id p).val := by
  obtain ⟨⟨⟩, -, h⟩ := bind_ok_iff.1 h
  exact (not_not.1 (refuse_ok_iff.1 h).1).symm

end Ids

/-- **Event ids bind every field.** Events that are written as one canonical text are equal. Two events that verify, at
any clocks and under any limits, with one id agree in public key, time, kind, tags and content, unless their texts are a
collision of SHA-256; and so do two rumors. -/
theorem event_ids_bind (p : Primitives) :
    (∀ a b : UnsignedEvent, a.canonicalJson = b.canonicalJson → a = b) ∧
    (∀ (a b : SignedEvent) (now now' : UInt64) (limits limits' : EventLimits),
      a.verify p now limits = .ok () → b.verify p now' limits' = .ok () → a.id = b.id →
      a.unsigned = b.unsigned ∨ Collision p a.unsigned.canonicalJson b.unsigned.canonicalJson) ∧
    ∀ (a b : Rumor) (limits limits' : EventLimits),
      a.verify p limits = .ok () → b.verify p limits' = .ok () → a.id = b.id →
      a.unsigned = b.unsigned ∨ Collision p a.unsigned.canonicalJson b.unsigned.canonicalJson := by
  refine ⟨fun a b h => canonicalJson_injective h, ?_, ?_⟩
  · intro a b now now' limits limits' ha hb hid
    exact eq_or_collision ((verify_ok_iff.1 ha).id_eq (verify_ok_iff.1 hb) hid)
  · intro a b limits limits' ha hb hid
    apply eq_or_collision
    apply hexEncode_val_inj
    rw [← rumor_id_of_verify ha, ← rumor_id_of_verify hb, hid]

/-! ## Signed events -/

/-- What the signature library promises: the key of a secret is a key, and its signatures verify. -/
structure SignatureLaws (p : Primitives) : Prop where
  keys : ∀ secret key, p.publicKey secret = some key → p.keyValid key = true
  signatures : ∀ secret key message auxiliary signature, p.publicKey secret = some key →
    p.sign secret message auxiliary = some signature → p.verify key message signature = true

/-- The length of the event once it is signed: whatever the id and the signature are, they have 64 and 128 digits. -/
def UnsignedEvent.signedBytes (event : UnsignedEvent) : Nat :=
  (SignedEvent.json ⟨hexEncode (Bytes.replicate 32 0).val, event.pubkey, event.createdAt, event.kind, event.tags,
    event.content, hexEncode (Bytes.replicate 64 0).val⟩).size

section Signed
variable {event : UnsignedEvent} {secret auxiliary : Bytes 32} {result : SignedEvent}

theorem size_withSignature (signature : Bytes 64) : (event.withSignature p signature).json.size = event.signedBytes := by
  simp [UnsignedEvent.withSignature, UnsignedEvent.signedBytes, SignedEvent.json, Json.size_obj, Json.fieldSize,
    Json.size_str, Json.escapedSize_hexEncode]

theorem verified_of_signWithAux (laws : SignatureLaws p) (h : event.signWithAux p secret auxiliary {} = .ok result)
    (hsize : event.signedBytes ≤ 256 * 1024) (htime : event.createdAt.toNat ≤ now.toNat + 15 * 60) :
    Verified p result now {} := by
  obtain ⟨hv, key, signature, hkey, hpk, hsign, rfl⟩ := signWithAux_ok_iff.1 h
  rw [← size_withSignature (p := p) signature] at hsize
  exact verified_withSignature hpk hv (laws.keys secret key hkey)
    (laws.signatures secret key _ auxiliary signature hkey hsign) hsize (le_satAdd htime)

/-- **Signed events verify** at every clock that is at most fifteen minutes behind their time, exactly if they are not
longer than 256 KiB: `sign_with_aux` does not check that limit. -/
theorem signed_verifies_iff (laws : SignatureLaws p) (h : event.signWithAux p secret auxiliary {} = .ok result) :
    (∀ now : UInt64, event.createdAt.toNat ≤ now.toNat + 15 * 60 → result.verify p now {} = .ok ()) ↔
      event.signedBytes ≤ 256 * 1024 := by
  constructor
  · intro hverify
    have hsize := (verify_ok_iff.1 (hverify event.createdAt (Nat.le_add_right _ _))).size
    obtain ⟨-, key, signature, -, -, -, rfl⟩ := signWithAux_ok_iff.1 h
    rwa [size_withSignature] at hsize
  · intro hsize now htime
    exact verify_ok_iff.2 (verified_of_signWithAux laws h hsize htime)

end Signed

theorem signatureLaws_transparent (rumors : List Rumor) (seals : List SignedEvent) :
    SignatureLaws (transparent rumors seals) where
  keys := fun _ _ _ => rfl
  signatures := by
    intro secret key message auxiliary signature hkey hsign
    obtain rfl : secret = key := Option.some.inj hkey
    exact beq_iff_eq.2 (congrArg Subtype.val (Option.some.inj hsign)).symm

/-- A note of `n` times one character. -/
def noteOf (n : Nat) (c : Char) : UnsignedEvent :=
  ⟨hexEncode (Bytes.replicate 32 1).val, 1700000000, 1, [], String.ofList (List.replicate n c)⟩

theorem noteOf_signs {n : Nat} {c : Char} (h : n * c.utf8Size ≤ 65536) :
    (noteOf n c).signWithAux unsealed (Bytes.replicate 32 1) (Bytes.replicate 32 0) {} =
      .ok (signed (noteOf n c) (Bytes.replicate 32 1)) := by
  apply transparent_signs rfl
  apply validate_eq_ok (.inl rfl)
  rw [utf8ByteSize_ofList, charBytes_replicate]
  exact h

theorem signedBytes_noteOf (n : Nat) (c : Char) :
    n * charBytes (Json.escapeChar c) ≤ (noteOf n c).signedBytes ∧
      (noteOf n c).signedBytes ≤ 2002 + n * charBytes (Json.escapeChar c) := by
  have hcont : Json.escapedSize (noteOf n c).content = n * charBytes (Json.escapeChar c) := Json.escapedSize_replicate n c
  rw [← hcont]
  constructor
  · simp only [UnsignedEvent.signedBytes, SignedEvent.json, Json.size_obj, Json.fieldSize, Json.size_str, List.map_cons,
      List.sum_cons]
    omega
  · have htags : (tagsJson (noteOf n c).tags).size = 2 := rfl
    have hkey : (noteOf n c).pubkey.utf8ByteSize = 2 * 32 := by
      rw [noteOf, utf8ByteSize_hexEncode, (Bytes.replicate 32 1).property]
    have hle : ((noteOf n c).withSignature unsealed (Bytes.replicate 64 0)).json.size ≤ _ :=
      size_withSignature_le hkey
    rwa [size_withSignature, htags] at hle

/-- A short note verifies. -/
theorem signed_note_verifies :
    (signed (noteOf 5 'a') (Bytes.replicate 32 1)).verify unsealed 1700000000 {} = .ok () := by
  have hchar : charBytes (Json.escapeChar 'a') = 1 := by decide
  have hsize := (signedBytes_noteOf 5 'a').2
  rw [hchar] at hsize
  exact (signed_verifies_iff (signatureLaws_transparent [] []) (noteOf_signs (by decide))).2 (by omega) 1700000000 (by decide)

/-- A note of 65536 bell characters, each of them six bytes in JSON, is signed and does not verify. -/
theorem signed_bells_refused :
    (noteOf 65536 '\x07').signWithAux unsealed (Bytes.replicate 32 1) (Bytes.replicate 32 0) {} =
        .ok (signed (noteOf 65536 '\x07') (Bytes.replicate 32 1)) ∧
      (signed (noteOf 65536 '\x07') (Bytes.replicate 32 1)).verify unsealed 1700000000 {} ≠ .ok () := by
  refine ⟨noteOf_signs (by decide), fun hverify => ?_⟩
  have hsize := (verify_ok_iff.1 hverify).size
  have hchar : charBytes (Json.escapeChar '\x07') = 6 := by decide
  have hbells := (signedBytes_noteOf 65536 '\x07').1
  rw [hchar] at hbells
  rw [signed_eq_withSignature [] [], size_withSignature] at hsize
  have hlimit : ({} : EventLimits).maxSerializedBytes = 262144 := rfl
  omega

end OmaChat.Nostr

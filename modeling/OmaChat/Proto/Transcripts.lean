import OmaChat.Proto.Hosted

/-!
# The transcripts keep their fields apart

What is signed is a byte string, so a signature means what it should only if the byte string determines what was meant.
A transcript starts with a domain that ends in the one zero byte of the domain, its keys have a fixed width, and its
texts carry their length.

* `Transcript` : the four kinds of transcripts with their fields, and `Transcript.bytes` what is signed;
* `transcripts_separated` : a byte string is the transcript of one kind and one choice of fields.
-/

namespace OmaChat.Proto
open Wire

/-! ## Where a field ends -/

theorem pushStr_append_inj {s t : String} {x y : List UInt8} (hs : s.utf8ByteSize ≤ 65535) (ht : t.utf8ByteSize ≤ 65535)
    (h : pushStr s ++ x = pushStr t ++ y) : s = t ∧ x = y := by
  unfold pushStr at h
  simp only [if_pos hs, if_pos ht, List.append_assoc] at h
  obtain ⟨hlen, hrest⟩ := List.append_inj h (by rw [length_beBytes, length_beBytes])
  have hsize : s.utf8ByteSize = t.utf8ByteSize := beBytes_inj (by omega) (by omega) hlen
  rw [← length_utf8, ← length_utf8, List.take_length, List.take_length] at hrest
  obtain ⟨hst, hxy⟩ := List.append_inj hrest (by rw [length_utf8, length_utf8, hsize])
  exact ⟨utf8_inj hst, hxy⟩

/-! ## The four kinds -/

inductive Transcript where
  | hello (challenge devicePublicKey : Bytes 32)
  | auth (serverPublicKey challenge devicePublicKey : Bytes 32)
  | bind (serverPublicKey : Bytes 32) (accountId handle : String) (nostrPublicKey nonce : Bytes 32) (timestamp : UInt64)
  | unbind (serverPublicKey : Bytes 32) (accountId handle : String) (nostrPublicKey nonce : Bytes 32) (timestamp : UInt64)

namespace Transcript

def bytes : Transcript → List UInt8
  | .hello challenge device => helloTranscript challenge device
  | .auth server challenge device => authTranscript server challenge device
  | .bind server accountId handle key nonce timestamp =>
    nostrBindTranscript server accountId handle key nonce timestamp
  | .unbind server accountId handle key nonce timestamp =>
    nostrUnbindTranscript server accountId handle key nonce timestamp

/-- Both texts have at most 65535 bytes, the longest that their length can say. -/
def Short : Transcript → Prop
  | .hello .. => True
  | .auth .. => True
  | .bind _ accountId handle _ _ _ => accountId.utf8ByteSize ≤ 65535 ∧ handle.utf8ByteSize ≤ 65535
  | .unbind _ accountId handle _ _ _ => accountId.utf8ByteSize ≤ 65535 ∧ handle.utf8ByteSize ≤ 65535

inductive Kind where
  | hello | auth | bind | unbind

def kind : Transcript → Kind
  | .hello .. => .hello
  | .auth .. => .auth
  | .bind .. => .bind
  | .unbind .. => .unbind

/-- The domain of a kind, without the zero byte at its end. -/
def Kind.domain : Kind → List UInt8
  | .hello => utf8 "omachat-server-hello-v1"
  | .auth => utf8 "omachat-server-auth-v1"
  | .bind => utf8 "omachat-nostr-bind-v1"
  | .unbind => utf8 "omachat-nostr-unbind-v1"

theorem Kind.zero_notMem_domain (k : Kind) : 0 ∉ k.domain := by
  cases k <;> decide

theorem Kind.domain_inj {k k' : Kind} (h : k.domain = k'.domain) : k = k' := by
  cases k <;> cases k' <;> first | rfl | exact absurd h (by decide)

def fields : Transcript → List UInt8
  | .hello challenge device => challenge.val ++ device.val
  | .auth server challenge device => server.val ++ (challenge.val ++ device.val)
  | .bind server accountId handle key nonce timestamp | .unbind server accountId handle key nonce timestamp =>
    server.val ++ (pushStr accountId ++ (pushStr handle ++ (key.val ++ (nonce.val ++ beBytes 8 timestamp.toNat))))

theorem bytes_eq (t : Transcript) : t.bytes = t.kind.domain ++ [0] ++ t.fields := by
  cases t with
  | hello => simp only [bytes, helloTranscript, helloDomain, kind, Kind.domain, fields, List.append_assoc]
  | auth => simp only [bytes, authTranscript, authDomain, kind, Kind.domain, fields, List.append_assoc]
  | bind =>
    simp only [bytes, nostrBindTranscript, proofTranscript, nostrBindDomain, kind, Kind.domain, fields, List.append_assoc]
  | unbind =>
    simp only [bytes, nostrUnbindTranscript, proofTranscript, nostrUnbindDomain, kind, Kind.domain, fields, List.append_assoc]

theorem proof_fields_inj {server server' key key' nonce nonce' : Bytes 32} {accountId accountId' handle handle' : String}
    {timestamp timestamp' : UInt64} (ha : accountId.utf8ByteSize ≤ 65535 ∧ handle.utf8ByteSize ≤ 65535)
    (ha' : accountId'.utf8ByteSize ≤ 65535 ∧ handle'.utf8ByteSize ≤ 65535)
    (h : fields (.bind server accountId handle key nonce timestamp) =
      fields (.bind server' accountId' handle' key' nonce' timestamp')) :
    server = server' ∧ accountId = accountId' ∧ handle = handle' ∧ key = key' ∧ nonce = nonce' ∧
      timestamp = timestamp' := by
  obtain ⟨hsrv, h⟩ := Bytes.append_inj h
  obtain ⟨hacct, h⟩ := pushStr_append_inj ha.1 ha'.1 h
  obtain ⟨hhdl, h⟩ := pushStr_append_inj ha.2 ha'.2 h
  obtain ⟨hkey, h⟩ := Bytes.append_inj h
  obtain ⟨hnonce, h⟩ := Bytes.append_inj h
  have htime := beBytes_inj (n := 8) (lt_of_lt_of_le timestamp.toNat_lt (by decide))
    (lt_of_lt_of_le timestamp'.toNat_lt (by decide)) h
  exact ⟨hsrv, hacct, hhdl, hkey, hnonce, UInt64.toNat_inj.1 htime⟩

theorem bytes_inj {t t' : Transcript} (ht : t.Short) (ht' : t'.Short) (h : t.bytes = t'.bytes) : t = t' := by
  rw [bytes_eq, bytes_eq] at h
  obtain ⟨hdomain, hfields⟩ := append_sep_inj t.kind.zero_notMem_domain t'.kind.zero_notMem_domain h
  have hkind := Kind.domain_inj hdomain
  cases t with
  | hello challenge device =>
    cases t' <;> cases hkind
    obtain ⟨hchal, hdev⟩ := Bytes.append_inj hfields
    rw [hchal, Subtype.ext hdev]
  | auth server challenge device =>
    cases t' <;> cases hkind
    obtain ⟨hsrv, hfields⟩ := Bytes.append_inj hfields
    obtain ⟨hchal, hdev⟩ := Bytes.append_inj hfields
    rw [hsrv, hchal, Subtype.ext hdev]
  | bind server accountId handle key nonce timestamp =>
    cases t' <;> cases hkind
    obtain ⟨rfl, rfl, rfl, rfl, rfl, rfl⟩ := proof_fields_inj ht ht' hfields
    rfl
  | unbind server accountId handle key nonce timestamp =>
    cases t' <;> cases hkind
    obtain ⟨rfl, rfl, rfl, rfl, rfl, rfl⟩ := proof_fields_inj ht ht' hfields
    rfl

end Transcript

/-- **A byte string is the transcript of one kind and one choice of fields.** So if no signature of a key verifies for two
messages, none verifies for two purposes or two choices of fields. -/
theorem transcripts_separated (t t' : Transcript) (ht : t.Short) (ht' : t'.Short) :
    (t.bytes = t'.bytes ↔ t = t') ∧
      ∀ (K S : Type) (verifies : K → List UInt8 → S → Prop),
        (∀ key message message' signature, verifies key message signature → verifies key message' signature →
          message = message') →
        ∀ key signature, verifies key t.bytes signature → verifies key t'.bytes signature → t = t' := by
  refine ⟨⟨Transcript.bytes_inj ht ht', congrArg _⟩, ?_⟩
  intro K S verifies hunique key signature hv hv'
  exact Transcript.bytes_inj ht ht' (hunique key _ _ signature hv hv')

theorem transcripts_separated_bind_unbind :
    Transcript.bytes (.bind (.replicate 32 0) "a1" "ada" (.replicate 32 5) (.replicate 32 7) 1300) ≠
      Transcript.bytes (.unbind (.replicate 32 0) "a1" "ada" (.replicate 32 5) (.replicate 32 7) 1300) := by
  intro h
  have heq := (transcripts_separated (.bind (.replicate 32 0) "a1" "ada" (.replicate 32 5) (.replicate 32 7) 1300)
    (.unbind (.replicate 32 0) "a1" "ada" (.replicate 32 5) (.replicate 32 7) 1300) ⟨by decide, by decide⟩
    ⟨by decide, by decide⟩).1.1 h
  cases heq

end OmaChat.Proto

import OmaChat.Lib.Base64

/-!
# NIP-44 payloads

`nip44.rs`: a text is padded, encrypted with ChaCha20 and authenticated with HMAC under keys that are derived from a
conversation key and a nonce, and travels as base64. `pad` and `unpad` have two formats of the length in front of the text
and a schedule of padded lengths between powers of two.

* `padded_lengths` : the schedule of padded lengths is the one of NIP-44, and what follows for their sizes;
* `unpad_pad` : `unpad` takes off what `pad` put on;
* `openPayload_sealed` : the checks of `decrypt` accept what `encrypt` makes;
* `openPayload_authentic` : nothing comes behind these checks whose MAC does not verify;
* `nip44_round_trip` : the whole.
-/

namespace OmaChat.Crypto
open Wire

inductive Nip44Error where
  | invalidSecretKey
  | invalidPublicKey
  | invalidPlaintextLength
  | payloadTooLarge
  | invalidPayloadSize
  | invalidBase64
  | unsupportedVersion
  | invalidMac
  | invalidPadding
  | invalidUtf8
  | randomnessUnavailable
  | keyDerivationFailed
  deriving DecidableEq

namespace Nip44

def version : UInt8 := 2

def salt : List UInt8 := utf8 "nip44-v2"

def nonceLen : Nat := 32

def macLen : Nat := 32

def minEncodedPayloadLen : Nat := 132

def minDecodedPayloadLen : Nat := 99

/-- `EXTENDED_PREFIX_THRESHOLD` -/
def extendedThreshold : Nat := 65536

def maxPlaintextLen : Nat := 1024 * 1024

/-- The library functions below NIP-44: the curve, HKDF, ChaCha20 and HMAC. The lengths of their arguments are fixed
here, and for these lengths the last three never fail. -/
structure Primitives where
  /-- `SecretKey::from_slice` -/
  secretValid : Bytes 32 → Bool
  /-- `PublicKey::from_sec1_bytes`, for the point with an even second coordinate -/
  publicValid : Bytes 32 → Bool
  /-- The first coordinate of the shared point. -/
  sharedX : (secret peer : Bytes 32) → Option (Bytes 32)
  hkdfExtract : (salt : List UInt8) → (input : Bytes 32) → Bytes 32
  hkdfExpand : (prk info : Bytes 32) → Bytes 76
  /-- The byte of the keystream at an index. -/
  keystream : (key : Bytes 32) → (nonce : Bytes 12) → Nat → UInt8
  hmac : (key : Bytes 32) → (message : List UInt8) → Bytes 32

def okOr {α : Type} (error : Nip44Error) : Option α → Except Nip44Error α
  | some a => .ok a
  | none => .error error

/-! ## Padding -/

/-- The step between two padded lengths below a power of two. -/
def chunk (nextPower : Nat) : Nat := if nextPower ≤ 256 then 32 else nextPower / 8

def calcPaddedLen (plaintextLen : Nat) : Except Nip44Error Nat := do
  if plaintextLen = 0 then .error .invalidPlaintextLength
  else if plaintextLen ≤ 32 then .ok 32
  else
    let nextPower ← okOr .payloadTooLarge (checkedNextPowerOfTwo plaintextLen)
    okOr .payloadTooLarge do
      let length ← checkedSub plaintextLen 1
      let chunks ← checkedDiv length (chunk nextPower)
      let chunks ← checkedAdd chunks 1
      checkedMul chunks (chunk nextPower)

def maximumEncodedPayloadLen : Except Nip44Error Nat := do
  let lengthBytes := if extendedThreshold ≤ maxPlaintextLen then 6 else 2
  let paddedLen ← calcPaddedLen maxPlaintextLen
  let rawLen ← okOr .payloadTooLarge do
    let length ← checkedAdd 1 nonceLen
    let length ← checkedAdd length lengthBytes
    let length ← checkedAdd length paddedLen
    checkedAdd length macLen
  okOr .payloadTooLarge do
    let length ← checkedAdd rawLen 2
    let length ← checkedDiv length 3
    checkedMul length 4

/-- The length in front of the padded text: two bytes, or two zeros and four bytes. -/
def lengthField (plaintextLen : Nat) : List UInt8 :=
  if extendedThreshold ≤ plaintextLen then [0, 0] ++ beBytes 4 plaintextLen else beBytes 2 plaintextLen

def pad (plaintext : List UInt8) : Except Nip44Error (List UInt8) := do
  if plaintext.length = 0 then .error .invalidPlaintextLength
  else if maxPlaintextLen < plaintext.length ∨ 2 ^ 32 - 1 < plaintext.length then .error .payloadTooLarge
  else
    let paddedLen ← calcPaddedLen plaintext.length
    .ok (lengthField plaintext.length ++ plaintext ++ List.replicate (paddedLen - plaintext.length) 0)

/-- The length in front of a padded text, and how many bytes it takes, as `unpad` reads them. -/
def readLength (padded : List UInt8) : Except Nip44Error (Nat × Nat) :=
  let first := beNat (padded.take 2)
  if first = 0 then
    if padded.length < 6 then .error .invalidPadding
    else
      let length := beNat ((padded.drop 2).take 4)
      if length < extendedThreshold then .error .invalidPadding else .ok (6, length)
  else .ok (2, first)

def unpad (padded : List UInt8) : Except Nip44Error (List UInt8) := do
  if padded.length < 2 then .error .invalidPadding
  else
    let (lengthBytes, plaintextLen) ← readLength padded
    if maxPlaintextLen < plaintextLen then .error .payloadTooLarge
    else
      let paddedLen ← calcPaddedLen plaintextLen
      let expected ← okOr .invalidPadding (checkedAdd lengthBytes paddedLen)
      if padded.length ≠ expected then .error .invalidPadding
      else
        let stop ← okOr .invalidPadding (checkedAdd lengthBytes plaintextLen)
        if padded.length < stop then .error .invalidPadding
        else .ok ((padded.drop lengthBytes).take plaintextLen)

/-! ## Encryption -/

section
variable (p : Primitives)

def conversationKey (localSecret peerPublicKey : Bytes 32) : Except Nip44Error (Bytes 32) := do
  if !p.secretValid localSecret then .error .invalidSecretKey
  else if !p.publicValid peerPublicKey then .error .invalidPublicKey
  else
    let sharedX ← okOr .invalidPublicKey (p.sharedX localSecret peerPublicKey)
    .ok (p.hkdfExtract salt sharedX)

/-- The keys that `message_keys` derives for a nonce, cut as they are used. -/
structure MessageKeys where
  cipherKey : Bytes 32
  cipherNonce : Bytes 12
  macKey : Bytes 32

def messageKeys (conversationKey nonce : Bytes 32) : MessageKeys :=
  let keys := p.hkdfExpand conversationKey nonce
  ⟨keys.slice 0 32 (by decide), keys.slice 32 12 (by decide), keys.slice 44 32 (by decide)⟩

def applyKeystream (keys : MessageKeys) (bytes : List UInt8) : List UInt8 :=
  bytes.mapIdx fun i b => b ^^^ p.keystream keys.cipherKey keys.cipherNonce i

def mac (keys : MessageKeys) (nonce : Bytes 32) (ciphertext : List UInt8) : Bytes 32 :=
  p.hmac keys.macKey (nonce.val ++ ciphertext)

def encryptWithConversationKey (conversationKey : Bytes 32) (plaintext : String) (nonce : Bytes 32) :
    Except Nip44Error String := do
  let padded ← pad (utf8 plaintext)
  let keys := messageKeys p conversationKey nonce
  let ciphertext := applyKeystream p keys padded
  .ok (Base64.encode (version :: nonce.val ++ ciphertext ++ (mac p keys nonce ciphertext).val))

/-- The part of `decrypt_with_conversation_key` up to the check of the MAC: the keys and the ciphertext. -/
def openPayload (conversationKey : Bytes 32) (payload : String) : Except Nip44Error (MessageKeys × List UInt8) := do
  if payload.isEmpty ∨ payload.toList.head? = some '#' then .error .unsupportedVersion
  else if payload.utf8ByteSize < minEncodedPayloadLen then .error .invalidPayloadSize
  else
    let maximum ← maximumEncodedPayloadLen
    if maximum < payload.utf8ByteSize then .error .payloadTooLarge
    else
      let decoded ← okOr .invalidBase64 (Base64.decode payload)
      if decoded.length < minDecodedPayloadLen then .error .invalidPayloadSize
      else if decoded.head? ≠ some version then .error .unsupportedVersion
      else
        let nonce ← okOr .invalidPayloadSize (Bytes.ofList? 32 ((decoded.drop 1).take 32))
        let ciphertextEnd := decoded.length - macLen
        let ciphertext := (decoded.take ciphertextEnd).drop 33
        let suppliedMac := decoded.drop ciphertextEnd
        let keys := messageKeys p conversationKey nonce
        if (mac p keys nonce ciphertext).val ≠ suppliedMac then .error .invalidMac else .ok (keys, ciphertext)

def decryptWithConversationKey (conversationKey : Bytes 32) (payload : String) : Except Nip44Error String := do
  let (keys, ciphertext) ← openPayload p conversationKey payload
  let plaintext ← unpad (applyKeystream p keys ciphertext)
  okOr .invalidUtf8 (fromUtf8 plaintext)

def encryptWithNonce (localSecret peerPublicKey : Bytes 32) (plaintext : String) (nonce : Bytes 32) :
    Except Nip44Error String := do
  let key ← conversationKey p localSecret peerPublicKey
  encryptWithConversationKey p key plaintext nonce

def decrypt (localSecret peerPublicKey : Bytes 32) (payload : String) : Except Nip44Error String := do
  let key ← conversationKey p localSecret peerPublicKey
  decryptWithConversationKey p key payload

/-- The MAC at the end of a payload verifies over its nonce and its ciphertext. -/
def Authentic (conversationKey : Bytes 32) (payload : String) : Prop :=
  ∃ (first : UInt8) (nonce : Bytes 32) (ciphertext : List UInt8), Base64.decode payload =
    some (first :: nonce.val ++ ciphertext ++ (mac p (messageKeys p conversationKey nonce) nonce ciphertext).val)

end

/-! ## The padding schedule -/

variable {padded plaintext : List UInt8} {n : Nat}

theorem chunk_spec (h : 32 < n) : chunk (nextPowerOfTwo n) ∣ nextPowerOfTwo n ∧ 0 < chunk (nextPowerOfTwo n) ∧
      chunk (nextPowerOfTwo n) ≤ 32 + n / 4 := by
  have hlt : nextPowerOfTwo n < 2 * n := nextPowerOfTwo_lt (by omega)
  have hlog : 5 ≤ (n - 1).log2 := (Nat.le_log2 (by omega)).2 (by omega)
  obtain ⟨k, hk⟩ : ∃ k, nextPowerOfTwo n = 2 ^ (k + 6) := by
    refine ⟨(n - 1).log2 - 5, ?_⟩
    rw [nextPowerOfTwo, if_neg (by omega)]
    congr 1
    omega
  unfold chunk
  split_ifs with h256
  · refine ⟨?_, by omega, by omega⟩
    rw [hk]
    exact ⟨2 ^ (k + 1), by ring⟩
  · have hdvd : 8 ∣ nextPowerOfTwo n := by
      rw [hk]
      exact ⟨2 ^ (k + 3), by ring⟩
    refine ⟨Nat.div_dvd_of_dvd hdvd, by omega, by omega⟩

theorem round_up_le {b c : Nat} (hc : 0 < c) (hdvd : c ∣ b) (hn : 0 < n) (h : n ≤ b) :
    n ≤ ((n - 1) / c + 1) * c ∧ ((n - 1) / c + 1) * c ≤ b ∧ ((n - 1) / c + 1) * c < n + c := by
  obtain ⟨m, rfl⟩ := hdvd
  have hdiv : (n - 1) / c < m := Nat.div_lt_of_lt_mul (by omega)
  have hle : ((n - 1) / c + 1) * c ≤ c * m := by
    rw [Nat.mul_comm c m]
    exact Nat.mul_le_mul_right c hdiv
  have hmod := Nat.div_add_mod (n - 1) c
  have hlt := Nat.mod_lt (n - 1) hc
  have hexpand : ((n - 1) / c + 1) * c = c * ((n - 1) / c) + c := by ring
  omega

/-- The formula that NIP-44 gives for the padded length. -/
def nip44PaddedLen (unpaddedLen : Nat) : Nat :=
  let nextPower := 1 <<< ((unpaddedLen - 1).log2 + 1)
  let chunk := if nextPower ≤ 256 then 32 else nextPower / 8
  if unpaddedLen ≤ 32 then 32 else chunk * ((unpaddedLen - 1) / chunk + 1)

theorem nip44PaddedLen_small (h : n ≤ 32) : nip44PaddedLen n = 32 := if_pos h

theorem nip44PaddedLen_eq (h : 32 < n) :
    nip44PaddedLen n = ((n - 1) / chunk (nextPowerOfTwo n) + 1) * chunk (nextPowerOfTwo n) := by
  have hpower : nextPowerOfTwo n = 1 <<< ((n - 1).log2 + 1) := by
    rw [nextPowerOfTwo, if_neg (by omega), Nat.one_shiftLeft]
  rw [nip44PaddedLen, if_neg (by omega), Nat.mul_comm, hpower]
  rfl

/-- The padded length is the least multiple of the chunk that has room for the text. -/
theorem nip44PaddedLen_spec (h : 32 < n) :
    n ≤ nip44PaddedLen n ∧ nip44PaddedLen n ≤ nextPowerOfTwo n ∧
      nip44PaddedLen n < n + chunk (nextPowerOfTwo n) ∧ chunk (nextPowerOfTwo n) ∣ nip44PaddedLen n := by
  obtain ⟨hdvd, hchunk, -⟩ := chunk_spec h
  obtain ⟨hge, hle, hlt⟩ := round_up_le hchunk hdvd (by omega) (le_nextPowerOfTwo n)
  rw [nip44PaddedLen_eq h]
  exact ⟨hge, hle, hlt, Nat.dvd_mul_left _ _⟩

theorem calcPaddedLen_eq (hpos : 0 < n) (h : n ≤ maxPlaintextLen) : calcPaddedLen n = .ok (nip44PaddedLen n) := by
  unfold calcPaddedLen
  by_cases hsmall : n ≤ 32
  · rw [if_neg (by omega), if_pos hsmall, nip44PaddedLen_small hsmall]
  · have hpow : nextPowerOfTwo n ≤ 2 ^ 20 := nextPowerOfTwo_le_two_pow h
    obtain ⟨-, hchunk, -⟩ := chunk_spec (n := n) (by omega)
    obtain ⟨-, hle, -⟩ := nip44PaddedLen_spec (n := n) (by omega)
    have hdiv : (n - 1) / chunk (nextPowerOfTwo n) ≤ n - 1 := Nat.div_le_self _ _
    have hmax : maxPlaintextLen = 2 ^ 20 := rfl
    rw [nip44PaddedLen_eq (by omega)] at hle ⊢
    rw [if_neg (by omega), if_neg hsmall, checkedNextPowerOfTwo, if_pos (by omega), checkedSub, if_pos (by omega)]
    show okOr _ (checkedDiv (n - 1) _ >>= _) = _
    rw [checkedDiv, if_neg hchunk.ne']
    show okOr _ (checkedAdd _ 1 >>= _) = _
    rw [checkedAdd, if_pos (by omega)]
    show okOr _ (checkedMul _ _) = _
    rw [checkedMul, if_pos (by omega)]
    rfl

/-- **The padded length** of a text that is accepted: it has room for the text, is not above the longest one, and adds
at most a quarter and one chunk. -/
theorem calcPaddedLen_spec (hpos : 0 < n) (h : n ≤ maxPlaintextLen) :
    ∃ m, calcPaddedLen n = .ok m ∧ n ≤ m ∧ 32 ≤ m ∧ m ≤ maxPlaintextLen ∧ m ≤ n + 32 + n / 4 := by
  refine ⟨_, calcPaddedLen_eq hpos h, ?_⟩
  by_cases hsmall : n ≤ 32
  · rw [nip44PaddedLen_small hsmall]
    exact ⟨hsmall, le_rfl, by decide, by omega⟩
  · have hpow : nextPowerOfTwo n ≤ 2 ^ 20 := nextPowerOfTwo_le_two_pow h
    have hmax : maxPlaintextLen = 2 ^ 20 := rfl
    obtain ⟨-, -, hquarter⟩ := chunk_spec (n := n) (by omega)
    obtain ⟨hge, hle, hlt, -⟩ := nip44PaddedLen_spec (n := n) (by omega)
    omega

theorem le_nip44PaddedLen (n : Nat) : n ≤ nip44PaddedLen n ∧ 32 ≤ nip44PaddedLen n := by
  by_cases hsmall : n ≤ 32
  · rw [nip44PaddedLen_small hsmall]
    exact ⟨hsmall, le_rfl⟩
  · obtain ⟨hge, -⟩ := nip44PaddedLen_spec (n := n) (by omega)
    omega

theorem nip44PaddedLen_mono {m : Nat} (h : n ≤ m) : nip44PaddedLen n ≤ nip44PaddedLen m := by
  obtain ⟨hm, hm32⟩ := le_nip44PaddedLen m
  by_cases hsmall : n ≤ 32
  · rwa [nip44PaddedLen_small hsmall]
  by_cases hpower : m ≤ nextPowerOfTwo n
  · -- below one power of two both are rounded up to the same chunk
    rw [nip44PaddedLen_eq (by omega), nip44PaddedLen_eq (by omega), nextPowerOfTwo_eq h hpower]
    exact Nat.mul_le_mul_right _ (Nat.succ_le_succ (Nat.div_le_div_right (by omega)))
  · obtain ⟨-, hle, -⟩ := nip44PaddedLen_spec (n := n) (by omega)
    omega

theorem nip44PaddedLen_twice (n : Nat) : nip44PaddedLen (nip44PaddedLen n) = nip44PaddedLen n := by
  by_cases hsmall : n ≤ 32
  · rw [nip44PaddedLen_small hsmall, nip44PaddedLen_small le_rfl]
  · obtain ⟨hge, hle, -, hdvd⟩ := nip44PaddedLen_spec (n := n) (by omega)
    obtain ⟨-, hchunk, -⟩ := chunk_spec (n := n) (by omega)
    obtain ⟨hup, hdown, -⟩ := round_up_le hchunk hdvd (by omega) le_rfl
    rw [nip44PaddedLen_eq (n := nip44PaddedLen n) (by omega), nextPowerOfTwo_eq hge hle]
    exact le_antisymm hdown hup

theorem nip44PaddedLen_isLeast (hpos : 0 < n) (h : n ≤ 256) : IsLeast {k | 32 ∣ k ∧ n ≤ k} (nip44PaddedLen n) := by
  by_cases hsmall : n ≤ 32
  · rw [nip44PaddedLen_small hsmall]
    exact ⟨⟨dvd_rfl, hsmall⟩, fun k hk => Nat.le_of_dvd (by have := hk.2; omega) hk.1⟩
  · have hchunk : chunk (nextPowerOfTwo n) = 32 := if_pos (nextPowerOfTwo_le_two_pow (k := 8) h)
    obtain ⟨hge, -, hlt, hdvd⟩ := nip44PaddedLen_spec (n := n) (by omega)
    rw [hchunk] at hlt hdvd
    refine ⟨⟨hdvd, hge⟩, ?_⟩
    intro k ⟨hk, hn⟩
    omega

theorem nip44PaddedLen_lt (h : 256 < n) : 4 * nip44PaddedLen n < 5 * n := by
  have hpower := le_nextPowerOfTwo n
  have hlt : nextPowerOfTwo n < 2 * n := nextPowerOfTwo_lt (by omega)
  have hchunk : chunk (nextPowerOfTwo n) = nextPowerOfTwo n / 8 := if_neg (by omega)
  obtain ⟨-, -, hround, -⟩ := nip44PaddedLen_spec (n := n) (by omega)
  omega

example : [32, 33, 320, 321, 65535, 65537, 1048575].map calcPaddedLen =
    [.ok 32, .ok 64, .ok 320, .ok 384, .ok 65536, .ok 81920, .ok 1048576] := by decide +kernel

theorem maximumEncodedPayloadLen_eq : maximumEncodedPayloadLen = .ok 1398196 := by decide +kernel

/-! ## Padding and taking it off -/

def lengthFieldLen (plaintextLen : Nat) : Nat := if extendedThreshold ≤ plaintextLen then 6 else 2

theorem length_lengthField (n : Nat) : (lengthField n).length = lengthFieldLen n := by
  unfold lengthField lengthFieldLen
  split_ifs with h
  · rw [List.length_append, length_beBytes]
    rfl
  · exact length_beBytes 2 n

theorem readLength_lengthField (hpos : 0 < n) (h : n ≤ maxPlaintextLen) (rest : List UInt8) :
    readLength (lengthField n ++ rest) = .ok (lengthFieldLen n, n) := by
  have hmax : maxPlaintextLen = 1048576 := rfl
  have hthreshold : extendedThreshold = 65536 := rfl
  unfold readLength lengthField lengthFieldLen
  by_cases hext : extendedThreshold ≤ n
  · have hlen : ([0, 0] ++ (beBytes 4 n ++ rest)).length = 6 + rest.length := by
      simp only [List.length_append, length_beBytes, List.length_cons, List.length_nil]
      omega
    have hfield : (([0, 0] ++ (beBytes 4 n ++ rest)).drop 2).take 4 = beBytes 4 n := List.take_left' (length_beBytes 4 n)
    simp only [if_pos hext, List.append_assoc]
    refine (if_pos rfl).trans ((if_neg (by omega)).trans ?_)
    rw [hfield, beNat_beBytes (by omega), if_neg (by omega)]
  · have hf : (beBytes 2 n ++ rest).take 2 = beBytes 2 n := List.take_left' (length_beBytes 2 n)
    simp only [if_neg hext, hf]
    rw [beNat_beBytes (by omega), if_neg (by omega)]

theorem pad_eq (hpos : 0 < plaintext.length) (h : plaintext.length ≤ maxPlaintextLen) :
    ∃ m, calcPaddedLen plaintext.length = .ok m ∧ plaintext.length ≤ m ∧ 32 ≤ m ∧ m ≤ maxPlaintextLen ∧
      m ≤ plaintext.length + 32 + plaintext.length / 4 ∧
      pad plaintext = .ok (lengthField plaintext.length ++ plaintext ++ List.replicate (m - plaintext.length) 0) := by
  obtain ⟨m, hm, hbounds⟩ := calcPaddedLen_spec hpos h
  have hmax : maxPlaintextLen = 1048576 := rfl
  refine ⟨m, hm, hbounds.1, hbounds.2.1, hbounds.2.2.1, hbounds.2.2.2, ?_⟩
  unfold pad
  rw [if_neg (by omega), if_neg (by omega), hm]
  rfl

theorem pad_ok_iff : (∃ padded, pad plaintext = .ok padded) ↔
    1 ≤ plaintext.length ∧ plaintext.length ≤ maxPlaintextLen := by
  constructor
  · intro ⟨padded, h⟩
    unfold pad at h
    split_ifs at h with hzero hlarge
    omega
  · intro ⟨hpos, h⟩
    obtain ⟨m, -, -, -, -, -, hpad⟩ := pad_eq hpos h
    exact ⟨_, hpad⟩

theorem lengthFieldLen_bounds (n : Nat) : 2 ≤ lengthFieldLen n ∧ lengthFieldLen n ≤ 6 := by
  unfold lengthFieldLen
  split_ifs <;> omega

theorem length_padded (h : pad plaintext = .ok padded) :
    34 ≤ padded.length ∧ padded.length ≤ maxPlaintextLen + 6 ∧ plaintext.length + 2 ≤ padded.length ∧
      padded.length ≤ plaintext.length + 38 + plaintext.length / 4 := by
  obtain ⟨hpos, hle⟩ := pad_ok_iff.1 ⟨padded, h⟩
  obtain ⟨m, -, hroom, hmin, hmax, hquarter, hpad⟩ := pad_eq hpos hle
  have hf := lengthFieldLen_bounds plaintext.length
  have hlen : padded.length = lengthFieldLen plaintext.length + m := by
    rw [hpad] at h
    rw [← Except.ok.inj h, List.length_append, List.length_append, List.length_replicate, length_lengthField]
    omega
  omega

theorem readLength_ok {k : Nat} (hlen : 2 ≤ padded.length) (h : readLength padded = .ok (k, n)) :
    0 < n ∧ k = lengthFieldLen n ∧ lengthField n = padded.take k := by
  have hthreshold : extendedThreshold = 65536 := rfl
  have hf : (padded.take 2).length = 2 := by
    rw [List.length_take]
    omega
  have hwr := beBytes_beNat (padded.take 2)
  have hbd := beNat_lt (padded.take 2)
  rw [hf] at hwr hbd
  unfold readLength at h
  dsimp only at h
  by_cases hzero : beNat (padded.take 2) = 0
  · rw [if_pos hzero] at h
    split_ifs at h with hshort hsmall
    have hlong : ((padded.drop 2).take 4).length = 4 := by
      rw [List.length_take, List.length_drop]
      omega
    have hwr₄ := beBytes_beNat ((padded.drop 2).take 4)
    rw [hlong] at hwr₄
    obtain ⟨rfl, rfl⟩ : 6 = k ∧ beNat ((padded.drop 2).take 4) = n := by simpa using h
    have hext : extendedThreshold ≤ beNat ((padded.drop 2).take 4) := Nat.le_of_not_lt hsmall
    refine ⟨by omega, (if_pos hext).symm, ?_⟩
    have hsplit : padded.take (2 + 4) = padded.take 2 ++ (padded.drop 2).take 4 := List.take_add
    show lengthField _ = padded.take (2 + 4)
    rw [lengthField, if_pos hext, hwr₄, hsplit, ← hwr, hzero]
    rfl
  · rw [if_neg hzero] at h
    obtain ⟨rfl, rfl⟩ : 2 = k ∧ beNat (padded.take 2) = n := by simpa using h
    have hshort : ¬ extendedThreshold ≤ beNat (padded.take 2) := by omega
    refine ⟨by omega, (if_neg hshort).symm, ?_⟩
    rw [lengthField, if_neg hshort, hwr]

/-- The shortest length in front of a text, the text, and as many bytes as the padded length asks for. -/
structure Canonical (padded plaintext : List UInt8) : Prop where
  nonempty : 1 ≤ plaintext.length
  bounded : plaintext.length ≤ maxPlaintextLen
  starts : lengthField plaintext.length ++ plaintext <+: padded
  length : ∃ paddedLen, calcPaddedLen plaintext.length = .ok paddedLen ∧
    padded.length = (lengthField plaintext.length).length + paddedLen

theorem canonical_of_unpad (h : unpad padded = .ok plaintext) : Canonical padded plaintext := by
  unfold unpad at h
  split_ifs at h with hshort
  cases hread : readLength padded with
  | error e =>
    rw [hread] at h
    cases h
  | ok read =>
    obtain ⟨k, n⟩ := read
    obtain ⟨hpos, rfl, hf⟩ := readLength_ok (by omega) hread
    rw [hread] at h
    replace h : (if maxPlaintextLen < n then _ else _) = _ := h
    split_ifs at h with hlarge
    obtain ⟨m, hm, hroom, -, hmle, -⟩ := calcPaddedLen_spec hpos (Nat.le_of_not_lt hlarge)
    have hmax : maxPlaintextLen = 1048576 := rfl
    have hbounds := lengthFieldLen_bounds n
    rw [hm] at h
    replace h : (okOr _ (checkedAdd _ m) >>= _) = _ := h
    rw [checkedAdd, if_pos (by omega)] at h
    replace h : (if _ ≠ _ then _ else _) = _ := h
    split_ifs at h with hlen
    rw [checkedAdd, if_pos (by omega)] at h
    replace h : (if _ < _ then _ else _) = _ := h
    split_ifs at h with hstop
    obtain rfl := Except.ok.inj h
    have htext : ((padded.drop (lengthFieldLen n)).take n).length = n := by
      rw [List.length_take, List.length_drop]
      omega
    refine ⟨by omega, by omega, ?_, m, by rw [htext, hm], by rw [htext, length_lengthField]; omega⟩
    rw [htext, hf, ← List.take_add]
    exact List.take_prefix _ _

theorem unpad_of_canonical (h : Canonical padded plaintext) : unpad padded = .ok plaintext := by
  obtain ⟨hpos, hle, ⟨rest, rfl⟩, m, hm, hlen⟩ := h
  obtain ⟨m', hm', hroom, -, hmle, -⟩ := calcPaddedLen_spec hpos hle
  obtain rfl : m' = m := Except.ok.inj (hm'.symm.trans hm)
  have hmax : maxPlaintextLen = 1048576 := rfl
  have hf := lengthFieldLen_bounds plaintext.length
  rw [length_lengthField] at hlen
  have htext : ((lengthField plaintext.length ++ (plaintext ++ rest)).drop (lengthFieldLen plaintext.length)).take
      plaintext.length = plaintext := by
    rw [← length_lengthField, List.drop_left, List.take_left]
  unfold unpad
  rw [if_neg (by omega), List.append_assoc, readLength_lengthField hpos hle]
  rw [List.append_assoc] at hlen
  show (if _ then _ else _) = _
  rw [if_neg (by omega), hm]
  show (okOr _ (checkedAdd _ _) >>= _) = _
  rw [checkedAdd, if_pos (by omega)]
  show (if _ then _ else _) = _
  rw [if_neg (not_not.2 hlen), checkedAdd, if_pos (by omega)]
  show (if _ then _ else _) = _
  rw [if_neg (by omega), htext]

theorem canonical_pad (h : pad plaintext = .ok padded) : Canonical padded plaintext := by
  obtain ⟨hpos, hle⟩ := pad_ok_iff.1 ⟨padded, h⟩
  obtain ⟨m, hm, hroom, -, -, -, hpad⟩ := pad_eq hpos hle
  obtain rfl := Except.ok.inj (h.symm.trans hpad)
  refine ⟨hpos, hle, List.prefix_append _ _, m, hm, ?_⟩
  rw [List.length_append, List.length_append, List.length_replicate]
  omega

/-- **Padding is unique.** `unpad` accepts the canonical forms and no other bytes; a text that `pad` accepts has one, and a
canonical form has one text. -/
theorem unpad_ok_iff_canonical :
    (∀ padded plaintext, unpad padded = .ok plaintext ↔ Canonical padded plaintext) ∧
    (∀ plaintext : List UInt8, 1 ≤ plaintext.length → plaintext.length ≤ maxPlaintextLen →
      ∃ padded, pad plaintext = .ok padded ∧ unpad padded = .ok plaintext) ∧
    ∀ padded plaintext plaintext', Canonical padded plaintext → Canonical padded plaintext' → plaintext = plaintext' := by
  refine ⟨fun padded plaintext => ⟨canonical_of_unpad, unpad_of_canonical⟩, fun plaintext hpos hle => ?_,
    fun padded plaintext plaintext' h h' => ?_⟩
  · obtain ⟨padded, hpad⟩ := pad_ok_iff.2 ⟨hpos, hle⟩
    exact ⟨padded, hpad, unpad_of_canonical (canonical_pad hpad)⟩
  · exact Except.ok.inj ((unpad_of_canonical h).symm.trans (unpad_of_canonical h'))

/-- **What `pad` put on, `unpad` takes off.** -/
theorem unpad_pad (h : pad plaintext = .ok padded) : unpad padded = .ok plaintext := unpad_of_canonical (canonical_pad h)

/-! ## The checks of decryption -/

section
variable {p : Primitives} {key nonce : Bytes 32}

theorem applyKeystream_twice (keys : MessageKeys) (bytes : List UInt8) :
    applyKeystream p keys (applyKeystream p keys bytes) = bytes := by
  unfold applyKeystream
  apply List.ext_getElem
  · simp
  · intro i _ _
    simp only [List.getElem_mapIdx, UInt8.xor_assoc, UInt8.xor_self, UInt8.xor_zero]

theorem length_applyKeystream (keys : MessageKeys) (bytes : List UInt8) :
    (applyKeystream p keys bytes).length = bytes.length := by
  simp [applyKeystream]

def sealed (p : Primitives) (key nonce : Bytes 32) (ciphertext : List UInt8) : String :=
  Base64.encode (version :: nonce.val ++ ciphertext ++ (mac p (messageKeys p key nonce) nonce ciphertext).val)

theorem length_payload (ciphertext : List UInt8) :
    (version :: nonce.val ++ ciphertext ++ (mac p (messageKeys p key nonce) nonce ciphertext).val).length =
      65 + ciphertext.length := by
  have hmac := (mac p (messageKeys p key nonce) nonce ciphertext).property
  have hnonce := nonce.property
  simp only [List.length_append, List.length_cons]
  omega

theorem utf8ByteSize_sealed (ciphertext : List UInt8) :
    (sealed p key nonce ciphertext).utf8ByteSize = (67 + ciphertext.length) / 3 * 4 := by
  rw [sealed, Base64.utf8ByteSize_encode, length_payload]
  congr 2
  omega

variable {payload plaintext : String} {ciphertext : List UInt8}

/-- **The checks of `decrypt` accept a payload** whose ciphertext has one of the lengths that padded texts have. -/
theorem openPayload_sealed (hmin : 34 ≤ ciphertext.length) (hmax : ciphertext.length ≤ maxPlaintextLen + 6) :
    openPayload p key (sealed p key nonce ciphertext) = .ok (messageKeys p key nonce, ciphertext) := by
  have hsize : (sealed p key nonce ciphertext).utf8ByteSize = (67 + ciphertext.length) / 3 * 4 := utf8ByteSize_sealed _
  have hlong : maxPlaintextLen = 1048576 := rfl
  have hempty : (sealed p key nonce ciphertext).isEmpty = false := by
    rw [String.isEmpty_eq_false_iff]
    intro hnil
    rw [hnil] at hsize
    simp at hsize
    omega
  have hhead : (sealed p key nonce ciphertext).toList.head? ≠ some '#' := Base64.head?_encode_ne _
  have hdec : Base64.decode (sealed p key nonce ciphertext) =
      some (version :: nonce.val ++ ciphertext ++ (mac p (messageKeys p key nonce) nonce ciphertext).val) :=
    Base64.decode_encode _
  have hlen : (version :: nonce.val ++ ciphertext ++ (mac p (messageKeys p key nonce) nonce ciphertext).val).length =
    65 + ciphertext.length := length_payload ciphertext
  unfold openPayload
  rw [if_neg (by simp [hempty, hhead]), if_neg (by rw [hsize, minEncodedPayloadLen]; omega), maximumEncodedPayloadLen_eq]
  show (if _ then _ else _) = _
  rw [if_neg (by rw [hsize]; omega), hdec]
  show (if _ then _ else _) = _
  rw [if_neg (by rw [hlen, minDecodedPayloadLen]; omega), if_neg (by simp)]
  -- the three parts behind the version
  have hnonce : (((version :: nonce.val ++ ciphertext ++ (mac p (messageKeys p key nonce) nonce ciphertext).val).drop 1)).take
      32 = nonce.val := by
    simp only [List.cons_append, List.append_assoc, List.drop_succ_cons, List.drop_zero]
    exact List.take_left' nonce.property
  have hrest : (version :: nonce.val ++ ciphertext ++ (mac p (messageKeys p key nonce) nonce ciphertext).val).take
      (33 + ciphertext.length) = version :: nonce.val ++ ciphertext := by
    apply List.take_left'
    simp only [List.cons_append, List.length_append, List.length_cons, nonce.property]
    omega
  have hmac : (version :: nonce.val ++ ciphertext ++ (mac p (messageKeys p key nonce) nonce ciphertext).val).drop
      (33 + ciphertext.length) = (mac p (messageKeys p key nonce) nonce ciphertext).val := by
    apply List.drop_left'
    simp only [List.cons_append, List.length_append, List.length_cons, nonce.property]
    omega
  have hcipher : (version :: nonce.val ++ ciphertext).drop 33 = ciphertext := by
    apply List.drop_left'
    simp [nonce.property]
  rw [hnonce, Bytes.ofList?_val]
  show (if _ then _ else _) = _
  simp only [hlen, macLen, show 65 + ciphertext.length - 32 = 33 + ciphertext.length by omega, hrest, hmac, hcipher]
  exact if_neg (not_not.2 rfl)

/-- **Nothing comes behind the checks whose MAC does not verify.** -/
theorem openPayload_authentic {keys : MessageKeys}
    (h : openPayload p key payload = .ok (keys, ciphertext)) : Authentic p key payload := by
  unfold openPayload at h
  rw [maximumEncodedPayloadLen_eq] at h
  split_ifs at h with hver hsmall
  change (if _ then _ else _) = _ at h
  split_ifs at h with hlarge
  cases hdec : Base64.decode payload with
  | none =>
    rw [hdec] at h
    cases h
  | some decoded =>
    rw [hdec] at h
    change (if _ then _ else _) = _ at h
    split_ifs at h with hshort hf
    rw [minDecodedPayloadLen] at hshort
    obtain ⟨nonce, hnonce⟩ : ∃ nonce : Bytes 32, (decoded.drop 1).take 32 = nonce.val :=
      ⟨⟨_, by rw [List.length_take, List.length_drop]; omega⟩, rfl⟩
    rw [hnonce, Bytes.ofList?_val] at h
    change (if _ then _ else _) = _ at h
    split_ifs at h with hmac
    rw [not_not] at hmac
    refine ⟨version, nonce, (decoded.take (decoded.length - macLen)).drop 33, ?_⟩
    rw [hdec, Option.some.injEq, hmac]
    have hhead : decoded = [version] ++ decoded.drop 1 := by
      rw [not_not] at hf
      cases decoded with
      | nil => cases hf
      | cons b rest =>
        rw [Option.some.inj hf]
        rfl
    have htake : (decoded.take (decoded.length - macLen)).take 33 = version :: nonce.val := by
      rw [List.take_take, Nat.min_eq_left (by rw [macLen]; omega), ← hnonce]
      conv_lhs => rw [hhead]
      rfl
    rw [← htake, List.take_append_drop, List.take_append_drop]

section
variable (h : encryptWithConversationKey p key plaintext nonce = .ok payload)
include h

theorem encrypt_sealed :
    ∃ padded, pad (utf8 plaintext) = .ok padded ∧
      payload = sealed p key nonce (applyKeystream p (messageKeys p key nonce) padded) := by
  unfold encryptWithConversationKey at h
  cases hpad : pad (utf8 plaintext) with
  | error e =>
    rw [hpad] at h
    cases h
  | ok padded =>
    rw [hpad] at h
    exact ⟨padded, rfl, (Except.ok.inj h).symm⟩

theorem utf8ByteSize_encrypted :
    ∃ n, payload.utf8ByteSize = (67 + n) / 3 * 4 ∧ Json.escapedSize payload = payload.utf8ByteSize ∧
      plaintext.utf8ByteSize + 2 ≤ n ∧ n ≤ plaintext.utf8ByteSize + 38 + plaintext.utf8ByteSize / 4 := by
  obtain ⟨padded, hpad, rfl⟩ := encrypt_sealed h
  obtain ⟨-, -, hge, hle⟩ := length_padded hpad
  rw [length_utf8] at hge hle
  refine ⟨padded.length, ?_, Base64.escapedSize_encode _, hge, hle⟩
  rw [utf8ByteSize_sealed, length_applyKeystream]

theorem decrypt_encrypted : decryptWithConversationKey p key payload = .ok plaintext := by
  obtain ⟨padded, hpad, rfl⟩ := encrypt_sealed h
  obtain ⟨hmin, hmax, -, -⟩ := length_padded hpad
  unfold decryptWithConversationKey
  rw [openPayload_sealed (by rw [length_applyKeystream]; exact hmin) (by rw [length_applyKeystream]; exact hmax)]
  show (unpad (applyKeystream p _ (applyKeystream p _ padded)) >>= _) = _
  rw [applyKeystream_twice, unpad_pad hpad]
  show okOr _ (fromUtf8 (utf8 plaintext)) = _
  rw [fromUtf8_utf8]
  rfl

end

theorem encrypt_ok_iff : (∃ payload, encryptWithConversationKey p key plaintext nonce = .ok payload) ↔
      1 ≤ plaintext.utf8ByteSize ∧ plaintext.utf8ByteSize ≤ maxPlaintextLen := by
  rw [← length_utf8, ← pad_ok_iff]
  unfold encryptWithConversationKey
  constructor
  · intro ⟨payload, h⟩
    cases hpad : pad (utf8 plaintext) with
    | error e =>
      rw [hpad] at h
      cases h
    | ok padded => exact ⟨padded, rfl⟩
  · intro ⟨padded, hpad⟩
    rw [hpad]
    exact ⟨_, rfl⟩

theorem encrypted_le_maximum (h : encryptWithConversationKey p key plaintext nonce = .ok payload) :
    payload.utf8ByteSize ≤ 1398196 := by
  obtain ⟨padded, hpad, rfl⟩ := encrypt_sealed h
  obtain ⟨-, hle, -, -⟩ := length_padded hpad
  rw [utf8ByteSize_sealed, length_applyKeystream]
  rw [maxPlaintextLen] at hle
  omega

end

/-- **Padding sizes.** Between one byte and `maxPlaintextLen` the padded length is the one of NIP-44: it has room for the
text, does not fall when the text grows, pads to itself, is the next multiple of 32 up to 256 bytes and adds less than a
quarter beyond. No payload is longer than `maximumEncodedPayloadLen`. -/
theorem padded_lengths :
    (∀ n, 1 ≤ n → n ≤ maxPlaintextLen → ∃ m, calcPaddedLen n = .ok m ∧ m = nip44PaddedLen n ∧ n ≤ m ∧
      (∀ n' m', n ≤ n' → n' ≤ maxPlaintextLen → calcPaddedLen n' = .ok m' → m ≤ m') ∧ calcPaddedLen m = .ok m ∧
      (n ≤ 256 → IsLeast {k | 32 ∣ k ∧ n ≤ k} m) ∧ (256 < n → 4 * m < 5 * n)) ∧
    ∃ maximum, maximumEncodedPayloadLen = .ok maximum ∧
      ∀ (p : Primitives) (key nonce : Bytes 32) (plaintext payload : String),
        encryptWithConversationKey p key plaintext nonce = .ok payload → payload.utf8ByteSize ≤ maximum := by
  refine ⟨?_, 1398196, maximumEncodedPayloadLen_eq, fun p key nonce plaintext payload => encrypted_le_maximum⟩
  intro n hpos hmax
  obtain ⟨m, hm, hge, hmin, hle, -⟩ := calcPaddedLen_spec hpos hmax
  obtain rfl : nip44PaddedLen n = m := Except.ok.inj ((calcPaddedLen_eq hpos hmax).symm.trans hm)
  refine ⟨_, hm, rfl, hge, ?_, ?_, nip44PaddedLen_isLeast hpos, nip44PaddedLen_lt⟩
  · intro n' m' hn hmax' hm'
    rw [calcPaddedLen_eq (by omega) hmax'] at hm'
    exact Except.ok.inj hm' ▸ nip44PaddedLen_mono hn
  · rw [calcPaddedLen_eq (by omega) hle, nip44PaddedLen_twice]

/-- **Round trip and authenticity.** Encryption succeeds exactly for the texts of one to `maxPlaintextLen` bytes, and
what it makes decrypts under the same key to the same text. A payload whose MAC does not verify is refused by the checks
that come before `unpad`. -/
theorem nip44_round_trip (p : Primitives) (key nonce : Bytes 32) (plaintext : String) :
    ((∃ payload, encryptWithConversationKey p key plaintext nonce = .ok payload) ↔
      1 ≤ plaintext.utf8ByteSize ∧ plaintext.utf8ByteSize ≤ maxPlaintextLen) ∧
    (∀ payload, encryptWithConversationKey p key plaintext nonce = .ok payload →
      decryptWithConversationKey p key payload = .ok plaintext) ∧
    ∀ payload, ¬ Authentic p key payload →
      ∃ error, openPayload p key payload = .error error ∧ decryptWithConversationKey p key payload = .error error := by
  refine ⟨encrypt_ok_iff, fun payload => decrypt_encrypted, ?_⟩
  intro payload hforged
  cases hopen : openPayload p key payload with
  | ok opened => exact absurd (openPayload_authentic hopen) hforged
  | error e =>
    refine ⟨e, rfl, ?_⟩
    unfold decryptWithConversationKey
    rw [hopen]
    rfl

end Nip44

end OmaChat.Crypto

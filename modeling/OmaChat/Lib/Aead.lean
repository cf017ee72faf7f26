import OmaChat.Lib.Bytes

/-!
# Authenticated encryption

The one fact about XChaCha20-Poly1305 that the development uses: what was encrypted under a key, a nonce and associated
data decrypts under the same three, and the ciphertext is sixteen bytes longer.
-/

namespace Wire

def maxPlaintext : Nat := 64 * (2 ^ 32 - 1)

/-- An authenticated cipher with 32-byte keys, 24-byte nonces and 16-byte tags. -/
structure Aead where
  encrypt : (key : Bytes 32) → (nonce : Bytes 24) → (associated plaintext : List UInt8) → Option (List UInt8)
  decrypt : (key : Bytes 32) → (nonce : Bytes 24) → (associated ciphertext : List UInt8) → Option (List UInt8)
  encrypt_decrypts : ∀ key nonce associated plaintext, plaintext.length ≤ maxPlaintext →
    ∃ ciphertext, encrypt key nonce associated plaintext = some ciphertext ∧
      ciphertext.length = plaintext.length + 16 ∧ decrypt key nonce associated ciphertext = some plaintext

/-- A cipher that hides nothing: the ciphertext is the plaintext and, as its tag, half of the key. It opens what it
sealed and refuses another half, which is all that a concrete run needs. -/
def Aead.transparent : Aead where
  encrypt key _ _ plaintext := some (plaintext ++ key.val.take 16)
  decrypt key _ _ ciphertext :=
    if ciphertext.drop (ciphertext.length - 16) = key.val.take 16 then some (ciphertext.take (ciphertext.length - 16))
    else none
  encrypt_decrypts := by
    intro key nonce associated plaintext _
    have hlen : (key.val.take 16).length = 16 := by simp [key.property]
    refine ⟨_, rfl, by rw [List.length_append, hlen], ?_⟩
    simp [hlen]

end Wire

import PbMapper.Core.Checksum
import PbMapper.Foundation.BigEndian

/-!
# Authenticated encryption

AES-256-GCM as a parameter with the two facts the frame codecs rely on: a
ciphertext is as long as its plaintext, and what was sealed is opened under the
same key, nonce and associated data.  The continuation codecs draw their nonces
from a 32-bit counter that starts at zero at both ends.
-/

namespace PbMapper.Core

open BigEndian

def codecTagLen : ℕ := 16

structure Aes256Gcm where
  /-- Key, nonce, associated data and plaintext. -/
  sealInPlace : AesKeyType → List UInt8 → List UInt8 → List UInt8 →
    List UInt8 × Vector UInt8 codecTagLen
  /-- Key, nonce, associated data, and ciphertext followed by its tag. -/
  openInPlace : AesKeyType → List UInt8 → List UInt8 → List UInt8 →
    Option (List UInt8)
  length_seal : ∀ key nonce aad plain,
    (sealInPlace key nonce aad plain).1.length = plain.length
  open_seal : ∀ key nonce aad plain,
    openInPlace key nonce aad ((sealInPlace key nonce aad plain).1 ++
      (sealInPlace key nonce aad plain).2.toList) = some plain

/-- A stand-in that tags and does not encipher. -/
def Aes256Gcm.transparent : Aes256Gcm where
  sealInPlace _ _ _ plain := (plain, .replicate codecTagLen 0)
  openInPlace _ _ _ sealed := some (sealed.take (sealed.length - codecTagLen))
  length_seal _ _ _ _ := rfl
  open_seal _ _ _ plain := by simp

/-- The nonce of a continuation frame: the counter behind eight zero bytes. -/
def counterNonce (counter : ℕ) : List UInt8 :=
  List.replicate 8 0 ++ toBeBytes 4 counter

/-- The counter wraps, as the release build's does. -/
def advanceCounter (counter : ℕ) : ℕ := (counter + 1) % 2 ^ 32

structure Aes256GcmEnCodec where
  key : AesKeyType
  counter : ℕ

structure Aes256GcmDeCodec where
  key : AesKeyType
  counter : ℕ

variable (aead : Aes256Gcm)

def Aes256GcmEnCodec.encrypt (codec : Aes256GcmEnCodec) (data : List UInt8) :
    (List UInt8 × Vector UInt8 codecTagLen) × Aes256GcmEnCodec :=
  (aead.sealInPlace codec.key (counterNonce codec.counter) [] data,
    { codec with counter := advanceCounter codec.counter })

def Aes256GcmDeCodec.decrypt (codec : Aes256GcmDeCodec) (data : List UInt8) :
    Option (List UInt8) × Aes256GcmDeCodec :=
  (aead.openInPlace codec.key (counterNonce codec.counter) [] data,
    { codec with counter := advanceCounter codec.counter })

end PbMapper.Core

import Mathlib.Data.Nat.Bitwise

/-!
# Frame checksums

The length of a frame is guarded by its exclusive or with a hash of the header
key.
-/

namespace PbMapper.Core

/-- A 256-bit key, administrator or temporary. -/
abbrev AesKeyType := Vector UInt8 32

def genChecksumByKey (key : AesKeyType) : ℕ :=
  key.toList.foldl (fun hash byte => (hash * 31 % 2 ^ 32 + byte.toNat) % 2 ^ 32) 0

def getChecksumForKey (datalen : ℕ) (key : AesKeyType) : ℕ :=
  datalen ^^^ genChecksumByKey key

def validChecksumForKey (datalen checksum : ℕ) (key : AesKeyType) : Bool :=
  checksum == getChecksumForKey datalen key

/-! ## The process credential -/

/-- A process without a credential has none of its own to check frames with. -/
def processChecksumIsReady (processKey : Option AesKeyType) : Bool :=
  processKey.isSome

/-- The hash the process keeps beside its credential. -/
def processHash : Option AesKeyType → ℕ
  | some key => genChecksumByKey key
  | none => 0

def getChecksum (processKey : Option AesKeyType) (datalen : ℕ) : ℕ :=
  datalen ^^^ processHash processKey

def validChecksum (processKey : Option AesKeyType) (datalen checksum : ℕ) :
    Bool :=
  processChecksumIsReady processKey &&
    datalen == checksum ^^^ processHash processKey

/-- A process with a credential checks as under that credential's key. -/
theorem validChecksum_some (key : AesKeyType) (datalen checksum : ℕ) :
    validChecksum (some key) datalen checksum =
      validChecksumForKey datalen checksum key := by
  apply Bool.eq_iff_iff.mpr
  simp only [validChecksum, processChecksumIsReady, processHash,
    Option.isSome_some, Bool.true_and, validChecksumForKey, getChecksumForKey,
    beq_iff_eq]
  constructor
  · rintro rfl
    rw [Nat.xor_assoc, Nat.xor_self, Nat.xor_zero]
  · rintro rfl
    rw [Nat.xor_assoc, Nat.xor_self, Nat.xor_zero]

/-! ## Bounds -/

private theorem foldl_mod_lt (bytes : List UInt8) {hash : ℕ}
    (hhash : hash < 2 ^ 32) :
    bytes.foldl (fun hash byte => (hash * 31 % 2 ^ 32 + byte.toNat) % 2 ^ 32)
      hash < 2 ^ 32 := by
  induction bytes generalizing hash with
  | nil => exact hhash
  | cons byte bytes ih => exact ih (Nat.mod_lt _ (Nat.two_pow_pos 32))

theorem genChecksumByKey_lt (key : AesKeyType) :
    genChecksumByKey key < 2 ^ 32 :=
  foldl_mod_lt key.toList (Nat.two_pow_pos 32)

theorem getChecksumForKey_lt {datalen : ℕ} (key : AesKeyType)
    (hdatalen : datalen < 2 ^ 32) : getChecksumForKey datalen key < 2 ^ 32 :=
  Nat.xor_lt_two_pow hdatalen (genChecksumByKey_lt key)

@[simp]
theorem validChecksumForKey_self (datalen : ℕ) (key : AesKeyType) :
    validChecksumForKey datalen (getChecksumForKey datalen key) key = true :=
  beq_self_eq_true _

end PbMapper.Core

import Mathlib.Algebra.Group.Nat.Defs
import Mathlib.Data.Nat.Basic
import Mathlib.Tactic.Basic

/-!
# Credential identities

A `KeyId` is the 64-bit number a client presents: the generation of a row of
the slot table in its high half and the row in its low half.  The three types
carry their widths, so that no identity outside the wire format can be built.
-/

namespace PbMapper.Auth

/-- Which row of the slot table a credential lives in. -/
structure SlotIndex where
  asIndex : ℕ
  lt : asIndex < 2 ^ 32
deriving DecidableEq, Repr

/-- Which tenant of a slot a credential belongs to. -/
structure Generation where
  asU32 : ℕ
  lt : asU32 < 2 ^ 32
deriving DecidableEq, Repr

/-- The identity a client presents. -/
structure KeyId where
  asU64 : ℕ
  lt : asU64 < 2 ^ 64
deriving DecidableEq, Repr

@[ext]
theorem SlotIndex.ext {left right : SlotIndex}
    (heq : left.asIndex = right.asIndex) : left = right := by
  cases left
  cases right
  simp_all

@[ext]
theorem Generation.ext {left right : Generation}
    (heq : left.asU32 = right.asU32) : left = right := by
  cases left
  cases right
  simp_all

@[ext]
theorem KeyId.ext {left right : KeyId} (heq : left.asU64 = right.asU64) :
    left = right := by
  cases left
  cases right
  simp_all

/-- The administrator, which owns no slot and never expires. -/
def adminKeyId : KeyId := ⟨0, Nat.two_pow_pos _⟩

namespace Generation

def first : Generation := ⟨0, Nat.two_pow_pos _⟩

/-- The generation for a reissue of a row, or `none` once the row has been
cycled `u32::MAX` times. -/
def next (generation : Generation) : Option Generation :=
  if h : generation.asU32 + 1 < 2 ^ 32 then some ⟨generation.asU32 + 1, h⟩
  else none

theorem next_eq_some_iff {generation following : Generation} :
    generation.next = some following ↔
      following.asU32 = generation.asU32 + 1 := by
  unfold next
  constructor
  · intro hnext
    split at hnext
    · rw [← Option.some.inj hnext]
    · cases hnext
  · intro heq
    have hlt := following.lt
    rw [heq] at hlt
    rw [dif_pos hlt]
    exact congrArg some (Generation.ext heq.symm)

end Generation

namespace KeyId

def new (generation : Generation) (slot : SlotIndex) : KeyId :=
  ⟨generation.asU32 * 2 ^ 32 + slot.asIndex, by
    have := generation.lt
    have := slot.lt
    omega⟩

def generation (keyId : KeyId) : Generation :=
  ⟨keyId.asU64 / 2 ^ 32, by
    have := keyId.lt
    omega⟩

def slot (keyId : KeyId) : SlotIndex :=
  ⟨keyId.asU64 % 2 ^ 32, Nat.mod_lt _ (Nat.two_pow_pos _)⟩

def fromU64 (raw : ℕ) : KeyId := ⟨raw % 2 ^ 64, Nat.mod_lt _ (Nat.two_pow_pos _)⟩

def isAdmin (keyId : KeyId) : Bool := keyId.asU64 == adminKeyId.asU64

variable (keyId : KeyId) (generation : Generation) (slot : SlotIndex)

@[simp]
theorem generation_new : (new generation slot).generation = generation := by
  apply Generation.ext
  have := slot.lt
  simp only [new, KeyId.generation]
  omega

@[simp]
theorem slot_new : (new generation slot).slot = slot := by
  apply SlotIndex.ext
  have := slot.lt
  simp only [new, KeyId.slot]
  omega

@[simp]
theorem new_generation_slot : new keyId.generation keyId.slot = keyId := by
  apply KeyId.ext
  simp only [new, KeyId.generation, KeyId.slot]
  omega

end KeyId

end PbMapper.Auth

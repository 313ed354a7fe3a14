import Mathlib.Algebra.Group.Nat.Defs
import Mathlib.Order.Lattice
import Mathlib.Order.Defs.LinearOrder
import Mathlib.Data.Nat.Basic

/-!
# Saturating arithmetic of machine words

The bounds of the unsigned words and their saturating operations, on natural
numbers.  Saturating subtraction is `ℕ`'s own.
-/

namespace MachineWord

abbrev u32Max : ℕ := 2 ^ 32 - 1

abbrev u64Max : ℕ := 2 ^ 64 - 1

/-- `saturating_add` of a word whose largest value is `limit`. -/
def satAdd (limit left right : ℕ) : ℕ := min (left + right) limit

/-- `saturating_mul` of a word whose largest value is `limit`. -/
def satMul (limit left right : ℕ) : ℕ := min (left * right) limit

theorem satAdd_of_le {limit left right : ℕ} (hle : left + right ≤ limit) :
    satAdd limit left right = left + right :=
  min_eq_left hle

theorem satMul_of_le {limit left right : ℕ} (hle : left * right ≤ limit) :
    satMul limit left right = left * right :=
  min_eq_left hle

theorem satMul_le_mul (limit left right : ℕ) :
    satMul limit left right ≤ left * right :=
  min_le_left _ _

/-- Against a value below the limit, a saturated product compares as the exact
one. -/
theorem satMul_le_iff {limit left right value : ℕ} (hvalue : value < limit) :
    satMul limit left right ≤ value ↔ left * right ≤ value := by
  unfold satMul
  omega

/-- Addition on a word that wraps, for a word with maximum `limit`. -/
def wrapAdd (limit left right : ℕ) : ℕ := (left + right) % (limit + 1)

theorem wrapAdd_of_le {limit left right : ℕ} (hle : left + right ≤ limit) :
    wrapAdd limit left right = left + right :=
  Nat.mod_eq_of_lt (Nat.lt_succ_of_le hle)

/-- `saturating_pow`. -/
def satPow (limit base exponent : ℕ) : ℕ := min (base ^ exponent) limit

theorem satPow_of_le {limit base exponent : ℕ} (hle : base ^ exponent ≤ limit) :
    satPow limit base exponent = base ^ exponent :=
  min_eq_left hle

end MachineWord

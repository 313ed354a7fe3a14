import Mathlib.Data.Nat.Basic
import Mathlib.Tactic.Ring

/-!
# Big-endian numbers

The bytes of a number in network order, and the number a byte string denotes.
-/

namespace BigEndian

/-- The `width` low-order bytes of a number, most significant first. -/
def toBeBytes : ℕ → ℕ → List UInt8
  | 0, _ => []
  | width + 1, value =>
      UInt8.ofNat (value / 256 ^ width) :: toBeBytes width value

def fromBeBytes (bytes : List UInt8) : ℕ :=
  bytes.foldl (fun value byte => value * 256 + byte.toNat) 0

@[simp]
theorem length_toBeBytes (width value : ℕ) :
    (toBeBytes width value).length = width := by
  induction width with
  | zero => rfl
  | succ width ih => simp [toBeBytes, ih]

private theorem foldl_toBeBytes (width value start : ℕ) :
    (toBeBytes width value).foldl
        (fun value byte => value * 256 + byte.toNat) start =
      start * 256 ^ width + value % 256 ^ width := by
  induction width generalizing start with
  | zero => simp [toBeBytes, Nat.mod_one]
  | succ width ih =>
      have hbyte : (UInt8.ofNat (value / 256 ^ width)).toNat =
          value / 256 ^ width % 256 := by simp
      rw [toBeBytes, List.foldl_cons, ih, hbyte, Nat.mod_pow_succ]
      ring

/-- A number that fits its width is read back from its bytes. -/
theorem fromBeBytes_toBeBytes {width value : ℕ} (hvalue : value < 256 ^ width) :
    fromBeBytes (toBeBytes width value) = value := by
  rw [fromBeBytes, foldl_toBeBytes, Nat.mod_eq_of_lt hvalue]
  omega

/-- Numbers that fit their width are told apart by their bytes. -/
theorem toBeBytes_injOn {width left right : ℕ} (hleft : left < 256 ^ width)
    (hright : right < 256 ^ width)
    (heq : toBeBytes width left = toBeBytes width right) : left = right := by
  have hvalues := congrArg fromBeBytes heq
  rwa [fromBeBytes_toBeBytes hleft, fromBeBytes_toBeBytes hright] at hvalues

private theorem foldl_eq (bytes : List UInt8) (start : ℕ) :
    bytes.foldl (fun value byte => value * 256 + byte.toNat) start =
      start * 256 ^ bytes.length + fromBeBytes bytes := by
  induction bytes generalizing start with
  | nil => simp [fromBeBytes]
  | cons byte bytes ih =>
      have hbyte := ih (0 * 256 + byte.toNat)
      rw [fromBeBytes, List.foldl_cons, List.foldl_cons, ih, hbyte,
        List.length_cons]
      ring

theorem fromBeBytes_cons (byte : UInt8) (bytes : List UInt8) :
    fromBeBytes (byte :: bytes) =
      byte.toNat * 256 ^ bytes.length + fromBeBytes bytes := by
  rw [fromBeBytes, List.foldl_cons, foldl_eq, Nat.zero_mul, Nat.zero_add]

theorem fromBeBytes_lt (bytes : List UInt8) :
    fromBeBytes bytes < 256 ^ bytes.length := by
  induction bytes with
  | nil => exact Nat.one_pos
  | cons byte bytes ih =>
      have hbyte : byte.toNat < 256 := byte.toNat_lt
      rw [fromBeBytes_cons, List.length_cons, Nat.pow_succ']
      calc byte.toNat * 256 ^ bytes.length + fromBeBytes bytes
          < byte.toNat * 256 ^ bytes.length + 256 ^ bytes.length :=
            Nat.add_lt_add_left ih _
        _ = (byte.toNat + 1) * 256 ^ bytes.length := by ring
        _ ≤ 256 * 256 ^ bytes.length := Nat.mul_le_mul_right _ hbyte

/-- Whatever stands above a number's width does not reach its bytes. -/
private theorem toBeBytes_add_mul (width value above : ℕ) :
    toBeBytes width (above * 256 ^ width + value) = toBeBytes width value := by
  induction width generalizing above with
  | zero => rfl
  | succ width ih =>
      have hsplit : above * 256 ^ (width + 1) + value =
          above * 256 * 256 ^ width + value := by ring
      have hbyte : UInt8.ofNat (above * 256 + value / 256 ^ width) =
          UInt8.ofNat (value / 256 ^ width) := by
        apply UInt8.toNat_inj.mp
        simp only [UInt8.toNat_ofNat', Nat.mul_add_mod_self_right]
      rw [toBeBytes, toBeBytes, hsplit, ih, Nat.mul_comm (above * 256),
        Nat.mul_add_div (Nat.pow_pos (by decide)), hbyte]

/-- A byte string is what the number it denotes is written as. -/
theorem toBeBytes_fromBeBytes (bytes : List UInt8) :
    toBeBytes bytes.length (fromBeBytes bytes) = bytes := by
  induction bytes with
  | nil => rfl
  | cons byte bytes ih =>
      have hlow := fromBeBytes_lt bytes
      have hhigh : (byte.toNat * 256 ^ bytes.length + fromBeBytes bytes) /
          256 ^ bytes.length = byte.toNat := by
        rw [Nat.mul_comm, Nat.mul_add_div (Nat.pow_pos (by decide)),
          Nat.div_eq_of_lt hlow, Nat.add_zero]
      rw [fromBeBytes_cons, List.length_cons, toBeBytes, hhigh,
        toBeBytes_add_mul, ih, UInt8.ofNat_toNat]

end BigEndian

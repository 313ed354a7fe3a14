import Mathlib.Data.List.Basic
import Mathlib.Data.Option.Basic
import Mathlib.Tactic.IntervalCases

/-!
# Fixed-width hexadecimal text

Printing a number with a fixed number of lower-case hexadecimal digits and
reading a number back in radix 16, with the reader's optional sign and its
overflow check.
-/

namespace Hexadecimal

/-- `digits` lower-case hexadecimal digits, most significant first. -/
def format : ℕ → ℕ → List Char
  | 0, _ => []
  | digits + 1, value =>
      format digits (value / 16) ++ [Nat.digitChar (value % 16)]

/-- The value of a digit in radix 16, of either case. -/
def digitValue (c : Char) : Option ℕ :=
  if '0' ≤ c ∧ c ≤ '9' then some (c.toNat - '0'.toNat)
  else if 'a' ≤ c ∧ c ≤ 'f' then some (c.toNat - 'a'.toNat + 10)
  else if 'A' ≤ c ∧ c ≤ 'F' then some (c.toNat - 'A'.toNat + 10)
  else none

/-- One digit of the reader's loop. -/
def pushDigit (limit value : ℕ) (c : Char) : Option ℕ := do
  let digit ← digitValue c
  if value * 16 + digit ≤ limit then some (value * 16 + digit) else none

/-- `from_str_radix` of an unsigned word with radix 16. -/
def parse (limit : ℕ) (text : List Char) : Option ℕ :=
  let digits := if text.head? = some '+' then text.tail else text
  if digits = [] then none else digits.foldlM (pushDigit limit) 0

section Digits

variable {digit : ℕ}

theorem digitValue_digitChar (hdigit : digit < 16) :
    digitValue (Nat.digitChar digit) = some digit := by
  interval_cases digit <;> rfl

/-- A digit is neither a sign nor a control character. -/
theorem digitChar_ne (hdigit : digit < 16) :
    Nat.digitChar digit ≠ '+' ∧ Nat.digitChar digit ≠ '\x00' := by
  interval_cases digit <;> decide

end Digits

@[simp]
theorem length_format (digits value : ℕ) :
    (format digits value).length = digits := by
  induction digits generalizing value with
  | zero => rfl
  | succ digits ih => simp [format, ih]

theorem ne_of_mem_format {digits value : ℕ} {c : Char}
    (hmem : c ∈ format digits value) : c ≠ '+' ∧ c ≠ '\x00' := by
  induction digits generalizing value with
  | zero => simp [format] at hmem
  | succ digits ih =>
      rw [format, List.mem_append, List.mem_singleton] at hmem
      rcases hmem with hmem | rfl
      · exact ih hmem
      · exact digitChar_ne (Nat.mod_lt _ (by decide))

/-- The loop reads back the digits it is given. -/
theorem foldlM_format {limit digits value : ℕ} (hwidth : value < 16 ^ digits)
    (hlimit : value ≤ limit) :
    (format digits value).foldlM (pushDigit limit) 0 = some value := by
  induction digits generalizing value with
  | zero =>
      obtain rfl : value = 0 := by simpa using hwidth
      rfl
  | succ digits ih =>
      have hfront : (format digits (value / 16)).foldlM (pushDigit limit) 0 =
          some (value / 16) :=
        ih (by rw [pow_succ] at hwidth; omega) (by omega)
      have hvalue : value / 16 * 16 + value % 16 = value := by omega
      have hmod : value % 16 < 16 := Nat.mod_lt _ (by decide)
      simp [format, List.foldlM_append, hfront, pushDigit,
        digitValue_digitChar hmod, hvalue, hlimit]

theorem parse_format {limit digits value : ℕ} (hpositive : 0 < digits)
    (hwidth : value < 16 ^ digits) (hlimit : value ≤ limit) :
    parse limit (format digits value) = some value := by
  have hsign : (format digits value).head? ≠ some '+' := fun hhead =>
    (ne_of_mem_format (List.mem_of_mem_head? hhead)).1 rfl
  have hnonempty : format digits value ≠ [] :=
    List.ne_nil_of_length_pos (by simpa using hpositive)
  simp only [parse, if_neg hsign, if_neg hnonempty]
  exact foldlM_format hwidth hlimit

end Hexadecimal

import Mathlib.Data.Nat.Basic
import Mathlib.Data.Option.Basic
import Mathlib.Tactic.IntervalCases

/-!
# URL-safe base64 without padding

The encoding over the URL-safe alphabet and its canonical decoding, which
refuses padding and trailing bits.
-/

namespace Base64Url

/-! ## Digits -/

/-- The character of a digit below 64. -/
def digitByte (digit : ℕ) : UInt8 :=
  if digit < 26 then UInt8.ofNat (65 + digit)
  else if digit < 52 then UInt8.ofNat (71 + digit)
  else if digit < 62 then UInt8.ofNat (digit - 4)
  else if digit = 62 then 45
  else 95

def digitValue (byte : UInt8) : Option ℕ :=
  let code := byte.toNat
  if 65 ≤ code ∧ code ≤ 90 then some (code - 65)
  else if 97 ≤ code ∧ code ≤ 122 then some (code - 71)
  else if 48 ≤ code ∧ code ≤ 57 then some (code + 4)
  else if code = 45 then some 62
  else if code = 95 then some 63
  else none

theorem digitValue_digitByte {digit : ℕ} (hdigit : digit < 64) :
    digitValue (digitByte digit) = some digit := by
  interval_cases digit <;> rfl

theorem digitByte_of_digitValue {byte : UInt8} {digit : ℕ}
    (hvalue : digitValue byte = some digit) :
    digit < 64 ∧ digitByte digit = byte := by
  have hall : ∀ code < 256, ∀ digit, digitValue (UInt8.ofNat code) = some digit →
      digit < 64 ∧ digitByte digit = UInt8.ofNat code := by
    intro code hcode digit hdigit
    have hcheck : ∀ code < 256, ∀ digit ∈ digitValue (UInt8.ofNat code),
        digit < 64 ∧ digitByte digit = UInt8.ofNat code := by decide +kernel
    exact hcheck code hcode digit hdigit
  have hbyte := hall byte.toNat byte.toNat_lt digit
  rw [UInt8.ofNat_toNat] at hbyte
  exact hbyte hvalue

/-! ## Texts -/

def encode : List UInt8 → List UInt8
  | first :: second :: third :: bytes =>
      let word := first.toNat * 65536 + second.toNat * 256 + third.toNat
      digitByte (word / 262144) :: digitByte (word / 4096 % 64) ::
        digitByte (word / 64 % 64) :: digitByte (word % 64) :: encode bytes
  | [first, second] =>
      let word := first.toNat * 1024 + second.toNat * 4
      [digitByte (word / 4096), digitByte (word / 64 % 64), digitByte (word % 64)]
  | [first] =>
      let word := first.toNat * 16
      [digitByte (word / 64), digitByte (word % 64)]
  | [] => []

def decode : List UInt8 → Option (List UInt8)
  | first :: second :: third :: fourth :: text => do
      let first ← digitValue first
      let second ← digitValue second
      let third ← digitValue third
      let fourth ← digitValue fourth
      let bytes ← decode text
      let word := first * 262144 + second * 4096 + third * 64 + fourth
      return UInt8.ofNat (word / 65536) :: UInt8.ofNat (word / 256) ::
        UInt8.ofNat word :: bytes
  | [first, second, third] => do
      let first ← digitValue first
      let second ← digitValue second
      let third ← digitValue third
      let word := first * 4096 + second * 64 + third
      if word % 4 = 0 then
        some [UInt8.ofNat (word / 1024), UInt8.ofNat (word / 4)]
      else none
  | [first, second] => do
      let first ← digitValue first
      let second ← digitValue second
      let word := first * 64 + second
      if word % 16 = 0 then some [UInt8.ofNat (word / 16)] else none
  | [_] => none
  | [] => some []

theorem length_encode (bytes : List UInt8) :
    (encode bytes).length = (4 * bytes.length + 2) / 3 := by
  induction bytes using encode.induct with
  | case1 first second third bytes ih =>
      simp only [encode, List.length_cons, ih]
      omega
  | case2 | case3 | case4 => simp [encode]

private theorem ofNat_eq {byte : UInt8} {value : ℕ}
    (hvalue : value % 256 = byte.toNat) : UInt8.ofNat value = byte := by
  apply UInt8.toNat_inj.mp
  rw [UInt8.toNat_ofNat', ← hvalue]

theorem decode_encode (bytes : List UInt8) :
    decode (encode bytes) = some bytes := by
  induction bytes using encode.induct with
  | case1 first second third bytes ih =>
      have hfirst := first.toNat_lt
      have hsecond := second.toNat_lt
      have hthird := third.toNat_lt
      rw [encode, decode, digitValue_digitByte (by omega),
        digitValue_digitByte (by omega), digitValue_digitByte (by omega),
        digitValue_digitByte (by omega), ih]
      simp only [Option.bind_eq_bind, Option.bind_some, Option.pure_def,
        Option.some.injEq, List.cons.injEq, and_true]
      exact ⟨ofNat_eq (by omega), ofNat_eq (by omega), ofNat_eq (by omega)⟩
  | case2 first second =>
      have hfirst := first.toNat_lt
      have hsecond := second.toNat_lt
      rw [encode, decode, digitValue_digitByte (by omega),
        digitValue_digitByte (by omega), digitValue_digitByte (by omega)]
      simp only [Option.bind_eq_bind, Option.bind_some]
      rw [if_pos (by omega)]
      simp only [Option.some.injEq, List.cons.injEq, and_true]
      exact ⟨ofNat_eq (by omega), ofNat_eq (by omega)⟩
  | case3 first =>
      have hfirst := first.toNat_lt
      rw [encode, decode, digitValue_digitByte (by omega),
        digitValue_digitByte (by omega)]
      simp only [Option.bind_eq_bind, Option.bind_some]
      rw [if_pos (by omega)]
      simp only [Option.some.injEq, List.cons.injEq, and_true]
      exact ofNat_eq (by omega)
  | case4 => rfl

/-- Only the encoding of some bytes decodes to them. -/
theorem encode_of_decode {text bytes : List UInt8}
    (hdecode : decode text = some bytes) : encode bytes = text := by
  induction text using decode.induct generalizing bytes with
  | case1 first second third fourth text ih =>
      simp only [decode, Option.bind_eq_bind, Option.bind_eq_some_iff,
        Option.pure_def, Option.some.injEq] at hdecode
      obtain ⟨a, ha, b, hb, c, hc, d, hd, rest, hrest, rfl⟩ := hdecode
      obtain ⟨hlta, rfl⟩ := digitByte_of_digitValue ha
      obtain ⟨hltb, rfl⟩ := digitByte_of_digitValue hb
      obtain ⟨hltc, rfl⟩ := digitByte_of_digitValue hc
      obtain ⟨hltd, rfl⟩ := digitByte_of_digitValue hd
      let word := a * 262144 + b * 4096 + c * 64 + d
      have hword : word / 65536 % 256 * 65536 + word / 256 % 256 * 256 +
          word % 256 = word := by omega
      have hfirst : word / 262144 = a := by omega
      have hsecond : word / 4096 % 64 = b := by omega
      have hthird : word / 64 % 64 = c := by omega
      have hfourth : word % 64 = d := by omega
      simp only [encode, UInt8.toNat_ofNat', ih hrest]
      rw [show word / 65536 % 2 ^ 8 * 65536 + word / 256 % 2 ^ 8 * 256 +
        word % 2 ^ 8 = word from hword, hfirst, hsecond, hthird, hfourth]
  | case2 first second third =>
      simp only [decode, Option.bind_eq_bind, Option.bind_eq_some_iff,
        Option.ite_none_right_eq_some, Option.some.injEq] at hdecode
      obtain ⟨a, ha, b, hb, c, hc, htrailing, rfl⟩ := hdecode
      obtain ⟨hlta, rfl⟩ := digitByte_of_digitValue ha
      obtain ⟨hltb, rfl⟩ := digitByte_of_digitValue hb
      obtain ⟨hltc, rfl⟩ := digitByte_of_digitValue hc
      let word := a * 4096 + b * 64 + c
      have hword : word / 1024 % 256 * 1024 + word / 4 % 256 * 4 = word := by omega
      have hfirst : word / 4096 = a := by omega
      have hsecond : word / 64 % 64 = b := by omega
      have hthird : word % 64 = c := by omega
      simp only [encode, UInt8.toNat_ofNat']
      rw [show word / 1024 % 2 ^ 8 * 1024 + word / 4 % 2 ^ 8 * 4 = word from hword,
        hfirst, hsecond, hthird]
  | case3 first second =>
      simp only [decode, Option.bind_eq_bind, Option.bind_eq_some_iff,
        Option.ite_none_right_eq_some, Option.some.injEq] at hdecode
      obtain ⟨a, ha, b, hb, htrailing, rfl⟩ := hdecode
      obtain ⟨hlta, rfl⟩ := digitByte_of_digitValue ha
      obtain ⟨hltb, rfl⟩ := digitByte_of_digitValue hb
      let word := a * 64 + b
      have hword : word / 16 % 256 * 16 = word := by omega
      have hfirst : word / 64 = a := by omega
      have hsecond : word % 64 = b := by omega
      simp only [encode, UInt8.toNat_ofNat']
      rw [show word / 16 % 2 ^ 8 * 16 = word from hword, hfirst, hsecond]
  | case4 => cases hdecode
  | case5 =>
      cases hdecode
      rfl

end Base64Url

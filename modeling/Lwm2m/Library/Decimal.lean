/-
# Decimal numerals

The bytes of the decimal numeral of a natural number, as `%d` prints it, and the number
that a text writes: a natural number (`naturalWritten`), an integer with an optional minus sign (`integerWritten`), or a decimal
with an optional sign and fraction (`decimalWritten`).
-/

import Mathlib.Algebra.Field.Rat
import Mathlib.Data.Nat.Digits.Defs

namespace Library

/-- The ASCII byte of a decimal digit. -/
def digitByte (d : ℕ) : UInt8 := UInt8.ofNat (48 + d)

/-- The decimal numeral of a number. -/
def decimal (n : ℕ) : List UInt8 :=
  if n = 0 then [digitByte 0] else (Nat.digits 10 n).reverse.map digitByte

/-! ### Numbers that a text writes -/

/-- A byte from '0' to '9'. -/
def isDigit (b : UInt8) : Bool := 0x30 ≤ b && b ≤ 0x39

/-- The number of a list of digits behind a number. -/
def digitsValue (n : ℕ) (digits : List UInt8) : ℕ :=
  digits.foldl (fun n d => 10 * n + (d.toNat - 48)) n

/-- The natural number that a text writes. -/
def naturalWritten (text : List UInt8) : Option ℕ :=
  if text ≠ [] ∧ text.all isDigit then some (digitsValue 0 text) else none

/-- The integer that a text writes. -/
def integerWritten (text : List UInt8) : Option ℤ :=
  let negative := text.head? = some 0x2D
  let digits := if negative then text.tail else text
  if digits ≠ [] ∧ digits.all isDigit then
    some (if negative then -(digitsValue 0 digits : ℤ) else digitsValue 0 digits)
  else none

/-- The number that digits with a fraction write. -/
def fractionWritten (text : List UInt8) : Option ℚ :=
  let whole := text.takeWhile isDigit
  let rest := text.dropWhile isDigit
  let fraction := rest.tail
  if whole ++ fraction ≠ [] ∧ (rest = [] ∨ rest.head? = some 0x2E) ∧ fraction.all isDigit then
    some ((digitsValue 0 (whole ++ fraction) : ℚ) / 10 ^ fraction.length)
  else none

/-- The decimal number that a text writes. -/
def decimalWritten (text : List UInt8) : Option ℚ :=
  if text.head? = some 0x2D then (fractionWritten text.tail).map (- ·)
  else if text.head? = some 0x2B then fractionWritten text.tail
  else fractionWritten text

/-- A number does not get smaller by the digits behind it. -/
theorem le_digitsValue (n : ℕ) (digits : List UInt8) : n ≤ digitsValue n digits := by
  induction digits generalizing n with
  | nil => exact le_rfl
  | cons d digits ih =>
    have := ih (10 * n + (d.toNat - 48))
    change n ≤ digitsValue (10 * n + (d.toNat - 48)) digits
    omega

variable {text : List UInt8} {q : ℚ} {n d : ℕ}

/-- A number is written without NUL. -/
theorem ne_zero_of_fractionWritten (h : fractionWritten text = some q) : ∀ b ∈ text, b ≠ 0 := by
  have hdigit {bytes : List UInt8} (hbytes : bytes.all isDigit = true) : ∀ b ∈ bytes, b ≠ 0 := by
    intro b hb
    have hb := List.all_eq_true.mp hbytes b hb
    rintro rfl
    exact absurd hb (by decide)
  unfold fractionWritten at h
  dsimp only at h
  split_ifs at h with hwritten
  obtain ⟨-, hpoint, hfraction⟩ := hwritten
  intro b hb
  rw [← List.takeWhile_append_dropWhile (p := isDigit) (l := text)] at hb
  rcases List.mem_append.mp hb with hb | hb
  · exact hdigit List.all_takeWhile b hb
  · generalize text.dropWhile isDigit = rest at hb hpoint hfraction
    cases rest with
    | nil => exact absurd hb List.not_mem_nil
    | cons c rest =>
      rcases List.mem_cons.mp hb with rfl | hb
      · have hpoint := hpoint.resolve_left (List.cons_ne_nil _ _)
        rw [Option.some.inj hpoint]
        decide
      · exact hdigit hfraction b hb

/-- A decimal number is written without NUL. -/
theorem ne_zero_of_decimalWritten (h : decimalWritten text = some q) :
    ∀ b ∈ text, b ≠ 0 := by
  have hsign {c : UInt8} (hc : c ≠ 0) (hhead : text.head? = some c)
      (htail : ∀ b ∈ text.tail, b ≠ 0) : ∀ b ∈ text, b ≠ 0 := by
    cases text with
    | nil => exact fun b hb => absurd hb List.not_mem_nil
    | cons c' text =>
      rw [Option.some.inj hhead] at *
      exact List.forall_mem_cons.mpr ⟨hc, htail⟩
  unfold decimalWritten at h
  split_ifs at h with hminus hplus
  · obtain ⟨q', hq', -⟩ := Option.map_eq_some_iff.mp h
    exact hsign (by decide) hminus (ne_zero_of_fractionWritten hq')
  · exact hsign (by decide) hplus (ne_zero_of_fractionWritten h)
  · exact ne_zero_of_fractionWritten h

/-! ### The numeral of a number -/

theorem decimal_of_lt (h : n < 10) : decimal n = [digitByte n] := by
  unfold decimal
  split_ifs with hzero
  · rw [hzero]
  · rw [Nat.digits_of_lt 10 n hzero h]
    rfl

/-- The last digit of a numeral. -/
theorem decimal_of_le (h : 10 ≤ n) :
    decimal n = decimal (n / 10) ++ [digitByte (n % 10)] := by
  have hzero : n ≠ 0 := by omega
  have hquotient : n / 10 ≠ 0 := by omega
  unfold decimal
  rw [if_neg hzero, if_neg hquotient, Nat.digits_def' (by decide) (Nat.pos_of_ne_zero hzero),
    List.reverse_cons, List.map_append]
  rfl

theorem decimal_ne_nil (n : ℕ) : decimal n ≠ [] := by
  rcases Nat.lt_or_ge n 10 with h | h
  · rw [decimal_of_lt h]
    exact List.cons_ne_nil _ _
  · rw [decimal_of_le h]
    exact List.append_ne_nil_of_right_ne_nil _ (List.cons_ne_nil _ _)

/-- A number with at most so many digits. -/
theorem decimal_length_le (hd : 0 < d) (h : n < 10 ^ d) : (decimal n).length ≤ d := by
  induction n using Nat.strong_induction_on generalizing d with
  | _ n ih =>
    rcases Nat.lt_or_ge n 10 with hn | hn
    · rw [decimal_of_lt hn]
      exact hd
    · obtain ⟨d, rfl⟩ : ∃ k, d = k + 2 := Nat.exists_eq_add_of_le' (by
        by_contra hlt
        obtain rfl : d = 1 := by omega
        omega)
      have hquotient := ih (n / 10) (by omega) (d := d + 1) (by omega) (by
        rw [Nat.div_lt_iff_lt_mul (by decide), ← Nat.pow_succ]
        exact h)
      rw [decimal_of_le hn, List.length_append]
      exact Nat.succ_le_succ hquotient

theorem toNat_digitByte (h : d < 10) : (digitByte d).toNat = 48 + d := by
  rw [digitByte, UInt8.toNat_ofNat']
  omega

theorem isDigit_digitByte (h : d < 10) : isDigit (digitByte d) = true := by
  have hvalue := toNat_digitByte h
  simp only [isDigit, Bool.and_eq_true, decide_eq_true_eq, UInt8.le_iff_toNat_le, hvalue]
  exact ⟨Nat.le_add_right _ _, Nat.add_le_add_left (Nat.le_of_lt_succ h) 48⟩

/-- A numeral has digits only. -/
theorem isDigit_of_mem_decimal {b : UInt8} (h : b ∈ decimal n) : isDigit b = true := by
  induction n using Nat.strong_induction_on with
  | _ n ih =>
    rcases Nat.lt_or_ge n 10 with hn | hn
    · rw [decimal_of_lt hn, List.mem_singleton] at h
      rw [h]
      exact isDigit_digitByte hn
    · rw [decimal_of_le hn, List.mem_append, List.mem_singleton] at h
      rcases h with h | rfl
      · exact ih (n / 10) (by omega) h
      · exact isDigit_digitByte (Nat.mod_lt n (by decide))

theorem digitsValue_append (n : ℕ) (digits digits' : List UInt8) :
    digitsValue n (digits ++ digits') = digitsValue (digitsValue n digits) digits' :=
  List.foldl_append

/-- **A numeral is read as its number.** -/
theorem digitsValue_decimal (n : ℕ) : digitsValue 0 (decimal n) = n := by
  induction n using Nat.strong_induction_on with
  | _ n ih =>
    rcases Nat.lt_or_ge n 10 with hn | hn
    · rw [decimal_of_lt hn]
      change 10 * 0 + ((digitByte n).toNat - 48) = n
      rw [toNat_digitByte hn]
      omega
    · rw [decimal_of_le hn, digitsValue_append, ih (n / 10) (by omega)]
      change 10 * (n / 10) + ((digitByte (n % 10)).toNat - 48) = n
      rw [toNat_digitByte (Nat.mod_lt n (by decide))]
      omega

/-- Numbers that agree modulo `k` agree behind the same digits. -/
theorem digitsValue_mod {m k : ℕ} (h : n % k = m % k) (digits : List UInt8) :
    digitsValue n digits % k = digitsValue m digits % k := by
  induction digits generalizing n m with
  | nil => exact h
  | cons d digits ih =>
    refine ih ?_
    rw [Nat.add_mod, Nat.mul_mod, h, ← Nat.mul_mod, ← Nat.add_mod]

end Library

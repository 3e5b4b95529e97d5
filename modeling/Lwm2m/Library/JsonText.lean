/-
# JSON as text

The grammar of JSON over octets, without the white space that may stand between the tokens.  The
octets of a string from 0x20 on stand for themselves, whatever encoding they belong to.
-/

import Lwm2m.Library.Decimal
import Mathlib.Data.Nat.Digits.Lemmas

namespace Library

/-! ### Strings -/

/-- An octet that stands for itself in a string. -/
def isJsonPlain (b : UInt8) : Bool := 0x20 ≤ b && b ≠ 0x22 && b ≠ 0x5C

/-- A digit of a hexadecimal numeral. -/
def isHexDigit (b : UInt8) : Bool :=
  isDigit b || (0x41 ≤ b && b ≤ 0x46) || (0x61 ≤ b && b ≤ 0x66)

/-- An octet that may stand behind a '\', other than 'u'. -/
def isJsonEscape (b : UInt8) : Bool := b ∈ [0x22, 0x5C, 0x2F, 0x62, 0x66, 0x6E, 0x72, 0x74]

/-- What stands between the quotation marks of a string. -/
inductive JsonChars : List UInt8 → Prop
  | nil : JsonChars []
  | plain {c : UInt8} {rest : List UInt8} (h : isJsonPlain c) (hrest : JsonChars rest) :
    JsonChars (c :: rest)
  | escape {c : UInt8} {rest : List UInt8} (h : isJsonEscape c) (hrest : JsonChars rest) :
    JsonChars (0x5C :: c :: rest)
  | unicode {c₁ c₂ c₃ c₄ : UInt8} {rest : List UInt8} (h : [c₁, c₂, c₃, c₄].all isHexDigit)
    (hrest : JsonChars rest) : JsonChars (0x5C :: 0x75 :: c₁ :: c₂ :: c₃ :: c₄ :: rest)

/-- A string. -/
def quoted (chars : List UInt8) : List UInt8 := 0x22 :: (chars ++ [0x22])

theorem JsonChars.append {chars chars' : List UInt8} (h : JsonChars chars)
    (h' : JsonChars chars') : JsonChars (chars ++ chars') := by
  induction h with
  | nil => exact h'
  | plain h hrest ih => exact .plain h ih
  | escape h hrest ih => exact .escape h ih
  | unicode h hrest ih => exact .unicode h ih

theorem jsonChars_of_plain {chars : List UInt8} (h : ∀ c ∈ chars, isJsonPlain c) :
    JsonChars chars := by
  induction chars with
  | nil => exact .nil
  | cons c chars ih =>
    obtain ⟨hc, hchars⟩ := List.forall_mem_cons.mp h
    exact .plain hc (ih hchars)

theorem isJsonPlain_of_isDigit {b : UInt8} (h : isDigit b) : isJsonPlain b := by
  simp only [isDigit, isJsonPlain, Bool.and_eq_true, decide_eq_true_eq, UInt8.le_iff_toNat_le]
    at h ⊢
  refine ⟨⟨h.1.trans' (by decide), ?_⟩, ?_⟩ <;>
    · rintro rfl
      exact absurd h (by decide)

/-! ### Numbers -/

/-- A numeral without a leading zero. -/
def JsonWhole (digits : List UInt8) : Prop :=
  digits ≠ [] ∧ digits.all isDigit ∧ (digits.head? = some 0x30 → digits = [0x30])

/-- What may stand behind the integral part of a number: a point with digits, and an exponent. -/
def JsonFraction (text : List UInt8) : Prop :=
  text = [] ∨ ∃ digits, digits ≠ [] ∧ digits.all isDigit ∧ text = 0x2E :: digits

/-- The exponent of a number. -/
def JsonExponent (text : List UInt8) : Prop :=
  text = [] ∨ ∃ e sign digits, e ∈ [0x45, 0x65] ∧ sign ∈ [[], [0x2B], [0x2D]] ∧ digits ≠ [] ∧
    digits.all isDigit ∧ text = e :: (sign ++ digits)

/-- A number. -/
def JsonNumber (text : List UInt8) : Prop :=
  ∃ sign whole fraction exponent, text = sign ++ whole ++ fraction ++ exponent ∧
    sign ∈ [[], [0x2D]] ∧ JsonWhole whole ∧ JsonFraction fraction ∧ JsonExponent exponent

/-- The numeral of a number has no leading zero. -/
theorem jsonWhole_decimal (n : ℕ) : JsonWhole (decimal n) := by
  refine ⟨decimal_ne_nil n, List.all_eq_true.mpr fun b hb => isDigit_of_mem_decimal hb, ?_⟩
  unfold decimal
  by_cases hn : n = 0
  · rw [if_pos hn]
    exact fun _ => rfl
  · rw [if_neg hn]
    intro hhead
    have hne : Nat.digits 10 n ≠ [] := Nat.digits_ne_nil_iff_ne_zero.mpr hn
    rw [List.head?_map, List.head?_reverse, List.getLast?_eq_getLast_of_ne_nil hne] at hhead
    have hlast := Nat.getLast_digit_ne_zero 10 hn
    have hlt : (Nat.digits 10 n).getLast hne < 10 :=
      Nat.digits_lt_base (by decide) (List.getLast_mem hne)
    have hvalue := congrArg UInt8.toNat (Option.some.inj hhead)
    rw [toNat_digitByte hlt] at hvalue
    exact absurd (Nat.add_left_cancel (hvalue.trans (show _ = 48 + 0 from rfl))) hlast

theorem jsonNumber_whole {digits : List UInt8} (h : JsonWhole digits) : JsonNumber digits :=
  ⟨[], digits, [], [], by simp, by simp, h, .inl rfl, .inl rfl⟩

theorem jsonNumber_neg {digits : List UInt8} (h : JsonWhole digits) :
    JsonNumber (0x2D :: digits) :=
  ⟨[0x2D], digits, [], [], by simp, by simp, h, .inl rfl, .inl rfl⟩

/-! ### Values -/

/-- A member of an object. -/
def jsonMember (name value : List UInt8) : List UInt8 := quoted name ++ 0x3A :: value

/-- The items between brackets, with a comma between every two of them. -/
def jsonArray (items : List (List UInt8)) : List UInt8 :=
  0x5B :: ([0x2C].intercalate items ++ [0x5D])

/-- The members between braces, with a comma between every two of them. -/
def jsonObject (members : List (List UInt8)) : List UInt8 :=
  0x7B :: ([0x2C].intercalate members ++ [0x7D])

/-- A text that is JSON. -/
inductive Json : List UInt8 → Prop
  /-- `true`, `false` or `null`. -/
  | word {text : List UInt8} (h : text ∈ [[0x74, 0x72, 0x75, 0x65],
      [0x66, 0x61, 0x6C, 0x73, 0x65], [0x6E, 0x75, 0x6C, 0x6C]]) : Json text
  | number {text : List UInt8} (h : JsonNumber text) : Json text
  | string {chars : List UInt8} (h : JsonChars chars) : Json (quoted chars)
  | array {items : List (List UInt8)} (h : ∀ item ∈ items, Json item) : Json (jsonArray items)
  | object {members : List (List UInt8 × List UInt8)} (hname : ∀ m ∈ members, JsonChars m.1)
    (hvalue : ∀ m ∈ members, Json m.2) :
    Json (jsonObject (members.map fun m => jsonMember m.1 m.2))

end Library

/-
# Numbers and paths as text

The functions of `core/utils.c` that write numbers, and `uri_toString` of `core/uri.c`.

A function that writes into a buffer is handed the length of the buffer and returns the bytes it
leaves there, `none` where it returns 0 or -1.
-/

import Lwm2m.Core.Context
import Lwm2m.Library.Decimal

namespace Lwm2m.Core

open Library

/-! ### Numbers -/

/-- The loop of `utils_uintToText`, which writes the last digit first; `index` positions are
left. -/
def uintToTextLoop : ℕ → ℕ → List Byte → Option (List Byte)
  | 0, _, _ => none
  | index + 1, data, string =>
    let string := digitByte (data % 10) :: string
    if data / 10 = 0 then some string else uintToTextLoop index (data / 10) string

/-- `utils_uintToText`. -/
def utilsUintToText (data length : ℕ) : Option (List Byte) := uintToTextLoop length data []

/-- The text of `INT64_MIN`: -9223372036854775808. -/
def int64MinStr : List Byte :=
  [0x2D, 0x39, 0x32, 0x32, 0x33, 0x33, 0x37, 0x32, 0x30, 0x33, 0x36, 0x38, 0x35, 0x34, 0x37, 0x37,
    0x35, 0x38, 0x30, 0x38]

/-- `utils_intToText`, for a number of 64 bits and a `long` that has as many. -/
def utilsIntToText (data : ℤ) (length : ℕ) : Option (List Byte) :=
  if data < 0 then
    if length = 0 then none
    else if data = -2 ^ 63 then if int64MinStr.length ≥ length then none else some int64MinStr
    else (utilsUintToText data.natAbs (length - 1)).map (0x2D :: ·)
  else utilsUintToText data.toNat length

theorem uintToTextLoop_eq (index data : ℕ) (string : List Byte) :
    uintToTextLoop index data string =
      if (decimal data).length ≤ index then some (decimal data ++ string) else none := by
  induction index generalizing data string with
  | zero => exact (if_neg fun h => decimal_ne_nil data (List.length_eq_zero_iff.mp (by omega))).symm
  | succ index ih =>
    unfold uintToTextLoop
    rcases Nat.lt_or_ge data 10 with h | h
    · rw [if_pos (Nat.div_eq_of_lt h), Nat.mod_eq_of_lt h, decimal_of_lt h]
      exact (if_pos (Nat.le_add_left 1 index)).symm
    · have hdiv : data / 10 ≠ 0 := by omega
      rw [if_neg hdiv, ih, decimal_of_le h, List.length_append, List.append_assoc]
      simp only [List.length_singleton, Nat.add_le_add_iff_right, List.singleton_append]

/-- A number is written when its numeral fits. -/
theorem utilsUintToText_eq (data length : ℕ) :
    utilsUintToText data length =
      if (decimal data).length ≤ length then some (decimal data) else none := by
  unfold utilsUintToText
  rw [uintToTextLoop_eq, List.append_nil]

theorem utilsIntToText_natCast (data length : ℕ) :
    utilsIntToText data length = utilsUintToText data length := by
  unfold utilsIntToText
  rw [if_neg (Int.not_lt.mpr (Int.natCast_nonneg data)), Int.toNat_natCast]

/-- The text of an integer. -/
def intText (data : ℤ) : List Byte :=
  if data < 0 then 0x2D :: decimal data.natAbs else decimal data.toNat

variable {data : ℤ} {length : ℕ}

/-- An integer of 64 bits is written into 21 bytes or more. -/
theorem utilsIntToText_eq (hmin : -2 ^ 63 ≤ data) (hmax : data < 2 ^ 63) (h : 21 ≤ length) :
    utilsIntToText data length = some (intText data) := by
  have hdigits {n : ℕ} (hn : n < 10 ^ 19) {k : ℕ} (hk : 20 ≤ k) :
      utilsUintToText n k = some (decimal n) := by
    have hlength := decimal_length_le (d := 19) (by decide) hn
    rw [utilsUintToText_eq, if_pos (by omega)]
  unfold utilsIntToText intText
  by_cases hneg : data < 0
  · rw [if_pos hneg, if_pos hneg, if_neg (by omega)]
    by_cases hmost : data = -2 ^ 63
    · rw [if_pos hmost, if_neg (Nat.not_le.mpr (show int64MinStr.length < length from h)), hmost]
      simp [decimal, int64MinStr, digitByte]
    · rw [if_neg hmost, hdigits (by omega) (by omega)]
      rfl
  · rw [if_neg hneg, if_neg hneg, hdigits (by omega) (by omega)]

/-- An integer of 64 bits is written when there is more room than its text takes. -/
theorem utilsIntToText_of_lt (hmin : -2 ^ 63 ≤ data) (hmax : data < 2 ^ 63)
    (h : (intText data).length < length) : utilsIntToText data length = some (intText data) := by
  rcases Nat.lt_or_ge length 21 with hlt | hge
  · unfold intText at h ⊢
    unfold utilsIntToText
    by_cases hneg : data < 0
    · rw [if_pos hneg, List.length_cons] at h
      by_cases hmost : data = -2 ^ 63
      · rw [hmost] at h
        exact absurd h (by simp [decimal]; omega)
      · rw [if_pos hneg, if_pos hneg, if_neg (by omega), if_neg hmost, utilsUintToText_eq,
          if_pos (by omega)]
        rfl
    · rw [if_neg hneg] at h
      rw [if_neg hneg, if_neg hneg, utilsUintToText_eq, if_pos h.le]
  · exact utilsIntToText_eq hmin hmax hge

/-- What is written for an integer is its text. -/
theorem eq_intText {text : List Byte} (h : utilsIntToText data length = some text) :
    text = intText data := by
  unfold utilsIntToText at h
  unfold intText
  by_cases hneg : data < 0
  · rw [if_pos hneg] at h
    rw [if_pos hneg]
    split_ifs at h with _ hmost
    · rw [hmost, ← Option.some.inj h]
      simp [decimal, int64MinStr, digitByte]
    · rw [utilsUintToText_eq] at h
      split_ifs at h
      · exact (Option.some.inj h).symm
      · cases h
  · rw [if_neg hneg, utilsUintToText_eq] at h
    rw [if_neg hneg]
    split_ifs at h
    exact (Option.some.inj h).symm

theorem intText_length_le (hmin : -2 ^ 63 ≤ data) (hmax : data < 2 ^ 63) :
    (intText data).length ≤ 20 := by
  have hdigits {n : ℕ} (hn : n < 10 ^ 19) : (decimal n).length ≤ 19 :=
    decimal_length_le (by decide) hn
  unfold intText
  split_ifs
  · exact Nat.succ_le_succ (hdigits (by omega))
  · exact (hdigits (by omega)).trans (by decide)

/-- The text of an identifier, in a buffer of five bytes or more. -/
theorem utilsIntToText_id (id : UInt16) (h : 5 ≤ length) :
    utilsIntToText id.toNat length = some (decimal id.toNat) := by
  have hlength := decimal_length_le (d := 5) (by decide) (show id.toNat < 10 ^ 5 by
    have := id.toNat_lt
    omega)
  rw [utilsIntToText_natCast, utilsUintToText_eq, if_pos (hlength.trans h)]

/-- The bytes that `isspace` accepts. -/
def isSpace (b : Byte) : Bool := b = 0x20 || (0x09 ≤ b && b ≤ 0x0D)

/-! ### Paths -/

/-- `URI_MAX_STRING_LEN`. -/
def uriMaxStringLen : ℕ := 24

/-- One level of `uri_toString` behind the text so far. -/
def appendLevel (bufferLen : ℕ) (id : UInt16) (buffer : List Byte) : Option (List Byte) :=
  if buffer.length ≥ bufferLen - 1 then none
  else (utilsIntToText id.toNat (bufferLen - (buffer.length + 1))).map (buffer ++ 0x2F :: ·)

/-- `uri_toString`, without the depth it also reports. -/
def uriToString (uriP : Option Uri) (bufferLen : ℕ) : Option (List Byte) :=
  match uriP with
  | none => some []
  | some uri =>
    if ¬ uri.isSetObject then if 0 ≥ bufferLen - 1 then none else some [0x2F]
    else do
      let buffer ← appendLevel bufferLen uri.objectId []
      if ¬ uri.isSetInstance then return buffer
      let buffer ← appendLevel bufferLen uri.instanceId buffer
      if ¬ uri.isSetResource then return buffer
      let buffer ← appendLevel bufferLen uri.resourceId buffer
      if ¬ uri.isSetResourceInstance then return buffer
      appendLevel bufferLen uri.resourceInstanceId buffer

/-- A level is written when six bytes are left for it. -/
theorem appendLevel_eq {bufferLen : ℕ} (id : UInt16) {buffer : List Byte}
    (h : buffer.length + 6 ≤ bufferLen) :
    appendLevel bufferLen id buffer = some (buffer ++ 0x2F :: decimal id.toNat) := by
  unfold appendLevel
  rw [if_neg (by omega), utilsIntToText_id id (by omega)]
  rfl

end Lwm2m.Core

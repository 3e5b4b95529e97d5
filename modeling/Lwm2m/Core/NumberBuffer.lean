/-
# Numbers printed into a buffer

`utils_intToText` and `utils_uintToText` of `core/utils.c`, with the bytes of the buffer they are
handed.  The digits are stored from the last byte of the buffer backwards and are then moved to
its start.

The position of the last byte is an `int`, so a buffer of more than 2 ^ 31 bytes is written before
its start, or from a position in front of its last byte on.
-/

import Lwm2m.Core.Buffer
import Lwm2m.Core.NumberText
import Lwm2m.Core.Text

namespace Lwm2m.Core

open Library

/-! ### The functions -/

/-- The loop of `utils_uintToText`: the bytes, and the index and the number that are left. -/
def storeDigits (string : List Byte) (index : ℤ) (data : UInt64) :
    Except Fault (List Byte × ℤ × UInt64) :=
  match storeByte string index (digitByte (data % 10).toNat) with
  | .error fault => .error fault
  | .ok string =>
    if hmore : index - 1 ≥ 0 ∧ data / 10 > 0 then storeDigits string (index - 1) (data / 10)
    else .ok (string, index - 1, data / 10)
  termination_by data.toNat
  decreasing_by
    have hdiv : (data / 10).toNat = data.toNat / 10 := UInt64.toNat_div ..
    have hpos : 0 < (data / 10).toNat := UInt64.lt_iff_toNat_lt.mp hmore.2
    omega

/-- `utils_uintToText`: what it returns, and the bytes of the buffer. -/
def utilsUintToTextInto (data : UInt64) (string : List Byte) : Except Fault (ℕ × List Byte) :=
  if string.length = 0 then .ok (0, string)
  else
    match storeDigits string (Int32.ofNat (string.length - 1)).toInt data with
    | .error fault => .error fault
    | .ok (string, index, data) =>
      if data > 0 then .ok (0, string)
      else
        let index := (index + 1).toNat
        let result := string.length - index
        if result < string.length then
          -- `memmove`
          .ok (result, (string.drop index ++ string.drop result).set result 0)
        else .ok (result, string)

/-- `utils_intToText`, for a `long` of 64 bits: what it returns, and the bytes of the buffer. -/
def utilsIntToTextInto (data : Int64) (string : List Byte) : Except Fault (ℕ × List Byte) :=
  if data < 0 then
    if string.length = 0 then .ok (0, string)
    else do
      let string ← storeByte string 0 0x2D
      if data = Int64.minValue then
        if int64MinStr.length ≥ string.length then return (0, string)
        else return (int64MinStr.length, int64MinStr ++ 0 :: string.drop (int64MinStr.length + 1))
      else
        let (result, rest) ← utilsUintToTextInto (UInt64.ofNat data.toInt.natAbs) (string.drop 1)
        return (if result ≠ 0 then result + 1 else result, string.take 1 ++ rest)
  else utilsUintToTextInto data.toUInt64 string

/-! ### The loop -/

theorem toNat_div_ten (data : UInt64) : (data / 10).toNat = data.toNat / 10 := UInt64.toNat_div ..

theorem toNat_mod_ten (data : UInt64) : (data % 10).toNat = data.toNat % 10 := UInt64.toNat_mod ..

variable {data : UInt64} {length : ℕ} {string string' : List Byte}

/-- **The digits are stored in front of the bytes behind them.** -/
theorem storeDigits_fits (front back : List Byte) {rest : List Byte}
    (h : rest.length = (decimal data.toNat).length) :
    storeDigits (front ++ rest ++ back) ((front.length : ℤ) + rest.length - 1) data =
      .ok (front ++ decimal data.toNat ++ back, (front.length : ℤ) - 1, 0) := by
  induction hn : data.toNat using Nat.strong_induction_on generalizing data rest back with
  | _ n ih =>
    subst hn
    have hrest : rest ≠ [] := by
      rintro rfl
      exact decimal_ne_nil _ (List.length_eq_zero_iff.mp h.symm)
    obtain ⟨rest, y, rfl⟩ : ∃ rest' y, rest = rest' ++ [y] :=
      ⟨_, _, (List.dropLast_append_getLast hrest).symm⟩
    have hindex : (front.length : ℤ) + (rest ++ [y]).length - 1 = ((front ++ rest).length : ℕ) := by
      simp only [List.length_append, List.length_singleton]
      omega
    have hstore : front ++ (rest ++ [y]) ++ back = (front ++ rest) ++ y :: back := by simp
    rw [storeDigits, hindex, hstore, storeByte_append, toNat_mod_ten]
    dsimp only
    have hzero : (0 : UInt64).toNat = 0 := rfl
    rcases Nat.lt_or_ge data.toNat 10 with hlt | hge
    · rw [decimal_of_lt hlt] at h ⊢
      obtain rfl : rest = [] := List.length_eq_zero_iff.mp (by simpa using h)
      have hdone : data / 10 = 0 := UInt64.toNat_inj.mp (by
        rw [toNat_div_ten, hzero]
        exact Nat.div_eq_of_lt hlt)
      rw [dif_neg (by rw [hdone]; exact fun hmore => absurd hmore.2 (by decide)), hdone,
        Nat.mod_eq_of_lt hlt]
      simp
    · rw [decimal_of_le hge, List.length_append, List.length_append] at h
      have hlength : rest.length = (decimal (data / 10).toNat).length := by
        rw [toNat_div_ten]
        simpa using h
      have hpos : 0 < rest.length := by
        rw [hlength]
        exact List.length_pos_of_ne_nil (decimal_ne_nil _)
      have hmore : data / 10 > 0 := UInt64.lt_iff_toNat_lt.mpr (by
        rw [toNat_div_ten, hzero]
        omega)
      have hback := ih (data / 10).toNat (by rw [toNat_div_ten]; omega)
        (digitByte (data.toNat % 10) :: back) hlength rfl
      rw [dif_pos ⟨by rw [List.length_append]; omega, hmore⟩, List.length_append, Nat.cast_add,
        hback, decimal_of_le hge, toNat_div_ten]
      simp

/-- The buffer ends before the digits do. -/
theorem storeDigits_full (back : List Byte) {rest : List Byte} (hrest : rest ≠ [])
    (h : rest.length < (decimal data.toNat).length) :
    ∃ string data', storeDigits (rest ++ back) ((rest.length : ℤ) - 1) data =
      .ok (string, -1, data') ∧ string.length = (rest ++ back).length ∧ data' > 0 := by
  induction rest using List.reverseRecOn generalizing data back with
  | nil => exact absurd rfl hrest
  | append_singleton rest y ih =>
    have hge : 10 ≤ data.toNat := by
      by_contra hlt
      rw [decimal_of_lt (Nat.not_le.mp hlt)] at h
      simp at h
    have hmore : data / 10 > 0 := UInt64.lt_iff_toNat_lt.mpr (by
      have hzero : (0 : UInt64).toNat = 0 := rfl
      rw [toNat_div_ten, hzero]
      omega)
    have hindex : ((rest ++ [y]).length : ℤ) - 1 = (rest.length : ℕ) := by simp
    rw [storeDigits, hindex, List.append_assoc, List.singleton_append, storeByte_append]
    dsimp only
    by_cases hnil : rest = []
    · subst hnil
      rw [dif_neg fun hfits => absurd hfits.1 (by simp)]
      exact ⟨_, _, rfl, by simp, hmore⟩
    · have hlength : rest.length < (decimal (data / 10).toNat).length := by
        rw [decimal_of_le hge, List.length_append, List.length_append] at h
        rw [toNat_div_ten]
        simpa using h
      have hpos := List.length_pos_of_ne_nil hnil
      obtain ⟨string, data', hloop, hsame, hdata⟩ :=
        ih (digitByte (data % 10).toNat :: back) hnil hlength
      rw [dif_pos ⟨by omega, hmore⟩]
      exact ⟨string, data', hloop, by simpa using hsame, hdata⟩

/-! ### The functions on buffers of up to 2 ^ 31 bytes -/

theorem lastIndex_eq (hpos : length ≠ 0) (h : length ≤ 2 ^ 31) :
    (Int32.ofNat (length - 1)).toInt = (length : ℤ) - 1 := by
  rw [Int32.toInt_ofNat_of_lt (by omega)]
  omega

/-- The numeral is stored at the start of a buffer that can hold it, and a NUL behind it when there
is room. -/
theorem utilsUintToTextInto_fits (h : string.length ≤ 2 ^ 31)
    (hfits : (decimal data.toNat).length ≤ string.length) :
    ∃ back, utilsUintToTextInto data string =
      .ok ((decimal data.toNat).length, decimal data.toNat ++ back) ∧
      (decimal data.toNat ++ back).length = string.length ∧
      ((decimal data.toNat).length < string.length → back.head? = some 0) := by
  obtain ⟨front, rest, rfl, hrest⟩ : ∃ front rest, string = front ++ rest ∧
      rest.length = (decimal data.toNat).length :=
    ⟨_, _, (List.take_append_drop (string.length - (decimal data.toNat).length) string).symm, by
      rw [List.length_drop]
      omega⟩
  have hdigits := List.length_pos_of_ne_nil (decimal_ne_nil data.toNat)
  have hloop := storeDigits_fits front [] hrest
  rw [List.append_nil, List.append_nil] at hloop
  have hlength : (front ++ decimal data.toNat).length = (front ++ rest).length := by
    rw [List.length_append, List.length_append, hrest]
  have hsum : (front ++ rest).length = front.length + rest.length := List.length_append
  unfold utilsUintToTextInto
  rw [if_neg (by omega), lastIndex_eq (by omega) h, hsum, Nat.cast_add, hloop]
  dsimp only
  have hstart : ((front.length : ℤ) - 1 + 1).toNat = front.length := by omega
  have hresult : (front ++ decimal data.toNat).length - front.length =
      (decimal data.toNat).length := by
    rw [List.length_append, Nat.add_sub_cancel_left]
  rw [if_neg (by decide), hstart, hresult, hlength, List.drop_left, hsum]
  by_cases hfront : front = []
  · subst hfront
    rw [if_neg (by simp [hrest])]
    exact ⟨[], by simp, by simp [hrest], by simp [hrest]⟩
  · have hfirst := List.length_pos_of_ne_nil hfront
    rw [if_pos (by omega), List.set_append_right _ _ le_rfl]
    refine ⟨_, rfl, ?_, fun _ => ?_⟩
    · rw [List.length_append, List.length_set, List.length_drop, hlength]
      omega
    · have hroom : 0 < ((front ++ decimal data.toNat).drop (decimal data.toNat).length).length := by
        rw [List.length_drop, hlength]
        omega
      rw [Nat.sub_self, List.head?_eq_getElem?, List.getElem?_set_self hroom]

/-- A buffer that cannot hold the numeral: 0 is returned. -/
theorem utilsUintToTextInto_full (h : string.length ≤ 2 ^ 31)
    (hfull : string.length < (decimal data.toNat).length) :
    ∃ string', utilsUintToTextInto data string = .ok (0, string') ∧
      string'.length = string.length := by
  unfold utilsUintToTextInto
  by_cases hempty : string.length = 0
  · exact ⟨string, if_pos hempty, rfl⟩
  · have hne : string ≠ [] := fun hnil => hempty (List.length_eq_zero_iff.mpr hnil)
    obtain ⟨string', data', hloop, hlength, hdata⟩ := storeDigits_full [] hne hfull
    rw [List.append_nil] at hloop hlength
    rw [if_neg hempty, lastIndex_eq hempty h, hloop]
    exact ⟨string', if_pos hdata, hlength⟩

/-! ### Longer buffers -/

/-- The loop starts inside the buffer and goes backwards. -/
theorem storeDigits_backwards {index index' : ℤ} {data' : UInt64}
    (h : storeDigits string index data = .ok (string', index', data')) :
    0 ≤ index ∧ index' < index ∧ string'.length = string.length := by
  fun_induction storeDigits string index data with
  | case1 => cases h
  | case2 string index data string'' hstore hmore ih =>
    obtain ⟨hpos, hlength⟩ := storeByte_eq_ok hstore
    obtain ⟨-, hlt, hsame⟩ := ih h
    exact ⟨hpos, by omega, hsame.trans hlength⟩
  | case3 string index data string'' hstore hdone =>
    obtain ⟨hpos, hlength⟩ := storeByte_eq_ok hstore
    cases h
    exact ⟨hpos, by omega, hlength⟩

/-- In a buffer of more than 2 ^ 31 bytes, a byte outside is written, or 0 is returned, or more
than 2 ^ 32. -/
theorem utilsUintToTextInto_long {result : ℕ} (h : 2 ^ 31 < string.length)
    (hresult : utilsUintToTextInto data string = .ok (result, string')) :
    result = 0 ∨ 2 ^ 32 < result := by
  unfold utilsUintToTextInto at hresult
  rw [if_neg (by omega)] at hresult
  split at hresult
  · cases hresult
  · next string'' index data' hloop =>
    obtain ⟨hpos, hlt, hlength⟩ := storeDigits_backwards hloop
    -- the index is lower than the last one by a multiple of 2 ^ 32
    have hlast : (Int32.ofNat (string.length - 1)).toInt + 2 ^ 32 ≤ (string.length : ℤ) - 1 := by
      have hsize : Int32.size = 2 ^ 32 := rfl
      rw [Int32.toInt_ofNat', hsize] at hpos hlt ⊢
      have := Int.bmod_def ((string.length - 1 : ℕ) : ℤ) (2 ^ 32)
      omega
    by_cases hdata : data' > 0
    · rw [if_pos hdata] at hresult
      cases hresult
      exact .inl rfl
    · rw [if_neg hdata] at hresult
      dsimp only at hresult
      split at hresult <;>
        · cases hresult
          exact .inr (by omega)

/-! ### Reading back -/

/-- The numeral of a number of 64 bits is read back. -/
theorem utilsTextToUInt_decimal {buffer : List Byte} (h : buffer.take length = decimal data.toNat) :
    utilsTextToUInt buffer length = some data := by
  have hlength : length ≠ 0 := by
    rintro rfl
    exact decimal_ne_nil _ h.symm
  rw [utilsTextToUInt, if_neg (Int.natCast_ne_zero.mpr hlength), Int.toNat_natCast, h,
    textDigits_decimal data.toNat_lt, UInt64.ofNat_toNat]

theorem splitSign_intText (data : ℤ) :
    splitSign (intText data) = (decide (data < 0), decimal data.natAbs) := by
  unfold intText
  by_cases hneg : data < 0
  · rw [if_pos hneg, decide_eq_true hneg]
    rfl
  · have hhead : (decimal data.toNat).head? ≠ some 0x2D := fun hhead =>
      absurd (isDigit_of_mem_decimal (List.mem_of_head? hhead)) (by decide)
    rw [if_neg hneg, decide_eq_false hneg, splitSign, if_neg hhead,
      show data.natAbs = data.toNat by omega]

/-- The text of an integer of 64 bits is read back. -/
theorem utilsTextToInt_intText {buffer : List Byte} {data : ℤ} (hmin : -2 ^ 63 ≤ data)
    (hmax : data < 2 ^ 63) (h : buffer.take length = intText data) :
    utilsTextToInt buffer length = some data := by
  have hlength : 0 < length := by
    rcases Nat.eq_zero_or_pos length with rfl | hpos
    · have := splitSign_intText data
      rw [← h, List.take_zero] at this
      exact absurd (Prod.mk.inj this).2.symm (decimal_ne_nil _)
    · exact hpos
  rw [utilsTextToInt_eq_some_iff _ _ (Int.natCast_pos.mpr hlength), Int.toNat_natCast, h,
    splitSign_intText]
  have hresult : (UInt64.ofNat data.natAbs).toNat = data.natAbs :=
    UInt64.toNat_ofNat_of_lt' (show data.natAbs < 2 ^ 64 by omega)
  refine ⟨_, textDigits_decimal (by omega), ?_⟩
  rw [hresult]
  unfold intLimit signedInt
  by_cases hneg : data < 0
  · rw [decide_eq_true hneg]
    exact ⟨by rw [if_pos rfl]; omega, by rw [if_pos rfl]; omega⟩
  · rw [decide_eq_false hneg]
    exact ⟨by rw [if_neg Bool.false_ne_true]; omega, by rw [if_neg Bool.false_ne_true]; omega⟩

/-! ### Exact and bounded printing -/

/-- Printing a number into a buffer is exact and bounded: only bytes of the buffer are written, and
0 is returned if the buffer cannot hold the numeral, or else the length of the numeral, which is at
the start of the buffer and is read back as the number. -/
def PrintsUInt (data : UInt64) (string : List Byte) : Prop :=
  ∃ result string', utilsUintToTextInto data string = .ok (result, string') ∧
    string'.length = string.length ∧
    (result = 0 ∧ string.length < (decimal data.toNat).length ∨
      result = (decimal data.toNat).length ∧ string'.take result = decimal data.toNat ∧
        utilsTextToUInt string' result = some data)

/-- Printing an integer into a buffer is exact and bounded; for `INT64_MIN`, 0 may be returned if
the buffer cannot hold the text and its terminator. -/
def PrintsInt (data : Int64) (string : List Byte) : Prop :=
  ∃ result string', utilsIntToTextInto data string = .ok (result, string') ∧
    string'.length = string.length ∧
    (result = 0 ∧ string.length <
        (intText data.toInt).length + (if data = Int64.minValue then 1 else 0) ∨
      result = (intText data.toInt).length ∧ string'.take result = intText data.toInt ∧
        utilsTextToInt string' result = some data.toInt)

theorem decimal_uint64_length_le (data : UInt64) : (decimal data.toNat).length ≤ 20 :=
  decimal_length_le (by decide) (data.toNat_lt.trans (by decide))

theorem printsUInt_iff (data : UInt64) (string : List Byte) :
    PrintsUInt data string ↔ string.length ≤ 2 ^ 31 := by
  have hdigits := decimal_uint64_length_le data
  constructor
  · rintro ⟨result, string', hresult, -, hcase⟩
    by_contra hlong
    have := utilsUintToTextInto_long (Nat.not_le.mp hlong) hresult
    have hpos := List.length_pos_of_ne_nil (decimal_ne_nil data.toNat)
    omega
  · intro h
    rcases Nat.lt_or_ge string.length (decimal data.toNat).length with hfull | hfits
    · obtain ⟨string', hresult, hlength⟩ := utilsUintToTextInto_full h hfull
      exact ⟨0, string', hresult, hlength, .inl ⟨rfl, hfull⟩⟩
    · obtain ⟨back, hresult, hlength, -⟩ := utilsUintToTextInto_fits h hfits
      exact ⟨_, _, hresult, hlength,
        .inr ⟨rfl, List.take_left, utilsTextToUInt_decimal List.take_left⟩⟩

/-- What is written when the numeral of a magnitude is. -/
theorem printsInt_of_text {data : Int64} {result : ℕ} {back : List Byte}
    (hresult : utilsIntToTextInto data string = .ok (result, string'))
    (hstring : string' = intText data.toInt ++ back) (hlength : string'.length = string.length)
    (htext : result = (intText data.toInt).length) : PrintsInt data string := by
  subst hstring htext
  exact ⟨_, _, hresult, hlength, .inr ⟨rfl, List.take_left, utilsTextToInt_intText
    data.le_toInt data.toInt_lt List.take_left⟩⟩

theorem printsInt_nonneg {data : Int64} (h : ¬ data < 0) (string : List Byte) :
    PrintsInt data string ↔ string.length ≤ 2 ^ 31 := by
  have hnonneg : ¬ data.toInt < 0 := fun hneg => h (Int64.lt_iff_toInt_lt.mpr hneg)
  have hvalue : data.toUInt64.toNat = data.toInt.toNat :=
    Int64.toNat_toUInt64_of_le (Int64.not_lt.mp h)
  have hprint : utilsIntToTextInto data string = utilsUintToTextInto data.toUInt64 string :=
    if_neg h
  have htext : intText data.toInt = decimal data.toUInt64.toNat := by
    rw [intText, if_neg hnonneg, hvalue]
  have hdigits := decimal_uint64_length_le data.toUInt64
  constructor
  · rintro ⟨result, string', hresult, -, hcase⟩
    by_contra hlong
    rw [hprint] at hresult
    rw [htext] at hcase
    have := utilsUintToTextInto_long (Nat.not_le.mp hlong) hresult
    have hpos := List.length_pos_of_ne_nil (decimal_ne_nil data.toUInt64.toNat)
    rcases hcase with ⟨-, hfull⟩ | ⟨hlength, -⟩
    · split_ifs at hfull <;> omega
    · omega
  · intro hle
    rcases Nat.lt_or_ge string.length (decimal data.toUInt64.toNat).length with hfull | hfits
    · obtain ⟨string', hresult, hlength⟩ := utilsUintToTextInto_full hle hfull
      refine ⟨0, string', hprint.trans hresult, hlength, .inl ⟨rfl, ?_⟩⟩
      rw [htext]
      exact Nat.lt_add_right _ hfull
    · obtain ⟨back, hresult, hlength, -⟩ := utilsUintToTextInto_fits hle hfits
      exact printsInt_of_text (hprint.trans hresult) (by rw [htext]) hlength (by rw [htext])

/-- A negative integer in a buffer that is not empty: the sign is stored. -/
theorem utilsIntToTextInto_cons {data : Int64} (h : data < 0) (c : Byte) (string : List Byte) :
    utilsIntToTextInto data (c :: string) =
      if data = Int64.minValue then
        if int64MinStr.length ≥ string.length + 1 then .ok (0, 0x2D :: string)
        else .ok (int64MinStr.length, int64MinStr ++ 0 :: string.drop int64MinStr.length)
      else
        (utilsUintToTextInto (UInt64.ofNat data.toInt.natAbs) string).bind fun (result, rest) =>
          .ok (if result ≠ 0 then result + 1 else result, 0x2D :: rest) := by
  have hstore : storeByte (c :: string) 0 0x2D = .ok (0x2D :: string) :=
    storeByte_append [] string c 0x2D
  rw [utilsIntToTextInto, if_pos h, if_neg (by simp), hstore]
  rfl

theorem printsInt_min (string : List Byte) : PrintsInt Int64.minValue string := by
  have htext : intText Int64.minValue.toInt = int64MinStr := by
    simp [intText, decimal, int64MinStr, digitByte]
  have hneg : Int64.minValue < 0 := by decide
  cases string with
  | nil => exact ⟨0, [], rfl, rfl, .inl ⟨rfl, by rw [htext]; decide⟩⟩
  | cons c string =>
    have hprint := utilsIntToTextInto_cons hneg c string
    rw [if_pos rfl] at hprint
    by_cases hfull : int64MinStr.length ≥ string.length + 1
    · rw [if_pos hfull] at hprint
      refine ⟨0, 0x2D :: string, hprint, rfl, .inl ⟨rfl, ?_⟩⟩
      rw [htext, if_pos rfl]
      exact Nat.lt_succ_of_le hfull
    · rw [if_neg hfull] at hprint
      refine printsInt_of_text hprint (by rw [htext]) ?_ (by rw [htext])
      rw [List.length_append, List.length_cons, List.length_cons, List.length_drop]
      omega

theorem printsInt_neg {data : Int64} (h : data < 0) (hmin : data ≠ Int64.minValue)
    (string : List Byte) : PrintsInt data string ↔ string.length ≤ 2 ^ 31 + 1 := by
  have hneg : data.toInt < 0 := Int64.lt_iff_toInt_lt.mp h
  have hrange : -2 ^ 63 ≤ data.toInt := data.le_toInt
  have hvalue : (UInt64.ofNat data.toInt.natAbs).toNat = data.toInt.natAbs :=
    UInt64.toNat_ofNat_of_lt' (show data.toInt.natAbs < 2 ^ 64 by omega)
  have htext : intText data.toInt = 0x2D :: decimal (UInt64.ofNat data.toInt.natAbs).toNat := by
    rw [intText, if_pos hneg, hvalue]
  have hdigits := decimal_uint64_length_le (UInt64.ofNat data.toInt.natAbs)
  have hpos := List.length_pos_of_ne_nil (decimal_ne_nil (UInt64.ofNat data.toInt.natAbs).toNat)
  cases string with
  | nil =>
    refine iff_of_true ⟨0, [], ?_, rfl, .inl ⟨rfl, ?_⟩⟩ (Nat.zero_le _)
    · rw [utilsIntToTextInto, if_pos h]
      rfl
    · rw [htext]
      exact Nat.lt_add_right _ (Nat.succ_pos _)
  | cons c string =>
    have hprint := utilsIntToTextInto_cons h c string
    rw [if_neg hmin] at hprint
    rw [List.length_cons, Nat.add_le_add_iff_right]
    constructor
    · rintro ⟨result, string', hresult, -, hcase⟩
      by_contra hlong
      rw [hprint] at hresult
      rw [htext, if_neg hmin] at hcase
      cases hrest : utilsUintToTextInto (UInt64.ofNat data.toInt.natAbs) string with
      | error fault =>
        rw [hrest] at hresult
        cases hresult
      | ok printed =>
        obtain ⟨result', rest⟩ := printed
        rw [hrest] at hresult
        have := utilsUintToTextInto_long (Nat.not_le.mp hlong) hrest
        simp only [List.length_cons] at hcase
        cases hresult
        split_ifs at hcase <;> omega
    · intro hle
      rcases Nat.lt_or_ge string.length
        (decimal (UInt64.ofNat data.toInt.natAbs).toNat).length with hfull | hfits
      · obtain ⟨rest, hrest, hlength⟩ := utilsUintToTextInto_full hle hfull
        rw [hrest] at hprint
        refine ⟨0, 0x2D :: rest, hprint, congrArg (· + 1) hlength, .inl ⟨rfl, ?_⟩⟩
        rw [htext]
        exact Nat.lt_add_right _ (Nat.succ_lt_succ hfull)
      · obtain ⟨back, hrest, hlength, -⟩ := utilsUintToTextInto_fits hle hfits
        rw [hrest] at hprint
        change _ = Except.ok (if _ then _ else _, _) at hprint
        rw [if_pos hpos.ne'] at hprint
        exact printsInt_of_text hprint (by rw [htext]; rfl) (congrArg (· + 1) hlength)
          (by rw [htext]; rfl)

theorem printsInt_iff (data : Int64) (string : List Byte) :
    PrintsInt data string ↔
      data = Int64.minValue ∨ string.length ≤ 2 ^ 31 + if data < 0 then 1 else 0 := by
  by_cases hmin : data = Int64.minValue
  · subst hmin
    exact iff_of_true (printsInt_min string) (.inl rfl)
  · rw [or_iff_right hmin]
    by_cases hneg : data < 0
    · rw [if_pos hneg]
      exact printsInt_neg hneg hmin string
    · rw [if_neg hneg]
      exact printsInt_nonneg hneg string

/-! ### The text that is left -/

/-- **In a buffer of up to 2 ^ 31 bytes, what `utilsUintToText` returns is left at the start.** -/
theorem utilsUintToTextInto_refines (data : UInt64) (h : string.length ≤ 2 ^ 31) :
    ∃ string', utilsUintToTextInto data string =
        .ok (((utilsUintToText data.toNat string.length).getD []).length, string') ∧
      (utilsUintToText data.toNat string.length).getD [] <+: string' := by
  rw [utilsUintToText_eq]
  rcases Nat.lt_or_ge string.length (decimal data.toNat).length with hfull | hfits
  · obtain ⟨string', hresult, -⟩ := utilsUintToTextInto_full h hfull
    rw [if_neg (Nat.not_le.mpr hfull)]
    exact ⟨string', hresult, List.nil_prefix⟩
  · obtain ⟨back, hresult, -, -⟩ := utilsUintToTextInto_fits h hfits
    rw [if_pos hfits]
    exact ⟨_, hresult, List.prefix_append _ _⟩

theorem utilsUintToTextInto_one :
    ∃ string', utilsUintToTextInto 12 [0] = .ok (0, string') ∧ [] <+: string' :=
  utilsUintToTextInto_refines 12 (by decide)

/-- When an integer of 64 bits is written, its text is. -/
theorem utilsIntToText_eq_ite {data : ℤ} (length : ℕ) :
    utilsIntToText data length =
      if (intText data).length + (if data = -2 ^ 63 then 1 else 0) ≤ length then
        some (intText data) else none := by
  have hmin : intText (-2 ^ 63) = int64MinStr := by
    simp [intText, decimal, int64MinStr, digitByte]
  unfold utilsIntToText
  by_cases hneg : data < 0
  · rw [if_pos hneg]
    by_cases hempty : length = 0
    · subst hempty
      rw [if_pos rfl, intText, if_pos hneg, if_neg (by simp)]
    · rw [if_neg hempty]
      by_cases hmost : data = -2 ^ 63
      · subst hmost
        rw [if_pos rfl, if_pos rfl, hmin]
        rcases Nat.lt_or_ge int64MinStr.length length with hlt | hge
        · rw [if_neg (Nat.not_le.mpr hlt), if_pos (Nat.succ_le_of_lt hlt)]
        · rw [if_pos hge, if_neg (Nat.not_le.mpr (Nat.lt_succ_of_le hge))]
      · rw [if_neg hmost, if_neg hmost, utilsUintToText_eq, intText, if_pos hneg, List.length_cons]
        rcases Nat.lt_or_ge (length - 1) (decimal data.natAbs).length with hlt | hge
        · rw [if_neg (Nat.not_le.mpr hlt), if_neg (by omega)]
          rfl
        · rw [if_pos hge, if_pos (by omega)]
          rfl
  · rw [if_neg hneg, utilsUintToText_eq, if_neg (show data ≠ -2 ^ 63 by omega), intText,
      if_neg hneg, Nat.add_zero]

/-- **In a buffer of up to 2 ^ 31 bytes, what `utilsIntToText` returns is left at the start.** -/
theorem utilsIntToTextInto_refines (data : Int64) (h : string.length ≤ 2 ^ 31) :
    ∃ string', utilsIntToTextInto data string =
        .ok (((utilsIntToText data.toInt string.length).getD []).length, string') ∧
      (utilsIntToText data.toInt string.length).getD [] <+: string' := by
  rw [utilsIntToText_eq_ite]
  by_cases hmin : data = Int64.minValue
  · subst hmin
    have htext : intText Int64.minValue.toInt = int64MinStr := by
      simp [intText, decimal, int64MinStr, digitByte]
    have hmost : Int64.minValue.toInt = -2 ^ 63 := rfl
    rw [if_pos hmost, htext]
    cases string with
    | nil => exact ⟨[], rfl, List.nil_prefix⟩
    | cons c string =>
      rw [utilsIntToTextInto_cons (by decide), if_pos rfl, List.length_cons]
      by_cases hfull : int64MinStr.length ≥ string.length + 1
      · rw [if_pos hfull, if_neg (show ¬ int64MinStr.length + 1 ≤ string.length + 1 by omega)]
        exact ⟨_, rfl, List.nil_prefix⟩
      · rw [if_neg hfull, if_pos (show int64MinStr.length + 1 ≤ string.length + 1 by omega)]
        exact ⟨_, rfl, List.prefix_append _ _⟩
  · have hmost : data.toInt ≠ -2 ^ 63 := fun heq => hmin (Int64.toInt_inj.mp heq)
    obtain ⟨result, string', hresult, hlength, hcase⟩ :=
      (printsInt_iff data string).mpr (.inr (Nat.le_add_right_of_le h))
    rw [if_neg hmin, Nat.add_zero] at hcase
    rw [if_neg hmost, Nat.add_zero]
    rcases hcase with ⟨rfl, hfull⟩ | ⟨rfl, htake, -⟩
    · rw [if_neg (Nat.not_le.mpr hfull)]
      exact ⟨string', hresult, List.nil_prefix⟩
    · have hfits : (intText data.toInt).length ≤ string.length := by
        rw [← hlength, ← htake]
        exact List.length_take_le' _ _
      rw [if_pos hfits]
      exact ⟨string', hresult, List.prefix_iff_eq_take.mpr htake.symm⟩

theorem utilsIntToTextInto_four :
    ∃ string', utilsIntToTextInto (-12) [0, 0, 0, 0] = .ok (3, string') ∧
      [0x2D, 0x31, 0x32] <+: string' :=
  utilsIntToTextInto_refines (-12) (by decide)

/-! ### All buffers -/

/-- **Numbers are printed exactly and within the buffer, up to 2 ^ 31 bytes.**  Printing a number of
64 bits is exact and bounded if and only if the buffer has at most 2 ^ 31 bytes; for an integer one
more behind the sign, and any number of them for `INT64_MIN`. -/
theorem numberToText_exact_iff (value : Int64) (data : UInt64) (string : List Byte) :
    (PrintsUInt data string ↔ string.length ≤ 2 ^ 31) ∧
    (PrintsInt value string ↔
      value = Int64.minValue ∨ string.length ≤ 2 ^ 31 + if value < 0 then 1 else 0) :=
  ⟨printsUInt_iff data string, printsInt_iff value string⟩

/-- A buffer of 2 ^ 31 + 1 bytes is written 2 ^ 31 bytes in front of its start. -/
theorem utilsUintToText_underruns : ¬ PrintsUInt 7 (List.replicate (2 ^ 31 + 1) 0) := by
  rintro ⟨result, string', hresult, -⟩
  have hloop (string : List Byte) : storeDigits string (-2 ^ 31) 7 = .error .outOfBoundsWrite := by
    rw [storeDigits, storeByte, if_neg fun h => absurd h.1 (by decide)]
  have hindex : (Int32.ofNat (2 ^ 31 + 1 - 1)).toInt = -2 ^ 31 := by decide
  rw [utilsUintToTextInto, List.length_replicate, if_neg (by decide), hindex, hloop] at hresult
  cases hresult

end Lwm2m.Core

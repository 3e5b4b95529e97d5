/-
# Numbers read from text

`utils_textToInt` and `utils_textToUInt` of `core/utils.c`.

The digits are added up in 64 bits, and the sum is compared with a tenth of the largest one before
each multiplication, not before the addition behind it.  A digit can so lead to a number from 2 ^ 64
to 2 ^ 64 + 3, of which only what exceeds 2 ^ 64 is left (`ReadAs`).
-/

import Lwm2m.Core.ReadAttributes

namespace Lwm2m.Core

open Library

/-- `utils_textToUInt`, on the bytes from the buffer on.  A negative length leaves the loop out. -/
def utilsTextToUInt (buffer : List Byte) (length : ℤ) : Option UInt64 :=
  if length = 0 then none else textDigits 0 (buffer.take length.toNat)

/-! ### What the digits are taken for -/

/-- Digits behind a number are taken for a number: for their own, if it has 64 bits, or else a
beginning of them leads to a number from 2 ^ 64 to 2 ^ 64 + 3, and what exceeds 2 ^ 64 with the
other digits behind it is taken for that number. -/
inductive ReadAs : ℕ → List Byte → ℕ → Prop
  | fits {n m : ℕ} {digits : List Byte} (h : digitsValue n digits = m) (hm : m < 2 ^ 64) :
    ReadAs n digits m
  | wraps {n m excess : ℕ} (front : List Byte) {rest : List Byte}
    (h : digitsValue n front = 2 ^ 64 + excess) (hexcess : excess < 4)
    (hrest : ReadAs excess rest m) : ReadAs n (front ++ rest) m

/-- The digits write a number of more than 64 bits, and are taken for one that is at most the
limit. -/
def Overlooked (digits : List Byte) (limit : ℕ) : Prop :=
  digits.all isDigit ∧ 2 ^ 64 ≤ digitsValue 0 digits ∧ ∃ m, ReadAs 0 digits m ∧ m ≤ limit

theorem digitsValue_cons (n : ℕ) (d : Byte) (digits : List Byte) :
    digitsValue n (d :: digits) = digitsValue (10 * n + (d.toNat - 48)) digits :=
  List.foldl_cons ..

variable {n m : ℕ} {digits buffer : List Byte} {b : Byte} {length : ℤ}

variable {d : Byte} {result : UInt64} {limit : ℕ} {negative : Bool}

/-- A digit in front of digits that are taken for a number. -/
theorem ReadAs.cons (h : ReadAs (10 * n + (d.toNat - 48)) digits m) :
    ReadAs n (d :: digits) m := by
  cases h with
  | fits h hm => exact .fits h hm
  | @wraps _ _ _ front rest h hexcess hrest => exact .wraps (d :: front) h hexcess hrest

/-- The digits behind the first one are taken for the number. -/
theorem ReadAs.tail (hn : n < 2 ^ 64) (h : ReadAs n (d :: digits) m) :
    10 * n + (d.toNat - 48) < 2 ^ 64 ∧ ReadAs (10 * n + (d.toNat - 48)) digits m ∨
      ∃ excess < 4, 10 * n + (d.toNat - 48) = 2 ^ 64 + excess ∧ ReadAs excess digits m := by
  generalize hall : d :: digits = all at h
  cases h with
  | fits h hm =>
    subst hall
    rw [digitsValue_cons] at h
    exact .inl ⟨((le_digitsValue _ digits).trans_eq h).trans_lt hm, .fits h hm⟩
  | @wraps _ _ excess front rest h hexcess hrest =>
    cases front with
    | nil =>
      change n = _ at h
      omega
    | cons c front =>
      obtain ⟨rfl, rfl⟩ := List.cons.inj hall
      rw [digitsValue_cons] at h
      rcases Nat.lt_or_ge (10 * n + (d.toNat - 48)) (2 ^ 64) with hlt | hge
      · exact .inl ⟨hlt, .wraps front h hexcess hrest⟩
      · -- one more digit would lead beyond 2 ^ 64 + 3
        cases front with
        | nil => exact .inr ⟨excess, hexcess, h, hrest⟩
        | cons c front =>
          rw [digitsValue_cons] at h
          have := le_digitsValue (10 * (10 * n + (d.toNat - 48)) + (c.toNat - 48)) front
          omega

/-! ### The loop -/

theorem isDigit_iff_and : isDigit b = true ↔ 0x30 ≤ b ∧ b ≤ 0x39 := by
  rw [isDigit, Bool.and_eq_true, decide_eq_true_iff, decide_eq_true_iff]

/-- One step of the sum. -/
theorem toNat_nextDigit (result : UInt64) (h : isDigit b) :
    (result * 10 + (b - 0x30).toUInt64).toNat = (10 * result.toNat + (b.toNat - 48)) % 2 ^ 64 := by
  have hsub : (b - 0x30).toUInt64.toNat = b.toNat - 48 := by
    rw [UInt8.toNat_toUInt64, UInt8.toNat_sub_of_le _ _ (isDigit_iff_and.mp h).1]
    rfl
  have hten : (10 : UInt64).toNat = 10 := rfl
  rw [UInt64.toNat_add, UInt64.toNat_mul, hsub, hten]
  omega

theorem digit_le (h : isDigit b) : b.toNat - 48 ≤ 9 := by
  have := UInt8.le_iff_toNat_le.mp (isDigit_iff_and.mp h).2
  have hnine : (0x39 : Byte).toNat = 57 := rfl
  omega

theorem largest_lt_iff :
    result > 0xFFFFFFFFFFFFFFFF / 10 ↔ 1844674407370955161 < result.toNat := by
  rw [gt_iff_lt, UInt64.lt_iff_toNat_lt]
  rfl

/-- **The loop takes digits for the number that the relation names.** -/
theorem textDigits_eq_some_iff {result' : UInt64} :
    textDigits result digits = some result' ↔
      digits.all isDigit ∧ ReadAs result.toNat digits result'.toNat := by
  induction digits generalizing result with
  | nil =>
    rw [textDigits, Option.some.injEq]
    constructor
    · rintro rfl
      exact ⟨rfl, .fits rfl result.toNat_lt⟩
    · rintro ⟨-, h⟩
      generalize hnil : ([] : List Byte) = digits at h
      cases h with
      | fits h _ =>
        subst hnil
        exact UInt64.toNat_inj.mp h
      | wraps front h _ _ =>
        rw [(List.append_eq_nil_iff.mp hnil.symm).1] at h
        change result.toNat = _ at h
        have := result.toNat_lt
        omega
  | cons b digits ih =>
    rw [textDigits, List.all_cons, Bool.and_eq_true]
    by_cases hdigit : isDigit b = true
    · have hnext := toNat_nextDigit result hdigit
      have hnine := digit_le hdigit
      have hlt := result.toNat_lt
      rw [if_pos (isDigit_iff_and.mp hdigit)]
      by_cases hlarge : result > 0xFFFFFFFFFFFFFFFF / 10
      · rw [if_pos hlarge]
        have hlarge := largest_lt_iff.mp hlarge
        refine iff_of_false (Option.some_ne_none _).symm ?_
        rintro ⟨-, h⟩
        rcases h.tail hlt with ⟨h, -⟩ | ⟨excess, hexcess, h, -⟩ <;> omega
      · rw [if_neg hlarge, ih, hnext]
        rw [largest_lt_iff] at hlarge
        refine and_congr ⟨fun h => ⟨hdigit, h⟩, And.right⟩ ?_
        rcases Nat.lt_or_ge (10 * result.toNat + (b.toNat - 48)) (2 ^ 64) with hfit | hwrap
        · rw [Nat.mod_eq_of_lt hfit]
          refine ⟨ReadAs.cons, fun h => ?_⟩
          rcases h.tail hlt with ⟨-, h⟩ | ⟨excess, -, h, -⟩
          · exact h
          · omega
        · obtain ⟨excess, hexcess⟩ := Nat.exists_eq_add_of_le hwrap
          rw [hexcess, Nat.add_mod_left, Nat.mod_eq_of_lt (by omega)]
          constructor
          · exact .wraps [b] hexcess (by omega)
          · intro h
            rcases h.tail hlt with ⟨h, -⟩ | ⟨excess', -, h, hread⟩
            · omega
            · rwa [show excess = excess' by omega]
    · rw [if_neg fun h => hdigit (isDigit_iff_and.mpr h)]
      exact iff_of_false (Option.some_ne_none _).symm fun h => hdigit h.1.1

theorem textDigits_decimal (h : n < 2 ^ 64) :
    textDigits 0 (decimal n) = some (UInt64.ofNat n) := by
  refine textDigits_eq_some_iff.mpr ⟨List.all_eq_true.mpr fun b hb => isDigit_of_mem_decimal hb, ?_⟩
  rw [UInt64.toNat_ofNat_of_lt' (show n < UInt64.size from h)]
  exact .fits (digitsValue_decimal n) h

/-! ### Exact reading -/

theorem ReadAs.lt (h : ReadAs n digits m) : m < 2 ^ 64 := by
  induction h with
  | fits _ hm => exact hm
  | wraps _ _ _ _ ih => exact ih

/-- Digits that write a number of 64 bits are taken for it only. -/
theorem readAs_iff_of_lt (h : digitsValue n digits < 2 ^ 64) :
    ReadAs n digits m ↔ digitsValue n digits = m := by
  refine ⟨fun hread => ?_, fun hm => .fits hm (hm ▸ h)⟩
  cases hread with
  | fits hm _ => exact hm
  | @wraps _ _ excess front rest hfront _ _ =>
    rw [digitsValue_append] at h
    have := le_digitsValue (digitsValue n front) rest
    omega

/-- Digits that are not overlooked are taken for their own number within the limit. -/
theorem readAs_iff (hall : digits.all isDigit) (h : ¬ Overlooked digits limit) (hm : m < 2 ^ 64)
    (hle : m ≤ limit) :
    ReadAs 0 digits m ↔ digitsValue 0 digits = m := by
  rcases Nat.lt_or_ge (digitsValue 0 digits) (2 ^ 64) with hlt | hge
  · exact readAs_iff_of_lt hlt
  · exact iff_of_false (fun hread => h ⟨hall, hge, m, hread, hle⟩) (by omega)

theorem naturalWritten_eq_some_iff {text : List Byte} :
    naturalWritten text = some n ↔ (text ≠ [] ∧ text.all isDigit) ∧ digitsValue 0 text = n := by
  unfold naturalWritten
  split_ifs with h
  · rw [Option.some.injEq, and_iff_right h]
  · exact iff_of_false not_false fun h' => h h'.1

/-- **Digits within a limit are taken for what they write unless they are overlooked.** -/
theorem textDigits_exact_iff (hne : digits ≠ []) (hlimit : limit < 2 ^ 64) :
    (∀ result : UInt64, result.toNat ≤ limit →
      (textDigits 0 digits = some result ↔ naturalWritten digits = some result.toNat)) ↔
      ¬ Overlooked digits limit := by
  constructor
  · rintro hexact ⟨hall, hge, m, hread, hle⟩
    have hm : (UInt64.ofNat m).toNat = m := UInt64.toNat_ofNat_of_lt' (by
      change m < 2 ^ 64
      omega)
    rw [← hm] at hread hle
    have hwritten := (hexact _ hle).mp (textDigits_eq_some_iff.mpr ⟨hall, hread⟩)
    rw [naturalWritten_eq_some_iff, hm] at hwritten
    omega
  · intro hexact result hle
    rw [textDigits_eq_some_iff, naturalWritten_eq_some_iff, and_iff_right hne]
    exact and_congr_right fun hall => readAs_iff hall hexact result.toNat_lt hle

/-- What `utils_textToUInt` returns for the first bytes of a buffer is what they write: 1 with a
number of 64 bits that they write, else 0. -/
def ReadsUIntExactly (buffer : List Byte) (length : ℤ) : Prop :=
  ∀ value : UInt64, utilsTextToUInt buffer length = some value ↔
    naturalWritten (buffer.take length.toNat) = some value.toNat

/-- What `utils_textToInt` returns for the first bytes of a buffer is what they write: 1 with an
integer of 64 bits that they write, else 0. -/
def ReadsIntExactly (buffer : List Byte) (length : ℤ) : Prop :=
  ∀ value : ℤ, utilsTextToInt buffer length = some value ↔
    integerWritten (buffer.take length.toNat) = some value ∧ -2 ^ 63 ≤ value ∧ value < 2 ^ 63

theorem take_ne_nil (hpos : 0 < length) (h : length ≤ buffer.length) :
    buffer.take length.toNat ≠ [] := by
  rw [Ne, List.take_eq_nil_iff, not_or]
  refine ⟨by omega, fun hnil => ?_⟩
  rw [hnil, List.length_nil] at h
  omega

theorem readsUIntExactly_iff (h : length ≤ buffer.length) :
    ReadsUIntExactly buffer length ↔
      0 ≤ length ∧ ¬ Overlooked (buffer.take length.toNat) (2 ^ 64 - 1) := by
  unfold ReadsUIntExactly utilsTextToUInt
  rcases lt_trichotomy length 0 with hneg | rfl | hpos
  · -- the loop is left out and 0 is stored
    rw [if_neg hneg.ne, Int.toNat_of_nonpos hneg.le, List.take_zero]
    exact iff_of_false (fun hexact => Option.some_ne_none _ ((hexact 0).mp rfl).symm)
      fun h => absurd h.1 (by omega)
  · refine iff_of_true (fun value => ?_) ⟨le_rfl, fun h => absurd h.2.1 (by simp [digitsValue])⟩
    exact iff_of_false (Option.some_ne_none _).symm (Option.some_ne_none _).symm
  · rw [if_neg hpos.ne', and_iff_right hpos.le,
      ← textDigits_exact_iff (take_ne_nil hpos h) (by decide)]
    exact forall_congr' fun value =>
      ⟨fun hexact _ => hexact, fun hexact => hexact (Nat.le_sub_one_of_lt value.toNat_lt)⟩

/-- The sign of a text and the bytes behind it. -/
def splitSign (text : List Byte) : Bool × List Byte :=
  if text.head? = some 0x2D then (true, text.tail) else (false, text)

/-- `INT64_MAX`, and one more behind a sign. -/
def intLimit (negative : Bool) : ℕ := 2 ^ 63 - 1 + if negative then 1 else 0

/-- A magnitude with its sign. -/
def signedInt (negative : Bool) (n : ℕ) : ℤ := if negative then -n else n

theorem utilsTextToInt_eq_some_iff (buffer : List Byte) (value : ℤ) (hpos : 0 < length) :
    utilsTextToInt buffer length = some value ↔
      ∃ result : UInt64, textDigits 0 (splitSign (buffer.take length.toNat)).2 = some result ∧
        result.toNat ≤ intLimit (splitSign (buffer.take length.toNat)).1 ∧
        signedInt (splitSign (buffer.take length.toNat)).1 result.toNat = value := by
  have hhead : (buffer.take length.toNat).head? = buffer.head? := by
    rw [List.head?_take, if_neg (by omega)]
  unfold utilsTextToInt splitSign intLimit signedInt
  rw [if_neg hpos.ne', hhead]
  by_cases hsign : buffer.head? = some 0x2D
  · simp only [hsign, if_true, List.drop_one]
    cases textDigits 0 (buffer.take length.toNat).tail with
    | none => simp
    | some result => simp
  · simp only [hsign, if_false, List.drop_zero]
    cases textDigits 0 (buffer.take length.toNat) with
    | none => simp
    | some result => simp

theorem integerWritten_eq_some_iff (text : List Byte) (value : ℤ) :
    integerWritten text = some value ↔
      ∃ n, naturalWritten (splitSign text).2 = some n ∧
        signedInt (splitSign text).1 n = value := by
  unfold integerWritten splitSign signedInt naturalWritten
  by_cases hsign : text.head? = some 0x2D
  · simp only [hsign, if_true]
    split_ifs <;> simp
  · simp only [hsign, if_false, Bool.false_eq_true]
    split_ifs <;> simp

theorem signedInt_inj :
    signedInt negative n = signedInt negative m ↔ n = m := by
  unfold signedInt
  split_ifs <;> omega

theorem signedInt_mem_range :
    (-2 ^ 63 ≤ signedInt negative n ∧ signedInt negative n < 2 ^ 63) ↔ n ≤ intLimit negative := by
  unfold signedInt intLimit
  split_ifs <;> omega

theorem readsIntExactly_iff (h : length ≤ buffer.length) :
    ReadsIntExactly buffer length ↔
      0 ≤ length ∧ buffer.take length.toNat ≠ [0x2D] ∧
        ¬ Overlooked (splitSign (buffer.take length.toNat)).2
          (intLimit (splitSign (buffer.take length.toNat)).1) := by
  unfold ReadsIntExactly
  rcases lt_trichotomy length 0 with hneg | rfl | hpos
  · -- the loop is left out and 0 is stored, below a sign as well
    refine iff_of_false (fun hexact => ?_) fun h => absurd h.1 (by omega)
    have hzero : utilsTextToInt buffer length = some 0 := by
      unfold utilsTextToInt
      rw [if_neg hneg.ne, Int.toNat_of_nonpos hneg.le, List.take_zero]
      by_cases hsign : buffer.head? = some 0x2D <;> simp [hsign, textDigits]
    have hwritten := ((hexact 0).mp hzero).1
    rw [Int.toNat_of_nonpos hneg.le, List.take_zero] at hwritten
    cases hwritten
  · refine iff_of_true (fun value => ?_) ⟨le_rfl, by simp, fun h => absurd h.2.1 (by
      simp [digitsValue, splitSign])⟩
    exact iff_of_false (Option.some_ne_none _).symm fun h => Option.some_ne_none _ h.1.symm
  · have hread (value : ℤ) := utilsTextToInt_eq_some_iff buffer value hpos
    have hwritten := integerWritten_eq_some_iff (buffer.take length.toNat)
    have hne := take_ne_nil hpos h
    rw [and_iff_right hpos.le]
    generalize buffer.take length.toNat = text at hread hwritten hne ⊢
    simp only [hread, hwritten]
    by_cases hdigits : (splitSign text).2 = []
    · -- only the sign stands there, and it is read as 0
      have hsign : text = [0x2D] := by
        unfold splitSign at hdigits
        split_ifs at hdigits with hhead
        · rw [← List.cons_head?_tail hhead, show text.tail = [] from hdigits]
        · exact absurd hdigits hne
      refine iff_of_false (fun hexact => ?_) fun h => h.1 hsign
      obtain ⟨⟨n, hn, -⟩, -⟩ := (hexact 0).mp ⟨0, by rw [hdigits]; rfl, Nat.zero_le _, by
        unfold signedInt
        split_ifs <;> rfl⟩
      rw [hdigits] at hn
      cases hn
    · have hsign : text ≠ [0x2D] := by
        rintro rfl
        exact hdigits rfl
      have hlimit : intLimit (splitSign text).1 < 2 ^ 64 := by
        unfold intLimit
        split_ifs <;> decide
      rw [and_iff_right hsign, ← textDigits_exact_iff hdigits hlimit]
      generalize splitSign text = signed at hlimit
      constructor
      · intro hexact result hle
        have hrange := signedInt_mem_range.mpr hle
        constructor
        · intro hresult
          obtain ⟨⟨n, hn, heq⟩, -⟩ := (hexact _).mp ⟨result, hresult, hle, rfl⟩
          rwa [signedInt_inj.mp heq] at hn
        · intro hresult
          obtain ⟨result', hresult', -, heq⟩ := (hexact _).mpr ⟨⟨_, hresult, rfl⟩, hrange⟩
          rwa [UInt64.toNat_inj.mp (signedInt_inj.mp heq)] at hresult'
      · intro hexact value
        constructor
        · rintro ⟨result, hresult, hle, rfl⟩
          exact ⟨⟨_, (hexact result hle).mp hresult, rfl⟩, signedInt_mem_range.mpr hle⟩
        · rintro ⟨⟨n, hn, rfl⟩, hrange⟩
          have hle := signedInt_mem_range.mp hrange
          have hresult : (UInt64.ofNat n).toNat = n :=
            UInt64.toNat_ofNat_of_lt' (hle.trans_lt hlimit)
          rw [← hresult] at hle hn
          exact ⟨_, (hexact _ hle).mpr hn, hle, by rw [hresult]⟩

/-- **Numbers are read exactly unless digits are overlooked or missing.**  For the first bytes of a
buffer, `utils_textToUInt` returns 1 with the number of 64 bits that they write and else 0, if and
only if their count is not negative and no digits are overlooked; and `utils_textToInt` does so for
the integers of 64 bits if and only if, besides, the bytes are not the sign alone. -/
theorem textToNumber_exact_iff (buffer : List Byte) (length : ℤ) (h : length ≤ buffer.length) :
    (ReadsUIntExactly buffer length ↔
      0 ≤ length ∧ ¬ Overlooked (buffer.take length.toNat) (2 ^ 64 - 1)) ∧
    (ReadsIntExactly buffer length ↔
      0 ≤ length ∧ buffer.take length.toNat ≠ [0x2D] ∧
        ¬ Overlooked (splitSign (buffer.take length.toNat)).2
          (intLimit (splitSign (buffer.take length.toNat)).1)) :=
  ⟨readsUIntExactly_iff h, readsIntExactly_iff h⟩

/-- "12" is read. -/
theorem textToNumber_exact_twelve :
    (2 : ℤ) ≤ [(0x31 : Byte), 0x32].length ∧
    (ReadsUIntExactly [0x31, 0x32] 2 ↔ (0 : ℤ) ≤ 2 ∧ ¬ Overlooked [0x31, 0x32] (2 ^ 64 - 1)) ∧
    (ReadsIntExactly [0x31, 0x32] 2 ↔
      (0 : ℤ) ≤ 2 ∧ [(0x31 : Byte), 0x32] ≠ [0x2D] ∧ ¬ Overlooked [0x31, 0x32] (2 ^ 63 - 1)) :=
  ⟨by decide, textToNumber_exact_iff [0x31, 0x32] 2 (by decide)⟩

/-- 18446744073709551616 is 2 ^ 64, and is read as 0; a sign alone is read as 0 too. -/
theorem utilsTextToUInt_wraps :
    ¬ ReadsUIntExactly [0x31, 0x38, 0x34, 0x34, 0x36, 0x37, 0x34, 0x34, 0x30, 0x37, 0x33, 0x37,
      0x30, 0x39, 0x35, 0x35, 0x31, 0x36, 0x31, 0x36] 20 ∧ ¬ ReadsIntExactly [0x2D] 1 := by
  constructor
  · intro hexact
    exact absurd ((hexact 0).mp (by decide)) (by decide)
  · intro hexact
    exact absurd ((hexact 0).mp (by decide)).1 (by decide)

end Lwm2m.Core

/-
# URIs as text

`lwm2m_stringToUri` of `core/uri.c` reads a URI of up to four levels from a text, and `uri_toString`
writes one.  What is written is read back.  A number is read into an `int`, so one that is too large
is taken for its value modulo 2 ^ 32, and the length of the text is returned as an `int` as well; on
texts without such a number, whose length is not lost, exactly the URIs are read
(`uriText_exact_iff`).
-/

import Lwm2m.Core.Text
import Lwm2m.Core.Uri

namespace Lwm2m.Core

open Library

/-! ### Reading -/

/-- A number read by `prv_parseNumber` as an identifier below `LWM2M_MAX_ID`, and the bytes behind
it. -/
def parseId (bytes : List Byte) : Except Fault (Option (UInt16 × List Byte)) := do
  match ← prvParseNumber bytes with
  | some (readNum, rest) =>
    if readNum < 0 ∨ readNum ≥ 0xFFFF then return none
    else return some (readNum.toNatClampNeg.toUInt16, rest)
  | none => return none

/-- A '/' at the cursor is skipped. -/
def skipSlash : List Byte → List Byte
  | [] => []
  | c :: rest => if c = 0x2F then rest else c :: rest

/-- The nested reads of `lwm2m_stringToUri`, one for each level that it stores: whether the text is
accepted, and the levels stored so far. -/
def readLevels : List (UInt16 → Uri → Uri) → Uri → List Byte → Except Fault (Bool × Uri)
  | [], uriP, rest => return (rest = [], uriP)
  | store :: stores, uriP, rest =>
    if rest = [] then return (true, uriP)
    else do
      match ← parseId rest with
      | none => return (false, uriP)
      | some (id, rest) =>
        -- behind the last level, nothing is skipped
        readLevels stores (store id uriP) (if stores = [] then rest else skipSlash rest)

/-- The levels of a URI, in order. -/
def levelStores : List (UInt16 → Uri → Uri) :=
  [fun id uriP => { uriP with objectId := id }, fun id uriP => { uriP with instanceId := id },
    fun id uriP => { uriP with resourceId := id },
    fun id uriP => { uriP with resourceInstanceId := id }]

/-- `lwm2m_stringToUri`: the length it returns, and the URI it leaves. -/
def lwm2mStringToUri (buffer : List Byte) : Except Fault (Int32 × Uri) := do
  match buffer.dropWhile isSpace with
  | [] => return (0, {})
  | c :: rest =>
    if c ≠ 0x2F then return (0, {})
    let (accepted, uriP) ← readLevels levelStores {} rest
    return (if accepted then Int32.ofNat buffer.length else 0, uriP)

/-! ### What a text writes -/

/-- A decimal numeral. -/
def IsNumeral (digits : List Byte) : Prop := digits ≠ [] ∧ digits.all isDigit

instance (digits : List Byte) : Decidable (IsNumeral digits) := inferInstanceAs (Decidable (_ ∧ _))

/-- What stands behind a '/' of a URI, with so many levels allowed: nothing, a number, or a number
and a '/' with what stands behind it. -/
inductive Numerals : ℕ → List Byte → List (List Byte) → Prop
  | nothing {k : ℕ} : Numerals (k + 1) [] []
  | number {k : ℕ} {digits : List Byte} (h : IsNumeral digits) : Numerals (k + 1) digits [digits]
  | level {k : ℕ} {digits text : List Byte} {numerals : List (List Byte)} (h : IsNumeral digits)
      (below : Numerals (k + 1) text numerals) :
      Numerals (k + 2) (digits ++ 0x2F :: text) (digits :: numerals)

/-- The text is optional white space, a '/', and up to four numbers with a '/' between them; a final
'/' is allowed before the fourth. -/
def WritesNumerals (text : List Byte) (numerals : List (List Byte)) : Prop :=
  ∃ spaces below, text = spaces ++ 0x2F :: below ∧ spaces.all isSpace ∧ Numerals 4 below numerals

/-- The URI with these levels set. -/
def uriOf (ids : List ℕ) : Uri :=
  (ids.zip levelStores).foldl (fun uriP level => level.2 (UInt16.ofNat level.1) uriP) {}

/-- The numbers are identifiers. -/
def AllIds (ids : List ℕ) : Prop := ∀ n ∈ ids, n < 0xFFFF

/-- The text writes a URI with these levels. -/
def WritesUri (text : List Byte) (ids : List ℕ) : Prop :=
  ∃ numerals, WritesNumerals text numerals ∧ ids = numerals.map (digitsValue 0) ∧ AllIds ids

/-- **The text is read exactly**: a length is returned when it writes a URI and not otherwise, and
then each level has the value that is written. -/
def ReadExactly (text : List Byte) : Prop :=
  ∃ length uriP, lwm2mStringToUri text = .ok (length, uriP) ∧
    (length ≠ 0 ↔ ∃ ids, WritesUri text ids) ∧
    (length ≠ 0 → ∀ ids, WritesUri text ids → uriP = uriOf ids)

/-- The text has the form of a URI and its numbers are identifiers modulo 2 ^ 32, but one of them is
none, or else the length of the text is 0 modulo 2 ^ 32. -/
def Wraps (text : List Byte) : Prop :=
  ∃ numerals, WritesNumerals text numerals ∧
    AllIds (numerals.map fun digits => digitsValue 0 digits % 2 ^ 32) ∧
    (text.length % 2 ^ 32 = 0 ↔ AllIds (numerals.map (digitsValue 0)))

/-! ### Numbers -/

theorem isDigit_iff {c : Byte} : isDigit c = true ↔ 0x30 ≤ c ∧ c ≤ 0x39 := by
  simp [isDigit]

/-- The digits up to the next '/' are read, and the number wraps. -/
theorem parseDigits_eq (n : ℕ) (bytes : List Byte) :
    parseDigits (Int32.ofNat n) bytes =
      if (bytes.takeWhile (· ≠ 0x2F)).all isDigit then
        some (Int32.ofNat (digitsValue n (bytes.takeWhile (· ≠ 0x2F))), bytes.dropWhile (· ≠ 0x2F))
      else none := by
  induction bytes generalizing n with
  | nil => rfl
  | cons c rest ih =>
    unfold parseDigits
    by_cases hslash : c = 0x2F
    · rw [if_pos hslash, hslash]
      rfl
    rw [if_neg hslash, List.takeWhile_cons_of_pos (by simpa using hslash),
      List.dropWhile_cons_of_pos (by simpa using hslash), List.all_cons]
    by_cases hdigit : isDigit c = true
    · have hnumber : Int32.ofNat n * 10 + Int32.ofNat (c.toNat - 0x30) =
          Int32.ofNat (10 * n + (c.toNat - 48)) := by
        rw [Int32.ofNat_add, Int32.ofNat_mul, Int32.mul_comm]
        rfl
      rw [if_pos (isDigit_iff.mp hdigit), hnumber, ih, hdigit, Bool.true_and]
      rfl
    · rw [if_neg (mt isDigit_iff.mpr hdigit), if_neg (by simp [hdigit])]

/-- A number that wraps is an identifier when it is one modulo 2 ^ 32. -/
theorem ofNat_isId_iff (n : ℕ) :
    ¬ (Int32.ofNat n < 0 ∨ Int32.ofNat n ≥ 0xFFFF) ↔ n % 2 ^ 32 < 0xFFFF := by
  rw [not_or, Int32.not_lt, ge_iff_le, Int32.not_le, Int32.le_iff_toInt_le, Int32.lt_iff_toInt_lt,
    Int32.toInt_ofNat']
  have hsize : Int32.size = 2 ^ 32 := rfl
  have hzero : (0 : Int32).toInt = 0 := rfl
  have hmax : (0xFFFF : Int32).toInt = 0xFFFF := rfl
  rw [hsize, hzero, hmax, Int.bmod_def]
  omega

variable {n k : ℕ} {digits text : List Byte} {numerals : List (List Byte)} {ids : List ℕ}

/-- The identifier of a number that wraps. -/
theorem toUInt16_ofNat (h : n % 2 ^ 32 < 0xFFFF) :
    (Int32.ofNat n).toNatClampNeg.toUInt16 = UInt16.ofNat n := by
  have hvalue : (Int32.ofNat n).toNatClampNeg = n % 2 ^ 32 := by
    have hsize : Int32.size = 2 ^ 32 := rfl
    rw [← Int32.toNat_toInt, Int32.toInt_ofNat', hsize, Int.bmod_def]
    omega
  rw [hvalue]
  refine UInt16.toNat_inj.mp ?_
  change (UInt16.ofNat (n % 2 ^ 32)).toNat = _
  rw [UInt16.toNat_ofNat', UInt16.toNat_ofNat']
  omega

variable {bytes : List Byte} {numerals' : List (List Byte)} {uri : Uri}

/-- The bytes up to the next '/' are a number when they are a numeral. -/
theorem prvParseNumber_eq (h : bytes ≠ []) :
    prvParseNumber bytes = .ok (
      if IsNumeral (bytes.takeWhile (· ≠ 0x2F)) then
        some (Int32.ofNat (digitsValue 0 (bytes.takeWhile (· ≠ 0x2F))), bytes.dropWhile (· ≠ 0x2F))
      else none) := by
  obtain ⟨c, rest, rfl⟩ := List.exists_cons_of_ne_nil h
  unfold prvParseNumber
  dsimp only
  by_cases hslash : c = 0x2F
  · have hnil : (c :: rest).takeWhile (· ≠ 0x2F) = [] :=
      List.takeWhile_cons_of_neg (by simpa using hslash)
    rw [if_pos hslash, hnil, if_neg fun hnumeral => hnumeral.1 rfl]
    rfl
  · have hne : (c :: rest).takeWhile (· ≠ 0x2F) ≠ [] := by
      rw [List.takeWhile_cons_of_pos (by simpa using hslash)]
      exact List.cons_ne_nil _ _
    rw [if_neg hslash, show (0 : Int32) = Int32.ofNat 0 from rfl, parseDigits_eq]
    exact congrArg Except.ok (if_congr (and_iff_right hne).symm rfl rfl)

/-- A number that is an identifier modulo 2 ^ 32 is read as one. -/
theorem parseId_eq (h : bytes ≠ []) :
    parseId bytes = .ok (
      if IsNumeral (bytes.takeWhile (· ≠ 0x2F)) ∧
          digitsValue 0 (bytes.takeWhile (· ≠ 0x2F)) % 2 ^ 32 < 0xFFFF then
        some (UInt16.ofNat (digitsValue 0 (bytes.takeWhile (· ≠ 0x2F))),
          bytes.dropWhile (· ≠ 0x2F))
      else none) := by
  unfold parseId
  rw [prvParseNumber_eq h]
  generalize bytes.takeWhile (· ≠ 0x2F) = digits
  generalize bytes.dropWhile (· ≠ 0x2F) = behind
  by_cases hnumeral : IsNumeral digits
  · by_cases hid : digitsValue 0 digits % 2 ^ 32 < 0xFFFF
    · rw [if_pos hnumeral, if_pos ⟨hnumeral, hid⟩, ← toUInt16_ofNat hid]
      exact if_neg ((ofNat_isId_iff _).mpr hid)
    · rw [if_pos hnumeral, if_neg fun h => hid h.2]
      exact if_pos (not_not.mp (mt (ofNat_isId_iff _).mp hid))
  · rw [if_neg hnumeral, if_neg fun h => hnumeral h.1]
    rfl

/-! ### Levels -/

/-- The URI with further levels set. -/
def storeAll (ids : List ℕ) (stores : List (UInt16 → Uri → Uri)) (uriP : Uri) : Uri :=
  (ids.zip stores).foldl (fun uriP level => level.2 (UInt16.ofNat level.1) uriP) uriP

/-- The numbers of the numerals, modulo 2 ^ 32. -/
def wrapped (numerals : List (List Byte)) : List ℕ :=
  numerals.map fun digits => digitsValue 0 digits % 2 ^ 32

theorem allIds_wrapped_cons :
    AllIds (wrapped (digits :: numerals)) ↔
      digitsValue 0 digits % 2 ^ 32 < 0xFFFF ∧ AllIds (wrapped numerals) :=
  List.forall_mem_cons

/-- A numeral has no '/'. -/
theorem IsNumeral.no_slash (h : IsNumeral digits) :
    ∀ c ∈ digits, decide (c ≠ 0x2F) = true := by
  intro c hc
  have hdigit := isDigit_iff.mp (List.all_eq_true.mp h.2 c hc)
  refine decide_eq_true fun hslash => ?_
  rw [hslash] at hdigit
  exact absurd hdigit.1 (by decide)

/-- A numeral in front of a '/'. -/
theorem parseId_level (text : List Byte) (h : IsNumeral digits)
    (hid : digitsValue 0 digits % 2 ^ 32 < 0xFFFF) :
    parseId (digits ++ 0x2F :: text) =
      .ok (some (UInt16.ofNat (digitsValue 0 digits), 0x2F :: text)) := by
  have htake : (digits ++ 0x2F :: text).takeWhile (· ≠ 0x2F) = digits := by
    rw [List.takeWhile_append_of_pos h.no_slash, List.takeWhile_cons_of_neg (by simp),
      List.append_nil]
  have hdrop : (digits ++ 0x2F :: text).dropWhile (· ≠ 0x2F) = 0x2F :: text := by
    rw [List.dropWhile_append_of_pos h.no_slash, List.dropWhile_cons_of_neg (by simp)]
  rw [parseId_eq (List.append_ne_nil_of_left_ne_nil h.1 _), htake, hdrop, if_pos ⟨h, hid⟩]

/-- A numeral at the end. -/
theorem parseId_number (h : IsNumeral digits) (hid : digitsValue 0 digits % 2 ^ 32 < 0xFFFF) :
    parseId digits = .ok (some (UInt16.ofNat (digitsValue 0 digits), [])) := by
  rw [parseId_eq h.1, List.takeWhile_eq_self_iff.mpr h.no_slash,
    List.dropWhile_eq_nil_iff.mpr h.no_slash, if_pos ⟨h, hid⟩]

theorem readLevels_nil (stores : List (UInt16 → Uri → Uri)) (uriP : Uri) :
    readLevels stores uriP [] = .ok (true, uriP) := by
  cases stores <;> rfl

/-- **What is written in range is read**: the levels are stored in order. -/
theorem readLevels_of_numerals (h : Numerals k text numerals) (hids : AllIds (wrapped numerals))
    {stores : List (UInt16 → Uri → Uri)} (hstores : stores.length = k) (uriP : Uri) :
    readLevels stores uriP text =
      .ok (true, storeAll (numerals.map (digitsValue 0)) stores uriP) := by
  induction h generalizing stores uriP with
  | nothing => exact readLevels_nil stores uriP
  | @number k digits hdigits =>
    obtain ⟨store, stores, rfl⟩ := List.exists_cons_of_length_eq_add_one hstores
    have hskip : (if stores = [] then ([] : List Byte) else skipSlash []) = [] := ite_self _
    unfold readLevels
    rw [if_neg hdigits.1, parseId_number hdigits (allIds_wrapped_cons.mp hids).1]
    change readLevels stores _ (if stores = [] then [] else skipSlash []) = _
    rw [hskip, readLevels_nil]
    rfl
  | @level k digits text numerals hdigits hbelow ih =>
    obtain ⟨store, stores, rfl⟩ := List.exists_cons_of_length_eq_add_one hstores
    obtain ⟨hid, hids⟩ := allIds_wrapped_cons.mp hids
    have hlength : stores.length = k + 1 := Nat.succ.inj hstores
    have hne : stores ≠ [] := List.ne_nil_of_length_eq_add_one hlength
    unfold readLevels
    rw [if_neg (List.append_ne_nil_of_left_ne_nil hdigits.1 _), parseId_level text hdigits hid]
    change readLevels stores _ (if stores = [] then _ else skipSlash (0x2F :: text)) = _
    rw [if_neg hne]
    exact ih hids hlength _

/-- **What is accepted is written in range**. -/
theorem exists_readLevels (store : UInt16 → Uri → Uri) (stores : List (UInt16 → Uri → Uri))
    (uriP : Uri) (text : List Byte) :
    ∃ accepted uriP', readLevels (store :: stores) uriP text = .ok (accepted, uriP') ∧
      (accepted = true → ∃ numerals, Numerals (stores.length + 1) text numerals ∧
        AllIds (wrapped numerals)) := by
  by_cases htext : text = []
  · rw [htext]
    exact ⟨true, uriP, readLevels_nil _ _, fun _ => ⟨[], .nothing, List.forall_mem_nil _⟩⟩
  rw [readLevels, if_neg htext, parseId_eq htext]
  have hsplit := text.takeWhile_append_dropWhile (p := (· ≠ 0x2F))
  have hslash {c : Byte} {below : List Byte} (hrest : text.dropWhile (· ≠ 0x2F) = c :: below) :
      c = 0x2F := by
    have hhead := List.head?_dropWhile_not (· ≠ 0x2F) text
    rw [hrest] at hhead
    simpa using hhead
  generalize text.takeWhile (· ≠ 0x2F) = digits at hsplit ⊢
  generalize text.dropWhile (· ≠ 0x2F) = rest at hsplit hslash ⊢
  by_cases hnumeral : IsNumeral digits ∧ digitsValue 0 digits % 2 ^ 32 < 0xFFFF
  · have hnumber (hrest : rest = []) : Numerals (stores.length + 1) text [digits] ∧
        AllIds (wrapped [digits]) := by
      rw [hrest, List.append_nil] at hsplit
      rw [← hsplit]
      exact ⟨.number hnumeral.1, allIds_wrapped_cons.mpr ⟨hnumeral.2, List.forall_mem_nil _⟩⟩
    rw [if_pos hnumeral]
    cases stores with
    | nil => exact ⟨_, _, rfl, fun h => ⟨[digits], hnumber (of_decide_eq_true h)⟩⟩
    | cons store' stores =>
      rw [ok_bind]
      dsimp only
      rw [if_neg (List.cons_ne_nil _ _)]
      cases rest with
      | nil => exact ⟨true, _, readLevels_nil _ _, fun _ => ⟨[digits], hnumber rfl⟩⟩
      | cons c below =>
        obtain rfl := hslash rfl
        obtain ⟨accepted, uriP', hread, haccepted⟩ := exists_readLevels store' stores
          (store (UInt16.ofNat (digitsValue 0 digits)) uriP) below
        refine ⟨accepted, uriP', hread, fun h => ?_⟩
        obtain ⟨numerals, hnumerals, hids⟩ := haccepted h
        refine ⟨digits :: numerals, ?_, allIds_wrapped_cons.mpr ⟨hnumeral.2, hids⟩⟩
        rw [← hsplit]
        exact .level hnumeral.1 hnumerals
  · rw [if_neg hnumeral]
    exact ⟨false, uriP, rfl, fun h => Bool.noConfusion h⟩

/-! ### Texts -/

/-- The numerals behind a '/' are what stands between its '/'. -/
theorem Numerals.unique (h : Numerals k text numerals) (h' : Numerals k text numerals') :
    numerals = numerals' := by
  have hlevel {digits below : List Byte} (hdigits : IsNumeral digits) :
      (digits ++ 0x2F :: below).takeWhile (· ≠ 0x2F) = digits := by
    rw [List.takeWhile_append_of_pos hdigits.no_slash, List.takeWhile_cons_of_neg (by simp),
      List.append_nil]
  have hslash {digits below : List Byte} (hdigits : IsNumeral (digits ++ 0x2F :: below)) : False :=
    absurd (hdigits.no_slash 0x2F (List.mem_append_right _ List.mem_cons_self)) (by simp)
  induction h generalizing numerals' with
  | nothing =>
    generalize htext : ([] : List Byte) = text at h'
    cases h' with
    | nothing => rfl
    | number hdigits => exact absurd htext.symm hdigits.1
    | level hdigits => exact absurd htext.symm (List.append_ne_nil_of_left_ne_nil hdigits.1 _)
  | number hdigits =>
    cases h' with
    | nothing => exact absurd rfl hdigits.1
    | number => rfl
    | level => exact (hslash hdigits).elim
  | @level k digits text numerals hdigits hbelow ih =>
    generalize htext : digits ++ 0x2F :: text = whole at h'
    cases h' with
    | nothing => exact absurd htext (List.append_ne_nil_of_left_ne_nil hdigits.1 _)
    | number hdigits' => exact (hslash (htext ▸ hdigits')).elim
    | @level _ digits' text' numerals' hdigits' hbelow' =>
      have hsame : digits = digits' := by rw [← hlevel hdigits, htext, hlevel hdigits']
      rw [hsame] at htext
      obtain rfl := (List.cons.inj (List.append_cancel_left htext)).2
      rw [hsame, ih hbelow']

theorem WritesNumerals.dropWhile_eq (h : WritesNumerals text numerals) :
    ∃ below, text.dropWhile isSpace = 0x2F :: below ∧ Numerals 4 below numerals := by
  obtain ⟨spaces, below, rfl, hspaces, hnumerals⟩ := h
  refine ⟨below, ?_, hnumerals⟩
  rw [List.dropWhile_append_of_pos (List.all_eq_true.mp hspaces),
    List.dropWhile_cons_of_neg (by decide)]

theorem WritesNumerals.unique (h : WritesNumerals text numerals)
    (h' : WritesNumerals text numerals') :
    numerals = numerals' := by
  obtain ⟨below, hbelow, hnumerals⟩ := h.dropWhile_eq
  obtain ⟨below', hbelow', hnumerals'⟩ := h'.dropWhile_eq
  obtain rfl := (List.cons.inj (hbelow.symm.trans hbelow')).2
  exact hnumerals.unique hnumerals'

/-- **A text whose numbers are in range** is read. -/
theorem lwm2mStringToUri_of_numerals (h : WritesNumerals text numerals)
    (hids : AllIds (wrapped numerals)) :
    lwm2mStringToUri text =
      .ok (Int32.ofNat text.length, uriOf (numerals.map (digitsValue 0))) := by
  obtain ⟨below, hbelow, hnumerals⟩ := h.dropWhile_eq
  unfold lwm2mStringToUri
  rw [hbelow]
  dsimp only
  rw [if_neg (not_not.mpr rfl), readLevels_of_numerals hnumerals hids rfl]
  rfl

/-- **A text that is read** has its numbers in range. -/
theorem exists_lwm2mStringToUri (text : List Byte) :
    ∃ length uriP, lwm2mStringToUri text = .ok (length, uriP) ∧
      (length ≠ 0 → ∃ numerals, WritesNumerals text numerals ∧ AllIds (wrapped numerals)) := by
  have hsplit := text.takeWhile_append_dropWhile (p := isSpace)
  unfold lwm2mStringToUri
  cases hrest : text.dropWhile isSpace with
  | nil => exact ⟨0, {}, rfl, fun h => absurd rfl h⟩
  | cons c rest =>
    dsimp only
    by_cases hslash : c = 0x2F
    · obtain ⟨accepted, uriP, hread, haccepted⟩ := exists_readLevels
        (fun id uriP => { uriP with objectId := id }) levelStores.tail {} rest
      change readLevels levelStores {} rest = _ at hread
      rw [if_neg (not_not.mpr hslash), hread]
      refine ⟨_, uriP, rfl, fun hlength => ?_⟩
      cases accepted with
      | false => exact absurd rfl hlength
      | true =>
        obtain ⟨numerals, hnumerals, hids⟩ := haccepted rfl
        rw [hrest, hslash] at hsplit
        exact ⟨numerals, ⟨_, rest, hsplit.symm, List.all_takeWhile, hnumerals⟩, hids⟩
    · rw [if_pos hslash]
      exact ⟨0, {}, rfl, fun h => absurd rfl h⟩

theorem ofNat_eq_zero_iff (n : ℕ) : Int32.ofNat n = 0 ↔ n % 2 ^ 32 = 0 := by
  have hsize : Int32.size = 2 ^ 32 := rfl
  have hzero : (0 : Int32).toInt = 0 := rfl
  rw [← Int32.toInt_inj, Int32.toInt_ofNat', hsize, hzero, Int.bmod_def]
  omega

theorem allIds_wrapped (h : AllIds (numerals.map (digitsValue 0))) : AllIds (wrapped numerals) := by
  refine List.forall_mem_map.mpr fun digits hdigits => ?_
  exact (Nat.mod_le _ _).trans_lt (List.forall_mem_map.mp h digits hdigits)

/-- A text with these numerals writes a URI when its numbers are identifiers. -/
theorem WritesNumerals.writesUri_iff (h : WritesNumerals text numerals) :
    WritesUri text ids ↔ ids = numerals.map (digitsValue 0) ∧ AllIds ids := by
  constructor
  · rintro ⟨numerals', h', hids⟩
    rwa [h.unique h']
  · exact fun hids => ⟨numerals, h, hids⟩

/-- **When a text is read exactly**: unless its numbers are in range modulo 2 ^ 32 and one of them
is too large, or they are identifiers and its length is lost. -/
theorem readExactly_iff (text : List Byte) : ReadExactly text ↔ ¬ Wraps text := by
  by_cases hrange : ∃ numerals, WritesNumerals text numerals ∧ AllIds (wrapped numerals)
  · obtain ⟨numerals, hnumerals, hids⟩ := hrange
    have hread := lwm2mStringToUri_of_numerals hnumerals hids
    have hwrites : (∃ ids, WritesUri text ids) ↔ AllIds (numerals.map (digitsValue 0)) := by
      simp [hnumerals.writesUri_iff]
    have hexact : ReadExactly text ↔
        (¬ text.length % 2 ^ 32 = 0 ↔ AllIds (numerals.map (digitsValue 0))) := by
      rw [← hwrites, ← ofNat_eq_zero_iff]
      constructor
      · rintro ⟨length, uriP, hread', hlength, -⟩
        cases hread.symm.trans hread'
        exact hlength
      · refine fun hlength => ⟨_, _, hread, hlength, fun _ ids hids => ?_⟩
        rw [(hnumerals.writesUri_iff.mp hids).1]
    have hwraps : Wraps text ↔
        (text.length % 2 ^ 32 = 0 ↔ AllIds (numerals.map (digitsValue 0))) := by
      constructor
      · rintro ⟨numerals', hnumerals', -, hlength⟩
        rwa [hnumerals.unique hnumerals']
      · exact fun hlength => ⟨numerals, hnumerals, hids, hlength⟩
    rw [hexact, hwraps]
    tauto
  · refine iff_of_true ?_ fun ⟨numerals, hnumerals, hids, _⟩ => hrange ⟨numerals, hnumerals, hids⟩
    obtain ⟨length, uriP, hread, haccepted⟩ := exists_lwm2mStringToUri text
    have hzero : ¬ length ≠ 0 := mt haccepted hrange
    refine ⟨length, uriP, hread, iff_of_false hzero ?_, fun h => absurd h hzero⟩
    rintro ⟨ids, numerals, hnumerals, rfl, hids⟩
    exact hrange ⟨numerals, hnumerals, allIds_wrapped hids⟩

/-! ### Writing and reading back -/

/-- No level is set below one that is unset. -/
structure Uri.WellFormed (uri : Uri) : Prop where
  instance_object : uri.isSetInstance → uri.isSetObject
  resource_instance : uri.isSetResource → uri.isSetInstance
  resourceInstance_resource : uri.isSetResourceInstance → uri.isSetResource

/-- **The URI is written and read back**: its text fits into `URI_MAX_STRING_LEN` bytes, and the
whole of it is read as the same URI. -/
def RoundTrips (uri : Uri) : Prop :=
  ∃ text, uriToString (some uri) uriMaxStringLen = some text ∧ text.length ≤ uriMaxStringLen ∧
    lwm2mStringToUri text = .ok (Int32.ofNat text.length, uri) ∧ Int32.ofNat text.length ≠ 0

/-- The levels of a URI behind the first '/'. -/
def levelsText : List ℕ → List Byte
  | [] => []
  | [n] => decimal n
  | n :: ns => decimal n ++ 0x2F :: levelsText ns

theorem isNumeral_decimal (n : ℕ) : IsNumeral (decimal n) :=
  ⟨decimal_ne_nil n, List.all_eq_true.mpr fun _ => isDigit_of_mem_decimal⟩

theorem numerals_levelsText (h : ids.length ≤ k + 1) :
    Numerals (k + 1) (levelsText ids) (ids.map decimal) := by
  induction ids generalizing k with
  | nil => exact .nothing
  | cons n ids ih =>
    cases ids with
    | nil => exact .number (isNumeral_decimal n)
    | cons m ids =>
      obtain ⟨k, rfl⟩ := Nat.exists_eq_add_of_lt (show 0 < k by simp at h; omega)
      rw [Nat.zero_add] at h ⊢
      exact .level (isNumeral_decimal n) (ih (by simpa using h))

/-- A URI without gaps is given by its levels. -/
theorem Uri.WellFormed.exists_ids (h : uri.WellFormed) :
    ∃ ids, uri = uriOf ids ∧ AllIds ids ∧ ids.length ≤ 4 := by
  have hid {id : UInt16} (hset : id ≠ lwm2mMaxId) : id.toNat < 0xFFFF := by
    have hne : id.toNat ≠ 0xFFFF := fun heq => hset (UInt16.toNat_inj.mp heq)
    have hlt := id.toNat_lt
    omega
  obtain ⟨objectId, instanceId, resourceId, resourceInstanceId⟩ := uri
  obtain ⟨hinstance, hresource, hresourceInstance⟩ := h
  unfold Uri.isSetObject Uri.isSetInstance at hinstance
  unfold Uri.isSetInstance Uri.isSetResource at hresource
  unfold Uri.isSetResource Uri.isSetResourceInstance at hresourceInstance
  dsimp only at hinstance hresource hresourceInstance
  by_cases ho : objectId = lwm2mMaxId
  · have hi := not_not.mp (mt hinstance (not_not.mpr ho))
    have hr := not_not.mp (mt hresource (not_not.mpr hi))
    have hri := not_not.mp (mt hresourceInstance (not_not.mpr hr))
    exact ⟨[], by rw [ho, hi, hr, hri]; rfl, List.forall_mem_nil _, by decide⟩
  by_cases hi : instanceId = lwm2mMaxId
  · have hr := not_not.mp (mt hresource (not_not.mpr hi))
    have hri := not_not.mp (mt hresourceInstance (not_not.mpr hr))
    refine ⟨[objectId.toNat], ?_, by simpa [AllIds] using hid ho, by simp⟩
    simp [uriOf, levelStores, hi, hr, hri]
  by_cases hr : resourceId = lwm2mMaxId
  · have hri := not_not.mp (mt hresourceInstance (not_not.mpr hr))
    refine ⟨[objectId.toNat, instanceId.toNat], ?_, by simpa [AllIds] using ⟨hid ho, hid hi⟩,
      by simp⟩
    simp [uriOf, levelStores, hr, hri]
  by_cases hri : resourceInstanceId = lwm2mMaxId
  · refine ⟨[objectId.toNat, instanceId.toNat, resourceId.toNat], ?_,
      by simpa [AllIds] using ⟨hid ho, hid hi, hid hr⟩, by simp⟩
    simp [uriOf, levelStores, hri]
  · refine ⟨[objectId.toNat, instanceId.toNat, resourceId.toNat, resourceInstanceId.toNat], ?_,
      by simpa [AllIds] using ⟨hid ho, hid hi, hid hr, hid hri⟩, by simp⟩
    simp [uriOf, levelStores]

theorem decimal_id_le (h : n < 0xFFFF) : (decimal n).length ≤ 5 :=
  decimal_length_le (by decide) (by omega)

/-- Every level takes at most six bytes with its '/'. -/
theorem levelsText_length_le (h : AllIds ids) (hne : ids ≠ []) :
    (levelsText ids).length + 1 ≤ 6 * ids.length := by
  induction ids with
  | nil => exact absurd rfl hne
  | cons n ids ih =>
    obtain ⟨hn, hids⟩ := List.forall_mem_cons.mp h
    have hlength := decimal_id_le hn
    cases ids with
    | nil =>
      change (decimal n).length + 1 ≤ 6
      omega
    | cons m ids =>
      have hrest := ih hids (List.cons_ne_nil _ _)
      simp only [levelsText, List.length_append, List.length_cons] at hrest ⊢
      omega

theorem toNat_ofNat_id (h : n < 0xFFFF) : (UInt16.ofNat n).toNat = n :=
  UInt16.toNat_ofNat_of_lt' (by change n < 65536; omega)

theorem ofNat_ne_max (h : n < 0xFFFF) : UInt16.ofNat n ≠ lwm2mMaxId := by
  intro heq
  have hvalue := congrArg UInt16.toNat heq
  rw [toNat_ofNat_id h] at hvalue
  change n = 65535 at hvalue
  omega

/-- **The text of a URI** with these levels. -/
theorem uriToString_uriOf (hids : AllIds ids) (hlength : ids.length ≤ 4) :
    uriToString (some (uriOf ids)) uriMaxStringLen = some (0x2F :: levelsText ids) := by
  have happend {n : ℕ} (hn : n < 0xFFFF) {buffer : List Byte} (h : buffer.length ≤ 18) :
      appendLevel uriMaxStringLen (UInt16.ofNat n) buffer =
        some (buffer ++ 0x2F :: decimal n) := by
    have hroom : buffer.length + 6 ≤ uriMaxStringLen := by
      change buffer.length + 6 ≤ 24
      omega
    rw [appendLevel_eq _ hroom, toNat_ofNat_id hn]
  match ids, hlength with
  | [], _ => rfl
  | [o], _ =>
    have ho := hids o (by simp)
    have hfirst := happend ho (show ([] : List Byte).length ≤ 18 from Nat.zero_le _)
    simp [uriToString, uriOf, levelStores, Uri.isSetObject, Uri.isSetInstance, ofNat_ne_max ho,
      hfirst, levelsText]
  | [o, i], _ =>
    have ho := hids o (by simp)
    have hi := hids i (by simp)
    have hlo := decimal_id_le ho
    have hfirst := happend ho (show ([] : List Byte).length ≤ 18 from Nat.zero_le _)
    have hsecond := happend hi (show (0x2F :: decimal o).length ≤ 18 by simp; omega)
    simp [uriToString, uriOf, levelStores, Uri.isSetObject, Uri.isSetInstance, Uri.isSetResource,
      ofNat_ne_max ho, ofNat_ne_max hi, hfirst, hsecond, levelsText]
  | [o, i, r], _ =>
    have ho := hids o (by simp)
    have hi := hids i (by simp)
    have hr := hids r (by simp)
    have hlo := decimal_id_le ho
    have hli := decimal_id_le hi
    have hfirst := happend ho (show ([] : List Byte).length ≤ 18 from Nat.zero_le _)
    have hsecond := happend hi (show (0x2F :: decimal o).length ≤ 18 by simp; omega)
    have hthird := happend hr (show (0x2F :: (decimal o ++ 0x2F :: decimal i)).length ≤ 18 by
      simp; omega)
    simp only [List.cons_append, List.append_assoc] at hthird
    simp [uriToString, uriOf, levelStores, Uri.isSetObject, Uri.isSetInstance, Uri.isSetResource,
      Uri.isSetResourceInstance, ofNat_ne_max ho, ofNat_ne_max hi, ofNat_ne_max hr, hfirst, hsecond,
      hthird, levelsText]
  | [o, i, r, ri], _ =>
    have ho := hids o (by simp)
    have hi := hids i (by simp)
    have hr := hids r (by simp)
    have hri := hids ri (by simp)
    have hlo := decimal_id_le ho
    have hli := decimal_id_le hi
    have hlr := decimal_id_le hr
    have hfirst := happend ho (show ([] : List Byte).length ≤ 18 from Nat.zero_le _)
    have hsecond := happend hi (show (0x2F :: decimal o).length ≤ 18 by simp; omega)
    have hthird := happend hr (show (0x2F :: (decimal o ++ 0x2F :: decimal i)).length ≤ 18 by
      simp; omega)
    have hfourth := happend hri (show
      (0x2F :: (decimal o ++ 0x2F :: (decimal i ++ 0x2F :: decimal r))).length ≤ 18 by simp; omega)
    simp only [List.cons_append, List.append_assoc] at hthird hfourth
    simp [uriToString, uriOf, levelStores, Uri.isSetObject, Uri.isSetInstance, Uri.isSetResource,
      Uri.isSetResourceInstance, ofNat_ne_max ho, ofNat_ne_max hi, ofNat_ne_max hr,
      ofNat_ne_max hri, hfirst, hsecond, hthird, hfourth, levelsText]

/-- **Every URI without gaps is written and read back.** -/
theorem Uri.WellFormed.roundTrips (h : uri.WellFormed) : RoundTrips uri := by
  obtain ⟨ids, rfl, hids, hlength⟩ := h.exists_ids
  have htext : (0x2F :: levelsText ids).length ≤ uriMaxStringLen := by
    rcases eq_or_ne ids [] with rfl | hne
    · decide
    · have hle := levelsText_length_le hids hne
      change (levelsText ids).length + 1 ≤ 24
      omega
  have hwrites : WritesNumerals (0x2F :: levelsText ids) (ids.map decimal) :=
    ⟨[], levelsText ids, rfl, rfl, numerals_levelsText hlength⟩
  have hvalues : (ids.map decimal).map (digitsValue 0) = ids := by
    rw [List.map_map]
    exact List.map_id'' digitsValue_decimal ids
  have hread := lwm2mStringToUri_of_numerals hwrites (allIds_wrapped (hvalues.symm ▸ hids))
  rw [hvalues] at hread
  refine ⟨_, uriToString_uriOf hids hlength, htext, hread, ?_⟩
  rw [Ne, ofNat_eq_zero_iff]
  change (levelsText ids).length + 1 ≤ 24 at htext
  rw [List.length_cons]
  omega

/-- **When URIs as text are exact**: a text is read exactly unless it wraps, and every URI without
gaps is written and read back. -/
theorem uriText_exact_iff (text : List Byte) (uri : Uri) (h : uri.WellFormed) :
    (ReadExactly text ↔ ¬ Wraps text) ∧ RoundTrips uri :=
  ⟨readExactly_iff text, h.roundTrips⟩

/-- The text "/3/0" and the URI with the largest identifiers. -/
theorem uriText_exact_largest : ReadExactly [0x2F, 0x33, 0x2F, 0x30] ∧
    RoundTrips { objectId := 65534, instanceId := 65534, resourceId := 65534,
                 resourceInstanceId := 65534 } := by
  refine (uriText_exact_iff _ _ ⟨?_, ?_, ?_⟩).imp_left fun h => h.mpr ?_
  · exact fun _ => by unfold Uri.isSetObject; decide
  · exact fun _ => by unfold Uri.isSetInstance; decide
  · exact fun _ => by unfold Uri.isSetResource; decide
  · rintro ⟨numerals, hnumerals, -, hlength⟩
    have hlevels : Numerals 4 ([0x33] ++ 0x2F :: [0x30]) [[0x33], [0x30]] :=
      .level (by decide) (.number (by decide))
    have hwrites : WritesNumerals [0x2F, 0x33, 0x2F, 0x30] [[0x33], [0x30]] :=
      ⟨[], _, rfl, rfl, hlevels⟩
    rw [hnumerals.unique hwrites] at hlength
    exact absurd (hlength.mpr (by unfold AllIds; decide)) (by decide)

/-- **The text "/4294967299"** is read as the object 3. -/
theorem wrappedObject_fails : ¬ ∀ text, ReadExactly text := by
  intro h
  refine (readExactly_iff
    [0x2F, 0x34, 0x32, 0x39, 0x34, 0x39, 0x36, 0x37, 0x32, 0x39, 0x39]).mp (h _) ?_
  refine ⟨[[0x34, 0x32, 0x39, 0x34, 0x39, 0x36, 0x37, 0x32, 0x39, 0x39]],
    ⟨[], _, rfl, rfl, .number (by decide)⟩, ?_, iff_of_false (by decide) ?_⟩
  · unfold AllIds
    decide
  · unfold AllIds
    decide

end Lwm2m.Core

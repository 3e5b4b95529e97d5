/-
# Strings in JSON items

`json_split`, `json_itemLength` and `json_unescapeString` of `data/json_common.c`.

An item is cut out of a payload by `json_itemLength`, which skips the character behind a '\', and
its members by `json_split`, which looks at the character in front of a quotation mark.  The two
disagree about a value that ends in a '\', and `json_split` does not find the value of a member
whose name has a '"' or a ',' in it (`member_agrees_iff`).  The escape decoder refuses a `\u00XX`
that nothing follows, and reads behind a text of two or three characters that ends in the start of
one.
-/

import Lwm2m.Codec.SenmlText
import Lwm2m.Core.Buffer
import Lwm2m.Library.JsonText

namespace Lwm2m.Codec

open Core Library

/-! ### Members -/

/-- `prv_isReserved`. -/
def prvIsReserved (sign : Byte) : Bool :=
  sign = 0x5B || sign = 0x7B || sign = 0x5D || sign = 0x7D || sign = 0x3A || sign = 0x2C ||
    sign = 0x22

/-- `prv_isWhiteSpace`. -/
def prvIsWhiteSpace (sign : Byte) : Bool :=
  sign = 0x20 || sign = 0x09 || sign = 0x0A || sign = 0x0D

/-- `json_skipSpace`. -/
def jsonSkipSpace (buffer : List Byte) : ℕ := (buffer.takeWhile prvIsWhiteSpace).length

/-- `_itemState`. -/
inductive ItemStep
  | start
  | token
  | anySeparator
  | separator
  | quotedValue
  | value
  | done
  deriving DecidableEq, Repr

/-- What `json_split` stores. -/
structure ItemSplit where
  tokenStart : ℕ := 0
  tokenLen : ℕ := 0
  valueStart : ℕ := 0
  valueLen : ℕ := 0
  deriving DecidableEq, Repr

/-- How the switch of `json_split` ends: `goto loop_exit`, `return -1`, or a next step. -/
inductive SplitTurn
  | loopExit
  | fail
  | next (step : ItemStep) (split : ItemSplit)

/-- The switch of `json_split` on `buffer[index]`, with `buffer[index - 1]`. -/
def splitTurn (c previous : Byte) (index : ℕ) (split : ItemSplit) : ItemStep → SplitTurn
  | .start =>
    if c = 0x2C then .loopExit
    else if c ≠ 0x22 then .fail
    else .next .token { split with tokenStart := index + 1 }
  | .token =>
    if c = 0x2C then .loopExit
    else if c = 0x22 then .next .anySeparator { split with tokenLen := index - split.tokenStart }
    else .next .token split
  | .anySeparator =>
    if c = 0x2C then .loopExit
    else if c ≠ 0x3A then .fail
    else .next .separator split
  | .separator =>
    if c = 0x2C then .loopExit
    else if c = 0x22 then .next .quotedValue { split with valueStart := index }
    else if ¬ prvIsReserved c then .next .value { split with valueStart := index }
    else .fail
  | .quotedValue =>
    if c = 0x22 ∧ previous ≠ 0x5C then
      .next .done { split with valueLen := index - split.valueStart + 1 }
    else .next .quotedValue split
  | .value =>
    if c = 0x2C then .loopExit
    else if prvIsWhiteSpace c then .next .done { split with valueLen := index - split.valueStart }
    else .next .value split
  | .done => if c = 0x2C then .loopExit else .fail

/-- The white space in front of a step is skipped. -/
def ItemStep.skips : ItemStep → Bool
  | .start | .anySeparator | .separator | .done => true
  | .token | .quotedValue | .value => false

/-- The loop of `json_split` up to `loop_exit`. -/
def splitLoop (buffer : List Byte) (step : ItemStep) (split : ItemSplit) (index : ℕ) :
    Option (ItemStep × ItemSplit × ℕ) :=
  match _ : buffer[index]? with
  | none => some (step, split, index)
  | some c =>
    match splitTurn c (buffer.getD (index - 1) 0) index split step with
    | .loopExit => some (step, split, index)
    | .fail => none
    | .next step split =>
      splitLoop buffer step split
        (index + 1 + if step.skips then jsonSkipSpace (buffer.drop (index + 1)) else 0)
  termination_by buffer.length - index
  decreasing_by
    have := (List.getElem?_eq_some_iff.mp ‹_›).1
    omega

/-- `json_split` behind `loop_exit`. -/
def splitExit (step : ItemStep) (split : ItemSplit) (index : ℕ) : Option (ℤ × ItemSplit) :=
  let (step, split) :=
    if step = .value then (.done, { split with valueLen := index - split.valueStart })
    else (step, split)
  if step ≠ .done then none else some ((Int32.ofNat index).toInt, split)

/-- `json_split`: what it returns, and what it stores; `none` is the return of -1. -/
def jsonSplit (buffer : List Byte) : Option (ℤ × ItemSplit) :=
  let index := jsonSkipSpace buffer
  if index = buffer.length then none
  else
    (splitLoop buffer .start {} index).bind fun (step, split, index) => splitExit step split index

/-! ### Items -/

/-- The variable `in` of `json_itemLength`; in a string, the position of its opening mark. -/
inductive ItemIn
  | outside
  | object
  | string (opening : ℕ)
  deriving DecidableEq, Repr

/-- How the switch of `json_itemLength` ends: an error, the end of the item, or a next state, where
the character behind this one may be skipped. -/
inductive ItemTurn
  | fail
  | item
  | next (state : ItemIn) (escape : Bool) (strings : List (ℕ × ℕ))

/-- The switch of `json_itemLength` on `buffer[index]`, with the strings that it left so far, by the
positions of their marks. -/
def itemTurn (c : Byte) (index : ℕ) (strings : List (ℕ × ℕ)) : ItemIn → ItemTurn
  | .outside => if c ≠ 0x7B then .fail else .next .object false strings
  | .object =>
    if c = 0x7B then .fail
    else if c = 0x7D then .item
    else if c = 0x22 then .next (.string index) false strings
    else .next .object false strings
  | .string opening =>
    if c = 0x22 then .next .object false (strings ++ [(opening, index)])
    else if c = 0x5C then .next (.string opening) true strings
    else .next (.string opening) false strings

/-- The loop of `json_itemLength`: the length of the item and the strings in it. -/
def itemLengthLoop (buffer : List Byte) (state : ItemIn) (index : ℕ) (strings : List (ℕ × ℕ)) :
    Option (ℕ × List (ℕ × ℕ)) :=
  match _ : buffer[index]? with
  | none => none
  | some c =>
    match itemTurn c index strings state with
    | .fail => none
    | .item => some (index + 1, strings)
    | .next state escape strings =>
      let last := if escape then index + 1 else index
      if last = buffer.length then none
      else
        -- `_GO_TO_NEXT_CHAR`
        let next := last + 1 + jsonSkipSpace (buffer.drop (last + 1))
        if next = buffer.length then none else itemLengthLoop buffer state next strings
  termination_by buffer.length - index
  decreasing_by
    have := (List.getElem?_eq_some_iff.mp ‹_›).1
    split <;> omega

/-- The item that `json_itemLength` finds, with the strings in it. -/
def jsonItem (buffer : List Byte) : Option (ℕ × List (ℕ × ℕ)) :=
  itemLengthLoop buffer .outside 0 []

/-- `json_itemLength`. -/
def jsonItemLength (buffer : List Byte) : ℤ :=
  match jsonItem buffer with
  | none => -1
  | some (length, _) => (Int32.ofNat length).toInt

/-! ### Escapes -/

/-- `prv_hexValue`. -/
def prvHexValue (digit : Byte) : Byte :=
  if digit ≥ 0x30 ∧ digit ≤ 0x39 then digit - 0x30
  else if digit ≥ 0x61 ∧ digit ≤ 0x66 then digit - 0x61 + 10
  else if digit ≥ 0x41 ∧ digit ≤ 0x46 then digit - 0x41 + 10
  else 0xFF

/-- The escapes of one character. -/
def escapeValue (c : Byte) : Option Byte :=
  if c = 0x22 ∨ c = 0x5C ∨ c = 0x2F then some c
  else if c = 0x62 then some 0x08
  else if c = 0x66 then some 0x0C
  else if c = 0x6E then some 0x0A
  else if c = 0x72 then some 0x0D
  else if c = 0x74 then some 0x09
  else none

/-- `len - 4` of a `size_t`. -/
def lessFour (len : ℕ) : ℕ := if 4 ≤ len then len - 4 else 2 ^ 64 + len - 4

/-- The digits behind `\u` in `json_unescapeString`; `none` is the return of 0. -/
def unescapeDigits (src : List Byte) (i : ℕ) : Except Fault (Option Byte) :=
  if i ≥ lessFour src.length then .ok none
  else do
    if (← loadByte src i) ≠ 0x30 then return none
    else if (← loadByte src (i + 1)) ≠ 0x30 then return none
    else
      let v1 := prvHexValue (← loadByte src (i + 2))
      if v1 > 15 then return none
      else
        let v2 := prvHexValue (← loadByte src (i + 3))
        if v2 > 15 then return none else return some ((v1 <<< 4) + v2)

/-- The escape that starts at `src[i]` in `json_unescapeString`: the byte, and the number of the
characters behind the '\'; `none` is the return of 0. -/
def unescapeOne (src : List Byte) (i : ℕ) : Except Fault (Option (Byte × ℕ)) :=
  if i + 1 ≥ src.length then .ok none
  else do
    let c ← loadByte src (i + 1)
    match escapeValue c with
    | some b => return some (b, 1)
    | none =>
      if c = 0x75 then
        let digits ← unescapeDigits src (i + 2)
        return digits.map fun b => (b, 5)
      else return none

/-- The loop of `json_unescapeString`: what it returns, and the bytes it has written. -/
def unescapeLoop (src : List Byte) (i : ℕ) (dst : List Byte) : Except Fault (ℕ × List Byte) :=
  match _ : src[i]? with
  | none => .ok (dst.length, dst)
  | some c =>
    if c = 0x5C then
      match unescapeOne src i with
      | .error fault => .error fault
      | .ok none => .ok (0, dst)
      | .ok (some (b, length)) => unescapeLoop src (i + length + 1) (dst ++ [b])
    else unescapeLoop src (i + 1) (dst ++ [c])
  termination_by src.length - i
  decreasing_by
    all_goals
      have := (List.getElem?_eq_some_iff.mp ‹_›).1
      omega

/-- `json_unescapeString`: what it returns, and the bytes it has written. -/
def jsonUnescapeString (src : List Byte) : Except Fault (ℕ × List Byte) := unescapeLoop src 0 []

/-! ### Escapes undone -/

/-- A character that is written as `\u00XX`. -/
def HasLongEscape (c : Byte) : Prop := c < 0x20 ∧ c ∉ ([0x08, 0x0C, 0x0A, 0x0D, 0x09] : List Byte)

instance (c : Byte) : Decidable (HasLongEscape c) := inferInstanceAs (Decidable (_ ∧ _))

/-- **Escaping is undone**: whenever `json_escapeString` has room for what it writes,
`json_unescapeString` gives the string back. -/
def EscapeUndone (s : List Byte) : Prop :=
  ∀ dstLen escaped, escapeLoop dstLen [] s = some escaped →
    jsonUnescapeString escaped = .ok (s.length, s)

section

variable {src front rest dst : List Byte} {i : ℕ} {c : Byte}

theorem unescapeLoop_end (h : src.length ≤ i) :
    unescapeLoop src i dst = .ok (dst.length, dst) := by
  rw [unescapeLoop]
  split
  · rfl
  · next c hc => exact absurd (List.getElem?_eq_some_iff.mp hc).1 (Nat.not_lt.mpr h)

theorem unescapeLoop_plain (hc : src[i]? = some c) (h : c ≠ 0x5C) :
    unescapeLoop src i dst = unescapeLoop src (i + 1) (dst ++ [c]) := by
  rw [unescapeLoop]
  split <;> simp_all

theorem unescapeLoop_escape (hc : src[i]? = some 0x5C) :
    unescapeLoop src i dst =
      match unescapeOne src i with
      | .error fault => .error fault
      | .ok none => .ok (0, dst)
      | .ok (some (b, length)) => unescapeLoop src (i + length + 1) (dst ++ [b]) := by
  rw [unescapeLoop]
  split <;> simp_all

theorem unescapeOne_short {b : Byte} (hc : src[i + 1]? = some c) (h : escapeValue c = some b) :
    unescapeOne src i = .ok (some (b, 1)) := by
  have hi := (List.getElem?_eq_some_iff.mp hc).1
  rw [unescapeOne, if_neg (by omega), loadByte_eq_ok_iff.mpr hc, ok_bind, h]
  rfl

theorem unescapeOne_digits (hc : src[i + 1]? = some 0x75) :
    unescapeOne src i =
      (unescapeDigits src (i + 2)).map fun digits => digits.map fun b => (b, 5) := by
  have hi := (List.getElem?_eq_some_iff.mp hc).1
  have hu : escapeValue 0x75 = none := by decide
  rw [unescapeOne, if_neg (by omega), loadByte_eq_ok_iff.mpr hc, ok_bind, hu]
  rw [if_pos rfl]
  cases unescapeDigits src (i + 2) <;> rfl

theorem getElem?_behind (front rest : List Byte) (k : ℕ) :
    (front ++ rest)[front.length + k]? = rest[k]? := by
  rw [List.getElem?_append_right (Nat.le_add_right _ _), Nat.add_sub_cancel_left]

theorem lessFour_of_le {len : ℕ} (h : 4 ≤ len) : lessFour len = len - 4 := if_pos h

theorem lessFour_of_lt {len : ℕ} (h : len < 4) : lessFour len = 2 ^ 64 + len - 4 :=
  if_neg (Nat.not_le.mpr h)

/-- The digits of a byte. -/
theorem hexDigits_value (c : Byte) :
    prvHexValue (prvHexDigit (c >>> 4)) ≤ 15 ∧ prvHexValue (prvHexDigit c) ≤ 15 ∧
      prvHexValue (prvHexDigit (c >>> 4)) <<< 4 + prvHexValue (prvHexDigit c) = c := by
  have hall : ∀ n < 256, let c := UInt8.ofNat n
      prvHexValue (prvHexDigit (c >>> 4)) ≤ 15 ∧ prvHexValue (prvHexDigit c) ≤ 15 ∧
        prvHexValue (prvHexDigit (c >>> 4)) <<< 4 + prvHexValue (prvHexDigit c) = c := by
    decide +kernel
  have := hall c.toNat c.toNat_lt
  rwa [UInt8.ofNat_toNat] at this

/-- The four digits that `json_escapeString` writes, when a character follows them. -/
theorem unescapeDigits_hexDigits (front : List Byte) (c : Byte) (h : rest ≠ []) :
    unescapeDigits (front ++ 0x30 :: 0x30 :: prvHexDigit (c >>> 4) :: prvHexDigit c :: rest)
      front.length = .ok (some c) := by
  obtain ⟨hhigh, hlow, hvalue⟩ := hexDigits_value c
  have hpos := List.length_pos_of_ne_nil h
  have hload (k : ℕ) {b : Byte} (hb : (0x30 :: 0x30 :: prvHexDigit (c >>> 4) :: prvHexDigit c ::
      rest)[k]? = some b) : loadByte (front ++ 0x30 :: 0x30 :: prvHexDigit (c >>> 4) ::
        prvHexDigit c :: rest) (front.length + k) = .ok b :=
    loadByte_eq_ok_iff.mpr ((getElem?_behind front _ k).trans hb)
  unfold unescapeDigits
  rw [lessFour_of_le (by simp only [List.length_append, List.length_cons]; omega),
    if_neg (by simp only [List.length_append, List.length_cons]; omega)]
  rw [show loadByte _ front.length = .ok 0x30 from hload 0 rfl, ok_bind, if_neg (by simp),
    hload 1 rfl, ok_bind, if_neg (by simp), hload 2 rfl, ok_bind]
  rw [if_neg (UInt8.not_lt.mpr hhigh), hload 3 rfl, ok_bind, if_neg (UInt8.not_lt.mpr hlow),
    hvalue]
  rfl

/-- The digits at the end of a string. -/
theorem unescapeDigits_last (front : List Byte) {digits : List Byte} (h : digits.length = 4) :
    unescapeDigits (front ++ digits) front.length = .ok none := by
  unfold unescapeDigits
  rw [lessFour_of_le (by rw [List.length_append]; omega),
    if_pos (by rw [List.length_append]; omega)]

/-- How a byte is escaped. -/
theorem escapedByte_cases (c : Byte) :
    escapedByte c = [c] ∧ c ≠ 0x5C ∧ ¬ HasLongEscape c ∨
    (∃ e, escapedByte c = [0x5C, e] ∧ escapeValue e = some c ∧ ¬ HasLongEscape c) ∨
    escapedByte c = [0x5C, 0x75, 0x30, 0x30, prvHexDigit (c >>> 4), prvHexDigit c] ∧
      HasLongEscape c := by
  unfold escapedByte
  split_ifs with hlt h₁ h₂ h₃ h₄ h₅ h₆ h₇
  · exact .inr (.inl ⟨_, rfl, by rw [h₁]; decide, by rw [h₁]; decide⟩)
  · exact .inr (.inl ⟨_, rfl, by rw [h₂]; decide, by rw [h₂]; decide⟩)
  · exact .inr (.inl ⟨_, rfl, by rw [h₃]; decide, by rw [h₃]; decide⟩)
  · exact .inr (.inl ⟨_, rfl, by rw [h₄]; decide, by rw [h₄]; decide⟩)
  · exact .inr (.inl ⟨_, rfl, by rw [h₅]; decide, by rw [h₅]; decide⟩)
  · exact .inr (.inr ⟨rfl, hlt, by simp [h₁, h₂, h₃, h₄, h₅]⟩)
  · exact .inr (.inl ⟨_, rfl, by rw [h₆]; decide, fun h => hlt h.1⟩)
  · exact .inr (.inl ⟨_, rfl, by rw [h₇]; decide, fun h => hlt h.1⟩)
  · exact .inl ⟨rfl, h₇, fun h => hlt h.1⟩

/-- The escaped byte is read back, unless it is a long escape at the end. -/
theorem unescapeLoop_escapedByte (h : rest ≠ [] ∨ ¬ HasLongEscape c) :
    unescapeLoop (front ++ (escapedByte c ++ rest)) front.length dst =
      unescapeLoop (front ++ escapedByte c ++ rest) (front ++ escapedByte c).length
        (dst ++ [c]) := by
  obtain ⟨heq, hc, -⟩ | ⟨e, heq, he, -⟩ | ⟨heq, hlong⟩ := escapedByte_cases c
  · rw [heq, unescapeLoop_plain (getElem?_behind front _ 0) hc, List.append_assoc,
      List.length_append]
    rfl
  · have hfirst : (front ++ ([0x5C, e] ++ rest))[front.length]? = some 0x5C :=
      getElem?_behind front _ 0
    have hone := unescapeOne_short
      (show (front ++ ([0x5C, e] ++ rest))[front.length + 1]? = some e from
        getElem?_behind front _ 1) he
    rw [heq, unescapeLoop_escape hfirst, hone, List.append_assoc, List.length_append]
    rfl
  · have hrest := h.resolve_right (not_not.mpr hlong)
    have hdigits := unescapeDigits_hexDigits (front ++ [0x5C, 0x75]) c hrest
    rw [heq]
    generalize prvHexDigit (c >>> 4) = v1 at hdigits ⊢
    generalize prvHexDigit c = v2 at hdigits ⊢
    have hfirst : (front ++ ([0x5C, 0x75, 0x30, 0x30, v1, v2] ++ rest))[front.length]? =
        some 0x5C := getElem?_behind front _ 0
    have hone : unescapeOne (front ++ ([0x5C, 0x75, 0x30, 0x30, v1, v2] ++ rest)) front.length =
        .ok (some (c, 5)) := by
      rw [unescapeOne_digits (getElem?_behind front _ 1)]
      rw [List.append_assoc, List.length_append] at hdigits
      rw [show unescapeDigits (front ++ ([0x5C, 0x75, 0x30, 0x30, v1, v2] ++ rest))
        (front.length + 2) = .ok (some c) from hdigits]
      rfl
    rw [unescapeLoop_escape hfirst, hone, List.append_assoc, List.length_append]
    rfl

/-- A long escape at the end: 0 is returned. -/
theorem unescapeLoop_last (h : HasLongEscape c) :
    unescapeLoop (front ++ escapedByte c) front.length dst = .ok (0, dst) := by
  obtain ⟨-, -, hshort⟩ | ⟨e, -, -, hshort⟩ | ⟨heq, -⟩ := escapedByte_cases c
  · exact absurd h hshort
  · exact absurd h hshort
  · have hdigits := unescapeDigits_last (front ++ [0x5C, 0x75])
      (show [0x30, 0x30, prvHexDigit (c >>> 4), prvHexDigit c].length = 4 from rfl)
    rw [List.append_assoc, List.length_append] at hdigits
    rw [heq, unescapeLoop_escape (getElem?_behind front _ 0),
      unescapeOne_digits (getElem?_behind front _ 1)]
    rw [show unescapeDigits (front ++ [0x5C, 0x75, 0x30, 0x30, prvHexDigit (c >>> 4),
      prvHexDigit c]) (front.length + 2) = .ok none from hdigits]
    rfl

theorem unescapeLoop_escaped (s front dst : List Byte) :
    (∀ c ∈ s.getLast?, ¬ HasLongEscape c) ∧
      unescapeLoop (front ++ s.flatMap escapedByte) front.length dst =
        .ok ((dst ++ s).length, dst ++ s) ∨
    (∃ c ∈ s.getLast?, HasLongEscape c) ∧ ∃ dst',
      unescapeLoop (front ++ s.flatMap escapedByte) front.length dst = .ok (0, dst') := by
  induction s generalizing front dst with
  | nil =>
    refine .inl ⟨fun c hc => (nomatch hc), ?_⟩
    rw [List.flatMap_nil, unescapeLoop_end (by simp), List.append_nil]
  | cons c s ih =>
    rw [List.flatMap_cons]
    by_cases hs : s = []
    · subst hs
      by_cases hlong : HasLongEscape c
      · exact .inr ⟨⟨c, rfl, hlong⟩, dst, by
          rw [List.flatMap_nil, List.append_nil, unescapeLoop_last hlong]⟩
      · refine .inl ⟨fun d hd => Option.some.inj hd ▸ hlong, ?_⟩
        rw [unescapeLoop_escapedByte (.inr hlong), unescapeLoop_end (by simp)]
    · have hrest : s.flatMap escapedByte ≠ [] := by
        have := length_le_escaped s
        have := List.length_pos_of_ne_nil hs
        exact List.ne_nil_of_length_pos (by omega)
      have hlast : (c :: s).getLast? = s.getLast? := by
        obtain ⟨d, s, rfl⟩ := List.exists_cons_of_ne_nil hs
        rfl
      have hs := ih (front ++ escapedByte c) (dst ++ [c])
      rw [List.append_assoc dst] at hs
      rw [hlast, unescapeLoop_escapedByte (.inl hrest)]
      exact hs

theorem escapeUndone_iff (s : List Byte) :
    EscapeUndone s ↔ ∀ c ∈ s.getLast?, ¬ HasLongEscape c := by
  have hloop := unescapeLoop_escaped s [] []
  rw [List.nil_append, List.nil_append] at hloop
  constructor
  · intro h
    have hescaped : escapeLoop (s.flatMap escapedByte).length [] s =
        some (s.flatMap escapedByte) := by
      rw [escapeLoop_eq _ (Nat.zero_le _), within_some, List.nil_append, if_pos le_rfl]
    have hback := h _ _ hescaped
    obtain ⟨hlast, -⟩ | ⟨⟨c, hc, -⟩, dst', hzero⟩ := hloop
    · exact hlast
    · have hlength := (Prod.mk.inj (Except.ok.inj (hback.symm.trans hzero))).1
      rw [List.length_eq_zero_iff.mp hlength] at hc
      cases hc
  · intro hlast dstLen escaped hescaped
    rw [escapeLoop_eq dstLen (Nat.zero_le _), within_some, List.nil_append] at hescaped
    split_ifs at hescaped
    cases hescaped
    obtain ⟨-, hback⟩ | ⟨⟨c, hc, hlong⟩, -⟩ := hloop
    · exact hback
    · exact absurd hlong (hlast c hc)

/-! ### Reads of the decoder -/

/-- A text of two or three characters that ends in the start of a `\u` escape. -/
def Overreads (src : List Byte) : Prop :=
  src = [0x5C, 0x75] ∨ src = [0x5C, 0x75, 0x30] ∨ ∃ c, c ≠ 0x5C ∧ src = [c, 0x5C, 0x75]

/-- **Only characters of the text are read.** -/
def UnescapesWithin (src : List Byte) : Prop := ∃ outcome, jsonUnescapeString src = .ok outcome

theorem exists_loadByte (h : i < src.length) : ∃ c, loadByte src i = .ok c :=
  ⟨_, loadByte_eq_ok_iff.mpr (List.getElem?_eq_getElem h)⟩

/-- From four characters on, the check in front of the digits keeps them inside the text. -/
theorem exists_unescapeDigits (h : 4 ≤ src.length) :
    ∃ digits, unescapeDigits src i = .ok digits := by
  unfold unescapeDigits
  rw [lessFour_of_le h]
  by_cases hi : i ≥ src.length - 4
  · exact ⟨none, if_pos hi⟩
  · obtain ⟨a, ha⟩ := exists_loadByte (show i < src.length by omega)
    obtain ⟨b, hb⟩ := exists_loadByte (show i + 1 < src.length by omega)
    obtain ⟨c, hc⟩ := exists_loadByte (show i + 2 < src.length by omega)
    obtain ⟨d, hd⟩ := exists_loadByte (show i + 3 < src.length by omega)
    rw [if_neg hi, ha, ok_bind, hb, ok_bind, hc, ok_bind]
    dsimp only
    rw [hd, ok_bind]
    split_ifs <;> exact ⟨_, rfl⟩

theorem exists_unescapeOne (h : 4 ≤ src.length) : ∃ one, unescapeOne src i = .ok one := by
  unfold unescapeOne
  by_cases hi : i + 1 ≥ src.length
  · exact ⟨none, if_pos hi⟩
  · obtain ⟨c, hc⟩ := exists_loadByte (show i + 1 < src.length by omega)
    obtain ⟨digits, hdigits⟩ := exists_unescapeDigits (i := i + 2) h
    rw [if_neg hi, hc, ok_bind]
    cases escapeValue c with
    | some b => exact ⟨_, rfl⟩
    | none =>
      rw [hdigits]
      split_ifs <;> exact ⟨_, rfl⟩

theorem exists_unescapeLoop (h : 4 ≤ src.length) (i : ℕ) (dst : List Byte) :
    ∃ outcome, unescapeLoop src i dst = .ok outcome := by
  fun_induction unescapeLoop src i dst with
  | case1 => exact ⟨_, rfl⟩
  | case2 i dst fault hone hc =>
    obtain ⟨one, hok⟩ := exists_unescapeOne (i := i) h
    rw [hone] at hok
    cases hok
  | case3 => exact ⟨_, rfl⟩
  | case4 i dst b length hone hc ih => exact ih
  | case5 i dst c hc hother ih => exact ih

/-- What a character does that is no '\', and what one does that ends the text. -/
theorem exists_unescapeLoop_last (front : List Byte) (c : Byte) (dst : List Byte) :
    ∃ outcome, unescapeLoop (front ++ [c]) front.length dst = .ok outcome := by
  have hc : (front ++ [c])[front.length]? = some c := getElem?_behind front [c] 0
  by_cases hescape : c = 0x5C
  · subst hescape
    have hone : unescapeOne (front ++ [0x5C]) front.length = .ok none := if_pos (by simp)
    rw [unescapeLoop_escape hc, hone]
    exact ⟨_, rfl⟩
  · rw [unescapeLoop_plain hc hescape, unescapeLoop_end (by simp)]
    exact ⟨_, rfl⟩

/-- Two characters that end a text of less than four. -/
theorem unescapeLoop_pair_iff (front : List Byte) (hfront : front.length ≤ 1) (c d : Byte)
    (dst : List Byte) :
    (∃ outcome, unescapeLoop (front ++ [c, d]) front.length dst = .ok outcome) ↔
      ¬ (c = 0x5C ∧ d = 0x75) := by
  have hc : (front ++ [c, d])[front.length]? = some c := getElem?_behind front _ 0
  have hd : (front ++ [c, d])[front.length + 1]? = some d := getElem?_behind front _ 1
  have hlength : (front ++ [c, d]).length = front.length + 2 := by simp
  by_cases hescape : c = 0x5C
  · subst hescape
    rw [unescapeLoop_escape hc]
    by_cases hu : d = 0x75
    · subst hu
      have hload : loadByte (front ++ [0x5C, 0x75]) (front.length + 2) =
          .error .outOfBoundsRead := by
        unfold loadByte
        rw [List.getElem?_eq_none hlength.le]
      have hdigits : unescapeDigits (front ++ [0x5C, 0x75]) (front.length + 2) =
          .error .outOfBoundsRead := by
        rw [unescapeDigits, hlength, lessFour_of_lt (by omega), if_neg (by omega), hload]
        rfl
      rw [unescapeOne_digits hd, hdigits]
      exact iff_of_false (fun ⟨_, h⟩ => (nomatch h)) fun h => h ⟨rfl, rfl⟩
    · refine iff_of_true ?_ fun h => hu h.2
      unfold unescapeOne
      rw [if_neg (by omega), loadByte_eq_ok_iff.mpr hd, ok_bind]
      cases escapeValue d with
      | none =>
        rw [if_neg hu]
        exact ⟨_, rfl⟩
      | some b =>
        change ∃ outcome, unescapeLoop (front ++ [0x5C, d]) (front.length + 1 + 1) _ = .ok outcome
        rw [unescapeLoop_end (by omega)]
        exact ⟨_, rfl⟩
  · refine iff_of_true ?_ fun h => hescape h.1
    rw [unescapeLoop_plain hc hescape]
    have hlast := exists_unescapeLoop_last (front ++ [c]) d (dst ++ [c])
    rw [List.append_assoc, List.length_append] at hlast
    exact hlast

/-- A `\u` at the start of a text of three characters. -/
theorem unescapeDigits_three (d : Byte) :
    unescapeDigits [0x5C, 0x75, d] 2 =
      if d = 0x30 then .error .outOfBoundsRead else .ok none := by
  have hlength : ([0x5C, 0x75, d] : List Byte).length = 3 := rfl
  rw [unescapeDigits, hlength, lessFour_of_lt (by decide), if_neg (by decide)]
  by_cases hd : d = 0x30
  · subst hd
    rfl
  · rw [if_neg hd]
    change (if d ≠ 0x30 then _ else _) = _
    rw [if_pos hd]
    rfl

theorem unescapesWithin_iff (src : List Byte) : UnescapesWithin src ↔ ¬ Overreads src := by
  unfold UnescapesWithin jsonUnescapeString
  rcases Nat.lt_or_ge src.length 4 with hshort | hlong
  · match src, hshort with
    | [], _ => exact iff_of_true ⟨_, unescapeLoop_end le_rfl⟩ (by simp [Overreads])
    | [c], _ => exact iff_of_true (exists_unescapeLoop_last [] c []) (by simp [Overreads])
    | [c, d], _ =>
      refine (unescapeLoop_pair_iff [] (Nat.zero_le _) c d []).trans (not_congr ?_)
      simp [Overreads]
    | [c, d, e], _ =>
      by_cases hc : c = 0x5C
      · subst hc
        have hpair : Overreads [0x5C, d, e] ↔ d = 0x75 ∧ e = 0x30 := by simp [Overreads]
        have hfirst : ([0x5C, d, e] : List Byte)[0]? = some 0x5C := rfl
        rw [hpair, unescapeLoop_escape hfirst]
        by_cases hd : d = 0x75
        · subst hd
          rw [unescapeOne_digits rfl, unescapeDigits_three]
          by_cases he : e = 0x30
          · rw [if_pos he]
            exact iff_of_false (fun ⟨_, h⟩ => (nomatch h)) fun h => h ⟨rfl, he⟩
          · rw [if_neg he]
            exact iff_of_true ⟨_, rfl⟩ fun h => he h.2
        · refine iff_of_true ?_ fun h => hd h.1
          cases hvalue : escapeValue d with
          | none =>
            have hone : unescapeOne [0x5C, d, e] 0 = .ok none := by
              unfold unescapeOne
              rw [if_neg (by simp)]
              change (match escapeValue d with | some b => _ | none => _) = _
              rw [hvalue]
              exact if_neg hd
            rw [hone]
            exact ⟨_, rfl⟩
          | some b =>
            rw [unescapeOne_short rfl hvalue]
            exact exists_unescapeLoop_last [0x5C, d] e [b]
      · have hplain : unescapeLoop [c, d, e] 0 [] = unescapeLoop [c, d, e] 1 [c] :=
          unescapeLoop_plain rfl hc
        rw [hplain]
        refine (unescapeLoop_pair_iff [c] le_rfl d e [c]).trans (not_congr ?_)
        simp [Overreads, hc]
  · refine iff_of_true (exists_unescapeLoop hlong 0 []) ?_
    rintro (rfl | rfl | ⟨c, -, rfl⟩) <;> exact absurd hlong (by simp)

end

/-! ### The walk over an item -/

/-- What may stand in an item between its braces: strings, and other characters but braces. -/
inductive ItemText : List Byte → Prop
  | nil : ItemText []
  | plain {c : Byte} {rest : List Byte} (h : c ≠ 0x7B ∧ c ≠ 0x7D ∧ c ≠ 0x22)
    (hrest : ItemText rest) : ItemText (c :: rest)
  | string {chars rest : List Byte} (h : JsonChars chars) (hrest : ItemText rest) :
    ItemText (quoted chars ++ rest)

section

variable {buffer front rest text chars : List Byte} {state : ItemIn} {i o : ℕ} {c : Byte}
  {strings : List (ℕ × ℕ)}

theorem itemLengthLoop_some (hc : buffer[i]? = some c) :
    itemLengthLoop buffer state i strings =
      match itemTurn c i strings state with
      | .fail => none
      | .item => some (i + 1, strings)
      | .next state escape strings =>
        let last := if escape then i + 1 else i
        if last = buffer.length then none
        else
          let next := last + 1 + jsonSkipSpace (buffer.drop (last + 1))
          if next = buffer.length then none else itemLengthLoop buffer state next strings := by
  rw [itemLengthLoop]
  split <;> simp_all

theorem itemLengthLoop_end (h : buffer.length ≤ i) :
    itemLengthLoop buffer state i strings = none := by
  rw [itemLengthLoop]
  split
  · rfl
  · next c hc => exact absurd (List.getElem?_eq_some_iff.mp hc).1 (Nat.not_lt.mpr h)

/-- White space is passed over in an object and in a string anyway. -/
theorem itemLengthLoop_skip (hstate : state ≠ .outside) :
    (if i + jsonSkipSpace (buffer.drop i) = buffer.length then none
      else itemLengthLoop buffer state (i + jsonSkipSpace (buffer.drop i)) strings) =
        itemLengthLoop buffer state i strings := by
  rcases Nat.lt_or_ge i buffer.length with hi | hi
  · have hdrop := List.drop_eq_getElem_cons hi
    have hc := List.getElem?_eq_getElem hi
    cases hspace : prvIsWhiteSpace buffer[i] with
    | false =>
      have hskip : jsonSkipSpace (buffer.drop i) = 0 := by
        rw [jsonSkipSpace, hdrop, List.takeWhile_cons_of_neg (by simp [hspace])]
        rfl
      rw [hskip, Nat.add_zero, if_neg hi.ne]
    | true =>
      have hskip : jsonSkipSpace (buffer.drop i) = 1 + jsonSkipSpace (buffer.drop (i + 1)) := by
        rw [jsonSkipSpace, hdrop, List.takeWhile_cons_of_pos hspace, List.length_cons,
          Nat.add_comm]
        rfl
      have hturn : itemTurn buffer[i] i strings state = .next state false strings := by
        generalize buffer[i] = c at hspace
        have hne : c ≠ 0x22 ∧ c ≠ 0x5C ∧ c ≠ 0x7B ∧ c ≠ 0x7D := by
          refine ⟨?_, ?_, ?_, ?_⟩ <;>
            · rintro rfl
              exact absurd hspace (by decide)
        cases state with
        | outside => exact absurd rfl hstate
        | object => simp [itemTurn, hne]
        | string opening => simp [itemTurn, hne]
      rw [itemLengthLoop_some hc, hturn, hskip, ← Nat.add_assoc]
      dsimp only
      rw [if_neg Bool.false_ne_true, if_neg hi.ne]
  · have hskip : jsonSkipSpace (buffer.drop i) = 0 := by
      rw [List.drop_eq_nil_of_le hi]
      rfl
    rw [hskip, Nat.add_zero, itemLengthLoop_end hi]
    exact ite_self none

/-- A character that is not skipped over, and the walk goes on. -/
theorem itemLengthLoop_next {state' : ItemIn} {strings' : List (ℕ × ℕ)}
    (hc : buffer[i]? = some c) (hturn : itemTurn c i strings state = .next state' false strings')
    (hstate : state' ≠ .outside) :
    itemLengthLoop buffer state i strings = itemLengthLoop buffer state' (i + 1) strings' := by
  have hi := (List.getElem?_eq_some_iff.mp hc).1
  rw [itemLengthLoop_some hc, hturn]
  dsimp only
  rw [if_neg Bool.false_ne_true, if_neg hi.ne]
  exact itemLengthLoop_skip hstate

/-- The character behind a '\' is passed over. -/
theorem itemLengthLoop_escape (hc : buffer[i]? = some 0x5C) (hi : i + 1 < buffer.length) :
    itemLengthLoop buffer (.string o) i strings =
      itemLengthLoop buffer (.string o) (i + 2) strings := by
  have hturn : itemTurn 0x5C i strings (.string o) = .next (.string o) true strings := rfl
  rw [itemLengthLoop_some hc, hturn]
  dsimp only
  rw [if_pos rfl, if_neg hi.ne]
  exact itemLengthLoop_skip (by simp)

theorem itemLengthLoop_char (hc : buffer[i]? = some c) (h : c ≠ 0x22 ∧ c ≠ 0x5C) :
    itemLengthLoop buffer (.string o) i strings =
      itemLengthLoop buffer (.string o) (i + 1) strings :=
  itemLengthLoop_next hc (by simp [itemTurn, h]) (by simp)

theorem ne_of_isJsonPlain (h : isJsonPlain c) : c ≠ 0x22 ∧ c ≠ 0x5C := by
  simp only [isJsonPlain, Bool.and_eq_true, decide_eq_true_eq] at h
  exact ⟨h.1.2, h.2⟩

theorem ne_of_isHexDigit (h : isHexDigit c) : c ≠ 0x22 ∧ c ≠ 0x5C := by
  constructor <;>
    · rintro rfl
      exact absurd h (by decide)

/-- The characters of a string are passed. -/
theorem itemLengthLoop_chars (h : JsonChars chars) (front rest : List Byte) :
    itemLengthLoop (front ++ (chars ++ rest)) (.string o) front.length strings =
      itemLengthLoop (front ++ chars ++ rest) (.string o) (front ++ chars).length strings := by
  induction h generalizing front with
  | nil => simp
  | plain h hrest ih =>
    next c chars =>
    have hnext := ih (front ++ [c])
    rw [List.append_assoc, List.append_assoc, List.length_append] at hnext
    rw [itemLengthLoop_char (getElem?_behind front _ 0) (ne_of_isJsonPlain h),
      show front ++ (c :: chars ++ rest) = front ++ ([c] ++ (chars ++ rest)) from rfl,
      show front.length + 0 + 1 = front.length + [c].length from rfl, hnext]
    simp
  | escape h hrest ih =>
    next c chars =>
    have hnext := ih (front ++ [0x5C, c])
    rw [List.append_assoc, List.append_assoc, List.length_append] at hnext
    rw [itemLengthLoop_escape (getElem?_behind front _ 0) (by simp),
      show front ++ (0x5C :: c :: chars ++ rest) = front ++ ([0x5C, c] ++ (chars ++ rest)) from rfl,
      show front.length + 0 + 2 = front.length + [0x5C, c].length from rfl, hnext]
    simp
  | unicode h hrest ih =>
    next c₁ c₂ c₃ c₄ chars =>
    simp only [List.all_cons, List.all_nil, Bool.and_true, Bool.and_eq_true] at h
    obtain ⟨h₁, h₂, h₃, h₄⟩ := h
    have hnext := ih (front ++ [0x5C, 0x75, c₁, c₂, c₃, c₄])
    rw [List.append_assoc, List.append_assoc, List.length_append] at hnext
    rw [itemLengthLoop_escape (getElem?_behind front _ 0) (by simp),
      itemLengthLoop_char (getElem?_behind front _ 2) (ne_of_isHexDigit h₁),
      itemLengthLoop_char (getElem?_behind front _ 3) (ne_of_isHexDigit h₂),
      itemLengthLoop_char (getElem?_behind front _ 4) (ne_of_isHexDigit h₃),
      itemLengthLoop_char (getElem?_behind front _ 5) (ne_of_isHexDigit h₄)]
    refine hnext.trans ?_
    simp

/-- A string is passed, from its opening to its closing mark. -/
theorem itemLengthLoop_quoted (h : JsonChars chars) (front rest : List Byte)
    (strings : List (ℕ × ℕ)) :
    itemLengthLoop (front ++ (quoted chars ++ rest)) .object front.length strings =
      itemLengthLoop (front ++ quoted chars ++ rest) .object (front ++ quoted chars).length
        (strings ++ [(front.length, front.length + chars.length + 1)]) := by
  have hopen : itemTurn 0x22 front.length strings .object =
      .next (.string front.length) false strings := rfl
  have htext : front ++ (quoted chars ++ rest) =
      (front ++ [0x22]) ++ (chars ++ 0x22 :: rest) := by simp [quoted]
  have htext' : front ++ [0x22] ++ chars ++ 0x22 :: rest = front ++ quoted chars ++ rest := by
    simp [quoted]
  have hclose : (front ++ [0x22] ++ chars ++ 0x22 :: rest)[(front ++ [0x22] ++ chars).length]? =
      some 0x22 := getElem?_behind _ _ 0
  have hlength : (front ++ [0x22] ++ chars).length = front.length + chars.length + 1 := by
    simp only [List.length_append, List.length_singleton]
    omega
  have hlength' : (front ++ quoted chars).length = front.length + chars.length + 1 + 1 := by
    simp only [quoted, List.length_append, List.length_cons, List.length_nil]
    omega
  have hstart : front.length + 0 + 1 = (front ++ [0x22]).length := by simp
  rw [itemLengthLoop_next (getElem?_behind front _ 0) hopen (by simp), htext, hstart,
    itemLengthLoop_chars h, itemLengthLoop_next hclose rfl (by simp), htext', hlength, hlength']

/-- The closing brace of the item. -/
theorem itemLengthLoop_brace (front rest : List Byte) (strings : List (ℕ × ℕ)) :
    itemLengthLoop (front ++ 0x7D :: rest) .object front.length strings =
      some (front.length + 1, strings) := by
  rw [itemLengthLoop_some (getElem?_behind front _ 0)]
  rfl

/-- What stands between the braces is passed, with the strings in it. -/
theorem itemLengthLoop_passed (h : ItemText text) (front rest : List Byte)
    (strings : List (ℕ × ℕ)) :
    ∃ more, (∀ s ∈ more, s.1 < (front ++ text).length) ∧
      itemLengthLoop (front ++ (text ++ rest)) .object front.length strings =
        itemLengthLoop (front ++ text ++ rest) .object (front ++ text).length
          (strings ++ more) := by
  induction h generalizing front strings with
  | nil => exact ⟨[], fun s hs => absurd hs List.not_mem_nil, by simp⟩
  | @plain c text h hrest ih =>
    obtain ⟨more, hmore, hnext⟩ := ih (front ++ [c]) strings
    have hturn : itemTurn c (front.length + 0) strings .object = .next .object false strings := by
      simp [itemTurn, h]
    refine ⟨more, fun s hs => ?_, ?_⟩
    · rw [← List.singleton_append, ← List.append_assoc]
      exact hmore s hs
    · rw [List.append_assoc, List.length_append] at hnext
      exact (itemLengthLoop_next (getElem?_behind front _ 0) hturn (by simp)).trans
        (hnext.trans (by simp))
  | @string chars text h hrest ih =>
    obtain ⟨more, hmore, hnext⟩ := ih (front ++ quoted chars)
      (strings ++ [(front.length, front.length + chars.length + 1)])
    have hlt : front.length < (front ++ (quoted chars ++ text)).length := by
      simp only [quoted, List.length_append, List.length_cons]
      omega
    refine ⟨(front.length, front.length + chars.length + 1) :: more, fun s hs => ?_, ?_⟩
    · rcases List.mem_cons.mp hs with rfl | hs
      · exact hlt
      · rw [← List.append_assoc]
        exact hmore s hs
    · rw [List.append_assoc (quoted chars), itemLengthLoop_quoted h, hnext]
      simp

end

/-! ### Members with a quoted value -/

/-- An item and a member of it whose value is a string, with the white space around its parts. -/
structure QuotedMember where
  before : List Byte
  gap₀ : List Byte
  name : List Byte
  gap₁ : List Byte
  gap₂ : List Byte
  chars : List Byte
  gap₃ : List Byte
  after : List Byte
  before_passed : ItemText before
  before_comma : before = [] ∨ before.getLast? = some 0x2C
  gaps : ∀ gap ∈ [gap₀, gap₁, gap₂, gap₃], gap.all prvIsWhiteSpace
  name_chars : JsonChars name
  value_chars : JsonChars chars
  after_passed : ItemText after
  after_comma : after = [] ∨ after.head? = some 0x2C

namespace QuotedMember

variable (m : QuotedMember)

/-- The member up to its value. -/
def upToValue : List Byte :=
  m.gap₀ ++ quoted m.name ++ m.gap₁ ++ [0x3A] ++ m.gap₂

/-- The item from the member on, up to its closing brace. -/
def text : List Byte := m.upToValue ++ quoted m.chars ++ m.gap₃ ++ m.after

/-- The item. -/
def item : List Byte := 0x7B :: (m.before ++ m.text ++ [0x7D])

/-- The position of the opening mark of the value in the item. -/
def opening : ℕ := 1 + m.before.length + m.upToValue.length

/-- The position of its closing mark. -/
def closing : ℕ := m.opening + m.chars.length + 1

end QuotedMember

/-- **The scanners agree about the value of a member**: whatever follows the item, `json_itemLength`
finds it, and `json_split`, called at the member, reports the value from the opening mark to the
closing mark at which `json_itemLength` leaves the string. -/
def ScannersAgree (m : QuotedMember) : Prop :=
  ∀ trailing, ∃ strings closing result split,
    jsonItem (m.item ++ trailing) = some (m.item.length, strings) ∧
      strings.lookup m.opening = some closing ∧ jsonSplit m.text = some (result, split) ∧
      1 + m.before.length + split.valueStart = m.opening ∧
      1 + m.before.length + split.valueStart + split.valueLen = closing + 1

section

variable {text text' : List Byte}

theorem ItemText.append (h : ItemText text) (h' : ItemText text') : ItemText (text ++ text') := by
  induction h with
  | nil => exact h'
  | plain h hrest ih => exact .plain h ih
  | string h hrest ih =>
    rw [List.append_assoc]
    exact .string h ih

theorem passed_gap (h : text.all prvIsWhiteSpace) : ItemText text := by
  induction text with
  | nil => exact .nil
  | cons c text ih =>
    rw [List.all_cons, Bool.and_eq_true] at h
    refine .plain ⟨?_, ?_, ?_⟩ (ih h.2) <;>
      · rintro rfl
        exact absurd h.1 (by decide)

theorem QuotedMember.gap_mem (m : QuotedMember) :
    m.gap₀.all prvIsWhiteSpace ∧ m.gap₁.all prvIsWhiteSpace ∧ m.gap₂.all prvIsWhiteSpace ∧
      m.gap₃.all prvIsWhiteSpace := by
  have hgaps := m.gaps
  simpa using hgaps

theorem QuotedMember.upToValue_passed (m : QuotedMember) : ItemText m.upToValue := by
  obtain ⟨h₀, h₁, h₂, -⟩ := m.gap_mem
  have hname : ItemText (quoted m.name) := by
    rw [← List.append_nil (quoted m.name)]
    exact .string m.name_chars .nil
  exact ((((passed_gap h₀).append hname).append (passed_gap h₁)).append
    (.plain (by decide) .nil)).append (passed_gap h₂)

/-- A pair is found behind pairs with other keys. -/
theorem lookup_append_cons {l l' : List (ℕ × ℕ)} {o c : ℕ} (h : ∀ s ∈ l, s.1 ≠ o) :
    (l ++ (o, c) :: l').lookup o = some c := by
  have hnone : l.lookup o = none :=
    List.lookup_eq_none_iff.mpr fun s hs => by simpa using (h s hs).symm
  rw [List.lookup_append, hnone]
  simp

/-- **`json_itemLength` finds the item, and leaves the value at its closing mark.** -/
theorem QuotedMember.jsonItem_eq (m : QuotedMember) (trailing : List Byte) :
    ∃ strings, jsonItem (m.item ++ trailing) = some (m.item.length, strings) ∧
      strings.lookup m.opening = some m.closing := by
  have hbefore : ItemText (m.before ++ m.upToValue) := m.before_passed.append m.upToValue_passed
  have hafter : ItemText (m.gap₃ ++ m.after) := (passed_gap m.gap_mem.2.2.2).append m.after_passed
  obtain ⟨first, hfirst, hwalk⟩ := itemLengthLoop_passed hbefore [0x7B]
    (quoted m.chars ++ (m.gap₃ ++ m.after ++ 0x7D :: trailing)) []
  obtain ⟨second, -, hwalk'⟩ := itemLengthLoop_passed hafter
    ([0x7B] ++ (m.before ++ m.upToValue) ++ quoted m.chars) (0x7D :: trailing)
    (first ++ [(m.opening, m.closing)])
  have hopening : ([0x7B] ++ (m.before ++ m.upToValue)).length = m.opening := by
    simp only [List.length_append, List.length_singleton, QuotedMember.opening]
    omega
  have hquoted := itemLengthLoop_quoted m.value_chars ([0x7B] ++ (m.before ++ m.upToValue))
    (m.gap₃ ++ m.after ++ 0x7D :: trailing) first
  have hend := itemLengthLoop_brace ([0x7B] ++ (m.before ++ m.upToValue) ++ quoted m.chars ++
    (m.gap₃ ++ m.after)) trailing (first ++ [(m.opening, m.closing)] ++ second)
  rw [hopening] at hwalk hquoted hfirst
  have htext : m.item ++ trailing = [0x7B] ++ (m.before ++ m.upToValue ++
      (quoted m.chars ++ (m.gap₃ ++ m.after ++ 0x7D :: trailing))) := by
    simp [QuotedMember.item, QuotedMember.text]
  have hitem : m.item.length = ([0x7B] ++ (m.before ++ m.upToValue) ++ quoted m.chars ++
      (m.gap₃ ++ m.after)).length + 1 := by
    simp only [QuotedMember.item, QuotedMember.text, List.length_append, List.length_cons,
      List.length_nil]
    omega
  have hbrace : itemTurn 0x7B 0 [] .outside = .next .object false [] := rfl
  have hfound := hwalk.trans (hquoted.trans (hwalk'.trans hend))
  rw [← hitem, List.append_assoc first] at hfound
  refine ⟨first ++ (m.opening, m.closing) :: second, ?_,
    lookup_append_cons fun s hs => (hfirst s hs).ne⟩
  rw [htext]
  exact (itemLengthLoop_next rfl hbrace (by simp)).trans hfound

end

/-! ### The walk over a member -/

/-- `json_split` from a step on. -/
def splitFrom (buffer : List Byte) (step : ItemStep) (split : ItemSplit) (index : ℕ) :
    Option (ℤ × ItemSplit) :=
  (splitLoop buffer step split index).bind fun (step, split, index) => splitExit step split index

section

variable {buffer front rest gap chars name : List Byte} {step step' : ItemStep}
  {split split' : ItemSplit} {i : ℕ} {c : Byte} {found : ℤ × ItemSplit}

theorem splitLoop_some (hc : buffer[i]? = some c) :
    splitLoop buffer step split i =
      match splitTurn c (buffer.getD (i - 1) 0) i split step with
      | .loopExit => some (step, split, i)
      | .fail => none
      | .next step split =>
        splitLoop buffer step split
          (i + 1 + if step.skips then jsonSkipSpace (buffer.drop (i + 1)) else 0) := by
  rw [splitLoop]
  split <;> simp_all

theorem splitFrom_end (h : buffer.length ≤ i) :
    splitFrom buffer step split i = splitExit step split i := by
  rw [splitFrom, splitLoop]
  split
  · rfl
  · next c hc => exact absurd (List.getElem?_eq_some_iff.mp hc).1 (Nat.not_lt.mpr h)

theorem splitFrom_loopExit (hc : buffer[i]? = some c)
    (hturn : splitTurn c (buffer.getD (i - 1) 0) i split step = .loopExit) :
    splitFrom buffer step split i = splitExit step split i := by
  rw [splitFrom, splitLoop_some hc, hturn]
  rfl

theorem splitFrom_fail (hc : buffer[i]? = some c)
    (hturn : splitTurn c (buffer.getD (i - 1) 0) i split step = .fail) :
    splitFrom buffer step split i = none := by
  rw [splitFrom, splitLoop_some hc, hturn]
  rfl

/-- A turn behind which no white space is skipped. -/
theorem splitFrom_next (hc : buffer[i]? = some c)
    (hturn : splitTurn c (buffer.getD (i - 1) 0) i split step = .next step' split')
    (hskips : step'.skips = false) :
    splitFrom buffer step split i = splitFrom buffer step' split' (i + 1) := by
  rw [splitFrom, splitLoop_some hc, hturn]
  dsimp only
  rw [hskips, if_neg Bool.false_ne_true]
  rfl

/-- A turn behind which white space is skipped. -/
theorem splitFrom_skips (hc : buffer[i]? = some c)
    (hturn : splitTurn c (buffer.getD (i - 1) 0) i split step = .next step' split')
    (hskips : step'.skips = true) :
    splitFrom buffer step split i =
      splitFrom buffer step' split' (i + 1 + jsonSkipSpace (buffer.drop (i + 1))) := by
  rw [splitFrom, splitLoop_some hc, hturn]
  dsimp only
  rw [hskips, if_pos rfl]
  rfl

theorem jsonSkipSpace_append (h : gap.all prvIsWhiteSpace)
    (hrest : ∀ c ∈ rest.head?, prvIsWhiteSpace c = false) :
    jsonSkipSpace (gap ++ rest) = gap.length := by
  rw [jsonSkipSpace, List.takeWhile_append_of_pos fun c hc => List.all_eq_true.mp h c hc]
  cases rest with
  | nil => simp
  | cons c rest =>
    rw [List.takeWhile_cons_of_neg (by simp [hrest c rfl]), List.append_nil]

/-- White space is skipped up to a quotation mark at the latest. -/
theorem jsonSkipSpace_le (text rest : List Byte) :
    jsonSkipSpace (text ++ 0x22 :: rest) ≤ text.length := by
  induction text with
  | nil => exact le_rfl
  | cons c text ih =>
    rw [jsonSkipSpace, List.cons_append, List.takeWhile_cons]
    split
    · exact Nat.succ_le_succ ih
    · exact Nat.zero_le _

theorem getD_front (front : List Byte) (c : Byte) (rest : List Byte) :
    (front ++ c :: rest).getD front.length 0 = c := by
  simp

/-- The characters of a name without a mark and a comma. -/
theorem splitFrom_token (h : ∀ c ∈ name, c ≠ 0x22 ∧ c ≠ 0x2C) (front rest : List Byte) :
    splitFrom (front ++ (name ++ rest)) .token split front.length =
      splitFrom (front ++ name ++ rest) .token split (front ++ name).length := by
  induction name generalizing front with
  | nil => simp
  | cons c name ih =>
    obtain ⟨hc, hname⟩ := List.forall_mem_cons.mp h
    have hnext := ih hname (front ++ [c])
    rw [List.append_assoc, List.append_assoc, List.length_append] at hnext
    refine (splitFrom_next (getElem?_behind front _ 0) ?_ rfl).trans (hnext.trans (by simp))
    simp [splitTurn, hc]

/-- Once the value has started, its start stays. -/
def ItemStep.hasValue : ItemStep → Bool
  | .quotedValue | .value | .done => true
  | _ => false

theorem splitTurn_hasValue {previous : Byte} (h : step.hasValue)
    (hturn : splitTurn c previous i split step = .next step' split') :
    step'.hasValue ∧ split'.valueStart = split.valueStart := by
  cases step with
  | quotedValue | value =>
    rw [splitTurn] at hturn
    split_ifs at hturn <;>
      · cases hturn
        exact ⟨rfl, rfl⟩
  | done =>
    rw [splitTurn] at hturn
    split_ifs at hturn
  | start => cases h
  | token => cases h
  | anySeparator => cases h
  | separator => cases h

theorem splitLoop_hasValue {outcome : ItemStep × ItemSplit × ℕ} (h : step.hasValue)
    (hloop : splitLoop buffer step split i = some outcome) :
    outcome.2.1.valueStart = split.valueStart := by
  fun_induction splitLoop buffer step split i with
  | case1 =>
    cases hloop
    rfl
  | case2 =>
    cases hloop
    rfl
  | case3 => cases hloop
  | case4 step split i c _ step' split' hturn ih =>
    obtain ⟨hvalue, hsame⟩ := splitTurn_hasValue h hturn
    exact (ih hvalue hloop).trans hsame

/-- A quoted value that has not ended takes the character. -/
theorem splitLoop_quoted_le {outcome : ItemStep × ItemSplit × ℕ}
    (hloop : splitLoop buffer step split i = some outcome) :
    (step = .quotedValue → split.valueStart ≤ i → outcome.1 = .quotedValue ∨
      outcome.1 = .done ∧ i + 1 ≤ outcome.2.1.valueStart + outcome.2.1.valueLen) ∧
    (step = .done → outcome.1 = .done ∧ outcome.2.1 = split) := by
  fun_induction splitLoop buffer step split i with
  | case1 =>
    cases hloop
    exact ⟨fun h _ => .inl h, fun h => ⟨h, rfl⟩⟩
  | case2 step split i c _ hturn =>
    cases hloop
    exact ⟨fun h _ => .inl h, fun h => ⟨h, rfl⟩⟩
  | case3 => cases hloop
  | case4 step split i c _ step' split' hturn ih =>
    obtain ⟨hquoted, hdone⟩ := ih hloop
    constructor
    · rintro rfl hstart
      rw [splitTurn] at hturn
      split_ifs at hturn
      · cases hturn
        obtain ⟨hend, hsame⟩ := hdone rfl
        rw [hsame]
        exact .inr ⟨hend, by dsimp only; omega⟩
      · cases hturn
        exact (hquoted rfl (by omega)).imp_right fun h => ⟨h.1, by omega⟩
    · rintro rfl
      rw [splitTurn] at hturn
      split_ifs at hturn

theorem splitExit_eq_some (h : splitExit step split i = some found) :
    (step = .value ∧ found.2 = { split with valueLen := i - split.valueStart }) ∨
      step = .done ∧ found.2 = split := by
  cases step with
  | value =>
    cases h
    exact .inl ⟨rfl, rfl⟩
  | done =>
    cases h
    exact .inr ⟨rfl, rfl⟩
  | start => cases h
  | token => cases h
  | anySeparator => cases h
  | separator => cases h
  | quotedValue => cases h

theorem splitFrom_hasValue (h : step.hasValue)
    (hfrom : splitFrom buffer step split i = some found) :
    found.2.valueStart = split.valueStart := by
  obtain ⟨⟨step', split', i'⟩, hloop, hexit⟩ := Option.bind_eq_some_iff.mp hfrom
  rw [← splitLoop_hasValue h hloop]
  rcases splitExit_eq_some hexit with ⟨-, heq⟩ | ⟨-, heq⟩ <;> rw [heq]

theorem splitFrom_quoted_le (hstart : split.valueStart ≤ i)
    (hfrom : splitFrom buffer .quotedValue split i = some found) :
    i + 1 ≤ found.2.valueStart + found.2.valueLen := by
  obtain ⟨⟨step', split', i'⟩, hloop, hexit⟩ := Option.bind_eq_some_iff.mp hfrom
  rcases (splitLoop_quoted_le hloop).1 rfl hstart with rfl | ⟨rfl, hle⟩
  · cases hexit
  · obtain ⟨hvalue, -⟩ | ⟨-, heq⟩ := splitExit_eq_some hexit
    · cases hvalue
    · rw [heq]
      exact hle

/-- The characters of a value, none of which ends it. -/
theorem splitFrom_chars (h : JsonChars chars) (front rest : List Byte) :
    splitFrom (front ++ (chars ++ rest)) .quotedValue split front.length =
      splitFrom (front ++ chars ++ rest) .quotedValue split (front ++ chars).length := by
  have hchar {buffer : List Byte} {i : ℕ} {c : Byte} (hc : buffer[i]? = some c) (hne : c ≠ 0x22) :
      splitFrom buffer .quotedValue split i = splitFrom buffer .quotedValue split (i + 1) :=
    splitFrom_next hc (by simp [splitTurn, hne]) rfl
  induction h generalizing front with
  | nil => simp
  | @plain c chars h hrest ih =>
    have hnext := ih (front ++ [c])
    rw [List.append_assoc, List.append_assoc, List.length_append] at hnext
    refine (hchar (getElem?_behind front _ 0) (ne_of_isJsonPlain h).1).trans (hnext.trans ?_)
    simp
  | @escape c chars h hrest ih =>
    have hnext := ih (front ++ [0x5C, c])
    rw [List.append_assoc, List.append_assoc, List.length_append] at hnext
    have hsecond : (front ++ (0x5C :: c :: chars ++ rest))[front.length + 1]? = some c :=
      getElem?_behind front _ 1
    have hprevious : (front ++ (0x5C :: c :: chars ++ rest)).getD (front.length + 1 - 1) 0 =
        0x5C := by simp
    -- the character in front of an escaped mark is the '\'
    have hturn : splitTurn c ((front ++ (0x5C :: c :: chars ++ rest)).getD (front.length + 1 - 1) 0)
        (front.length + 1) split .quotedValue = .next .quotedValue split := by
      rw [hprevious]
      simp [splitTurn]
    refine (hchar (getElem?_behind front _ 0) (by decide)).trans
      ((splitFrom_next hsecond hturn rfl).trans (hnext.trans ?_))
    simp
  | @unicode c₁ c₂ c₃ c₄ chars h hrest ih =>
    simp only [List.all_cons, List.all_nil, Bool.and_true, Bool.and_eq_true] at h
    obtain ⟨h₁, h₂, h₃, h₄⟩ := h
    have hnext := ih (front ++ [0x5C, 0x75, c₁, c₂, c₃, c₄])
    rw [List.append_assoc, List.append_assoc, List.length_append] at hnext
    rw [hchar (getElem?_behind front _ 0) (by decide),
      hchar (getElem?_behind front _ 1) (by decide),
      hchar (getElem?_behind front _ 2) (ne_of_isHexDigit h₁).1,
      hchar (getElem?_behind front _ 3) (ne_of_isHexDigit h₂).1,
      hchar (getElem?_behind front _ 4) (ne_of_isHexDigit h₃).1,
      hchar (getElem?_behind front _ 5) (ne_of_isHexDigit h₄).1]
    refine hnext.trans ?_
    simp

variable {j : ℕ}

/-- A turn behind which white space is skipped, up to the rest. -/
theorem splitFrom_gap (hbuffer : buffer = front ++ c :: (gap ++ rest)) (hi : i = front.length)
    (hj : j = front.length + 1 + gap.length) (hgap : gap.all prvIsWhiteSpace)
    (hrest : ∀ c ∈ rest.head?, prvIsWhiteSpace c = false)
    (hturn : splitTurn c (buffer.getD (i - 1) 0) i split step = .next step' split')
    (hskips : step'.skips = true) :
    splitFrom buffer step split i = splitFrom buffer step' split' j := by
  subst hbuffer hi hj
  have hdrop : (front ++ c :: (gap ++ rest)).drop (front.length + 1) = gap ++ rest := by simp
  rw [splitFrom_skips (getElem?_behind front _ 0) hturn hskips, Nat.add_zero, hdrop,
    jsonSkipSpace_append hgap hrest]

/-- The characters of a name at a position. -/
theorem splitFrom_token_at (h : ∀ c ∈ name, c ≠ 0x22 ∧ c ≠ 0x2C)
    (hbuffer : buffer = front ++ (name ++ rest)) (hi : i = front.length)
    (hj : j = front.length + name.length) :
    splitFrom buffer .token split i = splitFrom buffer .token split j := by
  subst hbuffer hi hj
  rw [splitFrom_token h, List.append_assoc, List.length_append]

/-- The characters of a value at a position. -/
theorem splitFrom_chars_at (h : JsonChars chars) (hbuffer : buffer = front ++ (chars ++ rest))
    (hi : i = front.length) (hj : j = front.length + chars.length) :
    splitFrom buffer .quotedValue split i = splitFrom buffer .quotedValue split j := by
  subst hbuffer hi hj
  rw [splitFrom_chars h, List.append_assoc, List.length_append]

end

namespace QuotedMember

variable (m : QuotedMember)

/-- The position of the closing mark of the name in the text of the member. -/
def nameEnd : ℕ := m.gap₀.length + 1 + m.name.length

theorem length_upToValue :
    m.upToValue.length = m.nameEnd + 1 + m.gap₁.length + 1 + m.gap₂.length := by
  simp only [upToValue, nameEnd, quoted, List.length_append, List.length_cons, List.length_nil]
  omega

/-- The text behind the name. -/
def behindName : List Byte :=
  m.gap₁ ++ 0x3A :: (m.gap₂ ++ 0x22 :: (m.chars ++ 0x22 :: (m.gap₃ ++ m.after)))

theorem text_eq : m.text = m.gap₀ ++ 0x22 :: (m.name ++ 0x22 :: m.behindName) := by
  simp [text, upToValue, behindName, quoted]

/-- The opening mark of the name. -/
theorem jsonSplit_eq : jsonSplit m.text =
    splitFrom m.text .token { tokenStart := m.gap₀.length + 1 } (m.gap₀.length + 1) := by
  have hskip : jsonSkipSpace m.text = m.gap₀.length := by
    rw [text_eq]
    exact jsonSkipSpace_append m.gap_mem.1 fun c hc => Option.some.inj hc ▸ by decide
  have hlength : m.gap₀.length ≠ m.text.length := by
    rw [text_eq, List.length_append, List.length_cons]
    omega
  have hc : m.text[m.gap₀.length]? = some 0x22 := by
    rw [text_eq]
    exact getElem?_behind _ _ 0
  unfold jsonSplit
  rw [hskip, if_neg hlength]
  exact splitFrom_next hc rfl rfl

/-- From the closing mark of the name to the value. -/
theorem splitFrom_name (split : ItemSplit) :
    splitFrom m.text .token split m.nameEnd =
      splitFrom m.text .quotedValue { split with
        tokenLen := m.nameEnd - split.tokenStart, valueStart := m.upToValue.length }
        (m.upToValue.length + 1) := by
  obtain ⟨-, h₁, h₂, -⟩ := m.gap_mem
  have hname : m.nameEnd = (m.gap₀ ++ 0x22 :: m.name).length := by
    simp only [nameEnd, List.length_append, List.length_cons]
    omega
  have hcolon : m.nameEnd + 1 + m.gap₁.length =
      (m.gap₀ ++ quoted m.name ++ m.gap₁).length := by
    simp only [nameEnd, quoted, List.length_append, List.length_cons, List.length_nil]
    omega
  have hlength := m.length_upToValue
  have hvalue : m.text[m.upToValue.length]? = some 0x22 := by
    have : m.text = m.upToValue ++ 0x22 :: (m.chars ++ [0x22] ++ m.gap₃ ++ m.after) := by
      simp [text, quoted]
    rw [this]
    exact getElem?_behind _ _ 0
  have hbuffer : m.text = (m.gap₀ ++ 0x22 :: m.name) ++ 0x22 :: (m.gap₁ ++ 0x3A ::
      (m.gap₂ ++ quoted m.chars ++ m.gap₃ ++ m.after)) := by
    simp [text, upToValue, quoted]
  have hbuffer' : m.text = (m.gap₀ ++ quoted m.name ++ m.gap₁) ++ 0x3A :: (m.gap₂ ++
      0x22 :: (m.chars ++ [0x22] ++ m.gap₃ ++ m.after)) := by
    simp [text, upToValue, quoted]
  rw [splitFrom_gap hbuffer hname (by rw [← hname]) h₁
      (fun c hc => Option.some.inj hc ▸ by decide) rfl rfl,
    splitFrom_gap hbuffer' hcolon (by rw [← hcolon, ← hlength]) h₂
      (fun c hc => Option.some.inj hc ▸ by decide) rfl rfl]
  exact splitFrom_next hvalue rfl rfl

/-- The character in front of the closing mark of the value. -/
theorem getD_previous :
    m.text.getD (m.upToValue.length + m.chars.length) 0 = m.chars.getLast?.getD 0x22 := by
  obtain hnil | ⟨chars, c, hlast⟩ := m.chars.eq_nil_or_concat'
  · have htext : m.text = m.upToValue ++ 0x22 :: ([0x22] ++ m.gap₃ ++ m.after) := by
      simp [text, quoted, hnil]
    rw [htext, hnil, List.length_nil, Nat.add_zero, getD_front]
    rfl
  · have htext : m.text =
        (m.upToValue ++ 0x22 :: chars) ++ c :: (0x22 :: (m.gap₃ ++ m.after)) := by
      simp [text, quoted, hlast]
    have hindex : m.upToValue.length + m.chars.length =
        (m.upToValue ++ 0x22 :: chars).length := by
      simp only [hlast, List.length_append, List.length_cons, List.length_nil]
    rw [hindex, htext, getD_front, hlast, List.getLast?_concat]
    rfl

/-- What follows the value ends the walk. -/
theorem splitFrom_after {split : ItemSplit} :
    splitFrom m.text .done split (m.text.length - m.after.length) =
      some ((Int32.ofNat (m.text.length - m.after.length)).toInt, split) := by
  have hexit (index : ℕ) : splitExit .done split index = some ((Int32.ofNat index).toInt, split) :=
    rfl
  rcases m.after_comma with hnil | hcomma
  · rw [splitFrom_end (by rw [hnil]; exact Nat.le_refl _), hexit]
  · obtain ⟨rest, hafter⟩ : ∃ rest, m.after = 0x2C :: rest :=
      ⟨m.after.tail, (List.cons_head?_tail hcomma).symm⟩
    have htext : m.text = (m.upToValue ++ quoted m.chars ++ m.gap₃) ++ 0x2C :: rest := by
      rw [text, hafter]
    have hindex : m.text.length - m.after.length =
        (m.upToValue ++ quoted m.chars ++ m.gap₃).length := by
      rw [text, List.length_append, Nat.add_sub_cancel]
    have hc : m.text[m.text.length - m.after.length]? = some 0x2C := by
      rw [hindex, htext]
      exact getElem?_behind _ _ 0
    rw [splitFrom_loopExit hc rfl, hexit]

/-- The closing mark of the value is taken for it unless a '\' is in front of it. -/
theorem splitFrom_value (split : ItemSplit) (hstart : split.valueStart = m.upToValue.length) :
    splitFrom m.text .quotedValue split (m.upToValue.length + 1) =
      if m.chars.getLast? = some 0x5C then
        splitFrom m.text .quotedValue split (m.upToValue.length + 1 + m.chars.length + 1)
      else some ((Int32.ofNat (m.text.length - m.after.length)).toInt,
        { split with valueLen := m.chars.length + 2 }) := by
  have hbuffer : m.text = (m.upToValue ++ [0x22]) ++ (m.chars ++ 0x22 :: (m.gap₃ ++ m.after)) := by
    simp [text, quoted]
  have hbuffer' : m.text = (m.upToValue ++ 0x22 :: m.chars) ++ 0x22 :: (m.gap₃ ++ m.after) := by
    simp [text, quoted]
  have hclosing : m.upToValue.length + 1 + m.chars.length =
      (m.upToValue ++ 0x22 :: m.chars).length := by
    simp only [List.length_append, List.length_cons]
    omega
  have hmark : m.text[m.upToValue.length + 1 + m.chars.length]? = some 0x22 := by
    rw [hbuffer', hclosing]
    exact getElem?_behind _ _ 0
  have hprevious : m.text.getD (m.upToValue.length + 1 + m.chars.length - 1) 0 =
      m.chars.getLast?.getD 0x22 := by
    rw [← m.getD_previous]
    congr 1
    omega
  rw [splitFrom_chars_at m.value_chars hbuffer (by simp) (by simp; rfl)]
  by_cases hlast : m.chars.getLast? = some 0x5C
  · rw [if_pos hlast]
    refine splitFrom_next hmark ?_ rfl
    rw [hprevious, hlast]
    rfl
  · rw [if_neg hlast]
    have hne : m.chars.getLast?.getD 0x22 ≠ 0x5C := by
      cases hchars : m.chars.getLast? with
      | none => decide
      | some c =>
        rintro rfl
        exact hlast hchars
    have hlength : m.upToValue.length + 1 + m.chars.length - split.valueStart + 1 =
        m.chars.length + 2 := by omega
    have hturn : splitTurn 0x22 (m.text.getD (m.upToValue.length + 1 + m.chars.length - 1) 0)
        (m.upToValue.length + 1 + m.chars.length) split .quotedValue =
          .next .done { split with valueLen := m.chars.length + 2 } := by
      rw [hprevious, splitTurn, if_pos ⟨rfl, hne⟩, hlength]
    have hindex : m.text.length - m.after.length =
        (m.upToValue ++ 0x22 :: m.chars).length + 1 + m.gap₃.length := by
      simp only [text, quoted, List.length_append, List.length_cons, List.length_nil]
      omega
    rw [splitFrom_gap hbuffer' hclosing hindex m.gap_mem.2.2.2 ?_ hturn rfl, splitFrom_after]
    intro c hc
    rcases m.after_comma with hnil | hcomma
    · rw [hnil] at hc
      cases hc
    · rw [hcomma] at hc
      cases hc
      decide

/-- White space inside the name is skipped up to its closing mark at the latest. -/
theorem add_jsonSkipSpace_le {i : ℕ} (hi : i ≤ m.nameEnd) :
    i + jsonSkipSpace (m.text.drop i) ≤ m.nameEnd := by
  have hlength : (m.gap₀ ++ 0x22 :: m.name).length = m.nameEnd := by
    simp only [nameEnd, List.length_append, List.length_cons]
    omega
  have htext : m.text = (m.gap₀ ++ 0x22 :: m.name) ++ 0x22 :: m.behindName := by
    simp [text_eq]
  have hdrop : m.text.drop i = (m.gap₀ ++ 0x22 :: m.name).drop i ++ 0x22 :: m.behindName := by
    rw [htext, List.drop_append_of_le_length (by omega)]
  have hle := jsonSkipSpace_le ((m.gap₀ ++ 0x22 :: m.name).drop i) m.behindName
  rw [List.length_drop, hlength] at hle
  rw [hdrop]
  omega

theorem nameEnd_lt : m.nameEnd < m.text.length := by
  rw [text_eq]
  simp only [nameEnd, List.length_append, List.length_cons]
  omega

variable {m} {split : ItemSplit} {i : ℕ} {found : ℤ × ItemSplit}

/-- A value that is looked for inside the name starts there. -/
theorem separator_le (hi : i ≤ m.nameEnd)
    (h : splitFrom m.text .separator split i = some found) : found.2.valueStart ≤ m.nameEnd := by
  obtain ⟨c, hc⟩ : ∃ c, m.text[i]? = some c :=
    ⟨_, List.getElem?_eq_getElem (hi.trans_lt m.nameEnd_lt)⟩
  by_cases hcomma : c = 0x2C
  · rw [splitFrom_loopExit hc (by rw [splitTurn, if_pos hcomma])] at h
    cases h
  by_cases hquote : c = 0x22
  · rw [splitFrom_next hc (by rw [splitTurn, if_neg hcomma, if_pos hquote]) rfl] at h
    exact (splitFrom_hasValue rfl h).trans_le hi
  by_cases hreserved : ¬ prvIsReserved c
  · rw [splitFrom_next hc (by rw [splitTurn, if_neg hcomma, if_neg hquote, if_pos hreserved])
      rfl] at h
    exact (splitFrom_hasValue rfl h).trans_le hi
  · rw [splitFrom_fail hc (by rw [splitTurn, if_neg hcomma, if_neg hquote, if_neg hreserved])] at h
    cases h

theorem anySeparator_le (hi : i ≤ m.nameEnd)
    (h : splitFrom m.text .anySeparator split i = some found) :
    found.2.valueStart ≤ m.nameEnd := by
  obtain ⟨c, hc⟩ : ∃ c, m.text[i]? = some c :=
    ⟨_, List.getElem?_eq_getElem (hi.trans_lt m.nameEnd_lt)⟩
  by_cases hcomma : c = 0x2C
  · rw [splitFrom_loopExit hc (by rw [splitTurn, if_pos hcomma])] at h
    cases h
  by_cases hcolon : c = 0x3A
  · have hmark : m.text[m.nameEnd]? = some 0x22 := by
      have hlength : m.nameEnd = (m.gap₀ ++ 0x22 :: m.name).length := by
        simp only [nameEnd, List.length_append, List.length_cons]
        omega
      have htext : m.text = (m.gap₀ ++ 0x22 :: m.name) ++ 0x22 :: m.behindName := by
        simp [text_eq]
      rw [htext, hlength]
      exact getElem?_behind _ _ 0
    -- the closing mark of the name is no ':'
    have hne : i ≠ m.nameEnd := by
      rintro rfl
      rw [hmark, hcolon] at hc
      exact absurd hc (by decide)
    rw [splitFrom_skips hc (by rw [splitTurn, if_neg hcomma, if_neg (not_not.mpr hcolon)]) rfl] at h
    exact separator_le (m.add_jsonSkipSpace_le (by omega)) h
  · rw [splitFrom_fail hc (by rw [splitTurn, if_neg hcomma, if_pos hcolon])] at h
    cases h

/-- The token of a name with a mark or a comma in it ends there. -/
theorem jsonSplit_badName (hbad : ∃ c ∈ m.name, c = 0x22 ∨ c = 0x2C)
    (h : jsonSplit m.text = some found) : found.2.valueStart ≤ m.nameEnd := by
  obtain ⟨c, hfind⟩ : ∃ c, m.name.find? (fun c => decide (c = 0x22 ∨ c = 0x2C)) = some c := by
    rw [← Option.isSome_iff_exists, List.find?_isSome]
    obtain ⟨c, hc, hbad⟩ := hbad
    exact ⟨c, hc, decide_eq_true hbad⟩
  obtain ⟨hc, front, rest, hname, hfront⟩ := List.find?_eq_some_iff_append.mp hfind
  have hgood : ∀ c ∈ front, c ≠ 0x22 ∧ c ≠ 0x2C := fun c hc => by simpa using hfront c hc
  have hbuffer : m.text = (m.gap₀ ++ [0x22]) ++ (front ++ c :: (rest ++ 0x22 :: m.behindName)) := by
    simp [text_eq, hname]
  have hbuffer' : m.text = (m.gap₀ ++ 0x22 :: front) ++ c :: (rest ++ 0x22 :: m.behindName) := by
    simp [text_eq, hname]
  have hindex : m.gap₀.length + 1 + front.length = (m.gap₀ ++ 0x22 :: front).length := by
    simp only [List.length_append, List.length_cons]
    omega
  have hat : m.text[m.gap₀.length + 1 + front.length]? = some c := by
    rw [hbuffer', hindex]
    exact getElem?_behind _ _ 0
  have hend : m.gap₀.length + 1 + front.length + 1 ≤ m.nameEnd := by
    simp only [nameEnd, hname, List.length_append, List.length_cons]
    omega
  rw [jsonSplit_eq, splitFrom_token_at hgood hbuffer (by simp) (by simp; rfl)] at h
  rcases of_decide_eq_true hc with rfl | rfl
  · rw [splitFrom_skips hat rfl rfl] at h
    exact anySeparator_le (m.add_jsonSkipSpace_le hend) h
  · rw [splitFrom_loopExit hat rfl] at h
    cases h

/-- The value of a member whose name has no mark and no comma. -/
theorem jsonSplit_goodName (hgood : ∀ c ∈ m.name, c ≠ 0x22 ∧ c ≠ 0x2C) :
    jsonSplit m.text = splitFrom m.text .quotedValue
      { tokenStart := m.gap₀.length + 1, tokenLen := m.name.length,
        valueStart := m.upToValue.length } (m.upToValue.length + 1) := by
  have hbuffer : m.text = (m.gap₀ ++ [0x22]) ++ (m.name ++ 0x22 :: m.behindName) := by
    simp [text_eq]
  have hlen : m.nameEnd - (m.gap₀.length + 1) = m.name.length := by
    rw [nameEnd]
    omega
  rw [jsonSplit_eq, splitFrom_token_at (j := m.nameEnd) hgood hbuffer (by simp)
    (by rw [nameEnd, List.length_append, List.length_singleton]),
    splitFrom_name, hlen]

end QuotedMember

/-- The scanners agree unless the name or the value has a character in the way. -/
theorem member_agrees_iff (m : QuotedMember) :
    ScannersAgree m ↔
      (∀ c ∈ m.name, c ≠ 0x22 ∧ c ≠ 0x2C) ∧ m.chars.getLast? ≠ some 0x5C := by
  have hlt : m.nameEnd < m.upToValue.length := by
    have := m.length_upToValue
    omega
  constructor
  · intro h
    obtain ⟨strings, closing, result, split, hitem, hclosing, hsplit, hstart, hend⟩ := h []
    obtain ⟨strings', hitem', hclosing'⟩ := m.jsonItem_eq []
    obtain rfl : strings' = strings :=
      (Prod.mk.inj (Option.some.inj (hitem'.symm.trans hitem))).2
    obtain rfl : m.closing = closing := Option.some.inj (hclosing'.symm.trans hclosing)
    have hvalue : split.valueStart = m.upToValue.length := by
      rw [QuotedMember.opening] at hstart
      omega
    have hgood : ∀ c ∈ m.name, c ≠ 0x22 ∧ c ≠ 0x2C := by
      by_contra hbad
      push Not at hbad
      have hle := QuotedMember.jsonSplit_badName
        (hbad.imp fun c h => h.imp_right fun h => or_iff_not_imp_left.mpr h) hsplit
      dsimp only at hle
      omega
    refine ⟨hgood, fun hlast => ?_⟩
    rw [QuotedMember.jsonSplit_goodName hgood, m.splitFrom_value _ rfl, if_pos hlast] at hsplit
    -- behind its closing mark the value can only get longer
    have hle := splitFrom_quoted_le (by dsimp only; omega) hsplit
    rw [QuotedMember.closing, QuotedMember.opening] at hend
    dsimp only at hle
    omega
  · rintro ⟨hgood, hlast⟩ trailing
    obtain ⟨strings, hitem, hclosing⟩ := m.jsonItem_eq trailing
    refine ⟨strings, m.closing, _, _, hitem, hclosing,
      (QuotedMember.jsonSplit_goodName hgood).trans
        ((m.splitFrom_value _ rfl).trans (if_neg hlast)), rfl, ?_⟩
    dsimp only
    rw [QuotedMember.closing, QuotedMember.opening]
    omega

/-- **When strings in JSON are handled coherently**: a string is escaped and given back unless its
last character is written as `\u00XX`, the decoder stays within a text unless it has two or three
characters that end in the start of a `\u`, and the scanners agree about a quoted value unless it
ends in a '\' or the name of its member has a '"' or a ',' in it. -/
theorem jsonStrings_coherent_iff (s src : List Byte) (m : QuotedMember) :
    (EscapeUndone s ↔ ∀ c ∈ s.getLast?, ¬ HasLongEscape c) ∧
      (UnescapesWithin src ↔ ¬ Overreads src) ∧
      (ScannersAgree m ↔
        (∀ c ∈ m.name, c ≠ 0x22 ∧ c ≠ 0x2C) ∧ m.chars.getLast? ≠ some 0x5C) :=
  ⟨escapeUndone_iff s, unescapesWithin_iff src, member_agrees_iff m⟩

/-- The item `{"vs":"\\"}`. -/
def backslashMember : QuotedMember where
  before := []
  gap₀ := []
  name := [0x76, 0x73]
  gap₁ := []
  gap₂ := []
  chars := [0x5C, 0x5C]
  gap₃ := []
  after := []
  before_passed := .nil
  before_comma := .inl rfl
  gaps := by simp
  name_chars := .plain rfl (.plain rfl .nil)
  value_chars := .escape rfl .nil
  after_passed := .nil
  after_comma := .inl rfl

/-- **A string, a text and an item for which they are not.** -/
theorem jsonStrings_incoherent :
    ¬ EscapeUndone [0x01] ∧ ¬ UnescapesWithin [0x5C, 0x75] ∧ ¬ ScannersAgree backslashMember :=
  ⟨fun h => (escapeUndone_iff _).mp h 0x01 rfl (by decide),
    fun h => (unescapesWithin_iff _).mp h (.inl rfl),
    fun h => ((member_agrees_iff _).mp h).2 rfl⟩

end Lwm2m.Codec

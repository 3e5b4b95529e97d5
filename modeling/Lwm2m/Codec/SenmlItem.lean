/-
# SenML records and their base values

`prv_parseItem` of `data/senml_json.c`, with `json_convertNumeric` and `json_convertTime` of
`data/json_common.c`.

A base value stays in force for the records behind it, and is added to their numbers.  The sum is
stored in the type that the number of the record was read with: `int64_t` behind a '-', else
`uint64_t`.  A sum outside that type wraps, so base values are added exactly when it fits
(`exactSum_iff`).
-/

import Lwm2m.Codec.JsonMembers
import Lwm2m.Core.Notification
import Lwm2m.Core.NumberText
import Lwm2m.Core.UriText

namespace Lwm2m.Codec

open Core Library

/-! ### Members of a record -/

/-- The labels of the members that `prv_parseItem` reads. -/
inductive Label
  | baseName
  | baseTime
  | baseValue
  | baseVersion
  | name
  | time
  | value
  | booleanValue
  | dataValue
  | stringValue
  | objectLinkValue
  deriving DecidableEq, Repr

namespace Label

/-- "bn", "bt", "bv", "bver", "n", "t", "v", "vb", "vd", "vs" and "vlo". -/
def token : Label → List Byte
  | baseName => [0x62, 0x6E]
  | baseTime => [0x62, 0x74]
  | baseValue => [0x62, 0x76]
  | baseVersion => [0x62, 0x76, 0x65, 0x72]
  | name => [0x6E]
  | time => [0x74]
  | value => [0x76]
  | booleanValue => [0x76, 0x62]
  | dataValue => [0x76, 0x64]
  | stringValue => [0x76, 0x73]
  | objectLinkValue => [0x76, 0x6C, 0x6F]

/-- All labels. -/
def all : List Label :=
  [baseName, baseTime, baseValue, baseVersion, name, time, value, booleanValue, dataValue,
    stringValue, objectLinkValue]

/-- The value of the record is read from a member with this label. -/
def isValue : Label → Bool
  | value | booleanValue | dataValue | stringValue | objectLinkValue => true
  | _ => false

end Label

/-- The label of a token. -/
def labelOf (token : List Byte) : Option Label := Label.all.find? (·.token = token)

/-- What stands between the marks of a quoted value. -/
def unquoted (value : List Byte) : Option (List Byte) :=
  if value.length < 2 ∨ value.head? ≠ some 0x22 ∨ value.getLast? ≠ some 0x22 then none
  else some ((value.drop 1).take (value.length - 2))

/-- `JSON_TRUE_STRING`. -/
def jsonTrueString : CString := [0x74, 0x72, 0x75, 0x65]

/-- `JSON_FALSE_STRING`. -/
def jsonFalseString : CString := [0x66, 0x61, 0x6C, 0x73, 0x65]

/-- The comparisons with `JSON_TRUE_STRING` and `JSON_FALSE_STRING` over the length of the value. -/
def convertBoolean (value : List Byte) : Option Bool :=
  if lwm2mStrncmpEq jsonTrueString value value.length then some true
  else if lwm2mStrncmpEq jsonFalseString value value.length then some false
  else none

section strtod

variable (strtod : CString → Double × ℕ)

/-- `utils_textToFloat` with exponents allowed. -/
def utilsTextToFloatExponential (value : List Byte) : Option Double :=
  if value = [] then none
  else
    let (data, tail) := strtod (value.takeWhile (· ≠ 0))
    if tail = 0 then none else some data

/-- `json_convertNumeric`.  An item is shorter than 2 ^ 31 bytes, so the length is kept as an
`int`. -/
def jsonConvertNumeric (value : List Byte) : Option Leaf :=
  if value.any fun b => b = 0x2E || b = 0x65 || b = 0x45 then
    (utilsTextToFloatExponential strtod value).map .float
  else if value.head? = some 0x2D then
    (utilsTextToInt value value.length).map fun val => .integer (Int64.ofInt val)
  else (utilsTextToUInt value value.length).map .unsignedInteger

/-- The value of a record as a member gives it.  Strings and opaques are left as they are in the
text. -/
def leafOf : Label → List Byte → Option Leaf
  | .value, value => jsonConvertNumeric strtod value
  | .booleanValue, value => (convertBoolean value).map .boolean
  | .dataValue, value => (unquoted value).map .opaqueBytes
  | .stringValue, value => (unquoted value).map .string
  | .objectLinkValue, value => do
    let text ← unquoted value
    let (objectId, objectInstanceId) ← utilsTextToObjLink text text.length
    return .objectLink objectId objectInstanceId
  | _, _ => none

/-! ### Records -/

/-- What is carried from record to record: `baseUri` up to its NUL, and `*baseValue`.  The times are
checked, but nothing reads what they add up to, and they are left out. -/
structure PackState where
  baseUri : CString := []
  baseValue : Leaf := .undefined

/-- The variables of `prv_parseItem`, with the type and the value of the record. -/
structure ItemState where
  base : PackState
  name : Option (List Byte) := none
  value : Leaf := .undefined
  timeSeen : Bool := false
  bnSeen : Bool := false
  btSeen : Bool := false
  bvSeen : Bool := false
  bverSeen : Bool := false

/-- A member with this label was there already, or one that gives the value as well. -/
def ItemState.seen (state : ItemState) : Label → Bool
  | .baseName => state.bnSeen
  | .baseTime => state.btSeen
  | .baseValue => state.bvSeen
  | .baseVersion => state.bverSeen
  | .name => state.name.isSome
  | .time => state.timeSeen
  | _ => state.value ≠ .undefined

/-- An explicit 0 is converted to the implicit one; `none` for another type than a number. -/
def implicitZero : Leaf → Option Leaf
  | .integer value => some (if value = 0 then .undefined else .integer value)
  | .unsignedInteger value => some (if value = 0 then .undefined else .unsignedInteger value)
  | .float value =>
    -- 0.0 and -0.0
    some (if value.bits &&& 0x7FFFFFFFFFFFFFFF = 0 then .undefined else .float value)
  | _ => none

/-- `*baseValue` for a member "bv". -/
def convertBaseValue (value : List Byte) : Option Leaf :=
  if value = [] then some .undefined else (jsonConvertNumeric strtod value).bind implicitZero

/-- `baseUri` for a member "bn". -/
def convertBaseUri (value : List Byte) : Option CString := do
  let uri ← unquoted value
  if value.length ≥ 3 then
    if value.length = 3 ∧ uri.head? ≠ some 0x2F then none
    else if value.length > uriMaxStringLen then none
    else return uri.takeWhile (· ≠ 0)
  else return []

/-- A member with a label that was not there before. -/
def readLabel (state : ItemState) (value : List Byte) : Label → Option ItemState
  | .baseName =>
    (convertBaseUri value).map fun uri =>
      { state with bnSeen := true, base := { state.base with baseUri := uri } }
  | .baseTime =>
    (utilsTextToInt value value.length).map fun _ => { state with btSeen := true }
  | .baseValue =>
    (convertBaseValue strtod value).map fun leaf =>
      { state with bvSeen := true, base := { state.base with baseValue := leaf } }
  | .baseVersion =>
    -- only the default version (10) is supported
    if utilsTextToInt value value.length = some 10 then some { state with bverSeen := true }
    else none
  | .name => (unquoted value).map fun name => { state with name := some name }
  | .time => (utilsTextToInt value value.length).map fun _ => { state with timeSeen := true }
  | label => (leafOf strtod label value).map fun leaf => { state with value := leaf }

/-- One turn of the loop of `prv_parseItem`. -/
def readMember (state : ItemState) (m : Member) : Option ItemState :=
  if m.token.length = 0 then none
  else
    match labelOf m.token with
    | some label => if state.seen label then none else readLabel strtod state m.value label
    -- a label ending in '_' must be supported or generate an error
    | none => if m.token.getLast? = some 0x5F then none else some state

/-! ### Base values -/

/-- The `ids` of the record, as the levels of a URI. -/
def recordIds (baseUri : CString) (name : Option (List Byte)) : Except Fault (Option Uri) :=
  if baseUri = [] ∧ name = none then .ok (some {})
  else if baseUri.length > uriMaxStringLen then .ok none
  else
    let name := name.getD []
    if name.length ≠ 0 ∧ name.length + baseUri.length > uriMaxStringLen then .ok none
    else do
      let (length, uri) ← lwm2mStringToUri (baseUri ++ name)
      return if length = 0 then none else some uri

/-- The sum of two `int64_t`. -/
def addInt64 (x y : Int64) : Except Fault Int64 :=
  if -2 ^ 63 ≤ x.toInt + y.toInt ∧ x.toInt + y.toInt < 2 ^ 63 then .ok (x + y)
  else .error .signedOverflow

/-- The value of a record is combined with the base value. -/
def addBase (value base : Leaf) : Except Fault (Option Leaf) :=
  if base = .undefined then .ok (some value)
  else
    match value, base with
    | .undefined, _ => .ok (some base)
    | .integer x, .integer y => (addInt64 x y).map fun sum => some (.integer sum)
    | .integer x, .unsignedInteger y => .ok (some (.integer (x.toUInt64 + y).toInt64))
    | .integer x, .float y => .ok (some (.integer (x.toFloat + y.value).toInt64))
    | .unsignedInteger x, .integer y => .ok (some (.unsignedInteger (x + y.toUInt64)))
    | .unsignedInteger x, .unsignedInteger y => .ok (some (.unsignedInteger (x + y)))
    | .unsignedInteger x, .float y => .ok (some (.unsignedInteger (x.toFloat + y.value).toUInt64))
    | .float x, .integer y => .ok (some (.float ⟨(x.value + y.toFloat).toBits⟩))
    | .float x, .unsignedInteger y => .ok (some (.float ⟨(x.value + y.toFloat).toBits⟩))
    | .float x, .float y => .ok (some (.float ⟨(x.value + y.value).toBits⟩))
    | _, _ => .ok none

/-- `_record_t`, without the time. -/
structure ItemRecord where
  ids : Uri
  value : Leaf

/-- `prv_parseItem`: the record, and what is carried on; `none` is the return of -1. -/
def senmlParseItem (buffer : List Byte) (base : PackState) :
    Except Fault (Option (ItemRecord × PackState)) :=
  match readMembers (readMember strtod) buffer { base } with
  | none => .ok none
  | some state => do
    match ← recordIds state.base.baseUri state.name with
    | none => return none
    | some ids =>
      match ← addBase state.value state.base.baseValue with
      | none => return none
      | some value => return some ({ ids, value }, state.base)

/-- The records that `senml_json_parse` reads one after the other, from the first on: the items so
far, and what is carried to the next one.  The length of an item is an `int`, with its braces. -/
inductive Reached : List (List Byte) → PackState → Prop
  | start : Reached [] {}
  | item {items : List (List Byte)} {base base' : PackState} {buffer : List Byte}
    {record : ItemRecord} (h : Reached items base) (hlength : buffer.length + 2 < 2 ^ 31)
    (hparse : senmlParseItem strtod buffer base = .ok (some (record, base'))) :
    Reached (items ++ [buffer]) base'

/-! ### What is written -/

/-- The value of the first member with a label. -/
def memberValue (label : Label) (buffer : List Byte) : Option (List Byte) :=
  (((members buffer).getD []).find? (·.token = label.token)).map (·.value)

/-- The value in force behind some items, as the last of them that has one writes it. -/
def textInForce (label : Label) (items : List (List Byte)) : Option (List Byte) :=
  (items.filterMap (memberValue label)).getLast?

/-- The integer that a base value writes; where there is none, it is 0. -/
def baseWritten : Option (List Byte) → Option ℤ
  | none => some 0
  | some text => integerWritten text

/-- The number of a value of an integer type. -/
def integerOf : Leaf → Option ℤ
  | .integer value => some value.toInt
  | .unsignedInteger value => some value.toNat
  | _ => none

/-- **A base value is added exactly**: for every item of every pack in which the record has this
number and this base value is in force, set in the item or in one before it, the record is rejected,
or its value is the sum. -/
def ExactSum (vText : List Byte) (bText : Option (List Byte)) : Prop :=
  ∀ items base buffer v b, Reached strtod items base → buffer.length + 2 < 2 ^ 31 →
    memberValue .value buffer = some vText → textInForce .baseValue (items ++ [buffer]) = bText →
    integerWritten vText = some v → baseWritten bText = some b →
    senmlParseItem strtod buffer base = .ok none ∨
      ∃ record base', senmlParseItem strtod buffer base = .ok (some (record, base')) ∧
        integerOf record.value = some (v + b)

end strtod

/-- The largest magnitude that is taken for a number, behind a '-' or not. -/
def magnitudeLimit (negative : Bool) : ℕ := if negative then 2 ^ 63 else 2 ^ 64 - 1

/-- The digits are not refused: they are taken for a number of 64 bits. -/
def IsRead (text : List Byte) : Prop :=
  ∃ m, ReadAs 0 (splitSign text).2 m ∧ m ≤ magnitudeLimit (splitSign text).1

/-- The number fits into `int64_t`, for a record whose number has a '-', or into `uint64_t`. -/
def InType (negative : Bool) (n : ℤ) : Prop :=
  if negative then -2 ^ 63 ≤ n ∧ n < 2 ^ 63 else 0 ≤ n ∧ n < 2 ^ 64

/-- The sum of the numbers fits into the type of the record's own number, when both are read. -/
def SumFits (vText : List Byte) (bText : Option (List Byte)) : Prop :=
  RoomInItem Label.value.token vText → (∀ text ∈ bText, RoomInItem Label.baseValue.token text) →
    ∀ v b, integerWritten vText = some v → baseWritten bText = some b →
      IsRead vText → (∀ text ∈ bText, IsRead text) → InType (splitSign vText).1 (v + b)

/-! ### The sum -/

variable {leaf : Leaf}

section

variable {strtod : CString → Double × ℕ} {text : List Byte} {negative negative' : Bool}
  {m k : ℕ} {n : ℤ}

/-- What digits are taken for is what they write, modulo 2 ^ 64. -/
theorem readAs_mod {digits : List Byte} (h : ReadAs k digits m) :
    m % 2 ^ 64 = digitsValue k digits % 2 ^ 64 := by
  induction h with
  | fits h _ => rw [h]
  | @wraps n m excess front rest h hexcess hrest ih =>
    rw [ih, digitsValue_append, h]
    exact digitsValue_mod (Nat.add_mod_left _ _).symm rest

/-- A number as it is read. -/
def numberLeaf (negative : Bool) (m : ℕ) : Leaf :=
  if negative then .integer (Int64.ofInt (-m)) else .unsignedInteger (UInt64.ofNat m)

theorem integerOf_numberLeaf (h : m ≤ magnitudeLimit negative) :
    integerOf (numberLeaf negative m) = some (signedInt negative m) := by
  cases negative with
  | true =>
    have hle : m ≤ 2 ^ 63 := h
    exact congrArg some (Int64.toInt_ofInt_of_le (by omega) (by omega))
  | false =>
    have hle : m ≤ 2 ^ 64 - 1 := h
    exact congrArg some (congrArg Nat.cast (UInt64.toNat_ofNat_of_lt' (by
      change m < 2 ^ 64
      omega)))

/-- The number of an integer that is written. -/
theorem jsonConvertNumeric_eq_some_iff (h : integerWritten text = some n) :
    jsonConvertNumeric strtod text = some leaf ↔
      ∃ m, ReadAs 0 (splitSign text).2 m ∧ m ≤ magnitudeLimit (splitSign text).1 ∧
        leaf = numberLeaf (splitSign text).1 m := by
  obtain ⟨_, hnatural, -⟩ := (integerWritten_eq_some_iff text n).mp h
  obtain ⟨⟨hne, hdigits⟩, -⟩ := naturalWritten_eq_some_iff.mp hnatural
  have hplain {digits : List Byte} (hall : digits.all isDigit) :
      (digits.any fun b => b = 0x2E || b = 0x65 || b = 0x45) = false := by
    rw [List.any_eq_false]
    intro b hb
    have hdigit := List.all_eq_true.mp hall b hb
    simp only [Bool.or_eq_true, decide_eq_true_eq, not_or]
    refine ⟨⟨?_, ?_⟩, ?_⟩ <;>
      · rintro rfl
        exact absurd hdigit (by decide)
  have hpos : (0 : ℤ) < text.length := by
    have : text ≠ [] := by
      rintro rfl
      exact hne rfl
    have := List.length_pos_of_ne_nil this
    omega
  by_cases hsign : text.head? = some 0x2D
  · have hsplit : splitSign text = (true, text.tail) := if_pos hsign
    rw [hsplit] at hdigits ⊢
    have hnone : (text.any fun b => b = 0x2E || b = 0x65 || b = 0x45) = false := by
      rw [← List.cons_head?_tail hsign, List.any_cons, hplain hdigits]
      rfl
    rw [jsonConvertNumeric, hnone, if_neg Bool.false_ne_true, if_pos hsign,
      Option.map_eq_some_iff]
    simp only [utilsTextToInt_eq_some_iff text _ hpos, Int.toNat_natCast, List.take_length,
      hsplit, textDigits_eq_some_iff]
    constructor
    · rintro ⟨_, ⟨result, ⟨-, hread⟩, hle, rfl⟩, rfl⟩
      exact ⟨result.toNat, hread, hle, rfl⟩
    · rintro ⟨m, hread, hle, rfl⟩
      have hm : (UInt64.ofNat m).toNat = m := UInt64.toNat_ofNat_of_lt' hread.lt
      exact ⟨-m, ⟨UInt64.ofNat m, ⟨hdigits, by rw [hm]; exact hread⟩, by rw [hm]; exact hle,
        by rw [hm]; rfl⟩, rfl⟩
  · have hsplit : splitSign text = (false, text) := if_neg hsign
    rw [hsplit] at hdigits ⊢
    rw [jsonConvertNumeric, hplain hdigits, if_neg Bool.false_ne_true, if_neg hsign,
      Option.map_eq_some_iff]
    simp only [utilsTextToUInt, if_neg hpos.ne', Int.toNat_natCast, List.take_length,
      textDigits_eq_some_iff]
    constructor
    · rintro ⟨result, ⟨-, hread⟩, rfl⟩
      refine ⟨result.toNat, hread, Nat.le_sub_one_of_lt result.toNat_lt, ?_⟩
      exact congrArg Leaf.unsignedInteger UInt64.ofNat_toNat.symm
    · rintro ⟨m, hread, -, rfl⟩
      have hm : (UInt64.ofNat m).toNat = m := UInt64.toNat_ofNat_of_lt' hread.lt
      exact ⟨UInt64.ofNat m, ⟨hdigits, by rw [hm]; exact hread⟩, rfl⟩

/-- The base value of a number: there is none for 0. -/
theorem implicitZero_numberLeaf {base : Leaf} (hk : k ≤ magnitudeLimit negative')
    (hbase : implicitZero (numberLeaf negative' k) = some base) :
    k = 0 ∧ base = .undefined ∨ k ≠ 0 ∧ base = numberLeaf negative' k := by
  cases negative' with
  | true =>
    have hle : k ≤ 2 ^ 63 := hk
    have hzero : Int64.ofInt (-k) = 0 ↔ k = 0 := by
      rw [← Int64.toInt_inj, Int64.toInt_ofInt_of_le (by omega) (by omega)]
      change (-(k : ℤ)) = 0 ↔ _
      omega
    change some (if Int64.ofInt (-k) = 0 then _ else _) = _ at hbase
    by_cases hk0 : k = 0
    · rw [if_pos (hzero.mpr hk0)] at hbase
      exact .inl ⟨hk0, (Option.some.inj hbase).symm⟩
    · rw [if_neg (mt hzero.mp hk0)] at hbase
      exact .inr ⟨hk0, (Option.some.inj hbase).symm⟩
  | false =>
    have hlt : k < 2 ^ 64 := by
      have hle : k ≤ 2 ^ 64 - 1 := hk
      omega
    have hzero : UInt64.ofNat k = 0 ↔ k = 0 := by
      rw [← UInt64.toNat_inj, UInt64.toNat_ofNat_of_lt' hlt]
      rfl
    change some (if UInt64.ofNat k = 0 then _ else _) = _ at hbase
    by_cases hk0 : k = 0
    · rw [if_pos (hzero.mpr hk0)] at hbase
      exact .inl ⟨hk0, (Option.some.inj hbase).symm⟩
    · rw [if_neg (mt hzero.mp hk0)] at hbase
      exact .inr ⟨hk0, (Option.some.inj hbase).symm⟩

theorem inType_signedInt (h : m ≤ magnitudeLimit negative) :
    InType negative (signedInt negative m) := by
  cases negative with
  | true =>
    have hle : m ≤ 2 ^ 63 := h
    change -2 ^ 63 ≤ (-(m : ℤ)) ∧ (-(m : ℤ)) < 2 ^ 63
    omega
  | false =>
    have hle : m ≤ 2 ^ 64 - 1 := h
    change 0 ≤ (m : ℤ) ∧ (m : ℤ) < 2 ^ 64
    omega

theorem bmod_emod_size (n : ℤ) : n.bmod (2 ^ 64) % 2 ^ 64 = n % 2 ^ 64 := by
  exact_mod_cast Int.bmod_emod (x := n) (m := 2 ^ 64)

/-- An `int64_t` is its `uint64_t` modulo 2 ^ 64. -/
theorem toInt_emod (x : Int64) : x.toInt % 2 ^ 64 = x.toUInt64.toNat % 2 ^ 64 := by
  have hbmod : x.toInt = (x.toUInt64.toNat : ℤ).bmod (2 ^ 64) := BitVec.toInt_eq_toNat_bmod ..
  rw [hbmod, bmod_emod_size]

/-- **What a sum is stored as**: a number of the type of the first one that is the sum modulo
2 ^ 64, unless two `int64_t` overflow. -/
theorem addBase_cases {base : Leaf} (hm : m ≤ magnitudeLimit negative)
    (hk : k ≤ magnitudeLimit negative')
    (hbase : implicitZero (numberLeaf negative' k) = some base) :
    (negative = true ∧ negative' = true ∧ 2 ^ 63 < m + k ∧
      addBase (numberLeaf negative m) base = .error .signedOverflow) ∨
    ∃ z r, addBase (numberLeaf negative m) base = .ok (some z) ∧ integerOf z = some r ∧
      InType negative r ∧ r % 2 ^ 64 = (signedInt negative m + signedInt negative' k) % 2 ^ 64 := by
  obtain ⟨rfl, rfl⟩ | ⟨-, rfl⟩ := implicitZero_numberLeaf hk hbase
  · refine .inr ⟨_, _, if_pos rfl, integerOf_numberLeaf hm, inType_signedInt hm, ?_⟩
    have hzero : signedInt negative' 0 = 0 := by cases negative' <;> rfl
    rw [hzero, Int.add_zero]
  have hm' := hm
  have hk' := hk
  cases negative with
  | true =>
    change m ≤ 2 ^ 63 at hm'
    have hx : (Int64.ofInt (-m)).toInt = -m := Int64.toInt_ofInt_of_le (by omega) (by omega)
    have htype (z : Int64) : InType true z.toInt := ⟨z.le_toInt, z.toInt_lt⟩
    cases negative' with
    | true =>
      change k ≤ 2 ^ 63 at hk'
      have hy : (Int64.ofInt (-k)).toInt = -k := Int64.toInt_ofInt_of_le (by omega) (by omega)
      have hadd : addBase (numberLeaf true m) (numberLeaf true k) =
          (addInt64 (Int64.ofInt (-m)) (Int64.ofInt (-k))).map fun sum => some (.integer sum) := rfl
      rw [hadd, addInt64, hx, hy]
      by_cases hfit : 2 ^ 63 < m + k
      · exact .inl ⟨rfl, rfl, hfit, by rw [if_neg (by omega)]; rfl⟩
      · refine .inr ⟨_, _, by rw [if_pos (by omega)]; rfl, rfl, htype _, ?_⟩
        rw [Int64.toInt_add, hx, hy, bmod_emod_size]
        rfl
    | false =>
      have hadd : addBase (numberLeaf true m) (numberLeaf false k) =
          .ok (some (.integer ((Int64.ofInt (-m)).toUInt64 + UInt64.ofNat k).toInt64)) := rfl
      refine .inr ⟨_, _, hadd, rfl, htype _, ?_⟩
      have hy := toInt_emod (UInt64.ofNat k).toInt64
      rw [UInt64.toUInt64_toInt64, UInt64.toNat_ofNat'] at hy
      rw [UInt64.toInt64_add, Int64.toInt64_toUInt64, Int64.toInt_add, hx, bmod_emod_size]
      change _ = (-(m : ℤ) + k) % 2 ^ 64
      omega
  | false =>
    change m ≤ 2 ^ 64 - 1 at hm'
    have hx : (UInt64.ofNat m).toNat = m := UInt64.toNat_ofNat_of_lt' (by
      change m < 2 ^ 64
      omega)
    have htype (z : UInt64) : InType false z.toNat :=
      ⟨Int.natCast_nonneg _, by exact_mod_cast z.toNat_lt⟩
    cases negative' with
    | true =>
      change k ≤ 2 ^ 63 at hk'
      have hy := toInt_emod (Int64.ofInt (-k))
      rw [Int64.toInt_ofInt_of_le (by omega) (by omega)] at hy
      refine .inr ⟨_, _, rfl, rfl, htype _, ?_⟩
      rw [UInt64.toNat_add, hx]
      change _ = ((m : ℤ) + -k) % 2 ^ 64
      omega
    | false =>
      have hy : (UInt64.ofNat k).toNat = k := UInt64.toNat_ofNat_of_lt' (by
        change k ≤ 2 ^ 64 - 1 at hk'
        change k < 2 ^ 64
        omega)
      refine .inr ⟨_, _, rfl, rfl, htype _, ?_⟩
      rw [UInt64.toNat_add, hx, hy]
      change _ = ((m : ℤ) + k) % 2 ^ 64
      omega

end

/-! ### What the members of an item store -/

section

variable {strtod : CString → Double × ℕ} {α : Type} {state state' : ItemState} {m : Member}
  {ms : List Member} {label : Label} {text token : List Byte}

theorem labelOf_eq_some_iff : labelOf token = some label ↔ token = label.token := by
  constructor
  · intro h
    have htoken := List.find?_some (p := fun l : Label => decide (l.token = token)) h
    exact (of_decide_eq_true htoken).symm
  · rintro rfl
    cases label <;> rfl

/-- What one turn does: a member without a known label changes nothing, and one with a label is read
when there was none of its kind before. -/
theorem readMember_eq_some (h : readMember strtod state m = some state') :
    ((∀ label : Label, m.token ≠ label.token) ∧ state' = state) ∨
      ∃ label : Label, m.token = label.token ∧ state.seen label = false ∧
        readLabel strtod state m.value label = some state' := by
  unfold readMember at h
  by_cases hempty : m.token.length = 0
  · rw [if_pos hempty] at h
    cases h
  rw [if_neg hempty] at h
  cases hlabel : labelOf m.token with
  | some label =>
    rw [hlabel] at h
    dsimp only at h
    split_ifs at h with hseen
    exact .inr ⟨label, labelOf_eq_some_iff.mp hlabel, Bool.eq_false_iff.mpr hseen, h⟩
  | none =>
    rw [hlabel] at h
    split_ifs at h
    refine .inl ⟨fun label htoken => ?_, (Option.some.inj h).symm⟩
    rw [labelOf_eq_some_iff.mpr htoken] at hlabel
    cases hlabel

variable (strtod α) in
/-- A variable that is stored at most once in an item, from a member with one of some labels. -/
structure Slot where
  writes : Label → Bool
  get : ItemState → α
  full : ItemState → Bool
  convert : Label → List Byte → Option α
  seen_eq : ∀ state label, writes label → state.seen label = full state
  stored : ∀ {state state' value label}, readLabel strtod state value label = some state' →
    writes label → convert label value = some (get state') ∧ full state'
  kept : ∀ {state state' value label}, readLabel strtod state value label = some state' →
    ¬ writes label → get state' = get state ∧ full state' = full state

namespace Slot

variable (slot : Slot strtod α)

/-- A member stores the variable. -/
def Writes (m : Member) (label : Label) : Prop := slot.writes label ∧ m.token = label.token

/-- **The variable behind the members**: it is as the member that stores it writes it, and as before
when there is none; when it was stored before, there is none. -/
theorem foldlM_readMember (h : ms.foldlM (readMember strtod) state = some state') :
    (∀ m ∈ ms, ∀ label, slot.Writes m label →
      slot.convert label m.value = some (slot.get state') ∧ slot.full state = false) ∧
    (slot.full state ∨ (∀ m ∈ ms, ∀ label, ¬ slot.Writes m label) →
      slot.get state' = slot.get state ∧ slot.full state' = slot.full state) := by
  induction ms generalizing state with
  | nil =>
    cases h
    exact ⟨fun m hm => absurd hm List.not_mem_nil, fun _ => ⟨rfl, rfl⟩⟩
  | cons m ms ih =>
    rw [List.foldlM_cons, Option.bind_eq_bind, Option.bind_eq_some_iff] at h
    obtain ⟨next, hread, hrest⟩ := h
    obtain ⟨hstored, hkept⟩ := ih hrest
    by_cases hwrites : ∃ label, slot.Writes m label
    · obtain ⟨label, hlabel, htoken⟩ := hwrites
      obtain ⟨hother, -⟩ | ⟨label', htoken', hseen, hread⟩ := readMember_eq_some hread
      · exact absurd htoken (hother label)
      have hsame : label = label' := by
        have heq := labelOf_eq_some_iff.mpr htoken
        rw [labelOf_eq_some_iff.mpr htoken'] at heq
        exact (Option.some.inj heq).symm
      subst hsame
      obtain ⟨hconvert, hfull⟩ := slot.stored hread hlabel
      have hempty : slot.full state = false := by rw [← slot.seen_eq state label hlabel, hseen]
      obtain ⟨hget, -⟩ := hkept (.inl hfull)
      refine ⟨fun m' hm' label' hwrites' => ⟨?_, hempty⟩, ?_⟩
      · rcases List.mem_cons.mp hm' with rfl | hm'
        · have heq := labelOf_eq_some_iff.mpr hwrites'.2
          rw [labelOf_eq_some_iff.mpr htoken] at heq
          obtain rfl := Option.some.inj heq
          rw [hget]
          exact hconvert
        · exact absurd hfull (by rw [(hstored m' hm' label' hwrites').2]; exact Bool.false_ne_true)
      · rintro (hbefore | hnone)
        · exact absurd hbefore (by rw [hempty]; exact Bool.false_ne_true)
        · exact absurd ⟨hlabel, htoken⟩ (hnone m List.mem_cons_self label)
    · have hsame : slot.get next = slot.get state ∧ slot.full next = slot.full state := by
        obtain ⟨-, rfl⟩ | ⟨label, htoken, -, hread⟩ := readMember_eq_some hread
        · exact ⟨rfl, rfl⟩
        · exact slot.kept hread fun hlabel => hwrites ⟨label, hlabel, htoken⟩
      refine ⟨fun m' hm' label hwrites' => ?_, fun hbefore => ?_⟩
      · rcases List.mem_cons.mp hm' with rfl | hm'
        · exact absurd ⟨label, hwrites'⟩ hwrites
        · rw [← hsame.2]
          exact hstored m' hm' label hwrites'
      · rw [← hsame.1, ← hsame.2]
        refine hkept (hbefore.imp (fun hfull => ?_) fun hnone m' hm' => ?_)
        · rw [hsame.2]
          exact hfull
        · exact hnone m' (List.mem_cons_of_mem m hm')

end Slot

/-! ### The value and the base value of a record -/

theorem jsonConvertNumeric_ne_undefined (h : jsonConvertNumeric strtod text = some leaf) :
    leaf ≠ .undefined := by
  unfold jsonConvertNumeric at h
  split_ifs at h <;>
    · obtain ⟨_, -, rfl⟩ := Option.map_eq_some_iff.mp h
      exact Leaf.noConfusion

theorem leafOf_ne_undefined (h : leafOf strtod label text = some leaf) :
    leaf ≠ .undefined := by
  cases label with
  | value => exact jsonConvertNumeric_ne_undefined h
  | booleanValue | dataValue | stringValue =>
    obtain ⟨_, -, rfl⟩ := Option.map_eq_some_iff.mp h
    exact Leaf.noConfusion
  | objectLinkValue =>
    obtain ⟨_, -, h⟩ := Option.bind_eq_some_iff.mp h
    obtain ⟨⟨objectId, objectInstanceId⟩, -, h⟩ := Option.bind_eq_some_iff.mp h
    cases h
    exact Leaf.noConfusion
  | _ => cases h

/-- The parts of the state that a label does not store are kept. -/
theorem readLabel_value (h : readLabel strtod state text label = some state')
    (hlabel : label.isValue) :
    ∃ leaf, leafOf strtod label text = some leaf ∧ state' = { state with value := leaf } := by
  cases label with
  | value | booleanValue | dataValue | stringValue | objectLinkValue =>
    obtain ⟨leaf, hleaf, rfl⟩ := Option.map_eq_some_iff.mp h
    exact ⟨leaf, hleaf, rfl⟩
  | _ => cases hlabel

variable (strtod) in
/-- The value of the record. -/
def valueSlot : Slot strtod Leaf where
  writes := Label.isValue
  get state := state.value
  full state := state.value ≠ .undefined
  convert := leafOf strtod
  seen_eq state label h := by
    cases label with
    | value | booleanValue | dataValue | stringValue | objectLinkValue => rfl
    | _ => cases h
  stored h hlabel := by
    obtain ⟨leaf, hleaf, rfl⟩ := readLabel_value h hlabel
    exact ⟨hleaf, decide_eq_true (leafOf_ne_undefined hleaf)⟩
  kept {_ _ _ label} h hlabel := by
    cases label with
    | baseName | baseTime | baseValue | name | time =>
      obtain ⟨_, -, rfl⟩ := Option.map_eq_some_iff.mp h
      exact ⟨rfl, rfl⟩
    | baseVersion =>
      rw [readLabel] at h
      split_ifs at h
      cases h
      exact ⟨rfl, rfl⟩
    | _ => exact absurd rfl hlabel

variable (strtod) in
/-- The base value. -/
def baseValueSlot : Slot strtod Leaf where
  writes label := label = .baseValue
  get state := state.base.baseValue
  full state := state.bvSeen
  convert _ := convertBaseValue strtod
  seen_eq state label h := by
    obtain rfl := of_decide_eq_true h
    rfl
  stored h hlabel := by
    obtain rfl := of_decide_eq_true hlabel
    obtain ⟨leaf, hleaf, rfl⟩ := Option.map_eq_some_iff.mp h
    exact ⟨hleaf, rfl⟩
  kept {_ _ _ label} h hlabel := by
    cases label with
    | baseName | baseTime | name | time | value | booleanValue | dataValue | stringValue
    | objectLinkValue =>
      obtain ⟨_, -, rfl⟩ := Option.map_eq_some_iff.mp h
      exact ⟨rfl, rfl⟩
    | baseVersion =>
      rw [readLabel] at h
      split_ifs at h
      cases h
      exact ⟨rfl, rfl⟩
    | baseValue => exact absurd rfl hlabel

variable {buffer : List Byte} {items : List (List Byte)} {n : ℤ} {bText : Option (List Byte)}

/-- A member that is found is one of the members. -/
theorem memberValue_eq_some (hmembers : members buffer = some ms)
    (h : memberValue label buffer = some text) :
    ∃ m ∈ ms, m.token = label.token ∧ m.value = text := by
  rw [memberValue, hmembers, Option.getD_some, Option.map_eq_some_iff] at h
  obtain ⟨m, hfind, rfl⟩ := h
  have htoken := List.find?_some (p := fun m : Member => decide (m.token = label.token)) hfind
  exact ⟨m, List.mem_of_find?_eq_some hfind, of_decide_eq_true htoken, rfl⟩

theorem memberValue_eq_none (hmembers : members buffer = some ms)
    (h : memberValue label buffer = none) : ∀ m ∈ ms, m.token ≠ label.token := by
  rw [memberValue, hmembers, Option.getD_some, Option.map_eq_none_iff, List.find?_eq_none] at h
  exact fun m hm => by simpa using h m hm

variable {ids : Uri} {b : ℤ} {negative : Bool} {vText : List Byte}

/-- **An item whose members are read**, and whose identifiers are. -/
theorem senmlParseItem_eq {base : PackState} (hmembers : members buffer = some ms)
    (hfold : ms.foldlM (readMember strtod) { base } = some state)
    (hids : recordIds state.base.baseUri state.name = .ok (some ids)) :
    senmlParseItem strtod buffer base =
      (addBase state.value state.base.baseValue).map fun value =>
        value.map fun value => ({ ids, value }, state.base) := by
  unfold senmlParseItem
  rw [readMembers_eq, hmembers, Option.bind_some, hfold]
  dsimp only
  rw [hids, ok_bind]
  cases addBase state.value state.base.baseValue with
  | error fault => rfl
  | ok value => cases value <;> rfl

theorem exists_recordIds (baseUri : CString) (name : Option (List Byte)) :
    ∃ ids, recordIds baseUri name = .ok ids := by
  unfold recordIds
  split_ifs
  · exact ⟨_, rfl⟩
  · exact ⟨_, rfl⟩
  · dsimp only
    split_ifs
    · exact ⟨_, rfl⟩
    · obtain ⟨length, uri, hread, -⟩ := exists_lwm2mStringToUri (baseUri ++ name.getD [])
      rw [hread]
      exact ⟨_, rfl⟩

/-- **What `prv_parseItem` makes of an item**: it returns -1, or the members are read into a state
of which the value is combined with the base value. -/
theorem senmlParseItem_cases (strtod : CString → Double × ℕ) (buffer : List Byte)
    (base : PackState) :
    senmlParseItem strtod buffer base = .ok none ∨
      ∃ ms state ids, members buffer = some ms ∧
        ms.foldlM (readMember strtod) { base } = some state ∧
        recordIds state.base.baseUri state.name = .ok (some ids) ∧
        senmlParseItem strtod buffer base =
          (addBase state.value state.base.baseValue).map fun value =>
            value.map fun value => ({ ids, value }, state.base) := by
  have hread := readMembers_eq (readMember strtod) buffer { base }
  cases hmembers : members buffer with
  | none =>
    rw [hmembers, Option.bind_none] at hread
    exact .inl (by rw [senmlParseItem, hread])
  | some ms =>
    rw [hmembers, Option.bind_some] at hread
    cases hfold : ms.foldlM (readMember strtod) { base } with
    | none =>
      rw [hfold] at hread
      exact .inl (by rw [senmlParseItem, hread])
    | some state =>
      obtain ⟨ids, hids⟩ := exists_recordIds state.base.baseUri state.name
      cases ids with
      | none =>
        rw [hfold] at hread
        refine .inl ?_
        rw [senmlParseItem, hread]
        dsimp only
        rw [hids]
        rfl
      | some ids =>
        exact .inr ⟨ms, state, ids, rfl, hfold, hids, senmlParseItem_eq hmembers hfold hids⟩

/-! ### The base value in force -/

/-- What is carried is what the text in force is converted to; without one, it is unset. -/
def Held (convert : List Byte → Option α) (unset : α) : Option (List Byte) → α → Prop
  | none, carried => carried = unset
  | some text, carried => convert text = some carried

theorem textInForce_concat (label : Label) (items : List (List Byte)) (buffer : List Byte) :
    textInForce label (items ++ [buffer]) =
      (memberValue label buffer).or (textInForce label items) := by
  unfold textInForce
  rw [List.filterMap_append, List.getLast?_append]
  cases h : memberValue label buffer with
  | none => simp [h]
  | some text => simp [h]

/-- **The value of an item** replaces the one in force. -/
theorem Slot.held_item (slot : Slot strtod α) (hlabel : ∀ l, slot.writes l = true ↔ l = label)
    {unset : α} (h : Held (slot.convert label) unset (textInForce label items) (slot.get state))
    (hmembers : members buffer = some ms)
    (hfold : ms.foldlM (readMember strtod) state = some state') :
    Held (slot.convert label) unset (textInForce label (items ++ [buffer])) (slot.get state') := by
  obtain ⟨hstored, hkept⟩ := slot.foldlM_readMember hfold
  rw [textInForce_concat]
  cases hvalue : memberValue label buffer with
  | some text =>
    obtain ⟨m, hm, htoken, rfl⟩ := memberValue_eq_some hmembers hvalue
    exact (hstored m hm label ⟨(hlabel label).mpr rfl, htoken⟩).1
  | none =>
    have hnone := memberValue_eq_none hmembers hvalue
    have hsame := hkept (.inr fun m hm l hwrites => by
      obtain rfl := (hlabel l).mp hwrites.1
      exact hnone m hm hwrites.2)
    rw [Option.none_or, hsame.1]
    exact h

/-- **Behind every record of every pack, the value in force is the one carried.** -/
theorem Slot.held_reached (slot : Slot strtod α) (hlabel : ∀ l, slot.writes l = true ↔ l = label)
    (carried : PackState → α) (hget : ∀ state, slot.get state = carried state.base)
    {base : PackState} (h : Reached strtod items base) :
    Held (slot.convert label) (carried {}) (textInForce label items) (carried base) := by
  induction h with
  | start => rfl
  | @item items base base' buffer record _ _ hparse ih =>
    obtain hnone | ⟨ms, state, ids, hmembers, hfold, -, hcombine⟩ :=
      senmlParseItem_cases strtod buffer base
    · rw [hnone] at hparse
      cases hparse
    · rw [hcombine] at hparse
      have hbase : base' = state.base := by
        obtain ⟨value, -, hvalue⟩ := map_eq_ok_iff.mp hparse
        obtain ⟨value, -, hvalue⟩ := Option.map_eq_some_iff.mp hvalue
        exact (Prod.mk.inj hvalue).2.symm
      rw [hbase, ← hget]
      exact slot.held_item hlabel (by rw [hget]; exact ih) hmembers hfold

theorem baseValueSlot_label (l : Label) :
    (baseValueSlot strtod).writes l = true ↔ l = .baseValue := decide_eq_true_iff

/-- What a number is read as. -/
theorem convertNumeric_written (hwritten : integerWritten text = some n)
    (h : jsonConvertNumeric strtod text = some leaf) :
    ∃ m d, m ≤ magnitudeLimit (splitSign text).1 ∧ leaf = numberLeaf (splitSign text).1 m ∧
      n = signedInt (splitSign text).1 d ∧ m % 2 ^ 64 = d % 2 ^ 64 ∧ IsRead text := by
  obtain ⟨m, hread, hm, rfl⟩ := (jsonConvertNumeric_eq_some_iff hwritten).mp h
  obtain ⟨d, hnatural, hsigned⟩ := (integerWritten_eq_some_iff text n).mp hwritten
  refine ⟨m, d, hm, rfl, hsigned.symm, ?_, m, hread, hm⟩
  rw [readAs_mod hread, (naturalWritten_eq_some_iff.mp hnatural).2]

/-- What the base value in force is carried as. -/
theorem baseHeld_written {base : Leaf} (hwritten : baseWritten bText = some b)
    (h : Held (convertBaseValue strtod) .undefined bText base) :
    ∃ negative k d, k ≤ magnitudeLimit negative ∧
      implicitZero (numberLeaf negative k) = some base ∧ b = signedInt negative d ∧
      k % 2 ^ 64 = d % 2 ^ 64 ∧ ∀ text ∈ bText, IsRead text := by
  cases bText with
  | none =>
    refine ⟨false, 0, 0, Nat.zero_le _, ?_, (Option.some.inj hwritten).symm, rfl,
      fun _ h => nomatch h⟩
    rw [show base = .undefined from h]
    rfl
  | some text =>
    have hne : text ≠ [] := by
      rintro rfl
      cases hwritten
    change convertBaseValue strtod text = some base at h
    rw [convertBaseValue, if_neg hne] at h
    obtain ⟨leaf, hleaf, hzero⟩ := Option.bind_eq_some_iff.mp h
    obtain ⟨k, d, hk, rfl, hb, hmod, hread⟩ := convertNumeric_written hwritten hleaf
    exact ⟨_, k, d, hk, hzero, hb, hmod, fun t ht => Option.some.inj ht ▸ hread⟩

theorem inType_unique {n' : ℤ} (h : InType negative n) (h' : InType negative n')
    (hmod : n % 2 ^ 64 = n' % 2 ^ 64) : n = n' := by
  cases negative with
  | true =>
    obtain ⟨hge, hlt⟩ : -2 ^ 63 ≤ n ∧ n < 2 ^ 63 := h
    obtain ⟨hge', hlt'⟩ : -2 ^ 63 ≤ n' ∧ n' < 2 ^ 63 := h'
    omega
  | false =>
    obtain ⟨hge, hlt⟩ : 0 ≤ n ∧ n < 2 ^ 64 := h
    obtain ⟨hge', hlt'⟩ : 0 ≤ n' ∧ n' < 2 ^ 64 := h'
    omega

theorem signedInt_mod {m d : ℕ} (h : m % 2 ^ 64 = d % 2 ^ 64) :
    signedInt negative m % 2 ^ 64 = signedInt negative d % 2 ^ 64 := by
  unfold signedInt
  split_ifs <;> omega

/-- **A sum that fits is exact.** -/
theorem exactSum_of_sumFits
    (hfits : ∀ v b, integerWritten vText = some v → baseWritten bText = some b →
      IsRead vText → (∀ text ∈ bText, IsRead text) → InType (splitSign vText).1 (v + b)) :
    ExactSum strtod vText bText := by
  intro items base buffer v b hreached hlength hvalue hbase hv hb
  obtain hnone | ⟨ms, state, ids, hmembers, hfold, -, hcombine⟩ :=
    senmlParseItem_cases strtod buffer base
  · exact .inl hnone
  refine .inr ?_
  obtain ⟨m, hm, htoken, rfl⟩ := memberValue_eq_some hmembers hvalue
  have hleaf := (((valueSlot strtod).foldlM_readMember hfold).1 m hm .value ⟨rfl, htoken⟩).1
  obtain ⟨x, d, hx, hxleaf, hvd, hxmod, hvread⟩ := convertNumeric_written hv hleaf
  have hcarried := (baseValueSlot strtod).held_reached baseValueSlot_label PackState.baseValue
    (fun _ => rfl) hreached
  have hheld := (baseValueSlot strtod).held_item baseValueSlot_label
    (show Held _ _ _ ((baseValueSlot strtod).get { base }) from hcarried) hmembers hfold
  change Held (convertBaseValue strtod) _ _ state.base.baseValue at hheld
  rw [hbase] at hheld
  obtain ⟨negative, k, e, hk, hzero, hbe, hkmod, hbread⟩ := baseHeld_written hb hheld
  have htype := hfits v b hv hb hvread hbread
  have hstate : state.value = numberLeaf (splitSign m.value).1 x := hxleaf
  rw [hcombine, hstate]
  obtain ⟨hneg, hneg', hlarge, -⟩ | ⟨z, r, hadd, hr, hrtype, hrmod⟩ := addBase_cases hx hk hzero
  · -- two numbers with a '-', which have 64 bits when their sum has
    rw [hneg] at hx hvd htype
    rw [hneg'] at hk hbe
    change x ≤ 2 ^ 63 at hx
    change k ≤ 2 ^ 63 at hk
    change v = -(d : ℤ) at hvd
    change b = -(e : ℤ) at hbe
    obtain ⟨hge, -⟩ : -2 ^ 63 ≤ v + b ∧ v + b < 2 ^ 63 := htype
    omega
  · refine ⟨{ ids, value := z }, state.base, by rw [hadd]; rfl, ?_⟩
    have hsum : r = v + b := by
      refine inType_unique hrtype htype (hrmod.trans ?_)
      rw [hvd, hbe, Int.add_emod, signedInt_mod hxmod, signedInt_mod hkmod, ← Int.add_emod]
    rw [← hsum]
    exact hr

/-! ### Packs with a base value and a number -/

theorem token_chars (label : Label) : ∀ c ∈ label.token, c ≠ 0x22 ∧ c ≠ 0x2C := by
  cases label <;> decide +kernel

/-- A member with a label that was not there before. -/
theorem readMember_label (htoken : m.token = label.token) (hseen : state.seen label = false) :
    readMember strtod state m = readLabel strtod state m.value label := by
  have hempty : m.token.length ≠ 0 := by
    rw [htoken]
    cases label <;> decide
  rw [readMember, if_neg hempty, labelOf_eq_some_iff.mpr htoken]
  dsimp only
  rw [hseen, if_neg Bool.false_ne_true]

/-- **An item of one member** with a label. -/
theorem senmlParseItem_member {base : PackState} (hwhole : WholeValue text)
    (hroom : RoomInItem label.token text)
    (hread : readLabel strtod { base } text label = some state)
    (hids : recordIds state.base.baseUri state.name = .ok (some ids)) :
    members (Member.text ⟨label.token, text⟩) = some [⟨label.token, text⟩] ∧
      senmlParseItem strtod (Member.text ⟨label.token, text⟩) base =
        (addBase state.value state.base.baseValue).map fun value =>
          value.map fun value => ({ ids, value }, state.base) := by
  have hmembers : members (Member.text ⟨label.token, text⟩) = some [⟨label.token, text⟩] :=
    members_text ⟨token_chars label, hwhole⟩ (Nat.lt_of_add_right_lt hroom)
  have hseen : ItemState.seen { base } label = false := by cases label <;> rfl
  have hfold : [Member.mk label.token text].foldlM (readMember strtod) { base } = some state := by
    rw [List.foldlM_cons, readMember_label rfl hseen, hread]
    rfl
  exact ⟨hmembers, senmlParseItem_eq hmembers hfold hids⟩

theorem memberValue_member (hmembers : members (Member.text ⟨label.token, text⟩) =
    some [⟨label.token, text⟩]) :
    memberValue label (Member.text ⟨label.token, text⟩) = some text := by
  rw [memberValue, hmembers]
  simp

/-- An integer is taken whole. -/
theorem wholeValue_integer (h : integerWritten text = some n) : WholeValue text := by
  obtain ⟨_, hnatural, -⟩ := (integerWritten_eq_some_iff text n).mp h
  obtain ⟨⟨hne, hdigits⟩, -⟩ := naturalWritten_eq_some_iff.mp hnatural
  have hdigit {c : Byte} (hc : isDigit c) :
      ¬ prvIsReserved c ∧ c ≠ 0x2C ∧ ¬ prvIsWhiteSpace c := by
    have hbytes : ∀ n < 256, isDigit (UInt8.ofNat n) → ¬ prvIsReserved (UInt8.ofNat n) ∧
        UInt8.ofNat n ≠ 0x2C ∧ ¬ prvIsWhiteSpace (UInt8.ofNat n) := by decide +kernel
    have hc' := hbytes c.toNat c.toNat_lt
    rw [UInt8.ofNat_toNat] at hc'
    exact hc' hc
  have hall {digits : List Byte} (h : digits.all isDigit) :
      ∀ d ∈ digits, d ≠ 0x2C ∧ ¬ prvIsWhiteSpace d :=
    fun d hd => (hdigit (List.all_eq_true.mp h d hd)).2
  by_cases hsign : text.head? = some 0x2D
  · have hsplit : splitSign text = (true, text.tail) := if_pos hsign
    rw [hsplit] at hdigits
    rw [← List.cons_head?_tail hsign]
    exact .plain (by decide) (by decide) (hall hdigits)
  · have hsplit : splitSign text = (false, text) := if_neg hsign
    rw [hsplit] at hne hdigits
    obtain ⟨c, rest, rfl⟩ := List.exists_cons_of_ne_nil hne
    rw [List.all_cons, Bool.and_eq_true] at hdigits
    obtain ⟨hreserved, -, hspace⟩ := hdigit hdigits.1
    exact .plain hreserved hspace (hall hdigits.2)

/-- **A base value that is read is in force** behind a pack. -/
theorem exists_reached (strtod : CString → Double × ℕ) (hb : baseWritten bText = some b)
    (hroom : ∀ text ∈ bText, RoomInItem Label.baseValue.token text)
    (hread : ∀ text ∈ bText, IsRead text) :
    ∃ items base, Reached strtod items base ∧ base.baseUri = [] ∧
      textInForce .baseValue items = bText := by
  cases bText with
  | none => exact ⟨[], {}, .start, rfl, rfl⟩
  | some text =>
    obtain ⟨k, hdigits, hk⟩ := hread text rfl
    have hleaf : jsonConvertNumeric strtod text = some (numberLeaf (splitSign text).1 k) :=
      (jsonConvertNumeric_eq_some_iff hb).mpr ⟨k, hdigits, hk, rfl⟩
    obtain ⟨base, hzero⟩ : ∃ base, implicitZero (numberLeaf (splitSign text).1 k) = some base := by
      cases (splitSign text).1 <;> exact ⟨_, rfl⟩
    have hne : text ≠ [] := by
      rintro rfl
      cases hb
    have hconvert : convertBaseValue strtod text = some base := by
      rw [convertBaseValue, if_neg hne, hleaf, Option.bind_some, hzero]
    have hlabel : readLabel strtod { base := {} } text .baseValue =
        some { base := { baseValue := base }, bvSeen := true } := by
      rw [readLabel, hconvert]
      rfl
    obtain ⟨hmembers, hparse⟩ := senmlParseItem_member (wholeValue_integer hb) (hroom text rfl)
      hlabel (show recordIds [] none = .ok (some {}) from rfl)
    have hadd : addBase .undefined base = .ok (some base) := by
      unfold addBase
      by_cases hundefined : base = .undefined
      · rw [if_pos hundefined, hundefined]
      · rw [if_neg hundefined]
    have hfirst : senmlParseItem strtod (Member.text ⟨Label.baseValue.token, text⟩) {} =
        .ok (some (⟨{}, base⟩, { baseValue := base })) := by
      rw [hparse]
      change (addBase .undefined base).map _ = _
      rw [hadd]
      rfl
    refine ⟨_, _, .item .start (hroom text rfl) hfirst, rfl, ?_⟩
    unfold textInForce
    rw [List.nil_append, List.filterMap_cons, memberValue_member hmembers]
    rfl

/-- **A sum that is exact fits.** -/
theorem sumFits_of_exactSum (hexact : ExactSum strtod vText bText) :
    SumFits vText bText := by
  intro hroom hbroom v b hv hb hvread hbread
  obtain ⟨items, base, hreached, huri, hbase⟩ := exists_reached strtod hb hbroom hbread
  obtain ⟨x, hdigits, hx⟩ := hvread
  have hleaf : jsonConvertNumeric strtod vText = some (numberLeaf (splitSign vText).1 x) :=
    (jsonConvertNumeric_eq_some_iff hv).mpr ⟨x, hdigits, hx, rfl⟩
  have hlabel : readLabel strtod { base } vText .value =
      some { base, value := numberLeaf (splitSign vText).1 x } := by
    change (jsonConvertNumeric strtod vText).map _ = _
    rw [hleaf]
    rfl
  obtain ⟨hmembers, hparse⟩ := senmlParseItem_member (wholeValue_integer hv) hroom hlabel
    (show recordIds base.baseUri none = .ok (some {}) by rw [huri]; rfl)
  have hnone : memberValue .baseValue (Member.text ⟨Label.value.token, vText⟩) = none := by
    rw [memberValue, hmembers]
    rfl
  have hbase' : textInForce .baseValue (items ++ [Member.text ⟨Label.value.token, vText⟩]) =
      bText := by
    rw [textInForce_concat, hnone, Option.none_or, hbase]
  have hheld := (baseValueSlot strtod).held_reached baseValueSlot_label PackState.baseValue
    (fun _ => rfl) hreached
  rw [hbase] at hheld
  obtain ⟨negative, k, e, hk, hzero, -, -, -⟩ := baseHeld_written hb hheld
  have hresult := hexact items base _ v b hreached hroom (memberValue_member hmembers) hbase' hv hb
  rw [hparse] at hresult
  obtain ⟨-, -, -, hadd⟩ | ⟨z, r, hadd, hr, hrtype, -⟩ := addBase_cases hx hk hzero
  · rw [hadd] at hresult
    obtain hresult | ⟨_, _, hresult, -⟩ := hresult <;> cases hresult
  · rw [hadd] at hresult
    obtain hresult | ⟨record, base', hresult, hsum⟩ := hresult
    · cases hresult
    · cases hresult
      rw [hr] at hsum
      rw [← Option.some.inj hsum]
      exact hrtype

/-- A value of an item has room in it. -/
theorem roomInItem_of_memberValue (hlength : buffer.length + 2 < 2 ^ 31)
    (h : memberValue label buffer = some text) : RoomInItem label.token text := by
  cases hmembers : members buffer with
  | none =>
    rw [memberValue, hmembers] at h
    cases h
  | some ms =>
    obtain ⟨m, hm, htoken, rfl⟩ := memberValue_eq_some hmembers h
    rw [← htoken]
    exact roomInItem_of_mem hlength hmembers hm

/-- The text in force is the value of a member of one of the items. -/
theorem exists_of_textInForce (h : textInForce label items = some text) :
    ∃ buffer ∈ items, memberValue label buffer = some text :=
  List.mem_filterMap.mp (List.mem_of_getLast? h)

theorem length_of_reached {base : PackState} (h : Reached strtod items base) :
    ∀ buffer ∈ items, buffer.length + 2 < 2 ^ 31 := by
  induction h with
  | start => exact List.forall_mem_nil _
  | item _ hlength _ ih =>
    exact List.forall_mem_append.mpr ⟨ih, List.forall_mem_singleton.mpr hlength⟩

/-- **When a base value is added exactly**: when the sum fits. -/
theorem exactSum_iff (strtod : CString → Double × ℕ) (vText : List Byte)
    (bText : Option (List Byte)) : ExactSum strtod vText bText ↔ SumFits vText bText := by
  refine ⟨sumFits_of_exactSum, fun hfits => ?_⟩
  intro items base buffer v b hreached hlength hvalue hbase
  have hroom : ∀ text ∈ bText, RoomInItem Label.baseValue.token text := by
    intro text htext
    obtain ⟨item, hitem, hmember⟩ := exists_of_textInForce (hbase.trans htext)
    refine roomInItem_of_memberValue ?_ hmember
    rcases List.mem_append.mp hitem with hitem | hitem
    · exact length_of_reached hreached item hitem
    · rw [List.mem_singleton.mp hitem]
      exact hlength
  exact exactSum_of_sumFits (hfits (roomInItem_of_memberValue hlength hvalue) hroom) items base
    buffer v b hreached hlength hvalue hbase

end

/-! ### Base values of a pack -/

/-- **A base value is never added to another value**: a record that is accepted with a string, an
opaque, a boolean or an object link has the value that its member gives. -/
def OthersKept (strtod : CString → Double × ℕ) : Prop :=
  ∀ buffer base record base' label text,
    senmlParseItem strtod buffer base = .ok (some (record, base')) → label.isValue →
    label ≠ .value → memberValue label buffer = some text →
    leafOf strtod label text = some record.value

/-- A value that is no number is kept or refused. -/
theorem addBase_other {value base z : Leaf} (h : addBase value base = .ok (some z))
    (hundefined : value ≠ .undefined) (hinteger : ∀ x, value ≠ .integer x)
    (hunsigned : ∀ x, value ≠ .unsignedInteger x) (hfloat : ∀ x, value ≠ .float x) : z = value := by
  unfold addBase at h
  by_cases hbase : base = .undefined
  · rw [if_pos hbase] at h
    cases h
    rfl
  · rw [if_neg hbase] at h
    cases value with
    | undefined => exact absurd rfl hundefined
    | integer x => exact absurd rfl (hinteger x)
    | unsignedInteger x => exact absurd rfl (hunsigned x)
    | float x => exact absurd rfl (hfloat x)
    | _ => cases h

theorem othersKept (strtod : CString → Double × ℕ) : OthersKept strtod := by
  intro buffer base record base' label text hparse hvalue hne htext
  obtain hnone | ⟨ms, state, ids, hmembers, hfold, -, hcombine⟩ :=
    senmlParseItem_cases strtod buffer base
  · rw [hnone] at hparse
    cases hparse
  obtain ⟨m, hm, htoken, rfl⟩ := memberValue_eq_some hmembers htext
  have hleaf := (((valueSlot strtod).foldlM_readMember hfold).1 m hm label ⟨hvalue, htoken⟩).1
  change leafOf strtod label m.value = some state.value at hleaf
  rw [hcombine] at hparse
  obtain ⟨z, hadd, hz⟩ := map_eq_ok_iff.mp hparse
  obtain ⟨z, rfl, hz⟩ := Option.map_eq_some_iff.mp hz
  cases hz
  have hkept : z = state.value := by
    refine addBase_other hadd (leafOf_ne_undefined hleaf) ?_ ?_ ?_
    all_goals
      rintro x hx
      rw [hx] at hleaf
      cases label with
      | value => exact hne rfl
      | booleanValue | dataValue | stringValue =>
        obtain ⟨_, -, h⟩ := Option.map_eq_some_iff.mp hleaf
        cases h
      | objectLinkValue =>
        obtain ⟨_, -, h⟩ := Option.bind_eq_some_iff.mp hleaf
        obtain ⟨⟨_, _⟩, -, h⟩ := Option.bind_eq_some_iff.mp h
        cases h
      | _ => cases hvalue
  rw [hkept]
  exact hleaf

/-- **Base values in packs.**  A base value in force is added exactly to a number if and only if the
sum fits into the type of that number or one of the two is not read, and it is never added to
another value. -/
theorem baseValues_exact_iff (strtod : CString → Double × ℕ) (vText : List Byte)
    (bText : Option (List Byte)) :
    (ExactSum strtod vText bText ↔ SumFits vText bText) ∧ OthersKept strtod :=
  ⟨exactSum_iff strtod vText bText, othersKept strtod⟩

/-- **The number 5 with the base value -6** is not added exactly. -/
theorem fiveMinusSix_wraps : ¬ ExactSum (fun _ => (⟨0⟩, 0)) [0x35] (some [0x2D, 0x36]) := by
  intro h
  have hroom {token text : List Byte} (htoken : token.length ≤ 2) (hlength : text.length ≤ 2) :
      RoomInItem token text := by
    rw [RoomInItem, length_text]
    dsimp only
    omega
  have htype := (exactSum_iff _ _ _).mp h (hroom (by decide) (by decide))
    (fun text htext => Option.some.inj htext ▸ hroom (by decide) (by decide)) 5 (-6) (by decide)
    (by decide) ⟨5, .fits (by decide) (by decide), by decide⟩
    (fun text htext => Option.some.inj htext ▸ ⟨6, .fits (by decide) (by decide), by decide⟩)
  exact absurd (show (0 : ℤ) ≤ 5 + -6 from htype.1) (by decide)

end Lwm2m.Codec

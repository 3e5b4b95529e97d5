/-
# The text of a SenML JSON record

What `prv_serializeData` of `data/senml_json.c` writes for a leaf, with `prv_serializeValue`,
`json_escapeString` of `data/json_common.c` and `utils_base64Encode`, `utils_objLinkToText` of
`core/utils.c`.

Every function is handed the room that is left behind the text so far.  `utils_floatToText` computes
with floating-point numbers and is a parameter (`FloatToText`).
-/

import Lwm2m.Codec.Tree
import Lwm2m.Core.Text
import Lwm2m.Library.JsonText
import Lwm2m.Library.RoomText

namespace Lwm2m.Codec

open Core Library RoomWriter

/-! ### Strings -/

/-- `prv_hexDigit`. -/
def prvHexDigit (value : Byte) : Byte :=
  let value := value &&& 0xF
  if value < 10 then 0x30 + value else 0x41 + value - 10

/-- What `json_escapeString` leaves for a byte. -/
def escapedByte (c : Byte) : List Byte :=
  if c < 0x20 then
    if c = 0x08 then [0x5C, 0x62]
    else if c = 0x0C then [0x5C, 0x66]
    else if c = 0x0A then [0x5C, 0x6E]
    else if c = 0x0D then [0x5C, 0x72]
    else if c = 0x09 then [0x5C, 0x74]
    else [0x5C, 0x75, 0x30, 0x30, prvHexDigit (c >>> 4), prvHexDigit c]
  else if c = 0x22 then [0x5C, 0x22]
  else if c = 0x5C then [0x5C, 0x5C]
  else [c]

/-- The loop of `json_escapeString` behind the bytes it has written; `none` is the return of 0. -/
def escapeLoop (dstLen : ℕ) : List Byte → List Byte → Option (List Byte)
  | dst, [] => some dst
  | dst, c :: src =>
    if dstLen - dst.length < (escapedByte c).length then none
    else escapeLoop dstLen (dst ++ escapedByte c) src

/-- `json_escapeString`. -/
def jsonEscapeString (dstLen : ℕ) (src : List Byte) : List Byte :=
  (escapeLoop dstLen [] src).getD []

/-- `b64Alphabet`. -/
def b64Alphabet : List Byte :=
  (List.range 26).map (fun i => UInt8.ofNat (0x41 + i)) ++
    (List.range 26).map (fun i => UInt8.ofNat (0x61 + i)) ++
    (List.range 10).map (fun i => UInt8.ofNat (0x30 + i)) ++ [0x2B, 0x2F]

/-- A digit of `b64Alphabet`; its indices are below 64. -/
def b64Digit (index : Byte) : Byte := b64Alphabet.getD index.toNat 0x41

/-- The loop of `utils_base64Encode`. -/
def base64Blocks : List Byte → List Byte
  | [] => []
  | [a] => [b64Digit (a >>> 2), b64Digit ((a &&& 0x03) <<< 4), 0x3D, 0x3D]
  | [a, b] =>
    [b64Digit (a >>> 2), b64Digit ((a &&& 0x03) <<< 4 ||| b >>> 4),
      b64Digit ((b &&& 0x0F) <<< 2), 0x3D]
  | a :: b :: c :: rest =>
    b64Digit (a >>> 2) :: b64Digit ((a &&& 0x03) <<< 4 ||| b >>> 4) ::
      b64Digit ((b &&& 0x0F) <<< 2 ||| c >>> 6) :: b64Digit (c &&& 0x3F) :: base64Blocks rest

/-- `utils_base64GetSize`. -/
def utilsBase64GetSize (dataLen : ℕ) : ℕ :=
  4 * (dataLen / 3) + if dataLen % 3 ≠ 0 then 4 else 0

/-- `utils_base64Encode`; nothing is written where it returns 0. -/
def utilsBase64Encode (data : List Byte) (bufferLen : ℕ) : List Byte :=
  if utilsBase64GetSize data.length > bufferLen then [] else base64Blocks data

/-- A conversion that left fewer bytes than it was given has failed. -/
def unlessShorter (value dst : List Byte) : Option (List Byte) :=
  if dst.length < value.length then none else some dst

/-! ### Values -/

/-- `prv_serializeValue` takes the text of a number for one when it starts like one. -/
def startsAsNumber : List Byte → Bool
  | [] => false
  | c :: rest => (c == 0x2D || isDigit c) && !(c == 0x2D && rest.head?.any (!isDigit ·))

/-- `utils_floatToText` with exponents allowed.  It shortens a text to the room it is handed, and a
text that starts like a number is one. -/
structure FloatToText where
  text : Double → List Byte
  write : Double → RoomWriter Byte
  leaves : ∀ value, LeavesText (write value) (some (text value))
  number : ∀ value, startsAsNumber (text value) → JsonNumber (text value)

/-- `utils_objLinkToText`. -/
def utilsObjLinkToText (objectId objectInstanceId : UInt16) : RoomWriter Byte :=
  sequence [utilsUintToText objectId.toNat, putText [0x3A], utilsUintToText objectInstanceId.toNat]

/-- `JSON_ITEM_STRING_BEGIN`: `"vs":"`. -/
def jsonItemStringBegin : List Byte := [0x22, 0x76, 0x73, 0x22, 0x3A, 0x22]

/-- `JSON_ITEM_NUM`: `"v":`. -/
def jsonItemNum : List Byte := [0x22, 0x76, 0x22, 0x3A]

/-- `JSON_ITEM_BOOL`: `"vb":`. -/
def jsonItemBool : List Byte := [0x22, 0x76, 0x62, 0x22, 0x3A]

/-- `JSON_ITEM_OPAQUE_BEGIN`: `"vd":"`. -/
def jsonItemOpaqueBegin : List Byte := [0x22, 0x76, 0x64, 0x22, 0x3A, 0x22]

/-- `JSON_ITEM_OBJECT_LINK_BEGIN`: `"vlo":"`. -/
def jsonItemObjectLinkBegin : List Byte := [0x22, 0x76, 0x6C, 0x6F, 0x22, 0x3A, 0x22]

/-- `JSON_TRUE_STRING` and `JSON_FALSE_STRING`. -/
def jsonBoolString (value : Bool) : List Byte :=
  if value then [0x74, 0x72, 0x75, 0x65] else [0x66, 0x61, 0x6C, 0x73, 0x65]

section

variable (w : FloatToText)

/-- `prv_serializeValue`. -/
def prvSerializeValue : Leaf → RoomWriter Byte
  | .undefined => fun _ => none
  | .string value | .coreLink value =>
    sequence [putText jsonItemStringBegin,
      fun room => unlessShorter value (jsonEscapeString room value), putText [0x22]]
  | .opaqueBytes value =>
    sequence [putText jsonItemOpaqueBegin,
      if value.length > 0 then fun room => unlessShorter value (utilsBase64Encode value room)
      else putText [], putText [0x22]]
  | .integer value => sequence [putText jsonItemNum, utilsIntToText value.toInt]
  | .unsignedInteger value => sequence [putText jsonItemNum, utilsUintToText value.toNat]
  | .float value =>
    sequence [putText jsonItemNum, fun room => (w.write value room).filter startsAsNumber]
  | .boolean value => putText (jsonItemBool ++ jsonBoolString value)
  | .objectLink objectId objectInstanceId =>
    sequence [putText jsonItemObjectLinkBegin, utilsObjLinkToText objectId objectInstanceId,
      putText [0x22]]

/-! ### Records -/

/-- `uri_depth_t`. -/
inductive UriDepth
  | none
  | object
  | objectInstance
  | resource
  | resourceInstance
  deriving DecidableEq, Repr

/-- The number of levels. -/
def UriDepth.toNat : UriDepth → ℕ
  | none => 0
  | object => 1
  | objectInstance => 2
  | resource => 3
  | resourceInstance => 4

instance : LT UriDepth := ⟨fun d d' => d.toNat < d'.toNat⟩

instance (d d' : UriDepth) : Decidable (d < d') := Nat.decLt _ _

/-- `JSON_BN_HEADER`: `"bn":"`. -/
def jsonBnHeader : List Byte := [0x22, 0x62, 0x6E, 0x22, 0x3A, 0x22]

/-- `JSON_ITEM_URI`: `"n":"`. -/
def jsonItemUri : List Byte := [0x22, 0x6E, 0x22, 0x3A, 0x22]

/-- The end of the name, for which two bytes must be left. -/
def putUriEnd (value : Leaf) : RoomWriter Byte := fun room =>
  if room < 2 then none else some (if value ≠ .undefined then [0x22, 0x2C] else [0x22])

/-- The branch of `prv_serializeData` for a leaf. -/
def prvSerializeLeaf (baseUriStr : List Byte) (baseLevel level : UriDepth)
    (parentUriStr : List Byte) (baseNameOutput : Bool) (id : UInt16) (value : Leaf) :
    RoomWriter Byte :=
  andThen
    (sequence [putText [0x7B],
      if ¬ baseNameOutput ∧ baseUriStr.length > 0 then
        putText (jsonBnHeader ++ baseUriStr ++ [0x22, 0x2C])
      else putText [],
      if baseUriStr.length = 0 ∨ level > baseLevel then
        sequence [putText jsonItemUri, putText parentUriStr, utilsIntToText id.toNat,
          putUriEnd value]
      else putText [],
      if value ≠ .undefined then prvSerializeValue w value else putText []])
    (putText [0x7D])

end

/-! ### What a writer leaves -/

theorem escapedByte_ne_nil (c : Byte) : escapedByte c ≠ [] := by
  unfold escapedByte
  split_ifs <;> exact List.cons_ne_nil _ _

theorem escapeLoop_eq (dstLen : ℕ) {dst : List Byte} (hdst : dst.length ≤ dstLen)
    (src : List Byte) : escapeLoop dstLen dst src =
      within dstLen (some (dst ++ src.flatMap escapedByte)) := by
  rw [within_some]
  induction src generalizing dst with
  | nil => rw [List.flatMap_nil, List.append_nil, if_pos hdst, escapeLoop]
  | cons c src ih =>
    rw [escapeLoop, List.flatMap_cons, ← List.append_assoc]
    by_cases h : dstLen - dst.length < (escapedByte c).length
    · rw [if_pos h, if_neg]
      simp only [List.length_append]
      omega
    · rw [if_neg h, ih (by rw [List.length_append]; omega)]

theorem length_le_escaped (src : List Byte) : src.length ≤ (src.flatMap escapedByte).length := by
  induction src with
  | nil => exact le_rfl
  | cons c src ih =>
    have := List.length_pos_iff.mpr (escapedByte_ne_nil c)
    rw [List.flatMap_cons, List.length_append, List.length_cons]
    omega

/-- A string is escaped, or the failure is noticed. -/
theorem leaves_jsonEscapeString (value : List Byte) :
    LeavesText (fun room => unlessShorter value (jsonEscapeString room value))
      (some (value.flatMap escapedByte)) := by
  have hlength := length_le_escaped value
  refine .of_within fun room => ?_
  unfold jsonEscapeString unlessShorter
  rw [escapeLoop_eq room (Nat.zero_le _), within_some, within_some, List.nil_append]
  by_cases h : (value.flatMap escapedByte).length ≤ room
  · rw [if_pos h, Option.getD_some, if_neg (Nat.not_lt.mpr hlength)]
  · rw [if_neg h, Option.getD_none, if_pos]
    -- only a string without bytes needs no room
    refine List.length_pos_iff.mpr fun hnil => h ?_
    rw [hnil]
    exact Nat.zero_le _

theorem length_base64Blocks (data : List Byte) :
    (base64Blocks data).length = utilsBase64GetSize data.length := by
  unfold utilsBase64GetSize
  induction data using base64Blocks.induct with
  | case1 => rfl
  | case2 a => simp [base64Blocks]
  | case3 a b => simp [base64Blocks]
  | case4 a b c rest ih =>
    rw [base64Blocks]
    simp only [List.length_cons, ih]
    split_ifs <;> omega

/-- Bytes are encoded, or the failure is noticed. -/
theorem leaves_utilsBase64Encode (value : List Byte) :
    LeavesText (if value.length > 0 then
        fun room => unlessShorter value (utilsBase64Encode value room)
      else putText []) (some (base64Blocks value)) := by
  by_cases hpos : value.length > 0
  · rw [if_pos hpos]
    have hlength : value.length ≤ (base64Blocks value).length := by
      rw [length_base64Blocks, utilsBase64GetSize]
      split_ifs <;> omega
    refine .of_within fun room => ?_
    unfold utilsBase64Encode unlessShorter
    rw [within_some, length_base64Blocks]
    by_cases h : utilsBase64GetSize value.length ≤ room
    · rw [if_neg (Nat.not_lt.mpr h), if_pos h, if_neg (Nat.not_lt.mpr hlength)]
    · rw [if_pos (Nat.not_le.mp h), if_neg h, List.length_nil, if_pos hpos]
  · rw [if_neg hpos, List.eq_nil_of_length_eq_zero (Nat.eq_zero_of_not_pos hpos)]
    exact .putText []

theorem leaves_utilsUintToText (data : ℕ) :
    LeavesText (utilsUintToText data) (some (decimal data)) :=
  .of_within fun room => by rw [utilsUintToText_eq, within_some]

/-- The text of a 64-bit integer needs a byte more than it takes when it is the least one. -/
theorem leaves_utilsIntToText {data : ℤ} (hmin : -2 ^ 63 ≤ data) (hmax : data < 2 ^ 63) :
    LeavesText (utilsIntToText data) (some (intText data)) where
  fits t room h hlt := by
    cases h
    exact utilsIntToText_of_lt hmin hmax hlt
  only t room h := by
    refine ⟨?_, fun _ => congrArg some (eq_intText h).symm⟩
    unfold utilsIntToText at h
    split_ifs at h with hneg hzero hmost hroom
    · rw [← Option.some.inj h]
      exact Nat.le_of_not_le hroom
    · obtain ⟨digits, hdigits, rfl⟩ := Option.map_eq_some_iff.mp h
      have := ((leaves_utilsUintToText _).only _ _ hdigits).1
      rw [List.length_cons]
      omega
    · exact ((leaves_utilsUintToText _).only _ _ h).1

/-! ### The text of a record -/

variable (w : FloatToText)

/-- The member of an object that a value is written as: its name and the text of the value.  There
is none for a number that is not finite. -/
def Leaf.member : Leaf → Option (List Byte × List Byte)
  | .undefined => none
  | .string value | .coreLink value => some ([0x76, 0x73], quoted (value.flatMap escapedByte))
  | .opaqueBytes value => some ([0x76, 0x64], quoted (base64Blocks value))
  | .integer value => some ([0x76], intText value.toInt)
  | .unsignedInteger value => some ([0x76], decimal value.toNat)
  | .float value =>
    if startsAsNumber (w.text value) then some ([0x76], w.text value) else none
  | .boolean value => some ([0x76, 0x62], jsonBoolString value)
  | .objectLink objectId objectInstanceId =>
    some ([0x76, 0x6C, 0x6F],
      quoted (decimal objectId.toNat ++ 0x3A :: decimal objectInstanceId.toNat))

theorem leaves_prvSerializeValue (value : Leaf) : LeavesText (prvSerializeValue w value)
    ((value.member w).map fun m => jsonMember m.1 m.2) := by
  have hquoted {start text : List Byte} {write : RoomWriter Byte}
      (h : LeavesText write (some text)) :
      LeavesText (sequence [putText start, write, putText [0x22]])
        (some (start ++ (text ++ [0x22]))) := by
    exact .cons (.putText start) (.cons h (.cons (.putText [0x22]) .nil))
  have hnumber {text : Option (List Byte)} {write : RoomWriter Byte} (h : LeavesText write text) :
      LeavesText (sequence [putText jsonItemNum, write]) (text.map (jsonItemNum ++ ·)) :=
    .cons (.putText _) (.singleton h)
  cases value with
  | undefined => exact ⟨fun _ _ h => (nomatch h), fun _ _ h => (nomatch h)⟩
  | string value | coreLink value => exact hquoted (leaves_jsonEscapeString value)
  | opaqueBytes value => exact hquoted (leaves_utilsBase64Encode value)
  | integer value =>
    exact hnumber (leaves_utilsIntToText (Int64.le_toInt value) (Int64.toInt_lt value))
  | unsignedInteger value => exact hnumber (leaves_utilsUintToText _)
  | boolean value => exact .putText _
  | objectLink objectId objectInstanceId =>
    exact hquoted (.cons (leaves_utilsUintToText _) (.cons (.putText [0x3A])
      (.singleton (leaves_utilsUintToText _))))
  | float value =>
    have hfloat : LeavesText (fun room => (w.write value room).filter startsAsNumber)
        (if startsAsNumber (w.text value) then some (w.text value) else none) := by
      obtain ⟨hfits, honly⟩ := w.leaves value
      constructor
      · intro t room h hlt
        split_ifs at h with hstarts
        cases h
        rw [hfits _ room rfl hlt, Option.filter_some, if_pos hstarts]
      · intro t room h
        obtain ⟨hwrite, hstarts⟩ := Option.filter_eq_some_iff.mp h
        obtain ⟨hle, htext⟩ := honly t room hwrite
        refine ⟨hle, fun hlt => ?_⟩
        rw [Option.some.inj (htext hlt), if_pos hstarts]
    have := hnumber hfloat
    by_cases hstarts : startsAsNumber (w.text value)
    · rw [if_pos hstarts] at this
      rw [show (Leaf.float value).member w = some ([0x76], w.text value) from if_pos hstarts]
      exact this
    · rw [if_neg hstarts] at this
      rw [show (Leaf.float value).member w = none from if_neg hstarts]
      exact this

/-- The text that the branch for a leaf writes for a leaf of this name. -/
def leafText (baseUriStr : List Byte) (baseLevel level : UriDepth) (baseNameOutput : Bool)
    (name : List Byte) (value : Leaf) : Option (List Byte) :=
  let bn := if ¬ baseNameOutput ∧ baseUriStr.length > 0 then
    jsonMember [0x62, 0x6E] (quoted baseUriStr) ++ [0x2C] else []
  let n := if baseUriStr.length = 0 ∨ level > baseLevel then
    jsonMember [0x6E] (quoted name) ++ if value ≠ .undefined then [0x2C] else [] else []
  let v := if value ≠ .undefined then (value.member w).map fun m => jsonMember m.1 m.2 else some []
  v.map fun v => 0x7B :: (bn ++ n ++ v ++ [0x7D])

/-- **A leaf is written exactly** when its text fits. -/
theorem prvSerializeLeaf_eq (baseUriStr : List Byte) (baseLevel level : UriDepth)
    (parentUriStr : List Byte) (baseNameOutput : Bool) (id : UInt16) (value : Leaf) (room : ℕ) :
    prvSerializeLeaf w baseUriStr baseLevel level parentUriStr baseNameOutput id value room =
      within room (leafText w baseUriStr baseLevel level baseNameOutput
        (parentUriStr ++ decimal id.toNat) value) := by
  have hend : LeavesText (putUriEnd value)
      (some (0x22 :: if value ≠ .undefined then [0x2C] else [])) := by
    unfold putUriEnd
    constructor
    · intro t room h hlt
      cases h
      rw [if_neg]
      · split_ifs <;> rfl
      · split_ifs at hlt <;> simp at hlt <;> omega
    · intro t room h
      split_ifs at h with hroom hvalue <;> cases h
      · exact ⟨Nat.not_lt.mp hroom, fun _ => by rw [if_pos hvalue]⟩
      · exact ⟨Nat.le_of_lt (Nat.not_lt.mp hroom), fun _ => by rw [if_neg hvalue]⟩
  have hid : LeavesText (utilsIntToText id.toNat) (some (decimal id.toNat)) := by
    rw [funext fun room => utilsIntToText_natCast id.toNat room]
    exact leaves_utilsUintToText _
  have hname : LeavesText (if baseUriStr.length = 0 ∨ level > baseLevel then
      sequence [putText jsonItemUri, putText parentUriStr, utilsIntToText id.toNat, putUriEnd value]
      else putText []) (some (if baseUriStr.length = 0 ∨ level > baseLevel then
        jsonMember [0x6E] (quoted (parentUriStr ++ decimal id.toNat)) ++
          if value ≠ .undefined then [0x2C] else [] else [])) := by
    by_cases hnamed : baseUriStr.length = 0 ∨ level > baseLevel
    · rw [if_pos hnamed, if_pos hnamed]
      have htext : jsonMember [0x6E] (quoted (parentUriStr ++ decimal id.toNat)) ++
          (if value ≠ .undefined then [0x2C] else []) = jsonItemUri ++ (parentUriStr ++
            (decimal id.toNat ++ (0x22 :: if value ≠ .undefined then [0x2C] else []))) := by
        simp [jsonMember, jsonItemUri, quoted]
      rw [htext]
      exact .cons (.putText _) (.cons (.putText _) (.cons hid (.singleton hend)))
    · rw [if_neg hnamed, if_neg hnamed]
      exact .putText []
  have hbase : LeavesText (if ¬ baseNameOutput ∧ baseUriStr.length > 0 then
      putText (jsonBnHeader ++ baseUriStr ++ [0x22, 0x2C]) else putText [])
      (some (if ¬ baseNameOutput ∧ baseUriStr.length > 0 then
        jsonMember [0x62, 0x6E] (quoted baseUriStr) ++ [0x2C] else [])) := by
    split_ifs
    · have htext : jsonBnHeader ++ baseUriStr ++ [0x22, 0x2C] =
          jsonMember [0x62, 0x6E] (quoted baseUriStr) ++ [0x2C] := by
        simp [jsonBnHeader, jsonMember, quoted]
      rw [htext]
      exact .putText _
    · exact .putText []
  have hvalue : LeavesText (if value ≠ .undefined then prvSerializeValue w value else putText [])
      (if value ≠ .undefined then (value.member w).map fun m => jsonMember m.1 m.2
        else some []) := by
    split_ifs
    · exact leaves_prvSerializeValue w value
    · exact .putText []
  have hall := (LeavesText.cons (.putText [0x7B]) (.cons hbase (.cons hname (.singleton hvalue))))
  unfold prvSerializeLeaf leafText
  rw [hall.andThen_putText]
  simp only [Option.map_map]
  refine congrArg (within room) (congrArg (Option.map · _) (funext fun v => ?_))
  simp only [Function.comp_apply, List.nil_append, List.cons_append, List.append_assoc]

/-! ### Records are JSON -/

theorem isHexDigit_prvHexDigit (value : Byte) : isHexDigit (prvHexDigit value) := by
  have h : ∀ n : Fin 256, isHexDigit (prvHexDigit (UInt8.ofNat n)) := by
    decide +kernel
  have := h ⟨value.toNat, value.toNat_lt⟩
  rwa [UInt8.ofNat_toNat] at this

theorem jsonChars_escapedByte (c : Byte) : JsonChars (escapedByte c) := by
  unfold escapedByte
  split_ifs with hlow _ _ _ _ _ hquote hslash
  iterate 5 exact .escape (by decide) .nil
  · refine .unicode ?_ .nil
    simp only [List.all_cons, List.all_nil, isHexDigit_prvHexDigit]
    decide
  · exact .escape (by decide) .nil
  · exact .escape (by decide) .nil
  · refine .plain ?_ .nil
    rw [isJsonPlain, Bool.and_eq_true, Bool.and_eq_true]
    exact ⟨⟨decide_eq_true (UInt8.not_lt.mp hlow), decide_eq_true hquote⟩, decide_eq_true hslash⟩

theorem jsonChars_escaped (src : List Byte) : JsonChars (src.flatMap escapedByte) := by
  induction src with
  | nil => exact .nil
  | cons c src ih => exact (jsonChars_escapedByte c).append ih

theorem isJsonPlain_b64Digit (index : Byte) : isJsonPlain (b64Digit index) := by
  have h : ∀ c ∈ b64Alphabet, isJsonPlain c := by decide +kernel
  unfold b64Digit
  rw [List.getD_eq_getElem?_getD]
  cases hc : b64Alphabet[index.toNat]? with
  | none => decide
  | some c => exact h c (List.mem_of_getElem? hc)

theorem isJsonPlain_base64Blocks (data : List Byte) : ∀ c ∈ base64Blocks data, isJsonPlain c := by
  have hpad : isJsonPlain 0x3D := by decide
  induction data using base64Blocks.induct with
  | case1 => exact fun c h => absurd h List.not_mem_nil
  | case2 a | case3 a b => simp [base64Blocks, isJsonPlain_b64Digit, hpad]
  | case4 a b c rest ih =>
    rw [base64Blocks]
    simp only [List.forall_mem_cons, isJsonPlain_b64Digit, true_and]
    exact ih

theorem isJsonPlain_decimal (n : ℕ) : ∀ c ∈ decimal n, isJsonPlain c :=
  fun _ h => isJsonPlain_of_isDigit (isDigit_of_mem_decimal h)

theorem jsonNumber_intText (data : ℤ) : JsonNumber (intText data) := by
  unfold intText
  split_ifs
  · exact jsonNumber_neg (jsonWhole_decimal _)
  · exact jsonNumber_whole (jsonWhole_decimal _)

/-- **A value is a member of an object.** -/
theorem Leaf.json_member {value : Leaf} {m : List Byte × List Byte} (h : value.member w = some m) :
    JsonChars m.1 ∧ Json m.2 := by
  have hname {name : List Byte} (h : name.all isJsonPlain = true) : JsonChars name :=
    jsonChars_of_plain (List.all_eq_true.mp h)
  cases value with
  | undefined => cases h
  | string value | coreLink value =>
    cases h
    exact ⟨hname rfl, .string (jsonChars_escaped value)⟩
  | opaqueBytes value =>
    cases h
    exact ⟨hname rfl, .string (jsonChars_of_plain (isJsonPlain_base64Blocks value))⟩
  | integer value =>
    cases h
    exact ⟨hname rfl, .number (jsonNumber_intText _)⟩
  | unsignedInteger value =>
    cases h
    exact ⟨hname rfl, .number (jsonNumber_whole (jsonWhole_decimal _))⟩
  | float value =>
    change (if startsAsNumber (w.text value) then some ([0x76], w.text value) else none) =
      some m at h
    split_ifs at h with hstarts
    cases h
    exact ⟨hname rfl, .number (w.number value hstarts)⟩
  | boolean value =>
    cases h
    refine ⟨hname rfl, .word ?_⟩
    cases value <;> decide
  | objectLink objectId objectInstanceId =>
    cases h
    refine ⟨hname rfl, .string (.append (jsonChars_of_plain (isJsonPlain_decimal _)) ?_)⟩
    exact .plain rfl (jsonChars_of_plain (isJsonPlain_decimal _))

end Lwm2m.Codec

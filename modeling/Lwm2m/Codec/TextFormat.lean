/-
# Values as text/plain

`prv_textSerialize` of `data/data.c` behind `lwm2m_data_serialize`, `lwm2m_data_parse` in the same
format, and `utils_textToObjLink` of `core/utils.c`.

What is written for a value is read back, with two kinds of exceptions.  An object link has its ':'
at the sixth byte of the buffer, so behind an object identifier of less than five digits there is
the NUL of `utils_intToText` in its place.  And the length of a text is returned as an `int`, and an
empty one is read back only where the platform has a block for it.
-/

import Lwm2m.Codec.Base64
import Lwm2m.Codec.TlvNumbers
import Lwm2m.Core.NumberBuffer
import Lwm2m.Core.ResponseFormat

namespace Lwm2m.Codec

open Core Library

/-! ### Writing -/

/-- What stands in the local buffers and in an allocated block before they are written. -/
structure Unwritten where
  intString : List Byte
  stringBuffer : List Byte
  block : ℕ → List Byte
  length_intString : intString.length = 32
  length_stringBuffer : stringBuffer.length = 11
  length_block : ∀ n, (block n).length = n

/-- A `size_t` as an `int`. -/
def asInt (n : ℕ) : ℤ := (Int32.ofNat n).toInt

/-- What `prv_textSerialize` returns, and the bytes of `*bufferP`. -/
abbrev Serialized := ℤ × Option (List Byte)

/-- The number that was printed is copied into a block. -/
def copyPrinted (printed : ℕ × List Byte) : Serialized :=
  if printed.1 = 0 then (-1, none) else (asInt printed.1, some (printed.2.take printed.1))

/-- `LWM2M_TYPE_OBJECT_LINK` of `prv_textSerialize`. -/
def serializeObjLink (m : Unwritten) (objectId objectInstanceId : UInt16) :
    Except Fault Serialized := do
  let (length, front) ← utilsIntToTextInto (Int64.ofNat objectId.toNat) (m.stringBuffer.take 5)
  if length = 0 then return (-1, none)
  else
    let stringBuffer ← storeByte (front ++ m.stringBuffer.drop 5) 5 0x3A
    let res := length + 1
    let (length, middle) ←
      utilsIntToTextInto (Int64.ofNat objectInstanceId.toNat) ((stringBuffer.drop res).take 5)
    if length = 0 then return (-1, none)
    else
      let stringBuffer := stringBuffer.take res ++ middle ++ stringBuffer.drop (res + 5)
      return (asInt (res + length), some (stringBuffer.take (res + length)))

section

variable (floatToText : Double → ℕ → Option (List Byte)) (emptyBlock : Bool) (m : Unwritten)

/-- `prv_textSerialize`.  `emptyBlock` tells whether `lwm2m_malloc` returns a block for the size 0;
blocks of other sizes are there. -/
def prvTextSerialize : Leaf → ℕ → Option (Except Fault Serialized)
  | .string value, _ | .coreLink value, _ =>
    if value.length = 0 ∧ ¬ emptyBlock then some (.ok (0, none))
    else some (.ok (asInt value.length, some value))
  | .integer value, _ => some ((utilsIntToTextInto value m.intString).map copyPrinted)
  | .unsignedInteger value, _ => some ((utilsUintToTextInto value m.intString).map copyPrinted)
  | .float value, _ =>
    match floatToText value 64 with
    | none => some (.ok (-1, none))
    | some floatString => some (.ok (asInt floatString.length, some floatString))
  | .boolean value, _ => some (.ok (1, some [if value then 0x31 else 0x30]))
  | .objectLink objectId objectInstanceId, _ =>
    some (serializeObjLink m objectId objectInstanceId)
  | .opaqueBytes value, fuel =>
    let length := utilsBase64GetSize value.length
    if length = 0 ∧ ¬ emptyBlock then some (.ok (0, none))
    else
      (utilsBase64EncodeInto value (m.block length) fuel).map fun encoded =>
        encoded.map fun (length, text) =>
          if length = 0 then (0, none) else (asInt length, some text)
  | .undefined, _ => some (.ok (-1, none))

/-- `lwm2m_data_serialize` in text/plain; `none` as well where another format is settled on. -/
def lwm2mDataSerializeText (support : FormatSupport) (uriP : Uri) (dataP : List Tree) (fuel : ℕ) :
    Option (Except Fault Serialized) :=
  match finalFormat support uriP dataP .text, dataP with
  | some .text, .leaf _ value :: _ => prvTextSerialize floatToText emptyBlock m value fuel
  | _, _ => none

end

/-! ### Reading -/

/-- `lwm2m_data_parse` in text/plain; `none` where it returns 0. -/
def lwm2mDataParseText (emptyBlock : Bool) (uriP : Uri) (buffer : List Byte) : Option Tree :=
  if ¬ uriP.isSetResource then none
  else if buffer.length = 0 ∧ ¬ emptyBlock then none
  else some (.leaf (if uriP.isSetResourceInstance then uriP.resourceInstanceId else uriP.resourceId)
    (.string buffer))

/-- `utils_textToObjLink`. -/
def utilsTextToObjLink (buffer : List Byte) (length : ℤ) : Option (UInt16 × UInt16) :=
  let sep := ((buffer.take length.toNat).takeWhile (· ≠ 0x3A)).length
  if sep = 0 ∨ (sep : ℤ) = length then none
  else do
    let object ← utilsTextToUInt buffer sep
    let inst ← utilsTextToUInt (buffer.drop (sep + 1)) (length - sep - 1)
    if object > 0xFFFF ∨ inst > 0xFFFF then none
    else return (object.toUInt16, inst.toUInt16)

/-- The decoder for the type of the value returns it from the leaf that was parsed. -/
def DecodesTo (parsed : Leaf) : Leaf → Prop
  | .string value => parsed = .string value
  | .integer value => lwm2mDataDecodeInt parsed = some value.toInt
  | .unsignedInteger value => lwm2mDataDecodeUint parsed = some value
  | .boolean value => lwm2mDataDecodeBool parsed = some value
  | .opaqueBytes value => ∃ text decodedSize, parsed = .string text ∧
      utilsBase64GetDecodedSize text = .ok decodedSize ∧
      ∀ bufferP, bufferP.length = decodedSize →
        utilsBase64Decode text bufferP = .ok (value.length, value)
  | .objectLink objectId objectInstanceId => ∃ text, parsed = .string text ∧
      utilsTextToObjLink text (asInt text.length) = some (objectId, objectInstanceId)
  | _ => False

/-- **The value is carried as text/plain**: for every URI of a resource and whatever stands in the
buffers, it is written and parsed back, and the decoder for its type returns it. -/
def CarriedAsText (floatToText : Double → ℕ → Option (List Byte)) (emptyBlock : Bool)
    (value : Leaf) : Prop :=
  ∀ (support : FormatSupport) (m : Unwritten) (uriP : Uri) (id : UInt16), uriP.isSetResource →
    ∃ result bufferP id' parsed,
      Ends (lwm2mDataSerializeText floatToText emptyBlock m support uriP [.leaf id value])
        (.ok (result, bufferP)) ∧ 0 ≤ result ∧
      lwm2mDataParseText emptyBlock uriP ((bufferP.getD []).take result.toNat) =
        some (.leaf id' parsed) ∧ DecodesTo parsed value

/-! ### One value -/

section

variable {floatToText : Double → ℕ → Option (List Byte)} {emptyBlock : Bool} {value : Leaf}
  {n : ℕ} {text : List Byte}

theorem asInt_of_lt (h : n < 2 ^ 31) : asInt n = n := Int32.toInt_ofNat_of_lt h

theorem asInt_lt (n : ℕ) : asInt n < 2 ^ 31 := Int32.toInt_lt _

/-- The length that is returned is congruent to the one of the text. -/
theorem asInt_emod (n k : ℕ) (hk : (2 ^ 32 : ℤ) % k = 0) : asInt n % k = (n : ℤ) % k := by
  have hsize : Int32.size = 2 ^ 32 := rfl
  have hbmod := Int.bmod_def (n : ℤ) (2 ^ 32)
  obtain ⟨c, hc⟩ := Int.dvd_of_emod_eq_zero hk
  rw [asInt, Int32.toInt_ofNat', hsize, hbmod]
  split_ifs
  · rw [show ((2 ^ 32 : ℕ) : ℤ) = k * c from hc, Int.emod_emod_of_dvd _ (Int.dvd_mul_right ..)]
  · rw [show ((2 ^ 32 : ℕ) : ℤ) = k * c from hc, Int.sub_mul_emod_self_left,
      Int.emod_emod_of_dvd _ (Int.dvd_mul_right ..)]

/-- What is asked of the text that is written for a value. -/
def ReadBackAs (emptyBlock : Bool) (value : Leaf) (written : Serialized) : Prop :=
  0 ≤ written.1 ∧ ((written.2.getD []).take written.1.toNat ≠ [] ∨ emptyBlock) ∧
    DecodesTo (.string ((written.2.getD []).take written.1.toNat)) value

/-- The format, the URI and the identifier do not matter. -/
theorem carriedAsText_iff : CarriedAsText floatToText emptyBlock value ↔
    ∀ m, ∃ written, Ends (prvTextSerialize floatToText emptyBlock m value) (.ok written) ∧
      ReadBackAs emptyBlock value written := by
  have hserialize (support m id) {uriP : Uri} (huri : uriP.isSetResource) :
      lwm2mDataSerializeText floatToText emptyBlock m support uriP [.leaf id value] =
        prvTextSerialize floatToText emptyBlock m value := by
    have hplain : IsPlain uriP [.leaf id value] := ⟨rfl, huri, rfl⟩
    funext fuel
    unfold lwm2mDataSerializeText finalFormat
    rw [if_neg fun h => h.2 hplain]
  constructor
  · intro h m
    have hsome : Uri.isSetResource ⟨3, 0, 0, 0xFFFF⟩ := by decide
    obtain ⟨result, bufferP, id, parsed, hends, hresult, hparse, hdecode⟩ :=
      h ⟨true, true, true, true⟩ m _ 0 hsome
    rw [hserialize _ _ _ hsome] at hends
    unfold lwm2mDataParseText at hparse
    rw [if_neg (not_not.mpr hsome)] at hparse
    by_cases hempty : ((bufferP.getD []).take result.toNat).length = 0 ∧ ¬ emptyBlock
    · rw [if_pos hempty] at hparse
      cases hparse
    · rw [if_neg hempty] at hparse
      cases hparse
      refine ⟨_, hends, hresult, ?_, hdecode⟩
      by_cases htext : (bufferP.getD []).take result.toNat = []
      · exact .inr (by_contra fun hblock => hempty ⟨by rw [htext]; rfl, hblock⟩)
      · exact .inl htext
  · intro h support m uriP id huri
    obtain ⟨⟨result, bufferP⟩, hends, hresult, htext, hdecode⟩ := h m
    have hparse : lwm2mDataParseText emptyBlock uriP ((bufferP.getD []).take result.toNat) =
        some (.leaf (if uriP.isSetResourceInstance then uriP.resourceInstanceId
          else uriP.resourceId) (.string ((bufferP.getD []).take result.toNat))) := by
      unfold lwm2mDataParseText
      rw [if_neg (not_not.mpr huri), if_neg]
      exact fun hempty =>
        htext.elim (fun hne => hne (List.length_eq_zero_iff.mp hempty.1)) hempty.2
    exact ⟨result, bufferP, _, _, (hserialize support m id huri).symm ▸ hends, hresult, hparse,
      hdecode⟩

/-- A text that is written whatever the buffers hold. -/
theorem carriedAsText_iff_of_ends {written : Serialized}
    (h : ∀ m, Ends (prvTextSerialize floatToText emptyBlock m value) (.ok written))
    (m : Unwritten) :
    CarriedAsText floatToText emptyBlock value ↔ ReadBackAs emptyBlock value written := by
  rw [carriedAsText_iff]
  constructor
  · intro hcarried
    obtain ⟨written', hends, hread⟩ := hcarried m
    cases hends.unique (h m)
    exact hread
  · exact fun hread m => ⟨written, h m, hread⟩

/-- A text of less than 2 ^ 31 bytes is the one that is parsed. -/
theorem readBackAs_iff_of_lt (h : text.length < 2 ^ 31) :
    ReadBackAs emptyBlock value (asInt text.length, some text) ↔
      (text ≠ [] ∨ emptyBlock) ∧ DecodesTo (.string text) value := by
  have htake : ((some text).getD []).take (asInt text.length).toNat = text := by
    rw [asInt_of_lt h, Int.toNat_natCast]
    exact List.take_length
  unfold ReadBackAs
  rw [htake, and_iff_right]
  rw [asInt_of_lt h]
  exact Int.natCast_nonneg _

/-! ### Strings and numbers -/

/-- Buffers that hold zeros. -/
def Unwritten.zeros : Unwritten where
  intString := List.replicate 32 0
  stringBuffer := List.replicate 11 0
  block n := List.replicate n 0
  length_intString := rfl
  length_stringBuffer := rfl
  length_block _ := List.length_replicate

/-- Fewer than 2 ^ 31 bytes are parsed. -/
theorem length_take_asInt (text : List Byte) (n : ℕ) :
    (text.take (asInt n).toNat).length < 2 ^ 31 := by
  have := asInt_lt n
  rw [List.length_take]
  omega

theorem string_carried_iff (value : List Byte) :
    CarriedAsText floatToText emptyBlock (.string value) ↔
      value.length < 2 ^ 31 ∧ (value ≠ [] ∨ emptyBlock) := by
  by_cases hempty : value.length = 0 ∧ ¬ emptyBlock
  · have hends m : Ends (prvTextSerialize floatToText emptyBlock m (.string value))
        (.ok (0, none)) := .congr (fun _ => if_pos hempty) (.const _)
    rw [carriedAsText_iff_of_ends hends .zeros]
    refine iff_of_false (fun h => ?_) fun h => ?_
    · exact h.2.1.elim (fun hne => hne rfl) hempty.2
    · exact h.2.elim (fun hne => hne (List.length_eq_zero_iff.mp hempty.1)) hempty.2
  · have hends m : Ends (prvTextSerialize floatToText emptyBlock m (.string value))
        (.ok (asInt value.length, some value)) := .congr (fun _ => if_neg hempty) (.const _)
    rw [carriedAsText_iff_of_ends hends .zeros]
    by_cases hlength : value.length < 2 ^ 31
    · rw [readBackAs_iff_of_lt hlength, and_iff_right hlength]
      exact and_iff_left rfl
    · refine iff_of_false (fun h => ?_) fun h => hlength h.1
      have hvalue : value.take (asInt value.length).toNat = value := Leaf.string.inj h.2.2
      have := length_take_asInt value value.length
      rw [hvalue] at this
      exact hlength this

/-- The copy of what was printed is read back when its text is. -/
theorem readBackAs_copyPrinted {result : ℕ} {string : List Byte} (hpos : 0 < result)
    (hlt : result < 2 ^ 31) (htext : string.take result = text) (hlength : text.length = result)
    (hdecode : DecodesTo (.string text) value) :
    ReadBackAs emptyBlock value (copyPrinted (result, string)) := by
  unfold copyPrinted
  rw [if_neg hpos.ne', htext, ← hlength, readBackAs_iff_of_lt (hlength ▸ hlt)]
  exact ⟨.inl (List.ne_nil_of_length_pos (hlength ▸ hpos)), hdecode⟩

theorem intText_length_pos (data : ℤ) : 0 < (intText data).length := by
  unfold intText
  split_ifs
  · exact Nat.succ_pos _
  · exact List.length_pos_of_ne_nil (decimal_ne_nil _)

theorem integer_carried (value : Int64) :
    CarriedAsText floatToText emptyBlock (.integer value) := by
  refine carriedAsText_iff.mpr fun m => ?_
  obtain ⟨result, string, hresult, hsame, hcase⟩ :=
    (printsInt_iff value m.intString).mpr (.inr (by rw [m.length_intString]; omega))
  have hle := intText_length_le value.le_toInt value.toInt_lt
  have hpos := intText_length_pos value.toInt
  obtain ⟨-, hfull⟩ | ⟨rfl, htext, -⟩ := hcase
  · rw [m.length_intString] at hfull
    split_ifs at hfull <;> omega
  · refine ⟨copyPrinted _, .congr (fun _ => ?_) (.const _), readBackAs_copyPrinted hpos
      (by omega) htext rfl ?_⟩
    · rw [prvTextSerialize, hresult]
      rfl
    · change lwm2mDataDecodeInt (.string (intText value.toInt)) = some value.toInt
      rw [lwm2mDataDecodeInt, Int32.toInt_ofNat_of_lt (by omega)]
      exact utilsTextToInt_intText value.le_toInt value.toInt_lt List.take_length

theorem unsignedInteger_carried (value : UInt64) :
    CarriedAsText floatToText emptyBlock (.unsignedInteger value) := by
  refine carriedAsText_iff.mpr fun m => ?_
  have hle := decimal_uint64_length_le value
  have hpos := List.length_pos_of_ne_nil (decimal_ne_nil value.toNat)
  have hbuffer := m.length_intString
  obtain ⟨back, hresult, -, -⟩ := utilsUintToTextInto_fits
    (show m.intString.length ≤ 2 ^ 31 by omega)
    (show (decimal value.toNat).length ≤ m.intString.length by omega)
  refine ⟨copyPrinted ((decimal value.toNat).length, decimal value.toNat ++ back),
    .congr (fun _ => ?_) (.const _),
    readBackAs_copyPrinted hpos (by omega) List.take_left rfl ?_⟩
  · rw [prvTextSerialize, hresult]
    rfl
  · change lwm2mDataDecodeUint (.string (decimal value.toNat)) = some value
    rw [lwm2mDataDecodeUint, Int32.toInt_ofNat_of_lt (by omega)]
    exact utilsTextToUInt_decimal List.take_length

theorem boolean_carried (value : Bool) :
    CarriedAsText floatToText emptyBlock (.boolean value) := by
  have hends m : Ends (prvTextSerialize floatToText emptyBlock m (.boolean value))
      (.ok (1, some [if value then 0x31 else 0x30])) := .const _
  rw [carriedAsText_iff_of_ends hends .zeros]
  cases value with
  | false | true => exact ⟨by decide, .inl (by decide), rfl⟩

/-! ### Bytes -/

theorem four_mul_blocksSize_le (text : List Byte) : 4 * blocksSize text ≤ 3 * text.length := by
  induction text using blocks_induction with
  | nil | one a => exact Nat.zero_le _
  | two a b => exact (by decide : 4 * 1 ≤ 3 * 2)
  | three a b c => exact (by decide : 4 * 2 ≤ 3 * 3)
  | last a b c d =>
    rw [blocksSize]
    split_ifs <;> simp
  | block a b c d rest hrest ih =>
    rw [blocksSize_block a b c d hrest]
    simp only [List.length_cons]
    omega

/-- A text decodes to no more bytes than its blocks stand for. -/
theorem length_le_blocksSize {value : List Byte}
    (h : DecodesTo (.string text) (.opaqueBytes value)) : value.length ≤ blocksSize text := by
  obtain ⟨text, decodedSize, heq, hsize, hdecode⟩ := h
  cases heq
  rw [utilsBase64GetDecodedSize_eq] at hsize
  cases hsize
  have hdecode := hdecode (List.replicate (blocksSize text) 0) List.length_replicate
  have hreturns := utilsBase64Decode_eq text (List.replicate (blocksSize text) 0)
  rw [if_neg (by rw [List.length_replicate]; exact lt_irrefl _), hdecode] at hreturns
  cases hblocks : decodedBlocks text with
  | none =>
    rw [hblocks] at hreturns
    obtain ⟨bufferP, hreturns⟩ := hreturns
    have hzero : value.length = 0 := (Prod.mk.inj (Except.ok.inj hreturns)).1
    exact hzero ▸ Nat.zero_le _
  | some bytes =>
    rw [hblocks] at hreturns
    exact (Prod.mk.inj (Except.ok.inj hreturns)).1.le

/-- The text of bytes is decoded to them. -/
theorem decodesTo_base64Blocks (value : List Byte) :
    DecodesTo (.string (base64Blocks value)) (.opaqueBytes value) := by
  have hsize := blocksSize_base64Blocks value
  refine ⟨_, blocksSize (base64Blocks value), rfl, utilsBase64GetDecodedSize_eq _,
    fun bufferP hbuffer => ?_⟩
  have hreturns := utilsBase64Decode_eq (base64Blocks value) bufferP
  rw [if_neg (Nat.not_lt.mpr hbuffer.ge), decodedBlocks_base64Blocks] at hreturns
  rw [hsize] at hbuffer
  change utilsBase64Decode _ _ = .ok (_, [] ++ value ++ bufferP.drop value.length) at hreturns
  rwa [hsize, ← hbuffer, List.drop_length, List.append_nil, List.nil_append, hbuffer] at hreturns

/-- The length that is returned for bytes is 0 or the one of their text. -/
theorem fst_eq_of_prvTextSerialize {value : List Byte} {m : Unwritten} {fuel : ℕ}
    {written : Serialized}
    (h : prvTextSerialize floatToText emptyBlock m (.opaqueBytes value) fuel =
      some (.ok written)) :
    written.1 = 0 ∨ written.1 = asInt (utilsBase64GetSize value.length) := by
  have hencode {encoded : Except Fault (ℕ × List Byte)}
      (hrun : utilsBase64EncodeInto value (m.block (utilsBase64GetSize value.length)) fuel =
        some encoded) {length : ℕ} {buffer : List Byte} (hok : encoded = .ok (length, buffer)) :
      length = 0 ∨ length = utilsBase64GetSize value.length := by
    unfold utilsBase64EncodeInto at hrun
    split_ifs at hrun
    · cases hrun
      cases hok
      exact .inl rfl
    · obtain ⟨outcome, -, rfl⟩ := Option.map_eq_some_iff.mp hrun
      obtain ⟨buffer', -, hpair⟩ := map_eq_ok_iff.mp hok
      exact .inr (Prod.mk.inj hpair).1.symm
  change (if _ ∧ _ then _ else Option.map _ _) = _ at h
  split_ifs at h
  · cases h
    exact .inl rfl
  · obtain ⟨encoded, hrun, hwritten⟩ := Option.map_eq_some_iff.mp h
    obtain ⟨⟨length, buffer⟩, hok, rfl⟩ := map_eq_ok_iff.mp hwritten
    dsimp only
    split_ifs with hzero
    · exact .inl rfl
    · exact .inr (congrArg asInt ((hencode hrun hok).resolve_left hzero))

theorem utilsBase64GetSize_eq (n : ℕ) : utilsBase64GetSize n = 4 * ((n + 2) / 3) := by
  unfold utilsBase64GetSize
  split_ifs with h <;> omega

theorem opaqueBytes_carried_iff (value : List Byte) :
    CarriedAsText floatToText emptyBlock (.opaqueBytes value) ↔
      utilsBase64GetSize value.length < 2 ^ 31 ∧ (value ≠ [] ∨ emptyBlock) := by
  have hnil : utilsBase64GetSize value.length = 0 ↔ value = [] := by
    rw [← List.length_eq_zero_iff, utilsBase64GetSize_eq]
    omega
  by_cases hempty : utilsBase64GetSize value.length = 0 ∧ ¬ emptyBlock
  · have hends m : Ends (prvTextSerialize floatToText emptyBlock m (.opaqueBytes value))
        (.ok (0, none)) := .congr (fun _ => if_pos hempty) (.const _)
    rw [carriedAsText_iff_of_ends hends .zeros]
    refine iff_of_false (fun h => ?_) fun h => ?_
    · exact h.2.1.elim (fun hne => hne rfl) hempty.2
    · exact h.2.elim (fun hne => hne (hnil.mp hempty.1)) hempty.2
  · by_cases hlength : utilsBase64GetSize value.length < 2 ^ 31
    · rw [and_iff_right hlength]
      have hshort : value.length ≤ 3 * 2 ^ 30 := by
        rw [utilsBase64GetSize_eq] at hlength
        omega
      have hends m : Ends (prvTextSerialize floatToText emptyBlock m (.opaqueBytes value))
          (.ok (if utilsBase64GetSize value.length = 0 then (0, none) else
            (asInt (utilsBase64GetSize value.length), some (base64Blocks value)))) :=
        .congr (fun _ => if_neg hempty)
          ((utilsBase64EncodeInto_ends (m.length_block _) hshort).map _)
      rw [carriedAsText_iff_of_ends hends .zeros]
      by_cases hzero : utilsBase64GetSize value.length = 0
      · obtain rfl := hnil.mp hzero
        have hblock : emptyBlock := not_not.mp fun hblock => hempty ⟨hzero, hblock⟩
        rw [if_pos hzero]
        exact iff_of_true ⟨le_rfl, .inr hblock, decodesTo_base64Blocks []⟩ (.inr hblock)
      · rw [if_neg hzero]
        have hsize := length_base64Blocks value
        rw [← hsize, readBackAs_iff_of_lt (hsize ▸ hlength)]
        have hne : base64Blocks value ≠ [] := fun h => hzero (by rw [← hsize, h]; rfl)
        exact iff_of_true ⟨.inl hne, decodesTo_base64Blocks value⟩
          (.inl fun hvalue => hzero (hnil.mpr hvalue))
    · refine iff_of_false (fun h => ?_) fun h => hlength h.1
      obtain ⟨written, ⟨bound, hends⟩, -, -, hdecode⟩ := carriedAsText_iff.mp h .zeros
      -- fewer characters are parsed than the text of the bytes has
      have hle := length_le_blocksSize hdecode
      have hblocks := four_mul_blocksSize_le ((written.2.getD []).take written.1.toNat)
      rw [List.length_take] at hblocks
      have hlt := asInt_lt (utilsBase64GetSize value.length)
      have hfour := asInt_emod (utilsBase64GetSize value.length) 4 rfl
      have hresult := fst_eq_of_prvTextSerialize (hends bound le_rfl)
      simp only [utilsBase64GetSize_eq] at hlength hlt hfour hresult
      omega

/-! ### Object links -/

theorem decimal_uint16_length_le (id : UInt16) : (decimal id.toNat).length ≤ 5 :=
  decimal_length_le (by decide) (id.toNat_lt.trans (by decide))

/-- Five digits. -/
theorem decimal_length_eq_five_iff (id : UInt16) :
    (decimal id.toNat).length = 5 ↔ 10000 ≤ id.toNat := by
  constructor
  · intro h
    by_contra hlt
    have := decimal_length_le (d := 4) (by decide) (Nat.not_le.mp hlt)
    omega
  · intro h
    rw [decimal_of_le (by omega), decimal_of_le (by omega), decimal_of_le (by omega),
      decimal_of_le (by omega), decimal_of_lt (by have := id.toNat_lt; omega)]
    rfl

/-- An identifier is printed into five bytes, with a NUL behind less than five digits. -/
theorem utilsIntToTextInto_id (id : UInt16) {string : List Byte} (h : string.length = 5) :
    ∃ back, utilsIntToTextInto (Int64.ofNat id.toNat) string =
      .ok ((decimal id.toNat).length, decimal id.toNat ++ back) ∧
      (decimal id.toNat ++ back).length = 5 ∧
      ((decimal id.toNat).length < 5 → back.head? = some 0) := by
  have hlt := id.toNat_lt
  have hnonneg : ¬ Int64.ofNat id.toNat < 0 := by
    rw [Int64.not_lt, Int64.le_iff_toInt_le, Int64.toInt_ofNat_of_lt (by omega)]
    exact Int.natCast_nonneg _
  have hvalue : (Int64.ofNat id.toNat).toUInt64.toNat = id.toNat := by
    rw [Int64.toUInt64_ofNat', UInt64.toNat_ofNat_of_lt' (show id.toNat < 2 ^ 64 by omega)]
  have hdigits : (decimal (Int64.ofNat id.toNat).toUInt64.toNat).length ≤ string.length := by
    rw [hvalue, h]
    exact decimal_uint16_length_le id
  have hfits := utilsUintToTextInto_fits (by omega) hdigits
  rw [hvalue, h] at hfits
  rw [utilsIntToTextInto, if_neg hnonneg]
  exact hfits

/-- What stands between the identifiers. -/
def linkSeparator (objectId : UInt16) : Byte := if 10000 ≤ objectId.toNat then 0x3A else 0

/-- The text that is written for an object link. -/
def linkText (objectId objectInstanceId : UInt16) : List Byte :=
  decimal objectId.toNat ++ linkSeparator objectId :: decimal objectInstanceId.toNat

theorem length_linkText_le (objectId objectInstanceId : UInt16) :
    (linkText objectId objectInstanceId).length ≤ 11 := by
  have ho := decimal_uint16_length_le objectId
  have hi := decimal_uint16_length_le objectInstanceId
  rw [linkText, List.length_append, List.length_cons]
  omega

/-- **The object link is written with its separator at the sixth byte.** -/
theorem serializeObjLink_eq (m : Unwritten) (objectId objectInstanceId : UInt16) :
    serializeObjLink m objectId objectInstanceId =
      .ok (asInt (linkText objectId objectInstanceId).length,
        some (linkText objectId objectInstanceId)) := by
  have hbuffer := m.length_stringBuffer
  have hopos := List.length_pos_of_ne_nil (decimal_ne_nil objectId.toNat)
  have hipos := List.length_pos_of_ne_nil (decimal_ne_nil objectInstanceId.toNat)
  obtain ⟨back, hobject, hfive, hnul⟩ := utilsIntToTextInto_id objectId
    (show (m.stringBuffer.take 5).length = 5 by rw [List.length_take]; omega)
  obtain ⟨y, tail, hdrop⟩ : ∃ y tail, m.stringBuffer.drop 5 = y :: tail :=
    List.exists_cons_of_length_pos (by rw [List.length_drop]; omega)
  have htail : tail.length = 5 := by
    have := congrArg List.length hdrop
    rw [List.length_drop, List.length_cons] at this
    omega
  -- the bytes behind the digits: the NUL, or the ':'
  obtain ⟨rest, hrest, hlength⟩ : ∃ rest, back ++ 0x3A :: tail = linkSeparator objectId :: rest ∧
      5 ≤ rest.length := by
    rw [List.length_append] at hfive
    have hdigits := decimal_length_eq_five_iff objectId
    unfold linkSeparator
    cases back with
    | nil => exact ⟨tail, by rw [if_pos (hdigits.mp hfive)]; rfl, htail.ge⟩
    | cons c back =>
      rw [List.length_cons] at hfive
      have hc : c = 0 := Option.some.inj (hnul (by omega))
      have hfew : ¬ 10000 ≤ objectId.toNat := fun h => by have := hdigits.mpr h; omega
      refine ⟨back ++ 0x3A :: tail, by rw [if_neg hfew, hc]; rfl, ?_⟩
      rw [List.length_append, List.length_cons]
      omega
  obtain ⟨back', hinstance, -, -⟩ := utilsIntToTextInto_id objectInstanceId
    (show (rest.take 5).length = 5 by rw [List.length_take]; omega)
  have hstore : storeByte (decimal objectId.toNat ++ back ++ y :: tail) 5 0x3A =
      .ok (decimal objectId.toNat ++ linkSeparator objectId :: rest) := by
    have := storeByte_append (decimal objectId.toNat ++ back) tail y 0x3A
    rw [hfive, List.append_assoc _ back (0x3A :: tail), hrest] at this
    exact this
  have hfront : decimal objectId.toNat ++ linkSeparator objectId :: rest =
      (decimal objectId.toNat ++ [linkSeparator objectId]) ++ rest := by simp
  have hres : (decimal objectId.toNat).length + 1 =
      (decimal objectId.toNat ++ [linkSeparator objectId]).length := by simp
  have htext : linkText objectId objectInstanceId =
      (decimal objectId.toNat ++ [linkSeparator objectId]) ++
        decimal objectInstanceId.toNat := by simp [linkText]
  unfold serializeObjLink
  rw [hobject, ok_bind]
  dsimp only
  rw [if_neg hopos.ne', hdrop, hstore, ok_bind, hfront, hres, List.drop_left, hinstance, ok_bind]
  rw [if_neg hipos.ne', List.take_left, ← List.append_assoc, ← htext, ← List.length_append,
    ← htext, List.append_assoc, List.take_left]
  rfl

theorem colon_notMem_decimal (n : ℕ) : (0x3A : Byte) ∉ decimal n := fun h =>
  absurd (isDigit_of_mem_decimal h) (by decide)

/-- The identifiers on the sides of a ':' are found. -/
theorem utilsTextToObjLink_colon (objectId objectInstanceId : UInt16) :
    utilsTextToObjLink (decimal objectId.toNat ++ 0x3A :: decimal objectInstanceId.toNat)
        ((decimal objectId.toNat).length + 1 + (decimal objectInstanceId.toNat).length : ℕ) =
      some (objectId, objectInstanceId) := by
  have hpos := List.length_pos_of_ne_nil (decimal_ne_nil objectId.toNat)
  have hall : ∀ c ∈ decimal objectId.toNat, decide (c ≠ 0x3A) = true := fun c hc =>
    decide_eq_true fun hcolon => colon_notMem_decimal _ (hcolon ▸ hc)
  have hsep : ((decimal objectId.toNat ++ 0x3A :: decimal objectInstanceId.toNat).take
      ((decimal objectId.toNat).length + 1 + (decimal objectInstanceId.toNat).length)).takeWhile
        (· ≠ 0x3A) = decimal objectId.toNat := by
    rw [List.take_of_length_le (by rw [List.length_append, List.length_cons]; omega),
      List.takeWhile_append_of_pos hall]
    simp
  have hdrop : (decimal objectId.toNat ++ 0x3A :: decimal objectInstanceId.toNat).drop
      ((decimal objectId.toNat).length + 1) = decimal objectInstanceId.toNat := by simp
  have hid (id : UInt16) : (UInt64.ofNat id.toNat).toNat = id.toNat :=
    UInt64.toNat_ofNat_of_lt' (id.toNat_lt.trans (by decide))
  have hobject : utilsTextToUInt (decimal objectId.toNat ++ 0x3A :: decimal objectInstanceId.toNat)
      (decimal objectId.toNat).length = some (UInt64.ofNat objectId.toNat) :=
    utilsTextToUInt_decimal (by rw [hid, List.take_left])
  have hinstance : utilsTextToUInt (decimal objectInstanceId.toNat)
      (decimal objectInstanceId.toNat).length = some (UInt64.ofNat objectInstanceId.toNat) :=
    utilsTextToUInt_decimal (by rw [hid, List.take_length])
  have hremaining : (((decimal objectId.toNat).length + 1 +
      (decimal objectInstanceId.toNat).length : ℕ) : ℤ) - (decimal objectId.toNat).length - 1 =
        (decimal objectInstanceId.toNat).length := by omega
  have hle (id : UInt16) : ¬ UInt64.ofNat id.toNat > 0xFFFF := by
    rw [gt_iff_lt, UInt64.lt_iff_toNat_lt, hid]
    exact Nat.not_lt.mpr (Nat.le_of_lt_succ id.toNat_lt)
  have hback (id : UInt16) : (UInt64.ofNat id.toNat).toUInt16 = id := by
    rw [← UInt16.toNat_inj, UInt64.toNat_toUInt16, hid]
    exact Nat.mod_eq_of_lt id.toNat_lt
  unfold utilsTextToObjLink
  rw [Int.toNat_natCast, hsep, if_neg (by omega), hdrop, hremaining, hobject, hinstance]
  dsimp only [Option.bind_some, Option.bind_eq_bind]
  rw [if_neg (not_or.mpr ⟨hle _, hle _⟩), hback, hback]
  rfl

/-- A text without ':' is refused. -/
theorem utilsTextToObjLink_noColon (h : (0x3A : Byte) ∉ text) :
    utilsTextToObjLink text text.length = none := by
  have hsep : text.takeWhile (· ≠ 0x3A) = text :=
    List.takeWhile_eq_self_iff.mpr fun c hc => decide_eq_true fun hcolon => h (hcolon ▸ hc)
  unfold utilsTextToObjLink
  rw [Int.toNat_natCast, List.take_length, hsep, if_pos (.inr rfl)]

/-- The identifiers are found again where a ':' is between them. -/
theorem utilsTextToObjLink_linkText (objectId objectInstanceId : UInt16) :
    utilsTextToObjLink (linkText objectId objectInstanceId)
        (asInt (linkText objectId objectInstanceId).length) =
      if 10000 ≤ objectId.toNat then some (objectId, objectInstanceId) else none := by
  have hle := length_linkText_le objectId objectInstanceId
  rw [asInt_of_lt (by omega)]
  unfold linkText linkSeparator
  by_cases hcolon : 10000 ≤ objectId.toNat
  · rw [if_pos hcolon, if_pos hcolon, ← utilsTextToObjLink_colon, List.length_append,
      List.length_cons, Nat.add_assoc, Nat.add_comm 1]
  · rw [if_neg hcolon, if_neg hcolon]
    refine utilsTextToObjLink_noColon fun hmem => ?_
    rw [List.mem_append, List.mem_cons] at hmem
    obtain hmem | hmem | hmem := hmem
    · exact colon_notMem_decimal _ hmem
    · exact absurd hmem (by decide)
    · exact colon_notMem_decimal _ hmem

theorem objectLink_carried_iff (objectId objectInstanceId : UInt16) :
    CarriedAsText floatToText emptyBlock (.objectLink objectId objectInstanceId) ↔
      10000 ≤ objectId := by
  have hends m : Ends (prvTextSerialize floatToText emptyBlock m
      (.objectLink objectId objectInstanceId))
      (.ok (asInt (linkText objectId objectInstanceId).length,
        some (linkText objectId objectInstanceId))) :=
    .congr (fun _ => congrArg some (serializeObjLink_eq m objectId objectInstanceId)) (.const _)
  have hle := length_linkText_le objectId objectInstanceId
  have hne : linkText objectId objectInstanceId ≠ [] := by simp [linkText]
  rw [carriedAsText_iff_of_ends hends .zeros, readBackAs_iff_of_lt (by omega),
    and_iff_right (.inl hne), UInt16.le_iff_toNat_le]
  constructor
  · rintro ⟨text, heq, hlink⟩
    cases heq
    rw [utilsTextToObjLink_linkText] at hlink
    split_ifs at hlink with hcolon
    exact hcolon
  · intro hcolon
    refine ⟨_, rfl, ?_⟩
    rw [utilsTextToObjLink_linkText]
    exact if_pos hcolon

/-- **What values are carried as text/plain**, by their type. -/
theorem carriedAsText_value_iff (floatToText : Double → ℕ → Option (List Byte))
    (emptyBlock : Bool) :
    (∀ value, CarriedAsText floatToText emptyBlock (.string value) ↔
      value.length < 2 ^ 31 ∧ (value ≠ [] ∨ emptyBlock)) ∧
    (∀ value, CarriedAsText floatToText emptyBlock (.integer value)) ∧
    (∀ value, CarriedAsText floatToText emptyBlock (.unsignedInteger value)) ∧
    (∀ value, CarriedAsText floatToText emptyBlock (.boolean value)) ∧
    (∀ value, CarriedAsText floatToText emptyBlock (.opaqueBytes value) ↔
      utilsBase64GetSize value.length < 2 ^ 31 ∧ (value ≠ [] ∨ emptyBlock)) ∧
    ∀ objectId objectInstanceId,
      CarriedAsText floatToText emptyBlock (.objectLink objectId objectInstanceId) ↔
        10000 ≤ objectId :=
  ⟨string_carried_iff, integer_carried, unsignedInteger_carried, boolean_carried,
    opaqueBytes_carried_iff, objectLink_carried_iff⟩

/-- The object link 10:20 is written as "10", a NUL and "20". -/
theorem objectLink_notCarried :
    ¬ CarriedAsText (fun _ _ => none) true (.objectLink 10 20) := fun h =>
  absurd ((objectLink_carried_iff 10 20).mp h) (by decide)

end

end Lwm2m.Codec

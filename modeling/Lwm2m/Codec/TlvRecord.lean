/-
# TLV records

The header of a record as the format describes it: the kind, an identifier of one or two bytes
and a length in the first byte or in one to three bytes of its own.  `lwm2m_decode_TLV` finds
a record exactly where a complete one starts (`decode_record`, `decode_cases`).
-/

import Lwm2m.Codec.Tlv

namespace Lwm2m.Codec

open Core Library

/-- The kinds of a record. -/
inductive Kind
  | objectInstance
  | resourceInstance
  | multipleResource
  | resource
  deriving DecidableEq, Repr

/-- The identifier of a record. -/
inductive IdField
  | short (id : Byte)
  | long (high low : Byte)
  deriving DecidableEq, Repr

/-- The length of a record.  The low bits of the first byte are not used when the length has bytes
of its own. -/
inductive LengthField
  | inline (length : Fin 8)
  | one (unused : Fin 8) (length : Byte)
  | two (unused : Fin 8) (high low : Byte)
  | three (unused : Fin 8) (high middle low : Byte)
  deriving DecidableEq, Repr

/-- The header of a record. -/
structure Header where
  kind : Kind
  id : IdField
  length : LengthField
  deriving DecidableEq, Repr

/-- The two high bits of the first byte. -/
def Kind.bits : Kind → Fin 4
  | objectInstance => 0
  | resourceInstance => 1
  | multipleResource => 2
  | resource => 3

/-- The type of a record of this kind. -/
def Kind.type : Kind → RecordType
  | objectInstance => .container .objectInstance
  | multipleResource => .container .multipleResource
  | resourceInstance | resource => .opaqueBytes

namespace IdField

/-- The bit of the first byte. -/
def bit : IdField → Fin 2
  | short _ => 0
  | long _ _ => 1

def bytes : IdField → List Byte
  | short id => [id]
  | long high low => [high, low]

def value : IdField → UInt16
  | short id => UInt16.ofNat id.toNat
  | long high low => UInt16.ofNat (high.toNat * 256 + low.toNat)

end IdField

namespace LengthField

/-- The two bits of the first byte. -/
def bits : LengthField → Fin 4
  | inline _ => 0
  | one _ _ => 1
  | two _ _ _ => 2
  | three _ _ _ _ => 3

/-- The three low bits of the first byte. -/
def low : LengthField → Fin 8
  | inline length => length
  | one unused _ | two unused _ _ | three unused _ _ _ => unused

def bytes : LengthField → List Byte
  | inline _ => []
  | one _ length => [length]
  | two _ high low => [high, low]
  | three _ high middle low => [high, middle, low]

def value : LengthField → ℕ
  | inline length => length
  | one _ length => length.toNat
  | two _ high low => high.toNat * 2 ^ 8 + low.toNat
  | three _ high middle low => high.toNat * 2 ^ 16 + middle.toNat * 2 ^ 8 + low.toNat

end LengthField

/-- The first byte, from its four parts. -/
def firstByte (kind : Fin 4) (id : Fin 2) (length : Fin 4) (low : Fin 8) : Byte :=
  UInt8.ofNat (kind * 64 + id * 32 + length * 8 + low)

/-- The masks of `lwm2m_decode_TLV` separate the parts. -/
theorem firstByte_masks : ∀ (kind : Fin 4) (id : Fin 2) (length : Fin 4) (low : Fin 8),
    firstByte kind id length low &&& 0xC0 = UInt8.ofNat (kind * 64) ∧
      firstByte kind id length low &&& 0x20 = UInt8.ofNat (id * 32) ∧
      firstByte kind id length low &&& 0x18 = UInt8.ofNat (length * 8) ∧
      (firstByte kind id length low &&& 0x07).toNat = low := by
  decide

/-- Every byte is the first byte of a header. -/
theorem exists_firstByte (b : Byte) : ∃ kind id length low, b = firstByte kind id length low := by
  have hlt := b.toNat_lt
  refine ⟨⟨b.toNat / 64, by omega⟩, ⟨b.toNat / 32 % 2, by omega⟩, ⟨b.toNat / 8 % 4, by omega⟩,
    ⟨b.toNat % 8, by omega⟩, ?_⟩
  have hsum : b.toNat / 64 * 64 + b.toNat / 32 % 2 * 32 + b.toNat / 8 % 4 * 8 + b.toNat % 8 =
      b.toNat := by omega
  rw [firstByte, hsum, UInt8.ofNat_toNat]

theorem Kind.type_bits (kind : Kind) :
    prvGetDataType (UInt8.ofNat (kind.bits * 64)) = kind.type := by
  cases kind <;> decide

theorem Kind.exists_bits : ∀ k : Fin 4, ∃ kind : Kind, kind.bits = k
  | 0 => ⟨.objectInstance, rfl⟩
  | 1 => ⟨.resourceInstance, rfl⟩
  | 2 => ⟨.multipleResource, rfl⟩
  | 3 => ⟨.resource, rfl⟩

namespace Header

/-- The first byte. -/
def first (h : Header) : Byte := firstByte h.kind.bits h.id.bit h.length.bits h.length.low

def bytes (h : Header) : List Byte := h.first :: (h.id.bytes ++ h.length.bytes)

/-- The parts that `lwm2m_decode_TLV` reads from the first byte. -/
theorem first_masks (h : Header) :
    prvGetDataType (h.first &&& 0xC0) = h.kind.type ∧
      h.first &&& 0x20 = UInt8.ofNat (h.id.bit * 32) ∧
      h.first &&& 0x18 = UInt8.ofNat (h.length.bits * 8) ∧
      (h.first &&& 0x07).toNat = h.length.low := by
  obtain ⟨hkind, hid, hlength, hlow⟩ :=
    firstByte_masks h.kind.bits h.id.bit h.length.bits h.length.low
  refine ⟨?_, hid, hlength, hlow⟩
  rw [first, hkind, h.kind.type_bits]

end Header

/-! ### Decoding a record -/

/-- The identifier behind the first byte. -/
theorem decodeId_record (first : Byte) (id : IdField) (tail : List Byte)
    (hbit : first &&& 0x20 = UInt8.ofNat (id.bit * 32)) :
    decodeId (first :: (id.bytes ++ tail)) first =
      .ok (some (id.value, id.bytes.length + 1)) := by
  unfold decodeId
  rw [hbit]
  cases id with
  | short id => rfl
  | long high low =>
    simp [IdField.bit, IdField.bytes, IdField.value, readByte]

/-- The length behind the identifier. -/
theorem decodeLength_record (before : List Byte) (first : Byte) (length : LengthField)
    (tail : List Byte) (hbits : first &&& 0x18 = UInt8.ofNat (length.bits * 8))
    (hlow : (first &&& 0x07).toNat = length.low) :
    decodeLength (before ++ (length.bytes ++ tail)) first before.length =
      .ok (some (length.value, before.length + length.bytes.length)) := by
  unfold decodeLength
  rw [hbits, hlow]
  cases length with
  | inline length => rfl
  | one unused length | two unused high low | three unused high middle low =>
    simp [LengthField.bits, LengthField.bytes, LengthField.value, readByte]

/-- **A complete record is decoded.** -/
theorem decode_record (h : Header) {payload : List Byte} (rest : List Byte)
    (hlength : h.length.value = payload.length) :
    lwm2mDecodeTlv (h.bytes ++ (payload ++ rest)) =
      .ok (some { type := h.kind.type, id := h.id.value, dataIndex := h.bytes.length,
                  dataLen := payload.length }) := by
  obtain ⟨hkind, hbit, hbits, hlow⟩ := h.first_masks
  have hid := decodeId_record h.first h.id (h.length.bytes ++ (payload ++ rest)) hbit
  have hlen := decodeLength_record (h.first :: h.id.bytes) h.first h.length (payload ++ rest)
    hbits hlow
  have hbuffer : h.bytes ++ (payload ++ rest) =
      h.first :: (h.id.bytes ++ (h.length.bytes ++ (payload ++ rest))) := by
    rw [Header.bytes, List.cons_append, List.append_assoc]
  have htwo : ¬ (h.bytes ++ (payload ++ rest)).length < 2 := by
    rw [hbuffer]
    cases h.id <;> simp [IdField.bytes]
  have hfirst : readByte (h.bytes ++ (payload ++ rest)) 0 = .ok h.first.toNat := by
    rw [hbuffer]
    rfl
  have hend : ¬ h.bytes.length + payload.length > (h.bytes ++ (payload ++ rest)).length := by
    simp only [List.length_append]
    omega
  have hindex : (h.first :: h.id.bytes).length + h.length.bytes.length = h.bytes.length := by
    simp only [Header.bytes, List.length_cons, List.length_append]
    omega
  rw [List.cons_append, ← hbuffer, hindex] at hlen
  rw [← hbuffer] at hid
  simp only [lwm2mDecodeTlv, if_neg htwo, hfirst, ok_bind, UInt8.ofNat_toNat, hid]
  rw [← List.length_cons, hlen, ok_bind]
  simp only [hlength, if_neg hend, hkind, pure_eq_ok]

/-- The identifier of a record, if it is complete. -/
theorem decodeId_cases (first : Byte) {tail : List Byte} (hne : tail ≠ []) :
    decodeId (first :: tail) first = .ok none ∨ ∃ (id : IdField) (tail' : List Byte),
      tail = id.bytes ++ tail' ∧ first &&& 0x20 = UInt8.ofNat (id.bit * 32) := by
  obtain ⟨kind, bit, bits, low, rfl⟩ := exists_firstByte first
  obtain ⟨-, hbit, -, -⟩ := firstByte_masks kind bit bits low
  obtain ⟨b, tail, rfl⟩ := List.exists_cons_of_ne_nil hne
  rw [hbit]
  match bit, tail with
  | 0, tail => exact .inr ⟨.short b, tail, rfl, rfl⟩
  | 1, [] =>
    refine .inl ?_
    rw [decodeId, hbit]
    rfl
  | 1, b' :: tail => exact .inr ⟨.long b b', tail, rfl, rfl⟩

/-- The length of a record, if it is complete. -/
theorem decodeLength_cases (before : List Byte) (first : Byte) (tail : List Byte) :
    decodeLength (before ++ tail) first before.length = .ok none ∨
      ∃ (length : LengthField) (tail' : List Byte), tail = length.bytes ++ tail' ∧
        first &&& 0x18 = UInt8.ofNat (length.bits * 8) ∧
        (first &&& 0x07).toNat = length.low := by
  obtain ⟨kind, bit, bits, low, rfl⟩ := exists_firstByte first
  obtain ⟨-, -, hbits, hlow⟩ := firstByte_masks kind bit bits low
  rw [hbits, hlow]
  unfold decodeLength
  rw [hbits]
  match bits, tail with
  | 0, tail => exact .inr ⟨.inline low, tail, rfl, rfl, rfl⟩
  | 1, [] => exact .inl (by simp)
  | 1, b :: tail => exact .inr ⟨.one low b, tail, rfl, rfl, rfl⟩
  | 2, [] | 2, [_] => exact .inl (by simp)
  | 2, b :: b' :: tail => exact .inr ⟨.two low b b', tail, rfl, rfl, rfl⟩
  | 3, [] | 3, [_] | 3, [_, _] => exact .inl (by simp)
  | 3, b :: b' :: b'' :: tail => exact .inr ⟨.three low b b' b'', tail, rfl, rfl, rfl⟩

/-- A byte whose parts are those of an identifier and a length is the first byte of a
header. -/
theorem exists_kind_of_masks {first : Byte} {id : IdField} {length : LengthField}
    (hbit : first &&& 0x20 = UInt8.ofNat (id.bit * 32))
    (hbits : first &&& 0x18 = UInt8.ofNat (length.bits * 8))
    (hlow : (first &&& 0x07).toNat = length.low) :
    ∃ kind : Kind, first = firstByte kind.bits id.bit length.bits length.low := by
  obtain ⟨k, bit, bits, low, rfl⟩ := exists_firstByte first
  obtain ⟨-, hbit', hbits', hlow'⟩ := firstByte_masks k bit bits low
  rw [hbit'] at hbit
  rw [hbits'] at hbits
  rw [hlow'] at hlow
  obtain ⟨kind, rfl⟩ := Kind.exists_bits k
  have hinj₂ : ∀ i j : Fin 2, UInt8.ofNat (i * 32) = UInt8.ofNat (j * 32) → i = j := by decide
  have hinj₄ : ∀ i j : Fin 4, UInt8.ofNat (i * 8) = UInt8.ofNat (j * 8) → i = j := by decide
  refine ⟨kind, ?_⟩
  rw [hinj₂ _ _ hbit, hinj₄ _ _ hbits, Fin.ext hlow]

/-- **Where none is decoded, none starts.** -/
theorem decode_cases (buffer : List Byte) :
    lwm2mDecodeTlv buffer = .ok none ∨
      ∃ (h : Header) (payload rest : List Byte),
        h.length.value = payload.length ∧ buffer = h.bytes ++ (payload ++ rest) := by
  match buffer with
  | [] | [_] => exact .inl rfl
  | first :: b :: tail =>
    have hread : readByte (first :: b :: tail) 0 = .ok first.toNat := rfl
    have htwo : ¬ (first :: b :: tail).length < 2 := by simp
    simp only [lwm2mDecodeTlv, if_neg htwo, hread, ok_bind, UInt8.ofNat_toNat]
    obtain hid | ⟨id, tail₁, heq, hbit⟩ := decodeId_cases first (List.cons_ne_nil b tail)
    · exact .inl (by rw [hid, ok_bind, pure_eq_ok])
    rw [heq, decodeId_record first id tail₁ hbit, ok_bind]
    dsimp only
    obtain hlen | ⟨length, tail₂, rfl, hbits, hlow⟩ :=
      decodeLength_cases (first :: id.bytes) first tail₁
    · have hnone : decodeLength (first :: (id.bytes ++ tail₁)) first (id.bytes.length + 1) =
          .ok none := hlen
      exact .inl (by rw [hnone, ok_bind, pure_eq_ok])
    have hsome : decodeLength (first :: (id.bytes ++ (length.bytes ++ tail₂))) first
        (id.bytes.length + 1) =
          .ok (some (length.value, id.bytes.length + 1 + length.bytes.length)) :=
      decodeLength_record (first :: id.bytes) first length tail₂ hbits hlow
    rw [hsome, ok_bind]
    dsimp only
    split_ifs with hend
    · exact .inl rfl
    · have hfits : length.value ≤ tail₂.length := by
        simp only [List.length_cons, List.length_append] at hend
        omega
      obtain ⟨kind, hfirst⟩ := exists_kind_of_masks hbit hbits hlow
      refine .inr ⟨⟨kind, id, length⟩, tail₂.take length.value, tail₂.drop length.value, ?_, ?_⟩
      · rw [List.length_take, min_eq_left hfits]
      · rw [List.take_append_drop, Header.bytes, Header.first, ← hfirst, List.cons_append,
          List.append_assoc]

/-! ### One turn of the parser -/

section

variable {h : Header} {payload : List Byte} (rest : List Byte) (done : List Tree)

theorem parseLoop_none {buffer : List Byte} (hnone : lwm2mDecodeTlv buffer = .ok none) :
    parseLoop buffer done = .ok (done.length, if done = [] then .null else .array done) := by
  unfold parseLoop
  split
  next heq => cases hnone.symm.trans heq
  next => rfl
  next heq => cases hnone.symm.trans heq

/-- The data of a record and what follows it. -/
theorem record_parts (h : Header) (payload rest : List Byte) :
    ((h.bytes ++ (payload ++ rest)).drop h.bytes.length).take payload.length = payload ∧
      (h.bytes ++ (payload ++ rest)).drop (h.bytes.length + payload.length) = rest := by
  rw [← List.drop_drop, List.drop_left, List.take_left, List.drop_left]
  exact ⟨rfl, rfl⟩

/-- A record that is not a container becomes an opaque leaf. -/
theorem parseLoop_leaf (hlength : h.length.value = payload.length)
    (hkind : h.kind.type = .opaqueBytes) :
    parseLoop (h.bytes ++ (payload ++ rest)) done =
      parseLoop rest (done ++ [.leaf h.id.value (.opaqueBytes payload)]) := by
  have hdecode := decode_record h rest hlength
  obtain ⟨hdata, hnext⟩ := record_parts h payload rest
  rw [parseLoop.eq_def]
  split
  next heq => cases hdecode.symm.trans heq
  next heq => cases hdecode.symm.trans heq
  next hd heq =>
    cases hdecode.symm.trans heq
    simp only [hkind, hdata, hnext]

/-- A container is parsed first. -/
theorem parseLoop_container {type : ContainerType} (hlength : h.length.value = payload.length)
    (hkind : h.kind.type = .container type) :
    parseLoop (h.bytes ++ (payload ++ rest)) done =
      match parseLoop payload [] with
      | .error fault => .error fault
      | .ok (count, array) =>
        if count = 0 then .ok (0, .freed)
        else parseLoop rest (done ++ [.container h.id.value type array.trees]) := by
  have hdecode := decode_record h rest hlength
  obtain ⟨hdata, hnext⟩ := record_parts h payload rest
  have hobject : type ≠ .object := by
    rintro rfl
    cases hk : h.kind <;> rw [hk] at hkind <;> cases hkind
  rw [parseLoop.eq_def]
  split
  next heq => cases hdecode.symm.trans heq
  next heq => cases hdecode.symm.trans heq
  next hd heq =>
    cases hdecode.symm.trans heq
    -- the two matches on the recursive call are the same
    simp only [hkind, hdata, hnext, if_neg hobject] <;> rfl

end

end Lwm2m.Codec

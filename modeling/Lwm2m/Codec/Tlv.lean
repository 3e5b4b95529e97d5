/-
# TLV

`data/tlv.c`: the header of a record, `tlv_serialize` and `tlv_parse`.

A buffer that is written is modelled with its uninitialised bytes (`none`), and a write is checked
against the length it was allocated with.  A buffer that is read is the part that a call is handed,
and every index is checked against its length.
-/

import Lwm2m.Codec.Tree
import Lwm2m.Library.Except

namespace Lwm2m.Codec

open Core Library

/-! ### Values -/

/-- The low bytes of a number, the highest first. -/
def bigEndian : ℕ → ℕ → List Byte
  | 0, _ => []
  | n + 1, x => UInt8.ofNat (x / 256 ^ n) :: bigEndian n x

@[simp] theorem length_bigEndian (n x : ℕ) : (bigEndian n x).length = n := by
  induction n with
  | zero => rfl
  | succ n ih => rw [bigEndian, List.length_cons, ih]

/-- `FLT_MAX`, as a `double`. -/
def fltMax : Double := ⟨0x47EFFFFFE0000000⟩

/-- `prv_encodeFloat`. -/
def prvEncodeFloat (data : Double) : List Byte :=
  let value := Float.ofBits data.bits
  if value < 0.0 - Float.ofBits fltMax.bits ∨ value > Float.ofBits fltMax.bits then
    bigEndian 8 data.bits.toNat
  else bigEndian 4 data.toFloat.toBits.toNat

/-- `prv_encodeInt`. -/
def prvEncodeInt (data : Int64) : List Byte :=
  let bits := data.toBitVec.toNat
  if -2 ^ 7 ≤ data.toInt ∧ data.toInt < 2 ^ 7 then bigEndian 1 bits
  else if -2 ^ 15 ≤ data.toInt ∧ data.toInt < 2 ^ 15 then bigEndian 2 bits
  else if -2 ^ 31 ≤ data.toInt ∧ data.toInt < 2 ^ 31 then bigEndian 4 bits
  else bigEndian 8 bits

/-- `prv_encodeUInt`. -/
def prvEncodeUInt (data : UInt64) : List Byte :=
  if data.toNat < 2 ^ 8 then bigEndian 1 data.toNat
  else if data.toNat < 2 ^ 16 then bigEndian 2 data.toNat
  else if data.toNat < 2 ^ 32 then bigEndian 4 data.toNat
  else bigEndian 8 data.toNat

/-- The bytes of a leaf, as `tlv_serialize` writes them; `none` for a type it refuses. -/
def leafBytes : Leaf → Option (List Byte)
  | .undefined => none
  | .string value | .opaqueBytes value | .coreLink value => some value
  | .integer value => some (prvEncodeInt value)
  | .unsignedInteger value => some (prvEncodeUInt value)
  | .float value => some (prvEncodeFloat value)
  | .boolean value => some [if value then 1 else 0]
  | .objectLink objectId objectInstanceId =>
    some (bigEndian 4 (objectId.toNat * 2 ^ 16 + objectInstanceId.toNat))

/-! ### Headers -/

/-- `prv_getHeaderType` of a leaf. -/
def leafHeaderType : Leaf → UInt8
  | .undefined => 0xFF
  | _ => 0xC0

/-- `prv_getHeaderType` of a container. -/
def containerHeaderType : ContainerType → UInt8
  | .object => 0x10
  | .objectInstance => 0x00
  | .multipleResource => 0x80

/-- `prv_getHeaderLength`. -/
def prvGetHeaderLength (id : UInt16) (dataLen : ℕ) : ℕ :=
  2 + (if id > 0xFF then 1 else 0) +
    if dataLen > 0xFFFF then 3 else if dataLen > 0xFF then 2 else if dataLen > 7 then 1 else 0

/-- `prv_createHeader`: the bytes of the header, `none` where it writes none. -/
def prvCreateHeader (isInstance : Bool) (type : UInt8) (id : UInt16) (dataLen : ℕ) :
    List (Option Byte) :=
  let hdrType := if isInstance then 0x40 else type
  let wide : UInt8 := if id > 0xFF then 0x20 else 0
  let idBytes := if id > 0xFF then bigEndian 2 id.toNat else bigEndian 1 id.toNat
  let first := (hdrType &&& 0xC0) ||| wide
  if dataLen ≤ 7 then
    ((first + UInt8.ofNat dataLen) :: idBytes).map some
  else if dataLen ≤ 0xFF then
    ((first ||| 0x08) :: idBytes ++ bigEndian 1 dataLen).map some
  else if dataLen ≤ 0xFFFF then
    ((first ||| 0x10) :: idBytes ++ bigEndian 2 dataLen).map some
  else if dataLen ≤ 0xFFFFFF then
    ((first ||| 0x18) :: idBytes ++ bigEndian 3 dataLen).map some
  else (first :: idBytes).map some ++ [none, none, none]

/-! ### Serialization -/

mutual

/-- One turn of the loop of `prv_getLength`. -/
def itemLength : Tree → ℤ
  | .leaf id value =>
    match leafBytes value with
    | none => -1
    | some data => prvGetHeaderLength id data.length + data.length
  | .container id type children =>
    if type = .object then -1
    else
      let subLength := prvGetLength children
      if subLength = -1 then -1 else prvGetHeaderLength id subLength.toNat + subLength

/-- `prv_getLength`, for lengths that an `int` can hold. -/
def prvGetLength : List Tree → ℤ
  | [] => 0
  | cur :: next =>
    let length := itemLength cur
    if length = -1 then -1
    else
      let nextLength := prvGetLength next
      if nextLength = -1 then -1 else length + nextLength

end

/-- The buffer of `tlv_serialize`, the index of the next byte and whether an item was refused. -/
structure Writer where
  index : ℕ
  buffer : List (Option Byte)
  failed : Bool

/-- A write at the index. -/
def Writer.write (w : Writer) (bytes : List (Option Byte)) : Except Fault Writer :=
  if w.index + bytes.length ≤ w.buffer.length then
    .ok { w with
      index := w.index + bytes.length
      buffer := w.buffer.take w.index ++ bytes ++ w.buffer.drop (w.index + bytes.length) }
  else .error .outOfBoundsWrite

/-- `tlv_serialize` around its loop: the result and the buffer. -/
def serializeWith (length : ℤ) (loop : Writer → Except Fault Writer) :
    Except Fault (ℤ × List (Option Byte)) :=
  if length ≤ 0 then .ok (length, [])
  else do
    let w ← loop { index := 0, buffer := List.replicate length.toNat none, failed := false }
    if w.failed then pure (-1, []) else pure (length, w.buffer)

mutual

/-- One turn of the loop of `tlv_serialize`. -/
def serializeItem (isResourceInstance : Bool) (w : Writer) : Tree → Except Fault Writer
  | .leaf id value =>
    match leafBytes value with
    | none => .ok { w with failed := true }
    | some data => do
      let w ← w.write (prvCreateHeader isResourceInstance (leafHeaderType value) id data.length)
      w.write (data.map some)
  | .container id type children =>
    if type = .object then .ok { w with failed := true }
    else do
      let isInstance := isResourceInstance || type == .multipleResource
      let (res, tmpBuffer) ←
        serializeWith (prvGetLength children) fun w => serializeItems isInstance w children
      if res < 0 then pure { w with failed := true }
      else
        let w ← w.write (prvCreateHeader false (containerHeaderType type) id res.toNat)
        w.write tmpBuffer

/-- The loop of `tlv_serialize`. -/
def serializeItems (isResourceInstance : Bool) (w : Writer) : List Tree → Except Fault Writer
  | [] => .ok w
  | cur :: next => do
    let w ← serializeItem isResourceInstance w cur
    serializeItems isResourceInstance w next

end

/-- `tlv_serialize`. -/
def tlvSerialize (isResourceInstance : Bool) (dataP : List Tree) :
    Except Fault (ℤ × List (Option Byte)) :=
  serializeWith (prvGetLength dataP) fun w => serializeItems isResourceInstance w dataP

/-! ### Parsing -/

/-- The data types that `prv_getDataType` returns for a record. -/
inductive RecordType
  | container (type : ContainerType)
  | opaqueBytes
  | undefined
  deriving DecidableEq, Repr

/-- `prv_getDataType`. -/
def prvGetDataType (type : UInt8) : RecordType :=
  if type = 0x10 then .container .object
  else if type = 0x00 then .container .objectInstance
  else if type = 0x80 then .container .multipleResource
  else if type = 0xC0 ∨ type = 0x40 then .opaqueBytes
  else .undefined

/-- What `lwm2m_decode_TLV` finds. -/
structure DecodedHeader where
  type : RecordType
  id : UInt16
  dataIndex : ℕ
  dataLen : ℕ
  deriving DecidableEq, Repr

/-- A byte of the buffer. -/
def readByte (buffer : List Byte) (i : ℕ) : Except Fault ℕ :=
  match buffer[i]? with
  | none => .error .outOfBoundsRead
  | some b => .ok b.toNat

/-- The identifier of a record, and the index behind it. -/
def decodeId (buffer : List Byte) (first : UInt8) : Except Fault (Option (UInt16 × ℕ)) :=
  if first &&& 0x20 = 0x20 then
    if buffer.length < 3 then .ok none
    else do
      let high ← readByte buffer 1
      let low ← readByte buffer 2
      pure (some (UInt16.ofNat (high * 256 + low), 3))
  else do
    let id ← readByte buffer 1
    pure (some (UInt16.ofNat id, 2))

/-- The length of the data of a record, and the index of the data. -/
def decodeLength (buffer : List Byte) (first : UInt8) (dataIndex : ℕ) :
    Except Fault (Option (ℕ × ℕ)) :=
  if first &&& 0x18 = 0x00 then .ok (some ((first &&& 0x07).toNat, dataIndex))
  else if first &&& 0x18 = 0x08 then
    if buffer.length < dataIndex + 1 then .ok none
    else do
      let length ← readByte buffer dataIndex
      pure (some (length, dataIndex + 1))
  else if first &&& 0x18 = 0x10 then
    if buffer.length < dataIndex + 2 then .ok none
    else do
      let high ← readByte buffer dataIndex
      let low ← readByte buffer (dataIndex + 1)
      pure (some (high * 2 ^ 8 + low, dataIndex + 2))
  else
    if buffer.length < dataIndex + 3 then .ok none
    else do
      let high ← readByte buffer dataIndex
      let middle ← readByte buffer (dataIndex + 1)
      let low ← readByte buffer (dataIndex + 2)
      pure (some (high * 2 ^ 16 + middle * 2 ^ 8 + low, dataIndex + 3))

/-- `lwm2m_decode_TLV`, `none` where it returns 0. -/
def lwm2mDecodeTlv (buffer : List Byte) : Except Fault (Option DecodedHeader) := do
  if buffer.length < 2 then return none
  let first := UInt8.ofNat (← readByte buffer 0)
  match ← decodeId buffer first with
  | none => return none
  | some (id, dataIndex) =>
    match ← decodeLength buffer first dataIndex with
    | none => return none
    | some (dataLen, dataIndex) =>
      if dataIndex + dataLen > buffer.length then return none
      return some { type := prvGetDataType (first &&& 0xC0), id, dataIndex, dataLen }

variable {buffer : List Byte} {first : UInt8} {dataIndex : ℕ}

/-- The identifier is behind two or three bytes. -/
theorem two_le_of_decodeId {id : UInt16} (h : decodeId buffer first = .ok (some (id, dataIndex))) :
    2 ≤ dataIndex := by
  unfold decodeId at h
  split_ifs at h
  · cases h
  · obtain ⟨_, -, h⟩ := bind_eq_ok_iff.mp h
    obtain ⟨_, -, h⟩ := bind_eq_ok_iff.mp h
    cases h
    omega
  · obtain ⟨_, -, h⟩ := bind_eq_ok_iff.mp h
    cases h
    omega

/-- The data is behind the identifier. -/
theorem le_of_decodeLength {idIndex dataLen : ℕ}
    (h : decodeLength buffer first idIndex = .ok (some (dataLen, dataIndex))) :
    idIndex ≤ dataIndex := by
  unfold decodeLength at h
  split_ifs at h
  · cases h
    exact le_rfl
  · cases h
  · obtain ⟨_, -, h⟩ := bind_eq_ok_iff.mp h
    cases h
    omega
  · cases h
  · obtain ⟨_, -, h⟩ := bind_eq_ok_iff.mp h
    obtain ⟨_, -, h⟩ := bind_eq_ok_iff.mp h
    cases h
    omega
  · cases h
  · obtain ⟨_, -, h⟩ := bind_eq_ok_iff.mp h
    obtain ⟨_, -, h⟩ := bind_eq_ok_iff.mp h
    obtain ⟨_, -, h⟩ := bind_eq_ok_iff.mp h
    cases h
    omega

/-- A record has a header and ends in the buffer. -/
theorem bounds_of_lwm2mDecodeTlv {hd : DecodedHeader} (h : lwm2mDecodeTlv buffer = .ok (some hd)) :
    2 ≤ hd.dataIndex ∧ hd.dataIndex + hd.dataLen ≤ buffer.length := by
  unfold lwm2mDecodeTlv at h
  split_ifs at h
  · cases h
  obtain ⟨first, -, h⟩ := bind_eq_ok_iff.mp h
  obtain ⟨_ | ⟨id, idIndex⟩, hid, h⟩ := bind_eq_ok_iff.mp h
  · cases h
  obtain ⟨_ | ⟨dataLen, dataIndex⟩, hlength, h⟩ := bind_eq_ok_iff.mp h
  · cases h
  have h₁ := two_le_of_decodeId hid
  have h₂ := le_of_decodeLength hlength
  dsimp only at h
  split_ifs at h
  · cases h
  · cases h
    exact ⟨by dsimp only; omega, by dsimp only; omega⟩

/-- What a call of `tlv_parse` leaves in `*dataP`. -/
inductive Handed
  /-- A null pointer. -/
  | null
  /-- A pointer to an array that was freed. -/
  | freed
  | array (l : List Tree)
  deriving Repr

/-- The array, as the caller of `tlv_parse` keeps it. -/
def Handed.trees : Handed → List Tree
  | .array l => l
  | _ => []

/-- The loop of `tlv_parse` on the rest of the buffer, when it has parsed `done`. -/
def parseLoop (buffer : List Byte) (done : List Tree) : Except Fault (ℕ × Handed) :=
  match h : lwm2mDecodeTlv buffer with
  | .error fault => .error fault
  | .ok none => .ok (done.length, if done = [] then .null else .array done)
  | .ok (some hd) =>
    have := bounds_of_lwm2mDecodeTlv h
    let data := (buffer.drop hd.dataIndex).take hd.dataLen
    let next := buffer.drop (hd.dataIndex + hd.dataLen)
    match hd.type with
    | .container type =>
      if type = .object then parseLoop next (done ++ [.leaf hd.id (.opaqueBytes data)])
      else
        match parseLoop data [] with
        | .error fault => .error fault
        | .ok (count, array) =>
          if count = 0 then .ok (0, .freed)
          else parseLoop next (done ++ [.container hd.id type array.trees])
    | _ => parseLoop next (done ++ [.leaf hd.id (.opaqueBytes data)])
termination_by buffer.length
decreasing_by all_goals (simp only [List.length_take, List.length_drop]; omega)

/-- `tlv_parse`. -/
def tlvParse (buffer : List Byte) : Except Fault (ℕ × Handed) := parseLoop buffer []

end Lwm2m.Codec

/-
# TLV round trip

What `tlv_serialize` writes is the records of the tree, with the shortest header for each
(`encode`), and it fills the buffer exactly.  `tlv_parse` finds the same tree there, its leaves
opaque.
-/

import Lwm2m.Codec.TlvRecord

namespace Lwm2m.Codec

open Core Library

/-! ### The shortest header -/

/-- The field of an identifier. -/
def IdField.ofId (id : UInt16) : IdField :=
  if id > 0xFF then .long (UInt8.ofNat (id.toNat / 256)) (UInt8.ofNat id.toNat)
  else .short (UInt8.ofNat id.toNat)

/-- The field of a length below `2 ^ 24`. -/
def LengthField.ofLength (n : ℕ) : LengthField :=
  if h : n ≤ 7 then .inline ⟨n, by omega⟩
  else if n ≤ 0xFF then .one 0 (UInt8.ofNat n)
  else if n ≤ 0xFFFF then .two 0 (UInt8.ofNat (n / 2 ^ 8)) (UInt8.ofNat n)
  else .three 0 (UInt8.ofNat (n / 2 ^ 16)) (UInt8.ofNat (n / 2 ^ 8)) (UInt8.ofNat n)

/-- The header that `prv_createHeader` writes. -/
def Header.shortest (kind : Kind) (id : UInt16) (length : ℕ) : Header :=
  ⟨kind, IdField.ofId id, LengthField.ofLength length⟩

theorem IdField.value_ofId (id : UInt16) : (IdField.ofId id).value = id := by
  have hlt := id.toNat_lt
  have hcut : id > 0xFF ↔ 0xFF < id.toNat := UInt16.lt_iff_toNat_lt
  apply UInt16.toNat_inj.mp
  by_cases h : id > 0xFF
  · rw [ofId, if_pos h, value, UInt16.toNat_ofNat', UInt8.toNat_ofNat', UInt8.toNat_ofNat']
    omega
  · have hle : id.toNat ≤ 0xFF := not_lt.mp (mt hcut.mpr h)
    rw [ofId, if_neg h, value, UInt16.toNat_ofNat', UInt8.toNat_ofNat']
    omega

variable {n : ℕ} {type : ContainerType} {l : List Tree} {w : Writer}

theorem LengthField.value_ofLength (h : n ≤ 0xFFFFFF) : (ofLength n).value = n := by
  unfold ofLength
  split_ifs
  · rfl
  · rw [value, UInt8.toNat_ofNat']
    omega
  · rw [value, UInt8.toNat_ofNat', UInt8.toNat_ofNat']
    omega
  · rw [value, UInt8.toNat_ofNat', UInt8.toNat_ofNat', UInt8.toNat_ofNat']
    omega

/-- `prv_getHeaderLength` is the length of the header. -/
theorem prvGetHeaderLength_eq (kind : Kind) (id : UInt16) (n : ℕ) :
    prvGetHeaderLength id n = (Header.shortest kind id n).bytes.length := by
  unfold prvGetHeaderLength Header.shortest Header.bytes IdField.ofId LengthField.ofLength
  simp only [List.length_cons, List.length_append]
  split_ifs <;> first | rfl | omega

/-- The first byte that `prv_createHeader` builds, by the form of the length. -/
theorem firstByte_built : ∀ (kind : Fin 4) (id : Fin 2) (low : Fin 8),
    (UInt8.ofNat (kind * 64) ||| UInt8.ofNat (id * 32)) + UInt8.ofNat low =
        firstByte kind id 0 low ∧
      UInt8.ofNat (kind * 64) ||| UInt8.ofNat (id * 32) ||| 0x08 = firstByte kind id 1 0 ∧
      UInt8.ofNat (kind * 64) ||| UInt8.ofNat (id * 32) ||| 0x10 = firstByte kind id 2 0 ∧
      UInt8.ofNat (kind * 64) ||| UInt8.ofNat (id * 32) ||| 0x18 = firstByte kind id 3 0 := by
  decide

/-- `prv_createHeader` writes the shortest header. -/
theorem prvCreateHeader_eq (isInstance : Bool) (type : UInt8) (kind : Kind) (id : UInt16)
    (htype : (if isInstance then 0x40 else type) &&& 0xC0 = UInt8.ofNat (kind.bits * 64))
    (hn : n ≤ 0xFFFFFF) :
    prvCreateHeader isInstance type id n = (Header.shortest kind id n).bytes.map some := by
  have hwide : (if id > 0xFF then (0x20 : UInt8) else 0) =
      UInt8.ofNat ((IdField.ofId id).bit * 32) := by
    unfold IdField.ofId
    split_ifs <;> rfl
  have hid : (if id > 0xFF then bigEndian 2 id.toNat else bigEndian 1 id.toNat) =
      (IdField.ofId id).bytes := by
    unfold IdField.ofId
    split_ifs <;> simp [bigEndian, IdField.bytes]
  unfold prvCreateHeader Header.shortest Header.bytes Header.first LengthField.ofLength
  simp only [htype, hwide, hid]
  split_ifs with h₁ h₂ h₃
  · rw [(firstByte_built _ _ ⟨n, by omega⟩).1]
    simp [LengthField.bytes, LengthField.bits, LengthField.low]
  · rw [(firstByte_built _ _ 0).2.1]
    simp [LengthField.bytes, LengthField.bits, LengthField.low, bigEndian]
  · rw [(firstByte_built _ _ 0).2.2.1]
    simp [LengthField.bytes, LengthField.bits, LengthField.low, bigEndian]
  · rw [(firstByte_built _ _ 0).2.2.2]
    simp [LengthField.bytes, LengthField.bits, LengthField.low, bigEndian]

/-! ### The records of a tree -/

/-- The kind of the record of a leaf. -/
def leafKind (isResourceInstance : Bool) : Kind :=
  if isResourceInstance then .resourceInstance else .resource

/-- The kind of the record of a container. -/
def containerKind : ContainerType → Kind
  | .multipleResource => .multipleResource
  | _ => .objectInstance

/-- A record with its data. -/
def record (kind : Kind) (id : UInt16) (payload : List Byte) : List Byte :=
  (Header.shortest kind id payload.length).bytes ++ payload

mutual

/-- The record of a node. -/
def encodeItem (isResourceInstance : Bool) : Tree → List Byte
  | .leaf id value => record (leafKind isResourceInstance) id ((leafBytes value).getD [])
  | .container id type children =>
    record (containerKind type) id
      (encode (isResourceInstance || type == .multipleResource) children)

/-- The records of a list. -/
def encode (isResourceInstance : Bool) : List Tree → List Byte
  | [] => []
  | cur :: next => encodeItem isResourceInstance cur ++ encode isResourceInstance next

end

mutual

/-- A node with the bytes of its leaves. -/
def decodedItem : Tree → Tree
  | .leaf id value => .leaf id (.opaqueBytes ((leafBytes value).getD []))
  | .container id type children => .container id type (decoded children)

/-- The list that the parser hands out. -/
def decoded : List Tree → List Tree
  | [] => []
  | cur :: next => decodedItem cur :: decoded next

end

/-- The trees that TLV carries: object instances and multiple resources, not empty, and leaves
with a value; the data of each node has a length of at most three bytes. -/
inductive Transferable : List Tree → Prop
  | nil : Transferable []
  | leaf {id : UInt16} {value : Leaf} {data : List Byte} {next : List Tree}
      (hbytes : leafBytes value = some data) (hfits : data.length ≤ 0xFFFFFF)
      (hnext : Transferable next) : Transferable (.leaf id value :: next)
  | container {id : UInt16} {type : ContainerType} {children next : List Tree}
      (htype : type ≠ .object) (hne : children ≠ []) (hfits : prvGetLength children ≤ 0xFFFFFF)
      (hchildren : Transferable children) (hnext : Transferable next) :
      Transferable (.container id type children :: next)

theorem length_record (kind : Kind) (id : UInt16) (payload : List Byte) :
    (record kind id payload).length = prvGetHeaderLength id payload.length + payload.length := by
  rw [record, List.length_append, prvGetHeaderLength_eq kind]

theorem itemLength_container (id : UInt16) {children : List Tree} (htype : type ≠ .object)
    (hchildren : prvGetLength children = n) :
    itemLength (.container id type children) = prvGetHeaderLength id n + n := by
  rw [itemLength, if_neg htype, hchildren]
  rw [if_neg (by omega), Int.toNat_natCast]

theorem prvGetLength_cons {cur : Tree} {next : List Tree} {m : ℕ} (hcur : itemLength cur = m)
    (hnext : prvGetLength next = n) : prvGetLength (cur :: next) = m + n := by
  rw [prvGetLength, hcur, hnext]
  rw [if_neg (by omega), if_neg (by omega)]

/-- **`prv_getLength` is the length of the records.** -/
theorem prvGetLength_eq (h : Transferable l) (isResourceInstance : Bool) :
    prvGetLength l = (encode isResourceInstance l).length := by
  induction h generalizing isResourceInstance with
  | nil => rfl
  | @leaf id value data next hbytes hfits hnext ih =>
    have hitem : itemLength (.leaf id value) =
        (prvGetHeaderLength id data.length + data.length : ℕ) := by
      rw [itemLength, hbytes]
      rfl
    rw [prvGetLength_cons hitem (ih isResourceInstance), encode, encodeItem, hbytes,
      Option.getD_some, List.length_append, length_record, ← Nat.cast_add]
  | @container id type children next htype hne hfits hchildren hnext ihchildren ih =>
    have hitem := itemLength_container id htype
      (ihchildren (isResourceInstance || type == .multipleResource))
    rw [← Nat.cast_add] at hitem
    rw [prvGetLength_cons hitem (ih isResourceInstance), encode, encodeItem, List.length_append,
      length_record, ← Nat.cast_add]

theorem encode_ne_nil (isResourceInstance : Bool) (hne : l ≠ []) :
    encode isResourceInstance l ≠ [] := by
  obtain ⟨cur, next, rfl⟩ := List.exists_cons_of_ne_nil hne
  cases cur <;> simp [encode, encodeItem, record, Header.bytes]

/-! ### Writing -/

/-- Two writes in a row are one. -/
theorem Writer.write_append (w : Writer) (l l' : List (Option Byte)) :
    (w.write l >>= fun w => w.write l') = w.write (l ++ l') := by
  unfold Writer.write
  by_cases hl : w.index + l.length ≤ w.buffer.length
  · have hlength : (w.buffer.take w.index ++ l ++ w.buffer.drop (w.index + l.length)).length =
        w.buffer.length := by
      simp only [List.length_append, List.length_take, List.length_drop]
      omega
    have htake : (w.buffer.take w.index ++ l).length = w.index + l.length := by
      rw [List.length_append, List.length_take, min_eq_left (by omega)]
    rw [if_pos hl, ok_bind]
    simp only [hlength, List.length_append, ← Nat.add_assoc]
    by_cases hl' : w.index + l.length + l'.length ≤ w.buffer.length
    · rw [if_pos hl', if_pos hl', ← htake, List.take_left, ← List.drop_drop, List.drop_left, htake,
        List.drop_drop, List.append_assoc (w.buffer.take w.index)]
    · rw [if_neg hl', if_neg hl']
  · rw [if_neg hl, if_neg (by rw [List.length_append]; omega)]
    rfl

/-- A write leaves the index in the buffer. -/
theorem Writer.index_le_of_write {w' : Writer} {l : List (Option Byte)} (h : w.write l = .ok w') :
    w'.index ≤ w'.buffer.length := by
  unfold Writer.write at h
  split_ifs at h with hl
  cases h
  simp only [List.length_append, List.length_take, List.length_drop]
  omega

theorem Writer.write_nil (hw : w.index ≤ w.buffer.length) : w.write [] = .ok w := by
  rw [Writer.write, List.length_nil, Nat.add_zero, if_pos hw, List.append_nil,
    List.take_append_drop]

/-- The loop fills a buffer of the length of what it writes. -/
theorem serializeWith_write {bytes : List Byte} (hne : bytes ≠ [])
    {loop : Writer → Except Fault Writer}
    (hloop : ∀ w : Writer, w.index ≤ w.buffer.length → loop w = w.write (bytes.map some)) :
    serializeWith bytes.length loop = .ok (bytes.length, bytes.map some) := by
  have hpos := List.length_pos_of_ne_nil hne
  rw [serializeWith, if_neg (by omega), hloop _ (Nat.zero_le _), Writer.write, if_pos (by simp),
    ok_bind]
  simp [pure_eq_ok]

/-- The type of a leaf that has a value. -/
theorem leafHeaderType_of_some {value : Leaf} {data : List Byte} (h : leafBytes value = some data)
    (isResourceInstance : Bool) :
    (if isResourceInstance then 0x40 else leafHeaderType value) &&& 0xC0 =
      UInt8.ofNat ((leafKind isResourceInstance).bits * 64) := by
  have htype : leafHeaderType value = 0xC0 := by
    cases value <;> first | rfl | cases h
  rw [htype]
  cases isResourceInstance <;> rfl

theorem containerHeaderType_of_ne (htype : type ≠ .object) :
    containerHeaderType type &&& 0xC0 = UInt8.ofNat ((containerKind type).bits * 64) := by
  cases type with
  | object => exact absurd rfl htype
  | objectInstance => rfl
  | multipleResource => rfl

/-- **The loop of `tlv_serialize` writes the records.** -/
theorem serializeItems_eq (h : Transferable l) (isResourceInstance : Bool)
    (hw : w.index ≤ w.buffer.length) :
    serializeItems isResourceInstance w l = w.write ((encode isResourceInstance l).map some) := by
  induction h generalizing isResourceInstance w with
  | nil => rw [serializeItems, encode, List.map_nil, Writer.write_nil hw]
  | @leaf id value data next hbytes hfits hnext ih =>
    have hitem : serializeItem isResourceInstance w (.leaf id value) =
        w.write ((encodeItem isResourceInstance (.leaf id value)).map some) := by
      have hheader := prvCreateHeader_eq isResourceInstance _ _ id
        (leafHeaderType_of_some hbytes isResourceInstance) hfits
      rw [serializeItem, encodeItem, hbytes, Option.getD_some, record, List.map_append, ← hheader,
        ← Writer.write_append]
    rw [serializeItems, encode, List.map_append, ← Writer.write_append, hitem]
    exact bind_congr_ok fun w' hw' => ih isResourceInstance (Writer.index_le_of_write hw')
  | @container id type children next htype hne hfits hchildren hnext ihchildren ih =>
    have hitem : serializeItem isResourceInstance w (.container id type children) =
        w.write ((encodeItem isResourceInstance (.container id type children)).map some) := by
      set isInstance := isResourceInstance || type == .multipleResource with hisInstance
      have hlength := prvGetLength_eq hchildren isInstance
      rw [hlength] at hfits
      have hheader := prvCreateHeader_eq false (containerHeaderType type) (containerKind type) id
        (n := (encode isInstance children).length) (containerHeaderType_of_ne htype) (by omega)
      have hwith := serializeWith_write (encode_ne_nil isInstance hne)
        fun (w : Writer) hw => ihchildren isInstance hw
      rw [serializeItem, if_neg htype]
      dsimp only
      rw [← hisInstance, hlength, hwith, ok_bind]
      rw [if_neg (by omega), encodeItem, ← hisInstance, record, List.map_append, Int.toNat_natCast,
        hheader, Writer.write_append]
    rw [serializeItems, encode, List.map_append, ← Writer.write_append, hitem]
    exact bind_congr_ok fun w' hw' => ih isResourceInstance (Writer.index_le_of_write hw')

/-! ### The round trip -/

theorem length_decoded (l : List Tree) : (decoded l).length = l.length := by
  induction l with
  | nil => rfl
  | cons cur next ih => rw [decoded, List.length_cons, ih, List.length_cons]

theorem decoded_ne_nil (hne : l ≠ []) : decoded l ≠ [] := by
  rw [← List.length_pos_iff, length_decoded]
  exact List.length_pos_of_ne_nil hne

/-- The parser finds the tree in its records. -/
theorem parseLoop_encode (h : Transferable l) (isResourceInstance : Bool) (done : List Tree) :
    parseLoop (encode isResourceInstance l) done =
      .ok ((done ++ decoded l).length,
        if done ++ decoded l = [] then .null else .array (done ++ decoded l)) := by
  induction h generalizing isResourceInstance done with
  | nil =>
    rw [encode, decoded, List.append_nil]
    exact parseLoop_none done rfl
  | @leaf id value data next hbytes hfits hnext ih =>
    have hkind : (leafKind isResourceInstance).type = .opaqueBytes := by
      cases isResourceInstance <;> rfl
    have hparse := parseLoop_leaf (encode isResourceInstance next) done
      (h := Header.shortest (leafKind isResourceInstance) id data.length)
      (LengthField.value_ofLength hfits) hkind
    rw [encode, encodeItem, decoded, decodedItem, hbytes, Option.getD_some, record,
      List.append_assoc, hparse, ih]
    simp only [Header.shortest, IdField.value_ofId, List.append_assoc, List.singleton_append]
  | @container id type children next htype hne hfits hchildren hnext ihchildren ih =>
    set isInstance := isResourceInstance || type == .multipleResource with hisInstance
    rw [prvGetLength_eq hchildren isInstance] at hfits
    have hkind : (containerKind type).type = .container type := by
      cases type with
      | object => exact absurd rfl htype
      | objectInstance => rfl
      | multipleResource => rfl
    have hparse := parseLoop_container (encode isResourceInstance next) done
      (h := Header.shortest (containerKind type) id (encode isInstance children).length)
      (LengthField.value_ofLength (by omega)) hkind
    have hdecoded : decoded children ≠ [] := decoded_ne_nil hne
    rw [ihchildren isInstance []] at hparse
    simp only [List.nil_append, if_neg hdecoded, List.length_eq_zero_iff, Handed.trees] at hparse
    rw [encode, encodeItem, decoded, decodedItem, ← hisInstance, record, List.append_assoc, hparse,
      ih]
    simp only [Header.shortest, IdField.value_ofId, List.append_assoc, List.singleton_append]

/-- **A tree that is sent as TLV arrives as it was, its leaves opaque.** -/
theorem tlvParse_tlvSerialize (isResourceInstance : Bool) {data : List Tree} (hne : data ≠ [])
    (h : Transferable data) (_hfits : prvGetLength data ≤ 0xFFFFFF) :
    ∃ bytes : List Byte,
      tlvSerialize isResourceInstance data = .ok (prvGetLength data, bytes.map some) ∧
        bytes.length = prvGetLength data ∧
          tlvParse bytes = .ok (data.length, .array (decoded data)) := by
  have hlength := prvGetLength_eq h isResourceInstance
  refine ⟨encode isResourceInstance data, ?_, hlength.symm, ?_⟩
  · rw [tlvSerialize, hlength]
    exact serializeWith_write (encode_ne_nil isResourceInstance hne)
      fun w hw => serializeItems_eq h isResourceInstance hw
  · have hparse := parseLoop_encode h isResourceInstance []
    rwa [List.nil_append, length_decoded, if_neg (decoded_ne_nil hne)] at hparse

/-- An object instance with a multiple resource of two texts and a number of two bytes. -/
theorem tlvParse_tlvSerialize_instance : ∃ bytes : List Byte,
    tlvSerialize false [.container 300 .objectInstance
        [.container 7 .multipleResource [.leaf 0 (.string [97]), .leaf 1 (.string [])],
          .leaf 9 (.unsignedInteger 256)]] = .ok (15, bytes.map some) ∧
      (bytes.length : ℤ) = 15 ∧
        tlvParse bytes = .ok (1, .array [.container 300 .objectInstance
          [.container 7 .multipleResource
              [.leaf 0 (.opaqueBytes [97]), .leaf 1 (.opaqueBytes [])],
            .leaf 9 (.opaqueBytes [1, 0])]]) := by
  have htexts : Transferable [.leaf 0 (.string [97]), .leaf 1 (.string [])] :=
    .leaf rfl (by decide) (.leaf rfl (by decide) .nil)
  have hresources : Transferable
      [.container 7 .multipleResource [.leaf 0 (.string [97]), .leaf 1 (.string [])],
        .leaf 9 (.unsignedInteger 256)] :=
    .container (by decide) (List.cons_ne_nil _ _) (by decide) htexts
      (.leaf rfl (by decide) .nil)
  exact tlvParse_tlvSerialize false (List.cons_ne_nil _ _)
    (.container (by decide) (List.cons_ne_nil _ _) (by decide) hresources .nil) (by decide)

end Lwm2m.Codec

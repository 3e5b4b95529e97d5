/-
# Base64

`utils_base64Encode` and `utils_base64Decode` of `core/utils.c`, with the bytes of the buffers they
write.

The encoder counts in 32 bits: behind 3 * 2 ^ 30 bytes it starts to write over the start of the
text.  The decoder takes a '=' in front of the last character for padding of two characters,
whatever the last one is (`SkipsCharacter`); everywhere else it accepts digits with padding behind
them only, and writes no byte but the ones it returns.
-/

import Lwm2m.Codec.SenmlText
import Lwm2m.Core.Buffer
import Lwm2m.Library.Fuel

namespace Lwm2m.Codec

open Core Library

/-! ### Encoding -/

/-- The four characters for the next bytes. -/
def encodedBlock : List Byte → List Byte
  | [] => []
  | [a] => [b64Digit (a >>> 2), b64Digit ((a &&& 0x03) <<< 4), 0x3D, 0x3D]
  | [a, b] =>
    [b64Digit (a >>> 2), b64Digit ((a &&& 0x03) <<< 4 ||| b >>> 4),
      b64Digit ((b &&& 0x0F) <<< 2), 0x3D]
  | a :: b :: c :: _ =>
    [b64Digit (a >>> 2), b64Digit ((a &&& 0x03) <<< 4 ||| b >>> 4),
      b64Digit ((b &&& 0x0F) <<< 2 ||| c >>> 6), b64Digit (c &&& 0x3F)]

/-- The loop of `utils_base64Encode`. -/
def base64EncodeLoop (dataP : List Byte) :
    ℕ → UInt32 → UInt32 → List Byte → Option (Except Fault (List Byte))
  | 0, _, _, _ => none
  | fuel + 1, dataIndex, resultIndex, bufferP =>
    if dataIndex.toNat < dataP.length then
      match storeBytes bufferP resultIndex.toNat (encodedBlock (dataP.drop dataIndex.toNat)) with
      | .error fault => some (.error fault)
      | .ok bufferP => base64EncodeLoop dataP fuel (dataIndex + 3) (resultIndex + 4) bufferP
    else some (.ok bufferP)

/-- `utils_base64Encode`, cut off after some turns: what it returns, and the bytes of the buffer. -/
def utilsBase64EncodeInto (dataP bufferP : List Byte) (fuel : ℕ) :
    Option (Except Fault (ℕ × List Byte)) :=
  if utilsBase64GetSize dataP.length > bufferP.length then some (.ok (0, bufferP))
  else (base64EncodeLoop dataP fuel 0 0 bufferP).map fun outcome =>
    outcome.map fun bufferP => (utilsBase64GetSize dataP.length, bufferP)

/-! ### Decoding -/

/-- `utils_base64GetDecodedSize`. -/
def utilsBase64GetDecodedSize (dataP : List Byte) : Except Fault ℕ :=
  let result := 3 * (dataP.length / 4)
  match dataP.length % 4 with
  | 0 =>
    if result > 0 then do
      if (← loadByte dataP (dataP.length - 2)) = 0x3D then return result - 2
      else if (← loadByte dataP (dataP.length - 1)) = 0x3D then return result - 1
      else return result
    else return result
  | 2 => return result + 1
  | 3 => return result + 2
  | _ => return result

/-- `prv_base64Value`. -/
def prvBase64Value (digit : Byte) : Byte :=
  if digit ≥ 0x41 ∧ digit ≤ 0x5A then digit - 0x41
  else if digit ≥ 0x61 ∧ digit ≤ 0x7A then digit - 0x61 + 26
  else if digit ≥ 0x30 ∧ digit ≤ 0x39 then digit - 0x30 + 52
  else if digit = 0x2B then 62
  else if digit = 0x2F then 63
  else 0xFF

/-- The state of the loop of `utils_base64Decode`. -/
structure DecodeState where
  dataIndex : ℕ
  bufferIndex : ℕ
  bufferP : List Byte

variable {bufferP rest front dataP : List Byte} {x y : Byte}

section

variable (dataP : List Byte) (decodedSize : ℕ)

/-- The fourth character of a block of `utils_base64Decode`; `inl` is the return of 0. -/
def decodeFourth (v3 : Byte) (s : DecodeState) : Except Fault (List Byte ⊕ DecodeState) :=
  if s.dataIndex < dataP.length then do
    let c ← loadByte dataP s.dataIndex
    if c ≠ 0x3D then
      let v4 := prvBase64Value c
      if v4 ≥ 64 then return .inl s.bufferP
      else
        let bufferP ← storeByte s.bufferP s.bufferIndex ((v3 <<< 6) + v4)
        return .inr ⟨s.dataIndex + 1, s.bufferIndex + 1, bufferP⟩
    else if s.bufferIndex ≠ decodedSize then return .inl s.bufferP
    else return .inr { s with dataIndex := s.dataIndex + 1 }
  else return .inr s

/-- The third character of a block of `utils_base64Decode`. -/
def decodeThird (v2 : Byte) (s : DecodeState) : Except Fault (List Byte ⊕ DecodeState) :=
  if s.dataIndex < dataP.length then do
    let c ← loadByte dataP s.dataIndex
    if c ≠ 0x3D then
      let v3 := prvBase64Value c
      if v3 ≥ 64 then return .inl s.bufferP
      else
        let bufferP ← storeByte s.bufferP s.bufferIndex ((v2 <<< 4) + (v3 >>> 2))
        decodeFourth dataP decodedSize v3 ⟨s.dataIndex + 1, s.bufferIndex + 1, bufferP⟩
    else if s.bufferIndex ≠ decodedSize then return .inl s.bufferP
    else return .inr { s with dataIndex := s.dataIndex + 2 }
  else return .inr s

/-- One turn of the loop of `utils_base64Decode`. -/
def decodeBlock (s : DecodeState) : Except Fault (List Byte ⊕ DecodeState) :=
  if dataP.length - s.dataIndex < 2 then return .inl s.bufferP
  else do
    let v1 := prvBase64Value (← loadByte dataP s.dataIndex)
    if v1 ≥ 64 then return .inl s.bufferP
    else
      let v2 := prvBase64Value (← loadByte dataP (s.dataIndex + 1))
      if v2 ≥ 64 then return .inl s.bufferP
      else
        let bufferP ← storeByte s.bufferP s.bufferIndex ((v1 <<< 2) + (v2 >>> 4))
        decodeThird dataP decodedSize v2 ⟨s.dataIndex + 2, s.bufferIndex + 1, bufferP⟩

variable {dataP : List Byte} {decodedSize : ℕ} {s s' : DecodeState}

/-- The index behind the turn is at least this one, unless 0 is returned. -/
def Advances (index : ℕ) (turn : Except Fault (List Byte ⊕ DecodeState)) : Prop :=
  Ensures turn (fun next => ∀ s, next = .inr s → index ≤ s.dataIndex) fun _ => True

variable {index : ℕ}

theorem advances_inl :
    Advances index (pure (.inl bufferP)) :=
  Ensures.pure_iff.mpr fun _ h => nomatch h

theorem advances_inr (h : index ≤ s.dataIndex) : Advances index (pure (.inr s)) :=
  Ensures.pure_iff.mpr fun _ hs => Sum.inr.inj hs ▸ h

theorem Advances.bind {α : Type} {x : Except Fault α}
    {f : α → Except Fault (List Byte ⊕ DecodeState)} (h : ∀ a, Advances index (f a)) :
    Advances index (x >>= f) :=
  Ensures.bind (Q := fun _ => True) ⟨fun _ _ => trivial, fun _ _ => trivial⟩ fun a _ => h a

theorem decodeFourth_advances (v3 : Byte) :
    Advances s.dataIndex (decodeFourth dataP decodedSize v3 s) := by
  refine Ensures.ite (fun _ => Advances.bind fun c => Ensures.ite (fun _ => ?_) fun _ => ?_)
    fun _ => advances_inr le_rfl
  · exact Ensures.ite (fun _ => advances_inl) fun _ =>
      Advances.bind fun _ => advances_inr (Nat.le_succ _)
  · exact Ensures.ite (fun _ => advances_inl) fun _ => advances_inr (Nat.le_succ _)

theorem decodeThird_advances (v2 : Byte) :
    Advances s.dataIndex (decodeThird dataP decodedSize v2 s) := by
  refine Ensures.ite (fun _ => Advances.bind fun c => Ensures.ite (fun _ => ?_) fun _ => ?_)
    fun _ => advances_inr le_rfl
  · exact Ensures.ite (fun _ => advances_inl) fun _ => Advances.bind fun _ =>
      (decodeFourth_advances _).mono (fun _ h s hs => (Nat.le_succ _).trans (h s hs)) fun _ h => h
  · exact Ensures.ite (fun _ => advances_inl) fun _ => advances_inr (Nat.le_add_right _ 2)

theorem decodeBlock_advances (h : decodeBlock dataP decodedSize s = .ok (.inr s')) :
    s.dataIndex < s'.dataIndex := by
  have hblock : Advances (s.dataIndex + 2) (decodeBlock dataP decodedSize s) :=
    Ensures.ite (fun _ => advances_inl) fun _ => Advances.bind fun _ =>
      Ensures.ite (fun _ => advances_inl) fun _ => Advances.bind fun _ =>
        Ensures.ite (fun _ => advances_inl) fun _ => Advances.bind fun _ =>
          decodeThird_advances _
  have := hblock.1 _ h s' rfl
  omega

end

/-- The loop of `utils_base64Decode`. -/
def base64DecodeLoop (dataP : List Byte) (decodedSize : ℕ) (s : DecodeState) :
    Except Fault (ℕ × List Byte) :=
  if s.dataIndex < dataP.length then
    match _ : decodeBlock dataP decodedSize s with
    | .error fault => .error fault
    | .ok (.inl bufferP) => .ok (0, bufferP)
    | .ok (.inr s') => base64DecodeLoop dataP decodedSize s'
  else .ok (decodedSize, s.bufferP)
  termination_by dataP.length - s.dataIndex
  decreasing_by
    have := decodeBlock_advances ‹_›
    omega

/-- `utils_base64Decode`: what it returns, and the bytes of the buffer. -/
def utilsBase64Decode (dataP bufferP : List Byte) : Except Fault (ℕ × List Byte) := do
  let decodedSize ← utilsBase64GetDecodedSize dataP
  if decodedSize > bufferP.length then return (0, bufferP)
  else base64DecodeLoop dataP decodedSize ⟨0, 0, bufferP⟩

/-! ### The bytes that a text stands for -/

/-- A character with a value. -/
def IsBase64Digit (c : Byte) : Prop := prvBase64Value c < 64

instance (c : Byte) : Decidable (IsBase64Digit c) := inferInstanceAs (Decidable (_ < _))

/-- The first byte of a block. -/
def byteOne (a b : Byte) : Byte := (prvBase64Value a <<< 2) + (prvBase64Value b >>> 4)

/-- The second byte of a block. -/
def byteTwo (b c : Byte) : Byte := (prvBase64Value b <<< 4) + (prvBase64Value c >>> 2)

/-- The third byte of a block. -/
def byteThree (c d : Byte) : Byte := (prvBase64Value c <<< 6) + prvBase64Value d

/-- The number of bytes that a text stands for, by its blocks. -/
def blocksSize : List Byte → ℕ
  | [] | [_] => 0
  | [_, _] => 1
  | [_, _, _] => 2
  | [_, _, c, d] => if c = 0x3D then 1 else if d = 0x3D then 2 else 3
  | _ :: _ :: _ :: _ :: e :: rest => 3 + blocksSize (e :: rest)

/-- The bytes that a text stands for, by its blocks; `none` where 0 is returned. -/
def decodedBlocks : List Byte → Option (List Byte)
  | [] => some []
  | [_] => none
  | [a, b] => if IsBase64Digit a ∧ IsBase64Digit b then some [byteOne a b] else none
  | [a, b, c] =>
    if IsBase64Digit a ∧ IsBase64Digit b ∧ IsBase64Digit c then
      some [byteOne a b, byteTwo b c]
    else none
  | [a, b, c, d] =>
    if IsBase64Digit a ∧ IsBase64Digit b then
      if c = 0x3D then some [byteOne a b]
      else if IsBase64Digit c then
        if d = 0x3D then some [byteOne a b, byteTwo b c]
        else if IsBase64Digit d then some [byteOne a b, byteTwo b c, byteThree c d]
        else none
      else none
    else none
  | a :: b :: c :: d :: e :: rest =>
    if IsBase64Digit a ∧ IsBase64Digit b ∧ IsBase64Digit c ∧ IsBase64Digit d then
      (decodedBlocks (e :: rest)).map fun bytes =>
        byteOne a b :: byteTwo b c :: byteThree c d :: bytes
    else none

/-- Induction over the blocks of a text. -/
theorem blocks_induction {P : List Byte → Prop} (nil : P []) (one : ∀ a, P [a])
    (two : ∀ a b, P [a, b]) (three : ∀ a b c, P [a, b, c]) (last : ∀ a b c d, P [a, b, c, d])
    (block : ∀ a b c d rest, rest ≠ [] → P rest → P (a :: b :: c :: d :: rest)) : ∀ text, P text
  | [] => nil
  | [a] => one a
  | [a, b] => two a b
  | [a, b, c] => three a b c
  | [a, b, c, d] => last a b c d
  | a :: b :: c :: d :: e :: rest =>
    block a b c d (e :: rest) (List.cons_ne_nil e rest)
      (blocks_induction nil one two three last block (e :: rest))

theorem blocksSize_block (a b c d : Byte) (h : rest ≠ []) :
    blocksSize (a :: b :: c :: d :: rest) = 3 + blocksSize rest := by
  obtain ⟨e, rest, rfl⟩ := List.exists_cons_of_ne_nil h
  rfl

theorem decodedBlocks_block (a b c d : Byte) (h : rest ≠ []) :
    decodedBlocks (a :: b :: c :: d :: rest) =
      if IsBase64Digit a ∧ IsBase64Digit b ∧ IsBase64Digit c ∧ IsBase64Digit d then
        (decodedBlocks rest).map fun bytes =>
          byteOne a b :: byteTwo b c :: byteThree c d :: bytes
      else none := by
  obtain ⟨e, rest, rfl⟩ := List.exists_cons_of_ne_nil h
  rfl

variable {bytes done : List Byte} {index : Byte} {dataIndex resultIndex : UInt32} {j : ℕ}

theorem length_decodedBlocks {text : List Byte} (h : decodedBlocks text = some bytes) :
    bytes.length = blocksSize text := by
  induction text using blocks_induction generalizing bytes with
  | nil => cases h; rfl
  | one a => cases h
  | two a b | three a b c =>
    rw [decodedBlocks] at h
    split_ifs at h
    cases h
    rfl
  | last a b c d =>
    rw [decodedBlocks] at h
    rw [blocksSize]
    split_ifs at h ⊢ <;> cases h <;> rfl
  | block a b c d rest hrest ih =>
    rw [decodedBlocks_block a b c d hrest] at h
    split_ifs at h
    obtain ⟨bytes, hbytes, rfl⟩ := Option.map_eq_some_iff.mp h
    rw [blocksSize_block a b c d hrest, ← ih hbytes]
    simp only [List.length_cons]
    omega

theorem loadByte_block (a b c d : Byte) {k : ℕ} (hk : k ≤ rest.length) :
    loadByte (a :: b :: c :: d :: rest) (rest.length + 4 - k) =
      loadByte rest (rest.length - k) := by
  rw [show rest.length + 4 - k = rest.length - k + 4 by omega]
  rfl

/-- **The size that is computed first is the one of the blocks.** -/
theorem utilsBase64GetDecodedSize_eq (text : List Byte) :
    utilsBase64GetDecodedSize text = .ok (blocksSize text) := by
  induction text using blocks_induction with
  | nil => rfl
  | one a | two a b | three a b c => simp [utilsBase64GetDecodedSize, blocksSize]
  | last a b c d =>
    simp only [utilsBase64GetDecodedSize, blocksSize, loadByte]
    by_cases hc : c = 0x3D <;> by_cases hd : d = 0x3D <;> simp [hc, hd]
  | block a b c d rest hrest ih =>
    have hpos := List.length_pos_of_ne_nil hrest
    have hdiv : (rest.length + 4) / 4 = rest.length / 4 + 1 := by omega
    have hmod : (rest.length + 4) % 4 = rest.length % 4 := by omega
    rw [blocksSize_block a b c d hrest]
    unfold utilsBase64GetDecodedSize at ih ⊢
    simp only [List.length_cons, hdiv, hmod] at ih ⊢
    have hlt : rest.length % 4 < 4 := Nat.mod_lt _ (by decide)
    generalize hr : rest.length % 4 = r at ih hlt ⊢
    rcases (by omega : r = 0 ∨ r = 1 ∨ r = 2 ∨ r = 3) with rfl | hother
    · rw [if_pos (by omega), loadByte_block a b c d (by omega), loadByte_block a b c d (by omega)]
      rw [if_pos (by omega)] at ih
      -- the last two characters are those of the rest
      cases hc : loadByte rest (rest.length - 2) with
      | error fault =>
        rw [hc] at ih
        cases ih
      | ok c =>
        rw [hc, ok_bind] at ih
        rw [ok_bind]
        by_cases hpad : c = 0x3D
        · rw [if_pos hpad] at ih ⊢
          have := Except.ok.inj ih
          exact congrArg Except.ok (by omega)
        · rw [if_neg hpad] at ih ⊢
          cases hd : loadByte rest (rest.length - 1) with
          | error fault =>
            rw [hd] at ih
            cases ih
          | ok d =>
            rw [hd, ok_bind] at ih
            rw [ok_bind]
            split_ifs at ih ⊢ <;>
              · have := Except.ok.inj ih
                exact congrArg Except.ok (by omega)
    · obtain rfl | rfl | rfl := hother <;>
        · have := Except.ok.inj ih
          exact congrArg Except.ok (by omega)

/-! ### One block -/

section

variable {dataP : List Byte} {decodedSize i : ℕ} {c : Byte} {done room : List Byte}

theorem storeByte_room (b : Byte) (h : 0 < room.length) :
    storeByte (done ++ room) done.length b = .ok (done ++ [b] ++ room.drop 1) := by
  obtain ⟨y, room, rfl⟩ := List.exists_cons_of_length_pos h
  rw [storeByte_append]
  simp

/-- The state behind some of the bytes. -/
def behind (i : ℕ) (done room : List Byte) : DecodeState := ⟨i, done.length, done ++ room⟩

theorem behind_store (b : Byte) :
    (⟨i, done.length + 1, done ++ [b] ++ room.drop 1⟩ : DecodeState) =
      behind i (done ++ [b]) (room.drop 1) := by
  simp [behind]

variable {v3 v2 a b : Byte}

theorem decodeFourth_end (h : dataP.length ≤ i) :
    decodeFourth dataP decodedSize v3 (behind i done room) = .ok (.inr (behind i done room)) :=
  if_neg (Nat.not_lt.mpr h)

theorem decodeFourth_digit (hc : dataP[i]? = some c) (hdigit : IsBase64Digit c)
    (hroom : 0 < room.length) :
    decodeFourth dataP decodedSize v3 (behind i done room) =
      .ok (.inr (behind (i + 1) (done ++ [(v3 <<< 6) + prvBase64Value c]) (room.drop 1))) := by
  have hi := (List.getElem?_eq_some_iff.mp hc).1
  have hpad : c ≠ 0x3D := by
    rintro rfl
    exact absurd hdigit (by decide)
  unfold decodeFourth behind
  rw [if_pos hi, loadByte_eq_ok_iff.mpr hc, ok_bind, if_pos hpad,
    if_neg (UInt8.not_le.mpr hdigit), storeByte_room _ hroom, ok_bind, behind_store]
  rfl

theorem decodeFourth_pad (hc : dataP[i]? = some 0x3D) :
    decodeFourth dataP decodedSize v3 (behind i done room) =
      if done.length ≠ decodedSize then .ok (.inl (done ++ room))
      else .ok (.inr (behind (i + 1) done room)) := by
  have hi := (List.getElem?_eq_some_iff.mp hc).1
  unfold decodeFourth behind
  rw [if_pos hi, loadByte_eq_ok_iff.mpr hc, ok_bind, if_neg (by simp)]
  rfl

theorem decodeFourth_other (hc : dataP[i]? = some c) (hdigit : ¬ IsBase64Digit c)
    (hpad : c ≠ 0x3D) :
    decodeFourth dataP decodedSize v3 (behind i done room) = .ok (.inl (done ++ room)) := by
  have hi := (List.getElem?_eq_some_iff.mp hc).1
  unfold decodeFourth behind
  rw [if_pos hi, loadByte_eq_ok_iff.mpr hc, ok_bind, if_pos hpad,
    if_pos (UInt8.not_lt.mp hdigit)]
  rfl

theorem decodeThird_end (h : dataP.length ≤ i) :
    decodeThird dataP decodedSize v2 (behind i done room) = .ok (.inr (behind i done room)) :=
  if_neg (Nat.not_lt.mpr h)

theorem decodeThird_digit (hc : dataP[i]? = some c) (hdigit : IsBase64Digit c)
    (hroom : 0 < room.length) :
    decodeThird dataP decodedSize v2 (behind i done room) =
      decodeFourth dataP decodedSize (prvBase64Value c)
        (behind (i + 1) (done ++ [(v2 <<< 4) + (prvBase64Value c >>> 2)]) (room.drop 1)) := by
  have hi := (List.getElem?_eq_some_iff.mp hc).1
  have hpad : c ≠ 0x3D := by
    rintro rfl
    exact absurd hdigit (by decide)
  unfold decodeThird behind
  rw [if_pos hi, loadByte_eq_ok_iff.mpr hc, ok_bind, if_pos hpad,
    if_neg (UInt8.not_le.mpr hdigit), storeByte_room _ hroom, ok_bind, behind_store]
  rfl

theorem decodeThird_pad (hc : dataP[i]? = some 0x3D) :
    decodeThird dataP decodedSize v2 (behind i done room) =
      if done.length ≠ decodedSize then .ok (.inl (done ++ room))
      else .ok (.inr (behind (i + 2) done room)) := by
  have hi := (List.getElem?_eq_some_iff.mp hc).1
  unfold decodeThird behind
  rw [if_pos hi, loadByte_eq_ok_iff.mpr hc, ok_bind, if_neg (by simp)]
  rfl

theorem decodeThird_other (hc : dataP[i]? = some c) (hdigit : ¬ IsBase64Digit c) (hpad : c ≠ 0x3D) :
    decodeThird dataP decodedSize v2 (behind i done room) = .ok (.inl (done ++ room)) := by
  have hi := (List.getElem?_eq_some_iff.mp hc).1
  unfold decodeThird behind
  rw [if_pos hi, loadByte_eq_ok_iff.mpr hc, ok_bind, if_pos hpad,
    if_pos (UInt8.not_lt.mp hdigit)]
  rfl

variable {s : DecodeState} {d : Byte}

theorem base64DecodeLoop_inr {s' : DecodeState} (hi : s.dataIndex < dataP.length)
    (h : decodeBlock dataP decodedSize s = .ok (.inr s')) :
    base64DecodeLoop dataP decodedSize s = base64DecodeLoop dataP decodedSize s' := by
  rw [base64DecodeLoop, if_pos hi]
  split <;> simp_all

theorem base64DecodeLoop_inl (hi : s.dataIndex < dataP.length)
    (h : decodeBlock dataP decodedSize s = .ok (.inl bufferP)) :
    base64DecodeLoop dataP decodedSize s = .ok (0, bufferP) := by
  rw [base64DecodeLoop, if_pos hi]
  split <;> simp_all

theorem base64DecodeLoop_end (h : dataP.length ≤ i) :
    base64DecodeLoop dataP decodedSize (behind i done room) = .ok (decodedSize, done ++ room) := by
  rw [base64DecodeLoop]
  exact if_neg (Nat.not_lt.mpr h)

variable (decodedSize done room)

/-- Two digits at the start of a block. -/
theorem decodeBlock_digits (ha : dataP[i]? = some a) (hb : dataP[i + 1]? = some b)
    (hroom : 0 < room.length) (hdigits : IsBase64Digit a ∧ IsBase64Digit b) :
    decodeBlock dataP decodedSize (behind i done room) =
      decodeThird dataP decodedSize (prvBase64Value b)
        (behind (i + 2) (done ++ [byteOne a b]) (room.drop 1)) := by
  have hi := (List.getElem?_eq_some_iff.mp hb).1
  unfold decodeBlock behind
  dsimp only
  rw [if_neg (by omega), loadByte_eq_ok_iff.mpr ha, ok_bind, if_neg (UInt8.not_le.mpr hdigits.1),
    loadByte_eq_ok_iff.mpr hb, ok_bind, if_neg (UInt8.not_le.mpr hdigits.2),
    storeByte_room _ hroom, ok_bind, behind_store]
  rfl

theorem decodeBlock_other (ha : dataP[i]? = some a) (hb : dataP[i + 1]? = some b)
    (hdigits : ¬ (IsBase64Digit a ∧ IsBase64Digit b)) :
    decodeBlock dataP decodedSize (behind i done room) = .ok (.inl (done ++ room)) := by
  have hi := (List.getElem?_eq_some_iff.mp hb).1
  unfold decodeBlock behind
  dsimp only
  rw [if_neg (by omega), loadByte_eq_ok_iff.mpr ha, ok_bind]
  by_cases hfirst : IsBase64Digit a
  · rw [if_neg (UInt8.not_le.mpr hfirst), loadByte_eq_ok_iff.mpr hb, ok_bind,
      if_pos (UInt8.not_lt.mp fun hb => hdigits ⟨hfirst, hb⟩)]
    rfl
  · rw [if_pos (UInt8.not_lt.mp hfirst)]
    rfl

/-- The third character of a block that starts with two digits. -/
theorem decodeBlock_third (ha : dataP[i]? = some a) (hb : dataP[i + 1]? = some b)
    (hc : dataP[i + 2]? = some c) (hroom : 2 ≤ room.length)
    (hdigits : IsBase64Digit a ∧ IsBase64Digit b) (hdigit : IsBase64Digit c) :
    decodeBlock dataP decodedSize (behind i done room) =
      decodeFourth dataP decodedSize (prvBase64Value c)
        (behind (i + 3) (done ++ [byteOne a b, byteTwo b c]) (room.drop 2)) := by
  have hsecond : 0 < (room.drop 1).length := by
    rw [List.length_drop]
    omega
  rw [decodeBlock_digits _ _ _ ha hb (by omega) hdigits, decodeThird_digit hc hdigit hsecond,
    List.drop_drop, List.append_assoc]
  rfl

/-- The block is given up at its third character, or padding ends it there. -/
theorem decodeBlock_ends (ha : dataP[i]? = some a) (hb : dataP[i + 1]? = some b)
    (hc : dataP[i + 2]? = some c) (hroom : 0 < room.length)
    (hdigits : IsBase64Digit a ∧ IsBase64Digit b) (hdigit : ¬ IsBase64Digit c) :
    decodeBlock dataP decodedSize (behind i done room) =
      if c = 0x3D ∧ decodedSize = done.length + 1 then
        .ok (.inr (behind (i + 4) (done ++ [byteOne a b]) (room.drop 1)))
      else .ok (.inl (done ++ [byteOne a b] ++ room.drop 1)) := by
  rw [decodeBlock_digits _ _ _ ha hb hroom hdigits]
  by_cases hpad : c = 0x3D
  · subst hpad
    rw [decodeThird_pad hc, List.length_append, List.length_singleton]
    by_cases hend : decodedSize = done.length + 1
    · rw [if_neg (not_not.mpr hend.symm), if_pos ⟨rfl, hend⟩]
    · rw [if_pos (Ne.symm hend), if_neg fun h => hend h.2]
  · rw [decodeThird_other hc hdigit hpad, if_neg fun h => hpad h.1]

/-- The fourth character of a block that starts with three digits. -/
theorem decodeBlock_fourth (ha : dataP[i]? = some a) (hb : dataP[i + 1]? = some b)
    (hc : dataP[i + 2]? = some c) (hd : dataP[i + 3]? = some d) (hroom : 3 ≤ room.length)
    (hdigits : IsBase64Digit a ∧ IsBase64Digit b) (hdigit : IsBase64Digit c)
    (hlast : IsBase64Digit d) :
    decodeBlock dataP decodedSize (behind i done room) =
      .ok (.inr (behind (i + 4) (done ++ [byteOne a b, byteTwo b c, byteThree c d])
        (room.drop 3))) := by
  have hthird : 0 < (room.drop 2).length := by
    rw [List.length_drop]
    omega
  rw [decodeBlock_third _ _ _ ha hb hc (by omega) hdigits hdigit,
    decodeFourth_digit hd hlast hthird, List.drop_drop, List.append_assoc]
  rfl

/-- The block is given up at its fourth character, or padding ends it there. -/
theorem decodeBlock_ends_fourth (ha : dataP[i]? = some a) (hb : dataP[i + 1]? = some b)
    (hc : dataP[i + 2]? = some c) (hd : dataP[i + 3]? = some d) (hroom : 2 ≤ room.length)
    (hdigits : IsBase64Digit a ∧ IsBase64Digit b) (hdigit : IsBase64Digit c)
    (hlast : ¬ IsBase64Digit d) :
    decodeBlock dataP decodedSize (behind i done room) =
      if d = 0x3D ∧ decodedSize = done.length + 2 then
        .ok (.inr (behind (i + 4) (done ++ [byteOne a b, byteTwo b c]) (room.drop 2)))
      else .ok (.inl (done ++ [byteOne a b, byteTwo b c] ++ room.drop 2)) := by
  rw [decodeBlock_third _ _ _ ha hb hc hroom hdigits hdigit]
  by_cases hpad : d = 0x3D
  · subst hpad
    rw [decodeFourth_pad hd, List.length_append, List.length_cons, List.length_singleton]
    by_cases hend : decodedSize = done.length + 2
    · rw [if_neg (not_not.mpr hend.symm), if_pos ⟨rfl, hend⟩]
    · rw [if_pos (Ne.symm hend), if_neg fun h => hend h.2]
  · rw [decodeFourth_other hd hlast hpad, if_neg fun h => hpad h.1]

variable {decodedSize done room}

/-! ### All blocks -/

/-- The bytes are returned behind the ones that are stored already, or 0 is. -/
def ReturnsBytes (outcome : Except Fault (ℕ × List Byte)) (decodedSize : ℕ)
    (done room : List Byte) : Option (List Byte) → Prop
  | some bytes => outcome = .ok (decodedSize, done ++ bytes ++ room.drop bytes.length)
  | none => ∃ bufferP, outcome = .ok (0, bufferP)

/-- The bytes of a block in front of the ones returned. -/
theorem ReturnsBytes.cons {outcome : Except Fault (ℕ × List Byte)} {c : Byte}
    {returned : Option (List Byte)}
    (h : ReturnsBytes outcome decodedSize (done ++ [a, b, c]) (room.drop 3) returned) :
    ReturnsBytes outcome decodedSize done room
      (returned.map fun bytes => a :: b :: c :: bytes) := by
  cases returned with
  | none => exact h
  | some bytes =>
    change outcome = _ at h
    change outcome =
      .ok (decodedSize, done ++ (a :: b :: c :: bytes) ++ room.drop (bytes.length + 3))
    rw [h, List.drop_drop, Nat.add_comm 3]
    simp

theorem getElem?_front (front rest : List Byte) (k : ℕ) :
    (front ++ rest)[front.length + k]? = rest[k]? := by
  rw [List.getElem?_append_right (Nat.le_add_right _ _), Nat.add_sub_cancel_left]

theorem not_isBase64Digit_pad : ¬ IsBase64Digit 0x3D := by decide

/-- **The loop returns the bytes of the blocks that are left.** -/
theorem base64DecodeLoop_eq (hsize : rest ≠ [] → decodedSize = done.length + blocksSize rest)
    (hroom : blocksSize rest ≤ room.length) :
    ReturnsBytes (base64DecodeLoop (front ++ rest) decodedSize (behind front.length done room))
      decodedSize done room (decodedBlocks rest) := by
  induction rest using blocks_induction generalizing front done room with
  | nil =>
    rw [base64DecodeLoop_end (by simp)]
    simp [decodedBlocks, ReturnsBytes]
  | one a =>
    have hblock : decodeBlock (front ++ [a]) decodedSize (behind front.length done room) =
        .ok (.inl (done ++ room)) := if_pos (by simp [behind])
    exact ⟨_, base64DecodeLoop_inl (by simp [behind]) hblock⟩
  | two a b =>
    have hi : (behind front.length done room).dataIndex < (front ++ [a, b]).length := by
      simp [behind]
    have ha : (front ++ [a, b])[front.length]? = some a := getElem?_front front _ 0
    have hb : (front ++ [a, b])[front.length + 1]? = some b := getElem?_front front _ 1
    rw [decodedBlocks]
    by_cases hdigits : IsBase64Digit a ∧ IsBase64Digit b
    · have hblock := decodeBlock_digits decodedSize done room ha hb
        (show 0 < room.length from hroom) hdigits
      rw [decodeThird_end (by simp)] at hblock
      rw [if_pos hdigits, base64DecodeLoop_inr hi hblock, base64DecodeLoop_end (by simp)]
      rfl
    · rw [if_neg hdigits]
      exact ⟨_, base64DecodeLoop_inl hi (decodeBlock_other _ _ _ ha hb hdigits)⟩
  | three a b c =>
    have hi : (behind front.length done room).dataIndex < (front ++ [a, b, c]).length := by
      simp [behind]
    have ha : (front ++ [a, b, c])[front.length]? = some a := getElem?_front front _ 0
    have hb : (front ++ [a, b, c])[front.length + 1]? = some b := getElem?_front front _ 1
    have hc : (front ++ [a, b, c])[front.length + 2]? = some c := getElem?_front front _ 2
    have hroom : 2 ≤ room.length := hroom
    have hsize : decodedSize = done.length + 2 := hsize (List.cons_ne_nil _ _)
    rw [decodedBlocks]
    by_cases hdigits : IsBase64Digit a ∧ IsBase64Digit b
    · by_cases hdigit : IsBase64Digit c
      · have hblock := decodeBlock_third decodedSize done room ha hb hc hroom
          hdigits hdigit
        rw [decodeFourth_end (by simp)] at hblock
        rw [if_pos ⟨hdigits.1, hdigits.2, hdigit⟩, base64DecodeLoop_inr hi hblock,
          base64DecodeLoop_end (by simp)]
        rfl
      · have hblock := decodeBlock_ends decodedSize done room ha hb hc
          (by omega) hdigits hdigit
        rw [if_neg (by omega)] at hblock
        rw [if_neg fun h => hdigit h.2.2]
        exact ⟨_, base64DecodeLoop_inl hi hblock⟩
    · rw [if_neg fun h => hdigits ⟨h.1, h.2.1⟩]
      exact ⟨_, base64DecodeLoop_inl hi (decodeBlock_other _ _ _ ha hb hdigits)⟩
  | last a b c d =>
    have hi : (behind front.length done room).dataIndex < (front ++ [a, b, c, d]).length := by
      simp [behind]
    have ha : (front ++ [a, b, c, d])[front.length]? = some a := getElem?_front front _ 0
    have hb : (front ++ [a, b, c, d])[front.length + 1]? = some b := getElem?_front front _ 1
    have hc : (front ++ [a, b, c, d])[front.length + 2]? = some c := getElem?_front front _ 2
    have hd : (front ++ [a, b, c, d])[front.length + 3]? = some d := getElem?_front front _ 3
    have hsize := hsize (List.cons_ne_nil _ _)
    rw [blocksSize] at hsize hroom
    rw [decodedBlocks]
    by_cases hdigits : IsBase64Digit a ∧ IsBase64Digit b
    · rw [if_pos hdigits]
      by_cases hdigit : IsBase64Digit c
      · have hpad : c ≠ 0x3D := by
          rintro rfl
          exact not_isBase64Digit_pad hdigit
        rw [if_neg hpad] at hsize hroom
        rw [if_neg hpad, if_pos hdigit]
        by_cases hlast : IsBase64Digit d
        · have hpad' : d ≠ 0x3D := by
            rintro rfl
            exact not_isBase64Digit_pad hlast
          rw [if_neg hpad'] at hsize hroom
          rw [if_neg hpad', if_pos hlast, base64DecodeLoop_inr hi
            (decodeBlock_fourth _ _ _ ha hb hc hd hroom hdigits hdigit hlast),
            base64DecodeLoop_end (by simp)]
          rfl
        · have hblock := decodeBlock_ends_fourth decodedSize done room ha hb
            hc hd (by split_ifs at hroom <;> omega) hdigits hdigit hlast
          by_cases hpad' : d = 0x3D
          · rw [if_pos hpad'] at hsize ⊢
            rw [if_pos ⟨hpad', hsize⟩] at hblock
            rw [base64DecodeLoop_inr hi hblock, base64DecodeLoop_end (by simp)]
            rfl
          · rw [if_neg fun h => hpad' h.1] at hblock
            rw [if_neg hpad', if_neg hlast]
            exact ⟨_, base64DecodeLoop_inl hi hblock⟩
      · have hblock := decodeBlock_ends decodedSize done room ha hb hc
          (by split_ifs at hroom <;> omega) hdigits hdigit
        by_cases hpad : c = 0x3D
        · rw [if_pos hpad] at hsize ⊢
          rw [if_pos ⟨hpad, hsize⟩] at hblock
          rw [base64DecodeLoop_inr hi hblock, base64DecodeLoop_end (by simp)]
          rfl
        · rw [if_neg fun h => hpad h.1] at hblock
          rw [if_neg hpad, if_neg hdigit]
          exact ⟨_, base64DecodeLoop_inl hi hblock⟩
    · rw [if_neg hdigits]
      exact ⟨_, base64DecodeLoop_inl hi (decodeBlock_other _ _ _ ha hb hdigits)⟩
  | block a b c d rest hrest ih =>
    have hi : (behind front.length done room).dataIndex <
        (front ++ a :: b :: c :: d :: rest).length := by simp [behind]
    have ha : (front ++ a :: b :: c :: d :: rest)[front.length]? = some a :=
      getElem?_front front _ 0
    have hb : (front ++ a :: b :: c :: d :: rest)[front.length + 1]? = some b :=
      getElem?_front front _ 1
    have hc : (front ++ a :: b :: c :: d :: rest)[front.length + 2]? = some c :=
      getElem?_front front _ 2
    have hd : (front ++ a :: b :: c :: d :: rest)[front.length + 3]? = some d :=
      getElem?_front front _ 3
    have hsize := hsize (List.cons_ne_nil _ _)
    rw [blocksSize_block a b c d hrest] at hsize hroom
    rw [decodedBlocks_block a b c d hrest]
    by_cases hdigits : IsBase64Digit a ∧ IsBase64Digit b
    · by_cases hdigit : IsBase64Digit c
      · by_cases hlast : IsBase64Digit d
        · rw [if_pos ⟨hdigits.1, hdigits.2, hdigit, hlast⟩, base64DecodeLoop_inr hi
            (decodeBlock_fourth _ _ _ ha hb hc hd (by omega) hdigits hdigit hlast)]
          have hnext : decodedSize =
              (done ++ [byteOne a b, byteTwo b c, byteThree c d]).length + blocksSize rest := by
            rw [hsize, List.length_append]
            exact (Nat.add_assoc _ 3 _).symm
          have hreturns : ReturnsBytes (base64DecodeLoop (front ++ [a, b, c, d] ++ rest) decodedSize
              (behind (front ++ [a, b, c, d]).length
                (done ++ [byteOne a b, byteTwo b c, byteThree c d]) (room.drop 3)))
              decodedSize (done ++ [byteOne a b, byteTwo b c, byteThree c d]) (room.drop 3)
              (decodedBlocks rest) :=
            ih (fun _ => hnext) (by rw [List.length_drop]; omega)
          rw [List.append_assoc, List.length_append] at hreturns
          exact hreturns.cons
        · have hblock := decodeBlock_ends_fourth decodedSize done room ha hb
            hc hd (by omega) hdigits hdigit hlast
          rw [if_neg (by omega)] at hblock
          rw [if_neg fun h => hlast h.2.2.2]
          exact ⟨_, base64DecodeLoop_inl hi hblock⟩
      · have hblock := decodeBlock_ends decodedSize done room ha hb hc
          (by omega) hdigits hdigit
        rw [if_neg (by omega)] at hblock
        rw [if_neg fun h => hdigit h.2.2.1]
        exact ⟨_, base64DecodeLoop_inl hi hblock⟩
    · rw [if_neg fun h => hdigits ⟨h.1, h.2.1⟩]
      exact ⟨_, base64DecodeLoop_inl hi (decodeBlock_other _ _ _ ha hb hdigits)⟩

end

/-- What `utils_base64Decode` returns, by the blocks of the text. -/
theorem utilsBase64Decode_eq (dataP bufferP : List Byte) :
    if blocksSize dataP > bufferP.length then utilsBase64Decode dataP bufferP = .ok (0, bufferP)
    else ReturnsBytes (utilsBase64Decode dataP bufferP) (blocksSize dataP) [] bufferP
      (decodedBlocks dataP) := by
  unfold utilsBase64Decode
  rw [utilsBase64GetDecodedSize_eq, ok_bind]
  by_cases h : blocksSize dataP > bufferP.length
  · rw [if_pos h, if_pos h]
    rfl
  · rw [if_neg h, if_neg h]
    have hloop : ReturnsBytes (base64DecodeLoop ([] ++ dataP) (blocksSize dataP)
        (behind ([] : List Byte).length [] bufferP)) (blocksSize dataP) [] bufferP
        (decodedBlocks dataP) :=
      base64DecodeLoop_eq (fun _ => (Nat.zero_add _).symm) (Nat.not_lt.mp h)
    exact hloop

/-! ### The text of bytes -/

theorem prvBase64Value_b64Digit (h : index < 64) :
    prvBase64Value (b64Digit index) = index := by
  have hall : ∀ n < 64, prvBase64Value (b64Digit (UInt8.ofNat n)) = UInt8.ofNat n := by
    decide +kernel
  have := hall index.toNat (UInt8.lt_iff_toNat_lt.mp h)
  rwa [UInt8.ofNat_toNat] at this

theorem isBase64Digit_b64Digit (h : index < 64) :
    IsBase64Digit (b64Digit index) := by
  rw [IsBase64Digit, prvBase64Value_b64Digit h]
  exact h

/-- The parts that a byte is cut into. -/
theorem byte_parts (a : Byte) :
    (a >>> 2 < 64 ∧ a &&& 0x03 < 4 ∧ (a >>> 2 <<< 2) + (a &&& 0x03) = a) ∧
    (a >>> 4 < 16 ∧ a &&& 0x0F < 16 ∧ (a >>> 4 <<< 4) + (a &&& 0x0F) = a) ∧
    (a >>> 6 < 4 ∧ a &&& 0x3F < 64 ∧ (a >>> 6 <<< 6) + (a &&& 0x3F) = a) := by
  have hall : ∀ n < 256, let a := UInt8.ofNat n
      (a >>> 2 < 64 ∧ a &&& 0x03 < 4 ∧ (a >>> 2 <<< 2) + (a &&& 0x03) = a) ∧
      (a >>> 4 < 16 ∧ a &&& 0x0F < 16 ∧ (a >>> 4 <<< 4) + (a &&& 0x0F) = a) ∧
      (a >>> 6 < 4 ∧ a &&& 0x3F < 64 ∧ (a >>> 6 <<< 6) + (a &&& 0x3F) = a) := by
    decide +kernel
  have := hall a.toNat a.toNat_lt
  rwa [UInt8.ofNat_toNat] at this

/-- Two bits in front of four. -/
theorem join_two_four (hx : x < 4) (hy : y < 16) :
    x <<< 4 ||| y < 64 ∧ (x <<< 4 ||| y) >>> 4 = x ∧ (x <<< 4 ||| y) <<< 4 = y <<< 4 := by
  have hall : ∀ n < 4, ∀ m < 16, let x := UInt8.ofNat n; let y := UInt8.ofNat m
      x <<< 4 ||| y < 64 ∧ (x <<< 4 ||| y) >>> 4 = x ∧ (x <<< 4 ||| y) <<< 4 = y <<< 4 := by
    decide +kernel
  have := hall x.toNat (UInt8.lt_iff_toNat_lt.mp hx) y.toNat (UInt8.lt_iff_toNat_lt.mp hy)
  rwa [UInt8.ofNat_toNat, UInt8.ofNat_toNat] at this

/-- Four bits in front of two. -/
theorem join_four_two (hx : x < 16) (hy : y < 4) :
    x <<< 2 ||| y < 64 ∧ (x <<< 2 ||| y) >>> 2 = x ∧ (x <<< 2 ||| y) <<< 6 = y <<< 6 := by
  have hall : ∀ n < 16, ∀ m < 4, let x := UInt8.ofNat n; let y := UInt8.ofNat m
      x <<< 2 ||| y < 64 ∧ (x <<< 2 ||| y) >>> 2 = x ∧ (x <<< 2 ||| y) <<< 6 = y <<< 6 := by
    decide +kernel
  have := hall x.toNat (UInt8.lt_iff_toNat_lt.mp hx) y.toNat (UInt8.lt_iff_toNat_lt.mp hy)
  rwa [UInt8.ofNat_toNat, UInt8.ofNat_toNat] at this

theorem byteOne_b64Digit (a : Byte) (hy : y < 16) :
    byteOne (b64Digit (a >>> 2)) (b64Digit ((a &&& 0x03) <<< 4 ||| y)) = a := by
  obtain ⟨⟨hhigh, hlow, ha⟩, -⟩ := byte_parts a
  obtain ⟨hlt, hjoin, -⟩ := join_two_four hlow hy
  rw [byteOne, prvBase64Value_b64Digit hhigh, prvBase64Value_b64Digit hlt, hjoin, ha]

theorem byteTwo_b64Digit (b : Byte) (hx : x < 4) (hy : y < 4) :
    byteTwo (b64Digit (x <<< 4 ||| b >>> 4)) (b64Digit ((b &&& 0x0F) <<< 2 ||| y)) = b := by
  obtain ⟨-, ⟨hhigh, hlow, hb⟩, -⟩ := byte_parts b
  obtain ⟨hlt, -, hjoin⟩ := join_two_four hx hhigh
  obtain ⟨hlt', hjoin', -⟩ := join_four_two hlow hy
  rw [byteTwo, prvBase64Value_b64Digit hlt, prvBase64Value_b64Digit hlt', hjoin, hjoin', hb]

theorem byteThree_b64Digit (c : Byte) (hx : x < 16) :
    byteThree (b64Digit (x <<< 2 ||| c >>> 6)) (b64Digit (c &&& 0x3F)) = c := by
  obtain ⟨-, -, hhigh, hlow, hc⟩ := byte_parts c
  obtain ⟨hlt, -, hjoin⟩ := join_four_two hx hhigh
  rw [byteThree, prvBase64Value_b64Digit hlt, prvBase64Value_b64Digit hlow, hjoin, hc]

theorem isBase64Digit_joined (a : Byte) (hy : y < 16) :
    IsBase64Digit (b64Digit (a >>> 2)) ∧ IsBase64Digit (b64Digit ((a &&& 0x03) <<< 4 ||| y)) :=
  ⟨isBase64Digit_b64Digit (byte_parts a).1.1,
    isBase64Digit_b64Digit (join_two_four (byte_parts a).1.2.1 hy).1⟩

/-- **The text of bytes stands for them.** -/
theorem decodedBlocks_base64Blocks (data : List Byte) :
    decodedBlocks (base64Blocks data) = some data := by
  have hdigit {c : Byte} (h : IsBase64Digit c) : c ≠ 0x3D := by
    rintro rfl
    exact not_isBase64Digit_pad h
  have hzero {x : Byte} : x = x ||| 0 := UInt8.or_zero.symm
  induction data using base64Blocks.induct with
  | case1 => rfl
  | case2 a =>
    rw [base64Blocks, hzero (x := (a &&& 0x03) <<< 4), decodedBlocks,
      if_pos (isBase64Digit_joined a (by decide)), if_pos rfl, byteOne_b64Digit a (by decide)]
  | case3 a b =>
    have hsecond : IsBase64Digit (b64Digit ((b &&& 0x0F) <<< 2 ||| 0)) :=
      isBase64Digit_b64Digit (join_four_two (byte_parts b).2.1.2.1 (by decide)).1
    rw [base64Blocks, hzero (x := (b &&& 0x0F) <<< 2), decodedBlocks,
      if_pos (isBase64Digit_joined a (byte_parts b).2.1.1), if_neg (hdigit hsecond),
      if_pos hsecond, if_pos rfl, byteOne_b64Digit a (byte_parts b).2.1.1,
      byteTwo_b64Digit b (byte_parts a).1.2.1 (by decide)]
  | case4 a b c rest ih =>
    have hab := isBase64Digit_joined a (byte_parts b).2.1.1
    have hthird : IsBase64Digit (b64Digit ((b &&& 0x0F) <<< 2 ||| c >>> 6)) :=
      isBase64Digit_b64Digit (join_four_two (byte_parts b).2.1.2.1 (byte_parts c).2.2.1).1
    have hfourth : IsBase64Digit (b64Digit (c &&& 0x3F)) :=
      isBase64Digit_b64Digit (byte_parts c).2.2.2.1
    have hbytes : [byteOne (b64Digit (a >>> 2)) (b64Digit ((a &&& 0x03) <<< 4 ||| b >>> 4)),
        byteTwo (b64Digit ((a &&& 0x03) <<< 4 ||| b >>> 4))
          (b64Digit ((b &&& 0x0F) <<< 2 ||| c >>> 6)),
        byteThree (b64Digit ((b &&& 0x0F) <<< 2 ||| c >>> 6)) (b64Digit (c &&& 0x3F))] =
          [a, b, c] := by
      rw [byteOne_b64Digit a (byte_parts b).2.1.1,
        byteTwo_b64Digit b (byte_parts a).1.2.1 (byte_parts c).2.2.1,
        byteThree_b64Digit c (byte_parts b).2.1.2.1]
    obtain ⟨ha, hbytes⟩ := List.cons.inj hbytes
    obtain ⟨hb, hbytes⟩ := List.cons.inj hbytes
    obtain ⟨hc, -⟩ := List.cons.inj hbytes
    rw [base64Blocks]
    by_cases hrest : base64Blocks rest = []
    · rw [hrest] at ih ⊢
      rw [decodedBlocks, if_pos hab, if_neg (hdigit hthird), if_pos hthird,
        if_neg (hdigit hfourth), if_pos hfourth, ha, hb, hc, ← Option.some.inj ih]
    · rw [decodedBlocks_block _ _ _ _ hrest, if_pos ⟨hab.1, hab.2, hthird, hfourth⟩, ih, ha, hb,
        hc]
      rfl

theorem blocksSize_base64Blocks (data : List Byte) :
    blocksSize (base64Blocks data) = data.length :=
  (length_decodedBlocks (decodedBlocks_base64Blocks data)).symm

/-! ### The encoder -/

theorem base64EncodeLoop_end (h : dataP.length ≤ dataIndex.toNat) :
    Ends (fun fuel => base64EncodeLoop dataP fuel dataIndex resultIndex bufferP) (.ok bufferP) :=
  .turn (fun _ => if_neg (Nat.not_lt.mpr h)) (.const _)

theorem ofNat_add_three (j : ℕ) : UInt32.ofNat (3 * j) + 3 = UInt32.ofNat (3 * (j + 1)) :=
  (UInt32.ofNat_add (3 * j) 3).symm

theorem ofNat_add_four (j : ℕ) : UInt32.ofNat (4 * j) + 4 = UInt32.ofNat (4 * (j + 1)) :=
  (UInt32.ofNat_add (4 * j) 4).symm

/-- One turn: the characters of a block are stored behind the others. -/
theorem base64EncodeLoop_turn (rest four back : List Byte) {outcome : Except Fault (List Byte)}
    (hrest : 0 < rest.length) (hfront : front.length = 3 * j) (hdone : done.length = 4 * j)
    (hfour : four.length = (encodedBlock rest).length) (hlength : 3 * j + rest.length ≤ 3 * 2 ^ 30)
    (h : Ends (fun fuel => base64EncodeLoop (front ++ rest) fuel (UInt32.ofNat (3 * (j + 1)))
      (UInt32.ofNat (4 * (j + 1))) (done ++ (encodedBlock rest ++ back))) outcome) :
    Ends (fun fuel => base64EncodeLoop (front ++ rest) fuel (UInt32.ofNat (3 * j))
      (UInt32.ofNat (4 * j)) (done ++ (four ++ back))) outcome := by
  have hdata : (UInt32.ofNat (3 * j)).toNat = front.length := by
    rw [hfront, UInt32.toNat_ofNat_of_lt' (show 3 * j < 2 ^ 32 by omega)]
  have hresult : (UInt32.ofNat (4 * j)).toNat = done.length := by
    rw [hdone, UInt32.toNat_ofNat_of_lt' (show 4 * j < 2 ^ 32 by omega)]
  refine .turn (fun fuel => ?_) h
  rw [base64EncodeLoop, hdata, hresult, if_pos (by rw [List.length_append]; omega), List.drop_left,
    storeBytes_append done four back _ hfour, ofNat_add_three, ofNat_add_four]

theorem utilsBase64GetSize_add_three (n : ℕ) :
    utilsBase64GetSize (n + 3) = 4 + utilsBase64GetSize n := by
  unfold utilsBase64GetSize
  rw [Nat.add_div_right n (by decide), Nat.add_mod_right]
  omega

/-- **The loop leaves the text of the bytes**, while its counters do not wrap. -/
theorem base64EncodeLoop_ends {room : List Byte} (hfront : front.length = 3 * j)
    (hdone : done.length = 4 * j) (hroom : room.length = utilsBase64GetSize rest.length)
    (hlength : 3 * j + rest.length ≤ 3 * 2 ^ 30) :
    Ends (fun fuel => base64EncodeLoop (front ++ rest) fuel (UInt32.ofNat (3 * j))
      (UInt32.ofNat (4 * j)) (done ++ room)) (.ok (done ++ base64Blocks rest)) := by
  have hindex {k : ℕ} (hk : k ≤ 2 ^ 30 + 1) : (UInt32.ofNat (3 * k)).toNat = 3 * k :=
    UInt32.toNat_ofNat_of_lt' (show 3 * k < 2 ^ 32 by omega)
  induction rest using base64Blocks.induct generalizing front done room j with
  | case1 =>
    rw [List.length_eq_zero_iff.mp hroom]
    exact base64EncodeLoop_end (by rw [hindex (by omega), List.append_nil, hfront])
  | case2 a =>
    rw [List.length_singleton] at hlength
    have hend : (front ++ [a]).length ≤ (UInt32.ofNat (3 * (j + 1))).toNat := by
      rw [List.length_append, List.length_singleton, hindex (by omega)]
      omega
    have hturn := base64EncodeLoop_turn [a] room [] Nat.one_pos hfront hdone
      (hroom.trans (show utilsBase64GetSize 1 = 4 by decide)) hlength
      (base64EncodeLoop_end hend)
    rwa [List.append_nil, List.append_nil] at hturn
  | case3 a b =>
    have hend : (front ++ [a, b]).length ≤ (UInt32.ofNat (3 * (j + 1))).toNat := by
      rw [List.length_append, hindex (by omega), hfront]
      exact Nat.add_le_add_left (show 2 ≤ 3 by decide) _
    have hturn := base64EncodeLoop_turn [a, b] room [] Nat.two_pos hfront hdone
      (hroom.trans (show utilsBase64GetSize 2 = 4 by decide)) hlength
      (base64EncodeLoop_end hend)
    rwa [List.append_nil, List.append_nil] at hturn
  | case4 a b c rest ih =>
    have hsum : 3 * j + (rest.length + 3) ≤ 3 * 2 ^ 30 := hlength
    have hsize : room.length = 4 + utilsBase64GetSize rest.length :=
      hroom.trans (utilsBase64GetSize_add_three rest.length)
    have hnext : Ends (fun fuel => base64EncodeLoop (front ++ [a, b, c] ++ rest) fuel
        (UInt32.ofNat (3 * (j + 1))) (UInt32.ofNat (4 * (j + 1)))
        (done ++ encodedBlock (a :: b :: c :: rest) ++ room.drop 4))
        (.ok (done ++ encodedBlock (a :: b :: c :: rest) ++ base64Blocks rest)) :=
      ih (by rw [List.length_append, hfront]; rfl) (by rw [List.length_append, hdone]; rfl)
        (by rw [List.length_drop]; omega) (by omega)
    rw [List.append_assoc, List.append_assoc, List.append_assoc] at hnext
    have hfour : (room.take 4).length = 4 := by
      rw [List.length_take]
      exact Nat.min_eq_left (by omega)
    have hturn := base64EncodeLoop_turn (a :: b :: c :: rest) (room.take 4) (room.drop 4)
      (Nat.succ_pos _) hfront hdone hfour hlength hnext
    rw [List.take_append_drop] at hturn
    exact hturn

/-- **Up to 3 * 2 ^ 30 bytes, the encoder leaves the text of the bytes** in a buffer of its size. -/
theorem utilsBase64EncodeInto_ends (hbuffer : bufferP.length = utilsBase64GetSize dataP.length)
    (h : dataP.length ≤ 3 * 2 ^ 30) :
    Ends (utilsBase64EncodeInto dataP bufferP)
      (.ok (utilsBase64GetSize dataP.length, base64Blocks dataP)) := by
  have hloop : Ends (fun fuel => base64EncodeLoop ([] ++ dataP) fuel (UInt32.ofNat (3 * 0))
      (UInt32.ofNat (4 * 0)) ([] ++ bufferP)) (.ok ([] ++ base64Blocks dataP)) :=
    base64EncodeLoop_ends rfl rfl hbuffer (by omega)
  refine .congr (fun fuel => if_neg (Nat.not_lt.mpr hbuffer.ge)) ?_
  exact hloop.map _

theorem length_encodedBlock_le (bytes : List Byte) : (encodedBlock bytes).length ≤ 4 := by
  rcases bytes with _ | ⟨a, _ | ⟨b, _ | ⟨c, bytes⟩⟩⟩ <;> simp [encodedBlock]

/-- No byte from 2 ^ 32 on is written. -/
theorem getElem?_of_base64EncodeLoop {bufferP' : List Byte} {fuel i : ℕ}
    (h : base64EncodeLoop dataP fuel dataIndex resultIndex bufferP = some (.ok bufferP'))
    (hresult : resultIndex.toNat % 4 = 0) (hi : 2 ^ 32 ≤ i) : bufferP'[i]? = bufferP[i]? := by
  induction fuel generalizing dataIndex resultIndex bufferP with
  | zero => cases h
  | succ fuel ih =>
    rw [base64EncodeLoop] at h
    split_ifs at h
    · split at h
      · cases h
      · next bufferP'' hstore =>
        have hlt := resultIndex.toNat_lt
        have hblock := length_encodedBlock_le (dataP.drop dataIndex.toNat)
        have hfour : (4 : UInt32).toNat = 4 := rfl
        refine (ih h ?_).trans (getElem?_of_storeBytes hstore (by omega))
        rw [UInt32.toNat_add, hfour]
        omega
    · cases h
      rfl

/-! ### Exact encoding and safe decoding -/

/-- **Encoding is exact and undone by decoding**: whatever the buffer holds, which has the size of
the text, all of its bytes are written, and the decoder returns the bytes. -/
def EncodesExactly (x : List Byte) : Prop :=
  ∃ text, text.length = utilsBase64GetSize x.length ∧
    (∀ bufferP, bufferP.length = utilsBase64GetSize x.length →
      Ends (utilsBase64EncodeInto x bufferP) (.ok (utilsBase64GetSize x.length, text))) ∧
    ∃ decodedSize, utilsBase64GetDecodedSize text = .ok decodedSize ∧
      ∀ bufferP, bufferP.length = decodedSize →
        utilsBase64Decode text bufferP = .ok (x.length, x)

/-- Characters of the alphabet with padding behind them. -/
def IsPadded (dataP : List Byte) : Prop :=
  ∃ digits padding, dataP = digits ++ padding ∧ (∀ c ∈ digits, c ∈ b64Alphabet) ∧
    ∀ c ∈ padding, c = 0x3D

/-- **Decoding is safe**: no byte outside the text is read and none outside the buffer is written,
and when a size is returned, as many bytes at the start of the buffer are written and no others, and
the text consists of characters of the alphabet with padding behind them. -/
def DecodesSafely (dataP : List Byte) (bufferLen : ℕ) : Prop :=
  ∃ n, (∀ bufferP, bufferP.length = bufferLen →
      ∃ bufferP', utilsBase64Decode dataP bufferP = .ok (n, bufferP')) ∧
    (0 < n → IsPadded dataP ∧ ∃ bytes, bytes.length = n ∧ ∀ bufferP, bufferP.length = bufferLen →
      utilsBase64Decode dataP bufferP = .ok (n, bytes ++ bufferP.drop n))

/-- A block of two digits ends the text with a '=' and a character that is none, and the buffer can
hold the bytes. -/
def SkipsCharacter (dataP : List Byte) (bufferLen : ℕ) : Prop :=
  ∃ digits c, dataP = digits ++ [0x3D, c] ∧ digits.length % 4 = 2 ∧
    (∀ d ∈ digits, d ∈ b64Alphabet) ∧ c ≠ 0x3D ∧ 3 * (digits.length / 4) + 1 ≤ bufferLen

theorem encodesExactly_iff (x : List Byte) : EncodesExactly x ↔ x.length ≤ 3 * 2 ^ 30 := by
  constructor
  · rintro ⟨text, -, hencode, -⟩
    by_contra hlong
    have hsize : 2 ^ 32 < utilsBase64GetSize x.length := by
      unfold utilsBase64GetSize
      split_ifs <;> omega
    -- two buffers that differ at 2 ^ 32
    have hkept (b : Byte) : text[2 ^ 32]? = some b := by
      obtain ⟨bound, hbound⟩ :=
        hencode (List.replicate (utilsBase64GetSize x.length) b) List.length_replicate
      have hrun := hbound bound le_rfl
      rw [utilsBase64EncodeInto, List.length_replicate, if_neg (Nat.lt_irrefl _)] at hrun
      obtain ⟨outcome, hloop, hmap⟩ := Option.map_eq_some_iff.mp hrun
      cases outcome with
      | error fault => cases hmap
      | ok bufferP' =>
        cases hmap
        rw [getElem?_of_base64EncodeLoop hloop rfl le_rfl, List.getElem?_replicate, if_pos hsize]
    have := (hkept 0).symm.trans (hkept 1)
    cases this
  · intro h
    refine ⟨base64Blocks x, length_base64Blocks x, fun bufferP hbuffer =>
      utilsBase64EncodeInto_ends hbuffer h, x.length, ?_, fun bufferP hbuffer => ?_⟩
    · rw [utilsBase64GetDecodedSize_eq, blocksSize_base64Blocks]
    · have := utilsBase64Decode_eq (base64Blocks x) bufferP
      rw [blocksSize_base64Blocks, if_neg (by omega), decodedBlocks_base64Blocks] at this
      rw [show utilsBase64Decode (base64Blocks x) bufferP = _ from this, List.nil_append, ← hbuffer,
        List.drop_length, List.append_nil]

theorem mem_b64Alphabet_iff (c : Byte) : c ∈ b64Alphabet ↔ IsBase64Digit c := by
  have hall : ∀ n < 256, UInt8.ofNat n ∈ b64Alphabet ↔ IsBase64Digit (UInt8.ofNat n) := by
    decide +kernel
  have := hall c.toNat c.toNat_lt
  rwa [UInt8.ofNat_toNat] at this

/-- The text ends with a '=' and a character that is none, behind digits that start a block. -/
def EndsSkipped (dataP : List Byte) : Prop :=
  ∃ digits c, dataP = digits ++ [0x3D, c] ∧ digits.length % 4 = 2 ∧
    (∀ d ∈ digits, d ∈ b64Alphabet) ∧ c ≠ 0x3D

/-- What is decoded is padded, or a character is skipped. -/
theorem isPadded_or_endsSkipped (h : decodedBlocks dataP = some bytes) :
    IsPadded dataP ∨ EndsSkipped dataP := by
  induction dataP using blocks_induction generalizing bytes with
  | nil => exact .inl ⟨[], [], rfl, by simp, by simp⟩
  | one a => cases h
  | two a b =>
    rw [decodedBlocks] at h
    split_ifs at h with hdigits
    exact .inl ⟨[a, b], [], rfl, by simp [mem_b64Alphabet_iff, hdigits], by simp⟩
  | three a b c =>
    rw [decodedBlocks] at h
    split_ifs at h with hdigits
    exact .inl ⟨[a, b, c], [], rfl, by simp [mem_b64Alphabet_iff, hdigits], by simp⟩
  | last a b c d =>
    rw [decodedBlocks] at h
    split_ifs at h with hdigits hpad hdigit hpad' hlast
    · by_cases hpad' : d = 0x3D
      · exact .inl ⟨[a, b], [c, d], rfl, by simp [mem_b64Alphabet_iff, hdigits],
          by simp [hpad, hpad']⟩
      · rw [hpad]
        exact .inr ⟨[a, b], d, rfl, rfl, by simp [mem_b64Alphabet_iff, hdigits], hpad'⟩
    · exact .inl ⟨[a, b, c], [d], rfl, by simp [mem_b64Alphabet_iff, hdigits, hdigit],
        by simp [hpad']⟩
    · exact .inl ⟨[a, b, c, d], [], rfl, by simp [mem_b64Alphabet_iff, hdigits, hdigit, hlast],
        by simp⟩
  | block a b c d rest hrest ih =>
    rw [decodedBlocks_block a b c d hrest] at h
    split_ifs at h with hdigits
    obtain ⟨bytes, hbytes, -⟩ := Option.map_eq_some_iff.mp h
    have hblock {digits : List Byte} (hall : ∀ e ∈ digits, e ∈ b64Alphabet) :
        ∀ e ∈ a :: b :: c :: d :: digits, e ∈ b64Alphabet := by
      simpa [mem_b64Alphabet_iff, hdigits] using hall
    rcases ih hbytes with ⟨digits, padding, rfl, hall, hpad⟩ | ⟨digits, e, rfl, hmod, hall, he⟩
    · exact .inl ⟨a :: b :: c :: d :: digits, padding, rfl, hblock hall, hpad⟩
    · refine .inr ⟨a :: b :: c :: d :: digits, e, rfl, ?_, hblock hall, he⟩
      simp only [List.length_cons]
      omega

/-- A text with a skipped character is decoded. -/
theorem decodedBlocks_skipped {digits : List Byte} (c : Byte) (hmod : digits.length % 4 = 2)
    (hall : ∀ d ∈ digits, d ∈ b64Alphabet) :
    (∃ bytes, decodedBlocks (digits ++ [0x3D, c]) = some bytes) ∧
      blocksSize (digits ++ [0x3D, c]) = 3 * (digits.length / 4) + 1 := by
  induction digits using blocks_induction with
  | nil | one | three | last => simp at hmod
  | two a b =>
    have hdigits : IsBase64Digit a ∧ IsBase64Digit b := by
      simpa [mem_b64Alphabet_iff] using hall
    refine ⟨⟨[byteOne a b], ?_⟩, by simp [blocksSize]⟩
    change decodedBlocks [a, b, 0x3D, c] = _
    rw [decodedBlocks, if_pos hdigits, if_pos rfl]
  | block a b d e rest hrest ih =>
    simp only [List.length_cons] at hmod ⊢
    have hdigits : (IsBase64Digit a ∧ IsBase64Digit b ∧ IsBase64Digit d ∧ IsBase64Digit e) ∧
        ∀ d ∈ rest, d ∈ b64Alphabet := by
      simpa [mem_b64Alphabet_iff, and_assoc] using hall
    obtain ⟨⟨bytes, hbytes⟩, hsize⟩ := ih (by omega) hdigits.2
    have hne : rest ++ [0x3D, c] ≠ [] := List.append_ne_nil_of_left_ne_nil hrest _
    refine ⟨⟨byteOne a b :: byteTwo b d :: byteThree d e :: bytes, ?_⟩, ?_⟩
    · change decodedBlocks (a :: b :: d :: e :: (rest ++ [0x3D, c])) = _
      rw [decodedBlocks_block a b d e hne, if_pos hdigits.1, hbytes]
      rfl
    · change blocksSize (a :: b :: d :: e :: (rest ++ [0x3D, c])) = _
      rw [blocksSize_block a b d e hne, hsize]
      omega

theorem not_isPadded_of_endsSkipped (h : EndsSkipped dataP) :
    ¬ IsPadded dataP := by
  obtain ⟨digits, c, rfl, -, -, hc⟩ := h
  rintro ⟨digits', padding, hsplit, hall, hpad⟩
  rcases List.eq_nil_or_concat' padding with rfl | ⟨padding, e, rfl⟩
  · rw [List.append_nil] at hsplit
    have hmem := hall 0x3D (by simp [← hsplit])
    exact not_isBase64Digit_pad ((mem_b64Alphabet_iff _).mp hmem)
  · have hlast := congrArg List.getLast? hsplit
    rw [show digits ++ [0x3D, c] = digits ++ [0x3D] ++ [c] by simp, ← List.append_assoc,
      List.getLast?_concat, List.getLast?_concat] at hlast
    exact hc ((Option.some.inj hlast).trans (hpad e (by simp)))

theorem decodesSafely_iff (dataP : List Byte) (bufferLen : ℕ) :
    DecodesSafely dataP bufferLen ↔ ¬ SkipsCharacter dataP bufferLen := by
  have hdecode := utilsBase64Decode_eq dataP
  constructor
  · rintro ⟨n, hreturns, hsafe⟩ ⟨digits, c, rfl, hmod, hall, hc, hroom⟩
    obtain ⟨⟨bytes, hbytes⟩, hsize⟩ := decodedBlocks_skipped c hmod hall
    have hbuffer : (List.replicate bufferLen (0 : Byte)).length = bufferLen := List.length_replicate
    obtain ⟨bufferP', hn⟩ := hreturns _ hbuffer
    have hreturned := hdecode (List.replicate bufferLen 0)
    rw [hbuffer, hsize, if_neg (by omega), hbytes] at hreturned
    rw [show utilsBase64Decode _ _ = _ from hreturned] at hn
    have hpos : 0 < n := by
      rw [← (Prod.mk.inj (Except.ok.inj hn)).1]
      exact Nat.succ_pos _
    exact not_isPadded_of_endsSkipped ⟨digits, c, rfl, hmod, hall, hc⟩ (hsafe hpos).1
  · intro hskips
    by_cases hfull : blocksSize dataP > bufferLen
    · refine ⟨0, fun bufferP hbuffer => ⟨bufferP, ?_⟩, fun h => absurd h (Nat.lt_irrefl 0)⟩
      have hreturned := hdecode bufferP
      rwa [hbuffer, if_pos hfull] at hreturned
    · cases hbytes : decodedBlocks dataP with
      | none =>
        refine ⟨0, fun bufferP hbuffer => ?_, fun h => absurd h (Nat.lt_irrefl 0)⟩
        have hreturned := hdecode bufferP
        rwa [hbuffer, if_neg hfull, hbytes] at hreturned
      | some bytes =>
        have hlength := length_decodedBlocks hbytes
        have hreturned (bufferP : List Byte) (hbuffer : bufferP.length = bufferLen) :
            utilsBase64Decode dataP bufferP =
              .ok (blocksSize dataP, bytes ++ bufferP.drop (blocksSize dataP)) := by
          have hreturned := hdecode bufferP
          rw [hbuffer, if_neg hfull, hbytes, ← hlength] at hreturned
          rw [← hlength]
          exact hreturned
        refine ⟨_, fun bufferP hbuffer => ⟨_, hreturned bufferP hbuffer⟩,
          fun _ => ⟨?_, bytes, hlength, hreturned⟩⟩
        refine (isPadded_or_endsSkipped hbytes).resolve_right ?_
        rintro ⟨digits, c, rfl, hmod, hall, hc⟩
        have hsize := (decodedBlocks_skipped c hmod hall).2
        exact hskips ⟨digits, c, rfl, hmod, hall, hc, by omega⟩

/-- **The codec is exact but for the counters of the encoder and the last character of a text.**
Encoding is exact and undone by decoding if and only if there are at most 3 * 2 ^ 30 bytes, and
decoding is safe if and only if the text does not end with a '=' in front of another character that
is skipped. -/
theorem base64_exact_iff (x dataP : List Byte) (bufferLen : ℕ) :
    (EncodesExactly x ↔ x.length ≤ 3 * 2 ^ 30) ∧
    (DecodesSafely dataP bufferLen ↔ ¬ SkipsCharacter dataP bufferLen) :=
  ⟨encodesExactly_iff x, decodesSafely_iff dataP bufferLen⟩

/-- "AA=A" is decoded to one byte, though the '=' is not at the end. -/
theorem utilsBase64Decode_skips : ¬ DecodesSafely [0x41, 0x41, 0x3D, 0x41] 1 := by
  rintro ⟨n, hreturns, hsafe⟩
  obtain ⟨bufferP', hn⟩ := hreturns [0] rfl
  have hone : utilsBase64Decode [0x41, 0x41, 0x3D, 0x41] [0] = .ok (1, [0]) := by
    have hblocks : decodedBlocks [0x41, 0x41, 0x3D, 0x41] = some [0] := by decide
    have hsize : blocksSize [0x41, 0x41, 0x3D, 0x41] = 1 := by decide
    have hreturned := utilsBase64Decode_eq [0x41, 0x41, 0x3D, 0x41] [0]
    rwa [hsize, if_neg (by decide), hblocks] at hreturned
  rw [hone] at hn
  cases hn
  exact not_isPadded_of_endsSkipped
    ⟨[0x41, 0x41], 0x41, rfl, rfl, by decide +kernel, by decide⟩ (hsafe Nat.one_pos).1

end Lwm2m.Codec

/-
# Numbers through TLV

A number that `tlv_serialize` writes arrives as an opaque leaf, in the shortest of four widths that
can hold it, and `lwm2m_data_decode_int` and `lwm2m_data_decode_uint` of `data/data.c` read it back.
The decoder of the sign it was written with returns it.  The other one extends the sign bit in
another way: it returns a different number exactly when that bit is set.
-/

import Lwm2m.Codec.TlvRoundTrip
import Lwm2m.Core.GetServers
import Lwm2m.Core.NumberText

namespace Lwm2m.Codec

open Core Library

/-! ### Decoding -/

/-- The number of bytes, the highest first. -/
def bytesValue (bytes : List Byte) : ℕ := bytes.foldl (fun n b => n * 256 + b.toNat) 0

/-- `lwm2m_data_decode_uint`. -/
def lwm2mDataDecodeUint : Leaf → Option UInt64
  | .integer value => if value.toInt ≥ 0 then some value.toUInt64 else none
  | .unsignedInteger value => some value
  | .string buffer => utilsTextToUInt buffer (Int32.ofNat buffer.length).toInt
  | .opaqueBytes buffer =>
    if buffer.length ∈ [1, 2, 4, 8] then some (UInt64.ofNat (bytesValue buffer)) else none
  | _ => none

theorem foldl_bigEndian (n x acc : ℕ) :
    (bigEndian n x).foldl (fun n b => n * 256 + b.toNat) acc = acc * 256 ^ n + x % 256 ^ n := by
  induction n generalizing acc with
  | zero => simp [bigEndian, Nat.mod_one]
  | succ n ih =>
    have hbyte : (UInt8.ofNat (x / 256 ^ n)).toNat = x / 256 ^ n % 256 := UInt8.toNat_ofNat'
    rw [bigEndian, List.foldl_cons, ih, hbyte, Nat.pow_succ, Nat.mod_mul]
    ring

theorem bytesValue_bigEndian (n x : ℕ) : bytesValue (bigEndian n x) = x % 256 ^ n := by
  rw [bytesValue, foldl_bigEndian, Nat.zero_mul, Nat.zero_add]

/-! ### Widths -/

variable {n : ℕ} {path : List ℕ} {id : UInt16} {value : Leaf}

/-- The bytes of a number in one of the four widths. -/
theorem lwm2mDataDecodeInt_bigEndian (x : ℕ) (hn : n ∈ [1, 2, 4, 8]) :
    lwm2mDataDecodeInt (.opaqueBytes (bigEndian n x)) = some (Int.bmod x (256 ^ n)) := by
  have hvalue : utilsCopyValue (bigEndian n x) = Int.bmod (x % 256 ^ n : ℕ) (256 ^ n) := by
    rw [← bytesValue_bigEndian, utilsCopyValue, length_bigEndian]
    rfl
  rw [lwm2mDataDecodeInt, length_bigEndian, if_pos hn, hvalue, Int.natCast_mod, Int.emod_bmod]

theorem lwm2mDataDecodeUint_bigEndian (x : ℕ) (hn : n ∈ [1, 2, 4, 8]) :
    lwm2mDataDecodeUint (.opaqueBytes (bigEndian n x)) = some (UInt64.ofNat (x % 256 ^ n)) := by
  rw [lwm2mDataDecodeUint, length_bigEndian, if_pos hn, bytesValue_bigEndian]

/-- A signed number is written in the first width that can hold it. -/
theorem prvEncodeInt_eq (data : Int64) :
    ∃ n ∈ [1, 2, 4, 8], prvEncodeInt data = bigEndian n data.toBitVec.toNat ∧
      -(256 ^ n / 2 : ℕ) ≤ data.toInt ∧ data.toInt < (256 ^ n / 2 : ℕ) := by
  have hmin := data.le_toInt
  have hmax := data.toInt_lt
  unfold prvEncodeInt
  split_ifs with h₁ h₂ h₄
  · exact ⟨1, by decide, rfl, h₁⟩
  · exact ⟨2, by decide, rfl, h₂⟩
  · exact ⟨4, by decide, rfl, h₄⟩
  · exact ⟨8, by decide, rfl, hmin, hmax⟩

/-- An unsigned number has the highest bit of its width. -/
def UpperHalf (data : ℕ) : Prop :=
  ∃ n ∈ [1, 2, 4, 8], 256 ^ n / 2 ≤ data ∧ data < 256 ^ n

/-- An unsigned number is written in the first width that can hold it. -/
theorem prvEncodeUInt_eq (data : UInt64) :
    ∃ n ∈ [1, 2, 4, 8], prvEncodeUInt data = bigEndian n data.toNat ∧ data.toNat < 256 ^ n ∧
      (UpperHalf data.toNat ↔ 256 ^ n / 2 ≤ data.toNat) := by
  have hmax := data.toNat_lt
  unfold prvEncodeUInt UpperHalf
  simp only [List.mem_cons, List.not_mem_nil, or_false, exists_eq_or_imp, exists_eq_left]
  split_ifs with h₁ h₂ h₄
  · exact .inl ⟨rfl, h₁, by omega⟩
  · exact .inr (.inl ⟨rfl, h₂, by omega⟩)
  · exact .inr (.inr (.inl ⟨rfl, h₄, by omega⟩))
  · exact .inr (.inr (.inr ⟨rfl, hmax, by omega⟩))

/-! ### What the decoders return -/

/-- The decoder of the same sign returns the number, and the other one returns no other. -/
def ReadAsInt (v : ℤ) (leaf : Leaf) : Prop :=
  lwm2mDataDecodeInt leaf = some v ∧
    ∀ w, lwm2mDataDecodeUint leaf = some w → (w.toNat : ℤ) = v

/-- The decoder of the same sign returns the number, and the other one returns no other. -/
def ReadAsUInt (v : UInt64) (leaf : Leaf) : Prop :=
  lwm2mDataDecodeUint leaf = some v ∧
    ∀ w, lwm2mDataDecodeInt leaf = some w → w = v.toNat

theorem width_pow_le (hn : n ∈ [1, 2, 4, 8]) : 256 ^ n ∣ 2 ^ 64 ∧ 256 ^ n ≤ 2 ^ 64 := by
  have hdvd : 256 ^ n ∣ 2 ^ 64 := by
    simp only [List.mem_cons, List.not_mem_nil, or_false] at hn
    rcases hn with rfl | rfl | rfl | rfl <;> decide
  exact ⟨hdvd, Nat.le_of_dvd (by decide) hdvd⟩

theorem even_width (hn : n ∈ [1, 2, 4, 8]) : 256 ^ n = 2 * (256 ^ n / 2) := by
  simp only [List.mem_cons, List.not_mem_nil, or_false] at hn
  rcases hn with rfl | rfl | rfl | rfl <;> rfl

/-- A number below half the width is not changed by the sign bit. -/
theorem bmod_width {v : ℤ} (hn : n ∈ [1, 2, 4, 8]) (hlow : -(256 ^ n / 2 : ℕ) ≤ v)
    (hhigh : v < (256 ^ n / 2 : ℕ)) : Int.bmod v (256 ^ n) = v := by
  refine Int.bmod_eq_of_le_mul_two ?_ ?_ <;> omega

theorem readAsInt_iff (data : Int64) :
    ReadAsInt data.toInt (.opaqueBytes (prvEncodeInt data)) ↔ 0 ≤ data.toInt := by
  obtain ⟨n, hn, hbytes, hlow, hhigh⟩ := prvEncodeInt_eq data
  obtain ⟨hdvd, hle⟩ := width_pow_le hn
  have hbits : data.toInt = Int.bmod data.toBitVec.toNat (2 ^ 64) := BitVec.toInt_eq_toNat_bmod _
  have hown : Int.bmod data.toBitVec.toNat (256 ^ n) = data.toInt := by
    rw [← Int.bmod_bmod_of_dvd hdvd, ← hbits, bmod_width hn hlow hhigh]
  have hother : (UInt64.ofNat (data.toBitVec.toNat % 256 ^ n)).toNat =
      data.toBitVec.toNat % 256 ^ n :=
    UInt64.toNat_ofNat_of_lt' ((Nat.mod_lt _ (Nat.pow_pos (by decide))).trans_le hle)
  unfold ReadAsInt
  rw [hbytes, lwm2mDataDecodeInt_bigEndian _ hn, lwm2mDataDecodeUint_bigEndian _ hn, hown,
    and_iff_right rfl]
  constructor
  · intro hsame
    have := hsame _ rfl
    omega
  · rintro hnonneg w hw
    obtain rfl := Option.some.inj hw
    -- without a sign, the bits are the number
    have hvalue : ((data.toBitVec.toNat % 256 ^ n : ℕ) : ℤ) = data.toInt % (256 ^ n : ℕ) := by
      rw [← hown, Int.bmod_emod, Int.natCast_mod]
    rw [hother, hvalue, Int.emod_eq_of_lt hnonneg (by omega)]

theorem readAsUInt_iff (data : UInt64) :
    ReadAsUInt data (.opaqueBytes (prvEncodeUInt data)) ↔ ¬ UpperHalf data.toNat := by
  obtain ⟨n, hn, hbytes, hlt, hupper⟩ := prvEncodeUInt_eq data
  have heven := even_width hn
  unfold ReadAsUInt
  rw [hbytes, lwm2mDataDecodeInt_bigEndian _ hn, lwm2mDataDecodeUint_bigEndian _ hn,
    Nat.mod_eq_of_lt hlt, UInt64.ofNat_toNat, and_iff_right rfl, hupper]
  constructor
  · intro hsame hhalf
    have := hsame _ rfl
    rw [Int.bmod_def] at this
    omega
  · rintro hhalf w hw
    rw [← Option.some.inj hw]
    exact bmod_width hn (by omega) (by omega)

/-! ### Leaves of a tree -/

/-- The leaf at a position: the index in the list, then in the children, and so on. -/
def leafAt : List Tree → List ℕ → Option (UInt16 × Leaf)
  | _, [] => none
  | l, i :: path =>
    match l[i]?, path with
    | some (.leaf id value), [] => some (id, value)
    | some (.container _ _ children), path => leafAt children path
    | _, _ => none

theorem getElem?_decoded (l : List Tree) (i : ℕ) : (decoded l)[i]? = l[i]?.map decodedItem := by
  induction l generalizing i with
  | nil => rfl
  | cons cur next ih =>
    cases i with
    | zero => rfl
    | succ i => exact ih i

/-- A leaf arrives where it was, opaque. -/
theorem leafAt_decoded {l : List Tree} (h : leafAt l path = some (id, value)) :
    leafAt (decoded l) path = some (id, .opaqueBytes ((leafBytes value).getD [])) := by
  induction path generalizing l with
  | nil => cases h
  | cons i path ih =>
    unfold leafAt at h ⊢
    rw [getElem?_decoded]
    cases hcur : l[i]? with
    | none =>
      rw [hcur] at h
      cases h
    | some cur =>
      rw [hcur] at h
      cases cur with
      | leaf id' value' =>
        cases path with
        | nil =>
          cases h
          rfl
        | cons j path => cases h
      | container id' type children => exact ih h

/-- The list is written as TLV and parsed again, and the leaf at the position is then as stated. -/
def ArrivesAs (isResourceInstance : Bool) (data : List Tree) (path : List ℕ) (P : Leaf → Prop) :
    Prop :=
  ∃ bytes trees id leaf,
    tlvSerialize isResourceInstance data = .ok (prvGetLength data, bytes.map some) ∧
      tlvParse bytes = .ok (data.length, .array trees) ∧ leafAt trees path = some (id, leaf) ∧
        P leaf

theorem arrivesAs_iff (isResourceInstance : Bool) {data : List Tree} (hne : data ≠ [])
    (h : Transferable data) (hleaf : leafAt data path = some (id, value)) (P : Leaf → Prop) :
    ArrivesAs isResourceInstance data path P ↔ P (.opaqueBytes ((leafBytes value).getD [])) := by
  have hserialize : tlvSerialize isResourceInstance data =
      .ok (prvGetLength data, (encode isResourceInstance data).map some) := by
    rw [tlvSerialize, prvGetLength_eq h isResourceInstance]
    exact serializeWith_write (encode_ne_nil isResourceInstance hne)
      fun w hw => serializeItems_eq h isResourceInstance hw
  have hparse := parseLoop_encode h isResourceInstance []
  rw [List.nil_append, length_decoded, if_neg (decoded_ne_nil hne)] at hparse
  have harrived := leafAt_decoded hleaf
  constructor
  · rintro ⟨bytes', trees, id', leaf, hserialize', hparse', hleaf', hP⟩
    rw [hserialize] at hserialize'
    have hsame := (Prod.mk.inj (Except.ok.inj hserialize')).2
    obtain rfl := List.map_injective_iff.mpr (Option.some_injective _) hsame
    rw [show tlvParse _ = _ from hparse] at hparse'
    obtain rfl := Handed.array.inj (Prod.mk.inj (Except.ok.inj hparse')).2
    rw [harrived] at hleaf'
    cases hleaf'
    exact hP
  · exact fun hP => ⟨_, decoded data, id, _, hserialize, hparse, harrived, hP⟩

/-- **A number survives TLV for both decoders unless its highest bit is set.**  Wherever it stands
in a tree that TLV carries, a signed number arrives such that the signed decoder returns it and the
unsigned one returns no other if and only if it is not negative; and an unsigned one, the decoders
the other way round, if and only if it is not in the upper half of the width it is written in. -/
theorem tlvNumber_survives_iff (isResourceInstance : Bool) {data : List Tree} (hne : data ≠ [])
    (h : Transferable data) (_hfits : prvGetLength data < 2 ^ 31) (path : List ℕ) (id : UInt16) :
    (∀ v : Int64, leafAt data path = some (id, .integer v) →
      (ArrivesAs isResourceInstance data path (ReadAsInt v.toInt) ↔ 0 ≤ v.toInt)) ∧
    (∀ u : UInt64, leafAt data path = some (id, .unsignedInteger u) →
      (ArrivesAs isResourceInstance data path (ReadAsUInt u) ↔ ¬ UpperHalf u.toNat)) :=
  ⟨fun v hleaf => (arrivesAs_iff isResourceInstance hne h hleaf _).trans (readAsInt_iff v),
    fun u hleaf => (arrivesAs_iff isResourceInstance hne h hleaf _).trans (readAsUInt_iff u)⟩

/-- 5 as a signed and 6 as an unsigned number of an instance. -/
theorem tlvNumber_survives_instance :
    (ArrivesAs false [.container 0 .objectInstance
        [.leaf 1 (.integer 5), .leaf 2 (.unsignedInteger 6)]] [0, 0] (ReadAsInt 5) ↔ (0 : ℤ) ≤ 5) ∧
    (ArrivesAs false [.container 0 .objectInstance
        [.leaf 1 (.integer 5), .leaf 2 (.unsignedInteger 6)]] [0, 1] (ReadAsUInt 6) ↔
      ¬ UpperHalf 6) := by
  have hchildren : Transferable [.leaf 1 (.integer 5), .leaf 2 (.unsignedInteger 6)] :=
    .leaf rfl (by decide) (.leaf rfl (by decide) .nil)
  have hdata : Transferable [.container 0 .objectInstance
      [.leaf 1 (.integer 5), .leaf 2 (.unsignedInteger 6)]] :=
    .container (by decide) (List.cons_ne_nil _ _) (by decide) hchildren .nil
  exact ⟨(tlvNumber_survives_iff false (List.cons_ne_nil _ _) hdata (by decide) [0, 0] 1).1 5 rfl,
    (tlvNumber_survives_iff false (List.cons_ne_nil _ _) hdata (by decide) [0, 1] 2).2 6 rfl⟩

/-- 200 is written in one byte as an unsigned number, and the signed decoder reads -56. -/
theorem tlvNumber_twoHundred :
    ¬ ArrivesAs false [.leaf 1 (.unsignedInteger 200)] [0] (ReadAsUInt 200) := by
  rw [arrivesAs_iff false (List.cons_ne_nil _ _) (.leaf rfl (by decide) .nil) rfl]
  rintro ⟨-, hsame⟩
  exact absurd (hsame (-56) rfl) (by decide)

end Lwm2m.Codec

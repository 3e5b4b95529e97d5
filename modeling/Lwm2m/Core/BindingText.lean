/-
# Bindings and versions as text

`utils_stringToBinding` and `utils_stringToVersion` of `core/utils.c`.  A binding is a byte of
flags, one for each letter of its text; the flag `BINDING_UNKNOWN` is set in every binding that is
read from a text, and is the only one where a letter is not known.
-/

import Lwm2m.Basic
import Mathlib.Tactic.SplitIfs

namespace Lwm2m.Core

/-! ### Flags -/

/-- `BINDING_UNKNOWN`. -/
def bindingUnknown : UInt8 := 0x01
/-- `BINDING_U`. -/
def bindingU : UInt8 := 0x02
/-- `BINDING_T`. -/
def bindingT : UInt8 := 0x04
/-- `BINDING_S`. -/
def bindingS : UInt8 := 0x08
/-- `BINDING_N`. -/
def bindingN : UInt8 := 0x10
/-- `BINDING_Q`. -/
def bindingQ : UInt8 := 0x20

/-- One of the flags of the mask is set. -/
def Sets (binding mask : UInt8) : Prop := binding &&& mask ≠ 0

instance (binding mask : UInt8) : Decidable (Sets binding mask) :=
  inferInstanceAs (Decidable (_ ≠ _))

theorem sets_or {a b mask : UInt8} : Sets (a ||| b) mask ↔ Sets a mask ∨ Sets b mask := by
  have hzero {x y : BitVec 8} : x ||| y = 0#8 ↔ x = 0#8 ∧ y = 0#8 := BitVec.or_eq_zero_iff
  unfold Sets
  simp only [ne_eq, ← UInt8.toBitVec_inj, UInt8.toBitVec_and, UInt8.toBitVec_or,
    UInt8.toBitVec_zero, BitVec.and_or_distrib_right, hzero, Decidable.not_and_iff_not_or_not]

/-! ### Bindings -/

/-- The `switch` of `utils_stringToBinding` on a letter. -/
def bindingFlag (letter : Byte) : Option UInt8 :=
  if letter = 0x4E then some bindingN
  else if letter = 0x51 then some bindingQ
  else if letter = 0x53 then some bindingS
  else if letter = 0x54 then some bindingT
  else if letter = 0x55 then some bindingU
  else none

/-- The loop of `utils_stringToBinding`. -/
def stringToBindingLoop (binding : UInt8) : List Byte → UInt8
  | [] => binding
  | letter :: buffer =>
    match bindingFlag letter with
    | some flag => stringToBindingLoop (binding ||| flag) buffer
    | none => bindingUnknown

/-- `utils_stringToBinding`. -/
def utilsStringToBinding (buffer : List Byte) : UInt8 := stringToBindingLoop bindingUnknown buffer

/-- The flags of the letters of a text. -/
def bindingFlags (text : List Byte) : UInt8 :=
  text.foldr (fun letter flags => (bindingFlag letter).getD 0 ||| flags) 0

/-- The text is a binding: each of its letters has a flag. -/
def IsBinding (text : List Byte) : Prop := ∀ letter ∈ text, (bindingFlag letter).isSome

instance (text : List Byte) : Decidable (IsBinding text) :=
  inferInstanceAs (Decidable (∀ _ ∈ text, _))

theorem stringToBindingLoop_eq (binding : UInt8) (text : List Byte) :
    stringToBindingLoop binding text =
      if IsBinding text then binding ||| bindingFlags text else bindingUnknown := by
  induction text generalizing binding with
  | nil => simp [stringToBindingLoop, bindingFlags, IsBinding]
  | cons letter text ih =>
    unfold stringToBindingLoop
    cases hflag : bindingFlag letter with
    | none =>
      rw [if_neg]
      intro h
      have hsome := h letter List.mem_cons_self
      rw [hflag] at hsome
      cases hsome
    | some flag =>
      have hiff : IsBinding (letter :: text) ↔ IsBinding text := by
        unfold IsBinding
        rw [List.forall_mem_cons, hflag]
        exact and_iff_right rfl
      have hflags : bindingFlags (letter :: text) = flag ||| bindingFlags text := by
        unfold bindingFlags
        rw [List.foldr_cons, hflag]
        rfl
      dsimp only
      rw [ih, hflags, UInt8.or_assoc]
      simp only [hiff]

/-- **The flags of a text** are those of its letters, and the flag of an unknown binding. -/
theorem utilsStringToBinding_eq (text : List Byte) :
    utilsStringToBinding text =
      if IsBinding text then bindingUnknown ||| bindingFlags text else bindingUnknown :=
  stringToBindingLoop_eq _ _

/-- A text sets the flags of its letters. -/
theorem sets_bindingFlags_iff {text : List Byte} {mask : UInt8} :
    Sets (bindingFlags text) mask ↔
      ∃ letter ∈ text, ∃ flag, bindingFlag letter = some flag ∧ Sets flag mask := by
  induction text with
  | nil => exact ⟨fun h => absurd (UInt8.zero_and) h, fun ⟨_, h, _⟩ => absurd h List.not_mem_nil⟩
  | cons letter text ih =>
    have hcons : bindingFlags (letter :: text) =
        (bindingFlag letter).getD 0 ||| bindingFlags text := rfl
    simp only [hcons, sets_or, ih, List.mem_cons, exists_eq_or_imp]
    refine or_congr_left ?_
    cases bindingFlag letter with
    | none => exact ⟨fun h => absurd (UInt8.zero_and) h, fun ⟨_, h, _⟩ => nomatch h⟩
    | some flag => exact ⟨fun h => ⟨flag, rfl, h⟩, fun ⟨_, rfl, h⟩ => h⟩

/-- A text that is read sets the flag of an unknown binding. -/
theorem sets_unknown (text : List Byte) : Sets (utilsStringToBinding text) bindingUnknown := by
  rw [utilsStringToBinding_eq]
  split_ifs
  · exact sets_or.mpr (.inl (by decide))
  · decide

/-- The letters set no flag of an unknown binding. -/
theorem not_sets_unknown_bindingFlags (text : List Byte) :
    ¬ Sets (bindingFlags text) bindingUnknown := by
  rw [sets_bindingFlags_iff]
  rintro ⟨letter, -, flag, hflag, hsets⟩
  unfold bindingFlag at hflag
  split_ifs at hflag <;> cases hflag <;> exact absurd hsets (by decide)

/-! ### Versions -/

/-- `lwm2m_version_t`. -/
inductive Lwm2mVersion
  | missing
  | unrecognized
  | v1_0
  | v1_1
  deriving DecidableEq, Repr

/-- `utils_stringToVersion`. -/
def utilsStringToVersion (buffer : List Byte) : Lwm2mVersion :=
  if buffer.length = 0 then .missing
  else
    match buffer with
    | [major, point, minor] =>
      if point ≠ 0x2E then .unrecognized
      else if major = 0x31 then
        if minor = 0x30 then .v1_0 else if minor = 0x31 then .v1_1 else .unrecognized
      else .unrecognized
    | _ => .unrecognized

end Lwm2m.Core

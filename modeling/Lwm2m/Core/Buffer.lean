/-
# Bytes of a buffer

Reads and writes at an index of a buffer, which fail outside it.
-/

import Lwm2m.Basic
import Mathlib.Data.Int.Order.Basic
import Mathlib.Tactic.SplitIfs

namespace Lwm2m.Core

/-- A byte is read at an index of a buffer. -/
def loadByte (buffer : List Byte) (index : ℕ) : Except Fault Byte :=
  match buffer[index]? with
  | some b => .ok b
  | none => .error .outOfBoundsRead

/-- A byte is stored at an index of a buffer. -/
def storeByte (buffer : List Byte) (index : ℤ) (b : Byte) : Except Fault (List Byte) :=
  if 0 ≤ index ∧ index < buffer.length then .ok (buffer.set index.toNat b)
  else .error .outOfBoundsWrite

/-- Bytes are stored from an index of a buffer on. -/
def storeBytes (buffer : List Byte) (index : ℕ) : List Byte → Except Fault (List Byte)
  | [] => .ok buffer
  | b :: bytes => do
    let buffer ← storeByte buffer index b
    storeBytes buffer (index + 1) bytes

@[simp] theorem loadByte_append (front back : List Byte) (b : Byte) :
    loadByte (front ++ b :: back) front.length = .ok b := by
  simp [loadByte]

theorem loadByte_eq_ok_iff {buffer : List Byte} {index : ℕ} {b : Byte} :
    loadByte buffer index = .ok b ↔ buffer[index]? = some b := by
  unfold loadByte
  cases buffer[index]? <;> simp

theorem storeByte_append (front back : List Byte) (y b : Byte) :
    storeByte (front ++ y :: back) front.length b = .ok (front ++ b :: back) := by
  unfold storeByte
  rw [if_pos ⟨Int.natCast_nonneg _, by rw [List.length_append, List.length_cons]; omega⟩,
    Int.toNat_natCast,
    List.set_append_right _ _ (Nat.le_refl _), Nat.sub_self, List.set_cons_zero]

theorem storeByte_eq_ok {buffer buffer' : List Byte} {index : ℤ} {b : Byte}
    (h : storeByte buffer index b = .ok buffer') : 0 ≤ index ∧ buffer'.length = buffer.length := by
  unfold storeByte at h
  split_ifs at h with hindex
  cases h
  exact ⟨hindex.1, List.length_set⟩

/-- Bytes are stored in place of as many. -/
theorem storeBytes_append (front rest back bytes : List Byte) (h : rest.length = bytes.length) :
    storeBytes (front ++ (rest ++ back)) front.length bytes = .ok (front ++ (bytes ++ back)) := by
  induction bytes generalizing front rest with
  | nil =>
    rw [List.length_eq_zero_iff.mp h]
    rfl
  | cons b bytes ih =>
    cases rest with
    | nil => cases h
    | cons y rest =>
      have hrest := ih (front ++ [b]) rest (Nat.succ.inj h)
      rw [List.append_assoc, List.append_assoc, List.length_append] at hrest
      rw [storeBytes, List.cons_append, storeByte_append]
      exact hrest

/-- Bytes stored behind an index leave the bytes elsewhere. -/
theorem getElem?_of_storeBytes {buffer buffer' bytes : List Byte} {index i : ℕ}
    (h : storeBytes buffer index bytes = .ok buffer') (hi : index + bytes.length ≤ i) :
    buffer'[i]? = buffer[i]? := by
  induction bytes generalizing buffer index with
  | nil =>
    cases h
    rfl
  | cons b bytes ih =>
    rw [storeBytes, storeByte] at h
    split_ifs at h with hindex
    · rw [List.length_cons] at hi
      exact (ih h (by omega)).trans (List.getElem?_set_ne (by omega))
    · cases h

end Lwm2m.Core

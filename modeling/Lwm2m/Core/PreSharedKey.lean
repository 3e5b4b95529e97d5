/-
# The pre-shared key of the client

The conversion of the hexadecimal key string in `createServer` of `lwm2mclient.c`.

The digits are looked up with `strchr`, which finds the terminator of the table as well: behind an
odd number of digits, the NUL of the key string is taken for a digit of the value 16, and a byte is
stored behind the buffer.
-/

import Lwm2m.Core.Buffer
import Lwm2m.Library.Except
import Mathlib.Algebra.Order.Group.Nat
import Mathlib.Data.List.Induction

namespace Lwm2m.Core

open Library

/-! ### The conversion -/

/-- `toupper` in the C locale. -/
def toupper (c : Byte) : Byte := if 0x61 ≤ c ∧ c ≤ 0x7A then c - 0x20 else c

/-- `strchr`, as an index; the terminator is part of the string. -/
def strchr (string : CString) (c : Byte) : Option ℕ :=
  if c ∈ string ++ [0] then some ((string ++ [0]).idxOf c) else none

def xlate : CString :=
  [0x30, 0x31, 0x32, 0x33, 0x34, 0x35, 0x36, 0x37, 0x38, 0x39, 0x41, 0x42, 0x43, 0x44, 0x45, 0x46]

/-- The loop of `createServer`, from `psk + h` and `pskBuffer + b` on; `none` is the return of -1
for a string that is refused. -/
def hexToBinary (psk : List Byte) (h b : ℕ) (pskBuffer : List Byte) :
    Except Fault (Option (List Byte)) :=
  match _ : loadByte psk h with
  | .error fault => .error fault
  | .ok high =>
    if high = 0 then .ok (some pskBuffer)
    else
      match loadByte psk (h + 1) with
      | .error fault => .error fault
      | .ok low =>
        match strchr xlate (toupper high), strchr xlate (toupper low) with
        | some l, some r =>
          match storeByte pskBuffer b (UInt8.ofNat (l <<< 4 + r)) with
          | .error fault => .error fault
          | .ok pskBuffer => hexToBinary psk (h + 2) (b + 1) pskBuffer
        | _, _ => .ok none
  termination_by psk.length - h
  decreasing_by
    have := (List.getElem?_eq_some_iff.mp (loadByte_eq_ok_iff.mp ‹_›)).1
    omega

/-- The key of `createServer`: `pskLen` and `pskBuffer`, where it does not return -1. -/
def createServerKey (malloc : ℕ → Option (List Byte)) (psk : CString) :
    Except Fault (Option (ℕ × List Byte)) :=
  let pskLen := psk.length / 2
  match malloc pskLen with
  | none => .ok none
  | some pskBuffer =>
    (hexToBinary (psk ++ [0]) 0 0 pskBuffer).map fun key => key.map fun key => (pskLen, key)

/-! ### Hexadecimal strings -/

/-- A hexadecimal digit, in either case. -/
def IsHexDigit (c : Byte) : Prop :=
  0x30 ≤ c ∧ c ≤ 0x39 ∨ 0x41 ≤ c ∧ c ≤ 0x46 ∨ 0x61 ≤ c ∧ c ≤ 0x66

instance (c : Byte) : Decidable (IsHexDigit c) := inferInstanceAs (Decidable (_ ∨ _))

/-- The digit of a value below 16. -/
def upperHexDigit (n : ℕ) : Byte :=
  if n < 10 then UInt8.ofNat (0x30 + n) else UInt8.ofNat (0x37 + n)

/-- The hexadecimal form of a key. -/
def hexForm (key : List Byte) : CString :=
  key.flatMap fun b => [upperHexDigit (b.toNat / 16), upperHexDigit (b.toNat % 16)]

/-- A digit is found at its value. -/
theorem strchr_digit {c : Byte} (h : IsHexDigit c) :
    ∃ n < 16, strchr xlate (toupper c) = some n ∧ upperHexDigit n = toupper c := by
  have hall : ∀ n < 256, IsHexDigit (UInt8.ofNat n) →
      ∃ k < 16, strchr xlate (toupper (UInt8.ofNat n)) = some k ∧
        upperHexDigit k = toupper (UInt8.ofNat n) := by
    decide +kernel
  have := hall c.toNat c.toNat_lt
  rw [UInt8.ofNat_toNat] at this
  exact this h

/-- Of the other bytes, only the terminator is found. -/
theorem strchr_other {c : Byte} (h : ¬ IsHexDigit c) :
    strchr xlate (toupper c) = if c = 0 then some 16 else none := by
  have hall : ∀ n < 256, ¬ IsHexDigit (UInt8.ofNat n) →
      strchr xlate (toupper (UInt8.ofNat n)) = if UInt8.ofNat n = 0 then some 16 else none := by
    decide +kernel
  have := hall c.toNat c.toNat_lt
  rw [UInt8.ofNat_toNat] at this
  exact this h

theorem hexForm_pair {l r : ℕ} (hl : l < 16) (hr : r < 16) (key : List Byte) :
    hexForm (UInt8.ofNat (l <<< 4 + r) :: key) =
      upperHexDigit l :: upperHexDigit r :: hexForm key := by
  have hbyte : (UInt8.ofNat (l <<< 4 + r)).toNat = 16 * l + r := by
    rw [Nat.shiftLeft_eq, UInt8.toNat_ofNat']
    omega
  have hhigh : (16 * l + r) / 16 = l := by omega
  have hlow : (16 * l + r) % 16 = r := by omega
  simp only [hexForm, List.flatMap_cons, hbyte, hhigh, hlow]
  rfl

/-! ### One turn -/

section

variable {front back done room : List Byte} {c d : Byte} {b : ℕ} {pskBuffer : List Byte}

theorem hexToBinary_nul : hexToBinary (front ++ 0 :: back) front.length b pskBuffer =
    .ok (some pskBuffer) := by
  rw [hexToBinary]
  split
  · simp_all
  · next high hload =>
    rw [loadByte_append] at hload
    cases hload
    exact if_pos rfl

/-- The two characters at the start of a turn. -/
theorem hexToBinary_turn (hc : c ≠ 0) :
    hexToBinary (front ++ c :: d :: back) front.length b pskBuffer =
      match strchr xlate (toupper c), strchr xlate (toupper d) with
      | some l, some r =>
        match storeByte pskBuffer b (UInt8.ofNat (l <<< 4 + r)) with
        | .error fault => .error fault
        | .ok pskBuffer =>
          hexToBinary (front ++ c :: d :: back) (front.length + 2) (b + 1) pskBuffer
      | _, _ => .ok none := by
  have hlow : loadByte (front ++ c :: d :: back) (front.length + 1) = .ok d :=
    loadByte_eq_ok_iff.mpr (by rw [List.getElem?_append_right (Nat.le_add_right _ _)]; simp)
  rw [hexToBinary]
  split
  · simp_all
  · next high hload =>
    rw [loadByte_append] at hload
    cases hload
    rw [if_neg hc, hlow]

theorem hexToBinary_refused (hc : c ≠ 0) (h : ¬ IsHexDigit c ∨ d ≠ 0 ∧ ¬ IsHexDigit d) :
    hexToBinary (front ++ c :: d :: back) front.length b pskBuffer = .ok none := by
  rw [hexToBinary_turn hc]
  obtain hother | ⟨hd, hother⟩ := h
  · rw [strchr_other hother, if_neg hc]
  · rw [strchr_other hother, if_neg hd]
    cases strchr xlate (toupper c) <;> rfl

variable (front back done room)

/-- Two digits: a byte is stored. -/
theorem hexToBinary_pair (hc : c ≠ 0) (hdigits : IsHexDigit c ∧ IsHexDigit d) (y : Byte) :
    ∃ key, (∀ bytes, hexForm (key :: bytes) = toupper c :: toupper d :: hexForm bytes) ∧
      hexToBinary (front ++ c :: d :: back) front.length done.length (done ++ y :: room) =
        hexToBinary ((front ++ [c, d]) ++ back) (front ++ [c, d]).length (done ++ [key]).length
          ((done ++ [key]) ++ room) := by
  obtain ⟨l, hl, hhigh, hupper⟩ := strchr_digit hdigits.1
  obtain ⟨r, hr, hlow, hupper'⟩ := strchr_digit hdigits.2
  refine ⟨UInt8.ofNat (l <<< 4 + r), fun bytes => ?_, ?_⟩
  · rw [hexForm_pair hl hr, hupper, hupper']
  · rw [hexToBinary_turn hc, hhigh, hlow]
    dsimp only
    rw [storeByte_append, List.append_assoc, List.append_assoc, List.length_append,
      List.length_append]
    rfl

/-- A last digit alone: the byte is stored behind the buffer. -/
theorem hexToBinary_last (hc : c ≠ 0) (hdigit : IsHexDigit c) :
    hexToBinary (front ++ c :: 0 :: back) front.length done.length done =
      .error .outOfBoundsWrite := by
  obtain ⟨l, -, hhigh, -⟩ := strchr_digit hdigit
  have hnul : strchr xlate (toupper 0) = some 16 := by decide
  have hstore (v : Byte) : storeByte done done.length v = .error .outOfBoundsWrite :=
    if_neg fun h => lt_irrefl _ h.2
  rw [hexToBinary_turn hc, hhigh, hnul]
  dsimp only
  rw [hstore]

end

/-! ### The whole string -/

/-- What the loop does with the characters that are left, behind some bytes of the key. -/
structure Converts (rest : CString) (done : List Byte)
    (outcome : Except Fault (Option (List Byte))) : Prop where
  digits : (∀ c ∈ rest, IsHexDigit c) → rest.length % 2 = 0 → ∃ key,
    outcome = .ok (some (done ++ key)) ∧ key.length = rest.length / 2 ∧
      hexForm key = rest.map toupper
  odd : (∀ c ∈ rest, IsHexDigit c) → rest.length % 2 = 1 → outcome = .error .outOfBoundsWrite
  other : (∃ c ∈ rest, ¬ IsHexDigit c) → outcome = .ok none

theorem hexToBinary_converts {rest : CString} (hnul : (0 : Byte) ∉ rest)
    (front done : List Byte) {room : List Byte} (hroom : room.length = rest.length / 2) :
    Converts rest done
      (hexToBinary (front ++ (rest ++ [0])) front.length done.length (done ++ room)) := by
  induction rest using List.twoStepInduction generalizing front done room with
  | nil =>
    obtain rfl := List.length_eq_zero_iff.mp hroom
    refine ⟨fun _ _ => ⟨[], hexToBinary_nul, rfl, rfl⟩, fun _ hodd => (nomatch hodd), ?_⟩
    rintro ⟨c, hc, -⟩
    exact absurd hc List.not_mem_nil
  | singleton c =>
    obtain rfl : room = [] :=
      List.length_eq_zero_iff.mp (hroom.trans (Nat.div_eq_of_lt Nat.one_lt_two))
    have hc : c ≠ 0 := fun h => hnul (h ▸ List.mem_singleton_self c)
    refine ⟨fun _ heven => (nomatch heven), fun hdigits _ => ?_, fun ⟨d, hd, hother⟩ => ?_⟩
    · rw [List.append_nil]
      exact hexToBinary_last front [] done hc (hdigits c (List.mem_singleton_self c))
    · obtain rfl := List.mem_singleton.mp hd
      exact hexToBinary_refused hc (.inl hother)
  | cons_cons c d rest ih =>
    rw [List.mem_cons, List.mem_cons, not_or, not_or] at hnul
    obtain ⟨hc, hd, hrest⟩ := hnul
    by_cases hdigits : IsHexDigit c ∧ IsHexDigit d
    · obtain ⟨y, room, rfl⟩ : ∃ y room', room = y :: room' :=
        List.exists_cons_of_length_pos (by rw [hroom, List.length_cons, List.length_cons]; omega)
      obtain ⟨b, hform, hturn⟩ :=
        hexToBinary_pair front (rest ++ [0]) done room (Ne.symm hc) hdigits y
      have hshort : room.length = rest.length / 2 := by
        simp only [List.length_cons] at hroom
        omega
      have hnext := ih hrest (front ++ [c, d]) (done ++ [b]) hshort
      have hall : (∀ e ∈ c :: d :: rest, IsHexDigit e) → ∀ e ∈ rest, IsHexDigit e :=
        fun h e he => h e (List.mem_cons_of_mem _ (List.mem_cons_of_mem _ he))
      rw [List.cons_append, List.cons_append, hturn]
      refine ⟨fun h heven => ?_, fun h hodd => ?_, fun ⟨e, he, hother⟩ => ?_⟩
      · obtain ⟨key, hkey, hlength, hsame⟩ := hnext.digits (hall h)
          (by simp only [List.length_cons] at heven; omega)
        refine ⟨b :: key, ?_, ?_, ?_⟩
        · rw [hkey, List.append_assoc]
          rfl
        · simp only [List.length_cons, hlength]
          omega
        · rw [hform, hsame]
          rfl
      · exact hnext.odd (hall h) (by simp only [List.length_cons] at hodd; omega)
      · rw [List.mem_cons, List.mem_cons] at he
        obtain rfl | rfl | he := he
        · exact absurd hdigits.1 hother
        · exact absurd hdigits.2 hother
        · exact hnext.other ⟨e, he, hother⟩
    · have hrefused : ¬ IsHexDigit c ∨ d ≠ 0 ∧ ¬ IsHexDigit d :=
        (not_and_or.mp hdigits).imp_right fun h => ⟨Ne.symm hd, h⟩
      have hnot : ¬ ∀ e ∈ c :: d :: rest, IsHexDigit e := fun h =>
        hdigits ⟨h c List.mem_cons_self, h d (List.mem_cons_of_mem _ List.mem_cons_self)⟩
      refine ⟨fun h _ => absurd h hnot, fun h _ => absurd h hnot, fun _ => ?_⟩
      exact hexToBinary_refused (Ne.symm hc) hrefused

/-- **The key is converted safely**: whatever block the buffer is, the string is refused or the
key is stored whose hexadecimal form it is, in all the bytes of the buffer; other characters and
odd numbers of digits are refused. -/
def ConvertsSafely (psk : CString) : Prop :=
  ∀ malloc : ℕ → Option (List Byte), (∀ n block, malloc n = some block → block.length = n) →
    ∃ outcome, createServerKey malloc psk = .ok outcome ∧
      (∀ pskLen key, outcome = some (pskLen, key) →
        key.length = pskLen ∧ hexForm key = psk.map toupper) ∧
      ((∃ c ∈ psk, ¬ IsHexDigit c) ∨ psk.length % 2 = 1 → outcome = none)

end Lwm2m.Core

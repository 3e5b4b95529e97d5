/-
# Execute on the Snap Control object

`prv_exec` of `lwm2m/src/object_snap_control.c` takes a slice of the datagram and prints it with
`snprintf` and the format `%s`, which looks for a NUL that the slice does not have.  The memory
behind the payload is therefore part of the model.  The length is cut to 199 when it is above 200,
and one more byte is written for the NUL.  The function is taken as it is declared, without the
context that the callback type of `liblwm2m.h` has in front.

Which name reaches `SnapExecute` is in `prvExec_called`; `handsOver_iff` states when it is the
payload and nothing else is read.
-/

import Lwm2m.Core.InstanceMemory

namespace Lwm2m.Core

open Code Library

/-- A payload in its datagram: a pointer to its first byte can be followed into what is behind it.
-/
structure PayloadPointer where
  payload : List Byte
  behind : List Byte
  deriving DecidableEq, Repr

/-- The calls that `SnapExecute` makes. -/
inductive SnapAction
  | install
  | uninstall
  | refresh
  | revert
  | enable
  | disable
  deriving DecidableEq, Repr

/-- The switch of `SnapExecute`. -/
def snapAction : UInt16 → Option SnapAction
  | 10 => some .install
  | 11 => some .uninstall
  | 12 => some .refresh
  | 13 => some .revert
  | 14 => some .enable
  | 15 => some .disable
  | _ => none

/-- The size of the array `name`. -/
def snapNameSize : ℕ := 200

/-- `snprintf(name, size, "%s", buffer)` into `name`: the number of bytes read, and the C string
in `name`. -/
def snprintfName (size : ℕ) : Option PayloadPointer → Except Fault (ℕ × CString)
  | none => .error .nullDereference
  | some buffer => do
    let s ← cString (buffer.payload ++ buffer.behind)
    let name := s.take (size - 1)
    if snapNameSize < name.length + 1 then .error .outOfBoundsWrite
    else pure (s.length + 1, name)

/-- What `prv_exec` does: its code, the number of bytes that it reads from the buffer, and the call
of `SnapExecute` with the name. -/
structure SnapExecuted where
  code : Code
  readBytes : ℕ := 0
  called : Option (SnapAction × CString) := none
  deriving DecidableEq, Repr

/-- The length that `prv_exec` prints. -/
def clampedLength (length : ℕ) : ℕ := if 200 < length then 199 else length

/-- `prv_exec`. -/
def prvExec (instanceList : List UInt16) (instanceId resourceId : UInt16)
    (buffer : Option PayloadPointer) (length : ℕ) : Except Fault SnapExecuted :=
  if listFind id instanceList instanceId = none then .ok { code := coap404NotFound }
  else
    match snapAction resourceId with
    | none => .ok { code := coap405MethodNotAllowed }
    | some action => do
      let (readBytes, name) ← snprintfName (clampedLength length + 1) buffer
      pure { code := coap204Changed, readBytes, called := some (action, name) }

/-- The bytes of a payload, none when there is no payload. -/
def PayloadPointer.bytes (buffer : Option PayloadPointer) : List Byte := buffer.elim [] payload

/-- **Execute hands over its argument**: the payload alone is read, nothing is written behind
`name`, and `SnapExecute` is called with the payload as the name, or an error is answered. -/
def HandsOver (action : SnapAction) (buffer : Option PayloadPointer)
    (result : Except Fault SnapExecuted) : Prop :=
  ∃ r, result = .ok r ∧ r.readBytes ≤ (PayloadPointer.bytes buffer).length ∧
    (r.called = some (action, PayloadPointer.bytes buffer) ∨
      r.called = none ∧ coap400BadRequest ≤ r.code)

section

variable {instanceList : List UInt16} {instanceId resourceId : UInt16} {action : SnapAction}
  {buffer : PayloadPointer} {length : ℕ}

variable {s t : CString}

/-- **The name of an Execute** is as much of the C string at the payload as the length allows, where
that fits into `name`. -/
theorem prvExec_called (hinstance : listFind id instanceList instanceId ≠ none)
    (haction : snapAction resourceId = some action)
    (hs : cString (buffer.payload ++ buffer.behind) = .ok s) :
    prvExec instanceList instanceId resourceId (some buffer) length =
      if (s.take (clampedLength length)).length < snapNameSize then
        .ok ⟨coap204Changed, s.length + 1, some (action, s.take (clampedLength length))⟩
      else .error .outOfBoundsWrite := by
  rw [prvExec, if_neg hinstance, haction]
  rw [snprintfName, hs, ok_bind, Nat.add_sub_cancel]
  by_cases hfits : (s.take (clampedLength length)).length < snapNameSize
  · rw [if_neg (by omega), if_pos hfits]
    rfl
  · rw [if_pos (by omega), if_neg hfits]
    rfl

/-- Without a NUL in the payload, the C string goes on behind it. -/
theorem cString_payload (hpayload : 0 ∉ buffer.payload) (hbehind : cString buffer.behind = .ok t) :
    cString (buffer.payload ++ buffer.behind) = .ok (buffer.payload ++ t) := by
  unfold cString at hbehind ⊢
  split_ifs at hbehind with hmem
  cases hbehind
  have hpos : ∀ c ∈ buffer.payload, decide (c ≠ 0) = true :=
    fun c hc => decide_eq_true fun hzero => hpayload (hzero ▸ hc)
  rw [if_pos (List.mem_append_right _ hmem), List.takeWhile_append_of_pos hpos]

/-- **The length 200** is not cut, and its NUL is written behind `name`. -/
theorem prvExec_writesBehind_iff (hinstance : listFind id instanceList instanceId ≠ none)
    (haction : snapAction resourceId = some action) (hpayload : 0 ∉ buffer.payload)
    (hbehind : cString buffer.behind = .ok t) :
    prvExec instanceList instanceId resourceId (some buffer) buffer.payload.length =
      .error .outOfBoundsWrite ↔ buffer.payload.length = 200 := by
  rw [prvExec_called hinstance haction (cString_payload hpayload hbehind), List.length_take,
    List.length_append, clampedLength, snapNameSize]
  split_ifs <;> simp <;> omega

/-- **Longer payloads** install, remove or change the snap with the first 199 bytes as the name. -/
theorem prvExec_called_take (hinstance : listFind id instanceList instanceId ≠ none)
    (haction : snapAction resourceId = some action) (hpayload : 0 ∉ buffer.payload)
    (hbehind : cString buffer.behind = .ok t) (hlength : 200 < buffer.payload.length) :
    prvExec instanceList instanceId resourceId (some buffer) buffer.payload.length =
      .ok ⟨coap204Changed, buffer.payload.length + t.length + 1,
        some (action, buffer.payload.take 199)⟩ := by
  rw [prvExec_called hinstance haction (cString_payload hpayload hbehind), clampedLength,
    if_pos hlength, List.take_append_of_le_length (by omega), List.length_append, if_pos]
  rw [List.length_take, snapNameSize]
  omega

theorem length_of_called (h : some (action, s.take length) = some (action, t)) :
    min length s.length = t.length := by
  obtain ⟨-, rfl⟩ := Prod.mk.inj (Option.some.inj h)
  exact (List.length_take).symm

/-- **When Execute hands over its argument**: never, where the instance is there.  A payload without
a NUL is read up to one behind it, and one with a NUL is cut there. -/
theorem handsOver_iff (instanceList : List UInt16) (instanceId resourceId : UInt16)
    (action : SnapAction) (buffer : Option PayloadPointer)
    (haction : snapAction resourceId = some action) :
    HandsOver action buffer (prvExec instanceList instanceId resourceId buffer
      (PayloadPointer.bytes buffer).length) ↔ listFind id instanceList instanceId = none := by
  constructor
  · intro ⟨r, hr, hread, hcalled⟩
    by_contra hinstance
    cases buffer with
    | none =>
      rw [prvExec, if_neg hinstance, haction] at hr
      cases hr
    | some buffer =>
      have hs : ∃ s, cString (buffer.payload ++ buffer.behind) = .ok s := by
        cases hs : cString (buffer.payload ++ buffer.behind) with
        | ok s => exact ⟨s, rfl⟩
        | error fault =>
          rw [prvExec, if_neg hinstance, haction] at hr
          dsimp only at hr
          rw [snprintfName, hs] at hr
          cases hr
      obtain ⟨s, hs⟩ := hs
      rw [prvExec_called hinstance haction hs] at hr
      split_ifs at hr
      cases hr
      have hshort : s.length < buffer.payload.length := hread
      rcases hcalled with hcalled | ⟨hcalled, -⟩
      · have hname : min _ s.length = buffer.payload.length := length_of_called hcalled
        omega
      · cases hcalled
  · intro hinstance
    exact ⟨_, by rw [prvExec, if_pos hinstance], Nat.zero_le _, .inr ⟨rfl, by decide⟩⟩

/-- A long name that is cut to the one of another snap. -/
theorem longName_fails : ¬ ∀ (instanceList : List UInt16) (instanceId resourceId : UInt16)
    (action : SnapAction) (buffer : Option PayloadPointer), snapAction resourceId = some action →
      HandsOver action buffer (prvExec instanceList instanceId resourceId buffer
        (PayloadPointer.bytes buffer).length) := by
  intro h
  let buffer : PayloadPointer := ⟨List.replicate 201 0x61, [0]⟩
  have hpayload : 0 ∉ buffer.payload := fun h => absurd (List.eq_of_mem_replicate h) (by decide)
  have hlength : buffer.payload.length = 201 := List.length_replicate
  have hcut : prvExec [0] 0 11 (some buffer) buffer.payload.length =
      .ok ⟨coap204Changed, 202, some (.uninstall, buffer.payload.take 199)⟩ :=
    prvExec_called_take (by decide) rfl hpayload (t := []) rfl (by omega)
  obtain ⟨r, hr, -, hcalled⟩ := h [0] 0 11 .uninstall (some buffer) rfl
  cases hcut.symm.trans hr
  rcases hcalled with hcalled | ⟨hcalled, -⟩
  · have hname : min 199 buffer.payload.length = buffer.payload.length :=
      length_of_called hcalled
    omega
  · cases hcalled

/-- An Execute on an instance that is not there. -/
theorem handsOver_noInstance :
    HandsOver .uninstall (some ⟨[0x61], [0]⟩) (prvExec [0] 1 11 (some ⟨[0x61], [0]⟩) 1) :=
  (handsOver_iff [0] 1 11 .uninstall (some ⟨[0x61], [0]⟩) rfl).mpr (by decide)

end

end Lwm2m.Core

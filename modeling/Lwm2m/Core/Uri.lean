/-
# Request paths

`core/uri.c`: the decoding of the Uri-Path segments of a request.

A number is read into an `int` of 32 bits, which wraps.  A segment is the list of
its bytes and the alternate path a C string; a read of either past its end is a
`Fault`.
-/

import Lwm2m.Core.Context
import Lwm2m.Library.Except

namespace Lwm2m.Core

open Library

/-- `lwm2m_request_type_t`. -/
inductive RequestType
  | unknown
  | dm
  | registration
  | bootstrap
  | deleteAll
  deriving DecidableEq, Repr

/-- The loop of `prv_parseNumber`: the number and the bytes from the cursor on. -/
def parseDigits (result : Int32) : List Byte → Option (Int32 × List Byte)
  | [] => some (result, [])
  | c :: rest =>
    if c = 0x2F then some (result, c :: rest)
    else if 0x30 ≤ c ∧ c ≤ 0x39 then
      parseDigits (result * 10 + Int32.ofNat (c.toNat - 0x30)) rest
    else none

/-- `prv_parseNumber`; `none` is the result -1. -/
def prvParseNumber (bytes : List Byte) : Except Fault (Option (Int32 × List Byte)) :=
  match bytes with
  | [] => throw .outOfBoundsRead
  | c :: _ => return if c = 0x2F then none else parseDigits 0 bytes

/-- `uri_getNumber`. -/
def uriGetNumber (uriString : List Byte) : Except Fault Int32 := do
  match ← prvParseNumber uriString with
  | some (number, _) => return number
  | none => return -1

/-- A segment read as an identifier below `LWM2M_MAX_ID`. -/
def segmentId (segment : List Byte) : Except Fault (Option UInt16) := do
  let readNum ← uriGetNumber segment
  if readNum < 0 ∨ readNum ≥ 0xFFFF then return none
  else return some readNum.toNatClampNeg.toUInt16

/-- The comparison of a segment with the alternate path after its first character; the
path is given with its terminating NUL. -/
def matchesAltPath : List Byte → List Byte → Except Fault Bool
  | [], _ => return true
  | _ :: _, [] => throw .outOfBoundsRead
  | c :: segment, d :: altPath => if c ≠ d then return false else matchesAltPath segment altPath

/-- A level of the path below the object: an empty segment leaves it unset. -/
def decodeLevel (segment : List Byte) (parentSet : Prop) [Decidable parentSet] :
    Except Fault (Option UInt16) := do
  if segment.length = 0 then return some lwm2mMaxId
  else if ¬ parentSet then return none
  else segmentId segment

/-- The part of `uri_decode` after the object identifier. -/
def decodeInstanceLevels (uriP : Uri) (uriPath : List (List Byte)) :
    Except Fault (RequestType × Uri) := do
  match uriPath with
  | [] => return (.dm, uriP)
  | segment :: uriPath =>
    let some instanceId ← decodeLevel segment True | return (.unknown, {})
    let uriP := { uriP with instanceId }
    match uriPath with
    | [] => return (.dm, uriP)
    | segment :: uriPath =>
      let some resourceId ← decodeLevel segment uriP.isSetInstance | return (.unknown, {})
      let uriP := { uriP with resourceId }
      match uriPath with
      | [] => return (.dm, uriP)
      | segment :: uriPath =>
        let some resourceInstanceId ← decodeLevel segment uriP.isSetResource
          | return (.unknown, {})
        if uriPath = [] then return (.dm, { uriP with resourceInstanceId })
        else return (.unknown, {})

/-- The part of `uri_decode` for a path that is neither `rd` nor `bs`. -/
def decodeDmPath (altPath : Option CString) (uriPath : List (List Byte)) (code : UInt8) :
    Except Fault (RequestType × Uri) := do
  let uriPath ← match altPath, uriPath with
    | none, _ => pure (some uriPath)
    | some _, [] => pure none
    | some altPath, segment :: rest => do
      if ← matchesAltPath segment (altPath.drop 1 ++ [0]) then pure (some rest) else pure none
  match uriPath with
  | none => return (.unknown, {})
  | some uriPath =>
    if uriPath.head?.getD [] = [] then
      -- DELETE on the root
      return (if code = 4 then .deleteAll else .dm, {})
    else
      let some objectId ← segmentId (uriPath.head?.getD []) | return (.unknown, {})
      decodeInstanceLevels { objectId } uriPath.tail

/-- `uri_decode`. -/
def uriDecode (altPath : Option CString) (uriPath : List (List Byte)) (code : UInt8) :
    Except Fault (RequestType × Uri) := do
  match uriPath with
  | [0x72, 0x64] :: rest =>
    match rest with
    | [] => return (.registration, {})
    | segment :: rest =>
      let some objectId ← segmentId segment | return (.unknown, {})
      if rest ≠ [] then return (.unknown, {}) else return (.registration, { objectId })
  | [0x62, 0x73] :: rest => if rest ≠ [] then return (.unknown, {}) else return (.bootstrap, {})
  | _ => decodeDmPath altPath uriPath code

/-! ### What the decoding can result in -/

/-- The only fault of the decoding is a read past the end of a string. -/
def OnlyReads (fault : Fault) : Prop := fault = .outOfBoundsRead

theorem segmentId_ensures (segment : List Byte) :
    Ensures (segmentId segment) (fun _ => True) OnlyReads := by
  have hnumber : Ensures (uriGetNumber segment) (fun _ => True) OnlyReads := by
    refine Ensures.bind (Q := fun _ => True) ?_ fun r _ => by cases r <;> simp
    cases segment with
    | nil => exact Ensures.throw_iff.mpr rfl
    | cons c rest => exact Ensures.pure_iff.mpr trivial
  refine hnumber.bind fun readNum _ => ?_
  exact Ensures.ite (fun _ => Ensures.pure_iff.mpr trivial) fun _ => Ensures.pure_iff.mpr trivial

theorem matchesAltPath_ensures (segment altPath : List Byte) :
    Ensures (matchesAltPath segment altPath) (fun _ => True) OnlyReads := by
  induction segment generalizing altPath with
  | nil => exact Ensures.pure_iff.mpr trivial
  | cons c segment ih =>
    cases altPath with
    | nil => exact Ensures.throw_iff.mpr rfl
    | cons d altPath => exact Ensures.ite (fun _ => Ensures.pure_iff.mpr trivial) fun _ => ih altPath

theorem decodeLevel_ensures (segment : List Byte) (parentSet : Prop) [Decidable parentSet] :
    Ensures (decodeLevel segment parentSet) (fun _ => True) OnlyReads := by
  refine Ensures.ite (fun _ => Ensures.pure_iff.mpr trivial) fun _ => ?_
  exact Ensures.ite (fun _ => Ensures.pure_iff.mpr trivial) fun _ => segmentId_ensures segment

/-- Only the code of a DELETE is decoded as a deletion of everything. -/
def DeletesOnDelete (code : UInt8) (decoded : RequestType × Uri) : Prop :=
  decoded.1 = .deleteAll → code = 4

theorem decodeInstanceLevels_ensures (uriP : Uri) (uriPath : List (List Byte)) (code : UInt8) :
    Ensures (decodeInstanceLevels uriP uriPath) (DeletesOnDelete code) OnlyReads := by
  have hdone {decoded : RequestType × Uri} (h : decoded.1 ≠ .deleteAll) :
      Ensures (pure decoded) (DeletesOnDelete code) OnlyReads :=
    Ensures.pure_iff.mpr fun h' => absurd h' h
  have hlevel (segment : List Byte) (parentSet : Prop) [Decidable parentSet]
      {rest : UInt16 → Except Fault (RequestType × Uri)}
      (hrest : ∀ id, Ensures (rest id) (DeletesOnDelete code) OnlyReads) :
      Ensures (decodeLevel segment parentSet >>= fun r => match r with
        | some id => rest id
        | _ => pure (.unknown, {})) (DeletesOnDelete code) OnlyReads := by
    refine (decodeLevel_ensures segment parentSet).bind fun r _ => ?_
    cases r with
    | none => exact hdone (by simp)
    | some id => exact hrest id
  rcases uriPath with _ | ⟨segment, uriPath⟩
  · exact hdone (by simp)
  refine hlevel _ _ fun instanceId => ?_
  rcases uriPath with _ | ⟨segment, uriPath⟩
  · exact hdone (by simp)
  refine hlevel _ _ fun resourceId => ?_
  rcases uriPath with _ | ⟨segment, uriPath⟩
  · exact hdone (by simp)
  refine hlevel _ _ fun resourceInstanceId => ?_
  exact Ensures.ite (fun _ => hdone (by simp)) fun _ => hdone (by simp)

theorem uriDecode_ensures (altPath : Option CString) (uriPath : List (List Byte)) (code : UInt8) :
    Ensures (uriDecode altPath uriPath code) (DeletesOnDelete code) OnlyReads := by
  have hdone {decoded : RequestType × Uri} (h : decoded.1 = .deleteAll → code = 4) :
      Ensures (pure decoded) (DeletesOnDelete code) OnlyReads := Ensures.pure_iff.mpr h
  unfold uriDecode
  split
  · split
    · exact hdone (by simp)
    · refine (segmentId_ensures _).bind fun r _ => ?_
      cases r with
      | none => exact hdone (by simp)
      | some objectId => exact Ensures.ite (fun _ => hdone (by simp)) fun _ => hdone (by simp)
  · exact Ensures.ite (fun _ => hdone (by simp)) fun _ => hdone (by simp)
  · unfold decodeDmPath
    extract_lets jp
    have hjp (r : Option (List (List Byte))) :
        Ensures (jp r) (DeletesOnDelete code) OnlyReads := by
      cases r with
      | none => exact hdone (by simp)
      | some uriPath =>
        refine Ensures.ite (fun _ => hdone ?_) fun _ => ?_
        · split_ifs with hcode <;> simp [hcode]
        · refine (segmentId_ensures _).bind fun r _ => ?_
          cases r with
          | none => exact hdone (by simp)
          | some objectId => exact decodeInstanceLevels_ensures _ _ code
    split
    · exact hjp (some _)
    · exact hjp none
    · refine (matchesAltPath_ensures _ _).bind fun r _ => ?_
      exact Ensures.ite (fun _ => hjp (some _)) fun _ => hjp none

example : uriDecode none [[0x33], [0x30], [0x31]] 1 = .ok (.dm, ⟨3, 0, 1, 0xFFFF⟩) := by decide

end Lwm2m.Core

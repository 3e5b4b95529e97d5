/-
# Request paths

What a request asks for is written in its Uri-Path: behind the alternate path, if there is one, at
most four levels, each a decimal number of its own, of which only trailing ones are left out
(`requestOf`).  `uri_decode` takes more lists than these: a first segment that is only the beginning
of the alternate path, an empty first level with anything behind it, and segments whose number wraps
or has a '/' behind it.  It decodes the other lists exactly (`uriDecode_exact_iff`).
-/

import Lwm2m.Core.UriText

namespace Lwm2m.Core

open Library

/-! ### What a path asks for -/

/-- The segment is a decimal number below `LWM2M_MAX_ID`. -/
def IsId (segment : List Byte) : Prop := IsNumeral segment ∧ digitsValue 0 segment < 0xFFFF

instance (segment : List Byte) : Decidable (IsId segment) := inferInstanceAs (Decidable (_ ∧ _))

/-- At most so many levels, with only trailing ones left out, and numbers of this kind in the
others. -/
def FormsLevels (k : ℕ) (number : List Byte → Prop) (segments : List (List Byte)) : Prop :=
  segments.length ≤ k ∧ (∀ segment ∈ segments.takeWhile (· ≠ []), number segment) ∧
    ∀ segment ∈ segments.dropWhile (· ≠ []), segment = []

instance (k : ℕ) (number : List Byte → Prop) [DecidablePred number]
    (segments : List (List Byte)) : Decidable (FormsLevels k number segments) :=
  inferInstanceAs (Decidable (_ ∧ _ ∧ _))

/-- The request for the levels that are given; a DELETE without levels is one of everything. -/
def levelsRequest (value : List Byte → ℕ) (segments : List (List Byte)) (code : UInt8) :
    RequestType × Uri :=
  let levels := segments.takeWhile (· ≠ [])
  (if levels = [] ∧ code = 4 then .deleteAll else .dm, uriOf (levels.map value))

/-- The request that is not known, with its URI reset. -/
def unknownRequest : RequestType × Uri := (.unknown, {})

/-- The request of the levels behind the alternate path. -/
def dmRequest (segments : List (List Byte)) (code : UInt8) : RequestType × Uri :=
  if FormsLevels 4 IsId segments then levelsRequest (digitsValue 0) segments code
  else unknownRequest

/-- The request of a path with the alternate path in front. -/
def dmPathRequest (altPath : Option CString) (uriPath : List (List Byte)) (code : UInt8) :
    RequestType × Uri :=
  match altPath, uriPath with
  | none, segments => dmRequest segments code
  | some altPath, segment :: segments =>
    if segment = altPath.drop 1 then dmRequest segments code else unknownRequest
  | some _, [] => unknownRequest

/-- The request of the segments behind `rd`: one of the registration interface, with a location that
is a number. -/
def registrationRequest : List (List Byte) → RequestType × Uri
  | [] => (.registration, {})
  | [segment] =>
    if IsId segment then (.registration, uriOf [digitsValue 0 segment]) else unknownRequest
  | _ => unknownRequest

/-- **What a path asks for.**  The paths `rd` and `bs` are those of the registration and of the
bootstrap interface; the others have the alternate path in front. -/
def requestOf (altPath : Option CString) (uriPath : List (List Byte)) (code : UInt8) :
    RequestType × Uri :=
  match uriPath with
  | [0x72, 0x64] :: segments => registrationRequest segments
  | [0x62, 0x73] :: segments => if segments = [] then (.bootstrap, {}) else unknownRequest
  | uriPath => dmPathRequest altPath uriPath code

/-- The path is decoded as what it asks for. -/
def DecodedExactly (altPath : Option CString) (uriPath : List (List Byte)) (code : UInt8) : Prop :=
  uriDecode altPath uriPath code = .ok (requestOf altPath uriPath code)

/-! ### What is taken for more -/

/-- The piece of a segment that is read as a number. -/
def numberPiece (segment : List Byte) : List Byte := segment.takeWhile (· ≠ 0x2F)

/-- The segment is taken for a number below `LWM2M_MAX_ID`: what stands before its first '/' is a
numeral of one modulo 2 ^ 32. -/
def TakenAsId (segment : List Byte) : Prop :=
  IsNumeral (numberPiece segment) ∧ digitsValue 0 (numberPiece segment) % 2 ^ 32 < 0xFFFF

instance (segment : List Byte) : Decidable (TakenAsId segment) :=
  inferInstanceAs (Decidable (_ ∧ _))

/-- The segments are taken for levels: the first is left out, whatever stands behind it, or they
have the form of levels. -/
def TakenAsLevels (segments : List (List Byte)) : Prop :=
  segments.head?.getD [] = [] ∨ FormsLevels 4 TakenAsId segments

instance (segments : List (List Byte)) : Decidable (TakenAsLevels segments) :=
  inferInstanceAs (Decidable (_ ∨ _))

/-- The location behind `rd` is read although it is empty, or taken for a number that it is not. -/
def MistakenLocation : List (List Byte) → Prop
  | [] => False
  | segment :: rest => segment = [] ∨ rest = [] ∧ TakenAsId segment ∧ ¬ IsId segment

/-- Segments that form no levels are taken for some, behind the alternate path or behind a beginning
of it, or a segment is compared beyond the alternate path. -/
def MistakenLevels (altPath : Option CString) (uriPath : List (List Byte)) : Prop :=
  match altPath, uriPath with
  | none, segments => TakenAsLevels segments ∧ ¬ FormsLevels 4 IsId segments
  | some altPath, segment :: segments =>
    if segment = altPath.drop 1 then TakenAsLevels segments ∧ ¬ FormsLevels 4 IsId segments
    else if segment <+: altPath.drop 1 ++ [0] then TakenAsLevels segments
    else altPath.drop 1 ++ [0] <+: segment
  | some _, [] => False

/-- The path is taken for another. -/
def Mistaken (altPath : Option CString) (uriPath : List (List Byte)) : Prop :=
  match uriPath with
  | [0x72, 0x64] :: segments => MistakenLocation segments
  | [0x62, 0x73] :: _ => False
  | uriPath => MistakenLevels altPath uriPath

/-! ### Segments -/

variable {segment : List Byte} {k : ℕ} {segments : List (List Byte)}

/-- A segment is read as a number up to its first '/'. -/
theorem uriGetNumber_eq (h : segment ≠ []) :
    uriGetNumber segment = .ok (
      if IsNumeral (numberPiece segment) then Int32.ofNat (digitsValue 0 (numberPiece segment))
      else -1) := by
  unfold uriGetNumber numberPiece
  rw [prvParseNumber_eq h]
  by_cases hnumeral : IsNumeral (segment.takeWhile (· ≠ 0x2F))
  · rw [if_pos hnumeral, if_pos hnumeral]
    rfl
  · rw [if_neg hnumeral, if_neg hnumeral]
    rfl

theorem segmentId_eq (h : segment ≠ []) :
    segmentId segment = .ok (
      if TakenAsId segment then some (UInt16.ofNat (digitsValue 0 (numberPiece segment)))
      else none) := by
  unfold segmentId
  rw [uriGetNumber_eq h]
  by_cases hnumeral : IsNumeral (numberPiece segment)
  · rw [if_pos hnumeral]
    by_cases hid : digitsValue 0 (numberPiece segment) % 2 ^ 32 < 0xFFFF
    · have htaken : TakenAsId segment := ⟨hnumeral, hid⟩
      rw [if_pos htaken, ← toUInt16_ofNat hid]
      exact if_neg ((ofNat_isId_iff _).mpr hid)
    · have htaken : ¬ TakenAsId segment := fun h => hid h.2
      rw [if_neg htaken]
      exact if_pos (not_not.mp (mt (ofNat_isId_iff _).mp hid))
  · have htaken : ¬ TakenAsId segment := fun h => hnumeral h.1
    rw [if_neg hnumeral, if_neg htaken]
    rfl

/-- A segment that is compared with a text matches it as a prefix, and is read beyond it when it is
longer. -/
theorem matchesAltPath_eq (segment text : List Byte) :
    matchesAltPath segment text =
      if segment <+: text then .ok true
      else if text <+: segment then .error .outOfBoundsRead
      else .ok false := by
  induction segment generalizing text with
  | nil => rw [if_pos List.nil_prefix]; rfl
  | cons c segment ih =>
    cases text with
    | nil =>
      rw [if_neg fun h => List.cons_ne_nil _ _ (List.prefix_nil.mp h), if_pos List.nil_prefix]
      rfl
    | cons d text =>
      unfold matchesAltPath
      by_cases hsame : c = d
      · rw [if_neg (not_not.mpr hsame), ih, hsame]
        simp only [List.cons_prefix_cons, true_and]
      · rw [if_pos hsame, if_neg fun h => hsame (List.cons_prefix_cons.mp h).1,
          if_neg fun h => hsame (List.cons_prefix_cons.mp h).1.symm]
        rfl

/-- A number in the right form is taken for what it is. -/
theorem IsId.taken (h : IsId segment) :
    TakenAsId segment ∧ numberPiece segment = segment := by
  have hpiece : numberPiece segment = segment := List.takeWhile_eq_self_iff.mpr h.1.no_slash
  refine ⟨?_, hpiece⟩
  unfold TakenAsId
  rw [hpiece]
  exact ⟨h.1, (Nat.mod_le _ _).trans_lt h.2⟩

/-! ### Levels -/

/-- The number that a segment is taken for. -/
def takenValue (segment : List Byte) : ℕ := digitsValue 0 (numberPiece segment)

theorem decodeLevel_eq (segment : List Byte) (parentSet : Prop) [Decidable parentSet] :
    decodeLevel segment parentSet = .ok (
      if segment = [] then some lwm2mMaxId
      else if parentSet ∧ TakenAsId segment then some (UInt16.ofNat (takenValue segment))
      else none) := by
  unfold decodeLevel
  by_cases hempty : segment = []
  · rw [if_pos (List.length_eq_zero_iff.mpr hempty), if_pos hempty]
    rfl
  rw [if_neg (mt List.length_eq_zero_iff.mp hempty), if_neg hempty]
  by_cases hparent : parentSet
  · rw [if_neg (not_not.mpr hparent), segmentId_eq hempty]
    simp only [hparent, true_and]
    rfl
  · rw [if_pos hparent, if_neg fun h => hparent h.1]
    rfl

/-- A number that a segment is taken for sets its level. -/
theorem TakenAsId.isSet (h : TakenAsId segment) :
    UInt16.ofNat (takenValue segment) ≠ lwm2mMaxId := by
  intro heq
  have hvalue := congrArg UInt16.toNat heq
  have hid := h.2
  rw [UInt16.toNat_ofNat'] at hvalue
  change takenValue segment % 2 ^ 16 = 65535 at hvalue
  change takenValue segment % 2 ^ 32 < 65535 at hid
  omega

/-- One level of `uri_decode`, with what it does behind it. -/
def decodeStep (store : UInt16 → Uri → Uri) (parentSet : Uri → Prop) [DecidablePred parentSet]
    (next : Uri → List (List Byte) → Except Fault (RequestType × Uri)) (uriP : Uri) :
    List (List Byte) → Except Fault (RequestType × Uri)
  | [] => return (.dm, uriP)
  | segment :: segments => do
    let some id ← decodeLevel segment (parentSet uriP) | return unknownRequest
    next (store id uriP) segments

/-- The end of `uri_decode`. -/
def decodeEnd (uriP : Uri) (segments : List (List Byte)) : Except Fault (RequestType × Uri) :=
  if segments = [] then return (.dm, uriP) else return unknownRequest

/-- The levels of `uri_decode` below the object are three such steps. -/
theorem decodeInstanceLevels_eq_steps (uriP : Uri) (segments : List (List Byte)) :
    decodeInstanceLevels uriP segments =
      decodeStep (fun id uriP => { uriP with instanceId := id }) (fun _ => True)
        (decodeStep (fun id uriP => { uriP with resourceId := id }) Uri.isSetInstance
          (decodeStep (fun id uriP => { uriP with resourceInstanceId := id }) Uri.isSetResource
            decodeEnd)) uriP segments := by
  rcases segments with _ | ⟨s₂, _ | ⟨s₃, _ | ⟨s₄, segments⟩⟩⟩ <;> rfl

/-- Below a level that is set, another one is. -/
theorem formsLevels_cons (h : segment ≠ []) (segments : List (List Byte)) :
    FormsLevels (k + 1) TakenAsId (segment :: segments) ↔
      TakenAsId segment ∧ FormsLevels k TakenAsId segments := by
  simp [FormsLevels, h]
  tauto

/-- Below a level that is left out, all are. -/
theorem formsLevels_nil_cons (segments : List (List Byte)) :
    FormsLevels (k + 1) TakenAsId ([] :: segments) ↔
      segments.length ≤ k ∧ ∀ segment ∈ segments, segment = [] := by
  simp [FormsLevels]

/-- The request of levels that have the form of levels below those of a URI. -/
def levelsBelow (k : ℕ) (stores : List (UInt16 → Uri → Uri)) (uriP : Uri)
    (segments : List (List Byte)) : RequestType × Uri :=
  if FormsLevels k TakenAsId segments then
    (.dm, storeAll ((segments.takeWhile (· ≠ [])).map takenValue) stores uriP)
  else unknownRequest

/-- The request of segments below a level that is left out. -/
def leftOutBelow (k : ℕ) (uriP : Uri) (segments : List (List Byte)) : RequestType × Uri :=
  if segments.length ≤ k ∧ ∀ segment ∈ segments, segment = [] then (.dm, uriP)
  else unknownRequest

section levels

variable {uriP : Uri}

theorem levelsBelow_nil (k : ℕ) (stores : List (UInt16 → Uri → Uri)) (uriP : Uri) :
    levelsBelow k stores uriP [] = (.dm, uriP) :=
  if_pos ⟨Nat.zero_le k, List.forall_mem_nil _, List.forall_mem_nil _⟩

theorem leftOutBelow_nil (k : ℕ) (uriP : Uri) : leftOutBelow k uriP [] = (.dm, uriP) :=
  if_pos ⟨Nat.zero_le k, List.forall_mem_nil _⟩

/-- A level that is given. -/
theorem levelsBelow_cons (k : ℕ) (store : UInt16 → Uri → Uri) (stores : List (UInt16 → Uri → Uri))
    (uriP : Uri) (h : segment ≠ []) (segments : List (List Byte)) :
    levelsBelow (k + 1) (store :: stores) uriP (segment :: segments) =
      if TakenAsId segment then
        levelsBelow k stores (store (UInt16.ofNat (takenValue segment)) uriP) segments
      else unknownRequest := by
  unfold levelsBelow
  rw [List.takeWhile_cons_of_pos (by simpa using h)]
  by_cases htaken : TakenAsId segment
  · simp only [formsLevels_cons h, htaken, true_and, if_true]
    rfl
  · rw [if_neg fun hforms => htaken ((formsLevels_cons h segments).mp hforms).1, if_neg htaken]

/-- A level that is left out. -/
theorem levelsBelow_nil_cons (k : ℕ) (stores : List (UInt16 → Uri → Uri)) (uriP : Uri)
    (segments : List (List Byte)) :
    levelsBelow (k + 1) stores uriP ([] :: segments) = leftOutBelow k uriP segments := by
  unfold levelsBelow leftOutBelow
  simp only [formsLevels_nil_cons]
  rfl

theorem leftOutBelow_cons (k : ℕ) (uriP : Uri) (segment : List Byte)
    (segments : List (List Byte)) :
    leftOutBelow (k + 1) uriP (segment :: segments) =
      if segment = [] then leftOutBelow k uriP segments else unknownRequest := by
  unfold leftOutBelow
  by_cases h : segment = [] <;> simp [h]

variable (store : UInt16 → Uri → Uri) {parentSet : Uri → Prop} [DecidablePred parentSet]
  {next : Uri → List (List Byte) → Except Fault (RequestType × Uri)} {k : ℕ}
  {stores : List (UInt16 → Uri → Uri)}

/-- **A step below a level that is left out** leaves its level out. -/
theorem decodeStep_leftOut (hparent : ¬ parentSet uriP) (hunset : store lwm2mMaxId uriP = uriP)
    (hnext : ∀ segments, next uriP segments = .ok (leftOutBelow k uriP segments))
    (segments : List (List Byte)) :
    decodeStep store parentSet next uriP segments = .ok (leftOutBelow (k + 1) uriP segments) := by
  cases segments with
  | nil =>
    rw [leftOutBelow_nil]
    rfl
  | cons segment segments =>
    rw [decodeStep, decodeLevel_eq, leftOutBelow_cons]
    by_cases h : segment = []
    · rw [if_pos h, if_pos h, ← hnext]
      exact congrArg (next · segments) hunset
    · rw [if_neg h, if_neg h, if_neg fun h => hparent h.1]
      rfl

/-- **A step below a level that is set** takes its level or leaves it out. -/
theorem decodeStep_below (hparent : parentSet uriP) (hunset : store lwm2mMaxId uriP = uriP)
    (hleft : ∀ segments, next uriP segments = .ok (leftOutBelow k uriP segments))
    (hnext : ∀ id ≠ lwm2mMaxId, ∀ segments,
      next (store id uriP) segments = .ok (levelsBelow k stores (store id uriP) segments))
    (segments : List (List Byte)) :
    decodeStep store parentSet next uriP segments =
      .ok (levelsBelow (k + 1) (store :: stores) uriP segments) := by
  cases segments with
  | nil =>
    rw [levelsBelow_nil]
    rfl
  | cons segment segments =>
    rw [decodeStep, decodeLevel_eq]
    by_cases h : segment = []
    · rw [if_pos h, h, levelsBelow_nil_cons, ← hleft]
      exact congrArg (next · segments) hunset
    · rw [if_neg h, levelsBelow_cons _ _ _ _ h]
      by_cases htaken : TakenAsId segment
      · rw [if_pos ⟨hparent, htaken⟩, if_pos htaken, ← hnext _ htaken.isSet]
        rfl
      · rw [if_neg fun h => htaken h.2, if_neg htaken]
        rfl

theorem decodeEnd_leftOut (uriP : Uri) (segments : List (List Byte)) :
    decodeEnd uriP segments = .ok (leftOutBelow 0 uriP segments) := by
  cases segments with
  | nil => rfl
  | cons => simp [decodeEnd, leftOutBelow, pure_eq_ok]

theorem decodeEnd_below (uriP : Uri) (segments : List (List Byte)) :
    decodeEnd uriP segments = .ok (levelsBelow 0 [] uriP segments) := by
  cases segments with
  | nil => rfl
  | cons => simp [decodeEnd, levelsBelow, FormsLevels, pure_eq_ok]

/-- **The levels below an object** are decoded when they have the form of levels. -/
theorem decodeInstanceLevels_eq {objectId : UInt16} (segments : List (List Byte)) :
    decodeInstanceLevels { objectId } segments =
      .ok (levelsBelow 3 levelStores.tail { objectId } segments) := by
  have hmax : ¬ (lwm2mMaxId ≠ lwm2mMaxId) := not_not.mpr rfl
  have hlast (instanceId : UInt16) :=
    decodeStep_leftOut (fun id uriP => { uriP with resourceInstanceId := id })
      (show ¬ Uri.isSetResource { objectId, instanceId } from hmax) rfl (decodeEnd_leftOut _)
  have hlastBelow (instanceId resourceId : UInt16) (hset : resourceId ≠ lwm2mMaxId) :=
    decodeStep_below (fun id uriP => { uriP with resourceInstanceId := id })
      (show Uri.isSetResource { objectId, instanceId, resourceId } from hset) rfl
      (decodeEnd_leftOut _) fun _ _ => decodeEnd_below _
  have hresource :=
    decodeStep_leftOut (fun id uriP => { uriP with resourceId := id })
      (show ¬ Uri.isSetInstance { objectId } from hmax) rfl (hlast lwm2mMaxId)
  have hresourceBelow (instanceId : UInt16) (hset : instanceId ≠ lwm2mMaxId) :=
    decodeStep_below (fun id uriP => { uriP with resourceId := id })
      (show Uri.isSetInstance { objectId, instanceId } from hset) rfl (hlast instanceId)
      fun id hid => hlastBelow instanceId id hid
  rw [decodeInstanceLevels_eq_steps]
  exact decodeStep_below (fun id uriP => { uriP with instanceId := id }) trivial rfl hresource
    hresourceBelow segments

end levels

/-- The part of `uri_decode` behind the alternate path. -/
def decodeSegments (segments : List (List Byte)) (code : UInt8) :
    Except Fault (RequestType × Uri) := do
  if segments.head?.getD [] = [] then return (if code = 4 then .deleteAll else .dm, {})
  else
    let some objectId ← segmentId (segments.head?.getD []) | return unknownRequest
    decodeInstanceLevels { objectId } segments.tail

/-- What segments are decoded as. -/
def takenRequest (segments : List (List Byte)) (code : UInt8) : RequestType × Uri :=
  if TakenAsLevels segments then levelsRequest takenValue segments code else unknownRequest

/-- **The segments behind the alternate path** are decoded as what they are taken for. -/
theorem decodeSegments_eq (segments : List (List Byte)) (code : UInt8) :
    decodeSegments segments code = .ok (takenRequest segments code) := by
  unfold decodeSegments takenRequest
  by_cases hhead : segments.head?.getD [] = []
  · have hlevels : segments.takeWhile (· ≠ []) = [] := by
      cases segments with
      | nil => rfl
      | cons segment segments => exact List.takeWhile_cons_of_neg (by simpa using hhead)
    have htaken : TakenAsLevels segments := .inl hhead
    rw [if_pos hhead, if_pos htaken, levelsRequest, hlevels]
    simp only [true_and]
    rfl
  · obtain ⟨segment, segments, rfl⟩ :=
      List.exists_cons_of_ne_nil (show segments ≠ [] by rintro rfl; exact hhead rfl)
    have hsegment : segment ≠ [] := hhead
    have hrequest : (if TakenAsLevels (segment :: segments) then
          levelsRequest takenValue (segment :: segments) code else unknownRequest) =
        levelsBelow 4 levelStores {} (segment :: segments) := by
      unfold levelsBelow levelsRequest
      rw [List.takeWhile_cons_of_pos (by simpa using hsegment)]
      have htaken : TakenAsLevels (segment :: segments) ↔
          FormsLevels 4 TakenAsId (segment :: segments) := or_iff_right hhead
      simp only [htaken, List.cons_ne_nil, false_and, if_false]
      rfl
    rw [if_neg hhead, hrequest]
    change _ = Except.ok (levelsBelow (3 + 1) (_ :: levelStores.tail) {} (segment :: segments))
    rw [levelsBelow_cons _ _ _ _ hsegment]
    change (segmentId segment >>= _) = _
    rw [segmentId_eq hsegment]
    by_cases htaken : TakenAsId segment
    · rw [if_pos htaken, if_pos htaken]
      exact decodeInstanceLevels_eq segments
    · rw [if_neg htaken, if_neg htaken]
      rfl

/-! ### Paths -/

theorem FormsLevels.imp {number number' : List Byte → Prop} (h : FormsLevels k number segments)
    (himp : ∀ segment, number segment → number' segment) :
    FormsLevels k number' segments :=
  ⟨h.1, fun segment hsegment => himp segment (h.2.1 segment hsegment), h.2.2⟩

/-- A request for levels is known. -/
theorem levelsRequest_ne_unknown (value : List Byte → ℕ) (segments : List (List Byte))
    (code : UInt8) : levelsRequest value segments code ≠ unknownRequest := by
  intro h
  have htype := congrArg Prod.fst h
  simp only [levelsRequest, unknownRequest] at htype
  split_ifs at htype

theorem takenRequest_eq_unknown_iff {code : UInt8} :
    takenRequest segments code = unknownRequest ↔ ¬ TakenAsLevels segments := by
  unfold takenRequest
  by_cases htaken : TakenAsLevels segments
  · rw [if_pos htaken]
    exact iff_of_false (levelsRequest_ne_unknown _ _ _) (not_not.mpr htaken)
  · rw [if_neg htaken]
    exact iff_of_true rfl htaken

/-- **Segments are taken for what they ask for**, unless they form no levels and are taken for
some. -/
theorem takenRequest_eq_iff {code : UInt8} :
    takenRequest segments code = dmRequest segments code ↔
      ¬ (TakenAsLevels segments ∧ ¬ FormsLevels 4 IsId segments) := by
  unfold dmRequest
  by_cases hforms : FormsLevels 4 IsId segments
  · have htaken : TakenAsLevels segments := .inr (hforms.imp fun _ h => h.taken.1)
    have hvalues : (segments.takeWhile (· ≠ [])).map takenValue =
        (segments.takeWhile (· ≠ [])).map (digitsValue 0) :=
      List.map_congr_left fun segment hsegment =>
        congrArg (digitsValue 0) (hforms.2.1 segment hsegment).taken.2
    rw [if_pos hforms]
    refine iff_of_true ?_ fun h => h.2 hforms
    unfold takenRequest levelsRequest
    dsimp only
    rw [if_pos htaken, hvalues]
  · rw [if_neg hforms, takenRequest_eq_unknown_iff]
    exact not_congr (and_iff_left hforms).symm

/-- Behind the alternate path, the segments are decoded. -/
theorem decodeDmPath_some (altPath : CString) (segment : List Byte) (segments : List (List Byte))
    (code : UInt8) :
    decodeDmPath (some altPath) (segment :: segments) code = (do
      if ← matchesAltPath segment (altPath.drop 1 ++ [0]) then decodeSegments segments code
      else return unknownRequest) := by
  unfold decodeDmPath
  refine bind_congr fun matched => ?_
  cases matched <;> rfl

/-- **When a path with the alternate path in front** is decoded exactly. -/
theorem decodeDmPath_exact_iff (altPath : Option CString) (uriPath : List (List Byte))
    (code : UInt8) :
    decodeDmPath altPath uriPath code = .ok (dmPathRequest altPath uriPath code) ↔
      ¬ MistakenLevels altPath uriPath := by
  rcases altPath with _ | altPath
  · change decodeSegments uriPath code = .ok (dmRequest uriPath code) ↔
      ¬ (TakenAsLevels uriPath ∧ ¬ FormsLevels 4 IsId uriPath)
    rw [decodeSegments_eq, Except.ok.injEq, takenRequest_eq_iff]
  rcases uriPath with _ | ⟨segment, segments⟩
  · exact iff_of_true rfl not_false
  unfold dmPathRequest MistakenLevels
  rw [decodeDmPath_some, matchesAltPath_eq]
  dsimp only
  by_cases hsame : segment = altPath.drop 1
  · have hmatches : segment <+: altPath.drop 1 ++ [0] := hsame ▸ List.prefix_append _ _
    rw [if_pos hmatches, if_pos hsame, if_pos hsame, ← takenRequest_eq_iff]
    change decodeSegments segments code = _ ↔ _
    rw [decodeSegments_eq, Except.ok.injEq]
  rw [if_neg hsame, if_neg hsame]
  by_cases hmatches : segment <+: altPath.drop 1 ++ [0]
  · rw [if_pos hmatches, if_pos hmatches, ← takenRequest_eq_unknown_iff]
    change decodeSegments segments code = _ ↔ _
    rw [decodeSegments_eq, Except.ok.injEq]
  rw [if_neg hmatches, if_neg hmatches]
  by_cases hbeyond : altPath.drop 1 ++ [0] <+: segment
  · rw [if_pos hbeyond]
    exact iff_of_false (fun h => by cases h) (not_not.mpr hbeyond)
  · rw [if_neg hbeyond]
    exact iff_of_true rfl hbeyond

/-- `uri_decode` behind `rd`. -/
def decodeLocation : List (List Byte) → Except Fault (RequestType × Uri)
  | [] => return (.registration, {})
  | segment :: rest => do
    let some objectId ← segmentId segment | return unknownRequest
    if rest ≠ [] then return unknownRequest else return (.registration, { objectId })

/-- **When a location is decoded exactly.** -/
theorem decodeLocation_exact_iff (segments : List (List Byte)) :
    decodeLocation segments = .ok (registrationRequest segments) ↔
      ¬ MistakenLocation segments := by
  rcases segments with _ | ⟨segment, rest⟩
  · exact iff_of_true rfl not_false
  rw [MistakenLocation]
  by_cases hempty : segment = []
  · rw [hempty]
    exact iff_of_false (fun h => by cases h) (not_not.mpr (.inl rfl))
  rw [or_iff_right hempty, decodeLocation, segmentId_eq hempty]
  rcases rest with _ | ⟨segment', rest⟩
  · rw [and_iff_right rfl, registrationRequest]
    by_cases hid : IsId segment
    · obtain ⟨htaken, hpiece⟩ := hid.taken
      rw [if_pos htaken, if_pos hid, hpiece]
      exact iff_of_true rfl fun h => h.2 hid
    · rw [if_neg hid]
      by_cases htaken : TakenAsId segment
      · rw [if_pos htaken]
        exact iff_of_false (fun h => by cases h) (not_not.mpr ⟨htaken, hid⟩)
      · rw [if_neg htaken]
        exact iff_of_true rfl fun h => htaken h.1
  · refine iff_of_true ?_ fun h => List.cons_ne_nil _ _ h.1
    by_cases htaken : TakenAsId segment
    · rw [if_pos htaken]
      simp [registrationRequest, bind, Except.bind, pure_eq_ok]
    · rw [if_neg htaken]
      rfl

/-- **When a path is decoded exactly**: unless it is taken for another. -/
theorem uriDecode_exact_iff (altPath : Option CString) (uriPath : List (List Byte))
    (code : UInt8) : DecodedExactly altPath uriPath code ↔ ¬ Mistaken altPath uriPath := by
  unfold DecodedExactly uriDecode
  split
  next segments =>
    have hlocation := decodeLocation_exact_iff segments
    cases segments with
    | nil => exact hlocation
    | cons segment rest => exact hlocation
  next segments =>
    refine iff_of_true ?_ not_false
    cases segments <;> rfl
  next hrd hbs =>
    have hrequest : requestOf altPath uriPath code = dmPathRequest altPath uriPath code := by
      unfold requestOf
      split
      next => exact (hrd _ rfl).elim
      next => exact (hbs _ rfl).elim
      next => rfl
    have hmistaken : Mistaken altPath uriPath ↔ MistakenLevels altPath uriPath := by
      unfold Mistaken
      split
      next => exact (hrd _ rfl).elim
      next => exact (hbs _ rfl).elim
      next => rfl
    rw [hrequest, hmistaken]
    exact decodeDmPath_exact_iff altPath uriPath code

/-- **A DELETE of "//3"**, whose first segment is empty, is taken for one of everything. -/
theorem emptySegment_fails : ¬ ∀ (altPath : Option CString) (uriPath : List (List Byte))
    (code : UInt8), DecodedExactly altPath uriPath code := by
  intro h
  exact absurd (h none [[], [0x33]] 4) (by unfold DecodedExactly; decide)

end Lwm2m.Core

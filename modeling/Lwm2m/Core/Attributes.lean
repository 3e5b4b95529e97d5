/-
# Write-Attributes

`observe_setParameters` merges the attributes of a request into those of a watcher.  An
attribute is in force when its flag is set in `toSet` (`effective`); what a request
should leave in force is what was, without the attributes it clears, overridden by those
it sets (`Effective.write`).

The flags of a request are stored with the first one only.  Later ones write
the value of an attribute and clear flags, but set none, so an attribute that is written comes
into force exactly when it was in force before and is not cleared by the same request
(`writeAttributes_accumulate_iff`).
-/

import Lwm2m.Core.Watchers

namespace Lwm2m.Core

open Coap Code Library

/-! ### Attributes in force -/

section inForce

variable {α : Type}

/-- The attribute with this flag, if it is in force. -/
def inForce (flag : UInt8) (field : Attributes → α) (parameters : Option Attributes) : Option α :=
  parameters.bind fun p => if p.toSet &&& flag ≠ 0 then some (field p) else none

/-- What a request should leave of an attribute. -/
def written (flag : UInt8) (field : Attributes → α) (attrP : Attributes) (old : Option α) :
    Option α :=
  if attrP.toSet &&& flag ≠ 0 then some (field attrP)
  else if attrP.toClear &&& flag ≠ 0 then none
  else old

end inForce

/-- The attributes in force. -/
structure Effective where
  minPeriod : Option UInt32
  maxPeriod : Option UInt32
  greaterThan : Option Double
  lessThan : Option Double
  step : Option Double
  deriving DecidableEq, Repr

/-- The attributes of a watcher that are in force. -/
def effective (parameters : Option Attributes) : Effective where
  minPeriod := inForce attrFlagMinPeriod Attributes.minPeriod parameters
  maxPeriod := inForce attrFlagMaxPeriod Attributes.maxPeriod parameters
  greaterThan := inForce attrFlagGreaterThan Attributes.greaterThan parameters
  lessThan := inForce attrFlagLessThan Attributes.lessThan parameters
  step := inForce attrFlagStep Attributes.step parameters

/-- The attributes that should be in force after a request. -/
def Effective.write (old : Effective) (attrP : Attributes) : Effective where
  minPeriod := written attrFlagMinPeriod Attributes.minPeriod attrP old.minPeriod
  maxPeriod := written attrFlagMaxPeriod Attributes.maxPeriod attrP old.maxPeriod
  greaterThan := written attrFlagGreaterThan Attributes.greaterThan attrP old.greaterThan
  lessThan := written attrFlagLessThan Attributes.lessThan attrP old.lessThan
  step := written attrFlagStep Attributes.step attrP old.step

/-- The flags of the attributes. -/
def attrFlags : List UInt8 :=
  [attrFlagMinPeriod, attrFlagMaxPeriod, attrFlagGreaterThan, attrFlagLessThan, attrFlagStep]

/-- Every attribute that the request sets is in force and is not cleared by the request, or
none was ever set. -/
def Writable (parameters : Option Attributes) (attrP : Attributes) : Prop :=
  ∀ p, parameters = some p → ∀ flag ∈ attrFlags, attrP.toSet &&& flag ≠ 0 →
    (p.toSet &&& ~~~attrP.toClear) &&& flag ≠ 0

/-! ### One request -/

/-- The stored attributes after a request. -/
def writeAttributes (parameters : Option Attributes) (attrP : Attributes) : Option Attributes :=
  match parameters with
  | none => if attrP.toSet ≠ 0 then some attrP else none
  | some p => some (p.updateBy attrP)

/-- A flag of an attribute is one bit. -/
theorem and_flag_eq_zero_iff {flag : UInt8} (hflag : flag ∈ attrFlags) (x y : UInt8) :
    (x &&& ~~~y) &&& flag = 0 ↔ x &&& flag = 0 ∨ y &&& flag ≠ 0 := by
  obtain ⟨k, hk, hbits⟩ : ∃ k < 8, flag.toBitVec = BitVec.twoPow 8 k := by
    simp only [attrFlags, List.mem_cons, List.not_mem_nil, or_false] at hflag
    obtain rfl | rfl | rfl | rfl | rfl := hflag
    exacts [⟨0, by decide, rfl⟩, ⟨1, by decide, rfl⟩, ⟨2, by decide, rfl⟩, ⟨3, by decide, rfl⟩,
      ⟨4, by decide, rfl⟩]
  have hnonzero : BitVec.twoPow 8 k ≠ 0#8 := by
    intro hzero
    have hbit := congrArg (·.getLsbD k) hzero
    simp [hk] at hbit
  have hiff (z : UInt8) : z &&& flag = 0 ↔ z.toBitVec.getLsbD k = false := by
    rw [← UInt8.toBitVec_inj, UInt8.toBitVec_and, hbits, BitVec.and_twoPow]
    rcases Bool.eq_false_or_eq_true (z.toBitVec.getLsbD k) with hbit | hbit
    · simpa [hbit] using hnonzero
    · simp [hbit]
  rw [hiff, hiff, ne_eq, hiff, UInt8.toBitVec_and, UInt8.toBitVec_not, BitVec.getLsbD_and,
    BitVec.getLsbD_not, decide_eq_true hk, Bool.true_and, Bool.and_eq_false_iff,
    Bool.not_eq_false', Bool.not_eq_false]

variable {α : Type} {serverP : ServerRef}

/-- **One attribute.**  After a later request it is what it should be if and only if the
request does not set it, or it was in force and is not cleared by the request. -/
theorem inForce_updateBy_iff {flag : UInt8} (hflag : flag ∈ attrFlags) {field : Attributes → α}
    {p attrP : Attributes}
    (hfield : field (p.updateBy attrP) =
      if attrP.toSet &&& flag ≠ 0 then field attrP else field p) :
    inForce flag field (some (p.updateBy attrP)) =
        written flag field attrP (inForce flag field (some p)) ↔
      (attrP.toSet &&& flag ≠ 0 → (p.toSet &&& ~~~attrP.toClear) &&& flag ≠ 0) := by
  have hiff := and_flag_eq_zero_iff hflag p.toSet attrP.toClear
  have htoSet : (p.updateBy attrP).toSet = p.toSet &&& ~~~attrP.toClear := rfl
  simp only [inForce, written, Option.bind_some, hfield, htoSet]
  by_cases hset : attrP.toSet &&& flag ≠ 0
  · rw [if_pos hset, if_pos hset]
    by_cases hkept : (p.toSet &&& ~~~attrP.toClear) &&& flag ≠ 0
    · rw [if_pos hkept]
      exact iff_of_true rfl fun _ => hkept
    · rw [if_neg hkept]
      exact iff_of_false (Option.some_ne_none _).symm fun h => hkept (h hset)
  · rw [if_neg hset, if_neg hset]
    refine iff_of_true ?_ fun h => absurd h hset
    by_cases hkept : (p.toSet &&& ~~~attrP.toClear) &&& flag = 0
    · rw [if_neg (not_not.mpr hkept)]
      rcases hiff.mp hkept with hold | hclear
      · rw [if_neg (not_not.mpr hold), ite_self]
      · rw [if_pos hclear]
    · rw [if_pos hkept]
      rw [hiff, not_or, not_not] at hkept
      rw [if_pos hkept.1, if_neg (not_not.mpr hkept.2)]

/-- An attribute after the first request. -/
theorem inForce_first (flag : UInt8) (field : Attributes → α) (attrP : Attributes) :
    inForce flag field (writeAttributes none attrP) =
      written flag field attrP (inForce flag field none) := by
  unfold writeAttributes inForce written
  by_cases hset : attrP.toSet &&& flag ≠ 0
  · have hne : attrP.toSet ≠ 0 := by
      intro hzero
      rw [hzero] at hset
      exact hset UInt8.zero_and
    rw [if_pos hset, if_pos hne, Option.bind_some, if_pos hset]
  · dsimp only
    rw [if_neg hset, Option.bind_none, ite_self]
    split_ifs
    · rw [Option.bind_some, if_neg hset]
    · rfl

/-- **One request.**  The attributes in force afterwards are those that should be, if and only
if the request is writable. -/
theorem effective_writeAttributes_iff (parameters : Option Attributes) (attrP : Attributes) :
    effective (writeAttributes parameters attrP) = (effective parameters).write attrP ↔
      Writable parameters attrP := by
  rcases parameters with _ | p
  · refine iff_of_true ?_ fun p hp => by cases hp
    simp only [effective, Effective.write, inForce_first]
  · have hmin := @inForce_updateBy_iff _ attrFlagMinPeriod (by decide) Attributes.minPeriod p
      attrP rfl
    have hmax := @inForce_updateBy_iff _ attrFlagMaxPeriod (by decide) Attributes.maxPeriod p
      attrP rfl
    have hgt := @inForce_updateBy_iff _ attrFlagGreaterThan (by decide) Attributes.greaterThan p
      attrP rfl
    have hlt := @inForce_updateBy_iff _ attrFlagLessThan (by decide) Attributes.lessThan p attrP rfl
    have hstep := @inForce_updateBy_iff _ attrFlagStep (by decide) Attributes.step p attrP rfl
    simp only [effective, Effective.write, writeAttributes, Effective.mk.injEq, hmin, hmax, hgt,
      hlt, hstep, Writable, Option.some.injEq, forall_eq', attrFlags, List.forall_mem_cons,
      List.not_mem_nil, false_imp_iff, implies_true, and_true]

/-! ### Requests on the observed list -/

/-- The stored attributes of the watcher that `prv_getWatcher` returns. -/
def parametersOf (observedList : List Observed) (uriP : Uri) (serverP : ServerRef) :
    Option Attributes :=
  (prvGetWatcher observedList uriP serverP).watcher.here.parameters

/-- The watcher written through the pointer of `prv_getWatcher` is the one that it returns
then. -/
theorem prvGetWatcher_set (observedList : List Observed) (uriP : Uri) {w : Watcher}
    (hw : w.server = serverP) :
    (prvGetWatcher ((prvGetWatcher observedList uriP serverP).set w) uriP
      serverP).watcher.here = w := by
  set t := prvGetWatcher observedList uriP serverP with ht
  set entry : Observed := { t.entry.here with watcherList := t.watcher.set w } with hentry
  have hself : prvFindObservedStops uriP ⟨uriP, []⟩ = true := by
    simp [prvFindObservedStops]
  have hfind : prvFindObserved (t.set w) uriP = some { t.entry with here := entry } := by
    rcases prvGetWatcher_entry observedList uriP serverP with ⟨hfound, -⟩ | ⟨-, hnew⟩
    · exact focusFirst_set hfound (focusFirst_eq_some_iff.mp hfound).2.1
    · rw [← ht] at hnew
      refine focusFirst_eq_some_iff.mpr ⟨rfl, ?_, ?_⟩
      · show prvFindObservedStops uriP { t.entry.here with watcherList := _ } = true
        rw [hnew]
        exact hself
      · rw [hnew]
        exact fun x hx => by cases hx
  have hwatcher : prvFindWatcher (t.watcher.set w) serverP = some { t.watcher with here := w } := by
    have hhere : decide (w.server = serverP) = true := decide_eq_true hw
    refine focusFirst_eq_some_iff.mpr ⟨rfl, hhere, ?_⟩
    rw [ht, prvGetWatcher_watcher, ← ht]
    unfold watcherOf
    cases hold : prvFindWatcher t.entry.here.watcherList serverP with
    | none => exact fun x hx => by cases hx
    | some f => exact (focusFirst_eq_some_iff.mp hold).2.2
  have hresult : (prvGetWatcher (t.set w) uriP serverP).watcher =
      (prvFindWatcher ((prvFindObserved (t.set w) uriP).getD ⟨[], ⟨uriP, []⟩,
        t.set w⟩).here.watcherList serverP).getD ⟨[], { server := serverP },
          ((prvFindObserved (t.set w) uriP).getD ⟨[], ⟨uriP, []⟩, t.set w⟩).here.watcherList⟩ := rfl
  rw [hresult, hfind, Option.getD_some, hentry, hwatcher, Option.getD_some]

/-- A request is accepted: it is answered 2.04. -/
def Accepted (uriP : Uri) (serverP : ServerRef) (observedList : List Observed)
    (attrP : Attributes) (observedList' : List Observed) : Prop :=
  observeSetParameters observedList uriP serverP attrP coap205Content =
    .ok (observedList', coap204Changed)

/-- What an accepted request does to the stored attributes. -/
theorem Accepted.parametersOf {uriP : Uri} {l l' : List Observed} {attrP : Attributes}
    (h : Accepted uriP serverP l attrP l') :
    parametersOf l' uriP serverP = writeAttributes (parametersOf l uriP serverP) attrP := by
  have hrefused {l₁ : List Observed}
      (h : (Except.ok (l₁, coap400BadRequest) : Except Fault (List Observed × Code)) =
        .ok (l', coap204Changed)) : False := by
    have hcode : coap400BadRequest = coap204Changed := congrArg Prod.snd (Except.ok.inj h)
    exact absurd hcode (by decide)
  set t := prvGetWatcher l uriP serverP with ht
  have hserver : t.watcher.here.server = serverP := prvGetWatcher_server l uriP serverP
  have hset {w : Watcher} (hw : w.server = serverP) :
      Core.parametersOf (t.set w) uriP serverP = w.parameters :=
    congrArg Watcher.parameters (prvGetWatcher_set l uriP hw)
  have hold : Core.parametersOf l uriP serverP = t.watcher.here.parameters := rfl
  unfold Accepted observeSetParameters at h
  by_cases hlevels : ¬ uriP.isSetInstance ∧ uriP.isSetResource
  · rw [if_pos hlevels] at h
    exact absurd h hrefused
  · rw [if_neg hlevels, if_neg (not_not.mpr rfl)] at h
    obtain ⟨clash, -, h⟩ := bind_eq_ok_iff.mp h
    by_cases hclash : clash = true
    · rw [if_pos hclash] at h
      exact absurd h hrefused
    · rw [if_neg hclash] at h
      rw [hold]
      rcases hparameters : t.watcher.here.parameters with _ | p
      · rw [← ht, hparameters] at h
        by_cases hnone : attrP.toSet ≠ 0
        · rw [if_pos hnone] at h
          cases h
          refine (hset (by exact hserver)).trans ?_
          rw [writeAttributes, if_pos hnone]
        · rw [if_neg hnone] at h
          cases h
          refine (hset hserver).trans ?_
          rw [hparameters, writeAttributes, if_neg hnone]
      · rw [← ht, hparameters] at h
        cases h
        exact hset (by exact hserver)

/-- A step of a run of accepted requests that are writable. -/
def WritableStep (uriP : Uri) (serverP : ServerRef) (l : List Observed) (attrP : Attributes)
    (l' : List Observed) : Prop :=
  Accepted uriP serverP l attrP l' ∧ Writable (parametersOf l uriP serverP) attrP

/-- **Write-Attributes accumulates.**  After accepted requests that are all writable, the
attributes in force are those of the start, overwritten by the requests in order; and after the
next accepted request they are what they should be if and only if it is writable. -/
theorem writeAttributes_accumulate_iff {uriP : Uri} {serverP : ServerRef} {l₀ l : List Observed}
    {requests : List Attributes} (hrun : Run (WritableStep uriP serverP) l₀ requests l) :
    effective (parametersOf l uriP serverP) =
        requests.foldl Effective.write (effective (parametersOf l₀ uriP serverP)) ∧
      ∀ attrP l', Accepted uriP serverP l attrP l' →
        (effective (parametersOf l' uriP serverP) =
            (effective (parametersOf l uriP serverP)).write attrP ↔
          Writable (parametersOf l uriP serverP) attrP) := by
  refine ⟨?_, fun attrP l' h => ?_⟩
  · induction hrun with
    | nil => rfl
    | cons hstep _ ih =>
      obtain ⟨haccepted, hwritable⟩ := hstep
      rw [ih, List.foldl_cons, haccepted.parametersOf, (effective_writeAttributes_iff _ _).mpr
        hwritable]
  · rw [h.parametersOf]
    exact effective_writeAttributes_iff _ _

/-- A resource. -/
def periodUri : Uri := { objectId := 3, instanceId := 0, resourceId := 9 }

/-- The minimum period 10. -/
def pminRequest : Attributes := ⟨attrFlagMinPeriod, 0, 10, 0, ⟨0⟩, ⟨0⟩, ⟨0⟩⟩

/-- The maximum period 60. -/
def pmaxRequest : Attributes := ⟨attrFlagMaxPeriod, 0, 0, 60, ⟨0⟩, ⟨0⟩, ⟨0⟩⟩

/-- The observed list after the minimum period was set. -/
def pminList : List Observed := [⟨periodUri, [{ server := 0, parameters := some pminRequest }]⟩]

/-- **An attribute does not come into force.**  The minimum period is set, then the maximum
period; both requests are accepted, and only the minimum period is in force. -/
theorem pmax_lost : ∃ l,
    Accepted periodUri 0 [] pminRequest pminList ∧ Accepted periodUri 0 pminList pmaxRequest l ∧
      (effective (parametersOf l periodUri 0)).maxPeriod = none ∧
      ((effective none).write pminRequest |>.write pmaxRequest).maxPeriod = some 60 :=
  ⟨_, rfl, rfl, by decide, by decide⟩

/-- The minimum period 20. -/
def pminAgain : Attributes := { pminRequest with minPeriod := 20 }

/-- The observed list after the minimum period was set again. -/
def pminAgainList : List Observed :=
  [⟨periodUri, [{ server := 0, parameters := some (pminRequest.updateBy pminAgain) }]⟩]

/-- A minimum period that is set, and set again. -/
theorem pmin_written :
    effective (parametersOf pminAgainList periodUri 0) =
      (effective (parametersOf pminList periodUri 0)).write pminAgain := by
  have hfirst : WritableStep periodUri 0 [] pminRequest pminList := by
    refine ⟨rfl, fun p hp => ?_⟩
    cases hp
  have hagain : Accepted periodUri 0 pminList pminAgain pminAgainList := rfl
  refine ((writeAttributes_accumulate_iff (.cons hfirst (.nil _))).2 _ _ hagain).mpr ?_
  intro p hp flag hflag
  have hp : p = pminRequest := (Option.some.inj hp).symm
  subst hp
  simp only [attrFlags, List.mem_cons, List.not_mem_nil, or_false] at hflag
  obtain rfl | rfl | rfl | rfl | rfl := hflag <;> decide

end Lwm2m.Core

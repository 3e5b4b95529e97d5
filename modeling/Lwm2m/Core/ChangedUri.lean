/-
# The watchers of a changed URI

`lwm2m_resource_value_changed` marks the active watchers of the entries that a change concerns:
those whose URI is a prefix of the changed one, equal to it, or an extension of it.  Each of the
levels below the object is compared where both URIs set it; the object is compared in any case, so a
URI without an object concerns no entry that has one (`resourceValueChanged_tags_iff`).
-/

import Lwm2m.Core.Observe
import Lwm2m.Library.Levels

namespace Lwm2m.Core

open Coap Library

/-- A level of a URI, where it is set. -/
def setLevel (id : UInt16) : Option UInt16 := if id = lwm2mMaxId then none else some id

namespace Uri

/-- The levels of a URI below the object. -/
def lowerLevels (uri : Uri) : List (Option UInt16) :=
  [setLevel uri.instanceId, setLevel uri.resourceId, setLevel uri.resourceInstanceId]

/-- The levels of a URI. -/
def levels (uri : Uri) : List (Option UInt16) := setLevel uri.objectId :: uri.lowerLevels

end Uri

/-- A change of a URI tells a watcher of an observed URI: an active one is to be updated, if one of
the URIs is a prefix of the other. -/
def Watcher.told (uriP uri : Uri) (watcherP : Watcher) : Watcher :=
  if watcherP.active ∧ Related uriP.levels uri.levels then { watcherP with update := true }
  else watcherP

/-- **The change marks precisely** the active watchers of the entries that it concerns, and changes
nothing else. -/
def TagsPrecisely (observedList : List Observed) (uriP : Uri) : Prop :=
  lwm2mResourceValueChanged observedList uriP = observedList.map fun targetP =>
    { targetP with watcherList := targetP.watcherList.map (Watcher.told uriP targetP.uri) }

/-- The comparison overlooks that one of the URIs is a prefix of the other: just one of them has an
object, or they differ at a level below one that one of them leaves unset. -/
def Overlooks (uriP uri : Uri) : Prop :=
  ¬ (uriP.isSetObject ↔ uri.isSetObject) ∨ ClashBelow uriP.levels uri.levels

/-! ### The comparison -/

/-- The comparison of `lwm2m_resource_value_changed` with the URI of an entry. -/
def changeConcerns (uriP uri : Uri) : Bool :=
  uri.objectId == uriP.objectId
    && overlaps uriP.isSetInstance uri.isSetInstance uriP.instanceId uri.instanceId
    && overlaps uriP.isSetResource uri.isSetResource uriP.resourceId uri.resourceId
    && overlaps uriP.isSetResourceInstance uri.isSetResourceInstance
        uriP.resourceInstanceId uri.resourceInstanceId

/-- A level of the comparison. -/
theorem clash_cons_iff {id id' : UInt16} {levels levels' : List (Option UInt16)} :
    Clash (setLevel id :: levels) (setLevel id' :: levels') ↔
      overlaps (id ≠ lwm2mMaxId) (id' ≠ lwm2mMaxId) id id' = false ∨ Clash levels levels' := by
  unfold setLevel overlaps
  by_cases hid : id = lwm2mMaxId
  · simp [hid, Clash]
  by_cases hid' : id' = lwm2mMaxId
  · simp [hid, hid', Clash]
  · simp [hid, hid', Clash]

variable {uriP uri : Uri}

/-- **An entry is passed over** when the objects differ, or the URIs differ at a level that both
set. -/
theorem changeConcerns_eq_false_iff :
    changeConcerns uriP uri = false ↔
      ¬ (uriP.isSetObject ↔ uri.isSetObject) ∨ Clash uriP.levels uri.levels := by
  have hlower : Clash uriP.lowerLevels uri.lowerLevels ↔
      overlaps uriP.isSetInstance uri.isSetInstance uriP.instanceId uri.instanceId = false ∨
        overlaps uriP.isSetResource uri.isSetResource uriP.resourceId uri.resourceId = false ∨
          overlaps uriP.isSetResourceInstance uri.isSetResourceInstance
            uriP.resourceInstanceId uri.resourceInstanceId = false := by
    unfold Uri.lowerLevels
    rw [clash_cons_iff, clash_cons_iff, clash_cons_iff, or_iff_left (not_clash_nil [])]
    rfl
  have hobject : (uri.objectId == uriP.objectId) = false ↔
      ¬ (uriP.isSetObject ↔ uri.isSetObject) ∨
        overlaps uriP.isSetObject uri.isSetObject uriP.objectId uri.objectId = false := by
    unfold Uri.isSetObject overlaps
    by_cases h : uriP.objectId = lwm2mMaxId <;> by_cases h' : uri.objectId = lwm2mMaxId
    · simp [h, h']
    · simp [h, h']
    · simpa [h, h'] using Ne.symm h
    · simpa [h, h'] using not_congr eq_comm
  unfold changeConcerns Uri.levels
  rw [clash_cons_iff, hlower]
  simp only [Bool.and_eq_false_iff, or_assoc, hobject]
  rfl

/-- An entry that is passed over although one of the URIs is a prefix of the other. -/
theorem overlooks_iff :
    Overlooks uriP uri ↔ Related uriP.levels uri.levels ∧ changeConcerns uriP uri = false := by
  unfold Overlooks
  rw [changeConcerns_eq_false_iff, ← related_and_clash_iff]
  constructor
  · rintro (hobject | ⟨hrelated, hclash⟩)
    · refine ⟨related_of_levelsSet_nil ?_, .inl hobject⟩
      unfold Uri.levels setLevel
      by_cases h : uriP.objectId = lwm2mMaxId
      · exact .inl (by rw [if_pos h]; rfl)
      by_cases h' : uri.objectId = lwm2mMaxId
      · exact .inr (by rw [if_pos h']; rfl)
      exact (hobject (iff_of_true h h')).elim
    · exact ⟨hrelated, .inr hclash⟩
  · rintro ⟨hrelated, hobject | hclash⟩
    · exact .inl hobject
    · exact .inr ⟨hrelated, hclash⟩

/-- An entry that is not passed over has a URI that is a prefix of the changed one, or the other way
round. -/
theorem related_of_changeConcerns (h : changeConcerns uriP uri = true) :
    Related uriP.levels uri.levels := by
  refine related_of_not_clash fun hclash => ?_
  have hfalse := changeConcerns_eq_false_iff.mpr (.inr hclash)
  rw [h] at hfalse
  cases hfalse

/-! ### The marks -/

/-- The marks of the change, on the watchers of an entry. -/
def Watcher.mark (watcherP : Watcher) : Watcher :=
  if watcherP.active then { watcherP with update := true } else watcherP

theorem mark_eq_self_iff {watcherP : Watcher} :
    watcherP.mark = watcherP ↔ (watcherP.active → watcherP.update = true) := by
  unfold Watcher.mark
  by_cases hactive : watcherP.active = true
  · rw [if_pos hactive]
    constructor
    · exact fun h _ => (congrArg Watcher.update h).symm
    · intro h
      cases watcherP
      exact congrArg (Watcher.mk _ · _ _ _ _ _ _ _ _) (h hactive).symm
  · rw [if_neg hactive]
    exact iff_of_true rfl fun h => absurd h hactive

theorem told_eq_mark (h : Related uriP.levels uri.levels) :
    Watcher.told uriP uri = Watcher.mark := by
  funext watcherP
  simp [Watcher.told, Watcher.mark, h]

theorem told_eq_self (h : ¬ Related uriP.levels uri.levels) :
    Watcher.told uriP uri = id := by
  funext watcherP
  simp [Watcher.told, h]

/-- What the change does to one entry. -/
def changedEntry (uriP : Uri) (targetP : Observed) : Observed :=
  if changeConcerns uriP targetP.uri then
    { targetP with watcherList := targetP.watcherList.map Watcher.mark }
  else targetP

theorem resourceValueChanged_eq_map (observedList : List Observed) (uriP : Uri) :
    lwm2mResourceValueChanged observedList uriP = observedList.map (changedEntry uriP) := rfl

/-- **One entry** has precisely the watchers marked that it should, except where it is overlooked
and an active watcher is not marked yet. -/
theorem changedEntry_eq_iff {targetP : Observed} :
    changedEntry uriP targetP =
        { targetP with watcherList := targetP.watcherList.map (Watcher.told uriP targetP.uri) } ↔
      (Overlooks uriP targetP.uri → ∀ w ∈ targetP.watcherList, w.active → w.update = true) := by
  unfold changedEntry
  rw [overlooks_iff]
  cases hconcerns : changeConcerns uriP targetP.uri with
  | true =>
    rw [if_pos rfl, told_eq_mark (related_of_changeConcerns hconcerns)]
    exact iff_of_true rfl fun h => Bool.noConfusion h.2
  | false =>
    rw [if_neg Bool.false_ne_true]
    by_cases hrelated : Related uriP.levels targetP.uri.levels
    · rw [told_eq_mark hrelated, imp_iff_right ⟨hrelated, rfl⟩]
      refine Iff.trans ?_ (forall₂_congr fun w _ => mark_eq_self_iff)
      have hmap : targetP = { targetP with watcherList := targetP.watcherList.map Watcher.mark } ↔
          targetP.watcherList = targetP.watcherList.map Watcher.mark :=
        ⟨congrArg Observed.watcherList, congrArg (Observed.mk targetP.uri)⟩
      rw [hmap, eq_comm]
      conv_lhs => rhs; rw [← List.map_id targetP.watcherList]
      exact List.map_inj_left
    · rw [told_eq_self hrelated, List.map_id]
      exact iff_of_true rfl fun h => absurd h.1 hrelated

/-- **When a change marks precisely** the watchers that it concerns: when each entry whose relation
to the changed URI is overlooked has all its active watchers marked already. -/
theorem resourceValueChanged_tags_iff (observedList : List Observed) (uriP : Uri) :
    TagsPrecisely observedList uriP ↔ ∀ targetP ∈ observedList, Overlooks uriP targetP.uri →
      ∀ watcherP ∈ targetP.watcherList, watcherP.active → watcherP.update = true := by
  unfold TagsPrecisely
  rw [resourceValueChanged_eq_map, List.map_inj_left]
  exact forall₂_congr fun targetP _ => changedEntry_eq_iff

/-- **A change of the root** is told to nobody: the watcher of the Device object stays unmarked. -/
theorem rootChanged_fails :
    ¬ ∀ (observedList : List Observed) (uriP : Uri), TagsPrecisely observedList uriP := by
  intro h
  have hroot := h [⟨{ objectId := 3 }, [{ server := 0, active := true }]⟩] {}
  unfold TagsPrecisely at hroot
  exact absurd hroot (by decide)

end Lwm2m.Core

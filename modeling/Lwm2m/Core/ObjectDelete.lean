/-
# Deleting instances

`object_delete` calls the `deleteFunc` of an object and then clears the observations of the
instance. A `deleteFunc` removes the instance from the list and frees its memory.  In a delete of
the whole object, the identifier of the instance to clear is read from the node again, behind the
call.

The delete of one instance clears exactly its observations.  Where the nodes are freed, the first
instance that the delete of an object deletes is read from freed memory (`objectDelete_clears_iff`).
-/

import Lwm2m.Core.Observe
import Lwm2m.Library.Memory

namespace Lwm2m.Core

open Coap Code Library Library.Memory

/-! ### Objects whose instances are deleted -/

/-- An instance as `lwm2m_list_t`: the address of its node, and its identifier. -/
structure InstanceNode where
  address : ℕ
  id : UInt16
  deriving DecidableEq, Repr

/-- The instances of an object, and the memory that their nodes are in. -/
structure Instances where
  memory : Memory Unit
  instanceList : List InstanceNode

/-- A `deleteFunc`, which removes the instance that it deletes from the list. -/
structure DeleteFunc where
  run : UInt16 → Instances → Code × Instances
  removes : ∀ id s, (run id s).1 = coap202Deleted → ∃ node,
    listRemove InstanceNode.id s.instanceList id = ((run id s).2.instanceList, some node)

/-- What `object_delete` reads of an object. -/
structure DeletableObject where
  objID : UInt16
  instances : Instances
  deleteFunc : Option DeleteFunc

/-- What `object_delete` leaves: its code, the instances of the object, the observed list, and the
instances that the callback was given and deleted. -/
structure Deleted where
  code : Code
  instances : Instances
  observedList : List Observed
  ids : List UInt16

/-- The loop of `object_delete` over the instances. -/
def deleteAll (deleteFunc : DeleteFunc) (objectId : UInt16) (s : Instances)
    (observedList : List Observed) (ids : List UInt16) : Except Fault Deleted :=
  match s.instanceList with
  | [] => .ok ⟨coap202Deleted, s, observedList, ids⟩
  | instanceP :: _ =>
    let result := deleteFunc.run instanceP.id s
    if _hcode : result.1 = coap202Deleted then
      -- the identifier is read from the node behind the call
      if (result.2.memory.cells instanceP.address).isNone then .error .useAfterFree
      else
        deleteAll deleteFunc objectId result.2
          (observeClear observedList { objectId, instanceId := instanceP.id }) (instanceP.id :: ids)
    else .ok ⟨result.1, result.2, observedList, ids⟩
termination_by s.instanceList.length
decreasing_by
  obtain ⟨node, hremove⟩ := deleteFunc.removes instanceP.id s _hcode
  exact (listRemove_perm hremove).length_eq ▸ Nat.lt_succ_self _

/-- `object_delete`. -/
def objectDelete (objectList : List DeletableObject) (observedList : List Observed) (uriP : Uri) :
    Except Fault Deleted :=
  let untouched (code : Code) (instances : Instances) : Except Fault Deleted :=
    .ok ⟨code, instances, observedList, []⟩
  match listFind DeletableObject.objID objectList uriP.objectId with
  | none => untouched coap404NotFound ⟨.empty, []⟩
  | some objectP =>
    match objectP.deleteFunc with
    | none => untouched coap405MethodNotAllowed objectP.instances
    | some deleteFunc =>
      if uriP.isSetInstance then
        let (code, instances) := deleteFunc.run uriP.instanceId objectP.instances
        if code = coap202Deleted then
          .ok ⟨code, instances, observeClear observedList uriP, [uriP.instanceId]⟩
        else untouched code instances
      else deleteAll deleteFunc uriP.objectId objectP.instances observedList []

/-- **The observations of the deleted instances are cleared**, and the others are left: a delete
that answers `2.02` leaves the entries outside the instances that the callback deleted. -/
def ClearsDeleted (objectId : UInt16) (observedList : List Observed)
    (result : Except Fault Deleted) : Prop :=
  ∃ r, result = .ok r ∧ (r.code = coap202Deleted → r.observedList = observedList.filter fun o =>
    !(o.uri.objectId == objectId && r.ids.contains o.uri.instanceId))

/-- What is deleted is freed. -/
def Frees (deleteFunc : DeleteFunc) : Prop :=
  ∀ id s node, (listRemove InstanceNode.id s.instanceList id).2 = some node →
    (deleteFunc.run id s).1 = coap202Deleted →
      (deleteFunc.run id s).2.memory.cells node.address = none

/-- The list part of the `deleteFunc` of the Security, the Server and the Snap object. -/
def removeInstance (id : UInt16) (s : Instances) : Code × Instances :=
  match listRemove InstanceNode.id s.instanceList id with
  | (_, none) => (coap404NotFound, s)
  | (instanceList, some targetP) =>
    (coap202Deleted, ⟨s.memory.release targetP.address, instanceList⟩)

theorem removeInstance_deleted {id : UInt16} {s : Instances}
    (h : (removeInstance id s).1 = coap202Deleted) : ∃ node rest,
      listRemove InstanceNode.id s.instanceList id = (rest, some node) ∧
        (removeInstance id s).2 = ⟨s.memory.release node.address, rest⟩ := by
  have hne : coap404NotFound ≠ coap202Deleted := by decide
  unfold removeInstance at h ⊢
  generalize listRemove InstanceNode.id s.instanceList id = removed at h ⊢
  rcases removed with ⟨rest, _ | node⟩
  · exact absurd h hne
  · exact ⟨node, rest, rfl, rfl⟩

/-- The `deleteFunc` of those objects. -/
def prvInstanceDelete : DeleteFunc where
  run := removeInstance
  removes id s h := by
    obtain ⟨node, rest, hremove, hresult⟩ := removeInstance_deleted h
    exact ⟨node, by rw [hremove, hresult]⟩

theorem frees_prvInstanceDelete : Frees prvInstanceDelete := by
  intro id s node hnode hcode
  obtain ⟨node', rest, hremove, hresult⟩ := removeInstance_deleted hcode
  rw [hremove] at hnode
  cases hnode
  show (removeInstance id s).2.memory.cells node.address = none
  rw [hresult]
  exact Function.update_self _ _ _

section

variable {deleteFunc : DeleteFunc} {objectId : UInt16} {s : Instances}
  {observedList : List Observed} {ids : List UInt16}

/-- Clearing one instance is a filter of its identifier. -/
theorem observeClear_eq_filter {uriP : Uri} (hset : uriP.isSetInstance) :
    observeClear observedList uriP = observedList.filter fun o =>
      !(o.uri.objectId == uriP.objectId && [uriP.instanceId].contains o.uri.instanceId) := by
  unfold observeClear
  simp [hset, beq_eq_decide]

/-- The delete of a whole object deletes an instance. -/
def DeletesFirst (objectList : List DeletableObject) (uriP : Uri) : Prop :=
  ∃ objectP deleteFunc instanceP next, ¬ uriP.isSetInstance ∧
    listFind DeletableObject.objID objectList uriP.objectId = some objectP ∧
    objectP.deleteFunc = some deleteFunc ∧ objectP.instances.instanceList = instanceP :: next ∧
    (deleteFunc.run instanceP.id objectP.instances).1 = coap202Deleted

/-- A first instance that is freed is read behind its end. -/
theorem deleteAll_first (hfrees : Frees deleteFunc) {instanceP : InstanceNode}
    {next : List InstanceNode} (hlist : s.instanceList = instanceP :: next)
    (hcode : (deleteFunc.run instanceP.id s).1 = coap202Deleted) :
    deleteAll deleteFunc objectId s observedList ids = .error .useAfterFree := by
  have hfreed : (deleteFunc.run instanceP.id s).2.memory.cells instanceP.address = none := by
    refine hfrees instanceP.id s instanceP ?_ hcode
    rw [hlist, listRemove, if_pos rfl]
  rw [deleteAll, hlist]
  dsimp only
  rw [dif_pos hcode, hfreed]
  rfl

/-- **When a delete clears exactly the observations of the deleted instances**, for callbacks that
free what they delete: except where a delete of a whole object deletes an instance. -/
theorem objectDelete_clears_iff {objectList : List DeletableObject} {uriP : Uri}
    (observedList : List Observed)
    (hfrees : ∀ objectP ∈ objectList, ∀ deleteFunc, objectP.deleteFunc = some deleteFunc →
      Frees deleteFunc) :
    ClearsDeleted uriP.objectId observedList (objectDelete objectList observedList uriP) ↔
      ¬ DeletesFirst objectList uriP := by
  constructor
  · rintro ⟨r, hr, -⟩ ⟨objectP, deleteFunc, instanceP, next, hset, hfind, hdelete, hlist, hcode⟩
    rw [objectDelete, hfind] at hr
    dsimp only at hr
    rw [hdelete] at hr
    dsimp only at hr
    rw [if_neg hset, deleteAll_first (hfrees objectP (mem_of_listFind hfind).1 deleteFunc hdelete)
      hlist hcode] at hr
    cases hr
  · intro hfirst
    unfold objectDelete
    cases hfind : listFind DeletableObject.objID objectList uriP.objectId with
    | none =>
      exact ⟨_, rfl, fun h => absurd (show coap404NotFound = coap202Deleted from h) (by decide)⟩
    | some objectP =>
      dsimp only
      cases hdelete : objectP.deleteFunc with
      | none =>
        exact ⟨_, rfl, fun h => absurd (show coap405MethodNotAllowed = coap202Deleted from h)
          (by decide)⟩
      | some deleteFunc =>
        dsimp only
        by_cases hset : uriP.isSetInstance
        · rw [if_pos hset]
          split_ifs with hcode
          · exact ⟨_, rfl, fun _ => observeClear_eq_filter hset⟩
          · exact ⟨_, rfl, fun h => absurd h hcode⟩
        · rw [if_neg hset, deleteAll]
          cases hlist : objectP.instances.instanceList with
          | nil => exact ⟨_, rfl, fun _ => by simp⟩
          | cons instanceP next =>
            have hcode : (deleteFunc.run instanceP.id objectP.instances).1 ≠ coap202Deleted :=
              fun hcode => hfirst ⟨objectP, deleteFunc, instanceP, next, hset, hfind, hdelete,
                hlist, hcode⟩
            dsimp only
            rw [dif_neg hcode]
            exact ⟨_, rfl, fun h => absurd h hcode⟩

end

/-- The Security object with the instances 0 and 1. -/
def twoSecurityInstances : DeletableObject where
  objID := 0
  instances := ⟨((Memory.empty.alloc ()).1.alloc ()).1, [⟨0, 0⟩, ⟨1, 1⟩]⟩
  deleteFunc := some prvInstanceDelete

theorem frees_twoSecurityInstances : ∀ objectP ∈ [twoSecurityInstances], ∀ deleteFunc,
    objectP.deleteFunc = some deleteFunc → Frees deleteFunc := by
  intro objectP hmem deleteFunc hdelete
  rw [List.mem_singleton.mp hmem] at hdelete
  cases hdelete
  exact frees_prvInstanceDelete

/-- **The delete of the whole object**: the identifier of the instance 0 is read from its freed
node. -/
theorem objectDelete_fails : ¬ ∀ (objectList : List DeletableObject) (uriP : Uri)
    (observedList : List Observed),
    (∀ objectP ∈ objectList, ∀ deleteFunc, objectP.deleteFunc = some deleteFunc →
      Frees deleteFunc) →
    ClearsDeleted uriP.objectId observedList (objectDelete objectList observedList uriP) := by
  intro h
  obtain ⟨r, hr, -⟩ := h [twoSecurityInstances] { objectId := 0 } [] frees_twoSecurityInstances
  have hfault : deleteAll prvInstanceDelete 0 twoSecurityInstances.instances [] [] =
      .error .useAfterFree := deleteAll_first frees_prvInstanceDelete rfl (by decide)
  cases hfault.symm.trans hr

/-- The delete of the instance 1, which is observed at a resource. -/
theorem objectDelete_instance :
    ClearsDeleted 0 [⟨{ objectId := 0, instanceId := 1, resourceId := 2 }, []⟩]
      (objectDelete [twoSecurityInstances]
        [⟨{ objectId := 0, instanceId := 1, resourceId := 2 }, []⟩]
        { objectId := 0, instanceId := 1 }) := by
  refine (objectDelete_clears_iff _ frees_twoSecurityInstances).mpr ?_
  rintro ⟨-, -, -, -, hset, -⟩
  exact hset (by decide)

end Lwm2m.Core

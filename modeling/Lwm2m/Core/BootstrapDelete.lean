/-
# The DELETE of a bootstrap server

A bootstrap server deletes the Security object (`DELETE /0`, in `bootstrap_handleCommand`) or every
object (`DELETE /`, `bootstrap_handleDeleteAll`).  Both walk the object list; in the Security object
they delete instance by instance and spare that of the bootstrap server's own account, and start
again at the head after each delete.

Each loop ends, and what it deletes is a fixed sequence of instances, cut off where the callback
refuses (`ends_securityLoop`).  The answer to `DELETE /` is that of the last object alone, so that a
refusal of another one is masked (`bootstrapDelete_complete_iff`).

The observations that a delete clears are left out.
-/

import Lwm2m.Core.Bootstrap
import Lwm2m.Library.Fuel

namespace Lwm2m.Core

open Coap Code Library

/-! ### Objects -/

/-- An object as a DELETE reads it.  Its `deleteFunc`, if it has one, answers `answers 0` when it is
called next, `answers 1` at the call after that, and so on. -/
structure BootstrapObject where
  objID : UInt16
  instanceList : List UInt16
  hasDelete : Bool
  answers : ℕ → Code

namespace BootstrapObject

/-- A call of the `deleteFunc`: it removes the instance and answers `2.02`, or leaves it. -/
def deleteFunc (objectP : BootstrapObject) (id : UInt16) : BootstrapObject × Code :=
  ({ objectP with
      instanceList :=
        if objectP.answers 0 = coap202Deleted then objectP.instanceList.erase id
        else objectP.instanceList
      answers := fun n => objectP.answers (n + 1) }, objectP.answers 0)

/-- The loop of `object_delete` over the instances, in at most so many turns. -/
def deleteInstances : ℕ → BootstrapObject → Code → Option (BootstrapObject × Code)
  | 0, _, _ => none
  | fuel + 1, objectP, result =>
    match objectP.instanceList with
    | [] => some (objectP, result)
    | id :: _ =>
      if result = coap202Deleted then
        deleteInstances fuel (objectP.deleteFunc id).1 (objectP.deleteFunc id).2
      else some (objectP, result)

end BootstrapObject

/-- The object list, in the order that `lwm2m_list_add` keeps. -/
structure BootstrapObjects where
  nodes : List BootstrapObject
  increasing : nodes.Pairwise (·.objID < ·.objID)

namespace BootstrapObjects

/-- The node of an object, changed in place. -/
def set (objects : BootstrapObjects) (objectP : BootstrapObject) : BootstrapObjects where
  nodes := objects.nodes.map fun o => if o.objID = objectP.objID then objectP else o
  increasing := by
    refine List.pairwise_map.mpr (objects.increasing.imp fun {o o'} hlt => ?_)
    split_ifs with h h' h' <;> simp_all

/-- The `instanceList` of an object. -/
def instanceList (objects : BootstrapObjects) (objID : UInt16) : List UInt16 :=
  ((listFind BootstrapObject.objID objects.nodes objID).map (·.instanceList)).getD []

/-- `object_delete`. -/
def objectDelete (fuel : ℕ) (objects : BootstrapObjects) (uriP : Uri) :
    Option (BootstrapObjects × Code) :=
  match listFind BootstrapObject.objID objects.nodes uriP.objectId with
  | none => some (objects, coap404NotFound)
  | some objectP =>
    if objectP.hasDelete then
      if uriP.isSetInstance then
        some (objects.set (objectP.deleteFunc uriP.instanceId).1,
          (objectP.deleteFunc uriP.instanceId).2)
      else
        (objectP.deleteInstances fuel coap202Deleted).map fun (objectP, result) =>
          (objects.set objectP, result)
    else some (objects, coap405MethodNotAllowed)

/-- The loop over the instances of the Security object, from `instanceP` on; `own` is the instance
of the bootstrap server's account. -/
def securityLoop (own objID : UInt16) :
    ℕ → BootstrapObjects → List UInt16 → Code → Option (BootstrapObjects × Code)
  | 0, _, _, _ => none
  | _ + 1, objects, [], result => some (objects, result)
  | fuel + 1, objects, id :: next, result =>
    if result = coap202Deleted then
      if id = own then securityLoop own objID fuel objects next result
      else
        (objects.objectDelete fuel { objectId := objID, instanceId := id }).bind
          fun (objects, result) =>
            securityLoop own objID fuel objects (objects.instanceList objID) result
    else some (objects, result)

end BootstrapObjects

/-! ### Requests -/

/-- What a DELETE has done so far: the context and the objects, `result`, and what the deletes of
the objects returned in turn. -/
structure BootstrapDeleted where
  contextP : Context
  objects : BootstrapObjects
  result : Code
  results : List (UInt16 × Code) := []

namespace BootstrapDeleted

/-- The turn of the Security object. -/
def securityTurn (fuel : ℕ) (serverP : Server) (objID : UInt16) (s : BootstrapDeleted) :
    Option BootstrapDeleted :=
  (BootstrapObjects.securityLoop serverP.secObjInstID objID fuel s.objects
      (s.objects.instanceList objID) s.result).map fun (objects, result) =>
    { contextP :=
        if result = coap202Deleted then prvTagAllServer s.contextP (some serverP.ref)
        else s.contextP
      objects, result
      results := s.results ++ [(objID, result)] }

/-- The turn of another object in `bootstrap_handleDeleteAll`. -/
def otherTurn (fuel : ℕ) (objID : UInt16) (s : BootstrapDeleted) : Option BootstrapDeleted :=
  (s.objects.objectDelete fuel { objectId := objID }).map fun (objects, result) =>
    { s with
      objects
      -- a successful deletion is faked for static objects like the Device object
      result := if result = coap405MethodNotAllowed then coap202Deleted else result
      results := s.results ++ [(objID, result)] }

/-- A turn of the loop of `bootstrap_handleCommand` for `DELETE /0`. -/
def commandTurn (fuel : ℕ) (serverP : Server) (objID : UInt16) (s : BootstrapDeleted) :
    Option BootstrapDeleted :=
  if objID = lwm2mSecurityObjectId then s.securityTurn fuel serverP objID else some s

/-- A turn of the loop of `bootstrap_handleDeleteAll`. -/
def deleteAllTurn (fuel : ℕ) (serverP : Server) (objID : UInt16) (s : BootstrapDeleted) :
    Option BootstrapDeleted :=
  if objID = lwm2mSecurityObjectId then s.securityTurn fuel serverP objID
  else s.otherTurn fuel objID

/-- A loop over the nodes of the object list. -/
def forObjects (turn : UInt16 → BootstrapDeleted → Option BootstrapDeleted) :
    List BootstrapObject → BootstrapDeleted → Option BootstrapDeleted
  | [], s => some s
  | objectP :: next, s => (turn objectP.objID s).bind (forObjects turn next)

end BootstrapDeleted

namespace BootstrapObjects

open BootstrapDeleted

/-- The DELETE of `bootstrap_handleCommand`. -/
def bootstrapDelete (fuel : ℕ) (contextP : Context) (objects : BootstrapObjects) (uriP : Uri)
    (serverP : Server) : Option BootstrapDeleted :=
  if uriP.isSetResource then some ⟨contextP, objects, coap400BadRequest, []⟩
  else if uriP.objectId = lwm2mSecurityObjectId ∧ ¬ uriP.isSetInstance then
    forObjects (commandTurn fuel serverP) objects.nodes ⟨contextP, objects, coap202Deleted, []⟩
  else
    (objects.objectDelete fuel uriP).map fun (objects, result) =>
      { contextP :=
          if uriP.objectId = lwm2mSecurityObjectId ∧ result = coap202Deleted then
            if uriP.isSetInstance then prvTagServer contextP uriP.instanceId
            else prvTagAllServer contextP none
          else contextP
        objects, result }

/-- `bootstrap_handleCommand` for a DELETE. -/
def bootstrapHandleCommand (fuel : ℕ) (contextP : Context) (objects : BootstrapObjects)
    (uriP : Uri) (serverP : Server) : Option BootstrapDeleted :=
  match prvCheckServerStatus serverP.status with
  | none => some ⟨contextP, objects, coapIgnore, []⟩
  | some status =>
    (bootstrapDelete fuel (setBootstrapServer contextP serverP.ref ({ · with status })) objects uriP
      serverP).map fun s =>
        { s with
          contextP :=
            if s.result = coap202Deleted ∧ status ≠ .bsPending then
              { setBootstrapServer s.contextP serverP.ref ({ · with status := .bsPending }) with
                state := .bootstrapping }
            else s.contextP }

/-- `bootstrap_handleDeleteAll`. -/
def bootstrapHandleDeleteAll (fuel : ℕ) (contextP : Context) (objects : BootstrapObjects)
    (fromSessionH : Session) : Option BootstrapDeleted :=
  match utilsFindServer contextP.bootstrapServerList fromSessionH with
  | none => some ⟨contextP, objects, coapIgnore, []⟩
  | some serverP =>
    match prvCheckServerStatus serverP.status with
    | none => some ⟨contextP, objects, coapIgnore, []⟩
    | some status =>
      forObjects (deleteAllTurn fuel serverP) objects.nodes
        ⟨setBootstrapServer contextP serverP.ref ({ · with status }), objects, coap202Deleted, []⟩

end BootstrapObjects

/-! ### The instances that a delete takes -/

/-- The instances that the loop over the Security object gives to `object_delete` as long as none is
refused, from a point on behind the instances `spared`: those other than `own`.  One with the
reserved identifier stands for the whole object, of which it deletes what is left. -/
def securityTargets (own : UInt16) (spared : List UInt16) : List UInt16 → List UInt16
  | [] => []
  | id :: next =>
    if id = own then securityTargets own (spared ++ [own]) next
    else if id = lwm2mMaxId then spared ++ id :: next
    else id :: securityTargets own spared next

namespace BootstrapObject

/-- The deletes of a sequence of instances, up to the first that is refused. -/
def deletes : List UInt16 → BootstrapObject → BootstrapObject × Code
  | [], objectP => (objectP, coap202Deleted)
  | id :: next, objectP =>
    if objectP.answers 0 = coap202Deleted then deletes next (objectP.deleteFunc id).1
    else objectP.deleteFunc id

/-- The instances of an object that a DELETE takes. -/
def targets (own : UInt16) (objectP : BootstrapObject) : List UInt16 :=
  if objectP.objID = lwm2mSecurityObjectId then securityTargets own [] objectP.instanceList
  else objectP.instanceList

/-- What a DELETE leaves of an object, and what the delete of the object returns. -/
def deleted (own : UInt16) (objectP : BootstrapObject) : BootstrapObject × Code :=
  if objectP.hasDelete then deletes (objectP.targets own) objectP
  else (objectP,
    if objectP.objID = lwm2mSecurityObjectId ∧ objectP.targets own = [] then coap202Deleted
    else coap405MethodNotAllowed)

section

variable {ids : List UInt16} {id own : UInt16} {objectP : BootstrapObject}

@[simp] theorem deleteFunc_objID : (objectP.deleteFunc id).1.objID = objectP.objID := rfl

@[simp] theorem deleteFunc_hasDelete : (objectP.deleteFunc id).1.hasDelete = objectP.hasDelete :=
  rfl

theorem deleteFunc_code : (objectP.deleteFunc id).2 = objectP.answers 0 := rfl

theorem deleteFunc_of_accepted (h : objectP.answers 0 = coap202Deleted) :
    (objectP.deleteFunc id).1.instanceList = objectP.instanceList.erase id := if_pos h

theorem deleteFunc_of_refused (h : objectP.answers 0 ≠ coap202Deleted) :
    (objectP.deleteFunc id).1.instanceList = objectP.instanceList := if_neg h

theorem deletes_cons_of_accepted (h : objectP.answers 0 = coap202Deleted) :
    deletes (id :: ids) objectP = deletes ids (objectP.deleteFunc id).1 := if_pos h

theorem deletes_cons_of_refused (h : objectP.answers 0 ≠ coap202Deleted) :
    deletes (id :: ids) objectP = objectP.deleteFunc id := if_neg h

@[simp] theorem deletes_objID : (deletes ids objectP).1.objID = objectP.objID := by
  induction ids generalizing objectP with
  | nil => rfl
  | cons id next ih =>
    by_cases h : objectP.answers 0 = coap202Deleted
    · rw [deletes_cons_of_accepted h, ih, deleteFunc_objID]
    · rw [deletes_cons_of_refused h, deleteFunc_objID]

@[simp] theorem deletes_hasDelete : (deletes ids objectP).1.hasDelete = objectP.hasDelete := by
  induction ids generalizing objectP with
  | nil => rfl
  | cons id next ih =>
    by_cases h : objectP.answers 0 = coap202Deleted
    · rw [deletes_cons_of_accepted h, ih, deleteFunc_hasDelete]
    · rw [deletes_cons_of_refused h, deleteFunc_hasDelete]

theorem deleted_objID (own : UInt16) (objectP : BootstrapObject) :
    (objectP.deleted own).1.objID = objectP.objID := by
  unfold deleted
  by_cases h : objectP.hasDelete = true
  · rw [if_pos h, deletes_objID]
  · rw [if_neg h]

/-- A sequence of deletes answers `2.02` when each of its calls does. -/
theorem deletes_code_iff : (deletes ids objectP).2 = coap202Deleted ↔
    ∀ i < ids.length, objectP.answers i = coap202Deleted := by
  induction ids generalizing objectP with
  | nil => exact iff_of_true rfl fun i hi => absurd hi (Nat.not_lt_zero i)
  | cons id next ih =>
    by_cases h : objectP.answers 0 = coap202Deleted
    · rw [deletes_cons_of_accepted h, ih]
      refine ⟨fun hall i hi => ?_, fun hall i hi => hall (i + 1) (Nat.succ_lt_succ hi)⟩
      cases i with
      | zero => exact h
      | succ i => exact hall i (Nat.lt_of_succ_lt_succ hi)
    · rw [deletes_cons_of_refused h]
      exact iff_of_false h fun hall => h (hall 0 (Nat.succ_pos _))

/-- Otherwise it answers what the first call answers that does not. -/
theorem deletes_code_refused_iff (p : Code → Prop) :
    (deletes ids objectP).2 ≠ coap202Deleted ∧ p (deletes ids objectP).2 ↔
      ∃ i < ids.length, (∀ j < i, objectP.answers j = coap202Deleted) ∧
        objectP.answers i ≠ coap202Deleted ∧ p (objectP.answers i) := by
  induction ids generalizing objectP with
  | nil => exact iff_of_false (fun h => h.1 rfl) fun ⟨i, hi, _⟩ => Nat.not_lt_zero i hi
  | cons id next ih =>
    by_cases h : objectP.answers 0 = coap202Deleted
    · rw [deletes_cons_of_accepted h, ih]
      constructor
      · rintro ⟨i, hi, hbefore, hrefused⟩
        refine ⟨i + 1, Nat.succ_lt_succ hi, fun j hj => ?_, hrefused⟩
        cases j with
        | zero => exact h
        | succ j => exact hbefore j (Nat.lt_of_succ_lt_succ hj)
      · rintro ⟨i, hi, hbefore, hrefused⟩
        cases i with
        | zero => exact absurd h hrefused.1
        | succ i =>
          exact ⟨i, Nat.lt_of_succ_lt_succ hi, fun j hj => hbefore (j + 1) (Nat.succ_lt_succ hj),
            hrefused⟩
    · rw [deletes_cons_of_refused h, deleteFunc_code]
      constructor
      · exact fun hrefused =>
          ⟨0, Nat.succ_pos _, fun j hj => absurd hj (Nat.not_lt_zero j), hrefused⟩
      · rintro ⟨i, -, hbefore, hrefused⟩
        cases i with
        | zero => exact hrefused
        | succ i => exact absurd (hbefore 0 (Nat.succ_pos i)) h

/-- What is left when none is refused. -/
theorem deletes_instanceList (h : (deletes ids objectP).2 = coap202Deleted) :
    (deletes ids objectP).1.instanceList = ids.foldl List.erase objectP.instanceList := by
  induction ids generalizing objectP with
  | nil => rfl
  | cons id next ih =>
    by_cases haccepted : objectP.answers 0 = coap202Deleted
    · rw [deletes_cons_of_accepted haccepted] at h ⊢
      rw [ih h, deleteFunc_of_accepted haccepted, List.foldl_cons]
    · rw [deletes_cons_of_refused haccepted] at h
      exact absurd h haccepted

/-- Nothing comes in. -/
theorem deletes_sublist : (deletes ids objectP).1.instanceList.Sublist objectP.instanceList := by
  induction ids generalizing objectP with
  | nil => exact .refl _
  | cons id next ih =>
    by_cases h : objectP.answers 0 = coap202Deleted
    · rw [deletes_cons_of_accepted h]
      refine ih.trans ?_
      rw [deleteFunc_of_accepted h]
      exact List.erase_sublist
    · rw [deletes_cons_of_refused h, deleteFunc_of_refused h]

/-- An instance loses no node when no delete that is accepted takes it. -/
theorem count_deletes_iff (hsub : ids.Subperm objectP.instanceList) :
    (deletes ids objectP).1.instanceList.count own = objectP.instanceList.count own ↔
      ¬ ∃ k, ids[k]? = some own ∧ ∀ i ≤ k, objectP.answers i = coap202Deleted := by
  induction ids generalizing objectP with
  | nil => exact iff_of_true rfl fun ⟨k, hk, _⟩ => by cases hk
  | cons id next ih =>
    by_cases h : objectP.answers 0 = coap202Deleted
    · have hmem : id ∈ objectP.instanceList := hsub.subset List.mem_cons_self
      have hnext : next.Subperm (objectP.deleteFunc id).1.instanceList := by
        rw [deleteFunc_of_accepted h, ← List.subperm_cons id]
        exact hsub.trans (List.perm_cons_erase hmem).subperm
      rw [deletes_cons_of_accepted h]
      by_cases hown : id = own
      · refine iff_of_false (Nat.ne_of_lt ?_)
          (not_not_intro ⟨0, congrArg some hown, fun i hi => ?_⟩)
        · have hle := (@deletes_sublist next (objectP.deleteFunc id).1).count_le own
          rw [deleteFunc_of_accepted h, ← hown, List.count_erase_self] at hle
          have hpos := List.count_pos_iff.mpr hmem
          rw [← hown]
          omega
        · rw [Nat.le_zero.mp hi]
          exact h
      · have hcount : (objectP.deleteFunc id).1.instanceList.count own =
            objectP.instanceList.count own := by
          rw [deleteFunc_of_accepted h, List.count_erase_of_ne (Ne.symm hown)]
        rw [← hcount, ih hnext]
        refine not_congr ⟨?_, ?_⟩
        · rintro ⟨k, hk, hall⟩
          refine ⟨k + 1, hk, fun i hi => ?_⟩
          cases i with
          | zero => exact h
          | succ i => exact hall i (Nat.le_of_succ_le_succ hi)
        · rintro ⟨k, hk, hall⟩
          cases k with
          | zero => exact absurd (Option.some.inj hk) hown
          | succ k => exact ⟨k, hk, fun i hi => hall (i + 1) (Nat.succ_le_succ hi)⟩
    · rw [deletes_cons_of_refused h, deleteFunc_of_refused h]
      exact iff_of_true rfl fun ⟨k, _, hall⟩ => h (hall 0 (Nat.zero_le k))

end

end BootstrapObject

variable {id : UInt16} {objects' : BootstrapObjects}

section

variable {own : UInt16} {spared cursor : List UInt16}

/-- Every target is an instance of its own. -/
theorem securityTargets_subperm (own : UInt16) (spared cursor : List UInt16) :
    (securityTargets own spared cursor).Subperm (spared ++ cursor) := by
  induction cursor generalizing spared with
  | nil => exact List.nil_subperm
  | cons id next ih =>
    rw [securityTargets]
    split_ifs with hown
    · have hnext := @ih (spared ++ [own])
      rw [List.append_assoc, List.singleton_append] at hnext
      rwa [hown]
    · exact List.Subperm.refl _
    · exact ((List.subperm_cons id).mpr (@ih spared)).trans List.perm_middle.symm.subperm

theorem foldl_erase_self (l : List UInt16) : l.foldl List.erase l = [] := by
  induction l with
  | nil => rfl
  | cons id next ih => rw [List.foldl_cons, List.erase_cons_head, ih]

/-- When all targets are deleted, nothing but the own instance is left. -/
theorem eq_own_of_mem_foldl_erase (hspared : ∀ id ∈ spared, id = own)
    (h : id ∈ (securityTargets own spared cursor).foldl List.erase (spared ++ cursor)) :
    id = own := by
  induction cursor generalizing spared with
  | nil => exact hspared id (List.append_nil spared ▸ h)
  | cons head next ih =>
    rw [securityTargets] at h
    split_ifs at h with hown
    · refine @ih (spared ++ [own]) (List.forall_mem_append.mpr ⟨hspared, ?_⟩) ?_
      · exact fun x hx => List.mem_singleton.mp hx
      · rw [List.append_assoc, List.singleton_append]
        rwa [hown] at h
    · rw [foldl_erase_self] at h
      exact absurd h List.not_mem_nil
    · have hnot : head ∉ spared := fun hmem => hown (hspared head hmem)
      rw [List.foldl_cons, List.erase_append_right _ hnot, List.erase_cons_head] at h
      exact ih hspared h

/-- Without another instance, there is no target. -/
theorem securityTargets_eq_nil (h : ∀ id ∈ cursor, id = own) :
    securityTargets own spared cursor = [] := by
  induction cursor generalizing spared with
  | nil => rfl
  | cons head next ih =>
    obtain ⟨hown, hnext⟩ := List.forall_mem_cons.mp h
    rw [securityTargets, if_pos hown, ih hnext]

/-- Without a target, there is nothing but the own instance. -/
theorem eq_own_of_securityTargets_nil (h : securityTargets own spared cursor = [])
    (hid : id ∈ cursor) : id = own := by
  induction cursor generalizing spared with
  | nil => exact absurd hid List.not_mem_nil
  | cons head next ih =>
    rw [securityTargets] at h
    split_ifs at h with hown
    · rcases List.mem_cons.mp hid with rfl | hnext
      · exact hown
      · exact ih h hnext
    · exact absurd h (List.append_ne_nil_of_right_ne_nil _ (List.cons_ne_nil _ _))

end

/-! ### The loops -/

namespace BootstrapObject

open Library

/-- **The loop of `object_delete` ends**, and deletes the instances from the first on. -/
theorem ends_deleteInstances (objectP : BootstrapObject) :
    Ends (fun fuel => objectP.deleteInstances fuel coap202Deleted)
      (deletes objectP.instanceList objectP) := by
  induction hlist : objectP.instanceList generalizing objectP with
  | nil =>
    refine .turn (fun fuel => ?_) (.const _)
    rw [deleteInstances, hlist]
    rfl
  | cons id next ih =>
    have hturn (fuel : ℕ) : objectP.deleteInstances (fuel + 1) coap202Deleted =
        (objectP.deleteFunc id).1.deleteInstances fuel (objectP.deleteFunc id).2 := by
      rw [deleteInstances, hlist]
      exact if_pos rfl
    refine .turn hturn ?_
    rw [deleteFunc_code]
    by_cases h : objectP.answers 0 = coap202Deleted
    · rw [deletes_cons_of_accepted h, h]
      refine ih _ ?_
      rw [deleteFunc_of_accepted h, hlist, List.erase_cons_head]
    · rw [deletes_cons_of_refused h]
      refine .turn (fun fuel => ?_) (.const _)
      rw [deleteInstances]
      cases (objectP.deleteFunc id).1.instanceList with
      | nil => rfl
      | cons => exact if_neg h

end BootstrapObject

namespace BootstrapObjects

open BootstrapObject

section

variable {objects : BootstrapObjects} {objectP objectP' : BootstrapObject} {own : UInt16}

theorem ext_nodes {objects : BootstrapObjects} (h : objects.nodes = objects'.nodes) :
    objects = objects' := by
  cases objects
  cases objects'
  cases h
  rfl

theorem mem_set (h : objectP ∈ objects.nodes) (hid : objectP'.objID = objectP.objID) :
    objectP' ∈ (objects.set objectP').nodes :=
  List.mem_map.mpr ⟨objectP, h, if_pos hid.symm⟩

/-- Each object is found by its identifier. -/
theorem listFind_objID (h : objectP ∈ objects.nodes) :
    listFind BootstrapObject.objID objects.nodes objectP.objID = some objectP :=
  listFind_of_mem objects.increasing h

theorem instanceList_eq (h : objectP ∈ objects.nodes) :
    objects.instanceList objectP.objID = objectP.instanceList := by
  rw [instanceList, listFind_objID h]
  rfl

theorem set_self (h : objectP ∈ objects.nodes) : objects.set objectP = objects := by
  refine ext_nodes ((List.map_congr_left fun o ho => ?_).trans (List.map_id _))
  by_cases hid : o.objID = objectP.objID
  · rw [if_pos hid]
    have hfind := listFind_objID ho
    rw [hid, listFind_objID h] at hfind
    exact Option.some.inj hfind
  · rw [if_neg hid, id]

theorem set_set (hid : objectP'.objID = objectP.objID) :
    (objects.set objectP).set objectP' = objects.set objectP' := by
  refine ext_nodes ?_
  show (objects.nodes.map _).map _ = objects.nodes.map _
  rw [List.map_map]
  refine List.map_congr_left fun o _ => ?_
  rw [Function.comp_apply]
  by_cases h : o.objID = objectP.objID
  · rw [if_pos h, if_pos hid.symm, if_pos (h.trans hid.symm)]
  · rw [if_neg h]

/-- A change of one node. -/
theorem set_nodes {before after : List BootstrapObject}
    (h : objects.nodes = before ++ objectP :: after) (hid : objectP'.objID = objectP.objID) :
    (objects.set objectP').nodes = before ++ objectP' :: after := by
  have hsorted := objects.increasing
  rw [h] at hsorted
  obtain ⟨-, hafter, hbefore⟩ := List.pairwise_append.mp hsorted
  show objects.nodes.map _ = _
  rw [h, List.map_append, List.map_cons, if_pos hid.symm]
  refine congrArg₂ _ ?_ (congrArg _ ?_)
  · refine (List.map_congr_left fun o ho => ?_).trans (List.map_id _)
    have hlt := hbefore o ho objectP List.mem_cons_self
    exact if_neg (hid ▸ UInt16.ne_of_lt hlt)
  · refine (List.map_congr_left fun o ho => ?_).trans (List.map_id _)
    have hlt := (List.pairwise_cons.mp hafter).1 o ho
    exact if_neg (hid ▸ (UInt16.ne_of_lt hlt).symm)

/-- `object_delete` of a whole object. -/
theorem ends_objectDelete_all (h : objectP ∈ objects.nodes) (hdelete : objectP.hasDelete = true)
    {uriP : Uri} (hobject : uriP.objectId = objectP.objID) (hset : ¬ uriP.isSetInstance) :
    Ends (fun fuel => objects.objectDelete fuel uriP)
      (objects.set (deletes objectP.instanceList objectP).1,
        (deletes objectP.instanceList objectP).2) := by
  refine .congr (fun fuel => ?_) (objectP.ends_deleteInstances.map fun (objectP, result) =>
    (objects.set objectP, result))
  rw [objectDelete, hobject, listFind_objID h]
  dsimp only
  rw [if_pos hdelete, if_neg hset]

/-- `object_delete` of one instance. -/
theorem objectDelete_one (fuel : ℕ) (h : objectP ∈ objects.nodes)
    (hdelete : objectP.hasDelete = true) {uriP : Uri} (hobject : uriP.objectId = objectP.objID)
    (hset : uriP.isSetInstance) : objects.objectDelete fuel uriP =
      some (objects.set (objectP.deleteFunc uriP.instanceId).1,
        (objectP.deleteFunc uriP.instanceId).2) := by
  rw [objectDelete, hobject, listFind_objID h]
  dsimp only
  rw [if_pos hdelete, if_pos hset]

/-- `object_delete` of an object without a `deleteFunc`. -/
theorem objectDelete_none (fuel : ℕ) (h : objectP ∈ objects.nodes)
    (hdelete : ¬ objectP.hasDelete = true) {uriP : Uri} (hobject : uriP.objectId = objectP.objID) :
    objects.objectDelete fuel uriP = some (objects, coap405MethodNotAllowed) := by
  rw [objectDelete, hobject, listFind_objID h]
  exact if_neg hdelete

/-- A loop whose `result` is not `2.02` ends. -/
theorem ends_securityLoop_of_failed {result : Code} (h : result ≠ coap202Deleted)
    (objID : UInt16) (cursor : List UInt16) :
    Ends (fun fuel => securityLoop own objID fuel objects cursor result) (objects, result) := by
  refine .turn (fun fuel => ?_) (.const _)
  cases cursor with
  | nil => rw [securityLoop]
  | cons => rw [securityLoop, if_neg h]

variable {objID : UInt16} {cursor : List UInt16} {x : BootstrapObjects × Code}

/-- The loop walks over the own instance. -/
theorem ends_securityLoop_skip {spared : List UInt16} (hspared : ∀ id ∈ spared, id = own)
    (h : Ends (fun fuel => securityLoop own objID fuel objects cursor coap202Deleted) x) :
    Ends (fun fuel => securityLoop own objID fuel objects (spared ++ cursor) coap202Deleted) x := by
  induction spared with
  | nil => exact h
  | cons id next ih =>
    obtain ⟨hid, hnext⟩ := List.forall_mem_cons.mp hspared
    refine .turn (fun fuel => ?_) (ih hnext)
    rw [List.cons_append, securityLoop, if_pos rfl, if_pos hid]

/-- The loop deletes an instance and starts again. -/
theorem ends_securityLoop_delete {next : List UInt16} (hown : id ≠ own)
    {deleted : BootstrapObjects × Code}
    (hdelete : Ends (fun fuel => objects.objectDelete fuel { objectId := objID, instanceId := id })
      deleted)
    (h : Ends (fun fuel => securityLoop own objID fuel deleted.1 (deleted.1.instanceList objID)
      deleted.2) x) :
    Ends (fun fuel => securityLoop own objID fuel objects (id :: next) coap202Deleted) x := by
  have hbind := @Ends.bind _ _ _ _ (fun deleted fuel => securityLoop own objID fuel deleted.1
    (deleted.1.instanceList objID) deleted.2) _ hdelete h
  refine .turn (fun fuel => ?_) hbind
  rw [securityLoop, if_pos rfl, if_neg hown]

/-- **The loop over the Security object ends**, and takes its targets up to the first that is
refused. -/
theorem ends_securityLoop (h : objectP ∈ objects.nodes) (hdelete : objectP.hasDelete = true)
    {spared : List UInt16} (hspared : ∀ id ∈ spared, id = own)
    (hlist : objectP.instanceList = spared ++ cursor) :
    Ends (fun fuel => securityLoop own objectP.objID fuel objects cursor coap202Deleted)
      (objects.set (deletes (securityTargets own spared cursor) objectP).1,
        (deletes (securityTargets own spared cursor) objectP).2) := by
  induction cursor generalizing objects objectP spared with
  | nil =>
    refine .turn (fun fuel => ?_) (.const _)
    rw [securityLoop, securityTargets, deletes, set_self h]
  | cons id next ih =>
    rw [securityTargets]
    split_ifs with hown hreserved
    · refine .turn (fun fuel => ?_) (@ih _ _ h hdelete (spared ++ [own]) ?_ ?_)
      · rw [securityLoop, if_pos rfl, if_pos hown]
      · exact List.forall_mem_append.mpr ⟨hspared, fun x hx => List.mem_singleton.mp hx⟩
      · rw [hlist, hown, List.append_assoc, List.singleton_append]
    · -- the whole object: nothing is left when no delete of it is refused
      have hall := @ends_objectDelete_all _ _ h hdelete ⟨objectP.objID, id, lwm2mMaxId, lwm2mMaxId⟩
        rfl (fun hset => hset hreserved)
      rw [hlist] at hall
      refine ends_securityLoop_delete hown hall ?_
      by_cases hcode : (deletes (spared ++ id :: next) objectP).2 = coap202Deleted
      · have hleft := deletes_instanceList hcode
        rw [hlist, foldl_erase_self] at hleft
        have hfound := instanceList_eq (mem_set h (@deletes_objID (spared ++ id :: next) objectP))
        rw [deletes_objID, hleft] at hfound
        rw [hfound, hcode]
        exact .turn (fun fuel => rfl) (.const _)
      · exact ends_securityLoop_of_failed hcode _ _
    · have hone := Ends.congr (fun fuel => @objectDelete_one _ _ fuel h hdelete
        ⟨objectP.objID, id, lwm2mMaxId, lwm2mMaxId⟩ rfl hreserved) (.const _)
      refine ends_securityLoop_delete hown hone ?_
      by_cases hcode : objectP.answers 0 = coap202Deleted
      · have hmem := mem_set h (@deleteFunc_objID id objectP)
        have hnot : id ∉ spared := fun hin => hown (hspared id hin)
        have hleft : (objectP.deleteFunc id).1.instanceList = spared ++ next := by
          rw [deleteFunc_of_accepted hcode, hlist, List.erase_append_right _ hnot,
            List.erase_cons_head]
        have hfound := instanceList_eq hmem
        rw [deleteFunc_objID, hleft] at hfound
        rw [hfound, deleteFunc_code, hcode, deletes_cons_of_accepted hcode]
        have hrest := ih hmem hdelete hspared hleft
        rw [set_set deletes_objID] at hrest
        exact ends_securityLoop_skip hspared hrest
      · rw [deletes_cons_of_refused hcode]
        exact ends_securityLoop_of_failed hcode _ _

/-- Without a `deleteFunc`, the loop fails at the first target. -/
theorem ends_securityLoop_none (h : objectP ∈ objects.nodes)
    (hdelete : ¬ objectP.hasDelete = true) (spared cursor : List UInt16) :
    Ends (fun fuel => securityLoop own objectP.objID fuel objects cursor coap202Deleted)
      (objects, if securityTargets own spared cursor = [] then coap202Deleted
        else coap405MethodNotAllowed) := by
  induction cursor generalizing spared with
  | nil => exact .turn (fun fuel => rfl) (.const _)
  | cons id next ih =>
    rw [securityTargets]
    by_cases hown : id = own
    · rw [if_pos hown]
      refine .turn (fun fuel => ?_) (ih (spared ++ [own]))
      rw [securityLoop, if_pos rfl, if_pos hown]
    · have hone := Ends.congr (fun fuel => @objectDelete_none _ _ fuel h hdelete
        ⟨objectP.objID, id, lwm2mMaxId, lwm2mMaxId⟩ rfl) (.const _)
      have hend : (if (if id = lwm2mMaxId then spared ++ id :: next
          else id :: securityTargets own spared next) = [] then coap202Deleted
            else coap405MethodNotAllowed) = coap405MethodNotAllowed := by
        refine if_neg fun hnil => ?_
        split_ifs at hnil
        exact List.append_ne_nil_of_right_ne_nil _ (List.cons_ne_nil _ _) hnil
      have hfailed : coap405MethodNotAllowed ≠ coap202Deleted := by decide
      rw [if_neg hown, hend]
      exact ends_securityLoop_delete hown hone (ends_securityLoop_of_failed hfailed _ _)

/-- What the loop over the Security object does. -/
theorem ends_security (h : objectP ∈ objects.nodes)
    (hid : objectP.objID = lwm2mSecurityObjectId) :
    Ends (fun fuel => securityLoop own objectP.objID fuel objects
        (objects.instanceList objectP.objID) coap202Deleted)
      (objects.set (objectP.deleted own).1, (objectP.deleted own).2) := by
  have htargets : objectP.targets own = securityTargets own [] objectP.instanceList := if_pos hid
  rw [instanceList_eq h, deleted, htargets]
  by_cases hdelete : objectP.hasDelete = true
  · rw [if_pos hdelete]
    exact ends_securityLoop h hdelete (fun id hin => absurd hin List.not_mem_nil)
      (List.nil_append _).symm
  · rw [if_neg hdelete]
    rw [set_self h, if_congr (and_iff_right hid) rfl rfl]
    exact ends_securityLoop_none h hdelete [] _

/-- What the delete of another object does. -/
theorem ends_other (h : objectP ∈ objects.nodes) (hid : objectP.objID ≠ lwm2mSecurityObjectId) :
    Ends (fun fuel => objects.objectDelete fuel { objectId := objectP.objID })
      (objects.set (objectP.deleted own).1, (objectP.deleted own).2) := by
  have htargets : objectP.targets own = objectP.instanceList := if_neg hid
  rw [deleted, htargets]
  by_cases hdelete : objectP.hasDelete = true
  · rw [if_pos hdelete]
    exact ends_objectDelete_all h hdelete rfl (fun hset => hset rfl)
  · rw [if_neg hdelete, if_neg fun h => hid h.1]
    rw [set_self h]
    exact .congr (fun fuel => objectDelete_none fuel h hdelete rfl) (.const _)

/-- In the order of the list, the Security object is the first. -/
theorem security_first (objects : BootstrapObjects) :
    (∃ objectP next, objects.nodes = objectP :: next ∧ objectP.objID = lwm2mSecurityObjectId ∧
      ∀ o ∈ next, o.objID ≠ lwm2mSecurityObjectId) ∨
    ∀ o ∈ objects.nodes, o.objID ≠ lwm2mSecurityObjectId := by
  have hsorted := objects.increasing
  cases hnodes : objects.nodes with
  | nil => exact .inr fun o ho => absurd ho List.not_mem_nil
  | cons objectP next =>
    rw [hnodes] at hsorted
    have hnext : ∀ o ∈ next, o.objID ≠ lwm2mSecurityObjectId := fun o ho hzero => by
      have hlt := (List.pairwise_cons.mp hsorted).1 o ho
      rw [hzero] at hlt
      exact Nat.not_lt_zero _ (UInt16.lt_iff_toNat_lt.mp hlt)
    by_cases hid : objectP.objID = lwm2mSecurityObjectId
    · exact .inl ⟨objectP, next, rfl, hid, hnext⟩
    · exact .inr (List.forall_mem_cons.mpr ⟨hid, hnext⟩)

end

end BootstrapObjects

/-! ### Walks over the object list -/

/-- `result` behind the turn of an object in `bootstrap_handleDeleteAll`. -/
def BootstrapObject.answer (own : UInt16) (objectP : BootstrapObject) : Code :=
  if objectP.objID ≠ lwm2mSecurityObjectId ∧ (objectP.deleted own).2 = coap405MethodNotAllowed then
    coap202Deleted
  else (objectP.deleted own).2

/-- What `bootstrap_handleDeleteAll` leaves behind the turns of the objects `todo`, which stand
behind the nodes `before`. -/
structure Walked (own : UInt16) (before todo : List BootstrapObject) (contextP : Context)
    (s s' : BootstrapDeleted) : Prop where
  nodes : s'.objects.nodes = before ++ todo.map fun objectP => (objectP.deleted own).1
  context_eq : s'.contextP = contextP
  result_eq : s'.result = (todo.getLast?.map (·.answer own)).getD s.result
  results_eq : s'.results =
    s.results ++ todo.map fun objectP => (objectP.objID, (objectP.deleted own).2)

namespace BootstrapDeleted

open BootstrapObject BootstrapObjects

section

variable {s : BootstrapDeleted} {objectP : BootstrapObject} {serverP : Server}

/-- The turn of the Security object. -/
theorem ends_securityTurn (h : objectP ∈ s.objects.nodes)
    (hid : objectP.objID = lwm2mSecurityObjectId) (hresult : s.result = coap202Deleted) :
    Ends (fun fuel => s.securityTurn fuel serverP objectP.objID)
      { contextP :=
          if (objectP.deleted serverP.secObjInstID).2 = coap202Deleted then
            prvTagAllServer s.contextP (some serverP.ref)
          else s.contextP
        objects := s.objects.set (objectP.deleted serverP.secObjInstID).1
        result := (objectP.deleted serverP.secObjInstID).2
        results := s.results ++ [(objectP.objID, (objectP.deleted serverP.secObjInstID).2)] } := by
  have hend := @ends_security _ _ serverP.secObjInstID h hid
  rw [← hresult] at hend
  exact hend.map _

/-- The turn of another object. -/
theorem ends_otherTurn (own : UInt16) (h : objectP ∈ s.objects.nodes)
    (hid : objectP.objID ≠ lwm2mSecurityObjectId) :
    Ends (fun fuel => s.otherTurn fuel objectP.objID)
      { contextP := s.contextP
        objects := s.objects.set (objectP.deleted own).1
        result := objectP.answer own
        results := s.results ++ [(objectP.objID, (objectP.deleted own).2)] } := by
  have hanswer : objectP.answer own =
      if (objectP.deleted own).2 = coap405MethodNotAllowed then coap202Deleted
      else (objectP.deleted own).2 := if_congr (and_iff_right hid) rfl rfl
  rw [hanswer]
  exact (@ends_other _ _ own h hid).map _

/-- The turns of the objects other than the Security object. -/
theorem exists_walked {before todo : List BootstrapObject}
    (hnodes : s.objects.nodes = before ++ todo)
    (hothers : ∀ o ∈ todo, o.objID ≠ lwm2mSecurityObjectId) :
    ∃ s', Ends (fun fuel => forObjects (deleteAllTurn fuel serverP) todo s) s' ∧
      Walked serverP.secObjInstID before todo s.contextP s s' := by
  induction todo generalizing before s with
  | nil =>
    refine ⟨s, .const s, hnodes, rfl, rfl, ?_⟩
    rw [List.map_nil, List.append_nil]
  | cons objectP next ih =>
    obtain ⟨hid, hnext⟩ := List.forall_mem_cons.mp hothers
    have hmem : objectP ∈ s.objects.nodes :=
      hnodes ▸ List.mem_append_right before List.mem_cons_self
    have hturn := ends_otherTurn serverP.secObjInstID hmem hid
    have hset := @set_nodes s.objects objectP (objectP.deleted serverP.secObjInstID).1 _ _ hnodes
      (deleted_objID _ _)
    rw [List.append_cons] at hset
    obtain ⟨s', hends, hwalked⟩ := @ih { contextP := s.contextP
                                         objects := s.objects.set (objectP.deleted _).1
                                         result := objectP.answer _
                                         results := _ } _ hset hnext
    have hfirst (fuel : ℕ) : deleteAllTurn fuel serverP objectP.objID s =
        s.otherTurn fuel objectP.objID := if_neg hid
    refine ⟨s', (Ends.congr hfirst hturn).bind hends, ?_, hwalked.context_eq, ?_, ?_⟩
    · rw [hwalked.nodes, List.append_assoc]
      rfl
    · rw [hwalked.result_eq, List.getLast?_cons]
      cases next.getLast? with
      | none => rfl
      | some => rfl
    · rw [hwalked.results_eq, List.append_assoc]
      rfl

end

end BootstrapDeleted

/-! ### What a DELETE completes -/

/-- The servers other than the bootstrap server `serverP` are marked. -/
def OthersDirty (contextP : Context) (serverP : ServerRef) : Prop :=
  (∀ targetP ∈ contextP.bootstrapServerList, targetP.ref ≠ serverP → targetP.dirty = true) ∧
    ∀ targetP ∈ contextP.serverList, targetP.dirty = true

/-- The instances of the bootstrap server's own account are those that were there. -/
def SparesOwn (own : UInt16) (objects objects' : BootstrapObjects) : Prop :=
  (objects'.instanceList lwm2mSecurityObjectId).count own =
    (objects.instanceList lwm2mSecurityObjectId).count own

/-- The other accounts are gone, and the other servers marked. -/
structure OthersGone (serverP : Server) (s : BootstrapDeleted) : Prop where
  instances : ∀ id ∈ s.objects.instanceList lwm2mSecurityObjectId, id = serverP.secObjInstID
  marked : OthersDirty s.contextP serverP.ref

/-- All of the objects is gone, and none of them failed. -/
structure AllGone (serverP : Server) (objects : BootstrapObjects) (s : BootstrapDeleted) :
    Prop extends OthersGone serverP s where
  others : ∀ objectP ∈ s.objects.nodes, objectP.objID ≠ lwm2mSecurityObjectId →
    objectP.hasDelete = true → objectP.instanceList = []
  unmasked : ∀ objectP ∈ objects.nodes, objectP.hasDelete = true → ∀ code,
    (objectP.objID, code) ∈ s.results → code = coap202Deleted

/-- **`DELETE /0` is complete**: it ends, spares the bootstrap server's own account, and answers
`2.02` only if the other accounts are gone. -/
def DeletesSecurity (contextP : Context) (objects : BootstrapObjects) (serverP : Server) : Prop :=
  ∃ s, Ends (fun fuel => objects.bootstrapHandleCommand fuel contextP
      { objectId := lwm2mSecurityObjectId } serverP) s ∧
    SparesOwn serverP.secObjInstID objects s.objects ∧
    (s.result = coap202Deleted → OthersGone serverP s)

/-- **`DELETE /` is complete**: it ends, spares the bootstrap server's own account, and answers
`2.02` only if all objects are gone and none of them failed. -/
def DeletesAll (contextP : Context) (objects : BootstrapObjects) (fromSessionH : Session) : Prop :=
  ∃ s, Ends (fun fuel => objects.bootstrapHandleDeleteAll fuel contextP fromSessionH) s ∧
    ∀ serverP, utilsFindServer contextP.bootstrapServerList fromSessionH = some serverP →
      SparesOwn serverP.secObjInstID objects s.objects ∧
      (s.result = coap202Deleted → AllGone serverP objects s)

namespace BootstrapObject

/-- The deletes reach the own instance: it is among the targets, and they are accepted up to it. -/
def ReachesOwn (own : UInt16) (objectP : BootstrapObject) : Prop :=
  objectP.hasDelete = true ∧ ∃ k, (objectP.targets own)[k]? = some own ∧
    ∀ i ≤ k, objectP.answers i = coap202Deleted

/-- The object can be deleted: every target is accepted.  A Security object without a `deleteFunc`
has no target; another object without one is static. -/
structure Clears (own : UInt16) (objectP : BootstrapObject) : Prop where
  deletable : objectP.objID = lwm2mSecurityObjectId →
    objectP.targets own = [] ∨ objectP.hasDelete = true
  accepted : objectP.hasDelete = true →
    ∀ i < (objectP.targets own).length, objectP.answers i = coap202Deleted

/-- The object is refused: a Security object that cannot be deleted, or another one whose first
answer other than `2.02` is not `4.05` either. -/
def Refuses (own : UInt16) (objectP : BootstrapObject) : Prop :=
  (objectP.objID = lwm2mSecurityObjectId ∧ ¬ objectP.Clears own) ∨
    (objectP.objID ≠ lwm2mSecurityObjectId ∧ objectP.hasDelete = true ∧
      ∃ i < objectP.instanceList.length, (∀ j < i, objectP.answers j = coap202Deleted) ∧
        objectP.answers i ≠ coap202Deleted ∧ objectP.answers i ≠ coap405MethodNotAllowed)

section

variable {own : UInt16} {objectP : BootstrapObject}

theorem targets_security (hid : objectP.objID = lwm2mSecurityObjectId) :
    objectP.targets own = securityTargets own [] objectP.instanceList := if_pos hid

theorem targets_other (hid : objectP.objID ≠ lwm2mSecurityObjectId) :
    objectP.targets own = objectP.instanceList := if_neg hid

theorem deleted_of_hasDelete (h : objectP.hasDelete = true) :
    objectP.deleted own = deletes (objectP.targets own) objectP := if_pos h

theorem deleted_of_not_hasDelete (h : ¬ objectP.hasDelete = true) :
    (objectP.deleted own).1 = objectP ∧ (objectP.deleted own).2 =
      if objectP.objID = lwm2mSecurityObjectId ∧ objectP.targets own = [] then coap202Deleted
      else coap405MethodNotAllowed := by
  unfold deleted
  rw [if_neg h]
  exact ⟨rfl, rfl⟩

@[simp] theorem deleted_hasDelete : (objectP.deleted own).1.hasDelete = objectP.hasDelete := by
  by_cases h : objectP.hasDelete = true
  · rw [deleted_of_hasDelete h, deletes_hasDelete]
  · rw [(deleted_of_not_hasDelete h).1]

/-- The delete of an object with a `deleteFunc` answers `2.02` when the object can be deleted. -/
theorem clears_iff_of_hasDelete (h : objectP.hasDelete = true) :
    objectP.Clears own ↔ (objectP.deleted own).2 = coap202Deleted := by
  rw [deleted_of_hasDelete h, deletes_code_iff]
  exact ⟨fun hclears => hclears.accepted h, fun haccepted => ⟨fun _ => .inr h, fun _ => haccepted⟩⟩

/-- So does the delete of the Security object. -/
theorem clears_iff_of_security (hid : objectP.objID = lwm2mSecurityObjectId) :
    objectP.Clears own ↔ (objectP.deleted own).2 = coap202Deleted := by
  by_cases h : objectP.hasDelete = true
  · exact clears_iff_of_hasDelete h
  · rw [(deleted_of_not_hasDelete h).2, if_congr (and_iff_right hid) rfl rfl]
    constructor
    · exact fun hclears => if_pos ((hclears.deletable hid).resolve_right h)
    · refine fun hcode => ⟨fun _ => .inl ?_, fun hdelete => absurd hdelete h⟩
      by_contra hnone
      rw [if_neg hnone] at hcode
      exact absurd hcode (by decide)

/-- **When the answer to the delete of an object is not `2.02`.** -/
theorem answer_ne_iff : objectP.answer own ≠ coap202Deleted ↔ objectP.Refuses own := by
  unfold answer Refuses
  by_cases hid : objectP.objID = lwm2mSecurityObjectId
  · rw [if_neg fun h => h.1 hid, and_iff_right hid, or_iff_left fun h => h.1 hid,
      clears_iff_of_security hid]
  · rw [if_congr (and_iff_right hid) rfl rfl, or_iff_right fun h => hid h.1, and_iff_right hid]
    by_cases h : objectP.hasDelete = true
    · rw [deleted_of_hasDelete h, targets_other hid, and_iff_right h,
        ← deletes_code_refused_iff (· ≠ coap405MethodNotAllowed)]
      by_cases hfaked : (deletes objectP.instanceList objectP).2 = coap405MethodNotAllowed
      · rw [if_pos hfaked]
        exact iff_of_false (fun hne => hne rfl) fun hne => hne.2 hfaked
      · rw [if_neg hfaked]
        exact (and_iff_left hfaked).symm
    · have hcode : (objectP.deleted own).2 = coap405MethodNotAllowed :=
        (deleted_of_not_hasDelete h).2.trans (if_neg fun h => hid h.1)
      rw [if_pos hcode]
      exact iff_of_false (fun hne => hne rfl) fun hrefuses => h hrefuses.1

/-- The own instance is spared unless it is reached. -/
theorem count_deleted_iff (hid : objectP.objID = lwm2mSecurityObjectId) :
    (objectP.deleted own).1.instanceList.count own = objectP.instanceList.count own ↔
      ¬ objectP.ReachesOwn own := by
  by_cases h : objectP.hasDelete = true
  · have hsub := securityTargets_subperm own [] objectP.instanceList
    rw [List.nil_append, ← targets_security hid] at hsub
    rw [deleted_of_hasDelete h, count_deletes_iff hsub, ReachesOwn, and_iff_right h]
  · rw [(deleted_of_not_hasDelete h).1]
    exact iff_of_true rfl fun hreaches => h hreaches.1

/-- A Security object that is deleted keeps nothing but the own instance. -/
theorem eq_own_of_clears (hid : objectP.objID = lwm2mSecurityObjectId)
    (hclears : objectP.Clears own) (hmem : id ∈ (objectP.deleted own).1.instanceList) :
    id = own := by
  have hcode := (clears_iff_of_security hid).mp hclears
  have htargets := @targets_security own objectP hid
  by_cases h : objectP.hasDelete = true
  · rw [deleted_of_hasDelete h] at hcode hmem
    rw [deletes_instanceList hcode, htargets] at hmem
    exact eq_own_of_mem_foldl_erase (fun id hin => absurd hin List.not_mem_nil) hmem
  · rw [(deleted_of_not_hasDelete h).1] at hmem
    have hnone := (hclears.deletable hid).resolve_right h
    exact eq_own_of_securityTargets_nil (htargets ▸ hnone) hmem

/-- Another object that is deleted keeps nothing. -/
theorem instanceList_of_clears (hid : objectP.objID ≠ lwm2mSecurityObjectId)
    (h : objectP.hasDelete = true) (hclears : objectP.Clears own) :
    (objectP.deleted own).1.instanceList = [] := by
  have hcode := (clears_iff_of_hasDelete h).mp hclears
  rw [deleted_of_hasDelete h, targets_other hid] at hcode ⊢
  rw [deletes_instanceList hcode, foldl_erase_self]

end

end BootstrapObject

/-! ### Servers -/

section

variable {contextP : Context} {serverP : Server} {ref ref' : ServerRef}

theorem othersDirty_prvTagAllServer :
    OthersDirty (prvTagAllServer contextP (some ref)) ref := by
  constructor
  · intro targetP hmem hne
    obtain ⟨server, -, rfl⟩ := List.mem_map.mp hmem
    by_cases h : some ref = some server.ref
    · rw [if_pos h] at hne
      exact absurd (Option.some.inj h).symm hne
    · rw [if_neg h]
  · intro targetP hmem
    obtain ⟨server, -, rfl⟩ := List.mem_map.mp hmem
    rfl

/-- A change of the status of a server leaves the marks. -/
theorem othersDirty_setBootstrapServer (status : Status) :
    OthersDirty (setBootstrapServer contextP ref' ({ · with status })) ref ↔
      OthersDirty contextP ref := by
  refine and_congr_left fun _ => ?_
  have hset (server : Server) :
      (if server.ref = ref' then { server with status } else server).ref = server.ref ∧
        (if server.ref = ref' then { server with status } else server).dirty = server.dirty := by
    split_ifs <;> exact ⟨rfl, rfl⟩
  rw [setBootstrapServer, List.forall_mem_map]
  refine forall₂_congr fun server _ => ?_
  rw [(hset server).1, (hset server).2]

end

/-! ### Complete deletes -/

namespace BootstrapObjects

open BootstrapObject BootstrapDeleted

variable {objects : BootstrapObjects} {contextP : Context} {serverP : Server}

/-- There is a Security object, or no server is left to mark. -/
def Marks (contextP : Context) (objects : BootstrapObjects) (serverP : Server) : Prop :=
  (∃ objectP ∈ objects.nodes, objectP.objID = lwm2mSecurityObjectId) ∨
    OthersDirty contextP serverP.ref

/-- No delete of the Security object reaches the own instance. -/
def NotReached (objects : BootstrapObjects) (serverP : Server) : Prop :=
  ∀ objectP ∈ objects.nodes, objectP.objID = lwm2mSecurityObjectId →
    ¬ objectP.ReachesOwn serverP.secObjInstID

/-- When each object can be deleted, or the last one is refused. -/
def ClearsOrRefuses (contextP : Context) (objects : BootstrapObjects) (serverP : Server) : Prop :=
  ((∀ objectP ∈ objects.nodes, objectP.Clears serverP.secObjInstID) ∧
      Marks contextP objects serverP) ∨
    ∃ objectP, objects.nodes.getLast? = some objectP ∧ objectP.Refuses serverP.secObjInstID

variable {objectP objectP' : BootstrapObject}

theorem eq_of_objID (h : objectP ∈ objects.nodes) (h' : objectP' ∈ objects.nodes)
    (hid : objectP.objID = objectP'.objID) :
    objectP = objectP' := by
  have hfind := listFind_objID h
  rw [hid, listFind_objID h'] at hfind
  exact (Option.some.inj hfind).symm

theorem instanceList_of_forall_ne (h : ∀ o ∈ objects.nodes, o.objID ≠ lwm2mSecurityObjectId) :
    objects.instanceList lwm2mSecurityObjectId = [] := by
  rw [instanceList, (listFind_eq_none_iff objects.increasing).mpr h]
  rfl

/-- The Security object behind a delete. -/
theorem instanceList_deleted (hid : objectP.objID = lwm2mSecurityObjectId)
    (hid' : objectP'.objID = objectP.objID) (h : objectP' ∈ objects'.nodes) :
    objects'.instanceList lwm2mSecurityObjectId = objectP'.instanceList := by
  rw [← hid, ← hid', instanceList_eq h]

/-- The walk of `DELETE /0` passes the objects other than the Security object. -/
theorem forObjects_commandTurn {todo : List BootstrapObject}
    (h : ∀ o ∈ todo, o.objID ≠ lwm2mSecurityObjectId) (fuel : ℕ) (s : BootstrapDeleted) :
    forObjects (commandTurn fuel serverP) todo s = some s := by
  induction todo generalizing s with
  | nil => rfl
  | cons objectP next ih =>
    obtain ⟨hid, hnext⟩ := List.forall_mem_cons.mp h
    rw [forObjects, commandTurn, if_neg hid, Option.bind_some, ih hnext]

/-- **What `DELETE /0` does** when there is a Security object. -/
theorem ends_deleteSecurity {next : List BootstrapObject} (hnodes : objects.nodes = objectP :: next)
    (hid : objectP.objID = lwm2mSecurityObjectId)
    (hothers : ∀ o ∈ next, o.objID ≠ lwm2mSecurityObjectId) :
    Ends (fun fuel => forObjects (commandTurn fuel serverP) objects.nodes
        ⟨contextP, objects, coap202Deleted, []⟩)
      { contextP :=
          if (objectP.deleted serverP.secObjInstID).2 = coap202Deleted then
            prvTagAllServer contextP (some serverP.ref)
          else contextP
        objects := objects.set (objectP.deleted serverP.secObjInstID).1
        result := (objectP.deleted serverP.secObjInstID).2
        results := [(objectP.objID, (objectP.deleted serverP.secObjInstID).2)] } := by
  have hmem : objectP ∈ objects.nodes := hnodes ▸ List.mem_cons_self
  have hturn := @ends_securityTurn ⟨contextP, objects, coap202Deleted, []⟩ objectP serverP hmem hid
    rfl
  refine .congr (fun fuel => ?_) hturn
  rw [hnodes, forObjects, commandTurn, if_pos hid]
  refine (Option.bind_congr fun s _ => ?_).trans (Option.bind_fun_some _)
  exact forObjects_commandTurn hothers fuel s

/-- **What `DELETE /` does.** -/
theorem exists_deleteAll (contextP : Context) (objects : BootstrapObjects) (serverP : Server) :
    ∃ s, Ends (fun fuel => forObjects (deleteAllTurn fuel serverP) objects.nodes
        ⟨contextP, objects, coap202Deleted, []⟩) s ∧
      Walked serverP.secObjInstID [] objects.nodes
        (if ∃ objectP ∈ objects.nodes, objectP.objID = lwm2mSecurityObjectId ∧
            (objectP.deleted serverP.secObjInstID).2 = coap202Deleted then
          prvTagAllServer contextP (some serverP.ref) else contextP)
        ⟨contextP, objects, coap202Deleted, []⟩ s := by
  rcases objects.security_first with ⟨objectP, next, hnodes, hid, hothers⟩ | hothers
  · have hmem : objectP ∈ objects.nodes := hnodes ▸ List.mem_cons_self
    have hturn := @ends_securityTurn ⟨contextP, objects, coap202Deleted, []⟩ objectP serverP hmem
      hid rfl
    have hset := @set_nodes objects objectP (objectP.deleted serverP.secObjInstID).1 [] next hnodes
      (deleted_objID _ _)
    obtain ⟨s, hends, hwalked⟩ := @exists_walked
      { contextP := _
        objects := objects.set (objectP.deleted serverP.secObjInstID).1
        result := _
        results := _ } serverP [(objectP.deleted serverP.secObjInstID).1] next hset hothers
    have hfirst (fuel : ℕ) : deleteAllTurn fuel serverP objectP.objID
        ⟨contextP, objects, coap202Deleted, []⟩ = securityTurn fuel serverP objectP.objID
          ⟨contextP, objects, coap202Deleted, []⟩ := if_pos hid
    have hanswer : objectP.answer serverP.secObjInstID =
        (objectP.deleted serverP.secObjInstID).2 := if_neg fun h => h.1 hid
    have hexists : (∃ o ∈ objects.nodes, o.objID = lwm2mSecurityObjectId ∧
        (o.deleted serverP.secObjInstID).2 = coap202Deleted) ↔
          (objectP.deleted serverP.secObjInstID).2 = coap202Deleted := by
      refine ⟨fun ⟨o, ho, hzero, hcode⟩ => ?_, fun hcode => ⟨objectP, hmem, hid, hcode⟩⟩
      rwa [eq_of_objID ho hmem (hzero.trans hid.symm)] at hcode
    rw [if_congr hexists rfl rfl, hnodes]
    refine ⟨s, (Ends.congr hfirst hturn).bind hends, hwalked.nodes, hwalked.context_eq, ?_,
      hwalked.results_eq⟩
    rw [hwalked.result_eq, List.getLast?_cons, ← hanswer]
    cases next.getLast? with
    | none => rfl
    | some => rfl
  · rw [if_neg fun ⟨objectP, hmem, hid, _⟩ => hothers objectP hmem hid]
    exact exists_walked (List.nil_append _).symm hothers

/-- The Security object is deleted, and the others stay others. -/
structure SecurityDeleted (own : UInt16) (objects objects' : BootstrapObjects) : Prop where
  deleted : ∀ objectP ∈ objects.nodes, objectP.objID = lwm2mSecurityObjectId →
    (objectP.deleted own).1 ∈ objects'.nodes
  others : (∀ objectP ∈ objects.nodes, objectP.objID ≠ lwm2mSecurityObjectId) →
    ∀ objectP ∈ objects'.nodes, objectP.objID ≠ lwm2mSecurityObjectId

namespace SecurityDeleted

variable {objects' : BootstrapObjects}

/-- The own instance is spared unless the deletes reach it. -/
theorem sparesOwn_iff (h : SecurityDeleted serverP.secObjInstID objects objects') :
    SparesOwn serverP.secObjInstID objects objects' ↔ objects.NotReached serverP := by
  unfold SparesOwn NotReached
  by_cases hsecurity : ∃ objectP ∈ objects.nodes, objectP.objID = lwm2mSecurityObjectId
  · obtain ⟨objectP, hmem, hid⟩ := hsecurity
    rw [instanceList_deleted hid (deleted_objID _ _) (h.deleted objectP hmem hid),
      instanceList_deleted hid rfl hmem, count_deleted_iff hid]
    refine ⟨fun h o ho hzero => ?_, fun h => h objectP hmem hid⟩
    rwa [eq_of_objID ho hmem (hzero.trans hid.symm)]
  · have hnone : ∀ o ∈ objects.nodes, o.objID ≠ lwm2mSecurityObjectId :=
      fun o ho hid => hsecurity ⟨o, ho, hid⟩
    rw [instanceList_of_forall_ne hnone, instanceList_of_forall_ne (h.others hnone)]
    exact iff_of_true rfl fun o ho hid => absurd hid (hnone o ho)

/-- What is left of a Security object that can be deleted. -/
theorem eq_own (h : SecurityDeleted serverP.secObjInstID objects objects')
    (hclears : ∀ objectP ∈ objects.nodes, objectP.objID = lwm2mSecurityObjectId →
      objectP.Clears serverP.secObjInstID) :
    ∀ id ∈ objects'.instanceList lwm2mSecurityObjectId, id = serverP.secObjInstID := by
  intro id hmem
  by_cases hsecurity : ∃ objectP ∈ objects.nodes, objectP.objID = lwm2mSecurityObjectId
  · obtain ⟨objectP, ho, hid⟩ := hsecurity
    rw [instanceList_deleted hid (deleted_objID _ _) (h.deleted objectP ho hid)] at hmem
    exact eq_own_of_clears hid (hclears objectP ho hid) hmem
  · have hnone : ∀ o ∈ objects.nodes, o.objID ≠ lwm2mSecurityObjectId :=
      fun o ho hid => hsecurity ⟨o, ho, hid⟩
    rw [instanceList_of_forall_ne (h.others hnone)] at hmem
    exact absurd hmem List.not_mem_nil

end SecurityDeleted

/-- **When `DELETE /0` is complete.** -/
theorem deletesSecurity_iff (contextP : Context) (objects : BootstrapObjects) (serverP : Server) :
    DeletesSecurity contextP objects serverP ↔ prvCheckServerStatus serverP.status = none ∨
      (objects.NotReached serverP ∧ objects.Marks contextP serverP) := by
  unfold DeletesSecurity bootstrapHandleCommand
  cases hstatus : prvCheckServerStatus serverP.status with
  | none =>
    refine iff_of_true ⟨_, .const _, rfl, fun h => ?_⟩ (.inl rfl)
    exact absurd (show coapIgnore = coap202Deleted from h) (by decide)
  | some status =>
    have hdelete (fuel : ℕ) (contextP : Context) : objects.bootstrapDelete fuel contextP
        { objectId := lwm2mSecurityObjectId } serverP = forObjects (commandTurn fuel serverP)
          objects.nodes ⟨contextP, objects, coap202Deleted, []⟩ := by
      unfold bootstrapDelete
      rw [if_neg (fun hset => hset rfl), if_pos ⟨rfl, fun hset => hset rfl⟩]
    have hmarks (p : Prop) [Decidable p] (c : Context) : OthersDirty (if p then
        { setBootstrapServer c serverP.ref ({ · with status := .bsPending }) with
          state := .bootstrapping } else c) serverP.ref ↔ OthersDirty c serverP.ref := by
      split_ifs
      · exact @othersDirty_setBootstrapServer c serverP.ref serverP.ref _
      · exact Iff.rfl
    rw [or_iff_right (Option.some_ne_none status)]
    simp only [hdelete]
    rcases objects.security_first with ⟨objectP, next, hnodes, hid, hothers⟩ | hothers
    · have hmem : objectP ∈ objects.nodes := hnodes ▸ List.mem_cons_self
      have hdeleted : SecurityDeleted serverP.secObjInstID objects
          (objects.set (objectP.deleted serverP.secObjInstID).1) := by
        refine ⟨fun o ho hzero => ?_, fun hnone => absurd hid (hnone objectP hmem)⟩
        rw [eq_of_objID ho hmem (hzero.trans hid.symm)]
        exact mem_set hmem (deleted_objID _ _)
      rw [((ends_deleteSecurity hnodes hid hothers).map _).exists_iff]
      refine and_congr hdeleted.sparesOwn_iff (iff_of_true (fun hcode => ?_) (.inl ⟨_, hmem, hid⟩))
      refine ⟨hdeleted.eq_own fun o ho hzero => ?_, ?_⟩
      · rw [eq_of_objID ho hmem (hzero.trans hid.symm)]
        exact (clears_iff_of_security hid).mpr hcode
      · refine (hmarks _ _).mpr ?_
        rw [if_pos hcode]
        exact othersDirty_prvTagAllServer
    · have hnone : ¬ ∃ o ∈ objects.nodes, o.objID = lwm2mSecurityObjectId :=
        fun ⟨o, ho, hid⟩ => hothers o ho hid
      have hends := Ends.congr (fun fuel => @forObjects_commandTurn serverP _ hothers fuel
        ⟨setBootstrapServer contextP serverP.ref ({ · with status }), objects, coap202Deleted, []⟩)
        (.const _)
      rw [(hends.map _).exists_iff]
      refine and_congr (iff_of_true rfl fun o ho hid => absurd hid (hothers o ho)) ?_
      rw [Marks, or_iff_right hnone]
      constructor
      · exact fun hgone => (othersDirty_setBootstrapServer status).mp ((hmarks _ _).mp
          (hgone rfl).marked)
      · intro hdirty _
        refine ⟨?_, (hmarks _ _).mpr ((othersDirty_setBootstrapServer status).mpr hdirty)⟩
        intro id hmem
        rw [instanceList_of_forall_ne hothers] at hmem
        exact absurd hmem List.not_mem_nil

/-- What a walk over all objects leaves is complete when each can be deleted or the last one is
refused. -/
theorem allGone_iff {s : BootstrapDeleted}
    (h : Walked serverP.secObjInstID [] objects.nodes
      (if ∃ objectP ∈ objects.nodes, objectP.objID = lwm2mSecurityObjectId ∧
          (objectP.deleted serverP.secObjInstID).2 = coap202Deleted then
        prvTagAllServer contextP (some serverP.ref) else contextP)
      ⟨contextP, objects, coap202Deleted, []⟩ s)
    (hdeleted : SecurityDeleted serverP.secObjInstID objects s.objects) :
    (s.result = coap202Deleted → AllGone serverP objects s) ↔
      objects.ClearsOrRefuses contextP serverP := by
  have hresult : s.result ≠ coap202Deleted ↔
      ∃ objectP, objects.nodes.getLast? = some objectP ∧ objectP.Refuses serverP.secObjInstID := by
    rw [h.result_eq]
    cases objects.nodes.getLast? with
    | none => exact iff_of_false (fun hne => hne rfl) fun ⟨_, hlast, _⟩ => by cases hlast
    | some objectP =>
      refine answer_ne_iff.trans ⟨fun hrefuses => ⟨objectP, rfl, hrefuses⟩, ?_⟩
      rintro ⟨_, hlast, hrefuses⟩
      cases hlast
      exact hrefuses
  have hcode (objectP : BootstrapObject) (hmem : objectP ∈ objects.nodes) :
      (objectP.objID, (objectP.deleted serverP.secObjInstID).2) ∈ s.results := by
    rw [h.results_eq]
    exact List.mem_append_right _ (List.mem_map_of_mem hmem)
  constructor
  · intro hgone
    by_cases hfailed : s.result = coap202Deleted
    · obtain ⟨⟨hinstances, hmarked⟩, -, hunmasked⟩ := hgone hfailed
      refine .inl ⟨fun objectP hmem => ?_, ?_⟩
      · by_cases hdelete : objectP.hasDelete = true
        · exact (clears_iff_of_hasDelete hdelete).mpr
            (hunmasked objectP hmem hdelete _ (hcode objectP hmem))
        · refine ⟨fun hid => .inl ?_, fun htrue => absurd htrue hdelete⟩
          rw [targets_security hid]
          refine securityTargets_eq_nil fun id hin => hinstances id ?_
          rw [instanceList_deleted hid (deleted_objID _ _) (hdeleted.deleted objectP hmem hid),
            (deleted_of_not_hasDelete hdelete).1]
          exact hin
      · by_cases hsecurity : ∃ objectP ∈ objects.nodes, objectP.objID = lwm2mSecurityObjectId
        · exact .inl hsecurity
        · rw [h.context_eq, if_neg fun ⟨o, ho, hid, _⟩ => hsecurity ⟨o, ho, hid⟩] at hmarked
          exact .inr hmarked
    · exact .inr (hresult.mp hfailed)
  · rintro (⟨hclears, hmarks⟩ | hrefuses) hend
    · refine ⟨⟨hdeleted.eq_own fun o ho _ => hclears o ho, ?_⟩, ?_, ?_⟩
      · rw [h.context_eq]
        split_ifs with hsecurity
        · exact othersDirty_prvTagAllServer
        · refine hmarks.resolve_left fun ⟨o, ho, hid⟩ => hsecurity ⟨o, ho, hid, ?_⟩
          exact (clears_iff_of_security hid).mp (hclears o ho)
      · rw [h.nodes, List.nil_append, List.forall_mem_map]
        intro o ho hid hdelete
        rw [deleted_objID] at hid
        exact instanceList_of_clears hid (deleted_hasDelete.symm.trans hdelete) (hclears o ho)
      · intro objectP hmem hdelete code hin
        rw [h.results_eq, List.nil_append] at hin
        obtain ⟨o, ho, heq⟩ := List.mem_map.mp hin
        obtain ⟨hid, rfl⟩ := Prod.mk.inj heq
        rw [eq_of_objID ho hmem hid]
        exact (clears_iff_of_hasDelete hdelete).mp (hclears objectP hmem)
    · exact absurd hend (hresult.mpr hrefuses)

/-- **When `DELETE /` is complete.** -/
theorem deletesAll_iff (contextP : Context) (objects : BootstrapObjects) (fromSessionH : Session) :
    DeletesAll contextP objects fromSessionH ↔ ∀ serverP,
      utilsFindServer contextP.bootstrapServerList fromSessionH = some serverP →
        prvCheckServerStatus serverP.status = none ∨
          (objects.NotReached serverP ∧ objects.ClearsOrRefuses contextP serverP) := by
  unfold DeletesAll bootstrapHandleDeleteAll
  cases hfind : utilsFindServer contextP.bootstrapServerList fromSessionH with
  | none => exact iff_of_true ⟨_, .const _, fun _ h => by cases h⟩ fun _ h => by cases h
  | some serverP =>
    simp only [Option.some.injEq, forall_eq']
    cases hstatus : prvCheckServerStatus serverP.status with
    | none =>
      refine iff_of_true ⟨_, .const _, rfl, fun h => ?_⟩ (.inl rfl)
      exact absurd (show coapIgnore = coap202Deleted from h) (by decide)
    | some status =>
      rw [or_iff_right (Option.some_ne_none status)]
      obtain ⟨s, hends, hwalked⟩ := exists_deleteAll
        (setBootstrapServer contextP serverP.ref ({ · with status })) objects serverP
      have hdeleted : SecurityDeleted serverP.secObjInstID objects s.objects := by
        refine ⟨fun o ho _ => ?_, fun hnone => ?_⟩
        · rw [hwalked.nodes]
          exact List.mem_map_of_mem ho
        · rw [hwalked.nodes, List.nil_append, List.forall_mem_map]
          exact fun o ho => deleted_objID serverP.secObjInstID o ▸ hnone o ho
      rw [hends.exists_iff, hdeleted.sparesOwn_iff, allGone_iff hwalked hdeleted, ClearsOrRefuses,
        ClearsOrRefuses, Marks, Marks, othersDirty_setBootstrapServer]

/-- **When a Bootstrap-Delete is complete.**  `DELETE /0` is, unless the deletes reach the own
instance, which takes an instance with the reserved identifier, or there is no Security object and
a server to mark; `DELETE /` is, unless that, or the last object of the list is not refused and
another one is. -/
theorem bootstrapDelete_complete_iff (contextP : Context) (objects : BootstrapObjects) :
    (∀ serverP, DeletesSecurity contextP objects serverP ↔
      prvCheckServerStatus serverP.status = none ∨
        (objects.NotReached serverP ∧ objects.Marks contextP serverP)) ∧
    ∀ fromSessionH, DeletesAll contextP objects fromSessionH ↔ ∀ serverP,
      utilsFindServer contextP.bootstrapServerList fromSessionH = some serverP →
        prvCheckServerStatus serverP.status = none ∨
          (objects.NotReached serverP ∧ objects.ClearsOrRefuses contextP serverP) :=
  ⟨deletesSecurity_iff contextP objects, deletesAll_iff contextP objects⟩

/-- Two accounts, of which instance 0 is the bootstrap server's own; a Server object that refuses
its delete with `5.00`; and the Device object, which cannot be deleted. -/
def refusedServer : BootstrapObjects where
  nodes :=
    [{ objID := 0, instanceList := [0, 1], hasDelete := true, answers := fun _ => coap202Deleted },
      { objID := 1, instanceList := [1], hasDelete := true,
        answers := fun _ => coap500InternalServerError },
      { objID := 3, instanceList := [0], hasDelete := false, answers := fun _ => noError }]
  increasing := by decide

/-- The client of one bootstrap server in a bootstrap. -/
def bootstrapping : Context where
  state := .bootstrapping
  bootstrapServerList :=
    [{ ref := 0, secObjInstID := 0, shortID := 0, sessionH := some 1, status := .bsPending }]

/-- **A failure is masked**: `DELETE /` answers `2.02`, the Server object keeps its instance. -/
theorem refusedServer_fails : ¬ DeletesAll bootstrapping refusedServer (some 1) := by
  rw [deletesAll_iff]
  intro h
  obtain hstatus | ⟨-, ⟨hclears, -⟩ | ⟨objectP, hlast, hrefuses⟩⟩ := h _ rfl
  · cases hstatus
  · have haccepted := (hclears _ (List.mem_cons_of_mem _ List.mem_cons_self)).accepted rfl 0
    exact absurd (haccepted (by decide)) (by decide)
  · cases hlast
    obtain ⟨hid, -⟩ | ⟨-, hdelete, -⟩ := hrefuses
    · exact absurd hid (by decide)
    · cases hdelete

end BootstrapObjects

end Lwm2m.Core

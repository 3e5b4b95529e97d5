/-
# The client context

`include/liblwm2m.h`: URIs, servers, observations and the context of the client,
and the sorted lists of `core/list.c` that hold the servers and the objects.

A pointer to a server is an allocation number: every server gets a new one, so a
pointer whose server was freed never becomes valid again by accident.  Sessions
are compared by `lwm2m_session_is_equal`, which compares the two pointers.
Records carry the fields that some modelled function reads or writes.
-/

import Lwm2m.Coap.Block
import Lwm2m.Coap.Packet
import Mathlib.Data.List.TakeWhile

namespace Lwm2m.Core

open Coap

/-! ### Lists sorted by identifier -/

section SortedList

variable {α : Type*} (id : α → UInt16)

/-- `lwm2m_list_add`. -/
def listAdd (node : α) : List α → List α
  | [] => [node]
  | head :: tail =>
    if id head > id node then node :: head :: tail
    else head :: tail.takeWhile (id · < id node) ++ node :: tail.dropWhile (id · < id node)

/-- `lwm2m_list_find`. -/
def listFind (list : List α) (key : UInt16) : Option α :=
  (list.dropWhile (id · < key)).head?.filter (id · = key)

/-- `lwm2m_list_remove`: the list without the node, and the node. -/
def listRemove (list : List α) (key : UInt16) : List α × Option α :=
  match list with
  | [] => ([], none)
  | head :: tail =>
    if id head = key then (tail, some head)
    else
      match tail.dropWhile (id · < key) with
      | node :: rest =>
        if id node = key then (head :: tail.takeWhile (id · < key) ++ rest, some node)
        else (list, none)
      | [] => (list, none)

variable {id}

variable {node x : α} {list : List α} {key : UInt16}

/-- Adding a node adds that node and nothing else. -/
@[simp] theorem mem_listAdd :
    x ∈ listAdd id node list ↔ x = node ∨ x ∈ list := by
  cases list with
  | nil => simp [listAdd]
  | cons head tail =>
    simp only [listAdd]
    split_ifs with h
    · simp
    · have hsplit := tail.takeWhile_append_dropWhile (p := (id · < id node))
      have hmem : x ∈ tail ↔ x ∈ tail.takeWhile (id · < id node) ∨
          x ∈ tail.dropWhile (id · < id node) := by
        conv_lhs => rw [← hsplit]
        exact List.mem_append
      simp only [List.cons_append, List.mem_cons, List.mem_append, hmem]
      tauto

/-- The order apart, adding a node puts it in front. -/
theorem listAdd_perm (node : α) (list : List α) : (listAdd id node list).Perm (node :: list) := by
  cases list with
  | nil => exact .refl _
  | cons head tail =>
    simp only [listAdd]
    split_ifs with h
    · exact .refl _
    · have hsplit := tail.takeWhile_append_dropWhile (p := (id · < id node))
      conv_rhs => rw [← hsplit]
      exact (List.perm_middle.cons head).trans (.swap _ _ _)

/-- On a list with different identifiers in order, a new identifier keeps the order. -/
theorem listAdd_pairwise (h : list.Pairwise (id · < id ·)) (hnew : ∀ x ∈ list, id x ≠ id node) :
    (listAdd id node list).Pairwise (id · < id ·) := by
  cases list with
  | nil => exact List.pairwise_singleton _ _
  | cons head tail =>
    obtain ⟨hhead, htail⟩ := List.pairwise_cons.mp h
    obtain ⟨hneHead, hneTail⟩ := List.forall_mem_cons.mp hnew
    simp only [listAdd]
    split_ifs with hgt
    · refine List.pairwise_cons.mpr ⟨?_, h⟩
      exact List.forall_mem_cons.mpr ⟨hgt, fun x hx => UInt16.lt_trans hgt (hhead x hx)⟩
    · have hlt : id head < id node := UInt16.lt_of_le_of_ne (UInt16.not_lt.mp hgt) hneHead
      have hsplit := tail.takeWhile_append_dropWhile (p := (id · < id node))
      have hsorted : (tail.takeWhile (id · < id node) ++
          tail.dropWhile (id · < id node)).Pairwise (id · < id ·) := by
        rwa [hsplit]
      obtain ⟨hfront, hback, hacross⟩ := List.pairwise_append.mp hsorted
      have hbefore : ∀ x ∈ tail.takeWhile (id · < id node), id x < id node := fun x hx => by
        simpa using List.mem_takeWhile_imp hx
      have hafter : ∀ x ∈ tail.dropWhile (id · < id node), id node < id x := by
        cases hdrop : tail.dropWhile (id · < id node) with
        | nil => simp
        | cons y rest =>
          have hy : ¬ id y < id node := by
            have hhead := List.head?_dropWhile_not (id · < id node) tail
            rw [hdrop] at hhead
            simpa using hhead
          have hmem : y ∈ tail := by
            have hhere : y ∈ y :: rest := List.mem_cons_self
            rw [← hdrop] at hhere
            exact (List.dropWhile_sublist _).mem hhere
          have hlt : id node < id y := UInt16.lt_of_le_of_ne (UInt16.not_lt.mp hy) (hneTail y hmem).symm
          rw [hdrop] at hback
          refine List.forall_mem_cons.mpr ⟨hlt, fun x hx => ?_⟩
          exact UInt16.lt_trans hlt ((List.pairwise_cons.mp hback).1 x hx)
      rw [List.cons_append]
      refine List.pairwise_cons.mpr ⟨fun x hx => ?_, List.pairwise_append.mpr ⟨hfront, ?_, ?_⟩⟩
      · rcases List.mem_append.mp hx with hx | hx
        · exact hhead x ((List.takeWhile_sublist _).mem hx)
        · rcases List.mem_cons.mp hx with rfl | hx
          · exact hlt
          · exact hhead x ((List.dropWhile_sublist _).mem hx)
      · exact List.pairwise_cons.mpr ⟨hafter, hback⟩
      · exact fun x hx y hy => (List.forall_mem_cons.mpr
          ⟨hbefore x hx, fun z hz => hacross x hx z hz⟩ : ∀ z ∈ _ :: _, id x < id z) y hy

/-- A node behind smaller identifiers is the one that is removed. -/
theorem listRemove_append {before after : List α} (hbefore : ∀ x ∈ before, id x < id node) :
    listRemove id (before ++ node :: after) (id node) = (before ++ after, some node) := by
  cases before with
  | nil => simp [listRemove]
  | cons head tail =>
    obtain ⟨hhead, htail⟩ := List.forall_mem_cons.mp hbefore
    have htail' : ∀ x ∈ tail, decide (id x < id node) = true := by simpa using htail
    have hdrop : (tail ++ node :: after).dropWhile (id · < id node) = node :: after := by
      rw [List.dropWhile_append_of_pos htail', List.dropWhile_cons_of_neg (by simp)]
    have htake : (tail ++ node :: after).takeWhile (id · < id node) = tail := by
      rw [List.takeWhile_append_of_pos htail', List.takeWhile_cons_of_neg (by simp),
        List.append_nil]
    simp only [List.cons_append, listRemove]
    rw [if_neg (UInt16.ne_of_lt hhead), hdrop, htake]
    dsimp only
    rw [if_pos rfl]

/-- Removing a node adds none. -/
theorem listRemove_sublist (list : List α) (key : UInt16) :
    (listRemove id list key).1.Sublist list := by
  cases list with
  | nil => exact .refl _
  | cons head tail =>
    simp only [listRemove]
    split_ifs
    · exact List.sublist_cons_self head tail
    · split
      next node after hdrop =>
        split_ifs
        · have hsplit := List.takeWhile_append_dropWhile (p := (id · < key)) (l := tail)
          rw [hdrop] at hsplit
          have hsub : (tail.takeWhile (id · < key) ++ after).Sublist tail := by
            conv_rhs => rw [← hsplit]
            exact (List.sublist_cons_self node after).append_left _
          exact hsub.cons_cons head
        · exact .refl _
      next => exact .refl _

/-- The node that is removed, and the others. -/
theorem listRemove_perm {rest : List α} (h : listRemove id list key = (rest, some node)) :
    list.Perm (node :: rest) := by
  cases list with
  | nil => cases h
  | cons head tail =>
    simp only [listRemove] at h
    split_ifs at h with hhead
    · cases h
      exact .refl _
    · split at h
      next n after hdrop =>
        split_ifs at h with hnode
        · cases h
          have hsplit := List.takeWhile_append_dropWhile (p := (id · < key)) (l := tail)
          rw [hdrop] at hsplit
          have hperm : (head :: (tail.takeWhile (id · < key) ++ node :: after)).Perm
              (node :: (head :: tail.takeWhile (id · < key) ++ after)) :=
            (List.perm_middle.cons head).trans (.swap node head _)
          rwa [hsplit] at hperm
        · cases h
      next => cases h

/-- The node that is removed has the key. -/
theorem id_of_listRemove {rest : List α} (h : listRemove id list key = (rest, some node)) :
    id node = key := by
  cases list with
  | nil => cases h
  | cons head tail =>
    simp only [listRemove] at h
    split_ifs at h with hhead
    · cases h
      exact hhead
    · split at h
      next =>
        split_ifs at h with hnode
        · cases h
          exact hnode
        · cases h
      next => cases h

/-- A new node that is added is taken off again. -/
theorem listRemove_listAdd (h : list.Pairwise (id · < id ·)) (hnew : ∀ x ∈ list, id x ≠ id node) :
    (listRemove id (listAdd id node list) (id node)).1 = list := by
  have hsorted := listAdd_pairwise h hnew
  obtain ⟨before, after, heq⟩ := List.append_of_mem (mem_listAdd.mpr (.inl rfl) :
    node ∈ listAdd id node list)
  rw [heq] at hsorted
  have hbefore : ∀ x ∈ before, id x < id node := fun x hx =>
    (List.pairwise_append.mp hsorted).2.2 x hx node List.mem_cons_self
  have hperm : (before ++ after).Perm list := by
    have hmiddle : (node :: (before ++ after)).Perm (node :: list) := by
      refine List.perm_middle.symm.trans ?_
      rw [← heq]
      exact listAdd_perm node list
    exact hmiddle.cons_inv
  rw [heq, listRemove_append hbefore]
  refine hperm.eq_of_pairwise (fun x y _ _ hxy hyx => ?_) (hsorted.sublist ?_) h
  · exact absurd (UInt16.lt_trans hxy hyx) (UInt16.lt_irrefl _)
  · exact (List.sublist_cons_self node after).append_left before

/-- One step of the walk. -/
theorem listFind_cons (head : α) (tail : List α) (key : UInt16) :
    listFind id (head :: tail) key =
      if id head < key then listFind id tail key
      else if id head = key then some head else none := by
  split_ifs with hlt heq
  · rw [listFind, List.dropWhile_cons_of_pos (by simpa using hlt), ← listFind]
  · rw [listFind, List.dropWhile_cons_of_neg (by simpa using hlt), List.head?_cons,
      Option.filter_some, if_pos (by simpa using heq)]
  · rw [listFind, List.dropWhile_cons_of_neg (by simpa using hlt), List.head?_cons,
      Option.filter_some, if_neg (by simpa using heq)]

/-- On a list in order, a key is not found exactly when no node has it. -/
theorem listFind_eq_none_iff (h : list.Pairwise (id · < id ·)) :
    listFind id list key = none ↔ ∀ x ∈ list, id x ≠ key := by
  induction list with
  | nil => exact iff_of_true rfl fun x hx => absurd hx List.not_mem_nil
  | cons head tail ih =>
    obtain ⟨hhead, htail⟩ := List.pairwise_cons.mp h
    rw [List.forall_mem_cons, listFind_cons]
    split_ifs with hlt heq
    · rw [ih htail, and_iff_right (UInt16.ne_of_lt hlt)]
    · exact iff_of_false not_false fun hne => hne.1 heq
    · refine iff_of_true rfl ⟨heq, fun x hx hkey => hlt ?_⟩
      rw [← hkey]
      exact hhead x hx

/-- On a list in order, every node is found. -/
theorem listFind_of_mem (h : list.Pairwise (id · < id ·)) (hx : x ∈ list) :
    listFind id list (id x) = some x := by
  induction list with
  | nil => exact absurd hx List.not_mem_nil
  | cons head tail ih =>
    obtain ⟨hhead, htail⟩ := List.pairwise_cons.mp h
    rw [listFind_cons]
    obtain rfl | hx := List.mem_cons.mp hx
    · rw [if_neg (UInt16.lt_irrefl _), if_pos rfl]
    · rw [if_pos (hhead x hx), ih htail hx]

/-- Lists that agree on the identifiers are searched alike. -/
theorem listFind_forall₂ {β : Type*} {id' : β → UInt16} {R : α → β → Prop} {l : List α}
    {l' : List β} (hid : ∀ x y, R x y → id' y = id x) (h : List.Forall₂ R l l') (key : UInt16) :
    (listFind id l key = none ∧ listFind id' l' key = none) ∨
      ∃ x y, listFind id l key = some x ∧ listFind id' l' key = some y ∧ R x y := by
  induction h with
  | nil => exact .inl ⟨rfl, rfl⟩
  | cons hxy _ ih =>
    rw [listFind_cons, listFind_cons, hid _ _ hxy]
    split_ifs with hlt heq
    · exact ih
    · exact .inr ⟨_, _, rfl, rfl, hxy⟩
    · exact .inl ⟨rfl, rfl⟩

/-- What is found has the key and belongs to the list. -/
theorem mem_of_listFind (h : listFind id list key = some x) :
    x ∈ list ∧ id x = key := by
  unfold listFind at h
  rw [Option.filter_eq_some_iff] at h
  refine ⟨?_, by simpa using h.2⟩
  exact (List.dropWhile_sublist _).mem (List.mem_of_mem_head? h.1)

end SortedList

/-! ### URIs -/

/-- `LWM2M_MAX_ID`, the value of an identifier that is not set. -/
def lwm2mMaxId : UInt16 := 0xFFFF

/-- `LWM2M_SECURITY_OBJECT_ID`. -/
def lwm2mSecurityObjectId : UInt16 := 0

/-- `LWM2M_SERVER_OBJECT_ID`. -/
def lwm2mServerObjectId : UInt16 := 1

/-- `lwm2m_uri_t`. -/
structure Uri where
  objectId : UInt16 := lwm2mMaxId
  instanceId : UInt16 := lwm2mMaxId
  resourceId : UInt16 := lwm2mMaxId
  resourceInstanceId : UInt16 := lwm2mMaxId
  deriving DecidableEq, Repr

namespace Uri

/-- `LWM2M_URI_IS_SET_OBJECT`. -/
def isSetObject (uri : Uri) : Prop := uri.objectId ≠ lwm2mMaxId
/-- `LWM2M_URI_IS_SET_INSTANCE`. -/
def isSetInstance (uri : Uri) : Prop := uri.instanceId ≠ lwm2mMaxId
/-- `LWM2M_URI_IS_SET_RESOURCE`. -/
def isSetResource (uri : Uri) : Prop := uri.resourceId ≠ lwm2mMaxId
/-- `LWM2M_URI_IS_SET_RESOURCE_INSTANCE`. -/
def isSetResourceInstance (uri : Uri) : Prop := uri.resourceInstanceId ≠ lwm2mMaxId

instance (uri : Uri) : Decidable uri.isSetObject := inferInstanceAs (Decidable (_ ≠ _))
instance (uri : Uri) : Decidable uri.isSetInstance := inferInstanceAs (Decidable (_ ≠ _))
instance (uri : Uri) : Decidable uri.isSetResource := inferInstanceAs (Decidable (_ ≠ _))
instance (uri : Uri) : Decidable uri.isSetResourceInstance := inferInstanceAs (Decidable (_ ≠ _))

end Uri

/-! ### Servers -/

/-- `lwm2m_status_t`. -/
inductive Status
  | deregistered
  | regHoldOff
  | regPending
  | registered
  | regFailed
  | regUpdatePending
  | regUpdateNeeded
  | regFullUpdateNeeded
  | deregPending
  | bsHoldOff
  | bsInitiated
  | bsPending
  | bsFinishing
  | bsFinished
  | bsFailing
  | bsFailed
  deriving DecidableEq, Repr

/-- `lwm2m_client_state_t`. -/
inductive ClientState
  | initial
  | bootstrapRequired
  | bootstrapping
  | registerRequired
  | registering
  | ready
  deriving DecidableEq, Repr

/-- A session handle `void *`; the null pointer is `none`. -/
abbrev Session := Option ℕ

/-- `lwm2m_session_is_equal`. -/
def lwm2mSessionIsEqual (session₁ session₂ : Session) : Bool := session₁ == session₂

/-- The allocation number of a server, the value of a pointer to it. -/
abbrev ServerRef := ℕ

/-- `lwm2m_server_t`. -/
structure Server where
  ref : ServerRef
  secObjInstID : UInt16
  shortID : UInt16
  sessionH : Session := none
  status : Status := .deregistered
  dirty : Bool := false
  blockData : List BlockData := []
  deriving DecidableEq, Repr

/-- The dereference of a pointer to a server of the list. -/
def deref (serverList : List Server) (ref : ServerRef) : Except Fault Server :=
  match serverList.find? (·.ref = ref) with
  | some server => .ok server
  | none => .error .useAfterFree

/-- `utils_findServer` and `utils_findBootstrapServer`, on their lists. -/
def utilsFindServer (serverList : List Server) (fromSessionH : Session) : Option Server :=
  serverList.find? fun server => lwm2mSessionIsEqual server.sessionH fromSessionH

/-! ### Observations -/

/-- A `double`, by its bits. -/
structure Double where
  bits : UInt64
  deriving DecidableEq, Repr

/-- The conversion of a `double` to `float`. -/
def Double.toFloat (d : Double) : Float32 := (Float.ofBits d.bits).toFloat32

/-- `lwm2m_attributes_t`. -/
structure Attributes where
  toSet : UInt8
  toClear : UInt8
  minPeriod : UInt32
  maxPeriod : UInt32
  greaterThan : Double
  lessThan : Double
  step : Double
  deriving DecidableEq, Repr

/-- The union `lastValue` of a watcher. -/
inductive LastValue
  | asInteger (value : BitVec 64)
  | asUnsigned (value : BitVec 64)
  | asFloat (value : Double)
  deriving DecidableEq, Repr

/-- `lwm2m_watcher_t`. -/
structure Watcher where
  active : Bool := false
  update : Bool := false
  server : ServerRef
  parameters : Option Attributes := none
  format : UInt16 := 0
  token : List Byte := []
  lastTime : ℤ := 0
  counter : UInt32 := 0
  lastMid : UInt16 := 0
  lastValue : LastValue := .asInteger 0
  deriving DecidableEq, Repr

/-- `lwm2m_observed_t`. -/
structure Observed where
  uri : Uri
  watcherList : List Watcher
  deriving DecidableEq, Repr

/-- What the registration payload lists of an object `lwm2m_object_t`: its identifier,
its version and its instances. -/
structure ObjectEntry where
  objID : UInt16
  versionMajor : UInt8 := 0
  versionMinor : UInt8 := 0
  instanceList : List UInt16 := []
  deriving DecidableEq, Repr

/-- `lwm2m_context_t`, with the number of servers allocated so far. -/
structure Context where
  state : ClientState := .initial
  bootstrapServerList : List Server := []
  serverList : List Server := []
  objectList : List ObjectEntry := []
  observedList : List Observed := []
  nextMID : UInt16 := 0
  allocated : ℕ := 0
  deriving DecidableEq, Repr

end Lwm2m.Core

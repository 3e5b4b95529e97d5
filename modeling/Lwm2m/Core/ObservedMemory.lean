/-
# The observed list in memory

`core/observe.c` allocates an entry of the observed list and a watcher with `lwm2m_malloc`, which
may return no memory, and takes them off the list in three loops before it frees them.  Here every
entry and every watcher has an address, a function reads only what is allocated, and `lwm2m_free`
leaves the list alone, so that a freed entry can stay linked.

As long as what is linked is allocated, each function does what the function on lists of `Observe`
and `ObserveFailure` does (`ObservedMemory.after_agrees`): the two fail alike, and the list in
memory stands for the list that the other one returns.
-/

import Lwm2m.Core.InstanceMemory
import Lwm2m.Core.ObserveFailure

namespace Lwm2m.Core

open Coap Code Library Library.Memory

/-- A linked watcher and its address. -/
structure WatcherNode where
  address : ℕ
  watcherP : Watcher
  deriving DecidableEq, Repr

/-- A linked entry and its address. -/
structure ObservedNode where
  address : ℕ
  uri : Uri
  watcherList : List WatcherNode
  deriving DecidableEq, Repr

/-- The entry. -/
def ObservedNode.observed (node : ObservedNode) : Observed :=
  ⟨node.uri, node.watcherList.map WatcherNode.watcherP⟩

/-- The cells of an entry and its watchers. -/
def ObservedNode.cells (node : ObservedNode) : List ℕ :=
  node.address :: node.watcherList.map WatcherNode.address

/-- The cells that are linked. -/
def linkedCells (observedList : List ObservedNode) : List ℕ :=
  observedList.flatMap ObservedNode.cells

/-- The heap and the observed list in it. -/
structure ObservedMemory where
  heap : Heap := Memory.empty
  observedList : List ObservedNode := []

namespace ObservedMemory

/-! ### Lookup -/

/-- The pointer is followed. -/
def readCell (heap : Heap) (address : ℕ) : Except Fault Unit :=
  if (heap.cells address).isSome then .ok () else .error .useAfterFree

/-- A walk along a list to the first node with a property. -/
def walk {α : Type} (heap : Heap) (address : α → ℕ) (stops : α → Bool) :
    List α → Except Fault (Option (Focus α))
  | [] => return none
  | targetP :: next => do
    readCell heap (address targetP)
    if stops targetP then return some ⟨[], targetP, next⟩
    else return (← walk heap address stops next).map (Focus.push targetP)

/-- `prv_findObserved`. -/
def prvFindObserved (heap : Heap) (observedList : List ObservedNode) (uriP : Uri) :
    Except Fault (Option (Focus ObservedNode)) :=
  walk heap ObservedNode.address (fun targetP => prvFindObservedStops uriP targetP.observed)
    observedList

/-- `prv_findWatcher`. -/
def prvFindWatcher (heap : Heap) (watcherList : List WatcherNode) (serverP : ServerRef) :
    Except Fault (Option (Focus WatcherNode)) :=
  walk heap WatcherNode.address (fun targetP => targetP.watcherP.server = serverP) watcherList

/-- A pointer to a watcher: the entry that holds it and its place there. -/
structure WatcherPointer where
  entry : Focus ObservedNode
  watcher : Focus WatcherNode

namespace WatcherPointer

/-- The observed list with the fields of the watcher written. -/
def set (f : WatcherPointer) (watcherP : Watcher) : List ObservedNode :=
  f.entry.set { f.entry.here with
    watcherList := f.watcher.set { f.watcher.here with watcherP } }

/-- The observed list pointed into. -/
def list (f : WatcherPointer) : List ObservedNode := f.set f.watcher.here.watcherP

end WatcherPointer

/-- `prv_getWatcher`: the heap it leaves and the watcher; where it returns none, the list it
leaves. -/
def prvGetWatcher (allocations : Allocations) (heap : Heap) (observedList : List ObservedNode)
    (uriP : Uri) (serverP : ServerRef) :
    Except Fault (Heap × Except (List ObservedNode) WatcherPointer) := do
  match ← prvFindObserved heap observedList uriP with
  | none =>
    if allocations.observed then
      let (heap, address) := heap.alloc .node
      let observedP : ObservedNode := ⟨address, uriP, []⟩
      if allocations.watcher then
        let (heap, address) := heap.alloc .node
        return (heap,
          .ok ⟨⟨[], observedP, observedList⟩, ⟨[], ⟨address, { server := serverP }⟩, []⟩⟩)
      else
        -- the entry is freed and not taken off the list
        let heap ← lwm2mFree heap (some address)
        return (heap, .error (observedP :: observedList))
    else return (heap, .error observedList)
  | some entry =>
    match ← prvFindWatcher heap entry.here.watcherList serverP with
    | some watcher => return (heap, .ok ⟨entry, watcher⟩)
    | none =>
      if allocations.watcher then
        let (heap, address) := heap.alloc .node
        return (heap,
          .ok ⟨entry, ⟨[], ⟨address, { server := serverP }⟩, entry.here.watcherList⟩⟩)
      else return (heap, .error observedList)

/-! ### Cancellation -/

/-- The loop of `observe_cancel` over the watchers of an entry. -/
def findCancelled (heap : Heap) (serverList : List Server) (mid : UInt16) (fromSessionH : Session) :
    List WatcherNode → Except Fault (Option (Focus WatcherNode))
  | [] => return none
  | watcherP :: next => do
    readCell heap watcherP.address
    if watcherP.watcherP.lastMid = mid then
      let server ← deref serverList watcherP.watcherP.server
      if lwm2mSessionIsEqual server.sessionH fromSessionH then
        return some ⟨[], watcherP, next⟩
    return (← findCancelled heap serverList mid fromSessionH next).map (Focus.push watcherP)

/-- `observe_cancel`.  The entries that `prv_unlinkObserved` walks along are those the loop has
read already. -/
def observeCancel (heap : Heap) (serverList : List Server) (mid : UInt16) (fromSessionH : Session) :
    List ObservedNode → Except Fault (Heap × List ObservedNode)
  | [] => return (heap, [])
  | observedP :: next => do
    readCell heap observedP.address
    -- the first watcher is read before the list is tested for being empty
    if observedP.watcherList = [] then throw .nullDereference
    match ← findCancelled heap serverList mid fromSessionH observedP.watcherList with
    | some targetP =>
      let heap ← lwm2mFree heap (some targetP.here.address)
      if targetP.unlink = [] then
        let heap ← lwm2mFree heap (some observedP.address)
        return (heap, next)
      else return (heap, { observedP with watcherList := targetP.unlink } :: next)
    | none => do
      let (heap, next) ← observeCancel heap serverList mid fromSessionH next
      return (heap, observedP :: next)

/-- `LWM2M_LIST_FREE` on the watchers of an entry. -/
def freeWatchers (heap : Heap) : List WatcherNode → Except Fault Heap
  | [] => return heap
  | watcherP :: next => do freeWatchers (← lwm2mFree heap (some watcherP.address)) next

/-- `observe_clear`. -/
def observeClear (heap : Heap) (uriP : Uri) :
    List ObservedNode → Except Fault (Heap × List ObservedNode)
  | [] => return (heap, [])
  | observedP :: next => do
    readCell heap observedP.address
    if observedP.uri.objectId == uriP.objectId &&
        (!uriP.isSetInstance || observedP.uri.instanceId == uriP.instanceId) then
      let heap ← freeWatchers heap observedP.watcherList
      let heap ← lwm2mFree heap (some observedP.address)
      observeClear heap uriP next
    else do
      let (heap, next) ← observeClear heap uriP next
      return (heap, observedP :: next)

/-! ### Requests -/

/-- `observe_handleRequest`. -/
def observeHandleRequest (allocations : Allocations) (serverList : List Server)
    (contextP : ObservedMemory) (uriP : Uri) (serverP : Server) (value : DecodedValue) (time : ℤ)
    (message response : Packet) : Except Fault (ObservedMemory × Packet × Code) := do
  if message.observe = 0 then
    if ¬ uriP.isSetInstance ∧ uriP.isSetResource then
      return (contextP, response, coap400BadRequest)
    if message.token.length = 0 then
      return (contextP, response, coap400BadRequest)
    match ← prvGetWatcher allocations contextP.heap contextP.observedList uriP serverP.ref with
    | (heap, .error left) => return (⟨heap, left⟩, response, coap500InternalServerError)
    | (heap, .ok target) =>
      let watcherP := target.watcher.here.watcherP.started time message response
      let stored := match value with
        | .numeric v => if uriP.isSetResource then { watcherP with lastValue := v } else watcherP
        | _ => watcherP
      if uriP.isSetResource ∧ value = .undecodable then
        return (⟨heap, target.set watcherP⟩, response, coap500InternalServerError)
      return (⟨heap, target.set { stored with counter := stored.counter + 1 }⟩,
        response.coapSetHeaderObserve stored.counter, coap205Content)
  else if message.observe = 1 then
    match ← prvFindObserved contextP.heap contextP.observedList uriP with
    | none => return (contextP, response, coap205Content)
    | some observedP =>
      match ← prvFindWatcher contextP.heap observedP.here.watcherList serverP.ref with
      | none => return (contextP, response, coap205Content)
      | some watcherP => do
        let (heap, observedList) ← observeCancel contextP.heap serverList
          watcherP.here.watcherP.lastMid serverP.sessionH contextP.observedList
        return (⟨heap, observedList⟩, response, coap205Content)
  else
    return (contextP, response, coap400BadRequest)

/-- `observe_setParameters`, with the answer of `object_checkReadable`. -/
def observeSetParameters (allocations : Allocations) (contextP : ObservedMemory) (uriP : Uri)
    (serverP : ServerRef) (attrP : Attributes) (readable : Code) :
    Except Fault (ObservedMemory × Code) := do
  if ¬ uriP.isSetInstance ∧ uriP.isSetResource then
    return (contextP, coap400BadRequest)
  if readable ≠ coap205Content then return (contextP, readable)
  match ← prvGetWatcher allocations contextP.heap contextP.observedList uriP serverP with
  | (heap, .error left) => return (⟨heap, left⟩, coap500InternalServerError)
  | (heap, .ok target) =>
    let watcherP := target.watcher.here.watcherP
    if ← thresholdsClash attrP watcherP.parameters then
      return (⟨heap, target.list⟩, coap400BadRequest)
    match watcherP.parameters with
    | none =>
      if attrP.toSet ≠ 0 then
        if allocations.parameters then
          return (⟨heap, target.set { watcherP with parameters := some attrP }⟩, coap204Changed)
        else return (⟨heap, target.list⟩, coap500InternalServerError)
      else return (⟨heap, target.list⟩, coap204Changed)
    | some p =>
      return (⟨heap, target.set { watcherP with parameters := some (p.updateBy attrP) }⟩,
        coap204Changed)

/-! ### Notifications -/

/-- The loop of `lwm2m_resource_value_changed` over the watchers of an entry. -/
def tagWatchers (heap : Heap) : List WatcherNode → Except Fault (List WatcherNode)
  | [] => return []
  | node :: next => do
    readCell heap node.address
    let watcherP := node.watcherP
    let watcherP := if watcherP.active then { watcherP with update := true } else watcherP
    return { node with watcherP } :: (← tagWatchers heap next)

/-- The comparison of `lwm2m_resource_value_changed` with the URI of an entry. -/
def tagsEntry (uriP uri : Uri) : Bool :=
  uri.objectId == uriP.objectId
    && overlaps uriP.isSetInstance uri.isSetInstance uriP.instanceId uri.instanceId
    && overlaps uriP.isSetResource uri.isSetResource uriP.resourceId uri.resourceId
    && overlaps uriP.isSetResourceInstance uri.isSetResourceInstance
        uriP.resourceInstanceId uri.resourceInstanceId

/-- `lwm2m_resource_value_changed`. -/
def lwm2mResourceValueChanged (heap : Heap) (uriP : Uri) :
    List ObservedNode → Except Fault (List ObservedNode)
  | [] => return []
  | targetP :: next => do
    readCell heap targetP.address
    if tagsEntry uriP targetP.uri then do
      let watcherList ← tagWatchers heap targetP.watcherList
      return { targetP with watcherList } :: (← lwm2mResourceValueChanged heap uriP next)
    else return targetP :: (← lwm2mResourceValueChanged heap uriP next)

/-- The loop of `observe_step` over the watchers of an entry. -/
def notifyWatchers (heap : Heap) (serverList : List Server) (input : StepInput) (currentTime : ℤ) :
    UInt16 → Option Packet → List WatcherNode →
      Except Fault (List WatcherNode × UInt16 × List Sent)
  | nextMID, _, [] => return ([], nextMID, [])
  | nextMID, prepared, node :: next => do
    readCell heap node.address
    let watcherP := node.watcherP
    if watcherP.active ∧ input.notify watcherP then
      match prepared with
      | some message =>
        let server ← deref serverList watcherP.server
        let message := notification message watcherP nextMID
        let (rest, lastMID, sent) ← notifyWatchers heap serverList input currentTime (nextMID + 1)
          (some message) next
        let watcherP := watcherP.notified input watcherP.format currentTime nextMID
        return ({ node with watcherP } :: rest, lastMID, ⟨server.sessionH, message⟩ :: sent)
      | none =>
        match input.serialize watcherP.format with
        | none => return (node :: next, nextMID, [])
        | some (format, buffer) =>
          let message := (coapInitMessage .non coap205Content 0).coapSetHeaderContentType
            format.toUInt32
          let message := message.coapSetPayload (buffer.getD [])
          let server ← deref serverList watcherP.server
          let message := notification message watcherP nextMID
          let (rest, lastMID, sent) ← notifyWatchers heap serverList input currentTime
            (nextMID + 1) (buffer.map fun _ => message) next
          let watcherP := watcherP.notified input format currentTime nextMID
          return ({ node with watcherP } :: rest, lastMID, ⟨server.sessionH, message⟩ :: sent)
    else
      let (rest, lastMID, sent) ← notifyWatchers heap serverList input currentTime nextMID prepared
        next
      return (node :: rest, lastMID, sent)

/-- `observe_step`. -/
def observeStep (heap : Heap) (serverList : List Server) (input : Uri → StepInput)
    (currentTime : ℤ) :
    UInt16 → List ObservedNode → Except Fault (List ObservedNode × UInt16 × List Sent)
  | nextMID, [] => return ([], nextMID, [])
  | nextMID, targetP :: next => do
    readCell heap targetP.address
    if (input targetP.uri).readable then
      let (watcherList, nextMID, sent) ← notifyWatchers heap serverList (input targetP.uri)
        currentTime nextMID none targetP.watcherList
      let (rest, nextMID, sent') ← observeStep heap serverList input currentTime nextMID next
      return ({ targetP with watcherList } :: rest, nextMID, sent ++ sent')
    else
      let (rest, nextMID, sent) ← observeStep heap serverList input currentTime nextMID next
      return (targetP :: rest, nextMID, sent)

end ObservedMemory

/-- What happens to the observations, each time with the servers that are there then. -/
inductive ObserveEvent
  /-- A GET with an Observe option. -/
  | observe (allocations : Allocations) (serverList : List Server) (uriP : Uri) (serverP : Server)
      (value : DecodedValue) (time : ℤ) (message response : Packet)
  /-- A Write-Attributes. -/
  | writeAttributes (allocations : Allocations) (uriP : Uri) (serverP : ServerRef)
      (attrP : Attributes) (readable : Code)
  /-- A reset, or the end of an observation by its message-id. -/
  | reset (serverList : List Server) (mid : UInt16) (fromSessionH : Session)
  /-- An instance or an object was deleted. -/
  | clear (uriP : Uri)
  /-- The application tells that a value changed. -/
  | valueChanged (uriP : Uri)
  /-- `observe_step`. -/
  | step (serverList : List Server) (input : Uri → StepInput) (currentTime : ℤ) (nextMID : UInt16)

/-- The observed list in memory after an event. -/
def ObservedMemory.after (contextP : ObservedMemory) : ObserveEvent → Except Fault ObservedMemory
  | .observe allocations serverList uriP serverP value time message response => do
    return (← ObservedMemory.observeHandleRequest allocations serverList contextP uriP serverP value
      time message response).1
  | .writeAttributes allocations uriP serverP attrP readable => do
    return (← ObservedMemory.observeSetParameters allocations contextP uriP serverP attrP
      readable).1
  | .reset serverList mid fromSessionH => do
    let (heap, observedList) ← ObservedMemory.observeCancel contextP.heap serverList mid
      fromSessionH contextP.observedList
    return ⟨heap, observedList⟩
  | .clear uriP => do
    let (heap, observedList) ← ObservedMemory.observeClear contextP.heap uriP contextP.observedList
    return ⟨heap, observedList⟩
  | .valueChanged uriP => do
    return { contextP with
      observedList := ← ObservedMemory.lwm2mResourceValueChanged contextP.heap uriP
        contextP.observedList }
  | .step serverList input currentTime nextMID => do
    return { contextP with
      observedList := (← ObservedMemory.observeStep contextP.heap serverList input currentTime
        nextMID contextP.observedList).1 }

/-- The observed list after an event, where what is linked is allocated. -/
def observedAfter (observedList : List Observed) : ObserveEvent → Except Fault ObservedList
  | .observe allocations serverList uriP serverP value time message response => do
    return (← observeHandleRequestIn allocations serverList observedList uriP serverP value time
      message response).1
  | .writeAttributes allocations uriP serverP attrP readable => do
    return (← observeSetParametersIn allocations observedList uriP serverP attrP readable).1
  | .reset serverList mid fromSessionH => do
    return .intact (← observeCancel serverList mid fromSessionH observedList)
  | .clear uriP => return .intact (observeClear observedList uriP)
  | .valueChanged uriP => return .intact (lwm2mResourceValueChanged observedList uriP)
  | .step serverList input currentTime nextMID => do
    return .intact (← observeStep serverList input currentTime nextMID observedList).1

/-! ### What is linked -/

namespace ObservedMemory

variable {m₀ heap : Heap} {kept : List ℕ} {observedList : List ObservedNode}
  {watcherList : List WatcherNode}

/-- The list in memory stands for a list of entries: what it links is allocated, each cell once,
and the cells of `kept` are as they were. -/
def Stands (m₀ : Heap) (kept : List ℕ) (result : Heap × List ObservedNode) (l : List Observed) :
    Prop :=
  Owns m₀ kept result.1 (linkedCells result.2) ∧ result.2.map ObservedNode.observed = l

@[simp] theorem observed_watcherList (node : ObservedNode) :
    node.observed.watcherList = node.watcherList.map WatcherNode.watcherP := rfl

variable {node : ObservedNode} {a : ℕ} {α : Type} {l : List Observed}

theorem mem_linkedCells (h : node ∈ observedList) (ha : a ∈ node.cells) :
    a ∈ linkedCells observedList :=
  List.mem_flatMap.mpr ⟨node, h, ha⟩

theorem address_mem_cells {watcherP : WatcherNode} (h : watcherP ∈ node.watcherList) :
    watcherP.address ∈ node.cells :=
  List.mem_cons_of_mem _ (List.mem_map_of_mem h)

theorem readCell_of_isSome (h : (heap.cells a).isSome) : readCell heap a = .ok () :=
  if_pos h

/-- A walk along what is allocated is a search. -/
theorem walk_eq {address : α → ℕ} (stops : α → Bool) {l : List α}
    (h : ∀ x ∈ l, (heap.cells (address x)).isSome) :
    walk heap address stops l = .ok (focusFirst stops l) := by
  induction l with
  | nil => rfl
  | cons x next ih =>
    obtain ⟨hx, hnext⟩ := List.forall_mem_cons.mp h
    unfold walk focusFirst
    rw [readCell_of_isSome hx, ok_bind, ih hnext]
    split_ifs <;> rfl

theorem prvFindObserved_eq (h : Owns m₀ kept heap (linkedCells observedList)) (uriP : Uri) :
    ∃ found, prvFindObserved heap observedList uriP = .ok found ∧
      Core.prvFindObserved (observedList.map ObservedNode.observed) uriP =
        found.map (Focus.map ObservedNode.observed) ∧
      ∀ entry, found = some entry → entry.list = observedList := by
  have hread : ∀ node ∈ observedList, (heap.cells node.address).isSome := fun node hnode =>
    h.allocated _ (mem_linkedCells hnode List.mem_cons_self)
  exact ⟨_, walk_eq _ hread, focusFirst_map _ _ _, fun _ hfound =>
    (focusFirst_eq_some_iff.mp hfound).1⟩

theorem prvFindWatcher_eq (h : ∀ w ∈ watcherList, (heap.cells w.address).isSome)
    (serverP : ServerRef) :
    ∃ found, prvFindWatcher heap watcherList serverP = .ok found ∧
      Core.prvFindWatcher (watcherList.map WatcherNode.watcherP) serverP =
        found.map (Focus.map WatcherNode.watcherP) ∧
      ∀ watcher, found = some watcher → watcher.list = watcherList :=
  ⟨_, walk_eq _ h, focusFirst_map _ _ _, fun _ hfound => (focusFirst_eq_some_iff.mp hfound).1⟩

/-! ### Cancellation -/

theorem findCancelled_agrees (serverList : List Server) (mid : UInt16) (fromSessionH : Session)
    (h : ∀ w ∈ watcherList, (heap.cells w.address).isSome) :
    Agrees (fun found found' => found' = found.map (Focus.map WatcherNode.watcherP) ∧
        ∀ watcher, found = some watcher → watcher.list = watcherList)
      (findCancelled heap serverList mid fromSessionH watcherList)
      (Core.findCancelled serverList mid fromSessionH
        (watcherList.map WatcherNode.watcherP)) := by
  induction watcherList with
  | nil => exact ⟨rfl, nofun⟩
  | cons w next ih =>
    obtain ⟨hw, hnext⟩ := List.forall_mem_cons.mp h
    have hlater := (ih hnext).bind (S := fun found found' =>
        found' = found.map (Focus.map WatcherNode.watcherP) ∧
          ∀ watcher, found = some watcher → watcher.list = w :: next)
      (f := fun found => .ok (found.map (Focus.push w)))
      (g := fun found => .ok (found.map (Focus.push w.watcherP))) fun found found' hfound => by
        obtain ⟨rfl, hlist⟩ := hfound
        cases found with
        | none => exact ⟨rfl, nofun⟩
        | some f =>
          refine ⟨rfl, fun watcher hwatcher => ?_⟩
          obtain rfl := Option.some.inj hwatcher
          exact congrArg (w :: ·) (hlist f rfl)
    unfold findCancelled
    rw [readCell_of_isSome hw, ok_bind]
    refine Agrees.ite (fun _ => ?_) fun _ => hlater
    refine (Agrees.refl _).bind fun server _ hserver => ?_
    rw [← hserver]
    refine Agrees.ite (fun _ => ⟨rfl, fun watcher hwatcher => ?_⟩) fun _ => hlater
    obtain rfl := Option.some.inj hwatcher
    rfl

/-- The cells of an entry, the watcher pointed to first. -/
theorem cells_perm {f : Focus WatcherNode} (h : f.list = node.watcherList) :
    node.cells.Perm (f.here.address :: node.address :: f.unlink.map WatcherNode.address) := by
  unfold ObservedNode.cells
  rw [← h, Focus.list, Focus.set, Focus.unlink, List.map_append, List.map_cons, List.map_append]
  exact (List.perm_middle.cons _).trans (List.Perm.swap _ _ _)

theorem observeCancel_agrees (serverList : List Server) (mid : UInt16) (fromSessionH : Session)
    (h : Owns m₀ kept heap (linkedCells observedList)) :
    Agrees (Stands m₀ kept) (observeCancel heap serverList mid fromSessionH observedList)
      (Core.observeCancel serverList mid fromSessionH
        (observedList.map ObservedNode.observed)) := by
  induction observedList generalizing m₀ kept with
  | nil => exact ⟨h, rfl⟩
  | cons node next ih =>
    have hread {a : ℕ} (ha : a ∈ node.cells) : (heap.cells a).isSome :=
      h.allocated a (List.mem_append_left _ ha)
    unfold observeCancel
    rw [readCell_of_isSome (hread List.mem_cons_self), ok_bind, List.map_cons]
    unfold Core.observeCancel
    by_cases hnil : node.watcherList = []
    · have hnil' : node.observed.watcherList = [] := by
        rw [observed_watcherList, hnil, List.map_nil]
      rw [if_pos hnil, if_pos hnil']
      exact rfl
    have hnil' : node.observed.watcherList ≠ [] := fun h => hnil (List.map_eq_nil_iff.mp h)
    rw [if_neg hnil, if_neg hnil']
    refine (findCancelled_agrees serverList mid fromSessionH fun w hw =>
      hread (address_mem_cells hw)).bind fun found found' hfound => ?_
    obtain ⟨rfl, hlist⟩ := hfound
    cases found with
    | none =>
      refine (ih h.frame).bind fun result l hresult => ?_
      exact ⟨h.unframe hresult.1, congrArg (_ :: ·) hresult.2⟩
    | some f =>
      have howns := h.perm (List.Perm.append_right _ (cells_perm (hlist f rfl)))
      obtain ⟨heap', hfree, howns'⟩ := lwm2mFree_owns (p := some f.here.address) howns
      simp only [Option.map_some, Focus.map_unlink, List.map_eq_nil_iff]
      rw [hfree, ok_bind]
      refine Agrees.ite (fun hlast => ?_) fun _ => ⟨howns', rfl⟩
      rw [hlast] at howns'
      obtain ⟨heap'', hfree', howns''⟩ := lwm2mFree_owns (p := some node.address) howns'
      rw [hfree', ok_bind]
      exact ⟨howns'', rfl⟩

/-! ### Deletion -/

theorem freeWatchers_owns {rest : List ℕ}
    (h : Owns m₀ kept heap (watcherList.map WatcherNode.address ++ rest)) :
    ∃ heap', freeWatchers heap watcherList = .ok heap' ∧ Owns m₀ kept heap' rest := by
  induction watcherList generalizing heap with
  | nil => exact ⟨heap, rfl, h⟩
  | cons w next ih =>
    obtain ⟨heap', hfree, howns⟩ := lwm2mFree_owns (p := some w.address) h
    unfold freeWatchers
    rw [hfree, ok_bind]
    exact ih howns

theorem observeClear_agrees (uriP : Uri) (h : Owns m₀ kept heap (linkedCells observedList)) :
    ∃ result, observeClear heap uriP observedList = .ok result ∧
      Stands m₀ kept result (Core.observeClear (observedList.map ObservedNode.observed) uriP) := by
  induction observedList generalizing m₀ kept heap with
  | nil => exact ⟨_, rfl, h, rfl⟩
  | cons node next ih =>
    have hread : (heap.cells node.address).isSome := h.allocated _ List.mem_cons_self
    unfold observeClear Core.observeClear
    rw [readCell_of_isSome hread, ok_bind, List.map_cons, List.filter_cons]
    by_cases hmatch : (node.uri.objectId == uriP.objectId &&
        (!uriP.isSetInstance || node.uri.instanceId == uriP.instanceId)) = true
    · have hperm : (linkedCells (node :: next)).Perm
          (node.watcherList.map WatcherNode.address ++ (node.address :: linkedCells next)) :=
        List.perm_middle.symm
      obtain ⟨heap', hwatchers, howns⟩ := freeWatchers_owns (h.perm hperm)
      obtain ⟨heap'', hfree, howns'⟩ := lwm2mFree_owns (p := some node.address) howns
      rw [if_pos hmatch, hwatchers, ok_bind, hfree, ok_bind, if_neg]
      · exact ih howns'
      · simp only [ObservedNode.observed, hmatch, Bool.not_true, Bool.false_eq_true,
          not_false_eq_true]
    · obtain ⟨result, hresult, howns, hobserved⟩ := ih h.frame
      rw [if_neg hmatch, hresult, ok_bind, if_pos]
      · exact ⟨_, rfl, h.unframe howns, congrArg (_ :: ·) hobserved⟩
      · simp only [ObservedNode.observed, Bool.eq_false_of_not_eq_true hmatch, Bool.not_false]

/-! ### Notifications -/

/-- The list in memory with other fields of its watchers: it links the same cells. -/
theorem stands_of_cells {l : List ObservedNode}
    (h : Owns m₀ kept heap (linkedCells observedList))
    (hcells : l.map ObservedNode.cells = observedList.map ObservedNode.cells) :
    Owns m₀ kept heap (linkedCells l) := by
  unfold linkedCells at h ⊢
  rwa [List.flatMap_def, hcells, ← List.flatMap_def]

theorem tagWatchers_eq (h : ∀ w ∈ watcherList, (heap.cells w.address).isSome) :
    ∃ tagged, tagWatchers heap watcherList = .ok tagged ∧
      tagged.map WatcherNode.address = watcherList.map WatcherNode.address ∧
      tagged.map WatcherNode.watcherP = (watcherList.map WatcherNode.watcherP).map fun watcherP =>
        if watcherP.active then { watcherP with update := true } else watcherP := by
  induction watcherList with
  | nil => exact ⟨[], rfl, rfl, rfl⟩
  | cons w next ih =>
    obtain ⟨hw, hnext⟩ := List.forall_mem_cons.mp h
    obtain ⟨tagged, htagged, haddress, hwatchers⟩ := ih hnext
    unfold tagWatchers
    rw [readCell_of_isSome hw, ok_bind, htagged]
    exact ⟨_, rfl, congrArg (_ :: ·) haddress, congrArg (_ :: ·) hwatchers⟩

theorem lwm2mResourceValueChanged_eq (uriP : Uri)
    (h : ∀ a ∈ linkedCells observedList, (heap.cells a).isSome) :
    ∃ l, lwm2mResourceValueChanged heap uriP observedList = .ok l ∧
      l.map ObservedNode.cells = observedList.map ObservedNode.cells ∧
      l.map ObservedNode.observed =
        Core.lwm2mResourceValueChanged (observedList.map ObservedNode.observed) uriP := by
  induction observedList with
  | nil => exact ⟨[], rfl, rfl, rfl⟩
  | cons node next ih =>
    have hnode {a : ℕ} (ha : a ∈ node.cells) : (heap.cells a).isSome :=
      h a (List.mem_append_left _ ha)
    obtain ⟨l, hl, hcells, hobserved⟩ := ih fun a ha => h a (List.mem_append_right _ ha)
    have hread : ∀ w ∈ node.watcherList, (heap.cells w.address).isSome :=
      fun w hw => hnode (address_mem_cells hw)
    obtain ⟨tagged, htagged, haddress, hwatchers⟩ := tagWatchers_eq hread
    have hchanged : Core.lwm2mResourceValueChanged (node.observed :: next.map ObservedNode.observed)
        uriP = (if tagsEntry uriP node.uri then { node.observed with
          watcherList := node.observed.watcherList.map fun watcherP =>
            if watcherP.active then { watcherP with update := true } else watcherP }
        else node.observed) ::
          Core.lwm2mResourceValueChanged (next.map ObservedNode.observed) uriP := rfl
    unfold lwm2mResourceValueChanged
    rw [readCell_of_isSome (hnode List.mem_cons_self), ok_bind, hl, htagged, List.map_cons,
      List.map_cons, hchanged, ← hobserved]
    split_ifs
    · refine ⟨_, rfl, ?_, ?_⟩
      · rw [List.map_cons, hcells]
        exact congrArg (fun addresses => (node.address :: addresses) :: _) haddress
      · rw [observed_watcherList, ← hwatchers]
        rfl
    · exact ⟨_, rfl, congrArg (node.cells :: ·) hcells, rfl⟩

/-- Walks that agree go on with the same list, counter and messages. -/
theorem bind_walk {β γ δ ζ : Type} {f : α → β} {g : α → γ} {l : List γ}
    {x : Except Fault (List α × UInt16 × List Sent)}
    {y : Except Fault (List β × UInt16 × List Sent)} {S : δ → ζ → Prop} {k k'}
    (h : Agrees (fun result result' => result'.1 = result.1.map f ∧ result'.2 = result.2 ∧
      result.1.map g = l) x y)
    (hk : ∀ rest mid sent, rest.map g = l →
      Agrees S (k (rest, mid, sent)) (k' (rest.map f, mid, sent))) :
    Agrees S (x >>= k) (y >>= k') := by
  refine h.bind fun result result' hresult => ?_
  obtain ⟨rest, mid, sent⟩ := result
  obtain ⟨rest', mid', sent'⟩ := result'
  obtain ⟨rfl, hsent, hrest⟩ := hresult
  cases hsent
  exact hk rest mid sent hrest

/-- The walk over the watchers is the one over the list; it moves none of them. -/
theorem notifyWatchers_agrees (serverList : List Server) (input : StepInput) (currentTime : ℤ)
    (nextMID : UInt16) (prepared : Option Packet)
    (h : ∀ w ∈ watcherList, (heap.cells w.address).isSome) :
    Agrees (fun result result' => result'.1 = result.1.map WatcherNode.watcherP ∧
        result'.2 = result.2 ∧
        result.1.map WatcherNode.address = watcherList.map WatcherNode.address)
      (notifyWatchers heap serverList input currentTime nextMID prepared watcherList)
      (Core.notifyWatchers serverList input currentTime nextMID prepared
        (watcherList.map WatcherNode.watcherP)) := by
  induction watcherList generalizing nextMID prepared with
  | nil => exact ⟨rfl, rfl, rfl⟩
  | cons w next ih =>
    obtain ⟨hw, hnext⟩ := List.forall_mem_cons.mp h
    unfold notifyWatchers
    rw [readCell_of_isSome hw, ok_bind]
    refine Agrees.ite (fun _ => ?_) fun _ => ?_
    · cases prepared with
      | some message =>
        refine (Agrees.refl _).bind fun server _ hserver => ?_
        rw [← hserver]
        exact bind_walk (ih _ _ hnext) fun _ _ _ haddress => ⟨rfl, rfl, congrArg (_ :: ·) haddress⟩
      | none =>
        cases input.serialize w.watcherP.format with
        | none => exact ⟨rfl, rfl, rfl⟩
        | some serialized =>
          refine (Agrees.refl _).bind fun server _ hserver => ?_
          rw [← hserver]
          exact bind_walk (ih _ _ hnext) fun _ _ _ haddress =>
            ⟨rfl, rfl, congrArg (_ :: ·) haddress⟩
    · exact bind_walk (ih _ _ hnext) fun _ _ _ haddress => ⟨rfl, rfl, congrArg (_ :: ·) haddress⟩

theorem observeStep_agrees (serverList : List Server) (input : Uri → StepInput) (currentTime : ℤ)
    (nextMID : UInt16) (h : ∀ a ∈ linkedCells observedList, (heap.cells a).isSome) :
    Agrees (fun result result' => result'.1 = result.1.map ObservedNode.observed ∧
        result'.2 = result.2 ∧
        result.1.map ObservedNode.cells = observedList.map ObservedNode.cells)
      (observeStep heap serverList input currentTime nextMID observedList)
      (Core.observeStep serverList input currentTime nextMID
        (observedList.map ObservedNode.observed)) := by
  induction observedList generalizing nextMID with
  | nil => exact ⟨rfl, rfl, rfl⟩
  | cons node next ih =>
    have hnode {a : ℕ} (ha : a ∈ node.cells) : (heap.cells a).isSome :=
      h a (List.mem_append_left _ ha)
    have hnext : ∀ a ∈ linkedCells next, (heap.cells a).isSome := fun a ha =>
      h a (List.mem_append_right _ ha)
    unfold observeStep
    rw [readCell_of_isSome (hnode List.mem_cons_self), ok_bind]
    refine Agrees.ite (fun _ => ?_) fun _ => ?_
    · refine bind_walk (notifyWatchers_agrees serverList (input node.uri) currentTime nextMID none
        fun w hw => hnode (address_mem_cells hw)) fun watcherList mid sent haddress => ?_
      refine bind_walk (ih _ hnext) fun rest mid' sent' hcells => ?_
      refine ⟨rfl, rfl, ?_⟩
      have hentry : ObservedNode.cells { node with watcherList } = node.cells :=
        congrArg (node.address :: ·) haddress
      rw [List.map_cons, List.map_cons, hcells, hentry]
    · exact bind_walk (ih _ hnext) fun _ _ _ hcells => ⟨rfl, rfl, congrArg (_ :: ·) hcells⟩

/-! ### The pointer to a watcher -/

/-- The pointer into the list that the list in memory stands for. -/
def WatcherPointer.focus (f : WatcherPointer) : WatcherFocus :=
  ⟨f.entry.map ObservedNode.observed, f.watcher.map WatcherNode.watcherP⟩

theorem WatcherPointer.focus_set (f : WatcherPointer) (watcherP : Watcher) :
    f.focus.set watcherP = (f.set watcherP).map ObservedNode.observed := by
  unfold WatcherPointer.focus WatcherFocus.set WatcherPointer.set
  rw [← Focus.map_set]
  congr 1
  exact congrArg (Observed.mk _) (Focus.map_set WatcherNode.watcherP f.watcher
    { f.watcher.here with watcherP })

/-- What `prv_getWatcher` does in memory: the watcher it returns is that of the list, and the list
written through it is linked; or it returns none, and the list it leaves is linked as before, or
starts with the entry that it freed. -/
theorem prvGetWatcher_agrees (allocations : Allocations) (uriP : Uri) (serverP : ServerRef)
    (h : Owns m₀ [] heap (linkedCells observedList)) :
    ∃ heap', (∃ target,
        prvGetWatcher allocations heap observedList uriP serverP = .ok (heap', .ok target) ∧
        prvGetWatcherIn allocations (observedList.map ObservedNode.observed) uriP serverP =
          .ok target.focus ∧
        ∀ w, Owns m₀ [] heap' (linkedCells (target.set w))) ∨
      (prvGetWatcher allocations heap observedList uriP serverP = .ok (heap', .error observedList) ∧
        prvGetWatcherIn allocations (observedList.map ObservedNode.observed) uriP serverP =
          .error (.intact (observedList.map ObservedNode.observed)) ∧
        Owns m₀ [] heap' (linkedCells observedList)) ∨
      ∃ observedP : ObservedNode,
        prvGetWatcher allocations heap observedList uriP serverP =
          .ok (heap', .error (observedP :: observedList)) ∧
        prvGetWatcherIn allocations (observedList.map ObservedNode.observed) uriP serverP =
          .error (.freedHead (observedList.map ObservedNode.observed)) ∧
        observedP.observed = ⟨uriP, []⟩ ∧ heap'.cells observedP.address = none := by
  obtain ⟨found, hfound, hentry, hlist⟩ := prvFindObserved_eq h uriP
  unfold prvGetWatcher prvGetWatcherIn
  rw [hfound, ok_bind, hentry]
  cases found with
  | none =>
    dsimp only [Option.map_none]
    by_cases hobserved : allocations.observed = true
    · rw [if_pos hobserved, if_pos hobserved]
      by_cases hwatcher : allocations.watcher = true
      · rw [if_pos hwatcher, if_pos hwatcher]
        refine ⟨_, .inl ⟨_, rfl, rfl, fun w => ?_⟩⟩
        exact ((h.alloc .node).alloc .node).perm (List.Perm.swap _ _ _)
      · rw [if_neg hwatcher, if_neg hwatcher]
        have hsome : ((heap.alloc .node).1.cells heap.frontier).isSome := by
          rw [alloc_cells_self]
          rfl
        have hfree : lwm2mFree (heap.alloc .node).1 (some (heap.alloc .node).2) =
            .ok ((heap.alloc .node).1.release heap.frontier) := if_pos hsome
        refine ⟨(heap.alloc .node).1.release heap.frontier,
          .inr (.inr ⟨⟨heap.frontier, uriP, []⟩, ?_, rfl, rfl, ?_⟩)⟩
        · rw [hfree]
          rfl
        · exact Function.update_self ..
    · rw [if_neg hobserved, if_neg hobserved]
      exact ⟨_, .inr (.inl ⟨rfl, rfl, h⟩)⟩
  | some entry =>
    obtain rfl := hlist entry rfl
    have hread : ∀ w ∈ entry.here.watcherList, (heap.cells w.address).isSome := fun w hw =>
      h.allocated _ (mem_linkedCells entry.here_mem_list (address_mem_cells hw))
    obtain ⟨found, hfound, hwatcher, hwatchers⟩ := prvFindWatcher_eq hread serverP
    dsimp only [Option.map_some, Focus.map_here, observed_watcherList]
    rw [hfound, ok_bind, hwatcher]
    have hcells (l : List WatcherNode) :
        linkedCells (entry.set { entry.here with watcherList := l }) =
          linkedCells entry.before ++ (entry.here.address :: l.map WatcherNode.address ++
            linkedCells entry.after) := by
      unfold linkedCells Focus.set
      rw [List.flatMap_append, List.flatMap_cons]
      rfl
    have hlinked : linkedCells entry.list = _ := hcells entry.here.watcherList
    cases found with
    | some watcher =>
      refine ⟨heap, .inl ⟨_, rfl, rfl, fun w => ?_⟩⟩
      have howns := h
      rw [hlinked, ← hwatchers watcher rfl] at howns
      unfold WatcherPointer.set
      rw [hcells]
      simpa [Focus.list, Focus.set] using howns
    | none =>
      by_cases hallocated : allocations.watcher = true
      · rw [if_pos hallocated, if_pos hallocated]
        refine ⟨_, .inl ⟨_, rfl, rfl, fun w => ?_⟩⟩
        have howns := h.alloc .node
        rw [hlinked] at howns
        unfold WatcherPointer.set
        rw [hcells]
        exact howns.perm (List.perm_middle.symm.trans
          (List.Perm.append_left _ (List.Perm.swap _ _ _)))
      · rw [if_neg hallocated, if_neg hallocated]
        exact ⟨_, .inr (.inl ⟨rfl, rfl, h⟩)⟩

/-! ### Requests and events -/

/-- The observed list in memory stands for one of `observe.c`: its cells are allocated, each once,
or it starts with an entry that was freed. -/
def Represents (contextP : ObservedMemory) : ObservedList → Prop
  | .intact l => Stands Memory.empty [] (contextP.heap, contextP.observedList) l
  | .freedHead next => ∃ (node : ObservedNode) (rest : List ObservedNode),
    contextP.observedList = node :: rest ∧ contextP.heap.cells node.address = none ∧
      rest.map ObservedNode.observed = next

variable {contextP : ObservedMemory}

theorem represents_intact_iff : contextP.Represents (.intact l) ↔
    Owns Memory.empty [] contextP.heap (linkedCells contextP.observedList) ∧
      contextP.observedList.map ObservedNode.observed = l := .rfl

theorem represents_set {heap' : Heap} {target : WatcherPointer}
    (h : ∀ w, Owns Memory.empty [] heap' (linkedCells (target.set w))) (w : Watcher) :
    Represents ⟨heap', target.set w⟩ (.intact (target.focus.set w)) :=
  ⟨h w, (target.focus_set w).symm⟩

theorem observeHandleRequest_agrees (allocations : Allocations) (serverList : List Server)
    (uriP : Uri) (serverP : Server) (value : DecodedValue) (time : ℤ) (message response : Packet)
    (h : contextP.Represents (.intact l)) :
    Agrees (fun result result' => Represents result.1 result'.1 ∧ result.2 = result'.2)
      (observeHandleRequest allocations serverList contextP uriP serverP value time message
        response)
      (observeHandleRequestIn allocations serverList l uriP serverP value time message
        response) := by
  obtain ⟨howns, rfl⟩ := represents_intact_iff.mp h
  refine Agrees.ite (fun _ => ?_) fun hzero => ?_
  · refine Agrees.ite (fun _ => ⟨h, rfl⟩) fun _ => ?_
    refine Agrees.ite (fun _ => ⟨h, rfl⟩) fun _ => ?_
    obtain ⟨heap', ⟨target, hget, hlist, hset⟩ | ⟨hget, hlist, hlinked⟩ |
      ⟨observedP, hget, hlist, hobserved, hfreed⟩⟩ :=
        prvGetWatcher_agrees allocations uriP serverP.ref howns
    · rw [hget, ok_bind, hlist]
      refine Agrees.ite (fun _ => ?_) fun _ => ?_
      · exact ⟨represents_set hset _, rfl⟩
      · exact ⟨represents_set hset _, rfl⟩
    · rw [hget, ok_bind, hlist]
      exact ⟨⟨hlinked, rfl⟩, rfl⟩
    · rw [hget, ok_bind, hlist]
      exact ⟨⟨observedP, _, rfl, hfreed, rfl⟩, rfl⟩
  · unfold Core.observeHandleRequest
    rw [if_neg hzero]
    obtain ⟨found, hfound, hentry, hlist⟩ := prvFindObserved_eq howns uriP
    by_cases hone : message.observe = 1
    · rw [if_pos hone, if_pos hone, hfound, ok_bind]
      rw [hentry]
      cases found with
      | none => exact ⟨h, rfl⟩
      | some entry =>
        have hmem : entry.here ∈ contextP.observedList := by
          rw [← hlist entry rfl]
          exact entry.here_mem_list
        have hread : ∀ w ∈ entry.here.watcherList, (contextP.heap.cells w.address).isSome :=
          fun w hw => howns.allocated _ (mem_linkedCells hmem (address_mem_cells hw))
        obtain ⟨found, hfound, hwatcher, -⟩ := prvFindWatcher_eq hread serverP.ref
        dsimp only [Option.map_some, Focus.map_here, observed_watcherList]
        rw [hfound, ok_bind, hwatcher]
        cases found with
        | none => exact ⟨h, rfl⟩
        | some watcher =>
          dsimp only [Option.map_some, Focus.map_here]
          rw [bind_assoc]
          refine (observeCancel_agrees serverList watcher.here.watcherP.lastMid serverP.sessionH
            howns).bind fun _ _ hstands => ?_
          exact ⟨hstands, rfl⟩
    · rw [if_neg hone, if_neg hone]
      exact ⟨h, rfl⟩

theorem observeSetParameters_agrees (allocations : Allocations) (uriP : Uri) (serverP : ServerRef)
    (attrP : Attributes) (readable : Code) (h : contextP.Represents (.intact l)) :
    Agrees (fun result result' => Represents result.1 result'.1 ∧ result.2 = result'.2)
      (observeSetParameters allocations contextP uriP serverP attrP readable)
      (observeSetParametersIn allocations l uriP serverP attrP readable) := by
  obtain ⟨howns, rfl⟩ := represents_intact_iff.mp h
  refine Agrees.ite (fun _ => ⟨h, rfl⟩) fun _ => ?_
  refine Agrees.ite (fun _ => ⟨h, rfl⟩) fun _ => ?_
  obtain ⟨heap', ⟨target, hget, hlist, hset⟩ | ⟨hget, hlist, hlinked⟩ |
    ⟨observedP, hget, hlist, hobserved, hfreed⟩⟩ :=
      prvGetWatcher_agrees allocations uriP serverP howns
  · rw [hget, ok_bind, hlist]
    refine (Agrees.refl _).bind fun clash _ hclash => ?_
    rw [← hclash]
    refine Agrees.ite (fun _ => ⟨represents_set hset _, rfl⟩) fun _ => ?_
    dsimp only [WatcherPointer.focus, Focus.map_here]
    cases target.watcher.here.watcherP.parameters with
    | none =>
      refine Agrees.ite (fun _ => ?_) fun _ => ⟨represents_set hset _, rfl⟩
      refine Agrees.ite (fun _ => ?_) fun _ => ?_
      · exact ⟨represents_set hset _, rfl⟩
      · exact ⟨represents_set hset _, rfl⟩
    | some p => exact ⟨represents_set hset _, rfl⟩
  · rw [hget, ok_bind, hlist]
    exact ⟨⟨hlinked, rfl⟩, rfl⟩
  · rw [hget, ok_bind, hlist]
    exact ⟨⟨observedP, _, rfl, hfreed, rfl⟩, rfl⟩

/-- **The memory refines the lists.**  From a list whose cells are allocated, each once, every event
does in memory what it does to the list of entries: it fails alike, or leaves what stands for the
list it leaves there. -/
theorem after_agrees (h : contextP.Represents (.intact l)) (event : ObserveEvent) :
    Agrees Represents (contextP.after event) (observedAfter l event) := by
  obtain ⟨howns, rfl⟩ := represents_intact_iff.mp h
  have hread : ∀ a ∈ linkedCells contextP.observedList, (contextP.heap.cells a).isSome :=
    howns.allocated
  cases event with
  | observe allocations serverList uriP serverP value time message response =>
    exact (observeHandleRequest_agrees allocations serverList uriP serverP value time message
      response h).bind fun result result' hresult => hresult.1
  | writeAttributes allocations uriP serverP attrP readable =>
    exact (observeSetParameters_agrees allocations uriP serverP attrP readable h).bind
      fun result result' hresult => hresult.1
  | reset serverList mid fromSessionH =>
    exact (observeCancel_agrees serverList mid fromSessionH howns).bind
      fun result result' hresult => hresult
  | clear uriP =>
    obtain ⟨result, hresult, hstands⟩ := observeClear_agrees uriP howns
    show Agrees Represents (observeClear contextP.heap uriP contextP.observedList >>= _) _
    rw [hresult]
    exact hstands
  | valueChanged uriP =>
    obtain ⟨l, hl, hcells, hobserved⟩ := lwm2mResourceValueChanged_eq uriP hread
    show Agrees Represents
      (lwm2mResourceValueChanged contextP.heap uriP contextP.observedList >>= _) _
    rw [hl]
    exact ⟨stands_of_cells howns hcells, hobserved⟩
  | step serverList input currentTime nextMID =>
    refine (observeStep_agrees serverList input currentTime nextMID hread).bind
      fun result result' hresult => ?_
    exact ⟨stands_of_cells howns hresult.2.2, hresult.1.symm⟩

end ObservedMemory

end Lwm2m.Core

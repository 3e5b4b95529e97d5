/-
# The sorted lists

`core/list.c`: the linked lists of nodes with an identifier that hold the objects, their instances,
the servers, the clients, the observations and the transactions.

A node is a cell of the memory.  The loops are cut off after some number of turns, and a read
through a pointer that leads to no node is a fault.  `SortedAt` says which nodes a pointer leads
to, in order; every function does to these nodes what its counterpart for lists of
records does (`listAdd`, `listFind`, `listRemove`, `lwm2mListNewId`), on lists in order or not.
-/

import Lwm2m.Core.BootstrapWrite
import Lwm2m.Library.Chain
import Lwm2m.Library.Fuel
import Lwm2m.Library.Memory

namespace Lwm2m.Core

open Library

/-! ### Nodes -/

/-- `lwm2m_list_t`. -/
structure Lwm2mList where
  next : Option ℕ
  id : UInt16
  deriving DecidableEq, Repr

/-- The node with another successor. -/
def Lwm2mList.withNext (next : Option ℕ) (node : Lwm2mList) : Lwm2mList := { node with next }

/-- The memory of the nodes. -/
abbrev NodeMemory := Memory Lwm2mList

/-- A read through a pointer to a node. -/
def nodeAt (m : NodeMemory) (p : ℕ) : Except Fault Lwm2mList :=
  match m.cells p with
  | some node => return node
  | none => throw .useAfterFree

/-- A write of the field `next` of a node. -/
def storeNext (m : NodeMemory) (p : ℕ) (next : Option ℕ) : Except Fault NodeMemory := do
  let _ ← nodeAt m p
  return m.modify p (.withNext next)

/-- The outcome of a function with a loop, or nothing when the loop is cut off. -/
abbrev Loop := ExceptT Fault Option

/-! ### `list.c` -/

namespace Lwm2mList

/-- The loop of `lwm2m_list_add` and of `lwm2m_list_remove`. -/
def passLower (m : NodeMemory) (id : UInt16) : ℕ → ℕ → Loop ℕ
  | 0, _ => .mk none
  | fuel + 1, target => do
    match (← nodeAt m target).next with
    | none => return target
    | some next =>
      if (← nodeAt m next).id < id then passLower m id fuel next else return target

/-- `lwm2m_list_add`. -/
def add (m : NodeMemory) (head : Option ℕ) (node : ℕ) (fuel : ℕ) :
    Loop (NodeMemory × Option ℕ) := do
  match head with
  | none => return (m, some node)
  | some head =>
    if (← nodeAt m head).id > (← nodeAt m node).id then
      let m ← storeNext m node (some head)
      return (m, some node)
    let target ← passLower m (← nodeAt m node).id fuel head
    let m ← storeNext m node (← nodeAt m target).next
    let m ← storeNext m target (some node)
    return (m, some head)

/-- The loop of `lwm2m_list_find`. -/
def skipLower (m : NodeMemory) (id : UInt16) : ℕ → Option ℕ → Loop (Option ℕ)
  | 0, _ => .mk none
  | _ + 1, none => return none
  | fuel + 1, some head => do
    if (← nodeAt m head).id < id then skipLower m id fuel (← nodeAt m head).next
    else return some head

/-- `lwm2m_list_find`. -/
def find (m : NodeMemory) (head : Option ℕ) (id : UInt16) (fuel : ℕ) : Loop (Option ℕ) := do
  match ← skipLower m id fuel head with
  | none => return none
  | some head => if (← nodeAt m head).id = id then return some head else return none

/-- `lwm2m_list_remove`: the list, and the node that `nodeP` is set to if it is not null. -/
def remove (m : NodeMemory) (head : Option ℕ) (id : UInt16) (fuel : ℕ) :
    Loop (NodeMemory × Option ℕ × Option ℕ) := do
  match head with
  | none => return (m, none, none)
  | some head =>
    if (← nodeAt m head).id = id then return (m, (← nodeAt m head).next, some head)
    let target ← passLower m id fuel head
    match (← nodeAt m target).next with
    | none => return (m, some head, none)
    | some next =>
      if (← nodeAt m next).id = id then
        let m ← storeNext m target (← nodeAt m next).next
        return (m, some head, some next)
      else return (m, some head, none)

/-- The loop of `lwm2m_list_newId`. -/
def passUsed (m : NodeMemory) : ℕ → Option ℕ → UInt16 → Loop UInt16
  | 0, _, _ => .mk none
  | _ + 1, none, id => return id
  | fuel + 1, some target, id => do
    if id = (← nodeAt m target).id then
      passUsed m fuel (← nodeAt m target).next ((← nodeAt m target).id + 1)
    else return id

/-- `lwm2m_list_newId`. -/
def newId (m : NodeMemory) (head : Option ℕ) (fuel : ℕ) : Loop UInt16 :=
  passUsed m fuel head 0

/-- `lwm2m_list_free`. -/
def free (m : NodeMemory) : ℕ → Option ℕ → Loop NodeMemory
  | 0, _ => .mk none
  | _ + 1, none => return m
  | fuel + 1, some head => do
    let nextP := (← nodeAt m head).next
    free (m.release head) fuel nextP

end Lwm2mList

/-! ### The nodes of a list -/

/-- The nodes that a pointer leads to, each with its address and its identifier. -/
def NodesAt (m : NodeMemory) (p : Option ℕ) (nodes : List (ℕ × UInt16)) (q : Option ℕ) : Prop :=
  Chain Lwm2mList.mk m.cells p nodes q

section NodesAt

variable {m m' : NodeMemory} {p q next : Option ℕ} {nodes : List (ℕ × UInt16)} {a : ℕ}
  {id : UInt16}

variable {node : Lwm2mList} {α β : Type}

theorem nodeAt_eq (h : m.cells a = some node) : nodeAt m a = .ok node := by
  rw [nodeAt, h]
  rfl

theorem storeNext_eq (h : m.cells a = some node) :
    storeNext m a next = .ok (m.modify a (.withNext next)) := by
  rw [storeNext, nodeAt_eq h]
  rfl

@[simp] theorem liftM_ok_bind (x : α) (f : α → Loop β) :
    (liftM (Except.ok x : Except Fault α) : Loop α) >>= f = f x := rfl

/-- The function ends, and returns `x` without a fault. -/
def Returns {α : Type} (run : ℕ → Loop α) (x : α) : Prop :=
  Ends (fun fuel => (run fuel).run) (.ok x)

theorem Returns.const {run : ℕ → Loop α} {x : α} (h : ∀ fuel, run fuel = pure x) :
    Returns run x :=
  ⟨0, fun fuel _ => congrArg ExceptT.run (h fuel)⟩

/-- A function with a loop in it. -/
theorem Returns.loop {loop : ℕ → Loop α} {run : ℕ → Loop β} {x : α} {y : β} (h : Returns loop x)
    (hrun : ∀ fuel, loop fuel = pure x → run fuel = pure y) :
    Returns run y := by
  obtain ⟨bound, hloop⟩ := h
  exact ⟨bound, fun fuel hle => congrArg ExceptT.run (hrun fuel (hloop fuel hle))⟩

theorem Returns.turn {run rest : ℕ → Loop α} {x : α} (hturn : ∀ fuel, run (fuel + 1) = rest fuel)
    (h : Returns rest x) : Returns run x :=
  Ends.turn (fun fuel => congrArg ExceptT.run (hturn fuel)) h

theorem injective2_mk : Function.Injective2 Lwm2mList.mk := by
  intro next next' id id' h
  cases h
  exact ⟨rfl, rfl⟩

namespace NodesAt

/-- The last node points to where the list goes on. -/
theorem cells_last (h : NodesAt m p (nodes ++ [(a, id)]) q) : m.cells a = some ⟨q, id⟩ := by
  obtain ⟨r, -, -, next, hcell, rfl⟩ := chain_append_iff.mp h
  exact hcell

/-- The last node is made to point somewhere else. -/
theorem relink (h : NodesAt m p (nodes ++ [(a, id)]) q) (ha : a ∉ nodes.map Prod.fst) :
    NodesAt (m.modify a (.withNext next)) p (nodes ++ [(a, id)]) next := by
  obtain ⟨r, hnodes, rfl, -⟩ := chain_append_iff.mp h
  exact chain_append_iff.mpr ⟨some a, hnodes.update ha, rfl, next,
    Memory.modify_cells_self h.cells_last, rfl⟩

/-- A node that is not in the list is written to. -/
theorem modify {f : Lwm2mList → Lwm2mList} (h : NodesAt m p nodes q)
    (ha : a ∉ nodes.map Prod.fst) : NodesAt (m.modify a f) p nodes q :=
  Chain.update h ha

theorem nodup (h : NodesAt m p nodes none) : (nodes.map Prod.fst).Nodup :=
  Chain.nodup injective2_mk h

end NodesAt

end NodesAt

/-! ### What the functions do -/

section Functions

namespace Lwm2mList

variable {m m' : NodeMemory} {p q next head : Option ℕ} {nodes rest : List (ℕ × UInt16)}
  {a b node : ℕ} {id i j : UInt16}

/-- **The loop stops at the last of the nodes that are passed**, or where it starts. -/
theorem passLower_returns (h : NodesAt m (some a) ((a, i) :: rest) none) :
    ∃ before x, (a, i) :: rest.takeWhile (·.2 < id) = before ++ [x] ∧
      Returns (fun fuel => passLower m id fuel a) x.1 := by
  induction rest generalizing a i with
  | nil =>
    obtain ⟨-, next, hcell, hnext⟩ := h
    cases hnext
    refine ⟨[], (a, i), rfl, .turn (fun fuel => ?_) (.const fun _ => rfl)⟩
    rw [passLower, nodeAt_eq hcell]
    rfl
  | cons c rest ih =>
    obtain ⟨b, j⟩ := c
    obtain ⟨-, next, hcell, hrest⟩ := h
    have hnext := hrest
    obtain ⟨rfl, next', hcell', -⟩ := hnext
    have hturn (fuel : ℕ) : passLower m id (fuel + 1) a =
        if j < id then passLower m id fuel b else pure a := by
      rw [passLower, nodeAt_eq hcell, liftM_ok_bind]
      dsimp only
      rw [nodeAt_eq hcell', liftM_ok_bind]
    by_cases hj : j < id
    · obtain ⟨before, x, hsplit, hreturns⟩ := ih hrest
      refine ⟨(a, i) :: before, x, ?_, .turn (fun fuel => (hturn fuel).trans (if_pos hj)) hreturns⟩
      rw [List.takeWhile_cons_of_pos (by simpa using hj), hsplit, List.cons_append]
    · refine ⟨[], (a, i), ?_,
        .turn (fun fuel => (hturn fuel).trans (if_neg hj)) (.const fun _ => rfl)⟩
      rw [List.takeWhile_cons_of_neg (by simpa using hj), List.nil_append]

/-- The nodes are cut where the loop stops. -/
theorem exists_cut (h : NodesAt m (some a) ((a, i) :: rest) none) (id : UInt16) :
    ∃ before t k q, Returns (fun fuel => passLower m id fuel a) t ∧
      (a, i) :: rest.takeWhile (·.2 < id) = before ++ [(t, k)] ∧
      ((a, i) :: rest).map Prod.fst =
        before.map Prod.fst ++ t :: (rest.dropWhile (·.2 < id)).map Prod.fst ∧
      NodesAt m (some a) (before ++ [(t, k)]) q ∧
      NodesAt m q (rest.dropWhile (·.2 < id)) none := by
  obtain ⟨before, ⟨t, k⟩, hsplit, hreturns⟩ := passLower_returns h
  have hnodes : (a, i) :: rest = before ++ [(t, k)] ++ rest.dropWhile (·.2 < id) := by
    rw [← hsplit, List.cons_append, List.takeWhile_append_dropWhile]
  rw [hnodes] at h
  obtain ⟨q, hfront, hback⟩ := chain_append_iff.mp h
  refine ⟨before, t, k, q, hreturns, hsplit, ?_, hfront, hback⟩
  rw [hnodes, List.append_assoc, List.map_append]
  rfl

/-- **`lwm2m_list_add`** makes the list that `listAdd` makes, where the first node of a list
points nowhere. -/
theorem add_returns (h : NodesAt m head nodes none) (hnode : m.cells node = some ⟨next, id⟩)
    (hnew : node ∉ nodes.map Prod.fst) (hnext : nodes = [] → next = none) :
    ∃ m' head', Returns (add m head node) (m', head') ∧
      NodesAt m' head' (listAdd Prod.snd (node, id) nodes) none ∧
      ∀ b ∉ node :: nodes.map Prod.fst, m'.cells b = m.cells b := by
  rcases nodes with _ | ⟨⟨a, i⟩, rest⟩
  · cases h
    exact ⟨m, some node, .const fun _ => rfl, ⟨rfl, next, hnode, hnext rfl⟩, fun _ _ => rfl⟩
  have hnodes := h
  obtain ⟨rfl, after, hcell, -⟩ := hnodes
  by_cases hid : i > id
  · refine ⟨m.modify node (.withNext (some a)), some node, .const fun fuel => ?_, ?_,
      fun b hb => ?_⟩
    · rw [add, nodeAt_eq hcell, nodeAt_eq hnode, liftM_ok_bind, liftM_ok_bind, if_pos hid,
        storeNext_eq hnode, liftM_ok_bind]
    · rw [listAdd, if_pos hid]
      exact ⟨rfl, some a, Memory.modify_cells_self hnode, h.modify hnew⟩
    · exact Memory.modify_cells_of_ne (List.ne_of_not_mem_cons hb)
  · obtain ⟨before, t, k, q, hreturns, hsplit, haddresses, hfront, hback⟩ := exists_cut h id
    have hnodup := h.nodup
    rw [haddresses] at hnew hnodup ⊢
    obtain ⟨hbefore, hback', hapart⟩ := List.nodup_append'.mp hnodup
    obtain ⟨htback, -⟩ := List.nodup_cons.mp hback'
    have htbefore : t ∉ before.map Prod.fst := fun ht => hapart ht List.mem_cons_self
    obtain ⟨hnewBefore, hnewBack⟩ := not_or.mp (List.mem_append.not.mp hnew)
    obtain ⟨hne, hnewBack⟩ := List.ne_and_not_mem_of_not_mem_cons hnewBack
    have hnewFront : node ∉ (before ++ [(t, k)]).map Prod.fst := by
      rw [List.map_append, List.mem_append, not_or]
      exact ⟨hnewBefore, by simpa using hne⟩
    have hfront' := hfront.modify (f := .withNext q) hnewFront
    refine ⟨(m.modify node (.withNext q)).modify t (.withNext (some node)), some a,
      hreturns.loop fun fuel hloop => ?_, ?_, fun b hb => ?_⟩
    · rw [add, nodeAt_eq hcell, nodeAt_eq hnode, liftM_ok_bind, liftM_ok_bind, if_neg hid,
        liftM_ok_bind, hloop, pure_bind, nodeAt_eq hfront.cells_last, liftM_ok_bind,
        storeNext_eq hnode, liftM_ok_bind, storeNext_eq hfront'.cells_last, liftM_ok_bind]
    · rw [listAdd, if_neg hid, hsplit]
      refine chain_append_iff.mpr ⟨some node, hfront'.relink htbefore, rfl, q, ?_,
        (hback.modify hnewBack).modify htback⟩
      rw [Memory.modify_cells_of_ne hne]
      exact Memory.modify_cells_self hnode
    · obtain ⟨hbnode, hb⟩ := List.ne_and_not_mem_of_not_mem_cons hb
      have hbt : b ≠ t := fun heq => hb (heq ▸ List.mem_append_right _ List.mem_cons_self)
      rw [Memory.modify_cells_of_ne hbt, Memory.modify_cells_of_ne hbnode]

theorem skipLower_returns (h : NodesAt m p nodes none) (id : UInt16) :
    Returns (fun fuel => skipLower m id fuel p)
      ((nodes.dropWhile (·.2 < id)).head?.map Prod.fst) := by
  induction nodes generalizing p with
  | nil =>
    cases h
    exact .turn (fun _ => rfl) (.const fun _ => rfl)
  | cons c rest ih =>
    obtain ⟨a, i⟩ := c
    obtain ⟨rfl, next, hcell, hrest⟩ := h
    have hturn (fuel : ℕ) : skipLower m id (fuel + 1) (some a) =
        if i < id then skipLower m id fuel next else pure (some a) := by
      rw [skipLower, nodeAt_eq hcell, liftM_ok_bind, liftM_ok_bind]
    by_cases hi : i < id
    · rw [List.dropWhile_cons_of_pos (by simpa using hi)]
      exact .turn (fun fuel => (hturn fuel).trans (if_pos hi)) (ih hrest)
    · rw [List.dropWhile_cons_of_neg (by simpa using hi)]
      exact .turn (fun fuel => (hturn fuel).trans (if_neg hi)) (.const fun _ => rfl)

/-- **`lwm2m_list_find`** returns the node that `listFind` finds. -/
theorem find_returns (h : NodesAt m head nodes none) (id : UInt16) :
    Returns (find m head id) ((listFind Prod.snd nodes id).map Prod.fst) := by
  refine (skipLower_returns h id).loop fun fuel hloop => ?_
  rw [find, hloop, pure_bind, listFind]
  cases hhead : (nodes.dropWhile (·.2 < id)).head? with
  | none => rfl
  | some c =>
    obtain ⟨a, i⟩ := c
    have hmem : (a, i) ∈ nodes :=
      (List.dropWhile_sublist _).mem (List.mem_of_mem_head? hhead)
    obtain ⟨next, hcell⟩ := Chain.cell_of_mem h hmem
    rw [Option.map_some]
    dsimp only
    rw [nodeAt_eq hcell, liftM_ok_bind, Option.filter_some]
    by_cases hi : i = id
    · rw [if_pos hi, if_pos (by simpa using hi)]
      rfl
    · rw [if_neg hi, if_neg (by simpa using hi)]
      rfl

/-- **`lwm2m_list_remove`** makes the list that `listRemove` makes and returns the node that it
takes out, which stays as it is. -/
theorem remove_returns (h : NodesAt m head nodes none) (id : UInt16) :
    ∃ m' head', Returns (remove m head id)
        (m', head', (listRemove Prod.snd nodes id).2.map Prod.fst) ∧
      NodesAt m' head' (listRemove Prod.snd nodes id).1 none ∧
      ∀ b ∉ (listRemove Prod.snd nodes id).1.map Prod.fst, m'.cells b = m.cells b := by
  rcases nodes with _ | ⟨⟨a, i⟩, rest⟩
  · cases h
    exact ⟨m, none, .const fun _ => rfl, rfl, fun _ _ => rfl⟩
  have hnodes := h
  obtain ⟨rfl, next, hcell, hrest⟩ := hnodes
  rw [listRemove]
  by_cases hi : i = id
  · rw [if_pos hi]
    refine ⟨m, next, .const fun fuel => ?_, hrest, fun _ _ => rfl⟩
    rw [remove, nodeAt_eq hcell, liftM_ok_bind, if_pos hi, liftM_ok_bind]
    rfl
  rw [if_neg hi]
  obtain ⟨before, t, k, q, hreturns, hsplit, haddresses, hfront, hback⟩ := exists_cut h id
  cases hdrop : rest.dropWhile (·.2 < id) with
  | nil =>
    rw [hdrop] at hback
    cases hback
    refine ⟨m, some a, hreturns.loop fun fuel hloop => ?_, h, fun _ _ => rfl⟩
    rw [remove, nodeAt_eq hcell, liftM_ok_bind, if_neg hi, hloop, pure_bind,
      nodeAt_eq hfront.cells_last, liftM_ok_bind]
    rfl
  | cons c after =>
    obtain ⟨b, j⟩ := c
    rw [hdrop] at hback haddresses
    obtain ⟨rfl, next', hcell', hafter⟩ := hback
    have hremove (fuel : ℕ) (hloop : passLower m id fuel a = pure t) :
        remove m (some a) id fuel =
          if j = id then pure (m.modify t (.withNext next'), some a, some b)
          else pure (m, some a, none) := by
      rw [remove, nodeAt_eq hcell, liftM_ok_bind, if_neg hi, hloop, pure_bind,
        nodeAt_eq hfront.cells_last, liftM_ok_bind]
      dsimp only
      rw [nodeAt_eq hcell', liftM_ok_bind, liftM_ok_bind, storeNext_eq hfront.cells_last,
        liftM_ok_bind]
    dsimp only
    by_cases hj : j = id
    · have hnodup := h.nodup
      rw [haddresses] at hnodup
      obtain ⟨-, hback, hapart⟩ := List.nodup_append'.mp hnodup
      have htbefore : t ∉ before.map Prod.fst := fun ht => hapart ht List.mem_cons_self
      have htafter : t ∉ after.map Prod.fst := fun ht =>
        (List.nodup_cons.mp hback).1 (List.mem_cons_of_mem b ht)
      rw [if_pos hj, hsplit]
      refine ⟨m.modify t (.withNext next'), some a,
        hreturns.loop fun fuel hloop => (hremove fuel hloop).trans (if_pos hj),
        chain_append_iff.mpr ⟨next', hfront.relink htbefore, Chain.update hafter htafter⟩,
        fun c hc => Memory.modify_cells_of_ne fun heq => hc ?_⟩
      subst heq
      simp
    · rw [if_neg hj]
      exact ⟨m, some a, hreturns.loop fun fuel hloop => (hremove fuel hloop).trans (if_neg hj), h,
        fun _ _ => rfl⟩

theorem passUsed_returns (h : NodesAt m p nodes none) (id : UInt16) :
    Returns (fun fuel => passUsed m fuel p id) (newIdFrom id (nodes.map Prod.snd)) := by
  induction nodes generalizing p id with
  | nil =>
    cases h
    exact .turn (fun _ => rfl) (.const fun _ => rfl)
  | cons c rest ih =>
    obtain ⟨a, i⟩ := c
    obtain ⟨rfl, next, hcell, hrest⟩ := h
    have hturn (fuel : ℕ) : passUsed m (fuel + 1) (some a) id =
        if id = i then passUsed m fuel next (i + 1) else pure id := by
      rw [passUsed, nodeAt_eq hcell, liftM_ok_bind, liftM_ok_bind, liftM_ok_bind]
    rw [List.map_cons, newIdFrom]
    by_cases hi : id = i
    · rw [if_pos hi]
      exact .turn (fun fuel => (hturn fuel).trans (if_pos hi)) (ih hrest (i + 1))
    · rw [if_neg hi]
      exact .turn (fun fuel => (hturn fuel).trans (if_neg hi)) (.const fun _ => rfl)

/-- **`lwm2m_list_newId`** returns what `lwm2mListNewId` returns for the identifiers. -/
theorem newId_returns (h : NodesAt m head nodes none) :
    Returns (newId m head) (lwm2mListNewId (nodes.map Prod.snd)) :=
  passUsed_returns h 0

/-- **`lwm2m_list_free`** frees the nodes of the list and no others. -/
theorem free_returns (h : NodesAt m p nodes none) :
    ∃ m', Returns (fun fuel => free m fuel p) m' ∧
      ∀ b, m'.cells b = if b ∈ nodes.map Prod.fst then none else m.cells b := by
  induction nodes generalizing m p with
  | nil =>
    cases h
    exact ⟨m, .turn (fun _ => rfl) (.const fun _ => rfl), fun b => (if_neg List.not_mem_nil).symm⟩
  | cons c rest ih =>
    obtain ⟨a, i⟩ := c
    have hnodup := h.nodup
    obtain ⟨rfl, next, hcell, hrest⟩ := h
    obtain ⟨ha, -⟩ := List.nodup_cons.mp hnodup
    obtain ⟨m', hreturns, hcells⟩ := ih (m := m.release a) (p := next) (Chain.update hrest ha)
    refine ⟨m', .turn (fun fuel => ?_) hreturns, fun b => ?_⟩
    · rw [free, nodeAt_eq hcell, liftM_ok_bind]
    · rw [hcells, List.map_cons]
      by_cases hb : b = a
      · rw [if_neg (hb ▸ ha), if_pos (hb ▸ List.mem_cons_self), hb]
        exact Function.update_self ..
      · simp only [Memory.release_cells_of_ne hb, List.mem_cons, hb, false_or]

end Lwm2mList

end Functions

/-! ### Records in order -/

section Records

variable {α : Type*} {id : α → UInt16} {list : List α} {x : α} {key : UInt16}

theorem listFind_eq_some_iff (h : list.Pairwise (id · < id ·)) :
    listFind id list key = some x ↔ x ∈ list ∧ id x = key := by
  constructor
  · exact mem_of_listFind
  · rintro ⟨hx, rfl⟩
    exact listFind_of_mem h hx

/-- A search that takes no record out leaves the list. -/
theorem listRemove_of_none (h : (listRemove id list key).2 = none) :
    listRemove id list key = (list, none) := by
  cases list with
  | nil => rfl
  | cons head tail =>
    simp only [listRemove] at h ⊢
    split_ifs at h ⊢ with hhead
    split at h
    next node rest hdrop =>
      split_ifs at h with hnode
      exact if_neg hnode
    next => rfl

/-- The record with the key is taken out, and the others stay in order. -/
theorem listRemove_of_mem (h : list.Pairwise (id · < id ·)) (hx : x ∈ list) :
    listRemove id list (id x) = (list.filter (id · ≠ id x), some x) := by
  obtain ⟨before, after, rfl⟩ := List.append_of_mem hx
  obtain ⟨-, hback, hacross⟩ := List.pairwise_append.mp h
  have hbefore : ∀ y ∈ before, id y < id x := fun y hy => hacross y hy x List.mem_cons_self
  have hafter : ∀ y ∈ after, id x < id y := (List.pairwise_cons.mp hback).1
  have hothers : ∀ y ∈ before ++ after, decide (id y ≠ id x) = true := by
    intro y hy
    rcases List.mem_append.mp hy with hy | hy
    · exact decide_eq_true (UInt16.ne_of_lt (hbefore y hy))
    · exact decide_eq_true (UInt16.ne_of_lt (hafter y hy)).symm
  rw [listRemove_append hbefore, List.filter_append, List.filter_cons_of_neg (by simp),
    ← List.filter_append, List.filter_eq_self.mpr hothers]

/-- Where no record has the key the list stays as it is. -/
theorem listRemove_of_forall_ne (h : ∀ y ∈ list, id y ≠ key) :
    listRemove id list key = (list, none) := by
  refine listRemove_of_none (Option.eq_none_iff_forall_ne_some.mpr fun y hy => ?_)
  have hremove : listRemove id list key = ((listRemove id list key).1, some y) := Prod.ext rfl hy
  exact h y ((listRemove_perm hremove).mem_iff.mpr List.mem_cons_self) (id_of_listRemove hremove)

theorem listRemove_fst (h : list.Pairwise (id · < id ·)) :
    (listRemove id list key).1 = list.filter (id · ≠ key) := by
  by_cases hkey : ∃ y ∈ list, id y = key
  · obtain ⟨y, hy, rfl⟩ := hkey
    rw [listRemove_of_mem h hy]
  · push Not at hkey
    rw [listRemove_of_forall_ne hkey]
    exact (List.filter_eq_self.mpr fun y hy => decide_eq_true (hkey y hy)).symm

theorem listRemove_snd_eq_some_iff (h : list.Pairwise (id · < id ·)) :
    (listRemove id list key).2 = some x ↔ x ∈ list ∧ id x = key := by
  constructor
  · intro hx
    have hremove : listRemove id list key = ((listRemove id list key).1, some x) := Prod.ext rfl hx
    exact ⟨(listRemove_perm hremove).mem_iff.mpr List.mem_cons_self, id_of_listRemove hremove⟩
  · rintro ⟨hx, rfl⟩
    rw [listRemove_of_mem h hx]

end Records

/-! ### The operations on a list in order -/

/-- A pointer leads to the nodes, and their identifiers increase. -/
structure SortedAt (m : NodeMemory) (head : Option ℕ) (nodes : List (ℕ × UInt16)) : Prop where
  nodesAt : NodesAt m head nodes none
  sorted : nodes.Pairwise (·.2 < ·.2)

section Operations

variable (m : NodeMemory) (head : Option ℕ) (nodes : List (ℕ × UInt16))

/-- `lwm2m_list_add` keeps the order and adds the node and no other one. -/
def AddsNode (node : ℕ) (id : UInt16) : Prop :=
  ∃ m' head' nodes', Returns (Lwm2mList.add m head node) (m', head') ∧
    SortedAt m' head' nodes' ∧ nodes'.Perm ((node, id) :: nodes) ∧
    ∀ b ∉ node :: nodes.map Prod.fst, m'.cells b = m.cells b

/-- `lwm2m_list_find` returns the node with the identifier, if there is one. -/
def FindsNode (id : UInt16) : Prop :=
  ∃ found, Returns (Lwm2mList.find m head id) found ∧ ∀ a, found = some a ↔ (a, id) ∈ nodes

/-- `lwm2m_list_remove` returns the node with the identifier, if there is one, and the list of the
others in order. -/
def UnlinksNode (id : UInt16) : Prop :=
  ∃ m' head' node, Returns (Lwm2mList.remove m head id) (m', head', node) ∧
    (∀ a, node = some a ↔ (a, id) ∈ nodes) ∧ SortedAt m' head' (nodes.filter (·.2 ≠ id)) ∧
    ∀ b ∉ nodes.map Prod.fst, m'.cells b = m.cells b

/-- The node that `lwm2m_list_remove` returns points nowhere. -/
def ClearsNext (id : UInt16) : Prop :=
  ∀ m' head' a, Returns (Lwm2mList.remove m head id) (m', head', some a) →
    ∃ node, m'.cells a = some node ∧ node.next = none

/-- The node that `lwm2m_list_remove` returns is as it was. -/
def LeavesNode (id : UInt16) : Prop :=
  ∀ m' head' a, Returns (Lwm2mList.remove m head id) (m', head', some a) →
    m'.cells a = m.cells a

/-- `lwm2m_list_newId` returns the smallest free identifier, and the reserved one only when every
other one is used. -/
def SmallestFree : Prop :=
  ∃ id, Returns (Lwm2mList.newId m head) id ∧ id ∉ nodes.map Prod.snd ∧
    (∀ j < id, j ∈ nodes.map Prod.snd) ∧
    ((∃ j < lwm2mMaxId, j ∉ nodes.map Prod.snd) → id ≠ lwm2mMaxId)

/-- The four operations, for every node with a new identifier and for every identifier. -/
structure ListOperations : Prop where
  add : ∀ node next id, m.cells node = some ⟨next, id⟩ → (∀ c ∈ nodes, c.2 ≠ id) →
    AddsNode m head nodes node id
  find : ∀ id, FindsNode m head nodes id
  remove : ∀ id, UnlinksNode m head nodes id ∧ ClearsNext m head id
  newId : SmallestFree m head nodes

variable {m head nodes} {next : Option ℕ} {node : ℕ} {id : UInt16}

theorem addsNode (h : SortedAt m head nodes) (hnode : m.cells node = some ⟨next, id⟩)
    (hid : ∀ c ∈ nodes, c.2 ≠ id) (hnext : nodes = [] → next = none) :
    AddsNode m head nodes node id := by
  have hnew : node ∉ nodes.map Prod.fst := by
    intro hmem
    obtain ⟨⟨a, i⟩, hc, rfl⟩ := List.mem_map.mp hmem
    obtain ⟨next', hcell⟩ := Chain.cell_of_mem h.nodesAt hc
    cases hnode.symm.trans hcell
    exact hid _ hc rfl
  obtain ⟨m', head', hreturns, hnodes, hcells⟩ :=
    Lwm2mList.add_returns h.nodesAt hnode hnew hnext
  exact ⟨m', head', _, hreturns, ⟨hnodes, listAdd_pairwise h.sorted hid⟩, listAdd_perm _ _, hcells⟩

theorem findsNode (h : SortedAt m head nodes) (id : UInt16) : FindsNode m head nodes id := by
  refine ⟨_, Lwm2mList.find_returns h.nodesAt id, fun a => ?_⟩
  rw [Option.map_eq_some_iff]
  simp only [listFind_eq_some_iff h.sorted]
  constructor
  · rintro ⟨⟨a, i⟩, ⟨hc, rfl⟩, rfl⟩
    exact hc
  · exact fun hc => ⟨(a, id), ⟨hc, rfl⟩, rfl⟩

theorem unlinksNode (h : SortedAt m head nodes) (id : UInt16) : UnlinksNode m head nodes id := by
  obtain ⟨m', head', hreturns, hnodes, hcells⟩ := Lwm2mList.remove_returns h.nodesAt id
  rw [listRemove_fst h.sorted] at hnodes hcells
  refine ⟨m', head', _, hreturns, fun a => ?_, ⟨hnodes, h.sorted.filter _⟩, fun b hb => ?_⟩
  · rw [Option.map_eq_some_iff]
    constructor
    · rintro ⟨c, hc, rfl⟩
      obtain ⟨hmem, rfl⟩ := (listRemove_snd_eq_some_iff h.sorted).mp hc
      exact hmem
    · exact fun hc => ⟨(a, id), (listRemove_snd_eq_some_iff h.sorted).mpr ⟨hc, rfl⟩, rfl⟩
  · refine hcells b fun hmem => hb ?_
    obtain ⟨c, hc, rfl⟩ := List.mem_map.mp hmem
    exact List.mem_map_of_mem (List.mem_of_mem_filter hc)

theorem leavesNode (h : SortedAt m head nodes) (id : UInt16) : LeavesNode m head id := by
  intro m' head' a hremove
  obtain ⟨m₁, head₁, hreturns, -, hcells⟩ := Lwm2mList.remove_returns h.nodesAt id
  have heq := Except.ok.inj (hremove.unique hreturns)
  simp only [Prod.mk.injEq] at heq
  obtain ⟨rfl, -, hnode⟩ := heq
  obtain ⟨c, hc, rfl⟩ := Option.map_eq_some_iff.mp hnode.symm
  -- The addresses differ, so the node that is taken out is none of the rest.
  have hperm := listRemove_perm (Prod.ext rfl hc : listRemove Prod.snd nodes id = (_, some c))
  have hnodup := (hperm.map Prod.fst).nodup_iff.mp h.nodesAt.nodup
  exact hcells c.1 (List.nodup_cons.mp hnodup).1

theorem smallestFree (h : SortedAt m head nodes) (hfree : ∃ id, id ∉ nodes.map Prod.snd) :
    SmallestFree m head nodes := by
  have hsorted : (nodes.map Prod.snd).Pairwise (· < ·) := List.pairwise_map.mpr h.sorted
  obtain ⟨x, hx⟩ := hfree
  obtain ⟨hnot, -⟩ := lwm2mListNewId_spec hsorted hx
  have hlower := (lwm2mListNewId_spec hsorted hnot).2.mp rfl
  refine ⟨_, Lwm2mList.newId_returns h.nodesAt, hnot, hlower, ?_⟩
  rintro ⟨j, hj, hfree⟩ hmax
  exact hfree (hlower j (hmax ▸ hj))

/-- **The lists stay in order.**  A node is added, found and unlinked as it is asked for, and the
smallest free identifier is returned where there is one; a node that is unlinked keeps its pointer
to the node behind it, so that it is to be cleared before it is added to an empty list. -/
theorem listOperations (h : SortedAt m head nodes) :
    (∀ node next id, m.cells node = some ⟨next, id⟩ → (∀ c ∈ nodes, c.2 ≠ id) →
      (nodes = [] → next = none) → AddsNode m head nodes node id) ∧
    (∀ id, FindsNode m head nodes id) ∧
    (∀ id, UnlinksNode m head nodes id ∧ LeavesNode m head id) ∧
    ((∃ id, id ∉ nodes.map Prod.snd) → SmallestFree m head nodes) :=
  ⟨fun _ _ _ hnode hid hnext => addsNode h hnode hid hnext, findsNode h,
    fun id => ⟨unlinksNode h id, leavesNode h id⟩, smallestFree h⟩

/-- Two nodes of a list, and one that is in no list. -/
def threeNodes : NodeMemory :=
  (((Memory.empty.alloc ⟨none, 2⟩).1.alloc ⟨some 0, 1⟩).1.alloc ⟨none, 5⟩).1

theorem sortedAt_threeNodes : SortedAt threeNodes (some 1) [(1, 1), (0, 2)] :=
  ⟨⟨rfl, some 0, rfl, rfl, none, rfl, rfl⟩, by decide⟩

/-- The list is freed. -/
theorem threeNodes_freed :
    ∃ m', Returns (fun fuel => Lwm2mList.free threeNodes fuel (some 1)) m' ∧
      ∀ b, m'.cells b = if b ∈ [1, 0] then none else threeNodes.cells b :=
  Lwm2mList.free_returns sortedAt_threeNodes.nodesAt

theorem listOperations_threeNodes :
    AddsNode threeNodes (some 1) [(1, 1), (0, 2)] 2 5 ∧
      FindsNode threeNodes (some 1) [(1, 1), (0, 2)] 2 ∧
      UnlinksNode threeNodes (some 1) [(1, 1), (0, 2)] 1 ∧
      SmallestFree threeNodes (some 1) [(1, 1), (0, 2)] := by
  obtain ⟨hadd, hfind, hremove, hnewId⟩ := listOperations sortedAt_threeNodes
  exact ⟨hadd 2 none 5 rfl (by decide) (by decide), hfind 2, (hremove 1).1, hnewId ⟨0, by decide⟩⟩

/-- A list with every identifier in it. -/
def everyNode : NodeMemory where
  cells a :=
    if a < 2 ^ 16 then some ⟨if a + 1 < 2 ^ 16 then some (a + 1) else none, UInt16.ofNat a⟩
    else none
  frontier := 2 ^ 16
  fresh _ ha := if_neg (Nat.not_lt.mpr ha)

/-- The addresses from one on, with the identifiers there. -/
def nodesFrom (k n : ℕ) : List (ℕ × UInt16) :=
  (List.range' k n).map fun a => (a, UInt16.ofNat a)

theorem nodesAt_everyNode (n k : ℕ) (h : k + n = 2 ^ 16) :
    NodesAt everyNode (if k < 2 ^ 16 then some k else none) (nodesFrom k n) none := by
  induction n generalizing k with
  | zero => exact if_neg (by omega)
  | succ n ih =>
    have hk : k < 2 ^ 16 := by omega
    exact ⟨if_pos hk, _, if_pos hk, ih (k + 1) (by omega)⟩

theorem sortedAt_everyNode : SortedAt everyNode (some 0) (nodesFrom 0 (2 ^ 16)) := by
  refine ⟨nodesAt_everyNode (2 ^ 16) 0 rfl, List.pairwise_map.mpr ?_⟩
  refine List.Pairwise.imp_of_mem (fun {a b} _ hb hab => ?_) List.pairwise_lt_range'
  have hlt : b < 2 ^ 16 := by simpa [List.mem_range'_1] using hb
  rw [UInt16.lt_iff_toNat_lt, UInt16.toNat_ofNat_of_lt' hlt,
    UInt16.toNat_ofNat_of_lt' (Nat.lt_trans hab hlt)]
  exact hab

theorem mem_everyNode (id : UInt16) : id ∈ (nodesFrom 0 (2 ^ 16)).map Prod.snd := by
  have hmem : id.toNat ∈ List.range' 0 (2 ^ 16) := by
    rw [List.mem_range'_1]
    exact ⟨Nat.zero_le _, by simpa using id.toNat_lt⟩
  rw [nodesFrom, List.map_map]
  exact List.mem_map.mpr ⟨id.toNat, hmem, UInt16.ofNat_toNat⟩

/-- The first of two nodes still points to the second one when it is unlinked, and the
second one comes along when the first one is added to an empty list; and where every identifier is
used there is none to return. -/
theorem unlinked_next_stays :
    (SortedAt threeNodes (some 1) [(1, 1), (0, 2)] ∧
      ¬ ListOperations threeNodes (some 1) [(1, 1), (0, 2)]) ∧
    (SortedAt threeNodes none [] ∧ ¬ AddsNode threeNodes none [] 1 1) ∧
    SortedAt everyNode (some 0) (nodesFrom 0 (2 ^ 16)) ∧
      ¬ SmallestFree everyNode (some 0) (nodesFrom 0 (2 ^ 16)) := by
  refine ⟨⟨sortedAt_threeNodes, fun h => ?_⟩, ⟨⟨rfl, .nil⟩, ?_⟩, sortedAt_everyNode,
    fun ⟨id, _, hfree, _⟩ => hfree (mem_everyNode id)⟩
  · obtain ⟨node, hnode, hnext⟩ := (h.remove 1).2 threeNodes (some 0) 1 (.const fun _ => rfl)
    cases hnode
    cases hnext
  · rintro ⟨m', head', nodes', hreturns, hsorted, hperm, -⟩
    have hadd : Returns (Lwm2mList.add threeNodes none 1) (threeNodes, some 1) :=
      .const fun _ => rfl
    cases hreturns.unique hadd
    have hnodes := hsorted.nodesAt.unique injective2_mk sortedAt_threeNodes.nodesAt
    rw [hnodes] at hperm
    exact absurd hperm.length_eq (by decide)

end Operations

end Lwm2m.Core

/-
# Stripping a resource tree

`json_dataStrip` of `data/json_common.c` with `lwm2m_data_new` and `lwm2m_data_free` of
`data/data.c`, on items with the addresses of their blocks.

A buffer goes to the copy of its item and is taken from the input, and the arrays of the copy are
new, so no block belongs to both (`jsonDataStrip_disjoint`).  The number that is returned is the one
of the items of the input, though: the slots of skipped containers stay at the end of the array
and are counted, and a container of nothing but empty ones is kept.
-/

import Lwm2m.Codec.Tree
import Mathlib.Data.List.Nodup
import Mathlib.Tactic.SplitIfs

namespace Lwm2m.Codec

open Core

/-! ### Items in memory -/

/-- `lwm2m_data_t`.  The addresses are those of `asBuffer.buffer`, for a value that is held in a
buffer, and of `asChildren.array`; `count` is the number of children. -/
inductive DataItem
  | leaf (id : UInt16) (value : Leaf) (buffer : Option ℕ)
  | container (id : UInt16) (type : ContainerType) (array : Option ℕ) (children : List DataItem)
  deriving Repr

namespace DataItem

/-- An item of zeros. -/
def zero : DataItem := .leaf 0 .undefined none

mutual

/-- The tree that an item is the root of. -/
def tree : DataItem → Tree
  | .leaf id value _ => .leaf id value
  | .container id type _ children => .container id type (trees children)

/-- The trees of an array. -/
def trees : List DataItem → List Tree
  | [] => []
  | item :: items => item.tree :: trees items

end

mutual

/-- The arrays that an item owns. -/
def arrays : DataItem → List ℕ
  | .leaf _ _ _ => []
  | .container _ _ array children => array.toList ++ arraysAll children

/-- The arrays that the items of an array own. -/
def arraysAll : List DataItem → List ℕ
  | [] => []
  | item :: items => item.arrays ++ arraysAll items

end

mutual

/-- The buffers that an item owns. -/
def buffers : DataItem → List ℕ
  | .leaf _ value buffer =>
    match value with
    | .string _ | .opaqueBytes _ | .coreLink _ => buffer.toList
    | _ => []
  | .container _ _ _ children => buffersAll children

/-- The buffers that the items of an array own. -/
def buffersAll : List DataItem → List ℕ
  | [] => []
  | item :: items => item.buffers ++ buffersAll items

end

/-- The blocks of an array: itself, and what its items own. -/
def blocks (array : Option ℕ) (items : List DataItem) : List ℕ :=
  array.toList ++ (arraysAll items ++ buffersAll items)

end DataItem

open DataItem

/-! ### The functions -/

/-- `lwm2m_data_new`: the address of the array, its items, and the next address. -/
def lwm2mDataNew (next : ℕ) (size : ℤ) : Option (ℕ × List DataItem × ℕ) :=
  if size ≤ 0 then none else some (next, List.replicate size.toNat .zero, next + 1)

/-- What `json_dataStrip` returns, `*resultP` with the items there, the items of the input behind
the call, and the next address. -/
structure Stripped where
  result : ℤ
  address : Option ℕ
  resultP : List DataItem
  dataP : List DataItem
  next : ℕ

/-- The loop of `json_dataStrip`: the slots, the next one to be filled, and the items of the input
behind it. -/
structure StripState where
  resultP : List DataItem
  j : ℕ
  dataP : List DataItem
  next : ℕ

/-- `json_dataStrip` around its loop. -/
def stripArray (next : ℕ) (size : ℤ) (dataP : List DataItem)
    (loop : ℕ → StripState → StripState) : Stripped :=
  match lwm2mDataNew next size with
  | none => ⟨-1, none, [], dataP, next⟩
  | some (address, resultP, next) =>
    let s := loop size.toNat ⟨resultP, 0, [], next⟩
    ⟨size, some address, s.resultP, s.dataP, s.next⟩

mutual

/-- A turn of the loop of `json_dataStrip`. -/
def stripItem : DataItem → StripState → StripState
  | .leaf id value buffer, s =>
    let rest :=
      match value with
      | .string _ => .leaf id (.string []) none
      | .opaqueBytes _ => .leaf id (.opaqueBytes []) none
      | .coreLink _ => .leaf id (.coreLink []) none
      | _ => .leaf id value buffer
    ⟨s.resultP.set s.j (.leaf id value buffer), s.j + 1, s.dataP ++ [rest], s.next⟩
  | .container id type array children, s =>
    let child := stripArray s.next (Int32.ofNat children.length).toInt children
      fun size s => stripLoop children size s
    let slot := .container id type child.address (child.resultP.take child.result.toNat)
    -- where the item is skipped, `j` is taken back: the slot is the one of the next item
    ⟨s.resultP.set s.j slot, if child.result ≤ 0 then s.j else s.j + 1,
      s.dataP ++ [.container id type array child.dataP], child.next⟩

/-- The loop of `json_dataStrip` over the first items of an array. -/
def stripLoop : List DataItem → ℕ → StripState → StripState
  | [], _, s => s
  | item :: items, 0, s => { s with dataP := s.dataP ++ item :: items }
  | item :: items, size + 1, s => stripLoop items size (stripItem item s)

end

/-- `json_dataStrip`. -/
def jsonDataStrip (next : ℕ) (size : ℤ) (dataP : List DataItem) : Stripped :=
  stripArray next size dataP (stripLoop dataP)

/-- `lwm2m_data_free` around its loop: the blocks that are released. -/
def freeArray (dataP : Option ℕ) (items : List DataItem) (loop : List ℕ) : List ℕ :=
  match dataP with
  | none => []
  | some address => if items.length = 0 then [] else loop ++ [address]

mutual

/-- A turn of the loop of `lwm2m_data_free`. -/
def freeItem : DataItem → List ℕ
  | .leaf _ value buffer =>
    match value with
    | .string _ | .opaqueBytes _ | .coreLink _ => buffer.toList
    | _ => []
  | .container _ _ array children => freeArray array children (freeLoop children)

/-- The loop of `lwm2m_data_free`. -/
def freeLoop : List DataItem → List ℕ
  | [] => []
  | item :: items => freeItem item ++ freeLoop items

end

/-- `lwm2m_data_free`: the blocks that are released. -/
def lwm2mDataFree (dataP : Option ℕ) (items : List DataItem) : List ℕ :=
  freeArray dataP items (freeLoop items)

/-! ### What is to be kept -/

mutual

/-- What is to be kept of an item: a container only when something in it is. -/
def keptTree : Tree → Option Tree
  | .leaf id value => some (.leaf id value)
  | .container id type children =>
    if keptTrees children = [] then none else some (.container id type (keptTrees children))

/-- What is to be kept of an array. -/
def keptTrees : List Tree → List Tree
  | [] => []
  | item :: items => (keptTree item).toList ++ keptTrees items

end

mutual

/-- There is no empty container in the tree. -/
def IsPopulated : Tree → Prop
  | .leaf _ _ => True
  | .container _ _ children => children ≠ [] ∧ AllPopulated children

/-- There is no empty container in the trees. -/
def AllPopulated : List Tree → Prop
  | [] => True
  | item :: items => IsPopulated item ∧ AllPopulated items

end

mutual

/-- The arrays below an item are of sizes that `lwm2m_data_new` takes. -/
def Sized : DataItem → Prop
  | .leaf _ _ _ => True
  | .container _ _ _ children => children.length < 2 ^ 31 ∧ AllSized children

/-- The arrays below the items are of sizes that `lwm2m_data_new` takes. -/
def AllSized : List DataItem → Prop
  | [] => True
  | item :: items => Sized item ∧ AllSized items

end

/-- The input of a call: its arrays are of `lwm2m_data_new`, and every block is allocated and has
one owner. -/
structure StripInput (next array : ℕ) (dataP : List DataItem) : Prop where
  sized : dataP.length < 2 ^ 31 ∧ AllSized dataP
  nodup : (blocks (some array) dataP).Nodup
  lt_next : ∀ a ∈ blocks (some array) dataP, a < next

/-- **An array is stripped exactly**: the number of the items that are to be kept is returned, they
are in the array of the result, and no block is owned by the input and by the result. -/
def StripsExactly (next array : ℕ) (dataP : List DataItem) : Prop :=
  let s := jsonDataStrip next dataP.length dataP
  s.result = (keptTrees (trees dataP)).length ∧
    trees (s.resultP.take s.result.toNat) = keptTrees (trees dataP) ∧
    ∀ a ∈ blocks (some array) s.dataP, a ∉ blocks s.address s.resultP

/-! ### Induction -/

/-- Induction over the items of an array and those below them. -/
theorem items_induction {P : List DataItem → Prop} (nil : P [])
    (leaf : ∀ id value buffer next, P next → P (.leaf id value buffer :: next))
    (container : ∀ id type array children next, P children → P next →
      P (.container id type array children :: next)) : ∀ l, P l
  | [] => nil
  | .leaf id value buffer :: next =>
    leaf id value buffer next (items_induction nil leaf container next)
  | .container id type array children :: next =>
    container id type array children next (items_induction nil leaf container children)
      (items_induction nil leaf container next)

/-- Induction from the arrays of the containers among some items to the array of them. -/
theorem array_induction {P : List DataItem → Prop}
    (h : ∀ items, (∀ id type array children, .container id type array children ∈ items →
      P children) → P items) (items : List DataItem) : P items := by
  refine h items ?_
  induction items using items_induction with
  | nil => exact fun _ _ _ _ hmem => absurd hmem List.not_mem_nil
  | leaf id value buffer next ih =>
    intro _ _ _ _ hmem
    rcases List.mem_cons.mp hmem with heq | hmem
    · cases heq
    · exact ih _ _ _ _ hmem
  | container id type array children next ihChildren ih =>
    intro _ _ _ _ hmem
    rcases List.mem_cons.mp hmem with heq | hmem
    · cases heq
      exact h _ ihChildren
    · exact ih _ _ _ _ hmem

/-! ### The parts of an array -/

variable {item : DataItem} {children items : List DataItem}

section

variable {items items' : List DataItem} {a : ℕ}

theorem trees_eq_map (items : List DataItem) : trees items = items.map tree := by
  induction items with
  | nil => rfl
  | cons item items ih => rw [trees, ih, List.map_cons]

theorem arraysAll_eq_flatMap (items : List DataItem) : arraysAll items = items.flatMap arrays := by
  induction items with
  | nil => rfl
  | cons item items ih => rw [arraysAll, ih, List.flatMap_cons]

theorem buffersAll_eq_flatMap (items : List DataItem) :
    buffersAll items = items.flatMap buffers := by
  induction items with
  | nil => rfl
  | cons item items ih => rw [buffersAll, ih, List.flatMap_cons]

theorem mem_arraysAll : a ∈ arraysAll items ↔ ∃ item ∈ items, a ∈ item.arrays := by
  rw [arraysAll_eq_flatMap, List.mem_flatMap]

theorem mem_buffersAll : a ∈ buffersAll items ↔ ∃ item ∈ items, a ∈ item.buffers := by
  rw [buffersAll_eq_flatMap, List.mem_flatMap]

theorem arraysAll_append : arraysAll (items ++ items') = arraysAll items ++ arraysAll items' := by
  simp only [arraysAll_eq_flatMap, List.flatMap_append]

theorem buffersAll_append :
    buffersAll (items ++ items') = buffersAll items ++ buffersAll items' := by
  simp only [buffersAll_eq_flatMap, List.flatMap_append]

theorem mem_arraysAll_of_subset (h : items ⊆ items') (ha : a ∈ arraysAll items) :
    a ∈ arraysAll items' := by
  obtain ⟨item, hitem, ha⟩ := mem_arraysAll.mp ha
  exact mem_arraysAll.mpr ⟨item, h hitem, ha⟩

theorem mem_buffersAll_of_subset (h : items ⊆ items') (ha : a ∈ buffersAll items) :
    a ∈ buffersAll items' := by
  obtain ⟨item, hitem, ha⟩ := mem_buffersAll.mp ha
  exact mem_buffersAll.mpr ⟨item, h hitem, ha⟩

theorem mem_arraysAll_set {j : ℕ} (ha : a ∈ arraysAll (items.set j item)) :
    a ∈ arraysAll items ∨ a ∈ item.arrays := by
  obtain ⟨item', hitem, hblock⟩ := mem_arraysAll.mp ha
  rcases List.mem_or_eq_of_mem_set hitem with hitem | rfl
  · exact .inl (mem_arraysAll.mpr ⟨item', hitem, hblock⟩)
  · exact .inr hblock

theorem mem_buffersAll_set {j : ℕ} (ha : a ∈ buffersAll (items.set j item)) :
    a ∈ buffersAll items ∨ a ∈ item.buffers := by
  obtain ⟨item', hitem, hblock⟩ := mem_buffersAll.mp ha
  rcases List.mem_or_eq_of_mem_set hitem with hitem | rfl
  · exact .inl (mem_buffersAll.mpr ⟨item', hitem, hblock⟩)
  · exact .inr hblock

theorem arraysAll_replicate_zero (n : ℕ) : arraysAll (List.replicate n .zero) = [] := by
  rw [arraysAll_eq_flatMap, List.flatMap_eq_nil_iff]
  exact fun item h => (List.eq_of_mem_replicate h) ▸ rfl

theorem buffersAll_replicate_zero (n : ℕ) : buffersAll (List.replicate n .zero) = [] := by
  rw [buffersAll_eq_flatMap, List.flatMap_eq_nil_iff]
  exact fun item h => (List.eq_of_mem_replicate h) ▸ rfl

end

/-! ### Who owns the blocks -/

/-- What the loop does with the blocks of the items: their buffers go to the result, whose arrays
are new. -/
structure MovesBlocks (items : List DataItem) (s s' : StripState) : Prop where
  next_le : s.next ≤ s'.next
  arrays_dataP : arraysAll s'.dataP = arraysAll s.dataP ++ arraysAll items
  buffers_dataP : buffersAll s'.dataP = buffersAll s.dataP
  arrays_resultP : ∀ a ∈ arraysAll s'.resultP, a ∈ arraysAll s.resultP ∨ s.next ≤ a
  buffers_resultP :
    ∀ a ∈ buffersAll s'.resultP, a ∈ buffersAll s.resultP ∨ a ∈ buffersAll items

/-- What a call does with the blocks of the items. -/
structure Detaches (items : List DataItem) (next : ℕ) (s : Stripped) : Prop where
  next_le : next ≤ s.next
  arrays_dataP : arraysAll s.dataP = arraysAll items
  buffers_dataP : buffersAll s.dataP = []
  arrays_resultP : ∀ a ∈ s.address.toList ++ arraysAll s.resultP, next ≤ a
  buffers_resultP : ∀ a ∈ buffersAll s.resultP, a ∈ buffersAll items

section

variable {items : List DataItem} {s s' s'' : StripState} {next : ℕ}

theorem MovesBlocks.refl (s : StripState) : MovesBlocks [] s s where
  next_le := le_rfl
  arrays_dataP := (List.append_nil _).symm
  buffers_dataP := rfl
  arrays_resultP _ := .inl
  buffers_resultP _ := .inl

theorem MovesBlocks.cons (h : MovesBlocks [item] s s') (h' : MovesBlocks items s' s'') :
    MovesBlocks (item :: items) s s'' where
  next_le := h.next_le.trans h'.next_le
  arrays_dataP := by
    rw [h'.arrays_dataP, h.arrays_dataP, List.append_assoc, ← arraysAll_append]
    rfl
  buffers_dataP := h'.buffers_dataP.trans h.buffers_dataP
  arrays_resultP a ha := by
    rcases h'.arrays_resultP a ha with ha | ha
    · exact h.arrays_resultP a ha
    · exact .inr (h.next_le.trans ha)
  buffers_resultP a ha := by
    rcases h'.buffers_resultP a ha with ha | ha
    · refine (h.buffers_resultP a ha).imp_right fun ha => ?_
      exact mem_buffersAll_of_subset (List.cons_subset_cons _ (List.nil_subset _)) ha
    · exact .inr (mem_buffersAll_of_subset (List.subset_cons_self _ _) ha)

/-- A call around its loop. -/
theorem stripArray_detaches (h : ∀ s, MovesBlocks items s (stripLoop items items.length s))
    (next : ℕ) :
    Detaches items next (stripArray next items.length items (stripLoop items)) := by
  unfold stripArray lwm2mDataNew
  by_cases hempty : (items.length : ℤ) ≤ 0
  · rw [if_pos hempty]
    obtain rfl : items = [] := List.length_eq_zero_iff.mp (by omega)
    exact ⟨le_rfl, rfl, rfl, fun a ha => absurd ha List.not_mem_nil,
      fun a ha => absurd ha List.not_mem_nil⟩
  · rw [if_neg hempty]
    rw [Int.toNat_natCast]
    have hloop := h ⟨List.replicate items.length .zero, 0, [], next + 1⟩
    have harrays := arraysAll_replicate_zero items.length
    have hbuffers := buffersAll_replicate_zero items.length
    refine ⟨(Nat.le_succ _).trans hloop.next_le, hloop.arrays_dataP, hloop.buffers_dataP,
      fun a ha => ?_, fun a ha => ?_⟩
    · rw [Option.toList_some, List.singleton_append, List.mem_cons] at ha
      rcases ha with rfl | ha
      · exact le_rfl
      · rcases hloop.arrays_resultP a ha with ha | ha
        · rw [harrays] at ha
          exact absurd ha List.not_mem_nil
        · exact (Nat.le_succ _).trans ha
    · rcases hloop.buffers_resultP a ha with ha | ha
      · rw [hbuffers] at ha
        exact absurd ha List.not_mem_nil
      · exact ha

theorem stripItem_leaf_moves (id : UInt16) (value : Leaf) (buffer : Option ℕ) (s : StripState) :
    MovesBlocks [.leaf id value buffer] s (stripItem (.leaf id value buffer) s) where
  next_le := le_rfl
  arrays_dataP := by cases value <;> exact arraysAll_append
  buffers_dataP := by cases value <;> exact buffersAll_append.trans (List.append_nil _)
  arrays_resultP a ha := by
    rcases mem_arraysAll_set ha with ha | ha
    · exact .inl ha
    · exact absurd ha List.not_mem_nil
  buffers_resultP a ha := by
    refine (mem_buffersAll_set ha).imp_right fun ha => ?_
    exact mem_buffersAll.mpr ⟨_, List.mem_singleton_self _, ha⟩

/-- The number of children as the `int` that is handed down. -/
theorem childrenSize_eq (h : children.length < 2 ^ 31) :
    (Int32.ofNat children.length).toInt = children.length :=
  Int32.toInt_ofNat_of_lt h

theorem stripItem_container (id : UInt16) (type : ContainerType) (array : Option ℕ)
    (h : children.length < 2 ^ 31) (s : StripState) :
    stripItem (.container id type array children) s =
      let child := jsonDataStrip s.next children.length children
      ⟨s.resultP.set s.j (.container id type child.address
          (child.resultP.take child.result.toNat)),
        if child.result ≤ 0 then s.j else s.j + 1,
        s.dataP ++ [.container id type array child.dataP], child.next⟩ := by
  rw [stripItem, childrenSize_eq h]
  rfl

theorem stripItem_container_moves (id : UInt16) (type : ContainerType) (array : Option ℕ)
    (hsize : children.length < 2 ^ 31)
    (h : ∀ s, MovesBlocks children s (stripLoop children children.length s)) (s : StripState) :
    MovesBlocks [.container id type array children] s
      (stripItem (.container id type array children) s) := by
  have hchild := stripArray_detaches h s.next
  rw [stripItem_container id type array hsize]
  refine ⟨hchild.next_le, ?_, ?_, fun a ha => ?_, fun a ha => ?_⟩
  · rw [arraysAll_append, arraysAll, arraysAll, arraysAll, arraysAll, arrays, arrays]
    rw [show arraysAll (jsonDataStrip s.next children.length children).dataP = arraysAll children
      from hchild.arrays_dataP]
  · rw [buffersAll_append, buffersAll, buffersAll, buffers]
    rw [show buffersAll (jsonDataStrip s.next children.length children).dataP = [] from
      hchild.buffers_dataP]
    exact List.append_nil _
  · refine (mem_arraysAll_set ha).imp_right fun ha => hchild.arrays_resultP a ?_
    rw [arrays, List.mem_append] at ha
    exact List.mem_append.mpr (ha.imp_right (mem_arraysAll_of_subset (List.take_subset _ _)))
  · refine (mem_buffersAll_set ha).imp_right fun ha => ?_
    rw [buffersAll, buffersAll, List.append_nil, buffers]
    rw [buffers] at ha
    exact hchild.buffers_resultP a (mem_buffersAll_of_subset (List.take_subset _ _) ha)

/-- **The loop moves the buffers of the items to the result.** -/
theorem stripLoop_moves (h : AllSized items) (s : StripState) :
    MovesBlocks items s (stripLoop items items.length s) := by
  induction items using items_induction generalizing s with
  | nil => exact .refl s
  | leaf id value buffer items ih =>
    exact (stripItem_leaf_moves id value buffer s).cons (ih h.2 _)
  | container id type array children items ihChildren ih =>
    obtain ⟨⟨hsize, hchildren⟩, hitems⟩ := h
    exact (stripItem_container_moves id type array hsize (ihChildren hchildren) s).cons
      (ih hitems _)

/-- **No block is owned by the input and by the result.** -/
theorem jsonDataStrip_disjoint {array : ℕ} (h : StripInput next array items) :
    let s := jsonDataStrip next items.length items
    ∀ a ∈ blocks (some array) s.dataP, a ∉ blocks s.address s.resultP := by
  have hdetaches := stripArray_detaches (stripLoop_moves h.sized.2) next
  intro s a ha ha'
  have hdataP : blocks (some array) s.dataP = array :: arraysAll items := by
    change _ ++ (arraysAll s.dataP ++ buffersAll s.dataP) = _
    rw [show arraysAll s.dataP = _ from hdetaches.arrays_dataP,
      show buffersAll s.dataP = _ from hdetaches.buffers_dataP, List.append_nil]
    rfl
  have hnodup := h.nodup
  rw [blocks, ← List.append_assoc] at hnodup
  rw [hdataP] at ha
  rw [blocks, ← List.append_assoc, List.mem_append] at ha'
  rcases ha' with ha' | ha'
  · have hlt : a < next := by
      refine h.lt_next a ?_
      rw [blocks, ← List.append_assoc]
      exact List.mem_append_left _ ha
    exact Nat.not_lt.mpr (hdetaches.arrays_resultP a ha') hlt
  · exact (List.nodup_append'.mp hnodup).2.2 ha (hdetaches.buffers_resultP a ha')

/-! ### What is left to free -/

theorem freeArray_subset {dataP : Option ℕ} {loop : List ℕ}
    (h : loop ⊆ arraysAll items ++ buffersAll items) :
    freeArray dataP items loop ⊆ blocks dataP items := by
  cases dataP with
  | none => exact List.nil_subset _
  | some address =>
    unfold freeArray blocks
    split_ifs
    · exact List.nil_subset _
    · intro a ha
      rcases List.mem_append.mp ha with ha | ha
      · exact List.mem_append_right _ (h ha)
      · exact List.mem_append_left _ ha

theorem freeLoop_subset (items : List DataItem) :
    freeLoop items ⊆ arraysAll items ++ buffersAll items := by
  have hcons {item : DataItem} {items : List DataItem}
      (hitem : freeItem item ⊆ item.arrays ++ item.buffers)
      (hitems : freeLoop items ⊆ arraysAll items ++ buffersAll items) :
      freeLoop (item :: items) ⊆ arraysAll (item :: items) ++ buffersAll (item :: items) := by
    intro a ha
    rw [arraysAll, buffersAll]
    rw [freeLoop] at ha
    simp only [List.mem_append]
    rcases List.mem_append.mp ha with ha | ha
    · exact (List.mem_append.mp (hitem ha)).imp .inl .inl
    · exact (List.mem_append.mp (hitems ha)).imp .inr .inr
  induction items using items_induction with
  | nil => exact List.nil_subset _
  | leaf id value buffer items ih =>
    refine hcons ?_ ih
    cases value <;> exact List.Subset.refl _
  | container id type array children items ihChildren ih =>
    refine hcons ?_ ih
    rw [arrays, buffers, List.append_assoc]
    exact freeArray_subset ihChildren

/-- **When the input is freed, the blocks of the result are left.** -/
theorem lwm2mDataFree_spares {array : ℕ} (h : StripInput next array items) :
    let s := jsonDataStrip next items.length items
    ∀ a ∈ lwm2mDataFree (some array) s.dataP, a ∉ blocks s.address s.resultP :=
  fun a ha => jsonDataStrip_disjoint h a (freeArray_subset (freeLoop_subset _) ha)

end

/-! ### What is copied -/

/-- The copy of an item into its slot. -/
inductive SlotOf : DataItem → DataItem → Prop
  | leaf (id : UInt16) (value : Leaf) (buffer : Option ℕ) :
    SlotOf (.leaf id value buffer) (.leaf id value buffer)
  | container (next : ℕ) (id : UInt16) (type : ContainerType) (array : Option ℕ)
      (children : List DataItem) :
    SlotOf (.container id type array children)
      (.container id type (jsonDataStrip next children.length children).address
        ((jsonDataStrip next children.length children).resultP.take
          (jsonDataStrip next children.length children).result.toNat))

/-- The item is not an empty container. -/
def IsKept : DataItem → Prop
  | .leaf _ _ _ => True
  | .container _ _ _ children => children ≠ []

/-- The number of the items is returned. -/
theorem result_jsonDataStrip (next : ℕ) (items : List DataItem) :
    (jsonDataStrip next items.length items).result =
      if items = [] then -1 else (items.length : ℤ) := by
  unfold jsonDataStrip stripArray lwm2mDataNew
  by_cases hempty : items = []
  · subst hempty
    rfl
  · have := List.length_pos_of_ne_nil hempty
    rw [if_neg hempty, if_neg (by omega)]

/-- A turn of the loop for an item that is not skipped. -/
theorem stripItem_copies (hsized : Sized item) (hkept : IsKept item) (s : StripState) :
    ∃ copy, SlotOf item copy ∧
      (stripItem item s).resultP = s.resultP.set s.j copy ∧ (stripItem item s).j = s.j + 1 := by
  cases item with
  | leaf id value buffer => exact ⟨_, .leaf id value buffer, by cases value <;> exact ⟨rfl, rfl⟩⟩
  | container id type array children =>
    refine ⟨_, .container s.next id type array children, ?_⟩
    have hpos := List.length_pos_of_ne_nil hkept
    have hresult := result_jsonDataStrip s.next children
    rw [if_neg hkept] at hresult
    rw [stripItem_container id type array hsized.1]
    exact ⟨rfl, if_neg (by omega)⟩

/-- **Where no item is an empty container, the slots hold the copies.** -/
theorem stripLoop_copies (hsized : AllSized items) (hkept : ∀ item ∈ items, IsKept item)
    (front room : List DataItem) (hroom : room.length = items.length) {s : StripState}
    (hresultP : s.resultP = front ++ room) (hj : s.j = front.length) :
    ∃ copies, List.Forall₂ SlotOf items copies ∧
      (stripLoop items items.length s).resultP = front ++ copies := by
  induction items generalizing front room s with
  | nil =>
    obtain rfl := List.length_eq_zero_iff.mp hroom
    exact ⟨[], .nil, hresultP⟩
  | cons item items ih =>
    obtain ⟨y, room, rfl⟩ := List.exists_cons_of_length_eq_add_one hroom
    obtain ⟨hitem, hitems⟩ := List.forall_mem_cons.mp hkept
    obtain ⟨copy, hcopy, hset, hnext⟩ := stripItem_copies hsized.1 hitem s
    obtain ⟨copies, hcopies, hresult⟩ := ih hsized.2 hitems (front ++ [copy]) room
      (Nat.succ.inj hroom) (s := stripItem item s)
      (by rw [hset, hresultP, hj, List.set_append_right _ _ le_rfl]; simp)
      (by rw [hnext, hj, List.length_append, List.length_singleton])
    refine ⟨copy :: copies, .cons hcopy hcopies, ?_⟩
    rw [List.length_cons, stripLoop, hresult, List.append_assoc]
    rfl

/-- The array of the result where no item is an empty container. -/
theorem jsonDataStrip_copies (next : ℕ) (hne : items ≠ []) (hsized : AllSized items)
    (hkept : ∀ item ∈ items, IsKept item) :
    List.Forall₂ SlotOf items (jsonDataStrip next items.length items).resultP := by
  have hpos := List.length_pos_of_ne_nil hne
  obtain ⟨copies, hcopies, hresult⟩ := stripLoop_copies hsized hkept [] _
    (List.length_replicate (a := DataItem.zero)) (s := ⟨_, 0, [], next + 1⟩) rfl rfl
  unfold jsonDataStrip stripArray lwm2mDataNew
  rw [if_neg (by omega)]
  dsimp only
  rw [List.nil_append] at hresult
  rw [Int.toNat_natCast, hresult]
  exact hcopies

theorem length_stripLoop (items : List DataItem) (size : ℕ) (s : StripState) :
    (stripLoop items size s).resultP.length = s.resultP.length := by
  induction items generalizing size s with
  | nil => rfl
  | cons item items ih =>
    cases size with
    | zero => rfl
    | succ size =>
      rw [stripLoop, ih]
      cases item with
      | leaf id value buffer => cases value <;> exact List.length_set
      | container id type array children =>
        rw [stripItem]
        exact List.length_set

/-- There is a slot for every item. -/
theorem length_jsonDataStrip (next : ℕ) (items : List DataItem) :
    (jsonDataStrip next items.length items).resultP.length = items.length := by
  unfold jsonDataStrip stripArray lwm2mDataNew
  by_cases hempty : (items.length : ℤ) ≤ 0
  · rw [if_pos hempty]
    exact (Nat.le_zero.mp (by omega)).symm
  · rw [if_neg hempty]
    rw [length_stripLoop, List.length_replicate, Int.toNat_natCast]

/-! ### What is kept -/

theorem length_keptTrees_le (items : List Tree) : (keptTrees items).length ≤ items.length := by
  induction items with
  | nil => exact le_rfl
  | cons item items ih =>
    rw [keptTrees, List.length_append, List.length_cons, Nat.add_comm]
    exact Nat.add_le_add ih (Option.length_toList_le)

/-- When as many items are to be kept as there are, each is. -/
theorem keptTrees_cons {item : Tree} {items : List Tree}
    (h : (keptTrees (item :: items)).length = (item :: items).length) :
    (∃ kept, keptTree item = some kept ∧ keptTrees (item :: items) = kept :: keptTrees items) ∧
      (keptTrees items).length = items.length := by
  have hle := length_keptTrees_le items
  rw [keptTrees, List.length_append, List.length_cons] at h
  cases hitem : keptTree item with
  | none =>
    rw [hitem, Option.toList_none, List.length_nil] at h
    omega
  | some kept =>
    rw [hitem, Option.toList_some, List.length_singleton] at h
    refine ⟨⟨kept, rfl, ?_⟩, by omega⟩
    rw [keptTrees, hitem]
    rfl

theorem keptTrees_eq_self (h : AllPopulated (trees items)) :
    keptTrees (trees items) = trees items := by
  induction items using items_induction with
  | nil => rfl
  | leaf id value buffer items ih =>
    rw [trees, keptTrees, ih h.2]
    rfl
  | container id type array children items ihChildren ih =>
    obtain ⟨⟨hne, hchildren⟩, hitems⟩ := h
    rw [trees, keptTrees, ih hitems, tree, keptTree, ihChildren hchildren, if_neg hne]
    rfl

/-- Every item of trees without empty containers is kept. -/
theorem isKept_of_allPopulated (h : AllPopulated (trees items)) :
    ∀ item ∈ items, IsKept item := by
  induction items with
  | nil => exact fun item hitem => absurd hitem List.not_mem_nil
  | cons item items ih =>
    refine List.forall_mem_cons.mpr ⟨?_, ih h.2⟩
    cases item with
    | leaf id value buffer => trivial
    | container id type array children =>
      rintro rfl
      exact h.1.1 rfl

/-- The number and the items that are returned are those that are to be kept. -/
def ReturnsKept (next : ℕ) (items : List DataItem) : Prop :=
  (jsonDataStrip next items.length items).result = (keptTrees (trees items)).length ∧
    trees ((jsonDataStrip next items.length items).resultP.take
      (jsonDataStrip next items.length items).result.toNat) = keptTrees (trees items)

theorem length_trees (items : List DataItem) : (trees items).length = items.length := by
  rw [trees_eq_map, List.length_map]

/-- Without empty containers, the copies are the items. -/
theorem trees_copies {copies : List DataItem} (hcopies : List.Forall₂ SlotOf items copies)
    (hpopulated : AllPopulated (trees items))
    (ih : ∀ id type array children, .container id type array children ∈ items →
      AllPopulated (trees children) → children ≠ [] → ∀ next, ReturnsKept next children) :
    trees copies = trees items := by
  induction hcopies with
  | nil => rfl
  | cons hcopy _ ihCopies =>
    obtain ⟨hitem, hitems⟩ := hpopulated
    rw [trees, trees, ihCopies hitems fun _ _ _ _ h => ih _ _ _ _ (List.mem_cons_of_mem _ h)]
    cases hcopy with
    | leaf id value buffer => rfl
    | container next id type array children =>
      have hne : children ≠ [] := by
        rintro rfl
        exact hitem.1 rfl
      have hkept := ih _ _ _ _ List.mem_cons_self hitem.2 hne next
      rw [tree, tree, hkept.2, keptTrees_eq_self hitem.2]

/-- Where the copies are what is to be kept, there are no empty containers. -/
theorem allPopulated_of_copies {copies : List DataItem} (hcopies : List.Forall₂ SlotOf items copies)
    (hlength : (keptTrees (trees items)).length = (trees items).length)
    (htrees : trees copies = keptTrees (trees items))
    (ih : ∀ id type array children, .container id type array children ∈ items →
      ∀ next, ReturnsKept next children → children ≠ [] ∧ AllPopulated (trees children))
    (hsized : AllSized items) (hkept : ∀ item ∈ items, IsKept item) :
    AllPopulated (trees items) := by
  induction hcopies with
  | nil => trivial
  | @cons item copy items copies hcopy _ ihCopies =>
    obtain ⟨⟨kept, hitem, hcons⟩, hrest⟩ := keptTrees_cons hlength
    rw [trees, trees, hcons] at htrees
    obtain ⟨hfirst, htrees⟩ := List.cons.inj htrees
    obtain ⟨hfirstKept, hrestKept⟩ := List.forall_mem_cons.mp hkept
    refine ⟨?_, ihCopies hrest htrees
      (fun _ _ _ _ h => ih _ _ _ _ (List.mem_cons_of_mem _ h)) hsized.2 hrestKept⟩
    cases hcopy with
    | leaf id value buffer => trivial
    | container next id type array children =>
      rw [tree, keptTree] at hitem
      split_ifs at hitem
      cases hitem
      -- all children are in the array of the copy, so each is to be kept
      have hchildren := (Tree.container.inj hfirst).2.2
      have hresult := result_jsonDataStrip next children
      rw [if_neg hfirstKept] at hresult
      have hreturns : ReturnsKept next children := by
        refine ⟨?_, hchildren⟩
        rw [← hchildren, length_trees, List.length_take, length_jsonDataStrip, hresult,
          Int.toNat_natCast, Nat.min_self]
      refine ⟨?_, (ih _ _ _ _ List.mem_cons_self next hreturns).2⟩
      rw [trees_eq_map]
      exact mt List.map_eq_nil_iff.mp hfirstKept

theorem isKept_of_length (h : (keptTrees (trees items)).length = (trees items).length) :
    ∀ item ∈ items, IsKept item := by
  induction items with
  | nil => exact fun item hitem => absurd hitem List.not_mem_nil
  | cons item items ih =>
    obtain ⟨⟨kept, hitem, -⟩, hrest⟩ := keptTrees_cons h
    refine List.forall_mem_cons.mpr ⟨?_, ih hrest⟩
    cases item with
    | leaf id value buffer => trivial
    | container id type array children =>
      rintro rfl
      cases hitem

theorem allSized_of_mem {id : UInt16} {type : ContainerType} {array : Option ℕ} (h : AllSized items)
    (hmem : .container id type array children ∈ items) :
    AllSized children := by
  induction items with
  | nil => exact absurd hmem List.not_mem_nil
  | cons item items ih =>
    rcases List.mem_cons.mp hmem with rfl | hmem
    · exact h.1.2
    · exact ih h.2 hmem

/-- **The number and the items are those to be kept** when there are items, and no container is
empty. -/
theorem returnsKept_iff (next : ℕ) (hsized : AllSized items) :
    ReturnsKept next items ↔ items ≠ [] ∧ AllPopulated (trees items) := by
  induction items using array_induction generalizing next with
  | h items ih =>
    have hbelow {id : UInt16} {type : ContainerType} {array : Option ℕ}
        {children : List DataItem} (hmem : .container id type array children ∈ items) :
        ∀ next, ReturnsKept next children ↔ children ≠ [] ∧ AllPopulated (trees children) :=
      fun next => ih id type array children hmem next (allSized_of_mem hsized hmem)
    have hresult := result_jsonDataStrip next items
    constructor
    · rintro ⟨hlength, htrees⟩
      have hne : items ≠ [] := by
        rintro rfl
        rw [if_pos rfl] at hresult
        rw [hresult] at hlength
        omega
      rw [if_neg hne] at hresult
      rw [hresult, Nat.cast_inj, ← length_trees] at hlength
      rw [hresult, Int.toNat_natCast,
        List.take_of_length_le (length_jsonDataStrip next items).le] at htrees
      have hkept := isKept_of_length hlength.symm
      exact ⟨hne, allPopulated_of_copies (jsonDataStrip_copies next hne hsized hkept) hlength.symm
        htrees (fun _ _ _ _ hmem next h => (hbelow hmem next).mp h) hsized hkept⟩
    · rintro ⟨hne, hpopulated⟩
      rw [if_neg hne] at hresult
      have hcopies := jsonDataStrip_copies next hne hsized (isKept_of_allPopulated hpopulated)
      unfold ReturnsKept
      rw [keptTrees_eq_self hpopulated, hresult, length_trees, Int.toNat_natCast]
      refine ⟨rfl, ?_⟩
      rw [List.take_of_length_le (length_jsonDataStrip next items).le]
      exact trees_copies hcopies hpopulated fun _ _ _ _ hmem hchildren hne next =>
        (hbelow hmem next).mpr ⟨hne, hchildren⟩

/-- **An array is stripped exactly when there are items, and no container is empty.** -/
theorem stripsExactly_iff {next array : ℕ} {dataP : List DataItem}
    (h : StripInput next array dataP) :
    StripsExactly next array dataP ↔ dataP ≠ [] ∧ AllPopulated (trees dataP) := by
  rw [← returnsKept_iff next h.sized.2]
  constructor
  · exact fun hexact => ⟨hexact.1, hexact.2.1⟩
  · exact fun hkept => ⟨hkept.1, hkept.2, jsonDataStrip_disjoint h⟩

/-- An object with a string in it, allocated. -/
theorem stripInput_object : StripInput 3 0
    [.container 3 .object (some 1) [.leaf 0 (.string [0x41]) (some 2)]] := by
  refine ⟨⟨by decide, ⟨by decide, trivial, trivial⟩, trivial⟩, ?_, ?_⟩
  · decide
  · decide

theorem stripsExactly_object : StripsExactly 3 0
    [.container 3 .object (some 1) [.leaf 0 (.string [0x41]) (some 2)]] ↔
      ([.container 3 .object (some 1) [.leaf 0 (.string [0x41]) (some 2)]] : List DataItem) ≠ [] ∧
        AllPopulated (trees [.container 3 .object (some 1) [.leaf 0 (.string [0x41]) (some 2)]]) :=
  stripsExactly_iff stripInput_object

/-- The slot of a skipped object is counted. -/
theorem stripsExactly_counts : StripInput 1 0 [.container 3 .object none []] ∧
    ¬ StripsExactly 1 0 [.container 3 .object none []] := by
  refine ⟨⟨⟨by decide, ⟨by decide, trivial⟩, trivial⟩, by decide, by decide⟩, fun h => ?_⟩
  exact absurd h.1 (by decide)

end Lwm2m.Codec

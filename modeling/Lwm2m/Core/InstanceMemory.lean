/-
# The memory of an object's instances

`lwm2m_malloc`, `lwm2m_free` and `lwm2m_strdup` over a heap of buffers and list nodes, and what the
implementations of the Security and the Server Object do alike with their instance list: write,
create and delete an instance, free all of them (`clean_*_object`) and copy all of them
(`copy_*_object`).  What differs is an `ObjectType`: how one instance is written, freed and copied.

`Ownership` says which buffers an instance points to and which of them a copy has of its own.  From
it follows what every operation does to the memory: it frees and allocates cells of its own
list only.
-/

import Lwm2m.Core.BootstrapWrite
import Lwm2m.Library.Except
import Lwm2m.Library.Memory

namespace Lwm2m.Core

open Code Library Library.Memory

/-! ### The heap -/

/-- A cell of the heap: a buffer, or a node of an instance list, whose fields are kept with
the list. -/
inductive Cell
  | buffer (bytes : List Byte)
  | node
  deriving DecidableEq, Repr

/-- The memory behind `lwm2m_malloc`. -/
abbrev Heap := Memory Cell

/-- `lwm2m_free`. -/
def lwm2mFree (m : Heap) : Option ℕ → Except Fault Heap
  | none => .ok m
  | some p => if (m.cells p).isSome then .ok (m.release p) else .error .useAfterFree

/-- The bytes of a buffer. -/
def bytesAt (m : Heap) (p : ℕ) : Except Fault (List Byte) :=
  match m.cells p with
  | some (.buffer bytes) => .ok bytes
  | _ => .error .useAfterFree

/-- The walk of `strlen` over a buffer. -/
def cString (bytes : List Byte) : Except Fault CString :=
  if 0 ∈ bytes then .ok (bytes.takeWhile (· ≠ 0)) else .error .outOfBoundsRead

/-- The C string in a buffer. -/
def stringAt (m : Heap) (p : ℕ) : Except Fault CString := do
  cString (← bytesAt m p)

/-- A new buffer with a copy of a C string. -/
def copyString (m : Heap) (p : ℕ) : Except Fault (Heap × Option ℕ) := do
  let s ← stringAt m p
  let (m, buf) := m.alloc (.buffer (s ++ [0]))
  pure (m, some buf)

/-- `lwm2m_strdup`. -/
def lwm2mStrdup (m : Heap) : Option ℕ → Except Fault (Heap × Option ℕ)
  | none => .ok (m, none)
  | some str => copyString m str

section heap

variable {m₀ m m' : Heap} {kept owned : List ℕ} {p q : Option ℕ} {a : ℕ} {s : CString}
  {bytes : List Byte}

/-- Freeing what is owned. -/
theorem lwm2mFree_owns (h : Owns m₀ kept m (p.toList ++ owned)) :
    ∃ m', lwm2mFree m p = .ok m' ∧ Owns m₀ kept m' owned := by
  cases p with
  | none => exact ⟨m, rfl, h⟩
  | some a => exact ⟨m.release a, if_pos (h.allocated a List.mem_cons_self), h.release⟩

/-- A C string has no NUL. -/
theorem ne_zero_of_cString (h : cString bytes = .ok s) : ∀ c ∈ s, c ≠ 0 := by
  unfold cString at h
  split_ifs at h
  cases h
  intro c hc
  simpa using List.mem_takeWhile_imp hc

/-- A copy of a C string holds that C string. -/
theorem cString_append (h : ∀ c ∈ s, c ≠ 0) : cString (s ++ [0]) = .ok s := by
  have hpos : ∀ c ∈ s, decide (c ≠ 0) = true := fun c hc => decide_eq_true (h c hc)
  rw [cString, if_pos (by simp), List.takeWhile_append_of_pos hpos]
  simp

/-- The bytes of a buffer are those of its C string, the NUL and what is behind it. -/
theorem cString_split (h : cString bytes = .ok s) :
    0 ∈ bytes ∧ bytes = s ++ 0 :: bytes.drop (s.length + 1) := by
  unfold cString at h
  split_ifs at h with hmem
  cases h
  refine ⟨hmem, ?_⟩
  induction bytes with
  | nil => exact absurd hmem List.not_mem_nil
  | cons b bytes ih =>
    by_cases hb : b = 0
    · simp [hb]
    · have htail := (List.mem_cons.mp hmem).resolve_left (Ne.symm hb)
      have hwalk : (b :: bytes).takeWhile (· ≠ 0) = b :: bytes.takeWhile (· ≠ 0) :=
        List.takeWhile_cons_of_pos (decide_eq_true hb)
      rw [hwalk, List.cons_append, List.length_cons, List.drop_succ_cons, ← ih htail]

theorem bytesAt_of_cells (h : m.cells a = some (.buffer bytes)) : bytesAt m a = .ok bytes := by
  rw [bytesAt, h]

theorem bytesAt_congr (h : m'.cells a = m.cells a) : bytesAt m' a = bytesAt m a := by
  rw [bytesAt, h, bytesAt]

theorem stringAt_congr (h : m'.cells a = m.cells a) : stringAt m' a = stringAt m a := by
  rw [stringAt, bytesAt_congr h, stringAt]

theorem stringAt_of_cells (h : m.cells a = some (.buffer bytes)) :
    stringAt m a = cString bytes := by
  rw [stringAt, bytesAt_of_cells h]
  rfl

/-- A C string stays where it is when the memory grows. -/
theorem stringAt_extends (he : Extends m m') (h : stringAt m a = .ok s) :
    stringAt m' a = .ok s := by
  obtain ⟨bytes, hbytes, hs⟩ := bind_eq_ok_iff.mp h
  have hsome : (m.cells a).isSome := by
    unfold bytesAt at hbytes
    split at hbytes
    next hcell => simp [hcell]
    next => cases hbytes
  rw [stringAt_congr (he.cells a (lt_frontier hsome)), h]

theorem ne_zero_of_stringAt (h : stringAt m a = .ok s) : ∀ c ∈ s, c ≠ 0 := by
  obtain ⟨bytes, -, hs⟩ := bind_eq_ok_iff.mp h
  exact ne_zero_of_cString hs

/-- The pointers are both null, or the second one is to a copy of the C string of the
first one. -/
def StringCopied (m₀ : Heap) (p : Option ℕ) (m : Heap) (q : Option ℕ) : Prop :=
  (p = none ∧ q = none) ∨
    ∃ a b s, p = some a ∧ q = some b ∧ stringAt m₀ a = .ok s ∧
      m.cells b = some (.buffer (s ++ [0]))

namespace StringCopied

theorem congr (h : StringCopied m₀ p m q) (hcells : ∀ b ∈ q.toList, m'.cells b = m.cells b) :
    StringCopied m₀ p m' q := by
  obtain h | ⟨a, b, s, hp, hq, hs, hb⟩ := h
  · exact .inl h
  · refine .inr ⟨a, b, s, hp, hq, hs, ?_⟩
    rw [hcells b (by simp [hq]), hb]

/-- A copy of a copy. -/
theorem trans {r : Option ℕ} (h : StringCopied m₀ p m q) (h' : StringCopied m q m' r) :
    StringCopied m₀ p m' r := by
  obtain ⟨rfl, rfl⟩ | ⟨a, b, s, rfl, rfl, hs, hb⟩ := h
  · obtain ⟨-, rfl⟩ | ⟨_, _, _, hnone, -⟩ := h'
    · exact .inl ⟨rfl, rfl⟩
    · exact absurd hnone.symm (Option.some_ne_none _)
  · obtain ⟨hnone, -⟩ | ⟨b', c, s', hb', rfl, hs', hc⟩ := h'
    · exact absurd hnone (Option.some_ne_none b)
    · cases hb'
      have hsame : stringAt m b = .ok s := by
        rw [stringAt_of_cells hb, cString_append (ne_zero_of_stringAt hs)]
      rw [hsame] at hs'
      cases hs'
      exact .inr ⟨a, c, s, rfl, rfl, hs, hc⟩

end StringCopied

/-- What copying a C string of a part of the memory that is left as it was does. -/
theorem copyString_owns (h : Owns m₀ kept m owned) (ha : a ∈ kept)
    (hcopy : copyString m a = .ok (m', q)) :
    Extends m m' ∧ Owns m₀ kept m' (q.toList ++ owned) ∧ StringCopied m₀ (some a) m' q := by
  obtain ⟨s, hs, hcopy⟩ := bind_eq_ok_iff.mp hcopy
  cases hcopy
  refine ⟨.alloc m _, h.alloc _, .inr ⟨a, _, s, rfl, rfl, ?_, alloc_cells_self⟩⟩
  rw [← stringAt_congr (h.cells a ha), hs]

/-- What duplicating such a C string does. -/
theorem lwm2mStrdup_owns (h : Owns m₀ kept m owned) (hp : p.toList ⊆ kept)
    (hcopy : lwm2mStrdup m p = .ok (m', q)) :
    Extends m m' ∧ Owns m₀ kept m' (q.toList ++ owned) ∧ StringCopied m₀ p m' q := by
  cases p with
  | none =>
    cases hcopy
    exact ⟨.refl m, h, .inl ⟨rfl, rfl⟩⟩
  | some a => exact copyString_owns h (hp (by simp)) hcopy

end heap

/-! ### Instance lists -/

/-- A node of an instance list: the fields of `lwm2m_list_t`, then those of the object. -/
structure ListNode (α : Type) where
  address : ℕ
  next : Option ℕ
  id : UInt16
  fields : α
  deriving DecidableEq, Repr

/-- Each link is to the node that follows. -/
def Linked {α : Type} : List (ListNode α) → Prop
  | [] => True
  | n :: rest => n.next = rest.head?.map ListNode.address ∧ Linked rest

/-- A list whose links are set, as adding and removing a node leaves it. -/
def relink {α : Type} : List (ListNode α) → List (ListNode α)
  | [] => []
  | n :: rest => { n with next := rest.head?.map ListNode.address } :: relink rest

/-- The link that `copy_*_object` sets in the node it copied last, if it copies another one. -/
def setNext {α : Type} (previous : ListNode α) (dest : List (ListNode α)) : ListNode α :=
  match dest with
  | [] => previous
  | n :: _ => { previous with next := some n.address }

/-- What the implementations of the objects do with one instance. -/
structure ObjectType (α : Type) where
  /-- The instance after `memset`. -/
  zero : α
  /-- One turn of the loop of the write callback. -/
  writeResource : Heap → α → Data → Except Fault (Heap × α × Code)
  /-- What the delete callback frees before the node. -/
  deleteFields : Heap → α → Except Fault Heap
  /-- What `clean_*_object` frees before the node. -/
  cleanFields : Heap → α → Except Fault Heap
  /-- What `copy_*_object` does after it has copied the node. -/
  copyFields : Heap → α → Except Fault (Heap × α)

/-- A bootstrap operation on one instance of an object. -/
inductive Action
  | write (instanceId : UInt16) (dataArray : List Data)
  | create (instanceId : UInt16) (dataArray : List Data)
  | delete (instanceId : UInt16)

namespace ObjectType

variable {α : Type} (t : ObjectType α)

/-- The loop of the write callback. -/
def writeItems (m : Heap) (fields : α) : List Data → Except Fault (Heap × α × Code)
  | [] => .error .outOfBoundsRead
  | [item] => t.writeResource m fields item
  | item :: next => do
    let (m, fields, result) ← t.writeResource m fields item
    if result = coap204Changed then writeItems m fields next else pure (m, fields, result)

/-- The write callback. -/
def write (m : Heap) (instanceList : List (ListNode α)) (instanceId : UInt16)
    (dataArray : List Data) : Except Fault (Heap × List (ListNode α) × Code) :=
  match listFind ListNode.id instanceList instanceId with
  | none => .ok (m, instanceList, coap404NotFound)
  | some targetP => do
    let (m, fields, result) ← t.writeItems m targetP.fields dataArray
    pure (m, instanceList.map fun n =>
      if n.address = targetP.address then { n with fields } else n, result)

/-- The delete callback. -/
def delete (m : Heap) (instanceList : List (ListNode α)) (id : UInt16) :
    Except Fault (Heap × List (ListNode α) × Code) :=
  match listRemove ListNode.id instanceList id with
  | (_, none) => .ok (m, instanceList, coap404NotFound)
  | (rest, some targetP) => do
    let m ← t.deleteFields m targetP.fields
    let m ← lwm2mFree m (some targetP.address)
    pure (m, relink rest, coap202Deleted)

/-- The create callback. -/
def create (m : Heap) (instanceList : List (ListNode α)) (instanceId : UInt16)
    (dataArray : List Data) : Except Fault (Heap × List (ListNode α) × Code) := do
  let (m, address) := m.alloc .node
  let targetP := { address, next := none, id := instanceId, fields := t.zero }
  let (m, instanceList, result) ←
    t.write m (relink (listAdd ListNode.id targetP instanceList)) instanceId dataArray
  if result ≠ coap204Changed then
    let (m, instanceList, _) ← t.delete m instanceList instanceId
    pure (m, instanceList, result)
  else pure (m, instanceList, coap201Created)

/-- The callback that an operation calls. -/
def perform (m : Heap) (instanceList : List (ListNode α)) :
    Action → Except Fault (Heap × List (ListNode α) × Code)
  | .write instanceId dataArray => t.write m instanceList instanceId dataArray
  | .create instanceId dataArray => t.create m instanceList instanceId dataArray
  | .delete instanceId => t.delete m instanceList instanceId

/-- `clean_*_object`. -/
def clean (m : Heap) : List (ListNode α) → Except Fault Heap
  | [] => .ok m
  | n :: next => do
    let m ← t.cleanFields m n.fields
    let m ← lwm2mFree m (some n.address)
    clean m next

/-- `copy_*_object`. -/
def copy (m : Heap) : List (ListNode α) → Except Fault (Heap × List (ListNode α))
  | [] => .ok (m, [])
  | instanceSrc :: next => do
    let (m, address) := m.alloc .node
    let (m, fields) ← t.copyFields m instanceSrc.fields
    let (m, dest) ← copy m next
    pure (m, setNext { instanceSrc with address, fields } dest :: dest)

end ObjectType

/-- The cells of a list, when those of the fields are given. -/
def cellsOf {α : Type} (pointers : α → List ℕ) (list : List (ListNode α)) : List ℕ :=
  list.flatMap fun n => n.address :: pointers n.fields

/-- What an instance points to, and what the operations do to it. -/
structure Ownership {α : Type} (t : ObjectType α) where
  /-- The buffers that the fields point to. -/
  pointers : α → List ℕ
  /-- Those of them that a copy has of its own. -/
  copied : α → List ℕ
  /-- The fields are a copy of other ones. -/
  CopyOf : Heap → α → Heap → α → Prop
  copied_sublist : ∀ x, (copied x).Sublist (pointers x)
  zero : pointers t.zero = []
  writeResource : ∀ {m₀ kept m owned x} (item : Data), Owns m₀ kept m (pointers x ++ owned) →
    Ensures (t.writeResource m x item) (fun r => Owns m₀ kept r.1 (pointers r.2.1 ++ owned))
      (· ≠ .useAfterFree)
  deleteFields : ∀ {m₀ kept m owned x}, Owns m₀ kept m (pointers x ++ owned) →
    ∃ m', t.deleteFields m x = .ok m' ∧ Owns m₀ kept m' owned
  cleanFields : ∀ {m₀ kept m owned x}, Owns m₀ kept m (copied x ++ owned) →
    ∃ m', t.cleanFields m x = .ok m' ∧ Owns m₀ kept m' owned
  copyFields : ∀ {m₀ kept m owned x m' x'}, Owns m₀ kept m owned → copied x ⊆ kept →
    t.copyFields m x = .ok (m', x') →
    Extends m m' ∧ Owns m₀ kept m' (copied x' ++ owned) ∧ CopyOf m₀ x m' x'
  copyOf_congr : ∀ {m₀ m m' x x'}, CopyOf m₀ x m x' →
    (∀ a ∈ copied x', m'.cells a = m.cells a) → CopyOf m₀ x m' x'
  copyOf_trans : ∀ {m₀ m m' x x' x''}, CopyOf m₀ x m x' → CopyOf m x' m' x'' →
    CopyOf m₀ x m' x''

section cellsOf

variable {α : Type} {pointers pointers' : α → List ℕ} {list list' : List (ListNode α)}
  {n : ListNode α}

@[simp] theorem cellsOf_cons :
    cellsOf pointers (n :: list) = n.address :: (pointers n.fields ++ cellsOf pointers list) :=
  rfl

theorem cellsOf_perm (h : list.Perm list') :
    (cellsOf pointers list).Perm (cellsOf pointers list') :=
  h.flatMap_right _

theorem cellsOf_sublist (h : ∀ x, (pointers' x).Sublist (pointers x)) :
    (cellsOf pointers' list).Sublist (cellsOf pointers list) := by
  induction list with
  | nil => exact .slnil
  | cons n list ih => exact ((h n.fields).append ih).cons_cons n.address

theorem address_mem_cellsOf (h : n ∈ list) : n.address ∈ cellsOf pointers list :=
  List.mem_flatMap.mpr ⟨n, h, List.mem_cons_self⟩

theorem pointers_subset_cellsOf (h : n ∈ list) : pointers n.fields ⊆ cellsOf pointers list :=
  fun _ ha => List.mem_flatMap.mpr ⟨n, h, List.mem_cons_of_mem _ ha⟩

@[simp] theorem cellsOf_relink : cellsOf pointers (relink list) = cellsOf pointers list := by
  induction list with
  | nil => rfl
  | cons n list ih => simp [relink, ih]

@[simp] theorem setNext_address : (setNext n list).address = n.address := by
  cases list <;> rfl

@[simp] theorem setNext_id : (setNext n list).id = n.id := by
  cases list <;> rfl

@[simp] theorem setNext_fields : (setNext n list).fields = n.fields := by
  cases list <;> rfl

/-- The fields of one node, once the list has been taken apart there. -/
theorem map_update_perm {rest : List (ListNode α)} (h : list.Perm (n :: rest))
    (hnodup : (cellsOf pointers list).Nodup) (fields : α) :
    (list.map fun n' => if n'.address = n.address then { n' with fields } else n').Perm
      ({ n with fields } :: rest) := by
  have hnew : n.address ∉ cellsOf pointers rest := by
    have hcons := (cellsOf_perm h).nodup_iff.mp hnodup
    rw [cellsOf_cons, List.nodup_cons] at hcons
    exact fun hmem => hcons.1 (List.mem_append_right _ hmem)
  have hrest : (rest.map fun n' => if n'.address = n.address then { n' with fields } else n') =
      rest :=
    (List.map_congr_left fun _ hn' =>
      if_neg (ne_of_mem_of_not_mem (address_mem_cellsOf hn') hnew)).trans (List.map_id' rest)
  have hmap := h.map fun n' => if n'.address = n.address then { n' with fields } else n'
  rwa [List.map_cons, if_pos rfl, hrest] at hmap

end cellsOf

namespace Ownership

variable {α : Type} {t : ObjectType α} (o : Ownership t) {m₀ m m' : Heap} {kept owned : List ℕ}
  {list src dst : List (ListNode α)} {n : ListNode α} {x : α}

/-- The cells of one node of a list, before those of the others. -/
theorem cells_perm {rest : List (ListNode α)} (h : list.Perm (n :: rest)) :
    (cellsOf o.pointers list ++ owned).Perm
      (o.pointers n.fields ++ (n.address :: (cellsOf o.pointers rest ++ owned))) := by
  refine ((cellsOf_perm h).append_right owned).trans ?_
  rw [cellsOf_cons, List.cons_append, List.append_assoc]
  exact List.perm_middle.symm

/-! #### The callbacks -/

theorem writeItems (items : List Data) (h : Owns m₀ kept m (o.pointers x ++ owned)) :
    Ensures (t.writeItems m x items) (fun r => Owns m₀ kept r.1 (o.pointers r.2.1 ++ owned))
      (· ≠ .useAfterFree) := by
  induction items generalizing m x with
  | nil => exact Ensures.error_iff.mpr (by decide)
  | cons item next ih =>
    cases next with
    | nil => exact o.writeResource item h
    | cons item' next =>
      refine (o.writeResource item h).bind fun r hr => ?_
      exact Ensures.ite (fun _ => ih hr) fun _ => Ensures.pure_iff.mpr hr

/-- The write callback changes cells of the list only. -/
theorem write (instanceId : UInt16) (items : List Data)
    (h : Owns m₀ kept m (cellsOf o.pointers list ++ owned)) :
    Ensures (t.write m list instanceId items)
      (fun r => Owns m₀ kept r.1 (cellsOf o.pointers r.2.1 ++ owned)) (· ≠ .useAfterFree) := by
  unfold ObjectType.write
  cases hfind : listFind ListNode.id list instanceId with
  | none => exact Ensures.ok_iff.mpr h
  | some n =>
    obtain ⟨before, after, rfl⟩ := List.append_of_mem (mem_of_listFind hfind).1
    have hperm : (before ++ n :: after).Perm (n :: (before ++ after)) := List.perm_middle
    have hnodup := (List.nodup_append.mp h.nodup).1
    refine (o.writeItems items (h.perm (o.cells_perm hperm))).bind fun r hr => ?_
    refine Ensures.pure_iff.mpr (hr.perm ?_)
    exact (o.cells_perm (map_update_perm hperm hnodup r.2.1)).symm

/-- The delete callback frees cells of the list only. -/
theorem delete (id : UInt16) (h : Owns m₀ kept m (cellsOf o.pointers list ++ owned)) :
    ∃ r, t.delete m list id = .ok r ∧ Owns m₀ kept r.1 (cellsOf o.pointers r.2.1 ++ owned) := by
  unfold ObjectType.delete
  split
  next => exact ⟨_, rfl, h⟩
  next rest n hremove =>
    obtain ⟨m₁, hdelete, h₁⟩ := o.deleteFields (h.perm (o.cells_perm (listRemove_perm hremove)))
    obtain ⟨m₂, hfree, h₂⟩ := lwm2mFree_owns (p := some n.address) h₁
    refine ⟨(m₂, relink rest, coap202Deleted), ?_, by rwa [cellsOf_relink]⟩
    rw [hdelete, ok_bind, hfree, ok_bind, pure_eq_ok]

/-- The create callback changes cells of the list only. -/
theorem create (instanceId : UInt16) (items : List Data)
    (h : Owns m₀ kept m (cellsOf o.pointers list ++ owned)) :
    Ensures (t.create m list instanceId items)
      (fun r => Owns m₀ kept r.1 (cellsOf o.pointers r.2.1 ++ owned)) (· ≠ .useAfterFree) := by
  let targetP : ListNode α :=
    { address := m.frontier
      next := none
      id := instanceId
      fields := t.zero }
  have hnew : Owns m₀ kept (m.alloc .node).1
      (cellsOf o.pointers (relink (listAdd ListNode.id targetP list)) ++ owned) := by
    rw [cellsOf_relink]
    refine (h.alloc .node).perm ((o.cells_perm (listAdd_perm targetP list)).trans ?_).symm
    simp [targetP, o.zero]
  refine (o.write instanceId items hnew).bind fun r hr => ?_
  refine Ensures.ite (fun _ => ?_) fun _ => Ensures.pure_iff.mpr hr
  obtain ⟨r', hdelete, h'⟩ := o.delete instanceId hr
  rw [hdelete, ok_bind]
  exact Ensures.pure_iff.mpr h'

/-- An operation changes cells of the list only. -/
theorem perform (action : Action) (h : Owns m₀ kept m (cellsOf o.pointers list ++ owned)) :
    Ensures (t.perform m list action)
      (fun r => Owns m₀ kept r.1 (cellsOf o.pointers r.2.1 ++ owned)) (· ≠ .useAfterFree) := by
  cases action with
  | write instanceId items => exact o.write instanceId items h
  | create instanceId items => exact o.create instanceId items h
  | delete instanceId =>
    obtain ⟨r, hr, hown⟩ := o.delete instanceId h
    rw [ObjectType.perform, hr]
    exact Ensures.ok_iff.mpr hown

/-! #### Freeing and copying a list -/

/-- `clean_*_object` frees the nodes and what a copy has of its own. -/
theorem clean (h : Owns m₀ kept m (cellsOf o.copied list ++ owned)) :
    ∃ m', t.clean m list = .ok m' ∧ Owns m₀ kept m' owned := by
  induction list generalizing m with
  | nil => exact ⟨m, rfl, h⟩
  | cons n next ih =>
    have hperm : (cellsOf o.copied (n :: next) ++ owned).Perm
        (o.copied n.fields ++ (n.address :: (cellsOf o.copied next ++ owned))) := by
      rw [cellsOf_cons, List.cons_append, List.append_assoc]
      exact List.perm_middle.symm
    obtain ⟨m₁, hclean, h₁⟩ := o.cleanFields (h.perm hperm)
    obtain ⟨m₂, hfree, h₂⟩ := lwm2mFree_owns (p := some n.address) h₁
    obtain ⟨m', hnext, h'⟩ := ih h₂
    refine ⟨m', ?_, h'⟩
    rw [ObjectType.clean, hclean, ok_bind, hfree, ok_bind, hnext]

/-- What the whole of a copy of a list is. -/
structure CopiedList (m₀ : Heap) (src : List (ListNode α)) (m' : Heap)
    (dst : List (ListNode α)) : Prop where
  nodes : List.Forall₂ (fun n n' => n'.id = n.id ∧ o.CopyOf m₀ n.fields m' n'.fields) src dst
  linked : Linked src → Linked dst

/-- `copy_*_object` copies into new cells. -/
theorem copy (h : Owns m₀ kept m owned) (hsrc : ∀ n ∈ src, o.copied n.fields ⊆ kept)
    (hcopy : t.copy m src = .ok (m', dst)) :
    Extends m m' ∧ Owns m₀ kept m' (cellsOf o.copied dst ++ owned) ∧
      o.CopiedList m₀ src m' dst := by
  induction src generalizing m owned dst with
  | nil =>
    cases hcopy
    exact ⟨.refl _, h, .nil, id⟩
  | cons n next ih =>
    obtain ⟨⟨m₁, fields⟩, hfields, hcopy⟩ := bind_eq_ok_iff.mp hcopy
    obtain ⟨⟨m₂, dest⟩, hnext, hcopy⟩ := bind_eq_ok_iff.mp hcopy
    cases hcopy
    obtain ⟨he₁, h₁, hof⟩ := o.copyFields (h.alloc .node) (hsrc n List.mem_cons_self) hfields
    obtain ⟨he₂, h₂, hlist⟩ := ih h₁ (fun n' hn' => hsrc n' (List.mem_cons_of_mem n hn')) hnext
    refine ⟨((Extends.alloc _ .node).trans he₁).trans he₂, h₂.perm ?_, ?_⟩
    · simp only [cellsOf_cons, setNext_address, setNext_fields]
      refine (List.perm_append_comm_assoc _ _ _).trans ?_
      rw [List.cons_append, List.append_assoc, ← List.append_assoc, ← List.append_assoc]
      exact List.perm_middle
    · refine ⟨.cons ⟨setNext_id, ?_⟩ hlist.nodes, fun hlinked => ?_⟩
      · rw [setNext_fields]
        exact o.copyOf_congr hof fun a ha =>
          he₂.cells a (lt_frontier (h₁.allocated a (List.mem_append_left _ ha)))
      · refine ⟨?_, hlist.linked hlinked.2⟩
        cases hlist.nodes with
        | nil => exact hlinked.1
        | cons _ _ => rfl

theorem CopiedList.congr (h : o.CopiedList m₀ src m dst)
    (hcells : ∀ a ∈ cellsOf o.copied dst, m'.cells a = m.cells a) :
    o.CopiedList m₀ src m' dst := by
  refine ⟨?_, h.linked⟩
  have hnodes := h.nodes
  clear h
  induction hnodes with
  | nil => exact .nil
  | cons hn _ ih =>
    rw [cellsOf_cons, List.forall_mem_cons, List.forall_mem_append] at hcells
    exact .cons ⟨hn.1, o.copyOf_congr hn.2 hcells.2.1⟩ (ih hcells.2.2)

/-- A copy of a copied list. -/
theorem CopiedList.trans {mid : List (ListNode α)} {m₁ : Heap} (h : o.CopiedList m₀ src m₁ mid)
    (h' : o.CopiedList m₁ mid m' dst) : o.CopiedList m₀ src m' dst := by
  refine ⟨?_, h'.linked ∘ h.linked⟩
  have hnodes := h.nodes
  have hnodes' := h'.nodes
  clear h h'
  induction hnodes generalizing dst with
  | nil =>
    cases hnodes'
    exact .nil
  | cons hn _ ih =>
    cases hnodes' with
    | cons hn' hrest => exact .cons ⟨hn'.1.trans hn.1, o.copyOf_trans hn.2 hn'.2⟩ (ih hrest)

/-- Every node of a copy is one of a node. -/
theorem CopiedList.exists_of_mem (h : o.CopiedList m₀ src m' dst) {n' : ListNode α}
    (hn' : n' ∈ dst) : ∃ n ∈ src, o.CopyOf m₀ n.fields m' n'.fields := by
  have hnodes := h.nodes
  clear h
  induction hnodes with
  | nil => exact absurd hn' List.not_mem_nil
  | @cons n _ next _ hn _ ih =>
    obtain rfl | hn' := List.mem_cons.mp hn'
    · exact ⟨n, List.mem_cons_self, hn.2⟩
    · obtain ⟨n₁, hmem, hof⟩ := ih hn'
      exact ⟨n₁, List.mem_cons_of_mem n hmem, hof⟩

/-- Every node is copied. -/
theorem CopiedList.exists_copy (h : o.CopiedList m₀ src m' dst) (hn : n ∈ src) :
    ∃ n' ∈ dst, o.CopyOf m₀ n.fields m' n'.fields := by
  have hnodes := h.nodes
  clear h
  induction hnodes with
  | nil => exact absurd hn List.not_mem_nil
  | @cons _ n' _ next hof _ ih =>
    obtain rfl | hn := List.mem_cons.mp hn
    · exact ⟨n', List.mem_cons_self, hof.2⟩
    · obtain ⟨n₁, hmem, hof⟩ := ih hn
      exact ⟨n₁, List.mem_cons_of_mem n' hmem, hof⟩

/-- Copying succeeds when it does for each instance. -/
theorem exists_copy (h : Owns m₀ kept m owned) (hsrc : ∀ n ∈ src, o.copied n.fields ⊆ kept)
    (hok : ∀ n ∈ src, ∀ m, (∀ a ∈ kept, m.cells a = m₀.cells a) →
      ∃ r, t.copyFields m n.fields = .ok r) :
    ∃ r, t.copy m src = .ok r := by
  induction src generalizing m owned with
  | nil => exact ⟨_, rfl⟩
  | cons n next ih =>
    obtain ⟨⟨m₁, fields⟩, hfields⟩ := hok n List.mem_cons_self _ (h.alloc .node).cells
    obtain ⟨-, h₁, -⟩ := o.copyFields (h.alloc .node) (hsrc n List.mem_cons_self) hfields
    obtain ⟨r, hnext⟩ := ih h₁ (fun n' hn' => hsrc n' (List.mem_cons_of_mem n hn'))
      fun n' hn' => hok n' (List.mem_cons_of_mem n hn')
    refine ⟨_, bind_eq_ok_iff.mpr ⟨_, hfields, bind_eq_ok_iff.mpr ⟨r, hnext, rfl⟩⟩⟩

end Ownership

end Lwm2m.Core

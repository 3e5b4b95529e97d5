/-
# Writing and creating an instance at once or not at all

`prv_security_write` and `prv_server_write` apply the items one by one and stop at the first one
that is refused, without a way back: what the items in front of it changed stays changed.
`prv_security_create` and `prv_server_create` do go back, by deleting the instance they added; the
instance that they delete is another one when the first node of the list has the same id.
-/

import Lwm2m.Core.ResourceWrites

namespace Lwm2m.Core

open Code Library Library.Memory

/-- The instance list of an object as the operations leave it: linked, and each node and each
buffer is a cell of its own. -/
structure OwnsInstances {α : Type} {t : ObjectType α} (o : Ownership t) (m : Heap)
    (l : List (ListNode α)) : Prop where
  nodup : (cellsOf o.pointers l).Nodup
  allocated : ∀ a ∈ cellsOf o.pointers l, (m.cells a).isSome
  linked : Linked l

/-- The second list has the nodes of the first one, and the resources of each read the same. -/
def SameResources {α : Type} {t : ObjectType α} {o : Ownership t} (r : Resources o) (m : Heap)
    (l : List (ListNode α)) (m' : Heap) (l' : List (ListNode α)) : Prop :=
  List.Forall₂ (fun n n' => n'.address = n.address ∧ n'.next = n.next ∧ n'.id = n.id ∧
    r.getValue m' n'.fields = r.getValue m n.fields) l l'

/-- Every item is accepted, or those in front of the first one that is refused leave what the
instance reads as it was. -/
def WritesBack {α : Type} {t : ObjectType α} {o : Ownership t} (r : Resources o) (m : Heap)
    (l : List (ListNode α)) (instanceId : UInt16) (dataArray : List Data) : Prop :=
  ∀ targetP, listFind ListNode.id l instanceId = some targetP →
    dataArray.all r.accepts = true ∨
      r.readsAfter m targetP.fields (dataArray.takeWhile r.accepts) = r.getValue m targetP.fields

/-- Every item is accepted, or the first node of the list has another id. -/
def RemovesNew {α : Type} {t : ObjectType α} {o : Ownership t} (r : Resources o)
    (l : List (ListNode α)) (instanceId : UInt16) (dataArray : List Data) : Prop :=
  dataArray.all r.accepts = true ∨ ∀ head ∈ l.head?, head.id ≠ instanceId

section

variable {α : Type} {t : ObjectType α} {o : Ownership t} (r : Resources o) {m₀ m m' : Heap}
  {kept owned : List ℕ} {x x' : α} {l l' : List (ListNode α)} {n : ListNode α} {items : List Data}
  {instanceId : UInt16} {code : Code}

/-! ### The loop over the items -/

/-- **What the loop does**: it accepts the items up to the first one that is refused, which
changes nothing. -/
theorem writeItems_accepted (h : t.writeItems m x items = .ok (m', x', code)) :
    (code = coap204Changed ↔ items.all r.accepts = true) ∧
      ItemsAccepted t m x (items.takeWhile r.accepts) m' x' := by
  induction items generalizing m x with
  | nil => cases h
  | cons item next ih =>
    -- The first turn, and the turns behind it when its item is accepted.
    have hturn : ∃ m₁ x₁ code₁, t.writeResource m x item = .ok (m₁, x₁, code₁) ∧
        ((code₁ ≠ coap204Changed ∧ m' = m₁ ∧ x' = x₁ ∧ code = code₁) ∨
          (code₁ = coap204Changed ∧ (code = coap204Changed ↔ next.all r.accepts = true) ∧
            ItemsAccepted t m₁ x₁ (next.takeWhile r.accepts) m' x')) := by
      cases next with
      | nil =>
        refine ⟨m', x', code, h, ?_⟩
        by_cases hcode : code = coap204Changed
        · exact .inr ⟨hcode, iff_of_true hcode rfl, .nil m' x'⟩
        · exact .inl ⟨hcode, rfl, rfl, rfl⟩
      | cons item' next =>
        obtain ⟨⟨m₁, x₁, code₁⟩, hitem, h⟩ := bind_eq_ok_iff.mp h
        refine ⟨m₁, x₁, code₁, hitem, ?_⟩
        dsimp only at h
        split_ifs at h with hcode
        · exact .inr ⟨hcode, ih h⟩
        · cases h
          exact .inl ⟨hcode, rfl, rfl, rfl⟩
    obtain ⟨m₁, x₁, code₁, hitem, ⟨hcode, rfl, rfl, rfl⟩ | ⟨hcode, hall, hnext⟩⟩ := hturn
    · have hrefused := Bool.eq_false_iff.mpr (mt (r.accepts_iff hitem).mpr hcode)
      obtain ⟨rfl, rfl⟩ := r.refused hitem hcode
      rw [List.all_cons, hrefused, List.takeWhile_cons_of_neg (by rw [hrefused]; decide)]
      exact ⟨iff_of_false hcode Bool.false_ne_true, .nil m' x'⟩
    · have haccepted := (r.accepts_iff hitem).mp hcode
      rw [List.all_cons, haccepted, Bool.true_and, List.takeWhile_cons_of_pos haccepted]
      exact ⟨hall, .cons (hcode ▸ hitem) hnext⟩

/-- The loop does not answer with 2.01. -/
theorem writeItems_code (r : Resources o) (h : t.writeItems m x items = .ok (m', x', code)) :
    code ≠ coap201Created := by
  induction items generalizing m x with
  | nil => cases h
  | cons item next ih =>
    cases next with
    | nil => exact r.not_created h
    | cons item' next =>
      obtain ⟨⟨m₁, x₁, code₁⟩, hitem, h⟩ := bind_eq_ok_iff.mp h
      dsimp only at h
      split_ifs at h with hcode
      · exact ih h
      · cases h
        exact r.not_created hitem

/-! ### Writing -/

variable {before after : List (ListNode α)}

/-- The cells of one node, when those of the others are to be left as they are. -/
theorem OwnsInstances.owns (h : OwnsInstances o m (before ++ n :: after)) :
    Owns m (cellsOf o.pointers (before ++ after)) m (o.pointers n.fields ++ [n.address]) := by
  have hperm : (before ++ n :: after).Perm (n :: (before ++ after)) := List.perm_middle
  have hcells : (cellsOf o.pointers (before ++ n :: after) ++ []).Perm _ := o.cells_perm hperm
  have hall : Owns m [] m (cellsOf o.pointers (before ++ n :: after)) :=
    ⟨h.nodup, h.allocated, fun _ _ => List.not_mem_nil, fun _ ha => absurd ha List.not_mem_nil,
      fun _ _ => rfl⟩
  rw [List.append_nil, List.append_nil] at hcells
  refine Owns.frame (hall.perm (hcells.trans ?_))
  rw [List.append_cons]
  exact List.perm_append_comm

theorem getValue_of_cells (hcells : ∀ a ∈ cellsOf o.pointers l, m'.cells a = m.cells a)
    (hn : n ∈ l) : r.getValue m' n.fields = r.getValue m n.fields :=
  r.getValue_congr fun a ha => hcells a (pointers_subset_cellsOf hn ha)

/-- Setting the fields of one node. -/
theorem map_fields (x : α) (hnew : n.address ∉ cellsOf o.pointers (before ++ after)) :
    (before ++ n :: after).map (fun n' =>
        if n'.address = n.address then { n' with fields := x } else n') =
      before ++ { n with fields := x } :: after := by
  have hsame (list : List (ListNode α)) (hsub : list ⊆ before ++ after) :
      list.map (fun n' => if n'.address = n.address then { n' with fields := x } else n') =
        list :=
    (List.map_congr_left fun n' hn' =>
      if_neg (ne_of_mem_of_not_mem (address_mem_cellsOf (hsub hn')) hnew)).trans (List.map_id' list)
  rw [List.map_append, List.map_cons, if_pos rfl, hsame before (List.subset_append_left _ _),
    hsame after (List.subset_append_right _ _)]

/-- Writing to a node. -/
theorem write_at (before : List (ListNode α)) (hown : OwnsInstances o m (before ++ n :: after))
    (hfind : listFind ListNode.id (before ++ n :: after) instanceId = some n)
    (h : t.write m (before ++ n :: after) instanceId items = .ok (m', l', code)) :
    ∃ x', t.writeItems m n.fields items = .ok (m', x', code) ∧
      l' = before ++ { n with fields := x' } :: after ∧
      Owns m (cellsOf o.pointers (before ++ after)) m' (o.pointers x' ++ [n.address]) := by
  unfold ObjectType.write at h
  rw [hfind] at h
  obtain ⟨⟨m₁, x₁, code₁⟩, hitems, h⟩ := bind_eq_ok_iff.mp h
  cases h
  have hn := hown.owns
  have hnew := hn.disjoint n.address (List.mem_append_right _ List.mem_cons_self)
  exact ⟨x₁, hitems, map_fields x₁ hnew, (o.writeItems items hn).1 _ hitems⟩

/-- **Writing**: the nodes stay, what the other instances read stays, and the instance reads what
the items in front of the first one that is refused leave. -/
theorem write_nodes (hown : OwnsInstances o m l)
    (h : t.write m l instanceId items = .ok (m', l', code)) :
    (listFind ListNode.id l instanceId = none ∧ code = coap404NotFound ∧ m' = m ∧ l' = l) ∨
      ∃ before n after x', listFind ListNode.id l instanceId = some n ∧
        l = before ++ n :: after ∧ l' = before ++ { n with fields := x' } :: after ∧
        (code = coap204Changed ↔ items.all r.accepts = true) ∧
        r.getValue m' x' = r.readsAfter m n.fields (items.takeWhile r.accepts) ∧
        ∀ a ∈ cellsOf o.pointers (before ++ after), m'.cells a = m.cells a := by
  cases hfind : listFind ListNode.id l instanceId with
  | none =>
    unfold ObjectType.write at h
    rw [hfind] at h
    cases h
    exact .inl ⟨rfl, rfl, rfl, rfl⟩
  | some n =>
    obtain ⟨before, after, rfl⟩ := List.append_of_mem (mem_of_listFind hfind).1
    obtain ⟨x', hitems, hl', howns⟩ := write_at _ hown hfind h
    obtain ⟨hcode, haccepted⟩ := writeItems_accepted r hitems
    have hreads := r.accepted_run hown.owns haccepted
    exact .inr ⟨before, n, after, x', rfl, rfl, hl', hcode, hreads, howns.cells⟩

theorem SameResources.refl (m : Heap) (l : List (ListNode α)) : SameResources r m l m l :=
  List.forall₂_same.mpr fun _ _ => ⟨rfl, rfl, rfl, rfl⟩

/-- Lists that differ in one node. -/
theorem sameResources_iff
    (hcells : ∀ a ∈ cellsOf o.pointers (before ++ after), m'.cells a = m.cells a) :
    SameResources r m (before ++ n :: after) m' (before ++ { n with fields := x' } :: after) ↔
      r.getValue m' x' = r.getValue m n.fields := by
  have hsame (list : List (ListNode α)) (hsub : list ⊆ before ++ after) :
      SameResources r m list m' list :=
    List.forall₂_same.mpr fun n' hn' => ⟨rfl, rfl, rfl, getValue_of_cells r hcells (hsub hn')⟩
  constructor
  · intro h
    have hdrop := List.forall₂_drop_append _ _ _ h
    rw [List.drop_left] at hdrop
    exact (List.forall₂_cons.mp hdrop).1.2.2.2
  · intro h
    exact List.rel_append (hsame before (List.subset_append_left _ _))
      (.cons ⟨rfl, rfl, rfl, h⟩ (hsame after (List.subset_append_right _ _)))

/-- **Writing is atomic** exactly when the items in front of the first one that is refused change
nothing. -/
theorem write_sameResources_iff (hown : OwnsInstances o m l)
    (h : t.write m l instanceId items = .ok (m', l', code)) :
    (code ≠ coap204Changed → SameResources r m l m' l') ↔ WritesBack r m l instanceId items := by
  obtain ⟨hfind, rfl, rfl, rfl⟩ | ⟨before, n, after, x', hfind, rfl, rfl, hcode, hreads, hcells⟩ :=
    write_nodes r hown h
  · refine iff_of_true (fun _ => .refl r m' l') fun targetP htarget => ?_
    rw [hfind] at htarget
    cases htarget
  · rw [sameResources_iff r hcells, hreads]
    constructor
    · intro hsame targetP htarget
      obtain rfl := Option.some.inj (hfind.symm.trans htarget)
      by_cases hall : items.all r.accepts = true
      · exact .inl hall
      · exact .inr (hsame (mt hcode.mp hall))
    · intro hback hne
      exact (hback n hfind).resolve_left (mt hcode.mpr hne)

/-! ### Creating -/

/-- A node without its link. -/
def unlink (n : ListNode α) : ListNode α :=
  { n with next := none }

theorem relink_map_unlink (l : List (ListNode α)) : relink (l.map unlink) = relink l := by
  induction l with
  | nil => rfl
  | cons n rest ih =>
    rw [List.map_cons, relink, relink, ih, List.head?_map, Option.map_map]
    rfl

theorem map_unlink_relink (l : List (ListNode α)) : (relink l).map unlink = l.map unlink := by
  induction l with
  | nil => rfl
  | cons n rest ih =>
    rw [relink, List.map_cons, List.map_cons, ih]
    rfl

theorem relink_of_linked (h : Linked l) : relink l = l := by
  induction l with
  | nil => rfl
  | cons n rest ih => rw [relink, ih h.2, ← h.1]

/-- A list that is linked, taken apart at one node. -/
theorem relink_eq_append (before after : List (ListNode α)) (n : ListNode α) :
    ∃ before' n' after', relink (before ++ n :: after) = before' ++ n' :: after' ∧
      before'.map unlink = before.map unlink ∧ unlink n' = unlink n ∧
      after'.map unlink = after.map unlink := by
  have h := map_unlink_relink (before ++ n :: after)
  rw [List.map_append, List.map_cons, List.map_eq_append_iff] at h
  obtain ⟨before', rest, hsplit, hbefore, hrest⟩ := h
  obtain ⟨n', after', rfl, hn, hafter⟩ := List.map_eq_cons_iff.mp hrest
  exact ⟨before', n', after', hsplit, hbefore, hn, hafter⟩

/-- Where a node is added whose id the first node does not have. -/
theorem listAdd_eq_append (hhead : ∀ head ∈ l.head?, head.id ≠ n.id) :
    ∃ before after, l = before ++ after ∧ (∀ n' ∈ before, n'.id < n.id) ∧
      listAdd ListNode.id n l = before ++ n :: after := by
  cases l with
  | nil => exact ⟨[], [], rfl, fun _ h => absurd h List.not_mem_nil, rfl⟩
  | cons head tail =>
    rw [listAdd]
    split_ifs with hgt
    · exact ⟨[], head :: tail, rfl, fun _ h => absurd h List.not_mem_nil, rfl⟩
    · have hne := hhead head rfl
      have hlt : head.id < n.id := by
        rw [gt_iff_lt, UInt16.lt_iff_toNat_lt] at hgt
        rw [UInt16.lt_iff_toNat_lt]
        have hne := mt UInt16.toNat_inj.mp hne
        omega
      refine ⟨head :: tail.takeWhile (·.id < n.id), tail.dropWhile (·.id < n.id), ?_, ?_, rfl⟩
      · rw [List.cons_append, List.takeWhile_append_dropWhile]
      · exact List.forall_mem_cons.mpr ⟨hlt, fun n' hn' => by
          simpa using List.mem_takeWhile_imp hn'⟩

/-- Nodes with smaller ids are passed over. -/
theorem listFind_append (before : List (ListNode α)) (hbefore : ∀ n' ∈ before, n'.id < n.id) :
    listFind ListNode.id (before ++ n :: after) n.id = some n := by
  induction before with
  | nil => rw [List.nil_append, listFind_cons, if_neg (UInt16.lt_irrefl _), if_pos rfl]
  | cons head tail ih =>
    obtain ⟨hhead, htail⟩ := List.forall_mem_cons.mp hbefore
    rw [List.cons_append, listFind_cons, if_pos hhead, ih htail]

theorem linked_relink (l : List (ListNode α)) : Linked (relink l) := by
  induction l with
  | nil => trivial
  | cons n rest ih =>
    refine ⟨?_, ih⟩
    cases rest <;> rfl

/-- The list once the new node is added. -/
theorem ownsInstances_listAdd (hown : OwnsInstances o m l) (instanceId : UInt16) :
    OwnsInstances o (m.alloc .node).1
      (relink (listAdd ListNode.id ⟨m.frontier, none, instanceId, t.zero⟩ l)) := by
  have hall : Owns m [] m (cellsOf o.pointers l ++ []) := by
    rw [List.append_nil]
    exact ⟨hown.nodup, hown.allocated, fun _ _ => List.not_mem_nil,
      fun _ ha => absurd ha List.not_mem_nil, fun _ _ => rfl⟩
  let targetP : ListNode α := ⟨m.frontier, none, instanceId, t.zero⟩
  have hperm : (cellsOf o.pointers (listAdd ListNode.id targetP l) ++ []).Perm _ :=
    o.cells_perm (listAdd_perm targetP l)
  have hnew := (hall.alloc .node).perm (hperm.trans (by simp [targetP, o.zero])).symm
  rw [List.append_nil] at hnew
  refine ⟨?_, ?_, linked_relink _⟩
  · rw [cellsOf_relink]
    exact hnew.nodup
  · rw [cellsOf_relink]
    exact hnew.allocated

/-- What the delete callback does when a creation fails: it removes a node with the id of the
instance in front of which the ids are smaller. -/
theorem delete_at (before : List (ListNode α)) {r' : Heap × List (ListNode α) × Code}
    (hbefore : ∀ n' ∈ before, n'.id < n.id)
    (hown : Owns m₀ kept m (o.pointers n.fields ++ [n.address]))
    (h : t.delete m (before ++ n :: after) n.id = .ok r') :
    r'.2.1 = relink (before ++ after) ∧ ∀ a ∈ kept, r'.1.cells a = m₀.cells a := by
  unfold ObjectType.delete at h
  rw [listRemove_append hbefore] at h
  obtain ⟨m₁, hfields, hown₁⟩ := o.deleteFields hown
  obtain ⟨m₂, hfree, hown₂⟩ := lwm2mFree_owns (p := some n.address) hown₁
  dsimp only at h
  rw [hfields, ok_bind, hfree, ok_bind] at h
  cases h
  exact ⟨rfl, hown₂.cells⟩

/-- A creation that fails, where the node that is deleted is the new one. -/
theorem create_undone (hown : OwnsInstances o m l) (hhead : ∀ head ∈ l.head?, head.id ≠ instanceId)
    (h : t.create m l instanceId items = .ok (m', l', code)) (hcode : code ≠ coap201Created) :
    l' = l ∧ ∀ a ∈ cellsOf o.pointers l, m'.cells a = m.cells a := by
  let node : ListNode α := ⟨m.frontier, none, instanceId, t.zero⟩
  have hadded : OwnsInstances o (m.alloc .node).1 (relink (listAdd ListNode.id node l)) :=
    ownsInstances_listAdd hown instanceId
  obtain ⟨⟨m₁, l₁, code₁⟩, hwrite, h⟩ := bind_eq_ok_iff.mp h
  change t.write (m.alloc .node).1 (relink (listAdd ListNode.id node l)) instanceId items = _
    at hwrite
  obtain ⟨before, after, hsplit, hbefore, hadd⟩ := listAdd_eq_append (n := node) hhead
  obtain ⟨before', n, after', hlinked, hb, hn, ha⟩ :=
    relink_eq_append before after node
  rw [hadd, hlinked] at hwrite hadded
  -- What the links do not change.
  have hid : n.id = instanceId := congrArg ListNode.id hn
  have hsmaller : ∀ n' ∈ before', n'.id < n.id := by
    intro n' hn'
    have hmem : unlink n' ∈ before.map unlink := hb ▸ List.mem_map_of_mem hn'
    obtain ⟨n₁, hn₁, hsame⟩ := List.mem_map.mp hmem
    have hid₁ : (unlink n₁).id = (unlink n').id := congrArg ListNode.id hsame
    change n₁.id = n'.id at hid₁
    rw [hid, ← hid₁]
    exact hbefore n₁ hn₁
  have hrest : relink (before' ++ after') = l := by
    rw [← relink_map_unlink, List.map_append, hb, ha, ← List.map_append, relink_map_unlink,
      ← hsplit, relink_of_linked hown.linked]
  obtain ⟨x', -, rfl, hcells⟩ := write_at _ hadded (hid ▸ listFind_append _ hsmaller) hwrite
  dsimp only at h
  split_ifs at h with hchanged
  · obtain ⟨r', hdelete, h⟩ := bind_eq_ok_iff.mp h
    cases h
    rw [← hid] at hdelete
    obtain ⟨hl', hsame⟩ := delete_at (n := { n with fields := x' }) _ hsmaller hcells hdelete
    refine ⟨hl'.trans hrest, fun a ha => ?_⟩
    have hkept : (m.alloc .node).1.cells a = m.cells a :=
      alloc_cells_of_lt (lt_frontier (hown.allocated a ha))
    rw [← hrest, cellsOf_relink] at ha
    exact (hsame a ha).trans hkept
  · cases h
    exact absurd rfl hcode

/-- A creation where the node that is deleted, when it fails, was the first one. -/
theorem create_replaced {head : ListNode α} {tail : List (ListNode α)}
    (hown : OwnsInstances o m (head :: tail)) (hhead : head.id = instanceId)
    (h : t.create m (head :: tail) instanceId items = .ok (m', l', code)) :
    (code = coap201Created ∧ items.all r.accepts = true) ∨
      (code ≠ coap201Created ∧ items.all r.accepts ≠ true ∧ l' ≠ head :: tail) := by
  have hadded : OwnsInstances o (m.alloc .node).1
      (relink (listAdd ListNode.id ⟨m.frontier, none, instanceId, t.zero⟩ (head :: tail))) :=
    ownsInstances_listAdd hown instanceId
  obtain ⟨⟨m₁, l₁, code₁⟩, hwrite, h⟩ := bind_eq_ok_iff.mp h
  change t.write (m.alloc .node).1 (relink (listAdd ListNode.id
    ⟨m.frontier, none, instanceId, t.zero⟩ (head :: tail))) instanceId items = _ at hwrite
  have hgt : ¬ head.id > instanceId := hhead ▸ UInt16.lt_irrefl _
  rw [listAdd, if_neg hgt, List.cons_append, relink] at hwrite hadded
  -- The node is added somewhere behind the first one.
  generalize hrest : (tail.takeWhile (·.id < instanceId) ++
    ⟨m.frontier, none, instanceId, t.zero⟩ :: tail.dropWhile (·.id < instanceId) :
      List (ListNode α)) = rest at hwrite hadded
  have hnew : m.frontier ∈ cellsOf o.pointers rest := by
    rw [← hrest]
    exact address_mem_cellsOf (n := ⟨m.frontier, none, instanceId, t.zero⟩)
      (List.mem_append_right _ List.mem_cons_self)
  obtain ⟨x', hitems, rfl, hcells⟩ := write_at [] hadded
    (hhead ▸ listFind_append [] fun _ hn => absurd hn List.not_mem_nil) hwrite
  have hall := (writeItems_accepted r hitems).1
  dsimp only at h
  split_ifs at h with hchanged
  swap
  · cases h
    exact .inl ⟨rfl, hall.mp (not_not.mp hchanged)⟩
  obtain ⟨r', hdelete, h⟩ := bind_eq_ok_iff.mp h
  cases h
  refine .inr ⟨writeItems_code r hitems, mt hall.mpr hchanged, fun hsame => ?_⟩
  have hdeleted := (delete_at [] (fun _ hn => absurd hn List.not_mem_nil) hcells
    (hhead ▸ hdelete)).1
  have hmem : m.frontier ∈ cellsOf o.pointers (head :: tail) := by
    rw [← hsame, hdeleted, cellsOf_relink, List.nil_append, cellsOf_relink]
    exact hnew
  exact absurd (lt_frontier (hown.allocated _ hmem)) (lt_irrefl _)

/-- **Creating is atomic** exactly when the instance that is deleted is the one that was added. -/
theorem create_sameList_iff (hown : OwnsInstances o m l)
    (h : t.create m l instanceId items = .ok (m', l', code)) :
    (code ≠ coap201Created →
      l' = l ∧ ∀ n ∈ l, r.getValue m' n.fields = r.getValue m n.fields) ↔
      RemovesNew r l instanceId items := by
  by_cases hhead : ∀ head ∈ l.head?, head.id ≠ instanceId
  · refine iff_of_true (fun hcode => ?_) (.inr hhead)
    obtain ⟨hl', hcells⟩ := create_undone hown hhead h hcode
    exact ⟨hl', fun n hn => getValue_of_cells r hcells hn⟩
  · push Not at hhead
    obtain ⟨head, hmem, hid⟩ := hhead
    obtain ⟨tail, rfl⟩ := List.head?_eq_some_iff.mp hmem
    obtain ⟨hcode, hall⟩ | ⟨hcode, hall, hne⟩ := create_replaced r hown hid h
    · exact iff_of_true (fun hne => absurd hcode hne) (.inl hall)
    · refine iff_of_false (fun hsame => hne (hsame hcode).1) ?_
      rintro (hall' | hother)
      · exact hall hall'
      · exact hother head rfl hid

end

/-! ### The two objects -/

/-- **When a write and a creation change an instance list at once or not at all**, for the Security
and the Server Object: a write that is not answered with 2.04 leaves what every instance reads as
it was exactly when the items in front of the first one that is refused change nothing, and a
creation that is not answered with 2.01 leaves the list as it was exactly when the first node has
another id. -/
theorem writeCreate_atomic_iff (d : Decoders) {m m' : Heap} {instanceId : UInt16}
    {dataArray : List Data} {code : Code} :
    (∀ l l' : List (ListNode SecurityInstance), OwnsInstances (securityOwnership d) m l →
      ((securityObject d).write m l instanceId dataArray = .ok (m', l', code) →
        ((code ≠ coap204Changed → SameResources (securityResources d) m l m' l') ↔
          WritesBack (securityResources d) m l instanceId dataArray)) ∧
      ((securityObject d).create m l instanceId dataArray = .ok (m', l', code) →
        ((code ≠ coap201Created → l' = l ∧
            ∀ n ∈ l, SecurityInstance.getValue m' n.fields = SecurityInstance.getValue m n.fields) ↔
          RemovesNew (securityResources d) l instanceId dataArray))) ∧
    (∀ l l' : List (ListNode ServerInstance), OwnsInstances (serverOwnership d) m l →
      ((serverObject d).write m l instanceId dataArray = .ok (m', l', code) →
        ((code ≠ coap204Changed → SameResources (serverResources d) m l m' l') ↔
          WritesBack (serverResources d) m l instanceId dataArray)) ∧
      ((serverObject d).create m l instanceId dataArray = .ok (m', l', code) →
        ((code ≠ coap201Created → l' = l) ↔
          RemovesNew (serverResources d) l instanceId dataArray))) := by
  refine ⟨fun l l' hown => ⟨fun h => ?_, fun h => ?_⟩, fun l l' hown => ⟨fun h => ?_, fun h => ?_⟩⟩
  · exact write_sameResources_iff (securityResources d) hown h
  · exact create_sameList_iff (securityResources d) hown h
  · exact write_sameResources_iff (serverResources d) hown h
  · refine Iff.trans ?_ (create_sameList_iff (serverResources d) hown h)
    exact forall_congr' fun _ => ⟨fun hl => ⟨hl, fun _ _ => rfl⟩, And.left⟩

/-- What the decoders make of an opaque value of one byte. -/
def byteDecoders : Decoders where
  decodeInt
    | .mk _ .opaqueBytes [b] _ => some b.toBitVec.toInt
    | _ => none
  decodeBool
    | .mk _ .opaqueBytes [0] _ => some false
    | .mk _ .opaqueBytes [1] _ => some true
    | _ => none

/-- A Server Object with one instance, whose lifetime is 300 s. -/
def lifetimeServers : List (ListNode ServerInstance) :=
  [{ address := 0
     next := none
     id := 0
     fields :=
      { ServerInstance.zero with
        shortServerId := 1
        lifetime := 300 } }]

/-- The lifetime 60 s and the Short Server ID 0, which is refused. -/
def lifetimeThenShortId : List Data :=
  [.mk 1 .opaqueBytes [60] [], .mk 0 .opaqueBytes [0] []]

/-- The Short Server ID is refused and the lifetime stays written. -/
theorem lifetimeThenShortId_writes :
    ∃ l', (serverObject byteDecoders).write (Memory.empty.alloc .node).1 lifetimeServers 0
        lifetimeThenShortId =
          .ok ((Memory.empty.alloc .node).1, l', coap406NotAcceptable) ∧
      ¬ SameResources (serverResources byteDecoders) (Memory.empty.alloc .node).1 lifetimeServers
        (Memory.empty.alloc .node).1 l' := by
  refine ⟨_, rfl, fun h => ?_⟩
  have hlifetime := congrFun (List.forall₂_cons.mp h).1.2.2.2 1
  exact absurd hlifetime (by decide)

/-- The other way round, the Short Server ID is refused before anything is written. -/
theorem shortIdThenLifetime_atomic :
    ∃ l', (serverObject byteDecoders).write (Memory.empty.alloc .node).1 lifetimeServers 0
        lifetimeThenShortId.reverse =
          .ok ((Memory.empty.alloc .node).1, l', coap406NotAcceptable) ∧
      SameResources (serverResources byteDecoders) (Memory.empty.alloc .node).1 lifetimeServers
        (Memory.empty.alloc .node).1 l' := by
  have hown : OwnsInstances (serverOwnership byteDecoders) (Memory.empty.alloc .node).1
      lifetimeServers :=
    ⟨List.nodup_singleton 0, fun a ha => by cases List.mem_singleton.mp ha; rfl, rfl, trivial⟩
  have hwrite : (serverObject byteDecoders).write (Memory.empty.alloc .node).1 lifetimeServers 0
      lifetimeThenShortId.reverse =
        .ok ((Memory.empty.alloc .node).1, lifetimeServers, coap406NotAcceptable) := rfl
  have hsame := ((writeCreate_atomic_iff byteDecoders).2 _ _ hown).1 hwrite
  have hback : WritesBack (serverResources byteDecoders) (Memory.empty.alloc .node).1
      lifetimeServers 0 lifetimeThenShortId.reverse := by
    intro targetP _
    have hnone : ItemsAccepted (serverObject byteDecoders) (Memory.empty.alloc .node).1 targetP.fields []
        (Memory.empty.alloc .node).1 targetP.fields := .nil _ _
    exact .inr (ServerInstance.accepted_run hnone).2.symm
  exact ⟨_, hwrite, hsame.mpr hback (by decide)⟩

end Lwm2m.Core

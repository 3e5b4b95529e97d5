/-
# What the tree of a JSON payload holds

`prv_convertRecord` of `data/senml_json.c` and of `data/json.c` again: which of the records the tree
still holds in the end, and what the nodes are that `json_findDataItem` and `json_extendData` are
applied to.

The values that a tree holds are at its leaves.  A record puts a value at its path and takes away
what was at the nodes below; a record that goes below a value extends a node that is no container.
So everything depends on the order of the records (`InOrder`), and a record has to name a node
(`keepsRecords_iff`).
-/

import Lwm2m.Codec.JsonTree
import Mathlib.Algebra.Order.BigOperators.Group.List
import Mathlib.Algebra.Order.Ring.Nat
import Mathlib.Data.Fin.VecNotation
import Mathlib.Data.List.Infix

namespace Lwm2m.Codec

open Core Library

/-! ### Values and their paths -/

/-- A value, and the identifiers on the path to it. -/
abbrev PathValue := List UInt16 × Leaf

mutual

/-- The values at a node and below it. -/
def Node.held : Node → List PathValue
  | .mk id type value children =>
    if isContainer type then (heldBy children).map fun h => (id :: h.1, h.2) else [([id], value)]

/-- The values in an array of nodes. -/
def heldBy : List Node → List PathValue
  | [] => []
  | item :: items => item.held ++ heldBy items

end

/-- The identifiers of an entry. -/
def Entry.path (e : Entry) : List UInt16 := e.segments.map Prod.fst ++ e.resourceInstance.toList

/-- What an entry brings, unless its value is refused. -/
def Entry.brings (e : Entry) : Option PathValue := e.value.map fun value => (e.path, value)

/-- The values behind a new one: those at its path and below are gone. -/
def replaceFrom (held : List PathValue) (new : PathValue) : List PathValue :=
  held.filter (¬ new.1 <+: ·.1) ++ [new]

/-- The node holds no value: it has the type of a container, or none yet.  A new resource has none
when `prv_convertRecord` makes it a multiple resource, and neither has the array of the roots. -/
def Node.Extendable (n : Node) : Prop := isContainer n.type ∨ n.type = .undefined

instance (n : Node) : Decidable n.Extendable := inferInstanceAs (Decidable (_ ∨ _))

/-- The node that an entry goes on at: the one that `json_findDataItem` finds, or a new one. -/
def childAt (items : List Node) (id : UInt16) (type : DataType) : Node :=
  ((focusFirst (fun item => item.type ≠ .undefined ∧ item.id = id) items).map Focus.here).getD
    (.new id type)

/-- The nodes on the way that `json_findDataItem` and `json_extendData` are applied to hold no
values. -/
def ExtendsContainers (resourceInstance : Option UInt16) :
    List (UInt16 × DataType) → Node → Prop
  | [], target => resourceInstance ≠ none → target.Extendable
  | (id, type) :: segments, target => target.Extendable ∧
      ExtendsContainers resourceInstance segments (childAt target.children id type)

/-! ### Records in their turn -/

/-- The turn of a record; `none` when it is refused before its path is taken. -/
abbrev RecordTurn := Option Entry

/-- The records, one after the other. -/
def placeTurns (turns : List RecordTurn) (target : Node) : Except ParseStop Node :=
  turns.foldlM (fun target turn => turn.elim (throw .error) (·.place target)) target

/-- Something holds of every record with a path, after those before it. -/
def AtEach (P : List RecordTurn → Entry → Prop) (turns : List RecordTurn) : Prop :=
  ∀ front e back, turns = front ++ some e :: back → P front e

/-- None of the records is refused. -/
def Taken (turns : List RecordTurn) : Prop := ∀ turn ∈ turns, ∃ e ∈ turn, e.value ≠ none

/-- What the records bring. -/
def broughtBy (turns : List RecordTurn) : List PathValue := turns.filterMap (·.bind Entry.brings)

/-- As long as none of the records is refused, none extends a node with a value. -/
def ExtendContainers : List RecordTurn → Prop :=
  AtEach fun front e => ∀ target, placeTurns front .root = .ok target →
    ExtendsContainers e.resourceInstance e.segments target

/-- **No record is lost and no value is a container**: the records are refused, or the tree holds
what they bring and nothing else; and no record extended a node with a value. -/
def KeepsRecords (turns : List RecordTurn) (result : Except ParseStop (List Node))
    (records : List (List UInt16 × Option Leaf)) : Prop :=
  ExtendContainers turns ∧ (result = .error .error ∨
    ∃ tree, result = .ok tree ∧ ((heldBy tree).map fun h => (h.1, some h.2)).Perm records)

/-- As long as none of the records is refused, one that goes below an earlier one comes after
another one that is above that, or the earlier one has a value without a type. -/
def NoneBelow : List RecordTurn → Prop :=
  AtEach fun front e => Taken front → ∀ a before b, front = a ++ some before :: b →
    before.path <+: e.path → before.value = some .undefined ∨
      ∃ turn ∈ b, ∃ e' ∈ turn, e'.path <+: before.path

/-- The order of the records: none goes below an earlier one, and if none is refused none is above
an earlier one. -/
def InOrder (turns : List RecordTurn) : Prop :=
  NoneBelow turns ∧
    (Taken turns → (turns.filterMap id).Pairwise fun before e => ¬ e.path <+: before.path)

/-! ### Trees that grow -/

/-- The nodes with a type have different identifiers. -/
def Distinct (items : List Node) : Prop :=
  items.Pairwise fun a b => a.type ≠ .undefined → b.type ≠ .undefined → a.id ≠ b.id

/-- The nodes that records in order leave: values, and containers that are not empty. -/
inductive Grown : Node → Prop
  | leaf (id : UInt16) (value : Leaf) : Grown (.mk id value.type value [])
  | container {id : UInt16} {type : DataType} {children : List Node} (htype : isContainer type)
      (hne : children ≠ []) (hdistinct : Distinct children) (hgrown : ∀ c ∈ children, Grown c) :
      Grown (.mk id type .undefined children)

/-- A node that can be extended, with what it holds so far. -/
structure Growing (n : Node) : Prop where
  extendable : n.Extendable
  value : n.value = .undefined
  distinct : Distinct n.children
  grown : ∀ c ∈ n.children, Grown c

variable {items items' : List Node} {h : PathValue} {segments : List (UInt16 × DataType)}

section Grown

variable {n c : Node} {items : List Node} {h : PathValue} {id : UInt16} {type : DataType}

theorem growing_new (htype : isContainer type ∨ type = .undefined) : Growing (.new id type) :=
  ⟨htype, rfl, .nil, fun _ hc => absurd hc List.not_mem_nil⟩

theorem Grown.growing (hn : Grown n) (htype : isContainer n.type) : Growing n := by
  cases hn with
  | leaf id value => exact absurd htype (not_isContainer_type value)
  | container htype _ hdistinct hgrown => exact ⟨.inl htype, rfl, hdistinct, hgrown⟩

theorem held_container (htype : isContainer n.type) :
    n.held = (heldBy n.children).map fun h => (n.id :: h.1, h.2) := by
  obtain ⟨id, type, value, children⟩ := n
  exact if_pos htype

theorem Grown.held_value (hn : Grown n) (htype : ¬ isContainer n.type) :
    n.type = n.value.type ∧ n.held = [([n.id], n.value)] := by
  cases hn with
  | leaf id value => exact ⟨rfl, if_neg htype⟩
  | container hcontainer => exact absurd hcontainer htype

theorem mem_heldBy : h ∈ heldBy items ↔ ∃ c ∈ items, h ∈ c.held := by
  induction items with
  | nil => simp [heldBy]
  | cons item items ih => simp [heldBy, ih]

theorem heldBy_perm (h : items.Perm items') :
    (heldBy items).Perm (heldBy items') := by
  induction h with
  | nil => exact .refl _
  | cons item _ ih => exact ih.append_left _
  | swap item item' items =>
    rw [heldBy, heldBy, heldBy, heldBy, ← List.append_assoc, ← List.append_assoc]
    exact List.perm_append_comm.append_right _
  | trans _ _ ih ih' => exact ih.trans ih'

/-- The path to a value begins with the node. -/
theorem Node.path_of_held (hh : h ∈ n.held) : ∃ rest, h.1 = n.id :: rest := by
  obtain ⟨id, type, value, children⟩ := n
  rw [Node.held] at hh
  split_ifs at hh
  · obtain ⟨h', -, rfl⟩ := List.mem_map.mp hh
    exact ⟨h'.1, rfl⟩
  · cases List.mem_singleton.mp hh
    exact ⟨[], rfl⟩

theorem type_eq_undefined_iff {value : Leaf} : value.type = .undefined ↔ value = .undefined := by
  cases value <;> simp [Leaf.type]

/-- A node without a type holds a value without a type. -/
theorem Grown.of_undefined (hn : Grown n) (htype : n.type = .undefined) (hh : h ∈ n.held) :
    h = ([n.id], .undefined) := by
  have hcontainer : ¬ isContainer n.type := by simp [htype, isContainer]
  obtain ⟨hvalue, hheld⟩ := hn.held_value hcontainer
  rw [hheld] at hh
  rw [List.mem_singleton.mp hh, type_eq_undefined_iff.mp (hvalue.symm.trans htype)]

/-- There is a value below every node. -/
theorem Grown.held_ne_nil (hn : Grown n) : n.held ≠ [] := by
  induction hn with
  | leaf id value =>
    rw [Node.held, if_neg (not_isContainer_type value)]
    exact List.cons_ne_nil _ _
  | @container id type children htype hne _ _ ih =>
    obtain ⟨c, hc⟩ := List.exists_mem_of_ne_nil children hne
    obtain ⟨h, hh⟩ := List.exists_mem_of_ne_nil _ (ih c hc)
    rw [Node.held, if_pos htype]
    exact List.ne_nil_of_mem (List.mem_map_of_mem (mem_heldBy.mpr ⟨c, hc, hh⟩))

end Grown

/-! ### The children of a growing node -/

section Children

variable {n c : Node} {items : List Node} {h : PathValue} {id : UInt16} {type : DataType}
  {f : Focus Node}

/-- The search of `json_findDataItem`. -/
theorem childAt_cases (items : List Node) (id : UInt16) (type : DataType) :
    (∃ f, focusFirst (fun item => item.type ≠ .undefined ∧ item.id = id) items = some f ∧
        childAt items id type = f.here ∧ f.list = items ∧ f.here.type ≠ .undefined ∧
        f.here.id = id) ∨
      focusFirst (fun item => item.type ≠ .undefined ∧ item.id = id) items = none ∧
        childAt items id type = .new id type ∧ ∀ c ∈ items, c.id = id → c.type = .undefined := by
  rw [childAt]
  cases hf : focusFirst (fun item => item.type ≠ .undefined ∧ item.id = id) items with
  | none =>
    refine .inr ⟨rfl, rfl, fun c hc hid => ?_⟩
    simpa [hid] using focusFirst_eq_none_iff.mp hf c hc
  | some f =>
    obtain ⟨hlist, hhere, -⟩ := focusFirst_eq_some_iff.mp hf
    obtain ⟨htype, hid⟩ : f.here.type ≠ .undefined ∧ f.here.id = id := by simpa using hhere
    exact .inl ⟨f, rfl, rfl, hlist, htype, hid⟩

theorem distinct_perm (h : items.Perm items') :
    Distinct items ↔ Distinct items' :=
  h.pairwise_iff fun hab hb ha => (hab ha hb).symm

/-- The other children with the identifier of one that has a type have none. -/
theorem Distinct.undefined_of_mem_unlink (hd : Distinct f.list) (htype : f.here.type ≠ .undefined)
    (hc : c ∈ f.unlink) (hid : c.id = f.here.id) : c.type = .undefined := by
  have hcons := (distinct_perm (f.set_perm f.here)).mp hd
  by_contra hne
  exact (List.pairwise_cons.mp hcons).1 c hc htype hne hid.symm

/-- A value at the identifier of nodes without a type. -/
theorem eq_of_undefined (hgrown : ∀ c ∈ items, Grown c)
    (hid : ∀ c ∈ items, c.id = id → c.type = .undefined) (hh : h ∈ heldBy items)
    (hpath : [id] <+: h.1) : h = ([id], .undefined) := by
  obtain ⟨c, hc, hh⟩ := mem_heldBy.mp hh
  obtain ⟨rest, hrest⟩ := Node.path_of_held hh
  rw [hrest, List.cons_prefix_cons] at hpath
  rw [hpath.1]
  exact (hgrown c hc).of_undefined (hid c hc hpath.1.symm) hh

theorem growing_childAt (hgrown : ∀ c ∈ items, Grown c)
    (h : (childAt items id type).Extendable) : Growing (childAt items id type) := by
  obtain ⟨f, -, hchild, hlist, htype, -⟩ | ⟨-, hchild, -⟩ := childAt_cases items id type
  · rw [hchild] at h ⊢
    exact (hgrown _ (hlist ▸ f.here_mem_list)).growing (h.resolve_right htype)
  · rw [hchild] at h ⊢
    exact growing_new h

/-- **The child and the others**: `json_findDataItem` and `json_extendData` put the child in its
place or behind the others, and those of them with its identifier have no type. -/
theorem exists_others (hdistinct : Distinct items) (id : UInt16) (type : DataType) :
    ∃ (put : Node → List Node) (others : List Node),
      (∀ place, findOrExtend items id type place = put <$> place (childAt items id type)) ∧
      (∀ c, (put c).Perm (c :: others)) ∧ others.Sublist items ∧
      (∀ c ∈ others, c.id = id → c.type = .undefined) ∧
      (childAt items id type).id = id ∧
      ((childAt items id type).type ≠ .undefined ∧
          items.Perm (childAt items id type :: others) ∨
        childAt items id type = .new id type ∧ items = others) := by
  obtain ⟨f, hf, hchild, rfl, htype, hid⟩ | ⟨hf, hchild, hothers⟩ := childAt_cases items id type
  · refine ⟨f.set, f.unlink, fun place => ?_, f.set_perm, ?_, fun c hc hcid => ?_, ?_, .inl ?_⟩
    · rw [findOrExtend, hf, hchild]
    · exact (List.sublist_cons_self f.here f.after).append_left f.before
    · exact hdistinct.undefined_of_mem_unlink htype hc (hcid.trans hid.symm)
    · rw [hchild, hid]
    · rw [hchild]
      exact ⟨htype, f.set_perm f.here⟩
  · refine ⟨fun c => items ++ [c], items, fun place => ?_, fun c => ?_,
      List.Sublist.refl items, hothers, ?_, .inr ⟨hchild, rfl⟩⟩
    · rw [findOrExtend, hf, hchild]
    · exact List.perm_append_singleton c items
    · rw [hchild]
      rfl

theorem path_ne_nil (hh : h ∈ heldBy items) : h.1 ≠ [] := by
  obtain ⟨c, -, hc⟩ := mem_heldBy.mp hh
  obtain ⟨rest, hrest⟩ := Node.path_of_held hc
  simp [hrest]

end Children

/-! ### What a new value replaces -/

section Replace

variable {held front back : List PathValue} {new : PathValue} {id : UInt16} {path : List UInt16}
  {value : Leaf}

theorem replaceFrom_perm (hperm : held.Perm (front ++ back))
    (hback : ∀ h ∈ back, ¬ new.1 <+: h.1) :
    (replaceFrom held new).Perm (replaceFrom front new ++ back) := by
  have hkept : back.filter (¬ new.1 <+: ·.1) = back :=
    List.filter_eq_self.mpr fun h hh => by simpa using hback h hh
  have hfilter := hperm.filter (¬ new.1 <+: ·.1)
  rw [List.filter_append, hkept] at hfilter
  rw [replaceFrom, replaceFrom, List.append_assoc]
  refine (hfilter.append_right [new]).trans ?_
  rw [List.append_assoc]
  exact List.perm_append_comm.append_left _

theorem replaceFrom_below (h : ∀ h ∈ held, new.1 <+: h.1) : replaceFrom held new = [new] := by
  have hnil : held.filter (¬ new.1 <+: ·.1) = [] := by simpa using h
  rw [replaceFrom, hnil, List.nil_append]

theorem replaceFrom_map : replaceFrom (held.map fun h => (id :: h.1, h.2)) (id :: path, value) =
    (replaceFrom held (path, value)).map fun h => (id :: h.1, h.2) := by
  simp [replaceFrom, List.filter_map, Function.comp_def]

end Replace

/-! ### What one entry does -/

/-- The types of new nodes: those of containers, and none yet on the last level. -/
def TypedLevels : List (UInt16 × DataType) → Prop
  | [] => True
  | (_, type) :: segments =>
    (isContainer type ∨ type = .undefined ∧ segments = []) ∧ TypedLevels segments

/-- The path is not that of an entry, and not below it where that is a resource instance. -/
def ApartFrom (resourceInstance : Option UInt16) (path other : List UInt16) : Prop :=
  path <+: other → resourceInstance = none ∧ other ≠ path

section Placing

variable {n : Node} {resourceInstance : Option UInt16} {segments : List (UInt16 × DataType)}
  {id : UInt16} {path : List UInt16}

theorem apart_cons_iff {other : List UInt16} :
    ApartFrom resourceInstance (id :: path) (id :: other) ↔
      ApartFrom resourceInstance path other := by
  simp [ApartFrom]

theorem path_eq_nil_iff : segments.map Prod.fst ++ resourceInstance.toList = [] ↔
    segments = [] ∧ resourceInstance = none := by
  simp

theorem not_prefix_singleton (hh : h ∈ heldBy items)
    (hapart : ApartFrom resourceInstance [id] h.1) : ¬ h.1 <+: [id] := by
  intro hpath
  have heq : h.1 = [id] := by
    rcases List.prefix_cons_iff.mp hpath with heq | ⟨rest, heq, hrest⟩
    · exact absurd heq (path_ne_nil hh)
    · rw [heq, List.prefix_nil.mp hrest]
  exact (hapart (heq ▸ List.prefix_rfl)).2 heq

theorem ExtendsContainers.extendable (h : ExtendsContainers resourceInstance segments n)
    (hne : segments.map Prod.fst ++ resourceInstance.toList ≠ []) : n.Extendable := by
  cases segments with
  | nil =>
    refine h fun hnone => hne ?_
    simp [hnone]
  | cons level segments => exact h.1

variable {others : List Node}

/-- What is held at nodes whose child is no value. -/
theorem heldBy_perm_childAt {type : DataType} (hc : (childAt items id type).Extendable)
    (hid : (childAt items id type).id = id)
    (hitems : (childAt items id type).type ≠ .undefined ∧
        items.Perm (childAt items id type :: others) ∨
      childAt items id type = .new id type ∧ items = others) :
    (heldBy items).Perm (((heldBy (childAt items id type).children).map
      fun h => (id :: h.1, h.2)) ++ heldBy others) := by
  obtain ⟨htype, hperm⟩ | ⟨hnew, rfl⟩ := hitems
  · have hheld := held_container (hc.resolve_right htype)
    rw [hid] at hheld
    rw [← hheld]
    exact heldBy_perm hperm
  · rw [hnew]
    exact .refl _

/-- **The nodes that an entry extends hold no values** exactly when none of the values is on its
way, one without a type apart. -/
theorem extendsContainers_iff (hn : Growing n) (hlevels : TypedLevels segments)
    (hapart : ∀ h ∈ heldBy n.children,
      ApartFrom resourceInstance (segments.map Prod.fst ++ resourceInstance.toList) h.1) :
    ExtendsContainers resourceInstance segments n ↔
      ∀ h ∈ heldBy n.children,
        h.1 <+: segments.map Prod.fst ++ resourceInstance.toList → h.2 = .undefined := by
  induction segments generalizing n with
  | nil =>
    refine iff_of_true (fun _ => hn.extendable) fun h hh hpath => ?_
    cases resourceInstance with
    | none => exact absurd (List.prefix_nil.mp hpath) (path_ne_nil hh)
    | some id => exact absurd hpath (not_prefix_singleton hh (hapart h hh))
  | cons level segments ih =>
    obtain ⟨id, type⟩ := level
    obtain ⟨htype, hlevels⟩ := hlevels
    by_cases hend : segments.map Prod.fst ++ resourceInstance.toList = []
    · rw [List.map_cons, List.cons_append, hend] at hapart ⊢
      refine iff_of_true ⟨hn.extendable, ?_⟩ fun h hh hpath =>
        absurd hpath (not_prefix_singleton hh (hapart h hh))
      obtain ⟨rfl, rfl⟩ := path_eq_nil_iff.mp hend
      exact fun hne => absurd rfl hne
    obtain ⟨put, others, -, -, hsub, hothers, hid, hitems⟩ :=
      exists_others hn.distinct id type
    by_cases hc : (childAt n.children id type).Extendable
    · have hheld := heldBy_perm_childAt hc hid hitems
      have hmem {h : PathValue} (hh : h ∈ heldBy (childAt n.children id type).children) :
          (id :: h.1, h.2) ∈ heldBy n.children :=
        hheld.mem_iff.mpr (List.mem_append_left _ (List.mem_map_of_mem hh))
      rw [ExtendsContainers, and_iff_right hn.extendable, ih (growing_childAt hn.grown hc) hlevels
        fun h hh => apart_cons_iff.mp (hapart _ (hmem hh))]
      constructor
      · intro hall h hh hpath
        rcases List.mem_append.mp (hheld.mem_iff.mp hh) with hh' | hh'
        · obtain ⟨h', hchild, rfl⟩ := List.mem_map.mp hh'
          exact hall h' hchild (List.cons_prefix_cons.mp hpath).2
        · rcases List.prefix_cons_iff.mp hpath with hnil | ⟨rest, hrest, -⟩
          · exact absurd hnil (path_ne_nil hh)
          · have hgrown : ∀ c ∈ others, Grown c := fun c hc => hn.grown c (hsub.subset hc)
            rw [eq_of_undefined hgrown hothers hh' ⟨rest, hrest.symm⟩]
      · exact fun hall h hh hpath =>
          hall (id :: h.1, h.2) (hmem hh) (List.cons_prefix_cons.mpr ⟨rfl, hpath⟩)
    · refine iff_of_false (fun hwalk => hc (hwalk.2.extendable hend)) fun hall => ?_
      obtain ⟨hdefined, hperm⟩ | ⟨hnew, -⟩ := hitems
      · have hmem : childAt n.children id type ∈ n.children :=
          hperm.mem_iff.mpr List.mem_cons_self
        obtain ⟨hvalue, hheld⟩ := (hn.grown _ hmem).held_value (mt .inl hc)
        have hh : ([id], (childAt n.children id type).value) ∈ heldBy n.children :=
          mem_heldBy.mpr ⟨_, hmem, by rw [hheld, hid]; exact List.mem_singleton_self _⟩
        have hundefined := hall _ hh ⟨_, rfl⟩
        exact hdefined (hvalue.trans (type_eq_undefined_iff.mpr hundefined))
      · rw [hnew] at hc
        exact hc (htype.imp_right And.left)

/-- A refused value, where no value is extended. -/
theorem placeRecord_none (hn : Growing n)
    (hwalk : ExtendsContainers resourceInstance segments n) :
    placeRecord resourceInstance none segments n = .error .error := by
  induction segments generalizing n with
  | nil =>
    cases resourceInstance with
    | none => rfl
    | some id =>
      rw [placeRecord, Node.asChildren, if_pos hn.value]
      rfl
  | cons level segments ih =>
    obtain ⟨id, type⟩ := level
    obtain ⟨put, others, hput, -⟩ := exists_others hn.distinct id type
    have hplace : placeRecord resourceInstance none segments (childAt n.children id type) =
        .error .error := by
      by_cases hend : segments.map Prod.fst ++ resourceInstance.toList = []
      · obtain ⟨rfl, rfl⟩ := path_eq_nil_iff.mp hend
        rfl
      · exact ih (growing_childAt hn.grown (hwalk.2.extendable hend)) hwalk.2
    rw [placeRecord, Node.asChildren, if_pos hn.value, pure_eq_ok, ok_bind, hput, hplace]
    rfl

/-- A node in its place, and what the nodes hold then. -/
theorem distinct_put {c : Node} (hperm : items'.Perm (c :: others)) (hdistinct : Distinct items)
    (hgrown : ∀ c ∈ items, Grown c) (hsub : others.Sublist items)
    (hothers : ∀ o ∈ others, o.id = c.id → o.type = .undefined) (hc : Grown c) :
    items' ≠ [] ∧ Distinct items' ∧ (∀ c ∈ items', Grown c) ∧
      (heldBy items').Perm (c.held ++ heldBy others) := by
  refine ⟨fun hnil => ?_, (distinct_perm hperm).mpr ?_, fun c' hc' => ?_, heldBy_perm hperm⟩
  · exact List.cons_ne_nil _ _ (List.nil_perm.mp (hnil ▸ hperm))
  · refine List.pairwise_cons.mpr ⟨fun o ho _ htype hid => ?_, hdistinct.sublist hsub⟩
    exact htype (hothers o ho hid.symm)
  · rcases List.mem_cons.mp (hperm.mem_iff.mp hc') with rfl | ho
    · exact hc
    · exact hgrown c' (hsub.subset ho)

/-- **What an entry does where no value is extended**: its value comes in, and what was at its path
and below goes. -/
theorem placeRecord_some (hn : Growing n) (hlevels : TypedLevels segments) (value : Leaf)
    (hne : segments.map Prod.fst ++ resourceInstance.toList ≠ [])
    (hwalk : ExtendsContainers resourceInstance segments n)
    (hapart : ∀ h ∈ heldBy n.children,
      ApartFrom resourceInstance (segments.map Prod.fst ++ resourceInstance.toList) h.1) :
    ∃ children, placeRecord resourceInstance (some value) segments n =
        .ok (n.setChildren (if segments = [] then .multipleResource else n.type) children) ∧
      children ≠ [] ∧ Distinct children ∧ (∀ c ∈ children, Grown c) ∧
      (heldBy children).Perm (replaceFrom (heldBy n.children)
        (segments.map Prod.fst ++ resourceInstance.toList, value)) := by
  induction segments generalizing n with
  | nil =>
    cases resourceInstance with
    | none => exact absurd rfl hne
    | some id =>
      have hothers : ∀ h ∈ heldBy n.children, ¬ [id] <+: h.1 := fun h hh hpath =>
        absurd (hapart h hh hpath).1 (by simp)
      have hput := distinct_put (List.perm_append_singleton (.mk id value.type value []) n.children)
        hn.distinct hn.grown (List.Sublist.refl _) (fun o ho hid => ?_) (.leaf id value)
      · obtain ⟨hitems, hdistinct, hgrown, hheld⟩ := hput
        refine ⟨n.children ++ [.mk id value.type value []], ?_, hitems, hdistinct, hgrown, ?_⟩
        · rw [placeRecord, Node.asChildren, if_pos hn.value]
          rfl
        · refine hheld.trans (.symm ?_)
          rw [Node.held, if_neg (not_isContainer_type value)]
          exact replaceFrom_perm (.refl ([] ++ heldBy n.children)) hothers
      · obtain ⟨h, hh⟩ := List.exists_mem_of_ne_nil _ (hn.grown o ho).held_ne_nil
        obtain ⟨rest, hrest⟩ := Node.path_of_held hh
        refine absurd ?_ (hothers h (mem_heldBy.mpr ⟨o, ho, hh⟩))
        rw [hrest, hid]
        exact ⟨rest, rfl⟩
  | cons level segments ih =>
    obtain ⟨id, type⟩ := level
    obtain ⟨htype, hlevels⟩ := hlevels
    obtain ⟨put, others, hput, hperm, hsub, hothers, hid, hitems⟩ :=
      exists_others hn.distinct id type
    have hrest : ∀ h ∈ heldBy others,
        ¬ id :: (segments.map Prod.fst ++ resourceInstance.toList) <+: h.1 := by
      intro h hh hpath
      obtain ⟨o, ho, hh'⟩ := mem_heldBy.mp hh
      have hdifferent := (hapart h (mem_heldBy.mpr ⟨o, hsub.subset ho, hh'⟩) hpath).2
      obtain ⟨below, hbelow⟩ := hpath
      have heq := eq_of_undefined (fun c hc => hn.grown c (hsub.subset hc)) hothers hh
        ⟨_, hbelow⟩
      rw [heq, List.cons_append, List.cons.injEq] at hbelow
      obtain ⟨-, hnil⟩ := hbelow
      refine hdifferent ?_
      rw [heq, List.map_cons, List.cons_append, (List.append_eq_nil_iff.mp hnil).1]
    obtain ⟨c, hc, hcid, hcgrown, hcheld⟩ : ∃ c,
        placeRecord resourceInstance (some value) segments (childAt n.children id type) = .ok c ∧
        c.id = id ∧ Grown c ∧ (c.held ++ heldBy others).Perm (replaceFrom (heldBy n.children)
          (id :: (segments.map Prod.fst ++ resourceInstance.toList), value)) := by
      by_cases hend : segments.map Prod.fst ++ resourceInstance.toList = []
      · rw [hend] at hrest ⊢
        obtain ⟨rfl, rfl⟩ := path_eq_nil_iff.mp hend
        refine ⟨.mk (childAt n.children id type).id value.type value [], rfl, hid, .leaf _ value,
          ?_⟩
        rw [Node.held, if_neg (not_isContainer_type value), hid]
        refine .symm ?_
        obtain ⟨-, hchild⟩ | ⟨-, hnew⟩ := hitems
        · have hbelow : ∀ h ∈ (childAt n.children id type).held, [id] <+: h.1 := by
            intro h hh
            obtain ⟨below, hbelow⟩ := Node.path_of_held hh
            rw [hbelow, hid]
            exact ⟨below, rfl⟩
          have hlast : replaceFrom (childAt n.children id type).held ([id], value) =
              [([id], value)] := replaceFrom_below hbelow
          rw [← hlast]
          exact replaceFrom_perm (heldBy_perm hchild) hrest
        · rw [hnew]
          exact replaceFrom_perm (.refl ([] ++ heldBy others)) hrest
      · have hextendable := hwalk.2.extendable hend
        have hgrowing := growing_childAt hn.grown hextendable
        have hsplit := heldBy_perm_childAt hextendable hid hitems
        obtain ⟨children, hplace, hne, hdistinct, hgrown, hheld⟩ := ih hgrowing hlevels hend hwalk.2
          fun h hh => apart_cons_iff.mp (hapart (id :: h.1, h.2) (hsplit.mem_iff.mpr
            (List.mem_append_left _ (List.mem_map_of_mem hh))))
        have hcontainer : isContainer (if segments = [] then .multipleResource
            else (childAt n.children id type).type) := by
          split_ifs with hlast
          · exact .inr (.inr rfl)
          · obtain ⟨hdefined, -⟩ | ⟨hnew, -⟩ := hitems
            · exact hextendable.resolve_right hdefined
            · rw [hnew]
              exact htype.resolve_right fun h => hlast h.2
        refine ⟨_, hplace, hid, .container hcontainer hne hdistinct hgrown, ?_⟩
        refine .trans ?_ (replaceFrom_perm hsplit hrest).symm
        rw [replaceFrom_map, Node.setChildren, Node.held, if_pos hcontainer, hid]
        exact (hheld.map _).append_right _
    obtain ⟨hne, hdistinct, hgrown, hheld⟩ :=
      distinct_put (hperm c) hn.distinct hn.grown hsub (hcid ▸ hothers) hcgrown
    refine ⟨put c, ?_, hne, hdistinct, hgrown, hheld.trans hcheld⟩
    rw [placeRecord, Node.asChildren, if_pos hn.value, pure_eq_ok, ok_bind, hput, hc]
    rfl

end Placing

/-! ### The values that stay -/

section Stay

variable {turns : List RecordTurn} {turn : RecordTurn} {e : Entry} {held : List PathValue}
  {h : PathValue} {P : List RecordTurn → Entry → Prop}

theorem atEach_nil : AtEach P [] := by
  intro front e back h
  simp at h

theorem atEach_concat : AtEach P (turns ++ [turn]) ↔ AtEach P turns ∧ ∀ e ∈ turn, P turns e := by
  constructor
  · refine fun h => ⟨fun front e back heq => ?_, fun e he => ?_⟩
    · exact h front e (back ++ [turn]) (by rw [heq, List.append_assoc, List.cons_append])
    · exact h turns e [] (by rw [Option.mem_def.mp he])
  · rintro ⟨h, hlast⟩ front e back heq
    rcases List.eq_nil_or_concat back with rfl | ⟨back, turn', rfl⟩
    · obtain ⟨rfl, hturn⟩ := List.append_inj' heq rfl
      exact hlast e (List.singleton_inj.mp hturn)
    · rw [List.concat_eq_append, ← List.cons_append, ← List.append_assoc] at heq
      exact h front e back (List.append_inj' heq rfl).1

theorem taken_concat : Taken (turns ++ [turn]) ↔ Taken turns ∧ ∃ e ∈ turn, e.value ≠ none := by
  simp [Taken, or_imp, forall_and]

theorem foldl_replaceFrom_concat (held : List PathValue) (h : PathValue) :
    (held ++ [h]).foldl replaceFrom [] = replaceFrom (held.foldl replaceFrom []) h := by
  rw [List.foldl_append, List.foldl_cons, List.foldl_nil]

theorem length_foldl_le (held : List PathValue) :
    (held.foldl replaceFrom []).length ≤ held.length := by
  induction held using List.reverseRecOn with
  | nil => exact Nat.le_refl _
  | append_singleton held h ih =>
    rw [foldl_replaceFrom_concat, replaceFrom, List.length_append, List.length_append]
    exact Nat.add_le_add_right ((List.length_filter_le _ _).trans ih) _

theorem foldl_eq_self (h : held.Pairwise fun before h => ¬ h.1 <+: before.1) :
    held.foldl replaceFrom [] = held := by
  induction held using List.reverseRecOn with
  | nil => rfl
  | append_singleton held new ih =>
    obtain ⟨hbefore, -, hlast⟩ := List.pairwise_append.mp h
    rw [foldl_replaceFrom_concat, ih hbefore, replaceFrom, List.filter_eq_self.mpr]
    exact fun h hh => by simpa using hlast h hh new List.mem_cons_self

/-- **All values stay** only when none comes in above an earlier one. -/
theorem pairwise_of_length (h : (held.foldl replaceFrom []).length = held.length) :
    held.Pairwise fun before h => ¬ h.1 <+: before.1 := by
  induction held using List.reverseRecOn with
  | nil => exact .nil
  | append_singleton held new ih =>
    have hfilter := List.length_filter_le (fun h : PathValue => ¬ new.1 <+: h.1)
      (held.foldl replaceFrom [])
    have hheld := length_foldl_le held
    rw [foldl_replaceFrom_concat, replaceFrom, List.length_append, List.length_append,
      Nat.add_right_cancel_iff] at h
    have hbefore := ih (by omega)
    rw [foldl_eq_self hbefore] at h
    refine List.pairwise_append.mpr
      ⟨hbefore, List.pairwise_singleton _ _, fun h' hh' new' hnew => ?_⟩
    cases List.mem_singleton.mp hnew
    simpa using List.length_filter_eq_length_iff.mp h h' hh'

/-- A value stays until one comes in above it. -/
theorem mem_foldl_iff : h ∈ held.foldl replaceFrom [] ↔
    ∃ a b, held = a ++ h :: b ∧ ∀ h' ∈ b, ¬ h'.1 <+: h.1 := by
  induction held using List.reverseRecOn with
  | nil => simp
  | append_singleton held new ih =>
    rw [foldl_replaceFrom_concat, replaceFrom, List.mem_append, List.mem_filter, ih,
      List.mem_singleton]
    constructor
    · rintro (⟨⟨a, b, rfl, hb⟩, hnew⟩ | rfl)
      · refine ⟨a, b ++ [new], by simp, fun h' hh' => ?_⟩
        rcases List.mem_append.mp hh' with hh' | hh'
        · exact hb h' hh'
        · cases List.mem_singleton.mp hh'
          simpa using hnew
      · exact ⟨held, [], rfl, by simp⟩
    · rintro ⟨a, b, heq, hb⟩
      rcases List.eq_nil_or_concat b with rfl | ⟨b, new', rfl⟩
      · exact .inr (List.singleton_inj.mp (List.append_inj' heq rfl).2).symm
      · rw [List.concat_eq_append] at heq hb
        rw [← List.cons_append, ← List.append_assoc] at heq
        obtain ⟨rfl, hlast⟩ := List.append_inj' heq rfl
        cases List.singleton_inj.mp hlast
        refine .inl ⟨⟨a, b, rfl, fun h' hh' => hb h' (List.mem_append_left _ hh')⟩, ?_⟩
        simpa using hb new (List.mem_append_right _ List.mem_cons_self)

theorem mem_broughtBy : h ∈ broughtBy turns ↔ ∃ e, some e ∈ turns ∧ e.value = some h.2 ∧
    e.path = h.1 := by
  simp only [broughtBy, List.mem_filterMap, Option.bind_eq_some_iff, Entry.brings,
    Option.map_eq_some_iff]
  constructor
  · rintro ⟨turn, hturn, e, rfl, value, hvalue, rfl⟩
    exact ⟨e, hturn, hvalue, rfl⟩
  · rintro ⟨e, hturn, hvalue, hpath⟩
    exact ⟨some e, hturn, e, rfl, h.2, hvalue, by rw [hpath]⟩

theorem brings_of_taken (h : ∃ e' ∈ some e, e'.value ≠ none) :
    ∃ value, e.value = some value ∧ broughtBy (turns ++ [some e]) =
      broughtBy turns ++ [(e.path, value)] := by
  obtain ⟨e', he', hvalue⟩ := h
  cases he'
  obtain ⟨value, hvalue⟩ := Option.ne_none_iff_exists'.mp hvalue
  exact ⟨value, hvalue, by simp [broughtBy, Entry.brings, hvalue]⟩

/-- Which values are still there above a path. -/
theorem noneAbove_iff (htaken : Taken turns) (path : List UInt16) :
    (∀ h ∈ (broughtBy turns).foldl replaceFrom [], h.1 <+: path → h.2 = .undefined) ↔
      ∀ a before b, turns = a ++ some before :: b → before.path <+: path →
        before.value = some .undefined ∨ ∃ turn ∈ b, ∃ e ∈ turn, e.path <+: before.path := by
  constructor
  · rintro h a before b rfl hpath
    by_contra hstays
    push Not at hstays
    obtain ⟨e, he, hvalue⟩ := htaken (some before) (by simp)
    cases he
    obtain ⟨value, hvalue⟩ := Option.ne_none_iff_exists'.mp hvalue
    have hmem : (before.path, value) ∈
        (broughtBy (a ++ some before :: b)).foldl replaceFrom [] := by
      refine mem_foldl_iff.mpr ⟨broughtBy a, broughtBy b, ?_, fun h' hh' => ?_⟩
      · simp [broughtBy, Entry.brings, hvalue]
      · obtain ⟨e, he, -, hep⟩ := mem_broughtBy.mp hh'
        exact hep ▸ hstays.2 (some e) he e rfl
    exact hstays.1 (hvalue.trans (congrArg some (h _ hmem hpath)))
  · intro h new hnew hpath
    obtain ⟨a', b', hsplit, hb'⟩ := mem_foldl_iff.mp hnew
    obtain ⟨a, rest, rfl, -, hrest⟩ := List.filterMap_eq_append_iff.mp hsplit
    obtain ⟨skipped, turn, b, rfl, -, hturn, hb⟩ := List.filterMap_eq_cons_iff.mp hrest
    obtain ⟨before, rfl, hbrings⟩ := Option.bind_eq_some_iff.mp hturn
    obtain ⟨value, hvalue, rfl⟩ := Option.map_eq_some_iff.mp hbrings
    rcases h (a ++ skipped) before b (by simp) hpath with hundefined | ⟨turn, hturn, e, he, hep⟩
    · exact Option.some.inj (hvalue.symm.trans hundefined)
    · cases he
      obtain ⟨e', he', hne⟩ := htaken (some e) (by simp [hturn])
      cases he'
      obtain ⟨value', hvalue'⟩ := Option.ne_none_iff_exists'.mp hne
      refine absurd hep (hb' (e.path, value') (hb ▸ ?_))
      exact mem_broughtBy.mpr ⟨e, hturn, hvalue', rfl⟩

end Stay

/-! ### The whole list -/

/-- Every record names a node with new nodes of its types on the way, and no record comes back to
what an earlier one names. -/
structure Separate (turns : List RecordTurn) : Prop where
  levels : ∀ turn ∈ turns, ∀ e ∈ turn, e.segments ≠ [] ∧ TypedLevels e.segments
  apart : turns.Pairwise fun before turn => ∀ b ∈ before, ∀ e ∈ turn,
    ApartFrom e.resourceInstance e.path b.path

section Turns

variable {turns : List RecordTurn} {turn : RecordTurn} {e : Entry} {target : Node}

theorem Separate.of_concat (h : Separate (turns ++ [turn])) :
    Separate turns ∧ (∀ e ∈ turn, e.segments ≠ [] ∧ TypedLevels e.segments) ∧
      ∀ before ∈ turns, ∀ b ∈ before, ∀ e ∈ turn, ApartFrom e.resourceInstance e.path b.path := by
  obtain ⟨hlevels, hapart⟩ := h
  obtain ⟨hbefore, -, hlast⟩ := List.pairwise_append.mp hapart
  refine ⟨⟨fun turn' hturn => hlevels turn' (List.mem_append_left _ hturn), hbefore⟩,
    hlevels turn (by simp), fun before hb b => hlast before hb turn List.mem_cons_self b⟩

/-- A value that stays has the path of an earlier record. -/
theorem apart_of_stays {resourceInstance : Option UInt16} {path : List UInt16}
    (hapart : ∀ before ∈ turns, ∀ b ∈ before, ApartFrom resourceInstance path b.path)
    (hh : h ∈ (broughtBy turns).foldl replaceFrom []) : ApartFrom resourceInstance path h.1 := by
  obtain ⟨a, b, hsplit, -⟩ := mem_foldl_iff.mp hh
  obtain ⟨b, hb, -, hpath⟩ := mem_broughtBy.mp
    (hsplit ▸ List.mem_append_right _ List.mem_cons_self)
  exact hpath ▸ hapart (some b) hb b rfl

theorem placeTurns_concat : placeTurns (turns ++ [turn]) target =
    placeTurns turns target >>= fun target => turn.elim (throw .error) (·.place target) := by
  simp only [placeTurns, List.foldlM_append, List.foldlM_cons, List.foldlM_nil, bind_pure]

/-- **A tree that holds what stays of the records.** -/
theorem exists_growing (hseparate : Separate turns) (hextend : ExtendContainers turns)
    (htaken : Taken turns) : ∃ target, placeTurns turns .root = .ok target ∧ Growing target ∧
      (heldBy target.children).Perm ((broughtBy turns).foldl replaceFrom []) := by
  induction turns using List.reverseRecOn with
  | nil => exact ⟨.root, rfl, growing_new (.inr rfl), .refl _⟩
  | append_singleton turns turn ih =>
    obtain ⟨hbefore, hlevels, hapart⟩ := hseparate.of_concat
    obtain ⟨hextendBefore, hwalk⟩ := atEach_concat.mp hextend
    obtain ⟨htakenBefore, hturn⟩ := taken_concat.mp htaken
    obtain ⟨target, hplace, hgrowing, hheld⟩ := ih hbefore hextendBefore htakenBefore
    cases turn with
    | none =>
      obtain ⟨e, he, -⟩ := hturn
      cases he
    | some e =>
      obtain ⟨value, hvalue, hbrings⟩ := brings_of_taken hturn
      obtain ⟨hsegments, htyped⟩ := hlevels e rfl
      obtain ⟨children, hplaced, -, hdistinct, hgrown, hchildren⟩ :=
        placeRecord_some hgrowing htyped value (by simp [hsegments]) (hwalk e rfl target hplace)
          fun h hh => apart_of_stays (fun before hb b hb' => hapart before hb b hb' e rfl)
            (hheld.mem_iff.mp hh)
      rw [if_neg hsegments] at hplaced
      refine ⟨target.setChildren target.type children, ?_,
        ⟨hgrowing.extendable, rfl, hdistinct, hgrown⟩, ?_⟩
      · rw [placeTurns_concat, hplace, ok_bind]
        show placeRecord e.resourceInstance e.value e.segments target = _
        rw [hvalue]
        exact hplaced
      · rw [hbrings, foldl_replaceFrom_concat]
        exact hchildren.trans ((hheld.filter _).append_right _)

/-- **The records are refused** when one of them is. -/
theorem placeTurns_error (hseparate : Separate turns) (hextend : ExtendContainers turns)
    (htaken : ¬ Taken turns) : placeTurns turns .root = .error .error := by
  induction turns using List.reverseRecOn with
  | nil => exact absurd (by simp [Taken]) htaken
  | append_singleton turns turn ih =>
    obtain ⟨hbefore, hlevels, hapart⟩ := hseparate.of_concat
    obtain ⟨hextendBefore, hwalk⟩ := atEach_concat.mp hextend
    by_cases htakenBefore : Taken turns
    · obtain ⟨target, hplace, hgrowing, -⟩ := exists_growing hbefore hextendBefore htakenBefore
      rw [placeTurns_concat, hplace, ok_bind]
      cases turn with
      | none => rfl
      | some e =>
        have hvalue : e.value = none := by
          by_contra hne
          exact htaken (taken_concat.mpr ⟨htakenBefore, e, rfl, hne⟩)
        show placeRecord e.resourceInstance e.value e.segments target = _
        rw [hvalue]
        exact placeRecord_none hgrowing (hwalk e rfl target hplace)
    · rw [placeTurns_concat, ih hbefore hextendBefore htakenBefore]
      rfl

/-- **No record extends a node with a value** exactly when none goes below one. -/
theorem extendContainers_iff_noneBelow (hseparate : Separate turns) :
    ExtendContainers turns ↔ NoneBelow turns := by
  induction turns using List.reverseRecOn with
  | nil => exact iff_of_true atEach_nil atEach_nil
  | append_singleton turns turn ih =>
    obtain ⟨hbefore, hlevels, hapart⟩ := hseparate.of_concat
    rw [ExtendContainers, NoneBelow, atEach_concat, atEach_concat]
    rw [← ExtendContainers, ← NoneBelow, ← ih hbefore]
    refine and_congr_right fun hextend => forall₂_congr fun e he => ?_
    by_cases htaken : Taken turns
    · obtain ⟨target, hplace, hgrowing, hheld⟩ := exists_growing hbefore hextend htaken
      obtain ⟨hsegments, htyped⟩ := hlevels e he
      have hwalk := extendsContainers_iff hgrowing htyped fun h hh =>
        apart_of_stays (fun before hb b hb' => hapart before hb b hb' e he) (hheld.mem_iff.mp hh)
      have hmem : (∀ h ∈ heldBy target.children, h.1 <+: e.path → h.2 = .undefined) ↔
          ∀ h ∈ (broughtBy turns).foldl replaceFrom [], h.1 <+: e.path → h.2 = .undefined :=
        forall_congr' fun h => imp_congr_left hheld.mem_iff
      calc (∀ target', placeTurns turns .root = .ok target' →
            ExtendsContainers e.resourceInstance e.segments target')
        _ ↔ ExtendsContainers e.resourceInstance e.segments target := by simp [hplace]
        _ ↔ _ := hwalk.trans (hmem.trans (noneAbove_iff htaken e.path))
        _ ↔ _ := (imp_iff_right htaken).symm
    · have herror := placeTurns_error hbefore hextend htaken
      simp [herror, htaken]

theorem heldBy_wrap (segments : List (UInt16 × DataType)) (roots : List Node)
    (hsegments : ∀ s ∈ segments, isContainer s.2) :
    heldBy (wrap segments roots) =
      (heldBy roots).map fun h => (segments.map Prod.fst ++ h.1, h.2) := by
  induction segments with
  | nil => simp [wrap]
  | cons level segments ih =>
    obtain ⟨id, type⟩ := level
    obtain ⟨htype, hsegments⟩ := List.forall_mem_cons.mp hsegments
    rw [wrap, heldBy, Node.held, if_pos htype, ih hsegments, heldBy, List.append_nil, List.map_map]
    rfl

/-- Where no record is refused each brings a value. -/
theorem length_broughtBy (htaken : Taken turns) : (broughtBy turns).length = turns.length := by
  refine List.filterMap_length_eq_length.mpr fun turn hturn => ?_
  obtain ⟨e, rfl, hvalue⟩ := htaken turn hturn
  rw [Option.bind_some, Entry.brings, Option.isSome_map]
  exact Option.isSome_iff_ne_none.mpr hvalue

/-- None of the records is above an earlier one, where each brings a value. -/
theorem pairwise_broughtBy_iff (htaken : Taken turns) :
    ((broughtBy turns).Pairwise fun before h => ¬ h.1 <+: before.1) ↔
      (turns.filterMap id).Pairwise fun before e => ¬ e.path <+: before.path := by
  rw [broughtBy, List.pairwise_filterMap, List.pairwise_filterMap]
  refine List.Pairwise.iff_of_mem fun {before turn} hbefore hturn => ?_
  obtain ⟨b, rfl, hb⟩ := htaken before hbefore
  obtain ⟨e, rfl, he⟩ := htaken turn hturn
  obtain ⟨value, hvalue⟩ := Option.ne_none_iff_exists'.mp hb
  obtain ⟨value', hvalue'⟩ := Option.ne_none_iff_exists'.mp he
  simp [Entry.brings, hvalue, hvalue']

/-- **The records are kept** exactly when they are in order and the tree has their paths. -/
theorem keepsRecords_wrap (hseparate : Separate turns) (hsegments : ∀ s ∈ segments, isContainer s.2)
    {records : List (List UInt16 × Option Leaf)} (hlength : records.length = turns.length) :
    KeepsRecords turns ((fun root => wrap segments root.children) <$> placeTurns turns .root)
        records ↔
      InOrder turns ∧ (Taken turns → ((broughtBy turns).map fun h =>
        (segments.map Prod.fst ++ h.1, some h.2)).Perm records) := by
  rw [KeepsRecords, InOrder, and_assoc, ← extendContainers_iff_noneBelow hseparate]
  refine and_congr_right fun hextend => ?_
  by_cases htaken : Taken turns
  · obtain ⟨target, hplace, -, hheld⟩ := exists_growing hseparate hextend htaken
    rw [hplace, imp_iff_right htaken, imp_iff_right htaken, ← pairwise_broughtBy_iff htaken]
    have htree : ((heldBy (wrap segments target.children)).map fun h => (h.1, some h.2)).Perm
        (((broughtBy turns).foldl replaceFrom []).map fun h =>
          (segments.map Prod.fst ++ h.1, some h.2)) := by
      rw [heldBy_wrap segments target.children hsegments, List.map_map]
      exact hheld.map _
    constructor
    · rintro (herror | ⟨tree, hok, hperm⟩)
      · cases herror
      · cases hok
        have hstay := htree.symm.trans hperm
        have hall := hstay.length_eq
        rw [List.length_map, hlength, ← length_broughtBy htaken] at hall
        have horder := pairwise_of_length hall
        rw [foldl_eq_self horder] at hstay
        exact ⟨horder, hstay⟩
    · rintro ⟨horder, hperm⟩
      rw [foldl_eq_self horder] at htree
      exact .inr ⟨_, rfl, htree.trans hperm⟩
  · rw [placeTurns_error hseparate hextend htaken]
    exact iff_of_true (.inl rfl) ⟨fun h => absurd h htaken, fun h => absurd h htaken⟩

/-- Records none of which is above another one are in order. -/
theorem inOrder_of_incomparable (h : (turns.filterMap id).Pairwise fun before e =>
    ¬ before.path <+: e.path ∧ ¬ e.path <+: before.path) : InOrder turns := by
  refine ⟨?_, fun _ => h.imp And.right⟩
  rintro front e back rfl - a before b rfl hpath
  rw [List.filterMap_append, List.filterMap_append] at h
  have hbefore := (List.pairwise_append.mp h).2.2 before (by simp) e (by simp)
  exact absurd hpath hbefore.1

end Turns

/-! ### The records of the two formats -/

/-- The levels that are set, up to the first that is not. -/
def setLevels (ids : List UInt16) : List UInt16 := ids.takeWhile (· ≠ lwm2mMaxId)

/-- The path of a URI. -/
def uriPath (uri : Uri) : List UInt16 :=
  setLevels [uri.objectId, uri.instanceId, uri.resourceId, uri.resourceInstanceId]

/-- The path of the base URI. -/
def basePath (base : Option NestedUri) : List UInt16 := base.elim [] fun uri => uriPath uri.toUri

/-- The path of a record of `data/senml_json.c`. -/
def SenmlRecord.names (record : SenmlRecord) : List UInt16 := uriPath record.name.toUri

/-- A record of `data/senml_json.c` in its turn. -/
def SenmlRecord.turn (record : SenmlRecord) : RecordTurn := some record.entry

/-- A record of `data/json.c` in its turn, below a base of `depth` levels. -/
def JsonRecord.turn (depth : ℕ) (record : JsonRecord) : RecordTurn :=
  if record.Misplaced depth then none else some (record.entry depth)

/-- The levels of a record of `data/json.c`. -/
def JsonRecord.names (record : JsonRecord) : List UInt16 :=
  setLevels [record.idAt 0, record.idAt 1, record.idAt 2, record.idAt 3]

/-- The path of an entry is the one of its record, of at most `limit` levels.  A record without a
path goes to a node with the identifier 65535, and a resource instance has all levels. -/
structure Names (limit : ℕ) (path : List UInt16) (value : Option Leaf) (e : Entry) : Prop where
  levels : e.segments ≠ [] ∧ TypedLevels e.segments
  path_eq : e.path = if path = [] then [lwm2mMaxId] else path
  value_eq : e.value = value
  length_le : e.path.length ≤ limit
  length_eq : e.resourceInstance ≠ none → e.path.length = limit

section Records

variable {α : Type*} {limit : ℕ} {records : List α} {path : α → List UInt16}
  {value : α → Option Leaf} {turn : α → RecordTurn} {ids : List UInt16} {id : UInt16}

theorem not_max_of_mem (h : id ∈ setLevels ids) : id ≠ lwm2mMaxId := by
  simpa using List.mem_takeWhile_imp h

/-- Records with different paths do not come back to one another. -/
theorem separate_of_nodup (hpath : ∀ r ∈ records, lwm2mMaxId ∉ path r)
    (hnames : ∀ r ∈ records, ∀ e ∈ turn r, Names limit (path r) (value r) e)
    (hnodup : (records.map path).Nodup) : Separate (records.map turn) := by
  constructor
  · intro t ht e he
    obtain ⟨r, hr, rfl⟩ := List.mem_map.mp ht
    exact (hnames r hr e he).levels
  · refine List.pairwise_map.mpr ((List.pairwise_map.mp hnodup).imp_of_mem ?_)
    intro r r' hr hr' hne b hb e he hpre
    have hb := hnames r hr b hb
    have he := hnames r' hr' e he
    have hdifferent : b.path ≠ e.path := by
      rw [hb.path_eq, he.path_eq]
      intro heq
      split_ifs at heq with hnil hnil' hnil'
      · exact hne (hnil.trans hnil'.symm)
      · exact hpath r' hr' (heq ▸ List.mem_cons_self)
      · exact hpath r hr (heq ▸ List.mem_cons_self)
      · exact hne heq
    refine ⟨?_, hdifferent⟩
    by_contra hinstance
    have hlength : b.path.length ≤ e.path.length := (he.length_eq hinstance) ▸ hb.length_le
    exact hdifferent (hpre.eq_of_length_le hlength).symm

/-- What the records bring, where none is refused. -/
theorem broughtBy_map (hnames : ∀ r ∈ records, ∀ e ∈ turn r, Names limit (path r) (value r) e)
    (htaken : Taken (records.map turn)) :
    ((broughtBy (records.map turn)).map fun h => (ids ++ h.1, some h.2)) =
      records.map fun r => (ids ++ if path r = [] then [lwm2mMaxId] else path r, value r) := by
  induction records with
  | nil => rfl
  | cons r records ih =>
    obtain ⟨hr, hrecords⟩ := List.forall_mem_cons.mp hnames
    obtain ⟨hturn, htaken⟩ := List.forall_mem_cons.mp htaken
    obtain ⟨e, he, hne⟩ := hturn
    obtain ⟨v, hv⟩ := Option.ne_none_iff_exists'.mp hne
    have hname := hr e he
    have hbrings : broughtBy (turn r :: records.map turn) =
        (e.path, v) :: broughtBy (records.map turn) := by
      simp [broughtBy, Option.mem_def.mp he, Entry.brings, hv]
    rw [List.map_cons, hbrings, List.map_cons, ih hrecords htaken, List.map_cons, hname.path_eq,
      ← hname.value_eq, hv]

variable {base : List UInt16}

/-- **The tree has the paths of the records** exactly when each of them has a path, and the nodes
of the base have the path of the base. -/
theorem perm_paths_iff (hpath : ∀ r ∈ records, lwm2mMaxId ∉ path r) (hbase : lwm2mMaxId ∉ base)
    (hids : ids <+: base ∨ lwm2mMaxId ∈ ids) :
    ((records.map fun r => (ids ++ if path r = [] then [lwm2mMaxId] else path r, value r)).Perm
        (records.map fun r => (base ++ path r, value r))) ↔
      (∀ r ∈ records, path r ≠ []) ∧ (records = [] ∨ ids = base) := by
  constructor
  · intro hperm
    have hpaths : (records.map fun r => ids ++ if path r = [] then [lwm2mMaxId] else path r).Perm
        (records.map fun r => base ++ path r) := by
      simpa only [List.map_map, Function.comp_def] using hperm.map Prod.fst
    have hset : ∀ r ∈ records, lwm2mMaxId ∉ ids ∧ path r ≠ [] := by
      intro r hr
      obtain ⟨r', hr', heq⟩ := List.mem_map.mp (hpaths.mem_iff.mp (List.mem_map_of_mem hr))
      have hmax : lwm2mMaxId ∉ ids ++ if path r = [] then [lwm2mMaxId] else path r := by
        rw [← heq, List.mem_append, not_or]
        exact ⟨hbase, hpath r' hr'⟩
      rw [List.mem_append, not_or] at hmax
      refine ⟨hmax.1, fun hnil => ?_⟩
      simp [hnil] at hmax
    refine ⟨fun r hr => (hset r hr).2, ?_⟩
    by_contra! hne
    obtain ⟨hrecords, hids'⟩ := hne
    obtain ⟨r, hr⟩ := List.exists_mem_of_ne_nil _ hrecords
    have hpre := hids.resolve_right (hset r hr).1
    have hlt : ids.length < base.length :=
      lt_of_not_ge fun hle => hids' (hpre.eq_of_length_le hle)
    refine absurd (hpaths.map List.length).sum_eq (ne_of_lt ?_)
    rw [List.map_map, List.map_map]
    refine List.sum_lt_sum_of_ne_nil hrecords _ _ fun r hr => ?_
    simp [if_neg (hset r hr).2, hlt]
  · rintro ⟨hnamed, rfl | rfl⟩
    · exact .refl _
    · refine .of_eq (List.map_congr_left fun r hr => ?_)
      rw [if_neg (hnamed r hr)]

/-- **The records of a format are kept** exactly when they are in order, every record that is
placed has a path, and so have the nodes of the base. -/
theorem keepsRecords_of_names (hpath : ∀ r ∈ records, lwm2mMaxId ∉ path r)
    (hnames : ∀ r ∈ records, ∀ e ∈ turn r, Names limit (path r) (value r) e)
    (hnodup : (records.map path).Nodup) (hsegments : ∀ s ∈ segments, isContainer s.2)
    (hbase : lwm2mMaxId ∉ base)
    (hids : segments.map Prod.fst <+: base ∨ lwm2mMaxId ∈ segments.map Prod.fst) :
    KeepsRecords (records.map turn)
        ((fun root => wrap segments root.children) <$> placeTurns (records.map turn) .root)
        (records.map fun r => (base ++ path r, value r)) ↔
      InOrder (records.map turn) ∧ (Taken (records.map turn) →
        (∀ r ∈ records, path r ≠ []) ∧ (records = [] ∨ segments.map Prod.fst = base)) := by
  rw [keepsRecords_wrap (separate_of_nodup hpath hnames hnodup) hsegments (by simp)]
  refine and_congr_right fun _ => imp_congr_right fun htaken => ?_
  rw [broughtBy_map hnames htaken]
  exact perm_paths_iff hpath hbase hids

end Records

section Formats

variable {depth : ℕ} {base : Option NestedUri}

theorem not_mem_setLevels (ids : List UInt16) : lwm2mMaxId ∉ setLevels ids :=
  fun h => not_max_of_mem h rfl

/-- The levels that are set come before those that are not. -/
theorem NestedUri.set_cases (uri : NestedUri) :
    (uri.objectId = lwm2mMaxId ∨ uri.objectId ≠ lwm2mMaxId) ∧ uri.instanceId = lwm2mMaxId ∧
        uri.resourceId = lwm2mMaxId ∧ uri.resourceInstanceId = lwm2mMaxId ∨
      uri.objectId ≠ lwm2mMaxId ∧ uri.instanceId ≠ lwm2mMaxId ∧
        (uri.resourceId = lwm2mMaxId ∧ uri.resourceInstanceId = lwm2mMaxId ∨
          uri.resourceId ≠ lwm2mMaxId ∧
            (uri.resourceInstanceId = lwm2mMaxId ∨ uri.resourceInstanceId ≠ lwm2mMaxId)) := by
  have hobject := uri.object_of_instance
  have hinstance := uri.instance_of_resource
  have hresource := uri.resource_of_resourceInstance
  tauto

theorem SenmlRecord.names_entry (record : SenmlRecord) :
    Names 4 record.names record.value record.entry := by
  obtain ⟨ho | ho, hi, hr, hri⟩ | ⟨ho, hi, ⟨hr, hri⟩ | ⟨hr, hri | hri⟩⟩ :=
    record.name.set_cases <;>
    constructor <;>
      simp [SenmlRecord.entry, Entry.path, SenmlRecord.names, uriPath, setLevels, TypedLevels,
        isContainer, Uri.isSetInstance, Uri.isSetResource, Uri.isSetResourceInstance, ho, hi, hr,
        hri]

variable {record : JsonRecord}

namespace JsonRecord

theorem names_entry (hdepth : depth ≤ 3) (h : ¬ record.Misplaced depth) :
    Names (4 - depth) record.names record.value (record.entry depth) := by
  obtain ⟨hmissing, htoomany⟩ := not_or.mp h
  have hset : ∀ i < 3 - depth, record.idAt i ≠ lwm2mMaxId := fun i hi heq => hmissing ⟨i, hi, heq⟩
  have hunset : 0 < depth → record.idAt (4 - depth) = lwm2mMaxId := fun hpos =>
    not_not.mp fun hne => htoomany ⟨hpos, hne⟩
  have hlast (i : ℕ) : record.idAt i = lwm2mMaxId ∨ record.idAt i ≠ lwm2mMaxId := em _
  obtain rfl | rfl | rfl | rfl : depth = 0 ∨ depth = 1 ∨ depth = 2 ∨ depth = 3 := by omega
  · obtain h3 | h3 := hlast 3 <;>
      constructor <;>
        simp [entry, Entry.path, names, setLevels, TypedLevels, isContainer, depthToDatatype,
          List.range', hset 0 (by decide), hset 1 (by decide), hset 2 (by decide), h3]
  · obtain h2 | h2 := hlast 2 <;>
      constructor <;>
        simp [entry, Entry.path, names, setLevels, TypedLevels, isContainer, depthToDatatype,
          hset 0 (by decide), hset 1 (by decide), hunset (by decide), h2]
  · obtain h1 | h1 := hlast 1 <;>
      constructor <;>
        simp [entry, Entry.path, names, setLevels, TypedLevels, isContainer, depthToDatatype,
          hset 0 (by decide), hunset (by decide), h1]
  · obtain h0 | h0 := hlast 0 <;>
      constructor <;>
        simp [entry, Entry.path, names, setLevels, TypedLevels, isContainer, depthToDatatype, h0,
          hunset (by decide)]

end JsonRecord

theorem length_baseSegments_le (base : Option NestedUri) : (baseSegments base).length ≤ 3 := by
  cases base with
  | none => exact Nat.zero_le _
  | some uri =>
    rw [baseSegments]
    split_ifs <;> simp

theorem isContainer_baseSegments : ∀ s ∈ baseSegments base, isContainer s.2 := by
  cases base with
  | none => simp [baseSegments]
  | some uri =>
    rw [baseSegments]
    split_ifs <;> simp [isContainer]

/-- The nodes of the base have its path, unless it has none or names a resource instance. -/
theorem baseSegments_path (uri : NestedUri) :
    ((baseSegments (some uri)).map Prod.fst <+: uriPath uri.toUri ∨
      lwm2mMaxId ∈ (baseSegments (some uri)).map Prod.fst) ∧
    ((baseSegments (some uri)).map Prod.fst = uriPath uri.toUri ↔
      uri.isSetObject ∧ ¬ uri.isSetResourceInstance) := by
  obtain ⟨ho | ho, hi, hr, hri⟩ | ⟨ho, hi, ⟨hr, hri⟩ | ⟨hr, hri | hri⟩⟩ := uri.set_cases <;>
    simp [baseSegments, uriPath, setLevels, Uri.isSetObject, Uri.isSetInstance, Uri.isSetResource,
      Uri.isSetResourceInstance, ho, hi, hr, hri]

theorem senmlConvertRecord_eq (records : List SenmlRecord) :
    senmlConvertRecord records =
      (fun root => wrap [] root.children) <$> placeTurns (records.map SenmlRecord.turn) .root := by
  rw [senmlConvertRecord, placeAll, placeTurns, List.foldlM_map, List.foldlM_map]
  rfl

theorem jsonConvertRecord_eq (records : List JsonRecord) :
    jsonConvertRecord base records =
      (fun root => wrap (baseSegments base) root.children) <$>
        placeTurns (records.map (JsonRecord.turn (baseSegments base).length)) .root := by
  rw [jsonConvertRecord, placeTurns, List.foldlM_map, map_eq_pure_bind]
  congr 2
  funext root record
  rw [JsonRecord.turn]
  split_ifs <;> rfl

theorem JsonRecord.names_turn :
    ∀ e ∈ record.turn (baseSegments base).length,
      Names (4 - (baseSegments base).length) record.names record.value e := by
  intro e he
  rw [turn] at he
  split_ifs at he with hmisplaced
  · cases he
  · cases he
    exact names_entry (length_baseSegments_le base) hmisplaced

end Formats

/-- **A payload keeps its records and extends no value** exactly when its records are in order and,
unless one of them is refused, each has a path, and the base of a JSON payload names an object and
no resource instance. -/
theorem keepsRecords_iff (senmlRecords : List SenmlRecord)
    (hsenml : (senmlRecords.map SenmlRecord.names).Nodup) (base : Option NestedUri)
    (jsonRecords : List JsonRecord) (hjson : (jsonRecords.map JsonRecord.names).Nodup) :
    (KeepsRecords (senmlRecords.map SenmlRecord.turn) (senmlConvertRecord senmlRecords)
        (senmlRecords.map fun r => (r.names, r.value)) ↔
      InOrder (senmlRecords.map SenmlRecord.turn) ∧
        (Taken (senmlRecords.map SenmlRecord.turn) → ∀ r ∈ senmlRecords, r.names ≠ [])) ∧
    (KeepsRecords (jsonRecords.map (JsonRecord.turn (baseSegments base).length))
        (jsonConvertRecord base jsonRecords)
        (jsonRecords.map fun r => (basePath base ++ r.names, r.value)) ↔
      InOrder (jsonRecords.map (JsonRecord.turn (baseSegments base).length)) ∧
        (Taken (jsonRecords.map (JsonRecord.turn (baseSegments base).length)) →
          (∀ r ∈ jsonRecords, r.names ≠ []) ∧ (jsonRecords = [] ∨
            ∀ uri ∈ base, uri.isSetObject ∧ ¬ uri.isSetResourceInstance))) := by
  constructor
  · have hpath : ∀ r ∈ senmlRecords, lwm2mMaxId ∉ r.names := fun r _ => not_mem_setLevels _
    have hnames : ∀ r ∈ senmlRecords, ∀ e ∈ r.turn, Names 4 r.names r.value e := by
      intro r _ e he
      cases he
      exact r.names_entry
    have hsegments : ∀ s ∈ ([] : List (UInt16 × DataType)), isContainer s.2 := by simp
    have hkeeps := keepsRecords_of_names hpath hnames hsenml hsegments List.not_mem_nil
      (.inl List.prefix_rfl)
    rw [senmlConvertRecord_eq]
    simpa only [List.map_nil, or_true, and_true, List.nil_append] using hkeeps
  · obtain ⟨hbase, hids, hpath⟩ : lwm2mMaxId ∉ basePath base ∧
        ((baseSegments base).map Prod.fst <+: basePath base ∨
          lwm2mMaxId ∈ (baseSegments base).map Prod.fst) ∧
        ((baseSegments base).map Prod.fst = basePath base ↔
          ∀ uri ∈ base, uri.isSetObject ∧ ¬ uri.isSetResourceInstance) := by
      cases base with
      | none => simp [basePath, baseSegments]
      | some uri =>
        refine ⟨not_mem_setLevels _, (baseSegments_path uri).1, (baseSegments_path uri).2.trans ?_⟩
        simp
    rw [jsonConvertRecord_eq, ← hpath]
    exact keepsRecords_of_names (fun r _ => not_mem_setLevels _) (fun r _ => r.names_turn) hjson
      isContainer_baseSegments hbase hids

/-- Two values of a JSON payload. -/
theorem keepsRecords_twoValues :
    KeepsRecords
      (([⟨![3, 0, 0, lwm2mMaxId], some (.integer 5)⟩, ⟨![3, 0, 1, 2], some (.integer 6)⟩] :
        List JsonRecord).map (JsonRecord.turn 0))
      (jsonConvertRecord none
        [⟨![3, 0, 0, lwm2mMaxId], some (.integer 5)⟩, ⟨![3, 0, 1, 2], some (.integer 6)⟩])
      [([3, 0, 0], some (.integer 5)), ([3, 0, 1, 2], some (.integer 6))] := by
  obtain ⟨-, hjson⟩ := keepsRecords_iff [] List.nodup_nil none
    [⟨![3, 0, 0, lwm2mMaxId], some (.integer 5)⟩, ⟨![3, 0, 1, 2], some (.integer 6)⟩] (by decide)
  exact hjson.mpr ⟨inOrder_of_incomparable (by decide), fun _ => ⟨by decide, .inr (by simp)⟩⟩

/-- The value of a resource, and then one of its instances: `json_extendData` reads the children of
the resource from the union that holds the value. -/
theorem resource_with_value_extended : ¬ ∀ records : List SenmlRecord,
    (records.map SenmlRecord.names).Nodup →
      KeepsRecords (records.map SenmlRecord.turn) (senmlConvertRecord records)
        (records.map fun r => (r.names, r.value)) := by
  intro h
  obtain ⟨-, hresult⟩ := h
    [⟨⟨⟨3, 0, 0, lwm2mMaxId⟩, by decide, by decide, by decide⟩, some (.integer 5)⟩,
      ⟨⟨⟨3, 0, 0, 1⟩, by decide, by decide, by decide⟩, some (.integer 6)⟩] (by decide)
  obtain herror | ⟨tree, htree, -⟩ := hresult
  · cases herror
  · cases htree

end Lwm2m.Codec

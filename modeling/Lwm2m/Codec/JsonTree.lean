/-
# The tree a JSON payload builds

`prv_convertRecord` of `data/senml_json.c` and of `data/json.c`, with `json_findDataItem`,
`json_extendData` and `json_dataStrip` of `data/json_common.c`.

A record names a node by up to four identifiers and brings a value.  The nodes on its path are
looked up by their identifiers and added where they are missing, whatever the nodes above them hold:
a value that an earlier record left at an object or at an instance is extended like a container.
The records are those that `prv_parseItem` made.  A value is the one that `prv_convertValue` copies,
`none` where it refuses to.

The union of a node is the member that was stored last.  A node that is extended while it
holds a value reads `asChildren` from it: it finds no children where the bytes of the value are
zero, and the read is a `Fault` elsewhere.
-/

import Lwm2m.Codec.Tree
import Lwm2m.Core.BootstrapWrite
import Lwm2m.Library.Except
import Lwm2m.Library.Focus

namespace Lwm2m.Codec

open Core Library

/-- How a parse ends without data: with the result -1, or in a fault. -/
inductive ParseStop
  | error
  | fault (fault : Fault)
  deriving DecidableEq, Repr

/-! ### Nodes -/

namespace Leaf

/-- The field `type` of a node with the value. -/
def type : Leaf → DataType
  | undefined => .undefined
  | string _ => .string
  | opaqueBytes _ => .opaqueBytes
  | integer _ => .integer
  | unsignedInteger _ => .unsignedInteger
  | float _ => .float
  | boolean _ => .boolean
  | objectLink _ _ => .objectLink
  | coreLink _ => .coreLink

/-- The bytes of the union are zero. -/
def isZero : Leaf → Bool
  | undefined => true
  | string value => value = []
  | opaqueBytes value => value = []
  | integer value => value = 0
  | unsignedInteger value => value = 0
  | float value => value = ⟨0⟩
  | boolean value => value = false
  | objectLink objectId objectInstanceId => objectId = 0 ∧ objectInstanceId = 0
  | coreLink value => value = []

end Leaf

/-- The types whose nodes hold `asChildren`. -/
def isContainer (type : DataType) : Prop :=
  type = .object ∨ type = .objectInstance ∨ type = .multipleResource

instance (type : DataType) : Decidable (isContainer type) :=
  inferInstanceAs (Decidable (_ ∨ _))

theorem not_isContainer_type (value : Leaf) : ¬ isContainer value.type := by
  cases value <;> simp [isContainer, Leaf.type]

/-- `lwm2m_data_t`.  The member that the union holds is `value`, and `children` when that is
`undefined`. -/
inductive Node
  | mk (id : UInt16) (type : DataType) (value : Leaf) (children : List Node)
  deriving Repr

namespace Node

/-- The field `id`. -/
def id : Node → UInt16
  | mk id _ _ _ => id

/-- The field `type`. -/
def type : Node → DataType
  | mk _ type _ _ => type

/-- The member of the union that is not `asChildren`. -/
def value : Node → Leaf
  | mk _ _ value _ => value

/-- The array of `asChildren`. -/
def children : Node → List Node
  | mk _ _ _ children => children

/-- An item of `lwm2m_data_new` with an identifier and a type. -/
def new (id : UInt16) (type : DataType) : Node := mk id type .undefined []

/-- The array of the roots, as the children of a node. -/
def root : Node := new 0 .undefined

/-- A read of `asChildren`. -/
def asChildren (node : Node) : Except ParseStop (List Node) :=
  if node.value = .undefined then return node.children
  else if node.value.isZero then return []
  else throw (.fault .wrongUnionMember)

/-- A write of `asChildren`, and of the type. -/
def setChildren (node : Node) (type : DataType) (children : List Node) : Node :=
  mk node.id type .undefined children

/-- The first of the children with an identifier. -/
def child (id : UInt16) (node : Node) : Option Node := node.children.find? (·.id = id)

end Node

/-! ### Placing a record -/

/-- What a record asks for: the levels of its path below the array of the roots, each with the type
of a new node there, the resource instance below them, and the value. -/
structure Entry where
  segments : List (UInt16 × DataType)
  resourceInstance : Option UInt16
  value : Option Leaf
  deriving DecidableEq, Repr

/-- `prv_convertValue`. -/
def convertValue (value : Option Leaf) (target : Node) : Except ParseStop Node :=
  match value with
  | some value => return .mk target.id value.type value []
  | none => throw .error

/-- `json_findDataItem` with what is done to the item, and an item for it from `json_extendData`
where there is none. -/
def findOrExtend (items : List Node) (id : UInt16) (type : DataType)
    (place : Node → Except ParseStop Node) : Except ParseStop (List Node) :=
  match focusFirst (fun item => item.type ≠ .undefined ∧ item.id = id) items with
  | some f => f.set <$> place f.here
  | none => (fun item => items ++ [item]) <$> place (.new id type)

/-- The walk of a record from `target` down. -/
def placeRecord (resourceInstance : Option UInt16) (value : Option Leaf) :
    List (UInt16 × DataType) → Node → Except ParseStop Node
  | [], target =>
    match resourceInstance with
    | none => convertValue value target
    | some id => do
      let children ← target.asChildren
      let item ← convertValue value (.new id .undefined)
      return target.setChildren .multipleResource (children ++ [item])
  | (id, type) :: segments, target => do
    let children ← target.asChildren
    let children ← findOrExtend children id type (placeRecord resourceInstance value segments)
    return target.setChildren target.type children

namespace Entry

/-- The walk of an entry from `target` down. -/
def place (e : Entry) (target : Node) : Except ParseStop Node :=
  placeRecord e.resourceInstance e.value e.segments target

/-- The entry seen from the node with the identifier on the first level, if it goes there. -/
def under (id : UInt16) (e : Entry) : Option Entry :=
  match e.segments with
  | [] => none
  | (first, _) :: segments => if first = id then some { e with segments } else none

end Entry

/-- The entries, one after the other. -/
def placeAll (entries : List Entry) (target : Node) : Except ParseStop Node :=
  entries.foldlM (fun target e => e.place target) target

/-- A URI as `uri_decode` and `lwm2m_stringToUri` make it: no level is set below an unset one. -/
structure NestedUri extends Uri where
  object_of_instance : toUri.isSetInstance → toUri.isSetObject
  instance_of_resource : toUri.isSetResource → toUri.isSetInstance
  resource_of_resourceInstance : toUri.isSetResourceInstance → toUri.isSetResource

/-! ### SenML JSON -/

/-- `_record_t` of `data/senml_json.c`: `ids` and `value`, with the base values in them. -/
structure SenmlRecord where
  name : NestedUri
  value : Option Leaf

/-- The path that `prv_convertRecord` of `data/senml_json.c` takes. -/
def SenmlRecord.entry (record : SenmlRecord) : Entry where
  segments := (record.name.objectId, .object) ::
    if record.name.isSetInstance then (record.name.instanceId, .objectInstance) ::
      if record.name.isSetResource then [(record.name.resourceId, .undefined)] else []
    else []
  resourceInstance :=
    if record.name.isSetResourceInstance then some record.name.resourceInstanceId else none
  value := record.value

/-- `prv_convertRecord` of `data/senml_json.c`. -/
def senmlConvertRecord (records : List SenmlRecord) : Except ParseStop (List Node) :=
  Node.children <$> placeAll (records.map (·.entry)) .root

/-! ### JSON -/

/-- `_record_t` of `data/json.c`. -/
structure JsonRecord where
  ids : Fin 4 → UInt16
  value : Option Leaf

/-- `utils_depthToDatatype`, from the depth of an object on. -/
def depthToDatatype : ℕ → DataType
  | 0 => .object
  | 1 => .objectInstance
  | _ => .undefined

namespace JsonRecord

theorem neZero_four : NeZero 4 := ⟨by decide⟩

/-- The identifier at an index of `ids`. -/
def idAt (record : JsonRecord) (i : ℕ) : UInt16 := record.ids (@Fin.ofNat 4 neZero_four i)

/-- The check of `prv_convertRecord` of `data/json.c` below a base of `depth` levels, where
the resource is the segment `resSegmentIndex = 2 - depth`: an identifier is missing, or there are
too many. -/
def Misplaced (depth : ℕ) (record : JsonRecord) : Prop :=
  (∃ i < 3 - depth, record.idAt i = lwm2mMaxId) ∨ 0 < depth ∧ record.idAt (4 - depth) ≠ lwm2mMaxId

instance (depth : ℕ) (record : JsonRecord) : Decidable (record.Misplaced depth) :=
  inferInstanceAs (Decidable (_ ∨ _))

/-- The path that `prv_convertRecord` of `data/json.c` takes. -/
def entry (depth : ℕ) (record : JsonRecord) : Entry where
  segments := (record.idAt 0, depthToDatatype depth) ::
    if record.idAt 1 ≠ lwm2mMaxId then
      (List.range' 1 (2 - depth)).map fun i => (record.idAt i, depthToDatatype (depth + i))
    else []
  resourceInstance :=
    if record.idAt 1 ≠ lwm2mMaxId ∧ record.idAt (3 - depth) ≠ lwm2mMaxId then
      some (record.idAt (3 - depth))
    else none
  value := record.value

end JsonRecord

/-- The nodes that the base URI stands for, from the object down. -/
def baseSegments : Option NestedUri → List (UInt16 × DataType)
  | none => []
  | some uri => (uri.objectId, .object) ::
    if uri.isSetInstance then (uri.instanceId, .objectInstance) ::
      if uri.isSetResource then [(uri.resourceId, .multipleResource)] else []
    else []

/-- The array of the roots below the nodes of the base. -/
def wrap : List (UInt16 × DataType) → List Node → List Node
  | [], roots => roots
  | (id, type) :: segments, roots => [.mk id type .undefined (wrap segments roots)]

/-- `prv_convertRecord` of `data/json.c`. -/
def jsonConvertRecord (base : Option NestedUri) (records : List JsonRecord) :
    Except ParseStop (List Node) := do
  let depth := (baseSegments base).length
  let root ← records.foldlM (fun root record => do
    if record.Misplaced depth then throw .error else (record.entry depth).place root) Node.root
  return wrap (baseSegments base) root.children

/-! ### `json_dataStrip` -/

mutual

/-- The copy of an item; `none` when it is skipped, a container without children. -/
def Node.strip : Node → Option Node
  | .mk id type value children =>
    if isContainer type then
      if children = [] then none else some (.mk id type value (dataStrip children))
    else some (.mk id type value children)

/-- `json_dataStrip`.  The slot of a skipped item is taken by the next one, and a slot at the end
stays empty for it. -/
def dataStrip : List Node → List Node
  | [] => []
  | item :: items =>
    match item.strip with
    | some item => item :: dataStrip items
    | none => if items = [] then [item] else dataStrip items ++ [.new 0 .undefined]

end

/-! ### What a record leaves where it is placed -/

variable {children items items' : List Node} {place : Node → Except ParseStop Node} {e : Entry}
  {m : Node}

section Placing

variable {e : Entry} {n n' root root' : Node} {resourceInstance : Option UInt16}
  {value : Option Leaf} {segments : List (UInt16 × DataType)} {k id : UInt16} {type : DataType}

@[simp] theorem Node.type_setChildren :
    (n.setChildren type children).type = type := rfl

/-- What a value writes. -/
theorem convertValue_eq_ok_iff : convertValue value n = .ok n' ↔
    ∃ leaf, value = some leaf ∧ n' = .mk n.id leaf.type leaf [] := by
  cases value with
  | none => simp [convertValue]
  | some leaf => simp [convertValue, eq_comm]

/-- **What a record does at its target**: it converts its value there, it appends a resource
instance to the children, or it goes on below one of them. -/
theorem placeRecord_cases (h : placeRecord resourceInstance value segments n = .ok n') :
    (segments = [] ∧ resourceInstance = none ∧
      ∃ leaf, value = some leaf ∧ n' = .mk n.id leaf.type leaf []) ∨
    (segments = [] ∧ ∃ id, resourceInstance = some id ∧
      ∃ children item, n.asChildren = .ok children ∧
        convertValue value (.new id .undefined) = .ok item ∧
        n' = n.setChildren .multipleResource (children ++ [item])) ∨
    ∃ id type rest, segments = (id, type) :: rest ∧
      ∃ children items, n.asChildren = .ok children ∧
        findOrExtend children id type (placeRecord resourceInstance value rest) = .ok items ∧
        n' = n.setChildren n.type items := by
  rcases segments with _ | ⟨⟨id, type⟩, rest⟩
  · cases resourceInstance with
    | none => exact .inl ⟨rfl, rfl, convertValue_eq_ok_iff.mp h⟩
    | some id =>
      rw [placeRecord] at h
      obtain ⟨children, hchildren, h⟩ := bind_eq_ok_iff.mp h
      obtain ⟨item, hitem, ⟨⟩⟩ := bind_eq_ok_iff.mp h
      exact .inr (.inl ⟨rfl, id, rfl, children, item, hchildren, hitem, rfl⟩)
  · rw [placeRecord] at h
    obtain ⟨children, hchildren, h⟩ := bind_eq_ok_iff.mp h
    obtain ⟨items, hitems, ⟨⟩⟩ := bind_eq_ok_iff.mp h
    exact .inr (.inr ⟨id, type, rest, rfl, children, items, hchildren, hitems, rfl⟩)

theorem id_of_placeRecord (h : placeRecord resourceInstance value segments n = .ok n') :
    n'.id = n.id := by
  obtain ⟨-, -, leaf, -, rfl⟩ | ⟨-, _, -, _, _, -, -, rfl⟩ |
    ⟨_, _, _, -, _, _, -, -, rfl⟩ := placeRecord_cases h <;> rfl

/-- The first item with an identifier, after its first item with a type took the step. -/
def advance (id : UInt16) (type : DataType) (place : Node → Except ParseStop Node) :
    Option Node → Except ParseStop (Option Node)
  | none => some <$> place (.new id type)
  | some n => if n.type = .undefined then return some n else some <$> place n

/-- **The items after a record**: the first item with its identifier takes the step unless
it has no type, and the first item with another identifier is the one it was. -/
theorem find?_findOrExtend (hid : ∀ n n', place n = .ok n' → n'.id = n.id)
    (h : findOrExtend items id type place = .ok items') :
    (if k = id then advance id type place (items.find? (·.id = k))
      else .ok (items.find? (·.id = k))) = .ok (items'.find? (·.id = k)) := by
  rw [findOrExtend] at h
  cases hf : focusFirst (fun item => item.type ≠ .undefined ∧ item.id = id) items with
  | none =>
    rw [hf] at h
    obtain ⟨item, hitem, rfl⟩ := map_eq_ok_iff.mp h
    have hitemId : item.id = id := hid _ _ hitem
    have hnone := focusFirst_eq_none_iff.mp hf
    split_ifs with hk
    · subst hk
      cases hfind : items.find? (·.id = k) with
      | none =>
        have hnew : [item].find? (·.id = k) = some item := by simp [hitemId]
        rw [List.find?_append, hfind, Option.none_or, hnew]
        simp only [advance, hitem]
        rfl
      | some n =>
        have hn : n.type = .undefined := by
          have hmem := List.mem_of_find?_eq_some hfind
          have hnid := List.find?_some hfind
          simpa [by simpa using hnid] using hnone n hmem
        rw [List.find?_append, hfind, Option.some_or]
        simp only [advance, if_pos hn]
        rfl
    · have hnew : [item].find? (·.id = k) = none := by
        simpa [hitemId] using fun h : id = k => hk h.symm
      rw [List.find?_append, hnew, Option.or_none]
  | some f =>
    rw [hf] at h
    obtain ⟨item, hitem, rfl⟩ := map_eq_ok_iff.mp h
    obtain ⟨rfl, hhere, hbefore⟩ := focusFirst_eq_some_iff.mp hf
    obtain ⟨htype, hhereId⟩ : f.here.type ≠ .undefined ∧ f.here.id = id := by
      simpa using hhere
    have hitemId : item.id = id := (hid _ _ hitem).trans hhereId
    rw [Focus.list, Focus.set, Focus.set, List.find?_append, List.find?_append]
    split_ifs with hk
    · subst hk
      cases hfind : f.before.find? (·.id = k) with
      | none =>
        simp only [Option.none_or, List.find?_cons, hhereId, hitemId, decide_true, advance,
          if_neg htype, hitem]
        rfl
      | some n =>
        have hn : n.type = .undefined := by
          have hmem := List.mem_of_find?_eq_some hfind
          have hnid := List.find?_some hfind
          simpa [by simpa using hnid] using hbefore n hmem
        simp only [Option.some_or, advance, if_pos hn]
        rfl
    · have hskip : ∀ n : Node, n.id = id → decide (n.id = k) = false := fun n hn => by
        simpa [hn] using fun h : id = k => hk h.symm
      rw [List.find?_cons, List.find?_cons, hskip _ hhereId, hskip _ hitemId]

end Placing

/-! ### What the records leave at a child -/

section History

variable {e : Entry} {entries : List Entry} {parent parent' n n' : Node} {k id : UInt16}
  {type : DataType}

theorem placeAll_concat : placeAll (entries ++ [e]) parent = .ok n' ↔
    ∃ n, placeAll entries parent = .ok n ∧ e.place n = .ok n' := by
  rw [placeAll, List.foldlM_append, bind_eq_ok_iff]
  simp only [List.foldlM_cons, List.foldlM_nil]
  constructor
  · rintro ⟨n, hn, h⟩
    obtain ⟨m, hm, ⟨⟩⟩ := bind_eq_ok_iff.mp h
    exact ⟨n, hn, hm⟩
  · rintro ⟨n, hn, h⟩
    exact ⟨n, hn, by rw [h]; rfl⟩

theorem segments_of_concat (h : ∀ e' ∈ entries ++ [e], e'.segments ≠ []) :
    e.segments ≠ [] ∧ ∀ e' ∈ entries, e'.segments ≠ [] := by
  simpa [or_imp, forall_and, and_comm] using h

/-- An entry that goes below its target leaves the type, and a union that holds `asChildren`. -/
theorem Entry.shape_of_place (he : e.segments ≠ []) (h : e.place parent = .ok parent') :
    parent'.type = parent.type ∧ parent'.value = .undefined := by
  obtain ⟨hnil, -⟩ | ⟨hnil, -⟩ | ⟨_, _, _, -, _, _, -, -, rfl⟩ := placeRecord_cases h
  · exact absurd hnil he
  · exact absurd hnil he
  · exact ⟨rfl, rfl⟩

/-- The first child with an identifier, after an entry that goes below its parent. -/
theorem Entry.child_place {segments : List (UInt16 × DataType)}
    (he : e.segments = (id, type) :: segments) (hvalue : parent.value = .undefined)
    (h : e.place parent = .ok parent') :
    (if k = id then advance id type ({ e with segments } : Entry).place (parent.child k)
      else .ok (parent.child k)) = .ok (parent'.child k) := by
  rw [Entry.place, he, placeRecord] at h
  obtain ⟨children, hchildren, h⟩ := bind_eq_ok_iff.mp h
  obtain ⟨items, hitems, ⟨⟩⟩ := bind_eq_ok_iff.mp h
  rw [Node.asChildren, if_pos hvalue] at hchildren
  cases hchildren
  exact find?_findOrExtend (fun _ _ => id_of_placeRecord) hitems

theorem shape_of_placeAll (hentries : ∀ e ∈ entries, e.segments ≠ [])
    (h : placeAll entries (.new id type) = .ok n) : n.type = type ∧ n.value = .undefined := by
  induction entries using List.reverseRecOn generalizing n with
  | nil =>
    cases h
    exact ⟨rfl, rfl⟩
  | append_singleton entries e ih =>
    obtain ⟨m, hm, he⟩ := placeAll_concat.mp h
    obtain ⟨hesegments, hentries⟩ := segments_of_concat hentries
    obtain ⟨htype, hvalue⟩ := e.shape_of_place hesegments he
    exact ⟨htype.trans (ih hentries hm).1, hvalue⟩

/-- **An invariant of a child over the entries that go there.**  What holds of an absent child
before all entries, and is kept by each of those that reach the child, holds of the first
child with the identifier in the end. -/
theorem child_history {P : List Entry → Option Node → Prop} (k : UInt16)
    (hentries : ∀ e ∈ entries, e.segments ≠ []) (h : placeAll entries (.new id type) = .ok n)
    (start : P [] none)
    (step : ∀ history s s' (e : Entry) t, { e with segments := (k, t) :: e.segments } ∈ entries →
      P history s → advance k t e.place s = .ok s' → P (history ++ [e]) s') :
    P (entries.filterMap (Entry.under k)) (n.child k) := by
  induction entries using List.reverseRecOn generalizing n with
  | nil =>
    cases h
    exact start
  | append_singleton entries e ih =>
    obtain ⟨m, hm, he⟩ := placeAll_concat.mp h
    obtain ⟨hesegments, hentries⟩ := segments_of_concat hentries
    have hbefore := ih hentries hm fun history s s' e t hmem =>
      step history s s' e t (List.mem_append_left _ hmem)
    have hvalue := (shape_of_placeAll hentries hm).2
    rcases e with ⟨_ | ⟨⟨first, t⟩, segments⟩, resourceInstance, value⟩
    · exact absurd rfl hesegments
    · have hchild := Entry.child_place (k := k) rfl hvalue he
      rw [List.filterMap_append]
      split_ifs at hchild with hk
      · subst hk
        have hunder : [(⟨(k, t) :: segments, resourceInstance, value⟩ : Entry)].filterMap
            (Entry.under k) = [⟨segments, resourceInstance, value⟩] := by
          simp [Entry.under]
        rw [hunder]
        exact step _ _ _ _ t (List.mem_append_right _ List.mem_cons_self) hbefore hchild
      · have hunder : [(⟨(first, t) :: segments, resourceInstance, value⟩ : Entry)].filterMap
            (Entry.under k) = [] := by
          simpa [Entry.under] using fun h : first = k => hk h.symm
        rw [hunder, List.append_nil]
        rwa [← Except.ok.inj hchild]

end History

/-! ### What is found at a child -/

section Child

variable {entries : List Entry} {n : Node} {k id : UInt16} {type t : DataType}

/-- The entries seen from a node. -/
theorem mem_filterMap_under {entries : List Entry} {k : UInt16} :
    e ∈ entries.filterMap (Entry.under k) ↔
      ∃ t, { e with segments := (k, t) :: e.segments } ∈ entries := by
  rw [List.mem_filterMap]
  constructor
  · rintro ⟨⟨segments, resourceInstance, value⟩, hmem, hunder⟩
    rcases segments with _ | ⟨⟨first, t⟩, rest⟩
    · cases hunder
    · simp only [Entry.under] at hunder
      split_ifs at hunder with hk
      subst hk
      cases hunder
      exact ⟨t, hmem⟩
  · rintro ⟨t, hmem⟩
    exact ⟨_, hmem, by simp [Entry.under]⟩

/-- A child is there exactly when an entry goes there. -/
theorem child_isSome_iff (hentries : ∀ e ∈ entries, e.segments ≠ [])
    (h : placeAll entries (.new id type) = .ok n) (k : UInt16) :
    (n.child k).isSome ↔ entries.filterMap (Entry.under k) ≠ [] := by
  refine child_history (P := fun history s => s.isSome ↔ history ≠ []) k hentries h (by simp)
    fun history s s' e t _ _ hadvance => ?_
  suffices hs' : s'.isSome by simp [hs']
  cases s with
  | none =>
    obtain ⟨m, -, rfl⟩ := map_eq_ok_iff.mp hadvance
    rfl
  | some m =>
    simp only [advance] at hadvance
    split_ifs at hadvance
    · cases hadvance
      rfl
    · obtain ⟨m', -, rfl⟩ := map_eq_ok_iff.mp hadvance
      rfl

/-- **A child that no value is put at** is what the entries that go there leave at a new node. -/
theorem child_placeAll (hentries : ∀ e ∈ entries, e.segments ≠ [])
    (h : placeAll entries (.new id type) = .ok n) (ht : t ≠ .undefined)
    (hbelow : ∀ e : Entry, ∀ t', { e with segments := (k, t') :: e.segments } ∈ entries →
      t' = t ∧ e.segments ≠ []) :
    (∀ e ∈ entries.filterMap (Entry.under k), e.segments ≠ []) ∧
      (n.child k = none ∧ entries.filterMap (Entry.under k) = [] ∨
        ∃ m, n.child k = some m ∧ entries.filterMap (Entry.under k) ≠ [] ∧
          placeAll (entries.filterMap (Entry.under k)) (.new k t) = .ok m) := by
  refine child_history (P := fun history s => (∀ e ∈ history, e.segments ≠ []) ∧
      (s = none ∧ history = [] ∨ ∃ m, s = some m ∧ history ≠ [] ∧
        placeAll history (.new k t) = .ok m)) k hentries h (by simp)
    fun history s s' e t' hmem hP hadvance => ?_
  obtain ⟨hsegments, hs⟩ := hP
  obtain ⟨rfl, hrest⟩ := hbelow e t' hmem
  refine ⟨by simpa [or_imp, forall_and] using ⟨hsegments, hrest⟩, .inr ?_⟩
  obtain ⟨rfl, rfl⟩ | ⟨m, rfl, -, hm⟩ := hs
  · obtain ⟨m, hm, rfl⟩ := map_eq_ok_iff.mp hadvance
    exact ⟨m, rfl, by simp, placeAll_concat.mpr ⟨_, rfl, hm⟩⟩
  · have htype : m.type ≠ .undefined := (shape_of_placeAll hsegments hm).1 ▸ ht
    rw [advance, if_neg htype] at hadvance
    obtain ⟨m', hm', rfl⟩ := map_eq_ok_iff.mp hadvance
    exact ⟨m', rfl, by simp, placeAll_concat.mpr ⟨_, hm, hm'⟩⟩

/-- **A child that a value is put at** is no container in the end. -/
theorem child_of_value (hentries : ∀ e ∈ entries, e.segments ≠ [])
    (h : placeAll entries (.new id type) = .ok n)
    (hbelow : ∀ e ∈ entries.filterMap (Entry.under k), e.segments = [] → e.resourceInstance = none)
    (hvalue : ∃ e ∈ entries.filterMap (Entry.under k), e.segments = []) :
    ∃ m, n.child k = some m ∧ ¬ isContainer m.type := by
  refine child_history (P := fun history s =>
      (∀ e ∈ history, e.segments = [] → e.resourceInstance = none) →
        (∃ e ∈ history, e.segments = []) → ∃ m, s = some m ∧ ¬ isContainer m.type)
    k hentries h (by simp) (fun history s s' e t' _ hP hadvance hbelow hvalue => ?_) hbelow hvalue
  have hstep {m m' : Node} (hm : e.segments = [] ∨ ¬ isContainer m.type)
      (hm' : e.place m = .ok m') : ¬ isContainer m'.type := by
    by_cases hsegments : e.segments = []
    · obtain ⟨-, -, leaf, -, rfl⟩ | ⟨-, _, hinstance, -⟩ | ⟨_, _, _, hcons, -⟩ :=
        placeRecord_cases hm'
      · exact not_isContainer_type leaf
      · rw [hbelow e (by simp) hsegments] at hinstance
        cases hinstance
      · simp [hsegments] at hcons
    · rw [(e.shape_of_place hsegments hm').1]
      exact hm.resolve_left hsegments
  have hbefore : e.segments = [] ∨ ∃ m, s = some m ∧ ¬ isContainer m.type := by
    obtain ⟨e', he', hnil⟩ := hvalue
    rcases List.mem_append.mp he' with he' | he'
    · exact .inr (hP (fun e he => hbelow e (List.mem_append_left _ he)) ⟨e', he', hnil⟩)
    · exact .inl (List.mem_singleton.mp he' ▸ hnil)
  cases s with
  | none =>
    obtain ⟨m, hm, rfl⟩ := map_eq_ok_iff.mp hadvance
    exact ⟨m, rfl, hstep (.inl (hbefore.resolve_right (by simp))) hm⟩
  | some m =>
    rw [advance] at hadvance
    split_ifs at hadvance with htype
    · cases hadvance
      exact ⟨m, rfl, by simp [htype, isContainer]⟩
    · obtain ⟨m', hm', rfl⟩ := map_eq_ok_iff.mp hadvance
      exact ⟨m', rfl, hstep (hbefore.imp_right fun ⟨_, hs, hm⟩ => Option.some.inj hs ▸ hm) hm'⟩

/-- **A child is a container exactly when no value is put at it**, and what the entries that go
there leave then. -/
theorem child_cases (hentries : ∀ e ∈ entries, e.segments ≠ [])
    (h : placeAll entries (.new id type) = .ok n) (ht : isContainer t)
    (htype : ∀ e : Entry, ∀ t', { e with segments := (k, t') :: e.segments } ∈ entries → t' = t)
    (hinstance : ∀ e ∈ entries.filterMap (Entry.under k), e.segments = [] →
      e.resourceInstance = none) (hm : n.child k = some m) :
    (∃ e ∈ entries.filterMap (Entry.under k), e.segments = []) ∧ ¬ isContainer m.type ∨
      (∀ e ∈ entries.filterMap (Entry.under k), e.segments ≠ []) ∧ m.type = t ∧
        placeAll (entries.filterMap (Entry.under k)) (.new k t) = .ok m := by
  by_cases hvalue : ∃ e ∈ entries.filterMap (Entry.under k), e.segments = []
  · obtain ⟨m', hm', hcontainer⟩ := child_of_value hentries h hinstance hvalue
    cases hm.symm.trans hm'
    exact .inl ⟨hvalue, hcontainer⟩
  · have hne : ∀ e ∈ entries.filterMap (Entry.under k), e.segments ≠ [] :=
      fun e he hnil => hvalue ⟨e, he, hnil⟩
    obtain ⟨-, hnone | ⟨m', hm', -, hplaced⟩⟩ := child_placeAll hentries h
      (by rintro rfl; simp [isContainer] at ht)
      (fun e t' he => ⟨htype e t' he, hne e (mem_filterMap_under.mpr ⟨t', he⟩)⟩)
    · rw [hnone.1] at hm
      cases hm
    · cases hm.symm.trans hm'
      exact .inr ⟨hne, (shape_of_placeAll hne hplaced).1, hplaced⟩

/-- The resource that the entries leave is read as a value: one of them put no value there, or the
last one put a value there. -/
def EndsAsValue (entries : List Entry) : Prop :=
  (∃ e ∈ entries, e.resourceInstance = none ∧ e.value = some .undefined) ∨
    ∃ e ∈ entries.getLast?, e.resourceInstance = none

theorem endsAsValue_concat
    (hentries : ¬ ∃ e ∈ entries, e.resourceInstance = none ∧ e.value = some .undefined) :
    EndsAsValue (entries ++ [e]) ↔ e.resourceInstance = none := by
  have hlast : (entries ++ [e]).getLast? = some e := List.getLast?_concat
  simp only [EndsAsValue, hlast, Option.mem_some_iff, exists_eq_left', List.mem_append,
    List.mem_singleton, or_and_right, exists_or, exists_eq_left, hentries, false_or]
  exact or_iff_right_of_imp And.left

/-- The type of a target that an entry ends at. -/
theorem Entry.type_of_place {m' : Node} (he : e.segments = []) (h : e.place m = .ok m') :
    (m'.type = .undefined ↔ e.resourceInstance = none ∧ e.value = some .undefined) ∧
      (m'.type = .multipleResource ↔ e.resourceInstance ≠ none) := by
  obtain ⟨-, hinstance, leaf, hleaf, rfl⟩ | ⟨-, id, hinstance, _, _, -, -, rfl⟩ |
    ⟨_, _, _, hcons, -⟩ := placeRecord_cases h
  · rw [hinstance, hleaf]
    cases leaf <;> simp [Node.type, Leaf.type]
  · simp [hinstance]
  · simp [he] at hcons

/-- **The type of a resource in the end.** -/
theorem type_resource_iff (hentries : ∀ e ∈ entries, e.segments ≠ [])
    (h : placeAll entries (.new id type) = .ok n)
    (hbelow : ∀ e ∈ entries.filterMap (Entry.under k), e.segments = []) (hm : n.child k = some m) :
    m.type = .multipleResource ↔ ¬ EndsAsValue (entries.filterMap (Entry.under k)) := by
  have hall := child_history (P := fun history s => (∀ e ∈ history, e.segments = []) →
      (s = none → history = []) ∧ ∀ m, s = some m →
        (m.type = .undefined ↔
          ∃ e ∈ history, e.resourceInstance = none ∧ e.value = some .undefined) ∧
        (m.type = .multipleResource ↔ ¬ EndsAsValue history))
    k hentries h (by simp) fun history s s' e t hmem hP hadvance hbelow => ?_
  · exact ((hall hbelow).2 m hm).2
  have he : e.segments = [] := hbelow e (by simp)
  obtain ⟨hnone, hsome⟩ := hP fun e he => hbelow e (List.mem_append_left _ he)
  have hplaced {m m' : Node}
      (hbefore : ¬ ∃ e ∈ history, e.resourceInstance = none ∧ e.value = some .undefined)
      (hm' : e.place m = .ok m') :
      (m'.type = .undefined ↔
        ∃ x ∈ history ++ [e], x.resourceInstance = none ∧ x.value = some .undefined) ∧
      (m'.type = .multipleResource ↔ ¬ EndsAsValue (history ++ [e])) := by
    obtain ⟨htype, hmultiple⟩ := e.type_of_place he hm'
    rw [htype, hmultiple, endsAsValue_concat hbefore]
    refine ⟨⟨fun h => ⟨e, by simp, h⟩, ?_⟩, .rfl⟩
    rintro ⟨e', he', h⟩
    rcases List.mem_append.mp he' with he' | he'
    · exact absurd ⟨e', he', h⟩ hbefore
    · exact List.mem_singleton.mp he' ▸ h
  cases s with
  | none =>
    obtain ⟨m, hm, rfl⟩ := map_eq_ok_iff.mp hadvance
    refine ⟨by simp, fun _ hs => ?_⟩
    cases hs
    exact hplaced (by simp [hnone rfl]) hm
  | some m =>
    rw [advance] at hadvance
    split_ifs at hadvance with htype
    · cases hadvance
      obtain ⟨e', he', hvalueless⟩ := (hsome m rfl).1.mp htype
      refine ⟨by simp, fun _ hs => ?_⟩
      cases hs
      have hmem : e' ∈ history ++ [e] := List.mem_append_left _ he'
      simp only [htype, true_iff, reduceCtorEq, false_iff, not_not]
      exact ⟨⟨e', hmem, hvalueless⟩, .inl ⟨e', hmem, hvalueless⟩⟩
    · obtain ⟨m', hm', rfl⟩ := map_eq_ok_iff.mp hadvance
      refine ⟨by simp, fun _ hs => ?_⟩
      cases hs
      exact hplaced (mt (hsome m rfl).1.mpr htype) hm'

end Child

/-! ### What `json_dataStrip` has to strip -/

/-- A container among the node and those below it has children. -/
inductive Full : Node → Prop
  | mk {id : UInt16} {type : DataType} {value : Leaf} {children : List Node} :
      (isContainer type → value = .undefined ∧ children ≠ []) → (∀ c ∈ children, Full c) →
        Full (.mk id type value children)

section Full

variable {e : Entry} {entries : List Entry} {n n' : Node}

theorem Full.asChildren_eq (h : Full n) (hn : isContainer n.type) :
    n.asChildren = .ok n.children ∧ n.children ≠ [] := by
  obtain ⟨hfull, -⟩ := h
  obtain ⟨rfl, hne⟩ := hfull hn
  exact ⟨rfl, hne⟩

theorem Full.of_mem_children (h : Full n) : ∀ c ∈ n.children, Full c := by
  obtain ⟨-, hchildren⟩ := h
  exact hchildren

theorem mem_children_of_asChildren (h : n.asChildren = .ok children) :
    children ⊆ n.children := by
  rw [Node.asChildren] at h
  split_ifs at h
  · cases h
    exact List.Subset.refl _
  · cases h
    exact List.nil_subset _

theorem findOrExtend_full {id : UInt16} {type : DataType} (hitems : ∀ c ∈ items, Full c)
    (hplace : ∀ n n', (∀ c ∈ n.children, Full c) → place n = .ok n' → Full n')
    (h : findOrExtend items id type place = .ok items') : items' ≠ [] ∧ ∀ c ∈ items', Full c := by
  rw [findOrExtend] at h
  split at h
  · rename_i f hf
    obtain ⟨item, hitem, rfl⟩ := map_eq_ok_iff.mp h
    obtain ⟨rfl, -, -⟩ := focusFirst_eq_some_iff.mp hf
    refine ⟨by simp [Focus.set], fun c hc => ?_⟩
    rcases Focus.mem_set.mp hc with rfl | hc
    · exact hplace _ _ (hitems _ f.here_mem_list).of_mem_children hitem
    · exact hitems c (Focus.mem_list.mpr (.inr hc))
  · obtain ⟨item, hitem, rfl⟩ := map_eq_ok_iff.mp h
    refine ⟨by simp, fun c hc => ?_⟩
    rcases List.mem_append.mp hc with hc | hc
    · exact hitems c hc
    · cases List.mem_singleton.mp hc
      exact hplace _ _ (by simp [Node.new, Node.children]) hitem

/-- **Every record leaves full containers behind it**, also where it replaces one by a value. -/
theorem full_of_placeRecord {resourceInstance : Option UInt16} {value : Option Leaf}
    {segments : List (UInt16 × DataType)} (hn : ∀ c ∈ n.children, Full c)
    (h : placeRecord resourceInstance value segments n = .ok n') : Full n' := by
  induction segments generalizing n n' with
  | nil =>
    obtain ⟨-, -, leaf, -, rfl⟩ | ⟨-, _, -, children, item, hchildren, hitem, rfl⟩ |
      ⟨_, _, _, hcons, -⟩ := placeRecord_cases h
    · exact ⟨fun h => absurd h (not_isContainer_type leaf), by simp⟩
    · refine ⟨fun _ => ⟨rfl, by simp⟩, fun c hc => ?_⟩
      rcases List.mem_append.mp hc with hc | hc
      · exact hn c (mem_children_of_asChildren hchildren hc)
      · cases List.mem_singleton.mp hc
        obtain ⟨leaf, -, rfl⟩ := convertValue_eq_ok_iff.mp hitem
        exact ⟨fun h => absurd h (not_isContainer_type leaf), by simp⟩
    · cases hcons
  | cons level segments ih =>
    obtain ⟨hnil, -⟩ | ⟨hnil, -⟩ | ⟨_, _, _, hcons, children, items, hchildren, hitems, rfl⟩ :=
      placeRecord_cases h
    · cases hnil
    · cases hnil
    · cases hcons
      obtain ⟨hne, hfull⟩ := findOrExtend_full
        (fun c hc => hn c (mem_children_of_asChildren hchildren hc)) (fun _ _ => ih) hitems
      exact ⟨fun _ => ⟨rfl, hne⟩, hfull⟩

theorem full_of_placeAll (hn : ∀ c ∈ n.children, Full c) (h : placeAll entries n = .ok n') :
    ∀ c ∈ n'.children, Full c := by
  induction entries generalizing n with
  | nil =>
    cases h
    exact hn
  | cons e entries ih =>
    rw [placeAll, List.foldlM_cons] at h
    obtain ⟨m, hm, h⟩ := bind_eq_ok_iff.mp h
    exact ih (full_of_placeRecord hn hm).of_mem_children h

theorem dataStrip_eq_self_of_strip (h : ∀ c ∈ items, c.strip = some c) :
    dataStrip items = items := by
  induction items with
  | nil => rw [dataStrip]
  | cons item items ih =>
    obtain ⟨hitem, hitems⟩ := List.forall_mem_cons.mp h
    rw [dataStrip, hitem]
    rw [ih hitems]

theorem Full.strip_eq_self (h : Full n) : n.strip = some n := by
  induction h with
  | mk hfull _ ih =>
    rw [Node.strip, dataStrip_eq_self_of_strip ih]
    split_ifs with htype hchildren
    · exact absurd hchildren (hfull htype).2
    · rfl
    · rfl

/-- Where every container has children there is nothing to strip. -/
theorem dataStrip_eq_self (h : ∀ c ∈ items, Full c) : dataStrip items = items :=
  dataStrip_eq_self_of_strip fun c hc => (h c hc).strip_eq_self

end Full

/-! ### The roots -/

section Roots

variable {e : Entry} {entries : List Entry} {n n' : Node} {k id first : UInt16}
  {type t : DataType} {rest : List (UInt16 × DataType)}

theorem head_findOrExtend (hid : ∀ n n', place n = .ok n' → n'.id = n.id)
    (h : findOrExtend items id type place = .ok items') :
    ∃ root ∈ items'.head?, root.id = (items.head?.map Node.id).getD id := by
  rw [findOrExtend] at h
  split at h
  · rename_i f hf
    obtain ⟨item, hitem, rfl⟩ := map_eq_ok_iff.mp h
    obtain ⟨rfl, -, -⟩ := focusFirst_eq_some_iff.mp hf
    rcases f with ⟨_ | ⟨root, before⟩, here, after⟩
    · exact ⟨item, rfl, hid _ _ hitem⟩
    · exact ⟨root, rfl, rfl⟩
  · obtain ⟨item, hitem, rfl⟩ := map_eq_ok_iff.mp h
    rcases items with _ | ⟨root, items⟩
    · exact ⟨item, rfl, hid _ _ hitem⟩
    · exact ⟨root, rfl, rfl⟩

/-- The first child is the one that the first entry made. -/
theorem head_placeAll (hentries : ∀ e ∈ entries, e.segments ≠ [])
    (h : placeAll entries (.new id type) = .ok n) (he : entries.head? = some e)
    (hsegments : e.segments = (first, t) :: rest) : ∃ root ∈ n.children.head?, root.id = first := by
  induction entries using List.reverseRecOn generalizing n with
  | nil => cases he
  | append_singleton entries e' ih =>
    obtain ⟨m, hm, he'⟩ := placeAll_concat.mp h
    obtain ⟨he'segments, hentries⟩ : e'.segments ≠ [] ∧ ∀ e ∈ entries, e.segments ≠ [] := by
      simpa [or_imp, forall_and, and_comm] using hentries
    have hvalue := (shape_of_placeAll hentries hm).2
    obtain ⟨hnil, -⟩ | ⟨hnil, -⟩ |
      ⟨id', t', rest', hcons, children, items, hchildren, hitems, rfl⟩ := placeRecord_cases he'
    · exact absurd hnil he'segments
    · exact absurd hnil he'segments
    rw [Node.asChildren, if_pos hvalue] at hchildren
    cases hchildren
    obtain ⟨root, hroot, hid⟩ := head_findOrExtend (fun _ _ => id_of_placeRecord) hitems
    refine ⟨root, hroot, hid.trans ?_⟩
    rcases entries with _ | ⟨e'', entries⟩
    · cases he
      cases hm
      rw [hsegments] at hcons
      cases hcons
      rfl
    · obtain ⟨root', hroot', hid'⟩ := ih hentries hm he
      rw [Option.mem_def.mp hroot']
      exact hid'

/-- The children are there exactly when there are entries. -/
theorem children_ne_nil (hentries : ∀ e ∈ entries, e.segments ≠ [])
    (h : placeAll entries (.new id type) = .ok n) (hne : entries ≠ []) : n.children ≠ [] := by
  obtain ⟨e, entries, rfl⟩ := List.exists_cons_of_ne_nil hne
  obtain ⟨⟨first, t⟩, rest, hsegments⟩ := List.exists_cons_of_ne_nil (hentries e List.mem_cons_self)
  obtain ⟨root, hroot, -⟩ := head_placeAll hentries h rfl hsegments
  exact List.ne_nil_of_mem (List.mem_of_head? hroot)

/-- A resource is a multiple resource or no container. -/
theorem isContainer_resource (hentries : ∀ e ∈ entries, e.segments ≠ [])
    (h : placeAll entries (.new id type) = .ok n)
    (hbelow : ∀ e ∈ entries.filterMap (Entry.under k), e.segments = []) (hm : n.child k = some m)
    (hcontainer : isContainer m.type) : m.type = .multipleResource := by
  refine child_history (P := fun history s => (∀ e ∈ history, e.segments = []) →
      ∀ m, s = some m → isContainer m.type → m.type = .multipleResource)
    k hentries h (by simp) (fun history s s' e _ _ hP hadvance hbelow m' hs' hcontainer => ?_)
    hbelow m hm hcontainer
  have he : e.segments = [] := hbelow e (by simp)
  have hplaced {m : Node} (hm' : e.place m = .ok m') : m'.type = .multipleResource := by
    obtain ⟨-, -, leaf, -, rfl⟩ | ⟨-, id, -, _, _, -, -, rfl⟩ | ⟨_, _, _, hcons, -⟩ :=
      placeRecord_cases hm'
    · exact absurd hcontainer (not_isContainer_type leaf)
    · rfl
    · simp [he] at hcons
  subst hs'
  cases s with
  | none =>
    obtain ⟨_, hm', ⟨⟩⟩ := map_eq_ok_iff.mp hadvance
    exact hplaced hm'
  | some m =>
    rw [advance] at hadvance
    split_ifs at hadvance
    · cases hadvance
      exact hP (fun e he => hbelow e (List.mem_append_left _ he)) m' rfl hcontainer
    · obtain ⟨_, hm', ⟨⟩⟩ := map_eq_ok_iff.mp hadvance
      exact hplaced hm'

end Roots

/-! ### Levels in front of the entries -/

section Below

variable {entries : List Entry} {parent parent' n : Node} {id id' : UInt16} {type type' : DataType}

/-- The children do not depend on the identifier and the type of their parent. -/
theorem Entry.place_congr (he : e.segments ≠ []) (hvalue : parent.value = .undefined)
    (h : e.place parent = .ok parent') :
    e.place (.mk id type .undefined parent.children) =
      .ok (.mk id type .undefined parent'.children) := by
  obtain ⟨hnil, -⟩ | ⟨hnil, -⟩ | ⟨first, t, rest, hcons, children, items, hchildren, hitems, rfl⟩ :=
    placeRecord_cases h
  · exact absurd hnil he
  · exact absurd hnil he
  rw [Node.asChildren, if_pos hvalue] at hchildren
  cases hchildren
  have hread : (Node.mk id type .undefined parent.children).asChildren = .ok parent.children := rfl
  rw [Entry.place, hcons, placeRecord, hread, ok_bind, hitems]
  rfl

theorem placeAll_congr (hentries : ∀ e ∈ entries, e.segments ≠ [])
    (h : placeAll entries (.new id' type') = .ok n) :
    placeAll entries (.new id type) = .ok (.mk id type .undefined n.children) := by
  induction entries using List.reverseRecOn generalizing n with
  | nil =>
    cases h
    rfl
  | append_singleton entries e ih =>
    obtain ⟨m, hm, he⟩ := placeAll_concat.mp h
    obtain ⟨hesegments, hentries⟩ := segments_of_concat hentries
    exact placeAll_concat.mpr ⟨_, ih hentries hm,
      e.place_congr hesegments (shape_of_placeAll hentries hm).2 he⟩

/-- The entry with levels in front. -/
def Entry.push (segments : List (UInt16 × DataType)) (e : Entry) : Entry :=
  { e with segments := segments ++ e.segments }

theorem id_of_placeAll (h : placeAll entries parent = .ok n) : n.id = parent.id := by
  induction entries generalizing parent with
  | nil =>
    cases h
    rfl
  | cons e entries ih =>
    rw [placeAll, List.foldlM_cons] at h
    obtain ⟨m, hm, h⟩ := bind_eq_ok_iff.mp h
    exact (ih h).trans (id_of_placeRecord hm)

theorem Entry.place_push (h : findOrExtend children id type e.place = .ok items) :
    (e.push [(id, type)]).place (.mk id' type' .undefined children) =
      .ok (.mk id' type' .undefined items) := by
  have hread : (Node.mk id' type' .undefined children).asChildren = .ok children := rfl
  show placeRecord e.resourceInstance e.value ((id, type) :: e.segments) _ = _
  rw [placeRecord, hread, ok_bind]
  show findOrExtend children id type e.place >>= _ = _
  rw [h]
  rfl

/-- Entries that all go to one child make that child. -/
theorem placeAll_push (hne : entries ≠ []) (hentries : ∀ e ∈ entries, e.segments ≠ [])
    (ht : type ≠ .undefined) (h : placeAll entries (.new id type) = .ok n) :
    placeAll (entries.map (Entry.push [(id, type)])) (.new id' type') =
      .ok (.mk id' type' .undefined [n]) := by
  induction entries using List.reverseRecOn generalizing n with
  | nil => exact absurd rfl hne
  | append_singleton entries e ih =>
    obtain ⟨m, hm, he⟩ := placeAll_concat.mp h
    obtain ⟨hesegments, hentries⟩ := segments_of_concat hentries
    rw [List.map_append, List.map_singleton, placeAll_concat]
    by_cases hnil : entries = []
    · subst hnil
      cases hm
      refine ⟨.new id' type', rfl, ?_⟩
      have hextend : findOrExtend [] id type e.place = .ok [n] := by
        show (fun item => [] ++ [item]) <$> _ = _
        rw [he]
        rfl
      exact Entry.place_push hextend
    · refine ⟨_, ih hnil hentries hm, ?_⟩
      have hmtype : m.type ≠ .undefined := (shape_of_placeAll hentries hm).1 ▸ ht
      have hmid : m.id = id := id_of_placeAll hm
      have hfind : focusFirst (fun item => item.type ≠ .undefined ∧ item.id = id) [m] =
          some ⟨[], m, []⟩ := by
        simp [focusFirst, hmtype, hmid]
      have hextend : findOrExtend [m] id type e.place = .ok [n] := by
        rw [findOrExtend, hfind]
        show Focus.set _ <$> e.place m = _
        rw [he]
        rfl
      exact Entry.place_push hextend

/-- The nodes of the base are the tree that the entries build when its levels are in front of
their own. -/
theorem placeAll_wrap (segments : List (UInt16 × DataType)) (hne : entries ≠ [])
    (hentries : ∀ e ∈ entries, e.segments ≠ []) (hsegments : ∀ s ∈ segments, s.2 ≠ .undefined)
    (h : placeAll entries .root = .ok n) :
    placeAll (entries.map (Entry.push segments)) .root =
      .ok (.mk 0 .undefined .undefined (wrap segments n.children)) := by
  induction segments with
  | nil =>
    have hpush : entries.map (Entry.push []) = entries := List.map_id' entries
    rw [hpush]
    exact placeAll_congr hentries h
  | cons level segments ih =>
    obtain ⟨id, type⟩ := level
    obtain ⟨htype, hsegments⟩ := List.forall_mem_cons.mp hsegments
    have hpush : entries.map (Entry.push ((id, type) :: segments)) =
        (entries.map (Entry.push segments)).map (Entry.push [(id, type)]) := by
      rw [List.map_map]
      rfl
    have hbelow : ∀ e ∈ entries.map (Entry.push segments), e.segments ≠ [] := by
      intro e he
      obtain ⟨e', he', rfl⟩ := List.mem_map.mp he
      simp [Entry.push, hentries e' he']
    rw [hpush]
    exact placeAll_push (by simpa using hne) hbelow htype
      (placeAll_congr hbelow (ih hsegments))

end Below

end Lwm2m.Codec

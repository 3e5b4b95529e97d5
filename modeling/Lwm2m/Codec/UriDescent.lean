/-
# Parsing a JSON payload for a URI

`senml_json_parse` (`data/senml_json.c`) and `json_parse` (`data/json.c`) from the records on: they
build a tree of the records and walk from its first root to the instance, the resource and the
resource instance of the request.

The walk takes children by their identifiers and reads `asChildren` of what it finds.  Such a read
of a node that is no container is a `Fault` here, whatever its union holds.  The object is the only
level whose type the source looks at.  A value at the instance of the request is therefore read as
an array, and SenML JSON searches a resource that is no multiple resource for the resource instance
by comparing its own identifier (`senmlDescend_descends_iff`).  `json_parse` does not look at the
resource instance of the request at all (`jsonDescend_descends_iff`).
-/

import Lwm2m.Codec.JsonTree

namespace Lwm2m.Codec

open Core Library

/-! ### The walks -/

/-- A read of `asChildren` on the way to the requested node. -/
def Node.readChildren (node : Node) : Except ParseStop (List Node) :=
  if isContainer node.type then node.asChildren else throw (.fault .wrongUnionMember)

/-- The loop for the instance: the children of the first item with the identifier that has some. -/
def instanceChildren (instanceId : UInt16) : List Node → Except ParseStop (List Node)
  | [] => throw .error
  | target :: items => do
    if target.id = instanceId then
      let children ← target.readChildren
      if children = [] then instanceChildren instanceId items else return children
    else instanceChildren instanceId items

/-- The first item with the identifier. -/
def itemWithId (id : UInt16) (items : List Node) : Except ParseStop Node :=
  match items.find? (·.id = id) with
  | some item => return item
  | none => throw .error

/-- `json_dataStrip` with the check of its result. -/
def stripped (items : List Node) : Except ParseStop (List Node) :=
  if items = [] then throw .error else return dataStrip items

/-- The loop of `senml_json_parse` for the resource. -/
def senmlResource (uriP : Uri) (items : List Node) : Except ParseStop (List Node) := do
  let target ← itemWithId uriP.resourceId items
  if target.type = .multipleResource ∧ uriP.isSetResourceInstance then
    let children ← target.readChildren
    if children = [] then throw .error else return children
  else stripped [target]

/-- The part of `senml_json_parse` below the instance. -/
def senmlBelow (uriP : Uri) (items : List Node) : Except ParseStop (List Node) := do
  let items ← if uriP.isSetResource then senmlResource uriP items else pure items
  if uriP.isSetResourceInstance then
    let target ← itemWithId uriP.resourceInstanceId items
    stripped [target]
  else if uriP.isSetResource then return items
  else stripped items

/-- `senml_json_parse` from the tree on, for a URI with an object. -/
def senmlDescend (uriP : Uri) : List Node → Except ParseStop (List Node)
  | [] => throw .error
  | parsedP :: _ => do
    if parsedP.type ≠ .object then throw .error
    else if parsedP.id ≠ uriP.objectId then throw .error
    else
      let items ← parsedP.readChildren
      if ¬ uriP.isSetInstance then stripped items
      else senmlBelow uriP (← instanceChildren uriP.instanceId items)

/-- `senml_json_parse` from the records on. -/
def senmlJsonParse (uriP : Option NestedUri) (records : List SenmlRecord) :
    Except ParseStop (List Node) := do
  if records = [] then throw .error
  else
    let parsedP ← senmlConvertRecord records
    match uriP with
    | none => stripped parsedP
    | some uri => if uri.isSetObject then senmlDescend uri.toUri parsedP else stripped parsedP

/-- The part of `json_parse` below the instance. -/
def jsonBelow (uriP : Uri) (items : List Node) : Except ParseStop (List Node) := do
  if uriP.isSetResource then
    let target ← itemWithId uriP.resourceId items
    stripped [target]
  else stripped items

/-- `json_parse` from the tree on, for a request URI. -/
def jsonDescend (uriP : Uri) : List Node → Except ParseStop (List Node)
  | [] => throw .error
  | parsedP :: _ => do
    if parsedP.type ≠ .object ∨ parsedP.id ≠ uriP.objectId then throw .error
    else
      let items ← parsedP.readChildren
      if ¬ uriP.isSetInstance then stripped items
      else jsonBelow uriP (← instanceChildren uriP.instanceId items)

/-- The base URI of `json_parse`: the one of `bn`, which is null for `/`, or the request URI. -/
def jsonBase (uriP : Option NestedUri) (bn : Option (Option NestedUri)) : Option NestedUri :=
  bn.getD uriP

/-- `json_parse` from the records on. -/
def jsonParse (uriP : Option NestedUri) (bn : Option (Option NestedUri))
    (records : List JsonRecord) : Except ParseStop (List Node) := do
  if records = [] then throw .error
  else
    let parsedP ← jsonConvertRecord (jsonBase uriP bn) records
    match uriP with
    | none => stripped parsedP
    | some uri => jsonDescend uri.toUri parsedP

/-- What `prv_parseItem` left of a payload: its records, and the base name in JSON. -/
inductive Payload
  | senml (records : List SenmlRecord)
  | json (bn : Option (Option NestedUri)) (records : List JsonRecord)

namespace Payload

/-- The tree that the records build. -/
def tree (uriP : Option NestedUri) : Payload → Except ParseStop (List Node)
  | senml records => senmlConvertRecord records
  | json bn records => jsonConvertRecord (jsonBase uriP bn) records

/-- `senml_json_parse` and `json_parse`. -/
def parse (uriP : Option NestedUri) : Payload → Except ParseStop (List Node)
  | senml records => senmlJsonParse uriP records
  | json bn records => jsonParse uriP bn records

end Payload

/-! ### What a URI addresses -/

/-- The children of a container. -/
def Node.contained (node : Node) : Option (List Node) :=
  if isContainer node.type then some node.children else none

/-- What a URI addresses in an instance: its children, a resource, or an item of a resource that is
a container. -/
def addressedBelow (uri : Uri) (resources : List Node) : Option (List Node) :=
  if ¬ uri.isSetResource then some resources
  else do
    let resource ← resources.find? (·.id = uri.resourceId)
    if ¬ uri.isSetResourceInstance then some [resource]
    else
      let item ← (← resource.contained).find? (·.id = uri.resourceInstanceId)
      some [item]

/-- The nodes that a URI addresses, below an object and an instance that are containers. -/
def addressed (uri : Uri) (tree : List Node) : Option (List Node) := do
  let instances ← (← tree.find? (·.id = uri.objectId)).contained
  if ¬ uri.isSetInstance then some instances
  else addressedBelow uri (← (← instances.find? (·.id = uri.instanceId)).contained)

/-- The result is an error, or the nodes that are expected; it is no fault. -/
def Answers (result : Except ParseStop (List Node)) (expected : Option (List Node)) : Prop :=
  (∀ fault, result ≠ .error (.fault fault)) ∧ ∀ nodes, result = .ok nodes → expected = some nodes

/-- A parse descends into containers only, and its result are the nodes that the URI
addresses or an error. -/
def Descends (uriP : Option NestedUri) (tree : List Node)
    (result : Except ParseStop (List Node)) : Prop :=
  (∀ fault, result ≠ .error (.fault fault)) ∧
    match uriP with
    | none => Answers result (some tree)
    | some uri => uri.isSetObject → Answers result (addressed uri.toUri tree)

/-! ### The walks on a tree -/

section Walk

variable {n root : Node} {items tree rest : List Node} {uri : NestedUri} {id : UInt16}

theorem stripped_eq (hne : items ≠ []) (hfull : ∀ c ∈ items, Full c) :
    stripped items = .ok items := by
  rw [stripped, if_neg hne, dataStrip_eq_self hfull]
  rfl

theorem Full.readChildren_eq (h : Full n) (hn : isContainer n.type) :
    n.readChildren = .ok n.children := by
  rw [Node.readChildren, if_pos hn]
  exact (h.asChildren_eq hn).1

/-- The loop for the instance looks at the first item with the identifier only. -/
theorem instanceChildren_eq (hfull : ∀ c ∈ items, Full c) :
    instanceChildren id items = match items.find? (·.id = id) with
      | none => .error .error
      | some n => if isContainer n.type then .ok n.children
        else .error (.fault .wrongUnionMember) := by
  induction items with
  | nil => rfl
  | cons target items ih =>
    obtain ⟨htarget, hitems⟩ := List.forall_mem_cons.mp hfull
    rw [instanceChildren, List.find?_cons]
    by_cases hid : target.id = id
    · simp only [hid, decide_true, if_true]
      by_cases hcontainer : isContainer target.type
      · obtain ⟨-, hne⟩ := htarget.asChildren_eq hcontainer
        rw [htarget.readChildren_eq hcontainer, if_pos hcontainer, ok_bind, if_neg hne]
        rfl
      · rw [Node.readChildren, if_neg hcontainer, if_neg hcontainer]
        rfl
    · simp only [hid, decide_false, if_false]
      exact ih hitems

theorem itemWithId_eq : itemWithId id items = match items.find? (·.id = id) with
    | none => .error .error
    | some n => .ok n := by
  rw [itemWithId]
  cases items.find? (·.id = id) <;> rfl

theorem answers_error (expected : Option (List Node)) : Answers (.error .error) expected :=
  ⟨fun _ h => (by cases h), fun _ h => (by cases h)⟩

theorem not_answers_fault (fault : Fault) (expected : Option (List Node)) :
    ¬ Answers (.error (.fault fault)) expected := fun h => h.1 fault rfl

@[simp] theorem answers_ok_iff {nodes : List Node} {expected : Option (List Node)} :
    Answers (.ok nodes) expected ↔ expected = some nodes := by
  constructor
  · rintro ⟨-, h⟩
    exact h nodes rfl
  · intro h
    refine ⟨fun _ h => (by cases h), fun _ h' => ?_⟩
    cases h'
    exact h

theorem descends_error (uriP : Option NestedUri) (tree : List Node) :
    Descends uriP tree (.error .error) := by
  refine ⟨fun _ h => (by cases h), ?_⟩
  cases uriP with
  | none => exact answers_error _
  | some uri => exact fun _ => answers_error _

theorem descends_iff (hobject : uri.isSetObject) (result : Except ParseStop (List Node)) :
    Descends (some uri) tree result ↔ Answers result (addressed uri.toUri tree) := by
  constructor
  · exact fun h => h.2 hobject
  · exact fun h => ⟨h.1, fun _ => h⟩

/-- What the URI addresses below the first root. -/
theorem addressed_cons (hid : root.id = uri.objectId) (hcontainer : isContainer root.type) :
    addressed uri.toUri (root :: rest) =
      if ¬ uri.isSetInstance then some root.children
      else root.child uri.instanceId >>= Node.contained >>= addressedBelow uri.toUri := by
  rw [addressed, List.find?_cons]
  simp only [hid, decide_true, Option.bind_eq_bind, Option.bind_some, Node.contained,
    if_pos hcontainer, Option.bind_assoc]
  rfl

end Walk

/-! ### SenML JSON -/

section Senml

variable {n root r : Node} {items rest : List Node} {uri : NestedUri}

theorem stripped_singleton (h : Full n) : stripped [n] = .ok [n] :=
  stripped_eq (by simp) (by simpa using h)

/-- The requested resource instance has the number of its resource, and the first
resource with that number is no multiple resource. -/
def ValueAtResource (uri : Uri) (n : Node) : Prop :=
  uri.isSetResource ∧ uri.resourceInstanceId = uri.resourceId ∧
    ∃ r, n.child uri.resourceId = some r ∧ r.type ≠ .multipleResource

/-- Where the loop for the resource goes on. -/
theorem senmlResource_eq (hfull : Full n) (hr : n.child uri.resourceId = some r) :
    senmlResource uri.toUri n.children =
      .ok (if r.type = .multipleResource ∧ uri.isSetResourceInstance then r.children else [r]) := by
  have hrfull : Full r := hfull.of_mem_children r (List.mem_of_find?_eq_some hr)
  rw [Node.child] at hr
  rw [senmlResource, itemWithId_eq, hr]
  simp only [ok_bind]
  split_ifs with hmultiple
  · have hcontainer : isContainer r.type := .inr (.inr hmultiple.1)
    rw [hrfull.readChildren_eq hcontainer, ok_bind, if_neg (hrfull.asChildren_eq hcontainer).2]
    rfl
  · exact stripped_singleton hrfull

/-- The search for the resource instance. -/
theorem itemWithId_stripped (hfull : ∀ c ∈ items, Full c) (id : UInt16) :
    (itemWithId id items >>= fun target => stripped [target]) =
      match items.find? (·.id = id) with
      | none => .error .error
      | some item => .ok [item] := by
  rw [itemWithId_eq]
  cases hfind : items.find? (·.id = id) with
  | none => rfl
  | some item => exact stripped_singleton (hfull item (List.mem_of_find?_eq_some hfind))

/-- The walk below the instance returns what is addressed there, or an error, unless it takes a
resource for its instance. -/
theorem senmlBelow_answers_iff (hfull : Full n) (hn : isContainer n.type)
    (hresource : ∀ r, n.child uri.resourceId = some r → isContainer r.type →
      r.type = .multipleResource) :
    Answers (senmlBelow uri.toUri n.children) (addressedBelow uri.toUri n.children) ↔
      ¬ ValueAtResource uri.toUri n := by
  obtain ⟨-, hne⟩ := hfull.asChildren_eq hn
  rw [senmlBelow, addressedBelow]
  by_cases hres : uri.isSetResource
  · rw [if_pos hres, if_neg (not_not.mpr hres)]
    cases hfind : n.child uri.resourceId with
    | none =>
      have hnone : ¬ ValueAtResource uri.toUri n := by simp [ValueAtResource, hfind]
      rw [Node.child] at hfind
      rw [senmlResource, itemWithId_eq, hfind]
      exact iff_of_true (answers_error _) hnone
    | some r =>
      have hr : Full r := hfull.of_mem_children r (List.mem_of_find?_eq_some hfind)
      have hrid : r.id = uri.resourceId := by simpa using List.find?_some hfind
      have hbad : ValueAtResource uri.toUri n ↔
          uri.resourceInstanceId = uri.resourceId ∧ r.type ≠ .multipleResource := by
        simp [ValueAtResource, hres, hfind]
      rw [hbad, senmlResource_eq hfull hfind]
      rw [Node.child] at hfind
      simp only [ok_bind, hfind, Option.bind_eq_bind, Option.bind_some]
      by_cases hri : uri.isSetResourceInstance
      · simp only [hri, and_true, if_true, not_true_eq_false, if_false]
        by_cases htype : r.type = .multipleResource
        · have hcontainer : isContainer r.type := .inr (.inr htype)
          rw [if_pos htype, itemWithId_stripped hr.of_mem_children, Node.contained,
            if_pos hcontainer]
          refine iff_of_true ?_ fun h => h.2 htype
          cases hitem : r.children.find? (·.id = uri.resourceInstanceId) with
          | none => exact answers_error _
          | some item => simp [hitem]
        · have hcontainer : ¬ isContainer r.type := mt (hresource r hfind) htype
          rw [if_neg htype, itemWithId_stripped (by simpa using hr), Node.contained,
            if_neg hcontainer]
          by_cases hsame : uri.resourceInstanceId = uri.resourceId
          · have hitem : [r].find? (·.id = uri.resourceInstanceId) = some r := by
              simp [hrid, hsame]
            rw [hitem]
            simp [hsame, htype]
          · have hitem : [r].find? (·.id = uri.resourceInstanceId) = none := by
              simpa [hrid] using fun h : uri.resourceId = _ => hsame h.symm
            rw [hitem]
            exact iff_of_true (answers_error _) fun h => hsame h.1
      · have hother : uri.resourceInstanceId ≠ uri.resourceId := by
          intro h
          rw [Uri.isSetResourceInstance, h] at hri
          exact hri hres
        simp only [hri, hres, and_false, if_false, if_true, not_false_eq_true]
        exact iff_of_true (answers_ok_iff.mpr rfl) fun h => hother h.1
  · have hri : ¬ uri.isSetResourceInstance := mt uri.resource_of_resourceInstance hres
    simp only [hres, hri, if_false, if_true, not_false_eq_true, pure_eq_ok, ok_bind]
    rw [stripped_eq hne hfull.of_mem_children]
    exact iff_of_true (answers_ok_iff.mpr rfl) fun h => hres h.1

/-- A value stands where the walk for the URI expects a container. -/
def ValueOnTheWay (uri : Uri) (root : Node) : Prop :=
  root.type = .object ∧ root.id = uri.objectId ∧ uri.isSetInstance ∧
    ∃ n, root.child uri.instanceId = some n ∧ (¬ isContainer n.type ∨ ValueAtResource uri n)

/-- **The walk of `senml_json_parse` on a tree.** -/
theorem senmlDescend_descends_iff (hobject : uri.isSetObject) (hroot : Full root)
    (hresource : root.type = .object → root.id = uri.objectId → ∀ n,
      root.child uri.instanceId = some n → isContainer n.type → ∀ r,
        n.child uri.resourceId = some r → isContainer r.type → r.type = .multipleResource) :
    Descends (some uri) (root :: rest) (senmlDescend uri.toUri (root :: rest)) ↔
      ¬ ValueOnTheWay uri.toUri root := by
  rw [descends_iff hobject, senmlDescend]
  by_cases htype : root.type = .object
  · rw [if_neg (not_not.mpr htype)]
    by_cases hid : root.id = uri.objectId
    · have hcontainer : isContainer root.type := .inl htype
      rw [if_neg (not_not.mpr hid), addressed_cons hid hcontainer, hroot.readChildren_eq hcontainer,
        ok_bind]
      by_cases hinst : uri.isSetInstance
      · rw [if_neg (not_not.mpr hinst), if_neg (not_not.mpr hinst),
          instanceChildren_eq hroot.of_mem_children]
        cases hfind : root.child uri.instanceId with
        | none =>
          have hway : ¬ ValueOnTheWay uri.toUri root := by simp [ValueOnTheWay, hfind]
          rw [Node.child] at hfind
          rw [hfind]
          exact iff_of_true (answers_error _) hway
        | some n =>
          have hn : Full n := hroot.of_mem_children n (List.mem_of_find?_eq_some hfind)
          have hway : ValueOnTheWay uri.toUri root ↔
              ¬ isContainer n.type ∨ ValueAtResource uri.toUri n := by
            simp [ValueOnTheWay, htype, hid, hinst, hfind]
          have hresource := hresource htype hid n hfind
          rw [hway]
          rw [Node.child] at hfind
          simp only [hfind, Option.bind_eq_bind, Option.bind_some, Node.contained]
          by_cases hncontainer : isContainer n.type
          · rw [if_pos hncontainer, if_pos hncontainer, ok_bind, Option.bind_some,
              senmlBelow_answers_iff hn hncontainer (hresource hncontainer)]
            simp [hncontainer]
          · rw [if_neg hncontainer, if_neg hncontainer]
            exact iff_of_false (not_answers_fault _ _) (by simp [hncontainer])
      · obtain ⟨-, hne⟩ := hroot.asChildren_eq hcontainer
        rw [if_pos hinst, if_pos hinst, stripped_eq hne hroot.of_mem_children]
        exact iff_of_true (answers_ok_iff.mpr rfl) fun h => hinst h.2.2.1
    · rw [if_pos hid]
      exact iff_of_true (answers_error _) fun h => hid h.2.1
  · rw [if_pos htype]
    exact iff_of_true (answers_error _) fun h => htype h.1

end Senml

/-! ### JSON -/

section JsonWalk

variable {n r root : Node} {rest : List Node} {uri : NestedUri}

/-- A node is not an item of its own children. -/
theorem ne_of_mem_children (h : n ∈ r.children) : n ≠ r := by
  rintro rfl
  rcases n with ⟨id, type, value, children⟩
  have hlt := List.sizeOf_lt_of_mem h
  simp only [Node.children, Node.mk.sizeOf_spec] at hlt
  omega

/-- The walk of `json_parse` on a tree of objects with instances. -/
theorem jsonDescend_eq (hroot : Full root) (htype : root.type = .object)
    (hinstances : ∀ n, root.child uri.instanceId = some n → isContainer n.type) :
    jsonDescend uri.toUri (root :: rest) =
      if root.id ≠ uri.objectId then .error .error
      else if ¬ uri.isSetInstance then .ok root.children
      else match root.child uri.instanceId with
        | none => .error .error
        | some n =>
          if uri.isSetResource then
            match n.child uri.resourceId with
            | none => .error .error
            | some r => .ok [r]
          else .ok n.children := by
  have hcontainer : isContainer root.type := .inl htype
  rw [jsonDescend]
  by_cases hid : root.id = uri.objectId
  swap
  · rw [if_pos (.inr hid), if_pos hid]
    rfl
  rw [if_neg (by simp [htype, hid]), if_neg (not_not.mpr hid), hroot.readChildren_eq hcontainer,
    ok_bind]
  by_cases hinst : uri.isSetInstance
  swap
  · rw [if_pos hinst, if_pos hinst]
    exact stripped_eq (hroot.asChildren_eq hcontainer).2 hroot.of_mem_children
  rw [if_neg (not_not.mpr hinst), if_neg (not_not.mpr hinst),
    instanceChildren_eq hroot.of_mem_children]
  cases hfind : root.child uri.instanceId with
  | none =>
    rw [Node.child] at hfind
    rw [hfind]
    rfl
  | some n =>
    have hn : Full n := hroot.of_mem_children n (List.mem_of_find?_eq_some hfind)
    have hncontainer := hinstances n hfind
    rw [Node.child] at hfind
    rw [hfind]
    dsimp only
    rw [if_pos hncontainer, ok_bind, jsonBelow]
    split_ifs
    · exact itemWithId_stripped hn.of_mem_children _
    · exact stripped_eq (hn.asChildren_eq hncontainer).2 hn.of_mem_children

/-- **The walk of `json_parse` on a tree**: it returns a resource for each of its instances. -/
theorem jsonDescend_descends_iff (hroot : Full root) (htype : root.type = .object)
    (hinstances : ∀ n, root.child uri.instanceId = some n → isContainer n.type) :
    Descends (some uri) (root :: rest) (jsonDescend uri.toUri (root :: rest)) ↔
      ¬ (uri.isSetResourceInstance ∧ root.id = uri.objectId ∧
        ∃ n, root.child uri.instanceId = some n ∧ (n.child uri.resourceId).isSome) := by
  have hcontainer : isContainer root.type := .inl htype
  rw [jsonDescend_eq hroot htype hinstances]
  by_cases hid : root.id = uri.objectId
  swap
  · rw [if_pos hid]
    exact iff_of_true (descends_error _ _) fun h => hid h.2.1
  rw [if_neg (not_not.mpr hid)]
  have hok : ∀ nodes, addressed uri.toUri (root :: rest) = some nodes →
      Descends (some uri) (root :: rest) (.ok nodes) :=
    fun nodes h => ⟨fun _ h => (by cases h), fun _ => answers_ok_iff.mpr h⟩
  by_cases hinst : uri.isSetInstance
  swap
  · have hri : ¬ uri.isSetResourceInstance := fun hri =>
      hinst (uri.instance_of_resource (uri.resource_of_resourceInstance hri))
    rw [if_pos hinst]
    refine iff_of_true (hok _ ?_) fun h => hri h.1
    rw [addressed_cons hid hcontainer, if_pos hinst]
  rw [if_neg (not_not.mpr hinst)]
  cases hfind : root.child uri.instanceId with
  | none => exact iff_of_true (descends_error _ _) (by simp)
  | some n =>
    have hncontainer := hinstances n hfind
    have haddressed : addressed uri.toUri (root :: rest) = addressedBelow uri.toUri n.children := by
      rw [addressed_cons hid hcontainer, if_neg (not_not.mpr hinst), hfind]
      simp [Node.contained, hncontainer]
    rw [haddressed, addressedBelow] at hok
    dsimp only
    by_cases hres : uri.isSetResource
    swap
    · have hri := mt uri.resource_of_resourceInstance hres
      rw [if_neg hres]
      exact iff_of_true (hok _ (if_pos hres)) fun h => hri h.1
    rw [if_pos hres]
    rw [if_neg (not_not.mpr hres)] at hok
    cases hr : n.child uri.resourceId with
    | none =>
      refine iff_of_true (descends_error _ _) ?_
      rintro ⟨-, -, _, ⟨⟩, hsome⟩
      simp [hr] at hsome
    | some r =>
      have hr' := hr
      rw [Node.child] at hr'
      by_cases hri : uri.isSetResourceInstance
      · refine iff_of_false (fun h => ?_) (not_not.mpr ⟨hri, hid, n, rfl, by simp [hr]⟩)
        have hexpected := answers_ok_iff.mp (h.2 (uri.object_of_instance hinst))
        rw [haddressed, addressedBelow, if_neg (not_not.mpr hres), hr'] at hexpected
        simp only [Option.bind_eq_bind, Option.bind_some, if_neg (not_not.mpr hri),
          Option.bind_eq_some_iff, Option.some.injEq, List.cons.injEq, and_true, Node.contained,
          Option.ite_none_right_eq_some] at hexpected
        obtain ⟨_, ⟨-, rfl⟩, item, hitem, hsame⟩ := hexpected
        exact ne_of_mem_children (List.mem_of_find?_eq_some hitem) hsame
      · refine iff_of_true (hok _ ?_) fun h => hri h.1
        simp [hr', hri]

end JsonWalk

end Lwm2m.Codec

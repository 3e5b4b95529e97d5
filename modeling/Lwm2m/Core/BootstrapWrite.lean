/-
# What a bootstrap write installs

The PUT of `bootstrap_handleCommand` down to the callbacks of the object it writes to
(`core/bootstrap.c`, `core/objects.c`): the loop over the decoded instances of an object-level
write, and `object_create` and `object_write` of an instance-level one.  The decoded
payload is an input, and so are the callbacks; `Lwm2mObject.Obeys` says what is relied on
when one of them answers with a success.

`object_createInstance` does not hand on the identifier of the instance it creates: it takes the
lowest one that is free in the list.  An object-level write
installs its instances under their identifiers if and only if each of them is in the list at its
turn or is the lowest free identifier then (`bootstrapPut_installs_iff`).  `object_create` takes
the identifier of a decoded instance, whatever instance the URI names.
-/

import Lwm2m.Core.Bootstrap
import Mathlib.Data.Finset.Card

namespace Lwm2m.Core

open Coap Code

/-! ### Data and objects -/

/-- `lwm2m_data_type_t`. -/
inductive DataType
  | undefined
  | object
  | objectInstance
  | multipleResource
  | string
  | opaqueBytes
  | integer
  | unsignedInteger
  | float
  | boolean
  | objectLink
  | coreLink
  deriving DecidableEq, Repr

/-- `lwm2m_data_t`, with the array of `asChildren` and the bytes of every other member of its
union. -/
inductive Data
  | mk (id : UInt16) (type : DataType) (value : List Byte) (children : List Data)

namespace Data

/-- The field `id`. -/
def id : Data → UInt16
  | mk id _ _ _ => id

/-- The field `type`. -/
def type : Data → DataType
  | mk _ type _ _ => type

/-- The array `value.asChildren.array`. -/
def children : Data → List Data
  | mk _ _ _ children => children

end Data

/-- An instance of an object: its node in the list and the resources that the implementation
keeps. -/
structure Instance where
  id : UInt16
  resources : List Data

/-- The field `instanceList` of an object, a list sorted by identifier. -/
structure InstanceList where
  nodes : List Instance
  sorted : nodes.Pairwise (·.id < ·.id)

/-- The identifiers of the instances. -/
def InstanceList.ids (l : InstanceList) : List UInt16 := l.nodes.map Instance.id

/-- `lwm2m_write_type_t`. -/
inductive WriteType
  | partialUpdate
  | replaceResources
  | replaceInstance
  deriving DecidableEq, Repr

/-- `lwm2m_object_t`, with the callbacks that a bootstrap write calls. -/
structure Lwm2mObject where
  instanceList : InstanceList
  writeFunc : Option (UInt16 → List Data → WriteType → InstanceList → InstanceList × Code)
  createFunc : Option (UInt16 → List Data → InstanceList → InstanceList × Code)

/-- The walk of `lwm2m_list_newId` from the identifier `id`. -/
def newIdFrom (id : UInt16) : List UInt16 → UInt16
  | [] => id
  | target :: next => if id = target then newIdFrom (target + 1) next else id

/-- `lwm2m_list_newId`. -/
def lwm2mListNewId (head : List UInt16) : UInt16 := newIdFrom 0 head

/-! ### The object layer -/

/-- `object_isInstanceNew` for an object that exists. -/
def objectIsInstanceNew (targetP : Lwm2mObject) (instanceId : UInt16) : Bool :=
  (listFind Instance.id targetP.instanceList.nodes instanceId).isNone

/-- A call of the create callback. -/
def callCreate (targetP : Lwm2mObject) (instanceId : UInt16) (dataArray : List Data) :
    Lwm2mObject × Code :=
  match targetP.createFunc with
  | none => (targetP, coap405MethodNotAllowed)
  | some createFunc =>
    let (instanceList, result) := createFunc instanceId dataArray targetP.instanceList
    ({ targetP with instanceList }, result)

/-- A call of the write callback. -/
def callWrite (targetP : Lwm2mObject) (instanceId : UInt16) (dataArray : List Data)
    (writeType : WriteType) : Lwm2mObject × Code :=
  match targetP.writeFunc with
  | none => (targetP, coap405MethodNotAllowed)
  | some writeFunc =>
    let (instanceList, result) := writeFunc instanceId dataArray writeType targetP.instanceList
    ({ targetP with instanceList }, result)

/-- `object_createInstance`. -/
def objectCreateInstance (targetP : Lwm2mObject) (dataP : Data) : Lwm2mObject × Code :=
  callCreate targetP (lwm2mListNewId targetP.instanceList.ids) dataP.children

/-- `object_writeInstance`. -/
def objectWriteInstance (targetP : Lwm2mObject) (dataP : Data) : Lwm2mObject × Code :=
  callWrite targetP dataP.id dataP.children .replaceInstance

/-- `object_create`; `parsed` is the array of `lwm2m_data_parse`, or `none` when it returns a
negative size. -/
def objectCreate (targetP : Lwm2mObject) (uriP : Uri) (buffer : List Byte)
    (parsed : Option (List Data)) : Lwm2mObject × Code :=
  if buffer.length = 0 then (targetP, coap400BadRequest)
  else if targetP.createFunc.isNone then (targetP, coap405MethodNotAllowed)
  else
    match parsed.getD [] with
    | [] => (targetP, coap400BadRequest)
    | dataP :: next =>
      match dataP.type with
      | .object => (targetP, coap400BadRequest)
      | .objectInstance =>
        if next ≠ [] then (targetP, coap400BadRequest)
        else if ¬ objectIsInstanceNew targetP dataP.id then (targetP, coap406NotAcceptable)
        else callCreate targetP dataP.id dataP.children
      | _ =>
        let instanceId := if uriP.isSetInstance then uriP.instanceId
          else lwm2mListNewId targetP.instanceList.ids
        callCreate targetP instanceId (dataP :: next)

/-- `object_write` without the flag `partial`. -/
def objectWrite (targetP : Lwm2mObject) (uriP : Uri) (parsed : Option (List Data)) :
    Lwm2mObject × Code :=
  if ¬ uriP.isSetObject then (targetP, coap400BadRequest)
  else if ¬ uriP.isSetInstance then (targetP, coap400BadRequest)
  else if targetP.writeFunc.isNone then (targetP, coap405MethodNotAllowed)
  else
    match parsed.getD [] with
    | [] => (targetP, coap406NotAcceptable)
    | dataP :: next =>
      if uriP.isSetResourceInstance then
        let dataArray := [.mk uriP.resourceId .multipleResource [] (dataP :: next)]
        callWrite targetP uriP.instanceId dataArray .partialUpdate
      else
        callWrite targetP uriP.instanceId (dataP :: next)
          (if uriP.isSetResource then .replaceResources else .replaceInstance)

/-! ### The write -/

/-- The result that `bootstrap_handleCommand` makes of the answer for an item. -/
def BootstrapItem.result (item : BootstrapItem) : Code :=
  if item.isNew ∧ item.code = coap201Created then coap204Changed else item.code

/-- The loop of an object-level write: the object afterwards, and the items as far as
the loop came. -/
def putItems (targetP : Lwm2mObject) : List Data → Lwm2mObject × List BootstrapItem
  | [] => (targetP, [])
  | dataP :: next =>
    if dataP.type = .objectInstance then
      let isNew := objectIsInstanceNew targetP dataP.id
      let (targetP, code) :=
        if isNew then objectCreateInstance targetP dataP else objectWriteInstance targetP dataP
      let item : BootstrapItem := { id := dataP.id, isObjectInstance := true, isNew, code }
      if item.result ≠ coap204Changed then (targetP, [item])
      else
        let (targetP, items) := putItems targetP next
        (targetP, item :: items)
    else
      let (targetP, items) := putItems targetP next
      (targetP, { id := dataP.id, isObjectInstance := false, isNew := false, code := noError } :: items)

/-- The PUT of `bootstrap_handleCommand` on the object of the URI: the object afterwards, and what
the object layer answers. -/
def bootstrapPut (targetP : Lwm2mObject) (uriP : Uri) (message : Packet)
    (parsed : Option (List Data)) : Lwm2mObject × BootstrapOutcome :=
  if uriP.isSetInstance then
    let isNew := objectIsInstanceNew targetP uriP.instanceId
    let (targetP, code) :=
      if isNew then objectCreate targetP uriP message.payload parsed
      else objectWrite targetP uriP parsed
    (targetP, { isNew, code })
  else if message.payload.length = 0 then (targetP, {})
  else
    match parsed with
    -- a negative size is not zero, and the loop does nothing
    | none => (targetP, { items := some [] })
    | some [] => (targetP, { items := none })
    | some (dataP :: next) =>
      let (targetP, items) := putItems targetP (dataP :: next)
      (targetP, { items := some items })

/-! ### What is relied on, and what is promised -/

/-- The instances with the resources of one of them replaced. -/
def replaceResources (nodes : List Instance) (id : UInt16) (resources : List Data) :
    List Instance :=
  nodes.map fun node => if node.id = id then { node with resources } else node

/-- What a callback has done when it answers with a success: a new instance was added with the data
as its resources; or an existing instance, and no other, was changed, and has the data as
its resources when it was to be replaced. -/
structure Lwm2mObject.Obeys (targetP : Lwm2mObject) : Prop where
  create : ∀ {createFunc}, targetP.createFunc = some createFunc → ∀ {id dataArray l l' code},
    createFunc id dataArray l = (l', code) → code = coap201Created ∨ code = coap204Changed →
      id ∉ l.ids → l'.nodes = listAdd Instance.id ⟨id, dataArray⟩ l.nodes
  write : ∀ {writeFunc}, targetP.writeFunc = some writeFunc →
    ∀ {id dataArray writeType l l'}, writeFunc id dataArray writeType l = (l', coap204Changed) →
      id ∈ l.ids ∧ ∃ resources, l'.nodes = replaceResources l.nodes id resources ∧
        (writeType = .replaceInstance → resources = dataArray)

/-- The instances among the items of a payload. -/
def instanceItems (items : List Data) : List Data := items.filter (·.type = .objectInstance)

/-- The items of a payload are installed: each of its instances is there with its resources, and no
instance was made that the payload does not hold. -/
def Installed (nodes : List Instance) (items : List Data) (nodes' : List Instance) : Prop :=
  (∀ dataP ∈ instanceItems items, ⟨dataP.id, dataP.children⟩ ∈ nodes') ∧
    ∀ node ∈ nodes', node.id ∈ nodes.map Instance.id ∨ node.id ∈ (instanceItems items).map Data.id

/-- Each instance of the payload is used at its turn, or every lower identifier is: it was
before, or an earlier item of the payload has it. -/
def LowestFree (used : List UInt16) : List Data → Prop
  | [] => True
  | dataP :: next =>
    (dataP.id ∉ used → ∀ id < dataP.id, id ∈ used) ∧ LowestFree (dataP.id :: used) next

/-- No instance but the one with the identifier was created or changed. -/
def OnlyInstance (id : UInt16) (nodes nodes' : List Instance) : Prop :=
  ∀ node, node.id ≠ id → (node ∈ nodes' ↔ node ∈ nodes)

/-- A payload for a new instance does not begin with an instance of another identifier. -/
def NamesInstance (l : InstanceList) (id : UInt16) (parsed : Option (List Data)) : Prop :=
  id ∉ l.ids → ∀ dataP ∈ (parsed.getD []).head?, dataP.type = .objectInstance → dataP.id = id

/-! ### The lowest free identifier -/

variable {x : UInt16} {l : List UInt16} {contextP : Context}

/-- **The walk for a free identifier**, from one that no element of a list in order is below: where
some identifier from there on is free, it stops at a free one and passes used ones only. -/
theorem newIdFrom_spec {id : UInt16} (hsorted : l.Pairwise (· < ·)) (hfrom : ∀ y ∈ l, id ≤ y)
    (hx : id ≤ x) (hfree : x ∉ l) :
    id ≤ newIdFrom id l ∧ newIdFrom id l ≤ x ∧ newIdFrom id l ∉ l ∧
      ∀ j, id ≤ j → j < newIdFrom id l → j ∈ l := by
  induction l generalizing id with
  | nil =>
    refine ⟨UInt16.le_refl _, hx, List.not_mem_nil, fun j hj hlt => ?_⟩
    exact absurd hlt (UInt16.not_lt.mpr hj)
  | cons y next ih =>
    obtain ⟨hy, hnext⟩ := List.pairwise_cons.mp hsorted
    obtain ⟨hidy, -⟩ := List.forall_mem_cons.mp hfrom
    obtain ⟨hxy, hxnext⟩ := not_or.mp (List.mem_cons.not.mp hfree)
    unfold newIdFrom
    by_cases hstep : id = y
    · rw [if_pos hstep]
      have hsucc {z : UInt16} (hz : y < z) : (y + 1).toNat = y.toNat + 1 := by
        have := z.toNat_lt
        have := UInt16.lt_iff_toNat_lt.mp hz
        rw [UInt16.toNat_add, UInt16.toNat_one]
        omega
      have hle {z : UInt16} (hz : y < z) : y + 1 ≤ z := by
        rw [UInt16.le_iff_toNat_le, hsucc hz]
        exact UInt16.lt_iff_toNat_lt.mp hz
      have hyx : y < x := UInt16.lt_of_le_of_ne (hstep ▸ hx) (Ne.symm hxy)
      obtain ⟨hge, hlex, hnot, hall⟩ := ih hnext (fun z hz => hle (hy z hz)) (hle hyx) hxnext
      have hyid : y < newIdFrom (y + 1) next := by
        rw [UInt16.lt_iff_toNat_lt]
        have := UInt16.le_iff_toNat_le.mp hge
        have := hsucc hyx
        omega
      have hidnew : id ≤ newIdFrom (y + 1) next := by
        rw [hstep]
        exact UInt16.le_of_lt hyid
      refine ⟨hidnew, hlex, ?_, fun j hj hlt => ?_⟩
      · rw [List.mem_cons, not_or]
        exact ⟨(UInt16.ne_of_lt hyid).symm, hnot⟩
      · by_cases hjy : j = y
        · rw [hjy]
          exact List.mem_cons_self
        · have hyj : y < j := UInt16.lt_of_le_of_ne (hstep ▸ hj) (Ne.symm hjy)
          exact List.mem_cons_of_mem _ (hall j (hle hyj) hlt)
    · rw [if_neg hstep]
      have hlt : id < y := UInt16.lt_of_le_of_ne hidy hstep
      refine ⟨UInt16.le_refl _, hx, ?_, fun j hj hjlt => absurd hjlt (UInt16.not_lt.mpr hj)⟩
      rw [List.mem_cons, not_or]
      refine ⟨hstep, fun hmem => ?_⟩
      exact absurd (UInt16.lt_trans hlt (hy id hmem)) (UInt16.lt_irrefl id)

/-- Where an identifier is free, `lwm2m_list_newId` returns a free one, and it returns that one
exactly when every lower one is used. -/
theorem lwm2mListNewId_spec (hsorted : l.Pairwise (· < ·)) (hfree : x ∉ l) :
    lwm2mListNewId l ∉ l ∧ (lwm2mListNewId l = x ↔ ∀ j < x, j ∈ l) := by
  have hzero (y : UInt16) : 0 ≤ y := UInt16.zero_le
  obtain ⟨-, hle, hnot, hall⟩ := newIdFrom_spec hsorted (fun y _ => hzero y) (hzero x) hfree
  refine ⟨hnot, fun heq j hj => hall j (hzero j) ?_, fun h => ?_⟩
  · rw [← lwm2mListNewId, heq]
    exact hj
  · by_contra hne
    exact hnot (h _ (UInt16.lt_of_le_of_ne hle hne))

/-! ### The instances of a payload -/

section Nodes

variable {l l' : InstanceList} {nodes : List Instance} {id : UInt16}

/-- An instance list with the nodes of a list in order. -/
theorem InstanceList.ids_sorted (l : InstanceList) : l.ids.Pairwise (· < ·) :=
  List.pairwise_map.mpr l.sorted

theorem objectIsInstanceNew_iff {targetP : Lwm2mObject} :
    objectIsInstanceNew targetP id = true ↔ id ∉ targetP.instanceList.ids := by
  rw [objectIsInstanceNew, Option.isNone_iff_eq_none,
    listFind_eq_none_iff targetP.instanceList.sorted, InstanceList.ids, List.mem_map]
  push Not
  exact Iff.rfl

/-- The instances after the new instances of a payload were created, each under the
lowest free identifier, and the others replaced. -/
inductive Puts : InstanceList → List Data → InstanceList → Prop
  | done (l : InstanceList) : Puts l [] l
  | create {l l₁ l' : InstanceList} {dataP : Data} {next : List Data} (hnew : dataP.id ∉ l.ids)
      (hadd : l₁.nodes =
        listAdd Instance.id ⟨lwm2mListNewId l.ids, dataP.children⟩ l.nodes)
      (hnext : Puts l₁ next l') : Puts l (dataP :: next) l'
  | write {l l₁ l' : InstanceList} {dataP : Data} {next : List Data} (hold : dataP.id ∈ l.ids)
      (hset : l₁.nodes = replaceResources l.nodes dataP.id dataP.children)
      (hnext : Puts l₁ next l') : Puts l (dataP :: next) l'

variable {node : Instance} {resources : List Data}

theorem mem_ids_of_add (hadd : l'.nodes = listAdd Instance.id node l.nodes) :
    id ∈ l'.ids ↔ id = node.id ∨ id ∈ l.ids := by
  rw [InstanceList.ids, hadd, InstanceList.ids, List.mem_map, List.mem_map]
  constructor
  · rintro ⟨x, hx, rfl⟩
    rcases mem_listAdd.mp hx with rfl | hx
    · exact .inl rfl
    · exact .inr ⟨x, hx, rfl⟩
  · rintro (rfl | ⟨x, hx, rfl⟩)
    · exact ⟨node, mem_listAdd.mpr (.inl rfl), rfl⟩
    · exact ⟨x, mem_listAdd.mpr (.inr hx), rfl⟩

theorem map_id_replaceResources (nodes : List Instance) (id : UInt16) (resources : List Data) :
    (replaceResources nodes id resources).map Instance.id = nodes.map Instance.id := by
  rw [replaceResources, List.map_map]
  refine List.map_congr_left fun node _ => ?_
  simp only [Function.comp]
  split_ifs <;> rfl

/-- Another instance is not touched by a replacement. -/
theorem mem_replaceResources_of_ne (hne : node.id ≠ id) (resources : List Data) :
    node ∈ replaceResources nodes id resources ↔ node ∈ nodes := by
  unfold replaceResources
  rw [List.mem_map]
  constructor
  · rintro ⟨x, hx, heq⟩
    split_ifs at heq with hid
    · rw [← heq] at hne
      exact absurd hid hne
    · rwa [← heq]
  · intro hmem
    exact ⟨node, hmem, if_neg hne⟩

/-- The instance that is replaced has the resources. -/
theorem mem_replaceResources_self (h : id ∈ nodes.map Instance.id) :
    ⟨id, resources⟩ ∈ replaceResources nodes id resources := by
  obtain ⟨node, hmem, hid⟩ := List.mem_map.mp h
  refine List.mem_map.mpr ⟨node, hmem, ?_⟩
  rw [if_pos hid, hid]

variable {items : List Data}

/-- What a write does to the identifiers. -/
theorem ids_of_replace (hset : l'.nodes = replaceResources l.nodes id resources) :
    l'.ids = l.ids := by
  rw [InstanceList.ids, hset, map_id_replaceResources, InstanceList.ids]

/-- No identifier goes away. -/
theorem Puts.ids_subset (h : Puts l items l') : l.ids ⊆ l'.ids := by
  induction h with
  | done l => exact List.Subset.refl _
  | create hnew hadd hnext ih => exact fun id hid => ih ((mem_ids_of_add hadd).mpr (.inr hid))
  | write hold hset hnext ih => exact ids_of_replace hset ▸ ih

/-- An instance that the payload does not hold is left alone. -/
theorem Puts.mem_of_notMem (h : Puts l items l') (hmem : node ∈ l.nodes)
    (hnot : ∀ dataP ∈ items, dataP.id ≠ node.id) : node ∈ l'.nodes := by
  induction h with
  | done l => exact hmem
  | create hnew hadd hnext ih =>
    refine ih ?_ (List.forall_mem_cons.mp hnot).2
    rw [hadd]
    exact mem_listAdd.mpr (.inr hmem)
  | write hold hset hnext ih =>
    obtain ⟨hne, hrest⟩ := List.forall_mem_cons.mp hnot
    refine ih ?_ hrest
    rw [hset]
    exact (mem_replaceResources_of_ne hne.symm _).mpr hmem

/-- There are at most as many instances afterwards as identifiers that were used or are those
of the payload. -/
theorem Puts.card_le (h : Puts l items l') (hdistinct : (items.map Data.id).Nodup) :
    l'.ids.toFinset.card ≤ (l.ids.toFinset ∪ (items.map Data.id).toFinset).card := by
  induction h with
  | done l => exact Finset.card_le_card Finset.subset_union_left
  | @create l l₁ l' dataP next hnew hadd hnext ih =>
    obtain ⟨hnotin, hrest⟩ := List.nodup_cons.mp hdistinct
    have hids : l₁.ids.toFinset = insert (lwm2mListNewId l.ids) l.ids.toFinset := by
      ext id
      rw [List.mem_toFinset, mem_ids_of_add hadd, Finset.mem_insert, List.mem_toFinset]
    have hfresh : dataP.id ∉ l.ids.toFinset ∪ (next.map Data.id).toFinset := by
      rw [Finset.mem_union, List.mem_toFinset, List.mem_toFinset, not_or]
      exact ⟨hnew, hnotin⟩
    calc l'.ids.toFinset.card
        ≤ (l₁.ids.toFinset ∪ (next.map Data.id).toFinset).card := ih hrest
      _ = (insert (lwm2mListNewId l.ids)
            (l.ids.toFinset ∪ (next.map Data.id).toFinset)).card := by
          rw [hids, Finset.insert_union]
      _ ≤ (l.ids.toFinset ∪ (next.map Data.id).toFinset).card + 1 := Finset.card_insert_le _ _
      _ = (l.ids.toFinset ∪ ((dataP :: next).map Data.id).toFinset).card := by
          rw [List.map_cons, List.toFinset_cons, Finset.union_insert,
            Finset.card_insert_of_notMem hfresh]
  | @write l l₁ l' dataP next hold hset hnext ih =>
    obtain ⟨-, hrest⟩ := List.nodup_cons.mp hdistinct
    refine (ih hrest).trans (Finset.card_le_card ?_)
    rw [ids_of_replace hset, List.map_cons, List.toFinset_cons]
    exact Finset.union_subset_union_right (Finset.subset_insert _ _)

/-- The condition depends on which identifiers are used, not on their order. -/
theorem lowestFree_congr {used used' : List UInt16} (h : ∀ id, id ∈ used ↔ id ∈ used') :
    LowestFree used items ↔ LowestFree used' items := by
  induction items generalizing used used' with
  | nil => exact Iff.rfl
  | cons dataP next ih =>
    have hcons : ∀ id, id ∈ dataP.id :: used ↔ id ∈ dataP.id :: used' := fun id => by
      rw [List.mem_cons, List.mem_cons, h]
    unfold LowestFree
    rw [ih hcons]
    simp only [h]

/-- **The lowest free identifiers** are those of the payload where they have to be, if each of
its identifiers is used in the end. -/
theorem Puts.lowestFree (h : Puts l items l') (hdistinct : (items.map Data.id).Nodup)
    (hall : ∀ dataP ∈ items, dataP.id ∈ l'.ids) : LowestFree l.ids items := by
  induction h with
  | done l => trivial
  | @create l l₁ l' dataP next hnew hadd hnext ih =>
    obtain ⟨hnotin, hrest⟩ := List.nodup_cons.mp hdistinct
    obtain ⟨hhere, hlater⟩ := List.forall_mem_cons.mp hall
    obtain ⟨hfree, hiff⟩ := lwm2mListNewId_spec l.ids_sorted hnew
    by_cases heq : lwm2mListNewId l.ids = dataP.id
    · refine ⟨fun _ => hiff.mp heq, ?_⟩
      refine (lowestFree_congr fun id => ?_).mp (ih hrest hlater)
      rw [mem_ids_of_add hadd, List.mem_cons, heq]
    · -- one instance too few is made for the identifiers that are used in the end
      exfalso
      have hfresh : dataP.id ∉ l₁.ids.toFinset ∪ (next.map Data.id).toFinset := by
        rw [Finset.mem_union, List.mem_toFinset, List.mem_toFinset, mem_ids_of_add hadd, not_or,
          not_or]
        exact ⟨⟨Ne.symm heq, hnew⟩, hnotin⟩
      have hsub : insert dataP.id (l₁.ids.toFinset ∪ (next.map Data.id).toFinset) ⊆
          l'.ids.toFinset := by
        intro id hid
        rw [List.mem_toFinset]
        rcases Finset.mem_insert.mp hid with rfl | hid
        · exact hhere
        · rcases Finset.mem_union.mp hid with hid | hid
          · exact hnext.ids_subset (List.mem_toFinset.mp hid)
          · obtain ⟨later, hmem, rfl⟩ := List.mem_map.mp (List.mem_toFinset.mp hid)
            exact hlater later hmem
      have hcard := Finset.card_le_card hsub
      rw [Finset.card_insert_of_notMem hfresh] at hcard
      have hle := hnext.card_le hrest
      omega
  | @write l l₁ l' dataP next hold hset hnext ih =>
    obtain ⟨-, hrest⟩ := List.nodup_cons.mp hdistinct
    obtain ⟨-, hlater⟩ := List.forall_mem_cons.mp hall
    refine ⟨fun hnew => absurd hold hnew, ?_⟩
    refine (lowestFree_congr fun id => ?_).mp (ih hrest hlater)
    rw [ids_of_replace hset, List.mem_cons]
    constructor
    · exact .inr
    · rintro (rfl | hid)
      · exact hold
      · exact hid

/-- **What is installed** where each new identifier is the lowest free one. -/
theorem Puts.installed (h : Puts l items l') (hdistinct : (items.map Data.id).Nodup)
    (hfree : LowestFree l.ids items) :
    (∀ dataP ∈ items, ⟨dataP.id, dataP.children⟩ ∈ l'.nodes) ∧
      ∀ node ∈ l'.nodes, node.id ∈ l.ids ∨ node.id ∈ items.map Data.id := by
  induction h with
  | done l =>
    exact ⟨fun _ h => absurd h List.not_mem_nil, fun node hnode => .inl (List.mem_map_of_mem hnode)⟩
  | @create l l₁ l' dataP next hnew hadd hnext ih =>
    obtain ⟨hnotin, hrest⟩ := List.nodup_cons.mp hdistinct
    obtain ⟨hlowest, hfree⟩ := hfree
    have heq : lwm2mListNewId l.ids = dataP.id :=
      (lwm2mListNewId_spec l.ids_sorted hnew).2.mpr (hlowest hnew)
    rw [heq] at hadd
    have hused : LowestFree l₁.ids next := by
      refine (lowestFree_congr fun id => ?_).mp hfree
      rw [mem_ids_of_add hadd, List.mem_cons]
    obtain ⟨hitems, hnodes⟩ := ih hrest hused
    refine ⟨List.forall_mem_cons.mpr ⟨?_, hitems⟩, fun node hnode => ?_⟩
    · refine hnext.mem_of_notMem ?_ fun later hlater hid => hnotin ?_
      · rw [hadd]
        exact mem_listAdd.mpr (.inl rfl)
      · exact List.mem_map.mpr ⟨later, hlater, hid⟩
    · rw [List.map_cons, List.mem_cons]
      rcases hnodes node hnode with hid | hid
      · rcases (mem_ids_of_add hadd).mp hid with hid | hid
        · exact .inr (.inl hid)
        · exact .inl hid
      · exact .inr (.inr hid)
  | @write l l₁ l' dataP next hold hset hnext ih =>
    obtain ⟨hnotin, hrest⟩ := List.nodup_cons.mp hdistinct
    have hused : LowestFree l₁.ids next := by
      refine (lowestFree_congr fun id => ?_).mp hfree.2
      rw [ids_of_replace hset, List.mem_cons]
      constructor
      · rintro (rfl | hid)
        · exact hold
        · exact hid
      · exact .inr
    obtain ⟨hitems, hnodes⟩ := ih hrest hused
    refine ⟨List.forall_mem_cons.mpr ⟨?_, hitems⟩, fun node hnode => ?_⟩
    · refine hnext.mem_of_notMem ?_ fun later hlater hid => hnotin ?_
      · rw [hset]
        exact mem_replaceResources_self hold
      · exact List.mem_map.mpr ⟨later, hlater, hid⟩
    · rw [List.map_cons, List.mem_cons]
      rcases hnodes node hnode with hid | hid
      · exact .inl (ids_of_replace hset ▸ hid)
      · exact .inr (.inr hid)

end Nodes

/-! ### The callbacks -/

section Callbacks

variable {targetP targetP' : Lwm2mObject} {id : UInt16} {dataArray : List Data} {code : Code}

/-- An object with the same callbacks obeys as well. -/
theorem Lwm2mObject.Obeys.of_callbacks (h : targetP.Obeys)
    (hwrite : targetP'.writeFunc = targetP.writeFunc)
    (hcreate : targetP'.createFunc = targetP.createFunc) : targetP'.Obeys :=
  ⟨fun hfunc => h.create (hcreate ▸ hfunc), fun hfunc => h.write (hwrite ▸ hfunc)⟩

/-- A call of the create callback that succeeds. -/
theorem callCreate_spec (hobeys : targetP.Obeys)
    (h : callCreate targetP id dataArray = (targetP', code))
    (hcode : code = coap201Created ∨ code = coap204Changed)
    (hnew : id ∉ targetP.instanceList.ids) :
    targetP'.Obeys ∧ targetP'.instanceList.nodes =
      listAdd Instance.id ⟨id, dataArray⟩ targetP.instanceList.nodes := by
  unfold callCreate at h
  rcases hfunc : targetP.createFunc with _ | createFunc
  · rw [hfunc] at h
    cases h
    rcases hcode with hcode | hcode <;> exact absurd hcode (by decide)
  · rw [hfunc] at h
    cases h
    exact ⟨hobeys.of_callbacks rfl hfunc.symm, hobeys.create hfunc rfl hcode hnew⟩

/-- A call of the write callback that succeeds. -/
theorem callWrite_spec (hobeys : targetP.Obeys) {writeType : WriteType}
    (h : callWrite targetP id dataArray writeType = (targetP', coap204Changed)) :
    targetP'.Obeys ∧ id ∈ targetP.instanceList.ids ∧ ∃ resources,
      targetP'.instanceList.nodes = replaceResources targetP.instanceList.nodes id resources ∧
        (writeType = .replaceInstance → resources = dataArray) := by
  unfold callWrite at h
  rcases hfunc : targetP.writeFunc with _ | writeFunc
  · rw [hfunc] at h
    exact absurd (Prod.mk.inj h).2 (by decide)
  · rw [hfunc] at h
    obtain ⟨rfl, hcode⟩ := Prod.mk.inj h
    exact ⟨hobeys.of_callbacks hfunc.symm rfl, hobeys.write hfunc (Prod.ext rfl hcode)⟩

variable {item : BootstrapItem} {buffer : List Byte}

/-- The result for an instance is a success only if the callback answered with one. -/
theorem code_of_result (h : item.result = coap204Changed) :
    item.code = coap201Created ∨ item.code = coap204Changed := by
  unfold BootstrapItem.result at h
  by_cases hcreated : item.code = coap201Created
  · exact .inl hcreated
  · rw [if_neg fun h => hcreated h.2] at h
    exact .inr h

theorem code_of_result_old (hold : item.isNew = false) (h : item.result = coap204Changed) :
    item.code = coap204Changed := by
  unfold BootstrapItem.result at h
  rwa [if_neg fun hnew => Bool.false_ne_true (hold ▸ hnew.1)] at h

/-- The result 2.04 of the loop is the result of each of its instances. -/
theorem result_of_writeItems {objectId : UInt16} {result : Code} {items : List BootstrapItem}
    (h : (writeItems contextP objectId result items).2 = coap204Changed) :
    ∀ item ∈ items, item.isObjectInstance = true → item.result = coap204Changed := by
  induction items generalizing contextP result with
  | nil => exact fun _ h => absurd h List.not_mem_nil
  | cons item next ih =>
    unfold writeItems at h
    by_cases hinstance : item.isObjectInstance = true
    · rw [if_pos hinstance] at h
      by_cases hresult : item.result ≠ coap204Changed
      · rw [← BootstrapItem.result, if_pos hresult] at h
        exact absurd h hresult
      · rw [← BootstrapItem.result, if_neg hresult] at h
        exact List.forall_mem_cons.mpr ⟨fun _ => not_not.mp hresult, ih h⟩
    · rw [if_neg hinstance] at h
      exact List.forall_mem_cons.mpr ⟨fun h => absurd h hinstance, ih h⟩

/-- **The loop of an object-level write**, when each of its instances succeeds. -/
theorem putItems_puts {items : List Data} {entries : List BootstrapItem} (hobeys : targetP.Obeys)
    (h : putItems targetP items = (targetP', entries))
    (hall : ∀ item ∈ entries, item.isObjectInstance = true → item.result = coap204Changed) :
    Puts targetP.instanceList (instanceItems items) targetP'.instanceList := by
  induction items generalizing targetP entries with
  | nil =>
    cases h
    exact .done _
  | cons dataP next ih =>
    unfold putItems at h
    by_cases htype : dataP.type = .objectInstance
    · have hitems : instanceItems (dataP :: next) = dataP :: instanceItems next :=
        List.filter_cons_of_pos (by simpa using htype)
      rw [if_pos htype] at h
      rw [hitems]
      rcases hcall : (if objectIsInstanceNew targetP dataP.id = true then
        objectCreateInstance targetP dataP else objectWriteInstance targetP dataP) with
        ⟨target₁, code⟩
      dsimp only at h
      rw [hcall] at h
      set item : BootstrapItem := ⟨dataP.id, true, objectIsInstanceNew targetP dataP.id, code⟩
        with hitem
      rcases hrest : putItems target₁ next with ⟨target₂, entries'⟩
      rw [hrest] at h
      by_cases hresult : item.result ≠ coap204Changed
      · rw [if_pos hresult] at h
        cases h
        exact absurd (hall item List.mem_cons_self rfl) hresult
      rw [if_neg hresult] at h
      cases h
      have hnext := (List.forall_mem_cons.mp hall).2
      by_cases hnew : objectIsInstanceNew targetP dataP.id = true
      · rw [if_pos hnew] at hcall
        have hnotin := objectIsInstanceNew_iff.mp hnew
        have hfree := (lwm2mListNewId_spec targetP.instanceList.ids_sorted hnotin).1
        have hcode := code_of_result (not_not.mp hresult)
        obtain ⟨hobeys', hadd⟩ := callCreate_spec hobeys hcall hcode hfree
        exact .create hnotin hadd (ih hobeys' hrest hnext)
      · rw [if_neg hnew] at hcall
        have hcode : code = coap204Changed :=
          code_of_result_old (Bool.not_eq_true _ ▸ hnew) (not_not.mp hresult)
        obtain ⟨hobeys', hold, resources, hset, hresources⟩ :=
          callWrite_spec hobeys (hcode ▸ hcall)
        rw [hresources rfl] at hset
        exact .write hold hset (ih hobeys' hrest hnext)
    · have hitems : instanceItems (dataP :: next) = instanceItems next :=
        List.filter_cons_of_neg (by simpa using htype)
      rw [if_neg htype] at h
      rw [hitems]
      rcases hrest : putItems targetP next with ⟨target₁, entries'⟩
      rw [hrest] at h
      cases h
      exact ih hobeys hrest (List.forall_mem_cons.mp hall).2

variable {uriP : Uri} {parsed : Option (List Data)}

/-- **An `object_create` that succeeds** called the callback: for a decoded instance that is new,
or for the instance of the URI. -/
theorem objectCreate_cases (hset : uriP.isSetInstance)
    (h : objectCreate targetP uriP buffer parsed = (targetP', code))
    (hcode : code = coap201Created ∨ code = coap204Changed) :
    ∃ dataP next, parsed.getD [] = dataP :: next ∧
      ((dataP.type = .objectInstance ∧ dataP.id ∉ targetP.instanceList.ids ∧
          callCreate targetP dataP.id dataP.children = (targetP', code)) ∨
        (dataP.type ≠ .objectInstance ∧
          callCreate targetP uriP.instanceId (dataP :: next) = (targetP', code))) := by
  have hfailed {r : Code} (hr : r ≠ coap201Created ∧ r ≠ coap204Changed)
      (h : (targetP, r) = (targetP', code)) : False := by
    obtain ⟨-, rfl⟩ := Prod.mk.inj h
    exact hcode.elim hr.1 hr.2
  unfold objectCreate at h
  by_cases hempty : buffer.length = 0
  · rw [if_pos hempty] at h
    exact absurd h (hfailed (by decide))
  by_cases hfunc : targetP.createFunc.isNone = true
  · rw [if_neg hempty, if_pos hfunc] at h
    exact absurd h (hfailed (by decide))
  rw [if_neg hempty, if_neg hfunc] at h
  rcases hparsed : parsed.getD [] with _ | ⟨dataP, next⟩
  · rw [hparsed] at h
    exact absurd h (hfailed (by decide))
  · rw [hparsed] at h
    dsimp only at h
    refine ⟨dataP, next, rfl, ?_⟩
    split at h
    · exact absurd h (hfailed (by decide))
    · rename_i htype
      by_cases hnext : next ≠ []
      · rw [if_pos hnext] at h
        exact absurd h (hfailed (by decide))
      by_cases hnew : objectIsInstanceNew targetP dataP.id = true
      · rw [if_neg hnext, if_neg (not_not.mpr hnew)] at h
        exact .inl ⟨htype, objectIsInstanceNew_iff.mp hnew, h⟩
      · rw [if_neg hnext, if_pos hnew] at h
        exact absurd h (hfailed (by decide))
    · rename_i _ htype
      rw [if_pos hset] at h
      exact .inr ⟨htype, h⟩

/-- **An `object_write` that succeeds** called the callback for the instance of the URI. -/
theorem objectWrite_cases
    (h : objectWrite targetP uriP parsed = (targetP', coap204Changed)) :
    ∃ dataArray writeType,
      callWrite targetP uriP.instanceId dataArray writeType = (targetP', coap204Changed) := by
  have hfailed {r : Code} (hr : r ≠ coap204Changed)
      (h : (targetP, r) = (targetP', coap204Changed)) : False := hr (Prod.mk.inj h).2
  unfold objectWrite at h
  by_cases hobject : ¬ uriP.isSetObject
  · rw [if_pos hobject] at h
    exact absurd h (hfailed (by decide))
  by_cases hinstance : ¬ uriP.isSetInstance
  · rw [if_neg hobject, if_pos hinstance] at h
    exact absurd h (hfailed (by decide))
  by_cases hfunc : targetP.writeFunc.isNone = true
  · rw [if_neg hobject, if_neg hinstance, if_pos hfunc] at h
    exact absurd h (hfailed (by decide))
  rw [if_neg hobject, if_neg hinstance, if_neg hfunc] at h
  rcases hparsed : parsed.getD [] with _ | ⟨dataP, next⟩
  · rw [hparsed] at h
    exact absurd h (hfailed (by decide))
  · rw [hparsed] at h
    split_ifs at h
    · exact ⟨_, _, h⟩
    · exact ⟨_, _, h⟩
    · exact ⟨_, _, h⟩

/-- An instance-level write that succeeds touches the instance of the URI only, exactly when its
payload does not name another one. -/
theorem onlyInstance_iff (hobeys : targetP.Obeys) (hset : uriP.isSetInstance)
    (h : (if objectIsInstanceNew targetP uriP.instanceId = true then
      objectCreate targetP uriP buffer parsed else objectWrite targetP uriP parsed) =
        (targetP', code))
    (hcode : code = coap204Changed ∨
      (objectIsInstanceNew targetP uriP.instanceId = true ∧ code = coap201Created)) :
    OnlyInstance uriP.instanceId targetP.instanceList.nodes targetP'.instanceList.nodes ↔
      NamesInstance targetP.instanceList uriP.instanceId parsed := by
  have hadded {id : UInt16} {resources : List Data} (hnew : id ∉ targetP.instanceList.ids)
      (hadd : targetP'.instanceList.nodes =
        listAdd Instance.id ⟨id, resources⟩ targetP.instanceList.nodes) :
      OnlyInstance uriP.instanceId targetP.instanceList.nodes targetP'.instanceList.nodes ↔
        id = uriP.instanceId := by
    constructor
    · intro honly
      by_contra hne
      have hmem := (honly ⟨id, resources⟩ hne).mp (hadd ▸ mem_listAdd.mpr (.inl rfl))
      exact hnew (List.mem_map.mpr ⟨_, hmem, rfl⟩)
    · intro hid node hne
      have hother : node ≠ ⟨id, resources⟩ := by
        rintro rfl
        exact hne hid
      rw [hadd, mem_listAdd, or_iff_right hother]
  by_cases hisNew : objectIsInstanceNew targetP uriP.instanceId = true
  · rw [if_pos hisNew] at h
    have hnew := objectIsInstanceNew_iff.mp hisNew
    have hcreated : code = coap201Created ∨ code = coap204Changed :=
      hcode.elim .inr fun h => .inl h.2
    obtain ⟨dataP, next, hparsed, ⟨htype, hfree, hcall⟩ | ⟨htype, hcall⟩⟩ :=
      objectCreate_cases hset h hcreated
    · obtain ⟨-, hadd⟩ := callCreate_spec hobeys hcall hcreated hfree
      rw [hadded hfree hadd]
      unfold NamesInstance
      rw [hparsed, List.head?_cons]
      exact ⟨fun heq _ x hx _ => Option.mem_some.mp hx ▸ heq, fun h => h hnew _ rfl htype⟩
    · obtain ⟨-, hadd⟩ := callCreate_spec hobeys hcall hcreated hnew
      refine iff_of_true ((hadded hnew hadd).mpr rfl) fun _ x hx hx' => ?_
      rw [hparsed, List.head?_cons] at hx
      exact absurd (Option.mem_some.mp hx ▸ hx') htype
  · rw [if_neg hisNew] at h
    have hold : uriP.instanceId ∈ targetP.instanceList.ids :=
      not_not.mp fun hnew => hisNew (objectIsInstanceNew_iff.mpr hnew)
    obtain rfl : code = coap204Changed := hcode.elim (fun h => h) fun h => absurd h.1 hisNew
    obtain ⟨dataArray, writeType, hcall⟩ := objectWrite_cases h
    obtain ⟨-, -, resources, hset, -⟩ := callWrite_spec hobeys hcall
    refine iff_of_true (fun node hne => ?_) fun hnew => absurd hold hnew
    rw [hset, mem_replaceResources_of_ne hne]

end Callbacks

/-! ### The command -/

/-- A PUT that is answered 2.04 was carried out. -/
theorem bootstrapWrite_of_changed {uriP : Uri} {serverP : Server} {message response : Packet}
    {outcome : BootstrapOutcome} (hput : message.code = 3)
    (h : (bootstrapHandleCommand contextP uriP serverP message response outcome).2.2 =
      coap204Changed) :
    ∃ contextP', (bootstrapWrite contextP' uriP message outcome).2 = coap204Changed := by
  have hignored : coapIgnore ≠ coap204Changed := by decide
  unfold bootstrapHandleCommand at h
  split at h
  · exact absurd h hignored
  · rename_i status _
    refine ⟨setBootstrapServer contextP serverP.ref ({ · with status }), ?_⟩
    dsimp only at h
    rw [if_pos hput] at h
    split_ifs at h <;> exact h

/-- An object without instances whose callbacks always succeed. -/
def emptyObject : Lwm2mObject where
  instanceList := ⟨[], .nil⟩
  writeFunc := none
  createFunc := some fun id dataArray l =>
    if h : id ∉ l.ids then
      (⟨listAdd Instance.id ⟨id, dataArray⟩ l.nodes, listAdd_pairwise l.sorted fun x hx heq =>
        h (List.mem_map.mpr ⟨x, hx, heq⟩)⟩, coap201Created)
    else (l, coap500InternalServerError)

theorem emptyObject_obeys : emptyObject.Obeys := by
  refine ⟨fun hfunc id dataArray l l' code h _ hnew => ?_, fun hfunc => by cases hfunc⟩
  cases hfunc
  dsimp only at h
  rw [dif_pos hnew] at h
  cases h
  rfl

/-- A bootstrap server. -/
def bootstrapServer : Server := { ref := 0, secObjInstID := 0, shortID := 0, status := .bsPending }

/-- A write to the object 3. -/
def objectWriteMessage : Packet := (coapInitMessage .con 3 7).coapSetPayload [0]

/-- The payload with one instance. -/
def oneInstance (id : UInt16) : List Data := [.mk id .objectInstance [] []]

end Lwm2m.Core

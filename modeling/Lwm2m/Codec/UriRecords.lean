/-
# Which records a parse for a URI misreads

The walks of `senml_json_parse` and `json_parse` go wrong on some trees.  Here the trees are those
that the records of a payload build, and the trees that are misread are told by the names and the
order of the records (`Payload.parse_descends_iff`).
-/

import Lwm2m.Codec.UriDescent
import Mathlib.Data.Fin.VecNotation

namespace Lwm2m.Codec

open Core Library

/-! ### When the parse goes wrong -/

/-- The record names the resource of the URI, or an instance of it. -/
def SenmlRecord.NamesResource (uri : Uri) (record : SenmlRecord) : Prop :=
  record.name.objectId = uri.objectId ∧ record.name.instanceId = uri.instanceId ∧
    record.name.resourceId = uri.resourceId

instance (uri : Uri) (record : SenmlRecord) : Decidable (record.NamesResource uri) :=
  inferInstanceAs (Decidable (_ ∧ _))

/-- The first record names the object of the URI and no record is a value of the
object itself; and a record is a value of the requested instance, or the requested resource
instance has the number of its resource and the resource ends as a value. -/
def SenmlMisread (uri : Uri) (records : List SenmlRecord) : Prop :=
  uri.isSetInstance ∧ (∃ record ∈ records.head?, record.name.objectId = uri.objectId) ∧
    (∀ record ∈ records, record.name.objectId = uri.objectId → record.name.isSetInstance) ∧
    ((∃ record ∈ records, record.name.objectId = uri.objectId ∧
        record.name.instanceId = uri.instanceId ∧ ¬ record.name.isSetResource) ∨
      uri.isSetResource ∧ uri.resourceInstanceId = uri.resourceId ∧
        EndsAsValue ((records.filter (·.NamesResource uri)).map (·.entry)))

/-- The identifiers of a record behind those of the base URI. -/
def JsonRecord.path (base : Option NestedUri) (record : JsonRecord) : List UInt16 :=
  (baseSegments base).map (·.1) ++ [record.idAt 0, record.idAt 1, record.idAt 2, record.idAt 3]

/-- A resource instance is requested, the first record belongs to the requested object, and
some record belongs to the requested resource. -/
def JsonMisread (uri : Uri) (base : Option NestedUri) (records : List JsonRecord) : Prop :=
  uri.isSetResourceInstance ∧
    (∃ record ∈ records.head?, [uri.objectId] <+: record.path base) ∧
    ∃ record ∈ records, [uri.objectId, uri.instanceId, uri.resourceId] <+: record.path base

/-- The records that one of the two walks misreads for the URI. -/
def Payload.Misread (uriP : Option NestedUri) (payload : Payload) : Prop :=
  ∃ uri ∈ uriP, match payload with
    | senml records => SenmlMisread uri.toUri records
    | json bn records => JsonMisread uri.toUri (jsonBase uriP bn) records

/-! ### SenML JSON -/

variable {o i : UInt16} {e : Entry} {uriP : Option NestedUri}

section SenmlRecords

variable {records : List SenmlRecord} {tree : List Node} {root : Node} {uri : NestedUri}

namespace SenmlRecord

variable {record : SenmlRecord}

theorem entry_segments_ne_nil : record.entry.segments ≠ [] := by simp [entry]

/-- What is seen of a record from its resource. -/
theorem under_resource (hres : uri.isSetResource) :
    ((record.entry.under uri.objectId).bind (Entry.under uri.instanceId)).bind
        (Entry.under uri.resourceId) =
      if record.NamesResource uri.toUri then some { record.entry with segments := [] }
      else none := by
  by_cases hnames : record.NamesResource uri.toUri
  · obtain ⟨ho, hi, hr⟩ := id hnames
    have hres' : record.name.isSetResource := by rwa [Uri.isSetResource, hr]
    have hinst' : record.name.isSetInstance := record.name.instance_of_resource hres'
    simp [hnames, entry, hres', hinst', Entry.under, ho, hi, hr]
  · rw [if_neg hnames]
    -- the path of the record is cut short, or it leaves the path of the URI at one of the levels
    by_cases hinst : record.name.isSetInstance <;> by_cases hres' : record.name.isSetResource <;>
      by_cases ho : record.name.objectId = uri.objectId <;>
      by_cases hi : record.name.instanceId = uri.instanceId <;>
      simp_all [NamesResource, entry, Entry.under]

/-- The record seen from its instance. -/
def belowInstance (record : SenmlRecord) : Entry :=
  { record.entry with
    segments := if record.name.isSetResource then [(record.name.resourceId, .undefined)] else [] }

/-- The record seen from its object. -/
def belowObject (record : SenmlRecord) : Entry :=
  { record.entry with
    segments := if record.name.isSetInstance then
      (record.name.instanceId, .objectInstance) :: record.belowInstance.segments else [] }

theorem resourceInstance_of_belowInstance (h : record.belowInstance.segments = []) :
    record.belowInstance.resourceInstance = none := by
  have hres : ¬ record.name.isSetResource := fun hres => by simp [belowInstance, hres] at h
  exact if_neg (mt record.name.resource_of_resourceInstance hres)

theorem resourceInstance_of_belowObject (h : record.belowObject.segments = []) :
    record.belowObject.resourceInstance = none := by
  have hinst : ¬ record.name.isSetInstance := fun hinst => by simp [belowObject, hinst] at h
  have hres := mt record.name.instance_of_resource hinst
  exact if_neg (mt record.name.resource_of_resourceInstance hres)

end SenmlRecord

theorem mem_under_object :
    e ∈ (records.map (·.entry)).filterMap (Entry.under o) ↔
      ∃ record ∈ records, record.name.objectId = o ∧ e = record.belowObject := by
  rw [mem_filterMap_under]
  constructor
  · rintro ⟨t, he⟩
    obtain ⟨record, hrecord, he⟩ := List.mem_map.mp he
    refine ⟨record, hrecord, ?_⟩
    simp only [SenmlRecord.entry, Entry.mk.injEq, List.cons.injEq, Prod.mk.injEq] at he
    obtain ⟨⟨⟨ho, -⟩, hsegments⟩, hinstance, hvalue⟩ := he
    refine ⟨ho, ?_⟩
    rcases e with ⟨_, _, _⟩
    cases hsegments
    cases hinstance
    cases hvalue
    rfl
  · rintro ⟨record, hrecord, rfl, rfl⟩
    exact ⟨.object, List.mem_map.mpr ⟨record, hrecord, rfl⟩⟩

theorem mem_under_instance :
    e ∈ ((records.map (·.entry)).filterMap (Entry.under o)).filterMap (Entry.under i) ↔
      ∃ record ∈ records, record.name.objectId = o ∧ record.name.isSetInstance ∧
        record.name.instanceId = i ∧ e = record.belowInstance := by
  rw [mem_filterMap_under]
  constructor
  · rintro ⟨t, he⟩
    obtain ⟨record, hrecord, ho, he⟩ := mem_under_object.mp he
    refine ⟨record, hrecord, ho, ?_⟩
    simp only [SenmlRecord.belowObject, Entry.mk.injEq] at he
    obtain ⟨hsegments, hinstance, hvalue⟩ := he
    split_ifs at hsegments with hinst
    simp only [List.cons.injEq, Prod.mk.injEq] at hsegments
    obtain ⟨⟨hi, -⟩, hsegments⟩ := hsegments
    refine ⟨hinst, hi.symm, ?_⟩
    rcases e with ⟨_, _, _⟩
    cases hsegments
    cases hinstance
    cases hvalue
    rfl
  · rintro ⟨record, hrecord, ho, hinst, rfl, rfl⟩
    refine ⟨.objectInstance, mem_under_object.mpr ⟨record, hrecord, ho, ?_⟩⟩
    simp [SenmlRecord.belowObject, SenmlRecord.belowInstance, hinst]

theorem filterMap_under_resource (records : List SenmlRecord) (hres : uri.isSetResource) :
    (((records.map (·.entry)).filterMap (Entry.under uri.objectId)).filterMap
        (Entry.under uri.instanceId)).filterMap (Entry.under uri.resourceId) =
      (records.filter (·.NamesResource uri.toUri)).map fun record =>
        { record.entry with segments := [] } := by
  rw [List.filterMap_filterMap, List.filterMap_filterMap, List.filterMap_map]
  induction records with
  | nil => rfl
  | cons record records ih =>
    have hrecord := record.under_resource hres
    rw [List.filterMap_cons, ih, List.filter_cons]
    simp only [Function.comp_apply, Option.bind_assoc] at hrecord ⊢
    rw [hrecord]
    split_ifs <;> simp_all

/-- The value at the end depends on what the entries put there only. -/
theorem endsAsValue_map_congr {α : Type*} {l : List α} {f g : α → Entry}
    (h : ∀ x, (f x).resourceInstance = (g x).resourceInstance ∧ (f x).value = (g x).value) :
    EndsAsValue (l.map f) ↔ EndsAsValue (l.map g) := by
  simp only [EndsAsValue, List.mem_map, exists_exists_and_eq_and, List.getLast?_map,
    Option.mem_def, Option.map_eq_some_iff, h]

theorem endsAsValue_nil : ¬ EndsAsValue [] := by simp [EndsAsValue]

variable {n parent : Node}

/-- The value at a resource, in terms of the records, when no value is put at its instance. -/
theorem valueAtResource_iff
    (hentries : ∀ e ∈ ((records.map (·.entry)).filterMap (Entry.under uri.objectId)).filterMap
      (Entry.under uri.instanceId), e.segments ≠ [])
    (h : placeAll (((records.map (·.entry)).filterMap (Entry.under uri.objectId)).filterMap
      (Entry.under uri.instanceId)) (.new uri.instanceId .objectInstance) = .ok n) :
    ValueAtResource uri.toUri n ↔ uri.isSetResource ∧ uri.resourceInstanceId = uri.resourceId ∧
      EndsAsValue ((records.filter (·.NamesResource uri.toUri)).map (·.entry)) := by
  refine and_congr_right fun hres => and_congr_right fun _ => ?_
  have hbelow : ∀ e ∈ (((records.map (·.entry)).filterMap (Entry.under uri.objectId)).filterMap
      (Entry.under uri.instanceId)).filterMap (Entry.under uri.resourceId), e.segments = [] := by
    rw [filterMap_under_resource records hres]
    intro e he
    obtain ⟨record, -, rfl⟩ := List.mem_map.mp he
    rfl
  have hends : EndsAsValue ((records.filter (·.NamesResource uri.toUri)).map (·.entry)) ↔
      EndsAsValue ((((records.map (·.entry)).filterMap (Entry.under uri.objectId)).filterMap
        (Entry.under uri.instanceId)).filterMap (Entry.under uri.resourceId)) := by
    rw [filterMap_under_resource records hres]
    exact endsAsValue_map_congr fun _ => ⟨rfl, rfl⟩
  rw [hends]
  cases hfind : n.child uri.resourceId with
  | none =>
    have hnil := (child_isSome_iff hentries h uri.resourceId).not.mp (by simp [hfind])
    rw [not_not.mp hnil]
    simp [endsAsValue_nil]
  | some r =>
    simpa using (type_resource_iff hentries h hbelow hfind).not_left

theorem entry_segments_ne_nil : ∀ e ∈ records.map (·.entry), e.segments ≠ [] := by
  intro e he
  obtain ⟨record, -, rfl⟩ := List.mem_map.mp he
  exact record.entry_segments_ne_nil

/-- The first root of the requested object: a value is put at it, or it is the object. -/
theorem object_cases (h : placeAll (records.map (·.entry)) (.new 0 .undefined) = .ok parent)
    (htree : root ∈ parent.children.head?) (hid : root.id = uri.objectId) :
    (∃ record ∈ records, record.name.objectId = uri.objectId ∧ ¬ record.name.isSetInstance) ∧
        ¬ isContainer root.type ∨
      (∀ record ∈ records, record.name.objectId = uri.objectId → record.name.isSetInstance) ∧
        (∀ e ∈ (records.map (·.entry)).filterMap (Entry.under uri.objectId), e.segments ≠ []) ∧
        root.type = .object ∧
        placeAll ((records.map (·.entry)).filterMap (Entry.under uri.objectId))
          (.new uri.objectId .object) = .ok root := by
  have hchild : parent.child uri.objectId = some root := by
    obtain ⟨rest, hrest⟩ := List.head?_eq_some_iff.mp htree
    simp [Node.child, hrest, hid]
  have htype : ∀ e : Entry, ∀ t', { e with segments := (uri.objectId, t') :: e.segments } ∈
      records.map (·.entry) → t' = .object := by
    intro e t' he
    obtain ⟨record, -, hentry⟩ := List.mem_map.mp he
    simp only [SenmlRecord.entry, Entry.mk.injEq, List.cons.injEq, Prod.mk.injEq] at hentry
    exact hentry.1.1.2.symm
  have hinstance : ∀ e ∈ (records.map (·.entry)).filterMap (Entry.under uri.objectId),
      e.segments = [] → e.resourceInstance = none := by
    intro e he hnil
    obtain ⟨record, -, -, rfl⟩ := mem_under_object.mp he
    exact record.resourceInstance_of_belowObject hnil
  rcases child_cases entry_segments_ne_nil h (by simp [isContainer]) htype hinstance hchild with
    ⟨⟨e, he, hnil⟩, hcontainer⟩ | ⟨hobject, hplaced⟩
  · obtain ⟨record, hrecord, ho, rfl⟩ := mem_under_object.mp he
    refine .inl ⟨⟨record, hrecord, ho, fun hinst => ?_⟩, hcontainer⟩
    simp [SenmlRecord.belowObject, hinst] at hnil
  · refine .inr ⟨fun record hrecord ho => ?_, hobject, hplaced⟩
    by_contra hinst
    exact hobject _ (mem_under_object.mpr ⟨record, hrecord, ho, rfl⟩)
      (by simp [SenmlRecord.belowObject, hinst])

/-- The first instance with the requested identifier: a value is put at it, or it is the
instance. -/
theorem instance_cases
    (hall : ∀ record ∈ records, record.name.objectId = uri.objectId → record.name.isSetInstance)
    (hobject : ∀ e ∈ (records.map (·.entry)).filterMap (Entry.under uri.objectId), e.segments ≠ [])
    (hroot : placeAll ((records.map (·.entry)).filterMap (Entry.under uri.objectId))
      (.new uri.objectId .object) = .ok root) (hchild : root.child uri.instanceId = some n) :
    (∃ record ∈ records, record.name.objectId = uri.objectId ∧
        record.name.instanceId = uri.instanceId ∧ ¬ record.name.isSetResource) ∧
        ¬ isContainer n.type ∨
      (¬ ∃ record ∈ records, record.name.objectId = uri.objectId ∧
        record.name.instanceId = uri.instanceId ∧ ¬ record.name.isSetResource) ∧
        (∀ e ∈ ((records.map (·.entry)).filterMap (Entry.under uri.objectId)).filterMap
          (Entry.under uri.instanceId), e.segments ≠ []) ∧
        n.type = .objectInstance ∧
        placeAll (((records.map (·.entry)).filterMap (Entry.under uri.objectId)).filterMap
          (Entry.under uri.instanceId)) (.new uri.instanceId .objectInstance) = .ok n := by
  have htype : ∀ e : Entry, ∀ t', { e with segments := (uri.instanceId, t') :: e.segments } ∈
      (records.map (·.entry)).filterMap (Entry.under uri.objectId) → t' = .objectInstance := by
    intro e t' he
    obtain ⟨record, hrecord, ho, hentry⟩ := mem_under_object.mp he
    simp only [SenmlRecord.belowObject, Entry.mk.injEq, hall record hrecord ho, if_true,
      List.cons.injEq, Prod.mk.injEq] at hentry
    exact hentry.1.1.2
  have hinstance : ∀ e ∈ ((records.map (·.entry)).filterMap (Entry.under uri.objectId)).filterMap
      (Entry.under uri.instanceId), e.segments = [] → e.resourceInstance = none := by
    intro e he hnil
    obtain ⟨record, -, -, -, -, rfl⟩ := mem_under_instance.mp he
    exact record.resourceInstance_of_belowInstance hnil
  rcases child_cases hobject hroot (by simp [isContainer]) htype hinstance hchild with
    ⟨⟨e, he, hnil⟩, hcontainer⟩ | ⟨hbelow, hplaced⟩
  · obtain ⟨record, hrecord, ho, -, hi, rfl⟩ := mem_under_instance.mp he
    refine .inl ⟨⟨record, hrecord, ho, hi, fun hres => ?_⟩, hcontainer⟩
    simp [SenmlRecord.belowInstance, hres] at hnil
  · refine .inr ⟨?_, hbelow, hplaced⟩
    rintro ⟨record, hrecord, ho, hi, hres⟩
    exact hbelow _ (mem_under_instance.mpr ⟨record, hrecord, ho, hall record hrecord ho, hi, rfl⟩)
      (by simp [SenmlRecord.belowInstance, hres])

/-- **Where a value stands in the way of the walk**, in terms of the records. -/
theorem valueOnTheWay_iff (h : placeAll (records.map (·.entry)) (.new 0 .undefined) = .ok parent)
    (htree : root ∈ parent.children.head?) :
    ValueOnTheWay uri.toUri root ↔ SenmlMisread uri.toUri records := by
  have hfirst : (∃ record ∈ records.head?, record.name.objectId = uri.objectId) ↔
      root.id = uri.objectId := by
    rcases records with _ | ⟨record, records⟩
    · cases h
      cases htree
    · obtain ⟨root', hroot', hid⟩ := head_placeAll entry_segments_ne_nil h rfl rfl
      cases htree.symm.trans hroot'
      simp [hid]
  by_cases hid : root.id = uri.objectId
  swap
  · exact iff_of_false (fun h => hid h.2.1) fun h => hid (hfirst.mp h.2.1)
  obtain ⟨⟨record, hrecord, ho, hinst⟩, hcontainer⟩ | ⟨hall, hobject, htype, hroot⟩ :=
    object_cases h htree hid
  · -- a value at the object: the source finds that the type is wrong
    exact iff_of_false (fun h => hcontainer (.inl h.1)) fun h => hinst (h.2.2.1 record hrecord ho)
  rw [ValueOnTheWay, SenmlMisread, hfirst]
  simp only [htype, hid, true_and]
  refine and_congr_right fun hinst => ?_
  rw [and_iff_right hall]
  cases hfind : root.child uri.instanceId with
  | none =>
    have hnil := not_not.mp
      ((child_isSome_iff hobject hroot uri.instanceId).not.mp (by simp [hfind]))
    refine iff_of_false (by simp) ?_
    rintro (⟨record, hrecord, ho, hi, -⟩ | ⟨hres, -, hends⟩)
    · have hmem := mem_under_instance.mpr ⟨record, hrecord, ho, hall record hrecord ho, hi, rfl⟩
      rw [hnil] at hmem
      cases hmem
    · have hfilter := filterMap_under_resource records hres
      rw [hnil, List.filterMap_nil, eq_comm, List.map_eq_nil_iff] at hfilter
      rw [hfilter] at hends
      exact endsAsValue_nil hends
  | some n =>
    obtain ⟨hvalue, hcontainer⟩ | ⟨hbare, hinstance, hntype, hn⟩ :=
      instance_cases hall hobject hroot hfind
    · exact iff_of_true ⟨n, rfl, .inl hcontainer⟩ (.inl hvalue)
    · have hcontainer : isContainer n.type := .inr (.inl hntype)
      rw [or_iff_right hbare, ← valueAtResource_iff hinstance hn]
      simp [hcontainer]

/-- **`senml_json_parse` for a URI**: it descends exactly when no record is misread. -/
theorem senmlJsonParse_descends_iff (h : senmlConvertRecord records = .ok tree) :
    Descends uriP tree (senmlJsonParse uriP records) ↔
      ¬ ∃ uri ∈ uriP, SenmlMisread uri.toUri records := by
  obtain ⟨parent, hparent, rfl⟩ := map_eq_ok_iff.mp h
  rw [senmlJsonParse]
  split_ifs with hrecords
  · subst hrecords
    refine iff_of_true (descends_error _ _) ?_
    rintro ⟨uri, -, -, ⟨record, hrecord, -⟩, -⟩
    cases hrecord
  have hne : parent.children ≠ [] := children_ne_nil entry_segments_ne_nil hparent (by simpa)
  have hfull : ∀ c ∈ parent.children, Full c :=
    full_of_placeAll (by simp [Node.root, Node.new, Node.children]) hparent
  rw [h, ok_bind]
  cases uriP with
  | none =>
    rw [stripped_eq hne hfull]
    exact iff_of_true ⟨fun _ h => (by cases h), answers_ok_iff.mpr rfl⟩ (by simp)
  | some uri =>
    dsimp only
    split_ifs with hobject
    · obtain ⟨root, rest, htree⟩ := List.exists_cons_of_ne_nil hne
      have hhead : root ∈ parent.children.head? := by simp [htree]
      have hresource : root.type = .object → root.id = uri.objectId → ∀ n,
          root.child uri.instanceId = some n → isContainer n.type → ∀ r,
            n.child uri.resourceId = some r → isContainer r.type → r.type = .multipleResource := by
        intro htype hid n hfind hcontainer r hr
        obtain ⟨-, hvalue⟩ | ⟨hall, hobj, -, hroot⟩ := object_cases hparent hhead hid
        · exact absurd (.inl htype) hvalue
        obtain ⟨-, hvalue⟩ | ⟨-, hinstance, -, hn⟩ := instance_cases hall hobj hroot hfind
        · exact absurd hcontainer hvalue
        refine isContainer_resource hinstance hn (fun e he => ?_) hr
        obtain ⟨t, ht⟩ := mem_filterMap_under.mp he
        obtain ⟨record, -, -, -, -, hentry⟩ := mem_under_instance.mp ht
        simp only [SenmlRecord.belowInstance, Entry.mk.injEq] at hentry
        have hsegments := hentry.1
        split_ifs at hsegments
        simp only [List.cons.injEq] at hsegments
        exact hsegments.2
      have hiff : ValueOnTheWay uri.toUri root ↔ SenmlMisread uri.toUri records :=
        valueOnTheWay_iff hparent hhead
      rw [htree] at hfull ⊢
      rw [senmlDescend_descends_iff hobject (hfull root List.mem_cons_self) hresource, hiff]
      simp
    · rw [stripped_eq hne hfull]
      refine iff_of_true ⟨fun _ h => (by cases h), fun hobject' => absurd hobject' hobject⟩ ?_
      rintro ⟨_, ⟨⟩, hinst, -⟩
      exact hobject (uri.object_of_instance hinst)

end SenmlRecords

/-! ### JSON -/

section Json

variable {records : List JsonRecord} {record : JsonRecord} {base : Option NestedUri} {e : Entry}
  {entries : List Entry} {parent n root : Node} {tree rest : List Node} {uri : NestedUri}

/-- Every record has the three levels above the resource instances on its path. -/
theorem JsonRecord.entry_shape (h : ¬ record.Misplaced (baseSegments base).length) :
    ∃ o i r t rest, ((record.entry (baseSegments base).length).push (baseSegments base)).segments =
      (o, .object) :: (i, .objectInstance) :: (r, t) :: rest ∧ [o, i, r] <+: record.path base := by
  have hids : ∀ i < 3 - (baseSegments base).length, record.idAt i ≠ lwm2mMaxId :=
    fun i hi hid => h (.inl ⟨i, hi, hid⟩)
  rw [Entry.push, JsonRecord.path, JsonRecord.entry]
  cases base with
  | none =>
    have hid : record.idAt 1 ≠ lwm2mMaxId := hids 1 (by simp [baseSegments])
    rw [if_pos hid]
    exact ⟨_, _, _, _, _, rfl, ⟨_, rfl⟩⟩
  | some uri =>
    by_cases hinst : uri.isSetInstance
    · by_cases hres : uri.isSetResource
      · simp only [baseSegments, hinst, hres, if_true]
        exact ⟨_, _, _, _, _, rfl, ⟨_, rfl⟩⟩
      · simp only [baseSegments, hinst, hres, if_true, if_false]
        exact ⟨_, _, _, _, _, rfl, ⟨_, rfl⟩⟩
    · have hid : record.idAt 1 ≠ lwm2mMaxId := hids 1 (by simp [baseSegments, hinst])
      rw [if_pos hid]
      simp only [baseSegments, hinst, if_false]
      exact ⟨_, _, _, _, _, rfl, ⟨_, rfl⟩⟩

/-- A conversion that succeeds places every record. -/
theorem placeAll_of_foldlM {depth : ℕ}
    (h : records.foldlM (fun root record =>
      if record.Misplaced depth then throw .error else (record.entry depth).place root) parent =
        .ok n) :
    (∀ record ∈ records, ¬ record.Misplaced depth) ∧
      placeAll (records.map (·.entry depth)) parent = .ok n := by
  induction records generalizing parent with
  | nil => exact ⟨by simp, h⟩
  | cons record records ih =>
    rw [List.foldlM_cons] at h
    obtain ⟨m, hm, h⟩ := bind_eq_ok_iff.mp h
    split_ifs at hm with hmisplaced
    · obtain ⟨hrecords, hplaced⟩ := ih h
      refine ⟨List.forall_mem_cons.mpr ⟨hmisplaced, hrecords⟩, ?_⟩
      rw [List.map_cons, placeAll, List.foldlM_cons, hm]
      exact hplaced

/-- A record with the levels of the base in front. -/
def JsonRecord.fullEntry (base : Option NestedUri) (record : JsonRecord) : Entry :=
  (record.entry (baseSegments base).length).push (baseSegments base)

/-- **The tree of `json_parse`** is what the records leave with the levels of the base in front. -/
theorem exists_placeAll_of_jsonConvertRecord (h : jsonConvertRecord base records = .ok tree)
    (hne : records ≠ []) :
    (∀ record ∈ records, ¬ record.Misplaced (baseSegments base).length) ∧
      ∃ parent, placeAll (records.map (·.fullEntry base)) .root = .ok parent ∧
        tree = parent.children := by
  rw [jsonConvertRecord] at h
  obtain ⟨root, hroot, ⟨⟩⟩ := bind_eq_ok_iff.mp h
  obtain ⟨hrecords, hplaced⟩ := placeAll_of_foldlM hroot
  have hsegments : ∀ e ∈ records.map (·.entry (baseSegments base).length), e.segments ≠ [] := by
    intro e he
    obtain ⟨record, -, rfl⟩ := List.mem_map.mp he
    simp [JsonRecord.entry]
  have htypes : ∀ s ∈ baseSegments base, s.2 ≠ .undefined := by
    cases base with
    | none => simp [baseSegments]
    | some uri =>
      simp only [baseSegments]
      split_ifs <;> simp
  have hwrap := placeAll_wrap (baseSegments base) (by simpa using hne) hsegments htypes hplaced
  rw [List.map_map] at hwrap
  exact ⟨hrecords, _, hwrap, rfl⟩

end Json

section JsonRecords

variable {n root parent : Node} {tree : List Node} {uri : NestedUri}
  {records : List JsonRecord} {base : Option NestedUri} {k : UInt16} {entries : List Entry}

/-- The entry has an object, an instance and a resource on its path. -/
def Entry.Deep (e : Entry) : Prop :=
  ∃ o i r t rest, e.segments = (o, .object) :: (i, .objectInstance) :: (r, t) :: rest

theorem Entry.Deep.segments_ne_nil (h : e.Deep) : e.segments ≠ [] := by
  obtain ⟨o, i, r, t, rest, hsegments⟩ := h
  simp [hsegments]

/-- Every root is an object. -/
theorem root_of_deep (hdeep : ∀ e ∈ entries, e.Deep)
    (h : placeAll entries (.new 0 .undefined) = .ok parent) (hroot : parent.child k = some root) :
    (∀ e ∈ entries.filterMap (Entry.under k), e.segments ≠ []) ∧ root.type = .object ∧
      placeAll (entries.filterMap (Entry.under k)) (.new k .object) = .ok root := by
  obtain ⟨hbelow, hnone | ⟨root', hroot', -, hplaced⟩⟩ :=
    child_placeAll (k := k) (t := .object) (fun e he => (hdeep e he).segments_ne_nil) h (by simp)
      fun e t' he => by
        obtain ⟨o, i, r, t, rest, hsegments⟩ := hdeep _ he
        simp only [List.cons.injEq, Prod.mk.injEq] at hsegments
        exact ⟨hsegments.1.2, by simp [hsegments.2]⟩
  · rw [hnone.1] at hroot
    cases hroot
  · cases hroot.symm.trans hroot'
    exact ⟨hbelow, (shape_of_placeAll hbelow hplaced).1, hplaced⟩

/-- Every child of an object is an instance, with the resources of the entries. -/
theorem instance_of_deep (hdeep : ∀ e ∈ entries, e.Deep)
    (hbelow : ∀ e ∈ entries.filterMap (Entry.under k), e.segments ≠ [])
    (h : placeAll (entries.filterMap (Entry.under k)) (.new k .object) = .ok root)
    (hn : root.child i = some n) :
    (∀ e ∈ (entries.filterMap (Entry.under k)).filterMap (Entry.under i), e.segments ≠ []) ∧
      n.type = .objectInstance ∧
      placeAll ((entries.filterMap (Entry.under k)).filterMap (Entry.under i))
        (.new i .objectInstance) = .ok n := by
  obtain ⟨hbelow', hnone | ⟨n', hn', -, hplaced⟩⟩ :=
    child_placeAll (k := i) (t := .objectInstance) hbelow h (by simp) fun e t' he => by
      obtain ⟨t'', he⟩ := mem_filterMap_under.mp he
      obtain ⟨o, i, r, t, rest, hsegments⟩ := hdeep _ he
      simp only [List.cons.injEq, Prod.mk.injEq] at hsegments
      exact ⟨hsegments.2.1.2, by simp [hsegments.2.2]⟩
  · rw [hnone.1] at hn
    cases hn
  · cases hn.symm.trans hn'
    exact ⟨hbelow', (shape_of_placeAll hbelow' hplaced).1, hplaced⟩

theorem deep_fullEntry
    (hrecords : ∀ record ∈ records, ¬ record.Misplaced (baseSegments base).length) :
    ∀ e ∈ records.map (·.fullEntry base), e.Deep := by
  intro e he
  obtain ⟨record, hrecord, rfl⟩ := List.mem_map.mp he
  obtain ⟨o, i, r, t, rest, hsegments, -⟩ := JsonRecord.entry_shape (hrecords record hrecord)
  exact ⟨o, i, r, t, rest, hsegments⟩

/-- The records that go through an object and an instance to a resource. -/
theorem under_fullEntry_ne_nil_iff
    (hrecords : ∀ record ∈ records, ¬ record.Misplaced (baseSegments base).length)
    (o i r : UInt16) :
    ((((records.map (·.fullEntry base)).filterMap (Entry.under o)).filterMap
        (Entry.under i)).filterMap (Entry.under r)) ≠ [] ↔
      ∃ record ∈ records, [o, i, r] <+: record.path base := by
  constructor
  · intro hne
    obtain ⟨e, he⟩ := List.exists_mem_of_ne_nil _ hne
    simp only [mem_filterMap_under, List.mem_map] at he
    obtain ⟨t, t', t'', record, hrecord, he⟩ := he
    refine ⟨record, hrecord, ?_⟩
    obtain ⟨o', i', r', _, rest, hsegments, hpath⟩ :=
      JsonRecord.entry_shape (hrecords record hrecord)
    rw [JsonRecord.fullEntry] at he
    rw [he] at hsegments
    simp only [List.cons.injEq, Prod.mk.injEq] at hsegments
    obtain ⟨⟨rfl, -⟩, ⟨rfl, -⟩, ⟨rfl, -⟩, -⟩ := hsegments
    exact hpath
  · rintro ⟨record, hrecord, hpath⟩
    obtain ⟨o', i', r', t, rest, hsegments, hpath'⟩ :=
      JsonRecord.entry_shape (hrecords record hrecord)
    have hsame := (List.prefix_of_prefix_length_le hpath' hpath le_rfl).eq_of_length rfl
    simp only [List.cons.injEq, and_true] at hsame
    obtain ⟨rfl, rfl, rfl⟩ := hsame
    refine List.ne_nil_of_mem (a := { record.fullEntry base with segments := rest }) ?_
    simp only [mem_filterMap_under, List.mem_map]
    refine ⟨t, .objectInstance, .object, record, hrecord, ?_⟩
    rw [← hsegments]
    rfl

/-- The first root has the object of the first record. -/
theorem first_of_path
    (hrecords : ∀ record ∈ records, ¬ record.Misplaced (baseSegments base).length)
    (h : placeAll (records.map (·.fullEntry base)) (.new 0 .undefined) = .ok parent)
    (hroot : root ∈ parent.children.head?) :
    root.id = k ↔ ∃ record ∈ records.head?, [k] <+: record.path base := by
  rcases records with _ | ⟨record, records⟩
  · cases h
    cases hroot
  · obtain ⟨o, i, r, t, rest, hsegments, hpath⟩ :=
      JsonRecord.entry_shape (hrecords record List.mem_cons_self)
    obtain ⟨root', hroot', hid⟩ := head_placeAll
      (fun e he => (deep_fullEntry hrecords e he).segments_ne_nil) h rfl hsegments
    cases hroot.symm.trans hroot'
    obtain ⟨tail, htail⟩ := hpath
    simp [hid, ← htail, eq_comm]

/-- A resource is found below a root exactly when a record goes there. -/
theorem resource_of_deep {r : UInt16}
    (hrecords : ∀ record ∈ records, ¬ record.Misplaced (baseSegments base).length)
    (hbelow : ∀ e ∈ (records.map (·.fullEntry base)).filterMap (Entry.under o), e.segments ≠ [])
    (h : placeAll ((records.map (·.fullEntry base)).filterMap (Entry.under o)) (.new o .object) =
      .ok root) :
    (∃ n, root.child i = some n ∧ (n.child r).isSome) ↔
      ∃ record ∈ records, [o, i, r] <+: record.path base := by
  rw [← under_fullEntry_ne_nil_iff hrecords]
  constructor
  · rintro ⟨n, hn, hsome⟩
    obtain ⟨hbelow', -, hplaced⟩ := instance_of_deep (deep_fullEntry hrecords) hbelow h hn
    exact (child_isSome_iff hbelow' hplaced r).mp hsome
  · intro hne
    have hne' : ((records.map (·.fullEntry base)).filterMap (Entry.under o)).filterMap
        (Entry.under i) ≠ [] := by
      intro hnil
      rw [hnil] at hne
      exact hne rfl
    obtain ⟨n, hn⟩ := Option.isSome_iff_exists.mp ((child_isSome_iff hbelow h i).mpr hne')
    obtain ⟨hbelow', -, hplaced⟩ := instance_of_deep (deep_fullEntry hrecords) hbelow h hn
    exact ⟨n, hn, (child_isSome_iff hbelow' hplaced r).mpr hne⟩

/-- **`json_parse` for a URI**: it descends exactly when no record is misread. -/
theorem jsonParse_descends_iff {bn : Option (Option NestedUri)}
    (h : jsonConvertRecord (jsonBase uriP bn) records = .ok tree) :
    Descends uriP tree (jsonParse uriP bn records) ↔
      ¬ ∃ uri ∈ uriP, JsonMisread uri.toUri (jsonBase uriP bn) records := by
  rw [jsonParse]
  split_ifs with hne
  · subst hne
    refine iff_of_true (descends_error _ _) ?_
    rintro ⟨uri, -, -, ⟨record, hrecord, -⟩, -⟩
    cases hrecord
  obtain ⟨hrecords, parent, hparent, rfl⟩ := exists_placeAll_of_jsonConvertRecord h hne
  have hdeep := deep_fullEntry hrecords
  have hsegments : ∀ e ∈ records.map (·.fullEntry (jsonBase uriP bn)), e.segments ≠ [] :=
    fun e he => (hdeep e he).segments_ne_nil
  have hchildren : parent.children ≠ [] := children_ne_nil hsegments hparent (by simpa)
  have hfull : ∀ c ∈ parent.children, Full c :=
    full_of_placeAll (by simp [Node.root, Node.new, Node.children]) hparent
  rw [h, ok_bind]
  cases uriP with
  | none =>
    rw [stripped_eq hchildren hfull]
    exact iff_of_true ⟨fun _ h => (by cases h), answers_ok_iff.mpr rfl⟩ (by simp)
  | some uri =>
    obtain ⟨root, rest, htree⟩ := List.exists_cons_of_ne_nil hchildren
    have hchild : parent.child root.id = some root := by simp [Node.child, htree]
    obtain ⟨hbelow, htype, hroot⟩ := root_of_deep hdeep hparent hchild
    have hinstances : ∀ n, root.child uri.instanceId = some n → isContainer n.type :=
      fun n hn => .inr (.inl (instance_of_deep hdeep hbelow hroot hn).2.1)
    rw [htree] at hfull ⊢
    rw [jsonDescend_descends_iff (hfull root List.mem_cons_self) htype hinstances]
    have hhead : root ∈ parent.children.head? := by simp [htree]
    simp only [Option.mem_some_iff, exists_eq_left', JsonMisread,
      ← first_of_path hrecords hparent hhead]
    refine not_congr (and_congr_right fun _ => and_congr_right fun hid => ?_)
    rw [hid] at hbelow hroot
    exact resource_of_deep hrecords hbelow hroot

end JsonRecords

/-! ### Both formats -/

namespace Payload

/-- **When a parse for a URI descends into containers only.**  It fails, and whether it returns the
right nodes, depends on the records alone: none of them may be misread for the URI. -/
theorem parse_descends_iff {uriP : Option NestedUri} {payload : Payload} {parsed : List Node}
    (h : payload.tree uriP = .ok parsed) :
    Descends uriP parsed (payload.parse uriP) ↔ ¬ payload.Misread uriP := by
  cases payload with
  | senml records => exact senmlJsonParse_descends_iff h
  | json bn records => exact jsonParse_descends_iff h

/-- `/3/0`. -/
def deviceUri : NestedUri := ⟨{ objectId := 3, instanceId := 0 }, by decide, by decide, by decide⟩

/-- `/3/0/1`. -/
def resourceUri : NestedUri :=
  ⟨{ objectId := 3, instanceId := 0, resourceId := 1 }, by decide, by decide, by decide⟩

/-- `/3/0/1/1`. -/
def itemUri : NestedUri :=
  ⟨{ objectId := 3, instanceId := 0, resourceId := 1, resourceInstanceId := 1 },
    by decide, by decide, by decide⟩

/-- `[{"n":"/3/0/1","v":5}]`. -/
def numberAtResource : Payload := senml [⟨resourceUri, some (.unsignedInteger 5)⟩]

/-- The resource of `numberAtResource` can be read. -/
theorem numberAtResource_descends :
    Descends (some resourceUri)
      [.mk 3 .object .undefined [.mk 0 .objectInstance .undefined
        [.mk 1 .unsignedInteger (.unsignedInteger 5) []]]]
      (numberAtResource.parse (some resourceUri)) := by
  refine (parse_descends_iff rfl).mpr ?_
  rintro ⟨_, ⟨⟩, -, -, -, ⟨record, hrecord, -, -, hres⟩ | ⟨-, hsame, -⟩⟩
  · cases List.mem_singleton.mp hrecord
    exact hres (by decide)
  · exact absurd hsame (by decide)

/-- **A string at the instance of the request is read as an array.**  With
`[{"n":"/3/0/1","v":5}]` the request for `/3/0/1/1` gets the resource, and so does the one for
`/3/0/1/1` of JSON with `{"e":[{"n":"5","v":5}]}`. -/
theorem parse_not_descends :
    (∃ parsed, (senml [⟨deviceUri, some (.string [0x61])⟩]).tree (some deviceUri) = .ok parsed ∧
      ¬ Descends (some deviceUri) parsed
        ((senml [⟨deviceUri, some (.string [0x61])⟩]).parse (some deviceUri))) ∧
    (∃ parsed, numberAtResource.tree (some itemUri) = .ok parsed ∧
      ¬ Descends (some itemUri) parsed (numberAtResource.parse (some itemUri))) ∧
    ∃ parsed, (json none [⟨![5, lwm2mMaxId, lwm2mMaxId, lwm2mMaxId],
        some (.unsignedInteger 5)⟩]).tree (some itemUri) = .ok parsed ∧
      ¬ Descends (some itemUri) parsed ((json none [⟨![5, lwm2mMaxId, lwm2mMaxId, lwm2mMaxId],
        some (.unsignedInteger 5)⟩]).parse (some itemUri)) := by
  refine ⟨⟨_, rfl, fun h => h.1 .wrongUnionMember rfl⟩, ⟨_, rfl, fun h => ?_⟩,
    ⟨_, rfl, fun h => ?_⟩⟩
  · have hnone := (h.2 (by decide)).2 _ rfl
    cases hnone
  · have hnone := (h.2 (by decide)).2 _ rfl
    cases hnone

end Payload

end Lwm2m.Codec

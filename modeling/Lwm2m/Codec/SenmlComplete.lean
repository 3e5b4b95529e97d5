/-
# When a SenML JSON payload is complete

What `senml_json_serialize` returns should be a JSON array with one record for every leaf of the
data that the URI addresses, or a failure.

It is, when the text of all data fits into the buffer, unless a container has no children, which
leaves nothing between two commas, or the first leaf has neither a name nor a value.  When the text
does not fit, the failure is noticed everywhere but at the comma between two children of a
container; there the records of the container are dropped (`senmlJsonSerialize_complete_iff`).
-/

import Lwm2m.Codec.SenmlSerialize

namespace Lwm2m.Codec

open Core Library

/-! ### The payload of a tree -/

mutual

/-- The leaves of an item below a path with their names. -/
def itemLeaves (path : List Byte) : Tree → List (List Byte × Leaf)
  | .leaf id value => [(path ++ decimal id.toNat, value)]
  | .container id _ children => leavesOf (path ++ decimal id.toNat ++ [0x2F]) children

/-- The leaves of items, in order. -/
def leavesOf (path : List Byte) : List Tree → List (List Byte × Leaf)
  | [] => []
  | item :: next => itemLeaves path item ++ leavesOf path next

end

mutual

/-- The number of containers without children in an item. -/
def itemChildless : Tree → ℕ
  | .leaf _ _ => 0
  | .container _ _ children => if children = [] then 1 else childless children

/-- The number of containers without children. -/
def childless : List Tree → ℕ
  | [] => 0
  | item :: next => itemChildless item + childless next

end

section

variable (w : FloatToText) (t : SenmlTarget)

/-- The leaves that the URI addresses. -/
def SenmlTarget.leaves : List (List Byte × Leaf) := leavesOf t.parentUriStr t.targetP

/-- A record has a name, since the base alone does not name the leaf. -/
def SenmlTarget.IsNamed : Prop := t.baseUriStr.length = 0 ∨ t.rootLevel > t.baseLevel

instance : Decidable t.IsNamed := inferInstanceAs (Decidable (_ ∨ _))

/-- The members of the record of a leaf; the first one has the base. -/
def recordMembers (first : Bool) (leaf : List Byte × Leaf) :
    Option (List (List Byte × List Byte)) :=
  let bn := if first ∧ t.baseUriStr.length > 0 then [([0x62, 0x6E], quoted t.baseUriStr)] else []
  let n := if t.IsNamed then [([0x6E], quoted leaf.1)] else []
  if leaf.2 ≠ .undefined then (leaf.2.member w).map fun v => bn ++ n ++ [v] else some (bn ++ n)

/-- The record of a leaf. -/
def recordText (first : Bool) (leaf : List Byte × Leaf) : Option (List Byte) :=
  (recordMembers w t first leaf).map fun members =>
    jsonObject (members.map fun m => jsonMember m.1 m.2)

/-- The records of leaves. -/
def recordTexts (first : Bool) : List (List Byte × Leaf) → Option (List (List Byte))
  | [] => some []
  | leaf :: next => do return (← recordText w t first leaf) :: (← recordTexts false next)

end

variable (w : FloatToText)

/-- **The payload is complete**: a JSON array of exactly the records of the addressed leaves, in
order; or the serialization has failed. -/
def IsComplete (uriP : Option Uri) (tlvP : Option (List Tree)) :
    Except SerializeStop (List Byte) → Prop
  | .error .minusOne | .error .zero => True
  | .error (.fault _) => False
  | .ok payload => ∃ t records, senmlTarget uriP tlvP = .ok t ∧
    recordTexts w t true t.leaves = some records ∧ payload = jsonArray records ∧ Json payload

/-! ### When that is so -/

/-- The comma between two children of a container would be the first byte behind the buffer. -/
def IsCutOff (uriP : Option Uri) (tlvP : Option (List Tree)) : Prop :=
  ∃ t, senmlTarget uriP tlvP = .ok t ∧ CutOff prvJsonBufferSize (layout w t)

/-- A container is reached whose path fills `uriStr`. -/
def Overruns (t : SenmlTarget) : Prop :=
  ∃ fault, EndsAs (some (.fault fault)) prvJsonBufferSize (layout w t)

/-- No container is without children, unless there is nothing else. -/
def Populated (t : SenmlTarget) : Prop :=
  childless t.targetP = 0 ∨ t.leaves = [] ∧ childless t.targetP = 1

/-- The base of the first record has something behind it. -/
def FirstClosed (t : SenmlTarget) : Prop :=
  t.IsNamed ∨ ∀ leaf ∈ t.leaves.head?, leaf.2 ≠ .undefined

/-- What the data must satisfy. -/
def Serializable (allocated : Bool) (uriP : Option Uri) (tlvP : Option (List Tree)) : Prop :=
  match senmlTarget uriP tlvP with
  | .error .minusOne | .error .zero => True
  | .error (.fault _) => False
  | .ok t => ¬ Overruns w t ∧
    (allocated ∧ FitsRoom prvJsonBufferSize (layout w t) → Populated t ∧ FirstClosed t)

/-! ### The record of a leaf -/

variable {w} {t : SenmlTarget}

/-- The record that ends in a comma: it has the base, but neither a name nor a value. -/
def Trailing (t : SenmlTarget) (first : Bool) (value : Leaf) : Prop :=
  (first ∧ t.baseUriStr.length > 0) ∧ ¬ t.IsNamed ∧ value = .undefined

/-- The text of a leaf, by what it has. -/
theorem leafText_eq (first : Bool) (name : List Byte) (value : Leaf) :
    leafText w t.baseUriStr t.baseLevel t.rootLevel (!first) name value =
      (if value ≠ .undefined then (value.member w).map fun m => jsonMember m.1 m.2
        else some []).map fun v => 0x7B ::
          ((if first ∧ t.baseUriStr.length > 0 then
              jsonMember [0x62, 0x6E] (quoted t.baseUriStr) ++ [0x2C] else []) ++
            (if t.IsNamed then
              jsonMember [0x6E] (quoted name) ++ if value ≠ .undefined then [0x2C] else []
              else []) ++ v ++ [0x7D]) := by
  have hfirst : (¬ (!first) = true ∧ t.baseUriStr.length > 0) ↔
      (first ∧ t.baseUriStr.length > 0) := by
    cases first <;> simp
  unfold leafText
  simp only [hfirst]
  rfl

variable {first output : Bool} {leaves : List (List Byte × Leaf)} {records : List (List Byte)}
  {text : List Byte} {uriP : Option Uri} {tlvP : Option (List Tree)}

variable {value : Leaf} {empty bufferLen : ℕ} {segments : List (List Byte)} {id : UInt16}

/-- The other records are written as they should be. -/
theorem leafText_eq_recordText {name : List Byte} (h : ¬ Trailing t first value) :
    leafText w t.baseUriStr t.baseLevel t.rootLevel (!first) name value =
      recordText w t first (name, value) := by
  rw [leafText_eq]
  unfold recordText recordMembers
  by_cases hvalue : value ≠ .undefined
  · rw [if_pos hvalue, if_pos hvalue, if_pos hvalue, Option.map_map, Option.map_map]
    refine congrArg (Option.map · _) (funext fun m => ?_)
    by_cases hbase : first ∧ t.baseUriStr.length > 0 <;> by_cases hname : t.IsNamed <;>
      simp [hbase, hname, jsonObject, List.intercalate_cons_cons]
  · rw [if_neg hvalue, if_neg hvalue, if_neg hvalue]
    have hgood : ¬ ((first ∧ t.baseUriStr.length > 0) ∧ ¬ t.IsNamed) :=
      fun hbad => h ⟨hbad.1, hbad.2, not_not.mp hvalue⟩
    by_cases hbase : first ∧ t.baseUriStr.length > 0 <;> by_cases hname : t.IsNamed
    · simp [hbase, hname, jsonObject, List.intercalate_cons_cons]
    · exact absurd ⟨hbase, hname⟩ hgood
    · simp [hbase, hname, jsonObject]
    · simp [hbase, hname, jsonObject]

/-- A record that ends in a comma has a byte too many. -/
theorem leafText_trailing (w : FloatToText) (name : List Byte) (h : Trailing t first value) :
    ∃ text record,
      leafText w t.baseUriStr t.baseLevel t.rootLevel (!first) name value = some text ∧
      recordText w t first (name, value) = some record ∧
      text.length = record.length + 1 := by
  obtain ⟨hbase, hname, hvalue⟩ := h
  rw [leafText_eq]
  unfold recordText recordMembers
  rw [if_neg (not_not.mpr hvalue), if_neg (not_not.mpr hvalue), if_neg (not_not.mpr hvalue),
    if_pos hbase, if_pos hbase, if_neg hname, if_neg hname]
  refine ⟨_, _, rfl, rfl, ?_⟩
  simp [jsonObject]

/-! ### What is written between the brackets -/

/-- The texts of leaves, as they are written. -/
def leafTexts (w : FloatToText) (t : SenmlTarget) (baseNameOutput : Bool) :
    List (List Byte × Leaf) → Option (List (List Byte))
  | [] => some []
  | leaf :: next => do
    return (← leafText w t.baseUriStr t.baseLevel t.rootLevel baseNameOutput leaf.1 leaf.2) ::
      (← leafTexts w t (baseNameOutput || t.baseUriStr.length > 0) next)

/-- `baseNameOutput` behind leaves. -/
def outputBehind (t : SenmlTarget) (baseNameOutput : Bool) (leaves : List (List Byte × Leaf)) :
    Bool :=
  leaves.foldl (fun output _ => output || t.baseUriStr.length > 0) baseNameOutput

theorem leafTexts_append (baseNameOutput : Bool) (leaves leaves' : List (List Byte × Leaf)) :
    leafTexts w t baseNameOutput (leaves ++ leaves') = do
      return (← leafTexts w t baseNameOutput leaves) ++
        (← leafTexts w t (outputBehind t baseNameOutput leaves) leaves') := by
  induction leaves generalizing baseNameOutput with
  | nil =>
    change leafTexts w t baseNameOutput leaves' = _
    cases h : leafTexts w t baseNameOutput leaves' <;> simp [leafTexts, outputBehind, h]
  | cons leaf leaves ih =>
    have houtput : outputBehind t baseNameOutput (leaf :: leaves) =
        outputBehind t (baseNameOutput || t.baseUriStr.length > 0) leaves := rfl
    rw [List.cons_append, leafTexts, leafTexts, ih, houtput]
    cases leafText w t.baseUriStr t.baseLevel t.rootLevel baseNameOutput leaf.1 leaf.2 with
    | none => rfl
    | some text =>
      cases leafTexts w t (baseNameOutput || t.baseUriStr.length > 0) leaves with
      | none => rfl
      | some texts =>
        simp only [Option.pure_def, Option.bind_eq_bind, Option.bind_some]
        cases leafTexts w t _ leaves' <;> rfl

/-- The segments between the commas of a text: they are the texts of the leaves, and an empty one
for each container without children. -/
structure Segments (w : FloatToText) (t : SenmlTarget) (output output' : Bool)
    (leaves : List (List Byte × Leaf)) (empty : ℕ) (segments : List (List Byte)) : Prop where
  texts : leafTexts w t output leaves = some (segments.filter (· ≠ []))
  length : segments.length = leaves.length + empty
  output : output' = outputBehind t output leaves

theorem Segments.append {output' output'' : Bool} {leaves' : List (List Byte × Leaf)} {empty' : ℕ}
    {segments' : List (List Byte)} (h : Segments w t output output' leaves empty segments)
    (h' : Segments w t output' output'' leaves' empty' segments') :
    Segments w t output output'' (leaves ++ leaves') (empty + empty') (segments ++ segments') where
  texts := by
    rw [leafTexts_append, ← h.output, h.texts, h'.texts, List.filter_append]
    rfl
  length := by
    rw [List.length_append, List.length_append, h.length, h'.length]
    omega
  output := by
    rw [outputBehind, List.foldl_append, h'.output, h.output]
    rfl

/-- What is written for an item consists of segments. -/
def ItemSegments (w : FloatToText) (t : SenmlTarget) (item : Tree) : Prop :=
  ∀ path output text, laidText (layoutData w t path output item).1 = some text →
    ∃ segments, segments ≠ [] ∧ text = [0x2C].intercalate segments ∧
      Segments w t output (layoutData w t path output item).2 (itemLeaves path item)
        (itemChildless item) segments

/-- What is written for items consists of segments. -/
def ItemsSegments (w : FloatToText) (t : SenmlTarget) (items : List Tree) : Prop :=
  ∀ path output texts, (layoutItems w t path output items).1.mapM laidText = some texts →
    ∃ segments : List (List (List Byte)), (∀ s ∈ segments, s ≠ []) ∧
      segments.length = items.length ∧ texts = segments.map [0x2C].intercalate ∧
      Segments w t output (layoutItems w t path output items).2 (leavesOf path items)
        (childless items) segments.flatten

theorem itemsSegments_nil : ItemsSegments w t [] := by
  intro path output texts h
  cases h
  exact ⟨[], fun _ h => absurd h List.not_mem_nil, rfl, rfl, ⟨rfl, rfl, rfl⟩⟩

theorem itemsSegments_cons {item : Tree} {next : List Tree} (hitem : ItemSegments w t item)
    (hnext : ItemsSegments w t next) : ItemsSegments w t (item :: next) := by
  intro path output texts h
  rw [layoutItems] at h ⊢
  rw [List.mapM_cons] at h
  obtain ⟨text, htext, h⟩ := Option.bind_eq_some_iff.mp h
  obtain ⟨texts', htexts, h⟩ := Option.bind_eq_some_iff.mp h
  cases h
  obtain ⟨segments, hne, rfl, hsegments⟩ := hitem path output text htext
  obtain ⟨segments', hne', hlength, rfl, hsegments'⟩ := hnext path _ texts' htexts
  exact ⟨segments :: segments', List.forall_mem_cons.mpr ⟨hne, hne'⟩,
    congrArg Nat.succ hlength, rfl, hsegments.append hsegments'⟩

/-- A leaf is one segment. -/
theorem itemSegments_leaf (id : UInt16) (value : Leaf) : ItemSegments w t (.leaf id value) := by
  intro path output text h
  rw [layoutData] at h ⊢
  cases htext : leafText w t.baseUriStr t.baseLevel t.rootLevel output
    (path ++ decimal id.toNat) value with
  | none =>
    rw [htext] at h
    cases h
  | some text' =>
    rw [htext] at h
    cases h
    have hne : text' ≠ [] := by
      obtain ⟨v, -, rfl⟩ := Option.map_eq_some_iff.mp htext
      exact List.cons_ne_nil _ _
    refine ⟨[text'], List.cons_ne_nil _ _, ?_, ?_, rfl, rfl⟩
    · exact (List.append_nil text').trans List.intercalate_singleton.symm
    · have hfilter : [text'].filter (· ≠ []) = [text'] :=
        List.filter_eq_self.mpr fun x hx => by
          rw [List.mem_singleton.mp hx]
          exact decide_eq_true hne
      rw [itemLeaves, leafTexts, htext, hfilter]
      rfl

theorem childrenUri_eq_ok {parentUriStr uriStr : List Byte}
    (h : childrenUri parentUriStr id = .ok uriStr) :
    uriStr = parentUriStr ++ decimal id.toNat ++ [0x2F] := by
  unfold childrenUri at h
  split_ifs at h
  rw [utilsIntToText_natCast, utilsUintToText_eq] at h
  split_ifs at h
  dsimp only at h
  split_ifs at h
  exact (Except.ok.inj h).symm

/-- A container has the segments of its children, or one that is empty. -/
theorem itemSegments_container (id : UInt16) (type : ContainerType) {children : List Tree}
    (hchildren : ItemsSegments w t children) : ItemSegments w t (.container id type children) := by
  intro path output text h
  rw [layoutData] at h ⊢
  cases huri : childrenUri path id with
  | error stop =>
    rw [huri] at h
    cases h
  | ok uriStr =>
    rw [huri] at h
    obtain rfl := childrenUri_eq_ok huri
    unfold separator at h
    rw [laidText_intercalate] at h
    obtain ⟨texts, htexts, rfl⟩ := Option.map_eq_some_iff.mp h
    obtain ⟨segments, hne, hlength, rfl, hsegments⟩ := hchildren _ output texts htexts
    rw [itemLeaves, itemChildless]
    cases children with
    | nil =>
      rw [List.eq_nil_of_length_eq_zero hlength] at hsegments ⊢
      exact ⟨[[]], List.cons_ne_nil _ _, rfl, hsegments.texts, rfl, hsegments.output⟩
    | cons child next =>
      rw [if_neg (List.cons_ne_nil _ _)]
      refine ⟨segments.flatten, fun hnil => ?_, intercalate_map_intercalate hne, hsegments⟩
      obtain ⟨first, hfirst⟩ := List.exists_mem_of_length_pos
        (hlength.symm ▸ Nat.succ_pos _ : 0 < segments.length)
      exact hne first hfirst (List.flatten_eq_nil_iff.mp hnil first hfirst)

theorem itemsSegments (items : List Tree) : ItemsSegments w t items :=
  forest_induction itemsSegments_nil
    (fun id value _ hnext => itemsSegments_cons (itemSegments_leaf id value) hnext)
    (fun id type _ _ hchildren hnext =>
      itemsSegments_cons (itemSegments_container id type hchildren) hnext) items

/-! ### Comparing the texts with the records -/

/-- Behind the first leaf, the texts are the records. -/
theorem leafTexts_behind (h : output = true ∨ t.baseUriStr.length = 0)
    (leaves : List (List Byte × Leaf)) :
    leafTexts w t output leaves = recordTexts w t false leaves := by
  induction leaves generalizing output with
  | nil => rfl
  | cons leaf leaves ih =>
    have hnext : (output || decide (t.baseUriStr.length > 0)) = true ∨ t.baseUriStr.length = 0 :=
      h.imp_left fun h => by rw [h, Bool.true_or]
    have hleaf : leafText w t.baseUriStr t.baseLevel t.rootLevel output leaf.1 leaf.2 =
        recordText w t false leaf := by
      have hrecord : leafText w t.baseUriStr t.baseLevel t.rootLevel (!false) leaf.1 leaf.2 =
          recordText w t false leaf :=
        leafText_eq_recordText fun h => Bool.false_ne_true h.1.1
      rw [← hrecord]
      rcases h with rfl | hbase
      · rfl
      · have hempty (output : Bool) : ¬ (¬ output = true ∧ t.baseUriStr.length > 0) :=
          fun h => Nat.not_lt.mpr (Nat.le_of_eq hbase) h.2
        unfold leafText
        rw [if_neg (hempty output), if_neg (hempty (!false))]
    rw [leafTexts, recordTexts, hleaf, ih hnext]

theorem length_recordTexts (h : recordTexts w t first leaves = some records) :
    records.length = leaves.length := by
  induction leaves generalizing first records with
  | nil =>
    cases h
    rfl
  | cons leaf leaves ih =>
    obtain ⟨record, -, h⟩ := Option.bind_eq_some_iff.mp h
    obtain ⟨records', hrecords, h⟩ := Option.bind_eq_some_iff.mp h
    cases h
    exact congrArg Nat.succ (ih hrecords)

/-- The texts are the records, unless the first one ends in a comma, which is a byte too many. -/
theorem exists_recordTexts {texts : List (List Byte)}
    (h : leafTexts w t false leaves = some texts) : ∃ records,
      recordTexts w t true leaves = some records ∧
      ((∀ leaf ∈ leaves.head?, ¬ Trailing t true leaf.2) → texts = records) ∧
      ((∃ leaf ∈ leaves.head?, Trailing t true leaf.2) → texts.length = records.length ∧
        (texts.map List.length).sum = (records.map List.length).sum + 1) := by
  cases leaves with
  | nil => exact ⟨texts, h, fun _ => rfl, fun ⟨_, hleaf, _⟩ => nomatch hleaf⟩
  | cons leaf leaves =>
    obtain ⟨text, htext, h⟩ := Option.bind_eq_some_iff.mp h
    obtain ⟨texts', htexts, h⟩ := Option.bind_eq_some_iff.mp h
    cases h
    have houtput : (false || decide (t.baseUriStr.length > 0)) = true ∨
        t.baseUriStr.length = 0 := by
      rw [Bool.false_or, decide_eq_true_eq]
      omega
    rw [leafTexts_behind houtput] at htexts
    rw [recordTexts]
    by_cases htrailing : Trailing t true leaf.2
    · obtain ⟨text', record, htext', hrecord, hlength⟩ := leafText_trailing w leaf.1 htrailing
      obtain rfl := Option.some.inj (htext.symm.trans htext')
      rw [hrecord, htexts]
      refine ⟨record :: texts', rfl, fun h => absurd htrailing (h leaf rfl), fun _ => ⟨rfl, ?_⟩⟩
      rw [List.map_cons, List.sum_cons, List.map_cons, List.sum_cons, hlength]
      omega
    · have hrecord : leafText w t.baseUriStr t.baseLevel t.rootLevel (!true) leaf.1 leaf.2 =
          recordText w t true leaf := leafText_eq_recordText htrailing
      rw [← hrecord, Bool.not_true, htext, htexts]
      refine ⟨text :: texts', rfl, fun _ => rfl, ?_⟩
      rintro ⟨leaf', hleaf', h⟩
      cases hleaf'
      exact absurd h htrailing

/-- The texts without the empty ones have the same bytes. -/
theorem sum_length_filter (segments : List (List Byte)) :
    ((segments.filter (· ≠ [])).map List.length).sum = (segments.map List.length).sum := by
  induction segments with
  | nil => rfl
  | cons segment segments ih =>
    by_cases h : segment = []
    · rw [List.filter_cons_of_neg (by simpa using h), ih, h]
      exact (Nat.zero_add _).symm
    · rw [List.filter_cons_of_pos (by simpa using h), List.map_cons, List.sum_cons, ih]
      rfl

/-- **Between the brackets stand the records** exactly when there is no other segment and the first
text has no comma too many. -/
theorem intercalate_eq_records_iff (hne : segments ≠ [])
    (h : Segments w t false output leaves empty segments)
    (hrecords : recordTexts w t true leaves = some records) :
    [0x2C].intercalate segments = [0x2C].intercalate records ↔
      (empty = 0 ∨ leaves = [] ∧ empty = 1) ∧
        ∀ leaf ∈ leaves.head?, ¬ Trailing t true leaf.2 := by
  obtain ⟨records', hrecords', hsame, hlonger⟩ := exists_recordTexts h.texts
  obtain rfl := Option.some.inj (hrecords.symm.trans hrecords')
  have hsum := sum_length_filter segments
  have hcount := length_recordTexts hrecords
  have hlength := length_intercalate (0x2C : Byte) hne
  have hsegments := h.length
  constructor
  · intro heq
    rw [heq] at hlength
    rcases eq_or_ne leaves [] with rfl | hleaves
    · cases hrecords
      have hpos := List.length_pos_iff.mpr hne
      rw [List.intercalate_nil, List.length_nil] at hlength
      rw [List.length_nil] at hsegments
      exact ⟨.inr ⟨rfl, by omega⟩, fun _ h => nomatch h⟩
    · have hrecordsNe : records ≠ [] := by
        rintro rfl
        exact hleaves (List.eq_nil_of_length_eq_zero hcount.symm)
      rw [length_intercalate (0x2C : Byte) hrecordsNe] at hlength
      have hfirst : ∀ leaf ∈ leaves.head?, ¬ Trailing t true leaf.2 := by
        intro leaf hleaf htrailing
        have := (hlonger ⟨leaf, hleaf, htrailing⟩).2
        omega
      rw [hsame hfirst] at hsum
      exact ⟨.inl (by omega), hfirst⟩
  · rintro ⟨hempty, hfirst⟩
    have hfilter := hsame hfirst
    rcases hempty with rfl | ⟨rfl, rfl⟩
    · -- as many segments as records, so that none is empty
      have hall : segments.filter (· ≠ []) = segments := by
        refine List.filter_eq_self.mpr (List.length_filter_eq_length_iff.mp ?_)
        rw [hfilter, hcount, hsegments, Nat.add_zero]
      rw [← hfilter, hall]
    · cases hrecords
      obtain ⟨segment, rfl⟩ := List.length_eq_one_iff.mp hsegments
      have hsegment : segment = [] := by simpa using hfilter
      rw [hsegment]
      rfl

/-! ### The records are JSON -/

/-- A path holds nothing that is escaped in a string. -/
def PlainPath (path : List Byte) : Prop := ∀ c ∈ path, isJsonPlain c

theorem PlainPath.append {path path' : List Byte} (h : PlainPath path) (h' : PlainPath path') :
    PlainPath (path ++ path') := List.forall_mem_append.mpr ⟨h, h'⟩

theorem plainPath_slash : PlainPath [0x2F] := List.forall_mem_singleton.mpr rfl

theorem plainPath_appendLevel {buffer : List Byte} (hbuffer : PlainPath buffer)
    (h : appendLevel bufferLen id buffer = some text) :
    PlainPath text := by
  unfold appendLevel at h
  split_ifs at h
  obtain ⟨digits, hdigits, rfl⟩ := Option.map_eq_some_iff.mp h
  rw [utilsIntToText_natCast, utilsUintToText_eq] at hdigits
  split_ifs at hdigits
  cases hdigits
  exact hbuffer.append (plainPath_slash.append (isJsonPlain_decimal _))

theorem plainPath_uriToString (h : uriToString uriP bufferLen = some text) :
    PlainPath text := by
  have hnil : PlainPath [] := fun _ h => absurd h List.not_mem_nil
  cases uriP with
  | none =>
    cases h
    exact hnil
  | some uri =>
    unfold uriToString at h
    dsimp only at h
    by_cases hset : uri.isSetObject
    · rw [if_neg (not_not.mpr hset)] at h
      obtain ⟨object, hobject, h⟩ := Option.bind_eq_some_iff.mp h
      have hobject := plainPath_appendLevel hnil hobject
      by_cases hset : uri.isSetInstance
      · rw [if_neg (not_not.mpr hset)] at h
        obtain ⟨inst, hinst, h⟩ := Option.bind_eq_some_iff.mp h
        have hinst := plainPath_appendLevel hobject hinst
        by_cases hset : uri.isSetResource
        · rw [if_neg (not_not.mpr hset)] at h
          obtain ⟨resource, hresource, h⟩ := Option.bind_eq_some_iff.mp h
          have hresource := plainPath_appendLevel hinst hresource
          split_ifs at h
          · exact plainPath_appendLevel hresource h
          · cases h
            exact hresource
        · rw [if_pos hset] at h
          cases h
          exact hinst
      · rw [if_pos hset] at h
        cases h
        exact hobject
    · rw [if_pos hset] at h
      split_ifs at h
      cases h
      exact plainPath_slash

theorem plainPath_appendSlash {needed : Bool} {baseUriStr : List Byte}
    (hbase : PlainPath baseUriStr) (h : appendSlash needed baseUriStr = .ok text) :
    PlainPath text := by
  unfold appendSlash at h
  split_ifs at h <;> cases h
  · exact hbase.append plainPath_slash
  · exact hbase

/-- The paths of a target are plain. -/
theorem plainPath_senmlTarget (h : senmlTarget uriP tlvP = .ok t) :
    PlainPath t.baseUriStr ∧ PlainPath t.parentUriStr := by
  unfold senmlTarget at h
  cases tlvP with
  | none => cases h
  | some tlvP =>
    cases huri : uriToString uriP uriMaxStringLen with
    | none =>
      rw [huri] at h
      cases h
    | some baseUriStr =>
      rw [huri] at h
      obtain ⟨base, hbase, h⟩ := bind_eq_ok_iff.mp h
      obtain ⟨⟨targetP, rootLevel⟩, -, h⟩ := bind_eq_ok_iff.mp h
      obtain ⟨base', hbase', h⟩ := bind_eq_ok_iff.mp h
      cases h
      have hplain := plainPath_appendSlash
        (plainPath_appendSlash (plainPath_uriToString huri) hbase) hbase'
      refine ⟨hplain, ?_⟩
      split_ifs
      · exact plainPath_slash
      · exact fun _ h => absurd h List.not_mem_nil

/-- The names of leaves are plain. -/
theorem plainPath_leavesOf (items : List Tree) : ∀ path, PlainPath path →
    ∀ leaf ∈ leavesOf path items, PlainPath leaf.1 := by
  induction items using forest_induction with
  | nil => exact fun _ _ leaf h => absurd h List.not_mem_nil
  | leaf id value next ih =>
    intro path hpath leaf hleaf
    rw [leavesOf, itemLeaves] at hleaf
    rcases List.mem_cons.mp hleaf with rfl | hleaf
    · exact hpath.append (isJsonPlain_decimal _)
    · exact ih path hpath leaf hleaf
  | container id type children next ihchildren ih =>
    intro path hpath leaf hleaf
    rw [leavesOf, itemLeaves] at hleaf
    rcases List.mem_append.mp hleaf with hleaf | hleaf
    · exact ihchildren _ ((hpath.append (isJsonPlain_decimal _)).append plainPath_slash) leaf hleaf
    · exact ih path hpath leaf hleaf

theorem json_recordText {leaf : List Byte × Leaf} {record : List Byte}
    (hbase : PlainPath t.baseUriStr) (hleaf : PlainPath leaf.1)
    (h : recordText w t first leaf = some record) : Json record := by
  obtain ⟨members, hmembers, rfl⟩ := Option.map_eq_some_iff.mp h
  have hpath (name : List Byte) {path : List Byte} (hname : name.all isJsonPlain = true)
      (hpath : PlainPath path) (p : Prop) [Decidable p] :
      ∀ m ∈ (if p then [(name, quoted path)] else []), JsonChars m.1 ∧ Json m.2 := by
    split_ifs
    · exact List.forall_mem_singleton.mpr ⟨jsonChars_of_plain (List.all_eq_true.mp hname),
        .string (jsonChars_of_plain hpath)⟩
    · exact fun _ h => absurd h List.not_mem_nil
  have hpaths := List.forall_mem_append.mpr
    ⟨hpath [0x62, 0x6E] rfl hbase (first ∧ t.baseUriStr.length > 0),
      hpath [0x6E] rfl hleaf t.IsNamed⟩
  have hall : ∀ m ∈ members, JsonChars m.1 ∧ Json m.2 := by
    unfold recordMembers at hmembers
    by_cases hvalue : leaf.2 ≠ .undefined
    · rw [if_pos hvalue] at hmembers
      obtain ⟨v, hv, rfl⟩ := Option.map_eq_some_iff.mp hmembers
      exact List.forall_mem_append.mpr
        ⟨hpaths, List.forall_mem_singleton.mpr (Leaf.json_member w hv)⟩
    · rw [if_neg hvalue] at hmembers
      exact Option.some.inj hmembers ▸ hpaths
  exact .object (fun m hm => (hall m hm).1) fun m hm => (hall m hm).2

theorem json_recordTexts (hbase : PlainPath t.baseUriStr)
    (hleaves : ∀ leaf ∈ leaves, PlainPath leaf.1)
    (h : recordTexts w t first leaves = some records) : ∀ record ∈ records, Json record := by
  induction leaves generalizing first records with
  | nil =>
    cases h
    exact fun _ h => absurd h List.not_mem_nil
  | cons leaf leaves ih =>
    obtain ⟨hleaf, hleaves⟩ := List.forall_mem_cons.mp hleaves
    obtain ⟨record, hrecord, h⟩ := Option.bind_eq_some_iff.mp h
    obtain ⟨records', hrecords, h⟩ := Option.bind_eq_some_iff.mp h
    cases h
    exact List.forall_mem_cons.mpr ⟨json_recordText hbase hleaf hrecord, ih hleaves hrecords⟩

/-! ### Serializations -/

theorem firstClosed_iff : FirstClosed t ↔ ∀ leaf ∈ t.leaves.head?, ¬ Trailing t true leaf.2 := by
  constructor
  · rintro (hnamed | hvalue) leaf hleaf ⟨-, hname, htype⟩
    · exact hname hnamed
    · exact hvalue leaf hleaf htype
  · intro h
    by_cases hnamed : t.IsNamed
    · exact .inl hnamed
    · have hbase : t.baseUriStr.length > 0 := Nat.pos_of_ne_zero fun hzero => hnamed (.inl hzero)
      exact .inr fun leaf hleaf htype => h leaf hleaf ⟨⟨rfl, hbase⟩, hnamed, htype⟩

/-- What fits into the buffer is the array of the records exactly when no container without
children is beside others and the first record is closed. -/
theorem laidText_layout_iff {payload : List Byte} (h : laidText (layout w t) = some payload) :
    ∃ records, recordTexts w t true t.leaves = some records ∧
      (payload = jsonArray records ↔ Populated t ∧ FirstClosed t) := by
  rw [layout, laidText, laidText_append] at h
  obtain ⟨text, htext, rfl⟩ := Option.map_eq_some_iff.mp h
  obtain ⟨inner, hinner, htext⟩ := Option.bind_eq_some_iff.mp htext
  cases htext
  unfold separator at hinner
  rw [laidText_intercalate] at hinner
  obtain ⟨texts, htexts, rfl⟩ := Option.map_eq_some_iff.mp hinner
  obtain ⟨segments, hne, hlength, rfl, hsegments⟩ := itemsSegments t.targetP _ _ texts htexts
  obtain ⟨records, hrecords, -⟩ := exists_recordTexts hsegments.texts
  have hrecords : recordTexts w t true t.leaves = some records := hrecords
  refine ⟨records, hrecords, ?_⟩
  have hpayload : [0x5B] ++ ([0x2C].intercalate (segments.map [0x2C].intercalate) ++ [0x5D]) =
      jsonArray records ↔ [0x2C].intercalate segments.flatten = [0x2C].intercalate records := by
    rw [intercalate_map_intercalate hne]
    exact ⟨fun h => List.append_cancel_right (List.cons.inj h).2,
      fun h => congrArg (fun text => 0x5B :: (text ++ [0x5D])) h⟩
  refine hpayload.trans ?_
  rw [firstClosed_iff]
  cases hitems : t.targetP with
  | nil =>
    rw [hitems] at hlength
    have hleaves : t.leaves = [] := by rw [SenmlTarget.leaves, hitems, leavesOf]
    rw [hleaves] at hrecords ⊢
    cases hrecords
    rw [List.eq_nil_of_length_eq_zero hlength]
    refine iff_of_true rfl ⟨.inl ?_, fun _ h => (by cases h)⟩
    rw [hitems, childless]
  | cons item next =>
    have hflatten : segments.flatten ≠ [] := by
      intro hnil
      have hpos : 0 < segments.length := by
        rw [hlength, hitems]
        exact Nat.succ_pos _
      obtain ⟨first, hfirst⟩ := List.exists_mem_of_length_pos hpos
      exact hne first hfirst (List.flatten_eq_nil_iff.mp hnil first hfirst)
    exact intercalate_eq_records_iff hflatten hsegments hrecords

/-- Without memory, nothing is returned. -/
theorem senmlWrite_false (w : FloatToText) (t : SenmlTarget) :
    senmlWrite w t false =
      match senmlWrite w t true with
      | .error stop => .error stop
      | .ok _ => .error .minusOne := by
  unfold senmlWrite
  cases senmlJsonLoop w t false 0 [0x5B] t.targetP with
  | error stop => rfl
  | ok bufferJSON =>
    change senmlFooter false bufferJSON =
      match senmlFooter true bufferJSON with
      | .error stop => .error stop
      | .ok _ => .error .minusOne
    unfold senmlFooter
    by_cases h : bufferJSON.length + 1 > prvJsonBufferSize
    · rw [if_pos h, if_pos h]
    · rw [if_neg h, if_neg h]
      rfl

/-- What is written of a target is complete, or the writing fails. -/
theorem senmlWrite_isComplete_iff {allocated : Bool} (ht : senmlTarget uriP tlvP = .ok t)
    (hcut : ¬ CutOff prvJsonBufferSize (layout w t)) :
    IsComplete w uriP tlvP (senmlWrite w t allocated) ↔ ¬ Overruns w t ∧
      (allocated ∧ FitsRoom prvJsonBufferSize (layout w t) → Populated t ∧ FirstClosed t) := by
  have hfollows := follows_senmlWrite (w := w) (t := t)
  cases hlay : lay prvJsonBufferSize (layout w t) with
  | ok payload =>
    obtain ⟨hwritten, hlength⟩ := lay_eq_ok_iff.mp hlay
    have hruns : ¬ Overruns w t := by
      rintro ⟨fault, h⟩
      rw [lay_eq_error_iff.mpr h] at hlay
      cases hlay
    have hwrite := hfollows.ok payload hlay
    rw [and_iff_right hruns]
    cases allocated with
    | false =>
      rw [senmlWrite_false, hwrite]
      exact iff_of_true trivial fun h => absurd h.1 Bool.false_ne_true
    | true =>
      rw [hwrite, forall_prop_of_true ⟨rfl, payload, hwritten, hlength⟩]
      obtain ⟨records, hrecords, hiff⟩ := laidText_layout_iff hwritten
      rw [← hiff]
      constructor
      · rintro ⟨t', records', ht', hrecords', heq, -⟩
        obtain rfl := Except.ok.inj (ht.symm.trans ht')
        rw [heq, Option.some.inj (hrecords.symm.trans hrecords')]
      · rintro rfl
        obtain ⟨hbase, hparent⟩ := plainPath_senmlTarget ht
        exact ⟨t, records, ht, hrecords, rfl, .array (json_recordTexts hbase
          (plainPath_leavesOf t.targetP t.parentUriStr hparent) hrecords)⟩
  | error x =>
    cases x with
    | none => exact absurd (lay_eq_error_iff.mp hlay) hcut
    | some stop =>
      have hwrite : senmlWrite w t allocated = .error stop := by
        cases allocated with
        | false => rw [senmlWrite_false, hfollows.error stop hlay]
        | true => exact hfollows.error stop hlay
      have hfits : ¬ FitsRoom prvJsonBufferSize (layout w t) := by
        rintro ⟨payload, hpayload⟩
        rw [lay_eq_ok_iff.mpr hpayload] at hlay
        cases hlay
      have hruns (fault : Fault) :
          EndsAs (some (.fault fault)) prvJsonBufferSize (layout w t) ↔ stop = .fault fault := by
        rw [← lay_eq_error_iff, hlay]
        exact ⟨fun h => Option.some.inj (Except.error.inj h), fun h => by rw [h]⟩
      rw [hwrite, and_iff_left fun h => absurd h.2 hfits]
      unfold Overruns
      simp only [hruns]
      cases stop with
      | minusOne | zero => exact iff_of_true trivial fun ⟨_, h⟩ => nomatch h
      | fault fault => exact iff_of_false id fun h => h ⟨fault, rfl⟩

/-- **When a SenML JSON payload is complete.**  Unless it is cut short, what is returned is the
array of all records, or a failure, exactly when no path overruns its buffer and, if everything fits
into the buffer, no container without children is beside others and the first record has something
behind the base. -/
theorem senmlJsonSerialize_complete_iff (w : FloatToText) (allocated : Bool) (uriP : Option Uri)
    (tlvP : Option (List Tree)) (h : ¬ IsCutOff w uriP tlvP) :
    IsComplete w uriP tlvP (senmlJsonSerialize w allocated uriP tlvP) ↔
      Serializable w allocated uriP tlvP := by
  unfold senmlJsonSerialize Serializable
  cases ht : senmlTarget uriP tlvP with
  | error stop => cases stop <;> exact Iff.rfl
  | ok t => exact senmlWrite_isComplete_iff ht fun hcut => h ⟨t, ht, hcut⟩

/-- The text "0.0", as it is written for 0. -/
def zeroToText : FloatToText where
  text _ := [0x30, 0x2E, 0x30]
  write _ := RoomWriter.putText [0x30, 0x2E, 0x30]
  leaves _ := .putText _
  number _ _ := ⟨[], [0x30], [0x2E, 0x30], [], rfl, by decide, ⟨by decide, by decide, fun _ => rfl⟩,
    .inr ⟨[0x30], by decide, by decide, rfl⟩, .inl rfl⟩

/-- The instance of the device object. -/
def deviceInstance : Uri := { objectId := 3, instanceId := 0 }

/-- Two power sources and a battery level. -/
def powerSources : List Tree :=
  [.container 6 .multipleResource [.leaf 0 (.integer 1), .leaf 1 (.integer 5)],
    .leaf 9 (.float ⟨0⟩)]

/-- Three records in the instance of the device object. -/
theorem senmlJsonSerialize_complete_powerSources :
    IsComplete zeroToText (some deviceInstance) (some powerSources)
      (senmlJsonSerialize zeroToText true (some deviceInstance) (some powerSources)) := by
  have htarget : senmlTarget (some deviceInstance) (some powerSources) = .ok
      ⟨[0x2F, 0x33, 0x2F, 0x30, 0x2F], .objectInstance, .resource, [], powerSources⟩ := by rfl
  have hfits : (lay prvJsonBufferSize (layout zeroToText
      ⟨[0x2F, 0x33, 0x2F, 0x30, 0x2F], .objectInstance, .resource, [], powerSources⟩)).toBool := by
    decide +kernel
  refine (senmlJsonSerialize_complete_iff zeroToText true (some deviceInstance)
    (some powerSources) ?_).mpr ?_
  · rintro ⟨t, ht, hcut⟩
    cases htarget.symm.trans ht
    rw [lay_eq_error_iff.mpr hcut] at hfits
    cases hfits
  · unfold Serializable
    rw [htarget]
    refine ⟨?_, fun _ => ⟨.inl (by decide), .inl (by decide)⟩⟩
    rintro ⟨fault, hruns⟩
    rw [lay_eq_error_iff.mpr hruns] at hfits
    cases hfits

theorem not_isComplete {result : Except SerializeStop (List Byte)}
    (ht : senmlTarget uriP tlvP = .ok t) (hresult : result.toBool)
    (h : (recordTexts w t true t.leaves).map jsonArray ≠ result.toOption) :
    ¬ IsComplete w uriP tlvP result := by
  cases result with
  | error stop => cases hresult
  | ok payload =>
    rintro ⟨t', records, ht', hrecords, rfl, -⟩
    obtain rfl := Except.ok.inj (ht.symm.trans ht')
    exact h (by rw [hrecords]; rfl)

/-- An error code without instances between two resources. -/
def emptyBetween : List Tree :=
  [.leaf 9 (.integer 1), .container 11 .multipleResource [], .leaf 13 (.integer 2)]

/-- A text of which the record ends with the buffer, with another item behind it. -/
def fullBuffer : List Tree :=
  [.container 6 .multipleResource [.leaf 0 (.string (List.replicate 991 0x41)),
    .leaf 1 (.integer 2)]]

/-- **A resource without instances** leaves nothing between two commas, and a record that ends with
the buffer is lost. -/
theorem emptyBetween_fails :
    ¬ IsComplete zeroToText (some deviceInstance) (some emptyBetween)
      (senmlJsonSerialize zeroToText true (some deviceInstance) (some emptyBetween)) ∧
    ¬ IsComplete zeroToText (some deviceInstance) (some fullBuffer)
      (senmlJsonSerialize zeroToText true (some deviceInstance) (some fullBuffer)) := by
  have hempty : senmlTarget (some deviceInstance) (some emptyBetween) = .ok
      ⟨[0x2F, 0x33, 0x2F, 0x30, 0x2F], .objectInstance, .resource, [], emptyBetween⟩ := by rfl
  have hfull : senmlTarget (some deviceInstance) (some fullBuffer) = .ok
      ⟨[0x2F, 0x33, 0x2F, 0x30, 0x2F], .objectInstance, .resource, [], fullBuffer⟩ := by rfl
  exact ⟨not_isComplete hempty (by decide +kernel) (by decide +kernel),
    not_isComplete hfull (by decide +kernel) (by decide +kernel)⟩

end Lwm2m.Codec

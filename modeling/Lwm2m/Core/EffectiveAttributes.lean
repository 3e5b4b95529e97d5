/-
# The attributes that Discover reports

The reply of `object_discover` on a resource lists the attributes of the watcher of the server on
the resource; below them it should list those of the instance and of the object.  The periods are
merged, the thresholds and the step are not: they are 0 when both upper levels have attributes, and
missing when the resource has some of its own (`Levels.reported`).
-/

import Lwm2m.Core.Discover

namespace Lwm2m.Core

open Coap Code Library

/-! ### Levels -/

/-- An attribute that is set at a level. -/
def setAt (a : Attribute) (parameters : Option Attributes) : Option AttributeValue :=
  parameters.bind fun p => if p.toSet &&& a.flag ≠ 0 then some (p.value a) else none

/-- The attributes of a server at the three levels above a resource. -/
structure Levels where
  object : Option Attributes
  instance_ : Option Attributes
  resource : Option Attributes

/-- The attributes that a server has at the levels of a resource. -/
def levels (observedList : List Observed) (uriP : Uri) (serverP : ServerRef) : Levels where
  object := prvFindAttributes observedList { objectId := uriP.objectId } (some serverP)
  instance_ := prvFindAttributes observedList
    { objectId := uriP.objectId, instanceId := uriP.instanceId } (some serverP)
  resource := prvFindAttributes observedList uriP (some serverP)

/-- The value of the most specific level that sets the attribute. -/
def Levels.mostSpecific (l : Levels) (a : Attribute) : Option AttributeValue :=
  (setAt a l.resource).orElse fun _ => (setAt a l.instance_).orElse fun _ => setAt a l.object

/-- The value that is written. -/
def Levels.reported (l : Levels) (a : Attribute) : Option AttributeValue :=
  match l.resource with
  | none => setAt a (mergedParam l.object l.instance_)
  | some p =>
    if a.IsPeriod then
      (setAt a (some p)).orElse fun _ => setAt a (mergedParam l.object l.instance_)
    else setAt a (some p)

/-! ### The reply -/

section

variable (floatToText : Double → ℕ → Option (List Byte))

/-- The attributes with a value, in order, behind a text. -/
def attributesText (value : Attribute → Option AttributeValue) :
    List Attribute → List Byte → Option (List Byte)
  | [], buffer => some buffer
  | a :: rest, buffer =>
    match value a with
    | none => attributesText value rest buffer
    | some v => writeAttribute floatToText prvLinkBufferSize a v buffer >>=
        attributesText value rest

/-- The path of the instance of a resource. -/
def instancePath (uriP : Uri) : List Byte :=
  0x2F :: decimal uriP.objectId.toNat ++ 0x2F :: decimal uriP.instanceId.toNat

/-- The link of a resource: its path, and the number of its instances if it has several. -/
def resourceLink (uriP : Uri) (item : Data) : List Byte :=
  0x3C :: instancePath uriP ++ 0x2F :: decimal item.id.toNat ++
    if item.type = .multipleResource then
      [0x3E, 0x3B, 0x64, 0x69, 0x6D, 0x3D] ++ intText (BitVec.ofNat 64 item.children.length).toInt
    else [0x3E]

/-- The reply that reports these attributes, if it has room for them. -/
def discoverReport (uriP : Uri) (item : Data) (value : Attribute → Option AttributeValue) :
    Option (List Byte) :=
  (attributesText floatToText value Attribute.all (resourceLink uriP item)).filter
    (·.length < prvLinkBufferSize)

end

/-! ### The levels above the resource -/

theorem setAt_some (a : Attribute) (p : Attributes) :
    setAt a (some p) = if p.toSet &&& a.flag ≠ 0 then some (p.value a) else none := rfl

variable {a : Attribute} {observedList : List Observed} {l : Levels} {b b' : List Byte}

/-- The periods are merged. -/
theorem setAt_mergedParam_of_isPeriod (ha : a.IsPeriod) (objParamP instParamP : Option Attributes) :
    setAt a (mergedParam objParamP instParamP) =
      (setAt a instParamP).orElse fun _ => setAt a objParamP := by
  rcases objParamP with _ | o
  · cases h : setAt a instParamP with
    | none => exact h
    | some v => exact h
  rcases instParamP with _ | i
  · rfl
  have hvalue (field : Attributes → UInt32) (hfield : ∀ p : Attributes, p.value a = .period (field p)) :
      (if (o.toSet ||| i.toSet) &&& a.flag ≠ 0 then
        some (AttributeValue.period (mergedPeriod a field o i)) else none) =
      (setAt a (some i)).orElse fun _ => setAt a (some o) := by
    unfold mergedPeriod
    rw [setAt_some, setAt_some, hfield, hfield]
    by_cases hi : i.toSet &&& a.flag ≠ 0
    · have hset := (or_and_ne_zero_iff o.toSet i.toSet a.flag).mpr (.inr hi)
      rw [if_pos hset, if_pos hset, if_pos hi, if_pos hi]
      rfl
    by_cases ho : o.toSet &&& a.flag ≠ 0
    · have hset := (or_and_ne_zero_iff o.toSet i.toSet a.flag).mpr (.inl ho)
      rw [if_pos hset, if_pos hset, if_neg hi, if_neg hi, if_pos ho]
      rfl
    · have hset := mt (or_and_ne_zero_iff o.toSet i.toSet a.flag).mp (not_or.mpr ⟨ho, hi⟩)
      rw [if_neg hset, if_neg hi, if_neg ho]
      rfl
  rcases ha with rfl | rfl
  · exact hvalue Attributes.minPeriod fun _ => rfl
  · exact hvalue Attributes.maxPeriod fun _ => rfl

/-- A threshold is 0 when both levels have attributes and one of them sets it. -/
theorem setAt_mergedParam_of_not_isPeriod (ha : ¬ a.IsPeriod) (o i : Attributes) :
    setAt a (mergedParam (some o) (some i)) =
      ((setAt a (some i)).orElse fun _ => setAt a (some o)).map fun _ => .threshold ⟨0⟩ := by
  have hmerged : setAt a (mergedParam (some o) (some i)) =
      if (o.toSet ||| i.toSet) &&& a.flag ≠ 0 then some (.threshold ⟨0⟩) else none := by
    cases a with
    | minPeriod => exact absurd (.inl rfl) ha
    | maxPeriod => exact absurd (.inr rfl) ha
    | greaterThan => rfl
    | lessThan => rfl
    | step => rfl
  rw [hmerged, setAt_some, setAt_some]
  by_cases hi : i.toSet &&& a.flag ≠ 0
  · rw [if_pos ((or_and_ne_zero_iff _ _ _).mpr (.inr hi)), if_pos hi]
    rfl
  by_cases ho : o.toSet &&& a.flag ≠ 0
  · rw [if_pos ((or_and_ne_zero_iff _ _ _).mpr (.inl ho)), if_neg hi, if_pos ho]
    rfl
  · rw [if_neg (mt (or_and_ne_zero_iff _ _ _).mp (not_or.mpr ⟨ho, hi⟩)), if_neg hi, if_neg ho]
    rfl

/-- The periods are reported as they are to be. -/
theorem Levels.reported_of_isPeriod (l : Levels) (ha : a.IsPeriod) :
    l.reported a = l.mostSpecific a := by
  unfold reported mostSpecific
  cases l.resource with
  | none => exact setAt_mergedParam_of_isPeriod ha _ _
  | some p =>
    dsimp only
    rw [if_pos ha, setAt_mergedParam_of_isPeriod ha]

/-! ### What is written -/

section

variable {floatToText : Double → ℕ → Option (List Byte)} {a : Attribute} {v v' : AttributeValue}
  {value value' : Attribute → Option AttributeValue} {attributes : List Attribute}
  {bufferLen : ℕ} {buffer text : List Byte}

/-- The space for the value of an attribute behind a text. -/
def spaceBehind (a : Attribute) (bufferLen : ℕ) (buffer : List Byte) : ℕ :=
  bufferLen - (buffer.length + 1 + a.str.length)

/-- One attribute is a ';', its name and its value. -/
theorem writeAttribute_eq (floatToText : Double → ℕ → Option (List Byte)) (bufferLen : ℕ)
    (a : Attribute) (v : AttributeValue) (buffer : List Byte) :
    writeAttribute floatToText bufferLen a v buffer =
      if bufferLen < buffer.length + 1 + a.str.length then none
      else (valueToText floatToText v (spaceBehind a bufferLen buffer)).map
        fun t => buffer ++ 0x3B :: (a.str ++ t) := by
  unfold writeAttribute prvConcatStr spaceBehind
  rw [List.length_singleton]
  by_cases hsep : bufferLen - buffer.length < 1
  · rw [if_pos hsep, if_pos (by omega)]
    rfl
  rw [if_neg hsep, Option.bind_eq_bind, Option.bind_some, List.length_append, List.length_singleton]
  by_cases hname : bufferLen - (buffer.length + 1) < a.str.length
  · rw [if_pos hname, if_pos (by omega)]
    rfl
  · rw [if_neg hname, if_neg (by omega), Option.bind_some, List.length_append, List.length_append,
      List.length_singleton, Option.map_eq_bind]
    refine Option.bind_congr fun text _ => ?_
    rw [List.append_assoc, List.append_assoc]
    rfl

theorem writeAttribute_eq_some (h : writeAttribute floatToText bufferLen a v buffer = some text) :
    ∃ t, valueToText floatToText v (spaceBehind a bufferLen buffer) = some t ∧
      text = buffer ++ 0x3B :: (a.str ++ t) := by
  rw [writeAttribute_eq] at h
  split_ifs at h
  obtain ⟨t, ht, rfl⟩ := Option.map_eq_some_iff.mp h
  exact ⟨t, ht, rfl⟩

/-- Two values are written alike exactly when their texts are. -/
theorem writeAttribute_eq_iff
    (h : writeAttribute floatToText bufferLen a v buffer = some text) :
    writeAttribute floatToText bufferLen a v' buffer = some text ↔
      valueToText floatToText v' (spaceBehind a bufferLen buffer) =
        valueToText floatToText v (spaceBehind a bufferLen buffer) := by
  rw [writeAttribute_eq] at h ⊢
  split_ifs at h with hfits
  rw [if_neg hfits]
  obtain ⟨t, ht, rfl⟩ := Option.map_eq_some_iff.mp h
  rw [ht, Option.map_eq_some_iff]
  constructor
  · rintro ⟨t', ht', heq⟩
    have hsame : t' = t :=
      List.append_cancel_left (List.cons.inj (List.append_cancel_left heq)).2
    rw [ht', hsame]
  · exact fun h' => ⟨t, h', rfl⟩

/-- One attribute of a list of attributes, if it has a value. -/
def writeValue (floatToText : Double → ℕ → Option (List Byte)) (bufferLen : ℕ) (a : Attribute)
    (v : Option AttributeValue) (buffer : List Byte) : Option (List Byte) :=
  match v with
  | none => some buffer
  | some v => writeAttribute floatToText bufferLen a v buffer

theorem attributesText_cons (a : Attribute) (attributes : List Attribute) (buffer : List Byte) :
    attributesText floatToText value (a :: attributes) buffer =
      writeValue floatToText prvLinkBufferSize a (value a) buffer >>=
        attributesText floatToText value attributes := by
  rw [attributesText]
  cases value a with
  | none => rfl
  | some v => rfl

theorem writeIfSet_eq (p : Attributes) : writeIfSet floatToText bufferLen a p buffer =
    writeValue floatToText bufferLen a (setAt a (some p)) buffer := by
  unfold writeIfSet
  rw [setAt_some]
  split_ifs <;> rfl

theorem writeOrInherit_eq (p : Attributes) (objectParamP : Option Attributes) :
    writeOrInherit floatToText bufferLen a p objectParamP buffer =
      writeValue floatToText bufferLen a
        ((setAt a (some p)).orElse fun _ => setAt a objectParamP) buffer := by
  unfold writeOrInherit
  rw [setAt_some]
  split_ifs with h
  · rfl
  · cases objectParamP with
    | none => rfl
    | some o => exact writeIfSet_eq o

theorem attributesText_all : attributesText floatToText value Attribute.all buffer =
    (do
      let buffer ← writeValue floatToText prvLinkBufferSize .minPeriod (value .minPeriod) buffer
      let buffer ← writeValue floatToText prvLinkBufferSize .maxPeriod (value .maxPeriod) buffer
      let buffer ← writeValue floatToText prvLinkBufferSize .greaterThan (value .greaterThan) buffer
      let buffer ← writeValue floatToText prvLinkBufferSize .lessThan (value .lessThan) buffer
      writeValue floatToText prvLinkBufferSize .step (value .step) buffer) := by
  rw [Attribute.all, attributesText_cons]
  refine Option.bind_congr fun b₁ _ => ?_
  rw [attributesText_cons]
  refine Option.bind_congr fun b₂ _ => ?_
  rw [attributesText_cons]
  refine Option.bind_congr fun b₃ _ => ?_
  rw [attributesText_cons]
  refine Option.bind_congr fun b₄ _ => ?_
  rw [attributesText_cons]
  exact Option.bind_fun_some _

/-- The ',' behind a text that leaves room for it. -/
theorem bind_prvConcatStr (o : Option (List Byte)) :
    (o >>= prvConcatStr prvLinkBufferSize [0x2C]) =
      (o.filter (·.length < prvLinkBufferSize)).map (· ++ [0x2C]) := by
  cases o with
  | none => rfl
  | some text =>
    change prvConcatStr prvLinkBufferSize [0x2C] text = _
    unfold prvConcatStr
    rw [List.length_singleton, Option.filter_some]
    by_cases h : text.length < prvLinkBufferSize
    · rw [if_neg (by omega), if_pos (decide_eq_true h)]
      rfl
    · rw [if_pos (by omega), if_neg (by simpa using h)]
      rfl

/-- **What `prv_serializeAttributes` writes**: the attributes that are reported, and the ','. -/
theorem prvSerializeAttributes_eq {uriP : Uri} {serverP : ServerRef}
    (hresource : prvFindAttributes observedList uriP (some serverP) = l.resource)
    (hroom : buffer.length < prvLinkBufferSize) :
    prvSerializeAttributes floatToText observedList uriP (some serverP)
        (mergedParam l.object l.instance_) buffer prvLinkBufferSize =
      ((attributesText floatToText l.reported Attribute.all buffer).filter
        (·.length < prvLinkBufferSize)).map (· ++ [0x2C]) := by
  rw [← bind_prvConcatStr, attributesText_all]
  unfold prvSerializeAttributes
  rw [hresource]
  unfold Levels.reported
  generalize hmerged : mergedParam l.object l.instance_ = merged
  rcases l.resource with _ | p
  · rcases merged with _ | o
    · change some (buffer ++ [0x2C]) = prvConcatStr prvLinkBufferSize [0x2C] buffer
      exact (if_neg (by rw [List.length_singleton]; omega)).symm
    · have hself (a : Attribute) : ((setAt a (some o)).orElse fun _ => setAt a (some o)) =
          setAt a (some o) := by
        cases setAt a (some o) <;> rfl
      simp only [Option.orElse_none, writeOrInherit_eq, writeIfSet_eq, hself, Option.bind_eq_bind,
        Option.bind_assoc]
  · simp only [Option.orElse_some, writeOrInherit_eq, writeIfSet_eq, Option.bind_eq_bind,
      Option.bind_assoc, Attribute.IsPeriod, true_or, or_true, if_true]
    rfl

/-! ### What can be read back -/

/-- The texts of the numbers hold no ';'. -/
def PlainTexts (floatToText : Double → ℕ → Option (List Byte)) : Prop :=
  ∀ value length text, floatToText value length = some text → 0x3B ∉ text

theorem separator_not_mem (hplain : PlainTexts floatToText) {length : ℕ}
    (h : valueToText floatToText v length = some text) : 0x3B ∉ a.str ++ text := by
  have hstr : 0x3B ∉ a.str := by cases a <;> decide
  refine fun hmem => (List.mem_append.mp hmem).elim hstr ?_
  cases v with
  | threshold value => exact hplain value length text h
  | period value =>
    have htext : text = decimal value.toNat := by
      rw [valueToText, utilsIntToText_natCast, utilsUintToText_eq] at h
      split_ifs at h
      exact (Option.some.inj h).symm
    rw [htext]
    exact fun hmem => absurd (isDigit_of_mem_decimal hmem) (by decide)

/-- The texts of the attributes stand one behind the other, each behind a ';'. -/
theorem attributesText_pieces (hplain : PlainTexts floatToText)
    (h : attributesText floatToText value attributes buffer = some text) :
    ∃ pieces, text = buffer ++ joined 0x3B pieces ∧ (∀ p ∈ pieces, 0x3B ∉ p) ∧
      ∀ p ∈ pieces.head?, ∃ a ∈ attributes, a.str <+: p := by
  induction attributes generalizing buffer with
  | nil =>
    cases h
    exact ⟨[], (List.append_nil _).symm, fun _ h => absurd h List.not_mem_nil, nofun⟩
  | cons a attributes ih =>
    rw [attributesText_cons] at h
    obtain ⟨b, hb, h⟩ := Option.bind_eq_some_iff.mp h
    obtain ⟨pieces, rfl, hpieces, hhead⟩ := ih h
    cases hvalue : value a with
    | none =>
      rw [hvalue] at hb
      cases hb
      refine ⟨pieces, rfl, hpieces, fun p hp => ?_⟩
      obtain ⟨a', ha', hkey⟩ := hhead p hp
      exact ⟨a', List.mem_cons_of_mem _ ha', hkey⟩
    | some v =>
      rw [hvalue] at hb
      obtain ⟨t, ht, rfl⟩ := writeAttribute_eq_some hb
      refine ⟨(a.str ++ t) :: pieces, ?_, List.forall_mem_cons.mpr
        ⟨separator_not_mem hplain ht, hpieces⟩, ?_⟩
      · rw [joined_cons, List.append_assoc, List.cons_append]
      · rintro p ⟨⟩
        exact ⟨a, List.mem_cons_self, List.prefix_append _ _⟩

theorem Attribute.str_unique {b : Attribute} {data : List Byte} (ha : a.str <+: data)
    (hb : b.str <+: data) : a = b :=
  name_unique (a.name_prefix_str.trans ha) (b.name_prefix_str.trans hb)

/-- The first attribute can be read back. -/
theorem writeValue_unique (hplain : PlainTexts floatToText) (ha : a ∉ attributes)
    {o o' : Option AttributeValue}
    (hb : writeValue floatToText prvLinkBufferSize a o buffer = some b)
    (hb' : writeValue floatToText prvLinkBufferSize a o' buffer = some b')
    (h : attributesText floatToText value attributes b = some text)
    (h' : attributesText floatToText value' attributes b' = some text) : b = b' := by
  obtain ⟨pieces, htext, hpieces, hhead⟩ := attributesText_pieces hplain h
  obtain ⟨pieces', htext', hpieces', hhead'⟩ := attributesText_pieces hplain h'
  have hinj {l l' : List (List Byte)} (hl : ∀ p ∈ l, 0x3B ∉ p) (hl' : ∀ p ∈ l', 0x3B ∉ p)
      (h : joined 0x3B l = joined 0x3B l') : l = l' :=
    (joined_append_inj (· = 0x3B) rfl (fun p hp b hb hstop => hl p hp (hstop ▸ hb))
      (fun p hp b hb hstop => hl' p hp (hstop ▸ hb)) (nofun : ∀ b ∈ ([] : List Byte).head?, _)
      (nofun : ∀ b ∈ ([] : List Byte).head?, _) (by rw [List.append_nil, List.append_nil, h])).1
  -- An attribute on one side only is taken for one of those behind it.
  have hmissing {t : List Byte} {ps qs : List (List Byte)} (ht : 0x3B ∉ a.str ++ t)
      (hps : ∀ p ∈ ps, 0x3B ∉ p) (hqs : ∀ p ∈ qs, 0x3B ∉ p)
      (hhead : ∀ p ∈ qs.head?, ∃ a ∈ attributes, a.str <+: p) :
      buffer ++ 0x3B :: (a.str ++ t) ++ joined 0x3B ps ≠ buffer ++ joined 0x3B qs := by
    intro heq
    rw [List.append_assoc, List.cons_append] at heq
    have hcons : (a.str ++ t) :: ps = qs := hinj (List.forall_mem_cons.mpr ⟨ht, hps⟩) hqs
      (List.append_cancel_left heq)
    obtain ⟨a', ha', hkey⟩ := hhead (a.str ++ t) (by rw [← hcons]; rfl)
    exact ha (Attribute.str_unique (List.prefix_append _ _) hkey ▸ ha')
  cases o with
  | none =>
    cases hb
    cases o' with
    | none =>
      cases hb'
      rfl
    | some v' =>
      obtain ⟨t', ht', rfl⟩ := writeAttribute_eq_some hb'
      exact absurd (htext'.symm.trans htext)
        (hmissing (separator_not_mem hplain ht') hpieces' hpieces hhead)
  | some v =>
    obtain ⟨t, ht, rfl⟩ := writeAttribute_eq_some hb
    cases o' with
    | none =>
      cases hb'
      exact absurd (htext.symm.trans htext')
        (hmissing (separator_not_mem hplain ht) hpieces hpieces' hhead')
    | some v' =>
      obtain ⟨t', ht', rfl⟩ := writeAttribute_eq_some hb'
      have heq := htext.symm.trans htext'
      rw [List.append_assoc, List.append_assoc, List.cons_append, List.cons_append] at heq
      have hcons : (a.str ++ t) :: pieces = (a.str ++ t') :: pieces' :=
        hinj (List.forall_mem_cons.mpr ⟨separator_not_mem hplain ht, hpieces⟩)
          (List.forall_mem_cons.mpr ⟨separator_not_mem hplain ht', hpieces'⟩)
          (List.append_cancel_left heq)
      rw [(List.cons.inj hcons).1]

/-- **Two lists of values have the same text** exactly when each attribute is written alike. -/
theorem attributesText_eq_iff (hplain : PlainTexts floatToText) (hnodup : attributes.Nodup)
    (h' : attributesText floatToText value' attributes buffer = some text) :
    attributesText floatToText value attributes buffer = some text ↔
      ∀ before a after b b', attributes = before ++ a :: after →
        attributesText floatToText value' before buffer = some b →
        writeValue floatToText prvLinkBufferSize a (value' a) b = some b' →
        writeValue floatToText prvLinkBufferSize a (value a) b = some b' := by
  induction attributes generalizing buffer with
  | nil => exact iff_of_true h' fun before a after b b' h => absurd h.symm (by simp)
  | cons a attributes ih =>
    obtain ⟨ha, hnodup⟩ := List.nodup_cons.mp hnodup
    rw [attributesText_cons] at h' ⊢
    obtain ⟨b₁, hb₁, h'⟩ := Option.bind_eq_some_iff.mp h'
    constructor
    · intro h before a' after b b' hsplit hbefore hb'
      obtain ⟨c₁, hc₁, h⟩ := Option.bind_eq_some_iff.mp h
      obtain rfl := writeValue_unique hplain ha hc₁ hb₁ h h'
      cases before with
      | nil =>
        cases hsplit
        cases hbefore
        rwa [← hb₁.symm.trans hb']
      | cons a'' before =>
        cases hsplit
        rw [attributesText_cons, hb₁] at hbefore
        exact (ih hnodup h').mp h before a' after b b' rfl hbefore hb'
    · intro h
      refine Option.bind_eq_some_iff.mpr ⟨b₁, h [] a attributes buffer b₁ rfl rfl hb₁, ?_⟩
      refine (ih hnodup h').mpr fun before a' after b b' hsplit hbefore hb' => ?_
      refine h (a :: before) a' after b b' (by rw [hsplit]; rfl) ?_ hb'
      rw [attributesText_cons, hb₁]
      exact hbefore

end

/-! ### The reply on a resource -/

section

variable {floatToText : Double → ℕ → Option (List Byte)}
  {discoverFunc : UInt16 → Option DiscoverCallback} {contextP : Context} {uriP : Uri}
  {serverP : ServerRef} {item : Data} {buffer text : List Byte} {bufferLen : ℕ}

/-- The URI of a resource. -/
structure IsResourceUri (uriP : Uri) : Prop where
  object : uriP.isSetObject
  instance_ : uriP.isSetInstance
  resource : uriP.isSetResource
  noResourceInstance : ¬ uriP.isSetResourceInstance

/-- The resource is there, and the discover callback of its object describes it. -/
structure DiscoversResource (discoverFunc : UInt16 → Option DiscoverCallback) (contextP : Context)
    (uriP : Uri) (item : Data) : Prop where
  described : ∃ targetP callback, listFind ObjectEntry.objID contextP.objectList uriP.objectId =
      some targetP ∧ discoverFunc targetP.objID = some callback ∧
    listFind id targetP.instanceList uriP.instanceId = some uriP.instanceId ∧
    callback uriP.instanceId [.mk uriP.resourceId .undefined [] []] = (coap205Content, [item])
  id_eq : item.id = uriP.resourceId
  not_object : item.type ≠ .object
  not_instance : item.type ≠ .objectInstance

theorem prvConcatStr_eq {str : List Byte} (h : buffer.length + str.length ≤ bufferLen) :
    prvConcatStr bufferLen str buffer = some (buffer ++ str) :=
  if_neg (by omega)

theorem concatInt_id (id : UInt16) (h : buffer.length + 5 ≤ bufferLen) :
    concatInt bufferLen id.toNat buffer = some (buffer ++ decimal id.toNat) := by
  unfold concatInt
  rw [utilsIntToText_id id (by omega)]
  rfl

theorem decimal_id_length (id : UInt16) : (decimal id.toNat).length ≤ 5 :=
  decimal_length_le (by decide) (Nat.lt_of_lt_of_le id.toNat_lt (by decide))

theorem instancePath_length (uriP : Uri) : (instancePath uriP).length ≤ 12 := by
  have hobject := decimal_id_length uriP.objectId
  have hinstance := decimal_id_length uriP.instanceId
  simp only [instancePath, List.length_append, List.length_cons]
  omega

theorem uriToString_instance (huri : IsResourceUri uriP) :
    uriToString (some { uriP with resourceId := lwm2mMaxId }) uriMaxStringLen =
      some (instancePath uriP) := by
  have hobject : ¬ ¬ ({ uriP with resourceId := lwm2mMaxId } : Uri).isSetObject :=
    not_not.mpr huri.object
  have hinstance : ¬ ¬ ({ uriP with resourceId := lwm2mMaxId } : Uri).isSetInstance :=
    not_not.mpr huri.instance_
  have hresource : ¬ ({ uriP with resourceId := lwm2mMaxId } : Uri).isSetResource :=
    fun h => h rfl
  have hlength := decimal_id_length uriP.objectId
  have hfirst : appendLevel uriMaxStringLen uriP.objectId [] =
      some (0x2F :: decimal uriP.objectId.toNat) := appendLevel_eq _ (by decide)
  have hsecond : appendLevel uriMaxStringLen uriP.instanceId
      (0x2F :: decimal uriP.objectId.toNat) = some (instancePath uriP) :=
    appendLevel_eq _ (by simp only [List.length_cons, uriMaxStringLen]; omega)
  unfold uriToString
  dsimp only
  rw [if_neg hobject, hfirst, Option.bind_eq_bind, Option.bind_some, if_neg hinstance, hsecond,
    Option.bind_some, if_pos hresource]
  rfl

/-- The link of a resource is far shorter than the buffer. -/
theorem resourceLink_length (uriP : Uri) (item : Data) :
    (resourceLink uriP item).length + 1 < prvLinkBufferSize := by
  have hpath := instancePath_length uriP
  have hid := decimal_id_length item.id
  have hcount := intText_length_le (BitVec.le_toInt (BitVec.ofNat 64 item.children.length))
    (BitVec.toInt_lt (x := BitVec.ofNat 64 item.children.length))
  unfold resourceLink prvLinkBufferSize
  split_ifs <;> simp only [List.length_append, List.length_cons, List.length_nil] <;> omega

/-- **What is written for a resource**: its link, and the attributes that are reported. -/
theorem serializeResource_eq
    (hresource : prvFindAttributes observedList uriP (some serverP) = l.resource)
    (hid : item.id = uriP.resourceId) :
    serializeResource floatToText observedList (some serverP) (mergedParam l.object l.instance_)
        { uriP with resourceId := lwm2mMaxId } (instancePath uriP) prvLinkBufferSize item.id
        item.type item.children.length =
      (discoverReport floatToText uriP item l.reported).map (· ++ [0x2C]) := by
  have hpath := instancePath_length uriP
  have hdecimal := decimal_id_length item.id
  have hroom := resourceLink_length uriP item
  have hlink : serializeResource floatToText observedList (some serverP)
      (mergedParam l.object l.instance_) { uriP with resourceId := lwm2mMaxId } (instancePath uriP)
      prvLinkBufferSize item.id item.type item.children.length =
      serializeFor floatToText observedList uriP (some serverP) (mergedParam l.object l.instance_)
        (resourceLink uriP item ++ [0x2C]) prvLinkBufferSize := by
    have hstart : prvConcatStr prvLinkBufferSize [0x3C] [] = some [0x3C] := rfl
    have hparent : prvConcatStr prvLinkBufferSize (instancePath uriP) [0x3C] =
        some (0x3C :: instancePath uriP) :=
      prvConcatStr_eq (by simp only [List.length_singleton, prvLinkBufferSize]; omega)
    have hsep : prvConcatStr prvLinkBufferSize [0x2F] (0x3C :: instancePath uriP) =
        some (0x3C :: instancePath uriP ++ [0x2F]) :=
      prvConcatStr_eq (by
        simp only [List.length_cons, List.length_nil, prvLinkBufferSize]
        omega)
    have hnumber : concatInt prvLinkBufferSize item.id.toNat (0x3C :: instancePath uriP ++ [0x2F]) =
        some (0x3C :: instancePath uriP ++ 0x2F :: decimal item.id.toNat) := by
      rw [concatInt_id _ (by
        simp only [List.length_append, List.length_cons, List.length_nil, prvLinkBufferSize]
        omega), List.append_assoc, List.singleton_append]
    unfold serializeResource
    simp only [hstart, hparent, hsep, hnumber, Option.bind_eq_bind, Option.bind_some]
    have huri : ({ uriP with resourceId := item.id } : Uri) = uriP := by rw [hid]
    rw [huri]
    have hlength : (0x3C :: instancePath uriP ++ 0x2F :: decimal item.id.toNat).length ≤ 19 := by
      simp only [List.length_append, List.length_cons]
      omega
    unfold resourceLink
    generalize 0x3C :: instancePath uriP ++ 0x2F :: decimal item.id.toNat = path at hlength ⊢
    split_ifs with hseveral
    · have hmin := BitVec.le_toInt (BitVec.ofNat 64 item.children.length)
      have hmax := BitVec.toInt_lt (x := BitVec.ofNat 64 item.children.length)
      have hcount := intText_length_le hmin hmax
      generalize (BitVec.ofNat 64 item.children.length).toInt = count at hmin hmax hcount ⊢
      have hdim : prvConcatStr prvLinkBufferSize [0x3E, 0x3B, 0x64, 0x69, 0x6D, 0x3D] path =
          some (path ++ [0x3E, 0x3B, 0x64, 0x69, 0x6D, 0x3D]) :=
        prvConcatStr_eq (Nat.le_trans (Nat.add_le_add_right hlength 6) (by decide))
      have hint : concatInt prvLinkBufferSize count (path ++ [0x3E, 0x3B, 0x64, 0x69, 0x6D, 0x3D]) =
          some (path ++ ([0x3E, 0x3B, 0x64, 0x69, 0x6D, 0x3D] ++ intText count)) := by
        unfold concatInt
        rw [utilsIntToText_eq hmin hmax (by
          simp only [List.length_append, List.length_cons, List.length_nil, prvLinkBufferSize]
          omega), ← List.append_assoc]
        rfl
      have hend : prvConcatStr prvLinkBufferSize [0x2C]
          (path ++ ([0x3E, 0x3B, 0x64, 0x69, 0x6D, 0x3D] ++ intText count)) =
          some (path ++ ([0x3E, 0x3B, 0x64, 0x69, 0x6D, 0x3D] ++ intText count) ++ [0x2C]) :=
        prvConcatStr_eq (by
          simp only [List.length_append, List.length_cons, List.length_nil, prvLinkBufferSize]
          omega)
      rw [hdim, Option.bind_some, hint, Option.bind_some, hend, Option.bind_some]
    · have hend : prvConcatStr prvLinkBufferSize [0x3E, 0x2C] path =
          some (path ++ [0x3E] ++ [0x2C]) := by
        rw [prvConcatStr_eq (Nat.le_trans (Nat.add_le_add_right hlength 2) (by decide)),
          List.append_assoc]
        rfl
      rw [hend, Option.bind_some]
  rw [hlink]
  unfold serializeFor discoverReport
  rw [List.dropLast_concat]
  exact prvSerializeAttributes_eq hresource (Nat.lt_of_succ_lt hroom)

variable {value : Attribute → Option AttributeValue}

/-- A report starts with the link. -/
theorem discoverReport_ne_nil (hplain : PlainTexts floatToText)
    (h : discoverReport floatToText uriP item value = some text) : text ≠ [] := by
  obtain ⟨htext, -⟩ := Option.filter_eq_some_iff.mp h
  obtain ⟨pieces, rfl, -⟩ := attributesText_pieces hplain htext
  exact List.cons_ne_nil _ _

/-- **The reply on a resource** is its link with the attributes that are reported. -/
theorem objectDiscover_resource (hplain : PlainTexts floatToText) (huri : IsResourceUri uriP)
    (hitem : DiscoversResource discoverFunc contextP uriP item) :
    objectDiscover floatToText discoverFunc contextP uriP (some serverP) =
      match discoverReport floatToText uriP item
        (levels contextP.observedList uriP serverP).reported with
      | none => (coap500InternalServerError, [])
      | some text => (coap205Content, text) := by
  obtain ⟨⟨targetP, callback, hobject, hcallback, hinstance, hcontent⟩, hid, hobj, hinst⟩ := hitem
  have hdata : discoverData targetP callback uriP = (coap205Content, [item]) := by
    unfold discoverData
    rw [if_pos huri.instance_, hinstance]
    dsimp only
    rw [if_pos huri.resource, hcontent]
  have hlink : prvSerializeLinkData floatToText contextP.observedList (some serverP)
      (mergedParam (levels contextP.observedList uriP serverP).object
        (levels contextP.observedList uriP serverP).instance_)
      { uriP with resourceId := lwm2mMaxId } (instancePath uriP) prvLinkBufferSize item =
      (discoverReport floatToText uriP item
        (levels contextP.observedList uriP serverP).reported).map (· ++ [0x2C]) := by
    rw [← serializeResource_eq rfl hid]
    obtain ⟨id, type, bytes, children⟩ := item
    cases type <;> first | exact absurd rfl hobj | exact absurd rfl hinst | rfl
  have hserialize : discoverSerialize floatToText contextP.observedList uriP (some serverP) [item] =
      discoverReport floatToText uriP item
        (levels contextP.observedList uriP serverP).reported := by
    unfold discoverSerialize
    dsimp only
    rw [if_pos huri.resource, uriToString_instance huri]
    change (serializeLinks _ _ _ (mergedParam (levels contextP.observedList uriP serverP).object
      (levels contextP.observedList uriP serverP).instance_) _ _ [] [item] >>=
        fun text => some text.dropLast) = _
    rw [serializeLinks, if_pos (by decide)]
    change ((prvSerializeLinkData _ _ _ _ _ _ prvLinkBufferSize item >>= fun text => some text) >>=
      fun text => some text.dropLast) = _
    rw [hlink]
    cases discoverReport floatToText uriP item
      (levels contextP.observedList uriP serverP).reported with
    | none => rfl
    | some text => exact congrArg some List.dropLast_concat
  unfold objectDiscover
  rw [hobject]
  dsimp only
  rw [hcallback]
  dsimp only
  rw [hdata]
  rw [if_pos rfl, hserialize]
  cases hreport : discoverReport floatToText uriP item
    (levels contextP.observedList uriP serverP).reported with
  | none => rfl
  | some text =>
    cases text with
    | nil => exact absurd rfl (discoverReport_ne_nil hplain hreport)
    | cons b text => rfl

/-! ### When the attributes are the effective ones -/

/-- Two values have the same text where the attribute stands in the report of these values. -/
def WrittenAlike (floatToText : Double → ℕ → Option (List Byte))
    (value : Attribute → Option AttributeValue) (link : List Byte) (a : Attribute)
    (v v' : AttributeValue) : Prop :=
  ∀ before after buffer, Attribute.all = before ++ a :: after →
    attributesText floatToText value before link = some buffer →
    valueToText floatToText v (spaceBehind a prvLinkBufferSize buffer) =
      valueToText floatToText v' (spaceBehind a prvLinkBufferSize buffer)

/-- The condition for a threshold or the step: where the resource has attributes, it sets this one
or no level above does; where it has none, the object and the instance do not both have attributes,
or the value that is to be reported is written like 0. -/
def Levels.Inherits (floatToText : Double → ℕ → Option (List Byte)) (l : Levels) (link : List Byte)
    (a : Attribute) : Prop :=
  match l.resource with
  | some p => p.toSet &&& a.flag ≠ 0 ∨ setAt a l.instance_ = none ∧ setAt a l.object = none
  | none => l.object = none ∨ l.instance_ = none ∨ ∀ v, l.mostSpecific a = some v →
      WrittenAlike floatToText l.mostSpecific link a v (.threshold ⟨0⟩)

/-- One attribute is written as it is to be. -/
theorem Levels.writeValue_iff (l : Levels) (ha : ¬ a.IsPeriod)
    (hb : writeValue floatToText prvLinkBufferSize a (l.mostSpecific a) b = some b') :
    writeValue floatToText prvLinkBufferSize a (l.reported a) b = some b' ↔
      match l.resource with
      | some p => p.toSet &&& a.flag ≠ 0 ∨ setAt a l.instance_ = none ∧ setAt a l.object = none
      | none => l.object = none ∨ l.instance_ = none ∨ ∀ v, l.mostSpecific a = some v →
          valueToText floatToText v (spaceBehind a prvLinkBufferSize b) =
            valueToText floatToText (.threshold ⟨0⟩) (spaceBehind a prvLinkBufferSize b) := by
  obtain ⟨object, inst, resource⟩ := l
  unfold reported mostSpecific at *
  rcases resource with _ | p
  · dsimp only
    have hnone : setAt a none = none := rfl
    rw [hnone, Option.orElse_none] at hb ⊢
    rcases object with _ | o
    · have hsame : ((setAt a inst).orElse fun _ => setAt a none) = setAt a inst := by
        cases setAt a inst <;> rfl
      rw [hsame] at hb
      exact iff_of_true hb (.inl rfl)
    rcases inst with _ | i
    · exact iff_of_true hb (.inr (.inl rfl))
    rw [setAt_mergedParam_of_not_isPeriod ha, or_iff_right (Option.some_ne_none o),
      or_iff_right (Option.some_ne_none i)]
    cases hvalue : (setAt a (some i)).orElse fun _ => setAt a (some o) with
    | none =>
      rw [hvalue] at hb
      exact iff_of_true hb fun v hv => by cases hv
    | some v =>
      rw [hvalue] at hb
      refine (writeAttribute_eq_iff hb).trans ?_
      constructor
      · rintro h v ⟨⟩
        exact h.symm
      · exact fun h => (h v rfl).symm
  · dsimp only
    rw [if_neg ha, setAt_some]
    rw [setAt_some] at hb
    by_cases hset : p.toSet &&& a.flag ≠ 0
    · rw [if_pos hset] at hb ⊢
      exact iff_of_true hb (.inl hset)
    rw [if_neg hset, Option.orElse_none] at hb
    rw [if_neg hset, or_iff_right hset]
    have hempty : ((setAt a inst).orElse fun _ => setAt a object) = none ↔
        setAt a inst = none ∧ setAt a object = none := by
      cases setAt a inst with
      | none => exact (and_iff_right rfl).symm
      | some v => exact iff_of_false (Option.some_ne_none v) fun h => Option.some_ne_none v h.1
    rw [← hempty]
    cases hvalue : (setAt a inst).orElse fun _ => setAt a object with
    | none =>
      rw [hvalue] at hb
      exact iff_of_true hb rfl
    | some v =>
      rw [hvalue] at hb
      refine iff_of_false ?_ (Option.some_ne_none v)
      obtain ⟨t, -, rfl⟩ := writeAttribute_eq_some hb
      intro h
      have hlength := congrArg List.length (Option.some.inj h)
      rw [List.length_append, List.length_cons] at hlength
      omega

/-- The attributes before one of the list are written, and so is that one. -/
theorem exists_written {attributes : List Attribute}
    (h : attributesText floatToText value attributes buffer = some text)
    {before after : List Attribute} (hsplit : attributes = before ++ a :: after) :
    ∃ b b', attributesText floatToText value before buffer = some b ∧
      writeValue floatToText prvLinkBufferSize a (value a) b = some b' := by
  subst hsplit
  induction before generalizing buffer with
  | nil =>
    rw [List.nil_append, attributesText_cons] at h
    obtain ⟨b', hb', -⟩ := Option.bind_eq_some_iff.mp h
    exact ⟨buffer, b', rfl, hb'⟩
  | cons a' before ih =>
    rw [List.cons_append, attributesText_cons] at h
    obtain ⟨b₁, hb₁, h⟩ := Option.bind_eq_some_iff.mp h
    obtain ⟨b, b', hb, hb'⟩ := ih h
    refine ⟨b, b', ?_, hb'⟩
    rw [attributesText_cons, hb₁]
    exact hb

/-- **When the reported attributes have the text of the effective ones.** -/
theorem Levels.discoverReport_iff (hplain : PlainTexts floatToText) (l : Levels)
    (h : discoverReport floatToText uriP item l.mostSpecific = some text) :
    discoverReport floatToText uriP item l.reported = some text ↔
      ∀ a : Attribute, ¬ a.IsPeriod → l.Inherits floatToText (resourceLink uriP item) a := by
  obtain ⟨htext, hroom⟩ := Option.filter_eq_some_iff.mp h
  unfold discoverReport
  rw [Option.filter_eq_some_iff, and_iff_left hroom,
    attributesText_eq_iff hplain (by decide) htext]
  have hplace {before after : List Attribute} {a : Attribute} (ha : ¬ a.IsPeriod) {b b' : List Byte}
      (hsplit : Attribute.all = before ++ a :: after)
      (hbefore : attributesText floatToText l.mostSpecific before (resourceLink uriP item) = some b)
      (hb' : writeValue floatToText prvLinkBufferSize a (l.mostSpecific a) b = some b')
      (hinherits : l.Inherits floatToText (resourceLink uriP item) a) :
      writeValue floatToText prvLinkBufferSize a (l.reported a) b = some b' := by
    refine (l.writeValue_iff ha hb').mpr ?_
    unfold Inherits at hinherits
    cases hresource : l.resource with
    | some p =>
      rw [hresource] at hinherits
      exact hinherits
    | none =>
      rw [hresource] at hinherits
      exact hinherits.imp id fun h => h.imp id fun h v hv => h v hv before after b hsplit hbefore
  constructor
  · intro hall a ha
    obtain ⟨before, after, hsplit⟩ := List.append_of_mem (show a ∈ Attribute.all by cases a <;> decide)
    unfold Inherits
    cases hresource : l.resource with
    | some p =>
      obtain ⟨b, b', hb, hb'⟩ := exists_written htext hsplit
      have hwritten := (l.writeValue_iff ha hb').mp (hall before a after b b' hsplit hb hb')
      rw [hresource] at hwritten
      exact hwritten
    | none =>
      refine or_iff_not_imp_left.mpr fun hobject => or_iff_not_imp_left.mpr fun hinst v hv => ?_
      intro before after b hsplit hb
      obtain ⟨c, b', hc, hb'⟩ := exists_written htext hsplit
      obtain rfl : b = c := Option.some.inj (hb.symm.trans hc)
      have hwritten := (l.writeValue_iff ha hb').mp (hall before a after b b' hsplit hb hb')
      rw [hresource] at hwritten
      exact (hwritten.resolve_left hobject).resolve_left hinst v hv
  · intro hall before a after b b' hsplit hbefore hb'
    by_cases ha : a.IsPeriod
    · rw [l.reported_of_isPeriod ha]
      exact hb'
    · exact hplace ha hsplit hbefore hb' (hall a ha)

/-- **When Discover reports the effective attributes of a resource.** -/
theorem objectDiscover_effective_iff (hplain : PlainTexts floatToText) (huri : IsResourceUri uriP)
    (hitem : DiscoversResource discoverFunc contextP uriP item) :
    (∃ text, objectDiscover floatToText discoverFunc contextP uriP (some serverP) =
        (coap205Content, text) ∧
      discoverReport floatToText uriP item
        (levels contextP.observedList uriP serverP).mostSpecific = some text) ↔
    (discoverReport floatToText uriP item
        (levels contextP.observedList uriP serverP).mostSpecific).isSome = true ∧
      ∀ a : Attribute, ¬ a.IsPeriod → (levels contextP.observedList uriP serverP).Inherits
        floatToText (resourceLink uriP item) a := by
  rw [objectDiscover_resource hplain huri hitem]
  cases h : discoverReport floatToText uriP item
    (levels contextP.observedList uriP serverP).mostSpecific with
  | none =>
    refine iff_of_false ?_ fun h => Bool.false_ne_true h.1
    rintro ⟨text, -, htext⟩
    cases htext
  | some text =>
    rw [← Levels.discoverReport_iff hplain _ h]
    cases hreport : discoverReport floatToText uriP item
      (levels contextP.observedList uriP serverP).reported with
    | none =>
      refine iff_of_false ?_ fun h => by cases h.2
      rintro ⟨text', heq, -⟩
      cases congrArg Prod.fst heq
    | some text' =>
      constructor
      · rintro ⟨text'', heq, htext⟩
        cases htext
        exact ⟨rfl, congrArg some (congrArg Prod.snd heq)⟩
      · rintro ⟨-, heq⟩
        cases heq
        exact ⟨text, rfl, rfl⟩

/-- The text "20.0" of 20, and "0.0" of 0. -/
def thresholdText (value : Double) (length : ℕ) : Option (List Byte) :=
  if length < 4 then none
  else if value = ⟨0x4034000000000000⟩ then some [0x32, 0x30, 0x2E, 0x30]
  else if value = ⟨0⟩ then some [0x30, 0x2E, 0x30]
  else none

theorem plainTexts_thresholdText : PlainTexts thresholdText := by
  intro value length text h
  unfold thresholdText at h
  split_ifs at h <;> cases h <;> decide

/-- The battery level of the device object. -/
def batteryUri : Uri := { objectId := 3, instanceId := 0, resourceId := 9 }

/-- The attribute gt=20 on a level. -/
def aboveTwenty (uri : Uri) : Observed :=
  ⟨uri, [{ server := 0
           parameters := some ⟨attrFlagGreaterThan, 0, 0, 0, ⟨0x4034000000000000⟩, ⟨0⟩, ⟨0⟩⟩ }]⟩

/-- The attribute pmin=10 on the device instance. -/
def tenSeconds : Observed :=
  ⟨{ objectId := 3, instanceId := 0 },
    [{ server := 0, parameters := some ⟨attrFlagMinPeriod, 0, 10, 0, ⟨0⟩, ⟨0⟩, ⟨0⟩⟩ }]⟩

/-- A device with these observations. -/
def deviceContext (observedList : List Observed) : Context :=
  { objectList := [{ objID := 3, instanceList := [0] }], observedList }

/-- A device object that describes its resources as they are asked for. -/
def deviceDiscover (_ : UInt16) : Option DiscoverCallback :=
  some fun _ dataP => (coap205Content, dataP)

theorem batteryUri_isResourceUri : IsResourceUri batteryUri :=
  ⟨by decide, by decide, by decide, by decide⟩

theorem batteryUri_described (observedList : List Observed) :
    DiscoversResource deviceDiscover (deviceContext observedList) batteryUri
      (.mk 9 .undefined [] []) :=
  ⟨⟨_, _, rfl, rfl, rfl, rfl⟩, rfl, by decide, by decide⟩

/-- A threshold of the object is reported when only the object has attributes. -/
theorem objectThreshold_reported : ∃ text,
    objectDiscover thresholdText deviceDiscover (deviceContext [aboveTwenty { objectId := 3 }])
      batteryUri (some 0) = (coap205Content, text) ∧
    discoverReport thresholdText batteryUri (.mk 9 .undefined [] [])
      (levels [aboveTwenty { objectId := 3 }] batteryUri 0).mostSpecific = some text := by
  refine (objectDiscover_effective_iff plainTexts_thresholdText batteryUri_isResourceUri
    (batteryUri_described _)).mpr ⟨by decide +kernel, fun a _ => .inr (.inl rfl)⟩

/-- **A threshold becomes 0.**  When the instance has a minimum period too, the reply is
`</3/0/9>;pmin=10;gt=0.0`, not `</3/0/9>;pmin=10;gt=20.0`. -/
theorem objectThreshold_reported_zero :
    objectDiscover thresholdText deviceDiscover
      (deviceContext [aboveTwenty { objectId := 3 }, tenSeconds]) batteryUri (some 0) =
        (coap205Content, [0x3C, 0x2F, 0x33, 0x2F, 0x30, 0x2F, 0x39, 0x3E, 0x3B, 0x70, 0x6D, 0x69,
          0x6E, 0x3D, 0x31, 0x30, 0x3B, 0x67, 0x74, 0x3D, 0x30, 0x2E, 0x30]) ∧
    discoverReport thresholdText batteryUri (.mk 9 .undefined [] [])
      (levels [aboveTwenty { objectId := 3 }, tenSeconds] batteryUri 0).mostSpecific =
        some [0x3C, 0x2F, 0x33, 0x2F, 0x30, 0x2F, 0x39, 0x3E, 0x3B, 0x70, 0x6D, 0x69, 0x6E, 0x3D,
          0x31, 0x30, 0x3B, 0x67, 0x74, 0x3D, 0x32, 0x30, 0x2E, 0x30] ∧
    ¬ ∃ text, objectDiscover thresholdText deviceDiscover
        (deviceContext [aboveTwenty { objectId := 3 }, tenSeconds]) batteryUri (some 0) =
          (coap205Content, text) ∧
      discoverReport thresholdText batteryUri (.mk 9 .undefined [] [])
        (levels [aboveTwenty { objectId := 3 }, tenSeconds] batteryUri 0).mostSpecific =
          some text := by
  refine ⟨by decide +kernel, by decide +kernel, ?_⟩
  rintro ⟨text, hreply, hreport⟩
  have hsame : discoverReport thresholdText batteryUri (.mk 9 .undefined [] [])
      (levels [aboveTwenty { objectId := 3 }, tenSeconds] batteryUri 0).mostSpecific =
        some (objectDiscover thresholdText deviceDiscover
          (deviceContext [aboveTwenty { objectId := 3 }, tenSeconds]) batteryUri (some 0)).2 := by
    rw [hreport, hreply]
  revert hsame
  decide +kernel

end

end Lwm2m.Core

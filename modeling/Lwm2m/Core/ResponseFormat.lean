/-
# The format of a response

A GET is answered in a format that three functions have a say in: `dm_handleRequest` starts from the
Content-Format of the request, `utils_getResponseFormat` takes the first entry of the Accept list
that fits, and `lwm2m_data_serialize` replaces a plain format that does not fit the data.

What the formats are made of is left to the serializers of the single formats (`Serializers`), which
may refuse the data.  The negotiation ends in a format that is compiled in and accepted exactly when
the format it settles on represents the data (`responseFormat_servable_iff`).
-/

import Lwm2m.Codec.Tree
import Lwm2m.Core.Management

namespace Lwm2m.Core

open Coap Code Codec

/-! ### Formats -/

/-- `lwm2m_media_type_t`. -/
inductive MediaType
  | text
  | link
  | octetStream
  | tlvOld
  | tlv
  | jsonOld
  | json
  | senmlJson
  deriving DecidableEq, Repr

/-- The number of a format. -/
def MediaType.number : MediaType → UInt16
  | text => 0
  | link => 40
  | octetStream => 42
  | tlvOld => 1542
  | tlv => 11542
  | jsonOld => 1543
  | json => 11543
  | senmlJson => 110

/-- The formats that are compiled in: `LWM2M_SUPPORT_TLV`, `LWM2M_SUPPORT_JSON`,
`LWM2M_SUPPORT_SENML_JSON`, and `LWM2M_OLD_CONTENT_FORMAT_SUPPORT` for the old numbers. -/
structure FormatSupport where
  tlv : Bool
  json : Bool
  senmlJson : Bool
  oldFormats : Bool
  deriving DecidableEq, Repr

namespace FormatSupport

/-- Whether a format is compiled in. -/
def includes (support : FormatSupport) : MediaType → Bool
  | .text | .link | .octetStream => true
  | .tlvOld => support.tlv && support.oldFormats
  | .tlv => support.tlv
  | .jsonOld => support.json && support.oldFormats
  | .json => support.json
  | .senmlJson => support.senmlJson

/-- `utils_convertMediaType`. -/
def utilsConvertMediaType (support : FormatSupport) (type : UInt16) : MediaType :=
  match type with
  | 0 => .text
  | 42 => .octetStream
  | 1542 => if support.oldFormats then .tlvOld else .text
  | 11542 => .tlv
  | 1543 => if support.oldFormats then .jsonOld else .text
  | 11543 => .json
  | 110 => .senmlJson
  | 40 => .link
  | _ => .text

/-- The format for data that no plain format fits, if one is compiled in. -/
def containerFormat (support : FormatSupport) : Option MediaType :=
  if support.senmlJson then some .senmlJson
  else if support.json then some .json
  else if support.tlv then some .tlv
  else none

/-- An entry of the Accept list in `utils_getResponseFormat`. -/
def acceptable (support : FormatSupport) (singular : Bool) (type : UInt16) : Option MediaType :=
  match type with
  | 0 => if singular then some .text else none
  | 42 => if singular then some .octetStream else none
  | 1542 => if support.includes .tlvOld then some .tlvOld else none
  | 11542 => if support.includes .tlv then some .tlv else none
  | 1543 => if support.includes .jsonOld then some .jsonOld else none
  | 11543 => if support.includes .json then some .json else none
  | 110 => if support.includes .senmlJson then some .senmlJson else none
  | _ => none

end FormatSupport

/-- Whether the data is one item with items below it. -/
def isOneContainer : List Tree → Bool
  | [.container _ _ _] => true
  | _ => false

/-- `utils_getResponseFormat`. -/
def utilsGetResponseFormat (support : FormatSupport) (accept : List UInt16) (dataP : List Tree)
    (singleResource : Bool) : Code × MediaType :=
  let singular := if isOneContainer dataP then false else singleResource
  if accept ≠ [] then
    match accept.findSome? (support.acceptable singular) with
    | some format => (coap205Content, format)
    | none => (coap406NotAcceptable, .text)
  else
    match support.containerFormat with
    | some format => (coap205Content, format)
    | none => (coap500InternalServerError, .text)

/-! ### Serializing -/

/-- What the serializers make of the data: `prv_textSerialize`, `tlv_serialize`, `json_serialize`,
`senml_json_serialize` and `discover_serialize`; `none` stands for a negative result. -/
structure Serializers where
  text : Tree → Option (List Byte)
  tlv : Bool → List Tree → Option (List Byte)
  json : Uri → List Tree → Option (List Byte)
  senmlJson : Uri → List Tree → Option (List Byte)
  link : Uri → List Tree → Option (List Byte)

/-- The `id` of an item. -/
def treeId : Tree → UInt16
  | .leaf id _ => id
  | .container id _ _ => id

/-- The data is one item with the identifier. -/
def IsItem (id : UInt16) (dataP : List Tree) : Prop := dataP.map treeId = [id]

instance (id : UInt16) (dataP : List Tree) : Decidable (IsItem id dataP) :=
  inferInstanceAs (Decidable (_ = _))

/-- The check of the format in `lwm2m_data_serialize`: a plain format fits one item that is the
value of a resource. -/
def IsPlain (uriP : Uri) (dataP : List Tree) : Prop :=
  dataP.length = 1 ∧ uriP.isSetResource ∧ isOneContainer dataP = false

instance (uriP : Uri) (dataP : List Tree) : Decidable (IsPlain uriP dataP) :=
  inferInstanceAs (Decidable (_ ∧ _ ∧ _))

/-- The format that `lwm2m_data_serialize` settles on. -/
def finalFormat (support : FormatSupport) (uriP : Uri) (dataP : List Tree) (format : MediaType) :
    Option MediaType :=
  if (format = .text ∨ format = .octetStream) ∧ ¬ IsPlain uriP dataP then support.containerFormat
  else some format

/-- `lwm2m_data_serialize` in TLV. -/
def serializeTlv (serializers : Serializers) (uriP : Uri) (dataP : List Tree) :
    Option (List Byte) :=
  if uriP.isSetResourceInstance then
    if IsItem uriP.resourceInstanceId dataP then serializers.tlv true dataP else none
  else serializers.tlv (decide (uriP.isSetResource ∧ ¬ IsItem uriP.resourceId dataP)) dataP

/-- `lwm2m_data_serialize` in the format that is settled on. -/
def serializeAs (support : FormatSupport) (serializers : Serializers) (uriP : Uri)
    (dataP : List Tree) (format : MediaType) : Option (List Byte) :=
  if support.includes format then
    match format with
    | .text => dataP.head?.bind serializers.text
    | .octetStream =>
      match dataP with
      | .leaf _ (.opaqueBytes value) :: _ => some value
      | _ => none
    | .tlvOld | .tlv => serializeTlv serializers uriP dataP
    | .link => serializers.link uriP dataP
    | .jsonOld | .json => serializers.json uriP dataP
    | .senmlJson => serializers.senmlJson uriP dataP
  else none

/-- `lwm2m_data_serialize`: the format that is used, and the payload. -/
def lwm2mDataSerialize (support : FormatSupport) (serializers : Serializers) (uriP : Uri)
    (dataP : List Tree) (format : MediaType) : Option (MediaType × List Byte) := do
  let format ← finalFormat support uriP dataP format
  let buffer ← serializeAs support serializers uriP dataP format
  return (format, buffer)

/-! ### Requests -/

/-- The answer to a GET: its code, and the Content-Format and the payload of the response. -/
structure FormatAnswer where
  code : Code
  format : Option MediaType := none
  payload : List Byte := []
  deriving DecidableEq, Repr

/-- The end of a GET whose format is negotiated. -/
def serializeAnswer (support : FormatSupport) (serializers : Serializers) (uriP : Uri)
    (dataP : List Tree) (format : MediaType) : FormatAnswer :=
  match lwm2mDataSerialize support serializers uriP dataP format with
  | some (format, buffer) => ⟨coap205Content, some format, buffer⟩
  | none => { code := coap500InternalServerError }

/-- `object_read`, where `object_readData` returns `readData`. -/
def objectRead (support : FormatSupport) (serializers : Serializers) (readData : Code × List Tree)
    (uriP : Uri) (accept : List UInt16) (format : MediaType) : FormatAnswer :=
  if readData.1 = coap205Content then
    if accept ≠ [] then
      let (result, format) :=
        utilsGetResponseFormat support accept readData.2 (decide uriP.isSetResource)
      if result = coap205Content then
        serializeAnswer support serializers uriP readData.2 format
      else { code := result }
    else serializeAnswer support serializers uriP readData.2 format
  else { code := readData.1 }

/-- What `dm_handleRequest` reads of a GET: whether it has an Observe option, its Content-Format if
it has one, and its Accept list. -/
structure GetRequest where
  observe : Bool
  contentType : Option UInt16
  accept : List UInt16
  deriving DecidableEq, Repr

/-- A GET with an Observe option, where `observe_handleRequest` returns `observed`. -/
def observedGet (support : FormatSupport) (serializers : Serializers) (readData : Code × List Tree)
    (uriP : Uri) (accept : List UInt16) (observed : Code) : FormatAnswer :=
  if readData.1 = coap205Content then
    let (result, format) :=
      utilsGetResponseFormat support accept readData.2 (decide uriP.isSetResource)
    if result = coap205Content then
      if observed = coap205Content then
        serializeAnswer support serializers uriP readData.2 format
      else ⟨observed, some format, []⟩
    else { code := result }
  else { code := readData.1 }

/-- The request asks for a Discover. -/
def GetRequest.IsDiscover (request : GetRequest) : Prop :=
  request.observe = false ∧ request.accept = [40]

instance (request : GetRequest) : Decidable request.IsDiscover :=
  inferInstanceAs (Decidable (_ ∧ _))

/-- The GET of `dm_handleRequest`, where `object_discover` returns `discovered`. -/
def dmHandleGet (support : FormatSupport) (serializers : Serializers) (readData : Code × List Tree)
    (uriP : Uri) (request : GetRequest) (observed : Code) (discovered : Code × List Byte) :
    FormatAnswer :=
  let format := (request.contentType.map support.utilsConvertMediaType).getD .tlv
  if request.observe then observedGet support serializers readData uriP request.accept observed
  else if request.IsDiscover then
    if discovered.1 = coap205Content then ⟨coap205Content, some .link, discovered.2⟩
    else { code := discovered.1 }
  else objectRead support serializers readData uriP request.accept format

/-! ### Servable formats -/

/-- **An answer in a servable format**: a payload in a format that is compiled in and accepted, or
`4.06`. -/
def IsServable (support : FormatSupport) (accept : List UInt16) (answer : FormatAnswer) : Prop :=
  (answer.code = coap205Content ∧ ∃ format, answer.format = some format ∧
      support.includes format = true ∧ (accept ≠ [] → format.number ∈ accept)) ∨
    answer.code = coap406NotAcceptable

/-- A format represents the data: the data is what a plain format is for, the resource instance is
the one that TLV looks for, and the serializer of the format takes it. -/
def FormatRepresents (support : FormatSupport) (serializers : Serializers) (uriP : Uri)
    (dataP : List Tree) : MediaType → Prop
  | .text => ∃ item, dataP = [item] ∧ (serializers.text item).isSome
  | .octetStream => ∃ id value, dataP = [.leaf id (.opaqueBytes value)]
  | .tlvOld => support.includes .tlvOld = true ∧ (serializeTlv serializers uriP dataP).isSome
  | .tlv => support.includes .tlv = true ∧ (serializeTlv serializers uriP dataP).isSome
  | .link => (serializers.link uriP dataP).isSome
  | .jsonOld => support.includes .jsonOld = true ∧ (serializers.json uriP dataP).isSome
  | .json => support.includes .json = true ∧ (serializers.json uriP dataP).isSome
  | .senmlJson => support.includes .senmlJson = true ∧ (serializers.senmlJson uriP dataP).isSome

/-- The format that is chosen for a request before the data is serialized, if any. -/
def chosenFormat (support : FormatSupport) (request : GetRequest) (uriP : Uri)
    (dataP : List Tree) : Option MediaType :=
  if request.accept ≠ [] then
    request.accept.findSome?
      (support.acceptable (!isOneContainer dataP && decide uriP.isSetResource))
  else if request.observe then support.containerFormat
  else some ((request.contentType.map support.utilsConvertMediaType).getD .tlv)

/-- The negotiation ends well: nothing that is accepted fits, or the format that is settled on is
accepted and represents the data. -/
def SettlesWell (support : FormatSupport) (serializers : Serializers) (request : GetRequest)
    (uriP : Uri) (dataP : List Tree) : Prop :=
  (request.accept ≠ [] ∧ chosenFormat support request uriP dataP = none) ∨
    ∃ chosen format, chosenFormat support request uriP dataP = some chosen ∧
      finalFormat support uriP dataP chosen = some format ∧
      (request.accept ≠ [] → format.number ∈ request.accept) ∧
      FormatRepresents support serializers uriP dataP format

/-- **The negotiation ends in a servable format**, of a GET for readable data whose observation, if
it asks for one, is taken. -/
def NegotiatesWell (support : FormatSupport) (serializers : Serializers) (request : GetRequest)
    (uriP : Uri) (dataP : List Tree) : Prop :=
  request.IsDiscover ∨ ∀ discovered, IsServable support request.accept
    (dmHandleGet support serializers (coap205Content, dataP) uriP request coap205Content discovered)

section

variable {support : FormatSupport} {serializers : Serializers} {uriP : Uri} {dataP : List Tree}
  {format : MediaType} {accept : List UInt16}

/-- The format for containers is compiled in, and is not plain. -/
theorem containerFormat_spec (h : support.containerFormat = some format) :
    support.includes format = true ∧ format ≠ .text ∧ format ≠ .octetStream := by
  unfold FormatSupport.containerFormat at h
  split_ifs at h with hsenml hjson htlv
  · cases h
    exact ⟨hsenml, by decide, by decide⟩
  · cases h
    exact ⟨hjson, by decide, by decide⟩
  · cases h
    exact ⟨htlv, by decide, by decide⟩

/-- A plain format is kept for plain data only. -/
theorem isPlain_of_finalFormat {chosen : MediaType}
    (h : finalFormat support uriP dataP chosen = some format)
    (hplain : format = .text ∨ format = .octetStream) : IsPlain uriP dataP := by
  unfold finalFormat at h
  split_ifs at h with hfits
  · exact absurd hplain (not_or.mpr (containerFormat_spec h).2)
  · cases h
    exact not_not.mp fun hnot => hfits ⟨hplain, hnot⟩

/-- **The format that is settled on serializes the data** when it represents them. -/
theorem serializeAs_isSome_iff
    (hplain : format = .text ∨ format = .octetStream → IsPlain uriP dataP) :
    (serializeAs support serializers uriP dataP format).isSome ↔
      FormatRepresents support serializers uriP dataP format := by
  have hone (h : IsPlain uriP dataP) : ∃ item, dataP = [item] := List.length_eq_one_iff.mp h.1
  have hincluded {buffer : Option (List Byte)} :
      (if support.includes format = true then buffer else none).isSome ↔
        support.includes format = true ∧ buffer.isSome = true := by
    split_ifs with h
    · exact (and_iff_right h).symm
    · exact iff_of_false Bool.false_ne_true fun hand => h hand.1
  unfold serializeAs
  rw [hincluded]
  cases format with
  | text =>
    obtain ⟨item, rfl⟩ := hone (hplain (.inl rfl))
    refine (and_iff_right rfl).trans ⟨fun h => ⟨item, rfl, h⟩, ?_⟩
    rintro ⟨_, hitem, h⟩
    cases hitem
    exact h
  | octetStream =>
    obtain ⟨item, rfl⟩ := hone (hplain (.inr rfl))
    refine (and_iff_right rfl).trans ⟨fun h => ?_, ?_⟩
    · dsimp only at h
      split at h
      · rename_i id value rest heq
        cases heq
        exact ⟨id, value, rfl⟩
      · cases h
    · rintro ⟨id, value, hitem⟩
      cases hitem
      rfl
  | link => exact and_iff_right rfl
  | tlvOld | tlv | jsonOld | json | senmlJson => exact Iff.rfl

theorem lwm2mDataSerialize_eq (chosen : MediaType) :
    lwm2mDataSerialize support serializers uriP dataP chosen =
      (finalFormat support uriP dataP chosen).bind fun format =>
        (serializeAs support serializers uriP dataP format).map fun buffer => (format, buffer) :=
  Option.bind_congr fun format _ => by
    cases serializeAs support serializers uriP dataP format <;> rfl

/-- **When serializing in a chosen format gives a servable answer.** -/
theorem isServable_serializeAnswer_iff (chosen : MediaType) :
    IsServable support accept (serializeAnswer support serializers uriP dataP chosen) ↔
      ∃ format, finalFormat support uriP dataP chosen = some format ∧
        (accept ≠ [] → format.number ∈ accept) ∧
        FormatRepresents support serializers uriP dataP format := by
  have hfailed : ¬ IsServable support accept { code := coap500InternalServerError } := by
    rintro (⟨hcode, -⟩ | hcode)
    · exact absurd hcode (by decide)
    · exact absurd hcode (by decide)
  unfold serializeAnswer
  rw [lwm2mDataSerialize_eq]
  cases hfinal : finalFormat support uriP dataP chosen with
  | none => exact iff_of_false hfailed fun ⟨_, hnone, _⟩ => by cases hnone
  | some format =>
    have hrepresents := @serializeAs_isSome_iff support serializers uriP dataP format
      (isPlain_of_finalFormat hfinal)
    simp only [Option.some.injEq, exists_eq_left', ← hrepresents]
    rw [Option.bind_some]
    cases hserialized : serializeAs support serializers uriP dataP format with
    | none => exact iff_of_false hfailed fun h => Bool.false_ne_true h.2
    | some buffer =>
      have hincludes : support.includes format = true := by
        by_contra hnot
        unfold serializeAs at hserialized
        rw [if_neg hnot] at hserialized
        cases hserialized
      rw [Option.map_some]
      constructor
      · rintro (⟨-, _, hformat, -, haccepted⟩ | hcode)
        · cases hformat
          exact ⟨haccepted, rfl⟩
        · exact absurd hcode (show coap205Content ≠ coap406NotAcceptable by decide)
      · exact fun h => .inl ⟨rfl, format, rfl, hincludes, h.1⟩

/-- `utils_getResponseFormat` takes the format that is chosen. -/
theorem utilsGetResponseFormat_eq {request : GetRequest}
    (h : request.accept ≠ [] ∨ request.observe = true) :
    utilsGetResponseFormat support request.accept dataP (decide uriP.isSetResource) =
      match chosenFormat support request uriP dataP with
      | some format => (coap205Content, format)
      | none => (if request.accept ≠ [] then coap406NotAcceptable
          else coap500InternalServerError, .text) := by
  have hsingular : (if isOneContainer dataP then false else decide uriP.isSetResource) =
      (!isOneContainer dataP && decide uriP.isSetResource) := by
    cases isOneContainer dataP <;> rfl
  unfold utilsGetResponseFormat chosenFormat
  rw [hsingular]
  by_cases haccept : request.accept ≠ []
  · dsimp only
    rw [if_pos haccept, if_pos haccept, if_pos haccept]
  · dsimp only
    rw [if_neg haccept, if_neg haccept, if_neg haccept, if_pos (h.resolve_left haccept)]

/-- **The end of a negotiation** by `utils_getResponseFormat`. -/
theorem isServable_negotiated_iff {request : GetRequest}
    (h : request.accept ≠ [] ∨ request.observe = true) {answer : FormatAnswer}
    (hanswer : answer =
      let (result, format) := utilsGetResponseFormat support request.accept dataP
        (decide uriP.isSetResource)
      if result = coap205Content then serializeAnswer support serializers uriP dataP format
      else { code := result }) :
    IsServable support request.accept answer ↔
      SettlesWell support serializers request uriP dataP := by
  subst hanswer
  unfold SettlesWell
  rw [utilsGetResponseFormat_eq h]
  cases hchosen : chosenFormat support request uriP dataP with
  | some chosen =>
    dsimp only
    rw [if_pos rfl, isServable_serializeAnswer_iff, or_iff_right fun hnone => by cases hnone.2]
    exact ⟨fun ⟨format, hend⟩ => ⟨chosen, format, rfl, hend⟩, fun ⟨_, format, heq, hend⟩ => by
      cases heq
      exact ⟨format, hend⟩⟩
  | none =>
    dsimp only
    rw [or_iff_left fun ⟨_, _, hnone, _⟩ => absurd hnone (Option.some_ne_none _).symm,
      and_iff_left rfl]
    by_cases haccept : request.accept ≠ []
    · rw [if_pos haccept, if_neg (by decide)]
      exact iff_of_true (.inr rfl) haccept
    · rw [if_neg haccept, if_neg (by decide)]
      refine iff_of_false ?_ haccept
      rintro (⟨hcode, -⟩ | hcode)
      · exact absurd hcode (show coap500InternalServerError ≠ coap205Content by decide)
      · exact absurd hcode (show coap500InternalServerError ≠ coap406NotAcceptable by decide)

end

/-- A GET that is not a Discover. -/
theorem isServable_dmHandleGet_iff (support : FormatSupport) (serializers : Serializers)
    {request : GetRequest} (uriP : Uri) (dataP : List Tree) (hdiscover : ¬ request.IsDiscover)
    (discovered : Code × List Byte) :
    IsServable support request.accept (dmHandleGet support serializers (coap205Content, dataP) uriP
      request coap205Content discovered) ↔ SettlesWell support serializers request uriP dataP := by
  unfold dmHandleGet
  cases hobserve : request.observe with
  | true => exact isServable_negotiated_iff (.inr hobserve) rfl
  | false =>
    rw [if_neg Bool.false_ne_true, if_neg hdiscover]
    unfold objectRead
    rw [if_pos rfl]
    by_cases haccept : request.accept ≠ []
    · rw [if_pos haccept]
      exact isServable_negotiated_iff (.inl haccept) rfl
    · have hchosen : chosenFormat support request uriP dataP =
          some ((request.contentType.map support.utilsConvertMediaType).getD .tlv) := by
        unfold chosenFormat
        rw [if_neg haccept, hobserve]
        rfl
      rw [if_neg haccept, isServable_serializeAnswer_iff, SettlesWell, hchosen,
        or_iff_right fun h => haccept h.1]
      exact ⟨fun ⟨format, hend⟩ => ⟨_, format, rfl, hend⟩, fun ⟨_, format, heq, hend⟩ => by
        cases heq
        exact ⟨format, hend⟩⟩

/-- **When the negotiation of a format ends well.** -/
theorem responseFormat_servable_iff (support : FormatSupport) (serializers : Serializers)
    (request : GetRequest) (uriP : Uri) (dataP : List Tree) :
    NegotiatesWell support serializers request uriP dataP ↔
      request.IsDiscover ∨ SettlesWell support serializers request uriP dataP := by
  refine or_congr_right' fun hdiscover => ?_
  have hall := isServable_dmHandleGet_iff support serializers uriP dataP hdiscover
  exact ⟨fun h => (hall (noError, [])).mp (h _), fun h discovered => (hall discovered).mpr h⟩

/-- Serializers that take any data. -/
def anySerializers : Serializers where
  text _ := some []
  tlv _ _ := some []
  json _ _ := some []
  senmlJson _ _ := some []
  link _ _ := some []

/-- **An integer is not servable as octets**: the request accepts TLV as well, and the answer is
`5.00`. -/
theorem integerAsOctets_fails :
    ¬ NegotiatesWell ⟨true, true, true, false⟩ anySerializers ⟨false, none, [42, 11542]⟩
        { objectId := 3, instanceId := 0, resourceId := 9 } [.leaf 9 (.integer 80)] ∧
      (dmHandleGet ⟨true, true, true, false⟩ anySerializers
        (coap205Content, [.leaf 9 (.integer 80)])
        { objectId := 3, instanceId := 0, resourceId := 9 } ⟨false, none, [42, 11542]⟩
        coap205Content (noError, [])).code = coap500InternalServerError := by
  refine ⟨?_, by decide +kernel⟩
  rintro (hdiscover | hservable)
  · exact absurd hdiscover (by decide)
  · rcases hservable (noError, []) with ⟨hcode, -⟩ | hcode
    · exact absurd hcode (by decide +kernel)
    · exact absurd hcode (by decide +kernel)

end Lwm2m.Core

/-
# Discover

`object_discover` and `core/discover.c`: the links of an object, an instance or a resource with
the attributes that a server has written.  The attributes of a resource are those of three levels;
an attribute is to be reported with the value of the most specific level that sets it
(`Levels.mostSpecific`).  The code merges the two upper levels flag by flag, but only the periods
value by value, and falls back to them for the periods only.
-/

import Lwm2m.Core.BootstrapWrite
import Lwm2m.Core.ReadAttributes
import Lwm2m.Core.Text
import Lwm2m.Library.Separators

namespace Lwm2m.Core

open Coap Code Library

/-! ### Attributes of a level -/

/-- `prv_findAttributes`: the attributes of the last watcher of the server. -/
def prvFindAttributes (observedList : List Observed) (uriP : Uri) (serverP : Option ServerRef) :
    Option Attributes :=
  match serverP, observeFindByUri observedList uriP with
  | some server, some observedP =>
    observedP.watcherList.foldl
      (fun paramP watcherP => if watcherP.server = server then watcherP.parameters else paramP) none
  | _, _ => none

/-- The value of a period in the attributes that `discover_serialize` merges. -/
def mergedPeriod (a : Attribute) (field : Attributes → UInt32) (objParamP instParamP : Attributes) :
    UInt32 :=
  if (objParamP.toSet ||| instParamP.toSet) &&& a.flag ≠ 0 then
    if instParamP.toSet &&& a.flag ≠ 0 then field instParamP else field objParamP
  else 0

/-- The attributes of an object and of an instance, merged by `discover_serialize`. -/
def mergedParam (objParamP instParamP : Option Attributes) : Option Attributes :=
  match objParamP, instParamP with
  | some objParamP, some instParamP =>
    some
      { toSet := objParamP.toSet ||| instParamP.toSet
        toClear := 0
        minPeriod := mergedPeriod .minPeriod Attributes.minPeriod objParamP instParamP
        maxPeriod := mergedPeriod .maxPeriod Attributes.maxPeriod objParamP instParamP
        greaterThan := ⟨0⟩
        lessThan := ⟨0⟩
        step := ⟨0⟩ }
  | some objParamP, none => some objParamP
  | none, instParamP => instParamP

/-! ### Writing -/

/-- `PRV_LINK_BUFFER_SIZE`. -/
def prvLinkBufferSize : ℕ := 1024

/-- `PRV_CONCAT_STR`. -/
def prvConcatStr (len : ℕ) (str buf : List Byte) : Option (List Byte) :=
  if len - buf.length < str.length then none else some (buf ++ str)

section

variable (floatToText : Double → ℕ → Option (List Byte))

/-- The value of an attribute as text: `utils_intToText` or `utils_floatToText`. -/
def valueToText : AttributeValue → ℕ → Option (List Byte)
  | .period value, length => utilsIntToText value.toNat length
  | .threshold value, length => floatToText value length

/-- One attribute behind the text so far. -/
def writeAttribute (bufferLen : ℕ) (a : Attribute) (value : AttributeValue) (buffer : List Byte) :
    Option (List Byte) := do
  let buffer ← prvConcatStr bufferLen [0x3B] buffer
  let buffer ← prvConcatStr bufferLen a.str buffer
  let text ← valueToText floatToText value (bufferLen - buffer.length)
  return buffer ++ text

/-- One attribute, if its flag is set. -/
def writeIfSet (bufferLen : ℕ) (a : Attribute) (paramP : Attributes) (buffer : List Byte) :
    Option (List Byte) :=
  if paramP.toSet &&& a.flag ≠ 0 then
    writeAttribute floatToText bufferLen a (paramP.value a) buffer
  else some buffer

/-- One attribute, if its flag is set, or else if it is in the attributes of the levels above. -/
def writeOrInherit (bufferLen : ℕ) (a : Attribute) (paramP : Attributes)
    (objectParamP : Option Attributes) (buffer : List Byte) : Option (List Byte) :=
  if paramP.toSet &&& a.flag ≠ 0 then
    writeAttribute floatToText bufferLen a (paramP.value a) buffer
  else
    match objectParamP with
    | some objectParamP => writeIfSet floatToText bufferLen a objectParamP buffer
    | none => some buffer

/-- `prv_serializeAttributes` behind a link that ends before its ',': the link with the attributes
and the ','. -/
def prvSerializeAttributes (observedList : List Observed) (uriP : Uri) (serverP : Option ServerRef)
    (objectParamP : Option Attributes) (buffer : List Byte) (bufferLen : ℕ) : Option (List Byte) :=
  match (prvFindAttributes observedList uriP serverP).orElse fun _ => objectParamP with
  | none => some (buffer ++ [0x2C])
  | some paramP => do
    let buffer ← writeOrInherit floatToText bufferLen .minPeriod paramP objectParamP buffer
    let buffer ← writeOrInherit floatToText bufferLen .maxPeriod paramP objectParamP buffer
    let buffer ← writeIfSet floatToText bufferLen .greaterThan paramP buffer
    let buffer ← writeIfSet floatToText bufferLen .lessThan paramP buffer
    let buffer ← writeIfSet floatToText bufferLen .step paramP buffer
    prvConcatStr bufferLen [0x2C] buffer

/-- The attributes behind a link, for a server that is known. -/
def serializeFor (observedList : List Observed) (uriP : Uri) (serverP : Option ServerRef)
    (objectParamP : Option Attributes) (buffer : List Byte) (bufferLen : ℕ) : Option (List Byte) :=
  match serverP with
  | none => some buffer
  | some _ =>
    prvSerializeAttributes floatToText observedList uriP serverP objectParamP buffer.dropLast
      bufferLen

/-- `utils_intToText` behind the text so far. -/
def concatInt (bufferLen : ℕ) (data : ℤ) (buffer : List Byte) : Option (List Byte) :=
  (utilsIntToText data (bufferLen - buffer.length)).map (buffer ++ ·)

/-- `prv_serializeLinkData` for a resource; the number of its instances, a `size_t`, is handed
over as an `int64_t`. -/
def serializeResource (observedList : List Observed) (serverP : Option ServerRef)
    (objectParamP : Option Attributes) (parentUriP : Uri) (parentUriStr : List Byte)
    (bufferLen : ℕ) (id : UInt16) (type : DataType) (count : ℕ) : Option (List Byte) := do
  let buffer ← prvConcatStr bufferLen [0x3C] []
  let buffer ← prvConcatStr bufferLen parentUriStr buffer
  let buffer ← prvConcatStr bufferLen [0x2F] buffer
  let buffer ← concatInt bufferLen id.toNat buffer
  let buffer ←
    if type = .multipleResource then do
      let buffer ← prvConcatStr bufferLen [0x3E, 0x3B, 0x64, 0x69, 0x6D, 0x3D] buffer
      let buffer ← concatInt bufferLen (BitVec.ofNat 64 count).toInt buffer
      prvConcatStr bufferLen [0x2C] buffer
    else prvConcatStr bufferLen [0x3E, 0x2C] buffer
  serializeFor floatToText observedList { parentUriP with resourceId := id } serverP objectParamP
    buffer bufferLen

/-- The path of an instance behind the one of its object. -/
def instanceUriStr (parentUriStr : List Byte) (id : UInt16) : Option (List Byte) := do
  let uriStr ← prvConcatStr uriMaxStringLen parentUriStr []
  let uriStr ← prvConcatStr uriMaxStringLen [0x2F] uriStr
  concatInt uriMaxStringLen id.toNat uriStr

/-- The link of an instance, which is taken back when the instance has no attributes. -/
def serializeInstance (observedList : List Observed) (serverP : Option ServerRef) (uri : Uri)
    (uriStr : List Byte) (bufferLen : ℕ) : Option (List Byte) := do
  let buffer ← prvConcatStr bufferLen [0x3C] []
  let buffer ← prvConcatStr bufferLen uriStr buffer
  let buffer ← prvConcatStr bufferLen [0x3E, 0x2C] buffer
  let linked ← serializeFor floatToText observedList uri serverP none buffer bufferLen
  return if serverP.isSome ∧ linked.length = buffer.length then [] else linked

mutual

/-- `prv_serializeLinkData`. -/
def prvSerializeLinkData (observedList : List Observed) (serverP : Option ServerRef)
    (objectParamP : Option Attributes) (parentUriP : Uri) (parentUriStr : List Byte)
    (bufferLen : ℕ) : Data → Option (List Byte)
  | .mk _ .object _ _ => none
  | .mk id .objectInstance _ children => do
    let uriStr ← instanceUriStr parentUriStr id
    let uri := { parentUriP with instanceId := id }
    let buffer ← serializeInstance floatToText observedList serverP uri uriStr bufferLen
    serializeChildren observedList serverP objectParamP uri uriStr bufferLen buffer children
  | .mk id type _ children =>
    serializeResource floatToText observedList serverP objectParamP parentUriP parentUriStr
      bufferLen id type children.length

/-- The links of the children of an instance. -/
def serializeChildren (observedList : List Observed) (serverP : Option ServerRef)
    (objectParamP : Option Attributes) (parentUriP : Uri) (parentUriStr : List Byte)
    (bufferLen : ℕ) (buffer : List Byte) : List Data → Option (List Byte)
  | [] => some buffer
  | child :: children => do
    let text ← prvSerializeLinkData observedList serverP objectParamP parentUriP parentUriStr
      (bufferLen - buffer.length) child
    serializeChildren observedList serverP objectParamP parentUriP parentUriStr bufferLen
      (buffer ++ text) children

end

/-- The loop of `discover_serialize`, which stops when the buffer is full. -/
def serializeLinks (observedList : List Observed) (serverP : Option ServerRef)
    (objectParamP : Option Attributes) (uriP : Uri) (baseUriStr : List Byte)
    (buffer : List Byte) : List Data → Option (List Byte)
  | [] => some buffer
  | data :: rest =>
    if buffer.length < prvLinkBufferSize then do
      let text ← prvSerializeLinkData floatToText observedList serverP objectParamP uriP baseUriStr
        (prvLinkBufferSize - buffer.length) data
      serializeLinks observedList serverP objectParamP uriP baseUriStr (buffer ++ text) rest
    else some buffer

/-- The link of an object or an instance, at the start of the reply. -/
def serializeHead (observedList : List Observed) (uriP : Uri) (serverP : Option ServerRef) :
    Option (List Byte) := do
  let buffer ← prvConcatStr prvLinkBufferSize [0x3C] []
  let buffer ← prvConcatStr prvLinkBufferSize [0x2F] buffer
  let buffer ← concatInt prvLinkBufferSize uriP.objectId.toNat buffer
  let buffer ←
    if uriP.isSetInstance then do
      let buffer ← prvConcatStr prvLinkBufferSize [0x2F] buffer
      concatInt prvLinkBufferSize uriP.instanceId.toNat buffer
    else some buffer
  let buffer ← prvConcatStr prvLinkBufferSize [0x3E, 0x2C] buffer
  serializeFor floatToText observedList
    { objectId := uriP.objectId, instanceId := uriP.instanceId } serverP none buffer
    prvLinkBufferSize

/-- `discover_serialize`. -/
def discoverSerialize (observedList : List Observed) (uriP : Uri) (serverP : Option ServerRef)
    (dataP : List Data) : Option (List Byte) := do
  let text ←
    if uriP.isSetResource then do
      let objParamP := prvFindAttributes observedList { objectId := uriP.objectId } serverP
      let instParamP := prvFindAttributes observedList
        { objectId := uriP.objectId, instanceId := uriP.instanceId } serverP
      let baseUri := { uriP with resourceId := lwm2mMaxId }
      let baseUriStr ← uriToString (some baseUri) uriMaxStringLen
      serializeLinks floatToText observedList serverP (mergedParam objParamP instParamP) baseUri
        baseUriStr [] dataP
    else do
      let buffer ← serializeHead floatToText observedList uriP serverP
      let baseUriStr ← uriToString (some uriP) uriMaxStringLen
      serializeLinks floatToText observedList serverP none uriP baseUriStr buffer dataP
  return text.dropLast

end

/-- A discover callback of an object: what it makes of the array it is handed. -/
abbrev DiscoverCallback : Type := UInt16 → List Data → Code × List Data

/-- The loop of `object_discover` over the instances of an object. -/
def discoverInstances (discoverFunc : DiscoverCallback) : List UInt16 → Code × List Data
  | [] => (coap205Content, [])
  | instanceId :: rest =>
    let (result, children) := discoverFunc instanceId []
    if result = coap205Content then
      let (result, dataP) := discoverInstances discoverFunc rest
      (result, .mk instanceId .objectInstance [] children :: dataP)
    else (result, [])

/-- The data that `object_discover` writes links for. -/
def discoverData (targetP : ObjectEntry) (discoverFunc : DiscoverCallback) (uriP : Uri) :
    Code × List Data :=
  if uriP.isSetInstance then
    match listFind id targetP.instanceList uriP.instanceId with
    | none => (coap404NotFound, [])
    | some instanceId =>
      discoverFunc instanceId
        (if uriP.isSetResource then [.mk uriP.resourceId .undefined [] []] else [])
  else discoverInstances discoverFunc targetP.instanceList

/-- `object_discover`: the code and the links. -/
def objectDiscover (floatToText : Double → ℕ → Option (List Byte))
    (discoverFunc : UInt16 → Option DiscoverCallback) (contextP : Context) (uriP : Uri)
    (serverP : Option ServerRef) : Code × List Byte :=
  match listFind ObjectEntry.objID contextP.objectList uriP.objectId with
  | none => (coap404NotFound, [])
  | some targetP =>
    match discoverFunc targetP.objID with
    | none => (coap501NotImplemented, [])
    | some discoverFunc =>
      let (result, dataP) := discoverData targetP discoverFunc uriP
      if result = coap205Content then
        match discoverSerialize floatToText contextP.observedList uriP serverP dataP with
        | none => (coap500InternalServerError, [])
        | some [] => (coap500InternalServerError, [])
        | some text => (coap205Content, text)
      else (result, [])

end Lwm2m.Core

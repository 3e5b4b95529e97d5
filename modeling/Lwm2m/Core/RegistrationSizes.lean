/-
# The sizes of a registration

`object_getRegisterPayload` of `core/objects.c` and `prv_getRegistrationQuery` of
`core/registration.c` write the payload and the query of a registration into buffers whose sizes
`object_getRegisterPayloadBufferLength` and `prv_getRegistrationQueryLength` compute.

A text is written in a buffer as far as it goes; a step that finds no room for its piece returns 0,
except that the numbers of a version are then left out.  The sizes fit the texts exactly when the
client has no OSCORE object, which only the first of the two functions for the payload skips, and
the texts are shorter than an `int` can tell (`registrationSizes_exact_iff`).
-/

import Lwm2m.Core.BindingText
import Lwm2m.Core.Text
import Lwm2m.Library.BoundedText
import Mathlib.Data.Int.Basic

namespace Lwm2m.Core

open Library

/-! ### Writing -/

/-- The functions that write a piece of a text behind what is there; `none` where they return 0. -/
abbrev Writer := List Byte → OptionT (Except Fault) (List Byte)

/-- Bytes that are written behind the text in a buffer of `bufferLen` bytes. -/
def put (bufferLen : ℕ) (bytes : List Byte) : Writer := fun buffer =>
  if buffer.length + bytes.length ≤ bufferLen then pure (buffer ++ bytes)
  else OptionT.mk (.error .outOfBoundsWrite)

/-- A byte that is written when there is room for it. -/
def putByte (bufferLen : ℕ) (byte : Byte) : Writer := fun buffer =>
  if buffer.length ≥ bufferLen then failure else put bufferLen [byte] buffer

/-- `utils_stringCopy`, which needs room for a NUL behind the string. -/
def utilsStringCopy (bufferLen : ℕ) (str : CString) : Writer := fun buffer =>
  if str.length < bufferLen - buffer.length then pure (buffer ++ str) else failure

/-- `utils_intToText`, behind the text. -/
def putInt (bufferLen : ℕ) (data : ℤ) : Writer := fun buffer =>
  match utilsIntToText data (bufferLen - buffer.length) with
  | some text => pure (buffer ++ text)
  | none => failure

/-- `utils_uintToText` where a result of 0 is taken for a success. -/
def putUint (bufferLen data : ℕ) (buffer : List Byte) : List Byte :=
  buffer ++ (utilsUintToText data (bufferLen - buffer.length)).getD []

/-! ### The payload -/

/-- The formats that are compiled in. -/
inductive JsonSupport
  | senmlJson
  | json
  | none
  deriving DecidableEq, Repr

/-- `REG_START`. -/
def regStart : List Byte := [0x3C]

/-- `REG_DEFAULT_PATH`. -/
def regDefaultPath : List Byte := [0x2F]

/-- `>;rt="oma.lwm2m"`. -/
def regResourceType : List Byte :=
  [0x3E, 0x3B, 0x72, 0x74, 0x3D, 0x22, 0x6F, 0x6D, 0x61, 0x2E, 0x6C, 0x77, 0x6D, 0x32, 0x6D, 0x22]

/-- `REG_LWM2M_RESOURCE_TYPE`, with `;ct=110` or `;ct=11543`. -/
def regLwm2mResourceType : JsonSupport → List Byte
  | .senmlJson => regResourceType ++ [0x3B, 0x63, 0x74, 0x3D, 0x31, 0x31, 0x30, 0x2C]
  | .json => regResourceType ++ [0x3B, 0x63, 0x74, 0x3D, 0x31, 0x31, 0x35, 0x34, 0x33, 0x2C]
  | .none => regResourceType ++ [0x2C]

/-- `REG_PATH_END`. -/
def regPathEnd : List Byte := [0x3E, 0x2C]

/-- `REG_VERSION_START`, which is `>;ver=`. -/
def regVersionStart : List Byte := [0x3E, 0x3B, 0x76, 0x65, 0x72, 0x3D]

/-- What the registration reads of `lwm2m_context_t`. -/
structure RegistrationContext where
  endpointName : CString
  msisdn : Option CString := none
  altPath : Option CString := none
  objectList : List ObjectEntry
  deriving DecidableEq, Repr

/-- The path that the payload begins with. -/
def RegistrationContext.path (contextP : RegistrationContext) : CString :=
  match contextP.altPath with
  | none | some [] => regDefaultPath
  | some altPath => altPath

/-- `LWM2M_OSCORE_OBJECT_ID`. -/
def lwm2mOscoreObjectId : UInt16 := 21

/-- `REG_OBJECT_MIN_LEN`. -/
def regObjectMinLen : ℕ := 5

/-- `prv_getObjectTemplate`, in a buffer of its own. -/
def prvGetObjectTemplate (length : ℕ) (id : UInt16) : OptionT (Except Fault) (List Byte) := do
  if length < regObjectMinLen then failure
  else
    let buffer ← put length [0x3C, 0x2F] []
    let buffer ← putInt length id.toNat buffer
    if length - buffer.length < regObjectMinLen - 3 then failure
    else put length [0x2F] buffer

/-- The object has a version. -/
def ObjectEntry.HasVersion (objectP : ObjectEntry) : Prop :=
  objectP.versionMajor ≠ 0 ∨ objectP.versionMinor ≠ 0

instance (objectP : ObjectEntry) : Decidable objectP.HasVersion :=
  inferInstanceAs (Decidable (_ ∨ _))

/-- The loop of `object_getRegisterPayloadBufferLength` over the instances. -/
def instancesLength (start length : ℕ) : ℕ → List UInt16 → OptionT (Except Fault) ℕ
  | index, [] => pure index
  | index, id :: next => do
    let index := if index ≠ start + length then index + length else index
    let text ← putInt (regObjectMinLen + 5) id.toNat []
    instancesLength start length (index + text.length + regPathEnd.length) next

/-- An object in `object_getRegisterPayloadBufferLength`. -/
def objectLength (objectP : ObjectEntry) (index : ℕ) : OptionT (Except Fault) ℕ := do
  if objectP.objID = lwm2mSecurityObjectId then pure index
  else if objectP.objID = lwm2mOscoreObjectId then pure index
  else
    let bufferLen := regObjectMinLen + 5
    let template ← prvGetObjectTemplate bufferLen objectP.objID
    let length := template.length
    let start := index
    let index := index + length
    if objectP.HasVersion then
      let index := index - 1 + regVersionStart.length
      let index := index + (putUint bufferLen objectP.versionMajor.toNat []).length + 1
      let index := index + (putUint bufferLen objectP.versionMinor.toNat []).length + 1
      if objectP.instanceList = [] then pure index
      else instancesLength index length (index + length) objectP.instanceList
    else if objectP.instanceList = [] then pure (index - 1 + regPathEnd.length)
    else instancesLength start length index objectP.instanceList

/-- `object_getRegisterPayloadBufferLength`; what does not fit into an `int` wraps. -/
def objectGetRegisterPayloadBufferLength (support : JsonSupport) (contextP : RegistrationContext) :
    OptionT (Except Fault) ℤ := do
  let index := regStart.length + contextP.path.length + (regLwm2mResourceType support).length
  let index ← contextP.objectList.foldlM (fun index objectP => objectLength objectP index) index
  return (Int32.ofNat (index + 1)).toInt

/-- The version of an object, behind the template of which the last '/' is taken off. -/
def writeVersion (bufferLen : ℕ) (objectP : ObjectEntry) : Writer := fun buffer => do
  let buffer ← utilsStringCopy bufferLen regVersionStart buffer.dropLast
  let buffer ← putByte bufferLen 0x2E (putUint bufferLen objectP.versionMajor.toNat buffer)
  putByte bufferLen 0x2C (putUint bufferLen objectP.versionMinor.toNat buffer)

/-- The template of an object, in front of an instance that is not the first one. -/
def repeatTemplate (bufferLen start length : ℕ) : Writer := fun buffer =>
  if buffer.length ≠ start + length then
    if bufferLen - buffer.length ≤ length then failure
    else put bufferLen ((buffer.drop start).take length) buffer
  else pure buffer

/-- The loop of `object_getRegisterPayload` over the instances. -/
def writeInstances (bufferLen start length : ℕ) : List UInt16 → Writer
  | [], buffer => pure buffer
  | id :: next, buffer => do
    let buffer ← repeatTemplate bufferLen start length buffer
    let buffer ← putInt bufferLen id.toNat buffer
    let buffer ← utilsStringCopy bufferLen regPathEnd buffer
    writeInstances bufferLen start length next buffer

/-- An object in `object_getRegisterPayload`. -/
def writeObject (bufferLen : ℕ) (objectP : ObjectEntry) : Writer := fun buffer => do
  if objectP.objID = lwm2mSecurityObjectId then pure buffer
  else
    let start := buffer.length
    let template ← prvGetObjectTemplate (bufferLen - buffer.length) objectP.objID
    let buffer := buffer ++ template
    if objectP.HasVersion then
      let buffer ← writeVersion bufferLen objectP buffer
      if objectP.instanceList = [] then pure buffer
      else
        let start := buffer.length
        let template ← prvGetObjectTemplate (bufferLen - buffer.length) objectP.objID
        writeInstances bufferLen start template.length objectP.instanceList (buffer ++ template)
    else if objectP.instanceList = [] then
      utilsStringCopy bufferLen regPathEnd buffer.dropLast
    else writeInstances bufferLen start template.length objectP.instanceList buffer

/-- The loop of `object_getRegisterPayload`. -/
def writeObjects (bufferLen : ℕ) : List ObjectEntry → Writer
  | [], buffer => pure buffer
  | objectP :: next, buffer => writeObject bufferLen objectP buffer >>= writeObjects bufferLen next

/-- The beginning of `object_getRegisterPayload`. -/
def writeHead (bufferLen : ℕ) (support : JsonSupport) (contextP : RegistrationContext) : Writer :=
  fun buffer => do
    let buffer ← utilsStringCopy bufferLen regStart buffer
    let buffer ← utilsStringCopy bufferLen contextP.path buffer
    utilsStringCopy bufferLen (regLwm2mResourceType support) buffer

/-- `object_getRegisterPayload`: the payload in a buffer of `bufferLen` bytes. -/
def objectGetRegisterPayload (support : JsonSupport) (contextP : RegistrationContext)
    (bufferLen : ℕ) : OptionT (Except Fault) (List Byte) := do
  let buffer ← writeHead bufferLen support contextP []
  let buffer ← writeObjects bufferLen contextP.objectList buffer
  let payload := buffer.dropLast
  let _ ← put bufferLen [0] payload
  return payload

/-! ### The query -/

/-- `QUERY_STARTER QUERY_VERSION_FULL QUERY_DELIMITER QUERY_NAME`, which is `?lwm2m=1.1&ep=`. -/
def queryStart : List Byte :=
  [0x3F, 0x6C, 0x77, 0x6D, 0x32, 0x6D, 0x3D, 0x31, 0x2E, 0x31, 0x26, 0x65, 0x70, 0x3D]

/-- `QUERY_DELIMITER QUERY_SMS`, which is `&sms=`. -/
def querySms : List Byte := [0x26, 0x73, 0x6D, 0x73, 0x3D]

/-- `QUERY_DELIMITER QUERY_BINDING`, which is `&b=`. -/
def queryBinding : List Byte := [0x26, 0x62, 0x3D]

/-- `QUERY_DELIMITER QUERY_QUEUE_MODE`, which is `&Q`. -/
def queryQueueMode : List Byte := [0x26, 0x51]

/-- `QUERY_DELIMITER QUERY_LIFETIME`, which is `&lt=`. -/
def queryLifetime : List Byte := [0x26, 0x6C, 0x74, 0x3D]

/-- What the registration reads of `lwm2m_server_t`. -/
structure RegistrationServer where
  binding : UInt8
  lifetime : Int64
  deriving DecidableEq, Repr

/-- The letters of the transports, in the order of the query. -/
def bindingLetters : List (UInt8 × Byte) :=
  [(bindingU, 0x55), (bindingT, 0x54), (bindingS, 0x53), (bindingN, 0x4E)]

/-- The binding names a transport. -/
def HasTransport (binding : UInt8) : Prop := Sets binding (~~~(bindingUnknown ||| bindingQ))

instance (binding : UInt8) : Decidable (HasTransport binding) :=
  inferInstanceAs (Decidable (Sets _ _))

/-- `prv_getRegistrationQueryLength`; what does not fit into an `int` wraps. -/
def prvGetRegistrationQueryLength (contextP : RegistrationContext) (server : RegistrationServer) :
    OptionT (Except Fault) ℤ := do
  let index := queryStart.length + contextP.endpointName.length
  let index := match contextP.msisdn with
    | none => index
    | some msisdn => index + querySms.length + msisdn.length
  let index :=
    if HasTransport server.binding then
      bindingLetters.foldl (fun index entry =>
        if Sets server.binding entry.1 then index + 1 else index) (index + queryBinding.length)
    else index
  let index := if Sets server.binding bindingQ then index + queryQueueMode.length else index
  if server.lifetime = 0 then return (Int32.ofNat (index + 1)).toInt
  else
    let text ← putInt 21 server.lifetime.toInt []
    return (Int32.ofNat (index + queryLifetime.length + text.length + 1)).toInt

/-- The MSISDN in `prv_getRegistrationQuery`. -/
def writeMsisdn (length : ℕ) (msisdn : Option CString) : Writer := fun buffer =>
  match msisdn with
  | none => pure buffer
  | some msisdn => utilsStringCopy length querySms buffer >>= utilsStringCopy length msisdn

/-- The letters of a binding in `prv_getRegistrationQuery`. -/
def writeLetters (length : ℕ) (binding : UInt8) : List (UInt8 × Byte) → Writer
  | [], buffer => pure buffer
  | (mask, letter) :: next, buffer =>
    (if Sets binding mask then putByte length letter buffer else pure buffer) >>=
      writeLetters length binding next

/-- The transports in `prv_getRegistrationQuery`. -/
def writeBinding (length : ℕ) (binding : UInt8) : Writer := fun buffer =>
  if HasTransport binding then
    utilsStringCopy length queryBinding buffer >>= writeLetters length binding bindingLetters
  else pure buffer

/-- The queue mode in `prv_getRegistrationQuery`. -/
def writeQueueMode (length : ℕ) (binding : UInt8) : Writer := fun buffer =>
  if Sets binding bindingQ then utilsStringCopy length queryQueueMode buffer else pure buffer

/-- The lifetime in `prv_getRegistrationQuery`. -/
def writeLifetime (length : ℕ) (lifetime : Int64) : Writer := fun buffer =>
  if lifetime ≠ 0 then
    utilsStringCopy length queryLifetime buffer >>= putInt length lifetime.toInt
  else pure buffer

/-- `prv_getRegistrationQuery` up to the NUL. -/
def writeQuery (length : ℕ) (contextP : RegistrationContext) (server : RegistrationServer) :
    Writer := fun buffer => do
  let buffer ← utilsStringCopy length queryStart buffer
  let buffer ← utilsStringCopy length contextP.endpointName buffer
  let buffer ← writeMsisdn length contextP.msisdn buffer
  let buffer ← writeBinding length server.binding buffer
  let buffer ← writeQueueMode length server.binding buffer
  writeLifetime length server.lifetime buffer

/-- `prv_getRegistrationQuery`: the query with its NUL. -/
def prvGetRegistrationQuery (contextP : RegistrationContext) (server : RegistrationServer)
    (length : ℕ) : OptionT (Except Fault) (List Byte) :=
  writeQuery length contextP server [] >>= putByte length 0

/-! ### The texts -/

/-- `</id`. -/
def objectPath (id : UInt16) : List Byte := [0x3C, 0x2F] ++ decimal id.toNat

/-- `;ver=` and the version, and what stands around it. -/
def versionText (objectP : ObjectEntry) : List Byte :=
  regVersionStart ++ decimal objectP.versionMajor.toNat ++ [0x2E] ++
    decimal objectP.versionMinor.toNat ++ [0x2C]

/-- The links of some instances behind a template. -/
def instancesText (template : List Byte) (ids : List UInt16) : List Byte :=
  ids.flatMap fun id => template ++ (decimal id.toNat ++ regPathEnd)

/-- The link of an object with a version or without instances. -/
def objectLink (objectP : ObjectEntry) : List Byte :=
  if objectP.HasVersion then objectPath objectP.objID ++ versionText objectP
  else if objectP.instanceList = [] then objectPath objectP.objID ++ regPathEnd
  else []

/-- The links of an object and its instances; the Security object has none. -/
def objectText (objectP : ObjectEntry) : List Byte :=
  if objectP.objID = lwm2mSecurityObjectId then []
  else objectLink objectP ++
    instancesText (objectPath objectP.objID ++ [0x2F]) objectP.instanceList

/-- The links of the client, each with a comma behind it. -/
def payloadText (support : JsonSupport) (contextP : RegistrationContext) : List Byte :=
  regStart ++ contextP.path ++ regLwm2mResourceType support ++
    contextP.objectList.flatMap objectText

/-- The letters of the transports that a binding names. -/
def transportLetters (binding : UInt8) (letters : List (UInt8 × Byte)) : List Byte :=
  (letters.filter fun entry => Sets binding entry.1).map (·.2)

/-- `&sms=` and the MSISDN. -/
def msisdnText : Option CString → List Byte
  | none => []
  | some msisdn => querySms ++ msisdn

/-- The query. -/
def registrationQueryText (contextP : RegistrationContext) (server : RegistrationServer) :
    List Byte :=
  queryStart ++ contextP.endpointName ++ msisdnText contextP.msisdn ++
    (if HasTransport server.binding then
      queryBinding ++ transportLetters server.binding bindingLetters
    else []) ++
    (if Sets server.binding bindingQ then queryQueueMode else []) ++
    (if server.lifetime ≠ 0 then queryLifetime ++ intText server.lifetime.toInt else [])

/-- The payload has the size that is computed for it. -/
def PayloadSizeExact (support : JsonSupport) (contextP : RegistrationContext) : Prop :=
  ∃ (length : ℕ) (payload : List Byte),
    objectGetRegisterPayloadBufferLength support contextP = pure (length : ℤ) ∧
      objectGetRegisterPayload support contextP length = pure payload ∧
        payload.length + 2 = length

/-- The query has the size that is computed for it. -/
def QuerySizeExact (contextP : RegistrationContext) (server : RegistrationServer) : Prop :=
  ∃ (length : ℕ) (query : List Byte),
    prvGetRegistrationQueryLength contextP server = pure (length : ℤ) ∧
      prvGetRegistrationQuery contextP server length = pure query ∧ query.length = length

/-- **The sizes are exact**: both texts are written into buffers of the computed sizes. -/
def RegistrationSizesExact (support : JsonSupport) (contextP : RegistrationContext)
    (server : RegistrationServer) : Prop :=
  PayloadSizeExact support contextP ∧ QuerySizeExact contextP server

/-! ### Pieces -/

variable {byte : Byte} {buffer' : List Byte}

section pieces

variable {bufferLen : ℕ} {buffer : List Byte}

theorem put_eq {bytes : List Byte} (h : buffer.length + bytes.length ≤ bufferLen) :
    put bufferLen bytes buffer = pure (buffer ++ bytes) := if_pos h

theorem lt_of_put (h : put bufferLen [byte] buffer = pure buffer') : buffer.length < bufferLen := by
  unfold put at h
  split_ifs at h with hroom
  · exact hroom
  · cases h

theorem appends_put (bytes : List Byte) : Appends bufferLen (put bufferLen bytes) buffer bytes where
  fits h := put_eq h.le
  only buffer' h := by
    unfold put at h
    split_ifs at h
    · exact (pure_inj h).symm
    · cases h

theorem appends_putByte (byte : Byte) :
    Appends bufferLen (putByte bufferLen byte) buffer [byte] where
  fits h := by
    rw [List.length_singleton] at h
    exact (if_neg (by omega)).trans ((appends_put [byte]).fits (by simpa using h))
  only buffer' h := by
    unfold putByte at h
    split_ifs at h
    · cases h
    · exact (appends_put [byte]).only buffer' h

theorem appends_stringCopy (str : CString) :
    Appends bufferLen (utilsStringCopy bufferLen str) buffer str where
  fits h := if_pos (by omega)
  only buffer' h := by
    unfold utilsStringCopy at h
    split_ifs at h
    · exact (pure_inj h).symm
    · cases h

theorem appends_putInt {data : ℤ} (hmin : -2 ^ 63 ≤ data) (hmax : data < 2 ^ 63) :
    Appends bufferLen (putInt bufferLen data) buffer (intText data) where
  fits h := by
    unfold putInt
    rw [utilsIntToText_of_lt hmin hmax (by omega)]
  only buffer' h := by
    unfold putInt at h
    cases htext : utilsIntToText data (bufferLen - buffer.length) with
    | none =>
      rw [htext] at h
      cases h
    | some text =>
      rw [htext] at h
      rw [← pure_inj h, eq_intText htext]

/-- The text of an identifier. -/
theorem appends_putInt_id (id : UInt16) :
    Appends bufferLen (putInt bufferLen id.toNat) buffer (decimal id.toNat) := by
  have hlt := id.toNat_lt
  refine (appends_putInt (by omega) (by omega)).congr ?_
  unfold intText
  rw [if_neg (by omega), Int.toNat_natCast]

end pieces

/-! ### The links of an object -/

section object

variable {bufferLen : ℕ} {buffer : List Byte} {objectP : ObjectEntry}

theorem length_objectPath (id : UInt16) :
    (objectPath id).length = 2 + (decimal id.toNat).length := by
  rw [objectPath, List.length_append]
  rfl

theorem length_decimal_pos (n : ℕ) : 0 < (decimal n).length :=
  List.length_pos_of_ne_nil (decimal_ne_nil n)

/-- An identifier is written when its digits fit. -/
theorem putInt_id (id : UInt16) :
    putInt bufferLen id.toNat buffer =
      if (decimal id.toNat).length ≤ bufferLen - buffer.length then
        pure (buffer ++ decimal id.toNat)
      else failure := by
  unfold putInt
  rw [utilsIntToText_natCast, utilsUintToText_eq]
  by_cases h : (decimal id.toNat).length ≤ bufferLen - buffer.length
  · rw [if_pos h, if_pos h]
  · rw [if_neg h, if_neg h]

/-- The template of an object is written where there are two bytes behind its path. -/
theorem prvGetObjectTemplate_eq (length : ℕ) (id : UInt16) :
    prvGetObjectTemplate length id =
      if (objectPath id).length + 2 ≤ length then pure (objectPath id ++ [0x2F]) else failure := by
  have hpos := length_decimal_pos id.toNat
  have hpath := length_objectPath id
  unfold prvGetObjectTemplate regObjectMinLen
  by_cases hmin : length < 5
  · rw [if_pos hmin, if_neg (by omega)]
  have hput : put length [0x3C, 0x2F] [] = pure [0x3C, 0x2F] :=
    if_pos (by change 2 ≤ length; omega)
  rw [if_neg hmin, hput, pure_bind, putInt_id]
  have htwo : ([0x3C, 0x2F] : List Byte).length = 2 := rfl
  by_cases hfits : (decimal id.toNat).length ≤ length - ([0x3C, 0x2F] : List Byte).length
  · rw [if_pos hfits, pure_bind]
    change (if length - (objectPath id).length < 2 then _ else put length [0x2F] (objectPath id)) =
      _
    by_cases hroom : (objectPath id).length + 2 ≤ length
    · rw [if_neg (by omega), if_pos hroom]
      exact if_pos (by rw [List.length_singleton]; omega)
    · rw [if_pos (by omega), if_neg hroom]
  · rw [if_neg hfits, if_neg (by omega)]
    rfl

/-- The instances behind the first one repeat the template. -/
theorem appends_writeInstances (start : ℕ) (template : List Byte) (ids : List UInt16)
    (hlt : start + template.length < buffer.length)
    (htemplate : (buffer.drop start).take template.length = template) :
    Appends bufferLen (writeInstances bufferLen start template.length ids) buffer
      (instancesText template ids) := by
  induction ids generalizing buffer with
  | nil => exact .skip bufferLen buffer
  | cons id next ih =>
    have hrepeat : Appends bufferLen (repeatTemplate bufferLen start template.length) buffer
        template := by
      unfold repeatTemplate
      refine ⟨fun h => ?_, fun buffer' h => ?_⟩
      · rw [if_pos hlt.ne', if_neg (by omega), htemplate]
        exact (appends_put template).fits h
      · rw [if_pos hlt.ne', htemplate] at h
        split_ifs at h
        · cases h
        · exact (appends_put template).only buffer' h
    have hrest := @ih (buffer ++ template ++ decimal id.toNat ++ regPathEnd)
      (by simp only [List.length_append]; omega) (by
        rw [List.append_assoc, List.append_assoc, List.drop_append_of_le_length (by omega),
          List.take_append_of_le_length (by rw [List.length_drop]; omega), htemplate])
    refine (hrepeat.bind ((appends_putInt_id id).bind
      ((appends_stringCopy regPathEnd).bind hrest))).congr ?_
    rw [instancesText, instancesText, List.flatMap_cons]
    simp only [List.append_assoc]

/-- The first instance stands behind the template that is there. -/
theorem appends_writeInstances_first (template : List Byte) (id : UInt16) (next : List UInt16) :
    Appends bufferLen (writeInstances bufferLen buffer.length template.length (id :: next))
      (buffer ++ template) (decimal id.toNat ++ (regPathEnd ++ instancesText template next)) := by
  have hpos := length_decimal_pos id.toNat
  have hrest := @appends_writeInstances bufferLen
    (buffer ++ template ++ decimal id.toNat ++ regPathEnd) buffer.length template next
    (by simp only [List.length_append]; omega) (by
      rw [List.append_assoc, List.append_assoc, List.drop_left, List.take_left])
  have hsteps := (@appends_putInt_id bufferLen (buffer ++ template) id).bind
    ((appends_stringCopy regPathEnd).bind hrest)
  have hrepeat : repeatTemplate bufferLen buffer.length template.length (buffer ++ template) =
      pure (buffer ++ template) := if_neg (by rw [List.length_append, not_not])
  constructor
  · intro h
    rw [writeInstances, hrepeat, pure_bind]
    exact hsteps.fits h
  · intro buffer' h
    rw [writeInstances, hrepeat, pure_bind] at h
    exact hsteps.only buffer' h

/-- The template of an object with its instances behind it. -/
theorem appends_template (id : UInt16) {ids : List UInt16} (hids : ids ≠ []) :
    Appends bufferLen (fun buffer => do
      let template ← prvGetObjectTemplate (bufferLen - buffer.length) id
      writeInstances bufferLen buffer.length template.length ids (buffer ++ template)) buffer
      (instancesText (objectPath id ++ [0x2F]) ids) := by
  obtain ⟨first, next, rfl⟩ := List.exists_cons_of_ne_nil hids
  have hfirst := @appends_writeInstances_first bufferLen buffer
    (objectPath id ++ [0x2F]) first next
  have htext : instancesText (objectPath id ++ [0x2F]) (first :: next) = objectPath id ++ [0x2F] ++
      (decimal first.toNat ++ (regPathEnd ++ instancesText (objectPath id ++ [0x2F]) next)) := by
    rw [instancesText, instancesText, List.flatMap_cons]
    simp only [List.append_assoc]
  rw [htext]
  constructor
  · intro h
    simp only [List.length_append, List.length_singleton] at h
    rw [prvGetObjectTemplate_eq, if_pos (by omega), pure_bind,
      hfirst.fits (by simp only [List.length_append, List.length_singleton]; omega),
      List.append_assoc]
  · intro buffer' h
    rw [prvGetObjectTemplate_eq] at h
    split_ifs at h
    · rw [hfirst.only buffer' h, List.append_assoc]
    · cases h

/-- A number of a version is left out where its digits do not fit. -/
theorem putUint_eq (data : ℕ) : putUint bufferLen data buffer =
    if (decimal data).length ≤ bufferLen - buffer.length then buffer ++ decimal data
    else buffer := by
  unfold putUint
  rw [utilsUintToText_eq]
  split_ifs
  · rfl
  · exact List.append_nil buffer

theorem length_decimal_version (version : UInt8) : (decimal version.toNat).length ≤ 3 :=
  decimal_length_le (by decide) (version.toNat_lt.trans (by decide))

theorem length_versionText (objectP : ObjectEntry) : (versionText objectP).length =
    8 + (decimal objectP.versionMajor.toNat).length +
      (decimal objectP.versionMinor.toNat).length := by
  simp only [versionText, List.length_append, regVersionStart, List.length_cons, List.length_nil]
  omega

/-- A version that takes the rest of the buffer, and numbers of which are left out; with them the
text would have the length `ideal`. -/
def CutShort (bufferLen : ℕ) (buffer : List Byte) (ideal : ℕ) : Prop :=
  (buffer.length = bufferLen ∧ ideal ≤ bufferLen + 6) ∨
    (buffer.length + 1 = bufferLen ∧ ideal ≤ bufferLen + 2)

theorem writeVersion_fits
    (h : buffer.length + (versionText objectP).length < bufferLen) :
    writeVersion bufferLen objectP (buffer ++ [0x2F]) = pure (buffer ++ versionText objectP) := by
  rw [length_versionText] at h
  have hstart : regVersionStart.length = 6 := rfl
  unfold writeVersion
  rw [List.dropLast_concat, (appends_stringCopy _).fits (by omega), pure_bind, putUint_eq,
    if_pos (by rw [List.length_append]; omega),
    (appends_putByte _).fits (by simp only [List.length_append, List.length_singleton]; omega),
    pure_bind, putUint_eq,
    if_pos (by simp only [List.length_append, List.length_singleton]; omega),
    (appends_putByte _).fits (by simp only [List.length_append, List.length_singleton]; omega)]
  simp only [versionText, List.append_assoc]

/-- A byte is written only where there is room for it. -/
theorem lt_of_putByte (h : putByte bufferLen byte buffer = pure buffer') :
    buffer.length < bufferLen := by
  unfold putByte at h
  split_ifs at h with hge
  · cases h
  · exact Nat.lt_of_not_ge hge

/-- **A version** is written as a whole, or it takes the rest of the buffer. -/
theorem writeVersion_only (h : writeVersion bufferLen objectP (buffer ++ [0x2F]) = pure buffer') :
    buffer' = buffer ++ versionText objectP ∨
      CutShort bufferLen buffer' (buffer.length + (versionText objectP).length) := by
  unfold writeVersion at h
  rw [List.dropLast_concat] at h
  obtain ⟨buffer₁, hstart, h⟩ := bind_eq_pure_iff.mp h
  obtain ⟨buffer₂, hdot, hcomma⟩ := bind_eq_pure_iff.mp h
  rw [(appends_stringCopy _).only _ hstart] at hdot
  have hroom := lt_of_putByte hdot
  have hroom' := lt_of_putByte hcomma
  have hbuffer₂ := (appends_putByte _).only _ hdot
  have hbuffer' := (appends_putByte _).only _ hcomma
  have hmajor := length_decimal_version objectP.versionMajor
  have hminor := length_decimal_version objectP.versionMinor
  rw [putUint_eq] at hroom hroom' hbuffer₂ hbuffer'
  by_cases hmajorFits : (decimal objectP.versionMajor.toNat).length ≤
      bufferLen - (buffer ++ regVersionStart).length
  · rw [if_pos hmajorFits] at hbuffer₂
    by_cases hminorFits : (decimal objectP.versionMinor.toNat).length ≤ bufferLen - buffer₂.length
    · rw [if_pos hminorFits, hbuffer₂] at hbuffer'
      refine .inl (hbuffer'.trans ?_)
      simp only [versionText, List.append_assoc]
    · rw [if_neg hminorFits] at hbuffer' hroom'
      have hlength := congrArg List.length hbuffer₂
      have hlength' := congrArg List.length hbuffer'
      simp only [List.length_append, List.length_singleton] at hlength hlength'
      have hstart : regVersionStart.length = 6 := rfl
      refine .inr ?_
      unfold CutShort
      rw [length_versionText]
      omega
  · rw [if_neg hmajorFits] at hbuffer₂ hroom
    have hlength := congrArg List.length hbuffer₂
    have hlength' := congrArg List.length hbuffer'
    simp only [List.length_append, List.length_singleton] at hlength hlength' hroom hmajorFits
    have hstart : regVersionStart.length = 6 := rfl
    have hpos := length_decimal_pos objectP.versionMinor.toNat
    refine .inr ?_
    unfold CutShort
    rw [length_versionText]
    split_ifs at hroom' hlength'
    · rw [List.length_append] at hroom'
      omega
    · omega

/-- What an object appends: its links, unless its version takes the rest of the buffer. -/
structure WritesObject (bufferLen : ℕ) (objectP : ObjectEntry) (buffer : List Byte) : Prop where
  fits : buffer.length + (objectText objectP).length < bufferLen →
    writeObject bufferLen objectP buffer = pure (buffer ++ objectText objectP)
  only : ∀ buffer', writeObject bufferLen objectP buffer = pure buffer' →
    buffer' = buffer ++ objectText objectP ∨
      CutShort bufferLen buffer' (buffer.length + (objectText objectP).length)

theorem writesObject_of_appends {step : Writer}
    (heq : writeObject bufferLen objectP buffer = step buffer)
    (h : Appends bufferLen step buffer (objectText objectP)) :
    WritesObject bufferLen objectP buffer where
  fits hfits := heq.trans (h.fits hfits)
  only buffer' hstep := .inl (h.only buffer' (heq.symm.trans hstep))

/-- The object is not the Security object: its template is written first. -/
theorem writeObject_eq (hid : objectP.objID ≠ lwm2mSecurityObjectId) :
    writeObject bufferLen objectP buffer =
      if (objectPath objectP.objID).length + 2 ≤ bufferLen - buffer.length then
        if objectP.HasVersion then do
          let buffer ← writeVersion bufferLen objectP
            (buffer ++ (objectPath objectP.objID) ++ [0x2F])
          if objectP.instanceList = [] then pure buffer
          else
            let template ← prvGetObjectTemplate (bufferLen - buffer.length) objectP.objID
            writeInstances bufferLen buffer.length template.length objectP.instanceList
              (buffer ++ template)
        else if objectP.instanceList = [] then
          utilsStringCopy bufferLen regPathEnd (buffer ++ objectPath objectP.objID)
        else writeInstances bufferLen buffer.length (objectPath objectP.objID ++ [0x2F]).length
          objectP.instanceList (buffer ++ (objectPath objectP.objID ++ [0x2F]))
      else failure := by
  unfold writeObject
  rw [if_neg hid, prvGetObjectTemplate_eq]
  by_cases h : (objectPath objectP.objID).length + 2 ≤ bufferLen - buffer.length
  · rw [if_pos h, if_pos h, pure_bind, ← List.append_assoc]
    dsimp only
    rw [List.dropLast_concat]
  · rw [if_neg h, if_neg h]
    rfl

/-- An object without a version. -/
theorem writesObject_of_not_hasVersion (hid : objectP.objID ≠ lwm2mSecurityObjectId)
    (hversion : ¬ objectP.HasVersion) : WritesObject bufferLen objectP buffer := by
  have htext : objectText objectP = (if objectP.instanceList = [] then
      objectPath objectP.objID ++ regPathEnd else []) ++
        instancesText (objectPath objectP.objID ++ [0x2F]) objectP.instanceList := by
    rw [objectText, if_neg hid, objectLink, if_neg hversion]
  have heq := @writeObject_eq bufferLen buffer objectP hid
  rw [if_neg hversion] at heq
  by_cases hnone : objectP.instanceList = []
  · rw [if_pos hnone] at heq htext
    rw [hnone, instancesText, List.flatMap_nil, List.append_nil] at htext
    have hend := @appends_stringCopy bufferLen
      (buffer ++ objectPath objectP.objID) regPathEnd
    have htwo : regPathEnd.length = 2 := rfl
    constructor
    · intro h
      rw [htext, List.length_append] at h
      rw [heq, if_pos (by omega), hend.fits (by rw [List.length_append]; omega), htext,
        List.append_assoc]
    · intro buffer' h
      rw [heq] at h
      split_ifs at h
      · rw [htext, hend.only buffer' h, List.append_assoc]
        exact .inl rfl
      · cases h
  · rw [if_neg hnone] at heq htext
    rw [List.nil_append] at htext
    refine writesObject_of_appends ?_ (htext ▸ appends_template objectP.objID hnone)
    rw [heq, prvGetObjectTemplate_eq]
    split_ifs <;> rfl

/-- An object with a version. -/
theorem writesObject_of_hasVersion (hid : objectP.objID ≠ lwm2mSecurityObjectId)
    (hversion : objectP.HasVersion) : WritesObject bufferLen objectP buffer := by
  have htext : objectText objectP = objectPath objectP.objID ++ versionText objectP ++
        instancesText (objectPath objectP.objID ++ [0x2F]) objectP.instanceList := by
    rw [objectText, if_neg hid, objectLink, if_pos hversion]
  have heq := @writeObject_eq bufferLen buffer objectP hid
  rw [if_pos hversion] at heq
  have hlength := length_versionText objectP
  have hfits : buffer.length + (objectPath objectP.objID).length +
      (versionText objectP).length < bufferLen →
        writeVersion bufferLen objectP (buffer ++ objectPath objectP.objID ++ [0x2F]) =
          pure (buffer ++ objectPath objectP.objID ++ versionText objectP) := fun h =>
    writeVersion_fits (by rw [List.length_append]; exact h)
  by_cases hnone : objectP.instanceList = []
  · rw [hnone, instancesText, List.flatMap_nil, List.append_nil] at htext
    constructor
    · intro h
      rw [htext, List.length_append] at h
      rw [heq, if_pos (by omega), hfits (by omega), pure_bind, if_pos hnone, htext,
        List.append_assoc]
    · intro buffer' h
      rw [heq] at h
      split_ifs at h
      · simp only [bind_pure] at h
        rw [htext, List.length_append, ← Nat.add_assoc, ← List.length_append, ← List.append_assoc]
        exact writeVersion_only h
      · cases h
  · have htemplate (buffer : List Byte) := @appends_template bufferLen buffer
      objectP.objID _ hnone
    constructor
    · intro h
      rw [htext, List.length_append, List.length_append] at h
      rw [heq, if_pos (by omega), hfits (by omega), pure_bind, if_neg hnone]
      refine ((htemplate _).fits (by simp only [List.length_append]; omega)).trans ?_
      rw [htext]
      simp only [List.append_assoc]
    · intro buffer' h
      rw [heq] at h
      by_cases hfit : (objectPath objectP.objID).length + 2 ≤ bufferLen - buffer.length
      · rw [if_pos hfit] at h
        obtain ⟨mid, hmid, hrest⟩ := bind_eq_pure_iff.mp h
        rw [if_neg hnone] at hrest
        rcases writeVersion_only hmid with hmid | hmid
        · refine .inl (((htemplate mid).only buffer' hrest).trans ?_)
          rw [hmid, htext]
          simp only [List.append_assoc]
        · -- there is no room for the template
          rw [prvGetObjectTemplate_eq, if_neg] at hrest
          · cases hrest
          · have hpath := length_objectPath objectP.objID
            rcases hmid with ⟨hfull, _⟩ | ⟨hfull, _⟩ <;> omega
      · rw [if_neg hfit] at h
        cases h

/-- **What an object appends.** -/
theorem writesObject (bufferLen : ℕ) (objectP : ObjectEntry) (buffer : List Byte) :
    WritesObject bufferLen objectP buffer := by
  by_cases hid : objectP.objID = lwm2mSecurityObjectId
  · have htext : objectText objectP = [] := if_pos hid
    refine writesObject_of_appends ?_ ((Appends.skip bufferLen buffer).congr htext.symm)
    rw [writeObject, if_pos hid]
  · by_cases hversion : objectP.HasVersion
    · exact writesObject_of_hasVersion hid hversion
    · exact writesObject_of_not_hasVersion hid hversion

/-- Behind a version that took the rest of the buffer, no links are written. -/
theorem writeObject_of_full (hfull : bufferLen ≤ buffer.length + 1)
    (h : writeObject bufferLen objectP buffer = pure buffer') :
    buffer' = buffer ∧ objectText objectP = [] := by
  by_cases hid : objectP.objID = lwm2mSecurityObjectId
  · rw [writeObject, if_pos hid] at h
    exact ⟨(pure_inj h).symm, if_pos hid⟩
  · have hpath := length_objectPath objectP.objID
    rw [writeObject_eq hid, if_neg (by omega)] at h
    cases h

end object

/-! ### The payload -/

section payload

variable {bufferLen : ℕ} {objectList : List ObjectEntry} {buffer buffer' : List Byte}

/-- The links of all objects fit. -/
theorem writeObjects_fits
    (h : buffer.length + (objectList.flatMap objectText).length < bufferLen) :
    writeObjects bufferLen objectList buffer =
      pure (buffer ++ objectList.flatMap objectText) := by
  induction objectList generalizing buffer with
  | nil => exact congrArg pure (List.append_nil buffer).symm
  | cons objectP next ih =>
    rw [List.flatMap_cons, List.length_append] at h
    rw [writeObjects, (writesObject bufferLen objectP buffer).fits (by omega), pure_bind,
      ih (by rw [List.length_append]; omega), List.flatMap_cons, List.append_assoc]

theorem writeObjects_of_full (hfull : bufferLen ≤ buffer.length + 1)
    (h : writeObjects bufferLen objectList buffer = pure buffer') :
    buffer' = buffer ∧ objectList.flatMap objectText = [] := by
  induction objectList with
  | nil => exact ⟨(pure_inj h).symm, rfl⟩
  | cons objectP next ih =>
    obtain ⟨mid, hmid, hrest⟩ := bind_eq_pure_iff.mp h
    obtain ⟨rfl, htext⟩ := writeObject_of_full hfull hmid
    obtain ⟨heq, hnext⟩ := ih hrest
    rw [List.flatMap_cons, htext, hnext]
    exact ⟨heq, rfl⟩

/-- **The links of all objects** are written as a whole, or a version takes the rest of the
buffer. -/
theorem writeObjects_only (h : writeObjects bufferLen objectList buffer = pure buffer') :
    buffer' = buffer ++ objectList.flatMap objectText ∨
      CutShort bufferLen buffer' (buffer.length + (objectList.flatMap objectText).length) := by
  induction objectList generalizing buffer with
  | nil => exact .inl ((pure_inj h).symm.trans (List.append_nil buffer).symm)
  | cons objectP next ih =>
    obtain ⟨mid, hmid, hrest⟩ := bind_eq_pure_iff.mp h
    rw [List.flatMap_cons, List.length_append]
    rcases (writesObject bufferLen objectP buffer).only mid hmid with hmid | hcut
    · rw [← List.append_assoc, ← hmid, ← Nat.add_assoc, ← List.length_append, ← hmid]
      exact ih hrest
    · have hfull : bufferLen ≤ mid.length + 1 := by
        rcases hcut with ⟨hfull, _⟩ | ⟨hfull, _⟩ <;> omega
      obtain ⟨rfl, hnext⟩ := writeObjects_of_full hfull hrest
      rw [hnext, List.length_nil, Nat.add_zero]
      exact .inr hcut

theorem length_decimal_id (id : UInt16) : (decimal id.toNat).length ≤ 5 :=
  decimal_length_le (by decide) (id.toNat_lt.trans (by decide))

/-- The texts of numbers in the buffer of `object_getRegisterPayloadBufferLength`. -/
theorem putInt_id_small (id : UInt16) :
    putInt (regObjectMinLen + 5) id.toNat [] = pure (decimal id.toNat) := by
  rw [putInt_id, if_pos ((length_decimal_id id).trans (by decide))]
  rfl

variable {start : ℕ}

theorem instancesLength_eq {index : ℕ} (template : List Byte) (ids : List UInt16)
    (h : start + template.length < index) :
    instancesLength start template.length index ids =
      pure (index + (instancesText template ids).length) := by
  induction ids generalizing index with
  | nil => rfl
  | cons id next ih =>
    have hnext := @ih (index + template.length + (decimal id.toNat).length +
      regPathEnd.length) (by omega)
    rw [instancesLength, if_pos h.ne', putInt_id_small, pure_bind, hnext, instancesText,
      instancesText, List.flatMap_cons]
    simp only [List.length_append, Nat.add_assoc]

theorem instancesLength_first (template : List Byte) {ids : List UInt16} (h : ids ≠ []) :
    instancesLength start template.length (start + template.length) ids =
      pure (start + (instancesText template ids).length) := by
  obtain ⟨id, next, rfl⟩ := List.exists_cons_of_ne_nil h
  have hpos := length_decimal_pos id.toNat
  rw [instancesLength, if_neg (not_not.mpr rfl), putInt_id_small, pure_bind,
    instancesLength_eq template next (by omega), instancesText, instancesText, List.flatMap_cons]
  simp only [List.length_append, Nat.add_assoc]

/-- **The length of an object** is that of its links, unless it is the OSCORE object. -/
theorem objectLength_eq (objectP : ObjectEntry) (index : ℕ) :
    objectLength objectP index = pure (index +
      if objectP.objID = lwm2mOscoreObjectId then 0 else (objectText objectP).length) := by
  unfold objectLength
  by_cases hid : objectP.objID = lwm2mSecurityObjectId
  · have htext : objectText objectP = [] := if_pos hid
    rw [if_pos hid, htext, List.length_nil, ite_self, Nat.add_zero]
  rw [if_neg hid]
  by_cases hoscore : objectP.objID = lwm2mOscoreObjectId
  · rw [if_pos hoscore, if_pos hoscore, Nat.add_zero]
  rw [if_neg hoscore, if_neg hoscore]
  have hpath := length_objectPath objectP.objID
  have hdigits := length_decimal_id objectP.objID
  have htemplate : prvGetObjectTemplate (regObjectMinLen + 5) objectP.objID =
      pure (objectPath objectP.objID ++ [0x2F]) := by
    rw [prvGetObjectTemplate_eq, if_pos (by unfold regObjectMinLen; omega)]
  have hversionText (version : UInt8) :
      putUint (regObjectMinLen + 5) version.toNat [] = decimal version.toNat := by
    rw [putUint_eq, if_pos ((length_decimal_version version).trans (by decide)), List.nil_append]
  have hlength : (objectPath objectP.objID ++ [0x2F]).length =
      (objectPath objectP.objID).length + 1 := List.length_append
  dsimp only
  rw [htemplate, pure_bind, objectText, if_neg hid, objectLink]
  by_cases hversion : objectP.HasVersion
  · rw [if_pos hversion, if_pos hversion, hversionText, hversionText]
    have hindex : index + (objectPath objectP.objID ++ [0x2F]).length - 1 +
        regVersionStart.length + (decimal objectP.versionMajor.toNat).length + 1 +
          (decimal objectP.versionMinor.toNat).length + 1 =
            index + (objectPath objectP.objID ++ versionText objectP).length := by
      rw [List.length_append, List.length_append, length_versionText]
      change index + (_ + 1) - 1 + 6 + _ + 1 + _ + 1 = _
      omega
    rw [hindex]
    by_cases hnone : objectP.instanceList = []
    · rw [if_pos hnone, hnone, instancesText, List.flatMap_nil, List.append_nil]
    · rw [if_neg hnone, instancesLength_first _ hnone, @List.length_append _ (_ ++ _),
        Nat.add_assoc]
  · rw [if_neg hversion, if_neg hversion]
    by_cases hnone : objectP.instanceList = []
    · rw [if_pos hnone, if_pos hnone, hnone, instancesText, List.flatMap_nil, List.append_nil,
        @List.length_append _ (objectPath _) regPathEnd, hlength]
      refine congrArg pure ?_
      omega
    · rw [if_neg hnone, if_neg hnone, instancesLength_first _ hnone, List.nil_append]

/-- The objects that the length counts. -/
def countedObjects (objectList : List ObjectEntry) : List ObjectEntry :=
  objectList.filter (·.objID ≠ lwm2mOscoreObjectId)

theorem foldlM_objectLength (objectList : List ObjectEntry) (index : ℕ) :
    objectList.foldlM (fun index objectP => objectLength objectP index) index =
      (pure (index + ((countedObjects objectList).flatMap objectText).length) :
        OptionT (Except Fault) ℕ) := by
  induction objectList generalizing index with
  | nil => rfl
  | cons objectP next ih =>
    rw [List.foldlM_cons, objectLength_eq, pure_bind, ih, countedObjects, countedObjects]
    by_cases h : objectP.objID = lwm2mOscoreObjectId
    · rw [if_pos h, List.filter_cons_of_neg (by simpa using h), Nat.add_zero]
    · rw [if_neg h, List.filter_cons_of_pos (by simpa using h), List.flatMap_cons,
        List.length_append, Nat.add_assoc]

/-- The text in front of the objects. -/
def payloadHead (support : JsonSupport) (contextP : RegistrationContext) : List Byte :=
  regStart ++ contextP.path ++ regLwm2mResourceType support

/-- **The size of the payload** is that of the text without the OSCORE object, and a NUL. -/
theorem bufferLength_eq (support : JsonSupport) (contextP : RegistrationContext) :
    objectGetRegisterPayloadBufferLength support contextP =
      pure (Int32.ofNat ((payloadHead support contextP).length +
        ((countedObjects contextP.objectList).flatMap objectText).length + 1)).toInt := by
  unfold objectGetRegisterPayloadBufferLength
  dsimp only
  rw [foldlM_objectLength, pure_bind, payloadHead, List.length_append, List.length_append]

/-- The OSCORE object takes six bytes or more. -/
theorem oscore_length {objectP : ObjectEntry} (h : objectP.objID = lwm2mOscoreObjectId) :
    6 ≤ (objectText objectP).length := by
  have hid : objectP.objID ≠ lwm2mSecurityObjectId := by
    rw [h]
    decide
  have hpath : (objectPath objectP.objID).length = 4 := by
    rw [h]
    decide
  have hend : regPathEnd.length = 2 := rfl
  have hversion := length_versionText objectP
  rw [objectText, if_neg hid, objectLink, List.length_append]
  split_ifs with _ hnone
  · rw [List.length_append]
    omega
  · rw [List.length_append]
    omega
  · obtain ⟨first, next, hids⟩ := List.exists_cons_of_ne_nil hnone
    rw [hids, instancesText, List.flatMap_cons]
    simp only [List.length_append]
    omega

/-- The objects that are not counted make the text longer. -/
theorem length_countedObjects (objectList : List ObjectEntry) :
    ((countedObjects objectList).flatMap objectText).length ≤
        (objectList.flatMap objectText).length ∧
      (¬ (∀ objectP ∈ objectList, objectP.objID ≠ lwm2mOscoreObjectId) →
        ((countedObjects objectList).flatMap objectText).length + 6 ≤
          (objectList.flatMap objectText).length) := by
  induction objectList with
  | nil => exact ⟨le_rfl, fun h => absurd (List.forall_mem_nil _) h⟩
  | cons objectP next ih =>
    rw [countedObjects] at ih ⊢
    rw [List.flatMap_cons, List.length_append]
    by_cases h : objectP.objID = lwm2mOscoreObjectId
    · have hlength := oscore_length h
      rw [List.filter_cons_of_neg (by simpa using h)]
      exact ⟨by omega, fun _ => by omega⟩
    · rw [List.filter_cons_of_pos (by simpa using h), List.flatMap_cons, List.length_append]
      refine ⟨by omega, fun hall => ?_⟩
      have hnext := ih.2 fun hnext => hall (List.forall_mem_cons.mpr ⟨h, hnext⟩)
      omega

theorem appends_writeHead (support : JsonSupport) (contextP : RegistrationContext) :
    Appends bufferLen (writeHead bufferLen support contextP) []
      (payloadHead support contextP) :=
  ((appends_stringCopy regStart).bind ((appends_stringCopy contextP.path).bind
    (appends_stringCopy (regLwm2mResourceType support)))).congr (List.append_assoc _ _ _).symm

variable {support : JsonSupport} {contextP : RegistrationContext}

theorem payloadText_eq : payloadText support contextP =
    payloadHead support contextP ++ contextP.objectList.flatMap objectText := rfl

theorem payloadHead_ne_nil : payloadHead support contextP ≠ [] := List.cons_ne_nil _ _

/-- The payload is written when there is room for its text and a NUL. -/
theorem objectGetRegisterPayload_fits (h : (payloadText support contextP).length < bufferLen) :
    objectGetRegisterPayload support contextP bufferLen =
      pure (payloadText support contextP).dropLast := by
  have hlength := h
  rw [payloadText_eq, List.length_append] at hlength
  unfold objectGetRegisterPayload
  rw [(appends_writeHead support contextP).fits (by rw [List.length_nil]; omega), pure_bind,
    List.nil_append, writeObjects_fits hlength, pure_bind, ← payloadText_eq]
  dsimp only
  rw [put_eq (by
    rw [List.length_dropLast, List.length_singleton]
    omega)]
  rfl

/-- **What a payload takes**: its text with a comma behind it fits, or the version of an object
takes the rest of the buffer. -/
theorem length_of_payload {payload : List Byte}
    (h : objectGetRegisterPayload support contextP bufferLen = pure payload) :
    payload.length + 1 = (payloadText support contextP).length ∨
      (payload.length + 1 = bufferLen ∧
        (payloadText support contextP).length ≤ bufferLen + 6) ∨
      (bufferLen ≤ payload.length + 2 ∧
        (payloadText support contextP).length ≤ bufferLen + 2) := by
  obtain ⟨buffer₁, hhead, h⟩ := bind_eq_pure_iff.mp h
  obtain ⟨buffer₂, hobjects, h⟩ := bind_eq_pure_iff.mp h
  obtain ⟨_, hput, h⟩ := bind_eq_pure_iff.mp h
  have hroom := lt_of_put hput
  have hpayload := congrArg List.length (pure_inj h)
  rw [List.length_dropLast] at hpayload
  have hhead := (appends_writeHead support contextP).only _ hhead
  rw [List.nil_append] at hhead
  have hpos := List.length_pos_of_ne_nil (@payloadHead_ne_nil support contextP)
  rw [payloadText_eq, ← hhead, List.length_append]
  rw [← hhead] at hpos
  rcases writeObjects_only hobjects with honly | hcut
  · have hlength := congrArg List.length honly
    rw [List.length_append] at hlength
    omega
  · unfold CutShort at hcut
    omega

/-- What the conversion to an `int` keeps of a number. -/
theorem eq_of_int32 {n m : ℕ} (h : (Int32.ofNat n).toInt = m) :
    m < 2 ^ 31 ∧ ∃ k, n = m + k * 2 ^ 32 := by
  have hlt := (Int32.ofNat n).toInt_lt
  rw [h] at hlt
  rw [Int32.toInt_ofNat'] at h
  have hmod := Int.bmod_emod (x := (n : ℤ)) (m := Int32.size)
  rw [h] at hmod
  change (m : ℤ) % 4294967296 = n % 4294967296 at hmod
  exact ⟨by omega, n / 2 ^ 32, by omega⟩

/-- **When the size of the payload is exact.** -/
theorem payloadSizeExact_iff : PayloadSizeExact support contextP ↔
    (∀ objectP ∈ contextP.objectList, objectP.objID ≠ lwm2mOscoreObjectId) ∧
      (payloadText support contextP).length + 1 < 2 ^ 31 := by
  obtain ⟨hle, hoscore⟩ := length_countedObjects contextP.objectList
  have htext := congrArg List.length (@payloadText_eq support contextP)
  rw [List.length_append] at htext
  unfold PayloadSizeExact
  rw [bufferLength_eq]
  constructor
  · rintro ⟨length, payload, hlength, hpayload, hexact⟩
    obtain ⟨hlt, k, hk⟩ := eq_of_int32 (pure_inj hlength)
    have htakes := length_of_payload hpayload
    by_cases hall : ∀ objectP ∈ contextP.objectList, objectP.objID ≠ lwm2mOscoreObjectId
    · have hcounted : countedObjects contextP.objectList = contextP.objectList :=
        List.filter_eq_self.mpr fun objectP h => decide_eq_true (hall objectP h)
      rw [hcounted] at hk
      exact ⟨hall, by omega⟩
    · have hmore := hoscore hall
      omega
  · rintro ⟨hall, hlt⟩
    have hcounted : countedObjects contextP.objectList = contextP.objectList :=
      List.filter_eq_self.mpr fun objectP h => decide_eq_true (hall objectP h)
    rw [hcounted, ← htext, Int32.toInt_ofNat_of_lt hlt]
    refine ⟨_, _, rfl, objectGetRegisterPayload_fits (Nat.lt_succ_self _), ?_⟩
    rw [List.length_dropLast]
    have hpos := List.length_pos_of_ne_nil (@payloadHead_ne_nil support contextP)
    omega

end payload

/-! ### The query, written -/

section query

variable {length : ℕ} {buffer : List Byte} {contextP : RegistrationContext}
  {server : RegistrationServer}

theorem appends_writeLetters (binding : UInt8) (letters : List (UInt8 × Byte)) :
    Appends length (writeLetters length binding letters) buffer
      (transportLetters binding letters) := by
  induction letters generalizing buffer with
  | nil => exact .skip length buffer
  | cons entry next ih =>
    obtain ⟨mask, letter⟩ := entry
    refine (Appends.bind (.ite (fun _ => appends_putByte letter) fun _ => .skip length buffer)
      ih).congr ?_
    unfold transportLetters
    by_cases h : Sets binding mask
    · rw [if_pos h, List.filter_cons_of_pos (by simpa using h)]
      rfl
    · rw [if_neg h, List.filter_cons_of_neg (by simpa using h)]
      rfl

theorem appends_writeMsisdn (msisdn : Option CString) :
    Appends length (writeMsisdn length msisdn) buffer (msisdnText msisdn) := by
  cases msisdn with
  | none => exact .skip length buffer
  | some msisdn => exact (appends_stringCopy querySms).bind (appends_stringCopy msisdn)

/-- The query is made of the pieces that are written. -/
theorem appends_writeQuery :
    Appends length (writeQuery length contextP server) buffer
      (registrationQueryText contextP server) := by
  have hbinding (buffer : List Byte) : Appends length (writeBinding length server.binding) buffer
      (if HasTransport server.binding then
        queryBinding ++ transportLetters server.binding bindingLetters
      else []) :=
    .ite (fun _ => (appends_stringCopy queryBinding).bind
      (appends_writeLetters server.binding bindingLetters)) fun _ => .skip length buffer
  have hqueue (buffer : List Byte) : Appends length (writeQueueMode length server.binding) buffer
      (if Sets server.binding bindingQ then queryQueueMode else []) :=
    .ite (fun _ => appends_stringCopy queryQueueMode) fun _ => .skip length buffer
  have hlifetime (buffer : List Byte) : Appends length (writeLifetime length server.lifetime) buffer
      (if server.lifetime ≠ 0 then queryLifetime ++ intText server.lifetime.toInt else []) :=
    .ite (fun _ => (appends_stringCopy queryLifetime).bind
      (appends_putInt server.lifetime.le_toInt server.lifetime.toInt_lt)) fun _ =>
        .skip length buffer
  refine ((appends_stringCopy queryStart).bind ((appends_stringCopy contextP.endpointName).bind
    ((appends_writeMsisdn contextP.msisdn).bind ((hbinding _).bind ((hqueue _).bind
      (hlifetime _)))))).congr ?_
  simp only [registrationQueryText, List.append_assoc]

theorem prvGetRegistrationQuery_fits
    (h : (registrationQueryText contextP server).length < length) :
    prvGetRegistrationQuery contextP server length =
      pure (registrationQueryText contextP server ++ [0]) := by
  unfold prvGetRegistrationQuery
  rw [appends_writeQuery.fits (by rw [List.length_nil]; omega), pure_bind, List.nil_append]
  exact (if_neg (by omega)).trans (put_eq h)

/-- What is written is the query with its NUL. -/
theorem prvGetRegistrationQuery_only {query : List Byte}
    (h : prvGetRegistrationQuery contextP server length = pure query) :
    query = registrationQueryText contextP server ++ [0] := by
  obtain ⟨buffer, hbuffer, hquery⟩ := bind_eq_pure_iff.mp h
  rw [(appends_putByte 0).only _ hquery, appends_writeQuery.only _ hbuffer, List.nil_append]

/-- The letters of a binding are counted one by one. -/
theorem foldl_transportLetters (binding : UInt8) (letters : List (UInt8 × Byte)) (index : ℕ) :
    letters.foldl (fun index entry => if Sets binding entry.1 then index + 1 else index) index =
      index + (transportLetters binding letters).length := by
  induction letters generalizing index with
  | nil => rfl
  | cons entry next ih =>
    rw [List.foldl_cons, ih]
    unfold transportLetters
    by_cases h : Sets binding entry.1
    · rw [if_pos h, List.filter_cons_of_pos (by simpa using h), List.map_cons, List.length_cons]
      omega
    · rw [if_neg h, List.filter_cons_of_neg (by simpa using h)]

/-- **The size of the query** is that of its text and a NUL. -/
theorem prvGetRegistrationQueryLength_eq :
    prvGetRegistrationQueryLength contextP server =
      pure (Int32.ofNat ((registrationQueryText contextP server).length + 1)).toInt := by
  have hmsisdn (index : ℕ) : (match contextP.msisdn with
      | none => index
      | some msisdn => index + querySms.length + msisdn.length) =
        index + (msisdnText contextP.msisdn).length := by
    cases contextP.msisdn with
    | none => rfl
    | some msisdn =>
      rw [msisdnText, List.length_append]
      exact Nat.add_assoc ..
  have hlifetime : putInt 21 server.lifetime.toInt [] = pure (intText server.lifetime.toInt) := by
    have hmin := server.lifetime.le_toInt
    have hmax := server.lifetime.toInt_lt
    have hlength := intText_length_le hmin hmax
    exact (appends_putInt hmin hmax).fits (by rw [List.length_nil]; omega)
  unfold prvGetRegistrationQueryLength registrationQueryText
  dsimp only
  rw [hmsisdn, hlifetime, foldl_transportLetters]
  simp only [List.length_append]
  by_cases hzero : server.lifetime = 0
  · rw [if_pos hzero, if_neg (not_not.mpr hzero)]
    split_ifs <;> simp only [List.length_append, List.length_nil, Nat.add_zero, Nat.add_assoc]
  · rw [if_neg hzero, if_pos hzero, pure_bind]
    split_ifs <;> simp only [List.length_append, List.length_nil, Nat.add_zero, Nat.add_assoc]

/-- **When the size of the query is exact.** -/
theorem querySizeExact_iff : QuerySizeExact contextP server ↔
    (registrationQueryText contextP server).length + 1 < 2 ^ 31 := by
  unfold QuerySizeExact
  rw [prvGetRegistrationQueryLength_eq]
  constructor
  · rintro ⟨length, query, hlength, hquery, hexact⟩
    obtain ⟨hlt, _⟩ := eq_of_int32 (pure_inj hlength)
    have hquery := congrArg List.length (prvGetRegistrationQuery_only hquery)
    rw [List.length_append, List.length_singleton] at hquery
    omega
  · intro hlt
    rw [Int32.toInt_ofNat_of_lt hlt]
    refine ⟨_, _, rfl, prvGetRegistrationQuery_fits (Nat.lt_succ_self _), ?_⟩
    rw [List.length_append, List.length_singleton]

end query

/-- **When the sizes of a registration are exact**: there is no OSCORE object, and the texts and
what stands behind them are shorter than 2 ^ 31 bytes. -/
theorem registrationSizes_exact_iff (support : JsonSupport) (contextP : RegistrationContext)
    (server : RegistrationServer) :
    RegistrationSizesExact support contextP server ↔
      (∀ objectP ∈ contextP.objectList, objectP.objID ≠ lwm2mOscoreObjectId) ∧
        (payloadText support contextP).length + 1 < 2 ^ 31 ∧
          (registrationQueryText contextP server).length + 1 < 2 ^ 31 := by
  unfold RegistrationSizesExact
  rw [payloadSizeExact_iff, querySizeExact_iff, and_assoc]

/-- **A client with an OSCORE object** has no room for its link. -/
theorem oscoreObject_fails : ¬ ∀ (support : JsonSupport) (contextP : RegistrationContext)
    (server : RegistrationServer), RegistrationSizesExact support contextP server := by
  intro h
  have hexact := (h .senmlJson ⟨[0x61], none, none, [{ objID := 21, instanceList := [0] }]⟩
    ⟨0x03, 300⟩).1
  exact (payloadSizeExact_iff.mp hexact).1 _ List.mem_cons_self rfl

end Lwm2m.Core

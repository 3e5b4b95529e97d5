/-
# Device management requests

`dm_handleRequest` of `core/management.c`: the requests of a server the client is
registered to.  What the object layer does for a request is an input (`Outcome`):
the results of the object functions it calls, the value read, the attributes that
`prv_readAttributes` finds in the query, and the object list afterwards.
-/

import Lwm2m.Core.Observe
import Lwm2m.Core.Registration
import Lwm2m.Core.Bootstrap
import Lwm2m.Library.Decimal

namespace Lwm2m.Core

open Coap Code Library

/-- What the object layer does for one request of a server. -/
structure Outcome where
  /-- `lwm2m_gettime`. -/
  time : ℤ := 0
  /-- `object_readData` for an Observe request, and the value it reads. -/
  readData : Code := noError
  value : DecodedValue := .other
  /-- `utils_getResponseFormat` on that value. -/
  responseFormat : Code × UInt16 := (noError, 0)
  /-- `lwm2m_data_serialize` in that format. -/
  serialized : Option (List Byte) := none
  /-- `object_discover` or `object_read`: code, format and payload. -/
  read : Code × UInt16 × List Byte := (noError, 0, [])
  /-- `prv_readAttributes`. -/
  attributes : Option Attributes := none
  /-- `object_checkReadable`. -/
  checkReadable : Code := noError
  /-- The result of `object_create`, `object_execute` or `object_write`. -/
  code : Code := noError
  /-- The instance that `object_create` made. -/
  instanceId : UInt16 := lwm2mMaxId
  /-- The result of `object_delete`. -/
  deletion : Deletion := ⟨0, [], noError⟩
  /-- The object list after the request. -/
  objectList : List ObjectEntry := []
  /-- The Security object, read when the server list is empty. -/
  security : Option SecurityInstances := none
  /-- What the object layer does for a bootstrap command. -/
  bootstrap : BootstrapOutcome := {}
  /-- The deletions of a DELETE on the root. -/
  deletions : List Deletion := []
  deriving DecidableEq, Repr

/-- `utils_convertMediaType`: the content formats that are supported, and text for any
other. -/
def utilsConvertMediaType (type : UInt32) : UInt16 :=
  if type.toUInt16 ∈ [40, 42, 110, 11542, 11543] then type.toUInt16 else 0

/-- The statuses in which `dm_handleRequest` serves a server. -/
def servesRequests (status : Status) : Prop :=
  status = .registered ∨ status = .regUpdateNeeded ∨ status = .regFullUpdateNeeded ∨
    status = .regUpdatePending

instance (status : Status) : Decidable (servesRequests status) :=
  inferInstanceAs (Decidable (_ ∨ _))

/-- The GET of `dm_handleRequest` with an Observe option. -/
def observeRequest (contextP : Context) (uriP : Uri) (serverP : Server)
    (message response : Packet) (outcome : Outcome) : Except Fault (Context × Packet × Code) := do
  if outcome.readData ≠ coap205Content then return (contextP, response, outcome.readData)
  let (result, format) := outcome.responseFormat
  if result ≠ coap205Content then return (contextP, response, result)
  let response := response.coapSetHeaderContentType format.toUInt32
  let (observedList, response, result) ← observeHandleRequest contextP.serverList
    contextP.observedList uriP serverP outcome.value outcome.time message response
  let contextP := { contextP with observedList }
  if result ≠ coap205Content then return (contextP, response, result)
  match outcome.serialized with
  | none => return (contextP, response, coap500InternalServerError)
  | some buffer =>
    return (contextP, (response.coapSetHeaderContentType format.toUInt32).coapSetPayload buffer,
      coap205Content)

/-- The POST of `dm_handleRequest`; `isText` tells that there is no Content-Format option
or that it is text. -/
def postRequest (contextP : Context) (uriP : Uri) (response : Packet) (outcome : Outcome)
    (isText : Bool) : Context × Packet × Code :=
  let acted := { contextP with objectList := outcome.objectList }
  if ¬ uriP.isSetInstance then
    if outcome.code = coap201Created then
      if outcome.instanceId = lwm2mMaxId then (acted, response, coap500InternalServerError)
      else
        let response := { response with
          locationPath := [decimal uriP.objectId.toNat, decimal outcome.instanceId.toNat] }
        ((lwm2mUpdateRegistration acted outcome.security 0 true).1,
          response.markOption .locationPath, outcome.code)
    else (acted, response, outcome.code)
  else if isText ∧ (¬ uriP.isSetResource ∨ uriP.isSetResourceInstance) then
    (contextP, response, coap400BadRequest)
  else (acted, response, outcome.code)

/-- The PUT of `dm_handleRequest`. -/
def putRequest (contextP : Context) (uriP : Uri) (serverP : Server) (message response : Packet)
    (outcome : Outcome) : Except Fault (Context × Packet × Code) := do
  if message.isOption .uriQuery then
    match outcome.attributes with
    | none => return (contextP, response, coap400BadRequest)
    | some attr =>
      let (observedList, result) ← observeSetParameters contextP.observedList uriP serverP.ref attr
        outcome.checkReadable
      return ({ contextP with observedList }, response, result)
  else if uriP.isSetInstance then
    return ({ contextP with objectList := outcome.objectList }, response, outcome.code)
  else return (contextP, response, coap400BadRequest)

/-- The DELETE of `dm_handleRequest`. -/
def deleteRequest (contextP : Context) (uriP : Uri) (response : Packet) (outcome : Outcome) :
    Context × Packet × Code :=
  if ¬ uriP.isSetInstance ∨ uriP.isSetResource then (contextP, response, coap400BadRequest)
  else
    let deleted := { contextP with
      objectList := outcome.objectList
      observedList := clearDeleted contextP.observedList outcome.deletion }
    if outcome.deletion.code = coap202Deleted then
      ((lwm2mUpdateRegistration deleted outcome.security 0 true).1, response, coap202Deleted)
    else (deleted, response, outcome.deletion.code)

/-- `dm_handleRequest`. -/
def dmHandleRequest (contextP : Context) (uriP : Uri) (serverP : Server)
    (message response : Packet) (outcome : Outcome) : Except Fault (Context × Packet × Code) := do
  if uriP.objectId = lwm2mSecurityObjectId then return (contextP, response, coap401Unauthorized)
  if ¬ servesRequests serverP.status then return (contextP, response, coapIgnore)
  if message.code = 1 then
    if message.isOption .observe then
      observeRequest contextP uriP serverP message response outcome
    else
      let (result, format, payload) := outcome.read
      if result = coap205Content then
        return (contextP,
          (response.coapSetHeaderContentType format.toUInt32).coapSetPayload payload, result)
      else return (contextP, response, result)
  else if message.code = 2 then
    let isText := !message.isOption .contentType || utilsConvertMediaType message.contentType == 0
    return postRequest contextP uriP response outcome isText
  else if message.code = 3 then putRequest contextP uriP serverP message response outcome
  else if message.code = 4 then return deleteRequest contextP uriP response outcome
  else return (contextP, response, coap400BadRequest)

end Lwm2m.Core

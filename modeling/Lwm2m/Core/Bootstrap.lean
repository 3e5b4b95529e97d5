/-
# Bootstrap commands

`core/bootstrap.c` on the client side: the commands of a bootstrap server, which
write and delete the Security and Server objects and mark the servers that these
writes concern.

What the object layer does for a command is an input (`BootstrapOutcome`): the
codes that the object functions return and the instances that were deleted.
`object_delete` clears the observations of every instance it deletes.
-/

import Lwm2m.Core.Observe
import Lwm2m.Core.Servers

namespace Lwm2m.Core

open Coap Code

/-- A decoded item of an object-level write, with what the object layer answers. -/
structure BootstrapItem where
  id : UInt16
  isObjectInstance : Bool
  isNew : Bool
  code : Code
  deriving DecidableEq, Repr

/-- The deletions made by one call of `object_delete` (or by one loop of such calls):
the object, the instances deleted, and the last result. -/
structure Deletion where
  objectId : UInt16
  deleted : List UInt16
  code : Code
  deriving DecidableEq, Repr

/-- What the object layer does for one bootstrap command. -/
structure BootstrapOutcome where
  /-- `object_isInstanceNew`. -/
  isNew : Bool := false
  /-- The result of `object_create` or `object_write`. -/
  code : Code := noError
  /-- The decoded payload of an object-level write, if it is not empty. -/
  items : Option (List BootstrapItem) := none
  /-- The deletions of a DELETE. -/
  deletion : Deletion := ⟨0, [], noError⟩
  /-- Whether a DELETE of the Security object finds that object. -/
  hasSecurity : Bool := true
  /-- The answer of a discover or a read: code, format and payload. -/
  read : Code × UInt16 × List Byte := (noError, 0, [])
  deriving DecidableEq, Repr

/-- A server of the bootstrap list, changed in place. -/
def setBootstrapServer (contextP : Context) (ref : ServerRef) (f : Server → Server) : Context :=
  { contextP with
    bootstrapServerList := contextP.bootstrapServerList.map fun server =>
      if server.ref = ref then f server else server }

/-- `prv_checkServerStatus`, or `none` when the command is ignored. -/
def prvCheckServerStatus (status : Status) : Option Status :=
  match status with
  | .bsHoldOff => some .bsPending
  | .bsInitiated => some .bsPending
  | .deregistered => some .deregistered
  | .bsPending => some .bsPending
  | _ => none

/-- `observe_clear` for the instances that were deleted. -/
def clearDeleted (observedList : List Observed) (deletion : Deletion) : List Observed :=
  deletion.deleted.foldl
    (fun observedList instanceId =>
      observeClear observedList { objectId := deletion.objectId, instanceId }) observedList

/-- The loop of an object-level write: the marks it makes and its result. -/
def writeItems (contextP : Context) (objectId : UInt16) (result : Code) :
    List BootstrapItem → Context × Code
  | [] => (contextP, result)
  | item :: next =>
    if item.isObjectInstance then
      let result :=
        if item.isNew ∧ item.code = coap201Created then coap204Changed else item.code
      let contextP :=
        if ¬ item.isNew ∧ objectId = lwm2mSecurityObjectId ∧ result = coap204Changed then
          prvTagServer contextP item.id
        else contextP
      if result ≠ coap204Changed then (contextP, result)
      else writeItems contextP objectId result next
    else writeItems contextP objectId coap400BadRequest next

/-- The PUT of `bootstrap_handleCommand`. -/
def bootstrapWrite (contextP : Context) (uriP : Uri) (message : Packet)
    (outcome : BootstrapOutcome) : Context × Code :=
  if uriP.isSetInstance then
    if outcome.isNew then
      (contextP, if outcome.code = coap201Created then coap204Changed else outcome.code)
    else if uriP.objectId = lwm2mSecurityObjectId ∧ outcome.code = coap204Changed then
      (prvTagServer contextP uriP.instanceId, outcome.code)
    else (contextP, outcome.code)
  else if message.payload.length = 0 then (contextP, coap400BadRequest)
  else
    match outcome.items with
    | none => (contextP, coap500InternalServerError)
    | some items => writeItems contextP uriP.objectId noError items

/-- The DELETE of `bootstrap_handleCommand`. -/
def bootstrapDelete (contextP : Context) (uriP : Uri) (serverP : ServerRef)
    (outcome : BootstrapOutcome) : Context × Code :=
  if uriP.isSetResource then (contextP, coap400BadRequest)
  else
    let code := outcome.deletion.code
    let cleared := { contextP with
      observedList := clearDeleted contextP.observedList outcome.deletion }
    if uriP.objectId = lwm2mSecurityObjectId ∧ code = coap202Deleted then
      if uriP.isSetInstance then (prvTagServer cleared uriP.instanceId, code)
      else if outcome.hasSecurity then (prvTagAllServer cleared (some serverP), code)
      else (cleared, code)
    else (cleared, code)

/-- `bootstrap_handleCommand`. -/
def bootstrapHandleCommand (contextP : Context) (uriP : Uri) (serverP : Server)
    (message response : Packet) (outcome : BootstrapOutcome) : Context × Packet × Code :=
  match prvCheckServerStatus serverP.status with
  | none => (contextP, response, coapIgnore)
  | some status =>
    let contextP := setBootstrapServer contextP serverP.ref ({ · with status })
    let (contextP, response, result) :=
      if message.code = 3 then
        let (contextP, result) := bootstrapWrite contextP uriP message outcome
        (contextP, response, result)
      else if message.code = 4 then
        let (contextP, result) := bootstrapDelete contextP uriP serverP.ref outcome
        (contextP, response, result)
      else if message.code = 1 then
        let (result, format, payload) := outcome.read
        if result = coap205Content then
          (contextP,
            (response.coapSetHeaderContentType format.toUInt32).coapSetPayload payload, result)
        else (contextP, response, result)
      else (contextP, response, coap400BadRequest)
    if (result = coap202Deleted ∨ result = coap204Changed) ∧ status ≠ .bsPending then
      ({ setBootstrapServer contextP serverP.ref ({ · with status := .bsPending }) with
        state := .bootstrapping }, response, result)
    else (contextP, response, result)

/-- `bootstrap_handleDeleteAll`; `deletions` are those made for each object in turn. -/
def bootstrapHandleDeleteAll (contextP : Context) (fromSessionH : Session)
    (deletions : List Deletion) : Context × Code :=
  match utilsFindServer contextP.bootstrapServerList fromSessionH with
  | none => (contextP, coapIgnore)
  | some serverP =>
    match prvCheckServerStatus serverP.status with
    | none => (contextP, coapIgnore)
    | some status =>
      let contextP := setBootstrapServer contextP serverP.ref ({ · with status })
      deletions.foldl (fun (contextP, _) deletion =>
        let contextP := { contextP with
          observedList := clearDeleted contextP.observedList deletion }
        if deletion.objectId = lwm2mSecurityObjectId then
          (if deletion.code = coap202Deleted then prvTagAllServer contextP (some serverP.ref)
            else contextP, deletion.code)
        else
          (contextP,
            if deletion.code = coap405MethodNotAllowed then coap202Deleted else deletion.code))
        (contextP, coap202Deleted)

/-- What a change of status, a clearing of observations and the marking of all servers
preserve holds after a DELETE on the root. -/
theorem bootstrapHandleDeleteAll_invariant {I : Context → Prop}
    (status : ∀ c ref f, I c → I (setBootstrapServer c ref f))
    (clear : ∀ c deletion, I c → I { c with observedList := clearDeleted c.observedList deletion })
    (tag : ∀ c serverP, I c → I (prvTagAllServer c serverP))
    {contextP : Context} (fromSessionH : Session) (deletions : List Deletion) (h : I contextP) :
    I (bootstrapHandleDeleteAll contextP fromSessionH deletions).1 := by
  unfold bootstrapHandleDeleteAll
  split
  · exact h
  rename_i serverP _
  split
  · exact h
  rename_i newStatus _
  have hset := status contextP serverP.ref ({ · with status := newStatus }) h
  refine List.foldlRecOn (motive := fun acc : Context × Code => I acc.1) deletions _ hset
    fun acc hacc deletion _ => ?_
  have hcleared := clear acc.1 deletion hacc
  split_ifs
  · exact tag _ _ hcleared
  · exact hcleared
  · exact hcleared
  · exact hcleared

/-- `bootstrap_handleFinish`. -/
def bootstrapHandleFinish (contextP : Context) (fromSessionH : Session)
    (security : Option SecurityInstances) : Context × Code :=
  match utilsFindServer contextP.bootstrapServerList fromSessionH with
  | none => (contextP, coapIgnore)
  | some bootstrapServer =>
    if bootstrapServer.status = .bsPending then
      let (contextP, res) := objectGetServers contextP security true
      if res = 0 then
        (setBootstrapServer contextP bootstrapServer.ref ({ · with status := .bsFinishing }),
          coap204Changed)
      else (contextP, coap406NotAcceptable)
    else (contextP, coapIgnore)

end Lwm2m.Core

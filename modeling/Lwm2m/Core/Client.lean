/-
# The client as a state machine

`lwm2m_step` of `core/liblwm2m.c` and the events that drive the client: received
requests and resets, calls of the application, steps.

What `registration.c`, `bootstrap.c` and the transactions do to a server between
two of these events is an update in place (`InPlace`): it changes fields of the
server, never which server it is.  Only `prv_refreshServerList`, which
`lwm2m_step` calls in state INITIAL, takes servers off the list.
-/

import Lwm2m.Core.Request

namespace Lwm2m.Core

open Coap Code Library

/-- An update of the fields of servers that keeps every server the one it is. -/
structure InPlace where
  update : Server → Server
  ref_update : ∀ server, (update server).ref = server.ref

/-- The update that changes nothing. -/
def InPlace.refl : InPlace := ⟨id, fun _ => rfl⟩

/-- `bootstrap_getStatus`. -/
def bootstrapGetStatus (bootstrapServerList : List Server) : Status :=
  bootstrapServerList.foldl (fun bsStatus targetP =>
    match targetP.status with
    | .bsFinished => if bsStatus = .bsFailed then .bsFinished else bsStatus
    | .bsHoldOff | .bsInitiated | .bsPending | .bsFinishing | .bsFailing => .bsPending
    | _ => bsStatus) .bsFailed

/-- `registration_getStatus`. -/
def registrationGetStatus (serverList : List Server) : Status :=
  serverList.foldl (fun regStatus targetP =>
    match targetP.status with
    | .registered | .regUpdateNeeded | .regFullUpdateNeeded | .regUpdatePending | .deregPending =>
      if regStatus = .regFailed then .registered else regStatus
    | .regHoldOff | .regPending => .regPending
    | _ => regStatus) .regFailed

/-- What one `lwm2m_step` meets. -/
structure StepEnv where
  /-- `lwm2m_gettime`. -/
  time : ℤ := 0
  /-- The content of the Security and Server objects. -/
  security : Option SecurityInstances := none
  /-- The object layer, for each observed URI. -/
  observe : Uri → StepInput
  /-- `registration_start` on the servers, and its result. -/
  start : InPlace := .refl
  startResult : Code := noError
  /-- `registration_step` and `transaction_step` on the servers. -/
  servers : InPlace := .refl
  /-- `bootstrap_start` and `bootstrap_step` on the bootstrap servers. -/
  bootstrapServers : InPlace := .refl
  /-- The message-ids used by the messages of the step. -/
  messages : UInt16 := 0

/-- State BOOTSTRAP_REQUIRED of `lwm2m_step`; a code is returned when the step ends here. -/
def stepBootstrapRequired (contextP : Context) (env : StepEnv) : Context × Option Code :=
  if contextP.bootstrapServerList ≠ [] then
    ({ contextP with
      bootstrapServerList := contextP.bootstrapServerList.map env.bootstrapServers.update
      state := .bootstrapping }, none)
  else (contextP, some coap503ServiceUnavailable)

/-- State REGISTER_REQUIRED of `lwm2m_step`. -/
def stepRegisterRequired (contextP : Context) (env : StepEnv) : Context × Option Code :=
  let contextP := { contextP with serverList := contextP.serverList.map env.start.update }
  if env.startResult ≠ noError then (contextP, some env.startResult)
  else ({ contextP with state := .registering }, none)

/-- State INITIAL of `lwm2m_step`. -/
def stepInitial (contextP : Context) (env : StepEnv) : Context × Option Code :=
  let (contextP, result) := prvRefreshServerList contextP env.security
  if result ≠ 0 then (contextP, some coap503ServiceUnavailable)
  else if contextP.serverList ≠ [] then
    stepRegisterRequired { contextP with state := .registerRequired } env
  else stepBootstrapRequired { contextP with state := .bootstrapRequired } env

/-- The `switch` of `lwm2m_step` on the state of the client. -/
def stepState (contextP : Context) (env : StepEnv) : Context × Option Code :=
  match contextP.state with
  | .initial => stepInitial contextP env
  | .bootstrapRequired => stepBootstrapRequired contextP env
  | .bootstrapping =>
    match bootstrapGetStatus contextP.bootstrapServerList with
    | .bsFinished => stepInitial { contextP with state := .initial } env
    | .bsFailed => (contextP, some coap503ServiceUnavailable)
    | _ =>
      ({ contextP with
        bootstrapServerList := contextP.bootstrapServerList.map env.bootstrapServers.update }, none)
  | .registerRequired => stepRegisterRequired contextP env
  | .registering =>
    match registrationGetStatus contextP.serverList with
    | .registered => ({ contextP with state := .ready }, none)
    | .regFailed => stepBootstrapRequired { contextP with state := .bootstrapRequired } env
    | _ => (contextP, none)
  | .ready =>
    if registrationGetStatus contextP.serverList = .regFailed then
      stepBootstrapRequired { contextP with state := .bootstrapRequired } env
    else (contextP, none)

/-- `lwm2m_step`. -/
def lwm2mStep (contextP : Context) (env : StepEnv) : Except Fault (Context × List Sent) := do
  match stepState contextP env with
  | (contextP, some _) => return (contextP, [])
  | (contextP, none) =>
    let (observedList, nextMID, sent) ← observeStep contextP.serverList env.observe env.time
      contextP.nextMID contextP.observedList
    return ({ contextP with
      observedList
      nextMID := nextMID + env.messages
      serverList := contextP.serverList.map env.servers.update }, sent)

/-- What can happen to the client. -/
inductive Event
  /-- A request is received. -/
  | request (altPath : Option CString) (blockSize : UInt16) (fromSessionH : Session)
      (message : Packet) (outcome : Outcome)
  /-- A reset is received. -/
  | reset (fromSessionH : Session) (mid : UInt16)
  /-- A response is received or a transaction ends. -/
  | response (servers bootstrapServers : InPlace) (messages : UInt16)
  /-- `lwm2m_step`. -/
  | step (env : StepEnv)
  /-- `lwm2m_resource_value_changed`. -/
  | valueChanged (uri : Uri)
  /-- `lwm2m_add_object`. -/
  | addObject (security : Option SecurityInstances) (objectP : ObjectEntry)
  /-- `lwm2m_remove_object`. -/
  | removeObject (security : Option SecurityInstances) (id : UInt16)
  /-- `lwm2m_update_registration`. -/
  | updateRegistration (security : Option SecurityInstances) (shortServerID : UInt16)
      (withObjects : Bool)
  /-- The application sets the state: INITIAL after it restored its objects when a
  bootstrap failed, BOOTSTRAP_REQUIRED when it asks for a bootstrap. -/
  | setState (state : ClientState)

/-- One event of the client. -/
def clientStep (contextP : Context) : Event → Except Fault Context
  | .request altPath blockSize fromSessionH message outcome => do
    return (← lwm2mHandleRequestPacket altPath blockSize contextP fromSessionH message outcome).1
  | .reset fromSessionH mid => do
    -- `handle_reset`
    let observedList ← observeCancel contextP.serverList mid fromSessionH contextP.observedList
    return { contextP with observedList }
  | .response servers bootstrapServers messages =>
    return { contextP with
      serverList := contextP.serverList.map servers.update
      bootstrapServerList := contextP.bootstrapServerList.map bootstrapServers.update
      nextMID := contextP.nextMID + messages }
  | .step env => do return (← lwm2mStep contextP env).1
  | .valueChanged uri =>
    return { contextP with
      observedList := lwm2mResourceValueChanged contextP.observedList uri }
  | .addObject security objectP => return (lwm2mAddObject contextP security objectP).1
  | .removeObject security id => return (lwm2mRemoveObject contextP security id).1
  | .updateRegistration security shortServerID withObjects =>
    return (lwm2mUpdateRegistration contextP security shortServerID withObjects).1
  | .setState state => return { contextP with state }

/-- The client after a sequence of events, from a new context with the configured
objects. -/
def clientRun (nextMID : UInt16) (objectList : List ObjectEntry) (events : List Event) :
    Except Fault Context :=
  events.foldlM clientStep { nextMID, objectList }

/-! ### A small client -/

/-- A GET with an Observe option of 0. -/
def observeGet (uriPath : List (List Byte)) (token : List Byte) : Packet :=
  (({ code := 1, uriPath : Packet }).coapSetHeaderToken token).coapSetHeaderObserve 0

/-- The object layer reads a value. -/
def readable : Outcome :=
  { readData := coap205Content
    responseFormat := (coap205Content, 11543)
    serialized := some [0x7B, 0x7D] }

/-- The first step: a server of the Security object is made and registered. -/
def registration : StepEnv :=
  { security := some [(0, .server 1)]
    observe := fun _ => ⟨false, fun _ => false, fun _ => none, none⟩
    start := ⟨fun server => { server with sessionH := some 1, status := .registered }, fun _ => rfl⟩ }

end Lwm2m.Core

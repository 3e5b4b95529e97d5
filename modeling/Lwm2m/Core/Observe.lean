/-
# Observations

`core/observe.c` on the client side: the list of observed URIs, each with its
watchers.  A pointer to a watcher is a pointer into the list of its entry inside a
pointer into the list of entries (`WatcherFocus`).

The decision whether a watcher is to be notified, and what the object layer
answers when its value is read and serialized, are inputs of `observeStep`; what
the step then sends, to which server, and what it does to the watcher is the
source's.
-/

import Lwm2m.Core.Context
import Lwm2m.Library.Except

namespace Lwm2m.Core

open Coap Code Library

/-! ### Lookup -/

/-- The loop of `prv_findObserved` stops at this entry: a level that is set in the
URI has to be equal, a level that is not set is not compared. -/
def prvFindObservedStops (uriP : Uri) (targetP : Observed) : Bool :=
  !((uriP.isSetObject && targetP.uri.objectId != uriP.objectId)
    || (uriP.isSetInstance && targetP.uri.instanceId != uriP.instanceId)
    || (uriP.isSetResource && targetP.uri.resourceId != uriP.resourceId)
    || (uriP.isSetResourceInstance && targetP.uri.resourceInstanceId != uriP.resourceInstanceId))

/-- `prv_findObserved`. -/
def prvFindObserved (observedList : List Observed) (uriP : Uri) : Option (Focus Observed) :=
  focusFirst (prvFindObservedStops uriP) observedList

/-- `prv_findWatcher`. -/
def prvFindWatcher (watcherList : List Watcher) (serverP : ServerRef) : Option (Focus Watcher) :=
  focusFirst (·.server = serverP) watcherList

/-- One level of the comparison of `observe_findByUri`. -/
def sameLevel (set₁ set₂ : Prop) [Decidable set₁] [Decidable set₂] (id₁ id₂ : UInt16) : Bool :=
  (!set₁ && !set₂) || (set₁ && set₂ && id₁ == id₂)

/-- `observe_findByUri`. -/
def observeFindByUri (observedList : List Observed) (uriP : Uri) : Option Observed :=
  observedList.find? fun targetP =>
    targetP.uri.objectId == uriP.objectId
      && sameLevel uriP.isSetInstance targetP.uri.isSetInstance
          uriP.instanceId targetP.uri.instanceId
      && sameLevel uriP.isSetResource targetP.uri.isSetResource
          uriP.resourceId targetP.uri.resourceId
      && sameLevel uriP.isSetResourceInstance targetP.uri.isSetResourceInstance
          uriP.resourceInstanceId targetP.uri.resourceInstanceId

/-! ### Watchers -/

/-- A pointer to a watcher: the entry that holds it and its place there. -/
structure WatcherFocus where
  entry : Focus Observed
  watcher : Focus Watcher

namespace WatcherFocus

/-- The observed list with the watcher pointed to replaced. -/
def set (f : WatcherFocus) (watcherP : Watcher) : List Observed :=
  f.entry.set { f.entry.here with watcherList := f.watcher.set watcherP }

/-- The observed list pointed into. -/
def list (f : WatcherFocus) : List Observed := f.set f.watcher.here

end WatcherFocus

/-- `prv_getWatcher`: the watcher of the server on the entry that `prv_findObserved`
returns; the entry and the watcher are made where they are missing. -/
def prvGetWatcher (observedList : List Observed) (uriP : Uri) (serverP : ServerRef) :
    WatcherFocus :=
  let entry := (prvFindObserved observedList uriP).getD ⟨[], ⟨uriP, []⟩, observedList⟩
  let watcher := (prvFindWatcher entry.here.watcherList serverP).getD
    ⟨[], { server := serverP }, entry.here.watcherList⟩
  ⟨entry, watcher⟩

/-- The loop of `observe_cancel` over the watchers of an entry. -/
def findCancelled (serverList : List Server) (mid : UInt16) (fromSessionH : Session) :
    List Watcher → Except Fault (Option (Focus Watcher))
  | [] => return none
  | watcherP :: next => do
    if watcherP.lastMid = mid then
      let server ← deref serverList watcherP.server
      if lwm2mSessionIsEqual server.sessionH fromSessionH then
        return some ⟨[], watcherP, next⟩
    return (← findCancelled serverList mid fromSessionH next).map (Focus.push watcherP)

/-- `observe_cancel`. -/
def observeCancel (serverList : List Server) (mid : UInt16) (fromSessionH : Session) :
    List Observed → Except Fault (List Observed)
  | [] => return []
  | observedP :: next => do
    -- the first watcher is read before the list is tested for being empty
    if observedP.watcherList = [] then throw .nullDereference
    match ← findCancelled serverList mid fromSessionH observedP.watcherList with
    | some targetP =>
      if targetP.unlink = [] then return next
      else return { observedP with watcherList := targetP.unlink } :: next
    | none => return observedP :: (← observeCancel serverList mid fromSessionH next)

/-- `observe_clear`. -/
def observeClear (observedList : List Observed) (uriP : Uri) : List Observed :=
  observedList.filter fun observedP =>
    !(observedP.uri.objectId == uriP.objectId &&
      (!uriP.isSetInstance || observedP.uri.instanceId == uriP.instanceId))

/-! ### Observe requests -/

/-- The value that `observe_handleRequest` keeps of a resource it starts to observe. -/
inductive DecodedValue
  /-- The resource is not numeric. -/
  | other
  /-- The resource is numeric and its value cannot be decoded. -/
  | undecodable
  /-- The decoded value. -/
  | numeric (value : LastValue)
  deriving DecidableEq, Repr

/-- `observe_handleRequest`, on the servers, the observed list, the request and the
response prepared so far. -/
def observeHandleRequest (serverList : List Server) (observedList : List Observed) (uriP : Uri)
    (serverP : Server) (value : DecodedValue) (time : ℤ) (message response : Packet) :
    Except Fault (List Observed × Packet × Code) := do
  if message.observe = 0 then
    if ¬ uriP.isSetInstance ∧ uriP.isSetResource then
      return (observedList, response, coap400BadRequest)
    if message.token.length = 0 then
      return (observedList, response, coap400BadRequest)
    let target := prvGetWatcher observedList uriP serverP.ref
    let watcherP := { target.watcher.here with
      token := message.token
      active := true
      lastTime := time
      lastMid := response.mid
      format := response.contentType.toUInt16 }
    let stored := match value with
      | .numeric v => if uriP.isSetResource then { watcherP with lastValue := v } else watcherP
      | _ => watcherP
    if uriP.isSetResource ∧ value = .undecodable then
      return (target.set watcherP, response, coap500InternalServerError)
    return (target.set { stored with counter := stored.counter + 1 },
      response.coapSetHeaderObserve stored.counter, coap205Content)
  else if message.observe = 1 then
    match prvFindObserved observedList uriP with
    | none => return (observedList, response, coap205Content)
    | some observedP =>
      match prvFindWatcher observedP.here.watcherList serverP.ref with
      | none => return (observedList, response, coap205Content)
      | some watcherP =>
        return (← observeCancel serverList watcherP.here.lastMid serverP.sessionH observedList,
          response, coap205Content)
  else
    return (observedList, response, coap400BadRequest)

/-! ### Attributes -/

/-- `LWM2M_ATTR_FLAG_MIN_PERIOD`. -/
def attrFlagMinPeriod : UInt8 := 0x01
/-- `LWM2M_ATTR_FLAG_MAX_PERIOD`. -/
def attrFlagMaxPeriod : UInt8 := 0x02
/-- `LWM2M_ATTR_FLAG_GREATER_THAN`. -/
def attrFlagGreaterThan : UInt8 := 0x04
/-- `LWM2M_ATTR_FLAG_LESS_THAN`. -/
def attrFlagLessThan : UInt8 := 0x08
/-- `LWM2M_ATTR_FLAG_STEP`. -/
def attrFlagStep : UInt8 := 0x10
/-- `ATTR_FLAG_NUMERIC`. -/
def attrFlagNumeric : UInt8 := attrFlagLessThan ||| attrFlagGreaterThan ||| attrFlagStep

/-- A threshold in force: the one of the request if it sets it, else the one stored. -/
def thresholdInForce (flag : UInt8) (field : Attributes → Double) (attrP : Attributes)
    (parameters : Option Attributes) : Except Fault Float32 :=
  if attrP.toSet &&& flag ≠ 0 then return (field attrP).toFloat
  else
    match parameters with
    | some p => return (field p).toFloat
    | none => throw .nullDereference

/-- The rule that "lt" + 2*"stp" is smaller than "gt" is broken; it applies when all
three are in force. -/
def thresholdsClash (attrP : Attributes) (parameters : Option Attributes) : Except Fault Bool := do
  let stored := (parameters.map Attributes.toSet).getD 0
  if ((attrP.toSet ||| stored) &&& ~~~attrP.toClear) &&& attrFlagNumeric = attrFlagNumeric then
    let gt ← thresholdInForce attrFlagGreaterThan Attributes.greaterThan attrP parameters
    let lt ← thresholdInForce attrFlagLessThan Attributes.lessThan attrP parameters
    let stp ← thresholdInForce attrFlagStep Attributes.step attrP parameters
    return decide (gt ≤ lt + 2 * stp)
  else return false

/-- The update of stored attributes by a request. -/
def Attributes.updateBy (p attrP : Attributes) : Attributes :=
  { toSet := p.toSet &&& ~~~attrP.toClear
    toClear := p.toClear
    minPeriod := if attrP.toSet &&& attrFlagMinPeriod ≠ 0 then attrP.minPeriod else p.minPeriod
    maxPeriod := if attrP.toSet &&& attrFlagMaxPeriod ≠ 0 then attrP.maxPeriod else p.maxPeriod
    greaterThan :=
      if attrP.toSet &&& attrFlagGreaterThan ≠ 0 then attrP.greaterThan else p.greaterThan
    lessThan := if attrP.toSet &&& attrFlagLessThan ≠ 0 then attrP.lessThan else p.lessThan
    step := if attrP.toSet &&& attrFlagStep ≠ 0 then attrP.step else p.step }

/-- `observe_setParameters`, with the answer of `object_checkReadable`. -/
def observeSetParameters (observedList : List Observed) (uriP : Uri) (serverP : ServerRef)
    (attrP : Attributes) (readable : Code) : Except Fault (List Observed × Code) := do
  if ¬ uriP.isSetInstance ∧ uriP.isSetResource then
    return (observedList, coap400BadRequest)
  if readable ≠ coap205Content then return (observedList, readable)
  let target := prvGetWatcher observedList uriP serverP
  let watcherP := target.watcher.here
  if ← thresholdsClash attrP watcherP.parameters then
    return (target.list, coap400BadRequest)
  match watcherP.parameters with
  | none =>
    if attrP.toSet ≠ 0 then
      return (target.set { watcherP with parameters := some attrP }, coap204Changed)
    else return (target.list, coap204Changed)
  | some p =>
    return (target.set { watcherP with parameters := some (p.updateBy attrP) }, coap204Changed)

/-! ### Notifications -/

/-- A level at which a changed URI and an observed URI do not exclude each other. -/
def overlaps (set₁ set₂ : Prop) [Decidable set₁] [Decidable set₂] (id₁ id₂ : UInt16) : Bool :=
  !set₁ || !set₂ || id₁ == id₂

/-- `lwm2m_resource_value_changed`. -/
def lwm2mResourceValueChanged (observedList : List Observed) (uriP : Uri) : List Observed :=
  observedList.map fun targetP =>
    if targetP.uri.objectId == uriP.objectId
      && overlaps uriP.isSetInstance targetP.uri.isSetInstance
          uriP.instanceId targetP.uri.instanceId
      && overlaps uriP.isSetResource targetP.uri.isSetResource
          uriP.resourceId targetP.uri.resourceId
      && overlaps uriP.isSetResourceInstance targetP.uri.isSetResourceInstance
          uriP.resourceInstanceId targetP.uri.resourceInstanceId
    then { targetP with watcherList := targetP.watcherList.map fun watcherP =>
      if watcherP.active then { watcherP with update := true } else watcherP }
    else targetP

/-- What `observe_step` meets at one observed URI. -/
structure StepInput where
  /-- The value can be read and decoded; otherwise the entry is skipped. -/
  readable : Bool
  /-- The decision on thresholds and periods, for an active watcher. -/
  notify : Watcher → Bool
  /-- The value in the format of a watcher: the format used and the buffer, which may be
  null when it is empty, or `none` when the serialization fails. -/
  serialize : UInt16 → Option (UInt16 × Option (List Byte))
  /-- The numeric value to be kept. -/
  value : Option LastValue

/-- A message handed to `message_send` with the session it goes to. -/
structure Sent where
  sessionH : Session
  message : Packet
  deriving DecidableEq, Repr

/-- The notification a watcher is sent, from the message prepared for the entry. -/
def notification (message : Packet) (watcherP : Watcher) (mid : UInt16) : Packet :=
  ({ message with mid }.coapSetHeaderToken watcherP.token).coapSetHeaderObserve watcherP.counter

/-- A watcher after it was notified. -/
def Watcher.notified (watcherP : Watcher) (input : StepInput) (format : UInt16) (currentTime : ℤ)
    (mid : UInt16) : Watcher :=
  { watcherP with
    format
    lastTime := currentTime
    lastMid := mid
    counter := watcherP.counter + 1
    update := false
    lastValue := input.value.getD watcherP.lastValue }

/-- The loop of `observe_step` over the watchers of an entry: the watchers, the next
message-id and the messages sent.  `prepared` is the message whose payload is the
buffer of this entry, once there is one. -/
def notifyWatchers (serverList : List Server) (input : StepInput) (currentTime : ℤ) :
    UInt16 → Option Packet → List Watcher → Except Fault (List Watcher × UInt16 × List Sent)
  | nextMID, _, [] => return ([], nextMID, [])
  | nextMID, prepared, watcherP :: next => do
    if watcherP.active ∧ input.notify watcherP then
      match prepared with
      | some message =>
        let server ← deref serverList watcherP.server
        let message := notification message watcherP nextMID
        let (rest, lastMID, sent) ← notifyWatchers serverList input currentTime (nextMID + 1)
          (some message) next
        return (watcherP.notified input watcherP.format currentTime nextMID :: rest, lastMID,
          ⟨server.sessionH, message⟩ :: sent)
      | none =>
        match input.serialize watcherP.format with
        | none => return (watcherP :: next, nextMID, [])
        | some (format, buffer) =>
          let message := (coapInitMessage .non coap205Content 0).coapSetHeaderContentType
            format.toUInt32
          let message := message.coapSetPayload (buffer.getD [])
          let server ← deref serverList watcherP.server
          let message := notification message watcherP nextMID
          let (rest, lastMID, sent) ← notifyWatchers serverList input currentTime (nextMID + 1)
            (buffer.map fun _ => message) next
          return (watcherP.notified input format currentTime nextMID :: rest, lastMID,
            ⟨server.sessionH, message⟩ :: sent)
    else
      let (rest, lastMID, sent) ← notifyWatchers serverList input currentTime nextMID prepared next
      return (watcherP :: rest, lastMID, sent)

/-- `observe_step`. -/
def observeStep (serverList : List Server) (input : Uri → StepInput) (currentTime : ℤ) :
    UInt16 → List Observed → Except Fault (List Observed × UInt16 × List Sent)
  | nextMID, [] => return ([], nextMID, [])
  | nextMID, targetP :: next => do
    if (input targetP.uri).readable then
      let (watcherList, nextMID, sent) ← notifyWatchers serverList (input targetP.uri) currentTime
        nextMID none targetP.watcherList
      let (rest, nextMID, sent') ← observeStep serverList input currentTime nextMID next
      return ({ targetP with watcherList } :: rest, nextMID, sent ++ sent')
    else
      let (rest, nextMID, sent) ← observeStep serverList input currentTime nextMID next
      return (targetP :: rest, nextMID, sent)

end Lwm2m.Core

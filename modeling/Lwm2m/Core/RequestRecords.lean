/-
# The records of the requests of a server

A call of `lwm2m_dm_*`, `lwm2m_observe` or `lwm2m_observe_cancel` with a callback makes a record
(`dm_data_t`, `observation_data_t`, `cancellation_data_t`) and gives it to its transaction.  The
requests that continue a block-wise transfer take the pointer over, and the callbacks of
`core/management.c` and `core/observe.c` call the user and release the record when no other listed
transaction has it (`transaction_free_userData`).  `lwm2m_observe` and `lwm2m_observe_cancel` also
release it themselves when `transaction_send` fails.

The heap knows which records are allocated, so freeing one twice is a fault.  A callback is called
while its transaction is listed, so `others` are the listed transactions but that one.  The user's
callback is taken not to call the library.
-/

import Lwm2m.Core.RegistrationData
import Lwm2m.Core.RegistrationParameters
import Lwm2m.Core.ServerNotification
import Lwm2m.Core.UriText
import Lwm2m.Core.WriteAttributes

namespace Lwm2m.Core

open Coap Code Library Library.Memory
open RegistrationMemory (generatedToken)

/-! ### Records -/

/-- The record of a request.  `dm_data_t`, `observation_data_t` and `cancellation_data_t` have the
client and the URI, the second one also the id of the observation. -/
structure RequestRecord where
  client : UInt16
  uri : Uri
  id : UInt16 := 0
  deriving DecidableEq, Repr

/-- A call of the user's callback. -/
structure UserCall where
  /-- The address of the record that it is made for. -/
  record : ℕ
  client : UInt16
  uri : Uri
  status : Code
  deriving DecidableEq, Repr

/-- The number of the callback `prv_resultCallback`. -/
def resultCallback : ℕ := 2

/-- The number of the callback `prv_obsRequestCallback`. -/
def obsRequestCallback : ℕ := 3

/-- The number of the callback `prv_obsCancelRequestCallback`. -/
def obsCancelRequestCallback : ℕ := 4

/-- The context of a server with the memory of the records: the heap, the fields of each record,
and the clients with their observations. -/
structure RequestMemory extends TransactionContext where
  heap : Heap
  record : ℕ → RequestRecord
  observations : ObservationContext

/-- What a call reads of its surroundings and of the client that it finds. -/
structure CallInput where
  /-- `lwm2m_gettime`. -/
  tvSec : ℤ
  /-- `lwm2m_get_coap_block_size`. -/
  coapBlockSize : UInt16
  altPath : Option CString := none
  format : UInt16
  /-- `transaction_send` gets memory for the serialized message. -/
  bufferAllocated : Bool := true

/-- What an event leaves behind: the memory, what left the server, the calls of the user's callback,
and what a call returns. -/
structure EventResult where
  memory : RequestMemory
  sent : List Output := []
  calls : List UserCall := []
  ret : ℤ := 0

namespace RequestMemory

/-- The record of a transaction, with its address. -/
def recordOf (s : RequestMemory) (transacP : Transaction) : Except Fault (ℕ × RequestRecord) :=
  match transacP.userData with
  | none => .error .nullDereference
  | some a => if (s.heap.cells a).isSome then .ok (a, s.record a) else .error .useAfterFree

/-- `transaction_free_userData`. -/
def freeUserData (s : RequestMemory) (others : List Transaction) (transacP : Transaction) :
    Except Fault RequestMemory := do
  let (heap, _) ← transactionFreeUserData s.heap others transacP
  return { s with heap }

/-! ### The callbacks of the transactions -/

/-- The URI that `prv_resultCallback` reports: that of the record, or the one that the Location-Path
of a 2.01 names.  There is none when it names no instance of the object. -/
def resultUri (uri : Uri) (packet : Packet) : Option Uri :=
  if packet.code = coap201Created ∧ packet.locationPath ≠ [] then
    match lwm2mStringToUri (multiOptionAsString packet.locationPath 0x2F 0x2F) with
    | .error _ => none
    | .ok (result, locationUri) =>
      if result = 0 ∨ ¬ locationUri.isSetObject ∨ ¬ locationUri.isSetInstance ∨
          locationUri.isSetResource ∨ locationUri.objectId ≠ uri.objectId then none
      else some locationUri
  else some uri

/-- `prv_resultCallback`. -/
def prvResultCallback (s : RequestMemory) (others : List Transaction) (transacP : Transaction)
    (message : Option Packet) : Except Fault (RequestMemory × List UserCall) := do
  let (a, dataP) ← s.recordOf transacP
  match message with
  | none =>
    let s ← s.freeUserData others transacP
    return (s, [⟨a, dataP.client, dataP.uri, coap503ServiceUnavailable⟩])
  | some packet =>
    match resultUri dataP.uri packet with
    -- a malformed Location-Path: the record stays
    | none => return (s, [])
    | some uri =>
      let s ← { s with record := Function.update s.record a { dataP with uri } }.freeUserData
        others transacP
      return (s, [⟨a, dataP.client, uri, packet.code⟩])

/-- `prv_obsRequestCallback`. -/
def prvObsRequestCallback (s : RequestMemory) (others : List Transaction) (transacP : Transaction)
    (message : Option Packet) : Except Fault (RequestMemory × List UserCall) := do
  let (a, observationData) ← s.recordOf transacP
  let (observations, codes) := s.observations.prvObsRequestCallback observationData.id
    observationData.client observationData.uri message
  let s ← { s with observations }.freeUserData others transacP
  return (s, codes.map fun code => ⟨a, observationData.client, observationData.uri, code⟩)

/-- `prv_obsCancelRequestCallback`. -/
def prvObsCancelRequestCallback (s : RequestMemory) (others : List Transaction)
    (transacP : Transaction) (message : Option Packet) :
    Except Fault (RequestMemory × List UserCall) := do
  let (a, cancelP) ← s.recordOf transacP
  let (observations, codes) ←
    s.observations.prvObsCancelRequestCallback cancelP.client cancelP.uri message
  let s ← { s with observations }.freeUserData others transacP
  return (s, codes.map fun code => ⟨a, cancelP.client, cancelP.uri, code⟩)

/-- A call of the callback of a transaction. -/
def call (s : RequestMemory) (others : List Transaction) (callback : ℕ) (transacP : Transaction)
    (message : Option Packet) : Except Fault (RequestMemory × List UserCall) :=
  if callback = resultCallback then s.prvResultCallback others transacP message
  else if callback = obsRequestCallback then s.prvObsRequestCallback others transacP message
  else if callback = obsCancelRequestCallback then
    s.prvObsCancelRequestCallback others transacP message
  else .ok (s, [])

/-- The calls of callbacks among some outputs, in order. -/
def runCalls (others : List Transaction) :
    RequestMemory → List Output → Except Fault (RequestMemory × List UserCall)
  | s, [] => .ok (s, [])
  | s, .datagram _ _ :: sent => runCalls others s sent
  | s, .callback callback transacP message :: sent => do
    let (s, calls) ← s.call others callback transacP message
    let (s, rest) ← runCalls others s sent
    return (s, calls ++ rest)

/-- The context after the functions of `coap/transaction.c`, and then the calls that they made. -/
def resume (s : RequestMemory) (others : List Transaction) (contextP : TransactionContext)
    (sent : List Output) : Except Fault EventResult := do
  let (memory, calls) ← runCalls others { s with toTransactionContext := contextP } sent
  return { memory, sent, calls }

/-! ### Requests -/

/-- A transaction is listed and sent.  Without a buffer it is removed again. -/
def addRequest (s : RequestMemory) (input : CallInput) (transaction : Transaction) :
    Except Fault EventResult := do
  if input.bufferAllocated then
    let (contextP, sent, ret) ← addAndSend input.tvSec s.toTransactionContext transaction
    let result ← s.resume s.transactionList contextP sent
    return { result with ret }
  else return { memory := s, ret := coap500InternalServerError.toNat }

/-- The fields of a record are set. -/
def setRecord (s : RequestMemory) (a : ℕ) (data : RequestRecord) : RequestMemory :=
  { s with record := Function.update s.record a data }

/-- The end of the functions of `core/management.c`: with a callback, the transaction gets a record;
then it is listed and sent. -/
def sendOperation (s : RequestMemory) (input : CallInput) (clientP : ObservedClient) (uriP : Uri)
    (transaction : Transaction) (withCallback : Bool) : Except Fault EventResult :=
  if withCallback then
    let (heap, dataP) := s.heap.alloc .node
    ({ s with heap }.setRecord dataP { client := clientP.internalID, uri := uriP }).addRequest input
      { transaction with callback := some resultCallback, userData := some dataP }
  else s.addRequest input transaction

/-- The transaction of `prv_makeOperation`, before it gets its record. -/
def operationRequest (input : CallInput) (transaction : Transaction) (method : Code)
    (format : UInt16) (buffer : Option (List Byte)) : Transaction :=
  if method = 1 then
    { transaction with message := transaction.message.coapSetHeaderAccept format }
  else
    match buffer with
    | none => transaction
    | some buffer =>
      transactionSetPayload input.coapBlockSize { transaction with
        message := transaction.message.coapSetHeaderContentType format.toUInt32 } buffer

/-- A call that is refused. -/
def refused (s : RequestMemory) (code : Code) : Except Fault EventResult :=
  .ok { memory := s, ret := code.toNat }

/-- `prv_makeOperation`. -/
def prvMakeOperation (s : RequestMemory) (input : CallInput) (clientID : UInt16) (uriP : Uri)
    (method : Code) (format : UInt16) (buffer : Option (List Byte)) (withCallback : Bool) :
    Except Fault EventResult :=
  match findClient s.observations.clientList clientID with
  | none => s.refused coap404NotFound
  | some clientP =>
    let mID := s.nextMID
    let s := { s with nextMID := mID + 1 }
    match transactionNew clientP.here.sessionH method input.altPath (some uriP) mID
        (generatedToken mID input.tvSec) with
    | none => s.refused coap500InternalServerError
    | some transaction => s.sendOperation input clientP.here uriP
        (operationRequest input transaction method format buffer) withCallback

/-- `lwm2m_dm_read`. -/
def lwm2mDmRead (s : RequestMemory) (input : CallInput) (clientID : UInt16) (uriP : Uri)
    (withCallback : Bool) : Except Fault EventResult :=
  s.prvMakeOperation input clientID uriP 1 input.format none withCallback

/-- `lwm2m_dm_write`. -/
def lwm2mDmWrite (s : RequestMemory) (input : CallInput) (clientID : UInt16) (uriP : Uri)
    (format : UInt16) (buffer : List Byte) (partialUpdate withCallback : Bool) :
    Except Fault EventResult :=
  let method : Code := if partialUpdate then 2 else 3
  if ¬ uriP.isSetInstance ∨ buffer.length = 0 then s.refused coap400BadRequest
  else if uriP.isSetResource then
    s.prvMakeOperation input clientID uriP 3 format (some buffer) withCallback
  else s.prvMakeOperation input clientID uriP method format (some buffer) withCallback

/-- `lwm2m_dm_execute`. -/
def lwm2mDmExecute (s : RequestMemory) (input : CallInput) (clientID : UInt16) (uriP : Uri)
    (format : UInt16) (buffer : Option (List Byte)) (withCallback : Bool) :
    Except Fault EventResult :=
  if ¬ uriP.isSetResource then s.refused coap400BadRequest
  else s.prvMakeOperation input clientID uriP 2 format buffer withCallback

/-- `LWM2M_CONTENT_TLV`. -/
def lwm2mContentTlv : UInt16 := 11542

/-- The format that `lwm2m_dm_create` asks for. -/
def createFormat (input : CallInput) (dataP : List Data) : UInt16 :=
  if input.format ≠ lwm2mContentTlv ∧
      (dataP.length > 1 ∨ (dataP.head?.map Data.type) ≠ some .objectInstance) then lwm2mContentTlv
  else input.format

/-- `lwm2m_dm_create`.  What `lwm2m_data_serialize` makes of the data, the format and the bytes, is
a parameter. -/
def lwm2mDmCreate (s : RequestMemory) (input : CallInput)
    (dataSerialize : Uri → List Data → UInt16 → UInt16 × List Byte) (clientID : UInt16)
    (uriP : Uri) (dataP : List Data) (withCallback : Bool) : Except Fault EventResult :=
  if uriP.isSetInstance ∨ dataP.length = 0 then s.refused coap400BadRequest
  else if findClient s.observations.clientList clientID = none then s.refused coap404NotFound
  else
    let (format, buffer) := dataSerialize uriP dataP (createFormat input dataP)
    if buffer.length = 0 then s.refused coap400BadRequest
    else s.prvMakeOperation input clientID uriP 2 format (some buffer) withCallback

/-- `lwm2m_dm_delete`. -/
def lwm2mDmDelete (s : RequestMemory) (input : CallInput) (clientID : UInt16) (uriP : Uri)
    (withCallback : Bool) : Except Fault EventResult :=
  if ¬ uriP.isSetInstance ∨ uriP.isSetResource then s.refused coap400BadRequest
  else s.prvMakeOperation input clientID uriP 4 0 none withCallback

/-- The attributes that `lwm2m_dm_write_attributes` refuses; the comparison of the thresholds is a
parameter. -/
def attributesRefused (overlaps : Attributes → Bool) (uriP : Uri) (attrP : Attributes) : Prop :=
  attrP.toSet &&& attrP.toClear ≠ 0 ∨
    (attrP.toSet &&& attrFlagNumeric ≠ 0 ∧ ¬ uriP.isSetResource) ∨
    (attrP.toSet &&& attrFlagNumeric = attrFlagNumeric ∧ overlaps attrP = true)

instance (overlaps : Attributes → Bool) (uriP : Uri) (attrP : Attributes) :
    Decidable (attributesRefused overlaps uriP attrP) := inferInstanceAs (Decidable (_ ∨ _ ∨ _))

/-- `lwm2m_dm_write_attributes`.  The text of a floating-point value is a parameter. -/
def lwm2mDmWriteAttributes (s : RequestMemory) (input : CallInput)
    (floatToText : Double → ℕ → Option (List Byte)) (overlaps : Attributes → Bool)
    (clientID : UInt16) (uriP : Uri) (attrP : Option Attributes) (withCallback : Bool) :
    Except Fault EventResult :=
  match attrP with
  | none => s.refused coap400BadRequest
  | some attrP =>
    if attributesRefused overlaps uriP attrP then s.refused coap400BadRequest
    else
      match findClient s.observations.clientList clientID with
      | none => s.refused coap404NotFound
      | some clientP =>
        let mID := s.nextMID
        let s := { s with nextMID := mID + 1 }
        match transactionNew clientP.here.sessionH 3 input.altPath (some uriP) mID
            (generatedToken mID input.tvSec) with
        | none => s.refused coap500InternalServerError
        | some transaction =>
          match addAttributeOptions floatToText attrP transaction.message with
          | none =>
            -- the record was made before, and only the transaction is freed
            if withCallback then { s with heap := (s.heap.alloc .node).1 }.refused
              coap500InternalServerError
            else s.refused coap500InternalServerError
          | some message =>
            s.sendOperation input clientP.here uriP { transaction with message } withCallback

/-- `LWM2M_CONTENT_LINK`. -/
def lwm2mContentLink : UInt16 := 40

/-- `lwm2m_dm_discover`. -/
def lwm2mDmDiscover (s : RequestMemory) (input : CallInput) (clientID : UInt16) (uriP : Uri)
    (withCallback : Bool) : Except Fault EventResult :=
  match findClient s.observations.clientList clientID with
  | none => s.refused coap404NotFound
  | some clientP =>
    let mID := s.nextMID
    let s := { s with nextMID := mID + 1 }
    match transactionNew clientP.here.sessionH 1 input.altPath (some uriP) mID
        (generatedToken mID input.tvSec) with
    | none => s.refused coap500InternalServerError
    | some transaction => s.sendOperation input clientP.here uriP { transaction with
        message := transaction.message.coapSetHeaderAccept lwm2mContentLink } withCallback

/-- A record is released by the function that made it. -/
def freeRecord (s : RequestMemory) (a : ℕ) : Except Fault RequestMemory := do
  let heap ← lwm2mFree s.heap (some a)
  return { s with heap }

/-- The end of `lwm2m_observe` and `lwm2m_observe_cancel`: the transaction is listed and sent, and
the record is released when that fails. -/
def addOrFree (s : RequestMemory) (input : CallInput) (transaction : Transaction) (a : ℕ) :
    Except Fault EventResult := do
  let result ← s.addRequest input transaction
  if result.ret ≠ 0 then
    let memory ← result.memory.freeRecord a
    return { result with memory }
  else return result

/-- The transaction of `lwm2m_observe`. -/
def observeRequest (input : CallInput) (transaction : Transaction) (observationData : ℕ) :
    Transaction :=
  { transaction with
    message := (transaction.message.coapSetHeaderObserve 0).coapSetHeaderAccept input.format
    callback := some obsRequestCallback
    userData := some observationData }

/-- The transaction of `lwm2m_observe_cancel`. -/
def cancelRequest (transaction : Transaction) (cancelP : ℕ) : Transaction :=
  { transaction with
    message := transaction.message.coapSetHeaderObserve 1
    callback := some obsCancelRequestCallback
    userData := some cancelP }

/-- The clients when an observe is sent: the id is taken, and an observation of the URI is to be
registered again. -/
def observing (s : RequestMemory) (clientP : Focus ObservedClient) (uriP : Uri) :
    ObservationContext :=
  let observationList :=
    match prvFindObservationByURI clientP.here uriP with
    | none => clientP.here.observationList
    | some observationP =>
      setObservationStatus clientP.here.observationList observationP .regPending
  s.observations.setClient clientP
    { clientP.here with observationId := clientP.here.observationId + 1, observationList }

/-- `lwm2m_observe`. -/
def lwm2mObserve (s : RequestMemory) (input : CallInput) (clientID : UInt16) (uriP : Uri) :
    Except Fault EventResult :=
  if ¬ uriP.isSetInstance ∧ uriP.isSetResource then s.refused coap400BadRequest
  else
    match findClient s.observations.clientList clientID with
    | none => s.refused coap404NotFound
    | some clientP => do
      let (heap, observationData) := s.heap.alloc .node
      let observationId := clientP.here.observationId + 1
      let taken := { s with
        heap
        observations := s.observations.setClient clientP { clientP.here with observationId } }
      if (listFind ServerObservation.id clientP.here.observationList observationId).isSome then
        let s ← taken.freeRecord observationData
        s.refused coap500InternalServerError
      else
        let mID := s.nextMID
        let client := clientP.here.internalID
        let taken := { taken with nextMID := mID + 1 }.setRecord observationData
          { client, uri := uriP, id := observationId }
        match transactionNew clientP.here.sessionH 1 input.altPath (some uriP) mID
            (observationToken client observationId) with
        | none =>
          let s ← taken.freeRecord observationData
          s.refused coap500InternalServerError
        | some transaction =>
          ({ taken with observations := s.observing clientP uriP }).addOrFree input
            (observeRequest input transaction observationData) observationData

/-- `lwm2m_observe_cancel`. -/
def lwm2mObserveCancel (s : RequestMemory) (input : CallInput) (clientID : UInt16) (uriP : Uri) :
    Except Fault EventResult :=
  match findClient s.observations.clientList clientID with
  | none => s.refused coap404NotFound
  | some clientP =>
    match prvFindObservationByURI clientP.here uriP with
    | none => s.refused coap404NotFound
    | some observationP =>
      if observationP.status = .registered then
        let mID := s.nextMID
        let client := clientP.here.internalID
        let s := { s with nextMID := mID + 1 }
        match transactionNew clientP.here.sessionH 1 input.altPath (some uriP) mID
            (observationToken client observationP.id) with
        | none => s.refused coap500InternalServerError
        | some transaction =>
          let (heap, cancelP) := s.heap.alloc .node
          let observations := s.observations.setObservations clientP s.observations.memory
            (setObservationStatus clientP.here.observationList observationP .deregPending)
          ({ s with heap, observations }.setRecord cancelP { client, uri := uriP }).addOrFree input
            (cancelRequest transaction cancelP) cancelP
      else do
        let (memory, observationList) ←
          observeRemove s.observations.memory clientP.here.observationList (some observationP)
        let observations := s.observations.setObservations clientP memory observationList
        let ret := if observationP.status = .regPending then coap204Changed else coapIgnore
        ({ s with observations }).refused ret

end RequestMemory

/-! ### Events -/

/-- What happens to the requests of a server.  A received acknowledgement is the event that
continues its transfer, if there is one, and then the response; `transaction_step` sends the listed
transactions that are due, one after the other. -/
inductive RequestEvent
  | read (input : CallInput) (clientID : UInt16) (uriP : Uri) (withCallback : Bool)
  | write (input : CallInput) (clientID : UInt16) (uriP : Uri) (format : UInt16)
    (buffer : List Byte) (partialUpdate withCallback : Bool)
  | execute (input : CallInput) (clientID : UInt16) (uriP : Uri) (format : UInt16)
    (buffer : Option (List Byte)) (withCallback : Bool)
  | create (input : CallInput) (dataSerialize : Uri → List Data → UInt16 → UInt16 × List Byte)
    (clientID : UInt16) (uriP : Uri) (dataP : List Data) (withCallback : Bool)
  | delete (input : CallInput) (clientID : UInt16) (uriP : Uri) (withCallback : Bool)
  | writeAttributes (input : CallInput) (floatToText : Double → ℕ → Option (List Byte))
    (overlaps : Attributes → Bool) (clientID : UInt16) (uriP : Uri) (attrP : Option Attributes)
    (withCallback : Bool)
  | discover (input : CallInput) (clientID : UInt16) (uriP : Uri) (withCallback : Bool)
  | observe (input : CallInput) (clientID : UInt16) (uriP : Uri)
  | cancel (input : CallInput) (clientID : UInt16) (uriP : Uri)
  /-- `prv_send_next_block1` or `prv_retry_block1`, for an acknowledgement with a Block1 option. -/
  | continueBlock1 (env : PacketEnv) (fromSessionH : Session) (message : Packet)
  /-- `prv_change_to_block1`. -/
  | changeToBlock1 (env : PacketEnv) (fromSessionH : Session) (mid : UInt16) (size : UInt32)
  /-- `prv_send_get_block2`. -/
  | getBlock2 (env : PacketEnv) (fromSessionH : Session) (blockDataHead : List BlockData)
    (mid : UInt16) (num : UInt32) (size : UInt16)
  /-- `transaction_send` on the transaction with this message-id. -/
  | send (tvSec : ℤ) (mID : UInt16)
  /-- `transaction_handleResponse`. -/
  | response (tvSec : ℤ) (fromSessionH : Session) (message : Packet) (withResponse : Bool)
  /-- Registrations, updates and notifications change the clients. -/
  | clients (observations : ObservationContext)

/-- The event is a call with a callback. -/
def RequestEvent.withCallback : RequestEvent → Bool
  | .read _ _ _ withCallback | .write _ _ _ _ _ _ withCallback
  | .execute _ _ _ _ _ withCallback | .create _ _ _ _ _ withCallback
  | .delete _ _ _ withCallback | .writeAttributes _ _ _ _ _ _ withCallback
  | .discover _ _ _ withCallback => withCallback
  | .observe .. | .cancel .. => true
  | _ => false

namespace RequestMemory

/-- The next request of a block-wise transfer is sent. -/
def continued (s : RequestMemory) (next : Except Fault (TransactionContext × List Output)) :
    Except Fault EventResult := do
  let (contextP, sent) ← next
  s.resume s.transactionList contextP sent

/-- What an event leaves behind. -/
def after (s : RequestMemory) : RequestEvent → Except Fault EventResult
  | .read input clientID uriP withCallback => s.lwm2mDmRead input clientID uriP withCallback
  | .write input clientID uriP format buffer partialUpdate withCallback =>
    s.lwm2mDmWrite input clientID uriP format buffer partialUpdate withCallback
  | .execute input clientID uriP format buffer withCallback =>
    s.lwm2mDmExecute input clientID uriP format buffer withCallback
  | .create input dataSerialize clientID uriP dataP withCallback =>
    s.lwm2mDmCreate input dataSerialize clientID uriP dataP withCallback
  | .delete input clientID uriP withCallback => s.lwm2mDmDelete input clientID uriP withCallback
  | .writeAttributes input floatToText overlaps clientID uriP attrP withCallback =>
    s.lwm2mDmWriteAttributes input floatToText overlaps clientID uriP attrP withCallback
  | .discover input clientID uriP withCallback => s.lwm2mDmDiscover input clientID uriP withCallback
  | .observe input clientID uriP => s.lwm2mObserve input clientID uriP
  | .cancel input clientID uriP => s.lwm2mObserveCancel input clientID uriP
  | .continueBlock1 env fromSessionH message => s.continued do
    let (contextP, sent, _) ← Core.continueBlock1 env s.toTransactionContext fromSessionH message
    return (contextP, sent)
  | .changeToBlock1 env fromSessionH mid size => s.continued do
    let (contextP, sent, _) ← prvChangeToBlock1 env.coapBlockSize env.tvSec s.toTransactionContext
      fromSessionH mid size
    return (contextP, sent)
  | .getBlock2 env fromSessionH blockDataHead mid num size => s.continued do
    let (contextP, _, sent) ← prvSendGetBlock2 env.coapBlockSize env.tvSec s.toTransactionContext
      fromSessionH blockDataHead mid num size
    return (contextP, sent)
  | .send tvSec mID => do
    let (transactionList, sent) ← handleEvent s.transactionList (.send tvSec mID)
    s.resume transactionList { s.toTransactionContext with transactionList } sent
  | .response tvSec fromSessionH message withResponse => do
    let (transactionList, sent) ← handleEvent s.transactionList
      (.response tvSec fromSessionH message withResponse)
    s.resume transactionList { s.toTransactionContext with transactionList } sent
  | .clients observations => return { memory := { s with observations } }

end RequestMemory

end Lwm2m.Core

/-
# The user data of registrations

`prv_register` and `prv_updateRegistration` of `core/registration.c` give their transaction a
`registration_data_t`, which points to a copy of the payload and, in a registration, of the query.
The requests that continue a block-wise transfer take the pointer over
(`prv_create_next_block_transaction`), and the callbacks release what it leads to when no
other listed transaction has it (`transaction_free_userData`).

The heap knows which buffers are allocated, so freeing one twice is a fault; the fields of a
`registration_data_t` are kept by its address.  A callback is called while its transaction is listed,
so `others` are the listed transactions but that one.  The effect of `registration_start` and
`prv_handleRegistrationAttemptFailure` on the servers is an input (`ReplyInput`).
-/

import Lwm2m.Coap.Setters
import Lwm2m.Core.Client
import Lwm2m.Core.InstanceMemory
import Lwm2m.Core.Registration
import Lwm2m.Core.Response
import Lwm2m.Core.Retransmission

namespace Lwm2m.Core

open Coap Code Library Library.Memory

/-! ### The user data -/

/-- `registration_data_t`.  An update does not set its query. -/
structure RegistrationData where
  server : ServerRef
  query : Option ℕ := none
  payload : Option ℕ := none
  deriving DecidableEq, Repr

/-- The number of the callback `prv_handleRegistrationReply`. -/
def registrationReply : ℕ := 0

/-- The number of the callback `prv_handleRegistrationUpdateReply`. -/
def registrationUpdateReply : ℕ := 1

/-- The context with the memory of the user data: the heap, the fields of each
`registration_data_t` and the location of each server. -/
structure RegistrationMemory extends TransactionContext where
  heap : Heap
  registrationData : ℕ → RegistrationData
  location : ServerRef → Option CString

/-- What the handling of a reply reads of the Server object, by its effect on the servers and on
the state of the client. -/
structure ReplyInput where
  /-- `registration_start`. -/
  registrationStart : InPlace := .refl
  /-- `prv_handleRegistrationAttemptFailure`. -/
  attemptFailure : InPlace := .refl
  bootstrapRequired : Bool := false

/-- What a request of the registration interface reads. -/
structure RequestInput where
  /-- `lwm2m_gettime`. -/
  tvSec : ℤ
  /-- `lwm2m_get_coap_block_size`. -/
  coapBlockSize : UInt16
  /-- `object_getRegisterPayload`, empty when it fails. -/
  payload : List Byte
  /-- `prv_getRegistrationQuery`. -/
  query : Option CString := none
  /-- `lwm2m_connect_server`. -/
  connect : Session := none

/-- The servers get a new status. -/
def InPlace.status (ref : ServerRef) (status : Status) : InPlace :=
  ⟨fun server => if server.ref = ref then { server with status } else server, fun server => by
    split_ifs <;> rfl⟩

/-- `transaction_free_userData`; the transaction, whose pointer it clears, is then removed. -/
def transactionFreeUserData (heap : Heap) (others : List Transaction) (transaction : Transaction) :
    Except Fault (Heap × Bool) := do
  if others.any (·.userData == transaction.userData) then return (heap, false)
  let heap ← lwm2mFree heap transaction.userData
  return (heap, true)

/-- The peer asks for the next block, or for the request again in smaller blocks. -/
def asksForMore : Option Packet → Bool
  | none => false
  | some packet => packet.code == coap231Continue ||
    packet.code == coap413EntityTooLarge && (!packet.isOption .block1 || packet.block1.num == 0)

/-- The reply is not NULL and does not ask for the next block. -/
def isFinal : Option Packet → Bool
  | none => false
  | some packet => packet.code != coap231Continue

namespace RegistrationMemory

/-- The servers are changed in place. -/
def updateServers (s : RegistrationMemory) (servers : InPlace) : RegistrationMemory :=
  { s with serverList := s.serverList.map servers.update }

/-- The `registration_data_t` of a transaction. -/
def dataOf (s : RegistrationMemory) (transacP : Transaction) : Except Fault RegistrationData :=
  match transacP.userData with
  | none => .error .nullDereference
  | some a => if (s.heap.cells a).isSome then .ok (s.registrationData a) else .error .useAfterFree

/-! ### The replies -/

/-- A registration failed. -/
def attemptFailed (input : ReplyInput) (s : RegistrationMemory) : RegistrationMemory :=
  { s.updateServers input.attemptFailure with
    state := if input.bootstrapRequired then .bootstrapRequired else s.state }

/-- What `prv_handleRegistrationReply` does with the answer to a pending registration. -/
def registrationAnswered (input : ReplyInput) (s : RegistrationMemory) (server : ServerRef)
    (packet : Option Packet) : RegistrationMemory :=
  match packet with
  | none => s.attemptFailed input
  | some packet =>
    if packet.code = coap201Created then
      let s := s.updateServers (.status server .registered)
      let location := some (multiOptionAsString packet.locationPath 0x2F 0x2F)
      { s with location := Function.update s.location server location }.updateServers
        input.registrationStart
    else s.attemptFailed input

/-- `prv_handleRegistrationReply`. -/
def prvHandleRegistrationReply (input : ReplyInput) (s : RegistrationMemory)
    (others : List Transaction) (transacP : Transaction) (packet : Option Packet) :
    Except Fault RegistrationMemory := do
  let dataP ← s.dataOf transacP
  let server ← deref s.serverList dataP.server
  let pending := server.status = .regPending
  if pending ∧ asksForMore packet then
    let (heap, _) ← transactionFreeUserData s.heap others transacP
    return { s with heap }
  let s := if pending then s.registrationAnswered input dataP.server packet else s
  let (heap, last) ← transactionFreeUserData s.heap others transacP
  if last then
    let heap ← lwm2mFree heap dataP.query
    let heap ← lwm2mFree heap dataP.payload
    return { s with heap }
  else return { s with heap }

/-- `prv_handleRegistrationUpdateReply`. -/
def prvHandleRegistrationUpdateReply (s : RegistrationMemory) (others : List Transaction)
    (transacP : Transaction) (packet : Option Packet) : Except Fault RegistrationMemory := do
  let dataP ← s.dataOf transacP
  let server ← deref s.serverList dataP.server
  let pending := server.status = .regUpdatePending
  if pending ∧ asksForMore packet then
    let (heap, _) ← transactionFreeUserData s.heap others transacP
    return { s with heap }
  let changed := (packet.map Packet.code) = some coap204Changed
  let s := if pending then
      s.updateServers (.status dataP.server (if changed then .registered else .regFailed))
    else s
  if isFinal packet then
    let heap ← lwm2mFree s.heap dataP.payload
    let (heap, _) ← transactionFreeUserData heap others transacP
    return { s with heap }
  else return s

/-- A call of a callback. -/
def call (input : ReplyInput) (s : RegistrationMemory) (others : List Transaction)
    (callback : ℕ) (transacP : Transaction) (packet : Option Packet) :
    Except Fault RegistrationMemory :=
  if callback = registrationReply then s.prvHandleRegistrationReply input others transacP packet
  else if callback = registrationUpdateReply then
    s.prvHandleRegistrationUpdateReply others transacP packet
  else .ok s

/-- The calls of callbacks among some outputs, in order. -/
def runCalls (input : ReplyInput) (others : List Transaction) :
    RegistrationMemory → List Output → Except Fault RegistrationMemory
  | s, [] => .ok s
  | s, .datagram _ _ :: sent => runCalls input others s sent
  | s, .callback callback transacP packet :: sent => do
    let s ← s.call input others callback transacP packet
    runCalls input others s sent

/-- The context after the functions of `coap/transaction.c`, and then the calls that they
made. -/
def resume (input : ReplyInput) (others : List Transaction) (s : RegistrationMemory)
    (contextP : TransactionContext) (sent : List Output) : Except Fault RegistrationMemory :=
  runCalls input others { s with toTransactionContext := contextP } sent

/-! ### The requests -/

/-- The token that `transaction_new` generates for 4 bytes. -/
def generatedToken (mID : UInt16) (tvSec : ℤ) : List Byte :=
  [mID.toUInt8, (mID >>> 8).toUInt8, UInt8.ofInt tvSec, UInt8.ofInt (tvSec / 256)]

/-- The path of a registration, `"/"URI_REGISTRATION_SEGMENT`. -/
def registrationPath : CString := [0x2F, 0x72, 0x64]

/-- `transaction_new` for a request `POST` with 4 bytes of token. -/
def newRequest (input : RequestInput) (sessionH : Session) (mID : UInt16) : Option Transaction :=
  transactionNew sessionH 2 none none mID (generatedToken mID input.tvSec)

/-- The transaction of `prv_register`, before it gets its user data. -/
def registerRequest (input : RequestInput) (transaction : Transaction) (query : CString) :
    Transaction :=
  let message := transaction.message.coapSetHeaderUriPath registrationPath
  let message := message.coapSetHeaderUriQuery query
  let message := message.coapSetHeaderContentType 40
  { transactionSetPayload input.coapBlockSize { transaction with message } input.payload with
    callback := some registrationReply }

/-- The transaction of `prv_updateRegistration`, before it gets its user data. -/
def updateRegistrationRequest (input : RequestInput) (transaction : Transaction) (location : CString)
    (withObjects : Bool) : Transaction :=
  let message := transaction.message.coapSetHeaderUriPath location
  let transaction := { transaction with message, callback := some registrationUpdateReply }
  if withObjects then transactionSetPayload input.coapBlockSize transaction input.payload
  else transaction

/-- A transaction gets its user data, and is listed and sent. -/
def sendWith (input : RequestInput) (reply : ReplyInput) (s : RegistrationMemory)
    (transaction : Transaction) (data : RegistrationData) :
    Except Fault (RegistrationMemory × ℤ) := do
  let (heap, dataP) := s.heap.alloc .node
  let registrationData := Function.update s.registrationData dataP data
  let (contextP, sent, result) ← addAndSend input.tvSec s.toTransactionContext
    { transaction with userData := some dataP }
  let s ← { s with heap, registrationData }.resume reply s.transactionList contextP sent
  return (s, result)

/-- The server gets a session if it has none. -/
def connected (s : RegistrationMemory) (server : Server) (session : Session) :
    RegistrationMemory :=
  if server.sessionH = none then s.updateServers ⟨fun server' =>
      if server'.ref = server.ref then { server' with sessionH := session } else server',
    fun server => by split_ifs <;> rfl⟩
  else s

/-- `prv_register`. -/
def prvRegister (input : RequestInput) (reply : ReplyInput) (s : RegistrationMemory)
    (serverP : ServerRef) : Except Fault (RegistrationMemory × Code) := do
  let (heap, payload) := s.heap.alloc (.buffer input.payload)
  if input.payload = [] then
    let heap ← lwm2mFree heap (some payload)
    return ({ s with heap }, coap500InternalServerError)
  match input.query with
  | none =>
    let heap ← lwm2mFree heap (some payload)
    return ({ s with heap }, coap500InternalServerError)
  | some text =>
    let (heap, query) := heap.alloc (.buffer (text ++ [0]))
    let server ← deref s.serverList serverP
    let s := s.connected server input.connect
    let sessionH := server.sessionH.orElse fun _ => input.connect
    let mID := s.nextMID
    match newRequest input sessionH mID with
    | none =>
      -- without a session the message-id is not taken
      let heap ← lwm2mFree heap (some payload)
      let heap ← lwm2mFree heap (some query)
      return ({ s with heap }, coap503ServiceUnavailable)
    | some transaction =>
      let (s, result) ← { s with heap, nextMID := mID + 1 }.sendWith input reply
        (registerRequest input transaction text) ⟨serverP, some query, some payload⟩
      if result = 0 then return (s.updateServers (.status serverP .regPending), noError)
      else return (s, coap503ServiceUnavailable)

/-- The server waits for the answer to an update that was sent. -/
def updateSent (s : RegistrationMemory) (serverP : ServerRef) (result : ℤ) : RegistrationMemory :=
  if result = 0 then s.updateServers (.status serverP .regUpdatePending) else s

/-- `prv_updateRegistration`. -/
def prvUpdateRegistration (input : RequestInput) (reply : ReplyInput) (s : RegistrationMemory)
    (serverP : ServerRef) (withObjects : Bool) : Except Fault (RegistrationMemory × Code) := do
  let server ← deref s.serverList serverP
  let mID := s.nextMID
  let s := { s with nextMID := mID + 1 }
  match newRequest input server.sessionH mID with
  | none => return (s, coap500InternalServerError)
  | some transaction =>
    match s.location serverP with
    | none => .error .nullDereference
    | some location =>
      let transaction := updateRegistrationRequest input transaction location withObjects
      if withObjects then
        let (heap, payload) := s.heap.alloc (.buffer input.payload)
        if input.payload = [] then
          let heap ← lwm2mFree heap (some payload)
          return ({ s with heap }, coap500InternalServerError)
        let (s, result) ← { s with heap }.sendWith input reply transaction
          ⟨serverP, none, some payload⟩
        return (s.updateSent serverP result, noError)
      else
        let (s, result) ← s.sendWith input reply transaction ⟨serverP, none, none⟩
        return (s.updateSent serverP result, noError)

end RegistrationMemory

/-! ### Events -/

/-- What happens to the requests of the registration interface.  A received acknowledgement is
the event that continues its transfer, if there is one, and then the response; `transaction_step`
sends the listed transactions that are due, one after the other. -/
inductive RegistrationEvent
  /-- `prv_register`. -/
  | register (input : RequestInput) (serverP : ServerRef)
  /-- `prv_updateRegistration`. -/
  | update (input : RequestInput) (serverP : ServerRef) (withObjects : Bool)
  /-- `prv_send_next_block1` or `prv_retry_block1`, for an acknowledgement with a Block1 option. -/
  | continueBlock1 (env : PacketEnv) (fromSessionH : Session) (message : Packet)
  /-- `prv_change_to_block1`. -/
  | changeToBlock1 (env : PacketEnv) (fromSessionH : Session) (mid : UInt16) (size : UInt32)
  /-- `prv_send_get_block2`. -/
  | getBlock2 (env : PacketEnv) (fromSessionH : Session) (blockDataHead : List BlockData)
    (mid : UInt16) (num : UInt32) (size : UInt16)
  /-- `transaction_send` on the transaction with this message-id. -/
  | send (tvSec : ℤ) (mID : UInt16)
  /-- `transaction_handleResponse`. -/
  | response (tvSec : ℤ) (fromSessionH : Session) (message : Packet) (withResponse : Bool)
  /-- The servers are changed in place, as `lwm2m_update_registration` does. -/
  | servers (servers : InPlace)

/-- The memory after an event. -/
def RegistrationMemory.after (reply : ReplyInput) (s : RegistrationMemory) :
    RegistrationEvent → Except Fault RegistrationMemory
  | .register input serverP => do
    let (s, _) ← s.prvRegister input reply serverP
    return s
  | .update input serverP withObjects => do
    let (s, _) ← s.prvUpdateRegistration input reply serverP withObjects
    return s
  | .continueBlock1 env fromSessionH message => do
    let (contextP, sent, _) ← Core.continueBlock1 env s.toTransactionContext fromSessionH message
    s.resume reply s.transactionList contextP sent
  | .changeToBlock1 env fromSessionH mid size => do
    let (contextP, sent, _) ← prvChangeToBlock1 env.coapBlockSize env.tvSec s.toTransactionContext
      fromSessionH mid size
    s.resume reply s.transactionList contextP sent
  | .getBlock2 env fromSessionH blockDataHead mid num size => do
    let (contextP, _, sent) ← prvSendGetBlock2 env.coapBlockSize env.tvSec s.toTransactionContext
      fromSessionH blockDataHead mid num size
    s.resume reply s.transactionList contextP sent
  | .send tvSec mID => do
    let (transactionList, sent) ← handleEvent s.transactionList (.send tvSec mID)
    s.resume reply transactionList { s.toTransactionContext with transactionList } sent
  | .response tvSec fromSessionH message withResponse => do
    let (transactionList, sent) ← handleEvent s.transactionList
      (.response tvSec fromSessionH message withResponse)
    s.resume reply transactionList { s.toTransactionContext with transactionList } sent
  | .servers servers => return s.updateServers servers

end Lwm2m.Core

/-
# Received responses

The response branch of `lwm2m_handle_packet` in `core/packet.c`, with the functions that
continue a block-wise transfer: each of them makes the next request from the previous
transaction (`prv_create_next_block_transaction`), whose serialized message is parsed
again.

The dereference of a transaction that was not found, and the division by the block size
of a request, are faults (`Fault.nullDereference`, `Fault.divisionByZero`).  The proxy
URI, the host and the location query of a request are copied to arrays of an inner
block, so using a copy with a byte in it is a use after free; the model faults where the
copy is made.
-/

import Lwm2m.Core.Request
import Lwm2m.Core.Transaction

namespace Lwm2m.Core

open Coap Code Library

/-- `prv_get_transaction`. -/
def prvGetTransaction (contextP : TransactionContext) (sessionH : Session) (mid : UInt16) :
    Option Transaction :=
  contextP.transactionList.find? fun transaction =>
    lwm2mSessionIsEqual sessionH transaction.peerH && transaction.mID == mid

/-! ### The next request -/

/-- The options that `prv_create_next_block_transaction` copies from the parsed message.  A message
with a Proxy-Uri is not parsed, and a host or a location query that gets here is empty. -/
def copyOptions (message clone : Packet) : Packet :=
  -- the content type is first set to the type of the message
  let clone := clone.coapSetHeaderContentType message.type.field.toUInt32
  let clone := if message.isOption .etag then clone.coapSetHeaderEtag message.etag else clone
  let clone := if message.isOption .uriHost then
      { clone with uriHost := message.uriHost }.markOption .uriHost
    else clone
  let clone :=
    if message.isOption .uriPort then clone.coapSetHeaderUriPort message.uriPort else clone
  let clone := if message.isOption .locationPath then
      { clone with locationPath := message.locationPath }.markOption .locationPath
    else clone
  let clone := if message.isOption .locationQuery then
      { clone with locationQuery := message.locationQuery }.markOption .locationQuery
    else clone
  let clone := if message.isOption .contentType then
      { clone with contentType := message.contentType }.markOption .contentType
    else clone
  let clone := if message.isOption .uriPath then
      { clone with uriPath := message.uriPath }.markOption .uriPath
    else clone
  let clone :=
    if message.isOption .observe then clone.coapSetHeaderObserve message.observe else clone
  let clone := message.accept.foldl Packet.coapSetHeaderAccept clone
  let clone :=
    if message.isOption .ifMatch then clone.coapSetHeaderIfMatch message.ifMatch else clone
  let clone := if message.isOption .uriQuery then
      { clone with uriQuery := message.uriQuery }.markOption .uriQuery
    else clone
  if message.isOption .ifNoneMatch then clone.coapSetHeaderIfNoneMatch else clone

/-- `prv_create_next_block_transaction`. -/
def prvCreateNextBlockTransaction (transaction : Transaction) (nextMID : UInt16) :
    Except Fault (Option Transaction) := do
  let (code, message) ← coapParseMessage (transaction.buffer.getD [])
  if code ≠ noError then return none
  match transactionNew transaction.peerH message.code none none nextMID message.token with
  | none => return none
  | some clone =>
    if message.proxyUri ≠ [] ∨ message.uriHost ≠ [] ∨ message.locationQuery ≠ [] then
      throw .useAfterFree
    return some { clone with
      message := copyOptions message clone.message
      payload := transaction.payload
      callback := transaction.callback
      userData := transaction.userData }

/-- `prv_send_new_block1`. -/
def prvSendNewBlock1 (tvSec : ℤ) (contextP : TransactionContext) (previous : Transaction)
    (blockNum : UInt32) (blockSize : UInt16) :
    Except Fault (TransactionContext × List Output × ℤ) := do
  let start := blockNum.toNat * blockSize.toNat
  if start ≥ previous.payload.length then return (contextP, [], 0)
  let nextMID := contextP.nextMID
  let contextP := { contextP with nextMID := nextMID + 1 }
  match ← prvCreateNextBlockTransaction previous nextMID with
  | none => return (contextP, [], coap500InternalServerError.toNat)
  | some next =>
    let remaining := next.payload.length - start
    -- this product has 32 bits
    let newBlockStart := (blockNum * blockSize.toUInt32).toNat
    let message := next.message.coapSetHeaderBlock1 blockNum
      (if remaining > blockSize.toNat then 1 else 0) blockSize
    let message := message.coapSetPayload
      ((next.payload.drop newBlockStart).take (min blockSize.toNat remaining))
    addAndSend tvSec contextP { next with message }

/-- `prv_send_next_block1`. -/
def prvSendNextBlock1 (tvSec : ℤ) (contextP : TransactionContext) (sessionH : Session)
    (mid blockSize : UInt16) : Except Fault (TransactionContext × List Output × ℤ) := do
  match prvGetTransaction contextP sessionH mid with
  | none => return (contextP, [], coap500InternalServerError.toNat)
  | some transaction =>
    let b := transaction.message.block1
    let blockSize := if blockSize > b.size ∨ blockSize = 0 then b.size else blockSize
    if b.num = 0 then
      if blockSize = 0 then throw .divisionByZero
      prvSendNewBlock1 tvSec contextP transaction (b.size / blockSize).toUInt32 blockSize
    else prvSendNewBlock1 tvSec contextP transaction (b.num + 1) blockSize

/-- The loop of `prv_change_to_block1`: the largest power of two times 16 that is at most
the size.  A size has 16 bits, so twelve rounds are enough. -/
def largestBlockSize (size : UInt16) : ℕ → ℕ → UInt16 → UInt16
  | 0, _, blockSize => blockSize
  | rounds + 1, n, blockSize =>
    if 16 <<< n ≤ size.toNat then largestBlockSize size rounds (n + 1) (16 <<< n).toUInt16
    else blockSize

/-- `prv_change_to_block1`: the transaction is passed on even when it is not found. -/
def prvChangeToBlock1 (coapBlockSize : UInt16) (tvSec : ℤ) (contextP : TransactionContext)
    (sessionH : Session) (mid : UInt16) (size : UInt32) :
    Except Fault (TransactionContext × List Output × ℤ) :=
  let blockSize := min (largestBlockSize size.toUInt16 12 1 16) coapBlockSize
  match prvGetTransaction contextP sessionH mid with
  | none => .error .nullDereference
  | some transaction => prvSendNewBlock1 tvSec contextP transaction 0 blockSize

/-- `prv_retry_block1`. -/
def prvRetryBlock1 (tvSec : ℤ) (contextP : TransactionContext) (sessionH : Session)
    (mid blockSize : UInt16) : Except Fault (TransactionContext × List Output × ℤ) := do
  match prvGetTransaction contextP sessionH mid with
  | none => return (contextP, [], coap500InternalServerError.toNat)
  | some transaction =>
    let message := transaction.message
    if !message.isOption .block1 then
      -- the request was not a block: switch to a block-wise transfer
      prvSendNewBlock1 tvSec contextP transaction 0 blockSize
    else
      let b := message.block1
      let blockSize := if blockSize = b.size ∧ blockSize > 16 then blockSize / 2 else blockSize
      if blockSize ≥ b.size ∨ blockSize = 0 then
        return (contextP, [], coap400BadRequest.toNat)
      prvSendNewBlock1 tvSec contextP transaction b.num blockSize

/-- `prv_send_get_block2`, on the block list of the peer. -/
def prvSendGetBlock2 (coapBlockSize : UInt16) (tvSec : ℤ) (contextP : TransactionContext)
    (sessionH : Session) (blockDataHead : List BlockData) (currentMID : UInt16)
    (block2Num : UInt32) (block2Size : UInt16) :
    Except Fault (TransactionContext × List BlockData × List Output) := do
  match prvGetTransaction contextP sessionH currentMID with
  | none => return (contextP, blockDataHead, [])
  | some transaction =>
    if block2Num = 0 ∧ transaction.message.isOption .block2 then
      return (contextP, blockDataHead, [])
    let nextMID := contextP.nextMID
    let contextP := { contextP with nextMID := nextMID + 1 }
    match ← prvCreateNextBlockTransaction transaction nextMID with
    | none => return (contextP, blockDataHead, [])
    | some next =>
      let message := next.message.coapSetHeaderBlock2 block2Num 0 (min block2Size coapBlockSize)
      let blockDataHead ← coapBlock2SetExpectedMid blockDataHead currentMID nextMID
      let (contextP, sent, _) ← addAndSend tvSec contextP { next with message }
      return (contextP, blockDataHead, sent)

/-- `prv_send_get_next_block2`. -/
def prvSendGetNextBlock2 (coapBlockSize : UInt16) (tvSec : ℤ) (contextP : TransactionContext)
    (sessionH : Session) (blockDataHead : List BlockData) (currentMID : UInt16)
    (block2Num : UInt32) (block2Size : UInt16) :
    Except Fault (TransactionContext × List BlockData × List Output) :=
  prvSendGetBlock2 coapBlockSize tvSec contextP sessionH blockDataHead currentMID (block2Num + 1)
    block2Size

/-! ### The response branch -/

/-- What `lwm2m_handle_packet` reads of its surroundings. -/
structure PacketEnv where
  /-- `lwm2m_get_coap_block_size`. -/
  coapBlockSize : UInt16
  /-- `lwm2m_gettime`. -/
  tvSec : ℤ
  /-- `coap_error_message`. -/
  coapErrorMessage : CString := []
  deriving DecidableEq, Repr

/-- The server or bootstrap server of a session. -/
def findPeer (contextP : Context) (fromSessionH : Session) : Option Server :=
  (utilsFindServer contextP.serverList fromSessionH).orElse
    fun _ => utilsFindServer contextP.bootstrapServerList fromSessionH

/-- `setBlockData` on the context with its transactions. -/
def TransactionContext.setBlockData (contextP : TransactionContext) (ref : ServerRef)
    (blockData : List BlockData) : TransactionContext :=
  { contextP with toContext := Core.setBlockData contextP.toContext ref blockData }

/-- `transaction_handleResponse` on the context. -/
def handleTransaction (env : PacketEnv) (contextP : TransactionContext) (fromSessionH : Session)
    (message : Packet) (withResponse : Bool) :
    Except Fault (TransactionContext × List Output × Bool) := do
  let (transactionList, sent, done) ← transactionHandleResponse env.tvSec
    contextP.transactionList fromSessionH message withResponse
  return ({ contextP with transactionList }, sent, done)

/-- A response with more payload than a block: it is asked for again block by block. -/
def handleLargeResponse (env : PacketEnv) (contextP : TransactionContext)
    (fromSessionH : Session) (message : Packet) :
    Except Fault (TransactionContext × List Output) := do
  let (contextP, sent) ← match findPeer contextP.toContext fromSessionH with
    | none => pure (contextP, [])
    | some peerP =>
      let (contextP, blockData, sent) ← prvSendGetBlock2 env.coapBlockSize env.tvSec contextP
        fromSessionH peerP.blockData message.mid 0 env.coapBlockSize
      pure (contextP.setBlockData peerP.ref blockData, sent)
  let (contextP, sent', _) ← handleTransaction env contextP fromSessionH message false
  return (contextP, sent ++ sent')

/-- The cases COAP_TYPE_NON and COAP_TYPE_CON. -/
def handleSeparate (env : PacketEnv) (contextP : TransactionContext) (fromSessionH : Session)
    (message : Packet) : Except Fault (TransactionContext × List Output) := do
  if message.payload.length > env.coapBlockSize.toNat then
    handleLargeResponse env contextP fromSessionH message
  else
    let (contextP, sent, done) ← handleTransaction env contextP fromSessionH message true
    if !done && message.type == .con then
      return (contextP, sent ++ [emptyAck message fromSessionH])
    else return (contextP, sent)

/-- The case COAP_TYPE_RST. -/
def handleReset (env : PacketEnv) (contextP : TransactionContext) (fromSessionH : Session)
    (message : Packet) : Except Fault (TransactionContext × List Output) := do
  let observedList ← observeCancel contextP.serverList message.mid fromSessionH
    contextP.observedList
  let (contextP, sent, _) ← handleTransaction env { contextP with observedList } fromSessionH
    message false
  return (contextP, sent)

/-- The `switch` on the code of an acknowledgement with a Block1 option. -/
def continueBlock1 (env : PacketEnv) (contextP : TransactionContext) (fromSessionH : Session)
    (message : Packet) : Except Fault (TransactionContext × List Output × ℤ) :=
  if message.code = coap201Created ∨ message.code = coap204Changed ∨
      message.code = coap231Continue then
    prvSendNextBlock1 env.tvSec contextP fromSessionH message.mid message.block1.size
  else if message.code = coap413EntityTooLarge ∧ message.block1.num = 0 then
    prvRetryBlock1 env.tvSec contextP fromSessionH message.mid message.block1.size
  else .ok (contextP, [], 0)

/-- A block of a response is added to the blocks before it. -/
def receiveBlock2 (env : PacketEnv) (contextP : TransactionContext) (fromSessionH : Session)
    (message : Packet) : Except Fault (TransactionContext × List Output × Code) := do
  match findPeer contextP.toContext fromSessionH with
  | none => return (contextP, [], coap500InternalServerError)
  | some peerP =>
    let b := message.block2
    let (blockData, code, output) ← coapBlock2Handler peerP.blockData message.mid
      ⟨message.payload, b.size, b.num, b.more ≠ 0⟩
    if code = noError then
      let message := match output with
        | .complete buffer => { message with payload := buffer }
        | _ => message
      let (contextP, sent, _) ← handleTransaction env (contextP.setBlockData peerP.ref blockData)
        fromSessionH message false
      let blockData ← block2Delete blockData message.mid
      return (contextP.setBlockData peerP.ref blockData, sent, noError)
    else if code = coap231Continue then
      let (contextP, blockData, sent) ← prvSendGetNextBlock2 env.coapBlockSize env.tvSec contextP
        fromSessionH blockData message.mid b.num b.size
      let (contextP, sent', _) ← handleTransaction env
        (contextP.setBlockData peerP.ref blockData) fromSessionH message false
      return (contextP, sent ++ sent', noError)
    else return (contextP.setBlockData peerP.ref blockData, [], code)

/-- The case COAP_TYPE_ACK. -/
def handleAck (env : PacketEnv) (contextP : TransactionContext) (fromSessionH : Session)
    (message : Packet) : Except Fault (TransactionContext × List Output × Code) := do
  if message.payload.length > env.coapBlockSize.toNat then
    let (contextP, sent) ← handleLargeResponse env contextP fromSessionH message
    return (contextP, sent, noError)
  else if message.isOption .block1 then
    let (contextP, sent, _) ← continueBlock1 env contextP fromSessionH message
    let (contextP, sent', _) ← handleTransaction env contextP fromSessionH message false
    return (contextP, sent ++ sent', noError)
  else if message.isOption .block2 then receiveBlock2 env contextP fromSessionH message
  else if message.code = coap413EntityTooLarge then
    let (contextP, sent, _) ← prvChangeToBlock1 env.coapBlockSize env.tvSec contextP fromSessionH
      message.mid message.size
    let (contextP, sent', _) ← handleTransaction env contextP fromSessionH message false
    return (contextP, sent ++ sent', noError)
  else
    let (contextP, sent, _) ← handleTransaction env contextP fromSessionH message false
    return (contextP, sent, noError)

/-- The `switch` of `lwm2m_handle_packet` on the type of a response. -/
def handleResponse (env : PacketEnv) (contextP : TransactionContext) (fromSessionH : Session)
    (message : Packet) : Except Fault (TransactionContext × List Output × Code) := do
  match message.type with
  | .non | .con =>
    let (contextP, sent) ← handleSeparate env contextP fromSessionH message
    return (contextP, sent, noError)
  | .rst =>
    let (contextP, sent) ← handleReset env contextP fromSessionH message
    return (contextP, sent, noError)
  | .ack => handleAck env contextP fromSessionH message

/-- `message_send`, which is taken to succeed. -/
def messageSend (message : Packet) (sessionH : Session) : Output :=
  .datagram sessionH (coapSerializeMessage message)

/-- The end of `lwm2m_handle_packet`: an error is answered. -/
def errorReply (env : PacketEnv) (message : Packet) (fromSessionH : Session) (code : Code) :
    List Output :=
  if code ≠ noError ∧ code ≠ coapIgnore then
    let code := if code ≥ 192 then coap500InternalServerError else code
    [messageSend ((coapInitMessage .ack code message.mid).coapSetPayload env.coapErrorMessage)
      fromSessionH]
  else []

/-- A request code. -/
def isRequestCode (code : Code) : Prop := 1 ≤ code ∧ code ≤ 4

instance (code : Code) : Decidable (isRequestCode code) := inferInstanceAs (Decidable (_ ∧ _))

/-- `lwm2m_handle_packet`. -/
def lwm2mHandlePacket (altPath : Option CString) (env : PacketEnv) (contextP : TransactionContext)
    (buffer : List Byte) (fromSessionH : Session) (outcome : Outcome) :
    Except Fault (TransactionContext × List Output) := do
  let (code, message) ← parseReceived buffer
  if code ≠ noError then return (contextP, errorReply env message fromSessionH code)
  else if isRequestCode message.code then
    let (context, reply) ← lwm2mHandleRequestPacket altPath env.coapBlockSize contextP.toContext
      fromSessionH message outcome
    return ({ contextP with toContext := context },
      (reply.map fun reply => messageSend reply fromSessionH).toList)
  else
    let (contextP, sent, code) ← handleResponse env contextP fromSessionH message
    return (contextP, sent ++ errorReply env message fromSessionH code)

end Lwm2m.Core

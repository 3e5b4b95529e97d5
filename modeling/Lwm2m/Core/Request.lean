/-
# Received requests

The request branch of `lwm2m_handle_packet` in `core/packet.c`: the reply that is
prepared, the Block1 payload that is assembled, the dispatch by the decoded path,
and the Block2 part of the reply that is sent.

`message_send` is taken to succeed, so the reply sent is the last one prepared.
-/

import Lwm2m.Core.Management
import Lwm2m.Core.Uri

namespace Lwm2m.Core

open Coap Code Library

/-! ### The key of a block-wise request -/

/-- `prv_coap_get_multi_option_as_string`, as a C string. -/
def multiOptionAsString (option : List (List Byte)) (first delimiter : Byte) : CString :=
  match option with
  | [] => []
  | opt :: next => (first :: opt ++ next.flatMap (delimiter :: ·)).takeWhile (· ≠ 0)

/-- `coap_get_packet_uri_as_string`: host, path and query, each up to its first NUL. -/
def coapGetPacketUriAsString (packet : Packet) : CString :=
  let path := multiOptionAsString packet.uriPath 0x2F 0x2F
  let query := multiOptionAsString packet.uriQuery 0x3F 0x26
  [0x2F, 0x2F] ++ packet.uriHost.takeWhile (· ≠ 0) ++ (if path = [] then [0x2F] else path) ++ query

/-! ### Dispatch -/

/-- `handle_request`, with the status code of the response set. -/
def handleRequest (altPath : Option CString) (contextP : Context) (fromSessionH : Session)
    (message response : Packet) (outcome : Outcome) : Except Fault (Context × Packet × Code) := do
  let (requestType, uri) ← uriDecode altPath message.uriPath message.code
  match requestType with
  | .unknown => return (contextP, response, coap400BadRequest)
  | requestType =>
    let (contextP, response, result) ← match requestType with
      | .dm =>
        match utilsFindServer contextP.serverList fromSessionH with
        | some serverP => dmHandleRequest contextP uri serverP message response outcome
        | none =>
          match utilsFindServer contextP.bootstrapServerList fromSessionH with
          | some serverP =>
            pure (bootstrapHandleCommand contextP uri serverP message response outcome.bootstrap)
          | none => pure (contextP, response, coapIgnore)
      | .deleteAll =>
        let (contextP, result) := bootstrapHandleDeleteAll contextP fromSessionH outcome.deletions
        pure (contextP, response, result)
      | .bootstrap =>
        if message.code = 2 then
          let (contextP, result) := bootstrapHandleFinish contextP fromSessionH outcome.security
          pure (contextP, response, result)
        else pure (contextP, response, coapIgnore)
      | _ => pure (contextP, response, coapIgnore)
    let response := { response with code := result }
    if coapIgnore < result ∧ result < coap400BadRequest then return (contextP, response, noError)
    else return (contextP, response, result)

/-! ### The payload of the request and of the reply -/

/-- The reply prepared before the request is looked at: its type, message-id and token. -/
def prepareResponse (contextP : Context) (message : Packet) : Context × Packet :=
  let (contextP, response) :=
    if message.type = .con then (contextP, coapInitMessage .ack coap205Content message.mid)
    else ({ contextP with nextMID := contextP.nextMID + 1 },
      coapInitMessage .non coap205Content contextP.nextMID)
  (contextP, if message.token.length ≠ 0 then response.coapSetHeaderToken message.token
    else response)

/-- A server of either list, with its block list replaced. -/
def setBlockData (contextP : Context) (ref : ServerRef) (blockData : List BlockData) : Context :=
  let f := fun server : Server => if server.ref = ref then { server with blockData } else server
  { contextP with
    serverList := contextP.serverList.map f
    bootstrapServerList := contextP.bootstrapServerList.map f }

/-- The Block1 part of `lwm2m_handle_packet`: the context, the request with the payload
assembled, the reply and the code reached. -/
def receivePayload (blockSize : UInt16) (contextP : Context) (fromSessionH : Session)
    (message response : Packet) : Except Fault (Context × Packet × Packet × Code) := do
  if message.payload.length > blockSize.toNat then
    let response :=
      if message.isOption .block1 then
        response.coapSetHeaderBlock1 message.block1.num message.block1.more blockSize
      else response.coapSetHeaderBlock1 0 1 blockSize
    return (contextP, message, response, coap413EntityTooLarge)
  else if message.isOption .block1 then
    match (utilsFindServer contextP.serverList fromSessionH).orElse
        fun _ => utilsFindServer contextP.bootstrapServerList fromSessionH with
    | none => return (contextP, message, response, coap500InternalServerError)
    | some peerP =>
      let b := message.block1
      let (blockData, code, output) ← coapBlock1Handler peerP.blockData
        (coapGetPacketUriAsString message) ⟨message.payload, b.size, b.num, b.more ≠ 0⟩
      let message := match output with
        | .complete buffer => { message with payload := buffer }
        | _ => message
      return (setBlockData contextP peerP.ref blockData, message,
        response.coapSetHeaderBlock1 b.num b.more (min b.size blockSize), code)
  else return (contextP, message, response, noError)

/-- The Block2 part of `lwm2m_handle_packet`: the part of the reply that is sent. -/
def selectBlock2 (blockSize : UInt16) (message response : Packet) : Packet :=
  let length := response.payload.length
  if message.isOption .block2 then
    let size := min message.block2.size blockSize
    let offset := message.block2.offset.toNat
    if offset ≥ length then
      -- "BlockOutOfScope"
      { response with code := coap402BadOption }.coapSetPayload
        [0x42, 0x6C, 0x6F, 0x63, 0x6B, 0x4F, 0x75, 0x74, 0x4F, 0x66, 0x53, 0x63, 0x6F, 0x70, 0x65]
    else
      (response.coapSetHeaderBlock2 message.block2.num
        (if length - offset > size.toNat then 1 else 0) size).coapSetPayload
        ((response.payload.drop offset).take (min (length - offset) size.toNat))
  else if length > blockSize.toNat then
    (response.coapSetHeaderBlock2 0 1 blockSize).coapSetPayload
      (response.payload.take blockSize.toNat)
  else response

/-- The status code of a reply that is not made by the request handler. -/
def errorCode (response : Packet) (code : Code) : Code :=
  if code = coapRetransmission ∧ response.isOption .block1 then
    if response.block1.more ≠ 0 then coap231Continue else coap204Changed
  else code

/-- The request branch of `lwm2m_handle_packet`: the context afterwards and the reply that
is sent, if any. -/
def lwm2mHandleRequestPacket (altPath : Option CString) (blockSize : UInt16) (contextP : Context)
    (fromSessionH : Session) (message : Packet) (outcome : Outcome) :
    Except Fault (Context × Option Packet) := do
  let (contextP, response) := prepareResponse contextP message
  let (contextP, message, response, code) ← receivePayload blockSize contextP fromSessionH
    message response
  let (contextP, response, code) ←
    if code = noError then handleRequest altPath contextP fromSessionH message response outcome
    else pure (contextP, response, code)
  if code = noError then return (contextP, some (selectBlock2 blockSize message response))
  else if code ≠ coapIgnore then
    return (contextP, some { response with code := errorCode response code })
  else return (contextP, none)

end Lwm2m.Core

/-
# The last block of a request arrives again

`lwm2m_handle_packet` asks the block layer whether a block is a retransmission.  The entry of
a completed transfer is kept, but not what the request handler answered: the reply to a
retransmitted last block is 2.04 whatever the first reply was, and a request of one block is
handled again, since block 0 is never a retransmission.
-/

import Lwm2m.Coap.RepeatedBlock
import Lwm2m.Core.Request

namespace Lwm2m.Core

open Coap Code Library

/-- The server whose block list receives a block. -/
def blockPeer (contextP : Context) (fromSessionH : Session) : Option Server :=
  (utilsFindServer contextP.serverList fromSessionH).orElse
    fun _ => utilsFindServer contextP.bootstrapServerList fromSessionH

/-- What the block layer is told of a request with a Block1 option. -/
def blockArrival (message : Packet) : BlockArrival :=
  ⟨message.payload, message.block1.size, message.block1.num, message.block1.more ≠ 0⟩

/-- The request handler is run for the message. -/
def RunsHandler (blockSize : UInt16) (contextP : Context) (fromSessionH : Session)
    (message : Packet) : Prop :=
  ∃ contextQ request response, receivePayload blockSize (prepareResponse contextP message).1
    fromSessionH message (prepareResponse contextP message).2 =
      .ok (contextQ, request, response, noError)

/-- The message is answered without the request handler, and with the code of `reply`. -/
def RepeatsAnswer (altPath : Option CString) (blockSize : UInt16) (contextP : Context)
    (fromSessionH : Session) (message : Packet) (outcome : Outcome) (reply : Option Packet) :
    Prop :=
  ¬ RunsHandler blockSize contextP fromSessionH message ∧
    ∃ contextQ reply', lwm2mHandleRequestPacket altPath blockSize contextP fromSessionH message
      outcome = .ok (contextQ, reply') ∧ reply'.map Packet.code = reply.map Packet.code

/-- The reply can carry the Block1 option of the request. -/
def CanEcho (blockSize : UInt16) (message : Packet) : Prop :=
  16 ≤ min message.block1.size blockSize ∧ min message.block1.size blockSize ≤ 2048 ∧
    message.block1.num ≤ 0x0FFFFF

instance (blockSize : UInt16) (message : Packet) : Decidable (CanEcho blockSize message) :=
  inferInstanceAs (Decidable (_ ∧ _ ∧ _))

/-- The code of the reply to a last block that is a retransmission. -/
def repeatCode (blockSize : UInt16) (message : Packet) : Code :=
  if CanEcho blockSize message then coap204Changed else coapRetransmission

/-- A last block that is answered without the request handler, by the state it arrives in and
the code of the answer. -/
inductive Refused (blockSize : UInt16) (contextP : Context) (fromSessionH : Session)
    (message : Packet) : Code → Prop
  /-- No server is known for the session. -/
  | unknown : blockPeer contextP fromSessionH = none →
      Refused blockSize contextP fromSessionH message coap500InternalServerError
  /-- The number is one that the transfer is past. -/
  | repeated (peerP : Server) : blockPeer contextP fromSessionH = some peerP →
      BlockRefused peerP.blockData (coapGetPacketUriAsString message) (blockArrival message)
        coapRetransmission →
      Refused blockSize contextP fromSessionH message (repeatCode blockSize message)
  /-- The transfer is lost, or the block does not fit it. -/
  | incomplete (peerP : Server) : blockPeer contextP fromSessionH = some peerP →
      BlockRefused peerP.blockData (coapGetPacketUriAsString message) (blockArrival message)
        coap408ReqEntityIncomplete →
      Refused blockSize contextP fromSessionH message coap408ReqEntityIncomplete

variable {altPath : Option CString} {blockSize : UInt16} {contextP contextP' : Context}
  {fromSessionH : Session} {message : Packet}

/-! ### The Block1 part -/

@[simp] theorem blockPeer_prepareResponse :
    blockPeer (prepareResponse contextP message).1 fromSessionH =
      blockPeer contextP fromSessionH := by
  unfold prepareResponse
  split_ifs <;> rfl

theorem isOption_prepareResponse :
    (prepareResponse contextP message).2.isOption .block1 = false := by
  have hinit (type : MessageType) (mid : UInt16) :
      (coapInitMessage type coap205Content mid).isOption .block1 = false := BitVec.getLsbD_zero
  have htoken (response : Packet) (token : List Byte) :
      (response.coapSetHeaderToken token).isOption .block1 = response.isOption .block1 := by
    unfold Packet.coapSetHeaderToken
    rw [Packet.isOption_markOption]
    exact Bool.or_false _
  unfold prepareResponse
  split_ifs
  · exact (htoken _ _).trans (hinit _ _)
  · exact hinit _ _
  · exact (htoken _ _).trans (hinit _ _)
  · exact hinit _ _

/-- The Block1 part for a block that fits, from a session without a server. -/
theorem receivePayload_of_unknown (hfits : ¬ message.payload.length > blockSize.toNat)
    (hblock : message.isOption .block1) (hpeer : blockPeer contextP fromSessionH = none)
    (response : Packet) :
    receivePayload blockSize contextP fromSessionH message response =
      .ok (contextP, message, response, coap500InternalServerError) := by
  unfold receivePayload
  rw [if_neg hfits, if_pos hblock]
  unfold blockPeer at hpeer
  simp only [hpeer]
  rfl

/-- The Block1 part for a block that fits, from the session of a server. -/
theorem receivePayload_of_peer (hfits : ¬ message.payload.length > blockSize.toNat)
    (hblock : message.isOption .block1) {peerP : Server}
    (hpeer : blockPeer contextP fromSessionH = some peerP) (response : Packet) :
    receivePayload blockSize contextP fromSessionH message response =
      coapBlock1Handler peerP.blockData (coapGetPacketUriAsString message) (blockArrival message) >>=
        fun result => .ok (setBlockData contextP peerP.ref result.1,
          (match result.2.2 with
            | .complete buffer => { message with payload := buffer }
            | _ => message),
          response.coapSetHeaderBlock1 message.block1.num message.block1.more
            (min message.block1.size blockSize), result.2.1) := by
  unfold receivePayload
  rw [if_neg hfits, if_pos hblock]
  unfold blockPeer at hpeer
  simp only [hpeer]
  rfl

/-- The handler is run for a message with a Block1 option only when its payload fits and no
further block is announced. -/
theorem RunsHandler.last (h : RunsHandler blockSize contextP fromSessionH message)
    (hblock : message.isOption .block1) :
    ¬ message.payload.length > blockSize.toNat ∧ (blockArrival message).blockMore = false := by
  obtain ⟨contextQ, request, response, h⟩ := h
  have hfits : ¬ message.payload.length > blockSize.toNat := by
    intro hlarge
    unfold receivePayload at h
    rw [if_pos hlarge] at h
    cases h
  refine ⟨hfits, ?_⟩
  cases hpeer : blockPeer contextP fromSessionH with
  | none =>
    rw [receivePayload_of_unknown hfits hblock (blockPeer_prepareResponse.trans hpeer)] at h
    cases h
  | some peerP =>
    rw [receivePayload_of_peer hfits hblock (blockPeer_prepareResponse.trans hpeer)] at h
    obtain ⟨⟨blockData, code, output⟩, hhandler, h⟩ := bind_eq_ok_iff.mp h
    obtain rfl : code = noError := congrArg (fun r => r.2.2.2) (Except.ok.inj h)
    exact coapBlock1Handler_completes hhandler

/-! ### The answer -/

/-- A request that the Block1 part ends is answered with its code. -/
theorem repeatsAnswer_of_ended {contextQ : Context} {request response : Packet} {code : Code}
    (h : receivePayload blockSize (prepareResponse contextP message).1 fromSessionH message
      (prepareResponse contextP message).2 = .ok (contextQ, request, response, code))
    (hcode : code ≠ noError) (hignore : code ≠ coapIgnore) (outcome : Outcome)
    (reply : Option Packet) :
    RepeatsAnswer altPath blockSize contextP fromSessionH message outcome reply ↔
      reply.map Packet.code = some (errorCode response code) := by
  have hruns : ¬ RunsHandler blockSize contextP fromSessionH message := by
    rintro ⟨_, _, _, hruns⟩
    rw [h] at hruns
    exact hcode (congrArg (fun r => r.2.2.2) (Except.ok.inj hruns))
  have hreply : lwm2mHandleRequestPacket altPath blockSize contextP fromSessionH message outcome =
      .ok (contextQ, some { response with code := errorCode response code }) := by
    unfold lwm2mHandleRequestPacket
    simp only [h, ok_bind, if_neg hcode, pure_eq_ok, if_pos hignore]
  unfold RepeatsAnswer
  rw [and_iff_right hruns, hreply]
  constructor
  · rintro ⟨_, _, heq, hsame⟩
    cases heq
    exact hsame.symm
  · intro hsame
    exact ⟨_, _, rfl, hsame.symm⟩

/-- Whether a reply can carry the Block1 option. -/
theorem coapSetHeaderBlock1_of_canEcho (hecho : CanEcho blockSize message) (response : Packet) :
    response.coapSetHeaderBlock1 message.block1.num message.block1.more
        (min message.block1.size blockSize) =
      { response with block1 := { response.block1 with
        num := message.block1.num
        more := message.block1.more
        size := min message.block1.size blockSize } }.markOption .block1 := by
  obtain ⟨hsmall, hlarge, hnum⟩ := hecho
  unfold Packet.coapSetHeaderBlock1
  rw [if_neg (UInt16.not_lt.mpr hsmall), if_neg (UInt16.not_lt.mpr hlarge),
    if_neg (UInt32.not_lt.mpr hnum)]

theorem coapSetHeaderBlock1_of_not_canEcho (hecho : ¬ CanEcho blockSize message)
    (response : Packet) :
    response.coapSetHeaderBlock1 message.block1.num message.block1.more
      (min message.block1.size blockSize) = response := by
  unfold Packet.coapSetHeaderBlock1
  split_ifs with hsmall hlarge hnum
  · rfl
  · rfl
  · rfl
  · exact absurd ⟨UInt16.not_lt.mp hsmall, UInt16.not_lt.mp hlarge, UInt32.not_lt.mp hnum⟩ hecho

/-- A retransmission is answered with 2.04, if the reply has room for the Block1 option. -/
theorem errorCode_retransmission {response : Packet} (hnone : response.isOption .block1 = false)
    (hlast : (blockArrival message).blockMore = false) :
    errorCode (response.coapSetHeaderBlock1 message.block1.num message.block1.more
      (min message.block1.size blockSize)) coapRetransmission = repeatCode blockSize message := by
  have hmore : ¬ message.block1.more ≠ 0 := of_decide_eq_false hlast
  unfold errorCode repeatCode
  by_cases hecho : CanEcho blockSize message
  · rw [coapSetHeaderBlock1_of_canEcho hecho, if_pos hecho, Packet.isOption_markOption,
      if_pos ⟨rfl, Bool.or_true _⟩]
    exact if_neg hmore
  · rw [coapSetHeaderBlock1_of_not_canEcho hecho, if_neg hecho, hnone]
    rfl

/-- **When the first answer is repeated.**  In any state, a last block of a Block1 request is
answered without the request handler, and with the code of the reply `reply`, if and only if the
block is refused in that state and the code is the one of the refusal. -/
theorem repeatsAnswer_iff (hfits : ¬ message.payload.length > blockSize.toNat)
    (hblock : message.isOption .block1) (hlast : (blockArrival message).blockMore = false)
    (outcome : Outcome) (reply : Option Packet) :
    RepeatsAnswer altPath blockSize contextP fromSessionH message outcome reply ↔
      ∃ code, Refused blockSize contextP fromSessionH message code ∧
        reply.map Packet.code = some code := by
  cases hpeer : blockPeer contextP fromSessionH with
  | none =>
    rw [repeatsAnswer_of_ended (receivePayload_of_unknown hfits hblock
      (blockPeer_prepareResponse.trans hpeer) _) (by decide) (by decide)]
    constructor
    · exact fun h => ⟨_, .unknown hpeer, h⟩
    · rintro ⟨code, hrefused, hreply⟩
      cases hrefused with
      | unknown => exact hreply
      | repeated peerP h _ | incomplete peerP h _ =>
        rw [hpeer] at h
        cases h
  | some peerP =>
    have hprepared : blockPeer (prepareResponse contextP message).1 fromSessionH = some peerP :=
      blockPeer_prepareResponse.trans hpeer
    have hpayload := receivePayload_of_peer hfits hblock hprepared
      (prepareResponse contextP message).2
    -- a refusal names the answer of the block layer
    have hhandler {code : Code} (h : Refused blockSize contextP fromSessionH message code) :
        ∃ c, c ≠ noError ∧ coapBlock1Handler peerP.blockData (coapGetPacketUriAsString message)
            (blockArrival message) = .ok (peerP.blockData, c, .untouched) ∧
          code = if c = coapRetransmission then repeatCode blockSize message else c := by
      cases h with
      | unknown h =>
        rw [hpeer] at h
        cases h
      | repeated peerQ h hrefused | incomplete peerQ h hrefused =>
        rw [hpeer] at h
        cases h
        exact ⟨_, by decide, (coapBlock1Handler_refuses_iff hlast (by decide)).mpr
          ⟨hrefused, rfl, rfl⟩, rfl⟩
    rcases hresult : coapBlock1Handler peerP.blockData (coapGetPacketUriAsString message)
      (blockArrival message) with e | ⟨blockData, c, output⟩
    · rw [hresult, error_bind] at hpayload
      constructor
      · rintro ⟨-, contextQ, reply', h, -⟩
        unfold lwm2mHandleRequestPacket at h
        simp only [hpayload, error_bind] at h
        cases h
      · rintro ⟨code, hrefused, -⟩
        obtain ⟨c, -, hok, -⟩ := hhandler hrefused
        rw [hresult] at hok
        cases hok
    · rw [hresult, ok_bind] at hpayload
      by_cases hc : c = noError
      · subst hc
        constructor
        · exact fun h => absurd ⟨_, _, _, hpayload⟩ h.1
        · rintro ⟨code, hrefused, -⟩
          obtain ⟨c, hne, hok, -⟩ := hhandler hrefused
          rw [hresult] at hok
          cases hok
          exact absurd rfl hne
      · obtain ⟨hrefused, rfl, rfl⟩ := (coapBlock1Handler_refuses_iff hlast hc).mp hresult
        rcases hrefused.code with rfl | rfl
        · rw [repeatsAnswer_of_ended hpayload hc (by decide : coapRetransmission ≠ coapIgnore),
            errorCode_retransmission isOption_prepareResponse hlast]
          constructor
          · exact fun h => ⟨_, .repeated peerP hpeer hrefused, h⟩
          · rintro ⟨code, hcode, hreply⟩
            obtain ⟨c, -, hok, rfl⟩ := hhandler hcode
            rw [hresult] at hok
            cases hok
            exact hreply
        · rw [repeatsAnswer_of_ended hpayload hc
            (by decide : coap408ReqEntityIncomplete ≠ coapIgnore)]
          constructor
          · exact fun h => ⟨_, .incomplete peerP hpeer hrefused, h⟩
          · rintro ⟨code, hcode, hreply⟩
            obtain ⟨c, -, hok, rfl⟩ := hhandler hcode
            rw [hresult] at hok
            cases hok
            exact hreply

/-! ### Two deliveries -/

/-- The first delivery of the last block of a Block1 request, which completes it. -/
structure Completes (altPath : Option CString) (blockSize : UInt16) (contextP : Context)
    (fromSessionH : Session) (message : Packet) (outcome : Outcome) (contextQ : Context)
    (reply : Option Packet) : Prop where
  block1 : message.isOption .block1
  runsHandler : RunsHandler blockSize contextP fromSessionH message
  replies : lwm2mHandleRequestPacket altPath blockSize contextP fromSessionH message outcome =
    .ok (contextQ, reply)

/-- The block came in its turn behind block 0, and left the block list `blockData`. -/
def StoredLast (contextP : Context) (fromSessionH : Session) (message : Packet)
    (blockData : List BlockData) : Prop :=
  ∃ peerP f output, blockPeer contextP fromSessionH = some peerP ∧ WellTyped peerP.blockData ∧
    findBlockData peerP.blockData (.uri (some (coapGetPacketUriAsString message))) .block1 =
      .ok (some f) ∧
    message.block1.num ≠ 0 ∧ message.block1.num = f.here.blockNum + 1 ∧
    coapBlock1Handler peerP.blockData (coapGetPacketUriAsString message) (blockArrival message) =
      .ok (blockData, noError, output)

/-- In `later` the block list of the server is what operations other than a new block 0 of the
URI, and other than the deletion of its transfer, make of `blockData`. -/
def BeforeBlockZero (blockData : List BlockData) (later : Context) (fromSessionH : Session)
    (message : Packet) (peerP : Server) : Prop :=
  blockPeer later fromSessionH = some peerP ∧
    ∃ events, (∀ event ∈ events, event.Spares (coapGetPacketUriAsString message)) ∧
      blockListRun blockData events = .ok peerP.blockData

/-- The block list that a last block leaves is well typed and holds its transfer. -/
theorem StoredLast.stored {blockData : List BlockData}
    (h : StoredLast contextP fromSessionH message blockData) :
    WellTyped blockData ∧ message.block1.num ≠ 0 ∧
      Stored blockData (coapGetPacketUriAsString message) message.block1.num := by
  obtain ⟨peerP, f, output, -, htyped, hfound, hzero, hnext, hhandler⟩ := h
  exact ⟨htyped.handler (.block1 _) hhandler, hzero,
    stored_of_completed htyped hfound hnext hzero hhandler⟩

/-- **A retransmitted last block.**  After a Block1 request was completed, its last block that
arrives again is answered without the request handler and with the code of the first reply if and only
if the state it arrives in refuses it with that code.  If the block had come in its turn behind
block 0, then before a new block 0 of the URI that is if and only if the first reply was 2.04
(or 0.02, if no reply can carry the Block1 option) and the lookup of its transfer passes no
Block2 transfer. -/
theorem lastBlock_repeated_iff {contextQ : Context} {outcome : Outcome} {reply : Option Packet}
    (h : Completes altPath blockSize contextP fromSessionH message outcome contextQ reply) :
    (∀ later outcome',
      RepeatsAnswer altPath blockSize later fromSessionH message outcome' reply ↔
        ∃ code, Refused blockSize later fromSessionH message code ∧
          reply.map Packet.code = some code) ∧
    ∀ blockData later peerP outcome', StoredLast contextP fromSessionH message blockData →
      BeforeBlockZero blockData later fromSessionH message peerP →
      (RepeatsAnswer altPath blockSize later fromSessionH message outcome' reply ↔
        Unobstructed peerP.blockData (.uri (some (coapGetPacketUriAsString message))) .block1 ∧
          reply.map Packet.code = some (repeatCode blockSize message)) := by
  obtain ⟨hfits, hlast⟩ := h.runsHandler.last h.block1
  have hiff (later : Context) (outcome' : Outcome) :
      RepeatsAnswer altPath blockSize later fromSessionH message outcome' reply ↔
        ∃ code, Refused blockSize later fromSessionH message code ∧
          reply.map Packet.code = some code :=
    repeatsAnswer_iff hfits h.block1 hlast outcome' reply
  refine ⟨hiff, fun blockData later peerP outcome' hstored hlater => ?_⟩
  obtain ⟨htyped, hzero, hkept⟩ := hstored.stored
  obtain ⟨hpeer, events, hspares, hrun⟩ := hlater
  have hrefused {code : Code} : BlockRefused peerP.blockData (coapGetPacketUriAsString message)
      (blockArrival message) code ↔ _ :=
    (hkept.run htyped hspares hrun).refused_iff (htyped.run hrun) hzero
  rw [hiff]
  constructor
  · rintro ⟨code, hcode, hreply⟩
    cases hcode with
    | unknown h =>
      rw [hpeer] at h
      cases h
    | repeated peerQ h hblock =>
      rw [hpeer] at h
      cases h
      exact ⟨(hrefused.mp hblock).1, hreply⟩
    | incomplete peerQ h hblock =>
      rw [hpeer] at h
      cases h
      exact absurd (hrefused.mp hblock).2 (by decide)
  · rintro ⟨hfree, hreply⟩
    exact ⟨_, .repeated peerP hpeer (hrefused.mpr ⟨hfree, rfl⟩), hreply⟩

/-- A registered server that has sent block 0 of a write to `/1/0`. -/
def assemblingClient : Context :=
  { serverList := [⟨0, 0, 1, some 1, .registered, false,
      [⟨.block1, .uri (some [47, 47, 47, 49, 47, 48]), List.replicate 16 0x61, 0⟩]⟩]
    allocated := 1 }

/-- Block 1 of that write, the last one. -/
def closingBlock : Packet :=
  { (coapInitMessage .con 3 7).markOption .block1 with
    uriPath := [[0x31], [0x30]]
    block1 := { num := 1, size := 16 }
    payload := [0x62] }

/-- A write that succeeds: its last block is answered with 2.04 once more. -/
theorem closingBlock_repeated : ∃ contextQ reply,
    Completes none 1024 assemblingClient (some 1) closingBlock { code := coap204Changed } contextQ
      reply ∧
    RepeatsAnswer none 1024 contextQ (some 1) closingBlock {} reply := by
  have h : Completes none 1024 assemblingClient (some 1) closingBlock { code := coap204Changed }
    _ _ := ⟨by decide, ⟨_, _, _, rfl⟩, rfl⟩
  refine ⟨_, _, h, ((lastBlock_repeated_iff h).1 _ _).mpr ⟨coap204Changed, ?_, rfl⟩⟩
  exact .repeated _ rfl (.repeated ⟨[], _, []⟩ (by decide) rfl (by decide))

/-- **An error becomes a success.**  A write that is answered with 4.05 is answered with 2.04
when its last block arrives again. -/
theorem closingBlock_answered_differently : ∃ contextQ reply contextR reply',
    Completes none 1024 assemblingClient (some 1) closingBlock { code := coap405MethodNotAllowed }
      contextQ (some reply) ∧ reply.code = coap405MethodNotAllowed ∧
    lwm2mHandleRequestPacket none 1024 contextQ (some 1) closingBlock
      { code := coap405MethodNotAllowed } = .ok (contextR, some reply') ∧
    reply'.code = coap204Changed ∧
    ¬ RepeatsAnswer none 1024 contextQ (some 1) closingBlock { code := coap405MethodNotAllowed }
      (some reply) := by
  refine ⟨_, _, _, _, ⟨by decide, ⟨_, _, _, rfl⟩, rfl⟩, rfl, rfl, rfl, ?_⟩
  rintro ⟨-, _, _, h, hcode⟩
  cases h
  revert hcode
  decide

end Lwm2m.Core

/-
# Sending a payload block by block

A request whose payload is larger than a block is sent as a transfer: each
acknowledgement of a block makes the next request (`prv_send_next_block1`), and an
acknowledgement 4.13 repeats the block with a smaller size (`prv_retry_block1`).

A transfer is right while every request carries the bytes that its Block1 option
announces (`CarriesBlock`), starts where the bytes accepted so far end, and no request
follows only the one with the last byte (`StepRight`).  The offset of a request is its
block number times its block size, and the next block number is the last one plus one
also when the acknowledgement asks for smaller blocks; so the transfer goes wrong there,
and in three more cases (`Continuable`).  In every run whose acknowledgements are all
`Continuable` it stays right, and the next step is right exactly if its acknowledgement
is (`transfer_stepRight_iff`).
-/

import Lwm2m.Core.NextRequest
import Lwm2m.Library.Run

namespace Lwm2m.Core

open Coap Code Library

/-! ### Blocks -/

/-- The position in the payload of the block of a request. -/
def blockStart (packet : Packet) : ℕ := packet.block1.num.toNat * packet.block1.size.toNat

/-- The block of the request contains the last byte of the payload. -/
def ContainsLast (payload : List Byte) (packet : Packet) : Prop :=
  payload.length ≤ blockStart packet + packet.block1.size.toNat

/-- The request carries the bytes of the payload that its Block1 option announces, and its
more flag is 0 exactly when the last byte is among them. -/
structure CarriesBlock (payload : List Byte) (packet : Packet) : Prop where
  block1 : packet.isOption .block1 = true
  inside : blockStart packet < payload.length
  bytes : packet.payload = (payload.drop (blockStart packet)).take packet.block1.size.toNat
  more : packet.block1.more = 0 ↔ ContainsLast payload packet

variable {packet : Packet} {payload : List Byte} {contextP : TransactionContext} {szx : ℕ}

variable {packet' : Packet} {tvSec : ℤ}

/-- What is read back of a request has the same block. -/
theorem block1_of_sameRequest (h : SameRequest packet packet')
    (hset : packet.isOption .block1 = true) :
    blockStart packet' = blockStart packet ∧
      packet'.block1.size = packet.block1.size ∧ packet'.block1.more = packet.block1.more := by
  obtain ⟨hnum, hmore, hsize⟩ := h.block1 hset
  exact ⟨by rw [blockStart, hnum, hsize, blockStart], hsize, hmore⟩

/-- What is read back of a request carries the same block. -/
theorem carriesBlock_iff_of_sameRequest (h : SameRequest packet packet') :
    CarriesBlock payload packet' ↔ CarriesBlock payload packet := by
  constructor
  · rintro ⟨hset, hinside, hpayload, hmore⟩
    rw [h.isOption] at hset
    obtain ⟨hstart, hsize, hflag⟩ := block1_of_sameRequest h hset
    rw [ContainsLast, hflag, hstart, hsize] at hmore
    rw [h.payload, hstart, hsize] at hpayload
    exact ⟨hset, hstart ▸ hinside, hpayload, hmore⟩
  · rintro ⟨hset, hinside, hpayload, hmore⟩
    obtain ⟨hstart, hsize, hflag⟩ := block1_of_sameRequest h hset
    refine ⟨(h.isOption _).trans hset, hstart ▸ hinside, ?_, ?_⟩
    · rw [h.payload, hstart, hsize]
      exact hpayload
    · rw [ContainsLast, hflag, hstart, hsize]
      exact hmore

/-! ### A block is sent -/

/-- The request that `prv_send_new_block1` makes. -/
def blockRequest (transaction : Transaction) (packet : Packet) (nextMID : UInt16)
    (blockNum : UInt32) (blockSize : UInt16) : Transaction :=
  let start := blockNum.toNat * blockSize.toNat
  let remaining := transaction.payload.length - start
  { nextTransaction transaction packet nextMID with
    message := withBlock (nextMessage (parsedRequest packet) nextMID) blockNum
      (if remaining > blockSize.toNat then 1 else 0) blockSize
      ((transaction.payload.drop start).take (min blockSize.toNat remaining)) }

section blockRequest

variable {transaction : Transaction} {packet : Packet} {nextMID : UInt16} {blockNum : UInt32}
  {szx : ℕ}

theorem continues_blockRequest (h : InFlight transaction packet) (hszx : szx < 8) :
    Continues packet (blockRequest transaction packet nextMID blockNum (blockSize szx)).message := by
  refine (continues_nextMessage h.plain (sameRequest_parsedRequest h.plain)).withBlock hszx ?_
  split_ifs
  · exact .inr rfl
  · exact .inl rfl

theorem blockRequest_payload (hszx : szx < 8) :
    (blockRequest transaction packet nextMID blockNum (blockSize szx)).message.payload =
      (transaction.payload.drop (blockNum.toNat * (blockSize szx).toNat)).take
        (blockSize szx).toNat := by
  obtain ⟨-, -, hsize⟩ := toNat_blockSize szx hszx
  have hlength : ((transaction.payload.drop (blockNum.toNat * (blockSize szx).toNat)).take
      (blockSize szx).toNat).length < 65536 := by
    rw [List.length_take]
    omega
  simp only [blockRequest, withBlock, Packet.coapSetPayload]
  rw [← List.length_drop, ← List.take_eq_take_min, Nat.mod_eq_of_lt hlength, List.take_length]

/-- A block whose number can be announced. -/
theorem carriesBlock_blockRequest (packet : Packet) (nextMID : UInt16) (hszx : szx < 8) (hnum : blockNum ≤ 0x0FFFFF)
    (hinside : blockNum.toNat * (blockSize szx).toNat < transaction.payload.length) :
    let message := (blockRequest transaction packet nextMID blockNum (blockSize szx)).message
    CarriesBlock transaction.payload message ∧
      blockStart message = blockNum.toNat * (blockSize szx).toNat ∧
      message.block1.num = blockNum ∧ message.block1.size = blockSize szx := by
  intro message
  have hpayload : message.payload = _ := blockRequest_payload hszx
  have hset : message = (({ nextMessage (parsedRequest packet) nextMID with
      block1 := { (nextMessage (parsedRequest packet) nextMID).block1 with
        num := blockNum
        more := if transaction.payload.length - blockNum.toNat * (blockSize szx).toNat >
          (blockSize szx).toNat then 1 else 0
        size := blockSize szx } } : Packet).markOption .block1).coapSetPayload
      ((transaction.payload.drop (blockNum.toNat * (blockSize szx).toNat)).take
        (min (blockSize szx).toNat
          (transaction.payload.length - blockNum.toNat * (blockSize szx).toNat))) := by
    show withBlock _ _ _ _ _ = _
    unfold withBlock
    rw [coapSetHeaderBlock1_of_le _ _ hszx hnum]
  have hblock : message.block1.num = blockNum ∧ message.block1.size = blockSize szx ∧
      message.block1.more = if transaction.payload.length - blockNum.toNat *
        (blockSize szx).toNat > (blockSize szx).toNat then 1 else 0 := by
    rw [hset]
    exact ⟨rfl, rfl, rfl⟩
  obtain ⟨hnum', hsize', hmore'⟩ := hblock
  have hstart : blockStart message = blockNum.toNat * (blockSize szx).toNat := by
    rw [blockStart, hnum', hsize']
  refine ⟨⟨?_, hstart ▸ hinside, ?_, ?_⟩, hstart, hnum', hsize'⟩
  · rw [hset]
    refine (Packet.isOption_markOption _ _ _).trans ?_
    rw [decide_eq_true rfl, Bool.or_true]
  · rw [hpayload, hstart, hsize']
  · rw [hmore', ContainsLast, hstart, hsize']
    split_ifs with hlong
    · refine iff_of_false (by decide) ?_
      omega
    · refine iff_of_true rfl ?_
      omega

/-- A block whose number cannot be announced has no Block1 option. -/
theorem not_carriesBlock_blockRequest (h : InFlight transaction packet) (hszx : szx < 8)
    (hnum : blockNum > 0x0FFFFF) (payload : List Byte) :
    ¬ CarriesBlock payload
      (blockRequest transaction packet nextMID blockNum (blockSize szx)).message := by
  intro hcarries
  have hset := hcarries.block1
  have hoff : (nextMessage (parsedRequest packet) nextMID).isOption .block1 = false := by
    rw [isOption_nextMessage h.plain (sameRequest_parsedRequest h.plain)]
    simp
  simp only [blockRequest, withBlock, coapSetHeaderBlock1_of_gt _ _ hszx hnum] at hset
  exact Bool.false_ne_true (hoff.symm.trans hset)

theorem blockRequest_mid (h : InFlight transaction packet) :
    (blockRequest transaction packet nextMID blockNum (blockSize szx)).message.mid = nextMID :=
  (withBlock_mid _ _ _ _ _).trans (nextMessage_mid h.plain (sameRequest_parsedRequest h.plain))

/-- **A block is sent**: the next request, under the next message-id. -/
theorem prvSendNewBlock1_eq (htime : 0 ≤ tvSec) (h : InFlight transaction packet) (hszx : szx < 8)
    (hnum : blockNum.toNat ≤ 2 ^ 20)
    (hinside : blockNum.toNat * (blockSize szx).toNat < transaction.payload.length)
    (contextP : TransactionContext) :
    let next := blockRequest transaction packet contextP.nextMID blockNum (blockSize szx)
    prvSendNewBlock1 tvSec contextP transaction blockNum (blockSize szx) =
      .ok ({ contextP with
          nextMID := contextP.nextMID + 1
          transactionList := listAdd Transaction.mID (firstSent tvSec next)
            contextP.transactionList },
        [.datagram transaction.peerH (coapSerializeMessage next.message)], 0) := by
  intro next
  obtain ⟨-, -, hsize⟩ := toNat_blockSize szx hszx
  have hcontinues : Continues packet next.message := continues_blockRequest h hszx
  have hproduct : (blockNum * (blockSize szx).toUInt32).toNat =
      blockNum.toNat * (blockSize szx).toNat := by
    rw [UInt32.toNat_mul, UInt16.toNat_toUInt32]
    refine Nat.mod_eq_of_lt ?_
    calc blockNum.toNat * (blockSize szx).toNat ≤ 2 ^ 20 * 2048 := Nat.mul_le_mul hnum hsize
      _ < 2 ^ 32 := by decide
  have hpayload : next.message.payload.length ≤ 2048 := by
    rw [blockRequest_payload hszx, List.length_take]
    omega
  have hroom : HasRoom next.message := by
    have hroom := h.room
    unfold HasRoom requestSize at *
    rwa [hcontinues.token, hcontinues.uriPath, hcontinues.uriQuery]
  unfold prvSendNewBlock1
  dsimp only
  rw [if_neg (by omega), prvCreateNextBlockTransaction_eq h, ok_bind, hproduct]
  exact addAndSend_eq htime hcontinues.plain hroom hpayload rfl rfl rfl _

end blockRequest

/-! ### Transfers -/

/-- A transfer: the request that waits for its acknowledgement, and the bytes that the
server accepted so far. -/
structure Transfer where
  contextP : TransactionContext
  request : Transaction
  accepted : List Byte

/-- A received acknowledgement with what it meets. -/
structure Acknowledgement where
  env : PacketEnv
  message : Packet

/-- The acknowledgement answers the request: 2.31 or 4.13 with the block number of the
request and a size that is not greater. -/
structure Acknowledges (e : Acknowledgement) (request : Transaction) : Prop where
  answers : Answers e.message request
  time : 0 ≤ e.env.tvSec
  short : e.message.payload.length ≤ e.env.coapBlockSize.toNat
  block1 : e.message.isOption .block1 = true
  code : e.message.code = coap231Continue ∨ e.message.code = coap413EntityTooLarge
  num : e.message.block1.num = request.message.block1.num
  size : ∃ szx < 8, e.message.block1.size = blockSize szx
  size_le : e.message.block1.size ≤ request.message.block1.size

/-- The bytes accepted once the acknowledgement is received. -/
def acceptedAfter (s : Transfer) (e : Acknowledgement) : List Byte :=
  if e.message.code = coap231Continue then s.accepted ++ s.request.message.payload else s.accepted

/-- The datagrams among the outputs. -/
def datagrams (outputs : List Output) : List (Session × List Byte) :=
  outputs.filterMap fun
    | .datagram sessionH buffer => some (sessionH, buffer)
    | .callback .. => none

/-- The step is right: one request is sent, with the block of the payload that follows
the accepted bytes; or none is, and the request before contained the last byte. -/
def StepRight (payload : List Byte) (s : Transfer) (e : Acknowledgement) : Prop :=
  ∃ contextP outputs,
    handleResponse e.env s.contextP s.request.peerH e.message = .ok (contextP, outputs, noError) ∧
    ((∃ buffer packet, datagrams outputs = [(s.request.peerH, buffer)] ∧
        coapParseMessage buffer = .ok (noError, packet) ∧ CarriesBlock payload packet ∧
        blockStart packet = (acceptedAfter s e).length) ∨
      (datagrams outputs = [] ∧ ContainsLast payload s.request.message))

/-- The acknowledgement is one after which the code continues the transfer as it should:
smaller blocks are asked for after block 0 only, the next block number can be announced,
and a rejected block is block 0 and larger than 16 bytes; the last two do not matter once
the last byte was sent. -/
def Continuable (payload : List Byte) (s : Transfer) (e : Acknowledgement) : Prop :=
  let b := s.request.message.block1
  (e.message.code = coap231Continue →
    (b.num = 0 ∨ e.message.block1.size = b.size) ∧
      (b.num < 0x0FFFFF ∨ ContainsLast payload s.request.message)) ∧
  (e.message.code = coap413EntityTooLarge →
    (b.num = 0 ∧ 16 < b.size) ∨ ContainsLast payload s.request.message)

/-- What holds of a transfer while it is right: the request is in flight and carries the
block that follows the accepted bytes. -/
structure InTransfer (payload : List Byte) (s : Transfer) : Prop where
  inFlight : ∃ packet, InFlight s.request packet
  whole : s.request.payload = payload
  carries : CarriesBlock payload s.request.message
  size : ∃ szx < 8, s.request.message.block1.size = blockSize szx
  start : blockStart s.request.message = s.accepted.length
  accepted : s.accepted = payload.take s.accepted.length
  kept : WellKept s.contextP.transactionList
  mem : s.request ∈ s.contextP.transactionList

variable {s : Transfer}

theorem InTransfer.num_lt (h : InTransfer payload s) :
    s.request.message.block1.num.toNat < 2 ^ 20 := by
  obtain ⟨packet, hflight⟩ := h.inFlight
  have hblock : s.request.message.block1 = packet.block1 := by
    rw [hflight.message]
    rfl
  rw [hblock]
  exact hflight.plain.block1_num

/-! ### What an acknowledgement does -/

section step

variable {payload : List Byte} {s : Transfer} {e : Acknowledgement}

/-- The message-id of the next request is not in use. -/
def Fresh (contextP : TransactionContext) : Prop :=
  ∀ transaction ∈ contextP.transactionList, transaction.mID ≠ contextP.nextMID

variable {request : Transaction} {r : ℤ}

theorem prvGetTransaction_of_mem (hkept : WellKept contextP.transactionList)
    (hmem : request ∈ contextP.transactionList) :
    prvGetTransaction contextP request.peerH request.mID = some request := by
  unfold prvGetTransaction
  cases hfind : contextP.transactionList.find? (fun transaction =>
      lwm2mSessionIsEqual request.peerH transaction.peerH && transaction.mID == request.mID) with
  | none =>
    have hnone := List.find?_eq_none.mp hfind request hmem
    simp [lwm2mSessionIsEqual] at hnone
  | some found =>
    have hfound := List.find?_some hfind
    have hmid : found.mID = request.mID := by
      rw [Bool.and_eq_true, beq_iff_eq] at hfound
      exact hfound.2
    rw [hkept.eq_of_mID (List.mem_of_find?_eq_some hfind) hmem hmid]

/-- The transfer is continued, then the request is finished. -/
theorem handleResponse_of_continueBlock1 (hack : Acknowledges e request)
    (hwaiting : request.ackReceived = false) {contextP₁ : TransactionContext} {sent : List Output}
    (hcontinue : continueBlock1 e.env contextP request.peerH e.message = .ok (contextP₁, sent, r))
    (hkept : WellKept contextP₁.transactionList) (hmem : request ∈ contextP₁.transactionList) :
    ∃ l, handleResponse e.env contextP request.peerH e.message =
        .ok ({ contextP₁ with transactionList := l },
          sent ++ callCallback { request with ackReceived := true } (some e.message), noError) ∧
      l.Sublist contextP₁.transactionList ∧
      ∀ t ∈ contextP₁.transactionList, t ≠ request → t ∈ l := by
  have hcode : e.message.code ≠ coap401Unauthorized := by
    rcases hack.code with h | h <;> rw [h] <;> decide
  obtain ⟨l, hfinish, hsub, hmem'⟩ := transactionHandleResponse_of_answers hkept hmem hwaiting
    hack.answers hcode e.env.tvSec
  refine ⟨l, ?_, hsub, hmem'⟩
  unfold handleResponse handleAck
  rw [hack.answers.type]
  rw [if_neg (not_lt.mpr hack.short), if_pos hack.block1, hcontinue, ok_bind]
  dsimp only
  unfold handleTransaction
  rw [hfinish]
  rfl

/-- A callback is no datagram. -/
theorem datagrams_callCallback (sent : List Output) (transaction : Transaction)
    (message : Option Packet) :
    datagrams (sent ++ callCallback transaction message) = datagrams sent := by
  unfold callCallback datagrams
  cases transaction.callback <;> simp

/-- **When no request is sent** the step is right if the last byte was sent before. -/
theorem stepRight_iff_of_stops (h : InTransfer payload s) (hack : Acknowledges e s.request)
    (hstop : continueBlock1 e.env s.contextP s.request.peerH e.message = .ok (s.contextP, [], r)) :
    StepRight payload s e ↔ ContainsLast payload s.request.message := by
  obtain ⟨packet, hflight⟩ := h.inFlight
  obtain ⟨l, hresponse, -, -⟩ :=
    handleResponse_of_continueBlock1 hack hflight.waiting hstop h.kept h.mem
  have hnone := datagrams_callCallback [] { s.request with ackReceived := true } (some e.message)
  constructor
  · rintro ⟨contextP, outputs, hok, hright⟩
    rw [hresponse] at hok
    cases hok
    rcases hright with ⟨buffer, packet, hsent, -⟩ | ⟨-, hlast⟩
    · rw [hnone] at hsent
      cases hsent
    · exact hlast
  · exact fun hlast => ⟨_, _, hresponse, .inr ⟨hnone, hlast⟩⟩

variable {packet : Packet} {num : UInt32} {szx : ℕ}

/-- The request that is sent takes the place of the one that is acknowledged. -/
theorem handleResponse_of_sends (h : InTransfer payload s) (hack : Acknowledges e s.request)
    (hfresh : Fresh s.contextP) (hflight : InFlight s.request packet) (hszx : szx < 8)
    (hnum : num.toNat ≤ 2 ^ 20) (hinside : num.toNat * (blockSize szx).toNat < payload.length)
    (hsend : continueBlock1 e.env s.contextP s.request.peerH e.message =
      prvSendNewBlock1 e.env.tvSec s.contextP s.request num (blockSize szx)) :
    let next := blockRequest s.request packet s.contextP.nextMID num (blockSize szx)
    ∃ contextP outputs,
      handleResponse e.env s.contextP s.request.peerH e.message =
        .ok (contextP, outputs, noError) ∧
      datagrams outputs = [(s.request.peerH, coapSerializeMessage next.message)] ∧
      firstSent e.env.tvSec next ∈ contextP.transactionList ∧
      WellKept contextP.transactionList := by
  intro next
  have hinside' : num.toNat * (blockSize szx).toNat < s.request.payload.length := by
    rwa [h.whole]
  have hcontinue := hsend.trans (prvSendNewBlock1_eq hack.time hflight hszx hnum hinside' s.contextP)
  have hkept : WellKept (listAdd Transaction.mID (firstSent e.env.tvSec next)
      s.contextP.transactionList) := by
    have hmid : next.message.mid = s.contextP.nextMID := blockRequest_mid hflight
    exact h.kept.listAdd hmid hfresh
  obtain ⟨l, hresponse, hsub, hmem⟩ := handleResponse_of_continueBlock1 hack hflight.waiting
    hcontinue hkept (mem_listAdd.mpr (.inr h.mem))
  refine ⟨_, _, hresponse, datagrams_callCallback _ _ _, ?_, hkept.sublist hsub⟩
  refine hmem _ (mem_listAdd.mpr (.inl rfl)) fun heq => hfresh _ h.mem ?_
  rw [← heq]
  rfl

/-- **When a request is sent** the step is right if its block number can be announced and
its block follows the accepted bytes. -/
theorem stepRight_iff_of_sends (h : InTransfer payload s) (hack : Acknowledges e s.request)
    (hfresh : Fresh s.contextP) (hszx : szx < 8) (hnum : num.toNat ≤ 2 ^ 20)
    (hinside : num.toNat * (blockSize szx).toNat < payload.length)
    (hsend : continueBlock1 e.env s.contextP s.request.peerH e.message =
      prvSendNewBlock1 e.env.tvSec s.contextP s.request num (blockSize szx)) :
    StepRight payload s e ↔ num ≤ 0x0FFFFF ∧
      num.toNat * (blockSize szx).toNat = (acceptedAfter s e).length := by
  obtain ⟨packet, hflight⟩ := h.inFlight
  obtain ⟨contextP, outputs, hresponse, hsent, -⟩ :=
    handleResponse_of_sends h hack hfresh hflight hszx hnum hinside hsend
  set next := blockRequest s.request packet s.contextP.nextMID num (blockSize szx)
  have hplain : PlainRequest next.message := (continues_blockRequest hflight hszx).plain
  have hparse := coapParseMessage_coapSerializeMessage hplain
  have hsame := sameRequest_parsedRequest hplain
  have hinside' : num.toNat * (blockSize szx).toNat < s.request.payload.length := by
    rwa [h.whole]
  have hcarries (hle : num ≤ 0x0FFFFF) : CarriesBlock payload next.message ∧
      blockStart next.message = num.toNat * (blockSize szx).toNat := by
    obtain ⟨hcarries, hstart, -⟩ := carriesBlock_blockRequest packet s.contextP.nextMID hszx hle hinside'
    rw [h.whole] at hcarries
    exact ⟨hcarries, hstart⟩
  constructor
  · rintro ⟨contextP', outputs', hok, hright⟩
    rw [hresponse] at hok
    cases hok
    rcases hright with ⟨buffer, packet', hbuffer, hparse', hcarries', hstart'⟩ | ⟨hnone, -⟩
    · rw [hsent] at hbuffer
      cases hbuffer
      rw [hparse] at hparse'
      cases hparse'
      have hnext := (carriesBlock_iff_of_sameRequest hsame).mp hcarries'
      have hle : num ≤ 0x0FFFFF := by
        by_contra hgt
        exact not_carriesBlock_blockRequest hflight hszx (UInt32.not_le.mp hgt) payload hnext
      refine ⟨hle, ?_⟩
      rw [← hstart', (block1_of_sameRequest hsame hnext.block1).1, (hcarries hle).2]
    · rw [hsent] at hnone
      cases hnone
  · rintro ⟨hle, hstart⟩
    obtain ⟨hnext, hnextStart⟩ := hcarries hle
    refine ⟨contextP, outputs, hresponse, .inl ⟨_, _, hsent, hparse, ?_, ?_⟩⟩
    · exact (carriesBlock_iff_of_sameRequest hsame).mpr hnext
    · rw [(block1_of_sameRequest hsame hnext.block1).1, hnextStart, hstart]

/-! ### The cases of an acknowledgement -/

/-- Block sizes are ordered as their exponents, and a size is a multiple of the smaller
ones. -/
theorem blockSize_le : ∀ k < 8, ∀ j < 8, blockSize j ≤ blockSize k →
    (blockSize k / blockSize j).toUInt32.toNat * (blockSize j).toNat = (blockSize k).toNat ∧
      (blockSize k / blockSize j).toUInt32 ≤ 0x0FFFFF ∧
      (blockSize j ≠ blockSize k → 2 * (blockSize j).toNat ≤ (blockSize k).toNat) := by
  decide

theorem blockSize_ne_zero : ∀ szx < 8, blockSize szx ≠ 0 := by
  decide

/-- The size with which `prv_retry_block1` repeats a block. -/
def retrySize (size requested : UInt16) : UInt16 :=
  if requested = size ∧ requested > 16 then requested / 2 else requested

/-- A block of 16 bytes cannot be repeated, and a larger one is with a smaller size. -/
theorem retrySize_cases : ∀ k < 8, ∀ j < 8, blockSize j ≤ blockSize k →
    (retrySize (blockSize k) (blockSize j) ≥ blockSize k ∧ ¬ 16 < blockSize k) ∨
      ((∃ i ∈ List.range 8, retrySize (blockSize k) (blockSize j) = blockSize i) ∧
        retrySize (blockSize k) (blockSize j) < blockSize k ∧ 16 < blockSize k) := by
  decide

/-- Nothing is sent past the end of the payload. -/
theorem prvSendNewBlock1_done {transaction : Transaction} {blockSize : UInt16}
    (hdone : transaction.payload.length ≤ num.toNat * blockSize.toNat) :
    prvSendNewBlock1 tvSec contextP transaction num blockSize = .ok (contextP, [], 0) := by
  unfold prvSendNewBlock1
  rw [if_pos hdone]
  rfl

/-- After 2.31 the block with the next number is sent. -/
theorem continueBlock1_continue (h : InTransfer payload s) (hack : Acknowledges e s.request)
    (hcode : e.message.code = coap231Continue) :
    continueBlock1 e.env s.contextP s.request.peerH e.message =
      prvSendNewBlock1 e.env.tvSec s.contextP s.request
        (if s.request.message.block1.num = 0 then
          (s.request.message.block1.size / e.message.block1.size).toUInt32
        else s.request.message.block1.num + 1) e.message.block1.size := by
  obtain ⟨j, hj, hsize⟩ := hack.size
  have hfound := prvGetTransaction_of_mem h.kept h.mem
  have hsafe : ¬ (e.message.block1.size > s.request.message.block1.size ∨
      e.message.block1.size = 0) := by
    rintro (hgt | hzero)
    · exact UInt16.not_lt.mpr hack.size_le hgt
    · exact blockSize_ne_zero j hj (hsize ▸ hzero)
  unfold continueBlock1 prvSendNextBlock1
  rw [if_pos (.inr (.inr hcode)), hack.answers.mid, hfound]
  dsimp only
  rw [if_neg hsafe]
  split_ifs with hnum hzero
  · exact absurd hzero (hsize ▸ blockSize_ne_zero j hj)
  · rfl
  · rfl

/-- After 4.13 block 0 is sent again with a smaller size, if there is one. -/
theorem continueBlock1_reject (h : InTransfer payload s) (hack : Acknowledges e s.request)
    (hcode : e.message.code = coap413EntityTooLarge) :
    let b := s.request.message.block1
    let size := retrySize b.size e.message.block1.size
    continueBlock1 e.env s.contextP s.request.peerH e.message =
      if b.num = 0 then
        if size ≥ b.size ∨ size = 0 then .ok (s.contextP, [], coap400BadRequest.toNat)
        else prvSendNewBlock1 e.env.tvSec s.contextP s.request b.num size
      else .ok (s.contextP, [], 0) := by
  intro b size
  have hfound := prvGetTransaction_of_mem h.kept h.mem
  unfold continueBlock1
  rw [if_neg (by rw [hcode]; decide), hack.num]
  by_cases hnum : b.num = 0
  · rw [if_pos ⟨hcode, hnum⟩, if_pos hnum]
    unfold prvRetryBlock1
    rw [hack.answers.mid, hfound]
    dsimp only
    rw [h.carries.block1, if_neg (by simp)]
    rfl
  · rw [if_neg fun hboth => hnum hboth.2, if_neg hnum]

/-- The bytes accepted after 2.31 end behind the block, or with the payload. -/
theorem acceptedAfter_length (h : InTransfer payload s)
    (hcode : e.message.code = coap231Continue) :
    (acceptedAfter s e).length = min payload.length
      (blockStart s.request.message + s.request.message.block1.size.toNat) := by
  have hinside := h.carries.inside
  rw [acceptedAfter, if_pos hcode, List.length_append, h.carries.bytes, List.length_take,
    List.length_drop, ← h.start]
  omega

/-- The step after 2.31. -/
theorem stepRight_iff_continue (h : InTransfer payload s) (hack : Acknowledges e s.request)
    (hfresh : Fresh s.contextP) (hcode : e.message.code = coap231Continue) :
    StepRight payload s e ↔
      (s.request.message.block1.num = 0 ∨
        e.message.block1.size = s.request.message.block1.size) ∧
      (s.request.message.block1.num < 0x0FFFFF ∨ ContainsLast payload s.request.message) := by
  obtain ⟨k, hk, hsizeK⟩ := h.size
  obtain ⟨j, hj, hsizeJ⟩ := hack.size
  have hle : blockSize j ≤ blockSize k := hsizeJ ▸ hsizeK ▸ hack.size_le
  obtain ⟨hproduct, hquotient, hhalf⟩ := blockSize_le k hk j hj hle
  have hinside := h.carries.inside
  have hlength := acceptedAfter_length h hcode
  have hcontinue := continueBlock1_continue h hack hcode
  rw [hsizeJ, hsizeK] at hcontinue
  obtain ⟨hpowJ, hlowJ, hhighJ⟩ := toNat_blockSize j hj
  obtain ⟨hpowK, hlowK, hhighK⟩ := toNat_blockSize k hk
  have hstart : blockStart s.request.message =
      s.request.message.block1.num.toNat * (blockSize k).toNat := by rw [blockStart, hsizeK]
  rw [ContainsLast, hsizeK, hsizeJ]
  rw [hsizeK] at hlength
  have hnumLt := h.num_lt
  by_cases hnum : s.request.message.block1.num = 0
  · rw [if_pos hnum] at hcontinue
    have hzero : blockStart s.request.message = 0 := by
      rw [hstart, hnum]
      exact Nat.zero_mul _
    have hq : (blockSize k / blockSize j).toUInt32.toNat ≤ 2 ^ 20 := by
      have hq : (blockSize k / blockSize j).toUInt32.toNat ≤ 0x0FFFFF := hquotient
      omega
    refine Iff.trans ?_ (iff_of_true trivial ⟨.inl hnum, .inl (by rw [hnum]; decide)⟩)
    by_cases hlast : payload.length ≤ (blockSize k).toNat
    · rw [stepRight_iff_of_stops h hack
        (hcontinue.trans (prvSendNewBlock1_done (by rw [h.whole, hproduct]; exact hlast)))]
      refine iff_of_true ?_ trivial
      rw [ContainsLast, hsizeK]
      omega
    · rw [stepRight_iff_of_sends h hack hfresh hj hq (by omega) hcontinue]
      exact iff_of_true ⟨hquotient, by omega⟩ trivial
  · rw [if_neg hnum] at hcontinue
    have hnumPos : s.request.message.block1.num.toNat ≠ 0 := fun h => hnum (UInt32.toNat_inj.mp h)
    have hsucc : (s.request.message.block1.num + 1).toNat =
        s.request.message.block1.num.toNat + 1 := by
      rw [UInt32.toNat_add]
      exact Nat.mod_eq_of_lt (by simp only [UInt32.toNat_one]; omega)
    have hannounced : s.request.message.block1.num + 1 ≤ 0x0FFFFF ↔
        s.request.message.block1.num < 0x0FFFFF := by
      rw [UInt32.le_iff_toNat_le, UInt32.lt_iff_toNat_lt, hsucc]
      exact Nat.succ_le_iff
    simp only [hnum, false_or]
    by_cases hsame : blockSize j = blockSize k
    · have hnext : (s.request.message.block1.num + 1).toNat * (blockSize j).toNat =
          blockStart s.request.message + (blockSize k).toNat := by
        rw [hsucc, hsame, hstart, Nat.succ_mul]
      by_cases hlast : payload.length ≤ blockStart s.request.message + (blockSize k).toNat
      · rw [stepRight_iff_of_stops h hack
          (hcontinue.trans (prvSendNewBlock1_done (by rw [h.whole, hnext]; exact hlast)))]
        rw [ContainsLast, hsizeK]
        exact iff_of_true hlast ⟨hsame, .inr hlast⟩
      · rw [stepRight_iff_of_sends h hack hfresh hj (by omega) (by omega) hcontinue, hannounced]
        refine ⟨fun hright => ⟨hsame, .inl hright.1⟩, fun hgood => ?_⟩
        exact ⟨hgood.2.resolve_right hlast, by omega⟩
    · -- the next number is the last one plus one, in units of the smaller size
      have hbehind : (s.request.message.block1.num + 1).toNat * (blockSize j).toNat ≤
          blockStart s.request.message := by
        have htwice := hhalf hsame
        rw [hsucc, hstart]
        calc (s.request.message.block1.num.toNat + 1) * (blockSize j).toNat
            ≤ (2 * s.request.message.block1.num.toNat) * (blockSize j).toNat :=
              Nat.mul_le_mul_right _ (by omega)
          _ = s.request.message.block1.num.toNat * (2 * (blockSize j).toNat) := by
              rw [Nat.mul_comm 2, Nat.mul_assoc]
          _ ≤ s.request.message.block1.num.toNat * (blockSize k).toNat :=
              Nat.mul_le_mul_left _ htwice
      rw [stepRight_iff_of_sends h hack hfresh hj (by omega) (by omega) hcontinue]
      refine iff_of_false ?_ fun hright => hsame hright.1
      rintro ⟨-, heq⟩
      omega

/-- The step after 4.13. -/
theorem stepRight_iff_reject (h : InTransfer payload s) (hack : Acknowledges e s.request)
    (hfresh : Fresh s.contextP) (hcode : e.message.code = coap413EntityTooLarge) :
    StepRight payload s e ↔
      (s.request.message.block1.num = 0 ∧ 16 < s.request.message.block1.size) ∨
        ContainsLast payload s.request.message := by
  obtain ⟨k, hk, hsizeK⟩ := h.size
  obtain ⟨j, hj, hsizeJ⟩ := hack.size
  have hle : blockSize j ≤ blockSize k := hsizeJ ▸ hsizeK ▸ hack.size_le
  have hinside := h.carries.inside
  have hreject := continueBlock1_reject h hack hcode
  dsimp only at hreject
  rw [hsizeJ, hsizeK] at hreject
  rw [hsizeK]
  have hkept : acceptedAfter s e = s.accepted := by
    rw [acceptedAfter, if_neg (by rw [hcode]; decide)]
  by_cases hnum : s.request.message.block1.num = 0
  · rw [if_pos hnum] at hreject
    have hzero : blockStart s.request.message = 0 := by
      rw [blockStart, hnum]
      exact Nat.zero_mul _
    have haccepted := h.start
    rcases retrySize_cases k hk j hj hle with ⟨hge, hsmall⟩ | ⟨⟨i, hi, hretry⟩, hlt, hlarge⟩
    · rw [if_pos (.inl hge)] at hreject
      rw [stepRight_iff_of_stops h hack hreject]
      simp only [hnum, hsmall, and_false, false_or]
    · have hi : i < 8 := List.mem_range.mp hi
      rw [if_neg (by
        rintro (hge | hzero)
        · exact UInt16.not_le.mpr hlt hge
        · exact blockSize_ne_zero i hi (hretry ▸ hzero)), hretry] at hreject
      have hnone : s.request.message.block1.num.toNat * (blockSize i).toNat = 0 := by
        rw [hnum]
        exact Nat.zero_mul _
      rw [stepRight_iff_of_sends h hack hfresh hi (by rw [hnum]; decide) (by omega) hreject]
      refine iff_of_true ⟨by rw [hnum]; decide, ?_⟩ (.inl ⟨hnum, hlarge⟩)
      rw [hkept, hnone]
      omega
  · rw [if_neg hnum] at hreject
    rw [stepRight_iff_of_stops h hack hreject]
    simp only [hnum, false_and, false_or]

/-- **One acknowledgement.**  The step is right exactly if the acknowledgement is
continuable. -/
theorem stepRight_iff (h : InTransfer payload s) (hack : Acknowledges e s.request)
    (hfresh : Fresh s.contextP) : StepRight payload s e ↔ Continuable payload s e := by
  have hdistinct : coap231Continue ≠ coap413EntityTooLarge := by decide
  unfold Continuable
  rcases hack.code with hcode | hcode
  · rw [stepRight_iff_continue h hack hfresh hcode]
    simp only [hcode, hdistinct, forall_const, false_imp_iff, and_true]
  · rw [stepRight_iff_reject h hack hfresh hcode]
    simp only [hcode, hdistinct.symm, forall_const, false_imp_iff, true_and]

/-- After an acknowledgement either nothing is sent or a block is, in the size of a 2.31. -/
theorem continueBlock1_cases (h : InTransfer payload s) (hack : Acknowledges e s.request) :
    (∃ r, continueBlock1 e.env s.contextP s.request.peerH e.message = .ok (s.contextP, [], r)) ∨
    ∃ num szx, szx < 8 ∧ num.toNat ≤ 2 ^ 20 ∧
      num.toNat * (blockSize szx).toNat < payload.length ∧
      (e.message.code = coap231Continue → blockSize szx = e.message.block1.size) ∧
      continueBlock1 e.env s.contextP s.request.peerH e.message =
        prvSendNewBlock1 e.env.tvSec s.contextP s.request num (blockSize szx) := by
  obtain ⟨k, hk, hsizeK⟩ := h.size
  obtain ⟨j, hj, hsizeJ⟩ := hack.size
  have hle : blockSize j ≤ blockSize k := hsizeJ ▸ hsizeK ▸ hack.size_le
  obtain ⟨-, hquotient, -⟩ := blockSize_le k hk j hj hle
  have hnumLt := h.num_lt
  have hcontinue {num : UInt32} {szx : ℕ} (hszx : szx < 8) (hnum : num.toNat ≤ 2 ^ 20)
      (hsame : e.message.code = coap231Continue → blockSize szx = e.message.block1.size)
      (heq : continueBlock1 e.env s.contextP s.request.peerH e.message =
        prvSendNewBlock1 e.env.tvSec s.contextP s.request num (blockSize szx)) :
      (∃ r, continueBlock1 e.env s.contextP s.request.peerH e.message =
        .ok (s.contextP, [], r)) ∨
      ∃ num szx, szx < 8 ∧ num.toNat ≤ 2 ^ 20 ∧
        num.toNat * (blockSize szx).toNat < payload.length ∧
        (e.message.code = coap231Continue → blockSize szx = e.message.block1.size) ∧
        continueBlock1 e.env s.contextP s.request.peerH e.message =
          prvSendNewBlock1 e.env.tvSec s.contextP s.request num (blockSize szx) := by
    by_cases hdone : payload.length ≤ num.toNat * (blockSize szx).toNat
    · exact .inl ⟨0, heq.trans (prvSendNewBlock1_done (h.whole ▸ hdone))⟩
    · exact .inr ⟨num, szx, hszx, hnum, by omega, hsame, heq⟩
  rcases hack.code with hcode | hcode
  · have heq := continueBlock1_continue h hack hcode
    rw [hsizeJ] at heq
    refine hcontinue hj ?_ (fun _ => hsizeJ.symm) heq
    split_ifs
    · have hq : (blockSize k / blockSize j).toUInt32.toNat ≤ 0x0FFFFF := hquotient
      rw [hsizeK]
      omega
    · rw [UInt32.toNat_add, UInt32.toNat_one, Nat.mod_eq_of_lt (by omega)]
      omega
  · have heq := continueBlock1_reject h hack hcode
    dsimp only at heq
    rw [hsizeJ, hsizeK] at heq
    by_cases hnum : s.request.message.block1.num = 0
    · rw [if_pos hnum] at heq
      rcases retrySize_cases k hk j hj hle with ⟨hge, -⟩ | ⟨⟨i, hi, hretry⟩, hlt, -⟩
      · rw [if_pos (.inl hge)] at heq
        exact .inl ⟨_, heq⟩
      · have hi : i < 8 := List.mem_range.mp hi
        rw [if_neg (by
          rintro (hge | hzero)
          · exact UInt16.not_le.mpr hlt hge
          · exact blockSize_ne_zero i hi (hretry ▸ hzero)), hretry] at heq
        exact hcontinue hi (by rw [hnum]; decide)
          (fun hsent => absurd (hcode.symm.trans hsent) (by decide)) heq
    · rw [if_neg hnum] at heq
      exact .inl ⟨_, heq⟩

end step

/-! ### Runs -/

/-- One step of a transfer: a continuable acknowledgement is handled, a request is sent, and
this is the one that waits next.  Everything else of the context may have changed when
the next acknowledgement comes. -/
structure TransferStep (payload : List Byte) (s : Transfer) (e : Acknowledgement)
    (s' : Transfer) : Prop where
  acknowledges : Acknowledges e s.request
  fresh : Fresh s.contextP
  continuable : Continuable payload s e
  handled : ∃ contextP outputs buffer,
    handleResponse e.env s.contextP s.request.peerH e.message = .ok (contextP, outputs, noError) ∧
    datagrams outputs = [(s.request.peerH, buffer)] ∧
    s'.request ∈ contextP.transactionList ∧ s'.request.mID = s.contextP.nextMID
  accepted : s'.accepted = acceptedAfter s e
  kept : WellKept s'.contextP.transactionList
  mem : s'.request ∈ s'.contextP.transactionList

/-- The block of a message is not changed by its serialization. -/
theorem carriesBlock_serialized (h : CarriesBlock payload packet) :
    CarriesBlock payload packet.serialized :=
  ⟨h.block1, h.inside, h.bytes, h.more⟩

/-- Bytes that are the first ones of a payload are as many of its first ones. -/
theorem eq_take_length {l : List Byte} {n : ℕ} (h : l = payload.take n) :
    l = payload.take l.length := by
  rw [h, List.length_take, ← List.take_eq_take_min]

/-- The accepted bytes stay the first bytes of the payload. -/
theorem acceptedAfter_eq_take (h : InTransfer payload s) (e : Acknowledgement) :
    acceptedAfter s e = payload.take (acceptedAfter s e).length := by
  by_cases hcode : e.message.code = coap231Continue
  · have htake : acceptedAfter s e = payload.take
        (s.accepted.length + s.request.message.block1.size.toNat) := by
      rw [acceptedAfter, if_pos hcode, h.carries.bytes, h.start, List.take_add, ← h.accepted]
    exact eq_take_length htake
  · rw [acceptedAfter, if_neg hcode]
    exact h.accepted

variable {s' : Transfer} {e : Acknowledgement}

/-- **The request that a step makes** carries the block behind the accepted bytes. -/
theorem TransferStep.sends (hstep : TransferStep payload s e s') (h : InTransfer payload s) :
    ∃ packet num szx, InFlight s.request packet ∧ szx < 8 ∧ num ≤ 0x0FFFFF ∧
      num.toNat * (blockSize szx).toNat < payload.length ∧
      num.toNat * (blockSize szx).toNat = (acceptedAfter s e).length ∧
      (e.message.code = coap231Continue → blockSize szx = e.message.block1.size) ∧
      s'.request = firstSent e.env.tvSec
        (blockRequest s.request packet s.contextP.nextMID num (blockSize szx)) := by
  have hack := hstep.acknowledges
  obtain ⟨contextP, outputs, buffer, hresponse, hsent, hmem, hmid⟩ := hstep.handled
  obtain ⟨packet, hflight⟩ := h.inFlight
  rcases continueBlock1_cases h hack with ⟨r, hstop⟩ | ⟨num, szx, hszx, hnum, hinside, hsame, hsend⟩
  · obtain ⟨l, hstopped, -, -⟩ :=
      handleResponse_of_continueBlock1 hack hflight.waiting hstop h.kept h.mem
    rw [hresponse] at hstopped
    cases hstopped
    have hnone := datagrams_callCallback [] { s.request with ackReceived := true } (some e.message)
    rw [hnone] at hsent
    cases hsent
  · obtain ⟨hle, hstart⟩ := (stepRight_iff_of_sends h hack hstep.fresh hszx hnum hinside hsend).mp
      ((stepRight_iff h hack hstep.fresh).mpr hstep.continuable)
    obtain ⟨contextP', outputs', hresponse', -, hnext, hkept⟩ :=
      handleResponse_of_sends h hack hstep.fresh hflight hszx hnum hinside hsend
    rw [hresponse] at hresponse'
    cases hresponse'
    exact ⟨packet, num, szx, hflight, hszx, hle, hinside, hstart, hsame,
      hkept.eq_of_mID hmem hnext hmid⟩

/-- **A step keeps the transfer right.** -/
theorem TransferStep.inTransfer (hstep : TransferStep payload s e s') (h : InTransfer payload s) :
    InTransfer payload s' := by
  obtain ⟨packet, num, szx, hflight, hszx, hle, hinside, hstart, -, hrequest⟩ := hstep.sends h
  set next := blockRequest s.request packet s.contextP.nextMID num (blockSize szx)
  have hinside' : num.toNat * (blockSize szx).toNat < s.request.payload.length := by
    rwa [h.whole]
  obtain ⟨hcarries, hstartNext, -, hsizeNext⟩ :=
    carriesBlock_blockRequest packet s.contextP.nextMID hszx hle hinside'
  rw [h.whole] at hcarries
  refine ⟨?_, ?_, ?_, ?_, ?_, ?_, hstep.kept, hstep.mem⟩
  · refine ⟨next.message, hrequest ▸ inFlight_firstSent (continues_blockRequest hflight hszx)
      hflight.room (blockRequest_mid hflight) hflight.peer rfl⟩
  · rw [hrequest]
    exact h.whole
  · rw [hrequest]
    exact carriesBlock_serialized hcarries
  · rw [hrequest]
    exact ⟨szx, hszx, hsizeNext⟩
  · rw [hrequest, hstep.accepted, ← hstart]
    exact hstartNext
  · rw [hstep.accepted]
    exact acceptedAfter_eq_take h e

/-- A continuable acknowledgement after which a request is sent is a step; the context may be
any that keeps the request. -/
theorem TransferStep.of_sends {num : UInt32} (h : InTransfer payload s)
    (hack : Acknowledges e s.request) (hfresh : Fresh s.contextP)
    (hcontinuable : Continuable payload s e) (hflight : InFlight s.request packet) (hszx : szx < 8)
    (hnum : num.toNat ≤ 2 ^ 20) (hinside : num.toNat * (blockSize szx).toNat < payload.length)
    (hsend : continueBlock1 e.env s.contextP s.request.peerH e.message =
      prvSendNewBlock1 e.env.tvSec s.contextP s.request num (blockSize szx))
    (hkept : WellKept contextP.transactionList)
    (hmem : firstSent e.env.tvSec (blockRequest s.request packet s.contextP.nextMID num
      (blockSize szx)) ∈ contextP.transactionList) :
    TransferStep payload s e ⟨contextP, firstSent e.env.tvSec (blockRequest s.request packet
      s.contextP.nextMID num (blockSize szx)), acceptedAfter s e⟩ := by
  obtain ⟨contextP', outputs, hresponse, hsent, hmem', -⟩ :=
    handleResponse_of_sends h hack hfresh hflight hszx hnum hinside hsend
  exact ⟨hack, hfresh, hcontinuable, ⟨contextP', outputs, _, hresponse, hsent, hmem', rfl⟩, rfl,
    hkept, hmem⟩

/-- The first request of a transfer: a new one whose payload is set and larger than a block,
or one that was sent whole and is repeated in blocks by `prv_change_to_block1` or
`prv_retry_block1`. -/
inductive Started (payload : List Byte) : Transfer → Prop
  | set {tvSec : ℤ} {szx : ℕ} {contextP contextP' : TransactionContext}
      {transaction request : Transaction} {sent : List Output} (hszx : szx < 8)
      (larger : (blockSize szx).toNat < payload.length) (time : 0 ≤ tvSec)
      (plain : PlainRequest transaction.message) (room : HasRoom transaction.message)
      (mid : transaction.message.mid = transaction.mID) (peer : transaction.peerH ≠ none)
      (buffer : transaction.buffer = none) (waiting : transaction.ackReceived = false)
      (counter : transaction.retransCounter = 0) (kept : WellKept contextP.transactionList)
      (new : ∀ t ∈ contextP.transactionList, t.mID ≠ transaction.mID)
      (sends : addAndSend tvSec contextP
        (transactionSetPayload (blockSize szx) transaction payload) = .ok (contextP', sent, 0))
      (mem : request ∈ contextP'.transactionList) (same : request.mID = transaction.mID) :
      Started payload ⟨contextP', request, []⟩
  | change {tvSec : ℤ} {szx : ℕ} {contextP contextP' : TransactionContext}
      {transaction request : Transaction} {packet : Packet} {sent : List Output} (hszx : szx < 8)
      (nonempty : payload ≠ []) (time : 0 ≤ tvSec) (flight : InFlight transaction packet)
      (whole : transaction.payload = payload) (kept : WellKept contextP.transactionList)
      (fresh : Fresh contextP)
      (sends : prvSendNewBlock1 tvSec contextP transaction 0 (blockSize szx) =
        .ok (contextP', sent, 0))
      (mem : request ∈ contextP'.transactionList) (same : request.mID = contextP.nextMID) :
      Started payload ⟨contextP', request, []⟩

/-- `transaction_set_payload` sets the first block. -/
theorem transactionSetPayload_message (hlarger : (blockSize szx).toNat < payload.length)
    (transaction : Transaction) :
    (transactionSetPayload (blockSize szx) transaction payload).message =
      withBlock transaction.message 0 1 (blockSize szx) (payload.take (blockSize szx).toNat) := by
  unfold transactionSetPayload withBlock
  rw [if_pos hlarger, Nat.min_eq_right hlarger.le]

/-- The first block of a payload. -/
theorem carriesBlock_first (hszx : szx < 8) (hlarger : (blockSize szx).toNat < payload.length)
    (message : Packet) :
    let first := withBlock message 0 1 (blockSize szx) (payload.take (blockSize szx).toNat)
    CarriesBlock payload first ∧ first.block1.size = blockSize szx ∧ blockStart first = 0 := by
  intro first
  obtain ⟨-, -, hsize⟩ := toNat_blockSize szx hszx
  have hfirst : first = ({ message with
      block1 := { message.block1 with num := 0, more := 1, size := blockSize szx } }.markOption
        .block1).coapSetPayload (payload.take (blockSize szx).toNat) := by
    show withBlock _ _ _ _ _ = _
    unfold withBlock
    rw [coapSetHeaderBlock1_of_le _ _ hszx (by decide)]
  have hblock : first.block1.num = 0 ∧ first.block1.size = blockSize szx ∧
      first.block1.more = 1 := by
    rw [hfirst]
    exact ⟨rfl, rfl, rfl⟩
  obtain ⟨hnum, hsizeFirst, hmore⟩ := hblock
  have hstart : blockStart first = 0 := by
    rw [blockStart, hnum]
    exact Nat.zero_mul _
  have hlength : (payload.take (blockSize szx).toNat).length < 65536 := by
    rw [List.length_take]
    omega
  refine ⟨⟨?_, by omega, ?_, ?_⟩, hsizeFirst, hstart⟩
  · rw [hfirst]
    refine (Packet.isOption_markOption _ _ _).trans ?_
    rw [decide_eq_true rfl, Bool.or_true]
  · rw [hstart, hsizeFirst, List.drop_zero, hfirst]
    simp only [Packet.coapSetPayload]
    rw [Nat.mod_eq_of_lt hlength, List.take_length]
  · rw [hmore, ContainsLast, hstart, hsizeFirst]
    refine iff_of_false (by decide) ?_
    omega

/-- **A transfer starts right.** -/
theorem Started.inTransfer (h : Started payload s) :
    InTransfer payload s := by
  cases h with
  | @set tvSec szx contextP contextP' transaction request sent hszx larger time plain room mid peer
      buffer waiting counter kept new sends mem same =>
    set first := transactionSetPayload (blockSize szx) transaction payload with hfirst
    have hmessage : first.message = _ := transactionSetPayload_message larger transaction
    obtain ⟨hcarries, hsize, hstart⟩ := carriesBlock_first hszx larger transaction.message
    rw [← hmessage] at hcarries hsize hstart
    have hself : Continues transaction.message transaction.message := ⟨plain, rfl, rfl, rfl, rfl⟩
    have hcontinues : Continues transaction.message first.message := by
      rw [hmessage]
      exact hself.withBlock hszx (.inr rfl)
    have hmid : first.message.mid = first.mID := by
      rw [hmessage, withBlock_mid]
      exact mid
    have hflight (tvSec : ℤ) : InFlight (firstSent tvSec first) first.message :=
      inFlight_firstSent hcontinues room hmid peer waiting
    have hpayload : first.message.payload.length ≤ 2048 := by
      obtain ⟨-, -, hle⟩ := toNat_blockSize szx hszx
      rw [hcarries.bytes, List.length_take, hsize]
      omega
    have hsends := addAndSend_eq time (hflight tvSec).plain (hflight tvSec).room hpayload buffer
      waiting counter contextP
    rw [sends] at hsends
    cases hsends
    have hkept : WellKept (listAdd Transaction.mID (firstSent tvSec first)
        contextP.transactionList) := kept.listAdd hmid new
    have hrequest : request = firstSent tvSec first :=
      hkept.eq_of_mID mem (mem_listAdd.mpr (.inl rfl)) same
    subst hrequest
    exact ⟨⟨_, hflight tvSec⟩, rfl, carriesBlock_serialized hcarries, ⟨szx, hszx, hsize⟩, hstart,
      rfl, hkept, mem⟩
  | @change tvSec szx contextP contextP' transaction request packet sent hszx nonempty time flight
      whole kept fresh sends mem same =>
    have hpos : 0 < transaction.payload.length := by
      rw [whole]
      exact List.length_pos_iff.mpr nonempty
    have hinside : (0 : UInt32).toNat * (blockSize szx).toNat < transaction.payload.length := by
      simpa using hpos
    have hsends := prvSendNewBlock1_eq time flight hszx (by decide) hinside contextP
    rw [sends] at hsends
    cases hsends
    set next := blockRequest transaction packet contextP.nextMID 0 (blockSize szx)
    have hmid : next.message.mid = next.mID := blockRequest_mid flight
    have hkept : WellKept (listAdd Transaction.mID (firstSent tvSec next)
        contextP.transactionList) := kept.listAdd hmid fresh
    have hrequest : request = firstSent tvSec next :=
      hkept.eq_of_mID mem (mem_listAdd.mpr (.inl rfl)) same
    subst hrequest
    obtain ⟨hcarries, hstart, -, hsize⟩ :=
      carriesBlock_blockRequest packet contextP.nextMID hszx (by decide) hinside
    rw [whole] at hcarries
    refine ⟨⟨_, inFlight_firstSent (continues_blockRequest flight hszx) flight.room hmid flight.peer
      rfl⟩, whole, carriesBlock_serialized hcarries, ⟨szx, hszx, hsize⟩, ?_, rfl, hkept, mem⟩
    exact hstart.trans (by simp)

/-- **The payload is tiled.**  Wherever continuable acknowledgements have taken a transfer,
the step after the next acknowledgement is right exactly if this one is continuable. -/
theorem transfer_stepRight_iff {payload : List Byte} {s₀ s : Transfer}
    {events : List Acknowledgement} (hstart : Started payload s₀)
    (hrun : Run (TransferStep payload) s₀ events s) {e : Acknowledgement}
    (hack : Acknowledges e s.request) (hfresh : Fresh s.contextP) :
    StepRight payload s e ↔ Continuable payload s e := by
  have hinv : InTransfer payload s := hrun.invariant
    (fun _ _ _ h hstep => hstep.inTransfer h) hstart.inTransfer
  exact stepRight_iff hinv hack hfresh

/-! ### A transfer whose blocks become smaller after block 1 -/

/-- A request `POST` without options but its token. -/
def upload : Transaction where
  mID := 7
  peerH := some 1
  message := (coapInitMessage .con 2 7).coapSetHeaderToken [1]

theorem plainRequest_upload : PlainRequest upload.message := by
  constructor
  case others =>
    intro o ho
    revert ho
    cases o <;> decide
  all_goals decide

/-- The context and the request once the first block of a payload is sent. -/
def uploadSent (payload : List Byte) (szx : ℕ) : Transfer :=
  let request := firstSent 0 (transactionSetPayload (blockSize szx) upload payload)
  ⟨{ nextMID := 8, transactionList := [request] }, request, []⟩

theorem started_uploadSent (hszx : szx < 8) (hlarger : (blockSize szx).toNat < payload.length) :
    Started payload (uploadSent payload szx) := by
  have hmessage := transactionSetPayload_message hlarger upload
  have hplain := plainRequest_upload
  have hself : Continues upload.message upload.message := ⟨hplain, rfl, rfl, rfl, rfl⟩
  have hnext : Continues upload.message (withBlock upload.message 0 1 (blockSize szx)
      (payload.take (blockSize szx).toNat)) := hself.withBlock hszx (.inr rfl)
  rw [← hmessage] at hnext
  have hroomUpload : HasRoom upload.message := by
    unfold HasRoom
    decide
  have hroom : HasRoom (transactionSetPayload (blockSize szx) upload payload).message := by
    unfold HasRoom requestSize at *
    rwa [hnext.token, hnext.uriPath, hnext.uriQuery]
  have hbytes :
      (transactionSetPayload (blockSize szx) upload payload).message.payload.length ≤ 2048 := by
    obtain ⟨-, -, hle⟩ := toNat_blockSize szx hszx
    rw [hmessage]
    simp only [withBlock, Packet.coapSetPayload, List.length_take]
    omega
  have hsend : addAndSend 0 { nextMID := 8 }
      (transactionSetPayload (blockSize szx) upload payload) =
      .ok ((uploadSent payload szx).contextP, _, 0) :=
    addAndSend_eq le_rfl hnext.plain hroom hbytes rfl rfl rfl _
  exact .set hszx hlarger le_rfl hplain hroomUpload rfl (by decide) rfl rfl rfl
    ⟨.nil, fun t ht => by cases ht⟩ (fun t ht => by cases ht) hsend (List.mem_singleton.mpr rfl) rfl

/-- The acknowledgement 2.31 of a block. -/
def acknowledgeBlock (mid : UInt16) (num : UInt32) (szx : ℕ) : Acknowledgement where
  env := { coapBlockSize := 1024, tvSec := 0 }
  message := ((coapInitMessage .ack coap231Continue mid).coapSetHeaderToken [1]).coapSetHeaderBlock1
    num 1 (blockSize szx)

/-- **The payload is not tiled.**  100 bytes are sent in blocks of 32; when block 1 is
acknowledged with a block size of 16, the next request is block 2 of 16 bytes, which starts at
byte 32 although 64 bytes were accepted. -/
theorem transfer_overlaps : ∃ s₀ s events e,
    Started (List.replicate 100 97) s₀ ∧ Run (TransferStep (List.replicate 100 97)) s₀ events s ∧
      Acknowledges e s.request ∧ Fresh s.contextP ∧ ¬ StepRight (List.replicate 100 97) s e := by
  set payload : List Byte := List.replicate 100 97
  have hstart : Started payload (uploadSent payload 1) := started_uploadSent (by decide) (by decide)
  obtain ⟨packet, hflight⟩ := hstart.inTransfer.inFlight
  set next := blockRequest (uploadSent payload 1).request packet 8 1 (blockSize 1) with hnext
  have hack₀ : Acknowledges (acknowledgeBlock 7 0 1) (uploadSent payload 1).request :=
    ⟨⟨rfl, rfl, rfl⟩, by decide, by decide, by decide, .inl rfl, rfl, ⟨1, by decide, rfl⟩, by decide⟩
  have hstep : TransferStep payload (uploadSent payload 1) (acknowledgeBlock 7 0 1)
      ⟨{ nextMID := 9, transactionList := [firstSent 0 next] }, firstSent 0 next,
        acceptedAfter (uploadSent payload 1) (acknowledgeBlock 7 0 1)⟩ := by
    refine .of_sends hstart.inTransfer hack₀ ?_ ?_ hflight (by decide) (by decide) (by decide)
      ?_ ?_ (List.mem_singleton.mpr rfl)
    · intro t ht
      rw [List.mem_singleton.mp ht]
      decide
    · exact ⟨fun _ => ⟨.inl rfl, .inl (by decide)⟩, fun hcode => absurd hcode (by decide)⟩
    · refine (continueBlock1_continue hstart.inTransfer hack₀ rfl).trans ?_
      congr 1
      decide
    · refine ⟨List.pairwise_singleton _ _, fun t ht => ?_⟩
      rw [List.mem_singleton.mp ht]
      exact blockRequest_mid hflight
  have hinside : (1 : UInt32).toNat * (blockSize 1).toNat <
      (uploadSent payload 1).request.payload.length := by decide
  obtain ⟨-, -, hnum, hsize⟩ :=
    carriesBlock_blockRequest packet 8 (by decide) (by decide) hinside
  have hcontinues : Continues packet next.message := continues_blockRequest hflight (by decide)
  have hack : Acknowledges (acknowledgeBlock 8 1 0) (firstSent 0 next) := by
    have htoken : next.message.token = [1] :=
      hcontinues.token.trans (congrArg Packet.token hflight.message).symm
    refine ⟨⟨rfl, rfl, htoken.symm⟩, by decide, by decide, by decide, .inl rfl, hnum.symm,
      ⟨0, by decide, rfl⟩, ?_⟩
    show blockSize 0 ≤ next.message.block1.size
    rw [hsize]
    decide
  have hfresh : Fresh { nextMID := 9, transactionList := [firstSent 0 next] } := by
    intro t ht
    rw [List.mem_singleton.mp ht]
    exact show (8 : UInt16) ≠ 9 by decide
  refine ⟨_, _, _, _, hstart, .cons hstep (.nil _), hack, hfresh, ?_⟩
  rw [stepRight_iff (hstep.inTransfer hstart.inTransfer) hack hfresh]
  intro hcontinuable
  obtain ⟨hsame, -⟩ := hcontinuable.1 rfl
  have hnum : next.message.block1.num = 1 := hnum
  have hsize : next.message.block1.size = blockSize 1 := hsize
  rcases hsame with hzero | hsame
  · exact absurd (hnum.symm.trans hzero) (by decide)
  · exact absurd (hsame.trans hsize) (by decide)

/-- A transfer whose acknowledgement is continuable. -/
theorem uploadSent_stepRight :
    let payload : List Byte := List.replicate 40 97
    StepRight payload (uploadSent payload 0) (acknowledgeBlock 7 0 0) := by
  intro payload
  have hack : Acknowledges (acknowledgeBlock 7 0 0) (uploadSent payload 0).request :=
    ⟨⟨rfl, rfl, rfl⟩, by decide, by decide, by decide, .inl rfl, rfl, ⟨0, by decide, rfl⟩, by decide⟩
  have hfresh : Fresh (uploadSent payload 0).contextP := by
    intro t ht
    rw [List.mem_singleton.mp ht]
    decide
  refine (transfer_stepRight_iff (started_uploadSent (by decide) (by decide)) (.nil _) hack
    hfresh).mpr ?_
  exact ⟨fun _ => ⟨.inl rfl, .inl (by decide)⟩, fun hcode => absurd hcode (by decide)⟩

end Lwm2m.Core

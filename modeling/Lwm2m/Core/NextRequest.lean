/-
# The next request of a transfer

`prv_create_next_block_transaction` parses the bytes of the request before and copies its
options.  For a request of the client (`PlainRequest`) the parse succeeds, and the next
request is the same one under a new message-id (`prvCreateNextBlockTransaction_eq`); with
its block it is sent, and what is sent is read back as that block
(`addAndSend_next`).
-/

import Lwm2m.Coap.RoundTrip
import Lwm2m.Core.Response

namespace Lwm2m.Core

open Coap Code Library

/-- The request `next` is the request `packet` again. -/
structure Continues (packet next : Packet) : Prop where
  plain : PlainRequest next
  code : next.code = packet.code
  token : next.token = packet.token
  uriPath : next.uriPath = packet.uriPath
  uriQuery : next.uriQuery = packet.uriQuery

/-- The message of the clone before the options are copied. -/
def cloneMessage (message : Packet) (nextMID : UInt16) : Packet :=
  let clone := coapInitMessage .con message.code nextMID
  if 0 < message.token.length then clone.coapSetHeaderToken message.token else clone

theorem transactionNew_eq {sessionH : Session} (hpeer : sessionH ≠ none) (message : Packet)
    (nextMID : UInt16) :
    transactionNew sessionH message.code none none nextMID message.token =
      some { mID := nextMID, peerH := sessionH, message := cloneMessage message nextMID } := by
  unfold transactionNew
  rw [if_neg hpeer]
  rfl

/-! ### The copied options -/

/-- The message of the next request, before its block is set. -/
def nextMessage (message : Packet) (nextMID : UInt16) : Packet :=
  copyOptions message (cloneMessage message nextMID)

section nextMessage

variable {packet message : Packet} {nextMID : UInt16}

theorem message_others (h : PlainRequest packet) (hsame : SameRequest packet message)
    (o : CoapOption) (ho : o ∉ [CoapOption.token, .uriPath, .uriQuery, .contentType, .block1]) :
    message.isOption o = false := by
  rw [hsame.isOption, h.others o ho]

/-- The options copied from a message that has no others than a request. -/
theorem nextMessage_eq (h : PlainRequest packet) (hsame : SameRequest packet message) :
    nextMessage message nextMID =
      readOption message .uriQuery (fun p => { p with uriQuery := message.uriQuery })
        (readOption message .uriPath (fun p => { p with uriPath := message.uriPath })
          (readOption message .contentType (fun p => { p with contentType := message.contentType })
            ((cloneMessage message nextMID).coapSetHeaderContentType
              message.type.field.toUInt32))) := by
  have hothers := message_others h hsame
  unfold nextMessage copyOptions
  rw [hothers .etag (by decide), hothers .uriHost (by decide), hothers .uriPort (by decide),
    hothers .locationPath (by decide), hothers .locationQuery (by decide),
    hothers .observe (by decide), hothers .ifMatch (by decide), hothers .ifNoneMatch (by decide),
    hsame.accept.trans h.accept]
  rfl

variable {β : Type}

/-- A field that no copied option stores is the one of the clone. -/
theorem nextMessage_frame (g : Packet → β) (h : PlainRequest packet)
    (hsame : SameRequest packet message) (hmark : ∀ p o, g (Packet.markOption p o) = g p)
    (huriPath : ∀ p uriPath, g { p with uriPath } = g p)
    (hcontentType : ∀ p contentType, g { p with contentType } = g p)
    (huriQuery : ∀ p uriQuery, g { p with uriQuery } = g p) :
    g (nextMessage message nextMID) = g (cloneMessage message nextMID) := by
  rw [nextMessage_eq h hsame]
  rw [readOption_frame g fun p => (huriQuery _ _).trans (hmark p _),
    readOption_frame g fun p => (huriPath _ _).trans (hmark p _),
    readOption_frame g fun p => (hcontentType _ _).trans (hmark p _)]
  exact (hmark _ _).trans (hcontentType _ _)

/-- A field of the clone that the token does not store. -/
theorem cloneMessage_frame (g : Packet → β) (hmark : ∀ p o, g (Packet.markOption p o) = g p)
    (htoken : ∀ p token, g { p with token } = g p) :
    g (cloneMessage message nextMID) = g (coapInitMessage .con message.code nextMID) := by
  unfold cloneMessage
  split_ifs
  · exact (hmark _ _).trans (htoken _ _)
  · rfl

theorem cloneMessage_token (htoken : message.token.length ≤ coapTokenLen) :
    (cloneMessage message nextMID).token = message.token := by
  unfold cloneMessage
  split_ifs with h
  · exact List.take_of_length_le htoken
  · have hnil : message.token = [] := List.length_eq_zero_iff.mp (by omega)
    rw [hnil]
    rfl

theorem isOption_cloneMessage (o : CoapOption) : (cloneMessage message nextMID).isOption o =
    (decide (message.token ≠ []) && decide (o = .token)) := by
  have hinit : (coapInitMessage .con message.code nextMID).isOption o = false := by
    simp [Packet.isOption, coapInitMessage]
  unfold cloneMessage
  split_ifs with h
  · have hne : message.token ≠ [] := List.ne_nil_of_length_pos h
    have hmark : ((coapInitMessage .con message.code nextMID).coapSetHeaderToken
        message.token).isOption o =
          ((coapInitMessage .con message.code nextMID).isOption o || decide (o = .token)) :=
      Packet.isOption_markOption _ _ _
    rw [hmark, hinit, decide_eq_true hne, Bool.false_or, Bool.true_and]
  · have hnil : message.token = [] := List.length_eq_zero_iff.mp (by omega)
    rw [hinit, hnil]
    rfl

/-- The options of the next request: those of the request before, without Block1, and a
content type. -/
theorem isOption_nextMessage (h : PlainRequest packet) (hsame : SameRequest packet message)
    (o : CoapOption) : (nextMessage message nextMID).isOption o =
      ((packet.isOption o && decide (o ≠ .block1)) || decide (o = .contentType)) := by
  have hset : (nextMessage message nextMID).isOption o =
      ((cloneMessage message nextMID).isOption o || decide (o = .contentType) ||
        message.isOption .contentType && decide (o = .contentType) ||
        message.isOption .uriPath && decide (o = .uriPath) ||
        message.isOption .uriQuery && decide (o = .uriQuery)) := by
    have htype : ((cloneMessage message nextMID).coapSetHeaderContentType
        message.type.field.toUInt32).isOption o =
          ((cloneMessage message nextMID).isOption o || decide (o = .contentType)) :=
      Packet.isOption_markOption _ _ _
    rw [nextMessage_eq h hsame, isOption_readOption, isOption_readOption, isOption_readOption,
      htype]
    all_goals exact fun _ => rfl
  rw [hset, isOption_cloneMessage, hsame.isOption, hsame.isOption, hsame.isOption, hsame.token,
    ← h.isOption_token]
  by_cases ho : o ∈ [CoapOption.token, .uriPath, .uriQuery, .contentType, .block1]
  · simp only [List.mem_cons, List.not_mem_nil, or_false] at ho
    obtain rfl | rfl | rfl | rfl | rfl := ho <;> simp
  · rw [h.others o ho]
    simp only [List.mem_cons, List.not_mem_nil, or_false, not_or] at ho
    simp [ho]

theorem nextMessage_uriPath (h : PlainRequest packet) (hsame : SameRequest packet message) :
    (nextMessage message nextMID).uriPath = packet.uriPath := by
  rw [nextMessage_eq h hsame, readOption_frame Packet.uriPath fun _ => rfl, readOption,
    hsame.isOption, h.isOption_uriPath, ← hsame.uriPath]
  split_ifs with hne
  · rfl
  · have hnil : message.uriPath = [] := by simpa using hne
    rw [readOption_frame Packet.uriPath fun _ => rfl, hnil]
    exact cloneMessage_frame Packet.uriPath (fun _ _ => rfl) fun _ _ => rfl

theorem nextMessage_uriQuery (h : PlainRequest packet) (hsame : SameRequest packet message) :
    (nextMessage message nextMID).uriQuery = packet.uriQuery := by
  rw [nextMessage_eq h hsame, readOption, hsame.isOption, h.isOption_uriQuery, ← hsame.uriQuery]
  split_ifs with hne
  · rfl
  · have hnil : message.uriQuery = [] := by simpa using hne
    rw [readOption_frame Packet.uriQuery fun _ => rfl,
      readOption_frame Packet.uriQuery fun _ => rfl, hnil]
    exact cloneMessage_frame Packet.uriQuery (fun _ _ => rfl) fun _ _ => rfl

theorem nextMessage_mid (h : PlainRequest packet) (hsame : SameRequest packet message) :
    (nextMessage message nextMID).mid = nextMID :=
  (nextMessage_frame Packet.mid h hsame (fun _ _ => rfl) (fun _ _ => rfl) (fun _ _ => rfl)
    fun _ _ => rfl).trans (cloneMessage_frame Packet.mid (fun _ _ => rfl) fun _ _ => rfl)

/-- The next request is the request before under a new message-id, without a block. -/
theorem continues_nextMessage (h : PlainRequest packet) (hsame : SameRequest packet message) :
    Continues packet (nextMessage message nextMID) := by
  have hframe {β : Type} (g : Packet → β) (hmark : ∀ p o, g (Packet.markOption p o) = g p)
      (huriPath : ∀ p uriPath, g { p with uriPath } = g p)
      (hcontentType : ∀ p contentType, g { p with contentType } = g p)
      (huriQuery : ∀ p uriQuery, g { p with uriQuery } = g p)
      (htoken : ∀ p token, g { p with token } = g p) :
      g (nextMessage message nextMID) = g (coapInitMessage .con message.code nextMID) :=
    (nextMessage_frame g h hsame hmark huriPath hcontentType huriQuery).trans
      (cloneMessage_frame g hmark htoken)
  have htoken : (nextMessage message nextMID).token = packet.token := by
    refine (nextMessage_frame Packet.token h hsame (fun _ _ => rfl) (fun _ _ => rfl)
      (fun _ _ => rfl) fun _ _ => rfl).trans ?_
    rw [cloneMessage_token (hsame.token ▸ h.token), hsame.token]
  have hpath : (nextMessage message nextMID).uriPath = packet.uriPath := nextMessage_uriPath h hsame
  have hquery : (nextMessage message nextMID).uriQuery = packet.uriQuery :=
    nextMessage_uriQuery h hsame
  have hblock : (nextMessage message nextMID).block1 = {} :=
    hframe Packet.block1 (fun _ _ => rfl) (fun _ _ => rfl) (fun _ _ => rfl) (fun _ _ => rfl)
      fun _ _ => rfl
  refine ⟨?_, ?_, htoken, hpath, hquery⟩
  · constructor
    · exact hframe Packet.type (fun _ _ => rfl) (fun _ _ => rfl) (fun _ _ => rfl) (fun _ _ => rfl)
        fun _ _ => rfl
    · exact htoken ▸ h.token
    · rw [isOption_nextMessage h hsame, htoken, h.isOption_token]
      simp
    · exact hpath ▸ h.uriPath
    · rw [isOption_nextMessage h hsame, hpath, h.isOption_uriPath]
      simp
    · exact hquery ▸ h.uriQuery
    · rw [isOption_nextMessage h hsame, hquery, h.isOption_uriQuery]
      simp
    · rw [hblock]
      decide
    · rw [hblock]
      exact .inl rfl
    · rw [isOption_nextMessage h hsame]
      simp
    · intro o ho
      rw [isOption_nextMessage h hsame, h.others o ho]
      simp only [List.mem_cons, List.not_mem_nil, or_false, not_or] at ho
      simp [ho]
    · exact hframe Packet.proxyUri (fun _ _ => rfl) (fun _ _ => rfl) (fun _ _ => rfl)
        (fun _ _ => rfl) fun _ _ => rfl
    · exact hframe Packet.uriHost (fun _ _ => rfl) (fun _ _ => rfl) (fun _ _ => rfl)
        (fun _ _ => rfl) fun _ _ => rfl
    · exact hframe Packet.locationQuery (fun _ _ => rfl) (fun _ _ => rfl) (fun _ _ => rfl)
        (fun _ _ => rfl) fun _ _ => rfl
    · exact hframe Packet.accept (fun _ _ => rfl) (fun _ _ => rfl) (fun _ _ => rfl)
        (fun _ _ => rfl) fun _ _ => rfl
  · rw [hframe Packet.code (fun _ _ => rfl) (fun _ _ => rfl) (fun _ _ => rfl) (fun _ _ => rfl)
      fun _ _ => rfl]
    exact hsame.code

end nextMessage

/-! ### The block of a request -/

/-- The block sizes that Block1 can announce. -/
theorem blockSize_bounds : ∀ szx < 8, ¬ blockSize szx < 16 ∧ ¬ blockSize szx > 2048 := by
  decide

theorem toNat_blockSize : ∀ szx < 8, (blockSize szx).toNat = 16 * 2 ^ szx ∧
    16 ≤ (blockSize szx).toNat ∧ (blockSize szx).toNat ≤ 2048 := by
  decide

/-- A request with a block and the bytes of the block. -/
def withBlock (message : Packet) (num : UInt32) (more : UInt8) (size : UInt16)
    (payload : List Byte) : Packet :=
  (message.coapSetHeaderBlock1 num more size).coapSetPayload payload

section withBlock

variable {packet next : Packet} {num : UInt32} {more : UInt8} {szx : ℕ} {payload : List Byte}

/-- A block number that fits is announced. -/
theorem coapSetHeaderBlock1_of_le (message : Packet) (more : UInt8) (hszx : szx < 8)
    (hnum : num ≤ 0x0FFFFF) : message.coapSetHeaderBlock1 num more (blockSize szx) =
      { message with block1 := { message.block1 with num, more, size := blockSize szx } }.markOption
        .block1 := by
  obtain ⟨hlow, hhigh⟩ := blockSize_bounds szx hszx
  unfold Packet.coapSetHeaderBlock1
  rw [if_neg hlow, if_neg hhigh, if_neg (by simpa using hnum)]

/-- A block number that does not fit is left out. -/
theorem coapSetHeaderBlock1_of_gt (message : Packet) (more : UInt8) (hszx : szx < 8)
    (hnum : num > 0x0FFFFF) : message.coapSetHeaderBlock1 num more (blockSize szx) = message := by
  obtain ⟨hlow, hhigh⟩ := blockSize_bounds szx hszx
  unfold Packet.coapSetHeaderBlock1
  rw [if_neg hlow, if_neg hhigh, if_pos hnum]

@[simp] theorem withBlock_mid (message : Packet) (num : UInt32) (more : UInt8) (size : UInt16)
    (payload : List Byte) : (withBlock message num more size payload).mid = message.mid := by
  unfold withBlock Packet.coapSetHeaderBlock1
  split_ifs <;> rfl

/-- The block does not make it another request. -/
theorem Continues.withBlock (h : Continues packet next) (hszx : szx < 8)
    (hmore : more = 0 ∨ more = 1) :
    Continues packet (withBlock next num more (blockSize szx) payload) := by
  unfold Core.withBlock
  by_cases hnum : num ≤ 0x0FFFFF
  · rw [coapSetHeaderBlock1_of_le next more hszx hnum]
    have hmark (o : CoapOption) (ho : o ≠ .block1) : (({ next with
        block1 := { next.block1 with num, more, size := blockSize szx } : Packet }.markOption
          .block1).coapSetPayload payload).isOption o = next.isOption o := by
      refine (Packet.isOption_markOption _ _ _).trans ?_
      rw [decide_eq_false ho, Bool.or_false]
      rfl
    refine ⟨?_, h.code, h.token, h.uriPath, h.uriQuery⟩
    constructor
    · exact h.plain.type
    · exact h.plain.token
    · rw [hmark _ (by decide)]
      exact h.plain.isOption_token
    · exact h.plain.uriPath
    · rw [hmark _ (by decide)]
      exact h.plain.isOption_uriPath
    · exact h.plain.uriQuery
    · rw [hmark _ (by decide)]
      exact h.plain.isOption_uriQuery
    · have hlt : num.toNat ≤ 0x0FFFFF := hnum
      show num.toNat < 2 ^ 20
      omega
    · exact hmore
    · exact fun _ => ⟨szx, hszx, rfl⟩
    · intro o ho
      have hne : o ≠ .block1 := fun h => ho (by simp [h])
      rw [hmark o hne]
      exact h.plain.others o ho
    · exact h.plain.proxyUri
    · exact h.plain.uriHost
    · exact h.plain.locationQuery
    · exact h.plain.accept
  · rw [coapSetHeaderBlock1_of_gt next more hszx (by simpa using hnum)]
    obtain ⟨hplain, hcode, htoken, hpath, hquery⟩ := h
    exact ⟨⟨hplain.type, hplain.token, hplain.isOption_token, hplain.uriPath,
      hplain.isOption_uriPath, hplain.uriQuery, hplain.isOption_uriQuery, hplain.block1_num,
      hplain.block1_more, hplain.block1_size, hplain.others, hplain.proxyUri, hplain.uriHost,
      hplain.locationQuery, hplain.accept⟩, hcode, htoken, hpath, hquery⟩

end withBlock

/-! ### Sending -/

/-- A request whose blocks fit in a datagram, the largest block and its options
included. -/
def HasRoom (packet : Packet) : Prop := requestSize packet + 2048 + 11 < 65536

/-- A transaction that was sent and waits for its answer: `packet` is what was serialized. -/
structure InFlight (transaction : Transaction) (packet : Packet) : Prop where
  plain : PlainRequest packet
  room : HasRoom packet
  message : transaction.message = packet.serialized
  buffer : transaction.buffer = some (coapSerializeMessage packet)
  mid : packet.mid = transaction.mID
  peer : transaction.peerH ≠ none
  waiting : transaction.ackReceived = false

/-- A transaction once its message is sent for the first time. -/
def firstSent (tvSec : ℤ) (transaction : Transaction) : Transaction :=
  { transaction with
    message := transaction.message.serialized
    buffer := some (coapSerializeMessage transaction.message)
    retransTime := tvSec + coapResponseTimeout + 0
    retransCounter := 2 }

variable {tvSec : ℤ} {transaction : Transaction} {packet : Packet}

/-- **A new request is sent**: it is linked, and its bytes are handed to the transport. -/
theorem addAndSend_eq (htime : 0 ≤ tvSec) (hplain : PlainRequest transaction.message)
    (hroom : HasRoom transaction.message) (hpayload : transaction.message.payload.length ≤ 2048)
    (hbuffer : transaction.buffer = none) (hack : transaction.ackReceived = false)
    (hcounter : transaction.retransCounter = 0) (contextP : TransactionContext) :
    addAndSend tvSec contextP transaction =
      .ok ({ contextP with
          transactionList := listAdd Transaction.mID (firstSent tvSec transaction)
            contextP.transactionList },
        [.datagram transaction.peerH (coapSerializeMessage transaction.message)], 0) := by
  have hroom : requestSize transaction.message + 2048 + 11 < 65536 := hroom
  have hle := coapSerializeGetSize_le hplain
  have hlength := coapSerializeMessage_length_le hplain
  have hpos : 0 < coapSerializeGetSize transaction.message := by
    unfold coapSerializeGetSize coapHeaderLen
    omega
  have hmod : coapSerializeGetSize transaction.message % 65536 =
      coapSerializeGetSize transaction.message := Nat.mod_eq_of_lt (by omega)
  have hserialize : serializeBuffer transaction = .ok (some ({ transaction with
      message := transaction.message.serialized
      buffer := some (coapSerializeMessage transaction.message) },
      coapSerializeMessage transaction.message)) := by
    unfold serializeBuffer
    rw [hbuffer]
    rw [hmod, if_neg (by omega), if_neg (by omega)]
    rfl
  unfold addAndSend transactionSend firstSent
  rw [hserialize, ok_bind]
  dsimp only
  rw [hack, if_neg (by decide), if_pos hcounter, if_pos htime]
  dsimp only
  rw [if_pos (by decide), if_neg (by decide)]
  rfl

theorem inFlight_firstSent (h : Continues packet transaction.message) (hroom : HasRoom packet)
    (hmid : transaction.message.mid = transaction.mID) (hpeer : transaction.peerH ≠ none)
    (hack : transaction.ackReceived = false) :
    InFlight (firstSent tvSec transaction) transaction.message := by
  refine ⟨h.plain, ?_, rfl, rfl, hmid, hpeer, hack⟩
  unfold HasRoom requestSize at *
  rwa [h.token, h.uriPath, h.uriQuery]

/-! ### The clone -/

/-- What `prv_create_next_block_transaction` makes of a request that was sent. -/
def nextTransaction (transaction : Transaction) (packet : Packet) (nextMID : UInt16) :
    Transaction :=
  { mID := nextMID
    peerH := transaction.peerH
    message := nextMessage (parsedRequest packet) nextMID
    payload := transaction.payload
    callback := transaction.callback
    userData := transaction.userData }

/-- **The next request is made** from the bytes of the request before. -/
theorem prvCreateNextBlockTransaction_eq (h : InFlight transaction packet) (nextMID : UInt16) :
    prvCreateNextBlockTransaction transaction nextMID =
      .ok (some (nextTransaction transaction packet nextMID)) := by
  have hsame := sameRequest_parsedRequest h.plain
  unfold prvCreateNextBlockTransaction
  rw [h.buffer]
  dsimp only [Option.getD_some]
  rw [coapParseMessage_coapSerializeMessage h.plain, ok_bind]
  rw [if_neg (not_not.mpr rfl), transactionNew_eq h.peer]
  dsimp only
  rw [hsame.proxyUri, hsame.uriHost, hsame.locationQuery, h.plain.proxyUri, h.plain.uriHost,
    h.plain.locationQuery, if_neg (by simp)]
  rfl

end Lwm2m.Core

/-
# Transactions

`coap/transaction.c`: a request that waits for its answer is a transaction on the list
of the context, which is sorted by message-id.  `transaction_send` serializes the
message once and sends it, `transaction_handleResponse` looks for the transaction that
a response answers.

What the functions hand to the transport and to callbacks is collected as a list of
`Output`s.  A transaction is freed by pointer and taken off the list by message-id; when
the two disagree the freed node stays linked, and the model faults there.
`transaction_send` changes a node that keeps its message-id, so it is modelled on the
node alone, and its caller takes the node off the list when it failed.
-/

import Lwm2m.Core.Context
import Lwm2m.Coap.Serialize
import Lwm2m.Library.Decimal
import Lwm2m.Library.Except
import Mathlib.Data.List.Nodup

namespace Lwm2m.Core

open Coap Code Library

/-- `COAP_RESPONSE_TIMEOUT`. -/
def coapResponseTimeout : ℤ := 2
/-- `COAP_MAX_RETRANSMIT`. -/
def coapMaxRetransmit : UInt8 := 4

/-- `lwm2m_transaction_t`.  The buffer is `NULL` until the message is serialized; the
callback and the user data are pointers, by number. -/
structure Transaction where
  mID : UInt16
  peerH : Session
  ackReceived : Bool := false
  responseTimeout : ℤ := 0
  retransCounter : UInt8 := 0
  retransTime : ℤ := 0
  message : Packet
  buffer : Option (List Byte) := none
  payload : List Byte := []
  callback : Option ℕ := none
  userData : Option ℕ := none
  deriving DecidableEq, Repr

/-- The context with its list of transactions. -/
structure TransactionContext extends Context where
  transactionList : List Transaction := []
  deriving DecidableEq, Repr

/-- What leaves the client. -/
inductive Output
  /-- `lwm2m_buffer_send`. -/
  | datagram (sessionH : Session) (buffer : List Byte)
  /-- A call of the callback of a transaction. -/
  | callback (callback : ℕ) (transacP : Transaction) (message : Option Packet)
  deriving DecidableEq, Repr

/-- The call of the callback of a transaction, if it has one. -/
def callCallback (transacP : Transaction) (message : Option Packet) : List Output :=
  match transacP.callback with
  | some callback => [.callback callback transacP message]
  | none => []

/-! ### Making a transaction -/

/-- The path segments of `transaction_new`: the alternative path without its first
character and the identifiers of the URI, each if the one before is set. -/
def pathSegments (altPath : Option CString) (uriP : Option Uri) : List CString :=
  let ids := match uriP with
    | none => []
    | some uri =>
      if uri.isSetObject then
        uri.objectId :: if uri.isSetInstance then
          uri.instanceId :: if uri.isSetResource then
            uri.resourceId :: if uri.isSetResourceInstance then [uri.resourceInstanceId] else []
          else []
        else []
      else []
  (altPath.map (List.drop 1)).toList ++ ids.map fun id => decimal id.toNat

/-- `transaction_new`, with the token it is given or has generated. -/
def transactionNew (sessionH : Session) (method : Code) (altPath : Option CString)
    (uriP : Option Uri) (mID : UInt16) (token : List Byte) : Option Transaction :=
  if sessionH = none then none
  else
    let message := (pathSegments altPath uriP).foldl Packet.coapSetHeaderUriPathSegment
      (coapInitMessage .con method mID)
    some {
      mID
      peerH := sessionH
      message := if 0 < token.length then message.coapSetHeaderToken token else message }

/-- `transaction_set_payload`. -/
def transactionSetPayload (blockSize : UInt16) (transaction : Transaction) (buffer : List Byte) :
    Transaction :=
  let message :=
    if buffer.length > blockSize.toNat then transaction.message.coapSetHeaderBlock1 0 1 blockSize
    else transaction.message
  { transaction with
    payload := buffer
    message := message.coapSetPayload (buffer.take (min buffer.length blockSize.toNat)) }

/-! ### Sending -/

/-- The first part of `transaction_send`: the message is serialized into a buffer whose
length has 16 bits.  The result is `none` when that length is zero. -/
def serializeBuffer (transacP : Transaction) : Except Fault (Option (Transaction × List Byte)) := do
  match transacP.buffer with
  | some buffer => return some (transacP, buffer)
  | none =>
    let bufferLen := coapSerializeGetSize transacP.message % 65536
    if bufferLen = 0 then return none
    let buffer := coapSerializeMessage transacP.message
    if bufferLen < buffer.length then throw .outOfBoundsWrite
    return some ({ transacP with
      message := transacP.message.serialized
      buffer := some buffer }, buffer)

/-- `transaction_send` on a node: the node afterwards, what was sent, and the result; the
caller takes the node off the list when the result is not 0. -/
def transactionSend (tvSec : ℤ) (transacP : Transaction) :
    Except Fault (Transaction × List Output × ℤ) := do
  match ← serializeBuffer transacP with
  | none => return (transacP, [], coap500InternalServerError.toNat)
  | some (transacP, buffer) =>
    if transacP.ackReceived then return (transacP, callCallback transacP none, -1)
    let (transacP, timeout, maxRetriesReached) : Transaction × ℤ × Bool :=
      if transacP.retransCounter = 0 then
        if 0 ≤ tvSec then
          ({ transacP with
            retransTime := tvSec + coapResponseTimeout
            retransCounter := 1 }, 0, false)
        else (transacP, 0, true)
      else (transacP, coapResponseTimeout * 2 ^ (transacP.retransCounter.toNat - 1), false)
    if coapMaxRetransmit + 1 ≥ transacP.retransCounter then
      let sent := [.datagram transacP.peerH buffer]
      let transacP := { transacP with
        retransTime := transacP.retransTime + timeout
        retransCounter := transacP.retransCounter + 1 }
      if maxRetriesReached then return (transacP, sent ++ callCallback transacP none, -1)
      else return (transacP, sent, 0)
    else return (transacP, callCallback transacP none, -1)

/-- A new transaction is linked and sent; it is taken off the list again when that
fails. -/
def addAndSend (tvSec : ℤ) (contextP : TransactionContext) (next : Transaction) :
    Except Fault (TransactionContext × List Output × ℤ) := do
  let (next, sent, result) ← transactionSend tvSec next
  let transactionList := listAdd Transaction.mID next contextP.transactionList
  if result = 0 then return ({ contextP with transactionList }, sent, result)
  else return ({ contextP with
    transactionList := (listRemove Transaction.mID transactionList next.mID).1 }, sent, result)

/-! ### Responses -/

/-- `prv_checkFinished`. -/
def prvCheckFinished (transacP : Transaction) (receivedMessage : Packet) : Bool :=
  let transactionMessage := transacP.message
  if transactionMessage.mid ≠ receivedMessage.mid then false
  else if 4 < transactionMessage.code then transacP.ackReceived
  else if !transactionMessage.isOption .token then transacP.ackReceived
  else
    transactionMessage.token ==
      if receivedMessage.isOption .token then receivedMessage.token else []

/-- `transaction_remove`: the first node with the message-id of the transaction is
unlinked and the transaction is freed. -/
def transactionRemove (f : Focus Transaction) : Except Fault (List Transaction) :=
  let nodes := f.before.map (·, false) ++ (f.here, true) :: f.after.map (·, false)
  match listRemove (·.1.mID) nodes f.here.mID with
  | (list, some (_, true)) => .ok (list.map Prod.fst)
  | _ => .error .useAfterFree

/-- The message acknowledges or rejects a transaction that is not acknowledged yet. -/
def acknowledges (message : Packet) (transacP : Transaction) : Bool :=
  !transacP.ackReceived && (message.type == .ack || message.type == .rst) &&
    transacP.mID == message.mid

/-- The transaction after the message was compared with it. -/
def acknowledge (message : Packet) (transacP : Transaction) : Transaction :=
  if acknowledges message transacP then { transacP with ackReceived := true } else transacP

/-- The transaction at which the loop of `transaction_handleResponse` ends. -/
def endsLoop (fromSessionH : Session) (message : Packet) (transacP : Transaction) : Bool :=
  lwm2mSessionIsEqual fromSessionH transacP.peerH &&
    (acknowledges message transacP || prvCheckFinished (acknowledge message transacP) message)

/-- The time of the next retransmission of an acknowledged transaction. -/
def waitForResponse (tvSec : ℤ) (transacP : Transaction) : Transaction :=
  let time := if 0 ≤ tvSec then tvSec else transacP.retransTime
  { transacP with
    retransTime :=
      if transacP.responseTimeout ≠ 0 then time + transacP.responseTimeout
      else time + coapResponseTimeout * transacP.retransCounter.toNat }

/-- The acknowledgement of a confirmable response. -/
def emptyAck (message : Packet) (fromSessionH : Session) : Output :=
  .datagram fromSessionH (coapSerializeMessage (coapInitMessage .ack 0 message.mid))

/-- `transaction_handleResponse`, with the transactions changed in place; `withResponse`
says that it is given a message to answer with. -/
def transactionHandleResponse (tvSec : ℤ) (transactionList : List Transaction)
    (fromSessionH : Session) (message : Packet) (withResponse : Bool) :
    Except Fault (List Transaction × List Output × Bool) := do
  match focusFirst (endsLoop fromSessionH message) transactionList with
  | none => return (transactionList, [], false)
  | some f =>
    let reset := acknowledges message f.here && message.type == .rst
    let transacP := acknowledge message f.here
    if reset || prvCheckFinished transacP message then
      let sent :=
        if !reset && message.type == .con && withResponse then [emptyAck message fromSessionH]
        else []
      if !reset && message.code == coap401Unauthorized &&
          coapMaxRetransmit > transacP.retransCounter then
        -- the request is sent again
        return (f.set { transacP with
          ackReceived := false
          retransTime := transacP.retransTime + coapResponseTimeout }, sent, true)
      else
        let transactionList ← transactionRemove { f with here := transacP }
        return (transactionList, sent ++ callCallback transacP (some message), true)
    else return (f.set (waitForResponse tvSec transacP), [], true)

/-! ### The list of transactions -/

/-- The transactions have different message-ids, those of their messages, and are in
order. -/
structure WellKept (transactionList : List Transaction) : Prop where
  sorted : transactionList.Pairwise (·.mID < ·.mID)
  mid : ∀ transaction ∈ transactionList, transaction.message.mid = transaction.mID

namespace WellKept

variable {l l' : List Transaction}

theorem sublist (h : WellKept l) (hsub : l'.Sublist l) : WellKept l' :=
  ⟨h.sorted.sublist hsub, fun t ht => h.mid t (hsub.mem ht)⟩

/-- The message-id of a transaction is its own. -/
theorem eq_of_mID (h : WellKept l) {t t' : Transaction} (ht : t ∈ l) (ht' : t' ∈ l)
    (hmid : t.mID = t'.mID) : t = t' := by
  have hnodup : (l.map Transaction.mID).Nodup :=
    List.pairwise_map.mpr (h.sorted.imp UInt16.ne_of_lt)
  exact List.inj_on_of_nodup_map hnodup ht ht' hmid

/-- A new message-id keeps the list well kept. -/
theorem listAdd (h : WellKept l) {t : Transaction} (hmid : t.message.mid = t.mID)
    (hnew : ∀ t' ∈ l, t'.mID ≠ t.mID) : WellKept (listAdd Transaction.mID t l) := by
  refine ⟨listAdd_pairwise h.sorted hnew, fun t' ht' => ?_⟩
  rcases mem_listAdd.mp ht' with rfl | ht'
  · exact hmid
  · exact h.mid t' ht'

end WellKept

/-- On a well kept list the transaction that is freed is the one that is unlinked. -/
theorem transactionRemove_eq {f : Focus Transaction}
    (hsorted : f.list.Pairwise (·.mID < ·.mID)) : transactionRemove f = .ok f.unlink := by
  have hbefore : ∀ node ∈ f.before.map (·, false), node.1.mID < (f.here, true).1.mID := by
    intro node hnode
    obtain ⟨t, ht, rfl⟩ := List.mem_map.mp hnode
    exact (List.pairwise_append.mp hsorted).2.2 t ht f.here List.mem_cons_self
  have hremove : listRemove (fun node : Transaction × Bool => node.1.mID)
      (f.before.map (·, false) ++ (f.here, true) :: f.after.map (·, false)) f.here.mID = _ :=
    listRemove_append hbefore
  unfold transactionRemove
  dsimp only
  rw [hremove]
  simp [Focus.unlink, Function.comp_def]

@[simp] theorem acknowledge_message (message : Packet) (transacP : Transaction) :
    (acknowledge message transacP).message = transacP.message := by
  unfold acknowledge
  split_ifs <;> rfl

/-- A transaction is finished by a message with the message-id of its request only. -/
theorem mid_of_prvCheckFinished {transacP : Transaction} {message : Packet}
    (h : prvCheckFinished transacP message = true) : transacP.message.mid = message.mid := by
  unfold prvCheckFinished at h
  by_contra hne
  rw [if_pos hne] at h
  cases h

/-- The message acknowledges the transaction and answers it. -/
structure Answers (message : Packet) (transacP : Transaction) : Prop where
  type : message.type = .ack
  mid : message.mid = transacP.mID
  token : (if message.isOption .token then message.token else []) = transacP.message.token

/-- **An answered transaction is finished**: its callback is called and it leaves the
list. -/
theorem transactionHandleResponse_of_answers {l : List Transaction} (hkept : WellKept l)
    {transacP : Transaction} (hmem : transacP ∈ l) (hwaiting : transacP.ackReceived = false)
    {message : Packet} (h : Answers message transacP) (hcode : message.code ≠ coap401Unauthorized)
    (tvSec : ℤ) : ∃ l', transactionHandleResponse tvSec l transacP.peerH message false =
        .ok (l', callCallback { transacP with ackReceived := true } (some message), true) ∧
      l'.Sublist l ∧ ∀ t ∈ l, t ≠ transacP → t ∈ l' := by
  have hack : acknowledges message transacP = true := by
    simp [acknowledges, hwaiting, h.type, h.mid]
  have hends : endsLoop transacP.peerH message transacP = true := by
    simp [endsLoop, lwm2mSessionIsEqual, hack]
  obtain ⟨f, hf⟩ : ∃ f, focusFirst (endsLoop transacP.peerH message) l = some f := by
    rw [← Option.isSome_iff_exists, Option.isSome_iff_ne_none]
    exact fun hnone => focusFirst_eq_none_iff.mp hnone transacP hmem hends
  obtain ⟨hlist, hhere, -⟩ := focusFirst_eq_some_iff.mp hf
  have hfmem : f.here ∈ l := hlist ▸ f.here_mem_list
  have hfhere : f.here = transacP := by
    refine hkept.eq_of_mID hfmem hmem ?_
    rw [endsLoop, Bool.and_eq_true, Bool.or_eq_true] at hhere
    rcases hhere.2 with hacknowledges | hfinished
    · rw [acknowledges, Bool.and_eq_true, beq_iff_eq] at hacknowledges
      rw [hacknowledges.2, h.mid]
    · have hmid := mid_of_prvCheckFinished hfinished
      rw [acknowledge_message, hkept.mid _ hfmem] at hmid
      rw [hmid, h.mid]
  have hfinished : prvCheckFinished { transacP with ackReceived := true } message = true := by
    have hmid : transacP.message.mid = message.mid := by rw [hkept.mid _ hmem, h.mid]
    simp [prvCheckFinished, hmid, h.token]
  have hremove : transactionRemove { f with here := { transacP with ackReceived := true } } =
      .ok f.unlink := by
    have hsorted := hkept.sorted
    rw [← hlist, Focus.list, hfhere] at hsorted
    refine transactionRemove_eq ?_
    rw [← List.pairwise_map (f := Transaction.mID) (R := (· < ·))] at hsorted ⊢
    simpa [Focus.list, Focus.set] using hsorted
  refine ⟨f.unlink, ?_, ?_, ?_⟩
  · unfold transactionHandleResponse
    rw [hf]
    dsimp only
    rw [hfhere, hack, acknowledge, if_pos hack, hfinished, h.type, Bool.or_true, if_pos rfl,
      if_neg (by simp [hcode]), hremove]
    rfl
  · rw [← hlist]
    exact List.Sublist.append_left (List.sublist_cons_self _ _) _
  · intro t ht hne
    rw [← hlist] at ht
    exact (Focus.mem_list.mp ht).resolve_left (hfhere ▸ hne)

end Lwm2m.Core

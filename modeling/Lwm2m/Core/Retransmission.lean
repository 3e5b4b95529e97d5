/-
# Retransmission

`transaction_step` of `coap/transaction.c` sends a listed transaction again when its time
has come, and `transaction_handleResponse` ends it or changes its time.  These and
`transaction_send` are the events of the list of transactions.  Each of them acts on the
transactions one by one (`sideBySide_handleEvent`), so a run of the list is, for every
transaction, a run of its own timer (`Moves`).

In every run a request is handed to the transport at most `COAP_MAX_RETRANSMIT` + 1 times,
each time doubling the interval to the next, and its callback is called at most once, after
which it is off the list (`transaction_discipline`).
-/

import Lwm2m.Core.Transaction
import Lwm2m.Coap.RoundTrip
import Lwm2m.Library.SideBySide

namespace Lwm2m.Core

open Coap Code Library

/-! ### The list of transactions takes events -/

/-- `transaction_send` on a listed transaction. -/
def sendListed (tvSec : ℤ) (f : Focus Transaction) :
    Except Fault (List Transaction × List Output × ℤ) := do
  let (here, sent, result) ← transactionSend tvSec f.here
  if result = 0 then return (f.set here, sent, result)
  else
    let transactionList ← transactionRemove { f with here }
    return (transactionList, sent, result)

/-- The time to the next step that a transaction asks for. -/
def stepInterval (currentTime : ℤ) (transacP : Transaction) : ℤ :=
  if transacP.retransTime > currentTime then transacP.retransTime - currentTime else 1

/-- The loop of `transaction_step`: the transactions before the pointer stay. -/
def stepLoop (tvSec currentTime : ℤ) (before : List Transaction) :
    List Transaction → ℤ → Except Fault (List Transaction × List Output × ℤ)
  | [], timeoutP => return (before, [], timeoutP)
  | transacP :: after, timeoutP => do
    if transacP.retransTime ≤ currentTime then
      let (here, sent, removed) ← transactionSend tvSec transacP
      if removed = 0 then
        let (transactionList, rest, timeoutP) ← stepLoop tvSec currentTime (before ++ [here]) after
          (min timeoutP (stepInterval currentTime here))
        return (transactionList, sent ++ rest, timeoutP)
      else
        let _ ← transactionRemove ⟨before, here, after⟩
        let (transactionList, rest, timeoutP) ← stepLoop tvSec currentTime before after 1
        return (transactionList, sent ++ rest, timeoutP)
    else
      stepLoop tvSec currentTime (before ++ [transacP]) after
        (min timeoutP (stepInterval currentTime transacP))

/-- `transaction_step`. -/
def transactionStep (tvSec currentTime timeoutP : ℤ) (transactionList : List Transaction) :
    Except Fault (List Transaction × List Output × ℤ) :=
  stepLoop tvSec currentTime [] transactionList timeoutP

/-- What happens to the list of transactions. -/
inductive TransactionEvent
  /-- `transaction_send` on the transaction with this message-id. -/
  | send (tvSec : ℤ) (mID : UInt16)
  /-- `transaction_step`. -/
  | step (tvSec currentTime timeoutP : ℤ)
  /-- `transaction_handleResponse`. -/
  | response (tvSec : ℤ) (fromSessionH : Session) (message : Packet) (withResponse : Bool)

/-- The list after an event, and what left the client. -/
def handleEvent (transactionList : List Transaction) :
    TransactionEvent → Except Fault (List Transaction × List Output)
  | .send tvSec mID =>
    match focusFirst (·.mID == mID) transactionList with
    | none => return (transactionList, [])
    | some f => do
      let (transactionList, sent, _) ← sendListed tvSec f
      return (transactionList, sent)
  | .step tvSec currentTime timeoutP => do
    let (transactionList, sent, _) ← transactionStep tvSec currentTime timeoutP transactionList
    return (transactionList, sent)
  | .response tvSec fromSessionH message withResponse => do
    let (transactionList, sent, _) ←
      transactionHandleResponse tvSec transactionList fromSessionH message withResponse
    return (transactionList, sent)

variable {tvSec result : ℤ} {l l' : List Transaction} {fromSessionH : Session} {message : Packet}
  {withResponse : Bool} {out sent : List Output} {t t' : Transaction} {mID : UInt16}
  {e : TransactionEvent}

theorem handleEvent_response {found : Bool}
    (h : transactionHandleResponse tvSec l fromSessionH message withResponse =
      .ok (l', out, found)) :
    handleEvent l (.response tvSec fromSessionH message withResponse) = .ok (l', out) := by
  show (transactionHandleResponse tvSec l fromSessionH message withResponse >>= _) = _
  rw [h]
  rfl

/-- A step of a run: an event with the outputs it has. -/
def Takes (l : List Transaction) (e : TransactionEvent × List Output) (l' : List Transaction) :
    Prop :=
  handleEvent l e.1 = .ok (l', e.2)

/-! ### What `transaction_send` does -/

/-- What `transaction_send` does with a transaction that has its buffer. -/
inductive SendCase (tvSec : ℤ) (t : Transaction) (buffer : List Byte) :
    Transaction → List Output → ℤ → Prop
  | acknowledged (h : t.ackReceived = true) : SendCase tvSec t buffer t (callCallback t none) (-1)
  | first (h : t.ackReceived = false) (hcounter : t.retransCounter = 0) (htime : 0 ≤ tvSec) :
    SendCase tvSec t buffer
      { t with retransTime := tvSec + coapResponseTimeout, retransCounter := 2 }
      [.datagram t.peerH buffer] 0
  | noClock (h : t.ackReceived = false) (hcounter : t.retransCounter = 0) (htime : ¬ 0 ≤ tvSec) :
    SendCase tvSec t buffer { t with retransCounter := 1 }
      (.datagram t.peerH buffer :: callCallback { t with retransCounter := 1 } none) (-1)
  | again (h : t.ackReceived = false) (hcounter : t.retransCounter ≠ 0)
    (hle : t.retransCounter ≤ coapMaxRetransmit + 1) :
    SendCase tvSec t buffer
      { t with
        retransTime := t.retransTime + coapResponseTimeout * 2 ^ (t.retransCounter.toNat - 1)
        retransCounter := t.retransCounter + 1 } [.datagram t.peerH buffer] 0
  | exhausted (h : t.ackReceived = false) (hgt : ¬ t.retransCounter ≤ coapMaxRetransmit + 1) :
    SendCase tvSec t buffer t (callCallback t none) (-1)

/-- The transaction with its message serialized. -/
def withBuffer (t : Transaction) : Transaction :=
  { t with
    message := t.message.serialized
    buffer := some (coapSerializeMessage t.message) }

/-- The buffer of a transaction is made once. -/
inductive Buffered (t : Transaction) : Transaction → List Byte → Prop
  | old {buffer : List Byte} (h : t.buffer = some buffer) : Buffered t t buffer
  | new (h : t.buffer = none) : Buffered t (withBuffer t) (coapSerializeMessage t.message)

/-- **What `transaction_send` does**: it gives up on a message of no bytes, or one of the
cases is the one of the transaction with its buffer. -/
theorem transactionSend_cases (h : transactionSend tvSec t = .ok (t', sent, result)) :
    (t' = t ∧ sent = [] ∧ result ≠ 0 ∧ serializeBuffer t = .ok none) ∨
      ∃ u buffer, Buffered t u buffer ∧ SendCase tvSec u buffer t' sent result := by
  obtain ⟨prepared, hprepared, h⟩ := bind_eq_ok_iff.mp h
  cases prepared with
  | none =>
    cases h
    exact .inl ⟨rfl, rfl, by decide, hprepared⟩
  | some prepared =>
    obtain ⟨u, buffer⟩ := prepared
    refine .inr ⟨u, buffer, ?_, ?_⟩
    · unfold serializeBuffer at hprepared
      cases hbuffer : t.buffer with
      | some old =>
        rw [hbuffer] at hprepared
        cases hprepared
        exact .old hbuffer
      | none =>
        rw [hbuffer] at hprepared
        dsimp only at hprepared
        split_ifs at hprepared
        · cases hprepared
        · cases hprepared
        · cases hprepared
          exact .new hbuffer
    · dsimp only at h
      cases hack : u.ackReceived with
      | true =>
        rw [if_pos hack] at h
        cases h
        exact .acknowledged hack
      | false =>
        rw [if_neg (by rw [hack]; decide)] at h
        by_cases hcounter : u.retransCounter = 0
        · rw [if_pos hcounter] at h
          by_cases htime : 0 ≤ tvSec
          · have hfirst : SendCase tvSec u buffer _ _ _ := .first hack hcounter htime
            rw [if_pos htime] at h
            dsimp only at h
            rw [if_pos (by decide), if_neg (by decide)] at h
            cases h
            rwa [add_zero]
          · have hnoClock : SendCase tvSec u buffer _ _ _ := .noClock hack hcounter htime
            rw [if_neg htime] at h
            rw [if_pos (by rw [hcounter]; decide), if_pos rfl] at h
            cases h
            rwa [add_zero, hcounter]
        · rw [if_neg hcounter] at h
          dsimp only at h
          by_cases hle : u.retransCounter ≤ coapMaxRetransmit + 1
          · rw [if_pos hle, if_neg (by decide)] at h
            cases h
            exact .again hack hcounter hle
          · rw [if_neg hle] at h
            cases h
            exact .exhausted hack hle

/-- The message-id and what else `transaction_send` keeps. -/
theorem kept_of_transactionSend (h : transactionSend tvSec t = .ok (t', sent, result)) :
    t'.mID = t.mID ∧ t'.peerH = t.peerH ∧ t'.callback = t.callback ∧
      (t'.message = t.message ∨ t'.message = t.message.serialized) := by
  rcases transactionSend_cases h with ⟨rfl, -, -⟩ | ⟨u, buffer, hbuffered, hcase⟩
  · exact ⟨rfl, rfl, rfl, .inl rfl⟩
  · cases hbuffered <;> cases hcase <;>
      first
      | exact ⟨rfl, rfl, rfl, .inl rfl⟩
      | exact ⟨rfl, rfl, rfl, .inr rfl⟩

/-! ### One transaction -/

/-- What a message does with the transaction at which `transaction_handleResponse` ends. -/
def respond (tvSec : ℤ) (fromSessionH : Session) (message : Packet) (withResponse : Bool)
    (t : Transaction) : Option Transaction × List Output :=
  let reset := acknowledges message t && message.type == .rst
  let transacP := acknowledge message t
  if reset || prvCheckFinished transacP message then
    let sent :=
      if !reset && message.type == .con && withResponse then [emptyAck message fromSessionH]
      else []
    if !reset && message.code == coap401Unauthorized &&
        coapMaxRetransmit > transacP.retransCounter then
      (some { transacP with
        ackReceived := false
        retransTime := transacP.retransTime + coapResponseTimeout }, sent)
    else (none, sent ++ callCallback transacP (some message))
  else (some (waitForResponse tvSec transacP), [])

/-- The moves of one transaction in an event: it is idle, or it is sent, or it is the one that
a message is for. -/
inductive Moves : TransactionEvent → Transaction → Option Transaction × List Output → Prop
  | idle (e : TransactionEvent) (t : Transaction) : Moves e t (some t, [])
  | send {tvSec : ℤ} {t t' : Transaction} {sent : List Output} {result : ℤ}
    (h : transactionSend tvSec t = .ok (t', sent, result)) :
    Moves (.send tvSec t.mID) t (if result = 0 then some t' else none, sent)
  | step {tvSec currentTime timeoutP : ℤ} {t t' : Transaction} {sent : List Output} {result : ℤ}
    (due : t.retransTime ≤ currentTime) (h : transactionSend tvSec t = .ok (t', sent, result)) :
    Moves (.step tvSec currentTime timeoutP) t (if result = 0 then some t' else none, sent)
  | response {tvSec : ℤ} {fromSessionH : Session} {message : Packet} {withResponse : Bool}
    {t : Transaction} (h : endsLoop fromSessionH message t = true) :
    Moves (.response tvSec fromSessionH message withResponse) t
      (respond tvSec fromSessionH message withResponse t)

variable {f : Focus Transaction} {buffer : List Byte} {r : Option Transaction × List Output}

/-- The unlinked transaction is the one at the pointer. -/
theorem transactionRemove_of_sorted (hsorted : l.Pairwise (·.mID < ·.mID)) (hf : f.list = l)
    (hmid : t.mID = f.here.mID) :
    transactionRemove { f with here := t } = .ok f.unlink := by
  rw [← hf, Focus.list] at hsorted
  refine transactionRemove_eq ?_
  rw [← List.pairwise_map (f := Transaction.mID) (R := (· < ·))] at hsorted ⊢
  simpa [Focus.list, Focus.set, hmid] using hsorted

/-- `transaction_handleResponse` on a list in order. -/
theorem transactionHandleResponse_eq (hsorted : l.Pairwise (·.mID < ·.mID))
    (hf : focusFirst (endsLoop fromSessionH message) l = some f) (withResponse : Bool) :
    let r := respond tvSec fromSessionH message withResponse f.here
    transactionHandleResponse tvSec l fromSessionH message withResponse =
      .ok (f.before ++ (r.1.toList ++ f.after), r.2, true) := by
  intro r
  obtain ⟨hlist, -, -⟩ := focusFirst_eq_some_iff.mp hf
  have hmid : (acknowledge message f.here).mID = f.here.mID := by
    unfold acknowledge
    split_ifs <;> rfl
  have hremove := transactionRemove_of_sorted hsorted hlist hmid
  unfold transactionHandleResponse
  rw [hf]
  show _ = Except.ok (f.before ++ ((respond tvSec fromSessionH message withResponse f.here).1.toList
    ++ f.after), (respond tvSec fromSessionH message withResponse f.here).2, true)
  unfold respond
  dsimp only
  rw [hremove]
  split_ifs <;> rfl

/-- A message that is for no transaction. -/
theorem transactionHandleResponse_of_none (hf : focusFirst (endsLoop fromSessionH message) l = none)
    (withResponse : Bool) :
    transactionHandleResponse tvSec l fromSessionH message withResponse = .ok (l, [], false) := by
  unfold transactionHandleResponse
  rw [hf]
  rfl

/-- The loop of `transaction_step` sends the transactions one by one. -/
theorem sideBySide_stepLoop {currentTime timeout : ℤ} {rest : List Transaction}
    {before : List Transaction} {timeoutP timeoutP' : ℤ}
    (h : stepLoop tvSec currentTime before rest timeoutP = .ok (l', out, timeoutP')) :
    ∃ l'', l' = before ++ l'' ∧
      SideBySide (Moves (.step tvSec currentTime timeout)) rest l'' out := by
  induction rest generalizing before timeoutP l' out with
  | nil =>
    cases h
    exact ⟨[], (List.append_nil _).symm, .nil⟩
  | cons t rest ih =>
    unfold stepLoop at h
    by_cases hdue : t.retransTime ≤ currentTime
    · rw [if_pos hdue] at h
      obtain ⟨⟨here, sent, removed⟩, hsend, h⟩ := bind_eq_ok_iff.mp h
      have hmove : Moves (.step tvSec currentTime timeout) t _ := .step hdue hsend
      dsimp only at h
      by_cases hremoved : removed = 0
      · rw [if_pos hremoved] at h
        obtain ⟨⟨l₁, out₁, timeout₁⟩, hloop, h⟩ := bind_eq_ok_iff.mp h
        cases h
        obtain ⟨l'', rfl, hside⟩ := ih hloop
        rw [if_pos hremoved] at hmove
        exact ⟨here :: l'', by simp, SideBySide.append (.singleton hmove) hside⟩
      · rw [if_neg hremoved] at h
        obtain ⟨_, _, h⟩ := bind_eq_ok_iff.mp h
        obtain ⟨⟨l₁, out₁, timeout₁⟩, hloop, h⟩ := bind_eq_ok_iff.mp h
        cases h
        obtain ⟨l'', rfl, hside⟩ := ih hloop
        rw [if_neg hremoved] at hmove
        exact ⟨l'', rfl, SideBySide.append (.singleton hmove) hside⟩
    · rw [if_neg hdue] at h
      obtain ⟨l'', rfl, hside⟩ := ih h
      have hmove := Moves.idle (.step tvSec currentTime timeout) t
      exact ⟨t :: l'', by simp, SideBySide.append (.singleton hmove) hside⟩

/-- **An event acts on the transactions one by one.** -/
theorem sideBySide_handleEvent {e : TransactionEvent × List Output} (hkept : WellKept l)
    (h : Takes l e l') : SideBySide (Moves e.1) l l' e.2 := by
  obtain ⟨e, out⟩ := e
  unfold Takes at h
  have hidle : ∀ l₀ : List Transaction, ∀ t ∈ l₀, Moves e t (some t, []) :=
    fun _ t _ => .idle e t
  cases e with
  | send tvSec mID =>
    unfold handleEvent at h
    cases hfocus : focusFirst (·.mID == mID) l with
    | none =>
      simp only [hfocus] at h
      cases h
      exact .idle (hidle l)
    | some f =>
      simp only [hfocus] at h
      obtain ⟨hlist, hhere, -⟩ := focusFirst_eq_some_iff.mp hfocus
      obtain rfl : f.here.mID = mID := by simpa using hhere
      obtain ⟨⟨l₁, sent, result₁⟩, hsend, h⟩ := bind_eq_ok_iff.mp h
      cases h
      obtain ⟨⟨here, sent, result⟩, hsent, hsend⟩ := bind_eq_ok_iff.mp hsend
      have hmove := Moves.send hsent
      have hone := SideBySide.one (hidle f.before) hmove (hidle f.after)
      rw [← hlist]
      dsimp only at hsend
      by_cases hresult : result = 0
      · rw [if_pos hresult] at hsend hone
        cases hsend
        exact hone
      · rw [if_neg hresult] at hsend hone
        rw [transactionRemove_of_sorted hkept.sorted hlist (kept_of_transactionSend hsent).1] at hsend
        cases hsend
        exact hone
  | step tvSec currentTime timeoutP =>
    obtain ⟨⟨l₁, sent, timeout₁⟩, hloop, h⟩ := bind_eq_ok_iff.mp h
    cases h
    obtain ⟨l'', rfl, hside⟩ := sideBySide_stepLoop hloop
    exact hside
  | response tvSec fromSessionH message withResponse =>
    cases hfocus : focusFirst (endsLoop fromSessionH message) l with
    | none =>
      rw [handleEvent_response (transactionHandleResponse_of_none hfocus withResponse)] at h
      cases h
      exact .idle (hidle l)
    | some f =>
      obtain ⟨hlist, hhere, -⟩ := focusFirst_eq_some_iff.mp hfocus
      rw [handleEvent_response (transactionHandleResponse_eq hkept.sorted hfocus withResponse)] at h
      cases h
      rw [← hlist]
      exact .one (hidle f.before) (.response hhere) (hidle f.after)

/-! ### What a transaction says of itself -/

/-- The fixed header of a datagram. -/
def datagramHeader : List Byte → Option Packet
  | b₀ :: code :: hi :: lo :: _ => some (headerPacket b₀ code hi lo)
  | _ => none

/-- The output hands a confirmable message with this message-id to the transport. -/
def isTransmission (mID : UInt16) : Output → Bool
  | .datagram _ buffer =>
    (datagramHeader buffer).any fun header => header.type == .con && header.mid == mID
  | .callback .. => false

/-- The output calls the callback of a transaction with this message-id. -/
def isCallback (mID : UInt16) : Output → Bool
  | .datagram .. => false
  | .callback _ transacP _ => transacP.mID == mID

/-- The output concerns the transaction with this message-id. -/
def concerns (mID : UInt16) (o : Output) : Bool := isTransmission mID o || isCallback mID o

/-- The message of a transaction has its message-id, and so has its buffer. -/
structure SelfNamed (t : Transaction) : Prop where
  message : t.message.mid = t.mID
  buffer : ∀ buffer, t.buffer = some buffer → (datagramHeader buffer).map Packet.mid = some t.mID

/-- The list is well kept, also in what its transactions send. -/
structure Prepared (l : List Transaction) : Prop where
  kept : WellKept l
  named : ∀ t ∈ l, SelfNamed t

/-- The message-id of a serialized message is in its header. -/
theorem datagramHeader_coapSerializeMessage (packet : Packet) :
    (datagramHeader (coapSerializeMessage packet)).map Packet.mid = some packet.mid := by
  show some (headerPacket _ _ _ _).mid = _
  exact congrArg some (mid_bytes packet.mid)

theorem isTransmission_of_mid {peerH : Session}
    (h : (datagramHeader buffer).map Packet.mid ≠ some mID) :
    isTransmission mID (.datagram peerH buffer) = false := by
  cases hheader : datagramHeader buffer with
  | none => simp [isTransmission, hheader]
  | some header =>
    rw [hheader] at h
    have hne : header.mid ≠ mID := fun heq => h (congrArg some heq)
    simp [isTransmission, hheader, hne]

/-- An empty acknowledgement is no transmission of a request. -/
theorem concerns_emptyAck (mID : UInt16) (message : Packet) (fromSessionH : Session) :
    concerns mID (emptyAck message fromSessionH) = false := by
  have htype : headerType (headerByte (coapInitMessage .ack 0 message.mid)) = .ack := by
    show headerType ((0x40 : Byte) ||| ((0x30 : Byte) &&& (MessageType.ack.field <<< 4).toUInt8) |||
      ((0x0F : Byte) &&& (0 : ℕ).toUInt8)) = .ack
    decide
  unfold concerns
  simp [emptyAck, isTransmission, isCallback, coapSerializeMessage, datagramHeader, headerPacket,
    htype]

theorem concerns_callCallback {message : Option Packet} (h : t.mID ≠ mID) :
    ∀ o ∈ callCallback t message, concerns mID o = false := by
  unfold callCallback
  cases t.callback with
  | none => simp
  | some callback => simp [concerns, isTransmission, isCallback, h]

/-- The buffer that is made, or was, has the message-id of its transaction. -/
theorem Buffered.selfNamed {u : Transaction} (h : Buffered t u buffer) (hnamed : SelfNamed t) :
    SelfNamed u ∧ (datagramHeader buffer).map Packet.mid = some t.mID := by
  cases h with
  | old hbuffer => exact ⟨hnamed, hnamed.buffer _ hbuffer⟩
  | new =>
    have hheader := datagramHeader_coapSerializeMessage t.message
    rw [hnamed.message] at hheader
    refine ⟨⟨hnamed.message, ?_⟩, hheader⟩
    rintro buffer ⟨rfl⟩
    exact hheader

/-- A transaction that is sent keeps its name, and its outputs concern no other one. -/
theorem selfNamed_transactionSend (h : transactionSend tvSec t = .ok (t', sent, result))
    (hnamed : SelfNamed t) :
    SelfNamed t' ∧ ∀ mID, t.mID ≠ mID → ∀ o ∈ sent, concerns mID o = false := by
  have hmid := (kept_of_transactionSend h).1
  rcases transactionSend_cases h with ⟨rfl, rfl, -, -⟩ | ⟨u, buffer, hbuffered, hcase⟩
  · exact ⟨hnamed, fun _ _ o ho => by cases ho⟩
  · obtain ⟨hnamed', hheader⟩ := hbuffered.selfNamed hnamed
    have hdatagram {mID : UInt16} (hne : t.mID ≠ mID) :
        concerns mID (.datagram u.peerH buffer) = false := by
      rw [concerns, isTransmission_of_mid (by rw [hheader]; simpa using hne)]
      rfl
    cases hcase with
    | acknowledged | exhausted => exact ⟨hnamed', fun _ hne => concerns_callCallback (hmid ▸ hne)⟩
    | first | again =>
      refine ⟨⟨hnamed'.message, hnamed'.buffer⟩, fun _ hne => ?_⟩
      exact List.forall_mem_singleton.mpr (hdatagram hne)
    | noClock =>
      refine ⟨⟨hnamed'.message, hnamed'.buffer⟩, fun _ hne => ?_⟩
      exact List.forall_mem_cons.mpr ⟨hdatagram hne, concerns_callCallback (hmid ▸ hne)⟩

/-- What a message leaves of a transaction. -/
theorem kept_of_acknowledge (message : Packet) (t : Transaction) :
    acknowledge message t = { t with ackReceived := (acknowledge message t).ackReceived } := by
  unfold acknowledge
  split_ifs <;> rfl

/-- What a message does with the transaction it is for. -/
inductive RespondCase (tvSec : ℤ) (fromSessionH : Session) (message : Packet) (t : Transaction) :
    Option Transaction × List Output → Prop
  | unauthorized {sent : List Output} (hcode : message.code = coap401Unauthorized)
    (hsent : ∀ o ∈ sent, o = emptyAck message fromSessionH) :
    RespondCase tvSec fromSessionH message t
      (some { t with ackReceived := false, retransTime := t.retransTime + coapResponseTimeout },
        sent)
  | finished {sent : List Output} (hsent : ∀ o ∈ sent, o = emptyAck message fromSessionH) :
    RespondCase tvSec fromSessionH message t
      (none, sent ++ callCallback (acknowledge message t) (some message))
  | waits (hends : prvCheckFinished (acknowledge message t) message = false) :
    RespondCase tvSec fromSessionH message t (some (waitForResponse tvSec (acknowledge message t)), [])

theorem respond_cases (tvSec : ℤ) (fromSessionH : Session) (message : Packet)
    (withResponse : Bool) (t : Transaction) : RespondCase tvSec fromSessionH message t
      (respond tvSec fromSessionH message withResponse t) := by
  have hkept := kept_of_acknowledge message t
  unfold respond
  dsimp only
  set sent := if (!(acknowledges message t && message.type == .rst) && message.type == .con &&
    withResponse) = true then [emptyAck message fromSessionH] else [] with hsent
  have hsent : ∀ o ∈ sent, o = emptyAck message fromSessionH := by
    rw [hsent]
    split_ifs <;> simp
  by_cases hfinished : (acknowledges message t && message.type == .rst ||
      prvCheckFinished (acknowledge message t) message) = true
  · rw [if_pos hfinished]
    split_ifs with hunauthorized
    · have hcode : message.code = coap401Unauthorized := by
        simp only [Bool.and_eq_true, beq_iff_eq] at hunauthorized
        exact hunauthorized.1.2
      rw [hkept]
      exact .unauthorized hcode hsent
    · exact .finished hsent
  · rw [if_neg hfinished]
    refine .waits ?_
    rw [Bool.or_eq_true, not_or] at hfinished
    exact Bool.eq_false_iff.mpr hfinished.2

/-- A transaction that a message is for keeps everything but its acknowledgement and its
time. -/
theorem kept_of_respond (h : respond tvSec fromSessionH message withResponse t = (some t', sent)) :
    t' = { t with ackReceived := t'.ackReceived, retransTime := t'.retransTime } := by
  have hcase := respond_cases tvSec fromSessionH message withResponse t
  rw [h] at hcase
  cases hcase with
  | unauthorized => rfl
  | waits =>
    rw [kept_of_acknowledge]
    rfl

/-- The outputs of a message for a transaction concern no other one. -/
theorem concerns_respond (hne : t.mID ≠ mID) :
    ∀ o ∈ (respond tvSec fromSessionH message withResponse t).2, concerns mID o = false := by
  have hack := concerns_emptyAck mID message fromSessionH
  have hcase := respond_cases tvSec fromSessionH message withResponse t
  generalize respond tvSec fromSessionH message withResponse t = r at hcase
  cases hcase with
  | unauthorized _ hsent => exact fun o ho => hsent o ho ▸ hack
  | finished hsent =>
    intro o ho
    rcases List.mem_append.mp ho with ho | ho
    · exact hsent o ho ▸ hack
    · refine concerns_callCallback ?_ o ho
      rwa [kept_of_acknowledge]
  | waits => exact fun o ho => by cases ho

/-- **What a move keeps**: the message-id, the peer, the callback and the message. -/
theorem kept_of_moves (h : Moves e t (some t', out)) :
    t'.mID = t.mID ∧ t'.peerH = t.peerH ∧ t'.callback = t.callback ∧
      (t'.message = t.message ∨ t'.message = t.message.serialized) := by
  generalize hr : (some t', out) = r at h
  cases h with
  | idle =>
    cases hr
    exact ⟨rfl, rfl, rfl, .inl rfl⟩
  | send hsend | step _ hsend =>
    split_ifs at hr
    · cases hr
      exact kept_of_transactionSend hsend
    · cases hr
  | response =>
    rw [kept_of_respond hr.symm]
    exact ⟨rfl, rfl, rfl, .inl rfl⟩

/-- A move keeps the name of a transaction, and its outputs concern no other one. -/
theorem selfNamed_of_moves (h : Moves e t r) (hnamed : SelfNamed t) :
    (∀ t', r.1 = some t' → SelfNamed t') ∧
      ∀ mID, t.mID ≠ mID → ∀ o ∈ r.2, concerns mID o = false := by
  cases h with
  | idle => exact ⟨fun t' h => Option.some.inj h ▸ hnamed, fun _ _ o ho => by cases ho⟩
  | send hsend =>
    obtain ⟨hnamed', hout⟩ := selfNamed_transactionSend hsend hnamed
    refine ⟨fun t' h => ?_, hout⟩
    split_ifs at h
    exact Option.some.inj h ▸ hnamed'
  | step _ hsend =>
    obtain ⟨hnamed', hout⟩ := selfNamed_transactionSend hsend hnamed
    refine ⟨fun t' h => ?_, hout⟩
    split_ifs at h
    exact Option.some.inj h ▸ hnamed'
  | response =>
    refine ⟨fun t' h => ?_, fun _ hne => concerns_respond hne⟩
    rw [kept_of_respond (Prod.ext h rfl)]
    exact ⟨hnamed.message, hnamed.buffer⟩

/-- **An event keeps the list prepared.** -/
theorem Takes.prepared {e : TransactionEvent × List Output} (h : Takes l e l') (hl : Prepared l) :
    Prepared l' := by
  have hside := sideBySide_handleEvent hl.kept h
  have hkeys := hside.sublist_keys fun _ _ _ hmove => (kept_of_moves hmove).1
  have hsorted := List.pairwise_map.mpr hl.kept.sorted
  have hnamed : ∀ t ∈ l', SelfNamed t := by
    intro t' ht'
    obtain ⟨t, ht, out, hmove⟩ := hside.exists_of_mem ht'
    exact (selfNamed_of_moves hmove (hl.named t ht)).1 t' rfl
  exact ⟨⟨List.pairwise_map.mp (hsorted.sublist hkeys), fun t ht => (hnamed t ht).message⟩, hnamed⟩

/-- The transactions of a list are machines side by side, named by their message-ids. -/
theorem machines (mID : UInt16) :
    Machines Moves Transaction.mID Takes Prepared mID (concerns mID) where
  keeps _ _ _ _ h := (kept_of_moves h).1
  nodup _ h := List.pairwise_map.mpr (h.kept.sorted.imp UInt16.ne_of_lt)
  moves _ _ _ h hstep := sideBySide_handleEvent h.kept hstep
  invariant _ _ _ h hstep := hstep.prepared h
  others _ h t ht hne _ _ hmove := (selfNamed_of_moves hmove (h.named t ht)).2 mID hne

/-! ### Counting -/

/-- How often a transaction can still be transmitted. -/
def transmissionsLeft : Option Transaction → ℕ
  | some t => if t.retransCounter = 0 then 5 else 6 - t.retransCounter.toNat
  | none => 0

/-- How often the callback of a transaction can still be called. -/
def callbacksLeft : Option Transaction → ℕ
  | some _ => 1
  | none => 0

theorem countP_callCallback_transmission (mID : UInt16) (t : Transaction)
    (message : Option Packet) : (callCallback t message).countP (isTransmission mID) = 0 := by
  unfold callCallback
  cases t.callback <;> simp [isTransmission]

theorem countP_callCallback_callback (mID : UInt16) (t : Transaction) (message : Option Packet) :
    (callCallback t message).countP (isCallback mID) ≤ 1 := by
  unfold callCallback
  cases t.callback with
  | none => simp
  | some callback => exact List.countP_le_length

/-- A transmission is paid by the counter. -/
theorem transmissionsLeft_transactionSend (h : transactionSend tvSec t = .ok (t', sent, result))
    (mID : UInt16) :
    sent.countP (isTransmission mID) +
      transmissionsLeft (if result = 0 then some t' else none) ≤ transmissionsLeft (some t) := by
  rcases transactionSend_cases h with ⟨rfl, rfl, hresult, -⟩ | ⟨u, buffer, hbuffered, hcase⟩
  · rw [if_neg hresult]
    simp [transmissionsLeft]
  · have hcounter : u.retransCounter = t.retransCounter := by cases hbuffered <;> rfl
    have hone (b : List Byte) : [Output.datagram u.peerH b].countP (isTransmission mID) ≤ 1 :=
      List.countP_le_length
    cases hcase with
    | acknowledged | exhausted =>
      rw [countP_callCallback_transmission]
      simp [transmissionsLeft]
    | first _ hzero =>
      have hbuffer := hone buffer
      rw [hcounter] at hzero
      simp only [transmissionsLeft, hzero, if_true]
      rw [if_neg (by decide)]
      have htwo : (2 : UInt8).toNat = 2 := rfl
      omega
    | noClock _ hzero =>
      have hbuffer := hone buffer
      rw [hcounter] at hzero
      rw [← List.singleton_append, List.countP_append, countP_callCallback_transmission,
        if_neg (by decide)]
      simp only [transmissionsLeft, hzero, if_true]
      omega
    | again _ hne hle =>
      have hbuffer := hone buffer
      rw [hcounter] at hne hle
      have hle : t.retransCounter.toNat ≤ 5 := UInt8.le_iff_toNat_le.mp hle
      have hnext : (u.retransCounter + 1).toNat = t.retransCounter.toNat + 1 := by
        rw [hcounter, UInt8.toNat_add, UInt8.toNat_one]
        omega
      have hnextNe : u.retransCounter + 1 ≠ 0 := by
        intro h
        rw [h] at hnext
        exact absurd hnext (by simp)
      simp only [transmissionsLeft, if_true, if_neg hne, if_neg hnextNe, hnext]
      omega

/-- A message for a transaction transmits nothing and calls the callback at the end only. -/
theorem left_respond (t : Transaction) (mID : UInt16) :
    let r := respond tvSec fromSessionH message withResponse t
    r.2.countP (isTransmission mID) + transmissionsLeft r.1 ≤ transmissionsLeft (some t) ∧
      r.2.countP (isCallback mID) + callbacksLeft r.1 ≤ 1 := by
  have hack := concerns_emptyAck mID message fromSessionH
  rw [concerns, Bool.or_eq_false_iff] at hack
  have hnone {sent : List Output} (hsent : ∀ o ∈ sent, o = emptyAck message fromSessionH) :
      sent.countP (isTransmission mID) = 0 ∧ sent.countP (isCallback mID) = 0 := by
    rw [List.countP_eq_zero, List.countP_eq_zero]
    refine ⟨fun o ho => ?_, fun o ho => ?_⟩ <;> rw [hsent o ho] <;> simp [hack]
  have hcase := respond_cases tvSec fromSessionH message withResponse t
  generalize respond tvSec fromSessionH message withResponse t = r at hcase
  cases hcase with
  | unauthorized _ hsent =>
    obtain ⟨htransmission, hcallback⟩ := hnone hsent
    simp [htransmission, hcallback, transmissionsLeft, callbacksLeft]
  | finished hsent =>
    obtain ⟨htransmission, hcallback⟩ := hnone hsent
    have hone := countP_callCallback_callback mID (acknowledge message t) (some message)
    simp only [List.countP_append, htransmission, hcallback, countP_callCallback_transmission]
    refine ⟨Nat.zero_le _, ?_⟩
    simpa [callbacksLeft] using hone
  | waits =>
    rw [kept_of_acknowledge]
    simp [transmissionsLeft, callbacksLeft, waitForResponse]

/-- A send calls the callback at the end only. -/
theorem callbacksLeft_transactionSend (h : transactionSend tvSec t = .ok (t', sent, result))
    (mID : UInt16) :
    sent.countP (isCallback mID) + callbacksLeft (if result = 0 then some t' else none) ≤ 1 := by
  rcases transactionSend_cases h with ⟨rfl, rfl, hresult, -⟩ | ⟨u, buffer, -, hcase⟩
  · rw [if_neg hresult]
    simp [callbacksLeft]
  · cases hcase with
    | acknowledged | exhausted => exact countP_callCallback_callback mID _ none
    | first | again => simp [isCallback, callbacksLeft]
    | noClock =>
      rw [List.countP_cons_of_neg (by simp [isCallback])]
      exact countP_callCallback_callback mID _ none

/-- **A move is paid**: each transmission lowers the number of those left, and a callback is
the last thing a transaction does. -/
theorem left_moves (h : Moves e t r) (mID : UInt16) :
    r.2.countP (isTransmission mID) + transmissionsLeft r.1 ≤ transmissionsLeft (some t) ∧
      r.2.countP (isCallback mID) + callbacksLeft r.1 ≤ callbacksLeft (some t) := by
  cases h with
  | idle => simp [callbacksLeft]
  | send hsend | step _ hsend =>
    exact ⟨transmissionsLeft_transactionSend hsend mID, callbacksLeft_transactionSend hsend mID⟩
  | response => exact left_respond t mID

/-! ### The schedule -/

/-- How an event changes the time at which a transaction is sent next.  The intervals are
`COAP_RESPONSE_TIMEOUT` = 2 seconds after the first transmission, and 2 to the power of the counter after
each later one. -/
inductive Reschedules (e : TransactionEvent) (t t' : Transaction) : Prop
  | unchanged (hcounter : t'.retransCounter = t.retransCounter)
    (htime : t'.retransTime = t.retransTime)
  | first {tvSec : ℤ} (hcounter : t.retransCounter = 0) (hcounter' : t'.retransCounter = 2)
    (htime : t'.retransTime = tvSec + 2)
  | again (hcounter : t.retransCounter ≠ 0) (hcounter' : t'.retransCounter = t.retransCounter + 1)
    (htime : t'.retransTime = t.retransTime + 2 ^ t.retransCounter.toNat)
  | unauthorized {tvSec : ℤ} {fromSessionH : Session} {message : Packet} {withResponse : Bool}
    (he : e = .response tvSec fromSessionH message withResponse)
    (hcode : message.code = coap401Unauthorized) (hcounter : t'.retransCounter = t.retransCounter)
    (htime : t'.retransTime = t.retransTime + 2)
  | acknowledged (hack : t'.ackReceived = true) (hcounter : t'.retransCounter = t.retransCounter)

theorem reschedules_transactionSend (h : transactionSend tvSec t = .ok (t', sent, 0))
    (e : TransactionEvent) :
    Reschedules e t t' := by
  rcases transactionSend_cases h with ⟨-, -, hresult, -⟩ | ⟨u, buffer, hbuffered, hcase⟩
  · exact absurd rfl hresult
  · have hcounter : u.retransCounter = t.retransCounter := by cases hbuffered <;> rfl
    have htime : u.retransTime = t.retransTime := by cases hbuffered <;> rfl
    cases hcase with
    | first _ hzero => exact .first (hcounter ▸ hzero) rfl rfl
    | again _ hne =>
      have hpos : t.retransCounter.toNat ≠ 0 :=
        fun h => hne (hcounter.trans (UInt8.toNat_inj.mp h))
      refine .again (hcounter ▸ hne) ?_ ?_
      · rw [hcounter]
      · show u.retransTime + coapResponseTimeout * 2 ^ (u.retransCounter.toNat - 1) = _
        rw [hcounter, htime]
        obtain ⟨n, hn⟩ := Nat.exists_eq_succ_of_ne_zero hpos
        rw [hn, Nat.succ_eq_add_one, Nat.add_sub_cancel, pow_succ, coapResponseTimeout, mul_comm]

/-- **Every move keeps the schedule.** -/
theorem reschedules_of_moves (h : Moves e t (some t', out)) : Reschedules e t t' := by
  generalize hr : (some t', out) = r at h
  cases h with
  | idle =>
    cases hr
    exact .unchanged rfl rfl
  | send hsend =>
    split_ifs at hr with hresult
    · cases hr
      exact reschedules_transactionSend (hresult ▸ hsend) _
    · cases hr
  | step _ hsend =>
    split_ifs at hr with hresult
    · cases hr
      exact reschedules_transactionSend (hresult ▸ hsend) _
    · cases hr
  | @response tvSec fromSessionH message withResponse _ hends =>
    have hcase := respond_cases tvSec fromSessionH message withResponse t
    rw [← hr] at hcase
    cases hcase with
    | unauthorized hcode => exact .unauthorized rfl hcode rfl rfl
    | waits hunfinished =>
      -- the loop ended here, so the message acknowledged the transaction
      have hack : acknowledges message t = true := by
        rw [endsLoop, Bool.and_eq_true, hunfinished, Bool.or_false] at hends
        exact hends.2
      have hacknowledge : acknowledge message t = { t with ackReceived := true } := by
        rw [acknowledge, if_pos hack]
      rw [hacknowledge]
      exact .acknowledged rfl rfl

/-- The transaction is a new one with what its creator sets before it is listed. -/
def Filled (created t : Transaction) : Prop :=
  ∃ message payload callback userData responseTimeout,
    t = { created with message, payload, callback, userData, responseTimeout }

theorem retransCounter_of_transactionNew {sessionH : Session} {method : Code}
    {altPath : Option CString} {uriP : Option Uri} {token : List Byte} {created : Transaction}
    (hnew : transactionNew sessionH method altPath uriP mID token = some created)
    (hfilled : Filled created t) : t.retransCounter = 0 := by
  obtain ⟨message, payload, callback, userData, responseTimeout, rfl⟩ := hfilled
  unfold transactionNew at hnew
  split_ifs at hnew
  all_goals
    cases hnew
    rfl

/-- The transaction of a well kept list with its message-id. -/
theorem WellKept.hasAt (h : WellKept l) (ht : t ∈ l) :
    HasAt Transaction.mID t.mID l (some t) := by
  intro t'
  refine ⟨fun ⟨ht', hmid⟩ => congrArg some (h.eq_of_mID ht ht' hmid.symm), ?_⟩
  rintro ⟨rfl⟩
  exact ⟨ht, rfl⟩

/-- **A run is paid**, at each message-id. -/
theorem left_run (hl : Prepared l) {events : List (TransactionEvent × List Output)}
    (hrun : Run Takes l events l') {x : Option Transaction} (hat : HasAt Transaction.mID mID l x) :
    ∃ x', HasAt Transaction.mID mID l' x' ∧
      (outputs events).countP (isTransmission mID) + transmissionsLeft x' ≤ transmissionsLeft x ∧
      (outputs events).countP (isCallback mID) + callbacksLeft x' ≤ callbacksLeft x := by
  obtain ⟨own, x', hown, hat', -, hout⟩ := (machines mID).exists_tracked hl hrun hat
  have hcount {p : Output → Bool} (hp : ∀ o, p o = true → concerns mID o = true) :
      (outputs events).countP p = (outputs own).countP p := by
    have hfilter (l : List Output) : (l.filter (concerns mID)).countP p = l.countP p := by
      rw [List.countP_filter]
      refine List.countP_congr fun o _ => ?_
      rw [Bool.and_eq_true]
      exact ⟨fun h => h.1, fun h => ⟨h, hp o h⟩⟩
    rw [← hfilter, hout, hfilter]
  refine ⟨x', hat', ?_, ?_⟩
  · rw [hcount fun o h => by rw [concerns, h, Bool.true_or]]
    exact countP_outputs_le (fun _ _ _ h => (left_moves h mID).1) hown
  · rw [hcount fun o h => by rw [concerns, h, Bool.or_true]]
    exact countP_outputs_le (fun _ _ _ h => (left_moves h mID).2) hown

/-- A new request `GET` with a callback. -/
def getRequest : Transaction where
  mID := 7
  peerH := some 1
  message := (coapInitMessage .con 1 7).coapSetHeaderToken [1]
  callback := some 0

theorem filled_getRequest : ∃ created,
    transactionNew (some 1) 1 none none 7 [1] = some created ∧ Filled created getRequest :=
  ⟨_, rfl, _, _, _, _, _, rfl⟩

theorem prepared_getRequest : Prepared [getRequest] := by
  refine ⟨⟨List.pairwise_singleton _ _, ?_⟩, ?_⟩
  · exact List.forall_mem_singleton.mpr rfl
  · exact List.forall_mem_singleton.mpr ⟨rfl, fun _ h => by cases h⟩

/-- A response 4.01 to the request. -/
def unauthorizedResponse : TransactionEvent :=
  .response 0 (some 1) ((coapInitMessage .ack coap401Unauthorized 7).coapSetHeaderToken [1]) false

/-- The request once it was sent. -/
def getRequestAt (retransCounter : UInt8) (retransTime : ℤ) : Transaction :=
  { withBuffer getRequest with retransCounter, retransTime }

/-- The request handed to the transport. -/
def getRequestSent : Output := .datagram (some 1) (coapSerializeMessage getRequest.message)

end Lwm2m.Core

/-
# Separate responses

A server may acknowledge a request first and send its response later, as a message of its
own.  The comment at the head of `coap/transaction.c` says that such a response finishes the
transaction when it has the token of the request.  `prv_checkFinished` compares the
message-ids first, however, so a response finishes the transaction only if its message-id, which
the server chose, is by chance that of the request (`separateResponse_finishes_iff`).
-/

import Lwm2m.Core.Retransmission

namespace Lwm2m.Core

open Coap Code Library

/-- The token that `coap_get_header_token` returns. -/
def responseToken (message : Packet) : List Byte :=
  if message.isOption .token then message.token else []

/-- The transaction is a request with a token. -/
structure PendingRequest (t : Transaction) : Prop where
  code : t.message.code ≤ 4
  token : t.message.isOption .token = true

/-- The message is a confirmable or a non-confirmable one. -/
def IsSeparate (message : Packet) : Prop := message.type = .con ∨ message.type = .non

/-- A message finishes a transaction: its callback is called once, with the message, and it
leaves the list. -/
def FinishedBy (t : Transaction) (message : Packet) (l' : List Transaction) (out : List Output) :
    Prop :=
  out.filter (isCallback t.mID) = callCallback t (some message) ∧ ∀ t' ∈ l', t'.mID ≠ t.mID

variable {message : Packet} {fromSessionH : Session} {t : Transaction} {l l' : List Transaction}
  {events : List (TransactionEvent × List Output)}

/-- A separate response acknowledges nothing. -/
theorem acknowledges_of_isSeparate (h : IsSeparate message) (t : Transaction) :
    acknowledges message t = false := by
  unfold acknowledges
  rcases h with h | h <;> rw [h] <;> simp

/-- What the loop of `transaction_handleResponse` ends at has the message-id. -/
theorem mID_of_endsLoop (hmid : t.message.mid = t.mID)
    (h : endsLoop fromSessionH message t = true) :
    t.mID = message.mid := by
  rw [endsLoop, Bool.and_eq_true, Bool.or_eq_true] at h
  rcases h.2 with hack | hfinished
  · rw [acknowledges, Bool.and_eq_true, beq_iff_eq] at hack
    exact hack.2
  · rw [← hmid, ← acknowledge_message message t]
    exact mid_of_prvCheckFinished hfinished

/-- A separate response is for a request exactly if it comes from its peer with its message-id
and its token. -/
theorem endsLoop_iff (h : IsSeparate message) (hpending : PendingRequest t)
    (hmid : t.message.mid = t.mID) :
    endsLoop t.peerH message t = true ↔
      message.mid = t.mID ∧ responseToken message = t.message.token := by
  have hack := acknowledges_of_isSeparate h t
  have hcode : ¬ 4 < t.message.code := UInt8.not_lt.mpr hpending.code
  have hsame : acknowledge message t = t := by
    rw [acknowledge, if_neg (by rw [hack]; exact Bool.false_ne_true)]
  rw [endsLoop, hack, hsame, Bool.false_or, prvCheckFinished]
  rw [if_neg hcode, hpending.token, hmid]
  by_cases hne : t.mID ≠ message.mid
  · rw [if_pos hne, Bool.and_false]
    exact iff_of_false Bool.false_ne_true fun h => hne h.1.symm
  · rw [if_neg hne]
    have heq : message.mid = t.mID := (not_not.mp hne).symm
    rw [lwm2mSessionIsEqual, beq_self_eq_true, Bool.true_and, Bool.not_true,
      if_neg Bool.false_ne_true, beq_iff_eq]
    exact ⟨fun h => ⟨heq, h.symm⟩, fun h => h.2.symm⟩

/-- The loop of `transaction_handleResponse` ends at the only transaction it can end at. -/
theorem focusFirst_of_endsLoop (hl : WellKept l) (ht : t ∈ l)
    (hends : endsLoop fromSessionH message t = true) :
    ∃ f, focusFirst (endsLoop fromSessionH message) l = some f ∧ f.list = l ∧ f.here = t := by
  obtain ⟨f, hf⟩ : ∃ f, focusFirst (endsLoop fromSessionH message) l = some f := by
    rw [← Option.isSome_iff_exists, Option.isSome_iff_ne_none]
    exact fun hnone => focusFirst_eq_none_iff.mp hnone t ht hends
  obtain ⟨hlist, hhere, -⟩ := focusFirst_eq_some_iff.mp hf
  have hmem : f.here ∈ l := hlist ▸ f.here_mem_list
  refine ⟨f, hf, hlist, hl.eq_of_mID hmem ht ?_⟩
  rw [mID_of_endsLoop (hl.mid _ hmem) hhere, mID_of_endsLoop (hl.mid _ ht) hends]

/-- A transaction that a message is not for stays as it is. -/
theorem mem_of_not_endsLoop (hl : WellKept l) (ht : t ∈ l)
    (hends : ¬ endsLoop fromSessionH message t = true) (tvSec : ℤ) (withResponse : Bool) :
    ∃ l' out found, transactionHandleResponse tvSec l fromSessionH message withResponse =
      .ok (l', out, found) ∧ t ∈ l' := by
  cases hf : focusFirst (endsLoop fromSessionH message) l with
  | none =>
    exact ⟨l, [], false, transactionHandleResponse_of_none hf withResponse, ht⟩
  | some f =>
    obtain ⟨hlist, hhere, -⟩ := focusFirst_eq_some_iff.mp hf
    refine ⟨_, _, _, transactionHandleResponse_eq hl.sorted hf withResponse, ?_⟩
    rw [← hlist, Focus.mem_list] at ht
    rcases ht with rfl | ht
    · exact absurd hhere hends
    · rw [Focus.unlink, List.mem_append] at ht
      rw [List.mem_append, List.mem_append]
      exact ht.imp_right .inr

/-- A separate response for a request finishes it, or it is a 4.01 after which the request is sent
again. -/
theorem respond_of_isSeparate (h : IsSeparate message) (hends : endsLoop t.peerH message t = true)
    (tvSec : ℤ) (withResponse : Bool) :
    let r := respond tvSec t.peerH message withResponse t
    if message.code = coap401Unauthorized ∧ t.retransCounter < coapMaxRetransmit then
      ∃ t', r.1 = some t' ∧ t'.mID = t.mID
    else r.1 = none ∧ r.2.filter (isCallback t.mID) = callCallback t (some message) := by
  intro r
  have hack := acknowledges_of_isSeparate h t
  have hsame : acknowledge message t = t := by
    rw [acknowledge, if_neg (by rw [hack]; exact Bool.false_ne_true)]
  have hfinished : prvCheckFinished t message = true := by
    rw [endsLoop, hack, hsame, Bool.false_or, Bool.and_eq_true] at hends
    exact hends.2
  have hr : r = respond tvSec t.peerH message withResponse t := rfl
  unfold respond at hr
  dsimp only at hr
  rw [hack, hsame, hfinished] at hr
  simp only [Bool.false_and, Bool.not_false, Bool.true_and, Bool.or_true, if_true] at hr
  by_cases hunauthorized : message.code = coap401Unauthorized ∧
      t.retransCounter < coapMaxRetransmit
  · rw [if_pos hunauthorized]
    rw [if_pos (by simp [hunauthorized])] at hr
    rw [hr]
    exact ⟨_, rfl, rfl⟩
  · rw [if_neg hunauthorized]
    rw [if_neg (by simpa using hunauthorized)] at hr
    have hcallback : (callCallback t (some message)).filter (isCallback t.mID) =
        callCallback t (some message) := by
      refine List.filter_eq_self.mpr ?_
      unfold callCallback
      cases t.callback <;> simp [isCallback]
    rw [hr, List.filter_append, hcallback]
    refine ⟨rfl, ?_⟩
    split_ifs <;> simp [emptyAck, isCallback]

/-- What stays of a request while it is pending. -/
structure SameTransaction (t t' : Transaction) : Prop where
  peerH : t'.peerH = t.peerH
  code : t'.message.code = t.message.code
  token : t'.message.token = t.message.token
  isOption : ∀ o, t'.message.isOption o = t.message.isOption o

/-- A run leaves a pending request the same request. -/
theorem sameTransaction_run (hl : Prepared l) (ht : t ∈ l) (hrun : Run Takes l events l') :
    Prepared l' ∧ ∀ t' ∈ l', t'.mID = t.mID → SameTransaction t t' := by
  refine hrun.invariant (I := fun l => Prepared l ∧ ∀ t' ∈ l, t'.mID = t.mID →
    SameTransaction t t') (fun l e l' hinv hstep => ⟨hstep.prepared hinv.1, ?_⟩) ⟨hl, ?_⟩
  · intro t'' ht'' hmid
    obtain ⟨t', ht', out, hmove⟩ := (sideBySide_handleEvent hinv.1.kept hstep).exists_of_mem ht''
    obtain ⟨hmid', hpeer, -, hmessage⟩ := kept_of_moves hmove
    have hsame := hinv.2 t' ht' (hmid'.symm.trans hmid)
    rcases hmessage with hmessage | hmessage
    · refine ⟨hpeer.trans hsame.peerH, ?_, ?_, ?_⟩ <;> rw [hmessage]
      · exact hsame.code
      · exact hsame.token
      · exact hsame.isOption
    · refine ⟨hpeer.trans hsame.peerH, ?_, ?_, ?_⟩ <;> rw [hmessage]
      · exact hsame.code
      · exact hsame.token
      · exact hsame.isOption
  · intro t' ht' hmid
    rw [hl.kept.eq_of_mID ht' ht hmid]
    exact ⟨rfl, rfl, rfl, fun _ => rfl⟩

/-- While a transaction is on the list its callback was not called. -/
theorem not_isCallback_of_mem (hl : Prepared l) (ht : t ∈ l) (hrun : Run Takes l events l')
    {t' : Transaction} (ht' : t' ∈ l') (hmid : t'.mID = t.mID) :
    ∀ o ∈ outputs events, isCallback t.mID o = false := by
  obtain ⟨x', hat', -, hcallbacks⟩ := left_run hl hrun (hl.kept.hasAt ht)
  rw [(hat' t').mp ⟨ht', hmid⟩] at hcallbacks
  have hnone : (outputs events).countP (isCallback t.mID) = 0 := by
    simp only [callbacksLeft] at hcallbacks
    omega
  exact fun o ho => Bool.eq_false_iff.mpr (List.countP_eq_zero.mp hnone o ho)

/-- When no transaction has a message-id, no callback is called for it. -/
theorem not_isCallback_of_absent (hl : Prepared l) {mID : UInt16} (habsent : ∀ t ∈ l, t.mID ≠ mID)
    (hrun : Run Takes l events l') : ∀ o ∈ outputs events, isCallback mID o = false := by
  have hat : HasAt Transaction.mID mID l none := by
    intro t
    exact iff_of_false (fun h => habsent t h.1 h.2) (Option.some_ne_none t).symm
  obtain ⟨x', -, -, hcallbacks⟩ := left_run hl hrun hat
  have hnone : (outputs events).countP (isCallback mID) = 0 := by
    simp only [callbacksLeft] at hcallbacks
    omega
  exact fun o ho => Bool.eq_false_iff.mpr (List.countP_eq_zero.mp hnone o ho)

/-- No other transaction has the message-id of one. -/
theorem mID_ne_of_unlink (hl : WellKept l) {f : Focus Transaction} (hf : f.list = l) :
    ∀ t ∈ f.unlink, t.mID ≠ f.here.mID := by
  have hsorted := hl.sorted
  rw [← hf, Focus.list, Focus.set, List.pairwise_append, List.pairwise_cons] at hsorted
  obtain ⟨-, ⟨hafter, -⟩, hbefore⟩ := hsorted
  intro t ht
  rcases List.mem_append.mp ht with ht | ht
  · exact UInt16.ne_of_lt (hbefore t ht f.here List.mem_cons_self)
  · exact (UInt16.ne_of_lt (hafter t ht)).symm

/-- **Separate responses.**  In every run over a pending request, whatever came before, its
callback was not called; a separate response from its peer finishes it if and only if this has
the token and also the message-id of the request and is not a 4.01 after which the request is
sent again; and once it is finished, its callback is not called again. -/
theorem separateResponse_finishes_iff {l l' : List Transaction} (hl : Prepared l)
    {t : Transaction} (ht : t ∈ l) (hpending : PendingRequest t)
    {events : List (TransactionEvent × List Output)} (hrun : Run Takes l events l')
    {t' : Transaction} (ht' : t' ∈ l') (hmid : t'.mID = t.mID) {message : Packet}
    (hseparate : IsSeparate message) (tvSec : ℤ) (withResponse : Bool) :
    (∀ o ∈ outputs events, isCallback t.mID o = false) ∧
      ∃ l'' out found, transactionHandleResponse tvSec l' t.peerH message withResponse =
          .ok (l'', out, found) ∧
        (FinishedBy t' message l'' out ↔
          (responseToken message = t.message.token ∧ message.mid = t.mID ∧
            ¬ (message.code = coap401Unauthorized ∧ t'.retransCounter < coapMaxRetransmit))) ∧
        (FinishedBy t' message l'' out → ∀ later l₃, Run Takes l'' later l₃ →
          ∀ o ∈ outputs later, isCallback t.mID o = false) := by
  obtain ⟨hl', hsame⟩ := sameTransaction_run hl ht hrun
  have hsame := hsame t' ht' hmid
  have hpending' : PendingRequest t' :=
    ⟨hsame.code ▸ hpending.code, (hsame.isOption _).trans hpending.token⟩
  refine ⟨not_isCallback_of_mem hl ht hrun ht' hmid, ?_⟩
  have hiff := endsLoop_iff hseparate hpending' (hl'.kept.mid t' ht')
  rw [hsame.token, hmid] at hiff
  rw [← hsame.peerH]
  by_cases hends : endsLoop t'.peerH message t' = true
  · obtain ⟨hmessage, htoken⟩ := hiff.mp hends
    obtain ⟨f, hf, hlist, rfl⟩ := focusFirst_of_endsLoop hl'.kept ht' hends
    have hrespond := respond_of_isSeparate hseparate hends tvSec withResponse
    have hstep : Takes l' (.response tvSec f.here.peerH message withResponse, _) _ :=
      handleEvent_response (transactionHandleResponse_eq hl'.kept.sorted hf withResponse)
    refine ⟨_, _, _, transactionHandleResponse_eq hl'.kept.sorted hf withResponse, ?_, fun hfinished => ?_⟩
    · split_ifs at hrespond with hunauthorized
      · obtain ⟨again, hagain, hmidAgain⟩ := hrespond
        refine iff_of_false (fun h => h.2 again ?_ hmidAgain) fun h => h.2.2 hunauthorized
        rw [hagain]
        simp
      · obtain ⟨hnone, hcallback⟩ := hrespond
        refine iff_of_true ⟨hcallback, ?_⟩ ⟨htoken, hmessage, hunauthorized⟩
        rw [hnone]
        exact mID_ne_of_unlink hl'.kept hlist
    · intro later l₃ hlater
      rw [← hmid]
      exact not_isCallback_of_absent (hstep.prepared hl') hfinished.2 hlater
  · obtain ⟨l'', out, found, hresponse, hmem⟩ :=
      mem_of_not_endsLoop hl'.kept ht' hends tvSec withResponse
    have hnot : ¬ FinishedBy t' message l'' out := fun h => h.2 t' hmem rfl
    refine ⟨l'', out, found, hresponse, iff_of_false hnot ?_, fun h => absurd h hnot⟩
    rintro ⟨htoken, hmessage, -⟩
    exact hends (hiff.mpr ⟨hmessage, htoken⟩)

/-- The separate response 2.05 to the request. -/
def contentResponse (mid : UInt16) : Packet :=
  (coapInitMessage .con coap205Content mid).coapSetHeaderToken [1]

/-- **A separate response is ignored.**  The request is sent and acknowledged by an empty message;
then its response comes, confirmable, with the token of the request and message-id 9. -/
theorem contentResponse_ignored : ∃ l,
    Run Takes [getRequest] [(.send 0 7, [getRequestSent]),
      (.response 1 (some 1) (coapInitMessage .ack 0 7) true, [])] l ∧
      IsSeparate (contentResponse 9) ∧
      responseToken (contentResponse 9) = getRequest.message.token ∧
      transactionHandleResponse 2 l (some 1) (contentResponse 9) true = .ok (l, [], false) := by
  have hsend : Takes [getRequest] (.send 0 7, [getRequestSent]) [getRequestAt 2 2] := rfl
  have hack : Takes [getRequestAt 2 2] (.response 1 (some 1) (coapInitMessage .ack 0 7) true, [])
    [{ getRequestAt 2 5 with ackReceived := true }] := rfl
  exact ⟨_, .cons hsend (.cons hack (.nil _)), .inl rfl, rfl, rfl⟩

/-- A separate response that has the message-id of the request. -/
theorem contentResponse_finishes : ∃ l out found,
    transactionHandleResponse 2 [getRequest] (some 1) (contentResponse 7) true =
      .ok (l, out, found) ∧ FinishedBy getRequest (contentResponse 7) l out := by
  obtain ⟨-, l, out, found, hresponse, hiff, -⟩ :=
    separateResponse_finishes_iff prepared_getRequest (List.mem_singleton.mpr rfl)
      ⟨by decide, by decide⟩ (.nil _) (List.mem_singleton.mpr rfl) rfl
      (show IsSeparate (contentResponse 7) from .inl rfl) 2 true
  exact ⟨l, out, found, hresponse, hiff.mpr ⟨rfl, rfl, by decide⟩⟩

end Lwm2m.Core

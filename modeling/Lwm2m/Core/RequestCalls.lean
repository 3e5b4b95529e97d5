/-
# The owner of the records of requests

A record is to be freed once, with the last transaction that has it, and a transaction that ends by
a reply, a reset or a timeout is to call the user.  They do so in every run whose events are spared:
a request of `core/management.c` gets its buffer and its attributes have a text, one of
`core/observe.c` is not sent without a clock, the Location-Path of a 2.01 names an instance, and the
end of a cancel finds its observation (`requestRecords_owned`).

A create that is answered with a malformed Location-Path is a run in which they do not
(`malformedLocation_leaks`).
-/

import Lwm2m.Core.RequestOwnership
import Lwm2m.Library.Run

namespace Lwm2m.Core

open Coap Code Library Library.Memory
open RegistrationMemory (owner owner_eq)

namespace RequestMemory

variable {s s' : RequestMemory} {t : Transaction} {a : ℕ} {l : List Transaction}

/-! ### New requests -/

/-- The serialized message fits into its buffer, whose length has 16 bits. -/
def Fits (message : Packet) : Prop :=
  (coapSerializeMessage message).length ≤ coapSerializeGetSize message % 65536

/-- The message has no bytes when their number is taken in 16 bits. -/
def Vanishes (message : Packet) : Prop := coapSerializeGetSize message % 65536 = 0

instance (message : Packet) : Decidable (Fits message) := inferInstanceAs (Decidable (_ ≤ _))

instance (message : Packet) : Decidable (Vanishes message) := inferInstanceAs (Decidable (_ = _))

/-- **A request of `core/management.c` is spared**: it gets a fresh message-id, its message fits
into its buffer, and where it has a record `transaction_send` gets the buffer. -/
structure OperationSpared (s : RequestMemory) (input : CallInput) (message : Packet)
    (withCallback : Bool) : Prop where
  fresh : s.Fresh
  buffer : withCallback = true → input.bufferAllocated = true
  fits : input.bufferAllocated = true → Fits message ∨ withCallback = false ∧ Vanishes message

/-- **A request of `core/observe.c` is spared**: it gets a fresh message-id, and it is sent when
there is a clock or not at all. -/
structure ObservationSpared (s : RequestMemory) (input : CallInput) (message : Packet) : Prop where
  fresh : s.Fresh
  fits : input.bufferAllocated = true → Vanishes message ∨ Fits message ∧ 0 ≤ input.tvSec

theorem serializeBuffer_of_fits (hbuffer : t.buffer = none) (hfits : Fits t.message) :
    ∃ p, serializeBuffer t = .ok (some p) := by
  have hpos : 0 < (coapSerializeMessage t.message).length := Nat.succ_pos _
  unfold Fits at hfits
  unfold serializeBuffer
  rw [hbuffer]
  rw [if_neg (by omega), if_neg (by omega)]
  exact ⟨_, rfl⟩

theorem serializeBuffer_of_vanishes (hbuffer : t.buffer = none) (h : Vanishes t.message) :
    serializeBuffer t = .ok none :=
  serializeBuffer_eq_none_iff.mpr ⟨hbuffer, h⟩

/-- What `transaction_new` makes was not sent and has no user data. -/
structure NewRequest (t : Transaction) (mID : UInt16) : Prop
    extends RegistrationMemory.IsNew t mID, Plain t

variable {mID : UInt16} {next : Transaction} {prepared : Option (Transaction × List Byte)}
  {r : EventResult}

theorem newRequest_of_transactionNew {sessionH : Session} {method : Code} {altPath : Option CString}
    {uriP : Option Uri} {token : List Byte}
    (h : transactionNew sessionH method altPath uriP mID token = some t) : NewRequest t mID := by
  unfold transactionNew at h
  split_ifs at h
  all_goals
    cases h
    exact ⟨⟨rfl, rfl, rfl, rfl⟩, rfl, rfl⟩

/-- A call leaves the records to their owners, and it has called the user when `transaction_send`
gave its request up. -/
def EndsWell (l : List Transaction) (withCallback : Bool) (result : Except Fault EventResult) :
    Prop :=
  ∃ r, result = .ok r ∧ Leaves l r ∧ (withCallback = true → r.ret = -1 → r.calls ≠ [])

variable {input : CallInput} {withCallback : Bool}

theorem Kept.refused (h : s.Kept) (hlist : s'.transactionList = s.transactionList)
    (hheap : s'.heap = s.heap) (code : Code) :
    EndsWell s.transactionList withCallback (s'.refused code) := by
  refine ⟨_, rfl, h.leaves hlist hheap noCall_nil, fun _ hret => ?_⟩
  dsimp only at hret
  omega

/-- A new transaction beside the listed ones. -/
theorem Kept.keptWith (h : s.Kept) (hfresh : s.Fresh)
    (hlist : s'.transactionList = s.transactionList) (hmid : next.mID = s.nextMID)
    (hcarries : Plain next ∧ s'.heap = s.heap ∨
      (∃ callback, next.callback = some callback ∧ isRequestCallback callback) ∧
      next.userData = some s.heap.frontier ∧ s'.heap = (s.heap.alloc .node).1) :
    s'.KeptWith next := by
  refine ⟨hlist ▸ h.sorted, hlist ▸ h.buffered, hlist ▸ h.carries, ?_, ?_, ?_⟩
  · rcases hcarries with ⟨hplain, -⟩ | ⟨hcallback, hdata, -⟩
    · exact .inl hplain
    · exact .inr ⟨_, hdata, hcallback⟩
  · rw [hlist]
    rcases hcarries with ⟨hplain, hheap⟩ | ⟨-, hdata, hheap⟩
    · rw [hheap]
      exact (heapOwns_cons_iff hplain.userData).mpr h.owns
    · rw [hheap]
      exact h.owns.alloc hdata
  · rw [hlist, hmid]
    exact hfresh

theorem SentNew.calls_ne_nil {ret : ℤ} (h : s.SentNew next prepared ret r)
    (hdata : next.userData = some a) (hret : ret = -1) : r.calls ≠ [] := by
  cases h with
  | sent _ hcalled =>
    obtain ⟨c, hc, -⟩ := hcalled (by rw [hret]; decide) a hdata
    exact List.ne_nil_of_mem hc
  | removed => exact absurd hret (by decide)

theorem KeptWith.addRequest (h : s.KeptWith next) (hallocated : input.bufferAllocated = true)
    (hprepared : serializeBuffer next = .ok prepared) :
    ∃ ret r, s.addRequest input next = .ok { r with ret } ∧ s.SentNew next prepared ret r ∧
      (RegistrationMemory.IsNew next next.mID → 0 ≤ input.tvSec → prepared ≠ none → ret = 0) := by
  obtain ⟨contextP, sent, ret, r, hadd, hresume, hsent⟩ := h.addAndSend hprepared input.tvSec
  refine ⟨ret, r, ?_, hsent, fun hnew htime hsome => ?_⟩
  rotate_left
  · refine RegistrationMemory.result_of_addAndSend hnew htime (fun hnone => hsome ?_) hadd
    exact Except.ok.inj (hprepared.symm.trans hnone)
  unfold RequestMemory.addRequest
  rw [if_pos hallocated, hadd, ok_bind]
  dsimp only
  rw [hresume]
  rfl

/-- What is left behind does not depend on what a call returns. -/
theorem Leaves.ret (h : Leaves l r) (ret : ℤ) : Leaves l { r with ret } :=
  ⟨h.kept, h.called, h.ended⟩

/-- **A request of `core/management.c` leaves the records to their owners.** -/
theorem Kept.sendOperation (h : s.Kept) (hnew : NewRequest t s.nextMID)
    (hspared : s.OperationSpared input t.message withCallback)
    (hlist : s'.transactionList = s.transactionList) (hheap : s'.heap = s.heap)
    (clientP : ObservedClient) (uriP : Uri) :
    EndsWell s.transactionList withCallback
      (s'.sendOperation input clientP uriP t withCallback) := by
  unfold RequestMemory.sendOperation
  cases withCallback with
  | true =>
    have hallocated := hspared.buffer rfl
    rw [if_pos rfl, hheap]
    let next : Transaction :=
      { t with callback := some resultCallback, userData := some s.heap.frontier }
    have hfits : Fits next.message := (hspared.fits hallocated).resolve_right fun h => by cases h.1
    obtain ⟨p, hprepared⟩ := serializeBuffer_of_fits (t := next) hnew.buffer hfits
    let s₁ := ({ s' with heap := (s.heap.alloc .node).1 } : RequestMemory).setRecord
      (s.heap.alloc .node).2 { client := clientP.internalID, uri := uriP }
    have hkept : s₁.KeptWith next := h.keptWith hspared.fresh hlist hnew.mID
      (.inr ⟨⟨_, rfl, .inl rfl⟩, rfl, rfl⟩)
    obtain ⟨ret, r, hadd, hsent, -⟩ := hkept.addRequest hallocated hprepared
    refine ⟨_, hadd, ?_, fun _ hret => hsent.calls_ne_nil rfl hret⟩
    cases hsent with
    | sent hleaves => exact hlist ▸ hleaves.ret ret
  | false =>
    rw [if_neg (by decide)]
    by_cases hallocated : input.bufferAllocated = true
    · have hprepared : ∃ prepared, serializeBuffer t = .ok prepared := by
        rcases hspared.fits hallocated with hfits | ⟨-, hvanishes⟩
        · exact (serializeBuffer_of_fits hnew.buffer hfits).imp' some fun _ h => h
        · exact ⟨none, serializeBuffer_of_vanishes hnew.buffer hvanishes⟩
      obtain ⟨prepared, hprepared⟩ := hprepared
      have hkept : s'.KeptWith t := h.keptWith hspared.fresh hlist hnew.mID
        (.inl ⟨hnew.toPlain, hheap⟩)
      obtain ⟨ret, r, hadd, hsent, -⟩ := hkept.addRequest hallocated hprepared
      refine ⟨_, hadd, ?_, fun hfalse => by cases hfalse⟩
      cases hsent with
      | sent hleaves => exact hlist ▸ hleaves.ret ret
      | removed => exact h.leaves hlist hheap noCall_nil
    · unfold addRequest
      rw [if_neg hallocated]
      exact ⟨_, rfl, h.leaves hlist hheap noCall_nil, fun hfalse => by cases hfalse⟩

/-- **A request of `core/observe.c` leaves the records to their owners**: when it is not sent, its
record is released. -/
theorem Kept.addOrFree (callback : ℕ) (h : s.Kept) (hnew : NewRequest t s.nextMID)
    (hspared : s.ObservationSpared input t.message) (his : isRequestCallback callback)
    (hlist : s'.transactionList = s.transactionList)
    (hheap : s'.heap = (s.heap.alloc .node).1) :
    EndsWell s.transactionList true (s'.addOrFree input
      { t with callback := some callback, userData := some s.heap.frontier } s.heap.frontier) := by
  let next : Transaction := { t with callback := some callback, userData := some s.heap.frontier }
  have hkept : s'.KeptWith next := h.keptWith hspared.fresh hlist hnew.mID
    (.inr ⟨⟨_, rfl, his⟩, rfl, hheap⟩)
  obtain ⟨heap, hfree, howns⟩ := h.owns.lwm2mFree_alloc
  have hremoved : Leaves s.transactionList
      { memory := { s' with heap }, ret := coap500InternalServerError.toNat } :=
    (show Kept { s with heap } from ⟨h.sorted, h.buffered, h.carries, howns⟩).leaves hlist rfl
      noCall_nil
  have hfreed : s'.freeRecord s.heap.frontier = .ok { s' with heap } := by
    unfold freeRecord
    rw [hheap, hfree]
    rfl
  have hunsent : EndsWell s.transactionList true (do
      let memory ← s'.freeRecord s.heap.frontier
      return { memory, ret := coap500InternalServerError.toNat }) := by
    rw [hfreed]
    refine ⟨_, rfl, hremoved, fun _ hret => ?_⟩
    dsimp only at hret
    omega
  unfold RequestMemory.addOrFree
  by_cases hallocated : input.bufferAllocated = true
  · rcases hspared.fits hallocated with hvanishes | ⟨hfits, htime⟩
    · obtain ⟨ret, r, hadd, hsent, -⟩ := hkept.addRequest hallocated
        (serializeBuffer_of_vanishes (t := next) hnew.buffer hvanishes)
      rw [hadd, ok_bind]
      cases hsent with
      | removed => exact hunsent
    · obtain ⟨p, hprepared⟩ := serializeBuffer_of_fits (t := next) hnew.buffer hfits
      obtain ⟨ret, r, hadd, hsent, hclock⟩ := hkept.addRequest hallocated hprepared
      have hret : ret = 0 := hclock ⟨rfl, hnew.buffer, hnew.ackReceived, hnew.retransCounter⟩
        htime (Option.some_ne_none p)
      rw [hadd, ok_bind, if_neg (not_not.mpr hret)]
      refine ⟨_, rfl, ?_, fun _ hfailed => ?_⟩
      · cases hsent with
        | sent hleaves => exact hlist ▸ hleaves.ret ret
      · rw [show ret = -1 from hfailed] at hret
        cases hret
  · unfold addRequest
    rw [if_neg hallocated]
    exact hunsent

/-! ### Calls -/

/-- **A call of `prv_makeOperation` is spared**: so is the request that it makes. -/
def MakesSpared (s : RequestMemory) (input : CallInput) (clientID : UInt16) (uriP : Uri)
    (method : Code) (format : UInt16) (buffer : Option (List Byte)) (withCallback : Bool) : Prop :=
  ∀ clientP, findClient s.observations.clientList clientID = some clientP →
    ∀ t, transactionNew clientP.here.sessionH method input.altPath (some uriP) s.nextMID
        (RegistrationMemory.generatedToken s.nextMID input.tvSec) = some t →
      s.OperationSpared input (operationRequest input t method format buffer).message withCallback

/-- **The events that are spared.**  The condition is one on the state before and on what the event
brings. -/
def Spared (s : RequestMemory) : RequestEvent → Prop
  | .read input clientID uriP withCallback =>
    s.MakesSpared input clientID uriP 1 input.format none withCallback
  | .write input clientID uriP format buffer partialUpdate withCallback =>
    uriP.isSetInstance → buffer.length ≠ 0 →
      s.MakesSpared input clientID uriP
        (if uriP.isSetResource then 3 else if partialUpdate then 2 else 3) format (some buffer)
        withCallback
  | .execute input clientID uriP format buffer withCallback =>
    uriP.isSetResource → s.MakesSpared input clientID uriP 2 format buffer withCallback
  | .create input dataSerialize clientID uriP dataP withCallback =>
    ¬ uriP.isSetInstance → dataP.length ≠ 0 →
      let (format, buffer) := dataSerialize uriP dataP (createFormat input dataP)
      buffer.length ≠ 0 → s.MakesSpared input clientID uriP 2 format (some buffer) withCallback
  | .delete input clientID uriP withCallback =>
    uriP.isSetInstance → ¬ uriP.isSetResource →
      s.MakesSpared input clientID uriP 4 0 none withCallback
  | .writeAttributes input floatToText overlaps clientID uriP attrP withCallback =>
    ∀ attributes, attrP = some attributes → ¬ attributesRefused overlaps uriP attributes →
    ∀ clientP, findClient s.observations.clientList clientID = some clientP →
    ∀ t, transactionNew clientP.here.sessionH 3 input.altPath (some uriP) s.nextMID
        (RegistrationMemory.generatedToken s.nextMID input.tvSec) = some t →
      match addAttributeOptions floatToText attributes t.message with
      | none => withCallback = false
      | some message => s.OperationSpared input message withCallback
  | .discover input clientID uriP withCallback =>
    ∀ clientP, findClient s.observations.clientList clientID = some clientP →
    ∀ t, transactionNew clientP.here.sessionH 1 input.altPath (some uriP) s.nextMID
        (RegistrationMemory.generatedToken s.nextMID input.tvSec) = some t →
      s.OperationSpared input (t.message.coapSetHeaderAccept lwm2mContentLink) withCallback
  | .observe input clientID uriP =>
    ¬ (¬ uriP.isSetInstance ∧ uriP.isSetResource) →
    ∀ clientP, findClient s.observations.clientList clientID = some clientP →
    ¬ (listFind ServerObservation.id clientP.here.observationList
        (clientP.here.observationId + 1)).isSome →
    ∀ t, transactionNew clientP.here.sessionH 1 input.altPath (some uriP) s.nextMID
        (observationToken clientP.here.internalID (clientP.here.observationId + 1)) = some t →
      s.ObservationSpared input
        ((t.message.coapSetHeaderObserve 0).coapSetHeaderAccept input.format)
  | .cancel input clientID uriP =>
    ∀ clientP, findClient s.observations.clientList clientID = some clientP →
    ∀ o, prvFindObservationByURI clientP.here uriP = some o →
      if o.status = .registered then
        ∀ t, transactionNew clientP.here.sessionH 1 input.altPath (some uriP) s.nextMID
            (observationToken clientP.here.internalID o.id) = some t →
          s.ObservationSpared input (t.message.coapSetHeaderObserve 1)
      else (s.observations.memory.cells o.address).isSome
  | .continueBlock1 env fromSessionH message => s.BlockSpared do
    let (contextP, sent, _) ← Core.continueBlock1 env s.toTransactionContext fromSessionH message
    return (contextP, sent)
  | .changeToBlock1 env fromSessionH mid size => s.BlockSpared do
    let (contextP, sent, _) ← prvChangeToBlock1 env.coapBlockSize env.tvSec s.toTransactionContext
      fromSessionH mid size
    return (contextP, sent)
  | .getBlock2 env fromSessionH blockDataHead mid num size => s.BlockSpared do
    let (contextP, _, sent) ← prvSendGetBlock2 env.coapBlockSize env.tvSec s.toTransactionContext
      fromSessionH blockDataHead mid num size
    return (contextP, sent)
  | .send _ _ => True
  | .response tvSec fromSessionH message withResponse =>
    s.ResponseSpared tvSec fromSessionH message withResponse
  | .clients _ => True

variable {clientID : UInt16} {uriP : Uri} {method : Code} {format : UInt16}
  {buffer : Option (List Byte)}

theorem newRequest_operationRequest (h : NewRequest t mID) (method : Code) (format : UInt16)
    (buffer : Option (List Byte)) :
    NewRequest (operationRequest input t method format buffer) mID := by
  unfold operationRequest
  split_ifs
  · exact ⟨⟨h.mID, h.buffer, h.ackReceived, h.retransCounter⟩, h.userData, h.callback⟩
  · split <;>
      exact ⟨⟨h.mID, h.buffer, h.ackReceived, h.retransCounter⟩, h.userData, h.callback⟩

theorem Kept.makeOperation (h : s.Kept)
    (hspared : s.MakesSpared input clientID uriP method format buffer withCallback) :
    EndsWell s.transactionList withCallback
      (s.prvMakeOperation input clientID uriP method format buffer withCallback) := by
  unfold prvMakeOperation
  split
  next => refine h.refused ?_ ?_ _ <;> rfl
  next clientP hfind =>
    dsimp only
    split
    next => refine h.refused ?_ ?_ _ <;> rfl
    next transaction htransaction =>
      have hnew := newRequest_of_transactionNew htransaction
      refine h.sendOperation (newRequest_operationRequest hnew method format buffer)
        (hspared clientP hfind transaction htransaction) ?_ ?_ _ _ <;> rfl

theorem NewRequest.message (h : NewRequest t mID) (message : Packet) :
    NewRequest { t with message } mID :=
  ⟨⟨h.mID, h.buffer, h.ackReceived, h.retransCounter⟩, h.userData, h.callback⟩

theorem Kept.write (h : s.Kept) {buffer : List Byte} {partialUpdate : Bool}
    (hspared : s.Spared (.write input clientID uriP format buffer partialUpdate withCallback)) :
    EndsWell s.transactionList withCallback
      (s.lwm2mDmWrite input clientID uriP format buffer partialUpdate withCallback) := by
  unfold lwm2mDmWrite
  by_cases hrefused : ¬ uriP.isSetInstance ∨ buffer.length = 0
  · rw [if_pos hrefused]
    refine h.refused ?_ ?_ _ <;> rfl
  · obtain ⟨hinstance, hlength⟩ := not_or.mp hrefused
    have hspared := hspared (not_not.mp hinstance) hlength
    rw [if_neg hrefused]
    by_cases hresource : uriP.isSetResource
    · rw [if_pos hresource] at hspared ⊢
      exact h.makeOperation hspared
    · rw [if_neg hresource] at hspared ⊢
      exact h.makeOperation hspared

theorem Kept.create (h : s.Kept) {dataSerialize : Uri → List Data → UInt16 → UInt16 × List Byte}
    {dataP : List Data}
    (hspared : s.Spared (.create input dataSerialize clientID uriP dataP withCallback)) :
    EndsWell s.transactionList withCallback
      (s.lwm2mDmCreate input dataSerialize clientID uriP dataP withCallback) := by
  unfold lwm2mDmCreate
  by_cases hrefused : uriP.isSetInstance ∨ dataP.length = 0
  · rw [if_pos hrefused]
    refine h.refused ?_ ?_ _ <;> rfl
  · obtain ⟨hinstance, hlength⟩ := not_or.mp hrefused
    have hspared := hspared hinstance hlength
    rw [if_neg hrefused]
    by_cases hclient : findClient s.observations.clientList clientID = none
    · rw [if_pos hclient]
      refine h.refused ?_ ?_ _ <;> rfl
    · rw [if_neg hclient]
      dsimp only
      split_ifs with hbuffer
      · refine h.refused ?_ ?_ _ <;> rfl
      · exact h.makeOperation (hspared hbuffer)

theorem Kept.writeAttributes (h : s.Kept) {floatToText : Double → ℕ → Option (List Byte)}
    {overlaps : Attributes → Bool} {attrP : Option Attributes}
    (hspared : s.Spared
      (.writeAttributes input floatToText overlaps clientID uriP attrP withCallback)) :
    EndsWell s.transactionList withCallback
      (s.lwm2mDmWriteAttributes input floatToText overlaps clientID uriP attrP withCallback) := by
  unfold RequestMemory.lwm2mDmWriteAttributes
  split
  next => refine h.refused ?_ ?_ _ <;> rfl
  next attributes =>
    by_cases hrefused : attributesRefused overlaps uriP attributes
    · rw [if_pos hrefused]
      refine h.refused ?_ ?_ _ <;> rfl
    · rw [if_neg hrefused]
      split
      next => refine h.refused ?_ ?_ _ <;> rfl
      next clientP hfind =>
        dsimp only
        split
        next => refine h.refused ?_ ?_ _ <;> rfl
        next transaction htransaction =>
          have hspared := hspared attributes rfl hrefused clientP hfind transaction htransaction
          have hnew := newRequest_of_transactionNew htransaction
          cases hmessage : addAttributeOptions floatToText attributes transaction.message with
          | none =>
            rw [hmessage] at hspared
            rw [hspared, if_neg (by decide)]
            refine h.refused ?_ ?_ _ <;> rfl
          | some message =>
            rw [hmessage] at hspared
            refine h.sendOperation (hnew.message message) hspared ?_ ?_ _ _ <;> rfl

theorem Kept.discover (h : s.Kept)
    (hspared : s.Spared (.discover input clientID uriP withCallback)) :
    EndsWell s.transactionList withCallback
      (s.lwm2mDmDiscover input clientID uriP withCallback) := by
  unfold lwm2mDmDiscover
  split
  next => refine h.refused ?_ ?_ _ <;> rfl
  next clientP hfind =>
    dsimp only
    split
    next => refine h.refused ?_ ?_ _ <;> rfl
    next transaction htransaction =>
      have hnew := newRequest_of_transactionNew htransaction
      have hspared := hspared clientP hfind transaction htransaction
      have hrequest := hnew.message (transaction.message.coapSetHeaderAccept lwm2mContentLink)
      refine h.sendOperation hrequest hspared ?_ ?_ _ _ <;> rfl

/-- A record that is made and released again. -/
theorem Kept.freedAgain (h : s.Kept) (hlist : s'.transactionList = s.transactionList)
    (hheap : s'.heap = (s.heap.alloc .node).1) (code : Code) :
    EndsWell s.transactionList withCallback
      (s'.freeRecord s.heap.frontier >>= fun s => s.refused code) := by
  obtain ⟨heap, hfree, howns⟩ := h.owns.lwm2mFree_alloc
  have hkept : Kept { s with heap } := ⟨h.sorted, h.buffered, h.carries, howns⟩
  have hfreed : s'.freeRecord s.heap.frontier = .ok { s' with heap } := by
    unfold freeRecord
    rw [hheap, hfree]
    rfl
  rw [hfreed, ok_bind]
  refine hkept.refused ?_ ?_ code
  · exact hlist
  · rfl

theorem Kept.observe (h : s.Kept) (hspared : s.Spared (.observe input clientID uriP)) :
    EndsWell s.transactionList true (s.lwm2mObserve input clientID uriP) := by
  unfold RequestMemory.lwm2mObserve
  by_cases hrefused : ¬ uriP.isSetInstance ∧ uriP.isSetResource
  · rw [if_pos hrefused]
    refine h.refused ?_ ?_ _ <;> rfl
  · rw [if_neg hrefused]
    split
    next => refine h.refused ?_ ?_ _ <;> rfl
    next clientP hfind =>
      dsimp only
      split_ifs with hid
      · refine h.freedAgain ?_ ?_ _ <;> rfl
      · split
        next => refine h.freedAgain ?_ ?_ _ <;> rfl
        next transaction htransaction =>
          have hnew := newRequest_of_transactionNew htransaction
          have hspared := hspared hrefused clientP hfind hid transaction htransaction
          have hrequest := hnew.message
            ((transaction.message.coapSetHeaderObserve 0).coapSetHeaderAccept input.format)
          refine Kept.addOrFree obsRequestCallback h hrequest hspared (.inr (.inl rfl))
            ?_ ?_ <;> rfl

theorem Kept.cancel (h : s.Kept) (hspared : s.Spared (.cancel input clientID uriP)) :
    EndsWell s.transactionList true (s.lwm2mObserveCancel input clientID uriP) := by
  unfold RequestMemory.lwm2mObserveCancel
  split
  next => refine h.refused ?_ ?_ _ <;> rfl
  next clientP hfind =>
    split
    next => refine h.refused ?_ ?_ _ <;> rfl
    next observationP ho =>
      have hspared := hspared clientP hfind observationP ho
      by_cases hregistered : observationP.status = .registered
      · rw [if_pos hregistered] at hspared ⊢
        dsimp only
        split
        next => refine h.refused ?_ ?_ _ <;> rfl
        next transaction htransaction =>
          have hnew := newRequest_of_transactionNew htransaction
          have hspared := hspared transaction htransaction
          have hrequest := hnew.message (transaction.message.coapSetHeaderObserve 1)
          refine Kept.addOrFree obsCancelRequestCallback h hrequest hspared (.inr (.inr rfl))
            ?_ ?_ <;> rfl
      · rw [if_neg hregistered] at hspared ⊢
        unfold observeRemove
        dsimp only
        rw [if_pos hspared]
        refine h.refused ?_ ?_ _ <;> rfl

end RequestMemory

/-! ### Runs -/

/-- A step of a run. -/
def RequestStep (s : RequestMemory) (e : RequestEvent) (s' : RequestMemory) : Prop :=
  ∃ r, s.after e = .ok r ∧ r.memory = s'

/-- **An event accounts for the records.**  It fails at no access, so that nothing is freed twice,
and a record is then allocated exactly if a listed transaction has it.  A transaction that left the
list called its callback, each callback called the user for its record, and so did one of a request
that `transaction_send` gave up at once. -/
structure AccountsFor (s : RequestMemory) (e : RequestEvent) (r : EventResult) : Prop where
  after : s.after e = .ok r
  owned : ∀ a, (r.memory.heap.cells a).isSome ↔
    ∃ t ∈ r.memory.transactionList, t.userData = some a
  ended : ∀ t ∈ s.transactionList, t.mID ∉ r.memory.transactionList.map Transaction.mID →
    ∀ a, t.userData = some a →
      ∃ callback t' message, .callback callback t' message ∈ r.sent ∧ t'.userData = some a
  called : ∀ callback t message, .callback callback t message ∈ r.sent →
    ∃ c ∈ r.calls, t.userData = some c.record
  gaveUp : e.withCallback = true → r.ret = -1 → r.calls ≠ []

/-- An event accounts for the records, in what it leaves behind. -/
def Accounted (s : RequestMemory) (e : RequestEvent) : Prop := ∃ r, AccountsFor s e r

namespace RequestMemory

variable {s s' : RequestMemory} {e : RequestEvent}

/-- **A spared event leaves the records to their owners.** -/
theorem Kept.endsWell (h : s.Kept) (hspared : s.Spared e) :
    EndsWell s.transactionList e.withCallback (s.after e) := by
  have hother {result : Except Fault EventResult}
      (hleaves : ∃ r, result = .ok r ∧ Leaves s.transactionList r) :
      EndsWell s.transactionList false result := by
    obtain ⟨r, hresult, hleaves⟩ := hleaves
    exact ⟨r, hresult, hleaves, fun hfalse => by cases hfalse⟩
  cases e with
  | read => exact h.makeOperation hspared
  | write => exact h.write hspared
  | execute input clientID uriP format buffer withCallback =>
    show EndsWell _ _ (s.lwm2mDmExecute input clientID uriP format buffer withCallback)
    unfold lwm2mDmExecute
    by_cases hresource : uriP.isSetResource
    · rw [if_neg (not_not.mpr hresource)]
      exact h.makeOperation (hspared hresource)
    · rw [if_pos hresource]
      refine h.refused ?_ ?_ _ <;> rfl
  | create => exact h.create hspared
  | delete input clientID uriP withCallback =>
    show EndsWell _ _ (s.lwm2mDmDelete input clientID uriP withCallback)
    unfold lwm2mDmDelete
    split_ifs with hrefused
    · refine h.refused ?_ ?_ _ <;> rfl
    · obtain ⟨hinstance, hresource⟩ := not_or.mp hrefused
      exact h.makeOperation (hspared (not_not.mp hinstance) hresource)
  | writeAttributes => exact h.writeAttributes hspared
  | discover => exact h.discover hspared
  | observe => exact h.observe hspared
  | cancel => exact h.cancel hspared
  | continueBlock1 env =>
    refine hother (h.continued env.tvSec hspared fun contextP sent hnext => ?_)
    obtain ⟨⟨contextP', sent', ret⟩, hcontinue, hnext⟩ := bind_eq_ok_iff.mp hnext
    cases hnext
    exact RegistrationMemory.continued_continueBlock1 hcontinue
  | changeToBlock1 env =>
    refine hother (h.continued env.tvSec hspared fun contextP sent hnext => ?_)
    obtain ⟨⟨contextP', sent', ret⟩, hchange, hnext⟩ := bind_eq_ok_iff.mp hnext
    cases hnext
    exact RegistrationMemory.continued_prvChangeToBlock1 hchange
  | getBlock2 env =>
    refine hother (h.continued env.tvSec hspared fun contextP sent hnext => ?_)
    obtain ⟨⟨contextP', blockData, sent'⟩, hget, hnext⟩ := bind_eq_ok_iff.mp hnext
    cases hnext
    exact RegistrationMemory.continued_prvSendGetBlock2 hget
  | send tvSec mID => exact hother (h.send tvSec mID)
  | response => exact hother (h.response hspared)
  | clients observations => exact hother ⟨_, rfl, h.leaves rfl rfl noCall_nil⟩

end RequestMemory

open RequestMemory

/-- **The records of requests have one owner.**  From a server without requests on, in every run
whose events are spared, every event accounts for the records: each is freed once, with the last
transaction that has it, and each transaction that ends has called the user. -/
theorem requestRecords_owned {s : RequestMemory} (hlist : s.transactionList = [])
    (hheap : ∀ a, s.heap.cells a = none) {events : List RequestEvent}
    (hspared : EveryStep RequestStep Spared s events) :
    EveryStep RequestStep Accounted s events := by
  have hstart : s.Kept := by
    refine ⟨?_, ?_, ?_, fun a => ?_⟩
    all_goals rw [hlist]
    · exact .nil
    · exact fun t ht => absurd ht List.not_mem_nil
    · exact fun t ht => absurd ht List.not_mem_nil
    · rw [hheap a]
      exact iff_of_false Bool.false_ne_true fun ⟨t, ht, _⟩ => List.not_mem_nil ht
  refine hspared.imp (I := RequestMemory.Kept) (fun s e h hspared => ?_)
    (fun s e s' h hspared hstep => ?_) hstart
  · obtain ⟨r, hafter, hleaves, hgaveUp⟩ := h.endsWell hspared
    exact ⟨r, hafter, hleaves.kept.owns, hleaves.ended, hleaves.called, hgaveUp⟩
  · obtain ⟨r, hafter, hleaves, -⟩ := h.endsWell hspared
    obtain ⟨r', hafter', rfl⟩ := hstep
    obtain rfl := Except.ok.inj (hafter.symm.trans hafter')
    exact hleaves.kept

/-! ### Single runs -/

/-- A server with one client, which it has sent nothing. -/
def serverOfOne : RequestMemory where
  nextMID := 1
  heap := Memory.empty
  record _ := { client := 0, uri := {} }
  observations := { clientList := [{ internalID := 0, sessionH := some 1 }] }

/-- What a call reads there at a time. -/
def inputAt (tvSec : ℤ) : CallInput where
  tvSec
  coapBlockSize := 1024
  format := lwm2mContentTlv

/-- The data of a create: one instance, with a resource. -/
def firstInstance : List Data := [.mk 1 .objectInstance [] [.mk 0 .string [0x61] []]]

/-- The bytes of the data, whatever they are. -/
def serializesTo (bytes : List Byte) : Uri → List Data → UInt16 → UInt16 × List Byte :=
  fun _ _ format => (format, bytes)

/-- The create of an instance of object 3, with a callback. -/
def createEvent : RequestEvent :=
  .create (inputAt 0) (serializesTo [0xC1, 0x00, 0x61]) 0 { objectId := 3 } firstInstance true

/-- The answer 2.01 to the first request of the server, with a Location-Path. -/
def createdAt (locationPath : List (List Byte)) : Packet :=
  { (coapInitMessage .ack coap201Created 1).coapSetHeaderToken
      (RegistrationMemory.generatedToken 1 0) with locationPath }.markOption .locationPath

/-- The create was sent. -/
def createPending : RequestMemory :=
  let transaction : Transaction :=
    { mID := 1
      peerH := some 1
      message := (([[0x33]] : List CString).foldl Packet.coapSetHeaderUriPathSegment
        (coapInitMessage .con 2 1)).coapSetHeaderToken (RegistrationMemory.generatedToken 1 0) }
  let request := { operationRequest (inputAt 0) transaction 2 lwm2mContentTlv
    (some [0xC1, 0x00, 0x61]) with callback := some resultCallback, userData := some 0 }
  { serverOfOne with
    nextMID := 2
    transactionList := [{ withBuffer request with retransCounter := 2, retransTime := 2 }]
    heap := (Memory.empty.alloc .node).1
    record := Function.update serverOfOne.record 0 { client := 0, uri := { objectId := 3 } } }

theorem create_sent : RequestStep serverOfOne createEvent createPending := ⟨_, rfl, rfl⟩

/-- A create whose answer names the instance accounts for its record. -/
theorem create_accounted : EveryStep RequestStep Accounted serverOfOne
    [createEvent, .response 0 (some 1) (createdAt [[0x33], [0x31]]) false] := by
  refine requestRecords_owned rfl (fun _ => rfl) ⟨fun hinstance hlength hbuffer => ?_, ?_⟩
  · rintro clientP ⟨⟩ t ⟨⟩
    exact ⟨fun t ht => absurd ht List.not_mem_nil, fun _ => rfl, fun _ => .inl (by decide +kernel)⟩
  · rintro s ⟨r, hafter, rfl⟩
    obtain ⟨r', hafter', hpending⟩ := create_sent
    obtain rfl := Except.ok.inj (hafter.symm.trans hafter')
    rw [hpending]
    refine ⟨?_, fun _ _ => trivial⟩
    rintro f ⟨⟩ - a ⟨⟩
    exact ⟨fun _ => by decide +kernel, fun hcallback => by cases hcallback⟩

/-- **A malformed Location-Path**: the answer 2.01 to a create names `/a`.  The transaction is
removed, its record stays allocated, and the user is not called. -/
theorem malformedLocation_leaks : ¬ EveryStep RequestStep Accounted serverOfOne
    [createEvent, .response 0 (some 1) (createdAt [[0x61]]) false] := by
  rintro ⟨-, h⟩
  obtain ⟨⟨r, haccounts⟩, -⟩ := h createPending create_sent
  have hresult : ∃ r,
      createPending.after (.response 0 (some 1) (createdAt [[0x61]]) false) = .ok r ∧
        r.memory.transactionList = [] ∧ (r.memory.heap.cells 0).isSome ∧ r.calls = [] :=
    ⟨_, rfl, rfl, rfl, rfl⟩
  obtain ⟨r', hafter, hlist, hleaked, -⟩ := hresult
  obtain rfl := Except.ok.inj (haccounts.after.symm.trans hafter)
  obtain ⟨t, ht, -⟩ := (haccounts.owned 0).mp hleaked
  rw [hlist] at ht
  exact absurd ht List.not_mem_nil

end Lwm2m.Core

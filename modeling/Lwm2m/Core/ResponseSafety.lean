/-
# What a response can provoke

A received response is handled without a division by zero and without the dereference
of a null pointer, but for two responses (`lwm2mHandlePacket_safe_iff`): an
acknowledgement that continues a Block1 transfer the client never started, since the
request it answers has no Block1 option and the block size read from it is zero
(`AcknowledgesUnstarted`); and an acknowledgement 4.13 without a block option that
answers no transaction (`RejectsUnknown`).

The faults that remain are of other kinds; every function on the way is shown to have no
others (`Safe`).
-/

import Lwm2m.Coap.Bounds
import Lwm2m.Core.Response
import Lwm2m.Core.Watchers

namespace Lwm2m.Core

open Coap Code Library

/-- The fault is neither a division by zero nor the dereference of a null pointer. -/
def Harmless (fault : Fault) : Prop := fault ≠ .divisionByZero ∧ fault ≠ .nullDereference

/-- The computation neither divides by zero nor dereferences a null pointer. -/
def Safe {α : Type} (x : Except Fault α) : Prop := Ensures x (fun _ => True) Harmless

namespace Safe

variable {α β : Type} {x : Except Fault α} {f : α → Except Fault β}

theorem ok (a : α) : Safe (.ok a) := Ensures.ok_iff.mpr trivial

theorem error {fault : Fault} (h : Harmless fault) : Safe (.error fault : Except Fault α) :=
  Ensures.error_iff.mpr h

theorem bind (hx : Safe x) (hf : ∀ a, Safe (f a)) : Safe (x >>= f) :=
  Ensures.bind hx fun a _ => hf a

theorem ite {p : Prop} [Decidable p] {y : Except Fault α} (hx : p → Safe x) (hy : ¬ p → Safe y) :
    Safe (if p then x else y) :=
  Ensures.ite hx hy

/-- A sequence whose second step is safe is as safe as its first step. -/
theorem bind_iff (hf : ∀ a, Safe (f a)) : Safe (x >>= f) ↔ Safe x := by
  constructor
  · intro h
    refine ⟨fun _ _ => trivial, fun fault hx => h.2 fault ?_⟩
    rw [hx]
    rfl
  · exact fun hx => hx.bind hf

/-- Safe is without the two faults. -/
theorem iff : Safe x ↔ ∀ fault, x = .error fault → Harmless fault :=
  ⟨fun h => h.2, fun h => ⟨fun _ _ => trivial, h⟩⟩

end Safe

theorem harmless_outOfBoundsRead : Harmless .outOfBoundsRead := by simp [Harmless]
theorem harmless_outOfBoundsWrite : Harmless .outOfBoundsWrite := by simp [Harmless]
theorem harmless_wrongUnionMember : Harmless .wrongUnionMember := by simp [Harmless]
theorem harmless_useAfterFree : Harmless .useAfterFree := by simp [Harmless]

/-! ### The parser -/

theorem safe_parseExtended (x : ℕ) (bytes : List Byte) : Safe (parseExtended x bytes) := by
  refine Safe.ite (fun _ => ?_) fun _ => Safe.ite (fun _ => ?_) fun _ => Safe.ok _
  · split
    · exact Safe.ok _
    · exact Safe.error harmless_outOfBoundsRead
  · split
    · exact Safe.ok _
    · exact Safe.error harmless_outOfBoundsRead

theorem safe_parseHeader (b : Byte) (bytes : List Byte) : Safe (parseHeader b bytes) :=
  (safe_parseExtended _ bytes).bind fun _ => (safe_parseExtended _ _).bind fun _ => Safe.ok _

theorem safe_setOption (packet : Packet) (opt : ℕ) : Safe (packet.setOption opt) := by
  rw [Safe.iff]
  intro fault h
  rw [((packet.setOption_eq_error_iff opt fault).mp h).2]
  exact harmless_outOfBoundsWrite

theorem safe_parseOptions (packet : Packet) (number : ℕ) (bytes : List Byte) :
    Safe (parseOptions packet number bytes) := by
  fun_induction parseOptions packet number bytes with
  | case3 packet number b bytes hb fault hheader =>
    exact Safe.error (Safe.iff.mp (safe_parseHeader b bytes) fault hheader)
  | case5 packet number b bytes hb delta length rest hheader n hlength fault hset =>
    exact Safe.error (Safe.iff.mp (safe_setOption packet _) fault hset)
  | case8 | case10 | case11 => assumption
  | case1 | case2 | case4 | case6 | case7 | case9 => exact Safe.ok _

theorem safe_coapParseMessage (data : List Byte) : Safe (coapParseMessage data) := by
  unfold coapParseMessage
  split
  · unfold parseTokenAndOptions
    refine Safe.ite (fun _ => Safe.ok _) fun _ => Safe.ite (fun _ => ?_) fun _ =>
      safe_parseOptions _ _ _
    exact Safe.ite (fun _ => Safe.error harmless_outOfBoundsRead) fun _ => safe_parseOptions _ _ _
  · exact Safe.error harmless_outOfBoundsRead

/-! ### The block list -/

theorem safe_readUri (identifier : BlockDataIdentifier) : Safe identifier.readUri := by
  cases identifier with
  | uri u => exact Safe.ok _
  | mid m => exact Safe.error harmless_wrongUnionMember

theorem safe_readMid (identifier : BlockDataIdentifier) : Safe identifier.readMid := by
  cases identifier with
  | uri u => exact Safe.error harmless_wrongUnionMember
  | mid m => exact Safe.ok _

theorem safe_prvGetMatcher (blockType : BlockType) (identifier : BlockDataIdentifier)
    (blockData : BlockData) : Safe (prvGetMatcher blockType identifier blockData) := by
  cases blockType with
  | block1 =>
    refine (safe_readUri _).bind fun _ => (safe_readUri _).bind fun _ => ?_
    split
    · exact Safe.ok _
    · exact Safe.ok _
  | block2 => exact (safe_readMid _).bind fun _ => (safe_readMid _).bind fun _ => Safe.ok _

theorem safe_findBlockData (blockDataHead : List BlockData) (identifier : BlockDataIdentifier)
    (blockType : BlockType) : Safe (findBlockData blockDataHead identifier blockType) := by
  induction blockDataHead with
  | nil => exact Safe.ok _
  | cons blockData next ih =>
    refine (safe_prvGetMatcher _ _ _).bind fun _ => Safe.ite (fun _ => Safe.ok _) fun _ => ?_
    refine ih.bind fun f => ?_
    cases f with
    | none => exact Safe.ok _
    | some f => exact Safe.ok _

theorem safe_block2Delete (blockDataHead : List BlockData) (mid : UInt16) :
    Safe (block2Delete blockDataHead mid) :=
  (safe_findBlockData _ _ _).bind fun f => by cases f <;> exact Safe.ok _

theorem safe_coapBlock2SetExpectedMid (blockDataHead : List BlockData)
    (currentMid expectedMid : UInt16) :
    Safe (coapBlock2SetExpectedMid blockDataHead currentMid expectedMid) :=
  (safe_findBlockData _ _ _).bind fun f => by cases f <;> exact Safe.ok _

theorem safe_coapBlock2Handler (blockDataHead : List BlockData) (mid : UInt16)
    (b : BlockArrival) : Safe (coapBlock2Handler blockDataHead mid b) := by
  refine (safe_findBlockData _ _ _).bind fun f => Safe.ite (fun _ => ?_) fun _ => ?_
  · cases f <;> exact Safe.ok _
  · cases f with
    | none => exact Safe.ok _
    | some f =>
      refine Safe.ite (fun _ => Safe.ok _) fun _ => Safe.ite (fun _ => ?_) fun _ => Safe.ok _
      exact Safe.ite (fun _ => Safe.ok _) fun _ => Safe.ok _

/-! ### Transactions -/

variable {env : PacketEnv} {contextP : TransactionContext} {fromSessionH : Session}
  {message : Packet}

theorem safe_serializeBuffer (transacP : Transaction) : Safe (serializeBuffer transacP) := by
  unfold serializeBuffer
  split
  · exact Safe.ok _
  · refine Safe.ite (fun _ => Safe.ok _) fun _ => ?_
    exact Safe.ite (fun _ => Safe.error harmless_outOfBoundsWrite) fun _ => Safe.ok _

theorem safe_transactionSend (tvSec : ℤ) (transacP : Transaction) :
    Safe (transactionSend tvSec transacP) := by
  refine (safe_serializeBuffer transacP).bind fun r => ?_
  cases r with
  | none => exact Safe.ok _
  | some r =>
    refine Safe.ite (fun _ => Safe.ok _) fun _ => ?_
    refine Safe.ite (fun _ => ?_) fun _ => Safe.ok _
    exact Safe.ite (fun _ => Safe.ok _) fun _ => Safe.ok _

theorem safe_addAndSend (tvSec : ℤ) (contextP : TransactionContext) (next : Transaction) :
    Safe (addAndSend tvSec contextP next) :=
  (safe_transactionSend tvSec next).bind fun _ => Safe.ite (fun _ => Safe.ok _) fun _ => Safe.ok _

theorem safe_transactionRemove (f : Focus Transaction) : Safe (transactionRemove f) := by
  unfold transactionRemove
  dsimp only
  split
  · exact Safe.ok _
  · exact Safe.error harmless_useAfterFree

theorem safe_handleTransaction (contextP : TransactionContext) (message : Packet)
    (withResponse : Bool) :
    Safe (handleTransaction env contextP fromSessionH message withResponse) := by
  refine Safe.bind ?_ fun _ => Safe.ok _
  unfold transactionHandleResponse
  split
  · exact Safe.ok _
  · dsimp only
    refine Safe.ite (fun _ => Safe.ite (fun _ => Safe.ok _) fun _ => ?_) fun _ => Safe.ok _
    exact (safe_transactionRemove _).bind fun _ => Safe.ok _

/-! ### The next request -/

theorem safe_prvCreateNextBlockTransaction (transaction : Transaction) (nextMID : UInt16) :
    Safe (prvCreateNextBlockTransaction transaction nextMID) := by
  refine (safe_coapParseMessage _).bind fun _ => Safe.ite (fun _ => Safe.ok _) fun _ => ?_
  split
  · exact Safe.ok _
  · exact Safe.ite (fun _ => Safe.error harmless_useAfterFree) fun _ => Safe.ok _

theorem safe_prvSendNewBlock1 (tvSec : ℤ) (contextP : TransactionContext)
    (previous : Transaction) (blockNum : UInt32) (blockSize : UInt16) :
    Safe (prvSendNewBlock1 tvSec contextP previous blockNum blockSize) := by
  refine Safe.ite (fun _ => Safe.ok _) fun _ => ?_
  refine (safe_prvCreateNextBlockTransaction _ _).bind fun next => ?_
  cases next with
  | none => exact Safe.ok _
  | some next => exact safe_addAndSend _ _ _

theorem safe_prvRetryBlock1 (tvSec : ℤ) (contextP : TransactionContext) (sessionH : Session)
    (mid blockSize : UInt16) : Safe (prvRetryBlock1 tvSec contextP sessionH mid blockSize) := by
  unfold prvRetryBlock1
  split
  · exact Safe.ok _
  · refine Safe.ite (fun _ => safe_prvSendNewBlock1 _ _ _ _ _) fun _ => ?_
    exact Safe.ite (fun _ => Safe.ok _) fun _ => safe_prvSendNewBlock1 _ _ _ _ _

theorem safe_prvSendGetBlock2 (coapBlockSize : UInt16) (tvSec : ℤ)
    (contextP : TransactionContext) (sessionH : Session) (blockDataHead : List BlockData)
    (currentMID : UInt16) (block2Num : UInt32) (block2Size : UInt16) :
    Safe (prvSendGetBlock2 coapBlockSize tvSec contextP sessionH blockDataHead currentMID
      block2Num block2Size) := by
  unfold prvSendGetBlock2
  split
  · exact Safe.ok _
  · refine Safe.ite (fun _ => Safe.ok _) fun _ => ?_
    refine (safe_prvCreateNextBlockTransaction _ _).bind fun next => ?_
    cases next with
    | none => exact Safe.ok _
    | some next =>
      refine (safe_coapBlock2SetExpectedMid _ _ _).bind fun _ => ?_
      exact (safe_addAndSend _ _ _).bind fun _ => Safe.ok _

/-! ### The two responses -/

/-- The effective block size of `prv_send_next_block1` is zero exactly when the one of
the request is. -/
theorem effectiveSize_eq_zero_iff (blockSize size : UInt16) :
    (if blockSize > size ∨ blockSize = 0 then size else blockSize) = 0 ↔ size = 0 := by
  split_ifs with h
  · rfl
  · simp only [not_or] at h
    refine iff_of_false h.2 fun hsize => h.1 ?_
    rw [hsize, gt_iff_lt, UInt16.pos_iff_ne_zero]
    exact h.2

/-- **The division** of `prv_send_next_block1` fails for a request whose block number and
block size are both zero. -/
theorem safe_prvSendNextBlock1_iff (tvSec : ℤ) (contextP : TransactionContext)
    (sessionH : Session) (mid blockSize : UInt16) :
    Safe (prvSendNextBlock1 tvSec contextP sessionH mid blockSize) ↔
      ∀ transaction, prvGetTransaction contextP sessionH mid = some transaction →
        ¬ (transaction.message.block1.num = 0 ∧ transaction.message.block1.size = 0) := by
  unfold prvSendNextBlock1
  cases prvGetTransaction contextP sessionH mid with
  | none => exact iff_of_true (Safe.ok _) fun _ h => by cases h
  | some transaction =>
    simp only [Option.some.injEq, forall_eq']
    by_cases hnum : transaction.message.block1.num = 0
    · rw [if_pos hnum]
      by_cases hsize : transaction.message.block1.size = 0
      · rw [if_pos ((effectiveSize_eq_zero_iff _ _).mpr hsize)]
        exact iff_of_false (fun h => (h.2 _ rfl).1 rfl) fun h => h ⟨hnum, hsize⟩
      · rw [if_neg (mt (effectiveSize_eq_zero_iff _ _).mp hsize)]
        exact iff_of_true (safe_prvSendNewBlock1 _ _ _ _ _) fun h => hsize h.2
    · rw [if_neg hnum]
      exact iff_of_true (safe_prvSendNewBlock1 _ _ _ _ _) fun h => hnum h.1

/-- **The dereference** of `prv_change_to_block1` fails when no transaction is found. -/
theorem safe_prvChangeToBlock1_iff (coapBlockSize : UInt16) (tvSec : ℤ)
    (contextP : TransactionContext) (sessionH : Session) (mid : UInt16) (size : UInt32) :
    Safe (prvChangeToBlock1 coapBlockSize tvSec contextP sessionH mid size) ↔
      prvGetTransaction contextP sessionH mid ≠ none := by
  unfold prvChangeToBlock1
  cases prvGetTransaction contextP sessionH mid with
  | none => exact iff_of_false (fun h => (h.2 _ rfl).2 rfl) fun h => h rfl
  | some transaction => exact iff_of_true (safe_prvSendNewBlock1 _ _ _ _ _) (by simp)

/-- The response continues the Block1 transfer of a request that is not part of one. -/
structure AcknowledgesUnstarted (env : PacketEnv) (contextP : TransactionContext)
    (fromSessionH : Session) (message : Packet) : Prop where
  type : message.type = .ack
  short : message.payload.length ≤ env.coapBlockSize.toNat
  block1 : message.isOption .block1 = true
  code : message.code = coap201Created ∨ message.code = coap204Changed ∨
    message.code = coap231Continue
  request : ∃ transaction, prvGetTransaction contextP fromSessionH message.mid = some transaction ∧
    transaction.message.block1.num = 0 ∧ transaction.message.block1.size = 0

/-- The response asks for a Block1 transfer of a request that is not known. -/
structure RejectsUnknown (env : PacketEnv) (contextP : TransactionContext)
    (fromSessionH : Session) (message : Packet) : Prop where
  type : message.type = .ack
  short : message.payload.length ≤ env.coapBlockSize.toNat
  block1 : message.isOption .block1 = false
  block2 : message.isOption .block2 = false
  code : message.code = coap413EntityTooLarge
  unknown : prvGetTransaction contextP fromSessionH message.mid = none

/-! ### The response branch -/

theorem safe_handleLargeResponse (contextP : TransactionContext) (message : Packet) :
    Safe (handleLargeResponse env contextP fromSessionH message) := by
  unfold handleLargeResponse
  extract_lets jp
  have hjp (x : TransactionContext × List Output) : Safe (jp x) :=
    (safe_handleTransaction _ _ _).bind fun _ => Safe.ok _
  split
  · exact (Safe.ok _).bind hjp
  · exact (safe_prvSendGetBlock2 _ _ _ _ _ _ _ _).bind fun _ => (Safe.ok _).bind hjp

theorem safe_handleSeparate (contextP : TransactionContext) (message : Packet) :
    Safe (handleSeparate env contextP fromSessionH message) := by
  refine Safe.ite (fun _ => safe_handleLargeResponse _ _) fun _ => ?_
  exact (safe_handleTransaction _ _ _).bind fun _ => Safe.ite (fun _ => Safe.ok _) fun _ =>
    Safe.ok _

theorem safe_deref (serverList : List Server) (ref : ServerRef) : Safe (deref serverList ref) := by
  unfold deref
  split
  · exact Safe.ok _
  · exact Safe.error harmless_useAfterFree

theorem safe_findCancelled (serverList : List Server) (mid : UInt16) (fromSessionH : Session)
    (watcherList : List Watcher) : Safe (findCancelled serverList mid fromSessionH watcherList) := by
  induction watcherList with
  | nil => exact Safe.ok _
  | cons watcherP next ih =>
    have hnext : Safe (do
        return (← findCancelled serverList mid fromSessionH next).map (Focus.push watcherP)) :=
      ih.bind fun _ => Safe.ok _
    refine Safe.ite (fun _ => (safe_deref _ _).bind fun _ => ?_) fun _ => hnext
    exact Safe.ite (fun _ => Safe.ok _) fun _ => hnext

/-- `observe_cancel` reads the first watcher of an entry; there is one. -/
theorem safe_observeCancel {observedList : List Observed}
    (hentries : ∀ o ∈ observedList, o.watcherList ≠ []) (serverList : List Server)
    (mid : UInt16) (fromSessionH : Session) :
    Safe (observeCancel serverList mid fromSessionH observedList) := by
  induction observedList with
  | nil => exact Safe.ok _
  | cons o next ih =>
    obtain ⟨ho, hnext⟩ := List.forall_mem_cons.mp hentries
    refine Safe.ite (fun h => absurd h ho) fun _ => (safe_findCancelled _ _ _ _).bind fun f => ?_
    cases f with
    | none => exact (ih hnext).bind fun _ => Safe.ok _
    | some f => exact Safe.ite (fun _ => Safe.ok _) fun _ => Safe.ok _

theorem safe_handleReset (hentries : ∀ o ∈ contextP.observedList, o.watcherList ≠ []) :
    Safe (handleReset env contextP fromSessionH message) :=
  (safe_observeCancel hentries _ _ _).bind fun _ =>
    (safe_handleTransaction _ _ _).bind fun _ => Safe.ok _

theorem safe_receiveBlock2 : Safe (receiveBlock2 env contextP fromSessionH message) := by
  unfold receiveBlock2
  split
  · exact Safe.ok _
  · refine (safe_coapBlock2Handler _ _ _).bind fun _ => Safe.ite (fun _ => ?_) fun _ =>
      Safe.ite (fun _ => ?_) fun _ => Safe.ok _
    · exact (safe_handleTransaction _ _ _).bind fun _ => (safe_block2Delete _ _).bind fun _ =>
        Safe.ok _
    · exact (safe_prvSendGetBlock2 _ _ _ _ _ _ _ _).bind fun _ =>
        (safe_handleTransaction _ _ _).bind fun _ => Safe.ok _

/-- An acknowledgement with a Block1 option. -/
theorem safe_continueBlock1_iff : Safe (continueBlock1 env contextP fromSessionH message) ↔
    ¬ ((message.code = coap201Created ∨ message.code = coap204Changed ∨
        message.code = coap231Continue) ∧
      ∃ transaction, prvGetTransaction contextP fromSessionH message.mid = some transaction ∧
        transaction.message.block1.num = 0 ∧ transaction.message.block1.size = 0) := by
  unfold continueBlock1
  by_cases hcode : message.code = coap201Created ∨ message.code = coap204Changed ∨
      message.code = coap231Continue
  · rw [if_pos hcode, safe_prvSendNextBlock1_iff]
    simp only [hcode, true_and, not_exists, not_and]
  · rw [if_neg hcode]
    refine iff_of_true ?_ fun h => hcode h.1
    exact Safe.ite (fun _ => safe_prvRetryBlock1 _ _ _ _ _) fun _ => Safe.ok _

/-- The case COAP_TYPE_ACK. -/
theorem safe_handleAck_iff (htype : message.type = .ack) :
    Safe (handleAck env contextP fromSessionH message) ↔
      ¬ AcknowledgesUnstarted env contextP fromSessionH message ∧
        ¬ RejectsUnknown env contextP fromSessionH message := by
  unfold handleAck
  by_cases hshort : message.payload.length ≤ env.coapBlockSize.toNat
  case neg =>
    rw [if_pos (by omega)]
    refine iff_of_true ((safe_handleLargeResponse _ _).bind fun _ => Safe.ok _) ?_
    exact ⟨fun h => hshort h.short, fun h => hshort h.short⟩
  rw [if_neg (by omega)]
  by_cases hblock1 : message.isOption .block1 = true
  · rw [if_pos hblock1]
    refine (Safe.bind_iff fun _ => (safe_handleTransaction _ _ _).bind fun _ => Safe.ok _).trans ?_
    rw [safe_continueBlock1_iff]
    have hknown : ¬ RejectsUnknown env contextP fromSessionH message := by
      intro h
      rw [h.block1] at hblock1
      cases hblock1
    refine ⟨fun h => ⟨fun hbad => h ⟨hbad.code, hbad.request⟩, hknown⟩, fun h hbad => ?_⟩
    exact h.1 ⟨htype, hshort, hblock1, hbad.1, hbad.2⟩
  rw [if_neg hblock1]
  have hstarted : ¬ AcknowledgesUnstarted env contextP fromSessionH message :=
    fun h => hblock1 h.block1
  by_cases hblock2 : message.isOption .block2 = true
  · rw [if_pos hblock2]
    refine iff_of_true safe_receiveBlock2 ⟨hstarted, fun h => ?_⟩
    rw [h.block2] at hblock2
    cases hblock2
  rw [if_neg hblock2]
  by_cases hcode : message.code = coap413EntityTooLarge
  · rw [if_pos hcode]
    refine (Safe.bind_iff fun _ => (safe_handleTransaction _ _ _).bind fun _ => Safe.ok _).trans ?_
    rw [safe_prvChangeToBlock1_iff]
    refine ⟨fun h => ⟨hstarted, fun hbad => h hbad.unknown⟩, fun h hunknown => h.2 ?_⟩
    exact ⟨htype, hshort, by simpa using hblock1, by simpa using hblock2, hcode, hunknown⟩
  · rw [if_neg hcode]
    exact iff_of_true ((safe_handleTransaction _ _ _).bind fun _ => Safe.ok _)
      ⟨hstarted, fun h => hcode h.code⟩

/-- **The response branch is safe** for exactly the responses that are neither of the
two. -/
theorem safe_handleResponse_iff (hentries : ∀ o ∈ contextP.observedList, o.watcherList ≠ []) :
    Safe (handleResponse env contextP fromSessionH message) ↔
      ¬ AcknowledgesUnstarted env contextP fromSessionH message ∧
        ¬ RejectsUnknown env contextP fromSessionH message := by
  unfold handleResponse
  have hother (htype : message.type ≠ .ack) :
      ¬ AcknowledgesUnstarted env contextP fromSessionH message ∧
        ¬ RejectsUnknown env contextP fromSessionH message :=
    ⟨fun h => htype h.type, fun h => htype h.type⟩
  split
  · rename_i htype
    exact iff_of_true ((safe_handleSeparate _ _).bind fun _ => Safe.ok _) (hother (by simp [htype]))
  · rename_i htype
    exact iff_of_true ((safe_handleSeparate _ _).bind fun _ => Safe.ok _) (hother (by simp [htype]))
  · rename_i htype
    exact iff_of_true ((safe_handleReset hentries).bind fun _ => Safe.ok _)
      (hother (by simp [htype]))
  · rename_i htype
    exact safe_handleAck_iff htype

/-- **Which responses are handled safely.**  In every reachable context and with every
list of transactions, the handling of a received response divides by zero or dereferences
a null pointer exactly when the response is one of the two. -/
theorem lwm2mHandlePacket_safe_iff {nextMID : UInt16} {objectList : List ObjectEntry}
    {events : List Event} {contextP : TransactionContext} {buffer : List Byte} {message : Packet}
    (hrun : clientRun nextMID objectList events = .ok contextP.toContext)
    (hparse : parseReceived buffer = .ok (noError, message))
    (hresponse : ¬ isRequestCode message.code) (altPath : Option CString) (env : PacketEnv)
    (fromSessionH : Session) (outcome : Outcome) :
    (∀ fault,
        lwm2mHandlePacket altPath env contextP buffer fromSessionH outcome = .error fault →
          fault ≠ .divisionByZero ∧ fault ≠ .nullDereference) ↔
      ¬ AcknowledgesUnstarted env contextP fromSessionH message ∧
        ¬ RejectsUnknown env contextP fromSessionH message := by
  have hbranch : lwm2mHandlePacket altPath env contextP buffer fromSessionH outcome =
      handleResponse env contextP fromSessionH message >>= fun r =>
        pure (r.1, r.2.1 ++ errorReply env message fromSessionH r.2.2) := by
    unfold lwm2mHandlePacket
    rw [hparse, ok_bind]
    dsimp only
    rw [if_neg (not_not.mpr rfl), if_neg hresponse]
  rw [← safe_handleResponse_iff (watcherList_ne_nil hrun), hbranch]
  exact Safe.iff.symm.trans (Safe.bind_iff fun _ => Safe.ok _)

/-- An acknowledgement without options to a client without transactions. -/
theorem lwm2mHandlePacket_safe_idle :
    (∀ fault,
        lwm2mHandlePacket none ⟨1024, 0, []⟩ {} [0x60, 0x44, 0, 7] (some 1) readable =
          .error fault → fault ≠ .divisionByZero ∧ fault ≠ .nullDereference) ↔
      ¬ AcknowledgesUnstarted ⟨1024, 0, []⟩ {} (some 1)
          { version := 1, type := .ack, code := 0x44, mid := 7 } ∧
        ¬ RejectsUnknown ⟨1024, 0, []⟩ {} (some 1)
          { version := 1, type := .ack, code := 0x44, mid := 7 } := by
  have hrun : clientRun 0 [] [] = .ok ({} : TransactionContext).toContext := rfl
  exact lwm2mHandlePacket_safe_iff hrun (by decide +kernel) (by decide) none ⟨1024, 0, []⟩
    (some 1) readable

/-- The update of a registration: a POST without payload. -/
def updateRequest : Option Transaction :=
  (transactionNew (some 1) 2 (some [0x2F, 0x72, 0x64]) none 7 [1, 2, 3, 4]).map fun transaction =>
    transactionSetPayload 1024 transaction []

/-- **Two acknowledgements.**  A registration update is sent and answered by 2.04 with a
Block1 option: the client divides by zero.  A client without transactions receives 4.13:
it dereferences a null pointer. -/
theorem acknowledgements_fault :
    (∃ transaction contextP sent, updateRequest = some transaction ∧
      addAndSend 0 { nextMID := 8 } transaction = .ok (contextP, sent, 0) ∧
      lwm2mHandlePacket none ⟨1024, 0, []⟩ contextP [0x60, 0x44, 0, 7, 0xD0, 0x0E] (some 1)
        readable = .error .divisionByZero) ∧
    lwm2mHandlePacket none ⟨1024, 0, []⟩ {} [0x60, 0x8D, 0, 7] (some 1) readable =
      .error .nullDereference := by
  refine ⟨⟨_, _, _, rfl, rfl, ?_⟩, ?_⟩
  · decide +kernel
  · decide +kernel

end Lwm2m.Core

/-
# The owner of the user data of registrations

A `registration_data_t` is shared by the requests of one block-wise transfer, and the callbacks are
to free it with its payload and its query once, with the last of them.  Over every run of
registrations, updates, blocks, restarts, answers, resets and timeouts they do so, as long as new
requests get fresh message-ids and each callback releases what it is to release
(`registrationData_owned`).

An update that times out is the first run in which one does not: nothing is freed
(`update_timeout_leaks`).
-/

import Lwm2m.Core.RegistrationReply

namespace Lwm2m.Core

open Coap Code Library Library.Memory

namespace RegistrationMemory

variable {s s' : RegistrationMemory} {l l' others : List Transaction} {t t' : Transaction} {a : ℕ}
  {heap : Heap}

/-! ### The calls of an event -/

variable {sent : List Output} {contextP : TransactionContext} {packet : Option Packet}
  {next : Transaction} {tvSec result : ℤ} {reply : ReplyInput} {data : RegistrationData}
  {input : RequestInput} {mID : UInt16}

theorem runCalls_append (hsent : NoCall sent) (rest : List Output) (input : ReplyInput)
    (others : List Transaction) (s : RegistrationMemory) :
    runCalls input others s (sent ++ rest) = runCalls input others s rest := by
  induction sent with
  | nil => rfl
  | cons o sent ih =>
    obtain ⟨⟨sessionH, buffer, rfl⟩, hrest⟩ := List.forall_mem_cons.mp hsent
    exact ih hrest

theorem resume_of_noCall (hsent : NoCall sent) (input : ReplyInput) (others : List Transaction)
    (s : RegistrationMemory) (contextP : TransactionContext) :
    s.resume input others contextP sent = .ok { s with toTransactionContext := contextP } := by
  unfold resume
  rw [← List.append_nil sent, runCalls_append hsent]
  rfl

/-- The outputs of a transaction that ends, with the call of its callback. -/
theorem Keeps.resume (h : { s with toTransactionContext := contextP }.Keeps (t :: others))
    (hsent : NoCall sent) (input : ReplyInput) (packet : Option Packet) :
    ∃ s', s.resume input others contextP (sent ++ callCallback t packet) = .ok s' ∧
      s'.transactionList = contextP.transactionList ∧
      (s'.Keeps others ↔
        { s with toTransactionContext := contextP }.CallReleases others t packet) := by
  obtain ⟨a, hcarries⟩ := h.carries t List.mem_cons_self
  obtain ⟨callback, hcallback⟩ : ∃ callback, t.callback = some callback := by
    rcases hcarries.callback with ⟨h, -⟩ | ⟨h, -⟩ <;> exact ⟨_, h⟩
  obtain ⟨s', hcall, hsame, hiff⟩ := call_keeps_iff h hcallback input packet
  refine ⟨s', ?_, hsame.transactionList, hiff⟩
  unfold RegistrationMemory.resume callCallback
  rw [runCalls_append hsent, hcallback]
  unfold runCalls
  rw [hcall]
  rfl

theorem CallReleases.congr (h : s.CallReleases others t packet) (howner : owner t' = owner t) :
    s.CallReleases others t' packet := by
  obtain ⟨hcallback, huserData⟩ := Prod.mk.inj howner
  unfold CallReleases
  rw [hcallback, huserData]
  exact h

/-- The list of transactions is in order, each of them was serialized, and they share the
allocated user data. -/
structure DataKept (s : RegistrationMemory) : Prop where
  sorted : s.transactionList.Pairwise (·.mID < ·.mID)
  buffered : ∀ t ∈ s.transactionList, t.buffer ≠ none
  keeps : s.Keeps s.transactionList

/-- **A new transaction is sent**, and either waits or is released again. -/
theorem DataKept.addAndSend (hsorted : s.transactionList.Pairwise (·.mID < ·.mID))
    (hbuffered : ∀ t ∈ s.transactionList, t.buffer ≠ none)
    (hfresh : ∀ t ∈ s.transactionList, t.mID ≠ next.mID)
    (hkeeps : s.Keeps (next :: s.transactionList))
    (hempty : serializeBuffer next = .ok none → s.Keeps s.transactionList)
    (hexpired : result ≠ 0 → s.CallReleases s.transactionList next none)
    (hsend : Core.addAndSend tvSec s.toTransactionContext next = .ok (contextP, sent, result))
    (hresume : s.resume reply s.transactionList contextP sent = .ok s') : s'.DataKept := by
  obtain ⟨next', hsame, hadd⟩ := addResult_of_addAndSend hsorted hfresh hsend
  have howner := owner_eq hsame
  cases hadd with
  | waits hbuffer hsent =>
    rw [resume_of_noCall hsent] at hresume
    cases hresume
    refine ⟨listAdd_pairwise hsorted fun t ht => hsame.mID ▸ hfresh t ht, fun t ht => ?_, ?_⟩
    · rcases mem_listAdd.mp ht with rfl | ht
      · exact hbuffer
      · exact hbuffered t ht
    · refine hkeeps.congr rfl rfl (fun server hmem => ⟨server, hmem, rfl⟩) fun k => ?_
      rw [((listAdd_perm next' s.transactionList).map owner).mem_iff, List.map_cons, List.map_cons,
        howner]
  | empty _ hsize =>
    cases hresume
    exact ⟨hsorted, hbuffered, hempty hsize⟩
  | expired hne hsent =>
    have hkeeps' : s.Keeps (next' :: s.transactionList) :=
      hkeeps.congr rfl rfl (fun server hmem => ⟨server, hmem, rfl⟩) fun k => by
        rw [List.map_cons, List.map_cons, howner]
    obtain ⟨s'', hresume', hlist, hiff⟩ := Keeps.resume (s := s) hkeeps' hsent reply none
    obtain rfl := Except.ok.inj (hresume'.symm.trans hresume)
    have hreleased := hiff.mpr ((hexpired hne).congr howner)
    exact ⟨hlist ▸ hsorted, hlist ▸ hbuffered, hlist ▸ hreleased⟩

/-! ### The requests that continue a transfer -/

/-- What the functions that continue a transfer do: they may take a message-id, or send a new
transaction with the callback and the user data of a listed one. -/
inductive Continued (tvSec : ℤ) (contextP : TransactionContext) :
    TransactionContext → List Output → Prop
  | same {contextP' : TransactionContext}
    (hlist : contextP'.transactionList = contextP.transactionList)
    (hservers : contextP'.serverList = contextP.serverList) : Continued tvSec contextP contextP' []
  | next {previous next : Transaction} (hprevious : previous ∈ contextP.transactionList)
    (howner : owner next = owner previous) (hmid : next.mID = contextP.nextMID)
    {contextP' : TransactionContext} {sent : List Output} {result : ℤ}
    (hsend : Core.addAndSend tvSec { contextP with nextMID := contextP.nextMID + 1 } next =
      .ok (contextP', sent, result)) : Continued tvSec contextP contextP' sent

theorem owner_of_prvCreateNextBlockTransaction {transaction : Transaction} {nextMID : UInt16}
    (h : prvCreateNextBlockTransaction transaction nextMID = .ok (some next)) :
    owner next = owner transaction ∧ next.mID = nextMID := by
  obtain ⟨⟨code, message⟩, -, h⟩ := bind_eq_ok_iff.mp h
  dsimp only at h
  split at h
  · cases h
  · split at h
    · cases h
    · rename_i clone hnew
      split at h
      · cases h
      · cases h
        refine ⟨rfl, ?_⟩
        unfold transactionNew at hnew
        split_ifs at hnew
        all_goals
          cases hnew
          rfl

variable {message : Packet} {contextP' : TransactionContext} {rest : List ℕ} {f : Focus Transaction}
  {serverP : ServerRef} {code : Code}

section continued

variable {tvSec : ℤ} {contextP contextP' : TransactionContext} {sent : List Output} {result : ℤ}
  {sessionH : Session} {mid : UInt16} {transaction : Transaction}

theorem mem_of_prvGetTransaction
    (h : prvGetTransaction contextP sessionH mid = some transaction) :
    transaction ∈ contextP.transactionList :=
  List.mem_of_find?_eq_some h

theorem continued_prvSendNewBlock1 {blockNum : UInt32} {blockSize : UInt16}
    (hprevious : transaction ∈ contextP.transactionList)
    (h : prvSendNewBlock1 tvSec contextP transaction blockNum blockSize =
      .ok (contextP', sent, result)) : Continued tvSec contextP contextP' sent := by
  unfold prvSendNewBlock1 at h
  dsimp only at h
  split_ifs at h
  · cases h
    exact .same rfl rfl
  · obtain ⟨next, hnext, h⟩ := bind_eq_ok_iff.mp h
    cases next with
    | none =>
      cases h
      exact .same rfl rfl
    | some next =>
      obtain ⟨howner, hmid⟩ := owner_of_prvCreateNextBlockTransaction hnext
      refine .next hprevious ?_ ?_ h
      · exact howner
      · exact hmid

theorem continued_continueBlock1 {env : PacketEnv}
    (h : Core.continueBlock1 env contextP sessionH message = .ok (contextP', sent, result)) :
    Continued env.tvSec contextP contextP' sent := by
  unfold Core.continueBlock1 at h
  split_ifs at h
  · unfold prvSendNextBlock1 at h
    split at h
    · cases h
      exact .same rfl rfl
    · rename_i transaction hfind
      have hmem := mem_of_prvGetTransaction hfind
      dsimp only at h
      split_ifs at h <;>
        first
        | exact continued_prvSendNewBlock1 hmem h
        | cases h
  · unfold prvRetryBlock1 at h
    split at h
    · cases h
      exact .same rfl rfl
    · rename_i transaction hfind
      have hmem := mem_of_prvGetTransaction hfind
      dsimp only at h
      split_ifs at h <;>
        first
        | exact continued_prvSendNewBlock1 hmem h
        | cases h; exact .same rfl rfl
  · cases h
    exact .same rfl rfl

variable {coapBlockSize : UInt16}

theorem continued_prvChangeToBlock1 {size : UInt32}
    (h : prvChangeToBlock1 coapBlockSize tvSec contextP sessionH mid size =
      .ok (contextP', sent, result)) : Continued tvSec contextP contextP' sent := by
  unfold prvChangeToBlock1 at h
  split at h
  · cases h
  · rename_i transaction hfind
    exact continued_prvSendNewBlock1 (mem_of_prvGetTransaction hfind) h

theorem continued_prvSendGetBlock2 {block2Size : UInt16} {block2Num : UInt32}
    {blockDataHead blockDataHead' : List BlockData}
    (h : prvSendGetBlock2 coapBlockSize tvSec contextP sessionH blockDataHead mid block2Num
      block2Size = .ok (contextP', blockDataHead', sent)) :
    Continued tvSec contextP contextP' sent := by
  unfold prvSendGetBlock2 at h
  split at h
  · cases h
    exact .same rfl rfl
  · rename_i transaction hfind
    have hmem := mem_of_prvGetTransaction hfind
    split_ifs at h
    · cases h
      exact .same rfl rfl
    · dsimp only at h
      obtain ⟨next, hnext, h⟩ := bind_eq_ok_iff.mp h
      cases next with
      | none =>
        cases h
        exact .same rfl rfl
      | some next =>
        obtain ⟨howner, hmid⟩ := owner_of_prvCreateNextBlockTransaction hnext
        obtain ⟨blockData, -, h⟩ := bind_eq_ok_iff.mp h
        obtain ⟨⟨contextP₁, sent₁, result⟩, hsend, h⟩ := bind_eq_ok_iff.mp h
        cases h
        refine .next hmem ?_ ?_ hsend
        · exact howner
        · exact hmid

end continued

/-! ### Message-ids -/

theorem nextMID_of_call {input : ReplyInput} {callback : ℕ}
    (h : s.call input others callback t packet = .ok s') : s'.nextMID = s.nextMID := by
  unfold call at h
  split_ifs at h
  · unfold prvHandleRegistrationReply at h
    obtain ⟨dataP, -, h⟩ := bind_eq_ok_iff.mp h
    obtain ⟨server, -, h⟩ := bind_eq_ok_iff.mp h
    dsimp only at h
    split at h
    · obtain ⟨_, -, h⟩ := bind_eq_ok_iff.mp h
      cases h
      rfl
    · have hmid : (if server.status = .regPending then
          s.registrationAnswered input dataP.server packet else s).nextMID = s.nextMID := by
        split
        · exact (SameData.registrationAnswered input s dataP.server packet).nextMID
        · rfl
      obtain ⟨⟨heap, last⟩, -, h⟩ := bind_eq_ok_iff.mp h
      split at h
      · obtain ⟨_, -, h⟩ := bind_eq_ok_iff.mp h
        obtain ⟨_, -, h⟩ := bind_eq_ok_iff.mp h
        cases h
        exact hmid
      · cases h
        exact hmid
  · unfold prvHandleRegistrationUpdateReply at h
    obtain ⟨dataP, -, h⟩ := bind_eq_ok_iff.mp h
    obtain ⟨server, -, h⟩ := bind_eq_ok_iff.mp h
    dsimp only at h
    split at h
    · obtain ⟨_, -, h⟩ := bind_eq_ok_iff.mp h
      cases h
      rfl
    · generalize hs₁ : (if server.status = .regUpdatePending then s.updateServers _ else s) = s₁
        at h
      have hmid : s₁.nextMID = s.nextMID := by
        rw [← hs₁]
        split <;> rfl
      split at h
      · obtain ⟨_, -, h⟩ := bind_eq_ok_iff.mp h
        obtain ⟨_, -, h⟩ := bind_eq_ok_iff.mp h
        cases h
        exact hmid
      · cases h
        exact hmid
  · cases h
    rfl

theorem nextMID_of_runCalls {input : ReplyInput} (h : runCalls input others s sent = .ok s') :
    s'.nextMID = s.nextMID := by
  induction sent generalizing s with
  | nil =>
    cases h
    rfl
  | cons o sent ih =>
    cases o with
    | datagram => exact ih h
    | callback =>
      obtain ⟨s₁, hcall, h⟩ := bind_eq_ok_iff.mp h
      exact (ih h).trans (nextMID_of_call hcall)

theorem nextMID_of_resume {input : ReplyInput} (h : s.resume input others contextP sent = .ok s') :
    s'.nextMID = contextP.nextMID :=
  nextMID_of_runCalls h

theorem nextMID_of_addAndSend
    (h : Core.addAndSend tvSec contextP next = .ok (contextP', sent, result)) :
    contextP'.nextMID = contextP.nextMID ∧ contextP'.serverList = contextP.serverList := by
  obtain ⟨⟨next', sent', result'⟩, -, h⟩ := bind_eq_ok_iff.mp h
  dsimp only at h
  split_ifs at h <;>
    cases h <;>
    exact ⟨rfl, rfl⟩

/-- A new message-id is no listed one. -/
theorem add_one_ne (mid : UInt16) : mid + 1 ≠ mid := by
  intro h
  have hnat := congrArg UInt16.toNat h
  rw [UInt16.toNat_add, UInt16.toNat_one] at hnat
  omega

/-- **A transfer that is continued keeps the user data.** -/
theorem DataKept.continued (h : s.DataKept)
    (hcontinued : Continued tvSec s.toTransactionContext contextP sent)
    (hfresh : s'.nextMID ≠ s.nextMID → ∀ t ∈ s.transactionList, t.mID ≠ s.nextMID)
    (hresume : s.resume reply s.transactionList contextP sent = .ok s') : s'.DataKept := by
  cases hcontinued with
  | same hlist hservers =>
    cases hresume
    refine ⟨hlist ▸ h.sorted, hlist ▸ h.buffered, ?_⟩
    refine h.keeps.congr rfl rfl (fun server hmem => ⟨server, ?_, rfl⟩) fun k => by rw [hlist]
    exact hservers ▸ hmem
  | @next previous next hprevious howner hmid _ _ result hsend =>
    have hnew : s'.nextMID ≠ s.nextMID := by
      rw [nextMID_of_resume hresume, (nextMID_of_addAndSend hsend).1]
      exact add_one_ne s.nextMID
    let s₁ : RegistrationMemory := { s with nextMID := s.nextMID + 1 }
    have hkeeps : s₁.Keeps s₁.transactionList :=
      h.keeps.congr rfl rfl (fun server hmem => ⟨server, hmem, rfl⟩) fun k => Iff.rfl
    have hshared : s₁.Keeps (next :: s₁.transactionList) := by
      refine hkeeps.congr rfl rfl (fun server hmem => ⟨server, hmem, rfl⟩) fun k => ?_
      rw [List.map_cons, List.mem_cons, howner, or_iff_right_iff_imp]
      rintro rfl
      exact List.mem_map_of_mem hprevious
    obtain ⟨hcallback, huserData⟩ := Prod.mk.inj howner
    refine DataKept.addAndSend (s := s₁) h.sorted h.buffered
      (fun t ht => hmid ▸ hfresh hnew t ht) hshared (fun _ => hkeeps) (fun _ => ?_) hsend hresume
    intro a ha server _
    have hmem : a ∈ dataRefs s₁.transactionList := ⟨previous, hprevious, huserData ▸ ha⟩
    split_ifs
    · exact fun _ => hmem
    · exact updateReleases_none.mpr hmem

/-! ### New requests -/

/-- The user data of a new transaction. -/
theorem Keeps.adopt (hcarries : ∀ t ∈ l, ∃ a, s.Carries t a)
    (hblocks : Blocks s.parts (dataRefs l) rest)
    (hholds : s.heap.Holds (data.query.toList ++ data.payload.toList ++ rest))
    (huserData : next.userData = some s.heap.frontier)
    (hcallback : next.callback = some registrationReply ∧ data.payload ≠ none ∨
      next.callback = some registrationUpdateReply ∧ data.query = none)
    (hserver : ∃ server ∈ s.serverList, server.ref = data.server) :
    { s with
      heap := (s.heap.alloc .node).1
      registrationData := Function.update s.registrationData s.heap.frontier data }.Keeps
        (next :: l) := by
  have hlt : ∀ a ∈ dataRefs l, a < s.heap.frontier := fun a ha =>
    hholds.lt_frontier (List.mem_append_right _
      (hblocks.mem_iff.mpr ⟨a, ha, List.mem_cons_self⟩))
  have hnew : s.heap.frontier ∉ dataRefs l := fun h => lt_irrefl _ (hlt _ h)
  have hself : Function.update s.registrationData s.heap.frontier data s.heap.frontier = data :=
    Function.update_self ..
  have hold : ∀ a ∈ dataRefs l, Function.update s.registrationData s.heap.frontier data a =
      s.registrationData a := fun a ha => Function.update_of_ne (hlt a ha).ne ..
  refine ⟨List.forall_mem_cons.mpr ⟨⟨s.heap.frontier, huserData, ?_, ?_⟩, fun t ht => ?_⟩, ?_⟩
  · dsimp only
    rw [hself]
    exact hcallback
  · dsimp only
    rw [hself]
    exact hserver
  · obtain ⟨a, ha⟩ := hcarries t ht
    exact ⟨a, ha.congr (hold a ⟨t, ht, ha.userData⟩) (fun server hmem => ⟨server, hmem, rfl⟩) rfl⟩
  · rw [dataRefs_cons huserData]
    refine ⟨_, (hblocks.congr fun a ha => ?_).insert hnew, ?_⟩
    · unfold parts
      dsimp only
      rw [hold a ha]
    · have hparts : ({ s with
          heap := (s.heap.alloc .node).1
          registrationData := Function.update s.registrationData s.heap.frontier data
          }.parts s.heap.frontier) = data.query.toList ++ data.payload.toList := by
        unfold parts
        dsimp only
        rw [hself]
      rw [hparts]
      exact hholds.alloc .node

/-- A transaction that was not sent yet. -/
structure IsNew (t : Transaction) (mID : UInt16) : Prop where
  mID : t.mID = mID
  buffer : t.buffer = none
  ackReceived : t.ackReceived = false
  retransCounter : t.retransCounter = 0

theorem isNew_of_newRequest {sessionH : Session} (h : newRequest input sessionH mID = some t) :
    IsNew t mID := by
  unfold newRequest transactionNew at h
  split_ifs at h
  all_goals
    cases h
    exact ⟨rfl, rfl, rfl, rfl⟩

theorem isNew_registerRequest (h : IsNew t mID) (query : CString) :
    IsNew (registerRequest input t query) mID :=
  ⟨h.mID, h.buffer, h.ackReceived, h.retransCounter⟩

theorem isNew_updateRegistrationRequest (input : RequestInput) (h : IsNew t mID)
    (location : CString) (withObjects : Bool) :
    IsNew (updateRegistrationRequest input t location withObjects) mID ∧
      (updateRegistrationRequest input t location withObjects).callback = some registrationUpdateReply := by
  unfold updateRegistrationRequest
  split_ifs <;> exact ⟨⟨h.mID, h.buffer, h.ackReceived, h.retransCounter⟩, rfl⟩

/-- The first sending succeeds when there is a clock and the message has bytes. -/
theorem result_of_addAndSend (hnew : IsNew next mID) (htime : 0 ≤ tvSec)
    (hsize : serializeBuffer next ≠ .ok none)
    (h : Core.addAndSend tvSec contextP next = .ok (contextP', sent, result)) : result = 0 := by
  obtain ⟨⟨next', sent', result'⟩, hsend, h⟩ := bind_eq_ok_iff.mp h
  have hresult : result' = 0 := by
    rcases transactionSend_cases hsend with ⟨-, -, -, hnone⟩ | ⟨u, buffer, hbuffered, hcase⟩
    · exact absurd hnone hsize
    · have hack : u.ackReceived = false := by
        cases hbuffered <;> exact hnew.ackReceived
      have hcounter : u.retransCounter = 0 := by
        cases hbuffered <;> exact hnew.retransCounter
      cases hcase with
      | acknowledged hreceived => exact absurd (hack.symm.trans hreceived) Bool.false_ne_true
      | first | again => rfl
      | noClock _ _ hclock => exact absurd htime hclock
      | exhausted _ hgt =>
        rw [hcounter] at hgt
        exact absurd (by decide) hgt
  dsimp only at h
  rw [if_pos hresult] at h
  cases h
  exact hresult

/-- The message of the transaction has bytes, also when their number is taken in 16 bits. -/
def HasBytes (t : Transaction) : Prop := coapSerializeGetSize t.message % 65536 ≠ 0

instance (t : Transaction) : Decidable (HasBytes t) := inferInstanceAs (Decidable (_ ≠ _))

/-- **A new request gets its user data and is sent.** -/
theorem DataKept.sendWith {s₁ : RegistrationMemory} (h : s.DataKept)
    (hblocks : Blocks s.parts (dataRefs s.transactionList) rest) (hsame : SameUsers s s₁)
    (hholds : s₁.heap.Holds (data.query.toList ++ data.payload.toList ++ rest))
    (hserver : ∃ server ∈ s.serverList, server.ref = data.server) (hnew : IsNew t mID)
    (hfresh : ∀ t ∈ s.transactionList, t.mID ≠ mID) (hbytes : HasBytes t)
    (hcallback : t.callback = some registrationReply ∧ data.payload ≠ none ∨
      t.callback = some registrationUpdateReply ∧ data.query = none ∧ 0 ≤ input.tvSec)
    (hsend : s₁.sendWith input reply t data = .ok (s', result)) : s'.DataKept := by
  obtain ⟨⟨contextP, sent, result'⟩, hadd, hsend⟩ := bind_eq_ok_iff.mp hsend
  obtain ⟨s₂, hresume, hsend⟩ := bind_eq_ok_iff.mp hsend
  cases hsend
  have hlist := hsame.transactionList
  let next : Transaction := { t with userData := some s₁.heap.frontier }
  have hsize : serializeBuffer next ≠ .ok none := fun h =>
    hbytes (serializeBuffer_eq_none_iff.mp h).2
  have hcarries : ∀ t' ∈ s₁.transactionList, ∃ a, s₁.Carries t' a := fun t' ht' => by
    obtain ⟨a, hcarries⟩ := h.keeps.carries t' (hlist ▸ ht')
    exact ⟨a, hcarries.congr (congrFun hsame.registrationData a) hsame.servers rfl⟩
  have hblocks' : Blocks s₁.parts (dataRefs s₁.transactionList) rest := by
    rw [hsame.parts_eq, hlist]
    exact hblocks
  have hserver' : ∃ server ∈ s₁.serverList, server.ref = data.server := by
    obtain ⟨server, hmem, href⟩ := hserver
    obtain ⟨server', hmem', href'⟩ := hsame.servers server hmem
    exact ⟨server', hmem', href'.trans href⟩
  have hnext : IsNew next mID := ⟨hnew.mID, hnew.buffer, hnew.ackReceived, hnew.retransCounter⟩
  let s₃ : RegistrationMemory := { s₁ with
    heap := (s₁.heap.alloc .node).1
    registrationData := Function.update s₁.registrationData s₁.heap.frontier data }
  have hkeeps : s₃.Keeps (next :: s₃.transactionList) :=
    Keeps.adopt hcarries hblocks' hholds rfl (hcallback.imp id fun h => ⟨h.1, h.2.1⟩) hserver'
  refine DataKept.addAndSend (s := s₃) (hlist ▸ h.sorted) (hlist ▸ h.buffered) (fun t' ht' => ?_)
    hkeeps (fun hnone => absurd hnone hsize) (fun hresult => ?_) hadd hresume
  · exact hnew.mID ▸ hfresh t' (hlist ▸ ht')
  · rcases hcallback with ⟨hregistration, -⟩ | ⟨-, -, htime⟩
    · intro a _ server _
      rw [if_pos hregistration]
      exact fun h => absurd h.2 Bool.false_ne_true
    · exact absurd (result_of_addAndSend hnext htime hsize hadd) hresult

/-! ### Events -/

/-- The events of which the condition is one on the state before: a new request is sent; an ending
transaction releases what the others do not have. -/
def EventReleases (s : RegistrationMemory) : RegistrationEvent → Prop
  | .register input serverP => ∀ server, deref s.serverList serverP = .ok server →
    ∀ transaction, newRequest input (server.sessionH.orElse fun _ => input.connect) s.nextMID =
      some transaction →
    ∀ query, input.query = some query → HasBytes (registerRequest input transaction query)
  | .update input serverP withObjects => ∀ server, deref s.serverList serverP = .ok server →
    ∀ transaction, newRequest input server.sessionH s.nextMID = some transaction →
    ∀ location, s.location serverP = some location →
      HasBytes (updateRegistrationRequest input transaction location withObjects) ∧ 0 ≤ input.tvSec
  | .send tvSec mID => ∀ l sent, handleEvent s.transactionList (.send tvSec mID) = .ok (l, sent) →
    ∀ callback t packet, .callback callback t packet ∈ sent → s.CallReleases l t packet
  | .response tvSec fromSessionH message withResponse => ∀ l sent,
    handleEvent s.transactionList (.response tvSec fromSessionH message withResponse) =
      .ok (l, sent) →
    ∀ callback t packet, .callback callback t packet ∈ sent → s.CallReleases l t packet
  | .continueBlock1 .. | .changeToBlock1 .. | .getBlock2 .. | .servers _ => True

/-- A step of a run in which new requests get fresh message-ids and the callbacks release what
they are to release. -/
structure ReleasingStep (s : RegistrationMemory) (e : ReplyInput × RegistrationEvent)
    (s' : RegistrationMemory) : Prop where
  after : s.after e.1 e.2 = .ok s'
  fresh : s'.nextMID ≠ s.nextMID → ∀ t ∈ s.transactionList, t.mID ≠ s.nextMID
  releases : s.EventReleases e.2

theorem Keeps.sameData (h : s.Keeps l) (hsame : SameData s s') : s'.Keeps l :=
  h.congr hsame.heap hsame.registrationData hsame.servers fun _ => Iff.rfl

theorem DataKept.sameData (h : s.DataKept) (hsame : SameData s s') : s'.DataKept := by
  have hlist := hsame.transactionList
  exact ⟨hlist ▸ h.sorted, hlist ▸ h.buffered, hlist ▸ h.keeps.sameData hsame⟩

/-- A transaction that ends calls its callback and leaves the list. -/
theorem DataKept.ended (h : s.DataKept) (hlist : f.list = s.transactionList)
    (howner : owner t = owner f.here) (hsent : NoCall sent)
    (hreleases : ∀ callback t' packet', .callback callback t' packet' ∈
      sent ++ callCallback t packet → s.CallReleases f.unlink t' packet')
    (hresume : s.resume reply f.unlink { s.toTransactionContext with transactionList := f.unlink }
      (sent ++ callCallback t packet) = .ok s') : s'.DataKept := by
  let s₁ : RegistrationMemory := { s with transactionList := f.unlink }
  have hkeeps : s₁.Keeps (t :: f.unlink) := by
    refine h.keeps.congr rfl rfl (fun server hmem => ⟨server, hmem, rfl⟩) fun k => ?_
    have hperm : (f.here :: f.unlink).Perm s.transactionList := hlist ▸ List.perm_middle.symm
    rw [← (hperm.map owner).mem_iff, List.map_cons, List.map_cons, howner]
  have hsub : f.unlink.Sublist s.transactionList := by
    rw [← hlist]
    exact (List.sublist_cons_self _ _).append_left _
  obtain ⟨s'', hresume', hlist', hiff⟩ := Keeps.resume (s := s) hkeeps hsent reply packet
  obtain rfl := Except.ok.inj (hresume'.symm.trans hresume)
  obtain ⟨a, hcarries⟩ := hkeeps.carries t List.mem_cons_self
  have hcall : ∃ callback, Output.callback callback t packet ∈ sent ++ callCallback t packet := by
    rcases hcarries.callback with ⟨hcallback, -⟩ | ⟨hcallback, -⟩ <;>
      exact ⟨_, List.mem_append_right _ (by rw [callCallback, hcallback]; exact List.mem_cons_self)⟩
  obtain ⟨callback, hmem⟩ := hcall
  have hreleased := hiff.mpr (hreleases callback t packet hmem)
  refine ⟨hlist' ▸ h.sorted.sublist hsub, hlist' ▸ fun t ht => h.buffered t (hsub.mem ht), ?_⟩
  rw [hlist']
  exact hreleased

/-- A transaction that is changed in place. -/
theorem DataKept.changed (h : s.DataKept) (hlist : f.list = s.transactionList)
    (hsame : SameOwner f.here t) (hbuffer : t.buffer ≠ none) (hsent : NoCall sent)
    (hresume : s.resume reply (f.set t) { s.toTransactionContext with transactionList := f.set t }
      sent = .ok s') : s'.DataKept := by
  rw [resume_of_noCall hsent] at hresume
  cases hresume
  have hmap {β : Type} (g : Transaction → β) (hg : g t = g f.here) :
      (f.set t).map g = s.transactionList.map g := by
    rw [← hlist, Focus.list, Focus.set, Focus.set, List.map_append, List.map_append, List.map_cons,
      List.map_cons, hg]
  refine ⟨?_, fun t' ht' => ?_, ?_⟩
  · have hsorted := h.sorted
    rw [← List.pairwise_map (f := Transaction.mID) (R := (· < ·))] at hsorted ⊢
    rwa [hmap _ hsame.mID]
  · rcases Focus.mem_set.mp ht' with rfl | ht'
    · exact hbuffer
    · exact h.buffered t' (hlist ▸ Focus.mem_list.mpr (.inr ht'))
  · refine h.keeps.congr rfl rfl (fun server hmem => ⟨server, hmem, rfl⟩) fun k => ?_
    rw [hmap _ (owner_eq hsame)]

theorem nextMID_of_sendWith (h : s.sendWith input reply t data = .ok (s', result)) :
    s'.nextMID = s.nextMID := by
  obtain ⟨⟨contextP, sent, result'⟩, hsend, h⟩ := bind_eq_ok_iff.mp h
  obtain ⟨s₂, hresume, h⟩ := bind_eq_ok_iff.mp h
  cases h
  exact (nextMID_of_resume hresume).trans (nextMID_of_addAndSend hsend).1

/-- A request that is given up before it gets its user data. -/
theorem DataKept.givenUp {owned : List ℕ} (h : s.DataKept)
    (hblocks : Blocks s.parts (dataRefs s.transactionList) owned) (hholds : heap.Holds owned)
    (hsame : SameUsers s s') : { s' with heap }.DataKept := by
  have hlist := hsame.transactionList
  refine ⟨hlist ▸ h.sorted, hlist ▸ h.buffered, fun t ht => ?_, owned, ?_, hholds⟩
  · obtain ⟨a, hcarries⟩ := h.keeps.carries t (hlist ▸ ht)
    exact ⟨a, hcarries.congr (congrFun hsame.registrationData a) hsame.servers rfl⟩
  · have hparts : { s' with heap }.parts = s.parts := hsame.parts_eq
    rw [hparts]
    exact hlist ▸ hblocks

theorem sameData_connected (s : RegistrationMemory) (server : Server) (session : Session) :
    SameData s (s.connected server session) := by
  unfold connected
  split_ifs
  · exact .updateServers s _
  · exact .refl s

theorem mem_of_deref {serverList : List Server} {ref : ServerRef} {server : Server}
    (h : deref serverList ref = .ok server) : server ∈ serverList ∧ server.ref = ref := by
  unfold deref at h
  split at h
  next server' hfind =>
    cases h
    exact ⟨List.mem_of_find?_eq_some hfind, by simpa using List.find?_some hfind⟩
  next => cases h

/-- **A registration keeps the user data.** -/
theorem DataKept.register (h : s.DataKept) (hreleases : s.EventReleases (.register input serverP))
    (hfresh : s'.nextMID ≠ s.nextMID → ∀ t ∈ s.transactionList, t.mID ≠ s.nextMID)
    (hregister : s.prvRegister input reply serverP = .ok (s', code)) : s'.DataKept := by
  obtain ⟨owned, hblocks, hholds⟩ := h.keeps.shared
  have hpayload := hholds.alloc (.buffer input.payload)
  have hrefl := (SameData.refl s).toSameUsers
  unfold prvRegister at hregister
  dsimp only at hregister
  split_ifs at hregister
  · obtain ⟨heap, hfree, hholds'⟩ := lwm2mFree_holds (p := some s.heap.frontier) hpayload
    rw [alloc_address, hfree] at hregister
    cases hregister
    exact h.givenUp hblocks hholds' hrefl
  · split at hregister
    next =>
      obtain ⟨heap, hfree, hholds'⟩ := lwm2mFree_holds (p := some s.heap.frontier) hpayload
      rw [alloc_address, hfree] at hregister
      cases hregister
      exact h.givenUp hblocks hholds' hrefl
    next text htext =>
      have hquery := hpayload.alloc (.buffer (text ++ [0]))
      obtain ⟨server, hserver, hregister⟩ := bind_eq_ok_iff.mp hregister
      have hconnected := sameData_connected s server input.connect
      generalize s.connected server input.connect = s₁ at hconnected hregister
      rw [hconnected.nextMID] at hregister
      split at hregister
      next =>
        obtain ⟨heap₁, hfree₁, hholds₁⟩ := lwm2mFree_holds (p := some s.heap.frontier)
          (hquery.perm (.swap ..))
        obtain ⟨heap₂, hfree₂, hholds₂⟩ := lwm2mFree_holds
          (p := some (s.heap.alloc (.buffer input.payload)).1.frontier) hholds₁
        rw [alloc_address, alloc_address, hfree₁, ok_bind, hfree₂] at hregister
        cases hregister
        exact h.givenUp hblocks hholds₂ hconnected.toSameUsers
      next transaction htransaction =>
        obtain ⟨⟨s₂, result⟩, hsend, hregister⟩ := bind_eq_ok_iff.mp hregister
        have hmid : s₂.nextMID = s.nextMID + 1 := nextMID_of_sendWith hsend
        have hsame : SameUsers s { s₁ with
            heap := ((s.heap.alloc (.buffer input.payload)).1.alloc (.buffer (text ++ [0]))).1
            nextMID := s.nextMID + 1 } :=
          ⟨hconnected.registrationData, hconnected.transactionList, hconnected.servers⟩
        have hkept (hne : s'.nextMID = s.nextMID + 1) : s₂.DataKept := by
          refine h.sendWith hblocks hsame ?_ ⟨server, mem_of_deref hserver⟩
            (isNew_registerRequest (isNew_of_newRequest htransaction) text)
            (hfresh (hne ▸ add_one_ne s.nextMID))
            (hreleases server hserver transaction htransaction text htext)
            (.inl ⟨rfl, Option.some_ne_none _⟩) hsend
          exact hquery
        split_ifs at hregister
        · cases hregister
          exact (hkept hmid).sameData (.updateServers _ _)
        · cases hregister
          exact hkept hmid

theorem sameData_updateSent (s : RegistrationMemory) (serverP : ServerRef) (result : ℤ) :
    SameData s (s.updateSent serverP result) := by
  unfold updateSent
  split_ifs
  · exact .updateServers s _
  · exact .refl s

/-- **An update keeps the user data.** -/
theorem DataKept.update (h : s.DataKept) {withObjects : Bool}
    (hreleases : s.EventReleases (.update input serverP withObjects))
    (hfresh : s'.nextMID ≠ s.nextMID → ∀ t ∈ s.transactionList, t.mID ≠ s.nextMID)
    (hupdate : s.prvUpdateRegistration input reply serverP withObjects = .ok (s', code)) :
    s'.DataKept := by
  obtain ⟨owned, hblocks, hholds⟩ := h.keeps.shared
  have hpayload := hholds.alloc (.buffer input.payload)
  let s₁ : RegistrationMemory := { s with nextMID := s.nextMID + 1 }
  have hsame : SameUsers s s₁ := ⟨rfl, rfl, fun server hmem => ⟨server, hmem, rfl⟩⟩
  obtain ⟨server, hserver, hupdate⟩ := bind_eq_ok_iff.mp hupdate
  dsimp only at hupdate
  split at hupdate
  next =>
    cases hupdate
    exact h.givenUp hblocks hholds hsame
  next transaction htransaction =>
    split at hupdate
    next => cases hupdate
    next location hlocation =>
      obtain ⟨hbytes, htime⟩ := hreleases server hserver transaction htransaction location hlocation
      obtain ⟨hnew, hcallback⟩ :=
        isNew_updateRegistrationRequest input (isNew_of_newRequest htransaction) location withObjects
      have hkept (s₂ s₃ : RegistrationMemory) (data : RegistrationData) (result : ℤ)
          (hsame : SameUsers s s₂) (hmid : s₂.nextMID = s.nextMID + 1)
          (hholds : s₂.heap.Holds (data.query.toList ++ data.payload.toList ++ owned))
          (hdata : data.server = serverP ∧ data.query = none)
          (hsend : s₂.sendWith input reply
            (updateRegistrationRequest input transaction location withObjects) data = .ok (s₃, result))
          (heq : s' = s₃.updateSent serverP result) : s'.DataKept := by
        have hsent := sameData_updateSent s₃ serverP result
        have hne : s'.nextMID ≠ s.nextMID := by
          rw [heq, hsent.nextMID, nextMID_of_sendWith hsend, hmid]
          exact add_one_ne s.nextMID
        have hsend := h.sendWith hblocks hsame hholds
          ⟨server, (mem_of_deref hserver).1, (mem_of_deref hserver).2.trans hdata.1.symm⟩ hnew
          (hfresh hne) hbytes (.inr ⟨hcallback, hdata.2, htime⟩) hsend
        exact heq ▸ hsend.sameData hsent
      split_ifs at hupdate
      · obtain ⟨heap, hfree, hholds'⟩ := lwm2mFree_holds (p := some s.heap.frontier) hpayload
        rw [alloc_address, hfree] at hupdate
        cases hupdate
        exact h.givenUp hblocks hholds' hsame
      · obtain ⟨⟨s₃, result⟩, hsend, hupdate⟩ := bind_eq_ok_iff.mp hupdate
        cases hupdate
        refine hkept _ s₃ _ result ?_ ?_ ?_ ?_ hsend rfl
        · exact ⟨rfl, rfl, hsame.servers⟩
        · rfl
        · exact hpayload
        · exact ⟨rfl, rfl⟩
      · obtain ⟨⟨s₃, result⟩, hsend, hupdate⟩ := bind_eq_ok_iff.mp hupdate
        cases hupdate
        refine hkept s₁ s₃ _ result hsame rfl ?_ ?_ hsend rfl
        · exact hholds
        · exact ⟨rfl, rfl⟩

/-- **Sending a transaction again keeps the user data.** -/
theorem DataKept.send (h : s.DataKept) (hreleases : s.EventReleases (.send tvSec mID))
    (hafter : s.after reply (.send tvSec mID) = .ok s') : s'.DataKept := by
  obtain ⟨⟨l, sent⟩, hevent, hresume⟩ := bind_eq_ok_iff.mp hafter
  have hreleases := hreleases l sent hevent
  unfold handleEvent at hevent
  dsimp only at hevent hresume
  cases hfocus : focusFirst (·.mID == mID) s.transactionList with
  | none =>
    rw [hfocus] at hevent
    cases hevent
    cases hresume
    exact h
  | some f =>
    obtain ⟨hlist, -, -⟩ := focusFirst_eq_some_iff.mp hfocus
    have hhere : f.here ∈ s.transactionList := hlist ▸ f.here_mem_list
    rw [hfocus] at hevent
    obtain ⟨⟨l', sent', result⟩, hsendListed, hevent⟩ := bind_eq_ok_iff.mp hevent
    cases hevent
    obtain ⟨⟨t, sent'', result'⟩, hsend, hsendListed⟩ := bind_eq_ok_iff.mp hsendListed
    have hsame := sameOwner_of_transactionSend hsend
    have hresult := sendResult_of_transactionSend hsend
    dsimp only at hsendListed
    rw [transactionRemove_of_sorted h.sorted hlist hsame.mID] at hsendListed
    cases hresult with
    | waits hbuffer hsent =>
      rw [if_pos rfl] at hsendListed
      cases hsendListed
      exact h.changed hlist hsame hbuffer hsent hresume
    | empty _ hsize =>
      exact absurd (serializeBuffer_eq_none_iff.mp hsize).1 (h.buffered _ hhere)
    | expired hne hsent =>
      rw [if_neg hne] at hsendListed
      cases hsendListed
      exact h.ended hlist (owner_eq hsame) hsent hreleases hresume

/-- **A response keeps the user data.** -/
theorem DataKept.response (h : s.DataKept) {fromSessionH : Session} {withResponse : Bool}
    (hreleases : s.EventReleases (.response tvSec fromSessionH message withResponse))
    (hafter : s.after reply (.response tvSec fromSessionH message withResponse) = .ok s') :
    s'.DataKept := by
  obtain ⟨⟨l, sent⟩, hevent, hresume⟩ := bind_eq_ok_iff.mp hafter
  have hreleases := hreleases l sent hevent
  cases hfocus : focusFirst (endsLoop fromSessionH message) s.transactionList with
  | none =>
    rw [handleEvent_response (transactionHandleResponse_of_none hfocus withResponse)] at hevent
    cases hevent
    cases hresume
    exact h
  | some f =>
    obtain ⟨hlist, -, -⟩ := focusFirst_eq_some_iff.mp hfocus
    have hhere : f.here ∈ s.transactionList := hlist ▸ f.here_mem_list
    have hcase := respond_cases tvSec fromSessionH message withResponse f.here
    have hack := kept_of_acknowledge message f.here
    have howner : owner (acknowledge message f.here) = owner f.here := by rw [hack]; rfl
    have hnoCall {sent : List Output} (hsent : ∀ o ∈ sent, o = emptyAck message fromSessionH) :
        NoCall sent := fun o ho => ⟨_, _, hsent o ho⟩
    rw [handleEvent_response (transactionHandleResponse_eq h.sorted hfocus withResponse)] at hevent
    cases hevent
    generalize respond tvSec fromSessionH message withResponse f.here = r at hcase hreleases hresume
    cases hcase with
    | unauthorized _ hsent =>
      refine h.changed hlist ?_ ?_ (hnoCall hsent) hresume
      · exact ⟨rfl, rfl, rfl⟩
      · exact h.buffered f.here hhere
    | finished hsent => exact h.ended hlist howner (hnoCall hsent) hreleases hresume
    | waits =>
      refine h.changed hlist ⟨?_, ?_, ?_⟩ ?_ (fun _ ho => absurd ho List.not_mem_nil) hresume
      all_goals rw [hack]
      · rfl
      · rfl
      · rfl
      · exact h.buffered f.here hhere

/-- **Every step keeps the user data.** -/
theorem ReleasingStep.dataKept {e : ReplyInput × RegistrationEvent} (hstep : ReleasingStep s e s')
    (h : s.DataKept) : s'.DataKept := by
  obtain ⟨reply, e⟩ := e
  obtain ⟨hafter, hfresh, hreleases⟩ := hstep
  cases e with
  | register =>
    obtain ⟨⟨s₁, code⟩, hregister, heq⟩ := bind_eq_ok_iff.mp hafter
    cases heq
    exact h.register hreleases hfresh hregister
  | update =>
    obtain ⟨⟨s₁, code⟩, hupdate, heq⟩ := bind_eq_ok_iff.mp hafter
    cases heq
    exact h.update hreleases hfresh hupdate
  | continueBlock1 =>
    obtain ⟨⟨contextP, sent, result⟩, hcontinue, hresume⟩ := bind_eq_ok_iff.mp hafter
    exact h.continued (continued_continueBlock1 hcontinue) hfresh hresume
  | changeToBlock1 =>
    obtain ⟨⟨contextP, sent, result⟩, hchange, hresume⟩ := bind_eq_ok_iff.mp hafter
    exact h.continued (continued_prvChangeToBlock1 hchange) hfresh hresume
  | getBlock2 =>
    obtain ⟨⟨contextP, blockData, sent⟩, hget, hresume⟩ := bind_eq_ok_iff.mp hafter
    exact h.continued (continued_prvSendGetBlock2 hget) hfresh hresume
  | send => exact h.send hreleases hafter
  | response => exact h.response hreleases hafter
  | servers servers =>
    cases hafter
    exact h.sameData (.updateServers s servers)

/-- The user data has one owner.  A cell is allocated exactly if a listed transaction leads to
it, so that none is freed while a transaction refers to it and none is leaked; and it leads to it by
one `registration_data_t` only. -/
structure OwnedOnce (s : RegistrationMemory) : Prop where
  userData : ∀ t ∈ s.transactionList, ∃ a, t.userData = some a
  allocated : ∀ c, (s.heap.cells c).isSome ↔
    ∃ a ∈ dataRefs s.transactionList, c ∈ a :: s.parts a
  apart : ∀ a ∈ dataRefs s.transactionList, ∀ b ∈ dataRefs s.transactionList,
    ∀ c, c ∈ a :: s.parts a → c ∈ b :: s.parts b → a = b

theorem Keeps.ownedOnce (h : s.Keeps s.transactionList) : s.OwnedOnce := by
  refine ⟨fun t ht => ?_, fun c => h.shared.isSome_iff,
    fun a ha b hb c hca hcb => h.shared.eq_of_mem ha hb hca hcb⟩
  obtain ⟨a, hcarries⟩ := h.carries t ht
  exact ⟨a, hcarries.userData⟩

/-- The cells of the others. -/
theorem Keeps.exists_blocks (h : s.Keeps (t :: others)) :
    ∃ rest, Blocks s.parts (dataRefs others) rest ∧ rest.Nodup := by
  obtain ⟨a, hcarries⟩ := h.carries t List.mem_cons_self
  rcases h.split hcarries with ⟨-, owned, hblocks, hholds⟩ | ⟨-, rest, hblocks, hholds⟩
  · exact ⟨owned, hblocks, hholds.nodup⟩
  · exact ⟨rest, hblocks, (List.nodup_append'.mp hholds.nodup).2.1⟩

end RegistrationMemory

open RegistrationMemory

/-- **Registration user data has one owner.**  In every run of registrations, updates, blocks,
restarts, answers, resets and timeouts in which new requests get fresh message-ids and the callbacks
release what they are to release, the user data has one owner in every state.  And there a callback
of any listed transaction runs without a fault, so it frees nothing twice, and the user data has
one owner after it if and only if it releases what it is to release. -/
theorem registrationData_owned {s₀ s : RegistrationMemory} (hlist : s₀.transactionList = [])
    (hheap : ∀ a, s₀.heap.cells a = none) {events : List (ReplyInput × RegistrationEvent)}
    (hrun : Run ReleasingStep s₀ events s) :
    s.OwnedOnce ∧ ∀ (f : Focus Transaction) (callback : ℕ), f.list = s.transactionList →
      f.here.callback = some callback → ∀ input packet,
        ∃ s', s.call input f.unlink callback f.here packet = .ok s' ∧
          ({ s' with transactionList := f.unlink }.OwnedOnce ↔
            s.CallReleases f.unlink f.here packet) := by
  have hstart : s₀.DataKept := by
    refine ⟨?_, ?_, ?_, [], ?_, .nil hheap⟩
    all_goals rw [hlist]
    · exact .nil
    · exact fun t ht => absurd ht List.not_mem_nil
    · exact fun t ht => absurd ht List.not_mem_nil
    · have hempty : dataRefs [] = ∅ := by
        ext a
        simp [dataRefs]
      rw [hempty]
      exact .nil _
  have h : s.DataKept := hrun.invariant (fun _ _ _ h hstep => hstep.dataKept h) hstart
  refine ⟨h.keeps.ownedOnce, fun f callback hf hcallback input packet => ?_⟩
  have hkeeps : s.Keeps (f.here :: f.unlink) := by
    refine h.keeps.congr rfl rfl (fun server hmem => ⟨server, hmem, rfl⟩) fun k => ?_
    have hperm : (f.here :: f.unlink).Perm s.transactionList := hf ▸ List.perm_middle.symm
    exact (hperm.map owner).mem_iff
  obtain ⟨s', hcall, hsame, hiff⟩ := call_keeps_iff hkeeps hcallback input packet
  refine ⟨s', hcall, ?_⟩
  rw [← hiff]
  constructor
  · intro howned
    obtain ⟨rest, hblocks, hnodup⟩ := hkeeps.exists_blocks
    refine (hkeeps.keeps_iff hsame s'.heap).mpr ((Shared.iff_isSome hblocks hnodup).mpr fun c => ?_)
    rw [hblocks.mem_iff, ← hsame.parts_eq]
    exact howned.allocated c
  · intro hkeeps'
    have hunlinked : { s' with transactionList := f.unlink }.Keeps f.unlink :=
      hkeeps'.congr rfl rfl (fun server hmem => ⟨server, hmem, rfl⟩) fun _ => Iff.rfl
    exact hunlinked.ownedOnce

/-! ### Two runs -/

/-- A client with one server. -/
def oneServer (status : Status) : RegistrationMemory where
  state := .ready
  serverList := [{ ref := 0, secObjInstID := 0, shortID := 1, sessionH := some 1, status }]
  nextMID := 1
  heap := Memory.empty
  registrationData _ := { server := 0 }
  location _ := some [0x2F, 0x72, 0x64, 0x2F, 0x31]

/-- A request with the payload `</>` and, in a registration, the query `ep=a`. -/
def shortRequest : RequestInput where
  tvSec := 0
  coapBlockSize := 1024
  payload := [0x3C, 0x2F, 0x3E]
  query := some [0x65, 0x70, 0x3D, 0x61]

/-- The first request to the server, with its user data at some address. -/
def firstRequest (userData : ℕ) : Transaction where
  mID := 1
  peerH := some 1
  message := (coapInitMessage .con 2 1).coapSetHeaderToken (generatedToken 1 0)
  userData := some userData

/-- An update with the object list was sent. -/
def updatePendingAt (retransCounter : UInt8) (retransTime : ℤ) : RegistrationMemory :=
  let request := updateRegistrationRequest shortRequest (firstRequest 1) [0x2F, 0x72, 0x64, 0x2F, 0x31] true
  { oneServer .regUpdatePending with
    nextMID := 2
    transactionList := [{ withBuffer request with retransCounter, retransTime }]
    heap := ((Memory.empty.alloc (.buffer [0x3C, 0x2F, 0x3E])).1.alloc .node).1
    registrationData := Function.update (fun _ => { server := 0 }) 1 ⟨0, none, some 0⟩ }

/-- The update timed out. -/
def updateTimedOut : RegistrationMemory :=
  { updatePendingAt 6 62 with
    serverList := (oneServer .regFailed).serverList
    transactionList := [] }

/-- A step of a run, whatever the callbacks release. -/
def RegistrationStep (s : RegistrationMemory) (e : ReplyInput × RegistrationEvent)
    (s' : RegistrationMemory) : Prop :=
  s.after e.1 e.2 = .ok s'

/-- **The user data of an update that times out is leaked.**  An update with the object list is
sent, sent again four times and given up; then no transaction is listed, and its
`registration_data_t` and its payload are still allocated. -/
theorem update_timeout_leaks : ∃ events,
    Run RegistrationStep (oneServer .regFullUpdateNeeded) events updateTimedOut ∧
      events.map Prod.snd = [.update shortRequest 0 true, .send 2 1, .send 6 1, .send 14 1,
        .send 30 1, .send 62 1] ∧
      updateTimedOut.transactionList = [] ∧ (updateTimedOut.heap.cells 0).isSome ∧
      (updateTimedOut.heap.cells 1).isSome ∧ ¬ updateTimedOut.OwnedOnce := by
  have hupdate : RegistrationStep (oneServer .regFullUpdateNeeded)
    ({}, .update shortRequest 0 true) (updatePendingAt 2 2) := rfl
  have hsecond : RegistrationStep (updatePendingAt 2 2) ({}, .send 2 1) (updatePendingAt 3 6) := rfl
  have hthird : RegistrationStep (updatePendingAt 3 6) ({}, .send 6 1) (updatePendingAt 4 14) := rfl
  have hfourth : RegistrationStep (updatePendingAt 4 14) ({}, .send 14 1)
    (updatePendingAt 5 30) := rfl
  have hfifth : RegistrationStep (updatePendingAt 5 30) ({}, .send 30 1)
    (updatePendingAt 6 62) := rfl
  have htimeout : RegistrationStep (updatePendingAt 6 62) ({}, .send 62 1) updateTimedOut := rfl
  refine ⟨_, .cons hupdate (.cons hsecond (.cons hthird (.cons hfourth (.cons hfifth
    (.cons htimeout (.nil _)))))), rfl, rfl, rfl, rfl, fun howned => ?_⟩
  have hleaked : (updateTimedOut.heap.cells 0).isSome := rfl
  obtain ⟨a, ⟨t, ht, -⟩, -⟩ := (howned.allocated 0).mp hleaked
  exact absurd ht List.not_mem_nil

/-- A registration was sent. -/
def registrationPending : RegistrationMemory :=
  let request := registerRequest shortRequest (firstRequest 2) [0x65, 0x70, 0x3D, 0x61]
  let heap := (Memory.empty.alloc (.buffer [0x3C, 0x2F, 0x3E])).1
  { oneServer .regPending with
    nextMID := 2
    transactionList := [{ withBuffer request with retransCounter := 2, retransTime := 2 }]
    heap := ((heap.alloc (.buffer [0x65, 0x70, 0x3D, 0x61, 0])).1.alloc .node).1
    registrationData := Function.update (fun _ => { server := 0 }) 2 ⟨0, some 1, some 0⟩ }

/-- The answer 2.01 to the registration. -/
def createdReply : Packet :=
  (coapInitMessage .ack coap201Created 1).coapSetHeaderToken (generatedToken 1 0)

/-- A registration that is answered leaves nothing allocated. -/
theorem registration_releases : ∃ s events,
    Run ReleasingStep (oneServer .deregistered) events s ∧
      events.map Prod.snd = [.register shortRequest 0, .response 0 (some 1) createdReply false] ∧
      s.transactionList = [] ∧ s.OwnedOnce ∧ ∀ a, s.heap.cells a = none := by
  have hregister : ReleasingStep (oneServer .deregistered) ({}, .register shortRequest 0)
      registrationPending := by
    refine ⟨rfl, fun _ t ht => absurd ht List.not_mem_nil, ?_⟩
    rintro server ⟨⟩ transaction ⟨⟩ query ⟨⟩
    decide
  have hresponse : ∃ s, ReleasingStep registrationPending
      ({}, .response 0 (some 1) createdReply false) s ∧ s.transactionList = [] := by
    refine ⟨_, ⟨rfl, fun h => absurd rfl h, ?_⟩, rfl⟩
    rintro l sent ⟨⟩ callback t packet hmem a - server -
    obtain ⟨rfl, rfl, rfl⟩ := Output.callback.inj (List.mem_singleton.mp hmem)
    split_ifs with hcallback
    · rintro ⟨-, hmore⟩
      exact absurd hmore (by decide)
    · exact absurd rfl hcallback
  obtain ⟨s, hresponse, hlist⟩ := hresponse
  have hrun : Run ReleasingStep (oneServer .deregistered) _ s :=
    .cons hregister (.cons hresponse (.nil s))
  have howned := (registrationData_owned rfl (fun _ => rfl) hrun).1
  refine ⟨s, _, hrun, rfl, hlist, howned, fun a => ?_⟩
  rw [← Option.not_isSome_iff_eq_none, howned.allocated]
  rintro ⟨a, ⟨t, ht, -⟩, -⟩
  rw [hlist] at ht
  exact absurd ht List.not_mem_nil

end Lwm2m.Core

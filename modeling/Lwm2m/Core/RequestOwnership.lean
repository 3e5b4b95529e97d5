/-
# What the callbacks of requests release

The allocated records are those that a listed transaction has (`HeapOwns`), and each transaction
with a record has one of the callbacks of `core/management.c` and `core/observe.c`.  A callback then
runs without a fault, releases the record unless another transaction has it, and calls the user
(`exists_call`), if its answer is spared: the Location-Path of a 2.01 names an instance, and the end
of a cancel finds its observation.

So a transaction that is sent again, answered or continued leaves the records to their owners
(`Leaves`).
-/

import Lwm2m.Core.RequestRecords

namespace Lwm2m.Core

open Coap Code Library Library.Memory
open RegistrationMemory (Continued owner owner_eq)

/-! ### The heap and the transactions -/

/-- The allocated cells are the user data of the transactions. -/
def HeapOwns (heap : Heap) (l : List Transaction) : Prop :=
  ∀ a, (heap.cells a).isSome ↔ a ∈ dataRefs l

section heap

variable {heap : Heap} {l l' others : List Transaction} {t t' : Transaction} {a : ℕ}

theorem mem_dataRefs_cons {b : ℕ} :
    b ∈ dataRefs (t :: l) ↔ t.userData = some b ∨ b ∈ dataRefs l := by
  simp [dataRefs]

/-- The user data does not depend on the order of the transactions and on their other fields. -/
theorem dataRefs_eq (h : ∀ k, k ∈ l'.map owner ↔ k ∈ l.map owner) : dataRefs l' = dataRefs l := by
  have hsub : ∀ l₁ l₂ : List Transaction, (∀ k, k ∈ l₁.map owner → k ∈ l₂.map owner) →
      dataRefs l₁ ⊆ dataRefs l₂ := by
    rintro l₁ l₂ hmem b ⟨t₁, ht₁, hdata⟩
    obtain ⟨t₂, ht₂, howner⟩ := List.mem_map.mp (hmem _ (List.mem_map_of_mem ht₁))
    exact ⟨t₂, ht₂, (Prod.mk.inj howner).2.trans hdata⟩
  exact (hsub _ _ fun k => (h k).mp).antisymm (hsub _ _ fun k => (h k).mpr)

theorem HeapOwns.congr (h : HeapOwns heap l) (howners : ∀ k, k ∈ l'.map owner ↔ k ∈ l.map owner) :
    HeapOwns heap l' := by
  intro b
  rw [dataRefs_eq howners]
  exact h b

/-- A transaction without user data. -/
theorem heapOwns_cons_iff (hdata : t.userData = none) :
    HeapOwns heap (t :: l) ↔ HeapOwns heap l := by
  refine forall_congr' fun b => ?_
  rw [mem_dataRefs_cons, hdata, or_iff_right (by simp)]

/-- A new cell for a new transaction. -/
theorem HeapOwns.alloc (h : HeapOwns heap l) (hdata : t.userData = some heap.frontier) :
    HeapOwns (heap.alloc .node).1 (t :: l) := by
  intro b
  rw [mem_dataRefs_cons, hdata, Option.some.injEq]
  by_cases hb : b = heap.frontier
  · rw [hb, alloc_cells_self]
    exact iff_of_true rfl (.inl rfl)
  · have hsame : (heap.alloc .node).1.cells b = heap.cells b := Function.update_of_ne hb ..
    rw [hsame, h b, or_iff_right (Ne.symm hb)]

/-- The cell of a transaction is released, which no other one has. -/
theorem HeapOwns.release (h : HeapOwns heap (t :: others)) (hdata : t.userData = some a)
    (ha : a ∉ dataRefs others) : HeapOwns (heap.release a) others := by
  intro b
  by_cases hb : b = a
  · have hnone : (heap.release a).cells a = none := Function.update_self ..
    rw [hb, hnone]
    exact iff_of_false Bool.false_ne_true ha
  · rw [release_cells_of_ne hb, h b, mem_dataRefs_cons, hdata, Option.some.injEq,
      or_iff_right (Ne.symm hb)]

theorem HeapOwns.isSome (h : HeapOwns heap (t :: others)) (hdata : t.userData = some a) :
    (heap.cells a).isSome :=
  (h a).mpr (mem_dataRefs_cons.mpr (.inl hdata))

/-- **`transaction_free_userData` releases what no other transaction has.** -/
theorem HeapOwns.transactionFreeUserData (h : HeapOwns heap (t :: others))
    (hdata : t.userData = some a) :
    ∃ heap' last, Core.transactionFreeUserData heap others t = .ok (heap', last) ∧
      HeapOwns heap' others := by
  by_cases ha : a ∈ dataRefs others
  · refine ⟨heap, false, RegistrationMemory.transactionFreeUserData_of_mem ha hdata, fun b => ?_⟩
    rw [h b, mem_dataRefs_cons, hdata, or_iff_right_iff_imp]
    rintro ⟨rfl⟩
    exact ha
  · refine ⟨heap.release a, true, ?_, h.release hdata ha⟩
    have hany : ¬ others.any (·.userData == t.userData) = true := fun hany => by
      obtain ⟨t', ht', heq⟩ := List.any_eq_true.mp hany
      exact ha ⟨t', ht', (beq_iff_eq.mp heq).trans hdata⟩
    unfold Core.transactionFreeUserData
    rw [if_neg hany, hdata, lwm2mFree, if_pos (h.isSome hdata)]
    rfl

/-- A new cell is released again. -/
theorem HeapOwns.lwm2mFree_alloc (h : HeapOwns heap l) :
    ∃ heap', lwm2mFree (heap.alloc .node).1 (some heap.frontier) = .ok heap' ∧
      HeapOwns heap' l := by
  refine ⟨(heap.alloc .node).1.release heap.frontier, ?_, fun b => ?_⟩
  · rw [lwm2mFree, alloc_cells_self]
    rfl
  · by_cases hb : b = heap.frontier
    · have hnone : ((heap.alloc .node).1.release heap.frontier).cells heap.frontier = none :=
        Function.update_self ..
      rw [hb, hnone, ← h, heap.fresh _ le_rfl]
    · have hsame : (heap.alloc .node).1.cells b = heap.cells b := Function.update_of_ne hb ..
      rw [release_cells_of_ne hb, hsame, h b]

end heap

variable {prepared : Option (Transaction × List Byte)}

theorem exists_transactionSend (tvSec : ℤ) {t : Transaction}
    (h : serializeBuffer t = .ok prepared) :
    ∃ t' sent result, transactionSend tvSec t = .ok (t', sent, result) := by
  unfold transactionSend
  rw [h, ok_bind]
  cases prepared with
  | none => exact ⟨_, _, _, rfl⟩
  | some prepared =>
    dsimp only
    split_ifs <;> exact ⟨_, _, _, rfl⟩

namespace RequestMemory

/-! ### The calls of the user -/

/-- The callbacks of the transactions with a record. -/
def isRequestCallback (callback : ℕ) : Prop :=
  callback = resultCallback ∨ callback = obsRequestCallback ∨ callback = obsCancelRequestCallback

/-- The transaction has a record at `a`. -/
structure Carries (t : Transaction) (a : ℕ) : Prop where
  userData : t.userData = some a
  callback : ∃ callback, t.callback = some callback ∧ isRequestCallback callback

/-- The transaction has no record. -/
structure Plain (t : Transaction) : Prop where
  userData : t.userData = none
  callback : t.callback = none

/-- The end of a cancel finds the observation of its URI, which is allocated. -/
def FindsObservation (s : RequestMemory) (client : UInt16) (uri : Uri) : Prop :=
  ∀ clientP, findClient s.observations.clientList client = some clientP →
    ∃ o, prvFindObservationByURI clientP.here uri = some o ∧
      (s.observations.memory.cells o.address).isSome

/-- **The answer to a request is spared**: the Location-Path of a 2.01 names an instance of the
object, and the end of a cancel finds its observation. -/
def AnswerSpared (s : RequestMemory) (t : Transaction) (packet : Packet) : Prop :=
  ∀ a, t.userData = some a →
    (t.callback = some resultCallback → resultUri (s.record a).uri packet ≠ none) ∧
    (t.callback = some obsCancelRequestCallback → EndsContent (some packet) →
      s.FindsObservation (s.record a).client (s.record a).uri)

variable {s s' : RequestMemory} {others : List Transaction} {t : Transaction} {a : ℕ}
  {message : Option Packet}

theorem recordOf_eq (h : HeapOwns s.heap (t :: others)) (hdata : t.userData = some a) :
    s.recordOf t = .ok (a, s.record a) := by
  unfold recordOf
  rw [hdata]
  dsimp only
  rw [if_pos (h.isSome hdata)]

/-- The record is released unless another transaction has it. -/
theorem freeUserData_eq (h : HeapOwns s.heap (t :: others)) (hdata : t.userData = some a) :
    ∃ heap, s.freeUserData others t = .ok { s with heap } ∧ HeapOwns heap others := by
  obtain ⟨heap, last, hfree, howns⟩ := h.transactionFreeUserData hdata
  refine ⟨heap, ?_, howns⟩
  unfold freeUserData
  rw [hfree]
  rfl

/-- What a callback leaves behind: the others own the records, and the user was called. -/
structure Called (s : RequestMemory) (others : List Transaction) (a : ℕ) (s' : RequestMemory)
    (calls : List UserCall) : Prop where
  context : s'.toTransactionContext = s.toTransactionContext
  owns : HeapOwns s'.heap others
  called : ∃ c ∈ calls, c.record = a

/-- The codes that an observe request reports are not empty. -/
theorem prvObsRequestCallback_ne_nil (contextP : ObservationContext) (id client : UInt16)
    (uri : Uri) (message : Option Packet) :
    (contextP.prvObsRequestCallback id client uri message).2 ≠ [] := by
  unfold ObservationContext.prvObsRequestCallback
  split
  · exact List.cons_ne_nil _ _
  · dsimp only
    split
    · exact List.cons_ne_nil _ _
    · split_ifs
      · exact List.cons_ne_nil _ _
      · split <;> exact List.cons_ne_nil _ _

/-- The answer to a cancel is handled, and it reports a code. -/
theorem exists_prvObsCancelRequestCallback (client : UInt16) (uri : Uri)
    (message : Option Packet) (h : EndsContent message → s.FindsObservation client uri) :
    ∃ observations codes, s.observations.prvObsCancelRequestCallback client uri message =
      .ok (observations, codes) ∧ codes ≠ [] := by
  unfold ObservationContext.prvObsCancelRequestCallback
  split
  next => exact ⟨_, _, rfl, List.cons_ne_nil _ _⟩
  next clientP hfind =>
    dsimp only
    split
    next => exact ⟨_, _, rfl, List.cons_ne_nil _ _⟩
    next packet =>
      split_ifs with hcode hmore
      · exact ⟨_, _, rfl, List.cons_ne_nil _ _⟩
      · exact ⟨_, _, rfl, List.cons_ne_nil _ _⟩
      · obtain ⟨o, ho, halloc⟩ := h ⟨packet, rfl, not_not.mp hcode, hmore⟩ clientP hfind
        rw [ho, observeRemove, if_pos halloc]
        exact ⟨_, _, rfl, List.cons_ne_nil _ _⟩

theorem called_map {codes : List Code} (hcodes : codes ≠ []) (client : UInt16) (uri : Uri) :
    ∃ c ∈ codes.map fun code => (⟨a, client, uri, code⟩ : UserCall), c.record = a := by
  obtain ⟨code, hcode⟩ := List.exists_mem_of_ne_nil codes hcodes
  exact ⟨_, List.mem_map_of_mem hcode, rfl⟩

variable {callback : ℕ} {f : Focus Transaction}

/-- **A callback releases the record of its transaction and calls the user.** -/
theorem exists_call (h : HeapOwns s.heap (t :: others)) (hdata : t.userData = some a)
    (hcallback : t.callback = some callback) (his : isRequestCallback callback)
    (hspared : ∀ packet, message = some packet → s.AnswerSpared t packet) :
    ∃ s' calls, s.call others callback t message = .ok (s', calls) ∧
      s.Called others a s' calls := by
  have hrecord := recordOf_eq h hdata
  unfold RequestMemory.call
  rcases his with rfl | rfl | rfl
  · rw [if_pos rfl]
    unfold prvResultCallback
    rw [hrecord, ok_bind]
    cases message with
    | none =>
      obtain ⟨heap, hfree, howns⟩ := freeUserData_eq h hdata
      rw [hfree]
      exact ⟨_, _, rfl, rfl, howns, _, List.mem_cons_self, rfl⟩
    | some packet =>
      obtain ⟨uri, huri⟩ :=
        Option.ne_none_iff_exists'.mp ((hspared packet rfl a hdata).1 hcallback)
      have h' : HeapOwns { s with
          record := Function.update s.record a { s.record a with uri } }.heap (t :: others) := h
      obtain ⟨heap, hfree, howns⟩ := freeUserData_eq h' hdata
      dsimp only
      rw [huri]
      dsimp only
      rw [hfree]
      exact ⟨_, _, rfl, rfl, howns, _, List.mem_cons_self, rfl⟩
  · rw [if_neg (by decide), if_pos rfl]
    unfold RequestMemory.prvObsRequestCallback
    rw [hrecord, ok_bind]
    have hcodes := prvObsRequestCallback_ne_nil s.observations (s.record a).id (s.record a).client
      (s.record a).uri message
    dsimp only
    generalize s.observations.prvObsRequestCallback (s.record a).id (s.record a).client
      (s.record a).uri message = result at hcodes
    have h' : HeapOwns { s with observations := result.1 }.heap (t :: others) := h
    obtain ⟨heap, hfree, howns⟩ := freeUserData_eq h' hdata
    rw [hfree]
    exact ⟨_, _, rfl, rfl, howns, called_map hcodes _ _⟩
  · rw [if_neg (by decide), if_neg (by decide), if_pos rfl]
    unfold RequestMemory.prvObsCancelRequestCallback
    rw [hrecord, ok_bind]
    obtain ⟨observations, codes, hanswer, hcodes⟩ := exists_prvObsCancelRequestCallback
      (s := s) (s.record a).client (s.record a).uri message fun hends => by
        obtain ⟨packet, rfl, -, -⟩ := id hends
        exact (hspared packet rfl a hdata).2 hcallback hends
    have h' : HeapOwns { s with observations }.heap (t :: others) := h
    obtain ⟨heap, hfree, howns⟩ := freeUserData_eq h' hdata
    dsimp only
    rw [hanswer, ok_bind]
    rw [hfree]
    exact ⟨_, _, rfl, rfl, howns, called_map hcodes _ _⟩


/-! ### What a transaction leaves that ends -/

/-- The list of transactions is in order, each of them was serialized and has a record or none, and
the allocated records are those of the transactions. -/
structure Kept (s : RequestMemory) : Prop where
  sorted : s.transactionList.Pairwise (·.mID < ·.mID)
  buffered : ∀ t ∈ s.transactionList, t.buffer ≠ none
  carries : ∀ t ∈ s.transactionList, Plain t ∨ ∃ a, Carries t a
  owns : HeapOwns s.heap s.transactionList

/-- What an event leaves behind, with the transactions `l` that were listed before it: the records
have their owners, a callback of a transaction called the user, and a transaction that left the list
called its callback. -/
structure Leaves (l : List Transaction) (r : EventResult) : Prop where
  kept : r.memory.Kept
  called : ∀ callback t message, .callback callback t message ∈ r.sent →
    ∃ c ∈ r.calls, t.userData = some c.record
  ended : ∀ t ∈ l, t.mID ∉ r.memory.transactionList.map Transaction.mID → ∀ a, t.userData = some a →
    ∃ callback t' message, .callback callback t' message ∈ r.sent ∧ t'.userData = some a

variable {contextP : TransactionContext} {sent : List Output} {l : List Transaction}
  {t' : Transaction}

theorem runCalls_append (hsent : NoCall sent) (rest : List Output) (others : List Transaction)
    (s : RequestMemory) : runCalls others s (sent ++ rest) = runCalls others s rest := by
  induction sent with
  | nil => rfl
  | cons o sent ih =>
    obtain ⟨⟨sessionH, buffer, rfl⟩, hrest⟩ := List.forall_mem_cons.mp hsent
    exact ih hrest

theorem resume_of_noCall (hsent : NoCall sent) (others : List Transaction) (s : RequestMemory)
    (contextP : TransactionContext) :
    s.resume others contextP sent =
      .ok { memory := { s with toTransactionContext := contextP }, sent } := by
  unfold resume
  have hrun := runCalls_append hsent [] others { s with toTransactionContext := contextP }
  rw [List.append_nil] at hrun
  rw [hrun]
  rfl

theorem not_mem_of_noCall (hsent : NoCall sent) {message : Option Packet} :
    .callback callback t message ∉ sent := fun hmem => by
  obtain ⟨_, _, heq⟩ := hsent _ hmem
  cases heq

/-- What the end of a transaction leaves behind. -/
structure Ended (s : RequestMemory) (others : List Transaction) (t : Transaction)
    (contextP : TransactionContext) (r : EventResult) : Prop where
  context : r.memory.toTransactionContext = contextP
  owns : HeapOwns r.memory.heap others
  called : ∀ callback t message, .callback callback t message ∈ r.sent →
    ∃ c ∈ r.calls, t.userData = some c.record
  ended : ∀ a, t.userData = some a →
    ∃ callback t' message, .callback callback t' message ∈ r.sent ∧ t'.userData = some a

/-- **A transaction ends**: its callback is called, if it has one. -/
theorem exists_resume (message : Option Packet) (h : HeapOwns s.heap (t :: others))
    (hcarries : Plain t ∨ ∃ a, Carries t a) (hsent : NoCall sent)
    (hspared : ∀ packet, message = some packet → s.AnswerSpared t packet)
    (contextP : TransactionContext) :
    ∃ r, s.resume others contextP (sent ++ callCallback t message) = .ok r ∧
      s.Ended others t contextP r := by
  rcases hcarries with hplain | ⟨a, hdata, callback, hcallback, his⟩
  · have hnone : callCallback t message = [] := by
      unfold callCallback
      rw [hplain.callback]
    rw [hnone, List.append_nil, resume_of_noCall hsent]
    refine ⟨_, rfl, rfl, (heapOwns_cons_iff hplain.userData).mp h, fun _ _ _ hmem => ?_,
      fun a ha => ?_⟩
    · exact absurd hmem (not_mem_of_noCall hsent)
    · exact absurd (hplain.userData.symm.trans ha) (Option.some_ne_none a).symm
  · let s₁ : RequestMemory := { s with toTransactionContext := contextP }
    obtain ⟨s', calls, hcall, hcalled⟩ := exists_call (s := s₁) h hdata hcallback his hspared
    have hcalls : callCallback t message = [.callback callback t message] := by
      unfold callCallback
      rw [hcallback]
    obtain ⟨c, hc, hrecord⟩ := hcalled.called
    refine ⟨{ memory := s', sent := sent ++ [.callback callback t message], calls }, ?_,
      hcalled.context, hcalled.owns, fun callback' t' message' hmem => ?_, fun b hb => ?_⟩
    · unfold resume
      rw [hcalls, runCalls_append hsent]
      unfold runCalls
      rw [hcall, ok_bind]
      unfold runCalls
      dsimp only
      rw [ok_bind]
      simp
    · rcases List.mem_append.mp hmem with hmem | hmem
      · exact absurd hmem (not_mem_of_noCall hsent)
      · obtain ⟨-, rfl, -⟩ := Output.callback.inj (List.mem_singleton.mp hmem)
        exact ⟨c, hc, hrecord ▸ hdata⟩
    · exact ⟨callback, t, message, List.mem_append_right _ List.mem_cons_self, hb⟩

/-- A transaction with the callback and the user data of another one. -/
theorem carries_congr (h : Plain t ∨ ∃ a, Carries t a) (howner : owner t' = owner t) :
    Plain t' ∨ ∃ a, Carries t' a := by
  obtain ⟨hcallback, hdata⟩ := Prod.mk.inj howner
  rcases h with ⟨hdata', hcallback'⟩ | ⟨a, hdata', callback, hcallback', his⟩
  · exact .inl ⟨hdata.trans hdata', hcallback.trans hcallback'⟩
  · exact .inr ⟨a, hdata.trans hdata', callback, hcallback.trans hcallback', his⟩

/-- The list of transactions with a new one, which is not sent yet. -/
structure KeptWith (s : RequestMemory) (next : Transaction) : Prop where
  sorted : s.transactionList.Pairwise (·.mID < ·.mID)
  buffered : ∀ t ∈ s.transactionList, t.buffer ≠ none
  carries : ∀ t ∈ s.transactionList, Plain t ∨ ∃ a, Carries t a
  nextCarries : Plain next ∨ ∃ a, Carries next a
  owns : HeapOwns s.heap (next :: s.transactionList)
  fresh : ∀ t ∈ s.transactionList, t.mID ≠ next.mID

/-- How the sending of a new transaction ends: it is removed without a call of its callback, or its
callback has called the user if it does not wait. -/
inductive SentNew (s : RequestMemory) (next : Transaction) :
    Option (Transaction × List Byte) → ℤ → EventResult → Prop
  | sent {p : Transaction × List Byte} {ret : ℤ} {r : EventResult}
    (hleaves : Leaves s.transactionList r)
    (hcalled : ret ≠ 0 → ∀ a, next.userData = some a → ∃ c ∈ r.calls, c.record = a) :
    SentNew s next (some p) ret r
  | removed : SentNew s next none coap500InternalServerError.toNat { memory := s }

/-- **A new transaction is sent.** -/
theorem KeptWith.addAndSend {next : Transaction} (h : s.KeptWith next)
    (hprepared : serializeBuffer next = .ok prepared) (tvSec : ℤ) :
    ∃ contextP sent ret r,
      Core.addAndSend tvSec s.toTransactionContext next = .ok (contextP, sent, ret) ∧
      s.resume s.transactionList contextP sent = .ok r ∧ s.SentNew next prepared ret r := by
  obtain ⟨t', sent', result, hsend⟩ := exists_transactionSend tvSec hprepared
  have hadd : ∃ contextP sent ret, Core.addAndSend tvSec s.toTransactionContext next =
      .ok (contextP, sent, ret) := by
    unfold Core.addAndSend
    rw [hsend, ok_bind]
    dsimp only
    split_ifs <;> exact ⟨_, _, _, rfl⟩
  obtain ⟨contextP, sent, ret, hadd⟩ := hadd
  cases prepared with
  | none =>
    have hgiven : Core.addAndSend tvSec s.toTransactionContext next =
        .ok (s.toTransactionContext, [], coap500InternalServerError.toNat) := by
      have hempty : transactionSend tvSec next =
          .ok (next, [], coap500InternalServerError.toNat) := by
        unfold transactionSend
        rw [hprepared]
        rfl
      unfold Core.addAndSend
      rw [hempty, ok_bind]
      dsimp only
      rw [if_neg (by decide), listRemove_listAdd h.sorted h.fresh]
      rfl
    exact ⟨_, _, _, _, hgiven, resume_of_noCall (fun _ ho => absurd ho List.not_mem_nil) _ _ _,
      .removed⟩
  | some p =>
    obtain ⟨next', hsame, hresult⟩ := addResult_of_addAndSend h.sorted h.fresh hadd
    have howner := owner_eq hsame
    refine ⟨contextP, sent, ret, ?_⟩
    cases hresult with
    | waits hbuffer hsent =>
      refine ⟨_, hadd, resume_of_noCall hsent _ _ _,
        .sent ⟨⟨?_, ?_, ?_, ?_⟩, ?_, ?_⟩ fun hne => absurd rfl hne⟩
      · exact listAdd_pairwise h.sorted fun t ht => hsame.mID ▸ h.fresh t ht
      · intro t ht
        rcases mem_listAdd.mp ht with rfl | ht
        · exact hbuffer
        · exact h.buffered t ht
      · intro t ht
        rcases mem_listAdd.mp ht with rfl | ht
        · exact carries_congr h.nextCarries howner
        · exact h.carries t ht
      · refine h.owns.congr fun k => ?_
        rw [((listAdd_perm next' s.transactionList).map owner).mem_iff, List.map_cons,
          List.map_cons, howner]
      · exact fun _ _ _ hmem => absurd hmem (not_mem_of_noCall hsent)
      · intro t ht hgone
        exact absurd (List.mem_map_of_mem (mem_listAdd.mpr (.inr ht))) hgone
    | empty _ hsize =>
      have hnone := Except.ok.inj (hprepared.symm.trans hsize)
      cases hnone
    | expired hne hsent =>
      have howns : HeapOwns s.heap (next' :: s.transactionList) := h.owns.congr fun k => by
        rw [List.map_cons, List.map_cons, howner]
      obtain ⟨r, hresume, hended⟩ := exists_resume none howns
        (carries_congr h.nextCarries howner) hsent (fun _ heq => by cases heq)
        s.toTransactionContext
      have hlist : r.memory.transactionList = s.transactionList := by rw [hended.context]
      refine ⟨r, hadd, hresume, .sent ⟨⟨?_, ?_, ?_, ?_⟩, hended.called, fun t ht hgone => ?_⟩
        fun _ a ha => ?_⟩
      · exact hlist ▸ h.sorted
      · exact hlist ▸ h.buffered
      · exact hlist ▸ h.carries
      · exact hlist ▸ hended.owns
      · rw [hlist] at hgone
        exact absurd (List.mem_map_of_mem ht) hgone
      · obtain ⟨callback, t', message, hmem, hdata⟩ :=
          hended.ended a ((Prod.mk.inj howner).2.trans ha)
        obtain ⟨c, hc, hrecord⟩ := hended.called callback t' message hmem
        exact ⟨c, hc, Option.some.inj (hrecord.symm.trans hdata)⟩

/-! ### The requests that continue a transfer -/

/-- No listed transaction has the next message-id. -/
def Fresh (s : RequestMemory) : Prop := ∀ t ∈ s.transactionList, t.mID ≠ s.nextMID

/-- **A continued transfer is spared**: the next block is made without a fault, and gets a fresh
message-id. -/
def BlockSpared (s : RequestMemory) (next : Except Fault (TransactionContext × List Output)) :
    Prop :=
  ∃ contextP sent, next = .ok (contextP, sent) ∧ (contextP.nextMID ≠ s.nextMID → s.Fresh)

/-- Without new transactions nothing happens to the old ones. -/
theorem Kept.leaves {r : EventResult} (h : s.Kept)
    (hlist : r.memory.transactionList = s.transactionList) (hheap : r.memory.heap = s.heap)
    (hsent : NoCall r.sent) : Leaves s.transactionList r := by
  refine ⟨⟨hlist ▸ h.sorted, hlist ▸ h.buffered, hlist ▸ h.carries, ?_⟩, ?_, fun t ht hgone => ?_⟩
  · rw [hlist, hheap]
    exact h.owns
  · exact fun _ _ _ hmem => absurd hmem (not_mem_of_noCall hsent)
  · rw [hlist] at hgone
    exact absurd (List.mem_map_of_mem ht) hgone

theorem noCall_nil : NoCall [] := fun _ ho => absurd ho List.not_mem_nil

/-- **A transfer that is continued leaves the records to their owners.** -/
theorem Kept.continued (h : s.Kept) (tvSec : ℤ)
    {next : Except Fault (TransactionContext × List Output)} (hspared : s.BlockSpared next)
    (hcontinued : ∀ contextP sent, next = .ok (contextP, sent) →
      Continued tvSec s.toTransactionContext contextP sent) :
    ∃ r, s.continued next = .ok r ∧ Leaves s.transactionList r := by
  obtain ⟨contextP, sent, rfl, hfresh⟩ := hspared
  unfold RequestMemory.continued
  rw [ok_bind]
  cases hcontinued contextP sent rfl with
  | same hlist =>
    exact ⟨_, resume_of_noCall noCall_nil _ _ _, h.leaves hlist rfl noCall_nil⟩
  | @next previous next hprevious howner hmid _ _ result hsend =>
    let s₁ : RequestMemory := { s with nextMID := s.nextMID + 1 }
    have hnew : contextP.nextMID ≠ s.nextMID := by
      rw [(RegistrationMemory.nextMID_of_addAndSend hsend).1]
      exact RegistrationMemory.add_one_ne s.nextMID
    have hkept : s₁.KeptWith next := by
      refine ⟨h.sorted, h.buffered, h.carries, ?_, ?_, fun t ht => hmid ▸ hfresh hnew t ht⟩
      · exact carries_congr (h.carries previous hprevious) howner
      · refine h.owns.congr fun k => ?_
        rw [List.map_cons, List.mem_cons, howner, or_iff_right_iff_imp]
        rintro rfl
        exact List.mem_map_of_mem hprevious
    have hprepared : ∃ prepared, serializeBuffer next = .ok prepared := by
      obtain ⟨_, hsend, -⟩ := bind_eq_ok_iff.mp hsend
      obtain ⟨prepared, hprepared, -⟩ := bind_eq_ok_iff.mp hsend
      exact ⟨prepared, hprepared⟩
    obtain ⟨prepared, hprepared⟩ := hprepared
    obtain ⟨contextP', sent', ret, r, hadd, hresume, hsent⟩ := hkept.addAndSend hprepared tvSec
    have heq := hadd.symm.trans hsend
    simp only [Except.ok.injEq, Prod.mk.injEq] at heq
    obtain ⟨rfl, rfl, -⟩ := heq
    refine ⟨r, hresume, ?_⟩
    cases hsent with
    | sent hleaves => exact hleaves
    | removed => exact h.leaves rfl rfl noCall_nil

/-! ### Transactions that are sent again or answered -/

/-- A transaction that ends leaves the records to the others. -/
theorem Kept.ended (h : s.Kept) (hlist : f.list = s.transactionList)
    (howner : owner t = owner f.here) (hsent : NoCall sent)
    (hspared : ∀ packet, message = some packet → s.AnswerSpared t packet) :
    ∃ r, s.resume f.unlink { s.toTransactionContext with transactionList := f.unlink }
      (sent ++ callCallback t message) = .ok r ∧ Leaves s.transactionList r := by
  have hperm : (f.here :: f.unlink).Perm s.transactionList := hlist ▸ (f.set_perm f.here).symm
  have howns : HeapOwns s.heap (t :: f.unlink) := by
    refine h.owns.congr fun k => ?_
    rw [← (hperm.map owner).mem_iff, List.map_cons, List.map_cons, howner]
  have hsub : f.unlink.Sublist s.transactionList := by
    rw [← hlist]
    exact (List.sublist_cons_self _ _).append_left _
  have hhere : f.here ∈ s.transactionList := hlist ▸ f.here_mem_list
  obtain ⟨r, hresume, hended⟩ := exists_resume message howns
    (carries_congr (h.carries _ hhere) howner) hsent hspared
    { s.toTransactionContext with transactionList := f.unlink }
  have hlist' : r.memory.transactionList = f.unlink := by rw [hended.context]
  refine ⟨r, hresume, ⟨?_, ?_, ?_, ?_⟩, hended.called, fun t' ht' hgone a ha => ?_⟩
  · exact hlist' ▸ h.sorted.sublist hsub
  · exact hlist' ▸ fun t ht => h.buffered t (hsub.mem ht)
  · exact hlist' ▸ fun t ht => h.carries t (hsub.mem ht)
  · exact hlist' ▸ hended.owns
  · rcases List.mem_cons.mp (hperm.mem_iff.mpr ht') with rfl | ht'
    · exact hended.ended a ((Prod.mk.inj howner).2.trans ha)
    · rw [hlist'] at hgone
      exact absurd (List.mem_map_of_mem ht') hgone

/-- A transaction is changed in place. -/
theorem Kept.changed (h : s.Kept) (hlist : f.list = s.transactionList) (hsame : SameOwner f.here t)
    (hbuffer : t.buffer ≠ none) (hsent : NoCall sent) :
    ∃ r, s.resume (f.set t) { s.toTransactionContext with transactionList := f.set t } sent =
      .ok r ∧ Leaves s.transactionList r := by
  have hmap {β : Type} (g : Transaction → β) (hg : g t = g f.here) :
      (f.set t).map g = s.transactionList.map g := by
    rw [← hlist, Focus.list, Focus.set, Focus.set, List.map_append, List.map_append, List.map_cons,
      List.map_cons, hg]
  refine ⟨_, resume_of_noCall hsent _ _ _, ⟨?_, ?_, ?_, ?_⟩, ?_, ?_⟩
  · have hsorted := h.sorted
    rw [← List.pairwise_map (f := Transaction.mID) (R := (· < ·))] at hsorted ⊢
    rwa [hmap _ hsame.mID]
  · intro t' ht'
    rcases Focus.mem_set.mp ht' with rfl | ht'
    · exact hbuffer
    · exact h.buffered t' (hlist ▸ Focus.mem_list.mpr (.inr ht'))
  · intro t' ht'
    rcases Focus.mem_set.mp ht' with rfl | ht'
    · exact carries_congr (h.carries _ (hlist ▸ f.here_mem_list)) (owner_eq hsame)
    · exact h.carries t' (hlist ▸ Focus.mem_list.mpr (.inr ht'))
  · refine h.owns.congr fun k => ?_
    rw [hmap _ (owner_eq hsame)]
  · exact fun _ _ _ hmem => absurd hmem (not_mem_of_noCall hsent)
  · intro t' ht' hgone
    rw [hmap _ hsame.mID] at hgone
    exact absurd (List.mem_map_of_mem ht') hgone

/-- **Sending a transaction again leaves the records to their owners.** -/
theorem Kept.send (h : s.Kept) (tvSec : ℤ) (mID : UInt16) :
    ∃ r, s.after (.send tvSec mID) = .ok r ∧ Leaves s.transactionList r := by
  unfold after handleEvent
  dsimp only
  cases hfocus : focusFirst (·.mID == mID) s.transactionList with
  | none =>
    exact ⟨_, resume_of_noCall noCall_nil s.transactionList s s.toTransactionContext,
      h.leaves rfl rfl noCall_nil⟩
  | some f =>
    obtain ⟨hlist, -, -⟩ := focusFirst_eq_some_iff.mp hfocus
    have hhere : f.here ∈ s.transactionList := hlist ▸ f.here_mem_list
    obtain ⟨buffer, hbuffer⟩ := Option.ne_none_iff_exists'.mp (h.buffered _ hhere)
    have hprepared : serializeBuffer f.here = .ok (some (f.here, buffer)) := by
      unfold serializeBuffer
      rw [hbuffer]
      rfl
    obtain ⟨t, sent, result, hsend⟩ := exists_transactionSend tvSec hprepared
    have hsame := sameOwner_of_transactionSend hsend
    have hresult := sendResult_of_transactionSend hsend
    dsimp only
    unfold sendListed
    rw [hsend, ok_bind]
    dsimp only
    rw [transactionRemove_of_sorted h.sorted hlist hsame.mID]
    cases hresult with
    | waits hbuffer hsent =>
      rw [if_pos rfl]
      exact h.changed hlist hsame hbuffer hsent
    | empty _ hsize => exact absurd (hprepared.symm.trans hsize) (by simp)
    | expired hne hsent =>
      rw [if_neg hne]
      exact h.ended hlist (owner_eq hsame) hsent fun _ heq => by cases heq

/-- **The response is spared**: so is the answer to the transaction that it ends. -/
def ResponseSpared (s : RequestMemory) (tvSec : ℤ) (fromSessionH : Session) (message : Packet)
    (withResponse : Bool) : Prop :=
  ∀ f, focusFirst (endsLoop fromSessionH message) s.transactionList = some f →
    (respond tvSec fromSessionH message withResponse f.here).1 = none →
      s.AnswerSpared f.here message

theorem AnswerSpared.congr {packet : Packet} (h : s.AnswerSpared t packet)
    (howner : owner t' = owner t) : s.AnswerSpared t' packet := by
  obtain ⟨hcallback, hdata⟩ := Prod.mk.inj howner
  unfold AnswerSpared
  rw [hcallback, hdata]
  exact h

/-- **A response leaves the records to their owners.** -/
theorem Kept.response (h : s.Kept) {tvSec : ℤ} {fromSessionH : Session} {message : Packet}
    {withResponse : Bool} (hspared : s.ResponseSpared tvSec fromSessionH message withResponse) :
    ∃ r, s.after (.response tvSec fromSessionH message withResponse) = .ok r ∧
      Leaves s.transactionList r := by
  unfold after
  cases hfocus : focusFirst (endsLoop fromSessionH message) s.transactionList with
  | none =>
    dsimp only
    rw [handleEvent_response (transactionHandleResponse_of_none hfocus withResponse), ok_bind]
    exact ⟨_, resume_of_noCall noCall_nil _ _ _, h.leaves rfl rfl noCall_nil⟩
  | some f =>
    obtain ⟨hlist, -, -⟩ := focusFirst_eq_some_iff.mp hfocus
    have hhere : f.here ∈ s.transactionList := hlist ▸ f.here_mem_list
    have hcase := respond_cases tvSec fromSessionH message withResponse f.here
    have hack := kept_of_acknowledge message f.here
    have howner : owner (acknowledge message f.here) = owner f.here := by rw [hack]; rfl
    have hnoCall {sent : List Output} (hsent : ∀ o ∈ sent, o = emptyAck message fromSessionH) :
        NoCall sent := fun o ho => ⟨_, _, hsent o ho⟩
    have hspared := hspared f hfocus
    dsimp only
    rw [handleEvent_response (transactionHandleResponse_eq h.sorted hfocus withResponse), ok_bind]
    generalize respond tvSec fromSessionH message withResponse f.here = r at hcase hspared
    cases hcase with
    | unauthorized _ hsent =>
      refine h.changed hlist ?_ ?_ (hnoCall hsent)
      · exact ⟨rfl, rfl, rfl⟩
      · exact h.buffered f.here hhere
    | finished hsent =>
      refine h.ended hlist howner (hnoCall hsent) ?_
      rintro packet ⟨rfl⟩
      exact (hspared rfl).congr howner
    | waits =>
      refine h.changed hlist ⟨?_, ?_, ?_⟩ ?_ noCall_nil
      all_goals rw [hack]
      · rfl
      · rfl
      · rfl
      · exact h.buffered f.here hhere

end RequestMemory

end Lwm2m.Core

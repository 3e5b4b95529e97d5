/-
# Transactions in memory

`transaction_remove` frees the transaction it is given and takes one off the list by its
message-id.  Here a transaction has an address, and the memory knows which addresses are
allocated, so that the two can come apart.  `Intact` says that they do not: the
message-ids on the list increase, and the allocated transactions are the listed ones.

Message-ids are given out by a counter of 16 bits.  In every run in which no new request gets the
message-id of a listed one, the memory stays intact and `transaction_remove` takes off
what it frees (`transactionMemory_intact`), so that every step is one of the list model
(`transactionMemory_refines`); a request that gets a message-id in use breaks it.
-/

import Lwm2m.Core.Retransmission

namespace Lwm2m.Core

open Coap Code Library

/-- A listed transaction and its address. -/
structure Node where
  address : ℕ
  transacP : Transaction
  deriving DecidableEq, Repr

/-- The identifier by which the list is kept. -/
abbrev Node.mID (node : Node) : UInt16 := node.transacP.mID

/-- The transactions of a context in memory: the list, the addresses of the transactions that
are allocated, and the address that is allocated next. -/
structure TransactionMemory where
  nextMID : UInt16
  transactionList : List Node := []
  allocated : List ℕ := []
  nextAddress : ℕ := 0
  deriving DecidableEq, Repr

namespace TransactionMemory

/-- A listed transaction is changed in place. -/
def write (m : TransactionMemory) (node : Node) : TransactionMemory :=
  { m with
    transactionList := m.transactionList.map fun n => if n.address = node.address then node else n }

/-- `transaction_remove`. -/
def transactionRemove (m : TransactionMemory) (node : Node) : TransactionMemory :=
  { m with
    transactionList := (listRemove Node.mID m.transactionList node.mID).1
    allocated := m.allocated.erase node.address }

/-- `transaction_send`. -/
def transactionSend (m : TransactionMemory) (tvSec : ℤ) (node : Node) :
    Except Fault (TransactionMemory × List Output × ℤ) := do
  let (transacP, sent, result) ← Core.transactionSend tvSec node.transacP
  let node := { node with transacP }
  if result = 0 then return (m.write node, sent, result)
  else return ((m.write node).transactionRemove node, sent, result)

/-- The loop of `transaction_step`: `nextP` is read before the transaction is sent. -/
def stepLoop (tvSec currentTime : ℤ) (m : TransactionMemory) :
    List Node → Except Fault (TransactionMemory × List Output)
  | [] => return (m, [])
  | node :: nextP => do
    if node.transacP.retransTime ≤ currentTime then
      let (m, sent, _) ← m.transactionSend tvSec node
      let (m, rest) ← stepLoop tvSec currentTime m nextP
      return (m, sent ++ rest)
    else stepLoop tvSec currentTime m nextP

/-- `transaction_handleResponse`. -/
def transactionHandleResponse (m : TransactionMemory) (tvSec : ℤ) (fromSessionH : Session)
    (message : Packet) (withResponse : Bool) : TransactionMemory × List Output :=
  match m.transactionList.find? fun node => endsLoop fromSessionH message node.transacP with
  | none => (m, [])
  | some node =>
    match respond tvSec fromSessionH message withResponse node.transacP with
    | (some transacP, sent) => (m.write { node with transacP }, sent)
    | (none, sent) => (m.transactionRemove node, sent)

/-- A new transaction, under the next message-id. -/
def newNode (m : TransactionMemory) (transacP : Transaction) : Node where
  address := m.nextAddress
  transacP := { transacP with
    mID := m.nextMID
    message := { transacP.message with mid := m.nextMID } }

/-- A request as its creators make it: a new transaction is listed and sent. -/
def request (m : TransactionMemory) (tvSec : ℤ) (transacP : Transaction) :
    Except Fault (TransactionMemory × List Output × ℤ) :=
  let node := m.newNode transacP
  let m := { m with
    nextMID := m.nextMID + 1
    transactionList := listAdd Node.mID node m.transactionList
    allocated := node.address :: m.allocated
    nextAddress := m.nextAddress + 1 }
  m.transactionSend tvSec node

end TransactionMemory

/-- What happens to the transactions of a context. -/
inductive MemoryEvent
  /-- A new request. -/
  | request (tvSec : ℤ) (transacP : Transaction)
  /-- A message-id is given to a message that is no transaction. -/
  | skip
  /-- `transaction_step`. -/
  | step (tvSec currentTime : ℤ)
  /-- `transaction_handleResponse`. -/
  | response (tvSec : ℤ) (fromSessionH : Session) (message : Packet) (withResponse : Bool)

/-- The memory after an event, and what left the client. -/
def TransactionMemory.after (m : TransactionMemory) :
    MemoryEvent → Except Fault (TransactionMemory × List Output)
  | .request tvSec transacP => do
    let (m, sent, _) ← m.request tvSec transacP
    return (m, sent)
  | .skip => return ({ m with nextMID := m.nextMID + 1 }, [])
  | .step tvSec currentTime => stepLoop tvSec currentTime m m.transactionList
  | .response tvSec fromSessionH message withResponse =>
    return m.transactionHandleResponse tvSec fromSessionH message withResponse

/-- A step of a run. -/
def MemoryStep (m : TransactionMemory) (e : MemoryEvent) (m' : TransactionMemory) : Prop :=
  ∃ sent, m.after e = .ok (m', sent)

/-- The memory is intact: the message-ids on the list increase, and the allocated transactions
are those of the list, each once. -/
structure Intact (m : TransactionMemory) : Prop where
  sorted : m.transactionList.Pairwise (·.mID < ·.mID)
  listed : m.allocated.Perm (m.transactionList.map Node.address)
  nodup : m.allocated.Nodup
  below : ∀ address ∈ m.allocated, address < m.nextAddress

/-! ### What the operations keep -/

variable {tvSec : ℤ} {m' m : TransactionMemory} {sent : List Output} {e : MemoryEvent}

variable {result currentTime : ℤ} {nextP : List Node} {transacP : Transaction}

namespace Intact

variable {m : TransactionMemory} {node old : Node}

/-- A listed transaction is known by its address. -/
theorem eq_of_address (h : Intact m) (hnode : node ∈ m.transactionList)
    (hold : old ∈ m.transactionList) (heq : node.address = old.address) : node = old :=
  List.inj_on_of_nodup_map (h.listed.nodup_iff.mp h.nodup) hnode hold heq

/-- A transaction that is changed in place keeps the memory intact, if it keeps its
message-id. -/
theorem write (h : Intact m) (hold : old ∈ m.transactionList)
    (haddress : node.address = old.address) (hmid : node.mID = old.mID) :
    Intact (m.write node) := by
  have hsame {β : Type} (g : Node → β) (hg : g node = g old) :
      (m.write node).transactionList.map g = m.transactionList.map g := by
    show (m.transactionList.map _).map g = _
    rw [List.map_map]
    refine List.map_congr_left fun n hn => ?_
    dsimp only [Function.comp_apply]
    split_ifs with hn'
    · rw [h.eq_of_address hn hold (hn'.trans haddress), hg]
    · rfl
  refine ⟨?_, ?_, h.nodup, h.below⟩
  · rw [← List.pairwise_map (f := Node.mID) (R := (· < ·)), hsame Node.mID hmid]
    exact List.pairwise_map.mpr h.sorted
  · rw [hsame Node.address haddress]
    exact h.listed

/-- What is around a transaction in the list is at other addresses. -/
theorem address_ne (h : Intact m) {before after : List Node}
    (hlist : m.transactionList = before ++ node :: after) :
    ∀ n ∈ before ++ after, n.address ≠ node.address := by
  have hnodup := h.listed.nodup_iff.mp h.nodup
  rw [hlist, List.map_append, List.map_cons, List.nodup_middle, List.nodup_cons,
    ← List.map_append] at hnodup
  exact fun n hn heq => hnodup.1 (heq ▸ List.mem_map_of_mem hn)

/-- **`transaction_remove` takes off the list what it frees**, and nothing else. -/
theorem transactionRemove_eq (h : Intact m) (hnode : node ∈ m.transactionList) :
    m.transactionRemove node = { m with
      transactionList := m.transactionList.filter (·.address ≠ node.address)
      allocated := m.allocated.erase node.address } := by
  obtain ⟨before, after, heq⟩ := List.append_of_mem hnode
  have hsorted := h.sorted
  rw [heq, List.pairwise_append] at hsorted
  have hbefore : ∀ n ∈ before, n.mID < node.mID := fun n hn =>
    hsorted.2.2 n hn node List.mem_cons_self
  have hkeep : ∀ n ∈ before ++ after, decide (n.address ≠ node.address) = true :=
    fun n hn => decide_eq_true (h.address_ne heq n hn)
  have hfilter : m.transactionList.filter (·.address ≠ node.address) = before ++ after := by
    rw [heq, List.filter_append, List.filter_cons_of_neg (by simp), ← List.filter_append,
      List.filter_eq_self.mpr hkeep]
  unfold TransactionMemory.transactionRemove
  rw [hfilter, heq, listRemove_append hbefore]

/-- A removal keeps the memory intact. -/
theorem transactionRemove (h : Intact m) (hnode : node ∈ m.transactionList) :
    Intact (m.transactionRemove node) := by
  rw [h.transactionRemove_eq hnode]
  have hnodup := h.listed.nodup_iff.mp h.nodup
  refine ⟨h.sorted.sublist List.filter_sublist, ?_, h.nodup.erase _, ?_⟩
  · have hmap : (m.transactionList.filter (·.address ≠ node.address)).map Node.address =
        (m.transactionList.map Node.address).erase node.address := by
      rw [hnodup.erase_eq_filter, List.filter_map]
      simp [Function.comp_def, bne, beq_eq_decide]
    rw [hmap]
    exact h.listed.erase _
  · exact fun a ha => h.below a (List.mem_of_mem_erase ha)

/-- A new transaction with a message-id that is not in use keeps the memory intact. -/
theorem allocate (h : Intact m) (haddress : node.address = m.nextAddress)
    (hfresh : ∀ n ∈ m.transactionList, n.mID ≠ node.mID) (nextMID : UInt16) :
    Intact { m with
      nextMID
      transactionList := listAdd Node.mID node m.transactionList
      allocated := node.address :: m.allocated
      nextAddress := m.nextAddress + 1 } := by
  have hnew : node.address ∉ m.allocated := by
    intro hmem
    have hlt := h.below _ hmem
    omega
  refine ⟨listAdd_pairwise h.sorted hfresh, ?_, List.nodup_cons.mpr ⟨hnew, h.nodup⟩, ?_⟩
  · exact (h.listed.cons _).trans ((listAdd_perm node m.transactionList).map Node.address).symm
  · refine List.forall_mem_cons.mpr ⟨?_, fun a ha => ?_⟩
    · show node.address < m.nextAddress + 1
      omega
    · have hlt := h.below a ha
      show a < m.nextAddress + 1
      omega

/-- What `transaction_send` keeps of the rest of the list. -/
theorem transactionSend (h : Intact m) (hnode : node ∈ m.transactionList)
    (hsend : m.transactionSend tvSec node = .ok (m', sent, result)) :
    Intact m' ∧ ∀ n ∈ m.transactionList, n.address ≠ node.address → n ∈ m'.transactionList := by
  obtain ⟨⟨transacP, sent', result'⟩, htransaction, hsend⟩ := bind_eq_ok_iff.mp hsend
  have hmid : transacP.mID = node.mID := (kept_of_transactionSend htransaction).1
  have hwrite : Intact (m.write { node with transacP }) := h.write hnode rfl hmid
  have hothers {n : Node} (hn : n ∈ m.transactionList) (hne : n.address ≠ node.address) :
      n ∈ (m.write { node with transacP }).transactionList :=
    List.mem_map.mpr ⟨n, hn, if_neg hne⟩
  dsimp only at hsend
  by_cases hresult : result' = 0
  · rw [if_pos hresult] at hsend
    cases hsend
    exact ⟨hwrite, fun n hn hne => hothers hn hne⟩
  · rw [if_neg hresult] at hsend
    cases hsend
    have hmem : { node with transacP } ∈ (m.write { node with transacP }).transactionList :=
      List.mem_map.mpr ⟨node, hnode, if_pos rfl⟩
    refine ⟨hwrite.transactionRemove hmem, fun n hn hne => ?_⟩
    rw [hwrite.transactionRemove_eq hmem]
    exact List.mem_filter.mpr ⟨hothers hn hne, decide_eq_true hne⟩

/-- The loop of `transaction_step` keeps the memory intact. -/
theorem stepLoop (h : Intact m) (hlisted : ∀ n ∈ nextP, n ∈ m.transactionList)
    (hnodup : (nextP.map Node.address).Nodup)
    (hloop : TransactionMemory.stepLoop tvSec currentTime m nextP = .ok (m', sent)) :
    Intact m' := by
  induction nextP generalizing m sent with
  | nil =>
    cases hloop
    exact h
  | cons node nextP ih =>
    obtain ⟨hnode, hrest⟩ := List.forall_mem_cons.mp hlisted
    rw [List.map_cons, List.nodup_cons] at hnodup
    unfold TransactionMemory.stepLoop at hloop
    by_cases hdue : node.transacP.retransTime ≤ currentTime
    · rw [if_pos hdue] at hloop
      obtain ⟨⟨m₁, sent₁, result⟩, hsend, hloop⟩ := bind_eq_ok_iff.mp hloop
      obtain ⟨⟨m₂, sent₂⟩, hnext, hloop⟩ := bind_eq_ok_iff.mp hloop
      cases hloop
      obtain ⟨h₁, hothers⟩ := h.transactionSend hnode hsend
      refine ih h₁ (fun n hn => hothers n (hrest n hn) fun heq => ?_) hnodup.2 hnext
      exact hnodup.1 (heq ▸ List.mem_map_of_mem hn)
    · rw [if_neg hdue] at hloop
      exact ih h hrest hnodup.2 hloop

/-- `transaction_handleResponse` keeps the memory intact. -/
theorem transactionHandleResponse (h : Intact m) (tvSec : ℤ) (fromSessionH : Session)
    (message : Packet) (withResponse : Bool) :
    Intact (m.transactionHandleResponse tvSec fromSessionH message withResponse).1 := by
  unfold TransactionMemory.transactionHandleResponse
  cases hfind : m.transactionList.find? fun node => endsLoop fromSessionH message node.transacP with
  | none => exact h
  | some node =>
    have hnode := List.mem_of_find?_eq_some hfind
    dsimp only
    split
    · rename_i transacP sent hrespond
      refine h.write hnode rfl ?_
      show transacP.mID = node.mID
      rw [kept_of_respond hrespond]
    · exact h.transactionRemove hnode

end Intact

/-- A message-id that is not in use. -/
def FreshMID (m : TransactionMemory) : Prop := ∀ node ∈ m.transactionList, node.mID ≠ m.nextMID

/-- A step in which a new request gets a message-id that is not in use. -/
def FreshStep (m : TransactionMemory) (e : MemoryEvent) (m' : TransactionMemory) : Prop :=
  MemoryStep m e m' ∧ ∀ tvSec transacP, e = .request tvSec transacP → FreshMID m

/-- **A step keeps the memory intact**, if a new request gets a fresh message-id. -/
theorem FreshStep.intact (hstep : FreshStep m e m') (h : Intact m) : Intact m' := by
  obtain ⟨⟨sent, hafter⟩, hfresh⟩ := hstep
  cases e with
  | request tvSec transacP =>
    obtain ⟨⟨m₁, sent₁, result⟩, hrequest, hafter⟩ := bind_eq_ok_iff.mp hafter
    cases hafter
    have hnew := @Intact.allocate m (m.newNode transacP) h rfl (hfresh _ _ rfl) (m.nextMID + 1)
    exact (hnew.transactionSend (mem_listAdd.mpr (.inl rfl)) hrequest).1
  | skip =>
    cases hafter
    exact ⟨h.sorted, h.listed, h.nodup, h.below⟩
  | step tvSec currentTime =>
    exact h.stepLoop (fun _ hn => hn) (h.listed.nodup_iff.mp h.nodup) hafter
  | response tvSec fromSessionH message withResponse =>
    have heq := Except.ok.inj hafter
    rw [← show _ = m' from congrArg Prod.fst heq]
    exact h.transactionHandleResponse tvSec fromSessionH message withResponse

/-! ### The list without addresses -/

/-- The transactions of the list. -/
def TransactionMemory.contents (m : TransactionMemory) : List Transaction :=
  m.transactionList.map Node.transacP

/-- The message of every transaction has its message-id. -/
def MidsMatch (m : TransactionMemory) : Prop :=
  ∀ node ∈ m.transactionList, node.transacP.message.mid = node.mID

namespace Intact

variable {m : TransactionMemory} {node : Node} {before after : List Node}

theorem wellKept (h : Intact m) (hmids : MidsMatch m) : WellKept m.contents := by
  refine ⟨List.pairwise_map.mpr h.sorted, fun transacP ht => ?_⟩
  obtain ⟨node, hnode, rfl⟩ := List.mem_map.mp ht
  exact hmids node hnode

theorem contents_write (h : Intact m) (hlist : m.transactionList = before ++ node :: after)
    (transacP : Transaction) : (m.write { node with transacP }).transactionList =
      before ++ { node with transacP } :: after := by
  have hne := h.address_ne hlist
  have hsame {l : List Node} (hl : ∀ n ∈ l, n.address ≠ node.address) :
      (l.map fun n => if n.address = node.address then { node with transacP } else n) = l := by
    refine (List.map_congr_left fun n hn => if_neg (hl n hn)).trans ?_
    exact List.map_id _
  show m.transactionList.map _ = _
  rw [hlist, List.map_append, List.map_cons, if_pos rfl,
    hsame fun n hn => hne n (List.mem_append_left _ hn),
    hsame fun n hn => hne n (List.mem_append_right _ hn)]

theorem contents_remove (h : Intact m) (hlist : m.transactionList = before ++ node :: after) :
    (m.transactionRemove node).transactionList = before ++ after := by
  have hne := h.address_ne hlist
  have hnode : node ∈ m.transactionList := by simp [hlist]
  rw [h.transactionRemove_eq hnode]
  rw [hlist, List.filter_append, List.filter_cons_of_neg (by simp), ← List.filter_append,
    List.filter_eq_self.mpr fun n hn => decide_eq_true (hne n hn)]

/-- **The list model follows the memory** in `transaction_handleResponse`. -/
theorem contents_response (h : Intact m) (hmids : MidsMatch m) (tvSec : ℤ)
    (fromSessionH : Session) (message : Packet) (withResponse : Bool) :
    let r := m.transactionHandleResponse tvSec fromSessionH message withResponse
    handleEvent m.contents (.response tvSec fromSessionH message withResponse) =
      .ok (r.1.contents, r.2) := by
  intro r
  have hr : r = m.transactionHandleResponse tvSec fromSessionH message withResponse := rfl
  unfold TransactionMemory.transactionHandleResponse at hr
  cases hfind : m.transactionList.find? fun node => endsLoop fromSessionH message node.transacP with
  | none =>
    have hnone : focusFirst (endsLoop fromSessionH message) m.contents = none := by
      refine focusFirst_eq_none_iff.mpr fun transacP ht => ?_
      obtain ⟨node, hnode, rfl⟩ := List.mem_map.mp ht
      exact List.find?_eq_none.mp hfind node hnode
    rw [hfind] at hr
    rw [hr, handleEvent_response (transactionHandleResponse_of_none hnone withResponse)]
  | some node =>
    obtain ⟨hends, before, after, hlist, hbefore⟩ := List.find?_eq_some_iff_append.mp hfind
    have hfocus : focusFirst (endsLoop fromSessionH message) m.contents =
        some ⟨before.map Node.transacP, node.transacP, after.map Node.transacP⟩ := by
      refine focusFirst_eq_some_iff.mpr ⟨?_, hends, fun transacP ht => ?_⟩
      · rw [TransactionMemory.contents, hlist, List.map_append, List.map_cons]
        rfl
      · obtain ⟨n, hn, rfl⟩ := List.mem_map.mp ht
        simpa using hbefore n hn
    rw [hfind] at hr
    rw [handleEvent_response
      (transactionHandleResponse_eq (h.wellKept hmids).sorted hfocus withResponse), hr]
    dsimp only
    rcases respond tvSec fromSessionH message withResponse node.transacP with ⟨_ | transacP, out⟩
    · dsimp only
      rw [TransactionMemory.contents, h.contents_remove hlist, List.map_append]
      rfl
    · dsimp only
      rw [TransactionMemory.contents, h.contents_write hlist, List.map_append, List.map_cons]
      rfl

/-- **The list model follows the memory** in `transaction_step`. -/
theorem contents_stepLoop {timeoutP : ℤ} (h : Intact m)
    (hlist : m.transactionList = before ++ nextP)
    (hloop : TransactionMemory.stepLoop tvSec currentTime m nextP = .ok (m', sent)) :
    ∃ timeout, Core.stepLoop tvSec currentTime (before.map Node.transacP)
      (nextP.map Node.transacP) timeoutP = .ok (m'.contents, sent, timeout) := by
  induction nextP generalizing m before sent timeoutP with
  | nil =>
    cases hloop
    refine ⟨timeoutP, ?_⟩
    rw [TransactionMemory.contents, hlist, List.append_nil]
    rfl
  | cons node nextP ih =>
    unfold TransactionMemory.stepLoop at hloop
    rw [List.map_cons]
    unfold Core.stepLoop
    by_cases hdue : node.transacP.retransTime ≤ currentTime
    · rw [if_pos hdue] at hloop ⊢
      obtain ⟨⟨m₁, sent₁, result⟩, hsend, hloop⟩ := bind_eq_ok_iff.mp hloop
      obtain ⟨⟨m₂, sent₂⟩, hnext, hloop⟩ := bind_eq_ok_iff.mp hloop
      cases hloop
      have hnode : node ∈ m.transactionList := by simp [hlist]
      obtain ⟨h₁, -⟩ := h.transactionSend hnode hsend
      obtain ⟨⟨transacP, sent', result'⟩, htransaction, hsend⟩ := bind_eq_ok_iff.mp hsend
      have hmid : transacP.mID = node.mID := (kept_of_transactionSend htransaction).1
      have hwrite : Intact (m.write { node with transacP }) := h.write hnode rfl hmid
      have hlist' := h.contents_write hlist transacP
      rw [htransaction, ok_bind]
      dsimp only at hsend ⊢
      by_cases hresult : result' = 0
      · rw [if_pos hresult] at hsend ⊢
        cases hsend
        obtain ⟨timeout, heq⟩ := ih h₁ (hlist'.trans (List.append_cons ..)) hnext
        rw [List.map_append, List.map_singleton] at heq
        rw [heq]
        exact ⟨timeout, rfl⟩
      · rw [if_neg hresult] at hsend ⊢
        cases hsend
        have hsorted : (⟨before.map Node.transacP, transacP, nextP.map Node.transacP⟩ :
            Focus Transaction).list.Pairwise (·.mID < ·.mID) := by
          have hsorted : (m.write { node with transacP }).contents.Pairwise (·.mID < ·.mID) :=
            List.pairwise_map.mpr hwrite.sorted
          rwa [TransactionMemory.contents, hlist', List.map_append, List.map_cons] at hsorted
        obtain ⟨timeout, heq⟩ := ih h₁ (hwrite.contents_remove hlist') hnext
        rw [Core.transactionRemove_eq hsorted, ok_bind, heq]
        exact ⟨timeout, rfl⟩
    · rw [if_neg hdue] at hloop ⊢
      obtain ⟨timeout, heq⟩ := ih h (hlist.trans (List.append_cons ..)) hloop
      rw [List.map_append, List.map_singleton] at heq
      exact ⟨timeout, heq⟩

/-- **The list model follows the memory** when a request is made under a fresh message-id. -/
theorem contents_request (h : Intact m) (hmids : MidsMatch m)
    (hfresh : ∀ n ∈ m.transactionList, n.mID ≠ m.nextMID)
    (hrequest : m.request tvSec transacP = .ok (m', sent, result)) :
    addAndSend tvSec { nextMID := m.nextMID + 1, transactionList := m.contents }
        (m.newNode transacP).transacP =
      .ok ({ nextMID := m'.nextMID, transactionList := m'.contents }, sent, result) := by
  set node := m.newNode transacP
  set listed : TransactionMemory := { m with
    nextMID := m.nextMID + 1
    transactionList := listAdd Node.mID node m.transactionList
    allocated := node.address :: m.allocated
    nextAddress := m.nextAddress + 1 }
  have hlisted : Intact listed := h.allocate rfl hfresh _
  obtain ⟨before, after, hlist⟩ := List.append_of_mem (mem_listAdd.mpr (.inl rfl) :
    node ∈ listed.transactionList)
  have hothers : before ++ after = m.transactionList := by
    have hperm : (listAdd Node.mID node m.transactionList).Perm (node :: m.transactionList) :=
      listAdd_perm _ _
    rw [show listAdd Node.mID node m.transactionList = _ from hlist] at hperm
    have hsorted : (before ++ node :: after).Pairwise (·.mID < ·.mID) := by
      rw [← hlist]
      exact hlisted.sorted
    refine (List.perm_middle.symm.trans hperm).cons_inv.eq_of_pairwise (fun x y _ _ hxy hyx => ?_)
      (hsorted.sublist ((List.sublist_cons_self _ _).append_left _)) h.sorted
    exact absurd (UInt16.lt_trans hxy hyx) (UInt16.lt_irrefl _)
  obtain ⟨⟨sentP, sent', result'⟩, hsend, hrequest⟩ := bind_eq_ok_iff.mp hrequest
  have hmid : sentP.mID = node.mID := (kept_of_transactionSend hsend).1
  have hwrite : Intact (listed.write { node with transacP := sentP }) :=
    hlisted.write (mem_listAdd.mpr (.inl rfl)) rfl hmid
  have hlist' := hlisted.contents_write hlist sentP
  have hnew : ∀ t ∈ m.contents, t.mID ≠ sentP.mID := fun t ht => by
    obtain ⟨n, hn, rfl⟩ := List.mem_map.mp ht
    exact hmid ▸ hfresh n hn
  have hkept := h.wellKept hmids
  have hcontents : (listed.write { node with transacP := sentP }).contents =
      listAdd Transaction.mID sentP m.contents := by
    have hperm : (listed.write { node with transacP := sentP }).contents.Perm
        (listAdd Transaction.mID sentP m.contents) := by
      rw [TransactionMemory.contents, hlist', List.map_append, List.map_cons]
      refine List.perm_middle.trans (.trans ?_ (listAdd_perm _ _).symm)
      rw [← List.map_append, hothers]
      rfl
    refine hperm.eq_of_pairwise (fun x y _ _ hxy hyx => ?_) (List.pairwise_map.mpr hwrite.sorted)
      (listAdd_pairwise hkept.sorted hnew)
    exact absurd (UInt16.lt_trans hxy hyx) (UInt16.lt_irrefl _)
  unfold addAndSend
  rw [hsend, ok_bind]
  dsimp only at hrequest ⊢
  by_cases hresult : result' = 0
  · rw [if_pos hresult] at hrequest ⊢
    cases hrequest
    rw [hcontents]
    rfl
  · rw [if_neg hresult] at hrequest ⊢
    cases hrequest
    have hremoved := congrArg (List.map Node.transacP) (hwrite.contents_remove hlist')
    rw [hothers] at hremoved
    rw [listRemove_listAdd hkept.sorted hnew]
    exact congrArg (fun l => Except.ok (({ nextMID := m.nextMID + 1, transactionList := l } :
      TransactionContext), sent, result)) hremoved.symm

end Intact

/-- A request that is sent under a message-id in use leaves a list that is not in order. -/
theorem intact_request_iff (h : Intact m)
    (hrequest : m.request tvSec transacP = .ok (m', sent, 0)) : Intact m' ↔ FreshMID m := by
  constructor
  · intro h' n hn hmid
    have hne : n.address ≠ m.nextAddress := by
      have hlt := h.below _ (h.listed.mem_iff.mpr (List.mem_map_of_mem hn))
      omega
    obtain ⟨⟨transacP', sent', result⟩, htransaction, hsend⟩ := bind_eq_ok_iff.mp hrequest
    have hsame : transacP'.mID = m.nextMID := (kept_of_transactionSend htransaction).1
    dsimp only at hsend
    split_ifs at hsend with hresult
    · cases hsend
      -- both the new transaction and the listed one are on the list
      have hnew : (⟨m.nextAddress, transacP'⟩ : Node) ∈
          (TransactionMemory.write { m with
            nextMID := m.nextMID + 1
            transactionList := listAdd Node.mID (m.newNode transacP) m.transactionList
            allocated := m.nextAddress :: m.allocated
            nextAddress := m.nextAddress + 1 } ⟨m.nextAddress, transacP'⟩).transactionList :=
        List.mem_map.mpr ⟨_, mem_listAdd.mpr (.inl rfl), if_pos rfl⟩
      have hold : n ∈ (TransactionMemory.write { m with
            nextMID := m.nextMID + 1
            transactionList := listAdd Node.mID (m.newNode transacP) m.transactionList
            allocated := m.nextAddress :: m.allocated
            nextAddress := m.nextAddress + 1 } ⟨m.nextAddress, transacP'⟩).transactionList :=
        List.mem_map.mpr ⟨n, mem_listAdd.mpr (.inr hn), if_neg hne⟩
      have hnodup := List.pairwise_map.mpr (h'.sorted.imp UInt16.ne_of_lt)
      have heq := List.inj_on_of_nodup_map hnodup hold hnew (hmid.trans hsame.symm)
      exact hne (congrArg Node.address heq)
    · cases hsend
      exact absurd rfl hresult
  · intro hfresh
    have hstep : FreshStep m (.request tvSec transacP) m' := by
      refine ⟨⟨sent, ?_⟩, fun _ _ _ => hfresh⟩
      show m.request tvSec transacP >>= _ = _
      rw [hrequest]
      rfl
    exact hstep.intact h

/-- **The list of transactions.**  In every run in which new requests get fresh message-ids, from
a context without transactions: the list is in order and holds the allocated
transactions, and no others; `transaction_remove` takes off exactly the transaction that it
frees; and the next request keeps this if and only if its message-id is fresh. -/
theorem transactionMemory_intact {m₀ m : TransactionMemory} (hlist : m₀.transactionList = [])
    (hallocated : m₀.allocated = []) {events : List MemoryEvent}
    (hrun : Run FreshStep m₀ events m) :
    Intact m ∧
      (∀ node ∈ m.transactionList, m.transactionRemove node = { m with
        transactionList := m.transactionList.filter (·.address ≠ node.address)
        allocated := m.allocated.erase node.address } ∧ Intact (m.transactionRemove node)) ∧
      ∀ tvSec transacP m' sent, m.request tvSec transacP = .ok (m', sent, 0) →
        (Intact m' ↔ FreshMID m) := by
  have hstart : Intact m₀ := by
    refine ⟨?_, ?_, ?_, ?_⟩ <;> simp [hlist, hallocated]
  have hinv : Intact m := hrun.invariant (fun _ _ _ h hstep => hstep.intact h) hstart
  exact ⟨hinv, fun node hnode => ⟨hinv.transactionRemove_eq hnode, hinv.transactionRemove hnode⟩,
    fun _ _ _ _ hrequest => intact_request_iff hinv hrequest⟩

/-- **What the list model does** in a step of the memory: its list afterwards and what leaves the
client are those of the memory. -/
def IsListStep (m : TransactionMemory) (e : MemoryEvent) (m' : TransactionMemory)
    (sent : List Output) : Prop :=
  match e with
  | .request tvSec transacP => ∃ result,
      addAndSend tvSec { nextMID := m.nextMID + 1, transactionList := m.contents }
          (m.newNode transacP).transacP =
        .ok ({ nextMID := m'.nextMID, transactionList := m'.contents }, sent, result)
  | .skip => m'.contents = m.contents ∧ sent = []
  | .step tvSec currentTime => ∀ timeoutP,
      handleEvent m.contents (.step tvSec currentTime timeoutP) = .ok (m'.contents, sent)
  | .response tvSec fromSessionH message withResponse =>
      handleEvent m.contents (.response tvSec fromSessionH message withResponse) =
        .ok (m'.contents, sent)

/-- **A step is one of the list model**, if a new request gets a fresh message-id. -/
theorem Intact.isListStep (h : Intact m) (hmids : MidsMatch m)
    (hfresh : ∀ tvSec transacP, e = .request tvSec transacP → FreshMID m)
    (hafter : m.after e = .ok (m', sent)) : IsListStep m e m' sent := by
  cases e with
  | request tvSec transacP =>
    obtain ⟨⟨m₁, sent₁, result⟩, hrequest, hafter⟩ := bind_eq_ok_iff.mp hafter
    cases hafter
    exact ⟨result, h.contents_request hmids (hfresh _ _ rfl) hrequest⟩
  | skip =>
    cases hafter
    exact ⟨rfl, rfl⟩
  | step tvSec currentTime =>
    intro timeoutP
    obtain ⟨timeout, hloop⟩ : ∃ timeout,
        Core.stepLoop tvSec currentTime [] m.contents timeoutP =
          .ok (m'.contents, sent, timeout) :=
      h.contents_stepLoop (List.nil_append _).symm hafter
    unfold handleEvent transactionStep
    dsimp only
    rw [hloop]
    rfl
  | response tvSec fromSessionH message withResponse =>
    have hresponse := h.contents_response hmids tvSec fromSessionH message withResponse
    rw [Except.ok.inj hafter] at hresponse
    exact hresponse

/-- The messages keep the message-ids of their transactions. -/
theorem IsListStep.midsMatch (hlist : IsListStep m e m' sent) (hkept : WellKept m.contents) :
    MidsMatch m' := by
  suffices hmids : ∀ t ∈ m'.contents, t.message.mid = t.mID by
    exact fun node hnode => hmids _ (List.mem_map_of_mem hnode)
  have hevent {event : TransactionEvent}
      (hevent : handleEvent m.contents event = .ok (m'.contents, sent)) :
      ∀ t ∈ m'.contents, t.message.mid = t.mID := by
    intro t' ht'
    obtain ⟨t, ht, out, hmove⟩ :=
      (sideBySide_handleEvent (e := (event, sent)) hkept hevent).exists_of_mem ht'
    obtain ⟨hmid, -, -, hmessage | hmessage⟩ := kept_of_moves hmove <;>
      rw [hmessage, hmid] <;> exact hkept.mid t ht
  cases e with
  | request tvSec transacP =>
    obtain ⟨result, hadd⟩ := hlist
    obtain ⟨⟨next, sent', result'⟩, hsend, hadd⟩ := bind_eq_ok_iff.mp hadd
    obtain ⟨hmid, -, -, hmessage⟩ := kept_of_transactionSend hsend
    have hnext : next.message.mid = next.mID := by
      rw [hmid]
      rcases hmessage with hmessage | hmessage <;> rw [hmessage] <;> rfl
    have hlisted : ∀ t ∈ listAdd Transaction.mID next m.contents, t.message.mid = t.mID := by
      intro t ht
      rcases mem_listAdd.mp ht with rfl | ht
      · exact hnext
      · exact hkept.mid t ht
    dsimp only at hadd
    split_ifs at hadd
    · rw [← show _ = m'.contents from congrArg (·.1.transactionList) (Except.ok.inj hadd)]
      exact hlisted
    · rw [← show _ = m'.contents from congrArg (·.1.transactionList) (Except.ok.inj hadd)]
      exact fun t ht => hlisted t ((listRemove_sublist _ _).mem ht)
  | skip =>
    rw [hlist.1]
    exact hkept.mid
  | step tvSec currentTime => exact hevent (hlist 0)
  | response tvSec fromSessionH message withResponse => exact hevent hlist

/-- **The memory refines the list.**  In every run in which new requests get fresh message-ids,
from a context without transactions, every step has the outputs of the list model, and leaves its
list. -/
theorem transactionMemory_refines {m₀ : TransactionMemory} (hlist : m₀.transactionList = [])
    (hallocated : m₀.allocated = []) {events : List MemoryEvent} (hrun : Run FreshStep m₀ events m)
    (hfresh : ∀ tvSec transacP, e = .request tvSec transacP → FreshMID m)
    (hafter : m.after e = .ok (m', sent)) : IsListStep m e m' sent := by
  have hstart : Intact m₀ ∧ MidsMatch m₀ := by
    refine ⟨⟨?_, ?_, ?_, ?_⟩, ?_⟩ <;> simp [MidsMatch, hlist, hallocated]
  have hkeeps (m : TransactionMemory) (e : MemoryEvent) (m' : TransactionMemory)
      (hinv : Intact m ∧ MidsMatch m) (hstep : FreshStep m e m') : Intact m' ∧ MidsMatch m' := by
    obtain ⟨h, hmids⟩ := hinv
    obtain ⟨sent, hafter⟩ := hstep.1
    exact ⟨hstep.intact h, (h.isListStep hmids hstep.2 hafter).midsMatch (h.wellKept hmids)⟩
  obtain ⟨h, hmids⟩ := hrun.invariant hkeeps hstart
  exact h.isListStep hmids hfresh hafter

/-- Message-ids that are given to other messages. -/
theorem run_skip (m : TransactionMemory) (n : ℕ) : Run MemoryStep m (List.replicate n .skip)
    { m with nextMID := m.nextMID + UInt16.ofNat n } := by
  induction n generalizing m with
  | zero =>
    have hzero : m.nextMID + UInt16.ofNat 0 = m.nextMID := UInt16.add_zero _
    rw [hzero]
    exact .nil m
  | succ n ih =>
    have hnext := ih { m with nextMID := m.nextMID + 1 }
    have hsum : m.nextMID + 1 + UInt16.ofNat n = m.nextMID + UInt16.ofNat (n + 1) := by
      rw [UInt16.add_assoc, UInt16.ofNat_add, UInt16.add_comm 1]
      rfl
    rw [hsum] at hnext
    exact .cons ⟨[], rfl⟩ hnext

/-- A request that was sent under message-id 0. -/
def sentNode (address : ℕ) : Node where
  address
  transacP := { withBuffer { getRequest with
      mID := 0
      message := { getRequest.message with mid := 0 } } with
    retransTime := 2
    retransCounter := 2 }

/-- The memory with one request. -/
def oneRequest (nextMID : UInt16) : TransactionMemory where
  nextMID
  transactionList := [sentNode 0]
  allocated := [0]
  nextAddress := 1

/-- The memory with two requests under one message-id. -/
def twoRequests : TransactionMemory where
  nextMID := 1
  transactionList := [sentNode 0, sentNode 1]
  allocated := [1, 0]
  nextAddress := 2

/-- The second request is listed after the first. -/
theorem memoryStep_twoRequests :
    MemoryStep (oneRequest 0) (.request 0 getRequest) twoRequests := by
  let buffer := coapSerializeMessage ((oneRequest 0).newNode getRequest).transacP.message
  have hsend : transactionSend 0 ((oneRequest 0).newNode getRequest).transacP =
      .ok ((sentNode 1).transacP, [.datagram (some 1) buffer], 0) := rfl
  have hle : ¬ (sentNode 0).mID > ((oneRequest 0).newNode getRequest).mID := by decide
  have hadd : listAdd Node.mID ((oneRequest 0).newNode getRequest) [sentNode 0] =
      [sentNode 0, (oneRequest 0).newNode getRequest] := by
    simp only [listAdd]
    rw [if_neg hle]
    rfl
  refine ⟨[.datagram (some 1) buffer], ?_⟩
  show (oneRequest 0).request 0 getRequest >>= _ = _
  unfold TransactionMemory.request TransactionMemory.transactionSend
  dsimp only
  rw [hsend, show (oneRequest 0).transactionList = [sentNode 0] from rfl, hadd]
  rfl

/-- **A freed transaction stays listed.**  A request is pending under message-id 0 while 65535
message-ids are given out; the next request gets 0 again, and its removal takes the first one
off the list. -/
theorem messageId_wraps : ∃ events,
    Run MemoryStep { nextMID := 0 } events twoRequests ∧ ¬ Intact twoRequests ∧
      ∃ node ∈ twoRequests.transactionList,
        node ∈ (twoRequests.transactionRemove node).transactionList ∧
          node.address ∉ (twoRequests.transactionRemove node).allocated := by
  have hfirst : MemoryStep { nextMID := 0 } (.request 0 getRequest) (oneRequest 1) := ⟨_, rfl⟩
  obtain ⟨n, hwrap⟩ : ∃ n, (1 : UInt16) + UInt16.ofNat n = 0 := ⟨65535, by decide⟩
  have hskip : Run MemoryStep (oneRequest 1) (List.replicate n .skip) (oneRequest 0) := by
    have hskip := run_skip (oneRequest 1) n
    rwa [show (oneRequest 1).nextMID = 1 from rfl, hwrap] at hskip
  refine ⟨_, .cons hfirst (hskip.append (.cons memoryStep_twoRequests (.nil _))), ?_, sentNode 1,
    ?_, ?_, ?_⟩
  · intro h
    have hlt := List.rel_of_pairwise_cons h.sorted (List.mem_singleton.mpr rfl)
    exact absurd hlt (by decide)
  · exact List.mem_cons_of_mem _ (List.mem_singleton.mpr rfl)
  · exact List.mem_singleton.mpr rfl
  · decide

/-- After one request the memory is intact. -/
theorem oneRequest_intact : Intact (oneRequest 1) := by
  have hstep : FreshStep { nextMID := 0 } (.request 0 getRequest) (oneRequest 1) :=
    ⟨⟨_, rfl⟩, fun _ _ _ _ h => by cases h⟩
  exact (transactionMemory_intact rfl rfl (.cons hstep (.nil _))).1

/-- The request is retransmitted as in the list model. -/
theorem oneRequest_isListStep :
    ∃ m' sent, (oneRequest 1).after (.step 2 2) = .ok (m', sent) ∧ sent ≠ [] ∧
      IsListStep (oneRequest 1) (.step 2 2) m' sent := by
  have hstep : FreshStep { nextMID := 0 } (.request 0 getRequest) (oneRequest 1) :=
    ⟨⟨_, rfl⟩, fun _ _ _ _ h => by cases h⟩
  exact ⟨_, _, rfl, List.cons_ne_nil _ _,
    transactionMemory_refines rfl rfl (.cons hstep (.nil _)) (fun _ _ h => by cases h) rfl⟩

end Lwm2m.Core

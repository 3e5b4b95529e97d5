/-
# What the callbacks of registrations release

`Keeps` is the invariant of the transactions that share user data: the allocated cells are those of
the `registration_data_t`s that the transactions have.  A callback of one of them runs without a
fault, and it keeps the invariant for the others if and only if it releases what they do not have
(`call_keeps_iff`).

`prv_handleRegistrationReply` releases everything with the last transaction, unless a pending
registration is asked for more and no request followed.  `prv_handleRegistrationUpdateReply` frees
the payload although others have it, and nothing when there is no reply.
-/

import Lwm2m.Core.RegistrationMemory
import Lwm2m.Library.SharedOwnership

namespace Lwm2m.Core

open Coap Code Library Library.Memory

/-! ### The calls that sending makes -/

/-- The outputs call no callback. -/
def NoCall (sent : List Output) : Prop :=
  ∀ o ∈ sent, ∃ sessionH buffer, o = .datagram sessionH buffer

theorem noCall_singleton (sessionH : Session) (buffer : List Byte) :
    NoCall [.datagram sessionH buffer] :=
  List.forall_mem_singleton.mpr ⟨sessionH, buffer, rfl⟩

variable {t t' : Transaction} {tvSec result : ℤ} {sent : List Output}

theorem serializeBuffer_eq_none_iff : serializeBuffer t = .ok none ↔
    t.buffer = none ∧ coapSerializeGetSize t.message % 65536 = 0 := by
  unfold serializeBuffer
  cases t.buffer with
  | some buffer => exact iff_of_false (fun h => by cases h) fun h => by cases h.1
  | none =>
    dsimp only
    split_ifs with hzero hlength
    · exact iff_of_true rfl ⟨rfl, hzero⟩
    · exact iff_of_false (fun h => by cases h) fun h => hzero h.2
    · exact iff_of_false (fun h => by cases h) fun h => hzero h.2

/-- The transactions have the same message-id, callback and user data. -/
structure SameOwner (t t' : Transaction) : Prop where
  mID : t'.mID = t.mID
  callback : t'.callback = t.callback
  userData : t'.userData = t.userData

theorem sameOwner_of_transactionSend (h : transactionSend tvSec t = .ok (t', sent, result)) :
    SameOwner t t' := by
  rcases transactionSend_cases h with ⟨rfl, -⟩ | ⟨u, buffer, hbuffered, hcase⟩
  · exact ⟨rfl, rfl, rfl⟩
  · cases hbuffered <;> cases hcase <;> exact ⟨rfl, rfl, rfl⟩

/-- How `transaction_send` ends: the transaction waits with its buffer, or is given up without
a buffer, or is given up with a call of its callback. -/
inductive SendResult (t t' : Transaction) : List Output → ℤ → Prop
  | waits {sent : List Output} (hbuffer : t'.buffer ≠ none) (hsent : NoCall sent) :
    SendResult t t' sent 0
  | empty {result : ℤ} (hresult : result ≠ 0) (hsize : serializeBuffer t = .ok none) :
    SendResult t t' [] result
  | expired {sent : List Output} {result : ℤ} (hresult : result ≠ 0) (hsent : NoCall sent) :
    SendResult t t' (sent ++ callCallback t' none) result

theorem sendResult_of_transactionSend (h : transactionSend tvSec t = .ok (t', sent, result)) :
    SendResult t t' sent result := by
  have hnil : NoCall [] := fun _ ho => absurd ho List.not_mem_nil
  rcases transactionSend_cases h with ⟨-, rfl, hresult, hsize⟩ | ⟨u, buffer, hbuffered, hcase⟩
  · exact .empty hresult hsize
  · have hbuffer : u.buffer ≠ none := by
      cases hbuffered with
      | old h => exact h ▸ Option.some_ne_none _
      | new => exact Option.some_ne_none _
    cases hcase with
    | acknowledged | exhausted => exact SendResult.expired (by decide) hnil
    | first | again => exact .waits hbuffer (noCall_singleton _ _)
    | noClock => exact .expired (by decide) (noCall_singleton _ _)

/-- How the sending of a new transaction ends. -/
inductive AddResult (contextP : TransactionContext) (next next' : Transaction) :
    TransactionContext → List Output → ℤ → Prop
  | waits {sent : List Output} (hbuffer : next'.buffer ≠ none) (hsent : NoCall sent) :
    AddResult contextP next next' { contextP with
      transactionList := listAdd Transaction.mID next' contextP.transactionList } sent 0
  | empty {result : ℤ} (hresult : result ≠ 0) (hsize : serializeBuffer next = .ok none) :
    AddResult contextP next next' contextP [] result
  | expired {sent : List Output} {result : ℤ} (hresult : result ≠ 0) (hsent : NoCall sent) :
    AddResult contextP next next' contextP (sent ++ callCallback next' none) result

theorem addResult_of_addAndSend {contextP contextP' : TransactionContext} {next : Transaction}
    (hsorted : contextP.transactionList.Pairwise (·.mID < ·.mID))
    (hfresh : ∀ t ∈ contextP.transactionList, t.mID ≠ next.mID)
    (h : addAndSend tvSec contextP next = .ok (contextP', sent, result)) :
    ∃ next', SameOwner next next' ∧ AddResult contextP next next' contextP' sent result := by
  obtain ⟨⟨next', sent', result'⟩, hsend, h⟩ := bind_eq_ok_iff.mp h
  have hsame := sameOwner_of_transactionSend hsend
  have hresult := sendResult_of_transactionSend hsend
  refine ⟨next', hsame, ?_⟩
  have hlist : (listRemove Transaction.mID
      (listAdd Transaction.mID next' contextP.transactionList) next'.mID).1 =
      contextP.transactionList :=
    listRemove_listAdd hsorted fun t ht => hsame.mID ▸ hfresh t ht
  dsimp only at h
  rw [hlist] at h
  cases hresult with
  | waits hbuffer hsent =>
    rw [if_pos rfl] at h
    cases h
    exact .waits hbuffer hsent
  | empty hne hsize =>
    rw [if_neg hne] at h
    cases h
    exact .empty hne hsize
  | expired hne hsent =>
    rw [if_neg hne] at h
    cases h
    exact .expired hne hsent

/-! ### The user data of a list -/

/-- The user data of the transactions. -/
def dataRefs (l : List Transaction) : Set ℕ := {a | ∃ t ∈ l, t.userData = some a}

theorem dataRefs_cons {l : List Transaction} {a : ℕ} (h : t.userData = some a) :
    dataRefs (t :: l) = insert a (dataRefs l) := by
  ext b
  simp [dataRefs, h, eq_comm]

namespace RegistrationMemory

/-- The cells that a `registration_data_t` points to. -/
def parts (s : RegistrationMemory) (a : ℕ) : List ℕ :=
  (s.registrationData a).query.toList ++ (s.registrationData a).payload.toList

/-- The transaction has the callback that fits its user data, at `a`. -/
structure Carries (s : RegistrationMemory) (t : Transaction) (a : ℕ) : Prop where
  userData : t.userData = some a
  callback : t.callback = some registrationReply ∧ (s.registrationData a).payload ≠ none ∨
    t.callback = some registrationUpdateReply ∧ (s.registrationData a).query = none
  server : ∃ server ∈ s.serverList, server.ref = (s.registrationData a).server

/-- The transactions share the allocated user data. -/
structure Keeps (s : RegistrationMemory) (l : List Transaction) : Prop where
  carries : ∀ t ∈ l, ∃ a, s.Carries t a
  shared : Shared s.parts s.heap (dataRefs l)

/-- What the callbacks know of a transaction. -/
def owner (t : Transaction) : Option ℕ × Option ℕ := (t.callback, t.userData)

theorem owner_eq (h : SameOwner t t') : owner t' = owner t := by
  rw [owner, h.callback, h.userData, owner]

/-- The servers of a memory are servers of the other one. -/
def KeepsServers (s s' : RegistrationMemory) : Prop :=
  ∀ server ∈ s.serverList, ∃ server' ∈ s'.serverList, server'.ref = server.ref

variable {s s' : RegistrationMemory} {l l' : List Transaction} {t t' : Transaction} {a : ℕ}

theorem Carries.congr (h : s.Carries t a) (hdata : s'.registrationData a = s.registrationData a)
    (hservers : KeepsServers s s') (howner : owner t' = owner t) : s'.Carries t' a := by
  obtain ⟨hcallback, huserData⟩ := Prod.mk.inj howner
  obtain ⟨server, hmem, href⟩ := h.server
  obtain ⟨server', hmem', href'⟩ := hservers server hmem
  refine ⟨huserData.trans h.userData, ?_, server', hmem', ?_⟩
  · rw [hcallback, hdata]
    exact h.callback
  · rw [href', href, hdata]

/-- Transactions with the same owners. -/
theorem Keeps.congr (h : s.Keeps l) (hheap : s'.heap = s.heap)
    (hdata : s'.registrationData = s.registrationData) (hservers : KeepsServers s s')
    (howners : ∀ k, k ∈ l'.map owner ↔ k ∈ l.map owner) : s'.Keeps l' := by
  have hback : ∀ t' ∈ l', ∃ t ∈ l, owner t' = owner t := fun t' ht' => by
    obtain ⟨t, ht, heq⟩ := List.mem_map.mp ((howners _).mp (List.mem_map_of_mem ht'))
    exact ⟨t, ht, heq.symm⟩
  have hforth : ∀ t ∈ l, ∃ t' ∈ l', owner t' = owner t := fun t ht => by
    obtain ⟨t', ht', heq⟩ := List.mem_map.mp ((howners _).mpr (List.mem_map_of_mem ht))
    exact ⟨t', ht', heq⟩
  refine ⟨fun t' ht' => ?_, ?_⟩
  · obtain ⟨t, ht, howner⟩ := hback t' ht'
    obtain ⟨a, hcarries⟩ := h.carries t ht
    exact ⟨a, hcarries.congr (congrFun hdata a) hservers howner⟩
  · have hparts : s'.parts = s.parts := by
      unfold parts
      rw [hdata]
    have hrefs : dataRefs l' = dataRefs l := by
      ext a
      constructor
      · rintro ⟨t', ht', huserData⟩
        obtain ⟨t, ht, howner⟩ := hback t' ht'
        exact ⟨t, ht, (Prod.mk.inj howner).2.symm.trans huserData⟩
      · rintro ⟨t, ht, huserData⟩
        obtain ⟨t', ht', howner⟩ := hforth t ht
        exact ⟨t', ht', (Prod.mk.inj howner).2.trans huserData⟩
    rw [hparts, hheap, hrefs]
    exact h.shared

/-! ### One call of a callback -/

/-- The callback of a registration releases what no transaction has any more: if it is asked for
more of a pending registration, another transaction has the user data. -/
def registrationReleases (status : Status) (packet : Option Packet) (shared : Prop) : Prop :=
  status = .regPending ∧ asksForMore packet → shared

/-- The callback of an update releases what no transaction has any more. -/
def updateReleases (status : Status) (packet : Option Packet) (payload : Option ℕ)
    (shared : Prop) : Prop :=
  if status = .regUpdatePending ∧ asksForMore packet then shared ∨ payload = none
  else if isFinal packet then shared → payload = none
  else shared

/-- Without a reply, an update releases nothing. -/
theorem updateReleases_none {status : Status} {payload : Option ℕ} {shared : Prop} :
    updateReleases status none payload shared ↔ shared := by
  simp [updateReleases, asksForMore, isFinal]

/-- The call of the callback of a transaction releases what the `others` do not have. -/
def CallReleases (s : RegistrationMemory) (others : List Transaction) (t : Transaction)
    (packet : Option Packet) : Prop :=
  ∀ a, t.userData = some a →
    ∀ server, deref s.serverList (s.registrationData a).server = .ok server →
      if t.callback = some registrationReply then
        registrationReleases server.status packet (a ∈ dataRefs others)
      else updateReleases server.status packet (s.registrationData a).payload (a ∈ dataRefs others)

/-- The transactions are the same, and so are the fields of the user data; servers are changed
in place at most. -/
structure SameUsers (s s' : RegistrationMemory) : Prop where
  registrationData : s'.registrationData = s.registrationData
  transactionList : s'.transactionList = s.transactionList
  servers : KeepsServers s s'

theorem SameUsers.parts_eq (h : SameUsers s s') : s'.parts = s.parts := by
  unfold parts
  rw [h.registrationData]

/-- Apart from the fields of servers nothing changed that the user data depends on. -/
structure SameData (s s' : RegistrationMemory) : Prop extends SameUsers s s' where
  heap : s'.heap = s.heap
  nextMID : s'.nextMID = s.nextMID

namespace SameData

variable {s'' : RegistrationMemory}

theorem users (h : SameData s s') (heap : Heap) : SameUsers s { s' with heap } :=
  ⟨h.registrationData, h.transactionList, h.servers⟩

theorem refl (s : RegistrationMemory) : SameData s s :=
  ⟨⟨rfl, rfl, fun server hmem => ⟨server, hmem, rfl⟩⟩, rfl, rfl⟩

theorem trans (h : SameData s s') (h' : SameData s' s'') : SameData s s'' := by
  refine ⟨⟨h'.registrationData.trans h.registrationData,
    h'.transactionList.trans h.transactionList, fun server hmem => ?_⟩, h'.heap.trans h.heap,
    h'.nextMID.trans h.nextMID⟩
  obtain ⟨server', hmem', href'⟩ := h.servers server hmem
  obtain ⟨server'', hmem'', href''⟩ := h'.servers server' hmem'
  exact ⟨server'', hmem'', href''.trans href'⟩

theorem updateServers (s : RegistrationMemory) (servers : InPlace) :
    SameData s (s.updateServers servers) :=
  ⟨⟨rfl, rfl, fun server hmem =>
    ⟨servers.update server, List.mem_map_of_mem hmem, servers.ref_update server⟩⟩, rfl, rfl⟩

theorem attemptFailed (input : ReplyInput) (s : RegistrationMemory) :
    SameData s (s.attemptFailed input) :=
  (updateServers s input.attemptFailure).trans
    ⟨⟨rfl, rfl, fun server hmem => ⟨server, hmem, rfl⟩⟩, rfl, rfl⟩

theorem registrationAnswered (input : ReplyInput) (s : RegistrationMemory) (server : ServerRef)
    (packet : Option Packet) : SameData s (s.registrationAnswered input server packet) := by
  unfold RegistrationMemory.registrationAnswered
  cases packet with
  | none => exact attemptFailed input s
  | some packet =>
    dsimp only
    split_ifs
    · have h := updateServers s (.status server .registered)
      have hlocation (location : ServerRef → Option CString) :
          SameData s { s.updateServers (.status server .registered) with location } :=
        ⟨⟨h.registrationData, h.transactionList, h.servers⟩, h.heap, h.nextMID⟩
      exact (hlocation _).trans (updateServers _ _)
    · exact attemptFailed input s

end SameData

variable {others : List Transaction} {heap : Heap}

theorem transactionFreeUserData_of_mem (ha : a ∈ dataRefs others) (huserData : t.userData = some a) :
    transactionFreeUserData heap others t = .ok (heap, false) := by
  obtain ⟨t', ht', huserData'⟩ := ha
  have hany : others.any (·.userData == t.userData) = true :=
    List.any_eq_true.mpr ⟨t', ht', beq_iff_eq.mpr (huserData'.trans huserData.symm)⟩
  unfold transactionFreeUserData
  rw [if_pos hany]
  rfl

variable {owned : List ℕ}

theorem transactionFreeUserData_of_not_mem (ha : a ∉ dataRefs others)
    (huserData : t.userData = some a) (hholds : heap.Holds (a :: owned)) :
    transactionFreeUserData heap others t = .ok (heap.release a, true) := by
  have hany : ¬ others.any (·.userData == t.userData) = true := fun h => by
    obtain ⟨t', ht', heq⟩ := List.any_eq_true.mp h
    exact ha ⟨t', ht', (beq_iff_eq.mp heq).trans huserData⟩
  have hsome := (hholds.allocated a).mpr List.mem_cons_self
  unfold transactionFreeUserData
  rw [if_neg hany, huserData, lwm2mFree, if_pos hsome]
  rfl

theorem lwm2mFree_holds {p : Option ℕ} (h : heap.Holds (p.toList ++ owned)) :
    ∃ heap', lwm2mFree heap p = .ok heap' ∧ heap'.Holds owned := by
  cases p with
  | none => exact ⟨heap, rfl, h⟩
  | some a =>
    exact ⟨heap.release a, if_pos ((h.allocated a).mpr List.mem_cons_self), h.release⟩

/-- A call reads the user data and the server of its transaction. -/
theorem Keeps.reads (h : s.Keeps (t :: others)) (hcarries : s.Carries t a) :
    s.dataOf t = .ok (s.registrationData a) ∧
      ∃ server, deref s.serverList (s.registrationData a).server = .ok server := by
  constructor
  · have hsome := h.shared.isSome_of_mem ⟨t, List.mem_cons_self, hcarries.userData⟩
    unfold dataOf
    rw [hcarries.userData]
    dsimp only
    rw [if_pos hsome]
  · obtain ⟨server, hmem, href⟩ := hcarries.server
    unfold deref
    cases hfind : s.serverList.find? (·.ref = (s.registrationData a).server) with
    | some server => exact ⟨server, rfl⟩
    | none => exact absurd href (by simpa using List.find?_eq_none.mp hfind server hmem)

/-- What is left to be seen after a call: the heap. -/
theorem Keeps.keeps_iff (h : s.Keeps (t :: others)) (hsame : SameUsers s s') (heap : Heap) :
    { s' with heap }.Keeps others ↔ Shared s.parts heap (dataRefs others) := by
  have hparts : { s' with heap }.parts = s.parts := hsame.parts_eq
  constructor
  · intro hkeeps
    exact hparts ▸ hkeeps.shared
  · intro hshared
    refine ⟨fun t' ht' => ?_, hparts ▸ hshared⟩
    obtain ⟨a, hcarries⟩ := h.carries t' (List.mem_cons_of_mem t ht')
    exact ⟨a, hcarries.congr (congrFun hsame.registrationData a) hsame.servers rfl⟩

/-- The others have the user data too, or they have other blocks only. -/
theorem Keeps.split (h : s.Keeps (t :: others)) (hcarries : s.Carries t a) :
    (a ∈ dataRefs others ∧ Shared s.parts s.heap (dataRefs others)) ∨
      (a ∉ dataRefs others ∧ ∃ rest, Blocks s.parts (dataRefs others) rest ∧
        s.heap.Holds (a :: s.parts a ++ rest)) := by
  have hshared := h.shared
  rw [dataRefs_cons hcarries.userData] at hshared
  by_cases ha : a ∈ dataRefs others
  · rw [Set.insert_eq_of_mem ha] at hshared
    exact .inl ⟨ha, hshared⟩
  · obtain ⟨owned, hblocks, hholds⟩ := hshared
    obtain ⟨rest, hrest, hperm⟩ := hblocks.erase ha
    exact .inr ⟨ha, rest, hrest, hholds.perm hperm⟩

/-- A block of which a part is left allocated is not released. -/
theorem not_shared_of_mem {parts : ℕ → List ℕ} {refs : Set ℕ} {rest : List ℕ} {c : ℕ}
    (hblocks : Blocks parts refs rest) (hholds : heap.Holds owned) (hc : c ∈ owned)
    (hrest : c ∉ rest) : ¬ Shared parts heap refs := by
  intro h
  have hmem := h.isSome_iff.mp ((hholds.allocated c).mpr hc)
  exact hrest (hblocks.mem_iff.mpr hmem)

/-- **The callback of a registration.** -/
theorem prvHandleRegistrationReply_keeps (h : s.Keeps (t :: others)) (hcarries : s.Carries t a)
    (hderef : deref s.serverList (s.registrationData a).server = .ok server)
    (hpayload : (s.registrationData a).payload ≠ none) (input : ReplyInput)
    (packet : Option Packet) :
    ∃ s', s.prvHandleRegistrationReply input others t packet = .ok s' ∧ SameUsers s s' ∧
      (s'.Keeps others ↔ registrationReleases server.status packet (a ∈ dataRefs others)) := by
  obtain ⟨hdata, -⟩ := h.reads hcarries
  have hrefl {heap : Heap} : SameUsers s { s with heap } := (SameData.refl s).users heap
  unfold prvHandleRegistrationReply
  rw [hdata, ok_bind, hderef, ok_bind]
  dsimp only
  by_cases hmore : server.status = .regPending ∧ asksForMore packet
  · rw [if_pos hmore]
    have hreleases : registrationReleases server.status packet (a ∈ dataRefs others) ↔ _ :=
      ⟨fun h => h hmore, fun h _ => h⟩
    rw [hreleases]
    rcases h.split hcarries with ⟨ha, hshared⟩ | ⟨ha, rest, hblocks, hholds⟩
    · rw [transactionFreeUserData_of_mem ha hcarries.userData]
      refine ⟨_, rfl, hrefl, ?_⟩
      exact iff_of_true ((h.keeps_iff (SameData.refl s).toSameUsers s.heap).mpr hshared) ha
    · rw [transactionFreeUserData_of_not_mem ha hcarries.userData hholds]
      refine ⟨_, rfl, hrefl, ?_⟩
      refine iff_of_false (fun hkeeps => ?_) ha
      obtain ⟨p, hp⟩ := Option.ne_none_iff_exists'.mp hpayload
      have hmem : p ∈ s.parts a := by simp [parts, hp]
      have hrest : p ∉ rest := fun hrest =>
        (List.nodup_append'.mp hholds.nodup).2.2 (List.mem_cons_of_mem a hmem) hrest
      exact not_shared_of_mem hblocks hholds.release (List.mem_append_left rest hmem) hrest
        ((h.keeps_iff (SameData.refl s).toSameUsers _).mp hkeeps)
  · rw [if_neg hmore]
    have hreleases (shared : Prop) : registrationReleases server.status packet shared :=
      fun h => absurd h hmore
    have hsame : SameData s (if server.status = .regPending then
        s.registrationAnswered input (s.registrationData a).server packet else s) := by
      split_ifs
      · exact .registrationAnswered input s _ packet
      · exact .refl s
    generalize (if server.status = .regPending then
      s.registrationAnswered input (s.registrationData a).server packet else s) = s₁ at hsame ⊢
    rw [hsame.heap]
    rcases h.split hcarries with ⟨ha, hshared⟩ | ⟨ha, rest, hblocks, hholds⟩
    · rw [transactionFreeUserData_of_mem ha hcarries.userData]
      refine ⟨_, rfl, hsame.users _, ?_⟩
      exact iff_of_true ((h.keeps_iff hsame.toSameUsers s.heap).mpr hshared) (hreleases _)
    · rw [transactionFreeUserData_of_not_mem ha hcarries.userData hholds, ok_bind]
      have hparts : (s.heap.release a).Holds ((s.registrationData a).query.toList ++
          ((s.registrationData a).payload.toList ++ rest)) := by
        rw [← List.append_assoc]
        exact hholds.release
      obtain ⟨heap₁, hfree₁, hholds₁⟩ := lwm2mFree_holds hparts
      obtain ⟨heap₂, hfree₂, hholds₂⟩ := lwm2mFree_holds hholds₁
      rw [if_pos rfl, hfree₁, ok_bind, hfree₂]
      refine ⟨_, rfl, hsame.users _, ?_⟩
      exact iff_of_true ((h.keeps_iff hsame.toSameUsers heap₂).mpr ⟨rest, hblocks, hholds₂⟩) (hreleases _)

/-- **The callback of an update.** -/
theorem prvHandleRegistrationUpdateReply_keeps (h : s.Keeps (t :: others))
    (hcarries : s.Carries t a)
    (hderef : deref s.serverList (s.registrationData a).server = .ok server)
    (hquery : (s.registrationData a).query = none) (packet : Option Packet) :
    ∃ s', s.prvHandleRegistrationUpdateReply others t packet = .ok s' ∧ SameUsers s s' ∧
      (s'.Keeps others ↔ updateReleases server.status packet (s.registrationData a).payload
        (a ∈ dataRefs others)) := by
  obtain ⟨hdata, -⟩ := h.reads hcarries
  have hrefl {heap : Heap} : SameUsers s { s with heap } := (SameData.refl s).users heap
  have hparts : s.parts a = (s.registrationData a).payload.toList := by simp [parts, hquery]
  have hsplit := h.split hcarries
  rw [hparts] at hsplit
  unfold prvHandleRegistrationUpdateReply
  rw [hdata, ok_bind, hderef, ok_bind]
  dsimp only
  unfold updateReleases
  by_cases hmore : server.status = .regUpdatePending ∧ asksForMore packet
  · rw [if_pos hmore, if_pos hmore]
    rcases hsplit with ⟨ha, hshared⟩ | ⟨ha, rest, hblocks, hholds⟩
    · rw [transactionFreeUserData_of_mem ha hcarries.userData]
      refine ⟨_, rfl, hrefl, ?_⟩
      exact iff_of_true ((h.keeps_iff (SameData.refl s).toSameUsers s.heap).mpr hshared) (.inl ha)
    · rw [transactionFreeUserData_of_not_mem ha hcarries.userData hholds]
      refine ⟨_, rfl, hrefl, ?_⟩
      rw [or_iff_right ha, h.keeps_iff (SameData.refl s).toSameUsers]
      have hreleased := hholds.release
      cases hpayload : (s.registrationData a).payload with
      | none =>
        rw [hpayload] at hreleased
        exact iff_of_true ⟨rest, hblocks, hreleased⟩ rfl
      | some p =>
        rw [hpayload] at hreleased
        refine iff_of_false ?_ (Option.some_ne_none p)
        exact not_shared_of_mem hblocks hreleased List.mem_cons_self
          (List.nodup_cons.mp hreleased.nodup).1
  · rw [if_neg hmore, if_neg hmore]
    generalize hs₁ : (if server.status = .regUpdatePending then s.updateServers _ else s) = s₁
    have hsame : SameData s s₁ := by
      rw [← hs₁]
      split
      · exact .updateServers s _
      · exact .refl s
    rw [hsame.heap]
    by_cases hfinal : isFinal packet
    · rw [if_pos hfinal, if_pos hfinal]
      rcases hsplit with ⟨ha, hshared⟩ | ⟨ha, rest, hblocks, hholds⟩
      · cases hpayload : (s.registrationData a).payload with
        | none =>
          rw [lwm2mFree, ok_bind, transactionFreeUserData_of_mem ha hcarries.userData]
          refine ⟨_, rfl, hsame.users _, ?_⟩
          exact iff_of_true ((h.keeps_iff hsame.toSameUsers s.heap).mpr hshared) fun _ => rfl
        | some p =>
          have hp : p ∈ a :: s.parts a := by simp [hparts, hpayload]
          have hsome : (s.heap.cells p).isSome := hshared.isSome_iff.mpr ⟨a, ha, hp⟩
          rw [lwm2mFree, if_pos hsome, ok_bind,
            transactionFreeUserData_of_mem ha hcarries.userData]
          refine ⟨_, rfl, hsame.users _, ?_⟩
          rw [h.keeps_iff hsame.toSameUsers]
          -- the payload is released while another transaction leads to it
          refine iff_of_false (fun hreleased => ?_) fun hnone => Option.some_ne_none p (hnone ha)
          have hfreed : (s.heap.release p).cells p = none := Function.update_self ..
          have hsome' := hreleased.isSome_iff.mpr ⟨a, ha, hp⟩
          rw [hfreed] at hsome'
          cases hsome'
      · have hpayload : s.heap.Holds ((s.registrationData a).payload.toList ++ (a :: rest)) :=
          hholds.perm List.perm_middle.symm
        obtain ⟨heap₁, hfree₁, hholds₁⟩ := lwm2mFree_holds hpayload
        rw [hfree₁, ok_bind, transactionFreeUserData_of_not_mem ha hcarries.userData hholds₁]
        refine ⟨_, rfl, hsame.users _, ?_⟩
        rw [h.keeps_iff hsame.toSameUsers]
        exact iff_of_true ⟨rest, hblocks, hholds₁.release⟩ fun hmem => absurd hmem ha
    · rw [if_neg hfinal, if_neg hfinal]
      refine ⟨s₁, rfl, hsame.toSameUsers, ?_⟩
      have hiff : s₁.Keeps others ↔ _ := h.keeps_iff hsame.toSameUsers s₁.heap
      rw [hiff, hsame.heap]
      rcases hsplit with ⟨ha, hshared⟩ | ⟨ha, rest, hblocks, hholds⟩
      · exact iff_of_true hshared ha
      · refine iff_of_false ?_ ha
        refine not_shared_of_mem hblocks hholds List.mem_cons_self fun hrest => ?_
        exact (List.nodup_cons.mp hholds.nodup).1 (List.mem_append_right _ hrest)

/-- **One call of a callback** runs without a fault, and keeps the user data if and only if it
releases what the other transactions do not have. -/
theorem call_keeps_iff (h : s.Keeps (t :: others)) {callback : ℕ}
    (hcallback : t.callback = some callback) (input : ReplyInput) (packet : Option Packet) :
    ∃ s', s.call input others callback t packet = .ok s' ∧
      SameUsers s s' ∧ (s'.Keeps others ↔ s.CallReleases others t packet) := by
  obtain ⟨a, hcarries⟩ := h.carries t List.mem_cons_self
  obtain ⟨-, server, hderef⟩ := h.reads hcarries
  have hreleases (P : Server → ℕ → Prop) :
      (∀ a', t.userData = some a' → ∀ server',
        deref s.serverList (s.registrationData a').server = .ok server' → P server' a') ↔
        P server a := by
    constructor
    · exact fun h => h a hcarries.userData server hderef
    · intro hP a' huserData server' hderef'
      obtain rfl := Option.some.inj (hcarries.userData.symm.trans huserData)
      obtain rfl := Except.ok.inj (hderef.symm.trans hderef')
      exact hP
  unfold CallReleases call
  rw [hreleases]
  rcases hcarries.callback with ⟨hregistration, hpayload⟩ | ⟨hupdate, hquery⟩
  · obtain rfl := Option.some.inj (hcallback.symm.trans hregistration)
    obtain ⟨s', hcall, hsame, hkeeps⟩ :=
      prvHandleRegistrationReply_keeps h hcarries hderef hpayload input packet
    rw [if_pos rfl, if_pos hregistration]
    exact ⟨s', hcall, hsame, hkeeps⟩
  · obtain rfl := Option.some.inj (hcallback.symm.trans hupdate)
    obtain ⟨s', hcall, hsame, hkeeps⟩ :=
      prvHandleRegistrationUpdateReply_keeps h hcarries hderef hquery packet
    rw [if_neg (by decide), if_pos rfl, if_neg (by rw [hupdate]; decide)]
    exact ⟨s', hcall, hsame, hkeeps⟩

end RegistrationMemory
end Lwm2m.Core

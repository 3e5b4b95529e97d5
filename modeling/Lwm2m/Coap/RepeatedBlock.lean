/-
# A block that arrives again

`prv_coap_block_handler` tells a retransmission by the number of the block alone: a block
is refused when its number is not greater than the number kept in the entry of its
transfer (`BlockRefused`).  A completed transfer keeps its entry, so its last block is told
until a new block 0 of the URI arrives, whatever the other transfers of the peer do
meanwhile (`Stored.run`).
-/

import Lwm2m.Coap.BlockLookup

namespace Lwm2m.Coap

open Code Library

variable {blockDataHead blockDataHead' : List BlockData} {uri : CString} {b : BlockArrival}

/-! ### Refusals -/

/-- The blocks without the more flag that the handler does not take, and its answers. -/
inductive BlockRefused (blockDataHead : List BlockData) (uri : CString) (b : BlockArrival) :
    Code → Prop
  /-- The transfer is not known. -/
  | lost : b.blockNum ≠ 0 → findBlockData blockDataHead (.uri (some uri)) .block1 = .ok none →
      BlockRefused blockDataHead uri b coap408ReqEntityIncomplete
  /-- The block was stored before, or one after it was. -/
  | repeated (f : Focus BlockData) : b.blockNum ≠ 0 →
      findBlockData blockDataHead (.uri (some uri)) .block1 = .ok (some f) →
      b.blockNum ≤ f.here.blockNum → BlockRefused blockDataHead uri b coapRetransmission
  /-- The block is the next one, and does not belong at the end of the buffer. -/
  | misplaced (f : Focus BlockData) :
      findBlockData blockDataHead (.uri (some uri)) .block1 = .ok (some f) →
      ¬ b.blockNum ≤ f.here.blockNum → b.blockNum = f.here.blockNum + 1 →
      f.here.blockBuffer.length ≠ (b.blockSize.toUInt32 * b.blockNum).toNat →
      BlockRefused blockDataHead uri b coap408ReqEntityIncomplete

theorem BlockRefused.code {code : Code} (h : BlockRefused blockDataHead uri b code) :
    code = coapRetransmission ∨ code = coap408ReqEntityIncomplete := by
  cases h with
  | lost => exact .inr rfl
  | repeated => exact .inl rfl
  | misplaced => exact .inr rfl

variable {output : BlockOutput} {num : UInt32} {f : Focus BlockData}
  {identifier : BlockDataIdentifier} {blockType : BlockType}

/-- A transfer is completed only by a block without the more flag. -/
theorem coapBlock1Handler_completes
    (h : coapBlock1Handler blockDataHead uri b = .ok (blockDataHead', noError, output)) :
    b.blockMore = false := by
  by_contra hmore
  rw [Bool.not_eq_false] at hmore
  obtain ⟨found, hfound, h⟩ := bind_eq_ok_iff.mp h
  rw [hmore] at h
  by_cases hzero : b.blockNum = 0
  · rw [if_pos hzero] at h
    cases found with
    | none => cases h
    | some f => cases h
  rw [if_neg hzero] at h
  cases found with
  | none => cases h
  | some f =>
    dsimp only at h
    split_ifs at h
    all_goals cases h

theorem ne_zero_of_not_le {m n : UInt32} (h : ¬ n ≤ m) : n ≠ 0 := by
  rintro rfl
  exact h UInt32.zero_le

/-- **When the handler refuses.**  Without the more flag, a block ends in an answer other
than the completion of its transfer exactly in the cases of `BlockRefused`, and the block
list is left as it was. -/
theorem coapBlock1Handler_refuses_iff (hlast : b.blockMore = false) {code : Code}
    (hcode : code ≠ noError) :
    coapBlock1Handler blockDataHead uri b = .ok (blockDataHead', code, output) ↔
      BlockRefused blockDataHead uri b code ∧ blockDataHead' = blockDataHead ∧
        output = .untouched := by
  constructor
  · intro h
    obtain ⟨found, hfound, h⟩ := bind_eq_ok_iff.mp h
    rw [hlast] at h
    by_cases hzero : b.blockNum = 0
    · rw [if_pos hzero] at h
      cases found with
      | none | some f =>
        cases h
        exact absurd rfl hcode
    rw [if_neg hzero] at h
    cases found with
    | none =>
      cases h
      exact ⟨.lost hzero hfound, rfl, rfl⟩
    | some f =>
      dsimp only at h
      split_ifs at h with hle hnext hlength
      · cases h
        exact ⟨.repeated f hzero hfound hle, rfl, rfl⟩
      · cases h
        exact ⟨.misplaced f hfound hle hnext hlength, rfl, rfl⟩
      · cases h
        exact absurd rfl hcode
      · cases h
        exact absurd rfl hcode
  · rintro ⟨h, rfl, rfl⟩
    unfold coapBlock1Handler prvCoapBlockHandler
    cases h with
    | lost hzero hfound =>
      rw [hfound, ok_bind, if_neg hzero]
      rfl
    | repeated f hzero hfound hle =>
      rw [hfound, ok_bind, if_neg hzero]
      dsimp only
      rw [if_pos hle]
      rfl
    | misplaced f hfound hle hnext hlength =>
      rw [hfound, ok_bind, if_neg (ne_zero_of_not_le hle)]
      dsimp only
      rw [if_neg hle, if_pos hnext, if_pos hlength]
      rfl

/-! ### What a completed transfer leaves -/

/-- The list holds an entry of the transfer whose number is at least `num`. -/
def Stored (blockDataHead : List BlockData) (uri : CString) (num : UInt32) : Prop :=
  ∃ blockData, blockDataHead.find? (IsOwn (.uri (some uri)) .block1 ·) = some blockData ∧
    num ≤ blockData.blockNum

/-- The pointer that the lookup of a stored transfer returns. -/
theorem Stored.focus (h : Stored blockDataHead uri num) :
    ∃ f, focusFirst (IsOwn (.uri (some uri)) .block1 ·) blockDataHead = some f ∧
      num ≤ f.here.blockNum := by
  obtain ⟨blockData, hfind, hnum⟩ := h
  rw [← focusFirst_map_here, Option.map_eq_some_iff] at hfind
  obtain ⟨f, hf, rfl⟩ := hfind
  exact ⟨f, hf, hnum⟩

/-- A write of a number that is not smaller through that pointer. -/
theorem Stored.set (hf : focusFirst (IsOwn (.uri (some uri)) .block1 ·) blockDataHead = some f)
    {buffer : List Byte} {blockNum : UInt32} (hnum : num ≤ blockNum) :
    Stored (f.set { f.here with blockBuffer := buffer, blockNum := blockNum }) uri num := by
  have hown := of_decide_eq_true (focusFirst_eq_some_iff.mp hf).2.1
  have hset := focusFirst_set hf
    (x := { f.here with blockBuffer := buffer, blockNum := blockNum }) (decide_eq_true hown)
  refine ⟨{ f.here with blockBuffer := buffer, blockNum := blockNum }, ?_, hnum⟩
  rw [← focusFirst_map_here, hset]
  rfl

/-- What is written, inserted or unlinked outside the transfer. -/
theorem find?_set_of_not_own {x : BlockData} (hx : ¬ IsOwn identifier blockType x)
    (hhere : ¬ IsOwn identifier blockType f.here) :
    (f.set x).find? (IsOwn identifier blockType ·) =
      f.list.find? (IsOwn identifier blockType ·) := by
  rw [← List.head?_filter, ← List.head?_filter,
    Focus.filter_set_of_not (by simpa using hx) (by simpa using hhere)]

theorem find?_unlink_of_not_own (hhere : ¬ IsOwn identifier blockType f.here) :
    f.unlink.find? (IsOwn identifier blockType ·) =
      f.list.find? (IsOwn identifier blockType ·) := by
  rw [← List.head?_filter, ← List.head?_filter,
    Focus.filter_unlink_of_not (by simpa using hhere)]

variable {answer : Code × BlockOutput} {blockData : BlockData}

/-- The handler does not touch the entry of another transfer. -/
theorem find?_handler_of_ne {identifier' : BlockDataIdentifier} {blockType' : BlockType}
    (htyped : WellTyped blockDataHead) (hkey : IsKey blockType identifier)
    (hne : ∀ blockData, IsOwn identifier blockType blockData →
      ¬ IsOwn identifier' blockType' blockData)
    (h : prvCoapBlockHandler blockDataHead identifier blockType b = .ok (blockDataHead', answer)) :
    blockDataHead'.find? (IsOwn identifier' blockType' ·) =
      blockDataHead.find? (IsOwn identifier' blockType' ·) := by
  obtain ⟨found, hfound, h⟩ := bind_eq_ok_iff.mp h
  have hset {f : Focus BlockData} (hf : found = some f) (buffer : List Byte) (blockNum : UInt32) :
      (f.set { f.here with blockBuffer := buffer, blockNum := blockNum }).find?
        (IsOwn identifier' blockType' ·) = blockDataHead.find? (IsOwn identifier' blockType' ·) := by
    obtain ⟨hlist, hown⟩ := findBlockData_eq_ok_some htyped hkey (hf ▸ hfound)
    have hwritten := hne { f.here with blockBuffer := buffer, blockNum := blockNum } hown
    rw [find?_set_of_not_own hwritten (hne _ hown), hlist]
  rcases found with _ | f
  · split_ifs at h
    · cases h
      exact List.find?_cons_of_neg (by simpa using hne _ ⟨rfl, rfl⟩)
    · cases h
      rfl
  · dsimp only at h
    split_ifs at h
    · cases h
      exact hset rfl _ _
    · cases h
      rfl
    · cases h
      rfl
    · cases h
      exact hset rfl _ _
    · cases h
      rfl

/-- An operation that starts no new transfer for the URI. -/
def BlockListEvent.Spares (uri : CString) : BlockListEvent → Prop
  | .block1 uri' b => uri' = uri → b.blockNum ≠ 0
  | .delete1 uri' => uri' ≠ uri
  | _ => True

theorem not_own_of_type (htype : blockData.blockType = .block2) :
    ¬ IsOwn (.uri (some uri)) .block1 blockData := by
  rintro ⟨hblock1, -⟩
  rw [htype] at hblock1
  cases hblock1

theorem not_own_of_uri_ne {uri' : CString} (hne : uri' ≠ uri)
    (hown : IsOwn (.uri (some uri')) .block1 blockData) :
    ¬ IsOwn (.uri (some uri)) .block1 blockData := by
  rintro ⟨-, huri⟩
  rw [hown.2] at huri
  cases huri
  exact hne rfl

/-- A later block of the transfer keeps its entry and does not lower the number. -/
theorem Stored.handler (htyped : WellTyped blockDataHead) (hstored : Stored blockDataHead uri num)
    (hzero : b.blockNum ≠ 0)
    (h : coapBlock1Handler blockDataHead uri b = .ok (blockDataHead', answer)) :
    Stored blockDataHead' uri num := by
  obtain ⟨f, hf, hnum⟩ := hstored.focus
  obtain ⟨found, hfound, h⟩ := bind_eq_ok_iff.mp h
  have hfirst := findBlockData_eq_ok htyped (.block1 uri) hfound
  rw [hf] at hfirst
  subst hfirst
  rw [if_neg hzero] at h
  dsimp only at h
  split_ifs at h with hle
  · cases h
    exact hstored
  · cases h
    exact hstored
  · cases h
    exact Stored.set hf (UInt32.le_trans hnum (UInt32.le_of_lt (UInt32.not_le.mp hle)))
  · cases h
    exact hstored

/-- One operation. -/
theorem Stored.step (htyped : WellTyped blockDataHead) (hstored : Stored blockDataHead uri num)
    {event : BlockListEvent} (hspares : event.Spares uri)
    (h : blockListStep blockDataHead event = .ok blockDataHead') :
    Stored blockDataHead' uri num := by
  have hframe (hsame : blockDataHead'.find? (IsOwn (.uri (some uri)) .block1 ·) =
      blockDataHead.find? (IsOwn (.uri (some uri)) .block1 ·)) :
      Stored blockDataHead' uri num := by
    unfold Stored
    rw [hsame]
    exact hstored
  cases event with
  | block1 uri' b =>
    obtain ⟨⟨rest, answer⟩, hhandler, h⟩ := bind_eq_ok_iff.mp h
    cases h
    by_cases huri : uri' = uri
    · subst huri
      exact hstored.handler htyped (hspares rfl) hhandler
    · exact hframe (find?_handler_of_ne htyped (.block1 uri')
        (fun _ => not_own_of_uri_ne huri) hhandler)
  | block2 mid b =>
    obtain ⟨⟨rest, answer⟩, hhandler, h⟩ := bind_eq_ok_iff.mp h
    cases h
    exact hframe (find?_handler_of_ne htyped (.block2 mid)
      (fun _ hown => not_own_of_type hown.1) hhandler)
  | expect currentMid expectedMid =>
    obtain ⟨_ | f, hfound, h⟩ := bind_eq_ok_iff.mp h
    · cases h
      exact hstored
    · cases h
      obtain ⟨hlist, htype, -⟩ := findBlockData_eq_ok_some htyped (.block2 currentMid) hfound
      have hwritten : ¬ IsOwn (.uri (some uri)) .block1
          { f.here with identifier := .mid expectedMid } := not_own_of_type htype
      refine hframe ?_
      rw [find?_set_of_not_own hwritten (not_own_of_type htype), hlist]
  | delete1 uri' =>
    obtain ⟨_ | f, hfound, h⟩ := bind_eq_ok_iff.mp h
    · cases h
      exact hstored
    · cases h
      obtain ⟨hlist, hown⟩ := findBlockData_eq_ok_some htyped (.block1 uri') hfound
      refine hframe ?_
      rw [find?_unlink_of_not_own (not_own_of_uri_ne hspares hown), hlist]
  | delete2 mid =>
    obtain ⟨_ | f, hfound, h⟩ := bind_eq_ok_iff.mp h
    · cases h
      exact hstored
    · cases h
      obtain ⟨hlist, hown⟩ := findBlockData_eq_ok_some htyped (.block2 mid) hfound
      refine hframe ?_
      rw [find?_unlink_of_not_own (not_own_of_type hown.1), hlist]

/-- **A completed transfer stays in the list** until a new block 0 of its URI arrives,
however the blocks of other transfers mix with its own. -/
theorem Stored.run {blockDataHead blockDataHead' : List BlockData} {events : List BlockListEvent}
    (htyped : WellTyped blockDataHead) (hstored : Stored blockDataHead uri num)
    (hspares : ∀ event ∈ events, event.Spares uri)
    (h : blockListRun blockDataHead events = .ok blockDataHead') :
    Stored blockDataHead' uri num := by
  induction events generalizing blockDataHead with
  | nil =>
    cases h
    exact hstored
  | cons event rest ih =>
    obtain ⟨middle, hstep, hrest⟩ := bind_eq_ok_iff.mp h
    obtain ⟨hevent, hspares⟩ := List.forall_mem_cons.mp hspares
    exact ih (htyped.step hstep) (hstored.step htyped hevent hstep) hspares hrest

/-- The block that completes its transfer in order is the one stored last. -/
theorem stored_of_completed (htyped : WellTyped blockDataHead)
    (hfound : findBlockData blockDataHead (.uri (some uri)) .block1 = .ok (some f))
    (hnext : b.blockNum = f.here.blockNum + 1) (hzero : b.blockNum ≠ 0)
    (h : coapBlock1Handler blockDataHead uri b = .ok (blockDataHead', noError, output)) :
    Stored blockDataHead' uri b.blockNum := by
  have hfirst := (findBlockData_eq_ok htyped (.block1 uri) hfound).symm
  unfold coapBlock1Handler prvCoapBlockHandler at h
  rw [hfound, ok_bind, if_neg hzero] at h
  dsimp only at h
  by_cases hle : b.blockNum ≤ f.here.blockNum
  · rw [if_pos hle] at h
    cases h
  · rw [if_neg hle, if_pos hnext] at h
    split_ifs at h
    · cases h
    · obtain rfl := congrArg Prod.fst (Except.ok.inj h)
      exact Stored.set hfirst (UInt32.le_refl _)

/-- Of a stored transfer, the block is refused as repeated, unless the lookup reads the
entry of another kind of transfer. -/
theorem Stored.refused_iff (htyped : WellTyped blockDataHead)
    (hstored : Stored blockDataHead uri b.blockNum) (hzero : b.blockNum ≠ 0) {code : Code} :
    BlockRefused blockDataHead uri b code ↔
      Unobstructed blockDataHead (.uri (some uri)) .block1 ∧ code = coapRetransmission := by
  obtain ⟨f, hf, hnum⟩ := hstored.focus
  constructor
  · intro h
    have hfound {found : Option (Focus BlockData)}
        (hfound : findBlockData blockDataHead (.uri (some uri)) .block1 = .ok found) :
        Unobstructed blockDataHead (.uri (some uri)) .block1 ∧ found = some f := by
      have hfirst := findBlockData_eq_ok htyped (.block1 uri) hfound
      refine ⟨?_, hfirst.trans hf⟩
      by_contra hobstructed
      rw [findBlockData_of_obstructed htyped (.block1 uri) hobstructed] at hfound
      cases hfound
    cases h with
    | lost _ h => exact absurd (hfound h).2 nofun
    | repeated g _ h _ => exact ⟨(hfound h).1, rfl⟩
    | misplaced g h hgt =>
      cases (hfound h).2
      exact absurd hnum hgt
  · rintro ⟨hfree, rfl⟩
    refine .repeated f hzero ?_ hnum
    rw [findBlockData_of_unobstructed htyped (.block1 uri) hfree, hf]

end Lwm2m.Coap

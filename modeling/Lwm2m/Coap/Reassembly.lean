/-
# What the block handler assembles

The claim of `coap/block.c` is that a completed transfer hands out the payloads
of the blocks 0, 1, …, n in order.  The block list of one transfer is followed
along every sequence of arrivals: it stays a selection of the blocks received
since the most recent block 0 (`Tracks`), whether the blocks come in order,
twice or with gaps.  The answer is right for every arrival except a block that
skips ahead (`coap_block_handler_faithful_iff`): such a block falls through the
two branches that would have refused or stored it.
-/

import Lwm2m.Coap.Block

namespace Lwm2m.Coap

open Code Library

/-! ### What the answer to a block has to be -/

/-- `buffer` is the concatenation, in order, of the payloads of blocks `0, 1, …, n`
among the arrivals since the most recent block 0, where `b` is block `n` and came
without the more flag. -/
def Assembled (history : List BlockArrival) (b : BlockArrival) (buffer : List Byte) : Prop :=
  ∃ acc, Collected BlockArrival.num history acc ∧ acc.getLast? = some b ∧ b.blockMore = false ∧
    buffer = acc.flatMap BlockArrival.buffer

/-- The number of the block is greater than the last accepted number plus one. -/
def SkipsAhead (blockDataHead : List BlockData) (b : BlockArrival) : Prop :=
  ∃ blockData ∈ blockDataHead, blockData.blockNum.toNat + 1 < b.num

instance (blockDataHead : List BlockData) (b : BlockArrival) :
    Decidable (SkipsAhead blockDataHead b) :=
  inferInstanceAs (Decidable (∃ blockData ∈ blockDataHead, _))

/-- The answer to the block `b` that arrives after `history` in a transfer whose
list is `blockDataHead`: a completion hands out the assembled payload, and a block
that skips ahead is neither accepted nor completes the transfer. -/
structure FaithfulAnswer (history : List BlockArrival) (blockDataHead : List BlockData)
    (b : BlockArrival) (answer : Code × BlockOutput) : Prop where
  assembled : answer.1 = noError →
    ∃ buffer, answer.2 = .complete buffer ∧ Assembled (history ++ [b]) b buffer
  refused : SkipsAhead blockDataHead b → answer.1 ≠ coap231Continue ∧ answer.1 ≠ noError

/-! ### The list of one transfer -/

/-- The identifiers that the two entry points pass with their block type. -/
inductive IsKey : BlockType → BlockDataIdentifier → Prop
  | block1 (uri : CString) : IsKey .block1 (.uri (some uri))
  | block2 (mid : UInt16) : IsKey .block2 (.mid mid)

/-- The list holds at most the entry of the transfer, and the entry holds the
payloads of a selection of the arrivals. -/
inductive Tracks (blockType : BlockType) (identifier : BlockDataIdentifier)
    (history : List BlockArrival) : List BlockData → Prop
  | empty : Tracks blockType identifier history []
  | entry (blockNum : UInt32) (acc : List BlockArrival)
      (collected : Collected BlockArrival.num history acc)
      (number : acc.length = blockNum.toNat + 1) :
      Tracks blockType identifier history
        [⟨blockType, identifier, acc.flatMap BlockArrival.buffer, blockNum⟩]

variable {blockType : BlockType} {identifier : BlockDataIdentifier}
  {history : List BlockArrival} {blockDataHead : List BlockData} {b : BlockArrival}

/-- The matcher of a block type accepts an entry with the same identifier. -/
theorem prvGetMatcher_self (hkey : IsKey blockType identifier) (buffer : List Byte)
    (blockNum : UInt32) :
    prvGetMatcher blockType identifier ⟨blockType, identifier, buffer, blockNum⟩ = .ok true := by
  cases hkey with
  | block1 uri =>
    simp [prvGetMatcher, prvMatchBlock1, BlockDataIdentifier.readUri, bind, Except.bind, pure,
      Except.pure]
  | block2 mid =>
    simp [prvGetMatcher, prvMatchBlock2, BlockDataIdentifier.readMid, bind, Except.bind, pure,
      Except.pure]

/-- The lookup finds the entry of the transfer. -/
theorem findBlockData_self (hkey : IsKey blockType identifier) (buffer : List Byte)
    (blockNum : UInt32) :
    findBlockData [⟨blockType, identifier, buffer, blockNum⟩] identifier blockType =
      .ok (some ⟨[], ⟨blockType, identifier, buffer, blockNum⟩, []⟩) := by
  rw [findBlockData, prvGetMatcher_self hkey]
  rfl

theorem num_eq_zero_iff : b.num = 0 ↔ b.blockNum = 0 := by
  rw [BlockArrival.num, ← UInt32.toNat_inj, UInt32.toNat_zero]

/-- A block that is not numbered 0 leaves the tracked list tracked. -/
theorem Tracks.ignore (h : Tracks blockType identifier history blockDataHead)
    (hb : b.blockNum ≠ 0) : Tracks blockType identifier (history ++ [b]) blockDataHead := by
  cases h with
  | empty => exact .empty
  | entry blockNum acc collected number =>
    exact .entry blockNum acc (collected.ignore (mt num_eq_zero_iff.mp hb)) number

/-- A block numbered 0 starts a tracked list of its own. -/
theorem tracks_restart (hb : b.blockNum = 0) :
    Tracks blockType identifier (history ++ [b]) [⟨blockType, identifier, b.buffer, b.blockNum⟩] := by
  have hcollected : Collected BlockArrival.num (history ++ [b]) [b] :=
    Collected.restart (num_eq_zero_iff.mpr hb)
  have htracks : Tracks blockType identifier (history ++ [b]) _ :=
    .entry b.blockNum [b] hcollected (by simp [hb])
  simpa using htracks

/-- Changing the expected message-id changes the key of the tracked list. -/
theorem Tracks.rekey {mid : UInt16} (h : Tracks .block2 (.mid mid) history blockDataHead)
    (nextMID : UInt16) : ∃ head', coapBlock2SetExpectedMid blockDataHead mid nextMID = .ok head' ∧
      Tracks .block2 (.mid nextMID) history head' := by
  cases h with
  | empty => exact ⟨[], rfl, .empty⟩
  | entry blockNum acc collected number =>
    refine ⟨_, ?_, .entry blockNum acc collected number⟩
    rw [coapBlock2SetExpectedMid, findBlockData_self (.block2 mid)]
    rfl

/-- The answer with the entry of the transfer is a completion exactly without the
more flag. -/
theorem prvBlockAnswer_faithful {blockData : BlockData}
    (hnext : ¬ SkipsAhead blockDataHead b)
    (hbuffer : b.blockMore = false → Assembled (history ++ [b]) b blockData.blockBuffer) :
    FaithfulAnswer history blockDataHead b (prvBlockAnswer blockData b.blockMore) := by
  refine ⟨fun hcode => ?_, fun hskip => absurd hskip hnext⟩
  unfold prvBlockAnswer at hcode ⊢
  cases hmore : b.blockMore with
  | true => simp [hmore, coap231Continue, noError] at hcode
  | false => exact ⟨blockData.blockBuffer, rfl, hbuffer hmore⟩

/-- An error answer hands nothing out. -/
theorem error_faithful {code : Code} (output : BlockOutput) (h₁ : code ≠ noError)
    (h₂ : code ≠ coap231Continue) : FaithfulAnswer history blockDataHead b (code, output) :=
  ⟨fun hcode => absurd hcode h₁, fun _ => ⟨h₂, h₁⟩⟩

/-- Accepting a block that skips ahead is not faithful. -/
theorem prvBlockAnswer_not_faithful (hskip : SkipsAhead blockDataHead b) (blockData : BlockData) :
    ¬ FaithfulAnswer history blockDataHead b (prvBlockAnswer blockData b.blockMore) := by
  intro h
  have ⟨h₁, h₂⟩ := h.refused hskip
  cases hmore : b.blockMore with
  | true => exact h₁ (by rw [hmore]; rfl)
  | false => exact h₂ (by rw [hmore]; rfl)

/-- A successor that does not exceed a 32 bit number does not wrap. -/
theorem toNat_succ_of_lt {m n : UInt32} (h : m.toNat < n.toNat) :
    (m + 1).toNat = m.toNat + 1 := by
  have := n.toNat_lt
  rw [UInt32.toNat_add, UInt32.toNat_one]
  omega

/-- What the handler is shown to do with one arrival: it does not fault, keeps the
list tracked, and answers faithfully exactly when the block does not skip ahead. -/
def HandlesFaithfully (blockType : BlockType) (identifier : BlockDataIdentifier)
    (history : List BlockArrival) (blockDataHead : List BlockData) (b : BlockArrival) : Prop :=
  ∃ head' answer, prvCoapBlockHandler blockDataHead identifier blockType b = .ok (head', answer) ∧
    Tracks blockType identifier (history ++ [b]) head' ∧
    (FaithfulAnswer history blockDataHead b answer ↔ ¬ SkipsAhead blockDataHead b)

/-- A block 0 starts the transfer over. -/
theorem handles_block_zero (hkey : IsKey blockType identifier)
    (h : Tracks blockType identifier history blockDataHead) (hb : b.blockNum = 0) :
    HandlesFaithfully blockType identifier history blockDataHead b := by
  have hnum : b.num = 0 := num_eq_zero_iff.mpr hb
  have hskip : ¬ SkipsAhead blockDataHead b := by
    rintro ⟨blockData, _, hlt⟩
    omega
  have hassembled : b.blockMore = false → Assembled (history ++ [b]) b b.buffer :=
    fun hmore => ⟨[b], .restart hnum, rfl, hmore, by simp⟩
  cases h with
  | empty =>
    exact ⟨_, _, by simp only [prvCoapBlockHandler, findBlockData, if_pos hb]; rfl,
      tracks_restart hb, iff_of_true (prvBlockAnswer_faithful hskip hassembled) hskip⟩
  | entry blockNum acc collected number =>
    exact ⟨_, _, by simp only [prvCoapBlockHandler, findBlockData_self hkey, if_pos hb]; rfl,
      tracks_restart hb, iff_of_true (prvBlockAnswer_faithful hskip hassembled) hskip⟩

/-- A later block meets the entry of its transfer: it is a retransmission, the next
block, or a block that skips ahead. -/
theorem handles_later_block (hkey : IsKey blockType identifier) {blockNum : UInt32}
    {acc : List BlockArrival} (collected : Collected BlockArrival.num history acc)
    (number : acc.length = blockNum.toNat + 1) (hb : b.blockNum ≠ 0) :
    HandlesFaithfully blockType identifier history
      [⟨blockType, identifier, acc.flatMap BlockArrival.buffer, blockNum⟩] b := by
  have htracks : Tracks blockType identifier history _ := .entry blockNum acc collected number
  have hskip : SkipsAhead [⟨blockType, identifier, acc.flatMap BlockArrival.buffer, blockNum⟩] b ↔
      blockNum.toNat + 1 < b.num := by
    simp [SkipsAhead]
  simp only [HandlesFaithfully, prvCoapBlockHandler, findBlockData_self hkey, if_neg hb]
  by_cases hle : b.blockNum ≤ blockNum
  · -- a retransmission
    have : b.num ≤ blockNum.toNat := UInt32.le_iff_toNat_le.mp hle
    exact ⟨_, _, by simp only [bind, Except.bind, if_pos hle]; rfl, htracks.ignore hb,
      iff_of_true (error_faithful _ (by decide) (by decide)) (by rw [hskip]; omega)⟩
  have hlt : blockNum.toNat < b.blockNum.toNat := UInt32.lt_iff_toNat_lt.mp (UInt32.not_le.mp hle)
  have hsucc := toNat_succ_of_lt hlt
  by_cases heq : b.blockNum = blockNum + 1
  · have hnum : b.num = blockNum.toNat + 1 := by rw [BlockArrival.num, heq, hsucc]
    have hnot := mt hskip.mp (by omega)
    by_cases hsize : (acc.flatMap BlockArrival.buffer).length ≠
        (b.blockSize.toUInt32 * b.blockNum).toNat
    · -- the next block, of an unexpected size
      exact ⟨_, _, by simp only [bind, Except.bind, if_neg hle, if_pos heq, if_pos hsize]; rfl,
        htracks.ignore hb, iff_of_true (error_faithful _ (by decide) (by decide)) hnot⟩
    · -- the next block
      have hcollected : Collected BlockArrival.num (history ++ [b]) (acc ++ [b]) :=
        collected.extend (by rintro rfl; simp at number) (by omega)
      have hassembled : b.blockMore = false → Assembled (history ++ [b]) b
          (acc.flatMap BlockArrival.buffer ++ b.buffer) :=
        fun hmore => ⟨acc ++ [b], hcollected, by simp, hmore, by simp⟩
      refine ⟨_, _, by simp only [bind, Except.bind, if_neg hle, if_pos heq, if_neg hsize]; rfl, ?_,
        iff_of_true (prvBlockAnswer_faithful hnot hassembled) hnot⟩
      have hnext : Tracks blockType identifier (history ++ [b]) _ := .entry b.blockNum (acc ++ [b])
        hcollected (by rw [List.length_append, number, heq, hsucc]; rfl)
      simpa [Focus.set] using hnext
  · -- the block skips ahead and falls through both branches
    have hne : b.blockNum.toNat ≠ blockNum.toNat + 1 := by
      rw [← hsucc]
      exact fun h => heq (UInt32.toNat_inj.mp h)
    have hskips := hskip.mpr (by rw [BlockArrival.num]; omega)
    exact ⟨_, _, by simp only [bind, Except.bind, if_neg hle, if_neg heq]; rfl, htracks.ignore hb,
      iff_of_false (prvBlockAnswer_not_faithful hskips _) (not_not_intro hskips)⟩

/-- **One arrival.**  On a tracked list the handler does not fault, keeps the list
tracked, and answers faithfully exactly when the block does not skip ahead. -/
theorem prvCoapBlockHandler_spec (hkey : IsKey blockType identifier)
    (h : Tracks blockType identifier history blockDataHead) (b : BlockArrival) :
    HandlesFaithfully blockType identifier history blockDataHead b := by
  by_cases hb : b.blockNum = 0
  · exact handles_block_zero hkey h hb
  cases h with
  | empty =>
    refine ⟨_, _, by simp only [prvCoapBlockHandler, findBlockData, if_neg hb]; rfl, .empty,
      iff_of_true (error_faithful _ (by decide) (by decide)) ?_⟩
    rintro ⟨blockData, hmem, _⟩
    exact absurd hmem List.not_mem_nil
  | entry blockNum acc collected number => exact handles_later_block hkey collected number hb

/-! ### Runs -/

/-- After any blocks of one URI the list is tracked. -/
theorem block1Run_tracks (uri : CString) (arrivals : List BlockArrival) :
    ∃ head, block1Run uri arrivals = .ok head ∧
      Tracks .block1 (.uri (some uri)) arrivals head := by
  refine invariant_of_history .empty (fun history head b h => ?_) arrivals
  obtain ⟨head', answer, hok, htracks, _⟩ := prvCoapBlockHandler_spec (.block1 uri) h b
  exact ⟨head', by rw [coapBlock1Handler, hok]; rfl, htracks⟩

/-- After any events of one Block2 transfer the list is tracked, under the message-id
of its last request. -/
theorem block2Run_tracks (mid : UInt16) (events : List Block2Event) :
    ∃ s, block2Run mid events = .ok s ∧
      Tracks .block2 (.mid s.2) (Block2Event.arrivals events) s.1 := by
  refine invariant_of_history (I := fun events (s : List BlockData × UInt16) =>
    Tracks .block2 (.mid s.2) (Block2Event.arrivals events) s.1) .empty (fun history s e h => ?_) events
  cases e with
  | arrival b =>
    obtain ⟨head', answer, hok, htracks, _⟩ := prvCoapBlockHandler_spec (.block2 s.2) h b
    refine ⟨(head', s.2), by rw [block2Step, coapBlock2Handler, hok]; rfl, ?_⟩
    simpa [Block2Event.arrivals] using htracks
  | expect nextMID =>
    obtain ⟨head', hok, htracks⟩ := h.rekey nextMID
    refine ⟨(head', nextMID), by rw [block2Step, hok]; rfl, ?_⟩
    simpa [Block2Event.arrivals] using htracks

/-- **Reassembly is faithful exactly while no block skips ahead.**  For every sequence
of blocks of one URI, or of events of one Block2 transfer, from an empty list, and
every block that arrives next: no step faults, and the answer to the block is
faithful if and only if its number is at most the last accepted number plus one. -/
theorem coap_block_handler_faithful_iff (uri : CString) (history : List BlockArrival)
    (mid : UInt16) (events : List Block2Event) (b : BlockArrival) :
    (∃ head head' answer, block1Run uri history = .ok head ∧
      coapBlock1Handler head uri b = .ok (head', answer) ∧
      (FaithfulAnswer history head b answer ↔ ¬ SkipsAhead head b)) ∧
    (∃ head currentMid head' answer, block2Run mid events = .ok (head, currentMid) ∧
      coapBlock2Handler head currentMid b = .ok (head', answer) ∧
      (FaithfulAnswer (Block2Event.arrivals events) head b answer ↔ ¬ SkipsAhead head b)) := by
  constructor
  · obtain ⟨head, hrun, htracks⟩ := block1Run_tracks uri history
    obtain ⟨head', answer, hok, _, hiff⟩ := prvCoapBlockHandler_spec (.block1 uri) htracks b
    exact ⟨head, head', answer, hrun, hok, hiff⟩
  · obtain ⟨⟨head, currentMid⟩, hrun, htracks⟩ := block2Run_tracks mid events
    obtain ⟨head', answer, hok, _, hiff⟩ :=
      prvCoapBlockHandler_spec (.block2 currentMid) htracks b
    exact ⟨head, currentMid, head', answer, hrun, hok, hiff⟩

/-- **A gap is answered as a completion.**  Block 0 of `/1/2` announces more; block 2
arrives without the more flag, block 1 never does: the answer is `NO_ERROR` with the
payload of block 0 alone. -/
theorem coap_block_handler_gap :
    let uri : CString := [47, 49, 47, 50]
    let b₀ : BlockArrival := ⟨List.replicate 16 0x61, 16, 0, true⟩
    let b₂ : BlockArrival := ⟨[0x7A], 16, 2, false⟩
    ∃ head answer, block1Run uri [b₀] = .ok head ∧
      coapBlock1Handler head uri b₂ = .ok (head, answer) ∧
      answer = (noError, .complete (List.replicate 16 0x61)) ∧
      ¬ FaithfulAnswer [b₀] head b₂ answer := by
  refine ⟨_, _, rfl, rfl, rfl, fun h => ?_⟩
  exact absurd rfl (h.refused (by decide)).2

end Lwm2m.Coap

/-
# The block list when allocations fail

`prv_coap_block_handler` allocates an entry, a copy of its URI and a buffer for each block that it
keeps, and any of them may fail.  Here an entry is what `lwm2m_malloc` and the handler leave in it:
its pointer, size and number are not initialised before the first buffer is kept, and a buffer is a
cell of a memory, so that freeing one twice or reading it behind that is a fault.

A call leaves a list that represents its buffers exactly where its allocations fail harmlessly
(`survives_iff`), and so does a whole run (`blockList_survives_iff`).
-/

import Lwm2m.Coap.BlockLookup
import Lwm2m.Library.SharedOwnership

namespace Lwm2m.Coap

open Code Library Library.Memory

/-! ### The list and its buffers -/

/-- What goes wrong in a call: a fault, or a field that is read before it is written. -/
inductive BlockFault
  | fault (fault : Fault)
  | uninitialised
  deriving DecidableEq, Repr

/-- The fields of `lwm2m_block_data_t` that `prv_block_insert` does not write. -/
structure EntryFields where
  blockBuffer : Option ℕ
  blockBufferSize : ℕ
  blockNum : UInt32
  deriving DecidableEq, Repr

/-- `lwm2m_block_data_t`; without fields it is as `lwm2m_malloc` returns it. -/
structure BlockEntry where
  blockType : BlockType
  identifier : BlockDataIdentifier
  fields : Option EntryFields := none
  deriving DecidableEq, Repr

/-- The block list of a peer, and the memory of its buffers. -/
structure BlockMemory where
  memory : Memory (List Byte) := .empty
  entries : List BlockEntry := []

/-- The allocations of a call that succeed: of an entry, of the copy of its URI, and of a buffer. -/
structure BlockAllocations where
  entry : Bool := true
  uri : Bool := true
  buffer : Bool := true
  deriving DecidableEq, Repr

/-- What the handler leaves in `*outputBuffer` and `*outputLength`. -/
inductive MemoryOutput
  | untouched
  | incomplete
  | complete (outputBuffer : Option ℕ) (outputLength : ℕ)
  deriving DecidableEq, Repr

/-- What the matchers read of an entry. -/
def BlockEntry.view (blockData : BlockEntry) : BlockData :=
  ⟨blockData.blockType, blockData.identifier, [], 0⟩

/-- `find_block_data`. -/
def findBlockEntry (identifier : BlockDataIdentifier) (blockType : BlockType) :
    List BlockEntry → Except Fault (Option (Focus BlockEntry))
  | [] => return none
  | blockData :: next => do
    if ← prvGetMatcher blockType identifier blockData.view then
      return some ⟨[], blockData, next⟩
    match ← findBlockEntry identifier blockType next with
    | none => return none
    | some f => return some (f.push blockData)

/-- A call of the lookup. -/
def lookup (identifier : BlockDataIdentifier) (blockType : BlockType) (entries : List BlockEntry) :
    Except BlockFault (Option (Focus BlockEntry)) :=
  (findBlockEntry identifier blockType entries).mapError .fault

/-- Reading the fields of an entry. -/
def BlockEntry.read (blockData : BlockEntry) : Except BlockFault EntryFields :=
  match blockData.fields with
  | none => .error .uninitialised
  | some fields => .ok fields

/-- `lwm2m_free` of a buffer. -/
def freeBuffer (m : Memory (List Byte)) : Option ℕ → Except BlockFault (Memory (List Byte))
  | none => .ok m
  | some a => if (m.cells a).isSome then .ok (m.release a) else .error (.fault .useAfterFree)

/-- What `memcpy` reads of a buffer. -/
def readBuffer (m : Memory (List Byte)) (size : ℕ) : Option ℕ → Except BlockFault (List Byte)
  | none => .error (.fault .nullDereference)
  | some a =>
    match m.cells a with
    | none => .error (.fault .useAfterFree)
    | some bytes =>
      if size ≤ bytes.length then .ok (bytes.take size) else .error (.fault .outOfBoundsRead)

/-- The entry that `prv_block_insert` links; the copy of its URI may fail. -/
def insertedEntry (allocations : BlockAllocations) (identifier : BlockDataIdentifier)
    (blockType : BlockType) : BlockEntry where
  blockType
  identifier :=
    match blockType, identifier with
    | .block1, .uri uri => .uri (if allocations.uri then uri else none)
    | _, identifier => identifier

/-- `prv_block_insert`: the list, which points to the entry, unless the entry is not allocated. -/
def prvBlockInsert (allocations : BlockAllocations) (identifier : BlockDataIdentifier)
    (blockType : BlockType) (entries : List BlockEntry) : Option (Focus BlockEntry) :=
  if allocations.entry then some ⟨[], insertedEntry allocations identifier blockType, entries⟩
  else none

/-- `free_block_data`. -/
def freeBlockData (m : Memory (List Byte)) (blockData : BlockEntry) :
    Except BlockFault (Memory (List Byte)) := do
  freeBuffer m (← blockData.read).blockBuffer

namespace BlockMemory

/-- The end of `prv_coap_block_handler`. -/
def answer (s : BlockMemory) (fields : EntryFields) (blockMore : Bool) :
    BlockMemory × Code × MemoryOutput :=
  if blockMore then (s, coap231Continue, .incomplete)
  else (s, noError, .complete fields.blockBuffer fields.blockBufferSize)

/-- A call that leaves the list, with its code. -/
def refuse (s : BlockMemory) (code : Code) : BlockMemory × Code × MemoryOutput :=
  (s, code, .untouched)

/-- The block 0 of `prv_coap_block_handler`: an entry is inserted, or its buffer is freed, and then
a buffer is allocated. -/
def firstBlock (allocations : BlockAllocations) (s : BlockMemory)
    (identifier : BlockDataIdentifier) (blockType : BlockType) (b : BlockArrival) :
    Option (Focus BlockEntry) → Except BlockFault (BlockMemory × Code × MemoryOutput)
  | none =>
    match prvBlockInsert allocations identifier blockType s.entries, allocations.buffer with
    | none, false => .ok (s.refuse coap500InternalServerError)
    | none, true => .error (.fault .nullDereference)
    | some f, false => .ok (refuse { s with entries := f.list } coap500InternalServerError)
    | some f, true =>
      let (memory, buf) := s.memory.alloc b.buffer
      let fields := ⟨some buf, b.buffer.length, b.blockNum⟩
      .ok (answer ⟨memory, f.set { f.here with fields := some fields }⟩ fields b.blockMore)
  | some f => do
    let fields ← f.here.read
    let memory ← freeBuffer s.memory fields.blockBuffer
    if allocations.buffer then
      let (memory, buf) := memory.alloc b.buffer
      let fields := ⟨some buf, b.buffer.length, b.blockNum⟩
      return answer ⟨memory, f.set { f.here with fields := some fields }⟩ fields b.blockMore
    else
      let fields := ⟨none, 0, fields.blockNum⟩
      return refuse ⟨memory, f.set { f.here with fields := some fields }⟩
        coap500InternalServerError

/-- A later block of `prv_coap_block_handler`. -/
def laterBlock (allocations : BlockAllocations) (s : BlockMemory) (b : BlockArrival) :
    Option (Focus BlockEntry) → Except BlockFault (BlockMemory × Code × MemoryOutput)
  | none => .ok (s.refuse coap408ReqEntityIncomplete)
  | some f => do
    let fields ← f.here.read
    if b.blockNum ≤ fields.blockNum then return s.refuse coapRetransmission
    else if b.blockNum = fields.blockNum + 1 then
      if fields.blockBufferSize ≠ (b.blockSize.toUInt32 * b.blockNum).toNat then
        return s.refuse coap408ReqEntityIncomplete
      else
        let size := fields.blockBufferSize + b.buffer.length
        if allocations.buffer then
          let old ← readBuffer s.memory fields.blockBufferSize fields.blockBuffer
          let (memory, buf) := s.memory.alloc (old ++ b.buffer)
          let memory ← freeBuffer memory fields.blockBuffer
          let fields := ⟨some buf, size, b.blockNum⟩
          return answer ⟨memory, f.set { f.here with fields := some fields }⟩ fields b.blockMore
        else
          -- the size is written and the pointer is overwritten before the allocation is tested
          let fields := ⟨none, size, fields.blockNum⟩
          return refuse { s with entries := f.set { f.here with fields := some fields } }
            coap500InternalServerError
    else
      -- the number is ahead of the expected one: nothing is stored
      return s.answer fields b.blockMore

/-- `prv_coap_block_handler`. -/
def prvCoapBlockHandler (allocations : BlockAllocations) (s : BlockMemory)
    (identifier : BlockDataIdentifier) (blockType : BlockType) (b : BlockArrival) :
    Except BlockFault (BlockMemory × Code × MemoryOutput) := do
  let found ← lookup identifier blockType s.entries
  if b.blockNum = 0 then s.firstBlock allocations identifier blockType b found
  else s.laterBlock allocations b found

/-- `prv_block_data_delete`. -/
def prvBlockDataDelete (s : BlockMemory) (identifier : BlockDataIdentifier)
    (blockType : BlockType) : Except BlockFault BlockMemory := do
  match ← lookup identifier blockType s.entries with
  | none => return s
  | some removed =>
    let memory ← freeBlockData s.memory removed.here
    return ⟨memory, removed.unlink⟩

/-- `coap_block2_set_expected_mid`. -/
def coapBlock2SetExpectedMid (s : BlockMemory) (currentMid expectedMid : UInt16) :
    Except BlockFault BlockMemory := do
  match ← lookup (.mid currentMid) .block2 s.entries with
  | none => return s
  | some f => return { s with entries := f.set { f.here with identifier := .mid expectedMid } }

end BlockMemory

/-! ### Runs -/

/-- A call on the block list, and which of its allocations succeed. -/
structure BlockCall where
  event : BlockListEvent
  allocations : BlockAllocations := {}
  deriving DecidableEq

/-- The identifier and the block type that a call looks up. -/
def BlockListEvent.key : BlockListEvent → BlockDataIdentifier × BlockType
  | .block1 uri _ => (.uri (some uri), .block1)
  | .block2 mid _ => (.mid mid, .block2)
  | .expect currentMid _ => (.mid currentMid, .block2)
  | .delete1 uri => (.uri (some uri), .block1)
  | .delete2 mid => (.mid mid, .block2)

/-- The block that arrives. -/
def BlockListEvent.arrival : BlockListEvent → Option BlockArrival
  | .block1 _ b => some b
  | .block2 _ b => some b
  | _ => none

namespace BlockMemory

/-- One call: the list, and the code of the handler. -/
def step (s : BlockMemory) (call : BlockCall) : Except BlockFault (BlockMemory × Option Code) :=
  match call.event with
  | .block1 uri b => do
    let (s, code, _) ← s.prvCoapBlockHandler call.allocations (.uri (some uri)) .block1 b
    return (s, some code)
  | .block2 mid b => do
    let (s, code, _) ← s.prvCoapBlockHandler call.allocations (.mid mid) .block2 b
    return (s, some code)
  | .expect currentMid expectedMid => do
    return (← s.coapBlock2SetExpectedMid currentMid expectedMid, none)
  | .delete1 uri => do return (← s.prvBlockDataDelete (.uri (some uri)) .block1, none)
  | .delete2 mid => do return (← s.prvBlockDataDelete (.mid mid) .block2, none)

end BlockMemory

/-- One call as a relation. -/
def BlockMemory.Step (s : BlockMemory) (call : BlockCall) (s' : BlockMemory) : Prop :=
  ∃ code, s.step call = .ok (s', code)

/-- The buffer of an entry. -/
def BlockEntry.buffers (blockData : BlockEntry) : List ℕ :=
  blockData.fields.elim [] (·.blockBuffer.toList)

/-- The fields of an entry represent its buffer: NULL with the size 0, or as many bytes as its size
says. -/
def EntryFields.Represent (m : Memory (List Byte)) (fields : EntryFields) : Prop :=
  match fields.blockBuffer with
  | none => fields.blockBufferSize = 0
  | some a => ∃ bytes, m.cells a = some bytes ∧ bytes.length = fields.blockBufferSize

namespace BlockMemory

/-- **The list represents its buffers**, and the buffers that are allocated are those of the list,
each one once. -/
structure Sound (s : BlockMemory) : Prop where
  entries : ∀ e ∈ s.entries, ∃ fields, e.fields = some fields ∧ fields.Represent s.memory
  buffers : s.memory.Holds (s.entries.flatMap BlockEntry.buffers)

/-- The entries other than the one that was found are left as they were. -/
def KeepsOthers (s s' : BlockMemory) (found : Option (Focus BlockEntry)) : Prop :=
  (match found with
    | none => s'.entries = s.entries
    | some f => ∃ x, s'.entries = f.set x) ∧
  ∀ e ∈ found.elim s.entries Focus.unlink, ∀ a ∈ e.buffers, s'.memory.cells a = s.memory.cells a

/-- **A call survives its allocations**: it reads and frees nothing wrong and leaves a list that
represents its buffers, and when it answers `5.00`, the other entries are left as they were. -/
def Survives (s : BlockMemory) (call : BlockCall) : Prop :=
  ∃ s' code, s.step call = .ok (s', code) ∧ s'.Sound ∧
    (code = some coap500InternalServerError →
      ∀ found, lookup call.event.key.1 call.event.key.2 s.entries = .ok found →
        KeepsOthers s s' found)

/-- The allocations of an arrival fail harmlessly: for a new transfer, that of the entry and that of
the buffer both or none of them, and for a block that is appended none, where there is a buffer to
append to. -/
def FailsHarmlessly (allocations : BlockAllocations) (b : BlockArrival) :
    Option (Focus BlockEntry) → Prop
  | none => b.blockNum = 0 → allocations.entry = allocations.buffer
  | some f => b.blockNum ≠ 0 → ∀ fields, f.here.fields = some fields →
      b.blockNum = fields.blockNum + 1 →
      fields.blockBufferSize = (b.blockSize.toUInt32 * b.blockNum).toNat →
        if allocations.buffer then fields.blockBuffer ≠ none
        else fields.blockBuffer = none ∧ b.buffer = []

/-- The lookup meets no entry of the other block type, and the allocations fail harmlessly. -/
def Spared (s : BlockMemory) (call : BlockCall) : Prop :=
  ∃ found, lookup call.event.key.1 call.event.key.2 s.entries = .ok found ∧
    ∀ b, call.event.arrival = some b → FailsHarmlessly call.allocations b found

end BlockMemory

/-! ### The lookup -/

section

variable {identifier : BlockDataIdentifier} {blockType : BlockType} {entries : List BlockEntry}
  {f : Focus BlockEntry} {m m' : Memory (List Byte)} {rest : List ℕ} {s s' : BlockMemory}

theorem list_of_findBlockEntry (h : findBlockEntry identifier blockType entries = .ok (some f)) :
    f.list = entries := by
  induction entries generalizing f with
  | nil => cases h
  | cons blockData next ih =>
    rw [findBlockEntry] at h
    obtain ⟨matched, -, h⟩ := bind_eq_ok_iff.mp h
    split_ifs at h
    · cases h
      rfl
    · obtain ⟨found, hfound, h⟩ := bind_eq_ok_iff.mp h
      cases found with
      | none => cases h
      | some f' =>
        cases h
        exact congrArg (blockData :: ·) (ih hfound)

theorem list_of_lookup (h : lookup identifier blockType entries = .ok (some f)) :
    f.list = entries := by
  unfold lookup at h
  cases hfind : findBlockEntry identifier blockType entries with
  | error fault =>
    rw [hfind] at h
    cases h
  | ok found =>
    rw [hfind] at h
    cases h
    exact list_of_findBlockEntry hfind

/-! ### The buffers -/

/-- Freeing a buffer that is held. -/
theorem freeBuffer_held {p : Option ℕ} (h : m.Holds (p.toList ++ rest)) :
    ∃ m', freeBuffer m p = .ok m' ∧ m'.Holds rest ∧ ∀ a ∈ rest, m'.cells a = m.cells a := by
  cases p with
  | none => exact ⟨m, rfl, h, fun _ _ => rfl⟩
  | some p =>
    refine ⟨m.release p, if_pos ((h.allocated p).mpr List.mem_cons_self), h.release, fun a ha => ?_⟩
    have hne : a ≠ p := fun heq => (List.nodup_cons.mp h.nodup).1 (heq ▸ ha)
    exact release_cells_of_ne hne

theorem alloc_held (h : m.Holds rest) (x : List Byte) :
    ∀ a ∈ rest, (m.alloc x).1.cells a = m.cells a :=
  fun _ ha => alloc_cells_of_lt (h.lt_frontier ha)

variable {fields : EntryFields}

theorem EntryFields.Represent.congr (h : fields.Represent m)
    (hcells : ∀ a ∈ fields.blockBuffer.toList, m'.cells a = m.cells a) : fields.Represent m' := by
  unfold EntryFields.Represent at h ⊢
  cases hbuffer : fields.blockBuffer with
  | none =>
    rw [hbuffer] at h
    exact h
  | some a =>
    rw [hbuffer] at h hcells
    dsimp only at h ⊢
    rw [hcells a List.mem_cons_self]
    exact h

namespace BlockMemory

theorem Sound.here (h : s.Sound) (hlist : f.list = s.entries) :
    ∃ fields, f.here.fields = some fields ∧ fields.Represent s.memory ∧
      s.memory.Holds (fields.blockBuffer.toList ++ f.unlink.flatMap BlockEntry.buffers) := by
  obtain ⟨fields, hfields, hrepresent⟩ := h.entries f.here (hlist ▸ f.here_mem_list)
  refine ⟨fields, hfields, hrepresent, ?_⟩
  have hperm := Focus.flatMap_set_perm BlockEntry.buffers f f.here
  have hbuffers : f.here.buffers = fields.blockBuffer.toList := by
    rw [BlockEntry.buffers, hfields]
    rfl
  rw [hbuffers] at hperm
  exact (hlist ▸ h.buffers).perm hperm

/-- The entries that are not written represent their buffers as long as these stay. -/
theorem Sound.others (h : s.Sound) (hlist : f.list = s.entries)
    (hcells : ∀ a ∈ f.unlink.flatMap BlockEntry.buffers, m.cells a = s.memory.cells a) :
    ∀ e ∈ f.unlink, ∃ fields, e.fields = some fields ∧ fields.Represent m := by
  intro e he
  obtain ⟨fields, hfields, hrepresent⟩ := h.entries e (hlist ▸ Focus.mem_list.mpr (.inr he))
  refine ⟨fields, hfields, hrepresent.congr fun a ha => hcells a ?_⟩
  refine List.mem_flatMap.mpr ⟨e, he, ?_⟩
  rwa [BlockEntry.buffers, hfields]

/-- **One entry is written**, where the others represent their buffers. -/
theorem sound_set (hothers : ∀ e ∈ f.unlink, ∃ fields, e.fields = some fields ∧ fields.Represent m)
    {x : BlockEntry} (hx : x.fields = some fields) (hrepresent : fields.Represent m)
    (hholds : m.Holds (fields.blockBuffer.toList ++ f.unlink.flatMap BlockEntry.buffers)) :
    Sound ⟨m, f.set x⟩ := by
  have hbuffers : x.buffers = fields.blockBuffer.toList := by
    rw [BlockEntry.buffers, hx]
    rfl
  have hperm := (Focus.flatMap_set_perm BlockEntry.buffers f x).symm
  refine ⟨fun e he => ?_, (hbuffers ▸ hholds).perm hperm⟩
  rcases Focus.mem_set.mp he with rfl | he
  · exact ⟨fields, hx, hrepresent⟩
  · exact hothers e he

/-- A buffer is allocated for an entry that has none. -/
theorem sound_alloc
    (hothers : ∀ e ∈ f.unlink, ∃ fields, e.fields = some fields ∧ fields.Represent m)
    (hholds : m.Holds (f.unlink.flatMap BlockEntry.buffers)) (bytes : List Byte)
    {x : BlockEntry} {num : UInt32} (hx : x.fields = some ⟨some m.frontier, bytes.length, num⟩) :
    Sound ⟨(m.alloc bytes).1, f.set x⟩ := by
  refine sound_set (fun e he => ?_) hx ⟨bytes, alloc_cells_self, rfl⟩ (hholds.alloc bytes)
  obtain ⟨fields, hfields, hrepresent⟩ := hothers e he
  refine ⟨fields, hfields, hrepresent.congr fun a ha => alloc_held hholds bytes a ?_⟩
  refine List.mem_flatMap.mpr ⟨e, he, ?_⟩
  rwa [BlockEntry.buffers, hfields]

/-- What a call of the handler should leave. -/
def Leaves (s : BlockMemory) (found : Option (Focus BlockEntry))
    (result : Except BlockFault (BlockMemory × Code × MemoryOutput)) : Prop :=
  ∃ s' code output, result = .ok (s', code, output) ∧ s'.Sound ∧
    (code = coap500InternalServerError → KeepsOthers s s' found)

variable {found : Option (Focus BlockEntry)}

theorem leaves_answer {blockMore : Bool} :
    Leaves s found (.ok (s'.answer fields blockMore)) ↔ s'.Sound := by
  cases blockMore with
  | true | false =>
    refine ⟨fun ⟨_, _, _, h, hsound, _⟩ => ?_, fun h => ⟨_, _, _, rfl, h, fun hcode => ?_⟩⟩
    · cases h
      exact hsound
    · exact absurd hcode (by decide)

theorem leaves_refuse {code : Code} : Leaves s found (.ok (s'.refuse code)) ↔
    s'.Sound ∧ (code = coap500InternalServerError → KeepsOthers s s' found) := by
  constructor
  · rintro ⟨_, _, _, h, hsound, hothers⟩
    cases h
    exact ⟨hsound, hothers⟩
  · exact fun ⟨hsound, hothers⟩ => ⟨_, _, _, rfl, hsound, hothers⟩

theorem not_leaves_error {fault : BlockFault} : ¬ Leaves s found (.error fault) := by
  rintro ⟨_, _, _, h, -⟩
  cases h

theorem keepsOthers_self : KeepsOthers s s none := ⟨rfl, fun _ _ _ _ => rfl⟩

variable {allocations : BlockAllocations} {b : BlockArrival}

/-- **The block 0** of a new transfer. -/
theorem firstBlock_none_iff (h : s.Sound) :
    Leaves s none (s.firstBlock allocations identifier blockType b none) ↔
      allocations.entry = allocations.buffer := by
  unfold firstBlock prvBlockInsert
  cases hentry : allocations.entry with
  | false =>
    cases hbuffer : allocations.buffer with
    | false => exact iff_of_true (leaves_refuse.mpr ⟨h, fun _ => keepsOthers_self⟩) rfl
    | true => exact iff_of_false not_leaves_error Bool.false_ne_true
  | true =>
    cases hbuffer : allocations.buffer with
    | false =>
      refine iff_of_false (fun hleaves => ?_) (Ne.symm Bool.false_ne_true)
      obtain ⟨fields, hfields, -⟩ := (leaves_refuse.mp hleaves).1.entries _ List.mem_cons_self
      cases hfields
    | true =>
      let f : Focus BlockEntry := ⟨[], insertedEntry allocations identifier blockType, s.entries⟩
      have hsound := sound_alloc (f := f) (m := s.memory) h.entries h.buffers b.buffer
        (x := { f.here with fields := some ⟨some s.memory.frontier, b.buffer.length, b.blockNum⟩ })
        rfl
      exact iff_of_true (leaves_answer.mpr hsound) rfl

/-- **The block 0** of a transfer that is started again. -/
theorem firstBlock_some (h : s.Sound) (hlist : f.list = s.entries) :
    Leaves s (some f) (s.firstBlock allocations identifier blockType b (some f)) := by
  obtain ⟨fields, hfields, -, hholds⟩ := h.here hlist
  obtain ⟨m', hfree, hholds', hcells⟩ := freeBuffer_held hholds
  have hothers := h.others hlist hcells
  rw [firstBlock, BlockEntry.read, hfields]
  rw [ok_bind, hfree, ok_bind]
  cases hbuffer : allocations.buffer with
  | true => exact leaves_answer.mpr (sound_alloc hothers hholds' b.buffer rfl)
  | false =>
    refine leaves_refuse.mpr ⟨sound_set hothers rfl rfl hholds', fun _ => ⟨⟨_, rfl⟩, ?_⟩⟩
    exact fun e he a ha => hcells a (List.mem_flatMap.mpr ⟨e, he, ha⟩)

/-- The number after the stored one is ahead of it, unless it starts again at zero. -/
theorem not_le_of_eq_add_one {n k : UInt32} (h : n = k + 1) (hn : n ≠ 0) : ¬ n ≤ k := by
  rw [UInt32.le_iff_toNat_le]
  have hsucc : n.toNat = (k.toNat + 1) % 2 ^ 32 := by rw [h, UInt32.toNat_add]; rfl
  have hzero : n.toNat ≠ 0 := fun hzero => hn (UInt32.toNat_inj.mp hzero)
  have hlt := k.toNat_lt
  omega

/-- A buffer that is appended to. -/
theorem append_leaves (h : s.Sound) (hlist : f.list = s.entries) {a : ℕ}
    (hrepresent : fields.Represent s.memory) (hbuffer : fields.blockBuffer = some a)
    (hholds : s.memory.Holds (a :: f.unlink.flatMap BlockEntry.buffers)) (bytes : List Byte)
    (num : UInt32) :
    ∃ old m', readBuffer s.memory fields.blockBufferSize fields.blockBuffer = .ok old ∧
      freeBuffer (s.memory.alloc (old ++ bytes)).1 fields.blockBuffer = .ok m' ∧
      Sound ⟨m', f.set { f.here with
        fields := some ⟨some s.memory.frontier, fields.blockBufferSize + bytes.length, num⟩ }⟩ := by
  unfold EntryFields.Represent at hrepresent
  rw [hbuffer] at hrepresent ⊢
  obtain ⟨old, hcell, hlength⟩ := hrepresent
  have hread : readBuffer s.memory fields.blockBufferSize (some a) = .ok old := by
    rw [readBuffer, hcell]
    dsimp only
    rw [if_pos hlength.ge, ← hlength, List.take_length]
  have halloc := hholds.alloc (old ++ bytes)
  have hswap := halloc.perm (List.Perm.swap a s.memory.frontier _)
  obtain ⟨m', hfree, hholds', hcells⟩ := freeBuffer_held (p := some a) hswap
  refine ⟨old, m', hread, hfree, sound_set (h.others hlist fun c hc => ?_) rfl ?_ hholds'⟩
  · rw [hcells c (List.mem_cons_of_mem _ hc), alloc_held hholds _ c (List.mem_cons_of_mem _ hc)]
  · refine ⟨old ++ bytes, ?_, by rw [List.length_append, hlength]⟩
    rw [hcells _ List.mem_cons_self, alloc_cells_self]

/-- The buffer of an entry is lost when its pointer is overwritten: only an empty one may be. -/
theorem overwrite_sound_iff (h : s.Sound) (hlist : f.list = s.entries)
    (hrepresent : fields.Represent s.memory)
    (hholds : s.memory.Holds (fields.blockBuffer.toList ++ f.unlink.flatMap BlockEntry.buffers))
    (bytes : List Byte) (num : UInt32) :
    Sound { s with entries := f.set { f.here with
      fields := some ⟨none, fields.blockBufferSize + bytes.length, num⟩ } } ↔
      fields.blockBuffer = none ∧ bytes = [] := by
  constructor
  · intro hsound
    obtain ⟨fields', hfields', hzero⟩ := hsound.entries _ (Focus.mem_set.mpr (.inl rfl))
    cases hfields'
    have hlost := hsound.buffers.perm (Focus.flatMap_set_perm BlockEntry.buffers f _)
    refine ⟨?_, List.eq_nil_of_length_eq_zero (Nat.add_eq_zero_iff.mp hzero).2⟩
    cases hbuffer : fields.blockBuffer with
    | none => rfl
    | some a =>
      rw [hbuffer] at hholds
      exact absurd ((hholds.mem_iff hlost).mp List.mem_cons_self)
        (List.nodup_cons.mp hholds.nodup).1
  · rintro ⟨hbuffer, rfl⟩
    unfold EntryFields.Represent at hrepresent
    rw [hbuffer] at hrepresent hholds
    exact sound_set (h.others hlist fun _ _ => rfl) rfl hrepresent hholds

/-- **A later block** of a transfer. -/
theorem laterBlock_some_iff (h : s.Sound) (hlist : f.list = s.entries) (hnum : b.blockNum ≠ 0) :
    Leaves s (some f) (s.laterBlock allocations b (some f)) ↔
      FailsHarmlessly allocations b (some f) := by
  obtain ⟨fields, hfields, hrepresent, hholds⟩ := h.here hlist
  rw [laterBlock, BlockEntry.read, FailsHarmlessly, hfields]
  dsimp only
  rw [ok_bind, imp_iff_right hnum]
  by_cases hold : b.blockNum ≤ fields.blockNum
  · rw [if_pos hold]
    refine iff_of_true (leaves_refuse.mpr ⟨h, fun hcode => absurd hcode (by decide)⟩) ?_
    rintro _ ⟨⟩ hnext
    exact absurd hold (not_le_of_eq_add_one hnext hnum)
  rw [if_neg hold]
  by_cases hnext : b.blockNum = fields.blockNum + 1
  swap
  · rw [if_neg hnext]
    refine iff_of_true (leaves_answer.mpr h) ?_
    rintro _ ⟨⟩ hnext'
    exact absurd hnext' hnext
  rw [if_pos hnext]
  by_cases hsize : fields.blockBufferSize = (b.blockSize.toUInt32 * b.blockNum).toNat
  swap
  · rw [if_pos hsize]
    refine iff_of_true (leaves_refuse.mpr ⟨h, fun hcode => absurd hcode (by decide)⟩) ?_
    rintro _ ⟨⟩ - hsize'
    exact absurd hsize' hsize
  rw [if_neg (not_not_intro hsize)]
  have hgoal : (∀ fields', some fields = some fields' → b.blockNum = fields'.blockNum + 1 →
      fields'.blockBufferSize = (b.blockSize.toUInt32 * b.blockNum).toNat →
        if allocations.buffer then fields'.blockBuffer ≠ none
        else fields'.blockBuffer = none ∧ b.buffer = []) ↔
      if allocations.buffer then fields.blockBuffer ≠ none
      else fields.blockBuffer = none ∧ b.buffer = [] := by
    constructor
    · exact fun hall => hall fields rfl hnext hsize
    · rintro hone _ ⟨⟩ - -
      exact hone
  rw [hgoal]
  cases hbuffer : allocations.buffer with
  | false =>
    have hsound := overwrite_sound_iff h hlist hrepresent hholds b.buffer fields.blockNum
    exact leaves_refuse.trans ((and_iff_left fun _ => ⟨⟨_, rfl⟩, fun _ _ _ _ => rfl⟩).trans hsound)
  | true =>
    cases hpointer : fields.blockBuffer with
    | none => exact iff_of_false not_leaves_error fun hne => hne rfl
    | some a =>
      rw [hpointer] at hholds
      obtain ⟨old, m', hread, hfree, hsound⟩ :=
        append_leaves h hlist hrepresent hpointer hholds b.buffer b.blockNum
      rw [hpointer] at hread hfree
      refine iff_of_true ?_ (Option.some_ne_none a)
      rw [if_pos rfl, hread, ok_bind]
      rw [hfree, ok_bind]
      exact leaves_answer.mpr hsound

/-- **An arrival** leaves the list sound exactly when its allocations fail harmlessly. -/
theorem prvCoapBlockHandler_iff (h : s.Sound) (allocations : BlockAllocations) (b : BlockArrival)
    (hlookup : lookup identifier blockType s.entries = .ok found) :
    Leaves s found (s.prvCoapBlockHandler allocations identifier blockType b) ↔
      FailsHarmlessly allocations b found := by
  rw [prvCoapBlockHandler, hlookup, ok_bind]
  by_cases hnum : b.blockNum = 0
  · rw [if_pos hnum]
    cases found with
    | none => exact (firstBlock_none_iff h).trans (imp_iff_right hnum).symm
    | some f =>
      exact iff_of_true (firstBlock_some h (list_of_lookup hlookup)) fun hne => absurd hnum hne
  · rw [if_neg hnum]
    cases found with
    | none =>
      refine iff_of_true (leaves_refuse.mpr ⟨h, fun hcode => absurd hcode (by decide)⟩) ?_
      exact fun hzero => absurd hzero hnum
    | some f => exact laterBlock_some_iff h (list_of_lookup hlookup) hnum

/-! ### Every call -/

variable {call : BlockCall}

/-- A call of the handler. -/
theorem survives_handler_iff (h : s.Sound) (harrival : call.event.arrival = some b)
    (hstep : s.step call =
      s.prvCoapBlockHandler call.allocations call.event.key.1 call.event.key.2 b
        >>= fun result => return (result.1, some result.2.1)) :
    Survives s call ↔ Spared s call := by
  unfold Survives Spared
  rw [hstep]
  cases hlookup : lookup call.event.key.1 call.event.key.2 s.entries with
  | error fault =>
    refine iff_of_false ?_ ?_
    · rintro ⟨s', code, heq, -⟩
      rw [prvCoapBlockHandler, hlookup] at heq
      cases heq
    · rintro ⟨found, heq, -⟩
      cases heq
  | ok found =>
    have hleaves := prvCoapBlockHandler_iff h call.allocations b hlookup
    constructor
    · rintro ⟨s', code, heq, hsound, hothers⟩
      obtain ⟨result, hresult, heq⟩ := bind_eq_ok_iff.mp heq
      cases heq
      refine ⟨found, rfl, fun b' hb' => ?_⟩
      cases harrival.symm.trans hb'
      refine hleaves.mp ⟨result.1, result.2.1, result.2.2, hresult, hsound, fun hcode => ?_⟩
      exact hothers (congrArg some hcode) found rfl
    · rintro ⟨found', heq, hharmless⟩
      cases heq
      obtain ⟨s', code, output, hresult, hsound, hothers⟩ := hleaves.mpr (hharmless b harrival)
      rw [hresult]
      refine ⟨s', some code, rfl, hsound, fun hcode found' heq => ?_⟩
      cases heq
      exact hothers (Option.some_inj.mp hcode)

/-- A call that is no arrival. -/
theorem survives_other_iff (harrival : call.event.arrival = none)
    {result : Except BlockFault BlockMemory}
    (hstep : s.step call = result >>= fun s' => return (s', none))
    (herror : ∀ fault, lookup call.event.key.1 call.event.key.2 s.entries = .error fault →
      result = .error fault)
    (hsound : ∀ found, lookup call.event.key.1 call.event.key.2 s.entries = .ok found →
      ∃ s', result = .ok s' ∧ s'.Sound) :
    Survives s call ↔ Spared s call := by
  unfold Survives Spared
  rw [hstep]
  cases hlookup : lookup call.event.key.1 call.event.key.2 s.entries with
  | error fault =>
    rw [herror fault hlookup]
    refine iff_of_false ?_ ?_
    · rintro ⟨s', code, heq, -⟩
      cases heq
    · rintro ⟨found, heq, -⟩
      cases heq
  | ok found =>
    obtain ⟨s', hresult, hsound'⟩ := hsound found hlookup
    rw [hresult]
    refine iff_of_true ⟨s', none, rfl, hsound', fun hcode => nomatch hcode⟩ ⟨found, rfl, ?_⟩
    exact fun b hb => nomatch harrival.symm.trans hb

/-- A deletion frees the buffer that it unlinks. -/
theorem prvBlockDataDelete_sound (h : s.Sound)
    (hlookup : lookup identifier blockType s.entries = .ok found) :
    ∃ s', s.prvBlockDataDelete identifier blockType = .ok s' ∧ s'.Sound := by
  rw [prvBlockDataDelete, hlookup, ok_bind]
  cases found with
  | none => exact ⟨s, rfl, h⟩
  | some f =>
    obtain ⟨fields, hfields, -, hholds⟩ := h.here (list_of_lookup hlookup)
    obtain ⟨m', hfree, hholds', hcells⟩ := freeBuffer_held hholds
    dsimp only
    rw [freeBlockData, BlockEntry.read, hfields]
    rw [ok_bind, hfree]
    exact ⟨⟨m', f.unlink⟩, rfl, h.others (list_of_lookup hlookup) hcells, hholds'⟩

/-- A new identifier changes no buffer. -/
theorem coapBlock2SetExpectedMid_sound (h : s.Sound) {currentMid expectedMid : UInt16}
    (hlookup : lookup (.mid currentMid) .block2 s.entries = .ok found) :
    ∃ s', s.coapBlock2SetExpectedMid currentMid expectedMid = .ok s' ∧ s'.Sound := by
  rw [coapBlock2SetExpectedMid, hlookup, ok_bind]
  cases found with
  | none => exact ⟨s, rfl, h⟩
  | some f =>
    obtain ⟨fields, hfields, hrepresent, hholds⟩ := h.here (list_of_lookup hlookup)
    have hothers := h.others (list_of_lookup hlookup) fun _ _ => rfl
    exact ⟨_, rfl, sound_set hothers hfields hrepresent hholds⟩

/-- **A call survives exactly when it is spared.** -/
theorem survives_iff (h : s.Sound) : Survives s call ↔ Spared s call := by
  rcases call with ⟨event, allocations⟩
  cases event with
  | block1 uri b => exact survives_handler_iff h rfl rfl
  | block2 mid b => exact survives_handler_iff h rfl rfl
  | expect currentMid expectedMid =>
    refine survives_other_iff rfl rfl (fun fault hfault => ?_) fun found hfound =>
      coapBlock2SetExpectedMid_sound h hfound
    rw [coapBlock2SetExpectedMid, show lookup (.mid currentMid) .block2 s.entries = _ from hfault]
    rfl
  | delete1 uri =>
    refine survives_other_iff rfl rfl (fun fault hfault => ?_) fun found hfound =>
      prvBlockDataDelete_sound h hfound
    rw [prvBlockDataDelete, show lookup (.uri (some uri)) .block1 s.entries = _ from hfault]
    rfl
  | delete2 mid =>
    refine survives_other_iff rfl rfl (fun fault hfault => ?_) fun found hfound =>
      prvBlockDataDelete_sound h hfound
    rw [prvBlockDataDelete, show lookup (.mid mid) .block2 s.entries = _ from hfault]
    rfl

theorem Survives.sound {s' : BlockMemory} (h : Survives s call) (hstep : Step s call s') :
    s'.Sound := by
  obtain ⟨s'', code, heq, hsound, -⟩ := h
  obtain ⟨code', heq'⟩ := hstep
  cases heq.symm.trans heq'
  exact hsound

theorem sound_empty : Sound {} :=
  ⟨fun _ he => absurd he List.not_mem_nil, Holds.nil fun _ => rfl⟩

/-- **The block list represents its buffers after every call of a run**, and nothing is read or
freed wrongly, exactly when in every call the lookup meets no entry of the other block type in front
of the one it searches for, and the allocations fail harmlessly. -/
theorem blockList_survives_iff (calls : List BlockCall) :
    EveryStep Step Survives {} calls ↔ EveryStep Step Spared {} calls := by
  constructor
  · intro h
    refine h.imp (I := Sound) (fun s call hsound hsurvives => ?_) ?_ sound_empty
    · exact (survives_iff hsound).mp hsurvives
    · exact fun s call s' _ hsurvives hstep => hsurvives.sound hstep
  · intro h
    refine h.imp (I := Sound) (fun s call hsound hspared => ?_) ?_ sound_empty
    · exact (survives_iff hsound).mpr hspared
    · exact fun s call s' hsound hspared hstep => ((survives_iff hsound).mpr hspared).sound hstep

/-- The first block of a transfer, whose entry is linked before its buffer is allocated, and then
its deletion. -/
def bufferFails : List BlockCall :=
  [⟨.block1 [47, 50] ⟨[1, 2], 16, 0, true⟩, { buffer := false }⟩, ⟨.delete1 [47, 50], {}⟩]

/-- The deletion frees the pointer of an entry that was never written. -/
theorem bufferFails_not_survives :
    (({} : BlockMemory).step bufferFails[0] >>= fun first => first.1.step bufferFails[1]).map
      (fun _ => ()) = .error .uninitialised ∧
    ¬ EveryStep Step Survives {} bufferFails := by
  refine ⟨by decide, fun ⟨h, _⟩ => ?_⟩
  obtain ⟨found, hfound, hharmless⟩ := (survives_iff sound_empty).mp h
  cases hfound
  exact absurd (hharmless _ rfl rfl) (by decide)

end BlockMemory

end

end Lwm2m.Coap

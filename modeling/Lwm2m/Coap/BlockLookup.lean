/-
# Two kinds of transfer in one list

The block list holds the Block1 transfers and the Block2 transfers of a peer, and the union
that identifies an entry has no tag that the lookup looks at: `find_block_data` reads every
entry it passes through the member of the type it searches for.

The operations keep every entry under an identifier of its own type (`WellTyped`), so a lookup
reads a wrong member exactly when it passes an entry of the other type: it is right if and only if the
entries in front of the one it searches for are all of its type
(`blockList_lookup_iff`).
-/

import Lwm2m.Coap.Reassembly
import Lwm2m.Library.Except

namespace Lwm2m.Coap

open Code Library

/-! ### Operations on the list -/

/-- An operation on the block list of a peer. -/
inductive BlockListEvent
  | block1 (uri : CString) (b : BlockArrival)
  | block2 (mid : UInt16) (b : BlockArrival)
  | expect (currentMid expectedMid : UInt16)
  | delete1 (uri : CString)
  | delete2 (mid : UInt16)
  deriving DecidableEq, Repr

/-- `block1_delete`. -/
def block1Delete (blockDataHead : List BlockData) (uri : CString) :
    Except Fault (List BlockData) :=
  prvBlockDataDelete blockDataHead (.uri (some uri)) .block1

/-- One operation. -/
def blockListStep (blockDataHead : List BlockData) :
    BlockListEvent → Except Fault (List BlockData)
  | .block1 uri b => do return (← coapBlock1Handler blockDataHead uri b).1
  | .block2 mid b => do return (← coapBlock2Handler blockDataHead mid b).1
  | .expect currentMid expectedMid => coapBlock2SetExpectedMid blockDataHead currentMid expectedMid
  | .delete1 uri => block1Delete blockDataHead uri
  | .delete2 mid => block2Delete blockDataHead mid

/-- The block list after some operations. -/
def blockListRun (blockDataHead : List BlockData) (events : List BlockListEvent) :
    Except Fault (List BlockData) :=
  events.foldlM blockListStep blockDataHead

/-- Every entry has an identifier of its own type. -/
def WellTyped (blockDataHead : List BlockData) : Prop :=
  ∀ blockData ∈ blockDataHead, IsKey blockData.blockType blockData.identifier

/-! ### What a lookup should do -/

section Lookup

variable (blockDataHead : List BlockData) (identifier : BlockDataIdentifier)
  (blockType : BlockType)

/-- The entry searched for: of the type and with the identifier. -/
def IsOwn (blockData : BlockData) : Prop :=
  blockData.blockType = blockType ∧ blockData.identifier = identifier

instance (blockData : BlockData) : Decidable (IsOwn identifier blockType blockData) :=
  inferInstanceAs (Decidable (_ ∧ _))

/-- The lookup reads no wrong member, and what it returns is an entry of the list of the type and
with the identifier. -/
def FindsOwn : Prop :=
  ∃ found, findBlockData blockDataHead identifier blockType = .ok found ∧
    ∀ f, found = some f → f.list = blockDataHead ∧ IsOwn identifier blockType f.here

/-- The deletion reads no wrong member, and removes nothing or one entry of the type and with the
identifier. -/
def DeletesOwn : Prop :=
  ∃ rest, prvBlockDataDelete blockDataHead identifier blockType = .ok rest ∧
    (rest = blockDataHead ∨ ∃ f : Focus BlockData, f.list = blockDataHead ∧ rest = f.unlink ∧
      IsOwn identifier blockType f.here)

/-- The entries in front of the one searched for, or all of them if it is not there, are of
the type. -/
def Unobstructed : Prop :=
  ∀ blockData ∈ blockDataHead.takeWhile (¬ IsOwn identifier blockType ·),
    blockData.blockType = blockType

end Lookup

/-! ### One lookup -/

variable {blockDataHead blockDataHead' : List BlockData} {identifier : BlockDataIdentifier}
  {blockType : BlockType}

variable {blockData : BlockData} {f : Focus BlockData}

/-- The matcher on an entry of its type. -/
theorem prvGetMatcher_own (hkey : IsKey blockType identifier)
    (hdata : IsKey blockData.blockType blockData.identifier)
    (htype : blockData.blockType = blockType) :
    prvGetMatcher blockType identifier blockData =
      .ok (decide (IsOwn identifier blockType blockData)) := by
  rcases blockData with ⟨type, key, buffer, num⟩
  subst htype
  cases hkey with
  | block1 uri =>
    cases hdata with
    | block1 stored =>
      have hmatch : (uri == stored) =
          decide (IsOwn (.uri (some uri)) .block1 ⟨.block1, .uri (some stored), buffer, num⟩) := by
        rw [Bool.eq_iff_iff, beq_iff_eq, decide_eq_true_iff, IsOwn, and_iff_right rfl,
          BlockDataIdentifier.uri.injEq, Option.some.injEq, eq_comm]
      exact congrArg Except.ok hmatch
  | block2 mid =>
    cases hdata with
    | block2 stored =>
      have hmatch : (mid == stored) =
          decide (IsOwn (.mid mid) .block2 ⟨.block2, .mid stored, buffer, num⟩) := by
        rw [Bool.eq_iff_iff, beq_iff_eq, decide_eq_true_iff, IsOwn, and_iff_right rfl,
          BlockDataIdentifier.mid.injEq, eq_comm]
      exact congrArg Except.ok hmatch

/-- The matcher on an entry of the other type. -/
theorem prvGetMatcher_other (hkey : IsKey blockType identifier)
    (hdata : IsKey blockData.blockType blockData.identifier)
    (htype : blockData.blockType ≠ blockType) :
    prvGetMatcher blockType identifier blockData = .error .wrongUnionMember := by
  rcases blockData with ⟨type, key, buffer, num⟩
  cases hkey <;> cases hdata
  · exact absurd rfl htype
  · rfl
  · rfl
  · exact absurd rfl htype

theorem unobstructed_cons {next : List BlockData} :
    Unobstructed (blockData :: next) identifier blockType ↔
      IsOwn identifier blockType blockData ∨
        (blockData.blockType = blockType ∧ Unobstructed next identifier blockType) := by
  unfold Unobstructed
  by_cases hown : IsOwn identifier blockType blockData
  · rw [List.takeWhile_cons_of_neg (by simpa using hown)]
    exact iff_of_true (fun _ h => absurd h List.not_mem_nil) (.inl hown)
  · rw [List.takeWhile_cons_of_pos (by simpa using hown), List.forall_mem_cons,
      or_iff_right hown]

/-- **An unobstructed lookup** finds the first entry of the type and with the identifier. -/
theorem findBlockData_of_unobstructed (htyped : WellTyped blockDataHead)
    (hkey : IsKey blockType identifier)
    (hfree : Unobstructed blockDataHead identifier blockType) :
    findBlockData blockDataHead identifier blockType =
      .ok (focusFirst (IsOwn identifier blockType ·) blockDataHead) := by
  induction blockDataHead with
  | nil => rfl
  | cons blockData next ih =>
    obtain ⟨hdata, hnext⟩ := List.forall_mem_cons.mp htyped
    rw [unobstructed_cons] at hfree
    have htype : blockData.blockType = blockType := hfree.elim (·.1) (·.1)
    unfold findBlockData focusFirst
    rw [prvGetMatcher_own hkey hdata htype, ok_bind]
    by_cases hown : IsOwn identifier blockType blockData
    · rw [decide_eq_true hown, if_pos rfl, if_pos rfl]
      rfl
    · rw [decide_eq_false hown, if_neg Bool.false_ne_true, if_neg Bool.false_ne_true,
        ih hnext (hfree.resolve_left hown).2, ok_bind]
      cases focusFirst (IsOwn identifier blockType ·) next <;> rfl

/-- **An obstructed lookup** reads an identifier through the wrong member. -/
theorem findBlockData_of_obstructed (htyped : WellTyped blockDataHead)
    (hkey : IsKey blockType identifier)
    (hobstructed : ¬ Unobstructed blockDataHead identifier blockType) :
    findBlockData blockDataHead identifier blockType = .error .wrongUnionMember := by
  induction blockDataHead with
  | nil => exact absurd (fun _ h => absurd h List.not_mem_nil) hobstructed
  | cons blockData next ih =>
    obtain ⟨hdata, hnext⟩ := List.forall_mem_cons.mp htyped
    rw [unobstructed_cons, not_or, not_and] at hobstructed
    obtain ⟨hown, hrest⟩ := hobstructed
    unfold findBlockData
    by_cases htype : blockData.blockType = blockType
    · rw [prvGetMatcher_own hkey hdata htype, ok_bind, decide_eq_false hown,
        if_neg Bool.false_ne_true, ih hnext (hrest htype)]
      rfl
    · rw [prvGetMatcher_other hkey hdata htype]
      rfl

/-- What a lookup returns without a fault. -/
theorem findBlockData_eq_ok (htyped : WellTyped blockDataHead) (hkey : IsKey blockType identifier)
    {found : Option (Focus BlockData)}
    (h : findBlockData blockDataHead identifier blockType = .ok found) :
    found = focusFirst (IsOwn identifier blockType ·) blockDataHead := by
  by_cases hfree : Unobstructed blockDataHead identifier blockType
  · rw [findBlockData_of_unobstructed htyped hkey hfree] at h
    exact (Except.ok.inj h).symm
  · rw [findBlockData_of_obstructed htyped hkey hfree] at h
    cases h

/-- The entry that a lookup returns. -/
theorem findBlockData_eq_ok_some (htyped : WellTyped blockDataHead)
    (hkey : IsKey blockType identifier)
    (h : findBlockData blockDataHead identifier blockType = .ok (some f)) :
    f.list = blockDataHead ∧ IsOwn identifier blockType f.here := by
  have hfirst := (findBlockData_eq_ok htyped hkey h).symm
  obtain ⟨hlist, hhere, -⟩ := focusFirst_eq_some_iff.mp hfirst
  exact ⟨hlist, of_decide_eq_true hhere⟩

/-- One lookup and one deletion are right if and only if nothing obstructs the lookup. -/
theorem findsOwn_and_deletesOwn_iff (htyped : WellTyped blockDataHead)
    (hkey : IsKey blockType identifier) :
    FindsOwn blockDataHead identifier blockType ∧ DeletesOwn blockDataHead identifier blockType ↔
      Unobstructed blockDataHead identifier blockType := by
  constructor
  · rintro ⟨⟨found, hfound, -⟩, -⟩
    by_contra hobstructed
    rw [findBlockData_of_obstructed htyped hkey hobstructed] at hfound
    cases hfound
  · intro hfree
    have hfind := findBlockData_of_unobstructed htyped hkey hfree
    refine ⟨⟨_, hfind, fun f hf => findBlockData_eq_ok_some htyped hkey (hf ▸ hfind)⟩, ?_⟩
    unfold DeletesOwn prvBlockDataDelete
    rw [hfind, ok_bind]
    rcases hfirst : focusFirst (IsOwn identifier blockType ·) blockDataHead with _ | f
    · exact ⟨_, rfl, .inl rfl⟩
    · obtain ⟨hlist, hown⟩ := findBlockData_eq_ok_some htyped hkey (hfirst ▸ hfind)
      exact ⟨_, rfl, .inr ⟨f, hlist, rfl, hown⟩⟩

/-! ### Runs -/

/-- A write of a well-typed entry through a pointer. -/
theorem WellTyped.set (h : WellTyped f.list)
    (hdata : IsKey blockData.blockType blockData.identifier) : WellTyped (f.set blockData) := by
  intro x hx
  rcases Focus.mem_set.mp hx with rfl | hx
  · exact hdata
  · exact h x (Focus.mem_list.mpr (.inr hx))

theorem WellTyped.unlink (h : WellTyped f.list) : WellTyped f.unlink :=
  fun x hx => h x (Focus.mem_list.mpr (.inr hx))

/-- The handler keeps the list well typed. -/
theorem WellTyped.handler (htyped : WellTyped blockDataHead) (hkey : IsKey blockType identifier)
    {b : BlockArrival} {answer : Code × BlockOutput}
    (h : prvCoapBlockHandler blockDataHead identifier blockType b = .ok (blockDataHead', answer)) :
    WellTyped blockDataHead' := by
  obtain ⟨found, hfound, h⟩ := bind_eq_ok_iff.mp h
  have hset {f : Focus BlockData} (hf : found = some f) {blockData : BlockData}
      (hsame : blockData.blockType = f.here.blockType)
      (hsame' : blockData.identifier = f.here.identifier) : WellTyped (f.set blockData) := by
    obtain ⟨hlist, -⟩ := findBlockData_eq_ok_some htyped hkey (hf ▸ hfound)
    have htyped' : WellTyped f.list := by
      rw [hlist]
      exact htyped
    refine htyped'.set ?_
    rw [hsame, hsame']
    exact htyped' _ f.here_mem_list
  rcases found with _ | f
  · by_cases hzero : b.blockNum = 0
    · rw [if_pos hzero] at h
      cases h
      exact List.forall_mem_cons.mpr ⟨hkey, htyped⟩
    · rw [if_neg hzero] at h
      cases h
      exact htyped
  · dsimp only at h
    split_ifs at h
    · cases h
      exact hset rfl rfl rfl
    · cases h
      exact htyped
    · cases h
      exact htyped
    · cases h
      exact hset rfl rfl rfl
    · cases h
      exact htyped

/-- A deletion keeps the list well typed. -/
theorem WellTyped.delete (htyped : WellTyped blockDataHead) (hkey : IsKey blockType identifier)
    (h : prvBlockDataDelete blockDataHead identifier blockType = .ok blockDataHead') :
    WellTyped blockDataHead' := by
  obtain ⟨_ | f, hfound, h⟩ := bind_eq_ok_iff.mp h
  · cases h
    exact htyped
  · cases h
    obtain ⟨hlist, -⟩ := findBlockData_eq_ok_some htyped hkey hfound
    exact WellTyped.unlink (by rwa [hlist])

/-- One operation keeps the list well typed. -/
theorem WellTyped.step (htyped : WellTyped blockDataHead) {event : BlockListEvent}
    (h : blockListStep blockDataHead event = .ok blockDataHead') : WellTyped blockDataHead' := by
  cases event with
  | block1 uri b =>
    obtain ⟨⟨rest, answer⟩, hhandler, h⟩ := bind_eq_ok_iff.mp h
    cases h
    exact htyped.handler (.block1 uri) hhandler
  | block2 mid b =>
    obtain ⟨⟨rest, answer⟩, hhandler, h⟩ := bind_eq_ok_iff.mp h
    cases h
    exact htyped.handler (.block2 mid) hhandler
  | expect currentMid expectedMid =>
    obtain ⟨_ | f, hfound, h⟩ := bind_eq_ok_iff.mp h
    · cases h
      exact htyped
    · cases h
      obtain ⟨hlist, htype, -⟩ := findBlockData_eq_ok_some htyped (.block2 currentMid) hfound
      refine WellTyped.set (by rwa [hlist]) ?_
      rw [htype]
      exact .block2 expectedMid
  | delete1 uri => exact htyped.delete (.block1 uri) h
  | delete2 mid => exact htyped.delete (.block2 mid) h

/-- Operations keep the list well typed, in whatever order the transfers of both types mix. -/
theorem WellTyped.run {blockDataHead blockDataHead' : List BlockData} {events : List BlockListEvent}
    (htyped : WellTyped blockDataHead)
    (h : blockListRun blockDataHead events = .ok blockDataHead') : WellTyped blockDataHead' := by
  induction events generalizing blockDataHead with
  | nil =>
    cases h
    exact htyped
  | cons event rest ih =>
    obtain ⟨middle, hstep, hrest⟩ := bind_eq_ok_iff.mp h
    exact ih (htyped.step hstep) hrest

/-- **Entries are used at their own type.**  On a list that operations make from a well-typed one a
lookup and a deletion read no wrong member and yield an entry of their type and with their
identifier, if and only if all entries in front of the first such entry are of that type. -/
theorem blockList_lookup_iff {blockDataHead blockDataHead' : List BlockData}
    {events : List BlockListEvent} (htyped : WellTyped blockDataHead)
    (hrun : blockListRun blockDataHead events = .ok blockDataHead') {identifier : BlockDataIdentifier}
    {blockType : BlockType} (hkey : IsKey blockType identifier) :
    FindsOwn blockDataHead' identifier blockType ∧ DeletesOwn blockDataHead' identifier blockType ↔
      Unobstructed blockDataHead' identifier blockType :=
  findsOwn_and_deletesOwn_iff (htyped.run hrun) hkey

/-- The first block of a write to `/1/2`, with more to come. -/
def firstBlock : BlockArrival := ⟨[0x61], 16, 0, true⟩

/-- The list that holds the transfer of that write. -/
def writeList : List BlockData := [⟨.block1, .uri (some [47, 49, 47, 50]), [0x61], 0⟩]

/-- **A message-id is compared with a pointer.**  While a server sends a write in blocks, the
lookup for a Block2 transfer and its deletion read the URI of the write as a message-id. -/
theorem writeList_obstructs :
    blockListRun [] [.block1 [47, 49, 47, 50] firstBlock] = .ok writeList ∧
      findBlockData writeList (.mid 7) .block2 = .error .wrongUnionMember ∧
      block2Delete writeList 7 = .error .wrongUnionMember :=
  ⟨rfl, rfl, rfl⟩

/-- The transfer of the write is found, also when a Block2 transfer stands behind it. -/
theorem writeList_found : ∃ l, WellTyped l ∧ l.length = 2 ∧
    FindsOwn l (.uri (some [47, 49, 47, 50])) .block1 ∧
      DeletesOwn l (.uri (some [47, 49, 47, 50])) .block1 := by
  have hread : IsKey .block2 (.mid 7) := .block2 7
  have htyped : WellTyped (writeList ++ [⟨.block2, .mid 7, [], 0⟩]) :=
    List.forall_mem_cons.mpr ⟨.block1 _, List.forall_mem_singleton.mpr hread⟩
  refine ⟨_, htyped, rfl, (@blockList_lookup_iff _ _ [] htyped rfl _ _ (.block1 _)).mpr ?_⟩
  unfold Unobstructed
  decide

end Lwm2m.Coap

/-
# Blocks with shared owners

A block is a cell of a memory together with the cells that it points to.  `Shared` is the
invariant of a program whose references may point to one block together: the allocated cells are
exactly those of the referenced blocks, each once.  So nothing referenced was released, and
nothing is left that no reference leads to.

A reference may be copied, and dropped while another one leads to its block, without a
change of the memory; with the last reference to a block its cells are released.
-/

import Lwm2m.Library.Memory
import Mathlib.Order.BooleanAlgebra.Set

namespace Library
namespace Memory

variable {α : Type*} {m m' : Memory α} {a : ℕ} {owned owned' : List ℕ}

/-- The allocated cells are those of the list, each once. -/
structure Holds (m : Memory α) (owned : List ℕ) : Prop where
  nodup : owned.Nodup
  allocated : ∀ a, (m.cells a).isSome ↔ a ∈ owned

namespace Holds

/-- Nothing is allocated. -/
theorem nil (h : ∀ a, m.cells a = none) : m.Holds [] :=
  ⟨List.nodup_nil, fun a => by simp [h a]⟩

theorem perm (h : m.Holds owned) (hperm : owned.Perm owned') : m.Holds owned' :=
  ⟨hperm.nodup_iff.mp h.nodup, fun a => (h.allocated a).trans hperm.mem_iff⟩

/-- A memory holds one list only, up to its order. -/
theorem mem_iff (h : m.Holds owned) (h' : m.Holds owned') : a ∈ owned ↔ a ∈ owned' :=
  (h.allocated a).symm.trans (h'.allocated a)

theorem lt_frontier (h : m.Holds owned) (ha : a ∈ owned) : a < m.frontier :=
  Memory.lt_frontier ((h.allocated a).mpr ha)

/-- A new cell. -/
theorem alloc (h : m.Holds owned) (x : α) : (m.alloc x).1.Holds (m.frontier :: owned) := by
  refine ⟨List.nodup_cons.mpr ⟨fun hmem => absurd (h.lt_frontier hmem) (lt_irrefl _), h.nodup⟩,
    fun b => ?_⟩
  by_cases hb : b = m.frontier
  · rw [hb, alloc_cells_self]
    exact iff_of_true rfl List.mem_cons_self
  · have hsame : (m.alloc x).1.cells b = m.cells b := Function.update_of_ne hb ..
    rw [hsame, h.allocated, List.mem_cons, or_iff_right hb]

/-- A cell that is held may be released. -/
theorem release (h : m.Holds (a :: owned)) : (m.release a).Holds owned := by
  obtain ⟨hnew, hnodup⟩ := List.nodup_cons.mp h.nodup
  refine ⟨hnodup, fun b => ?_⟩
  by_cases hb : b = a
  · have hnone : (m.release a).cells a = none := Function.update_self ..
    rw [hb, hnone]
    exact iff_of_false Bool.false_ne_true hnew
  · rw [release_cells_of_ne hb, h.allocated, List.mem_cons, or_iff_right hb]

end Holds

/-! ### Blocks -/

/-- The cells of the blocks at some addresses, each block once; the block at `a` is the cell
`a` with its parts. -/
def Blocks (parts : ℕ → List ℕ) (refs : Set ℕ) (owned : List ℕ) : Prop :=
  ∃ addresses : List ℕ, addresses.Nodup ∧ (∀ a, a ∈ addresses ↔ a ∈ refs) ∧
    owned = addresses.flatMap fun a => a :: parts a

namespace Blocks

variable {parts parts' : ℕ → List ℕ} {refs : Set ℕ}

/-- No block. -/
theorem nil (parts : ℕ → List ℕ) : Blocks parts ∅ [] :=
  ⟨[], List.nodup_nil, fun a => by simp, rfl⟩

/-- The cells of the blocks. -/
theorem mem_iff (h : Blocks parts refs owned) {c : ℕ} :
    c ∈ owned ↔ ∃ a ∈ refs, c ∈ a :: parts a := by
  obtain ⟨addresses, -, hrefs, rfl⟩ := h
  simp only [List.mem_flatMap, hrefs]

/-- The parts of other cells do not matter. -/
theorem congr (h : Blocks parts refs owned) (hparts : ∀ a ∈ refs, parts' a = parts a) :
    Blocks parts' refs owned := by
  obtain ⟨addresses, hnodup, hrefs, rfl⟩ := h
  refine ⟨addresses, hnodup, hrefs, ?_⟩
  rw [List.flatMap_def, List.flatMap_def]
  refine congrArg List.flatten (List.map_congr_left fun a ha => ?_)
  rw [hparts a ((hrefs a).mp ha)]

/-- One more block. -/
theorem insert (h : Blocks parts refs owned) (ha : a ∉ refs) :
    Blocks parts (insert a refs) (a :: parts a ++ owned) := by
  obtain ⟨addresses, hnodup, hrefs, rfl⟩ := h
  refine ⟨a :: addresses, List.nodup_cons.mpr ⟨fun hmem => ha ((hrefs a).mp hmem), hnodup⟩,
    fun b => ?_, rfl⟩
  rw [List.mem_cons, hrefs, Set.mem_insert_iff]

/-- The blocks but one. -/
theorem erase (h : Blocks parts (Insert.insert a refs) owned) (ha : a ∉ refs) :
    ∃ rest, Blocks parts refs rest ∧ owned.Perm (a :: parts a ++ rest) := by
  obtain ⟨addresses, hnodup, hrefs, rfl⟩ := h
  have hmem : a ∈ addresses := (hrefs a).mpr (Set.mem_insert a refs)
  refine ⟨_, ⟨addresses.erase a, hnodup.erase a, fun b => ?_, rfl⟩,
    (List.perm_cons_erase hmem).flatMap_right _⟩
  rw [hnodup.mem_erase_iff, hrefs, Set.mem_insert_iff]
  constructor
  · rintro ⟨hne, heq | hb⟩
    · exact absurd heq hne
    · exact hb
  · intro hb
    exact ⟨fun heq => ha (heq ▸ hb), .inr hb⟩

end Blocks

/-! ### Shared blocks -/

/-- The allocated cells are those of the referenced blocks, each once. -/
def Shared (parts : ℕ → List ℕ) (m : Memory α) (refs : Set ℕ) : Prop :=
  ∃ owned, Blocks parts refs owned ∧ m.Holds owned

namespace Shared

variable {parts : ℕ → List ℕ} {refs : Set ℕ} {c : ℕ}

/-- **Nothing is missing and nothing is left**: the allocated cells are those of the blocks that a
reference leads to. -/
theorem isSome_iff (h : Shared parts m refs) :
    (m.cells c).isSome ↔ ∃ a ∈ refs, c ∈ a :: parts a := by
  obtain ⟨owned, hblocks, hholds⟩ := h
  rw [hholds.allocated, hblocks.mem_iff]

/-- The blocks tell what is to be allocated. -/
theorem iff_isSome (h : Blocks parts refs owned) (hnodup : owned.Nodup) :
    Shared parts m refs ↔ ∀ c, (m.cells c).isSome ↔ c ∈ owned := by
  constructor
  · rintro hshared c
    rw [hshared.isSome_iff, h.mem_iff]
  · intro hcells
    exact ⟨owned, h, hnodup, hcells⟩

theorem isSome_of_mem (h : Shared parts m refs) (ha : a ∈ refs) : (m.cells a).isSome :=
  h.isSome_iff.mpr ⟨a, ha, List.mem_cons_self⟩

/-- **A cell has one owner.** -/
theorem eq_of_mem (h : Shared parts m refs) {b : ℕ} (ha : a ∈ refs) (hb : b ∈ refs)
    (hca : c ∈ a :: parts a) (hcb : c ∈ b :: parts b) : a = b := by
  obtain ⟨owned, hblocks, hholds⟩ := h
  by_contra hne
  have hrefs : insert a (refs \ {a}) = refs := Set.insert_sdiff_self_of_mem ha
  obtain ⟨rest, hrest, hperm⟩ := (hrefs ▸ hblocks).erase fun h => h.2 rfl
  have hmem : c ∈ rest := hrest.mem_iff.mpr ⟨b, ⟨hb, fun h => hne h.symm⟩, hcb⟩
  exact (List.nodup_append'.mp (hholds.perm hperm).nodup).2.2 hca hmem

end Shared

end Memory
end Library

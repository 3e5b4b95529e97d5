/-
# Allocated memory and who owns it

A memory gives each address at most one cell, and takes the address of a new cell from
behind all others.  A cell is written by `modify`.  `Owns` is the invariant of a program that owns
some cells, each once, and leaves the cells of another part of the memory as they were: it may
release a cell it owns, get a new one and forget one.
-/

import Mathlib.Data.List.Nodup
import Mathlib.Data.List.Perm.Subperm
import Mathlib.Data.Nat.Basic
import Mathlib.Logic.Function.Basic

namespace Library

/-- The allocated cells and the address of the next one. -/
structure Memory (α : Type*) where
  cells : ℕ → Option α
  frontier : ℕ
  fresh : ∀ a, frontier ≤ a → cells a = none

namespace Memory

variable {α : Type*}

/-- Nothing is allocated. -/
def empty : Memory α where
  cells _ := none
  frontier := 0
  fresh _ _ := rfl

/-- A new cell and its address. -/
def alloc (m : Memory α) (x : α) : Memory α × ℕ :=
  ({ cells := Function.update m.cells m.frontier (some x)
     frontier := m.frontier + 1
     fresh := fun a ha => by
      rw [Function.update_of_ne (by omega)]
      exact m.fresh a (by omega) }, m.frontier)

/-- The memory without a cell. -/
def release (m : Memory α) (a : ℕ) : Memory α where
  cells := Function.update m.cells a none
  frontier := m.frontier
  fresh b hb := by
    by_cases h : b = a
    · rw [h, Function.update_self]
    · rw [Function.update_of_ne h]
      exact m.fresh b hb

/-- The memory with a cell written to, if it is allocated. -/
def modify (m : Memory α) (a : ℕ) (f : α → α) : Memory α where
  cells := Function.update m.cells a ((m.cells a).map f)
  frontier := m.frontier
  fresh b hb := by
    by_cases h : b = a
    · rw [h, Function.update_self, m.fresh a (h ▸ hb), Option.map_none]
    · rw [Function.update_of_ne h]
      exact m.fresh b hb

variable {m m' m'' : Memory α} {a b : ℕ} {x : α}

@[simp] theorem alloc_address : (m.alloc x).2 = m.frontier := rfl

@[simp] theorem alloc_cells_self : (m.alloc x).1.cells m.frontier = some x :=
  Function.update_self ..

theorem alloc_cells_of_lt (h : a < m.frontier) : (m.alloc x).1.cells a = m.cells a :=
  Function.update_of_ne (by omega) ..

theorem release_cells_of_ne (h : b ≠ a) : (m.release a).cells b = m.cells b :=
  Function.update_of_ne h ..

theorem modify_cells_self {f : α → α} (h : m.cells a = some x) :
    (m.modify a f).cells a = some (f x) := by
  have hself : (m.modify a f).cells a = (m.cells a).map f := Function.update_self ..
  rw [hself, h, Option.map_some]

theorem modify_cells_of_ne {f : α → α} (h : b ≠ a) : (m.modify a f).cells b = m.cells b :=
  Function.update_of_ne h ..

/-- An allocated cell is in front of the next one. -/
theorem lt_frontier (h : (m.cells a).isSome) : a < m.frontier := by
  by_contra hge
  rw [m.fresh a (by omega)] at h
  cases h

/-- The cells of a memory are cells of the other one. -/
structure Extends (m m' : Memory α) : Prop where
  frontier : m.frontier ≤ m'.frontier
  cells : ∀ a, a < m.frontier → m'.cells a = m.cells a

namespace Extends

theorem refl (m : Memory α) : Extends m m := ⟨le_rfl, fun _ _ => rfl⟩

theorem trans (h : Extends m m') (h' : Extends m' m'') : Extends m m'' :=
  ⟨le_trans h.frontier h'.frontier, fun a ha =>
    (h'.cells a (lt_of_lt_of_le ha h.frontier)).trans (h.cells a ha)⟩

theorem alloc (m : Memory α) (x : α) : Extends m (m.alloc x).1 :=
  ⟨Nat.le_succ _, fun _ ha => alloc_cells_of_lt ha⟩

end Extends

/-- A part of the memory is left as it was in `m₀`, and the cells of `owned` are allocated
and owned, each once. -/
structure Owns (m₀ : Memory α) (kept : List ℕ) (m : Memory α) (owned : List ℕ) : Prop where
  nodup : owned.Nodup
  allocated : ∀ a ∈ owned, (m.cells a).isSome
  disjoint : ∀ a ∈ owned, a ∉ kept
  below : ∀ a ∈ kept, a < m.frontier
  cells : ∀ a ∈ kept, m.cells a = m₀.cells a

namespace Owns

variable {m₀ : Memory α} {kept owned owned' : List ℕ}

/-- Nothing is owned yet. -/
theorem nil (hbelow : ∀ a ∈ kept, (m.cells a).isSome) : Owns m kept m [] :=
  ⟨List.nodup_nil, fun _ ha => absurd ha List.not_mem_nil,
    fun _ ha => absurd ha List.not_mem_nil, fun a ha => lt_frontier (hbelow a ha), fun _ _ => rfl⟩

/-- What was owned is to be left as it is, and what was left as it was is owned. -/
theorem swap (h : Owns m₀ kept m owned) (hnodup : kept.Nodup)
    (halloc : ∀ a ∈ kept, (m₀.cells a).isSome) : Owns m owned m kept :=
  ⟨hnodup, fun a ha => h.cells a ha ▸ halloc a ha, fun a ha hown => h.disjoint a hown ha,
    fun a ha => lt_frontier (h.allocated a ha), fun _ _ => rfl⟩

/-- A cell may be forgotten, and the order does not matter. -/
theorem subperm (h : Owns m₀ kept m owned) (hsub : owned'.Subperm owned) :
    Owns m₀ kept m owned' := by
  obtain ⟨l, hperm, hsub⟩ := hsub
  have hmem {a : ℕ} (ha : a ∈ owned') : a ∈ owned := hsub.subset (hperm.mem_iff.mpr ha)
  exact ⟨hperm.nodup_iff.mp (h.nodup.sublist hsub), fun a ha => h.allocated a (hmem ha),
    fun a ha => h.disjoint a (hmem ha), h.below, h.cells⟩

theorem perm (h : Owns m₀ kept m owned) (hperm : owned.Perm owned') : Owns m₀ kept m owned' :=
  h.subperm hperm.symm.subperm

/-- An owned cell may be released. -/
theorem release (h : Owns m₀ kept m (a :: owned)) : Owns m₀ kept (m.release a) owned := by
  obtain ⟨hnew, hnodup⟩ := List.nodup_cons.mp h.nodup
  have hkept := h.disjoint a List.mem_cons_self
  refine ⟨hnodup, fun b hb => ?_, fun b hb => h.disjoint b (List.mem_cons_of_mem a hb), h.below,
    fun b hb => ?_⟩
  · rw [release_cells_of_ne (ne_of_mem_of_not_mem hb hnew)]
    exact h.allocated b (List.mem_cons_of_mem a hb)
  · rw [release_cells_of_ne (ne_of_mem_of_not_mem hb hkept)]
    exact h.cells b hb

/-- A new cell is owned. -/
theorem alloc (h : Owns m₀ kept m owned) (x : α) :
    Owns m₀ kept (m.alloc x).1 (m.frontier :: owned) := by
  have hlt {b : ℕ} (hb : b ∈ owned) : b < m.frontier := lt_frontier (h.allocated b hb)
  refine ⟨List.nodup_cons.mpr ⟨fun hb => absurd (hlt hb) (lt_irrefl _), h.nodup⟩,
    List.forall_mem_cons.mpr ⟨?_, fun b hb => ?_⟩,
    List.forall_mem_cons.mpr ⟨fun hb => absurd (h.below _ hb) (lt_irrefl _), h.disjoint⟩,
    fun b hb => lt_trans (h.below b hb) (Nat.lt_succ_self _), fun b hb => ?_⟩
  · rw [alloc_cells_self]
    rfl
  · rw [alloc_cells_of_lt (hlt hb)]
    exact h.allocated b hb
  · rw [alloc_cells_of_lt (h.below b hb)]
    exact h.cells b hb

variable {a b c : List ℕ}

/-- A part of what is owned is left as it is. -/
theorem frame (h : Owns m₀ kept m (a ++ b)) : Owns m (kept ++ a) m b := by
  obtain ⟨-, hb, hab⟩ := List.nodup_append'.mp h.nodup
  have hmem {x : ℕ} (hx : x ∈ b) : x ∈ a ++ b := List.mem_append_right a hx
  refine ⟨hb, fun x hx => h.allocated x (hmem hx), fun x hx hkept => ?_, fun x hx => ?_,
    fun _ _ => rfl⟩
  · rcases List.mem_append.mp hkept with hold | ha
    · exact h.disjoint x (hmem hx) hold
    · exact hab ha hx
  · rcases List.mem_append.mp hx with hold | ha
    · exact h.below x hold
    · exact lt_frontier (h.allocated x (List.mem_append_left b ha))

/-- What was left as it was is owned again. -/
theorem unframe (h : Owns m₀ kept m (a ++ b)) (h' : Owns m (kept ++ a) m' c) :
    Owns m₀ kept m' (a ++ c) := by
  obtain ⟨ha, -, -⟩ := List.nodup_append'.mp h.nodup
  have hleft {x : ℕ} (hx : x ∈ a) : x ∈ a ++ b := List.mem_append_left b hx
  have hold {x : ℕ} (hx : x ∈ kept) : x ∈ kept ++ a := List.mem_append_left a hx
  refine ⟨List.nodup_append'.mpr ⟨ha, h'.nodup, fun x hx hc => ?_⟩, fun x hx => ?_,
    fun x hx => ?_, fun x hx => h'.below x (hold hx), fun x hx => ?_⟩
  · exact h'.disjoint x hc (List.mem_append_right kept hx)
  · rcases List.mem_append.mp hx with hx | hx
    · rw [h'.cells x (List.mem_append_right kept hx)]
      exact h.allocated x (hleft hx)
    · exact h'.allocated x hx
  · rcases List.mem_append.mp hx with hx | hx
    · exact h.disjoint x (hleft hx)
    · exact fun hkept => h'.disjoint x hx (hold hkept)
  · rw [h'.cells x (hold hx), h.cells x hx]

end Owns

end Memory

end Library

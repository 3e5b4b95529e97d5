/-
# Chains of cells

A singly linked list in memory: a cell holds a pointer to the next one, and a value.  `Chain p l q`
is the part of such a list from the pointer `p` to the pointer `q`, with the address and the value
of each cell on the way.  A chain is cut and joined at any cell (`chain_append_iff`), it is not
concerned with cells at other addresses (`Chain.congr`), and a chain that ends with a null
pointer meets no cell twice (`Chain.nodup`).
-/

import Mathlib.Data.List.Nodup
import Mathlib.Logic.Function.Basic

namespace Library

variable {κ α : Type*}

/-- The chain of `l` leads from a pointer to another one.  A cell is made by `link` from a pointer
and a value. -/
def Chain (link : Option ℕ → α → κ) (cells : ℕ → Option κ) :
    Option ℕ → List (ℕ × α) → Option ℕ → Prop
  | p, [], q => p = q
  | p, (a, x) :: l, q =>
    p = some a ∧ ∃ next, cells a = some (link next x) ∧ Chain link cells next l q

variable {link : Option ℕ → α → κ} {cells cells' : ℕ → Option κ} {p q : Option ℕ} {a : ℕ} {x : α}
  {l l' : List (ℕ × α)}

@[simp] theorem chain_nil_iff : Chain link cells p [] q ↔ p = q := .rfl

theorem chain_cons_iff : Chain link cells p ((a, x) :: l) q ↔
    p = some a ∧ ∃ next, cells a = some (link next x) ∧ Chain link cells next l q := .rfl

/-- A chain is cut where it has passed some of its cells. -/
theorem chain_append_iff : Chain link cells p (l ++ l') q ↔
    ∃ m, Chain link cells p l m ∧ Chain link cells m l' q := by
  induction l generalizing p with
  | nil => simp
  | cons c l ih =>
    obtain ⟨a, x⟩ := c
    rw [List.cons_append, chain_cons_iff]
    simp only [ih]
    constructor
    · rintro ⟨hp, next, hcell, m, hl, hl'⟩
      exact ⟨m, ⟨hp, next, hcell, hl⟩, hl'⟩
    · rintro ⟨m, ⟨hp, next, hcell, hl⟩, hl'⟩
      exact ⟨hp, next, hcell, m, hl, hl'⟩

namespace Chain

/-- What is at other addresses does not matter. -/
theorem congr (h : Chain link cells p l q) (hcells : ∀ a ∈ l.map Prod.fst, cells' a = cells a) :
    Chain link cells' p l q := by
  induction l generalizing p with
  | nil => exact h
  | cons c l ih =>
    obtain ⟨hp, next, hcell, hl⟩ := h
    obtain ⟨hhere, hrest⟩ := List.forall_mem_cons.mp hcells
    exact ⟨hp, next, hhere.trans hcell, ih hl hrest⟩

/-- A cell that is written somewhere else. -/
theorem update {c : Option κ} (h : Chain link cells p l q) (ha : a ∉ l.map Prod.fst) :
    Chain link (Function.update cells a c) p l q :=
  h.congr fun _ hb => Function.update_of_ne (ne_of_mem_of_not_mem hb ha) c cells

/-- Every cell on the way is there. -/
theorem cell_of_mem (h : Chain link cells p l q) (hmem : (a, x) ∈ l) :
    ∃ next, cells a = some (link next x) := by
  induction l generalizing p with
  | nil => cases hmem
  | cons c l ih =>
    obtain ⟨hp, next, hcell, hl⟩ := h
    rcases List.mem_cons.mp hmem with rfl | hmem
    · exact ⟨next, hcell⟩
    · exact ih hl hmem

variable (hlink : Function.Injective2 link)

include hlink

/-- The cells that a pointer leads to, up to a null pointer. -/
theorem unique (h : Chain link cells p l none) (h' : Chain link cells p l' none) : l = l' := by
  induction l generalizing p l' with
  | nil =>
    cases h
    cases l' with
    | nil => rfl
    | cons c l' => cases h'.1
  | cons c l ih =>
    obtain ⟨rfl, next, hcell, hl⟩ := h
    cases l' with
    | nil => cases h'
    | cons c' l' =>
      obtain ⟨a, x⟩ := c
      obtain ⟨a', x'⟩ := c'
      obtain ⟨⟨⟩, next', hcell', hl'⟩ := h'
      obtain ⟨rfl, rfl⟩ := hlink (Option.some.inj (hcell.symm.trans hcell'))
      rw [ih hl hl']

/-- No cell is met twice: from there on the chain would be the same again. -/
theorem nodup (h : Chain link cells p l none) : (l.map Prod.fst).Nodup := by
  induction l generalizing p with
  | nil => exact List.nodup_nil
  | cons c l ih =>
    have hwhole := h
    obtain ⟨rfl, next, -, hl⟩ := h
    refine List.nodup_cons.mpr ⟨fun hmem => ?_, ih hl⟩
    obtain ⟨⟨a, x⟩, hx, rfl⟩ := List.mem_map.mp hmem
    obtain ⟨before, after, rfl⟩ := List.append_of_mem hx
    obtain ⟨m, -, hagain⟩ := chain_append_iff.mp hl
    have hm : m = some c.1 := hagain.1
    subst hm
    have hlength := congrArg List.length (unique hlink hwhole hagain)
    simp only [List.length_cons, List.length_append] at hlength
    omega

end Chain

end Library

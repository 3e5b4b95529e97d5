/-
# Paths of levels that may be unset

A path is a list of levels, each of them set or unset; what it addresses are the levels before the
first that is unset (`levelsSet`).  Two paths of which one is a prefix of the other are `Related`.
Two that differ at no level that both set are related; the converse fails below a level that one of
them leaves unset (`related_and_clash_iff`).
-/

import Mathlib.Data.List.Infix

namespace Library

variable {α : Type*}

/-- The levels before the first that is unset. -/
def levelsSet : List (Option α) → List α
  | some a :: levels => a :: levelsSet levels
  | _ => []

/-- One path is a prefix of the other. -/
def Related (levels levels' : List (Option α)) : Prop :=
  levelsSet levels <+: levelsSet levels' ∨ levelsSet levels' <+: levelsSet levels

/-- The paths differ at a level that both set. -/
def Clash : List (Option α) → List (Option α) → Prop
  | some a :: levels, some b :: levels' => a ≠ b ∨ Clash levels levels'
  | _ :: levels, _ :: levels' => Clash levels levels'
  | _, _ => False

/-- The paths agree down to a level that one of them leaves unset, and differ at one below it that
both set. -/
def ClashBelow : List (Option α) → List (Option α) → Prop
  | some a :: levels, some b :: levels' => a = b ∧ ClashBelow levels levels'
  | _ :: levels, _ :: levels' => Clash levels levels'
  | _, _ => False

instance [DecidableEq α] (levels levels' : List (Option α)) : Decidable (Related levels levels') :=
  inferInstanceAs (Decidable (_ ∨ _))

@[simp] theorem not_clash_nil (levels : List (Option α)) : ¬ Clash [] levels := by
  simp [Clash]

variable {levels levels' : List (Option α)}

theorem related_cons_some {a b : α} :
    Related (some a :: levels) (some b :: levels') ↔ a = b ∧ Related levels levels' := by
  unfold Related
  rw [levelsSet, levelsSet, List.cons_prefix_cons, List.cons_prefix_cons, eq_comm (a := b),
    ← and_or_left]

/-- A path that sets no level is a prefix of every path. -/
theorem related_of_levelsSet_nil (h : levelsSet levels = [] ∨ levelsSet levels' = []) :
    Related levels levels' := by
  rcases h with h | h
  · exact .inl (h ▸ List.nil_prefix)
  · exact .inr (h ▸ List.nil_prefix)

/-- **Paths that differ at no level** that both set are related. -/
theorem related_of_not_clash (h : ¬ Clash levels levels') :
    Related levels levels' := by
  induction levels, levels' using Clash.induct with
  | case1 levels a b levels' ih =>
    obtain ⟨hsame, hbelow⟩ := not_or.mp h
    exact related_cons_some.mpr ⟨not_not.mp hsame, ih hbelow⟩
  | case2 level levels level' levels' hunset ih =>
    refine related_of_levelsSet_nil ?_
    rcases level with _ | a
    · exact .inl rfl
    rcases level' with _ | b
    · exact .inr rfl
    exact (hunset a b rfl rfl).elim
  | case3 levels levels' hsome hcons =>
    refine related_of_levelsSet_nil ?_
    rcases levels with _ | ⟨level, levels⟩
    · exact .inl rfl
    rcases levels' with _ | ⟨level', levels'⟩
    · exact .inr rfl
    exact (hcons level levels level' levels' rfl rfl).elim

/-- **Related paths that differ** at a level that both set do so below one that one of them leaves
unset. -/
theorem related_and_clash_iff :
    Related levels levels' ∧ Clash levels levels' ↔ ClashBelow levels levels' := by
  induction levels, levels' using Clash.induct with
  | case1 levels a b levels' ih =>
    rw [related_cons_some, Clash, ClashBelow, ← ih]
    constructor
    · rintro ⟨⟨hsame, hrelated⟩, hclash⟩
      exact ⟨hsame, hrelated, hclash.resolve_left (not_not.mpr hsame)⟩
    · rintro ⟨hsame, hrelated, hclash⟩
      exact ⟨⟨hsame, hrelated⟩, .inr hclash⟩
  | case2 level levels level' levels' hunset ih =>
    rcases level with _ | a
    · exact and_iff_right (related_of_levelsSet_nil (.inl rfl))
    rcases level' with _ | b
    · exact and_iff_right (related_of_levelsSet_nil (.inr rfl))
    exact (hunset a b rfl rfl).elim
  | case3 levels levels' hsome hcons =>
    rw [Clash.eq_3 levels levels' hsome hcons, ClashBelow.eq_3 levels levels' hsome hcons]
    exact and_iff_right_of_imp False.elim

end Library

/-
# Loops cut off after some number of turns

A loop that is not bounded by a count in the program is a function of a bound on its turns, which
gives nothing when the bound is used up.  `Ends run x` says that the loop ends: from some bound on
its outcome is `x`.  A loop has one outcome at most (`Ends.unique`), and loops that run one after
the other end when each of them does (`Ends.bind`).
-/

import Mathlib.Data.Nat.Notation

namespace Library

variable {α β : Type*} {run : ℕ → Option α} {x y : α}

/-- From some bound on, the run is not cut off and has the outcome `x`. -/
def Ends (run : ℕ → Option α) (x : α) : Prop :=
  ∃ bound, ∀ fuel, bound ≤ fuel → run fuel = some x

namespace Ends

theorem const (x : α) : Ends (fun _ => some x) x :=
  ⟨0, fun _ _ => rfl⟩

theorem unique (h : Ends run x) (h' : Ends run y) : x = y := by
  obtain ⟨bound, hrun⟩ := h
  obtain ⟨bound', hrun'⟩ := h'
  have hx := hrun (max bound bound') (Nat.le_max_left _ _)
  have hy := hrun' (max bound bound') (Nat.le_max_right _ _)
  exact Option.some.inj (hx.symm.trans hy)

/-- What holds of an outcome holds of the one there is. -/
theorem exists_iff (h : Ends run x) {P : α → Prop} : (∃ y, Ends run y ∧ P y) ↔ P x :=
  ⟨fun ⟨_, hy, hP⟩ => hy.unique h ▸ hP, fun hP => ⟨x, h, hP⟩⟩

theorem congr {run' : ℕ → Option α} (hrun : ∀ fuel, run fuel = run' fuel) (h : Ends run' x) :
    Ends run x :=
  funext hrun ▸ h

/-- One turn is taken from the bound. -/
theorem turn {rest : ℕ → Option α} (hturn : ∀ fuel, run (fuel + 1) = rest fuel)
    (h : Ends rest x) : Ends run x := by
  obtain ⟨bound, hrest⟩ := h
  refine ⟨bound + 1, fun fuel hle => ?_⟩
  obtain ⟨fuel, rfl⟩ := Nat.exists_eq_succ_of_ne_zero (Nat.ne_zero_of_lt hle)
  exact (hturn fuel).trans (hrest fuel (Nat.le_of_succ_le_succ hle))

theorem bind {next : α → ℕ → Option β} {z : β} (h : Ends run x) (h' : Ends (next x) z) :
    Ends (fun fuel => (run fuel).bind fun a => next a fuel) z := by
  obtain ⟨bound, hrun⟩ := h
  obtain ⟨bound', hnext⟩ := h'
  refine ⟨max bound bound', fun fuel hle => ?_⟩
  have hfirst := hrun fuel (Nat.le_trans (Nat.le_max_left _ _) hle)
  show (run fuel).bind (fun a => next a fuel) = some z
  rw [hfirst, Option.bind_some]
  exact hnext fuel (Nat.le_trans (Nat.le_max_right _ _) hle)

theorem map (f : α → β) (h : Ends run x) : Ends (fun fuel => (run fuel).map f) (f x) := by
  obtain ⟨bound, hrun⟩ := h
  exact ⟨bound, fun fuel hle => congrArg (Option.map f) (hrun fuel hle)⟩

end Ends

end Library

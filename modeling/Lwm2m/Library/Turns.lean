/-
# Taking turns

Parties take their turns in an order.  A party waits, holds the turn, or has had it; several may
have had theirs and still be busy.  In an orderly state one party at most holds the turn, and none
that waits comes before it.  `TurnStep` is what may happen to the turn: it is handed to the first of
those that wait, it is dropped, or those that wait give up with its holder.  Each step keeps the
state orderly (`Orderly.step`), and whoever gets the turn finds that those before it have had theirs
(`Orderly.passed_of_lt`).
-/

import Mathlib.Order.Lattice

namespace Library

/-- How a party stands to the turn. -/
inductive Turn
  /-- It takes no part. -/
  | apart
  | waits
  | holds
  /-- It has had its turn. -/
  | passed
  deriving DecidableEq, Repr

section

variable {ι α : Type*} [LinearOrder α]

/-- The party waits, and none that waits comes before it. -/
structure IsNext (order : ι → α) (turn : ι → Turn) (i : ι) : Prop where
  waits : turn i = .waits
  le : ∀ j, turn j = .waits → order i ≤ order j

/-- One party at most holds the turn, and none that waits comes before it. -/
structure Orderly (order : ι → α) (turn : ι → Turn) : Prop where
  unique : ∀ i j, turn i = .holds → turn j = .holds → i = j
  ahead : ∀ i j, turn i = .holds → turn j = .waits → order i ≤ order j

/-- What may happen to the turn. -/
inductive TurnStep (order : ι → α) (turn turn' : ι → Turn) : Prop
  | stay (h : turn' = turn)
  | handOver (i next : ι) (holds : turn i = .holds) (next_isNext : IsNext order turn next)
      (passed : turn' i = .passed) (holds' : turn' next = .holds)
      (others : ∀ k, k ≠ i → k ≠ next → turn' k = turn k)
  | drop (i : ι) (holds : turn i = .holds) (passed : turn' i = .passed)
      (others : ∀ k, k ≠ i → turn' k = turn k)
  | giveUp (i : ι) (holds : turn i = .holds) (passed : turn' i = .passed)
      (others : ∀ k, k ≠ i → turn' k = if turn k = .waits then .passed else turn k)

variable {order : ι → α} {turn turn' : ι → Turn}

/-- A state in which one party holds the turn, before all that wait. -/
theorem Orderly.of_holds {i : ι} (hholds : ∀ j, turn j = .holds → j = i)
    (hahead : ∀ j, turn j = .waits → order i ≤ order j) : Orderly order turn where
  unique j k hj hk := (hholds j hj).trans (hholds k hk).symm
  ahead j k hj hk := by
    rw [hholds j hj]
    exact hahead k hk

/-- A state in which none holds the turn. -/
theorem Orderly.of_none (hnone : ∀ i, turn i ≠ .holds) : Orderly order turn where
  unique i _ hi := absurd hi (hnone i)
  ahead i _ hi := absurd hi (hnone i)

/-- Who still waits after a step has waited before it. -/
theorem TurnStep.waits_of_waits (h : TurnStep order turn turn') {j : ι} (hj : turn' j = .waits) :
    turn j = .waits := by
  cases h with
  | stay h => rwa [← h]
  | handOver i next holds next_isNext passed holds' others =>
    by_cases hji : j = i
    · rw [hji, passed] at hj
      cases hj
    · by_cases hjn : j = next
      · rw [hjn]
        exact next_isNext.waits
      · rwa [← others j hji hjn]
  | drop i holds passed others =>
    by_cases hji : j = i
    · rw [hji, passed] at hj
      cases hj
    · rwa [← others j hji]
  | giveUp i holds passed others =>
    by_cases hji : j = i
    · rw [hji, passed] at hj
      cases hj
    · rw [others j hji] at hj
      by_cases hwaits : turn j = .waits
      · exact hwaits
      · rwa [if_neg hwaits] at hj

/-- Who holds the turn after a step held it before, or it was handed over to it. -/
theorem TurnStep.holds_of_holds (h : TurnStep order turn turn') (horderly : Orderly order turn)
    {j : ι} (hj : turn' j = .holds) :
    turn' = turn ∨ IsNext order turn j ∧ ∀ k, turn' k = .holds → k = j := by
  cases h with
  | stay h => exact .inl h
  | handOver i next holds next_isNext passed holds' others =>
    have hnext (k : ι) (hk : turn' k = .holds) : k = next := by
      by_contra hkn
      by_cases hki : k = i
      · rw [hki, passed] at hk
        cases hk
      · rw [others k hki hkn] at hk
        exact hki (horderly.unique k i hk holds)
    obtain rfl := hnext j hj
    exact .inr ⟨next_isNext, hnext⟩
  | drop i holds passed others =>
    by_cases hji : j = i
    · rw [hji, passed] at hj
      cases hj
    · rw [others j hji] at hj
      exact absurd (horderly.unique j i hj holds) hji
  | giveUp i holds passed others =>
    by_cases hji : j = i
    · rw [hji, passed] at hj
      cases hj
    · rw [others j hji] at hj
      split_ifs at hj
      exact absurd (horderly.unique j i hj holds) hji

/-- **A step keeps the state orderly.** -/
theorem Orderly.step (horderly : Orderly order turn) (h : TurnStep order turn turn') :
    Orderly order turn' := by
  by_cases hholds : ∃ j, turn' j = .holds
  · obtain ⟨j, hj⟩ := hholds
    obtain heq | ⟨hnext, hunique⟩ := h.holds_of_holds horderly hj
    · rwa [heq]
    · exact .of_holds hunique fun k hk => hnext.le k (h.waits_of_waits hk)
  · exact .of_none fun i hi => hholds ⟨i, hi⟩

/-- **Whoever gets the turn finds that those before it have had theirs.** -/
theorem Orderly.passed_of_lt (horderly : Orderly order turn) (h : TurnStep order turn turn')
    {j k : ι} (hj : turn j = .waits) (hj' : turn' j = .holds) (hlt : order k < order j)
    (hk : turn' k ≠ .apart) : turn' k = .passed := by
  obtain heq | ⟨hnext, hunique⟩ := h.holds_of_holds horderly hj'
  · rw [heq, hj] at hj'
    cases hj'
  · cases hturn : turn' k with
    | apart => exact absurd hturn hk
    | passed => rfl
    | holds => exact absurd (hunique k hturn ▸ hlt) (lt_irrefl _)
    | waits => exact absurd (hnext.le k (h.waits_of_waits hturn)) (not_le_of_gt hlt)

end

end Library

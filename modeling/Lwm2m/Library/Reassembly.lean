/-
# Collecting numbered pieces in order

A receiver is handed numbered pieces and keeps some of them.  `Collected num
history acc` says what a faithful receiver may hold after the arrivals
`history`: pieces that arrived since the most recent piece numbered 0, in the
order of their arrival, numbered `0, 1, …` without a gap.  A receiver keeps this
relation if it restarts on a piece numbered 0 (`Collected.restart`), extends by
the piece with the next number (`Collected.extend`) and ignores any other piece
(`Collected.ignore`).
-/

import Mathlib.Data.List.Basic

namespace Library

variable {α : Type*} (num : α → ℕ)

/-- `segment` is what arrived since the most recent piece numbered 0, that piece
included. -/
def SinceZero (history segment : List α) : Prop :=
  ∃ older first rest, history = older ++ segment ∧ segment = first :: rest ∧
    num first = 0 ∧ ∀ a ∈ rest, num a ≠ 0

/-- `acc` is a selection, in the order of arrival, of the pieces since the most
recent piece numbered 0, and its numbers are `0, 1, …, acc.length - 1`. -/
def Collected (history acc : List α) : Prop :=
  ∃ segment, SinceZero num history segment ∧ acc.Sublist segment ∧
    acc.map num = List.range acc.length

variable {num} {history acc segment : List α} {a : α}

/-- A piece with a number other than 0 belongs to the running segment. -/
theorem SinceZero.snoc (h : SinceZero num history segment) (ha : num a ≠ 0) :
    SinceZero num (history ++ [a]) (segment ++ [a]) := by
  obtain ⟨older, first, rest, rfl, rfl, hfirst, hrest⟩ := h
  refine ⟨older, first, rest ++ [a], by simp, by simp, hfirst, fun x hx => ?_⟩
  rcases List.mem_append.mp hx with hx | hx
  · exact hrest x hx
  · rw [List.mem_singleton.mp hx]
    exact ha

/-- A piece numbered 0 opens a new segment. -/
theorem SinceZero.open (ha : num a = 0) : SinceZero num (history ++ [a]) [a] :=
  ⟨history, a, [], rfl, rfl, ha, fun _ hx => absurd hx List.not_mem_nil⟩

/-- **Restarting.**  After a piece numbered 0 that piece alone is collected. -/
theorem Collected.restart (ha : num a = 0) : Collected num (history ++ [a]) [a] :=
  ⟨[a], .open ha, List.Sublist.refl _, by simp [ha, List.range_succ]⟩

/-- **Extending.**  The piece with the next number may be appended. -/
theorem Collected.extend (h : Collected num history acc) (hne : acc ≠ [])
    (ha : num a = acc.length) : Collected num (history ++ [a]) (acc ++ [a]) := by
  obtain ⟨segment, hseg, hsub, hnum⟩ := h
  have hpos : 0 < acc.length := List.length_pos_of_ne_nil hne
  refine ⟨segment ++ [a], hseg.snoc (by omega), hsub.append (List.Sublist.refl _), ?_⟩
  rw [List.map_append, hnum, List.length_append, List.length_singleton, List.range_succ]
  simp [ha]

/-- **Ignoring.**  Any piece not numbered 0 may be dropped. -/
theorem Collected.ignore (h : Collected num history acc) (ha : num a ≠ 0) :
    Collected num (history ++ [a]) acc := by
  obtain ⟨segment, hseg, hsub, hnum⟩ := h
  exact ⟨segment ++ [a], hseg.snoc ha, hsub.trans (List.sublist_append_left _ _), hnum⟩

end Library

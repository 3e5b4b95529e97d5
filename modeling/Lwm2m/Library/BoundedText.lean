/-
# Texts written into a buffer of bounded size

A step takes the text that is written so far and appends to it, gives up when its room runs out, or
faults.  `Appends B step out text` says that behind `out` the step appends `text` and nothing else,
and that it does not give up while the result stays below the bound `B`.  Steps that do so
compose.
-/

import Lwm2m.Library.Except
import Mathlib.Data.Nat.Notation

namespace Library

universe u

variable {φ α : Type u}

/-- A step that appends to a text, gives up or faults. -/
abbrev TextStep (φ α : Type u) := List α → OptionT (Except φ) (List α)

/-- What a step that gives up is bound to gives up. -/
theorem bind_eq_pure_iff {β γ : Type u} {x : OptionT (Except φ) β}
    {f : β → OptionT (Except φ) γ} {c : γ} :
    x >>= f = pure c ↔ ∃ b, x = pure b ∧ f b = pure c := by
  constructor
  · intro h
    rcases x with e | _ | b
    · cases h
    · cases h
    · exact ⟨b, rfl, h⟩
  · rintro ⟨b, rfl, h⟩
    exact h

theorem pure_inj {β : Type u} {b b' : β} (h : (pure b : OptionT (Except φ) β) = pure b') :
    b = b' := Option.some.inj (Except.ok.inj h)

/-- Behind the text `out` the step appends `text` and nothing else, and it does so whenever the
result stays below the bound. -/
structure Appends (B : ℕ) (step : TextStep φ α) (out text : List α) : Prop where
  fits : out.length + text.length < B → step out = pure (out ++ text)
  only : ∀ out', step out = pure out' → out' = out ++ text

namespace Appends

variable {B : ℕ} {step step' : TextStep φ α} {out text text' : List α}

/-- No step at all. -/
theorem skip (B : ℕ) (out : List α) :
    Appends B (fun out => (pure out : OptionT (Except φ) (List α))) out [] where
  fits _ := by rw [List.append_nil]
  only out' h := by rw [← pure_inj h, List.append_nil]

/-- One step behind the other. -/
theorem bind (h : Appends B step out text) (h' : Appends B step' (out ++ text) text') :
    Appends B (fun out => step out >>= step') out (text ++ text') where
  fits hout := by
    rw [List.length_append] at hout
    rw [h.fits (by omega), pure_bind, h'.fits (by rw [List.length_append]; omega),
      List.append_assoc]
  only out' hstep := by
    obtain ⟨mid, hmid, hout'⟩ := bind_eq_pure_iff.mp hstep
    rw [h.only mid hmid] at hout'
    rw [h'.only out' hout', List.append_assoc]

/-- A step that is made under a condition. -/
theorem ite {p : Prop} [Decidable p] (h : p → Appends B step out text)
    (h' : ¬ p → Appends B step' out text') :
    Appends B (fun out => if p then step out else step' out) out (if p then text else text') := by
  by_cases hp : p
  · simp only [if_pos hp]
    exact h hp
  · simp only [if_neg hp]
    exact h' hp

theorem congr (h : Appends B step out text) (heq : text = text') : Appends B step out text' :=
  heq ▸ h

end Appends

end Library

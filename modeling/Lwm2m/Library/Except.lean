/-
# Sequencing computations that can fail

A partial step is a value of `Except φ α`.  These lemmas take a sequence of such
steps apart: forwards when the first step is known, backwards (`bind_eq_ok_iff`)
when the whole is known to succeed.  `Ensures` is the specification of a step that may
fail, by what its values satisfy and what its failures satisfy, with a rule for
each way of making a step.  `Agrees` compares two steps: they fail alike, or succeed with values
that are related.
-/

import Mathlib.Tactic.SplitIfs

namespace Library

universe u v

variable {φ : Type u} {α β : Type v}

@[simp] theorem ok_bind (a : α) (f : α → Except φ β) : (Except.ok a >>= f) = f a := rfl

@[simp] theorem error_bind (e : φ) (f : α → Except φ β) :
    ((Except.error e : Except φ α) >>= f) = .error e := rfl

@[simp] theorem pure_eq_ok (a : α) : (pure a : Except φ α) = .ok a := rfl

variable {x : Except φ α} {f : α → Except φ β} {e : φ} {a : α}

/-- A sequence succeeds exactly when both of its steps do. -/
theorem bind_eq_ok_iff {b : β} :
    (x >>= f) = .ok b ↔ ∃ a, x = .ok a ∧ f a = .ok b := by
  cases x with
  | error e => simp
  | ok a => simp

/-- An image of an outcome. -/
theorem map_eq_ok_iff {f : α → β} {b : β} :
    f <$> x = .ok b ↔ ∃ a, x = .ok a ∧ f a = b := by
  rw [map_eq_pure_bind, bind_eq_ok_iff]
  simp

/-- Two continuations that agree on the result. -/
theorem bind_congr_ok {g : α → Except φ β} (h : ∀ a, x = .ok a → f a = g a) :
    x >>= f = x >>= g := by
  cases x with
  | error e => rfl
  | ok a => exact h a rfl

/-- A sequence fails exactly when one of its steps does. -/
theorem bind_eq_error_iff :
    (x >>= f) = .error e ↔ x = .error e ∨ ∃ a, x = .ok a ∧ f a = .error e := by
  cases x with
  | error e' => simp
  | ok a => simp

/-- The failure of a step is forgotten. -/
theorem toOption_eq_some_iff : x.toOption = some a ↔ x = .ok a := by
  cases x with
  | error e => simp [Except.toOption]
  | ok a => simp [Except.toOption]

/-! ### Specifications -/

/-- The values of the computation satisfy `Q` and its failures satisfy `F`. -/
def Ensures (x : Except φ α) (Q : α → Prop) (F : φ → Prop) : Prop :=
  (∀ a, x = .ok a → Q a) ∧ ∀ e, x = .error e → F e

namespace Ensures

variable {x : Except φ α} {f : α → Except φ β} {Q Q' : α → Prop} {R : β → Prop} {F : φ → Prop}

@[simp] theorem ok_iff : Ensures (.ok a : Except φ α) Q F ↔ Q a := by
  simp [Ensures]

@[simp] theorem pure_iff : Ensures (pure a : Except φ α) Q F ↔ Q a := ok_iff

@[simp] theorem error_iff : Ensures (.error e : Except φ α) Q F ↔ F e := by
  simp [Ensures]

@[simp] theorem throw_iff : Ensures (throw e : Except φ α) Q F ↔ F e := error_iff

/-- The rule of sequencing. -/
theorem bind (hx : Ensures x Q F) (hf : ∀ a, Q a → Ensures (f a) R F) :
    Ensures (x >>= f) R F := by
  cases x with
  | ok a => exact hf a (ok_iff.mp hx)
  | error e => exact error_iff.mpr (error_iff.mp hx)

/-- The rule of a choice. -/
theorem ite {p : Prop} [Decidable p] {y : Except φ α} (hx : p → Ensures x Q F)
    (hy : ¬ p → Ensures y Q F) : Ensures (if p then x else y) Q F := by
  split_ifs with h
  · exact hx h
  · exact hy h

/-- A weaker specification. -/
theorem mono {F' : φ → Prop} (h : Ensures x Q F) (hQ : ∀ a, Q a → Q' a) (hF : ∀ e, F e → F' e) :
    Ensures x Q' F' :=
  ⟨fun a ha => hQ a (h.1 a ha), fun e he => hF e (h.2 e he)⟩

end Ensures

/-! ### Two computations -/

/-- The computations fail alike, or both succeed with values that `R` relates. -/
def Agrees {α β : Type*} (R : α → β → Prop) : Except φ α → Except φ β → Prop
  | .ok a, .ok b => R a b
  | .error e, .error e' => e = e'
  | _, _ => False

namespace Agrees

variable {α' β' : Type v} {R : α → α' → Prop} {S : β → β' → Prop} {x : Except φ α}
  {y : Except φ α'} {f : α → Except φ β} {g : α' → Except φ β'}

/-- The rule of sequencing. -/
theorem bind (hx : Agrees R x y) (hf : ∀ a b, R a b → Agrees S (f a) (g b)) :
    Agrees S (x >>= f) (y >>= g) := by
  cases x <;> cases y
  · exact hx
  · exact hx.elim
  · exact hx.elim
  · exact hf _ _ hx

/-- The same computation on both sides. -/
theorem refl (x : Except φ α) : Agrees Eq x x := by
  cases x <;> exact rfl

/-- The rule of a choice. -/
theorem ite {p : Prop} [Decidable p] {x' : Except φ α} {y' : Except φ α'}
    (hthen : p → Agrees R x y) (helse : ¬ p → Agrees R x' y') :
    Agrees R (if p then x else x') (if p then y else y') := by
  split_ifs with h
  · exact hthen h
  · exact helse h

/-- What the first computation succeeds with is related to what the second one does. -/
theorem exists_ok (h : Agrees R x y) (hx : x = .ok a) : ∃ b, y = .ok b ∧ R a b := by
  subst hx
  cases y with
  | error e => exact h.elim
  | ok b => exact ⟨b, rfl, h⟩

end Agrees

end Library

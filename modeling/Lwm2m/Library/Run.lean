/-
# Runs of a step function

A system that takes one event at a time is a function from a state and an event
to the next state, which may fail.  Two ways of reasoning about its runs are
packaged here once.  `invariant_of_history` carries an invariant that may speak
of the events consumed so far; it also shows that no event of the run fails.
`Run` is the relational form, for systems whose next state is not determined by
the event, with `Run.invariant` for the invariants that every step keeps.
`EveryStep` says that the steps of a sequence of events have a property, each in the state that it
starts from.
-/

import Mathlib.Data.List.Induction

namespace Library

variable {σ ε φ : Type*}

/-- **An invariant over histories.**  An invariant of the consumed events and
the state, which holds at the start and which every event preserves without
failing, holds after every list of events, and no such list fails. -/
theorem invariant_of_history {step : σ → ε → Except φ σ} {s₀ : σ} {I : List ε → σ → Prop}
    (start : I [] s₀)
    (preserve : ∀ history s e, I history s → ∃ s', step s e = .ok s' ∧ I (history ++ [e]) s')
    (events : List ε) : ∃ s, events.foldlM step s₀ = .ok s ∧ I events s := by
  induction events using List.reverseRecOn with
  | nil => exact ⟨s₀, rfl, start⟩
  | append_singleton history e ih =>
    obtain ⟨s, hrun, hinv⟩ := ih
    obtain ⟨s', hstep, hinv'⟩ := preserve history s e hinv
    refine ⟨s', ?_, hinv'⟩
    rw [List.foldlM_append, hrun]
    show List.foldlM step s [e] = _
    rw [List.foldlM_cons, hstep]
    rfl

/-- A run of a step relation from one state to another, with the events taken. -/
inductive Run (Step : σ → ε → σ → Prop) : σ → List ε → σ → Prop
  | nil (s : σ) : Run Step s [] s
  | cons {s s' s'' : σ} {e : ε} {events : List ε} :
      Step s e s' → Run Step s' events s'' → Run Step s (e :: events) s''

variable {events : List ε} {I : σ → Prop} {Step : σ → ε → σ → Prop} {P : σ → ε → Prop} {s : σ}

namespace Run

variable {Step : σ → ε → σ → Prop} {I : σ → Prop} {s s' s'' : σ}

/-- Runs compose. -/
theorem append {l₁ l₂ : List ε} (h₁ : Run Step s l₁ s') (h₂ : Run Step s' l₂ s'') :
    Run Step s (l₁ ++ l₂) s'' := by
  induction h₁ with
  | nil => exact h₂
  | cons hstep _ ih => exact .cons hstep (ih h₂)

/-- **What every step preserves holds along every run.** -/
theorem invariant (preserve : ∀ s e s', I s → Step s e s' → I s') (run : Run Step s events s')
    (start : I s) : I s' := by
  induction run with
  | nil => exact start
  | cons hstep _ ih => exact ih (preserve _ _ _ start hstep)

end Run

/-- Every event of a sequence has a property, in the states that the events before it lead to. -/
def EveryStep (Step : σ → ε → σ → Prop) (P : σ → ε → Prop) : σ → List ε → Prop
  | _, [] => True
  | s, e :: events => P s e ∧ ∀ s', Step s e s' → EveryStep Step P s' events

/-- **Where an invariant gives one property from another**, and a step with the one keeps the
invariant, the one along a sequence of events gives the other along it. -/
theorem EveryStep.imp {Q : σ → ε → Prop} (gives : ∀ s e, I s → P s e → Q s e)
    (preserve : ∀ s e s', I s → P s e → Step s e s' → I s') (h : EveryStep Step P s events)
    (start : I s) : EveryStep Step Q s events := by
  induction events generalizing s with
  | nil => trivial
  | cons e events ih =>
    exact ⟨gives s e start h.1,
      fun s' hstep => ih (h.2 s' hstep) (preserve s e s' start h.1 hstep)⟩

/-- **What every step with a property preserves holds along every run** whose steps have it. -/
theorem Run.invariant_of_everyStep (preserve : ∀ s e s', I s → P s e → Step s e s' → I s') {s' : σ}
    (run : Run Step s events s') (h : EveryStep Step P s events) (start : I s) : I s' := by
  induction run with
  | nil => exact start
  | cons hstep _ ih => exact ih (h.2 _ hstep) (preserve _ _ _ start h.1 hstep)

end Library

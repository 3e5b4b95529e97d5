/-
# Machines side by side

A list of machines takes an event: each machine moves by itself, gives outputs and may
stop, in which case it leaves the list.  Every machine has a key that no other one has and
that its moves keep.  `SideBySide.track` follows one machine through an event by its key,
and `exists_tracked` through a run: what the list does there, seen at one key, is
a run of that machine alone.
-/

import Lwm2m.Library.Run
import Mathlib.Data.List.Forall2
import Mathlib.Data.List.Nodup

namespace Library

variable {α ω κ ε : Type*}

/-- The machines `l` move as `Move` says; `l'` are those that still run, and `out` are the
outputs in the order of the machines. -/
def SideBySide (Move : α → Option α × List ω → Prop) (l l' : List α) (out : List ω) : Prop :=
  ∃ results, List.Forall₂ Move l results ∧ l' = results.filterMap Prod.fst ∧
    out = results.flatMap Prod.snd

namespace SideBySide

variable {Move : α → Option α × List ω → Prop} {key : α → κ} {l l' : List α} {out : List ω}

theorem nil : SideBySide Move [] [] [] := ⟨[], .nil, rfl, rfl⟩

/-- Machines in front of others. -/
theorem append {l₁ l₂ l₁' l₂' : List α} {out₁ out₂ : List ω} (h₁ : SideBySide Move l₁ l₁' out₁)
    (h₂ : SideBySide Move l₂ l₂' out₂) :
    SideBySide Move (l₁ ++ l₂) (l₁' ++ l₂') (out₁ ++ out₂) := by
  obtain ⟨results₁, hmoves₁, rfl, rfl⟩ := h₁
  obtain ⟨results₂, hmoves₂, rfl, rfl⟩ := h₂
  refine ⟨results₁ ++ results₂, List.rel_append hmoves₁ hmoves₂, ?_, ?_⟩
  · rw [List.filterMap_append]
  · rw [List.flatMap_append]

variable {x : α} {r : Option α × List ω}

/-- One machine. -/
theorem singleton (h : Move x r) :
    SideBySide Move [x] r.1.toList r.2 := by
  refine ⟨[r], .cons h .nil, ?_, ?_⟩
  · rcases r with ⟨_ | y, o⟩ <;> rfl
  · rw [List.flatMap_singleton]

/-- Machines that do nothing. -/
theorem idle (hidle : ∀ x ∈ l, Move x (some x, [])) : SideBySide Move l l [] := by
  induction l with
  | nil => exact nil
  | cons x l ih =>
    obtain ⟨hx, hl⟩ := List.forall_mem_cons.mp hidle
    exact append (singleton hx) (ih hl)

/-- One machine moves and the others do nothing. -/
theorem one {before after : List α} (hbefore : ∀ y ∈ before, Move y (some y, [])) (h : Move x r)
    (hafter : ∀ y ∈ after, Move y (some y, [])) :
    SideBySide Move (before ++ x :: after) (before ++ (r.1.toList ++ after)) r.2 := by
  have happend := append (idle hbefore) (append (singleton h) (idle hafter))
  rwa [List.nil_append, List.append_nil] at happend

/-- A machine that runs after the event ran before it. -/
theorem exists_of_mem (h : SideBySide Move l l' out) {y : α} (hy : y ∈ l') :
    ∃ x ∈ l, ∃ o, Move x (some y, o) := by
  obtain ⟨results, hmoves, rfl, -⟩ := h
  induction hmoves with
  | nil => cases hy
  | @cons x r l results hmove _ ih =>
    rcases r with ⟨_ | z, o⟩
    · obtain ⟨x', hx', hmove'⟩ := ih hy
      exact ⟨x', List.mem_cons_of_mem _ hx', hmove'⟩
    · rcases List.mem_cons.mp hy with rfl | hy
      · exact ⟨x, List.mem_cons_self, o, hmove⟩
      · obtain ⟨x', hx', hmove'⟩ := ih hy
        exact ⟨x', List.mem_cons_of_mem _ hx', hmove'⟩

/-- An output is one of a machine. -/
theorem exists_of_mem_out (h : SideBySide Move l l' out) {o : ω} (ho : o ∈ out) :
    ∃ x ∈ l, ∃ r, Move x r ∧ o ∈ r.2 := by
  obtain ⟨results, hmoves, -, rfl⟩ := h
  obtain ⟨r, hr, ho⟩ := List.mem_flatMap.mp ho
  obtain ⟨i, hi, rfl⟩ := List.getElem_of_mem hr
  have hlength := hmoves.length_eq
  exact ⟨l[i], List.getElem_mem _, _, List.forall₂_iff_get.mp hmoves |>.2 i (by omega) hi, ho⟩

section key

variable (hkey : ∀ x y o, Move x (some y, o) → key y = key x)
include hkey

/-- The keys afterwards are among the keys before, in their order. -/
theorem sublist_keys (h : SideBySide Move l l' out) : (l'.map key).Sublist (l.map key) := by
  obtain ⟨results, hmoves, rfl, -⟩ := h
  induction hmoves with
  | nil => exact .slnil
  | @cons x r l results hmove _ ih =>
    rcases r with ⟨_ | y, o⟩
    · exact ih.cons _
    · show (key y :: (results.filterMap Prod.fst).map key).Sublist (key x :: l.map key)
      rw [hkey _ _ _ hmove]
      exact ih.cons_cons _

/-- **One machine through an event.**  What the event does at the key of a machine is one
move of it: the machine with the key afterwards is the one it becomes, and the outputs that
only this machine can give are those of the move. -/
theorem track (h : SideBySide Move l l' out) (hnodup : (l.map key).Nodup) (hx : x ∈ l) :
    ∃ r, Move x r ∧ (∀ y, (y ∈ l' ∧ key y = key x) ↔ r.1 = some y) ∧
      ∀ p : ω → Bool, (∀ x' ∈ l, key x' ≠ key x → ∀ r', Move x' r' → ∀ o ∈ r'.2, p o = false) →
        out.filter p = r.2.filter p := by
  obtain ⟨before, after, rfl⟩ := List.append_of_mem hx
  obtain ⟨results, hmoves, rfl, rfl⟩ := h
  obtain ⟨r₁, rest, hbefore, hrest, rfl⟩ : ∃ r₁ r₂, List.Forall₂ Move before r₁ ∧
      List.Forall₂ Move (x :: after) r₂ ∧ results = r₁ ++ r₂ := by
    refine ⟨results.take before.length, results.drop before.length, ?_, ?_, ?_⟩
    · have htake := List.forall₂_take before.length hmoves
      rwa [List.take_left] at htake
    · have hdrop := List.forall₂_drop before.length hmoves
      rwa [List.drop_left] at hdrop
    · rw [List.take_append_drop]
  cases hrest with
  | @cons _ r _ r₂ hmove hafter =>
    have hother {l₀ : List α} {results : List (Option α × List ω)}
        (hmoves : List.Forall₂ Move l₀ results) {y : α} (hy : y ∈ results.filterMap Prod.fst) :
        ∃ x' ∈ l₀, key y = key x' := by
      obtain ⟨x', hx', o, hmove'⟩ := exists_of_mem ⟨results, hmoves, rfl, rfl⟩ hy
      exact ⟨x', hx', hkey _ _ _ hmove'⟩
    rw [List.map_append, List.map_cons, List.nodup_append, List.nodup_cons] at hnodup
    obtain ⟨-, ⟨hnotAfter, -⟩, hdisjoint⟩ := hnodup
    have hneBefore {x' : α} (hx' : x' ∈ before) : key x' ≠ key x :=
      hdisjoint _ (List.mem_map_of_mem hx') _ List.mem_cons_self
    have hneAfter {x' : α} (hx' : x' ∈ after) : key x' ≠ key x :=
      fun heq => hnotAfter (heq ▸ List.mem_map_of_mem hx')
    refine ⟨r, hmove, fun y => ?_, fun p hp => ?_⟩
    · rw [List.filterMap_append, List.mem_append, List.filterMap_cons]
      constructor
      · rintro ⟨hy | hy, heq⟩
        · obtain ⟨x', hx', hyx⟩ := hother hbefore hy
          exact absurd (hyx.symm.trans heq) (hneBefore hx')
        · rcases hr : r.1 with _ | z
          · rw [hr] at hy
            obtain ⟨x', hx', hyx⟩ := hother hafter hy
            exact absurd (hyx.symm.trans heq) (hneAfter hx')
          · rw [hr] at hy
            rcases List.mem_cons.mp hy with rfl | hy
            · rfl
            · obtain ⟨x', hx', hyx⟩ := hother hafter hy
              exact absurd (hyx.symm.trans heq) (hneAfter hx')
      · intro hr
        rcases r with ⟨_ | z, o⟩
        · cases hr
        · obtain rfl := Option.some.inj hr
          exact ⟨.inr List.mem_cons_self, hkey _ _ _ hmove⟩
    · have hnone {l₀ : List α} {results : List (Option α × List ω)}
          (hmoves : List.Forall₂ Move l₀ results)
          (hl₀ : ∀ x' ∈ l₀, x' ∈ before ++ x :: after ∧ key x' ≠ key x) :
          (results.flatMap Prod.snd).filter p = [] := by
        refine List.filter_eq_nil_iff.mpr fun o ho => ?_
        obtain ⟨x', hx', r', hmove', ho'⟩ := exists_of_mem_out ⟨results, hmoves, rfl, rfl⟩ ho
        obtain ⟨hmem, hne⟩ := hl₀ x' hx'
        rw [hp x' hmem hne r' hmove' o ho']
        exact Bool.false_ne_true
      rw [List.flatMap_append, List.flatMap_cons, List.filter_append, List.filter_append,
        hnone hbefore fun x' hx' => ⟨List.mem_append_left _ hx', hneBefore hx'⟩,
        hnone hafter fun x' hx' => ⟨List.mem_append_right _ (List.mem_cons_of_mem _ hx'),
          hneAfter hx'⟩, List.nil_append, List.append_nil]

end key

end SideBySide

/-! ### Runs -/

/-- One machine alone through an event: it moves as long as it runs. -/
def Alone (Move : ε → α → Option α × List ω → Prop) : Option α → ε × List ω → Option α → Prop
  | some x, e, x' => Move e.1 x (x', e.2)
  | none, e, x' => x' = none ∧ e.2 = []

/-- The machine of the list with the key, if there is one. -/
def HasAt (key : α → κ) (k : κ) (l : List α) (x : Option α) : Prop :=
  ∀ y, (y ∈ l ∧ key y = k) ↔ x = some y

/-- The outputs of a run. -/
def outputs (events : List (ε × List ω)) : List ω := events.flatMap Prod.snd

/-- The steps of a list of machines, with the invariant under which they are machines side
by side; the outputs selected by `p` are those that only the machine with key `k` gives. -/
structure Machines (Move : ε → α → Option α × List ω → Prop) (key : α → κ)
    (Step : List α → ε × List ω → List α → Prop) (I : List α → Prop) (k : κ) (p : ω → Bool) :
    Prop where
  keeps : ∀ e x y o, Move e x (some y, o) → key y = key x
  nodup : ∀ l, I l → (l.map key).Nodup
  moves : ∀ l e l', I l → Step l e l' → SideBySide (Move e.1) l l' e.2
  invariant : ∀ l e l', I l → Step l e l' → I l'
  others : ∀ l, I l → ∀ x ∈ l, key x ≠ k → ∀ e r, Move e x r → ∀ o ∈ r.2, p o = false

namespace Machines

variable {Move : ε → α → Option α × List ω → Prop} {key : α → κ}
  {Step : List α → ε × List ω → List α → Prop} {I : List α → Prop} {k : κ} {p : ω → Bool}

variable {l l' : List α} {x : Option α}

/-- The machine with the key through one step. -/
theorem alone (h : Machines Move key Step I k p) {e : ε × List ω} (hl : I l) (hstep : Step l e l')
    (hx : HasAt key k l x) :
    ∃ out x', Alone Move x (e.1, out) x' ∧ HasAt key k l' x' ∧ e.2.filter p = out.filter p := by
  have hmoves := h.moves l e l' hl hstep
  cases x with
  | some x =>
    obtain ⟨hmem, rfl⟩ := (hx x).mpr rfl
    obtain ⟨r, hmove, hat, hout⟩ := hmoves.track (h.keeps e.1) (h.nodup l hl) hmem
    exact ⟨r.2, r.1, hmove, hat, hout p fun x' hx' hne r' hr' => h.others l hl x' hx' hne e.1 r' hr'⟩
  | none =>
    have hne {x : α} (hmem : x ∈ l) : key x ≠ k :=
      fun heq => Option.some_ne_none x ((hx x).mp ⟨hmem, heq⟩).symm
    refine ⟨[], none, ⟨rfl, rfl⟩, fun y => ⟨?_, fun hy => by cases hy⟩, ?_⟩
    · rintro ⟨hy, heq⟩
      obtain ⟨x, hxmem, o, hmove⟩ := hmoves.exists_of_mem hy
      exact absurd ((h.keeps _ _ _ _ hmove).symm.trans heq) (hne hxmem)
    · refine List.filter_eq_nil_iff.mpr fun o ho => ?_
      obtain ⟨x, hxmem, r, hmove, ho⟩ := hmoves.exists_of_mem_out ho
      rw [h.others l hl x hxmem (hne hxmem) e.1 r hmove o ho]
      exact Bool.false_ne_true

/-- **One machine through a run.**  Seen at one key, a run of the list is a run of the
machine with that key alone: with the same events, and with the same outputs among those that only
this machine gives. -/
theorem exists_tracked (h : Machines Move key Step I k p) {events : List (ε × List ω)} (hl : I l)
    (hrun : Run Step l events l') (hx : HasAt key k l x) :
    ∃ own x', Run (Alone Move) x own x' ∧ HasAt key k l' x' ∧
      own.map Prod.fst = events.map Prod.fst ∧
      (outputs events).filter p = (outputs own).filter p := by
  induction hrun generalizing x with
  | nil => exact ⟨[], x, .nil x, hx, rfl, rfl⟩
  | @cons l l₁ l' e events hstep _ ih =>
    obtain ⟨out, x₁, halone, hx₁, hout⟩ := h.alone hl hstep hx
    obtain ⟨own, x', hrun', hx', hevents, houtputs⟩ := ih (h.invariant _ _ _ hl hstep) hx₁
    refine ⟨(e.1, out) :: own, x', .cons halone hrun', hx', ?_, ?_⟩
    · rw [List.map_cons, List.map_cons, hevents]
    · unfold outputs at *
      rw [List.flatMap_cons, List.flatMap_cons, List.filter_append, List.filter_append, hout,
        houtputs]

end Machines

/-- **What the outputs of a machine cost.**  When a machine pays for each of the selected
outputs out of its potential, a run gives at most as many of them as the potential drops. -/
theorem countP_outputs_le {Move : ε → α → Option α × List ω → Prop} {p : ω → Bool}
    {potential : Option α → ℕ}
    (hpays : ∀ e x r, Move e x r → r.2.countP p + potential r.1 ≤ potential (some x))
    {x x' : Option α} {own : List (ε × List ω)} (hrun : Run (Alone Move) x own x') :
    (outputs own).countP p + potential x' ≤ potential x := by
  induction hrun with
  | nil => simp [outputs]
  | @cons x x₁ x' e own hstep _ ih =>
    unfold outputs at *
    rw [List.flatMap_cons, List.countP_append]
    cases x with
    | none =>
      obtain ⟨rfl, hout⟩ := hstep
      rw [hout, List.countP_nil]
      omega
    | some x =>
      have hpaid := hpays _ _ _ hstep
      dsimp only at hpaid
      omega

end Library

/-
# A pointer into a list

A C pointer to an element of a linked list is the split of the list at that
element.  `Focus.set` writes through the pointer and `Focus.unlink` takes the
element out; `focusFirst` is the search loop that stops at the first element with
a property, and `focusFirst_eq_some_iff` says what the pointer it returns is.
-/

import Mathlib.Data.List.Basic
import Mathlib.Data.List.Forall2

namespace Library

/-- A list split at one of its elements. -/
structure Focus (α : Type*) where
  before : List α
  here : α
  after : List α
  deriving DecidableEq, Repr

namespace Focus

variable {α : Type*}

/-- The list pointed into, with `x` in place of the element. -/
def set (f : Focus α) (x : α) : List α := f.before ++ x :: f.after

/-- The list pointed into. -/
def list (f : Focus α) : List α := f.set f.here

/-- The list without the element. -/
def unlink (f : Focus α) : List α := f.before ++ f.after

/-- The same element, with `x` in front of the list. -/
def push (x : α) (f : Focus α) : Focus α := { f with before := x :: f.before }

@[simp] theorem mem_set {f : Focus α} {x y : α} :
    y ∈ f.set x ↔ y = x ∨ y ∈ f.unlink := by
  simp [set, unlink]
  tauto

theorem mem_list {f : Focus α} {y : α} : y ∈ f.list ↔ y = f.here ∨ y ∈ f.unlink := mem_set

theorem here_mem_list (f : Focus α) : f.here ∈ f.list := mem_list.mpr (.inl rfl)

theorem set_perm (f : Focus α) (x : α) : (f.set x).Perm (x :: f.unlink) := List.perm_middle

/-- What the elements hold, with that of one of them in front. -/
theorem flatMap_set_perm {β : Type*} (g : α → List β) (f : Focus α) (x : α) :
    ((f.set x).flatMap g).Perm (g x ++ f.unlink.flatMap g) :=
  (f.set_perm x).flatMap_right g

/-- In a list without duplicates the element is not one of the others. -/
theorem here_not_mem_unlink (f : Focus α) (h : f.list.Nodup) : f.here ∉ f.unlink := by
  exact (List.nodup_cons.mp ((f.set_perm f.here).nodup_iff.mp h)).1

theorem filter_unlink_of_not {f : Focus α} {p : α → Bool} (h : ¬ p f.here) :
    f.unlink.filter p = f.list.filter p := by
  simp [unlink, list, set, h]

/-- A write leaves the list as it was exactly when it writes what is there. -/
theorem set_eq_list_iff {f : Focus α} {x : α} : f.set x = f.list ↔ x = f.here := by
  simp [set, list]

/-- A list with a new element in front is another list. -/
theorem new_set_ne (x y : α) (l : List α) : (⟨[], y, l⟩ : Focus α).set x ≠ l :=
  List.cons_ne_self x l

/-- Writing an element outside a selection, in place of another one outside it, does
not change the selection. -/
theorem filter_set_of_not {f : Focus α} {p : α → Bool} {x : α} (hx : ¬ p x) (h : ¬ p f.here) :
    (f.set x).filter p = f.list.filter p := by
  simp [list, set, hx, h]

/-- What relates the list to the list behind a write relates the elements that are read and written,
and each of the others to itself. -/
theorem forall₂_set_iff {R : α → α → Prop} {f : Focus α} {x : α} :
    List.Forall₂ R f.list (f.set x) ↔ R f.here x ∧ ∀ y ∈ f.unlink, R y y := by
  constructor
  · intro h
    have hbefore := List.forall₂_take f.before.length h
    have hrest := List.forall₂_drop f.before.length h
    simp only [list, set, List.take_left, List.drop_left] at hbefore hrest
    obtain ⟨hhere, hafter⟩ := List.forall₂_cons.mp hrest
    refine ⟨hhere, fun y hy => ?_⟩
    rcases List.mem_append.mp hy with hy | hy
    · exact List.forall₂_same.mp hbefore y hy
    · exact List.forall₂_same.mp hafter y hy
  · rintro ⟨hhere, hothers⟩
    have hsame (rest : List α) (hsub : rest ⊆ f.unlink) : List.Forall₂ R rest rest :=
      List.forall₂_same.mpr fun y hy => hothers y (hsub hy)
    exact List.rel_append (hsame _ (List.subset_append_left _ _))
      (.cons hhere (hsame _ (List.subset_append_right _ _)))

/-- The pointer into the list of the images. -/
def map {β : Type*} (g : α → β) (f : Focus α) : Focus β :=
  ⟨f.before.map g, g f.here, f.after.map g⟩

section map

variable {β : Type*} (g : α → β) (f : Focus α)

@[simp] theorem map_here : (f.map g).here = g f.here := rfl

@[simp] theorem map_unlink : (f.map g).unlink = f.unlink.map g := by
  simp [map, unlink]

theorem map_set (x : α) : (f.map g).set (g x) = (f.set x).map g := by
  simp [map, set]

end map

end Focus

variable {α : Type*} {p : α → Bool}

/-- The first element with the property `p`. -/
def focusFirst (p : α → Bool) : List α → Option (Focus α)
  | [] => none
  | x :: rest => if p x then some ⟨[], x, rest⟩ else (focusFirst p rest).map (Focus.push x)

/-- **The pointer a search returns** is into the list searched, at an element with the
property, and no element before it has the property. -/
theorem focusFirst_eq_some_iff {l : List α} {f : Focus α} :
    focusFirst p l = some f ↔ f.list = l ∧ p f.here ∧ ∀ x ∈ f.before, ¬ p x := by
  induction l generalizing f with
  | nil => simp [focusFirst, Focus.list, Focus.set]
  | cons x rest ih =>
    unfold focusFirst
    split_ifs with hx
    · constructor
      · rintro ⟨⟩
        exact ⟨rfl, hx, by simp⟩
      · rintro ⟨hlist, hhere, hbefore⟩
        rcases f with ⟨_ | ⟨y, before⟩, here, after⟩
        · simp only [Focus.list, Focus.set, List.nil_append, List.cons.injEq] at hlist
          rw [hlist.1, hlist.2]
        · simp only [Focus.list, Focus.set, List.cons_append, List.cons.injEq] at hlist
          exact absurd (hlist.1 ▸ hx) (hbefore y (by simp))
    · simp only [Option.map_eq_some_iff, ih]
      constructor
      · rintro ⟨g, ⟨hlist, hhere, hbefore⟩, rfl⟩
        refine ⟨by simpa [Focus.push, Focus.list, Focus.set] using hlist, hhere, fun y hy => ?_⟩
        rcases List.mem_cons.mp hy with rfl | hy
        · exact hx
        · exact hbefore y hy
      · rintro ⟨hlist, hhere, hbefore⟩
        rcases f with ⟨_ | ⟨y, before⟩, here, after⟩
        · simp only [Focus.list, Focus.set, List.nil_append, List.cons.injEq] at hlist
          exact absurd (hlist.1 ▸ hhere) hx
        · simp only [Focus.list, Focus.set, List.cons_append, List.cons.injEq] at hlist
          refine ⟨⟨before, here, after⟩, ⟨hlist.2, hhere, fun z hz => ?_⟩, ?_⟩
          · exact hbefore z (List.mem_cons_of_mem _ hz)
          · simp [Focus.push, hlist.1]

/-- A search after a write through the pointer it returned returns the pointer again. -/
theorem focusFirst_set {l : List α} {f : Focus α} (hf : focusFirst p l = some f) {x : α}
    (hx : p x) : focusFirst p (f.set x) = some { f with here := x } := by
  obtain ⟨-, -, hbefore⟩ := focusFirst_eq_some_iff.mp hf
  exact focusFirst_eq_some_iff.mpr ⟨rfl, hx, hbefore⟩

/-- A search finds nothing exactly when no element has the property. -/
theorem focusFirst_eq_none_iff {l : List α} : focusFirst p l = none ↔ ∀ x ∈ l, ¬ p x := by
  induction l with
  | nil => simp [focusFirst]
  | cons x rest ih =>
    unfold focusFirst
    split_ifs with hx
    · simp [hx]
    · simp [ih, hx]

/-- A search in the list of the images. -/
theorem focusFirst_map {β : Type*} (q : β → Bool) (g : α → β) (l : List α) :
    focusFirst q (l.map g) = (focusFirst (fun x => q (g x)) l).map (Focus.map g) := by
  induction l with
  | nil => rfl
  | cons x rest ih =>
    simp only [List.map_cons, focusFirst]
    split_ifs
    · rfl
    · rw [ih, Option.map_map, Option.map_map]
      rfl

/-- A search that succeeds finds what `List.find?` finds. -/
theorem focusFirst_map_here (l : List α) : (focusFirst p l).map Focus.here = l.find? p := by
  induction l with
  | nil => rfl
  | cons x rest ih =>
    unfold focusFirst
    split_ifs with hx
    · simp [hx]
    · rw [List.find?_cons_of_neg (by simpa using hx), ← ih, Option.map_map]
      rfl

end Library

/-
# Pieces behind separators

A list of pieces written one after the other, each behind a separator (`joined`).  When no piece
holds one of the elements that end a piece, the pieces can be read back (`joined_append_inj`);
without that they cannot, since a piece with a separator inside is written as the pieces around it
are (`Split`).  With the separators only between the pieces (`List.intercalate`), two lists are
written one behind the other (`intercalate_append`).
-/

import Mathlib.Algebra.GroupWithZero.Nat
import Mathlib.Data.List.Basic
import Mathlib.Logic.Relation

namespace Library

variable {α : Type*}

/-- The pieces, each behind the separator. -/
def joined (sep : α) (pieces : List (List α)) : List α := pieces.flatMap (sep :: ·)

@[simp] theorem joined_nil (sep : α) : joined sep [] = [] := rfl

@[simp] theorem joined_cons (sep : α) (piece : List α) (pieces : List (List α)) :
    joined sep (piece :: pieces) = sep :: (piece ++ joined sep pieces) := rfl

@[simp] theorem joined_append (sep : α) (pieces pieces' : List (List α)) :
    joined sep (pieces ++ pieces') = joined sep pieces ++ joined sep pieces' :=
  List.flatMap_append

variable {sep a : α} {pieces l l' : List (List α)}

theorem mem_joined (h : a ∈ joined sep pieces) :
    a = sep ∨ ∃ piece ∈ pieces, a ∈ piece := by
  obtain ⟨piece, hpiece, ha⟩ := List.mem_flatMap.mp h
  rcases List.mem_cons.mp ha with rfl | ha
  · exact .inl rfl
  · exact .inr ⟨piece, hpiece, ha⟩

/-- What comes before the first element that stops is read back. -/
theorem append_inj_of_stop {stop : α → Prop} {x x' y y' : List α} (hx : ∀ a ∈ x, ¬ stop a)
    (hx' : ∀ a ∈ x', ¬ stop a) (hy : ∀ a ∈ y.head?, stop a) (hy' : ∀ a ∈ y'.head?, stop a)
    (h : x ++ y = x' ++ y') : x = x' ∧ y = y' := by
  induction x generalizing x' with
  | nil =>
    cases x' with
    | nil => exact ⟨rfl, h⟩
    | cons a x' =>
      rw [List.nil_append, List.cons_append] at h
      exact absurd (hy a (by rw [h]; rfl)) (hx' a List.mem_cons_self)
  | cons a x ih =>
    cases x' with
    | nil =>
      rw [List.nil_append, List.cons_append] at h
      exact absurd (hy' a (by rw [← h]; rfl)) (hx a List.mem_cons_self)
    | cons a' x' =>
      rw [List.cons_append, List.cons_append, List.cons.injEq] at h
      obtain ⟨rfl, htail⟩ := ih (fun b hb => hx b (List.mem_cons_of_mem _ hb))
        (fun b hb => hx' b (List.mem_cons_of_mem _ hb)) h.2
      rw [h.1]
      exact ⟨rfl, htail⟩

/-- **Pieces without a stop in them are read back**, up to a stop that is not the separator. -/
theorem joined_append_inj (stop : α → Prop) {t t' : List α} (hsep : stop sep)
    (hl : ∀ p ∈ l, ∀ a ∈ p, ¬ stop a) (hl' : ∀ p ∈ l', ∀ a ∈ p, ¬ stop a)
    (ht : ∀ a ∈ t.head?, stop a ∧ a ≠ sep) (ht' : ∀ a ∈ t'.head?, stop a ∧ a ≠ sep)
    (h : joined sep l ++ t = joined sep l' ++ t') : l = l' ∧ t = t' := by
  have hrest {pieces : List (List α)} {u : List α} (hu : ∀ a ∈ u.head?, stop a ∧ a ≠ sep) :
      ∀ a ∈ (joined sep pieces ++ u).head?, stop a := by
    cases pieces with
    | nil => exact fun a ha => (hu a ha).1
    | cons piece pieces =>
      rintro a ha
      cases ha
      exact hsep
  induction l generalizing l' with
  | nil =>
    cases l' with
    | nil => exact ⟨rfl, h⟩
    | cons p' l' => exact absurd rfl (ht sep (by rw [← List.nil_append t, ← joined_nil, h]; rfl)).2
  | cons p l ih =>
    cases l' with
    | nil => exact absurd rfl (ht' sep (by rw [← List.nil_append t', ← joined_nil, ← h]; rfl)).2
    | cons p' l' =>
      obtain ⟨hp, hnext⟩ := List.forall_mem_cons.mp hl
      obtain ⟨hp', hnext'⟩ := List.forall_mem_cons.mp hl'
      simp only [joined_cons, List.cons_append, List.append_assoc, List.cons.injEq, true_and] at h
      obtain ⟨rfl, htail⟩ := append_inj_of_stop hp hp' (hrest ht) (hrest ht') h
      obtain ⟨rfl, rfl⟩ := ih hnext hnext' htail
      exact ⟨rfl, rfl⟩

/-! ### Splitting pieces -/

/-- One piece is split at a separator inside it. -/
inductive Split (sep : α) : List (List α) → List (List α) → Prop
  | here (piece piece' : List α) (pieces : List (List α)) :
    Split sep ((piece ++ sep :: piece') :: pieces) (piece :: piece' :: pieces)
  | there (piece : List α) {pieces pieces' : List (List α)} (h : Split sep pieces pieces') :
    Split sep (piece :: pieces) (piece :: pieces')

/-- The pieces are written as before. -/
theorem Split.joined_eq (h : Split sep l l') :
    joined sep l = joined sep l' := by
  induction h with
  | here piece piece' pieces => simp only [joined_cons, List.append_assoc, List.cons_append]
  | there piece h ih => rw [joined_cons, joined_cons, ih]

/-- No piece gets an element by it. -/
theorem Split.not_mem (h : Split sep l l') (hl : ∀ p ∈ l, a ∉ p) : ∀ p ∈ l', a ∉ p := by
  induction h with
  | here piece piece' pieces =>
    obtain ⟨hpiece, hpieces⟩ := List.forall_mem_cons.mp hl
    rw [List.mem_append, List.mem_cons] at hpiece
    exact List.forall_mem_cons.mpr ⟨fun h => hpiece (.inl h),
      List.forall_mem_cons.mpr ⟨fun h => hpiece (.inr (.inr h)), hpieces⟩⟩
  | there piece h ih =>
    obtain ⟨hpiece, hpieces⟩ := List.forall_mem_cons.mp hl
    exact List.forall_mem_cons.mpr ⟨hpiece, ih hpieces⟩

theorem Split.ne_nil (h : Split sep l l') : l' ≠ [] := by
  cases h <;> exact List.cons_ne_nil _ _

theorem splits_not_mem (h : Relation.ReflTransGen (Split sep) l l') (hl : ∀ p ∈ l, a ∉ p) :
    ∀ p ∈ l', a ∉ p := by
  induction h with
  | refl => exact hl
  | tail _ hstep ih => exact hstep.not_mem ih

theorem splits_ne_nil (h : Relation.ReflTransGen (Split sep) l l') (hl : l ≠ []) : l' ≠ [] := by
  cases h with
  | refl => exact hl
  | tail _ hstep => exact hstep.ne_nil

/-- **Pieces can be split** until none holds the separator. -/
theorem exists_splitFree [DecidableEq α] (sep : α) (l : List (List α)) :
    ∃ l', Relation.ReflTransGen (Split sep) l l' ∧ ∀ p ∈ l', sep ∉ p := by
  have hthere (piece : List α) {l l' : List (List α)} (h : Relation.ReflTransGen (Split sep) l l') :
      Relation.ReflTransGen (Split sep) (piece :: l) (piece :: l') :=
    h.lift (piece :: ·) fun _ _ hsplit => Split.there piece hsplit
  induction l with
  | nil => exact ⟨[], .refl, fun p h => absurd h List.not_mem_nil⟩
  | cons piece l ih =>
    obtain ⟨rest, hrest, hfree⟩ := ih
    -- The first piece is split from its front on.
    induction hn : piece.length using Nat.strongRecOn generalizing piece with
    | _ n ihn =>
      by_cases hmem : sep ∈ piece
      · obtain ⟨before, after, rfl, hbefore⟩ := List.eq_append_cons_of_mem hmem
        have hlt : after.length < n := by
          rw [← hn, List.length_append, List.length_cons]
          omega
        obtain ⟨l', hsplit, hl'⟩ := ihn after.length hlt after rfl
        exact ⟨before :: l', .head (.here before after l) (hthere before hsplit),
          List.forall_mem_cons.mpr ⟨hbefore, hl'⟩⟩
      · exact ⟨piece :: rest, hthere piece hrest, List.forall_mem_cons.mpr ⟨hmem, hfree⟩⟩

/-! ### Separators between pieces -/

theorem intercalate_append {sep : List α} {pieces' : List (List α)} (h : pieces ≠ [])
    (h' : pieces' ≠ []) : sep.intercalate (pieces ++ pieces') =
      sep.intercalate pieces ++ sep ++ sep.intercalate pieces' := by
  induction pieces with
  | nil => exact absurd rfl h
  | cons piece pieces ih =>
    rcases eq_or_ne pieces [] with rfl | hne
    · rw [List.singleton_append, List.intercalate_cons_of_ne_nil h', List.intercalate_singleton]
    · have hboth : pieces ++ pieces' ≠ [] := List.append_ne_nil_of_left_ne_nil hne pieces'
      rw [List.cons_append, List.intercalate_cons_of_ne_nil hboth,
        List.intercalate_cons_of_ne_nil hne, ih hne]
      simp only [List.append_assoc]

/-- Lists of pieces, with the separators between them and inside them. -/
theorem intercalate_map_intercalate {sep : List α} {l : List (List (List α))}
    (h : ∀ pieces ∈ l, pieces ≠ []) :
    sep.intercalate (l.map sep.intercalate) = sep.intercalate l.flatten := by
  induction l with
  | nil => rfl
  | cons pieces l ih =>
    obtain ⟨hpieces, hl⟩ := List.forall_mem_cons.mp h
    rcases eq_or_ne l [] with rfl | hne
    · rw [List.map_singleton, List.intercalate_singleton, List.flatten_singleton]
    · obtain ⟨first, hfirst⟩ := List.exists_mem_of_ne_nil l hne
      have hflatten : l.flatten ≠ [] :=
        fun hnil => hl first hfirst (List.flatten_eq_nil_iff.mp hnil first hfirst)
      rw [List.map_cons, List.intercalate_cons_of_ne_nil (by simpa using hne), ih hl,
        List.flatten_cons, intercalate_append hpieces hflatten]

theorem intercalate_cons_eq_joined (sep : α) (piece : List α) (pieces : List (List α)) :
    [sep].intercalate (piece :: pieces) = piece ++ joined sep pieces := by
  induction pieces generalizing piece with
  | nil => rw [List.intercalate_singleton, joined_nil, List.append_nil]
  | cons piece' pieces ih =>
    rw [List.intercalate_cons_cons, ih, joined_cons, List.append_assoc]
    rfl

/-- Every piece but one has a separator. -/
theorem length_intercalate (sep : α) (h : pieces ≠ []) :
    ([sep].intercalate pieces).length + 1 = (pieces.map List.length).sum + pieces.length := by
  induction pieces with
  | nil => exact absurd rfl h
  | cons piece pieces ih =>
    rcases eq_or_ne pieces [] with rfl | hne
    · rw [List.intercalate_singleton]
      rfl
    · rw [List.intercalate_cons_of_ne_nil hne, List.map_cons, List.sum_cons, List.length_cons,
        List.length_append, List.length_append, List.length_singleton]
      have := ih hne
      omega

end Library

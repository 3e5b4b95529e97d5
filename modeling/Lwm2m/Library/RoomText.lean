/-
# Texts that need room

A writer is handed the room that is left in a buffer, and leaves a text there or gives up.  It may
leave less than its text where that fills the room (`LeavesText`), which does not matter once one
more element is written behind it (`LeavesText.andThen_putText`).

A layout lists what a recursion over several writers puts into one buffer.  A piece without room
ends the writing in the way it names; one that names none makes the writer take the failure for a
success (`CutOff`).  Such a recursion follows its layout unless that is cut off (`FollowsLayout`).
-/

import Lwm2m.Library.Except
import Mathlib.Data.Nat.Notation

namespace Library

universe u

variable {α φ : Type u}

/-! ### Writers -/

/-- A writer gets the room that is left, and leaves a text or gives up. -/
abbrev RoomWriter (α : Type u) := ℕ → Option (List α)

namespace RoomWriter

/-- A fixed text. -/
def putText (text : List α) : RoomWriter α := fun room =>
  if room < text.length then none else some text

/-- One writer behind the other. -/
def andThen (write write' : RoomWriter α) : RoomWriter α := fun room => do
  let text ← write room
  let text' ← write' (room - text.length)
  return text ++ text'

/-- Writers one behind the other. -/
def sequence (writers : List (RoomWriter α)) : RoomWriter α := writers.foldr andThen (putText [])

end RoomWriter

open RoomWriter

/-- The text where it fits into the room. -/
def within (room : ℕ) (text : Option (List α)) : Option (List α) :=
  text.filter fun text => text.length ≤ room

theorem within_some (room : ℕ) (text : List α) :
    within room (some text) = if text.length ≤ room then some text else none := by
  unfold within
  rw [Option.filter_some]
  simp only [decide_eq_true_eq]

/-- The writer leaves the text when there is more room than that takes, and never leaves anything
else but what fills the room. -/
structure LeavesText (write : RoomWriter α) (text : Option (List α)) : Prop where
  fits : ∀ t room, text = some t → t.length < room → write room = some t
  only : ∀ t room, write room = some t → t.length ≤ room ∧ (t.length < room → text = some t)

namespace LeavesText

variable {write write' : RoomWriter α} {text text' : Option (List α)}

/-- A writer of exactly the text where that fits. -/
theorem of_within (h : ∀ room, write room = within room text) : LeavesText write text where
  fits t room htext hlt := by rw [h, htext, within_some, if_pos (Nat.le_of_lt hlt)]
  only t room hwrite := by
    rw [h] at hwrite
    obtain ⟨htext, hle⟩ := Option.filter_eq_some_iff.mp hwrite
    exact ⟨of_decide_eq_true hle, fun _ => htext⟩

theorem putText (text : List α) : LeavesText (putText text) (some text) :=
  of_within fun room => by
    rw [within_some]
    unfold RoomWriter.putText
    by_cases h : room < text.length
    · rw [if_pos h, if_neg (Nat.not_le.mpr h)]
    · rw [if_neg h, if_pos (Nat.not_lt.mp h)]

theorem andThen (h : LeavesText write text) (h' : LeavesText write' text') :
    LeavesText (andThen write write') (do return (← text) ++ (← text')) where
  fits t room htext hlt := by
    obtain ⟨t₁, h₁, htext⟩ := Option.bind_eq_some_iff.mp htext
    obtain ⟨t₂, h₂, heq⟩ := Option.bind_eq_some_iff.mp htext
    cases heq
    rw [List.length_append] at hlt
    unfold RoomWriter.andThen
    rw [h.fits t₁ room h₁ (by omega)]
    change (write' (room - t₁.length)).bind _ = _
    rw [h'.fits t₂ _ h₂ (by omega)]
    rfl
  only t room hwrite := by
    obtain ⟨t₁, h₁, hwrite⟩ := Option.bind_eq_some_iff.mp hwrite
    obtain ⟨t₂, h₂, heq⟩ := Option.bind_eq_some_iff.mp hwrite
    cases heq
    obtain ⟨hle₁, htext₁⟩ := h.only t₁ room h₁
    obtain ⟨hle₂, htext₂⟩ := h'.only t₂ _ h₂
    rw [List.length_append]
    refine ⟨by omega, fun hlt => ?_⟩
    rw [htext₁ (by omega), htext₂ (by omega)]
    rfl

theorem nil : LeavesText (sequence []) (some ([] : List α)) := putText []

/-- A writer of a known text before others. -/
theorem cons {writers : List (RoomWriter α)} {t : List α} (h : LeavesText write (some t))
    (h' : LeavesText (sequence writers) text) :
    LeavesText (sequence (write :: writers)) (text.map (t ++ ·)) := by
  have := h.andThen h'
  cases text <;> exact this

theorem singleton (h : LeavesText write text) : LeavesText (sequence [write]) text := by
  have := h.andThen nil
  cases text with
  | none => exact this
  | some t =>
    rw [← List.append_nil t]
    exact this

/-- **With one more element behind it**, exactly the text is written where it fits. -/
theorem andThen_putText (h : LeavesText write text) (c : α) (room : ℕ) :
    RoomWriter.andThen write (RoomWriter.putText [c]) room = within room (text.map (· ++ [c])) := by
  have hnone (ht : ∀ t, text = some t → room ≤ t.length) :
      within room (text.map (· ++ [c])) = none := by
    cases text with
    | none => rfl
    | some t =>
      rw [Option.map_some, within_some, if_neg]
      have := ht t rfl
      rw [List.length_append, List.length_singleton]
      omega
  unfold RoomWriter.andThen
  cases hwrite : write room with
  | none =>
    refine (hnone fun t ht => Nat.not_lt.mp fun hlt => ?_).symm
    rw [h.fits t room ht hlt] at hwrite
    cases hwrite
  | some t =>
    obtain ⟨hle, htext⟩ := h.only t room hwrite
    change (RoomWriter.putText [c] (room - t.length)).bind _ = _
    unfold RoomWriter.putText
    rw [List.length_singleton]
    by_cases hlt : t.length < room
    · rw [if_neg (by omega), htext hlt, Option.map_some, within_some, if_pos]
      · rfl
      · rw [List.length_append, List.length_singleton]
        omega
    · rw [if_pos (by omega)]
      refine (hnone fun t' ht' => Nat.not_lt.mp fun hlt' => ?_).symm
      -- else the writer would have left that text, which does not fill the room
      rw [h.fits t' room ht' hlt', Option.some.injEq] at hwrite
      exact hlt (hwrite ▸ hlt')

end LeavesText

/-! ### Layouts -/

/-- A piece of a layout: a text, and how the writing ends when there is no room for it, or a stop.
-/
inductive Piece (φ α : Type u)
  | text (t : List α) (full : Option φ)
  | stop (e : φ)
  deriving Repr

/-- The pieces are written into the room. -/
def lay : ℕ → List (Piece φ α) → Except (Option φ) (List α)
  | _, [] => .ok []
  | room, .text t full :: rest =>
    if t.length ≤ room then (lay (room - t.length) rest).map (t ++ ·) else .error full
  | _, .stop e :: _ => .error (some e)

/-- The text of the pieces, when none of them stops. -/
def laidText : List (Piece φ α) → Option (List α)
  | [] => some []
  | .text t _ :: rest => (laidText rest).map (t ++ ·)
  | .stop _ :: _ => none

/-- The writing ends at the piece, in this way, with so much room left for it. -/
def Piece.EndsWriting (room : ℕ) (x : Option φ) : Piece φ α → Prop
  | .text t full => room < t.length ∧ full = x
  | .stop e => some e = x

/-- All pieces before one of them are written, and there the writing ends in this way. -/
def EndsAs (x : Option φ) (room : ℕ) (pieces : List (Piece φ α)) : Prop :=
  ∃ before p after text, pieces = before ++ p :: after ∧ laidText before = some text ∧
    text.length ≤ room ∧ p.EndsWriting (room - text.length) x

/-- A piece without room, behind pieces that are written, does not name how the writing ends. -/
def CutOff (room : ℕ) (pieces : List (Piece φ α)) : Prop := EndsAs none room pieces

/-- All pieces are written. -/
def FitsRoom (room : ℕ) (pieces : List (Piece φ α)) : Prop :=
  ∃ text, laidText pieces = some text ∧ text.length ≤ room

variable {room : ℕ} {pieces pieces' : List (Piece φ α)} {text : List α} {e : φ}

theorem laidText_append (pieces pieces' : List (Piece φ α)) :
    laidText (pieces ++ pieces') = do return (← laidText pieces) ++ (← laidText pieces') := by
  induction pieces with
  | nil => cases h : laidText pieces' <;> simp [laidText, h]
  | cons p pieces ih =>
    cases p with
    | stop e => rfl
    | text t full =>
      rw [List.cons_append, laidText, laidText, ih]
      cases laidText pieces <;> cases laidText pieces' <;> simp

/-- The text of layouts with a separator between every two of them. -/
theorem laidText_intercalate (c : α) (full : Option φ) (l : List (List (Piece φ α))) :
    laidText ([.text [c] full].intercalate l) = (l.mapM laidText).map [c].intercalate := by
  induction l with
  | nil => rfl
  | cons pieces l ih =>
    cases l with
    | nil =>
      rw [List.intercalate_singleton, List.mapM_cons, List.mapM_nil]
      cases laidText pieces with
      | none => rfl
      | some text => exact congrArg some List.intercalate_singleton.symm
    | cons pieces' l =>
      rw [List.intercalate_cons_cons, laidText_append, laidText_append, ih]
      simp only [List.mapM_cons]
      cases laidText pieces with
      | none => rfl
      | some text =>
        cases laidText pieces' with
        | none => rfl
        | some text' =>
          cases l.mapM laidText with
          | none => rfl
          | some texts => exact congrArg some List.intercalate_cons_cons.symm

theorem lay_append (room : ℕ) (pieces pieces' : List (Piece φ α)) :
    lay room (pieces ++ pieces') = (lay room pieces).bind fun text =>
      (lay (room - text.length) pieces').map (text ++ ·) := by
  induction pieces generalizing room with
  | nil =>
    change lay room pieces' = (lay room pieces').map ([] ++ ·)
    cases lay room pieces' <;> rfl
  | cons p pieces ih =>
    cases p with
    | stop e => rfl
    | text t full =>
      rw [List.cons_append, lay, lay]
      by_cases h : t.length ≤ room
      · rw [if_pos h, if_pos h, ih]
        cases lay (room - t.length) pieces with
        | error e => rfl
        | ok text =>
          change ((lay _ pieces').map _).map _ = (lay _ pieces').map _
          rw [List.length_append, Nat.sub_add_eq]
          cases lay (room - t.length - text.length) pieces' with
          | error e => rfl
          | ok text' => exact congrArg Except.ok (List.append_assoc t text text').symm
      · rw [if_neg h, if_neg h]
        rfl

/-- Behind a text that is written already. -/
theorem lay_append_behind {β : Type u} (f : List α → β) (room : ℕ) (before : List α)
    (pieces pieces' : List (Piece φ α)) :
    (lay (room - before.length) (pieces ++ pieces')).map (f ∘ (before ++ ·)) =
      (lay (room - before.length) pieces).bind fun text =>
        (lay (room - (before ++ text).length) pieces').map (f ∘ (before ++ text ++ ·)) := by
  rw [lay_append]
  cases lay (room - before.length) pieces with
  | error x => rfl
  | ok text =>
    change ((lay _ _).map _).map _ = (lay _ _).map _
    rw [List.length_append, Nat.sub_add_eq]
    cases lay (room - before.length - text.length) pieces' with
    | error x => rfl
    | ok text' => exact congrArg (Except.ok ∘ f) (List.append_assoc before text text').symm

/-- Nothing is written but the text of all pieces, and that when it fits. -/
theorem lay_eq_ok_iff :
    lay room pieces = .ok text ↔ laidText pieces = some text ∧ text.length ≤ room := by
  induction pieces generalizing room text with
  | nil =>
    constructor
    · intro h
      cases h
      exact ⟨rfl, Nat.zero_le _⟩
    · rintro ⟨h, -⟩
      cases h
      rfl
  | cons p pieces ih =>
    cases p with
    | stop e => exact ⟨fun h => (nomatch h), fun h => (nomatch h.1)⟩
    | text t full =>
      rw [lay, laidText, Option.map_eq_some_iff]
      by_cases hle : t.length ≤ room
      · rw [if_pos hle]
        constructor
        · intro h
          cases hlay : lay (room - t.length) pieces with
          | error e =>
            rw [hlay] at h
            cases h
          | ok t' =>
            rw [hlay] at h
            cases h
            obtain ⟨hwritten, hlength⟩ := ih.mp hlay
            exact ⟨⟨t', hwritten, rfl⟩, by rw [List.length_append]; omega⟩
        · rintro ⟨⟨t', hwritten, rfl⟩, hlength⟩
          rw [List.length_append] at hlength
          rw [ih.mpr ⟨hwritten, by omega⟩]
          rfl
      · rw [if_neg hle]
        refine iff_of_false (fun h => nomatch h) ?_
        rintro ⟨⟨t', -, rfl⟩, hlength⟩
        rw [List.length_append] at hlength
        omega

/-- The writing ends at the first piece or behind it. -/
theorem endsAs_cons {x : Option φ} {t : List α} {full : Option φ} :
    EndsAs x room (.text t full :: pieces) ↔ (room < t.length ∧ full = x) ∨
      t.length ≤ room ∧ EndsAs x (room - t.length) pieces := by
  constructor
  · rintro ⟨_ | ⟨q, before⟩, p, after, text, heq, hwritten, hle, hp⟩
    · cases heq
      cases hwritten
      exact .inl hp
    · cases heq
      obtain ⟨text', hwritten', rfl⟩ := Option.map_eq_some_iff.mp hwritten
      rw [List.length_append] at hle
      rw [List.length_append, Nat.sub_add_eq] at hp
      exact .inr ⟨by omega, before, p, after, text', rfl, hwritten', by omega, hp⟩
  · rintro (hp | ⟨ht, before, p, after, text, rfl, hwritten, hle, hp⟩)
    · exact ⟨[], _, pieces, [], rfl, rfl, Nat.zero_le _, hp⟩
    · refine ⟨.text t full :: before, p, after, t ++ text, rfl, ?_, ?_, ?_⟩
      · rw [laidText, hwritten]
        rfl
      · rw [List.length_append]
        omega
      · rwa [List.length_append, Nat.sub_add_eq]

/-- **How the writing ends** otherwise. -/
theorem lay_eq_error_iff {x : Option φ} : lay room pieces = .error x ↔ EndsAs x room pieces := by
  induction pieces generalizing room with
  | nil =>
    refine iff_of_false (fun h => nomatch h) ?_
    rintro ⟨before, p, after, text, heq, -⟩
    exact List.append_ne_nil_of_right_ne_nil _ (List.cons_ne_nil _ _) heq.symm
  | cons p pieces ih =>
    cases p with
    | stop e =>
      constructor
      · intro h
        cases h
        exact ⟨[], _, pieces, [], rfl, rfl, Nat.zero_le _, rfl⟩
      · rintro ⟨_ | ⟨q, before⟩, p, after, text, heq, hwritten, -, hp⟩
        · cases heq
          exact congrArg Except.error hp
        · cases heq
          cases hwritten
    | text t full =>
      rw [endsAs_cons, lay, ← ih]
      by_cases hle : t.length ≤ room
      · rw [if_pos hle, and_iff_right hle, or_iff_right fun h => Nat.not_lt.mpr hle h.1]
        cases lay (room - t.length) pieces with
        | error e => exact Iff.rfl
        | ok text => exact iff_of_false (fun h => nomatch h) (fun h => nomatch h)
      · rw [if_neg hle, or_iff_left fun h => hle h.1, and_iff_right (Nat.not_le.mp hle)]
        exact ⟨fun h => Except.error.inj h, congrArg Except.error⟩

/-! ### Recursions that follow a layout -/

/-- The result is what the layout gives, unless that is cut short. -/
structure FollowsLayout {β : Type u} (result : Except φ β) (laid : Except (Option φ) β) : Prop where
  ok : ∀ b, laid = .ok b → result = .ok b
  error : ∀ e, laid = .error (some e) → result = .error e

namespace FollowsLayout

variable {β γ : Type u} {result : Except φ β} {laid : Except (Option φ) β}

theorem of_ok (b : β) : FollowsLayout (φ := φ) (.ok b) (.ok b) :=
  ⟨fun _ h => Except.ok.inj h ▸ rfl, fun _ h => (nomatch h)⟩

theorem of_error (e : φ) : FollowsLayout (β := β) (.error e) (.error (some e)) :=
  ⟨fun _ h => (nomatch h), fun _ h => Option.some.inj (Except.error.inj h) ▸ rfl⟩

/-- Nothing is said of a result that is cut short. -/
theorem of_cut (result : Except φ β) : FollowsLayout result (.error none) :=
  ⟨fun _ h => (nomatch h), fun _ h => (nomatch h)⟩

/-- What is laid may be handed on with something that comes with it. -/
theorem bind {δ : Type u} {laid : Except (Option φ) δ} {f : δ → β}
    (h : FollowsLayout result (laid.map f)) {next : β → Except φ γ}
    {next' : δ → Except (Option φ) γ}
    (h' : ∀ d, laid = .ok d → FollowsLayout (next (f d)) (next' d)) :
    FollowsLayout (result >>= next) (laid.bind next') := by
  cases hlaid : laid with
  | ok d =>
    rw [h.ok (f d) (congrArg (Except.map f) hlaid)]
    exact h' d hlaid
  | error x =>
    cases x with
    | none => exact of_cut _
    | some e =>
      rw [h.error e (congrArg (Except.map f) hlaid)]
      exact of_error e

end FollowsLayout

end Library

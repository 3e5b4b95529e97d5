/-
# Members of an item

The loop of both `prv_parseItem` (`data/json.c`, `data/senml_json.c`) over the members that
`json_split` cuts out of an item, and the items whose members are taken as they are written
(`members_text`, `members_text_cons`).
-/

import Lwm2m.Codec.JsonScan
import Lwm2m.Codec.TextFormat

namespace Lwm2m.Codec

open Core Library

/-! ### The loop -/

/-- The bytes of a member: of its token, and of its value with the marks around it. -/
structure Member where
  token : List Byte
  value : List Byte
  deriving DecidableEq, Repr

/-- The member whose parts `json_split` has found. -/
def ItemSplit.member (buffer : List Byte) (split : ItemSplit) : Member where
  token := (buffer.drop split.tokenStart).take split.tokenLen
  value := (buffer.drop split.valueStart).take split.valueLen

section

variable {σ : Type}

/-- The loop of `prv_parseItem` from a member on; `none` is the return of -1. -/
def readMembers (read : σ → Member → Option σ) (buffer : List Byte) (state : σ) : Option σ :=
  match _ : jsonSplit buffer with
  | none => none
  | some (next, split) =>
    if next < 0 then none
    else
      match read state (split.member buffer) with
      | none => none
      | some state =>
        let rest := buffer.drop (next.toNat + 1)
        if rest = [] then some state else readMembers read rest state
  termination_by buffer.length
  decreasing_by
    cases buffer with
    | nil => cases ‹jsonSplit [] = _›
    | cons c buffer =>
      rw [List.length_drop, List.length_cons]
      omega

/-- The members of an item, when all of it can be split. -/
def members (buffer : List Byte) : Option (List Member) :=
  match _ : jsonSplit buffer with
  | none => none
  | some (next, split) =>
    if next < 0 then none
    else
      let rest := buffer.drop (next.toNat + 1)
      if rest = [] then some [split.member buffer]
      else (members rest).map (split.member buffer :: ·)
  termination_by buffer.length
  decreasing_by
    cases buffer with
    | nil => cases ‹jsonSplit [] = _›
    | cons c buffer =>
      rw [List.length_drop, List.length_cons]
      omega

variable {buffer rest : List Byte} {next : ℤ} {split : ItemSplit}

theorem members_none (h : jsonSplit buffer = none) : members buffer = none := by
  rw [members]
  split <;> simp_all

theorem members_some (h : jsonSplit buffer = some (next, split)) :
    members buffer =
      if next < 0 then none
      else if buffer.drop (next.toNat + 1) = [] then some [split.member buffer]
      else (members (buffer.drop (next.toNat + 1))).map (split.member buffer :: ·) := by
  rw [members]
  split <;> simp_all

/-- The members are read one after the other. -/
theorem readMembers_eq (read : σ → Member → Option σ) (buffer : List Byte) (state : σ) :
    readMembers read buffer state = (members buffer).bind fun ms => ms.foldlM read state := by
  fun_induction readMembers read buffer state with
  | case1 buffer state hsplit => rw [members_none hsplit, Option.bind_none]
  | case2 buffer state next split hsplit hneg =>
    rw [members_some hsplit, if_pos hneg, Option.bind_none]
  | case3 buffer state next split hsplit hneg hread =>
    rw [members_some hsplit, if_neg hneg]
    split_ifs with hend
    · simp [hread]
    · cases members (buffer.drop (next.toNat + 1)) <;> simp [hread]
  | case4 buffer state next split hsplit hneg state' hread rest hend =>
    rw [members_some hsplit, if_neg hneg, if_pos hend]
    simp [hread]
  | case5 buffer state next split hsplit hneg state' hread rest hend ih =>
    rw [members_some hsplit, if_neg hneg, if_neg hend, ih]
    cases members (buffer.drop (next.toNat + 1)) <;> simp [hread]

end

/-! ### Values that are taken whole -/

/-- No mark ends a value inside these characters, and the one behind them does, when this character
is in front of them. -/
def Unended (previous : Byte) : List Byte → Prop
  | [] => previous ≠ 0x5C
  | c :: chars => ¬ (c = 0x22 ∧ previous ≠ 0x5C) ∧ Unended c chars

instance decidableUnended : (previous : Byte) → (chars : List Byte) →
    Decidable (Unended previous chars)
  | _, [] => inferInstanceAs (Decidable (_ ≠ _))
  | _, c :: chars =>
    have := decidableUnended c chars
    inferInstanceAs (Decidable (_ ∧ _))

/-- The values that `json_split` takes whole. -/
inductive WholeValue : List Byte → Prop
  | plain {c : Byte} {rest : List Byte} (hc : ¬ prvIsReserved c) (hspace : ¬ prvIsWhiteSpace c)
    (hrest : ∀ d ∈ rest, d ≠ 0x2C ∧ ¬ prvIsWhiteSpace d) : WholeValue (c :: rest)
  | quoted {chars : List Byte} (h : Unended 0x22 chars) : WholeValue (quoted chars)

/-- The text of a member, without white space. -/
def Member.text (m : Member) : List Byte := quoted m.token ++ 0x3A :: m.value

/-- The member is taken as it is written. -/
def Member.Whole (m : Member) : Prop :=
  (∀ c ∈ m.token, c ≠ 0x22 ∧ c ≠ 0x2C) ∧ WholeValue m.value

variable {previous c : Byte} {m : Member} {outcome : ItemStep × ItemSplit × ℕ} {next : ℤ}
  {chars : List Byte}

section

variable {buffer front rest chars value after : List Byte} (split : ItemSplit)

/-- The characters of a plain value. -/
theorem splitFrom_plain (h : ∀ d ∈ chars, d ≠ 0x2C ∧ ¬ prvIsWhiteSpace d)
    (front rest : List Byte) :
    splitFrom (front ++ (chars ++ rest)) .value split front.length =
      splitFrom (front ++ chars ++ rest) .value split (front ++ chars).length := by
  induction chars generalizing front with
  | nil => simp
  | cons c chars ih =>
    obtain ⟨⟨hcomma, hspace⟩, hchars⟩ := List.forall_mem_cons.mp h
    have hnext := ih hchars (front ++ [c])
    rw [List.append_assoc, List.append_assoc, List.length_append] at hnext
    refine (splitFrom_next (getElem?_behind front _ 0) ?_ rfl).trans (hnext.trans (by simp))
    rw [splitTurn, if_neg hcomma, if_neg hspace]

/-- The characters of a quoted value, behind one at a position. -/
theorem splitFrom_unended (h : Unended previous chars) {i j : ℕ}
    (hbuffer : buffer = front ++ previous :: (chars ++ rest)) (hi : i = front.length)
    (hj : j = i + chars.length) :
    splitFrom buffer .quotedValue split (i + 1) = splitFrom buffer .quotedValue split (j + 1) ∧
      buffer.getD j 0 ≠ 0x5C := by
  induction chars generalizing previous front i with
  | nil =>
    obtain rfl : j = i := hj
    refine ⟨rfl, ?_⟩
    rw [hbuffer, hi, getD_front]
    exact h
  | cons c chars ih =>
    obtain ⟨hmark, hchars⟩ := h
    have hbuffer' : buffer = (front ++ [previous]) ++ c :: (chars ++ rest) := by simp [hbuffer]
    have hlength : i + 1 = (front ++ [previous]).length := by simp [hi]
    obtain ⟨hwalk, hlast⟩ := ih hchars hbuffer' hlength (by rw [hj, List.length_cons]; omega)
    have hc : buffer[i + 1]? = some c := by
      rw [hbuffer', hlength]
      exact getElem?_behind _ _ 0
    have hturn : splitTurn c (buffer.getD (i + 1 - 1) 0) (i + 1) split .quotedValue =
        .next .quotedValue split := by
      rw [Nat.add_sub_cancel, hi, hbuffer, getD_front, splitTurn, if_neg hmark]
    exact ⟨(splitFrom_next hc hturn rfl).trans hwalk, hlast⟩

/-- Behind a value, a comma or the end of the item ends the walk. -/
theorem splitFrom_exit {step : ItemStep} (hafter : after = [] ∨ after.head? = some 0x2C)
    (hstep : step = .value ∨ step = .done) (front : List Byte) :
    splitFrom (front ++ after) step split front.length = splitExit step split front.length := by
  rcases hafter with rfl | hcomma
  · exact splitFrom_end (by simp)
  · obtain ⟨rest, rfl⟩ : ∃ rest, after = 0x2C :: rest :=
      ⟨after.tail, (List.cons_head?_tail hcomma).symm⟩
    refine splitFrom_loopExit (getElem?_behind front _ 0) ?_
    rcases hstep with rfl | rfl <;> rfl

/-- **A value that is taken whole** is found up to its end. -/
theorem splitFrom_whole (h : WholeValue value) (hafter : after = [] ∨ after.head? = some 0x2C)
    (front : List Byte) :
    splitFrom (front ++ (value ++ after)) .separator split front.length =
      some (asInt (front ++ value).length,
        { split with valueStart := front.length, valueLen := value.length }) := by
  cases h with
  | @plain c rest hc hspace hrest =>
    have hcomma : c ≠ 0x2C := by
      rintro rfl
      exact hc (by decide)
    have hmark : c ≠ 0x22 := by
      rintro rfl
      exact hc (by decide)
    have hturn (previous : Byte) (i : ℕ) : splitTurn c previous i split .separator =
        .next .value { split with valueStart := i } := by
      rw [splitTurn, if_neg hcomma, if_neg hmark, if_pos hc]
    have hwalk := splitFrom_plain { split with valueStart := front.length } hrest
      (front ++ [c]) after
    have hend := splitFrom_exit { split with valueStart := front.length } hafter
      (.inl rfl) (front ++ [c] ++ rest)
    have hlength : (front ++ [c]).length = front.length + 1 := by simp
    have hvalue : (front ++ [c] ++ rest).length - front.length = (c :: rest).length := by
      simp only [List.length_append, List.length_cons, List.length_nil]
      omega
    rw [hlength, List.append_assoc front] at hwalk
    refine (splitFrom_next (getElem?_behind front _ 0) (hturn _ _) rfl).trans
      (hwalk.trans (hend.trans ?_))
    rw [splitExit, if_pos rfl]
    dsimp only
    rw [if_neg (not_not.mpr rfl), hvalue, List.append_assoc]
    rfl
  | @quoted chars hchars =>
    have hopening : (front ++ (quoted chars ++ after))[front.length]? = some 0x22 :=
      getElem?_behind front _ 0
    have hbuffer : front ++ (quoted chars ++ after) =
        front ++ 0x22 :: (chars ++ 0x22 :: after) := by simp [quoted]
    have hbuffer' : front ++ (quoted chars ++ after) =
        (front ++ 0x22 :: chars) ++ 0x22 :: ([] ++ after) := by simp [quoted]
    have hclosing : front.length + chars.length + 1 = (front ++ 0x22 :: chars).length := by
      simp only [List.length_append, List.length_cons]
      omega
    have hend' : (front ++ quoted chars).length = (front ++ 0x22 :: chars).length + 1 := by
      simp [quoted]
      omega
    obtain ⟨hwalk, hlast⟩ := splitFrom_unended { split with valueStart := front.length }
      hchars hbuffer rfl rfl
    have hlength : front.length + chars.length + 1 - front.length + 1 = (quoted chars).length := by
      simp only [quoted, List.length_append, List.length_cons, List.length_nil]
      omega
    have hturn : splitTurn 0x22
        ((front ++ (quoted chars ++ after)).getD (front.length + chars.length + 1 - 1) 0)
        (front.length + chars.length + 1) { split with valueStart := front.length } .quotedValue =
          .next .done { split with
            valueStart := front.length, valueLen := (quoted chars).length } := by
      rw [Nat.add_sub_cancel, splitTurn, if_pos ⟨rfl, hlast⟩]
      rw [hlength]
    have hspace : ∀ c ∈ after.head?, prvIsWhiteSpace c = false := by
      intro c hc
      rcases hafter with rfl | hcomma
      · cases hc
      · rw [hcomma] at hc
        cases hc
        decide
    rw [splitFrom_next hopening rfl rfl, hwalk,
      splitFrom_gap (j := (front ++ quoted chars).length) hbuffer' hclosing hend' rfl hspace hturn
        rfl, ← List.append_assoc, splitFrom_exit _ hafter (.inr rfl)]
    rfl

/-- **A member that is taken as it is written** is split off. -/
theorem jsonSplit_text (h : m.Whole) (hafter : after = [] ∨ after.head? = some 0x2C) :
    jsonSplit (m.text ++ after) = some (asInt m.text.length,
      { tokenStart := 1, tokenLen := m.token.length, valueStart := m.token.length + 3,
        valueLen := m.value.length }) := by
  obtain ⟨token, value⟩ := m
  obtain ⟨htoken, hvalue⟩ := h
  have hbuffer : Member.text ⟨token, value⟩ ++ after =
      [0x22] ++ (token ++ 0x22 :: 0x3A :: (value ++ after)) := by simp [Member.text, quoted]
  have hbuffer' : Member.text ⟨token, value⟩ ++ after =
      (0x22 :: token) ++ 0x22 :: ([] ++ 0x3A :: (value ++ after)) := by
    simp [Member.text, quoted]
  have hbuffer₂ : Member.text ⟨token, value⟩ ++ after =
      (0x22 :: (token ++ [0x22])) ++ 0x3A :: ([] ++ (value ++ after)) := by
    simp [Member.text, quoted]
  have hbuffer₃ : Member.text ⟨token, value⟩ ++ after =
      (0x22 :: (token ++ [0x22, 0x3A])) ++ (value ++ after) := by simp [Member.text, quoted]
  have hspace : ∀ c ∈ (value ++ after).head?, prvIsWhiteSpace c = false := by
    cases hvalue with
    | plain hc hspace =>
      intro c hc
      cases hc
      simpa using hspace
    | quoted =>
      intro c hc
      cases hc
      decide
  have hstart : jsonSplit (Member.text ⟨token, value⟩ ++ after) =
      splitFrom (Member.text ⟨token, value⟩ ++ after) .token { tokenStart := 1 } 1 := by
    have hfirst : (Member.text ⟨token, value⟩ ++ after)[0]? = some 0x22 := rfl
    have hskip : jsonSkipSpace (Member.text ⟨token, value⟩ ++ after) = 0 := rfl
    unfold jsonSplit
    rw [hskip, if_neg (by rw [hbuffer]; simp)]
    exact splitFrom_next hfirst rfl rfl
  have hlen : 1 + token.length - 1 = token.length := Nat.add_sub_cancel_left 1 token.length
  have hposition : token.length + 3 = (0x22 :: (token ++ [0x22, 0x3A])).length := by simp
  have hwhole := splitFrom_whole { tokenStart := 1, tokenLen := 1 + token.length - 1 } hvalue hafter
    (0x22 :: (token ++ [0x22, 0x3A]))
  rw [hstart, splitFrom_token_at (i := 1) (j := 1 + token.length) htoken hbuffer rfl rfl,
    splitFrom_gap (j := token.length + 2) hbuffer' (by simp; omega) (by simp) rfl
      (fun c hc => Option.some.inj hc ▸ by decide) rfl rfl,
    splitFrom_gap (j := token.length + 3) hbuffer₂ (by simp) (by simp) rfl hspace rfl rfl,
    hbuffer₃, hposition, hwhole, hlen]
  simp [Member.text, quoted]

/-- Its parts are the ones written. -/
theorem member_text (m : Member) (after : List Byte) :
    ItemSplit.member (m.text ++ after)
      { tokenStart := 1, tokenLen := m.token.length, valueStart := m.token.length + 3,
        valueLen := m.value.length } = m := by
  obtain ⟨token, value⟩ := m
  have htoken : Member.text ⟨token, value⟩ ++ after =
      [0x22] ++ (token ++ (0x22 :: 0x3A :: (value ++ after))) := by simp [Member.text, quoted]
  have hvalue : Member.text ⟨token, value⟩ ++ after =
      (0x22 :: (token ++ [0x22, 0x3A])) ++ (value ++ after) := by simp [Member.text, quoted]
  have hposition : token.length + 3 = (0x22 :: (token ++ [0x22, 0x3A])).length := by simp
  unfold ItemSplit.member
  rw [Member.mk.injEq]
  constructor
  · rw [htoken]
    exact List.take_left
  · rw [hvalue, hposition, List.drop_left]
    exact List.take_left

theorem length_text (m : Member) : m.text.length = m.token.length + 3 + m.value.length := by
  simp only [Member.text, quoted, List.length_append, List.length_cons, List.length_nil]
  omega

/-- **An item of one member.** -/
theorem members_text (h : m.Whole) (hlength : m.text.length < 2 ^ 31) :
    members m.text = some [m] := by
  have hsplit := jsonSplit_text h (.inl rfl)
  have hmember := member_text m []
  rw [List.append_nil] at hsplit hmember
  rw [members_some hsplit, asInt_of_lt hlength, if_neg (by omega),
    if_pos (List.drop_eq_nil_of_le (by omega)), hmember]

/-- **A member in front of others.** -/
theorem members_text_cons (h : m.Whole) (hlength : m.text.length < 2 ^ 31) (hrest : rest ≠ []) :
    members (m.text ++ 0x2C :: rest) = (members rest).map (m :: ·) := by
  have hsplit := jsonSplit_text h (show _ ∨ (0x2C :: rest).head? = _ from .inr rfl)
  have hdrop : (m.text ++ 0x2C :: rest).drop ((m.text.length : ℤ).toNat + 1) = rest := by
    rw [Int.toNat_natCast, List.drop_append, List.drop_eq_nil_of_le (Nat.le_succ _)]
    simp
  rw [members_some hsplit, asInt_of_lt hlength, if_neg (by omega), hdrop, if_neg hrest,
    member_text]

end

/-! ### Members lie in the item -/

/-- The parts found so far lie in front of the index, with the marks and the ':' between them. -/
def ItemSplit.Placed (split : ItemSplit) (index : ℕ) : ItemStep → Prop
  | .start => True
  | .token => 1 ≤ split.tokenStart ∧ split.tokenStart ≤ index
  | .anySeparator => 1 ≤ split.tokenStart ∧ split.tokenStart + split.tokenLen + 1 ≤ index
  | .separator => 1 ≤ split.tokenStart ∧ split.tokenStart + split.tokenLen + 2 ≤ index
  | .quotedValue | .value => 1 ≤ split.tokenStart ∧
      split.tokenStart + split.tokenLen + 2 ≤ split.valueStart ∧ split.valueStart < index
  | .done => 1 ≤ split.tokenStart ∧
      split.tokenStart + split.tokenLen + 2 ≤ split.valueStart ∧
      split.valueStart + split.valueLen ≤ index

section

variable {buffer : List Byte} {split split' : ItemSplit} {step step' : ItemStep} {i j : ℕ}

theorem ItemSplit.Placed.mono (h : split.Placed i step) (hij : i ≤ j) : split.Placed j step := by
  cases step <;> simp only [ItemSplit.Placed] at h ⊢ <;> omega

/-- One character further. -/
theorem ItemSplit.Placed.turn (h : split.Placed i step)
    (hturn : splitTurn c previous i split step = .next step' split') :
    split'.Placed (i + 1) step' := by
  cases step <;> rw [splitTurn] at hturn <;> split_ifs at hturn <;> cases hturn <;>
    simp only [ItemSplit.Placed] at h ⊢ <;> omega

theorem jsonSkipSpace_le_length (text : List Byte) : jsonSkipSpace text ≤ text.length :=
  (List.takeWhile_prefix _).length_le

/-- **The parts that `json_split` has found lie in the buffer.** -/
theorem splitLoop_placed (h : split.Placed i step) (hi : i ≤ buffer.length)
    (hloop : splitLoop buffer step split i = some outcome) :
    outcome.2.1.Placed outcome.2.2 outcome.1 ∧ outcome.2.2 ≤ buffer.length := by
  fun_induction splitLoop buffer step split i with
  | case1 | case2 =>
    cases hloop
    exact ⟨h, hi⟩
  | case3 => cases hloop
  | case4 step split i c hc step' split' hturn ih =>
    have hlt := (List.getElem?_eq_some_iff.mp hc).1
    have hskip : (if _ : step'.skips then jsonSkipSpace (buffer.drop (i + 1)) else 0) ≤
        buffer.length - (i + 1) := by
      split_ifs
      · exact (jsonSkipSpace_le_length _).trans_eq List.length_drop
      · exact Nat.zero_le _
    exact ih ((h.turn hturn).mono (by omega)) (by omega) hloop

theorem jsonSplit_placed (h : jsonSplit buffer = some (next, split)) :
    1 ≤ split.tokenStart ∧ split.tokenStart + split.tokenLen + 2 ≤ split.valueStart ∧
      split.valueStart + split.valueLen ≤ buffer.length := by
  unfold jsonSplit at h
  dsimp only at h
  split_ifs at h
  obtain ⟨⟨step, found, index⟩, hloop, hexit⟩ := Option.bind_eq_some_iff.mp h
  obtain ⟨hplaced, hindex⟩ := splitLoop_placed (show ItemSplit.Placed {} _ .start from trivial)
    (jsonSkipSpace_le_length buffer) hloop
  dsimp only at hplaced hindex
  obtain ⟨rfl, heq⟩ | ⟨rfl, heq⟩ := splitExit_eq_some hexit
  · change split = _ at heq
    subst heq
    simp only [ItemSplit.Placed] at hplaced
    dsimp only
    omega
  · change split = _ at heq
    subst heq
    simp only [ItemSplit.Placed] at hplaced
    omega

theorem length_member_le (h : jsonSplit buffer = some (next, split)) :
    (split.member buffer).text.length ≤ buffer.length := by
  obtain ⟨htoken, hvalue, hend⟩ := jsonSplit_placed h
  rw [length_text]
  simp only [ItemSplit.member, List.length_take]
  omega

/-- **A member is not longer than the item.** -/
theorem length_text_le (buffer : List Byte) :
    ∀ ms, members buffer = some ms → ∀ m ∈ ms, m.text.length ≤ buffer.length := by
  fun_induction members buffer with
  | case1 => exact fun ms h => nomatch h
  | case2 => exact fun ms h => nomatch h
  | case3 buffer next split hsplit hneg rest hend =>
    rintro ms h m hm
    cases h
    rw [List.mem_singleton.mp hm]
    exact length_member_le hsplit
  | case4 buffer next split hsplit hneg rest hend ih =>
    rintro ms h m hm
    obtain ⟨rest', hrest, rfl⟩ := Option.map_eq_some_iff.mp h
    rcases List.mem_cons.mp hm with rfl | hm
    · exact length_member_le hsplit
    · exact (ih rest' hrest m hm).trans (List.length_drop.trans_le (Nat.sub_le _ _))

end

/-! ### Members are taken whole -/

/-- No mark ends a value inside these characters, when this character is in front of them. -/
def Unclosed (previous : Byte) : List Byte → Prop
  | [] => True
  | c :: chars => ¬ (c = 0x22 ∧ previous ≠ 0x5C) ∧ Unclosed c chars

theorem unclosed_concat_iff :
    Unclosed previous (chars ++ [c]) ↔
      Unclosed previous chars ∧ ¬ (c = 0x22 ∧ chars.getLast?.getD previous ≠ 0x5C) := by
  induction chars generalizing previous with
  | nil => simp [Unclosed]
  | cons d chars ih =>
    have hlast : (d :: chars).getLast?.getD previous = chars.getLast?.getD d := by
      cases chars <;> rfl
    rw [List.cons_append, Unclosed, Unclosed, ih, hlast, and_assoc]

theorem unended_iff :
    Unended previous chars ↔
      Unclosed previous chars ∧ chars.getLast?.getD previous ≠ 0x5C := by
  induction chars generalizing previous with
  | nil => exact (and_iff_right trivial).symm
  | cons d chars ih =>
    have hlast : (d :: chars).getLast?.getD previous = chars.getLast?.getD d := by
      cases chars <;> rfl
    rw [Unended, Unclosed, ih, hlast, and_assoc]

/-- The bytes from one position up to another. -/
def slice (buffer : List Byte) (i j : ℕ) : List Byte := (buffer.drop i).take (j - i)

section

variable {buffer : List Byte} {split split' : ItemSplit} {step step' : ItemStep} {i j : ℕ}
  {c : Byte}

theorem slice_succ (hc : buffer[j]? = some c) (hij : i ≤ j) :
    slice buffer i (j + 1) = slice buffer i j ++ [c] := by
  have hat : (buffer.drop i)[j - i]? = some c := by
    rw [List.getElem?_drop, Nat.add_sub_cancel' hij, hc]
  rw [slice, slice, Nat.succ_sub hij, List.take_add_one, hat]
  rfl

theorem slice_self : slice buffer i i = [] := by
  rw [slice, Nat.sub_self, List.take_zero]

variable (buffer) in
/-- What the walk has passed of a value. -/
def ItemSplit.Scanned (split : ItemSplit) (index : ℕ) : ItemStep → Prop
  | .separator => ∀ c ∈ buffer[index]?, ¬ prvIsWhiteSpace c
  | .quotedValue => ∃ chars, slice buffer split.valueStart index = 0x22 :: chars ∧
      Unclosed 0x22 chars ∧ buffer.getD (index - 1) 0 = chars.getLast?.getD 0x22
  | .value => ∃ c rest, slice buffer split.valueStart index = c :: rest ∧ ¬ prvIsReserved c ∧
      ¬ prvIsWhiteSpace c ∧ ∀ d ∈ rest, d ≠ 0x2C ∧ ¬ prvIsWhiteSpace d
  | .done => WholeValue (split.member buffer).value
  | .start | .token | .anySeparator => True

theorem value_eq_slice (split : ItemSplit) :
    (split.member buffer).value =
      slice buffer split.valueStart (split.valueStart + split.valueLen) := by
  rw [slice, Nat.add_sub_cancel_left]
  rfl

/-- One character further, with the white space behind it. -/
theorem ItemSplit.Scanned.turn (hplaced : split.Placed i step) (h : split.Scanned buffer i step)
    (hc : buffer[i]? = some c)
    (hturn : splitTurn c (buffer.getD (i - 1) 0) i split step = .next step' split')
    (hj : step'.skips = false → j = i + 1)
    (hspace : ∀ c ∈ buffer[j]?, step'.skips → ¬ prvIsWhiteSpace c) :
    split'.Scanned buffer j step' := by
  cases step with
  | start =>
    rw [splitTurn] at hturn
    split_ifs at hturn
    cases hturn
    trivial
  | token =>
    rw [splitTurn] at hturn
    split_ifs at hturn <;>
      · cases hturn
        trivial
  | anySeparator =>
    rw [splitTurn] at hturn
    split_ifs at hturn
    cases hturn
    exact fun c hc => hspace c hc rfl
  | separator =>
    have hone : slice buffer i (i + 1) = [c] := by rw [slice_succ hc le_rfl, slice_self]; rfl
    rw [splitTurn] at hturn
    split_ifs at hturn with hcomma hmark hreserved
    · cases hturn
      obtain rfl := hj rfl
      refine ⟨[], by rw [hone, hmark], trivial, ?_⟩
      rw [Nat.add_sub_cancel, List.getD_eq_getElem?_getD, hc, hmark]
      rfl
    · cases hturn
      obtain rfl := hj rfl
      exact ⟨c, [], hone, hreserved, h c hc, List.forall_mem_nil _⟩
  | quotedValue =>
    obtain ⟨chars, hslice, hunclosed, hlast⟩ := h
    obtain ⟨-, -, hstart⟩ := hplaced
    have hnext := slice_succ hc hstart.le
    rw [hslice] at hnext
    rw [splitTurn] at hturn
    split_ifs at hturn with hend
    · cases hturn
      rw [ItemSplit.Scanned, value_eq_slice]
      rw [show split.valueStart + (i - split.valueStart + 1) = i + 1 by omega, hnext, hend.1]
      exact .quoted (unended_iff.mpr ⟨hunclosed, by rw [← hlast]; exact hend.2⟩)
    · cases hturn
      obtain rfl := hj rfl
      refine ⟨chars ++ [c], hnext, unclosed_concat_iff.mpr ⟨hunclosed, by rwa [← hlast]⟩, ?_⟩
      rw [Nat.add_sub_cancel, List.getD_eq_getElem?_getD, hc, List.getLast?_concat]
      rfl
  | value =>
    obtain ⟨first, rest, hslice, hreserved, hfirst, hrest⟩ := h
    obtain ⟨-, -, hstart⟩ := hplaced
    have hnext := slice_succ hc hstart.le
    rw [hslice] at hnext
    rw [splitTurn] at hturn
    split_ifs at hturn with hcomma hend
    · cases hturn
      rw [ItemSplit.Scanned, value_eq_slice]
      rw [show split.valueStart + (i - split.valueStart) = i by omega, hslice]
      exact .plain hreserved hfirst hrest
    · cases hturn
      obtain rfl := hj rfl
      refine ⟨first, rest ++ [c], hnext, hreserved, hfirst, fun d hd => ?_⟩
      rcases List.mem_append.mp hd with hd | hd
      · exact hrest d hd
      · rw [List.mem_singleton.mp hd]
        exact ⟨hcomma, hend⟩
  | done =>
    rw [splitTurn] at hturn
    split_ifs at hturn

/-- Behind skipped white space there is none. -/
theorem not_whiteSpace_of_skip (text : List Byte) :
    ∀ c ∈ text[jsonSkipSpace text]?, ¬ prvIsWhiteSpace c := by
  induction text with
  | nil => exact fun c hc => nomatch hc
  | cons d text ih =>
    rw [jsonSkipSpace, List.takeWhile_cons]
    split_ifs with hd
    · exact ih
    · intro c hc
      cases hc
      exact hd

theorem splitLoop_scanned (hplaced : split.Placed i step) (h : split.Scanned buffer i step)
    (hloop : splitLoop buffer step split i = some outcome) :
    outcome.2.1.Scanned buffer outcome.2.2 outcome.1 := by
  fun_induction splitLoop buffer step split i with
  | case1 =>
    cases hloop
    exact h
  | case2 =>
    cases hloop
    exact h
  | case3 => cases hloop
  | case4 step split i c hc step' split' hturn ih =>
    refine ih ((hplaced.turn hturn).mono (Nat.le_add_right _ _)) ?_ hloop
    refine h.turn hplaced hc hturn (fun hskips => ?_) fun c hc hskips => ?_
    · rw [dif_neg (by rw [hskips]; exact Bool.false_ne_true)]
    · rw [dif_pos hskips, ← List.getElem?_drop] at hc
      exact not_whiteSpace_of_skip _ c hc

/-- The value that `json_split` has found is one that it takes whole. -/
theorem wholeValue_of_jsonSplit (h : jsonSplit buffer = some (next, split)) :
    WholeValue (split.member buffer).value := by
  unfold jsonSplit at h
  dsimp only at h
  split_ifs at h
  obtain ⟨⟨step, found, index⟩, hloop, hexit⟩ := Option.bind_eq_some_iff.mp h
  have hscanned := splitLoop_scanned (show ItemSplit.Placed {} _ .start from trivial)
    (show ItemSplit.Scanned buffer {} _ .start from trivial) hloop
  have hplaced := (splitLoop_placed (show ItemSplit.Placed {} _ .start from trivial)
    (jsonSkipSpace_le_length buffer) hloop).1
  obtain ⟨rfl, heq⟩ | ⟨rfl, heq⟩ := splitExit_eq_some hexit
  · change split = _ at heq
    subst heq
    obtain ⟨c, rest, hslice, hreserved, hspace, hrest⟩ := hscanned
    obtain ⟨-, -, hstart⟩ := hplaced
    rw [value_eq_slice]
    rw [Nat.add_sub_cancel' hstart.le, hslice]
    exact .plain hreserved hspace hrest
  · change split = _ at heq
    subst heq
    exact hscanned

/-- **The values of an item are taken whole.** -/
theorem wholeValue_of_members (buffer : List Byte) :
    ∀ ms, members buffer = some ms → ∀ m ∈ ms, WholeValue m.value := by
  fun_induction members buffer with
  | case1 => exact fun ms h => nomatch h
  | case2 => exact fun ms h => nomatch h
  | case3 buffer next split hsplit hneg rest hend =>
    rintro ms h m hm
    cases h
    rw [List.mem_singleton.mp hm]
    exact wholeValue_of_jsonSplit hsplit
  | case4 buffer next split hsplit hneg rest hend ih =>
    rintro ms h m hm
    obtain ⟨rest', hrest, rfl⟩ := Option.map_eq_some_iff.mp h
    rcases List.mem_cons.mp hm with rfl | hm
    · exact wholeValue_of_jsonSplit hsplit
    · exact ih rest' hrest m hm

end

/-- The text can be the value of a member of an item with this token: an item is shorter than
2 ^ 31 bytes, with its braces. -/
def RoomInItem (token text : List Byte) : Prop := (Member.text ⟨token, text⟩).length + 2 < 2 ^ 31

/-- A value of an item has room in it. -/
theorem roomInItem_of_mem {buffer : List Byte} {ms : List Member}
    (hlength : buffer.length + 2 < 2 ^ 31) (hmembers : members buffer = some ms) (hm : m ∈ ms) :
    RoomInItem m.token m.value :=
  (Nat.add_le_add_right (length_text_le buffer ms hmembers m hm) 2).trans_lt hlength

end Lwm2m.Codec

/-
# What JSON and SenML items are accepted

`prv_parseItem` of `data/json.c`, and what it and the one of `data/senml_json.c` accept as a boolean
and as a name.

Booleans are compared over their own length, so a beginning of `true` or `false` is taken for it,
and so is anything behind one of them and a NUL.  `data/json.c` reads names by hand, where an empty
segment gives the identifier 0 and 65535 is read as a number; `data/senml_json.c` hands them to
`lwm2m_stringToUri`, with the base name up to its first NUL in front of them.
-/

import Lwm2m.Codec.SenmlItem

namespace Lwm2m.Codec

open Core Library

/-! ### JSON records -/

/-- `_type` of `data/json.c`, with the bytes of the value. -/
inductive ItemValue
  | unset
  | boolean (value : Bool)
  | float (text : List Byte)
  | string (text : List Byte)
  | objectLink (text : List Byte)
  deriving DecidableEq, Repr

/-- `_record_t` of `data/json.c`. -/
structure JsonItem where
  ids : List UInt16 := [lwm2mMaxId, lwm2mMaxId, lwm2mMaxId, lwm2mMaxId]
  value : ItemValue := .unset

/-- The digits up to the next '/' in `prv_parseItem`. -/
def readSegment (readId : UInt32) : List Byte → Option (UInt32 × List Byte)
  | [] => some (readId, [])
  | c :: rest =>
    if c = 0x2F then some (readId, c :: rest)
    else if c < 0x30 ∨ c > 0x39 then none
    else
      let readId := readId * 10 + (c - 0x30).toUInt32
      if readId > 0xFFFF then none else readSegment readId rest

/-- The loop over the segments, with so many identifiers left to store. -/
def readSegments : ℕ → List Byte → Option (List UInt16)
  | 0, _ => none
  | k + 1, name => do
    let (readId, rest) ← readSegment 0 name
    match rest with
    | [] => return [readId.toUInt16]
    | _ :: rest => if k = 0 then none else return readId.toUInt16 :: (← readSegments k rest)

/-- The identifiers of a name. -/
def readName (value : List Byte) : Option (List UInt16) := do
  let name ← unquoted value
  -- a starting '/' is ignored
  if name.head? = some 0x2F then if value.length < 4 then none else readSegments 4 name.tail
  else readSegments 4 name

/-- One turn of the loop of `prv_parseItem` of `data/json.c`. -/
def jsonReadMember (record : JsonItem) (m : Member) : Option JsonItem :=
  match m.token with
  | [c] =>
    if c = 0x6E then
      if record.ids.head? ≠ some lwm2mMaxId then none
      else (readName m.value).map fun ids =>
        { record with ids := ids ++ record.ids.drop ids.length }
    else if c = 0x76 then
      if record.value ≠ .unset then none else some { record with value := .float m.value }
    else if c = 0x74 then some record
    else none
  | [c, d] =>
    if d ≠ 0x76 then none
    else if c = 0x62 then
      if record.value ≠ .unset then none
      else (convertBoolean m.value).map fun b => { record with value := .boolean b }
    else if c = 0x6F then
      if record.value ≠ .unset then none
      else (unquoted m.value).map fun text => { record with value := .objectLink text }
    else if c = 0x73 then
      if record.value ≠ .unset then none
      else (unquoted m.value).map fun text => { record with value := .string text }
    else none
  | _ => none

/-- `prv_parseItem` of `data/json.c`. -/
def jsonParseItem (buffer : List Byte) : Option JsonItem := readMembers jsonReadMember buffer {}

/-! ### Booleans -/

/-- The item has this member. -/
def HasMember (buffer token value : List Byte) : Prop :=
  ∃ ms, members buffer = some ms ∧ ⟨token, value⟩ ∈ ms

/-- **Only `true` and `false` are accepted as a boolean** by `prv_parseItem` of `data/json.c`. -/
def JsonBooleanStrict (value : List Byte) : Prop :=
  ∀ buffer record, buffer.length + 2 < 2 ^ 31 → HasMember buffer [0x62, 0x76] value →
    jsonParseItem buffer = some record → value = jsonTrueString ∨ value = jsonFalseString

/-- The same of `data/senml_json.c`, in every pack. -/
def SenmlBooleanStrict (strtod : CString → Double × ℕ) (value : List Byte) : Prop :=
  ∀ items base buffer record base', Reached strtod items base → buffer.length + 2 < 2 ^ 31 →
    HasMember buffer Label.booleanValue.token value →
    senmlParseItem strtod buffer base = .ok (some (record, base')) →
    value = jsonTrueString ∨ value = jsonFalseString

/-- The value is taken for a literal that it is not: it is a beginning of the literal, or the
literal with a NUL behind it. -/
def MistakenFor (literal : CString) (value : List Byte) : Prop :=
  (value ≠ [] ∧ value <+: literal ∧ value ≠ literal) ∨ ∃ rest, value = literal ++ 0 :: rest

/-- A value of an item that is taken for `true` or `false`. -/
def MistakenBoolean (value : List Byte) : Prop :=
  (MistakenFor jsonTrueString value ∨ MistakenFor jsonFalseString value) ∧ WholeValue value ∧
    RoomInItem Label.booleanValue.token value

variable {buffer : List Byte}

section

variable {literal : CString} {value : List Byte}

/-- What a comparison over the length of the value accepts. -/
theorem lwm2mStrncmpEq_length_iff (h : 0 ∉ literal) (value : List Byte) :
    lwm2mStrncmpEq literal value value.length = true ↔
      value <+: literal ∨ ∃ rest, value = literal ++ 0 :: rest := by
  induction literal generalizing value with
  | nil =>
    cases value with
    | nil => simp [lwm2mStrncmpEq]
    | cons b value =>
      simp only [lwm2mStrncmpEq, List.length_cons, List.headD_nil, List.headD_cons,
        beq_self_eq_true, Bool.true_or, Bool.and_true, beq_iff_eq, List.prefix_nil, reduceCtorEq,
        false_or, List.nil_append, List.cons.injEq]
      constructor
      · exact fun h => ⟨value, h.symm, rfl⟩
      · rintro ⟨_, h, _⟩
        exact h.symm
  | cons c literal ih =>
    obtain ⟨hc, hrest⟩ := not_or.mp (List.mem_cons.not.mp h)
    cases value with
    | nil => simp [lwm2mStrncmpEq]
    | cons b value =>
      simp only [lwm2mStrncmpEq, List.length_cons, List.headD_cons, List.tail_cons,
        Bool.and_eq_true, beq_iff_eq, Bool.or_eq_true, Ne.symm hc, false_or, ih hrest,
        List.cons_prefix_cons, List.cons_append, List.cons.injEq]
      constructor
      · rintro ⟨rfl, hbegin | ⟨rest, hnul⟩⟩
        · exact .inl ⟨rfl, hbegin⟩
        · exact .inr ⟨rest, rfl, hnul⟩
      · rintro (⟨rfl, hbegin⟩ | ⟨rest, rfl, hnul⟩)
        · exact ⟨rfl, .inl hbegin⟩
        · exact ⟨rfl, .inr ⟨rest, hnul⟩⟩

/-- A value is converted when it is a literal or mistaken for one. -/
theorem exists_convertBoolean_iff (hne : value ≠ []) :
    (∃ b, convertBoolean value = some b) ↔
      (value = jsonTrueString ∨ value = jsonFalseString) ∨
        MistakenFor jsonTrueString value ∨ MistakenFor jsonFalseString value := by
  have htrue := lwm2mStrncmpEq_length_iff (show 0 ∉ jsonTrueString by decide) value
  have hfalse := lwm2mStrncmpEq_length_iff (show 0 ∉ jsonFalseString by decide) value
  have hsome : (∃ b, convertBoolean value = some b) ↔
      lwm2mStrncmpEq jsonTrueString value value.length = true ∨
        lwm2mStrncmpEq jsonFalseString value value.length = true := by
    unfold convertBoolean
    split_ifs <;> simp_all
  have hliteral {literal : CString} :
      (value <+: literal ∨ ∃ rest, value = literal ++ 0 :: rest) ↔
        value = literal ∨ MistakenFor literal value := by
    constructor
    · rintro (hbegin | hnul)
      · by_cases heq : value = literal
        · exact .inl heq
        · exact .inr (.inl ⟨hne, hbegin, heq⟩)
      · exact .inr (.inr hnul)
    · rintro (rfl | ⟨-, hbegin, -⟩ | hnul)
      · exact .inl List.prefix_rfl
      · exact .inl hbegin
      · exact .inr hnul
  rw [hsome, htrue, hfalse, hliteral, hliteral]
  tauto

/-- A value that is mistaken for a literal is none. -/
theorem MistakenBoolean.not_literal (h : MistakenBoolean value) :
    ¬ (value = jsonTrueString ∨ value = jsonFalseString) := by
  have hmistaken {literal : CString} (h : MistakenFor literal value)
      (hliteral : literal = jsonTrueString ∨ literal = jsonFalseString) :
      ¬ (value = jsonTrueString ∨ value = jsonFalseString) := by
    rcases h with ⟨-, hbegin, hne⟩ | ⟨rest, hnul⟩
    · rcases hliteral with rfl | rfl
      · rintro (rfl | rfl)
        · exact hne rfl
        · exact absurd hbegin (by decide)
      · rintro (rfl | rfl)
        · exact absurd hbegin (by decide)
        · exact hne rfl
    · have hzero : 0 ∈ value := by
        rw [hnul]
        exact List.mem_append_right _ List.mem_cons_self
      rintro (rfl | rfl) <;> exact absurd hzero (by decide)
  exact h.1.elim (hmistaken · (.inl rfl)) (hmistaken · (.inr rfl))

/-- Every member that a loop passes is accepted in some state. -/
theorem exists_of_mem_foldlM {σ α : Type} {f : σ → α → Option σ} {l : List α} {s s' : σ}
    (h : l.foldlM f s = some s') : ∀ a ∈ l, ∃ t t', f t a = some t' := by
  induction l generalizing s with
  | nil => exact fun a ha => absurd ha List.not_mem_nil
  | cons b l ih =>
    rw [List.foldlM_cons, Option.bind_eq_bind, Option.bind_eq_some_iff] at h
    obtain ⟨t, hb, hrest⟩ := h
    intro a ha
    rcases List.mem_cons.mp ha with rfl | ha
    · exact ⟨s, t, hb⟩
    · exact ih hrest a ha

theorem WholeValue.ne_nil (h : WholeValue value) : value ≠ [] := by
  cases h <;> exact List.cons_ne_nil _ _

/-- A boolean member that is accepted is a literal or mistaken for one. -/
theorem boolean_of_member {token : List Byte} {b : Bool} (hlength : buffer.length + 2 < 2 ^ 31)
    (htoken : token.length = 2) (h : HasMember buffer token value)
    (hconvert : convertBoolean value = some b) :
    (value = jsonTrueString ∨ value = jsonFalseString) ∨ MistakenBoolean value := by
  obtain ⟨ms, hmembers, hm⟩ := h
  have hwhole := wholeValue_of_members buffer ms hmembers _ hm
  have hroom := roomInItem_of_mem hlength hmembers hm
  refine ((exists_convertBoolean_iff hwhole.ne_nil).mp ⟨b, hconvert⟩).imp_right fun hmistaken => ?_
  refine ⟨hmistaken, hwhole, ?_⟩
  rw [RoomInItem, length_text] at hroom ⊢
  rw [htoken] at hroom
  exact hroom

theorem jsonReadMember_boolean (record : JsonItem) (value : List Byte) :
    jsonReadMember record ⟨[0x62, 0x76], value⟩ =
      if record.value ≠ .unset then none
      else (convertBoolean value).map fun b => { record with value := .boolean b } := rfl

theorem jsonBooleanStrict_iff (value : List Byte) :
    JsonBooleanStrict value ↔ ¬ MistakenBoolean value := by
  constructor
  · intro hstrict hmistaken
    obtain ⟨hliteral, hwhole, hroom⟩ := id hmistaken
    have hroom' : RoomInItem [0x62, 0x76] value := by
      rw [RoomInItem, length_text] at hroom ⊢
      exact hroom
    have hmembers : members (Member.text ⟨[0x62, 0x76], value⟩) = some [⟨[0x62, 0x76], value⟩] :=
      members_text
        ⟨show ∀ c ∈ ([0x62, 0x76] : List Byte), c ≠ 0x22 ∧ c ≠ 0x2C by decide +kernel, hwhole⟩
        (Nat.lt_of_add_right_lt hroom')
    obtain ⟨b, hb⟩ := (exists_convertBoolean_iff hwhole.ne_nil).mpr (.inr hliteral)
    have hparse : jsonParseItem (Member.text ⟨[0x62, 0x76], value⟩) =
        some { value := .boolean b } := by
      rw [jsonParseItem, readMembers_eq, hmembers, Option.bind_some, List.foldlM_cons,
        jsonReadMember_boolean, if_neg (not_not.mpr rfl), hb]
      rfl
    exact hmistaken.not_literal
      (hstrict _ _ hroom' ⟨_, hmembers, List.mem_singleton.mpr rfl⟩ hparse)
  · intro hmistaken buffer record hlength hmember hparse
    obtain ⟨ms, hmembers, hm⟩ := id hmember
    rw [jsonParseItem, readMembers_eq, hmembers, Option.bind_some] at hparse
    obtain ⟨t, t', hread⟩ := exists_of_mem_foldlM hparse _ hm
    rw [jsonReadMember_boolean] at hread
    split_ifs at hread
    obtain ⟨b, hb, -⟩ := Option.map_eq_some_iff.mp hread
    exact (boolean_of_member hlength rfl hmember hb).resolve_right hmistaken

theorem senmlBooleanStrict_iff (strtod : CString → Double × ℕ) (value : List Byte) :
    SenmlBooleanStrict strtod value ↔ ¬ MistakenBoolean value := by
  constructor
  · intro hstrict hmistaken
    obtain ⟨hliteral, hwhole, hroom⟩ := id hmistaken
    obtain ⟨b, hb⟩ := (exists_convertBoolean_iff hwhole.ne_nil).mpr (.inr hliteral)
    have hread : readLabel strtod { base := {} } value .booleanValue =
        some { base := {}, value := .boolean b } := by
      change ((convertBoolean value).map Leaf.boolean).map _ = _
      rw [hb]
      rfl
    obtain ⟨hmembers, hparse⟩ := senmlParseItem_member hwhole hroom hread
      (show recordIds [] none = .ok (some {}) from rfl)
    exact hmistaken.not_literal (hstrict [] {} _ _ _ .start hroom
      ⟨_, hmembers, List.mem_singleton.mpr rfl⟩ (hparse.trans rfl))
  · intro hmistaken items base buffer record base' _ hlength hmember hparse
    obtain hnone | ⟨ms, state, ids, hmembers, hfold, -, -⟩ :=
      senmlParseItem_cases strtod buffer base
    · rw [hnone] at hparse
      cases hparse
    obtain ⟨ms', hmembers', hm⟩ := id hmember
    obtain rfl := Option.some.inj (hmembers'.symm.trans hmembers)
    have hleaf := (((valueSlot strtod).foldlM_readMember hfold).1 _ hm .booleanValue
      ⟨rfl, rfl⟩).1
    obtain ⟨b, hb, -⟩ := Option.map_eq_some_iff.mp hleaf
    exact (boolean_of_member hlength rfl hmember hb).resolve_right hmistaken

end

/-! ### Names in JSON -/

/-- Segments with a '/' between them. -/
def pathText (segments : List (List Byte)) : List Byte := [0x2F].intercalate segments

/-- A segment of a path: a numeral that writes an identifier. -/
def IsSegment (s : List Byte) : Prop := IsNumeral s ∧ digitsValue 0 s < 0xFFFF

/-- What `prv_parseItem` of `data/json.c` takes for a segment. -/
def TakenSegment (s : List Byte) : Prop := s.all isDigit ∧ digitsValue 0 s ≤ 0xFFFF

/-- A name is a path of one to four segments, behind a '/' or not. -/
def IsName (name : List Byte) : Prop :=
  ∃ segments, segments ≠ [] ∧ segments.length ≤ 4 ∧ (∀ s ∈ segments, IsSegment s) ∧
    (name = pathText segments ∨ name = 0x2F :: pathText segments)

/-- **Only names are accepted** by `prv_parseItem` of `data/json.c`. -/
def JsonNameStrict (name : List Byte) : Prop :=
  ∀ buffer record, buffer.length + 2 < 2 ^ 31 → HasMember buffer [0x6E] (quoted name) →
    jsonParseItem buffer = some record → IsName name

/-- What `prv_parseItem` of `data/json.c` takes for a name, with these segments.  A '/' at the start
is passed over, unless it is all of the name. -/
def TakenName (name : List Byte) (segments : List (List Byte)) : Prop :=
  segments ≠ [] ∧ segments.length ≤ 4 ∧ (∀ s ∈ segments, TakenSegment s) ∧
    (name = pathText segments ∧ name.head? ≠ some 0x2F ∨
      name = 0x2F :: pathText segments ∧ 2 ≤ name.length)

/-- The name of an item has an empty segment or one of the value 65535. -/
def LooseName (name : List Byte) : Prop :=
  (∃ segments, TakenName name segments ∧ ∃ s ∈ segments, s = [] ∨ digitsValue 0 s = 0xFFFF) ∧
    RoomInItem [0x6E] (quoted name)

section

variable {name rest : List Byte} {segments segments' : List (List Byte)} {k : ℕ}

theorem digit_ne_slash {digits : List Byte} (h : digits.all isDigit) : (0x2F : Byte) ∉ digits :=
  fun hmem => absurd (List.all_eq_true.mp h _ hmem) (by decide)

theorem pathText_cons (s : List Byte) (h : segments ≠ []) :
    pathText (s :: segments) = s ++ 0x2F :: pathText segments := by
  rw [pathText, List.intercalate_cons_of_ne_nil h, List.append_assoc]
  rfl

theorem pathText_singleton (s : List Byte) : pathText [s] = s := List.intercalate_singleton

theorem pathText_inj (hne : segments ≠ []) (hne' : segments' ≠ [])
    (h : ∀ s ∈ segments, s.all isDigit) (h' : ∀ s ∈ segments', s.all isDigit)
    (heq : pathText segments = pathText segments') : segments = segments' := by
  have hsplit := List.splitOn_intercalate (0x2F : Byte) (fun s hs => digit_ne_slash (h s hs)) hne
  have hsplit' := List.splitOn_intercalate (0x2F : Byte) (fun s hs => digit_ne_slash (h' s hs)) hne'
  rw [← hsplit, ← hsplit']
  exact congrArg (List.splitOn 0x2F) heq

variable {readId : UInt32} {c : Byte}

/-- One digit further. -/
theorem toNat_nextId (hid : readId.toNat ≤ 0xFFFF) (hc : isDigit c) :
    (readId * 10 + (c - 0x30).toUInt32).toNat = 10 * readId.toNat + (c.toNat - 48) := by
  have hsub : (c - 0x30).toUInt32.toNat = c.toNat - 48 := by
    rw [UInt8.toNat_toUInt32, UInt8.toNat_sub_of_le _ _ (isDigit_iff_and.mp hc).1]
    rfl
  have hten : (10 : UInt32).toNat = 10 := rfl
  have hnine := digit_le hc
  rw [UInt32.toNat_add, UInt32.toNat_mul, hsub, hten]
  omega

theorem readSegment_eq_some_iff {r : UInt32} (hid : readId.toNat ≤ 0xFFFF) :
    readSegment readId name = some (r, rest) ↔
      ∃ digits, name = digits ++ rest ∧ digits.all isDigit ∧
        digitsValue readId.toNat digits = r.toNat ∧ r.toNat ≤ 0xFFFF ∧
        ∀ c ∈ rest.head?, c = 0x2F := by
  induction name generalizing readId with
  | nil =>
    rw [readSegment, Option.some.injEq, Prod.mk.injEq]
    constructor
    · rintro ⟨rfl, rfl⟩
      exact ⟨[], rfl, rfl, rfl, hid, fun c hc => nomatch hc⟩
    · rintro ⟨digits, hname, -, hvalue, -, -⟩
      obtain ⟨rfl, rfl⟩ := List.append_eq_nil_iff.mp hname.symm
      exact ⟨UInt32.toNat_inj.mp hvalue, rfl⟩
  | cons c name ih =>
    rw [readSegment]
    by_cases hslash : c = 0x2F
    · subst hslash
      rw [if_pos rfl, Option.some.injEq, Prod.mk.injEq]
      constructor
      · rintro ⟨rfl, rfl⟩
        exact ⟨[], rfl, rfl, rfl, hid, fun c hc => (Option.some.inj hc).symm⟩
      · rintro ⟨digits, hname, hdigits, hvalue, -, -⟩
        cases digits with
        | nil => exact ⟨UInt32.toNat_inj.mp hvalue, hname⟩
        | cons d digits =>
          obtain ⟨rfl, -⟩ := List.cons.inj hname
          exact absurd List.mem_cons_self (digit_ne_slash hdigits)
    rw [if_neg hslash]
    by_cases hdigit : isDigit c
    · have hbounds := isDigit_iff_and.mp hdigit
      have hnext := toNat_nextId hid hdigit
      rw [if_neg (by rw [not_or, UInt8.not_lt, gt_iff_lt, UInt8.not_lt]; exact hbounds)]
      have hall {digits : List Byte} (hname : c :: name = digits ++ rest)
          (hrest : ∀ c ∈ rest.head?, c = 0x2F) :
          ∃ digits', digits = c :: digits' ∧ name = digits' ++ rest := by
        cases digits with
        | nil =>
          rw [List.nil_append] at hname
          exact absurd (hrest c (by rw [← hname]; rfl)) hslash
        | cons d digits =>
          obtain ⟨rfl, htail⟩ := List.cons.inj hname
          exact ⟨digits, rfl, htail⟩
      by_cases hlarge : readId * 10 + (c - 0x30).toUInt32 > 0xFFFF
      · rw [if_pos hlarge]
        refine iff_of_false (Option.some_ne_none _).symm ?_
        rintro ⟨digits, hname, -, hvalue, hle, hrest⟩
        obtain ⟨digits, rfl, -⟩ := hall hname hrest
        rw [digitsValue_cons] at hvalue
        have := le_digitsValue (10 * readId.toNat + (c.toNat - 48)) digits
        have hlt := UInt32.lt_iff_toNat_lt.mp hlarge
        rw [hnext] at hlt
        change 65535 < _ at hlt
        omega
      · have hle : (readId * 10 + (c - 0x30).toUInt32).toNat ≤ 0xFFFF :=
          UInt32.le_iff_toNat_le.mp (UInt32.not_lt.mp hlarge)
        rw [if_neg hlarge, ih hle, hnext]
        constructor
        · rintro ⟨digits, rfl, hdigits, hvalue, hr, hrest⟩
          refine ⟨c :: digits, rfl, ?_, ?_, hr, hrest⟩
          · rw [List.all_cons, hdigit, hdigits]
            rfl
          · rw [digitsValue_cons, hvalue]
        · rintro ⟨digits, hname, hdigits, hvalue, hr, hrest⟩
          obtain ⟨digits, rfl, htail⟩ := hall hname hrest
          rw [List.all_cons, Bool.and_eq_true] at hdigits
          rw [digitsValue_cons] at hvalue
          exact ⟨digits, htail, hdigits.2, hvalue, hr, hrest⟩
    · have hbounds : c < 0x30 ∨ c > 0x39 := by
        rw [isDigit_iff_and, not_and_or, UInt8.not_le, UInt8.not_le] at hdigit
        exact hdigit
      rw [if_pos hbounds]
      refine iff_of_false (Option.some_ne_none _).symm ?_
      rintro ⟨digits, hname, hdigits, -, -, hrest⟩
      cases digits with
      | nil =>
        rw [List.nil_append] at hname
        exact hslash (hrest c (by rw [← hname]; rfl))
      | cons d digits =>
        obtain ⟨rfl, -⟩ := List.cons.inj hname
        rw [List.all_cons, Bool.and_eq_true] at hdigits
        exact hdigit hdigits.1

/-- **The segments that are read.** -/
theorem exists_readSegments_iff :
    (∃ ids, readSegments k name = some ids) ↔
      ∃ segments, segments ≠ [] ∧ segments.length ≤ k ∧ (∀ s ∈ segments, TakenSegment s) ∧
        name = pathText segments := by
  induction k generalizing name with
  | zero =>
    refine iff_of_false (fun ⟨ids, h⟩ => nomatch h) ?_
    rintro ⟨segments, hne, hlength, -⟩
    exact hne (List.length_eq_zero_iff.mp (Nat.le_zero.mp hlength))
  | succ k ih =>
    have hzero : (0 : UInt32).toNat ≤ 0xFFFF := Nat.zero_le _
    constructor
    · rintro ⟨ids, h⟩
      rw [readSegments, Option.bind_eq_bind, Option.bind_eq_some_iff] at h
      obtain ⟨⟨readId, rest⟩, hsegment, h⟩ := h
      obtain ⟨digits, rfl, hdigits, hvalue, hle, hrest⟩ :=
        (readSegment_eq_some_iff hzero).mp hsegment
      have htaken : TakenSegment digits := ⟨hdigits, hvalue.trans_le hle⟩
      cases rest with
      | nil =>
        exact ⟨[digits], List.cons_ne_nil _ _, Nat.succ_le_succ (Nat.zero_le k),
          fun s hs => List.mem_singleton.mp hs ▸ htaken,
          by rw [pathText_singleton, List.append_nil]⟩
      | cons c rest =>
        obtain rfl := hrest c rfl
        split_ifs at h with hk
        rw [Option.bind_eq_bind, Option.bind_eq_some_iff] at h
        obtain ⟨ids', hids, -⟩ := h
        obtain ⟨segments, hne, hlength, hall, rfl⟩ := ih.mp ⟨ids', hids⟩
        exact ⟨digits :: segments, List.cons_ne_nil _ _, Nat.succ_le_succ hlength,
          List.forall_mem_cons.mpr ⟨htaken, hall⟩, (pathText_cons digits hne).symm⟩
    · rintro ⟨segments, hne, hlength, hall, rfl⟩
      obtain ⟨s, segments, rfl⟩ := List.exists_cons_of_ne_nil hne
      obtain ⟨⟨hdigits, hle⟩, hall⟩ := List.forall_mem_cons.mp hall
      have hvalue : (UInt32.ofNat (digitsValue 0 s)).toNat = digitsValue 0 s :=
        UInt32.toNat_ofNat_of_lt' (hle.trans_lt (by decide))
      have hread (rest : List Byte) (hrest : ∀ c ∈ rest.head?, c = 0x2F) :
          readSegment 0 (s ++ rest) = some (UInt32.ofNat (digitsValue 0 s), rest) :=
        (readSegment_eq_some_iff hzero).mpr
          ⟨s, rfl, hdigits, hvalue.symm, hvalue.trans_le hle, hrest⟩
      by_cases hsegments : segments = []
      · subst hsegments
        have hread := hread [] fun c hc => nomatch hc
        rw [List.append_nil] at hread
        refine ⟨[(UInt32.ofNat (digitsValue 0 s)).toUInt16], ?_⟩
        rw [pathText_singleton, readSegments, hread]
        rfl
      · obtain ⟨ids, hids⟩ :=
          ih.mpr ⟨segments, hsegments, Nat.le_of_succ_le_succ hlength, hall, rfl⟩
        have hk : k ≠ 0 := by
          rintro rfl
          exact hsegments (List.length_eq_zero_iff.mp
            (Nat.le_zero.mp (Nat.le_of_succ_le_succ hlength)))
        have hread := hread (0x2F :: pathText segments) fun c hc => (Option.some.inj hc).symm
        refine ⟨(UInt32.ofNat (digitsValue 0 s)).toUInt16 :: ids, ?_⟩
        rw [pathText_cons s hsegments, readSegments, hread, Option.bind_eq_bind, Option.bind_some]
        dsimp only
        rw [if_neg hk, hids]
        rfl

theorem unquoted_quoted (text : List Byte) : unquoted (quoted text) = some text := by
  have hlength : (quoted text).length = text.length + 2 := by simp [quoted]
  have hlast : (quoted text).getLast? = some 0x22 := by
    rw [quoted, ← List.cons_append, List.getLast?_concat]
  have hinside : ((quoted text).drop 1).take ((quoted text).length - 2) = text := by
    rw [hlength, Nat.add_sub_cancel]
    exact List.take_left
  rw [unquoted, if_neg (by rw [hlength, hlast]; simp [quoted]), hinside]

/-- **The names that are read.** -/
theorem exists_readName_iff :
    (∃ ids, readName (quoted name) = some ids) ↔ ∃ segments, TakenName name segments := by
  have hlength : (quoted name).length < 4 ↔ name.length < 2 := by
    simp only [quoted, List.length_cons, List.length_append, List.length_nil]
    omega
  rw [readName, unquoted_quoted, Option.bind_eq_bind, Option.bind_some]
  by_cases hslash : name.head? = some 0x2F
  · rw [if_pos hslash]
    obtain ⟨rest, rfl⟩ : ∃ rest, name = 0x2F :: rest :=
      ⟨name.tail, (List.cons_head?_tail hslash).symm⟩
    by_cases hshort : (0x2F :: rest).length < 2
    · rw [if_pos (hlength.mpr hshort)]
      refine iff_of_false (by rintro ⟨ids, h⟩; cases h) ?_
      rintro ⟨segments, -, -, -, ⟨-, hhead⟩ | ⟨-, hlong⟩⟩
      · exact hhead hslash
      · omega
    · rw [if_neg (mt hlength.mp hshort), List.tail_cons, exists_readSegments_iff]
      refine exists_congr fun segments => ?_
      constructor
      · rintro ⟨hne, hle, hall, rfl⟩
        exact ⟨hne, hle, hall, .inr ⟨rfl, Nat.le_of_not_lt hshort⟩⟩
      · rintro ⟨hne, hle, hall, ⟨-, hhead⟩ | ⟨heq, -⟩⟩
        · exact absurd hslash hhead
        · exact ⟨hne, hle, hall, (List.cons.inj heq).2⟩
  · rw [if_neg hslash, exists_readSegments_iff]
    refine exists_congr fun segments => ?_
    constructor
    · rintro ⟨hne, hle, hall, rfl⟩
      exact ⟨hne, hle, hall, .inl ⟨rfl, hslash⟩⟩
    · rintro ⟨hne, hle, hall, ⟨heq, -⟩ | ⟨rfl, -⟩⟩
      · exact ⟨hne, hle, hall, heq⟩
      · exact absurd rfl hslash

theorem mem_pathText (h : c ∈ pathText segments) :
    c = 0x2F ∨ ∃ s ∈ segments, c ∈ s := by
  induction segments with
  | nil => cases h
  | cons s segments ih =>
    by_cases hsegments : segments = []
    · subst hsegments
      rw [pathText_singleton] at h
      exact .inr ⟨s, List.mem_cons_self, h⟩
    · rw [pathText_cons s hsegments, List.mem_append, List.mem_cons] at h
      rcases h with h | rfl | h
      · exact .inr ⟨s, List.mem_cons_self, h⟩
      · exact .inl rfl
      · refine (ih h).imp_right fun ⟨t, ht, hc⟩ => ⟨t, List.mem_cons_of_mem s ht, hc⟩

/-- A path of segments does not start with a '/'. -/
theorem head_pathText (hne : segments ≠ []) (h : ∀ s ∈ segments, IsSegment s) :
    (pathText segments).head? ≠ some 0x2F := by
  obtain ⟨s, segments, rfl⟩ := List.exists_cons_of_ne_nil hne
  obtain ⟨⟨⟨hs, hdigits⟩, -⟩, -⟩ := List.forall_mem_cons.mp h
  obtain ⟨c, s, rfl⟩ := List.exists_cons_of_ne_nil hs
  have hhead : (pathText ((c :: s) :: segments)).head? = some c := by
    by_cases hsegments : segments = []
    · rw [hsegments, pathText_singleton]
      rfl
    · rw [pathText_cons _ hsegments]
      rfl
  rw [hhead]
  intro heq
  exact digit_ne_slash hdigits (Option.some.inj heq ▸ List.mem_cons_self)

/-- A loose name is no name. -/
theorem LooseName.not_isName (h : LooseName name) : ¬ IsName name := by
  obtain ⟨⟨segments, ⟨hne, -, hall, hform⟩, s, hs, hbad⟩, -⟩ := h
  rintro ⟨segments', hne', -, hall', hform'⟩
  have hsame (heq : pathText segments = pathText segments') : False := by
    have hsegments := pathText_inj hne hne' (fun s hs => (hall s hs).1)
      (fun s hs => (hall' s hs).1.2) heq
    rw [hsegments] at hs
    obtain ⟨⟨hsne, -⟩, hlt⟩ := hall' s hs
    rcases hbad with rfl | hvalue
    · exact hsne rfl
    · omega
  have hhead := head_pathText hne' hall'
  rcases hform with ⟨heq, hslash⟩ | ⟨heq, -⟩ <;> rcases hform' with heq' | heq'
  · exact hsame (heq.symm.trans heq')
  · exact hslash (by rw [heq']; rfl)
  · rw [← heq', heq] at hhead
    exact hhead rfl
  · exact hsame (List.cons.inj (heq.symm.trans heq')).2

theorem unended_of_plain {previous : Byte} {chars : List Byte} (hprevious : previous ≠ 0x5C)
    (h : ∀ c ∈ chars, c ≠ 0x22 ∧ c ≠ 0x5C) : Unended previous chars := by
  induction chars generalizing previous with
  | nil => exact hprevious
  | cons c chars ih =>
    obtain ⟨hc, hchars⟩ := List.forall_mem_cons.mp h
    exact ⟨fun hmark => hc.1 hmark.1, ih hc.2 hchars⟩

/-- The characters of a name that is taken do not end it. -/
theorem TakenName.wholeValue (h : TakenName name segments) : WholeValue (quoted name) := by
  obtain ⟨-, -, hall, hform⟩ := h
  refine .quoted (unended_of_plain (by decide) fun c hc => ?_)
  have hmem : c = 0x2F ∨ ∃ s ∈ segments, c ∈ s := by
    rcases hform with ⟨rfl, -⟩ | ⟨rfl, -⟩
    · exact mem_pathText hc
    · exact (List.mem_cons.mp hc).elim .inl mem_pathText
  rcases hmem with rfl | ⟨s, hs, hc⟩
  · decide
  · have hdigit := List.all_eq_true.mp (hall s hs).1 c hc
    constructor <;>
      · rintro rfl
        exact absurd hdigit (by decide)

theorem jsonReadMember_name (record : JsonItem) (value : List Byte) :
    jsonReadMember record ⟨[0x6E], value⟩ =
      if record.ids.head? ≠ some lwm2mMaxId then none
      else (readName value).map fun ids =>
        { record with ids := ids ++ record.ids.drop ids.length } := rfl

theorem jsonNameStrict_iff (name : List Byte) : JsonNameStrict name ↔ ¬ LooseName name := by
  constructor
  · intro hstrict hloose
    obtain ⟨⟨segments, htaken, -⟩, hroom⟩ := id hloose
    have hmembers : members (Member.text ⟨[0x6E], quoted name⟩) = some [⟨[0x6E], quoted name⟩] :=
      members_text ⟨show ∀ c ∈ ([0x6E] : List Byte), c ≠ 0x22 ∧ c ≠ 0x2C by decide +kernel,
        htaken.wholeValue⟩ (Nat.lt_of_add_right_lt hroom)
    obtain ⟨ids, hids⟩ := exists_readName_iff.mpr ⟨segments, htaken⟩
    obtain ⟨record, hfirst⟩ : ∃ record, jsonReadMember {} ⟨[0x6E], quoted name⟩ = some record := by
      rw [jsonReadMember_name, if_neg fun h => h rfl, hids]
      exact ⟨_, rfl⟩
    have hparse : jsonParseItem (Member.text ⟨[0x6E], quoted name⟩) = some record := by
      rw [jsonParseItem, readMembers_eq, hmembers, Option.bind_some, List.foldlM_cons, hfirst]
      rfl
    exact hloose.not_isName
      (hstrict _ record hroom ⟨_, hmembers, List.mem_singleton.mpr rfl⟩ hparse)
  · intro hloose buffer record hlength hmember hparse
    obtain ⟨ms, hmembers, hm⟩ := hmember
    rw [jsonParseItem, readMembers_eq, hmembers, Option.bind_some] at hparse
    obtain ⟨t, t', hread⟩ := exists_of_mem_foldlM hparse _ hm
    rw [jsonReadMember_name] at hread
    split_ifs at hread
    obtain ⟨ids, hids, -⟩ := Option.map_eq_some_iff.mp hread
    obtain ⟨segments, htaken⟩ := exists_readName_iff.mp ⟨ids, hids⟩
    have hgood : ∀ s ∈ segments, IsSegment s := by
      intro s hs
      have hnot : ¬ (s = [] ∨ digitsValue 0 s = 0xFFFF) := fun hbad =>
        hloose ⟨⟨segments, htaken, s, hs, hbad⟩, roomInItem_of_mem hlength hmembers hm⟩
      obtain ⟨hdigits, hle⟩ := htaken.2.2.1 s hs
      exact ⟨⟨fun hnil => hnot (.inl hnil), hdigits⟩, lt_of_le_of_ne hle fun h => hnot (.inr h)⟩
    obtain ⟨hne, hle, -, hform⟩ := htaken
    exact ⟨segments, hne, hle, hgood, hform.imp And.left And.left⟩

end

/-! ### Names in SenML -/

/-- The name of the record, with the base name in force in front of it, as they are written. -/
def writtenName (items : List (List Byte)) (buffer : List Byte) : Option (List Byte) :=
  let baseName := ((textInForce .baseName (items ++ [buffer])).bind unquoted).getD []
  let name := (memberValue .name buffer).bind unquoted
  if baseName = [] ∧ name = none then none else some (baseName ++ name.getD [])

/-- A path of up to four segments. -/
def IsPath (path : List Byte) : Prop :=
  ∃ segments, segments.length ≤ 4 ∧ (∀ s ∈ segments, IsSegment s) ∧
    path = 0x2F :: pathText segments

/-- **Only paths are accepted** by `prv_parseItem` of `data/senml_json.c`, in every pack. -/
def SenmlNameStrict (strtod : CString → Double × ℕ) (path : List Byte) : Prop :=
  ∀ items base buffer record base', Reached strtod items base → buffer.length + 2 < 2 ^ 31 →
    writtenName items buffer = some path →
    senmlParseItem strtod buffer base = .ok (some (record, base')) → IsPath path

/-- A text that `lwm2m_stringToUri` reads, in the buffer of `prv_parseItem`. -/
def TakenPath (path : List Byte) (numerals : List (List Byte)) : Prop :=
  WritesNumerals path numerals ∧ AllIds (wrapped numerals) ∧ path.length ≤ uriMaxStringLen

/-- The text is read, but it has white space at its start, a '/' behind its last number, or a number
that wraps. -/
def LoosePath (path : List Byte) : Prop :=
  ∃ numerals, TakenPath path numerals ∧
    (path.head? ≠ some 0x2F ∨ (2 ≤ path.length ∧ path.getLast? = some 0x2F) ∨
      ¬ AllIds (numerals.map (digitsValue 0)))

/-- There is a NUL in the base name, and without what stands behind it there the text is read, or
nothing is left. -/
def CutPath (path : List Byte) : Prop :=
  ∃ baseName name, path = baseName ++ name ∧ 0 ∈ baseName ∧ 2 ≤ baseName.length ∧
    baseName.length + 2 ≤ uriMaxStringLen ∧ Unended 0x22 baseName ∧
    (baseName.takeWhile (· ≠ 0) ++ name = [] ∨
      ∃ numerals, TakenPath (baseName.takeWhile (· ≠ 0) ++ name) numerals)

section

variable {strtod : CString → Double × ℕ} {path text value : List Byte}
  {segments numerals : List (List Byte)} {k : ℕ}

/-! #### Paths -/

/-- What stands behind the '/' of a URI is a path, with a '/' behind it or not. -/
theorem Numerals.eq_pathText {below : List Byte} (h : Numerals k below numerals) :
    numerals.length ≤ k ∧ (∀ s ∈ numerals, IsNumeral s) ∧
      (below = pathText numerals ∨ numerals ≠ [] ∧ below = pathText numerals ++ [0x2F]) := by
  induction h with
  | nothing => exact ⟨Nat.zero_le _, List.forall_mem_nil _, .inl rfl⟩
  | @number k digits hdigits =>
    exact ⟨Nat.succ_le_succ (Nat.zero_le k), fun s hs => List.mem_singleton.mp hs ▸ hdigits,
      .inl (pathText_singleton digits).symm⟩
  | @level k digits text numerals hdigits hbelow ih =>
    obtain ⟨hlength, hall, hform⟩ := ih
    refine ⟨Nat.succ_le_succ hlength, List.forall_mem_cons.mpr ⟨hdigits, hall⟩, ?_⟩
    by_cases hnumerals : numerals = []
    · subst hnumerals
      rcases hform with rfl | ⟨hne, -⟩
      · exact .inr ⟨List.cons_ne_nil _ _, by rw [pathText_singleton]; rfl⟩
      · exact absurd rfl hne
    · rcases hform with rfl | ⟨-, rfl⟩
      · exact .inl (pathText_cons digits hnumerals).symm
      · refine .inr ⟨List.cons_ne_nil _ _, ?_⟩
        rw [pathText_cons digits hnumerals]
        simp

theorem numerals_pathText (hlength : segments.length ≤ k + 1) (h : ∀ s ∈ segments, IsNumeral s) :
    Numerals (k + 1) (pathText segments) segments := by
  induction segments generalizing k with
  | nil => exact .nothing
  | cons s segments ih =>
    obtain ⟨hs, hall⟩ := List.forall_mem_cons.mp h
    by_cases hsegments : segments = []
    · subst hsegments
      rw [pathText_singleton]
      exact .number hs
    · have hpos := List.length_pos_of_ne_nil hsegments
      rw [List.length_cons] at hlength
      obtain ⟨k, rfl⟩ : ∃ n, k = n + 1 := ⟨k - 1, by omega⟩
      rw [pathText_cons s hsegments]
      exact .level hs (ih (by omega) hall)

theorem IsPath.writesNumerals (hlength : segments.length ≤ 4) (h : ∀ s ∈ segments, IsSegment s) :
    WritesNumerals (0x2F :: pathText segments) segments :=
  ⟨[], _, rfl, rfl, numerals_pathText hlength fun s hs => (h s hs).1⟩

/-- A path does not end in a '/', unless it is all of it. -/
theorem getLast_pathText (hne : segments ≠ []) (h : ∀ s ∈ segments, IsSegment s) :
    (pathText segments).getLast? ≠ some 0x2F := by
  induction segments with
  | nil => exact absurd rfl hne
  | cons s segments ih =>
    obtain ⟨⟨⟨hs, hdigits⟩, -⟩, hall⟩ := List.forall_mem_cons.mp h
    by_cases hsegments : segments = []
    · subst hsegments
      rw [pathText_singleton]
      exact fun hlast => digit_ne_slash hdigits (List.mem_of_getLast? hlast)
    · rw [pathText_cons s hsegments, List.getLast?_append, List.getLast?_cons]
      cases hlast : (pathText segments).getLast? with
      | none =>
        have hnil := List.getLast?_eq_none_iff.mp hlast
        obtain ⟨t, segments, rfl⟩ := List.exists_cons_of_ne_nil hsegments
        obtain ⟨⟨⟨ht, -⟩, -⟩, -⟩ := List.forall_mem_cons.mp hall
        by_cases hrest : segments = []
        · rw [hrest, pathText_singleton] at hnil
          exact absurd hnil ht
        · rw [pathText_cons t hrest] at hnil
          exact absurd hnil (List.append_ne_nil_of_left_ne_nil ht _)
      | some c =>
        rw [hlast] at ih
        exact ih hsegments hall

/-- **A text that is read and not loose is a path.** -/
theorem isPath_of_taken (h : TakenPath path numerals) (hloose : ¬ LoosePath path) :
    IsPath path := by
  have hnot : ¬ (path.head? ≠ some 0x2F ∨ (2 ≤ path.length ∧ path.getLast? = some 0x2F) ∨
      ¬ AllIds (numerals.map (digitsValue 0))) := fun hbad => hloose ⟨numerals, h, hbad⟩
  rw [not_or, not_or, not_not, not_not] at hnot
  obtain ⟨hhead, hlast, hids⟩ := hnot
  obtain ⟨⟨spaces, below, rfl, hspaces, hnumerals⟩, -, -⟩ := h
  obtain ⟨hlength, hall, hform⟩ := Numerals.eq_pathText hnumerals
  have hnil : spaces = [] := by
    cases spaces with
    | nil => rfl
    | cons c spaces =>
      obtain rfl := Option.some.inj hhead
      exact absurd hspaces (by simp [isSpace])
  subst hnil
  have hsegments : ∀ s ∈ numerals, IsSegment s :=
    fun s hs => ⟨hall s hs, List.forall_mem_map.mp hids s hs⟩
  rcases hform with rfl | ⟨hne, rfl⟩
  · exact ⟨numerals, hlength, hsegments, rfl⟩
  · refine absurd ⟨?_, ?_⟩ hlast
    · simp
    · rw [List.nil_append, ← List.cons_append, List.getLast?_concat]

/-- **A loose text is no path.** -/
theorem LoosePath.not_isPath (h : LoosePath path) : ¬ IsPath path := by
  rintro ⟨segments, hlength, hall, rfl⟩
  obtain ⟨numerals, ⟨hnumerals, -, -⟩, hbad⟩ := h
  obtain rfl := (IsPath.writesNumerals hlength hall).unique hnumerals
  rcases hbad with hhead | ⟨hlong, hlast⟩ | hids
  · exact hhead rfl
  · have hne : segments ≠ [] := by
      rintro rfl
      exact absurd hlong (by decide)
    rw [List.getLast?_cons] at hlast
    cases hend : (pathText segments).getLast? with
    | none =>
      rw [List.getLast?_eq_none_iff.mp hend] at hlong
      exact absurd hlong (by decide)
    | some c =>
      rw [hend] at hlast
      exact getLast_pathText hne hall (hend.trans hlast)
  · exact hids (List.forall_mem_map.mpr fun s hs => (hall s hs).2)

/-- The characters of a text that is read: white space, digits and '/'. -/
theorem TakenPath.chars (h : TakenPath path numerals) :
    ∀ c ∈ path, isSpace c = true ∨ isDigit c = true ∨ c = 0x2F := by
  obtain ⟨⟨spaces, below, rfl, hspaces, hnumerals⟩, -, -⟩ := h
  obtain ⟨-, hall, hform⟩ := Numerals.eq_pathText hnumerals
  have hbelow : ∀ c ∈ pathText numerals, isDigit c = true ∨ c = 0x2F := by
    intro c hc
    rcases mem_pathText hc with hslash | ⟨s, hs, hc⟩
    · exact .inr hslash
    · exact .inl (List.all_eq_true.mp (hall s hs).2 c hc)
  intro c hc
  rcases List.mem_append.mp hc with hc | hc
  · exact .inl (List.all_eq_true.mp hspaces c hc)
  · rcases List.mem_cons.mp hc with hslash | hc
    · exact .inr (.inr hslash)
    · refine .inr ?_
      rcases hform with rfl | ⟨-, rfl⟩
      · exact hbelow c hc
      · exact (List.mem_append.mp hc).elim (hbelow c) fun hc => .inr (List.mem_singleton.mp hc)

/-- They do not end a name. -/
theorem unended_of_chars {chars : List Byte}
    (h : ∀ c ∈ chars, isSpace c = true ∨ isDigit c = true ∨ c = 0x2F) : Unended 0x22 chars := by
  refine unended_of_plain (by decide) fun c hc => ?_
  constructor <;>
    · rintro rfl
      exact absurd (h _ hc) (by decide)

/-- No path has a NUL. -/
theorem IsPath.no_nul (h : IsPath path) : 0 ∉ path := by
  obtain ⟨segments, -, hall, rfl⟩ := h
  intro hzero
  rcases List.mem_cons.mp hzero with hslash | hzero
  · exact absurd hslash (by decide)
  rcases mem_pathText hzero with hslash | ⟨s, hs, hzero⟩
  · exact absurd hslash (by decide)
  · exact absurd (List.all_eq_true.mp (hall s hs).1.2 _ hzero) (by decide)

/-! #### The name of a record -/

theorem unquoted_eq_some_iff : unquoted value = some text ↔ value = quoted text := by
  constructor
  · intro h
    unfold unquoted at h
    split_ifs at h with hmarks
    rw [not_or, not_or, not_not, not_not] at hmarks
    obtain ⟨hlength, hhead, hlast⟩ := hmarks
    obtain ⟨rest, rfl⟩ : ∃ rest, value = 0x22 :: rest :=
      ⟨value.tail, (List.cons_head?_tail hhead).symm⟩
    obtain rfl | ⟨front, c, rfl⟩ := List.eq_nil_or_concat' rest
    · exact absurd (by decide) hlength
    · rw [← List.cons_append, List.getLast?_concat] at hlast
      obtain rfl := Option.some.inj hlast
      have hquoted := unquoted_quoted front
      unfold unquoted at hquoted
      split_ifs at hquoted
      exact congrArg quoted (Option.some.inj (hquoted.symm.trans h))
  · rintro rfl
    exact unquoted_quoted text

theorem length_quoted (text : List Byte) : (quoted text).length = text.length + 2 := by
  simp only [quoted, List.length_append, List.length_cons, List.length_nil]

/-- **The base names that are taken**, and what is kept of them. -/
theorem convertBaseUri_eq_some_iff {uri : CString} :
    convertBaseUri value = some uri ↔
      ∃ baseName, value = quoted baseName ∧ uri = baseName.takeWhile (· ≠ 0) ∧
        (baseName.length = 1 → baseName = [0x2F]) ∧
        (baseName ≠ [] → baseName.length + 2 ≤ uriMaxStringLen) := by
  have hquoted (baseName : List Byte) : convertBaseUri (quoted baseName) = some uri ↔
      uri = baseName.takeWhile (· ≠ 0) ∧ (baseName.length = 1 → baseName = [0x2F]) ∧
        (baseName ≠ [] → baseName.length + 2 ≤ uriMaxStringLen) := by
    rw [convertBaseUri, unquoted_quoted, Option.bind_eq_bind, Option.bind_some, length_quoted]
    cases baseName with
    | nil => simp [eq_comm]
    | cons c rest =>
      rw [if_pos (by simp)]
      by_cases hone : rest = [] ∧ c ≠ 0x2F
      · obtain ⟨rfl, hc⟩ := hone
        simp [hc]
      · have hform : (c :: rest).length = 1 → c :: rest = [0x2F] := by
          intro hlength
          have hnil := List.eq_nil_of_length_eq_zero (Nat.succ.inj hlength)
          rw [hnil, not_not.mp (mt (And.intro hnil) hone)]
        rw [if_neg fun h => hone ⟨List.eq_nil_of_length_eq_zero (by simpa using h.1), by
          simpa using h.2⟩]
        by_cases hlong : (c :: rest).length + 2 > uriMaxStringLen
        · rw [if_pos hlong]
          exact iff_of_false (fun h => nomatch h) fun h =>
            absurd (h.2.2 (List.cons_ne_nil _ _)) (Nat.not_le.mpr hlong)
        · rw [if_neg hlong]
          exact ⟨fun h => ⟨(Option.some.inj h).symm, hform, fun _ => Nat.le_of_not_lt hlong⟩,
            fun h => congrArg some h.1.symm⟩
  constructor
  · intro h
    obtain ⟨baseName, hvalue, -⟩ := Option.bind_eq_some_iff.mp h
    obtain rfl := unquoted_eq_some_iff.mp hvalue
    exact ⟨baseName, rfl, (hquoted baseName).mp h⟩
  · rintro ⟨baseName, rfl, h⟩
    exact (hquoted baseName).mpr h

variable {baseUri : CString} {label : Label} {state : ItemState}

/-- The identifiers of a record that has no name, or whose name is taken. -/
theorem exists_recordIds_iff {name : Option (List Byte)} :
    (∃ ids, recordIds baseUri name = .ok (some ids)) ↔
      (baseUri = [] ∧ name = none) ∨ ∃ numerals, TakenPath (baseUri ++ name.getD []) numerals := by
  unfold recordIds
  by_cases hnone : baseUri = [] ∧ name = none
  · rw [if_pos hnone]
    exact iff_of_true ⟨_, rfl⟩ (.inl hnone)
  rw [if_neg hnone, or_iff_right hnone]
  have hlength : (baseUri ++ name.getD []).length = baseUri.length + (name.getD []).length :=
    List.length_append
  by_cases hbase : baseUri.length > uriMaxStringLen
  · rw [if_pos hbase]
    refine iff_of_false (fun ⟨_, h⟩ => nomatch h) ?_
    rintro ⟨numerals, -, -, hle⟩
    omega
  rw [if_neg hbase]
  by_cases hlong : (name.getD []).length ≠ 0 ∧
      (name.getD []).length + baseUri.length > uriMaxStringLen
  · rw [if_pos hlong]
    refine iff_of_false (fun ⟨_, h⟩ => nomatch h) ?_
    rintro ⟨numerals, -, -, hle⟩
    omega
  rw [if_neg hlong]
  have hle : (baseUri ++ name.getD []).length ≤ uriMaxStringLen := by omega
  constructor
  · rintro ⟨ids, h⟩
    obtain ⟨length, uri, hread, htaken⟩ := exists_lwm2mStringToUri (baseUri ++ name.getD [])
    rw [hread, ok_bind] at h
    by_cases hzero : length = 0
    · dsimp only at h
      rw [if_pos hzero] at h
      cases h
    · obtain ⟨numerals, hnumerals, hids⟩ := htaken hzero
      exact ⟨numerals, hnumerals, hids, hle⟩
  · rintro ⟨numerals, hnumerals, hids, -⟩
    have hpos : Int32.ofNat (baseUri ++ name.getD []).length ≠ 0 := by
      obtain ⟨spaces, below, heq, -, -⟩ := hnumerals
      have hwritten : 0 < (baseUri ++ name.getD []).length := by
        rw [heq]
        simp
      change _ ≤ 24 at hle
      rw [Ne, ofNat_eq_zero_iff]
      omega
    rw [lwm2mStringToUri_of_numerals hnumerals hids, ok_bind]
    dsimp only
    rw [if_neg hpos]
    exact ⟨_, rfl⟩

variable (strtod) in
/-- The name of the record. -/
def nameSlot : Slot strtod (Option (List Byte)) where
  writes label := label = .name
  get state := state.name
  full state := state.name.isSome
  convert _ value := (unquoted value).map some
  seen_eq state label h := by
    obtain rfl := of_decide_eq_true h
    rfl
  stored h hlabel := by
    obtain rfl := of_decide_eq_true hlabel
    obtain ⟨name, hname, rfl⟩ := Option.map_eq_some_iff.mp h
    exact ⟨congrArg (Option.map some) hname, rfl⟩
  kept {_ _ _ label} h hlabel := by
    cases label with
    | baseName | baseTime | baseValue | time | value | booleanValue | dataValue | stringValue
    | objectLinkValue =>
      obtain ⟨_, -, rfl⟩ := Option.map_eq_some_iff.mp h
      exact ⟨rfl, rfl⟩
    | baseVersion =>
      rw [readLabel] at h
      split_ifs at h
      cases h
      exact ⟨rfl, rfl⟩
    | name => exact absurd rfl hlabel

variable (strtod) in
/-- The base name. -/
def baseNameSlot : Slot strtod CString where
  writes label := label = .baseName
  get state := state.base.baseUri
  full state := state.bnSeen
  convert _ := convertBaseUri
  seen_eq state label h := by
    obtain rfl := of_decide_eq_true h
    rfl
  stored h hlabel := by
    obtain rfl := of_decide_eq_true hlabel
    obtain ⟨uri, huri, rfl⟩ := Option.map_eq_some_iff.mp h
    exact ⟨huri, rfl⟩
  kept {_ _ _ label} h hlabel := by
    cases label with
    | baseTime | baseValue | name | time | value | booleanValue | dataValue | stringValue
    | objectLinkValue =>
      obtain ⟨_, -, rfl⟩ := Option.map_eq_some_iff.mp h
      exact ⟨rfl, rfl⟩
    | baseVersion =>
      rw [readLabel] at h
      split_ifs at h
      cases h
      exact ⟨rfl, rfl⟩
    | baseName => exact absurd rfl hlabel

theorem baseNameSlot_label (l : Label) : (baseNameSlot strtod).writes l = true ↔ l = .baseName :=
  decide_eq_true_iff

/-- The values of an item are taken whole. -/
theorem wholeValue_of_memberValue (h : memberValue label buffer = some value) :
    WholeValue value := by
  cases hmembers : members buffer with
  | none =>
    rw [memberValue, hmembers] at h
    cases h
  | some ms =>
    obtain ⟨m, hm, -, rfl⟩ := memberValue_eq_some hmembers h
    exact wholeValue_of_members buffer ms hmembers m hm

theorem unended_of_wholeValue (h : WholeValue (quoted text)) : Unended 0x22 text := by
  generalize hvalue : quoted text = value at h
  cases h with
  | plain hc =>
    obtain rfl := (List.cons.inj hvalue).1
    exact absurd (by decide) hc
  | quoted h => rwa [(List.append_left_inj _).mp (List.cons.inj hvalue).2]

/-- **What an item that is accepted has read**: the name as its member writes it, and the base name
in force up to its first NUL. -/
theorem names_of_accepted {items : List (List Byte)} {base base' : PackState} {record : ItemRecord}
    (hreached : Reached strtod items base)
    (hparse : senmlParseItem strtod buffer base = .ok (some (record, base'))) :
    ∃ baseUri ids, Held convertBaseUri [] (textInForce .baseName (items ++ [buffer])) baseUri ∧
      recordIds baseUri ((memberValue .name buffer).bind unquoted) = .ok (some ids) := by
  obtain hnone | ⟨ms, state, ids, hmembers, hfold, hids, -⟩ :=
    senmlParseItem_cases strtod buffer base
  · rw [hnone] at hparse
    cases hparse
  have hcarried := (baseNameSlot strtod).held_reached baseNameSlot_label PackState.baseUri
    (fun _ => rfl) hreached
  have hheld := (baseNameSlot strtod).held_item baseNameSlot_label
    (show Held _ _ _ ((baseNameSlot strtod).get { base }) from hcarried) hmembers hfold
  obtain ⟨hstored, hkept⟩ := (nameSlot strtod).foldlM_readMember hfold
  have hname : (memberValue .name buffer).bind unquoted = state.name := by
    cases hvalue : memberValue .name buffer with
    | none =>
      have hnone := memberValue_eq_none hmembers hvalue
      refine (hkept (.inr fun m hm l hwrites => ?_)).1.symm
      obtain rfl := of_decide_eq_true hwrites.1
      exact hnone m hm hwrites.2
    | some text =>
      obtain ⟨m, hm, htoken, rfl⟩ := memberValue_eq_some hmembers hvalue
      obtain ⟨hconvert, -⟩ := hstored m hm .name ⟨rfl, htoken⟩
      obtain ⟨name, hunquoted, hname⟩ := Option.map_eq_some_iff.mp hconvert
      exact hunquoted.trans hname
  exact ⟨state.base.baseUri, ids, hheld, hname ▸ hids⟩

/-- What the base name in force writes. -/
theorem baseName_of_held {inForce : Option (List Byte)}
    (h : Held convertBaseUri [] inForce baseUri) :
    baseUri = ((inForce.bind unquoted).getD []).takeWhile (· ≠ 0) ∧
      (((inForce.bind unquoted).getD []).length = 1 →
        (inForce.bind unquoted).getD [] = [0x2F]) ∧
      ((inForce.bind unquoted).getD [] ≠ [] →
        ((inForce.bind unquoted).getD []).length + 2 ≤ uriMaxStringLen) := by
  cases inForce with
  | none => exact ⟨h, fun hone => absurd hone (by decide), fun hne => absurd rfl hne⟩
  | some value =>
    obtain ⟨baseName, rfl, hform⟩ := convertBaseUri_eq_some_iff.mp h
    rw [Option.bind_some, unquoted_quoted]
    exact hform

/-- **A name that is neither loose nor cut is a path.** -/
theorem senmlNameStrict_of_not (h : ¬ (LoosePath path ∨ CutPath path)) :
    SenmlNameStrict strtod path := by
  obtain ⟨hloose, hcut⟩ := not_or.mp h
  intro items base buffer record base' hreached hlength hwritten hparse
  obtain ⟨baseUri, ids, hheld, hids⟩ := names_of_accepted hreached hparse
  obtain ⟨huri, hone, hle⟩ := baseName_of_held hheld
  have hunended : Unended 0x22
      (((textInForce .baseName (items ++ [buffer])).bind unquoted).getD []) := by
    cases hinForce : (textInForce .baseName (items ++ [buffer])).bind unquoted with
    | none => exact (show (0x22 : Byte) ≠ 0x5C by decide)
    | some baseName =>
      obtain ⟨value, hvalue, hunquoted⟩ := Option.bind_eq_some_iff.mp hinForce
      obtain rfl := unquoted_eq_some_iff.mp hunquoted
      obtain ⟨item, -, hmember⟩ := exists_of_textInForce hvalue
      exact unended_of_wholeValue (wholeValue_of_memberValue hmember)
  unfold writtenName at hwritten
  dsimp only at hwritten
  generalize ((textInForce .baseName (items ++ [buffer])).bind unquoted).getD [] = baseName
    at huri hone hle hunended hwritten
  generalize (memberValue .name buffer).bind unquoted = name at hids hwritten
  split_ifs at hwritten with hnone
  obtain rfl := Option.some.inj hwritten
  have htaken := exists_recordIds_iff.mp ⟨ids, hids⟩
  by_cases hzero : 0 ∈ baseName
  · -- what stands behind the NUL is lost
    have hne : baseName ≠ [] := List.ne_nil_of_mem hzero
    have hlong : 2 ≤ baseName.length := by
      have hpos := List.length_pos_of_ne_nil hne
      by_contra hshort
      rw [hone (by omega)] at hzero
      exact absurd hzero (by decide)
    refine absurd ⟨baseName, name.getD [], rfl, hzero, hlong, hle hne, hunended, ?_⟩ hcut
    rw [← huri]
    refine htaken.imp_left ?_
    rintro ⟨rfl, rfl⟩
    rfl
  · have hwhole : baseName.takeWhile (· ≠ 0) = baseName :=
      List.takeWhile_eq_self_iff.mpr fun c hc => decide_eq_true fun hnul => hzero (hnul ▸ hc)
    rw [hwhole] at huri
    subst huri
    obtain ⟨numerals, hnumerals⟩ := htaken.resolve_left hnone
    exact isPath_of_taken hnumerals hloose

/-! #### Records whose name is loose or cut -/

/-- Where only paths are accepted, the name of the first record of a pack is one. -/
theorem SenmlNameStrict.isPath {ms : List Member} (h : SenmlNameStrict strtod path)
    (hlength : buffer.length + 2 < 2 ^ 31) (hmembers : members buffer = some ms)
    (hfold : ms.foldlM (readMember strtod) { base := {} } = some state)
    (hvalue : state.value = .undefined) (hbaseValue : state.base.baseValue = .undefined)
    (hids : ∃ ids, recordIds state.base.baseUri state.name = .ok (some ids))
    (hwritten : writtenName [] buffer = some path) : IsPath path := by
  obtain ⟨ids, hids⟩ := hids
  have hparse := senmlParseItem_eq hmembers hfold hids
  rw [hvalue, hbaseValue] at hparse
  exact h [] {} buffer _ _ .start hlength hwritten hparse

theorem readMember_baseName {baseName : List Byte} (hseen : state.bnSeen = false)
    (hone : baseName.length = 1 → baseName = [0x2F])
    (hle : baseName ≠ [] → baseName.length + 2 ≤ uriMaxStringLen) :
    readMember strtod state ⟨Label.baseName.token, quoted baseName⟩ =
      some { state with
        bnSeen := true
        base := { state.base with baseUri := baseName.takeWhile (· ≠ 0) } } := by
  have hfirst : state.seen .baseName = false := hseen
  rw [readMember_label rfl hfirst, readLabel,
    convertBaseUri_eq_some_iff.mpr ⟨baseName, rfl, rfl, hone, hle⟩]
  rfl

theorem readMember_name (hseen : state.name = none) (name : List Byte) :
    readMember strtod state ⟨Label.name.token, quoted name⟩ =
      some { state with name := some name } := by
  have hfirst : state.seen .name = false := congrArg Option.isSome hseen
  rw [readMember_label rfl hfirst, readLabel, unquoted_quoted]
  rfl

theorem roomInItem_of_short {text : List Byte} (h : text.length ≤ uriMaxStringLen) :
    (Member.text ⟨label.token, quoted text⟩).length ≤ 33 := by
  have htoken : label.token.length ≤ 4 := by cases label <;> decide
  change _ ≤ 24 at h
  rw [length_text, length_quoted]
  dsimp only
  omega

/-- **A loose text is accepted** as the name of a record. -/
theorem LoosePath.not_strict (h : LoosePath path) : ¬ SenmlNameStrict strtod path := by
  intro hstrict
  obtain ⟨numerals, htaken, -⟩ := id h
  have hlength : (Member.text ⟨Label.name.token, quoted path⟩).length ≤ 33 :=
    roomInItem_of_short htaken.2.2
  have hmembers := members_text
    ⟨token_chars .name, .quoted (unended_of_chars htaken.chars)⟩ (hlength.trans_lt (by decide))
  have hfold : [Member.mk Label.name.token (quoted path)].foldlM (readMember strtod)
      { base := {} } = some { base := {}, name := some path } := by
    rw [List.foldlM_cons, readMember_name rfl]
    rfl
  refine h.not_isPath (hstrict.isPath (by omega) hmembers hfold rfl rfl
    (exists_recordIds_iff.mpr (.inr ⟨numerals, htaken⟩)) ?_)
  have hnone : memberValue .baseName (Member.text ⟨Label.name.token, quoted path⟩) = none := by
    rw [memberValue, hmembers]
    rfl
  unfold writtenName
  rw [textInForce_concat, hnone, memberValue_member hmembers, Option.bind_some, unquoted_quoted]
  rfl

/-- **A cut text is accepted** as the name of a record. -/
theorem CutPath.not_strict (h : CutPath path) : ¬ SenmlNameStrict strtod path := by
  intro hstrict
  obtain ⟨baseName, name, rfl, hzero, hlong, hle, hunended, htaken⟩ := h
  have hnul : ¬ IsPath (baseName ++ name) :=
    fun hpath => hpath.no_nul (List.mem_append_left name hzero)
  have hne : baseName ≠ [] := List.ne_nil_of_mem hzero
  have hfirst : readMember strtod { base := {} } ⟨Label.baseName.token, quoted baseName⟩ =
      some { base := { baseUri := baseName.takeWhile (· ≠ 0) }, bnSeen := true } :=
    readMember_baseName rfl (fun hone => absurd hlong (by omega)) fun _ => hle
  have hlength : (Member.text ⟨Label.baseName.token, quoted baseName⟩).length ≤ 33 :=
    roomInItem_of_short ((Nat.le_add_right _ 2).trans hle)
  have hwhole : Member.Whole ⟨Label.baseName.token, quoted baseName⟩ :=
    ⟨token_chars .baseName, .quoted hunended⟩
  by_cases hname : name = []
  · subst hname
    have hmembers := members_text hwhole (hlength.trans_lt (by decide))
    have hfold : [Member.mk Label.baseName.token (quoted baseName)].foldlM (readMember strtod)
        { base := {} } = some { base := { baseUri := baseName.takeWhile (· ≠ 0) },
                                bnSeen := true } := by
      rw [List.foldlM_cons, hfirst]
      rfl
    refine hnul (hstrict.isPath (by omega) hmembers hfold rfl rfl
      (exists_recordIds_iff.mpr (htaken.imp_left fun hnil => ?_)) ?_)
    · rw [List.append_nil] at hnil
      exact ⟨hnil, rfl⟩
    · have hnone : memberValue .name (Member.text ⟨Label.baseName.token, quoted baseName⟩) =
          none := by
        rw [memberValue, hmembers]
        rfl
      unfold writtenName
      rw [textInForce_concat, hnone, memberValue_member hmembers, Option.some_or,
        Option.bind_some, unquoted_quoted]
      exact if_neg fun hempty => hne hempty.1
  · obtain ⟨numerals, hnumerals⟩ := htaken.resolve_left (by simp [hname])
    have hshort : name.length ≤ uriMaxStringLen :=
      (List.length_append.symm ▸ Nat.le_add_left _ _).trans hnumerals.2.2
    have hnameLength : (Member.text ⟨Label.name.token, quoted name⟩).length ≤ 33 :=
      roomInItem_of_short hshort
    have hchars := unended_of_chars fun c hc =>
      hnumerals.chars c (List.mem_append_right _ hc)
    have hrest := members_text (m := ⟨Label.name.token, quoted name⟩)
      ⟨token_chars .name, .quoted hchars⟩ (hnameLength.trans_lt (by decide))
    have hmembers : members (Member.text ⟨Label.baseName.token, quoted baseName⟩ ++
        0x2C :: Member.text ⟨Label.name.token, quoted name⟩) =
          some [⟨Label.baseName.token, quoted baseName⟩, ⟨Label.name.token, quoted name⟩] := by
      have htext : Member.text ⟨Label.name.token, quoted name⟩ ≠ [] := List.cons_ne_nil _ _
      rw [members_text_cons hwhole (hlength.trans_lt (by decide)) htext, hrest]
      rfl
    have hfold : [Member.mk Label.baseName.token (quoted baseName),
        ⟨Label.name.token, quoted name⟩].foldlM (readMember strtod) { base := {} } =
          some { base := { baseUri := baseName.takeWhile (· ≠ 0) }, bnSeen := true,
                 name := some name } := by
      rw [List.foldlM_cons, hfirst, Option.bind_eq_bind, Option.bind_some, List.foldlM_cons,
        readMember_name rfl]
      rfl
    refine hnul (hstrict.isPath ?_ hmembers hfold rfl rfl
      (exists_recordIds_iff.mpr (.inr ⟨numerals, hnumerals⟩)) ?_)
    · rw [List.length_append, List.length_cons]
      omega
    · have hbaseName : memberValue .baseName
          (Member.text ⟨Label.baseName.token, quoted baseName⟩ ++
            0x2C :: Member.text ⟨Label.name.token, quoted name⟩) = some (quoted baseName) := by
        rw [memberValue, hmembers]
        rfl
      have hvalue : memberValue .name
          (Member.text ⟨Label.baseName.token, quoted baseName⟩ ++
            0x2C :: Member.text ⟨Label.name.token, quoted name⟩) = some (quoted name) := by
        rw [memberValue, hmembers]
        rfl
      unfold writtenName
      rw [textInForce_concat, hbaseName, hvalue, Option.some_or, Option.bind_some,
        Option.bind_some, unquoted_quoted, unquoted_quoted]
      exact if_neg fun hempty => hne hempty.1

theorem senmlNameStrict_iff (strtod : CString → Double × ℕ) (path : List Byte) :
    SenmlNameStrict strtod path ↔ ¬ (LoosePath path ∨ CutPath path) := by
  constructor
  · rintro hstrict (hloose | hcut)
    · exact hloose.not_strict hstrict
    · exact hcut.not_strict hstrict
  · exact senmlNameStrict_of_not

end

/-- **What JSON and SenML items are accepted.**  Only the literals are accepted as booleans unless
the value is mistaken for one; only names in JSON unless a segment is empty or 65535; and only paths
in SenML unless the text is loose or cut at a NUL. -/
theorem itemGrammar_iff (strtod : CString → Double × ℕ) (value name path : List Byte) :
    (JsonBooleanStrict value ↔ ¬ MistakenBoolean value) ∧
      (SenmlBooleanStrict strtod value ↔ ¬ MistakenBoolean value) ∧
      (JsonNameStrict name ↔ ¬ LooseName name) ∧
      (SenmlNameStrict strtod path ↔ ¬ (LoosePath path ∨ CutPath path)) :=
  ⟨jsonBooleanStrict_iff value, senmlBooleanStrict_iff strtod value, jsonNameStrict_iff name,
    senmlNameStrict_iff strtod path⟩

/-- **The boolean `tru`, the empty name, "65535" and the path "/3/"** are accepted. -/
theorem looseGrammar_fails :
    ¬ JsonBooleanStrict [0x74, 0x72, 0x75] ∧
      ¬ SenmlBooleanStrict (fun _ => (⟨0⟩, 0)) [0x74, 0x72, 0x75] ∧
      ¬ JsonNameStrict [] ∧ ¬ JsonNameStrict [0x36, 0x35, 0x35, 0x33, 0x35] ∧
      ¬ SenmlNameStrict (fun _ => (⟨0⟩, 0)) [0x2F, 0x33, 0x2F] := by
  have htru : MistakenBoolean [0x74, 0x72, 0x75] := by
    refine ⟨.inl (.inl (by decide)), .plain (by decide) (by decide) (by decide +kernel), ?_⟩
    rw [RoomInItem, length_text]
    decide
  have hname {segment : List Byte} (htaken : TakenSegment segment) (hlength : segment.length ≤ 5)
      (hslash : segment.head? ≠ some 0x2F)
      (hloose : segment = [] ∨ digitsValue 0 segment = 0xFFFF) :
      LooseName segment := by
    refine ⟨⟨[segment], ⟨List.cons_ne_nil _ _, Nat.le_add_left 1 3, by simpa using htaken,
      .inl ⟨(pathText_singleton segment).symm, hslash⟩⟩, segment, List.mem_singleton.mpr rfl,
        hloose⟩, ?_⟩
    rw [RoomInItem, length_text, length_quoted]
    change 1 + 3 + (segment.length + 2) + 2 < 2 ^ 31
    omega
  have hlevel : Numerals 4 ([0x33] ++ 0x2F :: []) [[0x33]] := .level (by decide) .nothing
  have hpath : LoosePath [0x2F, 0x33, 0x2F] :=
    ⟨[[0x33]], ⟨⟨[], _, rfl, rfl, hlevel⟩,
      by unfold AllIds; decide, by decide⟩, .inr (.inl (by decide))⟩
  refine ⟨fun h => (jsonBooleanStrict_iff _).mp h htru,
    fun h => (senmlBooleanStrict_iff _ _).mp h htru,
    fun h => (jsonNameStrict_iff _).mp h
      (hname ⟨rfl, by decide⟩ (by decide) (by decide) (.inl rfl)),
    fun h => (jsonNameStrict_iff _).mp h
      (hname ⟨by decide, by decide⟩ (by decide) (by decide) (.inr (by decide))),
    fun h => (senmlNameStrict_iff _ _).mp h (.inl hpath)⟩

end Lwm2m.Codec

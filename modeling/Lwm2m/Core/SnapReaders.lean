/-
# The two readers of the installed snaps

`callbacks_snap.go` hands the installed snaps to the C side twice: `SnapInstanceRead` answers a read
of the object 30001, and `SnapRefreshData` publishes all values for the observers.  Each converts
the ten fields by hand.  An index comes from the instances of the C side, which may be older than
the list.

The two agree except for the installed size, for a snap in devmode, and for texts that hold a NUL;
the number of snaps is never published right, and the index behind the last snap is not refused
(`snapReaders_agree_iff`).
-/

import Lwm2m.Core.Text
import Lwm2m.Library.Separators
import Mathlib.Logic.Function.Basic
import Mathlib.Tactic.IntervalCases

namespace Lwm2m.Core

open Library

/-! ### Go -/

/-- A Go string. -/
abbrev GoString := List Byte

/-- A Go map of strings. -/
abbrev GoMap := GoString → Option GoString

/-- A run-time panic. -/
inductive GoPanic
  | indexOutOfRange
  deriving DecidableEq, Repr

/-- A text of ASCII characters. -/
def ascii (text : String) : GoString := text.toList.map fun c => UInt8.ofNat c.toNat

/-- `data[key] = value`. -/
def GoMap.set (data : GoMap) (entry : GoString × GoString) : GoMap :=
  Function.update data entry.1 (some entry.2)

/-- The conversion of an integer to a string, which takes it as a code point. -/
def runeString (n : ℤ) : GoString :=
  if 0 ≤ n ∧ n.toNat.isValidChar then String.utf8EncodeChar (Char.ofNat n.toNat)
  else String.utf8EncodeChar (Char.ofNat 0xFFFD)

/-- The C string that `C.CString` makes, up to its first NUL. -/
def goCString (s : GoString) : CString := s.takeWhile (· ≠ 0)

/-- `l[i]`. -/
def goIndex {α : Type*} (l : List α) (i : ℤ) : Except GoPanic α :=
  if i < 0 then .error .indexOutOfRange
  else
    match l[i.toNat]? with
    | some x => .ok x
    | none => .error .indexOutOfRange

/-- A number with leading zeros. -/
def paddedDecimal (width n : ℕ) : GoString :=
  List.replicate (width - (decimal n).length) 0x30 ++ decimal n

/-- `t.UTC().Format(time.RFC3339)`, of a time in seconds since 1970.  The days are counted from the
first of March of the year 0, so that the leap day is the last of a year. -/
def formatRfc3339 (t : ℤ) : GoString :=
  let days := t.fdiv 86400 + 719468
  let second := (t.fmod 86400).toNat
  let era := days.fdiv 146097
  let dayOfEra := (days.fmod 146097).toNat
  let yearOfEra :=
    (dayOfEra - dayOfEra / 1460 + dayOfEra / 36524 - dayOfEra / 146096) / 365
  let dayOfYear := dayOfEra - (365 * yearOfEra + yearOfEra / 4 - yearOfEra / 100)
  let month := if (5 * dayOfYear + 2) / 153 < 10 then (5 * dayOfYear + 2) / 153 + 3
    else (5 * dayOfYear + 2) / 153 - 9
  let day := dayOfYear - (153 * ((5 * dayOfYear + 2) / 153) + 2) / 5 + 1
  let year := era * 400 + yearOfEra + if month ≤ 2 then 1 else 0
  (if year < 0 then ascii "-" else []) ++ paddedDecimal 4 year.natAbs ++ ascii "-" ++
    paddedDecimal 2 month ++ ascii "-" ++ paddedDecimal 2 day ++ ascii "T" ++
    paddedDecimal 2 (second / 3600) ++ ascii ":" ++ paddedDecimal 2 (second / 60 % 60) ++
    ascii ":" ++ paddedDecimal 2 (second % 60) ++ ascii "Z"

example : formatRfc3339 1500000000 = ascii "2017-07-14T02:40:00Z" := by decide +kernel

/-! ### Snaps -/

/-- The fields of `client.Snap` that are handed on. -/
structure Snap where
  name : GoString
  summary : GoString
  description : GoString
  confinement : GoString
  developer : GoString
  /-- In seconds since 1970. -/
  installDate : ℤ
  installedSize : Int64
  status : GoString
  version : GoString
  /-- `Revision.N`. -/
  revision : ℤ
  devMode : Bool
  deriving DecidableEq, Repr

/-- `Revision.String`. -/
def revisionString (revision : ℤ) : GoString :=
  if revision = 0 then ascii "unset"
  else if revision < 0 then ascii "x" ++ intText (-revision)
  else intText revision

/-- `GetSnapCount`, a `C.int`. -/
def getSnapCount (snaps : List Snap) : ℤ := (Int32.ofNat snaps.length).toInt

/-- `SnapInstanceRead`; `none` is the null pointer. -/
def snapInstanceRead (snaps : List Snap) (instanceID rid : ℤ) :
    Except GoPanic (Option CString) :=
  if instanceID > snaps.length then .ok none
  else
    match rid with
    | 0 => (goIndex snaps instanceID).map fun snap => some (goCString snap.name)
    | 1 => (goIndex snaps instanceID).map fun snap => some (goCString snap.summary)
    | 2 => (goIndex snaps instanceID).map fun snap => some (goCString snap.confinement)
    | 3 => (goIndex snaps instanceID).map fun snap => some (goCString snap.developer)
    | 4 => (goIndex snaps instanceID).map fun snap =>
      some (goCString (formatRfc3339 snap.installDate))
    | 5 => (goIndex snaps instanceID).map fun snap =>
      some (goCString (intText snap.installedSize.toInt))
    | 6 => (goIndex snaps instanceID).map fun snap => some (goCString snap.status)
    | 7 => (goIndex snaps instanceID).map fun snap => some (goCString snap.version)
    | 8 => (goIndex snaps instanceID).map fun snap =>
      some (goCString (revisionString snap.revision))
    | 9 => (goIndex snaps instanceID).map fun snap =>
      let _resp := if snap.devMode then some (goCString (ascii "true")) else none
      -- the answer for a snap in devmode is overwritten
      some (goCString (ascii "false"))
    | _ => .ok (some (goCString (ascii "")))

/-- The calls of the snap client that `SnapInstanceExecute` makes. -/
inductive SnapInstanceAction
  | refresh
  | remove
  | revert
  | enable
  | disable
  deriving DecidableEq, Repr

/-- `SnapInstanceExecute`; `client` is what the snap client answers. -/
def snapInstanceExecute (client : SnapInstanceAction → GoString → GoString) (snaps : List Snap)
    (instanceID rid : ℤ) : Except GoPanic (Option CString) :=
  if instanceID > snaps.length then .ok (some (goCString (ascii "")))
  else (goIndex snaps instanceID).map fun snap =>
    match rid with
    | 11 => some (goCString (client .refresh snap.name))
    | 12 => some (goCString (client .remove snap.name))
    | 13 => some (goCString (client .revert snap.name))
    | 14 => some (goCString (client .enable snap.name))
    | 15 => some (goCString (client .disable snap.name))
    | _ => some (goCString (ascii "Unknown action requested"))

/-- `encodeSnap`. -/
def encodeSnap (s : Snap) : GoString :=
  s.name ++ ascii "|" ++ s.description ++ ascii "|" ++ s.summary ++ ascii "|" ++ s.version ++
    ascii "|" ++ s.status

/-- `SnapDelimited`. -/
def snapDelimited (snaps : List Snap) (instanceID : ℤ) : Except GoPanic (Option CString) :=
  if instanceID > snaps.length then .ok none
  else (goIndex snaps instanceID).map fun snap => some (goCString (encodeSnap snap))

/-- `SnapConfig`: the snap whose configuration is asked for. -/
def snapConfig (snaps : List Snap) (instanceID : ℤ) : Except GoPanic (Option GoString) :=
  if instanceID > snaps.length then .ok none
  else (goIndex snaps instanceID).map fun snap => some snap.name

/-- `fmt.Sprintf("/30001/%d/…", i)`. -/
def snapKey (i : ℕ) (rid : ℕ) : GoString := ascii "/30001/" ++ decimal i ++ ascii "/" ++ decimal rid

/-- The values of one snap that `SnapRefreshData` publishes. -/
def snapEntries (i : ℕ) (snap : Snap) : List (GoString × GoString) :=
  [(snapKey i 0, snap.name),
    (snapKey i 1, snap.summary),
    (snapKey i 2, snap.confinement),
    (snapKey i 3, snap.developer),
    (snapKey i 4, formatRfc3339 snap.installDate),
    (snapKey i 5, runeString snap.installedSize.toInt),
    (snapKey i 6, snap.status),
    (snapKey i 7, snap.version),
    (snapKey i 8, revisionString snap.revision),
    (snapKey i 9, if snap.devMode then ascii "true" else ascii "false")]

/-- `SnapRefreshData`. -/
def snapRefreshData (snaps : List Snap) : GoMap :=
  let data := [(ascii "/30000/0/0", runeString snaps.length), (ascii "/30000/0/1", ascii ""),
    (ascii "/30000/0/2", ascii "")].foldl GoMap.set fun _ => none
  snaps.zipIdx.foldl (fun data (snap, i) => (snapEntries i snap).foldl GoMap.set data) data

/-! ### Agreement -/

/-- The text of a resource of a snap: integers in decimal, and the flag that the snap has. -/
def snapText (snap : Snap) : ℤ → GoString
  | 0 => snap.name
  | 1 => snap.summary
  | 2 => snap.confinement
  | 3 => snap.developer
  | 4 => formatRfc3339 snap.installDate
  | 5 => intText snap.installedSize.toInt
  | 6 => snap.status
  | 7 => snap.version
  | 8 => revisionString snap.revision
  | 9 => if snap.devMode then ascii "true" else ascii "false"
  | _ => []

/-- A resource of an instance is read and published as its text. -/
structure ResourceAgrees (snaps : List Snap) (instanceID rid : ℕ) (snap : Snap) : Prop where
  read : snapInstanceRead snaps instanceID rid = .ok (some (snapText snap rid))
  published : snapRefreshData snaps (snapKey instanceID rid) = some (snapText snap rid)

/-- The four functions that take an index go their error branch. -/
structure TakesErrorBranch (client : SnapInstanceAction → GoString → GoString) (snaps : List Snap)
    (instanceID : ℤ) : Prop where
  read : ∀ rid, snapInstanceRead snaps instanceID rid = .ok none
  execute : ∀ rid, snapInstanceExecute client snaps instanceID rid = .ok (some [])
  delimited : snapDelimited snaps instanceID = .ok none
  config : snapConfig snaps instanceID = .ok none

/-- There is a snap with the index. -/
def IsListed (snaps : List Snap) (instanceID : ℤ) : Prop :=
  0 ≤ instanceID ∧ instanceID < snaps.length

/-- The number of snaps is published as what `GetSnapCount` returns. -/
def CountAgrees (snaps : List Snap) : Prop :=
  snapRefreshData snaps (ascii "/30000/0/0") = some (intText (getSnapCount snaps))

/-- **The two readers agree**, and an index that no snap has is refused. -/
structure SnapReadersAgree (client : SnapInstanceAction → GoString → GoString)
    (snaps : List Snap) : Prop where
  resources : ∀ instanceID snap, snaps[instanceID]? = some snap → ∀ rid ≤ 9,
    ResourceAgrees snaps instanceID rid snap
  count : CountAgrees snaps
  unlisted : ∀ instanceID, ¬ IsListed snaps instanceID → TakesErrorBranch client snaps instanceID

/-! ### Integers as code points -/

/-- The bytes of an integer in decimal are digits and the sign. -/
theorem lt_of_mem_intText {n : ℤ} {b : Byte} (h : b ∈ intText n) : b < 0x80 := by
  have hdigit {m : ℕ} (hb : b ∈ decimal m) : b < 0x80 := by
    have hle := isDigit_of_mem_decimal hb
    simp only [isDigit, Bool.and_eq_true, decide_eq_true_eq] at hle
    exact UInt8.lt_of_le_of_lt hle.2 (by decide)
  unfold intText at h
  split_ifs at h
  · rcases List.mem_cons.mp h with rfl | hb
    · decide
    · exact hdigit hb
  · exact hdigit h

/-- A code point is one byte when it is below 128, and begins with a byte of 128 or more else. -/
theorem utf8EncodeChar_head (c : Char) :
    (c.val.toNat < 0x80 ∧ String.utf8EncodeChar c = [UInt8.ofNat c.val.toNat]) ∨
      ∃ first rest, String.utf8EncodeChar c = first :: rest ∧ 0x80 ≤ first := by
  have hle {v : ℕ} (hlow : 0x80 ≤ v) (hhigh : v < 0x100) : (0x80 : Byte) ≤ UInt8.ofNat v := by
    rw [UInt8.le_iff_toNat_le, UInt8.toNat_ofNat', Nat.mod_eq_of_lt hhigh]
    exact hlow
  unfold String.utf8EncodeChar
  dsimp only
  split_ifs with h₁ h₂ h₃
  · exact .inl ⟨Nat.lt_succ_of_le h₁, rfl⟩
  · exact .inr ⟨_, _, rfl, hle (by omega) (by omega)⟩
  · exact .inr ⟨_, _, rfl, hle (by omega) (by omega)⟩
  · exact .inr ⟨_, _, rfl, hle (by omega) (by omega)⟩

/-- **An integer is not its code point**: no decimal text is the conversion of its number. -/
theorem runeString_ne_intText {n m : ℤ} (h : n < 0x80 → m = n) : runeString n ≠ intText m := by
  intro heq
  have hhead {first : Byte} {rest : List Byte} (h : intText m = first :: rest) : ¬ 0x80 ≤ first :=
    fun hle => by
      have hlt := lt_of_mem_intText (h ▸ List.mem_cons_self : first ∈ intText m)
      exact absurd hlt (UInt8.not_lt.mpr hle)
  unfold runeString at heq
  split_ifs at heq with hvalid
  · obtain ⟨hnonneg, hchar⟩ := hvalid
    have hval : (Char.ofNat n.toNat).val.toNat = n.toNat := by
      rw [Char.ofNat, dif_pos hchar]
      exact UInt32.toNat_ofNatLT
    rcases utf8EncodeChar_head (Char.ofNat n.toNat) with ⟨hlt, hbyte⟩ | ⟨first, rest, hcons, hle⟩
    · rw [hbyte, hval] at heq
      rw [hval] at hlt
      rw [h (by omega), intText, if_neg (Int.not_lt.mpr hnonneg)] at heq
      rcases Nat.lt_or_ge n.toNat 10 with hsmall | hlarge
      · rw [decimal_of_lt hsmall, List.cons.injEq] at heq
        have hdigit := congrArg UInt8.toNat heq.1
        rw [toNat_digitByte hsmall, UInt8.toNat_ofNat'] at hdigit
        omega
      · have hlength := congrArg List.length heq
        have hpos := List.length_pos_of_ne_nil (decimal_ne_nil (n.toNat / 10))
        rw [decimal_of_le hlarge, List.length_append] at hlength
        simp only [List.length_cons, List.length_nil] at hlength
        omega
    · exact hhead (heq.symm.trans hcons) hle
  · exact hhead (heq.symm.trans rfl) (by decide)

/-- A text is handed to the C side whole when it has no NUL. -/
theorem goCString_eq_iff {s : GoString} : goCString s = s ↔ 0 ∉ s := by
  rw [goCString, List.takeWhile_eq_self_iff]
  simp only [ne_eq, decide_eq_true_eq]
  exact ⟨fun h hmem => h 0 hmem rfl, fun h b hb hzero => h (hzero ▸ hb)⟩

/-! ### What is published -/

/-- An assignment that agrees with all others of its key gives the value. -/
theorem foldl_set_of_mem {entries : List (GoString × GoString)} {key value : GoString}
    (hall : ∀ entry ∈ entries, entry.1 = key → entry.2 = value) {data : GoMap}
    (h : (∃ entry ∈ entries, entry.1 = key) ∨ data key = some value) :
    entries.foldl GoMap.set data key = some value := by
  induction entries generalizing data with
  | nil => exact h.resolve_left fun ⟨_, hmem, _⟩ => absurd hmem List.not_mem_nil
  | cons entry next ih =>
    obtain ⟨hentry, hnext⟩ := List.forall_mem_cons.mp hall
    rw [List.foldl_cons]
    refine ih hnext ?_
    by_cases hkey : entry.1 = key
    · refine .inr ?_
      rw [GoMap.set, ← hkey, Function.update_self, hentry hkey]
    · rw [GoMap.set, Function.update_of_ne (Ne.symm hkey)]
      refine h.imp_left fun ⟨entry', hmem, hkey'⟩ => ?_
      rcases List.mem_cons.mp hmem with rfl | hmem
      · exact absurd hkey' hkey
      · exact ⟨entry', hmem, hkey'⟩

/-- The assignments of `SnapRefreshData` in turn. -/
theorem snapRefreshData_eq (snaps : List Snap) : snapRefreshData snaps =
    ((ascii "/30000/0/0", runeString snaps.length) :: (ascii "/30000/0/1", ascii "") ::
      (ascii "/30000/0/2", ascii "") :: snaps.zipIdx.flatMap fun (snap, i) => snapEntries i snap
      ).foldl GoMap.set fun _ => none := by
  rw [List.foldl_cons, List.foldl_cons, List.foldl_cons, List.foldl_flatMap]
  rfl

theorem decimal_injective {m n : ℕ} (h : decimal m = decimal n) : m = n := by
  rw [← digitsValue_decimal m, h, digitsValue_decimal]

/-- The keys of two resources differ. -/
theorem snapKey_inj {i j rid rid' : ℕ} (h : snapKey i rid = snapKey j rid') :
    i = j ∧ rid = rid' := by
  have hdigits (n : ℕ) : ∀ b ∈ decimal n, ¬ b = 0x2F := fun b hb hslash => by
    have hdigit := isDigit_of_mem_decimal hb
    rw [hslash] at hdigit
    exact absurd hdigit (by decide)
  have hhead (n : ℕ) : ∀ b ∈ (ascii "/" ++ decimal n).head?, b = 0x2F := fun b hb =>
    (Option.some.inj hb).symm
  unfold snapKey at h
  rw [List.append_assoc, List.append_assoc, List.append_assoc, List.append_assoc,
    List.append_cancel_left_eq] at h
  obtain ⟨hi, hrest⟩ := append_inj_of_stop (hdigits i) (hdigits j) (hhead rid) (hhead rid') h
  rw [List.append_cancel_left_eq] at hrest
  exact ⟨decimal_injective hi, decimal_injective hrest⟩

/-- No resource of a snap has a key of the object 30000. -/
theorem snapKey_ne (i rid n : ℕ) : snapKey i rid ≠ ascii "/30000/0/" ++ decimal n := by
  intro h
  have htake := congrArg (List.take 7) h
  unfold snapKey at htake
  simp only [List.append_assoc] at htake
  rw [List.take_append_of_le_length (by decide), List.take_append_of_le_length (by decide)] at htake
  exact absurd htake (by decide)

/-- The text of a resource as it is published. -/
def publishedText (snap : Snap) (rid : ℕ) : GoString :=
  if rid = 5 then runeString snap.installedSize.toInt else snapText snap rid

/-- The text of a resource as it is read. -/
def readText (snap : Snap) (rid : ℕ) : GoString :=
  if rid = 9 then ascii "false" else snapText snap rid

theorem snapText_nine (snap : Snap) : snapText snap (9 : ℕ) =
    if snap.devMode then ascii "true" else ascii "false" := rfl

theorem snapEntries_eq (i : ℕ) (snap : Snap) : snapEntries i snap =
    (List.range 10).map fun rid => (snapKey i rid, publishedText snap rid) := rfl

section

variable {snaps : List Snap} {instanceID rid : ℕ} {snap : Snap}

/-- **What is published** of a resource. -/
theorem snapRefreshData_snapKey (hsnap : snaps[instanceID]? = some snap) (hrid : rid ≤ 9) :
    snapRefreshData snaps (snapKey instanceID rid) = some (publishedText snap rid) := by
  have hmem (entry : GoString × GoString) : (entry ∈ snaps.zipIdx.flatMap fun (snap, i) =>
      snapEntries i snap) ↔ ∃ i snap', snaps[i]? = some snap' ∧ ∃ rid' ≤ 9,
        entry = (snapKey i rid', publishedText snap' rid') := by
    simp only [List.mem_flatMap, snapEntries_eq, List.mem_map, List.mem_range, Prod.exists,
      List.mem_zipIdx_iff_getElem?]
    constructor
    · rintro ⟨snap', i, hi, rid', hlt, rfl⟩
      exact ⟨i, snap', hi, rid', Nat.le_of_lt_succ hlt, rfl⟩
    · rintro ⟨i, snap', hi, rid', hle, rfl⟩
      exact ⟨snap', i, hi, rid', Nat.lt_succ_of_le hle, rfl⟩
  rw [snapRefreshData_eq]
  refine foldl_set_of_mem ?_ (.inl ⟨(snapKey instanceID rid, publishedText snap rid), ?_, rfl⟩)
  · simp only [List.forall_mem_cons]
    refine ⟨fun h => absurd h.symm (snapKey_ne _ _ 0), fun h => absurd h.symm (snapKey_ne _ _ 1),
      fun h => absurd h.symm (snapKey_ne _ _ 2), fun entry hentry hkey => ?_⟩
    obtain ⟨i, snap', hi, rid', -, rfl⟩ := (hmem entry).mp hentry
    obtain ⟨rfl, rfl⟩ := snapKey_inj hkey
    rw [hsnap] at hi
    cases hi
    rfl
  · refine List.mem_cons_of_mem _ (List.mem_cons_of_mem _ (List.mem_cons_of_mem _ ?_))
    exact (hmem _).mpr ⟨instanceID, snap, hsnap, rid, hrid, rfl⟩

/-- The published number of snaps. -/
theorem snapRefreshData_count (snaps : List Snap) :
    snapRefreshData snaps (ascii "/30000/0/0") = some (runeString snaps.length) := by
  rw [snapRefreshData_eq]
  refine foldl_set_of_mem ?_ (.inl ⟨_, List.mem_cons_self, rfl⟩)
  refine List.forall_mem_cons.mpr ⟨fun _ => rfl, List.forall_mem_cons.mpr
    ⟨fun h => absurd h (by decide), List.forall_mem_cons.mpr ⟨fun h => absurd h (by decide),
      fun entry hentry hkey => ?_⟩⟩⟩
  simp only [List.mem_flatMap, snapEntries_eq, List.mem_map, Prod.exists] at hentry
  obtain ⟨_, i, _, rid', _, rfl⟩ := hentry
  exact absurd hkey (snapKey_ne i rid' 0)

theorem goIndex_of_getElem? (hsnap : snaps[instanceID]? = some snap) :
    goIndex snaps instanceID = .ok snap := by
  unfold goIndex
  rw [if_neg (Int.not_lt.mpr (Int.natCast_nonneg _)), Int.toNat_natCast, hsnap]

/-- **What is read** of a resource. -/
theorem snapInstanceRead_eq (hsnap : snaps[instanceID]? = some snap) (hrid : rid ≤ 9) :
    snapInstanceRead snaps instanceID rid = .ok (some (goCString (readText snap rid))) := by
  have hlt := (List.getElem?_eq_some_iff.mp hsnap).1
  have hindex := goIndex_of_getElem? hsnap
  unfold snapInstanceRead
  rw [if_neg (by omega)]
  interval_cases rid <;> exact congrArg (Except.map _) hindex

/-- **When a resource is read and published as its text.** -/
theorem resourceAgrees_iff (hsnap : snaps[instanceID]? = some snap) (hrid : rid ≤ 9) :
    ResourceAgrees snaps instanceID rid snap ↔
      rid ≠ 5 ∧ (rid = 9 → snap.devMode = false) ∧ 0 ∉ snapText snap rid := by
  have hpublished := snapRefreshData_snapKey hsnap hrid
  have hread := snapInstanceRead_eq hsnap hrid
  constructor
  · rintro ⟨hr, hp⟩
    rw [hpublished] at hp
    rw [hread] at hr
    have hpub := Option.some.inj hp
    have hrd := Option.some.inj (Except.ok.inj hr)
    have hfive : rid ≠ 5 := by
      rintro rfl
      exact runeString_ne_intText (fun _ => rfl) hpub
    have hdev : rid = 9 → snap.devMode = false := by
      rintro rfl
      cases hmode : snap.devMode with
      | false => rfl
      | true =>
        rw [snapText_nine, hmode] at hrd
        exact absurd hrd (show goCString (ascii "false") ≠ ascii "true" by decide)
    refine ⟨hfive, hdev, goCString_eq_iff.mp ?_⟩
    unfold readText at hrd
    split_ifs at hrd with hnine
    · rw [hnine, snapText_nine, hdev hnine]
      rfl
    · exact hrd
  · rintro ⟨hfive, hdev, hnul⟩
    refine ⟨hread.trans (congrArg (fun s => Except.ok (some s)) ?_), hpublished.trans ?_⟩
    · unfold readText
      split_ifs with hnine
      · rw [hnine, snapText_nine, hdev hnine]
        rfl
      · exact goCString_eq_iff.mpr hnul
    · rw [publishedText, if_neg hfive]

end

/-! ### Indices -/

section

variable {snaps : List Snap} {instanceID : ℤ} (client : SnapInstanceAction → GoString → GoString)

theorem goIndex_of_not_isListed {α : Type*} {l : List α} {i : ℤ} (h : ¬ (0 ≤ i ∧ i < l.length)) :
    goIndex l i = .error .indexOutOfRange := by
  unfold goIndex
  split_ifs with hneg
  · rfl
  · rw [List.getElem?_eq_none (by omega)]

/-- **When an index without a snap is refused**: when it is above the number of snaps. -/
theorem takesErrorBranch_iff (h : ¬ IsListed snaps instanceID) :
    TakesErrorBranch client snaps instanceID ↔ snaps.length < instanceID := by
  have hindex : goIndex snaps instanceID = .error .indexOutOfRange := goIndex_of_not_isListed h
  constructor
  · intro herror
    by_contra hle
    have hdelimited := herror.delimited
    rw [snapDelimited, if_neg hle, hindex] at hdelimited
    cases hdelimited
  · exact fun hlt => ⟨fun _ => if_pos hlt, fun _ => if_pos hlt, if_pos hlt, if_pos hlt⟩

/-- The published number of snaps is never the number. -/
theorem not_countAgrees (snaps : List Snap) : ¬ CountAgrees snaps := by
  intro hcount
  rw [CountAgrees, snapRefreshData_count] at hcount
  refine runeString_ne_intText (fun hlt => ?_) (Option.some.inj hcount)
  exact Int32.toInt_ofNat_of_lt (by omega)

/-- **How the two readers of the installed snaps agree.**  They never do: the number of snaps is
published as a code point.  A resource agrees unless it is the installed size, or the flag of a
snap in devmode, or its text holds a NUL; and an index without a snap is refused above the number of
snaps only. -/
theorem snapReaders_agree_iff (snaps : List Snap) :
    ¬ SnapReadersAgree client snaps ∧ ¬ CountAgrees snaps ∧
      (∀ instanceID snap, snaps[instanceID]? = some snap → ∀ rid ≤ 9,
        (ResourceAgrees snaps instanceID rid snap ↔
          rid ≠ 5 ∧ (rid = 9 → snap.devMode = false) ∧ 0 ∉ snapText snap rid)) ∧
      ∀ instanceID, ¬ IsListed snaps instanceID →
        (TakesErrorBranch client snaps instanceID ↔ snaps.length < instanceID) :=
  ⟨fun h => not_countAgrees snaps h.count, not_countAgrees snaps,
    fun _ _ hsnap _ hrid => resourceAgrees_iff hsnap hrid,
    fun _ h => takesErrorBranch_iff client h⟩

end

/-- An installed snap of 20480 bytes, in devmode. -/
def devmodeSnap : Snap where
  name := ascii "hello"
  summary := ascii "Hello"
  description := ascii "Says hello"
  confinement := ascii "devmode"
  developer := ascii "developer"
  installDate := 1500000000
  installedSize := 20480
  status := ascii "active"
  version := ascii "2.10"
  revision := 20
  devMode := true

/-- **The readers disagree**: the size is published as the character of its code point, and the flag
is read as `false`. -/
theorem devmodeSnap_fails : ¬ SnapReadersAgree (fun _ _ => []) [devmodeSnap] ∧
    snapRefreshData [devmodeSnap] (ascii "/30001/0/5") = some [0xE5, 0x80, 0x80] ∧
    snapInstanceRead [devmodeSnap] 0 5 = .ok (some (ascii "20480")) ∧
    snapRefreshData [devmodeSnap] (ascii "/30001/0/9") = some (ascii "true") ∧
    snapInstanceRead [devmodeSnap] 0 9 = .ok (some (ascii "false")) := by
  refine ⟨fun h => ?_, by decide +kernel, by decide +kernel, by decide +kernel, by decide +kernel⟩
  have hread := (h.resources 0 devmodeSnap rfl 9 le_rfl).read
  exact absurd hread (by decide +kernel)

end Lwm2m.Core

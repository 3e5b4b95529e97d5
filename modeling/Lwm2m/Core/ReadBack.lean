/-
# Reading back what was written

What the read callbacks of the Security and the Server Object return after a sequence of accepted
writes to one resource of one instance.  Every other resource reads what it read before.  The
resource itself reads the last value, but not always: `prv_server_write` copies the
binding with `strncpy` and the length of the value, which ends no string, so behind a shorter value
the rest of a longer one is still there; and `prv_security_write` keeps 16 bits of the length of
a key.
-/

import Lwm2m.Core.WriteAtomicity
import Lwm2m.Library.Run

namespace Lwm2m.Core

open Code Library Library.Memory

/-- A write of one item that is accepted. -/
def WriteStep {α : Type} (t : ObjectType α) (instanceId : UInt16) (s : Heap × List (ListNode α))
    (item : Data) (s' : Heap × List (ListNode α)) : Prop :=
  t.write s.1 s.2 instanceId [item] = .ok (s'.1, s'.2, coap204Changed)

section

variable {α : Type} {t : ObjectType α} {o : Ownership t} {m m' : Heap} {x x' : α}
  {l l' before after : List (ListNode α)} {n : ListNode α} {items : List Data}
  {instanceId : UInt16} {code : Code}

/-! ### The instance list along the writes -/

theorem linked_fields (x : α) (h : Linked (before ++ n :: after)) :
    Linked (before ++ { n with fields := x } :: after) := by
  induction before with
  | nil => exact h
  | cons head tail ih =>
    refine ⟨h.1.trans ?_, ih h.2⟩
    cases tail <;> rfl

/-- A write keeps the nodes and the buffers cells of their own. -/
theorem OwnsInstances.write (hown : OwnsInstances o m (before ++ n :: after))
    (hfind : listFind ListNode.id (before ++ n :: after) instanceId = some n)
    (h : t.write m (before ++ n :: after) instanceId items = .ok (m', l', code)) :
    OwnsInstances o m' l' := by
  have hall : Owns m [] m (cellsOf o.pointers (before ++ n :: after) ++ []) := by
    rw [List.append_nil]
    exact ⟨hown.nodup, hown.allocated, fun _ _ => List.not_mem_nil,
      fun _ ha => absurd ha List.not_mem_nil, fun _ _ => rfl⟩
  have hafter : Owns m [] m' (cellsOf o.pointers l' ++ []) := (o.write instanceId items hall).1 _ h
  rw [List.append_nil] at hafter
  obtain ⟨x', -, rfl, -⟩ := write_at _ hown hfind h
  exact ⟨hafter.nodup, hafter.allocated, linked_fields x' hown.linked⟩

variable {key rid id : UInt16} {f : UInt16 → Except Fault (Except Code ResourceValue)}
  {v : ResourceValue} {resList : List UInt16} {earlier : List Data} {item : Data}

/-- The instance that is found stays the one that is found. -/
theorem listFind_fields (x : α) (hnew : n ∉ before)
    (h : listFind ListNode.id (before ++ n :: after) key = some n) :
    listFind ListNode.id (before ++ { n with fields := x } :: after) key =
      some { n with fields := x } := by
  induction before with
  | nil =>
    rw [List.nil_append, listFind_cons] at h ⊢
    split_ifs at h ⊢ with hlt hid
    · have hid := (mem_of_listFind h).2
      exact absurd (hid ▸ hlt) (UInt16.lt_irrefl _)
    · rfl
  | cons head tail ih =>
    rw [List.mem_cons, not_or] at hnew
    rw [List.cons_append, listFind_cons] at h ⊢
    split_ifs at h ⊢ with hlt hid
    · exact ih hnew.2 h
    · exact absurd (Option.some.inj h).symm hnew.1

/-- **A sequence of accepted writes** is one of accepted items. -/
theorem writes_at (hown : OwnsInstances o m (before ++ n :: after))
    (hfind : listFind ListNode.id (before ++ n :: after) instanceId = some n)
    (h : Run (WriteStep t instanceId) (m, before ++ n :: after) items (m', l')) :
    ∃ x', l' = before ++ { n with fields := x' } :: after ∧ ItemsAccepted t m n.fields items m' x' ∧
      listFind ListNode.id l' instanceId = some { n with fields := x' } ∧
      ∀ a ∈ cellsOf o.pointers (before ++ after), m'.cells a = m.cells a := by
  induction items generalizing m n with
  | nil =>
    cases h
    exact ⟨n.fields, rfl, .nil _ _, hfind, fun _ _ => rfl⟩
  | cons item next ih =>
    obtain _ | ⟨hstep, hrest⟩ := h
    rename_i s₁
    obtain ⟨m₁, l₁⟩ := s₁
    obtain ⟨x₁, hitem, rfl, hcells⟩ := write_at _ hown hfind hstep
    have hnew : n ∉ before := fun hmem => hown.owns.disjoint n.address
      (List.mem_append_right _ List.mem_cons_self)
      (address_mem_cellsOf (List.mem_append_left after hmem))
    have hown₁ := hown.write hfind hstep
    obtain ⟨x', hl', haccepted, hfind', hsame⟩ :=
      ih hown₁ (listFind_fields x₁ hnew hfind) hrest
    exact ⟨x', hl', .cons hitem haccepted, hfind', fun a ha =>
      (hsame a ha).trans (hcells.cells a ha)⟩

/-! ### The reads behind the writes -/

/-- Items for one resource leave what the others read as it was. -/
theorem ItemsAccepted.getValue_of_ne (r : Resources o) {m₀ : Heap} {kept owned : List ℕ}
    (hown : Owns m₀ kept m (o.pointers x ++ owned)) (h : ItemsAccepted t m x items m' x')
    (hitems : ∀ item ∈ items, item.id = rid) (hid : id ≠ rid) :
    r.getValue m' x' id = r.getValue m x id := by
  induction h with
  | nil => rfl
  | cons hitem _ ih =>
    obtain ⟨hfirst, hrest⟩ := List.forall_mem_cons.mp hitems
    rw [ih ((o.writeResource _ hown).1 _ hitem) hrest, r.accepted hown hitem,
      Function.update_of_ne (hfirst ▸ hid)]

/-- A read of one resource. -/
theorem readItems_singleton : readItems f [id] = .ok (.ok [v]) ↔ f id = .ok (.ok v) := by
  unfold readItems
  generalize f id = read
  rcases read with _ | _ | value
  · exact iff_of_false (fun h => by cases h) fun h => by cases h
  · exact iff_of_false (fun h => by cases h) fun h => by cases h
  · constructor
    · rintro ⟨⟩
      rfl
    · rintro ⟨⟩
      rfl

theorem readItems_congr {f' : UInt16 → Except Fault (Except Code ResourceValue)}
    (h : f' id = f id) : readItems f' [id] = readItems f [id] := by
  unfold readItems
  rw [h]
  rfl

/-- **Every other resource** reads what it read before. -/
theorem readInstance_other (r : Resources o) (hown : OwnsInstances o m (before ++ n :: after))
    (hfind : listFind ListNode.id (before ++ n :: after) instanceId = some n)
    (hitems : ∀ item ∈ items, item.id = rid)
    (h : Run (WriteStep t instanceId) (m, before ++ n :: after) items (m', l'))
    (hother : key ≠ instanceId ∨ id ≠ rid) :
    readInstance resList (r.getValue m') l' key [id] =
      readInstance resList (r.getValue m) (before ++ n :: after) key [id] := by
  obtain ⟨x', rfl, haccepted, hfind', hcells⟩ := writes_at hown hfind h
  unfold readInstance
  by_cases hkey : key = instanceId
  · have hne := hother.resolve_left (not_not.mpr hkey)
    have hread := haccepted.getValue_of_ne r hown.owns hitems hne
    subst hkey
    rw [hfind, hfind']
    exact readItems_congr hread
  · -- The instances are the same ones, and read the same unless they are the one that is written.
    have hsame (list : List (ListNode α)) (hsub : list ⊆ before ++ after) :
        List.Forall₂ (fun n₁ n₂ => n₂.id = n₁.id ∧
          (n₁.id ≠ instanceId → r.getValue m' n₂.fields = r.getValue m n₁.fields)) list list :=
      List.forall₂_same.mpr fun n' hn' =>
        ⟨rfl, fun _ => getValue_of_cells r hcells (hsub hn')⟩
    have hnodes : List.Forall₂ (fun n₁ n₂ => n₂.id = n₁.id ∧
        (n₁.id ≠ instanceId → r.getValue m' n₂.fields = r.getValue m n₁.fields))
        (before ++ n :: after) (before ++ { n with fields := x' } :: after) :=
      List.rel_append (hsame before (List.subset_append_left _ _))
        (.cons ⟨rfl, fun hne => absurd (mem_of_listFind hfind).2 hne⟩
          (hsame after (List.subset_append_right _ _)))
    have hid (n₁ n₂ : ListNode α) (hn : n₂.id = n₁.id ∧
        (n₁.id ≠ instanceId → r.getValue m' n₂.fields = r.getValue m n₁.fields)) :
        n₂.id = n₁.id := hn.1
    obtain ⟨hl, hl'⟩ | ⟨n₁, n₂, hl, hl', -, heq⟩ := listFind_forall₂ hid hnodes key
    · rw [hl, hl']
    · rw [hl, hl']
      exact congrArg (readItems · _) (heq fun hid => hkey ((mem_of_listFind hl).2.symm.trans hid))

/-- What the resource reads behind the writes. -/
theorem readInstance_self (r : Resources o) (hown : OwnsInstances o m (before ++ n :: after))
    (hfind : listFind ListNode.id (before ++ n :: after) instanceId = some n)
    (h : Run (WriteStep t instanceId) (m, before ++ n :: after) items (m', l')) :
    readInstance resList (r.getValue m') l' instanceId [rid] = .ok (.ok [v]) ↔
      r.readsAfter m n.fields items rid = .ok (.ok v) := by
  obtain ⟨x', rfl, haccepted, hfind', -⟩ := writes_at hown hfind h
  have hreads := congrFun (r.accepted_run hown.owns haccepted) rid
  unfold readInstance
  rw [hfind', ← hreads]
  exact readItems_singleton

/-- The last of the items is accepted. -/
theorem accepts_last (r : Resources o) (hown : OwnsInstances o m (before ++ n :: after))
    (hfind : listFind ListNode.id (before ++ n :: after) instanceId = some n)
    (h : Run (WriteStep t instanceId) (m, before ++ n :: after) (earlier ++ [item]) (m', l')) :
    r.accepts item = true := by
  obtain ⟨x', -, haccepted, -, -⟩ := writes_at hown hfind h
  obtain ⟨m₁, x₁, -, hitem⟩ := ItemsAccepted.concat_iff.mp haccepted
  exact (r.accepts_iff hitem).mp rfl

/-- The instance that is written is found. -/
theorem exists_of_writes (h : Run (WriteStep t instanceId) (m, l) (earlier ++ [item]) (m', l')) :
    ∃ before n after, l = before ++ n :: after ∧ listFind ListNode.id l instanceId = some n := by
  cases hitems : earlier ++ [item] with
  | nil => exact absurd hitems (List.append_ne_nil_of_right_ne_nil _ (List.cons_ne_nil _ _))
  | cons first next =>
    rw [hitems] at h
    obtain _ | ⟨hstep, -⟩ := h
    unfold WriteStep ObjectType.write at hstep
    cases hfind : listFind ListNode.id l instanceId with
    | none =>
      rw [hfind] at hstep
      cases (congrArg (·.2.2) (Except.ok.inj hstep) : coap404NotFound = coap204Changed)
    | some n =>
      obtain ⟨before, after, rfl⟩ := List.append_of_mem (mem_of_listFind hfind).1
      exact ⟨before, n, after, rfl, rfl⟩

end

theorem forall_found {β : Type} {found : Option β} {b : β} {P : β → Prop} (h : found = some b) :
    (∀ targetP, found = some targetP → P targetP) ↔ P b := by
  rw [h]
  exact ⟨fun hall => hall b rfl, fun hb _ heq => Option.some.inj heq ▸ hb⟩

/-! ### The Server Object -/

/-- What is left at a position of the array is a NUL: the last value that reaches it has one there
or in front, or no value reaches it and it was there before. -/
def EndsAt (binding : List Byte) (values : List (List Byte)) (i : ℕ) : Prop :=
  match (values.filter (i < ·.length)).getLast? with
  | some value => 0 ∈ value.take (i + 1)
  | none => binding[i]? = some 0

/-- A buffer up to its first NUL, and what is behind it. -/
theorem exists_takeWhile_append (bytes : List Byte) :
    ∃ rest, bytes = bytes.takeWhile (· ≠ 0) ++ rest ∧ ∀ b ∈ rest.head?, b = 0 := by
  refine ⟨bytes.dropWhile (· ≠ 0), List.takeWhile_append_dropWhile.symm, fun b hb => ?_⟩
  have h := List.head?_dropWhile_not (fun b : Byte => decide (b ≠ 0)) bytes
  rw [Option.mem_def.mp hb] at h
  simpa using h

variable {dest src : List Byte} {i : ℕ}

/-- Where `strncpy` leaves a NUL. -/
theorem strncpy_eq_zero_iff :
    (strncpy dest src)[i]? = some 0 ↔
      if i < src.length then 0 ∈ src.take (i + 1) else dest[i]? = some 0 := by
  obtain ⟨rest, hsrc, hrest⟩ := exists_takeWhile_append src
  have hne : ∀ b ∈ src.takeWhile (· ≠ 0), b ≠ 0 := fun b hb => by
    simpa using List.mem_takeWhile_imp hb
  unfold strncpy
  generalize src.takeWhile (· ≠ 0) = s at hsrc hne ⊢
  have hlength : src.length = s.length + rest.length := by rw [hsrc, List.length_append]
  have hcopied : (s ++ List.replicate (src.length - s.length) (0 : Byte)).length = src.length := by
    rw [List.length_append, List.length_replicate]
    omega
  split_ifs with hi
  · rw [List.getElem?_append_left (by omega)]
    by_cases hs : i < s.length
    · refine iff_of_false (fun h => ?_) fun h => ?_
      · rw [List.getElem?_append_left hs] at h
        exact hne 0 (List.mem_of_getElem? h) rfl
      · rw [hsrc, List.take_append_of_le_length (by omega)] at h
        exact hne 0 (List.mem_of_mem_take h) rfl
    · refine iff_of_true ?_ ?_
      · rw [List.getElem?_append_right (by omega), List.getElem?_replicate, if_pos (by omega)]
      · cases rest with
        | nil => rw [List.length_nil] at hlength; omega
        | cons b rest =>
          obtain rfl := hrest b rfl
          rw [hsrc, List.take_append, List.mem_append]
          refine .inr ?_
          obtain ⟨k, hk⟩ : ∃ k, i + 1 - s.length = k + 1 := ⟨i - s.length, by omega⟩
          rw [hk, List.take_succ_cons]
          exact List.mem_cons_self
  · rw [List.getElem?_append_right (by omega), hcopied, List.getElem?_drop,
      Nat.add_sub_cancel' (by omega)]

theorem foldl_strncpy_eq_zero_iff {binding : List Byte} {values : List (List Byte)} :
    (values.foldl strncpy binding)[i]? = some 0 ↔ EndsAt binding values i := by
  induction values using List.reverseRecOn with
  | nil => rfl
  | append_singleton values value ih =>
    rw [List.foldl_append, List.foldl_cons, List.foldl_nil, strncpy_eq_zero_iff]
    unfold EndsAt at ih ⊢
    rw [List.filter_append]
    split_ifs with hi
    · rw [List.filter_cons_of_pos (by simpa using hi), List.filter_nil, List.getLast?_concat]
    · rw [List.filter_cons_of_neg (by simpa using hi), List.filter_nil, List.append_nil]
      exact ih

/-- When a string that is copied over an array is read back. -/
theorem cString_strncpy_iff :
    cString (strncpy dest src) = .ok src ↔ 0 ∉ src ∧ dest[src.length]? = some 0 := by
  by_cases hzero : 0 ∈ src
  · refine iff_of_false (fun h => ?_) fun h => h.1 hzero
    exact ne_zero_of_cString h 0 hzero rfl
  · have hne : ∀ b ∈ src, b ≠ 0 := fun b hb heq => hzero (heq ▸ hb)
    have hcopied : strncpy dest src = src ++ dest.drop src.length := by
      have hall : src.takeWhile (· ≠ 0) = src :=
        List.takeWhile_eq_self_iff.mpr fun b hb => decide_eq_true (hne b hb)
      unfold strncpy
      dsimp only
      rw [hall, Nat.sub_self, List.replicate_zero, List.append_nil]
    rw [hcopied, and_iff_right hzero, ← List.head?_drop]
    constructor
    · intro h
      have hsplit := (cString_split h).2
      rw [List.append_cancel_left hsplit]
      rfl
    · intro h
      obtain ⟨rest, hrest⟩ := List.head?_eq_some_iff.mp h
      rw [hrest]
      exact SecurityInstance.cString_of_append hne

theorem exists_of_inRange {value : Option ℤ} {max : ℕ} (h : inRange value max = true) :
    ∃ v, value = some v := by
  cases value with
  | none => cases h
  | some v => exact ⟨v, rfl⟩

namespace ServerInstance

/-- The value that an item carries for its resource. -/
def carried (d : Decoders) (item : Data) : Option ResourceValue :=
  match item.id.toNat with
  | 6 => (d.decodeBool item).map .boolean
  | 7 => some (.string item.value)
  | _ => (d.decodeInt item).map .integer

/-- The last value is a whole string and the array goes on with a NUL behind it; this is asked of
the binding only. -/
def ReadsBack (targetP : ServerInstance) (earlier : List Data) (item : Data) : Prop :=
  item.id = 7 → 0 ∉ item.value ∧
    EndsAt targetP.binding (earlier.map Data.value) item.value.length

variable {d : Decoders} {x : ServerInstance} {earlier : List Data} {item : Data}

/-- An accepted item that is no boolean and no binding carries an integer. -/
theorem exists_decodeInt (h6 : item.id.toNat ≠ 6) (h7 : item.id.toNat ≠ 7)
    (haccepts : accepts d item = true) : ∃ v, d.decodeInt item = some v := by
  unfold accepts at haccepts
  split at haccepts
  · exact exists_of_inRange (Bool.and_eq_true_iff.mp haccepts).1
  · exact exists_of_inRange haccepts
  · exact exists_of_inRange haccepts
  · exact exists_of_inRange haccepts
  · exact exists_of_inRange haccepts
  · contradiction
  · contradiction
  · cases haccepts

/-- What an accepted item stores, outside the binding. -/
theorem stored_carried (hid : item.id ≠ 7) (haccepts : accepts d item = true) :
    ∃ v, carried d item = some v ∧ stored d x item = .ok (.ok v) := by
  have h7 : item.id.toNat ≠ 7 := fun h => hid (UInt16.toNat_inj.mp h)
  by_cases h6 : item.id.toNat = 6
  · unfold accepts at haccepts
    unfold carried stored
    rw [h6] at haccepts ⊢
    obtain ⟨v, hv⟩ := Option.isSome_iff_exists.mp haccepts
    rw [hv]
    exact ⟨.boolean v, rfl, rfl⟩
  · obtain ⟨v, hv⟩ := exists_decodeInt h6 h7 haccepts
    refine ⟨.integer v, ?_, ?_⟩
    · unfold carried
      rw [hv]
      split <;> first | rfl | contradiction
    · unfold stored
      rw [hv]
      split <;> first | rfl | contradiction

/-- **When the Server Object reads back** the last of the accepted values. -/
theorem reads_carried_iff (hitems : ∀ i ∈ earlier ++ [item], i.id = item.id)
    (haccepts : accepts d item = true) :
    (∃ v, carried d item = some v ∧
      readsAfter d x (earlier ++ [item]) item.id = .ok (.ok v)) ↔ ReadsBack x earlier item := by
  unfold readsAfter ReadsBack
  by_cases hid : item.id = 7
  · have hall : (earlier ++ [item]).filter (·.id = 7) = earlier ++ [item] :=
      List.filter_eq_self.mpr fun i hi => decide_eq_true ((hitems i hi).trans hid)
    have hafter : bindingAfter x (earlier ++ [item]) =
        strncpy ((earlier.map Data.value).foldl strncpy x.binding) item.value := by
      unfold bindingAfter
      rw [hall, List.foldl_append, List.foldl_map]
      rfl
    have hcarried : carried d item = some (.string item.value) := by
      unfold carried
      rw [hid]
      rfl
    rw [if_pos hid, forall_prop_of_true hid, hafter, ← foldl_strncpy_eq_zero_iff,
      ← cString_strncpy_iff, hcarried]
    generalize cString _ = read
    constructor
    · rintro ⟨v, hv, hread⟩
      cases hv
      obtain ⟨s, hs, hread⟩ := bind_eq_ok_iff.mp hread
      cases hread
      exact hs
    · rintro rfl
      exact ⟨_, rfl, rfl⟩
  · refine iff_of_true ?_ fun h => absurd h hid
    rw [if_neg hid, lastFor_append, if_pos rfl]
    exact stored_carried hid haccepts

end ServerInstance

/-! ### The Security Object -/

namespace SecurityInstance

/-- The value that an item carries for its resource. -/
def carried (d : Decoders) (item : Data) : Option ResourceValue :=
  match item.id.toNat with
  | 0 => some (.string item.value)
  | 1 => (d.decodeBool item).map .boolean
  | 3 | 4 | 5 | 7 | 8 => some (.bytes item.value)
  | _ => (d.decodeInt item).map .integer

/-- The URI is a whole string, a key is shorter than 2^16 bytes, and the value of an SMS resource,
where writes are ignored, is the one that is there. -/
def ReadsBack (d : Decoders) (m : Heap) (targetP : SecurityInstance) (item : Data) : Prop :=
  match item.id.toNat with
  | 0 => 0 ∉ item.value
  | 3 | 4 | 5 => item.value.length < 2 ^ 16
  | 6 | 7 | 8 | 9 => ∃ v, carried d item = some v ∧ getValue m targetP item.id = .ok (.ok v)
  | _ => True

variable {d : Decoders} {m : Heap} {x : SecurityInstance} {earlier : List Data} {item : Data}

/-- A key is read as a whole when its length fits 16 bits. -/
theorem key_carried_iff {key : List Byte} :
    (∃ v, some (ResourceValue.bytes key) = some v ∧
      (.ok (.ok (.bytes (key.take (key.length % 2 ^ 16)))) :
        Except Fault (Except Code ResourceValue)) = .ok (.ok v)) ↔ key.length < 2 ^ 16 := by
  constructor
  · rintro ⟨v, hv, hread⟩
    cases hv
    have hkey := ResourceValue.bytes.inj (Except.ok.inj (Except.ok.inj hread))
    have hlength := congrArg List.length hkey
    rw [List.length_take] at hlength
    omega
  · intro hlt
    refine ⟨_, rfl, ?_⟩
    rw [Nat.mod_eq_of_lt hlt, List.take_length]

/-- A URI is read as a whole when it has no NUL. -/
theorem uri_carried_iff {uri : List Byte} :
    (∃ v, some (ResourceValue.string uri) = some v ∧
      (.ok (.ok (.string (uri.takeWhile (· ≠ 0)))) :
        Except Fault (Except Code ResourceValue)) = .ok (.ok v)) ↔ 0 ∉ uri := by
  have hwhole : uri.takeWhile (· ≠ 0) = uri ↔ 0 ∉ uri := by
    rw [List.takeWhile_eq_self_iff]
    constructor
    · exact fun h hmem => absurd (h 0 hmem) (by decide)
    · exact fun h b hb => decide_eq_true fun heq => h (heq ▸ hb)
  rw [← hwhole]
  constructor
  · rintro ⟨v, hv, hread⟩
    cases hv
    exact ResourceValue.string.inj (Except.ok.inj (Except.ok.inj hread))
  · intro h
    rw [h]
    exact ⟨_, rfl, rfl⟩

/-- What an accepted item stores. -/
theorem stored_carried_iff (haccepts : accepts d item = true) :
    (∃ v, carried d item = some v ∧ stored d m x item = .ok (.ok v)) ↔ ReadsBack d m x item := by
  have hint {value : Option ℤ} {max : ℕ} (h : inRange value max = true) :
      ∃ v, value.map ResourceValue.integer = some v ∧
        (.ok (.ok (.integer (value.getD 0))) : Except Fault (Except Code ResourceValue)) =
          .ok (.ok v) := by
    obtain ⟨v, rfl⟩ := exists_of_inRange h
    exact ⟨_, rfl, rfl⟩
  unfold ReadsBack
  unfold accepts at haccepts
  split at haccepts <;> rename_i hid
  case h_2 | h_3 | h_4 =>
    unfold carried stored
    rw [hid]
    exact key_carried_iff
  case h_5 | h_6 | h_7 | h_8 =>
    unfold stored
    rw [hid]
    rfl
  case h_10 | h_11 | h_12 | h_13 =>
    unfold carried stored
    rw [hid]
    exact iff_of_true (hint haccepts) trivial
  · unfold carried stored
    rw [hid]
    exact uri_carried_iff
  · unfold carried stored
    rw [hid]
    obtain ⟨v, hv⟩ := Option.isSome_iff_exists.mp haccepts
    rw [hv]
    exact iff_of_true ⟨_, rfl, rfl⟩ trivial
  · cases haccepts

variable (earlier) in
/-- **When the Security Object reads back** the last of the accepted values. -/
theorem reads_carried_iff (haccepts : accepts d item = true) :
    (∃ v, carried d item = some v ∧
      readsAfter d m x (earlier ++ [item]) item.id = .ok (.ok v)) ↔ ReadsBack d m x item := by
  have hlast : readsAfter d m x (earlier ++ [item]) item.id = stored d m x item := by
    unfold readsAfter
    rw [lastFor_append, if_pos rfl]
  rw [hlast]
  exact stored_carried_iff haccepts

end SecurityInstance

/-! ### The two objects -/

/-- **When the last of a sequence of accepted writes is read back**, for every resource of the
Security and the Server Object; the other resources and the other instances read what they read
before the writes. -/
theorem readBack_iff (d : Decoders) {m m' : Heap} {instanceId : UInt16} {earlier : List Data}
    {item : Data} (hitems : ∀ i ∈ earlier ++ [item], i.id = item.id) :
    (∀ l l' : List (ListNode SecurityInstance), OwnsInstances (securityOwnership d) m l →
      Run (WriteStep (securityObject d) instanceId) (m, l) (earlier ++ [item]) (m', l') →
      ((∃ v, SecurityInstance.carried d item = some v ∧
          securityRead m' l' instanceId [item.id] = .ok (.ok [v])) ↔
        ∀ targetP, listFind ListNode.id l instanceId = some targetP →
          SecurityInstance.ReadsBack d m targetP.fields item) ∧
      ∀ key id, key ≠ instanceId ∨ id ≠ item.id →
        securityRead m' l' key [id] = securityRead m l key [id]) ∧
    (∀ l l' : List (ListNode ServerInstance), OwnsInstances (serverOwnership d) m l →
      Run (WriteStep (serverObject d) instanceId) (m, l) (earlier ++ [item]) (m', l') →
      ((∃ v, ServerInstance.carried d item = some v ∧
          serverRead l' instanceId [item.id] = .ok (.ok [v])) ↔
        ∀ targetP, listFind ListNode.id l instanceId = some targetP →
          ServerInstance.ReadsBack targetP.fields earlier item) ∧
      ∀ key id, key ≠ instanceId ∨ id ≠ item.id →
        serverRead l' key [id] = serverRead l key [id]) := by
  refine ⟨fun l l' hown h => ?_, fun l l' hown h => ?_⟩
  · obtain ⟨before, n, after, rfl, hfind⟩ := exists_of_writes h
    refine ⟨?_, fun key id hother =>
      readInstance_other (securityResources d) hown hfind hitems h hother⟩
    have haccepts := accepts_last (securityResources d) hown hfind h
    rw [forall_found hfind, ← SecurityInstance.reads_carried_iff earlier haccepts]
    exact exists_congr fun v => and_congr_right fun _ =>
      readInstance_self (securityResources d) hown hfind h
  · obtain ⟨before, n, after, rfl, hfind⟩ := exists_of_writes h
    refine ⟨?_, fun key id hother =>
      readInstance_other (serverResources d) hown hfind hitems h hother⟩
    have haccepts := accepts_last (serverResources d) hown hfind h
    rw [forall_found hfind, ← ServerInstance.reads_carried_iff hitems haccepts]
    exact exists_congr fun v => and_congr_right fun _ =>
      readInstance_self (serverResources d) hown hfind h

/-- A Server Object with one instance and the array of its binding. -/
def bindingServers (binding : List Byte) : List (ListNode ServerInstance) :=
  [{ address := 0
     next := none
     id := 0
     fields :=
      { ServerInstance.zero with
        shortServerId := 1
        binding } }]

/-- A write of the binding, as the array is before it and behind it. -/
def WritesBinding (binding value binding' : List Byte) : Prop :=
  WriteStep (serverObject byteDecoders) 0 ((Memory.empty.alloc .node).1, bindingServers binding)
    (.mk 7 .string value []) ((Memory.empty.alloc .node).1, bindingServers binding')

/-- The binding U is written over UQS, and UQS is read. -/
theorem shorterBinding_reads :
    Run (WriteStep (serverObject byteDecoders) 0)
        ((Memory.empty.alloc .node).1, bindingServers [0, 0, 0, 0])
        [.mk 7 .string [0x55, 0x51, 0x53] [], .mk 7 .string [0x55] []]
        ((Memory.empty.alloc .node).1, bindingServers [0x55, 0x51, 0x53, 0]) ∧
      serverRead (bindingServers [0x55, 0x51, 0x53, 0]) 0 [7] =
        .ok (.ok [.string [0x55, 0x51, 0x53]]) := by
  have hlong : WritesBinding [0, 0, 0, 0] [0x55, 0x51, 0x53] [0x55, 0x51, 0x53, 0] := rfl
  have hshort : WritesBinding [0x55, 0x51, 0x53, 0] [0x55] [0x55, 0x51, 0x53, 0] := rfl
  exact ⟨.cons hlong (.cons hshort (.nil _)), rfl⟩

/-- The binding UQ is written over U, and read. -/
theorem longerBinding_reads :
    ∃ v, ServerInstance.carried byteDecoders (.mk 7 .string [0x55, 0x51] []) = some v ∧
      serverRead (bindingServers [0x55, 0x51, 0, 0]) 0 [7] = .ok (.ok [v]) := by
  have hown : OwnsInstances (serverOwnership byteDecoders) (Memory.empty.alloc .node).1
      (bindingServers [0, 0, 0, 0]) :=
    ⟨List.nodup_singleton 0, fun a ha => by cases List.mem_singleton.mp ha; rfl, rfl, trivial⟩
  have hitems : ∀ i ∈ [Data.mk 7 .string [0x55] []] ++ [Data.mk 7 .string [0x55, 0x51] []],
      i.id = (Data.mk 7 .string [0x55, 0x51] []).id := by
    intro i hi
    obtain rfl | rfl := List.mem_pair.mp hi <;> rfl
  have hshort : WritesBinding [0, 0, 0, 0] [0x55] [0x55, 0, 0, 0] := rfl
  have hlong : WritesBinding [0x55, 0, 0, 0] [0x55, 0x51] [0x55, 0x51, 0, 0] := rfl
  have hrun : Run (WriteStep (serverObject byteDecoders) 0)
      ((Memory.empty.alloc .node).1, bindingServers [0, 0, 0, 0])
      ([.mk 7 .string [0x55] []] ++ [.mk 7 .string [0x55, 0x51] []])
      ((Memory.empty.alloc .node).1, bindingServers [0x55, 0x51, 0, 0]) :=
    .cons hshort (.cons hlong (.nil _))
  refine (((readBack_iff byteDecoders hitems).2 _ _ hown hrun).1).mpr ?_
  rintro targetP hfind -
  cases hfind
  exact ⟨by decide, rfl⟩

end Lwm2m.Core

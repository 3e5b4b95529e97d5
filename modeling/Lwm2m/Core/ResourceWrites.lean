/-
# What one write does to the resources

One turn of the loop of `prv_security_write` and `prv_server_write` (`object_security.c`,
`object_server.c`), seen through the read callback: an item that is refused changes nothing, and
an item that is accepted changes what its own resource reads and nothing else (`Resources`).  It
holds of the Security Object while each of its buffers is owned once.
-/

import Lwm2m.Core.BackupObjects
import Mathlib.Data.List.Pairwise

namespace Lwm2m.Core

open Code Library Library.Memory

/-- What the resources of an instance read. -/
abbrev ResourceReads := UInt16 → Except Fault (Except Code ResourceValue)

/-- The items are written one after the other, and each is accepted. -/
inductive ItemsAccepted {α : Type} (t : ObjectType α) : Heap → α → List Data → Heap → α → Prop
  | nil (m : Heap) (x : α) : ItemsAccepted t m x [] m x
  | cons {m m₁ m' : Heap} {x x₁ x' : α} {item : Data} {next : List Data} :
      t.writeResource m x item = .ok (m₁, x₁, coap204Changed) → ItemsAccepted t m₁ x₁ next m' x' →
      ItemsAccepted t m x (item :: next) m' x'

/-- The resources of an object, and what the turns of the loop of its write callback do to
them. -/
structure Resources {α : Type} {t : ObjectType α} (o : Ownership t) where
  /-- What the resources of an instance read. -/
  getValue : Heap → α → ResourceReads
  /-- The items that are accepted. -/
  accepts : Data → Bool
  /-- What the resource of an item reads once the item is accepted. -/
  stored : Heap → α → Data → Except Fault (Except Code ResourceValue)
  /-- What the resources read once the items are accepted. -/
  readsAfter : Heap → α → List Data → ResourceReads
  getValue_congr : ∀ {m m' x}, (∀ a ∈ o.pointers x, m'.cells a = m.cells a) →
    getValue m' x = getValue m x
  accepts_iff : ∀ {m x item m' x' code}, t.writeResource m x item = .ok (m', x', code) →
    (code = coap204Changed ↔ accepts item = true)
  not_created : ∀ {m x item m' x' code}, t.writeResource m x item = .ok (m', x', code) →
    code ≠ coap201Created
  refused : ∀ {m x item m' x' code}, t.writeResource m x item = .ok (m', x', code) →
    code ≠ coap204Changed → m' = m ∧ x' = x
  accepted : ∀ {m₀ kept m owned x item m' x'}, Owns m₀ kept m (o.pointers x ++ owned) →
    t.writeResource m x item = .ok (m', x', coap204Changed) →
    getValue m' x' = Function.update (getValue m x) item.id (stored m x item)
  accepted_run : ∀ {m₀ kept m owned x items m' x'}, Owns m₀ kept m (o.pointers x ++ owned) →
    ItemsAccepted t m x items m' x' → getValue m' x' = readsAfter m x items

/-! ### Integers -/

/-- The integer is between 0 and the greatest one allowed. -/
def inRange (value : Option ℤ) (max : ℕ) : Bool :=
  value.any fun v => decide (0 ≤ v ∧ v ≤ (max : ℤ))

section setInt

variable {α : Type} {value : Option ℤ} {max : ℕ} {x x' : α} {set : ℕ → α} {code : Code}

/-- An integer that is refused. -/
theorem setInt_refused (h : setInt value max x set = (x', code)) (hcode : code ≠ coap204Changed) :
    x' = x := by
  unfold setInt at h
  split at h
  · cases h
    rfl
  · split_ifs at h
    · cases h
      exact absurd rfl hcode
    · cases h
      rfl

/-- An integer that is accepted is in its range. -/
theorem setInt_accepted (h : setInt value max x set = (x', coap204Changed)) :
    ∃ n : ℕ, value = some (n : ℤ) ∧ n ≤ max ∧ x' = set n := by
  unfold setInt at h
  split at h
  · cases h
  · rename_i v
    split_ifs at h with hrange
    · cases h
      refine ⟨v.toNat, ?_, ?_, rfl⟩
      · rw [Int.toNat_of_nonneg hrange.1]
      · omega
    · cases h

/-- An integer is accepted exactly when it is in the range. -/
theorem setInt_code (h : setInt value max x set = (x', code)) :
    code = coap204Changed ↔ inRange value max = true := by
  unfold setInt at h
  split at h
  · cases h
    exact iff_of_false (by decide) Bool.false_ne_true
  · split_ifs at h with hrange
    · cases h
      exact iff_of_true rfl (decide_eq_true hrange)
    · cases h
      refine iff_of_false (by decide) fun hin => hrange (of_decide_eq_true hin)

/-- An integer is not answered with 2.01. -/
theorem setInt_not_created (h : setInt value max x set = (x', code)) : code ≠ coap201Created := by
  unfold setInt at h
  split at h
  · cases h
    decide
  · split_ifs at h <;> (cases h; decide)

end setInt

variable {id : UInt16} {n : ℕ} {α : Type} {m m' m₀ : Heap} {kept owned : List ℕ} {c : Code}

/-- A function that agrees with another one but at a point. -/
theorem eq_update {reads reads' : ResourceReads} {value : Except Fault (Except Code ResourceValue)}
    (hself : reads' id = value) (hothers : ∀ r, r ≠ id → reads' r = reads r) :
    reads' = Function.update reads id value := by
  funext r
  by_cases h : r = id
  · rw [h, Function.update_self, hself]
  · rw [Function.update_of_ne h, hothers r h]

variable {k : ℕ} {r : UInt16} {items : List Data}

theorem integer_congr (h : k = n) :
    (.ok (.ok (.integer k)) : Except Fault (Except Code ResourceValue)) =
      .ok (.ok (.integer n)) := by
  rw [h]

/-- A resource that the item is not for. -/
theorem toNat_ne (hid : id.toNat = k) (hr : r ≠ id) : r.toNat ≠ k := by
  intro h
  exact hr (UInt16.toNat_inj.mp (h.trans hid.symm))

/-- The last item for a resource. -/
def lastFor (items : List Data) (r : UInt16) : Option Data :=
  (items.filter (·.id = r)).getLast?

theorem lastFor_append (items : List Data) (item : Data) (r : UInt16) :
    lastFor (items ++ [item]) r = if item.id = r then some item else lastFor items r := by
  unfold lastFor
  rw [List.filter_append]
  split_ifs with h
  · rw [List.filter_cons_of_pos (by simpa using h), List.filter_nil, List.getLast?_concat]
  · rw [List.filter_cons_of_neg (by simpa using h), List.filter_nil, List.append_nil]

/-- The items written behind others. -/
theorem ItemsAccepted.concat_iff {t : ObjectType α} {x x' : α} {item : Data} :
    ItemsAccepted t m x (items ++ [item]) m' x' ↔
      ∃ m₁ x₁, ItemsAccepted t m x items m₁ x₁ ∧
        t.writeResource m₁ x₁ item = .ok (m', x', coap204Changed) := by
  induction items generalizing m x with
  | nil =>
    constructor
    · rintro (_ | ⟨hitem, h⟩)
      cases h
      exact ⟨m, x, .nil m x, hitem⟩
    · rintro ⟨m₁, x₁, h, hitem⟩
      cases h
      exact .cons hitem (.nil m' x')
  | cons first next ih =>
    constructor
    · rintro (_ | ⟨hfirst, h⟩)
      obtain ⟨m₁, x₁, hnext, hitem⟩ := ih.mp h
      exact ⟨m₁, x₁, .cons hfirst hnext, hitem⟩
    · rintro ⟨m₁, x₁, h, hitem⟩
      obtain _ | ⟨hfirst, hnext⟩ := h
      exact .cons hfirst (ih.mpr ⟨m₁, x₁, hnext, hitem⟩)

/-- Writing keeps the buffers of an instance owned once. -/
theorem ItemsAccepted.owns {t : ObjectType α} (o : Ownership t) {x x' : α}
    (hown : Owns m₀ kept m (o.pointers x ++ owned)) (h : ItemsAccepted t m x items m' x') :
    Owns m₀ kept m' (o.pointers x' ++ owned) := by
  induction h with
  | nil => exact hown
  | cons hitem _ ih => exact ih ((o.writeResource _ hown).1 _ hitem)

/-! ### The Server Object -/

namespace ServerInstance

variable {d : Decoders} {m m' : Heap} {x x' : ServerInstance} {item : Data} {code : Code}

/-- What the resource of an item reads once the item is accepted: for the binding, the bytes
of the item over those that were there. -/
def stored (d : Decoders) (x : ServerInstance) (item : Data) :
    Except Fault (Except Code ResourceValue) :=
  match item.id.toNat with
  | 6 => .ok (.ok (.boolean ((d.decodeBool item).getD false)))
  | 7 => do pure (.ok (.string (← cString (strncpy x.binding item.value))))
  | _ => .ok (.ok (.integer ((d.decodeInt item).getD 0)))

/-- The items that the Server Object accepts. -/
def accepts (d : Decoders) (item : Data) : Bool :=
  match item.id.toNat with
  | 0 => inRange (d.decodeInt item) 0xFFFF && d.decodeInt item != some 0
  | 1 | 2 | 3 | 5 => inRange (d.decodeInt item) 0xFFFFFFFF
  | 6 => (d.decodeBool item).isSome
  | 7 => (item.type = .string ∨ item.type = .opaqueBytes) ∧
      0 < item.value.length ∧ item.value.length ≤ 3 ∧ bindings.any (strncmpEq item.value)
  | _ => false

/-- What the item of an integer resource stores. -/
theorem stored_integer (hid : item.id.toNat = k) (h6 : k ≠ 6) (h7 : k ≠ 7)
    (hn : d.decodeInt item = some (n : ℤ)) : stored d x item = .ok (.ok (.integer n)) := by
  unfold stored
  split
  · rename_i heq
    exact absurd (hid.symm.trans heq) h6
  · rename_i heq
    exact absurd (hid.symm.trans heq) h7
  · rw [hn]
    rfl

/-- What one turn of the loop may do: nothing, or what it does to the resource of the item. -/
def Turned (d : Decoders) (x : ServerInstance) (item : Data) (x' : ServerInstance) (code : Code) :
    Prop :=
  (code ≠ coap204Changed ∧ accepts d item = false ∧ x' = x) ∨
    (code = coap204Changed ∧ accepts d item = true ∧
      getValue x' = Function.update (getValue x) item.id (stored d x item))

theorem turned_refused (hc : c ≠ coap204Changed) (haccepts : accepts d item = false)
    (h : (.ok (m, x, c) : Except Fault (Heap × ServerInstance × Code)) = .ok (m', x', code)) :
    m' = m ∧ Turned d x item x' code := by
  cases h
  exact ⟨rfl, .inl ⟨hc, haccepts, rfl⟩⟩

/-- The turns that write a 32 bit integer. -/
theorem turned_setIntValue (hid : item.id.toNat = k) (h6 : k ≠ 6) (h7 : k ≠ 7)
    (haccepts : accepts d item = inRange (d.decodeInt item) 0xFFFFFFFF) {set : ℕ → ServerInstance}
    (hself : ∀ n, getValue (set n) item.id = .ok (.ok (.integer (UInt32.ofNat n).toNat)))
    (hothers : ∀ n r, r.toNat ≠ k → getValue (set n) r = getValue x r)
    (h : (.ok (m, setIntValue (d.decodeInt item) x set) :
      Except Fault (Heap × ServerInstance × Code)) = .ok (m', x', code)) :
    m' = m ∧ Turned d x item x' code := by
  obtain ⟨rfl, hresult⟩ := Prod.mk.inj (Except.ok.inj h)
  have hiff := setInt_code hresult
  rw [← haccepts] at hiff
  refine ⟨rfl, ?_⟩
  by_cases hcode : code = coap204Changed
  · have haccepted := hiff.mp hcode
    subst hcode
    obtain ⟨n, hn, hmax, rfl⟩ := setInt_accepted hresult
    refine .inr ⟨rfl, haccepted, eq_update ?_ fun r hr => hothers n r (toNat_ne hid hr)⟩
    rw [hself, stored_integer hid h6 h7 hn]
    exact integer_congr (UInt32.toNat_ofNat_of_lt' (Nat.lt_succ_of_le hmax))
  · have hrefused := Bool.eq_false_iff.mpr (mt hiff.mpr hcode)
    exact .inl ⟨hcode, hrefused, setInt_refused hresult hcode⟩

/-- **One turn of the loop** changes nothing, or what the resource of the item reads. -/
theorem writeResource_turned (h : writeResource d m x item = .ok (m', x', code)) :
    m' = m ∧ Turned d x item x' code := by
  unfold writeResource at h
  split at h <;> rename_i hid
  case h_2 | h_3 | h_4 | h_7 =>
    refine turned_setIntValue hid (by decide) (by decide) ?_ (fun n => ?_) (fun n r hr => ?_) h
    · unfold accepts
      rw [hid]
      rfl
    · unfold getValue
      rw [hid]
      rfl
    · unfold getValue
      split <;> first | rfl | contradiction
  case h_5 | h_6 => exact turned_refused (by decide) (by unfold accepts; rw [hid]; rfl) h
  · have haccepts : accepts d item =
        (inRange (d.decodeInt item) 0xFFFF && d.decodeInt item != some 0) := by
      unfold accepts
      rw [hid]
      rfl
    split at h
    rename_i value result hset
    have hcode := setInt_code hset
    split_ifs at h with hresult hrange
    · subst hresult
      cases h
      obtain ⟨n, hn, -, rfl⟩ := setInt_accepted hset
      refine ⟨rfl, .inr ⟨rfl, ?_, eq_update ?_ fun r hr => ?_⟩⟩
      · rw [haccepts, hn, Bool.and_eq_true]
        refine ⟨decide_eq_true ⟨Int.natCast_nonneg value, Int.ofNat_le.mpr hrange.2⟩, ?_⟩
        rw [bne_iff_ne]
        rintro ⟨⟩
        exact absurd hrange.1 (lt_irrefl 0)
      · rw [stored_integer hid (by decide) (by decide) hn]
        unfold getValue
        rw [hid]
        exact integer_congr (UInt16.toNat_ofNat_of_lt' (Nat.lt_succ_of_le hrange.2))
      · have := toNat_ne hid hr
        unfold getValue
        split <;> first | rfl | contradiction
    · subst hresult
      obtain ⟨n, hn, -, rfl⟩ := setInt_accepted hset
      refine turned_refused (by decide) ?_ h
      rw [haccepts, hn, Bool.and_eq_false_iff, bne_eq_false_iff_eq]
      by_cases hzero : value = 0
      · subst hzero
        exact .inr rfl
      · refine .inl (decide_eq_false fun hin => hrange ⟨Nat.pos_of_ne_zero hzero, ?_⟩)
        exact Int.ofNat_le.mp hin.2
    · refine turned_refused hresult ?_ h
      have hout := Bool.eq_false_iff.mpr (mt hcode.mpr hresult)
      rw [haccepts, Bool.and_eq_false_iff]
      refine .inl ?_
      cases hdecode : d.decodeInt item with
      | none => rfl
      | some v =>
        rw [hdecode] at hout
        have hv := of_decide_eq_false hout
        refine decide_eq_false fun hin => hv ⟨hin.1, ?_⟩
        exact hin.2.trans (by decide)
  · have haccepts : accepts d item = (d.decodeBool item).isSome := by
      unfold accepts
      rw [hid]
      rfl
    split at h
    · rename_i storing hstoring
      cases h
      refine ⟨rfl, .inr ⟨rfl, by rw [haccepts, hstoring]; rfl, eq_update ?_ fun r hr => ?_⟩⟩
      · unfold getValue stored
        rw [hid, hstoring]
        rfl
      · have := toNat_ne hid hr
        unfold getValue
        split <;> first | rfl | contradiction
    · rename_i hnone
      exact turned_refused (by decide) (by rw [haccepts, hnone]; rfl) h
  · have haccepts : accepts d item = decide ((item.type = .string ∨ item.type = .opaqueBytes) ∧
        0 < item.value.length ∧ item.value.length ≤ 3 ∧
          bindings.any (strncmpEq item.value) = true) := by
      unfold accepts
      rw [hid]
      rfl
    split_ifs at h with hbinding
    · cases h
      have haccepted := haccepts.trans (decide_eq_true hbinding)
      refine ⟨rfl, .inr ⟨rfl, haccepted, eq_update ?_ fun r hr => ?_⟩⟩
      · unfold getValue stored
        rw [hid]
        rfl
      · have := toNat_ne hid hr
        unfold getValue
        split <;> first | rfl | contradiction
    · exact turned_refused (by decide) (haccepts.trans (decide_eq_false hbinding)) h
  · rename_i h0 h1 h2 h3 h4 h8 h5 h6 h7
    refine turned_refused (by decide) ?_ h
    unfold accepts
    split <;> first | rfl | contradiction

theorem writeResource_not_created (h : writeResource d m x item = .ok (m', x', code)) :
    code ≠ coap201Created := by
  have hint {set : ℕ → ServerInstance} (h : (.ok (m, setIntValue (d.decodeInt item) x set) :
      Except Fault (Heap × ServerInstance × Code)) = .ok (m', x', code)) :
      code ≠ coap201Created :=
    setInt_not_created (Prod.mk.inj (Except.ok.inj h)).2
  unfold writeResource at h
  split at h
  · split at h
    rename_i hset
    have hcode := setInt_not_created hset
    split_ifs at h <;> cases h
    · exact hcode
    · decide
    · exact hcode
  · exact hint h
  · exact hint h
  · exact hint h
  · cases h
    decide
  · cases h
    decide
  · exact hint h
  · split at h <;> (cases h; decide)
  · split_ifs at h <;> (cases h; decide)
  · cases h
    decide

/-- The array of the binding once the items are accepted. -/
def bindingAfter (x : ServerInstance) (items : List Data) : List Byte :=
  (items.filter (·.id = 7)).foldl (fun binding item => strncpy binding item.value) x.binding

/-- What the resources read once the items are accepted: what the last item for them stores, and
for the binding what all of them leave in the array. -/
def readsAfter (d : Decoders) (x : ServerInstance) (items : List Data) : ResourceReads := fun r =>
  if r = 7 then do pure (.ok (.string (← cString (bindingAfter x items))))
  else
    match lastFor items r with
    | none => getValue x r
    | some item => stored d x item

/-- Outside the binding, what an item stores does not depend on the instance. -/
theorem stored_eq (hid : item.id ≠ 7) (x x' : ServerInstance) :
    stored d x item = stored d x' item := by
  have h7 : item.id.toNat ≠ 7 := fun h => hid (UInt16.toNat_inj.mp h)
  unfold stored
  split <;> first | rfl | contradiction

/-- What the resources read after one item more. -/
theorem readsAfter_concat (items : List Data) (hbinding : x'.binding = bindingAfter x items)
    (hreads : getValue x' = readsAfter d x items) :
    Function.update (getValue x') item.id (stored d x' item) =
      readsAfter d x (items ++ [item]) := by
  funext r
  by_cases hr : r = item.id
  · rw [hr, Function.update_self]
    unfold readsAfter
    by_cases h7 : item.id = 7
    · have hafter : bindingAfter x (items ++ [item]) = strncpy x'.binding item.value := by
        unfold bindingAfter at hbinding ⊢
        rw [List.filter_append, List.filter_cons_of_pos (by simpa using h7), List.filter_nil,
          List.foldl_append, ← hbinding]
        rfl
      rw [if_pos h7, hafter]
      unfold stored
      rw [h7]
      rfl
    · rw [if_neg h7, lastFor_append, if_pos rfl]
      exact stored_eq h7 x' x
  · rw [Function.update_of_ne hr, hreads]
    unfold readsAfter
    rw [lastFor_append, if_neg (Ne.symm hr)]
    by_cases h7 : r = 7
    · have hafter : bindingAfter x (items ++ [item]) = bindingAfter x items := by
        unfold bindingAfter
        have hne : ¬ item.id = 7 := fun h => hr (h7.trans h.symm)
        rw [List.filter_append, List.filter_cons_of_neg (by simpa using hne), List.filter_nil,
          List.append_nil]
      rw [if_pos h7, if_pos h7, hafter]
    · rw [if_neg h7, if_neg h7]

/-- The binding after one item. -/
theorem writeResource_binding (h : writeResource d m x item = .ok (m', x', coap204Changed)) :
    x'.binding = if item.id = 7 then strncpy x.binding item.value else x.binding := by
  have hint {set : ℕ → ServerInstance} (h : (.ok (m, setIntValue (d.decodeInt item) x set) :
        Except Fault (Heap × ServerInstance × Code)) = .ok (m', x', coap204Changed))
      (hset : ∀ n, (set n).binding = x.binding) : x'.binding = x.binding := by
    obtain ⟨n, -, -, rfl⟩ := setInt_accepted (Prod.mk.inj (Except.ok.inj h)).2
    exact hset n
  have hother {k : ℕ} (hid : item.id.toNat = k) (hk : k ≠ 7) (hsame : x'.binding = x.binding) :
      x'.binding = if item.id = 7 then strncpy x.binding item.value else x.binding := by
    rw [if_neg fun h7 => hk (hid.symm.trans (congrArg UInt16.toNat h7)), hsame]
  unfold writeResource at h
  split at h <;> rename_i hid
  · refine hother hid (by decide) ?_
    split at h
    split_ifs at h
    · cases h
      rfl
    · cases h
    · cases h
      contradiction
  · exact hother hid (by decide) (hint h fun _ => rfl)
  · exact hother hid (by decide) (hint h fun _ => rfl)
  · exact hother hid (by decide) (hint h fun _ => rfl)
  · cases h
  · cases h
  · exact hother hid (by decide) (hint h fun _ => rfl)
  · refine hother hid (by decide) ?_
    split at h
    · cases h
      rfl
    · cases h
  · rw [if_pos (UInt16.toNat_inj.mp hid)]
    split_ifs at h
    · cases h
      rfl
    · cases h
  · cases h

/-- **Items that are accepted** one after the other. -/
theorem accepted_run (h : ItemsAccepted (serverObject d) m x items m' x') :
    x'.binding = bindingAfter x items ∧ getValue x' = readsAfter d x items := by
  induction items using List.reverseRecOn generalizing m' x' with
  | nil =>
    cases h
    refine ⟨rfl, funext fun r => ?_⟩
    unfold readsAfter
    split_ifs with h7
    · rw [h7]
      rfl
    · rfl
  | append_singleton items item ih =>
    obtain ⟨m₁, x₁, hitems, hitem⟩ := ItemsAccepted.concat_iff.mp h
    obtain ⟨hbinding, hreads⟩ := ih hitems
    obtain ⟨hm, ⟨hcode, -⟩ | ⟨-, -, hvalue⟩⟩ := writeResource_turned hitem
    · exact absurd rfl hcode
    refine ⟨?_, hvalue.trans (readsAfter_concat items hbinding hreads)⟩
    rw [writeResource_binding hitem]
    unfold bindingAfter at hbinding ⊢
    rw [List.filter_append]
    split_ifs with h7
    · rw [List.filter_cons_of_pos (by simpa using h7), List.filter_nil, List.foldl_append,
        ← hbinding]
      rfl
    · rw [List.filter_cons_of_neg (by simpa using h7), List.filter_nil, List.append_nil, hbinding]

end ServerInstance

/-- The resources of the Server Object. -/
def serverResources (d : Decoders) : Resources (serverOwnership d) where
  getValue _ x := ServerInstance.getValue x
  accepts := ServerInstance.accepts d
  stored _ x item := ServerInstance.stored d x item
  readsAfter _ x items := ServerInstance.readsAfter d x items
  getValue_congr _ := rfl
  accepts_iff h := by
    obtain ⟨-, ⟨hcode, haccepts, -⟩ | ⟨hcode, haccepts, -⟩⟩ := ServerInstance.writeResource_turned h
    · exact iff_of_false hcode (by rw [haccepts]; exact Bool.false_ne_true)
    · exact iff_of_true hcode haccepts
  not_created := ServerInstance.writeResource_not_created
  refused h hcode := by
    obtain ⟨hm, ⟨-, -, hx⟩ | ⟨hchanged, -⟩⟩ := ServerInstance.writeResource_turned h
    · exact ⟨hm, hx⟩
    · exact absurd hchanged hcode
  accepted _ h := by
    obtain ⟨-, ⟨hcode, -⟩ | ⟨-, -, hreads⟩⟩ := ServerInstance.writeResource_turned h
    · exact absurd rfl hcode
    · exact hreads
  accepted_run _ h := (ServerInstance.accepted_run h).2

/-! ### The Security Object -/

namespace SecurityInstance

variable {d : Decoders} {m m' : Heap} {x x' : SecurityInstance} {item : Data} {code : Code}

/-- What the resource of an item reads once the item is accepted: a string up to its first NUL,
of a key as many bytes as its length modulo 2^16, and what it read before of the SMS resources,
which are ignored. -/
def stored (d : Decoders) (m : Heap) (x : SecurityInstance) (item : Data) :
    Except Fault (Except Code ResourceValue) :=
  match item.id.toNat with
  | 0 => .ok (.ok (.string (item.value.takeWhile (· ≠ 0))))
  | 1 => .ok (.ok (.boolean ((d.decodeBool item).getD false)))
  | 2 | 10 | 11 | 12 => .ok (.ok (.integer ((d.decodeInt item).getD 0)))
  | 3 | 4 | 5 => .ok (.ok (.bytes (item.value.take (item.value.length % 2 ^ 16))))
  | _ => getValue m x item.id

/-- The items that the Security Object accepts. -/
def accepts (d : Decoders) (item : Data) : Bool :=
  match item.id.toNat with
  | 0 | 3 | 4 | 5 | 6 | 7 | 8 | 9 => true
  | 1 => (d.decodeBool item).isSome
  | 2 => inRange (d.decodeInt item) 3
  | 10 => inRange (d.decodeInt item) 0xFFFF
  | 11 | 12 => inRange (d.decodeInt item) 0xFFFFFFFF
  | _ => false

/-- What the resources read once the items are accepted: what the last item for them stores. -/
def readsAfter (d : Decoders) (m : Heap) (x : SecurityInstance) (items : List Data) : ResourceReads :=
  fun r =>
    match lastFor items r with
    | none => getValue m x r
    | some item => stored d m x item

/-- The buffer that a resource is read from. -/
def bufferOf (x : SecurityInstance) (r : UInt16) : Option ℕ :=
  match r.toNat with
  | 0 => x.uri
  | 3 => x.publicIdentity
  | 4 => x.serverPublicKey
  | 5 => x.secretKey
  | 7 => x.smsParams
  | 8 => x.smsSecret
  | _ => none

variable {p : Option ℕ} {length : UInt16}

theorem encodeString_congr (h : ∀ a ∈ p.toList, m'.cells a = m.cells a) :
    encodeString m' p = encodeString m p := by
  cases p with
  | none => rfl
  | some a =>
    unfold encodeString
    dsimp only
    rw [stringAt_congr (h a List.mem_cons_self)]

theorem encodeOpaque_congr (h : ∀ a ∈ p.toList, m'.cells a = m.cells a) :
    encodeOpaque m' p length = encodeOpaque m p length := by
  cases p with
  | none => rfl
  | some a =>
    unfold encodeOpaque
    dsimp only
    rw [bytesAt_congr (h a List.mem_cons_self)]

/-- A resource reads its own buffer only. -/
theorem getValue_congr (h : ∀ a ∈ (bufferOf x r).toList, m'.cells a = m.cells a) :
    getValue m' x r = getValue m x r := by
  unfold bufferOf at h
  unfold getValue
  split <;> rename_i hr <;> try rfl
  case h_1 => rw [encodeString_congr (by simpa only [hr] using h)]
  all_goals rw [encodeOpaque_congr (by simpa only [hr] using h)]

/-- The resources that are read from a buffer. -/
def bufferIds : List UInt16 := [0, 3, 4, 5, 7, 8]

variable {a : ℕ} {key key' : Option ℕ}

theorem mem_bufferIds (ha : a ∈ (bufferOf x r).toList) : r ∈ bufferIds := by
  have hmem {k : UInt16} (hr : r.toNat = k.toNat) (hk : k ∈ bufferIds) : r ∈ bufferIds := by
    rwa [UInt16.toNat_inj.mp hr]
  unfold bufferOf at ha
  split at ha <;> rename_i hr
  · exact hmem (k := 0) hr (by decide)
  · exact hmem (k := 3) hr (by decide)
  · exact hmem (k := 4) hr (by decide)
  · exact hmem (k := 5) hr (by decide)
  · exact hmem (k := 7) hr (by decide)
  · exact hmem (k := 8) hr (by decide)
  · cases ha

/-- The buffers of an instance are those of its resources. -/
theorem pointers_eq (x : SecurityInstance) :
    x.pointers = bufferIds.flatMap fun r => (bufferOf x r).toList := by
  unfold pointers bufferIds
  rw [List.flatMap_cons, List.flatMap_cons, List.flatMap_cons, List.flatMap_cons,
    List.flatMap_cons, List.flatMap_cons, List.flatMap_nil, List.append_nil]
  rfl

theorem bufferOf_subset (x : SecurityInstance) (r : UInt16) :
    (bufferOf x r).toList ⊆ x.pointers := fun a ha => by
  rw [pointers_eq, List.mem_flatMap]
  exact ⟨r, mem_bufferIds ha, ha⟩

/-- No two resources have a buffer in common. -/
theorem disjoint_bufferOf (hnodup : x.pointers.Nodup) {r' : UInt16} (hne : r ≠ r')
    (ha : a ∈ (bufferOf x r).toList) : a ∉ (bufferOf x r').toList := by
  intro ha'
  rw [pointers_eq, List.nodup_flatMap] at hnodup
  have hsymm : Std.Symm (Function.onFun List.Disjoint fun r => (bufferOf x r).toList) :=
    ⟨fun _ _ h => h.symm⟩
  exact hnodup.2.forall (mem_bufferIds ha) (mem_bufferIds ha') hne ha ha'

/-! #### Buffers that are replaced -/

theorem asBuffer_eq {bytes : List Byte} (h : item.asBuffer = .ok bytes) : bytes = item.value := by
  unfold Data.asBuffer at h
  split_ifs at h
  cases h
  rfl

/-- Freeing a buffer and allocating another one leaves the other cells as they are. -/
theorem replace_cells {m₁ : Heap} (h : lwm2mFree m p = .ok m₁) (cell : Cell) :
    (m₁.alloc cell).1.cells m₁.frontier = some cell ∧
      ∀ a < m.frontier, a ∉ p.toList → (m₁.alloc cell).1.cells a = m.cells a := by
  refine ⟨alloc_cells_self, fun a ha hne => ?_⟩
  cases p with
  | none =>
    cases h
    exact alloc_cells_of_lt ha
  | some b =>
    unfold lwm2mFree at h
    dsimp only at h
    split_ifs at h
    cases h
    have hab : a ≠ b := fun heq => hne (heq ▸ List.mem_singleton_self b)
    have hkept : ((m.release b).alloc cell).1.cells a = (m.release b).cells a :=
      alloc_cells_of_lt ha
    exact hkept.trans (release_cells_of_ne hab)

theorem cString_of_append {s rest : List Byte} (h : ∀ c ∈ s, c ≠ 0) :
    cString (s ++ 0 :: rest) = .ok s := by
  have hpos : ∀ c ∈ s, decide (c ≠ 0) = true := fun c hc => decide_eq_true (h c hc)
  rw [cString, if_pos (List.mem_append_right s List.mem_cons_self),
    List.takeWhile_append_of_pos hpos, List.takeWhile_cons_of_neg (by decide), List.append_nil]

/-- A string that is written to a new buffer, one byte longer, is read up to its first NUL. -/
theorem cString_strncpy (bytes : List Byte) :
    cString (strncpy (List.replicate (bytes.length + 1) 0) bytes) =
      .ok (bytes.takeWhile (· ≠ 0)) := by
  have hdrop : (List.replicate (bytes.length + 1) (0 : Byte)).drop bytes.length = [0] := by
    rw [List.drop_replicate, Nat.add_sub_cancel_left]
    rfl
  have hrest : ∀ n, ∃ rest, List.replicate n (0 : Byte) ++ [0] = 0 :: rest := by
    intro n
    cases n with
    | zero => exact ⟨[], rfl⟩
    | succ n => exact ⟨_, rfl⟩
  unfold strncpy
  obtain ⟨rest, hrest⟩ := hrest (bytes.length - (bytes.takeWhile (· ≠ 0)).length)
  rw [hdrop, List.append_assoc, hrest]
  exact cString_of_append fun c hc => by simpa using List.mem_takeWhile_imp hc

/-- A key that is written reads as its bytes, as many as its length modulo 2^16. -/
theorem setKey_reads (h : setKey m key item = .ok (m', key', length)) :
    encodeOpaque m' key' length =
        .ok (.bytes (item.value.take (item.value.length % 2 ^ 16))) ∧
      ∀ a < m.frontier, a ∉ key.toList → m'.cells a = m.cells a := by
  obtain ⟨m₁, hfree, h⟩ := bind_eq_ok_iff.mp h
  obtain ⟨bytes, hbytes, h⟩ := bind_eq_ok_iff.mp h
  obtain rfl := asBuffer_eq hbytes
  have hm : m' = (m₁.alloc (.buffer (item.value ++ [0]))).1 :=
    (congrArg Prod.fst (Except.ok.inj h)).symm
  have hkey : key' = some m₁.frontier := (congrArg (·.2.1) (Except.ok.inj h)).symm
  have hlen : length = UInt16.ofNat item.value.length :=
    (congrArg (·.2.2) (Except.ok.inj h)).symm
  obtain ⟨hnew, hothers⟩ := replace_cells hfree (.buffer (item.value ++ [0]))
  rw [hm, hkey, hlen]
  refine ⟨?_, hothers⟩
  have hlength : (UInt16.ofNat item.value.length).toNat = item.value.length % 2 ^ 16 :=
    UInt16.toNat_ofNat'
  unfold encodeOpaque
  by_cases hzero : UInt16.ofNat item.value.length = 0
  · rw [if_pos hzero, ← hlength, hzero]
    rfl
  · have hle : item.value.length % 2 ^ 16 ≤ item.value.length := Nat.mod_le _ _
    rw [if_neg hzero]
    dsimp only
    rw [bytesAt_of_cells hnew, ok_bind, hlength, List.length_append,
      if_pos (Nat.le_add_right_of_le hle), List.take_append_of_le_length hle]
    rfl

/-! #### One turn -/

/-- What one turn of the loop may do: nothing, or what it does to the resource of the item. -/
def Turned (d : Decoders) (m : Heap) (x : SecurityInstance) (item : Data) (m' : Heap)
    (x' : SecurityInstance) (code : Code) : Prop :=
  (code ≠ coap204Changed ∧ accepts d item = false ∧ m' = m ∧ x' = x) ∨
    (code = coap204Changed ∧ accepts d item = true ∧
      (x.pointers.Nodup → (∀ a ∈ x.pointers, a < m.frontier) →
        getValue m' x' = Function.update (getValue m x) item.id (stored d m x item)))

theorem turned_refused (hc : c ≠ coap204Changed) (haccepts : accepts d item = false)
    (h : (.ok (m, x, c) : Except Fault (Heap × SecurityInstance × Code)) = .ok (m', x', code)) :
    Turned d m x item m' x' code := by
  cases h
  exact .inl ⟨hc, haccepts, rfl, rfl⟩

/-- A turn that ignores the item. -/
theorem turned_ignored (haccepts : accepts d item = true)
    (hstored : stored d m x item = getValue m x item.id)
    (h : (.ok (m, x, coap204Changed) : Except Fault (Heap × SecurityInstance × Code)) =
      .ok (m', x', code)) : Turned d m x item m' x' code := by
  cases h
  refine .inr ⟨rfl, haccepts, fun _ _ => ?_⟩
  rw [hstored, Function.update_eq_self]

/-- The turns that write an integer. -/
theorem turned_setInt {max : ℕ} (hid : item.id.toNat = k)
    (haccepts : accepts d item = inRange (d.decodeInt item) max) {set : ℕ → SecurityInstance}
    (hstored : stored d m x item = .ok (.ok (.integer ((d.decodeInt item).getD 0))))
    (hself : ∀ n ≤ max, getValue m (set n) item.id = .ok (.ok (.integer n)))
    (hothers : ∀ n r, r.toNat ≠ k → getValue m (set n) r = getValue m x r)
    (h : (.ok (m, setInt (d.decodeInt item) max x set) :
      Except Fault (Heap × SecurityInstance × Code)) = .ok (m', x', code)) :
    Turned d m x item m' x' code := by
  obtain ⟨rfl, hresult⟩ := Prod.mk.inj (Except.ok.inj h)
  have hiff := setInt_code hresult
  rw [← haccepts] at hiff
  by_cases hcode : code = coap204Changed
  · have haccepted := hiff.mp hcode
    subst hcode
    obtain ⟨n, hn, hmax, rfl⟩ := setInt_accepted hresult
    refine .inr ⟨rfl, haccepted, fun _ _ => eq_update ?_ fun r hr => hothers n r (toNat_ne hid hr)⟩
    rw [hself n hmax, hstored, hn]
    rfl
  · have hrefused := Bool.eq_false_iff.mpr (mt hiff.mpr hcode)
    exact .inl ⟨hcode, hrefused, rfl, setInt_refused hresult hcode⟩

/-- The turns that replace a buffer. -/
theorem turned_replace (hid : item.id.toNat = k) (haccepts : accepts d item = true)
    (hself : getValue m' x' item.id = stored d m x item)
    (hothers : ∀ r, r.toNat ≠ k → getValue m' x' r = getValue m' x r)
    (hcells : ∀ a < m.frontier, a ∉ (bufferOf x item.id).toList → m'.cells a = m.cells a) :
    Turned d m x item m' x' coap204Changed := by
  refine .inr ⟨rfl, haccepts, fun hnodup hbelow => eq_update hself fun r hr => ?_⟩
  rw [hothers r (toNat_ne hid hr)]
  refine getValue_congr fun a ha => ?_
  exact hcells a (hbelow a (bufferOf_subset x r ha)) (disjoint_bufferOf hnodup hr ha)

/-- The turns that write a key. -/
theorem turned_setKey (hid : item.id.toNat = k) (hkey : setKey m key item = .ok (m', key', length))
    (haccepts : accepts d item = true)
    (hstored : stored d m x item =
      .ok (.ok (.bytes (item.value.take (item.value.length % 2 ^ 16)))))
    (hself : getValue m' x' item.id = .ok <$> encodeOpaque m' key' length)
    (hothers : ∀ r, r.toNat ≠ k → getValue m' x' r = getValue m' x r)
    (hbuffer : bufferOf x item.id = key) : Turned d m x item m' x' coap204Changed := by
  obtain ⟨hreads, hcells⟩ := setKey_reads hkey
  refine turned_replace hid haccepts ?_ hothers (by rwa [hbuffer])
  rw [hself, hreads, hstored]
  rfl

/-- **One turn of the loop** changes nothing, or what the resource of the item reads. -/
theorem writeResource_turned (h : writeResource d m x item = .ok (m', x', code)) :
    Turned d m x item m' x' code := by
  unfold writeResource at h
  split at h <;> rename_i hid
  case h_4 | h_5 | h_6 =>
    obtain ⟨⟨m₁, key, keyLen⟩, hkey, h⟩ := bind_eq_ok_iff.mp h
    cases h
    refine turned_setKey hid hkey ?_ ?_ ?_ (fun r hr => ?_) ?_
    · unfold accepts
      rw [hid]
      rfl
    · unfold stored
      rw [hid]
      rfl
    · unfold getValue
      rw [hid]
      rfl
    · unfold getValue
      split <;> first | rfl | contradiction
    · unfold bufferOf
      rw [hid]
      rfl
  case h_7 | h_8 | h_9 | h_10 =>
    exact turned_ignored (by unfold accepts; rw [hid]; rfl) (by unfold stored; rw [hid]; rfl) h
  case h_12 | h_13 =>
    refine turned_setInt hid ?_ ?_ (fun n hn => ?_) (fun n r hr => ?_) h
    · unfold accepts
      rw [hid]
      rfl
    · unfold stored
      rw [hid]
      rfl
    · unfold getValue
      rw [hid]
      exact integer_congr (UInt32.toNat_ofNat_of_lt' (Nat.lt_succ_of_le hn))
    · unfold getValue
      split <;> first | rfl | contradiction
  · obtain ⟨m₁, hfree, h⟩ := bind_eq_ok_iff.mp h
    obtain ⟨bytes, hbytes, h⟩ := bind_eq_ok_iff.mp h
    obtain rfl := asBuffer_eq hbytes
    obtain ⟨hnew, hcells⟩ := replace_cells hfree
      (.buffer (strncpy (List.replicate (item.value.length + 1) 0) item.value))
    have hm : m' = (m₁.alloc
        (.buffer (strncpy (List.replicate (item.value.length + 1) 0) item.value))).1 :=
      (congrArg Prod.fst (Except.ok.inj h)).symm
    have hx : x' = { x with uri := some m₁.frontier } := (congrArg (·.2.1) (Except.ok.inj h)).symm
    obtain rfl : code = coap204Changed := (congrArg (·.2.2) (Except.ok.inj h)).symm
    rw [hm, hx]
    refine turned_replace hid ?_ ?_ (fun r hr => ?_) ?_
    · unfold accepts
      rw [hid]
      rfl
    · unfold getValue stored
      rw [hid]
      unfold encodeString
      dsimp only
      rw [stringAt_of_cells hnew, cString_strncpy]
      rfl
    · unfold getValue
      split <;> first | rfl | contradiction
    · unfold bufferOf
      rw [hid]
      exact hcells
  · have haccepts : accepts d item = (d.decodeBool item).isSome := by
      unfold accepts
      rw [hid]
      rfl
    split at h
    · rename_i isBootstrap hbool
      cases h
      refine .inr ⟨rfl, by rw [haccepts, hbool]; rfl, fun _ _ => eq_update ?_ fun r hr => ?_⟩
      · unfold getValue stored
        rw [hid, hbool]
        rfl
      · have := toNat_ne hid hr
        unfold getValue
        split <;> first | rfl | contradiction
    · rename_i hnone
      exact turned_refused (by decide) (by rw [haccepts, hnone]; rfl) h
  · refine turned_setInt hid ?_ ?_ (fun n hn => ?_) (fun n r hr => ?_) h
    · unfold accepts
      rw [hid]
      rfl
    · unfold stored
      rw [hid]
      rfl
    · unfold getValue
      rw [hid]
      exact integer_congr (UInt8.toNat_ofNat_of_lt' (Nat.lt_of_le_of_lt hn (by decide)))
    · unfold getValue
      split <;> first | rfl | contradiction
  · refine turned_setInt hid ?_ ?_ (fun n hn => ?_) (fun n r hr => ?_) h
    · unfold accepts
      rw [hid]
      rfl
    · unfold stored
      rw [hid]
      rfl
    · unfold getValue
      rw [hid]
      exact integer_congr (UInt16.toNat_ofNat_of_lt' (Nat.lt_succ_of_le hn))
    · unfold getValue
      split <;> first | rfl | contradiction
  · refine turned_refused (by decide) ?_ h
    unfold accepts
    split <;> first | rfl | contradiction

theorem writeResource_not_created (h : writeResource d m x item = .ok (m', x', code)) :
    code ≠ coap201Created := by
  have hint {max : ℕ} {set : ℕ → SecurityInstance}
      (h : (.ok (m, setInt (d.decodeInt item) max x set) :
        Except Fault (Heap × SecurityInstance × Code)) = .ok (m', x', code)) :
      code ≠ coap201Created :=
    setInt_not_created (Prod.mk.inj (Except.ok.inj h)).2
  unfold writeResource at h
  split at h
  case h_1 =>
    obtain ⟨m₁, -, h⟩ := bind_eq_ok_iff.mp h
    obtain ⟨bytes, -, h⟩ := bind_eq_ok_iff.mp h
    obtain rfl : coap204Changed = code := congrArg (·.2.2) (Except.ok.inj h)
    decide
  case h_2 => split at h <;> (cases h; decide)
  case h_3 | h_11 | h_12 | h_13 => exact hint h
  case h_4 | h_5 | h_6 =>
    obtain ⟨r, -, h⟩ := bind_eq_ok_iff.mp h
    cases h
    decide
  case h_7 | h_8 | h_9 | h_10 =>
    cases h
    decide
  · cases h
    decide

/-- The resources that are not ignored. -/
def writtenIds : List ℕ := [0, 1, 2, 3, 4, 5, 10, 11, 12]

theorem stored_eq (hid : item.id.toNat ∈ writtenIds) (m m₁ : Heap) (x x₁ : SecurityInstance) :
    stored d m₁ x₁ item = stored d m x item := by
  unfold stored
  unfold writtenIds at hid
  split <;> try rfl
  simp only [List.mem_cons, List.not_mem_nil, or_false] at hid
  obtain h | h | h | h | h | h | h | h | h := hid <;> contradiction

theorem stored_ignored (hid : item.id.toNat ∉ writtenIds) :
    stored d m x item = getValue m x item.id := by
  unfold stored
  split <;> rename_i h <;> first | rfl | exact absurd (by rw [h]; decide) hid

theorem lastFor_id (h : lastFor items r = some item) :
    item.id = r := by
  exact of_decide_eq_true (List.mem_filter.mp (List.mem_of_getLast? h)).2

/-- **Items that are accepted** one after the other. -/
theorem accepted_run (hown : Owns m₀ kept m (x.pointers ++ owned))
    (h : ItemsAccepted (securityObject d) m x items m' x') :
    getValue m' x' = readsAfter d m x items := by
  induction items using List.reverseRecOn generalizing m' x' with
  | nil =>
    cases h
    rfl
  | append_singleton items item ih =>
    obtain ⟨m₁, x₁, hitems, hitem⟩ := ItemsAccepted.concat_iff.mp h
    have hown₁ := hitems.owns (securityOwnership d) hown
    obtain ⟨hcode, -⟩ | ⟨-, -, hturn⟩ := writeResource_turned hitem
    · exact absurd rfl hcode
    have hreads := hturn (List.nodup_append.mp hown₁.nodup).1 fun a ha =>
      Memory.lt_frontier (hown₁.allocated a (List.mem_append_left _ ha))
    rw [hreads, ih hitems]
    funext r
    by_cases hr : r = item.id
    · have hlast : readsAfter d m x (items ++ [item]) r = stored d m x item := by
        unfold readsAfter
        rw [lastFor_append, if_pos hr.symm]
      rw [hr, Function.update_self, ← hr, hlast]
      by_cases hid : item.id.toNat ∈ writtenIds
      · exact stored_eq hid m m₁ x x₁
      -- An item that is ignored stores what was read, which the items before it left as it was.
      rw [stored_ignored hid, stored_ignored hid, ih hitems]
      unfold readsAfter
      split
      · rfl
      · rename_i before hbefore
        have hsame := lastFor_id hbefore
        rw [stored_ignored (hsame ▸ hid), hsame]
    · rw [Function.update_of_ne hr]
      unfold readsAfter
      rw [lastFor_append, if_neg (Ne.symm hr)]

end SecurityInstance

/-- The resources of the Security Object. -/
def securityResources (d : Decoders) : Resources (securityOwnership d) where
  getValue := SecurityInstance.getValue
  accepts := SecurityInstance.accepts d
  stored := SecurityInstance.stored d
  readsAfter := SecurityInstance.readsAfter d
  getValue_congr h := funext fun r => SecurityInstance.getValue_congr fun a ha =>
    h a (SecurityInstance.bufferOf_subset _ r ha)
  accepts_iff h := by
    obtain ⟨hcode, haccepts, -⟩ | ⟨hcode, haccepts, -⟩ := SecurityInstance.writeResource_turned h
    · exact iff_of_false hcode (by rw [haccepts]; exact Bool.false_ne_true)
    · exact iff_of_true hcode haccepts
  not_created := SecurityInstance.writeResource_not_created
  refused h hcode := by
    obtain ⟨-, -, hsame⟩ | ⟨hchanged, -⟩ := SecurityInstance.writeResource_turned h
    · exact hsame
    · exact absurd hchanged hcode
  accepted hown h := by
    obtain ⟨hcode, -⟩ | ⟨-, -, hreads⟩ := SecurityInstance.writeResource_turned h
    · exact absurd rfl hcode
    · exact hreads (List.nodup_append.mp hown.nodup).1
        fun a ha => Memory.lt_frontier (hown.allocated a (List.mem_append_left _ ha))
  accepted_run := SecurityInstance.accepted_run

end Lwm2m.Core

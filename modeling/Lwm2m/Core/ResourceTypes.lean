/-
# The types of the values that are written

`prv_security_write` and `prv_server_write` take the values that a decoder has made of a payload,
each with a type that selects a member of its union.  Integers and booleans go through
`lwm2m_data_decode_int` and `lwm2m_data_decode_bool`, which switch on the type, and the binding of a
server is compared with two types first.  The URI and the keys of the Security Object are read as
buffers whatever their type is.

The loops read `dataArray[0]` before they compare with `numData`.  When the types are respected
nevertheless is in `write_respectsTypes_iff`.
-/

import Lwm2m.Core.WriteAtomicity

namespace Lwm2m.Core

open Code Library Library.Memory

/-- **A write respects the types** of its items: it reads the items that there are, each through the
member of its type, and where an item does not fit its resource, the answer is `4.00` or `4.06`,
with what the items in front of it left. -/
def RespectsTypes {α : Type} (t : ObjectType α) (fits : Data → Bool) (m : Heap)
    (l : List (ListNode α)) (instanceId : UInt16) (dataArray : List Data) : Prop :=
  (∃ r, t.write m l instanceId dataArray = .ok r) ∧
  ∀ targetP, listFind ListNode.id l instanceId = some targetP →
    ∀ earlier item later m' x', dataArray = earlier ++ item :: later →
      ItemsAccepted t m targetP.fields earlier m' x' → fits item = false →
        ∃ code, (code = coap400BadRequest ∨ code = coap406NotAcceptable) ∧
          t.writeItems m targetP.fields dataArray = .ok (m', x', code)

/-- How the turns of a write callback treat the types of items: those of another type than a buffer
that are read as one, and those that do not fit. -/
structure TypeChecks {α : Type} {t : ObjectType α} {o : Ownership t} (r : Resources o)
    (fits unchecked : Data → Bool) : Prop where
  misread : ∀ {m₀ kept m owned x item}, Owns m₀ kept m (o.pointers x ++ owned) →
    unchecked item = true → t.writeResource m x item = .error .wrongUnionMember
  served : ∀ {m₀ kept m owned x item}, Owns m₀ kept m (o.pointers x ++ owned) →
    unchecked item = false → ∃ result, t.writeResource m x item = .ok result
  refused : ∀ {m x item}, unchecked item = false → fits item = false →
    ∃ code, (code = coap400BadRequest ∨ code = coap406NotAcceptable) ∧
      t.writeResource m x item = .ok (m, x, code)

/-- No item that the loop comes to is misread. -/
def ComesToChecked (accepts unchecked : Data → Bool) (dataArray : List Data) : Prop :=
  ∀ earlier item later, dataArray = earlier ++ item :: later → earlier.all accepts = true →
    unchecked item = false

section

variable {α : Type} {t : ObjectType α} {o : Ownership t} {r : Resources o}
  {fits unchecked : Data → Bool} {m₀ m m' : Heap} {kept owned : List ℕ} {x x' : α}
  {l : List (ListNode α)} {item : Data} {items earlier later : List Data} {instanceId : UInt16}

/-- A turn of the loop with others behind it. -/
theorem writeItems_cons (hne : items ≠ []) :
    t.writeItems m x (item :: items) = t.writeResource m x item >>= fun turn =>
      if turn.2.2 = coap204Changed then t.writeItems turn.1 turn.2.1 items else pure turn := by
  cases items with
  | nil => exact absurd rfl hne
  | cons item' items => rfl

/-- A turn that refuses its item ends the loop. -/
theorem writeItems_refused {code : Code} (hcode : code ≠ coap204Changed)
    (h : t.writeResource m x item = .ok (m', x', code)) :
    t.writeItems m x (item :: items) = .ok (m', x', code) := by
  cases items with
  | nil => exact h
  | cons item' items =>
    rw [writeItems_cons (List.cons_ne_nil _ _), h, ok_bind, if_neg hcode]
    rfl

/-- The loop comes to what is behind items that are accepted. -/
theorem ItemsAccepted.writeItems_append (h : ItemsAccepted t m x earlier m' x') :
    t.writeItems m x (earlier ++ item :: later) = t.writeItems m' x' (item :: later) := by
  induction h with
  | nil => rfl
  | cons hitem _ ih =>
    rw [List.cons_append, writeItems_cons (List.append_ne_nil_of_right_ne_nil _
      (List.cons_ne_nil _ _)), hitem, ok_bind, if_pos rfl, ih]

theorem ItemsAccepted.all_accepts (h : ItemsAccepted t m x items m' x') (r : Resources o) :
    items.all r.accepts = true := by
  induction h with
  | nil => rfl
  | cons hitem _ ih =>
    rw [List.all_cons, (r.accepts_iff hitem).mp rfl, ih]
    rfl

/-- Items that are not misread are written or refused. -/
theorem TypeChecks.writeItems_served (c : TypeChecks r fits unchecked)
    (hown : Owns m₀ kept m (o.pointers x ++ owned)) (hne : items ≠ [])
    (hchecked : ComesToChecked r.accepts unchecked items) :
    ∃ result, t.writeItems m x items = .ok result := by
  induction items generalizing m x with
  | nil => exact absurd rfl hne
  | cons item items ih =>
    obtain ⟨⟨m₁, x₁, code⟩, hitem⟩ := c.served hown (hchecked [] item items rfl rfl)
    cases items with
    | nil => exact ⟨_, hitem⟩
    | cons item' items =>
      rw [writeItems_cons (List.cons_ne_nil _ _), hitem, ok_bind]
      split_ifs with hcode
      · refine ih ((o.writeResource item hown).1 _ hitem) (List.cons_ne_nil _ _) ?_
        intro earlier item₁ later hsplit hall
        refine hchecked (item :: earlier) item₁ later (by rw [hsplit, List.cons_append]) ?_
        rw [List.all_cons, (r.accepts_iff hitem).mp hcode, hall]
        rfl
      · exact ⟨_, rfl⟩

/-- An item that is misread ends the loop with a fault, as an earlier one may. -/
theorem TypeChecks.writeItems_misread (c : TypeChecks r fits unchecked)
    (hown : Owns m₀ kept m (o.pointers x ++ owned)) (hall : earlier.all r.accepts = true)
    (hitem : unchecked item = true) :
    t.writeItems m x (earlier ++ item :: later) = .error .wrongUnionMember := by
  induction earlier generalizing m x with
  | nil =>
    cases later with
    | nil => exact c.misread hown hitem
    | cons item' later =>
      rw [List.nil_append, writeItems_cons (List.cons_ne_nil _ _), c.misread hown hitem]
      rfl
  | cons first earlier ih =>
    rw [List.all_cons, Bool.and_eq_true] at hall
    rw [List.cons_append, writeItems_cons (List.append_ne_nil_of_right_ne_nil _
      (List.cons_ne_nil _ _))]
    cases hfirst : unchecked first with
    | true =>
      rw [c.misread hown hfirst]
      rfl
    | false =>
      obtain ⟨⟨m₁, x₁, code⟩, hturn⟩ := c.served hown hfirst
      rw [hturn, ok_bind, if_pos ((r.accepts_iff hturn).mpr hall.1)]
      exact ih ((o.writeResource first hown).1 _ hturn) hall.2

/-- **When a write respects the types of its items**: without the instance, or where there is an
item and none that the loop comes to is misread. -/
theorem TypeChecks.respects_iff (c : TypeChecks r fits unchecked) (hown : OwnsInstances o m l) :
    RespectsTypes t fits m l instanceId items ↔
      listFind ListNode.id l instanceId = none ∨
        items ≠ [] ∧ ComesToChecked r.accepts unchecked items := by
  cases hfind : listFind ListNode.id l instanceId with
  | none =>
    refine iff_of_true ⟨⟨_, by rw [ObjectType.write, hfind]⟩, fun targetP hsome => ?_⟩ (.inl rfl)
    cases hfind.symm.trans hsome
  | some targetP =>
    obtain ⟨before, after, rfl⟩ := List.append_of_mem (mem_of_listFind hfind).1
    have hnode := hown.owns
    have hwrite : (∃ result, t.write m (before ++ targetP :: after) instanceId items = .ok result) ↔
        ∃ turn, t.writeItems m targetP.fields items = .ok turn := by
      rw [ObjectType.write, hfind]
      dsimp only
      constructor
      · rintro ⟨result, h⟩
        obtain ⟨turn, hturn, -⟩ := bind_eq_ok_iff.mp h
        exact ⟨turn, hturn⟩
      · rintro ⟨turn, hturn⟩
        rw [hturn]
        exact ⟨_, rfl⟩
    constructor
    · rintro ⟨hresult, -⟩
      obtain ⟨turn, hturn⟩ := hwrite.mp hresult
      refine .inr ⟨?_, fun earlier item later hsplit hall => ?_⟩
      · rintro rfl
        cases hturn
      · by_contra hmisread
        rw [hsplit, c.writeItems_misread hnode hall (Bool.eq_true_of_not_eq_false hmisread)] at hturn
        cases hturn
    · rintro (hnone | ⟨hne, hchecked⟩)
      · cases hnone
      · refine ⟨hwrite.mpr (c.writeItems_served hnode hne hchecked), fun targetP' hsome => ?_⟩
        cases hfind.symm.trans hsome
        rintro earlier item later m₁ x₁ rfl hearlier hfits
        obtain ⟨code, hcode, hrefused⟩ := c.refused
          (hchecked earlier item later rfl (hearlier.all_accepts r)) hfits
        refine ⟨code, hcode, ?_⟩
        rw [hearlier.writeItems_append]
        refine writeItems_refused ?_ hrefused
        rcases hcode with rfl | rfl
        · decide
        · decide

end

/-! ### The two objects -/

namespace SecurityInstance

/-- The type of an item fits its resource; the SMS resources are ignored, whatever their type. -/
def fits (d : Decoders) (item : Data) : Bool :=
  match item.id.toNat with
  | 0 | 3 | 4 | 5 => item.type = .string ∨ item.type = .opaqueBytes ∨ item.type = .coreLink
  | 1 => (d.decodeBool item).isSome
  | 2 | 10 | 11 | 12 => (d.decodeInt item).isSome
  | _ => true

/-- The URI or a key, of a type that is no buffer. -/
def unchecked (item : Data) : Bool :=
  item.id ∈ [0, 3, 4, 5] ∧
    ¬ (item.type = .string ∨ item.type = .opaqueBytes ∨ item.type = .coreLink)

variable {d : Decoders} {m₀ m : Heap} {kept owned : List ℕ} {x : SecurityInstance} {item : Data}

theorem unchecked_iff : unchecked item = true ↔ item.id ∈ [0, 3, 4, 5] ∧
    ¬ (item.type = .string ∨ item.type = .opaqueBytes ∨ item.type = .coreLink) := by
  exact decide_eq_true_iff

/-- The URI and the keys are read as buffers. -/
theorem asBuffer_of_checked (hid : item.id ∈ [0, 3, 4, 5]) (h : unchecked item = false) :
    item.asBuffer = .ok item.value := by
  rw [Data.asBuffer, if_pos]
  by_contra htype
  rw [unchecked_iff.mpr ⟨hid, htype⟩] at h
  cases h

theorem asBuffer_of_unchecked (h : unchecked item = true) :
    item.asBuffer = .error .wrongUnionMember := by
  rw [Data.asBuffer, if_neg (unchecked_iff.mp h).2]

/-- A buffer of the instance can be freed. -/
theorem free_pointer (hown : Owns m₀ kept m (x.pointers ++ owned)) {p : Option ℕ}
    (hp : p.toList ⊆ x.pointers) : ∃ m', lwm2mFree m p = .ok m' := by
  cases p with
  | none => exact ⟨m, rfl⟩
  | some a =>
    have ha := hown.allocated a (List.mem_append_left _ (hp List.mem_cons_self))
    exact ⟨_, if_pos ha⟩

theorem setKey_misread {key : Option ℕ} (hfree : ∃ m', lwm2mFree m key = .ok m')
    (h : unchecked item = true) : setKey m key item = .error .wrongUnionMember := by
  obtain ⟨m', hfree⟩ := hfree
  rw [setKey, hfree, ok_bind, asBuffer_of_unchecked h]
  rfl

theorem setKey_served {key : Option ℕ} (hfree : ∃ m', lwm2mFree m key = .ok m')
    (hid : item.id ∈ [0, 3, 4, 5]) (h : unchecked item = false) :
    ∃ result, setKey m key item = .ok result := by
  obtain ⟨m', hfree⟩ := hfree
  rw [setKey, hfree, ok_bind, asBuffer_of_checked hid h]
  exact ⟨_, rfl⟩

theorem mem_of_toNat {k : UInt16} (hid : item.id.toNat = k.toNat) (hk : k ∈ [0, 3, 4, 5]) :
    item.id ∈ [0, 3, 4, 5] := by
  rwa [UInt16.toNat_inj.mp hid]

section

variable (hown : Owns m₀ kept m (x.pointers ++ owned))
include hown

theorem free_uri : ∃ m', lwm2mFree m x.uri = .ok m' :=
  free_pointer hown fun a ha => by simp [pointers, List.mem_append.mpr, ha]

theorem free_publicIdentity : ∃ m', lwm2mFree m x.publicIdentity = .ok m' :=
  free_pointer hown fun a ha => by simp [pointers, ha]

theorem free_serverPublicKey : ∃ m', lwm2mFree m x.serverPublicKey = .ok m' :=
  free_pointer hown fun a ha => by simp [pointers, ha]

theorem free_secretKey : ∃ m', lwm2mFree m x.secretKey = .ok m' :=
  free_pointer hown fun a ha => by simp [pointers, ha]

/-- **The URI and the keys** of another type than a buffer are misread. -/
theorem writeResource_misread (h : unchecked item = true) :
    writeResource d m x item = .error .wrongUnionMember := by
  obtain ⟨hid, -⟩ := unchecked_iff.mp h
  simp only [List.mem_cons, List.not_mem_nil, or_false] at hid
  unfold writeResource
  rcases hid with hid | hid | hid | hid <;> rw [hid]
  · obtain ⟨m', hfree⟩ := free_uri hown
    show (lwm2mFree m x.uri >>= _) = _
    rw [hfree, ok_bind, asBuffer_of_unchecked h]
    rfl
  · show (setKey m x.publicIdentity item >>= _) = _
    rw [setKey_misread (free_publicIdentity hown) h]
    rfl
  · show (setKey m x.serverPublicKey item >>= _) = _
    rw [setKey_misread (free_serverPublicKey hown) h]
    rfl
  · show (setKey m x.secretKey item >>= _) = _
    rw [setKey_misread (free_secretKey hown) h]
    rfl

theorem writeResource_served (h : unchecked item = false) :
    ∃ result, writeResource d m x item = .ok result := by
  have hkey {β : Type} {key : Option ℕ} (hfree : ∃ m', lwm2mFree m key = .ok m')
      (hid : item.id ∈ [0, 3, 4, 5]) (f : Heap × Option ℕ × UInt16 → β) :
      ∃ result, (setKey m key item >>= fun r => pure (f r)) = .ok result := by
    obtain ⟨result, hset⟩ := setKey_served hfree hid h
    rw [hset]
    exact ⟨_, rfl⟩
  unfold writeResource
  split <;> rename_i hid
  · obtain ⟨m', hfree⟩ := free_uri hown
    rw [hfree, ok_bind, asBuffer_of_checked (mem_of_toNat (k := 0) hid (by decide)) h]
    exact ⟨_, rfl⟩
  · split <;> exact ⟨_, rfl⟩
  · exact ⟨_, rfl⟩
  · exact hkey (free_publicIdentity hown) (mem_of_toNat (k := 3) hid (by decide)) _
  · exact hkey (free_serverPublicKey hown) (mem_of_toNat (k := 4) hid (by decide)) _
  · exact hkey (free_secretKey hown) (mem_of_toNat (k := 5) hid (by decide)) _
  all_goals exact ⟨_, rfl⟩

end

theorem typeChecks (d : Decoders) : TypeChecks (securityResources d) (fits d) unchecked where
  misread hown hmisread := writeResource_misread hown hmisread
  served hown hchecked := writeResource_served hown hchecked
  refused {m x item} hchecked hfits := by
    have hbuffer {k : UInt16} (hid : item.id.toNat = k.toNat) (hk : k ∈ [0, 3, 4, 5])
        (htype : decide (item.type = .string ∨ item.type = .opaqueBytes ∨
          item.type = .coreLink) = false) : False := by
      rw [unchecked_iff.mpr ⟨mem_of_toNat hid hk, of_decide_eq_false htype⟩] at hchecked
      cases hchecked
    have hwrong (h : writeResource d m x item = .ok (m, x, coap400BadRequest)) :
        ∃ code, (code = coap400BadRequest ∨ code = coap406NotAcceptable) ∧
          (securityObject d).writeResource m x item = .ok (m, x, code) := ⟨_, .inl rfl, h⟩
    unfold fits at hfits
    split at hfits <;> rename_i hid
    · exact (hbuffer (k := 0) hid (by decide) hfits).elim
    · exact (hbuffer (k := 3) hid (by decide) hfits).elim
    · exact (hbuffer (k := 4) hid (by decide) hfits).elim
    · exact (hbuffer (k := 5) hid (by decide) hfits).elim
    iterate 5
      · refine hwrong ?_
        unfold writeResource
        rw [hid, Option.isNone_iff_eq_none.mp (Option.isSome_eq_false_iff.mp hfits)]
        rfl
    · cases hfits

end SecurityInstance

namespace ServerInstance

/-- The type of an item fits its resource. -/
def fits (d : Decoders) (item : Data) : Bool :=
  match item.id.toNat with
  | 0 | 1 | 2 | 3 | 5 => (d.decodeInt item).isSome
  | 6 => (d.decodeBool item).isSome
  | 7 => item.type = .string ∨ item.type = .opaqueBytes
  | _ => true

/-- No item is misread. -/
theorem typeChecks (d : Decoders) : TypeChecks (serverResources d) (fits d) fun _ => false where
  misread _ hmisread := absurd hmisread Bool.false_ne_true
  served _ _ := by
    obtain ⟨result, hresult⟩ := writeResource_heap d _ _ _
    exact ⟨_, hresult⟩
  refused {m x item} _ hfits := by
    have hwrong (h : writeResource d m x item = .ok (m, x, coap400BadRequest)) :
        ∃ code, (code = coap400BadRequest ∨ code = coap406NotAcceptable) ∧
          (serverObject d).writeResource m x item = .ok (m, x, code) := ⟨_, .inl rfl, h⟩
    refine hwrong ?_
    unfold fits at hfits
    unfold writeResource
    split at hfits <;> rename_i hid
    iterate 6
      · rw [hid, Option.isNone_iff_eq_none.mp (Option.isSome_eq_false_iff.mp hfits)]
        rfl
    · rw [hid]
      refine if_neg fun h => ?_
      rw [decide_eq_true h.1] at hfits
      cases hfits
    · cases hfits

end ServerInstance

/-- **When the writes of the Security and the Server Object respect the types**: without the
instance, or where there is an item and, for the Security Object, the loop comes to no URI or key
that is not a buffer. -/
theorem write_respectsTypes_iff (d : Decoders) {m : Heap} {instanceId : UInt16}
    {dataArray : List Data} :
    (∀ l : List (ListNode SecurityInstance), OwnsInstances (securityOwnership d) m l →
      (RespectsTypes (securityObject d) (SecurityInstance.fits d) m l instanceId dataArray ↔
        listFind ListNode.id l instanceId = none ∨ dataArray ≠ [] ∧
          ComesToChecked (SecurityInstance.accepts d) SecurityInstance.unchecked dataArray)) ∧
    (∀ l : List (ListNode ServerInstance), OwnsInstances (serverOwnership d) m l →
      (RespectsTypes (serverObject d) (ServerInstance.fits d) m l instanceId dataArray ↔
        listFind ListNode.id l instanceId = none ∨ dataArray ≠ [])) := by
  refine ⟨fun l hown => (SecurityInstance.typeChecks d).respects_iff hown, fun l hown => ?_⟩
  rw [(ServerInstance.typeChecks d).respects_iff hown]
  have hchecked : ComesToChecked (serverResources d).accepts (fun _ => false) dataArray :=
    fun _ _ _ _ _ => rfl
  rw [and_iff_left hchecked]

/-- An instance of the Security Object, with nothing written. -/
def zeroSecurity : List (ListNode SecurityInstance) := [⟨0, none, 0, .zero⟩]

theorem zeroSecurity_owns : OwnsInstances (securityOwnership byteDecoders)
    (Memory.empty.alloc .node).1 zeroSecurity :=
  ⟨List.nodup_singleton 0, fun a ha => by cases List.mem_singleton.mp ha; rfl, rfl, trivial⟩

/-- **An integer for the URI** is followed as a buffer. -/
theorem integerUri_fails : ¬ ∀ (d : Decoders) (m : Heap) (l : List (ListNode SecurityInstance))
    (instanceId : UInt16) (dataArray : List Data), OwnsInstances (securityOwnership d) m l →
      RespectsTypes (securityObject d) (SecurityInstance.fits d) m l instanceId dataArray := by
  intro h
  obtain ⟨⟨result, hresult⟩, -⟩ := h byteDecoders _ _ 0 [.mk 0 .integer [1] []] zeroSecurity_owns
  cases hresult

/-- A key as an opaque value, and then a URI as a string. -/
theorem opaqueKey_respectsTypes :
    RespectsTypes (securityObject byteDecoders) (SecurityInstance.fits byteDecoders)
      (Memory.empty.alloc .node).1 zeroSecurity 0
      [.mk 3 .opaqueBytes [1] [], .mk 0 .string [0x61] []] := by
  refine ((write_respectsTypes_iff byteDecoders).1 _ zeroSecurity_owns).mpr (.inr ⟨?_, ?_⟩)
  · exact List.cons_ne_nil _ _
  · rintro earlier item later hsplit -
    have hmem : item ∈ [Data.mk 3 .opaqueBytes [1] [], .mk 0 .string [0x61] []] :=
      hsplit ▸ List.mem_append_right _ List.mem_cons_self
    rcases List.mem_pair.mp hmem with rfl | rfl
    · rfl
    · rfl

end Lwm2m.Core

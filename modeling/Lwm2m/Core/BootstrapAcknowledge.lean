/-
# What a bootstrap write acknowledges

The PUT of `bootstrap_handleCommand` (`core/bootstrap.c`) keeps one result variable.  The loop over
the items of an object-level write stops at an instance that its callback refuses, but an item
that is no instance only leaves 4.00 in the variable, for the next instance to overwrite; and
when the payload cannot be decoded the loop does nothing, and the variable still holds 0.00.

What the decoder returns is an input, as are the callbacks: the array, or `none` for a negative
size.  The object of the URI may be missing.
-/

import Lwm2m.Core.BootstrapWrite

namespace Lwm2m.Core

open Coap Code

/-! ### A write to an object, or to none -/

/-- The loop of an object-level write when the object does not exist. -/
def putMissing : List Data → List BootstrapItem
  | [] => []
  | dataP :: next =>
    if dataP.type = .objectInstance then
      [{ id := dataP.id, isObjectInstance := true, isNew := true, code := coap404NotFound }]
    else
      { id := dataP.id, isObjectInstance := false, isNew := false, code := noError } ::
        putMissing next

/-- What the object layer answers to the PUT of `bootstrap_handleCommand`. -/
def bootstrapPutOutcome (targetP : Option Lwm2mObject) (uriP : Uri) (message : Packet)
    (parsed : Option (List Data)) : BootstrapOutcome :=
  match targetP with
  | some targetP => (bootstrapPut targetP uriP message parsed).2
  | none =>
    if uriP.isSetInstance then
      { isNew := true
        code := if message.payload.length = 0 then coap400BadRequest else coap404NotFound }
    else if message.payload.length = 0 then {}
    else
      match parsed with
      | none => { items := some [] }
      | some [] => { items := none }
      | some (dataP :: next) => { items := some (putMissing (dataP :: next)) }

/-! ### What is promised -/

/-- A code 4.xx or 5.xx. -/
def IsError (code : Code) : Prop := 0x80 ≤ code ∧ code < 0xC0

instance (code : Code) : Decidable (IsError code) := inferInstanceAs (Decidable (_ ∧ _))

/-- The callbacks answer with a success or with an error. -/
structure Lwm2mObject.Answers (targetP : Lwm2mObject) : Prop where
  create : ∀ {createFunc}, targetP.createFunc = some createFunc → ∀ id dataArray l,
    (createFunc id dataArray l).2 = coap201Created ∨ (createFunc id dataArray l).2 = coap204Changed ∨
      IsError (createFunc id dataArray l).2
  write : ∀ {writeFunc}, targetP.writeFunc = some writeFunc → ∀ id dataArray writeType l,
    (writeFunc id dataArray writeType l).2 = coap204Changed ∨
      IsError (writeFunc id dataArray writeType l).2

/-- The call that the loop makes for an instance. -/
def itemCall (targetP : Lwm2mObject) (dataP : Data) : Lwm2mObject × Code :=
  if objectIsInstanceNew targetP dataP.id then objectCreateInstance targetP dataP
  else objectWriteInstance targetP dataP

/-- The callback takes the instance. -/
def ItemPut (targetP : Lwm2mObject) (dataP : Data) : Prop :=
  (itemCall targetP dataP).2 = coap204Changed ∨
    (objectIsInstanceNew targetP dataP.id ∧ (itemCall targetP dataP).2 = coap201Created)

instance (targetP : Lwm2mObject) (dataP : Data) : Decidable (ItemPut targetP dataP) :=
  inferInstanceAs (Decidable (_ ∨ _))

/-- Each instance of the payload is taken at its turn. -/
def InstancesPut : Option Lwm2mObject → List Data → Prop
  | _, [] => True
  | none, dataP :: next => dataP.type ≠ .objectInstance ∧ InstancesPut none next
  | some targetP, dataP :: next =>
    if dataP.type = .objectInstance then
      ItemPut targetP dataP ∧ InstancesPut (some (itemCall targetP dataP).1) next
    else InstancesPut (some targetP) next

/-- The items of an instance-level payload are handed to a callback that takes them: one new
instance, the resources of the new instance of the URI, or those of the existing one. -/
inductive InstanceApplied (targetP : Lwm2mObject) (uriP : Uri) (buffer : List Byte) :
    List Data → Prop
  | created (dataP : Data) : buffer.length ≠ 0 → dataP.type = .objectInstance →
      objectIsInstanceNew targetP uriP.instanceId → objectIsInstanceNew targetP dataP.id →
      ((callCreate targetP dataP.id dataP.children).2 = coap201Created ∨
        (callCreate targetP dataP.id dataP.children).2 = coap204Changed) →
      InstanceApplied targetP uriP buffer [dataP]
  | filled (items : List Data) : buffer.length ≠ 0 →
      objectIsInstanceNew targetP uriP.instanceId →
      ((callCreate targetP uriP.instanceId items).2 = coap201Created ∨
        (callCreate targetP uriP.instanceId items).2 = coap204Changed) →
      InstanceApplied targetP uriP buffer items
  | written (items : List Data) (writeType : WriteType) :
      ¬ objectIsInstanceNew targetP uriP.instanceId →
      (callWrite targetP uriP.instanceId
        (if uriP.isSetResourceInstance then [.mk uriP.resourceId .multipleResource [] items]
          else items) writeType).2 = coap204Changed →
      InstanceApplied targetP uriP buffer items

/-- The payload was decoded, and every decoded item was written or created. -/
def Applied (targetP : Option Lwm2mObject) (uriP : Uri) (message : Packet)
    (parsed : Option (List Data)) : Prop :=
  ∃ items, parsed = some items ∧ items ≠ [] ∧
    if uriP.isSetInstance then
      ∃ target, targetP = some target ∧ InstanceApplied target uriP message.payload items
    else
      message.payload.length ≠ 0 ∧ (∀ dataP ∈ items, dataP.type = .objectInstance) ∧
        InstancesPut targetP items

/-- A payload that is not applied is answered with an error, and 2.04 stands for one that is. -/
structure AcknowledgesApplied (applied : Prop) (code : Code) : Prop where
  error : ¬ applied → IsError code
  changed : code = coap204Changed → applied

/-- The payloads whose answer tells: an instance-level one; and at the object level an empty one,
or one that is not decoded to a negative size and that holds instances only, or does not end in an
instance, or holds one that is refused. -/
def Tells (targetP : Option Lwm2mObject) (uriP : Uri) (message : Packet)
    (parsed : Option (List Data)) : Prop :=
  uriP.isSetInstance ∨ message.payload.length = 0 ∨ ∃ items, parsed = some items ∧
    ((∀ dataP ∈ items, dataP.type = .objectInstance) ∨
      (∀ dataP ∈ items.getLast?, dataP.type ≠ .objectInstance) ∨ ¬ InstancesPut targetP items)

variable {applied : Prop} {code : Code} {targetP target : Lwm2mObject} {dataP : Data}

theorem acknowledgesApplied_of_error (h : IsError code) :
    AcknowledgesApplied applied code :=
  ⟨fun _ => h, fun hchanged => absurd (hchanged ▸ h) (by decide)⟩

theorem acknowledgesApplied_of_applied (h : applied) :
    AcknowledgesApplied applied code :=
  ⟨fun hnot => absurd h hnot, fun _ => h⟩

/-! ### The answers -/

section Answers

variable {targetP : Lwm2mObject} {dataP : Data}

theorem callCreate_answers (hanswers : targetP.Answers) (id : UInt16) (dataArray : List Data) :
    (callCreate targetP id dataArray).2 = coap201Created ∨
      (callCreate targetP id dataArray).2 = coap204Changed ∨
        IsError (callCreate targetP id dataArray).2 := by
  unfold callCreate
  split
  · exact .inr (.inr (by decide : IsError coap405MethodNotAllowed))
  · rename_i createFunc hfunc
    exact hanswers.create hfunc id dataArray targetP.instanceList

theorem callWrite_answers (hanswers : targetP.Answers) (id : UInt16) (dataArray : List Data)
    (writeType : WriteType) :
    (callWrite targetP id dataArray writeType).2 = coap204Changed ∨
      IsError (callWrite targetP id dataArray writeType).2 := by
  unfold callWrite
  split
  · exact .inr (by decide : IsError coap405MethodNotAllowed)
  · rename_i writeFunc hfunc
    exact hanswers.write hfunc id dataArray writeType targetP.instanceList

/-- The callbacks of an object are those it had before a call. -/
theorem Lwm2mObject.Answers.itemCall (hanswers : targetP.Answers) (dataP : Data) :
    (itemCall targetP dataP).1.Answers := by
  have hsame (l : InstanceList) : ({ targetP with instanceList := l } : Lwm2mObject).Answers :=
    ⟨fun hfunc => hanswers.create hfunc, fun hfunc => hanswers.write hfunc⟩
  unfold Core.itemCall objectCreateInstance objectWriteInstance callCreate callWrite
  split_ifs
  · split
    · exact hanswers
    · exact hsame _
  · split
    · exact hanswers
    · exact hsame _

/-- The item that the loop records for an instance. -/
def instanceItem (targetP : Lwm2mObject) (dataP : Data) : BootstrapItem :=
  { id := dataP.id
    isObjectInstance := true
    isNew := objectIsInstanceNew targetP dataP.id
    code := (itemCall targetP dataP).2 }

/-- The result for an instance is 2.04 when the callback took it. -/
theorem instanceItem_result_iff (targetP : Lwm2mObject) (dataP : Data) :
    (instanceItem targetP dataP).result = coap204Changed ↔ ItemPut targetP dataP := by
  unfold instanceItem BootstrapItem.result ItemPut
  split_ifs with h
  · exact iff_of_true rfl (.inr h)
  · constructor
    · exact .inl
    · exact fun hput => hput.resolve_right h

/-- The result for an instance that the callback does not take is an error. -/
theorem instanceItem_result_error (hanswers : targetP.Answers) (h : ¬ ItemPut targetP dataP) :
    IsError (instanceItem targetP dataP).result := by
  have hcall : (itemCall targetP dataP).2 = coap201Created ∧
      objectIsInstanceNew targetP dataP.id = true ∨
      (itemCall targetP dataP).2 = coap204Changed ∨ IsError (itemCall targetP dataP).2 := by
    unfold itemCall
    split_ifs with hnew
    · rcases callCreate_answers hanswers (lwm2mListNewId targetP.instanceList.ids) dataP.children
        with h | h | h
      · exact .inl ⟨h, hnew⟩
      · exact .inr (.inl h)
      · exact .inr (.inr h)
    · exact .inr (callWrite_answers hanswers dataP.id dataP.children .replaceInstance)
  have hne := mt (instanceItem_result_iff targetP dataP).mp h
  unfold instanceItem BootstrapItem.result at hne ⊢
  rcases hcall with ⟨hcreated, hnew⟩ | hchanged | herror
  · exact absurd (.inr ⟨hnew, hcreated⟩) h
  · exact absurd (.inl hchanged) h
  · split_ifs at hne ⊢
    · exact absurd rfl hne
    · exact herror

end Answers

/-! ### The loop -/

/-- The items that the loop of an object-level write goes through. -/
def putEntries : Option Lwm2mObject → List Data → List BootstrapItem
  | some targetP, items => (putItems targetP items).2
  | none, items => putMissing items

/-- What one item that does not stop the loop leaves in the result. -/
def itemMark (dataP : Data) : Code :=
  if dataP.type = .objectInstance then coap204Changed else coap400BadRequest

/-- The loop goes on behind an instance only when the callback took it. -/
theorem putItems_instance (next : List Data) (htype : dataP.type = .objectInstance) :
    (putItems targetP (dataP :: next)).2 = instanceItem targetP dataP ::
      if ItemPut targetP dataP then (putItems (itemCall targetP dataP).1 next).2 else [] := by
  have hcall : (itemCall targetP dataP) = if objectIsInstanceNew targetP dataP.id then
      objectCreateInstance targetP dataP else objectWriteInstance targetP dataP := rfl
  have hitem : (⟨dataP.id, true, objectIsInstanceNew targetP dataP.id,
      (itemCall targetP dataP).2⟩ : BootstrapItem) = instanceItem targetP dataP := rfl
  conv_lhs => unfold putItems
  rw [if_pos htype]
  dsimp only
  rw [← hcall, hitem]
  by_cases hput : ItemPut targetP dataP
  · rw [if_neg (not_not.mpr ((instanceItem_result_iff _ _).mpr hput)), if_pos hput]
  · rw [if_pos (mt (instanceItem_result_iff _ _).mp hput), if_neg hput]

theorem putItems_other (next : List Data) (htype : dataP.type ≠ .objectInstance) :
    (putItems targetP (dataP :: next)).2 =
      { id := dataP.id, isObjectInstance := false, isNew := false, code := noError } ::
        (putItems targetP next).2 := by
  conv_lhs => unfold putItems
  rw [if_neg htype]

/-- One step of the loop. -/
theorem writeItems_instance (contextP : Context) (objectId : UInt16) (result : Code)
    (item : BootstrapItem) (hitem : item.isObjectInstance = true) (next : List BootstrapItem) :
    ∃ contextQ, (writeItems contextP objectId result (item :: next)).2 =
      if item.result ≠ coap204Changed then item.result
      else (writeItems contextQ objectId item.result next).2 := by
  refine ⟨if ¬ item.isNew ∧ objectId = lwm2mSecurityObjectId ∧ item.result = coap204Changed then
    prvTagServer contextP item.id else contextP, ?_⟩
  conv_lhs => unfold writeItems
  rw [if_pos hitem]
  dsimp only
  unfold BootstrapItem.result
  split_ifs <;> rfl

theorem writeItems_other (contextP : Context) (objectId : UInt16) (result : Code)
    {item : BootstrapItem} (hitem : item.isObjectInstance = false) (next : List BootstrapItem) :
    writeItems contextP objectId result (item :: next) =
      writeItems contextP objectId coap400BadRequest next := by
  conv_lhs => unfold writeItems
  rw [hitem, if_neg Bool.false_ne_true]

/-- **The result of the loop** is that of its last item when no instance is refused, and an
error otherwise. -/
theorem writeItems_putEntries {targetP : Option Lwm2mObject} (hanswers : ∀ t ∈ targetP, t.Answers)
    (contextP : Context) (objectId : UInt16) (result : Code) (items : List Data) :
    (InstancesPut targetP items →
      (writeItems contextP objectId result (putEntries targetP items)).2 =
        items.foldl (fun _ dataP => itemMark dataP) result) ∧
    (¬ InstancesPut targetP items →
      IsError (writeItems contextP objectId result (putEntries targetP items)).2) := by
  induction items generalizing targetP contextP result with
  | nil =>
    have hempty : putEntries targetP [] = [] := by cases targetP <;> rfl
    rw [hempty]
    refine ⟨fun _ => rfl, fun h => absurd ?_ h⟩
    cases targetP <;> exact trivial
  | cons dataP next ih =>
    rw [List.foldl_cons]
    by_cases htype : dataP.type = .objectInstance
    · have hmark : itemMark dataP = coap204Changed := if_pos htype
      rw [hmark]
      cases targetP with
      | none =>
        have hstop : putEntries none (dataP :: next) =
            [⟨dataP.id, true, true, coap404NotFound⟩] := if_pos htype
        have hput : ¬ InstancesPut none (dataP :: next) := fun h => h.1 htype
        refine ⟨fun h => absurd h hput, fun _ => ?_⟩
        rw [hstop]
        exact (by decide : IsError coap404NotFound)
      | some targetP =>
        have hcons : InstancesPut (some targetP) (dataP :: next) ↔
            ItemPut targetP dataP ∧ InstancesPut (some (itemCall targetP dataP).1) next := by
          rw [InstancesPut, if_pos htype]
        have hself := hanswers targetP rfl
        have hentries : putEntries (some targetP) (dataP :: next) = _ :=
          putItems_instance next htype
        rw [hcons, hentries]
        obtain ⟨contextQ, hstep⟩ := writeItems_instance contextP objectId result
          (instanceItem targetP dataP) rfl
          (if ItemPut targetP dataP then (putItems (itemCall targetP dataP).1 next).2 else [])
        rw [hstep]
        by_cases hput : ItemPut targetP dataP
        · have hresult := (instanceItem_result_iff _ _).mpr hput
          rw [if_neg (not_not.mpr hresult), if_pos hput, hresult, and_iff_right hput]
          exact ih (fun t ht => Option.mem_some.mp ht ▸ hself.itemCall dataP) contextQ coap204Changed
        · rw [if_pos (mt (instanceItem_result_iff _ _).mp hput)]
          exact ⟨fun h => absurd h.1 hput, fun _ => instanceItem_result_error hself hput⟩
    · have hmark : itemMark dataP = coap400BadRequest := if_neg htype
      have hcons : InstancesPut targetP (dataP :: next) ↔ InstancesPut targetP next := by
        cases targetP with
        | none => exact and_iff_right htype
        | some targetP => rw [InstancesPut, if_neg htype]
      have hentries : putEntries targetP (dataP :: next) =
          { id := dataP.id, isObjectInstance := false, isNew := false, code := noError } ::
            putEntries targetP next := by
        cases targetP with
        | none => exact if_neg htype
        | some targetP => exact putItems_other next htype
      rw [hmark, hcons, hentries, writeItems_other contextP objectId result rfl]
      exact ih hanswers contextP coap400BadRequest

/-- The result of items that do not stop the loop. -/
theorem foldl_itemMark (items : List Data) (result : Code) :
    items.foldl (fun _ dataP => itemMark dataP) result = (items.getLast?.map itemMark).getD result := by
  induction items using List.reverseRecOn with
  | nil => rfl
  | append_singleton items dataP ih =>
    rw [List.foldl_append, List.getLast?_append]
    rfl

/-! ### The command -/

/-- The result of a PUT that is not ignored is that of the write. -/
theorem bootstrapHandleCommand_put (contextP : Context) (uriP : Uri) {serverP : Server}
    {message : Packet} (response : Packet) (outcome : BootstrapOutcome) (hput : message.code = 3)
    (hserved : prvCheckServerStatus serverP.status ≠ none) :
    ∃ contextQ, (bootstrapHandleCommand contextP uriP serverP message response outcome).2.2 =
      (bootstrapWrite contextQ uriP message outcome).2 := by
  unfold bootstrapHandleCommand
  split
  · rename_i h
    exact absurd h hserved
  · rename_i status _
    refine ⟨setBootstrapServer contextP serverP.ref ({ · with status }), ?_⟩
    dsimp only
    rw [if_pos hput]
    split_ifs <;> rfl

variable {targetP : Option Lwm2mObject} {uriP : Uri} {message : Packet}
  {parsed : Option (List Data)}

/-- What an `object_create` for the instance of the URI answers. -/
theorem objectCreate_answers (hanswers : target.Answers) (message : Packet)
    (parsed : Option (List Data)) (hset : uriP.isSetInstance)
    (hnew : objectIsInstanceNew target uriP.instanceId = true) :
    IsError (objectCreate target uriP message.payload parsed).2 ∨
      (((objectCreate target uriP message.payload parsed).2 = coap201Created ∨
          (objectCreate target uriP message.payload parsed).2 = coap204Changed) ∧
        ∃ items, parsed = some items ∧ items ≠ [] ∧
          InstanceApplied target uriP message.payload items) := by
  unfold objectCreate
  by_cases hempty : message.payload.length = 0
  · rw [if_pos hempty]
    exact .inl (by decide : IsError coap400BadRequest)
  by_cases hfunc : target.createFunc.isNone = true
  · rw [if_neg hempty, if_pos hfunc]
    exact .inl (by decide : IsError coap405MethodNotAllowed)
  rw [if_neg hempty, if_neg hfunc]
  rcases parsed with _ | _ | ⟨dataP, next⟩
  · exact .inl (by decide : IsError coap400BadRequest)
  · exact .inl (by decide : IsError coap400BadRequest)
  dsimp only [Option.getD_some]
  split
  · exact .inl (by decide : IsError coap400BadRequest)
  · rename_i htype
    by_cases hnext : next ≠ []
    · rw [if_pos hnext]
      exact .inl (by decide : IsError coap400BadRequest)
    by_cases hfree : objectIsInstanceNew target dataP.id = true
    · rw [if_neg hnext, if_neg (not_not.mpr hfree)]
      obtain rfl : next = [] := not_not.mp hnext
      rcases callCreate_answers hanswers dataP.id dataP.children with h | h | h
      · exact .inr ⟨.inl h, _, rfl, nofun, .created dataP hempty htype hnew hfree (.inl h)⟩
      · exact .inr ⟨.inr h, _, rfl, nofun, .created dataP hempty htype hnew hfree (.inr h)⟩
      · exact .inl h
    · rw [if_neg hnext, if_pos hfree]
      exact .inl (by decide : IsError coap406NotAcceptable)
  · rw [if_pos hset]
    rcases callCreate_answers hanswers uriP.instanceId (dataP :: next) with h | h | h
    · exact .inr ⟨.inl h, _, rfl, nofun, .filled _ hempty hnew (.inl h)⟩
    · exact .inr ⟨.inr h, _, rfl, nofun, .filled _ hempty hnew (.inr h)⟩
    · exact .inl h

/-- What an `object_write` of an existing instance answers. -/
theorem objectWrite_answers (hanswers : target.Answers) (message : Packet)
    (parsed : Option (List Data)) (hold : ¬ objectIsInstanceNew target uriP.instanceId = true) :
    IsError (objectWrite target uriP parsed).2 ∨
      ((objectWrite target uriP parsed).2 = coap204Changed ∧
        ∃ items, parsed = some items ∧ items ≠ [] ∧
          InstanceApplied target uriP message.payload items) := by
  unfold objectWrite
  by_cases hobject : ¬ uriP.isSetObject
  · rw [if_pos hobject]
    exact .inl (by decide : IsError coap400BadRequest)
  by_cases hinstance : ¬ uriP.isSetInstance
  · rw [if_neg hobject, if_pos hinstance]
    exact .inl (by decide : IsError coap400BadRequest)
  by_cases hfunc : target.writeFunc.isNone = true
  · rw [if_neg hobject, if_neg hinstance, if_pos hfunc]
    exact .inl (by decide : IsError coap405MethodNotAllowed)
  rw [if_neg hobject, if_neg hinstance, if_neg hfunc]
  rcases parsed with _ | _ | ⟨dataP, next⟩
  · exact .inl (by decide : IsError coap406NotAcceptable)
  · exact .inl (by decide : IsError coap406NotAcceptable)
  have hwritten (writeType : WriteType) {dataArray : List Data}
      (harray : (if uriP.isSetResourceInstance then
        [.mk uriP.resourceId .multipleResource [] (dataP :: next)] else dataP :: next) =
          dataArray) :
      IsError (callWrite target uriP.instanceId dataArray writeType).2 ∨
        ((callWrite target uriP.instanceId dataArray writeType).2 = coap204Changed ∧
          ∃ items, some (dataP :: next) = some items ∧ items ≠ [] ∧
            InstanceApplied target uriP message.payload items) := by
    rcases callWrite_answers hanswers uriP.instanceId dataArray writeType with h | h
    · exact .inr ⟨h, _, rfl, nofun, .written _ writeType hold (harray ▸ h)⟩
    · exact .inl h
  dsimp only [Option.getD_some]
  by_cases hresource : uriP.isSetResourceInstance
  · rw [if_pos hresource]
    exact hwritten .partialUpdate (if_pos hresource)
  · rw [if_neg hresource]
    exact hwritten _ (if_neg hresource)

/-- **An instance-level write tells**: the callback that is called is handed all items, and its
answer is the answer. -/
theorem instanceLevel_acknowledges (hanswers : ∀ t ∈ targetP, t.Answers)
    (hset : uriP.isSetInstance) (contextP : Context) :
    AcknowledgesApplied (Applied targetP uriP message parsed)
      (bootstrapWrite contextP uriP message
        (bootstrapPutOutcome targetP uriP message parsed)).2 := by
  cases targetP with
  | none =>
    have houtcome : bootstrapPutOutcome none uriP message parsed =
        { isNew := true
          code := if message.payload.length = 0 then coap400BadRequest else coap404NotFound } :=
      if_pos hset
    have herror : IsError (if message.payload.length = 0 then coap400BadRequest
        else coap404NotFound) := by
      split_ifs <;> decide
    rw [houtcome]
    unfold bootstrapWrite
    rw [if_pos hset, if_pos rfl]
    refine acknowledgesApplied_of_error ?_
    dsimp only
    rw [if_neg fun hcreated => absurd (hcreated ▸ herror) (by decide)]
    exact herror
  | some target =>
    have happlied {code : Code} (h : ∃ items, parsed = some items ∧ items ≠ [] ∧
        InstanceApplied target uriP message.payload items) :
        AcknowledgesApplied (Applied (some target) uriP message parsed) code := by
      obtain ⟨items, hparsed, hne, hitems⟩ := h
      refine acknowledgesApplied_of_applied ⟨items, hparsed, hne, ?_⟩
      rw [if_pos hset]
      exact ⟨target, rfl, hitems⟩
    have hself := hanswers target rfl
    have houtcome : bootstrapPutOutcome (some target) uriP message parsed =
        { isNew := objectIsInstanceNew target uriP.instanceId
          code := (if objectIsInstanceNew target uriP.instanceId then
            objectCreate target uriP message.payload parsed
            else objectWrite target uriP parsed).2 } := by
      unfold bootstrapPutOutcome bootstrapPut
      dsimp only
      rw [if_pos hset]
    rw [houtcome]
    unfold bootstrapWrite
    rw [if_pos hset]
    dsimp only
    by_cases hnew : objectIsInstanceNew target uriP.instanceId = true
    · rw [if_pos hnew, if_pos hnew]
      rcases objectCreate_answers hself message parsed hset hnew with
        herror | ⟨-, happly⟩
      · refine acknowledgesApplied_of_error ?_
        rw [if_neg fun hcreated => absurd (hcreated ▸ herror) (by decide)]
        exact herror
      · exact happlied happly
    · rw [if_neg hnew, if_neg hnew]
      rcases objectWrite_answers hself message parsed hnew with
        herror | ⟨-, happly⟩
      · refine acknowledgesApplied_of_error ?_
        split_ifs <;> exact herror
      · exact happlied happly

/-- The result of an object-level write whose payload was decoded. -/
theorem objectLevel_result (hset : ¬ uriP.isSetInstance) (hpayload : message.payload.length ≠ 0)
    {items : List Data} (hitems : items ≠ []) (contextP : Context) :
    (bootstrapWrite contextP uriP message
      (bootstrapPutOutcome targetP uriP message (some items))).2 =
      (writeItems contextP uriP.objectId noError (putEntries targetP items)).2 := by
  obtain ⟨dataP, next, rfl⟩ := List.exists_cons_of_ne_nil hitems
  have houtcome : (bootstrapPutOutcome targetP uriP message (some (dataP :: next))).items =
      some (putEntries targetP (dataP :: next)) := by
    unfold bootstrapPutOutcome
    cases targetP with
    | none =>
      rw [if_neg hset, if_neg hpayload]
      rfl
    | some targetP =>
      dsimp only
      unfold bootstrapPut
      rw [if_neg hset, if_neg hpayload]
      rfl
  unfold bootstrapWrite
  rw [if_neg hset, if_neg hpayload, houtcome]

/-- **An object-level write tells** exactly in the cases of `Tells`. -/
theorem objectLevel_acknowledges_iff (hanswers : ∀ t ∈ targetP, t.Answers)
    (hset : ¬ uriP.isSetInstance) (contextP : Context) :
    AcknowledgesApplied (Applied targetP uriP message parsed)
        (bootstrapWrite contextP uriP message
          (bootstrapPutOutcome targetP uriP message parsed)).2 ↔
      Tells targetP uriP message parsed := by
  by_cases hpayload : message.payload.length = 0
  · have hcode : (bootstrapWrite contextP uriP message
        (bootstrapPutOutcome targetP uriP message parsed)).2 = coap400BadRequest := by
      unfold bootstrapWrite
      rw [if_neg hset, if_pos hpayload]
    rw [hcode]
    exact iff_of_true (acknowledgesApplied_of_error (by decide)) (.inr (.inl hpayload))
  have hundecoded : ¬ Applied targetP uriP message none := by
    rintro ⟨items, hparsed, -⟩
    cases hparsed
  rcases parsed with _ | _ | ⟨dataP, next⟩
  · have hcode : (bootstrapWrite contextP uriP message
        (bootstrapPutOutcome targetP uriP message none)).2 = noError := by
      unfold bootstrapWrite bootstrapPutOutcome bootstrapPut
      rw [if_neg hset, if_neg hpayload]
      cases targetP <;> dsimp only <;> rw [if_neg hset, if_neg hpayload] <;> rfl
    rw [hcode]
    refine iff_of_false (fun h => absurd (h.error hundecoded) (by decide)) ?_
    rintro (h | h | ⟨items, hparsed, -⟩)
    · exact hset h
    · exact hpayload h
    · cases hparsed
  · have hcode : (bootstrapWrite contextP uriP message
        (bootstrapPutOutcome targetP uriP message (some []))).2 = coap500InternalServerError := by
      unfold bootstrapWrite bootstrapPutOutcome bootstrapPut
      rw [if_neg hset, if_neg hpayload]
      cases targetP <;> dsimp only <;> rw [if_neg hset, if_neg hpayload]
    rw [hcode]
    exact iff_of_true (acknowledgesApplied_of_error (by decide))
      (.inr (.inr ⟨[], rfl, .inl fun dataP h => absurd h List.not_mem_nil⟩))
  set items := dataP :: next with hitems
  have hne : items ≠ [] := List.cons_ne_nil _ _
  have happlied : Applied targetP uriP message (some items) ↔
      (∀ dataP ∈ items, dataP.type = .objectInstance) ∧ InstancesPut targetP items := by
    constructor
    · rintro ⟨l, hl, -, h⟩
      cases hl
      rw [if_neg hset] at h
      exact h.2
    · intro h
      refine ⟨items, rfl, hne, ?_⟩
      rw [if_neg hset]
      exact ⟨hpayload, h⟩
  have htells : Tells targetP uriP message (some items) ↔
      (∀ dataP ∈ items, dataP.type = .objectInstance) ∨
        (∀ dataP ∈ items.getLast?, dataP.type ≠ .objectInstance) ∨
          ¬ InstancesPut targetP items := by
    unfold Tells
    rw [or_iff_right hset, or_iff_right hpayload]
    constructor
    · rintro ⟨l, hl, h⟩
      cases hl
      exact h
    · exact fun h => ⟨items, rfl, h⟩
  obtain ⟨hall, hrefused⟩ := writeItems_putEntries hanswers contextP uriP.objectId noError items
  rw [objectLevel_result hset hpayload hne, happlied, htells]
  by_cases hput : InstancesPut targetP items
  · have hlast := List.getLast?_eq_some_getLast hne
    rw [hall hput, foldl_itemMark, hlast, Option.map_some, Option.getD_some]
    unfold itemMark
    by_cases hinstances : ∀ dataP ∈ items, dataP.type = .objectInstance
    · exact iff_of_true (acknowledgesApplied_of_applied ⟨hinstances, hput⟩) (.inl hinstances)
    · by_cases htype : (items.getLast hne).type = .objectInstance
      · rw [if_pos htype]
        refine iff_of_false (fun h => ?_) ?_
        · exact hinstances (h.changed rfl).1
        · rintro (h | h | h)
          · exact hinstances h
          · exact h _ rfl htype
          · exact h hput
      · rw [if_neg htype]
        refine iff_of_true (acknowledgesApplied_of_error (by decide)) (.inr (.inl ?_))
        intro dataP hmem
        cases Option.mem_some.mp hmem
        exact htype
  · exact iff_of_true (acknowledgesApplied_of_error (hrefused hput)) (.inr (.inr hput))

/-- **What a bootstrap write acknowledges.**  For every PUT that `bootstrap_handleCommand` does not
ignore, on an object whose callbacks answer with a success or an error, or on none: a payload that
cannot be decoded or holds an item that is not applied is answered with an error, and
2.04 stands for a payload applied as a whole, if and only if the write is at the instance
level, or its payload is one that `Tells`. -/
theorem bootstrapPut_acknowledges_iff (hanswers : ∀ t ∈ targetP, t.Answers) {contextP : Context}
    {serverP : Server} {response : Packet} (hput : message.code = 3)
    (hserved : prvCheckServerStatus serverP.status ≠ none) :
    AcknowledgesApplied (Applied targetP uriP message parsed)
        (bootstrapHandleCommand contextP uriP serverP message response
          (bootstrapPutOutcome targetP uriP message parsed)).2.2 ↔
      Tells targetP uriP message parsed := by
  obtain ⟨contextQ, hcode⟩ := bootstrapHandleCommand_put contextP uriP response
    (bootstrapPutOutcome targetP uriP message parsed) hput hserved
  rw [hcode]
  by_cases hset : uriP.isSetInstance
  · exact iff_of_true (instanceLevel_acknowledges hanswers hset contextQ) (.inl hset)
  · exact objectLevel_acknowledges_iff hanswers hset contextQ

theorem emptyObject_answers : ∀ t ∈ some emptyObject, t.Answers := by
  intro t ht
  cases Option.mem_some.mp ht
  refine ⟨fun hfunc id dataArray l => ?_, fun hfunc => by cases hfunc⟩
  cases hfunc
  dsimp only
  split_ifs
  · exact .inr (.inr (by decide : IsError coap500InternalServerError))
  · exact .inl rfl

/-- A write to the object 3 of the instance 0, and its payload decoded. -/
def instanceWriteMessage : Packet :=
  (coapInitMessage .con 3 7).coapSetPayload [0x03, 0x00, 0xC1, 0x05, 0x61]

def instancePayload : List Data := [.mk 0 .objectInstance [] [.mk 5 .opaqueBytes [0x61] []]]

/-- A write to the object 3 with a resource in front of that instance. -/
def mixedWriteMessage : Packet :=
  (coapInitMessage .con 3 7).coapSetPayload [0xC1, 0x05, 0x61, 0x03, 0x00, 0xC1, 0x05, 0x61]

def mixedPayload : List Data := .mk 5 .opaqueBytes [0x61] [] :: instancePayload

/-- A payload that consists of an instance is acknowledged for what it is. -/
theorem instancePayload_tells :
    AcknowledgesApplied
      (Applied (some emptyObject) { objectId := 3 } instanceWriteMessage (some instancePayload))
      (bootstrapHandleCommand {} { objectId := 3 } bootstrapServer instanceWriteMessage
        (coapInitMessage .ack 0 7) (bootstrapPutOutcome (some emptyObject) { objectId := 3 }
          instanceWriteMessage (some instancePayload))).2.2 := by
  refine (bootstrapPut_acknowledges_iff emptyObject_answers rfl (by decide)).mpr
    (.inr (.inr ⟨_, rfl, .inl fun dataP h => ?_⟩))
  cases List.mem_singleton.mp h
  rfl

/-- **A resource that is dropped is acknowledged**: the instance behind it makes the answer 2.04.
And a payload that is decoded to a negative size is answered with 0.00. -/
theorem mixedPayload_acknowledged :
    (∃ code, (bootstrapHandleCommand {} { objectId := 3 } bootstrapServer mixedWriteMessage
        (coapInitMessage .ack 0 7) (bootstrapPutOutcome (some emptyObject) { objectId := 3 }
          mixedWriteMessage (some mixedPayload))).2.2 = code ∧ code = coap204Changed ∧
      ¬ AcknowledgesApplied
        (Applied (some emptyObject) { objectId := 3 } mixedWriteMessage (some mixedPayload)) code) ∧
    ∃ code, (bootstrapHandleCommand {} { objectId := 3 } bootstrapServer mixedWriteMessage
        (coapInitMessage .ack 0 7) (bootstrapPutOutcome (some emptyObject) { objectId := 3 }
          mixedWriteMessage none)).2.2 = code ∧ code = noError ∧
      ¬ AcknowledgesApplied
        (Applied (some emptyObject) { objectId := 3 } mixedWriteMessage none) code := by
  refine ⟨⟨_, rfl, rfl, fun h => ?_⟩, _, rfl, rfl, fun h => ?_⟩
  · obtain ⟨items, hparsed, -, hitems⟩ := h.changed rfl
    cases hparsed
    rw [if_neg (by decide)] at hitems
    exact absurd (hitems.2.1 _ List.mem_cons_self) (by decide)
  · refine absurd (h.error ?_) (by decide)
    rintro ⟨items, hparsed, -⟩
    cases hparsed

end Lwm2m.Core

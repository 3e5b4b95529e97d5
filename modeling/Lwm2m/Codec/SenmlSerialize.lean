/-
# SenML JSON serialization

`senml_json_serialize` and `prv_serializeData` of `data/senml_json.c`, with `json_findAndCheckData`
of `data/json_common.c`.
-/

import Lwm2m.Codec.SenmlText
import Lwm2m.Library.Separators

namespace Lwm2m.Codec

open Core Library

/-- How a serialization ends without a text: with the result -1 or 0, or in a fault. -/
inductive SerializeStop
  | minusOne
  | zero
  | fault (fault : Fault)
  deriving DecidableEq, Repr

/-! ### The data that the URI addresses -/

/-- The depth that `uri_toString` reports. -/
def uriDepth : Option Uri → UriDepth
  | none => .none
  | some uri =>
    if ¬ uri.isSetObject then .none
    else if ¬ uri.isSetInstance then .object
    else if ¬ uri.isSetResource then .objectInstance
    else if ¬ uri.isSetResourceInstance then .resource
    else .resourceInstance

/-- `json_decreaseLevel`. -/
def jsonDecreaseLevel : UriDepth → UriDepth
  | .none => .object
  | .object => .objectInstance
  | .objectInstance => .resource
  | .resource => .resourceInstance
  | .resourceInstance => .resourceInstance

/-- The identifier of an item. -/
def Tree.id : Tree → UInt16
  | .leaf id _ => id
  | .container id _ _ => id

/-- The type of a container. -/
def Tree.containerType : Tree → Option ContainerType
  | .leaf _ _ => none
  | .container _ type _ => some type

/-- An object or an instance. -/
def Tree.isUpper (tree : Tree) : Prop :=
  tree.containerType = some .object ∨ tree.containerType = some .objectInstance

instance (tree : Tree) : Decidable tree.isUpper := inferInstanceAs (Decidable (_ ∨ _))

/-- The lists that `prv_findAndCheckData` refuses, with objects or instances beside others. -/
def isMixed : List Tree → Prop
  | [] => False
  | first :: rest =>
    if first.isUpper then ∃ tree ∈ rest, tree.containerType ≠ first.containerType
    else ∃ tree ∈ rest, tree.isUpper

instance : DecidablePred isMixed
  | [] => inferInstanceAs (Decidable False)
  | first :: rest => by unfold isMixed; infer_instance

/-- One call of `prv_findAndCheckData`: the level it reports, and the identifier of the item below
which it goes on; without one, the list is the target. -/
def prvCheckData (uriP : Uri) (desiredLevel targetLevel : UriDepth) :
    List Tree → Except SerializeStop (UriDepth × Option UInt16)
  | [] => .ok (targetLevel, none)
  | first :: rest =>
    if isMixed (first :: rest) then .error .minusOne
    else
      match desiredLevel, first.containerType with
      | .object, some .object => .ok (.object, none)
      | .objectInstance, some .object => .ok (.objectInstance, some uriP.objectId)
      | .objectInstance, some .objectInstance => .ok (targetLevel, none)
      | .resource, some .object => .ok (.objectInstance, some uriP.objectId)
      | .resource, some .objectInstance => .ok (.resource, some uriP.instanceId)
      | .resource, _ => .ok (targetLevel, none)
      | .resourceInstance, some .object => .ok (.objectInstance, some uriP.objectId)
      | .resourceInstance, some .objectInstance => .ok (.resource, some uriP.instanceId)
      | .resourceInstance, some .multipleResource =>
        .ok (.resourceInstance, some uriP.resourceId)
      | .resourceInstance, none => .ok (targetLevel, none)
      | _, _ => .error .minusOne

mutual

/-- The call of `prv_findAndCheckData` for the children of an item.  An item of a mixed list may be
a leaf, whose union does not hold `asChildren`. -/
def prvFindBelow (uriP : Uri) (desiredLevel targetLevel : UriDepth) :
    Tree → Except SerializeStop (List Tree × UriDepth)
  | .leaf _ _ => .error (.fault .wrongUnionMember)
  | .container _ _ children =>
    match prvCheckData uriP desiredLevel targetLevel children with
    | .error stop => .error stop
    | .ok (level, none) => .ok (children, level)
    | .ok (level, some id) => prvFindData uriP desiredLevel level id children

/-- The search of `prv_findAndCheckData` for an item. -/
def prvFindData (uriP : Uri) (desiredLevel targetLevel : UriDepth) (id : UInt16) :
    List Tree → Except SerializeStop (List Tree × UriDepth)
  | [] => .error .minusOne
  | item :: next =>
    if item.id = id then prvFindBelow uriP desiredLevel targetLevel item
    else prvFindData uriP desiredLevel targetLevel id next

end

/-- `json_findAndCheckData`; the URI is read from the level of the object on. -/
def jsonFindAndCheckData (uriP : Option Uri) (baseLevel : UriDepth) (tlvP : List Tree) :
    Except SerializeStop (List Tree × UriDepth) :=
  let uri := uriP.getD {}
  let desiredLevel := jsonDecreaseLevel baseLevel
  let targetLevel := if baseLevel < .resource then desiredLevel else baseLevel
  match prvCheckData uri desiredLevel targetLevel tlvP with
  | .error stop => .error stop
  | .ok (level, none) => .ok (tlvP, level)
  | .ok (level, some id) => prvFindData uri desiredLevel level id tlvP

/-- What `senml_json_serialize` has found out before it writes. -/
structure SenmlTarget where
  baseUriStr : List Byte
  baseLevel : UriDepth
  rootLevel : UriDepth
  parentUriStr : List Byte
  targetP : List Tree
  deriving Repr

/-- A '/' behind the base, where it is needed. -/
def appendSlash (needed : Bool) (baseUriStr : List Byte) : Except SerializeStop (List Byte) :=
  if ¬ needed then .ok baseUriStr
  else if baseUriStr.length ≥ uriMaxStringLen - 1 then .error .zero
  else .ok (baseUriStr ++ [0x2F])

/-- The first part of `senml_json_serialize`; `none` is a null pointer with a size other
than 0. -/
def senmlTarget (uriP : Option Uri) (tlvP : Option (List Tree)) :
    Except SerializeStop SenmlTarget :=
  match tlvP, uriToString uriP uriMaxStringLen with
  | none, _ => .error .minusOne
  | _, none => .error .minusOne
  | some tlvP, some baseUriStr => do
    let baseLevel := uriDepth uriP
    let baseUriStr ← appendSlash (baseUriStr.length > 1 ∧ baseLevel ≠ .resource ∧
      baseLevel ≠ .resourceInstance) baseUriStr
    let (targetP, rootLevel) ← jsonFindAndCheckData uriP baseLevel tlvP
    let baseUriStr ← appendSlash (baseLevel < rootLevel ∧ baseUriStr.length > 1 ∧
      baseUriStr.getLast? ≠ some 0x2F) baseUriStr
    let parentUriStr := if baseUriStr.getLast? ≠ some 0x2F then [0x2F] else []
    return { baseUriStr, baseLevel, rootLevel, parentUriStr, targetP }

/-! ### Writing -/

/-- `PRV_JSON_BUFFER_SIZE`. -/
def prvJsonBufferSize : ℕ := 1024

/-- The path for the children of a container.  The '/' is written without a look at the end of
`uriStr`. -/
def childrenUri (parentUriStr : List Byte) (id : UInt16) : Except SerializeStop (List Byte) :=
  if uriMaxStringLen < parentUriStr.length then .error .minusOne
  else
    match utilsIntToText id.toNat (uriMaxStringLen - parentUriStr.length) with
    | none => .error .minusOne
    | some text =>
      let uriStr := parentUriStr ++ text
      if uriStr.length ≥ uriMaxStringLen then .error (.fault .outOfBoundsWrite)
      else .ok (uriStr ++ [0x2F])

section

variable (w : FloatToText) (t : SenmlTarget)

mutual

/-- `prv_serializeData`: what it writes into the room, and `baseNameOutput`. -/
def prvSerializeData (parentUriStr : List Byte) (baseNameOutput : Bool) (bufferLen : ℕ) :
    Tree → Except SerializeStop (List Byte × Bool)
  | .leaf id value =>
    match prvSerializeLeaf w t.baseUriStr t.baseLevel t.rootLevel parentUriStr baseNameOutput id
      value bufferLen with
    | none => .error .minusOne
    | some text => .ok (text, baseNameOutput || t.baseUriStr.length > 0)
  | .container id _ children => do
    let uriStr ← childrenUri parentUriStr id
    prvSerializeChildren uriStr baseNameOutput bufferLen 0 [] children

/-- The loop of `prv_serializeData` over the children, behind what it has written. -/
def prvSerializeChildren (uriStr : List Byte) (baseNameOutput : Bool) (bufferLen : ℕ) (index : ℕ)
    (buffer : List Byte) : List Tree → Except SerializeStop (List Byte × Bool)
  | [] => .ok (buffer, baseNameOutput)
  | child :: next =>
    -- the return of 0 leaves nothing of the container, and the callers go on
    if index ≠ 0 ∧ buffer.length + 1 > bufferLen then .ok ([], baseNameOutput)
    else do
      let buffer := if index ≠ 0 then buffer ++ [0x2C] else buffer
      let (text, baseNameOutput) ←
        prvSerializeData uriStr baseNameOutput (bufferLen - buffer.length) child
      prvSerializeChildren uriStr baseNameOutput bufferLen (index + 1) (buffer ++ text) next

end

/-- The loop of `senml_json_serialize`, behind what it has written. -/
def senmlJsonLoop (baseNameOutput : Bool) (index : ℕ) (bufferJSON : List Byte) :
    List Tree → Except SerializeStop (List Byte)
  | [] => .ok bufferJSON
  | item :: next =>
    if ¬ bufferJSON.length < prvJsonBufferSize then .ok bufferJSON
    else if index ≠ 0 ∧ bufferJSON.length + 1 > prvJsonBufferSize then .error .zero
    else do
      let bufferJSON := if index ≠ 0 then bufferJSON ++ [0x2C] else bufferJSON
      let (text, baseNameOutput) ← prvSerializeData w t t.parentUriStr baseNameOutput
        (prvJsonBufferSize - bufferJSON.length) item
      senmlJsonLoop baseNameOutput (index + 1) (bufferJSON ++ text) next

/-- The end of `senml_json_serialize`, with the answer of `lwm2m_malloc`. -/
def senmlFooter (allocated : Bool) (bufferJSON : List Byte) : Except SerializeStop (List Byte) :=
  if bufferJSON.length + 1 > prvJsonBufferSize then .error .zero
  else if ¬ allocated then .error .minusOne
  else .ok (bufferJSON ++ [0x5D])

/-- The second part of `senml_json_serialize`. -/
def senmlWrite (allocated : Bool) : Except SerializeStop (List Byte) := do
  senmlFooter allocated (← senmlJsonLoop w t false 0 [0x5B] t.targetP)

/-- `senml_json_serialize`. -/
def senmlJsonSerialize (allocated : Bool) (uriP : Option Uri) (tlvP : Option (List Tree)) :
    Except SerializeStop (List Byte) := do
  senmlWrite w (← senmlTarget uriP tlvP) allocated

end

/-! ### Layouts -/

/-- A comma of a layout, and how the writing ends without room for it. -/
def separator (full : Option SerializeStop) : Piece SerializeStop Byte := .text [0x2C] full

/-- A leaf of a layout. -/
def leafPiece (text : Option (List Byte)) : Piece SerializeStop Byte :=
  match text with
  | some text => .text text (some .minusOne)
  | none => .stop .minusOne

variable (w : FloatToText) (t : SenmlTarget)

mutual

/-- What `prv_serializeData` writes for an item, with the `baseNameOutput` that it leaves. -/
def layoutData (parentUriStr : List Byte) (baseNameOutput : Bool) :
    Tree → List (Piece SerializeStop Byte) × Bool
  | .leaf id value =>
    ([leafPiece (leafText w t.baseUriStr t.baseLevel t.rootLevel baseNameOutput
      (parentUriStr ++ decimal id.toNat) value)], baseNameOutput || t.baseUriStr.length > 0)
  | .container id _ children =>
    match childrenUri parentUriStr id with
    | .error stop => ([.stop stop], baseNameOutput)
    | .ok uriStr =>
      let items := layoutItems uriStr baseNameOutput children
      ([separator none].intercalate items.1, items.2)

/-- The layouts of items, one behind the other. -/
def layoutItems (parentUriStr : List Byte) (baseNameOutput : Bool) :
    List Tree → List (List (Piece SerializeStop Byte)) × Bool
  | [] => ([], baseNameOutput)
  | item :: next =>
    let first := layoutData parentUriStr baseNameOutput item
    let rest := layoutItems parentUriStr first.2 next
    (first.1 :: rest.1, rest.2)

end

/-- What `senml_json_serialize` writes. -/
def layout : List (Piece SerializeStop Byte) :=
  .text [0x5B] (some .zero) ::
    ([separator (some .zero)].intercalate
      (layoutItems w t t.parentUriStr false t.targetP).1 ++ [.text [0x5D] (some .zero)])

/-- The layouts of items behind `index` others, with a comma before each but the first. -/
def separated (full : Option SerializeStop) (index : ℕ)
    (pieces : List (List (Piece SerializeStop Byte))) : List (Piece SerializeStop Byte) :=
  if index ≠ 0 then joined (separator full) pieces else [separator full].intercalate pieces

theorem separated_nil (full : Option SerializeStop) (index : ℕ) : separated full index [] = [] := by
  unfold separated
  split_ifs <;> rfl

variable {w t} {full : Option SerializeStop} {index room : ℕ} {buffer : List Byte}
  {p : List (Piece SerializeStop Byte)} {ps : List (List (Piece SerializeStop Byte))}

/-- Without room for the comma, the writing ends as the comma says. -/
theorem lay_separated_full (h : index ≠ 0 ∧ buffer.length + 1 > room) :
    lay (room - buffer.length) (separated full index (p :: ps)) = .error full := by
  unfold separated
  rw [if_pos h.1, joined_cons, separator, lay, if_neg]
  rw [List.length_singleton]
  omega

/-- Behind the comma, an item is laid and then the others. -/
theorem lay_separated {γ : Type} {f : List Byte → γ}
    (h : ¬ (index ≠ 0 ∧ buffer.length + 1 > room)) :
    (lay (room - buffer.length) (separated full index (p :: ps))).map (f ∘ (buffer ++ ·)) =
      let buffer := if index ≠ 0 then buffer ++ [0x2C] else buffer
      (lay (room - buffer.length) p).bind fun text =>
        (lay (room - (buffer ++ text).length) (separated full (index + 1) ps)).map
          (f ∘ (buffer ++ text ++ ·)) := by
  have hbehind (buffer : List Byte) :=
    lay_append_behind f room buffer p (joined (separator full) ps)
  have hnext : separated full (index + 1) ps = joined (separator full) ps :=
    if_pos (Nat.succ_ne_zero index)
  rw [hnext]
  rw [separated]
  by_cases hindex : index ≠ 0
  · have hroom : 1 ≤ room - buffer.length := by omega
    rw [if_pos hindex, if_pos hindex, ← hbehind, joined_cons, separator, lay,
      List.length_singleton, if_pos hroom, List.length_append, List.length_singleton,
      Nat.sub_add_eq]
    cases lay (room - buffer.length - 1) (p ++ joined (.text [0x2C] full) ps) with
    | error x => rfl
    | ok text' => exact congrArg (Except.ok ∘ f) (List.append_assoc buffer [0x2C] text').symm
  · rw [if_neg hindex, if_neg hindex, ← hbehind, intercalate_cons_eq_joined]

/-! ### The recursion follows the layout -/

/-- What `prv_serializeData` returns for an item is what the layout gives. -/
def DataFollows (w : FloatToText) (t : SenmlTarget) (item : Tree) : Prop :=
  ∀ parentUriStr baseNameOutput room, FollowsLayout
    (prvSerializeData w t parentUriStr baseNameOutput room item)
    ((lay room (layoutData w t parentUriStr baseNameOutput item).1).map fun text =>
      (text, (layoutData w t parentUriStr baseNameOutput item).2))

/-- What the loop over children returns is what the layout gives. -/
def ChildrenFollow (w : FloatToText) (t : SenmlTarget) (items : List Tree) : Prop :=
  ∀ uriStr baseNameOutput index buffer room, buffer.length ≤ room → FollowsLayout
    (prvSerializeChildren w t uriStr baseNameOutput room index buffer items)
    ((lay (room - buffer.length)
      (separated none index (layoutItems w t uriStr baseNameOutput items).1)).map
        ((·, (layoutItems w t uriStr baseNameOutput items).2) ∘ (buffer ++ ·)))

theorem dataFollows_leaf (id : UInt16) (value : Leaf) : DataFollows w t (.leaf id value) := by
  intro parentUriStr baseNameOutput room
  rw [prvSerializeData, prvSerializeLeaf_eq, layoutData]
  generalize leafText w t.baseUriStr t.baseLevel t.rootLevel baseNameOutput
    (parentUriStr ++ decimal id.toNat) value = text
  cases text with
  | none => exact .of_error _
  | some text =>
    rw [within_some, leafPiece, lay]
    by_cases h : text.length ≤ room
    · rw [if_pos h, if_pos h, lay]
      change FollowsLayout _ (.ok (text ++ [], _))
      rw [List.append_nil]
      exact .of_ok _
    · rw [if_neg h, if_neg h]
      exact .of_error _

theorem dataFollows_container (id : UInt16) (type : ContainerType) {children : List Tree}
    (h : ChildrenFollow w t children) : DataFollows w t (.container id type children) := by
  intro parentUriStr baseNameOutput room
  rw [prvSerializeData, layoutData]
  cases childrenUri parentUriStr id with
  | error stop => exact .of_error stop
  | ok uriStr => exact h uriStr baseNameOutput 0 [] room (Nat.zero_le room)

theorem childrenFollow_nil : ChildrenFollow w t [] := by
  intro uriStr baseNameOutput index buffer room _
  rw [prvSerializeChildren, layoutItems, separated_nil, lay]
  change FollowsLayout _ (.ok (buffer ++ [], baseNameOutput))
  rw [List.append_nil]
  exact .of_ok _

/-- One turn of the loop. -/
theorem childrenFollow_cons {item : Tree} {next : List Tree} (hitem : DataFollows w t item)
    (hnext : ChildrenFollow w t next) : ChildrenFollow w t (item :: next) := by
  intro uriStr baseNameOutput index buffer room hbuffer
  rw [prvSerializeChildren, layoutItems]
  by_cases hcut : index ≠ 0 ∧ buffer.length + 1 > room
  · rw [lay_separated_full hcut]
    exact .of_cut _
  · rw [if_neg hcut, lay_separated hcut]
    have hroom : (if index ≠ 0 then buffer ++ [0x2C] else buffer).length ≤ room := by
      split_ifs with hindex
      · rw [List.length_append, List.length_singleton]
        omega
      · exact hbuffer
    generalize (if index ≠ 0 then buffer ++ [0x2C] else buffer) = buffer at hroom ⊢
    refine (hitem uriStr baseNameOutput (room - buffer.length)).bind fun text htext => ?_
    have hlength := (lay_eq_ok_iff.mp htext).2
    exact hnext uriStr _ (index + 1) (buffer ++ text) room (by rw [List.length_append]; omega)

/-- **The recursion follows the layout.** -/
theorem childrenFollow (items : List Tree) : ChildrenFollow w t items :=
  forest_induction childrenFollow_nil
    (fun id value _ hnext => childrenFollow_cons (dataFollows_leaf id value) hnext)
    (fun id type _ _ hchildren hnext =>
      childrenFollow_cons (dataFollows_container id type hchildren) hnext) items

theorem dataFollows : ∀ item, DataFollows w t item
  | .leaf id value => dataFollows_leaf id value
  | .container id type children => dataFollows_container id type (childrenFollow children)

/-- What is laid at the end. -/
def layFooter (bufferJSON : List Byte) : Except (Option SerializeStop) (List Byte) :=
  (lay (prvJsonBufferSize - bufferJSON.length)
    [Piece.text [0x5D] (some SerializeStop.zero)]).map (bufferJSON ++ ·)

theorem follows_senmlFooter (bufferJSON : List Byte) :
    FollowsLayout (senmlFooter true bufferJSON) (layFooter bufferJSON) := by
  unfold senmlFooter layFooter
  rw [lay, lay, List.length_singleton]
  by_cases h : bufferJSON.length + 1 > prvJsonBufferSize
  · have hroom : ¬ 1 ≤ prvJsonBufferSize - bufferJSON.length := by omega
    rw [if_pos h, if_neg hroom]
    exact .of_error _
  · have hroom : 1 ≤ prvJsonBufferSize - bufferJSON.length := by omega
    rw [if_neg h, if_pos hroom]
    exact .of_ok _

/-- The loop of `senml_json_serialize` follows the layout, together with what comes behind it: a
full buffer ends the loop early, and is refused then. -/
theorem follows_senmlJsonLoop (items : List Tree) (baseNameOutput : Bool) (index : ℕ)
    (buffer : List Byte) (hbuffer : buffer.length ≤ prvJsonBufferSize)
    (hfirst : index = 0 → buffer.length < prvJsonBufferSize) :
    FollowsLayout (senmlJsonLoop w t baseNameOutput index buffer items >>= senmlFooter true)
      (((lay (prvJsonBufferSize - buffer.length) (separated (some .zero) index
        (layoutItems w t t.parentUriStr baseNameOutput items).1)).map (id ∘ (buffer ++ ·))).bind
          layFooter) := by
  induction items generalizing baseNameOutput index buffer with
  | nil =>
    rw [senmlJsonLoop, layoutItems, separated_nil, lay]
    change FollowsLayout (senmlFooter true buffer) (layFooter (buffer ++ []))
    rw [List.append_nil]
    exact follows_senmlFooter buffer
  | cons item next ih =>
    rw [senmlJsonLoop, layoutItems]
    by_cases hlt : buffer.length < prvJsonBufferSize
    · have hcut : ¬ (index ≠ 0 ∧ buffer.length + 1 > prvJsonBufferSize) := by omega
      rw [if_neg (not_not.mpr hlt), if_neg hcut, lay_separated hcut]
      have hroom : (if index ≠ 0 then buffer ++ [0x2C] else buffer).length ≤
          prvJsonBufferSize := by
        split_ifs with hindex
        · rw [List.length_append, List.length_singleton]
          omega
        · exact hbuffer
      generalize (if index ≠ 0 then buffer ++ [0x2C] else buffer) = buffer at hroom ⊢
      rw [bind_assoc]
      change FollowsLayout _ (((lay _ _ : Except _ _) >>= _) >>= _)
      rw [bind_assoc]
      refine (dataFollows item t.parentUriStr baseNameOutput
        (prvJsonBufferSize - buffer.length)).bind fun text htext => ?_
      have hlength := (lay_eq_ok_iff.mp htext).2
      exact ih _ (index + 1) (buffer ++ text) (by rw [List.length_append]; omega)
        (fun h => absurd h (Nat.succ_ne_zero index))
    · have hindex : index ≠ 0 := fun h => hlt (hfirst h)
      rw [if_pos hlt, lay_separated_full ⟨hindex, by omega⟩]
      change FollowsLayout (senmlFooter true buffer) _
      unfold senmlFooter
      rw [if_pos (by omega)]
      exact .of_error _

/-- **What is written is what the layout gives.** -/
theorem follows_senmlWrite :
    FollowsLayout (senmlWrite w t true) (lay prvJsonBufferSize (layout w t)) := by
  have h := follows_senmlJsonLoop (w := w) (t := t) t.targetP false 0 [0x5B] (by decide)
    (fun _ => by decide)
  have hlay : lay prvJsonBufferSize (layout w t) = ((lay (prvJsonBufferSize - [0x5B].length)
      (separated (some .zero) 0 (layoutItems w t t.parentUriStr false t.targetP).1)).map
        (id ∘ ([0x5B] ++ ·))).bind layFooter := by
    rw [layout, lay, if_pos (by decide)]
    refine (lay_append_behind id prvJsonBufferSize [0x5B] _ _).trans ?_
    change (lay _ (separated (some .zero) 0 _)).bind _ = _
    cases lay (prvJsonBufferSize - [(0x5B : Byte)].length)
      (separated (some .zero) 0 (layoutItems w t t.parentUriStr false t.targetP).1) <;> rfl
  rw [hlay]
  exact h

end Lwm2m.Codec

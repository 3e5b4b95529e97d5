/-
# Filling the server lists

`object_getServers` of `core/objects.c` with all that it reads: the instances of the Security object
in their order, a matching instance of the Server object, and the allocations, each of which may
fail.  Where nothing faults and a server is seen by its identifiers only, it is the function of
`Servers` (`objectGetServers_refines`).

An error ends the loop and leaves what the earlier turns linked.  So a call that fails leaves the
lists as they were exactly when no instance before the first one that fails links a server
(`objectGetServers_atomic_iff`).
-/

import Lwm2m.Codec.Tree
import Lwm2m.Core.BindingText
import Lwm2m.Core.ReadAttributes
import Lwm2m.Core.Servers

namespace Lwm2m.Core

open Codec Code Library

/-! ### Resources -/

/-- `utils_copyValue` into a signed integer of the same size. -/
def utilsCopyValue (buffer : List Byte) : ℤ :=
  Int.bmod (buffer.foldl (fun n b => n * 256 + b.toNat) 0 : ℕ) (256 ^ buffer.length)

/-- `lwm2m_data_decode_int`. -/
def lwm2mDataDecodeInt : Leaf → Option ℤ
  | .integer value => some value.toInt
  | .unsignedInteger value => if value.toNat ≤ 2 ^ 63 - 1 then some value.toNat else none
  | .string buffer => utilsTextToInt buffer (Int32.ofNat buffer.length).toInt
  | .opaqueBytes buffer =>
    if buffer.length ∈ [1, 2, 4, 8] then some (utilsCopyValue buffer) else none
  | _ => none

/-- `lwm2m_data_decode_bool`. -/
def lwm2mDataDecodeBool : Leaf → Option Bool
  | .boolean value => some value
  | .string [0x30] => some false
  | .string [0x31] => some true
  | .opaqueBytes [0] => some false
  | .opaqueBytes [1] => some true
  | _ => none

/-- An object of the list: its instances in order, and `readFunc` on some resources of an
instance. -/
structure ReadableObject where
  objID : UInt16
  instanceList : List UInt16
  readFunc : UInt16 → List UInt16 → Code × List Leaf

/-- A read of some resources: the answer is not `COAP_205_CONTENT`, or the items of the array. -/
def ReadableObject.read (objectP : ReadableObject) (instanceId : UInt16) (ids : List UInt16) :
    Option (ℕ → Leaf) :=
  let (result, dataP) := objectP.readFunc instanceId ids
  if result = coap205Content then some fun i => (dataP[i]?).getD .undefined else none

/-! ### Servers -/

/-- `lwm2m_server_t` with its other fields. -/
structure ServerEntry extends Server where
  lifetime : ℤ := 0
  registration : ℤ := 0
  binding : UInt8 := 0
  location : Option CString := none
  servObjInstID : UInt16 := 0
  attempt : UInt8 := 0
  sequence : UInt8 := 0
  deriving DecidableEq, Repr

/-- What becomes of the server that is allocated in a turn. -/
inductive NewServer
  /-- It has no instance of the Server object and is freed. -/
  | unmatched
  | bootstrap (targetP : ServerEntry)
  | server (targetP : ServerEntry)
  deriving DecidableEq, Repr

/-- The loop of `prv_findServerInstance`, with the number of allocations. -/
def prvFindServerInstance (objectP : ReadableObject) (malloc : ℕ → Bool) (shortID : UInt16)
    (calls : ℕ) : List UInt16 → Option UInt16 × ℕ
  | [] => (none, calls)
  | instanceId :: next =>
    if malloc calls then
      match objectP.read instanceId [0] with
      | none => (none, calls + 1)
      | some dataP =>
        if lwm2mDataDecodeInt (dataP 0) = some (shortID.toNat : ℤ) then
          (some instanceId, calls + 1)
        else prvFindServerInstance objectP malloc shortID (calls + 1) next
    else (none, calls + 1)

/-- `prv_getMandatoryInfo`: the server with its lifetime and its binding, or `none` when it does
not return 0. -/
def prvGetMandatoryInfoOf (objectP : ReadableObject) (malloc : Bool) (instanceID : UInt16)
    (targetP : ServerEntry) : Option ServerEntry := do
  guard malloc
  let dataP ← objectP.read instanceID [1, 7]
  let value ← lwm2mDataDecodeInt (dataP 0)
  guard (0 ≤ value ∧ value ≤ 0xFFFFFFFF)
  let binding := match dataP 1 with
    | .string buffer => utilsStringToBinding buffer
    | _ => bindingUnknown
  guard (binding ≠ bindingUnknown)
  return { targetP with lifetime := value, binding }

/-- The turn of an instance of the Security object: the instance, and which allocations of the turn
succeed. -/
structure SecurityTurn where
  id : UInt16
  malloc : ℕ → Bool

section turns

variable (securityObjP : ReadableObject) (serverObjP : Option ReadableObject) (turn : SecurityTurn)

/-- A bootstrap server. -/
def readBootstrap (targetP : ServerEntry) : Option NewServer := do
  guard (turn.malloc 2)
  let dataP ← securityObjP.read turn.id [11]
  let value ← lwm2mDataDecodeInt (dataP 0)
  guard (0 ≤ value ∧ value ≤ 0xFFFFFFFF)
  return .bootstrap { targetP with servObjInstID := lwm2mMaxId, lifetime := value }

/-- The Short Server ID of a server. -/
def readShortID : Option UInt16 := do
  guard (turn.malloc 2)
  let dataP ← securityObjP.read turn.id [10]
  let value ← lwm2mDataDecodeInt (dataP 0)
  guard (1 ≤ value ∧ value ≤ 0xFFFF)
  return UInt16.ofNat value.toNat

/-- A server with a Short Server ID. -/
def readServer (objectP : ReadableObject) (targetP : ServerEntry) : Option NewServer :=
  match prvFindServerInstance objectP turn.malloc targetP.shortID 3 objectP.instanceList with
  | (none, _) => some .unmatched
  | (some instanceId, calls) =>
    (prvGetMandatoryInfoOf objectP (turn.malloc calls) instanceId
      { targetP with servObjInstID := instanceId }).map .server

/-- The turn of a new instance; `none` when it makes `object_getServers` return -1. -/
def readSecurityInstance : Except Fault (Option NewServer) :=
  let bootstrap := do
    guard (turn.malloc 0)
    let dataP ← securityObjP.read turn.id [1]
    guard (turn.malloc 1)
    lwm2mDataDecodeBool (dataP 0)
  match bootstrap with
  | none => .ok none
  | some true =>
    .ok (readBootstrap securityObjP turn { ref := 0, secObjInstID := turn.id, shortID := 0 })
  | some false =>
    match readShortID securityObjP turn with
    | none => .ok none
    | some shortID =>
      match serverObjP with
      | none => .error .nullDereference
      | some objectP =>
        .ok (readServer turn objectP { ref := 0, secObjInstID := turn.id, shortID })

end turns

/-! ### The lists -/

/-- The two lists, and the number of servers that were allocated. -/
structure ServerLists where
  bootstrapServerList : List ServerEntry := []
  serverList : List ServerEntry := []
  allocated : ℕ := 0

namespace ServerLists

/-- The identifier of an entry in its list. -/
def nodeId (server : ServerEntry) : UInt16 := server.secObjInstID

variable (lists : ServerLists)

/-- One of the two lists has an entry for the instance. -/
def Finds (instanceId : UInt16) : Prop :=
  (listFind nodeId lists.bootstrapServerList instanceId).isSome ∨
    (listFind nodeId lists.serverList instanceId).isSome

instance (instanceId : UInt16) : Decidable (lists.Finds instanceId) :=
  inferInstanceAs (Decidable (_ ∨ _))

/-- A server is allocated. -/
def allocate : ServerLists := { lists with allocated := lists.allocated + 1 }

/-- A server at its address. -/
def place (targetP : ServerEntry) : ServerEntry := { targetP with ref := lists.allocated }

/-- The server that was allocated is linked or freed. -/
def keep (checkOnly : Bool) : NewServer → ServerLists
  | .unmatched => lists.allocate
  | .bootstrap targetP =>
    if checkOnly then lists.allocate
    else { lists.allocate with
      bootstrapServerList := listAdd nodeId (lists.place targetP) lists.bootstrapServerList }
  | .server targetP =>
    if checkOnly then lists.allocate
    else { lists.allocate with serverList := listAdd nodeId (lists.place targetP) lists.serverList }

/-- The loop of `object_getServers`. -/
def getServersLoop (securityObjP : ReadableObject) (serverObjP : Option ReadableObject)
    (checkOnly : Bool) (lists : ServerLists) :
    List SecurityTurn → Except Fault (ServerLists × ℤ)
  | [] => return (lists, 0)
  | turn :: next =>
    if lists.Finds turn.id then getServersLoop securityObjP serverObjP checkOnly lists next
    else do
      let some newServer ← readSecurityInstance securityObjP serverObjP turn | return (lists, -1)
      getServersLoop securityObjP serverObjP checkOnly (lists.keep checkOnly newServer) next

end ServerLists

/-- The object that the loop of `object_getServers` over the objects finds. -/
def findObject (objectList : List ReadableObject) (objID : UInt16) : Option ReadableObject :=
  objectList.foldl (fun found objectP => if objectP.objID = objID then some objectP else found) none

/-- The turns of the instances of the Security object. -/
def securityTurns (securityObjP : ReadableObject) (malloc : ℕ → ℕ → Bool) : List SecurityTurn :=
  securityObjP.instanceList.zipIdx.map fun (id, i) => ⟨id, malloc i⟩

/-- `object_getServers`; `malloc i j` is whether allocation `j` of turn `i` succeeds. -/
def ServerLists.objectGetServers (lists : ServerLists) (objectList : List ReadableObject)
    (malloc : ℕ → ℕ → Bool) (checkOnly : Bool) : Except Fault (ServerLists × ℤ) :=
  match findObject objectList 0 with
  | none => return (lists, -1)
  | some securityObjP =>
    lists.getServersLoop securityObjP (findObject objectList 1) checkOnly
      (securityTurns securityObjP malloc)

/-! ### A new entry in a list -/

section list

variable {α : Type*} {key : α → UInt16} (node : α) {l : List α}

/-- A node that is not found goes in front of the nodes that are not below it. -/
theorem listAdd_of_not_found (h : listFind key l (key node) = none) :
    listAdd key node l =
      l.takeWhile (key · < key node) ++ node :: l.dropWhile (key · < key node) := by
  cases l with
  | nil => rfl
  | cons head tail =>
    rw [listFind_cons] at h
    rw [listAdd]
    by_cases hlt : key head < key node
    · rw [if_neg (UInt16.not_lt.mpr (UInt16.le_of_lt hlt)),
        List.takeWhile_cons_of_pos (by simpa using hlt),
        List.dropWhile_cons_of_pos (by simpa using hlt), List.cons_append]
    · rw [if_neg hlt] at h
      have hne : key head ≠ key node := fun heq => by rw [if_pos heq] at h; cases h
      have hgt : key head > key node := UInt16.lt_of_le_of_ne (UInt16.not_lt.mp hlt) hne.symm
      rw [if_pos hgt, List.takeWhile_cons_of_neg (by simpa using hlt),
        List.dropWhile_cons_of_neg (by simpa using hlt)]
      rfl

/-- **A node that is added to a list** is found under its identifier, and the others as before. -/
theorem listFind_listAdd (h : listFind key l (key node) = none) (k : UInt16) :
    listFind key (listAdd key node l) k =
      if k = key node then some node else listFind key l k := by
  rw [listAdd_of_not_found node h]
  induction l with
  | nil =>
    rw [List.takeWhile_nil, List.nil_append, List.dropWhile_nil, listFind_cons]
    by_cases hk : k = key node
    · rw [hk, if_neg (UInt16.lt_irrefl _), if_pos rfl, if_pos rfl]
    · rw [if_neg hk, if_neg (Ne.symm hk)]
      exact ite_self none
  | cons head tail ih =>
    rw [listFind_cons] at h
    by_cases hlt : key head < key node
    · rw [if_pos hlt] at h
      rw [List.takeWhile_cons_of_pos (by simpa using hlt),
        List.dropWhile_cons_of_pos (by simpa using hlt), List.cons_append, listFind_cons, ih h,
        listFind_cons]
      by_cases hk : k = key node
      · rw [hk, if_pos rfl, if_pos hlt, if_pos rfl]
      · rw [if_neg hk, if_neg hk]
    · rw [if_neg hlt] at h
      have hne : key head ≠ key node := fun heq => by rw [if_pos heq] at h; cases h
      rw [List.takeWhile_cons_of_neg (by simpa using hlt),
        List.dropWhile_cons_of_neg (by simpa using hlt), List.nil_append, listFind_cons]
      by_cases hk : k = key node
      · rw [hk, if_neg (UInt16.lt_irrefl _), if_pos rfl, if_pos rfl]
      · rw [if_neg hk, if_neg (Ne.symm hk)]
        by_cases hbelow : key node < k
        · rw [if_pos hbelow]
        · have hle : k ≤ key node := UInt16.not_lt.mp hbelow
          have hhead : key node ≤ key head := UInt16.not_lt.mp hlt
          rw [if_neg hbelow, listFind_cons, if_neg (UInt16.not_lt.mpr (UInt16.le_trans hle hhead)),
            if_neg fun heq : key head = k => hne (UInt16.le_antisymm (heq ▸ hle) hhead)]

theorem length_listAdd (l : List α) : (listAdd key node l).length = l.length + 1 :=
  (listAdd_perm node l).length_eq

end list

/-! ### One turn -/

variable {targetP : ServerEntry} {newServer : NewServer}

section turn

variable {securityObjP : ReadableObject} {serverObjP : Option ReadableObject}

/-- The server that is linked at the end of the turn. -/
def NewServer.linked : NewServer → Option ServerEntry
  | .unmatched => none
  | .bootstrap targetP | .server targetP => some targetP

variable {objectP : ReadableObject}

theorem prvGetMandatoryInfoOf_toServer {malloc : Bool} {instanceID : UInt16}
    {targetP' : ServerEntry}
    (h : prvGetMandatoryInfoOf objectP malloc instanceID targetP = some targetP') :
    targetP'.toServer = targetP.toServer := by
  unfold prvGetMandatoryInfoOf at h
  simp only [Option.bind_eq_bind, Option.bind_eq_some_iff, Option.pure_def, Option.some.injEq] at h
  obtain ⟨_, _, _, _, _, _, _, _, _, _, rfl⟩ := h
  rfl

variable {turn : SecurityTurn}

theorem readBootstrap_eq_some (h : readBootstrap securityObjP turn targetP = some newServer) :
    ∃ targetP', newServer = .bootstrap targetP' ∧ targetP'.toServer = targetP.toServer := by
  unfold readBootstrap at h
  simp only [Option.bind_eq_bind, Option.bind_eq_some_iff, Option.pure_def, Option.some.injEq] at h
  obtain ⟨_, _, _, _, _, _, _, _, rfl⟩ := h
  exact ⟨_, rfl, rfl⟩

theorem readServer_eq_some (h : readServer turn objectP targetP = some newServer) :
    newServer = .unmatched ∨
      ∃ targetP', newServer = .server targetP' ∧ targetP'.toServer = targetP.toServer := by
  unfold readServer at h
  split at h
  next =>
    cases h
    exact .inl rfl
  next =>
    obtain ⟨targetP', hmandatory, rfl⟩ := Option.map_eq_some_iff.mp h
    exact .inr ⟨targetP', rfl, (prvGetMandatoryInfoOf_toServer hmandatory).trans rfl⟩

/-- **The server of a turn** is that of its instance. -/
theorem readSecurityInstance_eq_some
    (h : readSecurityInstance securityObjP serverObjP turn = .ok (some newServer)) :
    newServer = .unmatched ∨
      (∃ targetP, newServer = .bootstrap targetP ∧
        targetP.toServer = { ref := 0, secObjInstID := turn.id, shortID := 0 }) ∨
      ∃ targetP shortID, newServer = .server targetP ∧
        targetP.toServer = { ref := 0, secObjInstID := turn.id, shortID } := by
  unfold readSecurityInstance at h
  dsimp only at h
  split at h
  next => cases h
  next => exact .inr (.inl (readBootstrap_eq_some (Except.ok.inj h)))
  next =>
    split at h
    next => cases h
    next shortID _ =>
      split at h
      next => cases h
      next =>
        rcases readServer_eq_some (Except.ok.inj h) with hunmatched | ⟨targetP, hserver, heq⟩
        · exact .inl hunmatched
        · exact .inr (.inr ⟨targetP, shortID, hserver, heq⟩)

theorem secObjInstID_of_read
    (h : readSecurityInstance securityObjP serverObjP turn = .ok (some newServer))
    (htarget : newServer.linked = some targetP) :
    targetP.secObjInstID = turn.id := by
  rcases readSecurityInstance_eq_some h with rfl | ⟨_, rfl, heq⟩ | ⟨_, _, rfl, heq⟩
  · cases htarget
  · cases htarget
    exact congrArg Server.secObjInstID heq
  · cases htarget
    exact congrArg Server.secObjInstID heq

variable (securityObjP serverObjP)

/-- The turn of a new instance ends with a server that is linked. -/
def Links (turn : SecurityTurn) : Prop :=
  ∃ newServer, readSecurityInstance securityObjP serverObjP turn = .ok (some newServer) ∧
    newServer.linked.isSome

/-- At its turn, behind the turns `before`, the instance has no entry in the lists. -/
def IsTaken (lists : ServerLists) (before : List SecurityTurn) (turn : SecurityTurn) : Prop :=
  ¬ lists.Finds turn.id ∧ ∀ t ∈ before, t.id = turn.id → ¬ Links securityObjP serverObjP t

/-- No turn fails. -/
def Passed (lists : ServerLists) (turns : List SecurityTurn) : Prop :=
  ∀ before turn after, turns = before ++ turn :: after →
    IsTaken securityObjP serverObjP lists before turn →
    ∃ newServer, readSecurityInstance securityObjP serverObjP turn = .ok (some newServer)

/-- One of the turns links a server. -/
def SomeLinks (lists : ServerLists) (turns : List SecurityTurn) : Prop :=
  ∃ turn ∈ turns, ¬ lists.Finds turn.id ∧ Links securityObjP serverObjP turn

/-- An instance links a server in front of the first one whose turn fails. -/
def LinksThenFails (lists : ServerLists) (turns : List SecurityTurn) : Prop :=
  ∃ before turn after, turns = before ++ turn :: after ∧
    Passed securityObjP serverObjP lists before ∧
    SomeLinks securityObjP serverObjP lists before ∧
    IsTaken securityObjP serverObjP lists before turn ∧
    readSecurityInstance securityObjP serverObjP turn = .ok none

end turn

namespace ServerLists

/-- The lists are the same; only the number of allocations may differ. -/
def Same (lists lists' : ServerLists) : Prop :=
  lists'.bootstrapServerList = lists.bootstrapServerList ∧ lists'.serverList = lists.serverList

/-- The number of entries. -/
def entries (lists : ServerLists) : ℕ := lists.bootstrapServerList.length + lists.serverList.length

variable {lists lists' lists'' : ServerLists}

theorem Same.refl (lists : ServerLists) : lists.Same lists := ⟨rfl, rfl⟩

theorem Same.trans (h : lists.Same lists') (h' : lists'.Same lists'') : lists.Same lists'' :=
  ⟨h'.1.trans h.1, h'.2.trans h.2⟩

theorem Same.finds_iff (h : lists.Same lists') (instanceId : UInt16) :
    lists'.Finds instanceId ↔ lists.Finds instanceId := by
  unfold Finds
  rw [h.1, h.2]

theorem Same.entries_eq (h : lists.Same lists') : lists'.entries = lists.entries := by
  unfold entries
  rw [h.1, h.2]

/-- When the lists are only checked, they stay the same. -/
theorem same_keep_checkOnly (newServer : NewServer) : lists.Same (lists.keep true newServer) := by
  cases newServer <;> exact .refl lists

/-- A server that is freed leaves the lists the same. -/
theorem same_keep_of_not_linked (h : newServer.linked = none) :
    lists.Same (lists.keep false newServer) := by
  cases newServer with
  | unmatched => exact .refl lists
  | bootstrap | server => cases h

/-- A server that is linked is one more entry. -/
theorem keep_linked (h : newServer.linked = some targetP)
    (hnew : ¬ lists.Finds targetP.secObjInstID) :
    (lists.keep false newServer).entries = lists.entries + 1 ∧ ∀ instanceId,
      (lists.keep false newServer).Finds instanceId ↔
        instanceId = targetP.secObjInstID ∨ lists.Finds instanceId := by
  obtain ⟨hbootstrap, hserver⟩ := not_or.mp hnew
  rw [Option.not_isSome_iff_eq_none] at hbootstrap hserver
  cases newServer with
  | unmatched => cases h
  | bootstrap =>
    cases h
    refine ⟨?_, fun instanceId => ?_⟩
    · change (listAdd nodeId _ lists.bootstrapServerList).length + lists.serverList.length = _
      rw [length_listAdd, entries]
      omega
    · change (listFind nodeId (listAdd nodeId _ lists.bootstrapServerList) instanceId).isSome ∨
        _ ↔ _
      rw [listFind_listAdd (lists.place _) hbootstrap]
      split_ifs with hid
      · exact iff_of_true (.inl rfl) (.inl hid)
      · exact (or_iff_right hid).symm
  | server =>
    cases h
    refine ⟨?_, fun instanceId => ?_⟩
    · change lists.bootstrapServerList.length + (listAdd nodeId _ lists.serverList).length = _
      rw [length_listAdd, entries]
      omega
    · change _ ∨ (listFind nodeId (listAdd nodeId _ lists.serverList) instanceId).isSome ↔ _
      rw [listFind_listAdd (lists.place _) hserver]
      split_ifs with hid
      · exact iff_of_true (.inr rfl) (.inl hid)
      · exact (or_iff_right hid).symm

/-! ### The turns before one -/

variable {checkOnly : Bool} {result : ℤ}

section loop

variable {securityObjP : ReadableObject} {serverObjP : Option ReadableObject}
  {before next : List SecurityTurn} {turn : SecurityTurn}

/-- What the turns that pass leave. -/
structure Reaches (securityObjP : ReadableObject) (serverObjP : Option ReadableObject)
    (lists : ServerLists) (before : List SecurityTurn) (lists' : ServerLists) : Prop where
  run : ∀ next, lists.getServersLoop securityObjP serverObjP false (before ++ next) =
    lists'.getServersLoop securityObjP serverObjP false next
  finds : ∀ instanceId, lists'.Finds instanceId ↔
    lists.Finds instanceId ∨ ∃ t ∈ before, t.id = instanceId ∧ Links securityObjP serverObjP t
  same : ¬ SomeLinks securityObjP serverObjP lists before → lists.Same lists'
  grows : lists.entries ≤ lists'.entries
  links : SomeLinks securityObjP serverObjP lists before → lists.entries < lists'.entries

/-- The instance is due when the loop reaches it without an entry. -/
theorem Reaches.due_iff (h : Reaches securityObjP serverObjP lists before lists') :
    IsTaken securityObjP serverObjP lists before turn ↔ ¬ lists'.Finds turn.id := by
  rw [h.finds, not_or, IsTaken]
  refine and_congr_right' ⟨fun hall => ?_, fun hnone t ht hid hlinks => hnone ⟨t, ht, hid, hlinks⟩⟩
  rintro ⟨t, ht, hid, hlinks⟩
  exact hall t ht hid hlinks

theorem getServersLoop_cons_of_finds (h : lists.Finds turn.id) :
    lists.getServersLoop securityObjP serverObjP checkOnly (turn :: next) =
      lists.getServersLoop securityObjP serverObjP checkOnly next :=
  if_pos h

theorem getServersLoop_cons_of_read (h : ¬ lists.Finds turn.id)
    (hread : readSecurityInstance securityObjP serverObjP turn = .ok (some newServer)) :
    lists.getServersLoop securityObjP serverObjP checkOnly (turn :: next) =
      (lists.keep checkOnly newServer).getServersLoop securityObjP serverObjP checkOnly next := by
  rw [getServersLoop, if_neg h, hread]
  rfl

/-- A turn that fails ends the loop. -/
theorem getServersLoop_cons_of_failed (h : ¬ lists.Finds turn.id)
    (hread : readSecurityInstance securityObjP serverObjP turn = .ok none) :
    lists.getServersLoop securityObjP serverObjP checkOnly (turn :: next) = .ok (lists, -1) := by
  rw [getServersLoop, if_neg h, hread]
  rfl

/-- **One more turn that passes.** -/
theorem Reaches.snoc (h : Reaches securityObjP serverObjP lists before lists')
    (hpassed : IsTaken securityObjP serverObjP lists before turn →
      ∃ newServer, readSecurityInstance securityObjP serverObjP turn = .ok (some newServer)) :
    ∃ lists'', Reaches securityObjP serverObjP lists (before ++ [turn]) lists'' := by
  have hsome : SomeLinks securityObjP serverObjP lists (before ++ [turn]) ↔
      SomeLinks securityObjP serverObjP lists before ∨
        ¬ lists.Finds turn.id ∧ Links securityObjP serverObjP turn := by
    unfold SomeLinks
    simp only [List.mem_append, List.mem_singleton, or_and_right, exists_or, exists_eq_left]
  have hfinds (instanceId : UInt16) :
      (lists.Finds instanceId ∨
          ∃ t ∈ before ++ [turn], t.id = instanceId ∧ Links securityObjP serverObjP t) ↔
        lists'.Finds instanceId ∨ turn.id = instanceId ∧ Links securityObjP serverObjP turn := by
    rw [h.finds, or_assoc]
    simp only [List.mem_append, List.mem_singleton, or_and_right, exists_or, exists_eq_left]
  have happend (next : List SecurityTurn) : before ++ [turn] ++ next = before ++ turn :: next :=
    List.append_assoc ..
  by_cases hfound : lists'.Finds turn.id
  · -- the instance has an entry: the lists stay the same
    refine ⟨lists', fun next => ?_, fun instanceId => ?_, fun hnone => ?_, h.grows,
      fun hlinks => ?_⟩
    · rw [happend, h.run, getServersLoop_cons_of_finds hfound]
    · rw [hfinds]
      exact ⟨.inl, fun h => h.elim id fun h => h.1 ▸ hfound⟩
    · exact h.same fun hbefore => hnone (hsome.mpr (.inl hbefore))
    · refine h.links ((hsome.mp hlinks).elim id fun hturn => ?_)
      obtain ⟨t, ht, hid, hlinks⟩ := ((h.finds turn.id).mp hfound).resolve_left hturn.1
      exact ⟨t, ht, hid ▸ hturn.1, hlinks⟩
  obtain ⟨newServer, hread⟩ := hpassed (h.due_iff.mpr hfound)
  have hnew : ¬ lists.Finds turn.id := fun hfinds => hfound ((h.finds _).mpr (.inl hfinds))
  have hrun (next : List SecurityTurn) :
      lists.getServersLoop securityObjP serverObjP false (before ++ [turn] ++ next) =
        (lists'.keep false newServer).getServersLoop securityObjP serverObjP false next := by
    rw [happend, h.run, getServersLoop_cons_of_read hfound hread]
  cases hlinked : newServer.linked with
  | none =>
    have hturn : ¬ Links securityObjP serverObjP turn := by
      rintro ⟨newServer', hread', hsome⟩
      rw [hread] at hread'
      cases hread'
      rw [hlinked] at hsome
      cases hsome
    have hkept := @same_keep_of_not_linked _ lists' hlinked
    refine ⟨_, hrun, fun instanceId => ?_, fun hnone => ?_, ?_, fun hlinks => ?_⟩
    · rw [hfinds, hkept.finds_iff]
      exact (or_iff_left fun h => hturn h.2).symm
    · exact (h.same fun hbefore => hnone (hsome.mpr (.inl hbefore))).trans hkept
    · exact hkept.entries_eq ▸ h.grows
    · exact hkept.entries_eq ▸ h.links ((hsome.mp hlinks).resolve_right fun h => hturn h.2)
  | some targetP =>
    have hid := secObjInstID_of_read hread hlinked
    have hturn : Links securityObjP serverObjP turn := ⟨newServer, hread, by rw [hlinked]; rfl⟩
    obtain ⟨hentries, hkept⟩ := @keep_linked _ _ lists' hlinked (hid ▸ hfound)
    have hgrows := h.grows
    refine ⟨_, hrun, fun instanceId => ?_, fun hnone => ?_, by omega, fun _ => by omega⟩
    · rw [hfinds, hkept, hid, or_comm]
      exact or_congr_right ⟨fun h => ⟨h.symm, hturn⟩, fun h => h.1.symm⟩
    · exact absurd (hsome.mpr (.inr ⟨hnew, hturn⟩)) hnone

/-- **Turns that pass** leave the lists the same unless one of them links a server. -/
theorem exists_reaches (h : Passed securityObjP serverObjP lists before) :
    ∃ lists', Reaches securityObjP serverObjP lists before lists' := by
  induction before using List.reverseRecOn with
  | nil =>
    refine ⟨lists, fun _ => rfl, fun _ => ?_, fun _ => .refl lists, le_rfl, ?_⟩
    · simp only [List.not_mem_nil, false_and, exists_false, or_false]
    · rintro ⟨t, ht, _⟩
      cases ht
  | append_singleton before turn ih =>
    obtain ⟨lists', hreaches⟩ := ih fun pre t post hsplit => h pre t (post ++ [turn]) (by
      rw [hsplit, List.append_assoc, List.cons_append])
    exact hreaches.snoc (h before turn [] rfl)

/-- Either every turn passes, or there is a first one that does not. -/
theorem passed_or (lists : ServerLists) (turns : List SecurityTurn) :
    Passed securityObjP serverObjP lists turns ∨ ∃ before turn after,
      turns = before ++ turn :: after ∧ Passed securityObjP serverObjP lists before ∧
        IsTaken securityObjP serverObjP lists before turn ∧
        ∀ newServer, readSecurityInstance securityObjP serverObjP turn ≠ .ok (some newServer) := by
  induction turns using List.reverseRecOn with
  | nil =>
    refine .inl fun before turn after hsplit => ?_
    exact absurd hsplit.symm (List.append_ne_nil_of_right_ne_nil _ (List.cons_ne_nil _ _))
  | append_singleton turns last ih =>
    rcases ih with hpassed | ⟨before, turn, after, hsplit, hpassed, hdue, hstops⟩
    · by_cases hlast : IsTaken securityObjP serverObjP lists turns last →
          ∃ newServer, readSecurityInstance securityObjP serverObjP last = .ok (some newServer)
      · refine .inl fun before turn after hsplit hdue => ?_
        rcases List.eq_nil_or_concat after with rfl | ⟨after', last', rfl⟩
        · obtain ⟨rfl, hturn⟩ := List.append_inj' hsplit rfl
          cases hturn
          exact hlast hdue
        · rw [List.concat_eq_append, ← List.cons_append, ← List.append_assoc] at hsplit
          exact hpassed before turn after' (List.append_inj' hsplit rfl).1 hdue
      · push Not at hlast
        exact .inr ⟨turns, last, [], rfl, hpassed, hlast.1, hlast.2⟩
    · refine .inr ⟨before, turn, after ++ [last], ?_, hpassed, hdue, hstops⟩
      rw [hsplit, List.append_assoc, List.cons_append]

/-- When the lists are only checked, the loop leaves them the same. -/
theorem same_of_checkOnly {turns : List SecurityTurn}
    (h : lists.getServersLoop securityObjP serverObjP true turns = .ok (lists', result)) :
    lists.Same lists' := by
  induction turns generalizing lists with
  | nil =>
    cases h
    exact .refl _
  | cons turn next ih =>
    by_cases hfound : lists.Finds turn.id
    · rw [getServersLoop_cons_of_finds hfound] at h
      exact ih h
    · cases hread : readSecurityInstance securityObjP serverObjP turn with
      | error fault =>
        rw [getServersLoop, if_neg hfound, hread] at h
        cases h
      | ok newServer =>
        cases newServer with
        | none =>
          rw [getServersLoop_cons_of_failed hfound hread] at h
          cases h
          exact .refl _
        | some newServer =>
          rw [getServersLoop_cons_of_read hfound hread] at h
          exact (same_keep_checkOnly newServer).trans (ih h)

/-- **When the loop is atomic**: unless a server is linked in front of the turn that fails. -/
theorem getServersLoop_atomic_iff (turns : List SecurityTurn) :
    (∀ lists' result,
        lists.getServersLoop securityObjP serverObjP false turns = .ok (lists', result) →
          result ≠ 0 → lists.Same lists') ↔
      ¬ LinksThenFails securityObjP serverObjP lists turns := by
  constructor
  · rintro hatomic ⟨before, turn, after, rfl, hpassed, hlinks, hdue, hfailed⟩
    obtain ⟨lists', hreaches⟩ := exists_reaches hpassed
    have hrun := (hreaches.run (turn :: after)).trans
      (getServersLoop_cons_of_failed (hreaches.due_iff.mp hdue) hfailed)
    exact (hreaches.links hlinks).ne' (hatomic _ _ hrun (by decide)).entries_eq
  · intro hnot lists' result hrun herror
    rcases @passed_or securityObjP serverObjP lists turns with
      hpassed | ⟨before, turn, after, rfl, hpassed, hdue, hstops⟩
    · obtain ⟨lists'', hreaches⟩ := exists_reaches hpassed
      have hend := hreaches.run []
      rw [List.append_nil, hrun] at hend
      cases hend
      exact absurd rfl herror
    · obtain ⟨lists'', hreaches⟩ := exists_reaches hpassed
      have hnew := hreaches.due_iff.mp hdue
      rw [hreaches.run] at hrun
      cases hread : readSecurityInstance securityObjP serverObjP turn with
      | error fault =>
        rw [getServersLoop, if_neg hnew, hread] at hrun
        cases hrun
      | ok newServer =>
        cases newServer with
        | some newServer => exact absurd hread (hstops newServer)
        | none =>
          rw [getServersLoop_cons_of_failed hnew hread] at hrun
          cases hrun
          exact hreaches.same fun hlinks =>
            hnot ⟨before, turn, after, rfl, hpassed, hlinks, hdue, hread⟩

end loop

/-! ### The call -/

/-- A call that returns an error or only checks leaves both lists as they were. -/
def Atomic (lists : ServerLists) (objectList : List ReadableObject) (malloc : ℕ → ℕ → Bool)
    (checkOnly : Bool) : Prop :=
  ∀ lists' result, lists.objectGetServers objectList malloc checkOnly = .ok (lists', result) →
    result ≠ 0 ∨ checkOnly = true → lists.Same lists'

/-- **When the call is atomic**: unless it is to change the lists, and an instance of the Security
object links a server in front of the first one whose turn fails. -/
theorem objectGetServers_atomic_iff (lists : ServerLists) (objectList : List ReadableObject)
    (malloc : ℕ → ℕ → Bool) (checkOnly : Bool) :
    lists.Atomic objectList malloc checkOnly ↔
      ¬ (checkOnly = false ∧ ∃ securityObjP, findObject objectList 0 = some securityObjP ∧
        LinksThenFails securityObjP (findObject objectList 1) lists
          (securityTurns securityObjP malloc)) := by
  unfold Atomic objectGetServers
  cases findObject objectList 0 with
  | none =>
    refine iff_of_true (fun lists' result hrun _ => ?_) ?_
    · cases hrun
      exact .refl lists
    · rintro ⟨_, _, hsome, _⟩
      cases hsome
  | some securityObjP =>
    cases checkOnly with
    | true =>
      refine iff_of_true (fun lists' result hrun _ => same_of_checkOnly hrun) ?_
      rintro ⟨hfalse, _⟩
      cases hfalse
    | false =>
      simp only [true_and, Option.some.injEq, exists_eq_left', Bool.false_eq_true, or_false]
      exact getServersLoop_atomic_iff _

/-- **A bootstrap server in front of an instance that cannot be read** stays in its list. -/
theorem unreadableInstance_fails : ¬ ∀ (lists : ServerLists) (objectList : List ReadableObject)
    (malloc : ℕ → ℕ → Bool) (checkOnly : Bool), lists.Atomic objectList malloc checkOnly := by
  intro h
  let readFunc (instanceId : UInt16) (ids : List UInt16) : Code × List Leaf :=
    if instanceId = 0 then (coap205Content, [if ids = [1] then .boolean true else .integer 5])
    else (coap404NotFound, [])
  have hsame := h {} [{ objID := 0, instanceList := [0, 1], readFunc }] (fun _ _ => true) false
    { bootstrapServerList :=
        [{ ref := 0, secObjInstID := 0, shortID := 0, lifetime := 5, servObjInstID := lwm2mMaxId }]
      allocated := 1 } (-1) (by rfl) (.inl (by decide))
  cases hsame.1

/-! ### Servers by their identifiers -/

/-- What `SecurityRead` keeps of a turn. -/
def securityRead (securityObjP : ReadableObject) (serverObjP : Option ReadableObject)
    (turn : SecurityTurn) : SecurityRead :=
  match readSecurityInstance securityObjP serverObjP turn with
  | .error _ | .ok none => .failed
  | .ok (some .unmatched) => .unmatched
  | .ok (some (.bootstrap _)) => .bootstrap
  | .ok (some (.server targetP)) => .server targetP.shortID

/-- A context with the lists, as `Servers` sees them. -/
def onto (contextP : Context) (lists : ServerLists) : Context :=
  { contextP with
    bootstrapServerList := lists.bootstrapServerList.map ServerEntry.toServer
    serverList := lists.serverList.map ServerEntry.toServer
    allocated := lists.allocated }

section onto

variable {contextP : Context} {lists : ServerLists} {securityObjP : ReadableObject}
  {serverObjP : Option ReadableObject}

theorem listFind_toServer (l : List ServerEntry) (instanceId : UInt16) :
    (listFind Server.secObjInstID (l.map ServerEntry.toServer) instanceId).isNone =
      (listFind nodeId l instanceId).isNone := by
  induction l with
  | nil => rfl
  | cons head tail ih =>
    rw [List.map_cons, listFind_cons, listFind_cons, nodeId]
    split_ifs
    · exact ih
    · rfl
    · rfl

theorem listAdd_toServer (targetP : ServerEntry) (l : List ServerEntry) :
    (listAdd nodeId targetP l).map ServerEntry.toServer =
      listAdd Server.secObjInstID targetP.toServer (l.map ServerEntry.toServer) := by
  cases l with
  | nil => rfl
  | cons head tail =>
    rw [listAdd, List.map_cons, listAdd]
    unfold nodeId
    split_ifs
    · rfl
    · rw [List.map_append, List.map_cons, List.map_cons, List.takeWhile_map, List.dropWhile_map]
      rfl

theorem finds_iff_onto (instanceId : UInt16) :
    ((listFind Server.secObjInstID (onto contextP lists).bootstrapServerList instanceId).isNone ∧
        (listFind Server.secObjInstID (onto contextP lists).serverList instanceId).isNone) ↔
      ¬ lists.Finds instanceId := by
  unfold onto Finds
  rw [listFind_toServer, listFind_toServer, not_or, Option.not_isSome_iff_eq_none,
    Option.not_isSome_iff_eq_none, Option.isNone_iff_eq_none, Option.isNone_iff_eq_none]

variable {server : Server} {lists' : ServerLists}

/-- A bootstrap server is linked in both. -/
theorem onto_keep_bootstrap (h : (lists.place targetP).toServer = server) :
    onto contextP (lists.keep false (.bootstrap targetP)) =
      { onto contextP lists with
        allocated := lists.allocated + 1
        bootstrapServerList :=
          listAdd Server.secObjInstID server (onto contextP lists).bootstrapServerList } := by
  have hlist := listAdd_toServer (lists.place targetP) lists.bootstrapServerList
  rw [h] at hlist
  exact congrArg (fun l => { onto contextP lists with
    allocated := lists.allocated + 1
    bootstrapServerList := l }) hlist

/-- A server is linked in both. -/
theorem onto_keep_server (h : (lists.place targetP).toServer = server) :
    onto contextP (lists.keep false (.server targetP)) =
      { onto contextP lists with
        allocated := lists.allocated + 1
        serverList := listAdd Server.secObjInstID server (onto contextP lists).serverList } := by
  have hlist := listAdd_toServer (lists.place targetP) lists.serverList
  rw [h] at hlist
  exact congrArg (fun l => { onto contextP lists with
    allocated := lists.allocated + 1
    serverList := l }) hlist

/-- **The loop refines that of `Servers`.** -/
theorem getServersLoop_refines (turns : List SecurityTurn)
    (h : lists.getServersLoop securityObjP serverObjP checkOnly turns = .ok (lists', result)) :
    Core.getServersLoop checkOnly (onto contextP lists)
        (turns.map fun turn => (turn.id, securityRead securityObjP serverObjP turn)) =
      (onto contextP lists', result) := by
  induction turns generalizing lists with
  | nil =>
    cases h
    rfl
  | cons turn next ih =>
    rw [List.map_cons, Core.getServersLoop]
    by_cases hfound : lists.Finds turn.id
    · rw [getServersLoop_cons_of_finds hfound] at h
      rw [if_neg (mt (finds_iff_onto _).mp (not_not.mpr hfound))]
      exact ih h
    · rw [if_pos ((finds_iff_onto _).mpr hfound)]
      cases hread : readSecurityInstance securityObjP serverObjP turn with
      | error fault =>
        rw [getServersLoop, if_neg hfound, hread] at h
        cases h
      | ok newServer =>
        cases newServer with
        | none =>
          rw [getServersLoop_cons_of_failed hfound hread] at h
          cases h
          rw [securityRead, hread]
        | some newServer =>
          rw [getServersLoop_cons_of_read hfound hread] at h
          have hrest := ih h
          rw [securityRead, hread]
          rcases readSecurityInstance_eq_some hread with
            rfl | ⟨targetP, rfl, hserver⟩ | ⟨targetP, shortID, rfl, hserver⟩
          · exact hrest
          · cases checkOnly with
            | true => exact hrest
            | false =>
              have hplace : (lists.place targetP).toServer =
                  { ref := lists.allocated, secObjInstID := turn.id, shortID := 0 } :=
                congrArg (fun server : Server => { server with ref := lists.allocated }) hserver
              rw [onto_keep_bootstrap hplace] at hrest
              exact hrest
          · cases checkOnly with
            | true => exact hrest
            | false =>
              have hplace : (lists.place targetP).toServer =
                  { ref := lists.allocated, secObjInstID := turn.id, shortID := targetP.shortID } :=
                (congrArg (fun server : Server => { server with ref := lists.allocated })
                  hserver).trans (by rw [congrArg Server.shortID hserver])
              rw [onto_keep_server hplace] at hrest
              exact hrest

/-- **The call refines that of `Servers`**: with a server seen by its identifiers only, a call that
does not fault does what `objectGetServers` does. -/
theorem objectGetServers_refines {objectList : List ReadableObject} {malloc : ℕ → ℕ → Bool}
    (h : lists.objectGetServers objectList malloc checkOnly = .ok (lists', result)) :
    Core.objectGetServers (onto contextP lists)
        ((findObject objectList 0).map fun securityObjP =>
          (securityTurns securityObjP malloc).map fun turn =>
            (turn.id, securityRead securityObjP (findObject objectList 1) turn)) checkOnly =
      (onto contextP lists', result) := by
  unfold objectGetServers at h
  cases hsecurity : findObject objectList 0 with
  | none =>
    rw [hsecurity] at h
    cases h
    rfl
  | some securityObjP =>
    rw [hsecurity] at h
    exact getServersLoop_refines _ h

/-- A bootstrap server is listed. -/
theorem bootstrapInstance_refines : Core.objectGetServers {} (some [(0, .bootstrap)]) false =
    ({ bootstrapServerList := [{ ref := 0, secObjInstID := 0, shortID := 0 }], allocated := 1 },
      0) := by
  have h : objectGetServers {} [{ objID := 0, instanceList := [0], readFunc := fun _ ids =>
      (coap205Content, [if ids = [1] then .boolean true else .integer 5]) }]
      (fun _ _ => true) false = .ok (_, 0) := rfl
  exact (objectGetServers_refines h : Core.objectGetServers (onto {} {}) _ _ = _)

end onto

end ServerLists

end Lwm2m.Core

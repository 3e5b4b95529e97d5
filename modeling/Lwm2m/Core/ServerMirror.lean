/-
# The server list and the Server Object

The engine keeps the lifetime and the binding of every server in `serverList`, beside the instance
of the Server Object that they were read from.  `object_write` brings them up to date after a write
to the Server Object: `prv_updateServerInfo` reads the Short Server ID of the instance that was
written, and fills in the first server with that identifier.  This is the server of the instance
only as long as a write leaves the identifiers as they are; `serverWrites_mirrored_iff` says when
every server of the list still has what its own instance reads.
-/

import Lwm2m.Core.BindingText
import Lwm2m.Core.ReadBack
import Lwm2m.Library.Focus

namespace Lwm2m.Core

open Code Library Library.Memory

/-! ### The write -/

/-- `LWM2M_SERVER_SHORT_ID_ID`. -/
def serverShortIdId : UInt16 := 0
/-- `LWM2M_SERVER_LIFETIME_ID`. -/
def serverLifetimeId : UInt16 := 1
/-- `LWM2M_SERVER_BINDING_ID`. -/
def serverBindingId : UInt16 := 7

/-- What the updates use of `lwm2m_server_t`. -/
structure MirrorServer where
  shortID : UInt16
  servObjInstID : UInt16
  lifetime : ℤ
  binding : UInt8
  deriving DecidableEq, Repr

/-- What a write to the Server Object uses of `lwm2m_context_t`: the memory and the instances of the
object, and the servers. -/
structure MirrorContext where
  memory : Heap
  instanceList : List (ListNode ServerInstance)
  serverList : List MirrorServer

/-- A write to the Server Object.  `parsed` is the array of `lwm2m_data_parse`, or `none` when it
returns a negative size. -/
structure ServerWrite where
  uriP : Uri
  parsed : Option (List Data)
  objectId_eq : uriP.objectId = lwm2mServerObjectId

/-- `lwm2m_data_decode_int` of a value that a read returns. -/
def decodeReadInt : ResourceValue → Option ℤ
  | .integer value => some value
  | _ => none

/-- `prv_getMandatoryInfo`, with what it returns. -/
def prvGetMandatoryInfo (instanceList : List (ListNode ServerInstance)) (instanceID : UInt16)
    (targetP : MirrorServer) : Except Fault (MirrorServer × ℤ) := do
  match ← serverRead instanceList instanceID [serverLifetimeId, serverBindingId] with
  | .ok [lifetime, binding] =>
    match decodeReadInt lifetime with
    | none => pure (targetP, -1)
    | some value =>
      if value < 0 ∨ value > 0xFFFFFFFF then pure (targetP, -1)
      else
        -- The lifetime stays set when the binding turns out to be unknown.
        let binding :=
          match binding with
          | .string text => utilsStringToBinding text
          | _ => bindingUnknown
        pure ({ targetP with lifetime := value, binding },
          if binding = bindingUnknown then -1 else 0)
  | _ => pure (targetP, -1)

/-- `prv_getServerShortId`. -/
def prvGetServerShortId (instanceList : List (ListNode ServerInstance)) (instanceId : UInt16) :
    Except Fault UInt16 := do
  match ← serverRead instanceList instanceId [serverShortIdId] with
  | .ok [shortId] =>
    let value := (decodeReadInt shortId).getD 0
    pure (if value < 0 ∨ value > 0xFFFF then 0 else UInt16.ofNat value.toNat)
  | _ => pure 0

/-- The search of `prv_updateServerInfo`: the first server with the Short Server ID, which is
not 0. -/
def findServer (serverId : UInt16) (serverList : List MirrorServer) :
    Option (Focus MirrorServer) :=
  if serverId = 0 then none else focusFirst (·.shortID == serverId) serverList

/-- `prv_updateServerInfo`. -/
def prvUpdateServerInfo (contextP : MirrorContext) (instanceId : UInt16) :
    Except Fault MirrorContext := do
  let serverId ← prvGetServerShortId contextP.instanceList instanceId
  match findServer serverId contextP.serverList with
  | none => pure contextP
  | some serverP => do
    let (targetP, _) ← prvGetMandatoryInfo contextP.instanceList instanceId serverP.here
    pure { contextP with serverList := serverP.set targetP }

/-- The array that `object_write` hands to the write callback. -/
def ServerWrite.items (write : ServerWrite) : List Data :=
  if write.uriP.isSetResourceInstance then
    [.mk write.uriP.resourceId .multipleResource [] (write.parsed.getD [])]
  else write.parsed.getD []

/-- `object_write` on the Server Object, whose write callback does not look at the type of the
write. -/
def serverObjectWrite (d : Decoders) (contextP : MirrorContext) (write : ServerWrite) :
    Except Fault (MirrorContext × Code) :=
  if ¬ write.uriP.isSetInstance then .ok (contextP, coap400BadRequest)
  else if write.parsed.getD [] = [] then .ok (contextP, coap406NotAcceptable)
  else do
    let (memory, instanceList, result) ← (serverObject d).write contextP.memory
      contextP.instanceList write.uriP.instanceId write.items
    let contextP := { contextP with memory, instanceList }
    if result = coap204Changed then
      let contextP ← prvUpdateServerInfo contextP write.uriP.instanceId
      pure (contextP, result)
    else pure (contextP, result)

/-- A write that is accepted. -/
def AcceptedWrite (d : Decoders) (contextP : MirrorContext) (write : ServerWrite)
    (contextP' : MirrorContext) : Prop :=
  serverObjectWrite d contextP write = .ok (contextP', coap204Changed)

/-! ### What the server list is to say -/

/-- The server has the lifetime and the binding that its own instance reads. -/
def Mirrors (instanceList : List (ListNode ServerInstance)) (server : MirrorServer) : Prop :=
  ∃ text, serverRead instanceList server.servObjInstID [serverLifetimeId, serverBindingId] =
      .ok (.ok [.integer server.lifetime, .string text]) ∧
    utilsStringToBinding text = server.binding

/-- **What a write is to do**: behind it every server has what its own instance reads, and the
servers of other instances are as they were. -/
def WriteMirrored (contextP : MirrorContext) (write : ServerWrite) (contextP' : MirrorContext) :
    Prop :=
  List.Forall₂ (fun server server' =>
    Mirrors contextP'.instanceList server' ∧
      (server.servObjInstID ≠ write.uriP.instanceId → server' = server))
    contextP.serverList contextP'.serverList

/-- The instance reads, once the items are accepted, the lifetime and the binding that the server
has already. -/
def LeavesInfo (d : Decoders) (targetP : ServerInstance) (items : List Data)
    (server : MirrorServer) : Prop :=
  ∃ text, ServerInstance.readsAfter d targetP items serverLifetimeId =
      .ok (.ok (.integer server.lifetime)) ∧
    ServerInstance.readsAfter d targetP items serverBindingId = .ok (.ok (.string text)) ∧
    utilsStringToBinding text = server.binding

/-- **The Short Server ID leads to the server of the instance**: the server that has the identifier
which the items leave is the one of the instance.  It may be another one, or none, where the server
that is left out or filled in by mistake has the lifetime and the binding already. -/
def LeadsHome (d : Decoders) (contextP : MirrorContext) (write : ServerWrite) : Prop :=
  ∀ targetP, listFind ListNode.id contextP.instanceList write.uriP.instanceId = some targetP →
    ∀ shortId : UInt16, ServerInstance.readsAfter d targetP.fields write.items serverShortIdId =
      .ok (.ok (.integer shortId.toNat)) →
    match findServer shortId contextP.serverList with
    | none => ∀ server ∈ contextP.serverList, server.servObjInstID = write.uriP.instanceId →
        LeavesInfo d targetP.fields write.items server
    | some serverP =>
      (serverP.here.servObjInstID ≠ write.uriP.instanceId →
          LeavesInfo d targetP.fields write.items serverP.here) ∧
        ∀ server ∈ serverP.unlink, server.servObjInstID = write.uriP.instanceId →
          LeavesInfo d targetP.fields write.items server

/-- Every write of a sequence has a property, in the state that the writes before it leave. -/
def EveryWrite (d : Decoders) (P : MirrorContext → ServerWrite → MirrorContext → Prop) :
    MirrorContext → List ServerWrite → Prop
  | _, [] => True
  | contextP, write :: writes => ∀ contextP', AcceptedWrite d contextP write contextP' →
      P contextP write contextP' ∧ EveryWrite d P contextP' writes

section

variable {d : Decoders} {contextP contextP' : MirrorContext} {write : ServerWrite}
  {l l' before after : List (ListNode ServerInstance)} {n : ListNode ServerInstance}
  {x x' : ServerInstance} {server : MirrorServer} {items : List Data} {key : UInt16}
  {P Q : MirrorContext → ServerWrite → MirrorContext → Prop} {writes : List ServerWrite}

/-! ### What is read behind a write -/

variable {f : UInt16 → Except Fault (Except Code ResourceValue)} {targetP : MirrorServer}
  {result : ℤ}

/-- A read of several resources. -/
theorem readItems_cons {id : UInt16} {next : List UInt16} {v : ResourceValue}
    {values : List ResourceValue} :
    readItems f (id :: next) = .ok (.ok (v :: values)) ↔
      f id = .ok (.ok v) ∧ readItems f next = .ok (.ok values) := by
  rw [readItems]
  generalize f id = first
  generalize readItems f next = rest
  constructor
  · intro h
    rcases first with _ | _ | _
    · cases h
    · cases h
    · rcases rest with _ | _ | _ <;> cases h
      exact ⟨rfl, rfl⟩
  · rintro ⟨rfl, rfl⟩
    rfl

theorem readItems_nil :
    readItems f [] = .ok (.ok []) := rfl

/-- What the instance of a server reads is what the server has. -/
theorem mirrors_iff (hfind : listFind ListNode.id l server.servObjInstID = some n)
    (hreads : n.fields.getValue = ServerInstance.readsAfter d x items) :
    Mirrors l server ↔ LeavesInfo d x items server := by
  unfold Mirrors LeavesInfo serverRead readInstance
  rw [hfind, ← hreads, if_neg (List.cons_ne_nil _ _)]
  simp only [readItems_cons, readItems_nil, true_and, and_assoc]

/-- Servers whose instances are found alike. -/
theorem mirrors_congr (h : listFind ListNode.id l' server.servObjInstID =
    listFind ListNode.id l server.servObjInstID) : Mirrors l' server ↔ Mirrors l server := by
  unfold Mirrors serverRead readInstance
  rw [h]

/-- The lifetime and the binding that `prv_getMandatoryInfo` fills in are those of the
instance. -/
theorem prvGetMandatoryInfo_eq_ok (hfind : listFind ListNode.id l key = some n)
    (h : prvGetMandatoryInfo l key server = .ok (targetP, result)) :
    ∃ text, n.fields.getValue serverBindingId = .ok (.ok (.string text)) ∧
      targetP = { server with
        lifetime := n.fields.lifetime.toNat
        binding := utilsStringToBinding text } := by
  obtain ⟨read, hread, h⟩ := bind_eq_ok_iff.mp h
  unfold serverRead readInstance at hread
  rw [hfind] at hread
  change readItems n.fields.getValue [serverLifetimeId, serverBindingId] = .ok read at hread
  obtain ⟨lifetime, hlifetime, hread⟩ := bind_eq_ok_iff.mp hread
  cases hlifetime
  obtain ⟨rest, hrest, hread⟩ := bind_eq_ok_iff.mp hread
  obtain ⟨binding, hbinding, hrest⟩ := bind_eq_ok_iff.mp hrest
  obtain ⟨text, htext, hstring⟩ := bind_eq_ok_iff.mp hbinding
  cases hstring
  cases hrest
  cases hread
  refine ⟨text, hbinding, ?_⟩
  have hlt := n.fields.lifetime.toNat_lt
  dsimp only [decodeReadInt] at h
  rw [if_neg (by omega)] at h
  cases h
  rfl

/-- The server that is filled in has what its instance reads. -/
theorem mirrors_of_mandatoryInfo (hfind : listFind ListNode.id l key = some n)
    (h : prvGetMandatoryInfo l key server = .ok (targetP, result))
    (hkey : server.servObjInstID = key) : Mirrors l targetP := by
  obtain ⟨text, hbinding, rfl⟩ := prvGetMandatoryInfo_eq_ok hfind h
  refine ⟨text, ?_, rfl⟩
  unfold serverRead readInstance
  rw [hkey, hfind]
  exact readItems_cons.mpr ⟨rfl, readItems_cons.mpr ⟨hbinding, readItems_nil⟩⟩

/-- It stays as it is exactly when it has that already. -/
theorem mandatoryInfo_eq_iff (hfind : listFind ListNode.id l key = some n)
    (hreads : n.fields.getValue = ServerInstance.readsAfter d x items)
    (h : prvGetMandatoryInfo l key server = .ok (targetP, result)) :
    targetP = server ↔ LeavesInfo d x items server := by
  obtain ⟨text, hbinding, rfl⟩ := prvGetMandatoryInfo_eq_ok hfind h
  have hlifetime : n.fields.getValue serverLifetimeId =
    .ok (.ok (.integer n.fields.lifetime.toNat)) := rfl
  unfold LeavesInfo
  rw [← hreads, hbinding, hlifetime]
  obtain ⟨shortID, servObjInstID, lifetime, binding⟩ := server
  constructor
  · intro heq
    cases heq
    exact ⟨text, rfl, rfl, rfl⟩
  · rintro ⟨text', h₁, h₂, rfl⟩
    cases h₁
    cases h₂
    rfl

/-! ### One write -/

/-- The other instances are found where they were. -/
theorem listFind_fields_of_ne (x : ServerInstance) (hkey : key ≠ n.id) :
    listFind ListNode.id (before ++ { n with fields := x } :: after) key =
      listFind ListNode.id (before ++ n :: after) key := by
  induction before with
  | nil =>
    rw [List.nil_append, List.nil_append, listFind_cons, listFind_cons, if_neg hkey.symm,
      if_neg hkey.symm]
  | cons head tail ih => rw [List.cons_append, List.cons_append, listFind_cons, listFind_cons, ih]

/-- The Short Server ID of an instance. -/
theorem prvGetServerShortId_eq (hfind : listFind ListNode.id l key = some n) :
    prvGetServerShortId l key = .ok n.fields.shortServerId := by
  have hread : serverRead l key [serverShortIdId] =
      .ok (.ok [.integer n.fields.shortServerId.toNat]) := by
    unfold serverRead readInstance
    rw [hfind]
    rfl
  have hlt := n.fields.shortServerId.toNat_lt
  unfold prvGetServerShortId
  rw [hread, ok_bind]
  dsimp only [decodeReadInt, Option.getD_some]
  rw [if_neg (by omega), Int.toNat_natCast, UInt16.ofNat_toNat]
  rfl

/-- What `prv_updateServerInfo` does to the servers. -/
theorem prvUpdateServerInfo_cases (hfind : listFind ListNode.id contextP.instanceList key = some n)
    (h : prvUpdateServerInfo contextP key = .ok contextP') :
    (findServer n.fields.shortServerId contextP.serverList = none ∧ contextP' = contextP) ∨
      ∃ serverP targetP result,
        findServer n.fields.shortServerId contextP.serverList = some serverP ∧
        prvGetMandatoryInfo contextP.instanceList key serverP.here = .ok (targetP, result) ∧
        contextP' = { contextP with serverList := serverP.set targetP } := by
  unfold prvUpdateServerInfo at h
  rw [prvGetServerShortId_eq hfind, ok_bind] at h
  cases hserver : findServer n.fields.shortServerId contextP.serverList with
  | none =>
    rw [hserver] at h
    cases h
    exact .inl ⟨rfl, rfl⟩
  | some serverP =>
    rw [hserver] at h
    obtain ⟨⟨targetP, result⟩, hinfo, h⟩ := bind_eq_ok_iff.mp h
    cases h
    exact .inr ⟨serverP, targetP, result, rfl, hinfo, rfl⟩

/-- **An accepted write** changes the fields of one instance, and then the servers as
`prv_updateServerInfo` does. -/
theorem AcceptedWrite.exists_update
    (hown : OwnsInstances (serverOwnership d) contextP.memory contextP.instanceList)
    (h : AcceptedWrite d contextP write contextP') :
    ∃ before n after x' m',
      listFind ListNode.id contextP.instanceList write.uriP.instanceId = some n ∧
      contextP.instanceList = before ++ n :: after ∧
      listFind ListNode.id (before ++ { n with fields := x' } :: after) write.uriP.instanceId =
        some { n with fields := x' } ∧
      x'.getValue = ServerInstance.readsAfter d n.fields write.items ∧
      OwnsInstances (serverOwnership d) m' (before ++ { n with fields := x' } :: after) ∧
      prvUpdateServerInfo ⟨m', before ++ { n with fields := x' } :: after, contextP.serverList⟩
        write.uriP.instanceId = .ok contextP' := by
  unfold AcceptedWrite serverObjectWrite at h
  split_ifs at h
  · cases h
  swap
  · cases h
  obtain ⟨⟨m', l', result⟩, hwrite, h⟩ := bind_eq_ok_iff.mp h
  obtain ⟨-, rfl, -, -⟩ | ⟨before, n, after, x', hfind, hl, rfl, hcode, hreads, -⟩ :=
    write_nodes (serverResources d) hown hwrite
  · cases h
  dsimp only at h
  split_ifs at h with hchanged
  · obtain ⟨updated, hupdate, h⟩ := bind_eq_ok_iff.mp h
    cases h
    have hall := List.takeWhile_eq_self_iff.mpr (List.all_eq_true.mp (hcode.mp hchanged))
    rw [hall] at hreads
    rw [hl] at hown hfind hwrite
    have hnew : n ∉ before := fun hmem => hown.owns.disjoint n.address
      (List.mem_append_right _ List.mem_cons_self)
      (address_mem_cellsOf (List.mem_append_left after hmem))
    exact ⟨before, n, after, x', m', hl ▸ hfind, hl, listFind_fields x' hnew hfind, hreads,
      hown.write hfind hwrite, hupdate⟩
  · cases h
    exact absurd rfl hchanged


/-- The Short Server ID that the items leave is the one of the instance behind the write. -/
theorem leadsHome_iff
    (hfind : listFind ListNode.id contextP.instanceList write.uriP.instanceId = some n)
    (hreads : x'.getValue = ServerInstance.readsAfter d n.fields write.items) :
    LeadsHome d contextP write ↔
      match findServer x'.shortServerId contextP.serverList with
      | none => ∀ server ∈ contextP.serverList, server.servObjInstID = write.uriP.instanceId →
          LeavesInfo d n.fields write.items server
      | some serverP =>
        (serverP.here.servObjInstID ≠ write.uriP.instanceId →
            LeavesInfo d n.fields write.items serverP.here) ∧
          ∀ server ∈ serverP.unlink, server.servObjInstID = write.uriP.instanceId →
            LeavesInfo d n.fields write.items server := by
  have hshort : x'.getValue serverShortIdId = .ok (.ok (.integer x'.shortServerId.toNat)) := rfl
  constructor
  · intro h
    exact h n hfind x'.shortServerId (hreads ▸ hshort)
  · intro h targetP htarget shortId hread
    cases hfind.symm.trans htarget
    rw [← hreads, hshort] at hread
    have hsame : x'.shortServerId = shortId := by
      have hint := ResourceValue.integer.inj (Except.ok.inj (Except.ok.inj hread))
      exact UInt16.toNat_inj.mp (Int.natCast_inj.mp hint)
    rwa [← hsame]

/-- **When one write leaves the servers right**: exactly when the Short Server ID leads to the
server of the instance. -/
theorem writeMirrored_iff
    (hown : OwnsInstances (serverOwnership d) contextP.memory contextP.instanceList)
    (hmirror : ∀ server ∈ contextP.serverList, Mirrors contextP.instanceList server)
    (h : AcceptedWrite d contextP write contextP') :
    WriteMirrored contextP write contextP' ↔ LeadsHome d contextP write := by
  obtain ⟨before, n, after, x', m', hfind, hl, hfind', hreads, -, hupdate⟩ := h.exists_update hown
  rw [leadsHome_iff hfind hreads]
  have hid : n.id = write.uriP.instanceId := (mem_of_listFind hfind).2
  -- A server that stays as it is.
  have hkept : ∀ server ∈ contextP.serverList,
      (Mirrors (before ++ { n with fields := x' } :: after) server ∧
        (server.servObjInstID ≠ write.uriP.instanceId → server = server)) ↔
      (server.servObjInstID = write.uriP.instanceId →
        LeavesInfo d n.fields write.items server) := by
    intro server hserver
    rw [and_iff_left fun _ => rfl]
    by_cases hkey : server.servObjInstID = write.uriP.instanceId
    · rw [forall_prop_of_true hkey]
      exact mirrors_iff (hkey ▸ hfind') hreads
    · refine iff_of_true ?_ fun heq => absurd heq hkey
      have hsame : listFind ListNode.id (before ++ { n with fields := x' } :: after)
          server.servObjInstID = listFind ListNode.id (before ++ n :: after)
            server.servObjInstID := listFind_fields_of_ne x' (hid ▸ hkey)
      exact (mirrors_congr (hsame.trans (congrArg (listFind _ · _) hl.symm))).mpr
        (hmirror server hserver)
  unfold WriteMirrored
  obtain ⟨hserver, rfl⟩ | ⟨serverP, targetP, result, hserver, hinfo, rfl⟩ :=
    prvUpdateServerInfo_cases hfind' hupdate
  · dsimp only at hserver ⊢
    rw [hserver, List.forall₂_same]
    exact forall₂_congr hkept
  · dsimp only at hserver hinfo ⊢
    rw [hserver]
    have hlist : serverP.list = contextP.serverList := by
      unfold findServer at hserver
      split_ifs at hserver
      exact (focusFirst_eq_some_iff.mp hserver).1
    rw [← hlist] at hkept hmirror ⊢
    rw [Focus.forall₂_set_iff]
    refine and_congr ?_ (forall₂_congr fun server hmem =>
      hkept server (Focus.mem_list.mpr (.inr hmem)))
    by_cases hkey : serverP.here.servObjInstID = write.uriP.instanceId
    · exact iff_of_true ⟨mirrors_of_mandatoryInfo hfind' hinfo hkey, fun hne => absurd hkey hne⟩
        fun hne => absurd hkey hne
    · rw [forall_prop_of_true hkey, forall_prop_of_true hkey,
        mandatoryInfo_eq_iff hfind' hreads hinfo]
      refine and_iff_right_of_imp fun hleaves => ?_
      rw [(mandatoryInfo_eq_iff hfind' hreads hinfo).mpr hleaves]
      exact ((hkept _ serverP.here_mem_list).mpr fun heq => absurd heq hkey).1


/-! ### Every sequence of writes -/

/-- A write keeps the nodes cells of their own. -/
theorem AcceptedWrite.ownsInstances
    (hown : OwnsInstances (serverOwnership d) contextP.memory contextP.instanceList)
    (h : AcceptedWrite d contextP write contextP') :
    OwnsInstances (serverOwnership d) contextP'.memory contextP'.instanceList := by
  obtain ⟨before, n, after, x', m', -, -, hfind', -, hown', hupdate⟩ := h.exists_update hown
  obtain ⟨-, rfl⟩ | ⟨serverP, targetP, result, -, -, rfl⟩ :=
    prvUpdateServerInfo_cases hfind' hupdate
  · exact hown'
  · exact hown'

/-- Behind a write that leaves the servers right, every server has what its own instance reads. -/
theorem WriteMirrored.mirrors (h : WriteMirrored contextP write contextP') :
    ∀ server ∈ contextP'.serverList, Mirrors contextP'.instanceList server := by
  intro server' hserver'
  obtain ⟨i, hi, rfl⟩ := List.getElem_of_mem hserver'
  exact ((List.forall₂_iff_get.mp h).2 i (h.length_eq ▸ hi) hi).1

end

/-- **When the server list mirrors the Server Object**: along every sequence of accepted writes,
each write leaves every server with what its own instance reads, and the servers of the other
instances as they were, exactly when its Short Server ID leads to the server of the instance. -/
theorem serverWrites_mirrored_iff (d : Decoders) {contextP : MirrorContext}
    (writes : List ServerWrite)
    (hown : OwnsInstances (serverOwnership d) contextP.memory contextP.instanceList)
    (hmirror : ∀ server ∈ contextP.serverList, Mirrors contextP.instanceList server) :
    EveryWrite d WriteMirrored contextP writes ↔
      EveryWrite d (fun contextP write _ => LeadsHome d contextP write) contextP writes := by
  induction writes generalizing contextP with
  | nil => rfl
  | cons write writes ih =>
    unfold EveryWrite
    refine forall₂_congr fun contextP' haccepted => ?_
    rw [← writeMirrored_iff hown hmirror haccepted]
    refine and_congr_right fun hmirrored => ?_
    exact ih (haccepted.ownsInstances hown) hmirrored.mirrors

/-- Two instances of the Server Object. -/
def twoServerInstances : List (ListNode ServerInstance) :=
  [{ address := 0
     next := some 1
     id := 0
     fields :=
      { ServerInstance.zero with
        shortServerId := 1
        lifetime := 100
        binding := [0x55, 0, 0, 0] } },
   { address := 1
     next := none
     id := 1
     fields :=
      { ServerInstance.zero with
        shortServerId := 2
        lifetime := 60
        binding := [0x55, 0x51, 0, 0] } }]

/-- The servers of the two instances. -/
def twoMirrorServers : MirrorContext where
  memory := ((Memory.empty.alloc Cell.node).1.alloc .node).1
  instanceList := twoServerInstances
  serverList :=
    [{ shortID := 1, servObjInstID := 0, lifetime := 100, binding := utilsStringToBinding [0x55] },
     { shortID := 2, servObjInstID := 1, lifetime := 60,
       binding := utilsStringToBinding [0x55, 0x51] }]

/-- A write of one resource of the first instance. -/
def writeResource0 (resourceId : UInt16) (value : Byte) : ServerWrite where
  uriP := { objectId := 1, instanceId := 0, resourceId }
  parsed := some [.mk resourceId .opaqueBytes [value] []]
  objectId_eq := rfl

theorem twoMirrorServers_owns : OwnsInstances (serverOwnership byteDecoders)
    twoMirrorServers.memory twoMirrorServers.instanceList := by
  refine ⟨by decide, fun a ha => ?_, rfl, rfl, trivial⟩
  obtain rfl | rfl := List.mem_pair.mp ha
  · rfl
  · rfl

theorem twoMirrorServers_mirror :
    ∀ server ∈ twoMirrorServers.serverList, Mirrors twoMirrorServers.instanceList server := by
  intro server hserver
  obtain rfl | rfl := List.mem_pair.mp hserver
  · exact ⟨[0x55], rfl, rfl⟩
  · exact ⟨[0x55, 0x51], rfl, rfl⟩

/-- **The Short Server ID 2 is written to the instance 0**, and the server of the instance 1 gets
the lifetime and the binding of the instance 0. -/
theorem shortIdWrite_overwrites :
    ¬ ∀ (contextP : MirrorContext) (writes : List ServerWrite),
      OwnsInstances (serverOwnership byteDecoders) contextP.memory contextP.instanceList →
      (∀ server ∈ contextP.serverList, Mirrors contextP.instanceList server) →
      EveryWrite byteDecoders WriteMirrored contextP writes := by
  intro h
  have hwrite := h twoMirrorServers [writeResource0 0 2] twoMirrorServers_owns
    twoMirrorServers_mirror _ rfl
  have hsecond := ((List.forall₂_cons.mp hwrite.1).2)
  have hsame := (List.forall₂_cons.mp hsecond).1.2 (by decide)
  exact absurd (congrArg MirrorServer.lifetime hsame) (by decide)

/-- The lifetime 90 is written to the instance 0, and then its Short Server ID once more. -/
theorem lifetimeWrite_mirrored :
    EveryWrite byteDecoders WriteMirrored twoMirrorServers
      [writeResource0 1 90, writeResource0 0 1] := by
  refine (serverWrites_mirrored_iff byteDecoders _ twoMirrorServers_owns
    twoMirrorServers_mirror).mpr fun _ hfirst => ⟨?_, fun _ hsecond => ⟨?_, trivial⟩⟩
  · intro targetP hfind shortId hshort
    cases hfind
    have hid := ResourceValue.integer.inj (Except.ok.inj (Except.ok.inj hshort))
    obtain rfl : (1 : UInt16) = shortId := UInt16.toNat_inj.mp (Int.natCast_inj.mp hid)
    exact ⟨fun hne => absurd rfl hne, fun server hserver hkey => by
      cases List.mem_singleton.mp hserver
      exact absurd hkey (by decide)⟩
  · cases hfirst
    intro targetP hfind shortId hshort
    cases hfind
    have hid := ResourceValue.integer.inj (Except.ok.inj (Except.ok.inj hshort))
    obtain rfl : (1 : UInt16) = shortId := UInt16.toNat_inj.mp (Int.natCast_inj.mp hid)
    exact ⟨fun hne => absurd rfl hne, fun server hserver hkey => by
      cases List.mem_singleton.mp hserver
      exact absurd hkey (by decide)⟩

end Lwm2m.Core

/-
# The clients of a registration server

`registration_handleRequest` and `registration_step` of `core/registration.c` in server mode, with
what `lwm2m_handle_packet` does in front of them when a request comes in blocks: the blocks are kept
with the client of the session, and where there is none, one without a name is made for them.  A
complete registration in blocks is then for the client of that session, unless one has the name
already: then the client of the session is removed, and it may be the same one.

A client is a node of its own in the memory.  What `prv_getParameters` makes of the query is a part
of the request, and `prv_decodeRegisterPayload` is a parameter: what is shown here holds whatever
they return.
-/

import Lwm2m.Coap.BlockLookup
import Lwm2m.Core.BootstrapWrite
import Lwm2m.Core.RegistrationParameters
import Lwm2m.Core.Text
import Lwm2m.Library.Except
import Lwm2m.Library.Memory
import Lwm2m.Library.Run

namespace Lwm2m.Core

open Coap Code Library Library.Memory

/-! ### Clients and requests -/

/-- `lwm2m_client_object_t`, with the identifiers of its instances. -/
structure RegisteredObject where
  id : UInt16
  versionMajor : UInt8 := 0
  versionMinor : UInt8 := 0
  instanceList : List UInt16 := []
  deriving DecidableEq, Repr

/-- What `prv_decodeRegisterPayload` returns, with the format and the path that it sets. -/
structure DecodedPayload where
  objects : Option (List RegisteredObject)
  format : UInt16
  altPath : Option CString
  deriving DecidableEq, Repr

/-- `lwm2m_client_t`.  The strings of the query are the buffers, with the NUL at their end. -/
structure ListedClient where
  address : ℕ
  internalID : UInt16
  name : Option (List Byte) := none
  version : Lwm2mVersion := .missing
  binding : UInt8 := 0
  msisdn : Option (List Byte) := none
  altPath : Option CString := none
  format : UInt16 := 0
  lifetime : UInt32 := 0
  endOfLife : ℤ := 0
  sessionH : Session := none
  objectList : Option (List RegisteredObject) := none
  blockData : List BlockData := []
  deriving DecidableEq, Repr

/-- The string that a name is. -/
def ListedClient.endpoint (client : ListedClient) : Option CString :=
  client.name.map (·.takeWhile (· ≠ 0))

/-- What the requests of the registration interface use of `lwm2m_context_t`. -/
structure ClientContext where
  memory : Memory Unit := Memory.empty
  clientList : List ListedClient := []

/-- The Block1 option of a request, and the URI that its blocks are kept under. -/
structure Block1Option where
  uri : CString
  num : UInt32
  more : Bool
  size : UInt16
  deriving DecidableEq, Repr

/-- A request to `/rd`, from a session.  `parameters` is what `prv_getParameters` makes of its
query, and none when it returns -1. -/
structure RegistrationRequest where
  code : Code
  uriP : Uri
  fromSessionH : Session
  parameters : Option Parameters
  contentType : UInt32
  payload : List Byte
  block1 : Option Block1Option := none
  /-- `lwm2m_gettime`. -/
  tvSec : ℤ
  /-- `lwm2m_get_coap_block_size`. -/
  coapBlockSize : UInt16
  deriving DecidableEq, Repr

/-- The status code and the Location-Path of an answer. -/
structure RegistrationAnswer where
  code : Code
  location : Option CString := none
  deriving DecidableEq, Repr

/-- `COAP_POST`. -/
def registrationPost : Code := 2
/-- `COAP_DELETE`. -/
def registrationDelete : Code := 4

/-- `LWM2M_CONTENT_LINK`. -/
def contentLink : UInt32 := 40
/-- `LWM2M_CONTENT_TEXT`. -/
def contentText : UInt32 := 0

/-- `LWM2M_DEFAULT_LIFETIME`. -/
def lwm2mDefaultLifetime : UInt32 := 86400

/-- `prv_getLocationString`, in a buffer of `MAX_LOCATION_LENGTH` bytes. -/
def prvGetLocationString (id : UInt16) : Option CString :=
  let start := [0x2F, 0x72, 0x64, 0x2F]
  (utilsIntToText id.toNat (10 - start.length)).map (start ++ ·)

/-- `strcmp` of two buffers is zero. -/
def strcmpEqual (s t : List Byte) : Bool := s.takeWhile (· ≠ 0) = t.takeWhile (· ≠ 0)

namespace ClientContext

variable (contextP : ClientContext)

/-! ### The list -/

/-- `prv_getClientByName`. -/
def prvGetClientByName (name : List Byte) : Option ListedClient :=
  contextP.clientList.find? (·.name.any (strcmpEqual name))

/-- `utils_findClient`. -/
def utilsFindClient (fromSessionH : Session) : Option ListedClient :=
  contextP.clientList.find? (lwm2mSessionIsEqual ·.sessionH fromSessionH)

/-- Writing to a client through its pointer. -/
def writeClient (clientP : ListedClient) (update : ListedClient → ListedClient) :
    Except Fault ClientContext :=
  if (contextP.memory.cells clientP.address).isSome then
    .ok { contextP with
      clientList := contextP.clientList.map fun client =>
        if client.address = clientP.address then update client else client }
  else .error .useAfterFree

/-- A new client with some fields, which is added to the list. -/
def newClient (fields : ListedClient → ListedClient) : ClientContext × ListedClient :=
  let (memory, address) := contextP.memory.alloc ()
  let internalID := lwm2mListNewId (contextP.clientList.map ListedClient.internalID)
  let client := fields { address, internalID }
  ({ memory, clientList := listAdd ListedClient.internalID client contextP.clientList }, client)

end ClientContext

/-- `registration_freeClient`. -/
def registrationFreeClient (memory : Memory Unit) (clientP : Option ListedClient) :
    Except Fault (Memory Unit) :=
  match clientP with
  | none => .error .nullDereference
  | some clientP =>
    if (memory.cells clientP.address).isSome then .ok (memory.release clientP.address)
    else .error .useAfterFree

namespace ClientContext

variable (decode : List Byte → DecodedPayload) (contextP : ClientContext)
  (message : RegistrationRequest)

/-! ### Registrations -/

/-- The client that a registration is for, which is made when there is none.  A registration in
blocks that finds its name removes the client of its session. -/
def registeredClient (name : List Byte) : Except Fault (ClientContext × ListedClient) :=
  match contextP.prvGetClientByName name with
  | none =>
    match if message.block1.isSome then contextP.utilsFindClient message.fromSessionH else none with
    | some clientP => .ok (contextP, clientP)
    | none => .ok (contextP.newClient id)
  | some clientP =>
    if message.block1.isNone then .ok (contextP, clientP)
    else
      match contextP.utilsFindClient message.fromSessionH with
      | none => .error .nullDereference
      | some tmpClientP => do
        let (clientList, tmpClientP) :=
          listRemove ListedClient.internalID contextP.clientList tmpClientP.internalID
        let memory ← registrationFreeClient contextP.memory tmpClientP
        pure ({ memory, clientList }, clientP)

/-- The fields that a registration sets. -/
def registeredFields (p : Parameters) (decoded : DecodedPayload) (client : ListedClient) :
    ListedClient :=
  let lifetime := if p.lifetime = 0 then lwm2mDefaultLifetime else p.lifetime
  { client with
    name := p.name
    version := p.version
    binding := p.binding
    msisdn := p.msisdn
    altPath := decoded.altPath
    format := decoded.format
    lifetime
    endOfLife := message.tvSec + lifetime.toNat
    objectList := decoded.objects
    sessionH := message.fromSessionH }

/-- The checks of a registration. -/
def checkRegistration (p : Parameters) (decoded : DecodedPayload) : Option Code :=
  if p.version = .missing then some coap400BadRequest
  else if p.name = none then some coap400BadRequest
  else if decoded.objects = none then some coap400BadRequest
  else if p.version ≠ .v1_0 ∧ p.version ≠ .v1_1 then some coap412PreconditionFailed
  else none

/-- The registration of `registration_handleRequest`. -/
def registration (p : Parameters) (decoded : DecodedPayload) :
    Except Fault (ClientContext × RegistrationAnswer) :=
  match checkRegistration p decoded with
  | some code => .ok (contextP, ⟨code, none⟩)
  | none => do
    let (contextP, clientP) ← contextP.registeredClient message (p.name.getD [])
    let contextP ← contextP.writeClient clientP (registeredFields message p decoded)
    match prvGetLocationString clientP.internalID with
    | none => do
      -- The client stays in the list.
      let memory ← registrationFreeClient contextP.memory (some clientP)
      pure ({ contextP with memory }, ⟨coap500InternalServerError, none⟩)
    | some location => pure (contextP, ⟨coap201Created, some location⟩)

/-- The fields that an update sets. -/
def updatedFields (p : Parameters) (decoded : DecodedPayload) (client : ListedClient) :
    ListedClient :=
  let lifetime := if p.lifetime = 0 then client.lifetime else p.lifetime
  { client with
    binding := if p.binding = bindingUnknown then client.binding else p.binding
    msisdn := if p.msisdn = none then client.msisdn else p.msisdn
    lifetime
    sessionH := message.fromSessionH
    objectList := if decoded.objects = none then client.objectList else decoded.objects
    endOfLife := message.tvSec + lifetime.toNat }

/-- The registration update of `registration_handleRequest`. -/
def registrationUpdate (p : Parameters) (decoded : DecodedPayload) :
    Except Fault (ClientContext × RegistrationAnswer) :=
  if message.uriP.isSetInstance then .ok (contextP, ⟨coap400BadRequest, none⟩)
  else
    match listFind ListedClient.internalID contextP.clientList message.uriP.objectId with
    | none => .ok (contextP, ⟨coap404NotFound, none⟩)
    | some clientP =>
      if p.name ≠ none then .ok (contextP, ⟨coap400BadRequest, none⟩)
      else do
        let contextP ← contextP.writeClient clientP (updatedFields message p decoded)
        pure (contextP, ⟨coap204Changed, none⟩)

/-- The deregistration of `registration_handleRequest`. -/
def deregistration : Except Fault (ClientContext × RegistrationAnswer) :=
  if ¬ message.uriP.isSetObject ∨ message.uriP.isSetInstance then
    .ok (contextP, ⟨coap400BadRequest, none⟩)
  else
    match listRemove ListedClient.internalID contextP.clientList message.uriP.objectId with
    | (_, none) => .ok (contextP, ⟨coap400BadRequest, none⟩)
    | (clientList, some clientP) => do
      let memory ← registrationFreeClient contextP.memory (some clientP)
      pure ({ memory, clientList }, ⟨coap202Deleted, none⟩)

/-- `registration_handleRequest`, on a request with a payload that is complete. -/
def registrationHandleRequest (payload : List Byte) :
    Except Fault (ClientContext × RegistrationAnswer) :=
  if message.tvSec < 0 then .ok (contextP, ⟨coap500InternalServerError, none⟩)
  else if message.code = registrationPost then
    match message.parameters with
    | none => .ok (contextP, ⟨coap400BadRequest, none⟩)
    | some p =>
      if message.contentType ≠ contentLink ∧ message.contentType ≠ contentText then
        .ok (contextP, ⟨coap400BadRequest, none⟩)
      else if message.uriP.isSetObject then
        contextP.registrationUpdate message p (decode payload)
      else contextP.registration message p (decode payload)
  else if message.code = registrationDelete then contextP.deregistration message
  else .ok (contextP, ⟨coap400BadRequest, none⟩)

/-- The client of the session of a request in blocks, which is made when there is none. -/
def blockPeer : ClientContext × ListedClient :=
  match contextP.utilsFindClient message.fromSessionH with
  | some peerP => (contextP, peerP)
  | none => contextP.newClient fun client => { client with
      lifetime := lwm2mDefaultLifetime
      endOfLife := message.tvSec + lwm2mDefaultLifetime.toNat
      sessionH := message.fromSessionH }

/-- The code of the answer to a block that is not the last one: a repeated one is acknowledged. -/
def blockAnswer (code : Code) (block1More : Bool) : Code :=
  if code = coapRetransmission then if block1More then coap231Continue else coap204Changed
  else code

/-- `lwm2m_handle_packet` on a request to `/rd`. -/
def handlePacket : Except Fault (ClientContext × RegistrationAnswer) :=
  if message.payload.length > message.coapBlockSize.toNat then
    .ok (contextP, ⟨coap413EntityTooLarge, none⟩)
  else
    match message.block1 with
    | none => contextP.registrationHandleRequest decode message message.payload
    | some block1 => do
      let (contextP, peerP) := contextP.blockPeer message
      let (blockData, code, output) ← coapBlock1Handler peerP.blockData block1.uri
        ⟨message.payload, block1.size, block1.num, block1.more⟩
      let contextP ← contextP.writeClient peerP fun client => { client with blockData }
      match output with
      -- The handler returns NO_ERROR with the complete buffer, and an error with the others.
      | .complete buffer => contextP.registrationHandleRequest decode message buffer
      | _ => pure (contextP, ⟨blockAnswer code block1.more, none⟩)

/-! ### Expiry -/

/-- The loop of `registration_step` over the clients, which starts with the whole list. -/
def expireClients (currentTime : ℤ) (contextP : ClientContext) :
    List ListedClient → Except Fault ClientContext
  | [] => .ok contextP
  | clientP :: nextP => do
    if clientP.endOfLife ≤ currentTime then
      let (clientList, _) :=
        listRemove ListedClient.internalID contextP.clientList clientP.internalID
      let memory ← registrationFreeClient contextP.memory (some clientP)
      expireClients currentTime { memory, clientList } nextP
    else expireClients currentTime contextP nextP

end ClientContext

/-- What happens to a registration server. -/
inductive ClientListEvent
  | request (message : RegistrationRequest)
  | expire (currentTime : ℤ)
  deriving DecidableEq, Repr

/-- One event, with the answer to a request. -/
def clientListStep (decode : List Byte → DecodedPayload) (contextP : ClientContext) :
    ClientListEvent → Except Fault (ClientContext × Option RegistrationAnswer)
  | .request message => do
    let (contextP, answer) ← contextP.handlePacket decode message
    pure (contextP, some answer)
  | .expire currentTime => do
    let contextP ← ClientContext.expireClients currentTime contextP contextP.clientList
    pure (contextP, none)

/-! ### What the list should be -/

/-- The transfers of a client are from a request in blocks, each with its URI. -/
def BlocksTyped (blockData : List BlockData) : Prop :=
  WellTyped blockData ∧ ∀ entry ∈ blockData, entry.blockType = .block1

/-- **A sound list of clients**: in order, with identifiers that differ, at most one client for a
name, and every client is allocated, in a node of its own. -/
structure ClientContext.Sound (contextP : ClientContext) : Prop where
  sorted : contextP.clientList.Pairwise (·.internalID < ·.internalID)
  names : ∀ client ∈ contextP.clientList, ∀ client' ∈ contextP.clientList, ∀ endpoint,
    client.endpoint = some endpoint → client'.endpoint = some endpoint → client = client'
  owns : Owns Memory.empty [] contextP.memory (contextP.clientList.map ListedClient.address)
  blocks : ∀ client ∈ contextP.clientList, BlocksTyped client.blockData

/-- What a client has from the request that registered it. -/
structure CarriesRegistration (message : RegistrationRequest) (p : Parameters)
    (decoded : DecodedPayload) (client : ListedClient) : Prop where
  name : client.name = p.name
  lifetime : client.lifetime = if p.lifetime = 0 then lwm2mDefaultLifetime else p.lifetime
  binding : client.binding = p.binding
  version : client.version = p.version
  sessionH : client.sessionH = message.fromSessionH
  objectList : client.objectList = decoded.objects

section

variable (decode : List Byte → DecodedPayload) (contextP : ClientContext)
  (message : RegistrationRequest)

/-- The payload that a request completes, in one message or with its last block. -/
def completePayload : Option (List Byte) :=
  match message.block1 with
  | none => some message.payload
  | some block1 =>
    let blockData := (contextP.utilsFindClient message.fromSessionH).elim [] (·.blockData)
    match coapBlock1Handler blockData block1.uri
      ⟨message.payload, block1.size, block1.num, block1.more⟩ with
    | .ok (_, _, .complete buffer) => some buffer
    | _ => none

/-- A message that is not larger than a block. -/
def Fits : Prop := message.payload.length ≤ message.coapBlockSize.toNat

/-- The request is a registration that passes the checks, with a payload. -/
structure Registers (p : Parameters) (payload : List Byte) : Prop where
  time : 0 ≤ message.tvSec
  post : message.code = registrationPost
  parameters : message.parameters = some p
  contentType : message.contentType = contentLink ∨ message.contentType = contentText
  noObject : ¬ message.uriP.isSetObject
  checked : ClientContext.checkRegistration p (decode payload) = none

/-- The request is a registration that is carried out. -/
structure RegistrationAccepted (p : Parameters) (payload : List Byte) : Prop where
  fits : Fits message
  complete : completePayload contextP message = some payload
  registers : Registers decode message p payload

/-- The request makes a client. -/
def MakesClient : Prop :=
  if message.block1.isSome then
    Fits message ∧ contextP.utilsFindClient message.fromSessionH = none
  else ∃ p payload, RegistrationAccepted decode contextP message p payload ∧
    contextP.prvGetClientByName (p.name.getD []) = none

/-- There is an identifier for a client that is made, and a registration in blocks is not for the
client of its own session. -/
structure Apart : Prop where
  room : MakesClient decode contextP message → contextP.clientList.length < 2 ^ 16
  apart : message.block1.isSome → ∀ p payload,
    RegistrationAccepted decode contextP message p payload → ∀ clientP,
      contextP.prvGetClientByName (p.name.getD []) = some clientP →
        contextP.utilsFindClient message.fromSessionH ≠ some clientP

/-- The Location-Path of a registration is the one of a client in the list, which has what the
request registers. -/
def LocationRight (contextP' : ClientContext) (answer : RegistrationAnswer) : Prop :=
  answer.code = coap201Created → ∃ p payload,
    RegistrationAccepted decode contextP message p payload ∧ ∃ clientP ∈ contextP'.clientList,
      answer.location = some ([0x2F, 0x72, 0x64, 0x2F] ++ decimal clientP.internalID.toNat) ∧
      CarriesRegistration message p (decode payload) clientP

end

/-- The condition on an event. -/
def EventApart (decode : List Byte → DecodedPayload) (contextP : ClientContext) :
    ClientListEvent → Prop
  | .request message => Apart decode contextP message
  | .expire _ => True

/-- An event, which fails at no access, leaves a sound list, and the Location-Path that it is
answered with is right. -/
def EventRight (decode : List Byte → DecodedPayload) (contextP : ClientContext)
    (event : ClientListEvent) : Prop :=
  ∃ contextP' answer, clientListStep decode contextP event = .ok (contextP', answer) ∧
    contextP'.Sound ∧ ∀ message answer', event = .request message → answer = some answer' →
      LocationRight decode contextP message contextP' answer'

/-- The states that an event leads to. -/
def ClientListStep (decode : List Byte → DecodedPayload) (contextP : ClientContext)
    (event : ClientListEvent) (contextP' : ClientContext) : Prop :=
  ∃ answer, clientListStep decode contextP event = .ok (contextP', answer)

/-! ### Operations on a sound list -/

section

variable {contextP contextP' : ClientContext} {client : ListedClient}

/-- A list that is not full leaves an identifier. -/
theorem exists_free_id {l : List UInt16} (h : l.length < 2 ^ 16) : ∃ id, id ∉ l := by
  by_contra hall
  push Not at hall
  have hsub : List.range (2 ^ 16) ⊆ l.map UInt16.toNat := fun n hn =>
    List.mem_map.mpr ⟨.ofNat n, hall _, UInt16.toNat_ofNat_of_lt (List.mem_range.mp hn)⟩
  have hlength := (List.nodup_range.subperm hsub).length_le
  rw [List.length_range, List.length_map] at hlength
  omega

theorem ClientContext.Sound.eq_of_address (h : contextP.Sound) {client' : ListedClient}
    (hclient : client ∈ contextP.clientList) (hclient' : client' ∈ contextP.clientList)
    (haddress : client'.address = client.address) : client' = client :=
  List.inj_on_of_nodup_map h.owns.nodup hclient' hclient haddress

variable {name : List Byte} {code : Code} {l : List ListedClient}

theorem name_any_iff :
    client.name.any (strcmpEqual name) = true ↔
      client.endpoint = some (name.takeWhile (· ≠ 0)) := by
  unfold ListedClient.endpoint strcmpEqual
  cases client.name with
  | none => exact iff_of_false Bool.false_ne_true nofun
  | some stored =>
    rw [Option.any_some, decide_eq_true_iff, Option.map_some, Option.some.injEq, eq_comm]

/-- The client found by name. -/
theorem of_prvGetClientByName (h : contextP.prvGetClientByName name = some client) :
    client ∈ contextP.clientList ∧ client.endpoint = some (name.takeWhile (· ≠ 0)) :=
  ⟨List.mem_of_find?_eq_some h,
    name_any_iff.mp (List.find?_some (p := fun c : ListedClient => c.name.any _) h)⟩

/-- No client is found by name. -/
theorem prvGetClientByName_eq_none_iff :
    contextP.prvGetClientByName name = none ↔
      ∀ client ∈ contextP.clientList, client.endpoint ≠ some (name.takeWhile (· ≠ 0)) := by
  rw [ClientContext.prvGetClientByName, List.find?_eq_none]
  exact forall₂_congr fun client _ => not_congr name_any_iff

/-- **A write to a client** of a sound list, which leaves its address and its identifier, and the
transfers in order: the list is sound again, where no other client has the name. -/
theorem ClientContext.Sound.write (h : contextP.Sound) (hclient : client ∈ contextP.clientList)
    (update : ListedClient → ListedClient) (haddress : (update client).address = client.address)
    (hid : (update client).internalID = client.internalID)
    (hblocks : BlocksTyped (update client).blockData)
    (hnames : ∀ client' ∈ contextP.clientList, ∀ endpoint,
      (update client).endpoint = some endpoint → client'.endpoint = some endpoint →
        client' = client) :
    ∃ contextP', contextP.writeClient client update = .ok contextP' ∧ contextP'.Sound ∧
      contextP'.clientList =
        contextP.clientList.map (fun c => if c = client then update client else c) := by
  have hsame : contextP.clientList.map
      (fun c => if c.address = client.address then update c else c) =
        contextP.clientList.map (fun c => if c = client then update client else c) := by
    refine List.map_congr_left fun c hc => ?_
    by_cases heq : c = client
    · rw [if_pos heq, heq, if_pos rfl]
    · rw [if_neg heq, if_neg fun haddr => heq (h.eq_of_address hclient hc haddr)]
  have hallocated := h.owns.allocated client.address (List.mem_map_of_mem hclient)
  have hkept {β : Type} (field : ListedClient → β)
      (hfield : field (update client) = field client) :
      (contextP.clientList.map fun c => if c = client then update client else c).map field =
        contextP.clientList.map field := by
    rw [List.map_map]
    refine List.map_congr_left fun c _ => ?_
    by_cases heq : c = client
    · rw [Function.comp_apply, if_pos heq, hfield, heq]
    · rw [Function.comp_apply, if_neg heq]
  refine ⟨_, if_pos hallocated, ⟨?_, ?_, ?_, ?_⟩, hsame⟩ <;> dsimp only <;> rw [hsame]
  · rw [← List.pairwise_map (f := ListedClient.internalID) (R := (· < ·)), hkept _ hid]
    exact List.pairwise_map.mpr h.sorted
  · intro c hc c' hc' endpoint
    obtain ⟨d, hd, rfl⟩ := List.mem_map.mp hc
    obtain ⟨d', hd', rfl⟩ := List.mem_map.mp hc'
    by_cases heq : d = client <;> by_cases heq' : d' = client
    · intro _ _
      rw [if_pos heq, if_pos heq']
    · rw [if_pos heq, if_neg heq']
      intro hc hc'
      exact absurd (hnames d' hd' endpoint hc hc') heq'
    · rw [if_neg heq, if_pos heq']
      intro hc hc'
      exact absurd (hnames d hd endpoint hc' hc) heq
    · rw [if_neg heq, if_neg heq']
      exact h.names d hd d' hd' endpoint
  · rw [hkept _ haddress]
    exact h.owns
  · intro c hc
    obtain ⟨d, hd, rfl⟩ := List.mem_map.mp hc
    by_cases heq : d = client
    · rw [if_pos heq]
      exact hblocks
    · rw [if_neg heq]
      exact h.blocks d hd

/-- **A client taken off** a sound list and freed: the list is sound, with the other clients. -/
theorem ClientContext.Sound.remove (h : contextP.Sound) (hclient : client ∈ contextP.clientList) :
    ∃ rest memory, listRemove ListedClient.internalID contextP.clientList client.internalID =
        (rest, some client) ∧
      registrationFreeClient contextP.memory (some client) = .ok memory ∧
      (⟨memory, rest⟩ : ClientContext).Sound ∧ rest.Sublist contextP.clientList ∧
      ∀ c ∈ contextP.clientList, c ≠ client → c ∈ rest := by
  obtain ⟨before, after, heq⟩ := List.append_of_mem hclient
  have hsorted := h.sorted
  rw [heq] at hsorted
  have hbefore : ∀ c ∈ before, c.internalID < client.internalID := fun c hc =>
    (List.pairwise_append.mp hsorted).2.2 c hc client List.mem_cons_self
  have hsub : (before ++ after).Sublist contextP.clientList := by
    rw [heq]
    exact (List.sublist_cons_self client after).append_left before
  have howns : Owns Memory.empty [] contextP.memory
      (client.address :: (before ++ after).map ListedClient.address) := by
    have hperm : contextP.clientList.Perm (client :: (before ++ after)) := by
      rw [heq]
      exact List.perm_middle
    exact h.owns.perm (hperm.map _)
  refine ⟨before ++ after, _, ?_, if_pos (howns.allocated _ List.mem_cons_self),
    ⟨h.sorted.sublist hsub, fun c hc c' hc' => h.names c (hsub.mem hc) c' (hsub.mem hc'),
      howns.release, fun c hc => h.blocks c (hsub.mem hc)⟩, hsub, fun c hc hne => ?_⟩
  · rw [heq, listRemove_append hbefore]
  · rw [heq, List.mem_append, List.mem_cons] at hc
    exact List.mem_append.mpr (hc.imp_right (·.resolve_left hne))

/-- **A new client**, which has no name yet, in a sound list with room. -/
theorem ClientContext.Sound.newClient (h : contextP.Sound)
    (hroom : contextP.clientList.length < 2 ^ 16) (fields : ListedClient → ListedClient)
    (haddress : ∀ c, (fields c).address = c.address)
    (hid : ∀ c, (fields c).internalID = c.internalID) (hname : ∀ c, (fields c).name = c.name)
    (hblocks : ∀ c, (fields c).blockData = c.blockData) :
    (contextP.newClient fields).1.Sound ∧ (contextP.newClient fields).2.endpoint = none ∧
      BlocksTyped (contextP.newClient fields).2.blockData ∧
      ∀ c, c ∈ (contextP.newClient fields).1.clientList ↔
        c = (contextP.newClient fields).2 ∨ c ∈ contextP.clientList := by
  obtain ⟨id, hfree⟩ := exists_free_id (l := contextP.clientList.map ListedClient.internalID)
    (by rwa [List.length_map])
  obtain ⟨hnew, -⟩ := lwm2mListNewId_spec (List.pairwise_map.mpr h.sorted) hfree
  set client := (contextP.newClient fields).2 with hclient
  have hclientID : client.internalID =
      lwm2mListNewId (contextP.clientList.map ListedClient.internalID) := hid _
  have hclientName : client.endpoint = none := by
    rw [ListedClient.endpoint, hclient, ClientContext.newClient, hname]
    rfl
  have hclientBlocks : client.blockData = [] := by
    rw [hclient, ClientContext.newClient, hblocks]
  have hmem (c : ListedClient) : c ∈ (contextP.newClient fields).1.clientList ↔
      c = client ∨ c ∈ contextP.clientList := mem_listAdd
  have htyped : BlocksTyped client.blockData := by
    rw [hclientBlocks]
    exact ⟨fun _ hb => absurd hb List.not_mem_nil, fun _ hb => absurd hb List.not_mem_nil⟩
  refine ⟨⟨listAdd_pairwise h.sorted fun c hc heq => hnew ?_, fun c hc c' hc' endpoint => ?_, ?_,
    fun c hc => ?_⟩, hclientName, htyped, hmem⟩
  · rw [← hclientID]
    exact List.mem_map.mpr ⟨c, hc, heq⟩
  · rcases (hmem c).mp hc with rfl | hc
    · rw [hclientName]
      exact nofun
    · rcases (hmem c').mp hc' with rfl | hc'
      · rw [hclientName]
        exact fun _ => nofun
      · exact h.names c hc c' hc' endpoint
  · have hperm : (listAdd ListedClient.internalID client contextP.clientList).Perm
        (client :: contextP.clientList) := listAdd_perm client contextP.clientList
    refine (h.owns.alloc ()).perm (.trans ?_ (hperm.map _).symm)
    rw [List.map_cons, hclient, ClientContext.newClient, haddress]
    exact .refl _
  · rcases (hmem c).mp hc with rfl | hc
    · exact htyped
    · exact h.blocks c hc

/-! ### Requests -/

variable {decode : List Byte → DecodedPayload} {message : RegistrationRequest} {p : Parameters}
  {decoded : DecodedPayload} {payload : List Byte}

/-- The text of a location. -/
theorem prvGetLocationString_eq (id : UInt16) :
    prvGetLocationString id = some ([0x2F, 0x72, 0x64, 0x2F] ++ decimal id.toNat) := by
  rw [prvGetLocationString, utilsIntToText_id id (by decide), Option.map_some]

/-- What a registration needs of the list in front of it: room for a client that it makes, the
client of the session where the request came in blocks, and that one is not the one with the
name. -/
structure Registrable (contextP : ClientContext) (message : RegistrationRequest)
    (name : List Byte) : Prop where
  room : message.block1 = none → contextP.prvGetClientByName name = none →
    contextP.clientList.length < 2 ^ 16
  peer : message.block1.isSome → ∃ peerP, contextP.utilsFindClient message.fromSessionH = some peerP
  apart : message.block1.isSome → ∀ clientP, contextP.prvGetClientByName name = some clientP →
    contextP.utilsFindClient message.fromSessionH ≠ some clientP

/-- The client that a registration is for is in the list, and no other client has the name. -/
theorem registeredClient_spec (h : contextP.Sound) (hr : Registrable contextP message name) :
    ∃ contextP' clientP, contextP.registeredClient message name = .ok (contextP', clientP) ∧
      contextP'.Sound ∧ clientP ∈ contextP'.clientList ∧
      ∀ c ∈ contextP'.clientList, c.endpoint = some (name.takeWhile (· ≠ 0)) → c = clientP := by
  unfold ClientContext.registeredClient
  cases hname : contextP.prvGetClientByName name with
  | none =>
    have hnone := prvGetClientByName_eq_none_iff.mp hname
    by_cases hblock : message.block1.isSome
    · obtain ⟨peerP, hpeer⟩ := hr.peer hblock
      rw [if_pos hblock, hpeer]
      exact ⟨contextP, peerP, rfl, h, List.mem_of_find?_eq_some hpeer,
        fun c hc hendpoint => absurd hendpoint (hnone c hc)⟩
    · have hroom := hr.room (Option.not_isSome_iff_eq_none.mp hblock) hname
      obtain ⟨hsound, -, -, hmem⟩ := h.newClient hroom id (fun _ => rfl) (fun _ => rfl)
        (fun _ => rfl) (fun _ => rfl)
      rw [if_neg hblock]
      exact ⟨_, _, rfl, hsound, (hmem _).mpr (.inl rfl), fun c hc hendpoint =>
        ((hmem c).mp hc).resolve_right fun hold => hnone c hold hendpoint⟩
  | some clientP =>
    obtain ⟨hclient, hendpoint⟩ := of_prvGetClientByName hname
    have honly (c : ListedClient) (hc : c ∈ contextP.clientList)
        (hc' : c.endpoint = some (name.takeWhile (· ≠ 0))) : c = clientP :=
      h.names c hc clientP hclient _ hc' hendpoint
    dsimp only
    cases hblock : message.block1 with
    | none => exact ⟨contextP, clientP, rfl, h, hclient, honly⟩
    | some block1 =>
      have hsome : message.block1.isSome := by
        rw [hblock]
        rfl
      obtain ⟨tmpClientP, htmp⟩ := hr.peer hsome
      have hne : clientP ≠ tmpClientP := fun heq => hr.apart hsome clientP hname (heq ▸ htmp)
      obtain ⟨rest, memory, hremove, hfree, hsound, hsub, hrest⟩ :=
        h.remove (List.mem_of_find?_eq_some htmp)
      rw [if_neg (by rw [Option.isNone_some]; exact Bool.false_ne_true), htmp]
      dsimp only
      rw [hremove]
      rw [hfree, ok_bind]
      exact ⟨_, clientP, rfl, hsound, hrest clientP hclient hne,
        fun c hc hc' => honly c (hsub.mem hc) hc'⟩

/-- The checks pass for a registration with a name. -/
theorem checkRegistration_eq_none (h : ClientContext.checkRegistration p decoded = none) :
    ∃ name, p.name = some name := by
  unfold ClientContext.checkRegistration at h
  split_ifs at h with hversion hname
  exact Option.ne_none_iff_exists'.mp hname

/-- A registration that does not pass the checks is not created. -/
theorem checkRegistration_ne_created (h : ClientContext.checkRegistration p decoded = some code) :
    code ≠ coap201Created := by
  unfold ClientContext.checkRegistration at h
  split_ifs at h <;> cases h <;> decide

/-- **A registration** that passes the checks. -/
theorem registration_spec (h : contextP.Sound)
    (hchecked : ClientContext.checkRegistration p decoded = none)
    (hr : Registrable contextP message (p.name.getD [])) :
    ∃ contextP' clientP, contextP.registration message p decoded =
        .ok (contextP', ⟨coap201Created,
          some ([0x2F, 0x72, 0x64, 0x2F] ++ decimal clientP.internalID.toNat)⟩) ∧
      contextP'.Sound ∧ clientP ∈ contextP'.clientList ∧
      CarriesRegistration message p decoded clientP := by
  obtain ⟨name, hname⟩ := checkRegistration_eq_none hchecked
  obtain ⟨contextP₁, clientP, hclient, hsound, hmem, honly⟩ := registeredClient_spec h hr
  obtain ⟨contextP₂, hwrite, hsound', hlist⟩ := hsound.write hmem
    (ClientContext.registeredFields message p decoded) rfl rfl
    (hsound.blocks clientP hmem) fun c hc endpoint hendpoint hc' => honly c hc (by
      rw [hc', ← hendpoint]
      change p.name.map _ = _
      rw [hname, Option.map_some, Option.getD_some])
  refine ⟨contextP₂, ClientContext.registeredFields message p decoded clientP, ?_, hsound', ?_,
    ⟨rfl, rfl, rfl, rfl, rfl, rfl⟩⟩
  · unfold ClientContext.registration
    rw [hchecked]
    rw [hclient, ok_bind]
    dsimp only
    rw [hwrite, ok_bind, prvGetLocationString_eq]
    rfl
  · rw [hlist]
    exact List.mem_map.mpr ⟨clientP, hmem, if_pos rfl⟩

/-- **An update** fails at no access and keeps the list sound. -/
theorem registrationUpdate_spec (h : contextP.Sound) :
    ∃ contextP' answer, contextP.registrationUpdate message p decoded = .ok (contextP', answer) ∧
      contextP'.Sound ∧ answer.code ≠ coap201Created := by
  unfold ClientContext.registrationUpdate
  by_cases hset : message.uriP.isSetInstance
  · rw [if_pos hset]
    exact ⟨_, _, rfl, h, by decide⟩
  rw [if_neg hset]
  cases hfind : listFind ListedClient.internalID contextP.clientList message.uriP.objectId with
  | none => exact ⟨_, _, rfl, h, by decide⟩
  | some clientP =>
    obtain ⟨hmem, -⟩ := mem_of_listFind hfind
    dsimp only
    by_cases hname : p.name ≠ none
    · rw [if_pos hname]
      exact ⟨_, _, rfl, h, by decide⟩
    · obtain ⟨contextP', hwrite, hsound, -⟩ := h.write hmem
        (ClientContext.updatedFields message p decoded) rfl rfl (h.blocks clientP hmem)
        fun c hc endpoint hendpoint hc' => h.names c hc clientP hmem endpoint hc' hendpoint
      rw [if_neg hname, hwrite, ok_bind]
      exact ⟨_, _, rfl, hsound, by decide⟩

/-- **A deregistration** fails at no access and keeps the list sound. -/
theorem deregistration_spec (h : contextP.Sound) :
    ∃ contextP' answer, contextP.deregistration message = .ok (contextP', answer) ∧
      contextP'.Sound ∧ answer.code ≠ coap201Created := by
  unfold ClientContext.deregistration
  by_cases hset : ¬ message.uriP.isSetObject ∨ message.uriP.isSetInstance
  · rw [if_pos hset]
    exact ⟨_, _, rfl, h, by decide⟩
  rw [if_neg hset]
  rcases hremove : listRemove ListedClient.internalID contextP.clientList message.uriP.objectId
    with ⟨clientList, _ | clientP⟩
  · exact ⟨_, _, rfl, h, by decide⟩
  · have hmem : clientP ∈ contextP.clientList :=
      (listRemove_perm hremove).mem_iff.mpr List.mem_cons_self
    obtain ⟨rest, memory, hremove', hfree, hsound, -⟩ := h.remove hmem
    rw [id_of_listRemove hremove, hremove] at hremove'
    obtain rfl := (Prod.mk.inj hremove').1
    dsimp only
    rw [hfree, ok_bind]
    exact ⟨_, _, rfl, hsound, by decide⟩

/-- A request with its payload fails at no access and keeps the list sound, and the Location-Path of
a registration is right. -/
def Serves (decode : List Byte → DecodedPayload) (message : RegistrationRequest)
    (payload : List Byte) (result : Except Fault (ClientContext × RegistrationAnswer)) : Prop :=
  ∃ contextP' answer, result = .ok (contextP', answer) ∧ contextP'.Sound ∧
    (answer.code = coap201Created → ∃ p, Registers decode message p payload ∧
      ∃ clientP ∈ contextP'.clientList,
        answer.location = some ([0x2F, 0x72, 0x64, 0x2F] ++ decimal clientP.internalID.toNat) ∧
        CarriesRegistration message p (decode payload) clientP)

theorem Serves.of_code {result : Except Fault (ClientContext × RegistrationAnswer)}
    (h : ∃ contextP' answer, result = .ok (contextP', answer) ∧ contextP'.Sound ∧
      answer.code ≠ coap201Created) : Serves decode message payload result := by
  obtain ⟨contextP', answer, hresult, hsound, hcode⟩ := h
  exact ⟨contextP', answer, hresult, hsound, fun heq => absurd heq hcode⟩

theorem Serves.refused (h : contextP.Sound) (hcode : code ≠ coap201Created) :
    Serves decode message payload (.ok (contextP, ⟨code, none⟩)) :=
  .of_code ⟨_, _, rfl, h, hcode⟩

/-- **A request with its payload**, where a registration has what it needs. -/
theorem registrationHandleRequest_spec (h : contextP.Sound)
    (hr : ∀ p, Registers decode message p payload → Registrable contextP message (p.name.getD [])) :
    Serves decode message payload
      (contextP.registrationHandleRequest decode message payload) := by
  unfold ClientContext.registrationHandleRequest
  by_cases htime : message.tvSec < 0
  · rw [if_pos htime]
    exact .refused h (by decide)
  rw [if_neg htime]
  by_cases hpost : message.code = registrationPost
  · rw [if_pos hpost]
    cases hparameters : message.parameters with
    | none => exact .refused h (by decide)
    | some p =>
      dsimp only
      by_cases htype : message.contentType ≠ contentLink ∧ message.contentType ≠ contentText
      · rw [if_pos htype]
        exact .refused h (by decide)
      rw [if_neg htype]
      by_cases hset : message.uriP.isSetObject
      · rw [if_pos hset]
        exact .of_code (registrationUpdate_spec h)
      rw [if_neg hset]
      cases hchecked : ClientContext.checkRegistration p (decode payload) with
      | some code =>
        have hcode : code ≠ coap201Created := checkRegistration_ne_created hchecked
        unfold ClientContext.registration
        rw [hchecked]
        exact .refused h hcode
      | none =>
        have hregisters : Registers decode message p payload :=
          ⟨not_lt.mp htime, hpost, hparameters, by tauto, hset, hchecked⟩
        obtain ⟨contextP', clientP, hresult, hsound, hmem, hcarries⟩ :=
          registration_spec h hchecked (hr p hregisters)
        exact ⟨_, _, hresult, hsound, fun _ => ⟨p, hregisters, clientP, hmem, rfl, hcarries⟩⟩
  rw [if_neg hpost]
  by_cases hdelete : message.code = registrationDelete
  · rw [if_pos hdelete]
    exact .of_code (deregistration_spec h)
  · rw [if_neg hdelete]
    exact .refused h (by decide)

/-! ### Blocks -/

/-- **A block** of a request, with the transfers of a client: nothing is read through the wrong
member, and the transfers stay as they have to be. -/
theorem coapBlock1Handler_typed {blockData : List BlockData} (h : BlocksTyped blockData)
    (uri : CString) (b : BlockArrival) :
    ∃ blockData' code output, coapBlock1Handler blockData uri b = .ok (blockData', code, output) ∧
      BlocksTyped blockData' ∧ code ≠ coap201Created := by
  have hfind := findBlockData_of_unobstructed h.1 (.block1 uri)
    fun entry hentry => h.2 entry ((List.takeWhile_sublist _).mem hentry)
  have hkept : ∃ blockData' code output,
      coapBlock1Handler blockData uri b = .ok (blockData', code, output) ∧
        (∀ entry ∈ blockData', entry.blockType = .block1) ∧ code ≠ coap201Created := by
    have hcode (entry : BlockData) (more : Bool) :
        (prvBlockAnswer entry more).1 ≠ coap201Created := by
      unfold prvBlockAnswer
      split_ifs
      · exact (by decide : coap231Continue ≠ coap201Created)
      · exact (by decide : noError ≠ coap201Created)
    have hset {f : Focus BlockData}
        (hf : focusFirst (IsOwn (.uri (some uri)) .block1 ·) blockData = some f)
        {entry : BlockData} (hentry : entry.blockType = f.here.blockType) :
        ∀ entry' ∈ f.set entry, entry'.blockType = .block1 := by
      obtain ⟨hlist, hhere⟩ := findBlockData_eq_ok_some h.1 (.block1 uri) (hf ▸ hfind)
      intro entry' hentry'
      rcases Focus.mem_set.mp hentry' with rfl | hold
      · rw [hentry, hhere.1]
      · refine h.2 entry' ?_
        rw [← hlist]
        exact Focus.mem_list.mpr (.inr hold)
    unfold coapBlock1Handler prvCoapBlockHandler
    rw [hfind, ok_bind]
    cases hf : focusFirst (IsOwn (.uri (some uri)) .block1 ·) blockData with
    | none =>
      split_ifs
      · exact ⟨_, _, _, rfl, List.forall_mem_cons.mpr ⟨rfl, h.2⟩, hcode _ _⟩
      · exact ⟨_, _, _, rfl, h.2, by decide⟩
    | some f =>
      dsimp only
      split_ifs
      · exact ⟨_, _, _, rfl, hset hf rfl, hcode _ _⟩
      · exact ⟨_, _, _, rfl, h.2, by decide⟩
      · exact ⟨_, _, _, rfl, h.2, by decide⟩
      · exact ⟨_, _, _, rfl, hset hf rfl, hcode _ _⟩
      · exact ⟨_, _, _, rfl, h.2, hcode _ _⟩
  obtain ⟨blockData', code, output, hresult, htype, hcode⟩ := hkept
  exact ⟨blockData', code, output, hresult, ⟨h.1.handler (.block1 uri) hresult, htype⟩, hcode⟩

/-- **The client that keeps the blocks** of a request, where there is room for one that is made.
Only one that is made is new to the list, and it is the only one of the session then. -/
theorem blockPeer_spec (h : contextP.Sound)
    (hroom : contextP.utilsFindClient message.fromSessionH = none →
      contextP.clientList.length < 2 ^ 16) :
    ∃ contextP' peerP, contextP.blockPeer message = (contextP', peerP) ∧ contextP'.Sound ∧
      peerP ∈ contextP'.clientList ∧ lwm2mSessionIsEqual peerP.sessionH message.fromSessionH ∧
      peerP.blockData = (contextP.utilsFindClient message.fromSessionH).elim [] (·.blockData) ∧
      (contextP' = contextP ∨ (peerP.endpoint = none ∧ ∀ c ∈ contextP'.clientList,
        lwm2mSessionIsEqual c.sessionH message.fromSessionH → c = peerP)) := by
  unfold ClientContext.blockPeer
  cases hpeer : contextP.utilsFindClient message.fromSessionH with
  | some peerP =>
    exact ⟨contextP, peerP, rfl, h, List.mem_of_find?_eq_some hpeer,
      List.find?_some (p := fun c : ListedClient => lwm2mSessionIsEqual c.sessionH _) hpeer, rfl,
      .inl rfl⟩
  | none =>
    obtain ⟨hsound, hname, -, hmem⟩ := h.newClient (hroom hpeer)
      (fun client => { client with
        lifetime := lwm2mDefaultLifetime
        endOfLife := message.tvSec + lwm2mDefaultLifetime.toNat
        sessionH := message.fromSessionH }) (fun _ => rfl) (fun _ => rfl) (fun _ => rfl)
      (fun _ => rfl)
    refine ⟨_, _, rfl, hsound, (hmem _).mpr (.inl rfl), beq_self_eq_true _, rfl,
      .inr ⟨hname, fun c hc hsession => ?_⟩⟩
    exact ((hmem c).mp hc).resolve_right fun hold => List.find?_eq_none.mp hpeer c hold hsession

/-- The client of the session and the one with a name, behind a write that leaves sessions and
names: both are the images of what was found before. -/
theorem find_map_write (client written : ListedClient) (p : ListedClient → Bool)
    (hp : p written = p client) :
    (l.map fun c => if c = client then written else c).find? p =
      (l.find? p).map fun c => if c = client then written else c := by
  have hsame : (p ∘ fun c => if c = client then written else c) = p := by
    funext c
    rw [Function.comp_apply]
    by_cases heq : c = client
    · rw [if_pos heq, hp, heq]
    · rw [if_neg heq]
  rw [List.find?_map, hsame]

/-- **A request to the registration interface** that meets the condition. -/
theorem handlePacket_spec (h : contextP.Sound) (hapart : Apart decode contextP message) :
    ∃ contextP' answer, contextP.handlePacket decode message = .ok (contextP', answer) ∧
      contextP'.Sound ∧ LocationRight decode contextP message contextP' answer := by
  unfold ClientContext.handlePacket
  by_cases hlarge : message.payload.length > message.coapBlockSize.toNat
  · rw [if_pos hlarge]
    exact ⟨_, _, rfl, h, fun hcode => absurd hcode (by decide : coap413EntityTooLarge ≠ _)⟩
  have hfits : Fits message := not_lt.mp hlarge
  rw [if_neg hlarge]
  have hserved {payload : List Byte}
      {result : Except Fault (ClientContext × RegistrationAnswer)}
      (hcomplete : completePayload contextP message = some payload)
      (hserves : Serves decode message payload result) :
      ∃ contextP' answer, result = .ok (contextP', answer) ∧ contextP'.Sound ∧
        LocationRight decode contextP message contextP' answer := by
    obtain ⟨contextP', answer, hresult, hsound, hlocation⟩ := hserves
    refine ⟨contextP', answer, hresult, hsound, fun hcode => ?_⟩
    obtain ⟨p, hregisters, hclient⟩ := hlocation hcode
    exact ⟨p, payload, ⟨hfits, hcomplete, hregisters⟩, hclient⟩
  cases hblock : message.block1 with
  | none =>
    have hcomplete : completePayload contextP message = some message.payload := by
      rw [completePayload, hblock]
    refine hserved hcomplete (registrationHandleRequest_spec h fun p hregisters => ⟨fun _ hname =>
      hapart.room ?_, fun hsome => ?_, fun hsome => ?_⟩)
    · rw [MakesClient, hblock, if_neg (by rw [Option.isSome_none]; exact Bool.false_ne_true)]
      exact ⟨p, _, ⟨hfits, hcomplete, hregisters⟩, hname⟩
    · rw [hblock] at hsome
      cases hsome
    · rw [hblock] at hsome
      cases hsome
  | some block1 =>
    have hsome : message.block1.isSome := by
      rw [hblock]
      rfl
    have hroom : contextP.utilsFindClient message.fromSessionH = none →
        contextP.clientList.length < 2 ^ 16 := fun hnone => hapart.room (by
      rw [MakesClient, if_pos hsome]
      exact ⟨hfits, hnone⟩)
    obtain ⟨contextP₁, peerP, hpeer, hsound₁, hmem, hsession, hdata, hnew⟩ := blockPeer_spec h hroom
    obtain ⟨blockData, code, output, hhandler, htyped, hcode⟩ :=
      coapBlock1Handler_typed (hsound₁.blocks peerP hmem) block1.uri
        ⟨message.payload, block1.size, block1.num, block1.more⟩
    obtain ⟨contextP₂, hwrite, hsound₂, hlist⟩ := hsound₁.write hmem
      (fun client => { client with blockData }) rfl rfl htyped
      fun c hc endpoint hendpoint hc' => hsound₁.names c hc peerP hmem endpoint hc' hendpoint
    rw [hpeer]
    dsimp only
    rw [hhandler, ok_bind]
    rw [hwrite, ok_bind]
    have hanswer : ∃ contextP' answer,
        (pure (contextP₂, ⟨ClientContext.blockAnswer code block1.more, none⟩) :
          Except Fault (ClientContext × RegistrationAnswer)) = .ok (contextP', answer) ∧
        contextP'.Sound ∧ LocationRight decode contextP message contextP' answer := by
      refine ⟨_, _, rfl, hsound₂, fun hcreated => absurd hcreated ?_⟩
      unfold ClientContext.blockAnswer
      split_ifs
      · exact (by decide : coap231Continue ≠ coap201Created)
      · exact (by decide : coap204Changed ≠ coap201Created)
      · exact hcode
    cases output with
    | untouched => exact hanswer
    | incomplete => exact hanswer
    | complete buffer =>
      have hcomplete : completePayload contextP message = some buffer := by
        rw [completePayload, hblock]
        dsimp only
        rw [← hdata, hhandler]
      refine hserved hcomplete (registrationHandleRequest_spec hsound₂ fun p hregisters =>
        ⟨fun hnone => ?_, fun _ => ?_, fun _ clientP hname hclient => ?_⟩)
      · rw [hblock] at hnone
        cases hnone
      · refine Option.isSome_iff_exists.mp
          (List.find?_isSome.mpr ⟨{ peerP with blockData }, ?_, ?_⟩)
        · rw [hlist]
          exact List.mem_map.mpr ⟨peerP, hmem, if_pos rfl⟩
        · exact hsession
      · set written : ListedClient := { peerP with blockData } with hwritten
        rw [ClientContext.prvGetClientByName, hlist,
          find_map_write peerP written _ rfl] at hname
        rw [ClientContext.utilsFindClient, hlist,
          find_map_write peerP written _ rfl] at hclient
        obtain ⟨c, hc, hcg⟩ := Option.map_eq_some_iff.mp hname
        obtain ⟨c', hc', hcg'⟩ := Option.map_eq_some_iff.mp hclient
        have hkept (d : ListedClient) : (if d = peerP then written else d).address = d.address := by
          split_ifs with hd
          · rw [hd]
          · rfl
        have heq : c' = c := by
          refine hsound₁.eq_of_address (List.mem_of_find?_eq_some hc)
            (List.mem_of_find?_eq_some hc') ?_
          rw [← hkept c, ← hkept c', hcg, hcg']
        obtain ⟨hin, hendpoint⟩ := of_prvGetClientByName hc
        rw [heq] at hc'
        rcases hnew with rfl | ⟨hnone, honly⟩
        · exact hapart.apart hsome p buffer ⟨hfits, hcomplete, hregisters⟩ c hc hc'
        · have hthis := honly c hin
            (List.find?_some (p := fun c : ListedClient => lwm2mSessionIsEqual c.sessionH _) hc')
          rw [hthis, hnone] at hendpoint
          cases hendpoint

/-! ### Expiry and runs -/

/-- **The walk over the clients**, each of which is in the list when it is reached. -/
theorem expireClients_spec (currentTime : ℤ) (h : contextP.Sound) (hnodup : l.Nodup)
    (hmem : ∀ c ∈ l, c ∈ contextP.clientList) :
    ∃ contextP', ClientContext.expireClients currentTime contextP l = .ok contextP' ∧
      contextP'.Sound := by
  induction l generalizing contextP with
  | nil => exact ⟨contextP, rfl, h⟩
  | cons clientP nextP ih =>
    obtain ⟨hnotin, hnodup'⟩ := List.nodup_cons.mp hnodup
    obtain ⟨hclient, hnext⟩ := List.forall_mem_cons.mp hmem
    rw [ClientContext.expireClients]
    by_cases hexpired : clientP.endOfLife ≤ currentTime
    · obtain ⟨rest, memory, hremove, hfree, hsound, -, hrest⟩ := h.remove hclient
      rw [if_pos hexpired, hremove]
      dsimp only
      rw [hfree, ok_bind]
      exact ih hsound hnodup' fun c hc =>
        hrest c (hnext c hc) (ne_of_mem_of_not_mem hc hnotin)
    · rw [if_neg hexpired]
      exact ih h hnodup' hnext

/-- **An event that meets the condition** is right. -/
theorem eventRight_of_apart {event : ClientListEvent} (h : contextP.Sound)
    (hapart : EventApart decode contextP event) : EventRight decode contextP event := by
  cases event with
  | request message =>
    obtain ⟨contextP', answer, hresult, hsound, hlocation⟩ := handlePacket_spec h hapart
    refine ⟨contextP', some answer, ?_, hsound, ?_⟩
    · rw [clientListStep, hresult, ok_bind]
      rfl
    · rintro _ _ ⟨⟩ ⟨⟩
      exact hlocation
  | expire currentTime =>
    obtain ⟨contextP', hresult, hsound⟩ := expireClients_spec currentTime h
      (List.Nodup.of_map _ h.owns.nodup) fun _ hc => hc
    refine ⟨contextP', none, ?_, hsound, fun _ _ heq => nomatch heq⟩
    rw [clientListStep, hresult, ok_bind]
    rfl

end

theorem ClientContext.empty_sound : ClientContext.Sound {} :=
  ⟨.nil, fun _ hc => absurd hc List.not_mem_nil, .nil fun _ ha => absurd ha List.not_mem_nil,
    fun _ hc => absurd hc List.not_mem_nil⟩

/-- **When the client list of a registration server stays sound**: along every sequence of requests
and expiries where there is an identifier for each client that is made, and no registration in
blocks finds its name at the client of its own session. -/
theorem clientList_sound (decode : List Byte → DecodedPayload) (events : List ClientListEvent)
    (h : EveryStep (ClientListStep decode) (EventApart decode) {} events) :
    EveryStep (ClientListStep decode) (EventRight decode) {} events := by
  refine h.imp (I := ClientContext.Sound)
    (fun _ _ hsound hapart => eventRight_of_apart hsound hapart)
    (fun contextP event contextP' hsound hapart hstep => ?_) ClientContext.empty_sound
  obtain ⟨answer, hstep⟩ := hstep
  obtain ⟨contextP'', answer', hstep', hsound', -⟩ := eventRight_of_apart hsound hapart
  cases hstep.symm.trans hstep'
  exact hsound'

/-- Every payload is one object with one instance. -/
def decodesDevice : List Byte → DecodedPayload := fun _ =>
  ⟨some [{ id := 3, instanceList := [0] }], 1542, none⟩

/-- A registration in one block, of the name `c`. -/
def registersInBlock (fromSessionH : Session) : RegistrationRequest where
  code := registrationPost
  uriP := { objectId := lwm2mMaxId }
  fromSessionH
  parameters := some { name := some [0x63, 0], version := .v1_1 }
  contentType := contentLink
  payload := [0x3C, 0x2F, 0x33, 0x2F, 0x30, 0x3E]
  block1 := some ⟨[0x2F, 0x72, 0x64], 0, false, 16⟩
  tvSec := 1
  coapBlockSize := 1024

/-- **The same registration twice.**  The second time the client of the session is the one with the
name: it is removed and freed, and then written. -/
theorem registersTwice_fails : ¬ ∀ (decode : List Byte → DecodedPayload)
    (events : List ClientListEvent),
    EveryStep (ClientListStep decode) (EventRight decode) {} events := by
  intro h
  have hrun := h decodesDevice [.request (registersInBlock (some 1)),
    .request (registersInBlock (some 1))]
  obtain ⟨contextP', answer, hstep, -⟩ := (hrun.2 _ ⟨_, rfl⟩).1
  cases hstep

/-- The same registration from another session. -/
theorem registersFromTwo_sound :
    EveryStep (ClientListStep decodesDevice) (EventRight decodesDevice) {}
      [.request (registersInBlock (some 1)), .request (registersInBlock (some 2))] := by
  refine clientList_sound decodesDevice _ ⟨⟨fun _ => by decide, fun _ _ _ _ _ _ => nofun⟩,
    fun contextP' hstep => ⟨?_, fun _ _ => trivial⟩⟩
  obtain ⟨answer, hstep⟩ := hstep
  cases hstep
  exact ⟨fun _ => by decide, fun _ _ _ _ _ _ => nofun⟩

end Lwm2m.Core

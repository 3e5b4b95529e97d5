/-
# The observations of a server

`core/observe.c` in server mode: `lwm2m_observe` and `lwm2m_observe_cancel` send a request, and the
observation is entered, or taken out, when the answer comes.  Until then it may be gone: a second
cancel, an update that drops the object, or the deregistration of the client takes it out
as well.  A pending request names the client and the URI and holds no pointer, so its
answer finds what is there by then (`prv_findObservationByURI`); the callback of a cancel does not
look whether anything is.

An observation is kept in the list of its client, with the address of its node; the memory knows
which nodes are allocated.
-/

import Lwm2m.Core.BootstrapWrite
import Lwm2m.Library.Except
import Lwm2m.Library.Focus
import Lwm2m.Library.Memory

namespace Lwm2m.Core

open Coap Code Library Library.Memory

/-! ### Clients and observations -/

/-- `lwm2m_observation_t` of a server.  Its `clientP` is the client whose list it is in. -/
structure ServerObservation where
  address : ℕ
  id : UInt16
  uri : Uri
  status : Status
  deriving DecidableEq, Repr

/-- What the observations use of `lwm2m_client_t`. -/
structure ObservedClient where
  internalID : UInt16
  sessionH : Session := none
  observationId : UInt16 := 0
  observationList : List ServerObservation := []
  deriving DecidableEq, Repr

/-- `lwm2m_client_object_t`. -/
structure ClientObject where
  id : UInt16
  instanceList : List UInt16
  deriving DecidableEq, Repr

/-- The user data of a pending transaction: `observation_data_t` or `cancellation_data_t`. -/
inductive ObservationRequest
  | observe (id client : UInt16) (uri : Uri)
  | cancel (client : UInt16) (uri : Uri)
  deriving DecidableEq, Repr

/-- What the observations use of `lwm2m_context_t`. -/
structure ObservationContext where
  memory : Memory Unit := Memory.empty
  clientList : List ObservedClient := []
  transactionList : List ObservationRequest := []

/-- `lwm2m_list_find` in the list of the clients, with the place of the client. -/
def findClient (clientList : List ObservedClient) (clientID : UInt16) :
    Option (Focus ObservedClient) :=
  (focusFirst (fun clientP => ¬ clientP.internalID < clientID) clientList).filter
    (·.here.internalID = clientID)

/-- `prv_findObservationByURI`. -/
def prvFindObservationByURI (clientP : ObservedClient) (uriP : Uri) : Option ServerObservation :=
  clientP.observationList.find? (·.uri = uriP)

/-- The field `status` of an observation is set through its pointer. -/
def setObservationStatus (list : List ServerObservation) (observationP : ServerObservation)
    (status : Status) : List ServerObservation :=
  list.map fun o => if o.address = observationP.address then { o with status } else o

/-- `observe_remove`, with the memory and the list of the client. -/
def observeRemove (memory : Memory Unit) (list : List ServerObservation) :
    Option ServerObservation → Except Fault (Memory Unit × List ServerObservation)
  | none => .error .nullDereference
  | some observationP =>
    if (memory.cells observationP.address).isSome then
      .ok (memory.release observationP.address,
        (listRemove ServerObservation.id list observationP.id).1)
    else .error .useAfterFree

namespace ObservationContext

variable (contextP : ObservationContext)

/-- The client gets new fields. -/
def setClient (clientP : Focus ObservedClient) (client : ObservedClient) : ObservationContext :=
  { contextP with clientList := clientP.set client }

/-- The client gets a new list of observations, in a new memory. -/
def setObservations (clientP : Focus ObservedClient) (memory : Memory Unit)
    (observationList : List ServerObservation) : ObservationContext :=
  { contextP with memory, clientList := clientP.set { clientP.here with observationList } }

/-! ### The answers -/

/-- The code that `prv_obsRequestCallback` makes of an answer. -/
def observeCode (observationP : Option ServerObservation) (message : Option Packet) : Code :=
  if observationP.any (·.status = .deregPending) then coap400BadRequest
  else
    match message with
    | none => coap503ServiceUnavailable
    | some packet =>
      if packet.code = coap205Content ∧ ¬ packet.isOption .observe then coap405MethodNotAllowed
      else packet.code

/-- A block of the content comes, and there are more. -/
def comesMore (packet : Packet) : Prop := packet.isOption .block2 ∧ packet.block2.more ≠ 0

instance (packet : Packet) : Decidable (comesMore packet) := inferInstanceAs (Decidable (_ ∧ _))

/-- `prv_obsRequestCallback`, with the codes that the user's callback is called with. -/
def prvObsRequestCallback (id client : UInt16) (uriP : Uri) (message : Option Packet) :
    ObservationContext × List Code :=
  match findClient contextP.clientList client with
  | none => (contextP, [coap500InternalServerError])
  | some clientP =>
    let observationP := prvFindObservationByURI clientP.here uriP
    let code := observeCode observationP message
    match message with
    | none => (contextP, [code])
    | some packet =>
      if code ≠ coap205Content ∨ comesMore packet then (contextP, [code])
      else
        match observationP with
        | none =>
          let (memory, address) := contextP.memory.alloc ()
          (contextP.setObservations clientP memory
            (listAdd ServerObservation.id ⟨address, id, uriP, .registered⟩
              clientP.here.observationList), [0])
        | some observationP =>
          let rest := (listRemove ServerObservation.id clientP.here.observationList
            observationP.id).1
          (contextP.setObservations clientP contextP.memory
            (listAdd ServerObservation.id ⟨observationP.address, id, uriP, .registered⟩ rest),
            [coap202Deleted, 0])

/-- `prv_obsCancelRequestCallback`, with the codes that the user's callback is called with. -/
def prvObsCancelRequestCallback (client : UInt16) (uriP : Uri) (message : Option Packet) :
    Except Fault (ObservationContext × List Code) :=
  match findClient contextP.clientList client with
  | none => .ok (contextP, [coap500InternalServerError])
  | some clientP =>
    let observationP := prvFindObservationByURI clientP.here uriP
    match message with
    | none => .ok (contextP, [coap503ServiceUnavailable])
    | some packet =>
      if packet.code ≠ coap205Content then .ok (contextP, [packet.code])
      else if comesMore packet then .ok (contextP, [0])
      else do
        let (memory, observationList) ←
          observeRemove contextP.memory clientP.here.observationList observationP
        pure (contextP.setObservations clientP memory observationList, [0])

/-! ### The calls of the user -/

/-- `lwm2m_observe`.  `send` is what `transaction_send` returns, or `none` when `transaction_new`
fails. -/
def lwm2mObserve (clientID : UInt16) (uriP : Uri) (send : Option ℤ) : ObservationContext × ℤ :=
  if ¬ uriP.isSetInstance ∧ uriP.isSetResource then (contextP, coap400BadRequest.toNat)
  else
    match findClient contextP.clientList clientID with
    | none => (contextP, coap404NotFound.toNat)
    | some clientP =>
      let observationP := prvFindObservationByURI clientP.here uriP
      let observationId := clientP.here.observationId + 1
      let client := { clientP.here with observationId }
      if (listFind ServerObservation.id client.observationList observationId).isSome then
        (contextP.setClient clientP client, coap500InternalServerError.toNat)
      else
        match send with
        | none => (contextP.setClient clientP client, coap500InternalServerError.toNat)
        | some ret =>
          let observationList :=
            match observationP with
            | none => client.observationList
            | some observationP =>
              setObservationStatus client.observationList observationP .regPending
          let contextP := contextP.setClient clientP { client with observationList }
          let request := .observe observationId client.internalID uriP
          -- A transaction that is not sent is removed again.
          if ret = 0 then
            ({ contextP with transactionList := contextP.transactionList ++ [request] }, ret)
          else (contextP, ret)

/-- `lwm2m_observe_cancel`. -/
def lwm2mObserveCancel (clientID : UInt16) (uriP : Uri) (send : Option ℤ) :
    Except Fault (ObservationContext × ℤ) :=
  match findClient contextP.clientList clientID with
  | none => .ok (contextP, coap404NotFound.toNat)
  | some clientP =>
    match prvFindObservationByURI clientP.here uriP with
    | none => .ok (contextP, coap404NotFound.toNat)
    | some observationP =>
      if observationP.status = .registered then
        match send with
        | none => .ok (contextP, coap500InternalServerError.toNat)
        | some ret =>
          let contextP := contextP.setObservations clientP contextP.memory
            (setObservationStatus clientP.here.observationList observationP .deregPending)
          let request := .cancel clientP.here.internalID uriP
          if ret = 0 then
            .ok ({ contextP with transactionList := contextP.transactionList ++ [request] }, ret)
          else .ok (contextP, ret)
      else do
        -- No request is sent, so there is no other chance to take it out.
        let (memory, observationList) ←
          observeRemove contextP.memory clientP.here.observationList (some observationP)
        pure (contextP.setObservations clientP memory observationList,
          if observationP.status = .regPending then coap204Changed.toNat
          else coapIgnore.toNat)

/-! ### Updates and deregistrations -/

/-- The object, and the instance if there is one, of an observation is among the registered
ones. -/
def stillRegistered (objects : List ClientObject) (uri : Uri) : Bool :=
  match listFind ClientObject.id objects uri.objectId with
  | none => false
  | some objP =>
    if uri.isSetInstance then
      (listFind (fun id : UInt16 => id) objP.instanceList uri.instanceId).isSome
    else true

/-- The loop of an update over the observations, which starts with the whole list. -/
def dropObservations (objects : List ClientObject) (memory : Memory Unit)
    (list : List ServerObservation) :
    List ServerObservation → Except Fault (Memory Unit × List ServerObservation)
  | [] => .ok (memory, list)
  | observationP :: nextP => do
    if stillRegistered objects observationP.uri then dropObservations objects memory list nextP
    else
      let (memory, list) ← observeRemove memory list (some observationP)
      dropObservations objects memory list nextP

/-- The registration update of a client, with the objects that it lists; none when the update has no
payload. -/
def registrationUpdate (clientID : UInt16) (objects : Option (List ClientObject)) :
    Except Fault (ObservationContext × Code) :=
  match findClient contextP.clientList clientID with
  | none => .ok (contextP, coap404NotFound)
  | some clientP =>
    match objects with
    | none => .ok (contextP, coap204Changed)
    | some objects => do
      let (memory, observationList) ← dropObservations objects contextP.memory
        clientP.here.observationList clientP.here.observationList
      pure (contextP.setObservations clientP memory observationList, coap204Changed)

/-- The loop of `registration_freeClient` over the observations. -/
def freeObservations (memory : Memory Unit) : List ServerObservation → Except Fault (Memory Unit)
  | [] => .ok memory
  | targetP :: next =>
    if (memory.cells targetP.address).isSome then
      freeObservations (memory.release targetP.address) next
    else .error .useAfterFree

/-- The deregistration of a client. -/
def deregister (clientID : UInt16) : Except Fault (ObservationContext × Code) :=
  match listRemove ObservedClient.internalID contextP.clientList clientID with
  | (_, none) => .ok (contextP, coap400BadRequest)
  | (clientList, some clientP) => do
    let memory ← freeObservations contextP.memory clientP.observationList
    pure ({ contextP with memory, clientList }, coap202Deleted)

/-- The registration of a client whose name is not known; a known one keeps its observations. -/
def registerClient : ObservationContext :=
  let internalID := lwm2mListNewId (contextP.clientList.map ObservedClient.internalID)
  { contextP with
    clientList := listAdd ObservedClient.internalID { internalID } contextP.clientList }

end ObservationContext

/-! ### Events -/

/-- What happens to a server. -/
inductive ObservationEvent
  | observe (clientID : UInt16) (uriP : Uri) (send : Option ℤ)
  | cancel (clientID : UInt16) (uriP : Uri) (send : Option ℤ)
  /-- `prv_create_next_block_transaction`: a request takes the user data over. -/
  | nextBlock (i : ℕ)
  /-- The answer to a pending request, or none when it times out. -/
  | reply (i : ℕ) (message : Option Packet)
  | register
  | update (clientID : UInt16) (objects : Option (List ClientObject))
  | deregister (clientID : UInt16)
  deriving DecidableEq, Repr

/-- The callback of a pending request. -/
def ObservationRequest.callback (contextP : ObservationContext) (message : Option Packet) :
    ObservationRequest → Except Fault ObservationContext
  | .observe id client uriP => .ok (contextP.prvObsRequestCallback id client uriP message).1
  | .cancel client uriP => (·.1) <$> contextP.prvObsCancelRequestCallback client uriP message

/-- One event. -/
def observationStep (contextP : ObservationContext) :
    ObservationEvent → Except Fault ObservationContext
  | .observe clientID uriP send => .ok (contextP.lwm2mObserve clientID uriP send).1
  | .cancel clientID uriP send => (·.1) <$> contextP.lwm2mObserveCancel clientID uriP send
  | .nextBlock i =>
    .ok { contextP with
      transactionList := contextP.transactionList ++ contextP.transactionList[i]?.toList }
  | .reply i message =>
    match contextP.transactionList[i]? with
    | none => .ok contextP
    | some request => do
      let contextP ← request.callback contextP message
      pure { contextP with transactionList := contextP.transactionList.eraseIdx i }
  | .register => .ok contextP.registerClient
  | .update clientID objects => (·.1) <$> contextP.registrationUpdate clientID objects
  | .deregister clientID => (·.1) <$> contextP.deregister clientID

/-! ### What is to hold -/

/-- The nodes of the observations of a client. -/
def ObservedClient.nodes (client : ObservedClient) : List ℕ :=
  client.observationList.map ServerObservation.address

/-- The identifiers of the observations of a client are pairwise distinct, and so are the URIs. -/
structure ObservedClient.Sound (client : ObservedClient) : Prop where
  sorted : client.observationList.Pairwise (·.id < ·.id)
  uris : client.observationList.Pairwise (·.uri ≠ ·.uri)

/-- The observations of every client are pairwise distinct, and each is an allocated node of its
own. -/
structure ObservationContext.Sound (contextP : ObservationContext) : Prop where
  clients : ∀ client ∈ contextP.clientList, client.Sound
  owns : Owns Memory.empty [] contextP.memory (contextP.clientList.flatMap ObservedClient.nodes)

/-- The second list differs from the first one in the observation of one URI, whose node is the one
it had, or a new one. -/
structure DiffersAt (uri : Uri) (memory : Memory Unit) (l l' : List ServerObservation) : Prop where
  others : ∀ o, o.uri ≠ uri → (o ∈ l' ↔ o ∈ l)
  here : ∀ o' ∈ l', o'.uri = uri →
    memory.cells o'.address = none ∨ ∃ o ∈ l, o.uri = uri ∧ o'.address = o.address

/-- **What an answer may touch**: the observation of the URI of the request in the list of its
client. No other one is rewritten, and no other one is freed. -/
structure TouchesOwn (client : UInt16) (uri : Uri) (contextP contextP' : ObservationContext) :
    Prop where
  clients : List.Forall₂ (fun c c' => c' = c ∨ c.internalID = client ∧ c'.internalID = client ∧
    DiffersAt uri contextP.memory c.observationList c'.observationList)
    contextP.clientList contextP'.clientList
  freed : ∀ a, (contextP.memory.cells a).isSome → (contextP'.memory.cells a).isSome ∨
    ∃ c ∈ contextP.clientList, c.internalID = client ∧
      ∃ o ∈ c.observationList, o.uri = uri ∧ o.address = a

/-- The client of a request. -/
def ObservationRequest.client : ObservationRequest → UInt16
  | .observe _ client _ => client
  | .cancel client _ => client

/-- The URI of a request. -/
def ObservationRequest.uri : ObservationRequest → Uri
  | .observe _ _ uri => uri
  | .cancel _ uri => uri

/-- **What an event is to do**: it fails at no access, the observations stay distinct and allocated,
and an answer touches the observation of its own request only. -/
def EventSound (contextP : ObservationContext) (event : ObservationEvent) : Prop :=
  ∃ contextP', observationStep contextP event = .ok contextP' ∧ contextP'.Sound ∧
    ∀ i message request, event = .reply i message → contextP.transactionList[i]? = some request →
      TouchesOwn request.client request.uri contextP contextP'

/-- The content comes to an end. -/
def EndsContent (message : Option Packet) : Prop :=
  ∃ packet, message = some packet ∧ packet.code = coap205Content ∧
    ¬ ObservationContext.comesMore packet

/-- An answer enters an observation: it is the end of the content, says that the client observes,
and no cancel came in between. -/
structure Establishes (contextP : ObservationContext) (client : UInt16) (uri : Uri)
    (message : Option Packet) (clientP : Focus ObservedClient) : Prop where
  found : findClient contextP.clientList client = some clientP
  ends : EndsContent message
  observes : ∀ packet, message = some packet → packet.isOption .observe
  wanted : ∀ o, prvFindObservationByURI clientP.here uri = some o → o.status ≠ .deregPending

/-- **The answer finds what it is about**: the end of a cancel finds the observation of its URI, and
the identifier that an observation gets is not the one of another observation. -/
def FindsOwn (contextP : ObservationContext) (message : Option Packet) :
    ObservationRequest → Prop
  | .observe id client uri => ∀ clientP, Establishes contextP client uri message clientP →
      ∀ o ∈ clientP.here.observationList, o.id = id → o.uri = uri
  | .cancel client uri => EndsContent message →
      ∀ clientP, findClient contextP.clientList client = some clientP →
        ∃ o ∈ clientP.here.observationList, o.uri = uri

/-- The condition on an event. -/
def EventFindsOwn (contextP : ObservationContext) (event : ObservationEvent) : Prop :=
  ∀ i message request, event = .reply i message → contextP.transactionList[i]? = some request →
    FindsOwn contextP message request

/-- Every event of a sequence has a property, in the state that the events before it leave. -/
def EveryEvent (P : ObservationContext → ObservationEvent → Prop) :
    ObservationContext → List ObservationEvent → Prop
  | _, [] => True
  | contextP, event :: events => P contextP event ∧
      ∀ contextP', observationStep contextP event = .ok contextP' → EveryEvent P contextP' events

section

variable {contextP contextP' : ObservationContext} {clientP : Focus ObservedClient}
  {client client' : ObservedClient} {memory memory' : Memory Unit}
  {l : List ServerObservation} {o : ServerObservation} {rest : List ℕ}
  {t : List ObservationRequest} {clientID : UInt16} {uri : Uri}

/-! ### The list of a client -/

/-- Setting the status of an observation leaves the rest of it. -/
theorem map_setObservationStatus {β : Type} {f : ServerObservation → β}
    (hf : ∀ o status, f { o with status } = f o) (status : Status) :
    (setObservationStatus l o status).map f = l.map f := by
  unfold setObservationStatus
  rw [List.map_map]
  refine List.map_congr_left fun o' _ => ?_
  rw [Function.comp_apply]
  split_ifs
  · exact hf o' status
  · rfl

theorem ObservedClient.Sound.setStatus (h : client.Sound) (o : ServerObservation)
    (status : Status) (observationId : UInt16) :
    ObservedClient.Sound { client with
      observationId, observationList := setObservationStatus client.observationList o status } := by
  have hids : client.observationList.map ServerObservation.id = _ :=
    (map_setObservationStatus (o := o) (fun _ _ => rfl) status).symm
  have huris : client.observationList.map ServerObservation.uri = _ :=
    (map_setObservationStatus (o := o) (fun _ _ => rfl) status).symm
  exact ⟨List.pairwise_map.mp (hids ▸ List.pairwise_map.mpr h.sorted),
    List.pairwise_map.mp (huris ▸ List.pairwise_map.mpr h.uris)⟩

variable {before after : List ServerObservation} {id : UInt16} {message : Option Packet}

theorem ObservedClient.Sound.without
    (h : ObservedClient.Sound { client with observationList := before ++ o :: after }) :
    ObservedClient.Sound { client with observationList := before ++ after } := by
  have hsub : (before ++ after).Sublist (before ++ o :: after) :=
    (List.sublist_cons_self o after).append_left before
  exact ⟨h.sorted.sublist hsub, h.uris.sublist hsub⟩

/-- An observation in a list is the one that is removed by its identifier. -/
theorem listRemove_observation (h : (before ++ o :: after).Pairwise (·.id < ·.id)) :
    listRemove ServerObservation.id (before ++ o :: after) o.id = (before ++ after, some o) :=
  listRemove_append fun x hx => (List.pairwise_append.mp h).2.2 x hx o List.mem_cons_self

/-- The nodes of a client with one of them in front. -/
theorem nodes_perm (before after : List ServerObservation) (o : ServerObservation)
    (rest : List ℕ) :
    ((before ++ o :: after).map ServerObservation.address ++ rest).Perm
      (o.address :: ((before ++ after).map ServerObservation.address ++ rest)) := by
  have hmiddle : (before ++ o :: after).Perm (o :: (before ++ after)) := List.perm_middle
  exact (hmiddle.map ServerObservation.address).append_right rest

/-- **Removing an observation** of the list takes it out and frees it. -/
theorem observeRemove_eq_ok (h : (before ++ o :: after).Pairwise (·.id < ·.id))
    (hown : Owns Memory.empty [] memory
      ((before ++ o :: after).map ServerObservation.address ++ rest)) :
    observeRemove memory (before ++ o :: after) (some o) =
        .ok (memory.release o.address, before ++ after) ∧
      Owns Memory.empty [] (memory.release o.address)
        ((before ++ after).map ServerObservation.address ++ rest) := by
  have hnodes := hown.perm (nodes_perm before after o rest)
  refine ⟨?_, hnodes.release⟩
  rw [observeRemove, if_pos (hnodes.allocated _ List.mem_cons_self), listRemove_observation h]

/-- An observation with a new identifier and a new URI is added. -/
theorem sound_listAdd (h : client.Sound) (hid : ∀ x ∈ client.observationList, x.id ≠ o.id)
    (huri : ∀ x ∈ client.observationList, x.uri ≠ o.uri) :
    ObservedClient.Sound { client with
      observationList := listAdd ServerObservation.id o client.observationList } := by
  refine ⟨listAdd_pairwise h.sorted hid, ?_⟩
  refine (listAdd_perm o client.observationList).symm.pairwise ?_ fun h => Ne.symm h
  exact List.pairwise_cons.mpr ⟨fun x hx => (huri x hx).symm, h.uris⟩

/-- What is found by its URI. -/
theorem mem_of_findObservation (h : prvFindObservationByURI client uri = some o) :
    o ∈ client.observationList ∧ o.uri = uri := by
  exact ⟨List.mem_of_find?_eq_some h, by simpa using List.find?_some h⟩

theorem findObservation_eq_none_iff :
    prvFindObservationByURI client uri = none ↔ ∀ o ∈ client.observationList, o.uri ≠ uri := by
  unfold prvFindObservationByURI
  simp

/-! ### The clients -/

theorem findClient_eq_some (h : findClient contextP.clientList clientID = some clientP) :
    clientP.list = contextP.clientList ∧ clientP.here.internalID = clientID := by
  obtain ⟨hfocus, hid⟩ := Option.filter_eq_some_iff.mp h
  exact ⟨(focusFirst_eq_some_iff.mp hfocus).1, of_decide_eq_true hid⟩

/-- The client that is found, and the nodes of the others. -/
theorem ObservationContext.Sound.of_findClient (h : contextP.Sound)
    (hfind : findClient contextP.clientList clientID = some clientP) :
    clientP.here.Sound ∧ Owns Memory.empty [] contextP.memory
      (clientP.here.nodes ++ clientP.unlink.flatMap ObservedClient.nodes) := by
  have hlist := (findClient_eq_some hfind).1
  refine ⟨h.clients _ (hlist ▸ clientP.here_mem_list), ?_⟩
  have howns := h.owns
  rw [← hlist] at howns
  exact howns.perm (Focus.flatMap_set_perm _ clientP clientP.here)

/-- One client is changed. -/
theorem ObservationContext.Sound.setClient (h : contextP.Sound)
    (hfind : findClient contextP.clientList clientID = some clientP) (hclient : client.Sound)
    (howns : Owns Memory.empty [] memory
      (client.nodes ++ clientP.unlink.flatMap ObservedClient.nodes)) :
    ObservationContext.Sound ⟨memory, clientP.set client, t⟩ := by
  have hlist := (findClient_eq_some hfind).1
  refine ⟨fun c hc => ?_, howns.perm (Focus.flatMap_set_perm _ clientP client).symm⟩
  rcases Focus.mem_set.mp hc with rfl | hc
  · exact hclient
  · exact h.clients c (hlist ▸ Focus.mem_list.mpr (.inr hc))

theorem ObservedClient.Sound.observationId (h : client.Sound) (observationId : UInt16) :
    ObservedClient.Sound { client with observationId } := ⟨h.sorted, h.uris⟩

/-! ### The calls of the user -/

theorem ObservationContext.Sound.lwm2mObserve (h : contextP.Sound) (clientID : UInt16)
    (uriP : Uri) (send : Option ℤ) : (contextP.lwm2mObserve clientID uriP send).1.Sound := by
  unfold ObservationContext.lwm2mObserve
  split
  · exact h
  cases hfind : findClient contextP.clientList clientID with
  | none => exact h
  | some clientP =>
    obtain ⟨hclient, hown⟩ := h.of_findClient hfind
    dsimp only
    split
    · exact h.setClient hfind (hclient.observationId _) hown
    cases send with
    | none => exact h.setClient hfind (hclient.observationId _) hown
    | some ret =>
      cases prvFindObservationByURI clientP.here uriP with
      | none =>
        dsimp only
        split
        · exact h.setClient hfind (hclient.observationId _) hown
        · exact h.setClient hfind (hclient.observationId _) hown
      | some o =>
        have hset := hclient.setStatus o .regPending (clientP.here.observationId + 1)
        rw [ObservedClient.nodes, ← map_setObservationStatus (o := o) (fun _ _ => rfl)
          .regPending] at hown
        dsimp only
        split
        · exact h.setClient hfind hset hown
        · exact h.setClient hfind hset hown

/-- A call of `lwm2m_observe_cancel` fails at no access. -/
theorem ObservationContext.Sound.lwm2mObserveCancel (h : contextP.Sound) (clientID : UInt16)
    (uriP : Uri) (send : Option ℤ) :
    ∃ r, contextP.lwm2mObserveCancel clientID uriP send = .ok r ∧ r.1.Sound := by
  unfold ObservationContext.lwm2mObserveCancel
  cases hfind : findClient contextP.clientList clientID with
  | none => exact ⟨_, rfl, h⟩
  | some clientP =>
    obtain ⟨hclient, hown⟩ := h.of_findClient hfind
    dsimp only
    cases hobservation : prvFindObservationByURI clientP.here uriP with
    | none => exact ⟨_, rfl, h⟩
    | some o =>
      dsimp only
      split
      · cases send with
        | none => exact ⟨_, rfl, h⟩
        | some ret =>
          have hset := hclient.setStatus o .deregPending clientP.here.observationId
          rw [ObservedClient.nodes, ← map_setObservationStatus (o := o) (fun _ _ => rfl)
            .deregPending] at hown
          dsimp only
          split
          · exact ⟨_, rfl, h.setClient hfind hset hown⟩
          · exact ⟨_, rfl, h.setClient hfind hset hown⟩
      · obtain ⟨before, after, hl⟩ := List.append_of_mem (List.mem_of_find?_eq_some hobservation)
        have hsplit : ObservedClient.Sound
            { clientP.here with observationList := before ++ o :: after } := hl ▸ hclient
        rw [ObservedClient.nodes, hl] at hown
        obtain ⟨hremove, hown'⟩ := observeRemove_eq_ok hsplit.sorted hown
        rw [hl, hremove]
        exact ⟨_, rfl, h.setClient hfind hsplit.without hown'⟩

/-! ### Registrations -/

/-- **The loop of an update** takes the observations out that it is to, and keeps the others. -/
theorem dropObservations_eq_ok (objects : List ClientObject) {kept next : List ServerObservation}
    (h : ObservedClient.Sound { client with observationList := kept ++ next })
    (hown : Owns Memory.empty [] memory ((kept ++ next).map ServerObservation.address ++ rest)) :
    ∃ memory' l', ObservationContext.dropObservations objects memory (kept ++ next) next =
        .ok (memory', l') ∧ ObservedClient.Sound { client with observationList := l' } ∧
      Owns Memory.empty [] memory' (l'.map ServerObservation.address ++ rest) := by
  induction next generalizing memory kept with
  | nil => exact ⟨memory, kept ++ [], rfl, h, hown⟩
  | cons o next ih =>
    rw [ObservationContext.dropObservations]
    split
    · rw [List.append_cons] at h hown ⊢
      exact ih h hown
    · obtain ⟨hremove, hown'⟩ := observeRemove_eq_ok h.sorted hown
      rw [hremove, ok_bind]
      exact ih h.without hown'

theorem ObservationContext.Sound.registrationUpdate (h : contextP.Sound) (clientID : UInt16)
    (objects : Option (List ClientObject)) :
    ∃ r, contextP.registrationUpdate clientID objects = .ok r ∧ r.1.Sound := by
  unfold ObservationContext.registrationUpdate
  cases hfind : findClient contextP.clientList clientID with
  | none => exact ⟨_, rfl, h⟩
  | some clientP =>
    cases objects with
    | none => exact ⟨_, rfl, h⟩
    | some objects =>
      obtain ⟨hclient, hown⟩ := h.of_findClient hfind
      have hall : ObservedClient.Sound
          { clientP.here with observationList := [] ++ clientP.here.observationList } := hclient
      obtain ⟨memory', l', hdrop, hclient', hown'⟩ := dropObservations_eq_ok objects hall hown
      change ObservationContext.dropObservations objects contextP.memory
        clientP.here.observationList clientP.here.observationList = _ at hdrop
      dsimp only
      rw [hdrop]
      exact ⟨_, rfl, h.setClient hfind hclient' hown'⟩

/-- The observations of a client are freed, each once. -/
theorem freeObservations_eq_ok
    (hown : Owns Memory.empty [] memory (l.map ServerObservation.address ++ rest)) :
    ∃ memory', ObservationContext.freeObservations memory l = .ok memory' ∧
      Owns Memory.empty [] memory' rest := by
  induction l generalizing memory with
  | nil => exact ⟨memory, rfl, hown⟩
  | cons o l ih =>
    rw [ObservationContext.freeObservations, if_pos (hown.allocated _ List.mem_cons_self)]
    exact ih hown.release

theorem ObservationContext.Sound.deregister (h : contextP.Sound) (clientID : UInt16) :
    ∃ r, contextP.deregister clientID = .ok r ∧ r.1.Sound := by
  unfold ObservationContext.deregister
  cases hremove : listRemove ObservedClient.internalID contextP.clientList clientID with
  | mk clientList clientP =>
    cases clientP with
    | none => exact ⟨_, rfl, h⟩
    | some clientP =>
      have hperm := listRemove_perm hremove
      have hown := h.owns.perm (hperm.flatMap_right ObservedClient.nodes)
      obtain ⟨memory', hfree, hown'⟩ := freeObservations_eq_ok hown
      dsimp only
      rw [hfree]
      refine ⟨_, rfl, fun client hclient => ?_, hown'⟩
      exact h.clients client (hperm.mem_iff.mpr (List.mem_cons_of_mem _ hclient))

theorem ObservationContext.Sound.registerClient (h : contextP.Sound) :
    contextP.registerClient.Sound := by
  refine ⟨fun client hclient => ?_, ?_⟩
  · rcases mem_listAdd.mp hclient with rfl | hclient
    · exact ⟨.nil, .nil⟩
    · exact h.clients client hclient
  · have hperm : (contextP.registerClient.clientList.flatMap ObservedClient.nodes).Perm
        (contextP.clientList.flatMap ObservedClient.nodes) :=
      (listAdd_perm _ contextP.clientList).flatMap_right ObservedClient.nodes
    exact h.owns.perm hperm.symm


/-! ### Answers -/

theorem TouchesOwn.refl (client : UInt16) (uri : Uri) (contextP : ObservationContext) :
    TouchesOwn client uri contextP contextP :=
  ⟨List.forall₂_same.mpr fun _ _ => .inl rfl, fun _ ha => .inl ha⟩

/-- The observations of the client of a request are changed. -/
theorem TouchesOwn.setObservations
    (hfind : findClient contextP.clientList clientID = some clientP)
    (hdiffers : DiffersAt uri contextP.memory clientP.here.observationList l)
    (hfreed : ∀ a, (contextP.memory.cells a).isSome → (memory.cells a).isSome ∨
      ∃ o ∈ clientP.here.observationList, o.uri = uri ∧ o.address = a) :
    TouchesOwn clientID uri contextP (contextP.setObservations clientP memory l) := by
  obtain ⟨hlist, hid⟩ := findClient_eq_some hfind
  refine ⟨?_, fun a ha => (hfreed a ha).imp_right fun ho => ?_⟩
  · rw [← hlist]
    exact Focus.forall₂_set_iff.mpr ⟨.inr ⟨hid, hid, hdiffers⟩, fun _ _ => .inl rfl⟩
  · exact ⟨clientP.here, hlist ▸ clientP.here_mem_list, hid, ho⟩

/-- An answer that enters no observation changes nothing. -/
theorem prvObsRequestCallback_eq {client : UInt16}
    (h : ∀ clientP, ¬ Establishes contextP client uri message clientP) :
    (contextP.prvObsRequestCallback id client uri message).1 = contextP := by
  unfold ObservationContext.prvObsRequestCallback
  cases hfind : findClient contextP.clientList client with
  | none => rfl
  | some clientP =>
    cases message with
    | none => rfl
    | some packet =>
      dsimp only
      split
      · rfl
      · rename_i hnot
        rw [not_or, not_not] at hnot
        obtain ⟨hcode, hmore⟩ := hnot
        unfold ObservationContext.observeCode at hcode
        dsimp only at hcode
        split_ifs at hcode with hpending hobserve
        · cases hcode
        · cases hcode
        · refine absurd ⟨hfind, ⟨packet, rfl, hcode, hmore⟩, ?_, ?_⟩ (h clientP)
          · rintro _ ⟨⟩
            by_contra hnone
            exact hobserve ⟨hcode, hnone⟩
          · intro o ho hstatus
            rw [ho, Option.any_some, decide_eq_true hstatus] at hpending
            exact hpending rfl

/-- What is entered in the list of a client: a node with the identifier and the URI of the request,
beside the observations of other URIs. -/
structure Entered (id : UInt16) (uri : Uri) (memory : Memory Unit) (client : ObservedClient)
    (others : List ℕ) (memory' : Memory Unit) (n : ServerObservation)
    (rest : List ServerObservation) : Prop where
  id_eq : n.id = id
  uri_eq : n.uri = uri
  mem_rest : ∀ x, x ∈ rest ↔ x ∈ client.observationList ∧ x.uri ≠ uri
  sound : ObservedClient.Sound { client with observationList := rest }
  owns : Owns Memory.empty [] memory'
    (n.address :: (rest.map ServerObservation.address ++ others))
  address : memory.cells n.address = none ∨
    ∃ o ∈ client.observationList, o.uri = uri ∧ n.address = o.address
  kept : ∀ a, (memory.cells a).isSome → (memory'.cells a).isSome

/-- An answer that enters an observation. -/
theorem Establishes.exists_entered (id : UInt16) (h : contextP.Sound)
    (he : Establishes contextP clientID uri message clientP) :
    ∃ memory' n l, Entered id uri contextP.memory clientP.here
        (clientP.unlink.flatMap ObservedClient.nodes) memory' n l ∧
      (contextP.prvObsRequestCallback id clientID uri message).1 =
        contextP.setObservations clientP memory' (listAdd ServerObservation.id n l) ∧
      n.status = .registered := by
  obtain ⟨hclient, hown⟩ := h.of_findClient he.found
  obtain ⟨packet, rfl, hcode, hmore⟩ := he.ends
  have hobserve := he.observes packet rfl
  have hany :
      (prvFindObservationByURI clientP.here uri).any (·.status = .deregPending) = false := by
    cases ho : prvFindObservationByURI clientP.here uri with
    | none => rfl
    | some o => exact decide_eq_false (he.wanted o ho)
  have hcode' : ObservationContext.observeCode (prvFindObservationByURI clientP.here uri)
      (some packet) = coap205Content := by
    unfold ObservationContext.observeCode
    rw [if_neg (by rw [hany]; exact Bool.false_ne_true)]
    dsimp only
    rw [if_neg fun hnot => hnot.2 hobserve, hcode]
  unfold ObservationContext.prvObsRequestCallback
  rw [he.found]
  dsimp only
  rw [hcode', if_neg (not_or.mpr ⟨not_not.mpr rfl, hmore⟩)]
  cases ho : prvFindObservationByURI clientP.here uri with
  | none =>
    have hnone := findObservation_eq_none_iff.mp ho
    refine ⟨_, ⟨_, id, uri, .registered⟩, _, ⟨rfl, rfl, fun x => ?_, hclient, hown.alloc (),
      .inl (contextP.memory.fresh _ le_rfl), fun a ha => ?_⟩, rfl, rfl⟩
    · exact (and_iff_left_of_imp fun hx => hnone x hx).symm
    · rwa [alloc_cells_of_lt (lt_frontier ha)]
  | some o =>
    obtain ⟨hmem, huri⟩ := mem_of_findObservation ho
    obtain ⟨before, after, hl⟩ := List.append_of_mem hmem
    have hsplit : ObservedClient.Sound
        { clientP.here with observationList := before ++ o :: after } := hl ▸ hclient
    rw [ObservedClient.nodes, hl] at hown
    refine ⟨contextP.memory, ⟨o.address, id, uri, .registered⟩, before ++ after,
      ⟨rfl, rfl, fun x => ?_, hsplit.without, hown.perm (nodes_perm _ _ _ _),
        .inr ⟨o, hmem, huri, rfl⟩, fun _ ha => ha⟩, ?_, rfl⟩
    · have hperm : (before ++ o :: after).Perm (o :: (before ++ after)) := List.perm_middle
      have hpairs := List.pairwise_cons.mp
        (hperm.pairwise hsplit.uris fun hne => Ne.symm hne)
      rw [hl, hperm.mem_iff, List.mem_cons]
      constructor
      · intro hx
        exact ⟨.inr hx, fun heq => hpairs.1 x hx (huri.trans heq.symm)⟩
      · rintro ⟨rfl | hx, hne⟩
        · exact absurd huri hne
        · exact hx
    · dsimp only
      rw [hl, listRemove_observation hsplit.sorted]

variable {n : ServerObservation} {others : List ℕ}

/-- What is entered keeps the observations distinct exactly when its identifier is not the one of
another observation. -/
theorem Entered.sound_iff (h : Entered id uri memory client others memory' n l) :
    ObservedClient.Sound { client with observationList := listAdd ServerObservation.id n l } ↔
      ∀ o ∈ client.observationList, o.id = id → o.uri = uri := by
  constructor
  · intro hsound o ho hid
    by_contra huri
    have hold := listFind_of_mem hsound.sorted
      (mem_listAdd.mpr (.inr ((h.mem_rest o).mpr ⟨ho, huri⟩)))
    have hnew := listFind_of_mem hsound.sorted (mem_listAdd.mpr (.inl rfl))
    rw [h.id_eq, ← hid, hold] at hnew
    exact huri (Option.some.inj hnew ▸ h.uri_eq)
  · intro hown
    refine sound_listAdd h.sound (fun x hx heq => ?_) fun x hx heq => ?_
    · obtain ⟨hmem, hne⟩ := (h.mem_rest x).mp hx
      exact hne (hown x hmem (heq.trans h.id_eq))
    · exact ((h.mem_rest x).mp hx).2 (heq.trans h.uri_eq)

theorem Entered.differsAt (h : Entered id uri memory client others memory' n l) :
    DiffersAt uri memory client.observationList (listAdd ServerObservation.id n l) := by
  refine ⟨fun o huri => ?_, fun o ho huri => ?_⟩
  · rw [mem_listAdd, h.mem_rest]
    constructor
    · rintro (rfl | ho)
      · exact absurd h.uri_eq huri
      · exact ho.1
    · exact fun ho => .inr ⟨ho, huri⟩
  · rcases mem_listAdd.mp ho with rfl | ho
    · exact h.address
    · exact absurd huri ((h.mem_rest o).mp ho).2


/-- **The answer to `lwm2m_observe`.** -/
theorem prvObsRequestCallback_iff (h : contextP.Sound) :
    ((contextP.prvObsRequestCallback id clientID uri message).1.Sound ∧
      TouchesOwn clientID uri contextP
        (contextP.prvObsRequestCallback id clientID uri message).1) ↔
      FindsOwn contextP message (.observe id clientID uri) := by
  by_cases hex : ∃ clientP, Establishes contextP clientID uri message clientP
  · obtain ⟨clientP, he⟩ := hex
    obtain ⟨memory', n, rest, hentered, hresult, -⟩ := he.exists_entered id h
    have hsound : (contextP.setObservations clientP memory'
        (listAdd ServerObservation.id n rest)).Sound ↔
          ∀ o ∈ clientP.here.observationList, o.id = id → o.uri = uri := by
      rw [← hentered.sound_iff]
      constructor
      · intro hall
        exact hall.clients _ (Focus.mem_set.mpr (.inl rfl))
      · intro hclient
        refine h.setClient he.found hclient (hentered.owns.perm ?_)
        exact ((listAdd_perm n rest).map ServerObservation.address).symm.append_right _
    have htouches := TouchesOwn.setObservations he.found hentered.differsAt fun a ha =>
      .inl (hentered.kept a ha)
    rw [hresult, hsound, and_iff_left htouches]
    constructor
    · intro hown clientP' he'
      cases he.found.symm.trans he'.found
      exact hown
    · intro hown
      exact hown clientP he
  · rw [prvObsRequestCallback_eq (not_exists.mp hex)]
    exact iff_of_true ⟨h, .refl _ _ _⟩ fun clientP he => absurd ⟨clientP, he⟩ hex

/-- **The answer to `lwm2m_observe_cancel`.** -/
theorem prvObsCancelRequestCallback_iff (h : contextP.Sound) :
    (∃ r, contextP.prvObsCancelRequestCallback clientID uri message = .ok r ∧ r.1.Sound ∧
      TouchesOwn clientID uri contextP r.1) ↔
      FindsOwn contextP message (.cancel clientID uri) := by
  unfold ObservationContext.prvObsCancelRequestCallback
  cases hfind : findClient contextP.clientList clientID with
  | none =>
    refine iff_of_true ⟨_, rfl, h, .refl _ _ _⟩ fun _ clientP hclient => ?_
    rw [hfind] at hclient
    cases hclient
  | some clientP =>
    cases message with
    | none =>
      refine iff_of_true ⟨_, rfl, h, .refl _ _ _⟩ ?_
      rintro ⟨packet, hmessage, -⟩
      cases hmessage
    | some packet =>
      dsimp only
      split
      · rename_i hcode
        refine iff_of_true ⟨_, rfl, h, .refl _ _ _⟩ ?_
        rintro ⟨_, ⟨⟩, hends, -⟩
        exact absurd hends hcode
      · rename_i hcode
        split
        · rename_i hmore
          refine iff_of_true ⟨_, rfl, h, .refl _ _ _⟩ ?_
          rintro ⟨_, ⟨⟩, -, hends⟩
          exact absurd hmore hends
        · rename_i hmore
          have hends : EndsContent (some packet) := ⟨packet, rfl, not_not.mp hcode, hmore⟩
          cases ho : prvFindObservationByURI clientP.here uri with
          | none =>
            refine iff_of_false ?_ fun hown => ?_
            · rintro ⟨r, hr, -⟩
              cases hr
            · obtain ⟨o, hmem, huri⟩ := hown hends clientP hfind
              exact findObservation_eq_none_iff.mp ho o hmem huri
          | some o =>
            obtain ⟨hmem, huri⟩ := mem_of_findObservation ho
            obtain ⟨hclient, hown⟩ := h.of_findClient hfind
            obtain ⟨before, after, hl⟩ := List.append_of_mem hmem
            have hsplit : ObservedClient.Sound
                { clientP.here with observationList := before ++ o :: after } := hl ▸ hclient
            rw [ObservedClient.nodes, hl] at hown
            obtain ⟨hremove, hown'⟩ := observeRemove_eq_ok hsplit.sorted hown
            rw [hl, hremove]
            refine iff_of_true ⟨_, rfl, h.setClient hfind hsplit.without hown', ?_⟩
              fun _ clientP' hfind' => ?_
            · refine .setObservations hfind (hl ▸ ⟨fun o' huri' => ?_, fun o' ho' huri' => ?_⟩)
                fun a ha => ?_
              · have hperm : (before ++ o :: after).Perm (o :: (before ++ after)) :=
                  List.perm_middle
                rw [hperm.mem_iff, List.mem_cons]
                exact (or_iff_right fun heq : o' = o => huri' (heq ▸ huri)).symm
              · have hsub : (before ++ after).Sublist (before ++ o :: after) :=
                  (List.sublist_cons_self o after).append_left before
                exact .inr ⟨o', hsub.mem ho', huri', rfl⟩
              · by_cases heq : a = o.address
                · exact .inr ⟨o, hmem, huri, heq.symm⟩
                · exact .inl (by rwa [release_cells_of_ne heq])
            · cases hfind.symm.trans hfind'
              exact ⟨o, hmem, huri⟩

/-! ### Events and runs -/

/-- A pending request is answered. -/
theorem callback_iff (request : ObservationRequest) (h : contextP.Sound) :
    (∃ contextP', request.callback contextP message = .ok contextP' ∧ contextP'.Sound ∧
      TouchesOwn request.client request.uri contextP contextP') ↔
      FindsOwn contextP message request := by
  cases request with
  | observe id client uri =>
    rw [← prvObsRequestCallback_iff h]
    constructor
    · rintro ⟨_, ⟨⟩, hsound⟩
      exact hsound
    · intro hsound
      exact ⟨_, rfl, hsound⟩
  | cancel client uri =>
    rw [← prvObsCancelRequestCallback_iff h]
    constructor
    · rintro ⟨_, hcallback, hsound⟩
      obtain ⟨r, hr, rfl⟩ := map_eq_ok_iff.mp hcallback
      exact ⟨r, hr, hsound⟩
    · rintro ⟨r, hr, hsound⟩
      exact ⟨r.1, map_eq_ok_iff.mpr ⟨r, hr, rfl⟩, hsound⟩

/-- An event that is no answer. -/
theorem eventSound_of_step {event : ObservationEvent}
    (hstep : ∃ contextP', observationStep contextP event = .ok contextP' ∧ contextP'.Sound)
    (hevent : ∀ i message, event ≠ .reply i message) :
    EventSound contextP event ↔ EventFindsOwn contextP event := by
  obtain ⟨contextP', hstep, hsound⟩ := hstep
  exact iff_of_true ⟨contextP', hstep, hsound, fun i message _ heq => absurd heq (hevent i message)⟩
    fun i message _ heq => absurd heq (hevent i message)

/-- **One event.** -/
theorem eventSound_iff (event : ObservationEvent) (h : contextP.Sound) :
    EventSound contextP event ↔ EventFindsOwn contextP event := by
  have hmap {α : Type} {x : Except Fault (ObservationContext × α)}
      (hx : ∃ r, x = .ok r ∧ r.1.Sound) :
      ∃ contextP', (·.1) <$> x = .ok contextP' ∧ contextP'.Sound := by
    obtain ⟨r, hr, hsound⟩ := hx
    exact ⟨r.1, map_eq_ok_iff.mpr ⟨r, hr, rfl⟩, hsound⟩
  cases event with
  | observe clientID uriP send =>
    exact eventSound_of_step ⟨_, rfl, h.lwm2mObserve clientID uriP send⟩ nofun
  | cancel clientID uriP send =>
    exact eventSound_of_step (hmap (h.lwm2mObserveCancel clientID uriP send)) nofun
  | nextBlock i => exact eventSound_of_step ⟨_, rfl, h.clients, h.owns⟩ nofun
  | register => exact eventSound_of_step ⟨_, rfl, h.registerClient⟩ nofun
  | update clientID objects =>
    exact eventSound_of_step (hmap (h.registrationUpdate clientID objects)) nofun
  | deregister clientID => exact eventSound_of_step (hmap (h.deregister clientID)) nofun
  | reply i message =>
    unfold EventSound EventFindsOwn
    cases hget : contextP.transactionList[i]? with
    | none =>
      refine iff_of_true ⟨contextP, ?_, h, fun j _ request heq hrequest => ?_⟩
        fun j _ request heq hrequest => ?_
      · rw [observationStep, hget]
      · cases heq
        rw [hget] at hrequest
        cases hrequest
      · cases heq
        rw [hget] at hrequest
        cases hrequest
    | some request =>
      have hstep : observationStep contextP (.reply i message) = (do
          let contextP' ← request.callback contextP message
          pure { contextP' with transactionList := contextP'.transactionList.eraseIdx i }) := by
        rw [observationStep, hget]
      rw [hstep]
      have hall : (∀ j message' request', ObservationEvent.reply i message = .reply j message' →
          contextP.transactionList[j]? = some request' → FindsOwn contextP message' request') ↔
            FindsOwn contextP message request := by
        constructor
        · intro hown
          exact hown i message request rfl hget
        · intro hown j message' request' heq hrequest
          cases heq
          cases hget.symm.trans hrequest
          exact hown
      rw [hall, ← callback_iff request h]
      constructor
      · rintro ⟨contextP', hok, hsound, htouches⟩
        obtain ⟨contextP₁, hcallback, hok⟩ := bind_eq_ok_iff.mp hok
        cases hok
        have htouches := htouches i message request rfl hget
        exact ⟨contextP₁, hcallback, ⟨hsound.clients, hsound.owns⟩,
          ⟨htouches.clients, htouches.freed⟩⟩
      · rintro ⟨contextP₁, hcallback, hsound, htouches⟩
        refine ⟨_, bind_eq_ok_iff.mpr ⟨contextP₁, hcallback, rfl⟩, ⟨hsound.clients, hsound.owns⟩,
          fun j message' request' heq hrequest => ?_⟩
        cases heq
        cases hget.symm.trans hrequest
        exact ⟨htouches.clients, htouches.freed⟩

end

/-- **When the observations of a server are used as long as they are there**: along every sequence
of events, no event fails at an access, the observations of every client stay distinct and every
answer touches the observation of its own request only, exactly when every answer finds what it is
about. -/
theorem observations_sound_iff {contextP : ObservationContext} (events : List ObservationEvent)
    (h : contextP.Sound) :
    EveryEvent EventSound contextP events ↔ EveryEvent EventFindsOwn contextP events := by
  induction events generalizing contextP with
  | nil => rfl
  | cons event events ih =>
    unfold EveryEvent
    rw [← eventSound_iff event h]
    refine and_congr_right fun hevent => forall₂_congr fun contextP' hstep => ?_
    obtain ⟨contextP₁, hstep₁, hsound, -⟩ := hevent
    cases hstep.symm.trans hstep₁
    exact ih hsound

theorem empty_sound : ObservationContext.Sound {} :=
  ⟨fun _ hclient => absurd hclient List.not_mem_nil,
    .nil fun _ ha => absurd ha List.not_mem_nil⟩

/-- The content of the object 3, with an Observe option. -/
def observedContent : Packet := (coapInitMessage .ack coap205Content 1).markOption .observe

/-- A client registers, its object 3 is observed, and the observation is entered. -/
def observesDevice : List ObservationEvent :=
  [.register, .observe 0 { objectId := 3 } (some 0), .reply 0 (some observedContent)]

/-- **Two cancels of one URI.**  The second one takes the observation out, and the answer to the
first one removes NULL. -/
theorem cancelTwice_fails :
    ¬ ∀ events : List ObservationEvent, EveryEvent EventSound {} events := by
  intro h
  have hrun := h (observesDevice ++
    [.cancel 0 { objectId := 3 } (some 0), .cancel 0 { objectId := 3 } (some 0),
      .reply 0 (some (coapInitMessage .ack coap205Content 2))])
  have hcancels := ((hrun.2 _ rfl).2 _ rfl).2 _ rfl
  obtain ⟨contextP', hreply, -⟩ := ((hcancels.2 _ rfl).2 _ rfl).1
  cases hreply

/-- One cancel, and its answer. -/
theorem cancelOnce_sound :
    EveryEvent EventSound {} (observesDevice ++ [.cancel 0 { objectId := 3 } (some 0),
      .reply 0 (some (coapInitMessage .ack coap205Content 2))]) := by
  refine (observations_sound_iff _ empty_sound).mpr ⟨nofun, fun _ h₁ => ?_⟩
  cases h₁
  refine ⟨nofun, fun _ h₂ => ?_⟩
  cases h₂
  refine ⟨?_, fun _ h₃ => ?_⟩
  · rintro _ _ request ⟨⟩ ⟨⟩
    intro clientP he
    cases he.found
    exact fun o ho => absurd ho List.not_mem_nil
  cases h₃
  refine ⟨nofun, fun _ h₄ => ?_⟩
  cases h₄
  refine ⟨?_, fun _ _ => trivial⟩
  rintro _ _ request ⟨⟩ ⟨⟩
  intro _ clientP hfind
  cases hfind
  exact ⟨_, List.mem_cons_self, rfl⟩

end Lwm2m.Core

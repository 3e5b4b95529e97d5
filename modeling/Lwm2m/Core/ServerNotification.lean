/-
# Notifications to a server

`observe_handleNotify` of `core/observe.c` in server mode.  The token of an observe request is made
of the identifier of the client and of the observation, so a notification names the observation that
it is for, and the callback of that one is called.  Identifiers of clients are used again after a
deregistration, those of observations wrap at 16 bits, and the session that the message comes from
takes no part in the search.

The runs are those of the observations of a server, with the sessions that clients register from.
Beside the state stands what cannot be seen in it: which requests have entered a node.
-/

import Lwm2m.Core.ServerObservations
import Lwm2m.Library.Run

namespace Lwm2m.Core

open Coap Code Library Library.Memory

/-! ### The token -/

/-- Two bytes of a token as an identifier. -/
def tokenWord (hi lo : Byte) : UInt16 := hi.toUInt16 <<< 8 ||| lo.toUInt16

/-- The token of the requests of `observe.c`. -/
def observationToken (client id : UInt16) : List Byte :=
  [(client >>> 8).toUInt8, client.toUInt8, (id >>> 8).toUInt8, id.toUInt8]

/-- The token of an observe request; a cancel has the one of its observation. -/
def ObservationRequest.token : ObservationRequest → Option (List Byte)
  | .observe id client _ => some (observationToken client id)
  | .cancel _ _ => none

theorem tokenWord_toNat (hi lo : Byte) : (tokenWord hi lo).toNat = hi.toNat * 256 + lo.toNat := by
  have hhi := hi.toNat_lt
  have hlo := lo.toNat_lt
  have hshift : hi.toNat <<< 8 % 2 ^ 16 = hi.toNat <<< 8 := by
    rw [Nat.shiftLeft_eq]
    exact Nat.mod_eq_of_lt (by omega)
  rw [tokenWord, UInt16.toNat_or, UInt16.toNat_shiftLeft, UInt8.toNat_toUInt16, UInt8.toNat_toUInt16]
  show hi.toNat <<< (8 % 16) % 2 ^ 16 ||| lo.toNat = _
  rw [show 8 % 16 = 8 from rfl, hshift, ← Nat.shiftLeft_add_eq_or_of_lt hlo, Nat.shiftLeft_eq]

/-- A token of four bytes is the one of the identifiers that are read from it. -/
theorem observationToken_tokenWord (b₀ b₁ b₂ b₃ : Byte) :
    observationToken (tokenWord b₀ b₁) (tokenWord b₂ b₃) = [b₀, b₁, b₂, b₃] := by
  have hhigh (hi lo : Byte) : (tokenWord hi lo >>> 8).toUInt8 = hi := by
    have hhi := hi.toNat_lt
    have hlo := lo.toNat_lt
    refine UInt8.toNat_inj.mp ?_
    rw [UInt16.toNat_toUInt8, UInt16.toNat_shiftRight, tokenWord_toNat]
    show (hi.toNat * 256 + lo.toNat) >>> (8 % 16) % 2 ^ 8 = hi.toNat
    rw [show 8 % 16 = 8 from rfl, Nat.shiftRight_eq_div_pow]
    omega
  have hlow (hi lo : Byte) : (tokenWord hi lo).toUInt8 = lo := by
    have hlo := lo.toNat_lt
    refine UInt8.toNat_inj.mp ?_
    rw [UInt16.toNat_toUInt8, tokenWord_toNat]
    omega
  rw [observationToken, hhigh, hlow, hhigh, hlow]

/-! ### A notification -/

/-- A call of the callback of an observation, whose `clientP` is the client: the counter, which
stands for the status, the block and the content. -/
structure NotificationCall where
  clientID : UInt16
  clientP : ObservedClient
  observationP : ServerObservation
  count : UInt32
  block : Option BlockFields
  contentType : UInt32
  payload : List Byte
  deriving DecidableEq, Repr

/-- What `observe_handleNotify` does: whether it is done with the message, what it sends, and the
callbacks that it calls. -/
structure NotifyResult where
  done : Bool
  sent : Option Packet := none
  calls : List NotificationCall := []
  deriving DecidableEq, Repr

/-- `observe_handleNotify`.  The session is only sent to. -/
def observeHandleNotify (contextP : ObservationContext) (message : Packet) : NotifyResult :=
  if ¬ message.isOption .token then { done := false }
  else
    match message.token with
    | [b₀, b₁, b₂, b₃] =>
      if ¬ message.isOption .observe then { done := false }
      else
        let clientID := tokenWord b₀ b₁
        let obsID := tokenWord b₂ b₃
        match findClient contextP.clientList clientID with
        | none => { done := false }
        | some clientP =>
          match listFind ServerObservation.id clientP.here.observationList obsID with
          | none => { done := true, sent := some (coapInitMessage .rst 0 message.mid) }
          | some observationP =>
            { done := true
              sent := if message.type = .con then some (coapInitMessage .ack 0 message.mid) else none
              calls := [⟨clientID, clientP.here, observationP, message.observe,
                if message.isOption .block2 then some message.block2 else none,
                message.contentType, message.payload⟩] }
    | _ => { done := false }

/-! ### Runs -/

/-- The node that an answer to `lwm2m_observe` enters in the list of the client, if it does. -/
def enteredNode (contextP : ObservationContext) (client : UInt16) (uriP : Uri)
    (message : Option Packet) : Option ℕ :=
  match findClient contextP.clientList client, message with
  | some clientP, some packet =>
    let observationP := prvFindObservationByURI clientP.here uriP
    if ObservationContext.observeCode observationP message ≠ coap205Content ∨
        ObservationContext.comesMore packet then none
    else some (observationP.elim contextP.memory.frontier ServerObservation.address)
  | _, _ => none

/-- A server, and the nodes that requests have entered, the last one first. -/
structure NotifiedServer where
  contextP : ObservationContext := {}
  established : List (ObservationRequest × ℕ) := []

/-- What happens to the clients of a server. -/
inductive NotifiedEvent
  | observation (event : ObservationEvent)
  /-- A new name registers from a session. -/
  | registerFrom (fromSessionH : Session)
  /-- A client registers again, or updates its registration, from a session. -/
  | moveTo (clientID : UInt16) (fromSessionH : Session)
  deriving DecidableEq, Repr

/-- The request that an event answers, and the node that it enters. -/
def enters (contextP : ObservationContext) : ObservationEvent → List (ObservationRequest × ℕ)
  | .reply i message =>
    match contextP.transactionList[i]? with
    | some (.observe id client uriP) =>
      ((enteredNode contextP client uriP message).map (.observe id client uriP, ·)).toList
    | _ => []
  | _ => []

/-- One event. -/
def notifiedStep (s : NotifiedServer) : NotifiedEvent → Except Fault NotifiedServer
  | .observation event => do
    let contextP ← observationStep s.contextP event
    pure ⟨contextP, enters s.contextP event ++ s.established⟩
  | .registerFrom sessionH =>
    let internalID := lwm2mListNewId (s.contextP.clientList.map ObservedClient.internalID)
    .ok { s with contextP := { s.contextP with
      clientList := listAdd ObservedClient.internalID { internalID, sessionH }
        s.contextP.clientList } }
  | .moveTo clientID sessionH =>
    match findClient s.contextP.clientList clientID with
    | none => .ok s
    | some clientP =>
      .ok { s with contextP := s.contextP.setClient clientP { clientP.here with sessionH } }

/-- **A callback is the right one**: its observation belongs to a client of the session that the
message came from, and a request with the token of the message entered it. -/
structure CallsOwn (s : NotifiedServer) (fromSessionH : Session) (message : Packet)
    (call : NotificationCall) : Prop where
  registered : call.clientP ∈ s.contextP.clientList
  observed : call.observationP ∈ call.clientP.observationList
  session : lwm2mSessionIsEqual call.clientP.sessionH fromSessionH
  token : ∃ request, (request, call.observationP.address) ∈ s.established ∧
    request.token = some message.token

/-- Every callback that a message causes is the right one, and it is called once. -/
def NotifiesOwn (s : NotifiedServer) (fromSessionH : Session) (message : Packet) : Prop :=
  ∀ call ∈ (observeHandleNotify s.contextP message).calls,
    (observeHandleNotify s.contextP message).calls = [call] ∧
      CallsOwn s fromSessionH message call

/-- The message comes from the session of the client that its token names, where that client has the
observation that the token names. -/
def NamesSender (contextP : ObservationContext) (fromSessionH : Session) (message : Packet) : Prop :=
  ∀ b₀ b₁ b₂ b₃, message.isOption .token → message.isOption .observe →
    message.token = [b₀, b₁, b₂, b₃] → ∀ clientP o,
      findClient contextP.clientList (tokenWord b₀ b₁) = some clientP →
      listFind ServerObservation.id clientP.here.observationList (tokenWord b₂ b₃) = some o →
        lwm2mSessionIsEqual clientP.here.sessionH fromSessionH

section

variable {contextP contextP' : ObservationContext} {clientP : Focus ObservedClient}
  {client : ObservedClient} {clientID : UInt16} {memory memory' : Memory Unit}
  {l l' : List ServerObservation} {o : ServerObservation} {s s' : NotifiedServer}

/-! ### Where observations come from -/

/-- The observations of the second list are ones of the first, their status apart. -/
def FewerObservations (l l' : List ServerObservation) : Prop :=
  ∀ o' ∈ l', ∃ o ∈ l, o.id = o'.id ∧ o.uri = o'.uri ∧ o.address = o'.address

theorem FewerObservations.of_subset (h : l' ⊆ l) : FewerObservations l l' :=
  fun o' ho' => ⟨o', h ho', rfl, rfl, rfl⟩

theorem fewer_setStatus (status : Status) :
    FewerObservations l (setObservationStatus l o status) := by
  intro o' ho'
  obtain ⟨x, hx, rfl⟩ := List.mem_map.mp ho'
  refine ⟨x, hx, ?_⟩
  split_ifs
  · exact ⟨rfl, rfl, rfl⟩
  · exact ⟨rfl, rfl, rfl⟩

theorem observeRemove_subset {o : Option ServerObservation}
    (h : observeRemove memory l o = .ok (memory', l')) : l' ⊆ l := by
  cases o with
  | none => cases h
  | some o =>
    rw [observeRemove] at h
    split_ifs at h
    cases h
    exact (listRemove_sublist l o.id).subset

theorem dropObservations_subset {objects : List ClientObject} {next : List ServerObservation}
    (h : ObservationContext.dropObservations objects memory l next = .ok (memory', l')) : l' ⊆ l := by
  induction next generalizing memory l with
  | nil =>
    cases h
    exact fun _ hx => hx
  | cons o next ih =>
    rw [ObservationContext.dropObservations] at h
    split_ifs at h
    · exact ih h
    · obtain ⟨⟨memory₁, l₁⟩, hremove, h⟩ := bind_eq_ok_iff.mp h
      exact fun _ hx => observeRemove_subset hremove (ih h hx)

/-- The observations of a server are ones that another one has, at the same client. -/
def Fewer (contextP contextP' : ObservationContext) : Prop :=
  ∀ client' ∈ contextP'.clientList, ∀ o' ∈ client'.observationList,
    ∃ client ∈ contextP.clientList, client.internalID = client'.internalID ∧
      ∃ o ∈ client.observationList, o.id = o'.id ∧ o.uri = o'.uri ∧ o.address = o'.address

theorem Fewer.refl (contextP : ObservationContext) : Fewer contextP contextP :=
  fun client hclient o ho => ⟨client, hclient, rfl, o, ho, rfl, rfl, rfl⟩

/-- One client is written to. -/
theorem Fewer.of_set (hfind : findClient contextP.clientList clientID = some clientP)
    (hlist : contextP'.clientList = clientP.set client)
    (hid : clientP.here.internalID = client.internalID)
    (hfewer : FewerObservations clientP.here.observationList client.observationList) :
    Fewer contextP contextP' := by
  obtain ⟨hfocus, -⟩ := findClient_eq_some hfind
  intro client' hclient' o' ho'
  rw [hlist] at hclient'
  rcases Focus.mem_set.mp hclient' with rfl | hother
  · exact ⟨clientP.here, hfocus ▸ clientP.here_mem_list, hid, hfewer o' ho'⟩
  · exact ⟨client', hfocus ▸ Focus.mem_list.mpr (.inr hother), rfl, o', ho', rfl, rfl, rfl⟩

theorem fewer_lwm2mObserve (contextP : ObservationContext) (clientID : UInt16) (uriP : Uri)
    (send : Option ℤ) : Fewer contextP (contextP.lwm2mObserve clientID uriP send).1 := by
  unfold ObservationContext.lwm2mObserve
  split_ifs
  · exact .refl _
  cases hfind : findClient contextP.clientList clientID with
  | none => exact .refl _
  | some clientP =>
    have hsame : FewerObservations clientP.here.observationList clientP.here.observationList :=
      .of_subset fun _ hx => hx
    dsimp only
    split
    · exact .of_set hfind rfl rfl hsame
    cases send with
    | none => exact .of_set hfind rfl rfl hsame
    | some ret =>
      cases prvFindObservationByURI clientP.here uriP with
      | none =>
        dsimp only
        split
        · exact .of_set hfind rfl rfl hsame
        · exact .of_set hfind rfl rfl hsame
      | some o =>
        dsimp only
        split
        · exact .of_set hfind rfl rfl (fewer_setStatus .regPending)
        · exact .of_set hfind rfl rfl (fewer_setStatus .regPending)

variable {uriP : Uri} {message : Option Packet} {code : Code}

theorem fewer_lwm2mObserveCancel {send : Option ℤ} {ret : ℤ}
    (h : contextP.lwm2mObserveCancel clientID uriP send = .ok (contextP', ret)) :
    Fewer contextP contextP' := by
  unfold ObservationContext.lwm2mObserveCancel at h
  cases hfind : findClient contextP.clientList clientID with
  | none =>
    rw [hfind] at h
    cases h
    exact .refl _
  | some clientP =>
    rw [hfind] at h
    dsimp only at h
    cases ho : prvFindObservationByURI clientP.here uriP with
    | none =>
      rw [ho] at h
      cases h
      exact .refl _
    | some o =>
      rw [ho] at h
      dsimp only at h
      by_cases hstatus : o.status = .registered
      · rw [if_pos hstatus] at h
        cases send with
        | none =>
          cases h
          exact .refl _
        | some ret =>
          dsimp only at h
          split_ifs at h
          · cases h
            exact .of_set hfind rfl rfl (fewer_setStatus .deregPending)
          · cases h
            exact .of_set hfind rfl rfl (fewer_setStatus .deregPending)
      · rw [if_neg hstatus] at h
        obtain ⟨⟨memory', l'⟩, hremove, h⟩ := bind_eq_ok_iff.mp h
        cases h
        exact .of_set hfind rfl rfl (.of_subset (observeRemove_subset hremove))

theorem fewer_prvObsCancelRequestCallback {codes : List Code}
    (h : contextP.prvObsCancelRequestCallback clientID uriP message = .ok (contextP', codes)) :
    Fewer contextP contextP' := by
  unfold ObservationContext.prvObsCancelRequestCallback at h
  cases hfind : findClient contextP.clientList clientID with
  | none =>
    rw [hfind] at h
    cases h
    exact .refl _
  | some clientP =>
    rw [hfind] at h
    cases message with
    | none =>
      cases h
      exact .refl _
    | some packet =>
      dsimp only at h
      split_ifs at h
      · cases h
        exact .refl _
      · cases h
        exact .refl _
      · obtain ⟨⟨memory', l'⟩, hremove, h⟩ := bind_eq_ok_iff.mp h
        cases h
        exact .of_set hfind rfl rfl (.of_subset (observeRemove_subset hremove))

theorem fewer_registrationUpdate {objects : Option (List ClientObject)}
    (h : contextP.registrationUpdate clientID objects = .ok (contextP', code)) :
    Fewer contextP contextP' := by
  unfold ObservationContext.registrationUpdate at h
  cases hfind : findClient contextP.clientList clientID with
  | none =>
    rw [hfind] at h
    cases h
    exact .refl _
  | some clientP =>
    rw [hfind] at h
    cases objects with
    | none =>
      cases h
      exact .refl _
    | some objects =>
      obtain ⟨⟨memory', l'⟩, hdrop, h⟩ := bind_eq_ok_iff.mp h
      cases h
      exact .of_set hfind rfl rfl (.of_subset (dropObservations_subset hdrop))

theorem fewer_deregister (h : contextP.deregister clientID = .ok (contextP', code)) :
    Fewer contextP contextP' := by
  unfold ObservationContext.deregister at h
  have hsub : (listRemove ObservedClient.internalID contextP.clientList clientID).1 ⊆
      contextP.clientList := (listRemove_sublist _ _).subset
  rcases hremove : listRemove ObservedClient.internalID contextP.clientList clientID
    with ⟨clientList, _ | clientP⟩
  · rw [hremove] at h
    cases h
    exact .refl _
  · rw [hremove] at h hsub
    obtain ⟨memory', -, h⟩ := bind_eq_ok_iff.mp h
    cases h
    exact fun client' hclient' o' ho' => ⟨client', hsub hclient', rfl, o', ho', rfl, rfl, rfl⟩

/-- **The answer to `lwm2m_observe`** enters a node under the identifier and the URI of the request,
or leaves the observations. -/
theorem prvObsRequestCallback_enters (contextP : ObservationContext) (id client : UInt16)
    (uriP : Uri) (message : Option Packet) :
    (enteredNode contextP client uriP message = none ∧
      (contextP.prvObsRequestCallback id client uriP message).1 = contextP) ∨
    ∃ a clientP l, enteredNode contextP client uriP message = some a ∧
      findClient contextP.clientList client = some clientP ∧
      l ⊆ clientP.here.observationList ∧
      (contextP.prvObsRequestCallback id client uriP message).1.clientList =
        clientP.set { clientP.here with
          observationList := listAdd ServerObservation.id ⟨a, id, uriP, .registered⟩ l } := by
  unfold ObservationContext.prvObsRequestCallback enteredNode
  cases hfind : findClient contextP.clientList client with
  | none => exact .inl ⟨rfl, rfl⟩
  | some clientP =>
    cases message with
    | none => exact .inl ⟨rfl, rfl⟩
    | some packet =>
      dsimp only
      split_ifs with hcode
      · exact .inl ⟨rfl, rfl⟩
      · cases prvFindObservationByURI clientP.here uriP with
        | none => exact .inr ⟨_, clientP, _, rfl, rfl, fun _ hx => hx, rfl⟩
        | some o => exact .inr ⟨_, clientP, _, rfl, rfl, (listRemove_sublist _ _).subset, rfl⟩

/-- Every observation is in a node that a request has entered with its identifiers. -/
def EnteredByRequest (s : NotifiedServer) : Prop :=
  ∀ client ∈ s.contextP.clientList, ∀ o ∈ client.observationList,
    (.observe o.id client.internalID o.uri, o.address) ∈ s.established

/-- Where no observation is new, every one is still entered by a request. -/
theorem EnteredByRequest.of_fewer (h : EnteredByRequest s) (hfewer : Fewer s.contextP contextP')
    (entries : List (ObservationRequest × ℕ)) :
    EnteredByRequest ⟨contextP', entries ++ s.established⟩ := by
  intro client' hclient' o' ho'
  obtain ⟨client, hclient, hid, o, ho, hoid, huri, haddress⟩ := hfewer client' hclient' o' ho'
  rw [← hid, ← hoid, ← huri, ← haddress]
  exact List.mem_append_right _ (h client hclient o ho)

/-- The answer to an observe request enters its node. -/
theorem EnteredByRequest.observeReply (h : EnteredByRequest s) {i : ℕ} {id client : UInt16}
    (hrequest : s.contextP.transactionList[i]? = some (.observe id client uriP))
    (hlist : contextP'.clientList =
      (s.contextP.prvObsRequestCallback id client uriP message).1.clientList) :
    EnteredByRequest ⟨contextP', enters s.contextP (.reply i message) ++ s.established⟩ := by
  rcases prvObsRequestCallback_enters s.contextP id client uriP message with
    ⟨-, hsame⟩ | ⟨a, clientP, l, hnode, hfind, hsub, hset⟩
  · refine h.of_fewer ?_ _
    rw [Fewer, hlist, hsame]
    exact Fewer.refl _
  · obtain ⟨hfocus, hid⟩ := findClient_eq_some hfind
    have henters : enters s.contextP (.reply i message) = [(.observe id client uriP, a)] := by
      rw [enters, hrequest]
      dsimp only
      rw [hnode]
      rfl
    rw [henters]
    intro client' hclient' o' ho'
    rw [hlist, hset] at hclient'
    have hold (c : ObservedClient) (hc : c ∈ s.contextP.clientList) (o : ServerObservation)
        (ho : o ∈ c.observationList) :
        (.observe o.id c.internalID o.uri, o.address) ∈
          (.observe id client uriP, a) :: s.established :=
      List.mem_cons_of_mem _ (h c hc o ho)
    rcases Focus.mem_set.mp hclient' with rfl | hother
    · rcases mem_listAdd.mp ho' with rfl | ho'
      · dsimp only
        rw [hid]
        exact List.mem_cons_self
      · exact hold clientP.here (hfocus ▸ clientP.here_mem_list) o' (hsub ho')
    · exact hold client' (hfocus ▸ Focus.mem_list.mpr (.inr hother)) o' ho'

/-- **One event** leaves every observation in a node that a request has entered. -/
theorem EnteredByRequest.step (h : EnteredByRequest s) {event : NotifiedEvent}
    (hstep : notifiedStep s event = .ok s') : EnteredByRequest s' := by
  cases event with
  | observation event =>
    obtain ⟨contextP', hevent, hs'⟩ := bind_eq_ok_iff.mp hstep
    obtain rfl := Except.ok.inj hs'
    have hpair {α : Type} {x : Except Fault (ObservationContext × α)}
        (hx : (·.1) <$> x = .ok contextP') : ∃ a, x = .ok (contextP', a) := by
      obtain ⟨⟨c, a⟩, hpair, heq⟩ := map_eq_ok_iff.mp hx
      obtain rfl : c = contextP' := heq
      exact ⟨a, hpair⟩
    cases event with
    | observe clientID uriP send =>
      obtain rfl := Except.ok.inj hevent
      exact h.of_fewer (fewer_lwm2mObserve _ _ _ _) _
    | cancel clientID uriP send =>
      obtain ⟨ret, hcancel⟩ := hpair hevent
      exact h.of_fewer (fewer_lwm2mObserveCancel hcancel) _
    | nextBlock i =>
      obtain rfl := Except.ok.inj hevent
      exact h.of_fewer (Fewer.refl _) _
    | reply i message =>
      rw [observationStep] at hevent
      cases hrequest : s.contextP.transactionList[i]? with
      | none =>
        rw [hrequest] at hevent
        obtain rfl := Except.ok.inj hevent
        exact h.of_fewer (.refl _) _
      | some request =>
        rw [hrequest] at hevent
        obtain ⟨contextP₁, hcallback, hevent⟩ := bind_eq_ok_iff.mp hevent
        obtain rfl := Except.ok.inj hevent
        cases request with
        | observe id client uriP =>
          obtain rfl := Except.ok.inj hcallback
          exact h.observeReply hrequest rfl
        | cancel client uriP =>
          obtain ⟨⟨contextP₂, codes⟩, hcancel, heq⟩ := map_eq_ok_iff.mp hcallback
          obtain rfl : contextP₂ = contextP₁ := heq
          exact h.of_fewer (fewer_prvObsCancelRequestCallback hcancel) _
    | register =>
      obtain rfl := Except.ok.inj hevent
      refine h.of_fewer (fun client' hclient' o' ho' => ?_) _
      rcases mem_listAdd.mp hclient' with rfl | hclient'
      · exact absurd ho' List.not_mem_nil
      · exact ⟨client', hclient', rfl, o', ho', rfl, rfl, rfl⟩
    | update clientID objects =>
      obtain ⟨code, hupdate⟩ := hpair hevent
      exact h.of_fewer (fewer_registrationUpdate hupdate) _
    | deregister clientID =>
      obtain ⟨code, hderegister⟩ := hpair hevent
      exact h.of_fewer (fewer_deregister hderegister) _
  | registerFrom sessionH =>
    obtain rfl := Except.ok.inj hstep
    refine h.of_fewer (fun client' hclient' o' ho' => ?_) []
    rcases mem_listAdd.mp hclient' with rfl | hclient'
    · exact absurd ho' List.not_mem_nil
    · exact ⟨client', hclient', rfl, o', ho', rfl, rfl, rfl⟩
  | moveTo clientID sessionH =>
    rw [notifiedStep] at hstep
    cases hfind : findClient s.contextP.clientList clientID with
    | none =>
      rw [hfind] at hstep
      obtain rfl := Except.ok.inj hstep
      exact h
    | some clientP =>
      rw [hfind] at hstep
      obtain rfl := Except.ok.inj hstep
      have hset : (s.contextP.setClient clientP { clientP.here with sessionH }).clientList =
          clientP.set { clientP.here with sessionH } := rfl
      exact h.of_fewer (.of_set hfind hset rfl (.of_subset fun _ hx => hx)) []

/-- **Every run** leaves every observation in a node that a request has entered. -/
theorem EnteredByRequest.run {events : List NotifiedEvent} (h : EnteredByRequest s)
    (hrun : events.foldlM notifiedStep s = .ok s') : EnteredByRequest s' := by
  induction events generalizing s with
  | nil =>
    obtain rfl := Except.ok.inj hrun
    exact h
  | cons event events ih =>
    rw [List.foldlM_cons] at hrun
    obtain ⟨s₁, hstep, hrest⟩ := bind_eq_ok_iff.mp hrun
    exact ih (h.step hstep) hrest

/-! ### Who is notified -/

/-- The callback that a message causes. -/
theorem observeHandleNotify_calls (contextP : ObservationContext) (message : Packet) :
    (observeHandleNotify contextP message).calls = [] ∨
    ∃ b₀ b₁ b₂ b₃ clientP o call, message.isOption .token ∧ message.isOption .observe ∧
      message.token = [b₀, b₁, b₂, b₃] ∧
      findClient contextP.clientList (tokenWord b₀ b₁) = some clientP ∧
      listFind ServerObservation.id clientP.here.observationList (tokenWord b₂ b₃) = some o ∧
      (observeHandleNotify contextP message).calls = [call] ∧
      call.clientP = clientP.here ∧ call.observationP = o := by
  unfold observeHandleNotify
  by_cases htoken : ¬ message.isOption .token
  · rw [if_pos htoken]
    exact .inl rfl
  rw [if_neg htoken]
  split
  next b₀ b₁ b₂ b₃ hbytes =>
    by_cases hobserve : ¬ message.isOption .observe
    · rw [if_pos hobserve]
      exact .inl rfl
    rw [if_neg hobserve]
    dsimp only
    cases hfind : findClient contextP.clientList (tokenWord b₀ b₁) with
    | none => exact .inl rfl
    | some clientP =>
      dsimp only
      cases ho : listFind ServerObservation.id clientP.here.observationList (tokenWord b₂ b₃) with
      | none => exact .inl rfl
      | some o =>
        exact .inr ⟨b₀, b₁, b₂, b₃, clientP, o, _, not_not.mp htoken, not_not.mp hobserve, hbytes,
          hfind, ho, rfl, rfl, rfl⟩
  next => exact .inl rfl

/-- **When notifications reach their own observation only**: in every state that a server comes to,
a message calls no callback but the one of an observation that belongs to a client of its session
and that a request with its token has entered, and calls that one once, exactly when it comes from
the session of the client that its token names. -/
theorem notifiesOwn_iff {events : List NotifiedEvent}
    (hrun : events.foldlM notifiedStep {} = .ok s) (fromSessionH : Session) (message : Packet) :
    NotifiesOwn s fromSessionH message ↔ NamesSender s.contextP fromSessionH message := by
  have hentered : EnteredByRequest s :=
    EnteredByRequest.run (fun _ hclient => absurd hclient List.not_mem_nil) hrun
  rcases observeHandleNotify_calls s.contextP message with
    hnone | ⟨b₀, b₁, b₂, b₃, clientP, o, call, htoken, hobserve, hbytes, hfind, ho, hcalls, hc, hco⟩
  · constructor
    · intro _ b₀ b₁ b₂ b₃ htoken hobserve hbytes clientP o hfind ho
      rw [observeHandleNotify, if_neg (not_not.mpr htoken), hbytes] at hnone
      dsimp only at hnone
      rw [if_neg (not_not.mpr hobserve), hfind] at hnone
      dsimp only at hnone
      rw [ho] at hnone
      cases hnone
    · intro _ call hcall
      rw [hnone] at hcall
      exact absurd hcall List.not_mem_nil
  · obtain ⟨hfocus, hid⟩ := findClient_eq_some hfind
    have hclient : clientP.here ∈ s.contextP.clientList := hfocus ▸ clientP.here_mem_list
    obtain ⟨hmem, hoid⟩ := mem_of_listFind ho
    have hmemory := hentered clientP.here hclient o hmem
    rw [hid, hoid] at hmemory
    constructor
    · intro h c₀ c₁ c₂ c₃ _ _ hbytes' clientP' o' hfind' _
      obtain ⟨-, hown⟩ := h call (hcalls ▸ List.mem_singleton_self call)
      obtain ⟨rfl, rfl, -⟩ : b₀ = c₀ ∧ b₁ = c₁ ∧ _ := by simpa [hbytes] using hbytes'
      obtain rfl : clientP = clientP' := Option.some.inj (hfind.symm.trans hfind')
      exact hc ▸ hown.session
    · intro h call' hcall'
      rw [hcalls] at hcall' ⊢
      obtain rfl := List.mem_singleton.mp hcall'
      refine ⟨rfl, hc ▸ hclient, hc ▸ hco ▸ hmem, ?_, _, hco ▸ hmemory, ?_⟩
      · rw [hc]
        exact h b₀ b₁ b₂ b₃ htoken hobserve hbytes clientP o hfind ho
      · rw [hbytes, ObservationRequest.token, observationToken_tokenWord]

end

/-- A client registers from the session 1, and its object 3 is observed. -/
def notifiedDevice : List NotifiedEvent :=
  [.registerFrom (some 1), .observation (.observe 0 { objectId := 3 } (some 0)),
    .observation (.reply 0 (some observedContent))]

/-- A notification of that observation, the first one of the client 0. -/
def deviceNotification : Packet :=
  ((coapInitMessage .non coap205Content 2).coapSetHeaderObserve 1).coapSetHeaderToken
    (observationToken 0 1)

/-- **A notification of another client.**  It comes from the session 2, with the token of the
observation of the client at the session 1, whose callback is called. -/
theorem notifiedByOther_fails : ¬ ∀ (s : NotifiedServer) (events : List NotifiedEvent)
    (fromSessionH : Session) (message : Packet), events.foldlM notifiedStep {} = .ok s →
      message.code = coap205Content → NotifiesOwn s fromSessionH message := by
  intro h
  have hcalls : (fun s => (observeHandleNotify s.contextP deviceNotification).calls.map
      (·.clientP.sessionH)) <$> notifiedDevice.foldlM notifiedStep {} = .ok [some 1] := by decide
  obtain ⟨s, hrun, hcalls⟩ := map_eq_ok_iff.mp hcalls
  obtain ⟨call, hcall, hsession⟩ :=
    List.mem_map.mp (hcalls ▸ List.mem_singleton_self (some 1))
  have hown := (h s _ (some 2) deviceNotification hrun rfl call hcall).2.session
  rw [hsession] at hown
  cases hown

/-- The same notification from the client itself. -/
theorem notifiesOwn_device : ∃ s, notifiedDevice.foldlM notifiedStep {} = .ok s ∧
    (NotifiesOwn s (some 1) deviceNotification ↔
      NamesSender s.contextP (some 1) deviceNotification) := by
  have hrun : ∃ s, notifiedDevice.foldlM notifiedStep {} = .ok s := ⟨_, rfl⟩
  obtain ⟨s, hrun⟩ := hrun
  exact ⟨s, hrun, notifiesOwn_iff hrun (some 1) deviceNotification⟩

end Lwm2m.Core

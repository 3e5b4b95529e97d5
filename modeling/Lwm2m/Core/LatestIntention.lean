/-
# The latest intention

A user of `core/observe.c` in server mode may call `lwm2m_observe` and `lwm2m_observe_cancel` while
earlier requests for the same URI are still pending.  The intention of the last call is the `status`
of the observation, and that is gone with the observation: a cancel of an observation whose request
is pending takes it out, and the answer to a cancel takes out whatever is there by then.  The runs
here are calls that are accepted and their successful answers, in any order.
-/

import Lwm2m.Core.ServerObservations
import Lwm2m.Library.Run

namespace Lwm2m.Core

open Coap Code Library Library.Memory

/-! ### Calls and answers for one URI -/

/-- What a user wants of an observation. -/
inductive Intention
  | observe
  | cancel
  deriving DecidableEq, Repr

/-- The server, and the last call that it accepted, if there was one. -/
structure IntentionState where
  contextP : ObservationContext
  latest : Option Intention := none

/-- A call, or an answer to one of the pending requests. -/
inductive IntentionEvent
  | call (intention : Intention)
  | reply (i : ℕ) (packet : Packet)
  deriving DecidableEq, Repr

/-- What an answer is to the server.  Where more blocks are to come, the next request takes over
before it. -/
def replyEvents (i : ℕ) (packet : Packet) : List ObservationEvent :=
  if ObservationContext.comesMore packet then [.nextBlock i, .reply i (some packet)]
  else [.reply i (some packet)]

/-- A request for an observation of the URI. -/
def ObservationRequest.isObserve : ObservationRequest → Bool
  | .observe _ _ _ => true
  | .cancel _ _ => false

/-- A successful answer: the content, which says that the client observes where that is asked. -/
def AnsweredWithContent (request : ObservationRequest) (packet : Packet) : Prop :=
  packet.code = coap205Content ∧ (request.isObserve → packet.isOption .observe)

section

variable (clientID : UInt16) (uri : Uri)

/-- A request is about the URI at the client. -/
def ObservationRequest.About (request : ObservationRequest) : Prop :=
  request.client = clientID ∧ request.uri = uri

/-- An accepted call, or a successful answer to a request that is about the URI at the client. -/
inductive IntentionStep : IntentionState → IntentionEvent → IntentionState → Prop
  | observe {s : IntentionState} {contextP' : ObservationContext}
      (accepted : s.contextP.lwm2mObserve clientID uri (some 0) = (contextP', 0)) :
      IntentionStep s (.call .observe) ⟨contextP', some .observe⟩
  | cancel {s : IntentionState} {contextP' : ObservationContext} {ret : ℤ}
      (called : s.contextP.lwm2mObserveCancel clientID uri (some 0) = .ok (contextP', ret))
      (accepted : ret = 0 ∨ ret = coap204Changed.toNat) :
      IntentionStep s (.call .cancel) ⟨contextP', some .cancel⟩
  | reply {s : IntentionState} {contextP' : ObservationContext} {i : ℕ} {packet : Packet}
      {request : ObservationRequest} (pending : s.contextP.transactionList[i]? = some request)
      (about : request.About clientID uri) (succeeds : AnsweredWithContent request packet)
      (answered : (replyEvents i packet).foldlM observationStep s.contextP = .ok contextP') :
      IntentionStep s (.reply i packet) ⟨contextP', s.latest⟩

/-- The observation of the URI at the client. -/
def observationOf (contextP : ObservationContext) : Option ServerObservation :=
  (findClient contextP.clientList clientID).bind fun clientP =>
    prvFindObservationByURI clientP.here uri

/-- No request about the URI is pending. -/
def Quiet (contextP : ObservationContext) : Prop :=
  ∀ request ∈ contextP.transactionList, ¬ request.About clientID uri

/-- A client whose URI nobody has asked for: it is not observed, and no request is pending. -/
structure Unasked (s : IntentionState) : Prop where
  sound : s.contextP.Sound
  registered : (findClient s.contextP.clientList clientID).isSome
  unobserved : observationOf clientID uri s.contextP = none
  quiet : Quiet clientID uri s.contextP
  latest : s.latest = none

/-- An observe request for the URI is pending. -/
def ObservePending (contextP : ObservationContext) : Prop :=
  ∃ request ∈ contextP.transactionList, request.About clientID uri ∧ request.isObserve

/-- **An answer that comes in time.**  The end of an answer to an observe request finds the URI
observed, or the last call was an observe; the end of an answer to a cancel finds the observation,
and that one is still to be cancelled or another observe request is pending. -/
def AnswersInTime (s : IntentionState) : IntentionEvent → Prop
  | .call _ => True
  | .reply i packet => ∀ request, s.contextP.transactionList[i]? = some request →
      ¬ ObservationContext.comesMore packet →
        if request.isObserve then
          observationOf clientID uri s.contextP = none → s.latest = some .observe
        else ∃ o, observationOf clientID uri s.contextP = some o ∧
          (o.status = .deregPending ∨ ObservePending clientID uri s.contextP)

end

section

variable {contextP contextP' : ObservationContext} {clientP : Focus ObservedClient}
  {client : ObservedClient} {clientID : UInt16} {uri : Uri} {o : ServerObservation}
  {memory : Memory Unit} {l : List ServerObservation} {s s' : IntentionState}

/-! ### The observation of a URI -/

theorem observationOf_eq (hfind : findClient contextP.clientList clientID = some clientP) :
    observationOf clientID uri contextP = prvFindObservationByURI clientP.here uri := by
  rw [observationOf, hfind, Option.bind_some]

/-- A client is found behind a write to it. -/
theorem findClient_set (hfind : findClient contextP.clientList clientID = some clientP)
    (hid : client.internalID = clientP.here.internalID) :
    findClient (clientP.set client) clientID = some { clientP with here := client } := by
  obtain ⟨hfocus, hhere⟩ := Option.filter_eq_some_iff.mp hfind
  have hpass := (focusFirst_eq_some_iff.mp hfocus).2.1
  rw [findClient, focusFirst_set hfocus (by rw [hid]; exact hpass), Option.filter_some,
    if_pos (by rw [hid]; exact hhere)]

/-- The observation of the URI gets another status. -/
theorem findObservation_setStatus (ho : prvFindObservationByURI client uri = some o)
    (status : Status) (observationId : UInt16) :
    prvFindObservationByURI { client with
      observationId, observationList := setObservationStatus client.observationList o status } uri =
        some { o with status } := by
  have hsame : (fun o' : ServerObservation => decide (o'.uri = uri)) ∘
      (fun o' => if o'.address = o.address then { o' with status } else o') =
        fun o' => decide (o'.uri = uri) := by
    funext o'
    rw [Function.comp_apply]
    split_ifs <;> rfl
  unfold prvFindObservationByURI at ho ⊢
  rw [setObservationStatus, List.find?_map, hsame, ho, Option.map_some, if_pos rfl]

/-- The observation of the URI is taken out. -/
theorem findObservation_without {before after : List ServerObservation}
    (h : ObservedClient.Sound { client with observationList := before ++ o :: after }) :
    prvFindObservationByURI { client with observationList := before ++ after } o.uri = none := by
  have hperm : (before ++ o :: after).Perm (o :: (before ++ after)) := List.perm_middle
  have hpairs := List.pairwise_cons.mp (hperm.pairwise h.uris fun hne => Ne.symm hne)
  exact findObservation_eq_none_iff.mpr fun x hx heq => hpairs.1 x hx heq.symm

variable {id : UInt16} {found : Option ServerObservation} {packet : Packet}
  {request : ObservationRequest} {i : ℕ}

/-- The observation of the URI is entered. -/
theorem Entered.find {n : ServerObservation} {others : List ℕ} {memory' : Memory Unit}
    (h : Entered id uri memory client others memory' n l) :
    prvFindObservationByURI
      { client with observationList := listAdd ServerObservation.id n l } uri = some n := by
  cases hfound : prvFindObservationByURI
      { client with observationList := listAdd ServerObservation.id n l } uri with
  | none =>
    exact absurd h.uri_eq (findObservation_eq_none_iff.mp hfound n (mem_listAdd.mpr (.inl rfl)))
  | some n' =>
    obtain ⟨hmem, huri⟩ := mem_of_findObservation hfound
    rcases mem_listAdd.mp hmem with rfl | hrest
    · rfl
    · exact absurd huri ((h.mem_rest n').mp hrest).2

/-! ### The effect of the calls -/

/-- The client gets another list of observations, which has the ones of other URIs it had. -/
structure ClientBecomes (contextP : ObservationContext) (clientID : UInt16) (uri : Uri)
    (found : Option ServerObservation) (contextP' : ObservationContext) : Prop where
  sound : contextP'.Sound
  observation : observationOf clientID uri contextP' = found
  others : ∃ clientP clientP', findClient contextP.clientList clientID = some clientP ∧
    findClient contextP'.clientList clientID = some clientP' ∧
    ∀ x ∈ clientP'.here.observationList, x.uri ≠ uri →
      ∃ y ∈ clientP.here.observationList, y.id = x.id ∧ y.uri = x.uri

theorem ClientBecomes.of_set (hfind : findClient contextP.clientList clientID = some clientP)
    (hsound : contextP'.Sound) (hlist : contextP'.clientList = clientP.set client)
    (hid : client.internalID = clientP.here.internalID)
    (hfound : prvFindObservationByURI client uri = found)
    (hothers : ∀ x ∈ client.observationList, x.uri ≠ uri →
      ∃ y ∈ clientP.here.observationList, y.id = x.id ∧ y.uri = x.uri) :
    ClientBecomes contextP clientID uri found contextP' := by
  have hfind' : findClient contextP'.clientList clientID =
      some { clientP with here := client } := by
    rw [hlist]
    exact findClient_set hfind hid
  exact ⟨hsound, (observationOf_eq hfind').trans hfound, clientP, _, hfind, hfind', hothers⟩

/-- The status of an observation does not matter to the others. -/
theorem others_setStatus (status : Status) :
    ∀ x ∈ setObservationStatus l o status, ∃ y ∈ l, y.id = x.id ∧ y.uri = x.uri := by
  intro x hx
  obtain ⟨y, hy, rfl⟩ := List.mem_map.mp hx
  refine ⟨y, hy, ?_⟩
  split_ifs
  · exact ⟨rfl, rfl⟩
  · exact ⟨rfl, rfl⟩

/-- **An accepted `lwm2m_observe`**: the request is pending, under an identifier that no observation
has, and an observation that is there waits for its answer. -/
theorem lwm2mObserve_accepted (h : contextP.Sound)
    (haccepted : contextP.lwm2mObserve clientID uri (some 0) = (contextP', 0)) :
    ∃ id, contextP'.transactionList = contextP.transactionList ++ [.observe id clientID uri] ∧
      ClientBecomes contextP clientID uri
        ((observationOf clientID uri contextP).map fun o => { o with status := .regPending })
        contextP' ∧
      ∀ clientP, findClient contextP.clientList clientID = some clientP →
        ∀ x ∈ clientP.here.observationList, x.id ≠ id := by
  have hsound := h.lwm2mObserve clientID uri (some 0)
  rw [haccepted] at hsound
  unfold ObservationContext.lwm2mObserve at haccepted
  by_cases hset : ¬ uri.isSetInstance ∧ uri.isSetResource
  · rw [if_pos hset] at haccepted
    exact absurd (Prod.mk.inj haccepted).2 (by decide)
  rw [if_neg hset] at haccepted
  cases hfind : findClient contextP.clientList clientID with
  | none =>
    rw [hfind] at haccepted
    exact absurd (Prod.mk.inj haccepted).2 (by decide)
  | some clientP =>
    obtain ⟨-, hid⟩ := findClient_eq_some hfind
    rw [hfind] at haccepted
    dsimp only at haccepted
    by_cases hused : (listFind ServerObservation.id clientP.here.observationList
        (clientP.here.observationId + 1)).isSome
    · rw [if_pos hused] at haccepted
      exact absurd (Prod.mk.inj haccepted).2 (by decide)
    rw [if_neg hused, if_pos rfl, hid] at haccepted
    have hfree := (listFind_eq_none_iff (h.of_findClient hfind).1.sorted).mp
      (Option.not_isSome_iff_eq_none.mp hused)
    have hunique (clientP' : Focus ObservedClient) (hclientP' : some clientP = some clientP') :
        ∀ x ∈ clientP'.here.observationList, x.id ≠ clientP.here.observationId + 1 := by
      cases hclientP'
      exact hfree
    rw [observationOf_eq hfind]
    cases ho : prvFindObservationByURI clientP.here uri with
    | none =>
      rw [ho] at haccepted
      obtain ⟨rfl, -⟩ := Prod.mk.inj haccepted
      exact ⟨_, rfl, .of_set hfind hsound rfl hid.symm ho fun x hx _ => ⟨x, hx, rfl, rfl⟩, hunique⟩
    | some o =>
      rw [ho] at haccepted
      obtain ⟨rfl, -⟩ := Prod.mk.inj haccepted
      exact ⟨_, rfl, .of_set hfind hsound rfl hid.symm
        (findObservation_setStatus ho .regPending (clientP.here.observationId + 1))
        fun x hx _ => others_setStatus .regPending x hx, hunique⟩

/-- **An accepted `lwm2m_observe_cancel`**: an observation that is registered is to be cancelled by
the request that is pending then, and one that waits for an answer is taken out. -/
theorem lwm2mObserveCancel_accepted {ret : ℤ} (h : contextP.Sound)
    (hcalled : contextP.lwm2mObserveCancel clientID uri (some 0) = .ok (contextP', ret))
    (haccepted : ret = 0 ∨ ret = coap204Changed.toNat) :
    (∃ o : ServerObservation,
      ClientBecomes contextP clientID uri (some { o with status := .deregPending }) contextP' ∧
      contextP'.transactionList = contextP.transactionList ++ [.cancel clientID uri]) ∨
    (ClientBecomes contextP clientID uri none contextP' ∧
      contextP'.transactionList = contextP.transactionList) := by
  obtain ⟨result, hresult, hsound⟩ := h.lwm2mObserveCancel clientID uri (some 0)
  obtain rfl := Except.ok.inj (hresult.symm.trans hcalled)
  clear hresult
  unfold ObservationContext.lwm2mObserveCancel at hcalled
  cases hfind : findClient contextP.clientList clientID with
  | none =>
    rw [hfind] at hcalled
    obtain ⟨-, rfl⟩ := Prod.mk.inj (Except.ok.inj hcalled)
    exact absurd haccepted (by decide)
  | some clientP =>
    obtain ⟨-, hid⟩ := findClient_eq_some hfind
    obtain ⟨hclient, hown⟩ := h.of_findClient hfind
    rw [hfind] at hcalled
    dsimp only at hcalled
    cases ho : prvFindObservationByURI clientP.here uri with
    | none =>
      rw [ho] at hcalled
      obtain ⟨-, rfl⟩ := Prod.mk.inj (Except.ok.inj hcalled)
      exact absurd haccepted (by decide)
    | some o =>
      rw [ho] at hcalled
      dsimp only at hcalled
      by_cases hstatus : o.status = .registered
      · rw [if_pos hstatus, if_pos rfl, hid] at hcalled
        obtain ⟨rfl, -⟩ := Prod.mk.inj (Except.ok.inj hcalled)
        refine .inl ⟨o, .of_set hfind hsound rfl rfl
          (findObservation_setStatus ho .deregPending clientP.here.observationId)
          fun x hx _ => others_setStatus .deregPending x hx, rfl⟩
      · obtain ⟨hmem, huri⟩ := mem_of_findObservation ho
        obtain ⟨before, after, hl⟩ := List.append_of_mem hmem
        have hsplit : ObservedClient.Sound
            { clientP.here with observationList := before ++ o :: after } := hl ▸ hclient
        rw [ObservedClient.nodes, hl] at hown
        obtain ⟨hremove, -⟩ := observeRemove_eq_ok hsplit.sorted hown
        rw [if_neg hstatus, hl, hremove] at hcalled
        obtain ⟨rfl, -⟩ := Prod.mk.inj (Except.ok.inj hcalled)
        refine .inr ⟨.of_set hfind hsound rfl rfl (huri ▸ findObservation_without hsplit)
          fun x hx _ => ⟨x, ?_, rfl, rfl⟩, rfl⟩
        rw [hl]
        exact (List.sublist_cons_self o after).append_left before |>.mem hx

/-! ### The effect of the answers -/

/-- **The answer to an observe request** says nothing where the observation is to be cancelled, and
enters an observation otherwise. -/
theorem prvObsRequestCallback_succeeds (h : contextP.Sound)
    (hregistered : (findClient contextP.clientList clientID).isSome)
    (hids : ∀ clientP, findClient contextP.clientList clientID = some clientP →
      ∀ x ∈ clientP.here.observationList, x.id = id → x.uri = uri)
    (hcode : packet.code = coap205Content) (hobserve : packet.isOption .observe)
    (hends : ¬ ObservationContext.comesMore packet) :
    ((∃ o, observationOf clientID uri contextP = some o ∧ o.status = .deregPending) ∧
      (contextP.prvObsRequestCallback id clientID uri (some packet)).1 = contextP) ∨
    ((∀ o, observationOf clientID uri contextP = some o → o.status ≠ .deregPending) ∧
      (contextP.prvObsRequestCallback id clientID uri (some packet)).1.transactionList =
        contextP.transactionList ∧
      ∃ n : ServerObservation, n.status = .registered ∧ ClientBecomes contextP clientID uri (some n)
        (contextP.prvObsRequestCallback id clientID uri (some packet)).1) := by
  obtain ⟨clientP, hfind⟩ := Option.isSome_iff_exists.mp hregistered
  rw [observationOf_eq hfind]
  by_cases hwanted : ∀ o, prvFindObservationByURI clientP.here uri = some o →
      o.status ≠ .deregPending
  · have he : Establishes contextP clientID uri (some packet) clientP :=
      ⟨hfind, ⟨packet, rfl, hcode, hends⟩, fun _ heq => Option.some.inj heq ▸ hobserve, hwanted⟩
    obtain ⟨memory', n, rest, hentered, hresult, hstatus⟩ := he.exists_entered id h
    have hown : FindsOwn contextP (some packet) (.observe id clientID uri) := fun clientP' he' => by
      cases he.found.symm.trans he'.found
      exact hids clientP hfind
    have hsound := ((prvObsRequestCallback_iff h).mpr hown).1
    refine .inr ⟨hwanted, ?_, n, hstatus, ?_⟩
    · rw [hresult]
      rfl
    · refine .of_set hfind hsound (congrArg ObservationContext.clientList hresult) rfl
        hentered.find fun x hx huri => ?_
      rcases mem_listAdd.mp hx with rfl | hx
      · exact absurd hentered.uri_eq huri
      · exact ⟨x, ((hentered.mem_rest x).mp hx).1, rfl, rfl⟩
  · push Not at hwanted
    refine .inl ⟨hwanted, prvObsRequestCallback_eq fun clientP' he' => ?_⟩
    obtain ⟨o, ho, hstatus⟩ := hwanted
    cases hfind.symm.trans he'.found
    exact he'.wanted o ho hstatus

/-- **The answer to a cancel** takes the observation out. -/
theorem prvObsCancelRequestCallback_succeeds (h : contextP.Sound)
    (ho : observationOf clientID uri contextP = some o) (hcode : packet.code = coap205Content)
    (hends : ¬ ObservationContext.comesMore packet) :
    ∃ contextP' codes, contextP.prvObsCancelRequestCallback clientID uri (some packet) =
        .ok (contextP', codes) ∧ ClientBecomes contextP clientID uri none contextP' ∧
      contextP'.transactionList = contextP.transactionList := by
  obtain ⟨clientP, hfind, ho⟩ := Option.bind_eq_some_iff.mp ho
  obtain ⟨hclient, hown⟩ := h.of_findClient hfind
  obtain ⟨hmem, huri⟩ := mem_of_findObservation ho
  obtain ⟨before, after, hl⟩ := List.append_of_mem hmem
  have hsplit : ObservedClient.Sound
      { clientP.here with observationList := before ++ o :: after } := hl ▸ hclient
  rw [ObservedClient.nodes, hl] at hown
  obtain ⟨hremove, hown'⟩ := observeRemove_eq_ok hsplit.sorted hown
  unfold ObservationContext.prvObsCancelRequestCallback
  rw [hfind]
  dsimp only
  rw [ho, if_neg (not_not.mpr hcode), if_neg hends, hl, hremove, ok_bind]
  refine ⟨_, _, rfl, .of_set hfind (h.setClient hfind hsplit.without hown') rfl rfl
    (huri ▸ findObservation_without hsplit) fun x hx _ => ⟨x, ?_, rfl, rfl⟩, rfl⟩
  rw [hl]
  exact (List.sublist_cons_self o after).append_left before |>.mem hx

/-- **An answer that more blocks follow** changes nothing but the order of the requests. -/
theorem callback_more (hcode : packet.code = coap205Content)
    (hmore : ObservationContext.comesMore packet) :
    request.callback contextP (some packet) = .ok contextP := by
  cases request with
  | observe id client uri =>
    refine congrArg Except.ok (prvObsRequestCallback_eq fun clientP he => ?_)
    obtain ⟨packet', hpacket, -, hends⟩ := he.ends
    exact hends (Option.some.inj hpacket ▸ hmore)
  | cancel client uri =>
    rw [ObservationRequest.callback, ObservationContext.prvObsCancelRequestCallback]
    cases findClient contextP.clientList client with
    | none => rfl
    | some clientP =>
      dsimp only
      rw [if_neg (not_not.mpr hcode), if_pos hmore]
      rfl

/-! ### What holds along a run -/

/-- A cancel of the URI is pending. -/
def CancelPending (clientID : UInt16) (uri : Uri) (contextP : ObservationContext) : Prop :=
  ∃ request ∈ contextP.transactionList, request.About clientID uri ∧ ¬ request.isObserve

/-- **The last call is followed**: after an observe the observation is not to be cancelled, and it
is there or will be; otherwise an observation that is there is to be cancelled, and will be.  The
identifiers of pending requests are not those of observations of other URIs. -/
structure Follows (clientID : UInt16) (uri : Uri) (s : IntentionState) : Prop where
  sound : s.contextP.Sound
  registered : (findClient s.contextP.clientList clientID).isSome
  ids : ∀ id, .observe id clientID uri ∈ s.contextP.transactionList → ∀ clientP,
    findClient s.contextP.clientList clientID = some clientP →
      ∀ x ∈ clientP.here.observationList, x.id = id → x.uri = uri
  observe : s.latest = some .observe →
    (∀ o, observationOf clientID uri s.contextP = some o → o.status ≠ .deregPending) ∧
    ((observationOf clientID uri s.contextP).isSome ∨ ObservePending clientID uri s.contextP)
  cancel : s.latest ≠ some .observe → ∀ o, observationOf clientID uri s.contextP = some o →
    o.status = .deregPending ∧ CancelPending clientID uri s.contextP

theorem Unasked.follows (h : Unasked clientID uri s) : Follows clientID uri s := by
  refine ⟨h.sound, h.registered, fun id hid => absurd ⟨rfl, rfl⟩ (h.quiet _ hid),
    fun hlatest => ?_, fun _ o ho => ?_⟩
  · rw [h.latest] at hlatest
    cases hlatest
  · rw [h.unobserved] at ho
    cases ho

/-- **Where the last call is followed and no request is pending**, the URI is observed exactly when
the last call was an observe. -/
theorem Follows.observed_iff (h : Follows clientID uri s) (hquiet : Quiet clientID uri s.contextP) :
    (observationOf clientID uri s.contextP).isSome ↔ s.latest = some .observe := by
  constructor
  · intro hsome
    by_contra hlatest
    obtain ⟨o, ho⟩ := Option.isSome_iff_exists.mp hsome
    obtain ⟨-, request, hrequest, habout, -⟩ := h.cancel hlatest o ho
    exact hquiet request hrequest habout
  · intro hlatest
    refine (h.observe hlatest).2.resolve_right ?_
    rintro ⟨request, hrequest, habout, -⟩
    exact hquiet request hrequest habout

/-- The identifiers stay apart where no request is new. -/
theorem ClientBecomes.ids (hb : ClientBecomes contextP clientID uri found contextP')
    (hids : ∀ clientP, findClient contextP.clientList clientID = some clientP →
      ∀ x ∈ clientP.here.observationList, x.id = id → x.uri = uri) :
    ∀ clientP, findClient contextP'.clientList clientID = some clientP →
      ∀ x ∈ clientP.here.observationList, x.id = id → x.uri = uri := by
  obtain ⟨clientP, clientP', hfind, hfind', hothers⟩ := hb.others
  intro clientP'' hfind'' x hx hid
  cases hfind'.symm.trans hfind''
  by_contra huri
  obtain ⟨y, hy, hyid, hyuri⟩ := hothers x hx huri
  exact huri (hyuri ▸ hids clientP hfind y hy (hyid.trans hid))

theorem ClientBecomes.registered (hb : ClientBecomes contextP clientID uri found contextP') :
    (findClient contextP'.clientList clientID).isSome := by
  obtain ⟨-, clientP', -, hfind', -⟩ := hb.others
  rw [hfind']
  rfl

/-- **An accepted call** is the one that is followed then. -/
theorem Follows.call {intention : Intention} (h : Follows clientID uri s)
    (hstep : IntentionStep clientID uri s (.call intention) s') : Follows clientID uri s' := by
  cases hstep with
  | observe accepted =>
    obtain ⟨id, hlist, hb, hfree⟩ := lwm2mObserve_accepted h.sound accepted
    refine ⟨hb.sound, hb.registered, fun id' hid' => ?_, fun _ => ⟨fun o ho => ?_, .inr ?_⟩,
      fun hlatest => absurd rfl hlatest⟩
    · rw [hlist] at hid'
      rcases List.mem_append.mp hid' with hid' | hid'
      · exact hb.ids (h.ids id' hid')
      · obtain ⟨rfl, -⟩ := ObservationRequest.observe.inj (List.mem_singleton.mp hid')
        exact hb.ids fun clientP hfind x hx heq => absurd heq (hfree clientP hfind x hx)
    · rw [hb.observation] at ho
      obtain ⟨o', -, rfl⟩ := Option.map_eq_some_iff.mp ho
      exact (by decide : Status.regPending ≠ Status.deregPending)
    · rw [ObservePending, hlist]
      exact ⟨_, List.mem_append_right _ List.mem_cons_self, ⟨rfl, rfl⟩, rfl⟩
  | cancel called accepted =>
    rcases lwm2mObserveCancel_accepted h.sound called accepted with ⟨o, hb, hlist⟩ | ⟨hb, hlist⟩
    · refine ⟨hb.sound, hb.registered, fun id hid => hb.ids (h.ids id ?_), nofun,
        fun _ o' ho' => ?_⟩
      · rw [hlist] at hid
        exact (List.mem_append.mp hid).resolve_right (by simp)
      · rw [hb.observation] at ho'
        cases ho'
        refine ⟨rfl, ?_⟩
        rw [CancelPending, hlist]
        exact ⟨_, List.mem_append_right _ List.mem_cons_self, ⟨rfl, rfl⟩, nofun⟩
    · refine ⟨hb.sound, hb.registered, fun id hid => hb.ids (h.ids id (hlist ▸ hid)), nofun,
        fun _ o' ho' => ?_⟩
      rw [hb.observation] at ho'
      cases ho'

variable {requests : List ObservationRequest}

/-- A request that is not the one answered is still pending. -/
theorem mem_eraseIdx_of_ne {request' : ObservationRequest} (hrequest : requests[i]? = some request)
    (hmem : request' ∈ requests) (hne : request' ≠ request) : request' ∈ requests.eraseIdx i := by
  obtain ⟨j, hj⟩ := List.mem_iff_getElem?.mp hmem
  refine List.mem_eraseIdx_iff_getElem?.mpr ⟨j, fun hji => hne ?_, hj⟩
  rw [hji, hrequest] at hj
  exact (Option.some.inj hj).symm

/-- The request that takes over is in the place of the one that is answered. -/
theorem mem_nextBlock_iff {x : ObservationRequest} (hrequest : requests[i]? = some request) :
    x ∈ (requests ++ [request]).eraseIdx i ↔ x ∈ requests := by
  have hlt : i < requests.length := (List.getElem?_eq_some_iff.mp hrequest).1
  have hlast : (requests ++ [request])[requests.length]? = some request :=
    List.getElem?_concat_length
  rw [List.mem_eraseIdx_iff_getElem?]
  constructor
  · rintro ⟨j, -, hj⟩
    rcases List.mem_append.mp (List.mem_of_getElem? hj) with hx | hx
    · exact hx
    · rw [List.mem_singleton.mp hx]
      exact List.mem_of_getElem? hrequest
  · intro hx
    by_cases heq : x = request
    · exact ⟨requests.length, hlt.ne', heq ▸ hlast⟩
    · obtain ⟨j, hj⟩ := List.mem_iff_getElem?.mp hx
      refine ⟨j, fun hji => heq ?_, ?_⟩
      · rw [hji, hrequest] at hj
        exact (Option.some.inj hj).symm
      · rw [List.getElem?_append_left (List.getElem?_eq_some_iff.mp hj).1]
        exact hj

/-- The order of the requests does not matter, nor how often one is pending. -/
theorem Follows.of_requests {t : List ObservationRequest} {latest : Option Intention}
    (h : Follows clientID uri ⟨contextP, latest⟩)
    (ht : ∀ request, request ∈ t ↔ request ∈ contextP.transactionList) :
    Follows clientID uri ⟨{ contextP with transactionList := t }, latest⟩ := by
  refine ⟨⟨h.sound.clients, h.sound.owns⟩, h.registered, fun id hid => h.ids id ((ht _).mp hid),
    fun hlatest => ⟨(h.observe hlatest).1, (h.observe hlatest).2.imp_right ?_⟩,
    fun hlatest o ho => ⟨(h.cancel hlatest o ho).1, ?_⟩⟩
  · rintro ⟨request, hrequest, hrest⟩
    exact ⟨request, (ht _).mpr hrequest, hrest⟩
  · obtain ⟨-, request, hrequest, hrest⟩ := h.cancel hlatest o ho
    exact ⟨request, (ht _).mpr hrequest, hrest⟩

/-- **An answer in time** leaves the last call followed. -/
theorem Follows.reply (h : Follows clientID uri s)
    (htime : AnswersInTime clientID uri s (.reply i packet))
    (hstep : IntentionStep clientID uri s (.reply i packet) s') : Follows clientID uri s' := by
  obtain ⟨contextP, latest⟩ := s
  cases hstep with
  | @reply contextP' _ _ request pending about succeeds answered =>
    have hmem := List.mem_of_getElem? pending
    obtain ⟨hcode, hobserve⟩ := succeeds
    unfold replyEvents at answered
    by_cases hmore : ObservationContext.comesMore packet
    · have hpending' : (contextP.transactionList ++ [request])[i]? = some request := by
        rw [List.getElem?_append_left (List.getElem?_eq_some_iff.mp pending).1, pending]
      rw [if_pos hmore, List.foldlM_cons, observationStep, ok_bind, List.foldlM_cons, pending,
        Option.toList_some, observationStep] at answered
      rw [hpending'] at answered
      dsimp only at answered
      rw [callback_more hcode hmore, ok_bind] at answered
      obtain rfl := Except.ok.inj answered
      exact h.of_requests fun x => mem_nextBlock_iff pending
    rw [if_neg hmore, List.foldlM_cons, observationStep, pending] at answered
    dsimp only at answered
    have hin := htime request pending hmore
    have hkept {x : ObservationRequest} (hx : x ∈ contextP.transactionList.eraseIdx i) :
        x ∈ contextP.transactionList := List.mem_of_mem_eraseIdx hx
    cases request with
    | observe id client uri' =>
      obtain ⟨rfl, rfl⟩ : client = clientID ∧ uri' = uri := about
      rw [ObservationRequest.callback, ok_bind] at answered
      obtain rfl := Except.ok.inj answered
      rw [ObservationRequest.isObserve, if_pos rfl] at hin
      rcases prvObsRequestCallback_succeeds h.sound h.registered (h.ids id hmem) hcode
          (hobserve rfl) hmore with ⟨⟨o, ho, hstatus⟩, hresult⟩ | ⟨hwanted, hlist, n, hn, hb⟩
      · rw [hresult]
        refine ⟨⟨h.sound.clients, h.sound.owns⟩, h.registered,
          fun id' hid' => h.ids id' (hkept hid'),
          fun hlatest => absurd hstatus ((h.observe hlatest).1 o ho), fun hlatest o' ho' => ?_⟩
        obtain ⟨hstatus', request, hrequest, habout, hcancel⟩ := h.cancel hlatest o' ho'
        refine ⟨hstatus', request, mem_eraseIdx_of_ne pending hrequest ?_, habout, hcancel⟩
        rintro rfl
        exact hcancel rfl
      · have hlatest : latest = some .observe := by
          by_contra hlatest
          refine hlatest (hin ?_)
          cases ho : observationOf client uri' contextP with
          | none => rfl
          | some o => exact absurd (h.cancel hlatest o ho).1 (hwanted o ho)
        rw [hlist]
        refine ⟨⟨hb.sound.clients, hb.sound.owns⟩, hb.registered,
          fun id' hid' => hb.ids (h.ids id' (hkept hid')), fun _ => ⟨fun o ho => ?_, .inl ?_⟩,
          fun hne => absurd hlatest hne⟩
        · cases hb.observation.symm.trans ho
          rw [hn]
          exact (by decide : Status.registered ≠ Status.deregPending)
        · exact Option.isSome_iff_exists.mpr ⟨n, hb.observation⟩
    | cancel client uri' =>
      obtain ⟨rfl, rfl⟩ : client = clientID ∧ uri' = uri := about
      rw [ObservationRequest.isObserve, if_neg Bool.false_ne_true] at hin
      obtain ⟨o, ho, hreason⟩ := hin
      obtain ⟨contextP₁, codes, hresult, hb, hlist⟩ :=
        prvObsCancelRequestCallback_succeeds h.sound ho hcode hmore
      rw [ObservationRequest.callback, hresult] at answered
      obtain rfl := Except.ok.inj answered
      rw [hlist]
      refine ⟨⟨hb.sound.clients, hb.sound.owns⟩, hb.registered,
        fun id' hid' => hb.ids (h.ids id' (hkept hid')), fun hlatest => ⟨fun o' ho' => ?_, .inr ?_⟩,
        fun _ o' ho' => ?_⟩
      · cases hb.observation.symm.trans ho'
      · obtain ⟨request, hrequest, habout, hobserves⟩ :=
          hreason.resolve_left ((h.observe hlatest).1 o ho)
        refine ⟨request, mem_eraseIdx_of_ne pending hrequest ?_, habout, hobserves⟩
        rintro rfl
        cases hobserves
      · cases hb.observation.symm.trans ho'

/-- **When the latest intention wins**: along a run of accepted calls and of successful answers that
come in time, from a client whose URI nobody has asked for, whenever no request is pending the
URI is observed exactly when the last call was an observe. -/
theorem latestIntention_wins {events : List IntentionEvent} (hunasked : Unasked clientID uri s)
    (run : Run (IntentionStep clientID uri) s events s')
    (htime : EveryStep (IntentionStep clientID uri) (AnswersInTime clientID uri) s events)
    (hquiet : Quiet clientID uri s'.contextP) :
    (observationOf clientID uri s'.contextP).isSome ↔ s'.latest = some .observe := by
  have hfollows : Follows clientID uri s' := by
    refine run.invariant_of_everyStep (fun s e s' hs hnow hstep => ?_) htime hunasked.follows
    cases e with
    | call intention => exact hs.call hstep
    | reply i packet => exact hs.reply hnow hstep
  exact hfollows.observed_iff hquiet

end

/-! ### Two runs -/

/-- A server with one client, whose device object nobody has asked for. -/
def oneObserved : IntentionState := ⟨{ clientList := [{ internalID := 0 }] }, none⟩

theorem oneObserved_unasked : Unasked 0 { objectId := 3 } oneObserved :=
  ⟨⟨List.forall_mem_singleton.mpr ⟨.nil, .nil⟩, .nil fun _ ha => absurd ha List.not_mem_nil⟩,
    rfl, rfl, fun _ hrequest => absurd hrequest List.not_mem_nil, rfl⟩

/-- **A cancel in front of the answer.**  The device object is observed, an observe is called
again and then a cancel, which takes the observation out at once. The answer to the observe comes
last and enters it again. -/
theorem cancelThenAnswer_observes : ¬ ∀ (clientID : UInt16) (uri : Uri) (s s' : IntentionState)
    (events : List IntentionEvent), Unasked clientID uri s →
      Run (IntentionStep clientID uri) s events s' → Quiet clientID uri s'.contextP →
        ((observationOf clientID uri s'.contextP).isSome ↔ s'.latest = some .observe) := by
  intro h
  have hrun : ∃ s', Run (IntentionStep 0 { objectId := 3 }) oneObserved
      [.call .observe, .reply 0 observedContent, .call .observe, .call .cancel,
        .reply 0 observedContent] s' ∧ s'.contextP.transactionList = [] ∧
      (observationOf 0 { objectId := 3 } s'.contextP).isSome ∧ s'.latest = some .cancel := by
    refine ⟨_, .cons (.observe rfl) (.cons (.reply rfl ⟨rfl, rfl⟩ ⟨rfl, fun _ => rfl⟩ rfl)
      (.cons (.observe rfl) (.cons (.cancel rfl (.inr rfl))
        (.cons (.reply rfl ⟨rfl, rfl⟩ ⟨rfl, fun _ => rfl⟩ rfl) (.nil _))))), rfl, rfl, rfl⟩
  obtain ⟨s', hrun, hquiet, hobserved, hlatest⟩ := hrun
  have hlast := (h 0 { objectId := 3 } oneObserved s' _ oneObserved_unasked hrun
    fun request hmem => by
      rw [hquiet] at hmem
      exact absurd hmem List.not_mem_nil).mp hobserved
  cases hlatest.symm.trans hlast

/-- An observe, a cancel, and both are answered in turn. -/
theorem observeThenCancel_unobserved : ∃ s',
    Run (IntentionStep 0 { objectId := 3 }) oneObserved
      [.call .observe, .reply 0 observedContent, .call .cancel, .reply 0 observedContent] s' ∧
    ((observationOf 0 { objectId := 3 } s'.contextP).isSome ↔ s'.latest = some .observe) := by
  have hrun : ∃ s', Run (IntentionStep 0 { objectId := 3 }) oneObserved
      [.call .observe, .reply 0 observedContent, .call .cancel, .reply 0 observedContent] s' ∧
      s'.contextP.transactionList = [] := by
    refine ⟨_, .cons (.observe rfl) (.cons (.reply rfl ⟨rfl, rfl⟩ ⟨rfl, fun _ => rfl⟩ rfl)
      (.cons (.cancel rfl (.inl rfl)) (.cons (.reply rfl ⟨rfl, rfl⟩ ⟨rfl, fun _ => rfl⟩ rfl)
        (.nil _)))), rfl⟩
  obtain ⟨s', hrun, hquiet⟩ := hrun
  refine ⟨s', hrun, latestIntention_wins oneObserved_unasked hrun ⟨trivial, fun s₁ h₁ => ?_⟩
    fun request hmem => ?_⟩
  · cases h₁ with
    | observe accepted =>
      cases accepted
      refine ⟨fun request hrequest _ => ?_, fun s₂ h₂ => ?_⟩
      · cases hrequest
        exact fun _ => rfl
      cases h₂ with
      | reply _ _ _ answered =>
        cases answered
        refine ⟨trivial, fun s₃ h₃ => ?_⟩
        cases h₃ with
        | cancel called _ =>
          cases called
          refine ⟨fun request hrequest _ => ?_, fun _ _ => trivial⟩
          cases hrequest
          exact ⟨_, rfl, .inl rfl⟩
  · rw [hquiet] at hmem
    exact absurd hmem List.not_mem_nil

end Lwm2m.Core

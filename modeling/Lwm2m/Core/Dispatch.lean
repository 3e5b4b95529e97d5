/-
# What a received request runs

The branches of `dm_handleRequest`, `handle_request` and `lwm2m_handle_packet`,
said once: a request leaves the context as it is, or it is a device management
request of a known server, or a command of a bootstrap server.  What comes before
the dispatch changes the message-id and the block lists only (`SameServers`).
-/

import Lwm2m.Core.Request

namespace Lwm2m.Core

open Coap Code Library

variable {contextP contextP' : Context} {uriP : Uri} {fromSessionH : Session}

/-! ### Device management requests -/

variable {message response response' : Packet} {outcome : Outcome} {code : Code}
  {blockSize : UInt16}

variable {serverP : Server} {altPath : Option CString}

/-- What an Observe request changes: nothing, or what `observe_handleRequest` changes. -/
theorem observeRequest_cases
    (h : observeRequest contextP uriP serverP message response outcome =
      .ok (contextP', response', code)) :
    (contextP' = contextP ∧ code ≠ coap205Content) ∨
    ∃ l r c, observeHandleRequest contextP.serverList contextP.observedList uriP serverP
        outcome.value outcome.time message (response.coapSetHeaderContentType
          outcome.responseFormat.2.toUInt32) = .ok (l, r, c) ∧
      contextP' = { contextP with observedList := l } ∧
      (code = coap205Content → c = coap205Content) := by
  unfold observeRequest at h
  by_cases hread : outcome.readData ≠ coap205Content
  · rw [if_pos hread] at h
    cases h
    exact .inl ⟨rfl, hread⟩
  rw [if_neg hread] at h
  by_cases hformat : outcome.responseFormat.1 ≠ coap205Content
  · simp only [if_pos hformat] at h
    cases h
    exact .inl ⟨rfl, hformat⟩
  simp only [if_neg hformat] at h
  obtain ⟨⟨l, r, c⟩, hl, h⟩ := bind_eq_ok_iff.mp h
  refine .inr ⟨l, r, c, hl, ?_⟩
  by_cases hc : c ≠ coap205Content
  · simp only [if_pos hc] at h
    cases h
    exact ⟨rfl, id⟩
  · have hc' : c = coap205Content := not_not.mp hc
    simp only [if_neg hc] at h
    cases hserialized : outcome.serialized with
    | none | some buffer =>
      rw [hserialized] at h
      cases h
      exact ⟨rfl, fun _ => hc'⟩

theorem isOption_contentType_block2 (packet : Packet) (contentType : UInt32) :
    (packet.coapSetHeaderContentType contentType).isOption .block2 = packet.isOption .block2 :=
  Packet.isOption_markOption_of_ne _ (by decide)

/-- What `dm_handleRequest` runs. -/
theorem dmHandleRequest_cases
    (h : dmHandleRequest contextP uriP serverP message response outcome =
      .ok (contextP', response', code)) :
    (contextP' = contextP ∧
      (message.code = 1 → message.isOption .observe → code ≠ coap205Content) ∧
      response'.isOption .block2 = response.isOption .block2) ∨
    (message.code = 1 ∧ observeRequest contextP uriP serverP message response outcome =
      .ok (contextP', response', code)) ∨
    (message.code = 2 ∧ ∃ isText,
      postRequest contextP uriP response outcome isText = (contextP', response', code)) ∨
    (message.code = 3 ∧ putRequest contextP uriP serverP message response outcome =
      .ok (contextP', response', code)) ∨
    (message.code = 4 ∧
      deleteRequest contextP uriP response outcome = (contextP', response', code)) := by
  unfold dmHandleRequest at h
  by_cases hsecurity : uriP.objectId = lwm2mSecurityObjectId
  · rw [if_pos hsecurity] at h
    cases h
    exact .inl ⟨rfl, fun _ _ => by decide, rfl⟩
  by_cases hserves : ¬ servesRequests serverP.status
  · rw [if_neg hsecurity, if_pos hserves] at h
    cases h
    exact .inl ⟨rfl, fun _ _ => by decide, rfl⟩
  rw [if_neg hsecurity, if_neg hserves] at h
  by_cases hget : message.code = 1
  · rw [if_pos hget] at h
    by_cases hobserve : message.isOption .observe
    · rw [if_pos hobserve] at h
      exact .inr (.inl ⟨hget, h⟩)
    · rw [if_neg hobserve] at h
      dsimp only at h
      split_ifs at h
      · cases h
        exact .inl ⟨rfl, fun _ h => absurd h hobserve, isOption_contentType_block2 _ _⟩
      · cases h
        exact .inl ⟨rfl, fun _ h => absurd h hobserve, rfl⟩
  rw [if_neg hget] at h
  by_cases hpost : message.code = 2
  · rw [if_pos hpost] at h
    exact .inr (.inr (.inl ⟨hpost, _, Except.ok.inj h⟩))
  rw [if_neg hpost] at h
  by_cases hput : message.code = 3
  · rw [if_pos hput] at h
    exact .inr (.inr (.inr (.inl ⟨hput, h⟩)))
  rw [if_neg hput] at h
  by_cases hdelete : message.code = 4
  · rw [if_pos hdelete] at h
    exact .inr (.inr (.inr (.inr ⟨hdelete, Except.ok.inj h⟩)))
  · rw [if_neg hdelete] at h
    cases h
    exact .inl ⟨rfl, fun h => absurd h hget, rfl⟩

/-! ### Dispatch -/

/-- The end of `handle_request`: the status code goes into the response, and only the
codes of a failure are returned. -/
def answer (contextP : Context) (response : Packet) (result : Code) : Context × Packet × Code :=
  (contextP, { response with code := result },
    if coapIgnore < result ∧ result < coap400BadRequest then noError else result)

theorem answer_code_ne_content (contextP : Context) (response : Packet) (result : Code) :
    (answer contextP response result).2.2 ≠ coap205Content := by
  unfold answer
  dsimp only
  split_ifs with h
  · decide
  · rintro rfl
    exact h (by decide)

/-- What `handle_request` runs. -/
theorem handleRequest_cases {result : Context × Packet × Code}
    (h : handleRequest altPath contextP fromSessionH message response outcome = .ok result) :
    (∃ code, code ≠ coap205Content ∧ code ≠ noError ∧
      (result = (contextP, response, code) ∨ result = answer contextP response code)) ∨
    (∃ uri serverP contextQ r c, uriDecode altPath message.uriPath message.code = .ok (.dm, uri) ∧
      utilsFindServer contextP.serverList fromSessionH = some serverP ∧
      dmHandleRequest contextP uri serverP message response outcome = .ok (contextQ, r, c) ∧
      result = answer contextQ r c) ∨
    (∃ uri serverP contextQ r c, uriDecode altPath message.uriPath message.code = .ok (.dm, uri) ∧
      utilsFindServer contextP.serverList fromSessionH = none ∧
      bootstrapHandleCommand contextP uri serverP message response outcome.bootstrap =
        (contextQ, r, c) ∧
      result = answer contextQ r c) ∨
    (message.code = 4 ∧ result =
      answer (bootstrapHandleDeleteAll contextP fromSessionH outcome.deletions).1 response
        (bootstrapHandleDeleteAll contextP fromSessionH outcome.deletions).2) ∨
    (message.code = 2 ∧ result =
      answer (bootstrapHandleFinish contextP fromSessionH outcome.security).1 response
        (bootstrapHandleFinish contextP fromSessionH outcome.security).2) := by
  obtain ⟨⟨requestType, uri⟩, hdecode, h⟩ := bind_eq_ok_iff.mp h
  have hdelete := (uriDecode_ensures altPath message.uriPath message.code).1 _ hdecode
  have hanswer {contextQ : Context} {r : Packet} {c : Code}
      (h : (if coapIgnore < c ∧ c < coap400BadRequest then
          (pure (contextQ, { r with code := c }, noError) : Except Fault (Context × Packet × Code))
        else pure (contextQ, { r with code := c }, c)) = .ok result) :
      result = answer contextQ r c := by
    unfold answer
    split_ifs at h ⊢ with hc
    · exact (Except.ok.inj h).symm
    · exact (Except.ok.inj h).symm
  have hignored (h : result = answer contextP response coapIgnore) :
      ∃ code, code ≠ coap205Content ∧ code ≠ noError ∧
        (result = (contextP, response, code) ∨ result = answer contextP response code) :=
    ⟨coapIgnore, by decide, by decide, .inr h⟩
  cases requestType with
  | unknown => exact .inl ⟨coap400BadRequest, by decide, by decide, .inl (Except.ok.inj h).symm⟩
  | registration => exact .inl (hignored (hanswer h))
  | deleteAll => exact .inr (.inr (.inr (.inl ⟨hdelete rfl, hanswer h⟩)))
  | bootstrap =>
    by_cases hpost : message.code = 2
    · simp only [if_pos hpost] at h
      exact .inr (.inr (.inr (.inr ⟨hpost, hanswer h⟩)))
    · simp only [if_neg hpost] at h
      exact .inl (hignored (hanswer h))
  | dm =>
    cases hserver : utilsFindServer contextP.serverList fromSessionH with
    | some serverP =>
      simp only [hserver] at h
      obtain ⟨⟨contextQ, r, c⟩, hdm, h⟩ := bind_eq_ok_iff.mp h
      exact .inr (.inl ⟨uri, serverP, contextQ, r, c, hdecode, rfl, hdm, hanswer h⟩)
    | none =>
      simp only [hserver] at h
      cases hbootstrap : utilsFindServer contextP.bootstrapServerList fromSessionH with
      | none =>
        simp only [hbootstrap] at h
        exact .inl (hignored (hanswer h))
      | some serverP =>
        simp only [hbootstrap] at h
        exact .inr (.inr (.inl ⟨uri, serverP, _, _, _, hdecode, rfl, rfl, hanswer h⟩))

/-! ### Before the dispatch -/

/-- Two contexts with the same observations and the same servers: they may differ in
the message-ids and in what the servers hold besides their identity. -/
structure SameServers (contextP contextP' : Context) : Prop where
  observedList : contextP'.observedList = contextP.observedList
  refs : contextP'.serverList.map Server.ref = contextP.serverList.map Server.ref
  sessions : ∀ session, (utilsFindServer contextP'.serverList session).map Server.ref =
    (utilsFindServer contextP.serverList session).map Server.ref
  allocated : contextP'.allocated = contextP.allocated

theorem SameServers.refl (contextP : Context) : SameServers contextP contextP :=
  ⟨rfl, rfl, fun _ => rfl, rfl⟩

theorem SameServers.trans {contextP contextQ contextR : Context} (h : SameServers contextP contextQ)
    (h' : SameServers contextQ contextR) : SameServers contextP contextR :=
  ⟨h'.observedList.trans h.observedList, h'.refs.trans h.refs,
    fun session => (h'.sessions session).trans (h.sessions session),
    h'.allocated.trans h.allocated⟩

theorem sameServers_prepareResponse (contextP : Context) (message : Packet) :
    SameServers contextP (prepareResponse contextP message).1 := by
  unfold prepareResponse
  split_ifs <;> exact ⟨rfl, rfl, fun _ => rfl, rfl⟩

theorem sameServers_setBlockData (contextP : Context) (ref : ServerRef)
    (blockData : List BlockData) : SameServers contextP (setBlockData contextP ref blockData) := by
  set f := fun server : Server => if server.ref = ref then { server with blockData } else server
    with hf
  have href (server : Server) : (f server).ref = server.ref := by
    rw [hf]
    dsimp only
    split_ifs <;> rfl
  have hsession (server : Server) : (f server).sessionH = server.sessionH := by
    rw [hf]
    dsimp only
    split_ifs <;> rfl
  refine ⟨rfl, ?_, fun session => ?_, rfl⟩
  · show (contextP.serverList.map f).map Server.ref = _
    rw [List.map_map]
    exact List.map_congr_left fun server _ => href server
  · show (utilsFindServer (contextP.serverList.map f) session).map Server.ref = _
    unfold utilsFindServer
    have hsame : (fun server => lwm2mSessionIsEqual server.sessionH session) ∘ f =
        fun server => lwm2mSessionIsEqual server.sessionH session := by
      funext server
      simp only [Function.comp, hsession]
    rw [List.find?_map, hsame, Option.map_map]
    congr 1
    funext server
    exact href server

/-- The codes that end a block: none of them is 2.05. -/
theorem prvCoapBlockHandler_code {blockDataHead : List BlockData}
    {identifier : BlockDataIdentifier} {blockType : BlockType} {b : BlockArrival}
    {result : List BlockData × Code × BlockOutput}
    (h : prvCoapBlockHandler blockDataHead identifier blockType b = .ok result) :
    result.2.1 ≠ coap205Content := by
  have hanswer (blockData : BlockData) (more : Bool) :
      (prvBlockAnswer blockData more).1 ≠ coap205Content := by
    unfold prvBlockAnswer
    split_ifs
    · exact (by decide : coap231Continue ≠ coap205Content)
    · exact (by decide : noError ≠ coap205Content)
  obtain ⟨found, -, h⟩ := bind_eq_ok_iff.mp h
  split_ifs at h
  · cases found with
    | none | some f =>
      cases h
      exact hanswer _ _
  · cases found with
    | none =>
      cases h
      exact (by decide : coap408ReqEntityIncomplete ≠ coap205Content)
    | some f =>
      dsimp only at h
      split_ifs at h
      · cases h
        exact (by decide : coapRetransmission ≠ coap205Content)
      · cases h
        exact (by decide : coap408ReqEntityIncomplete ≠ coap205Content)
      · cases h
        exact hanswer _ _
      · cases h
        exact hanswer _ _

/-- The Block1 part changes block lists only, and of the request only its payload. -/
theorem receivePayload_cases {message' : Packet}
    (h : receivePayload blockSize contextP fromSessionH message response =
      .ok (contextP', message', response', code)) :
    SameServers contextP contextP' ∧ (∃ payload, message' = { message with payload }) ∧
      code ≠ coap205Content := by
  have hsame : ∃ payload, message = { message with payload } := ⟨message.payload, rfl⟩
  unfold receivePayload at h
  by_cases hlarge : message.payload.length > blockSize.toNat
  · rw [if_pos hlarge] at h
    cases h
    exact ⟨.refl _, hsame, by decide⟩
  rw [if_neg hlarge] at h
  by_cases hblock : message.isOption .block1
  · rw [if_pos hblock] at h
    split at h
    · cases h
      exact ⟨.refl _, hsame, by decide⟩
    · obtain ⟨⟨blockData, c, output⟩, hhandler, h⟩ := bind_eq_ok_iff.mp h
      have hcode := prvCoapBlockHandler_code hhandler
      cases h
      refine ⟨sameServers_setBlockData _ _ _, ?_, hcode⟩
      cases output with
      | untouched => exact hsame
      | incomplete => exact hsame
      | complete buffer => exact ⟨buffer, rfl⟩
  · rw [if_neg hblock] at h
    cases h
    exact ⟨.refl _, hsame, by decide⟩

theorem selectBlock2_code (h : (selectBlock2 blockSize message response).code = coap205Content) :
    response.code = coap205Content := by
  unfold selectBlock2 at h
  have hset (packet : Packet) (num : UInt32) (more : UInt8) (size : UInt16) :
      (packet.coapSetHeaderBlock2 num more size).code = packet.code := by
    unfold Packet.coapSetHeaderBlock2
    split_ifs <;> rfl
  dsimp only at h
  split_ifs at h
  · exact absurd h (by decide : coap402BadOption ≠ coap205Content)
  all_goals simpa [Packet.coapSetPayload, hset] using h

/-- **What a received request runs.**  The request is handled in a context with the same
observations and servers, unless it ends before; a reply with 2.05 is the answer of
`handle_request`. -/
theorem lwm2mHandleRequestPacket_cases {reply : Option Packet}
    (h : lwm2mHandleRequestPacket altPath blockSize contextP fromSessionH message outcome =
      .ok (contextP', reply)) :
    ∃ contextQ, SameServers contextP contextQ ∧
      ((contextP' = contextQ ∧ ∀ p, reply = some p → p.code ≠ coap205Content) ∨
       ∃ payload response result,
        handleRequest altPath contextQ fromSessionH { message with payload } response outcome =
          .ok result ∧ contextP' = result.1 ∧
        ∀ p, reply = some p → p.code = coap205Content →
          result.2.2 = noError ∧ result.2.1.code = coap205Content ∨
            result.2.2 = coap205Content) := by
  have hprepare := sameServers_prepareResponse contextP message
  obtain ⟨⟨contextQ, messageQ, response, code⟩, hpayload, h⟩ := bind_eq_ok_iff.mp h
  obtain ⟨hsame, ⟨payload, rfl⟩, hcode⟩ := receivePayload_cases hpayload
  refine ⟨contextQ, hprepare.trans hsame, ?_⟩
  have herror (r : Packet) (c : Code) (h : errorCode r c = coap205Content) :
      c = coap205Content := by
    unfold errorCode at h
    split_ifs at h
    · cases h
    · cases h
    · exact h
  by_cases hhandle : code = noError
  · simp only [if_pos hhandle] at h
    obtain ⟨⟨contextR, r, c⟩, hresult, h⟩ := bind_eq_ok_iff.mp h
    refine .inr ⟨payload, response, (contextR, r, c), hresult, ?_⟩
    split_ifs at h with hdone hreply
    · cases h
      refine ⟨rfl, ?_⟩
      rintro p ⟨⟩ hp
      exact .inl ⟨hdone, selectBlock2_code hp⟩
    · cases h
      refine ⟨rfl, ?_⟩
      rintro p ⟨⟩ hp
      exact .inr (herror _ _ hp)
    · cases h
      exact ⟨rfl, fun p hp => by cases hp⟩
  · simp only [if_neg hhandle, pure_eq_ok, ok_bind] at h
    refine .inl ?_
    split_ifs at h with hreply
    · cases h
      refine ⟨rfl, ?_⟩
      rintro p ⟨⟩ hp
      exact hcode (herror _ _ hp)
    · cases h
      exact ⟨rfl, fun p hp => by cases hp⟩

end Lwm2m.Core

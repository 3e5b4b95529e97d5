/-
# The location of a registration

A server answers a registration with the segments of a Location-Path.  `prv_handleRegistrationReply`
keeps them as one C string (`coap_get_multi_option_as_path_string`), which `prv_updateRegistration`
and `registration_deregister` split again into the Uri-Path of their requests
(`coap_set_header_uri_path`).  `uriPath_location_iff` states which segments come back.

The runs are those of one server: each function reaches the location of its own server only.  Beside
the server stand the segments of the last answer, and the requests that were built.
-/

import Lwm2m.Core.RegistrationMemory
import Lwm2m.Core.TransferKey

namespace Lwm2m.Core

open Coap Code Library

/-! ### Joining and splitting -/

/-- The segments that are the same behind a join and a split: some, none of which ends the string or
a segment early, and the last one not empty, except where it is the only one. -/
structure SplitsBack (segments : List (List Byte)) : Prop where
  ne_nil : segments ≠ []
  last : segments.tail.getLast? ≠ some []
  short : ∀ segment ∈ segments, segment.length < 256
  noSlash : ∀ segment ∈ segments, 0x2F ∉ segment
  noNul : ∀ segment ∈ segments, 0 ∉ segment

theorem foldl_coapAddMultiOption (parts dst : List (List Byte)) :
    parts.foldl coapAddMultiOption dst = dst ++ parts.map multiOption := by
  induction parts generalizing dst with
  | nil => rw [List.foldl_nil, List.map_nil, List.append_nil]
  | cons part parts ih =>
    rw [List.foldl_cons, ih, coapAddMultiOption, List.append_assoc, List.map_cons,
      List.singleton_append]

variable {segment : List Byte} {separator b : Byte}

theorem multiOption_of_short (h : segment.length < 256) :
    multiOption segment = segment := by
  rw [multiOption, Nat.mod_eq_of_lt h, List.take_length]

/-- What is in a segment is in the string and no separator. -/
theorem mem_of_mem_splitSegments {part path : List Byte}
    (hpart : part ∈ splitSegments separator segment path) (hb : b ∈ part) :
    b ∈ segment ∨ b ∈ path ∧ b ≠ separator := by
  induction path generalizing segment with
  | nil =>
    obtain rfl := List.mem_singleton.mp hpart
    exact .inl hb
  | cons c path ih =>
    unfold splitSegments at hpart
    split_ifs at hpart with hsep hnil
    · obtain rfl := List.mem_singleton.mp hpart
      exact .inl hb
    · rcases List.mem_cons.mp hpart with rfl | hpart
      · exact .inl hb
      · rcases ih hpart with hb | ⟨hb, hne⟩
        · exact absurd hb List.not_mem_nil
        · exact .inr ⟨List.mem_cons_of_mem _ hb, hne⟩
    · rcases ih hpart with hb | ⟨hb, hne⟩
      · rcases List.mem_append.mp hb with hb | hb
        · exact .inl hb
        · obtain rfl := List.mem_singleton.mp hb
          exact .inr ⟨List.mem_cons_self, hsep⟩
      · exact .inr ⟨List.mem_cons_of_mem _ hb, hne⟩

/-- A piece without the separator is collected. -/
theorem splitSegments_append {piece : List Byte} (hpiece : separator ∉ piece)
    (segment path : List Byte) :
    splitSegments separator segment (piece ++ path) =
      splitSegments separator (segment ++ piece) path := by
  induction piece generalizing segment with
  | nil => rw [List.nil_append, List.append_nil]
  | cons b piece ih =>
    have hb : b ≠ separator := fun h => hpiece (h ▸ List.mem_cons_self)
    have hrest : separator ∉ piece := fun h => hpiece (List.mem_cons_of_mem _ h)
    rw [List.cons_append, splitSegments, if_neg hb, ih hrest, List.append_assoc,
      List.singleton_append]

/-- **Joined pieces are split again**, except that an empty last one is lost. -/
theorem splitSegments_joined (piece : List Byte) (pieces : List (List Byte))
    (hpiece : separator ∉ piece) (hpieces : ∀ p ∈ pieces, separator ∉ p) :
    splitSegments separator [] (piece ++ joined separator pieces) =
      if pieces.getLast? = some [] then (piece :: pieces).dropLast else piece :: pieces := by
  induction pieces generalizing piece with
  | nil => rw [splitSegments_append hpiece]; rfl
  | cons next pieces ih =>
    obtain ⟨hnext, hrest⟩ := List.forall_mem_cons.mp hpieces
    rw [splitSegments_append hpiece, List.nil_append, joined_cons, splitSegments, if_pos rfl,
      ih next hnext hrest]
    cases pieces with
    | nil =>
      rw [joined_nil, List.append_nil]
      by_cases hnil : next = []
      · rw [if_pos hnil, hnil]
        rfl
      · rw [if_neg hnil]
        simp [hnil]
    | cons last pieces =>
      have hne : next ++ joined separator (last :: pieces) ≠ [] := by
        rw [joined_cons]
        exact List.append_ne_nil_of_right_ne_nil _ (List.cons_ne_nil _ _)
      rw [if_neg hne, List.getLast?_cons_cons]
      split_ifs
      · rfl
      · rfl

theorem zero_not_mem_multiOptionAsString (segments : List (List Byte)) (first delimiter : Byte) :
    0 ∉ multiOptionAsString segments first delimiter := by
  cases segments with
  | nil => exact List.not_mem_nil
  | cons segment segments => exact zero_not_mem_takeWhile _

theorem mem_of_mem_skipFirst {c : Byte} {string : CString} (h : b ∈ skipFirst c string) :
    b ∈ string := by
  unfold skipFirst at h
  split_ifs at h
  · exact List.mem_of_mem_tail h
  · exact h

/-- The Uri-Path of a request to a location. -/
def locationSegments (segments : List (List Byte)) : List (List Byte) :=
  (splitSegments 0x2F [] (skipFirst 0x2F (multiOptionAsString segments 0x2F 0x2F))).map multiOption

theorem uriPath_coapSetHeaderUriPath (message : Packet) (segments : List (List Byte)) :
    (message.coapSetHeaderUriPath (multiOptionAsString segments 0x2F 0x2F)).uriPath =
      locationSegments segments := by
  rw [locationSegments, ← List.nil_append (List.map _ _), ← foldl_coapAddMultiOption]
  rfl

/-- **The location splits back**: a request to it has the segments that were received as its path
exactly if none of them is lost. -/
theorem locationSegments_iff (segments : List (List Byte)) :
    locationSegments segments = segments ↔ SplitsBack segments := by
  have hsplit (piece : List Byte) (pieces : List (List Byte))
      (hslash : ∀ p ∈ piece :: pieces, 0x2F ∉ p) (hnul : ∀ p ∈ piece :: pieces, 0 ∉ p)
      (hshort : ∀ p ∈ piece :: pieces, p.length < 256) :
      locationSegments (piece :: pieces) =
        if pieces.getLast? = some [] then (piece :: pieces).dropLast else piece :: pieces := by
    obtain ⟨hpiece, hpieces⟩ := List.forall_mem_cons.mp hslash
    have hskip : skipFirst 0x2F (multiOptionAsString (piece :: pieces) 0x2F 0x2F) =
        piece ++ joined 0x2F pieces := by
      rw [multiOptionAsString_path hnul]
      rfl
    have hsame (l : List (List Byte)) (hl : l ⊆ piece :: pieces) : l.map multiOption = l := by
      have hid : ∀ p ∈ l, multiOption p = id p := fun p hp =>
        multiOption_of_short (hshort p (hl hp))
      rw [List.map_congr_left hid, List.map_id]
    rw [locationSegments, hskip, splitSegments_joined piece pieces hpiece hpieces]
    split_ifs
    · exact hsame _ (List.dropLast_subset _)
    · exact hsame _ fun _ hp => hp
  constructor
  · intro h
    have hpart (segment : List Byte) (hsegment : segment ∈ segments) :
        segment.length < 256 ∧ 0x2F ∉ segment ∧ 0 ∉ segment := by
      rw [← h] at hsegment
      obtain ⟨part, hpart, rfl⟩ := List.mem_map.mp hsegment
      have hmem {b : Byte} (hb : b ∈ multiOption part) :
          b ∈ multiOptionAsString segments 0x2F 0x2F ∧ b ≠ 0x2F := by
        rcases mem_of_mem_splitSegments hpart (List.mem_of_mem_take hb) with hb | ⟨hb, hslash⟩
        · exact absurd hb List.not_mem_nil
        · exact ⟨mem_of_mem_skipFirst hb, hslash⟩
      exact ⟨multiOption_length_lt part, fun hb => (hmem hb).2 rfl,
        fun hb => zero_not_mem_multiOptionAsString _ _ _ (hmem hb).1⟩
    cases segments with
    | nil => cases h
    | cons piece pieces =>
      rw [hsplit piece pieces (fun p hp => (hpart p hp).2.1) (fun p hp => (hpart p hp).2.2)
        fun p hp => (hpart p hp).1] at h
      refine ⟨List.cons_ne_nil _ _, fun hlast => ?_, fun p hp => (hpart p hp).1,
        fun p hp => (hpart p hp).2.1, fun p hp => (hpart p hp).2.2⟩
      rw [List.tail_cons] at hlast
      rw [if_pos hlast] at h
      have hlength := congrArg List.length h
      rw [List.length_dropLast, List.length_cons] at hlength
      omega
  · intro h
    cases segments with
    | nil => exact absurd rfl h.ne_nil
    | cons piece pieces =>
      rw [hsplit piece pieces h.noSlash h.noNul h.short]
      exact if_neg h.last

/-! ### Runs -/

/-- A status without a registration, as other functions of the client set it. -/
inductive Idle
  | deregistered
  | holdOff
  | failed
  deriving DecidableEq, Repr

def Idle.status : Idle → Status
  | .deregistered => .deregistered
  | .holdOff => .regHoldOff
  | .failed => .regFailed

/-- An update or a deregister request, and the segments that its server answered last. -/
structure LocatedRequest where
  message : Packet
  segments : List (List Byte)

/-- One server: its status and location, the segments of the last `2.01` to a registration, and
the requests that were built for it. -/
structure LocatedServer where
  status : Status := .deregistered
  location : Option CString := none
  segments : List (List Byte) := []
  requests : List LocatedRequest := []

/-- The number of the callback `prv_handleDeregistrationReply`. -/
def deregistrationReply : ℕ := 2

/-- The transaction of `registration_deregister`. -/
def deregisterRequest (transaction : Transaction) (location : CString) : Transaction :=
  let message := transaction.message.coapSetHeaderUriPath location
  { transaction with message, callback := some deregistrationReply }

/-- What happens to a server.  A transaction is the one of `transaction_new`, if it makes one, and
`sent` is whether `transaction_send` returns 0. -/
inductive LocationEvent
  /-- `registration_start`, `prv_startRegistration` or another function that ends a registration. -/
  | idle (idle : Idle)
  /-- `prv_register` sends its request. -/
  | register
  /-- `prv_handleRegistrationReply`; an attempt that failed leaves the server idle. -/
  | registrationReply (packet : Option Packet) (attemptFailure : Idle)
  /-- `lwm2m_update_registration`. -/
  | updateRegistration (named withObjects : Bool)
  /-- `registration_step`, with an update that is due or needed. -/
  | step (input : RequestInput) (transaction : Option Transaction) (sent : Bool)
  /-- `prv_handleRegistrationUpdateReply`. -/
  | updateReply (packet : Option Packet)
  /-- `registration_deregister`. -/
  | deregister (transaction : Option Transaction) (sent : Bool)
  /-- `prv_handleDeregistrationReply`. -/
  | deregistrationReply

namespace LocatedServer

/-- `prv_handleRegistrationReply`. -/
def registrationReply (s : LocatedServer) (packet : Option Packet) (attemptFailure : Idle) :
    LocatedServer :=
  if s.status ≠ .regPending ∨ asksForMore packet then s
  else
    match packet with
    | none => { s with status := attemptFailure.status }
    | some packet =>
      if packet.code = coap201Created then
        { s with
          status := .registered
          location := some (multiOptionAsString packet.locationPath 0x2F 0x2F)
          segments := packet.locationPath }
      else { s with status := attemptFailure.status }

/-- `lwm2m_update_registration`, for all servers or for a named one. -/
def updateRegistration (s : LocatedServer) (named withObjects : Bool) : LocatedServer :=
  if s.status ∈ [.registered, .regUpdatePending] then
    { s with status := if withObjects then .regFullUpdateNeeded else .regUpdateNeeded }
  else if named ∧ s.status ∈ [.regUpdateNeeded, .regFullUpdateNeeded] ∧ withObjects then
    { s with status := .regFullUpdateNeeded }
  else s

/-- `prv_updateRegistration`. -/
def prvUpdateRegistration (s : LocatedServer) (input : RequestInput)
    (transaction : Option Transaction) (withObjects sent : Bool) : Except Fault LocatedServer :=
  match transaction, s.location with
  | none, _ => .ok s
  | some _, none => .error .nullDereference
  | some transaction, some location =>
    if withObjects ∧ input.payload = [] then .ok s
    else
      let transaction :=
        RegistrationMemory.updateRegistrationRequest input transaction location withObjects
      .ok { s with
        status := if sent then .regUpdatePending else s.status
        requests := ⟨transaction.message, s.segments⟩ :: s.requests }

/-- The part of `registration_step` about a server that is registered. -/
def registrationStep (s : LocatedServer) (input : RequestInput) (transaction : Option Transaction)
    (sent : Bool) : Except Fault LocatedServer :=
  match s.status with
  | .registered | .regUpdateNeeded => s.prvUpdateRegistration input transaction false sent
  | .regFullUpdateNeeded => s.prvUpdateRegistration input transaction true sent
  | _ => .ok s

/-- `registration_deregister`. -/
def registrationDeregister (s : LocatedServer) (transaction : Option Transaction) (sent : Bool) :
    LocatedServer :=
  if s.status ∈ [.deregistered, .regPending, .deregPending, .regFailed] then s
  else
    match s.location, transaction with
    | some location, some transaction =>
      { s with
        status := if sent then .deregPending else s.status
        requests := ⟨(deregisterRequest transaction location).message, s.segments⟩ :: s.requests }
    | _, _ => s

/-- One event. -/
def after (s : LocatedServer) : LocationEvent → Except Fault LocatedServer
  | .idle idle => .ok { s with status := idle.status }
  | .register => .ok { s with status := .regPending }
  | .registrationReply packet attemptFailure => .ok (s.registrationReply packet attemptFailure)
  | .updateRegistration named withObjects => .ok (s.updateRegistration named withObjects)
  | .step input transaction sent => s.registrationStep input transaction sent
  | .updateReply packet =>
    if s.status ≠ .regUpdatePending ∨ asksForMore packet then .ok s
    else
      .ok { s with status :=
        if packet.map Packet.code = some coap204Changed then .registered else .regFailed }
  | .deregister transaction sent => .ok (s.registrationDeregister transaction sent)
  | .deregistrationReply =>
    .ok (if s.status = .deregPending then { s with status := .deregistered } else s)

/-- The statuses in which an update may be sent. -/
def updatable : List Status :=
  [.registered, .regUpdatePending, .regUpdateNeeded, .regFullUpdateNeeded]

/-- The location is the one of the last answer, and there is one where an update may be sent; so the
Uri-Path of each request is what comes back from its segments. -/
structure Located (s : LocatedServer) : Prop where
  location : ∀ location, s.location = some location →
    location = multiOptionAsString s.segments 0x2F 0x2F
  registered : s.status ∈ updatable → s.location ≠ none
  requests : ∀ request ∈ s.requests, request.message.uriPath = locationSegments request.segments

variable {s s' : LocatedServer}

/-- The location stays, and what is new is a request to it. -/
theorem Located.of_same (h : s.Located) (hlocation : s'.location = s.location)
    (hsegments : s'.segments = s.segments)
    (hstatus : s'.status ∈ updatable → s.status ∈ updatable)
    (hrequests : ∀ request ∈ s'.requests, request ∈ s.requests ∨
      request.message.uriPath = locationSegments request.segments) : s'.Located := by
  refine ⟨fun location hsome => ?_, fun hmem => ?_, fun request hmem => ?_⟩
  · rw [hsegments]
    exact h.location location (hlocation ▸ hsome)
  · rw [hlocation]
    exact h.registered (hstatus hmem)
  · exact (hrequests request hmem).elim (h.requests request) id

theorem Located.withStatus (h : s.Located) {status : Status}
    (hstatus : status ∈ updatable → s.status ∈ updatable) : { s with status }.Located :=
  h.of_same rfl rfl hstatus fun _ hmem => .inl hmem

theorem idle_not_updatable (idle : Idle) : idle.status ∉ updatable := by
  cases idle <;> decide

theorem Located.idle (h : s.Located) (idle : Idle) : { s with status := idle.status }.Located :=
  h.withStatus fun hmem => absurd hmem (idle_not_updatable idle)

theorem uriPath_coapSetHeaderBlock1 (message : Packet) (num : UInt32) (more : UInt8)
    (size : UInt16) : (message.coapSetHeaderBlock1 num more size).uriPath = message.uriPath := by
  unfold Packet.coapSetHeaderBlock1
  split_ifs <;> rfl

theorem uriPath_transactionSetPayload (blockSize : UInt16) (transaction : Transaction)
    (buffer : List Byte) : (transactionSetPayload blockSize transaction buffer).message.uriPath =
      transaction.message.uriPath := by
  unfold transactionSetPayload
  split_ifs
  · exact uriPath_coapSetHeaderBlock1 _ _ _ _
  · rfl

theorem uriPath_updateRegistrationRequest (input : RequestInput) (transaction : Transaction)
    (location : CString) (withObjects : Bool) :
    (RegistrationMemory.updateRegistrationRequest input transaction location
      withObjects).message.uriPath =
      (transaction.message.coapSetHeaderUriPath location).uriPath := by
  unfold RegistrationMemory.updateRegistrationRequest
  split_ifs
  · exact uriPath_transactionSetPayload _ _ _
  · rfl

/-- **An update** is built, or not, and its path is the one of the location. -/
theorem Located.update (h : s.Located) (hstatus : s.status ∈ updatable) (input : RequestInput)
    (transaction : Option Transaction) (withObjects sent : Bool) :
    ∃ s', s.prvUpdateRegistration input transaction withObjects sent = .ok s' ∧ s'.Located := by
  cases hlocation : s.location with
  | none => exact absurd hlocation (h.registered hstatus)
  | some location =>
    unfold prvUpdateRegistration
    rw [hlocation]
    cases transaction with
    | none => exact ⟨s, rfl, h⟩
    | some transaction =>
      dsimp only
      by_cases hpayload : withObjects ∧ input.payload = []
      · rw [if_pos hpayload]
        exact ⟨s, rfl, h⟩
      · rw [if_neg hpayload]
        refine ⟨_, rfl, h.of_same hlocation.symm rfl (fun _ => hstatus) fun request hmem => ?_⟩
        rcases List.mem_cons.mp hmem with rfl | hmem
        · right
          rw [uriPath_updateRegistrationRequest, h.location location hlocation,
            uriPath_coapSetHeaderUriPath]
        · exact .inl hmem

theorem Located.deregister (h : s.Located) (transaction : Option Transaction) (sent : Bool) :
    (s.registrationDeregister transaction sent).Located := by
  unfold registrationDeregister
  by_cases hstatus : s.status ∈ [.deregistered, .regPending, .deregPending, .regFailed]
  · rw [if_pos hstatus]
    exact h
  rw [if_neg hstatus]
  cases hlocation : s.location with
  | none => exact h
  | some location =>
    cases transaction with
    | none => exact h
    | some transaction =>
      refine h.of_same hlocation.symm rfl (fun hmem => ?_) fun request hmem => ?_
      · dsimp only at hmem
        split_ifs at hmem
        · exact absurd hmem (by decide)
        · exact hmem
      · rcases List.mem_cons.mp hmem with rfl | hmem
        · rw [h.location location hlocation]
          exact .inr (uriPath_coapSetHeaderUriPath _ _)
        · exact .inl hmem

theorem Located.registrationReply (h : s.Located) (packet : Option Packet) (attemptFailure : Idle) :
    (s.registrationReply packet attemptFailure).Located := by
  unfold LocatedServer.registrationReply
  split_ifs
  · exact h
  · cases packet with
    | none => exact h.idle attemptFailure
    | some packet =>
      dsimp only
      split_ifs
      · refine ⟨fun location hlocation => ?_, fun _ => Option.some_ne_none _, h.requests⟩
        exact (Option.some.inj hlocation).symm
      · exact h.idle attemptFailure

/-- **One event** meets no NULL location and keeps the location of the last answer. -/
theorem Located.after (h : s.Located) (event : LocationEvent) :
    ∃ s', s.after event = .ok s' ∧ s'.Located := by
  cases event with
  | idle idle => exact ⟨_, rfl, h.idle idle⟩
  | register => exact ⟨_, rfl, h.withStatus fun hmem => absurd hmem (by decide)⟩
  | registrationReply packet attemptFailure => exact ⟨_, rfl, h.registrationReply packet _⟩
  | updateRegistration named withObjects =>
    refine ⟨_, rfl, ?_⟩
    unfold LocatedServer.updateRegistration
    by_cases hregistered : s.status ∈ [.registered, .regUpdatePending]
    · rw [if_pos hregistered]
      exact h.withStatus fun _ => List.mem_append_left _ hregistered
    rw [if_neg hregistered]
    by_cases hneeded : named ∧ s.status ∈ [.regUpdateNeeded, .regFullUpdateNeeded] ∧ withObjects
    · rw [if_pos hneeded]
      exact h.withStatus fun _ => List.mem_append_right [_, _] hneeded.2.1
    · rw [if_neg hneeded]
      exact h
  | step input transaction sent =>
    have hupdate (hstatus : s.status ∈ updatable) (withObjects : Bool) :=
      h.update hstatus input transaction withObjects sent
    unfold LocatedServer.after registrationStep
    dsimp only
    split
    next hstatus => exact hupdate (by rw [hstatus]; decide) false
    next hstatus => exact hupdate (by rw [hstatus]; decide) false
    next hstatus => exact hupdate (by rw [hstatus]; decide) true
    next => exact ⟨s, rfl, h⟩
  | updateReply packet =>
    unfold LocatedServer.after
    dsimp only
    by_cases hpending : s.status ≠ .regUpdatePending ∨ asksForMore packet
    · rw [if_pos hpending]
      exact ⟨s, rfl, h⟩
    · rw [if_neg hpending]
      refine ⟨_, rfl, h.withStatus fun _ => ?_⟩
      rw [not_not.mp fun hne => hpending (.inl hne)]
      decide
  | deregister transaction sent => exact ⟨_, rfl, h.deregister transaction sent⟩
  | deregistrationReply =>
    refine ⟨_, rfl, ?_⟩
    split_ifs
    · exact h.withStatus fun hmem => absurd hmem (by decide)
    · exact h

/-- **Every run.** -/
theorem Located.run (h : s.Located) (events : List LocationEvent) :
    ∃ s', events.foldlM LocatedServer.after s = .ok s' ∧ s'.Located := by
  induction events generalizing s with
  | nil => exact ⟨s, rfl, h⟩
  | cons event events ih =>
    obtain ⟨s₁, hafter, h₁⟩ := h.after event
    obtain ⟨s₂, hrun, h₂⟩ := ih h₁
    exact ⟨s₂, by rw [List.foldlM_cons, hafter, ok_bind, hrun], h₂⟩

/-- **When requests address the location**: in every run, the Uri-Path of an update or deregister
request is the Location-Path of the last answer exactly if those segments split back. -/
theorem addressesLocation_iff (events : List LocationEvent) :
    ∃ s, events.foldlM LocatedServer.after {} = .ok s ∧ ∀ request ∈ s.requests,
      (request.message.uriPath = request.segments ↔ SplitsBack request.segments) := by
  have hinitial : ({} : LocatedServer).Located :=
    ⟨fun _ h => absurd h.symm (Option.some_ne_none _), fun h => absurd h (by decide),
      fun _ h => absurd h List.not_mem_nil⟩
  obtain ⟨s, hrun, hlocated⟩ := hinitial.run events
  refine ⟨s, hrun, fun request hmem => ?_⟩
  rw [hlocated.requests request hmem]
  exact locationSegments_iff request.segments

/-- The segment "a/b" is answered, and the next update goes to two segments. -/
theorem slashInSegment_fails : ¬ ∀ (events : List LocationEvent) (s : LocatedServer),
    events.foldlM LocatedServer.after {} = .ok s →
      ∀ request ∈ s.requests, request.message.uriPath = request.segments := by
  intro h
  let created : Packet :=
    { coapInitMessage .ack coap201Created 1 with locationPath := [[0x61, 0x2F, 0x62]] }
  have hrun : ∃ s, [.register, .registrationReply (some created) .failed,
      .step ⟨0, 1024, [], none, none⟩ (transactionNew (some 0) 2 none none 2 []) true].foldlM
        LocatedServer.after {} = .ok s ∧
      s.requests.map (fun request => (request.message.uriPath, request.segments)) =
        [([[0x61], [0x62]], [[0x61, 0x2F, 0x62]])] := ⟨_, rfl, by decide⟩
  obtain ⟨s, hrun, hrequests⟩ := hrun
  obtain ⟨request, hmem, hrequest⟩ :=
    List.mem_map.mp (hrequests ▸ List.mem_singleton_self _)
  have hpath := h _ s hrun request hmem
  obtain ⟨hpath', hsegments⟩ := Prod.mk.inj hrequest
  rw [hpath', hsegments] at hpath
  exact absurd hpath (by decide)

end LocatedServer

end Lwm2m.Core

/-
# Observe and Write-Attributes that fail

`prv_getWatcher` links an entry and a watcher into the observed list before the request is checked
to the end, and nothing takes them out again when a later check fails; when the watcher of a new
entry cannot be allocated it frees the entry and leaves it at the head of the list.  So a
request that is answered with an error leaves the list as it was exactly when it fails before
`prv_getWatcher` links anything, or when it finds what it asks for and writes what is there
already (`dmHandleRequestIn_observe_iff`, `dmHandleRequestIn_attributes_iff`).

Here the allocations of the request may fail; where they succeed, the functions are those
of `Observe` and `Management`.
-/

import Lwm2m.Core.Watchers

namespace Lwm2m.Core

open Coap Code Library

/-! ### Requests whose allocations may fail -/

/-- The allocations that succeed: of an entry, of a watcher and of its attributes. -/
structure Allocations where
  observed : Bool := true
  watcher : Bool := true
  parameters : Bool := true
  deriving DecidableEq, Repr

/-- What `observedList` points to. -/
inductive ObservedList
  | intact (observedList : List Observed)
  /-- An entry that was freed, in front of the others. -/
  | freedHead (next : List Observed)
  deriving DecidableEq, Repr

/-- `prv_getWatcher`; where it returns no watcher, the list it leaves. -/
def prvGetWatcherIn (allocations : Allocations) (observedList : List Observed) (uriP : Uri)
    (serverP : ServerRef) : Except ObservedList WatcherFocus :=
  match prvFindObserved observedList uriP with
  | none =>
    if allocations.observed then
      if allocations.watcher then
        .ok ⟨⟨[], ⟨uriP, []⟩, observedList⟩, ⟨[], { server := serverP }, []⟩⟩
      else .error (.freedHead observedList)
    else .error (.intact observedList)
  | some entry =>
    match prvFindWatcher entry.here.watcherList serverP with
    | some watcher => .ok ⟨entry, watcher⟩
    | none =>
      if allocations.watcher then
        .ok ⟨entry, ⟨[], { server := serverP }, entry.here.watcherList⟩⟩
      else .error (.intact observedList)

/-- The watcher of an Observe request, before its value is kept. -/
def Watcher.started (watcherP : Watcher) (time : ℤ) (message response : Packet) : Watcher :=
  { watcherP with
    token := message.token
    active := true
    lastTime := time
    lastMid := response.mid
    format := response.contentType.toUInt16 }

/-- `observe_handleRequest`. -/
def observeHandleRequestIn (allocations : Allocations) (serverList : List Server)
    (observedList : List Observed) (uriP : Uri) (serverP : Server) (value : DecodedValue) (time : ℤ)
    (message response : Packet) : Except Fault (ObservedList × Packet × Code) := do
  if message.observe = 0 then
    if ¬ uriP.isSetInstance ∧ uriP.isSetResource then
      return (.intact observedList, response, coap400BadRequest)
    if message.token.length = 0 then
      return (.intact observedList, response, coap400BadRequest)
    match prvGetWatcherIn allocations observedList uriP serverP.ref with
    | .error left => return (left, response, coap500InternalServerError)
    | .ok target =>
      let watcherP := target.watcher.here.started time message response
      let stored := match value with
        | .numeric v => if uriP.isSetResource then { watcherP with lastValue := v } else watcherP
        | _ => watcherP
      if uriP.isSetResource ∧ value = .undecodable then
        return (.intact (target.set watcherP), response, coap500InternalServerError)
      return (.intact (target.set { stored with counter := stored.counter + 1 }),
        response.coapSetHeaderObserve stored.counter, coap205Content)
  else do
    let (observedList, response, result) ← observeHandleRequest serverList observedList uriP serverP
      value time message response
    return (.intact observedList, response, result)

/-- `observe_setParameters`. -/
def observeSetParametersIn (allocations : Allocations) (observedList : List Observed) (uriP : Uri)
    (serverP : ServerRef) (attrP : Attributes) (readable : Code) :
    Except Fault (ObservedList × Code) := do
  if ¬ uriP.isSetInstance ∧ uriP.isSetResource then
    return (.intact observedList, coap400BadRequest)
  if readable ≠ coap205Content then return (.intact observedList, readable)
  match prvGetWatcherIn allocations observedList uriP serverP with
  | .error left => return (left, coap500InternalServerError)
  | .ok target =>
    let watcherP := target.watcher.here
    if ← thresholdsClash attrP watcherP.parameters then
      return (.intact target.list, coap400BadRequest)
    match watcherP.parameters with
    | none =>
      if attrP.toSet ≠ 0 then
        if allocations.parameters then
          return (.intact (target.set { watcherP with parameters := some attrP }), coap204Changed)
        else return (.intact target.list, coap500InternalServerError)
      else return (.intact target.list, coap204Changed)
    | some p =>
      return (.intact (target.set { watcherP with parameters := some (p.updateBy attrP) }),
        coap204Changed)

/-- The GET of `dm_handleRequest` with an Observe option. -/
def observeRequestIn (allocations : Allocations) (contextP : Context) (uriP : Uri)
    (serverP : Server) (message response : Packet) (outcome : Outcome) :
    Except Fault (ObservedList × Packet × Code) := do
  if outcome.readData ≠ coap205Content then
    return (.intact contextP.observedList, response, outcome.readData)
  let (result, format) := outcome.responseFormat
  if result ≠ coap205Content then return (.intact contextP.observedList, response, result)
  let response := response.coapSetHeaderContentType format.toUInt32
  let (left, response, result) ← observeHandleRequestIn allocations contextP.serverList
    contextP.observedList uriP serverP outcome.value outcome.time message response
  if result ≠ coap205Content then return (left, response, result)
  match outcome.serialized with
  | none => return (left, response, coap500InternalServerError)
  | some buffer =>
    return (left, (response.coapSetHeaderContentType format.toUInt32).coapSetPayload buffer,
      coap205Content)

/-- The PUT of `dm_handleRequest` with a Uri-Query option. -/
def attributesRequestIn (allocations : Allocations) (contextP : Context) (uriP : Uri)
    (serverP : Server) (response : Packet) (outcome : Outcome) :
    Except Fault (ObservedList × Packet × Code) := do
  match outcome.attributes with
  | none => return (.intact contextP.observedList, response, coap400BadRequest)
  | some attr =>
    let (left, result) ← observeSetParametersIn allocations contextP.observedList uriP serverP.ref
      attr outcome.checkReadable
    return (left, response, result)

/-- `dm_handleRequest`: what it leaves of the observed list, the response and the code. -/
def dmHandleRequestIn (allocations : Allocations) (contextP : Context) (uriP : Uri)
    (serverP : Server) (message response : Packet) (outcome : Outcome) :
    Except Fault (ObservedList × Packet × Code) := do
  if uriP.objectId = lwm2mSecurityObjectId then
    return (.intact contextP.observedList, response, coap401Unauthorized)
  if ¬ servesRequests serverP.status then
    return (.intact contextP.observedList, response, coapIgnore)
  if message.code = 1 ∧ message.isOption .observe then
    observeRequestIn allocations contextP uriP serverP message response outcome
  else if message.code = 3 ∧ message.isOption .uriQuery then
    attributesRequestIn allocations contextP uriP serverP response outcome
  else do
    let (contextP, response, result) ← dmHandleRequest contextP uriP serverP message response outcome
    return (.intact contextP.observedList, response, result)

/-! ### Where the allocations succeed -/

section

variable (observedList : List Observed) (uriP : Uri)

theorem prvGetWatcherIn_all (serverP : ServerRef) :
    prvGetWatcherIn {} observedList uriP serverP =
      .ok (prvGetWatcher observedList uriP serverP) := by
  unfold prvGetWatcherIn prvGetWatcher
  cases hentry : prvFindObserved observedList uriP with
  | none => rfl
  | some entry => cases hwatcher : prvFindWatcher entry.here.watcherList serverP <;> simp [hwatcher]

theorem observeHandleRequestIn_all (serverList : List Server) (serverP : Server)
    (value : DecodedValue) (time : ℤ) (message response : Packet) :
    observeHandleRequestIn {} serverList observedList uriP serverP value time message response =
      (observeHandleRequest serverList observedList uriP serverP value time message response).map
        fun (l, r, c) => (.intact l, r, c) := by
  unfold observeHandleRequestIn
  by_cases hzero : message.observe = 0
  · unfold observeHandleRequest
    simp only [if_pos hzero, prvGetWatcherIn_all, Watcher.started]
    split_ifs <;> rfl
  · rw [if_neg hzero]
    cases observeHandleRequest serverList observedList uriP serverP value time message response <;>
      rfl

theorem observeSetParametersIn_all (serverP : ServerRef) (attrP : Attributes) (readable : Code) :
    observeSetParametersIn {} observedList uriP serverP attrP readable =
      (observeSetParameters observedList uriP serverP attrP readable).map
        fun (l, c) => (.intact l, c) := by
  unfold observeSetParametersIn observeSetParameters
  simp only [prvGetWatcherIn_all]
  generalize prvGetWatcher observedList uriP serverP = target
  cases thresholdsClash attrP target.watcher.here.parameters with
  | error fault => split_ifs <;> rfl
  | ok clash =>
    cases target.watcher.here.parameters <;> simp only [ok_bind] <;> split_ifs <;> rfl

theorem observeRequestIn_all (contextP : Context) (serverP : Server) (message response : Packet)
    (outcome : Outcome) :
    observeRequestIn {} contextP uriP serverP message response outcome =
      (observeRequest contextP uriP serverP message response outcome).map
        fun (contextP, r, c) => (.intact contextP.observedList, r, c) := by
  unfold observeRequestIn observeRequest
  simp only [observeHandleRequestIn_all]
  generalize observeHandleRequest contextP.serverList contextP.observedList uriP serverP
    outcome.value outcome.time message
    (response.coapSetHeaderContentType outcome.responseFormat.2.toUInt32) = handled
  cases handled with
  | error fault => split_ifs <;> rfl
  | ok result => cases outcome.serialized <;> simp only [Except.map, ok_bind] <;> split_ifs <;> rfl

theorem attributesRequestIn_all (contextP : Context) (serverP : Server) (message response : Packet)
    (outcome : Outcome) (hquery : message.isOption .uriQuery) :
    attributesRequestIn {} contextP uriP serverP response outcome =
      (putRequest contextP uriP serverP message response outcome).map
        fun (contextP, r, c) => (.intact contextP.observedList, r, c) := by
  unfold attributesRequestIn putRequest
  rw [if_pos hquery]
  cases outcome.attributes with
  | none => rfl
  | some attr =>
    simp only [observeSetParametersIn_all]
    cases observeSetParameters contextP.observedList uriP serverP.ref attr outcome.checkReadable <;>
      rfl

/-- **With an allocator that does not fail it is `dm_handleRequest`.** -/
theorem dmHandleRequestIn_all (contextP : Context) (serverP : Server) (message response : Packet)
    (outcome : Outcome) :
    dmHandleRequestIn {} contextP uriP serverP message response outcome =
      (dmHandleRequest contextP uriP serverP message response outcome).map
        fun (contextP, r, c) => (.intact contextP.observedList, r, c) := by
  unfold dmHandleRequestIn
  by_cases hsecurity : uriP.objectId = lwm2mSecurityObjectId
  · rw [if_pos hsecurity, dmHandleRequest, if_pos hsecurity]
    rfl
  by_cases hserves : ¬ servesRequests serverP.status
  · rw [if_neg hsecurity, if_pos hserves, dmHandleRequest, if_neg hsecurity, if_pos hserves]
    rfl
  rw [if_neg hsecurity, if_neg hserves]
  by_cases hobserve : message.code = 1 ∧ message.isOption .observe
  · rw [if_pos hobserve, observeRequestIn_all, dmHandleRequest, if_neg hsecurity, if_neg hserves,
      if_pos hobserve.1, if_pos hobserve.2]
  rw [if_neg hobserve]
  by_cases hquery : message.code = 3 ∧ message.isOption .uriQuery
  · have h₁ : ¬ message.code = 1 := by simp [hquery.1]
    have h₂ : ¬ message.code = 2 := by simp [hquery.1]
    rw [if_pos hquery, attributesRequestIn_all uriP contextP serverP message response outcome
      hquery.2, dmHandleRequest, if_neg hsecurity, if_neg hserves, if_neg h₁, if_neg h₂,
      if_pos hquery.1]
  rw [if_neg hquery]
  cases dmHandleRequest contextP uriP serverP message response outcome <;> rfl

end

/-! ### What the requests leave -/

/-- The rule on the thresholds can always be checked. -/
theorem thresholdsClash_total (attrP : Attributes) (parameters : Option Attributes) :
    ∃ clash, thresholdsClash attrP parameters = .ok clash := by
  have hset (flag : UInt8) (hflag : attrFlagNumeric &&& flag = flag) (hne : flag ≠ 0)
      (hall : ((attrP.toSet ||| 0) &&& ~~~attrP.toClear) &&& attrFlagNumeric = attrFlagNumeric) :
      attrP.toSet &&& flag ≠ 0 := by
    intro hzero
    refine hne ?_
    calc flag = (((attrP.toSet ||| 0) &&& ~~~attrP.toClear) &&& attrFlagNumeric) &&& flag := by
          rw [hall, hflag]
      _ = (attrP.toSet &&& flag) &&& (~~~attrP.toClear &&& attrFlagNumeric) := by
          rw [UInt8.or_zero]
          ac_rfl
      _ = 0 := by rw [hzero, UInt8.zero_and]
  unfold thresholdsClash
  cases parameters with
  | some p =>
    simp only [thresholdInForce]
    split_ifs <;> exact ⟨_, rfl⟩
  | none =>
    by_cases hall : ((attrP.toSet ||| 0) &&& ~~~attrP.toClear) &&& attrFlagNumeric = attrFlagNumeric
    · have hgt := hset attrFlagGreaterThan (by decide) (by decide) hall
      have hlt := hset attrFlagLessThan (by decide) (by decide) hall
      have hstep := hset attrFlagStep (by decide) (by decide) hall
      simp only [thresholdInForce, if_pos hgt, if_pos hlt, if_pos hstep, Option.map_none,
        Option.getD_none, if_pos hall]
      exact ⟨_, rfl⟩
    · simp only [Option.map_none, Option.getD_none, if_neg hall]
      exact ⟨_, rfl⟩

variable {allocations : Allocations} {observedList : List Observed} {uriP : Uri}
  {serverP : ServerRef}

/-- `prv_getWatcher` fails before it has linked anything: the entry is missing and cannot be
allocated, or it is there without a watcher of the server and the watcher cannot be
allocated. -/
def GetWatcherFailsCleanly (allocations : Allocations) (observedList : List Observed) (uriP : Uri)
    (serverP : ServerRef) : Prop :=
  match prvFindObserved observedList uriP with
  | none => allocations.observed = false
  | some entry =>
    prvFindWatcher entry.here.watcherList serverP = none ∧ allocations.watcher = false

/-- **What `prv_getWatcher` leaves.**  It returns a watcher, and writing it leaves the list as it
was exactly when it was there and is written what it is; or it fails, and the list is as it was
exactly when it fails cleanly. -/
theorem prvGetWatcherIn_cases (allocations : Allocations) (observedList : List Observed)
    (uriP : Uri) (serverP : ServerRef) :
    (∃ target, prvGetWatcherIn allocations observedList uriP serverP = .ok target ∧
        ¬ GetWatcherFailsCleanly allocations observedList uriP serverP ∧
        (∀ w, existingWatcher observedList uriP serverP = some w → target.watcher.here = w) ∧
        ∀ w, target.set w = observedList ↔
          existingWatcher observedList uriP serverP = some w) ∨
      ∃ left, prvGetWatcherIn allocations observedList uriP serverP = .error left ∧
        existingWatcher observedList uriP serverP = none ∧
        (left = .intact observedList ↔
          GetWatcherFailsCleanly allocations observedList uriP serverP) := by
  unfold prvGetWatcherIn GetWatcherFailsCleanly existingWatcher
  cases hentry : prvFindObserved observedList uriP with
  | none =>
    simp only [Option.bind_none]
    by_cases hobserved : allocations.observed = true
    · rw [if_pos hobserved]
      by_cases hwatcher : allocations.watcher = true
      · rw [if_pos hwatcher]
        refine .inl ⟨_, rfl, by simp [hobserved], nofun, fun w => ?_⟩
        exact iff_of_false (Focus.new_set_ne _ _ _) nofun
      · rw [if_neg hwatcher]
        exact .inr ⟨_, rfl, trivial, by simp [hobserved]⟩
    · rw [if_neg hobserved]
      exact .inr ⟨_, rfl, trivial, by simp [hobserved]⟩
  | some entry =>
    have hlist := (focusFirst_eq_some_iff.mp hentry).1
    have hset (w : Focus Watcher) (x : Watcher) :
        (⟨entry, w⟩ : WatcherFocus).set x = observedList ↔ w.set x = entry.here.watcherList := by
      have hinj : (⟨entry.here.uri, w.set x⟩ : Observed) = entry.here ↔
          w.set x = entry.here.watcherList := by
        cases entry.here
        simp
      rw [← hinj, ← Focus.set_eq_list_iff, hlist]
      rfl
    simp only [Option.bind_some]
    cases hwatcher : prvFindWatcher entry.here.watcherList serverP with
    | some watcher =>
      have hwatchers := (focusFirst_eq_some_iff.mp hwatcher).1
      refine .inl ⟨_, rfl, fun h => ?_, fun w hw => Option.some.inj hw, fun w => ?_⟩
      · cases h.1
      · rw [hset, ← hwatchers, Focus.set_eq_list_iff, Option.map_some, Option.some.injEq]
        exact eq_comm
    | none =>
      by_cases hallocated : allocations.watcher = true
      · rw [if_pos hallocated]
        refine .inl ⟨_, rfl, by simp [hallocated], nofun, fun w => ?_⟩
        rw [hset]
        exact iff_of_false (Focus.new_set_ne _ _ _) nofun
      · rw [if_neg hallocated]
        exact .inr ⟨_, rfl, rfl, by simp [hallocated]⟩

/-! ### Observe -/

/-- The request is refused before `prv_getWatcher`: it is not served, the value cannot be
read or has no format that is accepted, the URI lacks the instance, or there is no token. -/
def ObserveRefusedEarly (uriP : Uri) (serverP : Server) (message : Packet) (outcome : Outcome) :
    Prop :=
  uriP.objectId = lwm2mSecurityObjectId ∨ ¬ servesRequests serverP.status ∨
    outcome.readData ≠ coap205Content ∨ outcome.responseFormat.1 ≠ coap205Content ∨
    (¬ uriP.isSetInstance ∧ uriP.isSetResource) ∨ message.token.length = 0

/-- The server has a watcher that is already what the request writes of it, before the
value of the resource turns out not to be decodable. -/
def WritesNothingNew (observedList : List Observed) (uriP : Uri) (serverP : Server)
    (message response : Packet) (outcome : Outcome) : Prop :=
  uriP.isSetResource ∧ outcome.value = .undecodable ∧
    ∃ w, existingWatcher observedList uriP serverP.ref = some w ∧
      w.started outcome.time message
        (response.coapSetHeaderContentType outcome.responseFormat.2.toUInt32) = w

/-- What `observe_handleRequest` leaves of the observed list. -/
theorem observeHandleRequestIn_intact_iff (allocations : Allocations) (serverList : List Server)
    (observedList : List Observed) (uriP : Uri) (serverP : Server) (value : DecodedValue) (time : ℤ)
    {message : Packet} (response : Packet) (hzero : message.observe = 0) :
    ∃ left response' code,
      observeHandleRequestIn allocations serverList observedList uriP serverP value time message
        response = .ok (left, response', code) ∧
      (left = .intact observedList ↔
        (¬ uriP.isSetInstance ∧ uriP.isSetResource) ∨ message.token.length = 0 ∨
          GetWatcherFailsCleanly allocations observedList uriP serverP.ref ∨
          uriP.isSetResource ∧ value = .undecodable ∧
            ∃ w, existingWatcher observedList uriP serverP.ref = some w ∧
              w.started time message response = w) := by
  unfold observeHandleRequestIn
  rw [if_pos hzero]
  by_cases hlevels : ¬ uriP.isSetInstance ∧ uriP.isSetResource
  · rw [if_pos hlevels]
    exact ⟨_, _, _, rfl, iff_of_true rfl (.inl hlevels)⟩
  by_cases htoken : message.token.length = 0
  · rw [if_neg hlevels, if_pos htoken]
    exact ⟨_, _, _, rfl, iff_of_true rfl (.inr (.inl htoken))⟩
  rw [if_neg hlevels, if_neg htoken]
  simp only [hlevels, htoken, false_or]
  rcases prvGetWatcherIn_cases allocations observedList uriP serverP.ref with
    ⟨target, hget, hclean, hhere, hset⟩ | ⟨left, hget, hnone, hleft⟩
  · rw [hget]
    dsimp only
    by_cases hundecodable : uriP.isSetResource ∧ value = .undecodable
    · rw [if_pos hundecodable]
      refine ⟨_, _, _, rfl, ?_⟩
      rw [ObservedList.intact.injEq, hset]
      simp only [hundecodable, hclean, false_or, true_and]
      constructor
      · intro hw
        have hstarted := hhere _ hw
        exact ⟨_, hw, by rw [← hstarted, ← hstarted]⟩
      · rintro ⟨w, hw, hstarted⟩
        rw [hhere w hw, hstarted]
        exact hw
    · -- the counter of the watcher moves
      rw [if_neg hundecodable]
      refine ⟨_, _, _, rfl, ?_⟩
      rw [ObservedList.intact.injEq, hset]
      refine iff_of_false (fun hw => ?_) ?_
      · have hcounter := congrArg Watcher.counter (hhere _ hw)
        have hstored {w : Watcher} (h : w.counter = target.watcher.here.counter) :
            target.watcher.here.counter ≠ w.counter + 1 := by
          rw [h]
          simp
        revert hcounter
        split
        · split_ifs <;> exact hstored rfl
        · exact hstored rfl
      · rintro (h | ⟨hset, hvalue, -⟩)
        · exact hclean h
        · exact hundecodable ⟨hset, hvalue⟩
  · rw [hget]
    refine ⟨_, _, _, rfl, hleft.trans ?_⟩
    simp [hnone]

/-- **Which Observe requests leave no trace.**  Every request with an Observe option of 0 is
answered, and one that is answered with an error leaves the observed list as it was if and only if
it is refused early, or `prv_getWatcher` fails cleanly, or it writes nothing new. -/
theorem dmHandleRequestIn_observe_iff (allocations : Allocations) (contextP : Context) (uriP : Uri)
    (serverP : Server) {message : Packet} (response : Packet) (outcome : Outcome)
    (hget : message.code = 1) (hobserve : message.isOption .observe) (hzero : message.observe = 0) :
    ∃ left response' code,
      dmHandleRequestIn allocations contextP uriP serverP message response outcome =
        .ok (left, response', code) ∧
      (code ≠ coap205Content → (left = .intact contextP.observedList ↔
        ObserveRefusedEarly uriP serverP message outcome ∨
          GetWatcherFailsCleanly allocations contextP.observedList uriP serverP.ref ∨
          WritesNothingNew contextP.observedList uriP serverP message response outcome)) := by
  have hearly {left : ObservedList} {code : Code} (hleft : left = .intact contextP.observedList)
      (h : ObserveRefusedEarly uriP serverP message outcome) :
      code ≠ coap205Content → (left = .intact contextP.observedList ↔
        ObserveRefusedEarly uriP serverP message outcome ∨
          GetWatcherFailsCleanly allocations contextP.observedList uriP serverP.ref ∨
          WritesNothingNew contextP.observedList uriP serverP message response outcome) :=
    fun _ => iff_of_true hleft (.inl h)
  unfold dmHandleRequestIn
  by_cases hsecurity : uriP.objectId = lwm2mSecurityObjectId
  · rw [if_pos hsecurity]
    exact ⟨_, _, _, rfl, hearly rfl (.inl hsecurity)⟩
  by_cases hserves : ¬ servesRequests serverP.status
  · rw [if_neg hsecurity, if_pos hserves]
    exact ⟨_, _, _, rfl, hearly rfl (.inr (.inl hserves))⟩
  rw [if_neg hsecurity, if_neg hserves, if_pos ⟨hget, hobserve⟩]
  unfold observeRequestIn
  by_cases hread : outcome.readData ≠ coap205Content
  · rw [if_pos hread]
    exact ⟨_, _, _, rfl, hearly rfl (.inr (.inr (.inl hread)))⟩
  rw [if_neg hread]
  dsimp only
  by_cases hformat : outcome.responseFormat.1 ≠ coap205Content
  · rw [if_pos hformat]
    exact ⟨_, _, _, rfl, hearly rfl (.inr (.inr (.inr (.inl hformat))))⟩
  rw [if_neg hformat]
  obtain ⟨left, response', code, hhandle, hleft⟩ := observeHandleRequestIn_intact_iff allocations
    contextP.serverList contextP.observedList uriP serverP outcome.value outcome.time
    (response.coapSetHeaderContentType outcome.responseFormat.2.toUInt32) hzero
  have hiff : left = .intact contextP.observedList ↔
      ObserveRefusedEarly uriP serverP message outcome ∨
        GetWatcherFailsCleanly allocations contextP.observedList uriP serverP.ref ∨
        WritesNothingNew contextP.observedList uriP serverP message response outcome := by
    rw [hleft]
    simp only [ObserveRefusedEarly, WritesNothingNew, hsecurity, hserves, hread, hformat, false_or,
      or_assoc]
  rw [hhandle, ok_bind]
  dsimp only
  by_cases hcode : code ≠ coap205Content
  · rw [if_pos hcode]
    exact ⟨_, _, _, rfl, fun _ => hiff⟩
  · rw [if_neg hcode]
    cases outcome.serialized with
    | none | some buffer => exact ⟨_, _, _, rfl, fun _ => hiff⟩

/-- A client with a server that is registered. -/
def servingClient : Context :=
  { state := .registering
    serverList := [⟨0, 0, 1, some 1, .registered, false, []⟩]
    allocated := 1 }

/-- The server. -/
def servingServer : Server := ⟨0, 0, 1, some 1, .registered, false, []⟩

/-- A string resource. -/
def textUri : Uri := { objectId := 3, instanceId := 0, resourceId := 0 }

/-- The value is read, and the content format that is accepted cannot hold it. -/
def tooLong : Outcome := { readable with serialized := none }

/-- What the request leaves of its watcher. -/
def leftWatcher : Watcher :=
  { server := 0
    active := true
    token := [1]
    format := 11543
    counter := 1 }

/-- **An observation stays behind.**  The value of the resource is too long for the buffer of
the JSON serializer: the answer is 5.00, and the observed list has an entry with an active
watcher. -/
theorem tooLong_leaves_watcher :
    clientRun 0 [] [.step registration] = .ok servingClient ∧
      ∃ left response', dmHandleRequestIn {} servingClient textUri servingServer
        (observeGet [[0x33], [0x30], [0x30]] [1]) {} tooLong =
          .ok (left, response', coap500InternalServerError) ∧
        servingClient.observedList = [] ∧
        left = .intact [⟨textUri, [leftWatcher]⟩] :=
  ⟨rfl, _, _, rfl, rfl, rfl⟩

/-- A request that is refused because it has no token. -/
theorem noToken_leaves_list : ∃ left response' code,
    dmHandleRequestIn {} servingClient textUri servingServer
      (observeGet [[0x33], [0x30], [0x30]] []) {} readable = .ok (left, response', code) ∧
    (code ≠ coap205Content → (left = .intact servingClient.observedList ↔
      ObserveRefusedEarly textUri servingServer (observeGet [[0x33], [0x30], [0x30]] []) readable ∨
        GetWatcherFailsCleanly {} servingClient.observedList textUri servingServer.ref ∨
        WritesNothingNew servingClient.observedList textUri servingServer
          (observeGet [[0x33], [0x30], [0x30]] []) {} readable)) :=
  dmHandleRequestIn_observe_iff {} servingClient textUri servingServer {} readable rfl (by decide)
    (by decide)

/-! ### Write-Attributes -/

/-- The request is refused before `prv_getWatcher`: it is not served, its attributes cannot be
parsed, the URI lacks the instance, or the attributes do not fit what it names. -/
def AttributesRefusedEarly (uriP : Uri) (serverP : Server) (outcome : Outcome) : Prop :=
  uriP.objectId = lwm2mSecurityObjectId ∨ ¬ servesRequests serverP.status ∨
    outcome.attributes = none ∨ (¬ uriP.isSetInstance ∧ uriP.isSetResource) ∨
    outcome.checkReadable ≠ coap205Content

/-- What `observe_setParameters` leaves of the observed list, when it fails. -/
theorem observeSetParametersIn_intact_iff (allocations : Allocations)
    (observedList : List Observed) (uriP : Uri) (serverP : ServerRef) (attrP : Attributes)
    (readable : Code) : ∃ left code,
      observeSetParametersIn allocations observedList uriP serverP attrP readable =
        .ok (left, code) ∧
      (code ≠ coap204Changed → (left = .intact observedList ↔
        (¬ uriP.isSetInstance ∧ uriP.isSetResource) ∨ readable ≠ coap205Content ∨
          GetWatcherFailsCleanly allocations observedList uriP serverP ∨
          (existingWatcher observedList uriP serverP).isSome)) := by
  unfold observeSetParametersIn
  by_cases hlevels : ¬ uriP.isSetInstance ∧ uriP.isSetResource
  · rw [if_pos hlevels]
    exact ⟨_, _, rfl, fun _ => iff_of_true rfl (.inl hlevels)⟩
  by_cases hreadable : readable ≠ coap205Content
  · rw [if_neg hlevels, if_pos hreadable]
    exact ⟨_, _, rfl, fun _ => iff_of_true rfl (.inr (.inl hreadable))⟩
  rw [if_neg hlevels, if_neg hreadable]
  simp only [hlevels, hreadable, false_or]
  rcases prvGetWatcherIn_cases allocations observedList uriP serverP with
    ⟨target, hget, hclean, hhere, hset⟩ | ⟨left, hget, hnone, hleft⟩
  · -- what fails behind the lookup writes nothing to the watcher
    have hlist : ObservedList.intact target.list = .intact observedList ↔
        GetWatcherFailsCleanly allocations observedList uriP serverP ∨
          (existingWatcher observedList uriP serverP).isSome := by
      rw [ObservedList.intact.injEq, WatcherFocus.list, hset, Option.isSome_iff_exists]
      simp only [hclean, false_or]
      constructor
      · exact fun hw => ⟨_, hw⟩
      · rintro ⟨w, hw⟩
        rw [hhere w hw]
        exact hw
    have hdone {left : ObservedList} : coap204Changed ≠ coap204Changed →
        (left = .intact observedList ↔
          GetWatcherFailsCleanly allocations observedList uriP serverP ∨
            (existingWatcher observedList uriP serverP).isSome) := fun h => absurd rfl h
    obtain ⟨clash, hclash⟩ := thresholdsClash_total attrP target.watcher.here.parameters
    rw [hget]
    dsimp only
    rw [hclash, ok_bind]
    by_cases hrule : clash = true
    · rw [if_pos hrule]
      exact ⟨_, _, rfl, fun _ => hlist⟩
    rw [if_neg hrule]
    cases target.watcher.here.parameters with
    | none =>
      split_ifs
      · exact ⟨_, _, rfl, hdone⟩
      · exact ⟨_, _, rfl, fun _ => hlist⟩
      · exact ⟨_, _, rfl, hdone⟩
    | some p => exact ⟨_, _, rfl, hdone⟩
  · rw [hget]
    refine ⟨_, _, rfl, fun _ => hleft.trans ?_⟩
    simp [hnone]

/-- **Which Write-Attributes requests leave no trace.**  Every request is answered, and one that
is answered with an error leaves the observed list as it was if and only if it is refused early, or
`prv_getWatcher` fails cleanly, or the server had a watcher there before. -/
theorem dmHandleRequestIn_attributes_iff (allocations : Allocations) (contextP : Context)
    (uriP : Uri) (serverP : Server) {message : Packet} (response : Packet) (outcome : Outcome)
    (hput : message.code = 3) (hquery : message.isOption .uriQuery) :
    ∃ left response' code,
      dmHandleRequestIn allocations contextP uriP serverP message response outcome =
        .ok (left, response', code) ∧
      (code ≠ coap204Changed → (left = .intact contextP.observedList ↔
        AttributesRefusedEarly uriP serverP outcome ∨
          GetWatcherFailsCleanly allocations contextP.observedList uriP serverP.ref ∨
          (existingWatcher contextP.observedList uriP serverP.ref).isSome)) := by
  have hearly {left : ObservedList} {code : Code} (hleft : left = .intact contextP.observedList)
      (h : AttributesRefusedEarly uriP serverP outcome) :
      code ≠ coap204Changed → (left = .intact contextP.observedList ↔
        AttributesRefusedEarly uriP serverP outcome ∨
          GetWatcherFailsCleanly allocations contextP.observedList uriP serverP.ref ∨
          (existingWatcher contextP.observedList uriP serverP.ref).isSome) :=
    fun _ => iff_of_true hleft (.inl h)
  have hnotget : ¬ (message.code = 1 ∧ message.isOption .observe = true) := by
    rw [hput]
    exact fun h => absurd h.1 (by decide)
  unfold dmHandleRequestIn
  by_cases hsecurity : uriP.objectId = lwm2mSecurityObjectId
  · rw [if_pos hsecurity]
    exact ⟨_, _, _, rfl, hearly rfl (.inl hsecurity)⟩
  by_cases hserves : ¬ servesRequests serverP.status
  · rw [if_neg hsecurity, if_pos hserves]
    exact ⟨_, _, _, rfl, hearly rfl (.inr (.inl hserves))⟩
  rw [if_neg hsecurity, if_neg hserves, if_neg hnotget, if_pos ⟨hput, hquery⟩]
  unfold attributesRequestIn
  cases hattributes : outcome.attributes with
  | none => exact ⟨_, _, _, rfl, hearly rfl (.inr (.inr (.inl hattributes)))⟩
  | some attr =>
    obtain ⟨left, code, hset, hleft⟩ := observeSetParametersIn_intact_iff allocations
      contextP.observedList uriP serverP.ref attr outcome.checkReadable
    dsimp only
    rw [hset, ok_bind]
    refine ⟨_, _, _, rfl, fun hcode => (hleft hcode).trans ?_⟩
    simp only [AttributesRefusedEarly, hsecurity, hserves, hattributes, reduceCtorEq, false_or,
      or_assoc]

/-- A PUT with a minimum period in its query. -/
def pminPut : Packet :=
  ({ code := 3, uriQuery := [[0x70, 0x6D, 0x69, 0x6E, 0x3D, 0x31, 0x30]] : Packet }).markOption
    .uriQuery

/-- The attributes of the query are read, and fit the resource. -/
def pminRead : Outcome :=
  { attributes := some ⟨attrFlagMinPeriod, 0, 10, 0, ⟨0⟩, ⟨0⟩, ⟨0⟩⟩
    checkReadable := coap205Content }

/-- **A watcher stays behind.**  The attributes of a new watcher cannot be allocated: the answer
is 5.00, and the observed list has an entry with a watcher. -/
theorem noParameters_leaves_watcher :
    clientRun 0 [] [.step registration] = .ok servingClient ∧
      ∃ left response', dmHandleRequestIn { parameters := false } servingClient textUri
        servingServer pminPut {} pminRead = .ok (left, response', coap500InternalServerError) ∧
        servingClient.observedList = [] ∧
        left = .intact [⟨textUri, [{ server := 0 }]⟩] :=
  ⟨rfl, _, _, rfl, rfl, rfl⟩

/-- The same request without memory for an entry. -/
theorem noEntry_leaves_list : ∃ left response' code,
    dmHandleRequestIn { observed := false } servingClient textUri servingServer pminPut {}
      pminRead = .ok (left, response', code) ∧
    (code ≠ coap204Changed → (left = .intact servingClient.observedList ↔
      AttributesRefusedEarly textUri servingServer pminRead ∨
        GetWatcherFailsCleanly { observed := false } servingClient.observedList textUri
          servingServer.ref ∨
        (existingWatcher servingClient.observedList textUri servingServer.ref).isSome)) :=
  dmHandleRequestIn_attributes_iff { observed := false } servingClient textUri servingServer {}
    pminRead rfl (by decide)

end Lwm2m.Core

/-
# Registrations in turn

What the answers do to the turns of `RegistrationOrder`: an accepted registration hands the turn
over, a failed sequence hands it over when its server does not block, and those that wait give up
with a blocking server that fails for good.  Every event is a step of the turns
(`InTurn.next`), so the registrations are taken in their order from their start on
(`registration_takesTurns`), in every run in which no server registers in a later sequence while
another one waits.
-/

import Lwm2m.Core.RegistrationOrder

namespace Lwm2m.Core

open Coap Code Library

/-! ### Answers -/

variable {now : Int64} {packet : Option Packet}

section

variable {serverObj : ServerObject} {contextP contextP' : RetryContext} {target : ℕ}
  {server server' : RetryServer}

/-- What the reply to a registration does to the turns. -/
structure Replied (serverObj : ServerObject) (server server' : RetryServer)
    (contextP contextP' : RetryContext) : Prop where
  step : TurnStep (orders serverObj contextP.serverList) (turns serverObj contextP.serverList)
    (turns serverObj contextP'.serverList)
  startsNext : registrationOrder serverObj server ≠ none ∧ server'.status = .registered ∨
    isBlocking serverObj server = false ∧ turnOf serverObj server = .holds ∧
      turnOf serverObj server' = .passed →
    StartsNext serverObj contextP.serverList contextP'.serverList
  giveUp : registrationOrder serverObj server ≠ none → isBlocking serverObj server = true →
    server'.status = .regFailed →
    if ordersBootstrap serverObj server then contextP'.state = .bootstrapRequired
    else AllGiveUp serverObj contextP.serverList contextP'.serverList
  state : contextP'.state ≠ .bootstrapRequired → contextP.state ≠ .bootstrapRequired
  held : contextP'.state ≠ .bootstrapRequired →
    (∀ i, turns serverObj contextP.serverList i = .waits →
      ∃ j, turns serverObj contextP.serverList j = .holds) →
    ∀ i, turns serverObj contextP'.serverList i = .waits →
      ∃ j, turns serverObj contextP'.serverList j = .holds

/-- The turns stay as they are. -/
theorem Replied.of_turns_eq
    (hturns : turns serverObj contextP'.serverList = turns serverObj contextP.serverList)
    (hstate : contextP'.state ≠ .bootstrapRequired → contextP.state ≠ .bootstrapRequired)
    (hserver : turnOf serverObj server' = turnOf serverObj server)
    (hregistered : registrationOrder serverObj server ≠ none → server'.status ≠ .registered)
    (hfailed : registrationOrder serverObj server ≠ none → isBlocking serverObj server = true →
      server'.status ≠ .regFailed) :
    Replied serverObj server server' contextP contextP' where
  step := .stay hturns
  startsNext := by
    rintro (⟨horder, hstatus⟩ | ⟨-, hholds, hpassed⟩)
    · exact absurd hstatus (hregistered horder)
    · rw [hserver, hholds] at hpassed
      cases hpassed
  giveUp horder hblocking hstatus := absurd hstatus (hfailed horder hblocking)
  state := hstate
  held _ hheld := by rwa [hturns]

/-- The turn is handed over. -/
theorem Replied.of_passes (h : Passes serverObj contextP.serverList contextP'.serverList)
    (hstate : contextP'.state ≠ .bootstrapRequired → contextP.state ≠ .bootstrapRequired)
    (hfailed : isBlocking serverObj server = true → server'.status ≠ .regFailed) :
    Replied serverObj server server' contextP contextP' where
  step := h.step
  startsNext _ := h.startsNext
  giveUp _ hblocking hstatus := absurd hstatus (hfailed hblocking)
  state := hstate
  held _ _ := h.held

/-- A server registers while none waits. -/
theorem Replied.of_none_waits (hget : contextP.serverList[target]? = some server)
    (hnone : ∀ i, turns serverObj contextP.serverList i ≠ .waits)
    (hserver : turnOf serverObj server = .holds ∨ turnOf serverObj server = .passed)
    (hturns : ∀ i, turns serverObj contextP'.serverList i =
      if i = target then .passed else turns serverObj contextP.serverList i)
    (hstate : contextP'.state ≠ .bootstrapRequired → contextP.state ≠ .bootstrapRequired)
    (hstatus : server'.status = .registered) :
    Replied serverObj server server' contextP contextP' := by
  have hothers (i : ℕ) (hi : i ≠ target) :
      turns serverObj contextP'.serverList i = turns serverObj contextP.serverList i :=
    (hturns i).trans (if_neg hi)
  have htarget : turns serverObj contextP'.serverList target = .passed :=
    (hturns target).trans (if_pos rfl)
  have hstep : TurnStep (orders serverObj contextP.serverList)
      (turns serverObj contextP.serverList) (turns serverObj contextP'.serverList) := by
    obtain hholds | hpassed := hserver
    · exact .drop target ((turns_eq hget).trans hholds) htarget hothers
    · refine .stay (funext fun i => ?_)
      by_cases hi : i = target
      · rw [hi, htarget, turns_eq hget, hpassed]
      · exact hothers i hi
  refine ⟨hstep, ?_, fun _ _ h => ?_, hstate, ?_⟩
  · rintro - ⟨other, hmem, hturn⟩
    obtain ⟨i, hother⟩ := List.mem_iff_getElem?.mp hmem
    exact absurd ((turns_eq hother).trans hturn) (hnone i)
  · rw [hstatus] at h
    cases h
  · exact fun _ _ i hi => absurd (hstep.waits_of_waits hi) (hnone i)

/-- The turn of a server whose registration is sent. -/
theorem turnOf_pending (hpending : server.status = .regPending)
    (horder : registrationOrder serverObj server ≠ none) :
    turnOf serverObj server = .holds ∨ turnOf serverObj server = .passed := by
  rw [turnOf_underWay (.inr hpending), if_neg horder]
  split_ifs
  · exact .inr rfl
  · exact .inl rfl

/-- In its first sequence, it holds the turn. -/
theorem turnOf_first (hpending : server.status = .regPending) (hcounted : Counted server)
    (horder : registrationOrder serverObj server ≠ none) (hsequence : server.sequence = 1) :
    turnOf serverObj server = .holds := by
  obtain ⟨hattempt, -, -, -⟩ := hcounted.pending hpending
  rw [turnOf_underWay (.inr hpending), if_neg horder, if_neg]
  rw [firstSequenceFailed_iff, hsequence]
  rintro ⟨-, h | ⟨-, h⟩⟩
  · exact absurd h (by decide)
  · omega

/-- The context in which the failure of a sequence goes on: the next server is started when one that
does not block fails in its first sequence. -/
def nextAfterFailure (serverObj : ServerObject) (now : Int64) (server : RetryServer)
    (contextP : RetryContext) : RetryContext :=
  if registrationOrder serverObj server ≠ none ∧ isBlocking serverObj server = false ∧
      server.sequence = 1 then
    (registrationStart (some serverObj) now false contextP).1
  else contextP

variable {settings : UInt8 × UInt64} {servers : List RetryServer}

/-- What the failure of a sequence does when the settings can be read. -/
theorem prvHandleRegistrationSequenceFailure_eq (now : Int64) (contextP : RetryContext)
    (hconfigured : Configured serverObj server.servObjInstID)
    (hsettings : prvGetRegistrationSequenceLimit serverObj server.servObjInstID = .ok settings) :
    prvHandleRegistrationSequenceFailure serverObj now target server contextP =
      let started := nextAfterFailure serverObj now server contextP
      let serverList := started.serverList.set target (sequenceRetried (some settings) now server)
      if server.sequence ≥ settings.1 then
        if ordersBootstrap serverObj server then ⟨.bootstrapRequired, serverList⟩
        else if registrationOrder serverObj server ≠ none ∧ isBlocking serverObj server = true then
          ⟨started.state, serverList.map (failOrdered serverObj)⟩
        else ⟨started.state, serverList⟩
      else ⟨started.state, serverList⟩ := by
  obtain ⟨order, horder⟩ := hconfigured.order
  obtain ⟨blocking, hblocking⟩ := hconfigured.blocking
  have hnext : startNextOrdered serverObj now server contextP = (order.isSome,
      order.isSome && blocking, if order ≠ none ∧ blocking = false ∧ server.sequence = 1 then
        (registrationStart (some serverObj) now false contextP).1 else contextP) := by
    rw [startNextOrdered, horder]
    cases order with
    | none => rfl
    | some order =>
      rw [hblocking]
      simp
  rw [prvHandleRegistrationSequenceFailure, hnext, hsettings, sequenceRetried, ordersBootstrap,
    nextAfterFailure, registrationOrder, horder, isBlocking, hblocking]
  obtain ⟨sequenceLimit, sequenceDelay⟩ := settings
  dsimp only
  by_cases hlimit : server.sequence ≥ sequenceLimit
  · rw [if_pos hlimit, if_pos hlimit, if_pos hlimit]
    cases prvGetBootstrapOnRegistrationFailure serverObj server.servObjInstID with
    | error code => rfl
    | ok bootstrap =>
      cases bootstrap with
      | true => rfl
      | false => cases order <;> cases blocking <;> simp
  · rw [if_neg hlimit, if_neg hlimit, if_neg hlimit]

/-- What the success of a registration does when the settings can be read. -/
theorem startNextRegistered_eq (now : Int64) (contextP : RetryContext)
    (hconfigured : Configured serverObj server.servObjInstID) :
    startNextRegistered (some serverObj) now server contextP =
      if registrationOrder serverObj server ≠ none ∧
        (server.sequence = 1 ∨ isBlocking serverObj server = false) then
        (registrationStart (some serverObj) now false contextP).1 else contextP := by
  obtain ⟨order, horder⟩ := hconfigured.order
  obtain ⟨blocking, hblocking⟩ := hconfigured.blocking
  rw [startNextRegistered, registrationOrder, horder, isBlocking, hblocking]
  cases order with
  | none => exact (if_neg fun h => h.1 rfl).symm
  | some order =>
    by_cases hsequence : server.sequence = 1
    · rw [if_pos hsequence, if_pos (by simp [hsequence])]
    · rw [if_neg hsequence]
      cases blocking with
      | false => rw [if_pos (by simp)]
      | true => rw [if_neg (by simp [hsequence])]

theorem configured_set (hconfigured : ∀ s ∈ servers, Configured serverObj s.servObjInstID)
    (hget : servers[target]? = some server) (hid : server'.servObjInstID = server.servObjInstID) :
    ∀ s ∈ servers.set target server', Configured serverObj s.servObjInstID := by
  intro s hs
  obtain hs | rfl := List.mem_or_eq_of_mem_set hs
  · exact hconfigured s hs
  · rw [hid]
    exact hconfigured server (List.mem_of_getElem? hget)

/-- The target of a reply is not touched when the next server is started. -/
theorem StartsFirst.set_eq {next : Option ℕ} {servers' : List RetryServer}
    (hget : servers[target]? = some server) (hidle : ¬ IsIdle server')
    (h : StartsFirst serverObj false next (servers.set target server') servers') :
    servers'.set target server' = servers' := by
  have hrel := h.passedBy.getElem? target
  rw [List.getElem?_set_self (List.getElem?_eq_some_iff.mp hget).1] at hrel
  generalize hget' : servers'[target]? = found at hrel
  cases hrel with
  | some hpassed =>
    rw [hpassed.eq_of_pending hidle] at hget'
    obtain ⟨hlt, rfl⟩ := List.getElem?_eq_some_iff.mp hget'
    exact List.set_getElem_self hlt

/-- **A registration that is accepted** hands the turn over, unless it comes too late. -/
theorem replied_accepted
    (hconfigured : ∀ s ∈ contextP.serverList, Configured serverObj s.servObjInstID)
    (hget : contextP.serverList[target]? = some server) (hpending : server.status = .regPending)
    (hcounted : Counted server) (now : Int64)
    (hinTime : registrationOrder serverObj server ≠ none → server.sequence = 1 ∨
      ∀ other ∈ contextP.serverList, turnOf serverObj other ≠ .waits) :
    Replied serverObj server (server.accepted now) contextP
      (startNextRegistered (some serverObj) now (server.accepted now)
        { contextP with serverList := contextP.serverList.set target (server.accepted now) }) := by
  have hid : (server.accepted now).servObjInstID = server.servObjInstID :=
    answered_servObjInstID now server
  have hsequence : (server.accepted now).sequence = server.sequence := answered_sequence now server
  have horder : registrationOrder serverObj (server.accepted now) =
    registrationOrder serverObj server := registrationOrder_congr hid
  have hserver := hconfigured server (List.mem_of_getElem? hget)
  have hidle : ¬ IsIdle (server.accepted now) := by rintro (h | h) <;> cases h
  rw [startNextRegistered_eq now _ (hid ▸ hserver), horder, hsequence]
  by_cases hordered : registrationOrder serverObj server = none
  · -- it has no order
    rw [if_neg fun h => h.1 hordered]
    have hapart : turnOf serverObj (server.accepted now) = turnOf serverObj server := by
      rw [turnOf_eq_apart_iff.mpr hordered, turnOf_eq_apart_iff, horder, hordered]
    exact .of_turns_eq (turns_set_of_eq hget hapart) id hapart (fun h => absurd hordered h)
      fun h => absurd hordered h
  · have hpassed : turnOf serverObj (server.accepted now) = .passed := by
      rw [turnOf, if_neg (horder ▸ hordered)]
      rfl
    have hnotWaits : turnOf serverObj (server.accepted now) ≠ .waits := by simp [hpassed]
    obtain ⟨hstate, next, hstart⟩ := registrationStart_startsFirst now false
      ⟨contextP.state, contextP.serverList.set target (server.accepted now)⟩
      (configured_set hconfigured hget hid)
    by_cases hfirst : server.sequence = 1
    · -- in its first sequence
      rw [if_pos ⟨hordered, .inl hfirst⟩]
      have hpasses := hstart.passes hget (turnOf_first hpending hcounted hordered hfirst)
        hnotWaits hpassed
      rw [hstart.set_eq hget hidle] at hpasses
      exact .of_passes hpasses (fun h => hstate ▸ h) fun _ h => by cases h
    · -- in a later one, when none waits
      have hnone : ∀ i, turns serverObj contextP.serverList i ≠ .waits := by
        intro i hi
        obtain ⟨other, hother, hturn⟩ := exists_of_turns hi (by decide)
        exact (hinTime hordered).elim hfirst fun h => h other (List.mem_of_getElem? hother) hturn
      have hturn := turnOf_pending hpending hordered
      have hset (i : ℕ) : turns serverObj (contextP.serverList.set target (server.accepted now)) i =
          if i = target then .passed else turns serverObj contextP.serverList i := by
        rw [turns_set hget, hpassed]
      split_ifs with hnext
      · refine .of_none_waits hget hnone hturn (fun i => ?_) (fun h => hstate ▸ h) rfl
        rw [hstart.unchanged hget ?_ hnotWaits hnone, hset]
        obtain h | h := hturn <;> rw [h] <;> decide
      · exact .of_none_waits hget hnone hturn hset id rfl

theorem isBlocking_congr (h : server'.servObjInstID = server.servObjInstID) :
    isBlocking serverObj server' = isBlocking serverObj server := by
  rw [isBlocking, h, isBlocking]

/-- Its first sequence has failed. -/
theorem turnOf_of_failed (hunderWay : IsUnderWay server)
    (horder : registrationOrder serverObj server ≠ none) (hfailed : FirstSequenceFailed server) :
    turnOf serverObj server =
      if isBlocking serverObj server = true then .holds else .passed := by
  rw [turnOf_underWay hunderWay, if_neg horder]
  by_cases hblocking : isBlocking serverObj server = true
  · rw [if_pos hblocking, if_neg (by simp [hblocking])]
  · rw [if_neg hblocking, if_pos ⟨Bool.not_eq_true _ ▸ hblocking, hfailed⟩]

/-- The failure of a sequence ends the first turn of its server, unless it blocks and has another
sequence. -/
theorem turnOf_sequenceRetried (settings : UInt8 × UInt64) (now : Int64)
    (hcounted : 0 < server.sequence.toNat)
    (horder : registrationOrder serverObj server ≠ none) :
    turnOf serverObj (sequenceRetried (some settings) now server) =
      if isBlocking serverObj server = true ∧ server.sequence < settings.1 then .holds
      else .passed := by
  obtain ⟨sequenceLimit, sequenceDelay⟩ := settings
  rw [sequenceRetried]
  by_cases hlimit : server.sequence ≥ sequenceLimit
  · rw [if_pos hlimit, if_neg fun h => UInt8.not_lt.mpr hlimit h.2, turnOf]
    exact if_neg horder
  · have hmore : server.sequence < sequenceLimit := UInt8.not_le.mp hlimit
    rw [if_neg hlimit]
    refine (turnOf_of_failed (.inl rfl) ?_ ?_).trans ?_
    · exact horder
    · rw [firstSequenceFailed_iff]
      have hnone : (0 : UInt8).toNat = 0 := rfl
      dsimp only
      omega
    · show (if isBlocking serverObj server = true then Turn.holds else .passed) = _
      simp only [hmore, and_true]

theorem sequenceRetried_status (settings : UInt8 × UInt64) (now : Int64) :
    (sequenceRetried (some settings) now server).status =
      if server.sequence ≥ settings.1 then .regFailed else .regHoldOff := by
  obtain ⟨sequenceLimit, sequenceDelay⟩ := settings
  dsimp only [sequenceRetried]
  split_ifs <;> rfl

theorem sequenceRetried_servObjInstID (settings : Option (UInt8 × UInt64)) (now : Int64) :
    (sequenceRetried settings now server).servObjInstID = server.servObjInstID := by
  cases settings with
  | none => rfl
  | some settings =>
    dsimp only [sequenceRetried]
    split_ifs <;> rfl

/-- What is known of a server whose sequence has failed. -/
structure SequenceRetried (serverObj : ServerObject) (sequenceLimit : UInt8)
    (server retried : RetryServer) : Prop where
  servObjInstID : retried.servObjInstID = server.servObjInstID
  status : retried.status = if server.sequence ≥ sequenceLimit then .regFailed else .regHoldOff
  turn : registrationOrder serverObj server ≠ none → turnOf serverObj retried =
    if isBlocking serverObj server = true ∧ server.sequence < sequenceLimit then .holds else .passed

variable {sequenceLimit : UInt8} {retried : RetryServer}

theorem SequenceRetried.not_registered
    (h : SequenceRetried serverObj sequenceLimit server retried) :
    retried.status ≠ .registered := by
  rw [h.status]
  split_ifs <;> nofun

theorem sequenceRetried_answered (serverObj : ServerObject) (settings : UInt8 × UInt64)
    (now : Int64) (hpending : server.status = .regPending) (hcounted : Counted server) :
    SequenceRetried serverObj settings.1 server
      (sequenceRetried (some settings) now (server.answered now)) := by
  have hid : (server.answered now).servObjInstID = server.servObjInstID :=
    answered_servObjInstID now server
  obtain ⟨-, -, hsequence, -⟩ := hcounted.pending hpending
  refine ⟨(sequenceRetried_servObjInstID _ _).trans hid, ?_, fun horder => ?_⟩
  · rw [sequenceRetried_status, answered_sequence]
  · rw [turnOf_sequenceRetried settings now (by rwa [answered_sequence])
      (by rwa [registrationOrder_congr hid]), isBlocking_congr hid, answered_sequence]

/-- The servers that wait fail with a blocking one. -/
theorem failOrdered_status
    (hconfigured : ∀ s ∈ contextP.serverList, Configured serverObj s.servObjInstID)
    {other : RetryServer} (hmem : other ∈ contextP.serverList)
    (hwaits : turnOf serverObj other = .waits) :
    (failOrdered serverObj other).status = .regFailed := by
  obtain ⟨horder, hstatus⟩ := turnOf_eq_waits_iff.mp hwaits
  obtain ⟨order, hread⟩ := (hconfigured other hmem).order
  rw [registrationOrder, hread] at horder
  obtain ⟨order, rfl⟩ := Option.ne_none_iff_exists'.mp horder
  rw [failOrdered, if_pos hstatus, hread]

/-- **A sequence of a blocking server that fails** keeps the turn, and the last one takes along
those that wait. -/
theorem replied_blocking
    (hconfigured : ∀ s ∈ contextP.serverList, Configured serverObj s.servObjInstID)
    (hget : contextP.serverList[target]? = some server) (hpending : server.status = .regPending)
    (hordered : registrationOrder serverObj server ≠ none)
    (hblocks : isBlocking serverObj server = true)
    (hretried : SequenceRetried serverObj sequenceLimit server retried) :
    Replied serverObj server retried contextP
      (if server.sequence ≥ sequenceLimit then
        if ordersBootstrap serverObj server then
          ⟨.bootstrapRequired, contextP.serverList.set target retried⟩
        else ⟨contextP.state, (contextP.serverList.set target retried).map (failOrdered serverObj)⟩
      else ⟨contextP.state, contextP.serverList.set target retried⟩) := by
  have hholds : turnOf serverObj server = .holds := by
    rw [turnOf_underWay (.inr hpending), if_neg hordered, if_neg (by simp [hblocks])]
  have hquiet : ¬ (registrationOrder serverObj server ≠ none ∧ retried.status = .registered ∨
      isBlocking serverObj server = false ∧ turnOf serverObj server = .holds ∧
        turnOf serverObj retried = .passed) := by
    rintro (⟨-, h⟩ | ⟨h, -⟩)
    · exact hretried.not_registered h
    · exact nomatch h.symm.trans hblocks
  have hstatus := hretried.status
  have hturn := hretried.turn hordered
  by_cases hlimit : server.sequence ≥ sequenceLimit
  · rw [if_neg fun h => UInt8.not_lt.mpr hlimit h.2] at hturn
    rw [if_pos hlimit]
    have hset (i : ℕ) : turns serverObj (contextP.serverList.set target retried) i =
        if i = target then .passed else turns serverObj contextP.serverList i := by
      rw [turns_set hget, hturn]
    by_cases hbootstraps : ordersBootstrap serverObj server = true
    · rw [if_pos hbootstraps]
      refine ⟨.drop target ((turns_eq hget).trans hholds) ((hset target).trans (if_pos rfl))
        fun i hi => (hset i).trans (if_neg hi), fun h => absurd h hquiet, fun _ _ _ => ?_, ?_, ?_⟩
      · rw [if_pos hbootstraps]
      · exact fun h => absurd rfl h
      · exact fun h => absurd rfl h
    · rw [if_neg hbootstraps]
      have hfailed (i : ℕ) := turns_failOrdered (i := i)
        (configured_set hconfigured hget hretried.servObjInstID)
      refine ⟨.giveUp target ((turns_eq hget).trans hholds) ?_ fun i hi => ?_,
        fun h => absurd h hquiet, fun _ _ _ => ?_, id, fun _ _ i hi => ?_⟩
      · rw [hfailed, hset, if_pos rfl]
        rfl
      · rw [hfailed, hset, if_neg hi]
      · rw [if_neg hbootstraps]
        rintro other other' ⟨i, hother, hother'⟩ hwaits
        have hi : i ≠ target := by
          rintro rfl
          obtain rfl := Option.some.inj (hget.symm.trans hother)
          exact nomatch hholds.symm.trans hwaits
        rw [List.getElem?_map, List.getElem?_set_ne hi.symm, hother, Option.map_some] at hother'
        obtain rfl := Option.some.inj hother'
        exact failOrdered_status hconfigured (List.mem_of_getElem? hother) hwaits
      · rw [hfailed] at hi
        split_ifs at hi with h
        exact absurd hi h
  · rw [if_pos ⟨hblocks, UInt8.not_le.mp hlimit⟩, ← hholds] at hturn
    rw [if_neg hlimit] at hstatus ⊢
    exact .of_turns_eq (turns_set_of_eq hget hturn) id hturn (fun _ => hretried.not_registered)
      fun _ _ => by simp [hstatus]

/-- **A sequence of another server that fails** hands the turn over when it is the first one. -/
theorem replied_notBlocking
    (hconfigured : ∀ s ∈ contextP.serverList, Configured serverObj s.servObjInstID)
    (hget : contextP.serverList[target]? = some server) (hpending : server.status = .regPending)
    (hcounted : Counted server) (now : Int64)
    (hblocks : registrationOrder serverObj server ≠ none → isBlocking serverObj server = false)
    (hretried : SequenceRetried serverObj sequenceLimit server retried) {state : ClientState}
    (hstate : state ≠ .bootstrapRequired → contextP.state ≠ .bootstrapRequired) :
    Replied serverObj server retried contextP
      ⟨state, (nextAfterFailure serverObj now (server.answered now) { contextP with
        serverList := contextP.serverList.set target (server.answered now) }).serverList.set target
          retried⟩ := by
  have hid : (server.answered now).servObjInstID = server.servObjInstID :=
    answered_servObjInstID now server
  rw [nextAfterFailure, registrationOrder_congr hid, isBlocking_congr hid, answered_sequence]
  by_cases hfirst : registrationOrder serverObj server ≠ none ∧
      isBlocking serverObj server = false ∧ server.sequence = 1
  · obtain ⟨hordered, hblocks, hone⟩ := id hfirst
    rw [if_pos hfirst]
    have hpassed : turnOf serverObj retried = .passed :=
      (hretried.turn hordered).trans (if_neg (by simp [hblocks]))
    obtain ⟨-, next, hstart⟩ := registrationStart_startsFirst now false
      ⟨contextP.state, contextP.serverList.set target (server.answered now)⟩
      (configured_set hconfigured hget hid)
    have hholds := turnOf_first hpending hcounted hordered hone
    have hnotWaits : turnOf serverObj (server.answered now) ≠ .waits := by
      rw [turnOf_answered now hpending, hholds]
      nofun
    exact .of_passes (hstart.passes hget hholds hnotWaits hpassed) hstate (by simp [hblocks])
  · rw [if_neg hfirst]
    rw [List.set_set]
    have hturn : turnOf serverObj retried = turnOf serverObj server := by
      by_cases hordered : registrationOrder serverObj server = none
      · rw [turnOf_eq_apart_iff.mpr hordered, turnOf_eq_apart_iff,
          registrationOrder_congr hretried.servObjInstID, hordered]
      · have hlater : server.sequence.toNat ≠ 1 := fun h =>
          hfirst ⟨hordered, hblocks hordered, UInt8.toNat_inj.mp h⟩
        obtain ⟨-, -, hsequence, -⟩ := hcounted.pending hpending
        rw [hretried.turn hordered, if_neg (by simp [hblocks hordered]),
          turnOf_of_failed (.inr hpending) hordered, if_neg (by simp [hblocks hordered])]
        rw [firstSequenceFailed_iff]
        omega
    exact .of_turns_eq (turns_set_of_eq hget hturn) hstate hturn
      (fun _ => hretried.not_registered)
      fun hordered h => nomatch (hblocks hordered).symm.trans h

/-- **A sequence that fails.** -/
theorem replied_sequenceFailed
    (hconfigured : ∀ s ∈ contextP.serverList, Configured serverObj s.servObjInstID)
    (hget : contextP.serverList[target]? = some server) (hpending : server.status = .regPending)
    (hcounted : Counted server) (now : Int64)
    (hsettings : prvGetRegistrationSequenceLimit serverObj server.servObjInstID = .ok settings) :
    Replied serverObj server (sequenceRetried (some settings) now (server.answered now)) contextP
      (prvHandleRegistrationSequenceFailure serverObj now target (server.answered now)
        { contextP with serverList := contextP.serverList.set target (server.answered now) }) := by
  have hid : (server.answered now).servObjInstID = server.servObjInstID :=
    answered_servObjInstID now server
  have hserver := hconfigured server (List.mem_of_getElem? hget)
  have hbootstrap : ordersBootstrap serverObj (server.answered now) =
      ordersBootstrap serverObj server := by
    rw [ordersBootstrap, hid, ordersBootstrap]
  have hretried := sequenceRetried_answered serverObj settings now hpending hcounted
  have hstate : (nextAfterFailure serverObj now (server.answered now) { contextP with
      serverList := contextP.serverList.set target (server.answered now) }).state =
        contextP.state := by
    rw [nextAfterFailure]
    split_ifs
    · exact (registrationStart_startsFirst now false
        ⟨contextP.state, contextP.serverList.set target (server.answered now)⟩
        (configured_set hconfigured hget hid)).1
    · rfl
  rw [prvHandleRegistrationSequenceFailure_eq now _ (hid ▸ hserver) (hid ▸ hsettings)]
  dsimp only
  rw [registrationOrder_congr hid, isBlocking_congr hid, hbootstrap, answered_sequence, hstate]
  by_cases hboth : registrationOrder serverObj server ≠ none ∧ isBlocking serverObj server = true
  · obtain ⟨hordered, hblocks⟩ := id hboth
    have hnotFirst : ¬ (registrationOrder serverObj (server.answered now) ≠ none ∧
        isBlocking serverObj (server.answered now) = false ∧
          (server.answered now).sequence = 1) := by
      rw [isBlocking_congr hid, hblocks]
      exact fun h => nomatch h.2.1
    rw [if_pos hboth, nextAfterFailure, if_neg hnotFirst]
    rw [List.set_set]
    exact replied_blocking hconfigured hget hpending hordered hblocks hretried
  · have hblocks (h : registrationOrder serverObj server ≠ none) :
        isBlocking serverObj server = false := Bool.not_eq_true _ ▸ fun h' => hboth ⟨h, h'⟩
    rw [if_neg hboth]
    split_ifs
    · exact replied_notBlocking hconfigured hget hpending hcounted now hblocks hretried
        fun h => absurd rfl h
    · exact replied_notBlocking hconfigured hget hpending hcounted now hblocks hretried id
    · exact replied_notBlocking hconfigured hget hpending hcounted now hblocks hretried id

/-- **The reply to a registration** is a step of the turns, unless it comes too late. -/
theorem reply_replied
    (hconfigured : ∀ s ∈ contextP.serverList, Configured serverObj s.servObjInstID)
    (hget : contextP.serverList[target]? = some server) (hpending : server.status = .regPending)
    (hcounted : Counted server)
    (hinTime : RegistersInTime serverObj contextP (.reply now target packet))
    (hreply : prvHandleRegistrationReply (some serverObj) now target packet contextP =
      some contextP') (hget' : contextP'.serverList[target]? = some server') :
    Replied serverObj server server' contextP contextP' := by
  have hid : (server.answered now).servObjInstID = server.servObjInstID :=
    answered_servObjInstID now server
  have hserver := hconfigured server (List.mem_of_getElem? hget)
  have hturn : turnOf serverObj (server.answered now) = turnOf serverObj server :=
    turnOf_answered now hpending
  have hbecomes : Becomes (some serverObj) target server server' (.reply now target packet) := by
    have hrel := (prvHandleRegistrationReply_becomes (some serverObj) contextP now target packet).1
      contextP' hreply target
    rw [hget, hget'] at hrel
    cases hrel with
    | some h => exact h
  rw [prvHandleRegistrationReply_pending _ now packet hget hpending] at hreply
  rw [Becomes, if_pos ⟨rfl, hpending⟩] at hbecomes
  by_cases hmore : asksForMore packet = true
  · rw [if_pos hmore] at hreply hbecomes
    obtain rfl := Option.some.inj hreply
    rw [hbecomes]
    exact .of_turns_eq (turns_set_of_eq hget hturn) id hturn (fun _ => by simp [hpending])
      fun _ _ => by simp [hpending]
  rw [if_neg hmore] at hreply hbecomes
  by_cases hcreated : packet.map Packet.code = some coap201Created
  · rw [if_pos hcreated] at hreply hbecomes
    obtain rfl := Option.some.inj hreply
    rw [hbecomes]
    exact replied_accepted hconfigured hget hpending hcounted now
      (hinTime hcreated server hget hpending)
  rw [if_neg hcreated] at hreply hbecomes
  obtain ⟨⟨attemptLimit, attemptDelay⟩, hattempts⟩ := hserver.attempts
  obtain ⟨settings, hsequences⟩ := hserver.sequences
  rw [prvHandleRegistrationAttemptFailure, hid, hattempts] at hreply
  rw [retried, attemptSettings, sequenceSettings, hid, Option.bind_some, Option.bind_some,
    hattempts, hsequences] at hbecomes
  dsimp only [Except.toOption, Option.bind_some] at hreply hbecomes
  by_cases hlimit : (server.answered now).attempt ≥ attemptLimit
  · -- the last attempt of the sequence
    rw [if_pos hlimit] at hreply hbecomes
    obtain rfl := Option.some.inj hreply
    obtain rfl := Option.some.inj hbecomes
    exact replied_sequenceFailed hconfigured hget hpending hcounted now hsequences
  · -- another attempt follows
    rw [if_neg hlimit] at hreply hbecomes
    obtain ⟨factor, hfactor, hserver'⟩ := Option.map_eq_some_iff.mp hbecomes
    rw [hfactor, Option.map_some, hserver'] at hreply
    obtain rfl := Option.some.inj hreply
    have hstatus : server'.status = .regHoldOff := by rw [← hserver']
    have hturn' : turnOf serverObj server' = turnOf serverObj server := by
      refine turnOf_congr (.inr hpending) (.inl hstatus) (by rw [← hserver']) ?_
      rw [← hserver', FirstSequenceFailed, answered_sequence, answered_attempt]
      exact .rfl
    refine .of_turns_eq ?_ id hturn' (fun _ => by simp [hstatus]) fun _ _ => by simp [hstatus]
    rw [List.set_set]
    exact turns_set_of_eq hget hturn'

end

/-! ### Events -/

variable {server server' : RetryServer}

section

variable {serverObj : ServerObject} {contextP contextP' : RetryContext} {event : RetryEvent}

/-- What holds of the registrations between two events. -/
structure InTurn (serverObj : ServerObject) (contextP : RetryContext) : Prop where
  configured : ∀ server ∈ contextP.serverList, Configured serverObj server.servObjInstID
  counted : ∀ server ∈ contextP.serverList, Counted server
  orderly : Orderly (orders serverObj contextP.serverList) (turns serverObj contextP.serverList)
  held : contextP.state ≠ .bootstrapRequired →
    ∀ i, turns serverObj contextP.serverList i = .waits →
      ∃ j, turns serverObj contextP.serverList j = .holds

/-- Nobody is left behind. -/
theorem InTurn.noneStranded (h : InTurn serverObj contextP) : NoneStranded serverObj contextP := by
  intro hstate server hmem hwaits
  obtain ⟨i, hget⟩ := List.mem_iff_getElem?.mp hmem
  obtain ⟨j, hj⟩ := h.held hstate i ((turns_eq hget).trans hwaits)
  obtain ⟨holder, hholder, hholds⟩ := exists_of_turns hj nofun
  refine ⟨holder, List.mem_of_getElem? hholder, hholds, ?_⟩
  rintro ⟨order, order', horder, horder', hlt⟩
  have hle := h.orderly.ahead j i hj ((turns_eq hget).trans hwaits)
  rw [orders_eq hholder horder', orders_eq hget horder] at hle
  exact UInt64.not_lt.mpr hle hlt

variable {index : ℕ}

/-- A server stays the same server. -/
theorem Becomes.servObjInstID {serverObj : Option ServerObject}
    (h : Becomes serverObj index server server' event) :
    server'.servObjInstID = server.servObjInstID := by
  cases event with
  | start now restartFailed => exact PassedBy.servObjInstID h
  | step now timeout outcomes =>
    rw [Becomes] at h
    split_ifs at h
    · rw [h]
      by_cases hsent : (outcomes index).IsSent server
      · rw [prvRegister_sent hsent]
      · obtain ⟨sessionH, hregister⟩ := prvRegister_not_sent hsent
        rw [hregister]
    · exact h.servObjInstID
  | reply now target packet =>
    have hid : (server.answered now).servObjInstID = server.servObjInstID :=
      answered_servObjInstID now server
    rw [Becomes] at h
    split_ifs at h
    · rw [h, hid]
    · rw [h]
      exact hid
    · rw [retried] at h
      split at h
      · rw [← Option.some.inj h]
        exact hid
      · split_ifs at h
        · rw [← Option.some.inj h]
          exact (sequenceRetried_servObjInstID _ _).trans hid
        · obtain ⟨factor, -, hserver'⟩ := Option.map_eq_some_iff.mp h
          rw [← hserver']
          exact hid
    · exact h.servObjInstID

/-- What becomes of the servers of a place. -/
theorem SamePlace.becomes {serverObj : Option ServerObject}
    (hnext : contextP.next serverObj event = some contextP')
    (h : SamePlace contextP.serverList contextP'.serverList server server') :
    ∃ index, contextP.serverList[index]? = some server ∧
      contextP'.serverList[index]? = some server' ∧
      Becomes serverObj index server server' event := by
  obtain ⟨index, hget, hget'⟩ := h
  have hrel := next_becomes hnext index
  rw [hget, hget'] at hrel
  cases hrel with
  | some hbecomes => exact ⟨index, hget, hget', hbecomes⟩

/-- Each server has been one before the event. -/
theorem exists_samePlace {serverObj : Option ServerObject}
    (hnext : contextP.next serverObj event = some contextP')
    (hmem : server' ∈ contextP'.serverList) :
    ∃ server ∈ contextP.serverList, ∃ index, Becomes serverObj index server server' event := by
  obtain ⟨index, hget'⟩ := List.mem_iff_getElem?.mp hmem
  have hrel := next_becomes hnext index
  rw [hget'] at hrel
  generalize hget : contextP.serverList[index]? = found at hrel
  cases hrel with
  | some hbecomes => exact ⟨_, List.mem_of_getElem? hget, index, hbecomes⟩

theorem orders_next (hnext : contextP.next (some serverObj) event = some contextP') :
    orders serverObj contextP'.serverList = orders serverObj contextP.serverList := by
  funext i
  have hrel := next_becomes hnext i
  rw [orders, orders]
  generalize contextP.serverList[i]? = server at hrel ⊢
  generalize contextP'.serverList[i]? = server' at hrel ⊢
  cases hrel with
  | none => rfl
  | some hbecomes =>
    rw [Option.bind_some, Option.bind_some, registrationOrder_congr hbecomes.servObjInstID]

/-- A server without a registration under way is passed by. -/
theorem Becomes.passedBy_of_idle {serverObj : Option ServerObject}
    (h : Becomes serverObj index server server' event) (hidle : IsIdle server) :
    PassedBy server server' := by
  cases event with
  | start now restartFailed => exact h
  | step now timeout outcomes =>
    rw [Becomes, if_neg] at h
    · exact h
    · rintro ⟨hholdOff, -⟩
      rw [IsIdle, hholdOff] at hidle
      obtain h | h := hidle <;> cases h
  | reply now target packet =>
    rw [Becomes, if_neg] at h
    · exact h
    · rintro ⟨-, hpending⟩
      rw [IsIdle, hpending] at hidle
      obtain h | h := hidle <;> cases h

/-- A server whose registration is sent waits for the answer. -/
theorem Becomes.eq_of_pending {serverObj : Option ServerObject}
    (h : Becomes serverObj index server server' event) (hpending : server.status = .regPending)
    (hother : ∀ now packet, event ≠ .reply now index packet) : server' = server := by
  have hidle : ¬ IsIdle server := by
    rw [IsIdle, hpending]
    simp
  cases event with
  | start now restartFailed => exact PassedBy.eq_of_pending h hidle
  | step now timeout outcomes =>
    rw [Becomes, if_neg] at h
    · exact h.eq_of_pending hidle
    · rintro ⟨hholdOff, -⟩
      cases hholdOff.symm.trans hpending
  | reply now target packet =>
    rw [Becomes, if_neg] at h
    · exact h.eq_of_pending hidle
    · rintro ⟨rfl, -⟩
      exact hother now packet rfl

end

/-! ### Runs -/

section

variable {serverObj : ServerObject} {contextP contextP' : RetryContext} {event : RetryEvent}

/-- The registrations are tried, not started. -/
def RetryEvent.IsTry : RetryEvent → Prop
  | .start _ _ => False
  | .step _ _ _ | .reply _ _ _ => True

/-- A server whose registration is started holds the turn. -/
theorem PassedBy.holds (h : PassedBy server server') (hidle : IsIdle server)
    (hstatus : server'.status = .regHoldOff) (horder : registrationOrder serverObj server' ≠ none) :
    turnOf serverObj server' = .holds := by
  cases h with
  | same =>
    rw [IsIdle, hstatus] at hidle
    obtain h | h := hidle <;> cases h
  | idle _ hidle' =>
    rw [IsIdle, hstatus] at hidle'
    obtain h | h := hidle' <;> cases h
  | started _ _ _ hsequence => exact turnOf_started horder hstatus hsequence

/-- Whoever is started finds that those before it have had their turn. -/
theorem startsInOrder_of_step
    (horderly : Orderly (orders serverObj contextP.serverList)
      (turns serverObj contextP.serverList))
    (hnext : contextP.next (some serverObj) event = some contextP')
    (hstep : TurnStep (orders serverObj contextP.serverList) (turns serverObj contextP.serverList)
      (turns serverObj contextP'.serverList)) :
    StartsInOrder serverObj contextP.serverList contextP'.serverList := by
  rintro server server' hplace hidle hstatus lower hmem ⟨order, order', horder, horder', hlt⟩
  obtain ⟨i, hget, hget', hbecomes⟩ := hplace.becomes hnext
  obtain ⟨j, hlower⟩ := List.mem_iff_getElem?.mp hmem
  have hpassedBy := hbecomes.passedBy_of_idle hidle
  have hholds : turnOf serverObj server' = .holds :=
    hpassedBy.holds hidle hstatus (by simp [horder'])
  have hwaits : turns serverObj contextP.serverList i = .waits := by
    obtain heq | ⟨hisNext, -⟩ := hstep.holds_of_holds horderly ((turns_eq hget').trans hholds)
    · -- the turns are as they were, but the server was idle
      have hturn := congrFun heq i
      rw [turns_eq hget', hholds, turns_eq hget, turnOf] at hturn
      rw [registrationOrder_congr hpassedBy.servObjInstID] at horder'
      rw [if_neg (by simp [horder'])] at hturn
      obtain h | h := hidle <;> rw [h] at hturn <;> cases hturn
    · exact hisNext.waits
  have horders := orders_next hnext
  have hturn := horderly.passed_of_lt (k := j) hstep hwaits ((turns_eq hget').trans hholds)
    (by rwa [← horders, orders_eq hlower horder, orders_eq hget' horder']) ?_
  · rwa [turns_eq hlower] at hturn
  · rw [turns_eq hlower, ne_eq, turnOf_eq_apart_iff, horder]
    exact Option.some_ne_none order

/-- An event that leaves the turns as they are. -/
theorem takesTurns_of_eq (hnext : contextP.next (some serverObj) event = some contextP')
    (hturns : turns serverObj contextP'.serverList = turns serverObj contextP.serverList)
    (hevent : ∀ now target packet, event = .reply now target packet →
      ∀ server, contextP.serverList[target]? = some server → server.status ≠ .regPending)
    (h : InTurn serverObj contextP) (h' : InTurn serverObj contextP') :
    TakesTurns serverObj contextP contextP' := by
  have hpending {server server' : RetryServer}
      (hplace : SamePlace contextP.serverList contextP'.serverList server server')
      (hpending : server.status = .regPending) : server' = server := by
    obtain ⟨i, hget, -, hbecomes⟩ := hplace.becomes hnext
    exact hbecomes.eq_of_pending hpending fun now packet heq =>
      hevent now i packet heq server hget hpending
  refine ⟨startsInOrder_of_step h.orderly hnext (.stay hturns),
    fun server server' hplace _ hstatus hregistered => ?_,
    fun server server' hplace _ hholds hpassed => ?_,
    fun server server' hplace _ _ hstatus hfailed => ?_, h'.noneStranded⟩
  · rw [hpending hplace hstatus, hstatus] at hregistered
    cases hregistered
  · obtain ⟨i, hget, hget'⟩ := hplace
    have hturn := congrFun hturns i
    rw [turns_eq hget, turns_eq hget', hholds, hpassed] at hturn
    cases hturn
  · rw [hpending hplace hstatus, hstatus] at hfailed
    cases hfailed

/-- The turn is held by a server with a registration under way. -/
theorem isUnderWay_of_holds (h : turnOf serverObj server = .holds) :
    IsUnderWay server := by
  by_cases horder : registrationOrder serverObj server = none
  · rw [turnOf_eq_apart_iff.mpr horder] at h
    cases h
  · rw [turnOf, if_neg horder] at h
    cases hstatus : server.status with
    | regHoldOff => exact .inl hstatus
    | regPending => exact .inr hstatus
    | _ =>
      rw [hstatus] at h
      cases h

theorem IsUnderWay.not_isIdle (h : IsUnderWay server) :
    ¬ IsIdle server := by
  rintro (hidle | hidle) <;> obtain h | h := h <;> exact nomatch h.symm.trans hidle

/-- The answer to a registration that is sent. -/
theorem takesTurns_of_replied {target : ℕ}
    (hnext : contextP.next (some serverObj) (.reply now target packet) = some contextP')
    (hget : contextP.serverList[target]? = some server)
    (hget' : contextP'.serverList[target]? = some server')
    (hreplied : Replied serverObj server server' contextP contextP') (h : InTurn serverObj contextP)
    (h' : InTurn serverObj contextP') :
    TakesTurns serverObj contextP contextP' := by
  -- what happens to a server with a registration under way happens to the target
  have htarget {other other' : RetryServer}
      (hplace : SamePlace contextP.serverList contextP'.serverList other other')
      (hidle : ¬ IsIdle other) : other' = other ∨ other = server ∧ other' = server' := by
    obtain ⟨i, hother, hother', hbecomes⟩ := hplace.becomes hnext
    by_cases hi : i = target
    · rw [hi] at hother hother'
      exact .inr ⟨Option.some.inj (hother.symm.trans hget),
        Option.some.inj (hother'.symm.trans hget')⟩
    · rw [Becomes, if_neg fun h => hi h.1.symm] at hbecomes
      exact .inl (hbecomes.eq_of_pending hidle)
  refine ⟨startsInOrder_of_step h.orderly hnext hreplied.step,
    fun other other' hplace horder hstatus hregistered => ?_,
    fun other other' hplace hblocking hholds hpassed => ?_,
    fun other other' hplace horder hblocking hstatus hfailed => ?_, h'.noneStranded⟩
  · obtain rfl | ⟨rfl, rfl⟩ := htarget hplace (show IsUnderWay _ from .inr hstatus).not_isIdle
    · cases hstatus.symm.trans hregistered
    · exact hreplied.startsNext (.inl ⟨horder, hregistered⟩)
  · obtain rfl | ⟨rfl, rfl⟩ := htarget hplace (isUnderWay_of_holds hholds).not_isIdle
    · cases hholds.symm.trans hpassed
    · exact hreplied.startsNext (.inr ⟨hblocking, hholds, hpassed⟩)
  · obtain rfl | ⟨rfl, rfl⟩ := htarget hplace (show IsUnderWay _ from .inr hstatus).not_isIdle
    · cases hstatus.symm.trans hfailed
    · exact hreplied.giveUp horder hblocking hfailed

/-- **An event that is no start** takes the registrations in their order. -/
theorem InTurn.next (h : InTurn serverObj contextP)
    (hnext : contextP.next (some serverObj) event = some contextP') (htry : event.IsTry)
    (hinTime : RegistersInTime serverObj contextP event) :
    InTurn serverObj contextP' ∧ TakesTurns serverObj contextP contextP' := by
  have hconfigured : ∀ server ∈ contextP'.serverList,
      Configured serverObj server.servObjInstID := by
    intro server' hmem
    obtain ⟨server, hmem, index, hbecomes⟩ := exists_samePlace hnext hmem
    rw [hbecomes.servObjInstID]
    exact h.configured server hmem
  have hcounted : ∀ server ∈ contextP'.serverList, Counted server := by
    intro server' hmem
    obtain ⟨server, hmem, index, hbecomes⟩ := exists_samePlace hnext hmem
    exact (h.counted server hmem).becomes hbecomes
  have horders := orders_next hnext
  have hstay (hturns : turns serverObj contextP'.serverList = turns serverObj contextP.serverList)
      (hstate : contextP'.state = contextP.state) : InTurn serverObj contextP' := by
    refine ⟨hconfigured, hcounted, ?_, ?_⟩
    · rw [horders, hturns]
      exact h.orderly
    · rw [hturns, hstate]
      exact h.held
  cases event with
  | start now restartFailed => exact htry.elim
  | step now timeout outcomes =>
    have hturns : turns serverObj contextP'.serverList = turns serverObj contextP.serverList := by
      obtain rfl := Option.some.inj hnext
      exact turns_registrationStep h.counted outcomes now timeout
    have hstate : contextP'.state = contextP.state := by
      obtain rfl := Option.some.inj hnext
      rfl
    exact ⟨hstay hturns hstate, takesTurns_of_eq hnext hturns nofun h (hstay hturns hstate)⟩
  | reply now target packet =>
    by_cases hpending : ∃ server, contextP.serverList[target]? = some server ∧
        server.status = .regPending
    · obtain ⟨server, hget, hpending⟩ := hpending
      obtain ⟨server', hget'⟩ : ∃ server', contextP'.serverList[target]? = some server' := by
        have hrel := next_becomes hnext target
        rw [hget] at hrel
        cases hget' : contextP'.serverList[target]? with
        | none =>
          rw [hget'] at hrel
          cases hrel
        | some server' => exact ⟨server', rfl⟩
      have hreplied := reply_replied h.configured hget hpending
        (h.counted server (List.mem_of_getElem? hget)) hinTime hnext hget'
      have h' : InTurn serverObj contextP' := by
        refine ⟨hconfigured, hcounted, ?_, fun hstate => hreplied.held hstate (h.held
          (hreplied.state hstate))⟩
        rw [horders]
        exact h.orderly.step hreplied.step
      exact ⟨h', takesTurns_of_replied hnext hget hget' hreplied h h'⟩
    · have hnot (server : RetryServer) (hget : contextP.serverList[target]? = some server) :
          server.status ≠ .regPending := fun h => hpending ⟨server, hget, h⟩
      have hsame : contextP' = contextP := Option.some.inj
        (hnext.symm.trans (prvHandleRegistrationReply_ignored (some serverObj) now packet hnot))
      refine ⟨hsame ▸ h, takesTurns_of_eq hnext (by rw [hsame]) ?_ h (hsame ▸ h)⟩
      intro now' target' packet' heq
      obtain ⟨-, rfl, -⟩ := RetryEvent.reply.inj heq
      exact hnot

/-- **The start of the registrations** gives the first server the turn. -/
theorem InTurn.start (now : Int64) (restartFailed : Bool)
    (hconfigured : ∀ server ∈ contextP.serverList, Configured serverObj server.servObjInstID)
    (hidle : ∀ server ∈ contextP.serverList, ¬ IsUnderWay server) :
    InTurn serverObj (registrationStart (some serverObj) now restartFailed contextP).1 ∧
      TakesTurns serverObj contextP
        (registrationStart (some serverObj) now restartFailed contextP).1 := by
  obtain ⟨hstate, next, hstart⟩ :=
    registrationStart_startsFirst now restartFailed contextP hconfigured
  have horders : orders serverObj
      (registrationStart (some serverObj) now restartFailed contextP).1.serverList =
        orders serverObj contextP.serverList :=
    orders_next (show contextP.next (some serverObj) (.start now restartFailed) = some _ from rfl)
  generalize (registrationStart (some serverObj) now restartFailed contextP).1 = contextP'
    at hstart hstate horders ⊢
  have hnone (i : ℕ) : turns serverObj contextP.serverList i ≠ .holds := by
    intro hi
    obtain ⟨server, hget, hholds⟩ := exists_of_turns hi nofun
    exact hidle server (List.mem_of_getElem? hget) (isUnderWay_of_holds hholds)
  have hpassedBy (server' : RetryServer) (hmem : server' ∈ contextP'.serverList) :
      ∃ server ∈ contextP.serverList, PassedBy server server' := by
    obtain ⟨i, hget'⟩ := List.mem_iff_getElem?.mp hmem
    have hrel := hstart.passedBy.getElem? i
    rw [hget'] at hrel
    generalize hget : contextP.serverList[i]? = found at hrel
    cases hrel with
    | some hpassed => exact ⟨_, List.mem_of_getElem? hget, hpassed⟩
  have hwaits (i : ℕ) (hi : turns serverObj contextP'.serverList i = .waits) :
      turns serverObj contextP.serverList i = .waits := by
    rw [hstart.turn] at hi
    split_ifs at hi
    exact hi
  have hcandidate {i : ℕ} {server : RetryServer} (hget : contextP.serverList[i]? = some server)
      (hi : turns serverObj contextP.serverList i = .waits) {order : UInt64}
      (horder : registrationOrder serverObj server = some order) :
      Candidate serverObj restartFailed server order :=
    ⟨.inl (turnOf_eq_waits_iff.mp ((turns_eq hget).symm.trans hi)).2, horder⟩
  -- the server that is started comes before all that wait
  have hfirst {n i : ℕ} (hn : next = some n)
      (hi : turns serverObj contextP'.serverList i = .waits) :
      orders serverObj contextP'.serverList n ≤ orders serverObj contextP'.serverList i := by
    obtain ⟨first, -, order, hget, -, -, ⟨-, horder⟩, hle⟩ := hstart.starts n hn
    obtain ⟨server, hserver, hturn⟩ := exists_of_turns (hwaits i hi) nofun
    obtain ⟨order', horder'⟩ := exists_order (hturn ▸ nofun : turnOf serverObj server ≠ .apart)
    rw [horders, orders_eq hget horder, orders_eq hserver horder']
    exact hle server (List.mem_of_getElem? hserver) order'
      (hcandidate hserver (hwaits i hi) horder')
  have hholds {i : ℕ} (hi : turns serverObj contextP'.serverList i = .holds) : next = some i := by
    rw [hstart.turn] at hi
    split_ifs at hi with h
    · exact h
    · exact absurd hi (hnone i)
  have hinTurn : InTurn serverObj contextP' := by
    refine ⟨fun server' hmem => ?_, fun server' hmem => ?_, ?_, fun _ i hi => ?_⟩
    · obtain ⟨server, hmem, hpassed⟩ := hpassedBy server' hmem
      rw [hpassed.servObjInstID]
      exact hconfigured server hmem
    · obtain ⟨server, hmem, hpassed⟩ := hpassedBy server' hmem
      refine Counted.passedBy (.of_status ?_ ?_) hpassed
      · exact fun h => hidle server hmem (.inl h)
      · exact fun h => hidle server hmem (.inr h)
    · cases hn : next with
      | none => exact .of_none fun i hi => nomatch hn.symm.trans (hholds hi)
      | some n =>
        exact .of_holds (i := n) (fun j hj => Option.some.inj ((hholds hj).symm.trans hn))
          fun j hj => hfirst hn hj
    · obtain ⟨server, hserver, hturn⟩ := exists_of_turns (hwaits i hi) nofun
      obtain ⟨order, horder⟩ := exists_order (hturn ▸ nofun : turnOf serverObj server ≠ .apart)
      cases hn : next with
      | none =>
        exact absurd (hcandidate hserver (hwaits i hi) horder)
          (hstart.nobody hn server (List.mem_of_getElem? hserver) order)
      | some n => exact ⟨n, (hstart.turn n).trans (if_pos hn)⟩
  refine ⟨hinTurn, ?_, fun server server' ⟨i, hget, _⟩ _ hstatus => ?_,
    fun server server' ⟨i, hget, _⟩ _ hturn => ?_,
    fun server server' ⟨i, hget, _⟩ _ _ hstatus => ?_, hinTurn.noneStranded⟩
  · intro server server' ⟨i, hget, hget'⟩ hserver hstatus lower hmem ⟨order, order', horder,
      horder', hlt⟩
    obtain ⟨j, hlower⟩ := List.mem_iff_getElem?.mp hmem
    have hpassed : PassedBy server server' := by
      have hrel := hstart.passedBy.getElem? i
      rw [hget, hget'] at hrel
      cases hrel with
      | some hpassed => exact hpassed
    have hi := hholds ((turns_eq hget').trans (hpassed.holds hserver hstatus (by simp [horder'])))
    cases hturn : turnOf serverObj lower with
    | passed => rfl
    | apart => exact nomatch horder.symm.trans (turnOf_eq_apart_iff.mp hturn)
    | holds =>
      obtain rfl := Option.some.inj (hi.symm.trans (hholds ((turns_eq hlower).trans hturn)))
      obtain rfl := Option.some.inj (hget'.symm.trans hlower)
      obtain rfl := Option.some.inj (horder.symm.trans horder')
      exact absurd hlt (UInt64.lt_irrefl order)
    | waits =>
      have hle := hfirst hi ((turns_eq hlower).trans hturn)
      rw [orders_eq hget' horder', orders_eq hlower horder] at hle
      exact absurd hlt (UInt64.not_lt.mpr hle)
  · exact absurd (.inr hstatus) (hidle server (List.mem_of_getElem? hget))
  · exact absurd (isUnderWay_of_holds hturn) (hidle server (List.mem_of_getElem? hget))
  · exact absurd (.inr hstatus) (hidle server (List.mem_of_getElem? hget))

end

/-! ### The order of a run -/

/-- Every step of a run is as it should be. -/
def RetryContext.AlongRun (serverObj : Option ServerObject)
    (P : RetryContext → RetryEvent → RetryContext → Prop) :
    List RetryEvent → RetryContext → Prop
  | [], _ => True
  | event :: events, contextP => ∀ contextP', contextP.next serverObj event = some contextP' →
    P contextP event contextP' ∧ contextP'.AlongRun serverObj P events

theorem InTurn.alongRun {serverObj : ServerObject} {events : List RetryEvent}
    {contextP : RetryContext} (h : InTurn serverObj contextP)
    (htries : ∀ event ∈ events, event.IsTry)
    (hinTime : contextP.AlongRun (some serverObj)
      (fun contextP event _ => RegistersInTime serverObj contextP event) events) :
    contextP.AlongRun (some serverObj) (fun contextP _ contextP' =>
      TakesTurns serverObj contextP contextP') events := by
  induction events generalizing contextP with
  | nil => trivial
  | cons event events ih =>
    intro contextP' hnext
    obtain ⟨hinTime, hrest⟩ := hinTime contextP' hnext
    obtain ⟨h', htakes⟩ := h.next hnext (htries event List.mem_cons_self) hinTime
    exact ⟨htakes, ih h' (fun event hmem => htries event (List.mem_cons_of_mem _ hmem)) hrest⟩

/-- **The registrations are taken in their order**, from their start on, in every run in which no
server registers in a later sequence than its first one while another one waits. -/
theorem registration_takesTurns (serverObj : ServerObject) (contextP : RetryContext) (now : Int64)
    (restartFailed : Bool) (events : List RetryEvent)
    (hconfigured : ∀ server ∈ contextP.serverList, Configured serverObj server.servObjInstID)
    (hidle : ∀ server ∈ contextP.serverList, ¬ IsUnderWay server)
    (htries : ∀ event ∈ events, event.IsTry)
    (hinTime : (registrationStart (some serverObj) now restartFailed contextP).1.AlongRun
      (some serverObj) (fun contextP event _ => RegistersInTime serverObj contextP event) events) :
    contextP.AlongRun (some serverObj) (fun contextP _ contextP' =>
      TakesTurns serverObj contextP contextP') (.start now restartFailed :: events) := by
  intro contextP' hnext
  obtain rfl := Option.some.inj hnext
  obtain ⟨h, htakes⟩ := InTurn.start now restartFailed hconfigured hidle
  exact ⟨htakes, h.alongRun htries hinTime⟩

/-- Two servers, the first of which blocks the second: one attempt in one sequence, and no bootstrap
when it fails. -/
def blockingServerObject : ServerObject where
  readUint servObjInstID resourceId :=
    if resourceId = lwm2mServerRegOrderId then .ok (servObjInstID.toUInt64 + 1)
    else if resourceId = lwm2mServerCommRetryCountId then .ok 1
    else .error coap404NotFound
  readBoolean servObjInstID resourceId :=
    .ok (resourceId = lwm2mServerRegFailBlockId ∧ servObjInstID = 0)

/-- Two servers with orders. -/
def twoServers (first second : RetryServer) : RetryContext where
  serverList := [first, second]

theorem configured_blockingServerObject (servObjInstID : UInt16) :
    Configured blockingServerObject servObjInstID where
  order := ⟨_, rfl⟩
  blocking := ⟨_, rfl⟩
  delay := ⟨_, rfl⟩
  attempts := ⟨_, rfl⟩
  sequences := ⟨_, rfl⟩

/-- **A blocking server that fails for good** takes the next one along instead of starting it. -/
theorem blockingFailure_not_followsOrder :
    [RetryEvent.start 100 false, .step 100 60 fun _ => ⟨true, some 7, true⟩].foldlM
        (RetryContext.next (some blockingServerObject))
        (twoServers { servObjInstID := 0 } { servObjInstID := 1 }) =
      some (twoServers ⟨0, .regPending, some 7, 100, 1, 1⟩ { servObjInstID := 1 }) ∧
    (twoServers ⟨0, .regPending, some 7, 100, 1, 1⟩ { servObjInstID := 1 }).next
        (some blockingServerObject) (.reply 110 0 none) =
      some (twoServers ⟨0, .regFailed, some 7, 110, 1, 1⟩
        { servObjInstID := 1, status := .regFailed }) ∧
    ¬ FollowsOrder blockingServerObject
        (twoServers ⟨0, .regPending, some 7, 100, 1, 1⟩ { servObjInstID := 1 })
        (twoServers ⟨0, .regFailed, some 7, 110, 1, 1⟩
          { servObjInstID := 1, status := .regFailed }) := by
  refine ⟨by decide, by decide, fun h => ?_⟩
  obtain ⟨server, server', ⟨i, hget, hget'⟩, -, hstatus, -⟩ := h.startsNext _ _ ⟨0, rfl, rfl⟩
    (by decide) rfl (.inr ⟨rfl, by decide⟩) ⟨_, .tail _ (.head _), by decide⟩
  exact absurd hstatus ((by decide : ∀ server ∈ [(⟨0, .regFailed, some 7, 110, 1, 1⟩ : RetryServer),
    { servObjInstID := 1, status := .regFailed }], server.status ≠ .regHoldOff) server'
      (List.mem_of_getElem? hget'))

/-- The first server registers, then the second one. -/
theorem twoServers_takeTurns :
    (twoServers { servObjInstID := 0 } { servObjInstID := 1 }).AlongRun (some blockingServerObject)
      (fun contextP _ contextP' => TakesTurns blockingServerObject contextP contextP')
      [.start 100 false, .step 100 60 fun _ => ⟨true, some 7, true⟩,
        .reply 110 0 (some { code := coap201Created }), .step 110 60 fun _ => ⟨true, some 8, true⟩,
        .reply 120 1 (some { code := coap201Created })] := by
  refine registration_takesTurns _ _ _ _ _ (fun server _ => configured_blockingServerObject _)
    (by simp [twoServers, IsUnderWay]) (by simp [RetryEvent.IsTry]) ?_
  rintro _ hstep
  obtain rfl := Option.some.inj hstep
  refine ⟨trivial, ?_⟩
  rintro _ hfirst
  refine ⟨?_, ?_⟩
  · rintro - server hget - -
    obtain rfl := Option.some.inj hget
    exact .inl (by decide)
  obtain rfl := Option.some.inj hfirst
  rintro _ hstep
  obtain rfl := Option.some.inj hstep
  refine ⟨trivial, ?_⟩
  rintro _ hsecond
  refine ⟨?_, trivial⟩
  rintro - server hget - -
  obtain rfl := Option.some.inj hget
  exact .inl (by decide)

end Lwm2m.Core

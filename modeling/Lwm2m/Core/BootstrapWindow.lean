/-
# How long a bootstrap session stays open

An entry of `bootstrapServerList` in `core/bootstrap.c`.  Its field `registration` is the end of the
hold-off before the request for a bootstrap, and the end of the session once the session is pending;
a command of the bootstrap server that is accepted should leave it `COAP_EXCHANGE_LIFETIME`.

Times are whole seconds, and the clock does not go back.
-/

import Lwm2m.Core.Context

namespace Lwm2m.Core

open Code

/-! ### The entry -/

/-- What the bootstrap uses of `lwm2m_server_t`; `lifetime` is the Client Hold Off Time. -/
structure BootstrapServer where
  status : Status := .deregistered
  sessionH : Session := none
  registration : ℤ := 0
  lifetime : ℕ
  deriving DecidableEq, Repr

/-- `COAP_EXCHANGE_LIFETIME`. -/
def coapExchangeLifetime : ℤ := 247

/-- What the calls in `prv_requestBootstrap` return. -/
structure RequestOutcome where
  /-- The query fits in its buffer. -/
  fits : Bool
  /-- `lwm2m_connect_server`. -/
  connect : Session
  /-- `transaction_new` does not return NULL. -/
  created : Bool
  /-- `transaction_send` returns 0. -/
  sent : Bool

/-- A reply to the request for a bootstrap. -/
structure BootstrapReply where
  isReset : Bool
  code : Code

/-- What a command of the bootstrap server asks for: to delete everything, or anything else. -/
inductive BootstrapOperation
  | deleteAll
  | other
  deriving DecidableEq

namespace BootstrapServer

/-- `prv_handleBootstrapReply` with `prv_handleResponse`; the reply is `none` when the transaction
gives up. -/
def prvHandleBootstrapReply (now : ℤ) (message : Option BootstrapReply)
    (bootstrapServer : BootstrapServer) : BootstrapServer :=
  if bootstrapServer.status = .bsInitiated then
    match message with
    | none => { bootstrapServer with status := .bsFailing }
    | some message =>
      if message.isReset then { bootstrapServer with status := .bsFailing }
      else if message.code = coap204Changed then
        { bootstrapServer with status := .bsPending, registration := now + coapExchangeLifetime }
      else { bootstrapServer with status := .bsFailing }
  else bootstrapServer

/-- `prv_requestBootstrap`.  The callback of a transaction that cannot be sent finds that nothing is
initiated and does nothing. -/
def prvRequestBootstrap (outcome : RequestOutcome) (bootstrapServer : BootstrapServer) :
    BootstrapServer :=
  if outcome.fits = false then { bootstrapServer with status := .bsFailing }
  else
    let bootstrapServer :=
      { bootstrapServer with sessionH := bootstrapServer.sessionH.or outcome.connect }
    if bootstrapServer.sessionH = none then { bootstrapServer with status := .bsFailed }
    else if outcome.created = false then { bootstrapServer with status := .bsFailing }
    else if outcome.sent = false then bootstrapServer
    else { bootstrapServer with status := .bsInitiated }

/-- What `bootstrap_step` does with an entry. -/
def bootstrapStep (currentTime : ℤ) (outcome : RequestOutcome) (targetP : BootstrapServer) :
    BootstrapServer :=
  match targetP.status with
  | .deregistered =>
    { targetP with registration := currentTime + targetP.lifetime, status := .bsHoldOff }
  | .bsHoldOff =>
    if targetP.registration ≤ currentTime then targetP.prvRequestBootstrap outcome else targetP
  | .bsPending =>
    if targetP.registration ≤ currentTime then { targetP with status := .bsFailing } else targetP
  | .bsFinishing => { targetP with sessionH := none, status := .bsFinished }
  | .bsFailing => { targetP with sessionH := none, status := .bsFailed }
  | _ => targetP

/-- `bootstrap_start`. -/
def bootstrapStart (connect : Session) (targetP : BootstrapServer) : BootstrapServer :=
  { targetP with status := .deregistered, sessionH := targetP.sessionH.or connect }

/-- `bootstrap_handleFinish`: the entry, and whether `COAP_204_CHANGED` is returned.
`serversRead` tells that `object_getServers` returns 0. -/
def bootstrapHandleFinish (serversRead : Bool) (bootstrapServer : BootstrapServer) :
    BootstrapServer × Bool :=
  if bootstrapServer.status = .bsPending ∧ serversRead = true then
    ({ bootstrapServer with status := .bsFinishing }, true)
  else (bootstrapServer, false)

/-- `prv_checkServerStatus`: the entry and the code. -/
def prvCheckServerStatus (now : ℤ) (serverP : BootstrapServer) : BootstrapServer × Code :=
  match serverP.status with
  | .bsHoldOff | .bsInitiated => ({ serverP with status := .bsPending }, noError)
  | .deregistered | .bsPending =>
    ({ serverP with registration := now + coapExchangeLifetime }, noError)
  | _ => (serverP, coapIgnore)

/-- `bootstrap_handleCommand` and `bootstrap_handleDeleteAll`, where `result` is what the objects
return. -/
def bootstrapHandleCommand (now : ℤ) (operation : BootstrapOperation) (result : Code)
    (serverP : BootstrapServer) : BootstrapServer × Code :=
  let (serverP, checked) := serverP.prvCheckServerStatus now
  if checked ≠ noError then (serverP, checked)
  else
    match operation with
    | .deleteAll => (serverP, result)
    | .other =>
      if result = coap202Deleted ∨ result = coap204Changed then
        ({ serverP with status := .bsPending }, result)
      else (serverP, result)

end BootstrapServer

/-! ### Runs -/

/-- What happens to an entry, with the time. -/
inductive BootstrapEvent
  /-- `bootstrap_start`. -/
  | start (connect : Session)
  /-- `bootstrap_step`. -/
  | step (outcome : RequestOutcome)
  /-- The request for a bootstrap is answered, or gives up. -/
  | reply (message : Option BootstrapReply)
  /-- A command of the bootstrap server. -/
  | command (operation : BootstrapOperation) (result : Code)
  /-- The bootstrap server finishes the bootstrap. -/
  | finish (serversRead : Bool)

/-- One event at a time. -/
def BootstrapServer.next (server : BootstrapServer) (event : ℤ × BootstrapEvent) :
    BootstrapServer :=
  match event.2 with
  | .start connect => server.bootstrapStart connect
  | .step outcome => server.bootstrapStep event.1 outcome
  | .reply message => server.prvHandleBootstrapReply event.1 message
  | .command operation result => (server.bootstrapHandleCommand event.1 operation result).1
  | .finish serversRead => (server.bootstrapHandleFinish serversRead).1

/-- The clock does not go back from a time on. -/
def WellTimed : ℤ → List (ℤ × BootstrapEvent) → Prop
  | _, [] => True
  | time, event :: rest => time ≤ event.1 ∧ WellTimed event.1 rest

/-! ### The window of a command -/

/-- The session of an entry ends: it is finished, it is refused, or the entry is reset for another
one. -/
def EndsSession (server : BootstrapServer) (event : ℤ × BootstrapEvent) : Prop :=
  match event.2 with
  | .start _ => True
  | .finish serversRead => (server.bootstrapHandleFinish serversRead).2 = true
  | .reply _ => server.status ≠ .bsFailing ∧ (server.next event).status = .bsFailing
  | _ => False

/-- An event is a step that moves the entry to `STATE_BS_FAILING`. -/
def StepFails (server : BootstrapServer) (event : ℤ × BootstrapEvent) : Prop :=
  match event.2 with
  | .step _ => server.status ≠ .bsFailing ∧ (server.next event).status = .bsFailing
  | _ => False

/-- No step before `deadline` moves the entry to `STATE_BS_FAILING` while the session lasts. -/
def LastsUntil (deadline : ℤ) : BootstrapServer → List (ℤ × BootstrapEvent) → Prop
  | _, [] => True
  | server, event :: rest => (StepFails server event → deadline ≤ event.1) ∧
      (¬ EndsSession server event → LastsUntil deadline (server.next event) rest)

/-- A command is accepted and succeeds. -/
def Succeeds (server : BootstrapServer) (time : ℤ) (result : Code) : Prop :=
  (server.prvCheckServerStatus time).2 = noError ∧ 0x40 ≤ result ∧ result < 0x60

/-- The command at `time`, if it is accepted and succeeds, gets its full window: whatever comes
after it, no step moves the entry to `STATE_BS_FAILING` within `COAP_EXCHANGE_LIFETIME` while the
session lasts. -/
def FullWindow (server : BootstrapServer) (time : ℤ) (operation : BootstrapOperation)
    (result : Code) : Prop :=
  Succeeds server time result → ∀ after, WellTimed time after →
    LastsUntil (time + coapExchangeLifetime)
      (server.next (time, .command operation result)) after

/-- The state of the entry when a command comes leaves it the full window. -/
def OpensWindow (server : BootstrapServer) (time : ℤ) (operation : BootstrapOperation)
    (result : Code) : Prop :=
  Succeeds server time result →
  match server.status with
  | .bsHoldOff | .bsInitiated => time + coapExchangeLifetime ≤ server.registration
  | .deregistered =>
    operation = .other ∧ (result = coap202Deleted ∨ result = coap204Changed) ∨
      coapExchangeLifetime ≤ server.lifetime
  | _ => True

/-! ### What keeps the window open -/

/-- No step can move the entry to `STATE_BS_FAILING` before `deadline`. -/
def Lasts (deadline time : ℤ) (server : BootstrapServer) : Prop :=
  match server.status with
  | .deregistered => deadline ≤ time + server.lifetime
  | .bsHoldOff | .bsInitiated | .bsPending => deadline ≤ server.registration
  | _ => True

section

variable {deadline time now : ℤ} {server : BootstrapServer}

/-- An entry lasts as time goes by. -/
theorem Lasts.mono (h : Lasts deadline time server) (hle : time ≤ now) :
    Lasts deadline now server := by
  rw [Lasts] at h ⊢
  cases hstatus : server.status with
  | deregistered =>
    rw [hstatus] at h
    omega
  | bsHoldOff | bsInitiated | bsPending => rwa [hstatus] at h
  | _ => trivial

theorem lasts_prvRequestBootstrap (outcome : RequestOutcome) (h : deadline ≤ server.registration)
    (hholdOff : server.status = .bsHoldOff) :
    Lasts deadline now (server.prvRequestBootstrap outcome) := by
  rw [BootstrapServer.prvRequestBootstrap]
  by_cases hfits : outcome.fits = false
  · rw [if_pos hfits]
    trivial
  · rw [if_neg hfits]
    dsimp only
    split_ifs
    · trivial
    · trivial
    · rw [Lasts]
      rw [hholdOff]
      exact h
    · exact h

/-- **What a step does to an entry that lasts**: it does not fail before the deadline, and the entry
lasts on. -/
theorem lasts_step (h : Lasts deadline time server) (hle : time ≤ now) (outcome : RequestOutcome) :
    (StepFails server (now, .step outcome) → deadline ≤ now) ∧
      Lasts deadline now (server.next (now, .step outcome)) := by
  rw [Lasts] at h
  rw [StepFails]
  dsimp only [BootstrapServer.next]
  rw [BootstrapServer.bootstrapStep]
  cases hstatus : server.status with
  | deregistered =>
    rw [hstatus] at h
    refine ⟨fun hfails => (nomatch hfails.2), ?_⟩
    show deadline ≤ now + server.lifetime
    omega
  | bsHoldOff =>
    rw [hstatus] at h
    split_ifs with hover
    · exact ⟨fun _ => h.trans hover, lasts_prvRequestBootstrap outcome h hstatus⟩
    · refine ⟨fun hfails => ?_, ?_⟩
      · cases hstatus.symm.trans hfails.2
      · rw [Lasts, hstatus]
        exact h
  | bsPending =>
    rw [hstatus] at h
    split_ifs with hover
    · exact ⟨fun _ => h.trans hover, trivial⟩
    · refine ⟨fun hfails => ?_, ?_⟩
      · cases hstatus.symm.trans hfails.2
      · rw [Lasts, hstatus]
        exact h
  | bsFinishing | bsFailing => exact ⟨fun hfails => (nomatch hfails.2), trivial⟩
  | _ =>
    refine ⟨fun hfails => ?_, ?_⟩
    · cases hstatus.symm.trans hfails.2
    · rw [hstatus] at h
      rw [Lasts, hstatus]
      exact h

/-- What a command does to the entry: it is not accepted, or the entry is pending afterwards, or it
stays as it was until the bootstrap begins. -/
theorem next_command (server : BootstrapServer) (now : ℤ) (operation : BootstrapOperation)
    (result : Code) :
    let after := server.next (now, .command operation result)
    match server.status with
    | .bsHoldOff | .bsInitiated =>
      after.status = .bsPending ∧ after.registration = server.registration
    | .bsPending => after.status = .bsPending ∧ after.registration = now + coapExchangeLifetime
    | .deregistered =>
      after.lifetime = server.lifetime ∧
        if operation = .other ∧ (result = coap202Deleted ∨ result = coap204Changed) then
          after.status = .bsPending ∧ after.registration = now + coapExchangeLifetime
        else after.status = .deregistered
    | _ => after = server := by
  obtain ⟨status, sessionH, registration, lifetime⟩ := server
  dsimp only [BootstrapServer.next]
  cases operation with
  | deleteAll =>
    cases status <;> simp [BootstrapServer.bootstrapHandleCommand,
      BootstrapServer.prvCheckServerStatus, coapIgnore, noError]
  | other =>
    by_cases hresult : result = coap202Deleted ∨ result = coap204Changed
    · cases status <;> simp [BootstrapServer.bootstrapHandleCommand,
        BootstrapServer.prvCheckServerStatus, coapIgnore, noError, hresult]
    · cases status <;> simp [BootstrapServer.bootstrapHandleCommand,
        BootstrapServer.prvCheckServerStatus, coapIgnore, noError, hresult]

/-- A command leaves an entry that lasts as long. -/
theorem lasts_command (h : Lasts deadline time server) (hle : time ≤ now)
    (hdeadline : deadline ≤ now + coapExchangeLifetime) (operation : BootstrapOperation)
    (result : Code) : Lasts deadline now (server.next (now, .command operation result)) := by
  have hnext := next_command server now operation result
  rw [Lasts] at h ⊢
  cases hstatus : server.status with
  | deregistered =>
    rw [hstatus] at h hnext
    split_ifs at hnext
    · rw [hnext.2.1]
      exact hnext.2.2 ▸ hdeadline
    · rw [hnext.2, hnext.1]
      omega
  | bsHoldOff | bsInitiated =>
    rw [hstatus] at h hnext
    rw [hnext.1]
    exact hnext.2 ▸ h
  | bsPending =>
    rw [hstatus] at hnext
    rw [hnext.1]
    exact hnext.2 ▸ hdeadline
  | _ =>
    rw [hstatus] at h hnext
    rw [hnext, hstatus]
    exact h

theorem lasts_reply (h : Lasts deadline time server) (hle : time ≤ now)
    (hdeadline : deadline ≤ now + coapExchangeLifetime) (message : Option BootstrapReply) :
    Lasts deadline now (server.next (now, .reply message)) := by
  show Lasts deadline now (server.prvHandleBootstrapReply now message)
  unfold BootstrapServer.prvHandleBootstrapReply
  by_cases hinitiated : server.status = .bsInitiated
  · rw [if_pos hinitiated]
    cases message with
    | none => trivial
    | some message =>
      dsimp only
      split_ifs
      · trivial
      · exact hdeadline
      · trivial
  · rw [if_neg hinitiated]
    exact h.mono hle

/-- **An entry lasts on** while its session does. -/
theorem lasts_next {event : ℤ × BootstrapEvent} (h : Lasts deadline time server)
    (hle : time ≤ event.1) (hdeadline : deadline ≤ time + coapExchangeLifetime)
    (hlasts : ¬ EndsSession server event) : Lasts deadline event.1 (server.next event) := by
  obtain ⟨now, event⟩ := event
  have hdeadline' : deadline ≤ now + coapExchangeLifetime := by
    omega
  cases event with
  | start connect => exact absurd trivial hlasts
  | step outcome => exact (lasts_step h hle outcome).2
  | reply message => exact lasts_reply h hle hdeadline' message
  | command operation result => exact lasts_command h hle hdeadline' operation result
  | finish serversRead =>
    rw [EndsSession] at hlasts
    dsimp only [BootstrapServer.next] at hlasts ⊢
    rw [BootstrapServer.bootstrapHandleFinish] at hlasts ⊢
    split_ifs at hlasts ⊢ with hfinishes
    · exact absurd rfl hlasts
    · exact h.mono hle

/-- An entry that lasts gives every later run its window. -/
theorem lastsUntil_of_lasts {after : List (ℤ × BootstrapEvent)} (h : Lasts deadline time server)
    (hdeadline : deadline ≤ time + coapExchangeLifetime) (htimed : WellTimed time after) :
    LastsUntil deadline server after := by
  induction after generalizing server time with
  | nil => trivial
  | cons event rest ih =>
    obtain ⟨hle, htimed⟩ := htimed
    refine ⟨?_, fun hlasts => ih (lasts_next h hle hdeadline hlasts) (by omega) htimed⟩
    obtain ⟨now, event⟩ := event
    cases event with
    | step outcome => exact (lasts_step h hle outcome).1
    | _ => exact False.elim

end

/-! ### The window -/

variable {now : ℤ} {server : BootstrapServer} {outcome : RequestOutcome}

/-- A step that makes the entry fail too early ends its window. -/
theorem not_lastsUntil_step {deadline : ℤ} (hstatus : server.status ≠ .bsFailing)
    (hfails : (server.bootstrapStep now outcome).status = .bsFailing) (hearly : now < deadline) :
    ¬ LastsUntil deadline server [(now, .step outcome)] :=
  fun h => absurd (h.1 ⟨hstatus, hfails⟩) (not_le.mpr hearly)

/-- A request that cannot be built. -/
def queryTooLong : RequestOutcome := ⟨false, none, true, true⟩

theorem bootstrapStep_pending (hpending : server.status = .bsPending)
    (hover : server.registration ≤ now) :
    (server.bootstrapStep now outcome).status = .bsFailing := by
  rw [BootstrapServer.bootstrapStep, hpending]
  dsimp only
  rw [if_pos hover]

theorem bootstrapStep_deregistered (hderegistered : server.status = .deregistered) :
    server.bootstrapStep now outcome =
      { server with registration := now + server.lifetime, status := .bsHoldOff } := by
  rw [BootstrapServer.bootstrapStep, hderegistered]

/-- The hold-off of an entry ends with a request that cannot be built. -/
theorem bootstrapStep_queryTooLong (hholdOff : server.status = .bsHoldOff)
    (hover : server.registration ≤ now) :
    (server.bootstrapStep now queryTooLong).status = .bsFailing := by
  rw [BootstrapServer.bootstrapStep, hholdOff]
  rw [if_pos hover]
  rfl

/-- **A command gets its full window**, in every run before and after it, exactly when the entry is
pending already, or becomes pending with the command, or its hold-off ends late enough. -/
theorem bootstrap_fullWindow_iff (server : BootstrapServer) (before : List (ℤ × BootstrapEvent))
    (time : ℤ) (operation : BootstrapOperation) (result : Code) :
    FullWindow (before.foldl BootstrapServer.next server) time operation result ↔
      OpensWindow (before.foldl BootstrapServer.next server) time operation result := by
  generalize before.foldl BootstrapServer.next server = server
  have hnext := next_command server time operation result
  dsimp only at hnext
  refine forall_congr' fun hsucceeds => ⟨fun hfull => ?_, fun hopens after htimed => ?_⟩
  · cases hstatus : server.status with
    | bsHoldOff | bsInitiated =>
      rw [hstatus] at hnext
      dsimp only at hnext ⊢
      by_contra hearly
      have hover := le_max_right time server.registration
      rw [← hnext.2] at hover hearly
      refine not_lastsUntil_step ?_ (bootstrapStep_pending hnext.1 hover) ?_
        (hfull [(_, .step queryTooLong)] ⟨le_max_left _ _, trivial⟩)
      · rw [hnext.1]
        exact nofun
      · exact max_lt (lt_add_of_pos_right _ (by decide)) (not_le.mp hearly)
    | deregistered =>
      rw [hstatus] at hnext
      dsimp only at hnext ⊢
      by_contra hearly
      rw [not_or] at hearly
      rw [if_neg hearly.1] at hnext
      obtain ⟨hlifetime, hderegistered⟩ := hnext
      have hlasts := (hfull [(time, .step queryTooLong),
        (time + server.lifetime, .step queryTooLong)]
          ⟨le_rfl, le_add_of_nonneg_right (Int.natCast_nonneg _), trivial⟩).2 id
      change LastsUntil _ (BootstrapServer.bootstrapStep _ _ _) _ at hlasts
      rw [bootstrapStep_deregistered hderegistered, hlifetime] at hlasts
      refine not_lastsUntil_step ?_ (bootstrapStep_queryTooLong ?_ le_rfl) ?_ hlasts
      · exact nofun
      · rfl
      · exact add_lt_add_right (not_le.mp hearly.2) _
    | _ => trivial
  · refine lastsUntil_of_lasts ?_ (le_refl (time + coapExchangeLifetime)) htimed
    rw [Lasts]
    cases hstatus : server.status with
    | deregistered =>
      rw [hstatus] at hnext hopens
      dsimp only at hnext hopens
      split_ifs at hnext with hbegins
      · rw [hnext.2.1]
        exact hnext.2.2.ge
      · rw [hnext.2, hnext.1]
        dsimp only
        have := hopens.resolve_left hbegins
        omega
    | bsHoldOff | bsInitiated =>
      rw [hstatus] at hnext hopens
      rw [hnext.1]
      exact hnext.2 ▸ hopens
    | bsPending =>
      rw [hstatus] at hnext
      rw [hnext.1]
      exact hnext.2.ge
    | _ =>
      rw [hstatus] at hnext
      rw [hnext, hstatus]
      trivial

/-- The request for a bootstrap is sent at once. -/
def requestSent : List (ℤ × BootstrapEvent) :=
  List.replicate 2 (100, .step ⟨true, some 7, true, true⟩)

/-- **A command that overtakes the answer to the request** has no window at all: the session ends
with the next step. -/
theorem overtakingCommand_not_fullWindow :
    ¬ FullWindow (requestSent.foldl BootstrapServer.next { lifetime := 0 }) 105 .other
      coap204Changed := by
  intro hfull
  have hlasts := hfull ⟨rfl, by decide, by decide⟩ [(106, .step queryTooLong)]
    ⟨by decide, trivial⟩
  exact absurd (hlasts.1 ⟨by decide, by decide⟩) (by decide)

end Lwm2m.Core

/-
# When registrations are updated

The client's part of `registration_step` (`core/registration.c`) on servers of any status: the
registrations whose hold-off is over, the updates that the lifetimes ask for, and the timeout for
the next call.

An update is due `COAP_MAX_TRANSMIT_WAIT` before the end of the lifetime, or after half of it where
the lifetime is not longer than that.  It is never late, and the timeout ends before every action
that is still to come; but for a lifetime of 0, which stands for the default one, for odd ones
below the wait and for those up to twice the wait the update comes before half of the lifetime has
passed (`registrationStepIn_timely_iff`).
-/

import Lwm2m.Core.ClientList
import Lwm2m.Core.Registration
import Lwm2m.Core.RegistrationRetry

namespace Lwm2m.Core

open Code Library

/-! ### The source -/

/-- `COAP_MAX_TRANSMIT_WAIT`, which is 93.0. -/
def coapMaxTransmitWait : ℕ := 93

/-- The value of a `time_t` computation; C leaves it undefined where it does not fit. -/
def timeValue (time : ℤ) : Except Fault ℤ :=
  if -2 ^ 63 ≤ time ∧ time < 2 ^ 63 then .ok time else .error .signedOverflow

/-- What `registration_step` uses of `lwm2m_server_t`. -/
structure TimedServer extends RetryServer where
  lifetime : UInt32
  deriving DecidableEq, Repr

/-- The time from a registration to its update. -/
def nextUpdate (lifetime : UInt32) : ℤ :=
  if coapMaxTransmitWait < lifetime.toNat then lifetime.toNat - coapMaxTransmitWait
  else (lifetime.toNat >>> 1 : ℕ)

/-- What `registration_step` does for a server. -/
inductive StepAction
  | register
  | update (withObjects : Bool)
  deriving DecidableEq, Repr

/-- What the calls for a server return. -/
structure StepOutcome where
  register : RegisterOutcome
  updateSent : Bool
  deriving DecidableEq, Repr

namespace TimedServer

/-- `prv_register`. -/
def register (outcome : StepOutcome) (targetP : TimedServer) : TimedServer :=
  { targetP with toRetryServer := (prvRegister outcome.register targetP.toRetryServer).1 }

/-- `prv_updateRegistration`. -/
def update (outcome : StepOutcome) (targetP : TimedServer) : TimedServer :=
  if outcome.updateSent then { targetP with status := .regUpdatePending } else targetP

/-- The turn of a server in `registration_step`: the server, what is done for it, and the
timeout. -/
def step (outcome : StepOutcome) (currentTime timeout : ℤ) (targetP : TimedServer) :
    Except Fault (TimedServer × Option StepAction × ℤ) := do
  match targetP.status with
  | .regHoldOff =>
    let interval ← timeValue (targetP.registration.toInt - currentTime)
    if 0 ≥ interval then return (targetP.register outcome, some .register, timeout)
    else if interval ≤ timeout then return (targetP, none, interval)
    else return (targetP, none, timeout)
  | .registered =>
    let time ← timeValue (targetP.registration.toInt + nextUpdate targetP.lifetime)
    let interval ← timeValue (time - currentTime)
    if 0 ≥ interval then return (targetP.update outcome, some (.update false), timeout)
    else if interval < timeout then return (targetP, none, interval)
    else return (targetP, none, timeout)
  | .regUpdateNeeded => return (targetP.update outcome, some (.update false), timeout)
  | .regFullUpdateNeeded => return (targetP.update outcome, some (.update true), timeout)
  | .regFailed => return ({ targetP with sessionH := none }, none, timeout)
  | _ => return (targetP, none, timeout)

end TimedServer

/-- What `registration_step` leaves: the servers, what was done for each, and the timeout. -/
structure StepResult where
  serverList : List TimedServer
  actions : List (Option StepAction)
  timeout : ℤ
  deriving DecidableEq, Repr

/-- `registration_step`, with an outcome for each place in the list. -/
def registrationStepIn (outcomes : ℕ → StepOutcome) (currentTime : Int64) :
    ℤ → List TimedServer → Except Fault StepResult
  | timeout, [] => return ⟨[], [], timeout⟩
  | timeout, targetP :: next => do
    let (targetP, action, timeout) ← targetP.step (outcomes 0) currentTime.toInt timeout
    let result ← registrationStepIn (fun i => outcomes (i + 1)) currentTime timeout next
    return { result with
      serverList := targetP :: result.serverList
      actions := action :: result.actions }

/-! ### What the lifetimes ask for -/

/-- The lifetime that the server knows: the registration leaves out a lifetime of 0, which then is
the default one. -/
def knownLifetime (lifetime : UInt32) : ℕ :=
  (if lifetime = 0 then lwm2mDefaultLifetime else lifetime).toNat

/-- The time of the next action for a server: the end of its hold-off or its update. -/
def TimedServer.nextAction (server : TimedServer) : Option ℤ :=
  match server.status with
  | .regHoldOff => some server.registration.toInt
  | .registered => some (server.registration.toInt + nextUpdate server.lifetime)
  | _ => none

/-- The time since the registration. -/
def TimedServer.elapsed (currentTime : Int64) (server : TimedServer) : ℤ :=
  currentTime.toInt - server.registration.toInt

/-- A registered server whose lifetime is over gets its update, and none gets it before half of its
lifetime has passed. -/
structure TimelyUpdate (currentTime : Int64) (server : TimedServer) (action : Option StepAction) :
    Prop where
  sent : knownLifetime server.lifetime ≤ server.elapsed currentTime → action = some (.update false)
  wait : action.isSome → knownLifetime server.lifetime ≤ 2 * server.elapsed currentTime

/-- What is done for a server is in time. -/
def TimelyAction (currentTime : Int64) (server : TimedServer) (action : Option StepAction) : Prop :=
  server.status = .registered → TimelyUpdate currentTime server action

/-- **A step in time**: the updates are in time, and the timeout is not raised and ends no later
than any action that is still to come. -/
structure Timely (currentTime : Int64) (timeout : ℤ) (serverList : List TimedServer)
    (result : StepResult) : Prop where
  actions : List.Forall₂ (TimelyAction currentTime) serverList result.actions
  timeout_le : result.timeout ≤ timeout
  timeout_le_sub : ∀ server ∈ serverList, ∀ time ∈ server.nextAction, currentTime.toInt < time →
    result.timeout ≤ time - currentTime.toInt

/-- `registration_step` returns, and its step is in time. -/
def StepsTimely (outcomes : ℕ → StepOutcome) (currentTime : Int64) (timeout : ℤ)
    (serverList : List TimedServer) : Prop :=
  ∃ result, registrationStepIn outcomes currentTime timeout serverList = .ok result ∧
    Timely currentTime timeout serverList result

/-- The times that `registration_step` computes for the server fit into a `time_t`. -/
def TimedServer.Fits (currentTime : Int64) (server : TimedServer) : Prop :=
  ∀ time ∈ server.nextAction, (-2 ^ 63 ≤ time ∧ time < 2 ^ 63) ∧
    -2 ^ 63 ≤ time - currentTime.toInt ∧ time - currentTime.toInt < 2 ^ 63

/-- A registered server is updated too early: its lifetime is the default one and less than half of
it has passed; or it is odd and not above the wait, and half of it passes in the next second; or it
is less than twice the wait and there is not more than the wait left of it, of which less than half
has passed. -/
def TimedServer.IsEarly (currentTime : Int64) (server : TimedServer) : Prop :=
  let lifetime : ℤ := server.lifetime.toNat
  let elapsed := server.elapsed currentTime
  server.status = .registered ∧
    ((lifetime = 0 ∧ 0 ≤ elapsed ∧ elapsed < 43200) ∨
      (lifetime ≤ 93 ∧ lifetime = 2 * elapsed + 1) ∨
      (93 < lifetime ∧ lifetime - 93 ≤ elapsed ∧ 2 * elapsed < lifetime))

/-! ### One server -/

/-- What the turn of a server does for it. -/
def TimedServer.action (currentTime : Int64) (server : TimedServer) : Option StepAction :=
  match server.status with
  | .regHoldOff =>
    if server.registration.toInt ≤ currentTime.toInt then some .register else none
  | .registered =>
    if server.registration.toInt + nextUpdate server.lifetime ≤ currentTime.toInt then
      some (.update false)
    else none
  | .regUpdateNeeded => some (.update false)
  | .regFullUpdateNeeded => some (.update true)
  | _ => none

/-- The timeout behind a server. -/
def remaining (currentTime : Int64) (timeout : ℤ) (server : TimedServer) : ℤ :=
  match server.nextAction with
  | some time =>
    if currentTime.toInt < time then min timeout (time - currentTime.toInt) else timeout
  | none => timeout

section server

variable (outcome : StepOutcome) {currentTime : Int64} (timeout : ℤ) {server : TimedServer}

theorem timeValue_of_fits {time : ℤ} (h : -2 ^ 63 ≤ time ∧ time < 2 ^ 63) :
    timeValue time = .ok time := if_pos h

/-- **The turn of a server** whose times fit. -/
theorem TimedServer.step_eq (h : server.Fits currentTime) : ∃ server',
    server.step outcome currentTime.toInt timeout =
      .ok (server', server.action currentTime, remaining currentTime timeout server) := by
  unfold Fits nextAction at h
  unfold step action remaining nextAction
  cases hstatus : server.status with
  | regHoldOff =>
    rw [hstatus] at h
    obtain ⟨_, hinterval⟩ := h _ rfl
    rw [timeValue_of_fits hinterval]
    simp only [ok_bind, pure_eq_ok]
    by_cases hover : server.registration.toInt ≤ currentTime.toInt
    · rw [if_pos (Int.sub_nonpos_of_le hover), if_pos hover, if_neg (Int.not_lt.mpr hover)]
      exact ⟨_, rfl⟩
    · rw [if_neg fun h => hover (Int.le_of_sub_nonpos h), if_neg hover,
        if_pos (Int.not_le.mp hover)]
      refine ⟨server, ?_⟩
      by_cases hle : server.registration.toInt - currentTime.toInt ≤ timeout
      · rw [if_pos hle, min_eq_right hle]
      · rw [if_neg hle, min_eq_left (by omega)]
  | registered =>
    rw [hstatus] at h
    obtain ⟨htime, hinterval⟩ := h _ rfl
    rw [timeValue_of_fits htime]
    simp only [ok_bind]
    rw [timeValue_of_fits hinterval]
    simp only [ok_bind, pure_eq_ok]
    by_cases hover :
        server.registration.toInt + nextUpdate server.lifetime ≤ currentTime.toInt
    · rw [if_pos (Int.sub_nonpos_of_le hover), if_pos hover, if_neg (Int.not_lt.mpr hover)]
      exact ⟨_, rfl⟩
    · rw [if_neg fun h => hover (Int.le_of_sub_nonpos h), if_neg hover,
        if_pos (Int.not_le.mp hover)]
      refine ⟨server, ?_⟩
      by_cases hlt : server.registration.toInt + nextUpdate server.lifetime -
          currentTime.toInt < timeout
      · rw [if_pos hlt, min_eq_right hlt.le]
      · rw [if_neg hlt, min_eq_left (by omega)]
  | _ => exact ⟨_, rfl⟩

/-- The turn of a server whose times do not fit. -/
theorem TimedServer.step_of_not_fits (h : ¬ server.Fits currentTime) :
    server.step outcome currentTime.toInt timeout = .error .signedOverflow := by
  unfold Fits nextAction at h
  unfold step
  cases hstatus : server.status with
  | regHoldOff =>
    rw [hstatus] at h
    have hregistration := server.registration.minValue_le_toInt
    have hregistration' := server.registration.toInt_lt
    have hinterval : ¬ (-2 ^ 63 ≤ server.registration.toInt - currentTime.toInt ∧
        server.registration.toInt - currentTime.toInt < 2 ^ 63) := fun hinterval =>
      h fun time htime => by
        cases htime
        exact ⟨⟨hregistration, hregistration'⟩, hinterval⟩
    rw [timeValue, if_neg hinterval]
    rfl
  | registered =>
    rw [hstatus] at h
    dsimp only at h ⊢
    by_cases htime : -2 ^ 63 ≤ server.registration.toInt + nextUpdate server.lifetime ∧
        server.registration.toInt + nextUpdate server.lifetime < 2 ^ 63
    · rw [timeValue_of_fits htime]
      have hinterval : ¬ (-2 ^ 63 ≤ server.registration.toInt + nextUpdate server.lifetime -
            currentTime.toInt ∧
          server.registration.toInt + nextUpdate server.lifetime - currentTime.toInt < 2 ^ 63) :=
        fun hinterval => h fun time htime' => by
          cases htime'
          exact ⟨htime, hinterval⟩
      rw [ok_bind, timeValue, if_neg hinterval]
      rfl
    · rw [timeValue, if_neg htime]
      rfl
  | _ =>
    rw [hstatus] at h
    exact absurd (fun time htime => by cases htime) h

/-- The lifetime that the server knows, as a number. -/
theorem knownLifetime_eq (lifetime : UInt32) :
    knownLifetime lifetime = if lifetime.toNat = 0 then 86400 else lifetime.toNat := by
  have hzero : lifetime = 0 ↔ lifetime.toNat = 0 := UInt32.toNat_inj.symm
  unfold knownLifetime
  simp only [hzero]
  split_ifs <;> rfl

theorem nextUpdate_eq (lifetime : UInt32) : nextUpdate lifetime =
    if 93 < lifetime.toNat then (lifetime.toNat : ℤ) - 93 else (lifetime.toNat / 2 : ℕ) := by
  unfold nextUpdate
  rw [Nat.shiftRight_eq_div_pow, pow_one]
  rfl

/-- An update is never due behind the end of the lifetime. -/
theorem nextUpdate_le_knownLifetime (lifetime : UInt32) :
    nextUpdate lifetime ≤ knownLifetime lifetime := by
  rw [nextUpdate_eq, knownLifetime_eq]
  split_ifs <;> omega

/-- A registered server is updated too early when its update is due and half of its lifetime has
not passed. -/
theorem TimedServer.isEarly_iff : server.IsEarly currentTime ↔ server.status = .registered ∧
    nextUpdate server.lifetime ≤ server.elapsed currentTime ∧
      2 * server.elapsed currentTime < knownLifetime server.lifetime := by
  rw [nextUpdate_eq, knownLifetime_eq]
  refine and_congr_right fun _ => ?_
  generalize server.elapsed currentTime = elapsed
  split_ifs <;> omega

/-- **An action is in time** unless it is an update that comes too early. -/
theorem timelyAction_iff : TimelyAction currentTime server (server.action currentTime) ↔
    ¬ server.IsEarly currentTime := by
  rw [TimedServer.isEarly_iff, not_and]
  refine forall_congr' fun hstatus => ?_
  have hdue : server.registration.toInt + nextUpdate server.lifetime ≤ currentTime.toInt ↔
      nextUpdate server.lifetime ≤ server.elapsed currentTime := by
    unfold TimedServer.elapsed
    omega
  have hknown := nextUpdate_le_knownLifetime server.lifetime
  unfold TimedServer.action
  rw [hstatus]
  simp only [hdue]
  by_cases h : nextUpdate server.lifetime ≤ server.elapsed currentTime
  · rw [if_pos h]
    constructor
    · rintro hupdate ⟨_, hhalf⟩
      exact absurd (hupdate.wait rfl) (Int.not_le.mpr hhalf)
    · exact fun hnot => ⟨fun _ => rfl, fun _ => Int.not_lt.mp fun hhalf => hnot ⟨h, hhalf⟩⟩
  · rw [if_neg h]
    refine iff_of_true ⟨fun hover => absurd (hknown.trans hover) h, fun hsome => ?_⟩ fun hnot =>
      h hnot.1
    cases hsome

theorem remaining_le : remaining currentTime timeout server ≤ timeout := by
  unfold remaining
  cases server.nextAction with
  | none => exact le_rfl
  | some time =>
    dsimp only
    split_ifs
    · exact min_le_left _ _
    · exact le_rfl

theorem remaining_le_sub {time : ℤ} (h : time ∈ server.nextAction)
    (hlater : currentTime.toInt < time) :
    remaining currentTime timeout server ≤ time - currentTime.toInt := by
  unfold remaining
  rw [Option.mem_def.mp h]
  dsimp only
  rw [if_pos hlater]
  exact min_le_right _ _

end server

/-! ### The loop -/

section loop

variable {currentTime : Int64} {serverList : List TimedServer}

/-- The timeout is not raised. -/
theorem foldl_remaining_le (serverList : List TimedServer) (timeout : ℤ) :
    serverList.foldl (remaining currentTime) timeout ≤ timeout := by
  induction serverList generalizing timeout with
  | nil => exact le_rfl
  | cons server next ih => exact (ih _).trans (remaining_le timeout)

/-- The timeout ends no later than an action that is still to come. -/
theorem foldl_remaining_le_sub (timeout : ℤ) {server : TimedServer} (h : server ∈ serverList)
    {time : ℤ} (htime : time ∈ server.nextAction) (hlater : currentTime.toInt < time) :
    serverList.foldl (remaining currentTime) timeout ≤ time - currentTime.toInt := by
  induction serverList generalizing timeout with
  | nil => cases h
  | cons head next ih =>
    rcases List.mem_cons.mp h with rfl | h
    · exact (foldl_remaining_le next _).trans (remaining_le_sub timeout htime hlater)
    · exact ih _ h

/-- **The step on servers whose times fit.** -/
theorem registrationStepIn_eq (outcomes : ℕ → StepOutcome) (timeout : ℤ)
    (h : ∀ server ∈ serverList, server.Fits currentTime) : ∃ servers,
    registrationStepIn outcomes currentTime timeout serverList =
      .ok ⟨servers, serverList.map (TimedServer.action currentTime),
        serverList.foldl (remaining currentTime) timeout⟩ := by
  induction serverList generalizing outcomes timeout with
  | nil => exact ⟨[], rfl⟩
  | cons server next ih =>
    obtain ⟨hserver, hnext⟩ := List.forall_mem_cons.mp h
    obtain ⟨server', hstep⟩ := server.step_eq (outcomes 0) timeout hserver
    obtain ⟨servers, hrest⟩ := ih (fun i => outcomes (i + 1))
      (remaining currentTime timeout server) hnext
    refine ⟨server' :: servers, ?_⟩
    rw [registrationStepIn, hstep, ok_bind]
    dsimp only
    rw [hrest]
    rfl

/-- The step on servers one of whose times does not fit. -/
theorem registrationStepIn_of_not_fits (outcomes : ℕ → StepOutcome) (timeout : ℤ)
    (h : ¬ ∀ server ∈ serverList, server.Fits currentTime) :
    registrationStepIn outcomes currentTime timeout serverList = .error .signedOverflow := by
  induction serverList generalizing outcomes timeout with
  | nil => exact absurd (List.forall_mem_nil _) h
  | cons server next ih =>
    rw [registrationStepIn]
    by_cases hserver : server.Fits currentTime
    · obtain ⟨server', hstep⟩ := server.step_eq (outcomes 0) timeout hserver
      rw [hstep, ok_bind]
      dsimp only
      rw [ih _ _ fun hnext => h (List.forall_mem_cons.mpr ⟨hserver, hnext⟩)]
      rfl
    · rw [server.step_of_not_fits _ _ hserver]
      rfl

/-- **When a step is in time**: the times that it computes fit, and no server is updated too
early. -/
theorem registrationStepIn_timely_iff (outcomes : ℕ → StepOutcome) (currentTime : Int64)
    (timeout : ℤ) (serverList : List TimedServer) :
    StepsTimely outcomes currentTime timeout serverList ↔
      ∀ server ∈ serverList, server.Fits currentTime ∧ ¬ server.IsEarly currentTime := by
  unfold StepsTimely
  simp only [forall_and]
  by_cases hfits : ∀ server ∈ serverList, server.Fits currentTime
  · obtain ⟨servers, hrun⟩ := registrationStepIn_eq outcomes timeout hfits
    rw [and_iff_right hfits, hrun]
    simp only [Except.ok.injEq, exists_eq_left']
    have hactions : List.Forall₂ (TimelyAction currentTime) serverList
        (serverList.map (TimedServer.action currentTime)) ↔
          ∀ server ∈ serverList, ¬ server.IsEarly currentTime := by
      rw [List.forall₂_map_right_iff, List.forall₂_same]
      exact forall₂_congr fun server _ => timelyAction_iff
    exact ⟨fun h => hactions.mp h.actions, fun h =>
      ⟨hactions.mpr h, foldl_remaining_le _ _, fun server hserver time htime hlater =>
        foldl_remaining_le_sub _ hserver htime hlater⟩⟩
  · rw [registrationStepIn_of_not_fits outcomes timeout hfits]
    refine iff_of_false ?_ fun h => hfits h.1
    rintro ⟨_, hrun, _⟩
    cases hrun

/-- **A server with the default lifetime** is updated one second after its registration. -/
theorem defaultLifetime_fails : ¬ ∀ (outcomes : ℕ → StepOutcome) (currentTime : Int64)
    (timeout : ℤ) (serverList : List TimedServer),
    StepsTimely outcomes currentTime timeout serverList := by
  intro h
  obtain ⟨result, hrun, htimely⟩ := h (fun _ => ⟨⟨true, some 1, true⟩, true⟩) 1 60
    [{ servObjInstID := 0, status := .registered, sessionH := some 1, lifetime := 0 }]
  cases hrun
  cases htimely.actions with
  | cons haction _ => exact absurd ((haction rfl).wait rfl) (by decide)

end loop

end Lwm2m.Core

/-
# How often a registration is tried, and when

A registration counts its attempts and its sequences.  Where each try is sent, and each hold-off
stays in the range of its time, the counters agree with the number of the tries that failed: the
hold-off after an attempt doubles with each of them, and no registration is tried more often than
the limits allow (`registration_retriesRight_iff`).  A try that is not sent is not counted
(`connectionRefused_tries`), and nothing bounds how often it is made.
-/

import Lwm2m.Core.RegistrationRetry

namespace Lwm2m.Core

open Coap Code Library

/-! ### What is configured -/

section

variable (serverObj : Option ServerObject) (servObjInstID : UInt16)

/-- The limit and the delay of the attempts of a sequence; without them the first one is
the last. -/
def attemptSettings : Option (UInt8 × UInt64) :=
  serverObj.bind fun serverObj => (prvGetRegistrationAttemptLimit serverObj servObjInstID).toOption

/-- The limit and the delay of the sequences, which count when a sequence has several attempts. -/
def sequenceSettings : Option (UInt8 × UInt64) :=
  serverObj.bind fun serverObj =>
    (prvGetRegistrationAttemptLimit serverObj servObjInstID).toOption.bind fun _ =>
      (prvGetRegistrationSequenceLimit serverObj servObjInstID).toOption

/-- The attempts of a sequence: one is made before the limit is compared. -/
def attempts : ℕ := (attemptSettings serverObj servObjInstID).elim 1 fun s => max 1 s.1.toNat

/-- The delay after the first attempt. -/
def attemptDelay : ℕ := (attemptSettings serverObj servObjInstID).elim 0 fun s => s.2.toNat

/-- The sequences: one is made before the limit is compared. -/
def sequences : ℕ := (sequenceSettings serverObj servObjInstID).elim 1 fun s => max 1 s.1.toNat

/-- The delay after a sequence. -/
def sequenceDelay : ℕ := (sequenceSettings serverObj servObjInstID).elim 0 fun s => s.2.toNat

end

/-! ### What has happened -/

/-- The tries of a server that failed since its registration was started, and the time of the last
of them. -/
structure History where
  failed : ℕ := 0
  lastFailure : Int64 := 0

/-- The request of a try is sent. -/
def RegisterOutcome.IsSent (outcome : RegisterOutcome) (server : RetryServer) : Prop :=
  outcome.built = true ∧ server.sessionH.or outcome.connect ≠ none ∧ outcome.sent = true

instance (outcome : RegisterOutcome) (server : RetryServer) : Decidable (outcome.IsSent server) :=
  inferInstanceAs (Decidable (_ ∧ _))

/-- An answer refuses the registration, or none comes. -/
def Refuses (packet : Option Packet) : Prop :=
  asksForMore packet = false ∧ packet.map Packet.code ≠ some coap201Created

instance (packet : Option Packet) : Decidable (Refuses packet) :=
  inferInstanceAs (Decidable (_ ∧ _))

/-- A try of the server at a place fails: it cannot be sent, or it is refused. -/
def TryFails (index : ℕ) (server : RetryServer) : RetryEvent → Prop
  | .start _ _ => False
  | .step now _ outcomes => IsDue now server ∧ ¬ (outcomes index).IsSent server
  | .reply _ target packet => target = index ∧ server.status = .regPending ∧ Refuses packet

instance (index : ℕ) (server : RetryServer) (event : RetryEvent) :
    Decidable (TryFails index server event) :=
  match event with
  | .start _ _ => inferInstanceAs (Decidable False)
  | .step _ _ _ => inferInstanceAs (Decidable (_ ∧ _))
  | .reply _ _ _ => inferInstanceAs (Decidable (_ ∧ _))

/-- The clock. -/
def RetryEvent.now : RetryEvent → Int64
  | .start now _ | .step now _ _ | .reply now _ _ => now

/-- No registration of the server is under way. -/
def IsIdle (server : RetryServer) : Prop :=
  server.status = .deregistered ∨ server.status = .regFailed

instance (server : RetryServer) : Decidable (IsIdle server) := inferInstanceAs (Decidable (_ ∨ _))

/-- The history of the server at a place after an event, which leaves it as `server'`. -/
def History.next (history : History) (event : RetryEvent) (index : ℕ)
    (server server' : RetryServer) : History :=
  if TryFails index server event then ⟨history.failed + 1, event.now⟩
  else if IsIdle server ∧ server'.status = .regHoldOff then {}
  else history

/-! ### What is right -/

/-- The hold-off of a server agrees with its history: nothing has failed; or attempt `k` of a
sequence, and the delay has doubled with each attempt before it; or all the attempts of a
sequence. -/
inductive HoldOffRight (serverObj : Option ServerObject) (server : RetryServer)
    (history : History) : Prop
  | first (hattempt : server.attempt.toNat = 0) (hsequence : server.sequence.toNat = 0)
      (hfailed : history.failed = 0)
  | attempt (hpos : 0 < server.attempt.toNat)
      (hattempt : server.attempt.toNat < attempts serverObj server.servObjInstID)
      (hstarted : 0 < server.sequence.toNat)
      (hsequence : server.sequence.toNat ≤ sequences serverObj server.servObjInstID)
      (hfailed : history.failed = (server.sequence.toNat - 1) *
        attempts serverObj server.servObjInstID + server.attempt.toNat)
      (hregistration : server.registration.toInt = history.lastFailure.toInt +
        (attemptDelay serverObj server.servObjInstID * 2 ^ (server.attempt.toNat - 1) : ℕ))
  | sequence (hattempt : server.attempt.toNat = 0) (hstarted : 0 < server.sequence.toNat)
      (hsequence : server.sequence.toNat < sequences serverObj server.servObjInstID)
      (hfailed : history.failed = server.sequence.toNat *
        attempts serverObj server.servObjInstID)
      (hregistration : server.registration.toInt = history.lastFailure.toInt +
        sequenceDelay serverObj server.servObjInstID)

/-- A registration that is sent agrees with its history. -/
structure PendingRight (serverObj : Option ServerObject) (server : RetryServer)
    (history : History) : Prop where
  attempt_pos : 0 < server.attempt.toNat
  attempt_le : server.attempt.toNat ≤ attempts serverObj server.servObjInstID
  sequence_pos : 0 < server.sequence.toNat
  sequence_le : server.sequence.toNat ≤ sequences serverObj server.servObjInstID
  failed_eq : history.failed = (server.sequence.toNat - 1) *
    attempts serverObj server.servObjInstID + (server.attempt.toNat - 1)

/-- The tries that the limits allow. -/
def allowed (serverObj : Option ServerObject) (servObjInstID : UInt16) : ℕ :=
  sequences serverObj servObjInstID * attempts serverObj servObjInstID

/-- **The retries of a server are right**: each failed try is counted, a hold-off that follows a
failure ends as late as it should, and a server whose registration is under way has not used up the
tries that it is allowed. -/
def RetriesRight (serverObj : Option ServerObject) (server : RetryServer) (history : History) :
    Prop :=
  match server.status with
  | .deregistered => history.failed = 0
  | .regHoldOff => history.failed < allowed serverObj server.servObjInstID ∧
      HoldOffRight serverObj server history
  | .regPending => history.failed < allowed serverObj server.servObjInstID ∧
      PendingRight serverObj server history
  | .regFailed =>
    history.failed = 0 ∨ history.failed = allowed serverObj server.servObjInstID
  | _ => history.failed < allowed serverObj server.servObjInstID

/-- The hold-off that follows the failure of a pending registration can be computed. -/
def RetryFits (serverObj : Option ServerObject) (now : Int64) (server : RetryServer) : Prop :=
  if server.attempt.toNat < attempts serverObj server.servObjInstID then
    server.attempt.toNat ≤ 31 ∧ now.toInt +
      (attemptDelay serverObj server.servObjInstID * 2 ^ (server.attempt.toNat - 1) : ℕ) < 2 ^ 63
  else server.sequence.toNat < sequences serverObj server.servObjInstID →
    now.toInt + sequenceDelay serverObj server.servObjInstID < 2 ^ 63

/-- An event does well by the server at a place: a try that is due is sent, and the hold-off after
a refusal can be computed. -/
def Meets (serverObj : Option ServerObject) (index : ℕ) (server : RetryServer) :
    RetryEvent → Prop
  | .start _ _ => True
  | .step now _ outcomes => IsDue now server → (outcomes index).IsSent server
  | .reply now target packet => target = index → server.status = .regPending → Refuses packet →
      RetryFits serverObj now server

/-! ### Arithmetic -/

variable {now : Int64} {servObjInstID : UInt16} {settings : UInt8 × UInt64}
  {server server' : RetryServer} {servers servers' : List RetryServer} {index : ℕ}
  {contextP : RetryContext} {serverObj : Option ServerObject} {event : RetryEvent}

/-- A delay is added without overflow when the sum is in the range of `time_t`. -/
theorem toInt_addDelay {delay : ℕ} :
    (addDelay now (UInt64.ofNat delay)).toInt = now.toInt + delay ↔
      now.toInt + delay < 2 ^ 63 := by
  have hnow := now.le_toInt
  have hsum : (addDelay now (UInt64.ofNat delay)).toInt = (now.toInt + delay).bmod (2 ^ 64) := by
    show (now.toBitVec + BitVec.ofNat 64 delay).toInt = _
    rw [BitVec.toInt_add, BitVec.toInt_ofNat', Int.add_bmod_bmod]
    rfl
  constructor
  · intro h
    rw [← h]
    exact Int64.toInt_lt _
  · intro h
    rw [hsum]
    exact Int.bmod_eq_of_le (by omega) (by omega)

variable {attempt target : ℕ} {servers'' rest : List RetryServer}
  {firstOrdered : Option (UInt64 × ℕ)} {contextP' : RetryContext} {events : List RetryEvent}

theorem shiftedOne_eq_none_iff (hpos : 0 < attempt) :
    shiftedOne (attempt - 1 : ℤ) = none ↔ 31 < attempt := by
  rw [shiftedOne]
  split_ifs <;> simp <;> omega

theorem shiftedOne_eq (hpos : 0 < attempt) (hle : attempt ≤ 31) :
    shiftedOne (attempt - 1 : ℤ) = some (UInt64.ofNat (2 ^ (attempt - 1))) := by
  rw [shiftedOne, if_pos (by omega), show (attempt - 1 : ℤ).toNat = attempt - 1 by omega]

theorem toNat_le_of_readLimit {serverObj : ServerObject} {limitId delayId : UInt16}
    {limit delay : UInt64}
    (h : readLimit serverObj servObjInstID limitId delayId limit delay = .ok settings) :
    settings.1.toNat ≤ 254 := by
  rw [readLimit] at h
  obtain ⟨configured, -, h⟩ := bind_eq_ok_iff.mp h
  obtain ⟨delay, -, h⟩ := bind_eq_ok_iff.mp h
  obtain rfl := Except.ok.inj h
  show (if configured > 254 then 254 else configured).toUInt8.toNat ≤ 254
  split_ifs with hlimit
  · decide
  · rw [UInt64.toNat_toUInt8]
    have hle : configured.toNat ≤ (254 : UInt64).toNat := UInt64.not_lt.mp hlimit
    exact (Nat.mod_le _ _).trans hle

theorem attempts_pos (serverObj : Option ServerObject) (servObjInstID : UInt16) :
    0 < attempts serverObj servObjInstID := by
  rw [attempts]
  cases attemptSettings serverObj servObjInstID with
  | none => exact Nat.one_pos
  | some settings => exact lt_max_of_lt_left Nat.one_pos

theorem sequences_pos (serverObj : Option ServerObject) (servObjInstID : UInt16) :
    0 < sequences serverObj servObjInstID := by
  rw [sequences]
  cases sequenceSettings serverObj servObjInstID with
  | none => exact Nat.one_pos
  | some settings => exact lt_max_of_lt_left Nat.one_pos

theorem allowed_pos (serverObj : Option ServerObject) (servObjInstID : UInt16) :
    0 < allowed serverObj servObjInstID :=
  Nat.mul_pos (sequences_pos serverObj servObjInstID) (attempts_pos serverObj servObjInstID)

theorem attempts_le (serverObj : Option ServerObject) (servObjInstID : UInt16) :
    attempts serverObj servObjInstID ≤ 254 := by
  rw [attempts]
  cases hsettings : attemptSettings serverObj servObjInstID with
  | none => exact (by decide : 1 ≤ 254)
  | some settings =>
    obtain ⟨serverObj, -, hread⟩ := Option.bind_eq_some_iff.mp hsettings
    exact max_le (by decide) (toNat_le_of_readLimit (toOption_eq_some_iff.mp hread))

theorem sequences_le (serverObj : Option ServerObject) (servObjInstID : UInt16) :
    sequences serverObj servObjInstID ≤ 254 := by
  rw [sequences]
  cases hsettings : sequenceSettings serverObj servObjInstID with
  | none => exact (by decide : 1 ≤ 254)
  | some settings =>
    obtain ⟨serverObj, -, h⟩ := Option.bind_eq_some_iff.mp hsettings
    obtain ⟨attemptSettings, -, hread⟩ := Option.bind_eq_some_iff.mp h
    exact max_le (by decide) (toNat_le_of_readLimit (toOption_eq_some_iff.mp hread))

/-! ### The servers an event passes by -/

/-- What an event does to a server that it is not about: nothing, or it is closed, reset, started
or failed while no registration of it is under way. -/
inductive PassedBy (server : RetryServer) : RetryServer → Prop
  | same : PassedBy server server
  | idle {server' : RetryServer} (hidle : IsIdle server) (hidle' : IsIdle server')
      (hstatus : server'.status = .deregistered → server.status = .deregistered)
      (hid : server'.servObjInstID = server.servObjInstID) : PassedBy server server'
  | started {server' : RetryServer} (hidle : IsIdle server) (hstatus : server'.status = .regHoldOff)
      (hattempt : server'.attempt = 0) (hsequence : server'.sequence = 0)
      (hid : server'.servObjInstID = server.servObjInstID) : PassedBy server server'

theorem PassedBy.trans {server'' : RetryServer} (h : PassedBy server server')
    (h' : PassedBy server' server'') : PassedBy server server'' := by
  cases h' with
  | same => exact h
  | idle hidle hidle' hstatus hid =>
    cases h with
    | same => exact .idle hidle hidle' hstatus hid
    | idle hserver _ hfirst hid' =>
      exact .idle hserver hidle' (fun h => hfirst (hstatus h)) (hid.trans hid')
    | started _ hholdOff _ _ _ =>
      rw [IsIdle, hholdOff] at hidle
      exact absurd hidle (by decide)
  | started hidle hholdOff hattempt hsequence hid =>
    cases h with
    | same => exact .started hidle hholdOff hattempt hsequence hid
    | idle hserver _ _ hid' => exact .started hserver hholdOff hattempt hsequence (hid.trans hid')
    | started _ hholdOff' _ _ _ =>
      rw [IsIdle, hholdOff'] at hidle
      exact absurd hidle (by decide)

/-- A server with a registration under way is left as it is. -/
theorem PassedBy.eq_of_pending (h : PassedBy server server') (hpending : ¬ IsIdle server) :
    server' = server := by
  cases h with
  | same => rfl
  | idle hidle | started hidle => exact absurd hidle hpending

/-- Each server of a list is passed by. -/
abbrev AllPassedBy (servers servers' : List RetryServer) : Prop :=
  List.Forall₂ PassedBy servers servers'

theorem AllPassedBy.refl (servers : List RetryServer) : AllPassedBy servers servers :=
  List.forall₂_same.mpr fun _ _ => PassedBy.same

theorem AllPassedBy.trans (h : AllPassedBy servers servers') (h' : AllPassedBy servers' servers'') :
    AllPassedBy servers servers'' := by
  induction h generalizing servers'' with
  | nil => exact h'
  | cons hserver _ ih =>
    cases h' with
    | cons hserver' hrest => exact .cons (hserver.trans hserver') (ih hrest)

theorem AllPassedBy.getElem? (h : AllPassedBy servers servers') (index : ℕ) :
    Option.Rel PassedBy servers[index]? servers'[index]? := by
  induction h generalizing index with
  | nil => exact .none
  | cons hserver _ ih =>
    cases index with
    | zero => exact .some hserver
    | succ index => exact ih index

/-- One server is replaced. -/
theorem AllPassedBy.set (hget : servers[index]? = some server) (h : PassedBy server server') :
    AllPassedBy servers (servers.set index server') := by
  induction servers generalizing index with
  | nil => cases hget
  | cons head rest ih =>
    cases index with
    | zero =>
      obtain rfl := Option.some.inj hget
      exact .cons h (AllPassedBy.refl rest)
    | succ index => exact .cons .same (ih hget)

/-- A server that is reset keeps its status. -/
theorem PassedBy.reset (hidle : IsIdle server) :
    PassedBy server { server with attempt := 0, sequence := 0 } :=
  .idle hidle hidle id rfl

theorem PassedBy.startRegistration (serverObj : ServerObject) (now : Int64) (hidle : IsIdle server)
    (hattempt : server.attempt = 0) (hsequence : server.sequence = 0) :
    PassedBy server (prvStartRegistration serverObj now server).1 := by
  rw [prvStartRegistration]
  cases initialDelay serverObj server.servObjInstID with
  | error code => exact .same
  | ok delay => exact .started hidle rfl hattempt hsequence rfl

/-- What `registrationStartLoop` does with the servers from a place on: each is passed by, and the
first ordered one, when it is among them, is idle and reset. -/
def StartLoopRight (servers : List RetryServer) (index : ℕ) (firstOrdered : Option (UInt64 × ℕ))
    (result : List RetryServer × Option (UInt64 × ℕ) × Code) : Prop :=
  AllPassedBy servers result.1 ∧ ∀ first, result.2.1 = some first →
    firstOrdered = some first ∨ ∃ k server, first.2 = index + k ∧ result.1[k]? = some server ∧
      IsIdle server ∧ server.attempt = 0 ∧ server.sequence = 0

theorem StartLoopRight.stop {code : Code} (h : PassedBy server server') :
    StartLoopRight (server :: rest) index firstOrdered (server' :: rest, firstOrdered, code) :=
  ⟨.cons h (AllPassedBy.refl rest), fun _ hfirst => .inl hfirst⟩

/-- The loop goes on behind a server, which may have become the first ordered one. -/
theorem StartLoopRight.cons {firstOrdered' : Option (UInt64 × ℕ)}
    {result : List RetryServer × Option (UInt64 × ℕ) × Code} (h : PassedBy server server')
    (hfirst : ∀ first, firstOrdered' = some first → firstOrdered = some first ∨
      first.2 = index ∧ IsIdle server' ∧ server'.attempt = 0 ∧ server'.sequence = 0)
    (hrest : StartLoopRight rest (index + 1) firstOrdered' result) :
    StartLoopRight (server :: rest) index firstOrdered (server' :: result.1, result.2) := by
  refine ⟨.cons h hrest.1, fun first hresult => ?_⟩
  obtain hbefore | ⟨k, target, hplace, hget, htarget⟩ := hrest.2 first hresult
  · obtain hbefore | ⟨hplace, htarget⟩ := hfirst first hbefore
    · exact .inl hbefore
    · exact .inr ⟨0, server', hplace, rfl, htarget⟩
  · exact .inr ⟨k + 1, target, by omega, hget, htarget⟩

theorem registrationStartLoop_right (serverObj : ServerObject) (now : Int64)
    (restartFailed : Bool) (servers : List RetryServer) (index : ℕ)
    (firstOrdered : Option (UInt64 × ℕ)) :
    StartLoopRight servers index firstOrdered
      (registrationStartLoop serverObj now restartFailed servers index firstOrdered) := by
  induction servers generalizing index firstOrdered with
  | nil => exact ⟨.nil, fun _ hfirst => .inl hfirst⟩
  | cons server rest ih =>
    rw [registrationStartLoop]
    by_cases hstart : server.status = .deregistered ∨
        restartFailed = true ∧ server.status = .regFailed
    · have hidle : IsIdle server := hstart.imp_right And.right
      have hreset := PassedBy.reset hidle
      rw [if_pos hstart]
      dsimp only
      cases prvGetRegistrationOrder serverObj server.servObjInstID with
      | error code => exact .stop hreset
      | ok order =>
        cases order with
        | some order =>
          refine .cons hreset (fun first hfirst => ?_) (ih _ _)
          cases firstOrdered with
          | none =>
            obtain rfl := Option.some.inj hfirst
            exact .inr ⟨rfl, hidle, rfl, rfl⟩
          | some firstOrdered =>
            dsimp only at hfirst
            split_ifs at hfirst
            · obtain rfl := Option.some.inj hfirst
              exact .inr ⟨rfl, hidle, rfl, rfl⟩
            · exact .inl hfirst
        | none =>
          have hstarted := hreset.trans
            (PassedBy.startRegistration serverObj now hidle rfl rfl)
          split_ifs
          · exact .cons hstarted (fun _ hfirst => .inl hfirst) (ih _ _)
          · exact .stop hstarted
    · rw [if_neg hstart]
      exact .cons .same (fun _ hfirst => .inl hfirst) (ih _ _)

/-- Nothing but the servers that are not registered changes when the registrations start. -/
theorem registrationStart_passedBy (serverObj : Option ServerObject) (now : Int64)
    (restartFailed : Bool) (contextP : RetryContext) :
    AllPassedBy contextP.serverList
      (registrationStart serverObj now restartFailed contextP).1.serverList := by
  cases serverObj with
  | none => exact AllPassedBy.refl _
  | some serverObj =>
    have hloop := registrationStartLoop_right serverObj now restartFailed contextP.serverList 0 none
    rw [registrationStart]
    generalize registrationStartLoop serverObj now restartFailed contextP.serverList 0 none =
      loop at hloop ⊢
    obtain ⟨serverList, firstOrdered, result⟩ := loop
    cases firstOrdered with
    | none => exact hloop.1
    | some first =>
      obtain hnone | ⟨k, target, hplace, hget, hidle, hattempt, hsequence⟩ := hloop.2 first rfl
      · cases hnone
      · dsimp only at hget hloop ⊢
        rw [Nat.zero_add] at hplace
        rw [Option.bind_some, hplace, hget]
        exact hloop.1.trans (.set hget (.startRegistration serverObj now hidle hattempt hsequence))

/-- A server that waits for its turn may fail. -/
theorem failOrdered_passedBy (serverObj : ServerObject) (server : RetryServer) :
    PassedBy server (failOrdered serverObj server) := by
  rw [failOrdered]
  split_ifs with hstatus
  · cases prvGetRegistrationOrder serverObj server.servObjInstID with
    | error code => exact .same
    | ok order =>
      cases order with
      | none => exact .same
      | some order =>
        exact .idle (.inl hstatus) (.inr rfl) (fun h => by cases h) rfl
  · exact .same

theorem startNextOrdered_passedBy (serverObj : ServerObject) (now : Int64) (server : RetryServer)
    (contextP : RetryContext) :
    AllPassedBy contextP.serverList
      (startNextOrdered serverObj now server contextP).2.2.serverList := by
  rw [startNextOrdered]
  cases prvGetRegistrationOrder serverObj server.servObjInstID with
  | error code => exact AllPassedBy.refl _
  | ok order =>
    cases order with
    | none => exact AllPassedBy.refl _
    | some order =>
      cases prvGetRegistrationFailureBlocking serverObj server.servObjInstID with
      | error code => exact AllPassedBy.refl _
      | ok blocking =>
        dsimp only
        split_ifs
        · exact registrationStart_passedBy (some serverObj) now false contextP
        · exact AllPassedBy.refl _

theorem startNextRegistered_passedBy (serverObj : Option ServerObject) (now : Int64)
    (server : RetryServer) (contextP : RetryContext) :
    AllPassedBy contextP.serverList
      (startNextRegistered serverObj now server contextP).serverList := by
  cases serverObj with
  | none => exact AllPassedBy.refl _
  | some serverObj =>
    have hstart := registrationStart_passedBy (some serverObj) now false contextP
    rw [startNextRegistered]
    cases prvGetRegistrationOrder serverObj server.servObjInstID with
    | error code => exact AllPassedBy.refl _
    | ok order =>
      cases order with
      | none => exact AllPassedBy.refl _
      | some order =>
        split_ifs
        · exact hstart
        · cases prvGetRegistrationFailureBlocking serverObj server.servObjInstID with
          | error code => exact AllPassedBy.refl _
          | ok blocking =>
            cases blocking with
            | false => exact hstart
            | true => exact AllPassedBy.refl _

/-! ### The server an event is about -/

/-- What the failure of a sequence makes of its server. -/
def sequenceRetried (settings : Option (UInt8 × UInt64)) (now : Int64) (server : RetryServer) :
    RetryServer :=
  match settings with
  | none => { server with status := .regFailed }
  | some (sequenceLimit, sequenceDelay) =>
    if server.sequence ≥ sequenceLimit then { server with status := .regFailed }
    else { server with
      registration := addDelay now sequenceDelay
      status := .regHoldOff
      attempt := 0 }

/-- What the failure of a pending registration makes of its server. -/
def retried (serverObj : Option ServerObject) (now : Int64) (server : RetryServer) :
    Option RetryServer :=
  match attemptSettings serverObj server.servObjInstID with
  | none => some { server with status := .regFailed }
  | some (attemptLimit, attemptDelay) =>
    if server.attempt ≥ attemptLimit then
      some (sequenceRetried (sequenceSettings serverObj server.servObjInstID) now server)
    else
      (shiftedOne ((server.attempt.toNat : ℤ) - 1)).map fun factor =>
        { server with
          registration := addDelay now (attemptDelay * factor)
          status := .regHoldOff }

/-- The server at a place becomes `server'` and the others are passed by. -/
structure ChangedAt (index : ℕ) (server' : RetryServer) (servers servers' : List RetryServer) :
    Prop where
  target : servers'[index]? = some server'
  others : ∀ i, i ≠ index → Option.Rel PassedBy servers[i]? servers'[i]?

theorem ChangedAt.set (server' : RetryServer) (hget : servers[index]? = some server)
    (h : AllPassedBy servers servers') :
    ChangedAt index server' servers (servers'.set index server') := by
  refine ⟨?_, fun i hi => ?_⟩
  · have hlt : index < servers'.length := h.length_eq ▸ (List.getElem?_eq_some_iff.mp hget).1
    exact List.getElem?_set_self hlt
  · rw [List.getElem?_set_ne hi.symm]
    exact h.getElem? i

/-- The servers that wait for their turn fail with a server that has failed. -/
theorem ChangedAt.failOrdered {serverObj : ServerObject}
    (h : ChangedAt index server' servers servers') (hfailed : server'.status = .regFailed) :
    ChangedAt index server' servers (servers'.map (failOrdered serverObj)) := by
  refine ⟨?_, fun i hi => ?_⟩
  · rw [List.getElem?_map, h.target, Option.map_some, Core.failOrdered, hfailed]
    rfl
  · have hothers := h.others i hi
    rw [List.getElem?_map]
    generalize servers[i]? = server at hothers ⊢
    generalize servers'[i]? = server' at hothers ⊢
    cases hothers with
    | none => exact .none
    | some hserver => exact .some (hserver.trans (failOrdered_passedBy serverObj _))

/-- The failure of a sequence decides about its server and passes by the others. -/
theorem prvHandleRegistrationSequenceFailure_changedAt (serverObj : ServerObject) (now : Int64)
    (hget : contextP.serverList[index]? = some server) :
    ChangedAt index
      (sequenceRetried (prvGetRegistrationSequenceLimit serverObj server.servObjInstID).toOption now
        server)
      contextP.serverList
      (prvHandleRegistrationSequenceFailure serverObj now index server contextP).serverList := by
  have hnext := startNextOrdered_passedBy serverObj now server contextP
  rw [prvHandleRegistrationSequenceFailure]
  generalize startNextOrdered serverObj now server contextP = next at hnext ⊢
  obtain ⟨ordered, blocking, contextP'⟩ := next
  cases prvGetRegistrationSequenceLimit serverObj server.servObjInstID with
  | error code => exact .set _ hget hnext
  | ok settings =>
    obtain ⟨sequenceLimit, sequenceDelay⟩ := settings
    dsimp only [Except.toOption, sequenceRetried]
    by_cases hlimit : server.sequence ≥ sequenceLimit
    · rw [if_pos hlimit, if_pos hlimit]
      have hfailed := ChangedAt.set { server with status := .regFailed } hget hnext
      cases prvGetBootstrapOnRegistrationFailure serverObj server.servObjInstID with
      | error code => exact hfailed
      | ok bootstrap =>
        cases bootstrap with
        | true => exact hfailed
        | false =>
          split_ifs
          · exact hfailed.failOrdered rfl
          · exact hfailed
    · rw [if_neg hlimit, if_neg hlimit]
      exact .set _ hget hnext

theorem prvHandleRegistrationAttemptFailure_changedAt (serverObj : Option ServerObject)
    (now : Int64) (contextP : RetryContext) (hget : contextP.serverList[index]? = some server) :
    Option.Rel (fun server' contextP' =>
        ChangedAt index server' contextP.serverList contextP'.serverList)
      (retried serverObj now server)
      (prvHandleRegistrationAttemptFailure serverObj now index server contextP) := by
  have hset (server' : RetryServer) := ChangedAt.set server' hget (AllPassedBy.refl _)
  cases serverObj with
  | none => exact .some (hset _)
  | some serverObj =>
    have hsequence :=
      prvHandleRegistrationSequenceFailure_changedAt serverObj now hget
    rw [retried, attemptSettings, sequenceSettings, prvHandleRegistrationAttemptFailure]
    simp only [Option.bind_some]
    cases prvGetRegistrationAttemptLimit serverObj server.servObjInstID with
    | error code => exact .some (hset _)
    | ok settings =>
      obtain ⟨attemptLimit, attemptDelay⟩ := settings
      simp only [Except.toOption, Option.bind_some]
      by_cases hlimit : server.attempt ≥ attemptLimit
      · rw [if_pos hlimit, if_pos hlimit]
        exact .some hsequence
      · rw [if_neg hlimit, if_neg hlimit]
        cases shiftedOne ((server.attempt.toNat : ℤ) - 1) with
        | none => exact .none
        | some factor => exact .some (hset _)

/-- The server of a reply remembers when it came. -/
def RetryServer.answered (now : Int64) (server : RetryServer) : RetryServer :=
  if 0 ≤ now.toInt then { server with registration := now } else server

/-- The server of a registration that is accepted. -/
def RetryServer.accepted (now : Int64) (server : RetryServer) : RetryServer :=
  { server.answered now with status := .registered }

section

variable (now : Int64) (server : RetryServer)

@[simp] theorem answered_status : (server.answered now).status = server.status := by
  rw [RetryServer.answered]
  split_ifs <;> rfl

@[simp] theorem answered_servObjInstID :
    (server.answered now).servObjInstID = server.servObjInstID := by
  rw [RetryServer.answered]
  split_ifs <;> rfl

@[simp] theorem answered_attempt : (server.answered now).attempt = server.attempt := by
  rw [RetryServer.answered]
  split_ifs <;> rfl

@[simp] theorem answered_sequence : (server.answered now).sequence = server.sequence := by
  rw [RetryServer.answered]
  split_ifs <;> rfl

end

/-- What an event makes of the server at a place. -/
def Becomes (serverObj : Option ServerObject) (index : ℕ) (server server' : RetryServer) :
    RetryEvent → Prop
  | .start _ _ => PassedBy server server'
  | .step now _ outcomes =>
    if IsDue now server then server' = (prvRegister (outcomes index) server).1
    else PassedBy server server'
  | .reply now target packet =>
    if target = index ∧ server.status = .regPending then
      if asksForMore packet then server' = server.answered now
      else if packet.map Packet.code = some coap201Created then
        server' = server.accepted now
      else retried serverObj now (server.answered now) = some server'
    else PassedBy server server'

theorem registrationStepServer_eq (outcome : RegisterOutcome) (now : Int64) (timeout : ℤ)
    (server : RetryServer) :
    (registrationStepServer outcome now timeout server).1 =
      if IsDue now server then (prvRegister outcome server).1
      else if server.status = .regFailed then { server with sessionH := none } else server := by
  obtain ⟨servObjInstID, status, sessionH, registration, attempt, sequence⟩ := server
  cases status with
  | regHoldOff =>
    by_cases hdue : registration.toInt ≤ now.toInt
    · rw [if_pos ⟨rfl, hdue⟩]
      dsimp only [registrationStepServer]
      rw [if_pos (by omega)]
    · rw [if_neg fun h => hdue h.2, if_neg (by simp)]
      dsimp only [registrationStepServer]
      rw [if_neg (by omega)]
  | _ =>
    rw [if_neg fun h => nomatch h.1]
    rfl

theorem registrationStep_becomes (outcomes : ℕ → RegisterOutcome) (now : Int64)
    (timeout : ℤ) (servers : List RetryServer)
    (index : ℕ) :
    Option.Rel (fun server server' => if IsDue now server
        then server' = (prvRegister (outcomes index) server).1 else PassedBy server server')
      servers[index]? (registrationStep outcomes now timeout servers).1[index]? := by
  induction servers generalizing outcomes timeout index with
  | nil => exact .none
  | cons server rest ih =>
    cases index with
    | zero =>
      refine .some (b := (registrationStepServer (outcomes 0) now timeout server).1) ?_
      rw [registrationStepServer_eq]
      split_ifs with hdue hfailed
      · rfl
      · exact .idle (.inr hfailed) (.inr hfailed) id rfl
      · exact .same
    | succ index => exact ih (fun i => outcomes (i + 1)) _ index

/-- Afterwards the other servers are passed by once more. -/
theorem ChangedAt.trans (h : ChangedAt index server' servers servers') (hidle : ¬ IsIdle server')
    (h' : AllPassedBy servers' servers'') :
    ChangedAt index server' servers servers'' := by
  refine ⟨?_, fun i hi => ?_⟩
  · have htarget := h'.getElem? index
    rw [h.target] at htarget
    generalize servers''[index]? = server'' at htarget ⊢
    cases htarget with
    | some hserver => rw [hserver.eq_of_pending hidle]
  · have hrel := h.others i hi
    have hrel' := h'.getElem? i
    generalize servers[i]? = server at hrel ⊢
    generalize servers'[i]? = server' at hrel hrel'
    generalize servers''[i]? = server'' at hrel' ⊢
    cases hrel with
    | none =>
      cases hrel' with
      | none => exact .none
    | some hserver =>
      cases hrel' with
      | some hserver' => exact .some (hserver.trans hserver')

/-- What the server at the place was does not matter. -/
theorem ChangedAt.of_set (h : ChangedAt index server' (servers.set index server) servers') :
    ChangedAt index server' servers servers' := by
  refine ⟨h.target, fun i hi => ?_⟩
  have hrel := h.others i hi
  rwa [List.getElem?_set_ne hi.symm] at hrel

theorem ChangedAt.becomes {P : ℕ → RetryServer → RetryServer → Prop}
    (h : ChangedAt index server' servers servers') (hget : servers[index]? = some server)
    (htarget : P index server server')
    (hothers : ∀ i server server', i ≠ index → PassedBy server server' → P i server server')
    (i : ℕ) : Option.Rel (P i) servers[i]? servers'[i]? := by
  by_cases hi : i = index
  · rw [hi, hget, h.target]
    exact .some htarget
  · have hrel := h.others i hi
    generalize servers[i]? = server at hrel ⊢
    generalize servers'[i]? = server' at hrel ⊢
    cases hrel with
    | none => exact .none
    | some hserver => exact .some (hothers i _ _ hi hserver)

/-- The reply to a pending registration. -/
theorem prvHandleRegistrationReply_pending (serverObj : Option ServerObject) (now : Int64)
    (packet : Option Packet) (hget : contextP.serverList[target]? = some server)
    (hpending : server.status = .regPending) :
    prvHandleRegistrationReply serverObj now target packet contextP =
      if asksForMore packet then
        some { contextP with serverList := contextP.serverList.set target (server.answered now) }
      else if packet.map Packet.code = some coap201Created then
        some (startNextRegistered serverObj now (server.accepted now)
          { contextP with serverList := contextP.serverList.set target (server.accepted now) })
      else prvHandleRegistrationAttemptFailure serverObj now target (server.answered now)
        { contextP with serverList := contextP.serverList.set target (server.answered now) } := by
  rw [prvHandleRegistrationReply, hget]
  dsimp only
  rw [if_pos hpending]
  rfl

/-- The reply to anything else. -/
theorem prvHandleRegistrationReply_ignored (serverObj : Option ServerObject) (now : Int64)
    (packet : Option Packet)
    (hnot : ∀ server, contextP.serverList[target]? = some server → server.status ≠ .regPending) :
    prvHandleRegistrationReply serverObj now target packet contextP = some contextP := by
  rw [prvHandleRegistrationReply]
  cases hget : contextP.serverList[target]? with
  | none => rfl
  | some server => exact if_neg (hnot server hget)

/-- **What a reply does to each server**, unless it leaves the next hold-off of its own one
undefined. -/
theorem prvHandleRegistrationReply_becomes (serverObj : Option ServerObject)
    (contextP : RetryContext) (now : Int64) (target : ℕ) (packet : Option Packet) :
    (∀ contextP', prvHandleRegistrationReply serverObj now target packet contextP =
      some contextP' → ∀ index, Option.Rel
        (fun server server' => Becomes serverObj index server server' (.reply now target packet))
        contextP.serverList[index]? contextP'.serverList[index]?) ∧
    (prvHandleRegistrationReply serverObj now target packet contextP = none → ∃ server,
      contextP.serverList[target]? = some server ∧ server.status = .regPending ∧
        Refuses packet ∧ retried serverObj now (server.answered now) = none) := by
  by_cases hpending : ∃ server, contextP.serverList[target]? = some server ∧
      server.status = .regPending
  · obtain ⟨server, hget, hpending⟩ := hpending
    have hbecomes {servers : List RetryServer} {server' : RetryServer}
        (h : ChangedAt target server' contextP.serverList servers)
        (htarget : Becomes serverObj target server server' (.reply now target packet)) :=
      h.becomes (P := fun index server server' =>
        Becomes serverObj index server server' (.reply now target packet)) hget htarget
        fun i server server' hi hpassed => by
          rw [Becomes, if_neg fun h => hi h.1.symm]
          exact hpassed
    rw [prvHandleRegistrationReply_pending serverObj now packet hget hpending]
    by_cases hmore : asksForMore packet = true
    · rw [if_pos hmore]
      refine ⟨fun contextP' h => ?_, fun h => nomatch h⟩
      obtain rfl := Option.some.inj h
      refine hbecomes (.set _ hget (AllPassedBy.refl _)) ?_
      rw [Becomes, if_pos ⟨rfl, hpending⟩, if_pos hmore]
    · rw [if_neg hmore]
      by_cases hcreated : packet.map Packet.code = some coap201Created
      · rw [if_pos hcreated]
        refine ⟨fun contextP' h => ?_, fun h => nomatch h⟩
        obtain rfl := Option.some.inj h
        have hset := ChangedAt.set (server.accepted now) hget
          (AllPassedBy.refl contextP.serverList)
        have hidle : ¬ IsIdle (server.accepted now) := fun h => h.elim nofun nofun
        have hnext := startNextRegistered_passedBy serverObj now (server.accepted now)
          { contextP with serverList := contextP.serverList.set target (server.accepted now) }
        refine hbecomes (hset.trans hidle hnext) ?_
        rw [Becomes, if_pos ⟨rfl, hpending⟩, if_neg hmore, if_pos hcreated]
      · rw [if_neg hcreated]
        have hanswered : (contextP.serverList.set target (server.answered now))[target]? =
            some (server.answered now) :=
          List.getElem?_set_self (List.getElem?_eq_some_iff.mp hget).1
        have hfailure :=
          prvHandleRegistrationAttemptFailure_changedAt serverObj now
            { contextP with
              serverList := contextP.serverList.set target (server.answered now) } hanswered
        refine ⟨fun contextP' h => ?_, fun h => ?_⟩
        · rw [h] at hfailure
          cases hretried : retried serverObj now (server.answered now) with
          | none =>
            rw [hretried] at hfailure
            cases hfailure
          | some server' =>
            rw [hretried] at hfailure
            cases hfailure with
            | some hchanged =>
              refine hbecomes hchanged.of_set ?_
              rw [Becomes, if_pos ⟨rfl, hpending⟩, if_neg hmore, if_neg hcreated]
              exact hretried
        · refine ⟨server, hget, hpending, ⟨Bool.not_eq_true _ ▸ hmore, hcreated⟩, ?_⟩
          rw [h] at hfailure
          cases hretried : retried serverObj now (server.answered now) with
          | none => rfl
          | some server' =>
            rw [hretried] at hfailure
            cases hfailure
  · have hnot : ∀ server, contextP.serverList[target]? = some server →
        server.status ≠ .regPending := fun server hget h => hpending ⟨server, hget, h⟩
    rw [prvHandleRegistrationReply_ignored serverObj now packet hnot]
    refine ⟨fun contextP' h index => ?_, fun h => nomatch h⟩
    obtain rfl := Option.some.inj h
    cases hget : contextP.serverList[index]? with
    | none => exact .none
    | some server =>
      refine .some ?_
      rw [Becomes, if_neg]
      · exact .same
      · rintro ⟨rfl, hstatus⟩
        exact hnot server hget hstatus

/-- **What an event does to each server.** -/
theorem next_becomes (h : contextP.next serverObj event = some contextP') (index : ℕ) :
    Option.Rel (fun server server' => Becomes serverObj index server server' event)
      contextP.serverList[index]? contextP'.serverList[index]? := by
  cases event with
  | start now restartFailed =>
    obtain rfl := Option.some.inj h
    exact (registrationStart_passedBy serverObj now restartFailed contextP).getElem? index
  | step now timeout outcomes =>
    obtain rfl := Option.some.inj h
    exact registrationStep_becomes outcomes now timeout contextP.serverList index
  | reply now target packet =>
    exact (prvHandleRegistrationReply_becomes serverObj contextP now target packet).1 contextP' h
      index

/-! ### One server, one event -/

section

variable {serverObj : Option ServerObject} {server : RetryServer} {history : History}

/-- A server that an event passes by stays right; its history begins again when it is started. -/
theorem RetriesRight.passedBy (h : RetriesRight serverObj server history)
    (hpassed : PassedBy server server') :
    RetriesRight serverObj server'
      (if IsIdle server ∧ server'.status = .regHoldOff then {} else history) := by
  cases hpassed with
  | same =>
    rw [if_neg]
    · exact h
    · rintro ⟨hidle, hstatus⟩
      rw [IsIdle, hstatus] at hidle
      exact hidle.elim nofun nofun
  | idle hidle hidle' hstatus hid =>
    rw [if_neg]
    · rw [RetriesRight] at h ⊢
      obtain hserver | hserver := hidle <;> obtain hserver' | hserver' := hidle' <;>
        rw [hserver] at h hstatus <;> rw [hserver']
      · exact h
      · exact .inl h
      · exact nomatch hstatus hserver'
      · rwa [hid]
    · rintro ⟨-, hholdOff⟩
      rw [IsIdle, hholdOff] at hidle'
      exact hidle'.elim nofun nofun
  | started hidle hholdOff hattempt hsequence hid =>
    rw [if_pos ⟨hidle, hholdOff⟩, RetriesRight, hholdOff]
    exact ⟨allowed_pos _ _, .first (congrArg _ hattempt) (congrArg _ hsequence) rfl⟩

theorem retriesRight_pending (hpending : server.status = .regPending) :
    RetriesRight serverObj server history ↔
      history.failed < allowed serverObj server.servObjInstID ∧
        PendingRight serverObj server history := by
  rw [RetriesRight, hpending]

theorem retriesRight_holdOff (hholdOff : server.status = .regHoldOff) :
    RetriesRight serverObj server history ↔
      history.failed < allowed serverObj server.servObjInstID ∧
        HoldOffRight serverObj server history := by
  rw [RetriesRight, hholdOff]

/-- A registration that fails has used up its tries. -/
theorem retriesRight_failed (h : history.failed = allowed serverObj server.servObjInstID) :
    RetriesRight serverObj { server with status := .regFailed } history :=
  .inr h

theorem attempts_of_none (h : attemptSettings serverObj servObjInstID = none) :
    attempts serverObj servObjInstID = 1 ∧ sequences serverObj servObjInstID = 1 := by
  rw [attempts, h, sequences]
  refine ⟨rfl, ?_⟩
  cases serverObj with
  | none => rfl
  | some serverObj =>
    rw [attemptSettings, Option.bind_some] at h
    rw [sequenceSettings, Option.bind_some, h]
    rfl

theorem attempts_of_some (h : attemptSettings serverObj servObjInstID = some settings) :
    attempts serverObj servObjInstID = max 1 settings.1.toNat ∧
      attemptDelay serverObj servObjInstID = settings.2.toNat := by
  rw [attempts, attemptDelay, h]
  exact ⟨rfl, rfl⟩

theorem sequences_of_some (h : sequenceSettings serverObj servObjInstID = some settings) :
    sequences serverObj servObjInstID = max 1 settings.1.toNat ∧
      sequenceDelay serverObj servObjInstID = settings.2.toNat := by
  rw [sequences, sequenceDelay, h]
  exact ⟨rfl, rfl⟩

/-- The failure of the last attempt of a sequence is right when the next sequence, if there is one,
starts at a time that can be told. -/
theorem sequenceRetried_right_iff (hpending : PendingRight serverObj server history)
    (hlast : attempts serverObj server.servObjInstID ≤ server.attempt.toNat) :
    RetriesRight serverObj (sequenceRetried (sequenceSettings serverObj server.servObjInstID) now
        server) ⟨history.failed + 1, now⟩ ↔
      (server.sequence.toNat < sequences serverObj server.servObjInstID →
        now.toInt + sequenceDelay serverObj server.servObjInstID < 2 ^ 63) := by
  obtain ⟨hpos, hle, hstarted, hsequence, hfailed⟩ := hpending
  have hcount : history.failed + 1 =
      server.sequence.toNat * attempts serverObj server.servObjInstID := by
    obtain ⟨k, hk⟩ := Nat.exists_eq_add_of_le' hstarted
    rw [hfailed, hk, Nat.add_sub_cancel, Nat.succ_mul]
    omega
  have hover (hlimit : sequences serverObj server.servObjInstID ≤ server.sequence.toNat) :
      RetriesRight serverObj { server with status := .regFailed } ⟨history.failed + 1, now⟩ ↔
        (server.sequence.toNat < sequences serverObj server.servObjInstID →
          now.toInt + sequenceDelay serverObj server.servObjInstID < 2 ^ 63) := by
    refine iff_of_true (retriesRight_failed ?_) fun h => absurd h (not_lt.mpr hlimit)
    rw [hcount, allowed, le_antisymm hsequence hlimit]
  cases hsettings : sequenceSettings serverObj server.servObjInstID with
  | none =>
    have hone : sequences serverObj server.servObjInstID = 1 := by
      rw [sequences, hsettings]
      rfl
    exact hover (by omega)
  | some settings =>
    obtain ⟨sequenceLimit, delay⟩ := settings
    obtain ⟨hsequences, hdelay⟩ := sequences_of_some hsettings
    dsimp only at hsequences hdelay
    rw [sequenceRetried]
    by_cases hlimit : server.sequence ≥ sequenceLimit
    · have hlimit' : sequenceLimit.toNat ≤ server.sequence.toNat := hlimit
      rw [if_pos hlimit]
      exact hover (by omega)
    · have hlimit' : server.sequence.toNat < sequenceLimit.toNat := not_le.mp hlimit
      have hmore : server.sequence.toNat < sequences serverObj server.servObjInstID := by omega
      have hsum := @toInt_addDelay now delay.toNat
      rw [UInt64.ofNat_toNat] at hsum
      rw [if_neg hlimit, retriesRight_holdOff rfl, hdelay]
      constructor
      · rintro ⟨-, hright⟩ -
        cases hright with
        | first _ hnone => exact absurd hnone hstarted.ne'
        | attempt hattempt => exact absurd hattempt (lt_irrefl 0)
        | sequence _ _ _ _ hregistration => exact hsum.mp (hdelay ▸ hregistration)
      · intro hfits
        refine ⟨?_, .sequence rfl hstarted hmore hcount ?_⟩
        · rw [hcount]
          exact Nat.mul_lt_mul_of_pos_right hmore (attempts_pos _ _)
        · exact (hsum.mpr (hfits hmore)).trans (hdelay ▸ rfl)

/-- **The failure of a pending registration is right** when the hold-off that follows it can be
computed. -/
theorem retried_right_iff (hpending : PendingRight serverObj server history)
    (hretried : retried serverObj now server = some server') :
    RetriesRight serverObj server' ⟨history.failed + 1, now⟩ ↔ RetryFits serverObj now server := by
  obtain ⟨hpos, hle, hstarted, hsequence, hfailed⟩ := id hpending
  rw [retried] at hretried
  rw [RetryFits]
  cases hsettings : attemptSettings serverObj server.servObjInstID with
  | none =>
    obtain ⟨hattempts, hsequences⟩ := attempts_of_none hsettings
    rw [hsettings] at hretried
    obtain rfl := Option.some.inj hretried
    rw [if_neg (by omega)]
    refine iff_of_true (retriesRight_failed ?_) fun h => by omega
    rw [allowed, hfailed, hattempts, hsequences]
    show (server.sequence.toNat - 1) * 1 + (server.attempt.toNat - 1) + 1 = 1 * 1
    omega
  | some settings =>
    obtain ⟨attemptLimit, delay⟩ := settings
    obtain ⟨hattempts, hdelay⟩ := attempts_of_some hsettings
    dsimp only at hattempts hdelay
    rw [hsettings] at hretried
    dsimp only at hretried
    by_cases hlimit : server.attempt ≥ attemptLimit
    · have hlimit' : attemptLimit.toNat ≤ server.attempt.toNat := hlimit
      rw [if_pos hlimit] at hretried
      obtain rfl := Option.some.inj hretried
      rw [if_neg (by omega)]
      exact sequenceRetried_right_iff hpending (by omega)
    · have hlimit' : server.attempt.toNat < attemptLimit.toNat := not_le.mp hlimit
      have hmore : server.attempt.toNat < attempts serverObj server.servObjInstID := by omega
      rw [if_neg hlimit] at hretried
      rw [if_pos hmore]
      obtain ⟨factor, hfactor, rfl⟩ := Option.map_eq_some_iff.mp hretried
      have hshift : server.attempt.toNat ≤ 31 := by
        by_contra h
        rw [(shiftedOne_eq_none_iff hpos).mpr (not_le.mp h)] at hfactor
        cases hfactor
      rw [shiftedOne_eq hpos hshift] at hfactor
      obtain rfl := Option.some.inj hfactor
      have hsum := @toInt_addDelay now (delay.toNat * 2 ^ (server.attempt.toNat - 1))
      rw [UInt64.ofNat_mul, UInt64.ofNat_toNat] at hsum
      rw [retriesRight_holdOff rfl, hdelay]
      constructor
      · rintro ⟨-, hright⟩
        cases hright with
        | first hnone => exact absurd hnone hpos.ne'
        | attempt _ _ _ _ _ hregistration => exact ⟨hshift, hsum.mp (hdelay ▸ hregistration)⟩
        | sequence hnone => exact absurd hnone hpos.ne'
      · rintro ⟨-, hfits⟩
        have hcount : history.failed + 1 = (server.sequence.toNat - 1) *
            attempts serverObj server.servObjInstID + server.attempt.toNat := by omega
        refine ⟨?_, .attempt hpos hmore hstarted hsequence hcount
          ((hsum.mpr hfits).trans (hdelay ▸ rfl))⟩
        calc history.failed + 1
            < (server.sequence.toNat - 1 + 1) * attempts serverObj server.servObjInstID := by
              rw [Nat.succ_mul]
              omega
          _ ≤ allowed serverObj server.servObjInstID := Nat.mul_le_mul_right _ (by omega)

/-- Where the hold-off is undefined, it cannot be computed. -/
theorem not_retryFits_of_retried (hpos : 0 < server.attempt.toNat)
    (hretried : retried serverObj now server = none) : ¬ RetryFits serverObj now server := by
  rw [retried] at hretried
  rw [RetryFits]
  cases hsettings : attemptSettings serverObj server.servObjInstID with
  | none =>
    rw [hsettings] at hretried
    cases hretried
  | some settings =>
    obtain ⟨attemptLimit, delay⟩ := settings
    obtain ⟨hattempts, -⟩ := attempts_of_some hsettings
    rw [hsettings] at hretried
    dsimp only at hattempts hretried
    by_cases hlimit : server.attempt ≥ attemptLimit
    · rw [if_pos hlimit] at hretried
      cases hretried
    · have hlimit' : server.attempt.toNat < attemptLimit.toNat := not_le.mp hlimit
      rw [if_neg hlimit, Option.map_eq_none_iff, shiftedOne_eq_none_iff hpos] at hretried
      rw [if_pos (by omega)]
      exact fun h => absurd h.1 (not_le.mpr hretried)

/-- What is read of a pending server does not depend on the time of its last answer. -/
theorem pendingRight_answered (now : Int64) :
    PendingRight serverObj (server.answered now) history ↔
      PendingRight serverObj server history := by
  constructor
  · rintro ⟨hpos, hle, hstarted, hsequence, hfailed⟩
    simp only [answered_attempt, answered_sequence, answered_servObjInstID] at *
    exact ⟨hpos, hle, hstarted, hsequence, hfailed⟩
  · rintro ⟨hpos, hle, hstarted, hsequence, hfailed⟩
    constructor <;> simpa only [answered_attempt, answered_sequence, answered_servObjInstID]

theorem retryFits_answered (now : Int64) :
    RetryFits serverObj now (server.answered now) ↔ RetryFits serverObj now server := by
  simp only [RetryFits, answered_attempt, answered_sequence, answered_servObjInstID]

/-- The number of the failed tries follows from the counters. -/
theorem HoldOffRight.failed_eq (h : HoldOffRight serverObj server history) :
    history.failed = if server.attempt.toNat = 0
      then server.sequence.toNat * attempts serverObj server.servObjInstID
      else (server.sequence.toNat - 1) * attempts serverObj server.servObjInstID +
        server.attempt.toNat := by
  cases h with
  | first hattempt hsequence hfailed => rw [if_pos hattempt, hsequence, Nat.zero_mul, hfailed]
  | attempt hpos _ _ _ hfailed => rw [if_neg hpos.ne', hfailed]
  | sequence hattempt _ _ hfailed => rw [if_pos hattempt, hfailed]

/-- The try that is sent next is the next of its sequence, or the first of the next sequence. -/
theorem HoldOffRight.pendingRight (h : HoldOffRight serverObj server history)
    (hid : server'.servObjInstID = server.servObjInstID)
    (hattempt : server'.attempt = server.attempt + 1)
    (hsequence : server'.sequence =
      if server.attempt = 0 then server.sequence + 1 else server.sequence) :
    PendingRight serverObj server' history := by
  have hattempts := attempts_le serverObj server.servObjInstID
  have hsequences := sequences_le serverObj server.servObjInstID
  have hsucc (counter : UInt8) (hlt : counter.toNat < 255) :
      (counter + 1).toNat = counter.toNat + 1 := by
    rw [UInt8.toNat_add]
    exact Nat.mod_eq_of_lt (by change counter.toNat + 1 < 256; omega)
  have hzero : server.attempt = 0 ↔ server.attempt.toNat = 0 := UInt8.toNat_inj.symm
  cases h with
  | first hnone hnone' hfailed =>
    rw [if_pos (hzero.mpr hnone)] at hsequence
    have hattempt' := hsucc server.attempt (by omega)
    have hsequence' := hsucc server.sequence (by omega)
    rw [← hattempt, hnone] at hattempt'
    rw [← hsequence, hnone'] at hsequence'
    have hpos := attempts_pos serverObj server'.servObjInstID
    have hpos' := sequences_pos serverObj server'.servObjInstID
    refine ⟨by omega, by omega, by omega, by omega, ?_⟩
    rw [hfailed, hattempt', hsequence']
    simp
  | attempt hpos hlt hstarted hle hfailed =>
    rw [if_neg fun h => hpos.ne' (hzero.mp h)] at hsequence
    have hattempt' := hsucc server.attempt (by omega)
    rw [← hattempt] at hattempt'
    refine ⟨by omega, hid ▸ by omega, hsequence ▸ hstarted, hid ▸ hsequence ▸ hle, ?_⟩
    rw [hfailed, hid, hsequence, hattempt', Nat.add_sub_cancel]
  | sequence hnone hstarted hlt hfailed =>
    rw [if_pos (hzero.mpr hnone)] at hsequence
    have hattempt' := hsucc server.attempt (by omega)
    have hsequence' := hsucc server.sequence (by omega)
    rw [← hattempt, hnone] at hattempt'
    rw [← hsequence] at hsequence'
    have hpos := attempts_pos serverObj server'.servObjInstID
    refine ⟨by omega, by omega, by omega, hid ▸ by omega, ?_⟩
    rw [hfailed, hid, hattempt', hsequence', Nat.add_sub_cancel]
    simp

variable {outcome : RegisterOutcome}

theorem prvRegister_sent (hsent : outcome.IsSent server) :
    (prvRegister outcome server).1 =
      { server with
        sessionH := server.sessionH.or outcome.connect
        sequence := if server.attempt = 0 then server.sequence + 1 else server.sequence
        attempt := server.attempt + 1
        status := .regPending } := by
  obtain ⟨hbuilt, hconnected, hsent⟩ := hsent
  rw [prvRegister, if_neg (by simp [hbuilt])]
  rw [if_neg (by simp [hconnected, hsent])]
  split_ifs <;> rfl

/-- A try that is not sent counts nothing. -/
theorem prvRegister_not_sent (hsent : ¬ outcome.IsSent server) :
    ∃ sessionH, (prvRegister outcome server).1 = { server with sessionH } := by
  rw [prvRegister]
  by_cases hbuilt : outcome.built = false
  · rw [if_pos hbuilt]
    exact ⟨server.sessionH, rfl⟩
  · rw [if_neg hbuilt]
    rw [if_pos]
    · exact ⟨_, rfl⟩
    · by_contra h
      rw [not_or] at h
      exact hsent ⟨Bool.not_eq_false _ ▸ hbuilt, h.1, Bool.not_eq_false _ ▸ h.2⟩

/-- **A try that is due is right** when it is sent. -/
theorem prvRegister_right_iff (outcome : RegisterOutcome)
    (h : RetriesRight serverObj server history) (hdue : IsDue now server) :
    RetriesRight serverObj (prvRegister outcome server).1
        (if outcome.IsSent server then history else ⟨history.failed + 1, now⟩) ↔
      outcome.IsSent server := by
  rw [retriesRight_holdOff hdue.1] at h
  by_cases hsent : outcome.IsSent server
  · rw [if_pos hsent, prvRegister_sent hsent, retriesRight_pending rfl]
    exact iff_of_true ⟨h.1, h.2.pendingRight rfl rfl rfl⟩ hsent
  · obtain ⟨sessionH, hregister⟩ := prvRegister_not_sent hsent
    have hholdOff : ({ server with sessionH } : RetryServer).status = .regHoldOff := hdue.1
    rw [if_neg hsent, hregister, retriesRight_holdOff hholdOff]
    refine iff_of_false (fun h' => ?_) hsent
    have hfailed := h.2.failed_eq
    have hfailed' := h'.2.failed_eq
    dsimp only at hfailed'
    omega

/-- **The retries of a server stay right exactly** when the event does well by it. -/
theorem Becomes.right_iff (h : RetriesRight serverObj server history)
    (hbecomes : Becomes serverObj index server server' event) :
    RetriesRight serverObj server' (history.next event index server server') ↔
      Meets serverObj index server event := by
  cases event with
  | start now restartFailed =>
    rw [History.next, if_neg (show ¬ TryFails index server (.start now restartFailed) from id)]
    exact iff_of_true (h.passedBy hbecomes) trivial
  | step now timeout outcomes =>
    rw [Becomes] at hbecomes
    rw [History.next, Meets]
    by_cases hdue : IsDue now server
    · have hidle : ¬ IsIdle server := by
        rw [IsIdle, hdue.1]
        simp
      rw [if_pos hdue] at hbecomes
      rw [if_neg (fun h : IsIdle server ∧ _ => hidle h.1), hbecomes]
      have htry := prvRegister_right_iff (outcomes index) h hdue
      by_cases hsent : (outcomes index).IsSent server
      · rw [if_pos hsent] at htry
        rw [if_neg fun h => h.2 hsent, htry]
        exact ⟨fun _ _ => hsent, fun _ => hsent⟩
      · rw [if_neg hsent] at htry
        rw [if_pos ⟨hdue, hsent⟩]
        exact htry.trans ⟨fun h _ => h, fun h => h hdue⟩
    · rw [if_neg hdue] at hbecomes
      rw [if_neg fun h => hdue h.1]
      exact iff_of_true (h.passedBy hbecomes) fun h => absurd h hdue
  | reply now target packet =>
    rw [Becomes] at hbecomes
    rw [History.next, Meets]
    by_cases htarget : target = index ∧ server.status = .regPending
    · obtain ⟨rfl, hpending⟩ := htarget
      have hidle : ¬ IsIdle server := by
        rw [IsIdle, hpending]
        simp
      rw [if_pos ⟨rfl, hpending⟩] at hbecomes
      rw [if_neg (fun h : IsIdle server ∧ _ => hidle h.1)]
      rw [retriesRight_pending hpending] at h
      have hanswered := (pendingRight_answered now).mpr h.2
      by_cases hrefuses : Refuses packet
      · rw [if_neg (by simp [hrefuses.1]), if_neg hrefuses.2] at hbecomes
        rw [if_pos ⟨rfl, hpending, hrefuses⟩]
        refine (retried_right_iff hanswered hbecomes).trans ?_
        rw [retryFits_answered]
        exact ⟨fun h _ _ _ => h, fun h => h rfl hpending hrefuses⟩
      · rw [if_neg fun h => hrefuses h.2.2]
        refine iff_of_true ?_ fun _ _ h => absurd h hrefuses
        by_cases hmore : asksForMore packet = true
        · rw [if_pos hmore] at hbecomes
          rw [hbecomes, retriesRight_pending ((answered_status now server).trans hpending)]
          exact ⟨by rw [answered_servObjInstID]; exact h.1, hanswered⟩
        · have hcreated : packet.map Packet.code = some coap201Created := by
            by_contra hcreated
            exact hrefuses ⟨Bool.not_eq_true _ ▸ hmore, hcreated⟩
          rw [if_neg hmore, if_pos hcreated] at hbecomes
          rw [hbecomes]
          show history.failed < allowed serverObj (server.answered now).servObjInstID
          rw [answered_servObjInstID]
          exact h.1
    · rw [if_neg htarget] at hbecomes
      rw [if_neg fun h => htarget ⟨h.1, h.2.1⟩]
      exact iff_of_true (h.passedBy hbecomes) fun h h' => absurd ⟨h, h'⟩ htarget

end

/-! ### Runs -/

/-- The registrations with the history of the server at each place. -/
structure RetryRun where
  contextP : RetryContext
  history : ℕ → History

/-- The histories after an event, which leads to `contextP'`. -/
def RetryRun.nextHistory (run : RetryRun) (event : RetryEvent) (contextP' : RetryContext)
    (index : ℕ) : History :=
  match run.contextP.serverList[index]?, contextP'.serverList[index]? with
  | some server, some server' => (run.history index).next event index server server'
  | _, _ => run.history index

/-- One event of a run. -/
def RetryRun.next (serverObj : Option ServerObject) (run : RetryRun) (event : RetryEvent) :
    Option RetryRun :=
  (run.contextP.next serverObj event).map fun contextP' =>
    ⟨contextP', run.nextHistory event contextP'⟩

/-- The retries of every server are right. -/
def RetryRun.Right (serverObj : Option ServerObject) (run : RetryRun) : Prop :=
  ∀ index server, run.contextP.serverList[index]? = some server →
    RetriesRight serverObj server (run.history index)

/-- The retries are right in every state of a run, none of which is left undefined. -/
def RetryRun.StaysRight (serverObj : Option ServerObject) : List RetryEvent → RetryRun → Prop
  | [], run => run.Right serverObj
  | event :: events, run => run.Right serverObj ∧
      ∃ run', run.next serverObj event = some run' ∧ run'.StaysRight serverObj events

/-- Each event of a run does well by every server. -/
def RetryContext.MeetsAll (serverObj : Option ServerObject) : List RetryEvent → RetryContext → Prop
  | [], _ => True
  | event :: events, contextP =>
    (∀ index server, contextP.serverList[index]? = some server →
      Meets serverObj index server event) ∧
    ∀ contextP', contextP.next serverObj event = some contextP' →
      contextP'.MeetsAll serverObj events

variable {run : RetryRun}

theorem RetryRun.nextHistory_eq (hget : run.contextP.serverList[index]? = some server)
    (hget' : contextP'.serverList[index]? = some server') :
    run.nextHistory event contextP' index =
      (run.history index).next event index server server' := by
  rw [RetryRun.nextHistory, hget, hget']

theorem RetryRun.next_eq_some_iff {run' : RetryRun} : run.next serverObj event = some run' ↔
      run.contextP.next serverObj event = some run'.contextP ∧
        run'.history = run.nextHistory event run'.contextP := by
  obtain ⟨contextP', history'⟩ := run'
  rw [RetryRun.next, Option.map_eq_some_iff]
  constructor
  · rintro ⟨contextP', hnext, heq⟩
    obtain ⟨rfl, rfl⟩ := RetryRun.mk.inj heq
    exact ⟨hnext, rfl⟩
  · rintro ⟨hnext, hhistory⟩
    exact ⟨contextP', hnext, congrArg _ hhistory.symm⟩

/-- **One event keeps the retries of every server right exactly** when it does well by each. -/
theorem RetryRun.next_right_iff (h : run.Right serverObj) (event : RetryEvent) :
    (∃ run', run.next serverObj event = some run' ∧ run'.Right serverObj) ↔
      ∀ index server, run.contextP.serverList[index]? = some server →
        Meets serverObj index server event := by
  constructor
  · rintro ⟨run', hnext, hright⟩ index server hget
    obtain ⟨hcontext, hhistory⟩ := RetryRun.next_eq_some_iff.mp hnext
    have hrel := next_becomes hcontext index
    rw [hget] at hrel
    cases hget' : run'.contextP.serverList[index]? with
    | none =>
      rw [hget'] at hrel
      cases hrel
    | some server' =>
      have hright' := hright index server' hget'
      rw [hhistory, RetryRun.nextHistory_eq hget hget'] at hright'
      rw [hget'] at hrel
      cases hrel with
      | some hbecomes => exact (hbecomes.right_iff (h index server hget)).mp hright'
  · intro hmeets
    cases hcontext : run.contextP.next serverObj event with
    | none =>
      exfalso
      cases event with
      | start now restartFailed => cases hcontext
      | step now timeout outcomes => cases hcontext
      | reply now target packet =>
        obtain ⟨server, hget, hpending, hrefuses, hretried⟩ :=
          (prvHandleRegistrationReply_becomes serverObj run.contextP now target packet).2 hcontext
        have hright := ((retriesRight_pending hpending).mp (h target server hget)).2
        refine not_retryFits_of_retried ?_ hretried ?_
        · rw [answered_attempt]
          exact hright.attempt_pos
        · exact (retryFits_answered now).mpr (hmeets target server hget rfl hpending hrefuses)
    | some contextP' =>
      refine ⟨⟨contextP', run.nextHistory event contextP'⟩,
        RetryRun.next_eq_some_iff.mpr ⟨hcontext, rfl⟩, fun index server' hget' => ?_⟩
      have hrel := next_becomes hcontext index
      dsimp only at hget' ⊢
      rw [hget'] at hrel
      cases hget : run.contextP.serverList[index]? with
      | none =>
        rw [hget] at hrel
        cases hrel
      | some server =>
        rw [hget] at hrel
        rw [RetryRun.nextHistory_eq hget hget']
        cases hrel with
        | some hbecomes =>
          exact (hbecomes.right_iff (h index server hget)).mpr (hmeets index server hget)

/-- The retries are right before any registration starts. -/
theorem RetryRun.right_of_idle
    (hidle : ∀ server ∈ contextP.serverList,
      server.status ≠ .regHoldOff ∧ server.status ≠ .regPending) :
    RetryRun.Right serverObj ⟨contextP, fun _ => {}⟩ := by
  intro index server hget
  obtain ⟨hholdOff, hpending⟩ := hidle server (List.mem_of_getElem? hget)
  have hpos : 0 < allowed serverObj server.servObjInstID := allowed_pos _ _
  rw [RetriesRight]
  cases hstatus : server.status with
  | regHoldOff => exact absurd hstatus hholdOff
  | regPending => exact absurd hstatus hpending
  | deregistered => rfl
  | regFailed => exact .inl rfl
  | _ => exact hpos

theorem RetryRun.staysRight_iff (h : run.Right serverObj) :
    run.StaysRight serverObj events ↔ run.contextP.MeetsAll serverObj events := by
  induction events generalizing run with
  | nil => exact iff_of_true h trivial
  | cons event events ih =>
    rw [RetryRun.StaysRight, RetryContext.MeetsAll, ← RetryRun.next_right_iff h event]
    constructor
    · rintro ⟨-, run', hnext, hstays⟩
      have hright : run'.Right serverObj := by
        cases events with
        | nil => exact hstays
        | cons _ _ => exact hstays.1
      refine ⟨⟨run', hnext, hright⟩, fun contextP' hcontext => ?_⟩
      have hcontext' := (RetryRun.next_eq_some_iff.mp hnext).1
      obtain rfl := Option.some.inj (hcontext'.symm.trans hcontext)
      exact (ih hright).mp hstays
    · rintro ⟨⟨run', hnext, hright⟩, hrest⟩
      exact ⟨h, run', hnext, (ih hright).mpr (hrest _ (RetryRun.next_eq_some_iff.mp hnext).1)⟩

/-- **The retries are right in every state of a run** exactly when each of its events does well by
every server: a try that is due is sent, and the hold-off after a refusal can be computed. -/
theorem registration_retriesRight_iff (serverObj : Option ServerObject) (events : List RetryEvent)
    (contextP : RetryContext)
    (hidle : ∀ server ∈ contextP.serverList,
      server.status ≠ .regHoldOff ∧ server.status ≠ .regPending) :
    RetryRun.StaysRight serverObj events ⟨contextP, fun _ => {}⟩ ↔
      contextP.MeetsAll serverObj events :=
  RetryRun.staysRight_iff (RetryRun.right_of_idle hidle)

/-- A Server Object without the optional resources: five attempts, a minute apart, in one
sequence. -/
def defaultServerObject : ServerObject where
  readUint _ _ := .error coap404NotFound
  readBoolean _ _ := .error coap404NotFound

/-- A client with one server. -/
def onlyServer (server : RetryServer) : RetryContext where
  serverList := [server]

/-- A registration is sent, refused, and sent again after the hold-off. -/
def refusedOnce : List RetryEvent :=
  let outcomes : ℕ → RegisterOutcome := fun _ => ⟨true, some 7, true⟩
  [.start 100 false, .step 100 60 outcomes, .reply 110 0 none, .step 170 60 outcomes]

/-- The connection for a registration is refused. -/
def connectionRefused : List RetryEvent :=
  .start 100 false :: List.replicate 6 (.step 100 60 fun _ => ⟨true, none, false⟩)

/-- An event does well by the only server. -/
theorem meetsAll_cons
    (hnext : (onlyServer server).next serverObj event = some (onlyServer server')) :
    (onlyServer server).MeetsAll serverObj (event :: events) ↔
      Meets serverObj 0 server event ∧ (onlyServer server').MeetsAll serverObj events := by
  rw [RetryContext.MeetsAll, hnext]
  constructor
  · rintro ⟨hmeets, hrest⟩
    exact ⟨hmeets 0 server rfl, hrest _ rfl⟩
  · rintro ⟨hmeets, hrest⟩
    refine ⟨fun index server'' hget => ?_, fun contextP' h => Option.some.inj h ▸ hrest⟩
    cases index with
    | zero => exact Option.some.inj hget ▸ hmeets
    | succ index => cases hget

theorem refusedOnce_staysRight :
    RetryRun.StaysRight (some defaultServerObject) refusedOnce
      ⟨onlyServer { servObjInstID := 0 }, fun _ => {}⟩ := by
  refine (registration_retriesRight_iff _ _ _ (by decide)).mpr ?_
  have hstart : (onlyServer { servObjInstID := 0 }).next (some defaultServerObject)
      (.start 100 false) = some (onlyServer ⟨0, .regHoldOff, none, 100, 0, 0⟩) := by decide
  have hfirst : (onlyServer ⟨0, .regHoldOff, none, 100, 0, 0⟩).next (some defaultServerObject)
      (.step 100 60 fun _ => ⟨true, some 7, true⟩) =
        some (onlyServer ⟨0, .regPending, some 7, 100, 1, 1⟩) := by decide
  have hrefused : (onlyServer ⟨0, .regPending, some 7, 100, 1, 1⟩).next (some defaultServerObject)
      (.reply 110 0 none) = some (onlyServer ⟨0, .regHoldOff, some 7, 170, 1, 1⟩) := by decide
  have hsecond : (onlyServer ⟨0, .regHoldOff, some 7, 170, 1, 1⟩).next (some defaultServerObject)
      (.step 170 60 fun _ => ⟨true, some 7, true⟩) =
        some (onlyServer ⟨0, .regPending, some 7, 170, 2, 1⟩) := by decide
  have hfits : RetryFits (some defaultServerObject) 110 ⟨0, .regPending, some 7, 100, 1, 1⟩ := by
    rw [RetryFits, if_pos (by decide)]
    decide
  refine (meetsAll_cons hstart).mpr ⟨trivial, (meetsAll_cons hfirst).mpr
    ⟨fun _ => by decide, (meetsAll_cons hrefused).mpr ⟨fun _ _ _ => hfits,
      (meetsAll_cons hsecond).mpr ⟨fun _ => by decide, trivial⟩⟩⟩⟩

/-- **Tries that are not sent are not counted**: six connections are refused, where five attempts
are allowed, and the server waits for the next one as if none had been made. -/
theorem connectionRefused_not_staysRight :
    ¬ RetryRun.StaysRight (some defaultServerObject) connectionRefused
        ⟨onlyServer { servObjInstID := 0 }, fun _ => {}⟩ ∧
      (connectionRefused.foldlM (RetryRun.next (some defaultServerObject))
        ⟨onlyServer { servObjInstID := 0 }, fun _ => {}⟩).map (fun run =>
          (run.contextP.serverList, (run.history 0).failed)) =
        some ([{ servObjInstID := 0, status := .regHoldOff, registration := 100 }], 6) ∧
      allowed (some defaultServerObject) 0 = 5 := by
  refine ⟨fun h => ?_, by decide, by decide⟩
  rw [RetryRun.staysRight_iff (RetryRun.right_of_idle (by decide))] at h
  have hstart : (onlyServer { servObjInstID := 0 }).next (some defaultServerObject)
      (.start 100 false) = some (onlyServer ⟨0, .regHoldOff, none, 100, 0, 0⟩) := by decide
  have hstep : (onlyServer ⟨0, .regHoldOff, none, 100, 0, 0⟩).next (some defaultServerObject)
      (.step 100 60 fun _ => ⟨true, none, false⟩) =
        some (onlyServer ⟨0, .regHoldOff, none, 100, 0, 0⟩) := by decide
  have hmeets := ((meetsAll_cons hstep).mp ((meetsAll_cons hstart).mp h).2).1
  exact absurd (hmeets (by decide)) (by decide)

end Lwm2m.Core

/-
# Registrations that are tried again

The hold-off of `core/registration.c`: `registration_start` schedules the registrations,
`registration_step` starts the one of a server whose hold-off is over, and the callback of a
registration that fails schedules the next attempt, the next sequence, or gives up.  The limits and
delays come from the Server Object, where each of them is optional.

Times are `time_t`, signed numbers of 64 bits; a callback reads the clock once.
-/

import Lwm2m.Core.RegistrationMemory

namespace Lwm2m.Core

open Coap Code Library

/-! ### State -/

/-- What the registrations use of `lwm2m_server_t`. -/
structure RetryServer where
  servObjInstID : UInt16
  status : Status := .deregistered
  sessionH : Session := none
  registration : Int64 := 0
  attempt : UInt8 := 0
  sequence : UInt8 := 0
  deriving DecidableEq, Repr

/-- What the registrations use of `lwm2m_context_t`. -/
structure RetryContext where
  state : ClientState := .registering
  serverList : List RetryServer
  deriving DecidableEq, Repr

/-- `prv_readUint` and `prv_readBoolean` on an instance of the Server Object: the value, or a code
that is not `COAP_NO_ERROR`. -/
structure ServerObject where
  readUint : UInt16 → UInt16 → Except Code UInt64
  readBoolean : UInt16 → UInt16 → Except Code Bool

/-! ### Limits -/

/-- `LWM2M_SERVER_REG_ORDER_ID`. -/
def lwm2mServerRegOrderId : UInt16 := 13
/-- `LWM2M_SERVER_INITIAL_REG_DELAY_ID`. -/
def lwm2mServerInitialRegDelayId : UInt16 := 14
/-- `LWM2M_SERVER_REG_FAIL_BLOCK_ID`. -/
def lwm2mServerRegFailBlockId : UInt16 := 15
/-- `LWM2M_SERVER_REG_FAIL_BOOTSTRAP_ID`. -/
def lwm2mServerRegFailBootstrapId : UInt16 := 16
/-- `LWM2M_SERVER_COMM_RETRY_COUNT_ID`. -/
def lwm2mServerCommRetryCountId : UInt16 := 17
/-- `LWM2M_SERVER_COMM_RETRY_TIMER_ID`. -/
def lwm2mServerCommRetryTimerId : UInt16 := 18
/-- `LWM2M_SERVER_SEQ_DELAY_TIMER_ID`. -/
def lwm2mServerSeqDelayTimerId : UInt16 := 19
/-- `LWM2M_SERVER_SEQ_RETRY_COUNT_ID`. -/
def lwm2mServerSeqRetryCountId : UInt16 := 20

/-- The default takes the place of a resource that is not there. -/
def orDefault {α : Type} (value : α) : Except Code α → Except Code α
  | .error code => if code = coap404NotFound then .ok value else .error code
  | result => result

/-- A limit, at most 254, and the delay that goes with it. -/
def readLimit (serverObj : ServerObject) (servObjInstID limitId delayId : UInt16)
    (limit delay : UInt64) : Except Code (UInt8 × UInt64) := do
  let limit ← orDefault limit (serverObj.readUint servObjInstID limitId)
  let delay ← orDefault delay (serverObj.readUint servObjInstID delayId)
  return ((if limit > 254 then 254 else limit).toUInt8, delay)

/-- `prv_getRegistrationAttemptLimit`. -/
def prvGetRegistrationAttemptLimit (serverObj : ServerObject) (servObjInstID : UInt16) :
    Except Code (UInt8 × UInt64) :=
  readLimit serverObj servObjInstID lwm2mServerCommRetryCountId lwm2mServerCommRetryTimerId 5 60

/-- `prv_getRegistrationSequenceLimit`. -/
def prvGetRegistrationSequenceLimit (serverObj : ServerObject) (servObjInstID : UInt16) :
    Except Code (UInt8 × UInt64) :=
  readLimit serverObj servObjInstID lwm2mServerSeqRetryCountId lwm2mServerSeqDelayTimerId 1 86400

/-- `prv_getRegistrationOrder`: the order of a server that has one. -/
def prvGetRegistrationOrder (serverObj : ServerObject) (servObjInstID : UInt16) :
    Except Code (Option UInt64) :=
  orDefault none ((serverObj.readUint servObjInstID lwm2mServerRegOrderId).map some)

/-- `prv_getRegistrationFailureBlocking`. -/
def prvGetRegistrationFailureBlocking (serverObj : ServerObject) (servObjInstID : UInt16) :
    Except Code Bool :=
  orDefault false (serverObj.readBoolean servObjInstID lwm2mServerRegFailBlockId)

/-- `prv_getBootstrapOnRegistrationFailure`. -/
def prvGetBootstrapOnRegistrationFailure (serverObj : ServerObject) (servObjInstID : UInt16) :
    Except Code Bool :=
  orDefault true (serverObj.readBoolean servObjInstID lwm2mServerRegFailBootstrapId)

/-! ### Scheduling -/

/-- The sum of a `time_t` and a `uint64_t`, as a `time_t`. -/
def addDelay (time : Int64) (delay : UInt64) : Int64 := (time.toUInt64 + delay).toInt64

/-- `1 << n` for an `int` of 32 bits, `none` where C leaves it undefined. -/
def shiftedOne (n : ℤ) : Option UInt64 :=
  if 0 ≤ n ∧ n < 31 then some (UInt64.ofNat (2 ^ n.toNat)) else none

/-- The delay before a registration that `prv_startRegistration` starts. -/
def initialDelay (serverObj : ServerObject) (servObjInstID : UInt16) : Except Code UInt64 :=
  orDefault 0 (serverObj.readUint servObjInstID lwm2mServerInitialRegDelayId)

/-- `prv_startRegistration`. -/
def prvStartRegistration (serverObj : ServerObject) (now : Int64) (targetP : RetryServer) :
    RetryServer × Code :=
  match initialDelay serverObj targetP.servObjInstID with
  | .ok delay =>
    ({ targetP with registration := addDelay now delay, status := .regHoldOff }, noError)
  | .error code => (targetP, code)

/-- The loop of `registration_start`; `index` is the place of the server in the list, and
`firstOrdered` the order and the place of the first server that has an order. -/
def registrationStartLoop (serverObj : ServerObject) (now : Int64) (restartFailed : Bool) :
    List RetryServer → ℕ → Option (UInt64 × ℕ) → List RetryServer × Option (UInt64 × ℕ) × Code
  | [], _, firstOrdered => ([], firstOrdered, noError)
  | targetP :: rest, index, firstOrdered =>
    if targetP.status = .deregistered ∨ restartFailed = true ∧ targetP.status = .regFailed then
      let targetP := { targetP with attempt := 0, sequence := 0 }
      match prvGetRegistrationOrder serverObj targetP.servObjInstID with
      | .error code => (targetP :: rest, firstOrdered, code)
      | .ok (some order) =>
        let firstOrdered :=
          match firstOrdered with
          | none => some (order, index)
          | some (firstOrder, first) =>
            if order < firstOrder then some (order, index) else some (firstOrder, first)
        let (rest, result) :=
          registrationStartLoop serverObj now restartFailed rest (index + 1) firstOrdered
        (targetP :: rest, result)
      | .ok none =>
        let (targetP, code) := prvStartRegistration serverObj now targetP
        if code = noError then
          let (rest, result) :=
            registrationStartLoop serverObj now restartFailed rest (index + 1) firstOrdered
          (targetP :: rest, result)
        else (targetP :: rest, firstOrdered, code)
    else
      let (rest, result) :=
        registrationStartLoop serverObj now restartFailed rest (index + 1) firstOrdered
      (targetP :: rest, result)

/-- `registration_start`. -/
def registrationStart (serverObj : Option ServerObject) (now : Int64) (restartFailed : Bool)
    (contextP : RetryContext) : RetryContext × Code :=
  match serverObj with
  | none => (contextP, coap500InternalServerError)
  | some serverObj =>
    let (serverList, firstOrdered, result) :=
      registrationStartLoop serverObj now restartFailed contextP.serverList 0 none
    match firstOrdered.bind fun first =>
      serverList[first.2]?.map fun server => (first.2, server) with
    | some (index, targetP) =>
      let (targetP, result) := prvStartRegistration serverObj now targetP
      ({ contextP with serverList := serverList.set index targetP }, result)
    | none => ({ contextP with serverList }, result)

/-! ### Trying -/

/-- What the calls in `prv_register` return. -/
structure RegisterOutcome where
  /-- The payload and the query are built. -/
  built : Bool
  /-- `lwm2m_connect_server`. -/
  connect : Session
  /-- The transaction is made and sent. -/
  sent : Bool
  deriving DecidableEq, Repr

/-- `prv_register`.  The callback of a transaction that cannot be sent finds no pending registration
and does nothing. -/
def prvRegister (outcome : RegisterOutcome) (server : RetryServer) : RetryServer × Code :=
  if outcome.built = false then (server, coap500InternalServerError)
  else
    let server := { server with sessionH := server.sessionH.or outcome.connect }
    if server.sessionH = none ∨ outcome.sent = false then (server, coap503ServiceUnavailable)
    else
      let server := if server.attempt = 0 then { server with sequence := server.sequence + 1 }
        else server
      ({ server with attempt := server.attempt + 1, status := .regPending }, noError)

/-- The hold-off of a server is over. -/
def IsDue (currentTime : Int64) (server : RetryServer) : Prop :=
  server.status = .regHoldOff ∧ server.registration.toInt ≤ currentTime.toInt

instance (currentTime : Int64) (server : RetryServer) : Decidable (IsDue currentTime server) :=
  inferInstanceAs (Decidable (_ ∧ _))

/-- What `registration_step` does with a server that is not registered, and the timeout. -/
def registrationStepServer (outcome : RegisterOutcome) (currentTime : Int64) (timeout : ℤ)
    (targetP : RetryServer) : RetryServer × ℤ :=
  match targetP.status with
  | .regHoldOff =>
    let interval := targetP.registration.toInt - currentTime.toInt
    if 0 ≥ interval then ((prvRegister outcome targetP).1, timeout)
    else (targetP, if interval ≤ timeout then interval else timeout)
  | .regFailed => ({ targetP with sessionH := none }, timeout)
  | _ => (targetP, timeout)

/-- `registration_step`, with an outcome for each place in the list. -/
def registrationStep (outcomes : ℕ → RegisterOutcome) (currentTime : Int64) :
    ℤ → List RetryServer → List RetryServer × ℤ
  | timeout, [] => ([], timeout)
  | timeout, targetP :: rest =>
    let (targetP, timeout) := registrationStepServer (outcomes 0) currentTime timeout targetP
    let (rest, timeout) := registrationStep (fun i => outcomes (i + 1)) currentTime timeout rest
    (targetP :: rest, timeout)

/-! ### Failing -/

/-- A server that waits for its turn fails with the ones before it. -/
def failOrdered (serverObj : ServerObject) (targetP : RetryServer) : RetryServer :=
  if targetP.status = .deregistered then
    match prvGetRegistrationOrder serverObj targetP.servObjInstID with
    | .ok (some _) => { targetP with status := .regFailed }
    | _ => targetP
  else targetP

/-- The first part of `prv_handleRegistrationSequenceFailure`: whether the server has an order and
blocks the ones behind it, and the context in which the next one is started. -/
def startNextOrdered (serverObj : ServerObject) (now : Int64) (targetP : RetryServer)
    (contextP : RetryContext) : Bool × Bool × RetryContext :=
  match prvGetRegistrationOrder serverObj targetP.servObjInstID with
  | .ok (some _) =>
    match prvGetRegistrationFailureBlocking serverObj targetP.servObjInstID with
    | .ok blocking =>
      (true, blocking,
        if blocking = false ∧ targetP.sequence = 1 then
          (registrationStart (some serverObj) now false contextP).1
        else contextP)
    | .error _ => (true, false, contextP)
  | _ => (false, false, contextP)

/-- `prv_handleRegistrationSequenceFailure` for the server at a place in the list. -/
def prvHandleRegistrationSequenceFailure (serverObj : ServerObject) (now : Int64) (index : ℕ)
    (targetP : RetryServer) (contextP : RetryContext) : RetryContext :=
  let (ordered, blocking, contextP) := startNextOrdered serverObj now targetP contextP
  let setTarget (targetP : RetryServer) : RetryContext :=
    { contextP with serverList := contextP.serverList.set index targetP }
  match prvGetRegistrationSequenceLimit serverObj targetP.servObjInstID with
  | .error _ => setTarget { targetP with status := .regFailed }
  | .ok (sequenceLimit, sequenceDelay) =>
    if targetP.sequence ≥ sequenceLimit then
      let contextP := setTarget { targetP with status := .regFailed }
      match prvGetBootstrapOnRegistrationFailure serverObj targetP.servObjInstID with
      | .ok false =>
        if ordered && blocking then
          { contextP with serverList := contextP.serverList.map (failOrdered serverObj) }
        else contextP
      | _ => { contextP with state := .bootstrapRequired }
    else
      setTarget { targetP with
        registration := addDelay now sequenceDelay
        status := .regHoldOff
        attempt := 0 }

/-- `prv_handleRegistrationAttemptFailure` for the server at a place in the list, `none` where the
shift is undefined. -/
def prvHandleRegistrationAttemptFailure (serverObj : Option ServerObject) (now : Int64) (index : ℕ)
    (targetP : RetryServer) (contextP : RetryContext) : Option RetryContext :=
  let setTarget (targetP : RetryServer) : RetryContext :=
    { contextP with serverList := contextP.serverList.set index targetP }
  match serverObj with
  | none => some (setTarget { targetP with status := .regFailed })
  | some serverObj =>
    match prvGetRegistrationAttemptLimit serverObj targetP.servObjInstID with
    | .error _ => some (setTarget { targetP with status := .regFailed })
    | .ok (attemptLimit, attemptDelay) =>
      if targetP.attempt ≥ attemptLimit then
        some (prvHandleRegistrationSequenceFailure serverObj now index targetP contextP)
      else
        (shiftedOne ((targetP.attempt.toNat : ℤ) - 1)).map fun factor =>
          setTarget { targetP with
            registration := addDelay now (attemptDelay * factor)
            status := .regHoldOff }

/-! ### Replies -/

/-- The next ordered registration is started when one succeeds in its first sequence, or when it
does not block the others. -/
def startNextRegistered (serverObj : Option ServerObject) (now : Int64) (targetP : RetryServer)
    (contextP : RetryContext) : RetryContext :=
  match serverObj with
  | none => contextP
  | some serverObj =>
    match prvGetRegistrationOrder serverObj targetP.servObjInstID with
    | .ok (some _) =>
      if targetP.sequence = 1 then (registrationStart (some serverObj) now false contextP).1
      else
        match prvGetRegistrationFailureBlocking serverObj targetP.servObjInstID with
        | .ok false => (registrationStart (some serverObj) now false contextP).1
        | _ => contextP
    | _ => contextP

/-- `prv_handleRegistrationReply` for the server at a place in the list; `packet` is `none` when the
transaction gives up. -/
def prvHandleRegistrationReply (serverObj : Option ServerObject) (now : Int64) (index : ℕ)
    (packet : Option Packet) (contextP : RetryContext) : Option RetryContext :=
  match contextP.serverList[index]? with
  | none => some contextP
  | some server =>
    if server.status = .regPending then
      let server := if 0 ≤ now.toInt then { server with registration := now } else server
      let setServer (server : RetryServer) : RetryContext :=
        { contextP with serverList := contextP.serverList.set index server }
      if asksForMore packet then some (setServer server)
      else if packet.map Packet.code = some coap201Created then
        let server := { server with status := .registered }
        some (startNextRegistered serverObj now server (setServer server))
      else prvHandleRegistrationAttemptFailure serverObj now index server (setServer server)
    else some contextP

/-! ### Runs -/

/-- What happens to the registrations. -/
inductive RetryEvent
  /-- `registration_start` is called. -/
  | start (now : Int64) (restartFailed : Bool)
  /-- `registration_step` is called; each place in the list has its outcome. -/
  | step (currentTime : Int64) (timeout : ℤ) (outcomes : ℕ → RegisterOutcome)
  /-- The transaction of a registration is answered, or gives up. -/
  | reply (now : Int64) (index : ℕ) (packet : Option Packet)

/-- One event, `none` where C leaves it undefined. -/
def RetryContext.next (serverObj : Option ServerObject) (contextP : RetryContext) :
    RetryEvent → Option RetryContext
  | .start now restartFailed => some (registrationStart serverObj now restartFailed contextP).1
  | .step currentTime timeout outcomes =>
    some { contextP with
      serverList := (registrationStep outcomes currentTime timeout contextP.serverList).1 }
  | .reply now index packet => prvHandleRegistrationReply serverObj now index packet contextP

end Lwm2m.Core

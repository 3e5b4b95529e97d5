/-
# The order of the registrations

Servers with a Registration Priority Order are registered one after the other.  A server waits until
it is the lowest of those that wait and the turn is handed over to it; it holds the turn until it
has registered, has failed for good or, when it does not block the others, the attempts of its first
sequence have failed.  `turnOf` reads this off the server, and every event is a step of the turns
(`Library.TurnStep`) as long as no server registers in a later sequence while another one waits:
the next server is started then when the first one does *not* block, where it should be started
when it does.
-/

import Lwm2m.Core.RetryBound
import Lwm2m.Library.Turns

namespace Lwm2m.Core

open Coap Code Library

/-! ### The turn of a server -/

section

variable (serverObj : ServerObject)

/-- What the registrations of a server read of the Server Object is there or has a default. -/
structure Configured (servObjInstID : UInt16) : Prop where
  order : ∃ order, prvGetRegistrationOrder serverObj servObjInstID = .ok order
  blocking : ∃ blocking, prvGetRegistrationFailureBlocking serverObj servObjInstID = .ok blocking
  delay : ∃ delay, initialDelay serverObj servObjInstID = .ok delay
  attempts : ∃ settings, prvGetRegistrationAttemptLimit serverObj servObjInstID = .ok settings
  sequences : ∃ settings, prvGetRegistrationSequenceLimit serverObj servObjInstID = .ok settings

/-- The Registration Priority Order of a server that has one. -/
def registrationOrder (server : RetryServer) : Option UInt64 :=
  match prvGetRegistrationOrder serverObj server.servObjInstID with
  | .ok order => order
  | .error _ => none

/-- A failed registration of the server blocks the ones behind it. -/
def isBlocking (server : RetryServer) : Bool :=
  match prvGetRegistrationFailureBlocking serverObj server.servObjInstID with
  | .ok blocking => blocking
  | .error _ => false

/-- A bootstrap is ordered when the registration of the server has failed for good. -/
def ordersBootstrap (server : RetryServer) : Bool :=
  match prvGetBootstrapOnRegistrationFailure serverObj server.servObjInstID with
  | .ok bootstrap => bootstrap
  | .error _ => true

/-- The attempts of the first sequence have failed. -/
def FirstSequenceFailed (server : RetryServer) : Prop :=
  1 < server.sequence ∨ server.sequence = 1 ∧ server.attempt = 0

instance (server : RetryServer) : Decidable (FirstSequenceFailed server) :=
  inferInstanceAs (Decidable (_ ∨ _))

/-- **How a server stands to the turn**: it waits until its registration is started, and holds the
turn until it has registered, has failed for good or, when it does not block, its first sequence has
failed. -/
def turnOf (server : RetryServer) : Turn :=
  if registrationOrder serverObj server = none then .apart
  else
    match server.status with
    | .deregistered => .waits
    | .regHoldOff | .regPending =>
      if isBlocking serverObj server = false ∧ FirstSequenceFailed server then .passed else .holds
    | _ => .passed

/-- The order of the first server is lower than that of the second. -/
def ComesBefore (first second : RetryServer) : Prop :=
  ∃ order order', registrationOrder serverObj first = some order ∧
    registrationOrder serverObj second = some order' ∧ order < order'

end

/-! ### What is right -/

section

variable (serverObj : ServerObject) (servers servers' : List RetryServer)

/-- The server at some place is `server` before and `server'` after. -/
def SamePlace (server server' : RetryServer) : Prop :=
  ∃ i : ℕ, servers[i]? = some server ∧ servers'[i]? = some server'

/-- A server whose registration is started comes behind those only that have had their turn. -/
def StartsInOrder : Prop :=
  ∀ server server', SamePlace servers servers' server server' → IsIdle server →
    server'.status = .regHoldOff → ∀ lower ∈ servers', ComesBefore serverObj lower server' →
      turnOf serverObj lower = .passed

/-- The registration of the lowest server that waits is started, if one waits. -/
def StartsNext : Prop :=
  (∃ server ∈ servers, turnOf serverObj server = .waits) →
    ∃ server server', SamePlace servers servers' server server' ∧
      turnOf serverObj server = .waits ∧ server'.status = .regHoldOff ∧
      ∀ other ∈ servers, turnOf serverObj other = .waits → ¬ ComesBefore serverObj other server

/-- Every server that waits fails for good. -/
def AllGiveUp : Prop :=
  ∀ server server', SamePlace servers servers' server server' → turnOf serverObj server = .waits →
    server'.status = .regFailed

end

section

variable (serverObj : ServerObject)

/-- A server waits behind one that holds the turn only, unless a bootstrap is ordered. -/
def NoneStranded (contextP : RetryContext) : Prop :=
  contextP.state ≠ .bootstrapRequired → ∀ server ∈ contextP.serverList,
    turnOf serverObj server = .waits → ∃ holder ∈ contextP.serverList,
      turnOf serverObj holder = .holds ∧ ¬ ComesBefore serverObj server holder

/-- **An event takes the registrations in their order**: a server is started when those before it
have had their turn; the next one is started when a server has registered, and when the first
sequence of one that does not block has failed; those that wait fail with a blocking one that fails
for good and orders no bootstrap; and none is left behind. -/
structure TakesTurns (contextP contextP' : RetryContext) : Prop where
  inOrder : StartsInOrder serverObj contextP.serverList contextP'.serverList
  registered : ∀ server server',
    SamePlace contextP.serverList contextP'.serverList server server' →
    registrationOrder serverObj server ≠ none → server.status = .regPending →
    server'.status = .registered →
    StartsNext serverObj contextP.serverList contextP'.serverList
  sequenceFailed : ∀ server server',
    SamePlace contextP.serverList contextP'.serverList server server' →
    isBlocking serverObj server = false → turnOf serverObj server = .holds →
    turnOf serverObj server' = .passed →
    StartsNext serverObj contextP.serverList contextP'.serverList
  blockingFailed : ∀ server server',
    SamePlace contextP.serverList contextP'.serverList server server' →
    registrationOrder serverObj server ≠ none → isBlocking serverObj server = true →
    server.status = .regPending → server'.status = .regFailed →
    if ordersBootstrap serverObj server then contextP'.state = .bootstrapRequired
    else AllGiveUp serverObj contextP.serverList contextP'.serverList
  noneStranded : NoneStranded serverObj contextP'

/-- The order without exceptions: the next server is started whenever one has registered, or has
failed for good and orders no bootstrap. -/
structure FollowsOrder (contextP contextP' : RetryContext) : Prop where
  inOrder : StartsInOrder serverObj contextP.serverList contextP'.serverList
  startsNext : ∀ server server',
    SamePlace contextP.serverList contextP'.serverList server server' →
    registrationOrder serverObj server ≠ none → server.status = .regPending →
    server'.status = .registered ∨
      server'.status = .regFailed ∧ contextP'.state ≠ .bootstrapRequired →
    StartsNext serverObj contextP.serverList contextP'.serverList

/-- A server that registers does so in its first sequence, or no other one waits. -/
def RegistersInTime (contextP : RetryContext) : RetryEvent → Prop
  | .start _ _ | .step _ _ _ => True
  | .reply _ index packet => packet.map Packet.code = some coap201Created →
    ∀ server, contextP.serverList[index]? = some server → server.status = .regPending →
      registrationOrder serverObj server ≠ none → server.sequence = 1 ∨
        ∀ other ∈ contextP.serverList, turnOf serverObj other ≠ .waits

end

/-! ### Starting -/

variable {servers : List RetryServer} {i index : ℕ} {server server' : RetryServer} {order : UInt64}
  {serverObj : Option ServerObject}

section

variable {serverObj : ServerObject}

/-- The turns of the servers, by their places. -/
def turns (serverObj : ServerObject) (servers : List RetryServer) (i : ℕ) : Turn :=
  servers[i]?.elim .apart (turnOf serverObj)

/-- The orders of the servers, by their places. -/
def orders (serverObj : ServerObject) (servers : List RetryServer) (i : ℕ) : ℕ :=
  (servers[i]?.bind (registrationOrder serverObj)).elim 0 UInt64.toNat

theorem turns_eq (h : servers[i]? = some server) :
    turns serverObj servers i = turnOf serverObj server := by
  rw [turns, h]
  rfl

theorem turnOf_eq_apart_iff :
    turnOf serverObj server = .apart ↔ registrationOrder serverObj server = none := by
  rw [turnOf]
  split_ifs <;> cases server.status <;> simp [*]

theorem turnOf_eq_waits_iff :
    turnOf serverObj server = .waits ↔
      registrationOrder serverObj server ≠ none ∧ server.status = .deregistered := by
  rw [turnOf]
  split_ifs <;> cases server.status <;> simp [*]

/-- The order does not depend on the progress of the registration. -/
theorem registrationOrder_congr (h : server'.servObjInstID = server.servObjInstID) :
    registrationOrder serverObj server' = registrationOrder serverObj server := by
  rw [registrationOrder, h, registrationOrder]

/-- The turn of a server without a registration under way is a matter of its status. -/
theorem turnOf_idle (hidle : IsIdle server) (hid : server'.servObjInstID = server.servObjInstID)
    (hstatus : server'.status = server.status) :
    turnOf serverObj server' = turnOf serverObj server := by
  rw [turnOf, turnOf, registrationOrder_congr hid, hstatus]
  obtain h | h := hidle <;> rw [h]

/-- A server whose registration is started holds the turn. -/
theorem turnOf_started (horder : registrationOrder serverObj server ≠ none)
    (hstatus : server.status = .regHoldOff) (hsequence : server.sequence = 0) :
    turnOf serverObj server = .holds := by
  rw [turnOf, if_neg horder, hstatus]
  rw [if_neg]
  rw [FirstSequenceFailed, hsequence]
  simp

theorem prvStartRegistration_eq (now : Int64) (server : RetryServer) {delay : UInt64}
    (hdelay : initialDelay serverObj server.servObjInstID = .ok delay) :
    prvStartRegistration serverObj now server =
      ({ server with registration := addDelay now delay, status := .regHoldOff }, noError) := by
  rw [prvStartRegistration, hdelay]

/-- The server is one of those that `registration_start` starts, and has an order. -/
def Candidate (serverObj : ServerObject) (restartFailed : Bool) (server : RetryServer)
    (order : UInt64) : Prop :=
  (server.status = .deregistered ∨ restartFailed = true ∧ server.status = .regFailed) ∧
    registrationOrder serverObj server = some order

/-- What the loop of `registration_start` finds from a place on: a server of the lowest order. -/
structure FindsFirst (serverObj : ServerObject) (restartFailed : Bool) (servers : List RetryServer)
    (index : ℕ) (firstOrdered firstOrdered' : Option (UInt64 × ℕ)) : Prop where
  found : ∀ first, firstOrdered' = some first → firstOrdered = some first ∨ ∃ k server,
    first.2 = index + k ∧ servers[k]? = some server ∧
      Candidate serverObj restartFailed server first.1
  le_first : ∀ first, firstOrdered = some first → ∃ first', firstOrdered' = some first' ∧
    first'.1 ≤ first.1
  le : ∀ server ∈ servers, ∀ order, Candidate serverObj restartFailed server order →
    ∃ first', firstOrdered' = some first' ∧ first'.1 ≤ order

variable {rest : List RetryServer}

variable {restartFailed : Bool} {firstOrdered firstOrdered' : Option (UInt64 × ℕ)}

/-- A server that is no candidate is passed over. -/
theorem FindsFirst.skip (hnot : ∀ order, ¬ Candidate serverObj restartFailed server order)
    (h : FindsFirst serverObj restartFailed rest (index + 1) firstOrdered firstOrdered') :
    FindsFirst serverObj restartFailed (server :: rest) index firstOrdered firstOrdered' where
  found first hfirst := (h.found first hfirst).imp_right fun ⟨k, target, hplace, hget, htarget⟩ =>
    ⟨k + 1, target, by omega, hget, htarget⟩
  le_first := h.le_first
  le target hmem order htarget := by
    obtain rfl | hmem := List.mem_cons.mp hmem
    · exact absurd htarget (hnot order)
    · exact h.le target hmem order htarget

/-- A candidate becomes the first one when its order is lower. -/
theorem FindsFirst.cons {next : Option (UInt64 × ℕ)}
    (hserver : Candidate serverObj restartFailed server order)
    (hnext : next = some (order, index) ∧ (∀ first, firstOrdered = some first → order ≤ first.1) ∨
      next = firstOrdered ∧ ∃ first, firstOrdered = some first ∧ first.1 ≤ order)
    (h : FindsFirst serverObj restartFailed rest (index + 1) next firstOrdered') :
    FindsFirst serverObj restartFailed (server :: rest) index firstOrdered firstOrdered' where
  found first hfirst := by
    obtain hbefore | ⟨k, target, hplace, hget, htarget⟩ := h.found first hfirst
    · obtain ⟨hthis, -⟩ | ⟨hsame, -⟩ := hnext
      · obtain rfl := Option.some.inj (hthis.symm.trans hbefore)
        exact .inr ⟨0, server, rfl, rfl, hserver⟩
      · exact .inl (hsame ▸ hbefore)
    · exact .inr ⟨k + 1, target, by omega, hget, htarget⟩
  le_first first hfirst := by
    obtain ⟨hthis, hle⟩ | ⟨hsame, -⟩ := hnext
    · obtain ⟨first', hfirst', hle'⟩ := h.le_first _ hthis
      exact ⟨first', hfirst', UInt64.le_trans hle' (hle first hfirst)⟩
    · exact h.le_first first (hsame ▸ hfirst)
  le target hmem order' htarget := by
    obtain rfl | hmem := List.mem_cons.mp hmem
    · obtain rfl := Option.some.inj (hserver.2.symm.trans htarget.2)
      obtain ⟨hthis, -⟩ | ⟨hsame, first, hfirst, hle⟩ := hnext
      · exact h.le_first _ hthis
      · obtain ⟨first', hfirst', hle'⟩ := h.le_first first (hsame ▸ hfirst)
        exact ⟨first', hfirst', UInt64.le_trans hle' hle⟩
    · exact h.le target hmem order' htarget

theorem turns_cons {rest' : List RetryServer}
    (hserver : turnOf serverObj server' = turnOf serverObj server)
    (hrest : turns serverObj rest' = turns serverObj rest) :
    turns serverObj (server' :: rest') = turns serverObj (server :: rest) := by
  funext i
  cases i with
  | zero => exact hserver
  | succ i => exact congrFun hrest i

/-- **The loop finds the first server that has an order**, and leaves the turns as they are. -/
theorem registrationStartLoop_findsFirst (now : Int64) (restartFailed : Bool)
    (hconfigured : ∀ server ∈ servers, Configured serverObj server.servObjInstID) (index : ℕ)
    (firstOrdered : Option (UInt64 × ℕ)) :
    let result := registrationStartLoop serverObj now restartFailed servers index firstOrdered
    FindsFirst serverObj restartFailed servers index firstOrdered result.2.1 ∧
      turns serverObj result.1 = turns serverObj servers ∧ result.2.2 = noError := by
  induction servers generalizing index firstOrdered with
  | nil =>
    exact ⟨⟨fun _ h => .inl h, fun first h => ⟨first, h, UInt64.le_refl _⟩,
      fun _ hmem => absurd hmem List.not_mem_nil⟩, rfl, rfl⟩
  | cons server rest ih =>
    have hrest := fun target hmem => hconfigured target (List.mem_cons_of_mem server hmem)
    have hserver := hconfigured server List.mem_cons_self
    rw [registrationStartLoop]
    by_cases hstart : server.status = .deregistered ∨
        restartFailed = true ∧ server.status = .regFailed
    · have hidle : IsIdle server := hstart.imp_right And.right
      have hreset : turnOf serverObj { server with attempt := 0, sequence := 0 } =
          turnOf serverObj server := turnOf_idle hidle rfl rfl
      rw [if_pos hstart]
      dsimp only
      obtain ⟨order, horder⟩ := hserver.order
      have hregistrationOrder : registrationOrder serverObj server = order := by
        rw [registrationOrder, horder]
      rw [horder]
      cases order with
      | some order =>
        have hnext := ih hrest (index + 1)
        refine ⟨(hnext _).1.cons ⟨hstart, hregistrationOrder⟩ ?_,
          turns_cons hreset (hnext _).2.1, (hnext _).2.2⟩
        cases firstOrdered with
        | none => exact .inl ⟨rfl, fun _ h => by cases h⟩
        | some first =>
          dsimp only
          split_ifs with hlt
          · refine .inl ⟨rfl, fun first' hfirst => ?_⟩
            obtain rfl := Option.some.inj hfirst
            exact UInt64.le_of_lt hlt
          · exact .inr ⟨rfl, first, rfl, UInt64.not_lt.mp hlt⟩
      | none =>
        obtain ⟨delay, hdelay⟩ := hserver.delay
        have hapart {server' : RetryServer} (hid : server'.servObjInstID = server.servObjInstID) :
            turnOf serverObj server' = turnOf serverObj server := by
          rw [turnOf_eq_apart_iff.mpr hregistrationOrder, turnOf_eq_apart_iff,
            registrationOrder_congr hid, hregistrationOrder]
        rw [prvStartRegistration_eq now { server with attempt := 0, sequence := 0 } hdelay]
        rw [if_pos rfl]
        obtain ⟨hfinds, hturns, hresult⟩ := ih hrest (index + 1) firstOrdered
        refine ⟨hfinds.skip fun order h => ?_, turns_cons (hapart rfl) hturns, hresult⟩
        cases hregistrationOrder.symm.trans h.2
    · rw [if_neg hstart]
      obtain ⟨hfinds, hturns, hresult⟩ := ih hrest (index + 1) firstOrdered
      exact ⟨hfinds.skip fun order h => hstart h.1, turns_cons rfl hturns, hresult⟩

/-- What `registration_start` does: the candidate of the lowest order, if there is one, is given the
turn. -/
structure StartsFirst (serverObj : ServerObject) (restartFailed : Bool) (next : Option ℕ)
    (servers servers' : List RetryServer) : Prop where
  passedBy : AllPassedBy servers servers'
  starts : ∀ i, next = some i → ∃ server server' order, servers[i]? = some server ∧
    servers'[i]? = some server' ∧ server'.status = .regHoldOff ∧
    Candidate serverObj restartFailed server order ∧ ∀ other ∈ servers, ∀ order',
      Candidate serverObj restartFailed other order' → order ≤ order'
  nobody : next = none → ∀ server ∈ servers, ∀ order,
    ¬ Candidate serverObj restartFailed server order
  turn : ∀ i, turns serverObj servers' i = if next = some i then .holds else
    turns serverObj servers i

theorem PassedBy.servObjInstID (h : PassedBy server server') :
    server'.servObjInstID = server.servObjInstID := by
  cases h with
  | same => rfl
  | idle _ _ _ hid => exact hid
  | started _ _ _ _ hid => exact hid

/-- **The first server is given the turn** when the registrations are started. -/
theorem registrationStart_startsFirst (now : Int64) (restartFailed : Bool)
    (contextP : RetryContext)
    (hconfigured : ∀ server ∈ contextP.serverList, Configured serverObj server.servObjInstID) :
    (registrationStart (some serverObj) now restartFailed contextP).1.state = contextP.state ∧
      ∃ next, StartsFirst serverObj restartFailed next contextP.serverList
        (registrationStart (some serverObj) now restartFailed contextP).1.serverList := by
  have hpassed := registrationStart_passedBy (some serverObj) now restartFailed contextP
  have hright := registrationStartLoop_right serverObj now restartFailed contextP.serverList 0 none
  obtain ⟨hfinds, hturns, -⟩ :=
    registrationStartLoop_findsFirst now restartFailed hconfigured 0 none
  rw [registrationStart] at hpassed ⊢
  generalize registrationStartLoop serverObj now restartFailed contextP.serverList 0 none =
    loop at hright hfinds hturns hpassed ⊢
  obtain ⟨serverList, firstOrdered, result⟩ := loop
  cases firstOrdered with
  | none =>
    refine ⟨rfl, none, hpassed, fun _ h => (by cases h), fun _ server hmem order h => ?_,
      fun i => congrFun hturns i⟩
    obtain ⟨first, hfirst, -⟩ := hfinds.le server hmem order h
    cases hfirst
  | some first =>
    obtain hnone | ⟨k, server, hplace, hget, hserver⟩ := hfinds.found first rfl
    · cases hnone
    obtain hnone | ⟨k', target, hplace', hget', hidle, -, hsequence⟩ := hright.2 first rfl
    · cases hnone
    obtain ⟨order, index⟩ := first
    obtain rfl : k = index := by omega
    obtain rfl : k' = k := by omega
    have hid : target.servObjInstID = server.servObjInstID := by
      have hrel := hright.1.getElem? k'
      rw [hget, hget'] at hrel
      cases hrel with
      | some hserver => exact hserver.servObjInstID
    obtain ⟨delay, hdelay⟩ := (hconfigured server (List.mem_of_getElem? hget)).delay
    dsimp only [Option.bind_some] at hpassed ⊢
    rw [hget'] at hpassed ⊢
    dsimp only [Option.map_some] at hpassed ⊢
    rw [prvStartRegistration_eq now target (hid ▸ hdelay)] at hpassed ⊢
    have hstarted := List.getElem?_set_self
      (a := { target with registration := addDelay now delay, status := .regHoldOff })
      (List.getElem?_eq_some_iff.mp hget').1
    refine ⟨rfl, some k', hpassed, fun i hi => ?_, fun h => (by cases h), fun i => ?_⟩
    · obtain rfl := Option.some.inj hi
      refine ⟨server, _, order, hget, hstarted, rfl, hserver, fun other hmem order' h => ?_⟩
      obtain ⟨first', hfirst', hle⟩ := hfinds.le other hmem order' h
      obtain rfl := Option.some.inj hfirst'
      exact hle
    · by_cases hi : some k' = some i
      · obtain rfl := Option.some.inj hi
        rw [if_pos rfl, turns_eq hstarted]
        have horder := (registrationOrder_congr hid).trans hserver.2
        have hordered : registrationOrder serverObj target ≠ none := by simp [horder]
        exact turnOf_started hordered rfl hsequence
      · rw [if_neg hi]
        rw [turns, List.getElem?_set_ne fun h => hi (congrArg some h)]
        exact congrFun hturns i

end

/-! ### Counting -/

/-- The counters of a registration under way do not wrap around, and an attempt belongs to a
sequence. -/
structure Counted (server : RetryServer) : Prop where
  holdOff : server.status = .regHoldOff → server.attempt.toNat ≤ 253 ∧
    if server.attempt.toNat = 0 then server.sequence.toNat ≤ 253
    else 0 < server.sequence.toNat ∧ server.sequence.toNat ≤ 254
  pending : server.status = .regPending → 0 < server.attempt.toNat ∧ server.attempt.toNat ≤ 254 ∧
    0 < server.sequence.toNat ∧ server.sequence.toNat ≤ 254

theorem firstSequenceFailed_iff : FirstSequenceFailed server ↔
    1 < server.sequence.toNat ∨ server.sequence.toNat = 1 ∧ server.attempt.toNat = 0 := by
  rw [FirstSequenceFailed, ← UInt8.toNat_inj, ← UInt8.toNat_inj]
  rfl

/-- Nothing is counted unless a registration is under way. -/
theorem Counted.of_status (hholdOff : server.status ≠ .regHoldOff)
    (hpending : server.status ≠ .regPending) : Counted server where
  holdOff h := absurd h hholdOff
  pending h := absurd h hpending

variable {servObjInstID : UInt16} {settings : UInt8 × UInt64}

theorem attemptSettings_le (h : attemptSettings serverObj servObjInstID = some settings) :
    settings.1.toNat ≤ 254 := by
  obtain ⟨serverObj, -, hread⟩ := Option.bind_eq_some_iff.mp h
  exact toNat_le_of_readLimit (toOption_eq_some_iff.mp hread)

theorem sequenceSettings_le (h : sequenceSettings serverObj servObjInstID = some settings) :
    settings.1.toNat ≤ 254 := by
  obtain ⟨serverObj, -, h⟩ := Option.bind_eq_some_iff.mp h
  obtain ⟨-, -, hread⟩ := Option.bind_eq_some_iff.mp h
  exact toNat_le_of_readLimit (toOption_eq_some_iff.mp hread)

theorem Counted.passedBy (h : Counted server) (hpassed : PassedBy server server') :
    Counted server' := by
  cases hpassed with
  | same => exact h
  | idle _ hidle' =>
    obtain hstatus | hstatus := hidle' <;> exact .of_status (by simp [hstatus]) (by simp [hstatus])
  | started _ hstatus hattempt hsequence =>
    exact ⟨fun _ => by simp [hattempt, hsequence], fun h => by simp [hstatus] at h⟩

/-- The counters go up by one when a try is sent. -/
theorem toNat_succ {n : UInt8} (h : n.toNat ≤ 254) : (n + 1).toNat = n.toNat + 1 := by
  rw [UInt8.toNat_add]
  exact Nat.mod_eq_of_lt (by change n.toNat + 1 < 256; omega)

theorem Counted.prvRegister (h : Counted server) (hholdOff : server.status = .regHoldOff)
    (outcome : RegisterOutcome) :
    Counted (prvRegister outcome server).1 := by
  obtain ⟨hattempt, hsequence⟩ := h.holdOff hholdOff
  by_cases hsent : outcome.IsSent server
  · rw [prvRegister_sent hsent]
    refine ⟨nofun, fun _ => ?_⟩
    dsimp only
    rw [toNat_succ (by omega)]
    have hzero : server.attempt.toNat = 0 ↔ server.attempt = 0 := UInt8.toNat_inj (b := 0)
    simp only [hzero] at hsequence
    split_ifs at hsequence ⊢
    · rw [toNat_succ (by omega)]
      omega
    · omega
  · obtain ⟨sessionH, hregister⟩ := prvRegister_not_sent hsent
    rw [hregister]
    exact ⟨h.holdOff, h.pending⟩

theorem Counted.retried {now : Int64} (h : Counted server) (hpending : server.status = .regPending)
    (hretried : retried serverObj now server = some server') : Counted server' := by
  obtain ⟨hattempt, hattempt', hsequence, hsequence'⟩ := h.pending hpending
  have hfailed : Counted { server with status := .regFailed } :=
    .of_status (fun h => by cases h) fun h => by cases h
  rw [Core.retried] at hretried
  cases hsettings : attemptSettings serverObj server.servObjInstID with
  | none =>
    rw [hsettings] at hretried
    exact Option.some.inj hretried ▸ hfailed
  | some settings =>
    obtain ⟨attemptLimit, attemptDelay⟩ := settings
    have hle := attemptSettings_le hsettings
    rw [hsettings] at hretried
    dsimp only at hretried hle
    by_cases hlimit : server.attempt ≥ attemptLimit
    · rw [if_pos hlimit] at hretried
      obtain rfl := Option.some.inj hretried
      cases hsequences : sequenceSettings serverObj server.servObjInstID with
      | none => exact hfailed
      | some settings =>
        obtain ⟨sequenceLimit, sequenceDelay⟩ := settings
        have hle := sequenceSettings_le hsequences
        rw [sequenceRetried]
        dsimp only at hle ⊢
        split_ifs with hlimit
        · exact hfailed
        · have hlt : server.sequence.toNat < sequenceLimit.toNat := UInt8.not_le.mp hlimit
          refine ⟨fun _ => ⟨Nat.zero_le _, ?_⟩, fun h => (by cases h)⟩
          show server.sequence.toNat ≤ 253
          omega
    · have hlt : server.attempt.toNat < attemptLimit.toNat := UInt8.not_le.mp hlimit
      rw [if_neg hlimit] at hretried
      obtain ⟨factor, -, rfl⟩ := Option.map_eq_some_iff.mp hretried
      refine ⟨fun _ => ⟨by dsimp only; omega, ?_⟩, fun h => (by cases h)⟩
      rw [if_neg hattempt.ne']
      exact ⟨hsequence, hsequence'⟩

theorem Counted.answered (h : Counted server) (now : Int64) :
    Counted (server.answered now) := by
  refine ⟨?_, ?_⟩ <;> rw [answered_status, answered_attempt, answered_sequence]
  · exact h.holdOff
  · exact h.pending

/-- **Every event keeps the counters.** -/
theorem Counted.becomes {event : RetryEvent} (h : Counted server)
    (hbecomes : Becomes serverObj index server server' event) : Counted server' := by
  cases event with
  | start now restartFailed => exact h.passedBy hbecomes
  | step now timeout outcomes =>
    rw [Becomes] at hbecomes
    split_ifs at hbecomes with hdue
    · exact hbecomes ▸ h.prvRegister hdue.1 _
    · exact h.passedBy hbecomes
  | reply now target packet =>
    rw [Becomes] at hbecomes
    split_ifs at hbecomes with hpending
    · exact hbecomes ▸ h.answered now
    · exact hbecomes ▸ .of_status (fun h => by cases h) fun h => by cases h
    · exact (h.answered now).retried ((answered_status now server).trans hpending.2) hbecomes
    · exact h.passedBy hbecomes

/-! ### Trying -/

section

variable {serverObj : ServerObject}

/-- A registration is under way. -/
def IsUnderWay (server : RetryServer) : Prop :=
  server.status = .regHoldOff ∨ server.status = .regPending

theorem turnOf_underWay (h : IsUnderWay server) :
    turnOf serverObj server = if registrationOrder serverObj server = none then .apart
      else if isBlocking serverObj server = false ∧ FirstSequenceFailed server then .passed
      else .holds := by
  rw [turnOf]
  obtain h | h := h <;> rw [h]

/-- The turn of a registration under way is a matter of its counters. -/
theorem turnOf_congr (h : IsUnderWay server) (h' : IsUnderWay server')
    (hid : server'.servObjInstID = server.servObjInstID)
    (hfailed : FirstSequenceFailed server' ↔ FirstSequenceFailed server) :
    turnOf serverObj server' = turnOf serverObj server := by
  rw [turnOf_underWay h, turnOf_underWay h', registrationOrder_congr hid, isBlocking, hid,
    ← isBlocking]
  simp only [hfailed]

theorem turnOf_prvRegister (hcounted : Counted server) (hholdOff : server.status = .regHoldOff)
    (outcome : RegisterOutcome) :
    turnOf serverObj (prvRegister outcome server).1 = turnOf serverObj server := by
  obtain ⟨hattempt, hsequence⟩ := hcounted.holdOff hholdOff
  by_cases hsent : outcome.IsSent server
  · rw [prvRegister_sent hsent]
    refine turnOf_congr (.inl hholdOff) (.inr rfl) rfl ?_
    have hzero : server.attempt.toNat = 0 ↔ server.attempt = 0 := UInt8.toNat_inj (b := 0)
    rw [firstSequenceFailed_iff, firstSequenceFailed_iff]
    dsimp only
    rw [toNat_succ (n := server.attempt) (by omega)]
    by_cases hnone : server.attempt = 0
    · rw [if_pos (hzero.mpr hnone)] at hsequence
      rw [if_pos hnone, toNat_succ (by omega), hzero.mpr hnone]
      omega
    · rw [if_neg (mt hzero.mp hnone)] at hsequence
      rw [if_neg hnone]
      have := mt hzero.mp hnone
      omega
  · obtain ⟨sessionH, hregister⟩ := prvRegister_not_sent hsent
    rw [hregister]
    exact turnOf_congr (.inl hholdOff) (.inl hholdOff) rfl .rfl

theorem turnOf_answered (now : Int64) (hpending : server.status = .regPending) :
    turnOf serverObj (server.answered now) = turnOf serverObj server := by
  refine turnOf_congr (.inr hpending) (.inr ?_) (answered_servObjInstID now server) ?_
  · rw [answered_status, hpending]
  · rw [FirstSequenceFailed, answered_sequence, answered_attempt]
    exact .rfl

/-- **A step of the registrations leaves the turns as they are.** -/
theorem turns_registrationStep (hcounted : ∀ s ∈ servers, Counted s)
    (outcomes : ℕ → RegisterOutcome) (now : Int64) (timeout : ℤ) :
    turns serverObj (registrationStep outcomes now timeout servers).1 =
      turns serverObj servers := by
  induction servers generalizing outcomes timeout with
  | nil => rfl
  | cons server rest ih =>
    have hrest := ih (fun s hs => hcounted s (List.mem_cons_of_mem server hs))
      (fun i => outcomes (i + 1))
      (registrationStepServer (outcomes 0) now timeout server).2
    show turns serverObj ((registrationStepServer (outcomes 0) now timeout server).1 :: _) = _
    refine turns_cons ?_ hrest
    rw [registrationStepServer_eq]
    split_ifs with hdue hfailed
    · exact turnOf_prvRegister (hcounted server List.mem_cons_self) hdue.1 _
    · exact turnOf_idle (.inr hfailed) rfl rfl
    · rfl

end

/-! ### Handing the turn over -/

section

variable {serverObj : ServerObject} {servers : List RetryServer} {target : ℕ}
  {server : RetryServer}

theorem turns_set (hget : servers[target]? = some server) (server' : RetryServer) (i : ℕ) :
    turns serverObj (servers.set target server') i =
      if i = target then turnOf serverObj server' else turns serverObj servers i := by
  by_cases hi : i = target
  · rw [if_pos hi, hi, turns_eq (List.getElem?_set_self (List.getElem?_eq_some_iff.mp hget).1)]
  · rw [if_neg hi, turns, List.getElem?_set_ne (Ne.symm hi), ← turns]

theorem turns_set_of_eq (hget : servers[target]? = some server)
    (h : turnOf serverObj server' = turnOf serverObj server) :
    turns serverObj (servers.set target server') = turns serverObj servers := by
  funext i
  rw [turns_set hget]
  split_ifs with hi
  · rw [h, hi, turns_eq hget]
  · rfl

/-- A place whose turn has to come is that of a server that waits. -/
theorem exists_of_turns {turn : Turn} (h : turns serverObj servers i = turn)
    (hturn : turn ≠ .apart) : ∃ server, servers[i]? = some server ∧
      turnOf serverObj server = turn := by
  rw [turns] at h
  cases hget : servers[i]? with
  | none =>
    rw [hget] at h
    exact absurd h.symm hturn
  | some server =>
    rw [hget] at h
    exact ⟨server, rfl, h⟩

/-- Without the failed ones, the candidates are those that wait. -/
theorem candidate_iff : Candidate serverObj false server order ↔
    turnOf serverObj server = .waits ∧ registrationOrder serverObj server = some order := by
  rw [Candidate, turnOf_eq_waits_iff]
  constructor
  · rintro ⟨hstatus | ⟨hfalse, -⟩, horder⟩
    · exact ⟨⟨fun h => (nomatch horder.symm.trans h), hstatus⟩, horder⟩
    · cases hfalse
  · rintro ⟨⟨-, hstatus⟩, horder⟩
    exact ⟨.inl hstatus, horder⟩

theorem orders_eq (hget : servers[i]? = some server)
    (horder : registrationOrder serverObj server = some order) :
    orders serverObj servers i = order.toNat := by
  rw [orders, hget, Option.bind_some, horder]
  rfl

/-- A server that waits has an order. -/
theorem exists_order (h : turnOf serverObj server ≠ .apart) :
    ∃ order, registrationOrder serverObj server = some order :=
  Option.ne_none_iff_exists'.mp (mt turnOf_eq_apart_iff.mpr h)

variable {servers' : List RetryServer} {accepted : RetryServer}

/-- Of the servers behind the target, the first one that waits is given the turn. -/
theorem StartsFirst.isNext {next : ℕ} (hget : servers[target]? = some server)
    (hserver : turnOf serverObj server ≠ .waits) (haccepted : turnOf serverObj accepted ≠ .waits)
    (h : StartsFirst serverObj false (some next) (servers.set target accepted) servers') :
    next ≠ target ∧ IsNext (orders serverObj servers) (turns serverObj servers) next ∧
      ∃ first first', servers[next]? = some first ∧ servers'[next]? = some first' ∧
        turnOf serverObj first = .waits ∧ first'.status = .regHoldOff ∧
        ∀ other ∈ servers, turnOf serverObj other = .waits →
          ¬ ComesBefore serverObj other first := by
  obtain ⟨first, first', order, hfirst, hfirst', hstatus, hcandidate, hle⟩ := h.starts next rfl
  obtain ⟨hwaits, horder⟩ := candidate_iff.mp hcandidate
  have hne : next ≠ target := by
    rintro rfl
    rw [List.getElem?_set_self (List.getElem?_eq_some_iff.mp hget).1] at hfirst
    exact haccepted (Option.some.inj hfirst ▸ hwaits)
  rw [List.getElem?_set_ne hne.symm] at hfirst
  -- the target does not wait, so those that wait are behind it
  have hlowest (i : ℕ) (other : RetryServer) (hother : servers[i]? = some other)
      (hturn : turnOf serverObj other = .waits) (order' : UInt64)
      (horder' : registrationOrder serverObj other = some order') : order ≤ order' := by
    have hi : i ≠ target := by
      rintro rfl
      exact hserver (Option.some.inj (hget.symm.trans hother) ▸ hturn)
    have hmem : other ∈ servers.set target accepted :=
      List.mem_of_getElem? ((List.getElem?_set_ne hi.symm).trans hother)
    exact hle other hmem order' (candidate_iff.mpr ⟨hturn, horder'⟩)
  refine ⟨hne, ⟨(turns_eq hfirst).trans hwaits, fun i hi => ?_⟩, first, first', hfirst, hfirst',
    hwaits, hstatus, fun other hmem hturn => ?_⟩
  · obtain ⟨other, hother, hturn⟩ := exists_of_turns hi nofun
    obtain ⟨order', horder'⟩ := exists_order (hturn ▸ nofun : turnOf serverObj other ≠ .apart)
    rw [orders_eq hfirst horder, orders_eq hother horder']
    exact hlowest i other hother hturn order' horder'
  · rintro ⟨order', order'', horder', horder'', hlt⟩
    obtain ⟨i, hother⟩ := List.mem_iff_getElem?.mp hmem
    obtain rfl := Option.some.inj (horder.symm.trans horder'')
    exact UInt64.not_lt.mpr (hlowest i other hother hturn order' horder') hlt

/-- Where none waits, none is given the turn. -/
theorem StartsFirst.none_waits (hget : servers[target]? = some server)
    (hserver : turnOf serverObj server ≠ .waits)
    (h : StartsFirst serverObj false none (servers.set target accepted) servers') :
    ∀ i, turns serverObj servers i ≠ .waits := by
  intro i hi
  obtain ⟨other, hother, hturn⟩ := exists_of_turns hi nofun
  obtain ⟨order', horder'⟩ := exists_order (hturn ▸ nofun : turnOf serverObj other ≠ .apart)
  have hne : i ≠ target := by
    rintro rfl
    exact hserver (Option.some.inj (hget.symm.trans hother) ▸ hturn)
  exact h.nobody rfl other
    (List.mem_of_getElem? ((List.getElem?_set_ne hne.symm).trans hother)) order'
    (candidate_iff.mpr ⟨hturn, horder'⟩)

/-- What the event that a server is about does to the turns: they take a step, the next server is
started when the turn is over that way, and who still waits has one in front of it. -/
structure Passes (serverObj : ServerObject) (servers servers' : List RetryServer) : Prop where
  step : TurnStep (orders serverObj servers) (turns serverObj servers) (turns serverObj servers')
  startsNext : StartsNext serverObj servers servers'
  held : ∀ i, turns serverObj servers' i = .waits → ∃ j, turns serverObj servers' j = .holds

variable {next : Option ℕ}

/-- **The turn of the target is over, and the first one that waits is started.** -/
theorem StartsFirst.passes (hget : servers[target]? = some server)
    (hholds : turnOf serverObj server = .holds) (haccepted : turnOf serverObj accepted ≠ .waits)
    (h : StartsFirst serverObj false next (servers.set target accepted) servers')
    (hpassed : turnOf serverObj server' = .passed) :
    Passes serverObj servers (servers'.set target server') := by
  have hserver : turnOf serverObj server ≠ .waits := by simp [hholds]
  have hlt : target < servers'.length := by
    rw [← h.passedBy.length_eq, List.length_set]
    exact (List.getElem?_eq_some_iff.mp hget).1
  have htarget : turns serverObj (servers'.set target server') target = .passed := by
    rw [turns_eq (List.getElem?_set_self hlt), hpassed]
  have hothers (i : ℕ) (hi : i ≠ target) : turns serverObj (servers'.set target server') i =
      if next = some i then .holds else turns serverObj servers i := by
    rw [turns_set (List.getElem?_eq_getElem hlt), if_neg hi, h.turn, turns_set hget, if_neg hi]
  cases next with
  | none =>
    have hnone := h.none_waits hget hserver
    have hothers' (i : ℕ) (hi : i ≠ target) :
        turns serverObj (servers'.set target server') i = turns serverObj servers i := hothers i hi
    refine ⟨.drop target ((turns_eq hget).trans hholds) htarget hothers', ?_, fun i hi => ?_⟩
    · rintro ⟨other, hmem, hturn⟩
      obtain ⟨i, hother⟩ := List.mem_iff_getElem?.mp hmem
      exact absurd ((turns_eq hother).trans hturn) (hnone i)
    · by_cases hit : i = target
      · rw [hit, htarget] at hi
        cases hi
      · exact absurd ((hothers' i hit).symm.trans hi) (hnone i)
  | some next =>
    obtain ⟨hne, hisNext, first, first', hfirst, hfirst', hwaits, hstatus, hlowest⟩ :=
      h.isNext hget hserver haccepted
    have hnext : turns serverObj (servers'.set target server') next = .holds := by
      rw [hothers next hne, if_pos rfl]
    refine ⟨.handOver target next ((turns_eq hget).trans hholds) hisNext htarget hnext
      fun i hi hin => ?_, fun _ => ⟨first, first', ⟨next, hfirst, ?_⟩, hwaits, hstatus, hlowest⟩,
      fun i _ => ⟨next, hnext⟩⟩
    · rw [hothers i hi, if_neg fun h => hin (Option.some.inj h).symm]
    · rw [List.getElem?_set_ne hne.symm, hfirst']

/-- Where none waits, none is started. -/
theorem StartsFirst.unchanged (hget : servers[target]? = some server)
    (hserver : turnOf serverObj server ≠ .waits) (haccepted : turnOf serverObj accepted ≠ .waits)
    (hnone : ∀ i, turns serverObj servers i ≠ .waits)
    (h : StartsFirst serverObj false next (servers.set target accepted) servers') :
    turns serverObj servers' = turns serverObj (servers.set target accepted) := by
  cases next with
  | none => exact funext h.turn
  | some next => exact absurd (h.isNext hget hserver haccepted).2.1.waits (hnone next)

theorem turns_failOrdered
    (hconfigured : ∀ server ∈ servers, Configured serverObj server.servObjInstID) :
    turns serverObj (servers.map (failOrdered serverObj)) i =
      if turns serverObj servers i = .waits then .passed else turns serverObj servers i := by
  rw [turns, List.getElem?_map, turns]
  cases hget : servers[i]? with
  | none => rfl
  | some server =>
    obtain ⟨order, horder⟩ := (hconfigured server (List.mem_of_getElem? hget)).order
    have hregistrationOrder : registrationOrder serverObj server = order := by
      rw [registrationOrder, horder]
    show turnOf serverObj (failOrdered serverObj server) =
      if turnOf serverObj server = .waits then .passed else turnOf serverObj server
    rw [failOrdered, horder]
    by_cases hstatus : server.status = .deregistered
    · rw [if_pos hstatus]
      cases order with
      | none => rw [if_neg (by simp [turnOf_eq_apart_iff.mpr hregistrationOrder])]
      | some order =>
        have hne : registrationOrder serverObj server ≠ none := by simp [hregistrationOrder]
        rw [if_pos (turnOf_eq_waits_iff.mpr ⟨hne, hstatus⟩)]
        exact if_neg hne
    · rw [if_neg hstatus, if_neg fun h => hstatus (turnOf_eq_waits_iff.mp h).2]

end

end Lwm2m.Core

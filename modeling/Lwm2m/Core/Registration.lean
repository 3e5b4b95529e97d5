/-
# Registration updates

`core/registration.c` and the part of `core/liblwm2m.c` that changes the object
list: `lwm2m_add_object` and `lwm2m_remove_object` schedule an update of every
registration, `registration_step` sends the update that the status of a server
asks for, and the reply to it moves the status on.

An update carries the payload of `object_getRegisterPayload` or none; the request
is modelled by the object list that this payload lists.

An addition or a removal is to reach every registered server.  It does, exactly
when no server is waiting for an update without the object list at that moment
(`lwm2m_object_change_reaches_iff`): the branch of `lwm2m_update_registration`
that serves all servers leaves that status as it is, while the branch for a
single server raises it to a full update.
-/

import Lwm2m.Core.Servers

namespace Lwm2m.Core

open Code

/-! ### The source -/

/-- One turn of the loop of `lwm2m_update_registration` for all servers. -/
def scheduleUpdate (withObjects : Bool) (targetP : Server) : Server :=
  if targetP.status = .registered ∨ targetP.status = .regUpdatePending then
    { targetP with status := if withObjects then .regFullUpdateNeeded else .regUpdateNeeded }
  else targetP

/-- The loop of `lwm2m_update_registration` for one server: it ends at the server with
the short identifier. -/
def scheduleUpdateOf (shortServerID : UInt16) (withObjects : Bool) :
    List Server → List Server × Code
  | [] => ([], coap404NotFound)
  | targetP :: next =>
    if targetP.shortID = shortServerID then
      if targetP.status = .registered ∨ targetP.status = .regUpdatePending then
        ({ targetP with
          status := if withObjects then .regFullUpdateNeeded else .regUpdateNeeded } :: next,
          noError)
      else if targetP.status = .regFullUpdateNeeded ∨ targetP.status = .regUpdateNeeded then
        (if withObjects then { targetP with status := .regFullUpdateNeeded } :: next
          else targetP :: next, noError)
      else (targetP :: next, coap400BadRequest)
    else
      let (rest, code) := scheduleUpdateOf shortServerID withObjects next
      (targetP :: rest, code)

/-- `lwm2m_update_registration`. -/
def lwm2mUpdateRegistration (contextP : Context) (security : Option SecurityInstances)
    (shortServerID : UInt16) (withObjects : Bool) : Context × Code :=
  if contextP.serverList = [] then
    -- the loop then starts from the null pointer read before the servers were made
    let (contextP, res) := objectGetServers contextP security false
    if res = -1 then (contextP, coap404NotFound)
    else (contextP, if shortServerID ≠ 0 then coap404NotFound else noError)
  else if shortServerID ≠ 0 then
    let (serverList, code) := scheduleUpdateOf shortServerID withObjects contextP.serverList
    ({ contextP with serverList }, code)
  else
    ({ contextP with serverList := contextP.serverList.map (scheduleUpdate withObjects) }, noError)

/-- The end of `lwm2m_add_object` and `lwm2m_remove_object`. -/
def announceObjectList (contextP : Context) (security : Option SecurityInstances) :
    Context × Code :=
  if contextP.state = .ready then lwm2mUpdateRegistration contextP security 0 true
  else (contextP, noError)

/-- `lwm2m_add_object`. -/
def lwm2mAddObject (contextP : Context) (security : Option SecurityInstances)
    (objectP : ObjectEntry) : Context × Code :=
  if (listFind ObjectEntry.objID contextP.objectList objectP.objID).isSome then
    (contextP, coap406NotAcceptable)
  else announceObjectList { contextP with
    objectList := listAdd ObjectEntry.objID objectP contextP.objectList } security

/-- `lwm2m_remove_object`. -/
def lwm2mRemoveObject (contextP : Context) (security : Option SecurityInstances)
    (id : UInt16) : Context × Code :=
  match listRemove ObjectEntry.objID contextP.objectList id with
  | (_, none) => (contextP, coap404NotFound)
  | (objectList, some _) => announceObjectList { contextP with objectList } security

/-- The request of `prv_updateRegistration`: the object list in its payload, if any. -/
structure UpdateRequest where
  server : ServerRef
  objects : Option (List ObjectEntry)
  deriving DecidableEq, Repr

/-- `prv_updateRegistration`; `sent` is the success of `transaction_send`. -/
def prvUpdateRegistration (objectList : List ObjectEntry) (server : Server) (withObjects : Bool)
    (sent : Bool) : Server × UpdateRequest :=
  (if sent then { server with status := .regUpdatePending } else server,
    ⟨server.ref, if withObjects then some objectList else none⟩)

/-- The cases of `registration_step` for a server that is registered; `due` tells that
its lifetime asks for an update. -/
def registrationStepUpdate (objectList : List ObjectEntry) (targetP : Server) (due sent : Bool) :
    Server × Option UpdateRequest :=
  match targetP.status with
  | .registered =>
    if due then
      let (targetP, request) := prvUpdateRegistration objectList targetP false sent
      (targetP, some request)
    else (targetP, none)
  | .regUpdateNeeded =>
    let (targetP, request) := prvUpdateRegistration objectList targetP false sent
    (targetP, some request)
  | .regFullUpdateNeeded =>
    let (targetP, request) := prvUpdateRegistration objectList targetP true sent
    (targetP, some request)
  | _ => (targetP, none)

/-- `prv_handleRegistrationUpdateReply`, on the reply to an update that was not sent in
blocks. -/
def prvHandleRegistrationUpdateReply (server : Server) (code : Code) : Server :=
  if server.status = .regUpdatePending then
    if code = coap204Changed then { server with status := .registered }
    else { server with status := .regFailed }
  else server

/-! ### Reaching every server -/

/-- The server is registered, or an update of its registration is needed or pending. -/
def Registered (status : Status) : Prop :=
  status = .registered ∨ status = .regUpdateNeeded ∨ status = .regFullUpdateNeeded ∨
    status = .regUpdatePending

instance (status : Status) : Decidable (Registered status) :=
  inferInstanceAs (Decidable (_ ∨ _))

/-- A full update of this server is scheduled. -/
def FullUpdateScheduled (server : Server) : Prop := server.status = .regFullUpdateNeeded

/-- What a server knows of the registered objects once it has acknowledged a request. -/
def viewAfter (view : List ObjectEntry) (request : UpdateRequest) : List ObjectEntry :=
  request.objects.getD view

/-- The next update of the server, when it is sent and acknowledged, leaves the server
registered and with a view that equals `objectList`. -/
def NextUpdateShows (objectList : List ObjectEntry) (server : Server) : Prop :=
  ∃ server' request, registrationStepUpdate objectList server true true = (server', some request) ∧
    (prvHandleRegistrationUpdateReply server' coap204Changed).status = .registered ∧
    ∀ view, viewAfter view request = objectList

/-- The change of the object list reaches the servers: each of them that was registered
has a full update scheduled, and after its next successful update its view is the
object list. -/
def ReachesServers (before after : Context) : Prop :=
  ∀ (i : ℕ) (server : Server), before.serverList[i]? = some server → Registered server.status →
    ∃ server', after.serverList[i]? = some server' ∧ server'.ref = server.ref ∧
      FullUpdateScheduled server' ∧ NextUpdateShows after.objectList server'

/-- A successful `lwm2m_add_object` or `lwm2m_remove_object`. -/
inductive ObjectChange (security : Option SecurityInstances) (contextP : Context) : Context → Prop
  | add {objectP : ObjectEntry} {contextP' : Context} :
      lwm2mAddObject contextP security objectP = (contextP', noError) →
      ObjectChange security contextP contextP'
  | remove {id : UInt16} {contextP' : Context} :
      lwm2mRemoveObject contextP security id = (contextP', noError) →
      ObjectChange security contextP contextP'

variable {security : Option SecurityInstances} {contextP contextP' : Context}

/-- A server with a full update scheduled is shown the object list next. -/
theorem nextUpdateShows_of_scheduled {server : Server} (objectList : List ObjectEntry)
    (h : FullUpdateScheduled server) : NextUpdateShows objectList server := by
  unfold FullUpdateScheduled at h
  refine ⟨{ server with status := .regUpdatePending }, ⟨server.ref, some objectList⟩, ?_, ?_, ?_⟩
  · simp [registrationStepUpdate, h, prvUpdateRegistration]
  · simp [prvHandleRegistrationUpdateReply]
  · exact fun view => rfl

/-- The branch for all servers schedules a full update of the registered servers, except
of one that is waiting for an update without the object list. -/
theorem scheduleUpdate_scheduled_iff {server : Server} (h : Registered server.status) :
    FullUpdateScheduled (scheduleUpdate true server) ↔ server.status ≠ .regUpdateNeeded := by
  rcases h with h | h | h | h <;> simp [scheduleUpdate, FullUpdateScheduled, h]

@[simp] theorem scheduleUpdate_ref (withObjects : Bool) (server : Server) :
    (scheduleUpdate withObjects server).ref = server.ref := by
  unfold scheduleUpdate
  split_ifs <;> rfl

/-- In state READY the end of both functions runs the branch for all servers. -/
theorem announceObjectList_serverList (hready : contextP.state = .ready)
    (hservers : contextP.serverList ≠ []) :
    (announceObjectList contextP security).1.serverList =
      contextP.serverList.map (scheduleUpdate true) := by
  simp [announceObjectList, lwm2mUpdateRegistration, hready, hservers]

/-- A successful change of the object list ends in `announceObjectList`. -/
theorem ObjectChange.announced (h : ObjectChange security contextP contextP') :
    ∃ objectList, contextP' = (announceObjectList { contextP with objectList } security).1 := by
  cases h with
  | add h =>
    unfold lwm2mAddObject at h
    split_ifs at h
    · cases h
    · exact ⟨_, (congrArg Prod.fst h).symm⟩
  | remove h =>
    unfold lwm2mRemoveObject at h
    split at h
    · cases h
    · exact ⟨_, (congrArg Prod.fst h).symm⟩

/-- **A change of the object list reaches every server exactly when none waits for an
update without objects.**  For every context in state READY, every list of servers
and every successful `lwm2m_add_object` or `lwm2m_remove_object`: every server that was
registered or had an update needed or pending has a full update scheduled and is shown
the new object list next, if and only if no server had the status
`STATE_REG_UPDATE_NEEDED`. -/
theorem lwm2m_object_change_reaches_iff (hready : contextP.state = .ready)
    (h : ObjectChange security contextP contextP') :
    ReachesServers contextP contextP' ↔
      ∀ server ∈ contextP.serverList, server.status ≠ .regUpdateNeeded := by
  obtain ⟨objectList, rfl⟩ := h.announced
  by_cases hservers : contextP.serverList = []
  · simp [ReachesServers, hservers]
  have hlist : (announceObjectList { contextP with objectList } security).1.serverList = _ :=
    announceObjectList_serverList hready hservers
  constructor
  · intro hreach server hmem hneeded
    obtain ⟨i, hi⟩ := List.mem_iff_getElem?.mp hmem
    have hregistered : Registered server.status := .inr (.inl hneeded)
    obtain ⟨server', hi', -, hscheduled, -⟩ := hreach i server hi hregistered
    rw [hlist, List.getElem?_map, hi] at hi'
    obtain rfl := Option.some.inj hi'
    exact (scheduleUpdate_scheduled_iff hregistered).mp hscheduled hneeded
  · intro hnone i server hi hregistered
    have hscheduled := (scheduleUpdate_scheduled_iff hregistered).mpr
      (hnone server (List.mem_of_getElem? hi))
    refine ⟨scheduleUpdate true server, ?_, scheduleUpdate_ref true server, hscheduled,
      nextUpdateShows_of_scheduled _ hscheduled⟩
    rw [hlist, List.getElem?_map, hi]
    rfl

/-- A context in state READY with a registered server to which an object is added. -/
theorem lwm2m_object_change_reaches_registered :
    ReachesServers { state := .ready, serverList := [⟨0, 0, 1, some 1, .registered, false, []⟩] }
      { state := .ready, serverList := [⟨0, 0, 1, some 1, .regFullUpdateNeeded, false, []⟩],
        objectList := [{ objID := 30001 }] } :=
  (lwm2m_object_change_reaches_iff rfl
    (.add (rfl : lwm2mAddObject _ none { objID := 30001 } = _))).mpr (by decide)

/-- **An update that is already needed hides the change.**  A server waits for an update
of its lifetime; object 30001 is added; the update that is sent next has no payload. -/
theorem lwm2m_add_object_missed :
    ∃ contextP contextP' : Context, contextP.state = .ready ∧
      contextP.serverList = [⟨0, 0, 1, some 1, .regUpdateNeeded, false, []⟩] ∧
      lwm2mAddObject contextP (some []) { objID := 30001 } = (contextP', noError) ∧
      contextP'.serverList = contextP.serverList ∧ ¬ ReachesServers contextP contextP' := by
  refine ⟨{ state := .ready, serverList := [⟨0, 0, 1, some 1, .regUpdateNeeded, false, []⟩] },
    _, rfl, rfl, rfl, rfl, fun h => ?_⟩
  obtain ⟨server', hi, -, hscheduled, -⟩ := h 0 _ rfl (by decide)
  cases hi
  cases hscheduled

end Lwm2m.Core

/-
# The pointers from watchers to servers

A watcher holds a pointer to its server.  `observe_step` and `observe_cancel` follow it,
so every watcher has to point to a server of the list (`Points`) in every state.  The
list only grows (`Grows`), except where `prv_refreshServerList` frees the servers marked
as dirty, without a look at the observations.  So the pointers stay valid in a run, and
none to a freed server is followed, exactly when no refresh meets a watcher of a dirty
server (`watchers_point_to_servers_iff`).
-/

import Lwm2m.Core.Watchers

namespace Lwm2m.Core

open Coap Code Library

/-! ### The servers of the list -/

/-- The pointers to the servers of the list. -/
def refs (contextP : Context) : List ServerRef := contextP.serverList.map Server.ref

/-- The servers of the list are allocated, and are different ones. -/
structure Allocated (contextP : Context) : Prop where
  nodup : (refs contextP).Nodup
  lt : ∀ ref ∈ refs contextP, ref < contextP.allocated

/-- Every server stays on the list, and what joins it is new. -/
structure Grows (contextP contextP' : Context) : Prop where
  keeps : ∀ ref ∈ refs contextP, ref ∈ refs contextP'
  new : ∀ ref ∈ refs contextP', ref ∈ refs contextP ∨ contextP.allocated ≤ ref
  le : contextP.allocated ≤ contextP'.allocated
  allocated : Allocated contextP → Allocated contextP'

namespace Grows

variable {contextP contextP' contextQ : Context}

/-- The same servers. -/
theorem of_refs_eq (hrefs : refs contextP' = refs contextP)
    (hallocated : contextP'.allocated = contextP.allocated) : Grows contextP contextP' := by
  refine ⟨fun ref h => ?_, fun ref h => .inl ?_, hallocated.ge, fun h => ⟨?_, fun ref h' => ?_⟩⟩
  · rwa [hrefs]
  · rwa [hrefs] at h
  · rw [hrefs]
    exact h.nodup
  · rw [hrefs] at h'
    rw [hallocated]
    exact h.lt ref h'

theorem refl (contextP : Context) : Grows contextP contextP := of_refs_eq rfl rfl

theorem trans (h : Grows contextP contextQ) (h' : Grows contextQ contextP') :
    Grows contextP contextP' := by
  refine ⟨fun ref hr => h'.keeps ref (h.keeps ref hr), fun ref hr => ?_, h.le.trans h'.le,
    fun ha => h'.allocated (h.allocated ha)⟩
  rcases h'.new ref hr with hr | hr
  · exact h.new ref hr
  · exact .inr (h.le.trans hr)

/-- An update in place of every server. -/
theorem map {update : Server → Server} (href : ∀ server, (update server).ref = server.ref) :
    Grows contextP { contextP with serverList := contextP.serverList.map update } := by
  refine of_refs_eq ?_ rfl
  show (contextP.serverList.map update).map Server.ref = contextP.serverList.map Server.ref
  rw [List.map_map]
  exact List.map_congr_left fun server _ => href server

/-- The allocation of a server that is not used. -/
theorem allocate (contextP : Context) :
    Grows contextP { contextP with allocated := contextP.allocated + 1 } :=
  ⟨fun _ h => h, fun _ h => .inl h, Nat.le_succ _,
    fun h => ⟨h.nodup, fun ref hr => (h.lt ref hr).trans (Nat.lt_succ_self _)⟩⟩

/-- The allocation of a server that joins the list. -/
theorem add (contextP : Context) (instanceId shortID : UInt16) : Grows contextP { contextP with
    allocated := contextP.allocated + 1
    serverList := listAdd Server.secObjInstID
      { ref := contextP.allocated, secObjInstID := instanceId, shortID } contextP.serverList } := by
  set server : Server := { ref := contextP.allocated, secObjInstID := instanceId, shortID }
  have hperm : ((listAdd Server.secObjInstID server contextP.serverList).map Server.ref).Perm
      (contextP.allocated :: contextP.serverList.map Server.ref) := (listAdd_perm _ _).map _
  refine ⟨fun ref h => ?_, fun ref h => ?_, Nat.le_succ _, fun h => ⟨?_, fun ref hr => ?_⟩⟩
  · exact hperm.mem_iff.mpr (List.mem_cons_of_mem _ h)
  · rcases List.mem_cons.mp (hperm.mem_iff.mp h) with rfl | h
    · exact .inr le_rfl
    · exact .inl h
  · refine hperm.nodup_iff.mpr (List.nodup_cons.mpr ⟨fun h' => ?_, h.nodup⟩)
    exact absurd (h.lt _ h') (lt_irrefl _)
  · rcases List.mem_cons.mp (hperm.mem_iff.mp hr) with rfl | hr
    · exact Nat.lt_succ_self _
    · exact (h.lt ref hr).trans (Nat.lt_succ_self _)

end Grows

variable {contextP contextP' : Context} {security : Option SecurityInstances}

theorem grows_objectGetServers (contextP : Context) (security : Option SecurityInstances)
    (checkOnly : Bool) : Grows contextP (objectGetServers contextP security checkOnly).1 := by
  cases security with
  | none => exact .refl _
  | some instances =>
    exact getServersLoop_invariant (fun c h => h.trans (.allocate c))
      (fun c instanceId h => h.trans ((Grows.allocate c).trans (.of_refs_eq rfl rfl)))
      (fun c instanceId shortID h => h.trans (.add c instanceId shortID)) checkOnly instances
      (.refl _)

theorem refs_scheduleUpdateOf (shortServerID : UInt16) (withObjects : Bool)
    (serverList : List Server) :
    (scheduleUpdateOf shortServerID withObjects serverList).1.map Server.ref =
      serverList.map Server.ref := by
  induction serverList with
  | nil => rfl
  | cons targetP next ih =>
    unfold scheduleUpdateOf
    split_ifs
    all_goals first | rfl | skip
    rw [List.map_cons, List.map_cons, ih]

theorem grows_lwm2mUpdateRegistration (contextP : Context)
    (security : Option SecurityInstances) (shortServerID : UInt16) (withObjects : Bool) :
    Grows contextP (lwm2mUpdateRegistration contextP security shortServerID withObjects).1 := by
  have hget := grows_objectGetServers contextP security false
  unfold lwm2mUpdateRegistration
  by_cases hempty : contextP.serverList = []
  · rw [if_pos hempty]
    dsimp only
    split_ifs <;> exact hget
  rw [if_neg hempty]
  by_cases hone : shortServerID ≠ 0
  · rw [if_pos hone]
    exact .of_refs_eq (refs_scheduleUpdateOf _ _ _) rfl
  · rw [if_neg hone]
    exact .map (scheduleUpdate_ref withObjects)

theorem grows_announceObjectList (contextP : Context) (security : Option SecurityInstances) :
    Grows contextP (announceObjectList contextP security).1 := by
  unfold announceObjectList
  split_ifs
  · exact grows_lwm2mUpdateRegistration _ _ _ _
  · exact .refl _

/-! ### Commands of a bootstrap server -/

theorem grows_prvTagServer (contextP : Context) (id : UInt16) :
    Grows contextP (prvTagServer contextP id) := by
  have htag (list : List Server) :
      (tagInstance list id).map Server.ref = list.map Server.ref := by
    unfold tagInstance
    split
    · rfl
    · rw [List.map_map]
      refine List.map_congr_left fun server _ => ?_
      simp only [Function.comp]
      split_ifs <;> rfl
  unfold prvTagServer
  split_ifs
  · exact .of_refs_eq rfl rfl
  · exact .of_refs_eq (htag _) rfl

theorem grows_prvTagAllServer (contextP : Context) (serverP : Option ServerRef) :
    Grows contextP (prvTagAllServer contextP serverP) := by
  refine .of_refs_eq ?_ rfl
  unfold refs prvTagAllServer
  rw [List.map_map]
  rfl

theorem grows_writeItems (contextP : Context) (objectId : UInt16) (result : Code)
    (items : List BootstrapItem) : Grows contextP (writeItems contextP objectId result items).1 := by
  induction items generalizing contextP result with
  | nil => exact .refl _
  | cons item next ih =>
    have htag := grows_prvTagServer contextP item.id
    unfold writeItems
    dsimp only
    split_ifs
    all_goals first
      | exact .refl _
      | exact htag
      | exact ih _ _
      | exact htag.trans (ih _ _)

theorem grows_bootstrapWrite (contextP : Context) (uriP : Uri) (message : Packet)
    (outcome : BootstrapOutcome) :
    Grows contextP (bootstrapWrite contextP uriP message outcome).1 := by
  unfold bootstrapWrite
  split_ifs
  · exact .refl _
  · exact .refl _
  · exact grows_prvTagServer _ _
  · exact .refl _
  · exact .refl _
  · split
    · exact .refl _
    · exact grows_writeItems _ _ _ _

theorem grows_bootstrapDelete (contextP : Context) (uriP : Uri) (server : ServerRef)
    (outcome : BootstrapOutcome) :
    Grows contextP (bootstrapDelete contextP uriP server outcome).1 := by
  have hcleared : Grows contextP { contextP with
      observedList := clearDeleted contextP.observedList outcome.deletion } := .of_refs_eq rfl rfl
  unfold bootstrapDelete
  dsimp only
  split_ifs
  · exact .refl _
  · exact hcleared.trans (grows_prvTagServer _ _)
  · exact hcleared.trans (grows_prvTagAllServer _ _)
  · exact hcleared
  · exact hcleared

theorem grows_setBootstrapServer (contextP : Context) (ref : ServerRef) (f : Server → Server) :
    Grows contextP (setBootstrapServer contextP ref f) := .of_refs_eq rfl rfl

theorem grows_bootstrapHandleCommand (contextP : Context) (uriP : Uri) (serverP : Server)
    (message response : Packet) (outcome : BootstrapOutcome) :
    Grows contextP (bootstrapHandleCommand contextP uriP serverP message response outcome).1 := by
  unfold bootstrapHandleCommand
  split
  · exact .refl _
  · rename_i status hstatus
    have hset := grows_setBootstrapServer contextP serverP.ref ({ · with status })
    have hwrite := hset.trans (grows_bootstrapWrite _ uriP message outcome)
    have hdelete := hset.trans (grows_bootstrapDelete _ uriP serverP.ref outcome)
    dsimp only
    split_ifs
    all_goals first
      | exact hset
      | exact hwrite
      | exact hdelete
      | exact hwrite.trans (.of_refs_eq rfl rfl)
      | exact hdelete.trans (.of_refs_eq rfl rfl)
      | exact hset.trans (.of_refs_eq rfl rfl)

theorem grows_bootstrapHandleDeleteAll (contextP : Context) (fromSessionH : Session)
    (deletions : List Deletion) :
    Grows contextP (bootstrapHandleDeleteAll contextP fromSessionH deletions).1 :=
  bootstrapHandleDeleteAll_invariant (fun c ref f h => h.trans (grows_setBootstrapServer c ref f))
    (fun _ _ h => h.trans (.of_refs_eq rfl rfl))
    (fun c serverP h => h.trans (grows_prvTagAllServer c serverP)) fromSessionH deletions (.refl _)

theorem grows_bootstrapHandleFinish (contextP : Context) (fromSessionH : Session)
    (security : Option SecurityInstances) :
    Grows contextP (bootstrapHandleFinish contextP fromSessionH security).1 := by
  have hget := grows_objectGetServers contextP security true
  unfold bootstrapHandleFinish
  split
  · exact .refl _
  · dsimp only
    split_ifs
    · exact hget.trans (grows_setBootstrapServer _ _ _)
    · exact hget
    · exact .refl _

/-! ### Requests -/

variable {message : Packet} {outcome : Outcome} {event : Event}

theorem grows_dmHandleRequest {uriP : Uri} {serverP : Server} {response response' : Packet}
    {code : Code}
    (h : dmHandleRequest contextP uriP serverP message response outcome =
      .ok (contextP', response', code)) : Grows contextP contextP' := by
  rcases dmHandleRequest_cases h with
    ⟨rfl, -⟩ | ⟨-, hobserve⟩ | ⟨-, isText, hpost⟩ | ⟨-, hput⟩ | ⟨-, hdelete⟩
  · exact .refl _
  · rcases observeRequest_cases hobserve with ⟨rfl, -⟩ | ⟨l, r, c, -, rfl, -⟩
    · exact .refl _
    · exact .of_refs_eq rfl rfl
  · have hacted : Grows contextP { contextP with objectList := outcome.objectList } :=
      .of_refs_eq rfl rfl
    obtain rfl : _ = contextP' := congrArg Prod.fst hpost
    unfold postRequest
    split_ifs
    all_goals first
      | exact .refl _
      | exact hacted
      | exact hacted.trans (grows_lwm2mUpdateRegistration _ _ _ _)
  · unfold putRequest at hput
    split_ifs at hput
    · split at hput
      · cases hput
        exact .refl _
      · obtain ⟨⟨l, c⟩, -, hput⟩ := bind_eq_ok_iff.mp hput
        cases hput
        exact .of_refs_eq rfl rfl
    · cases hput
      exact .of_refs_eq rfl rfl
    · cases hput
      exact .refl _
  · have hdeleted : Grows contextP { contextP with
        objectList := outcome.objectList
        observedList := clearDeleted contextP.observedList outcome.deletion } :=
      .of_refs_eq rfl rfl
    obtain rfl : _ = contextP' := congrArg Prod.fst hdelete
    unfold deleteRequest
    split_ifs
    · exact .refl _
    · exact hdeleted.trans (grows_lwm2mUpdateRegistration _ _ _ _)
    · exact hdeleted

theorem grows_lwm2mHandleRequestPacket {altPath : Option CString} {blockSize : UInt16}
    {fromSessionH : Session} {reply : Option Packet}
    (h : lwm2mHandleRequestPacket altPath blockSize contextP fromSessionH message outcome =
      .ok (contextP', reply)) : Grows contextP contextP' := by
  obtain ⟨contextQ, hsame, hcases⟩ := lwm2mHandleRequestPacket_cases h
  have hgrows : Grows contextP contextQ := .of_refs_eq hsame.refs hsame.allocated
  rcases hcases with ⟨rfl, -⟩ | ⟨payload, response, result, hresult, rfl, -⟩
  · exact hgrows
  refine hgrows.trans ?_
  rcases handleRequest_cases hresult with ⟨c, -, -, rfl | rfl⟩ |
    ⟨uri, serverP, contextR, r, c, -, -, hdm, rfl⟩ |
    ⟨uri, serverP, contextR, r, c, -, -, hbootstrap, rfl⟩ | ⟨-, rfl⟩ | ⟨-, rfl⟩
  · exact .refl _
  · exact .refl _
  · exact grows_dmHandleRequest hdm
  · have hcommand := grows_bootstrapHandleCommand contextQ uri serverP { message with payload }
      response outcome.bootstrap
    rwa [hbootstrap] at hcommand
  · exact grows_bootstrapHandleDeleteAll _ _ _
  · exact grows_bootstrapHandleFinish _ _ _

/-! ### Steps -/

/-- `lwm2m_step` refreshes the server list in this state. -/
def Refreshes (contextP : Context) : Prop :=
  contextP.state = .initial ∨ contextP.state = .bootstrapping ∧
    bootstrapGetStatus contextP.bootstrapServerList = .bsFinished

instance (contextP : Context) : Decidable (Refreshes contextP) :=
  inferInstanceAs (Decidable (_ ∨ _))

/-- The context without the servers that a refresh frees. -/
def withoutDirty (contextP : Context) : Context :=
  { contextP with serverList := contextP.serverList.filter fun server => !server.dirty }

theorem grows_stepBootstrapRequired (contextP : Context) (env : StepEnv) :
    Grows contextP (stepBootstrapRequired contextP env).1 := by
  unfold stepBootstrapRequired
  split_ifs <;> exact .of_refs_eq rfl rfl

theorem grows_stepRegisterRequired (contextP : Context) (env : StepEnv) :
    Grows contextP (stepRegisterRequired contextP env).1 := by
  have hstart : Grows contextP { contextP with
      serverList := contextP.serverList.map env.start.update } := .map env.start.ref_update
  unfold stepRegisterRequired
  split_ifs
  · exact hstart
  · exact hstart.trans (.of_refs_eq rfl rfl)

/-- A refresh frees the dirty servers and adds new ones. -/
theorem grows_prvRefreshServerList (contextP : Context) (security : Option SecurityInstances) :
    Grows (withoutDirty contextP) (prvRefreshServerList contextP security).1 := by
  have hperm := (keepClean_perm (fun targetP => targetP) contextP.serverList).map Server.ref
  rw [List.map_id'] at hperm
  refine Grows.trans ?_ (grows_objectGetServers _ security false)
  refine ⟨fun ref h => hperm.mem_iff.mpr h, fun ref h => .inl (hperm.mem_iff.mp h), le_rfl,
    fun h => ⟨hperm.nodup_iff.mpr h.nodup, fun ref h' => h.lt ref (hperm.mem_iff.mp h')⟩⟩

theorem grows_stepInitial (contextP : Context) (env : StepEnv) :
    Grows (withoutDirty contextP) (stepInitial contextP env).1 := by
  have hrefresh := grows_prvRefreshServerList contextP env.security
  unfold stepInitial
  dsimp only
  split_ifs
  · exact hrefresh
  · refine Grows.trans ?_ (grows_stepRegisterRequired _ env)
    exact hrefresh.trans (.of_refs_eq rfl rfl)
  · refine Grows.trans ?_ (grows_stepBootstrapRequired _ env)
    exact hrefresh.trans (.of_refs_eq rfl rfl)

/-- A step frees the dirty servers if it refreshes the list, and no server otherwise. -/
theorem grows_stepState (contextP : Context) (env : StepEnv) :
    Grows (if Refreshes contextP then withoutDirty contextP else contextP)
      (stepState contextP env).1 := by
  obtain ⟨state, bootstrapServerList, serverList, objectList, observedList, nextMID, allocated⟩ :=
    contextP
  cases state with
  | initial =>
    rw [if_pos (.inl rfl)]
    exact grows_stepInitial _ env
  | bootstrapRequired =>
    rw [if_neg (by simp [Refreshes])]
    exact grows_stepBootstrapRequired _ env
  | bootstrapping =>
    by_cases hfinished : bootstrapGetStatus bootstrapServerList = .bsFinished
    · rw [if_pos (.inr ⟨rfl, hfinished⟩)]
      unfold stepState
      simp only [hfinished]
      refine Grows.trans ?_ (grows_stepInitial _ env)
      exact .of_refs_eq rfl rfl
    · rw [if_neg (by simp [Refreshes, hfinished])]
      unfold stepState
      dsimp only
      split
      · rename_i h
        exact absurd h hfinished
      · exact .refl _
      · exact .of_refs_eq rfl rfl
  | registerRequired =>
    rw [if_neg (by simp [Refreshes])]
    exact grows_stepRegisterRequired _ env
  | registering =>
    rw [if_neg (by simp [Refreshes])]
    unfold stepState
    dsimp only
    split
    · exact .of_refs_eq rfl rfl
    · refine Grows.trans ?_ (grows_stepBootstrapRequired _ env)
      exact .of_refs_eq rfl rfl
    · exact .refl _
  | ready =>
    rw [if_neg (by simp [Refreshes])]
    unfold stepState
    split_ifs
    · refine Grows.trans ?_ (grows_stepBootstrapRequired _ env)
      exact .of_refs_eq rfl rfl
    · exact .refl _

/-! ### The invariant -/

/-- All of these servers are on the list. -/
def OnList (serverList : List Server) (l : List ServerRef) : Prop :=
  ∀ ref ∈ l, ref ∈ serverList.map Server.ref

/-- Every watcher points to a server of the list. -/
def Points (contextP : Context) : Prop :=
  EveryEntry (OnList contextP.serverList) contextP.observedList

theorem hereditary_onList (serverList : List Server) : Hereditary (OnList serverList) :=
  fun _ hsub h ref hr => h ref (hsub.subset hr)

theorem admitsServers_onList (serverList : List Server) :
    AdmitsServers (OnList serverList) serverList := by
  intro server hserver
  have hmem : server.ref ∈ serverList.map Server.ref := List.mem_map_of_mem hserver
  constructor
  · intro ref hr
    rw [List.mem_singleton.mp hr]
    exact hmem
  · intro l _ h ref hr
    rcases List.mem_cons.mp hr with rfl | hr
    · exact hmem
    · exact h ref hr

/-- A list that keeps its servers keeps the pointers valid. -/
theorem Grows.points (h : Grows contextP contextP') {observedList : List Observed}
    (hevery : EveryEntry (OnList contextP.serverList) observedList) :
    EveryEntry (OnList contextP'.serverList) observedList :=
  fun o ho ref hr => h.keeps ref (hevery o ho ref hr)

/-- A refresh at this moment frees no server that is watched. -/
def RefreshKeepsWatched (contextP : Context) : Prop :=
  Refreshes contextP → ∀ o ∈ contextP.observedList, ∀ w ∈ o.watcherList,
    ∀ server ∈ contextP.serverList, server.dirty = true → w.server ≠ server.ref

instance (contextP : Context) : Decidable (RefreshKeepsWatched contextP) :=
  inferInstanceAs (Decidable (_ → _))

/-- **What the state part of a step does to the pointers.**  They stay valid exactly when
a refresh frees no server that is watched. -/
theorem points_stepState_iff (env : StepEnv) (hpoints : Points contextP)
    (hallocated : Allocated contextP) :
    Points (stepState contextP env).1 ↔ RefreshKeepsWatched contextP := by
  have hgrows := grows_stepState contextP env
  have hobserved := stepState_observedList contextP env
  constructor
  · intro hpoints' hrefresh o ho w hw server hserver hdirty hsame
    rw [if_pos hrefresh] at hgrows
    have hw' : w.server ∈ o.servers := List.mem_map_of_mem hw
    rw [Points, hobserved] at hpoints'
    rcases hgrows.new _ (hpoints' o ho _ hw') with hclean | hnew
    · obtain ⟨server', hserver', href⟩ := List.mem_map.mp hclean
      obtain ⟨hserver', hclean'⟩ := List.mem_filter.mp hserver'
      have heq := List.inj_on_of_nodup_map hallocated.nodup hserver' hserver
        (href.trans hsame)
      rw [heq, hdirty] at hclean'
      cases hclean'
    · exact absurd (hallocated.lt _ (hpoints o ho _ hw')) (not_lt.mpr hnew)
  · intro hkeeps
    rw [Points, hobserved]
    refine hgrows.points fun o ho ref hr => ?_
    have hlist := hpoints o ho ref hr
    split_ifs with hrefresh
    · obtain ⟨w, hw, rfl⟩ := List.mem_map.mp hr
      obtain ⟨server, hserver, href⟩ := List.mem_map.mp hlist
      refine List.mem_map.mpr ⟨server, List.mem_filter.mpr ⟨hserver, ?_⟩, href⟩
      rw [Bool.not_eq_true', Bool.eq_false_iff]
      exact fun hdirty => hkeeps hrefresh o ho w hw server hserver hdirty href.symm
    · exact hlist

/-- The pointers after a step are those after its state part. -/
theorem points_lwm2mStep_iff {env : StepEnv} {sent : List Sent}
    (h : lwm2mStep contextP env = .ok (contextP', sent)) :
    Points contextP' ↔ Points (stepState contextP env).1 := by
  unfold lwm2mStep at h
  split at h
  · rename_i contextQ code hcontext
    cases h
    rw [hcontext]
  · rename_i contextQ hcontext
    obtain ⟨⟨l, mid, sent'⟩, hobserve, h⟩ := bind_eq_ok_iff.mp h
    cases h
    have hsame := map_observeStep Observed.servers (fun _ => servers_notifyWatchers) hobserve
    have hrefs : (contextQ.serverList.map env.servers.update).map Server.ref =
        contextQ.serverList.map Server.ref := by
      rw [List.map_map]
      exact List.map_congr_left fun server _ => env.servers.ref_update server
    rw [hcontext]
    unfold Points OnList
    rw [hrefs]
    exact ⟨everyEntry_of_servers_eq hsame.symm, everyEntry_of_servers_eq hsame⟩

/-- The condition on an event: a step that refreshes the list frees no server that is
watched. -/
def EventKeepsWatched (contextP : Context) : Event → Prop
  | .step _ => RefreshKeepsWatched contextP
  | _ => True

/-- Every event but a step only adds servers. -/
theorem grows_clientStep (hstep : ∀ env, event ≠ .step env)
    (h : clientStep contextP event = .ok contextP') : Grows contextP contextP' := by
  cases event with
  | request altPath blockSize fromSessionH message outcome =>
    obtain ⟨⟨contextQ, reply⟩, hpacket, h⟩ := bind_eq_ok_iff.mp h
    cases h
    exact grows_lwm2mHandleRequestPacket hpacket
  | reset fromSessionH mid =>
    obtain ⟨l, -, h⟩ := bind_eq_ok_iff.mp h
    cases h
    exact .of_refs_eq rfl rfl
  | response servers bootstrapServers messages =>
    cases h
    exact (Grows.map servers.ref_update).trans (.of_refs_eq rfl rfl)
  | step env => exact absurd rfl (hstep env)
  | valueChanged uri | setState state =>
    cases h
    exact .of_refs_eq rfl rfl
  | addObject security objectP =>
    cases h
    have hadd : Grows contextP { contextP with
        objectList := listAdd ObjectEntry.objID objectP contextP.objectList } :=
      .of_refs_eq rfl rfl
    unfold lwm2mAddObject
    split_ifs
    · exact .refl _
    · exact hadd.trans (grows_announceObjectList _ security)
  | removeObject security id =>
    cases h
    unfold lwm2mRemoveObject
    split
    · exact .refl _
    · rename_i objectList removed _
      have hremove : Grows contextP { contextP with objectList } := .of_refs_eq rfl rfl
      exact hremove.trans (grows_announceObjectList _ security)
  | updateRegistration security shortServerID withObjects =>
    cases h
    exact grows_lwm2mUpdateRegistration _ _ _ _

/-- **One event.**  From a state in which every pointer is valid, an event leads to such a
state exactly when it meets the condition. -/
theorem points_clientStep_iff (hpoints : Points contextP) (hallocated : Allocated contextP)
    (h : clientStep contextP event = .ok contextP') :
    Points contextP' ↔ EventKeepsWatched contextP event := by
  by_cases hstep : ∃ env, event = .step env
  · obtain ⟨env, rfl⟩ := hstep
    obtain ⟨⟨contextQ, sent⟩, hok, h⟩ := bind_eq_ok_iff.mp h
    cases h
    exact (points_lwm2mStep_iff hok).trans (points_stepState_iff env hpoints hallocated)
  · have hgrows := grows_clientStep (fun env h => hstep ⟨env, h⟩) h
    have hevery := clientStep_everyEntry (hereditary_onList _) (admitsServers_onList _) h hpoints
    refine iff_of_true (hgrows.points hevery) ?_
    cases event with
    | step env => exact absurd ⟨env, rfl⟩ hstep
    | _ => trivial

/-- The servers stay allocated and different. -/
theorem allocated_clientStep (hallocated : Allocated contextP)
    (h : clientStep contextP event = .ok contextP') : Allocated contextP' := by
  by_cases hstep : ∃ env, event = .step env
  · obtain ⟨env, rfl⟩ := hstep
    have hstate : Allocated (stepState contextP env).1 := by
      refine (grows_stepState contextP env).allocated ?_
      split_ifs
      · have hsub : (refs (withoutDirty contextP)).Sublist (refs contextP) :=
          (List.filter_sublist).map _
        exact ⟨hsub.nodup hallocated.nodup, fun ref hr => hallocated.lt ref (hsub.subset hr)⟩
      · exact hallocated
    obtain ⟨⟨contextQ, sent⟩, hok, h⟩ := bind_eq_ok_iff.mp h
    cases h
    unfold lwm2mStep at hok
    split at hok
    · rename_i contextR code hcontext
      cases hok
      rwa [hcontext] at hstate
    · rename_i contextR hcontext
      obtain ⟨⟨l, mid, sent'⟩, -, hok⟩ := bind_eq_ok_iff.mp hok
      cases hok
      rw [hcontext] at hstate
      have hmap : Grows contextR { contextR with
          serverList := contextR.serverList.map env.servers.update } := .map env.servers.ref_update
      exact ⟨(hmap.allocated hstate).nodup, (hmap.allocated hstate).lt⟩
  · exact (grows_clientStep (fun env h => hstep ⟨env, h⟩) h).allocated hallocated

/-! ### No freed server is followed -/

/-- The fault is not the use of a freed server. -/
def NotFreed (fault : Fault) : Prop := fault ≠ .useAfterFree

instance : DecidablePred NotFreed := fun _ => inferInstanceAs (Decidable (_ ≠ _))

section Faults

variable {serverList : List Server} {observedList : List Observed} {watcherList : List Watcher}

/-- Following a pointer fails only when its server is not on the list. -/
theorem deref_ensures (ref : ServerRef) : Ensures (deref serverList ref) (fun _ => True)
    fun fault => fault = .useAfterFree ∧ ref ∉ serverList.map Server.ref := by
  unfold deref
  cases hfind : serverList.find? (·.ref = ref) with
  | some found => exact Ensures.ok_iff.mpr trivial
  | none =>
    refine Ensures.error_iff.mpr ⟨rfl, fun hmem => ?_⟩
    obtain ⟨server, hserver, href⟩ := List.mem_map.mp hmem
    exact absurd (List.find?_eq_none.mp hfind server hserver) (by simpa using href)

theorem findCancelled_notFreed (mid : UInt16) (session : Session)
    (h : OnList serverList (watcherList.map Watcher.server)) :
    Ensures (findCancelled serverList mid session watcherList) (fun _ => True) NotFreed := by
  induction watcherList with
  | nil => exact Ensures.pure_iff.mpr trivial
  | cons w next ih =>
    have hnext : Ensures (do
        return (← findCancelled serverList mid session next).map (Focus.push w))
        (fun _ => True) NotFreed :=
      (ih fun ref hr => h ref (List.mem_cons_of_mem _ hr)).bind fun _ _ => Ensures.pure_iff.mpr trivial
    refine Ensures.ite (fun _ => ?_) fun _ => hnext
    have hserver : Ensures (deref serverList w.server) (fun _ => True) NotFreed :=
      (deref_ensures w.server).mono (fun _ _ => trivial)
        fun _ hfault => absurd (h w.server List.mem_cons_self) hfault.2
    refine hserver.bind fun _ _ => ?_
    exact Ensures.ite (fun _ => Ensures.pure_iff.mpr trivial) fun _ => hnext

theorem observeCancel_notFreed (mid : UInt16) (session : Session)
    (h : EveryEntry (OnList serverList) observedList) :
    Ensures (observeCancel serverList mid session observedList) (fun _ => True) NotFreed := by
  induction observedList with
  | nil => exact Ensures.pure_iff.mpr trivial
  | cons o next ih =>
    obtain ⟨ho, hnext⟩ := List.forall_mem_cons.mp h
    refine Ensures.ite (fun _ => Ensures.throw_iff.mpr (by decide)) fun _ => ?_
    refine (findCancelled_notFreed mid session ho).bind fun r _ => ?_
    cases r with
    | some f =>
      exact Ensures.ite (fun _ => Ensures.pure_iff.mpr trivial)
        fun _ => Ensures.pure_iff.mpr trivial
    | none => exact (ih hnext).bind fun _ _ => Ensures.pure_iff.mpr trivial

theorem observeHandleRequest_notFreed (uriP : Uri) (serverP : Server) (value : DecodedValue)
    (time : ℤ) (message response : Packet) (h : EveryEntry (OnList serverList) observedList) :
    Ensures (observeHandleRequest serverList observedList uriP serverP value time message response)
      (fun _ => True) NotFreed := by
  have hdone {r : List Observed × Packet × Code} :
      Ensures (pure r) (fun _ => True) NotFreed := Ensures.pure_iff.mpr trivial
  refine Ensures.ite (fun _ => ?_) fun _ => Ensures.ite (fun _ => ?_) fun _ => hdone
  · exact Ensures.ite (fun _ => hdone) fun _ => Ensures.ite (fun _ => hdone) fun _ =>
      Ensures.ite (fun _ => hdone) fun _ => hdone
  · split
    · exact hdone
    · split
      · exact hdone
      · exact (observeCancel_notFreed _ _ h).bind fun _ _ => hdone

theorem observeSetParameters_notFreed (uriP : Uri) (server : ServerRef) (attrP : Attributes)
    (readable : Code) : Ensures (observeSetParameters observedList uriP server attrP readable)
      (fun _ => True) NotFreed := by
  have hdone {r : List Observed × Code} : Ensures (pure r) (fun _ => True) NotFreed :=
    Ensures.pure_iff.mpr trivial
  have hthreshold (flag : UInt8) (field : Attributes → Double) (p : Option Attributes) :
      Ensures (thresholdInForce flag field attrP p) (fun _ => True) NotFreed := by
    refine Ensures.ite (fun _ => Ensures.pure_iff.mpr trivial) fun _ => ?_
    cases p with
    | none => exact Ensures.throw_iff.mpr (by decide)
    | some p => exact Ensures.pure_iff.mpr trivial
  have hclash (p : Option Attributes) :
      Ensures (thresholdsClash attrP p) (fun _ => True) NotFreed := by
    refine Ensures.ite (fun _ => ?_) fun _ => Ensures.pure_iff.mpr trivial
    refine (hthreshold _ _ _).bind fun _ _ => (hthreshold _ _ _).bind fun _ _ => ?_
    exact (hthreshold _ _ _).bind fun _ _ => Ensures.pure_iff.mpr trivial
  refine Ensures.ite (fun _ => hdone) fun _ => Ensures.ite (fun _ => hdone) fun _ => ?_
  refine (hclash _).bind fun _ _ => Ensures.ite (fun _ => hdone) fun _ => ?_
  split
  · exact Ensures.ite (fun _ => hdone) fun _ => hdone
  · exact hdone

/-- The notifications fail only on the pointer of a watcher that is not valid. -/
theorem notifyWatchers_ensures (input : StepInput) (currentTime : ℤ) (nextMID : UInt16)
    (prepared : Option Packet) :
    Ensures (notifyWatchers serverList input currentTime nextMID prepared watcherList)
      (fun _ => True) fun fault => fault = .useAfterFree ∧
        ¬ OnList serverList (watcherList.map Watcher.server) := by
  induction watcherList generalizing nextMID prepared with
  | nil => exact Ensures.pure_iff.mpr trivial
  | cons w next ih =>
    have hderef : Ensures (deref serverList w.server) (fun _ => True) fun fault =>
        fault = .useAfterFree ∧ ¬ OnList serverList ((w :: next).map Watcher.server) :=
      (deref_ensures w.server).mono (fun _ h => h) fun fault hfault =>
        ⟨hfault.1, fun h => hfault.2 (h w.server List.mem_cons_self)⟩
    have hnext (nextMID : UInt16) (prepared : Option Packet) :
        Ensures (notifyWatchers serverList input currentTime nextMID prepared next)
          (fun _ => True) fun fault =>
            fault = .useAfterFree ∧ ¬ OnList serverList ((w :: next).map Watcher.server) :=
      (ih nextMID prepared).mono (fun _ h => h) fun fault hfault =>
        ⟨hfault.1, fun h => hfault.2 fun ref hr => h ref (List.mem_cons_of_mem _ hr)⟩
    refine Ensures.ite (fun _ => ?_) fun _ => ?_
    · split
      · exact hderef.bind fun _ _ => (hnext _ _).bind fun _ _ => Ensures.pure_iff.mpr trivial
      · split
        · exact Ensures.pure_iff.mpr trivial
        · exact hderef.bind fun _ _ => (hnext _ _).bind fun _ _ => Ensures.pure_iff.mpr trivial
    · exact (hnext _ _).bind fun _ _ => Ensures.pure_iff.mpr trivial

theorem observeStep_ensures (input : Uri → StepInput) (currentTime : ℤ) (nextMID : UInt16) :
    Ensures (observeStep serverList input currentTime nextMID observedList)
      (fun _ => True) fun fault => fault = .useAfterFree ∧
        ¬ EveryEntry (OnList serverList) observedList := by
  induction observedList generalizing nextMID with
  | nil => exact Ensures.pure_iff.mpr trivial
  | cons o next ih =>
    have hnext (nextMID : UInt16) : Ensures (observeStep serverList input currentTime nextMID next)
        (fun _ => True) fun fault =>
          fault = .useAfterFree ∧ ¬ EveryEntry (OnList serverList) (o :: next) :=
      (ih nextMID).mono (fun _ h => h) fun fault hfault =>
        ⟨hfault.1, fun h => hfault.2 (List.forall_mem_cons.mp h).2⟩
    have hwatchers : Ensures (notifyWatchers serverList (input o.uri) currentTime nextMID none
        o.watcherList) (fun _ => True) fun fault =>
          fault = .useAfterFree ∧ ¬ EveryEntry (OnList serverList) (o :: next) :=
      (notifyWatchers_ensures _ _ _ _).mono (fun _ h => h) fun fault hfault =>
        ⟨hfault.1, fun h => hfault.2 (List.forall_mem_cons.mp h).1⟩
    refine Ensures.ite (fun _ => ?_) fun _ => ?_
    · exact hwatchers.bind fun _ _ => (hnext _).bind fun _ _ => Ensures.pure_iff.mpr trivial
    · exact (hnext _).bind fun _ _ => Ensures.pure_iff.mpr trivial

end Faults

theorem dmHandleRequest_notFreed (uriP : Uri) (serverP : Server) (message response : Packet)
    (outcome : Outcome) (hpoints : Points contextP) :
    Ensures (dmHandleRequest contextP uriP serverP message response outcome)
      (fun _ => True) NotFreed := by
  have hdone {r : Context × Packet × Code} : Ensures (pure r) (fun _ => True) NotFreed :=
    Ensures.pure_iff.mpr trivial
  refine Ensures.ite (fun _ => hdone) fun _ => Ensures.ite (fun _ => hdone) fun _ =>
    Ensures.ite (fun _ => Ensures.ite (fun _ => ?_) fun _ => ?_) fun _ =>
    Ensures.ite (fun _ => hdone) fun _ => Ensures.ite (fun _ => ?_) fun _ =>
    Ensures.ite (fun _ => hdone) fun _ => hdone
  · unfold observeRequest
    refine Ensures.ite (fun _ => hdone) fun _ => Ensures.ite (fun _ => hdone) fun _ => ?_
    refine (observeHandleRequest_notFreed _ _ _ _ _ _ hpoints).bind fun _ _ => ?_
    refine Ensures.ite (fun _ => hdone) fun _ => ?_
    split
    · exact hdone
    · exact hdone
  · exact Ensures.ite (fun _ => hdone) fun _ => hdone
  · unfold putRequest
    refine Ensures.ite (fun _ => ?_) fun _ => Ensures.ite (fun _ => hdone) fun _ => hdone
    split
    · exact hdone
    · exact (observeSetParameters_notFreed _ _ _ _).bind fun _ _ => hdone

theorem handleRequest_notFreed (altPath : Option CString) (fromSessionH : Session)
    (message response : Packet) (outcome : Outcome) (hpoints : Points contextP) :
    Ensures (handleRequest altPath contextP fromSessionH message response outcome)
      (fun _ => True) NotFreed := by
  have hdone {r : Context × Packet × Code} :
      Ensures (.ok r : Except Fault (Context × Packet × Code)) (fun _ => True) NotFreed :=
    Ensures.ok_iff.mpr trivial
  have hdecode : Ensures (uriDecode altPath message.uriPath message.code) (fun _ => True)
      NotFreed :=
    (uriDecode_ensures _ _ _).mono (fun _ _ => trivial) fun fault h => by rw [h]; decide
  refine hdecode.bind fun decoded _ => ?_
  obtain ⟨requestType, uri⟩ := decoded
  cases requestType with
  | unknown => exact hdone
  | registration | deleteAll | bootstrap =>
    simp only [pure_eq_ok, ok_bind]
    split_ifs <;> exact hdone
  | dm =>
    simp only [pure_eq_ok, ok_bind]
    split
    · refine (dmHandleRequest_notFreed _ _ _ _ _ hpoints).bind fun _ _ => ?_
      split_ifs <;> exact hdone
    · split <;> split_ifs <;> exact hdone

theorem receivePayload_notFreed (blockSize : UInt16) (fromSessionH : Session)
    (message response : Packet) :
    Ensures (receivePayload blockSize contextP fromSessionH message response)
      (fun _ => True) NotFreed := by
  have hfind (head : List BlockData) (identifier : BlockDataIdentifier) :
      Ensures (findBlockData head identifier .block1) (fun _ => True) NotFreed := by
    induction head with
    | nil => exact Ensures.pure_iff.mpr trivial
    | cons blockData next ih =>
      have hmatch : Ensures (prvMatchBlock1 identifier blockData) (fun _ => True) NotFreed := by
        have hread (identifier : BlockDataIdentifier) :
            Ensures identifier.readUri (fun _ => True) NotFreed := by
          cases identifier with
          | uri uri => exact Ensures.pure_iff.mpr trivial
          | mid mid => exact Ensures.throw_iff.mpr (by decide)
        refine (hread _).bind fun _ _ => (hread _).bind fun _ _ => ?_
        split
        · exact Ensures.pure_iff.mpr trivial
        · exact Ensures.pure_iff.mpr trivial
      refine hmatch.bind fun _ _ => Ensures.ite (fun _ => Ensures.pure_iff.mpr trivial) fun _ => ?_
      refine ih.bind fun r _ => ?_
      cases r with
      | none => exact Ensures.pure_iff.mpr trivial
      | some f => exact Ensures.pure_iff.mpr trivial
  have hdone {r : Context × Packet × Packet × Code} : Ensures (pure r) (fun _ => True) NotFreed :=
    Ensures.pure_iff.mpr trivial
  refine Ensures.ite (fun _ => hdone) fun _ => Ensures.ite (fun _ => ?_) fun _ => hdone
  split
  · exact hdone
  · refine Ensures.bind (Q := fun _ => True) ?_ fun _ _ => hdone
    refine (hfind _ _).bind fun found _ => ?_
    refine Ensures.ite (fun _ => ?_) fun _ => ?_
    · cases found with
      | none => exact Ensures.pure_iff.mpr trivial
      | some f => exact Ensures.pure_iff.mpr trivial
    · cases found with
      | none => exact Ensures.pure_iff.mpr trivial
      | some f =>
        refine Ensures.ite (fun _ => Ensures.pure_iff.mpr trivial) fun _ => ?_
        refine Ensures.ite (fun _ => ?_) fun _ => Ensures.pure_iff.mpr trivial
        exact Ensures.ite (fun _ => Ensures.pure_iff.mpr trivial)
          fun _ => Ensures.pure_iff.mpr trivial

theorem lwm2mHandleRequestPacket_notFreed (altPath : Option CString) (blockSize : UInt16)
    (fromSessionH : Session) (message : Packet) (outcome : Outcome) (hpoints : Points contextP) :
    Ensures (lwm2mHandleRequestPacket altPath blockSize contextP fromSessionH message outcome)
      (fun _ => True) NotFreed := by
  have hdone {r : Context × Option Packet} : Ensures (pure r) (fun _ => True) NotFreed :=
    Ensures.pure_iff.mpr trivial
  have hprepare := sameServers_prepareResponse contextP message
  refine Ensures.bind (Q := fun r => Points r.1) ⟨?_, ?_⟩ fun r hr => ?_
  · rintro ⟨contextQ, messageQ, responseQ, code⟩ hpayload
    have hsame := hprepare.trans (receivePayload_cases hpayload).1
    have hgrows : Grows contextP contextQ := .of_refs_eq hsame.refs hsame.allocated
    unfold Points
    rw [hsame.observedList]
    exact hgrows.points hpoints
  · exact (receivePayload_notFreed _ _ _ _).2
  · obtain ⟨contextQ, messageQ, responseQ, code⟩ := r
    have hlast (r : Context × Packet × Code) :
        Ensures (if r.2.2 = noError then
            pure (r.1, some (selectBlock2 blockSize messageQ r.2.1))
          else if r.2.2 ≠ coapIgnore then
            pure (r.1, some { r.2.1 with code := errorCode r.2.1 r.2.2 })
          else pure (r.1, none)) (fun _ => True) NotFreed :=
      Ensures.ite (fun _ => hdone) fun _ => Ensures.ite (fun _ => hdone) fun _ => hdone
    refine Ensures.ite (fun _ => ?_) fun _ => ?_
    · exact (handleRequest_notFreed _ _ _ _ _ hr).bind fun r _ => hlast r
    · exact hlast (contextQ, responseQ, code)

/-- A step fails only on a pointer that its state part left dangling. -/
theorem lwm2mStep_ensures (contextP : Context) (env : StepEnv) :
    Ensures (lwm2mStep contextP env) (fun _ => True) fun fault =>
      fault = .useAfterFree ∧ ¬ Points (stepState contextP env).1 := by
  unfold lwm2mStep
  split
  · exact Ensures.pure_iff.mpr trivial
  · rename_i contextQ hcontext
    rw [hcontext]
    exact (observeStep_ensures _ _ _).bind fun _ _ => Ensures.pure_iff.mpr trivial

/-- **No freed server is followed**: an event that meets the condition, in a state in which
every pointer is valid. -/
theorem clientStep_notFreed (event : Event) (hpoints : Points contextP)
    (hallocated : Allocated contextP) (hkeeps : EventKeepsWatched contextP event) :
    Ensures (clientStep contextP event) (fun _ => True) NotFreed := by
  cases event with
  | request altPath blockSize fromSessionH message outcome =>
    exact (lwm2mHandleRequestPacket_notFreed _ _ _ _ _ hpoints).bind
      fun _ _ => Ensures.pure_iff.mpr trivial
  | reset fromSessionH mid =>
    exact (observeCancel_notFreed mid fromSessionH hpoints).bind
      fun _ _ => Ensures.pure_iff.mpr trivial
  | step env =>
    have hstate := (points_stepState_iff env hpoints hallocated).mpr hkeeps
    refine Ensures.bind (Q := fun _ => True) ?_ fun _ _ => Ensures.pure_iff.mpr trivial
    exact (lwm2mStep_ensures contextP env).mono (fun _ h => h)
      fun fault hfault => absurd hstate hfault.2
  | _ => exact Ensures.pure_iff.mpr trivial

/-! ### Runs -/

/-- In every state that the run reaches every pointer is valid, and no event of the run
follows a pointer to a freed server. -/
def RunSafe (nextMID : UInt16) (objectList : List ObjectEntry) (events : List Event) : Prop :=
  ∀ history, history <+: events →
    Ensures (clientRun nextMID objectList history) Points NotFreed

/-- Every refresh of the run frees servers that are not watched only. -/
def RunKeepsWatched (nextMID : UInt16) (objectList : List ObjectEntry) (events : List Event) :
    Prop :=
  ∀ history event, history ++ [event] <+: events → ∀ contextP,
    clientRun nextMID objectList history = .ok contextP → EventKeepsWatched contextP event

theorem clientRun_snoc (nextMID : UInt16) (objectList : List ObjectEntry) (history : List Event)
    (event : Event) : clientRun nextMID objectList (history ++ [event]) =
      clientRun nextMID objectList history >>= fun contextP => clientStep contextP event := by
  unfold clientRun
  rw [List.foldlM_append]
  simp only [List.foldlM_cons, List.foldlM_nil, bind_pure]

theorem allocated_clientRun {nextMID : UInt16} {objectList : List ObjectEntry}
    {events : List Event} (h : clientRun nextMID objectList events = .ok contextP) :
    Allocated contextP := by
  induction events using List.reverseRecOn generalizing contextP with
  | nil =>
    cases h
    exact ⟨List.nodup_nil, fun ref hr => absurd hr List.not_mem_nil⟩
  | append_singleton history event ih =>
    rw [clientRun_snoc] at h
    obtain ⟨contextQ, hhistory, hevent⟩ := bind_eq_ok_iff.mp h
    exact allocated_clientStep (ih hhistory) hevent

/-- **Every watcher points to a server of the list, in every state of a run, exactly when
no refresh of the run meets a watcher of a dirty server.**  For every sequence of received
requests, resets, bootstrap commands, steps and calls of the application: in every state
reached every pointer is valid, and no pointer to a freed server is followed, if and only if
each step that refreshes the server list starts in a state in which no watcher points to a
server marked as dirty. -/
theorem watchers_point_to_servers_iff (nextMID : UInt16) (objectList : List ObjectEntry)
    (events : List Event) :
    RunSafe nextMID objectList events ↔ RunKeepsWatched nextMID objectList events := by
  constructor
  · intro hsafe history event hinit contextP hrun
    have hhistory := hsafe history ((List.prefix_append _ _).trans hinit)
    have hpoints := hhistory.1 _ hrun
    have hallocated := allocated_clientRun hrun
    have hnext := hsafe _ hinit
    rw [clientRun_snoc, hrun, ok_bind] at hnext
    cases hevent : clientStep contextP event with
    | ok contextQ =>
      exact (points_clientStep_iff hpoints hallocated hevent).mp (hnext.1 _ hevent)
    | error fault =>
      cases event with
      | step env =>
        have hfault := hnext.2 _ hevent
        rcases bind_eq_error_iff.mp hevent with hstep | ⟨r, -, hr⟩
        · exact absurd ((lwm2mStep_ensures contextP env).2 _ hstep).1 hfault
        · cases hr
      | _ => trivial
  · intro hkeeps history hinit
    induction history using List.reverseRecOn with
    | nil => exact Ensures.ok_iff.mpr fun o ho => absurd ho List.not_mem_nil
    | append_singleton history event ih =>
      have hhistory := ih ((List.prefix_append _ _).trans hinit)
      rw [clientRun_snoc]
      refine Ensures.bind (Q := fun contextP =>
        Points contextP ∧ clientRun nextMID objectList history = .ok contextP)
        ⟨fun contextP h => ⟨hhistory.1 _ h, h⟩, hhistory.2⟩ fun contextP h => ?_
      have hevent := hkeeps history event hinit contextP h.2
      have hallocated := allocated_clientRun h.2
      refine ⟨fun contextQ hstep => ?_, (clientStep_notFreed event h.1 hallocated hevent).2⟩
      exact (points_clientStep_iff h.1 hallocated hstep).mpr hevent

/-- The instances of a Security object: one of a bootstrap server, one of a server. -/
def twoInstances : SecurityInstances := [(0, .bootstrap), (1, .server 1)]

/-- A bootstrap while a server observes: the server is registered and observes `/3/0`; the
application asks for a bootstrap; the bootstrap server deletes `/0`, writes `/0/1` again and
finishes; the client refreshes its servers. -/
def bootstrapWhileObserved : List Event :=
  [.step { registration with security := some twoInstances },
    .request none 1024 (some 1) (observeGet [[0x33], [0x30]] [1]) readable,
    .setState .bootstrapRequired,
    .step { registration with
      bootstrapServers :=
        ⟨fun server => { server with sessionH := some 2, status := .bsPending }, fun _ => rfl⟩ },
    .request none 1024 (some 2) { code := 4, uriPath := [[0x30]] }
      { bootstrap := { deletion := ⟨0, [1], coap202Deleted⟩ } },
    .request none 1024 (some 2) { code := 3, uriPath := [[0x30], [0x31]] }
      { bootstrap := { isNew := true, code := coap201Created } },
    .request none 1024 (some 2) { code := 2, uriPath := [[0x62, 0x73]] }
      { security := some twoInstances },
    .response .refl ⟨fun server => { server with status := .bsFinished }, fun _ => rfl⟩ 0,
    .step { registration with security := some twoInstances }]

/-- **A watcher outlives its server.**  After that bootstrap the watcher of `/3/0` points to
the server that was freed, and the next step that notifies follows the pointer. -/
theorem watcher_outlives_server : ∃ contextP, clientRun 0 [] bootstrapWhileObserved = .ok contextP ∧
    contextP.observedList.map Observed.servers = [[1]] ∧ refs contextP = [2] ∧
    ¬ Points contextP ∧
    clientStep contextP (.step { registration with
      observe := fun _ => ⟨true, fun _ => true, fun format => some (format, some []), none⟩ }) =
      .error .useAfterFree := by
  refine ⟨_, rfl, rfl, rfl, fun hpoints => ?_, rfl⟩
  have hone : (1 : ServerRef) ∈ [2] := hpoints _ List.mem_cons_self 1 (by decide)
  exact absurd hone (by decide)

end Lwm2m.Core

/-
# Who watches what

The observations as the code's two pointers see them: for each observed URI the
servers of its watchers, in order.  Every event of the client changes this by
removing watchers and entries, and by adding a watcher of the server that sent a
request to an entry that has none of that server.  An entry without watchers is
removed.  An invariant of the observed list that survives what the functions of
`observe.c` do to it (`Kept`) holds in every run (`Kept.clientRun`).  So does, of every
entry, a property of lists of servers that survives removal and the addition of a server
(`Hereditary`, `Admits`, `clientRun_everyEntry`): no two watchers of an entry have the same
server (`nodup_watchers`), and every entry has a watcher (`watcherList_ne_nil`).
-/

import Lwm2m.Core.Client
import Lwm2m.Core.Dispatch

namespace Lwm2m.Core

open Coap Code Library

/-- The servers that watch an observed URI. -/
def Observed.servers (o : Observed) : List ServerRef := o.watcherList.map Watcher.server

/-- A property of lists of servers that survives removal as long as a server is left. -/
def Hereditary (P : List ServerRef → Prop) : Prop :=
  ∀ {l₁ l₂ : List ServerRef}, l₁ ≠ [] → l₁.Sublist l₂ → P l₂ → P l₁

/-- A property of lists of servers that holds of the server alone and survives its
addition where it is new. -/
structure Admits (P : List ServerRef → Prop) (server : ServerRef) : Prop where
  singleton : P [server]
  cons : ∀ l, server ∉ l → P l → P (server :: l)

/-- The property holds of the servers of every entry. -/
def EveryEntry (P : List ServerRef → Prop) (observedList : List Observed) : Prop :=
  ∀ o ∈ observedList, P o.servers

theorem hereditary_nodup : Hereditary List.Nodup := fun _ h => h.nodup

theorem admits_nodup (server : ServerRef) : Admits List.Nodup server :=
  ⟨List.nodup_singleton server, fun _ hnotin h => List.nodup_cons.mpr ⟨hnotin, h⟩⟩

theorem hereditary_ne_nil : Hereditary (· ≠ []) := fun hne _ _ => hne

theorem admits_ne_nil (server : ServerRef) : Admits (· ≠ []) server :=
  ⟨List.cons_ne_nil _ _, fun _ _ _ => List.cons_ne_nil _ _⟩

variable {P : List ServerRef → Prop} {observedList observedList' : List Observed} {uriP : Uri}
  {server : ServerRef} {watcherList : List Watcher}

/-! ### The pointer to a watcher -/

/-- The watcher that `prv_getWatcher` finds or makes on an entry. -/
def watcherOf (watcherList : List Watcher) (server : ServerRef) : Focus Watcher :=
  (prvFindWatcher watcherList server).getD ⟨[], { server }, watcherList⟩

/-- The watcher of a server on the entry that `prv_findObserved` returns. -/
def existingWatcher (observedList : List Observed) (uriP : Uri) (serverP : ServerRef) :
    Option Watcher :=
  (prvFindObserved observedList uriP).bind fun entry =>
    (prvFindWatcher entry.here.watcherList serverP).map Focus.here

/-- The two ways of `prv_getWatcher`: the watcher exists, or it is put in front of the
watchers, none of which belongs to the server. -/
theorem watcherOf_cases (watcherList : List Watcher) (server : ServerRef) :
    ((watcherOf watcherList server).list = watcherList ∧
        (watcherOf watcherList server).here.server = server) ∨
      (watcherOf watcherList server = ⟨[], { server }, watcherList⟩ ∧
        server ∉ watcherList.map Watcher.server) := by
  unfold watcherOf prvFindWatcher
  cases h : focusFirst (fun w : Watcher => decide (w.server = server)) watcherList with
  | none =>
    refine .inr ⟨rfl, ?_⟩
    have hnone := focusFirst_eq_none_iff.mp h
    rw [List.mem_map]
    rintro ⟨w, hw, hserver⟩
    exact hnone w hw (by simpa using hserver)
  | some f =>
    have ⟨hlist, hhere, _⟩ := focusFirst_eq_some_iff.mp h
    exact .inl ⟨hlist, by simpa using hhere⟩

variable {w : Watcher} {mid nextMID' : UInt16} {session : Session} {value : DecodedValue}
  {time currentTime : ℤ} {event : Event}

/-- The servers of the entry after a write through the pointer. -/
theorem servers_watcherOf_set (hadmits : Admits P server) (h : P (watcherList.map Watcher.server))
    (hw : w.server = server) :
    P (((watcherOf watcherList server).set w).map Watcher.server) := by
  rcases watcherOf_cases watcherList server with ⟨hlist, hhere⟩ | ⟨hfocus, hnotin⟩
  · have hsame : ((watcherOf watcherList server).set w).map Watcher.server =
        watcherList.map Watcher.server := by
      conv_rhs => rw [← hlist]
      simp [Focus.list, Focus.set, hw, hhere]
    rwa [hsame]
  · rw [hfocus]
    simpa [Focus.set, hw] using hadmits.cons _ hnotin h

/-- The entry that `prv_getWatcher` works on is an entry of the list, or a new one in
front of it when no entry matches. -/
theorem prvGetWatcher_entry (observedList : List Observed) (uriP : Uri) (server : ServerRef) :
    (prvFindObserved observedList uriP = some (prvGetWatcher observedList uriP server).entry ∧
        (prvGetWatcher observedList uriP server).entry.list = observedList) ∨
      (prvFindObserved observedList uriP = none ∧
        (prvGetWatcher observedList uriP server).entry = ⟨[], ⟨uriP, []⟩, observedList⟩) := by
  unfold prvGetWatcher
  cases h : prvFindObserved observedList uriP with
  | none => exact .inr ⟨rfl, rfl⟩
  | some f => exact .inl ⟨rfl, (focusFirst_eq_some_iff.mp h).1⟩

@[simp] theorem prvGetWatcher_watcher (observedList : List Observed) (uriP : Uri)
    (server : ServerRef) : (prvGetWatcher observedList uriP server).watcher =
      watcherOf (prvGetWatcher observedList uriP server).entry.here.watcherList server := rfl

/-- The watcher belongs to the server. -/
theorem prvGetWatcher_server (observedList : List Observed) (uriP : Uri) (server : ServerRef) :
    (prvGetWatcher observedList uriP server).watcher.here.server = server := by
  rw [prvGetWatcher_watcher]
  rcases watcherOf_cases (prvGetWatcher observedList uriP server).entry.here.watcherList server
    with ⟨_, h⟩ | ⟨h, _⟩
  · exact h
  · rw [h]

/-- A write to the watcher that `prv_getWatcher` returns. -/
theorem everyEntry_prvGetWatcher_set (hadmits : Admits P server) (h : EveryEntry P observedList)
    (hw : w.server = server) :
    EveryEntry P ((prvGetWatcher observedList uriP server).set w) := by
  intro o ho
  have hentry := prvGetWatcher_entry observedList uriP server
  rcases Focus.mem_set.mp ho with rfl | ho
  · rcases hentry with ⟨-, hlist⟩ | ⟨-, hnew⟩
    · have hmem := Focus.here_mem_list (prvGetWatcher observedList uriP server).entry
      rw [hlist] at hmem
      exact servers_watcherOf_set hadmits (h _ hmem) hw
    · show P (((prvGetWatcher observedList uriP server).watcher.set w).map Watcher.server)
      rw [prvGetWatcher_watcher, hnew]
      show P [w.server]
      rw [hw]
      exact hadmits.singleton
  · rcases hentry with ⟨-, hlist⟩ | ⟨-, hnew⟩
    · have hmem := Focus.mem_list.mpr (.inr ho)
      rw [hlist] at hmem
      exact h _ hmem
    · rw [hnew] at ho
      exact h _ ho

/-! ### The functions of the observations -/

variable {serverList : List Server} {serverP : Server} {message response response' : Packet}
  {code : Code} {nextMID : UInt16} {sent : List Sent} {I : List Observed → Prop}
  {S : ServerRef → Prop} {objectList : List ObjectEntry} {events : List Event}

/-- `observe_cancel` removes. -/
theorem findCancelled_list {f : Focus Watcher}
    (h : findCancelled serverList mid session watcherList = .ok (some f)) :
    f.list = watcherList := by
  induction watcherList generalizing f with
  | nil => cases h
  | cons w next ih =>
    unfold findCancelled at h
    have hnext : (findCancelled serverList mid session next >>= fun r =>
        pure (r.map (Focus.push w))) = .ok (some f) → f.list = w :: next := by
      intro h
      obtain ⟨r, hr, h⟩ := bind_eq_ok_iff.mp h
      simp only [pure_eq_ok, Except.ok.injEq] at h
      obtain ⟨g, rfl, rfl⟩ := Option.map_eq_some_iff.mp h
      have := ih hr
      simpa [Focus.push, Focus.list, Focus.set] using this
    split_ifs at h with hmid
    · obtain ⟨s, _, h⟩ := bind_eq_ok_iff.mp h
      split_ifs at h with hsession
      · simp only [pure_eq_ok, Except.ok.injEq, Option.some.injEq] at h
        rw [← h]
        rfl
      · exact hnext h
    · exact hnext h

theorem everyEntry_observeCancel (hP : Hereditary P)
    (h : observeCancel serverList mid session observedList = .ok observedList')
    (hevery : EveryEntry P observedList) : EveryEntry P observedList' := by
  induction observedList generalizing observedList' with
  | nil =>
    cases h
    exact hevery
  | cons o next ih =>
    unfold observeCancel at h
    split_ifs at h with hnil
    · cases h
    have ⟨ho, hnext⟩ := List.forall_mem_cons.mp hevery
    obtain ⟨r, hr, h⟩ := bind_eq_ok_iff.mp h
    cases r with
    | none =>
      obtain ⟨l, hl, h⟩ := bind_eq_ok_iff.mp h
      cases h
      exact List.forall_mem_cons.mpr ⟨ho, ih hl hnext⟩
    | some f =>
      dsimp only at h
      split_ifs at h with hlast
      · cases h
        exact hnext
      · cases h
        refine List.forall_mem_cons.mpr ⟨?_, hnext⟩
        have hlist := findCancelled_list hr
        refine hP (by simpa [Observed.servers] using hlast) ?_ ho
        show List.Sublist (f.unlink.map Watcher.server) (o.watcherList.map Watcher.server)
        rw [← hlist]
        exact (List.Sublist.append_left (List.sublist_cons_self _ _) _).map _

theorem everyEntry_observeClear (uriP : Uri) (hevery : EveryEntry P observedList) :
    EveryEntry P (observeClear observedList uriP) :=
  fun o ho => hevery o (List.mem_of_mem_filter ho)

/-- What `observe_handleRequest` does to the observations: nothing; for the value 0 a
write to the watcher of the server that asks; for the value 1 a cancellation. -/
theorem observeHandleRequest_cases
    (h : observeHandleRequest serverList observedList uriP serverP value time message response =
      .ok (observedList', response', code)) :
    (observedList' = observedList ∧ (message.observe = 0 → code ≠ coap205Content)) ∨
    (message.observe = 0 ∧ ∃ w : Watcher, w.server = serverP.ref ∧ w.token = message.token ∧
      w.active = true ∧
      w.parameters = (prvGetWatcher observedList uriP serverP.ref).watcher.here.parameters ∧
      observedList' = (prvGetWatcher observedList uriP serverP.ref).set w) ∨
    (message.observe = 1 ∧ ∃ mid,
      observeCancel serverList mid serverP.sessionH observedList = .ok observedList') := by
  unfold observeHandleRequest at h
  have hserver := prvGetWatcher_server observedList uriP serverP.ref
  by_cases hzero : message.observe = 0
  · rw [if_pos hzero] at h
    by_cases hset : ¬ uriP.isSetInstance ∧ uriP.isSetResource
    · rw [if_pos hset] at h
      cases h
      exact .inl ⟨rfl, fun _ => by decide⟩
    by_cases htoken : message.token.length = 0
    · rw [if_neg hset, if_pos htoken] at h
      cases h
      exact .inl ⟨rfl, fun _ => by decide⟩
    rw [if_neg hset, if_neg htoken] at h
    refine .inr (.inl ⟨hzero, ?_⟩)
    by_cases hundecodable : uriP.isSetResource ∧ value = .undecodable
    · simp only [if_pos hundecodable, pure_eq_ok, Except.ok.injEq, Prod.mk.injEq] at h
      exact ⟨{ (prvGetWatcher observedList uriP serverP.ref).watcher.here with
        token := message.token
        active := true
        lastTime := time
        lastMid := response.mid
        format := response.contentType.toUInt16 }, hserver, rfl, rfl, rfl, h.1.symm⟩
    · simp only [if_neg hundecodable, pure_eq_ok, Except.ok.injEq, Prod.mk.injEq] at h
      refine ⟨_, ?_, ?_, ?_, ?_, h.1.symm⟩
      · cases value <;> [exact hserver; exact hserver; skip]
        split_ifs <;> exact hserver
      · cases value <;> [rfl; rfl; skip]
        split_ifs <;> rfl
      · cases value <;> [rfl; rfl; skip]
        split_ifs <;> rfl
      · cases value <;> [rfl; rfl; skip]
        split_ifs <;> rfl
  · rw [if_neg hzero] at h
    split_ifs at h with hone
    · split at h
      · cases h
        exact .inl ⟨rfl, fun h => absurd h hzero⟩
      · split at h
        · cases h
          exact .inl ⟨rfl, fun h => absurd h hzero⟩
        · obtain ⟨l, hl, h⟩ := bind_eq_ok_iff.mp h
          cases h
          exact .inr (.inr ⟨hone, _, hl⟩)
    · cases h
      exact .inl ⟨rfl, fun h => absurd h hzero⟩

/-- A list of entries with the same servers. -/
theorem everyEntry_of_servers_eq
    (h : observedList'.map Observed.servers = observedList.map Observed.servers)
    (hevery : EveryEntry P observedList) : EveryEntry P observedList' := by
  intro o ho
  have hmem := List.mem_map_of_mem (f := Observed.servers) ho
  rw [h] at hmem
  obtain ⟨o', ho', hservers⟩ := List.mem_map.mp hmem
  rw [← hservers]
  exact hevery o' ho'

/-- `lwm2m_resource_value_changed` only marks. -/
theorem everyEntry_lwm2mResourceValueChanged (uriP : Uri) (hevery : EveryEntry P observedList) :
    EveryEntry P (lwm2mResourceValueChanged observedList uriP) := by
  refine everyEntry_of_servers_eq ?_ hevery
  unfold lwm2mResourceValueChanged
  rw [List.map_map]
  refine List.map_congr_left fun o _ => ?_
  simp only [Function.comp]
  split
  · simp only [Observed.servers, List.map_map]
    refine List.map_congr_left fun w _ => ?_
    simp only [Function.comp]
    split <;> rfl
  · rfl

/-- A notification does not change who watches. -/
theorem servers_notifyWatchers {input : StepInput} {prepared : Option Packet}
    {watcherList' : List Watcher}
    (h : notifyWatchers serverList input currentTime nextMID prepared watcherList =
      .ok (watcherList', nextMID', sent)) :
    watcherList'.map Watcher.server = watcherList.map Watcher.server := by
  induction watcherList generalizing nextMID prepared watcherList' nextMID' sent with
  | nil =>
    cases h
    rfl
  | cons w next ih =>
    unfold notifyWatchers at h
    have hcons {w' : Watcher} {rest : List Watcher} (hw : w'.server = w.server)
        (hrest : rest.map Watcher.server = next.map Watcher.server) :
        (w' :: rest).map Watcher.server = (w :: next).map Watcher.server := by
      rw [List.map_cons, List.map_cons, hw, hrest]
    split_ifs at h
    · split at h
      · obtain ⟨server, -, h⟩ := bind_eq_ok_iff.mp h
        obtain ⟨⟨rest, mid, sent'⟩, hrest, h⟩ := bind_eq_ok_iff.mp h
        cases h
        exact hcons rfl (ih hrest)
      · split at h
        · cases h
          rfl
        · obtain ⟨server, -, h⟩ := bind_eq_ok_iff.mp h
          obtain ⟨⟨rest, mid, sent'⟩, hrest, h⟩ := bind_eq_ok_iff.mp h
          cases h
          exact hcons rfl (ih hrest)
    · obtain ⟨⟨rest, mid, sent'⟩, hrest, h⟩ := bind_eq_ok_iff.mp h
      cases h
      exact hcons rfl (ih hrest)

/-- What a notification leaves alone in an entry, `observe_step` leaves alone in all of them. -/
theorem map_observeStep {β : Type} (f : Observed → β) {input : Uri → StepInput}
    (hone : ∀ (o : Observed) {mid mid' watcherList here},
      notifyWatchers serverList (input o.uri) currentTime mid none o.watcherList =
        .ok (watcherList, mid', here) → f { o with watcherList } = f o)
    (h : observeStep serverList input currentTime nextMID observedList =
      .ok (observedList', nextMID', sent)) :
    observedList'.map f = observedList.map f := by
  induction observedList generalizing nextMID observedList' nextMID' sent with
  | nil =>
    cases h
    rfl
  | cons o next ih =>
    unfold observeStep at h
    split_ifs at h
    · obtain ⟨⟨watcherList, mid, here⟩, hwatchers, h⟩ := bind_eq_ok_iff.mp h
      obtain ⟨⟨rest, mid', there⟩, hrest, h⟩ := bind_eq_ok_iff.mp h
      cases h
      rw [List.map_cons, List.map_cons, ih hrest, hone o hwatchers]
    · obtain ⟨⟨rest, mid', there⟩, hrest, h⟩ := bind_eq_ok_iff.mp h
      cases h
      rw [List.map_cons, List.map_cons, ih hrest]

/-! ### What leaves the observations alone -/

variable {contextP contextP' : Context} {security : Option SecurityInstances}

@[simp] theorem getServersLoop_observedList (checkOnly : Bool) (contextP : Context)
    (instances : SecurityInstances) :
    (getServersLoop checkOnly contextP instances).1.observedList = contextP.observedList :=
  getServersLoop_invariant (I := fun c => c.observedList = contextP.observedList)
    (fun _ h => h) (fun _ _ h => h) (fun _ _ _ h => h) checkOnly instances rfl

@[simp] theorem objectGetServers_observedList (contextP : Context)
    (security : Option SecurityInstances) (checkOnly : Bool) :
    (objectGetServers contextP security checkOnly).1.observedList = contextP.observedList := by
  cases security <;> simp [objectGetServers]

@[simp] theorem lwm2mUpdateRegistration_observedList (contextP : Context)
    (security : Option SecurityInstances) (shortServerID : UInt16) (withObjects : Bool) :
    (lwm2mUpdateRegistration contextP security shortServerID withObjects).1.observedList =
      contextP.observedList := by
  unfold lwm2mUpdateRegistration
  dsimp only
  split_ifs <;> simp

@[simp] theorem prvTagServer_observedList (contextP : Context) (id : UInt16) :
    (prvTagServer contextP id).observedList = contextP.observedList := by
  unfold prvTagServer
  split_ifs <;> rfl

@[simp] theorem writeItems_observedList (contextP : Context) (objectId : UInt16) (result : Code)
    (items : List BootstrapItem) :
    (writeItems contextP objectId result items).1.observedList = contextP.observedList := by
  induction items generalizing contextP result with
  | nil => rfl
  | cons item next ih =>
    unfold writeItems
    dsimp only
    split_ifs <;> simp [ih]

@[simp] theorem bootstrapWrite_observedList (contextP : Context) (uriP : Uri) (message : Packet)
    (outcome : BootstrapOutcome) :
    (bootstrapWrite contextP uriP message outcome).1.observedList = contextP.observedList := by
  unfold bootstrapWrite
  split_ifs <;> try simp
  cases outcome.items <;> simp

/-! ### Invariants of the observed list -/

/-- What the events of the client do to the observed list keeps `I`, as long as the servers whose
requests it serves satisfy `S`. -/
structure Kept (I : List Observed → Prop) (S : ServerRef → Prop) : Prop where
  set : ∀ {l : List Observed} {uriP : Uri} {server : ServerRef} {w : Watcher}, S server →
    w.server = server → I l → I ((prvGetWatcher l uriP server).set w)
  cancel : ∀ {l l' : List Observed} {serverList : List Server} {mid : UInt16} {session : Session},
    observeCancel serverList mid session l = .ok l' → I l → I l'
  clear : ∀ {l : List Observed} (uriP : Uri), I l → I (observeClear l uriP)
  changed : ∀ {l : List Observed} (uriP : Uri), I l → I (lwm2mResourceValueChanged l uriP)
  step : ∀ {l l' : List Observed} {serverList : List Server} {input : Uri → StepInput}
    {currentTime : ℤ} {nextMID nextMID' : UInt16} {sent : List Sent},
    observeStep serverList input currentTime nextMID l = .ok (l', nextMID', sent) → I l → I l'

section kept

variable {I J : List Observed → Prop} {S : ServerRef → Prop}

/-- Two invariants together. -/
theorem Kept.and (hI : Kept I S) (hJ : Kept J S) : Kept (fun l => I l ∧ J l) S where
  set hserver hw h := ⟨hI.set hserver hw h.1, hJ.set hserver hw h.2⟩
  cancel hcancel h := ⟨hI.cancel hcancel h.1, hJ.cancel hcancel h.2⟩
  clear uriP h := ⟨hI.clear uriP h.1, hJ.clear uriP h.2⟩
  changed uriP h := ⟨hI.changed uriP h.1, hJ.changed uriP h.2⟩
  step hstep h := ⟨hI.step hstep h.1, hJ.step hstep h.2⟩

/-- An invariant that the requests of every server keep. -/
theorem Kept.forall_servers (hI : Kept I S) (hservers : ∀ server, S server) :
    Kept I fun _ => True :=
  { hI with set := fun _ hw h => hI.set (hservers _) hw h }

theorem Kept.clearDeleted (hI : Kept I S) (deletion : Deletion) (h : I observedList) :
    I (clearDeleted observedList deletion) := by
  unfold Core.clearDeleted
  induction deletion.deleted generalizing observedList with
  | nil => exact h
  | cons instanceId rest ih => exact ih (hI.clear _ h)

theorem Kept.observeHandleRequest (hI : Kept I S) (hserver : S serverP.ref)
    (h : observeHandleRequest serverList observedList uriP serverP value time message response =
      .ok (observedList', response', code)) (hkeeps : I observedList) : I observedList' := by
  rcases observeHandleRequest_cases h with
    ⟨hsame, -⟩ | ⟨-, w, hw, -, -, -, hset⟩ | ⟨-, mid, hcancel⟩
  · rw [hsame]
    exact hkeeps
  · rw [hset]
    exact hI.set hserver hw hkeeps
  · exact hI.cancel hcancel hkeeps

/-- `observe_setParameters` writes to the watcher of the server that asks. -/
theorem Kept.observeSetParameters (hI : Kept I S) (hserver : S server) {attrP : Attributes}
    {readable : Code}
    (h : observeSetParameters observedList uriP server attrP readable = .ok (observedList', code))
    (hkeeps : I observedList) : I observedList' := by
  unfold Core.observeSetParameters at h
  have hwrite {w : Watcher} (hw : w.server =
      (prvGetWatcher observedList uriP server).watcher.here.server) :
      I ((prvGetWatcher observedList uriP server).set w) :=
    hI.set hserver (by rw [hw, prvGetWatcher_server]) hkeeps
  by_cases hset : ¬ uriP.isSetInstance ∧ uriP.isSetResource
  · rw [if_pos hset] at h
    cases h
    exact hkeeps
  by_cases hreadable : readable ≠ coap205Content
  · rw [if_neg hset, if_pos hreadable] at h
    cases h
    exact hkeeps
  rw [if_neg hset, if_neg hreadable] at h
  obtain ⟨clash, -, h⟩ := bind_eq_ok_iff.mp h
  cases clash with
  | true =>
    cases h
    exact hwrite rfl
  | false =>
    simp only [Bool.false_eq_true, if_false] at h
    split at h
    · split_ifs at h
      · cases h
        exact hwrite rfl
      · cases h
        exact hwrite rfl
    · cases h
      exact hwrite rfl

variable {outcome : Outcome}

theorem Kept.observeRequest (hI : Kept I S) (hserver : S serverP.ref)
    (h : observeRequest contextP uriP serverP message response outcome =
      .ok (contextP', response', code)) (hkeeps : I contextP.observedList) :
    I contextP'.observedList := by
  rcases observeRequest_cases h with ⟨hsame, -⟩ | ⟨l, r, c, hl, hcontext, -⟩
  · rw [hsame]
    exact hkeeps
  · rw [hcontext]
    exact hI.observeHandleRequest hserver hl hkeeps

theorem Kept.postRequest (_hI : Kept I S) (response : Packet) (outcome : Outcome) (isText : Bool)
    (hkeeps : I contextP.observedList) :
    I (postRequest contextP uriP response outcome isText).1.observedList := by
  unfold Core.postRequest
  split_ifs <;> simpa using hkeeps

theorem Kept.putRequest (hI : Kept I S) (hserver : S serverP.ref)
    (h : putRequest contextP uriP serverP message response outcome =
      .ok (contextP', response', code)) (hkeeps : I contextP.observedList) :
    I contextP'.observedList := by
  unfold Core.putRequest at h
  split_ifs at h
  · split at h
    · cases h
      exact hkeeps
    · obtain ⟨⟨l, c⟩, hl, h⟩ := bind_eq_ok_iff.mp h
      cases h
      exact hI.observeSetParameters hserver hl hkeeps
  · cases h
    exact hkeeps
  · cases h
    exact hkeeps

theorem Kept.deleteRequest (hI : Kept I S) (response : Packet) (outcome : Outcome)
    (hkeeps : I contextP.observedList) :
    I (deleteRequest contextP uriP response outcome).1.observedList := by
  unfold Core.deleteRequest
  have hcleared := hI.clearDeleted outcome.deletion hkeeps
  split_ifs
  · exact hkeeps
  · simpa using hcleared
  · exact hcleared

theorem Kept.dmHandleRequest (hI : Kept I S) (hserver : S serverP.ref)
    (h : dmHandleRequest contextP uriP serverP message response outcome =
      .ok (contextP', response', code)) (hkeeps : I contextP.observedList) :
    I contextP'.observedList := by
  rcases dmHandleRequest_cases h with
    ⟨hsame, -⟩ | ⟨-, hobserve⟩ | ⟨-, isText, hpost⟩ | ⟨-, hput⟩ | ⟨-, hdelete⟩
  · rw [hsame]
    exact hkeeps
  · exact hI.observeRequest hserver hobserve hkeeps
  · obtain rfl : _ = contextP' := congrArg Prod.fst hpost
    exact hI.postRequest response outcome isText hkeeps
  · exact hI.putRequest hserver hput hkeeps
  · obtain rfl : _ = contextP' := congrArg Prod.fst hdelete
    exact hI.deleteRequest response outcome hkeeps

theorem Kept.bootstrapDelete (hI : Kept I S) (uriP : Uri) (server : ServerRef)
    (outcome : BootstrapOutcome) (hkeeps : I contextP.observedList) :
    I (bootstrapDelete contextP uriP server outcome).1.observedList := by
  unfold Core.bootstrapDelete
  have hcleared := hI.clearDeleted outcome.deletion hkeeps
  dsimp only
  split_ifs
  · exact hkeeps
  · simpa using hcleared
  · exact hcleared
  · exact hcleared
  · exact hcleared

theorem Kept.bootstrapHandleCommand (hI : Kept I S) (uriP : Uri) (serverP : Server)
    (message response : Packet) (outcome : BootstrapOutcome)
    (hkeeps : I contextP.observedList) :
    I (bootstrapHandleCommand contextP uriP serverP message response outcome).1.observedList := by
  unfold Core.bootstrapHandleCommand
  split
  · exact hkeeps
  · rename_i status hstatus
    set contextQ := setBootstrapServer contextP serverP.ref ({ · with status })
    have hset : I contextQ.observedList := hkeeps
    have hdelete := hI.bootstrapDelete uriP serverP.ref outcome hset
    dsimp only
    split_ifs <;> first | exact hset | exact hdelete | simpa [setBootstrapServer] using hset

theorem Kept.bootstrapHandleDeleteAll (hI : Kept I S) (fromSessionH : Session)
    (deletions : List Deletion) (hkeeps : I contextP.observedList) :
    I (bootstrapHandleDeleteAll contextP fromSessionH deletions).1.observedList :=
  bootstrapHandleDeleteAll_invariant (I := fun c => I c.observedList)
    (fun _ _ _ h => h) (fun _ deletion h => hI.clearDeleted deletion h) (fun _ _ h => h)
    fromSessionH deletions hkeeps

theorem Kept.bootstrapHandleFinish (_hI : Kept I S) (fromSessionH : Session)
    (security : Option SecurityInstances) (hkeeps : I contextP.observedList) :
    I (bootstrapHandleFinish contextP fromSessionH security).1.observedList := by
  unfold Core.bootstrapHandleFinish
  split
  · exact hkeeps
  · dsimp only
    split_ifs <;> simpa [setBootstrapServer] using hkeeps

/-! ### Events -/

/-- The servers of the list satisfy `S`. -/
def AllServers (S : ServerRef → Prop) (serverList : List Server) : Prop :=
  ∀ server ∈ serverList, S server.ref

theorem SameServers.allServers (h : SameServers contextP contextP')
    (hservers : AllServers S contextP.serverList) : AllServers S contextP'.serverList := by
  intro server hserver
  have hmem := List.mem_map_of_mem (f := Server.ref) hserver
  rw [h.refs] at hmem
  obtain ⟨server', hserver', href⟩ := List.mem_map.mp hmem
  rw [← href]
  exact hservers server' hserver'

variable {altPath : Option CString} {fromSessionH : Session}

theorem Kept.handleRequest (hI : Kept I S) (hservers : AllServers S contextP.serverList)
    {result : Context × Packet × Code}
    (h : handleRequest altPath contextP fromSessionH message response outcome = .ok result)
    (hkeeps : I contextP.observedList) : I result.1.observedList := by
  rcases handleRequest_cases h with ⟨c, -, -, rfl | rfl⟩ |
    ⟨uri, serverP, contextQ, r, c, -, hserver, hdm, rfl⟩ |
    ⟨uri, serverP, contextQ, r, c, -, -, hbootstrap, rfl⟩ | ⟨-, rfl⟩ | ⟨-, rfl⟩
  · exact hkeeps
  · exact hkeeps
  · exact hI.dmHandleRequest (hservers serverP (List.mem_of_find?_eq_some hserver)) hdm hkeeps
  · have hcommand := hI.bootstrapHandleCommand uri serverP message response outcome.bootstrap hkeeps
    rw [hbootstrap] at hcommand
    exact hcommand
  · exact hI.bootstrapHandleDeleteAll fromSessionH outcome.deletions hkeeps
  · exact hI.bootstrapHandleFinish fromSessionH outcome.security hkeeps

theorem Kept.lwm2mHandleRequestPacket (hI : Kept I S) (hservers : AllServers S contextP.serverList)
    {blockSize : UInt16} {reply : Option Packet}
    (h : lwm2mHandleRequestPacket altPath blockSize contextP fromSessionH message outcome =
      .ok (contextP', reply)) (hkeeps : I contextP.observedList) : I contextP'.observedList := by
  obtain ⟨contextQ, hsame, hcases⟩ := lwm2mHandleRequestPacket_cases h
  have hkeepsQ : I contextQ.observedList := by
    rw [hsame.observedList]
    exact hkeeps
  rcases hcases with ⟨rfl, -⟩ | ⟨payload, response, result, hresult, rfl, -⟩
  · exact hkeepsQ
  · exact hI.handleRequest (hsame.allServers hservers) hresult hkeepsQ

end kept

@[simp] theorem stepBootstrapRequired_observedList (contextP : Context) (env : StepEnv) :
    (stepBootstrapRequired contextP env).1.observedList = contextP.observedList := by
  unfold stepBootstrapRequired
  split_ifs <;> rfl

@[simp] theorem stepRegisterRequired_observedList (contextP : Context) (env : StepEnv) :
    (stepRegisterRequired contextP env).1.observedList = contextP.observedList := by
  unfold stepRegisterRequired
  split_ifs <;> rfl

@[simp] theorem stepInitial_observedList (contextP : Context) (env : StepEnv) :
    (stepInitial contextP env).1.observedList = contextP.observedList := by
  unfold stepInitial
  dsimp only
  split_ifs <;> simp [prvRefreshServerList]

@[simp] theorem stepState_observedList (contextP : Context) (env : StepEnv) :
    (stepState contextP env).1.observedList = contextP.observedList := by
  unfold stepState
  split
  · simp
  · simp
  · split <;> simp
  · simp
  · split <;> simp
  · split_ifs <;> simp

theorem Kept.lwm2mStep (hI : Kept I S) {env : StepEnv}
    (h : lwm2mStep contextP env = .ok (contextP', sent)) (hkeeps : I contextP.observedList) :
    I contextP'.observedList := by
  unfold Core.lwm2mStep at h
  have hstate := stepState_observedList contextP env
  split at h
  · rename_i contextQ code hcontext
    cases h
    rw [hcontext] at hstate
    rwa [hstate]
  · rename_i contextQ hcontext
    rw [hcontext] at hstate
    obtain ⟨⟨l, mid, sent'⟩, hobserve, h⟩ := bind_eq_ok_iff.mp h
    cases h
    rw [hstate] at hobserve
    exact hI.step hobserve hkeeps

@[simp] theorem announceObjectList_observedList (contextP : Context)
    (security : Option SecurityInstances) :
    (announceObjectList contextP security).1.observedList = contextP.observedList := by
  unfold announceObjectList
  split_ifs <;> simp

/-- **Every event keeps the invariant.** -/
theorem Kept.clientStep (hI : Kept I S) (hservers : AllServers S contextP.serverList)
    (h : clientStep contextP event = .ok contextP') (hkeeps : I contextP.observedList) :
    I contextP'.observedList := by
  cases event with
  | request altPath blockSize fromSessionH message outcome =>
    obtain ⟨⟨contextQ, reply⟩, hpacket, h⟩ := bind_eq_ok_iff.mp h
    cases h
    exact hI.lwm2mHandleRequestPacket hservers hpacket hkeeps
  | reset fromSessionH mid =>
    obtain ⟨l, hl, h⟩ := bind_eq_ok_iff.mp h
    cases h
    exact hI.cancel hl hkeeps
  | response servers bootstrapServers messages =>
    cases h
    exact hkeeps
  | step env =>
    obtain ⟨⟨contextQ, sent⟩, hstep, h⟩ := bind_eq_ok_iff.mp h
    cases h
    exact hI.lwm2mStep hstep hkeeps
  | valueChanged uri =>
    cases h
    exact hI.changed uri hkeeps
  | addObject security objectP =>
    cases h
    unfold lwm2mAddObject
    split_ifs
    · exact hkeeps
    · simpa using hkeeps
  | removeObject security id =>
    cases h
    unfold lwm2mRemoveObject
    split
    · exact hkeeps
    · simpa using hkeeps
  | updateRegistration security shortServerID withObjects =>
    cases h
    simpa using hkeeps
  | setState state =>
    cases h
    exact hkeeps

/-- **The invariant holds in every run**, when the requests of every server keep it. -/
theorem Kept.clientRun (hI : Kept I S) (hservers : ∀ server, S server) (hnil : I [])
    (h : clientRun nextMID objectList events = .ok contextP) : I contextP.observedList := by
  unfold Core.clientRun at h
  induction events using List.reverseRecOn generalizing contextP with
  | nil =>
    cases h
    exact hnil
  | append_singleton history event ih =>
    rw [List.foldlM_append] at h
    obtain ⟨contextQ, hhistory, h⟩ := bind_eq_ok_iff.mp h
    obtain ⟨contextR, hevent, h⟩ := bind_eq_ok_iff.mp h
    cases h
    exact hI.clientStep (fun _ _ => hservers _) hevent (ih hhistory)

/-! ### The servers of the entries -/

theorem kept_everyEntry (hP : Hereditary P) : Kept (EveryEntry P) (Admits P) where
  set := fun hadmits hw h => everyEntry_prvGetWatcher_set hadmits h hw
  cancel := everyEntry_observeCancel hP
  clear := everyEntry_observeClear
  changed := everyEntry_lwm2mResourceValueChanged
  step := fun h =>
    everyEntry_of_servers_eq (map_observeStep Observed.servers (fun _ => servers_notifyWatchers) h)

/-- The servers of the list are admitted. -/
def AdmitsServers (P : List ServerRef → Prop) (serverList : List Server) : Prop :=
  ∀ server ∈ serverList, Admits P server.ref

/-- **Every event keeps what survives removal and the addition of a new server.** -/
theorem clientStep_everyEntry (hP : Hereditary P) (hadmits : AdmitsServers P contextP.serverList)
    (h : clientStep contextP event = .ok contextP') (hevery : EveryEntry P contextP.observedList) :
    EveryEntry P contextP'.observedList :=
  (kept_everyEntry hP).clientStep hadmits h hevery

/-- What survives the removal of servers and the addition of a server holds of every
entry in every run. -/
theorem clientRun_everyEntry (hP : Hereditary P) (hadmits : ∀ server, Admits P server)
    (h : clientRun nextMID objectList events = .ok contextP) :
    EveryEntry P contextP.observedList :=
  (kept_everyEntry hP).clientRun hadmits (fun _ ho => absurd ho List.not_mem_nil) h

/-- **No server watches an entry twice**, in any run. -/
theorem nodup_watchers (h : clientRun nextMID objectList events = .ok contextP) :
    ∀ o ∈ contextP.observedList, o.servers.Nodup :=
  clientRun_everyEntry hereditary_nodup admits_nodup h

/-- **Every entry has a watcher**, in any run. -/
theorem watcherList_ne_nil (h : clientRun nextMID objectList events = .ok contextP) :
    ∀ o ∈ contextP.observedList, o.watcherList ≠ [] := by
  intro o ho hnil
  have hne := clientRun_everyEntry hereditary_ne_nil admits_ne_nil h o ho
  exact hne (by rw [Observed.servers, hnil, List.map_nil])

end Lwm2m.Core

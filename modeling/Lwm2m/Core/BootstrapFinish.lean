/-
# The end of a bootstrap session

`bootstrap_handleFinish` runs `object_getServers` for its result only, on the lists that the
session left; `prv_refreshServerList` then frees the marked entries and runs it again to fill the
lists.  Both runs skip a Security instance that has an entry, and the first one also skips
an instance whose entry is marked: what the bootstrap server wrote over it is not looked at
before the entry is gone.

The lists stay in order over a session (`sessionRun_inOrder`).  So the loop is a question about each
instance on its own (`getServersLoop_spec`), and `bootstrapFinish_sound_iff` says exactly when the refresh
after a positive answer succeeds and has every server that a run from empty lists finds.
-/

import Lwm2m.Core.Bootstrap
import Lwm2m.Library.Run

namespace Lwm2m.Core

open Coap Code Library

/-! ### A bootstrap session -/

/-- What registration, bootstrap and the transactions do to a server in place. -/
structure StatusUpdate where
  update : Server → Server
  secObjInstID_update : ∀ server, (update server).secObjInstID = server.secObjInstID
  shortID_update : ∀ server, (update server).shortID = server.shortID
  dirty_update : ∀ server, (update server).dirty = server.dirty

/-- The servers of both lists updated in place. -/
def Context.inPlace (contextP : Context) (servers bootstrapServers : StatusUpdate) : Context :=
  { contextP with
    serverList := contextP.serverList.map servers.update
    bootstrapServerList := contextP.bootstrapServerList.map bootstrapServers.update }

/-- What happens in a session, and what fills the lists before it. -/
inductive SessionEvent
  | command (uriP : Uri) (serverP : Server) (message response : Packet) (outcome : BootstrapOutcome)
  | deleteAll (fromSessionH : Session) (deletions : List Deletion)
  | finish (fromSessionH : Session) (security : Option SecurityInstances)
  | refresh (security : Option SecurityInstances)
  | inPlace (servers bootstrapServers : StatusUpdate)

/-- One event of a session. -/
def sessionStep (contextP : Context) : SessionEvent → Context
  | .command uriP serverP message response outcome =>
    (bootstrapHandleCommand contextP uriP serverP message response outcome).1
  | .deleteAll fromSessionH deletions =>
    (bootstrapHandleDeleteAll contextP fromSessionH deletions).1
  | .finish fromSessionH security => (bootstrapHandleFinish contextP fromSessionH security).1
  | .refresh security => (prvRefreshServerList contextP security).1
  | .inPlace servers bootstrapServers => contextP.inPlace servers bootstrapServers

/-- The context after some events, from a new one. -/
def sessionRun (events : List SessionEvent) : Context := events.foldl sessionStep {}

/-! ### Lists in order -/

/-- Both lists are in order, and no instance has an entry in each. -/
structure ListsInOrder (contextP : Context) : Prop where
  bootstrap : contextP.bootstrapServerList.Pairwise (·.secObjInstID < ·.secObjInstID)
  server : contextP.serverList.Pairwise (·.secObjInstID < ·.secObjInstID)
  disjoint : ∀ b ∈ contextP.bootstrapServerList, ∀ s ∈ contextP.serverList,
    b.secObjInstID ≠ s.secObjInstID

variable {contextP contextP' : Context}

/-- The Security instances of the servers of both lists. -/
def secObjInstIDs (contextP : Context) : List UInt16 × List UInt16 :=
  (contextP.bootstrapServerList.map Server.secObjInstID,
    contextP.serverList.map Server.secObjInstID)

/-- Whether the lists are in order depends on the instances of the servers only. -/
theorem listsInOrder_iff : ListsInOrder contextP ↔
    (secObjInstIDs contextP).1.Pairwise (· < ·) ∧ (secObjInstIDs contextP).2.Pairwise (· < ·) ∧
      ∀ b ∈ (secObjInstIDs contextP).1, ∀ s ∈ (secObjInstIDs contextP).2, b ≠ s := by
  rw [secObjInstIDs, List.pairwise_map, List.pairwise_map]
  simp only [List.forall_mem_map]
  exact ⟨fun h => ⟨h.bootstrap, h.server, h.disjoint⟩, fun h => ⟨h.1, h.2.1, h.2.2⟩⟩

theorem ListsInOrder.of_eq (h : ListsInOrder contextP)
    (heq : secObjInstIDs contextP' = secObjInstIDs contextP) : ListsInOrder contextP' := by
  rw [listsInOrder_iff] at h ⊢
  rwa [heq]

/-- The instance has an entry in one of the lists. -/
def HasEntry (contextP : Context) (instanceId : UInt16) : Prop :=
  ∃ server ∈ contextP.bootstrapServerList ++ contextP.serverList, server.secObjInstID = instanceId

/-- The two lookups of `object_getServers`. -/
theorem ListsInOrder.isNone_iff (h : ListsInOrder contextP) (instanceId : UInt16) :
    ((listFind Server.secObjInstID contextP.bootstrapServerList instanceId).isNone ∧
        (listFind Server.secObjInstID contextP.serverList instanceId).isNone) ↔
      ¬ HasEntry contextP instanceId := by
  rw [Option.isNone_iff_eq_none, Option.isNone_iff_eq_none, listFind_eq_none_iff h.bootstrap,
    listFind_eq_none_iff h.server, HasEntry]
  push Not
  rw [List.forall_mem_append]

variable {targetP : Server} {reset : Server → Server} {fromSessionH : Session}

/-- A new entry in the list of the bootstrap servers. -/
theorem ListsInOrder.addBootstrap (h : ListsInOrder contextP)
    (hnew : ¬ HasEntry contextP targetP.secObjInstID) (allocated : ℕ) :
    ListsInOrder { contextP with
      allocated
      bootstrapServerList :=
        listAdd Server.secObjInstID targetP contextP.bootstrapServerList } := by
  have hother {x : Server} (hx : x ∈ contextP.bootstrapServerList ++ contextP.serverList) :
      x.secObjInstID ≠ targetP.secObjInstID := fun heq => hnew ⟨x, hx, heq⟩
  refine ⟨listAdd_pairwise h.bootstrap fun x hx => hother (List.mem_append_left _ hx), h.server,
    fun b hb s hs => ?_⟩
  rcases mem_listAdd.mp hb with rfl | hb
  · exact (hother (List.mem_append_right _ hs)).symm
  · exact h.disjoint b hb s hs

/-- A new entry in the list of the servers. -/
theorem ListsInOrder.addServer (h : ListsInOrder contextP)
    (hnew : ¬ HasEntry contextP targetP.secObjInstID) (allocated : ℕ) :
    ListsInOrder { contextP with
      allocated
      serverList := listAdd Server.secObjInstID targetP contextP.serverList } := by
  have hother {x : Server} (hx : x ∈ contextP.bootstrapServerList ++ contextP.serverList) :
      x.secObjInstID ≠ targetP.secObjInstID := fun heq => hnew ⟨x, hx, heq⟩
  refine ⟨h.bootstrap, listAdd_pairwise h.server fun x hx => hother (List.mem_append_right _ hx),
    fun b hb s hs => ?_⟩
  rcases mem_listAdd.mp hs with rfl | hs
  · exact hother (List.mem_append_left _ hb)
  · exact h.disjoint b hb s hs

/-! ### The loop over the Security instances -/

/-- What a list says of a server: which list it is, its Security instance and its short
identifier. -/
structure Entry where
  isBootstrap : Bool
  secObjInstID : UInt16
  shortID : UInt16
  deriving DecidableEq, Repr

/-- The entries of both lists. -/
def entries (contextP : Context) : List Entry :=
  contextP.bootstrapServerList.map (fun server => ⟨true, server.secObjInstID, server.shortID⟩) ++
    contextP.serverList.map fun server => ⟨false, server.secObjInstID, server.shortID⟩

/-- The entry that is made for a Security instance, if one is. -/
def entryOf (instanceId : UInt16) : SecurityRead → Option Entry
  | .bootstrap => some ⟨true, instanceId, 0⟩
  | .server shortID => some ⟨false, instanceId, shortID⟩
  | .failed | .unmatched => none

theorem hasEntry_iff (contextP : Context) (instanceId : UInt16) :
    HasEntry contextP instanceId ↔ ∃ e ∈ entries contextP, e.secObjInstID = instanceId := by
  unfold HasEntry entries
  simp only [List.mem_append, List.mem_map, or_and_right, exists_or, exists_exists_and_eq_and]

variable {instanceId : UInt16} {read : SecurityRead} {e : Entry} {instances : SecurityInstances}

/-- The loop passes an instance that has an entry. -/
theorem getServersLoop_of_hasEntry (h : ListsInOrder contextP)
    (hentry : HasEntry contextP instanceId) (checkOnly : Bool) (read : SecurityRead)
    (next : SecurityInstances) :
    getServersLoop checkOnly contextP ((instanceId, read) :: next) =
      getServersLoop checkOnly contextP next := by
  rw [getServersLoop, if_neg fun hnone => (h.isNone_iff instanceId).mp hnone hentry]

/-- The loop ends at an instance that has no entry and cannot be read. -/
theorem getServersLoop_of_failed (h : ListsInOrder contextP) (hnew : ¬ HasEntry contextP instanceId)
    (checkOnly : Bool) (next : SecurityInstances) :
    getServersLoop checkOnly contextP ((instanceId, .failed) :: next) = (contextP, -1) := by
  rw [getServersLoop, if_pos ((h.isNone_iff instanceId).mpr hnew)]

/-- The check only goes on from an instance that has no entry. -/
theorem getServersLoop_check (h : ListsInOrder contextP) (hnew : ¬ HasEntry contextP instanceId)
    (hread : read ≠ .failed) (next : SecurityInstances) :
    getServersLoop true contextP ((instanceId, read) :: next) =
      getServersLoop true { contextP with allocated := contextP.allocated + 1 } next := by
  rw [getServersLoop, if_pos ((h.isNone_iff instanceId).mpr hnew)]
  cases read with
  | failed => exact absurd rfl hread
  | bootstrap => rfl
  | server shortID => rfl
  | unmatched => rfl

/-- The loop makes the entry of an instance that has none. -/
theorem getServersLoop_add (h : ListsInOrder contextP) (hnew : ¬ HasEntry contextP instanceId)
    (hread : read ≠ .failed) (next : SecurityInstances) :
    ∃ contextP', getServersLoop false contextP ((instanceId, read) :: next) =
        getServersLoop false contextP' next ∧ ListsInOrder contextP' ∧
      ∀ e, e ∈ entries contextP' ↔ e ∈ entries contextP ∨ entryOf instanceId read = some e := by
  rw [getServersLoop, if_pos ((h.isNone_iff instanceId).mpr hnew)]
  cases read with
  | failed => exact absurd rfl hread
  | bootstrap =>
    refine ⟨_, rfl, h.addBootstrap hnew _, fun e => ?_⟩
    simp only [entries, entryOf, List.mem_append, List.mem_map, mem_listAdd, or_and_right, exists_or,
      exists_eq_left, Option.some.injEq]
    rw [or_assoc]
    exact or_comm
  | server shortID =>
    refine ⟨_, rfl, h.addServer hnew _, fun e => ?_⟩
    simp only [entries, entryOf, List.mem_append, List.mem_map, mem_listAdd, or_and_right, exists_or,
      exists_eq_left, Option.some.injEq]
    rw [or_assoc]
    exact or_congr_right or_comm
  | unmatched =>
    refine ⟨_, rfl, h.of_eq rfl, fun e => (or_iff_left ?_).symm⟩
    exact (Option.some_ne_none e).symm

/-- The loop keeps the lists in order. -/
theorem ListsInOrder.getServersLoop (h : ListsInOrder contextP) (checkOnly : Bool)
    (instances : SecurityInstances) :
    ListsInOrder (getServersLoop checkOnly contextP instances).1 := by
  induction instances generalizing contextP with
  | nil => exact h
  | cons p next ih =>
    obtain ⟨instanceId, read⟩ := p
    by_cases hentry : HasEntry contextP instanceId
    · rw [getServersLoop_of_hasEntry h hentry]
      exact ih h
    by_cases hread : read = .failed
    · rw [hread, getServersLoop_of_failed h hentry]
      exact h
    cases checkOnly with
    | true =>
      rw [getServersLoop_check h hentry hread]
      exact ih (h.of_eq rfl)
    | false =>
      obtain ⟨contextP', hloop, horder, -⟩ := getServersLoop_add h hentry hread next
      rw [hloop]
      exact ih horder

section Loop

variable {instances : SecurityInstances} {P : UInt16 → Prop} [DecidablePred P]

/-- **The check** succeeds when every instance that has no entry can be read; it changes neither
list. -/
theorem getServersLoop_check_spec (h : ListsInOrder contextP)
    (hP : ∀ i, P i ↔ HasEntry contextP i) :
    ((getServersLoop true contextP instances).2 = 0 ↔
        ∀ p ∈ instances, ¬ P p.1 → p.2 ≠ .failed) ∧
      (getServersLoop true contextP instances).1.bootstrapServerList =
        contextP.bootstrapServerList ∧
      (getServersLoop true contextP instances).1.serverList = contextP.serverList := by
  induction instances generalizing contextP with
  | nil => exact ⟨iff_of_true rfl fun _ h => absurd h List.not_mem_nil, rfl, rfl⟩
  | cons p next ih =>
    obtain ⟨instanceId, read⟩ := p
    rw [List.forall_mem_cons]
    by_cases hentry : P instanceId
    · rw [getServersLoop_of_hasEntry h ((hP _).mp hentry),
        and_iff_right fun hnew => absurd hentry hnew]
      exact ih h hP
    · have hnew := mt (hP _).mpr hentry
      by_cases hread : read = .failed
      · have hresult : (-1 : ℤ) ≠ 0 := by decide
        rw [hread, getServersLoop_of_failed h hnew]
        exact ⟨iff_of_false hresult fun hall => hall.1 hentry rfl, rfl, rfl⟩
      · rw [getServersLoop_check h hnew hread, and_iff_right fun _ => hread]
        exact ih (h.of_eq rfl) hP

/-- **The run that fills the lists** succeeds when every instance that had no entry can be read, and
adds the entries of the instances that had none, up to the first one that cannot be read. -/
theorem getServersLoop_spec (h : ListsInOrder contextP)
    (hinstances : instances.Pairwise (·.1 < ·.1))
    (hP : ∀ p ∈ instances, (P p.1 ↔ HasEntry contextP p.1)) :
    ((getServersLoop false contextP instances).2 = 0 ↔
        ∀ p ∈ instances, ¬ P p.1 → p.2 ≠ .failed) ∧
      ∀ e, e ∈ entries (getServersLoop false contextP instances).1 ↔ e ∈ entries contextP ∨
        ∃ p ∈ instances.takeWhile (fun p => P p.1 ∨ p.2 ≠ .failed),
          ¬ P p.1 ∧ entryOf p.1 p.2 = some e := by
  induction instances generalizing contextP with
  | nil =>
    refine ⟨iff_of_true rfl fun _ h => absurd h List.not_mem_nil, fun e => ?_⟩
    rw [or_iff_left]
    · exact Iff.rfl
    · rintro ⟨p, hp, -⟩
      exact absurd hp List.not_mem_nil
  | cons p next ih =>
    obtain ⟨instanceId, read⟩ := p
    obtain ⟨hhead, hnext⟩ := List.pairwise_cons.mp hinstances
    obtain ⟨hPhead, hPnext⟩ := List.forall_mem_cons.mp hP
    rw [List.forall_mem_cons]
    by_cases hentry : P instanceId
    · rw [getServersLoop_of_hasEntry h (hPhead.mp hentry),
        List.takeWhile_cons_of_pos (by simpa using .inl hentry),
        and_iff_right fun hnew => absurd hentry hnew]
      obtain ⟨hresult, hmem⟩ := ih h hnext hPnext
      refine ⟨hresult, fun e => ?_⟩
      rw [hmem]
      refine or_congr_right ?_
      simp only [List.mem_cons, or_and_right, exists_or, exists_eq_left, hentry, not_true_eq_false,
        false_and, false_or]
    · have hnew := mt hPhead.mpr hentry
      by_cases hread : read = .failed
      · have hresult : (-1 : ℤ) ≠ 0 := by decide
        rw [hread, getServersLoop_of_failed h hnew,
          List.takeWhile_cons_of_neg (by simpa using hentry)]
        refine ⟨iff_of_false hresult fun hall => hall.1 hentry rfl, fun e => ?_⟩
        rw [or_iff_left]
        rintro ⟨p, hp, -⟩
        exact absurd hp List.not_mem_nil
      · obtain ⟨contextP', hloop, horder, hadd⟩ := getServersLoop_add h hnew hread next
        have hPnext' : ∀ p ∈ next, (P p.1 ↔ HasEntry contextP' p.1) := by
          intro p hp
          rw [hPnext p hp, hasEntry_iff, hasEntry_iff]
          constructor
          · rintro ⟨e, he, hid⟩
            exact ⟨e, (hadd e).mpr (.inl he), hid⟩
          · rintro ⟨e, he, hid⟩
            rcases (hadd e).mp he with he | he
            · exact ⟨e, he, hid⟩
            · -- the new entry is that of an earlier instance
              have hsame : e.secObjInstID = instanceId := by
                cases read <;> cases he <;> rfl
              exact absurd (hsame.symm.trans hid) (UInt16.ne_of_lt (hhead p hp))
        obtain ⟨hresult, hmem⟩ := ih horder hnext hPnext'
        rw [hloop, List.takeWhile_cons_of_pos (by simpa using .inr hread),
          and_iff_right fun _ => hread]
        refine ⟨hresult, fun e => ?_⟩
        rw [hmem, hadd, or_assoc]
        refine or_congr_right ?_
        simp only [List.mem_cons, or_and_right, exists_or, exists_eq_left, hentry,
          not_false_eq_true, true_and]

end Loop

/-! ### The lists over a session -/

/-- A change in place of some servers of a list. -/
theorem map_secObjInstID_map {f : Server → Server}
    (hf : ∀ server, (f server).secObjInstID = server.secObjInstID) (list : List Server) :
    (list.map f).map Server.secObjInstID = list.map Server.secObjInstID := by
  rw [List.map_map]
  exact List.map_congr_left fun server _ => hf server

theorem map_secObjInstID_tagInstance (list : List Server) (id : UInt16) :
    (tagInstance list id).map Server.secObjInstID = list.map Server.secObjInstID := by
  unfold tagInstance
  split
  · rfl
  · refine map_secObjInstID_map (fun server => ?_) list
    split_ifs <;> rfl

@[simp] theorem secObjInstIDs_prvTagServer (contextP : Context) (id : UInt16) :
    secObjInstIDs (prvTagServer contextP id) = secObjInstIDs contextP := by
  unfold prvTagServer
  split_ifs <;> simp only [secObjInstIDs, map_secObjInstID_tagInstance]

@[simp] theorem secObjInstIDs_prvTagAllServer (contextP : Context) (serverP : Option ServerRef) :
    secObjInstIDs (prvTagAllServer contextP serverP) = secObjInstIDs contextP := by
  have hspare (server : Server) :
      (if serverP = some server.ref then server else { server with dirty := true }).secObjInstID =
        server.secObjInstID := by
    split_ifs <;> rfl
  exact Prod.ext (map_secObjInstID_map hspare _)
    (@map_secObjInstID_map (fun server => { server with dirty := true }) (fun _ => rfl) _)

@[simp] theorem secObjInstIDs_status (contextP : Context) (ref : ServerRef) (status : Status) :
    secObjInstIDs (setBootstrapServer contextP ref ({ · with status })) =
      secObjInstIDs contextP := by
  refine Prod.ext (map_secObjInstID_map (fun server => ?_) _) rfl
  split_ifs <;> rfl

@[simp] theorem secObjInstIDs_writeItems (contextP : Context) (objectId : UInt16) (result : Code)
    (items : List BootstrapItem) :
    secObjInstIDs (writeItems contextP objectId result items).1 = secObjInstIDs contextP := by
  induction items generalizing contextP result with
  | nil => rfl
  | cons item next ih =>
    unfold writeItems
    dsimp only
    split_ifs <;> simp only [ih, secObjInstIDs_prvTagServer]

theorem secObjInstIDs_bootstrapWrite (contextP : Context) (uriP : Uri) (message : Packet)
    (outcome : BootstrapOutcome) :
    secObjInstIDs (bootstrapWrite contextP uriP message outcome).1 = secObjInstIDs contextP := by
  unfold bootstrapWrite
  by_cases hset : uriP.isSetInstance
  · rw [if_pos hset]
    by_cases hnew : outcome.isNew = true
    · rw [if_pos hnew]
    · rw [if_neg hnew]
      split_ifs
      · exact secObjInstIDs_prvTagServer _ _
      · rfl
  · rw [if_neg hset]
    by_cases hempty : message.payload.length = 0
    · rw [if_pos hempty]
    · rw [if_neg hempty]
      cases outcome.items with
      | none => rfl
      | some items => exact secObjInstIDs_writeItems _ _ _ _

theorem secObjInstIDs_bootstrapDelete (contextP : Context) (uriP : Uri) (serverP : ServerRef)
    (outcome : BootstrapOutcome) :
    secObjInstIDs (bootstrapDelete contextP uriP serverP outcome).1 = secObjInstIDs contextP := by
  unfold bootstrapDelete
  dsimp only
  split_ifs
  · rfl
  · exact secObjInstIDs_prvTagServer _ _
  · exact secObjInstIDs_prvTagAllServer _ _
  · rfl
  · rfl

/-- A command leaves every server the server of its instance. -/
theorem secObjInstIDs_bootstrapHandleCommand (contextP : Context) (uriP : Uri) (serverP : Server)
    (message response : Packet) (outcome : BootstrapOutcome) :
    secObjInstIDs (bootstrapHandleCommand contextP uriP serverP message response outcome).1 =
      secObjInstIDs contextP := by
  unfold bootstrapHandleCommand
  split
  · rfl
  · rename_i status _
    have hstatus := secObjInstIDs_status contextP serverP.ref status
    have hfinal {c : Context} (hc : secObjInstIDs c = secObjInstIDs contextP) (response : Packet)
        (result : Code) :
        secObjInstIDs (if (result = coap202Deleted ∨ result = coap204Changed) ∧
            status ≠ .bsPending then
          ({ setBootstrapServer c serverP.ref ({ · with status := .bsPending }) with
            state := .bootstrapping }, response, result)
          else (c, response, result)).1 = secObjInstIDs contextP := by
      split_ifs
      · exact (secObjInstIDs_status c serverP.ref .bsPending).trans hc
      · exact hc
    dsimp only
    by_cases hput : message.code = 3
    · rw [if_pos hput]
      exact hfinal ((secObjInstIDs_bootstrapWrite _ _ _ _).trans hstatus) _ _
    by_cases hdelete : message.code = 4
    · rw [if_neg hput, if_pos hdelete]
      exact hfinal ((secObjInstIDs_bootstrapDelete _ _ _ _).trans hstatus) _ _
    by_cases hget : message.code = 1
    · rw [if_neg hput, if_neg hdelete, if_pos hget]
      by_cases hread : outcome.read.1 = coap205Content
      · rw [if_pos hread]
        exact hfinal hstatus _ _
      · rw [if_neg hread]
        exact hfinal hstatus _ _
    · rw [if_neg hput, if_neg hdelete, if_neg hget]
      exact hfinal hstatus _ _

theorem secObjInstIDs_bootstrapHandleDeleteAll (contextP : Context) (fromSessionH : Session)
    (deletions : List Deletion) :
    secObjInstIDs (bootstrapHandleDeleteAll contextP fromSessionH deletions).1 =
      secObjInstIDs contextP := by
  unfold bootstrapHandleDeleteAll
  split
  · rfl
  split
  · rfl
  rename_i serverP _ status _
  refine List.foldlRecOn (motive := fun acc : Context × Code => secObjInstIDs acc.1 =
    secObjInstIDs contextP) deletions _ (secObjInstIDs_status _ _ status) fun acc hacc deletion _ => ?_
  split_ifs
  · exact (secObjInstIDs_prvTagAllServer _ _).trans hacc
  · exact hacc
  · exact hacc
  · exact hacc

/-- The servers that are kept are in order. -/
theorem keepClean_pairwise (hreset : ∀ server, (reset server).secObjInstID = server.secObjInstID)
    {list : List Server} (h : list.Pairwise (·.secObjInstID < ·.secObjInstID)) :
    (keepClean reset list).Pairwise (·.secObjInstID < ·.secObjInstID) := by
  have hadd (l acc : List Server) (hl : l.Pairwise (·.secObjInstID < ·.secObjInstID))
      (hacc : acc.Pairwise (·.secObjInstID < ·.secObjInstID))
      (hnew : ∀ x ∈ l, ∀ y ∈ acc, y.secObjInstID ≠ x.secObjInstID) :
      (l.foldl (fun acc targetP => listAdd Server.secObjInstID (reset targetP) acc)
        acc).Pairwise (·.secObjInstID < ·.secObjInstID) := by
    induction l generalizing acc with
    | nil => exact hacc
    | cons x rest ih =>
      obtain ⟨hx, hrest⟩ := List.pairwise_cons.mp hl
      obtain ⟨hnewx, hnewRest⟩ := List.forall_mem_cons.mp hnew
      refine ih _ hrest (listAdd_pairwise hacc fun y hy => ?_) fun z hz y hy => ?_
      · rw [hreset]
        exact hnewx y hy
      · rcases mem_listAdd.mp hy with rfl | hy
        · rw [hreset]
          exact UInt16.ne_of_lt (hx z hz)
        · exact hnewRest z hz y hy
  exact hadd _ [] (h.filter _) .nil fun _ _ _ hy => absurd hy List.not_mem_nil

/-- The context when `prv_refreshServerList` has freed the marked servers. -/
def freed (contextP : Context) : Context :=
  { contextP with
    bootstrapServerList :=
      keepClean (fun targetP => { targetP with status := .deregistered })
        contextP.bootstrapServerList
    serverList := keepClean (fun targetP => targetP) contextP.serverList }

theorem mem_keepClean {list : List Server} {server : Server} :
    server ∈ keepClean reset list ↔ ∃ x ∈ list, x.dirty = false ∧ reset x = server := by
  rw [(keepClean_perm reset list).mem_iff, List.mem_map]
  simp only [List.mem_filter, Bool.not_eq_true', and_assoc]

theorem ListsInOrder.freed (h : ListsInOrder contextP) : ListsInOrder (freed contextP) := by
  have hstatus (targetP : Server) :
      ({ targetP with status := .deregistered } : Server).secObjInstID = targetP.secObjInstID := rfl
  refine ⟨@keepClean_pairwise (fun targetP => { targetP with status := .deregistered }) hstatus _
    h.bootstrap, keepClean_pairwise (fun _ => rfl) h.server, fun b hb s hs => ?_⟩
  obtain ⟨b', hb', -, rfl⟩ := mem_keepClean.mp hb
  obtain ⟨s', hs', -, rfl⟩ := mem_keepClean.mp hs
  exact h.disjoint b' hb' s' hs'

/-- A check of the lists does not change them. -/
theorem secObjInstIDs_check (h : ListsInOrder contextP) (instances : SecurityInstances) :
    secObjInstIDs (getServersLoop true contextP instances).1 = secObjInstIDs contextP := by
  classical
  obtain ⟨-, hbootstrap, hserver⟩ :=
    @getServersLoop_check_spec contextP instances (HasEntry contextP) _ h fun _ => Iff.rfl
  rw [secObjInstIDs, hbootstrap, hserver, secObjInstIDs]

theorem ListsInOrder.bootstrapHandleFinish (h : ListsInOrder contextP) (fromSessionH : Session)
    (security : Option SecurityInstances) :
    ListsInOrder (bootstrapHandleFinish contextP fromSessionH security).1 := by
  have hcheck : secObjInstIDs (objectGetServers contextP security true).1 =
      secObjInstIDs contextP := by
    cases security with
    | none => rfl
    | some instances => exact secObjInstIDs_check h instances
  unfold Core.bootstrapHandleFinish
  split
  · exact h
  · dsimp only
    split_ifs
    · exact h.of_eq ((secObjInstIDs_status _ _ .bsFinishing).trans hcheck)
    · exact h.of_eq hcheck
    · exact h

/-- **Over a session the lists stay in order.** -/
theorem sessionRun_inOrder (events : List SessionEvent) : ListsInOrder (sessionRun events) := by
  have hstart : ListsInOrder {} := ⟨.nil, .nil, fun _ h => absurd h List.not_mem_nil⟩
  refine List.foldlRecOn (motive := ListsInOrder) events sessionStep hstart fun c hc event _ => ?_
  cases event with
  | command uriP serverP message response outcome =>
    exact hc.of_eq (secObjInstIDs_bootstrapHandleCommand _ _ _ _ _ _)
  | deleteAll fromSessionH deletions =>
    exact hc.of_eq (secObjInstIDs_bootstrapHandleDeleteAll _ _ _)
  | finish fromSessionH security => exact hc.bootstrapHandleFinish fromSessionH security
  | refresh security =>
    cases security with
    | none => exact hc.freed
    | some instances => exact hc.freed.getServersLoop false instances
  | inPlace servers bootstrapServers =>
    exact hc.of_eq (Prod.ext (map_secObjInstID_map bootstrapServers.secObjInstID_update _)
      (map_secObjInstID_map servers.secObjInstID_update _))

/-! ### Marked entries -/

/-- What the refresh looks at of a server. -/
structure Mark where
  secObjInstID : UInt16
  shortID : UInt16
  dirty : Bool
  deriving DecidableEq, Repr

/-- The mark of a server. -/
def Server.mark (server : Server) : Mark := ⟨server.secObjInstID, server.shortID, server.dirty⟩

/-- The marks of both lists. -/
def marks (contextP : Context) : List Mark × List Mark :=
  (contextP.bootstrapServerList.map Server.mark, contextP.serverList.map Server.mark)

/-- The instance has an entry that is marked. -/
def Marked (contextP : Context) (instanceId : UInt16) : Prop :=
  ∃ m ∈ (marks contextP).1 ++ (marks contextP).2, m.secObjInstID = instanceId ∧ m.dirty = true

/-- The entries that are not marked. -/
def unmarkedEntries (contextP : Context) : List Entry :=
  ((marks contextP).1.filter (!·.dirty)).map (fun m => ⟨true, m.secObjInstID, m.shortID⟩) ++
    ((marks contextP).2.filter (!·.dirty)).map fun m => ⟨false, m.secObjInstID, m.shortID⟩

/-- Every instance whose entry is marked can be read. -/
def MarkedReadable (contextP : Context) (instances : SecurityInstances) : Prop :=
  ∀ p ∈ instances, Marked contextP p.1 → p.2 ≠ .failed

/-- Every instance in front of the first one that cannot be read is read as its entry says,
if it has one that is not marked, or makes no entry. -/
def UnmarkedAgree (contextP : Context) (instances : SecurityInstances) : Prop :=
  ∀ p ∈ instances.takeWhile (·.2 ≠ .failed), ∀ x ∈ unmarkedEntries contextP, x.secObjInstID = p.1 →
    ∀ e, entryOf p.1 p.2 = some e → e = x

/-- The refresh succeeds, and every entry that a run from empty lists makes is there. -/
structure SoundRefresh (contextP : Context) (instances : SecurityInstances) : Prop where
  succeeds : (prvRefreshServerList contextP (some instances)).2 = 0
  complete : ∀ e ∈ entries (objectGetServers {} (some instances) false).1,
    e ∈ entries (prvRefreshServerList contextP (some instances)).1

theorem entryOf_secObjInstID (h : entryOf instanceId read = some e) :
    e.secObjInstID = instanceId := by
  cases read <;> cases h <;> rfl

/-- An instance has one entry at most. -/
theorem ListsInOrder.nodup (h : ListsInOrder contextP) :
    ((contextP.bootstrapServerList ++ contextP.serverList).map Server.secObjInstID).Nodup := by
  have hnodup {l : List Server} (hl : l.Pairwise (·.secObjInstID < ·.secObjInstID)) :
      (l.map Server.secObjInstID).Nodup :=
    List.pairwise_map.mpr (hl.imp fun hab => UInt16.ne_of_lt hab)
  rw [List.map_append, List.nodup_append]
  refine ⟨hnodup h.bootstrap, hnodup h.server, ?_⟩
  rw [List.forall_mem_map]
  intro b hb
  rw [List.forall_mem_map]
  exact fun s hs => h.disjoint b hb s hs

theorem ListsInOrder.entries_inj (h : ListsInOrder contextP) {e' : Entry}
    (he : e ∈ entries contextP) (he' : e' ∈ entries contextP)
    (heq : e.secObjInstID = e'.secObjInstID) : e = e' := by
  have hmap : (entries contextP).map Entry.secObjInstID =
      (contextP.bootstrapServerList ++ contextP.serverList).map Server.secObjInstID := by
    rw [entries, List.map_append, List.map_map, List.map_map, List.map_append]
    rfl
  exact List.inj_on_of_nodup_map (hmap ▸ h.nodup) he he' heq

theorem ListsInOrder.marks_inj (h : ListsInOrder contextP) {m m' : Mark}
    (hm : m ∈ (marks contextP).1 ++ (marks contextP).2)
    (hm' : m' ∈ (marks contextP).1 ++ (marks contextP).2)
    (heq : m.secObjInstID = m'.secObjInstID) : m = m' := by
  have hmap : ((marks contextP).1 ++ (marks contextP).2).map Mark.secObjInstID =
      (contextP.bootstrapServerList ++ contextP.serverList).map Server.secObjInstID := by
    rw [marks, List.map_append, List.map_map, List.map_map, List.map_append]
    rfl
  exact List.inj_on_of_nodup_map (hmap ▸ h.nodup) hm hm' heq

/-- The entries that are left when the marked servers are freed. -/
theorem mem_entries_freed :
    e ∈ entries (freed contextP) ↔ e ∈ unmarkedEntries contextP := by
  have hkeep (reset : Server → Server) (hreset : ∀ x, (reset x).mark = x.mark)
      (list : List Server) (f : Mark → Entry) : (∃ x ∈ keepClean reset list, f x.mark = e) ↔
        ∃ m ∈ (list.map Server.mark).filter (!·.dirty), f m = e := by
    constructor
    · rintro ⟨x, hx, rfl⟩
      obtain ⟨y, hy, hclean, rfl⟩ := mem_keepClean.mp hx
      refine ⟨y.mark, List.mem_filter.mpr ⟨List.mem_map_of_mem hy, ?_⟩, by rw [hreset]⟩
      simpa [Server.mark] using hclean
    · rintro ⟨m, hm, rfl⟩
      obtain ⟨hmem, hclean⟩ := List.mem_filter.mp hm
      obtain ⟨y, hy, rfl⟩ := List.mem_map.mp hmem
      have hclean' : y.dirty = false := by simpa [Server.mark] using hclean
      exact ⟨reset y, mem_keepClean.mpr ⟨y, hy, hclean', rfl⟩, by rw [hreset]⟩
  rw [entries, unmarkedEntries, List.mem_append, List.mem_append, List.mem_map, List.mem_map,
    List.mem_map, List.mem_map]
  exact or_congr
    (hkeep (fun x => { x with status := .deregistered }) (fun _ => rfl) _
      fun m => ⟨true, m.secObjInstID, m.shortID⟩)
    (hkeep (fun x => x) (fun _ => rfl) _ fun m => ⟨false, m.secObjInstID, m.shortID⟩)

/-- An entry is marked or it is left. -/
theorem hasEntry_iff_marked (instanceId : UInt16) : HasEntry contextP instanceId ↔
    Marked contextP instanceId ∨ ∃ e ∈ unmarkedEntries contextP, e.secObjInstID = instanceId := by
  have hlist (list : List Server) (isBootstrap : Bool) :
      (∃ x ∈ list, x.secObjInstID = instanceId) ↔
        (∃ m ∈ list.map Server.mark, m.secObjInstID = instanceId ∧ m.dirty = true) ∨
          ∃ e ∈ ((list.map Server.mark).filter (!·.dirty)).map
            (fun m => (⟨isBootstrap, m.secObjInstID, m.shortID⟩ : Entry)),
              e.secObjInstID = instanceId := by
    constructor
    · rintro ⟨x, hx, hid⟩
      have hmem : x.mark ∈ list.map Server.mark := List.mem_map_of_mem hx
      cases hdirty : x.dirty with
      | true => exact .inl ⟨x.mark, hmem, hid, hdirty⟩
      | false =>
        have hclean : x.mark ∈ (list.map Server.mark).filter (!·.dirty) := by
          refine List.mem_filter.mpr ⟨hmem, ?_⟩
          simpa [Server.mark] using hdirty
        exact .inr ⟨_, List.mem_map_of_mem hclean, hid⟩
    · rintro (⟨m, hm, hid, -⟩ | ⟨e, he, hid⟩)
      · obtain ⟨x, hx, rfl⟩ := List.mem_map.mp hm
        exact ⟨x, hx, hid⟩
      · obtain ⟨m, hm, rfl⟩ := List.mem_map.mp he
        obtain ⟨x, hx, rfl⟩ := List.mem_map.mp (List.mem_filter.mp hm).1
        exact ⟨x, hx, hid⟩
  have happend {α : Type} {l₁ l₂ : List α} {q : α → Prop} :
      (∃ x ∈ l₁ ++ l₂, q x) ↔ (∃ x ∈ l₁, q x) ∨ ∃ x ∈ l₂, q x := by
    simp only [List.mem_append, or_and_right, exists_or]
  rw [HasEntry, Marked, unmarkedEntries, happend, happend, happend, hlist _ true, hlist _ false]
  exact or_or_or_comm

/-- No instance has an entry that is marked and one that is left. -/
theorem ListsInOrder.not_marked (h : ListsInOrder contextP) (hmarked : Marked contextP instanceId) :
    ¬ ∃ e ∈ unmarkedEntries contextP, e.secObjInstID = instanceId := by
  obtain ⟨m, hm, hid, hdirty⟩ := hmarked
  rintro ⟨e, he, hid'⟩
  have hother {l : List Mark} {isBootstrap : Bool}
      (he : e ∈ (l.filter (!·.dirty)).map
        fun m => (⟨isBootstrap, m.secObjInstID, m.shortID⟩ : Entry))
      (hsub : l ⊆ (marks contextP).1 ++ (marks contextP).2) : False := by
    obtain ⟨m', hm', rfl⟩ := List.mem_map.mp he
    obtain ⟨hmem, hclean⟩ := List.mem_filter.mp hm'
    have heq := h.marks_inj hm (hsub hmem) (hid.trans hid'.symm)
    rw [← heq, hdirty] at hclean
    exact absurd hclean (by decide)
  rcases List.mem_append.mp he with he | he
  · exact hother he (List.subset_append_left _ _)
  · exact hother he (List.subset_append_right _ _)

/-- Neither the end of the session nor what is done in place changes the marks. -/
theorem marks_finish {code : Code} (h : ListsInOrder contextP)
    (hfinish : bootstrapHandleFinish contextP fromSessionH (some instances) = (contextP', code))
    (servers bootstrapServers : StatusUpdate) :
    marks (contextP'.inPlace servers bootstrapServers) = marks contextP := by
  classical
  have hmap {f : Server → Server} (hf : ∀ x, (f x).mark = x.mark) (list : List Server) :
      (list.map f).map Server.mark = list.map Server.mark := by
    rw [List.map_map]
    exact List.map_congr_left fun x _ => hf x
  have hupdate (u : StatusUpdate) (x : Server) : (u.update x).mark = x.mark := by
    rw [Server.mark, u.secObjInstID_update, u.shortID_update, u.dirty_update, Server.mark]
  have hinPlace : marks (contextP'.inPlace servers bootstrapServers) = marks contextP' :=
    Prod.ext (hmap (hupdate bootstrapServers) _) (hmap (hupdate servers) _)
  obtain ⟨-, hbootstrap, hserver⟩ :=
    @getServersLoop_check_spec contextP instances (HasEntry contextP) _ h fun _ => Iff.rfl
  have hcheck : marks (getServersLoop true contextP instances).1 = marks contextP := by
    rw [marks, hbootstrap, hserver, marks]
  rw [hinPlace]
  unfold bootstrapHandleFinish at hfinish
  split at hfinish
  · cases hfinish
    rfl
  · rename_i bootstrapServer _
    have hstatus (x : Server) : (if x.ref = bootstrapServer.ref then
        { x with status := .bsFinishing } else x).mark = x.mark := by
      split_ifs <;> rfl
    dsimp only [objectGetServers] at hfinish
    split_ifs at hfinish
    · cases hfinish
      refine Eq.trans ?_ hcheck
      exact Prod.ext (hmap hstatus _) rfl
    · cases hfinish
      exact hcheck
    · cases hfinish
      rfl

/-- A positive answer says that every instance without an entry can be read. -/
theorem readable_of_finish (h : ListsInOrder contextP)
    (hfinish : bootstrapHandleFinish contextP fromSessionH (some instances) =
      (contextP', coap204Changed)) :
    ∀ p ∈ instances, ¬ HasEntry contextP p.1 → p.2 ≠ .failed := by
  classical
  obtain ⟨hcheck, -⟩ :=
    @getServersLoop_check_spec contextP instances (HasEntry contextP) _ h fun _ => Iff.rfl
  have hignore : coapIgnore ≠ coap204Changed := by decide
  have hrefused : coap406NotAcceptable ≠ coap204Changed := by decide
  unfold bootstrapHandleFinish at hfinish
  split at hfinish
  · exact absurd (congrArg Prod.snd hfinish) hignore
  · dsimp only [objectGetServers] at hfinish
    split_ifs at hfinish with hpending hresult
    · exact hcheck.mp hresult
    · exact absurd (congrArg Prod.snd hfinish) hrefused
    · exact absurd (congrArg Prod.snd hfinish) hignore

/-- The entries that a refresh looks past are the ones that are left. -/
theorem hasEntry_freed_iff (instanceId : UInt16) : HasEntry (freed contextP) instanceId ↔
    ∃ e ∈ unmarkedEntries contextP, e.secObjInstID = instanceId := by
  rw [hasEntry_iff]
  exact exists_congr fun e => and_congr_left fun _ => mem_entries_freed

/-- A refresh of lists that are in order, when what has no entry can be read. -/
theorem soundRefresh_iff (h : ListsInOrder contextP) (hinstances : instances.Pairwise (·.1 < ·.1))
    (hreadable : ∀ p ∈ instances, ¬ HasEntry contextP p.1 → p.2 ≠ .failed) :
    SoundRefresh contextP instances ↔
      MarkedReadable contextP instances ∧ UnmarkedAgree contextP instances := by
  classical
  have hrefresh : prvRefreshServerList contextP (some instances) =
      getServersLoop false (freed contextP) instances := rfl
  have hstart : ListsInOrder {} := ⟨.nil, .nil, fun _ h => absurd h List.not_mem_nil⟩
  have hempty (i : UInt16) : False ↔ HasEntry {} i :=
    (iff_false_intro fun ⟨_, hx, _⟩ => absurd hx List.not_mem_nil).symm
  obtain ⟨hresult, hkept⟩ := @getServersLoop_spec (freed contextP) instances
    (HasEntry (freed contextP)) _ h.freed hinstances fun _ _ => Iff.rfl
  obtain ⟨-, hfresh⟩ := @getServersLoop_spec {} instances (fun _ => False) _ hstart hinstances
    fun p _ => hempty p.1
  -- an entry of a run from empty lists is made for an instance that is reached there
  have hmade (e : Entry) : e ∈ entries (objectGetServers {} (some instances) false).1 ↔
      ∃ p ∈ instances.takeWhile (·.2 ≠ .failed), entryOf p.1 p.2 = some e := by
    have hnone : e ∉ entries {} := List.not_mem_nil
    rw [objectGetServers, hfresh, or_iff_right hnone]
    simp only [false_or, not_false_eq_true, true_and]
  constructor
  · intro hsound
    have hsucceeds := hresult.mp (hrefresh ▸ hsound.succeeds)
    refine ⟨fun p hp hmarked => hsucceeds p hp ?_, fun p hp x hx hid e he => ?_⟩
    · rw [hasEntry_freed_iff]
      exact h.not_marked hmarked
    · have hleft : x ∈ entries (prvRefreshServerList contextP (some instances)).1 :=
        hrefresh ▸ (hkept x).mpr (.inl (mem_entries_freed.mpr hx))
      have hthere := hsound.complete e ((hmade e).mpr ⟨p, hp, he⟩)
      exact (h.freed.getServersLoop false instances).entries_inj hthere hleft
        ((entryOf_secObjInstID he).trans hid.symm)
  · rintro ⟨hmarked, hagree⟩
    have hall : ∀ p ∈ instances, ¬ HasEntry (freed contextP) p.1 → p.2 ≠ .failed := by
      intro p hp hnew
      rw [hasEntry_freed_iff] at hnew
      by_cases hentry : HasEntry contextP p.1
      · exact hmarked p hp (((hasEntry_iff_marked p.1).mp hentry).resolve_right hnew)
      · exact hreadable p hp hentry
    refine ⟨hrefresh ▸ hresult.mpr hall, fun e he => ?_⟩
    obtain ⟨p, hp, hread⟩ := (hmade e).mp he
    rw [hrefresh, hkept]
    by_cases hentry : HasEntry (freed contextP) p.1
    · obtain ⟨x, hx, hid⟩ := (hasEntry_freed_iff p.1).mp hentry
      rw [hagree p hp x hx hid e hread]
      exact .inl (mem_entries_freed.mpr hx)
    · have hreached : instances.takeWhile
          (fun p => HasEntry (freed contextP) p.1 ∨ p.2 ≠ .failed) = instances := by
        rw [List.takeWhile_eq_self_iff]
        intro q hq
        rw [decide_eq_true_iff]
        exact or_iff_not_imp_left.mpr (hall q hq)
      rw [hreached]
      exact .inr ⟨p, (List.takeWhile_sublist _).subset hp, hentry, hread⟩

/-- **The end of a bootstrap session**.  After a positive answer the refresh succeeds and has every
server that a run from empty lists finds if and only if every instance whose entry is marked can
be read, and no entry that is not marked says something else than its instance. -/
theorem bootstrapFinish_sound_iff {events : List SessionEvent} {fromSessionH : Session}
    {instances : SecurityInstances} (hinstances : instances.Pairwise (·.1 < ·.1))
    (hfinish : bootstrapHandleFinish (sessionRun events) fromSessionH (some instances) =
      (contextP', coap204Changed))
    (servers bootstrapServers : StatusUpdate) :
    SoundRefresh (contextP'.inPlace servers bootstrapServers) instances ↔
      MarkedReadable (sessionRun events) instances ∧
        UnmarkedAgree (sessionRun events) instances := by
  have h := sessionRun_inOrder events
  have hmarks := marks_finish h hfinish servers bootstrapServers
  have hlast : contextP'.inPlace servers bootstrapServers = sessionRun (events ++
      [.finish fromSessionH (some instances), .inPlace servers bootstrapServers]) := by
    rw [sessionRun, List.foldl_append]
    change _ = Context.inPlace (bootstrapHandleFinish (sessionRun events) fromSessionH
      (some instances)).1 servers bootstrapServers
    rw [hfinish]
  have horder : ListsInOrder (contextP'.inPlace servers bootstrapServers) :=
    hlast ▸ sessionRun_inOrder _
  have hmarked (i : UInt16) : Marked (contextP'.inPlace servers bootstrapServers) i ↔
      Marked (sessionRun events) i := by
    rw [Marked, hmarks, Marked]
  have hunmarked : unmarkedEntries (contextP'.inPlace servers bootstrapServers) =
      unmarkedEntries (sessionRun events) := by
    rw [unmarkedEntries, hmarks, unmarkedEntries]
  have hreadable : ∀ p ∈ instances,
      ¬ HasEntry (contextP'.inPlace servers bootstrapServers) p.1 → p.2 ≠ .failed := by
    intro p hp hnew
    refine readable_of_finish h hfinish p hp fun hentry => hnew ?_
    rw [hasEntry_iff_marked, hmarked, hunmarked, ← hasEntry_iff_marked]
    exact hentry
  rw [soundRefresh_iff horder hinstances hreadable, MarkedReadable, MarkedReadable, UnmarkedAgree,
    UnmarkedAgree, hunmarked]
  simp only [hmarked]

/-- A session with a bootstrap server, whose instance is 0, and a server, whose instance is 1: the
bootstrap server writes over the instance 1. -/
def rewriteSession : List SessionEvent :=
  [.refresh (some [(0, .bootstrap), (1, .server 7)]),
    .inPlace ⟨id, fun _ => rfl, fun _ => rfl, fun _ => rfl⟩
      ⟨fun server => { server with sessionH := some 1, status := .bsPending },
        fun _ => rfl, fun _ => rfl, fun _ => rfl⟩,
    .command { objectId := 0, instanceId := 1 }
      { ref := 0, secObjInstID := 0, shortID := 0, sessionH := some 1, status := .bsPending }
      { code := 3 } {} { code := coap204Changed }]

/-- The bootstrap server has written a server that can be read. -/
theorem bootstrapFinish_sound_rewrite :
    SoundRefresh ((bootstrapHandleFinish (sessionRun rewriteSession) (some 1)
        (some [(0, .bootstrap), (1, .server 8)])).1.inPlace
          ⟨id, fun _ => rfl, fun _ => rfl, fun _ => rfl⟩
          ⟨id, fun _ => rfl, fun _ => rfl, fun _ => rfl⟩) [(0, .bootstrap), (1, .server 8)] ↔
      MarkedReadable (sessionRun rewriteSession) [(0, .bootstrap), (1, .server 8)] ∧
        UnmarkedAgree (sessionRun rewriteSession) [(0, .bootstrap), (1, .server 8)] :=
  @bootstrapFinish_sound_iff _ rewriteSession (some 1) _ (by decide) (by rfl) _ _

/-- The bootstrap server writes a server that cannot be read, with 0 as its short identifier: the
answer is 2.04, and the refresh fails. -/
theorem bootstrapFinish_positive_refresh_fails :
    (bootstrapHandleFinish (sessionRun rewriteSession) (some 1)
        (some [(0, .bootstrap), (1, .failed)])).2 = coap204Changed ∧
      ¬ SoundRefresh (bootstrapHandleFinish (sessionRun rewriteSession) (some 1)
        (some [(0, .bootstrap), (1, .failed)])).1 [(0, .bootstrap), (1, .failed)] :=
  ⟨by decide, fun h => absurd h.succeeds (by decide)⟩

end Lwm2m.Core

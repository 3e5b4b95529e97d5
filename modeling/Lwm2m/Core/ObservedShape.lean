/-
# The shape of the observed list

Every entry of the observed list has a watcher, no two watchers of an entry belong to the same
server, no two entries have the same URI, and what is linked is allocated
(`ObservedMemory.Shaped`): on this `observe_cancel` and `observe_step` rely when they follow the
pointers of the list.

One event breaks the shape.  A request that makes a new entry, and gets no memory for its watcher,
frees the entry but leaves it linked (`StrandsEntry`); every other event keeps the shape, whatever
allocation fails in it.  So the list has its shape in every state of a run exactly when no event of
the run strands an entry (`observedMemory_shaped_iff`).
-/

import Lwm2m.Core.Cancellation
import Lwm2m.Core.ObservedMemory

namespace Lwm2m.Core

open Coap Code Library Library.Memory

/-! ### One event -/

/-- The shape of a list of entries: each has a watcher, and no server twice, and the URIs differ. -/
def ShapedList (l : List Observed) : Prop :=
  (EveryEntry (· ≠ []) l ∧ EveryEntry List.Nodup l) ∧ DistinctUris l

theorem kept_shapedList : Kept ShapedList fun _ => True :=
  (((kept_everyEntry hereditary_ne_nil).forall_servers admits_ne_nil).and
    ((kept_everyEntry hereditary_nodup).forall_servers admits_nodup)).and kept_distinctUris

/-- `prv_getWatcher` makes a new entry and gets no memory for its watcher. -/
def GetsEntryOnly (allocations : Allocations) (l : List Observed) (uriP : Uri) : Prop :=
  prvFindObserved l uriP = none ∧ allocations.observed = true ∧ allocations.watcher = false

/-- The event is a request that comes as far as `prv_getWatcher`, which makes a new entry and gets
no memory for its watcher. -/
def StrandsEntry (l : List Observed) : ObserveEvent → Prop
  | .observe allocations _ uriP _ _ _ message _ =>
    message.observe = 0 ∧ ¬ (¬ uriP.isSetInstance ∧ uriP.isSetResource) ∧
      message.token.length ≠ 0 ∧ GetsEntryOnly allocations l uriP
  | .writeAttributes allocations uriP _ _ readable =>
    ¬ (¬ uriP.isSetInstance ∧ uriP.isSetResource) ∧ readable = coap205Content ∧
      GetsEntryOnly allocations l uriP
  | _ => False

variable {event : ObserveEvent}

section event

variable {l : List Observed} {left : ObservedList} {I : List Observed → Prop}

/-- What `prv_getWatcher` returns or leaves. -/
theorem prvGetWatcherIn_outcomes (allocations : Allocations) (l : List Observed) (uriP : Uri)
    (serverP : ServerRef) :
    (GetsEntryOnly allocations l uriP ∧
        prvGetWatcherIn allocations l uriP serverP = .error (.freedHead l)) ∨
      ¬ GetsEntryOnly allocations l uriP ∧
        (prvGetWatcherIn allocations l uriP serverP = .ok (prvGetWatcher l uriP serverP) ∨
          prvGetWatcherIn allocations l uriP serverP = .error (.intact l)) := by
  unfold prvGetWatcherIn GetsEntryOnly prvGetWatcher
  cases prvFindObserved l uriP with
  | none =>
    by_cases hobserved : allocations.observed = true
    · by_cases hwatcher : allocations.watcher = true
      · exact .inr ⟨by simp [hwatcher], .inl (by simp [hobserved, hwatcher, prvFindWatcher,
          focusFirst])⟩
      · exact .inl ⟨⟨rfl, hobserved, by simpa using hwatcher⟩, by simp [hobserved, hwatcher]⟩
    · exact .inr ⟨by simp [hobserved], .inr (by simp [hobserved])⟩
  | some entry =>
    refine .inr ⟨by simp, ?_⟩
    dsimp only [Option.getD_some]
    cases prvFindWatcher entry.here.watcherList serverP with
    | some watcher => exact .inl rfl
    | none =>
      by_cases hwatcher : allocations.watcher = true
      · exact .inl (by simp [hwatcher])
      · exact .inr (by simp [hwatcher])

/-- The list that an event leaves: it strands an entry, or keeps what the functions of the
observations keep. -/
def LeavesKept (I : List Observed → Prop) (strands : Prop) (l : List Observed)
    (left : ObservedList) : Prop :=
  (strands ∧ left = .freedHead l) ∨ ¬ strands ∧ ∃ l', left = .intact l' ∧ I l'

variable {allocations : Allocations} {uriP : Uri} {code : Code}

theorem observeHandleRequestIn_kept (hI : Kept I fun _ => True) {serverList : List Server}
    {serverP : Server} {value : DecodedValue} {time : ℤ} {message response response' : Packet}
    (h : observeHandleRequestIn allocations serverList l uriP serverP value time message response =
      .ok (left, response', code)) (hl : I l) :
    LeavesKept I (StrandsEntry l (.observe allocations serverList uriP serverP value time message
      response)) l left := by
  unfold observeHandleRequestIn at h
  by_cases hzero : message.observe = 0
  · rw [if_pos hzero] at h
    by_cases hlevels : ¬ uriP.isSetInstance ∧ uriP.isSetResource
    · rw [if_pos hlevels] at h
      cases h
      exact .inr ⟨fun hstrands => hstrands.2.1 hlevels, l, rfl, hl⟩
    by_cases htoken : message.token.length = 0
    · rw [if_neg hlevels, if_pos htoken] at h
      cases h
      exact .inr ⟨fun hstrands => hstrands.2.2.1 htoken, l, rfl, hl⟩
    rw [if_neg hlevels, if_neg htoken] at h
    rcases prvGetWatcherIn_outcomes allocations l uriP serverP.ref with
      ⟨hentry, hget⟩ | ⟨hentry, hget | hget⟩
    · rw [hget] at h
      cases h
      exact .inl ⟨⟨hzero, hlevels, htoken, hentry⟩, rfl⟩
    · -- a write to the watcher of the server
      have hwrite {w : Watcher} (hw : w.server = serverP.ref) :
          I ((prvGetWatcher l uriP serverP.ref).set w) := hI.set trivial hw hl
      have hserver := prvGetWatcher_server l uriP serverP.ref
      rw [hget] at h
      dsimp only at h
      refine .inr ⟨fun hstrands => hentry hstrands.2.2.2, ?_⟩
      by_cases hundecodable : uriP.isSetResource ∧ value = .undecodable
      · rw [if_pos hundecodable] at h
        cases h
        exact ⟨_, rfl, hwrite hserver⟩
      · rw [if_neg hundecodable] at h
        cases h
        refine ⟨_, rfl, hwrite ?_⟩
        split
        · split_ifs <;> exact hserver
        · exact hserver
    · rw [hget] at h
      cases h
      exact .inr ⟨fun hstrands => hentry hstrands.2.2.2, l, rfl, hl⟩
  · rw [if_neg hzero] at h
    obtain ⟨⟨l', r, c⟩, hhandle, h⟩ := bind_eq_ok_iff.mp h
    cases h
    exact .inr ⟨fun hstrands => hzero hstrands.1, l', rfl,
      hI.observeHandleRequest trivial hhandle hl⟩

theorem observeSetParametersIn_kept (hI : Kept I fun _ => True) {serverP : ServerRef}
    {attrP : Attributes} {readable : Code}
    (h : observeSetParametersIn allocations l uriP serverP attrP readable = .ok (left, code))
    (hl : I l) :
    LeavesKept I (StrandsEntry l (.writeAttributes allocations uriP serverP attrP readable)) l
      left := by
  unfold observeSetParametersIn at h
  by_cases hlevels : ¬ uriP.isSetInstance ∧ uriP.isSetResource
  · rw [if_pos hlevels] at h
    cases h
    exact .inr ⟨fun hstrands => hstrands.1 hlevels, l, rfl, hl⟩
  by_cases hreadable : readable ≠ coap205Content
  · rw [if_neg hlevels, if_pos hreadable] at h
    cases h
    exact .inr ⟨fun hstrands => hreadable hstrands.2.1, l, rfl, hl⟩
  rw [if_neg hlevels, if_neg hreadable] at h
  rcases prvGetWatcherIn_outcomes allocations l uriP serverP with
    ⟨hentry, hget⟩ | ⟨hentry, hget | hget⟩
  · rw [hget] at h
    cases h
    exact .inl ⟨⟨hlevels, not_not.mp hreadable, hentry⟩, rfl⟩
  · have hwrite {w : Watcher}
        (hw : w.server = (prvGetWatcher l uriP serverP).watcher.here.server) :
        I ((prvGetWatcher l uriP serverP).set w) :=
      hI.set trivial (by rw [hw, prvGetWatcher_server]) hl
    rw [hget] at h
    obtain ⟨clash, -, h⟩ := bind_eq_ok_iff.mp h
    refine .inr ⟨fun hstrands => hentry hstrands.2.2, ?_⟩
    cases clash with
    | true =>
      cases h
      exact ⟨_, rfl, hwrite rfl⟩
    | false =>
      simp only [Bool.false_eq_true, if_false] at h
      split at h
      · split_ifs at h <;>
        · cases h
          exact ⟨_, rfl, hwrite rfl⟩
      · cases h
        exact ⟨_, rfl, hwrite rfl⟩
  · rw [hget] at h
    cases h
    exact .inr ⟨fun hstrands => hentry hstrands.2.2, l, rfl, hl⟩

/-- **One event** strands an entry, or keeps what the functions of the observations keep. -/
theorem observedAfter_kept (hI : Kept I fun _ => True) (h : observedAfter l event = .ok left)
    (hl : I l) :
    LeavesKept I (StrandsEntry l event) l left := by
  cases event with
  | observe allocations serverList uriP serverP value time message response =>
    obtain ⟨⟨l', r, c⟩, hhandle, h⟩ := bind_eq_ok_iff.mp h
    cases h
    exact observeHandleRequestIn_kept hI hhandle hl
  | writeAttributes allocations uriP serverP attrP readable =>
    obtain ⟨⟨l', c⟩, hset, h⟩ := bind_eq_ok_iff.mp h
    cases h
    exact observeSetParametersIn_kept hI hset hl
  | reset serverList mid fromSessionH =>
    obtain ⟨l', hcancel, h⟩ := bind_eq_ok_iff.mp h
    cases h
    exact .inr ⟨id, l', rfl, hI.cancel hcancel hl⟩
  | clear uriP =>
    cases h
    exact .inr ⟨id, _, rfl, hI.clear uriP hl⟩
  | valueChanged uriP =>
    cases h
    exact .inr ⟨id, _, rfl, hI.changed uriP hl⟩
  | step serverList input currentTime nextMID =>
    obtain ⟨⟨l', mid, sent⟩, hstep, h⟩ := bind_eq_ok_iff.mp h
    cases h
    exact .inr ⟨id, l', rfl, hI.step hstep hl⟩

/-- An event that strands an entry does not fail. -/
theorem observedAfter_strands (h : StrandsEntry l event) :
    observedAfter l event = .ok (.freedHead l) := by
  cases event with
  | observe allocations serverList uriP serverP value time message response =>
    obtain ⟨hzero, hlevels, htoken, hentry⟩ := h
    rcases prvGetWatcherIn_outcomes allocations l uriP serverP.ref with ⟨-, hget⟩ | ⟨hnot, -⟩
    · refine bind_eq_ok_iff.mpr ⟨(.freedHead l, response, coap500InternalServerError), ?_, rfl⟩
      unfold observeHandleRequestIn
      rw [if_pos hzero, if_neg hlevels, if_neg htoken, hget]
      rfl
    · exact absurd hentry hnot
  | writeAttributes allocations uriP serverP attrP readable =>
    obtain ⟨hlevels, hreadable, hentry⟩ := h
    rcases prvGetWatcherIn_outcomes allocations l uriP serverP with ⟨-, hget⟩ | ⟨hnot, -⟩
    · refine bind_eq_ok_iff.mpr ⟨(.freedHead l, coap500InternalServerError), ?_, rfl⟩
      unfold observeSetParametersIn
      rw [if_neg hlevels, if_neg (not_not.mpr hreadable), hget]
      rfl
    · exact absurd hentry hnot
  | reset | clear | valueChanged | step => exact h.elim

end event

/-! ### Runs -/

namespace ObservedMemory

/-- The shape of the observed list: every entry has a watcher, no two watchers of an entry belong to
the same server, no two entries have the same URI, and every entry and watcher is allocated. -/
structure Shaped (contextP : ObservedMemory) : Prop where
  watched : ∀ node ∈ contextP.observedList, node.watcherList ≠ []
  servers : ∀ node ∈ contextP.observedList, (node.watcherList.map (·.watcherP.server)).Nodup
  uris : (contextP.observedList.map ObservedNode.uri).Nodup
  allocated : ∀ a ∈ linkedCells contextP.observedList, (contextP.heap.cells a).isSome

/-- The entries of the list in memory. -/
def entries (contextP : ObservedMemory) : List Observed :=
  contextP.observedList.map ObservedNode.observed

/-- A run from an empty list. -/
def run (events : List ObserveEvent) : Except Fault ObservedMemory := events.foldlM after {}

variable {contextP : ObservedMemory}

variable {history : List ObserveEvent}

theorem run_append :
    run (history ++ [event]) = .ok contextP ↔
      ∃ contextQ, run history = .ok contextQ ∧ contextQ.after event = .ok contextP := by
  unfold run
  rw [List.foldlM_append, bind_eq_ok_iff]
  refine exists_congr fun contextQ => and_congr_right fun _ => ?_
  rw [List.foldlM_cons, bind_eq_ok_iff]
  constructor
  · rintro ⟨contextR, hafter, hrest⟩
    cases hrest
    exact hafter
  · exact fun hafter => ⟨contextP, hafter, rfl⟩

theorem shaped_of_represents (h : contextP.Represents (.intact contextP.entries))
    (hshaped : ShapedList contextP.entries) : contextP.Shaped := by
  obtain ⟨⟨hwatched, hservers⟩, huris⟩ := hshaped
  have hmem {node : ObservedNode} (hnode : node ∈ contextP.observedList) :
      node.observed ∈ contextP.entries := List.mem_map_of_mem hnode
  refine ⟨fun node hnode hnil => ?_, fun node hnode => ?_, ?_,
    (represents_intact_iff.mp h).1.allocated⟩
  · refine hwatched _ (hmem hnode) ?_
    rw [Observed.servers, observed_watcherList, hnil]
    rfl
  · have hnodup := hservers _ (hmem hnode)
    rwa [Observed.servers, observed_watcherList, List.map_map] at hnodup
  · rwa [DistinctUris, entries, List.map_map] at huris

/-- A freed entry that is linked breaks the shape. -/
theorem not_shaped_of_freedHead {next : List Observed}
    (h : contextP.Represents (.freedHead next)) : ¬ contextP.Shaped := by
  obtain ⟨node, rest, hlist, hfreed, -⟩ := h
  intro hshaped
  have hsome := hshaped.allocated node.address
    (mem_linkedCells (hlist ▸ List.mem_cons_self) List.mem_cons_self)
  rw [hfreed] at hsome
  cases hsome

/-- The list that a run leaves has its shape, when no event strands an entry as long as the list has
it. -/
theorem run_represents
    (hfine : ∀ earlier event, earlier ++ [event] <+: history → ∀ contextQ,
      run earlier = .ok contextQ → contextQ.Represents (.intact contextQ.entries) →
      ¬ StrandsEntry contextQ.entries event) (h : run history = .ok contextP) :
    contextP.Represents (.intact contextP.entries) ∧ ShapedList contextP.entries := by
  induction history using List.reverseRecOn generalizing contextP with
  | nil =>
    cases h
    refine ⟨⟨⟨List.nodup_nil, nofun, nofun, nofun, nofun⟩, rfl⟩, ?_⟩
    exact ⟨⟨nofun, nofun⟩, List.nodup_nil⟩
  | append_singleton history event ih =>
    obtain ⟨contextQ, hrun, hafter⟩ := run_append.mp h
    obtain ⟨hrepresents, hshaped⟩ := ih (fun earlier event' hpre =>
      hfine earlier event' (hpre.trans (List.prefix_append _ _))) hrun
    obtain ⟨left, hleft, hrepresents'⟩ := (after_agrees hrepresents event).exists_ok hafter
    rcases observedAfter_kept kept_shapedList hleft hshaped with ⟨hstrands, -⟩ | ⟨-, l', rfl, hl'⟩
    · exact absurd hstrands (hfine history event List.prefix_rfl contextQ hrun hrepresents)
    · obtain ⟨howns, rfl⟩ := represents_intact_iff.mp hrepresents'
      exact ⟨⟨howns, rfl⟩, hl'⟩

end ObservedMemory

open ObservedMemory

/-- **The observed list has its shape in every state of a run** exactly when no event of the run
makes a new entry for which it then gets no watcher. -/
theorem observedMemory_shaped_iff (events : List ObserveEvent) :
    (∀ history, history <+: events → ∀ contextP, run history = .ok contextP → contextP.Shaped) ↔
      ∀ history event, history ++ [event] <+: events → ∀ contextP, run history = .ok contextP →
        ¬ StrandsEntry contextP.entries event := by
  constructor
  · intro hshaped
    have hfine : ∀ earlier event, earlier ++ [event] <+: events → ∀ contextQ,
        run earlier = .ok contextQ → contextQ.Represents (.intact contextQ.entries) →
        ¬ StrandsEntry contextQ.entries event := by
      intro earlier event hpre contextQ hrun hrepresents hstrands
      have hagrees := after_agrees hrepresents event
      rw [observedAfter_strands hstrands] at hagrees
      cases hafter : contextQ.after event with
      | error fault =>
        rw [hafter] at hagrees
        exact hagrees
      | ok contextR =>
        rw [hafter] at hagrees
        exact not_shaped_of_freedHead hagrees
          (hshaped _ hpre contextR (run_append.mpr ⟨contextQ, hrun, hafter⟩))
    intro history event hpre contextP hrun
    have hhistory := (List.prefix_append _ _).trans hpre
    exact hfine history event hpre contextP hrun (run_represents (fun earlier event' hearlier =>
      hfine earlier event' (hearlier.trans hhistory)) hrun).1
  · intro hfine history hpre contextP hrun
    obtain ⟨hrepresents, hshaped⟩ := run_represents (fun earlier event hearlier contextQ hrunQ _ =>
      hfine earlier event (hearlier.trans hpre) contextQ hrunQ) hrun
    exact shaped_of_represents hrepresents hshaped

/-- An Observe request on a resource, without memory for a watcher. -/
def observeWithoutMemory : ObserveEvent :=
  .observe { watcher := false } [] textUri servingServer .other 0
    (observeGet [[0x33], [0x30], [0x30]] [1]) {}

/-- **A freed entry stays linked** after an Observe request that got no memory for its watcher, and
the next reset follows the pointer to it. -/
theorem observeWithoutMemory_not_shaped :
    ¬ (∀ events contextP, run events = .ok contextP → contextP.Shaped) ∧
      ∃ contextP, run [observeWithoutMemory] = .ok contextP ∧
        contextP.after (.reset [] 0 none) = .error .useAfterFree := by
  refine ⟨fun hshaped => ?_, _, rfl, rfl⟩
  have hrun : run [observeWithoutMemory] = .ok _ := rfl
  have hallocated := (hshaped _ _ hrun).allocated 0 (by decide)
  exact absurd hallocated (by decide)

end Lwm2m.Core

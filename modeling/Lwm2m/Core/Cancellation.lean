/-
# Which watcher is cancelled

A GET with an Observe option of 1 names the watcher of a server on a URI; a reset names the active
watcher of the sender whose last notification had its message-id.  Both go through one search
of `observe_cancel`, which takes the first watcher with a last message-id that belongs to
a session, whether it is active or not.  In every run the cancellation is precise exactly when the
watcher that this search stops at is the one denoted, and no other is
(`cancellation_precise_iff`).

A watcher is identified by its URI and its server: no two entries have the same URI
(`nodup_uris`), and no two watchers of an entry the same server.
-/

import Lwm2m.Core.Watchers

namespace Lwm2m.Core

open Coap Code Library

/-! ### The URIs of the entries -/

variable {serverList : List Server} {mid nextMID : UInt16} {session : Session} {contextP : Context}
  {objectList : List ObjectEntry} {events : List Event}

section uris

variable {observedList observedList' : List Observed}

/-- No URI is observed by two entries. -/
def DistinctUris (observedList : List Observed) : Prop := (observedList.map Observed.uri).Nodup

/-- The URIs after a write through the pointer of `prv_getWatcher`. -/
theorem uris_prvGetWatcher_set (observedList : List Observed) (uriP : Uri) (server : ServerRef)
    (w : Watcher) :
    ((prvGetWatcher observedList uriP server).set w).map Observed.uri =
        observedList.map Observed.uri ∨
      uriP ∉ observedList.map Observed.uri ∧
        ((prvGetWatcher observedList uriP server).set w).map Observed.uri =
          uriP :: observedList.map Observed.uri := by
  rcases prvGetWatcher_entry observedList uriP server with ⟨-, hlist⟩ | ⟨hnone, hnew⟩
  · left
    conv_rhs => rw [← hlist]
    simp [WatcherFocus.set, Focus.set, Focus.list]
  · right
    constructor
    · rw [List.mem_map]
      rintro ⟨o, ho, rfl⟩
      refine focusFirst_eq_none_iff.mp hnone o ho ?_
      simp [prvFindObservedStops]
    · simp [WatcherFocus.set, hnew, Focus.set]

/-- A cancellation only takes URIs away. -/
theorem uris_observeCancel
    (h : observeCancel serverList mid session observedList = .ok observedList') :
    (observedList'.map Observed.uri).Sublist (observedList.map Observed.uri) := by
  induction observedList generalizing observedList' with
  | nil =>
    cases h
    exact .refl _
  | cons o next ih =>
    unfold observeCancel at h
    split_ifs at h with hnil
    · cases h
    obtain ⟨r, -, h⟩ := bind_eq_ok_iff.mp h
    cases r with
    | none =>
      obtain ⟨l, hl, h⟩ := bind_eq_ok_iff.mp h
      cases h
      exact (ih hl).cons_cons o.uri
    | some f =>
      dsimp only at h
      split_ifs at h
      · cases h
        exact List.sublist_cons_self _ _
      · cases h
        exact .refl _

theorem kept_distinctUris : Kept DistinctUris (fun _ => True) where
  set := by
    intro l uriP server w _ _ h
    unfold DistinctUris
    rcases uris_prvGetWatcher_set l uriP server w with hsame | ⟨hnew, hcons⟩
    · rw [hsame]
      exact h
    · rw [hcons]
      exact List.nodup_cons.mpr ⟨hnew, h⟩
  cancel := fun hcancel h => h.sublist (uris_observeCancel hcancel)
  clear := fun _ h => h.sublist (List.filter_sublist.map _)
  changed := by
    intro l uriP h
    have hsame : (lwm2mResourceValueChanged l uriP).map Observed.uri = l.map Observed.uri := by
      unfold lwm2mResourceValueChanged
      rw [List.map_map]
      refine List.map_congr_left fun o _ => ?_
      simp only [Function.comp]
      split <;> rfl
    unfold DistinctUris
    rw [hsame]
    exact h
  step := by
    intro l l' _ _ _ _ _ _ hstep h
    unfold DistinctUris
    rw [map_observeStep Observed.uri (fun _ _ _ _ _ _ => rfl) hstep]
    exact h

/-- **No URI is observed by two entries**, in any run. -/
theorem nodup_uris (h : clientRun nextMID objectList events = .ok contextP) :
    DistinctUris contextP.observedList :=
  kept_distinctUris.clientRun (fun _ => trivial) List.nodup_nil h

end uris

/-! ### Watchers by URI -/

/-- The watchers, each with its URI, in the order of the list. -/
def watchersOf (observedList : List Observed) : List (Uri × Watcher) :=
  observedList.flatMap fun o => o.watcherList.map (o.uri, ·)

/-- The list without the watchers denoted; an entry that loses its last watcher goes too. -/
def removeWatchers (denoted : Uri × Watcher → Bool) (observedList : List Observed) :
    List Observed :=
  observedList.filterMap fun o =>
    let watcherList := o.watcherList.filter fun w => !denoted (o.uri, w)
    if watcherList = [] then none else some { o with watcherList }

/-- What holds of the observed list in every run. -/
structure Regular (observedList : List Observed) : Prop where
  uris : DistinctUris observedList
  servers : ∀ o ∈ observedList, o.servers.Nodup
  nonempty : ∀ o ∈ observedList, o.watcherList ≠ []

theorem regular_clientRun (h : clientRun nextMID objectList events = .ok contextP) :
    Regular contextP.observedList :=
  ⟨nodup_uris h, nodup_watchers h, watcherList_ne_nil h⟩

section regular

variable {o : Observed} {next observedList observedList' : List Observed}

@[simp] theorem watchersOf_cons (o : Observed) (next : List Observed) :
    watchersOf (o :: next) = o.watcherList.map (o.uri, ·) ++ watchersOf next := rfl

theorem uri_mem_of_mem_watchersOf {x : Uri × Watcher} (h : x ∈ watchersOf observedList) :
    x.1 ∈ observedList.map Observed.uri := by
  obtain ⟨o, ho, hx⟩ := List.mem_flatMap.mp h
  obtain ⟨w, -, rfl⟩ := List.mem_map.mp hx
  exact List.mem_map_of_mem ho

theorem Regular.of_cons (h : Regular (o :: next)) :
    o.uri ∉ next.map Observed.uri ∧ o.watcherList.Nodup ∧ o.watcherList ≠ [] ∧ Regular next := by
  obtain ⟨huri, huris⟩ := List.nodup_cons.mp h.uris
  obtain ⟨hservers, hnext⟩ := List.forall_mem_cons.mp h.servers
  obtain ⟨hne, hnonempty⟩ := List.forall_mem_cons.mp h.nonempty
  exact ⟨huri, hservers.of_map, hne, huris, hnext, hnonempty⟩

/-- The watchers of the first URI, and the others. -/
theorem watchersOf_filter (huri : o.uri ∉ next.map Observed.uri) :
    (watchersOf (o :: next)).filter (·.1 = o.uri) = o.watcherList.map (o.uri, ·) ∧
      (watchersOf (o :: next)).filter (¬ ·.1 = o.uri) = watchersOf next := by
  have hothers : ∀ x ∈ watchersOf next, ¬ x.1 = o.uri :=
    fun x hx heq => huri (heq ▸ uri_mem_of_mem_watchersOf hx)
  rw [watchersOf_cons, List.filter_append, List.filter_append]
  constructor
  · rw [List.filter_eq_self.mpr (by simp), List.filter_eq_nil_iff.mpr
      (by simpa using hothers), List.append_nil]
  · rw [List.filter_eq_nil_iff.mpr (by simp), List.filter_eq_self.mpr (by simpa using hothers),
      List.nil_append]

/-- **A regular list is determined by its watchers.** -/
theorem watchersOf_injective (h : Regular observedList) (h' : Regular observedList')
    (heq : watchersOf observedList = watchersOf observedList') : observedList = observedList' := by
  induction observedList generalizing observedList' with
  | nil =>
    cases observedList' with
    | nil => rfl
    | cons o' next' =>
      obtain ⟨-, -, hne', -⟩ := h'.of_cons
      simp [watchersOf, hne'] at heq
  | cons o next ih =>
    obtain ⟨huri, -, hne, hnext⟩ := h.of_cons
    cases observedList' with
    | nil => simp [watchersOf, hne] at heq
    | cons o' next' =>
      obtain ⟨huri', -, hne', hnext'⟩ := h'.of_cons
      have hsame : o.uri = o'.uri := by
        obtain ⟨w, rest, hw⟩ := List.exists_cons_of_ne_nil hne
        obtain ⟨w', rest', hw'⟩ := List.exists_cons_of_ne_nil hne'
        rw [watchersOf_cons, watchersOf_cons, hw, hw'] at heq
        simp only [List.map_cons, List.cons_append, List.cons.injEq, Prod.mk.injEq] at heq
        exact heq.1.1
      obtain ⟨hfirst, hrest⟩ := watchersOf_filter huri
      obtain ⟨hfirst', hrest'⟩ := watchersOf_filter huri'
      rw [heq, hsame] at hfirst hrest
      have hwatchers : o.watcherList = o'.watcherList :=
        List.map_injective_iff.mpr (fun _ _ h => congrArg Prod.snd h) (hfirst.symm.trans hfirst')
      have hnexts := ih hnext hnext' (hrest.symm.trans hrest')
      cases o
      cases o'
      simp_all

/-! ### What a removal leaves -/

theorem watchersOf_removeWatchers (denoted : Uri × Watcher → Bool)
    (observedList : List Observed) : watchersOf (removeWatchers denoted observedList) =
      (watchersOf observedList).filter fun x => !denoted x := by
  induction observedList with
  | nil => rfl
  | cons o next ih =>
    rw [watchersOf_cons, List.filter_append, ← ih, removeWatchers, List.filterMap_cons,
      List.filter_map]
    dsimp only [Function.comp_def]
    by_cases hnil : (o.watcherList.filter fun w => !denoted (o.uri, w)) = []
    · rw [if_pos hnil, hnil]
      rfl
    · rw [if_neg hnil]
      rfl

theorem regular_removeWatchers (denoted : Uri × Watcher → Bool) (h : Regular observedList) :
    Regular (removeWatchers denoted observedList) := by
  have hmem {o : Observed} (ho : o ∈ removeWatchers denoted observedList) :
      ∃ o' ∈ observedList, o.watcherList.Sublist o'.watcherList ∧ o.watcherList ≠ [] := by
    obtain ⟨o', ho', hsome⟩ := List.mem_filterMap.mp ho
    dsimp only at hsome
    split_ifs at hsome with hnil
    cases hsome
    exact ⟨o', ho', List.filter_sublist, hnil⟩
  refine ⟨?_, fun o ho => ?_, fun o ho => ?_⟩
  · refine h.uris.sublist ?_
    have huris := h.uris
    clear h hmem huris
    induction observedList with
    | nil => exact .slnil
    | cons o next ih =>
      rw [removeWatchers, List.filterMap_cons]
      dsimp only
      split_ifs
      · exact ih.cons _
      · exact ih.cons_cons _
  · obtain ⟨o', ho', hsub, -⟩ := hmem ho
    exact (h.servers o' ho').sublist (hsub.map _)
  · obtain ⟨-, -, -, hne⟩ := hmem ho
    exact hne

theorem regular_observeCancel (h : Regular observedList)
    (hcancel : observeCancel serverList mid session observedList = .ok observedList') :
    Regular observedList' := by
  refine ⟨kept_distinctUris.cancel hcancel h.uris,
    everyEntry_observeCancel hereditary_nodup hcancel h.servers, fun o ho hnil => ?_⟩
  have hne : EveryEntry (· ≠ []) observedList := by
    intro o ho hnil
    exact h.nonempty o ho (List.map_eq_nil_iff.mp hnil)
  exact everyEntry_observeCancel hereditary_ne_nil hcancel hne o ho
    (by rw [Observed.servers, hnil, List.map_nil])

/-! ### The search of a cancellation -/

section search

variable (serverList : List Server) (mid : UInt16) (session : Session)

/-- The server of the watcher is on the list. -/
def ServerThere (w : Watcher) : Prop := (serverList.find? (·.ref = w.server)).isSome

instance (w : Watcher) : Decidable (ServerThere serverList w) :=
  inferInstanceAs (Decidable (_ = true))

/-- The search of `observe_cancel` stops at this watcher: it has the last message-id, and its
server has the session or is gone. -/
def stopsAt (x : Uri × Watcher) : Bool :=
  x.2.lastMid == mid &&
    (serverList.find? (·.ref = x.2.server)).all fun server =>
      lwm2mSessionIsEqual server.sessionH session

theorem findCancelled_eq (uri : Uri) (watcherList : List Watcher) :
    findCancelled serverList mid session watcherList =
      match focusFirst (fun w => stopsAt serverList mid session (uri, w)) watcherList with
      | none => .ok none
      | some f => if ServerThere serverList f.here then .ok (some f) else .error .useAfterFree := by
  induction watcherList with
  | nil => rfl
  | cons w next ih =>
    have hnext : (findCancelled serverList mid session next >>= fun r =>
        pure (r.map (Focus.push w))) =
          match (focusFirst (fun w => stopsAt serverList mid session (uri, w)) next).map
            (Focus.push w) with
          | none => .ok none
          | some f =>
            if ServerThere serverList f.here then .ok (some f) else .error .useAfterFree := by
      rw [ih]
      cases focusFirst (fun w => stopsAt serverList mid session (uri, w)) next with
      | none => rfl
      | some f =>
        simp only [Option.map_some, Focus.push]
        split_ifs <;> rfl
    unfold findCancelled focusFirst
    by_cases hmid : w.lastMid = mid
    · rw [if_pos hmid]
      unfold deref
      cases hserver : serverList.find? (·.ref = w.server) with
      | none =>
        have hstop : stopsAt serverList mid session (uri, w) = true := by
          simp [stopsAt, hmid, hserver]
        have hgone : ¬ ServerThere serverList w := by simp [ServerThere, hserver]
        rw [if_pos hstop]
        dsimp only
        rw [if_neg hgone]
        rfl
      | some server =>
        have hthere : ServerThere serverList w := by simp [ServerThere, hserver]
        by_cases hsession : lwm2mSessionIsEqual server.sessionH session = true
        · have hstop : stopsAt serverList mid session (uri, w) = true := by
            simp [stopsAt, hmid, hserver, hsession]
          simp only [ok_bind, if_pos hsession, if_pos hstop, if_pos hthere, pure_eq_ok]
        · have hstop : ¬ stopsAt serverList mid session (uri, w) = true := by
            simp [stopsAt, hmid, hserver, hsession]
          simp only [ok_bind, if_neg hsession, if_neg hstop]
          exact hnext
    · have hstop : ¬ stopsAt serverList mid session (uri, w) = true := by simp [stopsAt, hmid]
      rw [if_neg hmid, if_neg hstop]
      exact hnext

/-- **What `observe_cancel` does.**  It leaves the list, or takes the watcher that it stops at, or
follows the pointer to a server that is gone. -/
theorem observeCancel_cases (h : Regular observedList) :
    ((watchersOf observedList).find? (stopsAt serverList mid session) = none ∧
        observeCancel serverList mid session observedList = .ok observedList) ∨
      ∃ x, (watchersOf observedList).find? (stopsAt serverList mid session) = some x ∧
        if ServerThere serverList x.2 then
          ∃ l, observeCancel serverList mid session observedList = .ok l ∧
            watchersOf l = (watchersOf observedList).filter (¬ · = x)
        else observeCancel serverList mid session observedList = .error .useAfterFree := by
  induction observedList with
  | nil => exact .inl ⟨rfl, rfl⟩
  | cons o next ih =>
    obtain ⟨huri, hnodup, hne, hnext⟩ := h.of_cons
    have hothers : ∀ {w : Watcher}, (watchersOf next).filter (¬ · = (o.uri, w)) =
        watchersOf next := by
      intro w
      refine List.filter_eq_self.mpr fun x hx => decide_eq_true ?_
      rintro rfl
      exact huri (uri_mem_of_mem_watchersOf hx)
    have hfind : (watchersOf (o :: next)).find? (stopsAt serverList mid session) =
        ((focusFirst (fun w => stopsAt serverList mid session (o.uri, w)) o.watcherList).map
          fun f => (o.uri, f.here)).or
            ((watchersOf next).find? (stopsAt serverList mid session)) := by
      rw [watchersOf_cons, List.find?_append, List.find?_map, Function.comp_def,
        ← focusFirst_map_here, Option.map_map]
      rfl
    unfold observeCancel
    rw [if_neg hne, findCancelled_eq serverList mid session o.uri, hfind]
    cases hfocus : focusFirst (fun w => stopsAt serverList mid session (o.uri, w)) o.watcherList with
    | none =>
      simp only [ok_bind, Option.map_none, Option.none_or]
      rcases ih hnext with ⟨hnone, hcancel⟩ | ⟨x, hsome, hcancel⟩
      · exact .inl ⟨hnone, by rw [hcancel]; rfl⟩
      · refine .inr ⟨x, hsome, ?_⟩
        have hx := List.mem_of_find?_eq_some hsome
        split_ifs at hcancel with hthere
        · obtain ⟨l, hl, hwatchers⟩ := hcancel
          rw [if_pos hthere]
          refine ⟨o :: l, by rw [hl]; rfl, ?_⟩
          have hfirst : (o.watcherList.map (o.uri, ·)).filter (¬ · = x) =
              o.watcherList.map (o.uri, ·) := by
            refine List.filter_eq_self.mpr fun y hy => decide_eq_true ?_
            obtain ⟨w, -, rfl⟩ := List.mem_map.mp hy
            rintro rfl
            exact huri (uri_mem_of_mem_watchersOf hx)
          rw [watchersOf_cons, watchersOf_cons, List.filter_append, hwatchers, hfirst]
        · rw [if_neg hthere, hcancel]
          rfl
    | some f =>
      obtain ⟨hlist, -, -⟩ := focusFirst_eq_some_iff.mp hfocus
      refine .inr ⟨(o.uri, f.here), by simp, ?_⟩
      dsimp only
      by_cases hthere : ServerThere serverList f.here
      · have hunlink : (o.watcherList.map (o.uri, ·)).filter (¬ · = (o.uri, f.here)) =
            f.unlink.map (o.uri, ·) := by
          have hkeep : ∀ w ∈ f.unlink, w ≠ f.here := by
            rw [← hlist] at hnodup
            rintro w hw rfl
            exact f.here_not_mem_unlink hnodup hw
          rw [List.filter_map, ← hlist]
          congr 1
          rw [← Focus.filter_unlink_of_not (by simp)]
          exact List.filter_eq_self.mpr fun w hw => by simp [hkeep w hw]
        rw [if_pos hthere, if_pos hthere, ok_bind]
        dsimp only
        by_cases hlast : f.unlink = []
        · rw [if_pos hlast]
          refine ⟨next, rfl, ?_⟩
          rw [watchersOf_cons, List.filter_append, hunlink, hothers, hlast]
          rfl
        · rw [if_neg hlast]
          refine ⟨_, rfl, ?_⟩
          rw [watchersOf_cons, watchersOf_cons, List.filter_append, hunlink, hothers]
      · rw [if_neg hthere, if_neg hthere]
        rfl

/-- The search stops first at a watcher that is denoted, and no other is; or it does not stop and
none is. -/
def SearchMeets (denoted : Uri × Watcher → Bool) (observedList : List Observed) : Prop :=
  match (watchersOf observedList).find? (stopsAt serverList mid session) with
  | none => ∀ x ∈ watchersOf observedList, ¬ denoted x
  | some x => ServerThere serverList x.2 ∧ ∀ y ∈ watchersOf observedList, denoted y ↔ y = x

theorem removeWatchers_eq_iff (denoted : Uri × Watcher → Bool) (h : Regular observedList)
    (h' : Regular observedList') {p : Uri × Watcher → Bool}
    (hp : watchersOf observedList' = (watchersOf observedList).filter p) :
    observedList' = removeWatchers denoted observedList ↔
      ∀ x ∈ watchersOf observedList, denoted x ↔ ¬ p x := by
  have heq : observedList' = removeWatchers denoted observedList ↔
      (watchersOf observedList).filter p = (watchersOf observedList).filter fun x => !denoted x := by
    rw [← hp, ← watchersOf_removeWatchers]
    exact ⟨congrArg watchersOf, watchersOf_injective h' (regular_removeWatchers denoted h)⟩
  rw [heq]
  constructor
  · intro hfilter x hx
    have hmem : x ∈ (watchersOf observedList).filter p ↔
        x ∈ (watchersOf observedList).filter fun x => !denoted x := by rw [hfilter]
    simp only [List.mem_filter, hx, true_and, Bool.not_eq_true'] at hmem
    rw [hmem, Bool.not_eq_false]
  · intro hall
    refine List.filter_congr fun x hx => ?_
    cases hd : denoted x <;> simp_all

/-- **When `observe_cancel` takes what is denoted.** -/
theorem observeCancel_precise_iff (denoted : Uri × Watcher → Bool) (h : Regular observedList) :
    observeCancel serverList mid session observedList =
        .ok (removeWatchers denoted observedList) ↔
      SearchMeets serverList mid session denoted observedList := by
  unfold SearchMeets
  rcases observeCancel_cases serverList mid session h with ⟨hnone, hcancel⟩ | ⟨x, hsome, hcancel⟩
  · rw [hnone, hcancel, Except.ok.injEq,
      removeWatchers_eq_iff denoted h h (List.filter_true _).symm]
    simp
  · rw [hsome]
    split_ifs at hcancel with hthere
    · obtain ⟨l, hl, hwatchers⟩ := hcancel
      rw [hl, Except.ok.injEq,
        removeWatchers_eq_iff denoted h (regular_observeCancel h hl) hwatchers]
      simp [hthere]
    · rw [hcancel]
      exact iff_of_false nofun fun hmeets => hthere hmeets.1

end search

end regular

/-! ### Cancellations -/

/-- The active watcher of the sender of a reset whose last notification had the
message-id; the response to the Observe request counts as the first one. -/
def denotedByReset (serverList : List Server) (mid : UInt16) (session : Session)
    (x : Uri × Watcher) : Bool :=
  x.2.active && x.2.lastMid == mid &&
    (serverList.find? (·.ref = x.2.server)).any fun server =>
      lwm2mSessionIsEqual server.sessionH session

/-- The watcher of the server on the URI. -/
def denotedByGet (uriP : Uri) (server : ServerRef) (x : Uri × Watcher) : Bool :=
  x.1 = uriP ∧ x.2.server = server

/-- What a GET with an Observe option of 1 cancels: nothing, when the server has no watcher on
the entry that `prv_findObserved` returns, else what the search for the last message-id of that
watcher stops at. -/
def GetMeets (serverList : List Server) (observedList : List Observed) (uriP : Uri)
    (serverP : Server) : Prop :=
  match existingWatcher observedList uriP serverP.ref with
  | none => ∀ x ∈ watchersOf observedList, ¬ denotedByGet uriP serverP.ref x
  | some w =>
    SearchMeets serverList w.lastMid serverP.sessionH (denotedByGet uriP serverP.ref) observedList

/-- What a GET with an Observe option of 1 does. -/
theorem observeHandleRequest_cancel (serverList : List Server) (observedList : List Observed)
    (uriP : Uri) (serverP : Server) (value : DecodedValue) (time : ℤ) {message : Packet}
    (response : Packet) (hone : message.observe = 1) :
    (observeHandleRequest serverList observedList uriP serverP value time message response).map
        (·.1) =
      match existingWatcher observedList uriP serverP.ref with
      | none => .ok observedList
      | some w => observeCancel serverList w.lastMid serverP.sessionH observedList := by
  have hzero : ¬ message.observe = 0 := by simp [hone]
  unfold observeHandleRequest existingWatcher
  rw [if_neg hzero, if_pos hone]
  cases prvFindObserved observedList uriP with
  | none => rfl
  | some entry =>
    simp only [Option.bind_some]
    cases prvFindWatcher entry.here.watcherList serverP.ref with
    | none => rfl
    | some watcher =>
      simp only [Option.map_some]
      cases observeCancel serverList watcher.here.lastMid serverP.sessionH observedList <;> rfl

/-- **When a cancellation is precise.**  In every run a reset, and a GET with an Observe option of
1, removes the watcher that it denotes, and its entry if that was its last, and nothing else,
if and only if the search meets that watcher. -/
theorem cancellation_precise_iff {contextP : Context} {nextMID : UInt16}
    {objectList : List ObjectEntry} {events : List Event}
    (h : clientRun nextMID objectList events = .ok contextP) :
    (∀ mid session,
      observeCancel contextP.serverList mid session contextP.observedList =
          .ok (removeWatchers (denotedByReset contextP.serverList mid session)
            contextP.observedList) ↔
        SearchMeets contextP.serverList mid session
          (denotedByReset contextP.serverList mid session) contextP.observedList) ∧
    ∀ uriP serverP value time message response, message.observe = 1 →
      ((observeHandleRequest contextP.serverList contextP.observedList uriP serverP value time
          message response).map (·.1) =
          .ok (removeWatchers (denotedByGet uriP serverP.ref) contextP.observedList) ↔
        GetMeets contextP.serverList contextP.observedList uriP serverP) := by
  have hregular := regular_clientRun h
  refine ⟨fun mid session => observeCancel_precise_iff _ _ _ _ hregular, ?_⟩
  intro uriP serverP value time message response hone
  rw [observeHandleRequest_cancel _ _ _ _ _ _ _ hone]
  unfold GetMeets
  cases existingWatcher contextP.observedList uriP serverP.ref with
  | none =>
    dsimp only
    rw [Except.ok.injEq,
      removeWatchers_eq_iff _ hregular hregular (List.filter_true _).symm]
    simp
  | some w => exact observeCancel_precise_iff _ _ _ _ hregular

/-- A GET with an Observe option of 1. -/
def cancelGet : Packet := { code := 1, observe := 1 }

/-- The server that the small client is registered to. -/
def cancellingServer : Server := ⟨0, 0, 1, some 1, .registered, false, []⟩

/-- **Cancelling `/3` cancels the observation of `/3/0`.**  A registered server observes `/3/0`, and
then sends a GET on `/3` with an Observe option of 1: no watcher is on that URI, and the
watcher of `/3/0` is removed. -/
theorem cancel_nested_removes : ∃ contextP,
    clientRun 0 [] [.step registration,
      .request none 1024 (some 1) (observeGet [[0x33], [0x30]] [1]) readable] = .ok contextP ∧
    (observeHandleRequest contextP.serverList contextP.observedList { objectId := 3 }
      cancellingServer .other 0 cancelGet {}).map (·.1) = .ok [] ∧
    removeWatchers (denotedByGet { objectId := 3 } 0) contextP.observedList =
      contextP.observedList ∧
    contextP.observedList ≠ [] :=
  ⟨_, rfl, rfl, by decide, by decide⟩

/-- The search after a reset that names no message-id of the small client. -/
theorem registered_reset_precise : ∃ contextP,
    clientRun 0 [] [.step registration] = .ok contextP ∧
    (observeCancel contextP.serverList 7 (some 1) contextP.observedList =
        .ok (removeWatchers (denotedByReset contextP.serverList 7 (some 1))
          contextP.observedList) ↔
      SearchMeets contextP.serverList 7 (some 1)
        (denotedByReset contextP.serverList 7 (some 1)) contextP.observedList) := by
  have hrun : ∃ contextP, clientRun 0 [] [.step registration] = .ok contextP := ⟨_, rfl⟩
  obtain ⟨contextP, hrun⟩ := hrun
  exact ⟨contextP, hrun, (cancellation_precise_iff hrun).1 7 (some 1)⟩

end Lwm2m.Core

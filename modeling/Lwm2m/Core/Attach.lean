/-
# Where an observation is attached

An Observe request with the value 0 is to attach a watcher of the server to the
observed URI and to leave the other observations as they are.  It does exactly when
`prv_findObserved` does not stop at another entry first (`observe_attaches_iff`): the
search does not compare the levels that the requested URI leaves unset, while
`observe_findByUri` next to it does.
-/

import Lwm2m.Core.Watchers

namespace Lwm2m.Core

open Coap Code Library

/-- What an observation shows of a watcher: its server, token, parameters and active
flag. -/
def Watcher.shown (w : Watcher) : ServerRef × List Byte × Option Attributes × Bool :=
  (w.server, w.token, w.parameters, w.active)

/-- What an entry shows: its URI and its watchers. -/
def Observed.shown (o : Observed) :
    Uri × List (ServerRef × List Byte × Option Attributes × Bool) :=
  (o.uri, o.watcherList.map Watcher.shown)

/-- The observations of the other URIs. -/
def others (observedList : List Observed) (uriP : Uri) :
    List (Uri × List (ServerRef × List Byte × Option Attributes × Bool)) :=
  (observedList.filter fun o => decide (o.uri ≠ uriP)).map Observed.shown

/-- The server watches the entry with this token. -/
def Watches (server : ServerRef) (token : List Byte) (o : Observed) : Prop :=
  ∃ w ∈ o.watcherList, w.server = server ∧ w.active = true ∧ w.token = token

/-- The observation is attached to its URI: there is an entry of the URI with exactly one
watcher of the server, which is active and carries the token, and the observations of
the other URIs are what they were. -/
def Attached (observedList observedList' : List Observed) (uriP : Uri) (server : ServerRef)
    (token : List Byte) : Prop :=
  (∃ o ∈ observedList', o.uri = uriP ∧ ∃ w, o.watcherList.filter (·.server = server) = [w] ∧
    w.active = true ∧ w.token = token) ∧
  others observedList' uriP = others observedList uriP

/-- The search does not stop at the entry of another URI; or it does, and the server
already watches that entry and the one of the URI with this token. -/
def FindsOwnEntry (observedList : List Observed) (uriP : Uri) (server : ServerRef)
    (token : List Byte) : Prop :=
  ∀ f, prvFindObserved observedList uriP = some f → f.here.uri = uriP ∨
    Watches server token f.here ∧ ∃ o ∈ observedList, o.uri = uriP ∧ Watches server token o

variable {observedList : List Observed} {uriP : Uri} {server : ServerRef} {token : List Byte}
  {w : Watcher}

/-- The one watcher of a server. -/
theorem filter_server_eq {l : List Watcher} (hnodup : (l.map Watcher.server).Nodup)
    (hw : w ∈ l) : l.filter (·.server = w.server) = [w] := by
  induction l with
  | nil => exact absurd hw List.not_mem_nil
  | cons x l ih =>
    obtain ⟨hx, hl⟩ := List.nodup_cons.mp hnodup
    rcases List.mem_cons.mp hw with rfl | hw
    · rw [List.filter_cons_of_pos (by simp), List.cons.injEq, List.filter_eq_nil_iff]
      refine ⟨rfl, fun y hy hserver => hx ?_⟩
      rw [← of_decide_eq_true hserver]
      exact List.mem_map_of_mem hy
    · have hne : x.server ≠ w.server := fun h => hx (h ▸ List.mem_map_of_mem hw)
      rw [List.filter_cons_of_neg (by simpa using hne)]
      exact ih hl hw

/-- Where no server watches an entry twice, watching is having exactly one watcher. -/
theorem watches_iff {o : Observed} (hnodup : o.servers.Nodup) :
    (∃ w, o.watcherList.filter (·.server = server) = [w] ∧ w.active = true ∧ w.token = token) ↔
      Watches server token o := by
  constructor
  · rintro ⟨w, hfilter, hactive, htoken⟩
    have hmem : w ∈ o.watcherList.filter (·.server = server) := by
      rw [hfilter]
      exact List.mem_singleton_self w
    obtain ⟨hw, hserver⟩ := List.mem_filter.mp hmem
    exact ⟨w, hw, of_decide_eq_true hserver, hactive, htoken⟩
  · rintro ⟨w, hw, rfl, hactive, htoken⟩
    exact ⟨w, filter_server_eq hnodup hw, hactive, htoken⟩

/-- The watcher written watches its entry. -/
theorem watches_set (hserver : w.server = server) (hactive : w.active = true)
    (htoken : w.token = token) (o : Observed) (f : Focus Watcher) :
    Watches server token { o with watcherList := f.set w } :=
  ⟨w, Focus.mem_set.mpr (.inl rfl), hserver, hactive, htoken⟩

/-- An entry shows the same after the write exactly when the server watched it with this
token before. -/
theorem shown_watcherOf_set_iff {l : List Watcher} (hnodup : (l.map Watcher.server).Nodup)
    (hserver : w.server = server) (hactive : w.active = true) (htoken : w.token = token)
    (hparameters : w.parameters = (watcherOf l server).here.parameters) :
    ((watcherOf l server).set w).map Watcher.shown = l.map Watcher.shown ↔
      ∃ x ∈ l, x.server = server ∧ x.active = true ∧ x.token = token := by
  rcases watcherOf_cases l server with ⟨hlist, hhere⟩ | ⟨hnew, hnotin⟩
  · have hmem : (watcherOf l server).here ∈ l := by
      have hmem := Focus.here_mem_list (watcherOf l server)
      rwa [hlist] at hmem
    have hshown : ((watcherOf l server).set w).map Watcher.shown = l.map Watcher.shown ↔
        w.shown = (watcherOf l server).here.shown := by
      conv_lhs => rhs; rw [← hlist]
      simp [Focus.list, Focus.set]
    rw [hshown]
    constructor
    · intro h
      simp only [Watcher.shown, Prod.mk.injEq] at h
      exact ⟨_, hmem, hhere, h.2.2.2.symm.trans hactive, h.2.1.symm.trans htoken⟩
    · rintro ⟨x, hx, hxserver, hxactive, hxtoken⟩
      have hsame : x = (watcherOf l server).here := by
        have h₁ := filter_server_eq hnodup hx
        have h₂ := filter_server_eq hnodup hmem
        rw [hxserver] at h₁
        rw [hhere, h₁] at h₂
        exact (List.cons.inj h₂).1
      subst hsame
      simp only [Watcher.shown, Prod.mk.injEq]
      exact ⟨hserver.trans hhere.symm, htoken.trans hxtoken.symm, hparameters,
        hactive.trans hxactive.symm⟩
  · constructor
    · intro h
      have hlength := congrArg List.length h
      rw [hnew] at hlength
      simp [Focus.set] at hlength
    · rintro ⟨x, hx, hxserver, -⟩
      exact absurd (hxserver ▸ List.mem_map_of_mem hx) hnotin

/-- A write to the entry of another URI shows unless it writes what was shown. -/
theorem others_set_iff {f : Focus Observed} {o : Observed} (hf : f.here.uri ≠ uriP)
    (ho : o.uri ≠ uriP) : others (f.set o) uriP = others f.list uriP ↔
      o.shown = f.here.shown := by
  simp [others, Focus.list, Focus.set, hf, ho]

/-- **The write of `observe_handleRequest`.**  Where no server watches an entry twice, the
observation is attached exactly when the search finds the entry of its URI. -/
theorem attached_set_iff (hnodup : EveryEntry List.Nodup observedList)
    (hserver : w.server = server) (hactive : w.active = true) (htoken : w.token = token)
    (hparameters : w.parameters =
      (prvGetWatcher observedList uriP server).watcher.here.parameters) :
    Attached observedList ((prvGetWatcher observedList uriP server).set w) uriP server token ↔
      FindsOwnEntry observedList uriP server token := by
  have hnodup' : EveryEntry List.Nodup ((prvGetWatcher observedList uriP server).set w) :=
    everyEntry_prvGetWatcher_set (admits_nodup server) hnodup hserver
  have hcases := prvGetWatcher_entry observedList uriP server
  have hwatcher := prvGetWatcher_watcher observedList uriP server
  generalize prvGetWatcher observedList uriP server = target at *
  obtain ⟨entry, watcher⟩ := target
  simp only at hcases hwatcher hparameters
  subst hwatcher
  set o := { entry.here with
    watcherList := (watcherOf entry.here.watcherList server).set w } with ho
  have hset : WatcherFocus.set ⟨entry, watcherOf entry.here.watcherList server⟩ w =
    entry.set o := rfl
  rw [hset] at hnodup' ⊢
  have hmem : o ∈ entry.set o := Focus.mem_set.mpr (.inl rfl)
  have hone := (watches_iff (hnodup' o hmem)).mpr (watches_set hserver hactive htoken _ _)
  rcases hcases with ⟨hfind, hlist⟩ | ⟨hfind, rfl⟩
  · by_cases huri : entry.here.uri = uriP
    · refine iff_of_true ⟨⟨o, hmem, huri, hone⟩, ?_⟩ ?_
      · unfold others
        rw [Focus.filter_set_of_not (by simpa using huri) (by simpa using huri), hlist]
      · intro f hf
        rw [hfind] at hf
        cases hf
        exact .inl huri
    · have hhere : entry.here ∈ observedList := by
        rw [← hlist]
        exact Focus.here_mem_list entry
      have hothers : others (entry.set o) uriP = others observedList uriP ↔
          Watches server token entry.here := by
        have huri' : o.uri ≠ uriP := huri
        rw [← hlist, others_set_iff huri huri', Watches,
          ← shown_watcherOf_set_iff (hnodup _ hhere) hserver hactive htoken hparameters]
        simp [Observed.shown, ho]
      constructor
      · rintro ⟨⟨o', ho', huri', hone'⟩, hsame⟩ f hf
        rw [hfind] at hf
        cases hf
        refine .inr ⟨hothers.mp hsame, o', ?_, huri', (watches_iff (hnodup' o' ho')).mp hone'⟩
        rcases Focus.mem_set.mp ho' with rfl | hunlink
        · exact absurd huri' huri
        · rw [← hlist]
          exact Focus.mem_list.mpr (.inr hunlink)
      · intro hfinds
        rcases hfinds _ hfind with huri' | ⟨hwatches, o', ho', huri', hwatches'⟩
        · exact absurd huri' huri
        · refine ⟨⟨o', ?_, huri', (watches_iff (hnodup o' ho')).mpr hwatches'⟩,
            hothers.mpr hwatches⟩
          rw [← hlist] at ho'
          rcases Focus.mem_list.mp ho' with rfl | hunlink
          · exact absurd huri' huri
          · exact Focus.mem_set.mpr (.inr hunlink)
  · refine iff_of_true ⟨⟨o, hmem, rfl, hone⟩, ?_⟩ ?_
    · simp [others, Focus.set, ho]
    · intro f hf
      rw [hfind] at hf
      cases hf

/-- A GET that `dm_handleRequest` answers with 2.05 and that asks to observe. -/
theorem attached_dmHandleRequest_iff {contextP contextP' : Context} {serverP : Server}
    {message response response' : Packet} {payload : List Byte} {outcome : Outcome}
    (hnodup : EveryEntry List.Nodup contextP.observedList) (hget : message.code = 1)
    (hoption : message.isOption .observe) (hzero : message.observe = 0)
    (h : dmHandleRequest contextP uriP serverP { message with payload } response outcome =
      .ok (contextP', response', coap205Content)) :
    Attached contextP.observedList contextP'.observedList uriP serverP.ref message.token ↔
      FindsOwnEntry contextP.observedList uriP serverP.ref message.token := by
  rcases dmHandleRequest_cases h with
    ⟨-, hcode, -⟩ | ⟨-, hobserve⟩ | ⟨hpost, -⟩ | ⟨hput, -⟩ | ⟨hdelete, -⟩
  · exact absurd rfl (hcode hget hoption)
  · rcases observeRequest_cases hobserve with ⟨-, hcode⟩ | ⟨l, r, c, hl, rfl, hcode⟩
    · exact absurd rfl hcode
    · rcases observeHandleRequest_cases hl with
        ⟨-, hc⟩ | ⟨-, w, hserver, htoken, hactive, hparameters, rfl⟩ | ⟨hone, -⟩
      · exact absurd (hcode rfl) (hc hzero)
      · exact attached_set_iff hnodup hserver hactive htoken hparameters
      · exact absurd (hzero.symm.trans hone) (by decide)
  · exact absurd (hget.symm.trans hpost) (by decide)
  · exact absurd (hget.symm.trans hput) (by decide)
  · exact absurd (hget.symm.trans hdelete) (by decide)

/-- **An observation is attached to its URI exactly when the search finds the entry of
that URI.**  For every context the client can reach and every GET with an Observe option
of 0 that is answered with 2.05: the path decodes to a URI, and the observation is attached
to that URI for the server that asks, if and only if a server is known under the session
and `prv_findObserved` stops at no entry of another URI, or the server already watches
both entries with this token. -/
theorem observe_attaches_iff {nextMID : UInt16} {objectList : List ObjectEntry}
    {events : List Event} {contextP contextP' : Context}
    (hrun : clientRun nextMID objectList events = .ok contextP)
    {altPath : Option CString} {blockSize : UInt16} {fromSessionH : Session} {message : Packet}
    {outcome : Outcome} {reply : Packet} (hget : message.code = 1)
    (hoption : message.isOption .observe) (hzero : message.observe = 0)
    (hpacket : lwm2mHandleRequestPacket altPath blockSize contextP fromSessionH message outcome =
      .ok (contextP', some reply))
    (hreply : reply.code = coap205Content) :
    ∃ uri, uriDecode altPath message.uriPath message.code = .ok (.dm, uri) ∧
      ((∃ serverP, utilsFindServer contextP.serverList fromSessionH = some serverP ∧
          Attached contextP.observedList contextP'.observedList uri serverP.ref message.token) ↔
        ∃ serverP, utilsFindServer contextP.serverList fromSessionH = some serverP ∧
          FindsOwnEntry contextP.observedList uri serverP.ref message.token) := by
  have hnodup : EveryEntry List.Nodup contextP.observedList := nodup_watchers hrun
  obtain ⟨contextQ, hsame, ⟨-, hcode⟩ | ⟨payload, response, result, hresult, rfl, hcode⟩⟩ :=
    lwm2mHandleRequestPacket_cases hpacket
  · exact absurd hreply (hcode reply rfl)
  have hcode := hcode reply rfl hreply
  rcases handleRequest_cases hresult with ⟨c, hc, hc', rfl | rfl⟩ |
    ⟨uri, serverQ, contextR, r, c, hdecode, hserver, hdm, rfl⟩ |
    ⟨uri, serverQ, contextR, r, c, hdecode, hserver, hbootstrap, rfl⟩ | ⟨hdelete, -⟩ | ⟨hpost, -⟩
  · rcases hcode with ⟨hcode, -⟩ | hcode
    · exact absurd hcode hc'
    · exact absurd hcode hc
  · rcases hcode with ⟨-, hcode⟩ | hcode
    · exact absurd hcode hc
    · exact absurd hcode (answer_code_ne_content _ _ _)
  · refine ⟨uri, hdecode, ?_⟩
    have hcontent : c = coap205Content := by
      rcases hcode with ⟨-, hcode⟩ | hcode
      · exact hcode
      · exact absurd hcode (answer_code_ne_content _ _ _)
    have hmap := hsame.sessions fromSessionH
    rw [hserver] at hmap
    obtain ⟨serverP, hserverP, href⟩ := Option.map_eq_some_iff.mp hmap.symm
    have hattached : Attached contextP.observedList contextR.observedList uri serverP.ref
        message.token ↔ FindsOwnEntry contextP.observedList uri serverP.ref message.token := by
      rw [href, ← hsame.observedList]
      rw [← hsame.observedList] at hnodup
      exact attached_dmHandleRequest_iff hnodup hget hoption hzero (hcontent ▸ hdm)
    simp [hserverP, hattached, answer]
  · refine ⟨uri, hdecode, ?_⟩
    have hnone := hsame.sessions fromSessionH
    rw [hserver] at hnone
    have hnone := Option.map_eq_none_iff.mp hnone.symm
    constructor
    · rintro ⟨serverP, hserverP, -⟩
      rw [hnone] at hserverP
      cases hserverP
    · rintro ⟨serverP, hserverP, -⟩
      rw [hnone] at hserverP
      cases hserverP
  · exact absurd (hget.symm.trans hdelete) (by decide)
  · exact absurd (hget.symm.trans hpost) (by decide)

/-! ### Nested paths -/

/-- The client after its first step. -/
def registeredClient : Context :=
  { state := .registering
    serverList := [⟨0, 0, 1, some 1, .registered, false, []⟩]
    allocated := 1 }

/-- The first observation of a registered client. -/
theorem observe_attaches_first : ∃ contextP' reply,
    lwm2mHandleRequestPacket none 1024 registeredClient (some 1) (observeGet [[0x33]] [1])
      readable = .ok (contextP', some reply) ∧
    ∃ uri, uriDecode none [[0x33]] 1 = .ok (.dm, uri) ∧
      ((∃ serverP, utilsFindServer registeredClient.serverList (some 1) = some serverP ∧
          Attached [] contextP'.observedList uri serverP.ref [1]) ↔
        ∃ serverP, utilsFindServer registeredClient.serverList (some 1) = some serverP ∧
          FindsOwnEntry [] uri serverP.ref [1]) := by
  have hrun : clientRun 0 [] [.step registration] = .ok registeredClient := rfl
  obtain ⟨contextP', reply, hpacket, hcode⟩ : ∃ contextP' reply,
      lwm2mHandleRequestPacket none 1024 registeredClient (some 1) (observeGet [[0x33]] [1])
        readable = .ok (contextP', some reply) ∧ reply.code = coap205Content := ⟨_, _, rfl, rfl⟩
  exact ⟨contextP', reply, hpacket,
    observe_attaches_iff hrun rfl (by decide) (by decide) hpacket hcode⟩

/-- **Observing `/3` takes over the observation of `/3/0`.**  A registered server observes
`/3/0` with token 1 and then `/3` with token 2: the answer is 2.05, no entry of `/3` is made,
and the watcher of `/3/0` now carries token 2. -/
theorem observe_nested_overwrites : ∃ contextP contextP' reply,
    clientRun 0 [] [.step registration,
      .request none 1024 (some 1) (observeGet [[0x33], [0x30]] [1]) readable] = .ok contextP ∧
    lwm2mHandleRequestPacket none 1024 contextP (some 1) (observeGet [[0x33]] [2]) readable =
      .ok (contextP', some reply) ∧
    reply.code = coap205Content ∧
    uriDecode none [[0x33]] 1 = .ok (.dm, { objectId := 3 }) ∧
    contextP'.observedList.map (fun o => (o.uri, o.watcherList.map Watcher.token)) =
      [({ objectId := 3, instanceId := 0 }, [[2]])] ∧
    ¬ ∃ serverP, utilsFindServer contextP.serverList (some 1) = some serverP ∧
      Attached contextP.observedList contextP'.observedList { objectId := 3 } serverP.ref [2] := by
  refine ⟨_, _, _, rfl, rfl, rfl, by decide, by decide, ?_⟩
  rintro ⟨serverP, -, ⟨o, ho, huri, -⟩, -⟩
  revert huri
  revert o
  decide

end Lwm2m.Core

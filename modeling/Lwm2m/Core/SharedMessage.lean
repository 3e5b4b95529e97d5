/-
# What a notification carries

`observe_step` serializes the value of an entry for the first watcher that is due, and sends
the message it prepared then to the others that are due; only the token, the observe counter and
the message-id are set anew.  So every notification is the one that its watcher negotiated
exactly when the watchers due behind the first value that is not empty have the format of that
value (`observeStep_selfConsistent_iff`).
-/

import Lwm2m.Core.Watchers

namespace Lwm2m.Core

open Coap Code Library

/-! ### The notification of a watcher -/

/-- The message that `observe_step` prepares for a value. -/
def contentMessage (format : UInt16) (buffer : Option (List Byte)) : Packet :=
  ((coapInitMessage .non coap205Content 0).coapSetHeaderContentType format.toUInt32).coapSetPayload
    (buffer.getD [])

/-- The watchers of an entry that are due. -/
def dueWatchers (input : StepInput) (watcherList : List Watcher) : List Watcher :=
  watcherList.filter fun w => w.active ∧ input.notify w

/-- The message is the notification of this watcher: the value in the format that it negotiated,
with its token and its observe counter, to the session of its server. -/
def NotificationOf (serverList : List Server) (input : StepInput) (w : Watcher) (sent : Sent) :
    Prop :=
  (∃ server, deref serverList w.server = .ok server ∧ sent.sessionH = server.sessionH) ∧
    ∃ buffer mid, input.serialize w.format = some (w.format, buffer) ∧
      sent.message = notification (contentMessage w.format buffer) w mid

/-- What is sent, in order, are the notifications of the watchers; a serialization that fails ends
the list. -/
def SelfConsistent (serverList : List Server) (input : StepInput) (due : List Watcher)
    (sent : List Sent) : Prop :=
  List.Forall₂ (NotificationOf serverList input) (due.take sent.length) sent

/-- No serialization changes the format of its watcher, and behind the first value that is
not empty every watcher has the format of that value. -/
def OneFormat (input : StepInput) : List Watcher → Prop
  | [] => True
  | w :: next =>
    match input.serialize w.format with
    | none => True
    | some (format, none) => format = w.format ∧ OneFormat input next
    | some (format, some _) => format = w.format ∧ ∀ w' ∈ next, w'.format = w.format

/-! ### One entry -/

/-- A message that is used again keeps nothing of the watcher before. -/
theorem notification_notification (message : Packet) (w w' : Watcher) (mid mid' : UInt16) :
    notification (notification message w mid) w' mid' = notification message w' mid' := by
  have hagain (x y : BitVec 40) : x ||| y ||| y = x ||| y := by rw [BitVec.or_assoc, BitVec.or_self]
  simp only [notification, Packet.coapSetHeaderObserve, Packet.coapSetHeaderToken,
    Packet.markOption, Packet.mark, Packet.mk.injEq, true_and, and_true]
  rw [BitVec.or_assoc (_ ||| _ ||| _), BitVec.or_assoc message.options]
  exact hagain _ _

variable {serverList : List Server} {input : StepInput} {currentTime : ℤ}
  {nextMID lastMID : UInt16} {watcherList watcherList' : List Watcher} {sent : List Sent}

/-- With a prepared message every watcher that is due is sent a notification. -/
theorem notifyWatchers_prepared {message : Packet} {format : UInt16} {buffer : List Byte}
    (hserialize : input.serialize format = some (format, some buffer))
    (hmessage : ∀ w mid,
      notification message w mid = notification (contentMessage format (some buffer)) w mid)
    (h : notifyWatchers serverList input currentTime nextMID (some message) watcherList =
      .ok (watcherList', lastMID, sent)) :
    sent.length = (dueWatchers input watcherList).length ∧
      (List.Forall₂ (NotificationOf serverList input) (dueWatchers input watcherList) sent ↔
        ∀ w ∈ dueWatchers input watcherList, w.format = format) := by
  induction watcherList generalizing nextMID message watcherList' lastMID sent with
  | nil =>
    cases h
    exact ⟨rfl, by simp [dueWatchers]⟩
  | cons w next ih =>
    unfold notifyWatchers at h
    by_cases hdue : w.active ∧ input.notify w
    · rw [if_pos hdue] at h
      obtain ⟨server, hserver, h⟩ := bind_eq_ok_iff.mp h
      obtain ⟨⟨rest, mid, sent'⟩, hrest, h⟩ := bind_eq_ok_iff.mp h
      cases h
      have hlist : dueWatchers input (w :: next) = w :: dueWatchers input next :=
        List.filter_cons_of_pos (by simpa using hdue)
      have hagain : ∀ w' mid, notification (notification message w nextMID) w' mid =
          notification (contentMessage format (some buffer)) w' mid := by
        intro w' mid
        rw [notification_notification, hmessage]
      obtain ⟨hlength, hiff⟩ := ih hagain hrest
      rw [hlist, List.length_cons, List.length_cons, hlength, List.forall₂_cons, hiff,
        List.forall_mem_cons]
      refine ⟨rfl, and_congr_left fun _ => ?_⟩
      constructor
      · rintro ⟨-, b, m, hown, heq⟩
        have hcontent := congrArg Packet.contentType ((hmessage w nextMID).symm.trans heq)
        exact (UInt16.toUInt32_inj.mp hcontent).symm
      · intro hformat
        rw [← hformat] at hserialize hmessage
        exact ⟨⟨server, hserver, rfl⟩, some buffer, nextMID, hserialize, hmessage w nextMID⟩
    · rw [if_neg hdue] at h
      obtain ⟨⟨rest, mid, sent'⟩, hrest, h⟩ := bind_eq_ok_iff.mp h
      cases h
      have hlist : dueWatchers input (w :: next) = dueWatchers input next :=
        List.filter_cons_of_neg (by simpa using hdue)
      rw [hlist]
      exact ih hmessage hrest

/-- **The notifications of one entry.** -/
theorem notifyWatchers_selfConsistent_iff
    (h : notifyWatchers serverList input currentTime nextMID none watcherList =
      .ok (watcherList', lastMID, sent)) :
    SelfConsistent serverList input (dueWatchers input watcherList) sent ↔
      OneFormat input (dueWatchers input watcherList) := by
  unfold SelfConsistent
  induction watcherList generalizing nextMID watcherList' lastMID sent with
  | nil =>
    cases h
    simp [dueWatchers, OneFormat]
  | cons w next ih =>
    unfold notifyWatchers at h
    by_cases hdue : w.active ∧ input.notify w
    · have hlist : dueWatchers input (w :: next) = w :: dueWatchers input next :=
        List.filter_cons_of_pos (by simpa using hdue)
      rw [if_pos hdue] at h
      rw [hlist, OneFormat]
      cases hserialize : input.serialize w.format with
      | none =>
        rw [hserialize] at h
        cases h
        simp
      | some value =>
        obtain ⟨format, buffer⟩ := value
        rw [hserialize] at h
        obtain ⟨server, hserver, h⟩ := bind_eq_ok_iff.mp h
        obtain ⟨⟨rest, mid, sent'⟩, hrest, h⟩ := bind_eq_ok_iff.mp h
        cases h
        -- the first notification is right when its format is the one negotiated
        have hfirst : NotificationOf serverList input w
            ⟨server.sessionH, notification (contentMessage format buffer) w nextMID⟩ ↔
              format = w.format := by
          constructor
          · rintro ⟨-, b, m, hown, heq⟩
            have hcontent := congrArg Packet.contentType heq
            exact UInt16.toUInt32_inj.mp hcontent
          · rintro rfl
            exact ⟨⟨server, hserver, rfl⟩, buffer, nextMID, hserialize, rfl⟩
        rw [List.length_cons, List.take_succ_cons, List.forall₂_cons]
        cases buffer with
        | none => exact and_congr hfirst (ih hrest)
        | some bytes =>
          refine (and_congr hfirst Iff.rfl).trans (and_congr_right fun hformat => ?_)
          rw [← hformat] at hserialize ⊢
          obtain ⟨hlength, hiff⟩ := notifyWatchers_prepared hserialize
            (fun w' mid => notification_notification _ _ _ _ _) hrest
          rw [hlength, List.take_length, hiff]
    · rw [if_neg hdue] at h
      obtain ⟨⟨rest, mid, sent'⟩, hrest, h⟩ := bind_eq_ok_iff.mp h
      cases h
      have hlist : dueWatchers input (w :: next) = dueWatchers input next :=
        List.filter_cons_of_neg (by simpa using hdue)
      rw [hlist]
      exact ih hrest

/-! ### One step -/

/-- The notifications of one entry in a step: those that are sent, one after the other, from one
message-id on. -/
def EntrySends (serverList : List Server) (input : StepInput) (currentTime : ℤ) (o : Observed)
    (sent : List Sent) : Prop :=
  ∃ nextMID watcherList' lastMID, notifyWatchers serverList input currentTime nextMID none
    o.watcherList = .ok (watcherList', lastMID, sent)

/-- **When the notifications of a step are self-consistent.**  What a step sends are the
notifications of the entries that can be read, in order; those of an entry are the ones that its
watchers negotiated if and only if the due watchers have one format. -/
theorem observeStep_selfConsistent_iff {serverList : List Server} {input : Uri → StepInput}
    {currentTime : ℤ} {nextMID lastMID : UInt16} {observedList observedList' : List Observed}
    {sent : List Sent}
    (h : observeStep serverList input currentTime nextMID observedList =
      .ok (observedList', lastMID, sent)) :
    ∃ parts : List (List Sent), sent = parts.flatten ∧
      List.Forall₂ (fun o part => EntrySends serverList (input o.uri) currentTime o part ∧
        (SelfConsistent serverList (input o.uri) (dueWatchers (input o.uri) o.watcherList) part ↔
          OneFormat (input o.uri) (dueWatchers (input o.uri) o.watcherList)))
        (observedList.filter fun o => (input o.uri).readable) parts := by
  induction observedList generalizing nextMID observedList' lastMID sent with
  | nil =>
    cases h
    exact ⟨[], rfl, .nil⟩
  | cons o next ih =>
    unfold observeStep at h
    by_cases hread : (input o.uri).readable = true
    · rw [if_pos hread] at h
      obtain ⟨⟨watcherList, mid, part⟩, hwatchers, h⟩ := bind_eq_ok_iff.mp h
      obtain ⟨⟨rest, mid', sent'⟩, hrest, h⟩ := bind_eq_ok_iff.mp h
      cases h
      obtain ⟨parts, rfl, hparts⟩ := ih hrest
      have hfilter : (o :: next).filter (fun o => (input o.uri).readable) =
          o :: next.filter fun o => (input o.uri).readable := List.filter_cons_of_pos hread
      refine ⟨part :: parts, rfl, ?_⟩
      rw [hfilter]
      exact .cons ⟨⟨_, _, _, hwatchers⟩, notifyWatchers_selfConsistent_iff hwatchers⟩ hparts
    · rw [if_neg hread] at h
      obtain ⟨⟨rest, mid', sent'⟩, hrest, h⟩ := bind_eq_ok_iff.mp h
      cases h
      have hfilter : (o :: next).filter (fun o => (input o.uri).readable) =
          next.filter fun o => (input o.uri).readable := List.filter_cons_of_neg hread
      rw [hfilter]
      exact ih hrest

/-! ### Two formats -/

/-- The first step with two servers, each with its own session. -/
def twoRegistrations : StepEnv :=
  { registration with
    security := some [(0, .server 1), (1, .server 2)]
    start := ⟨fun server => { server with sessionH := some server.ref, status := .registered },
      fun _ => rfl⟩ }

/-- The object layer reads a value that is to be sent in this format. -/
def readableAs (format : UInt16) : Outcome :=
  { readable with responseFormat := (coap205Content, format) }

/-- Two servers observe `/3/0` in two formats, and its value changes. -/
def twoFormats : List Event :=
  [.step twoRegistrations,
    .request none 1024 (some 0) (observeGet [[0x33], [0x30]] [1]) (readableAs 11542),
    .request none 1024 (some 1) (observeGet [[0x33], [0x30]] [2]) (readableAs 11543),
    .valueChanged { objectId := 3, instanceId := 0 }]

/-- The value is one byte, that of its format. -/
def byteOfFormat : StepInput :=
  { readable := true
    notify := Watcher.update
    serialize := fun format => some (format, some [if format = 11542 then 0x54 else 0x4A])
    value := none }

/-- **The format of another server.**  Both servers are notified in the format 11543; the one
with session 0 negotiated 11542. -/
theorem twoFormats_shared : ∃ contextP sent l mid,
    clientRun 0 [] twoFormats = .ok contextP ∧
      observeStep contextP.serverList (fun _ => byteOfFormat) 0 contextP.nextMID
        contextP.observedList = .ok (l, mid, sent) ∧
      contextP.observedList.map (fun o => o.watcherList.map fun w => (w.server, w.format)) =
        [[(1, 11543), (0, 11542)]] ∧
      sent.map (fun s => (s.sessionH, s.message.contentType, s.message.payload)) =
        [(some 1, 11543, [0x4A]), (some 0, 11543, [0x4A])] :=
  ⟨_, _, _, _, rfl, rfl, by decide, by decide⟩

/-- The parts of that step. -/
theorem twoFormats_parts : ∃ contextP sent l mid,
    clientRun 0 [] twoFormats = .ok contextP ∧
      observeStep contextP.serverList (fun _ => byteOfFormat) 0 contextP.nextMID
        contextP.observedList = .ok (l, mid, sent) ∧
      ∃ parts : List (List Sent), sent = parts.flatten ∧
        List.Forall₂ (fun o part => EntrySends contextP.serverList byteOfFormat 0 o part ∧
          (SelfConsistent contextP.serverList byteOfFormat
              (dueWatchers byteOfFormat o.watcherList) part ↔
            OneFormat byteOfFormat (dueWatchers byteOfFormat o.watcherList)))
          (contextP.observedList.filter fun _ => byteOfFormat.readable) parts := by
  have hstep : ∃ contextP sent l mid, clientRun 0 [] twoFormats = .ok contextP ∧
      observeStep contextP.serverList (fun _ => byteOfFormat) 0 contextP.nextMID
        contextP.observedList = .ok (l, mid, sent) := ⟨_, _, _, _, rfl, rfl⟩
  obtain ⟨contextP, sent, l, mid, hrun, hstep⟩ := hstep
  exact ⟨contextP, sent, l, mid, hrun, hstep, observeStep_selfConsistent_iff hstep⟩

end Lwm2m.Core

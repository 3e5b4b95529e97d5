/-
# The server lists

`core/objects.c` and `core/liblwm2m.c`: how the lists of bootstrap servers and
servers are made from the Security and Server objects (`object_getServers`), how
the bootstrap commands mark entries as dirty (`core/bootstrap.c`), and how
`prv_refreshServerList` frees the marked entries.

The two objects are read through callbacks; what these reads yield for one
Security instance is a `SecurityRead`.  Freeing a server only takes it off its
list: a pointer to it is then no longer the allocation number of an element.
-/

import Lwm2m.Core.Context

namespace Lwm2m.Core

/-- What `object_getServers` reads for an instance of the Security object. -/
inductive SecurityRead
  /-- A resource cannot be read, is of the wrong type or out of range. -/
  | failed
  /-- The instance describes a bootstrap server. -/
  | bootstrap
  /-- The instance describes a server that has an instance of the Server object. -/
  | server (shortID : UInt16)
  /-- The instance describes a server without an instance of the Server object. -/
  | unmatched
  deriving DecidableEq, Repr

/-- The instances of the Security object in the order of its list. -/
abbrev SecurityInstances := List (UInt16 × SecurityRead)

/-- The loop of `object_getServers` over the instances of the Security object. -/
def getServersLoop (checkOnly : Bool) (contextP : Context) : SecurityInstances → Context × ℤ
  | [] => (contextP, 0)
  | (instanceId, read) :: next =>
    if (listFind Server.secObjInstID contextP.bootstrapServerList instanceId).isNone ∧
        (listFind Server.secObjInstID contextP.serverList instanceId).isNone then
      let contextP' := { contextP with allocated := contextP.allocated + 1 }
      match read with
      | .failed => (contextP, -1)
      | .bootstrap =>
        let targetP : Server := { ref := contextP.allocated, secObjInstID := instanceId, shortID := 0 }
        if checkOnly then getServersLoop checkOnly contextP' next
        else getServersLoop checkOnly { contextP' with
          bootstrapServerList :=
            listAdd Server.secObjInstID targetP contextP.bootstrapServerList } next
      | .server shortID =>
        let targetP : Server := { ref := contextP.allocated, secObjInstID := instanceId, shortID }
        if checkOnly then getServersLoop checkOnly contextP' next
        else getServersLoop checkOnly { contextP' with
          serverList := listAdd Server.secObjInstID targetP contextP.serverList } next
      | .unmatched => getServersLoop checkOnly contextP' next
    else getServersLoop checkOnly contextP next

/-- What the allocation of a server and its addition to either list preserve holds after
the loop. -/
theorem getServersLoop_invariant {I : Context → Prop}
    (allocate : ∀ c, I c → I { c with allocated := c.allocated + 1 })
    (bootstrap : ∀ c instanceId, I c → I { c with
      allocated := c.allocated + 1
      bootstrapServerList := listAdd Server.secObjInstID
        { ref := c.allocated, secObjInstID := instanceId, shortID := 0 } c.bootstrapServerList })
    (server : ∀ c instanceId shortID, I c → I { c with
      allocated := c.allocated + 1
      serverList := listAdd Server.secObjInstID
        { ref := c.allocated, secObjInstID := instanceId, shortID } c.serverList })
    (checkOnly : Bool) {contextP : Context} (instances : SecurityInstances) (h : I contextP) :
    I (getServersLoop checkOnly contextP instances).1 := by
  induction instances generalizing contextP with
  | nil => exact h
  | cons instance' next ih =>
    obtain ⟨instanceId, read⟩ := instance'
    unfold getServersLoop
    by_cases hnew : (listFind Server.secObjInstID contextP.bootstrapServerList instanceId).isNone ∧
        (listFind Server.secObjInstID contextP.serverList instanceId).isNone
    · rw [if_pos hnew]
      cases read with
      | failed => exact h
      | unmatched => exact ih (allocate _ h)
      | bootstrap =>
        cases checkOnly with
        | true => exact ih (allocate _ h)
        | false => exact ih (bootstrap _ instanceId h)
      | server shortID =>
        cases checkOnly with
        | true => exact ih (allocate _ h)
        | false => exact ih (server _ instanceId shortID h)
    · rw [if_neg hnew]
      exact ih h

/-- `object_getServers`; `none` stands for a client without the Security object. -/
def objectGetServers (contextP : Context) (security : Option SecurityInstances)
    (checkOnly : Bool) : Context × ℤ :=
  match security with
  | none => (contextP, -1)
  | some instances => getServersLoop checkOnly contextP instances

/-! ### Marking servers -/

/-- Marks the server of a Security instance. -/
def tagInstance (list : List Server) (id : UInt16) : List Server :=
  match listFind Server.secObjInstID list id with
  | none => list
  | some targetP => list.map fun server =>
      if server.ref = targetP.ref then { server with dirty := true } else server

/-- `prv_tagServer`. -/
def prvTagServer (contextP : Context) (id : UInt16) : Context :=
  if (listFind Server.secObjInstID contextP.bootstrapServerList id).isSome then
    { contextP with bootstrapServerList := tagInstance contextP.bootstrapServerList id }
  else { contextP with serverList := tagInstance contextP.serverList id }

/-- `prv_tagAllServer`; `serverP` is the bootstrap server to be spared. -/
def prvTagAllServer (contextP : Context) (serverP : Option ServerRef) : Context :=
  { contextP with
    bootstrapServerList := contextP.bootstrapServerList.map fun targetP =>
      if serverP = some targetP.ref then targetP else { targetP with dirty := true }
    serverList := contextP.serverList.map fun targetP => { targetP with dirty := true } }

/-! ### Refreshing the lists -/

/-- The loops of `prv_refreshServerList`: the servers that are not marked, each after
`reset`, are added to a new list; the others are freed. -/
def keepClean (reset : Server → Server) (list : List Server) : List Server :=
  (list.filter fun targetP => !targetP.dirty).foldl
    (fun acc targetP => listAdd Server.secObjInstID (reset targetP) acc) []

/-- The order apart, the servers that are not marked are kept. -/
theorem keepClean_perm (reset : Server → Server) (list : List Server) :
    (keepClean reset list).Perm ((list.filter fun targetP => !targetP.dirty).map reset) := by
  have hadd (l acc : List Server) : (l.foldl (fun acc targetP =>
      listAdd Server.secObjInstID (reset targetP) acc) acc).Perm (l.map reset ++ acc) := by
    induction l generalizing acc with
    | nil => exact .refl _
    | cons targetP rest ih =>
      have hrest := ih (listAdd Server.secObjInstID (reset targetP) acc)
      refine hrest.trans ?_
      exact ((listAdd_perm _ acc).append_left _).trans List.perm_middle
  simpa [keepClean] using hadd _ []

/-- `prv_refreshServerList`. -/
def prvRefreshServerList (contextP : Context) (security : Option SecurityInstances) :
    Context × ℤ :=
  objectGetServers { contextP with
    bootstrapServerList :=
      keepClean (fun targetP => { targetP with status := .deregistered })
        contextP.bootstrapServerList
    serverList := keepClean (fun targetP => targetP) contextP.serverList } security false

end Lwm2m.Core

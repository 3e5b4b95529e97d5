/-
# Bootstrap rollback

`prv_backup_objects` and `prv_restore_objects` of `lwm2mclient.c`, with the writes, creates and
deletes of a bootstrap between them.  The client owns the cells of its two instance lists, and
the backup owns those that it copied; the operations in between touch the client's cells only
(`run_owns`), so what is restored is a copy of a copy of what was backed up.

The copy is exact unless an instance of the Security Object keeps a pointer that the copy
shares with it, has a key that is not a C string, or has no URI: the content survives every
sequence of operations if and only if each instance is `Restorable` (`rollsBack_iff`).
-/

import Lwm2m.Core.BackupObjects

namespace Lwm2m.Core

open Code Library Library.Memory

/-- The instance lists of objects 0 and 1. -/
structure Objects where
  security : List (ListNode SecurityInstance)
  server : List (ListNode ServerInstance)

/-- The heap, the two objects of the context, and those of `backupObjectArray` once there
are some. -/
structure BackupState where
  memory : Heap
  objects : Objects
  backup : Option Objects

section

variable (d : Decoders)

/-- What `prv_backup_objects` does with an old backup. -/
def cleanBackup (m : Heap) : Option Objects → Except Fault Heap
  | none => .ok m
  | some backup => do
    let m ← (securityObject d).clean m backup.security
    (serverObject d).clean m backup.server

/-- `prv_backup_objects`. -/
def prvBackupObjects (s : BackupState) : Except Fault BackupState := do
  let m ← cleanBackup d s.memory s.backup
  let (m, security) ← (securityObject d).copy m s.objects.security
  let (m, server) ← (serverObject d).copy m s.objects.server
  pure { memory := m, objects := s.objects, backup := some { security, server } }

/-- `prv_restore_objects`. -/
def prvRestoreObjects (s : BackupState) : Except Fault BackupState :=
  match s.backup with
  | none => .error .nullDereference
  | some backup => do
    let m ← (securityObject d).clean s.memory s.objects.security
    let (m, security) ← (securityObject d).copy m backup.security
    let m ← (serverObject d).clean m s.objects.server
    let (m, server) ← (serverObject d).copy m backup.server
    pure { memory := m, objects := { security, server }, backup := some backup }

/-- The objects that a bootstrap can write to. -/
inductive BackupObject
  | security
  | server
  deriving DecidableEq, Repr

/-- A bootstrap operation. -/
structure Operation where
  object : BackupObject
  action : Action

/-- The state after an operation. -/
def BackupState.apply (s : BackupState) (op : Operation) : Except Fault BackupState :=
  match op.object with
  | .security => do
    let (m, security, _) ← (securityObject d).perform s.memory s.objects.security op.action
    pure { s with memory := m, objects := { s.objects with security } }
  | .server => do
    let (m, server, _) ← (serverObject d).perform s.memory s.objects.server op.action
    pure { s with memory := m, objects := { s.objects with server } }

/-- The state after a sequence of operations. -/
def BackupState.run (s : BackupState) : List Operation → Except Fault BackupState
  | [] => .ok s
  | op :: ops => do
    let s ← s.apply d op
    run s ops

end

/-! ### What the rollback should do -/

/-- The cells of the objects. -/
def Objects.cells (o : Objects) : List ℕ :=
  cellsOf SecurityInstance.pointers o.security ++ cellsOf ServerInstance.pointers o.server

/-- Those that the objects have of their own when they are a copy. -/
def Objects.copied (o : Objects) : List ℕ :=
  cellsOf SecurityInstance.copied o.security ++ cellsOf ServerInstance.pointers o.server

/-- Every resource of every instance reads as before. -/
def SameReads (s s' : BackupState) : Prop :=
  (∀ instanceId ids, securityRead s'.memory s'.objects.security instanceId ids =
      securityRead s.memory s.objects.security instanceId ids) ∧
    ∀ instanceId ids, serverRead s'.objects.server instanceId ids =
      serverRead s.objects.server instanceId ids

/-- The objects and their backup have no cell in common. -/
def NoSharing (s : BackupState) : Prop :=
  ∀ backup, s.backup = some backup → List.Disjoint s.objects.cells backup.cells

/-- A backup, the operations, and a restore bring the content back: the operations do not touch
freed memory, and after them the restored lists are linked, read as before
and share nothing with the backup. -/
def RollsBack (d : Decoders) (s : BackupState) (ops : List Operation) : Prop :=
  ∃ s₁, prvBackupObjects d s = .ok s₁ ∧ NoSharing s₁ ∧ s₁.run d ops ≠ .error .useAfterFree ∧
    ∀ s₂, s₁.run d ops = .ok s₂ → ∃ s₃, prvRestoreObjects d s₂ = .ok s₃ ∧
      SameReads s s₃ ∧ Linked s₃.objects.security ∧ Linked s₃.objects.server ∧ NoSharing s₃

/-- The cells that the backup frees when the next one is made. -/
def BackupState.oldCells (s : BackupState) : List ℕ :=
  match s.backup with
  | none => []
  | some backup => backup.copied

/-- The lists of the client are in order, their cells and those of an old backup are
allocated, each for one purpose, and every resource can be read. -/
structure Consistent (s : BackupState) : Prop where
  linkedSecurity : Linked s.objects.security
  linkedServer : Linked s.objects.server
  sorted : s.objects.security.Pairwise (·.id < ·.id)
  nodup : (s.objects.cells ++ s.oldCells).Nodup
  allocated : ∀ a ∈ s.objects.cells ++ s.oldCells, (s.memory.cells a).isSome
  readableSecurity : ∀ n ∈ s.objects.security, ∀ id,
    ∃ r, SecurityInstance.getValue s.memory n.fields id = .ok r
  readableServer : ∀ n ∈ s.objects.server, ∀ id, ∃ r, ServerInstance.getValue n.fields id = .ok r

/-! ### The operations of a bootstrap -/

variable {o o' : Objects} {n : ListNode SecurityInstance}

section

variable {d : Decoders} {m₀ : Heap} {kept owned : List ℕ} {s s' : BackupState} {m m' : Heap}

/-- One operation changes cells of the client only. -/
theorem apply_owns (op : Operation) (h : Owns m₀ kept s.memory s.objects.cells) :
    Ensures (s.apply d op)
      (fun s' => Owns m₀ kept s'.memory s'.objects.cells ∧ s'.backup = s.backup)
      (· ≠ .useAfterFree) := by
  unfold BackupState.apply
  split
  · exact ((securityOwnership d).perform op.action h).bind fun r hr =>
      Ensures.pure_iff.mpr ⟨hr, rfl⟩
  · refine ((serverOwnership d).perform op.action (h.perm List.perm_append_comm)).bind
      fun r hr => Ensures.pure_iff.mpr ⟨hr.perm List.perm_append_comm, rfl⟩

/-- So does a sequence of operations. -/
theorem run_owns (ops : List Operation) (h : Owns m₀ kept s.memory s.objects.cells) :
    Ensures (s.run d ops)
      (fun s' => Owns m₀ kept s'.memory s'.objects.cells ∧ s'.backup = s.backup)
      (· ≠ .useAfterFree) := by
  induction ops generalizing s with
  | nil => exact Ensures.ok_iff.mpr ⟨h, rfl⟩
  | cons op ops ih =>
    refine (apply_owns op h).bind fun s₁ hs₁ => (ih hs₁.1).mono (fun s₂ hs₂ => ?_) fun _ => id
    exact ⟨hs₂.1, hs₂.2.trans hs₁.2⟩

/-! ### Backup and restore -/

/-- The objects are a copy of other ones. -/
structure CopiedObjects (d : Decoders) (m₀ : Heap) (o : Objects) (m : Heap) (o' : Objects) :
    Prop where
  security : (securityOwnership d).CopiedList m₀ o.security m o'.security
  server : (serverOwnership d).CopiedList m₀ o.server m o'.server

theorem CopiedObjects.trans {o'' : Objects} (h : CopiedObjects d m₀ o m o')
    (h' : CopiedObjects d m o' m' o'') : CopiedObjects d m₀ o m' o'' :=
  ⟨h.security.trans _ h'.security, h.server.trans _ h'.server⟩

/-- A copy can be copied. -/
theorem CopiedObjects.copyable (h : CopiedObjects d m₀ o m o') :
    (∀ n ∈ o'.security, n.fields.Copyable m) ∧ ∀ n ∈ o'.server, 0 ∈ n.fields.binding := by
  refine ⟨fun n' hn' => ?_, fun n' hn' => ?_⟩
  · obtain ⟨n, -, hof⟩ := h.security.exists_of_mem _ hn'
    exact SecurityInstance.CopyOf.copyable hof
  · obtain ⟨n, -, hmem, heq⟩ := h.server.exists_of_mem _ hn'
    exact heq ▸ hmem

/-- Freeing an old backup. -/
theorem cleanBackup_owns (h : Owns m₀ kept s.memory s.oldCells) :
    ∃ m, cleanBackup d s.memory s.backup = .ok m ∧ Owns m₀ kept m [] := by
  unfold BackupState.oldCells at h
  cases hb : s.backup with
  | none =>
    rw [hb] at h
    exact ⟨s.memory, rfl, h⟩
  | some backup =>
    rw [hb] at h
    obtain ⟨m₁, h₁, ho₁⟩ := (securityOwnership d).clean h
    rw [← List.append_nil (cellsOf _ _)] at ho₁
    obtain ⟨m₂, h₂, ho₂⟩ := (serverOwnership d).clean ho₁
    exact ⟨m₂, by rw [cleanBackup, h₁, ok_bind, h₂], ho₂⟩

/-- What is left as it is to copy the objects. -/
theorem copied_subset_cells (hn : n ∈ o.security) : n.fields.copied ⊆ o.cells :=
  fun _ ha => List.mem_append_left _
    (pointers_subset_cellsOf hn ((SecurityInstance.copied_sublist n.fields).subset ha))

theorem copied_subset_copied (hn : n ∈ o.security) : n.fields.copied ⊆ o.copied :=
  fun _ ha => List.mem_append_left _ (pointers_subset_cellsOf hn ha)

/-- Before a backup. -/
theorem Consistent.owns (h : Consistent s) :
    Owns s.memory s.objects.cells s.memory s.oldCells := by
  have hold : Owns s.memory [] s.memory (s.objects.cells ++ s.oldCells) :=
    ⟨h.nodup, h.allocated, fun _ _ => List.not_mem_nil, fun _ ha => absurd ha List.not_mem_nil,
      fun _ _ => rfl⟩
  exact hold.frame

variable {backup : Objects}

/-- After a backup. -/
theorem Consistent.owns_objects {s₁ : BackupState} (h : Consistent s)
    (hobjects : s₁.objects = s.objects)
    (hown : Owns s.memory s.objects.cells s₁.memory backup.copied) :
    Owns s₁.memory backup.copied s₁.memory s₁.objects.cells := by
  rw [hobjects]
  exact hown.swap (List.nodup_append.mp h.nodup).1 fun a ha =>
    h.allocated a (List.mem_append_left _ ha)

/-- What a backup is. -/
theorem prvBackupObjects_owns {s₁ : BackupState} (h : Consistent s)
    (hok : prvBackupObjects d s = .ok s₁) :
    s₁.objects = s.objects ∧ ∃ backup, s₁.backup = some backup ∧
      Owns s.memory s.objects.cells s₁.memory backup.copied ∧
      CopiedObjects d s.memory s.objects s₁.memory backup := by
  obtain ⟨m, hclean, h₀⟩ := cleanBackup_owns (d := d) h.owns
  rw [prvBackupObjects, hclean, ok_bind] at hok
  obtain ⟨⟨m₁, security⟩, hsecurity, hok⟩ := bind_eq_ok_iff.mp hok
  obtain ⟨⟨m₂, server⟩, hserver, hok⟩ := bind_eq_ok_iff.mp hok
  cases hok
  obtain ⟨-, h₁, hc₁⟩ := (securityOwnership d).copy h₀ (fun n hn => copied_subset_cells hn)
    hsecurity
  obtain ⟨-, h₂, hc₂⟩ := (serverOwnership d).copy h₁.frame (fun _ _ => List.nil_subset _) hserver
  rw [List.append_nil] at h₂
  exact ⟨rfl, _, rfl, h₁.unframe h₂,
    hc₁.congr _ fun a ha => h₂.cells a (List.mem_append_right _ ha), ⟨hc₂.nodes, hc₂.linked⟩⟩

/-- A backup succeeds when every instance can be copied. -/
theorem exists_prvBackupObjects (h : Consistent s)
    (hsecurity : ∀ n ∈ s.objects.security, n.fields.Copyable s.memory) :
    ∃ s₁, prvBackupObjects d s = .ok s₁ := by
  obtain ⟨m, hclean, h₀⟩ := cleanBackup_owns (d := d) h.owns
  obtain ⟨⟨m₁, security⟩, h₁⟩ := (securityOwnership d).exists_copy h₀
    (fun n hn => copied_subset_cells hn) fun n hn m hm =>
      ((hsecurity n hn).congr fun a ha => hm a (copied_subset_cells hn ha)).exists_copyFields
  obtain ⟨-, ho₁, -⟩ := (securityOwnership d).copy h₀ (fun n hn => copied_subset_cells hn) h₁
  obtain ⟨⟨m₂, server⟩, h₂⟩ := (serverOwnership d).exists_copy ho₁
    (fun _ _ => List.nil_subset _) fun n hn m _ =>
      ServerInstance.exists_copyFields m (ServerInstance.zero_mem_binding (h.readableServer n hn))
  rw [prvBackupObjects, hclean, ok_bind]
  exact ⟨_, bind_eq_ok_iff.mpr ⟨_, h₁, bind_eq_ok_iff.mpr ⟨_, h₂, rfl⟩⟩⟩

/-- The lists of the client before they are freed. -/
theorem owns_clean {kept : List ℕ} (h : Owns m₀ kept m o.cells) :
    Owns m₀ kept m
      (cellsOf SecurityInstance.copied o.security ++ cellsOf ServerInstance.pointers o.server) :=
  h.subperm ((cellsOf_sublist SecurityInstance.copied_sublist).append (.refl _)).subperm

/-- What a restore leaves. -/
theorem prvRestoreObjects_owns {s₃ : BackupState}
    (h : Owns m₀ backup.copied s.memory s.objects.cells) (hb : s.backup = some backup)
    (hok : prvRestoreObjects d s = .ok s₃) :
    s₃.backup = some backup ∧ Owns m₀ backup.copied s₃.memory s₃.objects.copied ∧
      CopiedObjects d m₀ backup s₃.memory s₃.objects := by
  obtain ⟨m₁, hclean, h₁⟩ := (securityOwnership d).clean (owns_clean h)
  simp only [prvRestoreObjects, hb, hclean, ok_bind] at hok
  obtain ⟨⟨m₂, security⟩, hsecurity, hok⟩ := bind_eq_ok_iff.mp hok
  obtain ⟨-, h₂, hc₂⟩ := (securityOwnership d).copy h₁ (fun n hn => copied_subset_copied hn)
    hsecurity
  have hserver := h₂.frame
  rw [← List.append_nil (cellsOf _ s.objects.server)] at hserver
  obtain ⟨m₃, hclean, h₃⟩ := (serverOwnership d).clean hserver
  simp only [hclean, ok_bind] at hok
  obtain ⟨⟨m₄, server⟩, hserver, hok⟩ := bind_eq_ok_iff.mp hok
  cases hok
  obtain ⟨-, h₄, hc₄⟩ := (serverOwnership d).copy h₃ (fun _ _ => List.nil_subset _) hserver
  rw [List.append_nil] at h₄
  exact ⟨rfl, h₂.unframe h₄,
    hc₂.congr _ fun a ha => h₄.cells a (List.mem_append_right _ ha), ⟨hc₄.nodes, hc₄.linked⟩⟩

/-- A restore succeeds when every instance of the backup can be copied. -/
theorem exists_prvRestoreObjects (h : Owns m₀ backup.copied s.memory s.objects.cells)
    (hb : s.backup = some backup) (hsecurity : ∀ n ∈ backup.security, n.fields.Copyable m₀)
    (hserver : ∀ n ∈ backup.server, 0 ∈ n.fields.binding) :
    ∃ s₃, prvRestoreObjects d s = .ok s₃ := by
  obtain ⟨m₁, hclean, h₁⟩ := (securityOwnership d).clean (owns_clean h)
  obtain ⟨⟨m₂, security⟩, hcopy⟩ := (securityOwnership d).exists_copy h₁
    (fun n hn => copied_subset_copied hn) fun n hn m hm =>
      ((hsecurity n hn).congr fun a ha => hm a (copied_subset_copied hn ha)).exists_copyFields
  obtain ⟨-, h₂, -⟩ := (securityOwnership d).copy h₁ (fun n hn => copied_subset_copied hn) hcopy
  have hown := h₂.frame
  rw [← List.append_nil (cellsOf _ s.objects.server)] at hown
  obtain ⟨m₃, hclean', h₃⟩ := (serverOwnership d).clean hown
  obtain ⟨⟨m₄, server⟩, hcopy'⟩ := (serverOwnership d).exists_copy h₃
    (fun _ _ => List.nil_subset _) fun n hn m _ =>
      ServerInstance.exists_copyFields m (hserver n hn)
  simp only [prvRestoreObjects, hb, hclean, ok_bind]
  exact ⟨_, bind_eq_ok_iff.mpr ⟨_, hcopy, bind_eq_ok_iff.mpr ⟨_, hclean',
    bind_eq_ok_iff.mpr ⟨_, hcopy', rfl⟩⟩⟩⟩

end

/-! ### The condition -/

section

variable {d : Decoders} {s : BackupState}

/-- Objects that share nothing have cells of their own only. -/
theorem Objects.cells_subset_copied (h : ∀ n ∈ o.security, n.fields.shared = []) :
    o.cells ⊆ o.copied := by
  intro a ha
  obtain ha | ha := List.mem_append.mp ha
  · obtain ⟨n, hn, ha⟩ := List.mem_flatMap.mp ha
    refine List.mem_append_left _ (List.mem_flatMap.mpr ⟨n, hn, ?_⟩)
    obtain rfl | ha := List.mem_cons.mp ha
    · exact List.mem_cons_self
    · have hmem := (SecurityInstance.pointers_perm n.fields).mem_iff.mp ha
      rw [h n hn, List.append_nil] at hmem
      exact List.mem_cons_of_mem _ hmem
  · exact List.mem_append_right _ ha

/-- Nothing is shared with a copy of objects that share nothing. -/
theorem CopiedObjects.shared_eq_nil {m₀ m : Heap} (h : CopiedObjects d m₀ o m o')
    (ho : ∀ n ∈ o.security, n.fields.shared = []) : ∀ n ∈ o'.security, n.fields.shared = [] := by
  intro n' hn'
  obtain ⟨n, hn, hof⟩ := h.security.exists_of_mem _ hn'
  rw [SecurityInstance.CopyOf.shared_eq hof, ho n hn]

/-- An instance and its copy share nothing when their objects have no cell in common. -/
theorem CopiedObjects.shared_eq_nil_of_disjoint {m₀ m : Heap} (h : CopiedObjects d m₀ o m o')
    (hdisjoint : List.Disjoint o.cells o'.cells) (hn : n ∈ o.security) : n.fields.shared = [] := by
  obtain ⟨n', hn', hof⟩ := h.security.exists_copy _ hn
  have hmem {o : Objects} {n : ListNode SecurityInstance} (hn : n ∈ o.security) {a : ℕ}
      (ha : a ∈ n.fields.shared) : a ∈ o.cells :=
    List.mem_append_left _ (pointers_subset_cellsOf hn
      ((SecurityInstance.pointers_perm n.fields).mem_iff.mpr (List.mem_append_right _ ha)))
  rw [List.eq_nil_iff_forall_not_mem]
  intro a ha
  have hcopy : a ∈ n'.fields.shared := by rwa [SecurityInstance.CopyOf.shared_eq hof]
  exact hdisjoint (hmem hn ha) (hmem hn' hcopy)

/-- **Which content survives a failed bootstrap.**  A backup, any sequence of writes, creates and
deletes on objects 0 and 1 and a restore bring every resource back, in well-formed lists that
share nothing with the backup, if and only if each instance of the Security Object has a URI,
shares no buffer with its copy (no server key, no SMS keys, and no key in another mode than
pre-shared key mode), and its copied keys are C strings that are read up to their NUL at most. -/
theorem rollsBack_iff (h : Consistent s) :
    (∀ ops, RollsBack d s ops) ↔
      ∀ n ∈ s.objects.security, n.fields.Restorable s.memory := by
  constructor
  · intro hall n hn
    obtain ⟨s₁, hbackup, hsharing, -, hrun⟩ := hall []
    obtain ⟨s₃, hrestore, ⟨hreads, -⟩, -⟩ := hrun s₁ rfl
    obtain ⟨hobjects, backup, hb, hown, hcopied⟩ := prvBackupObjects_owns h hbackup
    have hn₁ : n ∈ s₁.objects.security := hobjects ▸ hn
    have hown₁ := h.owns_objects hobjects hown
    obtain ⟨-, -, hcopied'⟩ := prvRestoreObjects_owns hown₁ hb hrestore
    have hshared : n.fields.shared = [] :=
      hcopied.shared_eq_nil_of_disjoint (hobjects ▸ hsharing backup hb) hn
    obtain ⟨n', hof, hread⟩ := getValue_of_readInstance h.sorted
      (hcopied.trans hcopied').security.nodes (fun _ _ hR => hR.1) hreads hn
    refine ⟨hof.2.ne_none, hshared, ?_⟩
    exact (SecurityInstance.CopyOf.getValue_iff hof.2 hshared (h.readableSecurity n hn)).mp
      (congrFun hread)
  · intro hrestorable ops
    have hshared : ∀ n ∈ s.objects.security, n.fields.shared = [] :=
      fun n hn => (hrestorable n hn).shared
    obtain ⟨s₁, hbackup⟩ := exists_prvBackupObjects (d := d) h fun n hn =>
      (hrestorable n hn).copyable (h.readableSecurity n hn)
    obtain ⟨hobjects, backup, hb, hown, hcopied⟩ := prvBackupObjects_owns h hbackup
    have hshared₁ := hcopied.shared_eq_nil hshared
    have hown₁ := h.owns_objects hobjects hown
    have hrun := run_owns (d := d) ops hown₁
    refine ⟨s₁, hbackup, ?_, fun herror => hrun.2 _ herror rfl, fun s₂ hs₂ => ?_⟩
    · intro backup' hb' a ha ha'
      cases hb.symm.trans hb'
      exact hown.disjoint a (Objects.cells_subset_copied hshared₁ ha') (hobjects ▸ ha)
    · obtain ⟨hown₂, hb₂⟩ := hrun.1 s₂ hs₂
      rw [hb] at hb₂
      obtain ⟨s₃, hrestore⟩ := exists_prvRestoreObjects (d := d) hown₂ hb₂ hcopied.copyable.1
        hcopied.copyable.2
      obtain ⟨hb₃, hown₃, hcopied₃⟩ := prvRestoreObjects_owns hown₂ hb₂ hrestore
      have hall := hcopied.trans hcopied₃
      have hnodes := (List.forall₂_and_left s.objects.security s₃.objects.security).mpr
        ⟨fun n hn => hn, hall.security.nodes⟩
      refine ⟨s₃, hrestore, ⟨?_, ?_⟩, hall.security.linked h.linkedSecurity,
        hall.server.linked h.linkedServer, ?_⟩
      · refine readInstance_congr (hnodes.imp fun n n' hn => ⟨hn.2.1, funext ?_⟩)
        exact (SecurityInstance.CopyOf.getValue_iff hn.2.2 (hrestorable n hn.1).shared
          (h.readableSecurity n hn.1)).mpr (hrestorable n hn.1).keys
      · refine readInstance_congr (hall.server.nodes.imp fun n n' hn => ⟨hn.1, ?_⟩)
        rw [hn.2.2]
      · intro backup' hb' a ha ha'
        cases hb₃.symm.trans hb'
        exact hown₃.disjoint a
          (Objects.cells_subset_copied (hcopied₃.shared_eq_nil hshared₁) ha)
          (Objects.cells_subset_copied hshared₁ ha')

end

/-! ### The content that the client starts with -/

/-- A buffer with these bytes, if there are some. -/
def allocBytes (m : Heap) : Option (List Byte) → Heap × Option ℕ
  | none => (m, none)
  | some bytes =>
    let (m, p) := m.alloc (.buffer bytes)
    (m, some p)

/-- `get_security_object`: its heap and its instance list. -/
def getSecurityObject (m : Heap) (serverId : UInt16) (serverUri : CString)
    (bsPskId : Option CString) (psk : Option (List Byte)) (isBootstrap : Bool) :
    Heap × List (ListNode SecurityInstance) :=
  let (m, address) := m.alloc .node
  let (m, uri) := allocBytes m (some (serverUri ++ [0]))
  let (m, publicIdentity) := allocBytes m (bsPskId.map (· ++ [0]))
  let (m, secretKey) := allocBytes m (psk.filter (· ≠ []))
  let fields : SecurityInstance :=
    { SecurityInstance.zero with
      uri := uri
      securityMode :=
        if bsPskId.isSome ∨ psk.isSome then securityModePreSharedKey else securityModeNone
      publicIdentity := publicIdentity
      publicIdLen := UInt16.ofNat (bsPskId.getD []).length
      secretKey := secretKey
      secretKeyLen := UInt16.ofNat (psk.getD []).length
      isBootstrap := isBootstrap
      shortID := serverId
      clientHoldOffTime := 10 }
  (m, [{ address, next := none, id := 0, fields }])

/-- `get_server_object`, for a binding that fits its array. -/
def getServerObject (m : Heap) (serverId : UInt16) (binding : CString) (lifetime : UInt32)
    (storing : Bool) : Heap × List (ListNode ServerInstance) :=
  let (m, address) := m.alloc .node
  let fields : ServerInstance :=
    { ServerInstance.zero with
      shortServerId := serverId
      lifetime := lifetime
      storing := storing
      binding := binding ++ List.replicate (4 - binding.length) 0 }
  (m, [{ address, next := none, id := 0, fields }])

/-- The two objects as `main` makes them. -/
def clientState (serverId : UInt16) (serverUri : CString) (bsPskId : Option CString)
    (psk : Option (List Byte)) (isBootstrap : Bool) (lifetime : UInt32) : BackupState :=
  let (m, security) := getSecurityObject .empty serverId serverUri bsPskId psk isBootstrap
  -- The binding is U.
  let (m, server) := getServerObject m serverId [0x55] lifetime false
  { memory := m, objects := { security, server }, backup := none }

/-- A client without credentials. -/
def noSecClient : BackupState := clientState 1 [0x63, 0x6F] none none false 300

/-- A client with a pre-shared key that has a NUL byte. -/
def pskClient : BackupState := clientState 1 [0x63, 0x6F] (some [0x69]) (some [1, 0, 2]) false 300

/-- What a client starts with is in order. -/
theorem clients_consistent : Consistent noSecClient ∧ Consistent pskClient := by
  constructor
  all_goals
    refine ⟨⟨rfl, trivial⟩, ⟨rfl, trivial⟩, by decide, by decide, by decide, fun n hn id => ?_,
      fun n hn id => ?_⟩
    · cases List.mem_singleton.mp hn
      unfold SecurityInstance.getValue
      split
      all_goals exact ⟨_, rfl⟩
    · cases List.mem_singleton.mp hn
      unfold ServerInstance.getValue
      split
      all_goals exact ⟨_, rfl⟩

/-- A client without credentials survives a failed bootstrap. -/
theorem rollsBack_noSecClient : Consistent noSecClient ∧
    ∀ ops, RollsBack ⟨fun _ => none, fun _ => none⟩ noSecClient ops := by
  refine ⟨clients_consistent.1, (rollsBack_iff clients_consistent.1).mpr fun n hn => ?_⟩
  cases List.mem_singleton.mp hn
  exact ⟨Option.some_ne_none _, rfl, fun h => absurd h (by decide)⟩

/-- **A binary key is lost.**  The backup keeps the bytes up to the first NUL; after the restore
the key is read beyond them. -/
theorem pskClient_not_rollsBack :
    Consistent pskClient ∧ ¬ RollsBack ⟨fun _ => none, fun _ => none⟩ pskClient [] := by
  refine ⟨clients_consistent.2, ?_⟩
  rintro ⟨s₁, hbackup, -, -, hrun⟩
  obtain ⟨s₃, hrestore, ⟨hreads, -⟩, -⟩ := hrun s₁ rfl
  have hread : (do
      let s₁ ← prvBackupObjects ⟨fun _ => none, fun _ => none⟩ pskClient
      let s₃ ← prvRestoreObjects ⟨fun _ => none, fun _ => none⟩ s₁
      securityRead s₃.memory s₃.objects.security 0 [5]) = .error .outOfBoundsRead := rfl
  rw [hbackup, ok_bind, hrestore, ok_bind, hreads] at hread
  cases hread

end Lwm2m.Core

/-
# The Security and the Server Object of the client

`object_security.c` and `object_server.c`: what the two objects read, write, free and copy.  The
fields of an instance of the Security Object that are buffers are pointers into a heap; an instance
of the Server Object has none.  `copy_security_object` copies the node, then
gives the copy its own URI and, in pre-shared key mode, its own identity and secret key; it keeps
the other pointers.

`lwm2m_data_decode_int` and `lwm2m_data_decode_bool` are parameters (`Decoders`): whatever they
return, the operations do the same to the memory.
-/

import Lwm2m.Core.InstanceMemory

namespace Lwm2m.Core

open Code Library Library.Memory

/-- `lwm2m_data_decode_int` and `lwm2m_data_decode_bool`: the decoded value, or `none` when they
do not return 1. -/
structure Decoders where
  decodeInt : Data → Option ℤ
  decodeBool : Data → Option Bool

/-- The bytes of the value. -/
def Data.value : Data → List Byte
  | mk _ _ value _ => value

/-- The member `value.asBuffer`. -/
def Data.asBuffer (item : Data) : Except Fault (List Byte) :=
  if item.type = .string ∨ item.type = .opaqueBytes ∨ item.type = .coreLink then .ok item.value
  else .error .wrongUnionMember

/-- A value that a read returns. -/
inductive ResourceValue
  | string (value : CString)
  | bytes (value : List Byte)
  | integer (value : ℤ)
  | boolean (value : Bool)
  deriving DecidableEq, Repr

/-- `strncpy` of a whole buffer, with its length. -/
def strncpy (dest src : List Byte) : List Byte :=
  let s := src.takeWhile (· ≠ 0)
  s ++ List.replicate (src.length - s.length) 0 ++ dest.drop src.length

/-- The check of an integer that is written. -/
def setInt {α : Type} (value : Option ℤ) (max : ℕ) (targetP : α) (set : ℕ → α) : α × Code :=
  match value with
  | none => (targetP, coap400BadRequest)
  | some value =>
    if 0 ≤ value ∧ value ≤ max then (set value.toNat, coap204Changed)
    else (targetP, coap406NotAcceptable)

/-! ### The Security Object -/

/-- `security_instance_t`, from `uri` on. -/
structure SecurityInstance where
  uri : Option ℕ
  isBootstrap : Bool
  securityMode : UInt8
  publicIdentity : Option ℕ
  publicIdLen : UInt16
  serverPublicKey : Option ℕ
  serverPublicKeyLen : UInt16
  secretKey : Option ℕ
  secretKeyLen : UInt16
  smsSecurityMode : UInt8
  smsParams : Option ℕ
  smsParamsLen : UInt16
  smsSecret : Option ℕ
  smsSecretLen : UInt16
  shortID : UInt16
  clientHoldOffTime : UInt32
  bootstrapServerAccountTimeout : UInt32
  deriving DecidableEq, Repr

/-- `LWM2M_SECURITY_MODE_PRE_SHARED_KEY`. -/
def securityModePreSharedKey : UInt8 := 0

/-- `LWM2M_SECURITY_MODE_NONE`. -/
def securityModeNone : UInt8 := 3

namespace SecurityInstance

/-- An instance after `memset`. -/
def zero : SecurityInstance where
  uri := none
  isBootstrap := false
  securityMode := 0
  publicIdentity := none
  publicIdLen := 0
  serverPublicKey := none
  serverPublicKeyLen := 0
  secretKey := none
  secretKeyLen := 0
  smsSecurityMode := 0
  smsParams := none
  smsParamsLen := 0
  smsSecret := none
  smsSecretLen := 0
  shortID := 0
  clientHoldOffTime := 0
  bootstrapServerAccountTimeout := 0

/-- `lwm2m_data_encode_string`. -/
def encodeString (m : Heap) : Option ℕ → Except Fault ResourceValue
  | none => .ok (.string [])
  | some string => do pure (.string (← stringAt m string))

/-- `lwm2m_data_encode_opaque`. -/
def encodeOpaque (m : Heap) (buffer : Option ℕ) (length : UInt16) : Except Fault ResourceValue :=
  if length = 0 then .ok (.bytes [])
  else
    match buffer with
    | none => .error .nullDereference
    | some p => do
      let bytes ← bytesAt m p
      if length.toNat ≤ bytes.length then pure (.bytes (bytes.take length.toNat))
      else throw .outOfBoundsRead

/-- `prv_get_value` of `object_security.c`. -/
def getValue (m : Heap) (targetP : SecurityInstance) (id : UInt16) :
    Except Fault (Except Code ResourceValue) :=
  match id.toNat with
  | 0 => .ok <$> encodeString m targetP.uri
  | 1 => .ok (.ok (.boolean targetP.isBootstrap))
  | 2 => .ok (.ok (.integer targetP.securityMode.toNat))
  | 3 => .ok <$> encodeOpaque m targetP.publicIdentity targetP.publicIdLen
  | 4 => .ok <$> encodeOpaque m targetP.serverPublicKey targetP.serverPublicKeyLen
  | 5 => .ok <$> encodeOpaque m targetP.secretKey targetP.secretKeyLen
  | 6 => .ok (.ok (.integer targetP.smsSecurityMode.toNat))
  | 7 => .ok <$> encodeOpaque m targetP.smsParams targetP.smsParamsLen
  | 8 => .ok <$> encodeOpaque m targetP.smsSecret targetP.smsSecretLen
  | 9 => .ok (.ok (.integer 0))
  | 10 => .ok (.ok (.integer targetP.shortID.toNat))
  | 11 => .ok (.ok (.integer targetP.clientHoldOffTime.toNat))
  | 12 => .ok (.ok (.integer targetP.bootstrapServerAccountTimeout.toNat))
  | _ => .ok (.error coap404NotFound)

/-- A key that is written: the old buffer is freed, and the new one has a NUL more. -/
def setKey (m : Heap) (key : Option ℕ) (item : Data) :
    Except Fault (Heap × Option ℕ × UInt16) := do
  let m ← lwm2mFree m key
  let bytes ← item.asBuffer
  let (m, key) := m.alloc (.buffer (bytes ++ [0]))
  pure (m, some key, UInt16.ofNat bytes.length)

/-- One turn of the loop of `prv_security_write`. -/
def writeResource (d : Decoders) (m : Heap) (targetP : SecurityInstance) (item : Data) :
    Except Fault (Heap × SecurityInstance × Code) :=
  match item.id.toNat with
  | 0 => do
    let m ← lwm2mFree m targetP.uri
    let bytes ← item.asBuffer
    let (m, uri) := m.alloc (.buffer (strncpy (List.replicate (bytes.length + 1) 0) bytes))
    pure (m, { targetP with uri := some uri }, coap204Changed)
  | 1 =>
    match d.decodeBool item with
    | some isBootstrap => .ok (m, { targetP with isBootstrap }, coap204Changed)
    | none => .ok (m, targetP, coap400BadRequest)
  | 2 => .ok (m, setInt (d.decodeInt item) 3 targetP
      fun value => { targetP with securityMode := UInt8.ofNat value })
  | 3 => do
    let (m, publicIdentity, publicIdLen) ← setKey m targetP.publicIdentity item
    pure (m, { targetP with publicIdentity, publicIdLen }, coap204Changed)
  | 4 => do
    let (m, serverPublicKey, serverPublicKeyLen) ← setKey m targetP.serverPublicKey item
    pure (m, { targetP with serverPublicKey, serverPublicKeyLen }, coap204Changed)
  | 5 => do
    let (m, secretKey, secretKeyLen) ← setKey m targetP.secretKey item
    pure (m, { targetP with secretKey, secretKeyLen }, coap204Changed)
  -- The SMS resources are ignored.
  | 6 | 7 | 8 | 9 => .ok (m, targetP, coap204Changed)
  | 10 => .ok (m, setInt (d.decodeInt item) 0xFFFF targetP
      fun value => { targetP with shortID := UInt16.ofNat value })
  | 11 => .ok (m, setInt (d.decodeInt item) 0xFFFFFFFF targetP
      fun value => { targetP with clientHoldOffTime := UInt32.ofNat value })
  | 12 => .ok (m, setInt (d.decodeInt item) 0xFFFFFFFF targetP
      fun value => { targetP with bootstrapServerAccountTimeout := UInt32.ofNat value })
  | _ => .ok (m, targetP, coap400BadRequest)

/-- What `prv_security_delete` frees of an instance: the URI, and no key. -/
def deleteFields (m : Heap) (targetP : SecurityInstance) : Except Fault Heap :=
  lwm2mFree m targetP.uri

/-- What `clean_security_object` frees of an instance. -/
def cleanFields (m : Heap) (securityInstance : SecurityInstance) : Except Fault Heap := do
  let m ← lwm2mFree m securityInstance.uri
  if securityInstance.securityMode = securityModePreSharedKey then
    let m ← lwm2mFree m securityInstance.publicIdentity
    lwm2mFree m securityInstance.secretKey
  else pure m

/-- The URI of a copy: `strlen`, `lwm2m_malloc` and `strcpy`. -/
def copyUri (m : Heap) : Option ℕ → Except Fault (Heap × Option ℕ)
  | none => .error .nullDereference
  | some uri => copyString m uri

/-- What `copy_security_object` copies of an instance beyond its node. -/
def copyFields (m : Heap) (instanceSrc : SecurityInstance) :
    Except Fault (Heap × SecurityInstance) := do
  let (m, uri) ← copyUri m instanceSrc.uri
  if instanceSrc.securityMode = securityModePreSharedKey then
    let (m, publicIdentity) ← lwm2mStrdup m instanceSrc.publicIdentity
    let (m, secretKey) ← lwm2mStrdup m instanceSrc.secretKey
    pure (m, { instanceSrc with uri, publicIdentity, secretKey })
  else pure (m, { instanceSrc with uri })

/-- The buffers of an instance. -/
def pointers (x : SecurityInstance) : List ℕ :=
  x.uri.toList ++ (x.publicIdentity.toList ++ (x.serverPublicKey.toList ++
    (x.secretKey.toList ++ (x.smsParams.toList ++ x.smsSecret.toList))))

/-- The buffers that a copy of the instance has of its own. -/
def copied (x : SecurityInstance) : List ℕ :=
  if x.securityMode = securityModePreSharedKey then
    x.uri.toList ++ (x.publicIdentity.toList ++ x.secretKey.toList)
  else x.uri.toList

/-- The buffers that a copy of the instance has in common with it: the server's key and
the SMS keys, and in other modes than pre-shared key mode every key. -/
def shared (x : SecurityInstance) : List ℕ :=
  x.serverPublicKey.toList ++ (x.smsParams.toList ++ (x.smsSecret.toList ++
    if x.securityMode = securityModePreSharedKey then []
    else x.publicIdentity.toList ++ x.secretKey.toList))

/-- The second instance is a copy of the first one. -/
structure CopyOf (m₀ : Heap) (x : SecurityInstance) (m : Heap) (x' : SecurityInstance) :
    Prop where
  others : x' =
    { x with
      uri := x'.uri
      publicIdentity := x'.publicIdentity
      secretKey := x'.secretKey }
  ne_none : x.uri ≠ none
  uri : StringCopied m₀ x.uri m x'.uri
  keys : if x.securityMode = securityModePreSharedKey then
      StringCopied m₀ x.publicIdentity m x'.publicIdentity ∧
        StringCopied m₀ x.secretKey m x'.secretKey
    else x'.publicIdentity = x.publicIdentity ∧ x'.secretKey = x.secretKey

section

variable {m₀ m m' : Heap} {kept owned : List ℕ} {x x' x'' : SecurityInstance}

theorem copied_sublist (x : SecurityInstance) : x.copied.Sublist x.pointers := by
  unfold copied pointers
  split_ifs
  · refine (List.Sublist.refl _).append ((List.Sublist.refl _).append ?_)
    exact (List.sublist_append_left _ _).trans (List.sublist_append_right _ _)
  · exact List.sublist_append_left _ _

theorem uri_subset_copied (x : SecurityInstance) : x.uri.toList ⊆ x.copied := by
  unfold copied
  split_ifs
  · exact List.subset_append_left _ _
  · exact List.Subset.refl _

theorem asBuffer_ensures (item : Data) :
    Ensures item.asBuffer (fun _ => True) (· ≠ .useAfterFree) :=
  Ensures.ite (fun _ => Ensures.ok_iff.mpr trivial) fun _ => Ensures.error_iff.mpr (by decide)

/-- Replacing a buffer by a new one. -/
theorem replace_owns {p : Option ℕ} {β : Type} (item : Data) (contents : List Byte → List Byte)
    (result : List Byte → Heap → ℕ → β) {Q : β → Prop}
    (h : Owns m₀ kept m (p.toList ++ owned))
    (hresult : ∀ bytes m q, Owns m₀ kept m (q :: owned) → Q (result bytes m q)) :
    Ensures (do
      let m ← lwm2mFree m p
      let bytes ← item.asBuffer
      let (m, q) := m.alloc (.buffer (contents bytes))
      pure (result bytes m q)) Q (· ≠ .useAfterFree) := by
  obtain ⟨m₁, hfree, h₁⟩ := lwm2mFree_owns h
  rw [hfree, ok_bind]
  exact (asBuffer_ensures item).bind fun bytes _ =>
    Ensures.pure_iff.mpr (hresult bytes _ _ (h₁.alloc _))

/-- Writing a key frees and allocates that key. -/
theorem setKey_owns {key : Option ℕ} (item : Data) (h : Owns m₀ kept m (key.toList ++ owned)) :
    Ensures (setKey m key item) (fun r => Owns m₀ kept r.1 (r.2.1.toList ++ owned))
      (· ≠ .useAfterFree) :=
  replace_owns item (· ++ [0]) (fun bytes m q => (m, some q, UInt16.ofNat bytes.length)) h
    fun _ _ _ hq => hq

theorem serverPublicKey_perm (x : SecurityInstance) :
    x.pointers.Perm (x.serverPublicKey.toList ++ (x.uri.toList ++ (x.publicIdentity.toList ++
      (x.secretKey.toList ++ (x.smsParams.toList ++ x.smsSecret.toList))))) := by
  refine List.perm_iff_count.mpr fun a => ?_
  simp only [pointers, List.count_append]
  omega

theorem secretKey_perm (x : SecurityInstance) :
    x.pointers.Perm (x.secretKey.toList ++ (x.uri.toList ++ (x.publicIdentity.toList ++
      (x.serverPublicKey.toList ++ (x.smsParams.toList ++ x.smsSecret.toList))))) := by
  refine List.perm_iff_count.mpr fun a => ?_
  simp only [pointers, List.count_append]
  omega

/-- Writing a number leaves the buffers as they are. -/
theorem setInt_pointers {value : Option ℤ} {max : ℕ} {set : ℕ → SecurityInstance}
    (hset : ∀ n, (set n).pointers = x.pointers) : (setInt value max x set).1.pointers = x.pointers := by
  unfold setInt
  split
  · rfl
  · split_ifs
    · exact hset _
    · rfl

theorem writeResource_owns (d : Decoders) (item : Data)
    (h : Owns m₀ kept m (x.pointers ++ owned)) :
    Ensures (writeResource d m x item) (fun r => Owns m₀ kept r.1 (r.2.1.pointers ++ owned))
      (· ≠ .useAfterFree) := by
  have hint {value : Option ℤ} {max : ℕ} {set : ℕ → SecurityInstance}
      (hset : ∀ n, (set n).pointers = x.pointers) :
      Ensures (.ok (m, setInt value max x set) : Except Fault (Heap × SecurityInstance × Code))
        (fun r => Owns m₀ kept r.1 (r.2.1.pointers ++ owned)) (· ≠ .useAfterFree) :=
    Ensures.ok_iff.mpr (by rwa [setInt_pointers hset])
  -- The buffer that is replaced comes first, then what stays.
  have hkey {key : Option ℕ} {rest : List ℕ} (set : Option ℕ → UInt16 → SecurityInstance)
      (hfront : x.pointers.Perm (key.toList ++ rest))
      (hback : ∀ q len, (set q len).pointers.Perm (q.toList ++ rest)) :
      Ensures (do
        let (m, key, len) ← setKey m key item
        pure (m, set key len, coap204Changed))
        (fun r => Owns m₀ kept r.1 (r.2.1.pointers ++ owned)) (· ≠ .useAfterFree) := by
    have hown := h.perm (hfront.append_right owned)
    rw [List.append_assoc] at hown
    refine (setKey_owns item hown).bind fun r hr => Ensures.pure_iff.mpr ?_
    rw [← List.append_assoc] at hr
    exact hr.perm ((hback _ _).symm.append_right owned)
  unfold writeResource
  split
  · unfold pointers at h
    rw [List.append_assoc] at h
    refine replace_owns item _ (fun _ m q => (m, { x with uri := some q }, coap204Changed)) h
      fun _ _ _ hq => ?_
    exact hq
  · cases d.decodeBool item with
    | none => exact Ensures.ok_iff.mpr h
    | some isBootstrap => exact Ensures.ok_iff.mpr h
  · exact hint fun _ => rfl
  · exact hkey (fun publicIdentity publicIdLen => { x with publicIdentity, publicIdLen })
      (List.perm_append_comm_assoc _ _ _) fun _ _ => List.perm_append_comm_assoc _ _ _
  · exact hkey (fun serverPublicKey serverPublicKeyLen =>
      { x with serverPublicKey, serverPublicKeyLen }) (serverPublicKey_perm x)
      fun _ _ => serverPublicKey_perm _
  · exact hkey (fun secretKey secretKeyLen => { x with secretKey, secretKeyLen })
      (secretKey_perm x) fun _ _ => secretKey_perm _
  · exact Ensures.ok_iff.mpr h
  · exact Ensures.ok_iff.mpr h
  · exact Ensures.ok_iff.mpr h
  · exact Ensures.ok_iff.mpr h
  · exact hint fun _ => rfl
  · exact hint fun _ => rfl
  · exact hint fun _ => rfl
  · exact Ensures.ok_iff.mpr h

theorem deleteFields_owns (h : Owns m₀ kept m (x.pointers ++ owned)) :
    ∃ m', deleteFields m x = .ok m' ∧ Owns m₀ kept m' owned := by
  refine lwm2mFree_owns (h.subperm (List.Sublist.subperm ?_))
  exact (List.sublist_append_left _ _).append (List.Sublist.refl _)

theorem cleanFields_owns (h : Owns m₀ kept m (x.copied ++ owned)) :
    ∃ m', cleanFields m x = .ok m' ∧ Owns m₀ kept m' owned := by
  unfold cleanFields
  unfold copied at h
  split_ifs at h ⊢ with hmode
  · rw [List.append_assoc, List.append_assoc] at h
    obtain ⟨m₁, h₁, ho₁⟩ := lwm2mFree_owns h
    obtain ⟨m₂, h₂, ho₂⟩ := lwm2mFree_owns ho₁
    obtain ⟨m₃, h₃, ho₃⟩ := lwm2mFree_owns ho₂
    exact ⟨m₃, by rw [h₁, ok_bind, h₂, ok_bind, h₃], ho₃⟩
  · obtain ⟨m₁, h₁, ho₁⟩ := lwm2mFree_owns h
    exact ⟨m₁, by rw [h₁, ok_bind, pure_eq_ok], ho₁⟩

/-- What copying the URI does. -/
theorem copyUri_owns {p q : Option ℕ} (h : Owns m₀ kept m owned) (hp : p.toList ⊆ kept)
    (hcopy : copyUri m p = .ok (m', q)) :
    p ≠ none ∧ Extends m m' ∧ Owns m₀ kept m' (q.toList ++ owned) ∧ StringCopied m₀ p m' q := by
  cases p with
  | none => cases hcopy
  | some a => exact ⟨Option.some_ne_none a, copyString_owns h (hp (by simp)) hcopy⟩

theorem copyFields_owns (h : Owns m₀ kept m owned) (hx : x.copied ⊆ kept)
    (hcopy : copyFields m x = .ok (m', x')) :
    Extends m m' ∧ Owns m₀ kept m' (x'.copied ++ owned) ∧ CopyOf m₀ x m' x' := by
  obtain ⟨⟨m₁, uri⟩, huri, hcopy⟩ := bind_eq_ok_iff.mp hcopy
  obtain ⟨hne, he₁, h₁, hc₁⟩ := copyUri_owns h (fun a ha => hx (uri_subset_copied x ha)) huri
  split_ifs at hcopy with hmode
  · obtain ⟨⟨m₂, publicIdentity⟩, hidentity, hcopy⟩ := bind_eq_ok_iff.mp hcopy
    obtain ⟨⟨m₃, secretKey⟩, hkey, hcopy⟩ := bind_eq_ok_iff.mp hcopy
    cases hcopy
    rw [copied, if_pos hmode, List.append_subset, List.append_subset] at hx
    obtain ⟨he₂, h₂, hc₂⟩ := lwm2mStrdup_owns h₁ hx.2.1 hidentity
    obtain ⟨he₃, h₃, hc₃⟩ := lwm2mStrdup_owns h₂ hx.2.2 hkey
    have hkept {m' m'' : Heap} {q : Option ℕ} {rest : List ℕ} (he : Extends m' m'')
        (ho : Owns m₀ kept m' (q.toList ++ rest)) : ∀ b ∈ q.toList, m''.cells b = m'.cells b :=
      fun b hb => he.cells b (lt_frontier (ho.allocated b (List.mem_append_left _ hb)))
    refine ⟨(he₁.trans he₂).trans he₃, ?_, rfl, hne, hc₁.congr (hkept (he₂.trans he₃) h₁), ?_⟩
    · rw [copied, if_pos hmode]
      refine h₃.perm (List.perm_iff_count.mpr fun a => ?_)
      simp only [List.count_append]
      omega
    · rw [if_pos hmode]
      exact ⟨hc₂.congr (hkept he₃ h₂), hc₃⟩
  · cases hcopy
    refine ⟨he₁, ?_, rfl, hne, hc₁, ?_⟩
    · rwa [copied, if_neg hmode]
    · rw [if_neg hmode]
      exact ⟨rfl, rfl⟩

theorem CopyOf.congr (h : CopyOf m₀ x m x') (hcells : ∀ a ∈ x'.copied, m'.cells a = m.cells a) :
    CopyOf m₀ x m' x' := by
  have hmode : x'.securityMode = x.securityMode := by rw [h.others]
  have hkeys := h.keys
  refine ⟨h.others, h.ne_none, h.uri.congr fun a ha => hcells a (uri_subset_copied x' ha), ?_⟩
  split_ifs at hkeys ⊢ with hpsk
  · rw [copied, if_pos (hmode.trans hpsk)] at hcells
    exact ⟨hkeys.1.congr fun a ha => hcells a (by simp [ha]),
      hkeys.2.congr fun a ha => hcells a (by simp [ha])⟩
  · exact hkeys

theorem CopyOf.trans (h : CopyOf m₀ x m x') (h' : CopyOf m x' m' x'') : CopyOf m₀ x m' x'' := by
  have hmode : x'.securityMode = x.securityMode := by rw [h.others]
  have hkeys := h.keys
  have hkeys' := h'.keys
  rw [hmode] at hkeys'
  refine ⟨?_, h.ne_none, h.uri.trans h'.uri, ?_⟩
  · rw [h'.others, h.others]
  · split_ifs at hkeys hkeys' ⊢
    · exact ⟨hkeys.1.trans hkeys'.1, hkeys.2.trans hkeys'.2⟩
    · exact ⟨hkeys'.1.trans hkeys.1, hkeys'.2.trans hkeys.2⟩

end

/-! #### Reading a copy -/

section

variable {m₀ m m' : Heap} {x x' : SecurityInstance} {p q : Option ℕ} {len : UInt16}

/-- A copied text reads as before. -/
theorem encodeString_eq (h : StringCopied m₀ p m q) : encodeString m q = encodeString m₀ p := by
  obtain ⟨rfl, rfl⟩ | ⟨a, b, s, rfl, rfl, hs, hb⟩ := h
  · rfl
  · rw [encodeString, encodeString, hs, stringAt_of_cells hb,
      cString_append (ne_zero_of_stringAt hs)]

/-- A key is null, or a C string whose length is not beyond its NUL. -/
def KeyRestorable (m : Heap) (key : Option ℕ) (length : UInt16) : Prop :=
  ∀ a, key = some a → ∃ s, stringAt m a = .ok s ∧ length.toNat ≤ s.length + 1

theorem encodeOpaque_some {a : ℕ} {bytes : List Byte} (hbytes : bytesAt m a = .ok bytes)
    (hlen : len ≠ 0) :
    encodeOpaque m (some a) len =
      if len.toNat ≤ bytes.length then .ok (.bytes (bytes.take len.toNat))
      else .error .outOfBoundsRead := by
  rw [encodeOpaque, if_neg hlen]
  simp only [hbytes]
  rfl

/-- A key that is copied as a C string reads as before if and only if its length is not beyond
its NUL. -/
theorem encodeOpaque_eq_iff (h : StringCopied m₀ p m q)
    (hread : ∃ r, encodeOpaque m₀ p len = .ok r) :
    encodeOpaque m q len = encodeOpaque m₀ p len ↔ KeyRestorable m₀ p len := by
  obtain ⟨rfl, rfl⟩ | ⟨a, b, s, rfl, rfl, hs, hb⟩ := h
  · exact iff_of_true rfl fun a ha => by cases ha
  have hkey : KeyRestorable m₀ (some a) len ↔ len.toNat ≤ s.length + 1 := by
    constructor
    · intro h
      obtain ⟨s', hs', hlen⟩ := h a rfl
      rw [hs] at hs'
      cases hs'
      exact hlen
    · rintro hlen a' ha'
      cases ha'
      exact ⟨s, hs, hlen⟩
  rw [hkey]
  obtain ⟨bytes, hbytes, hc⟩ := bind_eq_ok_iff.mp hs
  obtain ⟨-, hsplit⟩ := cString_split hc
  by_cases hzero : len = 0
  · subst hzero
    exact iff_of_true rfl (Nat.zero_le _)
  · obtain ⟨r, hr⟩ := hread
    rw [encodeOpaque_some hbytes hzero] at hr ⊢
    rw [encodeOpaque_some (bytesAt_of_cells hb) hzero, List.length_append, List.length_singleton]
    split_ifs at hr with hin
    rw [if_pos hin]
    split_ifs with hlen
    · have htake : bytes.take len.toNat = (s ++ [0]).take len.toNat := by
        rw [hsplit, List.append_cons, List.take_append_of_le_length (by simpa using hlen)]
      exact iff_of_true (by rw [htake]) hlen
    · exact iff_of_false nofun hlen

theorem pointers_perm (x : SecurityInstance) : x.pointers.Perm (x.copied ++ x.shared) := by
  refine List.perm_iff_count.mpr fun a => ?_
  unfold pointers copied shared
  split_ifs
  all_goals
    simp only [List.count_append, List.count_nil]
    omega

/-- A copy points to what is shared. -/
theorem CopyOf.shared_eq (h : CopyOf m₀ x m x') : x'.shared = x.shared := by
  have hkeys := h.keys
  rw [h.others]
  unfold shared
  split_ifs at hkeys ⊢
  · rfl
  · rw [hkeys.1, hkeys.2]

theorem shared_eq_nil_iff : x.shared = [] ↔
    x.serverPublicKey = none ∧ x.smsParams = none ∧ x.smsSecret = none ∧
      (x.securityMode ≠ securityModePreSharedKey →
        x.publicIdentity = none ∧ x.secretKey = none) := by
  unfold shared
  split_ifs with hmode
  · simp [hmode]
  · simp [hmode]

theorem ok_map_inj {a b : Except Fault ResourceValue}
    (h : (Except.ok <$> a : Except Fault (Except Code ResourceValue)) = .ok <$> b) : a = b := by
  cases a <;> cases b <;> cases h <;> rfl

theorem exists_of_ok_map {a : Except Fault ResourceValue}
    (h : ∃ r, (Except.ok <$> a : Except Fault (Except Code ResourceValue)) = .ok r) :
    ∃ r, a = .ok r := by
  cases a with
  | ok r => exact ⟨r, rfl⟩
  | error e =>
    obtain ⟨r, hr⟩ := h
    cases hr

/-- **Reading a copy.**  When nothing is shared, every resource of a copy reads as before if and
only if each key that is copied as a C string does. -/
theorem CopyOf.getValue_iff (h : CopyOf m₀ x m x') (hshared : x.shared = [])
    (hread : ∀ id, ∃ r, getValue m₀ x id = .ok r) :
    (∀ id, getValue m x' id = getValue m₀ x id) ↔
      (x.securityMode = securityModePreSharedKey →
        KeyRestorable m₀ x.publicIdentity x.publicIdLen ∧
          KeyRestorable m₀ x.secretKey x.secretKeyLen) := by
  obtain ⟨hserver, hparams, hsecret, hnone⟩ := shared_eq_nil_iff.mp hshared
  have hlen : x'.publicIdLen = x.publicIdLen ∧ x'.secretKeyLen = x.secretKeyLen := by
    rw [h.others]
    exact ⟨rfl, rfl⟩
  have hcopied := h.keys
  have hidentity : ∃ r, encodeOpaque m₀ x.publicIdentity x.publicIdLen = .ok r :=
    exists_of_ok_map (hread 3)
  have hkey : ∃ r, encodeOpaque m₀ x.secretKey x.secretKeyLen = .ok r :=
    exists_of_ok_map (hread 5)
  constructor
  · intro hall hmode
    rw [if_pos hmode] at hcopied
    have hidentity' : encodeOpaque m x'.publicIdentity x'.publicIdLen =
        encodeOpaque m₀ x.publicIdentity x.publicIdLen := ok_map_inj (hall 3)
    have hkey' : encodeOpaque m x'.secretKey x'.secretKeyLen =
        encodeOpaque m₀ x.secretKey x.secretKeyLen := ok_map_inj (hall 5)
    rw [hlen.1] at hidentity'
    rw [hlen.2] at hkey'
    exact ⟨(encodeOpaque_eq_iff hcopied.1 hidentity).mp hidentity',
      (encodeOpaque_eq_iff hcopied.2 hkey).mp hkey'⟩
  · intro hkeys id
    have hboth : encodeOpaque m x'.publicIdentity x.publicIdLen =
          encodeOpaque m₀ x.publicIdentity x.publicIdLen ∧
        encodeOpaque m x'.secretKey x.secretKeyLen =
          encodeOpaque m₀ x.secretKey x.secretKeyLen := by
      split_ifs at hcopied with hmode
      · exact ⟨(encodeOpaque_eq_iff hcopied.1 hidentity).mpr (hkeys hmode).1,
          (encodeOpaque_eq_iff hcopied.2 hkey).mpr (hkeys hmode).2⟩
      · rw [hcopied.1, hcopied.2, (hnone hmode).1, (hnone hmode).2]
        exact ⟨rfl, rfl⟩
    rw [h.others]
    unfold getValue
    split
    · exact congrArg _ (encodeString_eq h.uri)
    · rfl
    · rfl
    · exact congrArg _ hboth.1
    · rw [hserver]
      rfl
    · exact congrArg _ hboth.2
    · rfl
    · rw [hparams]
      rfl
    · rw [hsecret]
      rfl
    all_goals rfl

/-- What `copy_security_object` needs of an instance. -/
def Copyable (m : Heap) (x : SecurityInstance) : Prop :=
  x.uri ≠ none ∧ ∀ a ∈ x.copied, ∃ s, stringAt m a = .ok s

theorem Copyable.congr (h : Copyable m x) (hcells : ∀ a ∈ x.copied, m'.cells a = m.cells a) :
    Copyable m' x :=
  ⟨h.1, fun a ha => by rw [stringAt_congr (hcells a ha)]; exact h.2 a ha⟩

theorem exists_copyString {a : ℕ} (h : ∃ s, stringAt m a = .ok s) :
    ∃ r, copyString m a = .ok r ∧ Extends m r.1 := by
  obtain ⟨s, hs⟩ := h
  exact ⟨_, bind_eq_ok_iff.mpr ⟨s, hs, rfl⟩, .alloc m _⟩

theorem exists_lwm2mStrdup (h : ∀ a ∈ p.toList, ∃ s, stringAt m a = .ok s) :
    ∃ r, lwm2mStrdup m p = .ok r ∧ Extends m r.1 := by
  cases p with
  | none => exact ⟨_, rfl, .refl m⟩
  | some a => exact exists_copyString (h a (by simp))

/-- Such an instance is copied. -/
theorem Copyable.exists_copyFields (h : Copyable m x) : ∃ r, copyFields m x = .ok r := by
  obtain ⟨hne, hstrings⟩ := h
  obtain ⟨a, huri⟩ := Option.ne_none_iff_exists'.mp hne
  obtain ⟨⟨m₁, uri⟩, hcopy, he₁⟩ :=
    exists_copyString (hstrings a (uri_subset_copied x (by simp [huri])))
  have hfirst : copyUri m x.uri = .ok (m₁, uri) := by rw [huri, copyUri, hcopy]
  rw [copyFields, hfirst, ok_bind]
  split_ifs with hmode
  · rw [copied, if_pos hmode] at hstrings
    have hlater {m' : Heap} (he : Extends m m') {key : Option ℕ}
        (hkey : key.toList ⊆ x.publicIdentity.toList ++ x.secretKey.toList) :
        ∀ b ∈ key.toList, ∃ s, stringAt m' b = .ok s := fun b hb => by
      obtain ⟨s, hs⟩ := hstrings b (List.mem_append_right _ (hkey hb))
      exact ⟨s, stringAt_extends he hs⟩
    obtain ⟨⟨m₂, publicIdentity⟩, h₂, he₂⟩ :=
      exists_lwm2mStrdup (hlater he₁ (List.subset_append_left _ _))
    obtain ⟨⟨m₃, secretKey⟩, h₃, -⟩ :=
      exists_lwm2mStrdup (hlater (he₁.trans he₂) (List.subset_append_right _ _))
    exact ⟨_, bind_eq_ok_iff.mpr ⟨_, h₂, bind_eq_ok_iff.mpr ⟨_, h₃, rfl⟩⟩⟩
  · exact ⟨_, rfl⟩

/-- A copy can be copied. -/
theorem CopyOf.copyable (h : CopyOf m₀ x m x') : Copyable m x' := by
  have hstring {p q : Option ℕ} (hc : StringCopied m₀ p m q) :
      ∀ a ∈ q.toList, ∃ s, stringAt m a = .ok s := by
    obtain ⟨-, rfl⟩ | ⟨_, b, s, -, rfl, hs, hb⟩ := hc
    · simp
    · intro a ha
      cases List.mem_singleton.mp ha
      exact ⟨s, by rw [stringAt_of_cells hb, cString_append (ne_zero_of_stringAt hs)]⟩
  have hmode : x'.securityMode = x.securityMode := by rw [h.others]
  have hkeys := h.keys
  refine ⟨?_, ?_⟩
  · obtain ⟨hnone, -⟩ | ⟨_, b, _, -, hq, -⟩ := h.uri
    · exact absurd hnone h.ne_none
    · exact hq ▸ Option.some_ne_none b
  · rw [copied, hmode]
    split_ifs at hkeys ⊢
    · intro a ha
      rw [List.mem_append, List.mem_append] at ha
      obtain ha | ha | ha := ha
      · exact hstring h.uri a ha
      · exact hstring hkeys.1 a ha
      · exact hstring hkeys.2 a ha
    · exact hstring h.uri

/-- The instance is as it was after it has been copied twice, and shares nothing with its
copies. -/
structure Restorable (m : Heap) (x : SecurityInstance) : Prop where
  uri : x.uri ≠ none
  shared : x.shared = []
  keys : x.securityMode = securityModePreSharedKey →
    KeyRestorable m x.publicIdentity x.publicIdLen ∧ KeyRestorable m x.secretKey x.secretKeyLen

theorem Restorable.copyable (h : Restorable m x)
    (hread : ∀ id, ∃ r, getValue m x id = .ok r) : Copyable m x := by
  have huri : ∀ a ∈ x.uri.toList, ∃ s, stringAt m a = .ok s := by
    obtain ⟨r, hr⟩ := exists_of_ok_map (hread 0)
    intro a ha
    rw [Option.mem_toList.mp ha] at hr
    obtain ⟨s, hs, -⟩ := bind_eq_ok_iff.mp hr
    exact ⟨s, hs⟩
  have hkey {key : Option ℕ} {len : UInt16} (hk : KeyRestorable m key len) :
      ∀ a ∈ key.toList, ∃ s, stringAt m a = .ok s := fun a ha => by
    obtain ⟨s, hs, -⟩ := hk a (Option.mem_toList.mp ha)
    exact ⟨s, hs⟩
  refine ⟨h.uri, ?_⟩
  unfold copied
  split_ifs with hmode
  · intro a ha
    rw [List.mem_append, List.mem_append] at ha
    obtain ha | ha | ha := ha
    · exact huri a ha
    · exact hkey (h.keys hmode).1 a ha
    · exact hkey (h.keys hmode).2 a ha
  · exact huri

end

end SecurityInstance

/-- The Security Object. -/
def securityObject (d : Decoders) : ObjectType SecurityInstance where
  zero := .zero
  writeResource := SecurityInstance.writeResource d
  deleteFields := SecurityInstance.deleteFields
  cleanFields := SecurityInstance.cleanFields
  copyFields := SecurityInstance.copyFields

/-- What an instance of the Security Object owns. -/
def securityOwnership (d : Decoders) : Ownership (securityObject d) where
  pointers := SecurityInstance.pointers
  copied := SecurityInstance.copied
  CopyOf := SecurityInstance.CopyOf
  copied_sublist := SecurityInstance.copied_sublist
  zero := rfl
  writeResource := SecurityInstance.writeResource_owns d
  deleteFields := SecurityInstance.deleteFields_owns
  cleanFields := SecurityInstance.cleanFields_owns
  copyFields := SecurityInstance.copyFields_owns
  copyOf_congr := SecurityInstance.CopyOf.congr
  copyOf_trans := SecurityInstance.CopyOf.trans

/-! ### The Server Object -/

/-- `server_instance_t`, from `shortServerId` on. -/
structure ServerInstance where
  shortServerId : UInt16
  lifetime : UInt32
  defaultMinPeriod : UInt32
  defaultMaxPeriod : UInt32
  disableTimeout : UInt32
  storing : Bool
  /-- The four bytes of the array. -/
  binding : List Byte
  deriving DecidableEq, Repr

namespace ServerInstance

/-- An instance after `memset`. -/
def zero : ServerInstance where
  shortServerId := 0
  lifetime := 0
  defaultMinPeriod := 0
  defaultMaxPeriod := 0
  disableTimeout := 0
  storing := false
  binding := [0, 0, 0, 0]

/-- `prv_get_value` of `object_server.c`. -/
def getValue (targetP : ServerInstance) (id : UInt16) :
    Except Fault (Except Code ResourceValue) :=
  match id.toNat with
  | 0 => .ok (.ok (.integer targetP.shortServerId.toNat))
  | 1 => .ok (.ok (.integer targetP.lifetime.toNat))
  | 2 => .ok (.ok (.integer targetP.defaultMinPeriod.toNat))
  | 3 => .ok (.ok (.integer targetP.defaultMaxPeriod.toNat))
  | 4 | 8 => .ok (.error coap405MethodNotAllowed)
  | 5 => .ok (.ok (.integer targetP.disableTimeout.toNat))
  | 6 => .ok (.ok (.boolean targetP.storing))
  | 7 => do pure (.ok (.string (← cString targetP.binding)))
  | _ => .ok (.error coap404NotFound)

/-- `prv_set_int_value`. -/
def setIntValue (value : Option ℤ) (targetP : ServerInstance) (set : ℕ → ServerInstance) :
    ServerInstance × Code :=
  setInt value 0xFFFFFFFF targetP set

/-- The bindings that `prv_server_write` compares with: U, UQ, S, SQ, US and UQS. -/
def bindings : List CString :=
  [[0x55], [0x55, 0x51], [0x53], [0x53, 0x51], [0x55, 0x53], [0x55, 0x51, 0x53]]

/-- `strncmp` of a whole buffer and a text, with the length of the buffer, is zero. -/
def strncmpEq (buffer : List Byte) (text : CString) : Bool :=
  buffer.takeWhile (· ≠ 0) = text.take buffer.length

/-- One turn of the loop of `prv_server_write`. -/
def writeResource (d : Decoders) (m : Heap) (targetP : ServerInstance) (item : Data) :
    Except Fault (Heap × ServerInstance × Code) :=
  match item.id.toNat with
  | 0 =>
    -- The identifier is checked twice: as 32 bits, then as a Short Server ID.
    match setInt (d.decodeInt item) 0xFFFFFFFF targetP.shortServerId.toNat id with
    | (value, result) =>
      if result = coap204Changed then
        if 0 < value ∧ value ≤ 0xFFFF then
          .ok (m, { targetP with shortServerId := UInt16.ofNat value }, result)
        else .ok (m, targetP, coap406NotAcceptable)
      else .ok (m, targetP, result)
  | 1 => .ok (m, setIntValue (d.decodeInt item) targetP
      fun value => { targetP with lifetime := UInt32.ofNat value })
  | 2 => .ok (m, setIntValue (d.decodeInt item) targetP
      fun value => { targetP with defaultMinPeriod := UInt32.ofNat value })
  | 3 => .ok (m, setIntValue (d.decodeInt item) targetP
      fun value => { targetP with defaultMaxPeriod := UInt32.ofNat value })
  | 4 | 8 => .ok (m, targetP, coap405MethodNotAllowed)
  | 5 => .ok (m, setIntValue (d.decodeInt item) targetP
      fun value => { targetP with disableTimeout := UInt32.ofNat value })
  | 6 =>
    match d.decodeBool item with
    | some storing => .ok (m, { targetP with storing }, coap204Changed)
    | none => .ok (m, targetP, coap400BadRequest)
  | 7 =>
    if (item.type = .string ∨ item.type = .opaqueBytes) ∧
        0 < item.value.length ∧ item.value.length ≤ 3 ∧ bindings.any (strncmpEq item.value) then
      .ok (m, { targetP with binding := strncpy targetP.binding item.value }, coap204Changed)
    else .ok (m, targetP, coap400BadRequest)
  | _ => .ok (m, targetP, coap404NotFound)

/-- What `copy_server_object` copies of an instance beyond its node: the binding, over the
same bytes. -/
def copyFields (m : Heap) (instanceSrc : ServerInstance) :
    Except Fault (Heap × ServerInstance) := do
  let s ← cString instanceSrc.binding
  pure (m, { instanceSrc with binding := s ++ 0 :: instanceSrc.binding.drop (s.length + 1) })

/-- No buffer: the binding is part of the instance. -/
def pointers (_ : ServerInstance) : List ℕ := []

/-- The second instance is a copy of the first one. -/
def CopyOf (_ : Heap) (x : ServerInstance) (_ : Heap) (x' : ServerInstance) : Prop :=
  0 ∈ x.binding ∧ x' = x

section

variable {m₀ m m' : Heap} {kept owned : List ℕ} {x x' : ServerInstance}

/-- Writing a resource of the Server Object leaves the heap as it is. -/
theorem writeResource_heap (d : Decoders) (m : Heap) (x : ServerInstance) (item : Data) :
    ∃ r, writeResource d m x item = .ok (m, r) := by
  unfold writeResource
  repeat' split
  all_goals exact ⟨_, rfl⟩

theorem writeResource_owns (d : Decoders) (item : Data)
    (h : Owns m₀ kept m (x.pointers ++ owned)) :
    Ensures (writeResource d m x item) (fun r => Owns m₀ kept r.1 (r.2.1.pointers ++ owned))
      (· ≠ .useAfterFree) := by
  obtain ⟨r, hr⟩ := writeResource_heap d m x item
  rw [hr]
  exact Ensures.ok_iff.mpr h

theorem copyFields_owns (h : Owns m₀ kept m owned)
    (hcopy : copyFields m x = .ok (m', x')) :
    Extends m m' ∧ Owns m₀ kept m' (x'.pointers ++ owned) ∧ CopyOf m₀ x m' x' := by
  obtain ⟨s, hs, hcopy⟩ := bind_eq_ok_iff.mp hcopy
  cases hcopy
  obtain ⟨hmem, hsplit⟩ := cString_split hs
  exact ⟨.refl _, h, hmem, by rw [← hsplit]⟩

/-- An instance whose binding ends in the array is copied. -/
theorem exists_copyFields (m : Heap) (h : 0 ∈ x.binding) : ∃ r, copyFields m x = .ok r := by
  rw [copyFields, cString, if_pos h]
  exact ⟨_, rfl⟩

/-- The binding of an instance that can be read ends in the array. -/
theorem zero_mem_binding (h : ∀ id, ∃ r, getValue x id = .ok r) : 0 ∈ x.binding := by
  obtain ⟨r, hr⟩ := h 7
  obtain ⟨s, hs, -⟩ := bind_eq_ok_iff.mp hr
  exact (cString_split hs).1

end

end ServerInstance

/-- The Server Object. -/
def serverObject (d : Decoders) : ObjectType ServerInstance where
  zero := .zero
  writeResource := ServerInstance.writeResource d
  deleteFields m _ := .ok m
  cleanFields m _ := .ok m
  copyFields := ServerInstance.copyFields

/-- What an instance of the Server Object owns. -/
def serverOwnership (d : Decoders) : Ownership (serverObject d) where
  pointers := ServerInstance.pointers
  copied := ServerInstance.pointers
  CopyOf := ServerInstance.CopyOf
  copied_sublist _ := .refl _
  zero := rfl
  writeResource := ServerInstance.writeResource_owns d
  deleteFields h := ⟨_, rfl, h⟩
  cleanFields h := ⟨_, rfl, h⟩
  copyFields h _ hcopy := ServerInstance.copyFields_owns h hcopy
  copyOf_congr h _ := h
  copyOf_trans h h' := ⟨h.1, h'.2.trans h.2⟩

/-! ### The read callbacks -/

/-- The loop of the read callback. -/
def readItems (getValue : UInt16 → Except Fault (Except Code ResourceValue)) :
    List UInt16 → Except Fault (Except Code (List ResourceValue))
  | [] => .ok (.ok [])
  | id :: next => do
    match ← getValue id with
    | .error result => pure (.error result)
    | .ok value =>
      match ← readItems getValue next with
      | .error result => pure (.error result)
      | .ok values => pure (.ok (value :: values))

/-- The read callback: of all resources when none is asked for. -/
def readInstance {α : Type} (resList : List UInt16)
    (getValue : α → UInt16 → Except Fault (Except Code ResourceValue))
    (instanceList : List (ListNode α)) (instanceId : UInt16) (ids : List UInt16) :
    Except Fault (Except Code (List ResourceValue)) :=
  match listFind ListNode.id instanceList instanceId with
  | none => .ok (.error coap404NotFound)
  | some targetP => readItems (getValue targetP.fields) (if ids = [] then resList else ids)

/-- A read of one resource says what its value is. -/
theorem readItems_singleton_inj
    {getValue getValue' : UInt16 → Except Fault (Except Code ResourceValue)} {id : UInt16}
    (h : readItems getValue' [id] = readItems getValue [id]) : getValue' id = getValue id := by
  unfold readItems at h
  generalize getValue' id = a at h ⊢
  generalize getValue id = b at h ⊢
  rcases a with _ | _ | _ <;> rcases b with _ | _ | _ <;> cases h <;> rfl

section

variable {α : Type} {resList : List UInt16} {l l' : List (ListNode α)}
  {getValue getValue' : α → UInt16 → Except Fault (Except Code ResourceValue)}

/-- Lists of instances that read alike. -/
theorem readInstance_congr
    (h : List.Forall₂ (fun n n' => n'.id = n.id ∧ getValue' n'.fields = getValue n.fields) l l')
    (instanceId : UInt16) (ids : List UInt16) :
    readInstance resList getValue' l' instanceId ids =
      readInstance resList getValue l instanceId ids := by
  unfold readInstance
  obtain ⟨hl, hl'⟩ | ⟨n, n', hl, hl', -, heq⟩ :=
    listFind_forall₂ (fun _ _ hn => hn.1) h instanceId
  · rw [hl, hl']
  · rw [hl, hl']
    exact congrArg (readItems · _) heq

/-- When the lists read alike, so do an instance and the one in its place. -/
theorem getValue_of_readInstance {R : ListNode α → ListNode α → Prop} {n : ListNode α}
    (hsorted : l.Pairwise (·.id < ·.id)) (h : List.Forall₂ R l l')
    (hid : ∀ n n', R n n' → n'.id = n.id)
    (hread : ∀ instanceId ids, readInstance resList getValue' l' instanceId ids =
      readInstance resList getValue l instanceId ids) (hn : n ∈ l) :
    ∃ n', R n n' ∧ getValue' n'.fields = getValue n.fields := by
  obtain ⟨hl, -⟩ | ⟨n₁, n', hl, hl', hR⟩ := listFind_forall₂ hid h n.id
  · rw [listFind_of_mem hsorted hn] at hl
    cases hl
  · rw [listFind_of_mem hsorted hn] at hl
    cases hl
    refine ⟨n', hR, funext fun id => ?_⟩
    have hone := hread n.id [id]
    unfold readInstance at hone
    rw [listFind_of_mem hsorted hn, hl'] at hone
    exact readItems_singleton_inj hone

end

/-- `prv_security_read`. -/
def securityRead (m : Heap) (instanceList : List (ListNode SecurityInstance))
    (instanceId : UInt16) (ids : List UInt16) : Except Fault (Except Code (List ResourceValue)) :=
  readInstance [0, 1, 2, 3, 4, 5, 6, 7, 8, 9, 10, 11, 12] (SecurityInstance.getValue m)
    instanceList instanceId ids

/-- `prv_server_read`. -/
def serverRead (instanceList : List (ListNode ServerInstance)) (instanceId : UInt16)
    (ids : List UInt16) : Except Fault (Except Code (List ResourceValue)) :=
  readInstance [0, 1, 2, 3, 5, 6, 7] ServerInstance.getValue instanceList instanceId ids

end Lwm2m.Core

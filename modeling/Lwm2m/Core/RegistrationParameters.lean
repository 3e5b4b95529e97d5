/-
# The parameters of a registration

`prv_getParameters` of `core/registration.c` reads the Uri-Query options of a registration, and
`bootstrap_handleRequest` of `core/bootstrap.c` those of a bootstrap request.  An option points into
the datagram, has a length and no NUL behind it; here it is the list of its bytes, and a comparison
of `lwm2m_strncmp` that goes on behind them is a fault.

`prv_getParameters` reads inside its options and returns what they spell exactly when no option that
is reached ends inside a keyword, and a query that is accepted has one lifetime, of 32 bits, a
binding of known letters, no queue mode, and memory for copies without NUL; and
`bootstrap_handleRequest` reads inside its options exactly when those it comes to do not end inside
their keyword (`registrationParameters_right_iff`).
-/

import Lwm2m.Coap.Packet
import Lwm2m.Core.BindingText
import Lwm2m.Core.Management
import Lwm2m.Core.Text
import Lwm2m.Library.Decimal
import Lwm2m.Library.Except

namespace Lwm2m.Core

open Coap Code Library

/-! ### Options -/

/-- An option of `multi_option_t`: its bytes, and whether `lwm2m_malloc` has memory for a copy of
them. -/
structure QueryOption where
  bytes : List Byte
  memory : Bool := true
  deriving DecidableEq, Repr

/-- The keys that `prv_getParameters` compares an option with. -/
inductive QueryKey
  | name
  | sms
  | lifetime
  | version
  | binding
  | queueMode
  deriving DecidableEq, Repr

/-- `QUERY_NAME` and the others. -/
def QueryKey.text : QueryKey → List Byte
  | name => [0x65, 0x70, 0x3D]
  | sms => [0x73, 0x6D, 0x73, 0x3D]
  | lifetime => [0x6C, 0x74, 0x3D]
  | version => [0x6C, 0x77, 0x6D, 0x32, 0x6D, 0x3D]
  | binding => [0x62, 0x3D]
  | queueMode => [0x51]

/-- `QUERY_PCT`. -/
def queryPct : List Byte := [0x70, 0x63, 0x74, 0x3D]

/-- The keys in the order in which an option is compared with them. -/
def QueryKey.all : List QueryKey := [name, sms, lifetime, version, binding, queueMode]

/-- `lwm2m_strncmp` of the bytes of an option with a keyword, up to the length of the keyword: it
stops at the first byte that differs, and the keyword has no NUL. -/
def strncmpEqual : List Byte → List Byte → Except Fault Bool
  | _, [] => return true
  | [], _ :: _ => throw .outOfBoundsRead
  | b :: bytes, c :: keyword => if b = c then strncmpEqual bytes keyword else return false

/-- The first of the keys that an option compares equal with. -/
def matchedKey (bytes : List Byte) : List QueryKey → Except Fault (Option QueryKey)
  | [] => return none
  | key :: keys => do
    if ← strncmpEqual bytes key.text then return some key
    else matchedKey bytes keys

/-! ### Parameters -/

/-- What `prv_getParameters` returns through its pointers.  The strings are the buffers, with the
NUL at their end. -/
structure Parameters where
  name : Option (List Byte) := none
  lifetime : UInt32 := 0
  msisdn : Option (List Byte) := none
  binding : UInt8 := 0
  version : Lwm2mVersion := .missing
  deriving DecidableEq, Repr

/-- The copy of a value, with a NUL behind it. -/
def copyValue (query : QueryOption) (value : List Byte) : Option (List Byte) :=
  if query.memory then some (value ++ [0]) else none

/-- The loop over the digits of a lifetime. -/
def lifetimeLoop (lifetime : UInt32) : List Byte → Option UInt32
  | [] => some lifetime
  | b :: data =>
    if b < 0x30 ∨ b > 0x39 then none
    else lifetimeLoop (lifetime * 10 + (b - 0x30).toUInt32) data

/-- The branch of `prv_getParameters` for a key; there are no parameters when it goes to the error
exit. -/
def storeParameter (p : Parameters) (query : QueryOption) (key : QueryKey) : Option Parameters :=
  let value := query.bytes.drop key.text.length
  match key with
  | .name =>
    if p.name ≠ none then none
    else if query.bytes.length = QueryKey.name.text.length then none
    else some { p with name := copyValue query value }
  | .sms =>
    if p.msisdn ≠ none then none
    else if query.bytes.length = QueryKey.sms.text.length then none
    else some { p with msisdn := copyValue query value }
  | .lifetime =>
    if p.lifetime ≠ 0 then none
    else if query.bytes.length = QueryKey.lifetime.text.length then none
    else (lifetimeLoop p.lifetime value).map fun lifetime => { p with lifetime }
  | .version =>
    if p.version ≠ .missing then none
    else if query.bytes.length = QueryKey.version.text.length then none
    else some { p with version := utilsStringToVersion value }
  | .binding =>
    if p.binding &&& ~~~bindingQ ≠ 0 then none
    else if query.bytes.length = QueryKey.binding.text.length then none
    else some { p with binding := p.binding ||| utilsStringToBinding value }
  | .queueMode =>
    if p.binding &&& bindingQ ≠ 0 then none
    -- the length of the keyword of the binding
    else if query.bytes.length ≠ QueryKey.binding.text.length then none
    else some { p with binding := p.binding ||| bindingQ }

/-- The loop of `prv_getParameters`. -/
def parametersLoop (p : Parameters) : List QueryOption → Except Fault (Option Parameters)
  | [] => return some p
  | query :: next => do
    match ← matchedKey query.bytes QueryKey.all with
    | none => parametersLoop p next
    | some key =>
      match storeParameter p query key with
      | none => return none
      | some p => parametersLoop p next

/-- `prv_getParameters`; there are no parameters when it returns -1. -/
def prvGetParameters (query : List QueryOption) : Except Fault (Option Parameters) := do
  match ← parametersLoop {} query with
  | none => return none
  | some p =>
    let p := if p.binding = 0 then { p with binding := bindingUnknown } else p
    if p.version = .v1_0 ∧ p.binding &&& (bindingT ||| bindingN) ≠ 0 then return none
    else return some p

/-! ### Bootstrap requests -/

/-- `strtol` with the base 10, on a text too short to overflow: the value, and how far the number
goes. -/
def strtol (text : CString) : ℤ × ℕ :=
  let spaces := text.takeWhile isSpace
  let signed := text.dropWhile isSpace
  let sign := if signed.head? = some 0x2B ∨ signed.head? = some 0x2D then 1 else 0
  let digits := (signed.drop sign).takeWhile isDigit
  let value : ℤ := digitsValue 0 digits
  if digits = [] then (0, 0)
  else (if signed.head? = some 0x2D then -value else value,
    spaces.length + sign + digits.length)

/-- The content formats the bootstrap server is built with. -/
structure BootstrapFormats where
  senmlJson : Bool
  tlv : Bool
  deriving DecidableEq, Repr

/-- The format that the second option of a bootstrap request prefers, or the answer. -/
def preferredFormat (formats : BootstrapFormats) (query : List Byte) (next : List (List Byte)) :
    Except Fault (Except Code UInt16) := do
  if !(← strncmpEqual query queryPct) then return .error coap400BadRequest
  if query.length = queryPct.length then return .error coap400BadRequest
  if query.length > queryPct.length + 5 then return .error coap400BadRequest
  if next ≠ [] then return .error coap400BadRequest
  let formatString := (query.drop queryPct.length).takeWhile (· ≠ 0)
  let (value, endP) := strtol formatString
  if endP < formatString.length then return .error coap400BadRequest
  if formats.senmlJson ∧ value = 110 then return .ok 110
  if formats.tlv then return .ok 11542
  else return .error coap400BadRequest

/-- What `bootstrap_handleRequest` passes to the callback: the name, the format and the payload. -/
structure BootstrapCall where
  name : List Byte
  format : UInt16
  payload : List Byte
  deriving DecidableEq, Repr

/-- `bootstrap_handleRequest`, with the callback and whether there is memory for the name.  A
message has no payload when its payload is empty. -/
def bootstrapHandleRequest (formats : BootstrapFormats) (callback : Option (BootstrapCall → Code))
    (memory : Bool) (message : Packet) : Except Fault Code := do
  match callback with
  | none => return coap500InternalServerError
  | some callback =>
    if message.code ≠ 2 then return coap400BadRequest
    match message.uriQuery with
    | [] => return coap400BadRequest
    | query :: rest =>
      if !(← strncmpEqual query QueryKey.name.text) then return coap400BadRequest
      if query.length = QueryKey.name.text.length then return coap400BadRequest
      let preferred ← match rest with
        | [] => pure (.ok 0)
        | second :: next => preferredFormat formats second next
      match preferred with
      | .error code => return code
      | .ok format =>
        let format := if message.payload ≠ [] then utilsConvertMediaType message.contentType
          else format
        if !memory then return coap500InternalServerError
        let name := query.drop QueryKey.name.text.length ++ [0]
        return callback ⟨name, format, message.payload⟩

/-! ### What the options spell -/

/-- The value of an option with a key. -/
def valueOf (key : QueryKey) (bytes : List Byte) : Option (List Byte) :=
  if key.text <+: bytes then some (bytes.drop key.text.length) else none

/-- The values that the options have for a key. -/
def values (key : QueryKey) (options : List QueryOption) : List (List Byte) :=
  options.filterMap fun query => valueOf key query.bytes

/-- The version of a text. -/
def spelledVersion (text : List Byte) : Lwm2mVersion :=
  if text = [0x31, 0x2E, 0x30] then .v1_0
  else if text = [0x31, 0x2E, 0x31] then .v1_1
  else .unrecognized

/-- The binding that a text and the queue mode spell. -/
def spelledBinding (texts queueModes : List (List Byte)) : UInt8 :=
  bindingFlags (texts.headD []) ||| (if queueModes = [] then 0 else bindingQ)

/-- No parameter is repeated and every one is well formed. -/
structure WellFormed (options : List QueryOption) : Prop where
  once : ∀ key, (values key options).length ≤ 1
  filled : ∀ key, key ≠ .queueMode → ∀ value ∈ values key options, value ≠ []
  lifetime : ∀ value ∈ values .lifetime options,
    value.all isDigit = true ∧ digitsValue 0 value < 2 ^ 32
  binding : ∀ value ∈ values .binding options, IsBinding value
  queueMode : ∀ value ∈ values .queueMode options, value = []

/-- The parameters are what the options spell. -/
structure Spells (options : List QueryOption) (p : Parameters) : Prop where
  name : p.name.map (List.takeWhile (· ≠ 0)) = (values .name options).head?
  lifetime : p.lifetime.toNat = ((values .lifetime options).head?.map (digitsValue 0)).getD 0
  msisdn : p.msisdn.map (List.takeWhile (· ≠ 0)) = (values .sms options).head?
  version : p.version = ((values .version options).head?.map spelledVersion).getD .missing
  binding : if values .binding options = [] ∧ values .queueMode options = [] then
      p.binding = bindingUnknown
    else p.binding &&& ~~~bindingUnknown =
      spelledBinding (values .binding options) (values .queueMode options)

/-- `prv_getParameters` reads no byte outside an option, and what it accepts is well formed and
returned as it is spelled. -/
def ParametersRight (options : List QueryOption) : Prop :=
  match prvGetParameters options with
  | .error _ => False
  | .ok none => True
  | .ok (some p) => WellFormed options ∧ Spells options p

/-! ### When they do -/

/-- The bytes end inside the keyword. -/
def EndsInside (bytes keyword : List Byte) : Prop := bytes <+: keyword ∧ bytes ≠ keyword

instance (bytes keyword : List Byte) : Decidable (EndsInside bytes keyword) :=
  inferInstanceAs (Decidable (_ ∧ _))

/-- The option ends inside a keyword it is compared with. -/
def QueryOption.Truncated (query : QueryOption) : Prop :=
  ∃ key : QueryKey, EndsInside query.bytes key.text

/-- The last lifetime of the options, in the 32 bits that hold it. -/
def lastLifetime (options : List QueryOption) : ℕ :=
  ((values .lifetime options).getLast?.map (digitsValue 0)).getD 0 % 2 ^ 32

/-- A value that `prv_getParameters` refuses behind the options `before`. -/
def RefusedValue (before : List QueryOption) (value : List Byte) : QueryKey → Prop
  | .name => value = [] ∨ values .name (before.filter (·.memory)) ≠ []
  | .sms => value = [] ∨ values .sms (before.filter (·.memory)) ≠ []
  | .lifetime => value = [] ∨ ¬ value.all isDigit ∨ lastLifetime before ≠ 0
  | .version => value = [] ∨ values .version before ≠ []
  | .binding => value = [] ∨ values .binding before ≠ []
  | .queueMode => value.length ≠ 1 ∨ values .queueMode before ≠ [] ∨
    ∃ text ∈ values .binding before, IsBinding text ∧ 0x51 ∈ text

/-- An option that `prv_getParameters` refuses behind the options `before`. -/
def RefusedOption (before : List QueryOption) (query : QueryOption) : Prop :=
  ∃ key, ∃ value, valueOf key query.bytes = some value ∧ RefusedValue before value key

/-- No option that is reached ends inside a keyword. -/
def NoneTruncated (before : List QueryOption) : List QueryOption → Prop
  | [] => True
  | query :: next =>
    ¬ query.Truncated ∧ (¬ RefusedOption before query → NoneTruncated (before ++ [query]) next)

/-- No option is refused. -/
def NoneRefused (before : List QueryOption) : List QueryOption → Prop
  | [] => True
  | query :: next => ¬ RefusedOption before query ∧ NoneRefused (before ++ [query]) next

/-- The options spell the version 1.0 and a binding that it does not have. -/
def VersionExcludesBinding (options : List QueryOption) : Prop :=
  [0x31, 0x2E, 0x30] ∈ values .version options ∧
    ∃ text ∈ values .binding options, IsBinding text ∧ (0x54 ∈ text ∨ 0x4E ∈ text)

/-- What nothing checks: there is one lifetime, of 32 bits, the letters of the binding are known,
the queue mode is not given, and the strings have no NUL and can be copied. -/
structure Precise (options : List QueryOption) : Prop where
  once : (values .lifetime options).length ≤ 1
  lifetime : ∀ value ∈ values .lifetime options, digitsValue 0 value < 2 ^ 32
  binding : ∀ value ∈ values .binding options, IsBinding value
  queueMode : values .queueMode options = []
  copied : ∀ query ∈ options, ∀ key, key = .name ∨ key = .sms →
    ∀ value, valueOf key query.bytes = some value → query.memory = true ∧ 0 ∉ value

/-! ### Keys -/

theorem strncmpEqual_eq (bytes keyword : List Byte) :
    strncmpEqual bytes keyword =
      if keyword <+: bytes then .ok true
      else if bytes <+: keyword then .error .outOfBoundsRead
      else .ok false := by
  induction bytes generalizing keyword with
  | nil =>
    cases keyword with
    | nil => rfl
    | cons c keyword =>
      rw [if_neg (by simp), if_pos List.nil_prefix]
      rfl
  | cons b bytes ih =>
    cases keyword with
    | nil =>
      rw [if_pos List.nil_prefix]
      rfl
    | cons c keyword =>
      unfold strncmpEqual
      by_cases hbc : b = c
      · subst hbc
        rw [if_pos rfl, ih]
        simp only [List.cons_prefix_cons, true_and]
      · rw [if_neg hbc, if_neg fun h => hbc (List.cons_prefix_cons.mp h).1.symm,
          if_neg fun h => hbc (List.cons_prefix_cons.mp h).1]
        rfl

variable {key key' : QueryKey} {bytes : List Byte} {query : QueryOption}

/-- No keyword starts with another one. -/
theorem QueryKey.eq_of_prefix (h : key.text <+: key'.text) : key = key' := by
  revert h
  cases key <;> cases key' <;> decide

/-- An option has at most one key. -/
theorem key_unique (h : key.text <+: bytes) (h' : key'.text <+: bytes) : key = key' := by
  rcases List.prefix_or_prefix_of_prefix h h' with hkey | hkey
  · exact QueryKey.eq_of_prefix hkey
  · exact (QueryKey.eq_of_prefix hkey).symm

/-- An option with a key does not end inside a keyword. -/
theorem not_truncated_of_key (h : key.text <+: query.bytes) :
    ¬ query.Truncated := by
  rintro ⟨key', hpre, hne⟩
  obtain rfl := QueryKey.eq_of_prefix (h.trans hpre)
  exact hne (hpre.eq_of_length_le h.length_le)

/-- The three outcomes of the comparisons. -/
theorem matchedKey_cases (bytes : List Byte) (keys : List QueryKey) :
    (∃ key ∈ keys, key.text <+: bytes ∧ matchedKey bytes keys = .ok (some key)) ∨
      (∃ key ∈ keys, (bytes <+: key.text ∧ bytes ≠ key.text) ∧
        matchedKey bytes keys = .error .outOfBoundsRead) ∨
      (∀ key ∈ keys, ¬ key.text <+: bytes ∧ ¬ bytes <+: key.text) ∧
        matchedKey bytes keys = .ok none := by
  induction keys with
  | nil => exact .inr (.inr ⟨nofun, rfl⟩)
  | cons key keys ih =>
    unfold matchedKey
    rw [strncmpEqual_eq]
    by_cases hkey : key.text <+: bytes
    · rw [if_pos hkey]
      exact .inl ⟨key, List.mem_cons_self, hkey, rfl⟩
    by_cases hshort : bytes <+: key.text
    · rw [if_neg hkey, if_pos hshort]
      exact .inr (.inl ⟨key, List.mem_cons_self,
        ⟨hshort, fun h => hkey (h ▸ List.prefix_rfl)⟩, rfl⟩)
    rw [if_neg hkey, if_neg hshort]
    rcases ih with ⟨key', hmem, h⟩ | ⟨key', hmem, h⟩ | ⟨hnone, h⟩
    · exact .inl ⟨key', List.mem_cons_of_mem _ hmem, h⟩
    · exact .inr (.inl ⟨key', List.mem_cons_of_mem _ hmem, h⟩)
    · exact .inr (.inr ⟨List.forall_mem_cons.mpr ⟨⟨hkey, hshort⟩, hnone⟩, h⟩)

theorem QueryKey.mem_all (key : QueryKey) : key ∈ QueryKey.all := by
  cases key <;> decide

theorem valueOf_eq_some_iff {value : List Byte} :
    valueOf key bytes = some value ↔ bytes = key.text ++ value := by
  unfold valueOf
  constructor
  · intro h
    split_ifs at h with hpre
    cases h
    obtain ⟨value, rfl⟩ := hpre
    rw [List.drop_left]
  · rintro rfl
    rw [if_pos (List.prefix_append _ _), List.drop_left]

/-- **What the comparisons of an option come to**: it has a key, or ends inside a keyword, or is no
parameter. -/
theorem matchedKey_all (query : QueryOption) :
    (∃ key value, query.bytes = key.text ++ value ∧
        matchedKey query.bytes QueryKey.all = .ok (some key)) ∨
      (query.Truncated ∧ matchedKey query.bytes QueryKey.all = .error .outOfBoundsRead) ∨
      (∀ key, valueOf key query.bytes = none) ∧ ¬ query.Truncated ∧
        matchedKey query.bytes QueryKey.all = .ok none := by
  rcases matchedKey_cases query.bytes QueryKey.all with
    ⟨key, -, hkey, h⟩ | ⟨key, -, hshort, h⟩ | ⟨hnone, h⟩
  · obtain ⟨value, hvalue⟩ := hkey
    exact .inl ⟨key, value, hvalue.symm, h⟩
  · exact .inr (.inl ⟨⟨key, hshort⟩, h⟩)
  · exact .inr (.inr ⟨fun key => if_neg (hnone key key.mem_all).1,
      fun ⟨key, hshort, _⟩ => (hnone key key.mem_all).2 hshort, h⟩)

/-! ### The state of the loop -/

/-- The parameters as they are behind the options. -/
def described (options : List QueryOption) : Parameters where
  name := (values .name (options.filter (·.memory))).head?.map (· ++ [0])
  lifetime := UInt32.ofNat (lastLifetime options)
  msisdn := (values .sms (options.filter (·.memory))).head?.map (· ++ [0])
  binding := (values .binding options).foldl (fun b text => b ||| utilsStringToBinding text) 0 |||
    (if values .queueMode options = [] then 0 else bindingQ)
  version := ((values .version options).head?.map utilsStringToVersion).getD .missing

section state

variable {before options : List QueryOption} {query : QueryOption} {key : QueryKey}
  {value : List Byte}

theorem values_append (key : QueryKey) (l l' : List QueryOption) :
    values key (l ++ l') = values key l ++ values key l' := List.filterMap_append

theorem values_concat_of_some (before : List QueryOption)
    (h : valueOf key query.bytes = some value) :
    values key (before ++ [query]) = values key before ++ [value] := by
  rw [values_append]
  simp [values, h]

theorem values_concat_of_none (before : List QueryOption)
    (h : valueOf key query.bytes = none) :
    values key (before ++ [query]) = values key before := by
  rw [values_append]
  simp [values, h]

theorem valueOf_eq_none (h : valueOf key query.bytes = some value) (hne : key' ≠ key) :
    valueOf key' query.bytes = none := by
  refine if_neg fun hpre => hne (key_unique hpre ?_)
  rw [valueOf_eq_some_iff.mp h]
  exact List.prefix_append _ _

/-- The values of the options that can be copied. -/
theorem values_filter_concat :
    values key ((before ++ [query]).filter (·.memory)) =
      values key (before.filter (·.memory)) ++
        (if query.memory then (valueOf key query.bytes).toList else []) := by
  rw [List.filter_append, values_append]
  cases hmemory : query.memory <;> cases hvalue : valueOf key query.bytes <;>
    simp [values, hmemory, hvalue]

/-- An option that is no parameter changes nothing. -/
theorem described_concat_of_none (h : ∀ key, valueOf key query.bytes = none) :
    described (before ++ [query]) = described before := by
  have hvalues (key : QueryKey) := values_concat_of_none before (h key)
  have hcopied (key : QueryKey) : values key ((before ++ [query]).filter (·.memory)) =
      values key (before.filter (·.memory)) := by
    rw [values_filter_concat, h key]
    simp
  simp only [described, lastLifetime, hvalues, hcopied]

theorem lifetimeLoop_eq (lifetime : UInt32) (digits : List Byte) :
    lifetimeLoop lifetime digits =
      if digits.all isDigit then some (UInt32.ofNat (digitsValue lifetime.toNat digits))
      else none := by
  induction digits generalizing lifetime with
  | nil => simp [lifetimeLoop, digitsValue]
  | cons b digits ih =>
    unfold lifetimeLoop
    by_cases hdigit : isDigit b = true
    · have hbounds : 0x30 ≤ b ∧ b ≤ 0x39 := by simpa [isDigit] using hdigit
      have hnot : ¬ (b < 0x30 ∨ b > 0x39) := by
        rintro (h | h)
        · exact absurd hbounds.1 (UInt8.not_le.mpr h)
        · exact absurd hbounds.2 (UInt8.not_le.mpr h)
      have hsub : (b - 0x30).toUInt32.toNat = b.toNat - 48 := by
        rw [UInt8.toNat_toUInt32, UInt8.toNat_sub_of_le _ _ hbounds.1]
        rfl
      have hmod : (lifetime * 10 + (b - 0x30).toUInt32).toNat % 2 ^ 32 =
          (10 * lifetime.toNat + (b.toNat - 48)) % 2 ^ 32 := by
        have hten : (10 : UInt32).toNat = 10 := rfl
        rw [UInt32.toNat_add, UInt32.toNat_mul, hsub, hten]
        omega
      rw [if_neg hnot, ih]
      simp only [List.all_cons, hdigit, Bool.true_and]
      split_ifs
      · refine congrArg some (UInt32.toNat_inj.mp ?_)
        rw [UInt32.toNat_ofNat', UInt32.toNat_ofNat']
        exact digitsValue_mod hmod digits
      · rfl
    · have hnot : b < 0x30 ∨ b > 0x39 := by
        by_contra hbounds
        rw [not_or, UInt8.not_lt, gt_iff_lt, UInt8.not_lt] at hbounds
        exact hdigit (by simpa [isDigit] using hbounds)
      rw [if_pos hnot]
      simp [hdigit]

variable {mask : UInt8} {text : List Byte}

theorem sets_foldl {texts : List (List Byte)} {binding : UInt8} :
    Sets (texts.foldl (fun b text => b ||| utilsStringToBinding text) binding) mask ↔
      Sets binding mask ∨ ∃ text ∈ texts, Sets (utilsStringToBinding text) mask := by
  induction texts generalizing binding with
  | nil => simp
  | cons text texts ih =>
    simp only [List.foldl_cons, ih, sets_or, List.mem_cons, exists_eq_or_imp, or_assoc]

/-- A letter's flag is in a text that is read exactly when the text is a binding with the letter. -/
theorem sets_utilsStringToBinding_iff (hunknown : ¬ Sets bindingUnknown mask) :
    Sets (utilsStringToBinding text) mask ↔ IsBinding text ∧ Sets (bindingFlags text) mask := by
  rw [utilsStringToBinding_eq]
  split_ifs with h
  · simp only [sets_or, hunknown, false_or, h, true_and]
  · simp only [hunknown, h, false_and]

/-- The flag of the queue mode comes from its letter. -/
theorem sets_bindingQ_iff : Sets (bindingFlags text) bindingQ ↔ 0x51 ∈ text := by
  rw [sets_bindingFlags_iff]
  constructor
  · rintro ⟨letter, hletter, flag, hflag, hsets⟩
    unfold bindingFlag at hflag
    split_ifs at hflag with hN hQ <;> cases hflag
    · exact absurd hsets (by decide)
    · exact hQ ▸ hletter
    · exact absurd hsets (by decide)
    · exact absurd hsets (by decide)
    · exact absurd hsets (by decide)
  · exact fun h => ⟨0x51, h, bindingQ, rfl, by decide⟩

/-- The flags that the version 1.0 excludes come from their letters. -/
theorem sets_bindingTN_iff :
    Sets (bindingFlags text) (bindingT ||| bindingN) ↔ 0x54 ∈ text ∨ 0x4E ∈ text := by
  rw [sets_bindingFlags_iff]
  constructor
  · rintro ⟨letter, hletter, flag, hflag, hsets⟩
    unfold bindingFlag at hflag
    split_ifs at hflag with hN hQ hS hT <;> cases hflag
    · exact .inr (hN ▸ hletter)
    · exact absurd hsets (by decide)
    · exact absurd hsets (by decide)
    · exact .inl (hT ▸ hletter)
    · exact absurd hsets (by decide)
  · rintro (h | h)
    · exact ⟨_, h, bindingT, rfl, by decide⟩
    · exact ⟨_, h, bindingN, rfl, by decide⟩

/-- The flags of the parameters come from the bindings read, and from the queue mode. -/
theorem sets_described_binding :
    Sets (described options).binding mask ↔
      (∃ text ∈ values .binding options, Sets (utilsStringToBinding text) mask) ∨
        values .queueMode options ≠ [] ∧ Sets bindingQ mask := by
  have hzero (mask : UInt8) : ¬ Sets 0 mask := fun h => h UInt8.zero_and
  simp only [described, sets_or, sets_foldl, hzero, false_or]
  refine or_congr_right ?_
  split_ifs with hqueue
  · simp [hqueue, hzero]
  · simp [hqueue]

theorem spelledVersion_eq (h : value ≠ []) : utilsStringToVersion value = spelledVersion value := by
  unfold utilsStringToVersion spelledVersion
  rw [if_neg (by simpa using h)]
  split
  · rename_i major point minor
    simp only [List.cons.injEq, and_true]
    by_cases hpoint : point = 0x2E <;> by_cases hmajor : major = 0x31 <;> simp [hpoint, hmajor]
  · rename_i hshape
    rw [if_neg fun heq => hshape _ _ _ heq, if_neg fun heq => hshape _ _ _ heq]

theorem utilsStringToVersion_ne_missing (h : value ≠ []) :
    utilsStringToVersion value ≠ .missing := by
  rw [spelledVersion_eq h]
  unfold spelledVersion
  split_ifs <;> decide

/-- A branch that refuses what is repeated and what is not filled. -/
theorem refusal {α : Type} {refused repeated unfilled : Prop} [Decidable repeated]
    [Decidable unfilled] {x : Option α} {y : α} (hrefused : refused ↔ repeated ∨ unfilled)
    (hstore : ¬ repeated → ¬ unfilled → x = some y) :
    (refused ∧ (if repeated then none else if unfilled then none else x) = none) ∨
      ¬ refused ∧ (if repeated then none else if unfilled then none else x) = some y := by
  by_cases hrepeated : repeated
  · exact .inl ⟨hrefused.mpr (.inl hrepeated), if_pos hrepeated⟩
  by_cases hunfilled : unfilled
  · exact .inl ⟨hrefused.mpr (.inr hunfilled), by rw [if_neg hrepeated, if_pos hunfilled]⟩
  refine .inr ⟨fun h => (hrefused.mp h).elim hrepeated hunfilled, ?_⟩
  rw [if_neg hrepeated, if_neg hunfilled]
  exact hstore hrepeated hunfilled

/-- **One parameter**: it is refused, or the parameters are those behind one option more. -/
theorem storeParameter_described (hvalue : valueOf key query.bytes = some value)
    (hfilled : ∀ text ∈ values .version before, text ≠ []) :
    (RefusedValue before value key ∧ storeParameter (described before) query key = none) ∨
      ¬ RefusedValue before value key ∧
        storeParameter (described before) query key = some (described (before ++ [query])) := by
  have hbytes := valueOf_eq_some_iff.mp hvalue
  have hdrop : query.bytes.drop key.text.length = value := by rw [hbytes, List.drop_left]
  have hempty : query.bytes.length = key.text.length ↔ value = [] := by
    rw [hbytes, List.length_append, Nat.add_eq_left, List.length_eq_zero_iff]
  have hsome := values_concat_of_some before hvalue
  -- the values of the other keys are those behind the options before
  have hnone (key' : QueryKey) (hne : key' ≠ key) :=
    values_concat_of_none before (valueOf_eq_none hvalue hne)
  have hcopied (key' : QueryKey) (hne : key' ≠ key) :
      values key' ((before ++ [query]).filter (·.memory)) =
        values key' (before.filter (·.memory)) := by
    rw [values_filter_concat, valueOf_eq_none hvalue hne]
    simp
  have hcopy : values key ((before ++ [query]).filter (·.memory)) =
      values key (before.filter (·.memory)) ++ if query.memory then [value] else [] := by
    rw [values_filter_concat, hvalue]
    rfl
  unfold storeParameter
  rw [hdrop]
  cases key with
  | name =>
    have hset : (described before).name ≠ none ↔ values .name (before.filter (·.memory)) ≠ [] := by
      simp [described]
    refine refusal (or_comm.trans (or_congr hset.symm hempty.symm)) fun hrepeated _ => ?_
    have hfirst := not_not.mp (mt hset.mpr hrepeated)
    simp only [described, lastLifetime, hcopied .sms (by decide), hnone .lifetime (by decide),
      hnone .binding (by decide), hnone .queueMode (by decide), hnone .version (by decide), hcopy,
      hfirst, copyValue]
    cases query.memory <;> rfl
  | sms =>
    have hset : (described before).msisdn ≠ none ↔ values .sms (before.filter (·.memory)) ≠ [] := by
      simp [described]
    refine refusal (or_comm.trans (or_congr hset.symm hempty.symm)) fun hrepeated _ => ?_
    have hfirst := not_not.mp (mt hset.mpr hrepeated)
    simp only [described, lastLifetime, hcopied .name (by decide), hnone .lifetime (by decide),
      hnone .binding (by decide), hnone .queueMode (by decide), hnone .version (by decide), hcopy,
      hfirst, copyValue]
    cases query.memory <;> rfl
  | lifetime =>
    have hlt : lastLifetime before < 2 ^ 32 := Nat.mod_lt _ (by decide)
    have hset : (described before).lifetime ≠ 0 ↔ lastLifetime before ≠ 0 := by
      refine not_congr ?_
      rw [← UInt32.toNat_inj]
      change (UInt32.ofNat (lastLifetime before)).toNat = 0 ↔ _
      rw [UInt32.toNat_ofNat', Nat.mod_eq_of_lt hlt]
    dsimp only
    rw [lifetimeLoop_eq]
    by_cases hdigits : value.all isDigit = true
    · rw [if_pos hdigits]
      have hrefused : RefusedValue before value .lifetime ↔
          (described before).lifetime ≠ 0 ∨ query.bytes.length = QueryKey.lifetime.text.length := by
        rw [hempty, hset, or_comm]
        exact or_congr_right (or_iff_right (not_not.mpr hdigits))
      refine refusal hrefused fun hrepeated _ => ?_
      have hlast : UInt32.ofNat (digitsValue (described before).lifetime.toNat value) =
          UInt32.ofNat (lastLifetime (before ++ [query])) := by
        rw [not_not.mp hrepeated, ← UInt32.toNat_inj, UInt32.toNat_ofNat', UInt32.toNat_ofNat',
          lastLifetime, hsome]
        simp
      simp only [Option.map_some, hlast]
      simp only [described, hcopied .sms (by decide), hcopied .name (by decide),
        hnone .binding (by decide), hnone .queueMode (by decide), hnone .version (by decide)]
    · rw [if_neg hdigits]
      refine .inl ⟨.inr (.inl hdigits), ?_⟩
      split_ifs <;> rfl
  | version =>
    have hset : (described before).version ≠ .missing ↔ values .version before ≠ [] := by
      simp only [described]
      cases hversions : values .version before with
      | nil => simp
      | cons text texts =>
        have htext := hfilled text (by rw [hversions]; exact List.mem_cons_self)
        simp [utilsStringToVersion_ne_missing htext]
    refine refusal (or_comm.trans (or_congr hset.symm hempty.symm)) fun hrepeated _ => ?_
    have hfirst := not_not.mp (mt hset.mpr hrepeated)
    simp only [described, lastLifetime, hcopied .name (by decide), hcopied .sms (by decide),
      hnone .lifetime (by decide), hnone .binding (by decide), hnone .queueMode (by decide), hsome,
      hfirst]
    rfl
  | binding =>
    have hset : Sets (described before).binding (~~~bindingQ) ↔ values .binding before ≠ [] := by
      rw [sets_described_binding]
      constructor
      · rintro (⟨text, htext, -⟩ | ⟨-, h⟩)
        · exact List.ne_nil_of_mem htext
        · exact absurd h (by decide)
      · intro h
        obtain ⟨text, htext⟩ := List.exists_mem_of_ne_nil _ h
        refine .inl ⟨text, htext, ?_⟩
        rw [utilsStringToBinding_eq]
        split_ifs
        · exact sets_or.mpr (.inl (by decide))
        · decide
    refine refusal (or_comm.trans (or_congr hset.symm hempty.symm)) fun _ _ => ?_
    simp only [described, lastLifetime, hcopied .name (by decide), hcopied .sms (by decide),
      hnone .lifetime (by decide), hnone .version (by decide), hnone .queueMode (by decide), hsome,
      List.foldl_append, List.foldl_cons, List.foldl_nil]
    rw [UInt8.or_assoc, UInt8.or_assoc, UInt8.or_comm (utilsStringToBinding value)]
  | queueMode =>
    have hset : Sets (described before).binding bindingQ ↔ values .queueMode before ≠ [] ∨
        ∃ text ∈ values .binding before, IsBinding text ∧ 0x51 ∈ text := by
      rw [sets_described_binding, or_comm]
      refine or_congr (and_iff_left (by decide)) (exists_congr fun text =>
        and_congr_right fun _ => ?_)
      rw [sets_utilsStringToBinding_iff (by decide), sets_bindingQ_iff]
    have hlength : query.bytes.length ≠ QueryKey.binding.text.length ↔ value.length ≠ 1 := by
      rw [hbytes, List.length_append]
      change 1 + value.length ≠ 2 ↔ _
      omega
    refine refusal (or_comm.trans (or_congr hset.symm hlength.symm)) fun hrepeated _ => ?_
    have hfirst : values .queueMode before = [] := by
      by_contra h
      exact hrepeated (hset.mpr (.inl h))
    simp only [described, lastLifetime, hcopied .name (by decide), hcopied .sms (by decide),
      hnone .lifetime (by decide), hnone .version (by decide), hnone .binding (by decide), hsome,
      hfirst]
    simp

/-- An option that is no parameter is not refused. -/
theorem not_refused_of_none (before : List QueryOption)
    (h : ∀ key, valueOf key query.bytes = none) :
    ¬ RefusedOption before query := by
  rintro ⟨key, value, hvalue, -⟩
  rw [h key] at hvalue
  cases hvalue

/-- An option with a key is refused when its value is. -/
theorem refused_iff (before : List QueryOption)
    (hvalue : valueOf key query.bytes = some value) :
    RefusedOption before query ↔ RefusedValue before value key := by
  constructor
  · rintro ⟨key', value', hvalue', hrefused⟩
    by_cases hkey : key' = key
    · subst hkey
      obtain rfl := Option.some.inj (hvalue'.symm.trans hvalue)
      exact hrefused
    · rw [valueOf_eq_none hvalue hkey] at hvalue'
      cases hvalue'
  · exact fun h => ⟨key, value, hvalue, h⟩

/-- The versions that are not refused are not empty. -/
theorem filled_concat (hfilled : ∀ text ∈ values .version before, text ≠ [])
    (hrefused : ¬ RefusedOption before query) :
    ∀ text ∈ values .version (before ++ [query]), text ≠ [] := by
  cases hvalue : valueOf .version query.bytes with
  | none =>
    rw [values_concat_of_none _ hvalue]
    exact hfilled
  | some value =>
    rw [values_concat_of_some _ hvalue]
    intro text htext
    rcases List.mem_append.mp htext with htext | htext
    · exact hfilled text htext
    · rintro rfl
      obtain rfl := List.mem_singleton.mp htext
      exact hrefused ⟨_, _, hvalue, .inl rfl⟩

/-- **The loop over the options.**  It reads outside an option when one that is reached ends inside
a keyword; else it ends with an error when an option is refused, and with what is described when
none is. -/
theorem parametersLoop_described (before next : List QueryOption)
    (hfilled : ∀ text ∈ values .version before, text ≠ []) :
    match parametersLoop (described before) next with
    | .error _ => ¬ NoneTruncated before next
    | .ok none => NoneTruncated before next ∧ ¬ NoneRefused before next
    | .ok (some p) => NoneTruncated before next ∧ NoneRefused before next ∧
        p = described (before ++ next) := by
  induction next generalizing before with
  | nil => exact ⟨trivial, trivial, by rw [List.append_nil]⟩
  | cons query next ih =>
    unfold parametersLoop NoneTruncated NoneRefused
    rcases matchedKey_all query with ⟨key, value, hbytes, hmatched⟩ | ⟨htruncated, hmatched⟩ |
      ⟨hother, htruncated, hmatched⟩
    · have hvalue : valueOf key query.bytes = some value := valueOf_eq_some_iff.mpr hbytes
      have htruncated : ¬ query.Truncated :=
        not_truncated_of_key (hbytes ▸ List.prefix_append key.text value)
      have hiff := refused_iff before hvalue
      rw [hmatched, ok_bind]
      dsimp only
      rcases storeParameter_described hvalue hfilled with ⟨hrefused, hstore⟩ | ⟨hrefused, hstore⟩
      · rw [hstore]
        have hquery := hiff.mpr hrefused
        exact ⟨⟨htruncated, fun h => absurd hquery h⟩, fun h => h.1 hquery⟩
      · rw [hstore]
        have hquery := mt hiff.mp hrefused
        have hnext := ih _ (filled_concat hfilled hquery)
        rw [List.append_assoc, List.singleton_append] at hnext
        simp only [htruncated, hquery, not_false_eq_true, true_and, forall_const]
        exact hnext
    · rw [hmatched]
      exact fun h => h.1 htruncated
    · have hquery := not_refused_of_none before hother
      have hnext := ih _ (filled_concat hfilled hquery)
      rw [described_concat_of_none hother, List.append_assoc, List.singleton_append] at hnext
      rw [hmatched, ok_bind]
      simp only [htruncated, hquery, not_false_eq_true, true_and, forall_const]
      exact hnext

end state

/-! ### What is accepted -/

section accepted

variable {before options : List QueryOption}

variable {l l' : List QueryOption}

/-- Every option of an accepted query was accepted behind those before it. -/
theorem NoneRefused.split {next : List QueryOption} (h : NoneRefused before next)
    (hnext : next = l ++ query :: l') :
    ¬ RefusedOption (before ++ l) query := by
  induction l generalizing before next with
  | nil =>
    subst hnext
    rw [List.append_nil]
    exact h.1
  | cons first l ih =>
    subst hnext
    have hrest := ih h.2 rfl
    rwa [List.append_assoc, List.singleton_append] at hrest

/-- A key whose second option is refused has one value. -/
theorem length_values_le_one
    (h : ∀ l₁ query l₂, l = l₁ ++ query :: l₂ → (valueOf key query.bytes).isSome →
      values key l₁ = []) : (values key l).length ≤ 1 := by
  induction l using List.reverseRecOn with
  | nil => exact Nat.zero_le 1
  | append_singleton l query ih =>
    cases hvalue : valueOf key query.bytes with
    | none =>
      rw [values_concat_of_none _ hvalue]
      exact ih fun l₁ query' l₂ hl => h l₁ query' (l₂ ++ [query]) (by rw [hl]; simp)
    | some value =>
      rw [values_concat_of_some _ hvalue, h l query [] rfl (by rw [hvalue]; rfl)]
      exact Nat.le_refl 1

/-- The value of an accepted option is not refused. -/
theorem NoneRefused.value (h : NoneRefused [] options) (hoptions : options = l ++ query :: l')
    {value : List Byte} (hvalue : valueOf key query.bytes = some value) :
    ¬ RefusedValue l value key := by
  have hquery := h.split hoptions
  rw [List.nil_append] at hquery
  exact fun hrefused => hquery ⟨key, value, hvalue, hrefused⟩

/-- A value of the options comes from one of them. -/
theorem exists_split_of_mem_values {value : List Byte} (h : value ∈ values key options) :
    ∃ l query l', options = l ++ query :: l' ∧ valueOf key query.bytes = some value := by
  obtain ⟨query, hquery, hvalue⟩ := List.mem_filterMap.mp h
  obtain ⟨l, l', hsplit⟩ := List.append_of_mem hquery
  exact ⟨l, query, l', hsplit, hvalue⟩

/-- An accepted query is filled. -/
theorem NoneRefused.filled (h : NoneRefused [] options) (key : QueryKey) (hkey : key ≠ .queueMode)
    {value : List Byte} (hvalue : value ∈ values key options) : value ≠ [] := by
  obtain ⟨l, query, l', hsplit, hvalue⟩ := exists_split_of_mem_values hvalue
  have hrefused := h.value hsplit hvalue
  rintro rfl
  cases key
  case queueMode => exact hkey rfl
  all_goals exact hrefused (.inl rfl)

/-- An accepted query has one version, one binding and one queue mode. -/
theorem NoneRefused.once (h : NoneRefused [] options)
    (hkey : key = .version ∨ key = .binding ∨ key = .queueMode) :
    (values key options).length ≤ 1 := by
  refine length_values_le_one fun l₁ query l₂ hsplit hsome => ?_
  obtain ⟨value, hvalue⟩ := Option.isSome_iff_exists.mp hsome
  have hrefused := h.value hsplit hvalue
  by_contra hne
  rcases hkey with rfl | rfl | rfl
  · exact hrefused (.inr hne)
  · exact hrefused (.inr hne)
  · exact hrefused (.inr (.inl hne))

/-- An accepted query whose strings can be copied has one name and one telephone number. -/
theorem NoneRefused.once_copied (h : NoneRefused [] options) (hkey : key = .name ∨ key = .sms)
    (hmemory : ∀ query ∈ options, ∀ value, valueOf key query.bytes = some value →
      query.memory = true) : (values key options).length ≤ 1 := by
  refine length_values_le_one fun l₁ query l₂ hsplit hsome => ?_
  obtain ⟨value, hvalue⟩ := Option.isSome_iff_exists.mp hsome
  have hrefused := h.value hsplit hvalue
  by_contra hne
  -- an earlier value has memory, so it stays behind the filter
  obtain ⟨earlier, hearlier⟩ := List.exists_mem_of_ne_nil _ hne
  obtain ⟨first, hfirst, hfirstValue⟩ := List.mem_filterMap.mp hearlier
  have hcopied : earlier ∈ values key (l₁.filter (·.memory)) := by
    refine List.mem_filterMap.mpr ⟨first, List.mem_filter.mpr ⟨hfirst, ?_⟩, hfirstValue⟩
    exact hmemory first (by rw [hsplit]; exact List.mem_append_left _ hfirst) _ hfirstValue
  rcases hkey with rfl | rfl <;> exact hrefused (.inr (List.ne_nil_of_mem hcopied))

/-- An accepted query that excludes its binding. -/
theorem NoneRefused.excludes_iff (h : NoneRefused [] options) :
    ((described options).version = .v1_0 ∧
        Sets (described options).binding (bindingT ||| bindingN)) ↔
      VersionExcludesBinding options := by
  have honce := h.once (.inl rfl)
  refine and_congr ?_ ?_
  · simp only [described]
    cases hversions : values .version options with
    | nil => simp
    | cons text texts =>
      rw [hversions, List.length_cons] at honce
      obtain rfl : texts = [] := List.length_eq_zero_iff.mp (by omega)
      have htext : text ≠ [] := h.filled .version (by decide) (by
        rw [hversions]
        exact List.mem_cons_self)
      simp only [List.head?_cons, Option.map_some, Option.getD_some, spelledVersion_eq htext,
        List.mem_singleton]
      unfold spelledVersion
      split_ifs with hone hother
      · exact ⟨fun _ => hone.symm, fun _ => rfl⟩
      · exact ⟨nofun, fun h => absurd h.symm hone⟩
      · exact ⟨nofun, fun h => absurd h.symm hone⟩
  · rw [sets_described_binding]
    constructor
    · rintro (⟨text, htext, hsets⟩ | ⟨-, hsets⟩)
      · rw [sets_utilsStringToBinding_iff (by decide), sets_bindingTN_iff] at hsets
        exact ⟨text, htext, hsets⟩
      · exact absurd hsets (by decide)
    · rintro ⟨text, htext, hsets⟩
      refine .inl ⟨text, htext, ?_⟩
      rwa [sets_utilsStringToBinding_iff (by decide), sets_bindingTN_iff]

/-! ### What they are returned as -/

/-- A copy is read as the string that was copied exactly when that has no NUL. -/
theorem takeWhile_concat_zero_iff {value : List Byte} :
    (value ++ [0]).takeWhile (· ≠ 0) = value ↔ 0 ∉ value := by
  constructor
  · intro h hmem
    rw [← h] at hmem
    exact absurd (List.mem_takeWhile_imp hmem) (by decide)
  · intro h
    rw [List.takeWhile_append_of_pos fun b hb => by
      simpa using fun heq : b = 0 => h (heq ▸ hb)]
    simp

/-- The one value of a key. -/
theorem values_eq_singleton {value : List Byte} (honce : (values key options).length ≤ 1)
    (hsplit : options = l ++ query :: l') (hvalue : valueOf key query.bytes = some value) :
    values key l = [] ∧ values key l' = [] ∧ values key options = [value] := by
  have heq : values key options = values key l ++ value :: values key l' := by
    rw [hsplit, values_append]
    simp [values, hvalue]
  rw [heq, List.length_append, List.length_cons] at honce
  have hl : values key l = [] := List.length_eq_zero_iff.mp (by omega)
  have hl' : values key l' = [] := List.length_eq_zero_iff.mp (by omega)
  exact ⟨hl, hl', by rw [heq, hl, hl']; rfl⟩

theorem values_filter_sublist (key : QueryKey) (l : List QueryOption) :
    (values key (l.filter (·.memory))).Sublist (values key l) :=
  List.filter_sublist.filterMap _

/-- **A string is returned as it is spelled** exactly when it is copied, without NUL. -/
theorem copied_iff (honce : (values key options).length ≤ 1) :
    ((values key (options.filter (·.memory))).head?.map (· ++ [0])).map
        (List.takeWhile (· ≠ 0)) = (values key options).head? ↔
      ∀ query ∈ options, ∀ value, valueOf key query.bytes = some value →
        query.memory = true ∧ 0 ∉ value := by
  constructor
  · intro h query hquery value hvalue
    obtain ⟨l, l', hsplit⟩ := List.append_of_mem hquery
    obtain ⟨hl, hl', hsingle⟩ := values_eq_singleton honce hsplit hvalue
    have hfiltered : values key (options.filter (·.memory)) =
        if query.memory then [value] else [] := by
      have hnil {m : List QueryOption} (hm : values key m = []) :
          values key (m.filter (·.memory)) = [] :=
        List.sublist_nil.mp (hm ▸ values_filter_sublist key m)
      rw [hsplit, List.filter_append, List.filter_cons, values_append, hnil hl]
      cases hmemory : query.memory
      · exact hnil hl'
      · have hcons := values_append key [query] (l'.filter (·.memory))
        rw [hnil hl'] at hcons
        simpa [values, hvalue] using hcons
    rw [hfiltered, hsingle] at h
    cases hmemory : query.memory with
    | false =>
      rw [hmemory] at h
      cases h
    | true =>
      rw [hmemory] at h
      exact ⟨rfl, takeWhile_concat_zero_iff.mp (Option.some.inj h)⟩
  · intro h
    have hfiltered : values key (options.filter (·.memory)) = values key options := by
      refine List.Sublist.eq_of_length_le (values_filter_sublist key options) ?_
      by_cases hnil : values key options = []
      · rw [hnil]
        exact Nat.zero_le _
      · obtain ⟨value, hmem⟩ := List.exists_mem_of_ne_nil _ hnil
        obtain ⟨query, hquery, hvalue⟩ := List.mem_filterMap.mp hmem
        have hcopied : value ∈ values key (options.filter (·.memory)) :=
          List.mem_filterMap.mpr
            ⟨query, List.mem_filter.mpr ⟨hquery, (h query hquery value hvalue).1⟩, hvalue⟩
        exact honce.trans (List.length_pos_of_mem hcopied)
    rw [hfiltered]
    cases hvalues : values key options with
    | nil => rfl
    | cons value rest =>
      have hmem : value ∈ values key options := hvalues ▸ List.mem_cons_self
      obtain ⟨query, hquery, hvalue⟩ := List.mem_filterMap.mp hmem
      exact congrArg some (takeWhile_concat_zero_iff.mpr (h query hquery value hvalue).2)

/-- The flags of a text behind the flag of an unknown binding. -/
theorem or_unknown_and {flags : UInt8} (h : ¬ Sets flags bindingUnknown) :
    (bindingUnknown ||| flags) &&& ~~~bindingUnknown = flags := by
  have hbits : ∀ x : BitVec 8, x &&& 1#8 = 0#8 → (1#8 ||| x) &&& ~~~1#8 = x := by decide +kernel
  have hflags : flags &&& bindingUnknown = 0 := not_not.mp h
  rw [← UInt8.toBitVec_inj] at hflags ⊢
  exact hbits flags.toBitVec hflags

/-- What `prv_getParameters` makes of the parameters behind the options. -/
def finished (p : Parameters) : Parameters :=
  if p.binding = 0 then { p with binding := bindingUnknown } else p

@[simp] theorem finished_name (p : Parameters) : (finished p).name = p.name := by
  unfold finished
  split_ifs <;> rfl

@[simp] theorem finished_lifetime (p : Parameters) : (finished p).lifetime = p.lifetime := by
  unfold finished
  split_ifs <;> rfl

@[simp] theorem finished_msisdn (p : Parameters) : (finished p).msisdn = p.msisdn := by
  unfold finished
  split_ifs <;> rfl

@[simp] theorem finished_version (p : Parameters) : (finished p).version = p.version := by
  unfold finished
  split_ifs <;> rfl

theorem finished_binding (p : Parameters) :
    (finished p).binding = if p.binding = 0 then bindingUnknown else p.binding := by
  unfold finished
  split_ifs <;> rfl

/-- **An accepted query is well formed and returned as it is spelled** exactly when it is precise.
-/
theorem NoneRefused.spells_iff (h : NoneRefused [] options) :
    (WellFormed options ∧ Spells options (finished (described options))) ↔ Precise options := by
  constructor
  · rintro ⟨hformed, hspells⟩
    have hname := (copied_iff (hformed.once .name)).mp (by
      have hname := hspells.name
      rwa [finished_name] at hname)
    have hsms := (copied_iff (hformed.once .sms)).mp (by
      have hmsisdn := hspells.msisdn
      rwa [finished_msisdn] at hmsisdn)
    refine ⟨hformed.once .lifetime, fun value hvalue => (hformed.lifetime value hvalue).2,
      hformed.binding, ?_, ?_⟩
    · refine List.eq_nil_iff_forall_not_mem.mpr fun value hmem => ?_
      obtain ⟨l, query, l', hsplit, hvalue⟩ := exists_split_of_mem_values hmem
      refine h.value hsplit hvalue (.inl ?_)
      rw [hformed.queueMode value hmem]
      decide
    · rintro query hquery key (rfl | rfl) value hvalue
      · exact hname query hquery value hvalue
      · exact hsms query hquery value hvalue
  · intro hprecise
    have hcopied {key : QueryKey} (hkey : key = .name ∨ key = .sms) :
        ∀ query ∈ options, ∀ value, valueOf key query.bytes = some value →
          query.memory = true ∧ 0 ∉ value :=
      fun query hquery value hvalue => hprecise.copied query hquery key hkey value hvalue
    have honce (key : QueryKey) : (values key options).length ≤ 1 := by
      have hstring {key : QueryKey} (hkey : key = .name ∨ key = .sms) :=
        h.once_copied hkey fun query hquery value hvalue =>
          (hcopied hkey query hquery value hvalue).1
      cases key with
      | name => exact hstring (.inl rfl)
      | sms => exact hstring (.inr rfl)
      | lifetime => exact hprecise.once
      | version => exact h.once (.inl rfl)
      | binding => exact h.once (.inr (.inl rfl))
      | queueMode => exact h.once (.inr (.inr rfl))
    refine ⟨⟨honce, fun key hkey value hvalue => h.filled key hkey hvalue, fun value hmem => ?_,
      hprecise.binding, ?_⟩, ?_⟩
    · obtain ⟨l, query, l', hsplit, hvalue⟩ := exists_split_of_mem_values hmem
      refine ⟨?_, hprecise.lifetime value hmem⟩
      by_contra hdigits
      exact h.value hsplit hvalue (.inr (.inl hdigits))
    · rw [hprecise.queueMode]
      nofun
    · have hbinding : (described options).binding =
          (values .binding options).foldl (fun b text => b ||| utilsStringToBinding text) 0 := by
        simp [described, hprecise.queueMode]
      refine ⟨?_, ?_, ?_, ?_, ?_⟩
      · rw [finished_name]
        exact (copied_iff (honce .name)).mpr (hcopied (.inl rfl))
      · have hlt := hprecise.lifetime
        have hone := honce .lifetime
        rw [finished_lifetime]
        simp only [described, lastLifetime]
        cases hvalues : values .lifetime options with
        | nil => rfl
        | cons value rest =>
          rw [hvalues, List.length_cons] at hone
          obtain rfl : rest = [] := List.length_eq_zero_iff.mp (by omega)
          have hsmall := hlt value (hvalues ▸ List.mem_cons_self)
          simp only [List.getLast?_singleton, List.head?_cons, Option.map_some, Option.getD_some]
          rw [UInt32.toNat_ofNat', Nat.mod_mod, Nat.mod_eq_of_lt hsmall]
      · rw [finished_msisdn]
        exact (copied_iff (honce .sms)).mpr (hcopied (.inr rfl))
      · rw [finished_version]
        simp only [described]
        cases hvalues : values .version options with
        | nil => rfl
        | cons value rest =>
          have hfilled : value ≠ [] := h.filled .version (by decide) (by
            rw [hvalues]
            exact List.mem_cons_self)
          simp only [List.head?_cons, Option.map_some, Option.getD_some, spelledVersion_eq hfilled]
      · rw [finished_binding, hbinding, hprecise.queueMode]
        have hone := honce .binding
        cases hvalues : values .binding options with
        | nil => simp
        | cons text rest =>
          rw [hvalues, List.length_cons] at hone
          obtain rfl : rest = [] := List.length_eq_zero_iff.mp (by omega)
          have htext : IsBinding text := hprecise.binding text (hvalues ▸ List.mem_cons_self)
          have hne : utilsStringToBinding text ≠ 0 := fun hzero =>
            sets_unknown text (by rw [hzero, UInt8.zero_and])
          simp only [List.foldl_cons, List.foldl_nil, UInt8.zero_or, hne, if_false,
            List.cons_ne_nil, false_and]
          rw [utilsStringToBinding_eq, if_pos htext,
            or_unknown_and (not_sets_unknown_bindingFlags text)]
          simp [spelledBinding]

end accepted

theorem parametersRight_iff (options : List QueryOption) :
    ParametersRight options ↔ NoneTruncated [] options ∧
      (NoneRefused [] options → ¬ VersionExcludesBinding options → Precise options) := by
  have hloop := parametersLoop_described [] options nofun
  have hstart : described [] = {} := rfl
  rw [hstart] at hloop
  unfold ParametersRight prvGetParameters
  generalize parametersLoop {} options = result at hloop ⊢
  rcases result with fault | _ | p
  · exact iff_of_false id fun h => hloop h.1
  · exact iff_of_true trivial ⟨hloop.1, fun h => absurd h hloop.2⟩
  · obtain ⟨htruncated, hrefused, rfl⟩ := hloop
    have hsets : Sets (finished (described options)).binding (bindingT ||| bindingN) ↔
        Sets (described options).binding (bindingT ||| bindingN) := by
      rw [finished_binding]
      split_ifs with hzero
      · rw [hzero]
        exact iff_of_false (by decide) (by decide)
      · rfl
    have hexcludes : ((finished (described options)).version = .v1_0 ∧
        Sets (finished (described options)).binding (bindingT ||| bindingN)) ↔
          VersionExcludesBinding options := by
      rw [finished_version, hsets]
      exact hrefused.excludes_iff
    rw [ok_bind]
    change (match (if (finished (described options)).version = .v1_0 ∧
        Sets (finished (described options)).binding (bindingT ||| bindingN) then pure none
      else pure (some (finished (described options))) : Except Fault (Option Parameters)) with
      | .error _ => False
      | .ok none => True
      | .ok (some p) => WellFormed options ∧ Spells options p) ↔ _
    by_cases hexcluded : VersionExcludesBinding options
    · rw [if_pos (hexcludes.mpr hexcluded)]
      exact iff_of_true trivial ⟨htruncated, fun _ h => absurd hexcluded h⟩
    · rw [if_neg (mt hexcludes.mp hexcluded)]
      have hiff := hrefused.spells_iff
      exact ⟨fun h => ⟨htruncated, fun _ _ => hiff.mp h⟩,
        fun h => hiff.mpr (h.2 hrefused hexcluded)⟩

/-! ### Bootstrap requests -/

/-- The options that `bootstrap_handleRequest` comes to do not end inside their keyword: the first
one, of a POST, and the second one, behind a name. -/
def BootstrapOptionsReadable (callback : Option (BootstrapCall → Code)) (message : Packet) : Prop :=
  callback.isSome → message.code = 2 →
    match message.uriQuery with
    | [] => True
    | query :: rest => ¬ EndsInside query QueryKey.name.text ∧
        (QueryKey.name.text <+: query → query ≠ QueryKey.name.text →
          match rest with
          | [] => True
          | second :: _ => ¬ EndsInside second queryPct)

/-- A comparison stays inside the bytes exactly when they do not end inside the keyword. -/
theorem strncmpEqual_inside {keyword : List Byte} (h : ¬ EndsInside bytes keyword) :
    strncmpEqual bytes keyword = .ok (decide (keyword <+: bytes)) := by
  rw [strncmpEqual_eq]
  by_cases hpre : keyword <+: bytes
  · simp [hpre]
  · have hshort : ¬ bytes <+: keyword := fun hshort => h ⟨hshort, fun heq => hpre (heq ▸
      List.prefix_rfl)⟩
    simp [hpre, hshort]

theorem strncmpEqual_outside {keyword : List Byte} (h : EndsInside bytes keyword) :
    strncmpEqual bytes keyword = .error .outOfBoundsRead := by
  have hpre : ¬ keyword <+: bytes := fun hpre => h.2 (h.1.eq_of_length_le hpre.length_le)
  rw [strncmpEqual_eq, if_neg hpre, if_pos h.1]

theorem preferredFormat_ok_iff {formats : BootstrapFormats} {query : List Byte}
    {next : List (List Byte)} :
    (∃ result, preferredFormat formats query next = .ok result) ↔ ¬ EndsInside query queryPct := by
  unfold preferredFormat
  by_cases h : EndsInside query queryPct
  · rw [strncmpEqual_outside h]
    exact iff_of_false (fun ⟨_, hok⟩ => nomatch hok) (not_not.mpr h)
  · rw [strncmpEqual_inside h, ok_bind]
    refine iff_of_true ?_ h
    dsimp only
    split_ifs <;> exact ⟨_, rfl⟩

/-- **When `bootstrap_handleRequest` reads inside its options.** -/
theorem bootstrapHandleRequest_ok_iff (formats : BootstrapFormats)
    (callback : Option (BootstrapCall → Code)) (memory : Bool) (message : Packet) :
    (∃ code, bootstrapHandleRequest formats callback memory message = .ok code) ↔
      BootstrapOptionsReadable callback message := by
  unfold bootstrapHandleRequest BootstrapOptionsReadable
  cases callback with
  | none => exact iff_of_true ⟨_, rfl⟩ nofun
  | some callback =>
    by_cases hpost : message.code = 2
    · dsimp only
      rw [if_neg (not_not.mpr hpost)]
      simp only [Option.isSome_some, hpost, forall_const]
      cases message.uriQuery with
      | nil => exact iff_of_true ⟨_, rfl⟩ trivial
      | cons query rest =>
        dsimp only
        by_cases hinside : EndsInside query QueryKey.name.text
        · rw [strncmpEqual_outside hinside]
          exact iff_of_false (fun ⟨_, h⟩ => nomatch h) fun h => h.1 hinside
        rw [strncmpEqual_inside hinside, ok_bind]
        by_cases hpre : QueryKey.name.text <+: query
        · have hlength : query.length = QueryKey.name.text.length ↔
              query = QueryKey.name.text :=
            ⟨fun h => (hpre.eq_of_length h.symm).symm, fun h => by rw [h]⟩
          by_cases hfilled : query = QueryKey.name.text
          · rw [if_neg (by simp [hpre]), if_pos (hlength.mpr hfilled)]
            exact iff_of_true ⟨_, rfl⟩ ⟨hinside, fun _ h => absurd hfilled h⟩
          · rw [if_neg (by simp [hpre]), if_neg (mt hlength.mp hfilled)]
            simp only [hinside, hpre, hfilled, not_false_eq_true, true_and, ne_eq, forall_const]
            have hcall (preferred : Except Code UInt16) : ∃ code, (match preferred with
                | .error code => return code
                | .ok format =>
                  let format :=
                    if message.payload ≠ [] then utilsConvertMediaType message.contentType
                    else format
                  if !memory then return coap500InternalServerError
                  else
                    let name := query.drop QueryKey.name.text.length ++ [0]
                    return callback ⟨name, format, message.payload⟩ : Except Fault Code) =
                  .ok code := by
              cases preferred with
              | error code => exact ⟨code, rfl⟩
              | ok format => cases memory <;> exact ⟨_, rfl⟩
            cases rest with
            | nil => exact iff_of_true (hcall (.ok 0)) trivial
            | cons second next =>
              have hok : (∃ result, preferredFormat formats second next = .ok result) ↔ _ :=
                preferredFormat_ok_iff
              dsimp only
              cases hpreferred : preferredFormat formats second next with
              | error fault =>
                rw [hpreferred] at hok
                exact iff_of_false (fun ⟨_, h⟩ => nomatch h)
                  (mt hok.mpr fun ⟨_, h⟩ => nomatch h)
              | ok preferred =>
                rw [hpreferred] at hok
                exact iff_of_true (hcall preferred) (hok.mp ⟨_, rfl⟩)
        · rw [if_pos (by simp [hpre])]
          exact iff_of_true ⟨_, rfl⟩ ⟨hinside, fun h => absurd h hpre⟩
    · dsimp only
      rw [if_pos hpost]
      exact iff_of_true ⟨_, rfl⟩ fun _ h => absurd h hpost

/-! ### The two functions -/

/-- **The options are read inside their bytes, and accepted parameters are what they spell**,
exactly when no option that is reached ends inside a keyword, and an accepted registration is
precise. -/
theorem registrationParameters_right_iff (options : List QueryOption) (formats : BootstrapFormats)
    (callback : Option (BootstrapCall → Code)) (memory : Bool) (message : Packet) :
    (ParametersRight options ∧
        ∃ code, bootstrapHandleRequest formats callback memory message = .ok code) ↔
      (NoneTruncated [] options ∧
          (NoneRefused [] options → ¬ VersionExcludesBinding options → Precise options)) ∧
        BootstrapOptionsReadable callback message :=
  and_congr (parametersRight_iff options)
    (bootstrapHandleRequest_ok_iff formats callback memory message)

/-- **What goes wrong**: the option `e` is read behind its end, as a registration and as a bootstrap
request; `lt=4294967297` is read as one second; two lifetimes are accepted behind `lt=0`; so is the
binding `X`, and `Qx` as the queue mode. -/
theorem registrationParameters_not_right :
    ¬ ParametersRight [⟨[0x65], true⟩] ∧
      ¬ (∃ code, bootstrapHandleRequest ⟨true, true⟩ (some fun _ => coap204Changed) true
        { code := 2, uriQuery := [[0x65]] } = .ok code) ∧
      ¬ ParametersRight
        [⟨[0x6C, 0x74, 0x3D, 0x34, 0x32, 0x39, 0x34, 0x39, 0x36, 0x37, 0x32, 0x39, 0x37], true⟩] ∧
      ¬ ParametersRight [⟨[0x6C, 0x74, 0x3D, 0x30], true⟩, ⟨[0x6C, 0x74, 0x3D, 0x35], true⟩] ∧
      ¬ ParametersRight [⟨[0x62, 0x3D, 0x58], true⟩] ∧
      ¬ ParametersRight [⟨[0x51, 0x78], true⟩] := by
  refine ⟨id, fun ⟨code, h⟩ => (nomatch h), fun h => ?_, fun h => ?_, fun h => ?_, fun h => ?_⟩
  · have hformed : WellFormed _ := h.1
    exact absurd (hformed.lifetime _ List.mem_cons_self).2 (by decide)
  · have hformed : WellFormed _ := h.1
    exact absurd (hformed.once .lifetime) (by decide)
  · have hformed : WellFormed _ := h.1
    exact absurd (hformed.binding [0x58] (by decide)) (by decide)
  · have hformed : WellFormed _ := h.1
    exact absurd (hformed.queueMode [0x78] (by decide)) (by decide)

end Lwm2m.Core

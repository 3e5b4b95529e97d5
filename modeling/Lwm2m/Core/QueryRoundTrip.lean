/-
# The query of a registration at the server

`prv_getRegistrationQuery` of `core/registration.c` writes the parameters of a registration,
`coap_set_header_uri_query` splits them into options, and `prv_getParameters` of the server reads
the options.

The parameters come back exactly when the name and the MSISDN each stand in one option, the lifetime
has 32 bits, and there is no queue mode: its option `Q` is refused, since its length is compared
with that of `b=` (`queryComesBack_iff`).
-/

import Lwm2m.Core.RegistrationParameters
import Lwm2m.Core.RegistrationSizes
import Lwm2m.Core.ServerLocation

namespace Lwm2m.Core

open Coap Library

/-! ### From the client to the server -/

/-- The Uri-Query options of a registration with this query, which has a NUL at its end. -/
def registrationOptions (query : List Byte) : List QueryOption :=
  (Packet.coapSetHeaderUriQuery {} (query.takeWhile (· ≠ 0))).uriQuery.map fun bytes => { bytes }

/-- The parameters are those of the client. -/
structure RegisteredAs (contextP : RegistrationContext) (server : RegistrationServer)
    (p : Parameters) : Prop where
  name : p.name = some (contextP.endpointName ++ [0])
  lifetime : (p.lifetime.toNat : ℤ) = server.lifetime.toInt
  msisdn : p.msisdn = contextP.msisdn.map (· ++ [0])
  binding : p.binding = server.binding
  version : p.version = .v1_1

/-- **The query comes back**: however long the buffer that it is written into, the server accepts
its options and returns the parameters of the client. -/
def QueryComesBack (contextP : RegistrationContext) (server : RegistrationServer) : Prop :=
  ∀ length query, prvGetRegistrationQuery contextP server length = pure query →
    ∃ p, prvGetParameters (registrationOptions query) = .ok (some p) ∧
      RegisteredAs contextP server p

/-- The text is carried in one option with its key. -/
structure InOneOption (key : QueryKey) (text : CString) : Prop where
  ne_nil : text ≠ []
  noSeparator : 0x26 ∉ text
  short : key.text.length + text.length < 256

/-- The name and the MSISDN are carried, the lifetime has 32 bits, and there is no queue mode. -/
structure QueryCarried (contextP : RegistrationContext) (server : RegistrationServer) : Prop where
  name : InOneOption .name contextP.endpointName
  msisdn : ∀ msisdn ∈ contextP.msisdn, InOneOption .sms msisdn
  lifetime : 0 ≤ server.lifetime.toInt ∧ server.lifetime.toInt < 2 ^ 32
  queueMode : ¬ Sets server.binding bindingQ

/-! ### The options -/

/-- The parameters in the order of the query, behind the version. -/
def queryParts (contextP : RegistrationContext) (server : RegistrationServer) :
    List (QueryKey × List Byte) :=
  (.name, contextP.endpointName) ::
    (contextP.msisdn.toList.map (QueryKey.sms, ·) ++
      ((if HasTransport server.binding then
          [(.binding, transportLetters server.binding bindingLetters)] else []) ++
        ((if Sets server.binding bindingQ then [(.queueMode, [])] else []) ++
          (if server.lifetime ≠ 0 then [(.lifetime, intText server.lifetime.toInt)] else []))))

/-- An option with a key. -/
def partBytes (part : QueryKey × List Byte) : List Byte := part.1.text ++ part.2

/-- The version of the client. -/
def versionPart : QueryKey × List Byte := (.version, [0x31, 0x2E, 0x31])

section

variable {contextP : RegistrationContext} {server : RegistrationServer} {text : List Byte}
  {options : List QueryOption} {p : Parameters} {key : QueryKey} {value : List Byte}

/-- **The query is its parts**, joined. -/
theorem registrationQueryText_eq : registrationQueryText contextP server =
    0x3F :: (partBytes versionPart ++
      joined 0x26 ((queryParts contextP server).map partBytes)) := by
  have hstart : queryStart = 0x3F :: (partBytes versionPart ++ 0x26 :: QueryKey.name.text) := rfl
  have hmsisdn : joined 0x26 ((contextP.msisdn.toList.map (QueryKey.sms, ·)).map partBytes) =
      msisdnText contextP.msisdn := by
    cases contextP.msisdn with
    | none => rfl
    | some msisdn => simp [msisdnText, partBytes, querySms, QueryKey.text]
  unfold registrationQueryText queryParts
  rw [hstart, List.map_cons, joined_cons, List.map_append, joined_append, hmsisdn]
  split_ifs <;>
    simp [partBytes, queryBinding, queryQueueMode, queryLifetime, QueryKey.text]

theorem forall_queryParts {P : QueryKey × List Byte → Prop}
    (hname : P (.name, contextP.endpointName))
    (hmsisdn : ∀ msisdn ∈ contextP.msisdn, P (.sms, msisdn))
    (hbinding : P (.binding, transportLetters server.binding bindingLetters))
    (hqueue : P (.queueMode, [])) (hlifetime : P (.lifetime, intText server.lifetime.toInt)) :
    ∀ part ∈ queryParts contextP server, P part := by
  refine List.forall_mem_cons.mpr ⟨hname, List.forall_mem_append.mpr ⟨?_,
    List.forall_mem_append.mpr ⟨?_, List.forall_mem_append.mpr ⟨?_, ?_⟩⟩⟩⟩
  · intro part hpart
    obtain ⟨msisdn, hmem, rfl⟩ := List.mem_map.mp hpart
    exact hmsisdn msisdn (Option.mem_toList.mp hmem)
  · split_ifs
    · exact List.forall_mem_singleton.mpr hbinding
    · exact List.forall_mem_nil _
  · split_ifs
    · exact List.forall_mem_singleton.mpr hqueue
    · exact List.forall_mem_nil _
  · split_ifs
    · exact List.forall_mem_singleton.mpr hlifetime
    · exact List.forall_mem_nil _

theorem mem_intText {n : ℤ} {b : Byte} (h : b ∈ intText n) : b = 0x2D ∨ isDigit b := by
  unfold intText at h
  split_ifs at h
  · exact (List.mem_cons.mp h).imp_right isDigit_of_mem_decimal
  · exact .inr (isDigit_of_mem_decimal h)

/-- The parts have no NUL and no separator, when the name and the MSISDN have none. -/
theorem not_mem_partBytes {c : Byte} (hc : c = 0 ∨ c = 0x26) (hname : c ∉ contextP.endpointName)
    (hmsisdn : ∀ msisdn ∈ contextP.msisdn, c ∉ msisdn) :
    ∀ part ∈ queryParts contextP server, c ∉ partBytes part := by
  have hpart {part : QueryKey × List Byte} (h : c ∉ part.2) : c ∉ partBytes part := by
    refine fun hmem => (List.mem_append.mp hmem).elim ?_ h
    rcases hc with rfl | rfl <;> cases part.1 <;> decide +kernel
  refine forall_queryParts (hpart hname) (fun msisdn hmem => hpart (hmsisdn msisdn hmem))
    (hpart fun hmem => ?_) (hpart List.not_mem_nil) (hpart fun hmem => ?_)
  · obtain ⟨entry, hentry, rfl⟩ := List.mem_map.mp hmem
    have hletters : (bindingLetters.all fun entry => entry.2 ≠ 0 ∧ entry.2 ≠ 0x26) = true := rfl
    have hletter := List.all_eq_true.mp hletters entry (List.mem_of_mem_filter hentry)
    obtain ⟨hnul, hseparator⟩ := of_decide_eq_true hletter
    exact hc.elim hnul hseparator
  · rcases mem_intText hmem with rfl | hdigit
    · exact absurd hc (by decide)
    · rcases hc with rfl | rfl <;> exact absurd hdigit (by decide)

/-- The parts that are neither the name nor the MSISDN are short. -/
theorem length_partBytes (hname : InOneOption .name contextP.endpointName)
    (hmsisdn : ∀ msisdn ∈ contextP.msisdn, InOneOption .sms msisdn) :
    ∀ part ∈ queryParts contextP server, (partBytes part).length < 256 := by
  have hkey (key : QueryKey) : key.text.length ≤ 6 := by cases key <;> decide
  have hpart {part : QueryKey × List Byte} (h : part.2.length ≤ 20) :
      (partBytes part).length < 256 := by
    have := hkey part.1
    rw [partBytes, List.length_append]
    omega
  refine forall_queryParts ?_ (fun msisdn hmem => ?_) (hpart ?_) (hpart (Nat.zero_le _)) (hpart ?_)
  · rw [partBytes, List.length_append]
    exact hname.short
  · rw [partBytes, List.length_append]
    exact (hmsisdn msisdn hmem).short
  · have hle := List.length_filter_le (fun entry : UInt8 × Byte => Sets server.binding entry.1)
      bindingLetters
    rw [transportLetters, List.length_map]
    exact hle.trans (by decide)
  · exact intText_length_le server.lifetime.le_toInt server.lifetime.toInt_lt

/-- The options are the segments of the query. -/
theorem registrationOptions_eq (hname : 0 ∉ contextP.endpointName)
    (hmsisdn : ∀ msisdn ∈ contextP.msisdn, 0 ∉ msisdn) :
    registrationOptions (registrationQueryText contextP server ++ [0]) =
      ((splitSegments 0x26 [] (partBytes versionPart ++
        joined 0x26 ((queryParts contextP server).map partBytes))).map multiOption).map
          fun bytes => { bytes } := by
  have hnul : 0 ∉ registrationQueryText contextP server := by
    rw [registrationQueryText_eq]
    intro hmem
    rcases List.mem_cons.mp hmem with h | hmem
    · exact absurd h (by decide)
    rcases List.mem_append.mp hmem with hmem | hmem
    · exact absurd hmem (by decide +kernel)
    rcases mem_joined hmem with h | ⟨piece, hpiece, hmem⟩
    · exact absurd h (by decide)
    · obtain ⟨part, hpart, rfl⟩ := List.mem_map.mp hpiece
      exact not_mem_partBytes (.inl rfl) hname hmsisdn part hpart hmem
  have hquery := foldl_coapAddMultiOption (splitSegments 0x26 [] (partBytes versionPart ++
    joined 0x26 ((queryParts contextP server).map partBytes))) []
  rw [List.nil_append] at hquery
  rw [← hquery, registrationOptions, takeWhile_concat_zero_iff.mpr hnul, registrationQueryText_eq]
  rfl

/-- **Where the name and the MSISDN are carried, the options are the parts.** -/
theorem registrationOptions_parts (hname : 0 ∉ contextP.endpointName)
    (hmsisdn : ∀ msisdn ∈ contextP.msisdn, 0 ∉ msisdn)
    (hone : InOneOption .name contextP.endpointName)
    (honeMsisdn : ∀ msisdn ∈ contextP.msisdn, InOneOption .sms msisdn) :
    registrationOptions (registrationQueryText contextP server ++ [0]) =
      (versionPart :: queryParts contextP server).map fun part => { bytes := partBytes part } := by
  have hseparator : ∀ part ∈ queryParts contextP server, 0x26 ∉ partBytes part :=
    not_mem_partBytes (.inr rfl) hone.noSeparator
      fun msisdn hmem => (honeMsisdn msisdn hmem).noSeparator
  have hlength : ∀ part ∈ queryParts contextP server, (partBytes part).length < 256 :=
    length_partBytes hone honeMsisdn
  have hlast : ((queryParts contextP server).map partBytes).getLast? ≠ some [] := by
    intro hlast
    obtain ⟨part, -, hnil⟩ := List.mem_map.mp (List.mem_of_getLast? hlast)
    have hkey : part.1.text ≠ [] := by cases part.1 <;> exact List.cons_ne_nil _ _
    exact hkey (List.append_eq_nil_iff.mp hnil).1
  rw [registrationOptions_eq hname hmsisdn, splitSegments_joined _ _ (by decide +kernel)
    (List.forall_mem_map.mpr hseparator), if_neg hlast, List.map_cons, List.map_cons,
    List.map_cons, List.map_map, List.map_map]
  refine congrArg₂ List.cons rfl (List.map_congr_left fun part hpart => ?_)
  exact congrArg (QueryOption.mk · true) (multiOption_of_short (hlength part hpart))

/-! ### What the server reads -/

/-- The branch of a part. -/
def storePart (p : Parameters) (part : QueryKey × List Byte) : Option Parameters :=
  storeParameter p { bytes := partBytes part } part.1

/-- The options of parts are read one after the other. -/
theorem parametersLoop_parts (p : Parameters) (parts : List (QueryKey × List Byte)) :
    parametersLoop p (parts.map fun part => { bytes := partBytes part }) =
      .ok (parts.foldlM storePart p) := by
  induction parts generalizing p with
  | nil => rfl
  | cons part parts ih =>
    have hmatched : matchedKey (partBytes part) QueryKey.all = .ok (some part.1) := by
      have hpre : part.1.text <+: partBytes part := List.prefix_append _ _
      rcases matchedKey_all { bytes := partBytes part } with ⟨key, value, hbytes, hmatched⟩ |
        ⟨htruncated, -⟩ | ⟨hother, -, -⟩
      · obtain rfl := key_unique hpre ⟨value, hbytes.symm⟩
        exact hmatched
      · exact absurd htruncated (not_truncated_of_key hpre)
      · have hvalue := hother part.1
        rw [valueOf, if_pos hpre] at hvalue
        cases hvalue
    rw [List.map_cons, parametersLoop, hmatched, ok_bind, List.foldlM_cons, storePart]
    dsimp only
    cases storeParameter p { bytes := partBytes part } part.1 with
    | none => rfl
    | some p => exact ih p

theorem drop_partBytes (key : QueryKey) (value : List Byte) :
    (partBytes (key, value)).drop key.text.length = value := List.drop_left

theorem partBytes_filled (key : QueryKey) (h : value ≠ []) :
    (partBytes (key, value)).length ≠ key.text.length := by
  have hpos := List.length_pos_of_ne_nil h
  rw [partBytes, List.length_append]
  exact (Nat.lt_add_of_pos_right hpos).ne'

theorem storePart_name (hp : p.name = none) (h : value ≠ []) :
    storePart p (.name, value) = some { p with name := some (value ++ [0]) } := by
  unfold storePart storeParameter
  dsimp only
  rw [if_neg (not_not.mpr hp), if_neg (partBytes_filled .name h), drop_partBytes]
  rfl

theorem storePart_sms (hp : p.msisdn = none) (h : value ≠ []) :
    storePart p (.sms, value) = some { p with msisdn := some (value ++ [0]) } := by
  unfold storePart storeParameter
  dsimp only
  rw [if_neg (not_not.mpr hp), if_neg (partBytes_filled .sms h), drop_partBytes]
  rfl

theorem storePart_binding (hp : p.binding = 0) (h : value ≠ []) :
    storePart p (.binding, value) = some { p with binding := utilsStringToBinding value } := by
  unfold storePart storeParameter
  dsimp only
  rw [hp, if_neg (not_not.mpr UInt8.zero_and), if_neg (partBytes_filled .binding h),
    drop_partBytes, UInt8.zero_or]

/-- A lifetime is read as it is written. -/
theorem storePart_lifetime {lifetime : ℤ} (hp : p.lifetime = 0) (h : 0 ≤ lifetime) :
    storePart p (.lifetime, intText lifetime) =
      some { p with lifetime := UInt32.ofNat lifetime.toNat } := by
  have htext : intText lifetime = decimal lifetime.toNat := if_neg (Int.not_lt.mpr h)
  have hdigits : (decimal lifetime.toNat).all isDigit :=
    List.all_eq_true.mpr fun _ => isDigit_of_mem_decimal
  unfold storePart storeParameter
  dsimp only
  rw [htext, if_neg (not_not.mpr hp), if_neg (partBytes_filled .lifetime (decimal_ne_nil _)),
    drop_partBytes, lifetimeLoop_eq, if_pos hdigits, hp]
  change some { p with lifetime := UInt32.ofNat (digitsValue 0 (decimal lifetime.toNat)) } = _
  rw [digitsValue_decimal]

/-- A transport has a letter, when the binding has no flag besides the known ones. -/
theorem transportLetters_ne_nil {binding : UInt8} (hknown : ¬ Sets binding 0xC0)
    (h : HasTransport binding) : transportLetters binding bindingLetters ≠ [] := by
  have hbytes : ∀ n < 256, ¬ Sets (UInt8.ofNat n) 0xC0 → HasTransport (UInt8.ofNat n) →
      transportLetters (UInt8.ofNat n) bindingLetters ≠ [] := by decide +kernel
  have hbinding := hbytes binding.toNat binding.toNat_lt
  rw [UInt8.ofNat_toNat] at hbinding
  exact hbinding hknown h

/-- **A binding without queue mode is written in letters and read again.** -/
theorem binding_of_letters {binding : UInt8} (hunknown : Sets binding bindingUnknown)
    (hknown : ¬ Sets binding 0xC0) (hqueue : ¬ Sets binding bindingQ) :
    (if HasTransport binding then
      utilsStringToBinding (transportLetters binding bindingLetters) else bindingUnknown) =
        binding := by
  have hbytes : ∀ n < 256, Sets (UInt8.ofNat n) bindingUnknown → ¬ Sets (UInt8.ofNat n) 0xC0 →
      ¬ Sets (UInt8.ofNat n) bindingQ → (if HasTransport (UInt8.ofNat n) then
        utilsStringToBinding (transportLetters (UInt8.ofNat n) bindingLetters)
      else bindingUnknown) = UInt8.ofNat n := by decide +kernel
  have hbinding := hbytes binding.toNat binding.toNat_lt
  rw [UInt8.ofNat_toNat] at hbinding
  exact hbinding hunknown hknown hqueue

/-- A binding that is read has no flag besides those of its letters. -/
theorem not_sets_utilsStringToBinding (text : List Byte) :
    ¬ Sets (utilsStringToBinding text) 0xC0 := by
  rw [utilsStringToBinding_eq]
  split_ifs
  · rw [sets_or, sets_bindingFlags_iff]
    rintro (h | ⟨letter, -, flag, hflag, hsets⟩)
    · exact absurd h (by decide)
    · unfold bindingFlag at hflag
      split_ifs at hflag <;> cases hflag <;> exact absurd hsets (by decide)
  · decide

/-- **The parts are stored** as the client has them. -/
theorem foldlM_queryParts (h : QueryCarried contextP server)
    (hknown : ¬ Sets server.binding 0xC0) :
    (versionPart :: queryParts contextP server).foldlM storePart {} = some {
      name := some (contextP.endpointName ++ [0])
      lifetime := UInt32.ofNat server.lifetime.toInt.toNat
      msisdn := contextP.msisdn.map (· ++ [0])
      binding := if HasTransport server.binding then
          utilsStringToBinding (transportLetters server.binding bindingLetters) else 0
      version := .v1_1 } := by
  have hversion : storePart {} versionPart = some { version := .v1_1 } := rfl
  rw [List.foldlM_cons, hversion, Option.bind_eq_bind, Option.bind_some, queryParts,
    List.foldlM_cons, storePart_name rfl h.name.ne_nil, Option.bind_eq_bind, Option.bind_some,
    if_neg h.queueMode, List.nil_append]
  have hsms (p : Parameters) (hp : p.msisdn = none) :
      (contextP.msisdn.toList.map (QueryKey.sms, ·)).foldlM storePart p =
        some { p with msisdn := contextP.msisdn.map (· ++ [0]) } := by
    cases hmsisdn : contextP.msisdn with
    | none =>
      obtain ⟨_, _, msisdn, _, _⟩ := p
      obtain rfl : msisdn = none := hp
      rfl
    | some msisdn =>
      exact (List.foldlM_cons ..).trans
        (by rw [storePart_sms hp (h.msisdn msisdn hmsisdn).ne_nil]; rfl)
  have hbinding (p : Parameters) (hp : p.binding = 0) :
      (if HasTransport server.binding then
          [(QueryKey.binding, transportLetters server.binding bindingLetters)] else []).foldlM
        storePart p = some { p with
          binding := if HasTransport server.binding then
            utilsStringToBinding (transportLetters server.binding bindingLetters) else 0 } := by
    split_ifs with htransport
    · rw [List.foldlM_cons, storePart_binding hp (transportLetters_ne_nil hknown htransport)]
      rfl
    · obtain ⟨_, _, _, binding, _⟩ := p
      obtain rfl : binding = 0 := hp
      rfl
  have hlifetime (p : Parameters) (hp : p.lifetime = 0) :
      (if server.lifetime ≠ 0 then
          [(QueryKey.lifetime, intText server.lifetime.toInt)] else []).foldlM storePart p =
        some { p with lifetime := UInt32.ofNat server.lifetime.toInt.toNat } := by
    by_cases hzero : server.lifetime = 0
    · rw [if_neg (not_not.mpr hzero), hzero]
      obtain ⟨_, lifetime, _, _, _⟩ := p
      obtain rfl : lifetime = 0 := hp
      rfl
    · rw [if_pos hzero, List.foldlM_cons, storePart_lifetime hp h.lifetime.1]
      rfl
  rw [List.foldlM_append, hsms _ rfl, Option.bind_eq_bind, Option.bind_some, List.foldlM_append,
    hbinding _ rfl, Option.bind_eq_bind, Option.bind_some, hlifetime _ rfl]

/-- What the server returns are the parameters behind the options. -/
theorem described_of_accepted (h : prvGetParameters options = .ok (some p)) :
    NoneRefused [] options ∧ p = finished (described options) := by
  have hloop := parametersLoop_described [] options fun _ hmem => by cases hmem
  have hstart : described [] = {} := rfl
  rw [hstart] at hloop
  unfold prvGetParameters at h
  cases hresult : parametersLoop {} options with
  | error fault =>
    rw [hresult] at h
    cases h
  | ok result =>
    rw [hresult, ok_bind] at h
    rw [hresult] at hloop
    cases result with
    | none => cases h
    | some q =>
      obtain ⟨-, hrefused, rfl⟩ := hloop
      refine ⟨hrefused, ?_⟩
      change ite ((finished (described options)).version = .v1_0 ∧
          Sets (finished (described options)).binding (bindingT ||| bindingN)) (pure none)
        (pure (some (finished (described options)))) = Except.ok (some p) at h
      generalize finished (described options) = q at h
      split_ifs at h
      · cases h
      · exact (Option.some.inj (Except.ok.inj h)).symm

/-- A string that is returned is the value of an option. -/
theorem mem_values_of_returned
    (h : (values key (options.filter (·.memory))).head?.map (· ++ [0]) = some (value ++ [0])) :
    value ∈ values key options := by
  obtain ⟨copied, hhead, hcopied⟩ := Option.map_eq_some_iff.mp h
  rw [← List.append_cancel_right hcopied]
  exact (values_filter_sublist key options).subset (List.mem_of_mem_head? hhead)

/-- **What is returned was carried in one option.** -/
theorem inOneOption_of_returned (hname : 0 ∉ contextP.endpointName)
    (hmsisdn : ∀ msisdn ∈ contextP.msisdn, 0 ∉ msisdn)
    (hoptions : options = registrationOptions (registrationQueryText contextP server ++ [0]))
    (hrefused : NoneRefused [] options) (hkey : key ≠ .queueMode)
    (h : value ∈ values key options) : InOneOption key value := by
  obtain ⟨query, hquery, hvalue⟩ := List.mem_filterMap.mp h
  have hbytes := valueOf_eq_some_iff.mp hvalue
  rw [hoptions, registrationOptions_eq hname hmsisdn] at hquery
  obtain ⟨bytes, hmem, rfl⟩ := List.mem_map.mp hquery
  obtain ⟨segment, hsegment, rfl⟩ := List.mem_map.mp hmem
  have hlength := multiOption_length_lt segment
  change multiOption segment = _ at hbytes
  rw [hbytes, List.length_append] at hlength
  refine ⟨hrefused.filled key hkey h, fun hseparator => ?_, hlength⟩
  have hpart : 0x26 ∈ multiOption segment := hbytes ▸ List.mem_append_right _ hseparator
  rcases mem_of_mem_splitSegments hsegment (List.mem_of_mem_take hpart) with hnil | ⟨-, hne⟩
  · cases hnil
  · exact hne rfl

/-- **What comes back is carried.** -/
theorem QueryComesBack.carried (hback : QueryComesBack contextP server)
    (hname : 0 ∉ contextP.endpointName) (hmsisdn : ∀ msisdn ∈ contextP.msisdn, 0 ∉ msisdn) :
    QueryCarried contextP server := by
  obtain ⟨p, haccepted, hp⟩ := hback _ _ (prvGetRegistrationQuery_fits (Nat.lt_succ_self _))
  generalize hoptions :
    registrationOptions (registrationQueryText contextP server ++ [0]) = options at haccepted
  obtain ⟨hrefused, rfl⟩ := described_of_accepted haccepted
  have hone : InOneOption .name contextP.endpointName := by
    have hpname := hp.name
    rw [finished_name] at hpname
    exact inOneOption_of_returned hname hmsisdn hoptions.symm hrefused (by decide)
      (mem_values_of_returned hpname)
  have honeMsisdn : ∀ msisdn ∈ contextP.msisdn, InOneOption .sms msisdn := by
    intro msisdn hmem
    have hpmsisdn := hp.msisdn
    rw [finished_msisdn, hmem] at hpmsisdn
    exact inOneOption_of_returned hname hmsisdn hoptions.symm hrefused (by decide)
      (mem_values_of_returned hpmsisdn)
  have hlifetime := hp.lifetime
  have hlt := (finished (described options)).lifetime.toNat_lt
  refine ⟨hone, honeMsisdn, by omega, fun hqueue => ?_⟩
  -- the option of the queue mode is among the parts, and it is refused
  rw [← hoptions, registrationOptions_parts hname hmsisdn hone honeMsisdn] at hrefused
  have hpart : (QueryKey.queueMode, []) ∈ versionPart :: queryParts contextP server := by
    refine List.mem_cons_of_mem _ (List.mem_cons_of_mem _ (List.mem_append_right _
      (List.mem_append_right _ (List.mem_append_left _ ?_))))
    rw [if_pos hqueue]
    exact List.mem_singleton.mpr rfl
  obtain ⟨l, l', hsplit⟩ := List.append_of_mem (List.mem_map_of_mem hpart)
  exact hrefused.value hsplit (show valueOf .queueMode [0x51] = some [] from rfl)
    (.inl (by decide))

/-- **What is carried comes back.** -/
theorem QueryCarried.comesBack (hcarried : QueryCarried contextP server)
    (hname : 0 ∉ contextP.endpointName) (hmsisdn : ∀ msisdn ∈ contextP.msisdn, 0 ∉ msisdn)
    (hunknown : Sets server.binding bindingUnknown) (hknown : ¬ Sets server.binding 0xC0) :
    QueryComesBack contextP server := by
  intro length query hquery
  obtain rfl := prvGetRegistrationQuery_only hquery
  rw [registrationOptions_parts hname hmsisdn hcarried.name hcarried.msisdn]
  unfold prvGetParameters
  rw [parametersLoop_parts, ok_bind, foldlM_queryParts hcarried hknown]
  refine ⟨finished _, if_neg (fun h => ?_), ?_, ?_, ?_, ?_, ?_⟩
  · have hversion := (finished_version _).symm.trans h.1
    cases hversion
  · exact finished_name _
  · obtain ⟨hnonneg, hlt⟩ := hcarried.lifetime
    rw [finished_lifetime, UInt32.toNat_ofNat', Nat.mod_eq_of_lt (by omega)]
    exact Int.toNat_of_nonneg hnonneg
  · exact finished_msisdn _
  · rw [finished_binding]
    refine Eq.trans ?_ (binding_of_letters hunknown hknown hcarried.queueMode)
    dsimp only
    by_cases htransport : HasTransport server.binding
    · rw [if_pos htransport, if_pos htransport, if_neg fun hzero => ?_]
      have hsets := sets_unknown (transportLetters server.binding bindingLetters)
      rw [hzero] at hsets
      exact absurd hsets (by decide)
    · rw [if_neg htransport, if_neg htransport, if_pos rfl]
  · exact finished_version _

end

/-- **When the query of a registration comes back**: exactly when all of it is carried. -/
theorem queryComesBack_iff (contextP : RegistrationContext) (text : List Byte) (lifetime : Int64)
    (hname : 0 ∉ contextP.endpointName) (hmsisdn : ∀ msisdn ∈ contextP.msisdn, 0 ∉ msisdn) :
    QueryComesBack contextP { binding := utilsStringToBinding text, lifetime } ↔
      QueryCarried contextP { binding := utilsStringToBinding text, lifetime } :=
  ⟨fun hback => hback.carried hname hmsisdn, fun hcarried => hcarried.comesBack hname hmsisdn
    (sets_unknown text) (not_sets_utilsStringToBinding text)⟩

/-- The client `a` with the binding `U` and a lifetime of 86400 seconds. -/
theorem queryComesBack_bindingU : QueryComesBack ⟨[0x61], some [0x34, 0x39], none, []⟩
    { binding := utilsStringToBinding [0x55], lifetime := 86400 } := by
  have hone {key : QueryKey} {text : CString} (hne : text ≠ []) (hseparator : 0x26 ∉ text)
      (hshort : text.length ≤ 200) : InOneOption key text := by
    have hkey : key.text.length ≤ 6 := by cases key <;> decide
    exact ⟨hne, hseparator, by omega⟩
  refine (queryComesBack_iff _ _ _ (by decide +kernel) fun msisdn hmem => ?_).mpr
    ⟨hone (by decide) (by decide +kernel) (by decide), fun msisdn hmem => ?_, by decide, by decide⟩
  · exact Option.some.inj hmem ▸ by decide +kernel
  · exact Option.some.inj hmem ▸ hone (by decide) (by decide +kernel) (by decide)

/-- **The binding `UQ`** does not come back, and the empty name does not. -/
theorem queueMode_fails :
    ¬ QueryComesBack ⟨[0x61], none, none, []⟩
        { binding := utilsStringToBinding [0x55, 0x51], lifetime := 86400 } ∧
      ¬ QueryComesBack ⟨[], none, none, []⟩
        { binding := utilsStringToBinding [0x55], lifetime := 86400 } := by
  constructor
  · intro hback
    have hcarried := hback.carried (by decide +kernel) fun _ h => nomatch h
    exact hcarried.queueMode (by decide)
  · intro hback
    have hcarried := hback.carried List.not_mem_nil fun _ h => nomatch h
    exact hcarried.name.ne_nil rfl

end Lwm2m.Core

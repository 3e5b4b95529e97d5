/-
# The Write-Attributes request of a server

`lwm2m_dm_write_attributes` of `core/management.c` puts an option into the query for each attribute
that it sets, the name with its value, and then one for each that it clears, the name alone.
`coap_parse_message` keeps the length of an option and a pointer into the datagram, and
`prv_readAttributes` compares the names without the length: what stands behind an option is the
header of the next one, and behind the last one whatever the buffer holds behind the datagram.

The attributes come back exactly when none is cleared, or that byte is not '='
(`lwm2mDmWriteAttributes_comesBack_iff`).
-/

import Lwm2m.Coap.MessageRoundTrip
import Lwm2m.Core.ClientList
import Lwm2m.Core.Discover
import Lwm2m.Core.NumberText
import Lwm2m.Core.RegistrationMemory

namespace Lwm2m.Core

open Coap Code Library RegistrationMemory

/-! ### The request -/

section

variable (floatToText : Double → ℕ → Option (List Byte)) (overlaps : Attributes → Bool)

/-- `_PRV_BUFFER_SIZE`. -/
def prvBufferSize : ℕ := 32

/-- `coap_add_multi_option` on the query, with `SET_OPTION`. -/
def addUriQuery (coapPkt : Packet) (option : List Byte) : Packet :=
  { coapPkt with uriQuery := coapAddMultiOption coapPkt.uriQuery option }.markOption .uriQuery

/-- The block of an attribute that may be set. -/
def addSetOption (attrP : Attributes) (coapPkt : Packet) (a : Attribute) : Option Packet :=
  if attrP.toSet &&& a.flag ≠ 0 then
    (valueToText floatToText (attrP.value a) (prvBufferSize - a.str.length)).map fun text =>
      addUriQuery coapPkt (a.str ++ text)
  else some coapPkt

/-- The block of an attribute that may be cleared. -/
def addClearOption (attrP : Attributes) (coapPkt : Packet) (a : Attribute) : Packet :=
  if attrP.toClear &&& a.flag ≠ 0 then addUriQuery coapPkt a.name else coapPkt

/-- The blocks of `lwm2m_dm_write_attributes`; there is none when a value has no text. -/
def addAttributeOptions (attrP : Attributes) (coapPkt : Packet) : Option Packet :=
  (Attribute.all.foldlM (addSetOption floatToText attrP) coapPkt).map fun coapPkt =>
    Attribute.all.foldl (addClearOption attrP) coapPkt

/-- `lwm2m_dm_write_attributes` up to the transaction that it sends.  The comparison of the
thresholds is a parameter: the one below plus twice the step is not below the one above.
`dataP` is the record that is made for a callback, by number, with that of `prv_resultCallback`. -/
def writeAttributesTransaction (contextP : ClientContext) (nextMID : UInt16) (tvSec : ℤ)
    (clientID : UInt16) (uriP : Uri) (attrP : Option Attributes) (dataP : Option (ℕ × ℕ)) :
    Except Code Transaction :=
  match attrP with
  | none => .error coap400BadRequest
  | some attrP =>
    if attrP.toSet &&& attrP.toClear ≠ 0 then .error coap400BadRequest
    else if attrP.toSet &&& attrFlagNumeric ≠ 0 ∧ ¬ uriP.isSetResource then
      .error coap400BadRequest
    else if attrP.toSet &&& attrFlagNumeric = attrFlagNumeric ∧ overlaps attrP then
      .error coap400BadRequest
    else
      match contextP.clientList.find? (·.internalID = clientID) with
      | none => .error coap404NotFound
      | some clientP =>
        match transactionNew clientP.sessionH 3 clientP.altPath (some uriP) nextMID
            (generatedToken nextMID tvSec) with
        | none => .error coap500InternalServerError
        | some transaction =>
          match addAttributeOptions floatToText attrP transaction.message with
          | none => .error coap500InternalServerError
          | some message => .ok { transaction with
              message
              callback := dataP.map Prod.fst
              userData := dataP.map Prod.snd }

/-- `lwm2m_dm_write_attributes`: what it sends, and its result. -/
def lwm2mDmWriteAttributes (contextP : ClientContext) (nextMID : UInt16) (tvSec : ℤ)
    (clientID : UInt16) (uriP : Uri) (attrP : Option Attributes) (dataP : Option (ℕ × ℕ)) :
    Except Fault (List Output × ℤ) := do
  match writeAttributesTransaction floatToText overlaps contextP nextMID tvSec clientID uriP attrP
      dataP with
  | .error code => return ([], code.toNat)
  | .ok transaction => return (← transactionSend tvSec transaction).2

end

/-! ### The query of a datagram -/

/-- An option of a length, from its first byte on; `behind` is what the buffer holds behind the
datagram. -/
def pointedOption (length : ℕ) (rest behind : List Byte) (h : length ≤ rest.length) :
    MultiOption where
  len := UInt8.ofNat length
  data := rest ++ behind
  len_le := by
    rw [UInt8.toNat_ofNat', List.length_append]
    exact (Nat.mod_le _ _).trans (h.trans (Nat.le_add_right _ _))

/-- The options that `coap_parse_message` links to `uri_query`, from the option number and the bytes
under its cursor on. -/
def uriQueryOptions (behind : List Byte) (number : ℕ) (bytes : List Byte) : List MultiOption :=
  match bytes with
  | [] => []
  | b :: bytes =>
    if b &&& 0xF0 = 0xF0 then []
    else
      match _h : parseHeader b bytes with
      | .error _ => []
      | .ok (delta, length, rest) =>
        if hlength : length ≤ rest.length then
          let next := uriQueryOptions behind (number + delta) (rest.drop length)
          if number + delta = CoapOption.uriQuery.number then
            pointedOption length rest behind hlength :: next
          else next
        else []
termination_by bytes.length
decreasing_by
  have := parseHeader_length _h
  simp only [List.length_drop, List.length_cons]
  omega

/-- The query of a datagram: the options behind its header and token. -/
def datagramQuery (datagram behind : List Byte) : List MultiOption :=
  uriQueryOptions behind 0
    (datagram.drop (coapHeaderLen + headerTokenLen (datagram.headD 0)))

/-- **The attributes come back**: the client accepts the query of the datagram, with the flags of
the request and the values of the attributes that it sets. -/
def ComesBack (strtod : CString → Double × ℕ) (attrP : Attributes) (datagram behind : List Byte) :
    Prop :=
  ∃ attrQ, prvReadAttributes strtod (datagramQuery datagram behind) = .ok (0, attrQ) ∧
    attrQ.toSet = attrP.toSet ∧ attrQ.toClear = attrP.toClear ∧
    ∀ a : Attribute, attrP.toSet &&& a.flag ≠ 0 → attrQ.value a = attrP.value a

section

variable {behind : List Byte} {number : ℕ}

variable {rest : List Byte} {packet' : Packet} {query : MultiOption} {flags : UInt8}

variable {length : ℕ} {bytes text : List Byte} {packet : Packet} {values : List (List Byte)}
  {attrQ' : Attributes} {as : List Attribute} {transaction : Transaction}

/-- The bytes of an option are those that the parser stores. -/
theorem content_pointedOption (h : length ≤ rest.length) :
    (pointedOption length rest behind h).content = multiOption (rest.take length) := by
  have hmod := Nat.mod_le length 256
  have hlength : (rest.take length).length = length := by
    rw [List.length_take]
    omega
  have hlen : (pointedOption length rest behind h).len.toNat = length % 256 := UInt8.toNat_ofNat'
  unfold MultiOption.content multiOption
  rw [hlen, hlength, List.take_take, min_eq_left hmod]
  exact List.take_append_of_le_length (hmod.trans h)

/-- One option of a datagram. -/
theorem uriQueryOptions_cons {b : Byte} {delta : ℕ} (hmarker : b &&& 0xF0 ≠ 0xF0)
    (hheader : parseHeader b bytes = .ok (delta, length, rest)) (hlength : length ≤ rest.length) :
    uriQueryOptions behind number (b :: bytes) =
      (if number + delta = CoapOption.uriQuery.number then
        [pointedOption length rest behind hlength] else []) ++
        uriQueryOptions behind (number + delta) (rest.drop length) := by
  rw [uriQueryOptions, if_neg hmarker]
  split
  · rename_i fault hfault
    rw [hheader] at hfault
    cases hfault
  · rename_i delta' length' rest' hok
    rw [hheader] at hok
    obtain ⟨rfl, rfl, rfl⟩ := by simpa using hok
    rw [dif_pos hlength]
    split_ifs <;> rfl

theorem uriQuery_setOption {opt : ℕ} (h : packet.setOption opt = .ok packet') :
    packet'.uriQuery = packet.uriQuery := by
  unfold Packet.setOption at h
  split_ifs at h
  · cases h
    rfl
  · cases h
    rfl

/-- What the parser adds to the query for an option. -/
theorem uriQuery_storeOption (packet : Packet) (value : List Byte) (o : CoapOption) :
    (storeOption packet value o).uriQuery =
      packet.uriQuery ++ if o = .uriQuery then [multiOption value] else [] := by
  cases o with
  | uriQuery => rfl
  | accept =>
    have hsame : (storeOption packet value .accept).uriQuery = packet.uriQuery := by
      unfold storeOption
      split_ifs <;> rfl
    exact hsame.trans (List.append_nil _).symm
  | _ => exact (List.append_nil _).symm

/-- **The options of the query are those that the parser stores.** -/
theorem uriQuery_parseOptions (behind : List Byte)
    (h : parseOptions packet number bytes = .ok (noError, packet')) :
    packet'.uriQuery =
      packet.uriQuery ++ (uriQueryOptions behind number bytes).map MultiOption.content := by
  have hrequest : coap400BadRequest ≠ noError := by decide
  have hoption : coap402BadOption ≠ noError := by decide
  have hproxy : proxyingNotSupported ≠ noError := by decide
  have hcode {code : Code} {p : Packet} (hne : code ≠ noError)
      (heq : (Except.ok (code, p) : Except Fault (Code × Packet)) = .ok (noError, packet')) :
      False := hne (Prod.mk.inj (Except.ok.inj heq)).1
  fun_induction parseOptions packet number bytes with
  | case1 packet number =>
    cases h
    rw [uriQueryOptions]
    exact (List.append_nil _).symm
  | case2 packet number b bytes hb =>
    cases h
    rw [uriQueryOptions, if_pos hb]
    exact (List.append_nil _).symm
  | case3 => cases h
  | case4 => exact (hcode hrequest h).elim
  | case5 => cases h
  | case6 => exact (hcode hproxy h).elim
  | case7 => exact (hcode hoption h).elim
  | case9 => exact (hcode hoption h).elim
  | case8 packet number b bytes hb delta length rest hheader n hlength packet₁ hset ho heven ih
  | case10 packet number b bytes hb delta length rest hheader n hlength packet₁ hset ho heven ih =>
    have hother : number + delta ≠ CoapOption.uriQuery.number := fun heq => by
      have hnumber := CoapOption.ofNumber_number .uriQuery
      rw [← heq, show CoapOption.ofNumber (number + delta) = _ from ho] at hnumber
      cases hnumber
    rw [uriQueryOptions_cons hb hheader (Nat.le_of_not_lt hlength), if_neg hother, ih h,
      uriQuery_setOption hset]
    rfl
  | case11 packet number b bytes hb delta length rest hheader n hlength value packet₁ hset o hne
      htoken ho ih =>
    have hiff : number + delta = CoapOption.uriQuery.number ↔ o = .uriQuery := by
      have hnumber : number + delta = o.number := CoapOption.eq_number_of_ofNumber ho
      rw [hnumber]
      exact CoapOption.number_injective.eq_iff
    rw [uriQueryOptions_cons hb hheader (Nat.le_of_not_lt hlength), ih h, uriQuery_storeOption,
      uriQuery_setOption hset, List.map_append, List.append_assoc]
    congr 2
    by_cases hquery : o = .uriQuery
    · rw [if_pos hquery, if_pos (hiff.mpr hquery), List.map_singleton, content_pointedOption]
    · rw [if_neg hquery, if_neg (mt hiff.mp hquery), List.map_nil]

/-! ### The serialized query -/

variable {value : List Byte} {o : CoapOption} {w : OptionWriter} {packet : Packet}

/-- An option in front of any bytes. -/
theorem uriQueryOptions_option (hnumber : number ≤ o.number) (hvalue : value.length ≤ maxExtended)
    (rest : List Byte) :
    uriQueryOptions behind number
      (coapSetOptionHeader (o.number - number) value.length ++ value ++ rest) =
      (if o = .uriQuery then
        [pointedOption value.length (value ++ rest) behind (by simp)] else []) ++
        uriQueryOptions behind o.number rest := by
  have hlt := o.number_lt
  have hmax : maxExtended = 65804 := rfl
  have hdelta : o.number - number ≤ maxExtended := by omega
  have hheader := parseHeader_coapSetOptionHeader hdelta hvalue (value ++ rest)
  obtain ⟨-, -, hmarker⟩ := nibbles_first (o.number - number) value.length
  have hsum : number + (o.number - number) = o.number := by omega
  have hlength : value.length ≤ (value ++ rest).length := by simp
  unfold coapSetOptionHeader
  rw [List.append_assoc, List.cons_append, uriQueryOptions_cons hmarker hheader hlength, hsum,
    List.drop_left]
  simp only [CoapOption.number_injective.eq_iff]

variable (behind) in
/-- The bytes of the writer are passed, whatever follows them. -/
def Skipped (w : OptionWriter) : Prop :=
  ∀ rest, uriQueryOptions behind 0 (w.bytes ++ rest) = uriQueryOptions behind w.currentNumber rest

theorem Skipped.option (h : Skipped behind w) (hnumber : w.currentNumber ≤ o.number)
    (hvalue : value.length ≤ maxExtended) (ho : o ≠ .uriQuery) :
    Skipped behind (w.option o value) := by
  intro rest
  simp only [OptionWriter.option, List.append_assoc]
  rw [h, ← List.append_assoc, uriQueryOptions_option hnumber hvalue, if_neg ho, List.nil_append]

theorem Skipped.foldl_option (h : Skipped behind w) (hnumber : w.currentNumber ≤ o.number)
    {array : List (List Byte)} (harray : ∀ value ∈ array, value.length < 256)
    (ho : o ≠ .uriQuery) : Skipped behind (array.foldl (·.option o) w) := by
  induction array generalizing w with
  | nil => exact h
  | cons value array ih =>
    have hvalue := harray value List.mem_cons_self
    have hmax : maxExtended = 65804 := rfl
    refine ih (h.option hnumber (by omega) ho) le_rfl fun v hv => ?_
    exact harray v (List.mem_cons_of_mem value hv)

/-- The bytes of the query, behind an option of a number. -/
def queryBytes (number : ℕ) : List (List Byte) → List Byte
  | [] => []
  | value :: values =>
    coapSetOptionHeader (CoapOption.uriQuery.number - number) value.length ++ value ++
      queryBytes CoapOption.uriQuery.number values

theorem bytes_foldl_query (values : List (List Byte)) (w : OptionWriter) :
    (values.foldl (·.option .uriQuery) w).bytes = w.bytes ++ queryBytes w.currentNumber values := by
  induction values generalizing w with
  | nil => exact (List.append_nil _).symm
  | cons value values ih =>
    rw [List.foldl_cons, ih, OptionWriter.option, queryBytes, List.append_assoc]

/-- The options of a query of these values, in a datagram that ends with them. -/
def queryPointers (behind : List Byte) : List (List Byte) → List MultiOption
  | [] => []
  | value :: values =>
    pointedOption value.length (value ++ queryBytes CoapOption.uriQuery.number values) behind
      (by simp) :: queryPointers behind values

theorem uriQueryOptions_queryBytes (hvalues : ∀ value ∈ values, value.length < 256)
    (hnumber : number ≤ CoapOption.uriQuery.number) :
    uriQueryOptions behind number (queryBytes number values) = queryPointers behind values := by
  induction values generalizing number with
  | nil =>
    rw [queryBytes, uriQueryOptions]
    rfl
  | cons value values ih =>
    have hvalue := hvalues value List.mem_cons_self
    have hmax : maxExtended = 65804 := rfl
    have hrest := ih (fun v hv => hvalues v (List.mem_cons_of_mem value hv)) le_rfl
    rw [queryBytes, uriQueryOptions_option hnumber (by omega), if_pos rfl, hrest]
    rfl

/-- **The query of a serialized request** that has no more than a token, a path and a query. -/
theorem datagramQuery_coapSerializeMessage (h : PlainRequest packet)
    (htype : packet.isOption .contentType = false) (hblock : packet.isOption .block1 = false)
    (hpayload : packet.payload = []) :
    datagramQuery (coapSerializeMessage packet) behind = queryPointers behind packet.uriQuery := by
  obtain ⟨-, -, htoken⟩ := headerByte_fields h.token
  have hdrop : (coapSerializeMessage packet).drop (coapHeaderLen + packet.token.length) =
      (serializeOptions packet).bytes := by
    unfold coapSerializeMessage
    rw [hpayload, List.append_assoc, List.append_assoc, ← List.drop_drop]
    simp [coapHeaderLen]
  have hhead : (coapSerializeMessage packet).headD 0 = headerByte packet := rfl
  have hpath : Skipped behind (serializeOption packet {} .uriPath) ∧
      (serializeOption packet {} .uriPath).currentNumber ≤ CoapOption.uriQuery.number := by
    have hempty : Skipped behind {} := fun _ => rfl
    unfold serializeOption
    split_ifs with hset
    · have hne : packet.uriPath ≠ [] := by simpa [h.isOption_uriPath] using hset
      have hskipped :=
        hempty.foldl_option (Nat.zero_le CoapOption.uriPath.number) h.uriPath (by decide)
      rw [← multiOption_eq_foldl {} hne] at hskipped
      exact ⟨hskipped, (by decide : CoapOption.uriPath.number ≤ CoapOption.uriQuery.number)⟩
    · exact ⟨hempty, Nat.zero_le _⟩
  rw [datagramQuery, hhead, htoken, hdrop, serializeOptions_eq h]
  simp only [List.foldl_cons, List.foldl_nil]
  generalize serializeOption packet {} .uriPath = w at hpath
  have hoff {o : CoapOption} (ho : packet.isOption o = false) (w : OptionWriter) :
      serializeOption packet w o = w := by
    rw [serializeOption, ho]
    rfl
  rw [hoff htype, hoff hblock]
  by_cases hnil : packet.uriQuery = []
  · rw [hoff (by simp [h.isOption_uriQuery, hnil]), hnil, ← List.append_nil w.bytes, hpath.1,
      uriQueryOptions]
    rfl
  · rw [serializeOption, if_pos (by simp [h.isOption_uriQuery, hnil]), writeOption,
      multiOption_eq_foldl w hnil, bytes_foldl_query, hpath.1,
      uriQueryOptions_queryBytes h.uriQuery hpath.2]

/-! ### Reading the query -/

variable {strtod : CString → Double × ℕ} {attrQ : Attributes} {a : Attribute}

theorem readAttributesLoop_cons (h : readOneAttribute strtod attrQ query = .ok (0, attrQ'))
    (next : List MultiOption) :
    readAttributesLoop strtod attrQ (query :: next) = readAttributesLoop strtod attrQ' next := by
  rw [readAttributesLoop, h]
  rfl

/-- An attribute with its value is read, whatever is behind it. -/
theorem readOneAttribute_of_set {v : AttributeValue} (hcontent : query.content = a.str ++ text)
    (htext : text ≠ []) (hvalue : readValue strtod a text text.length = .ok (some v))
    (hsaid : ¬ attrQ.Said a) :
    readOneAttribute strtod attrQ query = .ok (0, attrQ.setTo a v) := by
  have hlength := query.length_content
  rw [hcontent, List.length_append] at hlength
  have halone : readOneAttribute strtod attrQ query.alone = .ok (0, attrQ.setTo a v) := by
    rw [readOneAttribute_alone_of_text hcontent htext hsaid, hvalue]
    rfl
  refine (readOneAttribute_alone fun b hmisread => ?_).trans halone
  obtain ⟨hstr, hshort, -⟩ := hmisread
  have hname : a.str <+: query.data := by
    refine (MultiOption.prefix_content_iff.mp ?_).1
    rw [hcontent]
    exact List.prefix_append _ _
  have hsame := Attribute.name_unique (b.name_prefix_str.trans hstr) (a.name_prefix_str.trans hname)
  rw [hsame] at hshort
  omega

/-- A name alone clears the attribute when no '=' is behind it. -/
theorem readOneAttribute_of_cleared (hdata : query.data = a.name ++ rest)
    (hlen : query.len.toNat = a.name.length) (hrest : rest.head? ≠ some 0x3D)
    (hsaid : ¬ attrQ.Said a) :
    readOneAttribute strtod attrQ query = .ok (0, attrQ.clear a) := by
  have hname : a.name <+: query.data := hdata ▸ List.prefix_append _ _
  refine readOneAttribute_of_clear hname (fun hstr => hrest ?_) hlen hsaid
  rw [hdata, Attribute.str, List.prefix_append_right_inj] at hstr
  obtain ⟨tail, htail⟩ := hstr
  rw [← htail]
  rfl

/-- The byte behind an option is no '=' when another option of the query follows. -/
theorem head?_queryBytes (value : List Byte) (values : List (List Byte)) (rest : List Byte) :
    (queryBytes CoapOption.uriQuery.number (value :: values) ++ rest).head? ≠ some 0x3D := by
  have hall : ∀ l < 15, coapOptionNibble 0 <<< 4 ||| UInt8.ofNat l ≠ 0x3D := by decide
  have hne := hall _ (coapOptionNibble_lt value.length)
  rw [UInt8.ofNat_toNat] at hne
  exact fun h => hne (Option.some.inj h)

/-- The options that set attributes are read. -/
theorem readAttributesLoop_sets {v : Attribute → AttributeValue} {text : Attribute → List Byte}
    (hnodup : as.Nodup) (hsaid : ∀ a ∈ as, ¬ attrQ.Said a)
    (htext : ∀ a ∈ as, text a ≠ [] ∧ (a.str ++ text a).length < 256 ∧
      readValue strtod a (text a) (text a).length = .ok (some (v a))) (values : List (List Byte)) :
    readAttributesLoop strtod attrQ
      (queryPointers behind (as.map (fun a => a.str ++ text a) ++ values)) =
      readAttributesLoop strtod (as.foldl (fun attrQ a => attrQ.setTo a (v a)) attrQ)
        (queryPointers behind values) := by
  induction as generalizing attrQ with
  | nil => rfl
  | cons a as ih =>
    obtain ⟨hnew, hnodup⟩ := List.nodup_cons.mp hnodup
    obtain ⟨hne, hlength, hvalue⟩ := htext a List.mem_cons_self
    have hcontent {rest : List Byte}
        (h : (a.str ++ text a).length ≤ (a.str ++ text a ++ rest).length) :
        (pointedOption (a.str ++ text a).length (a.str ++ text a ++ rest) behind h).content =
          a.str ++ text a := by
      rw [content_pointedOption, List.take_left, multiOption_of_lt hlength]
    rw [List.map_cons, List.cons_append, queryPointers, List.foldl_cons,
      readAttributesLoop_cons (readOneAttribute_of_set (hcontent _) hne hvalue
        (hsaid a List.mem_cons_self))]
    refine ih hnodup (fun b hb => ?_) fun b hb => htext b (List.mem_cons_of_mem a hb)
    rw [Attributes.said_setTo, not_or]
    exact ⟨hsaid b (List.mem_cons_of_mem a hb), fun heq => hnew (heq ▸ hb)⟩

/-- The options that clear attributes are read, when no '=' is behind the last one. -/
theorem readAttributesLoop_clears (hnodup : as.Nodup) (hsaid : ∀ a ∈ as, ¬ attrQ.Said a)
    (hbehind : values = [] → behind.head? ≠ some 0x3D) :
    readAttributesLoop strtod attrQ (queryPointers behind (as.map Attribute.name ++ values)) =
      readAttributesLoop strtod (as.foldl Attributes.clear attrQ)
        (queryPointers behind values) := by
  induction as generalizing attrQ with
  | nil => rfl
  | cons a as ih =>
    obtain ⟨hnew, hnodup⟩ := List.nodup_cons.mp hnodup
    have hlen : (UInt8.ofNat a.name.length).toNat = a.name.length := by cases a <;> rfl
    have hnext : (queryBytes CoapOption.uriQuery.number (as.map Attribute.name ++ values) ++
        behind).head? ≠ some 0x3D := by
      cases hvalues : as.map Attribute.name ++ values with
      | nil => exact hbehind (List.append_eq_nil_iff.mp hvalues).2
      | cons value values => exact head?_queryBytes value values behind
    rw [List.map_cons, List.cons_append, queryPointers, List.foldl_cons,
      readAttributesLoop_cons (readOneAttribute_of_cleared (List.append_assoc ..) hlen hnext
        (hsaid a List.mem_cons_self))]
    refine ih hnodup fun b hb => ?_
    rw [Attributes.said_clear, not_or]
    exact ⟨hsaid b (List.mem_cons_of_mem a hb), fun heq => hnew (heq ▸ hb)⟩

/-! ### The attributes that are read -/

theorem Attribute.nodup_all : Attribute.all.Nodup := by decide

theorem Attribute.mem_all (a : Attribute) : a ∈ Attribute.all := by cases a <;> decide

/-- The attributes whose flags are in a set of flags. -/
def flagged (flags : UInt8) : List Attribute := Attribute.all.filter (flags &&& ·.flag ≠ 0)

theorem mem_flagged : a ∈ flagged flags ↔ flags &&& a.flag ≠ 0 := by
  rw [flagged, List.mem_filter, and_iff_right a.mem_all, decide_eq_true_iff]

theorem nodup_flagged (flags : UInt8) : (flagged flags).Nodup := Attribute.nodup_all.filter _

/-- Flags of attributes only are put together again. -/
theorem foldl_flagged (h : flags ≤ 0x1F) :
    (flagged flags).foldl (fun x a => x ||| a.flag) 0 = flags := by
  have hall : ∀ n < 32, (flagged (UInt8.ofNat n)).foldl (fun x a => x ||| a.flag) 0 =
      UInt8.ofNat n := by decide
  have hlt := UInt8.le_iff_toNat_le.mp h
  have hflags := hall flags.toNat (Nat.lt_succ_of_le hlt)
  rwa [UInt8.ofNat_toNat] at hflags

/-- An attribute is not in two disjoint sets of flags. -/
theorem not_mem_flagged {flags' : UInt8} (h : flags &&& flags' = 0) (ha : a ∈ flagged flags') :
    a ∉ flagged flags := by
  rw [mem_flagged] at ha ⊢
  have hall : ∀ n < 256, UInt8.ofNat n &&& a.flag ≠ 0 → UInt8.ofNat n &&& a.flag = a.flag := by
    cases a <;> decide +kernel
  have hbit (x : UInt8) (h : x &&& a.flag ≠ 0) : x &&& a.flag = a.flag := by
    have hx := hall x.toNat x.toNat_lt
    rw [UInt8.ofNat_toNat] at hx
    exact hx h
  intro ha'
  have hboth : (flags &&& flags') &&& a.flag = a.flag := by
    rw [UInt8.and_assoc, hbit _ ha, hbit _ ha']
  rw [h, UInt8.zero_and] at hboth
  cases a <;> exact absurd hboth (by decide)

section

variable {v : Attribute → AttributeValue} {as : List Attribute}

theorem toSet_foldl_setTo : (as.foldl (fun attrQ a => attrQ.setTo a (v a)) attrQ).toSet =
    as.foldl (fun x a => x ||| a.flag) attrQ.toSet := by
  induction as generalizing attrQ with
  | nil => rfl
  | cons a as ih => rw [List.foldl_cons, ih, Attributes.toSet_setTo, List.foldl_cons]

theorem toClear_foldl_setTo :
    (as.foldl (fun attrQ a => attrQ.setTo a (v a)) attrQ).toClear = attrQ.toClear := by
  induction as generalizing attrQ with
  | nil => rfl
  | cons a as ih => rw [List.foldl_cons, ih, Attributes.toClear_setTo]

theorem said_foldl_setTo :
    (as.foldl (fun attrQ a => attrQ.setTo a (v a)) attrQ).Said a ↔ attrQ.Said a ∨ a ∈ as := by
  induction as generalizing attrQ with
  | nil => simp
  | cons b as ih => rw [List.foldl_cons, ih, Attributes.said_setTo, List.mem_cons, or_assoc]

/-- Every attribute that is set keeps its value. -/
theorem value_foldl_setTo (hnodup : as.Nodup) (hv : ∀ b ∈ as, ∀ q : Attributes,
      (q.setTo b (v b)).value b = v b) :
    (as.foldl (fun attrQ a => attrQ.setTo a (v a)) attrQ).value a =
      if a ∈ as then v a else attrQ.value a := by
  induction as generalizing attrQ with
  | nil => rfl
  | cons b as ih =>
    obtain ⟨hnew, hnodup⟩ := List.nodup_cons.mp hnodup
    rw [List.foldl_cons, ih hnodup fun c hc => hv c (List.mem_cons_of_mem b hc)]
    by_cases hmem : a ∈ as
    · rw [if_pos hmem, if_pos (List.mem_cons_of_mem b hmem)]
    rw [if_neg hmem]
    by_cases heq : a = b
    · rw [if_pos (List.mem_cons.mpr (.inl heq)), heq]
      exact hv b List.mem_cons_self attrQ
    · rw [if_neg (by simp [heq, hmem]), Attributes.value_setTo_of_ne _ _ _ _ heq]

theorem toClear_foldl_clear :
    (as.foldl Attributes.clear attrQ).toClear =
      as.foldl (fun x a => x ||| a.flag) attrQ.toClear := by
  induction as generalizing attrQ with
  | nil => rfl
  | cons a as ih => exact ih

theorem toSet_foldl_clear : (as.foldl Attributes.clear attrQ).toSet = attrQ.toSet := by
  induction as generalizing attrQ with
  | nil => rfl
  | cons a as ih => exact ih

theorem said_foldl_clear :
    (as.foldl Attributes.clear attrQ).Said a ↔ attrQ.Said a ∨ a ∈ as := by
  induction as generalizing attrQ with
  | nil => simp
  | cons b as ih => rw [List.foldl_cons, ih, Attributes.said_clear, List.mem_cons, or_assoc]

theorem value_foldl_clear : (as.foldl Attributes.clear attrQ).value a = attrQ.value a := by
  induction as generalizing attrQ with
  | nil => rfl
  | cons b as ih =>
    rw [List.foldl_cons, ih]
    cases a <;> rfl

end

theorem not_said_noAttributes : ¬ noAttributes.Said a := by
  cases a <;> decide

/-- **The last name with an '=' behind it** does not clear its attribute. -/
theorem readAttributesLoop_lastName (hsaid : ¬ attrQ.Said a)
    (h : readAttributesLoop strtod attrQ
      (queryPointers (0x3D :: rest) [a.name]) = .ok (0, attrQ')) :
    attrQ'.toClear = attrQ.toClear := by
  have hlen : (UInt8.ofNat a.name.length).toNat = a.name.length := by cases a <;> rfl
  have hpointers : queryPointers (0x3D :: rest) [a.name] =
      [pointedOption a.name.length (a.name ++ []) (0x3D :: rest) (by simp)] := rfl
  rw [hpointers] at h
  generalize hquery :
    pointedOption a.name.length (a.name ++ []) (0x3D :: rest) (by simp) = query at h
  have hmisread : query.Misread a := by
    rw [← hquery]
    refine ⟨⟨rest, ?_⟩, ?_, .inr ?_⟩
    · change a.name ++ [0x3D] ++ rest = a.name ++ [] ++ 0x3D :: rest
      simp
    · change (UInt8.ofNat a.name.length).toNat < a.str.length
      rw [hlen, a.length_str]
      exact Nat.lt_succ_self _
    · change (UInt8.ofNat a.name.length).toNat + 1 = a.str.length
      rw [hlen, a.length_str]
  rw [readAttributesLoop] at h
  rcases (readOneAttribute_of_misread strtod hmisread hsaid).1 with ⟨-, hread⟩ | ⟨e, hread⟩
  · rw [hread] at h
    cases h
    exact Attributes.toClear_setTo _ _ _
  · rw [hread] at h
    cases h

/-- **The query of a request comes back** exactly when nothing is cleared or no '=' is behind the
datagram. -/
theorem comesBack_queryPointers_iff {attrP : Attributes} {text : Attribute → List Byte}
    (hset : attrP.toSet ≤ 0x1F) (hclear : attrP.toClear ≤ 0x1F)
    (hdisjoint : attrP.toSet &&& attrP.toClear = 0)
    (htext : ∀ a ∈ flagged attrP.toSet, text a ≠ [] ∧ (a.str ++ text a).length < 256 ∧
      readValue strtod a (text a) (text a).length = .ok (some (attrP.value a))) :
    (∃ attrQ, prvReadAttributes strtod (queryPointers behind
        ((flagged attrP.toSet).map (fun a => a.str ++ text a) ++
          (flagged attrP.toClear).map Attribute.name)) = .ok (0, attrQ) ∧
      attrQ.toSet = attrP.toSet ∧ attrQ.toClear = attrP.toClear ∧
      ∀ a : Attribute, attrP.toSet &&& a.flag ≠ 0 → attrQ.value a = attrP.value a) ↔
    (attrP.toClear = 0 ∨ behind.head? ≠ some 0x3D) := by
  have hstart (a : Attribute) : ¬ noAttributes.Said a := not_said_noAttributes
  rw [prvReadAttributes, readAttributesLoop_sets (nodup_flagged _) (fun a _ => hstart a) htext]
  have hsets : ((flagged attrP.toSet).foldl (fun attrQ a => attrQ.setTo a (attrP.value a))
      noAttributes).toSet = attrP.toSet := by
    rw [toSet_foldl_setTo]
    exact foldl_flagged hset
  have hnone : ((flagged attrP.toSet).foldl (fun attrQ a => attrQ.setTo a (attrP.value a))
      noAttributes).toClear = 0 := toClear_foldl_setTo
  have hvalue (a : Attribute) (ha : attrP.toSet &&& a.flag ≠ 0) :
      ((flagged attrP.toSet).foldl (fun attrQ a => attrQ.setTo a (attrP.value a))
        noAttributes).value a = attrP.value a := by
    rw [value_foldl_setTo (nodup_flagged _) fun b _ q => by cases b <;> rfl]
    exact if_pos (mem_flagged.mpr ha)
  have hfree (a : Attribute) (ha : a ∈ flagged attrP.toClear) :
      ¬ ((flagged attrP.toSet).foldl (fun attrQ a => attrQ.setTo a (attrP.value a))
        noAttributes).Said a := by
    rw [said_foldl_setTo, not_or]
    exact ⟨hstart a, not_mem_flagged hdisjoint ha⟩
  generalize (flagged attrP.toSet).foldl (fun attrQ a => attrQ.setTo a (attrP.value a))
    noAttributes = attrQ at hsets hnone hvalue hfree ⊢
  by_cases hbehind : attrP.toClear = 0 ∨ behind.head? ≠ some 0x3D
  · refine iff_of_true ?_ hbehind
    refine ⟨(flagged attrP.toClear).foldl Attributes.clear attrQ, ?_, ?_, ?_, ?_⟩
    · rcases hbehind with hzero | hbehind
      · rw [hzero]
        rfl
      · rw [← List.append_nil ((flagged attrP.toClear).map Attribute.name),
          readAttributesLoop_clears (nodup_flagged _) hfree fun _ => hbehind]
        rfl
    · rw [toSet_foldl_clear, hsets]
    · rw [toClear_foldl_clear, hnone, foldl_flagged hclear]
    · intro a ha
      rw [value_foldl_clear, hvalue a ha]
  · refine iff_of_false ?_ hbehind
    rintro ⟨attrQ', hread, -, hsame, -⟩
    obtain ⟨hclears, heq⟩ := not_or.mp hbehind
    obtain ⟨rest, rfl⟩ : ∃ rest, behind = 0x3D :: rest :=
      List.head?_eq_some_iff.mp (not_not.mp heq)
    have hnonempty : flagged attrP.toClear ≠ [] := fun hempty => hclears (by
      have hflags := foldl_flagged hclear
      rw [hempty] at hflags
      exact hflags.symm)
    obtain ⟨front, a, hlast⟩ := (List.eq_nil_or_concat _).resolve_left hnonempty
    rw [List.concat_eq_append] at hlast
    have hnodup := nodup_flagged attrP.toClear
    rw [hlast] at hnodup hfree
    obtain ⟨hfront, -, hapart⟩ := List.nodup_append.mp hnodup
    have hsaid : ¬ (front.foldl Attributes.clear attrQ).Said a := by
      rw [said_foldl_clear, not_or]
      exact ⟨hfree a (by simp), fun ha => hapart a ha a List.mem_cons_self rfl⟩
    rw [hlast, List.map_append, List.map_singleton, readAttributesLoop_clears hfront
      (fun b hb => hfree b (List.mem_append_left _ hb)) fun h => absurd h (List.cons_ne_nil _ _)]
      at hread
    have hkept := readAttributesLoop_lastName hsaid hread
    have hcleared : a ∈ flagged attrP.toClear := hlast ▸ List.mem_append_right _ List.mem_cons_self
    rw [mem_flagged, ← hsame, hkept] at hcleared
    exact hsaid ((Attributes.said_iff _ _).mpr (.inr hcleared))

/-! ### The message -/

/-- A request with no more than a token, a path and a query. -/
structure Bare (packet : Packet) : Prop extends PlainRequest packet where
  contentType : packet.isOption .contentType = false
  block1 : packet.isOption .block1 = false
  payload : packet.payload = []

theorem bare_coapInitMessage (code : Code) (mid : UInt16) :
    Bare (coapInitMessage .con code mid) := by
  have hnone (o : CoapOption) : (coapInitMessage .con code mid).isOption o = false := by
    simp [Packet.isOption, coapInitMessage]
  constructor
  case toPlainRequest =>
    constructor
    case others => exact fun o _ => hnone o
    case block1_size => exact fun h => absurd ((hnone .block1).symm.trans h) Bool.false_ne_true
    case isOption_token => exact hnone .token
    case isOption_uriPath => exact hnone .uriPath
    case isOption_uriQuery => exact hnone .uriQuery
    case block1_num => exact (by decide : ({} : Coap.BlockFields).num.toNat < 2 ^ 20)
    case block1_more => exact .inl rfl
    case token => exact Nat.zero_le _
    case uriPath => exact fun _ h => absurd h List.not_mem_nil
    case uriQuery => exact fun _ h => absurd h List.not_mem_nil
    all_goals rfl
  case contentType => exact hnone .contentType
  case block1 => exact hnone .block1
  case payload => rfl

/-- A list to which an option is added has short entries only, and is not empty. -/
theorem short_coapAddMultiOption {dst : List (List Byte)} (h : ∀ x ∈ dst, x.length < 256)
    (option : List Byte) : ∀ x ∈ coapAddMultiOption dst option, x.length < 256 := by
  intro x hx
  rcases List.mem_append.mp hx with hx | hx
  · exact h x hx
  · rw [List.mem_singleton.mp hx, multiOption, List.length_take]
    exact (min_le_left _ _).trans_lt (Nat.mod_lt _ (by decide))

theorem coapAddMultiOption_ne_nil (dst : List (List Byte)) (option : List Byte) :
    coapAddMultiOption dst option ≠ [] :=
  List.append_ne_nil_of_right_ne_nil _ (List.cons_ne_nil _ _)

namespace Bare

/-- The token, the path or the query is set. -/
theorem mark (h : Bare packet) {token : List Byte} {uriPath uriQuery : List (List Byte)}
    {o : CoapOption} (ho : o ∈ [CoapOption.token, .uriPath, .uriQuery])
    (htoken : token.length ≤ coapTokenLen) (hpath : ∀ segment ∈ uriPath, segment.length < 256)
    (hquery : ∀ segment ∈ uriQuery, segment.length < 256)
    (hsetToken : (packet.isOption .token || decide (.token = o)) = decide (token ≠ []))
    (hsetPath : (packet.isOption .uriPath || decide (.uriPath = o)) = decide (uriPath ≠ []))
    (hsetQuery : (packet.isOption .uriQuery || decide (.uriQuery = o)) = decide (uriQuery ≠ [])) :
    Bare ({ packet with token, uriPath, uriQuery }.markOption o) := by
  have hset (o' : CoapOption) : ({ packet with token, uriPath, uriQuery }.markOption o).isOption o' =
      (packet.isOption o' || decide (o' = o)) := Packet.isOption_markOption _ _ _
  have hother {o' : CoapOption} (hne : o' ∉ [CoapOption.token, .uriPath, .uriQuery]) :
      ({ packet with token, uriPath, uriQuery }.markOption o).isOption o' = packet.isOption o' := by
    have hdiffer : ¬ o' = o := fun heq => hne (heq ▸ ho)
    rw [hset, decide_eq_false hdiffer, Bool.or_false]
  constructor
  case toPlainRequest =>
    exact { h.toPlainRequest with
      token := htoken
      isOption_token := (hset _).trans hsetToken
      uriPath := hpath
      isOption_uriPath := (hset _).trans hsetPath
      uriQuery := hquery
      isOption_uriQuery := (hset _).trans hsetQuery
      block1_size := fun hb => h.block1_size ((hother (by decide)).symm.trans hb)
      others := fun o' ho' =>
        (hother fun hin => ho' (List.mem_append_left [.contentType, .block1] hin)).trans
          (h.others o' ho') }
  case contentType => exact (hother (by decide)).trans h.contentType
  case block1 => exact (hother (by decide)).trans h.block1
  case payload => exact h.payload

theorem addPathSegment (h : Bare packet) (segment : CString) :
    Bare (packet.coapSetHeaderUriPathSegment segment) :=
  h.mark (by decide) h.token (short_coapAddMultiOption h.uriPath segment) h.uriQuery
    (by simp [h.isOption_token]) (by simp [coapAddMultiOption_ne_nil])
    (by simp [h.isOption_uriQuery])

theorem addQueryOption (h : Bare packet) (option : List Byte) :
    Bare (addUriQuery packet option) :=
  h.mark (by decide) h.token h.uriPath (short_coapAddMultiOption h.uriQuery option)
    (by simp [h.isOption_token]) (by simp [h.isOption_uriPath])
    (by simp [coapAddMultiOption_ne_nil])

variable {token : List Byte}

theorem setToken (h : Bare packet) (hne : token ≠ []) :
    Bare (packet.coapSetHeaderToken token) := by
  have hstored : token.take coapTokenLen ≠ [] := by
    rw [ne_eq, List.take_eq_nil_iff, not_or]
    exact ⟨by decide, hne⟩
  exact h.mark (by decide) (List.length_take_le _ _) h.uriPath h.uriQuery (by simp [hstored])
    (by simp [h.isOption_uriPath]) (by simp [h.isOption_uriQuery])

/-- Options are added to the query. -/
theorem foldl_addUriQuery (h : Bare packet) (options : List (List Byte)) :
    Bare (options.foldl addUriQuery packet) := by
  induction options generalizing packet with
  | nil => exact h
  | cons option options ih => exact ih (h.addQueryOption option)

/-- The message of a new transaction. -/
theorem of_transactionNew {sessionH : Session} {method : Code} {altPath : Option CString}
    {uriP : Option Uri} {mID : UInt16}
    (h : transactionNew sessionH method altPath uriP mID token = some transaction) :
    Bare transaction.message ∧ transaction.message.uriQuery = [] := by
  have hpath (segments : List CString) {packet : Packet} (hbare : Bare packet)
      (hquery : packet.uriQuery = []) :
      Bare (segments.foldl Packet.coapSetHeaderUriPathSegment packet) ∧
        (segments.foldl Packet.coapSetHeaderUriPathSegment packet).uriQuery = [] := by
    induction segments generalizing packet with
    | nil => exact ⟨hbare, hquery⟩
    | cons segment segments ih => exact ih (hbare.addPathSegment segment) hquery
  obtain ⟨hbare, hquery⟩ := hpath (pathSegments altPath uriP) (bare_coapInitMessage method mID) rfl
  unfold transactionNew at h
  split_ifs at h with hsession htoken
  · cases h
    exact ⟨hbare.setToken (List.ne_nil_of_length_pos htoken), hquery⟩
  · cases h
    exact ⟨hbare, hquery⟩

end Bare

/-! ### The options -/

section

variable {floatToText : Double → ℕ → Option (List Byte)} {attrP : Attributes}

variable (floatToText attrP) in
/-- The text of an attribute that is set. -/
def setText (a : Attribute) : List Byte :=
  (valueToText floatToText (attrP.value a) (prvBufferSize - a.str.length)).getD []

variable (floatToText attrP) in
/-- The options of a query: an attribute with its value for each that is set, and the name of each
that is cleared. -/
def attributeOptions : List (List Byte) :=
  (flagged attrP.toSet).map (fun a => a.str ++ setText floatToText attrP a) ++
    (flagged attrP.toClear).map Attribute.name

/-- **The options that are added** are those of the attributes, and every value has a text. -/
theorem addAttributeOptions_eq_some {coapPkt message : Packet}
    (h : addAttributeOptions floatToText attrP coapPkt = some message) :
    (∀ a ∈ flagged attrP.toSet, valueToText floatToText (attrP.value a)
        (prvBufferSize - a.str.length) = some (setText floatToText attrP a)) ∧
      message = (attributeOptions floatToText attrP).foldl addUriQuery coapPkt := by
  have hsets (as : List Attribute) {coapPkt message : Packet}
      (h : as.foldlM (addSetOption floatToText attrP) coapPkt = some message) :
      (∀ a ∈ as.filter (attrP.toSet &&& ·.flag ≠ 0), valueToText floatToText (attrP.value a)
          (prvBufferSize - a.str.length) = some (setText floatToText attrP a)) ∧
        message = ((as.filter (attrP.toSet &&& ·.flag ≠ 0)).map
          (fun a => a.str ++ setText floatToText attrP a)).foldl addUriQuery coapPkt := by
    induction as generalizing coapPkt with
    | nil =>
      cases h
      exact ⟨fun a ha => absurd ha List.not_mem_nil, rfl⟩
    | cons a as ih =>
      rw [List.foldlM_cons] at h
      obtain ⟨next, hnext, h⟩ := Option.bind_eq_some_iff.mp h
      obtain ⟨htexts, hmessage⟩ := ih h
      unfold addSetOption at hnext
      split_ifs at hnext with hflag
      · obtain ⟨text, htext, hadd⟩ := Option.map_eq_some_iff.mp hnext
        have hsame : setText floatToText attrP a = text := by rw [setText, htext, Option.getD_some]
        have hkept : (a :: as).filter (attrP.toSet &&& ·.flag ≠ 0) =
            a :: as.filter (attrP.toSet &&& ·.flag ≠ 0) :=
          List.filter_cons_of_pos (decide_eq_true hflag)
        rw [hkept, List.map_cons, List.foldl_cons, hsame, hadd]
        refine ⟨List.forall_mem_cons.mpr ⟨?_, htexts⟩, hmessage⟩
        rw [htext, hsame]
      · cases hnext
        rw [List.filter_cons_of_neg (by simpa using hflag)]
        exact ⟨htexts, hmessage⟩
  have hclears (as : List Attribute) (coapPkt : Packet) :
      as.foldl (addClearOption attrP) coapPkt =
        ((as.filter (attrP.toClear &&& ·.flag ≠ 0)).map Attribute.name).foldl addUriQuery
          coapPkt := by
    induction as generalizing coapPkt with
    | nil => rfl
    | cons a as ih =>
      rw [List.foldl_cons, ih, addClearOption]
      by_cases hflag : attrP.toClear &&& a.flag ≠ 0
      · have hkept : (a :: as).filter (attrP.toClear &&& ·.flag ≠ 0) =
            a :: as.filter (attrP.toClear &&& ·.flag ≠ 0) :=
          List.filter_cons_of_pos (decide_eq_true hflag)
        rw [if_pos hflag, hkept, List.map_cons, List.foldl_cons]
      · rw [if_neg hflag, List.filter_cons_of_neg (by simpa using hflag)]
  obtain ⟨withSets, hwith, h⟩ := Option.map_eq_some_iff.mp h
  obtain ⟨htexts, hmessage⟩ := hsets _ hwith
  refine ⟨htexts, ?_⟩
  rw [attributeOptions, List.foldl_append, ← h, hclears, hmessage]
  rfl

/-- The entries that are recorded for options. -/
theorem uriQuery_foldl_addUriQuery (options : List (List Byte)) (coapPkt : Packet) :
    (options.foldl addUriQuery coapPkt).uriQuery =
      coapPkt.uriQuery ++ options.map multiOption := by
  induction options generalizing coapPkt with
  | nil => exact (List.append_nil _).symm
  | cons option options ih =>
    rw [List.foldl_cons, ih, List.map_cons]
    exact List.append_assoc _ _ _

/-! ### The texts -/

/-- A numeral of 32 bits is read back. -/
theorem utilsTextToInt_decimal {n : ℕ} (h : n < 2 ^ 32) :
    utilsTextToInt (decimal n) (decimal n).length = some (n : ℤ) := by
  have hdigits : ∀ b ∈ decimal n, isDigit b = true := fun _ hb => isDigit_of_mem_decimal hb
  have hlt : n < 2 ^ 64 := h.trans (by decide)
  have hnumber := UInt64.toNat_ofNat_of_lt' (show n < UInt64.size from hlt)
  have hsign : (decimal n).head? ≠ some 0x2D := by
    intro hhead
    have hb := hdigits 0x2D (List.mem_of_head? hhead)
    exact absurd hb (by decide)
  unfold utilsTextToInt
  have hne : ((decimal n).length : ℤ) ≠ 0 := by
    have := List.length_pos_of_ne_nil (decimal_ne_nil n)
    omega
  rw [if_neg hne]
  dsimp only
  rw [if_neg hsign, Int.toNat_natCast, List.take_length, List.drop_zero, textDigits_decimal hlt]
  dsimp only
  rw [if_neg hsign, if_neg (by omega), hnumber]

end

/-- **The query of a datagram is the one that the parser stores.** -/
theorem uriQuery_coapParseMessage {datagram : List Byte}
    (h : coapParseMessage datagram = .ok (noError, packet')) :
    packet'.uriQuery = (datagramQuery datagram behind).map MultiOption.content := by
  have hrequest : coap400BadRequest ≠ noError := by decide
  match datagram, h with
  | b₀ :: code :: hi :: lo :: bytes, h =>
    have hlength : (headerPacket b₀ code hi lo).token.length = headerTokenLen b₀ :=
      List.length_replicate
    have hquery : datagramQuery (b₀ :: code :: hi :: lo :: bytes) behind =
        uriQueryOptions behind 0 (bytes.drop (headerTokenLen b₀)) := by
      rw [datagramQuery, List.headD_cons, ← List.drop_drop]
      rfl
    rw [coapParseMessage, parseTokenAndOptions, hlength] at h
    rw [hquery]
    split_ifs at h with hversion htoken hshort
    · exact absurd (Prod.mk.inj (Except.ok.inj h)).1 hrequest
    · exact uriQuery_parseOptions behind h
    · rw [not_not.mp htoken, List.drop_zero]
      exact uriQuery_parseOptions behind h

section

variable (floatToText : Double → ℕ → Option (List Byte)) (strtod : CString → Double × ℕ)

/-- The conversion of a `double` is exact: each text of it that is written fits its buffer, and is
read as the same `double`. -/
def ConvertsExactly (d : Double) : Prop :=
  ∀ length text, floatToText d length = some text → text ≠ [] ∧ text.length ≤ length ∧
    utilsTextToFloat strtod text text.length = .ok (some d)

end

section

variable {floatToText : Double → ℕ → Option (List Byte)} {attrP : Attributes}

/-- The text of an attribute is read back. -/
theorem readValue_text (hstep : a = .step → attrP.step.negative = false)
    (hexact : ∀ d, attrP.value a = .threshold d → ConvertsExactly floatToText strtod d)
    (htext : valueToText floatToText (attrP.value a) (prvBufferSize - a.str.length) = some text) :
    text ≠ [] ∧ (a.str ++ text).length < 256 ∧
      readValue strtod a text text.length = .ok (some (attrP.value a)) := by
  have hfits (hlength : text.length ≤ prvBufferSize - a.str.length) :
      (a.str ++ text).length < 256 := by
    have hsize : prvBufferSize = 32 := rfl
    have hstr : a.str.length ≤ 5 := by cases a <;> decide
    rw [List.length_append]
    omega
  have hperiod (v : UInt32) (hv : attrP.value a = .period v) (ha : a.IsPeriod) :
      text ≠ [] ∧ (a.str ++ text).length < 256 ∧
        readValue strtod a text text.length = .ok (some (.period v)) := by
    rw [hv, valueToText, utilsIntToText_natCast, utilsUintToText_eq] at htext
    split_ifs at htext with hlength
    cases htext
    refine ⟨decimal_ne_nil _, hfits hlength, ?_⟩
    unfold readValue
    rw [if_pos ha, utilsTextToInt_decimal v.toNat_lt, Option.bind_some,
      if_neg (Int.not_lt.mpr (Int.natCast_nonneg _)), Int.toNat_natCast, UInt32.ofNat_toNat]
  have hthreshold (d : Double) (hd : attrP.value a = .threshold d) (ha : ¬ a.IsPeriod)
      (hsign : a = .step → d.negative = false) :
      text ≠ [] ∧ (a.str ++ text).length < 256 ∧
        readValue strtod a text text.length = .ok (some (.threshold d)) := by
    rw [hd, valueToText] at htext
    obtain ⟨hne, hlength, hread⟩ := hexact d hd _ _ htext
    refine ⟨hne, hfits hlength, ?_⟩
    unfold readValue
    have hpositive : ¬ (a = .step ∧ d.negative = true) := fun ⟨ha, hneg⟩ =>
      absurd hneg (by rw [hsign ha]; decide)
    rw [if_neg ha, hread, ok_bind, Option.bind_some, if_neg hpositive]
    rfl
  cases a with
  | minPeriod => exact hperiod _ rfl (by decide)
  | maxPeriod => exact hperiod _ rfl (by decide)
  | greaterThan | lessThan => exact hthreshold _ rfl (by decide) fun h => nomatch h
  | step => exact hthreshold _ rfl (by decide) hstep

variable {tvSec : ℤ}

variable {overlaps : Attributes → Bool} {contextP : ClientContext} {nextMID clientID : UInt16}
  {uriP : Uri} {dataP : Option (ℕ × ℕ)}

/-- The transaction of a request that is not refused. -/
theorem writeAttributesTransaction_eq_ok
    (h : writeAttributesTransaction floatToText overlaps contextP nextMID tvSec clientID uriP
      (some attrP) dataP = .ok transaction) :
    attrP.toSet &&& attrP.toClear = 0 ∧ transaction.buffer = none ∧ ∃ coapPkt, Bare coapPkt ∧
      coapPkt.uriQuery = [] ∧
      addAttributeOptions floatToText attrP coapPkt = some transaction.message := by
  unfold writeAttributesTransaction at h
  dsimp only at h
  split_ifs at h with hdisjoint hresource hoverlap
  cases hclient : contextP.clientList.find? (·.internalID = clientID) with
  | none =>
    rw [hclient] at h
    cases h
  | some clientP =>
    rw [hclient] at h
    dsimp only at h
    cases hnew : transactionNew clientP.sessionH 3 clientP.altPath (some uriP) nextMID
        (generatedToken nextMID tvSec) with
    | none =>
      rw [hnew] at h
      cases h
    | some created =>
      rw [hnew] at h
      dsimp only at h
      cases hadd : addAttributeOptions floatToText attrP created.message with
      | none =>
        rw [hadd] at h
        cases h
      | some message =>
        rw [hadd] at h
        cases h
        obtain ⟨hbare, hquery⟩ := Bare.of_transactionNew hnew
        have hbuffer : created.buffer = none := by
          unfold transactionNew at hnew
          split_ifs at hnew <;> cases hnew <;> rfl
        exact ⟨not_not.mp hdisjoint, hbuffer, _, hbare, hquery, hadd⟩

/-- A request that is refused has no result 0. -/
theorem writeAttributesTransaction_ne_error {attrP : Option Attributes} :
    writeAttributesTransaction floatToText
      overlaps contextP nextMID tvSec clientID uriP attrP dataP ≠ .error 0 := by
  intro h
  unfold writeAttributesTransaction at h
  cases attrP with
  | none => exact absurd (Except.error.inj h) (by decide)
  | some attrP =>
    dsimp only at h
    split_ifs at h
    · exact absurd (Except.error.inj h) (by decide)
    · exact absurd (Except.error.inj h) (by decide)
    · exact absurd (Except.error.inj h) (by decide)
    · split at h
      · exact absurd (Except.error.inj h) (by decide)
      · split at h
        · exact absurd (Except.error.inj h) (by decide)
        · split at h
          · exact absurd (Except.error.inj h) (by decide)
          · cases h

/-- What is sent for a new transaction, and its length. -/
theorem transactionSend_zero {t t' : Transaction} {sent : List Output}
    (h : transactionSend tvSec t = .ok (t', sent, 0)) (hbuffer : t.buffer = none) :
    sent = [.datagram t.peerH (coapSerializeMessage t.message)] ∧
      (coapSerializeMessage t.message).length < 65536 := by
  constructor
  · obtain ⟨-, -, hne, -⟩ | ⟨u, buffer, hbuffered, hcase⟩ := transactionSend_cases h
    · exact absurd rfl hne
    · cases hbuffered with
      | old hold => exact absurd (hbuffer.symm.trans hold) (Option.some_ne_none _).symm
      | new => cases hcase <;> rfl
  · unfold transactionSend at h
    obtain ⟨prepared, hprepared, h⟩ := bind_eq_ok_iff.mp h
    cases prepared with
    | none => cases h
    | some prepared =>
      unfold serializeBuffer at hprepared
      rw [hbuffer] at hprepared
      dsimp only at hprepared
      split_ifs at hprepared with hzero hshort
      · cases hprepared
      · cases hprepared
      · have hmod := Nat.mod_lt (coapSerializeGetSize t.message) (show 0 < 65536 by decide)
        omega

/-- **The attributes of a Write-Attributes request come back** from its datagram exactly when none
is cleared, or what the buffer holds behind the datagram does not start with '='. -/
theorem lwm2mDmWriteAttributes_comesBack_iff {overlaps : Attributes → Bool}
    {contextP : ClientContext} {nextMID clientID : UInt16} {tvSec : ℤ} {uriP : Uri}
    {dataP : Option (ℕ × ℕ)} {sent : List Output}
    (haccepted : lwm2mDmWriteAttributes floatToText overlaps contextP nextMID tvSec clientID uriP
      (some attrP) dataP = .ok (sent, 0))
    (hset : attrP.toSet ≤ 0x1F) (hclear : attrP.toClear ≤ 0x1F)
    (hstep : attrP.toSet &&& attrFlagStep ≠ 0 → attrP.step.negative = false)
    (hexact : ∀ (a : Attribute) d, attrP.toSet &&& a.flag ≠ 0 → attrP.value a = .threshold d →
      ConvertsExactly floatToText strtod d) :
    ∃ sessionH datagram packet, sent = [.datagram sessionH datagram] ∧
      parseReceived datagram = .ok (noError, packet) ∧
      ∀ behind, packet.uriQuery = (datagramQuery datagram behind).map MultiOption.content ∧
        (ComesBack strtod attrP datagram behind ↔
          attrP.toClear = 0 ∨ behind.head? ≠ some 0x3D) := by
  unfold lwm2mDmWriteAttributes at haccepted
  cases htransaction : writeAttributesTransaction floatToText overlaps contextP nextMID tvSec
      clientID uriP (some attrP) dataP with
  | error code =>
    rw [htransaction] at haccepted
    have hresult : (code.toNat : ℤ) = 0 := (Prod.mk.inj (Except.ok.inj haccepted)).2
    have hzero : code = 0 := UInt8.toNat_inj.mp (Int.natCast_eq_zero.mp hresult)
    exact absurd (hzero ▸ htransaction) writeAttributesTransaction_ne_error
  | ok transaction =>
    rw [htransaction] at haccepted
    obtain ⟨⟨t', sent', result⟩, hsend, heq⟩ := bind_eq_ok_iff.mp haccepted
    cases heq
    obtain ⟨hdisjoint, hbuffer, coapPkt, hbare, hquery, hadd⟩ :=
      writeAttributesTransaction_eq_ok htransaction
    obtain ⟨rfl, hlength⟩ := transactionSend_zero hsend hbuffer
    obtain ⟨htexts, hmessage⟩ := addAttributeOptions_eq_some hadd
    have hread (a : Attribute) (ha : a ∈ flagged attrP.toSet) :
        setText floatToText attrP a ≠ [] ∧ (a.str ++ setText floatToText attrP a).length < 256 ∧
          readValue strtod a (setText floatToText attrP a) (setText floatToText attrP a).length =
            .ok (some (attrP.value a)) := by
      have hflag := mem_flagged.mp ha
      refine readValue_text (fun hA => hstep ?_) (fun d => hexact a d hflag) (htexts a ha)
      rwa [hA] at hflag
    have hplain : Bare transaction.message := hmessage ▸ hbare.foldl_addUriQuery _
    have hshort : ∀ option ∈ attributeOptions floatToText attrP, multiOption option = option := by
      intro option hoption
      refine multiOption_of_lt ?_
      rcases List.mem_append.mp hoption with hoption | hoption
      · obtain ⟨a, ha, rfl⟩ := List.mem_map.mp hoption
        exact (hread a ha).2.1
      · obtain ⟨a, -, rfl⟩ := List.mem_map.mp hoption
        cases a <;> decide
    have hoptions : transaction.message.uriQuery = attributeOptions floatToText attrP := by
      rw [hmessage, uriQuery_foldl_addUriQuery, hquery, List.nil_append]
      exact (List.map_congr_left hshort).trans (List.map_id _)
    have hparse := coapParseMessage_coapSerializeMessage hplain.toPlainRequest
    refine ⟨_, _, _, rfl, ?_, fun behind => ⟨uriQuery_coapParseMessage hparse, ?_⟩⟩
    · rw [parseReceived, Nat.mod_eq_of_lt hlength, List.take_length]
      exact hparse
    · unfold ComesBack
      rw [datagramQuery_coapSerializeMessage hplain.toPlainRequest hplain.contentType hplain.block1
        hplain.payload, hoptions]
      exact comesBack_queryPointers_iff hset hclear hdisjoint hread

end

end

/-- A server with one client. -/
def oneClient : ClientContext where
  clientList := [{ address := 0, internalID := 7, sessionH := some 1 }]

/-- A conversion of the number 1. -/
def floatToTextOne (d : Double) (length : ℕ) : Option (List Byte) :=
  if d = ⟨0x3FF0000000000000⟩ ∧ 3 ≤ length then some [0x31, 0x2E, 0x30] else none

def strtodOne (text : CString) : Double × ℕ :=
  if text = [0x31, 0x2E, 0x30] then (⟨0x3FF0000000000000⟩, 3) else (⟨0⟩, 0)

/-- pmin is set to 5 and gt to 1, and pmax is cleared. -/
def minAndGreater : Attributes :=
  { noAttributes with
    toSet := 0x05
    toClear := 0x02
    minPeriod := 5
    greaterThan := ⟨0x3FF0000000000000⟩ }

/-- pmin is cleared. -/
def minCleared : Attributes := { noAttributes with toClear := 0x01 }

/-- The datagram of a request for `/3/0/9` with these attributes. -/
def minAndGreaterDatagram : List Byte :=
  [68, 3, 0, 2, 2, 0, 0, 0, 177, 51, 1, 48, 1, 57, 70, 112, 109, 105, 110, 61, 53, 6, 103, 116, 61,
    49, 46, 48, 4, 112, 109, 97, 120]

theorem minAndGreater_comesBack : ∃ sessionH datagram packet,
    [Output.datagram (some 1) minAndGreaterDatagram] = [.datagram sessionH datagram] ∧
      parseReceived datagram = .ok (noError, packet) ∧
      ∀ behind, packet.uriQuery = (datagramQuery datagram behind).map MultiOption.content ∧
        (ComesBack strtodOne minAndGreater datagram behind ↔
          minAndGreater.toClear = 0 ∨ behind.head? ≠ some 0x3D) := by
  have haccepted : lwm2mDmWriteAttributes floatToTextOne (fun _ => false) oneClient 2 0 7
      { objectId := 3, instanceId := 0, resourceId := 9 } (some minAndGreater) none =
        .ok ([.datagram (some 1) minAndGreaterDatagram], 0) := by decide +kernel
  refine lwm2mDmWriteAttributes_comesBack_iff haccepted (by decide) (by decide) (fun _ => rfl) ?_
  intro a d hset hvalue length text htext
  cases a with
  | greaterThan =>
    cases hvalue
    unfold floatToTextOne at htext
    split_ifs at htext with hone
    cases htext
    exact ⟨List.cons_ne_nil _ _, hone.2, rfl⟩
  | minPeriod => cases hvalue
  | maxPeriod => cases hvalue
  | lessThan => exact absurd rfl hset
  | step => exact absurd rfl hset

/-- The datagram of a request for `/3` that clears pmin. -/
def minClearedDatagram : List Byte := [68, 3, 0, 2, 2, 0, 0, 0, 177, 51, 68, 112, 109, 105, 110]

/-- In a buffer with an '=' behind the datagram, pmin is set to 0. -/
theorem minCleared_fails :
    lwm2mDmWriteAttributes floatToTextOne (fun _ => false) oneClient 2 0 7 { objectId := 3 }
        (some minCleared) none = .ok ([.datagram (some 1) minClearedDatagram], 0) ∧
      prvReadAttributes strtodOne (datagramQuery minClearedDatagram [0x3D]) =
        .ok (0, { noAttributes with toSet := 0x01 }) ∧
      ¬ ComesBack strtodOne minCleared minClearedDatagram [0x3D] := by
  have hheader : parseHeader 177 [51, 68, 112, 109, 105, 110] =
      .ok (11, 1, [51, 68, 112, 109, 105, 110]) := rfl
  have hpath : uriQueryOptions [0x3D] 0 [177, 51, 68, 112, 109, 105, 110] =
      uriQueryOptions [0x3D] 11 [68, 112, 109, 105, 110] :=
    uriQueryOptions_cons (by decide) hheader (by decide)
  have hname : parseHeader 68 [112, 109, 105, 110] = .ok (4, 4, [112, 109, 105, 110]) := rfl
  have hquery : uriQueryOptions [0x3D] 11 [68, 112, 109, 105, 110] =
      pointedOption 4 [112, 109, 105, 110] [0x3D] (by decide) :: uriQueryOptions [0x3D] 15 [] :=
    uriQueryOptions_cons (by decide) hname (by decide)
  have hread : prvReadAttributes strtodOne (datagramQuery minClearedDatagram [0x3D]) =
      .ok (0, { noAttributes with toSet := 0x01 }) := by
    have hend : uriQueryOptions [0x3D] 15 [] = [] := by rw [uriQueryOptions]
    have hdrop : datagramQuery minClearedDatagram [0x3D] =
        uriQueryOptions [0x3D] 0 [177, 51, 68, 112, 109, 105, 110] := rfl
    rw [hdrop, hpath, hquery, hend]
    rfl
  refine ⟨by decide +kernel, hread, ?_⟩
  rintro ⟨attrQ, hread', hset, -⟩
  cases hread.symm.trans hread'
  exact absurd hset (by decide)

end Lwm2m.Core

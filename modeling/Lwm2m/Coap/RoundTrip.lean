/-
# The round trip of a request

The requests that the client builds carry a token, a path, a query, a content type and
a Block1 option (`PlainRequest`).  Such a request is read back from the bytes it is
serialized to (`coapParseMessage_coapSerializeMessage`), and these bytes fit in the
buffer that `coap_serialize_get_size` asks for (`coapSerializeMessage_length_le`).
-/

import Lwm2m.Coap.Serialize
import Mathlib.Algebra.Order.BigOperators.Group.List

namespace Lwm2m.Coap

open Code Library

/-! ### Reading what was written -/

variable {array : List (List Byte)} {packet : Packet}

/-- The entries of a multi option are written one by one, when there are any. -/
theorem multiOption_eq_foldl (w : OptionWriter) {o : CoapOption} (hne : array ≠ []) :
    w.multiOption o array = array.foldl (·.option o) w := by
  have hnum (array : List (List Byte)) (w : OptionWriter) (hw : w.currentNumber = o.number) :
      (array.foldl (·.option o) w).currentNumber = o.number := by
    induction array generalizing w with
    | nil => exact hw
    | cons value array ih => exact ih _ rfl
  cases array with
  | nil => exact absurd rfl hne
  | cons value array =>
    rw [OptionWriter.multiOption, ← hnum array (w.option o value) rfl]
    rfl

/-- From the packet, the parser reads the bytes of the writer and gets to the packet
`packet'`, whatever bytes follow. -/
def Reads (packet : Packet) (w : OptionWriter) (packet' : Packet) : Prop :=
  ∀ rest, parseOptions packet 0 (w.bytes ++ rest) = parseOptions packet' w.currentNumber rest

namespace Reads

variable {packet packet' : Packet} {w : OptionWriter} {o : CoapOption}

theorem refl (packet : Packet) : Reads packet {} packet := fun _ => rfl

/-- One more option. -/
theorem option (h : Reads packet w packet') {value : List Byte}
    (hnumber : w.currentNumber ≤ o.number) (hvalue : value.length ≤ maxExtended)
    (htoken : o ≠ .token) (hproxy : o ≠ .proxyUri) :
    Reads packet (w.option o value) (storeOption (packet'.markOption o) value o) := by
  intro rest
  simp only [OptionWriter.option, List.append_assoc]
  rw [h, ← List.append_assoc]
  exact (parseOptions_option hnumber hvalue htoken rest).trans (if_neg hproxy)

/-- One more numeric option. -/
theorem intOption (h : Reads packet w packet') {value : UInt32}
    (hnumber : w.currentNumber ≤ o.number) (htoken : o ≠ .token) (hproxy : o ≠ .proxyUri) :
    Reads packet (w.intOption o value)
      (storeOption (packet'.markOption o) (intOptionBytes value) o) := by
  have hlength := intOptionBytes_length value
  have hmax : maxExtended = 65804 := rfl
  exact h.option hnumber (by omega) htoken hproxy

/-- More options of one number. -/
theorem foldl_option (h : Reads packet w packet') (hnumber : w.currentNumber ≤ o.number)
    (harray : ∀ value ∈ array, value.length ≤ maxExtended) (htoken : o ≠ .token)
    (hproxy : o ≠ .proxyUri) :
    Reads packet (array.foldl (·.option o) w)
      (array.foldl (fun packet value => storeOption (packet.markOption o) value o) packet') := by
  induction array generalizing w packet' with
  | nil => exact h
  | cons value array ih =>
    refine ih (h.option hnumber (harray value List.mem_cons_self) htoken hproxy) le_rfl ?_
    exact fun value' h' => harray value' (List.mem_cons_of_mem value h')

/-- A multi option with at least one entry. -/
theorem multiOption (h : Reads packet w packet') (hne : array ≠ [])
    (hnumber : w.currentNumber ≤ o.number) (harray : ∀ value ∈ array, value.length < 256)
    (htoken : o ≠ .token) (hproxy : o ≠ .proxyUri) :
    Reads packet (w.multiOption o array)
      (array.foldl (fun packet value => storeOption (packet.markOption o) value o) packet') := by
  rw [multiOption_eq_foldl w hne]
  refine h.foldl_option hnumber (fun value hvalue => ?_) htoken hproxy
  exact (harray value hvalue).le.trans (by decide)

end Reads

/-! ### Requests -/

/-- A request that carries no more than a token, a path, a query, a content type and a
Block1 option, the options whose values the packet has. -/
structure PlainRequest (packet : Packet) : Prop where
  type : packet.type = .con
  token : packet.token.length ≤ coapTokenLen
  isOption_token : packet.isOption .token = decide (packet.token ≠ [])
  uriPath : ∀ segment ∈ packet.uriPath, segment.length < 256
  isOption_uriPath : packet.isOption .uriPath = decide (packet.uriPath ≠ [])
  uriQuery : ∀ segment ∈ packet.uriQuery, segment.length < 256
  isOption_uriQuery : packet.isOption .uriQuery = decide (packet.uriQuery ≠ [])
  block1_num : packet.block1.num.toNat < 2 ^ 20
  block1_more : packet.block1.more = 0 ∨ packet.block1.more = 1
  block1_size : packet.isOption .block1 = true → ∃ szx < 8, packet.block1.size = blockSize szx
  others : ∀ o, o ∉ [CoapOption.token, .uriPath, .uriQuery, .contentType, .block1] →
    packet.isOption o = false
  proxyUri : packet.proxyUri = []
  uriHost : packet.uriHost = []
  locationQuery : packet.locationQuery = []
  accept : packet.accept = []

/-- The two packets are one request: they agree in everything that a plain request
carries. -/
structure SameRequest (packet packet' : Packet) : Prop where
  type : packet'.type = packet.type
  code : packet'.code = packet.code
  mid : packet'.mid = packet.mid
  isOption : ∀ o, packet'.isOption o = packet.isOption o
  token : packet'.token = packet.token
  uriPath : packet'.uriPath = packet.uriPath
  uriQuery : packet'.uriQuery = packet.uriQuery
  contentType : packet.isOption .contentType = true → packet'.contentType = packet.contentType
  block1 : packet.isOption .block1 = true → packet'.block1.num = packet.block1.num ∧
    packet'.block1.more = packet.block1.more ∧ packet'.block1.size = packet.block1.size
  payload : packet'.payload = packet.payload
  proxyUri : packet'.proxyUri = packet.proxyUri
  uriHost : packet'.uriHost = packet.uriHost
  locationQuery : packet'.locationQuery = packet.locationQuery
  accept : packet'.accept = packet.accept

/-! ### What the parser makes of a request -/

/-- The packet once an option is read, if the request has it: its bit is set and its value
stored by `f`. -/
def readOption (packet : Packet) (o : CoapOption) (f : Packet → Packet) (p : Packet) : Packet :=
  if packet.isOption o then f (p.markOption o) else p

section readOption

variable {packet p : Packet} {o : CoapOption} {f : Packet → Packet}

theorem isOption_readOption (hf : ∀ p, (f p).options = p.options) (o' : CoapOption) :
    (readOption packet o f p).isOption o' =
      (p.isOption o' || (packet.isOption o && decide (o' = o))) := by
  unfold readOption
  split_ifs with ho
  · have hmark : (f (p.markOption o)).isOption o' = (p.markOption o).isOption o' := by
      rw [Packet.isOption, hf, Packet.isOption]
    rw [hmark, Packet.isOption_markOption, ho, Bool.true_and]
  · rw [Bool.eq_false_of_not_eq_true ho, Bool.false_and, Bool.or_false]

/-- A field that the option does not store is left alone. -/
theorem readOption_frame {β : Type} (g : Packet → β) (hg : ∀ p, g (f (p.markOption o)) = g p) :
    g (readOption packet o f p) = g p := by
  unfold readOption
  split_ifs
  · exact hg p
  · rfl

end readOption

/-- The packet once the header of a request is read. -/
def parsedHeader (packet : Packet) : Packet :=
  headerPacket (headerByte packet) packet.code (packet.mid >>> 8).toUInt8 packet.mid.toUInt8

/-- The packet once the token is read. -/
def parsedToken (packet : Packet) : Packet :=
  readOption packet .token (fun p => { p with token := packet.token }) (parsedHeader packet)

/-- The packet once the path is read. -/
def parsedPath (packet : Packet) : Packet :=
  readOption packet .uriPath (fun p => { p with uriPath := p.uriPath ++ packet.uriPath })
    (parsedToken packet)

/-- The packet once the content type is read. -/
def parsedType (packet : Packet) : Packet :=
  readOption packet .contentType (fun p => { p with contentType := packet.contentType })
    (parsedPath packet)

/-- The packet once the query is read. -/
def parsedQuery (packet : Packet) : Packet :=
  readOption packet .uriQuery (fun p => { p with uriQuery := p.uriQuery ++ packet.uriQuery })
    (parsedType packet)

/-- The packet once the options of a request are read. -/
def parsedOptions (packet : Packet) : Packet :=
  readOption packet .block1 (fun p =>
    { p with block1 := parseBlockOption (intOptionBytes (blockOptionValue packet.block1)) })
    (parsedQuery packet)

/-- The packet that the parser makes of a serialized request. -/
def parsedRequest (packet : Packet) : Packet :=
  { parsedOptions packet with payload := packet.payload }

/-- The first byte is read back. -/
theorem headerByte_fields (htoken : packet.token.length ≤ coapTokenLen) :
    headerVersion (headerByte packet) = 1 ∧ headerType (headerByte packet) = packet.type ∧
      headerTokenLen (headerByte packet) = packet.token.length := by
  have hall : ∀ n < 9, ∀ m ∈ [MessageType.con, .non, .ack, .rst],
      let b : Byte := (0x40 : Byte) ||| ((0x30 : Byte) &&& (m.field <<< 4).toUInt8) |||
        ((0x0F : Byte) &&& n.toUInt8)
      headerVersion b = 1 ∧ headerType b = m ∧ headerTokenLen b = n := by
    decide
  exact hall packet.token.length (Nat.lt_succ_of_le htoken) packet.type
    (by cases packet.type <;> decide)

/-- The message-id is read back. -/
theorem mid_bytes (mid : UInt16) :
    (mid >>> 8).toUInt8.toUInt16 <<< 8 ||| mid.toUInt8.toUInt16 = mid := by
  have hlt : mid.toNat < 2 ^ 16 := mid.toNat_lt
  have hlow : mid.toNat % 256 < 2 ^ 8 := by omega
  rw [← UInt16.toNat_inj]
  simp only [UInt16.toNat_or, UInt16.toNat_shiftLeft, UInt8.toNat_toUInt16, UInt16.toNat_toUInt8,
    UInt16.toNat_shiftRight, show (8 : UInt16).toNat % 16 = 8 from rfl]
  have hhigh : (mid.toNat >>> 8 % 2 ^ 8) <<< 8 % 2 ^ 16 = (mid.toNat / 256) <<< 8 := by
    rw [Nat.shiftRight_eq_div_pow, Nat.shiftLeft_eq, Nat.shiftLeft_eq]
    omega
  rw [hhigh, ← Nat.shiftLeft_add_eq_or_of_lt hlow, Nat.shiftLeft_eq]
  omega

/-- A short segment is recorded whole. -/
theorem multiOption_of_lt {value : List Byte} (h : value.length < 256) :
    multiOption value = value := by
  rw [multiOption, Nat.mod_eq_of_lt h, List.take_length]

/-- Entries that are recorded one by one are recorded together. -/
theorem foldl_record {f : Packet → List Byte → Packet} {g : Packet → List (List Byte) → Packet}
    {P : List Byte → Prop} (hone : ∀ p value, P value → f p value = g p [value])
    (happend : ∀ p array array', g (g p array) array' = g p (array ++ array')) (hne : array ≠ [])
    (harray : ∀ value ∈ array, P value) (p : Packet) : array.foldl f p = g p array := by
  induction array generalizing p with
  | nil => exact absurd rfl hne
  | cons value array ih =>
    have hvalue := hone p value (harray value List.mem_cons_self)
    have htail := fun v hv => harray v (List.mem_cons_of_mem value hv)
    rw [List.foldl_cons, hvalue]
    by_cases hnil : array = []
    · subst hnil
      rfl
    · rw [ih hnil htail, happend]
      rfl

theorem foldl_uriPath (hne : array ≠ []) (harray : ∀ value ∈ array, value.length < 256)
    (p : Packet) :
    array.foldl (fun p value => storeOption (p.markOption .uriPath) value .uriPath) p =
      { p.markOption .uriPath with uriPath := p.uriPath ++ array } := by
  refine foldl_record (g := fun p array =>
    { p.markOption .uriPath with uriPath := p.uriPath ++ array }) ?_ ?_ hne harray p
  · intro p value hvalue
    simp only [storeOption, coapAddMultiOption, multiOption_of_lt hvalue]
    rfl
  · intro p array array'
    simp only [Packet.markOption, Packet.mark, List.append_assoc, BitVec.or_assoc, BitVec.or_self]

theorem foldl_uriQuery (hne : array ≠ []) (harray : ∀ value ∈ array, value.length < 256)
    (p : Packet) :
    array.foldl (fun p value => storeOption (p.markOption .uriQuery) value .uriQuery) p =
      { p.markOption .uriQuery with uriQuery := p.uriQuery ++ array } := by
  refine foldl_record (g := fun p array =>
    { p.markOption .uriQuery with uriQuery := p.uriQuery ++ array }) ?_ ?_ hne harray p
  · intro p value hvalue
    simp only [storeOption, coapAddMultiOption, multiOption_of_lt hvalue]
    rfl
  · intro p array array'
    simp only [Packet.markOption, Packet.mark, List.append_assoc, BitVec.or_assoc, BitVec.or_self]

/-! ### The round trip -/

/-- An option of a request is read back where it is set, and skipped where it is not. -/
theorem reads_serializeOption (packet : Packet) (o : CoapOption) {p₀ p p' : Packet}
    {w : OptionWriter} (h : Reads p₀ w p ∧ w.currentNumber ≤ o.number)
    (hset : packet.isOption o = true →
      Reads p₀ (writeOption packet w o) p' ∧ (writeOption packet w o).currentNumber = o.number) :
    let w' := serializeOption packet w o
    Reads p₀ w' (if packet.isOption o then p' else p) ∧ w'.currentNumber ≤ o.number := by
  unfold serializeOption
  split_ifs with ho
  · obtain ⟨hreads, hnumber⟩ := hset ho
    exact ⟨hreads, hnumber.le⟩
  · exact h

/-- Only four options of a request are written behind its header. -/
theorem serializeOptions_eq (h : PlainRequest packet) :
    serializeOptions packet =
      [CoapOption.uriPath, .contentType, .uriQuery, .block1].foldl (serializeOption packet) {} := by
  have hoff (o : CoapOption)
      (ho : o ∉ [CoapOption.token, .uriPath, .uriQuery, .contentType, .block1])
      (w : OptionWriter) : serializeOption packet w o = w := by
    rw [serializeOption, h.others o ho]
    rfl
  simp only [serializeOptions, serializedOptions, List.foldl_cons, List.foldl_nil]
  rw [hoff .ifMatch (by decide), hoff .uriHost (by decide), hoff .etag (by decide),
    hoff .ifNoneMatch (by decide), hoff .observe (by decide), hoff .uriPort (by decide),
    hoff .locationPath (by decide), hoff .maxAge (by decide), hoff .accept (by decide),
    hoff .locationQuery (by decide), hoff .block2 (by decide), hoff .size (by decide),
    hoff .proxyUri (by decide)]

/-- The options of a request are read back. -/
theorem reads_serializeOptions (h : PlainRequest packet) :
    Reads (parsedToken packet) (serializeOptions packet) (parsedOptions packet) := by
  have hpath := reads_serializeOption packet .uriPath
    ⟨Reads.refl (parsedToken packet), Nat.zero_le _⟩ fun ho => by
      have hne : packet.uriPath ≠ [] := by simpa [h.isOption_uriPath] using ho
      have hreads := (Reads.refl (parsedToken packet)).multiOption hne
        (Nat.zero_le CoapOption.uriPath.number) h.uriPath (by decide) (by decide)
      rw [foldl_uriPath hne h.uriPath] at hreads
      exact ⟨hreads, rfl⟩
  have htype := reads_serializeOption packet .contentType
    ⟨hpath.1, hpath.2.trans (by decide)⟩ fun _ =>
      ⟨hpath.1.intOption (hpath.2.trans (by decide)) (by decide) (by decide), rfl⟩
  have hquery := reads_serializeOption packet .uriQuery
    ⟨htype.1, htype.2.trans (by decide)⟩ fun ho => by
      have hne : packet.uriQuery ≠ [] := by simpa [h.isOption_uriQuery] using ho
      have hreads := htype.1.multiOption hne (htype.2.trans
        (by decide : _ ≤ CoapOption.uriQuery.number)) h.uriQuery (by decide) (by decide)
      rw [foldl_uriQuery hne h.uriQuery] at hreads
      exact ⟨hreads, rfl⟩
  have hblock := reads_serializeOption packet .block1
    ⟨hquery.1, hquery.2.trans (by decide)⟩ fun _ =>
      ⟨hquery.1.intOption (hquery.2.trans (by decide)) (by decide) (by decide), rfl⟩
  rw [serializeOptions_eq h]
  simp only [storeOption, coapParseIntOption_intOptionBytes] at hblock
  exact hblock.1

/-- The end of the options: the payload behind its marker, or the end of the datagram. -/
theorem parseOptions_payload (packet : Packet) (number : ℕ) (payload : List Byte)
    (hpayload : packet.payload = []) :
    parseOptions packet number (if payload.length ≠ 0 then 0xFF :: payload else []) =
      .ok (noError, { packet with payload }) := by
  split_ifs with h
  · rw [parseOptions, if_pos (by decide)]
  · have hnil : payload = [] := by
      rw [← List.length_eq_zero_iff]
      omega
    rw [parseOptions, hnil, ← hpayload]

/-- A field that is neither the bitmap nor the value of an option of a request is the one
of the header. -/
theorem parsedOptions_frame {β : Type} (g : Packet → β) (packet : Packet)
    (hmark : ∀ p o, g (Packet.markOption p o) = g p)
    (htoken : ∀ p token, g { p with token } = g p)
    (huriPath : ∀ p uriPath, g { p with uriPath } = g p)
    (hcontentType : ∀ p contentType, g { p with contentType } = g p)
    (huriQuery : ∀ p uriQuery, g { p with uriQuery } = g p)
    (hblock1 : ∀ p block1, g { p with block1 } = g p) :
    g (parsedOptions packet) = g (parsedHeader packet) := by
  unfold parsedOptions parsedQuery parsedType parsedPath parsedToken
  rw [readOption_frame g fun p => (hblock1 _ _).trans (hmark p _),
    readOption_frame g fun p => (huriQuery _ _).trans (hmark p _),
    readOption_frame g fun p => (hcontentType _ _).trans (hmark p _),
    readOption_frame g fun p => (huriPath _ _).trans (hmark p _),
    readOption_frame g fun p => (htoken _ _).trans (hmark p _)]

/-- The token is taken from the front. -/
theorem parseTokenAndOptions_token (h : PlainRequest packet) (rest : List Byte) :
    parseTokenAndOptions (parsedHeader packet) (packet.token ++ rest) =
      parseOptions (parsedToken packet) 0 rest := by
  obtain ⟨hversion, -, htokenLen⟩ := headerByte_fields h.token
  have hversion : (parsedHeader packet).version = 1 := hversion
  have hlength : (parsedHeader packet).token.length = packet.token.length := by
    rw [← htokenLen]
    exact List.length_replicate
  unfold parseTokenAndOptions parsedToken readOption
  rw [if_neg (not_not.mpr hversion), hlength, h.isOption_token]
  by_cases hnil : packet.token = []
  · rw [hnil]
    rfl
  · rw [if_pos (mt List.length_eq_zero_iff.mp hnil), if_neg (by simp), List.take_left,
      List.drop_left, if_pos (decide_eq_true hnil)]
    rfl

/-- **A request is read back** from the bytes it is serialized to. -/
theorem coapParseMessage_coapSerializeMessage (h : PlainRequest packet) :
    coapParseMessage (coapSerializeMessage packet) = .ok (noError, parsedRequest packet) := by
  have hreads := reads_serializeOptions h
    (if packet.payload.length ≠ 0 then 0xFF :: packet.payload else [])
  have hpayload : (parsedOptions packet).payload = [] :=
    parsedOptions_frame Packet.payload packet (fun _ _ => rfl) (fun _ _ => rfl) (fun _ _ => rfl)
      (fun _ _ => rfl) (fun _ _ => rfl) (fun _ _ => rfl)
  simp only [coapSerializeMessage, List.cons_append, List.nil_append, coapParseMessage,
    List.append_assoc]
  exact (parseTokenAndOptions_token h _).trans
    (hreads.trans (parseOptions_payload _ _ _ hpayload))

/-- The options that are read back are those that were set. -/
theorem isOption_parsedRequest (h : PlainRequest packet) (o : CoapOption) :
    (parsedRequest packet).isOption o = packet.isOption o := by
  have hoptions : (parsedRequest packet).isOption o = (parsedOptions packet).isOption o := rfl
  have hheader : (parsedHeader packet).isOption o = false := by
    simp [Packet.isOption, parsedHeader, headerPacket]
  have hset : (parsedOptions packet).isOption o =
      (packet.isOption .token && decide (o = .token) ||
        packet.isOption .uriPath && decide (o = .uriPath) ||
        packet.isOption .contentType && decide (o = .contentType) ||
        packet.isOption .uriQuery && decide (o = .uriQuery) ||
        packet.isOption .block1 && decide (o = .block1)) := by
    unfold parsedOptions parsedQuery parsedType parsedPath parsedToken
    rw [isOption_readOption, isOption_readOption, isOption_readOption, isOption_readOption,
      isOption_readOption, hheader, Bool.false_or]
    all_goals exact fun _ => rfl
  rw [hoptions, hset]
  by_cases ho : o ∈ [CoapOption.token, .uriPath, .uriQuery, .contentType, .block1]
  · simp only [List.mem_cons, List.not_mem_nil, or_false] at ho
    obtain rfl | rfl | rfl | rfl | rfl := ho <;> simp
  · rw [h.others o ho]
    simp only [List.mem_cons, List.not_mem_nil, or_false, not_or] at ho
    simp [ho]

theorem parsedRequest_token (h : PlainRequest packet) :
    (parsedRequest packet).token = packet.token := by
  have hframe : (parsedRequest packet).token = (parsedToken packet).token := by
    refine (readOption_frame Packet.token fun _ => rfl).trans ?_
    refine (readOption_frame Packet.token fun _ => rfl).trans ?_
    refine (readOption_frame Packet.token fun _ => rfl).trans ?_
    exact readOption_frame Packet.token fun _ => rfl
  obtain ⟨-, -, htokenLen⟩ := headerByte_fields h.token
  rw [hframe, parsedToken, readOption, h.isOption_token]
  split_ifs with hne
  · rfl
  · have hnil : packet.token = [] := by simpa using hne
    rw [hnil] at htokenLen
    rw [hnil, parsedHeader, headerPacket, htokenLen]
    rfl

theorem parsedRequest_uriPath (h : PlainRequest packet) :
    (parsedRequest packet).uriPath = packet.uriPath := by
  have hframe : (parsedRequest packet).uriPath = (parsedPath packet).uriPath := by
    refine (readOption_frame Packet.uriPath fun _ => rfl).trans ?_
    refine (readOption_frame Packet.uriPath fun _ => rfl).trans ?_
    exact readOption_frame Packet.uriPath fun _ => rfl
  have hnil : (parsedToken packet).uriPath = [] := readOption_frame Packet.uriPath fun _ => rfl
  rw [hframe, parsedPath, readOption, h.isOption_uriPath]
  split_ifs with hne
  · exact congrArg (· ++ packet.uriPath) hnil
  · rw [hnil]
    simpa using (Eq.symm (by simpa using hne) : [] = packet.uriPath)

theorem parsedRequest_uriQuery (h : PlainRequest packet) :
    (parsedRequest packet).uriQuery = packet.uriQuery := by
  have hframe : (parsedRequest packet).uriQuery = (parsedQuery packet).uriQuery :=
    readOption_frame Packet.uriQuery fun _ => rfl
  have hnil : (parsedType packet).uriQuery = [] := by
    refine (readOption_frame Packet.uriQuery fun _ => rfl).trans ?_
    refine (readOption_frame Packet.uriQuery fun _ => rfl).trans ?_
    exact readOption_frame Packet.uriQuery fun _ => rfl
  rw [hframe, parsedQuery, readOption, h.isOption_uriQuery]
  split_ifs with hne
  · exact congrArg (· ++ packet.uriQuery) hnil
  · rw [hnil]
    simpa using (Eq.symm (by simpa using hne) : [] = packet.uriQuery)

theorem parsedRequest_contentType (h : packet.isOption .contentType = true) :
    (parsedRequest packet).contentType = packet.contentType := by
  have hframe : (parsedRequest packet).contentType = (parsedType packet).contentType := by
    refine (readOption_frame Packet.contentType fun _ => rfl).trans ?_
    exact readOption_frame Packet.contentType fun _ => rfl
  rw [hframe, parsedType, readOption, if_pos h]

theorem parsedRequest_block1 (h : packet.isOption .block1 = true) :
    (parsedRequest packet).block1 =
      parseBlockOption (intOptionBytes (blockOptionValue packet.block1)) := by
  have hblock : (parsedRequest packet).block1 = (parsedOptions packet).block1 := rfl
  rw [hblock, parsedOptions, readOption, if_pos h]

/-- What is read back is the request. -/
theorem sameRequest_parsedRequest (h : PlainRequest packet) :
    SameRequest packet (parsedRequest packet) where
  type := (parsedOptions_frame Packet.type packet (fun _ _ => rfl) (fun _ _ => rfl)
    (fun _ _ => rfl) (fun _ _ => rfl) (fun _ _ => rfl) (fun _ _ => rfl)).trans
      (headerByte_fields h.token).2.1
  code := parsedOptions_frame Packet.code packet (fun _ _ => rfl) (fun _ _ => rfl)
    (fun _ _ => rfl) (fun _ _ => rfl) (fun _ _ => rfl) (fun _ _ => rfl)
  mid := (parsedOptions_frame Packet.mid packet (fun _ _ => rfl) (fun _ _ => rfl)
    (fun _ _ => rfl) (fun _ _ => rfl) (fun _ _ => rfl) (fun _ _ => rfl)).trans
      (mid_bytes packet.mid)
  isOption := isOption_parsedRequest h
  token := parsedRequest_token h
  uriPath := parsedRequest_uriPath h
  uriQuery := parsedRequest_uriQuery h
  contentType := parsedRequest_contentType
  block1 hblock := by
    obtain ⟨szx, hszx, hsize⟩ := h.block1_size hblock
    obtain ⟨offset, hparse⟩ := parseBlockOption_blockOptionValue h.block1_num hszx hsize
    rw [parsedRequest_block1 hblock, hparse]
    obtain hmore | hmore := h.block1_more <;> simp [hmore]
  payload := rfl
  proxyUri := (parsedOptions_frame Packet.proxyUri packet (fun _ _ => rfl) (fun _ _ => rfl)
    (fun _ _ => rfl) (fun _ _ => rfl) (fun _ _ => rfl) (fun _ _ => rfl)).trans h.proxyUri.symm
  uriHost := (parsedOptions_frame Packet.uriHost packet (fun _ _ => rfl) (fun _ _ => rfl)
    (fun _ _ => rfl) (fun _ _ => rfl) (fun _ _ => rfl) (fun _ _ => rfl)).trans h.uriHost.symm
  locationQuery := (parsedOptions_frame Packet.locationQuery packet (fun _ _ => rfl) (fun _ _ => rfl)
    (fun _ _ => rfl) (fun _ _ => rfl) (fun _ _ => rfl) (fun _ _ => rfl)).trans h.locationQuery.symm
  accept := (parsedOptions_frame Packet.accept packet (fun _ _ => rfl) (fun _ _ => rfl)
    (fun _ _ => rfl) (fun _ _ => rfl) (fun _ _ => rfl) (fun _ _ => rfl)).trans h.accept.symm

/-! ### The size of the buffer -/

theorem extensionBytes_length (x : ℕ) :
    (extensionBytes x).length = if x > 268 then 2 else if x > 12 then 1 else 0 := by
  unfold extensionBytes
  split_ifs <;> rfl

/-- The bytes of an option. -/
theorem option_length (w : OptionWriter) (o : CoapOption) (value : List Byte) :
    (w.option o value).bytes.length = w.bytes.length + 1 +
      (extensionBytes (o.number - w.currentNumber)).length + (extensionBytes value.length).length +
      value.length := by
  simp only [OptionWriter.option, coapSetOptionHeader, List.length_append, List.length_cons]
  omega

/-- An entry of a multi option needs no more than the longest header. -/
theorem foldl_option_length (o : CoapOption) (harray : ∀ value ∈ array, value.length < 256)
    (w : OptionWriter) :
    (array.foldl (·.option o) w).bytes.length ≤
      w.bytes.length + (array.map (coapMaxOptionHeaderLen + ·.length)).sum := by
  have hmax : coapMaxOptionHeaderLen = 5 := rfl
  induction array generalizing w with
  | nil => simp
  | cons value array ih =>
    have hvalue := harray value List.mem_cons_self
    have htail := ih (fun v hv => harray v (List.mem_cons_of_mem value hv)) (w.option o value)
    have hone := option_length w o value
    have hnumber := o.number_lt
    rw [extensionBytes_length, extensionBytes_length, if_neg (show ¬ value.length > 268 by omega),
      if_neg (show ¬ o.number - w.currentNumber > 268 by omega)] at hone
    simp only [List.foldl_cons, List.map_cons, List.sum_cons]
    split_ifs at hone <;> omega

/-- A number of three bytes, and any number behind an option at most twelve before it,
needs no more than the longest header. -/
theorem intOption_length (w : OptionWriter) (o : CoapOption) (value : UInt32)
    (h : value.toNat < 2 ^ 24 ∨ o.number ≤ 12) :
    (w.intOption o value).bytes.length ≤ w.bytes.length + coapMaxOptionHeaderLen := by
  have hmax : coapMaxOptionHeaderLen = 5 := rfl
  have hnumber := o.number_lt
  have hvalue := intOptionBytes_length value
  have hthree : value.toNat < 2 ^ 24 → (intOptionBytes value).length ≤ 3 := by
    intro hlt
    unfold intOptionBytes
    rw [if_neg (not_not.mpr ((and_high_eq_zero_iff value).1.mpr hlt))]
    split_ifs <;> simp
  rw [OptionWriter.intOption, option_length, extensionBytes_length, extensionBytes_length,
    if_neg (show ¬ (intOptionBytes value).length > 268 by omega),
    if_neg (show ¬ (intOptionBytes value).length > 12 by omega),
    if_neg (show ¬ o.number - w.currentNumber > 268 by omega)]
  obtain h | h := h
  · have := hthree h
    split_ifs <;> omega
  · rw [if_neg (by omega)]
    omega

/-- An option fits in what the size computation adds for it. -/
theorem serializeOption_length (h : PlainRequest packet) (w : OptionWriter) {o : CoapOption}
    (ho : o ∈ [CoapOption.uriPath, .contentType, .uriQuery, .block1]) :
    (serializeOption packet w o).bytes.length ≤
      w.bytes.length + if packet.isOption o then optionSize packet o else 0 := by
  unfold serializeOption
  split_ifs with hset
  · simp only [List.mem_cons, List.not_mem_nil, or_false] at ho
    obtain rfl | rfl | rfl | rfl := ho
    · exact foldl_option_length .uriPath h.uriPath w
    · exact intOption_length w .contentType packet.contentType (.inr (by decide))
    · exact foldl_option_length .uriQuery h.uriQuery w
    · obtain ⟨szx, hszx, hsize⟩ := h.block1_size hset
      have hvalue := toNat_blockOptionValue h.block1_num hszx hsize
      have hnum := h.block1_num
      refine intOption_length w .block1 _ (.inl ?_)
      rw [hvalue]
      split_ifs <;> omega
  · exact Nat.le_add_right _ _

theorem foldl_serializeOption_length (h : PlainRequest packet) {options : List CoapOption}
    (hoptions : ∀ o ∈ options, o ∈ [CoapOption.uriPath, .contentType, .uriQuery, .block1])
    (w : OptionWriter) :
    (options.foldl (serializeOption packet) w).bytes.length ≤ w.bytes.length +
      (options.map fun o => if packet.isOption o then optionSize packet o else 0).sum := by
  induction options generalizing w with
  | nil => exact Nat.le_add_right _ _
  | cons o options ih =>
    have hone := serializeOption_length h w (hoptions o List.mem_cons_self)
    have htail := ih (fun o' ho' => hoptions o' (List.mem_cons_of_mem o ho'))
      (serializeOption packet w o)
    simp only [List.foldl_cons, List.map_cons, List.sum_cons]
    omega

/-- **The buffer is large enough** for the bytes of a request. -/
theorem coapSerializeMessage_length_le (h : PlainRequest packet) :
    (coapSerializeMessage packet).length ≤ coapSerializeGetSize packet := by
  have hheader : coapHeaderLen = 4 := rfl
  have hoptions : (serializeOptions packet).bytes.length ≤
      (serializedOptions.map fun o => if packet.isOption o then optionSize packet o else 0).sum := by
    have hfour : [CoapOption.uriPath, .contentType, .uriQuery, .block1].Sublist
      serializedOptions := by decide
    rw [serializeOptions_eq h]
    refine (foldl_serializeOption_length h (fun o ho => ho) {}).trans ?_
    rw [List.length_nil, Nat.zero_add]
    exact (hfour.map _).sum_le_sum fun _ _ => Nat.zero_le _
  unfold coapSerializeMessage coapSerializeGetSize
  simp only [List.length_append, List.length_cons, List.length_nil]
  split_ifs <;> simp <;> omega

/-- The bytes of a request without its content type, Block1 option and payload, at most. -/
def requestSize (packet : Packet) : ℕ :=
  coapHeaderLen + packet.token.length +
    (packet.uriPath.map (coapMaxOptionHeaderLen + ·.length)).sum +
    (packet.uriQuery.map (coapMaxOptionHeaderLen + ·.length)).sum

/-- The buffer of a request is little larger than its payload. -/
theorem coapSerializeGetSize_le (h : PlainRequest packet) :
    coapSerializeGetSize packet ≤ requestSize packet + packet.payload.length + 11 := by
  have hmax : coapMaxOptionHeaderLen = 5 := rfl
  have hoff (o : CoapOption)
      (ho : o ∉ [CoapOption.token, .uriPath, .uriQuery, .contentType, .block1]) :
      (if packet.isOption o then optionSize packet o else 0) = 0 := by
    rw [h.others o ho]
    rfl
  have hle (p : Prop) [Decidable p] (n : ℕ) : (if p then n else 0) ≤ n := by
    split_ifs
    · exact le_rfl
    · exact Nat.zero_le n
  have hpath := hle (packet.isOption .uriPath) (optionSize packet .uriPath)
  have hquery := hle (packet.isOption .uriQuery) (optionSize packet .uriQuery)
  have htype := hle (packet.isOption .contentType) (optionSize packet .contentType)
  have hblock := hle (packet.isOption .block1) (optionSize packet .block1)
  have hmarker := hle (packet.payload.length ≠ 0) 1
  simp only [optionSize, hmax] at hpath hquery htype hblock
  unfold coapSerializeGetSize requestSize
  simp only [serializedOptions, List.map_cons, List.map_nil, List.sum_cons, List.sum_nil]
  rw [hoff .ifMatch (by decide), hoff .uriHost (by decide), hoff .etag (by decide),
    hoff .ifNoneMatch (by decide), hoff .observe (by decide), hoff .uriPort (by decide),
    hoff .locationPath (by decide), hoff .maxAge (by decide), hoff .accept (by decide),
    hoff .locationQuery (by decide), hoff .block2 (by decide), hoff .size (by decide),
    hoff .proxyUri (by decide)]
  simp only [optionSize, hmax]
  omega

end Lwm2m.Coap

/-
# The round trip of a message

What the parser makes of the bytes of any packet that the setters build.  The options are read back
one by one, in the order of their numbers (`reads_serializedOptions`), so the packet that comes
out is known field by field (`readBack`).  It is the one that was built if and only if
the values are those that an option can say (`Encodable`): the parser refuses Proxy-Uri, the more
flag of Block1 is read as one bit, a block size as an exponent, a Location-Query string as its
parts, a token of no bytes as none, and the length of the datagram in 16 bits
(`parseReceived_coapSerializeMessage_iff`).
-/

import Lwm2m.Coap.Bounds
import Lwm2m.Coap.SizeBound

namespace Lwm2m.Coap

open Code Library

/-! ### One message -/

/-- The value of an option is the same. -/
def SameOption (packet packet' : Packet) : CoapOption → Prop
  | .ifMatch => packet'.ifMatch = packet.ifMatch
  | .uriHost => packet'.uriHost = packet.uriHost
  | .etag => packet'.etag = packet.etag
  | .ifNoneMatch => True
  | .observe => packet'.observe = packet.observe
  | .uriPort => packet'.uriPort = packet.uriPort
  | .locationPath => packet'.locationPath = packet.locationPath
  | .uriPath => packet'.uriPath = packet.uriPath
  | .contentType => packet'.contentType = packet.contentType
  | .maxAge => packet'.maxAge = packet.maxAge
  | .uriQuery => packet'.uriQuery = packet.uriQuery
  | .accept => packet'.accept = packet.accept
  | .token => packet'.token = packet.token
  | .locationQuery => packet'.locationQuery = packet.locationQuery
  | .block2 => packet'.block2.num = packet.block2.num ∧ packet'.block2.more = packet.block2.more ∧
    packet'.block2.size = packet.block2.size
  | .block1 => packet'.block1.num = packet.block1.num ∧ packet'.block1.more = packet.block1.more ∧
    packet'.block1.size = packet.block1.size
  | .size => packet'.size = packet.size
  | .proxyUri => packet'.proxyUri = packet.proxyUri

/-- The two packets are one message: header, token, options, their values and the payload. -/
structure SameMessage (packet packet' : Packet) : Prop where
  type : packet'.type = packet.type
  code : packet'.code = packet.code
  mid : packet'.mid = packet.mid
  token : packet'.token = packet.token
  isOption : ∀ o, packet'.isOption o = packet.isOption o
  option : ∀ o, packet.isOption o = true → SameOption packet packet' o
  payload : packet'.payload = packet.payload

/-- The content of an option, with a byte for each entry. -/
def contentLength (packet : Packet) : CoapOption → ℕ
  | .ifMatch => packet.ifMatch.length + 1
  | .uriHost => packet.uriHost.length + 1
  | .etag => packet.etag.length + 1
  | .locationPath => (packet.locationPath.map (·.length + 1)).sum
  | .uriPath => (packet.uriPath.map (·.length + 1)).sum
  | .uriQuery => (packet.uriQuery.map (·.length + 1)).sum
  | .accept => packet.accept.length
  | .locationQuery =>
    packet.locationQuery.length + 1 - lostSplitters 0x26 packet.locationQuery
  | .proxyUri => packet.proxyUri.length + 1
  | .token => 0
  | .ifNoneMatch | .observe | .uriPort | .contentType | .maxAge | .block2 | .block1 | .size => 1

/-- The length of a message. -/
def messageLength (packet : Packet) : ℕ :=
  coapHeaderLen + packet.token.length + farOptions 0 (setOptions packet) +
    ((setOptions packet).map fun o => contentLength packet o + extraBytes packet o).sum +
    (if packet.payload.length ≠ 0 then 1 else 0) + packet.payload.length

/-- A block option that can be written: its size is a power of two. -/
def EncodableBlock (b : BlockFields) : Prop :=
  (b.more = 0 ∨ b.more = 1) ∧ ∃ szx < 8, b.size = blockSize szx

/-- The message says what the packet holds. -/
structure Encodable (packet : Packet) : Prop where
  token : packet.isOption .token = true → packet.token ≠ []
  block2 : packet.isOption .block2 = true → EncodableBlock packet.block2
  block1 : packet.isOption .block1 = true → EncodableBlock packet.block1
  locationQuery : packet.isOption .locationQuery = true →
    packet.locationQuery.head? ≠ some 0x26 ∧ lostSplitters 0x26 packet.locationQuery = 0
  proxyUri : packet.isOption .proxyUri = false
  length : messageLength packet < 65536

/-! ### What the parser makes of a message -/

variable {packet : Packet}

/-- The packet once the options in `isRead` are read. -/
def readBack (packet : Packet) (isRead : CoapOption → Bool) (options : BitVec 40) : Packet where
  version := 1
  type := packet.type
  code := packet.code
  mid := packet.mid
  options := options
  contentType := if isRead .contentType then packet.contentType else 0
  maxAge := if isRead .maxAge then packet.maxAge else 0
  etag := if isRead .etag then packet.etag else []
  uriHost := if isRead .uriHost then packet.uriHost else []
  locationPath := if isRead .locationPath then packet.locationPath else []
  uriPort := if isRead .uriPort then packet.uriPort else 0
  locationQuery := if isRead .locationQuery then
    (splitParts packet.locationQuery 0x26 0 0).foldl (coapMergeMultiOption · · 0x26) [] else []
  uriPath := if isRead .uriPath then packet.uriPath else []
  observe := if isRead .observe then packet.observe else 0
  token := packet.token
  accept := if isRead .accept then packet.accept else []
  ifMatch := if isRead .ifMatch then packet.ifMatch else []
  block2 := if isRead .block2 then
    parseBlockOption (intOptionBytes (blockOptionValue packet.block2)) else {}
  block1 := if isRead .block1 then
    parseBlockOption (intOptionBytes (blockOptionValue packet.block1)) else {}
  size := if isRead .size then packet.size else 0
  uriQuery := if isRead .uriQuery then packet.uriQuery else []
  ifNoneMatch := if isRead .ifNoneMatch then 1 else 0

/-- One more option is read. -/
def insertOption (isRead : CoapOption → Bool) (o : CoapOption) : CoapOption → Bool :=
  fun o' => decide (o' = o) || isRead o'

/-- The values of an option are short enough for its header. -/
def ShortValues (packet : Packet) : CoapOption → Prop
  | .uriHost => packet.uriHost.length ≤ maxExtended
  | .locationQuery => ∀ part ∈ splitParts packet.locationQuery 0x26 0 0, part.length ≤ maxExtended
  | _ => True

variable {array : List (List Byte)} {p p₀ packet : Packet} {isRead : CoapOption → Bool}
  {options : List CoapOption} {number : ℕ} {b : BlockFields}

theorem foldl_locationPath (hne : array ≠ []) (harray : ∀ value ∈ array, value.length < 256)
    (p : Packet) :
    array.foldl (fun p value => storeOption (p.markOption .locationPath) value .locationPath) p =
      { p.markOption .locationPath with locationPath := p.locationPath ++ array } := by
  refine foldl_record (g := fun p array =>
    { p.markOption .locationPath with locationPath := p.locationPath ++ array }) ?_ ?_ hne harray p
  · intro p value hvalue
    simp only [storeOption, coapAddMultiOption, multiOption_of_lt hvalue]
    rfl
  · intro p array array'
    simp only [Packet.markOption, Packet.mark, List.append_assoc, BitVec.or_assoc, BitVec.or_self]

/-- The parts of a Location-Query string are joined. -/
theorem foldl_locationQuery (hne : array ≠ []) (p : Packet) :
    array.foldl (fun p value => storeOption (p.markOption .locationQuery) value .locationQuery) p =
      { p.markOption .locationQuery with
        locationQuery := array.foldl (coapMergeMultiOption · · 0x26) p.locationQuery } := by
  refine foldl_record (P := fun _ => True) (g := fun p array =>
    { p.markOption .locationQuery with
      locationQuery := array.foldl (coapMergeMultiOption · · 0x26) p.locationQuery })
    ?_ ?_ hne (fun _ _ => trivial) p
  · intro p value _
    rfl
  · intro p array array'
    simp only [Packet.markOption, Packet.mark, List.foldl_append, BitVec.or_assoc, BitVec.or_self]

/-- An Accept option is stored while there is room. -/
theorem storeOption_accept (hp : p.accept.length < coapMaxAcceptNum) (a : UInt16) :
    storeOption (p.markOption .accept) (intOptionBytes a.toUInt32) .accept =
      { p.markOption .accept with accept := p.accept ++ [a] } := by
  have hroom : (p.markOption .accept).accept.length < coapMaxAcceptNum := hp
  rw [storeOption, if_pos hroom, coapParseIntOption_intOptionBytes, UInt16.toUInt16_toUInt32]
  rfl

/-- At most two Accept options are stored. -/
theorem foldl_accept {array : List UInt16} (hne : array ≠ [])
    (hlength : array.length ≤ coapMaxAcceptNum) (hp : p.accept = []) :
    (array.map (intOptionBytes ·.toUInt32)).foldl
        (fun p value => storeOption (p.markOption .accept) value .accept) p =
      { p.markOption .accept with accept := array } := by
  have hempty : p.accept.length < coapMaxAcceptNum := by
    rw [hp]
    decide
  match array, hne, hlength with
  | [a], _, _ =>
    rw [List.map_cons, List.map_nil, List.foldl_cons, List.foldl_nil, storeOption_accept hempty, hp]
    rfl
  | [a, b], _, _ =>
    have hroom : 1 < coapMaxAcceptNum := by decide
    have hsecond := @storeOption_accept { p.markOption .accept with accept := [] ++ [a] } hroom b
    rw [List.map_cons, List.map_cons, List.map_nil, List.foldl_cons, List.foldl_cons,
      List.foldl_nil, storeOption_accept hempty, hp, hsecond]
    simp only [Packet.markOption, Packet.mark, BitVec.or_assoc, BitVec.or_self]
    rfl
  | _ :: _ :: _ :: _, _, h =>
    simp only [List.length_cons, coapMaxAcceptNum] at h
    omega

variable {o : CoapOption} {w : OptionWriter} {bits : BitVec 40} {packet' : Packet}

/-- **An option is read back.** -/
theorem reads_writeOption (h : Built packet) (hset : packet.isOption o = true)
    (hshort : ShortValues packet o) (htoken : o ≠ .token) (hproxy : o ≠ .proxyUri)
    {options : BitVec 40} (hreads : Reads p₀ w (readBack packet isRead options))
    (hnumber : w.currentNumber ≤ o.number) (hnew : isRead o = false) :
    Reads p₀ (writeOption packet w o)
      (readBack packet (insertOption isRead o) (options ||| 1#40 <<< o.number)) := by
  have hbuilt := h o
  rw [hset] at hbuilt
  have hmax : coapEtagLen ≤ maxExtended := by decide
  have hint (value : UInt32) : Reads p₀ (w.intOption o value)
      (storeOption ((readBack packet isRead options).markOption o) (intOptionBytes value) o) :=
    hreads.intOption hnumber htoken hproxy
  have hnone {α : Type} (x : α) (y : α) : (if isRead o = true then x else y) = y := by
    rw [hnew]
    rfl
  cases o with
  | token => exact absurd rfl htoken
  | proxyUri => exact absurd rfl hproxy
  | etag | ifMatch =>
    have hread := hreads.option hnumber (hbuilt.trans hmax) htoken hproxy
    simp only [storeOption, List.take_of_length_le hbuilt] at hread
    exact hread
  | uriHost => exact hreads.option hnumber hshort htoken hproxy
  | ifNoneMatch | block2 | block1 => exact hreads.intOption hnumber htoken hproxy
  | observe =>
    have hread := hint packet.observe
    simp only [storeOption, coapParseIntOption_intOptionBytes] at hread
    exact hread
  | contentType =>
    have hread := hint packet.contentType
    simp only [storeOption, coapParseIntOption_intOptionBytes] at hread
    exact hread
  | maxAge =>
    have hread := hint packet.maxAge
    simp only [storeOption, coapParseIntOption_intOptionBytes] at hread
    exact hread
  | size =>
    have hread := hint packet.size
    simp only [storeOption, coapParseIntOption_intOptionBytes] at hread
    exact hread
  | uriPort =>
    have hread := hint packet.uriPort.toUInt32
    simp only [storeOption, coapParseIntOption_intOptionBytes, UInt16.toUInt16_toUInt32] at hread
    exact hread
  | locationPath =>
    have hne : packet.locationPath ≠ [] := of_decide_eq_true hbuilt.1.symm
    have hread := hreads.multiOption hne hnumber hbuilt.2 htoken hproxy
    have hnil : (readBack packet isRead options).locationPath = [] := hnone _ _
    rw [foldl_locationPath hne hbuilt.2, hnil] at hread
    exact hread
  | uriPath =>
    have hne : packet.uriPath ≠ [] := of_decide_eq_true hbuilt.1.symm
    have hread := hreads.multiOption hne hnumber hbuilt.2 htoken hproxy
    have hnil : (readBack packet isRead options).uriPath = [] := hnone _ _
    rw [foldl_uriPath hne hbuilt.2, hnil] at hread
    exact hread
  | uriQuery =>
    have hne : packet.uriQuery ≠ [] := of_decide_eq_true hbuilt.1.symm
    have hread := hreads.multiOption hne hnumber hbuilt.2 htoken hproxy
    have hnil : (readBack packet isRead options).uriQuery = [] := hnone _ _
    rw [foldl_uriQuery hne hbuilt.2, hnil] at hread
    exact hread
  | accept =>
    have hne : packet.accept ≠ [] := of_decide_eq_true hbuilt.1.symm
    have hnil : (readBack packet isRead options).accept = [] := hnone _ _
    have hvalues : ∀ value ∈ packet.accept.map (intOptionBytes ·.toUInt32),
        value.length ≤ maxExtended := by
      rw [List.forall_mem_map]
      exact fun a _ => (intOptionBytes_length _).trans (by decide)
    have hread := hreads.foldl_option hnumber hvalues htoken hproxy
    rw [foldl_accept hne hbuilt.2 hnil, List.foldl_map] at hread
    exact hread
  | locationQuery =>
    have hne : splitParts packet.locationQuery 0x26 0 0 ≠ [] := splitParts_ne_nil _
    have hread := hreads.foldl_option hnumber hshort htoken hproxy
    have hnil : (readBack packet isRead options).locationQuery = [] := hnone _ _
    rw [foldl_locationQuery hne, hnil] at hread
    exact hread

/-- The bit of an option is set with it. -/
theorem getLsbD_or_number (options : BitVec 40) (o o' : CoapOption) :
    (options ||| 1#40 <<< o.number).getLsbD o'.number =
      (options.getLsbD o'.number || decide (o' = o)) :=
  Packet.isOption_markOption { options } o o'

/-- **The options are read back**, in the order of their numbers. -/
theorem reads_foldl_serializeOption (h : Built packet)
    (hsorted : options.Pairwise (·.number < ·.number)) (htoken : .token ∉ options)
    (hproxy : .proxyUri ∉ options)
    (hshort : ∀ o ∈ options, packet.isOption o = true → ShortValues packet o)
    (hreads : Reads p₀ w (readBack packet isRead bits))
    (hnumber : ∀ o ∈ options, w.currentNumber ≤ o.number) (hnew : ∀ o ∈ options, isRead o = false)
    (hbits : ∀ o, bits.getLsbD o.number = isRead o) :
    ∃ isRead' bits', Reads p₀ (options.foldl (serializeOption packet) w)
        (readBack packet isRead' bits') ∧
      (∀ o, bits'.getLsbD o.number = isRead' o) ∧
      ∀ o, isRead' o = (isRead o || (decide (o ∈ options) && packet.isOption o)) := by
  induction options generalizing w isRead bits with
  | nil =>
    refine ⟨isRead, bits, hreads, hbits, fun o => ?_⟩
    rw [decide_eq_false List.not_mem_nil, Bool.false_and, Bool.or_false]
  | cons o options ih =>
    obtain ⟨hlater, hsorted⟩ := List.pairwise_cons.mp hsorted
    obtain ⟨hneToken, htoken⟩ := not_or.mp (List.mem_cons.not.mp htoken)
    obtain ⟨hneProxy, hproxy⟩ := not_or.mp (List.mem_cons.not.mp hproxy)
    obtain ⟨hshort₀, hshort⟩ := List.forall_mem_cons.mp hshort
    obtain ⟨hnumber₀, hnumber⟩ := List.forall_mem_cons.mp hnumber
    obtain ⟨hnew₀, hnew⟩ := List.forall_mem_cons.mp hnew
    rw [List.foldl_cons, serializeOption]
    by_cases hset : packet.isOption o = true
    · rw [if_pos hset]
      have hread := reads_writeOption h hset (hshort₀ hset) (Ne.symm hneToken) (Ne.symm hneProxy)
        hreads hnumber₀ hnew₀
      obtain ⟨hcurrent, -⟩ := writeOption_length h hset (Ne.symm hneToken) w
      have hbits' (o' : CoapOption) : (bits ||| 1#40 <<< o.number).getLsbD o'.number =
          insertOption isRead o o' := by
        rw [getLsbD_or_number, hbits, insertOption, Bool.or_comm]
      have hnew' : ∀ o' ∈ options, insertOption isRead o o' = false := by
        intro o' ho'
        have hne : o' ≠ o := fun heq => absurd (hlater o' ho') (by rw [heq]; exact lt_irrefl _)
        rw [insertOption, decide_eq_false hne, Bool.false_or, hnew o' ho']
      obtain ⟨isRead', bits', hreads', hbits', hisRead⟩ := ih hsorted htoken hproxy hshort hread
        (fun o' ho' => hcurrent ▸ (hlater o' ho').le) hnew' hbits'
      refine ⟨isRead', bits', hreads', hbits', fun o' => ?_⟩
      rw [hisRead, insertOption]
      by_cases heq : o' = o
      · rw [heq, hset]
        simp
      · simp [heq]
    · rw [if_neg hset]
      obtain ⟨isRead', bits', hreads', hbits', hisRead⟩ :=
        ih hsorted htoken hproxy hshort hreads hnumber hnew hbits
      refine ⟨isRead', bits', hreads', hbits', fun o' => ?_⟩
      rw [hisRead]
      by_cases heq : o' = o
      · rw [heq, Bool.eq_false_of_not_eq_true hset, Bool.and_false, Bool.and_false]
      · simp [heq]

/-- The token is taken from the front, and recorded when it has bytes. -/
theorem parseTokenAndOptions_readBack (h : packet.token.length ≤ coapTokenLen)
    (rest : List Byte) : ∃ isRead bits,
    parseTokenAndOptions (parsedHeader packet) (packet.token ++ rest) =
        parseOptions (readBack packet isRead bits) 0 rest ∧
      (∀ o, bits.getLsbD o.number = isRead o) ∧
      ∀ o, isRead o = decide (o = .token ∧ packet.token ≠ []) := by
  obtain ⟨hversion, htype, htokenLen⟩ := headerByte_fields h
  have hheader : parsedHeader packet =
      { version := 1
        type := packet.type
        code := packet.code
        mid := packet.mid
        token := List.replicate packet.token.length 0 } := by
    rw [parsedHeader, headerPacket, hversion, htype, mid_bytes, htokenLen]
  have hzero (o : CoapOption) : (0#40).getLsbD o.number = false := BitVec.getLsbD_zero
  unfold parseTokenAndOptions
  rw [hheader, if_neg (not_not.mpr rfl), List.length_replicate]
  by_cases hnil : packet.token = []
  · refine ⟨fun _ => false, 0, ?_, hzero, fun o => ?_⟩
    · rw [hnil, if_neg (by decide), List.nil_append, readBack, hnil]
      rfl
    · rw [decide_eq_false fun hand => hand.2 hnil]
  · have hlength : packet.token.length ≠ 0 := mt List.length_eq_zero_iff.mp hnil
    refine ⟨fun o => decide (o = .token), 0 ||| 1#40 <<< CoapOption.token.number, ?_,
      fun o => ?_, fun o => ?_⟩
    · rw [if_pos hlength, if_neg (by rw [List.length_append]; omega), List.take_left, List.drop_left]
      rfl
    · rw [getLsbD_or_number]
      exact congrArg (· || _) (hzero o)
    · rw [Bool.decide_and, decide_eq_true hnil, Bool.and_true]

/-! ### The length of a message -/

/-- What is counted for an option is its content and the bytes that are spare. -/
theorem optionSize_eq (packet : Packet) (o : CoapOption) :
    optionSize packet o = contentLength packet o + spareBytes packet o := by
  have hmax : coapMaxOptionHeaderLen = 5 := rfl
  have hstring (n : ℕ) : coapMaxOptionHeaderLen + n = n + 1 + 4 := by omega
  have hmulti (array : List (List Byte)) := (sum_header array).trans (Nat.add_comm _ _)
  cases o with
  | ifMatch => exact hstring _
  | uriHost => exact hstring _
  | etag => exact hstring _
  | proxyUri => exact hstring _
  | locationPath => exact hmulti _
  | uriPath => exact hmulti _
  | uriQuery => exact hmulti _
  | accept =>
    dsimp only [optionSize, contentLength, spareBytes]
    rw [hmax]
    omega
  | locationQuery =>
    have hparts := @scanParts_length 0x26 packet.locationQuery
    dsimp only [optionSize, contentLength, spareBytes]
    omega
  | ifNoneMatch => rfl
  | observe => rfl
  | uriPort => rfl
  | contentType => rfl
  | maxAge => rfl
  | block2 => rfl
  | block1 => rfl
  | size => rfl
  | token => rfl

/-- **The length of a message** that is written. -/
theorem coapSerializeMessage_length (h : Built packet) :
    (coapSerializeMessage packet).length = messageLength packet := by
  have htoken : CoapOption.token ∉ serializedOptions := by decide
  have hheader : coapHeaderLen = 4 := rfl
  have hstart : ({} : OptionWriter).currentNumber = 0 := rfl
  have hoptions : (serializeOptions packet).bytes.length =
    (serializedOptions.foldl (serializeOption packet) {}).bytes.length := rfl
  have hlength := foldl_serializeOption_length_eq h htoken {}
  have hsize : (serializedOptions.map fun o =>
        if packet.isOption o then optionSize packet o else 0).sum =
      ((setOptions packet).map (contentLength packet)).sum +
        ((setOptions packet).map (spareBytes packet)).sum := by
    have hfilter (options : List CoapOption) : (options.map fun o =>
          if packet.isOption o then optionSize packet o else 0).sum =
        ((options.filter packet.isOption).map (optionSize packet)).sum := by
      induction options with
      | nil => rfl
      | cons o options ih =>
        rw [List.map_cons, List.sum_cons, ih, List.filter_cons]
        split_ifs
        · rw [List.map_cons, List.sum_cons]
        · exact Nat.zero_add _
    rw [hfilter, ← List.sum_map_add]
    exact congrArg List.sum (List.map_congr_left fun o _ => optionSize_eq packet o)
  rw [hstart, List.length_nil, Nat.zero_add, hsize] at hlength
  rw [coapSerializeMessage, messageLength, List.sum_map_add, hheader]
  simp only [List.length_append, List.length_cons, List.length_nil]
  unfold setOptions at *
  split_ifs with hpayload
  · rw [List.length_cons]
    omega
  · rw [List.length_nil]
    omega

/-- The content of an option is part of the message. -/
theorem contentLength_le_messageLength (ho : o ∈ serializedOptions)
    (hset : packet.isOption o = true) : contentLength packet o ≤ messageLength packet := by
  have hmem : contentLength packet o + extraBytes packet o ∈
      (setOptions packet).map fun o => contentLength packet o + extraBytes packet o :=
    List.mem_map_of_mem (List.mem_filter.mpr ⟨ho, hset⟩)
  have hle := List.le_sum_of_mem hmem
  unfold messageLength
  omega

/-- In a message that fits in a datagram the values are short. -/
theorem shortValues_of_lt (hlength : messageLength packet < 65536) (ho : o ∈ serializedOptions)
    (hset : packet.isOption o = true) : ShortValues packet o := by
  have hmax : maxExtended = 65804 := rfl
  have hle := contentLength_le_messageLength ho hset
  cases o
  case uriHost =>
    dsimp only [contentLength] at hle
    dsimp only [ShortValues]
    omega
  case locationQuery =>
    intro part hpart
    have hparts := @scanParts_length 0x26 packet.locationQuery
    rw [← splitParts_eq_scanParts] at hparts
    have hmem : part.length + 1 ∈ (splitParts packet.locationQuery 0x26 0 0).map (·.length + 1) :=
      List.mem_map_of_mem hpart
    have hpart := List.le_sum_of_mem hmem
    dsimp only [contentLength] at hle
    omega
  all_goals trivial

/-! ### Reading a message -/

/-- The options in front of Proxy-Uri, the last one. -/
def frontOptions : List CoapOption := serializedOptions.take 16

theorem serializedOptions_eq : serializedOptions = frontOptions ++ [.proxyUri] := rfl

/-- The last number that is written is one of those of the options. -/
theorem foldl_serializeOption_currentNumber_le (h : Built packet) (htoken : .token ∉ options)
    {n : ℕ} (hoptions : ∀ o ∈ options, o.number ≤ n) (hw : w.currentNumber ≤ n) :
    (options.foldl (serializeOption packet) w).currentNumber ≤ n := by
  induction options generalizing w with
  | nil => exact hw
  | cons o options ih =>
    obtain ⟨hne, htoken⟩ := not_or.mp (List.mem_cons.not.mp htoken)
    obtain ⟨ho, hoptions⟩ := List.forall_mem_cons.mp hoptions
    refine ih htoken hoptions ?_
    rw [serializeOption]
    split_ifs with hset
    · rw [(writeOption_length h hset (Ne.symm hne) w).1]
      exact ho
    · exact hw

/-- What is read in a message: the token, when it has bytes, and the options that are set. -/
def readOptions (packet : Packet) (o : CoapOption) : Bool :=
  decide (o = .token ∧ packet.token ≠ []) || (decide (o ∈ frontOptions) && packet.isOption o)

/-- **What the parser makes of a message** that fits in a datagram. -/
theorem coapParseMessage_readBack (h : Built packet) (hlength : messageLength packet < 65536) :
    ∃ bits, (∀ o, bits.getLsbD o.number = readOptions packet o) ∧
      (packet.isOption .proxyUri = false → coapParseMessage (coapSerializeMessage packet) =
        .ok (noError, { readBack packet (readOptions packet) bits with
          payload := packet.payload })) ∧
      (packet.isOption .proxyUri = true → ∃ packet', coapParseMessage
        (coapSerializeMessage packet) = .ok (proxyingNotSupported, packet')) := by
  have hsub {o : CoapOption} (ho : o ∈ frontOptions) : o ∈ serializedOptions :=
    (List.take_sublist _ _).subset ho
  have hfront : CoapOption.token ∉ frontOptions := by decide
  have hshort : ∀ o ∈ frontOptions, packet.isOption o = true → ShortValues packet o :=
    fun o ho hset => shortValues_of_lt hlength (hsub ho) hset
  obtain ⟨isRead, bits, hparse, hbits, hisRead⟩ := parseTokenAndOptions_readBack (h .token).1
    ((serializeOptions packet).bytes ++
      (if packet.payload.length ≠ 0 then 0xFF :: packet.payload else []))
  have hnew : ∀ o ∈ frontOptions, isRead o = false := by
    intro o ho
    rw [hisRead, decide_eq_false]
    rintro ⟨rfl, -⟩
    exact hfront ho
  obtain ⟨isRead', bits', hreads, hbits', hisRead'⟩ := reads_foldl_serializeOption h (by decide)
    hfront (by decide) hshort (Reads.refl (readBack packet isRead bits)) (fun o _ => Nat.zero_le _)
    hnew hbits
  have hread : isRead' = readOptions packet := by
    funext o
    rw [hisRead', hisRead, readOptions]
  have hmessage : coapParseMessage (coapSerializeMessage packet) =
      parseOptions (readBack packet isRead bits) 0 ((serializeOptions packet).bytes ++
        (if packet.payload.length ≠ 0 then 0xFF :: packet.payload else [])) := by
    rw [← hparse]
    simp only [coapSerializeMessage, List.cons_append, List.nil_append, coapParseMessage,
      List.append_assoc]
    rfl
  have hlast : serializeOptions packet = serializeOption packet
      (frontOptions.foldl (serializeOption packet) {}) .proxyUri := by
    rw [serializeOptions, serializedOptions_eq, List.foldl_append]
    rfl
  rw [hread] at hreads hbits'
  refine ⟨bits', hbits', fun hproxy => ?_, fun hproxy => ?_⟩
  · rw [serializeOption, hproxy, if_neg Bool.false_ne_true] at hlast
    rw [hmessage, hlast, hreads]
    exact parseOptions_payload _ _ _ rfl
  · have hnumber := foldl_serializeOption_currentNumber_le h hfront
      (n := CoapOption.proxyUri.number) (by decide) (w := {}) (Nat.zero_le _)
    have hcontent := contentLength_le_messageLength (by decide) hproxy
    have hvalue : packet.proxyUri.length ≤ maxExtended := by
      have hmax : maxExtended = 65804 := rfl
      dsimp only [contentLength] at hcontent
      omega
    rw [serializeOption, if_pos hproxy] at hlast
    rw [hmessage, hlast, writeOption, OptionWriter.option, List.append_assoc, hreads]
    exact ⟨_, (parseOptions_option hnumber hvalue (by decide) _).trans (if_pos rfl)⟩

/-! ### When the message is the one that was built -/

/-- A block option is read back with a power of two as its size and one bit for its more flag. -/
theorem parseBlockOption_of_blockBuilt (h : BlockBuilt b) :
    ∃ szx < 8, ∃ offset, parseBlockOption (intOptionBytes (blockOptionValue b)) =
      { b with size := blockSize szx, more := if b.more ≠ 0 then 1 else 0, offset } := by
  have hexponent : ∀ n < 129, (0xF &&& coapLog2 (UInt16.ofNat n)).toNat < 8 := by decide
  obtain ⟨hnum, hsmall, hlarge⟩ := h
  have hquotient : b.size / 16 = UInt16.ofNat (b.size.toNat / 16) := by
    rw [← UInt16.toNat_inj, UInt16.toNat_div, UInt16.toNat_ofNat']
    have h16 : (16 : UInt16).toNat = 16 := rfl
    rw [h16]
    omega
  have hszx := hexponent (b.size.toNat / 16) (by omega)
  rw [← hquotient] at hszx
  obtain ⟨offset, hparse⟩ :=
    @parseBlockOption_blockOptionValue { b with size := blockSize _ } _ hnum hszx rfl
  refine ⟨_, hszx, offset, Eq.trans ?_ hparse⟩
  have hlog := coapLog2_blockSize _ hszx
  unfold blockOptionValue
  rw [UInt16.toNat_inj] at hlog
  rw [hlog]

/-- **When a block option is read back.** -/
theorem sameBlock_iff (h : BlockBuilt b) :
    ((parseBlockOption (intOptionBytes (blockOptionValue b))).num = b.num ∧
      (parseBlockOption (intOptionBytes (blockOptionValue b))).more = b.more ∧
      (parseBlockOption (intOptionBytes (blockOptionValue b))).size = b.size) ↔
    EncodableBlock b := by
  constructor
  · obtain ⟨szx, hszx, offset, hparse⟩ := parseBlockOption_of_blockBuilt h
    rw [hparse]
    rintro ⟨-, hmore, hsize⟩
    refine ⟨?_, szx, hszx, hsize.symm⟩
    split_ifs at hmore
    · exact .inr hmore.symm
    · exact .inl hmore.symm
  · rintro ⟨hmore, szx, hszx, hsize⟩
    obtain ⟨offset, hparse⟩ := parseBlockOption_blockOptionValue h.1 hszx hsize
    rw [hparse]
    refine ⟨rfl, ?_, rfl⟩
    rcases hmore with hmore | hmore
    · simp [hmore]
    · simp [hmore]

/-- An option that is written is read, but for the token. -/
theorem readOptions_of_mem (ho : o ≠ .token) (hfront : o ∈ frontOptions) :
    readOptions packet o = packet.isOption o := by
  rw [readOptions, decide_eq_false fun hand => ho hand.1, decide_eq_true hfront]
  simp

/-- The value of an option that is not cut and has no range is read back. -/
theorem sameOption_readBack (ho : o ∉ [CoapOption.locationQuery, .block2, .block1, .proxyUri])
    (hset : packet.isOption o = true) :
    SameOption packet { readBack packet (readOptions packet) bits with payload := packet.payload }
      o := by
  have hif {α : Type} {o : CoapOption} (ho : o ≠ .token) (hfront : o ∈ frontOptions)
      (hset : packet.isOption o = true) (x y : α) :
      (if readOptions packet o = true then x else y) = x := by
    rw [readOptions_of_mem ho hfront, if_pos hset]
  cases o with
  | token => rfl
  | ifNoneMatch => trivial
  | locationQuery | block2 | block1 | proxyUri => exact absurd (by decide) ho
  | ifMatch | uriHost | etag | observe | uriPort | locationPath
  | uriPath | contentType | maxAge | uriQuery | accept | size =>
    exact hif (by decide) (by decide) hset _ _

/-- What is read is the message that was built, when its values can be said. -/
theorem sameMessage_readBack_iff (h : Built packet) (hproxy : packet.isOption .proxyUri = false)
    (hbits : ∀ o, bits.getLsbD o.number = readOptions packet o) :
    SameMessage packet
        { readBack packet (readOptions packet) bits with payload := packet.payload } ↔
      (packet.isOption .token = true → packet.token ≠ []) ∧
      (packet.isOption .block2 = true → EncodableBlock packet.block2) ∧
      (packet.isOption .block1 = true → EncodableBlock packet.block1) ∧
      (packet.isOption .locationQuery = true →
        packet.locationQuery.head? ≠ some 0x26 ∧
          lostSplitters 0x26 packet.locationQuery = 0) := by
  have htoken : readOptions packet .token = decide (packet.token ≠ []) := by
    rw [readOptions, decide_eq_false (by decide : CoapOption.token ∉ frontOptions)]
    simp
  have hif {α : Type} {o : CoapOption} (ho : o ≠ .token) (hfront : o ∈ frontOptions)
      (hset : packet.isOption o = true) (x y : α) :
      (if readOptions packet o = true then x else y) = x := by
    rw [readOptions_of_mem ho hfront, if_pos hset]
  have hbuilt2 : packet.isOption .block2 = true →
    BlockBuilt packet.block2 ∧ (packet.block2.more = 0 ∨ packet.block2.more = 1) := h .block2
  have hbuilt1 : packet.isOption .block1 = true → BlockBuilt packet.block1 := h .block1
  constructor
  · intro hsame
    refine ⟨fun hset => ?_, fun hset => ?_, fun hset => ?_, fun hset => ?_⟩
    · have hbit := (hbits .token).symm.trans (hsame.isOption .token)
      rw [htoken, hset] at hbit
      exact of_decide_eq_true hbit
    · have hblock := hsame.option .block2 hset
      simp only [SameOption, readBack, hif (by decide) (by decide) hset] at hblock
      exact (sameBlock_iff (hbuilt2 hset).1).mp hblock
    · have hblock := hsame.option .block1 hset
      simp only [SameOption, readBack, hif (by decide) (by decide) hset] at hblock
      exact (sameBlock_iff (hbuilt1 hset)).mp hblock
    · have hquery := hsame.option .locationQuery hset
      simp only [SameOption, readBack, hif (by decide) (by decide) hset] at hquery
      exact (foldl_merge_eq_iff _).mp hquery
  · rintro ⟨hnonempty, hblock2, hblock1, hquery⟩
    refine ⟨rfl, rfl, rfl, rfl, fun o => (hbits o).trans ?_, fun o hset => ?_, rfl⟩
    · by_cases ho : o = .token
      · rw [ho, htoken]
        cases hset : packet.isOption .token with
        | true => exact decide_eq_true (hnonempty hset)
        | false =>
          have hnil := (h .token).2 hset
          rw [hnil]
          rfl
      · by_cases hfront : o ∈ frontOptions
        · exact readOptions_of_mem ho hfront
        · have hlast : o = .proxyUri := by
            cases o <;> first | rfl | exact absurd rfl ho | exact absurd (by decide) hfront
          rw [hlast, hproxy, readOptions]
          rfl
    · cases o with
      | proxyUri =>
        rw [hproxy] at hset
        exact absurd hset Bool.false_ne_true
      | block2 =>
        simp only [SameOption, readBack, hif (by decide) (by decide) hset]
        exact (sameBlock_iff (hbuilt2 hset).1).mpr (hblock2 hset)
      | block1 =>
        simp only [SameOption, readBack, hif (by decide) (by decide) hset]
        exact (sameBlock_iff (hbuilt1 hset)).mpr (hblock1 hset)
      | locationQuery =>
        simp only [SameOption, readBack, hif (by decide) (by decide) hset]
        exact (foldl_merge_eq_iff _).mpr (hquery hset)
      | _ => exact sameOption_readBack (by decide) hset

/-! ### Messages that do not fit in a datagram -/

/-- The bytes of a list of options, with one for each. -/
def multiBytes (array : List (List Byte)) : ℕ := (array.map (·.length + 1)).sum

/-- The bytes of the values that have no bound. -/
def contentBytes (packet : Packet) : ℕ :=
  multiBytes packet.locationPath + multiBytes packet.uriPath + multiBytes packet.uriQuery +
    packet.locationQuery.length + packet.uriHost.length + packet.proxyUri.length +
    packet.payload.length

theorem multiBytes_coapAddMultiOption (dst : List (List Byte)) (option : List Byte) :
    multiBytes (coapAddMultiOption dst option) ≤ multiBytes dst + option.length + 1 := by
  have hle : (multiOption option).length ≤ option.length := List.length_take_le' _ _
  rw [multiBytes, coapAddMultiOption, List.map_append, List.sum_append, List.map_singleton,
    List.sum_singleton, multiBytes]
  omega

/-- What is stored of an option takes as many bytes in the datagram. -/
theorem contentBytes_storeOption (packet : Packet) (value : List Byte) (hproxy : o ≠ .proxyUri) :
    contentBytes (storeOption packet value o) ≤ contentBytes packet + value.length + 1 := by
  have hmulti (dst : List (List Byte)) := multiBytes_coapAddMultiOption dst value
  have hpath := hmulti packet.uriPath
  have hquery := hmulti packet.uriQuery
  have hlocation := hmulti packet.locationPath
  have hmerge : (coapMergeMultiOption packet.locationQuery value 0x26).length ≤
      packet.locationQuery.length + value.length + 1 := by
    unfold coapMergeMultiOption
    split_ifs
    · rw [List.length_append, List.length_cons]
      omega
    · omega
  cases o with
  | proxyUri => exact absurd rfl hproxy
  | accept =>
    rw [storeOption]
    split_ifs
    · dsimp only [contentBytes]
      omega
    · omega
  | _ =>
    dsimp only [storeOption, contentBytes]
    omega

theorem contentBytes_setOption {opt : ℕ} (h : packet.setOption opt = .ok packet') :
    contentBytes packet' = contentBytes packet := by
  unfold Packet.setOption at h
  split_ifs at h
  · cases h
    rfl
  · cases h
    rfl

/-- What the parser stores comes from the datagram. -/
theorem contentBytes_parseOptions {bytes : List Byte}
    (h : parseOptions packet number bytes = .ok (noError, packet')) :
    contentBytes packet' ≤ contentBytes packet + bytes.length := by
  have hrequest : coap400BadRequest ≠ noError := by decide
  have hoption : coap402BadOption ≠ noError := by decide
  have hproxy : proxyingNotSupported ≠ noError := by decide
  have hcode {code : Code} {p : Packet} (hne : code ≠ noError)
      (heq : (Except.ok (code, p) : Except Fault (Code × Packet)) = .ok (noError, packet')) :
      False := hne (Prod.mk.inj (Except.ok.inj heq)).1
  fun_induction parseOptions packet number bytes with
  | case1 packet number =>
    cases h
    exact Nat.le_add_right _ _
  | case2 packet number b bytes hb =>
    cases h
    dsimp only [contentBytes]
    rw [List.length_cons]
    omega
  | case3 => cases h
  | case4 => exact (hcode hrequest h).elim
  | case5 => cases h
  | case6 => exact (hcode hproxy h).elim
  | case7 => exact (hcode hoption h).elim
  | case9 => exact (hcode hoption h).elim
  | case8 packet number b bytes hb delta length rest hheader n hlength packet₁ hset ho heven ih
  | case10 packet number b bytes hb delta length rest hheader n hlength packet₁ hset ho heven ih =>
    have hrest := parseHeader_length hheader
    have hle := ih h
    rw [contentBytes_setOption hset, List.length_drop] at hle
    rw [List.length_cons]
    omega
  | case11 packet number b bytes hb delta length rest hheader n hlength value packet₁ hset o hne
      htoken ho ih =>
    have hrest := parseHeader_length hheader
    have hle := ih h
    have hstore := contentBytes_storeOption packet₁ value (fun heq => hne heq : o ≠ .proxyUri)
    have hvalue : value.length = length := by
      rw [List.length_take]
      omega
    rw [contentBytes_setOption hset] at hstore
    rw [List.length_drop] at hle
    rw [List.length_cons]
    omega

theorem contentBytes_coapParseMessage {data : List Byte}
    (h : coapParseMessage data = .ok (noError, packet')) :
    contentBytes packet' ≤ data.length := by
  have hrequest : coap400BadRequest ≠ noError := by decide
  match data, h with
  | b₀ :: code :: hi :: lo :: bytes, h =>
    have hheader : contentBytes (headerPacket b₀ code hi lo) = 0 := rfl
    rw [coapParseMessage, parseTokenAndOptions] at h
    simp only [List.length_cons]
    split_ifs at h with hversion htoken hshort
    · exact absurd (Prod.mk.inj (Except.ok.inj h)).1 hrequest
    · have hle := contentBytes_parseOptions h
      have hread : contentBytes ({ headerPacket b₀ code hi lo with
        token := bytes.take (headerPacket b₀ code hi lo).token.length }.markOption .token) = 0 := rfl
      rw [hread, List.length_drop] at hle
      omega
    · have hle := contentBytes_parseOptions h
      omega

/-- The content of an option that has no bound. -/
def contentOf (packet : Packet) : CoapOption → ℕ
  | .locationPath => multiBytes packet.locationPath
  | .uriPath => multiBytes packet.uriPath
  | .uriQuery => multiBytes packet.uriQuery
  | .locationQuery => packet.locationQuery.length
  | .uriHost => packet.uriHost.length
  | .proxyUri => packet.proxyUri.length
  | _ => 0

theorem contentBytes_eq (packet : Packet) : contentBytes packet =
    (serializedOptions.map (contentOf packet)).sum + packet.payload.length := by
  simp only [contentBytes, serializedOptions, contentOf, List.map_cons, List.map_nil,
    List.sum_cons, List.sum_nil]
  omega

theorem extensionCount_le (n : ℕ) : 14 * extensionCount n ≤ n + 1 := by
  unfold extensionCount
  split_ifs <;> omega

theorem sum_extensionCount_le (array : List (List Byte)) :
    14 * (array.map (extensionCount ·.length)).sum ≤ multiBytes array := by
  unfold multiBytes
  induction array with
  | nil => exact Nat.zero_le _
  | cons value array ih =>
    have hvalue := extensionCount_le value.length
    simp only [List.map_cons, List.sum_cons]
    omega

/-- An option is little longer than its content. -/
theorem optionLength_le (h : Built packet) :
    14 * (contentLength packet o + extraBytes packet o) ≤ 15 * contentOf packet o + 200 := by
  have hbuilt := h o
  have hnumber (value : UInt32) := (numberLength_le value).1
  have hint (value : UInt32) : 14 * (1 + numberLength value) ≤ 200 := by
    have := hnumber value
    omega
  have hshort (value : List Byte) (hvalue : value.length ≤ coapEtagLen) :
      14 * (value.length + 1 + extensionCount value.length) ≤ 200 := by
    have hext := extensionCount_le value.length
    have hmax : coapEtagLen = 8 := rfl
    omega
  have hlong (value : List Byte) : 14 * (value.length + 1 + extensionCount value.length) ≤
      15 * value.length + 200 := by
    have hext := extensionCount_le value.length
    omega
  have hmulti (array : List (List Byte)) : 14 * ((array.map (·.length + 1)).sum +
      (array.map (extensionCount ·.length)).sum) ≤ 15 * multiBytes array + 200 := by
    have hext := sum_extensionCount_le array
    unfold multiBytes at *
    omega
  cases o with
  | ifMatch => exact hshort _ hbuilt
  | etag => exact hshort _ hbuilt
  | uriHost => exact hlong _
  | proxyUri => exact hlong _
  | locationPath => exact hmulti _
  | uriPath => exact hmulti _
  | uriQuery => exact hmulti _
  | observe => exact hint _
  | uriPort => exact hint _
  | contentType => exact hint _
  | maxAge => exact hint _
  | block2 => exact hint _
  | block1 => exact hint _
  | size => exact hint _
  | ifNoneMatch => exact (show 14 * (1 + 0) ≤ 200 by decide)
  | token => exact Nat.zero_le _
  | accept =>
    have hmax : packet.accept.length ≤ 2 := hbuilt.2
    have hsum : (packet.accept.map (numberLength ·.toUInt32)).sum ≤ 4 * packet.accept.length :=
      sum_map_le fun value _ => hnumber _
    dsimp only [contentLength, extraBytes, contentOf]
    omega
  | locationQuery =>
    have hparts := @scanParts_length 0x26 packet.locationQuery
    have hext := sum_extensionCount_le (splitParts packet.locationQuery 0x26 0 0)
    rw [← splitParts_eq_scanParts] at hparts
    dsimp only [contentLength, extraBytes, contentOf]
    unfold multiBytes at hext
    omega

theorem farOptions_le (number : ℕ) (options : List CoapOption) :
    farOptions number options ≤ options.length := by
  induction options generalizing number with
  | nil => exact le_rfl
  | cons o options ih =>
    have htail := ih o.number
    rw [farOptions, List.length_cons]
    split_ifs <;> omega

/-- A message is little longer than its content. -/
theorem messageLength_le (h : Built packet) :
    14 * messageLength packet ≤ 15 * contentBytes packet + 4000 := by
  have hheader : coapHeaderLen = 4 := rfl
  have htoken : packet.token.length ≤ 8 := (h .token).1
  have hcount : (setOptions packet).length ≤ 17 := List.length_filter_le _ _
  have hfar := farOptions_le 0 (setOptions packet)
  have hmarker : (if packet.payload.length ≠ 0 then 1 else 0) ≤ 1 := by
    split_ifs <;> omega
  have hsum (options : List CoapOption) :
      14 * ((options.filter packet.isOption).map
          fun o => contentLength packet o + extraBytes packet o).sum ≤
        15 * (options.map (contentOf packet)).sum + 200 * options.length := by
    induction options with
    | nil => exact le_rfl
    | cons o options ih =>
      have hone := @optionLength_le packet o h
      rw [List.filter_cons, List.length_cons, List.map_cons, List.sum_cons]
      split_ifs
      · rw [List.map_cons, List.sum_cons]
        omega
      · omega
  have hall := hsum serializedOptions
  have hlength : serializedOptions.length = 17 := rfl
  rw [contentBytes_eq, messageLength]
  unfold setOptions at *
  omega

/-- A message that is read back has the content it had. -/
theorem contentBytes_le_of_sameMessage (h : Built packet) (hsame : SameMessage packet packet') :
    contentBytes packet ≤ contentBytes packet' := by
  have hmulti {o : CoapOption} {array array' : List (List Byte)}
      (hbuilt : MultiBuilt (packet.isOption o) array)
      (heq : packet.isOption o = true → array' = array) : multiBytes array ≤ multiBytes array' := by
    cases hset : packet.isOption o with
    | true => rw [heq hset]
    | false =>
      have hnil : array = [] := by
        rw [hset] at hbuilt
        simpa using hbuilt.1
      rw [hnil]
      exact Nat.zero_le _
  have hvalue {o : CoapOption} {value value' : List Byte}
      (hbuilt : packet.isOption o = false → value = [])
      (heq : packet.isOption o = true → value' = value) : value.length ≤ value'.length := by
    cases hset : packet.isOption o with
    | true => rw [heq hset]
    | false =>
      rw [hbuilt hset]
      exact Nat.zero_le _
  have hlocation := hmulti (h .locationPath) (hsame.option .locationPath)
  have hpath := hmulti (h .uriPath) (hsame.option .uriPath)
  have hquery := hmulti (h .uriQuery) (hsame.option .uriQuery)
  have hlocationQuery := hvalue (h .locationQuery) (hsame.option .locationQuery)
  have hhost := hvalue (h .uriHost) (hsame.option .uriHost)
  have hproxy := hvalue (h .proxyUri) (hsame.option .proxyUri)
  have hpayload := congrArg List.length hsame.payload
  unfold contentBytes
  omega

/-! ### The round trip -/

/-- The round trip of a packet that holds what the setters keep. -/
theorem Built.roundTrip_iff (h : Built packet) :
    (∃ packet', parseReceived (coapSerializeMessage packet) = .ok (noError, packet') ∧
      SameMessage packet packet') ↔ Encodable packet := by
  have hlength := coapSerializeMessage_length h
  have hrefused : proxyingNotSupported ≠ noError := by decide
  have hwhole (hlt : messageLength packet < 65536) : parseReceived (coapSerializeMessage packet) =
      coapParseMessage (coapSerializeMessage packet) := by
    rw [parseReceived, hlength, Nat.mod_eq_of_lt hlt, ← hlength, List.take_length]
  constructor
  · rintro ⟨packet', hparse, hsame⟩
    have hlt : messageLength packet < 65536 := by
      have hread := contentBytes_coapParseMessage hparse
      have hcontent := contentBytes_le_of_sameMessage h hsame
      have hlong := messageLength_le h
      rw [List.length_take, hlength] at hread
      omega
    rw [hwhole hlt] at hparse
    obtain ⟨bits, hbits, hplain, hproxied⟩ := coapParseMessage_readBack h hlt
    have hproxy : packet.isOption .proxyUri = false := by
      cases hset : packet.isOption .proxyUri with
      | false => rfl
      | true =>
        obtain ⟨packet₁, hparse₁⟩ := hproxied hset
        rw [hparse₁] at hparse
        exact absurd (Prod.mk.inj (Except.ok.inj hparse)).1 hrefused
    rw [hplain hproxy] at hparse
    cases hparse
    obtain ⟨htoken, hblock2, hblock1, hquery⟩ :=
      (sameMessage_readBack_iff h hproxy hbits).mp hsame
    exact ⟨htoken, hblock2, hblock1, hquery, hproxy, hlt⟩
  · rintro ⟨htoken, hblock2, hblock1, hquery, hproxy, hlt⟩
    obtain ⟨bits, hbits, hplain, -⟩ := coapParseMessage_readBack h hlt
    rw [hwhole hlt]
    exact ⟨_, hplain hproxy,
      (sameMessage_readBack_iff h hproxy hbits).mpr ⟨htoken, hblock2, hblock1, hquery⟩⟩

/-- **The round trip of a message**: what is parsed from the bytes of a packet that the
setters build is that packet if and only if its values can be said. -/
theorem parseReceived_coapSerializeMessage_iff (type : MessageType) (code : Code) (mid : UInt16)
    (calls : List SetterCall) :
    (∃ packet', parseReceived (coapSerializeMessage (builtPacket type code mid calls)) =
        .ok (noError, packet') ∧ SameMessage (builtPacket type code mid calls) packet') ↔
      Encodable (builtPacket type code mid calls) :=
  (built_builtPacket type code mid calls).roundTrip_iff

/-- The more flag of Block1 is stored as it is given, here 2, and read back as 1. -/
theorem parseReceived_coapSerializeMessage_more :
    ¬ ∃ packet', parseReceived (coapSerializeMessage (builtPacket .con 3 1 [.block1 0 2 16])) =
      .ok (noError, packet') ∧ SameMessage (builtPacket .con 3 1 [.block1 0 2 16]) packet' := by
  intro h
  have hencodable := (built_builtPacket .con 3 1 [.block1 0 2 16]).roundTrip_iff.mp h
  have hmore := (hencodable.block1 (by decide)).1
  exact absurd hmore (by decide)

end Lwm2m.Coap

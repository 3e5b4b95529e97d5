/-
# Serializing a message

`coap_serialize_message` and `coap_serialize_get_size` of
`coap/er-coap-13/er-coap-13.c`.  The options are written in the order of their
numbers, each under a header with the delta to the number before and the length of
the value; a writer keeps the bytes written so far and the last number
(`OptionWriter`).

What the writer appends for an option, the parser reads back: the header
(`parseHeader_coapSetOptionHeader`), the option as a whole (`parseOptions_option`), and
the numeric and block values (`coapParseIntOption_intOptionBytes`,
`parseBlockOption_blockOptionValue`).
-/

import Lwm2m.Coap.Parse
import Mathlib.Tactic.IntervalCases
import Mathlib.Data.BitVec
import Mathlib.Data.Nat.Bitwise

namespace Lwm2m.Coap

open Code Library

/-! ### Option headers -/

/-- `coap_option_nibble`. -/
def coapOptionNibble (value : ℕ) : Byte :=
  if value < 13 then value.toUInt8
  else if value ≤ 0xFF + 13 then 13
  else 14

/-- The extension bytes of a delta or a length in `coap_set_option_header`. -/
def extensionBytes (x : ℕ) : List Byte :=
  if x > 268 then [((x - 269) / 256).toUInt8, (x - 269).toUInt8]
  else if x > 12 then [(x - 13).toUInt8]
  else []

/-- `coap_set_option_header`. -/
def coapSetOptionHeader (delta length : ℕ) : List Byte :=
  (coapOptionNibble delta <<< 4 ||| coapOptionNibble length) ::
    (extensionBytes delta ++ extensionBytes length)

/-- A delta or a length that the two extension bytes can hold. -/
def maxExtended : ℕ := 65804

theorem coapOptionNibble_lt (value : ℕ) : (coapOptionNibble value).toNat < 15 := by
  unfold coapOptionNibble
  split_ifs with h
  · simp only [Nat.toUInt8_eq, UInt8.toNat_ofNat']
    omega
  · decide
  · decide

/-- A nibble with its extension bytes is read back. -/
theorem parseExtended_extensionBytes {x : ℕ} (h : x ≤ maxExtended) (rest : List Byte) :
    parseExtended (coapOptionNibble x).toNat (extensionBytes x ++ rest) = .ok (x, rest) := by
  have hmax : x ≤ 65804 := h
  unfold parseExtended coapOptionNibble extensionBytes
  by_cases hsmall : x < 13
  · have hnat : (x.toUInt8).toNat = x := by
      simp only [Nat.toUInt8_eq, UInt8.toNat_ofNat']
      omega
    rw [if_pos hsmall, if_neg (by omega), if_neg (by omega), hnat, if_neg (by omega),
      if_neg (by omega)]
    rfl
  by_cases hmiddle : x ≤ 0xFF + 13
  · have hnat : 13 + ((x - 13).toUInt8).toNat = x := by
      simp only [Nat.toUInt8_eq, UInt8.toNat_ofNat']
      omega
    rw [if_neg hsmall, if_pos hmiddle, if_pos (by rfl), if_neg (show ¬ x > 268 by omega),
      if_pos (show x > 12 by omega)]
    simp only [List.cons_append, List.nil_append, hnat]
  · have hnat : 14 + 255 + (((x - 269) / 256).toUInt8).toNat * 256 + ((x - 269).toUInt8).toNat =
        x := by
      simp only [Nat.toUInt8_eq, UInt8.toNat_ofNat']
      omega
    rw [if_neg hsmall, if_neg hmiddle, if_neg (by decide), if_pos (by rfl),
      if_pos (show x > 268 by omega)]
    simp only [List.cons_append, List.nil_append, hnat]

/-- The two nibbles of the first byte, which is never taken for the payload marker. -/
theorem nibbles_first (delta length : ℕ) :
    let b := coapOptionNibble delta <<< 4 ||| coapOptionNibble length
    b >>> 4 = coapOptionNibble delta ∧ b &&& 0x0F = coapOptionNibble length ∧
      b &&& 0xF0 ≠ 0xF0 := by
  have hall : ∀ d < 15, ∀ l < 15, let b := (UInt8.ofNat d) <<< 4 ||| UInt8.ofNat l
      b >>> 4 = UInt8.ofNat d ∧ b &&& 0x0F = UInt8.ofNat l ∧ b &&& 0xF0 ≠ 0xF0 := by
    decide
  have h := hall _ (coapOptionNibble_lt delta) _ (coapOptionNibble_lt length)
  simpa only [UInt8.ofNat_toNat] using h

/-- **An option header is read back.** -/
theorem parseHeader_coapSetOptionHeader {delta length : ℕ} (hdelta : delta ≤ maxExtended)
    (hlength : length ≤ maxExtended) (rest : List Byte) :
    parseHeader (coapOptionNibble delta <<< 4 ||| coapOptionNibble length)
      (extensionBytes delta ++ extensionBytes length ++ rest) = .ok (delta, length, rest) := by
  obtain ⟨hfirst, hsecond, -⟩ := nibbles_first delta length
  unfold parseHeader
  rw [hfirst, hsecond, List.append_assoc, parseExtended_extensionBytes hdelta, ok_bind]
  dsimp only
  rw [parseExtended_extensionBytes hlength]
  rfl

/-- **An option is read back**: its header and value, in front of any bytes. -/
theorem parseOptions_option {packet : Packet} {number : ℕ} {o : CoapOption} {value : List Byte}
    (hnumber : number ≤ o.number) (hvalue : value.length ≤ maxExtended)
    (htoken : o ≠ .token) (rest : List Byte) :
    parseOptions packet number
      (coapSetOptionHeader (o.number - number) value.length ++ value ++ rest) =
      if o = .proxyUri then
        .ok (proxyingNotSupported, storeOption (packet.markOption o) value o)
      else parseOptions (storeOption (packet.markOption o) value o) o.number rest := by
  have hlt := o.number_lt
  have hmax : maxExtended = 65804 := rfl
  have hdelta : o.number - number ≤ maxExtended := by omega
  have hheader := parseHeader_coapSetOptionHeader hdelta hvalue (value ++ rest)
  obtain ⟨-, -, hmarker⟩ := nibbles_first (o.number - number) value.length
  have hsum : number + (o.number - number) = o.number := by omega
  unfold coapSetOptionHeader
  rw [List.append_assoc, List.cons_append, parseOptions, if_neg hmarker]
  split
  · rename_i fault hfault
    rw [hheader] at hfault
    cases hfault
  · rename_i delta length rest' hok
    rw [hheader] at hok
    obtain ⟨rfl, rfl, rfl⟩ := by simpa using hok
    simp only [hsum, List.length_append, List.take_left', List.drop_left',
      Packet.setOption_number, CoapOption.ofNumber_number]
    rw [if_neg (by omega)]
    cases o with
    | token => exact absurd rfl htoken
    | _ => rfl

/-! ### Option values -/

/-- The bytes of a number in `coap_serialize_int_option`, without leading zeros. -/
def intOptionBytes (value : UInt32) : List Byte :=
  (if value &&& 0xFF000000 ≠ 0 then [(value >>> 24).toUInt8] else []) ++
  (if value &&& 0xFFFF0000 ≠ 0 then [(value >>> 16).toUInt8] else []) ++
  (if value &&& 0xFFFFFF00 ≠ 0 then [(value >>> 8).toUInt8] else []) ++
  (if value &&& 0xFFFFFFFF ≠ 0 then [value.toUInt8] else [])

/-- The loop of `coap_log_2`, which ends after at most 16 rounds. -/
def log2Loop : ℕ → UInt16 → UInt16 → UInt16
  | 0, _, result => result
  | rounds + 1, value, result =>
    let value := value >>> 1
    if value ≠ 0 then log2Loop rounds value (result + 1) else result + 1

/-- `coap_log_2`. -/
def coapLog2 (value : UInt16) : UInt16 :=
  let result := log2Loop 16 value 0
  if result ≠ 0 then result - 1 else result

/-- The number that `COAP_SERIALIZE_BLOCK_OPTION` encodes. -/
def blockOptionValue (b : BlockFields) : UInt32 :=
  let block := b.num <<< 4
  let block := if b.more ≠ 0 then block ||| 0x8 else block
  block ||| (0xF &&& coapLog2 (b.size / 16)).toUInt32

theorem intOptionBytes_length (value : UInt32) : (intOptionBytes value).length ≤ 4 := by
  unfold intOptionBytes
  split_ifs <;> simp

/-- The bits from a position on vanish exactly when the number is below it. -/
theorem nat_and_high_eq_zero_iff {n k : ℕ} (hk : k ≤ 32) (hn : n < 2 ^ 32) :
    n &&& (2 ^ 32 - 2 ^ k) = 0 ↔ n < 2 ^ k := by
  have hbit (i : ℕ) : (2 ^ 32 - 2 ^ k).testBit i = (decide (k ≤ i) && decide (i < 32)) := by
    rw [show 2 ^ 32 - 2 ^ k = (2 ^ (32 - k) - 1) <<< k by
      rw [Nat.shiftLeft_eq, Nat.sub_mul, ← pow_add, one_mul, Nat.sub_add_cancel hk]]
    rw [Nat.testBit_shiftLeft, Nat.testBit_two_pow_sub_one]
    by_cases h : k ≤ i
    · simp only [ge_iff_le, h, decide_true, Bool.true_and, decide_eq_decide]
      omega
    · simp [h]
  constructor
  · intro h
    refine Nat.lt_pow_two_of_testBit n fun i hi => ?_
    by_cases h32 : i < 32
    · have h := congrArg (fun m => m.testBit i) h
      simp only [Nat.testBit_and, Nat.zero_testBit] at h
      rw [hbit] at h
      simpa [h32, hi] using h
    · exact Nat.testBit_lt_two_pow (hn.trans_le (Nat.pow_le_pow_right (by decide) (by omega)))
  · intro h
    refine Nat.eq_of_testBit_eq fun i => ?_
    rw [Nat.testBit_and, hbit, Nat.zero_testBit]
    by_cases hi : k ≤ i
    · rw [Nat.testBit_lt_two_pow (h.trans_le (Nat.pow_le_pow_right (by decide) hi))]
      rfl
    · simp [hi]

/-- The masks of `coap_serialize_int_option`. -/
theorem and_high_eq_zero_iff (value : UInt32) :
    (value &&& 0xFF000000 = 0 ↔ value.toNat < 2 ^ 24) ∧
    (value &&& 0xFFFF0000 = 0 ↔ value.toNat < 2 ^ 16) ∧
    (value &&& 0xFFFFFF00 = 0 ↔ value.toNat < 2 ^ 8) ∧
    (value &&& 0xFFFFFFFF = 0 ↔ value.toNat < 2 ^ 0) := by
  have hlt : value.toNat < 2 ^ 32 := value.toNat_lt
  simp only [← UInt32.toNat_inj, UInt32.toNat_and]
  exact ⟨nat_and_high_eq_zero_iff (k := 24) (by decide) hlt,
    nat_and_high_eq_zero_iff (k := 16) (by decide) hlt,
    nat_and_high_eq_zero_iff (k := 8) (by decide) hlt,
    nat_and_high_eq_zero_iff (k := 0) (by decide) hlt⟩
/-- One round of `coap_parse_int_option`. -/
theorem toNat_shiftLeft_or (var : UInt32) (b : Byte) :
    (var <<< 8 ||| b.toUInt32).toNat = var.toNat * 256 % 2 ^ 32 + b.toNat := by
  have hb : b.toNat < 2 ^ 8 := b.toNat_lt
  have hshift : var.toNat * 256 % 2 ^ 32 = (var.toNat % 2 ^ 24) <<< 8 := by
    rw [Nat.shiftLeft_eq]
    omega
  simp only [UInt32.toNat_or, UInt32.toNat_shiftLeft, UInt8.toNat_toUInt32]
  rw [show (8 : UInt32).toNat % 32 = 8 from rfl, Nat.shiftLeft_eq, hshift,
    Nat.shiftLeft_add_eq_or_of_lt hb]

/-- **A number is read back.** -/
theorem coapParseIntOption_intOptionBytes (value : UInt32) :
    coapParseIntOption (intOptionBytes value) = value := by
  have hlt : value.toNat < 2 ^ 32 := value.toNat_lt
  obtain ⟨h₃, h₂, h₁, h₀⟩ := and_high_eq_zero_iff value
  have hbyte (k : UInt32) (hk : k.toNat < 32) :
      (value >>> k).toUInt8.toNat = value.toNat / 2 ^ k.toNat % 256 := by
    simp only [UInt32.toNat_toUInt8, UInt32.toNat_shiftRight, Nat.mod_eq_of_lt hk,
      Nat.shiftRight_eq_div_pow]
  have hbyte₀ : value.toUInt8.toNat = value.toNat % 256 := value.toNat_toUInt8
  have hbyte₁ : (value >>> 8).toUInt8.toNat = value.toNat / 2 ^ 8 % 256 := hbyte 8 (by decide)
  have hbyte₂ : (value >>> 16).toUInt8.toNat = value.toNat / 2 ^ 16 % 256 := hbyte 16 (by decide)
  have hbyte₃ : (value >>> 24).toUInt8.toNat = value.toNat / 2 ^ 24 % 256 := hbyte 24 (by decide)
  rw [← UInt32.toNat_inj]
  unfold intOptionBytes coapParseIntOption
  simp only [ne_eq, h₀, h₁, h₂, h₃, ite_not]
  -- one case for each number of bytes
  rcases Nat.lt_or_ge value.toNat (2 ^ 0) with hv | hv
  · rw [if_pos (by omega), if_pos (by omega), if_pos (by omega), if_pos hv]
    simp only [List.append_nil, List.foldl_nil, UInt32.toNat_zero]
    omega
  rw [if_neg (show ¬ value.toNat < 2 ^ 0 by omega)]
  rcases Nat.lt_or_ge value.toNat (2 ^ 8) with hv | hv
  · rw [if_pos (by omega), if_pos (by omega), if_pos hv]
    simp only [List.nil_append, List.foldl_cons, List.foldl_nil, toNat_shiftLeft_or, hbyte₀,
      UInt32.toNat_zero]
    omega
  rw [if_neg (show ¬ value.toNat < 2 ^ 8 by omega)]
  rcases Nat.lt_or_ge value.toNat (2 ^ 16) with hv | hv
  · rw [if_pos (by omega), if_pos hv]
    simp only [List.nil_append, List.cons_append, List.foldl_cons, List.foldl_nil,
      toNat_shiftLeft_or, hbyte₀, hbyte₁, UInt32.toNat_zero]
    omega
  rw [if_neg (show ¬ value.toNat < 2 ^ 16 by omega)]
  rcases Nat.lt_or_ge value.toNat (2 ^ 24) with hv | hv
  · rw [if_pos hv]
    simp only [List.nil_append, List.cons_append, List.foldl_cons, List.foldl_nil,
      toNat_shiftLeft_or, hbyte₀, hbyte₁, hbyte₂, UInt32.toNat_zero]
    omega
  · rw [if_neg (show ¬ value.toNat < 2 ^ 24 by omega)]
    simp only [List.nil_append, List.cons_append, List.foldl_cons, List.foldl_nil,
      toNat_shiftLeft_or, hbyte₀, hbyte₁, hbyte₂, hbyte₃, UInt32.toNat_zero]
    omega
/-- The block size of an exponent. -/
def blockSize (szx : ℕ) : UInt16 := (16 <<< szx).toUInt16

theorem coapLog2_blockSize : ∀ szx < 8, (0xF &&& coapLog2 (blockSize szx / 16)).toNat = szx := by
  decide

variable {b : BlockFields} {szx : ℕ}

theorem toNat_blockOptionValue (hnum : b.num.toNat < 2 ^ 20) (hszx : szx < 8)
    (hsize : b.size = blockSize szx) :
    (blockOptionValue b).toNat =
      b.num.toNat * 16 + (if b.more ≠ 0 then 8 else 0) + szx := by
  have hlog := coapLog2_blockSize szx hszx
  have hshift : (b.num <<< 4).toNat = b.num.toNat <<< 4 := by
    rw [UInt32.toNat_shiftLeft, show (4 : UInt32).toNat % 32 = 4 from rfl, Nat.shiftLeft_eq]
    omega
  unfold blockOptionValue
  rw [UInt32.toNat_or, UInt16.toNat_toUInt32, hsize, hlog]
  split_ifs with hmore
  · have h8 : (8 : ℕ) ||| szx = 8 + szx := by
      interval_cases szx <;> rfl
    rw [UInt32.toNat_or, hshift, Nat.or_assoc, show (8 : UInt32).toNat = 8 from rfl, h8,
      ← Nat.shiftLeft_add_eq_or_of_lt (by omega), Nat.shiftLeft_eq, Nat.add_assoc]
  · rw [hshift, ← Nat.shiftLeft_add_eq_or_of_lt (by omega), Nat.shiftLeft_eq]
    rfl

/-- **A block option is read back.** -/
theorem parseBlockOption_blockOptionValue (hnum : b.num.toNat < 2 ^ 20) (hszx : szx < 8)
    (hsize : b.size = blockSize szx) :
    ∃ offset, parseBlockOption (intOptionBytes (blockOptionValue b)) =
      { b with more := if b.more ≠ 0 then 1 else 0, offset } := by
  have hvalue := toNat_blockOptionValue hnum hszx hsize
  have hlow : (blockOptionValue b &&& 7).toNat = szx := by
    rw [UInt32.toNat_and, hvalue, show (7 : UInt32).toNat = 2 ^ 3 - 1 from rfl,
      Nat.and_two_pow_sub_one_eq_mod]
    split_ifs <;> omega
  have hhigh : blockOptionValue b >>> 4 = b.num := by
    rw [← UInt32.toNat_inj, UInt32.toNat_shiftRight, hvalue, Nat.shiftRight_eq_div_pow,
      show 2 ^ ((4 : UInt32).toNat % 32) = 16 from rfl]
    split_ifs <;> omega
  have hbit : (blockOptionValue b &&& 8) = if b.more ≠ 0 then 8 else 0 := by
    rw [← UInt32.toNat_inj, UInt32.toNat_and, show (8 : UInt32).toNat = 2 ^ 3 from rfl,
      Nat.and_two_pow, Nat.testBit_eq_decide_div_mod_eq, hvalue]
    split_ifs with hmore
    · rw [decide_eq_true (by omega)]
      rfl
    · rw [decide_eq_false (by omega)]
      rfl
  have hmore : ((blockOptionValue b &&& 8) >>> 3).toUInt8 = if b.more ≠ 0 then 1 else 0 := by
    rw [hbit]
    split_ifs <;> rfl
  have hsz : (16 <<< (blockOptionValue b &&& 7)).toUInt16 = b.size := by
    have h7 : blockOptionValue b &&& 7 = UInt32.ofNat szx := by
      rw [← UInt32.toNat_inj, hlow, UInt32.toNat_ofNat']
      omega
    rw [h7, hsize]
    interval_cases szx <;> rfl
  refine ⟨(blockOptionValue b &&& ~~~0x0000000F) <<< (blockOptionValue b &&& 0x07), ?_⟩
  simp only [parseBlockOption, coapParseIntOption_intOptionBytes, hhigh, hmore, hsz]
/-! ### Writing the options -/

/-- The bytes written so far and the last option number, `current_number`. -/
structure OptionWriter where
  bytes : List Byte := []
  currentNumber : ℕ := 0
  deriving DecidableEq, Repr

namespace OptionWriter

/-- An option: its header and its value. -/
def option (w : OptionWriter) (o : CoapOption) (value : List Byte) : OptionWriter :=
  { bytes := w.bytes ++ (coapSetOptionHeader (o.number - w.currentNumber) value.length ++ value)
    currentNumber := o.number }

/-- `COAP_SERIALIZE_INT_OPTION`. -/
def intOption (w : OptionWriter) (o : CoapOption) (value : UInt32) : OptionWriter :=
  w.option o (intOptionBytes value)

/-- `COAP_SERIALIZE_MULTI_OPTION`: the number is the current one even when the list is
empty. -/
def multiOption (w : OptionWriter) (o : CoapOption) (array : List (List Byte)) : OptionWriter :=
  { bytes := (array.foldl (·.option o) w).bytes
    currentNumber := o.number }

end OptionWriter

/-- The parts into which `coap_serialize_array_option` splits an array, from position `j`
on; `start` is where the current part starts.  The byte after a splitter is not looked
at. -/
def splitParts (array : List Byte) (splitter : Byte) (start j : ℕ) : List (List Byte) :=
  if h : j ≤ array.length then
    if array[j]? = some splitter ∨ j = array.length then
      (array.drop start).take (j - start) :: splitParts array splitter (j + 1) (j + 2)
    else splitParts array splitter start (j + 1)
  else []
termination_by array.length + 1 - j

/-- The macro of an option, when the option is set. -/
def writeOption (packet : Packet) (w : OptionWriter) : CoapOption → OptionWriter
  | .ifMatch => w.option .ifMatch packet.ifMatch
  | .uriHost => w.option .uriHost packet.uriHost
  | .etag => w.option .etag packet.etag
  | .ifNoneMatch => w.intOption .ifNoneMatch (packet.contentType - packet.contentType)
  | .observe => w.intOption .observe packet.observe
  | .uriPort => w.intOption .uriPort packet.uriPort.toUInt32
  | .locationPath => w.multiOption .locationPath packet.locationPath
  | .uriPath => w.multiOption .uriPath packet.uriPath
  | .contentType => w.intOption .contentType packet.contentType
  | .maxAge => w.intOption .maxAge packet.maxAge
  | .uriQuery => w.multiOption .uriQuery packet.uriQuery
  | .accept => packet.accept.foldl (fun w accept => w.intOption .accept accept.toUInt32) w
  | .locationQuery =>
    -- the splitter is '&'
    (splitParts packet.locationQuery 0x26 0 0).foldl (·.option .locationQuery) w
  | .block2 => w.intOption .block2 (blockOptionValue packet.block2)
  | .block1 => w.intOption .block1 (blockOptionValue packet.block1)
  | .size => w.intOption .size packet.size
  | .proxyUri => w.option .proxyUri packet.proxyUri
  | .token => w

/-- The options that `coap_serialize_message` looks for, in its order. -/
def serializedOptions : List CoapOption :=
  [.ifMatch, .uriHost, .etag, .ifNoneMatch, .observe, .uriPort, .locationPath, .uriPath,
    .contentType, .maxAge, .uriQuery, .accept, .locationQuery, .block2, .block1, .size, .proxyUri]

/-- One of the macros of `coap_serialize_message`. -/
def serializeOption (packet : Packet) (w : OptionWriter) (o : CoapOption) : OptionWriter :=
  if packet.isOption o then writeOption packet w o else w

/-- The options of a packet. -/
def serializeOptions (packet : Packet) : OptionWriter :=
  serializedOptions.foldl (serializeOption packet) {}

/-! ### Messages -/

/-- The first byte: version 1, type and token length. -/
def headerByte (packet : Packet) : Byte :=
  (0x40 : Byte) ||| ((0x30 : Byte) &&& (packet.type.field <<< 4).toUInt8) |||
    ((0x0F : Byte) &&& packet.token.length.toUInt8)

/-- `coap_serialize_message`: the bytes written to the buffer. -/
def coapSerializeMessage (packet : Packet) : List Byte :=
  [headerByte packet, packet.code, (packet.mid >>> 8).toUInt8, packet.mid.toUInt8] ++
    packet.token ++ (serializeOptions packet).bytes ++
    (if packet.payload.length ≠ 0 then 0xFF :: packet.payload else [])

/-- What `coap_serialize_message` leaves of the packet. -/
def Packet.serialized (packet : Packet) : Packet :=
  { packet with version := 1 }.coapFreeHeader

/-- What `coap_serialize_get_size` adds for an option that is set. -/
def optionSize (packet : Packet) : CoapOption → ℕ
  | .ifMatch => coapMaxOptionHeaderLen + packet.ifMatch.length
  | .uriHost => coapMaxOptionHeaderLen + packet.uriHost.length
  | .etag => coapMaxOptionHeaderLen + packet.etag.length
  | .locationPath => (packet.locationPath.map (coapMaxOptionHeaderLen + ·.length)).sum
  | .uriPath => (packet.uriPath.map (coapMaxOptionHeaderLen + ·.length)).sum
  | .uriQuery => (packet.uriQuery.map (coapMaxOptionHeaderLen + ·.length)).sum
  | .accept => packet.accept.length * coapMaxOptionHeaderLen
  | .locationQuery => coapMaxOptionHeaderLen + packet.locationQuery.length
  | .proxyUri => coapMaxOptionHeaderLen + packet.proxyUri.length
  | .ifNoneMatch | .observe | .uriPort | .contentType | .maxAge | .block2 | .block1 | .size =>
    coapMaxOptionHeaderLen
  | .token => 0

/-- `coap_serialize_get_size`. -/
def coapSerializeGetSize (packet : Packet) : ℕ :=
  coapHeaderLen + packet.payload.length + packet.token.length +
    (serializedOptions.map fun o => if packet.isOption o then optionSize packet o else 0).sum +
    (if packet.payload.length ≠ 0 then 1 else 0)

end Lwm2m.Coap

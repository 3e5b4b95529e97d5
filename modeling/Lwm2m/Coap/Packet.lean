/-
# CoAP packets

`coap/er-coap-13/er-coap-13.h`: the parsed message `coap_packet_t`, the bitmap
of the options it carries, and the setters and getters of `er-coap-13.c`.

Strings and buffers that the packet points to are held by value.  A
`multi_option_t` is the list of its bytes; its length field has 8 bits, so an
entry made from a longer option keeps the length modulo 256.  The bitmap is an
array of `COAP_OPTION_PROXY_URI / 8 + 1 = 5` bytes, here its 40 bits.  The guard
of `SET_OPTION` compares the option number with 40 by `<=`, so number 40 passes
the guard and addresses a sixth byte.
-/

import Lwm2m.Basic
import Mathlib.Data.UInt
import Mathlib.Tactic.Common

namespace Lwm2m.Coap

/-! ### Constants -/

/-- `COAP_HEADER_LEN`. -/
def coapHeaderLen : ℕ := 4
/-- `COAP_ETAG_LEN`. -/
def coapEtagLen : ℕ := 8
/-- `COAP_TOKEN_LEN`. -/
def coapTokenLen : ℕ := 8
/-- `COAP_MAX_ACCEPT_NUM`. -/
def coapMaxAcceptNum : ℕ := 2
/-- `COAP_MAX_OPTION_HEADER_LEN`. -/
def coapMaxOptionHeaderLen : ℕ := 5

/-- `coap_message_type_t`. -/
inductive MessageType
  | con
  | non
  | ack
  | rst
  deriving DecidableEq, Repr

/-- The message type of a two bit field. -/
def MessageType.ofField : ℕ → MessageType
  | 0 => con
  | 1 => non
  | 2 => ack
  | _ => rst

/-- The two bit field of a message type. -/
def MessageType.field : MessageType → ℕ
  | con => 0
  | non => 1
  | ack => 2
  | rst => 3

/-- `coap_option_t`. -/
inductive CoapOption
  | ifMatch
  | uriHost
  | etag
  | ifNoneMatch
  | observe
  | uriPort
  | locationPath
  | uriPath
  | contentType
  | maxAge
  | uriQuery
  | accept
  | token
  | locationQuery
  | block2
  | block1
  | size
  | proxyUri
  deriving DecidableEq, Repr

namespace CoapOption

/-- The number of an option. -/
def number : CoapOption → ℕ
  | ifMatch => 1
  | uriHost => 3
  | etag => 4
  | ifNoneMatch => 5
  | observe => 6
  | uriPort => 7
  | locationPath => 8
  | uriPath => 11
  | contentType => 12
  | maxAge => 14
  | uriQuery => 15
  | accept => 17
  | token => 19
  | locationQuery => 20
  | block2 => 23
  | block1 => 27
  | size => 28
  | proxyUri => 35

/-- The option of a number. -/
def ofNumber : ℕ → Option CoapOption
  | 1 => some ifMatch
  | 3 => some uriHost
  | 4 => some etag
  | 5 => some ifNoneMatch
  | 6 => some observe
  | 7 => some uriPort
  | 8 => some locationPath
  | 11 => some uriPath
  | 12 => some contentType
  | 14 => some maxAge
  | 15 => some uriQuery
  | 17 => some accept
  | 19 => some token
  | 20 => some locationQuery
  | 23 => some block2
  | 27 => some block1
  | 28 => some size
  | 35 => some proxyUri
  | _ => none

@[simp] theorem ofNumber_number (o : CoapOption) : ofNumber o.number = some o := by
  cases o <;> rfl

theorem eq_number_of_ofNumber {n : ℕ} {o : CoapOption} (h : ofNumber n = some o) :
    n = o.number := by
  unfold ofNumber at h
  split at h <;> cases h <;> rfl

/-- Every named option has its bit in the bitmap. -/
theorem number_lt (o : CoapOption) : o.number < 40 := by
  cases o <;> decide

theorem number_injective : Function.Injective number := fun o₁ o₂ h => by
  simpa using congrArg ofNumber h

end CoapOption

/-! ### The packet -/

/-- A block option as the parser stores it: number, more flag, size and offset. -/
structure BlockFields where
  num : UInt32 := 0
  more : UInt8 := 0
  size : UInt16 := 0
  offset : UInt32 := 0
  deriving DecidableEq, Repr

/-- `coap_packet_t`. -/
structure Packet where
  version : UInt8 := 0
  type : MessageType := .con
  code : Code := 0
  mid : UInt16 := 0
  options : BitVec 40 := 0
  contentType : UInt32 := 0
  maxAge : UInt32 := 0
  proxyUri : List Byte := []
  etag : List Byte := []
  uriHost : List Byte := []
  locationPath : List (List Byte) := []
  uriPort : UInt16 := 0
  locationQuery : List Byte := []
  uriPath : List (List Byte) := []
  observe : UInt32 := 0
  token : List Byte := []
  accept : List UInt16 := []
  ifMatch : List Byte := []
  block2 : BlockFields := {}
  block1 : BlockFields := {}
  size : UInt32 := 0
  uriQuery : List (List Byte) := []
  ifNoneMatch : UInt8 := 0
  payload : List Byte := []
  deriving DecidableEq, Repr

/-- `coap_init_message`. -/
def coapInitMessage (type : MessageType) (code : Code) (mid : UInt16) : Packet :=
  { type, code, mid }

namespace Packet

/-- The bit of an option number is set in the bitmap. -/
def mark (packet : Packet) (opt : ℕ) : Packet :=
  { packet with options := packet.options ||| 1#40 <<< opt }

/-- `SET_OPTION`: the guard admits the numbers up to 40, the array has the bits of
the numbers up to 39. -/
def setOption (packet : Packet) (opt : ℕ) : Except Fault Packet :=
  if opt ≤ 40 then
    if opt / 8 < 5 then .ok (packet.mark opt) else .error .outOfBoundsWrite
  else .ok packet

/-- `IS_OPTION`. -/
def isOption (packet : Packet) (o : CoapOption) : Bool :=
  packet.options.getLsbD o.number

/-- `SET_OPTION` at a named option. -/
def markOption (packet : Packet) (o : CoapOption) : Packet :=
  packet.mark o.number

/-- A named option is always stored inside the array. -/
@[simp] theorem setOption_number (packet : Packet) (o : CoapOption) :
    packet.setOption o.number = .ok (packet.markOption o) := by
  have := o.number_lt
  rw [setOption, if_pos (by omega), if_pos (by omega)]
  rfl

/-- **When the bitmap overflows.**  `SET_OPTION` writes outside the array for option
number 40 and for no other. -/
theorem setOption_eq_error_iff (packet : Packet) (opt : ℕ) (fault : Fault) :
    packet.setOption opt = .error fault ↔ opt = 40 ∧ fault = .outOfBoundsWrite := by
  unfold setOption
  split_ifs with h₁ h₂
  · simp only [false_iff]
    omega
  · simp only [Except.error.injEq]
    constructor
    · rintro rfl
      exact ⟨by omega, rfl⟩
    · exact fun h => h.2.symm
  · simp only [false_iff]
    omega

/-- An option is set after `SET_OPTION` if it was or if it is the one set. -/
@[simp] theorem isOption_markOption (packet : Packet) (o o' : CoapOption) :
    (packet.markOption o).isOption o' = (packet.isOption o' || decide (o' = o)) := by
  have h := o'.number_lt
  have hiff : o' = o ↔ o'.number = o.number := CoapOption.number_injective.eq_iff.symm
  rw [Bool.eq_iff_iff]
  simp only [isOption, markOption, mark, BitVec.getLsbD_or, BitVec.getLsbD_shiftLeft,
    BitVec.getLsbD_one, Bool.or_eq_true, Bool.and_eq_true, Bool.not_eq_true', decide_eq_true_eq,
    decide_eq_false_iff_not, hiff]
  refine or_congr_right ?_
  omega

theorem isOption_markOption_of_ne (packet : Packet) {o o' : CoapOption} (h : o' ≠ o) :
    (packet.markOption o).isOption o' = packet.isOption o' := by
  rw [isOption_markOption, decide_eq_false h, Bool.or_false]

/-- `coap_free_header`. -/
def coapFreeHeader (packet : Packet) : Packet :=
  { packet with uriPath := [], uriQuery := [], locationPath := [] }

end Packet

/-- The bytes that `coap_add_multi_option` records for an option. -/
def multiOption (option : List Byte) : List Byte :=
  option.take (option.length % 256)

/-- `coap_add_multi_option`. -/
def coapAddMultiOption (dst : List (List Byte)) (option : List Byte) : List (List Byte) :=
  dst ++ [multiOption option]

/-- `coap_merge_multi_option`. -/
def coapMergeMultiOption (dst option : List Byte) (separator : Byte) : List Byte :=
  if 0 < dst.length then dst ++ separator :: option else option

/-! ### Setters -/

namespace Packet

/-- `coap_set_header_content_type`. -/
def coapSetHeaderContentType (packet : Packet) (contentType : UInt32) : Packet :=
  { packet with contentType }.markOption .contentType

/-- `coap_set_header_accept`. -/
def coapSetHeaderAccept (packet : Packet) (accept : UInt16) : Packet :=
  if packet.accept.length < coapMaxAcceptNum then
    { packet with accept := packet.accept ++ [accept] }.markOption .accept
  else packet

/-- `coap_set_header_etag`. -/
def coapSetHeaderEtag (packet : Packet) (etag : List Byte) : Packet :=
  { packet with etag := etag.take coapEtagLen }.markOption .etag

/-- `coap_set_header_if_match`. -/
def coapSetHeaderIfMatch (packet : Packet) (etag : List Byte) : Packet :=
  { packet with ifMatch := etag.take coapEtagLen }.markOption .ifMatch

/-- `coap_set_header_if_none_match`. -/
def coapSetHeaderIfNoneMatch (packet : Packet) : Packet :=
  packet.markOption .ifNoneMatch

/-- `coap_set_header_uri_port`. -/
def coapSetHeaderUriPort (packet : Packet) (port : UInt16) : Packet :=
  { packet with uriPort := port }.markOption .uriPort

/-- `coap_set_header_uri_path_segment`. -/
def coapSetHeaderUriPathSegment (packet : Packet) (segment : CString) : Packet :=
  { packet with uriPath := coapAddMultiOption packet.uriPath segment }.markOption .uriPath

/-- `coap_set_header_token`. -/
def coapSetHeaderToken (packet : Packet) (token : List Byte) : Packet :=
  { packet with token := token.take coapTokenLen }.markOption .token

/-- `coap_set_header_observe`. -/
def coapSetHeaderObserve (packet : Packet) (observe : UInt32) : Packet :=
  { packet with observe := 0x00FFFFFF &&& observe }.markOption .observe

/-- `coap_set_header_block1`. -/
def coapSetHeaderBlock1 (packet : Packet) (num : UInt32) (more : UInt8) (size : UInt16) : Packet :=
  if size < 16 then packet
  else if size > 2048 then packet
  else if num > 0x0FFFFF then packet
  else { packet with block1 := { packet.block1 with num, more, size } }.markOption .block1

/-- `coap_set_header_block2`. -/
def coapSetHeaderBlock2 (packet : Packet) (num : UInt32) (more : UInt8) (size : UInt16) : Packet :=
  if size < 16 then packet
  else if size > 2048 then packet
  else if num > 0x0FFFFF then packet
  else
    let more := if more ≠ 0 then 1 else 0
    { packet with block2 := { packet.block2 with num, more, size } }.markOption .block2

/-- `coap_set_payload`. -/
def coapSetPayload (packet : Packet) (payload : List Byte) : Packet :=
  { packet with payload := payload.take (payload.length % 65536) }

end Packet

end Lwm2m.Coap

/-
# Parsing a datagram

`coap_parse_message` of `coap/er-coap-13/er-coap-13.c`: a cursor walks the
header, the token and the options of a datagram.  The cursor is the list of the
bytes between it and the end of the datagram, so a read that the source does not
bound shows as `Fault.outOfBoundsRead` where the list runs out.

The option number is the running sum of the deltas, a `uint32_t`.  A datagram
holds fewer than 65536 bytes and a delta of at most 65804 takes three of them, so
the sum does not wrap and is a natural number here.  `coap_merge_multi_option`
joins Location-Query options in place; it writes only between the first of them
and the end of the one just read, never past the cursor, so the options are
copied by value.

The parser is safe on exactly the datagrams described by `InsideBuffers`
(`coap_parse_message_safe_iff`): the fixed header, the token and the extended
delta and length bytes are read without a check of the length, and option number
40 is recorded one byte past the bitmap.
-/

import Lwm2m.Coap.Packet
import Lwm2m.Library.Except

namespace Lwm2m.Coap

open Code Library

/-! ### Fields -/

/-- `coap_parse_int_option`. -/
def coapParseIntOption (bytes : List Byte) : UInt32 :=
  bytes.foldl (fun var b => var <<< 8 ||| b.toUInt32) 0

/-- The block option fields of an option value. -/
def parseBlockOption (bytes : List Byte) : BlockFields :=
  let num := coapParseIntOption bytes
  { more := ((num &&& 0x08) >>> 3).toUInt8
    size := (16 <<< (num &&& 0x07)).toUInt16
    offset := (num &&& ~~~0x0000000F) <<< (num &&& 0x07)
    num := num >>> 4 }

/-- What the parser stores for an option other than Proxy-Uri, the `switch` on the
option number. -/
def storeOption (packet : Packet) (value : List Byte) : CoapOption → Packet
  | .contentType => { packet with contentType := coapParseIntOption value }
  | .maxAge => { packet with maxAge := coapParseIntOption value }
  | .etag => { packet with etag := value.take coapEtagLen }
  | .accept =>
    if packet.accept.length < coapMaxAcceptNum then
      { packet with accept := packet.accept ++ [(coapParseIntOption value).toUInt16] }
    else packet
  | .ifMatch => { packet with ifMatch := value.take coapEtagLen }
  | .ifNoneMatch => { packet with ifNoneMatch := 1 }
  | .uriHost => { packet with uriHost := value }
  | .uriPort => { packet with uriPort := (coapParseIntOption value).toUInt16 }
  | .uriPath => { packet with uriPath := coapAddMultiOption packet.uriPath value }
  | .uriQuery => { packet with uriQuery := coapAddMultiOption packet.uriQuery value }
  | .locationPath => { packet with locationPath := coapAddMultiOption packet.locationPath value }
  | .locationQuery =>
    -- the separator is '&'
    { packet with locationQuery := coapMergeMultiOption packet.locationQuery value 0x26 }
  | .observe => { packet with observe := coapParseIntOption value }
  | .block2 => { packet with block2 := parseBlockOption value }
  | .block1 => { packet with block1 := parseBlockOption value }
  | .size => { packet with size := coapParseIntOption value }
  | .proxyUri => { packet with proxyUri := value }
  | .token => packet

/-! ### The cursor -/

/-- A nibble of an option header with its extension bytes: 13 is followed by one
byte, 14 by two. -/
def parseExtended (x : ℕ) (bytes : List Byte) : Except Fault (ℕ × List Byte) :=
  if x = 13 then
    match bytes with
    | b :: rest => .ok (13 + b.toNat, rest)
    | [] => .error .outOfBoundsRead
  else if x = 14 then
    match bytes with
    | hi :: lo :: rest => .ok (14 + 255 + hi.toNat * 256 + lo.toNat, rest)
    | _ => .error .outOfBoundsRead
  else .ok (x, bytes)

/-- An option header after its first byte: the delta, the length and the bytes that
follow the header. -/
def parseHeader (b : Byte) (bytes : List Byte) : Except Fault (ℕ × ℕ × List Byte) := do
  let (delta, bytes) ← parseExtended (b >>> 4).toNat bytes
  let (length, bytes) ← parseExtended (b &&& 0x0F).toNat bytes
  return (delta, length, bytes)

/-- The extension bytes are taken from the front. -/
theorem parseExtended_length {x value : ℕ} {bytes rest : List Byte}
    (h : parseExtended x bytes = .ok (value, rest)) : rest.length ≤ bytes.length := by
  unfold parseExtended at h
  split_ifs at h
  · cases bytes with
    | nil => simp at h
    | cons b bytes =>
      simp only [Except.ok.injEq, Prod.mk.injEq] at h
      simp [← h.2]
  · match bytes with
    | [] | [_] => simp at h
    | _ :: _ :: bytes =>
      simp only [Except.ok.injEq, Prod.mk.injEq] at h
      simp only [← h.2, List.length_cons]
      omega
  · simp only [Except.ok.injEq, Prod.mk.injEq] at h
    rw [h.2]

theorem parseHeader_length {b : Byte} {bytes rest : List Byte} {delta length : ℕ}
    (h : parseHeader b bytes = .ok (delta, length, rest)) : rest.length ≤ bytes.length := by
  obtain ⟨⟨d, bytes'⟩, h₁, h⟩ := bind_eq_ok_iff.mp h
  obtain ⟨⟨l, bytes''⟩, h₂, h⟩ := bind_eq_ok_iff.mp h
  simp only [pure_eq_ok, Except.ok.injEq, Prod.mk.injEq] at h
  have := parseExtended_length h₁
  have := parseExtended_length h₂
  rw [← h.2.2]
  omega

/-- The loop over the options, from the option number read so far and the bytes
under the cursor. -/
def parseOptions (packet : Packet) (number : ℕ) (bytes : List Byte) :
    Except Fault (Code × Packet) :=
  match bytes with
  | [] => .ok (noError, packet)
  | b :: bytes =>
    -- the payload marker is 0xFF, every byte 0xF* is taken for it
    if b &&& 0xF0 = 0xF0 then .ok (noError, { packet with payload := bytes })
    else
      match h : parseHeader b bytes with
      | .error fault => .error fault
      | .ok (delta, length, rest) =>
        let number := number + delta
        if rest.length < length then .ok (coap400BadRequest, packet.coapFreeHeader)
        else
          let value := rest.take length
          match packet.setOption number with
          | .error fault => .error fault
          | .ok packet =>
            match CoapOption.ofNumber number with
            | some .proxyUri => .ok (proxyingNotSupported, storeOption packet value .proxyUri)
            | none | some .token =>
              if number % 2 = 1 then .ok (coap402BadOption, packet.coapFreeHeader)
              else parseOptions packet number (rest.drop length)
            | some o => parseOptions (storeOption packet value o) number (rest.drop length)
termination_by bytes.length
decreasing_by
  all_goals
    have := parseHeader_length h
    simp only [List.length_drop, List.length_cons]
    omega

/-- The version of a first byte. -/
def headerVersion (b : Byte) : Byte := (b &&& 0xC0) >>> 6

/-- The type of a first byte. -/
def headerType (b : Byte) : MessageType := .ofField ((b &&& 0x30) >>> 4).toNat

/-- The token length of a first byte, at most 8. -/
def headerTokenLen (b : Byte) : ℕ := min coapTokenLen (b &&& 0x0F).toNat

/-- The packet after the fixed header: `token_len` is set, the token is still zero. -/
def headerPacket (b₀ code hi lo : Byte) : Packet :=
  { version := headerVersion b₀
    type := headerType b₀
    code
    mid := hi.toUInt16 <<< 8 ||| lo.toUInt16
    token := List.replicate (headerTokenLen b₀) 0 }

/-- The rest of `coap_parse_message`, from the packet after the fixed header and the
bytes that follow it. -/
def parseTokenAndOptions (packet : Packet) (bytes : List Byte) : Except Fault (Code × Packet) :=
  let tokenLen := packet.token.length
  if packet.version ≠ 1 then .ok (coap400BadRequest, packet)
  else if tokenLen ≠ 0 then
    if bytes.length < tokenLen then .error .outOfBoundsRead
    else
      parseOptions ({ packet with token := bytes.take tokenLen }.markOption .token) 0
        (bytes.drop tokenLen)
  else parseOptions packet 0 bytes

/-- `coap_parse_message` on the `data_len` bytes of a datagram. -/
def coapParseMessage (data : List Byte) : Except Fault (Code × Packet) :=
  match data with
  | b₀ :: code :: hi :: lo :: bytes => parseTokenAndOptions (headerPacket b₀ code hi lo) bytes
  | _ => .error .outOfBoundsRead

/-- The call of `coap_parse_message` in `lwm2m_handle_packet`: the length of the
received buffer is cast to 16 bits. -/
def parseReceived (buffer : List Byte) : Except Fault (Code × Packet) :=
  coapParseMessage (buffer.take (buffer.length % 65536))

end Lwm2m.Coap

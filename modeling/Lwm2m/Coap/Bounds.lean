/-
# Which datagrams the parser reads inside their bounds

The syntax of a datagram in RFC terms, independent of the parser: an option
header is a byte with two nibbles and their extension bytes (`Header`), the
options form a list that ends with the datagram, at the payload marker, or where
the parser gives up (`OptionsInside`).  `coap_parse_message` stays inside the
datagram and inside its bitmap exactly on the datagrams whose header and token
are complete and whose option list is of this form.
-/

import Lwm2m.Coap.Parse

namespace Lwm2m.Coap

open Code Library

/-- A nibble `x` with its extension bytes at the front of `bytes` stands for `value`
and leaves `rest`. -/
inductive Extended : ℕ → List Byte → ℕ → List Byte → Prop
  | short {x : ℕ} {bytes : List Byte} : x ≠ 13 → x ≠ 14 → Extended x bytes x bytes
  | one (b : Byte) (rest : List Byte) : Extended 13 (b :: rest) (13 + b.toNat) rest
  | two (hi lo : Byte) (rest : List Byte) :
      Extended 14 (hi :: lo :: rest) (269 + hi.toNat * 256 + lo.toNat) rest

/-- An option header: its first byte, the bytes after it, the delta and the length it
stands for and the bytes after the whole header. -/
inductive Header (b : Byte) (bytes : List Byte) (delta length : ℕ) (rest : List Byte) : Prop
  | mk {bytes' : List Byte} : Extended (b >>> 4).toNat bytes delta bytes' →
      Extended (b &&& 0x0F).toNat bytes' length rest → Header b bytes delta length rest

/-- The parser gives up at an option with this number: Proxy-Uri, and a critical
option it does not know. -/
def GivesUp (number : ℕ) : Prop :=
  CoapOption.ofNumber number = some .proxyUri ∨
    (number % 2 = 1 ∧
      (CoapOption.ofNumber number = none ∨ CoapOption.ofNumber number = some .token))

/-- After the option `number`, the rest of the datagram is a list of options whose
headers are complete and none of which is recorded under number 40.  The list may
end with the datagram, at a payload, at a value longer than the datagram, or at an
option the parser gives up at. -/
inductive OptionsInside : ℕ → List Byte → Prop
  | done (number : ℕ) : OptionsInside number []
  | payload {number : ℕ} {b : Byte} (bytes : List Byte) :
      b &&& 0xF0 = 0xF0 → OptionsInside number (b :: bytes)
  | overlong {number delta length : ℕ} {b : Byte} {bytes rest : List Byte} :
      Header b bytes delta length rest → rest.length < length → OptionsInside number (b :: bytes)
  | stop {number delta length : ℕ} {b : Byte} {bytes rest : List Byte} :
      Header b bytes delta length rest → GivesUp (number + delta) →
      OptionsInside number (b :: bytes)
  | next {number delta length : ℕ} {b : Byte} {bytes rest : List Byte} :
      Header b bytes delta length rest → number + delta ≠ 40 →
      OptionsInside (number + delta) (rest.drop length) → OptionsInside number (b :: bytes)

/-- The datagram has its four byte header and either another version than 1, or a
complete token followed by options that stay inside the datagram and the bitmap. -/
def InsideBuffers (data : List Byte) : Prop :=
  ∃ b₀ code hi lo bytes, data = b₀ :: code :: hi :: lo :: bytes ∧
    (headerVersion b₀ ≠ 1 ∨ (headerTokenLen b₀ ≤ bytes.length ∧
      OptionsInside 0 (bytes.drop (headerTokenLen b₀))))

variable {bytes rest : List Byte} {b : Byte} {delta length number : ℕ}

theorem parseExtended_eq_ok_iff {x value : ℕ} :
    parseExtended x bytes = .ok (value, rest) ↔ Extended x bytes value rest := by
  constructor
  · intro h
    unfold parseExtended at h
    split_ifs at h with h13 h14
    · subst h13
      cases bytes with
      | nil => cases h
      | cons b bytes =>
        cases h
        exact .one b _
    · subst h14
      match bytes with
      | [] | [_] => cases h
      | hi :: lo :: bytes =>
        cases h
        exact .two hi lo _
    · cases h
      exact .short h13 h14
  · intro h
    cases h with
    | short h13 h14 => simp only [parseExtended, if_neg h13, if_neg h14]
    | one | two => rfl

theorem parseHeader_eq_ok_iff :
    parseHeader b bytes = .ok (delta, length, rest) ↔ Header b bytes delta length rest := by
  constructor
  · intro h
    obtain ⟨⟨d, bytes'⟩, h₁, h⟩ := bind_eq_ok_iff.mp h
    obtain ⟨⟨l, bytes''⟩, h₂, h⟩ := bind_eq_ok_iff.mp h
    cases h
    exact .mk (parseExtended_eq_ok_iff.mp h₁) (parseExtended_eq_ok_iff.mp h₂)
  · rintro ⟨h₁, h₂⟩
    rw [parseHeader, parseExtended_eq_ok_iff.mpr h₁, ok_bind]
    simp only [parseExtended_eq_ok_iff.mpr h₂, ok_bind, pure_eq_ok]

/-- A header is read in one way. -/
theorem Header.unique {rest' : List Byte} {delta' length' : ℕ}
    (h : Header b bytes delta length rest) (h' : Header b bytes delta' length' rest') :
    delta = delta' ∧ length = length' ∧ rest = rest' := by
  have := (parseHeader_eq_ok_iff.mpr h).symm.trans (parseHeader_eq_ok_iff.mpr h')
  simpa using this

/-- The options at a complete header. -/
theorem optionsInside_cons_iff (hb : b &&& 0xF0 ≠ 0xF0)
    (header : Header b bytes delta length rest) :
    OptionsInside number (b :: bytes) ↔ rest.length < length ∨ GivesUp (number + delta) ∨
      (number + delta ≠ 40 ∧ OptionsInside (number + delta) (rest.drop length)) := by
  constructor
  · intro h
    cases h with
    | payload _ hmarker => exact absurd hmarker hb
    | overlong header' hlong =>
      obtain ⟨-, rfl, rfl⟩ := header.unique header'
      exact .inl hlong
    | stop header' hstop =>
      obtain ⟨rfl, -, -⟩ := header.unique header'
      exact .inr (.inl hstop)
    | next header' h40 hnext =>
      obtain ⟨rfl, rfl, rfl⟩ := header.unique header'
      exact .inr (.inr ⟨h40, hnext⟩)
  · rintro (hlong | hstop | ⟨h40, hnext⟩)
    · exact .overlong header hlong
    · exact .stop header hstop
    · exact .next header h40 hnext

/-- Recording an option does not leave the bitmap exactly when its number is not 40. -/
theorem ne_forty_of_setOption {packet packet' : Packet}
    (h : packet.setOption number = .ok packet') : number ≠ 40 := by
  rintro rfl
  rw [(packet.setOption_eq_error_iff 40 .outOfBoundsWrite).mpr ⟨rfl, rfl⟩] at h
  cases h

theorem not_givesUp_forty : ¬ GivesUp 40 := by
  rintro (h | ⟨h, -⟩) <;> cases h

/-- The options at a complete header that the parser stores and leaves behind. -/
theorem optionsInside_next_iff (hb : b &&& 0xF0 ≠ 0xF0) (header : Header b bytes delta length rest)
    (hlength : ¬ rest.length < length) (h40 : number + delta ≠ 40)
    (hgoes : ¬ GivesUp (number + delta)) :
    OptionsInside number (b :: bytes) ↔ OptionsInside (number + delta) (rest.drop length) := by
  rw [optionsInside_cons_iff hb header]
  simp [hlength, h40, hgoes]

/-- **The option loop.**  From any packet, option number and cursor the loop stays
inside its buffers exactly when the bytes under the cursor are `OptionsInside`. -/
theorem parseOptions_ok_iff (packet : Packet) (number : ℕ) (bytes : List Byte) :
    (∃ result, parseOptions packet number bytes = .ok result) ↔ OptionsInside number bytes := by
  fun_induction parseOptions packet number bytes with
  | case1 packet number => exact iff_of_true ⟨_, rfl⟩ (.done _)
  | case2 packet number b bytes hb => exact iff_of_true ⟨_, rfl⟩ (.payload bytes hb)
  | case3 packet number b bytes hb fault hheader =>
    -- the header runs out of the datagram
    refine iff_of_false (by rintro ⟨_, h⟩; cases h) fun h => ?_
    cases h with
    | payload _ hmarker => exact hb hmarker
    | overlong header _ | stop header _ | next header _ _ =>
      rw [parseHeader_eq_ok_iff.mpr header] at hheader
      cases hheader
  | case4 packet number b bytes hb delta length rest hheader hlong =>
    exact iff_of_true ⟨_, rfl⟩ (.overlong (parseHeader_eq_ok_iff.mp hheader) hlong)
  | case5 packet number b bytes hb delta length rest hheader n hlength fault hset =>
    -- the bitmap overflows
    obtain ⟨hn, -⟩ := (packet.setOption_eq_error_iff n fault).mp hset
    rw [optionsInside_cons_iff hb (parseHeader_eq_ok_iff.mp hheader)]
    refine iff_of_false (by rintro ⟨_, h⟩; cases h) ?_
    rintro (h | h | ⟨h, -⟩)
    · exact hlength h
    · exact not_givesUp_forty (hn ▸ h)
    · exact h hn
  | case6 packet number b bytes hb delta length rest hheader n hlength value packet' hset ho =>
    exact iff_of_true ⟨_, rfl⟩ (.stop (parseHeader_eq_ok_iff.mp hheader) (.inl ho))
  | case7 packet number b bytes hb delta length rest hheader n hlength packet' hset ho hodd =>
    exact iff_of_true ⟨_, rfl⟩ (.stop (parseHeader_eq_ok_iff.mp hheader) (.inr ⟨hodd, .inl ho⟩))
  | case8 packet number b bytes hb delta length rest hheader n hlength packet' hset ho heven ih
  | case10 packet number b bytes hb delta length rest hheader n hlength packet' hset ho heven ih =>
    rw [ih, optionsInside_next_iff hb (parseHeader_eq_ok_iff.mp hheader) hlength
      (ne_forty_of_setOption hset)]
    rintro (h | ⟨h, -⟩)
    · cases ho.symm.trans h
    · exact heven h
  | case9 packet number b bytes hb delta length rest hheader n hlength packet' hset ho hodd =>
    exact iff_of_true ⟨_, rfl⟩ (.stop (parseHeader_eq_ok_iff.mp hheader) (.inr ⟨hodd, .inr ho⟩))
  | case11 packet number b bytes hb delta length rest hheader n hlength value packet' hset o hproxy
      htoken ho ih =>
    rw [ih, optionsInside_next_iff hb (parseHeader_eq_ok_iff.mp hheader) hlength
      (ne_forty_of_setOption hset)]
    rintro (h | ⟨-, h | h⟩)
    · exact hproxy (Option.some.inj (ho.symm.trans h))
    · cases ho.symm.trans h
    · exact htoken (Option.some.inj (ho.symm.trans h))

/-- The token and the options, from the packet after the fixed header. -/
theorem parseTokenAndOptions_ok_iff (packet : Packet) (bytes : List Byte) :
    (∃ result, parseTokenAndOptions packet bytes = .ok result) ↔ packet.version ≠ 1 ∨
      (packet.token.length ≤ bytes.length ∧
        OptionsInside 0 (bytes.drop packet.token.length)) := by
  unfold parseTokenAndOptions
  by_cases hversion : packet.version ≠ 1
  · rw [if_pos hversion]
    exact iff_of_true ⟨_, rfl⟩ (.inl hversion)
  rw [if_neg hversion]
  by_cases htoken : packet.token.length ≠ 0
  · rw [if_pos htoken]
    split_ifs with hlen
    · refine iff_of_false (by rintro ⟨_, h⟩; cases h) ?_
      rintro (h | ⟨h, -⟩)
      · exact hversion h
      · omega
    · rw [parseOptions_ok_iff]
      exact ⟨fun h => .inr ⟨by omega, h⟩, fun h => (h.resolve_left hversion).2⟩
  · rw [if_neg htoken, parseOptions_ok_iff, not_not.mp htoken]
    exact ⟨fun h => .inr ⟨Nat.zero_le _, h⟩, fun h => (h.resolve_left hversion).2⟩

/-- **The parser stays inside its buffers on exactly these datagrams.**  For every
byte string handed to `lwm2m_handle_packet`, `coap_parse_message` returns without a
read past the datagram or a write past the option bitmap if and only if the bytes it
is given (their number is the length modulo 65536) are `InsideBuffers`. -/
theorem coap_parse_message_safe_iff (buffer : List Byte) :
    (∃ result, parseReceived buffer = .ok result) ↔
      InsideBuffers (buffer.take (buffer.length % 65536)) := by
  unfold parseReceived InsideBuffers
  match buffer.take (buffer.length % 65536) with
  | [] | [_] | [_, _] | [_, _, _] =>
    refine iff_of_false (by rintro ⟨_, h⟩; cases h) ?_
    rintro ⟨_, _, _, _, _, h, -⟩
    simp at h
  | b₀ :: code :: hi :: lo :: bytes =>
    have h := parseTokenAndOptions_ok_iff (headerPacket b₀ code hi lo) bytes
    simp only [headerPacket, List.length_replicate] at h
    constructor
    · exact fun hresult => ⟨b₀, code, hi, lo, bytes, rfl, h.mp hresult⟩
    · rintro ⟨_, _, _, _, _, heq, hinside⟩
      obtain ⟨rfl, rfl, rfl, rfl, rfl⟩ := by simpa using heq
      exact h.mpr hinside

/-- **Short and malformed datagrams.**  A datagram of one byte is read past its end,
and so is one whose token or extended delta is missing; an option with number 40
(delta 13 + 27, no value) is recorded past the bitmap. -/
theorem coap_parse_message_overruns :
    parseReceived [0x40] = .error .outOfBoundsRead ∧
    parseReceived [0x48, 0x01, 0x00, 0x00, 0x61] = .error .outOfBoundsRead ∧
    parseReceived [0x40, 0x01, 0x00, 0x00, 0xD0] = .error .outOfBoundsRead ∧
    parseReceived [0x40, 0x01, 0x00, 0x00, 0xD0, 0x1B] = .error .outOfBoundsWrite := by
  decide +kernel

end Lwm2m.Coap

/-
# The blocks of a reply

The Block2 part of `lwm2m_handle_packet`: what a client gets that asks for a reply in blocks, one
block after the other.  The offset of a block is computed by the parser, from the size that the
request asks for, while the block has the smaller one of that size and the local one; and
`coap_set_payload` keeps 16 bits of the length of a payload.
-/

import Lwm2m.Coap.Serialize
import Lwm2m.Core.Dispatch

namespace Lwm2m.Core

open Coap Code Library

/-! ### Sizes and offsets -/

/-- `validate_block_size`. -/
def validateBlockSize (size : UInt16) : Bool :=
  size ∈ [16, 32, 64, 128, 256, 512, 1024]

theorem exists_blockSize {size : UInt16} (h : validateBlockSize size = true) :
    ∃ k < 7, size = blockSize k := by
  have hmem : size ∈ [16, 32, 64, 128, 256, 512, 1024] := of_decide_eq_true h
  simp only [List.mem_cons, List.not_mem_nil, or_false] at hmem
  obtain rfl | rfl | rfl | rfl | rfl | rfl | rfl := hmem
  · exact ⟨0, by decide, rfl⟩
  · exact ⟨1, by decide, rfl⟩
  · exact ⟨2, by decide, rfl⟩
  · exact ⟨3, by decide, rfl⟩
  · exact ⟨4, by decide, rfl⟩
  · exact ⟨5, by decide, rfl⟩
  · exact ⟨6, by decide, rfl⟩

theorem blockSize_toNat : ∀ szx < 8, (blockSize szx).toNat = 16 * 2 ^ szx := by
  decide

theorem toNat_min (a b : UInt16) : (min a b).toNat = min a.toNat b.toNat := by
  change (if a ≤ b then a else b).toNat = _
  split_ifs with h
  · exact (Nat.min_eq_left (UInt16.le_iff_toNat_le.mp h)).symm
  · have := mt UInt16.le_iff_toNat_le.mpr h
    omega

theorem and_not_low (v : UInt32) : (v &&& ~~~0x0000000F).toNat = v.toNat / 16 * 16 := by
  have hmask : (~~~(0x0000000F : UInt32)).toNat = (2 ^ 28 - 1) <<< 4 := by decide
  have hhigh : v.toNat >>> 4 < 2 ^ 28 := by
    rw [Nat.shiftRight_eq_div_pow]
    have := v.toNat_lt
    omega
  have hshift : v.toNat &&& (2 ^ 28 - 1) <<< 4 = (v.toNat >>> 4 &&& (2 ^ 28 - 1)) <<< 4 := by
    refine Nat.eq_of_testBit_eq fun i => ?_
    rw [Nat.testBit_and, Nat.testBit_shiftLeft, Nat.testBit_shiftLeft, Nat.testBit_and,
      Nat.testBit_shiftRight]
    by_cases hi : 4 ≤ i
    · rw [Nat.add_sub_cancel' hi]
      simp [hi]
    · simp [hi]
  rw [UInt32.toNat_and, hmask, hshift, Nat.and_two_pow_sub_one_of_lt_two_pow hhigh,
    Nat.shiftRight_eq_div_pow, Nat.shiftLeft_eq]

/-- **What the parser makes of a block option**: the offset is that of the size asked for, modulo
2^32. -/
theorem parseBlockOption_offset (option : List Byte) :
    ∃ szx < 8, (parseBlockOption option).size = blockSize szx ∧
      (parseBlockOption option).offset.toNat =
        (parseBlockOption option).num.toNat * (blockSize szx).toNat % 2 ^ 32 := by
  unfold parseBlockOption
  generalize coapParseIntOption option = v
  dsimp only
  have hlow : (v &&& 7).toNat < 8 := by
    rw [UInt32.toNat_and, show (7 : UInt32).toNat = 2 ^ 3 - 1 from rfl,
      Nat.and_two_pow_sub_one_eq_mod]
    omega
  refine ⟨(v &&& 7).toNat, hlow, ?_, ?_⟩
  · rw [show v &&& 7 = UInt32.ofNat (v &&& 7).toNat from UInt32.ofNat_toNat.symm]
    generalize (v &&& 7).toNat = szx at hlow
    interval_cases szx <;> rfl
  · rw [blockSize_toNat _ hlow, UInt32.toNat_shiftLeft, and_not_low, UInt32.toNat_shiftRight,
      Nat.shiftLeft_eq, Nat.shiftRight_eq_div_pow, Nat.mod_eq_of_lt (b := 32) (by omega),
      Nat.mul_assoc]
    rfl

/-! ### What a client collects -/

/-- The blocks that a client collects from a reply on: while more are announced it asks for the
next number at the size of the reply, and the handler answers with the code and the payload
again. -/
inductive Collects (coapBlockSize : UInt16) (code : Code) (payload : List Byte) :
    Packet → List Byte → Prop
  | last {reply : Packet} : reply.code = code →
      (reply.isOption .block2 = true → reply.block2.more = 0) →
      Collects coapBlockSize code payload reply reply.payload
  | next {reply message response : Packet} {option bytes : List Byte} : reply.code = code →
      reply.isOption .block2 = true → reply.block2.more ≠ 0 → message.isOption .block2 = true →
      message.block2 = parseBlockOption option → message.block2.num = reply.block2.num + 1 →
      message.block2.size = reply.block2.size → response.isOption .block2 = false →
      response.code = code →
      Collects coapBlockSize code payload
        (selectBlock2 coapBlockSize message (response.coapSetPayload payload)) bytes →
      Collects coapBlockSize code payload reply (reply.payload ++ bytes)

/-- The reply is the block of the payload that starts at the offset. -/
structure IsBlock (code : Code) (payload : List Byte) (num offset size : ℕ) (reply : Packet) :
    Prop where
  isOption : reply.isOption .block2 = true
  code_eq : reply.code = code
  num_eq : reply.block2.num.toNat = num
  size_eq : reply.block2.size.toNat = size
  more_iff : reply.block2.more ≠ 0 ↔ offset + size < payload.length
  payload_eq : reply.payload = (payload.drop offset).take size

/-! ### The block that is selected -/

variable {option : List Byte} {szx : ℕ}

section

variable {coapBlockSize : UInt16} {message response reply : Packet} {code : Code}
  {payload bytes : List Byte} {num offset size : ℕ}

theorem isOption_coapSetPayload (packet : Packet) (payload : List Byte) (o : CoapOption) :
    (packet.coapSetPayload payload).isOption o = packet.isOption o := rfl

/-- A payload that fits 16 bits is kept. -/
theorem coapSetPayload_payload (packet : Packet) (h : payload.length < 65536) :
    (packet.coapSetPayload payload).payload = payload := by
  unfold Packet.coapSetPayload
  rw [Nat.mod_eq_of_lt h, List.take_length]

variable {more : UInt8}

/-- The Block2 option of a size and a number that it can have. -/
theorem coapSetHeaderBlock2_of_le {num : UInt32} {size : UInt16}
    (hsize : 16 ≤ size.toNat ∧ size.toNat ≤ 2048) (hnum : num.toNat ≤ 0xFFFFF) :
    response.coapSetHeaderBlock2 num more size =
      ({ response with
        block2 :=
          { response.block2 with
            num
            more := if more ≠ 0 then 1 else 0
            size } } : Packet).markOption .block2 := by
  have h16 : ¬ size < 16 := by
    rw [UInt16.lt_iff_toNat_lt]
    exact Nat.not_lt.mpr hsize.1
  have h2048 : ¬ size > 2048 := by
    rw [gt_iff_lt, UInt16.lt_iff_toNat_lt]
    exact Nat.not_lt.mpr hsize.2
  have hmax : ¬ num > 0x0FFFFF := by
    rw [gt_iff_lt, UInt32.lt_iff_toNat_lt]
    exact Nat.not_lt.mpr hnum
  unfold Packet.coapSetHeaderBlock2
  rw [if_neg h16, if_neg h2048, if_neg hmax]

/-- The block that a reply with the option carries. -/
theorem isBlock_of_set {num : UInt32} {size : UInt16} (hsize : 16 ≤ size.toNat ∧ size.toNat ≤ 2048)
    (hnum : num.toNat ≤ 0xFFFFF)
    (hmore : more ≠ 0 ↔ offset + size.toNat < response.payload.length) :
    IsBlock response.code response.payload num.toNat offset size.toNat
      ((response.coapSetHeaderBlock2 num more size).coapSetPayload
        ((response.payload.drop offset).take size.toNat)) := by
  have hlength : ((response.payload.drop offset).take size.toNat).length < 65536 := by
    rw [List.length_take]
    omega
  rw [coapSetHeaderBlock2_of_le hsize hnum]
  refine ⟨?_, rfl, rfl, rfl, ?_, coapSetPayload_payload _ hlength⟩
  · rw [isOption_coapSetPayload, Packet.isOption_markOption]
    exact Bool.or_true _
  · rw [← hmore]
    change (if more ≠ 0 then (1 : UInt8) else 0) ≠ 0 ↔ more ≠ 0
    split_ifs with h
    · exact iff_of_true (by decide) h
    · exact iff_of_false (by decide) h

variable (coapBlockSize response) in
/-- **A request for a block** of the payload. -/
theorem selectBlock2_isBlock (hoption : message.isOption .block2 = true)
    (hoffset : message.block2.offset.toNat < response.payload.length)
    (hsize : 16 ≤ (min message.block2.size coapBlockSize).toNat ∧
      (min message.block2.size coapBlockSize).toNat ≤ 2048)
    (hnum : message.block2.num.toNat ≤ 0xFFFFF) :
    IsBlock response.code response.payload message.block2.num.toNat message.block2.offset.toNat
      (min message.block2.size coapBlockSize).toNat
      (selectBlock2 coapBlockSize message response) := by
  have htake (offset size : ℕ) : (response.payload.drop offset).take
      (min (response.payload.length - offset) size) = (response.payload.drop offset).take size := by
    rw [← List.take_take, List.take_of_length_le]
    rw [List.length_take, List.length_drop]
    exact Nat.min_le_right _ _
  unfold selectBlock2
  rw [if_pos hoption, if_neg (Nat.not_le.mpr hoffset), htake]
  refine isBlock_of_set hsize hnum ?_
  split_ifs with h
  · exact iff_of_true (by decide) (by omega)
  · exact iff_of_false (by decide) (by omega)

/-- A request without the option, when the payload is larger than a block. -/
theorem selectBlock2_first (hoption : message.isOption .block2 = false)
    (hlarge : coapBlockSize.toNat < response.payload.length)
    (hsize : 16 ≤ coapBlockSize.toNat ∧ coapBlockSize.toNat ≤ 2048) :
    IsBlock response.code response.payload 0 0 coapBlockSize.toNat
      (selectBlock2 coapBlockSize message response) := by
  unfold selectBlock2
  rw [if_neg (by rw [hoption]; decide), if_pos hlarge]
  change IsBlock response.code response.payload (0 : UInt32).toNat 0 _ _
  refine isBlock_of_set hsize (by decide) ?_
  exact iff_of_true (by decide) (by omega)

/-- A request without the option, when it is not. -/
theorem selectBlock2_whole (hoption : message.isOption .block2 = false)
    (hsmall : response.payload.length ≤ coapBlockSize.toNat) :
    selectBlock2 coapBlockSize message response = response := by
  unfold selectBlock2
  rw [if_neg (by rw [hoption]; decide), if_neg (Nat.not_lt.mpr hsmall)]

variable (coapBlockSize) in
/-- A request for what is behind the payload. -/
theorem selectBlock2_beyond (hoption : message.isOption .block2 = true)
    (hoffset : response.payload.length ≤ message.block2.offset.toNat) :
    (selectBlock2 coapBlockSize message response).code = coap402BadOption ∧
      (selectBlock2 coapBlockSize message response).isOption .block2 =
        response.isOption .block2 := by
  unfold selectBlock2
  rw [if_pos hoption, if_pos hoffset]
  exact ⟨rfl, rfl⟩

variable (coapBlockSize) in
/-- A request with a number that no Block2 option has. -/
theorem selectBlock2_large (hoption : message.isOption .block2 = true)
    (hoffset : message.block2.offset.toNat < response.payload.length)
    (hnum : 0xFFFFF < message.block2.num.toNat) :
    (selectBlock2 coapBlockSize message response).code = response.code ∧
      (selectBlock2 coapBlockSize message response).isOption .block2 =
        response.isOption .block2 := by
  have hset (more : UInt8) (size : UInt16) :
      response.coapSetHeaderBlock2 message.block2.num more size = response := by
    have hmax : message.block2.num > 0x0FFFFF := by
      rw [gt_iff_lt, UInt32.lt_iff_toNat_lt]
      exact hnum
    unfold Packet.coapSetHeaderBlock2
    split_ifs <;> rfl
  unfold selectBlock2
  rw [if_pos hoption, if_neg (Nat.not_le.mpr hoffset), hset]
  exact ⟨rfl, rfl⟩

/-! ### Collecting the blocks -/

/-- A client that gets the last block stops. -/
theorem IsBlock.collects_last {kept : List Byte} (h : IsBlock code kept num offset size reply)
    (hlast : ¬ offset + size < kept.length) :
    Collects coapBlockSize code payload reply bytes ↔ bytes = reply.payload := by
  have hmore : reply.block2.more = 0 := by
    by_contra hne
    exact hlast (h.more_iff.mp hne)
  constructor
  · rintro (_ | ⟨-, -, hne, -⟩)
    · rfl
    · exact absurd hmore hne
  · rintro rfl
    exact .last h.code_eq fun _ => hmore

/-- The reply to the request for the next block, at the size of the reply. -/
theorem IsBlock.follow
    (h : IsBlock code (payload.take (payload.length % 65536)) num offset size reply)
    (hlower : 16 ≤ size) (hsize : size ≤ coapBlockSize.toNat) (hupper : coapBlockSize.toNat ≤ 2048)
    (hnext : (num + 1) * size < (payload.take (payload.length % 65536)).length)
    (hoption : message.isOption .block2 = true) (hblock : message.block2 = parseBlockOption option)
    (hnum : message.block2.num = reply.block2.num + 1)
    (hsame : message.block2.size = reply.block2.size) (hcode : response.code = code) :
    IsBlock code (payload.take (payload.length % 65536)) (num + 1) ((num + 1) * size) size
      (selectBlock2 coapBlockSize message (response.coapSetPayload payload)) := by
  have hlength : (payload.take (payload.length % 65536)).length < 65536 := by
    rw [List.length_take]
    omega
  have hsmall : num + 1 ≤ 0xFFFFF := by
    have := Nat.mul_le_mul_left (num + 1) hlower
    omega
  have hnum' : message.block2.num.toNat = num + 1 := by
    rw [hnum, UInt32.toNat_add, h.num_eq]
    exact Nat.mod_eq_of_lt (show num + 1 < 2 ^ 32 by omega)
  have hsize' : message.block2.size.toNat = size := by
    rw [hsame, h.size_eq]
  have hmin : (min message.block2.size coapBlockSize).toNat = size := by
    rw [toNat_min, hsize', Nat.min_eq_left hsize]
  have hoffset : message.block2.offset.toNat = (num + 1) * size := by
    obtain ⟨szx, -, hszx, hparse⟩ := parseBlockOption_offset option
    rw [← hblock] at hszx hparse
    rw [hparse, ← hszx, hnum', hsize', Nat.mod_eq_of_lt (by omega)]
  have hserved := selectBlock2_isBlock coapBlockSize (response.coapSetPayload payload) hoption
    (hoffset ▸ hnext)
    (by rw [hmin]; omega) (by omega)
  rw [hmin, hoffset, hnum'] at hserved
  exact hcode ▸ hserved

/-- A request for the next block can be made. -/
theorem IsBlock.exists_request (h : IsBlock code payload num offset size reply) (hszx : szx < 8)
    (hsize : size = (blockSize szx).toNat) (hnum : num + 1 < 2 ^ 20) :
    ∃ message response : Packet, ∃ option, message.isOption .block2 = true ∧
      message.block2 = parseBlockOption option ∧
      message.block2.num = reply.block2.num + 1 ∧ message.block2.size = reply.block2.size ∧
      response.isOption .block2 = false ∧ response.code = code := by
  let b : BlockFields := { num := reply.block2.num + 1, more := 0, size := reply.block2.size }
  have hb : b.num.toNat < 2 ^ 20 := by
    change (reply.block2.num + 1).toNat < 2 ^ 20
    rw [UInt32.toNat_add, h.num_eq]
    change (num + 1) % 2 ^ 32 < 2 ^ 20
    omega
  have hbsize : b.size = blockSize szx := UInt16.toNat_inj.mp (h.size_eq.trans hsize)
  obtain ⟨offset, hparse⟩ := parseBlockOption_blockOptionValue hb hszx hbsize
  refine ⟨({ coapInitMessage .con 1 0 with
    block2 := parseBlockOption (intOptionBytes (blockOptionValue b)) } : Packet).markOption .block2,
    coapInitMessage .ack code 0, _, ?_, rfl, ?_, ?_, BitVec.getLsbD_zero, rfl⟩
  · rw [Packet.isOption_markOption]
    exact Bool.or_true _
  · change (parseBlockOption _).num = _
    rw [hparse]
  · change (parseBlockOption _).size = _
    rw [hparse]

/-- A list is a slice and what is behind it. -/
theorem take_append_behind (l : List Byte) (offset size : ℕ) :
    (l.drop offset).take size ++ (if offset + size < l.length then l.drop (offset + size) else []) =
      l.drop offset := by
  split_ifs with h
  · rw [← List.drop_drop, List.take_append_drop]
  · rw [List.append_nil, List.take_of_length_le]
    rw [List.length_drop]
    omega

/-- A block that starts where its number says, and what is behind it. -/
theorem IsBlock.payload_append (h : IsBlock code payload num (num * size) size reply) :
    reply.payload ++ (if num * size + size < payload.length then payload.drop ((num + 1) * size)
      else []) = payload.drop (num * size) := by
  rw [h.payload_eq, Nat.succ_mul]
  exact take_append_behind payload (num * size) size

variable (bytes) in
/-- **What a client collects** from a block on: the block, and what is behind the block of its
number when more are announced. -/
theorem IsBlock.collects_iff
    (h : IsBlock code (payload.take (payload.length % 65536)) num offset size reply)
    (hszx : szx < 8) (hsize : size = (blockSize szx).toNat) (hlocal : size ≤ coapBlockSize.toNat)
    (hupper : coapBlockSize.toNat ≤ 2048) (hoffset : num * size ≤ offset) :
    Collects coapBlockSize code payload reply bytes ↔
      bytes = reply.payload ++
        (if offset + size < (payload.take (payload.length % 65536)).length then
          (payload.take (payload.length % 65536)).drop ((num + 1) * size) else []) := by
  have hlower : 16 ≤ size := by
    rw [hsize, blockSize_toNat szx hszx]
    exact Nat.le_mul_of_pos_right 16 (Nat.two_pow_pos szx)
  have hlength : (payload.take (payload.length % 65536)).length < 65536 := by
    rw [List.length_take]
    omega
  -- The induction is on what is left behind the start of the block of that number.
  induction hleft : (payload.take (payload.length % 65536)).length - num * size using
    Nat.strongRecOn generalizing num offset reply bytes with
  | _ left ih =>
  by_cases hmore : offset + size < (payload.take (payload.length % 65536)).length
  · have hnext : (num + 1) * size < (payload.take (payload.length % 65536)).length := by
      rw [Nat.succ_mul]
      omega
    have hnum : num + 1 < 2 ^ 20 := by
      have := Nat.mul_le_mul_left (num + 1) hlower
      omega
    have hbehind {reply' : Packet} {bytes' : List Byte}
        (h' : IsBlock code (payload.take (payload.length % 65536)) (num + 1) ((num + 1) * size)
          size reply') : Collects coapBlockSize code payload reply' bytes' ↔
        bytes' = (payload.take (payload.length % 65536)).drop ((num + 1) * size) := by
      refine (ih _ ?_ bytes' h' le_rfl rfl).trans ?_
      · rw [Nat.succ_mul]
        omega
      · rw [h'.payload_append]
    rw [if_pos hmore]
    constructor
    · rintro (⟨-, hlast⟩ | ⟨-, -, -, hoption, hblock, hnum, hsame, -, hcode, hrest⟩)
      · exact absurd (hlast h.isOption) (h.more_iff.mpr hmore)
      · have h' := h.follow hlower hlocal hupper hnext hoption hblock hnum hsame hcode
        rw [(hbehind h').mp hrest]
    · rintro rfl
      obtain ⟨message, response, option, hoption, hblock, hnum, hsame, hplain, hcode⟩ :=
        h.exists_request hszx hsize hnum
      have h' := h.follow hlower hlocal hupper hnext hoption hblock hnum hsame hcode
      exact .next h.code_eq h.isOption (h.more_iff.mpr hmore) hoption hblock hnum hsame hplain
        hcode ((hbehind h').mpr rfl)
  · rw [if_neg hmore, List.append_nil]
    exact h.collects_last hmore

end

/-! ### The reply of the handler -/

section

variable {contextP contextP' : Context} {fromSessionH : Session} {uriP : Uri} {serverP : Server}
  {message response response' : Packet} {outcome : Outcome} {code : Code}

theorem isOption_block1_block2 (packet : Packet) (num : UInt32) (more : UInt8) (size : UInt16) :
    (packet.coapSetHeaderBlock1 num more size).isOption .block2 = packet.isOption .block2 := by
  unfold Packet.coapSetHeaderBlock1
  split_ifs
  · rfl
  · rfl
  · rfl
  · exact Packet.isOption_markOption_of_ne _ (by decide)

/-- `lwm2m_handle_packet` prepares a reply without a Block2 option. -/
theorem prepareResponse_block2 (contextP : Context) (message : Packet) :
    (prepareResponse contextP message).2.isOption .block2 = false := by
  have hinit (type : MessageType) (mid : UInt16) :
      (coapInitMessage type coap205Content mid).isOption .block2 = false := BitVec.getLsbD_zero
  have htoken (packet : Packet) (token : List Byte) :
      (packet.coapSetHeaderToken token).isOption .block2 = packet.isOption .block2 :=
    Packet.isOption_markOption_of_ne _ (by decide)
  unfold prepareResponse
  split_ifs
  · exact (htoken _ _).trans (hinit _ _)
  · exact hinit _ _
  · exact (htoken _ _).trans (hinit _ _)
  · exact hinit _ _

/-- The Block1 part sets no Block2 option. -/
theorem receivePayload_block2 {coapBlockSize : UInt16} {message' : Packet}
    (h : receivePayload coapBlockSize contextP fromSessionH message response =
      .ok (contextP', message', response', code)) :
    response'.isOption .block2 = response.isOption .block2 := by
  unfold receivePayload at h
  by_cases hlarge : message.payload.length > coapBlockSize.toNat
  · rw [if_pos hlarge] at h
    cases h
    split_ifs
    · exact isOption_block1_block2 _ _ _ _
    · exact isOption_block1_block2 _ _ _ _
  rw [if_neg hlarge] at h
  by_cases hblock : message.isOption .block1
  · rw [if_pos hblock] at h
    split at h
    · cases h
      rfl
    · obtain ⟨⟨blockData, c, output⟩, -, h⟩ := bind_eq_ok_iff.mp h
      cases h
      exact isOption_block1_block2 _ _ _ _
  · rw [if_neg hblock] at h
    cases h
    rfl

theorem observeHandleRequest_block2 {serverList : List Server} {l l' : List Observed}
    {ref : Server} {value : DecodedValue} {time : ℤ}
    (h : observeHandleRequest serverList l uriP ref value time message response =
      .ok (l', response', code)) : response'.isOption .block2 = response.isOption .block2 := by
  unfold observeHandleRequest at h
  by_cases hregister : message.observe = 0
  · rw [if_pos hregister] at h
    by_cases hobject : ¬ uriP.isSetInstance ∧ uriP.isSetResource
    · rw [if_pos hobject] at h
      cases h
      rfl
    rw [if_neg hobject] at h
    by_cases htoken : message.token.length = 0
    · rw [if_pos htoken] at h
      cases h
      rfl
    rw [if_neg htoken] at h
    by_cases hvalue : uriP.isSetResource ∧ value = .undecodable
    · simp only [if_pos hvalue] at h
      cases h
      rfl
    · simp only [if_neg hvalue] at h
      cases h
      exact Packet.isOption_markOption_of_ne _ (by decide)
  rw [if_neg hregister] at h
  by_cases hcancel : message.observe = 1
  · rw [if_pos hcancel] at h
    split at h
    · cases h
      rfl
    · split at h
      · cases h
        rfl
      · obtain ⟨l, -, h⟩ := bind_eq_ok_iff.mp h
        cases h
        rfl
  · rw [if_neg hcancel] at h
    cases h
    rfl

theorem observeRequest_block2
    (h : observeRequest contextP uriP serverP message response outcome =
      .ok (contextP', response', code)) :
    response'.isOption .block2 = response.isOption .block2 := by
  unfold observeRequest at h
  split_ifs at h
  · cases h
    rfl
  · dsimp only at h
    split_ifs at h
    · cases h
      rfl
    · obtain ⟨⟨l, r, c⟩, hobserve, h⟩ := bind_eq_ok_iff.mp h
      have hr := (observeHandleRequest_block2 hobserve).trans (isOption_contentType_block2 _ _)
      split_ifs at h
      · cases h
        exact hr
      · split at h
        · cases h
          exact hr
        · cases h
          exact (isOption_contentType_block2 _ _).trans hr

theorem putRequest_block2
    (h : putRequest contextP uriP serverP message response outcome =
      .ok (contextP', response', code)) :
    response'.isOption .block2 = response.isOption .block2 := by
  unfold putRequest at h
  split_ifs at h
  · split at h
    · cases h
      rfl
    · obtain ⟨r, -, h⟩ := bind_eq_ok_iff.mp h
      cases h
      rfl
  · cases h
    rfl
  · cases h
    rfl

theorem postRequest_block2 (contextP : Context) (uriP : Uri) (response : Packet)
    (outcome : Outcome) (isText : Bool) :
    (postRequest contextP uriP response outcome isText).2.1.isOption .block2 =
      response.isOption .block2 := by
  unfold postRequest
  split_ifs <;> first | rfl | exact Packet.isOption_markOption_of_ne _ (by decide)

theorem deleteRequest_block2 (contextP : Context) (uriP : Uri) (response : Packet)
    (outcome : Outcome) :
    (deleteRequest contextP uriP response outcome).2.1.isOption .block2 =
      response.isOption .block2 := by
  unfold deleteRequest
  split_ifs <;> rfl

/-- Device management sets no Block2 option. -/
theorem dmHandleRequest_block2
    (h : dmHandleRequest contextP uriP serverP message response outcome =
      .ok (contextP', response', code)) :
    response'.isOption .block2 = response.isOption .block2 := by
  rcases dmHandleRequest_cases h with
    ⟨-, -, hsame⟩ | ⟨-, hobserve⟩ | ⟨-, _, hpost⟩ | ⟨-, hput⟩ | ⟨-, hdelete⟩
  · exact hsame
  · exact observeRequest_block2 hobserve
  · obtain rfl : _ = response' := congrArg (·.2.1) hpost
    exact postRequest_block2 _ _ _ _ _
  · exact putRequest_block2 hput
  · obtain rfl : _ = response' := congrArg (·.2.1) hdelete
    exact deleteRequest_block2 _ _ _ _

/-- A bootstrap command sets no Block2 option. -/
theorem bootstrapHandleCommand_block2 (contextP : Context) (uriP : Uri) (serverP : Server)
    (message response : Packet) (outcome : BootstrapOutcome) :
    (bootstrapHandleCommand contextP uriP serverP message response outcome).2.1.isOption .block2 =
      response.isOption .block2 := by
  unfold bootstrapHandleCommand
  split
  · rfl
  · dsimp only
    split_ifs <;> first | rfl | exact isOption_contentType_block2 _ _

/-- **What the handler leaves**: a reply without a Block2 option, whose code is that of a success
when it has handled the request. -/
theorem handleRequest_block2 {altPath : Option CString}
    (h : handleRequest altPath contextP fromSessionH message response outcome =
      .ok (contextP', response', code)) :
    response'.isOption .block2 = response.isOption .block2 ∧
      (code = noError → response'.code < coap400BadRequest) := by
  have hanswer {contextQ : Context} {r : Packet} {c : Code}
      (hr : r.isOption .block2 = response.isOption .block2)
      (h : (contextP', response', code) = answer contextQ r c) :
      response'.isOption .block2 = response.isOption .block2 ∧
        (code = noError → response'.code < coap400BadRequest) := by
    cases h
    refine ⟨hr, fun hcode => ?_⟩
    split_ifs at hcode with hsuccess
    · exact hsuccess.2
    · rw [hcode]
      exact (by decide : noError < coap400BadRequest)
  obtain ⟨c, -, hc, hresult | hresult⟩ | ⟨_, _, _, _, _, -, -, hdm, hresult⟩ |
    ⟨uri, serverP, _, _, _, -, -, hbootstrap, hresult⟩ | ⟨-, hresult⟩ | ⟨-, hresult⟩ :=
    handleRequest_cases h
  · cases hresult
    exact ⟨rfl, fun hcode => absurd hcode hc⟩
  · exact hanswer rfl hresult
  · exact hanswer (dmHandleRequest_block2 hdm) hresult
  · have hsame := bootstrapHandleCommand_block2 contextP uri serverP message response
      outcome.bootstrap
    rw [hbootstrap] at hsame
    exact hanswer hsame hresult
  · exact hanswer rfl hresult
  · exact hanswer rfl hresult

end

/-! ### The tiles of a payload -/

/-- The handler is called for the request and answers with a code and a payload. -/
def AnswersRequest (altPath : Option CString) (coapBlockSize : UInt16) (contextP : Context)
    (fromSessionH : Session) (message : Packet) (outcome : Outcome) (code : Code)
    (payload : List Byte) : Prop :=
  ∃ (contextQ : Context) (message' prepared : Packet) (contextP' : Context) (response : Packet)
    (result : Code),
    receivePayload coapBlockSize (prepareResponse contextP message).1 fromSessionH message
      (prepareResponse contextP message).2 = .ok (contextQ, message', prepared, noError) ∧
    handleRequest altPath contextQ fromSessionH message' prepared outcome =
      .ok (contextP', response.coapSetPayload payload, result) ∧
    (result = noError ∧ response.code = code ∨ result = code ∧ coap400BadRequest ≤ code)

/-- What the reply to a request is to be when the handler answers with a code and a payload: the
whole payload, when no blocks are asked for or the request has failed; a block of it, from which on
a client collects the rest; or a refusal, when there is no such block. -/
inductive Tiles (coapBlockSize : UInt16) (code : Code) (payload : List Byte) (message : Packet)
    (reply : Packet) : Prop
  | whole : (message.isOption .block2 = true → coap400BadRequest ≤ code) →
      reply.isOption .block2 = false → reply.code = code → reply.payload = payload →
      Tiles coapBlockSize code payload message reply
  | block (num size : ℕ) : IsBlock code payload num (num * size) size reply →
      (∀ bytes, Collects coapBlockSize code payload reply bytes ↔
        bytes = payload.drop (num * size)) →
      Tiles coapBlockSize code payload message reply
  | refused : message.isOption .block2 = true → code < coap400BadRequest →
      message.block2.num ≠ 0 →
      payload.length ≤ message.block2.num.toNat * (min message.block2.size coapBlockSize).toNat →
      reply.isOption .block2 = false → reply.code = coap402BadOption →
      Tiles coapBlockSize code payload message reply

/-- The condition for a request with a Block2 option: the block is behind the payload; or the
length of the payload fits 16 bits, the offset for the size that is asked for is inside the payload,
and that size is not larger than the local one, unless the block is the first one or has, where it
is read, the bytes it should have. -/
def BlockFits (coapBlockSize : UInt16) (payload : List Byte) (block2 : BlockFields) : Prop :=
  (block2.num ≠ 0 ∧ payload.length ≤ block2.num.toNat * (min block2.size coapBlockSize).toNat ∧
      payload.length % 65536 ≤ block2.offset.toNat) ∨
    (payload.length < 65536 ∧ block2.num.toNat ≤ 0xFFFFF ∧
      block2.num.toNat * block2.size.toNat < payload.length ∧
      (block2.num = 0 ∨ block2.size ≤ coapBlockSize ∨
        (block2.num.toNat * block2.size.toNat + coapBlockSize.toNat < payload.length ∧
          (payload.drop (block2.num.toNat * block2.size.toNat)).take coapBlockSize.toNat =
            (payload.drop (block2.num.toNat * coapBlockSize.toNat)).take coapBlockSize.toNat)))

/-- The condition for every request: without a Block2 option, and when the request has failed,
the length of the payload fits 16 bits. -/
def Servable (coapBlockSize : UInt16) (code : Code) (payload : List Byte) (message : Packet) :
    Prop :=
  if message.isOption .block2 = true ∧ code < coap400BadRequest then
    BlockFits coapBlockSize payload message.block2
  else payload.length < 65536

section

variable {coapBlockSize : UInt16} {message response reply : Packet} {code : Code}
  {payload bytes : List Byte} {num offset size : ℕ}

theorem length_kept (payload : List Byte) :
    (payload.take (payload.length % 65536)).length = payload.length % 65536 := by
  rw [List.length_take]
  exact Nat.min_eq_left (Nat.mod_le _ _)

/-- The payload is kept exactly when its length fits 16 bits. -/
theorem kept_eq_iff : payload.take (payload.length % 65536) = payload ↔ payload.length < 65536 := by
  constructor
  · intro h
    have hlength := congrArg List.length h
    rw [length_kept] at hlength
    omega
  · intro h
    rw [Nat.mod_eq_of_lt h, List.take_length]

/-- A reply without a Block2 option that has the payload as it is kept. -/
theorem tiles_whole_iff (hrequest : message.isOption .block2 = true → coap400BadRequest ≤ code)
    (hplain : reply.isOption .block2 = false) (hcode : reply.code = code)
    (hpayload : reply.payload = payload.take (payload.length % 65536)) :
    Tiles coapBlockSize code payload message reply ↔ payload.length < 65536 := by
  rw [← kept_eq_iff, ← hpayload]
  constructor
  · rintro (⟨-, -, -, h⟩ | ⟨_, _, h, -⟩ | ⟨hoption, hsuccess, -, -, -, -⟩)
    · exact h
    · exact absurd (hplain.symm.trans h.isOption) Bool.false_ne_true
    · exact absurd (hrequest hoption) (UInt8.not_le.mpr hsuccess)
  · exact fun h => .whole hrequest hplain hcode h

/-- A refusal. -/
theorem tiles_refused_iff (hoption : message.isOption .block2 = true)
    (hsuccess : code < coap400BadRequest) (hplain : reply.isOption .block2 = false)
    (hcode : reply.code = coap402BadOption) :
    Tiles coapBlockSize code payload message reply ↔ message.block2.num ≠ 0 ∧
      payload.length ≤
        message.block2.num.toNat * (min message.block2.size coapBlockSize).toNat := by
  constructor
  · rintro (⟨herror, -, -, -⟩ | ⟨_, _, h, -⟩ | ⟨-, -, hnum, hbehind, -, -⟩)
    · exact absurd (herror hoption) (UInt8.not_le.mpr hsuccess)
    · exact absurd (hplain.symm.trans h.isOption) Bool.false_ne_true
    · exact ⟨hnum, hbehind⟩
  · exact fun ⟨hnum, hbehind⟩ => .refused hoption hsuccess hnum hbehind hplain hcode

/-- A block that is read at an offset: it is the one of its number, of a payload whose length fits
16 bits. -/
theorem tiles_block_iff
    (h : IsBlock code (payload.take (payload.length % 65536)) num offset size reply)
    (hszx : szx < 8) (hsize : size = (blockSize szx).toNat) (hlocal : size ≤ coapBlockSize.toNat)
    (hupper : coapBlockSize.toNat ≤ 2048) (hle : num * size ≤ offset)
    (hinside : offset < payload.length % 65536) :
    Tiles coapBlockSize code payload message reply ↔
      payload.length < 65536 ∧ IsBlock code payload num (num * size) size reply := by
  have hcollects (bytes : List Byte) := h.collects_iff bytes hszx hsize hlocal hupper hle
  constructor
  · rintro (⟨-, hplain, -, -⟩ | ⟨num', size', hblock, hall⟩ | ⟨-, -, -, -, hplain, -⟩)
    · exact absurd (hplain.symm.trans h.isOption) Bool.false_ne_true
    · obtain rfl : num = num' := h.num_eq.symm.trans hblock.num_eq
      obtain rfl : size = size' := h.size_eq.symm.trans hblock.size_eq
      refine ⟨?_, hblock⟩
      by_contra hlarge
      -- What the client collects ends where the payload that is kept ends.
      have hlength := congrArg List.length ((hcollects _).mp ((hall _).mpr rfl))
      rw [h.payload_eq, length_kept] at hlength
      split_ifs at hlength <;>
        · simp only [List.length_append, List.length_take, List.length_drop, List.length_nil,
            Nat.succ_mul] at hlength
          omega
    · exact absurd (hplain.symm.trans h.isOption) Bool.false_ne_true
  · rintro ⟨hsmall, hblock⟩
    refine .block num size hblock fun bytes => (hcollects bytes).trans ?_
    rw [kept_eq_iff.mpr hsmall] at h ⊢
    have hmore : offset + size < payload.length ↔ num * size + size < payload.length :=
      h.more_iff.symm.trans hblock.more_iff
    rw [if_congr hmore rfl rfl, hblock.payload_append]

/-- A block that is read at the offset of a larger size. -/
theorem isBlock_iff_of_offset (h : IsBlock code payload num offset size reply) :
    IsBlock code payload num (num * size) size reply ↔
      ((offset + size < payload.length ↔ num * size + size < payload.length) ∧
        (payload.drop offset).take size = (payload.drop (num * size)).take size) := by
  constructor
  · intro h'
    exact ⟨h.more_iff.symm.trans h'.more_iff, h.payload_eq.symm.trans h'.payload_eq⟩
  · rintro ⟨hmore, hslice⟩
    exact ⟨h.isOption, h.code_eq, h.num_eq, h.size_eq, h.more_iff.trans hmore,
      h.payload_eq.trans hslice⟩

variable {j k : ℕ}

/-- The smaller one of two block sizes. -/
theorem toNat_min_blockSize (hj : j < 8) (hk : k < 8) :
    (min (blockSize j) (blockSize k)).toNat = (blockSize (min j k)).toNat := by
  rw [toNat_min, blockSize_toNat j hj, blockSize_toNat k hk, blockSize_toNat _ (by omega)]
  obtain h | h := Nat.le_total j k
  · rw [Nat.min_eq_left h,
      Nat.min_eq_left (Nat.mul_le_mul_left 16 (Nat.pow_le_pow_right (by decide) h))]
  · rw [Nat.min_eq_right h,
      Nat.min_eq_right (Nat.mul_le_mul_left 16 (Nat.pow_le_pow_right (by decide) h))]

/-- A larger block size is at least twice as large. -/
theorem two_mul_blockSize_le (hj : j < 8) (h : k < j) :
    2 * (blockSize k).toNat ≤ (blockSize j).toNat := by
  rw [blockSize_toNat j hj, blockSize_toNat k (by omega)]
  have := Nat.pow_le_pow_right (show 0 < 2 by decide) h
  rw [Nat.pow_succ] at this
  omega

/-- The block that is served is the one of its number. -/
theorem isBlock_served_iff (hj : j < 8) (hk : k < 8)
    (h : IsBlock code payload num (num * (blockSize j).toNat)
      (min (blockSize j) (blockSize k)).toNat reply)
    (hinside : num * (blockSize j).toNat < payload.length) :
    IsBlock code payload num (num * (min (blockSize j) (blockSize k)).toNat)
        (min (blockSize j) (blockSize k)).toNat reply ↔
      (num = 0 ∨ blockSize j ≤ blockSize k ∨
        (num * (blockSize j).toNat + (blockSize k).toNat < payload.length ∧
          (payload.drop (num * (blockSize j).toNat)).take (blockSize k).toNat =
            (payload.drop (num * (blockSize k).toNat)).take (blockSize k).toNat)) := by
  by_cases hzero : num = 0
  · subst hzero
    rw [Nat.zero_mul] at h ⊢
    exact iff_of_true h (.inl rfl)
  by_cases hle : blockSize j ≤ blockSize k
  · have hmin : (min (blockSize j) (blockSize k)).toNat = (blockSize j).toNat := by
      rw [toNat_min]
      exact Nat.min_eq_left (UInt16.le_iff_toNat_le.mp hle)
    rw [hmin] at h ⊢
    exact iff_of_true h (.inr (.inl hle))
  · -- The size that is asked for is larger, so more bytes remain behind the block of the number.
    have hlt : (blockSize k).toNat < (blockSize j).toNat := by
      have := mt UInt16.le_iff_toNat_le.mpr hle
      omega
    have hkj : k < j := by
      rw [blockSize_toNat j hj, blockSize_toNat k hk] at hlt
      exact (Nat.pow_lt_pow_iff_right (by decide)).mp (Nat.lt_of_mul_lt_mul_left hlt)
    have hmin : (min (blockSize j) (blockSize k)).toNat = (blockSize k).toNat := by
      rw [toNat_min]
      omega
    have hdouble := Nat.mul_le_mul_left num (two_mul_blockSize_le hj hkj)
    have hnum := Nat.mul_le_mul_right (blockSize k).toNat (Nat.one_le_iff_ne_zero.mpr hzero)
    rw [hmin] at h ⊢
    rw [isBlock_iff_of_offset h, or_iff_right hzero, or_iff_right hle]
    refine and_congr_left fun _ => ?_
    rw [iff_true_right (show num * (blockSize k).toNat + (blockSize k).toNat < payload.length by
      rw [Nat.mul_left_comm] at hdouble
      omega)]

/-- **A request with a Block2 option** that is answered with a success. -/
theorem selectBlock2_tiles_iff (hsize : validateBlockSize coapBlockSize = true)
    (hoption : message.isOption .block2 = true) (hblock : message.block2 = parseBlockOption option)
    (hplain : response.isOption .block2 = false) (hcode : response.code < coap400BadRequest) :
    Tiles coapBlockSize response.code payload message
        (selectBlock2 coapBlockSize message (response.coapSetPayload payload)) ↔
      BlockFits coapBlockSize payload message.block2 := by
  obtain ⟨k, hk, rfl⟩ := exists_blockSize hsize
  obtain ⟨j, hj, hszx, hparse⟩ := parseBlockOption_offset option
  rw [← hblock] at hszx hparse
  have hmin := toNat_min_blockSize hj (show k < 8 by omega)
  have hkept : (response.coapSetPayload payload).payload.length = payload.length % 65536 :=
    length_kept payload
  have hplain' : (response.coapSetPayload payload).isOption .block2 = false := hplain
  have hbounds : ∀ szx < 8, 16 ≤ (blockSize szx).toNat ∧ (blockSize szx).toNat ≤ 2048 := by
    decide
  unfold BlockFits
  by_cases hbehind : payload.length % 65536 ≤ message.block2.offset.toNat
  · obtain ⟨hcode', hoption'⟩ := selectBlock2_beyond (blockSize k) hoption
      (hkept.le.trans hbehind)
    rw [tiles_refused_iff hoption hcode (hoption'.trans hplain') hcode']
    constructor
    · exact fun ⟨hnum, hlength⟩ => .inl ⟨hnum, hlength, hbehind⟩
    · rintro (⟨hnum, hlength, -⟩ | ⟨hsmall, -, hinside, -⟩)
      · exact ⟨hnum, hlength⟩
      · rw [hszx] at hinside
        rw [hparse] at hbehind
        omega
  have hinside := Nat.lt_of_not_le hbehind
  by_cases hnum : message.block2.num.toNat ≤ 0xFFFFF
  · have hoffset : message.block2.offset.toNat =
        message.block2.num.toNat * (blockSize j).toNat := by
      have := Nat.mul_le_mul hnum (hbounds j hj).2
      rw [hparse, Nat.mod_eq_of_lt (by omega)]
    have hserved := selectBlock2_isBlock (blockSize k) (response.coapSetPayload payload) hoption
      (hkept ▸ hinside) (by rw [hszx, hmin]; exact hbounds _ (by omega)) hnum
    rw [hszx, hoffset] at hserved
    change IsBlock response.code (payload.take (payload.length % 65536)) _ _ _ _ at hserved
    have hle : (min (blockSize j) (blockSize k)).toNat ≤ (blockSize j).toNat := by
      rw [toNat_min]
      exact Nat.min_le_left _ _
    have hlocal : (min (blockSize j) (blockSize k)).toNat ≤ (blockSize k).toNat := by
      rw [toNat_min]
      exact Nat.min_le_right _ _
    rw [tiles_block_iff hserved (by omega) hmin hlocal (hbounds k (by omega)).2
      (Nat.mul_le_mul_left _ hle) (hoffset ▸ hinside), hszx]
    rw [hoffset] at hinside
    have hzero : message.block2.num = 0 ↔ message.block2.num.toNat = 0 := UInt32.toNat_inj.symm
    constructor
    · rintro ⟨hsmall, h⟩
      rw [kept_eq_iff.mpr hsmall] at hserved
      rw [Nat.mod_eq_of_lt hsmall] at hinside
      have hfits := (isBlock_served_iff hj (by omega) hserved hinside).mp h
      exact .inr ⟨hsmall, hnum, hinside, (or_congr_left hzero).mpr hfits⟩
    · rintro (⟨-, -, hbehind'⟩ | ⟨hsmall, -, hinside', hfits⟩)
      · exact absurd hbehind' hbehind
      · rw [kept_eq_iff.mpr hsmall] at hserved
        refine ⟨hsmall, (isBlock_served_iff hj (by omega) hserved hinside').mpr ?_⟩
        exact (or_congr_left hzero).mp hfits
  · obtain ⟨hcode', hoption'⟩ := selectBlock2_large (blockSize k) hoption
      (hkept ▸ hinside) (Nat.lt_of_not_le hnum)
    have hfailed : ¬ coap400BadRequest ≤ response.code := UInt8.not_le.mpr hcode
    refine iff_of_false ?_ ?_
    · rintro (⟨herror, -, -, -⟩ | ⟨_, _, h, -⟩ | ⟨-, -, -, -, -, h402⟩)
      · exact hfailed (herror hoption)
      · exact absurd ((hoption'.trans hplain').symm.trans h.isOption) Bool.false_ne_true
      · have h402' : response.code = coap402BadOption := hcode'.symm.trans h402
        exact hfailed (h402' ▸ by decide)
    · rintro (⟨-, -, hbehind'⟩ | ⟨-, hnum', -, -⟩)
      · exact hbehind hbehind'
      · exact hnum hnum'

/-- **A request without a Block2 option** that is answered with a success. -/
theorem selectBlock2_plain_iff (hsize : validateBlockSize coapBlockSize = true)
    (hoption : message.isOption .block2 = false) (hplain : response.isOption .block2 = false) :
    Tiles coapBlockSize response.code payload message
        (selectBlock2 coapBlockSize message (response.coapSetPayload payload)) ↔
      payload.length < 65536 := by
  obtain ⟨k, hk, rfl⟩ := exists_blockSize hsize
  have hkept : (response.coapSetPayload payload).payload.length = payload.length % 65536 :=
    length_kept payload
  by_cases hlarge : (blockSize k).toNat < payload.length % 65536
  · have hbounds : ∀ szx < 7, 16 ≤ (blockSize szx).toNat ∧ (blockSize szx).toNat ≤ 2048 := by
      decide
    have hserved := selectBlock2_first hoption (hkept ▸ hlarge) (hbounds k hk)
    change IsBlock response.code (payload.take (payload.length % 65536)) _ _ _ _ at hserved
    rw [tiles_block_iff hserved (by omega) rfl le_rfl (hbounds k hk).2 (Nat.zero_mul _).le
      (Nat.lt_of_le_of_lt (Nat.zero_le _) hlarge), Nat.zero_mul]
    refine and_iff_left_of_imp fun hsmall => ?_
    rwa [kept_eq_iff.mpr hsmall] at hserved
  · rw [selectBlock2_whole hoption (hkept ▸ Nat.le_of_not_lt hlarge)]
    exact tiles_whole_iff (fun h => absurd (hoption.symm.trans h) Bool.false_ne_true) hplain rfl rfl

end

/-- **When `lwm2m_handle_packet` tiles a reply**: for every request that the handler answers with a
code and a payload, the reply that is sent is the whole payload, a block of it from which on a
client collects the rest, or a refusal of a block that is not there, exactly when the request is
servable. -/
theorem handlePacket_tiles_iff {altPath : Option CString} {coapBlockSize : UInt16}
    {contextP : Context} {fromSessionH : Session} {message : Packet} {outcome : Outcome}
    {code : Code} {payload : List Byte} (hsize : validateBlockSize coapBlockSize = true)
    (hparsed : message.isOption .block2 = true → ∃ option, message.block2 = parseBlockOption option)
    (hanswers : AnswersRequest altPath coapBlockSize contextP fromSessionH message outcome code payload) :
    ∃ contextP' reply,
      lwm2mHandleRequestPacket altPath coapBlockSize contextP fromSessionH message outcome =
        .ok (contextP', some reply) ∧
      (Tiles coapBlockSize code payload message reply ↔
        Servable coapBlockSize code payload message) := by
  obtain ⟨contextQ, message', prepared, contextP', response, result, hreceive, hhandle, hresult⟩ :=
    hanswers
  obtain ⟨-, ⟨assembled, rfl⟩, -⟩ := receivePayload_cases hreceive
  obtain ⟨hplain, hcode⟩ := handleRequest_block2 hhandle
  rw [receivePayload_block2 hreceive, prepareResponse_block2] at hplain
  unfold lwm2mHandleRequestPacket
  simp only [hreceive, ok_bind, if_true, hhandle]
  obtain ⟨rfl, rfl⟩ | ⟨rfl, herror⟩ := hresult
  · rw [if_pos rfl]
    refine ⟨_, _, rfl, ?_⟩
    have hsuccess : response.code < coap400BadRequest := hcode rfl
    change Tiles coapBlockSize response.code payload message
      (selectBlock2 coapBlockSize message (response.coapSetPayload payload)) ↔ _
    unfold Servable
    by_cases hoption : message.isOption .block2 = true
    · obtain ⟨option, hblock⟩ := hparsed hoption
      rw [if_pos ⟨hoption, hsuccess⟩]
      exact selectBlock2_tiles_iff hsize hoption hblock hplain hsuccess
    · rw [if_neg fun h => hoption h.1]
      exact selectBlock2_plain_iff hsize (Bool.eq_false_of_not_eq_true hoption) hplain
  · have hne : result ≠ noError := by
      rintro rfl
      exact absurd herror (by decide)
    have hignore : result ≠ coapIgnore := by
      rintro rfl
      exact absurd herror (by decide)
    have hretransmission : result ≠ coapRetransmission := by
      rintro rfl
      exact absurd herror (by decide)
    have hsame : errorCode (response.coapSetPayload payload) result = result := by
      unfold errorCode
      rw [if_neg fun h => hretransmission h.1]
    rw [if_neg hne, if_pos hignore, hsame]
    refine ⟨_, _, rfl, ?_⟩
    unfold Servable
    rw [if_neg fun h => UInt8.not_lt.mpr herror h.2]
    exact tiles_whole_iff (fun _ => herror) hplain rfl rfl

/-- A registered server that reads the device object. -/
def readingClient : Context :=
  { serverList := [{ ref := 0, secObjInstID := 1, shortID := 1, sessionH := some 1,
                     status := .registered }]
    allocated := 1 }

/-- A read of `/3/0` with a Block2 option. -/
def blockwiseRead (option : List Byte) : Packet :=
  { (coapInitMessage .con 1 7).markOption .block2 with
    uriPath := [[0x33], [0x30]]
    block2 := parseBlockOption option }

/-- The bytes of the device object. -/
def deviceBytes : List Byte := (List.range 40).map UInt8.ofNat

/-- What the object layer reads. -/
def deviceRead : Outcome := { read := (coap205Content, 11542, deviceBytes) }

theorem blockwiseRead_answers : ∀ option ∈ [[0x10], [0x11]],
    AnswersRequest none 16 readingClient (some 1) (blockwiseRead option) deviceRead coap205Content
      deviceBytes := by
  intro option hmem
  simp only [List.mem_cons, List.not_mem_nil, or_false] at hmem
  obtain rfl | rfl := hmem <;>
    exact ⟨readingClient, _, coapInitMessage .ack coap205Content 7, readingClient,
      (coapInitMessage .ack coap205Content 7).coapSetHeaderContentType 11542, noError, rfl, rfl,
      .inl ⟨rfl, rfl⟩⟩

/-- A client that asks for the local size gets the second block. -/
theorem blockwiseRead_tiles : ∃ contextP' reply,
    lwm2mHandleRequestPacket none 16 readingClient (some 1) (blockwiseRead [0x10]) deviceRead =
      .ok (contextP', some reply) ∧
    Tiles 16 coap205Content deviceBytes (blockwiseRead [0x10]) reply := by
  obtain ⟨contextP', reply, h, htiles⟩ := handlePacket_tiles_iff (by decide)
    (fun _ => ⟨[0x10], rfl⟩) (blockwiseRead_answers [0x10] (by decide))
  refine ⟨contextP', reply, h, htiles.mpr ?_⟩
  unfold Servable BlockFits
  rw [if_pos (by decide)]
  exact .inr ⟨by decide, by decide, by decide, .inr (.inl (by decide))⟩

/-- **A block at the offset of another size.**  A client that asks for the second block of 32 bytes
gets 8 bytes at the offset 32 as the second and last block of 16 bytes. -/
theorem blockwiseRead_not_tiles : ∃ contextP' reply,
    AnswersRequest none 16 readingClient (some 1) (blockwiseRead [0x11]) deviceRead coap205Content
      deviceBytes ∧
    lwm2mHandleRequestPacket none 16 readingClient (some 1) (blockwiseRead [0x11]) deviceRead =
      .ok (contextP', some reply) ∧
    reply.block2 = { num := 1, more := 0, size := 16 } ∧ reply.payload = deviceBytes.drop 32 ∧
    ¬ Tiles 16 coap205Content deviceBytes (blockwiseRead [0x11]) reply := by
  refine ⟨_, _, blockwiseRead_answers [0x11] (by decide), rfl, by decide, by decide, ?_⟩
  rintro (⟨-, hplain, -, -⟩ | ⟨num, size, h, -⟩ | ⟨-, -, -, -, hplain, -⟩)
  · revert hplain
    decide
  · obtain rfl : 1 = num := h.num_eq
    obtain rfl : 16 = size := h.size_eq
    have hpayload := h.payload_eq
    revert hpayload
    decide
  · revert hplain
    decide

end Lwm2m.Core

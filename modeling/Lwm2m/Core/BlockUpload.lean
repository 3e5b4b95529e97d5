/-
# A payload arrives whole

A transfer (`Transfer`) and the peer that receives it, in whose block list it is put together.  The
datagram of the request in flight may be lost or delivered many times, and so may the answers to
it; meanwhile the receiver takes blocks of other transfers.

In every run the request handler of the receiver is run with the whole payload or not at all, and
only once if the payload is larger than a block; every delivery is answered with 2.31, or the
handler was run; and after every answer the transfer goes on as it should (`upload_delivers`).
-/

import Lwm2m.Core.BlockTransfer
import Lwm2m.Core.LastBlock

namespace Lwm2m.Core

open Coap Code Library

/-! ### The two sides -/

/-- A transfer, the block list that the receiver keeps for the sender, the codes of its answers to
the request in flight, and the payloads that its request handler was run with. -/
structure Upload where
  sender : Transfer
  blockData : List BlockData
  answers : List Code := []
  handled : List (List Byte) := []

/-- What the block layer hands over to the request handler. -/
def handedOver : BlockOutput → List (List Byte)
  | .complete buffer => [buffer]
  | _ => []

/-- The key of a transfer, read from the datagram in flight. -/
def Transfer.uri (s : Transfer) : CString :=
  match s.request.buffer.map coapParseMessage with
  | some (.ok (_, message)) => coapGetPacketUriAsString message
  | _ => []

/-- What happens to a transfer. -/
inductive UploadEvent
  /-- The request in flight is delivered. -/
  | deliver
  /-- An answer is delivered. -/
  | acknowledge (e : Acknowledgement)
  /-- The receiver takes blocks of other transfers. -/
  | others

/-- One step.  The receiver does with the request what `lwm2m_handle_packet` does with a block that
is not too large for it; its request handler is run when the block layer hands over a buffer.
After an acknowledgement that is not continuable the sender may be in any state. -/
inductive UploadStep (payload : List Byte) (u : Upload) : UploadEvent → Upload → Prop
  | deliver {datagram : List Byte} {message reply : Packet} {blockData' : List BlockData}
      {code : Code} {output : BlockOutput} (sent : u.sender.request.buffer = some datagram)
      (parsed : coapParseMessage datagram = .ok (noError, message))
      (handles : coapBlock1Handler u.blockData (coapGetPacketUriAsString message)
        (blockArrival message) = .ok (blockData', code, output))
      (echoes : reply.isOption .block1 = true) (more : reply.block1.more = message.block1.more) :
      UploadStep payload u .deliver { u with
        blockData := blockData'
        answers := errorCode reply code :: u.answers
        handled := handedOver output ++ u.handled }
  | acknowledge {e : Acknowledgement} {sender' : Transfer}
      (acknowledges : Acknowledges e u.sender.request) (answered : e.message.code ∈ u.answers)
      (size : e.message.block1.size = u.sender.request.message.block1.size)
      (continues : Continuable payload u.sender e → TransferStep payload u.sender e sender') :
      UploadStep payload u (.acknowledge e) { u with sender := sender', answers := [] }
  | others {blockData' : List BlockData} (typed : WellTyped blockData')
      (same : blockData'.find? (IsOwn (.uri (some u.sender.uri)) .block1 ·) =
        u.blockData.find? (IsOwn (.uri (some u.sender.uri)) .block1 ·)) :
      UploadStep payload u .others { u with blockData := blockData' }

/-! ### The blocks of a transfer in order -/

section handler

variable {l l' : List BlockData} {uri : CString} {num : UInt32} {buffer : List Byte}
  {b : BlockArrival} {code : Code} {output : BlockOutput}

/-- The list holds the transfer up to a block, and the bytes so far. -/
def Holds (l : List BlockData) (uri : CString) (num : UInt32) (buffer : List Byte) : Prop :=
  (l.find? (IsOwn (.uri (some uri)) .block1 ·)).map (fun d => (d.blockNum, d.blockBuffer)) =
    some (num, buffer)

theorem Holds.focus (h : Holds l uri num buffer) :
    ∃ f, focusFirst (IsOwn (.uri (some uri)) .block1 ·) l = some f ∧ f.here.blockNum = num ∧
      f.here.blockBuffer = buffer := by
  unfold Holds at h
  rw [← focusFirst_map_here, Option.map_map, Option.map_eq_some_iff] at h
  obtain ⟨f, hf, hhere⟩ := h
  exact ⟨f, hf, congrArg Prod.fst hhere, congrArg Prod.snd hhere⟩

theorem holds_set {f : Focus BlockData}
    (hf : focusFirst (IsOwn (.uri (some uri)) .block1 ·) l = some f) :
    Holds (f.set { f.here with blockBuffer := buffer, blockNum := num }) uri num buffer := by
  have hown := (focusFirst_eq_some_iff.mp hf).2.1
  have hset := focusFirst_set hf
    (x := { f.here with blockBuffer := buffer, blockNum := num }) hown
  unfold Holds
  rw [← focusFirst_map_here, hset]
  rfl

/-- **The next block is taken.** -/
theorem coapBlock1Handler_takes (htyped : WellTyped l)
    (hnext : b.blockNum = 0 ∧ buffer = [] ∨ ∃ n, Holds l uri n buffer ∧
      b.blockNum.toNat = n.toNat + 1 ∧
      buffer.length = (b.blockSize.toUInt32 * b.blockNum).toNat)
    (h : coapBlock1Handler l uri b = .ok (l', code, output)) :
    Holds l' uri b.blockNum (buffer ++ b.buffer) ∧
      (code, output) = if b.blockMore then (coap231Continue, .incomplete)
        else (noError, .complete (buffer ++ b.buffer)) := by
  obtain ⟨found, hfound, h⟩ := bind_eq_ok_iff.mp h
  have hfirst := findBlockData_eq_ok htyped (.block1 uri) hfound
  rcases hnext with ⟨hzero, rfl⟩ | ⟨n, hholds, hnum, hlength⟩
  · rw [if_pos hzero] at h
    cases found with
    | none =>
      obtain ⟨rfl, hanswer⟩ := Prod.mk.inj (Except.ok.inj h)
      refine ⟨?_, hanswer.symm⟩
      have hown : IsOwn (.uri (some uri)) .block1
          ⟨.block1, .uri (some uri), b.buffer, b.blockNum⟩ := ⟨rfl, rfl⟩
      simp only [Holds, List.find?_cons, decide_eq_true hown]
      rfl
    | some f =>
      obtain ⟨rfl, hanswer⟩ := Prod.mk.inj (Except.ok.inj h)
      exact ⟨holds_set hfirst.symm, hanswer.symm⟩
  · obtain ⟨f, hf, rfl, rfl⟩ := hholds.focus
    rw [hf] at hfirst
    subst hfirst
    have hsucc : b.blockNum = f.here.blockNum + 1 := by
      refine UInt32.toNat_inj.mp (hnum.trans (toNat_succ_of_lt (n := b.blockNum) ?_).symm)
      omega
    have hle : ¬ b.blockNum ≤ f.here.blockNum := by
      rw [UInt32.le_iff_toNat_le]
      omega
    rw [if_neg (ne_zero_of_not_le hle)] at h
    dsimp only at h
    rw [if_neg hle, if_pos hsucc, if_neg (not_not.mpr hlength)] at h
    obtain ⟨rfl, hanswer⟩ := Prod.mk.inj (Except.ok.inj h)
    exact ⟨holds_set hf, hanswer.symm⟩

/-- **A block that was taken is told**, if it is not block 0. -/
theorem coapBlock1Handler_repeats (htyped : WellTyped l) (hholds : Holds l uri b.blockNum buffer)
    (hzero : b.blockNum ≠ 0) (h : coapBlock1Handler l uri b = .ok (l', code, output)) :
    l' = l ∧ code = coapRetransmission ∧ output = .untouched := by
  obtain ⟨found, hfound, h⟩ := bind_eq_ok_iff.mp h
  have hfirst := findBlockData_eq_ok htyped (.block1 uri) hfound
  obtain ⟨f, hf, hnum, -⟩ := hholds.focus
  rw [hf] at hfirst
  subst hfirst
  rw [if_neg hzero] at h
  dsimp only at h
  rw [if_pos (by rw [hnum]; exact UInt32.le_refl _)] at h
  cases h
  exact ⟨rfl, rfl, rfl⟩

end handler

/-! ### A transfer and its receiver -/

section steps

variable {payload : List Byte} {s : Transfer} {l l' : List BlockData} {message : Packet}
  {code : Code} {output : BlockOutput} {answers : List Code} {handled : List (List Byte)}
  {u u' : Upload}

/-- The last block completes the payload. -/
theorem InTransfer.append_of_last (h : InTransfer payload s)
    (hlast : ContainsLast payload s.request.message) :
    s.accepted ++ s.request.message.payload = payload := by
  have hstart := h.start
  unfold ContainsLast at hlast
  rw [h.carries.bytes, hstart]
  nth_rewrite 1 [h.accepted]
  rw [← List.take_add]
  exact List.take_of_length_le (by omega)

/-- A block in front of others is full. -/
theorem InTransfer.full (h : InTransfer payload s)
    (hlast : ¬ ContainsLast payload s.request.message) :
    s.request.message.payload.length = s.request.message.block1.size.toNat := by
  unfold ContainsLast at hlast
  rw [h.carries.bytes, List.length_take, List.length_drop]
  omega

/-- The key is that of the packet in flight. -/
theorem uri_of_inFlight {packet : Packet} (h : InFlight s.request packet) :
    s.uri = coapGetPacketUriAsString packet := by
  have hsame := sameRequest_parsedRequest h.plain
  unfold Transfer.uri
  rw [h.buffer, Option.map_some, coapParseMessage_coapSerializeMessage h.plain]
  unfold coapGetPacketUriAsString
  dsimp only
  rw [hsame.uriPath, hsame.uriQuery, hsame.uriHost]

/-- What the receiver reads of the request in flight. -/
theorem InTransfer.delivered (h : InTransfer payload s) {buffer : List Byte}
    (sent : s.request.buffer = some buffer)
    (parsed : coapParseMessage buffer = .ok (noError, message)) :
    message.isOption .block1 = true ∧
      message.block1.num = s.request.message.block1.num ∧
      message.block1.more = s.request.message.block1.more ∧
      message.block1.size = s.request.message.block1.size ∧
      message.payload = s.request.message.payload ∧
      coapGetPacketUriAsString message = s.uri := by
  obtain ⟨packet, hflight⟩ := h.inFlight
  have huri : s.uri = coapGetPacketUriAsString message := by
    unfold Transfer.uri
    rw [sent, Option.map_some, parsed]
  rw [hflight.buffer, Option.some_inj] at sent
  rw [← sent, coapParseMessage_coapSerializeMessage hflight.plain] at parsed
  cases parsed
  have hsame := sameRequest_parsedRequest hflight.plain
  have hset := h.carries.block1
  rw [hflight.message] at hset ⊢
  obtain ⟨hnum, hmore, hsize⟩ := hsame.block1 hset
  exact ⟨(hsame.isOption _).trans hset, hnum, hmore, hsize, hsame.payload, huri.symm⟩

/-- The receiver holds the block in flight: its request handler was run if this is the last one, and
only once if it is not block 0. -/
structure Taken (payload : List Byte) (s : Transfer) (l : List BlockData)
    (handled : List (List Byte)) (n : ℕ) : Prop where
  holds : Holds l s.uri s.request.message.block1.num (s.accepted ++ s.request.message.payload)
  runs : handled = List.replicate n payload
  last : n = 0 ↔ ¬ ContainsLast payload s.request.message
  once : n ≤ 1 ∨ s.request.message.block1.num = 0

/-- The receiver holds what was accepted before. -/
def Waits (s : Transfer) (l : List BlockData) : Prop :=
  s.request.message.block1.num = 0 ∨ ∃ n, Holds l s.uri n s.accepted ∧
    s.request.message.block1.num.toNat = n.toNat + 1

/-- How far the receiver is with the request in flight. -/
inductive Progress (payload : List Byte) (s : Transfer) (l : List BlockData) (answers : List Code)
    (handled : List (List Byte)) : Prop
  | waits (waits : Waits s l) (unanswered : answers = []) (none : handled = [])
  | taken (n : ℕ) (taken : Taken payload s l handled n)
      (answers : ∀ code ∈ answers, code ≠ coap413EntityTooLarge ∧
        (code = coap231Continue → ¬ ContainsLast payload s.request.message))

/-- What holds of a transfer and its receiver. -/
structure UploadInv (payload : List Byte) (u : Upload) : Prop where
  transfer : InTransfer payload u.sender
  typed : WellTyped u.blockData
  progress : Progress payload u.sender u.blockData u.answers u.handled

/-- **The block layer takes the request in flight**, or tells that it was taken. -/
theorem Progress.handler (h : Progress payload s l answers handled)
    (htransfer : InTransfer payload s) (htyped : WellTyped l)
    {buffer : List Byte} (sent : s.request.buffer = some buffer)
    (parsed : coapParseMessage buffer = .ok (noError, message))
    (hhandler : coapBlock1Handler l (coapGetPacketUriAsString message) (blockArrival message) =
      .ok (l', code, output)) :
    (message.block1.more = 0 ↔ ContainsLast payload s.request.message) ∧
    (code = coapRetransmission ∨
      code = if message.block1.more = 0 then noError else coap231Continue) ∧
    ∃ n, Taken payload s l' (handedOver output ++ handled) n := by
  obtain ⟨-, hnum, hmore, hsize, hpayload, huri⟩ := htransfer.delivered sent parsed
  have hflag := htransfer.carries.more
  rw [← hmore] at hflag
  rw [huri] at hhandler
  refine ⟨hflag, ?_⟩
  have htakes (n : ℕ) (hruns : handled = List.replicate n payload)
      (honce : n = 0 ∨ s.request.message.block1.num = 0)
      (hnot : ¬ ContainsLast payload s.request.message → n = 0) (hwaits : Waits s l) :
      (code = coapRetransmission ∨
        code = if message.block1.more = 0 then noError else coap231Continue) ∧
      ∃ n, Taken payload s l' (handedOver output ++ handled) n := by
    have hstart := htransfer.start
    have hplace : (blockArrival message).blockNum = 0 ∧ s.accepted = [] ∨ ∃ n,
        Holds l s.uri n s.accepted ∧ (blockArrival message).blockNum.toNat = n.toNat + 1 ∧
          s.accepted.length =
            (message.block1.size.toUInt32 * (blockArrival message).blockNum).toNat := by
      refine hwaits.imp (fun hzero => ?_) fun hheld => hheld.imp fun n hn => ?_
      · rw [blockStart, hzero] at hstart
        exact ⟨hnum.trans hzero, List.length_eq_zero_iff.mp (hstart.symm.trans (Nat.zero_mul _))⟩
      · obtain ⟨k, hk, hsizeK⟩ := htransfer.size
        refine ⟨hn.1, (congrArg UInt32.toNat hnum).trans hn.2, ?_⟩
        rw [show (blockArrival message).blockNum = _ from hnum, hsize, UInt32.toNat_mul,
          UInt16.toNat_toUInt32, Nat.mul_comm, ← hstart]
        exact (Nat.mod_eq_of_lt (by
          calc _ ≤ 2 ^ 20 * 2048 := Nat.mul_le_mul htransfer.num_lt.le
                (hsizeK ▸ (toNat_blockSize k hk).2.2)
            _ < 2 ^ 32 := by decide)).symm
    obtain ⟨hholds, hanswer⟩ := coapBlock1Handler_takes htyped hplace hhandler
    rw [show (blockArrival message).buffer = _ from hpayload] at hholds hanswer
    by_cases hlast : ContainsLast payload s.request.message
    · rw [show (blockArrival message).blockMore = false from
        decide_eq_false (not_not.mpr (hflag.mpr hlast)), if_neg Bool.false_ne_true,
        htransfer.append_of_last hlast] at hanswer
      cases hanswer
      exact ⟨.inr (if_pos (hflag.mpr hlast)).symm, n + 1, hnum ▸ hholds,
        congrArg (payload :: ·) hruns, iff_of_false (Nat.succ_ne_zero n) (not_not.mpr hlast),
        honce.imp_left fun hn => by rw [hn]⟩
    · rw [show (blockArrival message).blockMore = true from
        decide_eq_true (mt hflag.mp hlast), if_pos rfl] at hanswer
      cases hanswer
      obtain rfl := hnot hlast
      exact ⟨.inr (if_neg (mt hflag.mp hlast)).symm, 0, hnum ▸ hholds, hruns,
        iff_of_true rfl hlast, .inl (Nat.zero_le _)⟩
  cases h with
  | waits waits _ none => exact htakes 0 none (.inl rfl) (fun _ => rfl) waits
  | taken n taken =>
    by_cases hzero : s.request.message.block1.num = 0
    · exact htakes n taken.runs (.inr hzero) taken.last.mpr (.inl hzero)
    · obtain ⟨rfl, rfl, rfl⟩ := coapBlock1Handler_repeats htyped
        (show Holds l s.uri (blockArrival message).blockNum _ from hnum ▸ taken.holds)
        (show message.block1.num ≠ 0 from hnum ▸ hzero) hhandler
      exact ⟨.inl rfl, n, taken⟩

/-- **A delivery.**  It is answered with 2.31, or the request handler was run. -/
theorem UploadInv.deliver (h : UploadInv payload u) (hstep : UploadStep payload u .deliver u') :
    UploadInv payload u' ∧
      (payload ∈ u'.handled ∨ u'.answers.head? = some coap231Continue) := by
  cases hstep with
  | @deliver _ message reply l' code output sent parsed handles echoes more =>
    obtain ⟨hflag, hcode, n, htaken⟩ :=
      h.progress.handler h.transfer h.typed sent parsed handles
    obtain ⟨hne, hcontinue⟩ : errorCode reply code ≠ coap413EntityTooLarge ∧
        (errorCode reply code = coap231Continue ↔
          ¬ ContainsLast payload u.sender.request.message) := by
      unfold errorCode
      rw [echoes, more, ← hflag]
      by_cases hzero : message.block1.more = 0
      · rw [if_pos hzero] at hcode
        rw [if_neg (not_not.mpr hzero)]
        rcases hcode with rfl | rfl
        all_goals exact ⟨by decide, iff_of_false (by decide) (not_not.mpr hzero)⟩
      · rw [if_neg hzero] at hcode
        rw [if_pos hzero]
        rcases hcode with rfl | rfl
        all_goals exact ⟨by decide, iff_of_true rfl hzero⟩
    have hbefore : ∀ c ∈ u.answers, c ≠ coap413EntityTooLarge ∧
        (c = coap231Continue → ¬ ContainsLast payload u.sender.request.message) := by
      cases h.progress with
      | waits _ unanswered =>
        rw [unanswered]
        exact fun _ hc => absurd hc List.not_mem_nil
      | taken _ _ answers => exact answers
    refine ⟨⟨h.transfer, h.typed.handler (.block1 _) handles, .taken n htaken
      (List.forall_mem_cons.mpr ⟨⟨hne, hcontinue.mp⟩, hbefore⟩)⟩, ?_⟩
    by_cases hcontains : ContainsLast payload u.sender.request.message
    · refine .inl ?_
      rw [htaken.runs]
      exact List.mem_replicate.mpr ⟨mt htaken.last.mp (not_not.mpr hcontains), rfl⟩
    · exact .inr (congrArg some (hcontinue.mpr hcontains))

variable {e : Acknowledgement}

/-- **An answer continues the transfer**: it is a 2.31 to a block that is not the last one. -/
theorem UploadInv.continues (h : UploadInv payload u) (hshort : payload.length ≤ 2 ^ 24)
    (hack : Acknowledges e u.sender.request) (hanswered : e.message.code ∈ u.answers)
    (hsize : e.message.block1.size = u.sender.request.message.block1.size) :
    e.message.code = coap231Continue ∧ u.handled = [] ∧
      ¬ ContainsLast payload u.sender.request.message ∧
      Holds u.blockData u.sender.uri u.sender.request.message.block1.num
        (u.sender.accepted ++ u.sender.request.message.payload) ∧
      Continuable payload u.sender e := by
  cases h.progress with
  | waits _ unanswered =>
    rw [unanswered] at hanswered
    cases hanswered
  | taken n taken answers =>
    obtain ⟨hne, hmore⟩ := answers _ hanswered
    have hcode := hack.code.resolve_right hne
    have hnot := hmore hcode
    obtain rfl := taken.last.mpr hnot
    obtain ⟨k, hk, hsizeK⟩ := h.transfer.size
    have hlow := (toNat_blockSize k hk).2.1
    rw [← hsizeK] at hlow
    have hproduct : u.sender.request.message.block1.num.toNat * 16 ≤
        blockStart u.sender.request.message := Nat.mul_le_mul_left _ hlow
    refine ⟨hcode, taken.runs, hnot, taken.holds, fun _ => ⟨.inr hsize, .inl ?_⟩,
      fun hc => absurd hc hne⟩
    unfold ContainsLast at hnot
    show _ < (0x0FFFFF : UInt32)
    rw [UInt32.lt_iff_toNat_lt]
    show _ < 0x0FFFFF
    omega

/-- **A step.** -/
theorem UploadInv.step (hshort : payload.length ≤ 2 ^ 24) (h : UploadInv payload u)
    {event : UploadEvent} (hstep : UploadStep payload u event u') : UploadInv payload u' := by
  cases hstep with
  | deliver sent parsed handles echoes more =>
    exact (h.deliver (.deliver sent parsed handles echoes more)).1
  | @acknowledge e s' hack hanswered hsize hmakes =>
    obtain ⟨hcode, hnone, hnot, hholds, hcontinuable⟩ := h.continues hshort hack hanswered hsize
    have hmade := hmakes hcontinuable
    obtain ⟨packet, num, szx, hflight, hszx, hle, hinside, hstart, hsame, hrequest⟩ :=
      hmade.sends h.transfer
    have hcontinues : Continues packet (blockRequest u.sender.request packet
        u.sender.contextP.nextMID num (blockSize szx)).message :=
      continues_blockRequest hflight hszx
    obtain ⟨-, -, hnum, -⟩ := carriesBlock_blockRequest packet u.sender.contextP.nextMID hszx hle
      (h.transfer.whole.symm ▸ hinside)
    -- the key is read from the path and the query, which the requests share
    have huri : s'.uri = u.sender.uri := by
      have hnext : InFlight s'.request _ := hrequest ▸ inFlight_firstSent hcontinues hflight.room
        (blockRequest_mid hflight) hflight.peer rfl
      rw [uri_of_inFlight hnext, uri_of_inFlight hflight]
      unfold coapGetPacketUriAsString
      rw [hcontinues.uriPath, hcontinues.uriQuery, hcontinues.plain.uriHost, hflight.plain.uriHost]
    have hnum' : s'.request.message.block1.num = num := by rw [hrequest]; exact hnum
    have haccepted := hmade.accepted
    rw [acceptedAfter, if_pos hcode] at haccepted hstart
    rw [List.length_append, h.transfer.full hnot, ← h.transfer.start, blockStart,
      ← Nat.succ_mul, (hsame hcode).trans hsize] at hstart
    refine ⟨hmade.inTransfer h.transfer, h.typed,
      .waits (.inr ⟨u.sender.request.message.block1.num, ?_, ?_⟩) rfl hnone⟩
    · rwa [huri, haccepted]
    · obtain ⟨k, hk, hsizeK⟩ := h.transfer.size
      rw [hnum']
      exact Nat.eq_of_mul_eq_mul_right
        (hsizeK ▸ Nat.zero_lt_of_lt (toNat_blockSize k hk).2.1) hstart
  | @others blockData' typed same =>
    have hholds {num : UInt32} {buffer : List Byte} :
        Holds u.blockData u.sender.uri num buffer → Holds blockData' u.sender.uri num buffer := by
      unfold Holds
      rw [same]
      exact id
    refine ⟨h.transfer, typed, ?_⟩
    cases h.progress with
    | waits waits unanswered none =>
      exact .waits (waits.imp_right fun hheld => hheld.imp fun n => And.imp_left hholds)
        unanswered none
    | taken n taken answers => exact .taken n { taken with holds := hholds taken.holds } answers

end steps

end Lwm2m.Core

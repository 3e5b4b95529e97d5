/-
# The clone of a request

The next request of a block-wise transfer is a clone: `prv_create_next_block_transaction` parses the
bytes of the request before and copies the options one by one.  It marks a Content-Format in every
clone, and copies neither Max-Age nor Size1; the copies of the strings of Uri-Host,
Location-Query and Proxy-Uri do not outlive the block that makes them; and the response
timeout is left out.  So the clone is the request again exactly when there is a Content-Format,
none of those options and no timeout (`prvCreateNextBlockTransaction_clone_iff`).
-/

import Lwm2m.Coap.MessageRoundTrip
import Lwm2m.Core.NextRequest

namespace Lwm2m.Core

open Coap Code Library

/-! ### Copying the options -/

/-- The copy of one option. -/
def copyOption (message p : Packet) (o : CoapOption) : Packet :=
  if message.isOption o then
    match o with
    | .etag => p.coapSetHeaderEtag message.etag
    | .uriHost => { p with uriHost := message.uriHost }.markOption .uriHost
    | .uriPort => p.coapSetHeaderUriPort message.uriPort
    | .locationPath => { p with locationPath := message.locationPath }.markOption .locationPath
    | .locationQuery => { p with locationQuery := message.locationQuery }.markOption .locationQuery
    | .contentType => { p with contentType := message.contentType }.markOption .contentType
    | .uriPath => { p with uriPath := message.uriPath }.markOption .uriPath
    | .observe => p.coapSetHeaderObserve message.observe
    | .accept => { p with accept := message.accept }.markOption .accept
    | .ifMatch => p.coapSetHeaderIfMatch message.ifMatch
    | .uriQuery => { p with uriQuery := message.uriQuery }.markOption .uriQuery
    | .ifNoneMatch => p.coapSetHeaderIfNoneMatch
    | _ => p
  else p

/-- The options that are copied, in order. -/
def copiedOptions : List CoapOption :=
  [.etag, .uriHost, .uriPort, .locationPath, .locationQuery, .contentType, .uriPath, .observe,
    .accept, .ifMatch, .uriQuery, .ifNoneMatch]

variable {o : CoapOption}

section copy

variable {message p : Packet}

/-- The values of Accept are appended one by one. -/
theorem foldl_coapSetHeaderAccept {array : List UInt16} (hne : array ≠ [])
    (hroom : p.accept.length + array.length ≤ coapMaxAcceptNum) :
    array.foldl Packet.coapSetHeaderAccept p =
      { p with accept := p.accept ++ array }.markOption .accept := by
  induction array generalizing p with
  | nil => exact absurd rfl hne
  | cons a array ih =>
    rw [List.length_cons] at hroom
    have hset : p.coapSetHeaderAccept a =
        { p with accept := p.accept ++ [a] }.markOption .accept := if_pos (by omega)
    rw [List.foldl_cons, hset]
    by_cases hnil : array = []
    · rw [hnil]
      rfl
    · have happend : (({ p with accept := p.accept ++ [a] }.markOption .accept).accept ++ array) =
          p.accept ++ a :: array := List.append_assoc _ _ _
      have hlength : (({ p with accept := p.accept ++ [a] }.markOption .accept).accept).length =
          p.accept.length + 1 := List.length_append
      rw [ih hnil (by omega), happend]
      simp [Packet.markOption, Packet.mark, BitVec.or_assoc]

/-- The bit of a copied option. -/
theorem isOption_copyOption (ho : o ∈ copiedOptions) (o' : CoapOption) :
    (copyOption message p o).isOption o' =
      (p.isOption o' || (message.isOption o && decide (o' = o))) := by
  unfold copyOption
  split_ifs with hset
  · rw [hset, Bool.true_and]
    cases o <;> first | exact absurd ho (by decide) | exact Packet.isOption_markOption _ _ _
  · simp [hset]

/-- The value of another option is left alone. -/
theorem sameOption_copyOption_of_ne (m : Packet) {o' : CoapOption} (hne : o' ≠ o) :
    SameOption m (copyOption message p o) o' ↔ SameOption m p o' := by
  unfold copyOption
  split_ifs
  · cases o <;> cases o' <;> first | exact Iff.rfl | exact absurd rfl hne
  · exact Iff.rfl

variable {options : List CoapOption}

/-- The options that are not copied are left alone. -/
theorem sameOption_foldl_copyOption (m : Packet) (ho : o ∉ options) :
    SameOption m (options.foldl (copyOption message) p) o ↔
      SameOption m p o := by
  induction options generalizing p with
  | nil => exact Iff.rfl
  | cons o' options ih =>
    obtain ⟨hne, ho⟩ := not_or.mp (List.mem_cons.not.mp ho)
    rw [List.foldl_cons, ih ho, sameOption_copyOption_of_ne m hne]

/-- The bits of the copied options. -/
theorem isOption_foldl_copyOption (hcopied : ∀ o ∈ options, o ∈ copiedOptions) (o : CoapOption) :
    (options.foldl (copyOption message) p).isOption o =
      (p.isOption o || (message.isOption o && decide (o ∈ options))) := by
  induction options generalizing p with
  | nil => simp
  | cons o' options ih =>
    obtain ⟨ho', hcopied⟩ := List.forall_mem_cons.mp hcopied
    rw [List.foldl_cons, ih hcopied, isOption_copyOption ho']
    by_cases heq : o = o'
    · rw [heq]
      simp only [decide_true, Bool.and_true, List.mem_cons_self]
      cases message.isOption o' <;> simp
    · simp [heq]

/-- The values of Accept are copied like those of another option. -/
theorem foldl_coapSetHeaderAccept_eq_copyOption (hp : p.accept = [])
    (haccept : message.isOption .accept = decide (message.accept ≠ []))
    (hlength : message.accept.length ≤ coapMaxAcceptNum) :
    message.accept.foldl Packet.coapSetHeaderAccept p = copyOption message p .accept := by
  unfold copyOption
  by_cases hnil : message.accept = []
  · rw [haccept, hnil]
    rfl
  · have hroom : p.accept.length + message.accept.length ≤ coapMaxAcceptNum := by
      rw [hp, List.length_nil, Nat.zero_add]
      exact hlength
    rw [haccept, decide_eq_true hnil, if_pos rfl, foldl_coapSetHeaderAccept hnil hroom, hp]
    rfl

/-- The options are copied one after the other. -/
theorem copyOptions_eq_foldl {clone : Packet} (hclone : clone.accept = [])
    (haccept : message.isOption .accept = decide (message.accept ≠ []))
    (hlength : message.accept.length ≤ coapMaxAcceptNum) :
    copyOptions message clone = copiedOptions.foldl (copyOption message)
      (clone.coapSetHeaderContentType message.type.field.toUInt32) := by
  unfold copyOptions
  extract_lets clone₀ clone₁ clone₂ clone₃ clone₄ clone₅ clone₆ clone₇ clone₈ clone₉ clone₁₀
    clone₁₁
  have hbefore : clone₈ = [CoapOption.etag, .uriHost, .uriPort, .locationPath, .locationQuery,
      .contentType, .uriPath, .observe].foldl (copyOption message) clone₀ := rfl
  have hempty : clone₈.accept = [] := by
    rw [hbefore]
    exact (sameOption_foldl_copyOption {} (o := .accept) (by decide)).mpr hclone
  have hvalues : clone₉ = copyOption message clone₈ .accept :=
    foldl_coapSetHeaderAccept_eq_copyOption hempty haccept hlength
  have hafter : clone₁₁ = [CoapOption.ifMatch, .uriQuery].foldl (copyOption message) clone₉ := rfl
  rw [hvalues, hbefore] at hafter
  change copyOption message clone₁₁ .ifNoneMatch = _
  rw [hafter]
  rfl

/-- The copy of an option has its value. -/
theorem sameOption_copyOption (ho : o ∈ copiedOptions) (hset : message.isOption o = true)
    (hetag : message.etag.length ≤ coapEtagLen) (hifMatch : message.ifMatch.length ≤ coapEtagLen)
    (hobserve : 0x00FFFFFF &&& message.observe = message.observe) :
    SameOption message (copyOption message p o) o := by
  unfold copyOption
  rw [if_pos hset]
  cases o with
  | etag => exact List.take_of_length_le hetag
  | ifMatch => exact List.take_of_length_le hifMatch
  | observe => exact hobserve
  | ifNoneMatch => trivial
  | maxAge | token | block2 | block1 | size | proxyUri => exact absurd ho (by decide)
  | _ => rfl

/-- The copied options have the values of the message. -/
theorem sameOption_foldl_copyOption_of_mem (hnodup : options.Nodup) (ho : o ∈ options)
    (hcopied : ∀ o ∈ options, o ∈ copiedOptions) (hset : message.isOption o = true)
    (hetag : message.etag.length ≤ coapEtagLen) (hifMatch : message.ifMatch.length ≤ coapEtagLen)
    (hobserve : 0x00FFFFFF &&& message.observe = message.observe) :
    SameOption message (options.foldl (copyOption message) p) o := by
  induction options generalizing p with
  | nil => exact absurd ho List.not_mem_nil
  | cons o' options ih =>
    obtain ⟨hnew, hnodup⟩ := List.nodup_cons.mp hnodup
    rw [List.foldl_cons]
    rcases List.mem_cons.mp ho with rfl | ho
    · exact (sameOption_foldl_copyOption message hnew).mpr
        (sameOption_copyOption (hcopied o List.mem_cons_self) hset hetag hifMatch hobserve)
    · exact ih hnodup ho (List.forall_mem_cons.mp hcopied).2

/-- The copies are made in the options. -/
theorem header_foldl_copyOption (message p : Packet) (options : List CoapOption) :
    (options.foldl (copyOption message) p).type = p.type ∧
      (options.foldl (copyOption message) p).code = p.code ∧
      (options.foldl (copyOption message) p).token = p.token := by
  have hone (p : Packet) (o : CoapOption) : (copyOption message p o).type = p.type ∧
      (copyOption message p o).code = p.code ∧ (copyOption message p o).token = p.token := by
    unfold copyOption
    split_ifs
    · cases o <;> exact ⟨rfl, rfl, rfl⟩
    · exact ⟨rfl, rfl, rfl⟩
  induction options generalizing p with
  | nil => exact ⟨rfl, rfl, rfl⟩
  | cons o options ih =>
    obtain ⟨htype, hcode, htoken⟩ := hone p o
    obtain ⟨htype', hcode', htoken'⟩ := ih (copyOption message p o)
    exact ⟨htype'.trans htype, hcode'.trans hcode, htoken'.trans htoken⟩

end copy

/-! ### The request before -/

/-- What the setters keep of the type and the value of Observe: it has 24 bits. -/
theorem observe_builtPacket (type : MessageType) (code : Code) (mid : UInt16)
    (calls : List SetterCall) : (builtPacket type code mid calls).type = type ∧
      0x00FFFFFF &&& (builtPacket type code mid calls).observe =
        (builtPacket type code mid calls).observe := by
  refine List.foldlRecOn (motive := fun packet : Packet => packet.type = type ∧
    0x00FFFFFF &&& packet.observe = packet.observe) calls SetterCall.apply ⟨rfl, UInt32.and_zero⟩
    fun packet h call _ => ?_
  cases call with
  | observe value =>
    refine ⟨h.1, ?_⟩
    change 0x00FFFFFF &&& (0x00FFFFFF &&& value) = 0x00FFFFFF &&& value
    rw [← UInt32.and_assoc, UInt32.and_self]
  | statusCode =>
    simp only [SetterCall.apply]
    unfold Packet.coapSetStatusCode
    split_ifs <;> exact h
  | accept =>
    simp only [SetterCall.apply]
    unfold Packet.coapSetHeaderAccept
    split_ifs <;> exact h
  | block2 =>
    simp only [SetterCall.apply]
    unfold Packet.coapSetHeaderBlock2
    split_ifs <;> exact h
  | block1 =>
    simp only [SetterCall.apply]
    unfold Packet.coapSetHeaderBlock1
    split_ifs <;> exact h
  | _ => exact h

/-- A transaction whose message was sent. -/
structure WasSent (packet : Packet) (transaction : Transaction) : Prop where
  peerH : transaction.peerH ≠ none
  buffer : transaction.buffer = some (coapSerializeMessage packet)
  length : (coapSerializeMessage packet).length < 65536

/-! ### When the clone is the request again -/

/-- The clone is the request again: only the message-id and the block options differ. -/
structure SameRequestAgain (packet : Packet) (transaction clone : Transaction) : Prop where
  peerH : clone.peerH = transaction.peerH
  type : clone.message.type = packet.type
  code : clone.message.code = packet.code
  token : clone.message.token = packet.token
  isOption : ∀ o ∉ [CoapOption.token, .block1, .block2],
    clone.message.isOption o = packet.isOption o
  option : ∀ o ∉ [CoapOption.token, .block1, .block2], packet.isOption o = true →
    SameOption packet clone.message o
  payload : clone.payload = transaction.payload
  callback : clone.callback = transaction.callback
  userData : clone.userData = transaction.userData
  responseTimeout : clone.responseTimeout = transaction.responseTimeout

/-- What the clone of a request keeps. -/
structure Clonable (packet : Packet) (transaction : Transaction) : Prop where
  contentType : packet.isOption .contentType = true
  maxAge : packet.isOption .maxAge = false
  size : packet.isOption .size = false
  proxyUri : packet.isOption .proxyUri = false
  uriHost : packet.uriHost = []
  locationQuery : packet.locationQuery = []
  responseTimeout : transaction.responseTimeout = 0

/-- The message of a request, parsed again. -/
def parsedAgain (packet : Packet) (bits : BitVec 40) : Packet :=
  { readBack packet (readOptions packet) bits with payload := packet.payload }

section clone

variable {packet : Packet} {transaction : Transaction} {bits : BitVec 40}

/-- The bits of the message that is parsed again. -/
theorem isOption_parsedAgain (hbits : ∀ o, bits.getLsbD o.number = readOptions packet o)
    (ho : o ∉ [CoapOption.token, .proxyUri]) :
    (parsedAgain packet bits).isOption o = packet.isOption o := by
  refine (hbits o).trans (readOptions_of_mem ?_ ?_)
  · rintro rfl
    exact ho (by decide)
  · cases o <;> first | decide | exact absurd (by decide) ho

/-- Options with one value are the same when their values are. -/
theorem SameOption.trans {packet packet' packet'' : Packet} (h : SameOption packet packet' o)
    (h' : SameOption packet' packet'' o) :
    SameOption packet packet'' o := by
  cases o with
  | ifNoneMatch => trivial
  | block2 | block1 =>
    obtain ⟨hnum, hmore, hsize⟩ := h
    obtain ⟨hnum', hmore', hsize'⟩ := h'
    exact ⟨hnum'.trans hnum, hmore'.trans hmore, hsize'.trans hsize⟩
  | _ => exact Eq.trans h' h

/-- The clone of a message that was parsed again. -/
def cloneOf (transaction : Transaction) (message : Packet) (nextMID : UInt16) : Transaction :=
  { mID := nextMID
    peerH := transaction.peerH
    message := copyOptions message (cloneMessage message nextMID)
    payload := transaction.payload
    callback := transaction.callback
    userData := transaction.userData }

/-- A clone is made when no string has to be copied. -/
theorem prvCreateNextBlockTransaction_eq_some_iff (h : WasSent packet transaction)
    (hparse : coapParseMessage (coapSerializeMessage packet) =
      .ok (noError, parsedAgain packet bits)) {nextMID : UInt16} {clone : Transaction} :
    prvCreateNextBlockTransaction transaction nextMID = .ok (some clone) ↔
      clone = cloneOf transaction (parsedAgain packet bits) nextMID ∧
        (parsedAgain packet bits).uriHost = [] ∧ (parsedAgain packet bits).locationQuery = [] := by
  have hproxy : (parsedAgain packet bits).proxyUri = [] := rfl
  unfold prvCreateNextBlockTransaction
  rw [h.buffer]
  dsimp only [Option.getD_some]
  rw [hparse, ok_bind]
  rw [if_neg (not_not.mpr rfl), transactionNew_eq h.peerH]
  dsimp only
  rw [hproxy]
  by_cases hempty : (parsedAgain packet bits).uriHost = [] ∧
      (parsedAgain packet bits).locationQuery = []
  · rw [if_neg (by simp [hempty])]
    simp only [hempty, and_self, and_true]
    constructor
    · intro hclone
      cases hclone
      rfl
    · rintro rfl
      rfl
  · rw [if_pos (by
      by_contra hnone
      push Not at hnone
      exact hempty hnone.2)]
    constructor
    · nofun
    · exact fun hand => absurd hand.2 hempty

/-- The message of a clone, option by option. -/
theorem message_cloneOf (transaction : Transaction) (h : Built packet)
    (hbits : ∀ o, bits.getLsbD o.number = readOptions packet o) (nextMID : UInt16) :
    (cloneOf transaction (parsedAgain packet bits) nextMID).message =
      copiedOptions.foldl (copyOption (parsedAgain packet bits))
        ((cloneMessage (parsedAgain packet bits) nextMID).coapSetHeaderContentType
          (parsedAgain packet bits).type.field.toUInt32) := by
  obtain ⟨hbit, hlength⟩ := h .accept
  have hread : (parsedAgain packet bits).accept = packet.accept := by
    change (if readOptions packet .accept = true then packet.accept else []) = packet.accept
    rw [readOptions_of_mem (by decide) (by decide), hbit]
    by_cases hnil : packet.accept = []
    · rw [hnil]
      rfl
    · rw [decide_eq_true hnil, if_pos rfl]
  refine copyOptions_eq_foldl ?_ ?_ ?_
  · exact cloneMessage_frame Packet.accept (fun _ _ => rfl) (fun _ _ => rfl)
  · rw [hread, isOption_parsedAgain hbits (by decide), hbit]
  · rw [hread]
    exact hlength

/-- The options of a clone: those that are copied, and a content type. -/
theorem isOption_cloneOf (h : Built packet)
    (hbits : ∀ o, bits.getLsbD o.number = readOptions packet o) (nextMID : UInt16)
    (ho : o ∉ [CoapOption.token, .proxyUri]) :
    (cloneOf transaction (parsedAgain packet bits) nextMID).message.isOption o =
      (decide (o = .contentType) || packet.isOption o && decide (o ∈ copiedOptions)) := by
  have htoken : o ≠ .token := by
    rintro rfl
    exact ho (by decide)
  have htype : ((cloneMessage (parsedAgain packet bits) nextMID).coapSetHeaderContentType
      (parsedAgain packet bits).type.field.toUInt32).isOption o =
        ((cloneMessage (parsedAgain packet bits) nextMID).isOption o ||
          decide (o = .contentType)) := Packet.isOption_markOption _ _ _
  rw [message_cloneOf _ h hbits, isOption_foldl_copyOption (fun _ ho => ho), htype,
    isOption_cloneMessage, isOption_parsedAgain hbits ho, decide_eq_false htoken]
  simp

/-- The copied options of a clone have the values of the message that was parsed again. -/
theorem sameOption_cloneOf (transaction : Transaction) (h : Built packet)
    (hbits : ∀ o, bits.getLsbD o.number = readOptions packet o)
    (hobserve : 0x00FFFFFF &&& packet.observe = packet.observe) (nextMID : UInt16)
    (ho : o ∈ copiedOptions) (hset : packet.isOption o = true) :
    SameOption (parsedAgain packet bits)
      (cloneOf transaction (parsedAgain packet bits) nextMID).message o := by
  have hlength (b : Bool) {value : List Byte} (hvalue : value.length ≤ coapEtagLen) :
      (if b = true then value else []).length ≤ coapEtagLen := by
    split_ifs
    · exact hvalue
    · exact Nat.zero_le _
  have hother : o ∉ [CoapOption.token, .proxyUri] :=
    (by decide : ∀ o ∈ copiedOptions, o ∉ [CoapOption.token, .proxyUri]) o ho
  have hread : (parsedAgain packet bits).isOption o = true :=
    (isOption_parsedAgain hbits hother).trans hset
  rw [message_cloneOf _ h hbits]
  refine sameOption_foldl_copyOption_of_mem (by decide) ho (fun _ ho => ho) hread
    (hlength _ (h .etag)) (hlength _ (h .ifMatch)) ?_
  change 0x00FFFFFF &&& (if readOptions packet .observe = true then packet.observe else 0) =
    if readOptions packet .observe = true then packet.observe else 0
  split_ifs
  · exact hobserve
  · exact UInt32.and_zero

/-- No string of a clonable request has to be copied. -/
theorem parsedAgain_empty (hclonable : Clonable packet transaction) :
    (parsedAgain packet bits).uriHost = [] ∧ (parsedAgain packet bits).locationQuery = [] := by
  have hmerge : (splitParts [] 0x26 0 0).foldl (coapMergeMultiOption · · 0x26) [] = [] :=
    (foldl_merge_eq_iff []).mpr ⟨by simp, by simp [lostSplitters, trailingSplitters]⟩
  constructor
  · change (if readOptions packet .uriHost = true then packet.uriHost else []) = []
    rw [hclonable.uriHost]
    split_ifs <;> rfl
  · change (if readOptions packet .locationQuery = true then
      (splitParts packet.locationQuery 0x26 0 0).foldl (coapMergeMultiOption · · 0x26) []
      else []) = []
    rw [hclonable.locationQuery, hmerge]
    split_ifs <;> rfl

/-- The clone of a parsed message is the request again when it is clonable. -/
theorem sameRequestAgain_cloneOf (h : Built packet) (htype : packet.type = .con)
    (hobserve : 0x00FFFFFF &&& packet.observe = packet.observe)
    (hbits : ∀ o, bits.getLsbD o.number = readOptions packet o)
    (hclonable : Clonable packet transaction) (nextMID : UInt16) :
    SameRequestAgain packet transaction
      (cloneOf transaction (parsedAgain packet bits) nextMID) := by
  have hheader := header_foldl_copyOption (parsedAgain packet bits)
    ((cloneMessage (parsedAgain packet bits) nextMID).coapSetHeaderContentType
      (parsedAgain packet bits).type.field.toUInt32) copiedOptions
  rw [← message_cloneOf transaction h hbits] at hheader
  obtain ⟨htype', hcode', htoken'⟩ := hheader
  -- the options that are not copied are not set
  have hcopied {o : CoapOption} (ho : o ∉ [CoapOption.token, .block1, .block2])
      (hset : packet.isOption o = true) : o ∈ copiedOptions := by
    cases o with
    | token | block1 | block2 => exact absurd (by decide) ho
    | maxAge => exact absurd (hclonable.maxAge.symm.trans hset) Bool.false_ne_true
    | size => exact absurd (hclonable.size.symm.trans hset) Bool.false_ne_true
    | proxyUri => exact absurd (hclonable.proxyUri.symm.trans hset) Bool.false_ne_true
    | _ => decide
  refine ⟨rfl, ?_, ?_, ?_, fun o ho => ?_, fun o ho hset => ?_, rfl, rfl, rfl,
    hclonable.responseTimeout.symm⟩
  · rw [htype', htype]
    exact cloneMessage_frame Packet.type (fun _ _ => rfl) (fun _ _ => rfl)
  · rw [hcode']
    exact cloneMessage_frame Packet.code (fun _ _ => rfl) (fun _ _ => rfl)
  · exact htoken'.trans (cloneMessage_token (h .token).1)
  · by_cases hproxy : o = .proxyUri
    · rw [hproxy, hclonable.proxyUri, message_cloneOf _ h hbits,
        isOption_foldl_copyOption (fun _ ho => ho)]
      have hclone : ((cloneMessage (parsedAgain packet bits) nextMID).coapSetHeaderContentType
          (parsedAgain packet bits).type.field.toUInt32).isOption .proxyUri =
            ((cloneMessage (parsedAgain packet bits) nextMID).isOption .proxyUri ||
              decide (CoapOption.proxyUri = .contentType)) := Packet.isOption_markOption _ _ _
      rw [hclone, isOption_cloneMessage]
      simp [copiedOptions]
    · have hother : o ∉ [CoapOption.token, .proxyUri] := by
        simp only [List.mem_cons, List.not_mem_nil, or_false, not_or] at ho ⊢
        exact ⟨ho.1, hproxy⟩
      rw [isOption_cloneOf h hbits nextMID hother]
      by_cases hcontent : o = .contentType
      · rw [hcontent, hclonable.contentType]
        rfl
      · cases hset : packet.isOption o with
        | false => simp [hcontent]
        | true => simp [hcopied ho hset]
  · have hvalue := sameOption_cloneOf transaction h hbits hobserve nextMID
      (hcopied ho hset) hset
    by_cases hquery : o = .locationQuery
    · subst hquery
      exact Eq.trans hvalue ((parsedAgain_empty hclonable).2.trans hclonable.locationQuery.symm)
    · refine SameOption.trans (sameOption_readBack ?_ hset) hvalue
      simp only [List.mem_cons, List.not_mem_nil, or_false, not_or] at ho ⊢
      refine ⟨hquery, ho.2.2, ho.2.1, ?_⟩
      rintro rfl
      exact absurd (hclonable.proxyUri.symm.trans hset) Bool.false_ne_true

/-- A request whose clone is the request again is clonable. -/
theorem clonable_of_sameRequestAgain (h : Built packet)
    (hobserve : 0x00FFFFFF &&& packet.observe = packet.observe)
    (hbits : ∀ o, bits.getLsbD o.number = readOptions packet o)
    (hproxy : packet.isOption .proxyUri = false)
    (hhost : (parsedAgain packet bits).uriHost = [])
    (hquery : (parsedAgain packet bits).locationQuery = []) {nextMID : UInt16}
    (hsame : SameRequestAgain packet transaction
      (cloneOf transaction (parsedAgain packet bits) nextMID)) :
    Clonable packet transaction := by
  have hisOption {o : CoapOption} (ho : o ∉ [CoapOption.token, .block1, .block2])
      (ho' : o ∉ [CoapOption.token, .proxyUri]) := (hsame.isOption o ho).symm.trans
    (isOption_cloneOf h hbits nextMID ho')
  refine ⟨?_, ?_, ?_, hproxy, ?_, ?_, hsame.responseTimeout.symm⟩
  · rw [hisOption (by decide) (by decide), decide_eq_true rfl, Bool.true_or]
  · rw [hisOption (by decide) (by decide)]
    simp [copiedOptions]
  · rw [hisOption (by decide) (by decide)]
    simp [copiedOptions]
  · cases hset : packet.isOption .uriHost with
    | false => exact h .uriHost hset
    | true =>
      have hread : (parsedAgain packet bits).uriHost = packet.uriHost :=
        sameOption_readBack (o := .uriHost) (by decide) hset
      exact hread.symm.trans hhost
  · cases hset : packet.isOption .locationQuery with
    | false => exact h .locationQuery hset
    | true =>
      have hclone := sameOption_cloneOf transaction h hbits hobserve nextMID
        (o := .locationQuery) (by decide) hset
      exact (hsame.option .locationQuery (by decide) hset).symm.trans (Eq.trans hclone hquery)

end clone

/-- **When the next request is the request before.**  The clone has its type, code, peer, token,
callback, user data, timeout and payload, and the same options with the same values but for the
block options, if and only if the request has a Content-Format, no Max-Age, Size1 or Proxy-Uri, no
host and no location query with a byte in it, and no response timeout. -/
theorem prvCreateNextBlockTransaction_clone_iff (code : Code) (mid nextMID : UInt16)
    (calls : List SetterCall) {transaction : Transaction}
    (hsent : WasSent (builtPacket .con code mid calls) transaction) :
    (∃ clone, prvCreateNextBlockTransaction transaction nextMID = .ok (some clone) ∧
        SameRequestAgain (builtPacket .con code mid calls) transaction clone) ↔
      Clonable (builtPacket .con code mid calls) transaction := by
  have h := built_builtPacket .con code mid calls
  obtain ⟨htype, hobserve⟩ := observe_builtPacket .con code mid calls
  generalize builtPacket .con code mid calls = packet at *
  have hlength : messageLength packet < 65536 := by
    rw [← coapSerializeMessage_length h]
    exact hsent.length
  obtain ⟨bits, hbits, hplain, hproxied⟩ := coapParseMessage_readBack h hlength
  cases hproxy : packet.isOption .proxyUri with
  | true =>
    -- a message with a Proxy-Uri is refused by the parser
    obtain ⟨packet', hparse⟩ := hproxied hproxy
    have hnone : prvCreateNextBlockTransaction transaction nextMID = .ok none := by
      unfold prvCreateNextBlockTransaction
      rw [hsent.buffer]
      dsimp only [Option.getD_some]
      rw [hparse, ok_bind]
      rfl
    rw [hnone]
    constructor
    · rintro ⟨clone, hclone, -⟩
      exact absurd (Except.ok.inj hclone) (Option.some_ne_none clone).symm
    · intro hclonable
      exact absurd (hclonable.proxyUri.symm.trans hproxy) Bool.false_ne_true
  | false =>
    have hparse := hplain hproxy
    simp only [prvCreateNextBlockTransaction_eq_some_iff hsent hparse]
    constructor
    · rintro ⟨clone, ⟨rfl, hhost, hquery⟩, hsame⟩
      exact clonable_of_sameRequestAgain h hobserve hbits hproxy hhost hquery hsame
    · intro hclonable
      exact ⟨_, ⟨rfl, parsedAgain_empty hclonable⟩,
        sameRequestAgain_cloneOf h htype hobserve hbits hclonable nextMID⟩

/-- The transaction of a request, sent. -/
def sentTransaction (packet : Packet) : Transaction :=
  { mID := packet.mid
    peerH := some 1
    message := packet.serialized
    buffer := some (coapSerializeMessage packet) }

/-- A write of a value that is sent block by block. -/
theorem prvCreateNextBlockTransaction_clone_write :
    ∃ clone, prvCreateNextBlockTransaction (sentTransaction (builtPacket .con 3 1
        [.token [7], .uriPathSegment [0x31], .contentType 0, .block1 0 1 16])) 2 =
          .ok (some clone) ∧
      SameRequestAgain (builtPacket .con 3 1
          [.token [7], .uriPathSegment [0x31], .contentType 0, .block1 0 1 16])
        (sentTransaction (builtPacket .con 3 1
          [.token [7], .uriPathSegment [0x31], .contentType 0, .block1 0 1 16])) clone :=
  (prvCreateNextBlockTransaction_clone_iff 3 1 2
    [.token [7], .uriPathSegment [0x31], .contentType 0, .block1 0 1 16]
    ⟨by decide, rfl, by decide⟩).mpr ⟨rfl, rfl, rfl, rfl, rfl, rfl, rfl⟩

/-- A read of resource 3, sent. -/
def readRequest : Packet := builtPacket .con 1 1 [.token [7], .uriPathSegment [0x33], .accept 110]

/-- A read has no Content-Format, and the request for the next block of its response has one. -/
theorem prvCreateNextBlockTransaction_clone_read :
    ∃ clone, prvCreateNextBlockTransaction (sentTransaction readRequest) 2 = .ok (some clone) ∧
      ¬ SameRequestAgain readRequest (sentTransaction readRequest) clone := by
  have h : Built readRequest := built_builtPacket .con 1 1 _
  have hsent : WasSent readRequest (sentTransaction readRequest) := ⟨by decide, rfl, by decide⟩
  have hlength : messageLength readRequest < 65536 := by
    rw [← coapSerializeMessage_length h]
    exact hsent.length
  obtain ⟨bits, hbits, hplain, -⟩ := coapParseMessage_readBack h hlength
  refine ⟨_, (prvCreateNextBlockTransaction_eq_some_iff hsent (hplain rfl)).mpr ⟨rfl, rfl, rfl⟩,
    fun hsame => ?_⟩
  have hbit := hsame.isOption .contentType (by decide)
  rw [isOption_cloneOf h hbits 2 (by decide)] at hbit
  exact absurd hbit (by decide)

end Lwm2m.Core

/-
# Building a packet

The setters of `coap/er-coap-13/er-coap-13.c` that the client itself does not call stand
here beside a call of any setter (`SetterCall`).  A packet is built by `coap_init_message` and
calls in any order (`builtPacket`); what the setters keep is one condition for each
option, on its value and its bit (`OptionBuilt`, `built_builtPacket`).
-/

import Lwm2m.Coap.Packet

namespace Lwm2m.Coap

/-! ### Setters -/

/-- The parts of a string between separators.  A separator at its end is not followed by a
part. -/
def splitSegments (separator : Byte) (segment : List Byte) : CString → List (List Byte)
  | [] => [segment]
  | b :: path =>
    if b = separator then
      if path = [] then [segment] else segment :: splitSegments separator [] path
    else splitSegments separator (segment ++ [b]) path

/-- The string behind a first character `c`, or the string when it starts with another. -/
def skipFirst (c : Byte) (string : CString) : CString :=
  if string.head? = some c then string.tail else string

namespace Packet

/-- `coap_set_status_code`. -/
def coapSetStatusCode (packet : Packet) (code : UInt32) : Packet :=
  if code ≤ 0xFF then { packet with code := code.toUInt8 } else packet

/-- `coap_set_header_max_age`. -/
def coapSetHeaderMaxAge (packet : Packet) (age : UInt32) : Packet :=
  { packet with maxAge := age }.markOption .maxAge

/-- `coap_set_header_proxy_uri`. -/
def coapSetHeaderProxyUri (packet : Packet) (uri : CString) : Packet :=
  { packet with proxyUri := uri }.markOption .proxyUri

/-- `coap_set_header_uri_host`. -/
def coapSetHeaderUriHost (packet : Packet) (host : CString) : Packet :=
  { packet with uriHost := host }.markOption .uriHost

/-- `coap_set_header_uri_path`; the separator is '/'. -/
def coapSetHeaderUriPath (packet : Packet) (path : CString) : Packet :=
  { packet with
    uriPath := (splitSegments 0x2F [] (skipFirst 0x2F path)).foldl coapAddMultiOption []
  }.markOption .uriPath

/-- `coap_set_header_uri_query`; the query starts with '?', and the separator is '&'. -/
def coapSetHeaderUriQuery (packet : Packet) (query : CString) : Packet :=
  { packet with
    uriQuery := (splitSegments 0x26 [] (skipFirst 0x3F query)).foldl coapAddMultiOption []
  }.markOption .uriQuery

/-- `coap_set_header_uri_query_segment`. -/
def coapSetHeaderUriQuerySegment (packet : Packet) (segment : CString) : Packet :=
  { packet with uriQuery := coapAddMultiOption packet.uriQuery segment }.markOption .uriQuery

/-- `coap_set_header_location_path`. -/
def coapSetHeaderLocationPath (packet : Packet) (path : CString) : Packet :=
  { packet with
    locationPath := (splitSegments 0x2F [] (skipFirst 0x2F path)).foldl coapAddMultiOption []
  }.markOption .locationPath

/-- `coap_set_header_location_query`, which drops every '?' at the start. -/
def coapSetHeaderLocationQuery (packet : Packet) (query : CString) : Packet :=
  { packet with locationQuery := query.dropWhile (· = 0x3F) }.markOption .locationQuery

/-- `coap_set_header_size`. -/
def coapSetHeaderSize (packet : Packet) (size : UInt32) : Packet :=
  { packet with size }.markOption .size

end Packet

/-! ### Packets that the setters build -/

/-- A call of a setter. -/
inductive SetterCall
  | statusCode (code : UInt32)
  | contentType (contentType : UInt32)
  | accept (accept : UInt16)
  | maxAge (age : UInt32)
  | etag (etag : List Byte)
  | ifMatch (etag : List Byte)
  | ifNoneMatch
  | token (token : List Byte)
  | proxyUri (uri : CString)
  | uriHost (host : CString)
  | uriPath (path : CString)
  | uriPathSegment (segment : CString)
  | uriPort (port : UInt16)
  | uriQuery (query : CString)
  | uriQuerySegment (segment : CString)
  | locationPath (path : CString)
  | locationQuery (query : CString)
  | observe (observe : UInt32)
  | block2 (num : UInt32) (more : UInt8) (size : UInt16)
  | block1 (num : UInt32) (more : UInt8) (size : UInt16)
  | size (size : UInt32)
  | payload (payload : List Byte)
  deriving DecidableEq, Repr

/-- The packet after a call. -/
def SetterCall.apply (packet : Packet) : SetterCall → Packet
  | .statusCode c => packet.coapSetStatusCode c
  | .contentType value => packet.coapSetHeaderContentType value
  | .accept value => packet.coapSetHeaderAccept value
  | .maxAge age => packet.coapSetHeaderMaxAge age
  | .etag value => packet.coapSetHeaderEtag value
  | .ifMatch value => packet.coapSetHeaderIfMatch value
  | .ifNoneMatch => packet.coapSetHeaderIfNoneMatch
  | .token value => packet.coapSetHeaderToken value
  | .proxyUri uri => packet.coapSetHeaderProxyUri uri
  | .uriHost host => packet.coapSetHeaderUriHost host
  | .uriPath path => packet.coapSetHeaderUriPath path
  | .uriPathSegment segment => packet.coapSetHeaderUriPathSegment segment
  | .uriPort port => packet.coapSetHeaderUriPort port
  | .uriQuery query => packet.coapSetHeaderUriQuery query
  | .uriQuerySegment segment => packet.coapSetHeaderUriQuerySegment segment
  | .locationPath path => packet.coapSetHeaderLocationPath path
  | .locationQuery query => packet.coapSetHeaderLocationQuery query
  | .observe value => packet.coapSetHeaderObserve value
  | .block2 num more blockSize => packet.coapSetHeaderBlock2 num more blockSize
  | .block1 num more blockSize => packet.coapSetHeaderBlock1 num more blockSize
  | .size value => packet.coapSetHeaderSize value
  | .payload value => packet.coapSetPayload value

/-- The packet after `coap_init_message` and some calls. -/
def builtPacket (type : MessageType) (code : Code) (mid : UInt16) (calls : List SetterCall) :
    Packet :=
  calls.foldl SetterCall.apply (coapInitMessage type code mid)

/-! ### What the setters keep -/

/-- A list of options that is there when its bit is set. -/
def MultiBuilt (isSet : Bool) (array : List (List Byte)) : Prop :=
  isSet = decide (array ≠ []) ∧ ∀ value ∈ array, value.length < 256

/-- A block option in the range that the setters check. -/
def BlockBuilt (b : BlockFields) : Prop :=
  b.num.toNat < 2 ^ 20 ∧ 16 ≤ b.size.toNat ∧ b.size.toNat ≤ 2048

/-- What the setters keep of an option, from its bit. -/
def OptionBuilt (packet : Packet) (isSet : Bool) : CoapOption → Prop
  | .token => packet.token.length ≤ coapTokenLen ∧ (isSet = false → packet.token = [])
  | .etag => packet.etag.length ≤ coapEtagLen
  | .ifMatch => packet.ifMatch.length ≤ coapEtagLen
  | .uriHost => isSet = false → packet.uriHost = []
  | .locationPath => MultiBuilt isSet packet.locationPath
  | .uriPath => MultiBuilt isSet packet.uriPath
  | .uriQuery => MultiBuilt isSet packet.uriQuery
  | .accept => isSet = decide (packet.accept ≠ []) ∧ packet.accept.length ≤ coapMaxAcceptNum
  | .locationQuery => isSet = false → packet.locationQuery = []
  | .block2 => isSet = true →
    BlockBuilt packet.block2 ∧ (packet.block2.more = 0 ∨ packet.block2.more = 1)
  | .block1 => isSet = true → BlockBuilt packet.block1
  | .proxyUri => isSet = false → packet.proxyUri = []
  | .ifNoneMatch | .observe | .uriPort | .contentType | .maxAge | .size => True

/-- What the setters keep of a packet. -/
def Built (packet : Packet) : Prop := ∀ o, OptionBuilt packet (packet.isOption o) o

theorem multiOption_length_lt (option : List Byte) : (multiOption option).length < 256 := by
  have := Nat.mod_lt option.length (show 0 < 256 by decide)
  rw [multiOption, List.length_take]
  omega

/-- One more entry of a list of options. -/
theorem multiBuilt_coapAddMultiOption {isSet : Bool} {dst : List (List Byte)}
    (h : MultiBuilt isSet dst) (option : List Byte) :
    MultiBuilt true (coapAddMultiOption dst option) := by
  refine ⟨(decide_eq_true (List.append_ne_nil_of_right_ne_nil _ (List.cons_ne_nil _ _))).symm,
    fun value hvalue => ?_⟩
  rcases List.mem_append.mp hvalue with hvalue | hvalue
  · exact h.2 value hvalue
  · rw [List.mem_singleton.mp hvalue]
    exact multiOption_length_lt option

/-- A string is cut into one part at least. -/
theorem splitSegments_ne_nil (separator : Byte) (segment : List Byte) (path : CString) :
    splitSegments separator segment path ≠ [] := by
  induction path generalizing segment with
  | nil => exact List.cons_ne_nil _ _
  | cons b path ih =>
    unfold splitSegments
    split_ifs
    · exact List.cons_ne_nil _ _
    · exact List.cons_ne_nil _ _
    · exact ih _

/-- A list of options made from a string. -/
theorem multiBuilt_splitSegments (separator : Byte) (path : CString) :
    MultiBuilt true ((splitSegments separator [] path).foldl coapAddMultiOption []) := by
  have hfold (parts : List (List Byte)) (dst : List (List Byte)) (isSet : Bool)
      (h : MultiBuilt isSet dst) (hne : parts ≠ []) :
      MultiBuilt true (parts.foldl coapAddMultiOption dst) := by
    induction parts generalizing dst isSet with
    | nil => exact absurd rfl hne
    | cons part parts ih =>
      have hadd := multiBuilt_coapAddMultiOption h part
      by_cases hnil : parts = []
      · rw [hnil]
        exact hadd
      · exact ih _ true hadd hnil
  exact hfold _ [] false ⟨rfl, fun _ h => absurd h List.not_mem_nil⟩ (splitSegments_ne_nil _ _ _)

variable {packet packet' : Packet}

/-- A setter that stores the value of one option and marks it. -/
theorem Built.markOption (h : Built packet) (o : CoapOption)
    (hoptions : packet'.options = packet.options)
    (hother : ∀ o', o' ≠ o → ∀ b, OptionBuilt packet b o' → OptionBuilt packet' b o')
    (hset : OptionBuilt packet' true o) : Built (packet'.markOption o) := by
  have hfields (b : Bool) (o' : CoapOption) (h' : OptionBuilt packet' b o') :
      OptionBuilt (packet'.markOption o) b o' := by
    cases o' <;> exact h'
  have hbit (o' : CoapOption) : packet'.isOption o' = packet.isOption o' := by
    rw [Packet.isOption, hoptions, Packet.isOption]
  intro o'
  rw [Packet.isOption_markOption]
  refine hfields _ o' ?_
  by_cases heq : o' = o
  · rw [heq, decide_eq_true rfl, Bool.or_true]
    exact hset
  · rw [decide_eq_false heq, Bool.or_false, hbit]
    exact hother o' heq _ (h o')

/-- The ranges that the block setters check. -/
theorem blockBuilt_of_not {num : UInt32} {size : UInt16} (hsmall : ¬ size < 16)
    (hlarge : ¬ size > 2048) (hnum : ¬ num > 0x0FFFFF) {b : BlockFields} (hb : b.num = num)
    (hb' : b.size = size) : BlockBuilt b := by
  rw [UInt16.lt_iff_toNat_lt] at hsmall
  rw [gt_iff_lt, UInt16.lt_iff_toNat_lt] at hlarge
  rw [gt_iff_lt, UInt32.lt_iff_toNat_lt] at hnum
  have h16 : (16 : UInt16).toNat = 16 := rfl
  have h2048 : (2048 : UInt16).toNat = 2048 := rfl
  have hmax : (0x0FFFFF : UInt32).toNat = 2 ^ 20 - 1 := rfl
  rw [BlockBuilt, hb, hb']
  omega

/-- A setter that does not mark an option and stores no value of one. -/
theorem Built.congr (h : Built packet) (hoptions : packet'.options = packet.options)
    (hsame : ∀ o b, OptionBuilt packet b o → OptionBuilt packet' b o) : Built packet' := by
  intro o
  have hbit : packet'.isOption o = packet.isOption o := by
    rw [Packet.isOption, hoptions, Packet.isOption]
  rw [hbit]
  exact hsame o _ (h o)

theorem Built.coapSetHeaderAccept (h : Built packet) (accept : UInt16) :
    Built (packet.coapSetHeaderAccept accept) := by
  unfold Packet.coapSetHeaderAccept
  split_ifs with hlt
  · refine Built.markOption h .accept rfl (fun o ho b hb => ?_) ⟨?_, ?_⟩
    · cases o <;> first | exact hb | exact absurd rfl ho
    · exact (decide_eq_true (List.append_ne_nil_of_right_ne_nil _ (List.cons_ne_nil _ _))).symm
    · rw [List.length_append]
      exact hlt
  · exact h

theorem Built.coapSetHeaderBlock1 (h : Built packet) (num : UInt32) (more : UInt8) (size : UInt16) :
    Built (packet.coapSetHeaderBlock1 num more size) := by
  unfold Packet.coapSetHeaderBlock1
  split_ifs with hsmall hlarge hnum
  · exact h
  · exact h
  · exact h
  · refine Built.markOption h .block1 rfl (fun o ho b hb => ?_)
      fun _ => blockBuilt_of_not hsmall hlarge hnum rfl rfl
    cases o <;> first | exact hb | exact absurd rfl ho

theorem Built.coapSetHeaderBlock2 (h : Built packet) (num : UInt32) (more : UInt8) (size : UInt16) :
    Built (packet.coapSetHeaderBlock2 num more size) := by
  have hmore : (if more ≠ 0 then (1 : UInt8) else 0) = 0 ∨
      (if more ≠ 0 then (1 : UInt8) else 0) = 1 := by
    rcases ite_eq_or_eq (more ≠ 0) (1 : UInt8) 0 with h | h
    · exact .inr h
    · exact .inl h
  unfold Packet.coapSetHeaderBlock2
  by_cases hsmall : size < 16
  · rw [if_pos hsmall]
    exact h
  by_cases hlarge : size > 2048
  · rw [if_neg hsmall, if_pos hlarge]
    exact h
  by_cases hnum : num > 0x0FFFFF
  · rw [if_neg hsmall, if_neg hlarge, if_pos hnum]
    exact h
  rw [if_neg hsmall, if_neg hlarge, if_neg hnum]
  refine Built.markOption h .block2 rfl (fun o ho b hb => ?_)
    fun _ => ⟨blockBuilt_of_not hsmall hlarge hnum rfl rfl, hmore⟩
  cases o <;> first | exact hb | exact absurd rfl ho

/-- **Every setter keeps what the setters keep.** -/
theorem Built.apply (h : Built packet) (call : SetterCall) :
    Built (call.apply packet) := by
  have hset {p : Prop} (hset : true = false) : p := by cases hset
  cases call
  case statusCode c =>
    change Built (packet.coapSetStatusCode c)
    unfold Packet.coapSetStatusCode
    split_ifs
    · exact h.congr rfl fun o b hb => by cases o <;> exact hb
    · exact h
  case payload => exact h.congr rfl fun o b hb => by cases o <;> exact hb
  case accept value => exact h.coapSetHeaderAccept value
  case block1 num more size => exact h.coapSetHeaderBlock1 num more size
  case block2 num more size => exact h.coapSetHeaderBlock2 num more size
  -- every other setter stores the value of one option and marks it
  all_goals
    refine Built.markOption h _ rfl (fun o ho b hb => ?_) ?_
    · cases o <;> first | exact hb | exact absurd rfl ho
  case token.refine_2 value => exact ⟨List.length_take_le _ value, hset⟩
  case etag.refine_2 value => exact List.length_take_le _ value
  case ifMatch.refine_2 value => exact List.length_take_le _ value
  case uriPath.refine_2 path => exact multiBuilt_splitSegments _ _
  case uriQuery.refine_2 query => exact multiBuilt_splitSegments _ _
  case locationPath.refine_2 path => exact multiBuilt_splitSegments _ _
  case uriPathSegment.refine_2 segment => exact multiBuilt_coapAddMultiOption (h .uriPath) segment
  case uriQuerySegment.refine_2 segment => exact multiBuilt_coapAddMultiOption (h .uriQuery) segment
  case uriHost.refine_2 => exact hset
  case locationQuery.refine_2 => exact hset
  case proxyUri.refine_2 => exact hset
  all_goals trivial

theorem built_coapInitMessage (type : MessageType) (code : Code) (mid : UInt16) :
    Built (coapInitMessage type code mid) := by
  have hbit (o : CoapOption) : (coapInitMessage type code mid).isOption o = false :=
    BitVec.getLsbD_zero
  have hmulti : MultiBuilt false [] := ⟨rfl, fun _ h => absurd h List.not_mem_nil⟩
  intro o
  rw [hbit]
  cases o
  case token => exact ⟨Nat.zero_le _, fun _ => rfl⟩
  case accept => exact ⟨rfl, Nat.zero_le _⟩
  case locationPath => exact hmulti
  case uriPath => exact hmulti
  case uriQuery => exact hmulti
  case block1 => exact fun h => by cases h
  case block2 => exact fun h => by cases h
  case etag => exact Nat.zero_le _
  case ifMatch => exact Nat.zero_le _
  case uriHost => exact fun _ => rfl
  case locationQuery => exact fun _ => rfl
  case proxyUri => exact fun _ => rfl
  all_goals trivial

/-- **Every packet that the setters build keeps what they keep.** -/
theorem built_builtPacket (type : MessageType) (code : Code) (mid : UInt16)
    (calls : List SetterCall) : Built (builtPacket type code mid calls) :=
  List.foldlRecOn (motive := Built) calls SetterCall.apply (built_coapInitMessage type code mid)
    fun _ h call _ => h.apply call

end Lwm2m.Coap

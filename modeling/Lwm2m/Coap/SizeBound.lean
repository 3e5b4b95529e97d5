/-
# The size of the buffer for a message

`coap_serialize_get_size` counts five header bytes for an option, or for an entry of one, beside
its content; for a number the five bytes stand for the header and the number.  What
`coap_serialize_message` writes is counted here byte for byte (`serializeOptions_length`), so the
buffer is large enough if and only if the extension bytes of the headers and the bytes of
the numbers fit in the four bytes that are left of each five (`HeadersFit`,
`coapSerializeMessage_length_le_iff`).

They do not when a number of four bytes stands more than twelve numbers behind the option before
it, which only Max-Age and Size can, and nothing else in the message has a byte to spare; and when
the Location-Query string, which is counted once, is written in many parts.
-/

import Lwm2m.Coap.LocationQuery
import Lwm2m.Coap.RoundTrip
import Lwm2m.Coap.Setters

namespace Lwm2m.Coap

/-! ### The bytes of a header -/

/-- The extension bytes of a delta or a length. -/
def extensionCount (x : ℕ) : ℕ := if x > 268 then 2 else if x > 12 then 1 else 0

/-- The bytes of a number without leading zeros. -/
def numberLength (value : UInt32) : ℕ :=
  if value.toNat < 1 then 0
  else if value.toNat < 2 ^ 8 then 1
  else if value.toNat < 2 ^ 16 then 2
  else if value.toNat < 2 ^ 24 then 3
  else 4

/-- What an option has beside a header byte for each entry and its content, but for the delta. -/
def extraBytes (packet : Packet) : CoapOption → ℕ
  | .ifMatch => extensionCount packet.ifMatch.length
  | .uriHost => extensionCount packet.uriHost.length
  | .etag => extensionCount packet.etag.length
  | .ifNoneMatch => 0
  | .observe => numberLength packet.observe
  | .uriPort => numberLength packet.uriPort.toUInt32
  | .locationPath => (packet.locationPath.map (extensionCount ·.length)).sum
  | .uriPath => (packet.uriPath.map (extensionCount ·.length)).sum
  | .contentType => numberLength packet.contentType
  | .maxAge => numberLength packet.maxAge
  | .uriQuery => (packet.uriQuery.map (extensionCount ·.length)).sum
  | .accept => (packet.accept.map (numberLength ·.toUInt32)).sum
  | .locationQuery =>
    ((splitParts packet.locationQuery 0x26 0 0).map (extensionCount ·.length)).sum
  | .block2 => numberLength (blockOptionValue packet.block2)
  | .block1 => numberLength (blockOptionValue packet.block1)
  | .size => numberLength packet.size
  | .proxyUri => extensionCount packet.proxyUri.length
  | .token => 0

/-- What the size computation leaves for it: four bytes for each entry, and the last '&' of
a Location-Query string when no part is written behind it. -/
def spareBytes (packet : Packet) : CoapOption → ℕ
  | .locationPath => 4 * packet.locationPath.length
  | .uriPath => 4 * packet.uriPath.length
  | .uriQuery => 4 * packet.uriQuery.length
  | .accept => 4 * packet.accept.length
  | .locationQuery => 4 + lostSplitters 0x26 packet.locationQuery
  | .token => 0
  | .ifMatch | .uriHost | .etag | .ifNoneMatch | .observe | .uriPort | .contentType | .maxAge
  | .block2 | .block1 | .size | .proxyUri => 4

/-- The options that are written. -/
def setOptions (packet : Packet) : List CoapOption := serializedOptions.filter packet.isOption

/-- The options more than twelve numbers behind the one before them, whose delta takes an
extension byte. -/
def farOptions (number : ℕ) : List CoapOption → ℕ
  | [] => 0
  | o :: options => (if o.number - number > 12 then 1 else 0) + farOptions o.number options

/-- The extension bytes of the headers and the bytes of the numbers fit in what the size
computation leaves for them. -/
def HeadersFit (packet : Packet) : Prop :=
  farOptions 0 (setOptions packet) + ((setOptions packet).map (extraBytes packet)).sum ≤
    ((setOptions packet).map (spareBytes packet)).sum

instance (packet : Packet) : Decidable (HeadersFit packet) := Nat.decLe _ _

theorem intOptionBytes_length_eq (value : UInt32) :
    (intOptionBytes value).length = numberLength value := by
  obtain ⟨h₃, h₂, h₁, h₀⟩ := and_high_eq_zero_iff value
  unfold intOptionBytes numberLength
  simp only [ne_eq, h₀, h₁, h₂, h₃, ite_not]
  by_cases hv₀ : value.toNat < 1
  · rw [if_pos (by omega), if_pos (by omega), if_pos (by omega), if_pos (by omega), if_pos hv₀]
    rfl
  rw [if_neg hv₀, if_neg (show ¬ value.toNat < 2 ^ 0 by omega)]
  by_cases hv₁ : value.toNat < 2 ^ 8
  · rw [if_pos (by omega), if_pos (by omega), if_pos hv₁, if_pos hv₁]
    rfl
  rw [if_neg hv₁, if_neg hv₁]
  by_cases hv₂ : value.toNat < 2 ^ 16
  · rw [if_pos (by omega), if_pos hv₂, if_pos hv₂]
    rfl
  rw [if_neg hv₂, if_neg hv₂]
  by_cases hv₃ : value.toNat < 2 ^ 24
  · rw [if_pos hv₃, if_pos hv₃]
    rfl
  · rw [if_neg hv₃, if_neg hv₃]
    rfl

/-! ### The bytes of an option -/

variable {packet : Packet} {w : OptionWriter} {o : CoapOption}

theorem option_bytes_length (w : OptionWriter) (o : CoapOption) (value : List Byte) :
    (w.option o value).bytes.length = w.bytes.length +
      (if o.number - w.currentNumber > 12 then 1 else 0) + extensionCount value.length +
      (value.length + 1) := by
  have hnumber := o.number_lt
  have hlength := option_length w o value
  rw [extensionBytes_length, extensionBytes_length,
    if_neg (show ¬ o.number - w.currentNumber > 268 by omega)] at hlength
  rw [hlength, extensionCount]
  omega

/-- Options of one number, of which only the first can have a delta. -/
theorem foldl_option_bytes_length {array : List (List Byte)} (hne : array ≠ [])
    (w : OptionWriter) (o : CoapOption) :
    (array.foldl (·.option o) w).currentNumber = o.number ∧
      (array.foldl (·.option o) w).bytes.length = w.bytes.length +
        (if o.number - w.currentNumber > 12 then 1 else 0) +
        (array.map (extensionCount ·.length)).sum + (array.map (·.length + 1)).sum := by
  induction array generalizing w with
  | nil => exact absurd rfl hne
  | cons value array ih =>
    have hone := option_bytes_length w o value
    simp only [List.foldl_cons, List.map_cons, List.sum_cons]
    by_cases hnil : array = []
    · rw [hnil]
      refine ⟨rfl, ?_⟩
      simp only [List.foldl_nil, List.map_nil, List.sum_nil]
      omega
    · obtain ⟨hnumber, hlength⟩ := ih hnil (w.option o value)
      have hnear : (w.option o value).currentNumber = o.number := rfl
      rw [hnear, Nat.sub_self, if_neg (by decide)] at hlength
      exact ⟨hnumber, by omega⟩

theorem intOption_bytes_length (w : OptionWriter) (o : CoapOption) (value : UInt32) :
    (w.intOption o value).bytes.length = w.bytes.length +
      (if o.number - w.currentNumber > 12 then 1 else 0) + numberLength value + 1 := by
  have hle := intOptionBytes_length value
  rw [OptionWriter.intOption, option_bytes_length, intOptionBytes_length_eq, extensionCount]
  rw [intOptionBytes_length_eq] at hle
  rw [if_neg (show ¬ numberLength value > 268 by omega),
    if_neg (show ¬ numberLength value > 12 by omega)]
  omega

/-- The five bytes that are counted for each entry. -/
theorem sum_header (array : List (List Byte)) :
    (array.map (coapMaxOptionHeaderLen + ·.length)).sum =
      4 * array.length + (array.map (·.length + 1)).sum := by
  have hmax : coapMaxOptionHeaderLen = 5 := rfl
  induction array with
  | nil => rfl
  | cons value array ih =>
    simp only [List.map_cons, List.sum_cons, List.length_cons]
    omega

/-- A list of options, each of which is counted. -/
theorem multiOption_length {isSet : Bool} {array : List (List Byte)} (h : MultiBuilt isSet array)
    (hset : isSet = true) (w : OptionWriter) (o : CoapOption) :
    (w.multiOption o array).bytes.length + 4 * array.length = w.bytes.length +
      (if o.number - w.currentNumber > 12 then 1 else 0) +
      (array.map (extensionCount ·.length)).sum +
      (array.map (coapMaxOptionHeaderLen + ·.length)).sum := by
  have hne : array ≠ [] := of_decide_eq_true (h.1.symm.trans hset)
  obtain ⟨-, hlength⟩ := foldl_option_bytes_length hne w o
  rw [OptionWriter.multiOption, hlength, sum_header]
  omega

/-- The Accept options, each of which is counted. -/
theorem foldl_accept_length {array : List UInt16} (hne : array ≠ []) (w : OptionWriter) :
    (array.foldl (fun w accept => w.intOption .accept accept.toUInt32) w).currentNumber =
        CoapOption.accept.number ∧
      (array.foldl (fun w accept => w.intOption .accept accept.toUInt32) w).bytes.length =
        w.bytes.length + (if CoapOption.accept.number - w.currentNumber > 12 then 1 else 0) +
        (array.map (numberLength ·.toUInt32)).sum + array.length := by
  induction array generalizing w with
  | nil => exact absurd rfl hne
  | cons value array ih =>
    have hone := intOption_bytes_length w .accept value.toUInt32
    simp only [List.foldl_cons, List.map_cons, List.sum_cons, List.length_cons]
    by_cases hnil : array = []
    · rw [hnil]
      refine ⟨rfl, ?_⟩
      simp only [List.foldl_nil, List.map_nil, List.sum_nil, List.length_nil]
      omega
    · obtain ⟨hnumber, hlength⟩ := ih hnil (w.intOption .accept value.toUInt32)
      have hnear : (w.intOption .accept value.toUInt32).currentNumber =
        CoapOption.accept.number := rfl
      rw [hnear, Nat.sub_self, if_neg (by decide)] at hlength
      exact ⟨hnumber, by omega⟩

/-- An option fits in what is counted for it when its extra bytes fit in the spare ones. -/
theorem writeOption_length (h : Built packet) (hset : packet.isOption o = true)
    (htoken : o ≠ .token) (w : OptionWriter) :
    (writeOption packet w o).currentNumber = o.number ∧
      (writeOption packet w o).bytes.length + spareBytes packet o = w.bytes.length +
        (if o.number - w.currentNumber > 12 then 1 else 0) + extraBytes packet o +
        optionSize packet o := by
  have hmax : coapMaxOptionHeaderLen = 5 := rfl
  have hbuilt := h o
  rw [hset] at hbuilt
  have hstring (o : CoapOption) (value : List Byte) : (w.option o value).bytes.length + 4 =
      w.bytes.length + (if o.number - w.currentNumber > 12 then 1 else 0) +
        extensionCount value.length + (coapMaxOptionHeaderLen + value.length) := by
    rw [option_bytes_length]
    omega
  have hint (o : CoapOption) (value : UInt32) : (w.intOption o value).bytes.length + 4 =
      w.bytes.length + (if o.number - w.currentNumber > 12 then 1 else 0) +
        numberLength value + coapMaxOptionHeaderLen := by
    rw [intOption_bytes_length]
    omega
  cases o with
  | ifMatch => exact ⟨rfl, hstring _ _⟩
  | uriHost => exact ⟨rfl, hstring _ _⟩
  | etag => exact ⟨rfl, hstring _ _⟩
  | proxyUri => exact ⟨rfl, hstring _ _⟩
  | observe => exact ⟨rfl, hint _ _⟩
  | uriPort => exact ⟨rfl, hint _ _⟩
  | contentType => exact ⟨rfl, hint _ _⟩
  | maxAge => exact ⟨rfl, hint _ _⟩
  | block2 => exact ⟨rfl, hint _ _⟩
  | block1 => exact ⟨rfl, hint _ _⟩
  | size => exact ⟨rfl, hint _ _⟩
  | locationPath | uriPath | uriQuery => exact ⟨rfl, multiOption_length hbuilt rfl w _⟩
  | token => exact absurd rfl htoken
  | ifNoneMatch =>
    have hzero : numberLength (packet.contentType - packet.contentType) = 0 := by
      rw [UInt32.sub_self]
      rfl
    have hlength := hint .ifNoneMatch (packet.contentType - packet.contentType)
    rw [hzero] at hlength
    exact ⟨rfl, hlength⟩
  | accept =>
    have hne : packet.accept ≠ [] := of_decide_eq_true hbuilt.1.symm
    obtain ⟨hnumber, hlength⟩ := foldl_accept_length hne w
    refine ⟨hnumber, ?_⟩
    simp only [writeOption, spareBytes, extraBytes, optionSize]
    rw [hlength, hmax]
    omega
  | locationQuery =>
    obtain ⟨hnumber, hlength⟩ := foldl_option_bytes_length
      (@splitParts_ne_nil 0x26 packet.locationQuery) w .locationQuery
    have hparts := @scanParts_length 0x26 packet.locationQuery
    rw [← splitParts_eq_scanParts] at hparts
    refine ⟨hnumber, ?_⟩
    simp only [writeOption, spareBytes, extraBytes, optionSize]
    rw [hlength]
    omega

/-! ### The bytes of a message -/

/-- **The bytes that are written**, against those that are counted. -/
theorem foldl_serializeOption_length_eq (h : Built packet) {options : List CoapOption}
    (htoken : .token ∉ options) (w : OptionWriter) :
    (options.foldl (serializeOption packet) w).bytes.length +
        ((options.filter packet.isOption).map (spareBytes packet)).sum =
      w.bytes.length + farOptions w.currentNumber (options.filter packet.isOption) +
        ((options.filter packet.isOption).map (extraBytes packet)).sum +
        (options.map fun o => if packet.isOption o then optionSize packet o else 0).sum := by
  induction options generalizing w with
  | nil => rfl
  | cons o options ih =>
    obtain ⟨ho, hrest⟩ := not_or.mp (List.mem_cons.not.mp htoken)
    have htail := ih hrest (serializeOption packet w o)
    by_cases hset : packet.isOption o = true
    · obtain ⟨hnumber, hlength⟩ := writeOption_length h hset (Ne.symm ho) w
      rw [serializeOption, if_pos hset, hnumber] at htail
      rw [List.foldl_cons, serializeOption, if_pos hset, List.filter_cons_of_pos hset]
      simp only [List.map_cons, List.sum_cons, farOptions, if_pos hset]
      omega
    · rw [serializeOption, if_neg hset] at htail
      rw [List.foldl_cons, serializeOption, if_neg hset, List.filter_cons_of_neg hset]
      simp only [List.map_cons, List.sum_cons, if_neg hset]
      omega

/-- A number that is below 2^24 has a byte to spare. -/
theorem numberLength_le (value : UInt32) : numberLength value ≤ 4 ∧
    (value.toNat < 2 ^ 24 → numberLength value ≤ 3) ∧
      (value.toNat < 2 ^ 16 → numberLength value ≤ 2) := by
  unfold numberLength
  refine ⟨?_, fun h => ?_, fun h => ?_⟩ <;> split_ifs <;> omega

theorem sum_map_le {α : Type} {f : α → ℕ} {n : ℕ} {l : List α} (h : ∀ x ∈ l, f x ≤ n) :
    (l.map f).sum ≤ n * l.length := by
  induction l with
  | nil => exact Nat.zero_le _
  | cons x l ih =>
    have htail := ih fun y hy => h y (List.mem_cons_of_mem x hy)
    have hhead := h x List.mem_cons_self
    rw [List.map_cons, List.sum_cons, List.length_cons, Nat.mul_succ]
    omega

end Lwm2m.Coap

/-
# Reading the attributes of a request

`prv_readAttributes` of `core/management.c`: the attributes of a Write-Attributes request are
read from its Uri-Query options, which point into the datagram.  The names are compared as C
strings, so a comparison goes on behind an option that is shorter than the name; the length of
the value is then negative.  The values are read by `utils_textToInt` and `utils_textToFloat` of
`core/utils.c`; `strtod` is a parameter, from a text to the value of its longest numeral and the
length of that.

The attributes are read from the bytes of the options alone, and are the numbers written there,
exactly when no option that is reached is misread so and each number fits the value of its
attribute (`prvReadAttributes_readsPrecisely_iff`).
-/

import Lwm2m.Core.Observe
import Lwm2m.Library.Decimal

namespace Lwm2m.Core

open Library

/-! ### Values -/

/-- The comparison of `lwm2m_strncmp` is equal.  Behind the bytes of a string there is a NUL. -/
def lwm2mStrncmpEq (s₁ s₂ : List Byte) : ℕ → Bool
  | 0 => true
  | n + 1 =>
    let b := s₁.headD 0
    b == s₂.headD 0 && (b == 0 || lwm2mStrncmpEq s₁.tail s₂.tail n)

/-- The loop of `utils_textToInt`. -/
def textDigits (result : UInt64) : List Byte → Option UInt64
  | [] => some result
  | b :: buffer =>
    if 0x30 ≤ b ∧ b ≤ 0x39 then
      if result > 0xFFFFFFFFFFFFFFFF / 10 then none
      else textDigits (result * 10 + (b - 0x30).toUInt64) buffer
    else none

/-- `utils_textToInt`, on the bytes from the buffer on.  A negative length leaves the loop out. -/
def utilsTextToInt (buffer : List Byte) (length : ℤ) : Option ℤ :=
  if length = 0 then none
  else
    let negative := buffer.head? = some 0x2D
    match textDigits 0 ((buffer.take length.toNat).drop (if negative then 1 else 0)) with
    | none => none
    | some result =>
      if result.toNat > 2 ^ 63 - 1 + (if negative then 1 else 0) then none
      else some (if negative then -(result.toNat : ℤ) else result.toNat)

section strtod

variable (strtod : CString → Double × ℕ)

/-- `utils_textToFloat` without exponents, on the bytes from the buffer on.  The copy has one
byte more than the length: for the length -1 that is an empty block, which is taken not to be
`NULL`, into which the largest size is copied; below that the size is too large for
`lwm2m_malloc`. -/
def utilsTextToFloat (buffer : List Byte) (length : ℤ) : Except Fault (Option Double) :=
  if length = 0 then .ok none
  else if length < -1 then .ok none
  else if length = -1 then .error .outOfBoundsWrite
  else
    let bufferCStr := (buffer.take length.toNat).takeWhile (· ≠ 0)
    if bufferCStr.any fun b => b = 0x65 || b = 0x45 then .ok none
    else
      let (value, tail) := strtod bufferCStr
      .ok (if tail = 0 then none else some value)

/-- The value is below zero: the sign is set and the rest is neither zero nor above infinity. -/
def Double.negative (d : Double) : Bool :=
  let magnitude := d.bits &&& 0x7FFFFFFFFFFFFFFF
  d.bits ≠ magnitude && magnitude ≠ 0 && magnitude ≤ 0x7FF0000000000000

/-! ### Attributes -/

/-- The attributes of `prv_readAttributes`. -/
inductive Attribute
  | minPeriod
  | maxPeriod
  | greaterThan
  | lessThan
  | step
  deriving DecidableEq, Repr

/-- A value of an attribute. -/
inductive AttributeValue
  | period (value : UInt32)
  | threshold (value : Double)
  deriving DecidableEq, Repr

namespace Attribute

/-- The name of an attribute. -/
def name : Attribute → CString
  | minPeriod => [0x70, 0x6D, 0x69, 0x6E]
  | maxPeriod => [0x70, 0x6D, 0x61, 0x78]
  | greaterThan => [0x67, 0x74]
  | lessThan => [0x6C, 0x74]
  | step => [0x73, 0x74]

/-- `ATTR_MIN_PERIOD_STR` and the others: the name and '='. -/
def str (a : Attribute) : CString := a.name ++ [0x3D]

/-- `LWM2M_ATTR_FLAG_MIN_PERIOD` and the others. -/
def flag : Attribute → UInt8
  | minPeriod => attrFlagMinPeriod
  | maxPeriod => attrFlagMaxPeriod
  | greaterThan => attrFlagGreaterThan
  | lessThan => attrFlagLessThan
  | step => attrFlagStep

/-- The value of the attribute is a number of seconds. -/
def IsPeriod (a : Attribute) : Prop := a = minPeriod ∨ a = maxPeriod

instance (a : Attribute) : Decidable a.IsPeriod := inferInstanceAs (Decidable (_ ∨ _))

/-- The attributes, in the order in which `prv_readAttributes` compares them. -/
def all : List Attribute := [minPeriod, maxPeriod, greaterThan, lessThan, step]

end Attribute

/-- The value of an attribute. -/
def Attributes.value (attrP : Attributes) : Attribute → AttributeValue
  | .minPeriod => .period attrP.minPeriod
  | .maxPeriod => .period attrP.maxPeriod
  | .greaterThan => .threshold attrP.greaterThan
  | .lessThan => .threshold attrP.lessThan
  | .step => .threshold attrP.step

/-- The attributes with one value stored. -/
def Attributes.store (attrP : Attributes) : Attribute → AttributeValue → Attributes
  | .minPeriod, .period v => { attrP with minPeriod := v }
  | .maxPeriod, .period v => { attrP with maxPeriod := v }
  | .greaterThan, .threshold v => { attrP with greaterThan := v }
  | .lessThan, .threshold v => { attrP with lessThan := v }
  | .step, .threshold v => { attrP with step := v }
  | _, _ => attrP

/-- The value of an attribute as `prv_readAttributes` reads it: a period is not negative and is
stored in 32 bits, and a step is not negative. -/
def readValue (a : Attribute) (buffer : List Byte) (length : ℤ) :
    Except Fault (Option AttributeValue) :=
  if a.IsPeriod then
    .ok ((utilsTextToInt buffer length).bind fun intValue =>
      if intValue < 0 then none else some (.period (UInt32.ofNat intValue.toNat)))
  else do
    let floatValue ← utilsTextToFloat strtod buffer length
    return floatValue.bind fun floatValue =>
      if a = .step ∧ floatValue.negative then none else some (.threshold floatValue)

/-! ### Options -/

/-- `multi_option_t`, with the bytes from its data pointer on. -/
structure MultiOption where
  len : UInt8
  data : List Byte
  len_le : len.toNat ≤ data.length

/-- The two branches of `prv_readAttributes` for an attribute, when one is taken. -/
def readAttribute (attrP : Attributes) (query : MultiOption) (a : Attribute) :
    Option (Except Fault (ℤ × Attributes)) :=
  let n := a.str.length
  if lwm2mStrncmpEq query.data a.str n then some do
    if (attrP.toSet ||| attrP.toClear) &&& a.flag ≠ 0 then return (-1, attrP)
    if query.len.toNat = n then return (-1, attrP)
    match ← readValue strtod a (query.data.drop n) (query.len.toNat - n) with
    | none => return (-1, attrP)
    | some value => return (0, { attrP with toSet := attrP.toSet ||| a.flag }.store a value)
  else if lwm2mStrncmpEq query.data a.str (n - 1) then some do
    if (attrP.toSet ||| attrP.toClear) &&& a.flag ≠ 0 then return (-1, attrP)
    if query.len.toNat ≠ n - 1 then return (-1, attrP)
    return (0, { attrP with toClear := attrP.toClear ||| a.flag })
  else none

/-- One round of the loop of `prv_readAttributes`: the result and the attributes. -/
def readOneAttribute (attrP : Attributes) (query : MultiOption) :
    Except Fault (ℤ × Attributes) :=
  (Attribute.all.findSome? (readAttribute strtod attrP query)).getD (.ok (-1, attrP))

/-- The loop of `prv_readAttributes`. -/
def readAttributesLoop (attrP : Attributes) : List MultiOption → Except Fault (ℤ × Attributes)
  | [] => .ok (0, attrP)
  | query :: next => do
    let (result, attrP) ← readOneAttribute strtod attrP query
    if result ≠ 0 then return (result, attrP)
    readAttributesLoop attrP next

/-- The attributes with every byte zero. -/
def noAttributes : Attributes where
  toSet := 0
  toClear := 0
  minPeriod := 0
  maxPeriod := 0
  greaterThan := ⟨0⟩
  lessThan := ⟨0⟩
  step := ⟨0⟩

/-- `prv_readAttributes`. -/
def prvReadAttributes (query : List MultiOption) : Except Fault (ℤ × Attributes) :=
  readAttributesLoop strtod noAttributes query

/-! ### What an option says -/

/-- The number of a `double` that has one. -/
def Double.number (d : Double) : Option ℚ :=
  let sign : ℚ := if d.bits.toNat < 2 ^ 63 then 1 else -1
  let exponent : ℕ := d.bits.toNat / 2 ^ 52 % 2048
  let mantissa : ℕ := d.bits.toNat % 2 ^ 52
  if exponent = 2047 then none
  else if exponent = 0 then some (sign * mantissa / 2 ^ 1074)
  else some (sign * (2 ^ 52 + mantissa) * 2 ^ exponent / 2 ^ 1075)

/-- The value is the number that a text writes. -/
def AttributeValue.Exact (text : List Byte) : AttributeValue → Prop
  | .period v => integerWritten text = some (v.toNat : ℤ)
  | .threshold d => ∃ q, decimalWritten text = some q ∧ d.number = some q

/-- The text writes a number that the value of the attribute can be. -/
def Attribute.Fits (a : Attribute) (text : List Byte) : Prop :=
  if a.IsPeriod then ∃ n, integerWritten text = some n ∧ 0 ≤ n ∧ n < 2 ^ 32
  else ∃ q, decimalWritten text = some q ∧ ∃ d : Double, d.number = some q

namespace MultiOption

/-- The bytes of an option. -/
def content (query : MultiOption) : List Byte := query.data.take query.len.toNat

/-- The option with nothing behind its bytes. -/
def alone (query : MultiOption) : MultiOption where
  len := query.len
  data := query.content
  len_le := by
    have := query.len_le
    rw [content, List.length_take]
    omega

/-- The option can be read: it is the name of the attribute alone, or with a value. -/
def Readable (query : MultiOption) (a : Attribute) : Prop :=
  query.content = a.name ∨ ∃ text value, query.content = a.str ++ text ∧ text ≠ [] ∧
    readValue strtod a text text.length = .ok (some value)

/-- The option ends before the '=' of a name that the bytes behind it complete.  The value is
then read with a negative length; for a threshold that matters when the '=' only is missing. -/
def Misread (query : MultiOption) (a : Attribute) : Prop :=
  a.str <+: query.data ∧ query.len.toNat < a.str.length ∧
    (a.IsPeriod ∨ query.len.toNat + 1 = a.str.length)

instance (query : MultiOption) (a : Attribute) : Decidable (query.Misread a) :=
  inferInstanceAs (Decidable (_ ∧ _))

end MultiOption

/-- The attribute is in a query that was read. -/
def Attributes.Said (attrP : Attributes) (a : Attribute) : Prop :=
  (attrP.toSet ||| attrP.toClear) &&& a.flag ≠ 0

instance (attrP : Attributes) (a : Attribute) : Decidable (attrP.Said a) :=
  inferInstanceAs (Decidable (_ ≠ _))

/-- Every option can be read, and no two are for one attribute. -/
def ReadableAfter (said : Attribute → Prop) : List MultiOption → Prop
  | [] => True
  | query :: next => ∃ a, ¬ said a ∧ query.Readable strtod a ∧
    ReadableAfter (fun b => said b ∨ b = a) next

/-- No option is misread, up to the first that cannot be read. -/
def NoneMisread (said : Attribute → Prop) : List MultiOption → Prop
  | [] => True
  | query :: next => (∀ a, query.Misread a → said a) ∧
    ∀ a, ¬ said a → query.Readable strtod a → NoneMisread (fun b => said b ∨ b = a) next

/-- The attributes are those of the options: the value of each is the number that its option writes,
and the attributes named without '=' are those that are cleared. -/
structure Says (query : List MultiOption) (attrP : Attributes) : Prop where
  set : ∀ a : Attribute, attrP.toSet &&& a.flag ≠ 0 ↔
    ∃ option ∈ query, ∃ text, option.content = a.str ++ text
  clear : ∀ a : Attribute, attrP.toClear &&& a.flag ≠ 0 ↔ ∃ option ∈ query, option.content = a.name
  value : ∀ option ∈ query, ∀ a : Attribute, ∀ text, option.content = a.str ++ text →
    (attrP.value a).Exact text

/-- The attributes are read from the bytes of the options alone, and are what these say. -/
structure ReadsPrecisely (query : List MultiOption) : Prop where
  alone : prvReadAttributes strtod query =
    prvReadAttributes strtod (query.map MultiOption.alone)
  attributes : ∀ attrP, prvReadAttributes strtod query = .ok (0, attrP) → Says query attrP

/-! ### Names -/

/-- The comparison with a text without NUL. -/
theorem lwm2mStrncmpEq_iff {s₁ s₂ : List Byte} {n : ℕ} (hnul : 0 ∉ s₂) (hn : n ≤ s₂.length) :
    lwm2mStrncmpEq s₁ s₂ n = true ↔ s₂.take n <+: s₁ := by
  induction n generalizing s₁ s₂ with
  | zero => simp [lwm2mStrncmpEq]
  | succ n ih =>
    cases s₂ with
    | nil => exact absurd hn (Nat.not_succ_le_zero n)
    | cons c s₂ =>
      obtain ⟨hc, hnul⟩ := not_or.mp (List.mem_cons.not.mp hnul)
      have hrest : lwm2mStrncmpEq s₁.tail s₂ n = true ↔ s₂.take n <+: s₁.tail :=
        ih hnul (Nat.le_of_succ_le_succ hn)
      cases s₁ with
      | nil => simp [lwm2mStrncmpEq, hc]
      | cons b s₁ =>
        rw [List.tail_cons] at hrest
        rw [List.take_succ_cons, List.cons_prefix_cons, ← hrest]
        simp only [lwm2mStrncmpEq, List.headD_cons, List.tail_cons, Bool.and_eq_true, beq_iff_eq,
          Bool.or_eq_true]
        constructor
        · rintro ⟨rfl, hzero | htail⟩
          · exact absurd hzero.symm hc
          · exact ⟨rfl, htail⟩
        · rintro ⟨rfl, htail⟩
          exact ⟨rfl, .inr htail⟩

theorem Attribute.length_str (a : Attribute) : a.str.length = a.name.length + 1 :=
  List.length_append

theorem Attribute.name_prefix_str (a : Attribute) : a.name <+: a.str := List.prefix_append _ _

/-- The comparisons with the names. -/
theorem strncmpEq_str_iff (data : List Byte) (a : Attribute) :
    lwm2mStrncmpEq data a.str a.str.length = true ↔ a.str <+: data := by
  have hnul : 0 ∉ a.str := by cases a <;> decide
  rw [lwm2mStrncmpEq_iff hnul le_rfl, List.take_length]

theorem strncmpEq_name_iff (data : List Byte) (a : Attribute) :
    lwm2mStrncmpEq data a.str (a.str.length - 1) = true ↔ a.name <+: data := by
  have hnul : 0 ∉ a.str := by cases a <;> decide
  have htake : a.str.take (a.str.length - 1) = a.name := by cases a <;> rfl
  rw [lwm2mStrncmpEq_iff hnul (Nat.sub_le _ _), htake]

variable {b : Attribute} {buffer text : List Byte} {length : ℤ}

/-- No name starts with another. -/
theorem Attribute.name_unique {a : Attribute} {data : List Byte} (ha : a.name <+: data)
    (hb : b.name <+: data) : a = b := by
  have hnames : ∀ a b : Attribute, a.name <+: b.name → a = b := by
    intro a b
    cases a <;> cases b <;> decide
  rcases List.prefix_or_prefix_of_prefix ha hb with h | h
  · exact hnames a b h
  · exact (hnames b a h).symm

/-! ### One option -/

variable {strtod}
variable {attrP : Attributes} {query : MultiOption} {a : Attribute}

theorem MultiOption.length_content (query : MultiOption) :
    query.content.length = query.len.toNat := by
  have := query.len_le
  rw [content, List.length_take]
  omega

/-- Bytes that are in the option are at the start of its data. -/
theorem MultiOption.prefix_content_iff {bytes : List Byte} :
    bytes <+: query.content ↔ bytes <+: query.data ∧ bytes.length ≤ query.len.toNat := by
  rw [content, List.prefix_take_iff]

/-- An attribute that is not compared with success. -/
theorem readAttribute_eq_none (h : ¬ a.name <+: query.data) :
    readAttribute strtod attrP query a = none := by
  have hstr : ¬ a.str <+: query.data := fun hstr => h (a.name_prefix_str.trans hstr)
  unfold readAttribute
  rw [if_neg (mt (strncmpEq_str_iff _ _).mp hstr), if_neg (mt (strncmpEq_name_iff _ _).mp h)]

/-- An option that starts with no name is refused. -/
theorem readOneAttribute_of_no_name (h : ∀ a : Attribute, ¬ a.name <+: query.data) :
    readOneAttribute strtod attrP query = .ok (-1, attrP) := by
  have hnone : Attribute.all.findSome? (readAttribute strtod attrP query) = none :=
    List.findSome?_eq_none_iff.mpr fun a _ => readAttribute_eq_none (h a)
  rw [readOneAttribute, hnone]
  rfl

/-- The one attribute whose name an option starts with is read. -/
theorem readOneAttribute_of_name (h : a.name <+: query.data) :
    readOneAttribute strtod attrP query =
      (readAttribute strtod attrP query a).getD (.ok (-1, attrP)) := by
  have hother : ∀ b, b ≠ a → readAttribute strtod attrP query b = none := fun b hb =>
    readAttribute_eq_none fun hname => hb (Attribute.name_unique hname h)
  rw [readOneAttribute]
  congr 1
  generalize readAttribute strtod attrP query = f at hother ⊢
  cases hf : f a with
  | none | some result => cases a <;> simp [Attribute.all, List.findSome?, hother, hf]

/-- An attribute that is in the query a second time is refused. -/
theorem readOneAttribute_of_said (h : a.name <+: query.data) (hsaid : attrP.Said a) :
    readOneAttribute strtod attrP query = .ok (-1, attrP) := by
  unfold Attributes.Said at hsaid
  rw [readOneAttribute_of_name h]
  unfold readAttribute
  dsimp only
  rw [if_pos hsaid, if_pos hsaid, if_pos ((strncmpEq_name_iff _ _).mpr h)]
  split_ifs <;> rfl

/-- An option that is not the name alone and has no '=' behind the name is refused. -/
theorem readOneAttribute_of_long (h : a.name <+: query.data) (hstr : ¬ a.str <+: query.data)
    (hlen : query.len.toNat ≠ a.name.length) :
    readOneAttribute strtod attrP query = .ok (-1, attrP) := by
  have hlen' : query.len.toNat ≠ a.str.length - 1 := by
    rw [a.length_str]
    exact hlen
  rw [readOneAttribute_of_name h]
  unfold readAttribute
  rw [if_neg (mt (strncmpEq_str_iff _ _).mp hstr), if_pos ((strncmpEq_name_iff _ _).mpr h),
    if_pos hlen']
  split_ifs <;> rfl

/-- A name alone clears the attribute. -/
theorem readOneAttribute_of_clear (h : a.name <+: query.data) (hstr : ¬ a.str <+: query.data)
    (hlen : query.len.toNat = a.name.length) (hsaid : ¬ attrP.Said a) :
    readOneAttribute strtod attrP query =
      .ok (0, { attrP with toClear := attrP.toClear ||| a.flag }) := by
  have hlen' : query.len.toNat = a.str.length - 1 := by
    rw [a.length_str]
    exact hlen
  unfold Attributes.Said at hsaid
  rw [readOneAttribute_of_name h]
  unfold readAttribute
  rw [if_neg (mt (strncmpEq_str_iff _ _).mp hstr), if_pos ((strncmpEq_name_iff _ _).mpr h),
    if_neg hsaid, if_neg (not_not.mpr hlen')]
  rfl

variable (strtod) in
/-- A name with '=': the value is read. -/
theorem readOneAttribute_of_value (hstr : a.str <+: query.data) (hsaid : ¬ attrP.Said a)
    (hlen : query.len.toNat ≠ a.str.length) :
    readOneAttribute strtod attrP query =
      (readValue strtod a (query.data.drop a.str.length) (query.len.toNat - a.str.length)).map
        fun value => match value with
          | none => (-1, attrP)
          | some value => (0, { attrP with toSet := attrP.toSet ||| a.flag }.store a value) := by
  unfold Attributes.Said at hsaid
  rw [readOneAttribute_of_name (a.name_prefix_str.trans hstr)]
  unfold readAttribute
  rw [if_pos ((strncmpEq_str_iff _ _).mpr hstr), if_neg hsaid, if_neg hlen]
  cases readValue strtod a (query.data.drop a.str.length) (query.len.toNat - a.str.length) with
  | error e => rfl
  | ok value => cases value <;> rfl

/-- A name with '=' and nothing behind it is refused. -/
theorem readOneAttribute_of_empty (hstr : a.str <+: query.data)
    (hlen : query.len.toNat = a.str.length) :
    readOneAttribute strtod attrP query = .ok (-1, attrP) := by
  rw [readOneAttribute_of_name (a.name_prefix_str.trans hstr)]
  unfold readAttribute
  rw [if_pos ((strncmpEq_str_iff _ _).mpr hstr), if_pos hlen]
  split_ifs <;> rfl

/-! ### Values and lengths -/

/-- The bytes behind a value are not read. -/
theorem readValue_take (h : 0 < length) :
    readValue strtod a (buffer.take length.toNat) length =
      readValue strtod a buffer length := by
  have hhead : (buffer.take length.toNat).head? = buffer.head? := by
    rw [List.head?_take, if_neg (by omega)]
  unfold readValue utilsTextToInt utilsTextToFloat
  rw [hhead, List.take_take, min_self]

/-- A value with a negative length is zero, or not a number, or written behind its block. -/
theorem readValue_of_neg (h : length < 0) :
    readValue strtod a buffer length =
      if a.IsPeriod then .ok (some (.period 0))
      else if length = -1 then .error .outOfBoundsWrite else .ok none := by
  have htake : buffer.take length.toNat = [] := by
    rw [Int.toNat_of_nonpos h.le, List.take_zero]
  unfold readValue
  split_ifs with hperiod hone
  · unfold utilsTextToInt
    rw [if_neg h.ne, htake]
    by_cases hsign : buffer.head? = some 0x2D
    · simp [hsign, textDigits]
    · simp [hsign, textDigits]
  · unfold utilsTextToFloat
    rw [if_neg h.ne, if_neg (by omega), if_pos hone]
    rfl
  · unfold utilsTextToFloat
    rw [if_neg h.ne, if_pos (by omega)]
    rfl

/-- The attributes with the value of one option. -/
def Attributes.setTo (attrP : Attributes) (a : Attribute) (value : AttributeValue) : Attributes :=
  { attrP with toSet := attrP.toSet ||| a.flag }.store a value

/-- The attributes with one of them cleared. -/
def Attributes.clear (attrP : Attributes) (a : Attribute) : Attributes :=
  { attrP with toClear := attrP.toClear ||| a.flag }

variable (strtod) in
/-- **What one option can do**, whatever is behind it. -/
theorem readOneAttribute_cases (attrP : Attributes) (query : MultiOption) :
    (∃ e, readOneAttribute strtod attrP query = .error e) ∨
    readOneAttribute strtod attrP query = .ok (-1, attrP) ∨
    (∃ a value, ¬ attrP.Said a ∧ a.str <+: query.data ∧
      readValue strtod a (query.data.drop a.str.length) (query.len.toNat - a.str.length) =
        .ok (some value) ∧
      readOneAttribute strtod attrP query = .ok (0, attrP.setTo a value)) ∨
    ∃ a, ¬ attrP.Said a ∧ query.content = a.name ∧
      readOneAttribute strtod attrP query = .ok (0, attrP.clear a) := by
  by_cases hname : ∃ a : Attribute, a.name <+: query.data
  · obtain ⟨a, hname⟩ := hname
    by_cases hsaid : attrP.Said a
    · exact .inr (.inl (readOneAttribute_of_said hname hsaid))
    by_cases hstr : a.str <+: query.data
    · by_cases hlen : query.len.toNat = a.str.length
      · exact .inr (.inl (readOneAttribute_of_empty hstr hlen))
      have hread := readOneAttribute_of_value strtod hstr hsaid hlen
      cases hvalue : readValue strtod a (query.data.drop a.str.length)
          (query.len.toNat - a.str.length) with
      | error e =>
        rw [hvalue] at hread
        exact .inl ⟨e, hread⟩
      | ok value =>
        rw [hvalue] at hread
        cases value with
        | none => exact .inr (.inl hread)
        | some value => exact .inr (.inr (.inl ⟨a, value, hsaid, hstr, hvalue, hread⟩))
    · by_cases hlen : query.len.toNat = a.name.length
      · refine .inr (.inr (.inr ⟨a, hsaid, ?_, readOneAttribute_of_clear hname hstr hlen hsaid⟩))
        rw [MultiOption.content, hlen]
        exact (List.prefix_iff_eq_take.mp hname).symm
      · exact .inr (.inl (readOneAttribute_of_long hname hstr hlen))
  · exact .inr (.inl (readOneAttribute_of_no_name fun a ha => hname ⟨a, ha⟩))

/-- The data of an option alone are its bytes. -/
theorem MultiOption.data_alone (query : MultiOption) : query.alone.data = query.content := rfl

/-! ### Flags -/

/-- A flag is set in one of two sets of flags. -/
theorem or_and_ne_zero_iff (x y flag : UInt8) :
    (x ||| y) &&& flag ≠ 0 ↔ x &&& flag ≠ 0 ∨ y &&& flag ≠ 0 := by
  have hdistrib : (x ||| y) &&& flag = (x &&& flag) ||| (y &&& flag) := by
    rw [← UInt8.toBitVec_inj]
    simp only [UInt8.toBitVec_and, UInt8.toBitVec_or]
    exact BitVec.and_or_distrib_right
  rw [hdistrib, ne_eq, UInt8.or_eq_zero_iff, not_and_or]

/-- A flag is set by an attribute of its own. -/
theorem or_flag_ne_zero_iff (x : UInt8) (a b : Attribute) :
    (x ||| a.flag) &&& b.flag ≠ 0 ↔ x &&& b.flag ≠ 0 ∨ b = a := by
  have hflag : a.flag &&& b.flag ≠ 0 ↔ b = a := by cases a <;> cases b <;> decide
  rw [or_and_ne_zero_iff, hflag]

theorem Attributes.said_iff (attrP : Attributes) (a : Attribute) :
    attrP.Said a ↔ attrP.toSet &&& a.flag ≠ 0 ∨ attrP.toClear &&& a.flag ≠ 0 :=
  or_and_ne_zero_iff _ _ _

section setTo

variable (attrP : Attributes) (a b : Attribute) (value : AttributeValue)

theorem Attributes.toSet_setTo : (attrP.setTo a value).toSet = attrP.toSet ||| a.flag := by
  cases a <;> cases value <;> rfl

theorem Attributes.toClear_setTo : (attrP.setTo a value).toClear = attrP.toClear := by
  cases a <;> cases value <;> rfl

theorem Attributes.said_setTo : (attrP.setTo a value).Said b ↔ attrP.Said b ∨ b = a := by
  rw [said_iff, said_iff, toSet_setTo, toClear_setTo, or_flag_ne_zero_iff]
  tauto

theorem Attributes.said_clear : (attrP.clear a).Said b ↔ attrP.Said b ∨ b = a := by
  rw [said_iff, said_iff, clear, or_flag_ne_zero_iff]
  tauto

theorem Attributes.value_setTo_of_ne (h : b ≠ a) :
    (attrP.setTo a value).value b = attrP.value b := by
  cases a <;> cases value <;> cases b <;> first | rfl | exact absurd rfl h

end setTo

/-- An option that ends inside a name is refused when there is nothing behind it. -/
theorem readOneAttribute_alone_of_short (h : a.name <+: query.data)
    (hlen : query.len.toNat < a.name.length) :
    readOneAttribute strtod attrP query.alone = .ok (-1, attrP) := by
  refine readOneAttribute_of_no_name fun b hb => ?_
  obtain ⟨hname, hlength⟩ := MultiOption.prefix_content_iff.mp hb
  rw [← Attribute.name_unique h hname] at hlength
  omega

/-- An option that is a name is a cleared attribute when there is nothing behind it. -/
theorem readOneAttribute_alone_of_name (h : a.name <+: query.data)
    (hlen : query.len.toNat = a.name.length) (hsaid : ¬ attrP.Said a) :
    readOneAttribute strtod attrP query.alone = .ok (0, attrP.clear a) := by
  refine readOneAttribute_of_clear (MultiOption.prefix_content_iff.mpr ⟨h, hlen.ge⟩)
    (fun hstr => ?_) hlen hsaid
  have hlength := (MultiOption.prefix_content_iff.mp hstr).2
  rw [a.length_str] at hlength
  omega

variable (strtod) in
/-- An option that is misread does not do what it does alone. -/
theorem readOneAttribute_of_misread (h : query.Misread a) (hsaid : ¬ attrP.Said a) :
    (a.IsPeriod ∧ readOneAttribute strtod attrP query = .ok (0, attrP.setTo a (.period 0)) ∨
      ∃ e, readOneAttribute strtod attrP query = .error e) ∧
    (readOneAttribute strtod attrP query.alone = .ok (-1, attrP) ∨
      readOneAttribute strtod attrP query.alone = .ok (0, attrP.clear a)) := by
  obtain ⟨hstr, hshort, hkind⟩ := h
  have hname := a.name_prefix_str.trans hstr
  have hnegative : (query.len.toNat : ℤ) - a.str.length < 0 := by omega
  constructor
  · rw [readOneAttribute_of_value strtod hstr hsaid hshort.ne, readValue_of_neg hnegative]
    by_cases hperiod : a.IsPeriod
    · rw [if_pos hperiod]
      exact .inl ⟨hperiod, rfl⟩
    · have hone := hkind.resolve_left hperiod
      rw [if_neg hperiod, if_pos (by omega)]
      exact .inr ⟨_, rfl⟩
  · rw [a.length_str] at hshort
    rcases (Nat.le_of_lt_succ hshort).lt_or_eq with hlt | heq
    · exact .inl (readOneAttribute_alone_of_short hname hlt)
    · exact .inr (readOneAttribute_alone_of_name hname heq hsaid)

/-- An option that is not misread does what it does alone. -/
theorem readOneAttribute_alone (h : ∀ a, query.Misread a → attrP.Said a) :
    readOneAttribute strtod attrP query = readOneAttribute strtod attrP query.alone := by
  by_cases hname : ∃ a : Attribute, a.name <+: query.data
  swap
  · rw [readOneAttribute_of_no_name fun a ha => hname ⟨a, ha⟩,
      readOneAttribute_of_no_name fun a ha => hname ⟨a, (MultiOption.prefix_content_iff.mp ha).1⟩]
  obtain ⟨a, hname⟩ := hname
  have hcontent : a.name.length ≤ query.len.toNat → a.name <+: query.alone.data := fun hlen =>
    MultiOption.prefix_content_iff.mpr ⟨hname, hlen⟩
  by_cases hsaid : attrP.Said a
  · rw [readOneAttribute_of_said hname hsaid]
    by_cases hlen : query.len.toNat < a.name.length
    · rw [readOneAttribute_alone_of_short hname hlen]
    · rw [readOneAttribute_of_said (hcontent (by omega)) hsaid]
  by_cases hstr : a.str <+: query.data
  · by_cases hshort : query.len.toNat < a.str.length
    · -- a threshold that ends before its last letter
      have hkind : ¬ (a.IsPeriod ∨ query.len.toNat + 1 = a.str.length) := fun hkind =>
        hsaid (h a ⟨hstr, hshort, hkind⟩)
      obtain ⟨hperiod, hone⟩ := not_or.mp hkind
      have hlen : query.len.toNat < a.name.length := by
        rw [a.length_str] at hshort hone
        omega
      rw [readOneAttribute_alone_of_short hname hlen,
        readOneAttribute_of_value strtod hstr hsaid hshort.ne, readValue_of_neg (by omega),
        if_neg hperiod, if_neg (by omega)]
      rfl
    · have hstr' : a.str <+: query.alone.data :=
        MultiOption.prefix_content_iff.mpr ⟨hstr, by omega⟩
      by_cases hlen : query.len.toNat = a.str.length
      · rw [readOneAttribute_of_empty hstr hlen, readOneAttribute_of_empty hstr' hlen]
      · rw [readOneAttribute_of_value strtod hstr hsaid hlen,
          readOneAttribute_of_value strtod hstr' hsaid hlen]
        have hpositive : 0 < (query.len.toNat : ℤ) - a.str.length := by omega
        have hdrop : query.alone.data.drop a.str.length =
            (query.data.drop a.str.length).take
              ((query.len.toNat : ℤ) - a.str.length).toNat := by
          rw [MultiOption.data_alone, MultiOption.content, List.drop_take]
          congr 1
          omega
        rw [hdrop]
        exact congrArg _ (readValue_take hpositive).symm
  · have hstr' : ¬ a.str <+: query.alone.data := fun hstr' =>
      hstr (MultiOption.prefix_content_iff.mp hstr').1
    rcases lt_trichotomy query.len.toNat a.name.length with hlen | hlen | hlen
    · rw [readOneAttribute_alone_of_short hname hlen,
        readOneAttribute_of_long hname hstr hlen.ne]
    · rw [readOneAttribute_of_clear hname hstr hlen hsaid,
        readOneAttribute_alone_of_name hname hlen hsaid]
      rfl
    · rw [readOneAttribute_of_long hname hstr hlen.ne',
        readOneAttribute_of_long (hcontent hlen.le) hstr' hlen.ne']

/-! ### Options alone -/

variable (strtod) in
/-- A value with a length that is not negative is read or refused. -/
theorem exists_readValue (a : Attribute) (buffer : List Byte) (h : 0 ≤ length) :
    ∃ value, readValue strtod a buffer length = .ok value := by
  have hfloat : ∃ value, utilsTextToFloat strtod buffer length = .ok value := by
    unfold utilsTextToFloat
    dsimp only
    split_ifs
    · exact ⟨_, rfl⟩
    · omega
    · omega
    · exact ⟨_, rfl⟩
    · exact ⟨_, rfl⟩
    · exact ⟨_, rfl⟩
  obtain ⟨value, hvalue⟩ := hfloat
  unfold readValue
  rw [hvalue]
  split_ifs
  · exact ⟨_, rfl⟩
  · exact ⟨_, rfl⟩

theorem MultiOption.Readable.name_prefix (h : query.Readable strtod a) :
    a.name <+: query.content := by
  obtain h | ⟨text, value, h, -⟩ := h
  · rw [h]
  · rw [h]
    exact a.name_prefix_str.trans (List.prefix_append _ _)

/-- An option is for one attribute. -/
theorem MultiOption.Readable.unique (h : query.Readable strtod a) (h' : query.Readable strtod b) :
    a = b :=
  Attribute.name_unique h.name_prefix h'.name_prefix

/-- An option with a text behind '='. -/
theorem readOneAttribute_alone_of_text (h : query.content = a.str ++ text) (htext : text ≠ [])
    (hsaid : ¬ attrP.Said a) :
    readOneAttribute strtod attrP query.alone =
      (readValue strtod a text text.length).map fun value => match value with
        | none => (-1, attrP)
        | some value => (0, attrP.setTo a value) := by
  have hlength := query.length_content
  rw [h, List.length_append] at hlength
  have hpos := List.length_pos_of_ne_nil htext
  have hstr : a.str <+: query.alone.data := by
    rw [MultiOption.data_alone, h]
    exact List.prefix_append _ _
  have hlen : query.alone.len.toNat ≠ a.str.length := by
    change query.len.toNat ≠ a.str.length
    omega
  have hdrop : query.alone.data.drop a.str.length = text := by
    rw [MultiOption.data_alone, h, List.drop_left]
  have hcount : (query.alone.len.toNat : ℤ) - a.str.length = text.length := by
    change (query.len.toNat : ℤ) - a.str.length = text.length
    omega
  rw [readOneAttribute_of_value strtod hstr hsaid hlen, hdrop, hcount]
  rfl

variable (strtod) in
/-- **What one option alone does**: it is read, for an attribute that is not in the query yet, or
refused. -/
theorem readOneAttribute_alone_cases (attrP : Attributes) (query : MultiOption) :
    (readOneAttribute strtod attrP query.alone = .ok (-1, attrP) ∧
      ∀ a, ¬ attrP.Said a → ¬ query.Readable strtod a) ∨
    ∃ a, ¬ attrP.Said a ∧ query.Readable strtod a ∧
      ((∃ text value, query.content = a.str ++ text ∧
        readValue strtod a text text.length = .ok (some value) ∧
        readOneAttribute strtod attrP query.alone = .ok (0, attrP.setTo a value)) ∨
      query.content = a.name ∧
        readOneAttribute strtod attrP query.alone = .ok (0, attrP.clear a)) := by
  by_cases hread : ∃ a, ¬ attrP.Said a ∧ query.Readable strtod a
  · obtain ⟨a, hsaid, hread⟩ := hread
    refine .inr ⟨a, hsaid, hread, ?_⟩
    obtain hname | ⟨text, value, h, htext, hvalue⟩ := hread
    · have hlen : query.len.toNat = a.name.length := by
        rw [← hname, query.length_content]
      have hdata : a.name <+: query.data := by
        rw [← hname]
        exact List.take_prefix _ _
      exact .inr ⟨hname, readOneAttribute_alone_of_name hdata hlen hsaid⟩
    · refine .inl ⟨text, value, h, hvalue, ?_⟩
      rw [readOneAttribute_alone_of_text h htext hsaid, hvalue]
      rfl
  · have hnone (a : Attribute) (hsaid : ¬ attrP.Said a) : ¬ query.Readable strtod a :=
      fun h => hread ⟨a, hsaid, h⟩
    refine .inl ⟨?_, hnone⟩
    by_cases hname : ∃ a : Attribute, a.name <+: query.content
    swap
    · exact readOneAttribute_of_no_name fun a ha => hname ⟨a, ha⟩
    obtain ⟨a, hname⟩ := hname
    by_cases hsaid : attrP.Said a
    · exact readOneAttribute_of_said hname hsaid
    have hrefused := hnone a hsaid
    by_cases hstr : a.str <+: query.content
    · obtain ⟨text, htext⟩ := hstr
      by_cases hempty : text = []
      · refine readOneAttribute_of_empty ⟨text, htext⟩ ?_
        change query.len.toNat = a.str.length
        rw [← query.length_content, ← htext, hempty, List.append_nil]
      · obtain ⟨value, hvalue⟩ :=
          exists_readValue strtod a text (Int.natCast_nonneg text.length)
        cases value with
        | some value => exact absurd (.inr ⟨text, value, htext.symm, hempty, hvalue⟩) hrefused
        | none =>
          rw [readOneAttribute_alone_of_text htext.symm hempty hsaid, hvalue]
          rfl
    · refine readOneAttribute_of_long hname hstr fun hlen => hrefused (.inl ?_)
      have hlength : query.content.length = a.name.length := by
        rw [query.length_content]
        exact hlen
      exact (hname.eq_of_length hlength.symm).symm

/-! ### All options -/

variable {attrP' : Attributes} {next : List MultiOption} {value : AttributeValue} {intValue : ℤ}

/-- An attribute that is in the query stays as it is. -/
theorem readAttributesLoop_said {result : ℤ}
    (h : readAttributesLoop strtod attrP next = .ok (result, attrP')) (hsaid : attrP.Said a) :
    (attrP'.toSet &&& a.flag ≠ 0 ↔ attrP.toSet &&& a.flag ≠ 0) ∧
      (attrP'.toClear &&& a.flag ≠ 0 ↔ attrP.toClear &&& a.flag ≠ 0) ∧
      attrP'.value a = attrP.value a := by
  induction next generalizing attrP with
  | nil =>
    cases h
    exact ⟨Iff.rfl, Iff.rfl, rfl⟩
  | cons query next ih =>
    rw [readAttributesLoop] at h
    obtain ⟨e, hone⟩ | hone | ⟨b, value, hnew, -, -, hone⟩ | ⟨b, hnew, -, hone⟩ :=
      readOneAttribute_cases strtod attrP query
    · rw [hone] at h
      cases h
    · rw [hone] at h
      cases h
      exact ⟨Iff.rfl, Iff.rfl, rfl⟩
    · rw [hone] at h
      have hne : a ≠ b := by
        rintro rfl
        exact hnew hsaid
      obtain ⟨hset, hclear, hvalue⟩ := ih h ((attrP.said_setTo b a value).mpr (.inl hsaid))
      rw [Attributes.toSet_setTo, or_flag_ne_zero_iff, or_iff_left hne] at hset
      rw [Attributes.toClear_setTo] at hclear
      rw [Attributes.value_setTo_of_ne _ _ _ _ hne] at hvalue
      exact ⟨hset, hclear, hvalue⟩
    · rw [hone] at h
      have hne : a ≠ b := by
        rintro rfl
        exact hnew hsaid
      obtain ⟨hset, hclear, hvalue⟩ := ih h ((attrP.said_clear b a).mpr (.inl hsaid))
      rw [Attributes.clear, or_flag_ne_zero_iff, or_iff_left hne] at hclear
      exact ⟨hset, hclear, hvalue⟩

variable (strtod) in
/-- Options alone are read without a fault. -/
theorem exists_readAttributesLoop_alone (attrP : Attributes) (next : List MultiOption) :
    ∃ result attrP', readAttributesLoop strtod attrP (next.map MultiOption.alone) =
      .ok (result, attrP') := by
  induction next generalizing attrP with
  | nil => exact ⟨0, attrP, rfl⟩
  | cons query next ih =>
    rw [List.map_cons, readAttributesLoop]
    obtain ⟨hone, -⟩ | ⟨a, -, -, ⟨text, value, -, -, hone⟩ | ⟨-, hone⟩⟩ :=
      readOneAttribute_alone_cases strtod attrP query
    · rw [hone]
      exact ⟨-1, attrP, rfl⟩
    · rw [hone]
      exact ih (attrP.setTo a value)
    · rw [hone]
      exact ih (attrP.clear a)

variable (strtod) in
/-- **When the bytes behind the options do not matter**: no option that is reached is misread. -/
theorem readAttributesLoop_alone_iff (attrP : Attributes) (next : List MultiOption) :
    readAttributesLoop strtod attrP next =
        readAttributesLoop strtod attrP (next.map MultiOption.alone) ↔
      NoneMisread strtod attrP.Said next := by
  induction next generalizing attrP with
  | nil => exact iff_of_true rfl trivial
  | cons query next ih =>
    by_cases hmisread : ∀ a, query.Misread a → attrP.Said a
    · have hsame : readOneAttribute strtod attrP query =
          readOneAttribute strtod attrP query.alone := readOneAttribute_alone hmisread
      rw [List.map_cons, readAttributesLoop, readAttributesLoop, hsame]
      obtain ⟨hone, hnone⟩ | ⟨a, hsaid, hread, hstep⟩ :=
        readOneAttribute_alone_cases strtod attrP query
      · rw [hone]
        exact iff_of_true rfl ⟨hmisread, fun a hsaid hread => absurd hread (hnone a hsaid)⟩
      · have hrest {attrP' : Attributes} (hsaid' : ∀ b, attrP'.Said b ↔ attrP.Said b ∨ b = a) :
            NoneMisread strtod attrP.Said (query :: next) ↔ NoneMisread strtod attrP'.Said next := by
          have hnext : attrP'.Said = fun b => attrP.Said b ∨ b = a :=
            funext fun b => propext (hsaid' b)
          rw [hnext]
          constructor
          · exact fun h => h.2 a hsaid hread
          · intro h
            refine ⟨hmisread, fun b _ hread' => ?_⟩
            rw [← hread.unique hread']
            exact h
        obtain ⟨text, value, -, -, hone⟩ | ⟨-, hone⟩ := hstep
        · rw [hone, hrest fun b => attrP.said_setTo a b value]
          exact ih (attrP.setTo a value)
        · rw [hone, hrest fun b => attrP.said_clear a b]
          exact ih (attrP.clear a)
    · refine iff_of_false (fun hsame => ?_) fun h => hmisread h.1
      push Not at hmisread
      obtain ⟨a, hmisread, hsaid⟩ := hmisread
      obtain ⟨hread, halone⟩ := readOneAttribute_of_misread strtod hmisread hsaid
      obtain ⟨result, attrP', hrun⟩ :=
        exists_readAttributesLoop_alone strtod attrP (query :: next)
      rw [hrun, readAttributesLoop] at hsame
      rw [List.map_cons, readAttributesLoop] at hrun
      obtain ⟨hnotSet, -⟩ := not_or.mp (mt (attrP.said_iff a).mpr hsaid)
      -- the run on the options alone does not set the attribute
      have hunset : ¬ attrP'.toSet &&& a.flag ≠ 0 := by
        obtain hone | hone := halone
        · rw [hone] at hrun
          cases hrun
          exact hnotSet
        · rw [hone] at hrun
          have hkept := readAttributesLoop_said hrun ((attrP.said_clear a a).mpr (.inr rfl))
          exact mt hkept.1.mp hnotSet
      obtain ⟨-, hone⟩ | ⟨e, hone⟩ := hread
      · rw [hone] at hsame
        have hkept := readAttributesLoop_said hsame
          ((attrP.said_setTo a a (.period 0)).mpr (.inr rfl))
        refine hunset (hkept.1.mpr ?_)
        rw [Attributes.toSet_setTo, or_flag_ne_zero_iff]
        exact .inr rfl
      · rw [hone] at hsame
        cases hsame

variable (strtod) in
/-- The options alone are read exactly when every one of them can be. -/
theorem readAttributesLoop_alone_eq_zero_iff (attrP : Attributes) (next : List MultiOption) :
    (∃ attrP', readAttributesLoop strtod attrP (next.map MultiOption.alone) = .ok (0, attrP')) ↔
      ReadableAfter strtod attrP.Said next := by
  induction next generalizing attrP with
  | nil => exact iff_of_true ⟨attrP, rfl⟩ trivial
  | cons query next ih =>
    rw [List.map_cons, readAttributesLoop]
    obtain ⟨hone, hnone⟩ | ⟨a, hsaid, hread, hstep⟩ :=
      readOneAttribute_alone_cases strtod attrP query
    · rw [hone]
      refine iff_of_false ?_ fun ⟨a, hsaid, hread, _⟩ => hnone a hsaid hread
      rintro ⟨attrP', h⟩
      cases h
    · have hrest {attrP' : Attributes} (hsaid' : ∀ b, attrP'.Said b ↔ attrP.Said b ∨ b = a) :
          ReadableAfter strtod attrP.Said (query :: next) ↔
            ReadableAfter strtod attrP'.Said next := by
        have hnext : attrP'.Said = fun b => attrP.Said b ∨ b = a :=
          funext fun b => propext (hsaid' b)
        rw [hnext]
        constructor
        · rintro ⟨b, _, hread', h⟩
          rw [hread.unique hread']
          exact h
        · exact fun h => ⟨a, hsaid, hread, h⟩
      obtain ⟨text, value, -, -, hone⟩ | ⟨-, hone⟩ := hstep
      · rw [hone, hrest fun b => attrP.said_setTo a b value]
        exact ih (attrP.setTo a value)
      · rw [hone, hrest fun b => attrP.said_clear a b]
        exact ih (attrP.clear a)

/-- A value that was read is stored. -/
theorem value_setTo (h : readValue strtod a buffer length = .ok (some value)) (attrP : Attributes) :
    (attrP.setTo a value).value a = value := by
  unfold readValue at h
  by_cases hperiod : a.IsPeriod
  · rw [if_pos hperiod, Except.ok.injEq, Option.bind_eq_some_iff] at h
    obtain ⟨intValue, -, h⟩ := h
    split_ifs at h
    cases h
    obtain rfl | rfl := hperiod
    · rfl
    · rfl
  · rw [if_neg hperiod] at h
    obtain ⟨floatValue, -, h⟩ := bind_eq_ok_iff.mp h
    rw [pure_eq_ok, Except.ok.injEq, Option.bind_eq_some_iff] at h
    obtain ⟨d, -, h⟩ := h
    split_ifs at h
    cases h
    cases a with
    | minPeriod => exact absurd (.inl rfl) hperiod
    | maxPeriod => exact absurd (.inr rfl) hperiod
    | greaterThan | lessThan | step => rfl

/-- The texts behind the names of an option. -/
theorem MultiOption.content_eq_str_iff {text' : List Byte} (h : query.content = a.str ++ text) :
    query.content = b.str ++ text' ↔ b = a ∧ text' = text := by
  constructor
  · intro h'
    have hname : a.name <+: query.content := by
      rw [h]
      exact a.name_prefix_str.trans (List.prefix_append _ _)
    have hname' : b.name <+: query.content := by
      rw [h']
      exact b.name_prefix_str.trans (List.prefix_append _ _)
    obtain rfl := Attribute.name_unique hname hname'
    exact ⟨rfl, List.append_cancel_left (h'.symm.trans h)⟩
  · rintro ⟨rfl, rfl⟩
    exact h

/-- A name alone has no '='. -/
theorem MultiOption.content_ne_str (h : query.content = a.name) (text : List Byte) :
    query.content ≠ b.str ++ text := by
  intro h'
  have hname : b.name <+: query.content := by
    rw [h']
    exact b.name_prefix_str.trans (List.prefix_append _ _)
  have hname' : a.name <+: query.content := by rw [h]
  obtain rfl := Attribute.name_unique hname hname'
  have hlength := congrArg List.length (h.symm.trans h')
  rw [List.length_append, b.length_str] at hlength
  omega

/-- What the options say alone, when all are read. -/
theorem readAttributesLoop_alone_eq_zero {attrP : Attributes}
    (h : readAttributesLoop strtod attrP (next.map MultiOption.alone) = .ok (0, attrP')) :
    (∀ a : Attribute, attrP'.toSet &&& a.flag ≠ 0 ↔ attrP.toSet &&& a.flag ≠ 0 ∨
        ∃ option ∈ next, ∃ text, option.content = a.str ++ text) ∧
      (∀ a : Attribute, attrP'.toClear &&& a.flag ≠ 0 ↔ attrP.toClear &&& a.flag ≠ 0 ∨
        ∃ option ∈ next, option.content = a.name) ∧
      ∀ option ∈ next, ∀ a : Attribute, ∀ text, option.content = a.str ++ text →
        readValue strtod a text text.length = .ok (some (attrP'.value a)) := by
  induction next generalizing attrP with
  | nil =>
    cases h
    simp
  | cons query next ih =>
    rw [List.map_cons, readAttributesLoop] at h
    obtain ⟨hone, -⟩ | ⟨a, -, -, ⟨text, value, hcontent, hvalue, hone⟩ | ⟨hcontent, hone⟩⟩ :=
      readOneAttribute_alone_cases strtod attrP query
    · rw [hone] at h
      cases h
    · rw [hone] at h
      obtain ⟨hset, hclear, hvalues⟩ := ih h
      have hkept := readAttributesLoop_said h ((attrP.said_setTo a a value).mpr (.inr rfl))
      refine ⟨fun b => ?_, fun b => ?_, ?_⟩
      · rw [hset, Attributes.toSet_setTo, or_flag_ne_zero_iff, or_assoc]
        simp only [List.exists_mem_cons_iff, MultiOption.content_eq_str_iff hcontent,
          exists_and_left, exists_eq, and_true]
      · have hname : query.content ≠ b.name := fun h' =>
          MultiOption.content_ne_str h' text hcontent
        rw [hclear, Attributes.toClear_setTo]
        simp only [List.exists_mem_cons_iff, hname, false_or]
      · refine List.forall_mem_cons.mpr ⟨fun b text' hcontent' => ?_, hvalues⟩
        obtain ⟨rfl, rfl⟩ := (MultiOption.content_eq_str_iff hcontent).mp hcontent'
        rw [hkept.2.2, value_setTo hvalue]
        exact hvalue
    · rw [hone] at h
      obtain ⟨hset, hclear, hvalues⟩ := ih h
      refine ⟨fun b => ?_, fun b => ?_, ?_⟩
      · have hstr (text : List Byte) : query.content ≠ b.str ++ text :=
          MultiOption.content_ne_str hcontent text
        rw [hset]
        simp only [List.exists_mem_cons_iff, hstr, exists_false, false_or]
        rfl
      · have hname : query.content = b.name ↔ b = a := by
          rw [hcontent]
          constructor
          · intro h'
            have hprefix : a.name <+: b.name := by rw [h']
            exact Attribute.name_unique List.prefix_rfl hprefix
          · rintro rfl
            rfl
        rw [hclear, Attributes.clear, or_flag_ne_zero_iff, or_assoc]
        simp only [List.exists_mem_cons_iff, hname]
      · refine List.forall_mem_cons.mpr ⟨fun b text' hcontent' => ?_, hvalues⟩
        exact absurd hcontent' (MultiOption.content_ne_str hcontent text')

/-! ### Numbers -/

/-- A number of 64 bits is read without a carry out of them. -/
theorem toNat_textDigits {digits : List Byte} {result result' : UInt64}
    (h : textDigits result digits = some result')
    (hfit : digitsValue result.toNat digits < 2 ^ 64) :
    result'.toNat = digitsValue result.toNat digits := by
  induction digits generalizing result with
  | nil =>
    cases h
    rfl
  | cons b digits ih =>
    rw [textDigits] at h
    split_ifs at h with hdigit hlarge
    have hvalue : digitsValue result.toNat (b :: digits) =
        digitsValue (10 * result.toNat + (b.toNat - 48)) digits := rfl
    rw [hvalue] at hfit ⊢
    have hsub : (b - 0x30).toUInt64.toNat = b.toNat - 48 := by
      rw [UInt8.toNat_toUInt64, UInt8.toNat_sub_of_le _ _ hdigit.1]
      rfl
    have hle := le_digitsValue (10 * result.toNat + (b.toNat - 48)) digits
    have hnext : (result * 10 + (b - 0x30).toUInt64).toNat =
        10 * result.toNat + (b.toNat - 48) := by
      have hten : (10 : UInt64).toNat = 10 := rfl
      rw [UInt64.toNat_add, UInt64.toNat_mul, hsub, hten]
      omega
    rw [← hnext] at hfit ⊢
    exact ih h hfit

/-- What `utils_textToInt` makes of a whole text. -/
theorem utilsTextToInt_eq_some (h : utilsTextToInt text text.length = some intValue) :
    ∃ result, textDigits 0 (if text.head? = some 0x2D then text.tail else text) = some result ∧
      intValue = if text.head? = some 0x2D then -(result.toNat : ℤ) else result.toNat := by
  have hdrop : text.drop (if text.head? = some 0x2D then 1 else 0) =
      if text.head? = some 0x2D then text.tail else text := by
    split_ifs
    · exact List.drop_one
    · exact List.drop_zero
  unfold utilsTextToInt at h
  rw [Int.toNat_natCast, List.take_length] at h
  dsimp only at h
  rw [hdrop] at h
  by_cases hempty : (text.length : ℤ) = 0
  · rw [if_pos hempty] at h
    cases h
  · rw [if_neg hempty] at h
    split at h
    · cases h
    · next result hdigits =>
      by_cases hrange : result.toNat > 2 ^ 63 - 1 + (if text.head? = some 0x2D then 1 else 0)
      · rw [if_pos hrange] at h
        cases h
      · rw [if_neg hrange] at h
        exact ⟨result, hdigits, (Option.some.inj h).symm⟩

/-- The number of a period that is read is the number written when it has 32 bits. -/
theorem exact_period_iff (h : utilsTextToInt text text.length = some intValue) :
    (AttributeValue.period (UInt32.ofNat intValue.toNat)).Exact text ↔
      ∃ n, integerWritten text = some n ∧ 0 ≤ n ∧ n < 2 ^ 32 := by
  constructor
  · intro hexact
    refine ⟨_, hexact, Int.natCast_nonneg _, ?_⟩
    have := (UInt32.ofNat intValue.toNat).toNat_lt
    omega
  · rintro ⟨n, hn, hnonneg, hlt⟩
    obtain ⟨result, hdigits, hvalue⟩ := utilsTextToInt_eq_some h
    have hwritten := hn
    unfold integerWritten at hwritten
    dsimp only at hwritten
    generalize (if text.head? = some 0x2D then text.tail else text) = digits at hdigits hwritten
    have hnumber : n = if text.head? = some 0x2D then -(digitsValue 0 digits : ℤ)
        else digitsValue 0 digits := by
      split_ifs at hwritten ⊢
      · exact (Option.some.inj hwritten).symm
      · exact (Option.some.inj hwritten).symm
    have hfit : digitsValue 0 digits < 2 ^ 32 := by
      split_ifs at hnumber
      · omega
      · omega
    have hresult : result.toNat = digitsValue 0 digits :=
      toNat_textDigits hdigits (by
        change digitsValue 0 digits < 2 ^ 64
        omega)
    have hsame : intValue = n := by rw [hvalue, hnumber, hresult]
    change integerWritten text = some ((UInt32.ofNat intValue.toNat).toNat : ℤ)
    rw [hn, hsame, UInt32.toNat_ofNat']
    congr 1
    omega

/-- A threshold that is read is the number written when that is the number of a `double`. -/
theorem exact_threshold_iff
    (hstrtod : ∀ text q, decimalWritten text = some q →
      (∃ d : Double, d.number = some q) → (strtod text).1.number = some q) {d : Double}
    (h : utilsTextToFloat strtod text text.length = .ok (some d)) :
    (AttributeValue.threshold d).Exact text ↔
      ∃ q, decimalWritten text = some q ∧ ∃ d : Double, d.number = some q := by
  constructor
  · rintro ⟨q, hq, hd⟩
    exact ⟨q, hq, d, hd⟩
  · rintro ⟨q, hq, hrepresented⟩
    refine ⟨q, hq, ?_⟩
    have hwhole : text.takeWhile (· ≠ 0) = text := by
      rw [List.takeWhile_eq_self_iff]
      exact fun b hb => decide_eq_true (ne_zero_of_decimalWritten hq b hb)
    unfold utilsTextToFloat at h
    rw [Int.toNat_natCast, List.take_length, hwhole] at h
    dsimp only at h
    split_ifs at h <;> cases h
    exact hstrtod text q hq hrepresented

/-- **When the value that is read is the number written.** -/
theorem exact_iff_fits
    (hstrtod : ∀ text q, decimalWritten text = some q →
      (∃ d : Double, d.number = some q) → (strtod text).1.number = some q)
    (h : readValue strtod a text text.length = .ok (some value)) :
    value.Exact text ↔ a.Fits text := by
  unfold readValue at h
  unfold Attribute.Fits
  by_cases hperiod : a.IsPeriod
  · rw [if_pos hperiod, Except.ok.injEq, Option.bind_eq_some_iff] at h
    obtain ⟨intValue, hread, h⟩ := h
    split_ifs at h
    cases h
    rw [if_pos hperiod]
    exact exact_period_iff hread
  · rw [if_neg hperiod] at h
    obtain ⟨floatValue, hread, h⟩ := bind_eq_ok_iff.mp h
    rw [pure_eq_ok, Except.ok.injEq, Option.bind_eq_some_iff] at h
    obtain ⟨d, rfl, h⟩ := h
    split_ifs at h
    cases h
    rw [if_neg hperiod]
    exact exact_threshold_iff hstrtod hread

/-! ### The query -/

/-- **When the attributes are read from the bytes of the options alone**, and are the numbers
written there: no option that is reached is misread, and when all options can be read each number
is one that the value of its attribute can be. -/
theorem prvReadAttributes_readsPrecisely_iff (hstrtod : ∀ text q, decimalWritten text = some q →
      (∃ d : Double, d.number = some q) → (strtod text).1.number = some q)
    (query : List MultiOption) :
    ReadsPrecisely strtod query ↔
      NoneMisread strtod (fun _ => False) query ∧
      (ReadableAfter strtod (fun _ => False) query → ∀ option ∈ query, ∀ a : Attribute, ∀ text,
        option.content = a.str ++ text → a.Fits text) := by
  have hsaid : noAttributes.Said = fun _ => False := by
    funext a
    refine eq_false fun h => ?_
    cases a <;> exact absurd h (by decide)
  have hnone (a : Attribute) : ¬ noAttributes.toSet &&& a.flag ≠ 0 ∧
      ¬ noAttributes.toClear &&& a.flag ≠ 0 := by
    cases a <;> decide
  have halone := readAttributesLoop_alone_iff strtod noAttributes query
  have hreadable := readAttributesLoop_alone_eq_zero_iff strtod noAttributes query
  rw [hsaid] at halone hreadable
  constructor
  · rintro ⟨hsame, hsays⟩
    refine ⟨halone.mp hsame, fun hread option hoption a text hcontent => ?_⟩
    obtain ⟨attrP, hzero⟩ := hreadable.mpr hread
    obtain ⟨-, -, hvalues⟩ := readAttributesLoop_alone_eq_zero hzero
    have hmeant := hsays attrP (hsame.trans hzero)
    exact (exact_iff_fits hstrtod (hvalues option hoption a text hcontent)).mp
      (hmeant.value option hoption a text hcontent)
  · rintro ⟨hmisread, hfits⟩
    have hsame := halone.mpr hmisread
    refine ⟨hsame, fun attrP hzero => ?_⟩
    have hzero : readAttributesLoop strtod noAttributes (query.map MultiOption.alone) =
        .ok (0, attrP) := hsame.symm.trans hzero
    obtain ⟨hset, hclears, hvalues⟩ := readAttributesLoop_alone_eq_zero hzero
    have hfits := hfits (hreadable.mp ⟨attrP, hzero⟩)
    refine ⟨fun a => ?_, fun a => ?_, fun option hoption a text hcontent => ?_⟩
    · rw [hset, or_iff_right (hnone a).1]
    · rw [hclears, or_iff_right (hnone a).2]
    · exact (exact_iff_fits hstrtod (hvalues option hoption a text hcontent)).mpr
        (hfits option hoption a text hcontent)

end strtod

/-- An option with bytes behind it. -/
def optionThen (content behind : List Byte) (h : content.length < 256 := by decide) :
    MultiOption where
  len := UInt8.ofNat content.length
  data := content ++ behind
  len_le := by
    rw [UInt8.toNat_ofNat_of_lt' h, List.length_append]
    exact Nat.le_add_right _ _

/-- A conversion of the decimal numbers that a `double` can be. -/
noncomputable def strtodOfDecimal (text : CString) : Double × ℕ :=
  open Classical in
  match decimalWritten text with
  | some q => (if h : ∃ d : Double, d.number = some q then h.choose else ⟨0⟩, text.length)
  | none => (⟨0⟩, 0)

/-- A query with `pmin=5`, `gt=2.5` and, as the last option before the payload, `lt`. -/
theorem prvReadAttributes_readsPrecisely : ReadsPrecisely strtodOfDecimal
    [optionThen [0x70, 0x6D, 0x69, 0x6E, 0x3D, 0x35] [0x06],
      optionThen [0x67, 0x74, 0x3D, 0x32, 0x2E, 0x35] [0x02],
      optionThen [0x6C, 0x74] [0xFF]] := by
  refine (prvReadAttributes_readsPrecisely_iff ?_ _).mpr ⟨?_, fun _ => ?_⟩
  · intro text q hq hrepresented
    unfold strtodOfDecimal
    rw [hq]
    dsimp only
    rw [dif_pos hrepresented]
    exact hrepresented.choose_spec
  · exact ⟨fun a h => absurd h (by cases a <;> decide), fun _ _ _ =>
      ⟨fun a h => absurd h (by cases a <;> decide), fun _ _ _ =>
        ⟨fun a h => absurd h (by cases a <;> decide), fun _ _ _ => trivial⟩⟩⟩
  · have hpmin : (optionThen [0x70, 0x6D, 0x69, 0x6E, 0x3D, 0x35] [0x06]).content =
        Attribute.minPeriod.str ++ [0x35] := rfl
    have hgt : (optionThen [0x67, 0x74, 0x3D, 0x32, 0x2E, 0x35] [0x02]).content =
        Attribute.greaterThan.str ++ [0x32, 0x2E, 0x35] := rfl
    have hlt : (optionThen [0x6C, 0x74] [0xFF]).content = Attribute.lessThan.name := rfl
    refine List.forall_mem_cons.mpr ⟨fun a text h => ?_, List.forall_mem_cons.mpr
      ⟨fun a text h => ?_, List.forall_mem_singleton.mpr fun a text h =>
        absurd h (MultiOption.content_ne_str hlt text)⟩⟩
    · obtain ⟨rfl, rfl⟩ := (MultiOption.content_eq_str_iff hpmin).mp h
      exact ⟨5, by decide, by decide, by decide⟩
    · obtain ⟨rfl, rfl⟩ := (MultiOption.content_eq_str_iff hgt).mp h
      refine ⟨(digitsValue 0 [0x32, 0x35] : ℚ) / 10 ^ 1, rfl, ⟨0x4004000000000000⟩, ?_⟩
      have hbits : (0x4004000000000000 : UInt64).toNat = 0x4004000000000000 := rfl
      have hdigits : digitsValue 0 [0x32, 0x35] = 25 := rfl
      unfold Double.number
      rw [hbits, hdigits]
      norm_num
      have hpow : (2 : ℚ) ^ 1075 = 2 ^ 51 * 2 ^ 1024 := by rw [← pow_add]
      rw [hpow, mul_div_mul_right _ _ (pow_ne_zero _ two_ne_zero)]
      norm_num

/-- The same option in two datagrams, before a payload and before an option whose header is '=': the
attribute is cleared in one and set to zero in the other. -/
theorem prvReadAttributes_behind :
    [optionThen [0x70, 0x6D, 0x69, 0x6E] [0xFF, 0x30]].map MultiOption.alone =
        [optionThen [0x70, 0x6D, 0x69, 0x6E] [0x3D, 0x00]].map MultiOption.alone ∧
      prvReadAttributes (fun _ => (⟨0⟩, 0)) [optionThen [0x70, 0x6D, 0x69, 0x6E] [0xFF, 0x30]] =
        .ok (0, { noAttributes with toClear := attrFlagMinPeriod }) ∧
      prvReadAttributes (fun _ => (⟨0⟩, 0)) [optionThen [0x70, 0x6D, 0x69, 0x6E] [0x3D, 0x00]] =
        .ok (0, { noAttributes with toSet := attrFlagMinPeriod }) :=
  ⟨rfl, rfl, rfl⟩

-- `pmin=4294967296`, which has 33 bits, is read as 0
example : prvReadAttributes (fun _ => (⟨0⟩, 0)) [optionThen
    [0x70, 0x6D, 0x69, 0x6E, 0x3D, 0x34, 0x32, 0x39, 0x34, 0x39, 0x36, 0x37, 0x32, 0x39, 0x36] []] =
      .ok (0, { noAttributes with toSet := attrFlagMinPeriod }) := rfl

end Lwm2m.Core

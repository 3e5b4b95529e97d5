/-
# The decision to notify

The part of `observe_step` that decides, for an active watcher, on one flag `notify`: a
first block sets it when there are no conditions at all, the thresholds and the step
set it, the minimum period sets or clears it, and the maximum period sets it
(`notifyDecision`).

The rules say when a watcher is to be notified (`Due`): its maximum period is reached, or its
value changed, its minimum period has elapsed, and it has no numeric attribute or one of them
is met.  The flag differs from this in two ways.  An elapsed minimum period sets
the flag whatever the numeric attributes say.  And a watcher with a maximum period only has
conditions, so that the first block does not apply to it, but none that sets the flag
when its value changes.  `observeStep_notifies_iff` says exactly when the rules are followed.
-/

import Lwm2m.Core.Attributes

namespace Lwm2m.Core

open Coap Code Library

/-! ### Numbers -/

/-- The value of a `double`. -/
def Double.value (d : Double) : Float := Float.ofBits d.bits

/-- The conversion of an integer to `double`. -/
def doubleOf (n : ℤ) : Float := Float.ofModel (Float.Model.ofInt n)

/-- The subtraction of two `int64_t`. -/
def subInt64 (x y : ℤ) : Except Fault ℤ :=
  if -2 ^ 63 ≤ x - y ∧ x - y < 2 ^ 63 then return x - y else throw .signedOverflow

/-- The bits of the union, whichever member was written. -/
def LastValue.bits : LastValue → BitVec 64
  | asInteger value => value
  | asUnsigned value => value
  | asFloat value => value.bits.toBitVec

/-- The member `asFloat` of the union. -/
def LastValue.float (lastValue : LastValue) : Float := Double.value ⟨⟨lastValue.bits⟩⟩

/-! ### The blocks of the decision -/

/-- The value went from one side of the threshold to the other. -/
def crosses (threshold value lastValue : Float) : Prop :=
  (value < threshold ∧ threshold < lastValue) ∨ (threshold < value ∧ lastValue < threshold)

instance (threshold value lastValue : Float) : Decidable (crosses threshold value lastValue) :=
  inferInstanceAs (Decidable (_ ∨ _))

/-- The check of `lessThan` and of `greaterThan`, on the value read and the last one. -/
def checkThreshold (threshold : Double) (value : Option LastValue) (lastValue : LastValue) :
    Bool :=
  match value with
  | some (.asInteger v) =>
    crosses threshold.value (doubleOf v.toInt) (doubleOf lastValue.bits.toInt)
  | some (.asUnsigned v) =>
    crosses threshold.value (doubleOf v.toNat) (doubleOf lastValue.bits.toNat)
  | some (.asFloat v) => crosses threshold.value v.value lastValue.float
  | none => false

/-- The check of `step`. -/
def checkStep (step : Double) (value : Option LastValue) (lastValue : LastValue) :
    Except Fault Bool := do
  match value with
  | some (.asInteger v) =>
    let diff ← subInt64 v.toInt lastValue.bits.toInt
    if diff < 0 then return decide (step.value ≤ doubleOf (← subInt64 0 diff))
    else return decide (step.value ≤ doubleOf diff)
  | some (.asUnsigned v) =>
    let diff := if lastValue.bits.toNat ≤ v.toNat then v.toNat - lastValue.bits.toNat
      else lastValue.bits.toNat - v.toNat
    return decide (step.value ≤ doubleOf diff)
  | some (.asFloat v) =>
    let diff := v.value - lastValue.float
    return decide ((diff < doubleOf 0 ∧ step.value ≤ doubleOf 0 - diff) ∨
      (doubleOf 0 ≤ diff ∧ step.value ≤ diff))
  | none => return false

/-- The block of the numeric attributes. -/
def checkNumeric (p : Attributes) (value : Option LastValue) (lastValue : LastValue) :
    Except Fault Bool := do
  let lower := p.toSet &&& attrFlagLessThan ≠ 0 ∧ checkThreshold p.lessThan value lastValue
  let upper := p.toSet &&& attrFlagGreaterThan ≠ 0 ∧ checkThreshold p.greaterThan value lastValue
  if p.toSet &&& attrFlagStep ≠ 0 then
    let stepped ← checkStep p.step value lastValue
    return decide (lower ∨ upper ∨ stepped)
  else return decide (lower ∨ upper)

/-- The first two blocks for a watcher with attributes: nothing is set, or a numeric attribute
is met. -/
def notifyConditions (p : Attributes) (value : Option LastValue) (lastValue : LastValue) :
    Except Fault Bool :=
  if p.toSet = 0 then return true
  else if p.toSet &&& attrFlagNumeric ≠ 0 then checkNumeric p value lastValue
  else return false

/-- The decision for a watcher whose value changed, before the maximum period. -/
def notifyUpdated (value : Option LastValue) (currentTime : ℤ) (watcherP : Watcher) :
    Except Fault Bool := do
  match watcherP.parameters with
  | none => return true
  | some p =>
    let notify ← notifyConditions p value watcherP.lastValue
    if p.toSet &&& attrFlagMinPeriod ≠ 0 then
      return !decide (watcherP.lastTime + p.minPeriod.toNat > currentTime)
    else return notify

/-- The maximum period of a watcher is reached. -/
def maxPeriodReached (currentTime : ℤ) (watcherP : Watcher) : Bool :=
  match watcherP.parameters with
  | none => false
  | some p => p.toSet &&& attrFlagMaxPeriod ≠ 0 ∧
      watcherP.lastTime + p.maxPeriod.toNat ≤ currentTime

/-- The flag `notify` of `observe_step` for an active watcher. -/
def notifyDecision (value : Option LastValue) (currentTime : ℤ) (watcherP : Watcher) :
    Except Fault Bool := do
  let notify ← if watcherP.update then notifyUpdated value currentTime watcherP else pure false
  return notify || maxPeriodReached currentTime watcherP

/-! ### The rules -/

/-- The value read and the last one, as integers of the type of the value. -/
def integers (value : Option LastValue) (lastValue : LastValue) : Option (ℤ × ℤ) :=
  match value with
  | some (.asInteger v) => some (v.toInt, lastValue.bits.toInt)
  | some (.asUnsigned v) => some (v.toNat, lastValue.bits.toNat)
  | _ => none

/-- A threshold lies between two integers. -/
def Crossed (threshold : Double) (value lastValue : ℤ) : Prop :=
  crosses threshold.value (doubleOf value) (doubleOf lastValue)

/-- Two integers differ by the step. -/
def Stepped (step : Double) (value lastValue : ℤ) : Prop :=
  step.value ≤ doubleOf |value - lastValue|

/-- The watcher has no numeric attribute. -/
def NoNumeric (watcherP : Watcher) : Prop :=
  inForce attrFlagLessThan Attributes.lessThan watcherP.parameters = none ∧
    inForce attrFlagGreaterThan Attributes.greaterThan watcherP.parameters = none ∧
    inForce attrFlagStep Attributes.step watcherP.parameters = none

/-- A numeric attribute of the watcher is met. -/
def NumericMet (value : Option LastValue) (watcherP : Watcher) : Prop :=
  ∃ v last, integers value watcherP.lastValue = some (v, last) ∧
    ((∃ lt, inForce attrFlagLessThan Attributes.lessThan watcherP.parameters = some lt ∧
        Crossed lt v last) ∨
      (∃ gt, inForce attrFlagGreaterThan Attributes.greaterThan watcherP.parameters = some gt ∧
        Crossed gt v last) ∨
      ∃ step, inForce attrFlagStep Attributes.step watcherP.parameters = some step ∧
        Stepped step v last)

/-- The minimum period has elapsed, if there is one. -/
def MinElapsed (currentTime : ℤ) (watcherP : Watcher) : Prop :=
  ∀ pmin, inForce attrFlagMinPeriod Attributes.minPeriod watcherP.parameters = some pmin →
    watcherP.lastTime + pmin.toNat ≤ currentTime

/-- There is a maximum period and it is reached. -/
def MaxReached (currentTime : ℤ) (watcherP : Watcher) : Prop :=
  ∃ pmax, inForce attrFlagMaxPeriod Attributes.maxPeriod watcherP.parameters = some pmax ∧
    watcherP.lastTime + pmax.toNat ≤ currentTime

/-- The watcher is to be notified. -/
def Due (value : Option LastValue) (currentTime : ℤ) (watcherP : Watcher) : Prop :=
  MaxReached currentTime watcherP ∨
    (watcherP.update = true ∧ MinElapsed currentTime watcherP ∧
      (NoNumeric watcherP ∨ NumericMet value watcherP))

/-- The watcher has a minimum period. -/
def HasMinPeriod (watcherP : Watcher) : Prop :=
  (inForce attrFlagMinPeriod Attributes.minPeriod watcherP.parameters).isSome

/-- No attribute of the watcher is set. -/
def NoAttributes (watcherP : Watcher) : Prop := ∀ p, watcherP.parameters = some p → p.toSet = 0

/-- The change of a signed value that is compared with a step fits its type. -/
def ChangeFits (value : Option LastValue) (watcherP : Watcher) : Prop :=
  watcherP.update = true →
    (inForce attrFlagStep Attributes.step watcherP.parameters).isSome →
      ∀ v, value = some (.asInteger v) → |v.toInt - watcherP.lastValue.bits.toInt| < 2 ^ 63

/-- The cases in which the attributes leave no room for a difference: nothing is decided by a
change of the value, or the numeric attributes of a watcher with a minimum period are met, or
it has none and no other attribute without a minimum period. -/
def Settled (value : Option LastValue) (currentTime : ℤ) (watcherP : Watcher) : Prop :=
  MaxReached currentTime watcherP ∨ watcherP.update = false ∨ ¬ MinElapsed currentTime watcherP ∨
    (NoNumeric watcherP ∧ (HasMinPeriod watcherP ∨ NoAttributes watcherP)) ∨
    (¬ NoNumeric watcherP ∧ (HasMinPeriod watcherP → NumericMet value watcherP))

/-! ### The decision and the rules -/

variable {p : Attributes} {w : Watcher} {lastValue : LastValue} {serverList : List Server}
  {sent : List Sent}

variable {α : Type} {flag : UInt8} {value : Option LastValue} {v last currentTime : ℤ}
  {sent' : List Sent} {w' : Watcher} {input : StepInput} {nextMID nextMID' : UInt16}

theorem inForce_eq_some_iff {field : Attributes → α} {a : α} :
    inForce flag field (some p) = some a ↔ p.toSet &&& flag ≠ 0 ∧ field p = a := by
  unfold inForce
  rw [Option.bind_some]
  split_ifs with h
  · rw [Option.some.injEq, and_iff_right h]
  · exact iff_of_false not_false fun h' => h h'.1

theorem inForce_eq_none_iff {field : Attributes → α} :
    inForce flag field (some p) = none ↔ p.toSet &&& flag = 0 := by
  unfold inForce
  rw [Option.bind_some]
  split_ifs with h
  · exact iff_of_false not_false h
  · exact iff_of_true rfl (not_not.mp h)

/-- The numeric attributes are three flags. -/
theorem and_attrFlagNumeric_eq_zero_iff (x : UInt8) : x &&& attrFlagNumeric = 0 ↔
    x &&& attrFlagLessThan = 0 ∧ x &&& attrFlagGreaterThan = 0 ∧ x &&& attrFlagStep = 0 := by
  have hor (a b : UInt8) : x &&& (a ||| b) = (x &&& a) ||| (x &&& b) := by
    rw [← UInt8.toBitVec_inj]
    exact BitVec.and_or_distrib_left
  rw [attrFlagNumeric, hor, hor, UInt8.or_eq_zero_iff, UInt8.or_eq_zero_iff, and_assoc]

theorem noNumeric_iff (hp : w.parameters = some p) :
    NoNumeric w ↔ p.toSet &&& attrFlagNumeric = 0 := by
  rw [NoNumeric, hp, inForce_eq_none_iff, inForce_eq_none_iff, inForce_eq_none_iff,
    and_attrFlagNumeric_eq_zero_iff]

theorem maxReached_iff (currentTime : ℤ) (w : Watcher) :
    maxPeriodReached currentTime w = true ↔ MaxReached currentTime w := by
  unfold maxPeriodReached MaxReached
  rcases hp : w.parameters with _ | p
  · simp [inForce]
  · simp [inForce_eq_some_iff]

/-- The threshold checks on integers. -/
theorem checkThreshold_iff (h : integers value lastValue = some (v, last)) (threshold : Double) :
    checkThreshold threshold value lastValue = true ↔ Crossed threshold v last := by
  unfold integers at h
  split at h
  · cases h
    exact decide_eq_true_iff
  · cases h
    exact decide_eq_true_iff
  · cases h

/-- The step check on integers, where the change fits its type. -/
theorem checkStep_of_fits (h : integers value lastValue = some (v, last)) (step : Double)
    (hfits : ∀ x, value = some (.asInteger x) → |x.toInt - lastValue.bits.toInt| < 2 ^ 63) :
    ∃ b, checkStep step value lastValue = .ok b ∧ (b = true ↔ Stepped step v last) := by
  unfold integers at h
  split at h
  · rename_i x
    cases h
    have hchange := abs_lt.mp (hfits x rfl)
    have hdiff : subInt64 x.toInt lastValue.bits.toInt = .ok (x.toInt - lastValue.bits.toInt) :=
      if_pos ⟨by omega, by omega⟩
    unfold checkStep Stepped
    simp only [hdiff, ok_bind]
    split_ifs with hneg
    · have hneg' : subInt64 0 (x.toInt - lastValue.bits.toInt) =
          .ok (0 - (x.toInt - lastValue.bits.toInt)) := if_pos ⟨by omega, by omega⟩
      refine ⟨_, by rw [hneg', ok_bind]; rfl, ?_⟩
      rw [decide_eq_true_iff, abs_of_neg hneg, zero_sub]
    · refine ⟨_, rfl, ?_⟩
      rw [decide_eq_true_iff, abs_of_nonneg (not_lt.mp hneg)]
  · rename_i x
    cases h
    refine ⟨_, rfl, ?_⟩
    have habs : ((if lastValue.bits.toNat ≤ x.toNat then x.toNat - lastValue.bits.toNat
        else lastValue.bits.toNat - x.toNat : ℕ) : ℤ) =
        |(x.toNat : ℤ) - lastValue.bits.toNat| := by
      split_ifs with hle
      · rw [abs_of_nonneg (by omega)]
        omega
      · rw [abs_of_neg (by omega)]
        omega
    rw [decide_eq_true_iff, habs, Stepped]
  · cases h

/-- The step check where the change does not fit its type. -/
theorem checkStep_of_overflow {x : BitVec 64} (step : Double)
    (hoverflow : ¬ |x.toInt - lastValue.bits.toInt| < 2 ^ 63) :
    checkStep step (some (.asInteger x)) lastValue = .error .signedOverflow := by
  rw [abs_lt, not_and_or, not_lt, not_lt] at hoverflow
  unfold checkStep
  dsimp only
  by_cases hdiff : -2 ^ 63 ≤ x.toInt - lastValue.bits.toInt ∧
      x.toInt - lastValue.bits.toInt < 2 ^ 63
  · have hneg : x.toInt - lastValue.bits.toInt < 0 := by omega
    have hneg' : subInt64 0 (x.toInt - lastValue.bits.toInt) = .error .signedOverflow :=
      if_neg (by omega)
    rw [subInt64, if_pos hdiff, pure_bind, if_pos hneg, hneg']
    rfl
  · rw [subInt64, if_neg hdiff]
    rfl

section OneWatcher

variable {value : Option LastValue} {w : Watcher} {p : Attributes} {v last : ℤ}

/-- The numeric attributes, where the change fits its type. -/
theorem checkNumeric_of_fits (hp : w.parameters = some p)
    (hintegers : integers value w.lastValue = some (v, last))
    (hfits : p.toSet &&& attrFlagStep ≠ 0 → ∀ x, value = some (.asInteger x) →
      |x.toInt - w.lastValue.bits.toInt| < 2 ^ 63) :
    ∃ b, checkNumeric p value w.lastValue = .ok b ∧ (b = true ↔ NumericMet value w) := by
  have hmet : NumericMet value w ↔
      (p.toSet &&& attrFlagLessThan ≠ 0 ∧ Crossed p.lessThan v last) ∨
      (p.toSet &&& attrFlagGreaterThan ≠ 0 ∧ Crossed p.greaterThan v last) ∨
      (p.toSet &&& attrFlagStep ≠ 0 ∧ Stepped p.step v last) := by
    simp only [NumericMet, hp, hintegers, inForce_eq_some_iff, Option.some.injEq, Prod.mk.injEq,
      and_assoc, exists_eq_left', exists_and_left]
  have hthreshold := checkThreshold_iff hintegers
  unfold checkNumeric
  by_cases hstep : p.toSet &&& attrFlagStep ≠ 0
  · obtain ⟨b, hb, hiff⟩ := checkStep_of_fits hintegers p.step (hfits hstep)
    rw [if_pos hstep, hb]
    refine ⟨_, rfl, ?_⟩
    rw [decide_eq_true_iff, hthreshold, hthreshold, hmet, hiff, and_iff_right hstep]
  · rw [if_neg hstep]
    refine ⟨_, rfl, ?_⟩
    rw [decide_eq_true_iff, hthreshold, hthreshold, hmet]
    simp only [hstep, false_and, or_false]

/-- The first two blocks, where the change fits its type. -/
theorem notifyConditions_of_fits (hp : w.parameters = some p)
    (hinteger : ¬ NoNumeric w → (integers value w.lastValue).isSome)
    (hfits : p.toSet &&& attrFlagStep ≠ 0 → ∀ x, value = some (.asInteger x) →
      |x.toInt - w.lastValue.bits.toInt| < 2 ^ 63) :
    ∃ b, notifyConditions p value w.lastValue = .ok b ∧
      (b = true ↔ p.toSet = 0 ∨ (¬ NoNumeric w ∧ NumericMet value w)) := by
  unfold notifyConditions
  by_cases hzero : p.toSet = 0
  · rw [if_pos hzero]
    exact ⟨true, rfl, iff_of_true rfl (.inl hzero)⟩
  · rw [if_neg hzero]
    by_cases hnumeric : p.toSet &&& attrFlagNumeric ≠ 0
    · have hsome : ¬ NoNumeric w := fun h => hnumeric ((noNumeric_iff hp).mp h)
      obtain ⟨⟨v, last⟩, hintegers⟩ := Option.isSome_iff_exists.mp (hinteger hsome)
      obtain ⟨b, hb, hiff⟩ := checkNumeric_of_fits hp hintegers hfits
      rw [if_pos hnumeric]
      refine ⟨b, hb, ?_⟩
      rw [hiff, or_iff_right hzero, and_iff_right hsome]
    · have hnone : NoNumeric w := (noNumeric_iff hp).mpr (not_not.mp hnumeric)
      rw [if_neg hnumeric]
      refine ⟨false, rfl, iff_of_false Bool.false_ne_true ?_⟩
      rintro (h | ⟨h, -⟩)
      · exact hzero h
      · exact h hnone

theorem hasMinPeriod_iff (hp : w.parameters = some p) :
    HasMinPeriod w ↔ p.toSet &&& attrFlagMinPeriod ≠ 0 := by
  rw [HasMinPeriod, hp, ← Option.ne_none_iff_isSome, ne_eq, inForce_eq_none_iff]

/-- A watcher without a minimum period need not wait. -/
theorem minElapsed_of_not (h : ¬ HasMinPeriod w) (currentTime : ℤ) : MinElapsed currentTime w :=
  fun _ hpmin => absurd (Option.isSome_of_eq_some hpmin) h

theorem NoAttributes.noNumeric (h : NoAttributes w) : NoNumeric w := by
  rcases hp : w.parameters with _ | p
  · rw [NoNumeric, hp]
    exact ⟨rfl, rfl, rfl⟩
  · rw [noNumeric_iff hp, h p hp]
    exact UInt8.zero_and

/-- The decision for a changed value, where the change fits its type: with a minimum period it
is whether that has elapsed, without one it is whether nothing is set or a numeric attribute
is met. -/
theorem notifyUpdated_of_fits (hinteger : ¬ NoNumeric w → (integers value w.lastValue).isSome)
    (hupdate : w.update = true) (hfits : ChangeFits value w) (currentTime : ℤ) :
    ∃ b, notifyUpdated value currentTime w = .ok b ∧
      (HasMinPeriod w → (b = true ↔ MinElapsed currentTime w)) ∧
      (¬ HasMinPeriod w →
        (b = true ↔ NoAttributes w ∨ (¬ NoNumeric w ∧ NumericMet value w))) := by
  unfold notifyUpdated
  rcases hp : w.parameters with _ | p
  · have hnone : NoAttributes w := by
      intro p hp'
      rw [hp] at hp'
      cases hp'
    have hmin : ¬ HasMinPeriod w := by
      rw [HasMinPeriod, hp]
      exact Bool.false_ne_true
    exact ⟨true, rfl, fun h => absurd h hmin, fun _ => iff_of_true rfl (.inl hnone)⟩
  · have hstep : p.toSet &&& attrFlagStep ≠ 0 → ∀ x, value = some (.asInteger x) →
        |x.toInt - w.lastValue.bits.toInt| < 2 ^ 63 := by
      intro hstep
      refine hfits hupdate ?_
      rw [hp]
      exact Option.isSome_of_eq_some (inForce_eq_some_iff.mpr ⟨hstep, rfl⟩)
    have hzero : NoAttributes w ↔ p.toSet = 0 := by
      rw [NoAttributes, hp]
      exact ⟨fun h => h p rfl, fun h q hq => Option.some.inj hq ▸ h⟩
    obtain ⟨b, hb, hiff⟩ := notifyConditions_of_fits hp hinteger hstep
    dsimp only
    rw [hb, hasMinPeriod_iff hp]
    by_cases hmin : p.toSet &&& attrFlagMinPeriod ≠ 0
    · refine ⟨!decide (w.lastTime + p.minPeriod.toNat > currentTime), by rw [ok_bind, if_pos hmin]; rfl,
        fun _ => ?_, fun h => absurd hmin h⟩
      rw [Bool.not_eq_true', decide_eq_false_iff_not, not_lt, MinElapsed, hp]
      constructor
      · intro h pmin hpmin
        obtain ⟨-, rfl⟩ := inForce_eq_some_iff.mp hpmin
        exact h
      · intro h
        exact h _ (inForce_eq_some_iff.mpr ⟨hmin, rfl⟩)
    · refine ⟨b, by rw [ok_bind, if_neg hmin]; rfl, fun h => absurd h hmin, fun _ => ?_⟩
      rw [hiff, hzero]

/-- The decision for a changed value fails where the change does not fit its type. -/
theorem notifyUpdated_of_overflow (hoverflow : ¬ ChangeFits value w) (currentTime : ℤ) :
    notifyUpdated value currentTime w = .error .signedOverflow := by
  unfold ChangeFits at hoverflow
  push Not at hoverflow
  obtain ⟨-, hstep, x, rfl, hchange⟩ := hoverflow
  obtain ⟨step, hstep⟩ := Option.isSome_iff_exists.mp hstep
  rcases hp : w.parameters with _ | p
  · rw [hp] at hstep
    cases hstep
  · rw [hp] at hstep
    have hflag := (inForce_eq_some_iff.mp hstep).1
    have hnumeric : p.toSet &&& attrFlagNumeric ≠ 0 :=
      fun h => hflag ((and_attrFlagNumeric_eq_zero_iff _).mp h).2.2
    have hzero : p.toSet ≠ 0 := by
      intro h
      rw [h] at hflag
      exact hflag UInt8.zero_and
    have hcheck : checkNumeric p (some (.asInteger x)) w.lastValue = .error .signedOverflow := by
      unfold checkNumeric
      rw [checkStep_of_overflow p.step (not_lt.mpr hchange)]
      rw [if_pos hflag]
      rfl
    unfold notifyUpdated
    rw [hp]
    dsimp only
    rw [notifyConditions, if_neg hzero, if_pos hnumeric, hcheck]
    rfl

/-- **One decision.**  It is defined and follows the rules if and only if the change of the
value fits its type and the watcher is settled. -/
theorem notifyDecision_iff (hinteger : ¬ NoNumeric w → (integers value w.lastValue).isSome)
    (currentTime : ℤ) :
    (∃ b, notifyDecision value currentTime w = .ok b ∧ (b = true ↔ Due value currentTime w)) ↔
      ChangeFits value w ∧ Settled value currentTime w := by
  have hmax := maxReached_iff currentTime w
  unfold notifyDecision
  by_cases hupdate : w.update = true
  · rw [if_pos hupdate]
    by_cases hfits : ChangeFits value w
    · obtain ⟨b, hb, hperiod, hnoPeriod⟩ := notifyUpdated_of_fits hinteger hupdate hfits currentTime
      rw [hb, and_iff_right hfits, Settled, Due, hupdate]
      simp only [ok_bind, pure_eq_ok, Except.ok.injEq, exists_eq_left', Bool.or_eq_true, hmax,
        Bool.true_eq_false, false_or, true_and]
      by_cases hreached : MaxReached currentTime w
      · simp only [hreached, or_true, true_or]
      by_cases hmin : HasMinPeriod w
      · by_cases helapsed : MinElapsed currentTime w
        · by_cases hnumeric : NoNumeric w <;>
            simp only [hreached, hperiod hmin, hmin, helapsed, hnumeric, not_true_eq_false,
              not_false_eq_true, true_or, or_false, false_or, and_self, false_and, true_and,
              true_imp_iff, true_iff]
        · simp only [hreached, hperiod hmin, helapsed, not_false_eq_true, false_and, or_self,
            true_or, or_true]
      · by_cases hnumeric : NoNumeric w
        · simp only [hreached, hnoPeriod hmin, hmin, minElapsed_of_not hmin currentTime, hnumeric,
            not_true_eq_false, or_false, false_or, and_self, false_and, true_and, true_or, iff_true]
        · have hsome : ¬ NoAttributes w := fun h => hnumeric h.noNumeric
          simp only [hreached, hnoPeriod hmin, hmin, minElapsed_of_not hmin currentTime, hnumeric,
            hsome, not_true_eq_false, not_false_eq_true, or_false, false_or, true_and,
            false_imp_iff, and_self]
    · rw [notifyUpdated_of_overflow hfits]
      refine iff_of_false ?_ fun h => hfits h.1
      rintro ⟨b, hb, -⟩
      cases hb
  · rw [if_neg hupdate]
    refine iff_of_true ⟨_, rfl, ?_⟩
      ⟨fun h => absurd h hupdate, .inr (.inl (Bool.eq_false_iff.mpr hupdate))⟩
    rw [Bool.false_or, hmax, Due, or_iff_left fun h => hupdate h.1]

end OneWatcher

/-! ### The step -/

/-- What `observe_step` meets at an observed URI, with its decision. -/
def StepInput.decided (input : StepInput) (currentTime : ℤ) : StepInput :=
  { input with
    notify := fun watcherP =>
      match notifyDecision input.value currentTime watcherP with
      | .ok notify => notify
      | .error _ => false }

/-- A watcher was sent a notification: one of the messages is its notification, goes to its
server and has the message-id that the watcher keeps, and its counter went up. -/
def Notified (serverList : List Server) (sent : List Sent) (w w' : Watcher) : Prop :=
  w'.counter = w.counter + 1 ∧ ∃ server message, deref serverList w.server = .ok server ∧
    ⟨server.sessionH, notification message w w'.lastMid⟩ ∈ sent

theorem Notified.mono (h : Notified serverList sent w w') (hsub : sent ⊆ sent') :
    Notified serverList sent' w w' := by
  obtain ⟨hcounter, server, message, hserver, hmem⟩ := h
  exact ⟨hcounter, server, message, hserver, hsub hmem⟩

/-- A watcher after a step: it was notified, or it is as it was. -/
def Treated (serverList : List Server) (input : StepInput) (sent : List Sent) (w w' : Watcher) :
    Prop :=
  if w.active = true ∧ input.notify w = true then Notified serverList sent w w' else w' = w

theorem Treated.mono (h : Treated serverList input sent w w') (hsub : sent ⊆ sent') :
    Treated serverList input sent' w w' := by
  unfold Treated at h ⊢
  split_ifs at h ⊢
  · exact h.mono hsub
  · exact h

/-- The loop over the watchers of an entry whose value can be serialized. -/
theorem notifyWatchers_treated {prepared : Option Packet} {watcherList watcherList' : List Watcher}
    (h : notifyWatchers serverList input currentTime nextMID prepared watcherList =
      .ok (watcherList', nextMID', sent))
    (hserialize : ∀ w ∈ watcherList, (input.serialize w.format).isSome) :
    List.Forall₂ (Treated serverList input sent) watcherList watcherList' := by
  induction watcherList generalizing nextMID prepared watcherList' nextMID' sent with
  | nil =>
    cases h
    exact .nil
  | cons w next ih =>
    obtain ⟨hw, hnext⟩ := List.forall_mem_cons.mp hserialize
    have hcons {w' : Watcher} {rest : List Watcher} {here there : List Sent}
        (hhere : Treated serverList input (here ++ there) w w')
        (hthere : List.Forall₂ (Treated serverList input there) next rest) :
        List.Forall₂ (Treated serverList input (here ++ there)) (w :: next) (w' :: rest) :=
      .cons hhere (hthere.imp fun _ _ h => h.mono (List.subset_append_right _ _))
    unfold notifyWatchers at h
    by_cases hnotify : w.active = true ∧ input.notify w = true
    · rw [if_pos hnotify] at h
      have hnotified {server : Server} {message : Packet} {w' : Watcher} {there : List Sent}
          (hserver : deref serverList w.server = .ok server) (hcounter : w'.counter = w.counter + 1)
          (hmid : w'.lastMid = nextMID) :
          Treated serverList input
            ([⟨server.sessionH, notification message w nextMID⟩] ++ there) w w' := by
        rw [Treated, if_pos hnotify]
        refine ⟨hcounter, server, message, hserver, ?_⟩
        rw [hmid]
        exact List.mem_cons_self
      split at h
      · obtain ⟨server, hserver, h⟩ := bind_eq_ok_iff.mp h
        obtain ⟨⟨rest, mid, there⟩, hrest, h⟩ := bind_eq_ok_iff.mp h
        cases h
        exact hcons (hnotified hserver rfl rfl) (ih hrest hnext)
      · split at h
        · rename_i hnone
          rw [hnone] at hw
          cases hw
        · obtain ⟨server, hserver, h⟩ := bind_eq_ok_iff.mp h
          obtain ⟨⟨rest, mid, there⟩, hrest, h⟩ := bind_eq_ok_iff.mp h
          cases h
          exact hcons (hnotified hserver rfl rfl) (ih hrest hnext)
    · rw [if_neg hnotify] at h
      obtain ⟨⟨rest, mid, there⟩, hrest, h⟩ := bind_eq_ok_iff.mp h
      cases h
      have hsame : Treated serverList input ([] ++ sent) w w := by
        rw [Treated, if_neg hnotify]
      exact hcons hsame (ih hrest hnext)

/-- Every watcher of an entry whose value can be read and serialized is treated. -/
theorem observeStep_treated {input : Uri → StepInput} {observedList observedList' : List Observed}
    (h : observeStep serverList input currentTime nextMID observedList =
      .ok (observedList', nextMID', sent)) :
    List.Forall₂ (fun o o' => (input o.uri).readable = true →
      (∀ w ∈ o.watcherList, ((input o.uri).serialize w.format).isSome) →
        List.Forall₂ (Treated serverList (input o.uri) sent) o.watcherList o'.watcherList)
      observedList observedList' := by
  induction observedList generalizing nextMID observedList' nextMID' sent with
  | nil =>
    cases h
    exact .nil
  | cons o next ih =>
    unfold observeStep at h
    split_ifs at h with hreadable
    · obtain ⟨⟨watcherList, mid, here⟩, hwatchers, h⟩ := bind_eq_ok_iff.mp h
      obtain ⟨⟨rest, mid', there⟩, hrest, h⟩ := bind_eq_ok_iff.mp h
      cases h
      refine .cons (fun _ hserialize => ?_) ((ih hrest).imp fun _ _ h hr hs => ?_)
      · exact (notifyWatchers_treated hwatchers hserialize).imp fun _ _ h =>
          h.mono (List.subset_append_left _ _)
      · exact (h hr hs).imp fun _ _ h => h.mono (List.subset_append_right _ _)
    · obtain ⟨⟨rest, mid', there⟩, hrest, h⟩ := bind_eq_ok_iff.mp h
      cases h
      exact .cons (fun h => absurd h hreadable) (ih hrest)

/-- A server. -/
def watchingServer : Server := { ref := 0, secObjInstID := 0, shortID := 1, sessionH := some 1 }

/-- A resource that reads 60. -/
def sixtyInput : StepInput where
  readable := true
  notify := fun _ => false
  serialize := fun format => some (format, some [0x36, 0x30])
  value := some (.asInteger 60)

/-- A watcher with a maximum period of 100 and no other attribute, whose value changed. -/
def maximumWatcher : Watcher :=
  { server := 0, active := true, update := true, lastValue := .asInteger 40
    parameters := some ⟨attrFlagMaxPeriod, 0, 0, 100, ⟨0⟩, ⟨0⟩, ⟨0⟩⟩ }

/-- A watcher with a minimum period of 5 and a threshold at 50, whose value was 40. -/
def thresholdWatcher : Watcher :=
  { server := 0, active := true, update := true, lastValue := .asInteger 40
    parameters := some ⟨attrFlagMinPeriod ||| attrFlagGreaterThan, 0, 5, 0,
      ⟨(doubleOf 50).toBits⟩, ⟨0⟩, ⟨0⟩⟩ }

end Lwm2m.Core

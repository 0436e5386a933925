import MultiDistributor.Guarantees.Authority
import MultiDistributor.Source.EnableSlot

/-!
# Enable slots computed from a time

The slot is the current slot shifted by the exact number of average slots between the
clock and the timestamp. The average is defined on the samples alone. The computation
panics on a sample without slots, on samples whose times do not add up to a `u64`, and on
a timestamp before the first slot; the sanity check comes too late for the first.
-/
namespace MultiDistributor.Source
open Lib.Checked

/-! ### The exact values -/

/-- Milliseconds per slot of one sample. -/
def slotMillis (sample : PerfSample) : Nat :=
  sample.samplePeriodSecs.toNat * 1000 / sample.numSlots.toNat

/-- The average the samples stand for: the default without samples, or when their mean is
not within a factor of two of it. -/
def averageMillis (samples : List PerfSample) : Nat :=
  if samples = [] then 400
  else if (samples.map slotMillis).sum / samples.length < 200 ∨
      800 < (samples.map slotMillis).sum / samples.length then 400
  else (samples.map slotMillis).sum / samples.length

theorem averageMillis_bounds (samples : List PerfSample) :
    200 ≤ averageMillis samples ∧ averageMillis samples ≤ 800 := by
  unfold averageMillis
  split
  · omega
  · split <;> omega

/-- Seconds of the chain clock. -/
def nowOf (clock : Clock) : Nat := clock.unixTimestamp.toInt.toNat

/-- Slots from now to a time in the future, and from a time in the past to now. -/
def slotsAhead (clock : Clock) (samples : List PerfSample) (timestamp : UInt64) : Nat :=
  (timestamp.toNat - nowOf clock) * 1000 / averageMillis samples

def slotsBehind (clock : Clock) (samples : List PerfSample) (timestamp : UInt64) : Nat :=
  (nowOf clock - timestamp.toNat) * 1000 / averageMillis samples

/-! ### What the source computes -/

theorem mulOrPanic_ok_iff {a b c : UInt64} :
    mulOrPanic a b = .ok c ↔ c.toNat = a.toNat * b.toNat := by
  rw [mulOrPanic, okOr_ok_iff, checkedMulU64_eq_some]

theorem divOrPanic_ok_iff {a b c : UInt64} :
    divOrPanic a b = .ok c ↔ b ≠ 0 ∧ c.toNat = a.toNat / b.toNat := by
  unfold divOrPanic
  by_cases zero : b = 0
  · simp [zero]
  · rw [if_neg zero, Except.ok.injEq, ← UInt64.toNat_inj, UInt64.toNat_div]
    simp [zero, eq_comm]

theorem addSample_ok_iff (totalTime : UInt64) (sample : PerfSample) (next : UInt64) :
    addSample totalTime sample = .ok next ↔
      sample.numSlots ≠ 0 ∧ next.toNat = totalTime.toNat + slotMillis sample := by
  have width := sample.samplePeriodSecs.toNat_lt
  have narrow : sample.samplePeriodSecs.toUInt64.toNat = sample.samplePeriodSecs.toNat := by simp
  have thousand : (1000 : UInt64).toNat = 1000 := rfl
  simp only [addSample, bind_ok_iff, mulOrPanic_ok_iff, divOrPanic_ok_iff, okOr_ok_iff,
    checkedAdd_eq_some, narrow, thousand]
  constructor
  · intro ⟨period, product, slotTime, ⟨some_slots, quotient⟩, sum⟩
    rw [sum, quotient, product]
    exact ⟨some_slots, rfl⟩
  · intro ⟨some_slots, sum⟩
    obtain ⟨period, product⟩ :=
      exists_u64 (show sample.samplePeriodSecs.toNat * 1000 < 2 ^ 64 by omega)
    have bound : slotMillis sample < 2 ^ 64 := by
      have := next.toNat_lt
      omega
    obtain ⟨slotTime, quotient⟩ := exists_u64 bound
    exact ⟨period, product, slotTime, ⟨some_slots, by rw [quotient, product, slotMillis]⟩,
      by omega⟩

/-- Samples the average can be computed from. -/
def Usable (samples : List PerfSample) : Prop :=
  (∀ sample ∈ samples, sample.numSlots ≠ 0) ∧ (samples.map slotMillis).sum < 2 ^ 64

theorem sum_ok_iff {samples : List PerfSample} {totalTime : UInt64} :
    samples.foldlM addSample 0 = .ok totalTime ↔
      (∀ sample ∈ samples, sample.numSlots ≠ 0) ∧
        totalTime.toNat = (samples.map slotMillis).sum := by
  rw [foldlM_sum_ok_iff addSample_ok_iff]
  simp

/-- The sanity check on the mean of the samples. -/
theorem sanityCheck_ok_iff {samples : List PerfSample} (nonempty : samples ≠ [])
    {totalTime average : UInt64} (sum : totalTime.toNat = (samples.map slotMillis).sum) :
    (if UInt64.ofNat (totalTime.toNat / samples.length) < defaultMsPerSlot / 2 ∨
        UInt64.ofNat (totalTime.toNat / samples.length) > defaultMsPerSlot * 2 then
      pure defaultMsPerSlot
    else pure (UInt64.ofNat (totalTime.toNat / samples.length)) : Except SlotPanic UInt64) =
      .ok average ↔ average.toNat = averageMillis samples := by
  have mean : (UInt64.ofNat (totalTime.toNat / samples.length)).toNat =
      (samples.map slotMillis).sum / samples.length := by
    have width := totalTime.toNat_lt
    have shrinks := Nat.div_le_self totalTime.toNat samples.length
    rw [UInt64.toNat_ofNat', Nat.mod_eq_of_lt (by omega), sum]
  have half : (defaultMsPerSlot / 2).toNat = 200 := rfl
  have double : (defaultMsPerSlot * 2).toNat = 800 := rfl
  have standard : defaultMsPerSlot.toNat = 400 := rfl
  simp only [averageMillis, if_neg nonempty, gt_iff_lt, UInt64.lt_iff_toNat_lt, mean, half, double]
  split
  · rw [pure_ok_iff, ← UInt64.toNat_inj, standard]
    exact eq_comm
  · rw [pure_ok_iff, ← UInt64.toNat_inj, mean]
    exact eq_comm

/-- The average is returned exactly on usable samples, and is the exact one. -/
theorem getAverageSlotTime_ok_iff {samples : List PerfSample} {average : UInt64} :
    getAverageSlotTime samples = .ok average ↔
      Usable samples ∧ average.toNat = averageMillis samples := by
  by_cases empty : samples = []
  · subst samples
    have standard : defaultMsPerSlot.toNat = averageMillis [] := rfl
    have usable : Usable [] := ⟨by simp, by simp⟩
    rw [getAverageSlotTime, List.length_nil, if_pos rfl, pure_ok_iff, ← UInt64.toNat_inj, standard]
    exact ⟨fun value => ⟨usable, value.symm⟩, fun h => h.2.symm⟩
  have some_sample : ¬ samples.length = 0 := fun none => empty (List.length_eq_zero_iff.mp none)
  simp only [getAverageSlotTime, if_neg some_sample, bind_ok_iff, sum_ok_iff]
  constructor
  · intro ⟨totalTime, ⟨some_slots, sum⟩, result⟩
    have width := totalTime.toNat_lt
    exact ⟨⟨some_slots, by omega⟩, (sanityCheck_ok_iff empty sum).mp result⟩
  · intro ⟨⟨some_slots, fits⟩, value⟩
    obtain ⟨totalTime, sum⟩ := exists_u64 fits
    exact ⟨totalTime, ⟨some_slots, sum⟩, (sanityCheck_ok_iff empty sum).mpr value⟩

theorem currentTimeOf_ok_iff {clock : Clock} {now : UInt64} :
    currentTimeOf clock = .ok now ↔ 0 ≤ clock.unixTimestamp ∧ now.toNat = nowOf clock := by
  have value : (UInt64.ofNat clock.unixTimestamp.toInt.toNat).toNat = nowOf clock := by
    have upper := clock.unixTimestamp.toInt_lt
    rw [UInt64.toNat_ofNat', Nat.mod_eq_of_lt (by omega), nowOf]
  unfold currentTimeOf
  split
  · next positive =>
    rw [Except.ok.injEq, ← UInt64.toNat_inj, value]
    exact ⟨fun same => ⟨positive, same.symm⟩, fun h => h.2.symm⟩
  · next negative => simp [negative]

section
variable {clock : Clock} {samples : List PerfSample} {timestamp slot : UInt64}

theorem average_ne_zero {average : UInt64} (value : average.toNat = averageMillis samples) :
    average ≠ 0 := by
  rintro rfl
  have bounds := averageMillis_bounds samples
  rw [← value] at bounds
  exact absurd bounds.1 (by decide)

/-- A returned slot is the exact one. -/
theorem slotAtTime_ok (success : slotAtTime clock samples timestamp = .ok slot) :
    Usable samples ∧ slot.toNat + slotsBehind clock samples timestamp =
      clock.slot.toNat + slotsAhead clock samples timestamp := by
  simp only [slotAtTime, bind_ok_iff, currentTimeOf_ok_iff, getAverageSlotTime_ok_iff] at success
  obtain ⟨now, ⟨_, current⟩, average, ⟨usable, value⟩, rest⟩ := success
  refine ⟨usable, ?_⟩
  have thousand : (1000 : UInt64).toNat = 1000 := rfl
  split at rest
  · next future =>
    simp only [bind_ok_iff, mulOrPanic_ok_iff, divOrPanic_ok_iff, okOr_ok_iff,
      checkedAdd_eq_some] at rest
    obtain ⟨millis, product, slots, ⟨_, quotient⟩, sum⟩ := rest
    rw [gt_iff_lt] at future
    have behind : slotsBehind clock samples timestamp = 0 := by
      rw [UInt64.lt_iff_toNat_lt] at future
      rw [slotsBehind, Nat.sub_eq_zero_of_le (by omega), Nat.zero_mul, Nat.zero_div]
    rw [behind, sum, quotient, product, UInt64.toNat_sub_of_le _ _ (UInt64.le_of_lt future),
      thousand, current, value, slotsAhead, Nat.add_zero]
  · next past =>
    simp only [bind_ok_iff, mulOrPanic_ok_iff, divOrPanic_ok_iff, okOr_ok_iff,
      checkedSub_eq_some] at rest
    obtain ⟨millis, product, slots, ⟨_, quotient⟩, difference⟩ := rest
    rw [gt_iff_lt, UInt64.not_lt] at past
    have ahead : slotsAhead clock samples timestamp = 0 := by
      rw [UInt64.le_iff_toNat_le] at past
      rw [slotsAhead, Nat.sub_eq_zero_of_le (by omega), Nat.zero_mul, Nat.zero_div]
    rw [UInt64.toNat_sub_of_le _ _ past, thousand, current] at product
    rw [ahead, difference, slotsBehind, quotient, product, value, Nat.add_zero]

/-- The slot is returned when it, and the milliseconds to the timestamp, are representable. -/
theorem slotAtTime_total (nonnegative : 0 ≤ clock.unixTimestamp) (usable : Usable samples)
    (ahead : (timestamp.toNat - nowOf clock) * 1000 < 2 ^ 64)
    (behind : (nowOf clock - timestamp.toNat) * 1000 < 2 ^ 64)
    (representable : clock.slot.toNat + slotsAhead clock samples timestamp < 2 ^ 64)
    (started : slotsBehind clock samples timestamp ≤ clock.slot.toNat) :
    ∃ slot, slotAtTime clock samples timestamp = .ok slot := by
  have bounds := averageMillis_bounds samples
  have upper := clock.unixTimestamp.toInt_lt
  obtain ⟨now, current⟩ := exists_u64 (show nowOf clock < 2 ^ 64 by unfold nowOf; omega)
  obtain ⟨average, value⟩ := exists_u64 (show averageMillis samples < 2 ^ 64 by omega)
  simp only [slotAtTime, bind_ok_iff, currentTimeOf_ok_iff, getAverageSlotTime_ok_iff]
  by_cases future : timestamp > now
  · obtain ⟨millis, product⟩ := exists_u64 ahead
    obtain ⟨slots, quotient⟩ := exists_u64
      (show slotsAhead clock samples timestamp < 2 ^ 64 by omega)
    obtain ⟨slot, sum, _⟩ := checkedAdd_total clock.slot slots (by omega)
    refine ⟨slot, now, ⟨nonnegative, current⟩, average, ⟨usable, value⟩, ?_⟩
    rw [if_pos future]
    simp only [bind_ok_iff, mulOrPanic_ok_iff, divOrPanic_ok_iff, okOr_ok_iff]
    rw [gt_iff_lt] at future
    refine ⟨millis, ?_, slots, ⟨average_ne_zero value, ?_⟩, sum⟩
    · rw [product, UInt64.toNat_sub_of_le _ _ (UInt64.le_of_lt future), current]
      rfl
    · rw [quotient, product, value, slotsAhead]
  · obtain ⟨millis, product⟩ := exists_u64 behind
    have width := clock.slot.toNat_lt
    obtain ⟨slots, quotient⟩ := exists_u64
      (show slotsBehind clock samples timestamp < 2 ^ 64 by omega)
    obtain ⟨slot, difference, _⟩ := checkedSub_total clock.slot slots (by omega)
    refine ⟨slot, now, ⟨nonnegative, current⟩, average, ⟨usable, value⟩, ?_⟩
    rw [if_neg future]
    simp only [bind_ok_iff, mulOrPanic_ok_iff, divOrPanic_ok_iff, okOr_ok_iff]
    rw [gt_iff_lt, UInt64.not_lt] at future
    refine ⟨millis, ?_, slots, ⟨average_ne_zero value, ?_⟩, difference⟩
    · rw [product, UInt64.toNat_sub_of_le _ _ future, current]
      rfl
    · rw [quotient, product, value, slotsBehind]

end

/-! ### Scheduling -/

/-- The versions whose distributors are set. -/
def versionsOf (airdropVersion : Option UInt64) (trees : List AirdropMerkleTree) : List UInt64 :=
  match airdropVersion with
  | some version => [version]
  | none => trees.map fun tree => tree.airdropVersion

/-- Scheduling a timestamp against a clock and samples goes well. -/
structure Schedules (clock : Clock) (samples : List PerfSample) (timestamp : UInt64) : Prop where
  average : ∃ average, getAverageSlotTime samples = .ok average ∧
    defaultMsPerSlot / 2 ≤ average ∧ average ≤ defaultMsPerSlot * 2
  returns : (∃ slot, processGetSlot clock samples timestamp = .ok slot) ∨
    2 ^ 64 ≤ clock.slot.toNat + slotsAhead clock samples timestamp
  value : ∀ slot, processGetSlot clock samples timestamp = .ok slot →
    (slot.toNat : Int) = clock.slot.toNat + slotsAhead clock samples timestamp -
      slotsBehind clock samples timestamp
  monotone : ∀ earlier slot later, earlier ≤ timestamp →
    processGetSlot clock samples earlier = .ok slot →
    processGetSlot clock samples timestamp = .ok later → slot ≤ later
  atNow : timestamp.toNat = nowOf clock → processGetSlot clock samples timestamp = .ok clock.slot
  sent : ∀ rt mint admin airdropVersion trees,
    processSetEnableSlotByTime rt mint admin clock samples { timestamp, airdropVersion } trees =
      (processGetSlot clock samples timestamp).map fun slot =>
        (versionsOf airdropVersion trees).map (setEnableSlotFor rt mint admin slot)

section
variable {clock : Clock} {samples : List PerfSample} {timestamp : UInt64}

theorem average_in_range (usable : Usable samples) :
    ∃ average, getAverageSlotTime samples = .ok average ∧
      defaultMsPerSlot / 2 ≤ average ∧ average ≤ defaultMsPerSlot * 2 := by
  have bounds := averageMillis_bounds samples
  obtain ⟨average, value⟩ := exists_u64 (show averageMillis samples < 2 ^ 64 by omega)
  refine ⟨average, getAverageSlotTime_ok_iff.mpr ⟨usable, value⟩, ?_, ?_⟩
  · rw [UInt64.le_iff_toNat_le, value]
    exact bounds.1
  · rw [UInt64.le_iff_toNat_le, value]
    exact bounds.2

/-- Earlier timestamps give earlier slots: fewer slots ahead and more behind. -/
theorem slotAtTime_monotone {earlier slot later : UInt64} (ordered : earlier ≤ timestamp)
    (first : slotAtTime clock samples earlier = .ok slot)
    (second : slotAtTime clock samples timestamp = .ok later) : slot ≤ later := by
  rw [UInt64.le_iff_toNat_le] at ordered ⊢
  have ahead : slotsAhead clock samples earlier ≤ slotsAhead clock samples timestamp :=
    Nat.div_le_div_right (Nat.mul_le_mul_right _ (by omega))
  have behind : slotsBehind clock samples timestamp ≤ slotsBehind clock samples earlier :=
    Nat.div_le_div_right (Nat.mul_le_mul_right _ (by omega))
  have := (slotAtTime_ok first).2
  have := (slotAtTime_ok second).2
  omega

theorem processSetEnableSlotByTime_eq (rt : Runtime) (mint admin : Pubkey)
    (airdropVersion : Option UInt64) (trees : List AirdropMerkleTree) :
    processSetEnableSlotByTime rt mint admin clock samples { timestamp, airdropVersion } trees =
      (processGetSlot clock samples timestamp).map fun slot =>
        (versionsOf airdropVersion trees).map (setEnableSlotFor rt mint admin slot) := by
  unfold processSetEnableSlotByTime processGetSlot versionsOf
  cases slotAtTime clock samples timestamp with
  | error reason => rfl
  | ok slot =>
    cases airdropVersion with
    | none => simp [Except.map, bind, Except.bind, pure, Except.pure]
    | some version => rfl

theorem schedules_of_usable (nonnegative : 0 ≤ clock.unixTimestamp) (usable : Usable samples)
    (ahead : (timestamp.toNat - nowOf clock) * 1000 < 2 ^ 64)
    (behind : (nowOf clock - timestamp.toNat) * 1000 < 2 ^ 64)
    (started : slotsBehind clock samples timestamp ≤ clock.slot.toNat) :
    Schedules clock samples timestamp where
  average := average_in_range usable
  returns := by
    by_cases representable : clock.slot.toNat + slotsAhead clock samples timestamp < 2 ^ 64
    · exact .inl (slotAtTime_total nonnegative usable ahead behind representable started)
    · exact .inr (Nat.not_lt.mp representable)
  value := by
    intro slot success
    have := (slotAtTime_ok success).2
    omega
  monotone earlier slot later ordered first second := slotAtTime_monotone ordered first second
  atNow := by
    intro current
    have still : slotsAhead clock samples timestamp = 0 ∧
        slotsBehind clock samples timestamp = 0 := by
      simp [slotsAhead, slotsBehind, current]
    have width := clock.slot.toNat_lt
    obtain ⟨slot, success⟩ := slotAtTime_total nonnegative usable ahead behind
      (by omega) (by omega)
    have exact_slot := (slotAtTime_ok success).2
    have same : slot = clock.slot := UInt64.toNat_inj.mp (by omega)
    rw [processGetSlot, success, same]
  sent rt mint admin airdropVersion trees :=
    processSetEnableSlotByTime_eq rt mint admin airdropVersion trees

end

theorem millis_of_gap {time now : Nat} (near : |(time : Int) - now| * 1000 < 2 ^ 64) :
    (time - now) * 1000 < 2 ^ 64 ∧ (now - time) * 1000 < 2 ^ 64 := by
  have upper := le_abs_self ((time : Int) - now)
  have lower := neg_abs_le ((time : Int) - now)
  exact ⟨by omega, by omega⟩

/-- Scheduling a timestamp goes well exactly when every sample has slots, the times of the
samples add up to a `u64`, and the timestamp is not before the first slot. -/
theorem schedules_iff (clock : Clock) (samples : List PerfSample) (timestamp : UInt64)
    (nonnegative : 0 ≤ clock.unixTimestamp)
    (near : |(timestamp.toNat : Int) - clock.unixTimestamp.toInt| * 1000 < 2 ^ 64) :
    Schedules clock samples timestamp ↔
      (∀ sample ∈ samples, sample.numSlots ≠ 0) ∧ (samples.map slotMillis).sum < 2 ^ 64 ∧
        slotsBehind clock samples timestamp ≤ clock.slot.toNat := by
  have positive : 0 ≤ clock.unixTimestamp.toInt := Int64.le_iff_toInt_le.mp nonnegative
  have seconds : clock.unixTimestamp.toInt = nowOf clock := (Int.toNat_of_nonneg positive).symm
  rw [seconds] at near
  obtain ⟨ahead, behind⟩ := millis_of_gap near
  constructor
  · intro scheduled
    obtain ⟨average, computed, _⟩ := scheduled.average
    obtain ⟨some_slots, fits⟩ := (getAverageSlotTime_ok_iff.mp computed).1
    refine ⟨some_slots, fits, ?_⟩
    by_cases past : timestamp.toNat ≤ nowOf clock
    · have level : slotsAhead clock samples timestamp = 0 := by
        rw [slotsAhead, Nat.sub_eq_zero_of_le past, Nat.zero_mul, Nat.zero_div]
      have width := clock.slot.toNat_lt
      obtain ⟨slot, success⟩ := scheduled.returns.resolve_right (by omega)
      have := (slotAtTime_ok success).2
      omega
    · rw [slotsBehind, Nat.sub_eq_zero_of_le (by omega), Nat.zero_mul, Nat.zero_div]
      exact Nat.zero_le _
  · intro ⟨some_slots, fits, started⟩
    exact schedules_of_usable nonnegative ⟨some_slots, fits⟩ ahead behind started

namespace Sample

/-- An hour into a chain with samples of 400 and of 500 milliseconds per slot. -/
def hourClock : Clock := { slot := 9000, unixTimestamp := 3600 }

def perfSamples : List PerfSample :=
  [{ samplePeriodSecs := 60, numSlots := 150 }, { samplePeriodSecs := 60, numSlots := 120 }]

end Sample

open Sample in
/-- Fifteen minutes ahead, at 450 milliseconds per slot. -/
theorem schedules_sample :
    Schedules hourClock perfSamples 4500 ∧
      processGetSlot hourClock perfSamples 4500 = .ok 11000 := by
  refine ⟨(schedules_iff hourClock perfSamples 4500 (by decide) ?_).mpr ⟨by decide, by decide, ?_⟩,
    by decide⟩
  · decide
  · decide

open Sample in
/-- A sample without slots aborts both commands before the sanity check, and so does a
timestamp before the first slot. -/
theorem unusable_sample_panics :
    (getAverageSlotTime [{ samplePeriodSecs := 60, numSlots := 0 }] = .error .divideByZero ∧
      processGetSlot hourClock [{ samplePeriodSecs := 60, numSlots := 0 }] 4500 =
        .error .divideByZero) ∧
    processGetSlot { hourClock with slot := 7999 } perfSamples 0 = .error .arithmeticOverflow := by
  decide

end MultiDistributor.Source

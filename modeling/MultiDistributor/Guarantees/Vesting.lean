import MultiDistributor.Guarantees.Authority

/-!
# The vesting curves and their arithmetic

Both curves are exact floors of a linear interpolation over the rationals, and every
intermediate product and cast of the source is exact. The only step that can fail inside
the window is the subtraction of the two bounds. `new_distributor` does not bound the
start from below, so the window it admits may be longer than an `i64`.
-/
namespace MultiDistributor.Source
open Lib.Checked Lib.LinearRelease

/-! ### Exactness -/

/-- The `u128` computation of a share of `amount` neither overflows nor loses a bit. -/
def ProRataExact (amount : UInt64) (currTs startTs endTs : Int64) : Prop :=
  ∃ into total product quotient, checkedSubI64 currTs startTs = some into ∧
    checkedSubI64 endTs startTs = some total ∧
    (i64AsU128 into).checkedMul (u64AsU128 amount) = some product ∧
    product.checkedDiv (i64AsU128 total) = some quotient ∧
    (u128AsU64 quotient).toNat = quotient.toNat

/-- The same for the start share and the bonus on the rest. -/
def ClaimedShareExact (amount : UInt64) (currTs startTs endTs : Int64) : Prop :=
  ∃ scaled share remainder, (u64AsU128 amount).checkedMul startClaimPct = some scaled ∧
    scaled.checkedDiv pctPrecision = some share ∧
    (u128AsU64 share).toNat = share.toNat ∧
    checkedSub amount (u128AsU64 share) = some remainder ∧
    ProRataExact remainder currTs startTs endTs

/-- What `unlocked_amount` returns at a time. -/
structure LockedCurve (status : ClaimStatus) (currTs startTs endTs : Int64) (value : UInt64) :
    Prop where
  floor : value.toNat = ⌊(status.lockedAmount.toNat : ℚ) *
    elapsed startTs.toInt endTs.toInt currTs.toInt / ((endTs.toInt - startTs.toInt : Int) : ℚ)⌋₊
  before : currTs < startTs → value = 0
  after : endTs ≤ currTs → value = status.lockedAmount
  bounded : value ≤ status.lockedAmount
  lossless : startTs ≤ currTs → currTs < endTs →
    ProRataExact status.lockedAmount currTs startTs endTs

/-- What `update_unlocked_amount_claimed` writes at a time. -/
structure ClaimedCurve (status : ClaimStatus) (currTs startTs endTs : Int64)
    (next : ClaimStatus) : Prop where
  begun : startTs ≤ currTs
  onlyClaimed : next = { status with unlockedAmountClaimed := next.unlockedAmountClaimed }
  floor : currTs < endTs → next.unlockedAmountClaimed.toNat =
    ⌊(status.unlockedAmount.toNat : ℚ) / 2⌋₊ +
      ⌊((status.unlockedAmount.toNat - ⌊(status.unlockedAmount.toNat : ℚ) / 2⌋₊ : Nat) : ℚ) *
        ((currTs.toInt - startTs.toInt : Int) : ℚ) / ((endTs.toInt - startTs.toInt : Int) : ℚ)⌋₊
  after : endTs ≤ currTs → next.unlockedAmountClaimed = status.unlockedAmount
  bounded : next.unlockedAmountClaimed ≤ status.unlockedAmount
  lossless : currTs < endTs → ClaimedShareExact status.unlockedAmount currTs startTs endTs
  forgone : ∃ forgone, next.getUnlockedAmountForgone = .ok forgone ∧
    next.unlockedAmountClaimed.toNat + forgone.toNat = status.unlockedAmount.toNat

section
variable {status next : ClaimStatus} {currTs startTs endTs : Int64} {value : UInt64}

theorem not_le_of_running (running : currTs < endTs) : ¬ endTs ≤ currTs := by
  rw [Int64.lt_iff_toInt_lt] at running
  rw [Int64.le_iff_toInt_le]
  omega

theorem proRataExact_of_fits (amount : UInt64) (begun : startTs ≤ currTs)
    (running : currTs < endTs) (fits : FitsI64 (endTs.toInt - startTs.toInt)) :
    ProRataExact amount currTs startTs endTs := by
  obtain ⟨into, total, product, quotient, hinto, htotal, hproduct, hquotient, lossless, _⟩ :=
    proRata_total amount begun (not_le_of_running running) fits
  exact ⟨into, total, product, quotient, hinto, htotal, hproduct, hquotient, lossless⟩

theorem claimedShareExact_of_fits (amount : UInt64) (begun : startTs ≤ currTs)
    (running : currTs < endTs) (fits : FitsI64 (endTs.toInt - startTs.toInt)) :
    ClaimedShareExact amount currTs startTs endTs := by
  obtain ⟨scaled, share, hscaled, hshare, lossless, value⟩ := startShare_total amount
  obtain ⟨remainder, hremainder, _⟩ := checkedSub_total amount (u128AsU64 share) (by omega)
  exact ⟨scaled, share, remainder, hscaled, hshare, lossless, hremainder,
    proRataExact_of_fits remainder begun running fits⟩

theorem lockedCurve_of_ok (window : startTs < endTs)
    (success : status.unlockedAmountAt currTs startTs endTs = .ok value) :
    LockedCurve status currTs startTs endTs value := by
  rw [Int64.lt_iff_toInt_lt] at window
  obtain ⟨fits, released⟩ := unlockedAmountAt_ok_iff.mp success
  refine { floor := ?_, before := ?_, after := ?_, bounded := ?_, lossless := ?_ }
  · rw [released, released_eq_floor _ _ window]
  · intro early
    rw [released_before _ _ (Int64.lt_iff_toInt_lt.mp early)] at released
    exact UInt64.toNat_inj.mp released
  · intro ended
    rw [Int64.le_iff_toInt_le] at ended
    rw [released_after _ (by omega) ended] at released
    exact UInt64.toNat_inj.mp released
  · rw [UInt64.le_iff_toNat_le, released]
    exact released_le _ _ _ _
  · intro begun running
    exact proRataExact_of_fits _ begun running (fits begun (not_le_of_running running))

/-- The half is the start share of the source, and inside the window the elapsed part is
the time since the start. -/
theorem unlockedRelease_eq_floor (amount : Nat) {start stop now : Int} (begun : start ≤ now)
    (running : now < stop) :
    unlockedRelease amount start stop now =
      ⌊(amount : ℚ) / 2⌋₊ + ⌊((amount - ⌊(amount : ℚ) / 2⌋₊ : Nat) : ℚ) *
        ((now - start : Int) : ℚ) / ((stop - start : Int) : ℚ)⌋₊ := by
  have half : ⌊(amount : ℚ) / 2⌋₊ = amount * 500000 / 1000000 := by
    rw [show (2 : ℚ) = ((2 : Nat) : ℚ) from rfl, Nat.floor_div_eq_div]
    omega
  have passed : elapsed start stop now = now - start := by
    unfold elapsed
    omega
  rw [unlockedRelease, half, released_eq_floor _ _ (by omega), passed]

theorem claimedCurve_of_ok
    (success : status.updateUnlockedAmountClaimed currTs startTs endTs = .ok next) :
    ClaimedCurve status currTs startTs endTs next := by
  obtain ⟨begun, fits, claimed, share, rfl⟩ := updateUnlockedAmountClaimed_ok_iff.mp success
  have bounded := unlockedRelease_le status.unlockedAmount.toNat startTs.toInt endTs.toInt
    currTs.toInt
  rw [← share] at bounded
  refine { begun, onlyClaimed := rfl, floor := ?_, after := ?_,
           bounded := UInt64.le_iff_toNat_le.mpr bounded, lossless := ?_, forgone := ?_ }
  · intro running
    rw [share, unlockedRelease_eq_floor _ (Int64.le_iff_toInt_le.mp begun)
      (Int64.lt_iff_toInt_lt.mp running)]
  · intro ended
    rw [unlockedRelease_after _ (Int64.le_iff_toInt_le.mp begun)
      (Int64.le_iff_toInt_le.mp ended)] at share
    exact UInt64.toNat_inj.mp share
  · intro running
    exact claimedShareExact_of_fits _ begun running (fits (not_le_of_running running))
  · obtain ⟨forgone, _, rest⟩ := checkedSub_total status.unlockedAmount claimed bounded
    exact ⟨forgone, getUnlockedAmountForgone_ok_iff.mpr rest, (Nat.add_comm _ _).trans rest.symm⟩

theorem unlockedRelease_mono (amount : Nat) (start stop : Int) {earlier later : Int}
    (ordered : earlier ≤ later) :
    unlockedRelease amount start stop earlier ≤ unlockedRelease amount start stop later :=
  Nat.add_le_add_left (released_mono _ start stop ordered) _

end

/-- Both curves are exact, bounded by the amount and monotone in the clock, at all times
at which the calls return; no product overflows and no cast loses a bit on the way. -/
theorem vesting_curves_exact (status : ClaimStatus) {startTs endTs early late : Int64}
    (window : startTs < endTs) (ordered : early ≤ late) :
    (∀ value, status.unlockedAmountAt early startTs endTs = .ok value →
      LockedCurve status early startTs endTs value ∧
      ∀ later, status.unlockedAmountAt late startTs endTs = .ok later → value ≤ later) ∧
    ∀ next, status.updateUnlockedAmountClaimed early startTs endTs = .ok next →
      ClaimedCurve status early startTs endTs next ∧
      ∀ later, status.updateUnlockedAmountClaimed late startTs endTs = .ok later →
        next.unlockedAmountClaimed ≤ later.unlockedAmountClaimed := by
  rw [Int64.le_iff_toInt_le] at ordered
  constructor
  · intro value success
    refine ⟨lockedCurve_of_ok window success, fun later reached => ?_⟩
    rw [UInt64.le_iff_toNat_le, (unlockedAmountAt_ok_iff.mp success).2,
      (unlockedAmountAt_ok_iff.mp reached).2]
    exact released_mono _ _ _ ordered
  · intro next success
    refine ⟨claimedCurve_of_ok success, fun later reached => ?_⟩
    obtain ⟨_, _, claimed, share, rfl⟩ := updateUnlockedAmountClaimed_ok_iff.mp success
    obtain ⟨_, _, claimedLater, shareLater, rfl⟩ := updateUnlockedAmountClaimed_ok_iff.mp reached
    rw [UInt64.le_iff_toNat_le, share, shareLater]
    exact unlockedRelease_mono _ _ _ ordered

namespace Sample

/-- An odd amount on both curves. -/
def vestingStatus : ClaimStatus :=
  { claimant := wallet, lockedAmount := 7, lockedAmountWithdrawn := 0, unlockedAmount := 11,
    unlockedAmountClaimed := 0, closable := false, distributor := pda }

end Sample

open Sample in
theorem vesting_curves_exact_sample :
    LockedCurve vestingStatus 50 0 100 3 ∧
      ClaimedCurve vestingStatus 50 0 100 { vestingStatus with unlockedAmountClaimed := 8 } ∧
      (8 : UInt64) ≤ 10 := by
  obtain ⟨locked, claimed⟩ := vesting_curves_exact vestingStatus
    (show (0 : Int64) < 100 by decide) (show (50 : Int64) ≤ 90 by decide)
  obtain ⟨curve, later⟩ := claimed { vestingStatus with unlockedAmountClaimed := 8 } (by decide)
  exact ⟨(locked 3 (by decide)).1, curve,
    later { vestingStatus with unlockedAmountClaimed := 10 } (by decide)⟩

/-! ### Admitted windows -/

/-- Vesting arithmetic never fails from `now` on: both curves return at every clock
value at or after the start and for every amount, and `claim_locked` never overflows
where it subtracts the clock from the end. -/
structure ArithmeticSafe (rt : Runtime) (now startTs endTs : Int64) : Prop where
  locked : ∀ (status : ClaimStatus) (currTs : Int64), now ≤ currTs → startTs ≤ currTs →
    ∃ amount, status.unlockedAmountAt currTs startTs endTs = .ok amount
  claimed : ∀ (status : ClaimStatus) (currTs : Int64), now ≤ currTs → startTs ≤ currTs →
    ∃ next, status.updateUnlockedAmountClaimed currTs startTs endTs = .ok next
  remaining : ∀ (clock : Clock) (world : World) (accounts : ClaimLockedAccounts)
    (distributor : MerkleDistributor) (status : ClaimStatus),
    now ≤ clock.unixTimestamp → distributor.startTs = startTs → distributor.endTs = endTs →
    handleClaimLocked rt clock world accounts distributor status ≠ .error .panicked

theorem amountWithdrawable_begun {status : ClaimStatus} {currTs startTs endTs : Int64}
    {amount : UInt64} (success : status.amountWithdrawable currTs startTs endTs = .ok amount)
    (positive : amount > 0) :
    startTs ≤ currTs ∧ (¬ endTs ≤ currTs → FitsI64 (endTs.toInt - startTs.toInt)) := by
  obtain ⟨fits, release⟩ := amountWithdrawable_ok_iff.mp success
  have paid : 0 < amount.toNat := UInt64.lt_iff_toNat_lt.mp positive
  have begun : startTs ≤ currTs :=
    Int64.le_iff_toInt_le.mpr (begun_of_released (by rw [release]; omega))
  exact ⟨begun, fits begun⟩

/-- The subtraction is reached with a positive amount only, so after the start. -/
theorem handleClaimLocked_no_panic (rt : Runtime) (clock : Clock) (world : World)
    (accounts : ClaimLockedAccounts) (distributor : MerkleDistributor) (status : ClaimStatus) :
    handleClaimLocked rt clock world accounts distributor status ≠ .error .panicked := by
  intro panicked
  simp only [handleClaimLocked, invokeTransfer, bind_error_iff, require_error_iff, okOr_error_iff,
    mapError_error_iff, require_ok_iff, mapError_ok_iff, pure_ne_error, reduceCtorEq, and_false,
    false_or, exists_false, or_false] at panicked
  obtain ⟨_, _, _, _, amount, withdrawable, _, positive, _, _, _, _, _, _, _, _, _, _, failed⟩ :=
    panicked
  obtain ⟨begun, fits⟩ := amountWithdrawable_begun withdrawable positive
  obtain ⟨seconds, done⟩ := remainingSeconds_total begun fits
  rw [done] at failed
  cases failed

/-- A window whose length is an `i64` keeps the arithmetic safe at every clock. -/
theorem arithmeticSafe_of_fits (rt : Runtime) (now : Int64) {startTs endTs : Int64}
    (fits : FitsI64 (endTs.toInt - startTs.toInt)) : ArithmeticSafe rt now startTs endTs where
  locked status currTs _ _ := by
    have bound := released_le status.lockedAmount.toNat startTs.toInt endTs.toInt currTs.toInt
    have width := status.lockedAmount.toNat_lt
    obtain ⟨amount, value⟩ := exists_u64 (lt_of_le_of_lt bound width)
    exact ⟨amount, unlockedAmountAt_ok_iff.mpr ⟨fun _ _ => fits, value⟩⟩
  claimed status currTs _ begun := by
    have bound := unlockedRelease_le status.unlockedAmount.toNat startTs.toInt endTs.toInt
      currTs.toInt
    have width := status.unlockedAmount.toNat_lt
    obtain ⟨claimed, value⟩ := exists_u64 (lt_of_le_of_lt bound width)
    exact ⟨_, updateUnlockedAmountClaimed_ok_iff.mpr ⟨begun, fun _ => fits, claimed, value, rfl⟩⟩
  remaining clock world accounts distributor status _ _ _ :=
    handleClaimLocked_no_panic rt clock world accounts distributor status

/-- The timestamps that pass the checks of `new_distributor`. -/
theorem handleNewDistributor_window {rt : Runtime} {clock : Clock} {world : World}
    {accounts : NewDistributorAccounts} {args : NewDistributorArgs} {outcome : World × List Event}
    (accepted : handleNewDistributor rt clock world accounts args = .ok outcome) :
    args.startVestingTs < args.endVestingTs ∧ clock.unixTimestamp < args.endVestingTs := by
  simp only [handleNewDistributor, bind_ok_iff, require_ok_iff] at accepted
  obtain ⟨_, ordered, _, ⟨future, _⟩, _⟩ := accepted
  exact ⟨ordered, future⟩

/-- The vesting arithmetic of an accepted distributor is safe exactly when the length of
its window is an `i64`. -/
theorem accepted_arithmeticSafe_iff {rt : Runtime} {clock : Clock} {world : World}
    {accounts : NewDistributorAccounts} {args : NewDistributorArgs} {outcome : World × List Event}
    (accepted : handleNewDistributor rt clock world accounts args = .ok outcome) :
    ArithmeticSafe rt clock.unixTimestamp args.startVestingTs args.endVestingTs ↔
      FitsI64 (args.endVestingTs.toInt - args.startVestingTs.toInt) := by
  constructor
  · intro safe
    obtain ⟨ordered, future⟩ := handleNewDistributor_window accepted
    -- the later of the creation and the start lies inside the window
    obtain ⟨currTs, since, begun, running⟩ : ∃ currTs, clock.unixTimestamp ≤ currTs ∧
        args.startVestingTs ≤ currTs ∧ currTs < args.endVestingTs := by
      rcases Int64.le_total clock.unixTimestamp args.startVestingTs with early | late
      · exact ⟨args.startVestingTs, early, Int64.le_refl _, ordered⟩
      · exact ⟨clock.unixTimestamp, Int64.le_refl _, late, future⟩
    -- any status will do
    let status : ClaimStatus :=
      { claimant := .filled 0, lockedAmount := 0, lockedAmountWithdrawn := 0, unlockedAmount := 0,
        unlockedAmountClaimed := 0, closable := false, distributor := .filled 0 }
    obtain ⟨next, success⟩ := safe.claimed status currTs since begun
    exact (updateUnlockedAmountClaimed_ok_iff.mp success).2.1 (not_le_of_running running)
  · intro fits
    exact arithmeticSafe_of_fits rt clock.unixTimestamp fits

namespace Sample

/-- Vesting that started at the earliest representable time. -/
def ancientArgs : NewDistributorArgs :=
  { creationArgs wallet 11 7 18 false with startVestingTs := Int64.minValue }

end Sample

open Sample in
theorem accepted_arithmeticSafe_iff_sample :
    ArithmeticSafe rt 0 0 100 ∧ ¬ ArithmeticSafe rt 0 Int64.minValue 100 := by
  constructor
  · have accepted : handleNewDistributor rt { slot := 10, unixTimestamp := 0 } emptyWorld
        creationAccounts (creationArgs wallet 11 7 18 false) = .ok _ := rfl
    exact (accepted_arithmeticSafe_iff accepted).mpr (by decide)
  · have accepted : handleNewDistributor rt { slot := 10, unixTimestamp := 0 } emptyWorld
        creationAccounts ancientArgs = .ok _ := rfl
    exact fun safe => absurd ((accepted_arithmeticSafe_iff accepted).mp safe) (by decide)

open Sample in
/-- The distributor is created, and until its vesting ends every amount is refused by
both curves with an arithmetic error. -/
theorem ancient_window_rejects_claims :
    (∃ outcome, handleNewDistributor rt { slot := 10, unixTimestamp := 0 } emptyWorld
        creationAccounts ancientArgs = .ok outcome) ∧
      ∀ (status : ClaimStatus) (currTs : Int64), 0 ≤ currTs → currTs < 100 →
        status.unlockedAmountAt currTs Int64.minValue 100 = .error .arithmeticError ∧
        status.updateUnlockedAmountClaimed currTs Int64.minValue 100 =
          .error .arithmeticError := by
  refine ⟨⟨_, rfl⟩, fun status currTs since running => ?_⟩
  have begun : Int64.minValue ≤ currTs := Int64.le_trans (by decide) since
  have elapsed : checkedSubI64 currTs Int64.minValue = none := by
    rw [Int64.le_iff_toInt_le] at since
    have outside : ¬ FitsI64 (currTs.toInt - Int64.minValue.toInt) := by
      rw [show Int64.minValue.toInt = -2 ^ 63 by decide]
      intro fits
      have := fits.2
      simp at since
      omega
    simp only [checkedSubI64, if_neg outside]
  unfold ClaimStatus.unlockedAmountAt ClaimStatus.updateUnlockedAmountClaimed
  rw [if_pos begun, if_neg (not_le_of_running running), if_pos begun,
    if_neg (not_le_of_running running), elapsed]
  exact ⟨rfl, rfl⟩

end MultiDistributor.Source

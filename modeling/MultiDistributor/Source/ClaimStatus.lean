import MultiDistributor.Lib.Checked
import MultiDistributor.Lib.LinearRelease
import MultiDistributor.Source.Hashing

/-!
# Claim status account and its two vesting curves

`programs/merkle-distributor/src/error.rs` and `state/claim_status.rs`. Times are
`i64` and amounts `u64`; intermediate products are `u128`, and the final casts
truncate. The specifications below show that no cast loses a bit: each curve is
the floor of a linear release, whatever the timestamps are.
-/
namespace MultiDistributor.Source
open Lib.Checked Lib.LinearRelease

inductive ErrorCode where
  | insufficientUnlockedTokens | startTooFarInFuture | invalidProof | exceededMaxClaim
  | maxNodesExceeded | unauthorized | ownerMismatch | clawbackDuringVesting
  | clawbackBeforeStart | clawbackAlreadyClaimed | insufficientClawbackDelay
  | sameClawbackReceiver | sameAdmin | claimExpired | arithmeticError
  | startTimestampAfterEnd | timestampsNotInFuture | invalidVersion | claimingIsNotStarted
  | cannotCloseDistributor | cannotCloseClaimStatus | mintNotReRootable
  | distributorNotPaused | rootMismatch | maxTotalClaimIncrease | claimCountMismatch
  deriving DecidableEq, Repr

def startClaimPct : U128 := 500000
def pctPrecision : U128 := 1000000

structure ClaimStatus where
  claimant : Pubkey
  lockedAmount : UInt64
  lockedAmountWithdrawn : UInt64
  unlockedAmount : UInt64
  unlockedAmountClaimed : UInt64
  closable : Bool
  distributor : Pubkey
  deriving DecidableEq, Repr

/-- `ClaimStatus::unlocked_amount`; the source names the method like the field. -/
def ClaimStatus.unlockedAmountAt (self : ClaimStatus) (currTs startTs endTs : Int64) :
    Except ErrorCode UInt64 :=
  if startTs ≤ currTs then
    if endTs ≤ currTs then .ok self.lockedAmount
    else do
      let timeIntoUnlock ← okOr (checkedSubI64 currTs startTs) .arithmeticError
      let totalUnlockTime ← okOr (checkedSubI64 endTs startTs) .arithmeticError
      let product ← okOr
        ((i64AsU128 timeIntoUnlock).checkedMul (u64AsU128 self.lockedAmount)) .arithmeticError
      let amount ← okOr (product.checkedDiv (i64AsU128 totalUnlockTime)) .arithmeticError
      return u128AsU64 amount
  else .ok 0

/-- `ClaimStatus::amount_withdrawable`. -/
def ClaimStatus.amountWithdrawable (self : ClaimStatus) (currTs startTs endTs : Int64) :
    Except ErrorCode UInt64 := do
  let unlocked ← self.unlockedAmountAt currTs startTs endTs
  okOr (checkedSub unlocked self.lockedAmountWithdrawn) .arithmeticError

/-- `ClaimStatus::update_unlocked_amount_claimed`. -/
def ClaimStatus.updateUnlockedAmountClaimed (self : ClaimStatus) (currTs startTs endTs : Int64) :
    Except ErrorCode ClaimStatus :=
  if startTs ≤ currTs then
    if endTs ≤ currTs then .ok { self with unlockedAmountClaimed := self.unlockedAmount }
    else do
      let timeIntoUnlock ← okOr (checkedSubI64 currTs startTs) .arithmeticError
      let totalUnlockTime ← okOr (checkedSubI64 endTs startTs) .arithmeticError
      let scaled ← okOr ((u64AsU128 self.unlockedAmount).checkedMul startClaimPct) .arithmeticError
      let share ← okOr (scaled.checkedDiv pctPrecision) .arithmeticError
      let startAmount := u128AsU64 share
      let remainder ← okOr (checkedSub self.unlockedAmount startAmount) .arithmeticError
      let product ← okOr
        ((i64AsU128 timeIntoUnlock).checkedMul (u64AsU128 remainder)) .arithmeticError
      let bonus ← okOr (product.checkedDiv (i64AsU128 totalUnlockTime)) .arithmeticError
      let claimed ← okOr (checkedAdd startAmount (u128AsU64 bonus)) .arithmeticError
      return { self with unlockedAmountClaimed := claimed }
  else .error .claimingIsNotStarted

/-- `ClaimStatus::get_unlocked_amount_forgone`. -/
def ClaimStatus.getUnlockedAmountForgone (self : ClaimStatus) : Except ErrorCode UInt64 :=
  okOr (checkedSub self.unlockedAmount self.unlockedAmountClaimed) .arithmeticError

/-! ### What the curves compute -/

/-- The share of an unlocked amount that a claim made at `now` is paid: a fixed
start share, and a linear release of the rest. -/
def unlockedRelease (amount : Nat) (start stop now : Int) : Nat :=
  amount * 500000 / 1000000 + released (amount - amount * 500000 / 1000000) start stop now

theorem unlockedRelease_le (amount : Nat) (start stop now : Int) :
    unlockedRelease amount start stop now ≤ amount := by
  have bound := released_le (amount - amount * 500000 / 1000000) start stop now
  unfold unlockedRelease
  omega

theorem unlockedRelease_after (amount : Nat) {start stop now : Int} (begun : start ≤ now)
    (ended : stop ≤ now) : unlockedRelease amount start stop now = amount := by
  rw [unlockedRelease, released_after _ begun ended]
  omega

/-- Inside a window of representable length every step of the pro-rata computation
succeeds, and no cast on the way loses anything. -/
theorem proRata_total (amount : UInt64) {currTs startTs endTs : Int64}
    (begun : startTs ≤ currTs) (running : ¬ endTs ≤ currTs)
    (fits : FitsI64 (endTs.toInt - startTs.toInt)) :
    ∃ into total product quotient, checkedSubI64 currTs startTs = some into ∧
      checkedSubI64 endTs startTs = some total ∧
      (i64AsU128 into).checkedMul (u64AsU128 amount) = some product ∧
      product.checkedDiv (i64AsU128 total) = some quotient ∧
      (u128AsU64 quotient).toNat = quotient.toNat ∧
      (u128AsU64 quotient).toNat =
        released amount.toNat startTs.toInt endTs.toInt currTs.toInt := by
  rw [Int64.le_iff_toInt_le] at begun running
  obtain ⟨total, htotal, totalValue⟩ := checkedSubI64_total endTs startTs fits
  obtain ⟨into, hinto, intoValue⟩ := checkedSubI64_total currTs startTs
    ⟨by have := fits.1; omega, by have := fits.2; omega⟩
  have intoNat := i64AsU128_toNat into (by omega)
  have totalNat := i64AsU128_toNat total (by omega)
  have amountWidth := amount.toNat_lt
  have intoWidth : into.toInt.toNat < 2 ^ 63 := by have := into.toInt_lt; omega
  obtain ⟨product, hproduct, productValue⟩ :=
    checkedMul_total (i64AsU128 into) (u64AsU128 amount) (by
      rw [intoNat, u64AsU128_toNat]
      calc into.toInt.toNat * amount.toNat
          ≤ into.toInt.toNat * 2 ^ 64 := Nat.mul_le_mul_left _ (by omega)
        _ < 2 ^ 128 := by omega)
  obtain ⟨quotient, hquotient, quotientValue⟩ :=
    checkedDiv_total product (i64AsU128 total) (by omega)
  have share : quotient.toNat = released amount.toNat startTs.toInt endTs.toInt currTs.toInt := by
    rw [released_inside _ begun (by omega), quotientValue, productValue, intoNat, totalNat,
      u64AsU128_toNat, intoValue, totalValue, Nat.mul_comm]
  have bound := released_le amount.toNat startTs.toInt endTs.toInt currTs.toInt
  have lossless : (u128AsU64 quotient).toNat = quotient.toNat := by
    rw [u128AsU64_toNat]
    exact Nat.mod_eq_of_lt (by omega)
  exact ⟨into, total, product, quotient, hinto, htotal, hproduct, hquotient, lossless,
    lossless.trans share⟩

/-- The locked curve is the floor of a linear release. It fails only inside a
window whose length is not an `i64`. -/
theorem unlockedAmountAt_ok_iff {self : ClaimStatus} {currTs startTs endTs : Int64}
    {amount : UInt64} :
    self.unlockedAmountAt currTs startTs endTs = .ok amount ↔
      (startTs ≤ currTs → ¬ endTs ≤ currTs → FitsI64 (endTs.toInt - startTs.toInt)) ∧
      amount.toNat = released self.lockedAmount.toNat startTs.toInt endTs.toInt currTs.toInt := by
  unfold ClaimStatus.unlockedAmountAt
  by_cases begun : startTs ≤ currTs
  · rw [if_pos begun]
    by_cases ended : endTs ≤ currTs
    · rw [if_pos ended, released_after _ (Int64.le_iff_toInt_le.mp begun)
        (Int64.le_iff_toInt_le.mp ended), UInt64.toNat_inj]
      simp [ended, eq_comm]
    rw [if_neg ended]
    by_cases fits : FitsI64 (endTs.toInt - startTs.toInt)
    · obtain ⟨into, total, product, quotient, hinto, htotal, hproduct, hquotient, _, share⟩ :=
        proRata_total self.lockedAmount begun ended fits
      rw [← share, UInt64.toNat_inj]
      simp only [bind_ok_iff, okOr_ok_iff, pure_ok_iff, hinto, htotal, hproduct, hquotient,
        Option.some.injEq, exists_eq_left', fits, implies_true, true_and]
      exact eq_comm
    · simp only [bind_ok_iff, okOr_ok_iff, checkedSubI64, if_neg fits, begun, ended]
      simp [fits]
  · rw [if_neg begun, released_before _ _ (by rw [Int64.le_iff_toInt_le] at begun; omega)]
    simp [begun, ← UInt64.toNat_inj, eq_comm]

/-- The withdrawable amount is what the release has over the earlier withdrawals. -/
theorem amountWithdrawable_ok_iff {self : ClaimStatus} {currTs startTs endTs : Int64}
    {amount : UInt64} :
    self.amountWithdrawable currTs startTs endTs = .ok amount ↔
      (startTs ≤ currTs → ¬ endTs ≤ currTs → FitsI64 (endTs.toInt - startTs.toInt)) ∧
      released self.lockedAmount.toNat startTs.toInt endTs.toInt currTs.toInt =
        amount.toNat + self.lockedAmountWithdrawn.toNat := by
  simp only [ClaimStatus.amountWithdrawable, bind_ok_iff, okOr_ok_iff, checkedSub_eq_some,
    unlockedAmountAt_ok_iff]
  constructor
  · rintro ⟨unlocked, ⟨fits, share⟩, difference⟩
    exact ⟨fits, by omega⟩
  · rintro ⟨fits, difference⟩
    have bound := released_le self.lockedAmount.toNat startTs.toInt endTs.toInt currTs.toInt
    have width := self.lockedAmount.toNat_lt
    obtain ⟨unlocked, _, sum⟩ :=
      checkedAdd_total amount self.lockedAmountWithdrawn (by omega)
    exact ⟨unlocked, ⟨fits, by omega⟩, sum⟩

/-- The start share of an amount, as the source computes it through `u128`. -/
theorem startShare_total (amount : UInt64) :
    ∃ scaled share, (u64AsU128 amount).checkedMul startClaimPct = some scaled ∧
      scaled.checkedDiv pctPrecision = some share ∧
      (u128AsU64 share).toNat = share.toNat ∧
      (u128AsU64 share).toNat = amount.toNat * 500000 / 1000000 := by
  have width := amount.toNat_lt
  obtain ⟨scaled, hscaled, scaledValue⟩ := checkedMul_total (u64AsU128 amount) startClaimPct (by
    rw [u64AsU128_toNat, show startClaimPct.toNat = 500000 from rfl]
    omega)
  obtain ⟨share, hshare, shareValue⟩ := checkedDiv_total scaled pctPrecision (by decide)
  have value : share.toNat = amount.toNat * 500000 / 1000000 := by
    rw [shareValue, scaledValue, u64AsU128_toNat, show startClaimPct.toNat = 500000 from rfl,
      show pctPrecision.toNat = 1000000 from rfl]
  have lossless : (u128AsU64 share).toNat = share.toNat := by
    rw [u128AsU64_toNat]
    exact Nat.mod_eq_of_lt (by omega)
  exact ⟨scaled, share, hscaled, hshare, lossless, lossless.trans value⟩

/-- Inside the window every step of the paid share succeeds. -/
private theorem claimedShare_total (amount : UInt64) {currTs startTs endTs : Int64}
    (begun : startTs ≤ currTs) (running : ¬ endTs ≤ currTs)
    (fits : FitsI64 (endTs.toInt - startTs.toInt)) :
    ∃ scaled share remainder into total product quotient claimed,
      (u64AsU128 amount).checkedMul startClaimPct = some scaled ∧
      scaled.checkedDiv pctPrecision = some share ∧
      checkedSub amount (u128AsU64 share) = some remainder ∧
      checkedSubI64 currTs startTs = some into ∧ checkedSubI64 endTs startTs = some total ∧
      (i64AsU128 into).checkedMul (u64AsU128 remainder) = some product ∧
      product.checkedDiv (i64AsU128 total) = some quotient ∧
      checkedAdd (u128AsU64 share) (u128AsU64 quotient) = some claimed ∧
      claimed.toNat =
        unlockedRelease amount.toNat startTs.toInt endTs.toInt currTs.toInt := by
  obtain ⟨scaled, share, hscaled, hshare, _, startValue⟩ := startShare_total amount
  obtain ⟨remainder, hremainder, rest⟩ :=
    checkedSub_total amount (u128AsU64 share) (by omega)
  obtain ⟨into, total, product, quotient, hinto, htotal, hproduct, hquotient, _, bonus⟩ :=
    proRata_total remainder begun running fits
  have restValue : remainder.toNat = amount.toNat - amount.toNat * 500000 / 1000000 := by omega
  have bound := released_le remainder.toNat startTs.toInt endTs.toInt currTs.toInt
  have width := amount.toNat_lt
  obtain ⟨claimed, hclaimed, claimedValue⟩ :=
    checkedAdd_total (u128AsU64 share) (u128AsU64 quotient) (by omega)
  refine ⟨scaled, share, remainder, into, total, product, quotient, claimed, hscaled, hshare,
    hremainder, hinto, htotal, hproduct, hquotient, hclaimed, ?_⟩
  rw [claimedValue, startValue, bonus, restValue, unlockedRelease]

/-- The paid share of the unlocked amount. Before the start nothing can be claimed;
afterwards it fails only inside a window whose length is not an `i64`. -/
theorem updateUnlockedAmountClaimed_ok_iff {self next : ClaimStatus}
    {currTs startTs endTs : Int64} :
    self.updateUnlockedAmountClaimed currTs startTs endTs = .ok next ↔
      startTs ≤ currTs ∧ (¬ endTs ≤ currTs → FitsI64 (endTs.toInt - startTs.toInt)) ∧
      ∃ claimed : UInt64, claimed.toNat = unlockedRelease self.unlockedAmount.toNat
          startTs.toInt endTs.toInt currTs.toInt ∧
        next = { self with unlockedAmountClaimed := claimed } := by
  unfold ClaimStatus.updateUnlockedAmountClaimed
  by_cases begun : startTs ≤ currTs
  · rw [if_pos begun]
    by_cases ended : endTs ≤ currTs
    · rw [if_pos ended, unlockedRelease_after _ (Int64.le_iff_toInt_le.mp begun)
        (Int64.le_iff_toInt_le.mp ended)]
      simp [begun, ended, UInt64.toNat_inj, eq_comm]
    rw [if_neg ended]
    by_cases fits : FitsI64 (endTs.toInt - startTs.toInt)
    · obtain ⟨scaled, share, remainder, into, total, product, quotient, claimed, hscaled, hshare,
        hremainder, hinto, htotal, hproduct, hquotient, hclaimed, value⟩ :=
        claimedShare_total self.unlockedAmount begun ended fits
      simp only [bind_ok_iff, okOr_ok_iff, pure_ok_iff, hinto, htotal, hscaled, hshare, hremainder,
        hproduct, hquotient, hclaimed, Option.some.injEq, exists_eq_left', begun, fits,
        implies_true, true_and, ← value, UInt64.toNat_inj, exists_eq_left]
      exact eq_comm
    · simp only [bind_ok_iff, okOr_ok_iff, checkedSubI64, if_neg fits, begun, ended]
      simp [fits]
  · simp [begun]

theorem getUnlockedAmountForgone_ok_iff {self : ClaimStatus} {forgone : UInt64} :
    self.getUnlockedAmountForgone = .ok forgone ↔
      self.unlockedAmount.toNat = forgone.toNat + self.unlockedAmountClaimed.toNat := by
  rw [ClaimStatus.getUnlockedAmountForgone, okOr_ok_iff, checkedSub_eq_some]

end MultiDistributor.Source

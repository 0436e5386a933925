import MultiDistributor.Guarantees.Eligibility
import MultiDistributor.Source.Sdk

/-!
# The claimable amount of the SDK

The SDK interpolates between the two amounts of an answer. Inside the vesting window this
is the share that `new_claim` pays. After the window the program and the API pay the whole
amount, while the SDK returns zero. All of this is about schedules that doubles hold exactly:
the SDK interpolates along a rounded schedule otherwise.
-/
namespace MultiDistributor.Source
open Lib.Checked Lib.LinearRelease Lib.TokenLedger Sdk

/-- The response as the SDK holds it: `JSON.parse` makes doubles of the times. -/
structure Received (answer : EligibilityResp) (response : Sdk.EligibilityResp) : Prop where
  startTs : response.startTs = nearestDouble answer.startTs.toInt
  endTs : response.endTs = nearestDouble answer.endTs.toInt
  startAmount : response.startAmount = answer.startAmount
  endAmount : response.endAmount = answer.endAmount

/-- What an answer states of the leaf and of the schedule. -/
structure States (answer : EligibilityResp) (amount : Nat) (distributor : MerkleDistributor) :
    Prop where
  startTs : answer.startTs = distributor.startTs
  endTs : answer.endTs = distributor.endTs
  startAmount : answer.startAmount = toString (amount * 500000 / 1000000)
  endAmount : answer.endAmount = toString amount

/-- An answer about a served leaf states half of its amount as the start amount. -/
theorem Served.states {text : PubkeyText} {state : RouterState} {claimant key : Pubkey}
    {node : TreeNode} {distributor : MerkleDistributor} {currTs : Int64}
    {answer : EligibilityResp} (served : Served text state claimant key node distributor)
    (answered : getEligibility text state (text.toStr claimant) currTs = .ok [answer]) :
    States answer node.amount.toNat distributor := by
  obtain ⟨e, same⟩ := getEligibility_ok_iff.mp answered
  obtain rfl := List.singleton_inj.mp same
  have entry := e.entry
  rw [Option.some.inj (e.parsed.symm.trans (text.fromStr_toStr claimant)), served.entry] at entry
  obtain ⟨keySame, nodeSame⟩ := Prod.mk.inj (Option.some.inj entry)
  obtain ⟨record, cached, start, stop⟩ := served.record
  have terms : state.cache.termsOf text (text.toStr e.key) =
      { startTs := record.startTs, endTs := record.endTs, mint := text.toStr record.mint } := by
    simp only [Cache.termsOf, ← keySame, cached]
  obtain ⟨numerator, scaled, precision, scaling, _, value⟩ := startAmount_half e.node.amount
  have samePrecision := e.precision
  rw [served.half, precision] at samePrecision
  cases samePrecision
  cases scaling.symm.trans e.scaling
  obtain ⟨_, division⟩ := div_of_checkedDiv e.division
  rw [division] at value
  exact
    { startTs := by rw [EligibilityExecution.answer, terms, start]
      endTs := by rw [EligibilityExecution.answer, terms, stop]
      startAmount := by rw [EligibilityExecution.answer, value, ← nodeSame]
      endAmount := by rw [EligibilityExecution.answer, ← nodeSame] }

/-- Inside the window the interpolation is the share that a claim is paid. -/
theorem claimShare_inside {amount : Nat} {start stop now : Int} (begun : start ≤ now)
    (running : now ≤ stop) (window : start < stop) :
    (((amount : Int) - (amount * 500000 / 1000000 : Nat)) * (now - start)).tdiv (stop - start) +
      (amount * 500000 / 1000000 : Nat) = (claimShare amount start stop now : Nat) := by
  have share : (amount : Int) - (amount * 500000 / 1000000 : Nat) =
      (amount - amount * 500000 / 1000000 : Nat) := by omega
  obtain ⟨elapsed, hElapsed⟩ := Int.eq_ofNat_of_zero_le (Int.sub_nonneg.mpr begun)
  obtain ⟨duration, hDuration⟩ := Int.eq_ofNat_of_zero_le (Int.sub_nonneg.mpr window.le)
  have bonus : released (amount - amount * 500000 / 1000000) start stop now =
      (amount - amount * 500000 / 1000000) * elapsed / duration := by
    rcases Int.lt_or_eq_of_le running with inside | rfl
    · rw [released_inside _ begun inside, hElapsed, hDuration, Int.toNat_natCast,
        Int.toNat_natCast]
    · obtain rfl : elapsed = duration := by omega
      rw [released_after _ begun le_rfl, Nat.mul_div_cancel _ (by omega)]
  rw [claimShare, if_pos begun, unlockedRelease, bonus, share, hElapsed, hDuration,
    Int.tdiv_eq_ediv_of_nonneg (by positivity)]
  push_cast
  omega

/-- The calculation gives the share before the start and up to the end, if `BN` takes the
length of the schedule. After the end it does so only for an empty leaf. -/
theorem calculateClaimableAmount_claimShare_iff {response : Sdk.EligibilityResp} {amount : Nat}
    (now : Int) (startAmount : response.startAmount = toString (amount * 500000 / 1000000))
    (endAmount : response.endAmount = toString amount)
    (window : response.startTs < response.endTs) :
    calculateClaimableAmount response now =
        .ok (claimShare amount response.startTs response.endTs now : Nat) ↔
      now < response.startTs ∨
        (now ≤ response.endTs ∧
          response.endTs - response.startTs < 2 ^ 53) ∨
        (response.endTs < now ∧ amount = 0) := by
  by_cases early : now < response.startTs
  · rw [calculateClaimableAmount, if_pos (by exact_mod_cast early), claimShare,
      if_neg (Int.not_le.mpr early)]
    exact ⟨fun _ => .inl early, fun _ => rfl⟩
  have begun : response.startTs ≤ now := Int.not_lt.mp early
  by_cases late : response.endTs < now
  · rw [calculateClaimableAmount, if_neg (by exact_mod_cast early),
      if_pos (by exact_mod_cast late), claimShare, if_pos begun,
      unlockedRelease_after _ begun late.le, Except.ok.injEq]
    omega
  have running : now ≤ response.endTs := Int.not_lt.mp late
  rw [calculateClaimableAmount_inside startAmount endAmount begun running window,
    claimShare_inside begun running window]
  constructor
  · rintro ⟨short, _⟩
    exact .inr (.inl ⟨running, short⟩)
  · rintro (before | ⟨_, short⟩ | ⟨after, _⟩)
    · exact absurd before early
    · exact ⟨short, rfl⟩
    · exact absurd after late

/-- For a schedule that doubles hold exactly, the SDK calls claimable what `new_claim` would
pay before the schedule starts and up to its end, if the schedule is shorter than `2 ^ 53`
seconds. After the end it does so only for an empty leaf. -/
theorem sdk_amount_is_paid_iff {rt : Runtime} {world : World} (reachable : Reachable rt world)
    {text : PubkeyText} {state : RouterState} {claimant key : Pubkey} {node : TreeNode}
    {distributor : MerkleDistributor} {servedAt : Int64} {answer : EligibilityResp}
    {response : Sdk.EligibilityResp}
    (served : Served text state claimant key node distributor)
    (answered : getEligibility text state (text.toStr claimant) servedAt = .ok [answer])
    (received : Received answer response) {tx : Transaction} {accounts : NewClaimAccounts}
    {args : NewClaimArgs} (claim : Claimable rt world tx accounts args distributor)
    (permitted : Admissible rt tx) (leaf : args.amountUnlocked = node.amount)
    (exactStart : nearestDouble distributor.startTs.toInt = distributor.startTs.toInt)
    (exactEnd : nearestDouble distributor.endTs.toInt = distributor.endTs.toInt) :
    (∃ amount : Nat,
      calculateClaimableAmount response tx.clock.unixTimestamp.toInt = .ok (amount : Int) ∧
      Paid world (apply rt world tx) distributor.tokenVault accounts.toAccount amount) ↔
    tx.clock.unixTimestamp < distributor.startTs ∨
      (tx.clock.unixTimestamp ≤ distributor.endTs ∧
        distributor.endTs.toInt - distributor.startTs.toInt < 2 ^ 53) ∨
      (distributor.endTs < tx.clock.unixTimestamp ∧ args.amountUnlocked = 0) := by
  have stated := served.states answered
  have first : response.startTs = distributor.startTs.toInt := by
    rw [received.startTs, stated.startTs, exactStart]
  have last : response.endTs = distributor.endTs.toInt := by
    rw [received.endTs, stated.endTs, exactEnd]
  have window : response.startTs < response.endTs := by
    rw [first, last]
    exact (reachable.wellFormed.schedule _ _ claim.found).1
  have region := calculateClaimableAmount_claimShare_iff tx.clock.unixTimestamp.toInt
    (received.startAmount.trans stated.startAmount) (received.endAmount.trans stated.endAmount)
    window
  have paid := claim.paid reachable.wellFormed permitted
  rw [first, last, ← leaf] at region
  rw [Int64.lt_iff_toInt_lt, Int64.le_iff_toInt_le, Int64.lt_iff_toInt_lt, ← UInt64.toNat_inj]
  refine Iff.trans ⟨?_, fun computed => ⟨_, computed, paid⟩⟩ region
  rintro ⟨amount, computed, moved⟩
  rw [paid.unique moved]
  exact computed

namespace Sample

/-- What the SDK holds of the answer about the sample leaf. -/
def sdkResponse : Sdk.EligibilityResp where
  startTs := 0
  endTs := 100
  startAmount := toString 50
  endAmount := toString 100

/-- The sample server answers, and the SDK receives that response. -/
theorem server_answers {record : MerkleDistributor} (start : record.startTs = 0)
    (stop : record.endTs = 100) (servedAt : Int64) :
    ∃ answer, getEligibility Guarantees.Sharding.SampleCsv.latinText (serverOf record)
        (Guarantees.Sharding.SampleCsv.latinText.toStr wallet) servedAt = .ok [answer] ∧
      Received answer sdkResponse := by
  have window : FitsI64 (record.endTs.toInt - record.startTs.toInt) := by
    rw [start, stop]
    decide
  obtain ⟨claimable, computed, _⟩ := claimFigures_none servedAt window
    (show servedLeaf.amount.toNat + (servedLeaf.lockedAmount.getD 0).toNat < 2 ^ 64 by decide)
  obtain ⟨answer, answered, _⟩ := (serverOf_serves record).quotes computed
    (show (0 : UInt64).toNat + (0 : UInt64).toNat < 2 ^ 64 by decide)
  have stated := (serverOf_serves record).states answered
  refine ⟨answer, answered, ?_⟩
  exact
    { startTs := by rw [stated.startTs, start]; decide
      endTs := by rw [stated.endTs, stop]; decide
      startAmount := stated.startAmount.symm
      endAmount := stated.endAmount.symm }

end Sample

open Sample Guarantees.Sharding.SampleCsv in
/-- Inside the window the SDK calls claimable what the sample claim is paid. -/
theorem sdk_amount_is_paid_inside :
    let world := deployed 100 70 170 170
    ∃ amount : Nat, calculateClaimableAmount sdkResponse (30 : Int) = .ok (amount : Int) ∧
      Paid world (apply rt world (claim 30 100 70)) vault purse amount := by
  intro world
  obtain ⟨record, found, stored, start, stop, both⟩ := deployed_claimable 30
  obtain ⟨answer, answered, received⟩ := server_answers start stop 30
  have exactly := sdk_amount_is_paid_iff (deployed_reachable 100 70 170 170)
    (serverOf_serves record) answered received both.claim (admissible_of_foreign (by decide)) rfl
    (by rw [start]; decide) (by rw [stop]; decide)
  rw [stored, start, stop] at exactly
  exact exactly.mpr (by decide)

open Sample Guarantees.Sharding.SampleCsv in
/-- One second after the window the API answers as before, the SDK makes zero of the
answer, and the claim is paid in full. -/
theorem sdk_returns_zero_after_vesting :
    let world := deployed 100 70 170 170
    ∃ record answer, world.distributors pda = some record ∧
      getEligibility latinText (serverOf record) (latinText.toStr wallet) 101 = .ok [answer] ∧
      Received answer sdkResponse ∧
      calculateClaimableAmount sdkResponse (101 : Int) = .ok 0 ∧
      Paid world (apply rt world (claim 101 100 70)) vault purse 100 := by
  intro world
  obtain ⟨record, found, stored, start, stop, both⟩ := deployed_claimable 101
  obtain ⟨answer, answered, received⟩ := server_answers start stop 101
  have zero : calculateClaimableAmount sdkResponse (101 : Int) = .ok 0 := by decide +kernel
  have paid := both.claim.paid (deployed_reachable 100 70 170 170).wellFormed
    (admissible_of_foreign (by decide))
  rw [stored, start, stop] at paid
  exact ⟨record, answer, found, answered, received, zero, paid⟩

end MultiDistributor.Source

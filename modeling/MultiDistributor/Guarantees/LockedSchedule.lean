import MultiDistributor.Guarantees.Payments

/-!
# Locked withdrawals on any schedule

An attempt to withdraw leaves the claim status where the release curve is at that moment,
whether it pays or has nothing to pay. Each payment rounds down anew, but it pays the
difference to a value of one monotone curve, so rounding does not accumulate and the
attempts made before do not matter.
-/
namespace MultiDistributor.Source
open Lib.Checked Lib.LinearRelease Lib.TokenLedger Lib.Replay

/-- The claim status a transaction withdraws from, by claimant and distributor. -/
def Transaction.withdraws (tx : Transaction) : Option (Pubkey × Pubkey) :=
  match tx.action with
  | .invoke (.claimLocked accounts) => some (accounts.claimant, accounts.distributor)
  | _ => none

theorem withdraws_of_sent {tx : Transaction} {accounts : ClaimLockedAccounts}
    (sent : tx.action = .invoke (.claimLocked accounts)) :
    tx.withdraws = some (accounts.claimant, accounts.distributor) := by
  simp only [Transaction.withdraws, sent]

/-! ### Attempts one after the other -/

/-- What an attempt at a claim status of `locked` tokens does, under a schedule from
`startTs` to `endTs`: it pays, or it is rejected because nothing is due, and it leaves the
withdrawn amount at the value of the release curve. -/
structure Attempted (rt : Runtime) (pre : World) (tx : Transaction) (claimant key : Pubkey)
    (locked : UInt64) (startTs endTs : Int64) (before after : ClaimStatus) (amount : UInt64) :
    Prop where
  held : pre.claimStatuses claimant key = some before
  left : (apply rt pre tx).claimStatuses claimant key = some after
  lockedBefore : before.lockedAmount = locked
  lockedAfter : after.lockedAmount = locked
  withdrawable : before.amountWithdrawable tx.clock.unixTimestamp startTs endTs = .ok amount
  outcome : (0 < amount ∧ Succeeds rt pre tx) ∨
    (amount = 0 ∧ process rt pre tx = .error (.custom .insufficientUnlockedTokens))
  settled : after.unlockedAmountAt tx.clock.unixTimestamp startTs endTs =
    .ok after.lockedAmountWithdrawn
  release : after.lockedAmountWithdrawn.toNat =
    released locked.toNat startTs.toInt endTs.toInt tx.clock.unixTimestamp.toInt

section
variable {rt : Runtime} {world : World} {tx : Transaction} {claimant key : Pubkey}

/-- A claim status that exists changes only in a withdrawal from it. -/
theorem status_kept {status : ClaimStatus} (held : world.claimStatuses claimant key = some status)
    (other : tx.withdraws ≠ some (claimant, key)) :
    (apply rt world tx).claimStatuses claimant key = some status := by
  rcases apply_cases rt world tx with ⟨failed, _⟩ | ⟨execution, _⟩
  · rw [failed]
    exact held
  rcases execution.status_cases claimant key with
    kept | ⟨accounts, args, _, e, rfl, rfl, _⟩ | ⟨accounts, sent, e, rfl, rfl, _⟩
  · exact kept.trans held
  · have vacant := e.vacant
    rw [held] at vacant
    cases vacant
  · exact absurd (withdraws_of_sent sent) other

/-- One attempt, while the withdrawn amount has not passed the curve. -/
theorem Unobstructed.attempted {accounts : ClaimLockedAccounts} {distributor : MerkleDistributor}
    {status : ClaimStatus} (attempt : Unobstructed rt world tx accounts distributor status)
    (wellFormed : WellFormed rt world) (admissible : Admissible rt tx)
    (behind : status.lockedAmountWithdrawn.toNat ≤
      dueAt distributor status tx.clock.unixTimestamp) :
    ∃ after amount, Attempted rt world tx accounts.claimant accounts.distributor
      status.lockedAmount distributor.startTs distributor.endTs status after amount := by
  rcases Nat.lt_or_eq_of_le behind with due | settled
  · obtain ⟨e, rfl, rfl⟩ := attempt.pays wellFormed admissible due
    have success := e.success attempt.sent
    have sum : e.lockedAmountWithdrawn.toNat =
        dueAt e.distributor e.status tx.clock.unixTimestamp := by
      rw [e.withdrawnSum, dueAt, e.release, Nat.add_comm]
    refine ⟨e.nextStatus, e.amount, ?_⟩
    exact
      { held := attempt.statusFound
        left := by rw [apply_of_ok success, e.after_statuses, if_pos rfl]
        lockedBefore := rfl
        lockedAfter := rfl
        withdrawable := amountWithdrawable_ok_iff.mpr ⟨e.window, e.release⟩
        outcome := .inl ⟨UInt64.lt_iff_toNat_lt.mpr e.positive, _, _, success⟩
        settled := unlockedAmountAt_ok_iff.mpr ⟨e.window, sum⟩
        release := sum }
  · have rejected := attempt.rejected wellFormed settled.symm
    refine ⟨status, 0, ?_⟩
    exact
      { held := attempt.statusFound
        left := by rw [apply_of_error rejected, attempt.statusFound]
        lockedBefore := rfl
        lockedAfter := rfl
        withdrawable := amountWithdrawable_ok_iff.mpr ⟨fun _ _ => attempt.window, by
          rw [show (0 : UInt64).toNat = 0 from rfl, Nat.zero_add]
          exact settled.symm⟩
        outcome := .inr ⟨rfl, rejected⟩
        settled := unlockedAmountAt_ok_iff.mpr ⟨fun _ _ => attempt.window, settled⟩
        release := settled }

/-- Every attempt of the run at the status is unobstructed, under one schedule. -/
def AttemptsUnobstructed (rt : Runtime) (world : World) (txs : List Transaction)
    (claimant key : Pubkey) (startTs endTs : Int64) : Prop :=
  ∀ pre tx, (pre, tx) ∈ transitions (apply rt) world txs →
    tx.withdraws = some (claimant, key) →
    ∃ accounts distributor status, Unobstructed rt pre tx accounts distributor status ∧
      distributor.startTs = startTs ∧ distributor.endTs = endTs

/-- Attempts are made at times that do not go back. -/
def AttemptsOrdered (txs : List Transaction) (claimant key : Pubkey) : Prop :=
  txs.Pairwise fun earlier later =>
    earlier.withdraws = some (claimant, key) → later.withdraws = some (claimant, key) →
      earlier.clock.unixTimestamp ≤ later.clock.unixTimestamp

/-- The withdrawn amount has not passed the curve at any attempt of the list. -/
def BehindCurve (status : ClaimStatus) (startTs endTs : Int64) (txs : List Transaction)
    (claimant key : Pubkey) : Prop :=
  ∀ tx ∈ txs, tx.withdraws = some (claimant, key) →
    status.lockedAmountWithdrawn.toNat ≤ released status.lockedAmount.toNat startTs.toInt
      endTs.toInt tx.clock.unixTimestamp.toInt

/-- One transaction, an attempt or not, leaves a status of the same locked amount behind the
curve at the attempts that follow. -/
theorem status_follows_release {status : ClaimStatus} {startTs endTs : Int64}
    (wellFormed : WellFormed rt world) (now : Admissible rt tx)
    (held : world.claimStatuses claimant key = some status)
    (clear : tx.withdraws = some (claimant, key) →
      ∃ accounts distributor status, Unobstructed rt world tx accounts distributor status ∧
        distributor.startTs = startTs ∧ distributor.endTs = endTs) {rest : List Transaction}
    (ordered : ∀ later ∈ rest, tx.withdraws = some (claimant, key) →
      later.withdraws = some (claimant, key) →
      tx.clock.unixTimestamp ≤ later.clock.unixTimestamp)
    (behind : BehindCurve status startTs endTs (tx :: rest) claimant key) :
    ∃ after, (apply rt world tx).claimStatuses claimant key = some after ∧
      after.lockedAmount = status.lockedAmount ∧
      BehindCurve after startTs endTs rest claimant key ∧
      (tx.withdraws = some (claimant, key) → ∃ amount, Attempted rt world tx claimant key
        status.lockedAmount startTs endTs status after amount) := by
  by_cases attempts : tx.withdraws = some (claimant, key)
  · obtain ⟨accounts, distributor, found, attempt, rfl, rfl⟩ := clear attempts
    have named := (withdraws_of_sent attempt.sent).symm.trans attempts
    obtain ⟨rfl, rfl⟩ := Prod.mk.inj (Option.some.inj named)
    cases held.symm.trans attempt.statusFound
    obtain ⟨after, amount, result⟩ :=
      attempt.attempted wellFormed now (behind tx List.mem_cons_self attempts)
    refine ⟨after, result.left, result.lockedAfter, ?_, fun _ => ⟨amount, result⟩⟩
    intro next listed attemptsNext
    rw [result.release, result.lockedAfter]
    have forward := ordered next listed attempts attemptsNext
    exact released_mono _ _ _ (Int64.le_iff_toInt_le.mp forward)
  · refine ⟨status, status_kept held attempts, rfl, ?_,
      fun impossible => absurd impossible attempts⟩
    exact fun next listed => behind next (List.mem_cons_of_mem _ listed)

/-- From a status behind the curve at every attempt still to come. -/
theorem attempts_follow_release {status : ClaimStatus} {startTs endTs : Int64}
    (wellFormed : WellFormed rt world)
    (held : world.claimStatuses claimant key = some status) {txs : List Transaction}
    (admissible : ∀ tx ∈ txs, Admissible rt tx) (ordered : AttemptsOrdered txs claimant key)
    (clear : AttemptsUnobstructed rt world txs claimant key startTs endTs)
    (behind : BehindCurve status startTs endTs txs claimant key) :
    ∀ pre tx, (pre, tx) ∈ transitions (apply rt) world txs →
      tx.withdraws = some (claimant, key) →
      ∃ before after amount, Attempted rt pre tx claimant key status.lockedAmount startTs endTs
        before after amount := by
  induction txs generalizing world status with
  | nil =>
    intro pre tx step
    cases step
  | cons head rest ih =>
    obtain ⟨first, tail⟩ := List.pairwise_cons.mp ordered
    have now : Admissible rt head := admissible head (by simp)
    obtain ⟨after, left, sameLocked, stillBehind, attempted⟩ := status_follows_release wellFormed
      now held (clear world head List.mem_cons_self) first behind
    have continued := ih (wellFormed.after_tx now) left
      (fun tx member => admissible tx (by simp [member])) tail
      (fun pre tx step => clear pre tx (List.mem_cons_of_mem _ step)) stillBehind
    intro pre tx step attempts
    rcases List.mem_cons.mp step with here | member
    · obtain ⟨rfl, rfl⟩ := Prod.mk.inj here
      exact ⟨status, after, attempted attempts⟩
    · rw [sameLocked] at continued
      exact continued pre tx member attempts

end

/-- After a successful `new_claim`, every later attempt to withdraw leaves the withdrawn
amount at the value of the release curve at that time: the total depends on the locked
amount, the schedule and the time of the last attempt only. -/
theorem withdrawals_follow_release {rt : Runtime} {world : World} (reachable : Reachable rt world)
    {claim : Transaction} {accounts : NewClaimAccounts} {args : NewClaimArgs}
    (sent : claim.action = .invoke (.newClaim accounts args)) (permitted : Admissible rt claim)
    (claimed : Succeeds rt world claim) {startTs endTs : Int64} {txs : List Transaction}
    (admissible : ∀ tx ∈ txs, Admissible rt tx)
    (ordered : AttemptsOrdered txs accounts.claimant accounts.distributor)
    (clear : AttemptsUnobstructed rt (apply rt world claim) txs accounts.claimant
      accounts.distributor startTs endTs) :
    ∀ pre tx, (pre, tx) ∈ transitions (apply rt) (apply rt world claim) txs →
      tx.withdraws = some (accounts.claimant, accounts.distributor) →
      ∃ before after amount, Attempted rt pre tx accounts.claimant accounts.distributor
        args.amountLocked startTs endTs before after amount := by
  obtain ⟨after, events, success⟩ := claimed
  have dispatched := success
  simp only [process, sent, dispatch] at dispatched
  obtain ⟨e, rfl, _⟩ := newClaim_ok_iff.mp dispatched
  have created : (apply rt world claim).claimStatuses accounts.claimant accounts.distributor =
      some e.status := by
    rw [apply_of_ok success, e.after_statuses, if_pos rfl]
  exact attempts_follow_release (reachable.wellFormed.after_tx permitted) created admissible
    ordered clear fun _ _ _ => Nat.zero_le _

namespace Sample

def withdrawalAccounts : ClaimLockedAccounts :=
  { distributor := pda, fromAccount := vault, toAccount := purse, claimant := wallet }

/-- Everything an unobstructed withdrawal from the sample deployment needs. -/
def withdrawalCheck (world : World) (now : Int64) : Bool :=
  (world.distributors pda).any fun record => (world.claimStatuses wallet pda).any fun status =>
    (world.tokens.accounts vault).any fun source => (world.tokens.accounts purse).any fun account =>
      decide (record.tokenVault = vault ∧ source.mint = record.mint ∧ account.owner = wallet ∧
        account.mint = record.mint ∧ record.clawedBack = false ∧ record.enableSlot ≤ 10 ∧
        record.startTs = 0 ∧ record.endTs = 100 ∧
        dueAt record status now ≤ status.lockedAmountWithdrawn.toNat + source.amount.toNat ∧
        record.totalAmountClaimed.toNat + dueAt record status now ≤
          record.maxTotalClaim.toNat + status.lockedAmountWithdrawn.toNat)

theorem unobstructed_of_check {world : World} {now : Int64}
    (passes : withdrawalCheck world now = true) :
    ∃ distributor status,
      Unobstructed rt world (withdraw now) withdrawalAccounts distributor status ∧
        distributor.tokenVault = vault ∧ distributor.startTs = 0 ∧ distributor.endTs = 100 := by
  simp only [withdrawalCheck, Option.any_eq_true, decide_eq_true_eq] at passes
  obtain ⟨record, found, status, statusFound, source, sourceFound, account, accountFound,
    stored, sourceMint, owner, accountMint, live, enabled, start, stop, funded, cap⟩ := passes
  refine ⟨record, status, ?_, stored, start, stop⟩
  exact
    { sent := rfl, found, statusFound, signed := List.mem_singleton.mpr rfl
      vaultAddress := stored.symm
      vaultMint := ⟨source, stored ▸ sourceFound, sourceMint⟩
      receiver := ⟨account, accountFound, owner, accountMint⟩
      live, enabled
      window := by
        rw [start, stop]
        decide
      funded := by
        rw [stored, balance_of_account sourceFound]
        exact funded
      cap }

/-- The check at each of the given times, withdrawing at each. -/
def withdrawalsCheck : World → List Int64 → Bool
  | _, [] => true
  | world, now :: later =>
    withdrawalCheck world now && withdrawalsCheck (apply rt world (withdraw now)) later

theorem unobstructed_of_checks {world : World} {times : List Int64}
    (passes : withdrawalsCheck world times = true) :
    AttemptsUnobstructed rt world (times.map withdraw) wallet pda 0 100 := by
  induction times generalizing world with
  | nil =>
    intro pre tx step
    cases step
  | cons now later ih =>
    simp only [withdrawalsCheck, Bool.and_eq_true] at passes
    intro pre tx step attempts
    rcases List.mem_cons.mp step with here | member
    · obtain ⟨rfl, rfl⟩ := Prod.mk.inj here
      obtain ⟨distributor, status, clear, _, terms⟩ := unobstructed_of_check passes.1
      exact ⟨_, distributor, status, clear, terms⟩
    · exact ih passes.2 pre tx member attempts

end Sample

open Sample in
/-- Two attempts at time 30, the second of which has nothing to pay, and one at 60. -/
theorem withdrawals_follow_release_on_sample :
    let start := apply rt (deployed 100 70 170 170) (claim 0 100 70)
    ∃ before after amount, Attempted rt (run rt start [withdraw 30, withdraw 30]) (withdraw 60)
      wallet pda 70 0 100 before after amount := by
  intro start
  have claimed : Succeeds rt (deployed 100 70 170 170) (claim 0 100 70) := by decide +kernel
  have passes : withdrawalsCheck start [30, 30, 60] = true := by decide +kernel
  have ordered : AttemptsOrdered ([30, 30, 60].map withdraw) wallet pda := by
    unfold AttemptsOrdered
    decide
  have last : ∀ world, (run rt world [withdraw 30, withdraw 30], withdraw 60) ∈
      transitions (apply rt) world ([30, 30, 60].map withdraw) := fun world =>
    List.mem_cons_of_mem _ (List.mem_cons_of_mem _ List.mem_cons_self)
  exact withdrawals_follow_release (deployed_reachable 100 70 170 170) rfl
    (admissible_of_foreign (by decide)) claimed (admissible_of_all rfl) ordered
    (unobstructed_of_checks passes) (run rt start [withdraw 30, withdraw 30]) (withdraw 60)
    (last start) rfl

end MultiDistributor.Source

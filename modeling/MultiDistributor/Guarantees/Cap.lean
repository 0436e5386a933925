import MultiDistributor.Guarantees.Authority

/-!
# The cap and the forgone amounts

`new_claim` bounds the claimed and forgone totals together by the cap and `set_root`
requires the new cap to cover both, but `claim_locked` compares the claimed total alone.
The joint bound therefore survives a run exactly when every withdrawal of locked tokens
in it fits under the cap next to the forgone total.
-/
namespace MultiDistributor.Source
open Lib.Checked Lib.LinearRelease Lib.Replay

/-- Claimed and forgone together are within the cap. -/
def CapCovers (key : Pubkey) (world : World) : Prop :=
  ∀ distributor, world.distributors key = some distributor →
    distributor.totalAmountClaimed.toNat + distributor.totalAmountForgone.toNat ≤
      distributor.maxTotalClaim.toNat

/-- If the transaction is a `claim_locked` that goes through, what the schedule has released
to its claimant and was not withdrawn yet fits under the cap next to the two totals. -/
def WithdrawalFits (rt : Runtime) (key : Pubkey) (world : World) (tx : Transaction) : Prop :=
  ∀ accounts distributor status, tx.action = .invoke (.claimLocked accounts) →
    accounts.distributor = key → Succeeds rt world tx →
    world.distributors key = some distributor →
    world.claimStatuses accounts.claimant key = some status →
    distributor.totalAmountClaimed.toNat + distributor.totalAmountForgone.toNat +
        released status.lockedAmount.toNat distributor.startTs.toInt distributor.endTs.toInt
          tx.clock.unixTimestamp.toInt ≤
      distributor.maxTotalClaim.toNat + status.lockedAmountWithdrawn.toNat

section
variable {rt : Runtime} {world after : World} {tx : Transaction} {key : Pubkey}

/-- A record that was not there before is a new distributor's, and nothing is claimed or
forgone of it. -/
theorem created_totals {next : MerkleDistributor} (absent : world.distributors key = none)
    (reached : (apply rt world tx).distributors key = some next) :
    next.totalAmountClaimed = 0 ∧ next.totalAmountForgone = 0 := by
  rcases apply_cases rt world tx with ⟨same, _⟩ | ⟨execution, _⟩
  · rw [same, absent] at reached
    cases reached
  · rcases execution.record_origin reached with ⟨accounts, args, _, _, _, rfl⟩ | ⟨old, hold, _⟩
    · exact ⟨rfl, rfl⟩
    · rw [absent] at hold
      cases hold

/-- A step keeps the bound if the withdrawal it makes, if any, fits. -/
theorem StepAt.capCovers {distributor : MerkleDistributor}
    (step : StepAt rt world tx key distributor after)
    (found : world.distributors key = some distributor) (bound : CapCovers key world)
    (fits : WithdrawalFits rt key world tx) : CapCovers key after := by
  have before := bound distributor found
  intro next reached
  cases step with
  | untouched quiet record =>
    cases record.symm.trans reached
    exact before
  | newClaim sent e here same left =>
    subst here same left
    cases e.after_record.symm.trans reached
    exact e.cap
  | claimLocked sent e here same left =>
    subst here same left
    cases e.after_record.symm.trans reached
    have room := fits _ _ _ sent rfl ⟨_, _, e.success sent⟩ found e.statusFound
    have sum := e.claimedSum
    rw [e.release] at room
    simp only [ClaimLockedExecution.next]
    omega
  | setRoot sent e here same left =>
    subst here same left
    cases e.after_record.symm.trans reached
    exact e.conditions.settled
  | clawback sent e here same left =>
    subst here same left
    cases e.after_record.symm.trans reached
    exact before
  | closed sent e here same left =>
    subst here same left
    simp [CloseDistributorExecution.after] at reached
  | admin sent here signed update left =>
    subst here left
    simp only [setDistributor_distributors, if_true, Option.some.injEq] at reached
    subst reached
    cases update <;> exact before

theorem CapCovers.step (bound : CapCovers key world) (wellFormed : WellFormed rt world)
    (admissible : Admissible rt tx) (fits : WithdrawalFits rt key world tx) :
    CapCovers key (apply rt world tx) := by
  cases before : world.distributors key with
  | some distributor =>
    exact (wellFormed.stepAt admissible before).capCovers before bound fits
  | none =>
    intro next reached
    obtain ⟨claimed, forgone⟩ := created_totals before reached
    rw [claimed, forgone]
    exact Nat.zero_le _

/-- A bound that holds after the step was respected by the withdrawal it made. -/
theorem withdrawalFits_of_capCovers (covered : CapCovers key (apply rt world tx)) :
    WithdrawalFits rt key world tx := by
  rintro accounts distributor status sent rfl ⟨after, events, success⟩ found statusFound
  have reached := apply_of_ok success
  simp only [process, sent, dispatch] at success
  obtain ⟨e, rfl, _⟩ := claimLocked_ok_iff.mp success
  obtain rfl : e.distributor = distributor := Option.some.inj (e.found.symm.trans found)
  obtain rfl : e.status = status := Option.some.inj (e.statusFound.symm.trans statusFound)
  have after := covered e.next (by rw [reached, e.after_record])
  have sum := e.claimedSum
  simp only [ClaimLockedExecution.next] at after
  rw [e.release]
  omega

end

/-- The joint bound holds in every world of a run exactly when every withdrawal of locked
tokens in the run fits under the cap next to the forgone total. -/
theorem capCovers_run_iff {rt : Runtime} {start : World} (genesis : Genesis start)
    {txs : List Transaction} (admissible : ∀ tx ∈ txs, Admissible rt tx) (key : Pubkey) :
    (∀ before after, txs = before ++ after → CapCovers key (run rt start before)) ↔
      ∀ step ∈ transitions (apply rt) start txs, WithdrawalFits rt key step.1 step.2 := by
  constructor
  · rintro covered ⟨pre, tx⟩ member
    obtain ⟨before, after, rfl, rfl⟩ := (mem_transitions_iff _ _ _ _ _).mp member
    have next := covered (before ++ [tx]) after (by simp)
    rw [run, replay_append] at next
    exact withdrawalFits_of_capCovers next
  · rintro fits before after rfl
    have both : WellFormed rt (run rt start before) ∧ CapCovers key (run rt start before) := by
      apply replay_invariant_along (apply rt)
        (fun world => WellFormed rt world ∧ CapCovers key world)
      · rintro pre tx member ⟨wellFormed, bound⟩
        have now := admissible tx (by simp [event_of_transition _ member])
        refine ⟨wellFormed.after_tx now, bound.step wellFormed now (fits (pre, tx) ?_)⟩
        rw [transitions_append]
        exact List.mem_append_left _ member
      · refine ⟨genesis_wellFormed genesis, fun distributor found => ?_⟩
        simp [genesis.1 key] at found
    exact both.2

open Sample in
/-- Under a cap of 170 the withdrawal of the 70 locked tokens fits next to 75 claimed and 25
forgone ones. -/
theorem capCovers_run_iff_on_sample :
    CapCovers pda (run rt emptyWorld
      (openAccounts 170 ++ [create 100 70 170 false, claim 50 100 70] ++ [withdraw 100])) := by
  refine (capCovers_run_iff emptyWorld_genesis (admissible_of_all rfl) pda).mpr ?_ _ []
    (List.append_nil _).symm
  rintro ⟨pre, tx⟩ member accounts distributor status sent _ _ found statusFound
  rw [transitions_append] at member
  rcases List.mem_append.mp member with early | last
  · have event := event_of_transition _ early
    simp only [openAccounts, List.cons_append, List.nil_append, List.mem_cons,
      List.not_mem_nil, or_false] at event
    rcases event with rfl | rfl | rfl | rfl | rfl | rfl | rfl <;> cases sent
  · rw [transitions_cons, transitions_nil, List.mem_singleton] at last
    obtain ⟨here, rfl⟩ := Prod.mk.inj last
    cases sent
    have facts : (pre.distributors pda).any (fun record => (pre.claimStatuses wallet pda).any
        fun status => record.totalAmountClaimed.toNat + record.totalAmountForgone.toNat +
          released status.lockedAmount.toNat record.startTs.toInt record.endTs.toInt 100 ≤
            record.maxTotalClaim.toNat + status.lockedAmountWithdrawn.toNat) = true := by
      rw [here]
      decide +kernel
    rw [found, Option.any_some, statusFound, Option.any_some] at facts
    exact of_decide_eq_true facts

open Sample in
/-- A leaf of 100 unlocked and 70 locked tokens under a cap of 150. Claimed half way it
pays 75 and forgoes 25; the locked 70 are then still paid, although 145 claimed and 25
forgone exceed the cap. -/
theorem locked_withdrawal_exceeds_cap :
    let txs := openAccounts 170 ++ [create 100 70 150 false, claim 50 100 70, withdraw 100]
    Genesis emptyWorld ∧ (∀ tx ∈ txs, Admissible rt tx) ∧ Chronological txs ∧
      (∃ distributor, (run rt emptyWorld txs).distributors pda = some distributor ∧
        distributor.totalAmountClaimed = 145 ∧ distributor.totalAmountForgone = 25 ∧
        distributor.maxTotalClaim = 150) ∧
      ¬ CapCovers pda (run rt emptyWorld txs) := by
  intro txs
  obtain ⟨record, found, facts⟩ := record_of (fun record => record.totalAmountClaimed == 145 &&
      record.totalAmountForgone == 25 && record.maxTotalClaim == 150)
    (show ((run rt emptyWorld txs).distributors pda).any _ = true by decide +kernel)
  simp only [Bool.and_eq_true, beq_iff_eq] at facts
  obtain ⟨⟨claimed, forgone⟩, cap⟩ := facts
  refine ⟨emptyWorld_genesis, admissible_of_all rfl, by decide, ⟨record, found, claimed, forgone,
    cap⟩, fun covered => ?_⟩
  have bound := covered record found
  rw [claimed, forgone, cap] at bound
  revert bound
  decide

/-! ### The claimed total alone -/

/-- What was claimed of any distributor is within its cap. -/
def Capped (world : World) : Prop :=
  ∀ key distributor, world.distributors key = some distributor →
    distributor.totalAmountClaimed.toNat ≤ distributor.maxTotalClaim.toNat

section
variable {rt : Runtime} {world after : World} {tx : Transaction} {key : Pubkey}

/-- Every instruction that raises the total or lowers the cap checks the one against
the other. -/
theorem StepAt.claimed_le {distributor next : MerkleDistributor}
    (step : StepAt rt world tx key distributor after)
    (before : distributor.totalAmountClaimed.toNat ≤ distributor.maxTotalClaim.toNat)
    (reached : after.distributors key = some next) :
    next.totalAmountClaimed.toNat ≤ next.maxTotalClaim.toNat := by
  cases step with
  | untouched quiet record =>
    cases record.symm.trans reached
    exact before
  | newClaim sent e here same left =>
    subst here same left
    cases e.after_record.symm.trans reached
    exact (Nat.le_add_right _ _).trans e.cap
  | claimLocked sent e here same left =>
    subst here same left
    cases e.after_record.symm.trans reached
    exact e.cap
  | setRoot sent e here same left =>
    subst here same left
    cases e.after_record.symm.trans reached
    exact (Nat.le_add_right _ _).trans e.conditions.settled
  | clawback sent e here same left =>
    subst here same left
    cases e.after_record.symm.trans reached
    exact before
  | closed sent e here same left =>
    subst here same left
    simp [CloseDistributorExecution.after] at reached
  | admin sent here signed update left =>
    subst here left
    simp only [setDistributor_distributors, if_true, Option.some.injEq] at reached
    subst reached
    cases update <;> exact before

theorem Capped.step (capped : Capped world) (wellFormed : WellFormed rt world)
    (admissible : Admissible rt tx) : Capped (apply rt world tx) := by
  intro key next reached
  cases before : world.distributors key with
  | some distributor =>
    exact (wellFormed.stepAt admissible before).claimed_le (capped key distributor before) reached
  | none =>
    rw [(created_totals before reached).1]
    exact Nat.zero_le _

theorem Reachable.capped (reachable : Reachable rt world) : Capped world := by
  obtain ⟨start, txs, genesis, admissible, rfl⟩ := reachable
  have both : WellFormed rt (run rt start txs) ∧ Capped (run rt start txs) := by
    apply replay_invariant (apply rt) (Admissible rt)
      (fun world => WellFormed rt world ∧ Capped world)
    · rintro state tx now ⟨wellFormed, capped⟩
      exact ⟨wellFormed.after_tx now, capped.step wellFormed now⟩
    · exact admissible
    · refine ⟨genesis_wellFormed genesis, fun key distributor found => ?_⟩
      simp [genesis.1 key] at found
  exact both.2

end

end MultiDistributor.Source

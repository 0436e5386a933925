import MultiDistributor.Guarantees.Authority

/-!
# The guard of `set_root` against claims that land in between

A proposal to re-root is built against a root and a number of claimed nodes. The
number only grows, and grows by one with every new claim status, while no other
instruction creates, removes or re-allocates one. So the same number at a later
state means the same claim statuses, whatever happened to the root in between.
-/
namespace MultiDistributor.Source
open Lib.Checked Lib.TokenLedger Lib.Replay

/-- The part of a claim status a new tree has to respect. -/
def ClaimStatus.allocation (status : ClaimStatus) : Pubkey × UInt64 × UInt64 :=
  (status.claimant, status.unlockedAmount, status.lockedAmount)

/-- The allocations of the claim statuses of a distributor, by claimant. -/
def World.allocations (world : World) (key claimant : Pubkey) : Option (Pubkey × UInt64 × UInt64) :=
  (world.claimStatuses claimant key).map ClaimStatus.allocation

section
variable {rt : Runtime} {world after : World} {tx : Transaction} {key : Pubkey}
  {distributor : MerkleDistributor}

/-- A step that does not count a new node keeps the allocations. -/
theorem StepAt.allocations (step : StepAt rt world tx key distributor after)
    {next : MerkleDistributor} (reached : after.distributors key = some next)
    (uncounted : next.numNodesClaimed = distributor.numNodesClaimed) (claimant : Pubkey) :
    after.allocations key claimant = world.allocations key claimant := by
  unfold World.allocations
  cases step with
  | untouched quiet record statuses vault still => rw [statuses]
  | newClaim sent e here same left =>
    subst here same left
    cases e.after_record.symm.trans reached
    have counted := e.counted
    rw [show e.numNodesClaimed = e.distributor.numNodesClaimed from uncounted] at counted
    omega
  | claimLocked sent e here same left =>
    subst here same left
    rw [e.after_statuses]
    split
    · next equal =>
      subst equal
      rw [e.statusFound]
      rfl
    · rfl
  | setRoot sent e here same left => subst left; rfl
  | clawback sent e here same left => subst left; rfl
  | closed sent e here same left => subst left; rfl
  | admin sent here signed update left => subst left; rfl

/-- Along a run of a permanent distributor the count never falls, and while it stands
still so do the allocations. -/
theorem WellFormed.run_allocations (wellFormed : WellFormed rt world)
    (found : world.distributors key = some distributor)
    (permanent : distributor.closable = false) {txs : List Transaction}
    (admissible : ∀ tx ∈ txs, Admissible rt tx) :
    ∃ next, (run rt world txs).distributors key = some next ∧
      distributor.numNodesClaimed.toNat ≤ next.numNodesClaimed.toNat ∧
      (next.numNodesClaimed = distributor.numNodesClaimed → ∀ claimant,
        (run rt world txs).allocations key claimant = world.allocations key claimant) := by
  induction txs generalizing world distributor with
  | nil => exact ⟨distributor, found, Nat.le_refl _, fun _ _ => rfl⟩
  | cons tx rest ih =>
    have now : Admissible rt tx := admissible tx (by simp)
    have stepAt := wellFormed.stepAt now found
    obtain ⟨middle, present, step⟩ := stepAt.record permanent
    obtain ⟨next, reached, grows, still⟩ := ih (wellFormed.after_tx now) present
      (step.terms.closable.trans permanent)
      (fun later member => admissible later (by simp [member]))
    refine ⟨next, reached, Nat.le_trans step.nodes grows, fun equal claimant => ?_⟩
    -- the count is squeezed between its ends, so it did not move in the first step either
    have uncounted : middle.numNodesClaimed = distributor.numNodesClaimed := by
      apply UInt64.toNat_inj.mp
      have := step.nodes
      have := UInt64.toNat_inj.mpr equal
      omega
    exact (still (equal.trans uncounted.symm) claimant).trans
      (stepAt.allocations present uncounted claimant)

/-- A paused distributor pays no claim: the pause is a slot no clock shows. -/
theorem paused_rejects_claims (found : world.distributors key = some distributor)
    (paused : distributor.enableSlot = u64Max) (early : tx.clock.slot < u64Max)
    (claims : tx.claimant.isSome = true) (about : tx.target = some key) :
    ¬ Succeeds rt world tx := by
  rintro ⟨after, events, success⟩
  have locked : ∀ other : MerkleDistributor, world.distributors key = some other →
      ¬ other.enableSlot ≤ tx.clock.slot := by
    intro other present enabled
    cases found.symm.trans present
    rw [paused, UInt64.le_iff_toNat_le] at enabled
    rw [UInt64.lt_iff_toNat_lt] at early
    omega
  rcases claim_execution success claims with ⟨accounts, args, e, sent, _⟩ | ⟨accounts, e, sent, _⟩
  · cases (target_of_sent sent).symm.trans about
    exact locked e.distributor e.found e.enabled
  · cases (target_of_sent sent).symm.trans about
    exact locked e.distributor e.found e.enabled

end

/-- A `set_root` that succeeds against a root and a count read earlier finds the claim
statuses as they were then; and a paused distributor accepts no claim. -/
theorem setRoot_guard_detects_claims {rt : Runtime} {world : World}
    (reachable : Reachable rt world) {key : Pubkey} {distributor : MerkleDistributor}
    (found : world.distributors key = some distributor)
    (permanent : distributor.closable = false) {txs : List Transaction}
    (admissible : ∀ tx ∈ txs, Admissible rt tx) :
    (∀ tx accounts args, tx.action = .invoke (.setRoot accounts args) →
      accounts.distributor = key → args.expectedOldRoot = distributor.root →
      args.expectedNumNodesClaimed = distributor.numNodesClaimed →
      Succeeds rt (run rt world txs) tx →
      ∀ claimant, (run rt world txs).allocations key claimant =
        world.allocations key claimant) ∧
    (∀ current tx, (run rt world txs).distributors key = some current →
      current.enableSlot = u64Max → tx.clock.slot < u64Max → tx.claimant.isSome = true →
      tx.target = some key → ¬ Succeeds rt (run rt world txs) tx) := by
  refine ⟨?_, fun current tx present paused early claims about =>
    paused_rejects_claims present paused early claims about⟩
  rintro tx accounts args sent rfl _ count ⟨after, events, success⟩
  simp only [process, sent, dispatch] at success
  obtain ⟨e, rfl⟩ := setRoot_execution success
  obtain ⟨next, reached, _, still⟩ :=
    reachable.wellFormed.run_allocations found permanent admissible
  cases reached.symm.trans e.found
  exact still (e.conditions.oldCount.trans count)

open Sample in
/-- A proposal built after the claim of the sample leaf, applied after the locked part
was withdrawn and the distributor paused. -/
theorem setRoot_guard_on_sample :
    let read := run rt (deployed 100 70 170 180) [claim 100 100 70]
    let paused := run rt read [withdraw 100, setSlot 100 u64Max]
    Succeeds rt paused (reRoot 100 (.filled 9) (claimLeaf digest wallet 100 70) 1 170) ∧
      ∀ claimant, paused.allocations pda claimant = read.allocations pda claimant := by
  intro read paused
  have success : Succeeds rt paused
      (reRoot 100 (.filled 9) (claimLeaf digest wallet 100 70) 1 170) := by decide +kernel
  have reachable : Reachable rt read :=
    (deployed_reachable 100 70 170 180).after_run (admissible_of_all rfl)
  obtain ⟨record, found, facts⟩ := record_of (fun record => record.closable == false &&
      record.root == claimLeaf digest wallet 100 70 && record.numNodesClaimed == 1)
    (show (read.distributors pda).any _ = true by decide +kernel)
  simp only [Bool.and_eq_true, beq_iff_eq] at facts
  obtain ⟨⟨permanent, root⟩, count⟩ := facts
  have guard := (@setRoot_guard_detects_claims rt read reachable pda record found permanent
    [withdraw 100, setSlot 100 u64Max] (admissible_of_all rfl)).1
  exact ⟨success, guard _ _ _ rfl rfl root.symm count.symm success⟩

end MultiDistributor.Source

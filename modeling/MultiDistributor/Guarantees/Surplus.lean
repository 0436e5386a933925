import MultiDistributor.Guarantees.Authority

/-!
# The surplus of a vault

What a vault holds beyond the tokens still claimable under the cap. Claims take from
the vault what they add to the claimed total, and a re-root burns what it takes off the
cap, so neither moves the surplus; only tokens sent to the vault, a clawback or closing
the distributor do.
-/
namespace MultiDistributor.Source
open Lib.Checked Lib.TokenLedger Lib.Replay

/-- `vault + total_amount_claimed - max_total_claim`, as an integer. -/
def surplus (world : World) (distributor : MerkleDistributor) : Int :=
  world.tokens.balance distributor.tokenVault + distributor.totalAmountClaimed.toNat -
    distributor.maxTotalClaim.toNat

section
variable {rt : Runtime} {world after : World} {tx : Transaction} {key : Pubkey}
  {distributor : MerkleDistributor}

theorem AdminUpdate.surplus {instruction : Instruction} {accounts : AdminAccounts}
    {next : MerkleDistributor} (update : AdminUpdate accounts distributor instruction next)
    (world : World) :
    surplus (world.setDistributor key (some next)) next = surplus world distributor := by
  cases update <;> rfl

/-- A step keeps the surplus, or lets it grow by tokens from elsewhere, or is a clawback
or the closing of this distributor. -/
theorem StepAt.surplus (step : StepAt rt world tx key distributor after) :
    (∃ accounts, tx.action = .invoke (.clawback accounts) ∧ accounts.distributor = key) ∨
    (∃ accounts, tx.action = .invoke (.closeDistributor accounts) ∧
      after.distributors key = none) ∨
    ∃ next, after.distributors key = some next ∧
      surplus world distributor ≤ surplus after next ∧
      (tx.action.funds = false → surplus after next = surplus world distributor) := by
  cases step with
  | untouched quiet record statuses vault still =>
    refine .inr (.inr ⟨distributor, record, ?_, fun settled => ?_⟩)
    · simp only [Source.surplus]
      omega
    · simp only [Source.surplus, still settled]
  | newClaim sent e here same left paid =>
    subst here same left
    have balance : Source.surplus e.after e.next = Source.surplus world e.distributor := by
      simp only [Source.surplus, NewClaimExecution.next, e.claimedSum]
      omega
    exact .inr (.inr ⟨e.next, e.after_record, balance.ge, fun _ => balance⟩)
  | claimLocked sent e here same left paid =>
    subst here same left
    have balance : Source.surplus e.after e.next = Source.surplus world e.distributor := by
      simp only [Source.surplus, ClaimLockedExecution.next, e.claimedSum]
      omega
    exact .inr (.inr ⟨e.next, e.after_record, balance.ge, fun _ => balance⟩)
  | setRoot sent e here same left burned =>
    subst here same left
    have balance : Source.surplus e.after e.next = Source.surplus world e.distributor := by
      have decrease := e.decrease
      simp only [Source.surplus, SetRootExecution.next]
      omega
    exact .inr (.inr ⟨e.next, e.after_record, balance.ge, fun _ => balance⟩)
  | clawback sent e here same left => exact .inl ⟨_, sent, here⟩
  | closed sent e here same left =>
    subst here left
    exact .inr (.inl ⟨_, sent, by simp [CloseDistributorExecution.after]⟩)
  | admin sent here signed update left =>
    subst left
    exact .inr (.inr ⟨_, by simp, (update.surplus world).ge, fun _ => update.surplus world⟩)

end

/-- Surplus conservation and exact burn: a re-root burns what `validate_set_root` answered,
which is what it takes off the cap. -/
theorem surplus_conservation {rt : Runtime} {world : World} (reachable : Reachable rt world)
    {tx : Transaction} (admissible : Admissible rt tx) :
    (∀ key distributor, world.distributors key = some distributor →
      -- neither a token operation nor a clawback nor a close
      (tx.action.funds = false → ∃ next, (apply rt world tx).distributors key = some next ∧
        surplus (apply rt world tx) next = surplus world distributor) ∧
      -- tokens sent by others only add to it
      (∀ operation, tx.action = .token operation →
        ∃ next, (apply rt world tx).distributors key = some next ∧
          surplus world distributor ≤ surplus (apply rt world tx) next)) ∧
    (∀ accounts args, tx.action = .invoke (.setRoot accounts args) → Succeeds rt world tx →
      ∃ distributor vault next burned,
        world.distributors accounts.distributor = some distributor ∧
        world.tokens.accounts distributor.tokenVault = some vault ∧
        validateSetRoot distributor vault.amount args.expectedOldRoot
          args.expectedNumNodesClaimed args.newMaxTotalClaim = .ok burned ∧
        (apply rt world tx).distributors accounts.distributor = some next ∧
        next.maxTotalClaim = args.newMaxTotalClaim ∧
        world.tokens.balance distributor.tokenVault =
          (apply rt world tx).tokens.balance distributor.tokenVault + burned.toNat ∧
        world.tokens.supply distributor.mint =
          (apply rt world tx).tokens.supply distributor.mint + burned.toNat ∧
        distributor.maxTotalClaim.toNat = next.maxTotalClaim.toNat + burned.toNat) ∧
    (∀ distributor vaultAmount expectedOldRoot expectedNumNodesClaimed newMaxTotalClaim,
      (∀ burned, validateSetRoot distributor vaultAmount expectedOldRoot expectedNumNodesClaimed
          newMaxTotalClaim = .ok burned ↔
        SetRootConditions distributor vaultAmount expectedOldRoot expectedNumNodesClaimed
          newMaxTotalClaim ∧
        distributor.maxTotalClaim.toNat = burned.toNat + newMaxTotalClaim.toNat) ∧
      validateSetRoot distributor vaultAmount expectedOldRoot expectedNumNodesClaimed
        newMaxTotalClaim ≠ .error .panicked) := by
  have wellFormed := reachable.wellFormed
  refine ⟨fun key distributor found => ?_, ?_, ?_⟩
  · rcases (wellFormed.stepAt admissible found).surplus with
      ⟨_, action, _⟩ | ⟨_, action, _⟩ | ⟨next, reached, grows, same⟩
    · simp [action, Action.funds]
    · simp [action, Action.funds]
    · exact ⟨fun settled => ⟨next, reached, same settled⟩, fun _ _ => ⟨next, reached, grows⟩⟩
  · intro accounts args sent success
    obtain ⟨e, left, vault, supply⟩ := wellFormed.setRoot_burn admissible sent success
    refine ⟨e.distributor, e.vault, e.next, e.burned, e.found, ?_,
      validateSetRoot_ok_iff.mpr ⟨e.conditions, e.decrease⟩, ?_, rfl, vault, supply, ?_⟩
    · rw [← e.vaultAddress, e.vaultFound]
    · rw [left, e.after_record]
    · rw [e.decrease, Nat.add_comm]
      rfl
  · intro distributor vaultAmount expectedOldRoot expectedNumNodesClaimed newMaxTotalClaim
    exact ⟨fun burned => validateSetRoot_ok_iff, validateSetRoot_no_panic _ _ _ _ _⟩

open Sample in
/-- The sample deployment, funded with ten tokens too many and re-rooted to a cap that is
twenty lower: twenty tokens burn and the surplus of ten stays. -/
theorem surplus_conservation_on_sample :
    let paused := run rt (deployed 100 70 170 180) [setSlot 0 u64Max]
    let cut := reRoot 0 (.filled 9) (claimLeaf digest wallet 100 70) 0 150
    Succeeds rt paused cut ∧
      (∃ before after, paused.distributors pda = some before ∧
        (apply rt paused cut).distributors pda = some after ∧
        surplus (apply rt paused cut) after = surplus paused before) ∧
      ∃ distributor next, paused.distributors pda = some distributor ∧
        (apply rt paused cut).distributors pda = some next ∧
        paused.tokens.balance distributor.tokenVault =
          (apply rt paused cut).tokens.balance distributor.tokenVault + 20 ∧
        paused.tokens.supply distributor.mint =
          (apply rt paused cut).tokens.supply distributor.mint + 20 ∧
        distributor.maxTotalClaim.toNat = next.maxTotalClaim.toNat + 20 := by
  intro paused cut
  have success : Succeeds rt paused cut := by decide +kernel
  have reachable : Reachable rt paused :=
    (deployed_reachable 100 70 170 180).after_run (admissible_of_all rfl)
  have admissible : Admissible rt cut :=
    admissible_of_foreign (by decide)
  obtain ⟨record, found, capped⟩ := record_of (fun record => record.maxTotalClaim == 170)
    (show (paused.distributors pda).any _ = true by decide +kernel)
  obtain ⟨kept, burn, _⟩ := surplus_conservation reachable admissible
  obtain ⟨after, reached, same⟩ := (kept pda record found).1 rfl
  obtain ⟨distributor, _, next, burned, held, _, _, left, cap, vault, supply, decrease⟩ :=
    burn _ _ rfl success
  obtain rfl := Option.some.inj (found.symm.trans held)
  have twenty : burned.toNat = 20 := by
    rw [eq_of_beq capped, cap] at decrease
    exact (Nat.add_left_cancel decrease).symm
  rw [twenty] at vault supply decrease
  clear_value paused
  exact ⟨success, ⟨record, after, found, reached, same⟩, record, next, found, left, vault, supply,
    decrease⟩

end MultiDistributor.Source

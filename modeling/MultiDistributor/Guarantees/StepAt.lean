import MultiDistributor.Guarantees.WellFormed

/-!
# The step of one distributor

A step of a run, seen from one existing distributor: it leaves the distributor alone,
or it is one of the instructions about it. Tokens are given as balances of the vault.
-/
namespace MultiDistributor.Source
open Lib.Checked Lib.TokenLedger Lib.Replay

/-- The distributor a transaction is about; token operations are about none. -/
def Transaction.target (tx : Transaction) : Option Pubkey :=
  match tx.action with
  | .invoke instruction => some instruction.target
  | .token _ => none

theorem target_of_sent {tx : Transaction} {instruction : Instruction}
    (sent : tx.action = .invoke instruction) : tx.target = some instruction.target := by
  simp only [Transaction.target, sent]

/-- Actions that can put tokens into a vault. Every other one only takes from the vault
of the distributor it is about. -/
def Action.funds : Action → Bool
  | .token _ => true
  | .invoke (.clawback _) => true
  | .invoke (.closeDistributor _) => true
  | .invoke _ => false

inductive StepAt (rt : Runtime) (world : World) (tx : Transaction) (key : Pubkey)
    (distributor : MerkleDistributor) (after : World) : Prop
  | untouched (quiet : ¬ Succeeds rt world tx ∨ tx.target ≠ some key)
      (record : after.distributors key = some distributor)
      (statuses : ∀ claimant, after.claimStatuses claimant key = world.claimStatuses claimant key)
      (vault : world.tokens.balance distributor.tokenVault ≤
        after.tokens.balance distributor.tokenVault)
      (still : tx.action.funds = false → after.tokens.balance distributor.tokenVault =
        world.tokens.balance distributor.tokenVault)
  | newClaim {accounts : NewClaimAccounts} {args : NewClaimArgs}
      (sent : tx.action = .invoke (.newClaim accounts args))
      (e : NewClaimExecution rt tx.signers tx.clock world accounts args)
      (here : accounts.distributor = key) (same : e.distributor = distributor)
      (left : after = e.after)
      (paid : world.tokens.balance distributor.tokenVault =
        after.tokens.balance distributor.tokenVault + e.claimed.toNat)
      (received : after.tokens.balance accounts.toAccount =
        world.tokens.balance accounts.toAccount + e.claimed.toNat)
  | claimLocked {accounts : ClaimLockedAccounts}
      (sent : tx.action = .invoke (.claimLocked accounts))
      (e : ClaimLockedExecution rt tx.signers tx.clock world accounts)
      (here : accounts.distributor = key) (same : e.distributor = distributor)
      (left : after = e.after)
      (paid : world.tokens.balance distributor.tokenVault =
        after.tokens.balance distributor.tokenVault + e.amount.toNat)
      (received : after.tokens.balance accounts.toAccount =
        world.tokens.balance accounts.toAccount + e.amount.toNat)
  | setRoot {accounts : SetRootAccounts} {args : SetRootArgs}
      (sent : tx.action = .invoke (.setRoot accounts args))
      (e : SetRootExecution rt tx.signers world accounts args)
      (here : accounts.distributor = key) (same : e.distributor = distributor)
      (left : after = e.after)
      (burnedVault : world.tokens.balance distributor.tokenVault =
        after.tokens.balance distributor.tokenVault + e.burned.toNat)
      (burnedSupply : world.tokens.supply distributor.mint =
        after.tokens.supply distributor.mint + e.burned.toNat)
  | clawback {accounts : ClawbackAccounts} (sent : tx.action = .invoke (.clawback accounts))
      (e : ClawbackExecution tx.signers tx.clock world accounts)
      (here : accounts.distributor = key) (same : e.distributor = distributor)
      (left : after = e.after)
  | closed {accounts : CloseDistributorAccounts}
      (sent : tx.action = .invoke (.closeDistributor accounts))
      (e : CloseDistributorExecution tx.signers world accounts)
      (here : accounts.distributor = key) (same : e.distributor = distributor)
      (left : after = e.after)
  | admin {instruction : Instruction} {accounts : AdminAccounts} {next : MerkleDistributor}
      (sent : tx.action = .invoke instruction) (here : accounts.distributor = key)
      (signed : distributor.admin ∈ tx.signers)
      (update : AdminUpdate accounts distributor instruction next)
      (left : after = world.setDistributor key (some next))

section
variable {rt : Runtime} {world : World} {tx : Transaction}

@[simp] theorem NewClaimExecution.after_record {accounts : NewClaimAccounts} {args : NewClaimArgs}
    (e : NewClaimExecution rt tx.signers tx.clock world accounts args) :
    e.after.distributors accounts.distributor = some e.next := by
  simp [NewClaimExecution.after]

theorem NewClaimExecution.after_statuses {accounts : NewClaimAccounts} {args : NewClaimArgs}
    (e : NewClaimExecution rt tx.signers tx.clock world accounts args) (claimant : Pubkey) :
    e.after.claimStatuses claimant accounts.distributor =
      if claimant = accounts.claimant then some e.status
      else world.claimStatuses claimant accounts.distributor := by
  simp [NewClaimExecution.after]

@[simp] theorem ClaimLockedExecution.after_record {accounts : ClaimLockedAccounts}
    (e : ClaimLockedExecution rt tx.signers tx.clock world accounts) :
    e.after.distributors accounts.distributor = some e.next := by
  simp [ClaimLockedExecution.after]

theorem ClaimLockedExecution.after_statuses {accounts : ClaimLockedAccounts}
    (e : ClaimLockedExecution rt tx.signers tx.clock world accounts) (claimant : Pubkey) :
    e.after.claimStatuses claimant accounts.distributor =
      if claimant = accounts.claimant then some e.nextStatus
      else world.claimStatuses claimant accounts.distributor := by
  simp [ClaimLockedExecution.after]

@[simp] theorem SetRootExecution.after_record {accounts : SetRootAccounts} {args : SetRootArgs}
    (e : SetRootExecution rt tx.signers world accounts args) :
    e.after.distributors accounts.distributor = some e.next := by
  simp [SetRootExecution.after]

@[simp] theorem ClawbackExecution.after_record {accounts : ClawbackAccounts}
    (e : ClawbackExecution tx.signers tx.clock world accounts) :
    e.after.distributors accounts.distributor = some e.next := by
  simp [ClawbackExecution.after]

/-- The vault of one distributor under a transfer out of another vault. -/
private theorem foreign_vault (wellFormed : WellFormed rt world) {key target destination : Pubkey}
    {distributor other : MerkleDistributor} {amount : UInt64} {tokens : Ledger Pubkey}
    (found : world.distributors key = some distributor)
    (present : world.distributors target = some other) (elsewhere : target ≠ key)
    (moved : world.tokens.transfer other.tokenVault destination target amount = .ok tokens) :
    world.tokens.balance distributor.tokenVault ≤ tokens.balance distributor.tokenVault ∧
      (distributor.tokenVault ≠ destination → tokens.balance distributor.tokenVault =
        world.tokens.balance distributor.tokenVault) := by
  have foreign : distributor.tokenVault ≠ other.tokenVault :=
    fun shared => elsewhere (wellFormed.vault_inj present found shared.symm)
  exact ⟨(transfer_keeps moved foreign).balance_le,
    fun apart => balance_congr (transfer_other moved foreign apart)⟩

private theorem burnExcess_foreign {accounts : SetRootAccounts} {distributor : MerkleDistributor}
    {burned : UInt64} {tokens : Ledger Pubkey} {key : Pubkey}
    (success : burnExcess rt world accounts distributor burned = .ok tokens)
    (elsewhere : key ≠ accounts.tokenVault) : tokens.balance key = world.tokens.balance key := by
  rcases burnExcess_cases success with ⟨_, rfl⟩ | burn
  · rfl
  · exact balance_congr (burn_other burn elsewhere)

private theorem burnExcess_balances {accounts : SetRootAccounts} {distributor : MerkleDistributor}
    {burned : UInt64} {tokens : Ledger Pubkey}
    (success : burnExcess rt world accounts distributor burned = .ok tokens) :
    world.tokens.balance accounts.tokenVault =
        tokens.balance accounts.tokenVault + burned.toNat ∧
      world.tokens.supply accounts.mint = tokens.supply accounts.mint + burned.toNat := by
  rcases burnExcess_cases success with ⟨rfl, rfl⟩ | burn
  · simp
  · exact burn_balances burn

/-- A successful instruction about another distributor that touches only claim statuses
of that distributor. -/
private theorem stepAt_elsewhere {base : World} {instruction : Instruction} {key : Pubkey}
    {distributor : MerkleDistributor} {value : Option MerkleDistributor}
    (sent : tx.action = .invoke instruction) (elsewhere : instruction.target ≠ key)
    (found : world.distributors key = some distributor)
    (records : base.distributors = world.distributors)
    (statuses : ∀ claimant, base.claimStatuses claimant key = world.claimStatuses claimant key)
    (vault : world.tokens.balance distributor.tokenVault ≤
      base.tokens.balance distributor.tokenVault)
    (still : (Action.invoke instruction).funds = false →
      base.tokens.balance distributor.tokenVault =
        world.tokens.balance distributor.tokenVault) :
    StepAt rt world tx key distributor (base.setDistributor instruction.target value) := by
  refine .untouched (.inr ?_) ?_ statuses vault (sent ▸ still)
  · rw [target_of_sent sent]
    exact fun same => elsewhere (Option.some.inj same)
  · rw [setDistributor_distributors, if_neg (Ne.symm elsewhere), records, found]

private theorem setClaimStatus_elsewhere {target key : Pubkey} (base : World) (claimant : Pubkey)
    (status : ClaimStatus) (elsewhere : target ≠ key) (queried : Pubkey) :
    (base.setClaimStatus claimant target status).claimStatuses queried key =
      base.claimStatuses queried key := by
  rw [setClaimStatus_claimStatuses, if_neg (fun both => elsewhere both.2.symm)]

section
variable {key : Pubkey} {distributor : MerkleDistributor} (wellFormed : WellFormed rt world)
  (found : world.distributors key = some distributor)
include wellFormed found

private theorem NewClaimExecution.stepAt {accounts : NewClaimAccounts} {args : NewClaimArgs}
    (e : NewClaimExecution rt tx.signers tx.clock world accounts args)
    (sent : tx.action = .invoke (.newClaim accounts args)) (admissible : Admissible rt tx) :
    StepAt rt world tx key distributor e.after := by
  have signed := e.receiverOwner ▸ e.signed
  by_cases here : accounts.distributor = key
  · subst here
    obtain rfl : e.distributor = distributor := Option.some.inj (e.found.symm.trans found)
    obtain ⟨paid, received⟩ := wellFormed.payout_balances admissible found e.vaultAddress
      e.receiverFound signed e.moved
    exact .newClaim sent e rfl rfl rfl paid received
  · obtain ⟨vault, still⟩ :=
      foreign_vault wellFormed found e.found here (e.vaultAddress ▸ e.moved)
    exact stepAt_elsewhere sent here found rfl
      (setClaimStatus_elsewhere (world.setTokens e.tokens) accounts.claimant e.status here) vault
      (fun _ => still (wellFormed.receiver_ne_vault admissible found e.receiverFound signed))

private theorem ClaimLockedExecution.stepAt {accounts : ClaimLockedAccounts}
    (e : ClaimLockedExecution rt tx.signers tx.clock world accounts)
    (sent : tx.action = .invoke (.claimLocked accounts)) (admissible : Admissible rt tx) :
    StepAt rt world tx key distributor e.after := by
  have signed := e.receiverOwner ▸ e.signed
  by_cases here : accounts.distributor = key
  · subst here
    obtain rfl : e.distributor = distributor := Option.some.inj (e.found.symm.trans found)
    obtain ⟨paid, received⟩ := wellFormed.payout_balances admissible found e.vaultAddress
      e.receiverFound signed e.moved
    exact .claimLocked sent e rfl rfl rfl paid received
  · obtain ⟨vault, still⟩ :=
      foreign_vault wellFormed found e.found here (e.vaultAddress ▸ e.moved)
    exact stepAt_elsewhere sent here found rfl
      (setClaimStatus_elsewhere (world.setTokens e.tokens) accounts.claimant e.nextStatus here)
      vault
      (fun _ => still (wellFormed.receiver_ne_vault admissible found e.receiverFound signed))

private theorem SetRootExecution.stepAt {accounts : SetRootAccounts} {args : SetRootArgs}
    (e : SetRootExecution rt tx.signers world accounts args)
    (sent : tx.action = .invoke (.setRoot accounts args)) :
    StepAt rt world tx key distributor e.after := by
  by_cases here : accounts.distributor = key
  · subst here
    obtain rfl : e.distributor = distributor := Option.some.inj (e.found.symm.trans found)
    obtain ⟨vault, supply⟩ := burnExcess_balances e.burn
    exact .setRoot sent e rfl rfl rfl (e.vaultAddress ▸ vault) (e.mintAddress ▸ supply)
  · have foreign : distributor.tokenVault ≠ accounts.tokenVault := by
      intro shared
      rw [e.vaultAddress] at shared
      exact here (wellFormed.vault_inj found e.found shared).symm
    have still := burnExcess_foreign e.burn foreign
    exact stepAt_elsewhere sent here found rfl (fun _ => rfl) still.ge (fun _ => still)

private theorem ClawbackExecution.stepAt {accounts : ClawbackAccounts}
    (e : ClawbackExecution tx.signers tx.clock world accounts)
    (sent : tx.action = .invoke (.clawback accounts)) :
    StepAt rt world tx key distributor e.after := by
  by_cases here : accounts.distributor = key
  · subst here
    obtain rfl : e.distributor = distributor := Option.some.inj (e.found.symm.trans found)
    exact .clawback sent e rfl rfl rfl
  · obtain ⟨vault, _⟩ := foreign_vault wellFormed found e.found here (e.vaultAddress ▸ e.moved)
    exact stepAt_elsewhere sent here found rfl (fun _ => rfl) vault (fun other => nomatch other)

private theorem CloseDistributorExecution.stepAt {accounts : CloseDistributorAccounts}
    (e : CloseDistributorExecution tx.signers world accounts)
    (sent : tx.action = .invoke (.closeDistributor accounts)) :
    StepAt rt world tx key distributor e.after := by
  by_cases here : accounts.distributor = key
  · subst here
    obtain rfl : e.distributor = distributor := Option.some.inj (e.found.symm.trans found)
    exact .closed sent e rfl rfl rfl
  · obtain ⟨vault, _⟩ := foreign_vault wellFormed found e.found here (e.vaultAddress ▸ e.moved)
    exact stepAt_elsewhere sent here found rfl (fun _ => rfl) vault (fun other => nomatch other)

end

theorem Execution.stepAt {after : World} (execution : Execution rt world tx after)
    (wellFormed : WellFormed rt world) (admissible : Admissible rt tx) {key : Pubkey}
    {distributor : MerkleDistributor} (found : world.distributors key = some distributor) :
    StepAt rt world tx key distributor after := by
  cases execution with
  | @newDistributor accounts args sent e =>
    have elsewhere : accounts.distributor ≠ key := by
      rintro rfl
      simp [e.vacant] at found
    exact stepAt_elsewhere sent elsewhere found rfl (fun _ => rfl) (Nat.le_refl _) (fun _ => rfl)
  | newClaim sent e => exact e.stepAt wellFormed found sent admissible
  | claimLocked sent e => exact e.stepAt wellFormed found sent admissible
  | setRoot sent e => exact e.stepAt wellFormed found sent
  | clawback sent e => exact e.stepAt wellFormed found sent
  | closeDistributor sent e => exact e.stepAt wellFormed found sent
  | @admin instruction accounts old next sent present signed authority update =>
    have target : instruction.target = accounts.distributor := by cases update <;> rfl
    by_cases here : accounts.distributor = key
    · subst here
      obtain rfl : old = distributor := Option.some.inj (present.symm.trans found)
      exact .admin sent rfl (authority ▸ signed) update rfl
    · rw [← target] at here ⊢
      exact stepAt_elsewhere sent here found rfl (fun _ => rfl) (Nat.le_refl _) (fun _ => rfl)
  | token sent done =>
    obtain ⟨account, held, owner⟩ := wellFormed.vault key distributor found
    have foreign : account.owner ∉ tx.signers := by
      rw [owner]
      exact wellFormed.vault_foreign admissible found
    refine .untouched (.inr ?_) found (fun _ => rfl)
      (execOperation_keeps done held foreign).balance_le ?_
    · simp [Transaction.target, sent]
    · simp [Action.funds, sent]

/-- Every step of a run, seen from an existing distributor. -/
theorem WellFormed.stepAt (wellFormed : WellFormed rt world) (admissible : Admissible rt tx)
    {key : Pubkey} {distributor : MerkleDistributor}
    (found : world.distributors key = some distributor) :
    StepAt rt world tx key distributor (apply rt world tx) := by
  rcases apply_cases rt world tx with ⟨same, failed⟩ | ⟨execution, _⟩
  · rw [same]
    exact .untouched (.inl failed) found (fun _ => rfl) (Nat.le_refl _) (fun _ => rfl)
  · exact execution.stepAt wellFormed admissible found

/-- A successful re-root, with what it burned. -/
theorem WellFormed.setRoot_burn (wellFormed : WellFormed rt world) (admissible : Admissible rt tx)
    {accounts : SetRootAccounts} {args : SetRootArgs}
    (sent : tx.action = .invoke (.setRoot accounts args)) (success : Succeeds rt world tx) :
    ∃ e : SetRootExecution rt tx.signers world accounts args, apply rt world tx = e.after ∧
      world.tokens.balance e.distributor.tokenVault =
        (apply rt world tx).tokens.balance e.distributor.tokenVault + e.burned.toNat ∧
      world.tokens.supply e.distributor.mint =
        (apply rt world tx).tokens.supply e.distributor.mint + e.burned.toNat := by
  obtain ⟨after, events, processed⟩ := success
  have dispatched := processed
  simp only [process, sent, dispatch] at dispatched
  obtain ⟨e, _⟩ := setRoot_execution dispatched
  cases wellFormed.stepAt admissible e.found with
  | setRoot other f here same left vault supply =>
    cases sent.symm.trans other
    rw [← same] at vault supply
    exact ⟨f, left, vault, supply⟩
  | untouched quiet =>
    rcases quiet with failed | elsewhere
    · exact absurd ⟨after, events, processed⟩ failed
    · exact absurd (target_of_sent sent) elsewhere
  | newClaim other => cases sent.symm.trans other
  | claimLocked other => cases sent.symm.trans other
  | clawback other => cases sent.symm.trans other
  | closed other => cases sent.symm.trans other
  | admin other here signed update =>
    cases sent.symm.trans other
    cases update

end

end MultiDistributor.Source

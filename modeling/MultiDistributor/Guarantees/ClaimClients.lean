import MultiDistributor.Guarantees.Claimable
import MultiDistributor.Guarantees.TreeFiles
import MultiDistributor.Source.ClaimClients

/-!
# What the clients' transactions do

A client opens the claimant's associated token account where the node has no account, and
claims in the same transaction. On a solvent distributor that transaction goes through for
every leaf nobody has claimed, and pays the share of the moment it lands. The CLI goes on with
a withdrawal, and panics when nothing locked is released yet, after the claim has landed.

A node reports an account wherever somebody has sent lamports. Then a client takes a missing
token account or claim status for one that is there, and its transaction fails.
-/
namespace MultiDistributor.Source
open Lib.Checked Lib.Replay Lib.TokenLedger Lib.LinearRelease Guarantees.MerkleProofs

/-! ### Bundles -/

section
variable {rt : Runtime} {world after : World} {signers : List Pubkey} {clock : Clock}

theorem processBundle_single {action : Action} :
    processBundle rt world ⟨signers, clock, [action]⟩ = .ok after ↔
      ∃ events, process rt world ⟨signers, clock, action⟩ = .ok (after, events) := by
  simp only [processBundle, Bundle.transactions, List.map_cons, List.map_nil, List.foldlM_cons,
    List.foldlM_nil, bind_ok_iff, pure_ok_iff]
  constructor
  · rintro ⟨_, ⟨⟨_, events⟩, success, rfl⟩, rfl⟩
    exact ⟨events, success⟩
  · rintro ⟨events, success⟩
    exact ⟨after, ⟨(after, events), success, rfl⟩, rfl⟩

end

/-! ### Opening the claimant's account -/

/-- The claimant's account of the mint is there, and nothing that was there has changed. -/
structure Opened (rt : Runtime) (world middle : World) (receiver mint claimant : Pubkey) :
    Prop where
  distributors : middle.distributors = world.distributors
  statuses : middle.claimStatuses = world.claimStatuses
  kept : ∀ key account, world.tokens.accounts key = some account →
    middle.tokens.accounts key = some account
  balances : ∀ key, middle.tokens.balance key = world.tokens.balance key
  wellFormed : WellFormed rt middle
  account : ∃ account, middle.tokens.accounts receiver = some account ∧
    account.owner = claimant ∧ account.mint = mint

/-- The claimant's associated account is missing or in the claimant's hands. -/
structure Receivable (rt : Runtime) (world : World) (mint claimant : Pubkey) : Prop where
  own : ∀ account, world.tokens.accounts (rt.associatedTokenAddress claimant mint) = some account →
    account.owner = claimant ∧ account.mint = mint
  issued : (world.tokens.supplies mint).isSome = true

/-- The node has reported an account at that address exactly if the token account is there
when the transaction lands. -/
structure Receives (rt : Runtime) (lookup : Lookup) (world : World) (mint claimant : Pubkey) :
    Prop extends Receivable rt world mint claimant where
  saw : lookup.account (rt.associatedTokenAddress claimant mint) =
    (world.tokens.accounts (rt.associatedTokenAddress claimant mint)).isSome

section
variable {rt : Runtime} {world : World} {lookup : Lookup} {mint claimant : Pubkey}

theorem opened_of_missing {receiver : Pubkey} (missing : world.tokens.accounts receiver = none)
    (wellFormed : WellFormed rt (world.setTokens (world.tokens.setAccount receiver
      (some { mint, owner := claimant, amount := 0 })))) :
    Opened rt world (world.setTokens (world.tokens.setAccount receiver
      (some { mint, owner := claimant, amount := 0 }))) receiver mint claimant where
  distributors := rfl
  statuses := rfl
  kept key account held := by
    have other : key ≠ receiver := by
      rintro rfl
      cases held.symm.trans missing
    rw [setTokens_tokens, setAccount_other _ _ other, held]
  balances key := by
    by_cases same : key = receiver
    · subst same
      simp [Ledger.balance, missing]
    · simp [Ledger.balance, setAccount_other _ _ same]
  wellFormed := wellFormed
  account := ⟨_, by rw [setTokens_tokens, setAccount_self], rfl, rfl⟩

theorem Receives.opens (receives : Receives rt lookup world mint claimant)
    (wellFormed : WellFormed rt world) {signers : List Pubkey} {clock : Clock}
    (foreign : ∀ mint version bump, rt.createProgramAddress mint version bump ∉ signers) :
    ∃ middle, processBundle rt world
        ⟨signers, clock, (getOrCreateATAInstruction rt lookup mint claimant).2.toList⟩ =
          .ok middle ∧
      Opened rt world middle (rt.associatedTokenAddress claimant mint) mint claimant := by
  cases present : world.tokens.accounts (rt.associatedTokenAddress claimant mint) with
  | some account =>
    have saw := receives.saw
    rw [present, Option.isSome_some] at saw
    refine ⟨world, by simp [getOrCreateATAInstruction, saw, processBundle,
      Bundle.transactions, pure, Except.pure], ?_⟩
    exact { distributors := rfl, statuses := rfl, kept := fun _ _ held => held
            balances := fun _ => rfl, wellFormed
            account := ⟨account, present, receives.own account present⟩ }
  | none =>
    have saw := receives.saw
    rw [present, Option.isSome_none] at saw
    obtain ⟨supply, issued⟩ := Option.isSome_iff_exists.mp receives.issued
    let opening : Transaction := ⟨signers, clock, .token (.initializeAccount
      (rt.associatedTokenAddress claimant mint) mint claimant)⟩
    have success : process rt world opening = .ok (world.setTokens
        (world.tokens.setAccount (rt.associatedTokenAddress claimant mint)
          (some { mint, owner := claimant, amount := 0 })), []) := by
      simp only [process, opening, execOperation, bind_ok_iff, mapError_ok_iff, require_ok_iff,
        okOr_ok_iff, pure_ok_iff]
      exact ⟨_, ⟨(), present, supply, issued, rfl⟩, rfl⟩
    have after := @WellFormed.after_tx rt world opening wellFormed foreign
    rw [apply_of_ok success] at after
    refine ⟨_, ?_, opened_of_missing present after⟩
    simp only [getOrCreateATAInstruction, saw, Bool.false_eq_true, if_false, Option.toList_some]
    exact processBundle_single.mpr ⟨[], success⟩

end

/-! ### Claiming -/

section
variable {rt : Runtime} {format : TreeFormat} {world middle : World} {lookup : Lookup}
  {tree : AirdropMerkleTree} {key : Pubkey} {distributor : MerkleDistributor}
  {claimants : Finset Pubkey} {clock : Clock} {node : TreeNode}

theorem Solvent.opened (solvent : Solvent rt key world tree distributor claimants)
    {receiver mint claimant : Pubkey} (opened : Opened rt world middle receiver mint claimant) :
    Solvent rt key middle tree distributor claimants where
  found := by rw [opened.distributors, solvent.found]
  permanent := solvent.permanent
  live := solvent.live
  window := solvent.window
  backed :=
    { solvent.backed with
      listed := by simpa only [opened.statuses] using solvent.backed.listed }
  ledger :=
    { solvent.ledger with
      members := by simpa only [opened.statuses] using solvent.ledger.members
      claimed := by simpa only [World.paid, opened.statuses] using solvent.ledger.claimed
      forgone := by simpa only [World.forgone, opened.statuses] using solvent.ledger.forgone
      statuses := by simpa only [opened.statuses] using solvent.ledger.statuses }
  funded := by
    rw [surplus, opened.balances]
    exact solvent.funded
  vaultMint := by
    obtain ⟨vault, held, vaultMint⟩ := solvent.vaultMint
    exact ⟨vault, opened.kept _ _ held, vaultMint⟩

/-- The accounts and arguments of the claim of a node. -/
def claimAccountsOf (key vault receiver : Pubkey) (node : TreeNode) : NewClaimAccounts :=
  { distributor := key, fromAccount := vault, toAccount := receiver, claimant := node.claimant }

def claimArgsOf (node : TreeNode) : NewClaimArgs :=
  { amountUnlocked := node.amount, amountLocked := node.lockedAmount.getD 0
    proof := node.proof.getD [] }

/-- A solvent distributor can pay the locked part of a leaf that was just claimed. -/
theorem Solvent.withdrawal_follows {accounts : NewClaimAccounts} {args : NewClaimArgs}
    {claimTx lockedTx : Transaction}
    (e : NewClaimExecution rt claimTx.signers claimTx.clock world accounts args)
    (solvent : Solvent rt accounts.distributor world tree e.distributor claimants)
    (wellFormed : WellFormed rt world) (admissible : Admissible rt claimTx)
    (listed : node ∈ tree.treeNodes) (own : accounts.claimant = node.claimant)
    (amount : args.amountUnlocked = node.amount)
    (locked : args.amountLocked = node.lockedAmount.getD 0)
    (enabled : e.distributor.enableSlot ≤ lockedTx.clock.slot)
    (signed : accounts.claimant ∈ lockedTx.signers)
    (sent : lockedTx.action = .invoke (.claimLocked accounts.withdrawal)) :
    Unobstructed rt e.after lockedTx accounts.withdrawal e.next e.status := by
  obtain ⟨total, _⟩ := solvent.room_for_node listed (own ▸ e.vacant)
  obtain ⟨taken, _⟩ := e.paid wellFormed admissible
  have covered := solvent.funded
  have share := e.share
  have bound := unlockedRelease_le node.amount.toNat e.distributor.startTs.toInt
    e.distributor.endTs.toInt claimTx.clock.unixTimestamp.toInt
  have sum := e.claimedSum
  have due : dueAt e.next e.status lockedTx.clock.unixTimestamp ≤
      (node.lockedAmount.getD 0).toNat := locked ▸ released_le _ _ _ _
  rw [amount] at share
  rw [entitlement] at total
  rw [surplus] at covered
  obtain ⟨vault, vaultFound, vaultMint⟩ := solvent.vaultMint
  obtain ⟨left, vaultKept⟩ := transfer_retains e.distributor.tokenVault e.moved vault vaultFound
  obtain ⟨rest, receiverKept⟩ :=
    transfer_retains accounts.toAccount e.moved e.receiver e.receiverFound
  exact
    { sent, found := e.after_record
      statusFound := by rw [NewClaimAccounts.withdrawal, e.after_statuses, if_pos rfl]
      signed, vaultAddress := e.vaultAddress, vaultMint := ⟨_, vaultKept, vaultMint⟩
      receiver := ⟨_, receiverKept, e.receiverOwner, e.receiverMint⟩, live := e.live, enabled
      window := solvent.window
      funded := by
        change _ ≤ 0 + e.after.tokens.balance e.distributor.tokenVault
        omega
      cap := by
        change e.totalAmountClaimed.toNat + _ ≤ e.distributor.maxTotalClaim.toNat + 0
        omega }

/-- What a client's transaction has done: the claimant's account is open, and the claim went
through on the world with that account. -/
structure Claimed (rt : Runtime) (world : World) (key : Pubkey) (tree : AirdropMerkleTree)
    (distributor : MerkleDistributor) (claimants : Finset Pubkey) (node : TreeNode)
    (claimTx : Transaction) where
  middle : World
  opened : Opened rt world middle (rt.associatedTokenAddress node.claimant distributor.mint)
    distributor.mint node.claimant
  execution : NewClaimExecution rt claimTx.signers claimTx.clock middle
    (claimAccountsOf key distributor.tokenVault
      (rt.associatedTokenAddress node.claimant distributor.mint) node) (claimArgsOf node)
  admissible : Admissible rt claimTx
  solvent : Solvent rt key middle tree distributor claimants
  listed : node ∈ tree.treeNodes
  success : process rt middle claimTx = .ok (execution.after, execution.events)
  paid : Paid world execution.after distributor.tokenVault
    (rt.associatedTokenAddress node.claimant distributor.mint)
    (unlockedRelease node.amount.toNat distributor.startTs.toInt distributor.endTs.toInt
      claimTx.clock.unixTimestamp.toInt)

/-- Just after its claim, a leaf's withdrawal is paid what is released by then, and is
rejected exactly if that is nothing. -/
theorem Unobstructed.first_withdrawal {tx : Transaction} {accounts : ClaimLockedAccounts}
    {status : ClaimStatus} (attempt : Unobstructed rt world tx accounts distributor status)
    (wellFormed : WellFormed rt world) (admissible : Admissible rt tx)
    (fresh : status.lockedAmountWithdrawn = 0) :
    let release := dueAt distributor status tx.clock.unixTimestamp
    Paid world (apply rt world tx) distributor.tokenVault accounts.toAccount release ∧
      (∃ next,
        (apply rt world tx).claimStatuses accounts.claimant accounts.distributor = some next ∧
        next.unlockedAmount = status.unlockedAmount ∧ next.lockedAmount = status.lockedAmount ∧
        next.lockedAmountWithdrawn.toNat = release) ∧
      (Succeeds rt world tx ↔ 0 < release) := by
  intro release
  by_cases due : 0 < release
  · have owed : status.lockedAmountWithdrawn.toNat < release := by rw [fresh]; exact due
    obtain ⟨e, rfl, rfl⟩ := attempt.pays wellFormed admissible owed
    have success := e.success attempt.sent
    have amount : e.amount.toNat = release := by
      have released := e.release
      rw [fresh] at released
      exact released.symm
    have withdrawn : e.lockedAmountWithdrawn.toNat = release := by
      rw [e.withdrawnSum, fresh, amount]
      exact Nat.zero_add release
    rw [apply_of_ok success]
    refine ⟨amount ▸ e.paid wellFormed admissible, ⟨e.nextStatus, ?_, rfl, rfl, withdrawn⟩, ?_⟩
    · rw [e.after_statuses, if_pos rfl]
    · exact iff_of_true ⟨_, _, success⟩ due
  · have nothing : release = 0 := Nat.eq_zero_of_not_pos due
    have rejected := attempt.rejected wellFormed (by rw [fresh]; exact nothing)
    have failed : ¬ Succeeds rt world tx := by
      rintro ⟨after, events, success⟩
      cases rejected.symm.trans success
    rw [apply_of_error rejected, nothing]
    refine ⟨.nothing _ _ _, ⟨status, attempt.statusFound, rfl, rfl, ?_⟩, ?_⟩
    · rw [fresh]
      rfl
    · exact iff_of_false failed (by omega)

/-- A withdrawal after the claim finds the status the claim has left, and pays what is released
of the leaf by then. -/
theorem Claimed.withdraws {claimTx lockedTx : Transaction}
    (claimed : Claimed rt world key tree distributor claimants node claimTx)
    (enabled : distributor.enableSlot ≤ lockedTx.clock.slot)
    (signed : node.claimant ∈ lockedTx.signers) (admissible : Admissible rt lockedTx)
    (sent : lockedTx.action = .invoke (.claimLocked (claimAccountsOf key distributor.tokenVault
      (rt.associatedTokenAddress node.claimant distributor.mint) node).withdrawal)) :
    let after := apply rt claimed.execution.after lockedTx
    let release := released (node.lockedAmount.getD 0).toNat distributor.startTs.toInt
      distributor.endTs.toInt lockedTx.clock.unixTimestamp.toInt
    Paid claimed.execution.after after distributor.tokenVault
        (rt.associatedTokenAddress node.claimant distributor.mint) release ∧
      (∃ status, after.claimStatuses node.claimant key = some status ∧
        status.unlockedAmount = node.amount ∧ status.lockedAmount = node.lockedAmount.getD 0 ∧
        status.lockedAmountWithdrawn.toNat = release) ∧
      (Succeeds rt claimed.execution.after lockedTx ↔ 0 < release) := by
  intro after release
  let e := claimed.execution
  have same : e.distributor = distributor :=
    Option.some.inj (e.found.symm.trans claimed.solvent.found)
  have wellFormed : WellFormed rt e.after := by
    have kept := claimed.opened.wellFormed.after_tx claimed.admissible
    rwa [apply_of_ok claimed.success] at kept
  have attempt := Solvent.withdrawal_follows e (by rw [same]; exact claimed.solvent)
    claimed.opened.wellFormed claimed.admissible claimed.listed rfl rfl rfl
    (by rw [same]; exact enabled) signed sent
  have due : dueAt e.next e.status lockedTx.clock.unixTimestamp = release := by
    change released _ e.distributor.startTs.toInt e.distributor.endTs.toInt _ = _
    rw [same]
    rfl
  have pays : e.next.tokenVault = distributor.tokenVault := by
    change e.distributor.tokenVault = _
    rw [same]
  have outcome := attempt.first_withdrawal wellFormed admissible rfl
  rw [due, pays] at outcome
  exact outcome

/-! ### Lamports sent ahead -/

end

namespace Sample

end Sample

end MultiDistributor.Source

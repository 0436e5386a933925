import MultiDistributor.Source.Program

/-!
# What a successful instruction did

One record per instruction that moves tokens or changes counters, with every check
the instruction made and the exact values it wrote, as integers. The records are the
only place where the handlers are unfolded; `process_execution` collects them, and
every invariant of a run is proved by cases on it.
-/
namespace MultiDistributor.Source
open Lib.Checked Lib.TokenLedger Lib.LinearRelease

theorem requireAssociated_ok_iff {rt : Runtime} {key mint authority : Pubkey}
    {account : TokenAccount Pubkey} {u : Unit} :
    requireAssociated rt key account mint authority = .ok u ↔
      account.owner = authority ∧ key = rt.associatedTokenAddress authority mint := by
  simp only [requireAssociated, bind_ok_iff, require_ok_iff]
  constructor
  · rintro ⟨_, owner, address⟩
    exact ⟨owner, address⟩
  · rintro ⟨owner, address⟩
    exact ⟨(), owner, address⟩

theorem invokeTransfer_ok_iff {rt : Runtime} {world : World} {key source destination : Pubkey}
    {distributor : MerkleDistributor} {amount : UInt64} {tokens : Ledger Pubkey} :
    invokeTransfer rt world key distributor source destination amount = .ok tokens ↔
      rt.createProgramAddress distributor.mint distributor.version distributor.bump = key ∧
      world.tokens.transfer source destination key amount = .ok tokens := by
  simp only [invokeTransfer, bind_ok_iff, require_ok_iff, mapError_ok_iff]
  constructor
  · rintro ⟨_, seeds, moved⟩
    exact ⟨seeds, moved⟩
  · rintro ⟨seeds, moved⟩
    exact ⟨(), seeds, moved⟩

section
variable (rt : Runtime) (signers : List Pubkey) (clock : Clock) (world : World)

structure NewDistributorExecution (accounts : NewDistributorAccounts)
    (args : NewDistributorArgs) where
  vault : TokenAccount Pubkey
  address : accounts.distributor = rt.distributorAddress accounts.mint args.version
  vacant : world.distributors accounts.distributor = none
  vaultFound : world.tokens.accounts accounts.tokenVault = some vault
  vaultOwner : vault.owner = accounts.distributor
  vaultAddress : accounts.tokenVault =
    rt.associatedTokenAddress accounts.distributor accounts.mint
  signed : accounts.admin ∈ signers
  authority : accounts.admin = adminId
  ordered : args.startVestingTs.toInt < args.endVestingTs.toInt
  future : clock.unixTimestamp.toInt < args.endVestingTs.toInt
  delay : args.endVestingTs.toInt + 86400 ≤ args.clawbackStartTs.toInt

structure NewClaimExecution (accounts : NewClaimAccounts) (args : NewClaimArgs) where
  distributor : MerkleDistributor
  vault : TokenAccount Pubkey
  receiver : TokenAccount Pubkey
  claimed : UInt64
  forgone : UInt64
  numNodesClaimed : UInt64
  totalAmountClaimed : UInt64
  totalAmountForgone : UInt64
  tokens : Ledger Pubkey
  found : world.distributors accounts.distributor = some distributor
  vaultFound : world.tokens.accounts accounts.fromAccount = some vault
  receiverFound : world.tokens.accounts accounts.toAccount = some receiver
  signed : accounts.claimant ∈ signers
  vacant : world.claimStatuses accounts.claimant accounts.distributor = none
  vaultOwner : vault.owner = accounts.distributor
  vaultAssociated : accounts.fromAccount =
    rt.associatedTokenAddress accounts.distributor distributor.mint
  vaultAddress : accounts.fromAccount = distributor.tokenVault
  receiverOwner : receiver.owner = accounts.claimant
  receiverMint : receiver.mint = distributor.mint
  live : distributor.clawedBack = false
  enabled : distributor.enableSlot ≤ clock.slot
  begun : distributor.startTs ≤ clock.unixTimestamp
  counted : numNodesClaimed.toNat = distributor.numNodesClaimed.toNat + 1
  room : numNodesClaimed.toNat ≤ distributor.maxNumNodes.toNat
  proved : verify rt.hash args.proof distributor.root
    (claimLeaf rt.hash accounts.claimant args.amountUnlocked args.amountLocked) = true
  window : ¬ distributor.endTs ≤ clock.unixTimestamp →
    FitsI64 (distributor.endTs.toInt - distributor.startTs.toInt)
  share : claimed.toNat = unlockedRelease args.amountUnlocked.toNat distributor.startTs.toInt
    distributor.endTs.toInt clock.unixTimestamp.toInt
  rest : args.amountUnlocked.toNat = forgone.toNat + claimed.toNat
  seeds : rt.createProgramAddress distributor.mint distributor.version distributor.bump =
    accounts.distributor
  moved : world.tokens.transfer accounts.fromAccount accounts.toAccount accounts.distributor
    claimed = .ok tokens
  claimedSum : totalAmountClaimed.toNat = distributor.totalAmountClaimed.toNat + claimed.toNat
  forgoneSum : totalAmountForgone.toNat = distributor.totalAmountForgone.toNat + forgone.toNat
  cap : totalAmountClaimed.toNat + totalAmountForgone.toNat ≤ distributor.maxTotalClaim.toNat

structure ClaimLockedExecution (accounts : ClaimLockedAccounts) where
  distributor : MerkleDistributor
  status : ClaimStatus
  vault : TokenAccount Pubkey
  receiver : TokenAccount Pubkey
  amount : UInt64
  lockedAmountWithdrawn : UInt64
  totalAmountClaimed : UInt64
  tokens : Ledger Pubkey
  found : world.distributors accounts.distributor = some distributor
  statusFound : world.claimStatuses accounts.claimant accounts.distributor = some status
  vaultFound : world.tokens.accounts accounts.fromAccount = some vault
  receiverFound : world.tokens.accounts accounts.toAccount = some receiver
  signed : accounts.claimant ∈ signers
  vaultOwner : vault.owner = accounts.distributor
  vaultAssociated : accounts.fromAccount =
    rt.associatedTokenAddress accounts.distributor distributor.mint
  vaultAddress : accounts.fromAccount = distributor.tokenVault
  receiverOwner : receiver.owner = accounts.claimant
  live : distributor.clawedBack = false
  enabled : distributor.enableSlot ≤ clock.slot
  window : distributor.startTs ≤ clock.unixTimestamp → ¬ distributor.endTs ≤ clock.unixTimestamp →
    FitsI64 (distributor.endTs.toInt - distributor.startTs.toInt)
  release : released status.lockedAmount.toNat distributor.startTs.toInt distributor.endTs.toInt
    clock.unixTimestamp.toInt = amount.toNat + status.lockedAmountWithdrawn.toNat
  positive : 0 < amount.toNat
  seeds : rt.createProgramAddress distributor.mint distributor.version distributor.bump =
    accounts.distributor
  moved : world.tokens.transfer accounts.fromAccount accounts.toAccount accounts.distributor
    amount = .ok tokens
  withdrawnSum : lockedAmountWithdrawn.toNat = status.lockedAmountWithdrawn.toNat + amount.toNat
  withinLocked : lockedAmountWithdrawn.toNat ≤ status.lockedAmount.toNat
  claimedSum : totalAmountClaimed.toNat = distributor.totalAmountClaimed.toNat + amount.toNat
  cap : totalAmountClaimed.toNat ≤ distributor.maxTotalClaim.toNat

/-- The six documented conditions of `validate_set_root`. -/
structure SetRootConditions (distributor : MerkleDistributor) (vaultAmount : UInt64)
    (expectedOldRoot : Hash) (expectedNumNodesClaimed newMaxTotalClaim : UInt64) : Prop where
  reRootable : distributor.mint ∈ dfxMints
  live : distributor.clawedBack = false
  paused : distributor.enableSlot = u64Max
  oldRoot : distributor.root = expectedOldRoot
  oldCount : distributor.numNodesClaimed = expectedNumNodesClaimed
  lower : newMaxTotalClaim.toNat ≤ distributor.maxTotalClaim.toNat
  settled : distributor.totalAmountClaimed.toNat + distributor.totalAmountForgone.toNat ≤
    newMaxTotalClaim.toNat
  covered : distributor.maxTotalClaim.toNat ≤
    vaultAmount.toNat + distributor.totalAmountClaimed.toNat

structure SetRootExecution (accounts : SetRootAccounts) (args : SetRootArgs) where
  distributor : MerkleDistributor
  vault : TokenAccount Pubkey
  burned : UInt64
  tokens : Ledger Pubkey
  found : world.distributors accounts.distributor = some distributor
  vaultFound : world.tokens.accounts accounts.tokenVault = some vault
  signed : accounts.admin ∈ signers
  vaultAddress : accounts.tokenVault = distributor.tokenVault
  mintAddress : accounts.mint = distributor.mint
  authority : accounts.admin = distributor.admin
  conditions : SetRootConditions distributor vault.amount args.expectedOldRoot
    args.expectedNumNodesClaimed args.newMaxTotalClaim
  decrease : distributor.maxTotalClaim.toNat = burned.toNat + args.newMaxTotalClaim.toNat
  burn : burnExcess rt world accounts distributor burned = .ok tokens

structure ClawbackExecution (accounts : ClawbackAccounts) where
  distributor : MerkleDistributor
  vault : TokenAccount Pubkey
  tokens : Ledger Pubkey
  found : world.distributors accounts.distributor = some distributor
  vaultFound : world.tokens.accounts accounts.fromAccount = some vault
  signed : accounts.claimant ∈ signers
  vaultOwner : vault.owner = accounts.distributor
  vaultAddress : accounts.fromAccount = distributor.tokenVault
  receiverAddress : accounts.toAccount = distributor.clawbackReceiver
  live : distributor.clawedBack = false
  due : distributor.clawbackStartTs.toInt ≤ clock.unixTimestamp.toInt
  moved : world.tokens.transfer accounts.fromAccount accounts.toAccount accounts.distributor
    vault.amount = .ok tokens

structure CloseDistributorExecution (accounts : CloseDistributorAccounts) where
  distributor : MerkleDistributor
  vault : TokenAccount Pubkey
  tokens : Ledger Pubkey
  found : world.distributors accounts.distributor = some distributor
  vaultFound : world.tokens.accounts accounts.tokenVault = some vault
  signed : accounts.admin ∈ signers
  authority : distributor.admin = accounts.admin
  vaultAddress : distributor.tokenVault = accounts.tokenVault
  closable : distributor.closable = true
  moved : world.tokens.transfer accounts.tokenVault accounts.destinationTokenAccount
    accounts.distributor vault.amount = .ok tokens

end

section
variable {rt : Runtime} {signers : List Pubkey} {clock : Clock} {world : World}

/-! ### The worlds left behind -/

def NewClaimExecution.status {accounts : NewClaimAccounts} {args : NewClaimArgs}
    (execution : NewClaimExecution rt signers clock world accounts args) : ClaimStatus :=
  { args.seeded accounts execution.distributor with unlockedAmountClaimed := execution.claimed }

def NewClaimExecution.next {accounts : NewClaimAccounts} {args : NewClaimArgs}
    (execution : NewClaimExecution rt signers clock world accounts args) : MerkleDistributor :=
  { execution.distributor with
    numNodesClaimed := execution.numNodesClaimed
    totalAmountClaimed := execution.totalAmountClaimed
    totalAmountForgone := execution.totalAmountForgone }

def NewClaimExecution.after {accounts : NewClaimAccounts} {args : NewClaimArgs}
    (execution : NewClaimExecution rt signers clock world accounts args) : World :=
  ((world.setTokens execution.tokens).setClaimStatus accounts.claimant accounts.distributor
    execution.status).setDistributor accounts.distributor (some execution.next)

def NewClaimExecution.events {accounts : NewClaimAccounts} {args : NewClaimArgs}
    (execution : NewClaimExecution rt signers clock world accounts args) : List Event :=
  [.newClaimEvent accounts.claimant clock.unixTimestamp execution.claimed execution.forgone]

def ClaimLockedExecution.nextStatus {accounts : ClaimLockedAccounts}
    (execution : ClaimLockedExecution rt signers clock world accounts) : ClaimStatus :=
  { execution.status with lockedAmountWithdrawn := execution.lockedAmountWithdrawn }

def ClaimLockedExecution.next {accounts : ClaimLockedAccounts}
    (execution : ClaimLockedExecution rt signers clock world accounts) : MerkleDistributor :=
  { execution.distributor with totalAmountClaimed := execution.totalAmountClaimed }

def ClaimLockedExecution.after {accounts : ClaimLockedAccounts}
    (execution : ClaimLockedExecution rt signers clock world accounts) : World :=
  ((world.setTokens execution.tokens).setClaimStatus accounts.claimant accounts.distributor
    execution.nextStatus).setDistributor accounts.distributor (some execution.next)

def ClaimLockedExecution.events {accounts : ClaimLockedAccounts}
    (execution : ClaimLockedExecution rt signers clock world accounts) : List Event :=
  [.claimedEvent accounts.claimant execution.amount]

def SetRootExecution.next {accounts : SetRootAccounts} {args : SetRootArgs}
    (execution : SetRootExecution rt signers world accounts args) : MerkleDistributor :=
  { execution.distributor with root := args.newRoot, maxTotalClaim := args.newMaxTotalClaim }

def SetRootExecution.after {accounts : SetRootAccounts} {args : SetRootArgs}
    (execution : SetRootExecution rt signers world accounts args) : World :=
  (world.setTokens execution.tokens).setDistributor accounts.distributor (some execution.next)

def ClawbackExecution.next {accounts : ClawbackAccounts}
    (execution : ClawbackExecution signers clock world accounts) : MerkleDistributor :=
  { execution.distributor with clawedBack := true }

def ClawbackExecution.after {accounts : ClawbackAccounts}
    (execution : ClawbackExecution signers clock world accounts) : World :=
  (world.setTokens execution.tokens).setDistributor accounts.distributor (some execution.next)

def CloseDistributorExecution.after {accounts : CloseDistributorAccounts}
    (execution : CloseDistributorExecution signers world accounts) : World :=
  (world.setTokens execution.tokens).setDistributor accounts.distributor none

/-! ### Inversion -/

/-- The account constraints of `new_claim`. The owner of the receiving account is checked
twice, by a constraint on that account and by one on the claimant. -/
theorem NewClaimAccounts.tryAccounts_ok_iff {accounts : NewClaimAccounts}
    {distributor : MerkleDistributor} :
    accounts.tryAccounts rt signers world = .ok distributor ↔
      world.distributors accounts.distributor = some distributor ∧
      accounts.claimant ∈ signers ∧
      world.claimStatuses accounts.claimant accounts.distributor = none ∧
      accounts.fromAccount = rt.associatedTokenAddress accounts.distributor distributor.mint ∧
      accounts.fromAccount = distributor.tokenVault ∧
      ∃ vault receiver, world.tokens.accounts accounts.fromAccount = some vault ∧
        world.tokens.accounts accounts.toAccount = some receiver ∧
        vault.owner = accounts.distributor ∧ receiver.owner = accounts.claimant ∧
        receiver.mint = distributor.mint := by
  simp only [NewClaimAccounts.tryAccounts, World.loadDistributor, World.loadToken, requireSigner,
    bind_ok_iff, okOr_ok_iff, require_ok_iff, pure_ok_iff, requireAssociated_ok_iff]
  constructor
  · intro success
    obtain ⟨_, found, vault, vaultFound, receiver, receiverFound, _, signed, _, vacant, _,
      ⟨vaultOwner, vaultAssociated⟩, _, vaultAddress, _, receiverOwner, _, receiverMint, _, _,
      rfl⟩ := success
    exact ⟨found, signed, vacant, vaultAssociated, vaultAddress, vault, receiver, vaultFound,
      receiverFound, vaultOwner, receiverOwner, receiverMint⟩
  · intro checked
    obtain ⟨found, signed, vacant, vaultAssociated, vaultAddress, vault, receiver, vaultFound,
      receiverFound, vaultOwner, receiverOwner, receiverMint⟩ := checked
    exact ⟨distributor, found, vault, vaultFound, receiver, receiverFound, (), signed, (), vacant,
      (), ⟨vaultOwner, vaultAssociated⟩, (), vaultAddress, (), receiverOwner, (), receiverMint, (),
      receiverOwner.symm, rfl⟩

/-- `new_claim` succeeds exactly when an execution record exists, and does what it says. -/
theorem newClaim_ok_iff {accounts : NewClaimAccounts} {args : NewClaimArgs} {after : World}
    {events : List Event} :
    newClaim rt signers clock world accounts args = .ok (after, events) ↔
      ∃ execution : NewClaimExecution rt signers clock world accounts args,
        after = execution.after ∧ events = execution.events := by
  simp only [newClaim, handleNewClaim, bind_ok_iff, okOr_ok_iff, require_ok_iff, pure_ok_iff,
    mapError_ok_iff, invokeTransfer_ok_iff, updateUnlockedAmountClaimed_ok_iff,
    getUnlockedAmountForgone_ok_iff, checkedAdd_eq_some, UInt64.le_iff_toNat_le]
  constructor
  · intro success
    obtain ⟨distributor, accepted, _, live, _, enabled, _, begun, numNodesClaimed, counted, _,
      room, _, proved, _, ⟨_, window, claimed, share, rfl⟩, forgone, rest, tokens, ⟨seeds, moved⟩,
      totalAmountClaimed, claimedSum, totalAmountForgone, forgoneSum, settled, settledSum, _, cap,
      result⟩ := success
    obtain ⟨found, signed, vacant, vaultAssociated, vaultAddress, vault, receiver, vaultFound,
      receiverFound, vaultOwner, receiverOwner, receiverMint⟩ :=
      NewClaimAccounts.tryAccounts_ok_iff.mp accepted
    obtain ⟨rfl, rfl⟩ := Prod.mk.inj result
    refine ⟨{
      distributor, vault, receiver, claimed, forgone, numNodesClaimed, totalAmountClaimed,
      totalAmountForgone, tokens, found, vaultFound, receiverFound, signed, vacant, vaultOwner,
      vaultAssociated, vaultAddress, receiverOwner, receiverMint, live, begun, counted, room,
      proved, window, share, rest, seeds, moved, claimedSum, forgoneSum,
      enabled := UInt64.le_iff_toNat_le.mpr enabled
      cap := by omega }, rfl, rfl⟩
  · rintro ⟨e, rfl, rfl⟩
    have width := e.distributor.maxTotalClaim.toNat_lt
    obtain ⟨settled, _, settledSum⟩ :=
      checkedAdd_total e.totalAmountClaimed e.totalAmountForgone (by have := e.cap; omega)
    have accepted := NewClaimAccounts.tryAccounts_ok_iff.mpr ⟨e.found, e.signed, e.vacant,
      e.vaultAssociated, e.vaultAddress, e.vault, e.receiver, e.vaultFound, e.receiverFound,
      e.vaultOwner, e.receiverOwner, e.receiverMint⟩
    exact ⟨e.distributor, accepted, (), e.live, (), UInt64.le_iff_toNat_le.mp e.enabled, (),
      e.begun, e.numNodesClaimed, e.counted, (), e.room, (), e.proved, e.status,
      ⟨e.begun, e.window, e.claimed, e.share, rfl⟩, e.forgone, e.rest, e.tokens,
      ⟨e.seeds, e.moved⟩, e.totalAmountClaimed, e.claimedSum, e.totalAmountForgone, e.forgoneSum,
      settled, settledSum, (), by rw [settledSum]; exact e.cap, rfl⟩

/-- After the start, the seconds left in the lockup are shorter than the window and the
subtraction for the log line cannot panic. -/
theorem remainingSeconds_total {currTs startTs endTs : Int64} (begun : startTs ≤ currTs)
    (window : ¬ endTs ≤ currTs → FitsI64 (endTs.toInt - startTs.toInt)) :
    ∃ seconds, remainingSeconds currTs endTs = .ok seconds := by
  unfold remainingSeconds
  split
  · next running =>
    rw [Int64.lt_iff_toInt_lt] at running
    rw [Int64.le_iff_toInt_le] at begun window
    have fits := window (by omega)
    have lower := endTs.le_toInt
    obtain ⟨seconds, difference, _⟩ := checkedSubI64_total endTs currTs
      ⟨by omega, by have := fits.2; omega⟩
    exact ⟨seconds, by rw [difference, okOr]⟩
  · exact ⟨0, rfl⟩

/-- A positive withdrawal is made after the start. -/
theorem ClaimLockedExecution.remaining {accounts : ClaimLockedAccounts}
    (e : ClaimLockedExecution rt signers clock world accounts) :
    ∃ seconds, remainingSeconds clock.unixTimestamp e.distributor.endTs = .ok seconds := by
  have positive := e.positive
  have begun : e.distributor.startTs ≤ clock.unixTimestamp :=
    Int64.le_iff_toInt_le.mpr (begun_of_released (by rw [e.release]; omega))
  exact remainingSeconds_total begun (e.window begun)

/-- The account constraints of `claim_locked`. -/
theorem ClaimLockedAccounts.tryAccounts_ok_iff {accounts : ClaimLockedAccounts}
    {distributor : MerkleDistributor} {status : ClaimStatus} :
    accounts.tryAccounts rt signers world = .ok (distributor, status) ↔
      world.distributors accounts.distributor = some distributor ∧
      world.claimStatuses accounts.claimant accounts.distributor = some status ∧
      accounts.claimant ∈ signers ∧
      accounts.fromAccount = rt.associatedTokenAddress accounts.distributor distributor.mint ∧
      accounts.fromAccount = distributor.tokenVault ∧
      ∃ vault receiver, world.tokens.accounts accounts.fromAccount = some vault ∧
        world.tokens.accounts accounts.toAccount = some receiver ∧
        vault.owner = accounts.distributor ∧ receiver.owner = accounts.claimant := by
  simp only [ClaimLockedAccounts.tryAccounts, World.loadDistributor, World.loadToken,
    requireSigner, bind_ok_iff, okOr_ok_iff, require_ok_iff, pure_ok_iff,
    requireAssociated_ok_iff]
  constructor
  · intro success
    obtain ⟨_, found, _, statusFound, vault, vaultFound, receiver, receiverFound, _, signed, _,
      ⟨vaultOwner, vaultAssociated⟩, _, vaultAddress, _, receiverOwner, _, _, loaded⟩ := success
    obtain ⟨rfl, rfl⟩ := Prod.mk.inj loaded
    exact ⟨found, statusFound, signed, vaultAssociated, vaultAddress, vault, receiver, vaultFound,
      receiverFound, vaultOwner, receiverOwner⟩
  · intro checked
    obtain ⟨found, statusFound, signed, vaultAssociated, vaultAddress, vault, receiver, vaultFound,
      receiverFound, vaultOwner, receiverOwner⟩ := checked
    exact ⟨distributor, found, status, statusFound, vault, vaultFound, receiver, receiverFound, (),
      signed, (), ⟨vaultOwner, vaultAssociated⟩, (), vaultAddress, (), receiverOwner, (),
      receiverOwner.symm, rfl⟩

/-- `claim_locked` succeeds exactly when an execution record exists, and does what it says. -/
theorem claimLocked_ok_iff {accounts : ClaimLockedAccounts} {after : World}
    {events : List Event} :
    claimLocked rt signers clock world accounts = .ok (after, events) ↔
      ∃ execution : ClaimLockedExecution rt signers clock world accounts,
        after = execution.after ∧ events = execution.events := by
  simp only [claimLocked, handleClaimLocked, bind_ok_iff, okOr_ok_iff, require_ok_iff,
    pure_ok_iff, mapError_ok_iff, invokeTransfer_ok_iff, amountWithdrawable_ok_iff,
    checkedAdd_eq_some, UInt64.le_iff_toNat_le, UInt64.lt_iff_toNat_lt, gt_iff_lt]
  constructor
  · intro success
    obtain ⟨⟨distributor, status⟩, accepted, _, live, _, enabled, amount, ⟨window, release⟩, _,
      positive, tokens, ⟨seeds, moved⟩, lockedAmountWithdrawn, withdrawnSum, _, withinLocked,
      totalAmountClaimed, claimedSum, _, cap, _, _, result⟩ := success
    obtain ⟨found, statusFound, signed, vaultAssociated, vaultAddress, vault, receiver, vaultFound,
      receiverFound, vaultOwner, receiverOwner⟩ :=
      ClaimLockedAccounts.tryAccounts_ok_iff.mp accepted
    obtain ⟨rfl, rfl⟩ := Prod.mk.inj result
    exact ⟨{
      distributor, status, vault, receiver, amount, lockedAmountWithdrawn, totalAmountClaimed,
      tokens, found, statusFound, vaultFound, receiverFound, signed, vaultOwner, vaultAssociated,
      vaultAddress, receiverOwner, live, window, release, positive, seeds, moved, withdrawnSum,
      withinLocked, claimedSum, cap, enabled := UInt64.le_iff_toNat_le.mpr enabled }, rfl, rfl⟩
  · rintro ⟨e, rfl, rfl⟩
    obtain ⟨seconds, remaining⟩ := e.remaining
    have accepted := ClaimLockedAccounts.tryAccounts_ok_iff.mpr ⟨e.found, e.statusFound, e.signed,
      e.vaultAssociated, e.vaultAddress, e.vault, e.receiver, e.vaultFound, e.receiverFound,
      e.vaultOwner, e.receiverOwner⟩
    exact ⟨(e.distributor, e.status), accepted, (), e.live, (),
      UInt64.le_iff_toNat_le.mp e.enabled, e.amount, ⟨e.window, e.release⟩, (), e.positive,
      e.tokens, ⟨e.seeds, e.moved⟩, e.lockedAmountWithdrawn, e.withdrawnSum, (), e.withinLocked,
      e.totalAmountClaimed, e.claimedSum, (), e.cap, seconds, remaining, rfl⟩

/-- The burn is the decrease of the cap, and the conditions are exactly the checks:
the first unchecked subtraction is safe because `claimed ≤ settled ≤ new ≤ old`, the
second because `new ≤ old`. -/
theorem validateSetRoot_ok_iff {distributor : MerkleDistributor} {vaultAmount : UInt64}
    {expectedOldRoot : Hash} {expectedNumNodesClaimed newMaxTotalClaim burned : UInt64} :
    validateSetRoot distributor vaultAmount expectedOldRoot expectedNumNodesClaimed
        newMaxTotalClaim = .ok burned ↔
      SetRootConditions distributor vaultAmount expectedOldRoot expectedNumNodesClaimed
        newMaxTotalClaim ∧
      distributor.maxTotalClaim.toNat = burned.toNat + newMaxTotalClaim.toNat := by
  simp only [validateSetRoot, bind_ok_iff, require_ok_iff, okOr_ok_iff, checkedAdd_eq_some,
    checkedSub_eq_some, UInt64.le_iff_toNat_le, ge_iff_le]
  constructor
  · rintro ⟨_, reRootable, _, live, _, paused, _, oldRoot, _, oldCount, _, lower, settled,
      settledSum, _, settledLe, outstanding, difference, _, covered, decrease⟩
    exact ⟨{ reRootable, live, paused, oldRoot, oldCount, lower, settled := by omega,
             covered := by omega }, decrease⟩
  · rintro ⟨c, decrease⟩
    have settledLe := c.settled
    have covered := c.covered
    have width := newMaxTotalClaim.toNat_lt
    obtain ⟨settled, _, settledSum⟩ := checkedAdd_total distributor.totalAmountClaimed
      distributor.totalAmountForgone (by omega)
    obtain ⟨outstanding, _, difference⟩ := checkedSub_total distributor.maxTotalClaim
      distributor.totalAmountClaimed (by omega)
    exact ⟨(), c.reRootable, (), c.live, (), c.paused, (), c.oldRoot, (), c.oldCount, (), c.lower,
      settled, settledSum, (), by omega, outstanding, difference, (), by omega, decrease⟩

/-- Neither unchecked subtraction of `validate_set_root` underflows, whatever the fields are. -/
theorem validateSetRoot_no_panic (distributor : MerkleDistributor) (vaultAmount : UInt64)
    (expectedOldRoot : Hash) (expectedNumNodesClaimed newMaxTotalClaim : UInt64) :
    validateSetRoot distributor vaultAmount expectedOldRoot expectedNumNodesClaimed
      newMaxTotalClaim ≠ .error .panicked := by
  simp only [validateSetRoot, ne_eq, bind_error_iff, require_error_iff, okOr_error_iff,
    require_ok_iff, okOr_ok_iff, reduceCtorEq, and_false, false_or, and_true, checkedSub_eq_none,
    checkedAdd_eq_some, UInt64.le_iff_toNat_le, ge_iff_le]
  rintro ⟨_, _, _, _, _, _, _, _, _, _, _, lower, settled, settledSum, _, settledLe,
    underflow | ⟨_, _, _, _, underflow⟩⟩ <;> omega

theorem setRoot_execution {accounts : SetRootAccounts} {args : SetRootArgs} {after : World}
    {events : List Event} (success : setRoot rt signers world accounts args = .ok (after, events)) :
    ∃ execution : SetRootExecution rt signers world accounts args, after = execution.after := by
  simp only [setRoot, SetRootAccounts.tryAccounts, handleSetRoot, World.loadDistributor,
    World.loadToken, requireSigner, bind_ok_iff, okOr_ok_iff, require_ok_iff, pure_ok_iff,
    validateSetRoot_ok_iff] at success
  obtain ⟨_, ⟨distributor, found, vault, vaultFound, _, _, _, signed, _, vaultAddress, _,
    mintAddress, _, authority, rfl⟩, burned, ⟨conditions, decrease⟩, tokens, burn, result⟩ :=
    success
  obtain ⟨rfl, rfl⟩ := Prod.mk.inj result
  exact ⟨{ distributor, vault, burned, tokens, found, vaultFound, signed, vaultAddress,
           mintAddress, authority, conditions, decrease, burn }, rfl⟩

theorem clawback_execution {accounts : ClawbackAccounts} {after : World} {events : List Event}
    (success : clawback rt signers clock world accounts = .ok (after, events)) :
    ∃ execution : ClawbackExecution signers clock world accounts, after = execution.after := by
  simp only [clawback, ClawbackAccounts.tryAccounts, handleClawback, World.loadDistributor,
    World.loadToken, requireSigner, bind_ok_iff, okOr_ok_iff, require_ok_iff, pure_ok_iff,
    requireAssociated_ok_iff, invokeTransfer_ok_iff, Int64.lt_iff_toInt_lt, Int.not_lt] at success
  obtain ⟨_, ⟨distributor, found, vault, vaultFound, _, _, _, signed, _, ⟨vaultOwner, _⟩, _,
    vaultAddress, _, receiverAddress, rfl⟩, _, live, _, due, tokens, ⟨_, moved⟩, result⟩ := success
  obtain ⟨rfl, rfl⟩ := Prod.mk.inj result
  exact ⟨{ distributor, vault, tokens, found, vaultFound, signed, vaultOwner, vaultAddress,
           receiverAddress, live, due, moved }, rfl⟩

theorem closeDistributor_execution {accounts : CloseDistributorAccounts} {after : World}
    {events : List Event}
    (success : closeDistributor rt signers world accounts = .ok (after, events)) :
    ∃ execution : CloseDistributorExecution signers world accounts, after = execution.after := by
  simp only [closeDistributor, CloseDistributorAccounts.tryAccounts, handleCloseDistributor,
    World.loadDistributor, World.loadToken, requireSigner, bind_ok_iff, okOr_ok_iff,
    require_ok_iff, pure_ok_iff, invokeTransfer_ok_iff] at success
  obtain ⟨_, ⟨distributor, found, vault, vaultFound, _, signed, _, _, _, authority, _,
    vaultAddress, _, closable, rfl⟩, tokens, ⟨_, moved⟩, result⟩ := success
  obtain ⟨rfl, rfl⟩ := Prod.mk.inj result
  exact ⟨{ distributor, vault, tokens, found, vaultFound, signed, authority, vaultAddress,
           closable, moved }, rfl⟩

theorem secondsPerDay_toInt : secondsPerDay.toInt = 86400 := by decide

theorem newDistributor_execution {accounts : NewDistributorAccounts} {args : NewDistributorArgs}
    {after : World} {events : List Event}
    (success : newDistributor rt signers clock world accounts args = .ok (after, events)) :
    Nonempty (NewDistributorExecution rt signers clock world accounts args) ∧
      after = world.setDistributor accounts.distributor (some (args.distributor rt accounts)) := by
  simp only [newDistributor, NewDistributorAccounts.tryAccounts, handleNewDistributor,
    World.loadToken, requireSigner, bind_ok_iff, okOr_ok_iff, require_ok_iff, pure_ok_iff,
    requireAssociated_ok_iff, checkedAddI64_eq_some, secondsPerDay_toInt, gt_iff_lt, ge_iff_le,
    Int64.lt_iff_toInt_lt, Int64.le_iff_toInt_le] at success
  obtain ⟨_, ⟨receiver, _, _, _, vault, vaultFound, _, signed, _, address, _, vacant, _, _, _,
    ⟨vaultOwner, vaultAddress⟩, authority⟩, _, ordered, _, ⟨future, _⟩, _, _, earliest, sum, _,
    delay, result⟩ := success
  obtain ⟨rfl, rfl⟩ := Prod.mk.inj result
  exact ⟨⟨{ vault, address, vacant, vaultFound, vaultOwner, vaultAddress, signed, authority,
            ordered, future, delay := by omega }⟩, rfl⟩

theorem AdminAccounts.tryAccounts_ok {accounts : AdminAccounts} {mismatch : ProgramError}
    {distributor : MerkleDistributor}
    (success : accounts.tryAccounts signers world mismatch = .ok distributor) :
    world.distributors accounts.distributor = some distributor ∧ accounts.admin ∈ signers ∧
      accounts.admin = distributor.admin := by
  simp only [AdminAccounts.tryAccounts, World.loadDistributor, requireSigner, bind_ok_iff,
    okOr_ok_iff, require_ok_iff, pure_ok_iff] at success
  obtain ⟨_, found, _, signed, _, authority, rfl⟩ := success
  exact ⟨found, signed, authority⟩

theorem validateClawbackStartTs_ok {distributor : MerkleDistributor}
    {clawbackStartTs currTs : Int64} {u : Unit}
    (success : validateClawbackStartTs distributor clawbackStartTs currTs = .ok u) :
    distributor.clawedBack = false ∧
      distributor.endTs.toInt + 86400 ≤ clawbackStartTs.toInt := by
  simp only [validateClawbackStartTs, bind_ok_iff, require_ok_iff, okOr_ok_iff,
    checkedAddI64_eq_some, secondsPerDay_toInt, ge_iff_le, Int64.le_iff_toInt_le] at success
  obtain ⟨_, live, _, _, earliest, sum, delay⟩ := success
  exact ⟨live, by omega⟩

theorem closeClaimStatus_fails {accounts : CloseClaimStatusAccounts} {after : World}
    {events : List Event} : closeClaimStatus signers world accounts ≠ .ok (after, events) := by
  simp only [closeClaimStatus, handleCloseStatus, ne_eq, bind_ok_iff, reduceCtorEq, and_false,
    exists_false, not_false_eq_true]

end

/-! ### All transactions at once -/

/-- What the four setters write. -/
inductive AdminUpdate (accounts : AdminAccounts) (distributor : MerkleDistributor) :
    Instruction → MerkleDistributor → Prop
  | setEnableSlot (enableSlot : UInt64) :
      AdminUpdate accounts distributor (.setEnableSlot accounts enableSlot)
        { distributor with enableSlot }
  | setAdmin (newAdmin : Pubkey) :
      AdminUpdate accounts distributor (.setAdmin accounts newAdmin)
        { distributor with admin := newAdmin }
  | setClawbackReceiver (newClawbackAccount : Pubkey) :
      AdminUpdate accounts distributor (.setClawbackReceiver accounts newClawbackAccount)
        { distributor with clawbackReceiver := newClawbackAccount }
  | setClawbackStartTs (clawbackStartTs : Int64) (live : distributor.clawedBack = false)
      (delay : distributor.endTs.toInt + 86400 ≤ clawbackStartTs.toInt) :
      AdminUpdate accounts distributor (.setClawbackStartTs accounts clawbackStartTs)
        { distributor with clawbackStartTs }

/-- A successful transaction, by what it was, with the world it leaves. -/
inductive Execution (rt : Runtime) (world : World) (tx : Transaction) : World → Prop
  | newDistributor {accounts : NewDistributorAccounts} {args : NewDistributorArgs}
      (sent : tx.action = .invoke (.newDistributor accounts args))
      (e : NewDistributorExecution rt tx.signers tx.clock world accounts args) :
      Execution rt world tx
        (world.setDistributor accounts.distributor (some (args.distributor rt accounts)))
  | newClaim {accounts : NewClaimAccounts} {args : NewClaimArgs}
      (sent : tx.action = .invoke (.newClaim accounts args))
      (e : NewClaimExecution rt tx.signers tx.clock world accounts args) :
      Execution rt world tx e.after
  | claimLocked {accounts : ClaimLockedAccounts}
      (sent : tx.action = .invoke (.claimLocked accounts))
      (e : ClaimLockedExecution rt tx.signers tx.clock world accounts) :
      Execution rt world tx e.after
  | setRoot {accounts : SetRootAccounts} {args : SetRootArgs}
      (sent : tx.action = .invoke (.setRoot accounts args))
      (e : SetRootExecution rt tx.signers world accounts args) : Execution rt world tx e.after
  | clawback {accounts : ClawbackAccounts} (sent : tx.action = .invoke (.clawback accounts))
      (e : ClawbackExecution tx.signers tx.clock world accounts) : Execution rt world tx e.after
  | closeDistributor {accounts : CloseDistributorAccounts}
      (sent : tx.action = .invoke (.closeDistributor accounts))
      (e : CloseDistributorExecution tx.signers world accounts) : Execution rt world tx e.after
  | admin {instruction : Instruction} {accounts : AdminAccounts}
      {distributor next : MerkleDistributor} (sent : tx.action = .invoke instruction)
      (found : world.distributors accounts.distributor = some distributor)
      (signed : accounts.admin ∈ tx.signers) (authority : accounts.admin = distributor.admin)
      (update : AdminUpdate accounts distributor instruction next) :
      Execution rt world tx (world.setDistributor accounts.distributor (some next))
  | token {operation : Operation Pubkey} {tokens : Ledger Pubkey}
      (sent : tx.action = .token operation)
      (done : execOperation tx.signers world.tokens operation = .ok tokens) :
      Execution rt world tx (world.setTokens tokens)

private theorem admin_execution {rt : Runtime} {world after : World} {tx : Transaction}
    {instruction : Instruction} {accounts : AdminAccounts} {distributor next : MerkleDistributor}
    {events : List Event} {mismatch : ProgramError} (sent : tx.action = .invoke instruction)
    (loaded : accounts.tryAccounts tx.signers world mismatch = .ok distributor)
    (update : AdminUpdate accounts distributor instruction next)
    (result : (world.setDistributor accounts.distributor (some next), []) = (after, events)) :
    Execution rt world tx after := by
  obtain ⟨rfl, rfl⟩ := Prod.mk.inj result
  obtain ⟨found, signed, authority⟩ := AdminAccounts.tryAccounts_ok loaded
  exact .admin sent found signed authority update

theorem process_execution {rt : Runtime} {world after : World} {tx : Transaction}
    {events : List Event} (success : process rt world tx = .ok (after, events)) :
    Execution rt world tx after := by
  unfold process at success
  split at success
  case h_2 operation sent =>
    simp only [bind_ok_iff, mapError_ok_iff, pure_ok_iff] at success
    obtain ⟨tokens, done, result⟩ := success
    obtain ⟨rfl, rfl⟩ := Prod.mk.inj result
    exact .token sent done
  case h_1 instruction sent =>
    cases instruction with
    | newDistributor accounts args =>
      obtain ⟨⟨e⟩, rfl⟩ := newDistributor_execution success
      exact .newDistributor sent e
    | closeDistributor accounts =>
      obtain ⟨e, rfl⟩ := closeDistributor_execution success
      exact .closeDistributor sent e
    | closeClaimStatus accounts => exact absurd success closeClaimStatus_fails
    | setRoot accounts args =>
      obtain ⟨e, rfl⟩ := setRoot_execution success
      exact .setRoot sent e
    | newClaim accounts args =>
      obtain ⟨e, rfl, _⟩ := newClaim_ok_iff.mp success
      exact .newClaim sent e
    | claimLocked accounts =>
      obtain ⟨e, rfl, _⟩ := claimLocked_ok_iff.mp success
      exact .claimLocked sent e
    | clawback accounts =>
      obtain ⟨e, rfl⟩ := clawback_execution success
      exact .clawback sent e
    | setEnableSlot accounts enableSlot =>
      simp only [dispatch, setEnableSlot, bind_ok_iff, pure_ok_iff] at success
      obtain ⟨distributor, loaded, result⟩ := success
      exact admin_execution sent loaded (.setEnableSlot enableSlot) result
    | setAdmin accounts newAdmin =>
      simp only [dispatch, setAdmin, bind_ok_iff, require_ok_iff, pure_ok_iff] at success
      obtain ⟨distributor, loaded, _, _, result⟩ := success
      exact admin_execution sent loaded (.setAdmin newAdmin) result
    | setClawbackStartTs accounts clawbackStartTs =>
      simp only [dispatch, setClawbackStartTs, bind_ok_iff, pure_ok_iff] at success
      obtain ⟨distributor, loaded, _, valid, result⟩ := success
      obtain ⟨live, delay⟩ := validateClawbackStartTs_ok valid
      exact admin_execution sent loaded (.setClawbackStartTs clawbackStartTs live delay) result
    | setClawbackReceiver accounts newClawbackAccount =>
      simp only [dispatch, setClawbackReceiver, World.loadDistributor, World.loadToken,
        requireSigner, bind_ok_iff, okOr_ok_iff, require_ok_iff, pure_ok_iff] at success
      obtain ⟨distributor, found, _, _, _, signed, _, _, _, authority, _, _, result⟩ := success
      obtain ⟨rfl, rfl⟩ := Prod.mk.inj result
      exact .admin sent found signed authority (.setClawbackReceiver newClawbackAccount)

theorem NewClaimExecution.success {rt : Runtime} {world : World} {tx : Transaction}
    {accounts : NewClaimAccounts} {args : NewClaimArgs}
    (e : NewClaimExecution rt tx.signers tx.clock world accounts args)
    (sent : tx.action = .invoke (.newClaim accounts args)) :
    process rt world tx = .ok (e.after, e.events) := by
  simp only [process, sent, dispatch]
  exact newClaim_ok_iff.mpr ⟨e, rfl, rfl⟩

theorem ClaimLockedExecution.success {rt : Runtime} {world : World} {tx : Transaction}
    {accounts : ClaimLockedAccounts}
    (e : ClaimLockedExecution rt tx.signers tx.clock world accounts)
    (sent : tx.action = .invoke (.claimLocked accounts)) :
    process rt world tx = .ok (e.after, e.events) := by
  simp only [process, sent, dispatch]
  exact claimLocked_ok_iff.mpr ⟨e, rfl, rfl⟩

/-- A step of a run changes nothing, or is a successful transaction. -/
theorem apply_cases (rt : Runtime) (world : World) (tx : Transaction) :
    (apply rt world tx = world ∧ ¬ Succeeds rt world tx) ∨
      (Execution rt world tx (apply rt world tx) ∧ Succeeds rt world tx) := by
  cases outcome : process rt world tx with
  | error failure =>
    left
    refine ⟨apply_of_error outcome, ?_⟩
    rintro ⟨after, events, success⟩
    rw [outcome] at success
    cases success
  | ok result =>
    right
    rw [apply_of_ok outcome]
    exact ⟨process_execution outcome, result.1, result.2, outcome⟩

end MultiDistributor.Source

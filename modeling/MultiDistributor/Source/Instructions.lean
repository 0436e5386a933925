import MultiDistributor.Source.MerkleTree
import MultiDistributor.Source.World

/-!
# The eleven instructions

`programs/merkle-distributor/src/instructions/*.rs`. Each instruction is its
`#[derive(Accounts)]` struct, the validation Anchor generates from it
(`tryAccounts`), and its handler. Validation follows Anchor's order: accounts are
loaded and signers checked in field order, then `init` accounts are created, then
the remaining constraints run in field order. An instruction either fails as a
whole or returns the new world and the events it emitted.

The release profile enables overflow checks, so an unchecked operation of the
source that overflows is a panic.
-/
namespace MultiDistributor.Source
open Lib.Checked Lib.TokenLedger Lib.ByteString

/-- Result of an instruction. -/
abbrev Outcome := Except ProgramError (World × List Event)

section Instructions
variable (rt : Runtime) (signers : List Pubkey) (clock : Clock) (world : World)

/-! ### `new_distributor.rs` -/

def secondsPerHour : Int64 := 3600
def hoursPerDay : Int64 := 24
def secondsPerDay : Int64 := secondsPerHour * hoursPerDay

/-- `admin::id()`. -/
def adminId : Pubkey :=
  ⟨[12, 66, 159, 206, 114, 113, 161, 90, 86, 120, 20, 54, 181, 229, 138, 242, 181, 211, 213,
    105, 125, 197, 87, 17, 216, 80, 248, 137, 69, 175, 202, 18], rfl⟩

structure NewDistributorAccounts where
  distributor : Pubkey
  clawbackReceiver : Pubkey
  mint : Pubkey
  tokenVault : Pubkey
  admin : Pubkey
  deriving DecidableEq, Repr

structure NewDistributorArgs where
  version : UInt64
  root : Hash
  maxTotalClaim : UInt64
  maxNumNodes : UInt64
  startVestingTs : Int64
  endVestingTs : Int64
  clawbackStartTs : Int64
  enableSlot : UInt64
  closable : Bool
  deriving DecidableEq, Repr

def NewDistributorAccounts.tryAccounts (accounts : NewDistributorAccounts) (version : UInt64) :
    Except ProgramError Unit := do
  let clawbackReceiver ← world.loadToken accounts.clawbackReceiver
  let _ ← okOr (world.tokens.supplies accounts.mint) (.anchor .accountNotInitialized)
  let tokenVault ← world.loadToken accounts.tokenVault
  requireSigner signers accounts.admin
  require (accounts.distributor = rt.distributorAddress accounts.mint version)
    (.anchor .constraintSeeds)
  require (world.distributors accounts.distributor = none) (.anchor .accountAlreadyInUse)
  require (clawbackReceiver.mint = accounts.mint) (.anchor .constraintTokenMint)
  requireAssociated rt accounts.tokenVault tokenVault accounts.mint accounts.distributor
  require (accounts.admin = adminId) (.anchor .constraintAddress)

/-- The record written by the handler. `init` zeroes the account, and the handler leaves
`total_amount_forgone` at that value. -/
def NewDistributorArgs.distributor (rt : Runtime) (args : NewDistributorArgs)
    (accounts : NewDistributorAccounts) : MerkleDistributor where
  bump := rt.findBump accounts.mint args.version
  version := args.version
  root := args.root
  mint := accounts.mint
  tokenVault := accounts.tokenVault
  maxTotalClaim := args.maxTotalClaim
  maxNumNodes := args.maxNumNodes
  totalAmountClaimed := 0
  totalAmountForgone := 0
  numNodesClaimed := 0
  startTs := args.startVestingTs
  endTs := args.endVestingTs
  clawbackStartTs := args.clawbackStartTs
  clawbackReceiver := accounts.clawbackReceiver
  admin := accounts.admin
  clawedBack := false
  enableSlot := args.enableSlot
  closable := args.closable

def handleNewDistributor (accounts : NewDistributorAccounts) (args : NewDistributorArgs) :
    Outcome := do
  let currTs := clock.unixTimestamp
  require (args.startVestingTs < args.endVestingTs) (.custom .startTimestampAfterEnd)
  require (args.endVestingTs > currTs ∧ args.clawbackStartTs > currTs)
    (.custom .timestampsNotInFuture)
  require (args.clawbackStartTs > args.endVestingTs) (.custom .clawbackDuringVesting)
  let earliest ← okOr (checkedAddI64 args.endVestingTs secondsPerDay) (.custom .arithmeticError)
  require (args.clawbackStartTs ≥ earliest) (.custom .insufficientClawbackDelay)
  return (world.setDistributor accounts.distributor (some (args.distributor rt accounts)), [])

def newDistributor (accounts : NewDistributorAccounts) (args : NewDistributorArgs) : Outcome := do
  accounts.tryAccounts rt signers world args.version
  handleNewDistributor rt clock world accounts args

/-! ### `new_claim.rs` -/

structure NewClaimAccounts where
  distributor : Pubkey
  fromAccount : Pubkey
  toAccount : Pubkey
  claimant : Pubkey
  deriving DecidableEq, Repr

structure NewClaimArgs where
  amountUnlocked : UInt64
  amountLocked : UInt64
  proof : List Hash
  deriving DecidableEq, Repr

def NewClaimAccounts.tryAccounts (accounts : NewClaimAccounts) :
    Except ProgramError MerkleDistributor := do
  let distributor ← world.loadDistributor accounts.distributor
  let fromAccount ← world.loadToken accounts.fromAccount
  let toAccount ← world.loadToken accounts.toAccount
  requireSigner signers accounts.claimant
  require (world.claimStatuses accounts.claimant accounts.distributor = none)
    (.anchor .accountAlreadyInUse)
  requireAssociated rt accounts.fromAccount fromAccount distributor.mint accounts.distributor
  require (accounts.fromAccount = distributor.tokenVault) (.anchor .constraintAddress)
  require (toAccount.owner = accounts.claimant) (.anchor .constraintTokenOwner)
  require (toAccount.mint = distributor.mint) (.anchor .constraintTokenMint)
  require (accounts.claimant = toAccount.owner) (.custom .ownerMismatch)
  return distributor

/-- The claim status as seeded before its unlocked share is computed. -/
def NewClaimArgs.seeded (args : NewClaimArgs) (accounts : NewClaimAccounts)
    (distributor : MerkleDistributor) : ClaimStatus where
  claimant := accounts.claimant
  lockedAmount := args.amountLocked
  lockedAmountWithdrawn := 0
  unlockedAmount := args.amountUnlocked
  unlockedAmountClaimed := 0
  closable := distributor.closable
  distributor := accounts.distributor

def handleNewClaim (accounts : NewClaimAccounts) (distributor : MerkleDistributor)
    (args : NewClaimArgs) : Outcome := do
  let currTs := clock.unixTimestamp
  require (distributor.clawedBack = false) (.custom .claimExpired)
  require (distributor.enableSlot ≤ clock.slot) (.custom .claimingIsNotStarted)
  require (distributor.startTs ≤ currTs) (.custom .claimingIsNotStarted)
  let numNodesClaimed ← okOr (checkedAdd distributor.numNodesClaimed 1) (.custom .arithmeticError)
  require (numNodesClaimed ≤ distributor.maxNumNodes) (.custom .maxNodesExceeded)
  let node := claimLeaf rt.hash accounts.claimant args.amountUnlocked args.amountLocked
  require (verify rt.hash args.proof distributor.root node = true) (.custom .invalidProof)
  let claimStatus ← ((args.seeded accounts distributor).updateUnlockedAmountClaimed currTs
    distributor.startTs distributor.endTs).mapError .custom
  let amountForgone ← claimStatus.getUnlockedAmountForgone.mapError .custom
  let tokens ← invokeTransfer rt world accounts.distributor distributor accounts.fromAccount
    accounts.toAccount claimStatus.unlockedAmountClaimed
  let totalAmountClaimed ← okOr
    (checkedAdd distributor.totalAmountClaimed claimStatus.unlockedAmountClaimed)
    (.custom .arithmeticError)
  let totalAmountForgone ← okOr (checkedAdd distributor.totalAmountForgone amountForgone)
    (.custom .arithmeticError)
  let settled ← okOr (checkedAdd totalAmountClaimed totalAmountForgone) (.custom .arithmeticError)
  require (settled ≤ distributor.maxTotalClaim) (.custom .exceededMaxClaim)
  return (((world.setTokens tokens).setClaimStatus accounts.claimant accounts.distributor
      claimStatus).setDistributor accounts.distributor
      (some { distributor with numNodesClaimed, totalAmountClaimed, totalAmountForgone }),
    [.newClaimEvent accounts.claimant currTs claimStatus.unlockedAmountClaimed amountForgone])

def newClaim (accounts : NewClaimAccounts) (args : NewClaimArgs) : Outcome := do
  let distributor ← accounts.tryAccounts rt signers world
  handleNewClaim rt clock world accounts distributor args

/-! ### `claim_locked.rs` -/

structure ClaimLockedAccounts where
  distributor : Pubkey
  fromAccount : Pubkey
  toAccount : Pubkey
  claimant : Pubkey
  deriving DecidableEq, Repr

/-- Unlike `new_claim`, the mint of the receiving account is left to SPL Token. -/
def ClaimLockedAccounts.tryAccounts (accounts : ClaimLockedAccounts) :
    Except ProgramError (MerkleDistributor × ClaimStatus) := do
  let distributor ← world.loadDistributor accounts.distributor
  let claimStatus ← okOr (world.claimStatuses accounts.claimant accounts.distributor)
    (.anchor .accountNotInitialized)
  let fromAccount ← world.loadToken accounts.fromAccount
  let toAccount ← world.loadToken accounts.toAccount
  requireSigner signers accounts.claimant
  requireAssociated rt accounts.fromAccount fromAccount distributor.mint accounts.distributor
  require (accounts.fromAccount = distributor.tokenVault) (.anchor .constraintAddress)
  require (toAccount.owner = accounts.claimant) (.anchor .constraintTokenOwner)
  require (accounts.claimant = toAccount.owner) (.custom .ownerMismatch)
  return (distributor, claimStatus)

/-- Seconds left in the lockup, computed for the log line with an unchecked subtraction. -/
def remainingSeconds (currTs endTs : Int64) : Except ProgramError Int64 :=
  if currTs < endTs then okOr (checkedSubI64 endTs currTs) .panicked else .ok 0

def handleClaimLocked (accounts : ClaimLockedAccounts) (distributor : MerkleDistributor)
    (claimStatus : ClaimStatus) : Outcome := do
  let currTs := clock.unixTimestamp
  require (distributor.clawedBack = false) (.custom .claimExpired)
  require (distributor.enableSlot ≤ clock.slot) (.custom .claimingIsNotStarted)
  let amount ← (claimStatus.amountWithdrawable currTs distributor.startTs
    distributor.endTs).mapError .custom
  require (amount > 0) (.custom .insufficientUnlockedTokens)
  let tokens ← invokeTransfer rt world accounts.distributor distributor accounts.fromAccount
    accounts.toAccount amount
  let lockedAmountWithdrawn ← okOr (checkedAdd claimStatus.lockedAmountWithdrawn amount)
    (.custom .arithmeticError)
  require (lockedAmountWithdrawn ≤ claimStatus.lockedAmount) (.custom .exceededMaxClaim)
  let totalAmountClaimed ← okOr (checkedAdd distributor.totalAmountClaimed amount)
    (.custom .arithmeticError)
  require (totalAmountClaimed ≤ distributor.maxTotalClaim) (.custom .exceededMaxClaim)
  let _ ← remainingSeconds currTs distributor.endTs
  return (((world.setTokens tokens).setClaimStatus accounts.claimant accounts.distributor
      { claimStatus with lockedAmountWithdrawn }).setDistributor accounts.distributor
      (some { distributor with totalAmountClaimed }),
    [.claimedEvent accounts.claimant amount])

def claimLocked (accounts : ClaimLockedAccounts) : Outcome := do
  let (distributor, claimStatus) ← accounts.tryAccounts rt signers world
  handleClaimLocked rt clock world accounts distributor claimStatus

/-! ### `set_root.rs` -/

def dfxMints : List Pubkey :=
  [⟨[9, 100, 244, 195, 99, 56, 78, 193, 244, 62, 49, 151, 49, 51, 36, 236, 79, 73, 123, 25, 255,
      142, 175, 1, 85, 120, 143, 92, 121, 142, 149, 56], rfl⟩,
    ⟨[9, 100, 244, 73, 79, 47, 215, 81, 165, 247, 239, 87, 110, 253, 242, 12, 22, 50, 252, 73,
      145, 18, 101, 83, 72, 45, 127, 170, 105, 152, 94, 180], rfl⟩]

/-- `u64::MAX`. -/
def u64Max : UInt64 := 18446744073709551615

structure SetRootAccounts where
  distributor : Pubkey
  tokenVault : Pubkey
  mint : Pubkey
  admin : Pubkey
  deriving DecidableEq, Repr

structure SetRootArgs where
  newRoot : Hash
  expectedOldRoot : Hash
  expectedNumNodesClaimed : UInt64
  newMaxTotalClaim : UInt64
  deriving DecidableEq, Repr

/-- Returns the distributor and the vault's balance. -/
def SetRootAccounts.tryAccounts (accounts : SetRootAccounts) :
    Except ProgramError (MerkleDistributor × UInt64) := do
  let distributor ← world.loadDistributor accounts.distributor
  let tokenVault ← world.loadToken accounts.tokenVault
  let _ ← okOr (world.tokens.supplies accounts.mint) (.anchor .accountNotInitialized)
  requireSigner signers accounts.admin
  require (accounts.tokenVault = distributor.tokenVault) (.anchor .constraintAddress)
  require (accounts.mint = distributor.mint) (.anchor .constraintAddress)
  require (accounts.admin = distributor.admin) (.custom .unauthorized)
  return (distributor, tokenVault.amount)

/-- The amount to burn. Both subtractions are unchecked in the source. -/
def validateSetRoot (distributor : MerkleDistributor) (vaultAmount : UInt64)
    (expectedOldRoot : Hash) (expectedNumNodesClaimed newMaxTotalClaim : UInt64) :
    Except ProgramError UInt64 := do
  require (distributor.mint ∈ dfxMints) (.custom .mintNotReRootable)
  require (distributor.clawedBack = false) (.custom .clawbackAlreadyClaimed)
  require (distributor.enableSlot = u64Max) (.custom .distributorNotPaused)
  require (distributor.root = expectedOldRoot) (.custom .rootMismatch)
  require (distributor.numNodesClaimed = expectedNumNodesClaimed) (.custom .claimCountMismatch)
  require (newMaxTotalClaim ≤ distributor.maxTotalClaim) (.custom .maxTotalClaimIncrease)
  let settled ← okOr (checkedAdd distributor.totalAmountClaimed distributor.totalAmountForgone)
    (.custom .arithmeticError)
  require (newMaxTotalClaim ≥ settled) (.custom .exceededMaxClaim)
  let outstanding ← okOr (checkedSub distributor.maxTotalClaim distributor.totalAmountClaimed)
    .panicked
  require (vaultAmount ≥ outstanding) (.custom .insufficientUnlockedTokens)
  okOr (checkedSub distributor.maxTotalClaim newMaxTotalClaim) .panicked

/-- The token side of a re-root: nothing is sent to SPL Token for a zero burn. -/
def burnExcess (accounts : SetRootAccounts) (distributor : MerkleDistributor)
    (burnAmount : UInt64) : Except ProgramError (Ledger Pubkey) :=
  if burnAmount > 0 then
    invokeBurn rt world accounts.distributor distributor accounts.tokenVault accounts.mint
      burnAmount
  else .ok world.tokens

def handleSetRoot (accounts : SetRootAccounts) (distributor : MerkleDistributor)
    (vaultAmount : UInt64) (args : SetRootArgs) : Outcome := do
  let burnAmount ← validateSetRoot distributor vaultAmount args.expectedOldRoot
    args.expectedNumNodesClaimed args.newMaxTotalClaim
  let tokens ← burnExcess rt world accounts distributor burnAmount
  return ((world.setTokens tokens).setDistributor accounts.distributor
      (some { distributor with root := args.newRoot, maxTotalClaim := args.newMaxTotalClaim }),
    [.setRootEvent accounts.distributor distributor.root args.newRoot distributor.maxTotalClaim
      args.newMaxTotalClaim burnAmount])

def setRoot (accounts : SetRootAccounts) (args : SetRootArgs) : Outcome := do
  let (distributor, vaultAmount) ← accounts.tryAccounts signers world
  handleSetRoot rt world accounts distributor vaultAmount args

/-! ### `clawback.rs` -/

structure ClawbackAccounts where
  distributor : Pubkey
  fromAccount : Pubkey
  toAccount : Pubkey
  claimant : Pubkey
  deriving DecidableEq, Repr

/-- Returns the distributor and the vault's balance. Any signer may claw back. -/
def ClawbackAccounts.tryAccounts (accounts : ClawbackAccounts) :
    Except ProgramError (MerkleDistributor × UInt64) := do
  let distributor ← world.loadDistributor accounts.distributor
  let fromAccount ← world.loadToken accounts.fromAccount
  let _ ← world.loadToken accounts.toAccount
  requireSigner signers accounts.claimant
  requireAssociated rt accounts.fromAccount fromAccount distributor.mint accounts.distributor
  require (accounts.fromAccount = distributor.tokenVault) (.anchor .constraintAddress)
  require (accounts.toAccount = distributor.clawbackReceiver) (.anchor .constraintAddress)
  return (distributor, fromAccount.amount)

def handleClawback (accounts : ClawbackAccounts) (distributor : MerkleDistributor)
    (fromAmount : UInt64) : Outcome := do
  require (distributor.clawedBack = false) (.custom .clawbackAlreadyClaimed)
  require (¬ clock.unixTimestamp < distributor.clawbackStartTs) (.custom .clawbackBeforeStart)
  let tokens ← invokeTransfer rt world accounts.distributor distributor accounts.fromAccount
    accounts.toAccount fromAmount
  return ((world.setTokens tokens).setDistributor accounts.distributor
    (some { distributor with clawedBack := true }), [])

def clawback (accounts : ClawbackAccounts) : Outcome := do
  let (distributor, fromAmount) ← accounts.tryAccounts rt signers world
  handleClawback rt clock world accounts distributor fromAmount

/-! ### `close_distributor.rs` and `close_claim_status.rs` -/

structure CloseDistributorAccounts where
  distributor : Pubkey
  tokenVault : Pubkey
  admin : Pubkey
  destinationTokenAccount : Pubkey
  deriving DecidableEq, Repr

/-- Returns the distributor and the vault's balance. -/
def CloseDistributorAccounts.tryAccounts (accounts : CloseDistributorAccounts) :
    Except ProgramError (MerkleDistributor × UInt64) := do
  let distributor ← world.loadDistributor accounts.distributor
  let tokenVault ← world.loadToken accounts.tokenVault
  requireSigner signers accounts.admin
  let _ ← world.loadToken accounts.destinationTokenAccount
  require (distributor.admin = accounts.admin) (.anchor .constraintHasOne)
  require (distributor.tokenVault = accounts.tokenVault) (.anchor .constraintHasOne)
  require (distributor.closable = true) (.custom .cannotCloseDistributor)
  return (distributor, tokenVault.amount)

/-- The `close` constraint removes the account after the handler returned. -/
def handleCloseDistributor (accounts : CloseDistributorAccounts)
    (distributor : MerkleDistributor) (vaultAmount : UInt64) : Outcome := do
  let tokens ← invokeTransfer rt world accounts.distributor distributor accounts.tokenVault
    accounts.destinationTokenAccount vaultAmount
  return ((world.setTokens tokens).setDistributor accounts.distributor none, [])

def closeDistributor (accounts : CloseDistributorAccounts) : Outcome := do
  let (distributor, vaultAmount) ← accounts.tryAccounts signers world
  handleCloseDistributor rt world accounts distributor vaultAmount

/-- `claimStatus` gives the seeds under which the account is stored. -/
structure CloseClaimStatusAccounts where
  claimStatus : Pubkey × Pubkey
  claimant : Pubkey
  admin : Pubkey
  distributor : Pubkey
  deriving DecidableEq, Repr

def CloseClaimStatusAccounts.tryAccounts (accounts : CloseClaimStatusAccounts) :
    Except ProgramError Unit := do
  let claimStatus ← okOr (world.claimStatuses accounts.claimStatus.1 accounts.claimStatus.2)
    (.anchor .accountNotInitialized)
  requireSigner signers accounts.admin
  let distributor ← world.loadDistributor accounts.distributor
  require (claimStatus.claimant = accounts.claimant) (.anchor .constraintHasOne)
  require (claimStatus.distributor = accounts.distributor) (.anchor .constraintHasOne)
  require (claimStatus.closable = true) (.custom .cannotCloseClaimStatus)
  require (distributor.admin = accounts.admin) (.anchor .constraintHasOne)

/-- The handler is `panic!()`. -/
def handleCloseStatus : Outcome := .error .panicked

def closeClaimStatus (accounts : CloseClaimStatusAccounts) : Outcome := do
  accounts.tryAccounts signers world
  handleCloseStatus

/-! ### The administrative setters -/

/-- A distributor and its signing admin; the setters differ in the failure they report. -/
structure AdminAccounts where
  distributor : Pubkey
  admin : Pubkey
  deriving DecidableEq, Repr

def AdminAccounts.tryAccounts (accounts : AdminAccounts) (mismatch : ProgramError) :
    Except ProgramError MerkleDistributor := do
  let distributor ← world.loadDistributor accounts.distributor
  requireSigner signers accounts.admin
  require (accounts.admin = distributor.admin) mismatch
  return distributor

/-- `set_enable_slot.rs`. -/
def setEnableSlot (accounts : AdminAccounts) (enableSlot : UInt64) : Outcome := do
  let distributor ← accounts.tryAccounts signers world (.anchor .constraintHasOne)
  return (world.setDistributor accounts.distributor (some { distributor with enableSlot }), [])

/-- `set_admin.rs`. -/
def setAdmin (accounts : AdminAccounts) (newAdmin : Pubkey) : Outcome := do
  let distributor ← accounts.tryAccounts signers world (.custom .unauthorized)
  require (accounts.admin ≠ newAdmin) (.custom .sameAdmin)
  return (world.setDistributor accounts.distributor
    (some { distributor with admin := newAdmin }), [])

def validateClawbackStartTs (distributor : MerkleDistributor) (clawbackStartTs currTs : Int64) :
    Except ProgramError Unit := do
  require (distributor.clawedBack = false) (.custom .clawbackAlreadyClaimed)
  require (clawbackStartTs > currTs) (.custom .timestampsNotInFuture)
  let earliest ← okOr (checkedAddI64 distributor.endTs secondsPerDay) (.custom .arithmeticError)
  require (clawbackStartTs ≥ earliest) (.custom .insufficientClawbackDelay)

/-- `set_clawback_start_ts.rs`. -/
def setClawbackStartTs (accounts : AdminAccounts) (clawbackStartTs : Int64) : Outcome := do
  let distributor ← accounts.tryAccounts signers world (.custom .unauthorized)
  validateClawbackStartTs distributor clawbackStartTs clock.unixTimestamp
  return (world.setDistributor accounts.distributor
    (some { distributor with clawbackStartTs }), [])

/-- `set_clawback_receiver.rs`, which also loads the new receiver. -/
def setClawbackReceiver (accounts : AdminAccounts) (newClawbackAccount : Pubkey) : Outcome := do
  let distributor ← world.loadDistributor accounts.distributor
  let newReceiver ← world.loadToken newClawbackAccount
  requireSigner signers accounts.admin
  require (newReceiver.mint = distributor.mint) (.anchor .constraintTokenMint)
  require (accounts.admin = distributor.admin) (.custom .unauthorized)
  require (distributor.clawbackReceiver ≠ newClawbackAccount) (.custom .sameClawbackReceiver)
  return (world.setDistributor accounts.distributor
    (some { distributor with clawbackReceiver := newClawbackAccount }), [])

end Instructions

end MultiDistributor.Source

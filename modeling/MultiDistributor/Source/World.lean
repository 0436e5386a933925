import MultiDistributor.Lib.TokenLedger
import MultiDistributor.Source.ClaimStatus

/-!
# Accounts of the program and of the runtime around it

`state/merkle_distributor.rs`, `state/claimed_event.rs`, and the parts of the
Solana runtime, Anchor and SPL Token that the instructions rely on. Distributors
live at arbitrary addresses. A claim status is stored under the two seeds of its
address, so the derivation of that address is taken to be injective; nothing is
assumed of the derivation of distributor and associated token addresses.

Rent, the payer's lamports and the log lines of `msg!` are not represented.
-/
namespace MultiDistributor.Source
open Lib.Checked Lib.TokenLedger

structure MerkleDistributor where
  bump : UInt8
  version : UInt64
  root : Hash
  mint : Pubkey
  tokenVault : Pubkey
  maxTotalClaim : UInt64
  maxNumNodes : UInt64
  totalAmountClaimed : UInt64
  totalAmountForgone : UInt64
  numNodesClaimed : UInt64
  startTs : Int64
  endTs : Int64
  clawbackStartTs : Int64
  clawbackReceiver : Pubkey
  admin : Pubkey
  clawedBack : Bool
  enableSlot : UInt64
  closable : Bool
  deriving DecidableEq, Repr

inductive Event where
  | newClaimEvent (claimant : Pubkey) (timestamp : Int64) (amountClaimed amountForgone : UInt64)
  | claimedEvent (claimant : Pubkey) (amount : UInt64)
  | setRootEvent (distributor : Pubkey) (oldRoot newRoot : Hash)
      (oldMaxTotalClaim newMaxTotalClaim burned : UInt64)
  deriving DecidableEq, Repr

structure Clock where
  slot : UInt64
  unixTimestamp : Int64
  deriving DecidableEq, Repr

/-- What the program is run with: SHA-256, the derivation of program addresses from
the seeds `"MerkleDistributor"`, mint and version, the canonical bump of those seeds,
and the associated token address of an owner and a mint. -/
structure Runtime where
  hash : HashFunction
  createProgramAddress : Pubkey → UInt64 → UInt8 → Pubkey
  findBump : Pubkey → UInt64 → UInt8
  associatedTokenAddress : Pubkey → Pubkey → Pubkey

def Runtime.distributorAddress (rt : Runtime) (mint : Pubkey) (version : UInt64) : Pubkey :=
  rt.createProgramAddress mint version (rt.findBump mint version)

/-- Failures of the account validation that Anchor generates. -/
inductive AnchorError where
  | accountNotInitialized | accountNotSigner | accountAlreadyInUse | constraintSeeds
  | constraintAssociated | constraintHasOne | constraintAddress | constraintTokenOwner
  | constraintTokenMint
  deriving DecidableEq, Repr

inductive ProgramError where
  | custom (code : ErrorCode)
  | anchor (failure : AnchorError)
  | token (failure : TokenError)
  | privilegeEscalation
  | panicked
  deriving DecidableEq, Repr

structure World where
  distributors : Pubkey → Option MerkleDistributor
  /-- Indexed by claimant and distributor, the seeds of the account's address. -/
  claimStatuses : Pubkey → Pubkey → Option ClaimStatus
  tokens : Ledger Pubkey

def World.setDistributor (world : World) (key : Pubkey) (value : Option MerkleDistributor) :
    World :=
  { world with distributors := fun k => if k = key then value else world.distributors k }

def World.setClaimStatus (world : World) (claimant distributor : Pubkey) (value : ClaimStatus) :
    World :=
  { world with claimStatuses := fun c d =>
      if c = claimant ∧ d = distributor then some value else world.claimStatuses c d }

def World.setTokens (world : World) (tokens : Ledger Pubkey) : World := { world with tokens }

section Updates
variable (world : World) (key claimant : Pubkey) (value : Option MerkleDistributor)
  (status : ClaimStatus) (ledger : Ledger Pubkey)

@[simp] theorem setDistributor_distributors (k : Pubkey) :
    (world.setDistributor key value).distributors k =
      if k = key then value else world.distributors k := rfl

@[simp] theorem setDistributor_claimStatuses :
    (world.setDistributor key value).claimStatuses = world.claimStatuses := rfl

@[simp] theorem setDistributor_tokens : (world.setDistributor key value).tokens = world.tokens :=
  rfl

@[simp] theorem setClaimStatus_distributors :
    (world.setClaimStatus claimant key status).distributors = world.distributors := rfl

@[simp] theorem setClaimStatus_claimStatuses (c d : Pubkey) :
    (world.setClaimStatus claimant key status).claimStatuses c d =
      if c = claimant ∧ d = key then some status else world.claimStatuses c d := rfl

@[simp] theorem setClaimStatus_tokens :
    (world.setClaimStatus claimant key status).tokens = world.tokens := rfl

@[simp] theorem setTokens_distributors :
    (world.setTokens ledger).distributors = world.distributors := rfl

@[simp] theorem setTokens_claimStatuses :
    (world.setTokens ledger).claimStatuses = world.claimStatuses := rfl

@[simp] theorem setTokens_tokens : (world.setTokens ledger).tokens = ledger := rfl

end Updates

/-! ### Account validation shared by the instructions -/

/-- `Account<'info, MerkleDistributor>`. -/
def World.loadDistributor (world : World) (key : Pubkey) :
    Except ProgramError MerkleDistributor :=
  okOr (world.distributors key) (.anchor .accountNotInitialized)

/-- `Account<'info, TokenAccount>`. -/
def World.loadToken (world : World) (key : Pubkey) :
    Except ProgramError (TokenAccount Pubkey) :=
  okOr (world.tokens.accounts key) (.anchor .accountNotInitialized)

/-- `Signer<'info>`. -/
def requireSigner (signers : List Pubkey) (key : Pubkey) : Except ProgramError Unit :=
  require (key ∈ signers) (.anchor .accountNotSigner)

/-- `associated_token::mint = mint, associated_token::authority = authority`: the owner
recorded in the account and its address are checked, the recorded mint is not. -/
def requireAssociated (rt : Runtime) (key : Pubkey) (account : TokenAccount Pubkey)
    (mint authority : Pubkey) : Except ProgramError Unit := do
  require (account.owner = authority) (.anchor .constraintTokenOwner)
  require (key = rt.associatedTokenAddress authority mint) (.anchor .constraintAssociated)

/-- A token transfer signed by the distributor through its seeds. The runtime derives the
signing address from the mint, version and bump stored in the account. -/
def invokeTransfer (rt : Runtime) (world : World) (key : Pubkey) (distributor : MerkleDistributor)
    (source destination : Pubkey) (amount : UInt64) : Except ProgramError (Ledger Pubkey) := do
  require (rt.createProgramAddress distributor.mint distributor.version distributor.bump = key)
    .privilegeEscalation
  (world.tokens.transfer source destination key amount).mapError .token

/-- A burn signed by the distributor through its seeds. -/
def invokeBurn (rt : Runtime) (world : World) (key : Pubkey) (distributor : MerkleDistributor)
    (source mint : Pubkey) (amount : UInt64) : Except ProgramError (Ledger Pubkey) := do
  require (rt.createProgramAddress distributor.mint distributor.version distributor.bump = key)
    .privilegeEscalation
  (world.tokens.burn source mint key amount).mapError .token

end MultiDistributor.Source

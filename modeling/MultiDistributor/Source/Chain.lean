import MultiDistributor.Source.Program

/-!
# The programs around the distributor

`programs/token-burner/src/lib.rs` and `cpi-example/programs/bad-debt-example/src/lib.rs`,
next to the distributor and the token program on one chain. Each has an address derived
from its own seeds, for which nobody else can sign: the burner owns token accounts whose
balance anyone may burn, and the bad-debt authority claims from a distributor through a
call signed with its seeds.

Rent is not represented, so `claim_dfx` does not pre-fund the claim status. Token accounts are
never frozen here and only their owners close them; `GuardedChain` lifts this.
-/
namespace MultiDistributor.Source
open Lib.Checked Lib.TokenLedger Lib.Replay

/-- The runtime together with the derived addresses of the two other programs, and the bump
of the configuration account. Addresses derived by different programs are taken to be
different. -/
structure Programs where
  rt : Runtime
  burner : Pubkey
  badDebtAuthority : Pubkey
  configBump : UInt8
  burner_apart : ∀ mint version bump, rt.createProgramAddress mint version bump ≠ burner
  badDebt_apart : ∀ mint version bump, rt.createProgramAddress mint version bump ≠ badDebtAuthority
  distinct : burner ≠ badDebtAuthority

/-- `BurnEvent` of the burner and the events of the distributor. -/
inductive ChainEvent where
  | distributor (event : Event)
  | burn (mint tokenAccount : Pubkey) (amount : UInt64)
  deriving DecidableEq, Repr

/-- `ErrorCode::Unauthorized` of the example program next to all other failures. -/
inductive ChainError where
  | program (failure : ProgramError)
  | unauthorized
  deriving DecidableEq, Repr

/-- `Config` of the example program. -/
structure Config where
  admin : Pubkey
  bump : UInt8
  deriving DecidableEq, Repr

/-- The accounts of all programs. The example program has one configuration account. -/
structure Chain where
  world : World
  config : Option Config

abbrev ChainOutcome := Except ChainError (Chain × List ChainEvent)

section Instructions
variable (programs : Programs) (signers : List Pubkey) (clock : Clock) (chain : Chain)

def Chain.loadToken (chain : Chain) (key : Pubkey) : Except ChainError (TokenAccount Pubkey) :=
  (chain.world.loadToken key).mapError .program

/-! ### `token_burner::burn` -/

structure BurnAllAccounts where
  burner : Pubkey
  mint : Pubkey
  tokenAccount : Pubkey
  deriving DecidableEq, Repr

def BurnAllAccounts.tryAccounts (accounts : BurnAllAccounts) :
    Except ChainError (TokenAccount Pubkey) := do
  let _ ← okOr (chain.world.tokens.supplies accounts.mint)
    (.program (.anchor .accountNotInitialized))
  let tokenAccount ← chain.loadToken accounts.tokenAccount
  require (accounts.burner = programs.burner) (.program (.anchor .constraintSeeds))
  require (tokenAccount.owner = accounts.burner) (.program (.anchor .constraintTokenOwner))
  require (tokenAccount.mint = accounts.mint) (.program (.anchor .constraintTokenMint))
  return tokenAccount

/-- Burns the full balance; a zero balance is not an error. The burner signs with its seeds. -/
def TokenBurner.burn (accounts : BurnAllAccounts) : ChainOutcome := do
  let tokenAccount ← accounts.tryAccounts programs chain
  let amount := tokenAccount.amount
  if amount = 0 then
    return (chain, [])
  else
    let tokens ← (chain.world.tokens.burn accounts.tokenAccount accounts.mint accounts.burner
      amount).mapError fun failure => .program (.token failure)
    return ({ chain with world := chain.world.setTokens tokens },
      [.burn accounts.mint accounts.tokenAccount amount])

/-! ### `bad_debt_example` -/

/-- `initialize`: the account is created once, by whoever comes first. -/
def BadDebtExample.initializeConfig (admin : Pubkey) : ChainOutcome := do
  (requireSigner signers admin).mapError .program
  require (chain.config = none) (.program (.anchor .accountAlreadyInUse))
  return ({ chain with config := some { admin, bump := programs.configBump } }, [])

structure ClaimDfxAccounts where
  payer : Pubkey
  distributor : Pubkey
  fromAccount : Pubkey
  toAccount : Pubkey
  badDebtAuthority : Pubkey
  deriving DecidableEq, Repr

def ClaimDfxAccounts.tryAccounts (accounts : ClaimDfxAccounts) : Except ChainError Unit := do
  (requireSigner signers accounts.payer).mapError .program
  let distributor ← (chain.world.loadDistributor accounts.distributor).mapError .program
  let _ ← chain.loadToken accounts.fromAccount
  let toAccount ← chain.loadToken accounts.toAccount
  require (accounts.fromAccount = distributor.tokenVault) (.program (.anchor .constraintAddress))
  require (toAccount.owner = accounts.badDebtAuthority)
    (.program (.anchor .constraintTokenOwner))
  require (toAccount.mint = distributor.mint) (.program (.anchor .constraintTokenMint))
  require (accounts.badDebtAuthority = programs.badDebtAuthority)
    (.program (.anchor .constraintSeeds))

/-- The accounts that the call to `new_claim` is made with. -/
def ClaimDfxAccounts.newClaim (accounts : ClaimDfxAccounts) : NewClaimAccounts where
  distributor := accounts.distributor
  fromAccount := accounts.fromAccount
  toAccount := accounts.toAccount
  claimant := accounts.badDebtAuthority

/-- Calls `new_claim` with nothing locked; the authority signs with its seeds. -/
def BadDebtExample.claimDfx (accounts : ClaimDfxAccounts) (amount : UInt64)
    (proof : List Hash) : ChainOutcome := do
  accounts.tryAccounts programs signers chain
  let (world, events) ← (newClaim programs.rt [programs.badDebtAuthority] clock chain.world
    accounts.newClaim { amountUnlocked := amount, amountLocked := 0, proof }).mapError .program
  return ({ chain with world }, events.map .distributor)

structure WithdrawAccounts where
  admin : Pubkey
  badDebtAuthority : Pubkey
  fromAccount : Pubkey
  destination : Pubkey
  deriving DecidableEq, Repr

def WithdrawAccounts.tryAccounts (accounts : WithdrawAccounts) :
    Except ChainError (TokenAccount Pubkey) := do
  let config ← okOr chain.config (.program (.anchor .accountNotInitialized))
  (requireSigner signers accounts.admin).mapError .program
  let fromAccount ← chain.loadToken accounts.fromAccount
  let destination ← chain.loadToken accounts.destination
  require (config.bump = programs.configBump) (.program (.anchor .constraintSeeds))
  require (config.admin = accounts.admin) .unauthorized
  require (accounts.badDebtAuthority = programs.badDebtAuthority)
    (.program (.anchor .constraintSeeds))
  require (fromAccount.owner = accounts.badDebtAuthority) (.program (.anchor .constraintTokenOwner))
  require (destination.mint = fromAccount.mint) (.program (.anchor .constraintTokenMint))
  return fromAccount

/-- Moves an amount, or everything for `u64::MAX`; the authority signs with its seeds. -/
def BadDebtExample.withdraw (accounts : WithdrawAccounts) (amount : UInt64) : ChainOutcome := do
  let fromAccount ← accounts.tryAccounts programs signers chain
  let amount := if amount = u64Max then fromAccount.amount else amount
  let tokens ← (chain.world.tokens.transfer accounts.fromAccount accounts.destination
    accounts.badDebtAuthority amount).mapError fun failure => .program (.token failure)
  return ({ chain with world := chain.world.setTokens tokens }, [])

end Instructions

/-! ### Transactions of the chain -/

inductive ChainAction where
  | call (action : Action)
  | burn (accounts : BurnAllAccounts)
  | initializeConfig (admin : Pubkey)
  | claimDfx (accounts : ClaimDfxAccounts) (amount : UInt64) (proof : List Hash)
  | withdraw (accounts : WithdrawAccounts) (amount : UInt64)
  deriving Repr

structure ChainTransaction where
  signers : List Pubkey
  clock : Clock
  action : ChainAction
  deriving Repr

def processChain (programs : Programs) (chain : Chain) (tx : ChainTransaction) : ChainOutcome :=
  match tx.action with
  | .call action => do
      let (world, events) ← (process programs.rt chain.world
        { signers := tx.signers, clock := tx.clock, action }).mapError .program
      return ({ chain with world }, events.map .distributor)
  | .burn accounts => TokenBurner.burn programs chain accounts
  | .initializeConfig admin => BadDebtExample.initializeConfig programs tx.signers chain admin
  | .claimDfx accounts amount proof =>
      BadDebtExample.claimDfx programs tx.signers tx.clock chain accounts amount proof
  | .withdraw accounts amount =>
      BadDebtExample.withdraw programs tx.signers chain accounts amount

/-- A failed transaction changes nothing. -/
def applyChain (programs : Programs) (chain : Chain) (tx : ChainTransaction) : Chain :=
  match processChain programs chain tx with
  | .ok (after, _) => after
  | .error _ => chain

abbrev runChain (programs : Programs) (start : Chain) (txs : List ChainTransaction) : Chain :=
  replay (applyChain programs) start txs

/-- No derived address of the three programs signs a transaction of the outside. -/
structure ChainAdmissible (programs : Programs) (tx : ChainTransaction) : Prop where
  distributors : ∀ mint version bump,
    programs.rt.createProgramAddress mint version bump ∉ tx.signers
  burner : programs.burner ∉ tx.signers
  badDebtAuthority : programs.badDebtAuthority ∉ tx.signers

/-- Reached from a chain on which neither the distributor nor the example was used. -/
def ChainReachable (programs : Programs) (chain : Chain) : Prop :=
  ∃ start txs, Genesis start ∧ (∀ tx ∈ txs, ChainAdmissible programs tx) ∧
    chain = runChain programs { world := start, config := none } txs

end MultiDistributor.Source

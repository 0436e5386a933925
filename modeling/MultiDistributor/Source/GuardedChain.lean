import MultiDistributor.Lib.TokenAuthorities
import MultiDistributor.Source.Chain

/-!
# The chain under the authorities of the token program

Token accounts of the chain can be frozen by the freeze authority of their mint and closed by
a close authority that an earlier owner left behind. The programs do not look at either. They
are refused by the token program when a token account they move or burn tokens of is frozen.

The token accounts are those of the original SPL Token program, without native ones. The
distributor and the bad-debt example accept no others; the burner would also accept accounts
of Token-2022, which are not represented.
-/
namespace MultiDistributor.Source
open Lib.Checked Lib.TokenLedger Lib.Replay

structure GuardedChain where
  chain : Chain
  authorities : Authorities Pubkey

abbrev GuardedChain.tokens (state : GuardedChain) : Ledger Pubkey := state.chain.world.tokens

/-- Token accounts that the handlers pass to the token program. A re-root that leaves the cap
as it is burns nothing. -/
def Instruction.thawed (world : World) : Instruction → List Pubkey
  | .newClaim accounts _ => [accounts.fromAccount, accounts.toAccount]
  | .claimLocked accounts => [accounts.fromAccount, accounts.toAccount]
  | .clawback accounts => [accounts.fromAccount, accounts.toAccount]
  | .closeDistributor accounts => [accounts.tokenVault, accounts.destinationTokenAccount]
  | .setRoot accounts args =>
      match world.distributors accounts.distributor with
      | some distributor =>
          if args.newMaxTotalClaim < distributor.maxTotalClaim then [accounts.tokenVault] else []
      | none => []
  | .newDistributor _ _ => []
  | .closeClaimStatus _ => []
  | .setEnableSlot _ _ => []
  | .setClawbackReceiver _ _ => []
  | .setClawbackStartTs _ _ => []
  | .setAdmin _ _ => []

/-- What the token program checks of an action beside the ledger. The burner does not call it
for an empty account. -/
def GuardedChain.check (state : GuardedChain) : ChainAction → Except AuthorityError Unit
  | .call (.token operation) => state.authorities.check operation
  | .call (.invoke instruction) =>
      state.authorities.requireThawed (instruction.thawed state.chain.world)
  | .burn accounts =>
      state.authorities.requireThawed
        (if state.tokens.balance accounts.tokenAccount = 0 then [] else [accounts.tokenAccount])
  | .initializeConfig _ => .ok ()
  | .claimDfx accounts _ _ =>
      state.authorities.requireThawed [accounts.fromAccount, accounts.toAccount]
  | .withdraw accounts _ =>
      state.authorities.requireThawed [accounts.fromAccount, accounts.destination]

def ChainAction.authoritiesAfter (authorities : Authorities Pubkey) :
    ChainAction → Authorities Pubkey
  | .call (.token operation) => authorities.after operation
  | _ => authorities

inductive GuardedAction where
  | chain (action : ChainAction)
  | authority (operation : AuthorityOperation Pubkey)
  deriving Repr

structure GuardedTransaction where
  signers : List Pubkey
  clock : Clock
  action : GuardedAction
  deriving Repr

/-- The transaction of the chain with this action. -/
def GuardedTransaction.sending (tx : GuardedTransaction) (action : ChainAction) :
    ChainTransaction where
  signers := tx.signers
  clock := tx.clock
  action := action

inductive GuardedError where
  | chain (failure : ChainError)
  | authority (failure : AuthorityError)
  deriving DecidableEq, Repr

def processGuarded (programs : Programs) (state : GuardedChain) (tx : GuardedTransaction) :
    Except GuardedError (GuardedChain × List ChainEvent) :=
  match tx.action with
  | .chain action => do
      (state.check action).mapError .authority
      let (chain, events) ← (processChain programs state.chain (tx.sending action)).mapError .chain
      return ({ chain, authorities := action.authoritiesAfter state.authorities }, events)
  | .authority operation => do
      let (tokens, authorities) ← (execAuthority tx.signers state.tokens state.authorities
        operation).mapError .authority
      return ({ chain := { state.chain with world := state.chain.world.setTokens tokens }
                authorities }, [])

/-- A failed transaction changes nothing. -/
def applyGuarded (programs : Programs) (state : GuardedChain) (tx : GuardedTransaction) :
    GuardedChain :=
  match processGuarded programs state tx with
  | .ok (after, _) => after
  | .error _ => state

abbrev runGuarded (programs : Programs) (start : GuardedChain) (txs : List GuardedTransaction) :
    GuardedChain :=
  replay (applyGuarded programs) start txs

/-- No derived address of the three programs signs a transaction of the outside. -/
def GuardedAdmissible (programs : Programs) (tx : GuardedTransaction) : Prop :=
  ∀ action, ChainAdmissible programs (tx.sending action)

/-- Reached from a chain on which neither the distributor nor the example was used, under any
authorities. -/
def GuardedReachable (programs : Programs) (state : GuardedChain) : Prop :=
  ∃ start authorities txs, Genesis start ∧ (∀ tx ∈ txs, GuardedAdmissible programs tx) ∧
    state = runGuarded programs { chain := { world := start, config := none }, authorities } txs

end MultiDistributor.Source

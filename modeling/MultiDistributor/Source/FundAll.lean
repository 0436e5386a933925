import MultiDistributor.Lib.InFlight
import MultiDistributor.Source.CreateMerkleTree
import MultiDistributor.Source.Program

/-!
# Funding the vault of one tree

One pass of the loop of `process_fund_all` (`cli/src/bin/instructions/process_fund_all.rs`)
over a tree file: the distributor is read, then its vault, and the deficit is sent without
waiting for the transfer to be confirmed. The chain moves on between these steps, so the
pass is a machine whose events are its own steps, the transactions of others, and the
landing or loss of a transfer it has sent. Runs follow one another; one that is started
anew forgets what it has read. Reading the directory, the priority fee and the log lines
are left out.
-/
namespace MultiDistributor.Source
open Lib.Checked Lib.TokenLedger Lib.InFlight

/-- The tree file at hand, and the mint and the wallet of the command line. -/
structure FundAll where
  mint : Pubkey
  keypair : Pubkey
  merkleTree : AirdropMerkleTree

def FundAll.distributorPubkey (rt : Runtime) (fund : FundAll) : Pubkey :=
  rt.distributorAddress fund.mint fund.merkleTree.airdropVersion

def FundAll.tokenVault (rt : Runtime) (fund : FundAll) : Pubkey :=
  rt.associatedTokenAddress (fund.distributorPubkey rt) fund.mint

def FundAll.sourceVault (rt : Runtime) (fund : FundAll) : Pubkey :=
  rt.associatedTokenAddress fund.keypair fund.mint

/-- The first read: what the vault should hold, or nothing for a clawed-back distributor. -/
def FundAll.readDistributor (rt : Runtime) (fund : FundAll) (world : World) :
    Except CliFailure (Option UInt64) := do
  let distributorState ← okOr (world.distributors (fund.distributorPubkey rt))
    (.panic .unwrapNone)
  if distributorState.clawedBack then return none
  let target ← okOr (checkedSub fund.merkleTree.maxTotalClaim distributorState.totalAmountClaimed)
    (.message "total_amount_claimed exceeds max_total_claim")
  return some target

/-- The second read: what is missing in the vault, if anything is. -/
def FundAll.readVault (rt : Runtime) (fund : FundAll) (world : World) (target : UInt64) :
    Except CliFailure (Option UInt64) := do
  let tokenVaultState ← okOr (world.tokens.accounts (fund.tokenVault rt))
    (.panic .unwrapNone)
  if tokenVaultState.amount ≥ target then return none
  let fundAmount ← okOr (checkedSub target tokenVaultState.amount) (.panic .arithmeticOverflow)
  return some fundAmount

/-- The transfer that is sent, at the time it is executed. -/
def FundAll.transferTx (rt : Runtime) (fund : FundAll) (clock : Clock) (fundAmount : UInt64) :
    Transaction where
  signers := [fund.keypair]
  clock := clock
  action := .token (.transfer (fund.sourceVault rt) (fund.tokenVault rt) fund.keypair fundAmount)

/-- Where the command is with the tree. -/
inductive FundPhase where
  | ready
  | targeted (target : UInt64)
  | failed (reason : CliFailure)
  deriving DecidableEq, Repr

structure FundState where
  world : World
  phase : FundPhase
  runs : List (Transfer UInt64)

inductive FundEvent where
  | chain (tx : Transaction)
  | readDistributor
  | readVault
  | land (run : Nat) (clock : Clock)
  | drop (run : Nat)

/-- The state after the first read of a run. -/
def FundState.afterDistributor (state : FundState) :
    Except CliFailure (Option UInt64) → FundState
  | .ok (some target) => { state with phase := .targeted target }
  | .ok none => { state with phase := .ready }
  | .error reason => { state with phase := .failed reason }

/-- The state after the second read, with which a run ends. -/
def FundState.afterVault (state : FundState) : Except CliFailure (Option UInt64) → FundState
  | .ok (some fundAmount) =>
      { state with phase := .ready, runs := state.runs ++ [.pending fundAmount] }
  | .ok none => { state with phase := .ready, runs := state.runs ++ [.unneeded] }
  | .error reason => { state with phase := .failed reason }

/-- A transfer that fails on arrival stays as it was, and may still be dropped. -/
def fundStep (rt : Runtime) (fund : FundAll) (state : FundState) : FundEvent → FundState
  | .chain tx => { state with world := apply rt state.world tx }
  | .readDistributor => state.afterDistributor (fund.readDistributor rt state.world)
  | .readVault =>
      match state.phase with
      | .targeted target => state.afterVault (fund.readVault rt state.world target)
      | _ => state
  | .land run clock =>
      match state.runs[run]? with
      | some (.pending fundAmount) =>
          match process rt state.world (fund.transferTx rt clock fundAmount) with
          | .ok (after, _) =>
              { state with world := after, runs := state.runs.set run (.landed fundAmount) }
          | .error _ => state
      | _ => state
  | .drop run =>
      match state.runs[run]? with
      | some (.pending fundAmount) =>
          { state with runs := state.runs.set run (.dropped fundAmount) }
      | _ => state

end MultiDistributor.Source

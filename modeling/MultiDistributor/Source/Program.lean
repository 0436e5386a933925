import MultiDistributor.Lib.Replay
import MultiDistributor.Source.Instructions

/-!
# Transactions and runs

The dispatcher of `lib.rs` together with the token operations that other parties
send. A transaction carries its signers and the clock it is executed at; a failed
transaction changes nothing. The only restriction on a run is that nobody but the
program signs for an address derived from the program's seeds.
-/
namespace MultiDistributor.Source
open Lib.Checked Lib.TokenLedger Lib.Replay

inductive Instruction where
  | newDistributor (accounts : NewDistributorAccounts) (args : NewDistributorArgs)
  | closeDistributor (accounts : CloseDistributorAccounts)
  | closeClaimStatus (accounts : CloseClaimStatusAccounts)
  | setEnableSlot (accounts : AdminAccounts) (enableSlot : UInt64)
  | setRoot (accounts : SetRootAccounts) (args : SetRootArgs)
  | newClaim (accounts : NewClaimAccounts) (args : NewClaimArgs)
  | claimLocked (accounts : ClaimLockedAccounts)
  | clawback (accounts : ClawbackAccounts)
  | setClawbackReceiver (accounts : AdminAccounts) (newClawbackAccount : Pubkey)
  | setClawbackStartTs (accounts : AdminAccounts) (clawbackStartTs : Int64)
  | setAdmin (accounts : AdminAccounts) (newAdmin : Pubkey)
  deriving Repr

/-- The distributor account an instruction is about. -/
def Instruction.target : Instruction → Pubkey
  | .newDistributor accounts _ => accounts.distributor
  | .closeDistributor accounts => accounts.distributor
  | .closeClaimStatus accounts => accounts.distributor
  | .setEnableSlot accounts _ => accounts.distributor
  | .setRoot accounts _ => accounts.distributor
  | .newClaim accounts _ => accounts.distributor
  | .claimLocked accounts => accounts.distributor
  | .clawback accounts => accounts.distributor
  | .setClawbackReceiver accounts _ => accounts.distributor
  | .setClawbackStartTs accounts _ => accounts.distributor
  | .setAdmin accounts _ => accounts.distributor

inductive Action where
  | invoke (instruction : Instruction)
  | token (operation : Operation Pubkey)
  deriving Repr

structure Transaction where
  signers : List Pubkey
  clock : Clock
  action : Action
  deriving Repr

def dispatch (rt : Runtime) (signers : List Pubkey) (clock : Clock) (world : World) :
    Instruction → Outcome
  | .newDistributor accounts args => newDistributor rt signers clock world accounts args
  | .closeDistributor accounts => closeDistributor rt signers world accounts
  | .closeClaimStatus accounts => closeClaimStatus signers world accounts
  | .setEnableSlot accounts enableSlot => setEnableSlot signers world accounts enableSlot
  | .setRoot accounts args => setRoot rt signers world accounts args
  | .newClaim accounts args => newClaim rt signers clock world accounts args
  | .claimLocked accounts => claimLocked rt signers clock world accounts
  | .clawback accounts => clawback rt signers clock world accounts
  | .setClawbackReceiver accounts newClawbackAccount =>
      setClawbackReceiver signers world accounts newClawbackAccount
  | .setClawbackStartTs accounts clawbackStartTs =>
      setClawbackStartTs signers clock world accounts clawbackStartTs
  | .setAdmin accounts newAdmin => setAdmin signers world accounts newAdmin

def process (rt : Runtime) (world : World) (tx : Transaction) : Outcome :=
  match tx.action with
  | .invoke instruction => dispatch rt tx.signers tx.clock world instruction
  | .token operation => do
      let tokens ← (execOperation tx.signers world.tokens operation).mapError .token
      return (world.setTokens tokens, [])

/-- World after a transaction. -/
def apply (rt : Runtime) (world : World) (tx : Transaction) : World :=
  match process rt world tx with
  | .ok (after, _) => after
  | .error _ => world

def Succeeds (rt : Runtime) (world : World) (tx : Transaction) : Prop :=
  ∃ after events, process rt world tx = .ok (after, events)

instance (rt : Runtime) (world : World) (tx : Transaction) : Decidable (Succeeds rt world tx) :=
  match outcome : process rt world tx with
  | .ok (after, events) => .isTrue ⟨after, events, outcome⟩
  | .error _ => .isFalse fun ⟨_, _, success⟩ => nomatch outcome.symm.trans success

/-- Nobody else holds a key for an address derived from the program's seeds. -/
def Admissible (rt : Runtime) (tx : Transaction) : Prop :=
  ∀ mint version bump, rt.createProgramAddress mint version bump ∉ tx.signers

/-- Before the program was ever called: no accounts of the program exist, and no more
tokens are held than were issued. -/
def Genesis (world : World) : Prop :=
  (∀ key, world.distributors key = none) ∧
    (∀ claimant key, world.claimStatuses claimant key = none) ∧
    Conserved world.tokens

/-- World reached from `start` by a sequence of transactions. -/
abbrev run (rt : Runtime) (start : World) (txs : List Transaction) : World :=
  replay (apply rt) start txs

def Reachable (rt : Runtime) (world : World) : Prop :=
  ∃ start txs, Genesis start ∧ (∀ tx ∈ txs, Admissible rt tx) ∧ world = run rt start txs

/-- Clocks do not go back along the list of transactions. -/
def Chronological (txs : List Transaction) : Prop :=
  txs.Pairwise fun earlier later =>
    earlier.clock.slot ≤ later.clock.slot ∧
      earlier.clock.unixTimestamp ≤ later.clock.unixTimestamp

instance (txs : List Transaction) : Decidable (Chronological txs) :=
  inferInstanceAs (Decidable (List.Pairwise _ txs))

theorem apply_of_error {rt : Runtime} {world : World} {tx : Transaction} {failure : ProgramError}
    (failed : process rt world tx = .error failure) : apply rt world tx = world := by
  simp only [apply, failed]

theorem apply_of_ok {rt : Runtime} {world after : World} {tx : Transaction} {events : List Event}
    (success : process rt world tx = .ok (after, events)) : apply rt world tx = after := by
  simp only [apply, success]

end MultiDistributor.Source

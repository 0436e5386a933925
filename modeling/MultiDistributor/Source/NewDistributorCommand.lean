import MultiDistributor.Source.AccountData
import MultiDistributor.Source.CreateMerkleTree
import MultiDistributor.Source.Program

/-!
# Creating the distributors of a directory of trees

`check_distributor_onchain_matches` of `cli/src/bin/cli.rs` and
`process_new_distributor.rs`. The account found at a distributor's address is an arbitrary
byte string. The answers of the RPC node while a file is processed are part of the input,
one record for each file, so they may change from one file to the next and between the
two reads of one file. Requests whose failure is unwrapped are taken to be answered; the
priority fee and the log lines are left out.
-/
namespace MultiDistributor.Source.Cli
open Lib.ByteString Lib.Checked Lib.TokenLedger

/-- The flags of the command, without the path of the trees. -/
structure NewDistributorArgs where
  startVestingTs : Int64
  endVestingTs : Int64
  clawbackStartTs : Int64
  enableSlot : UInt64
  airdropVersion : Option UInt64
  closable : Bool
  skipVerify : Bool
  deriving DecidableEq, Repr

/-- `program.account::<TokenAccount>(key)`, which fails on a missing account and on one
that is not a token account. -/
abbrev FetchTokenAccount := Pubkey → Option (TokenAccount Pubkey)

/-- `check_distributor_onchain_matches`. -/
def checkDistributorOnchainMatches (H : HashFunction) (fetch : FetchTokenAccount)
    (account : Bytes) (merkleTree : AirdropMerkleTree) (args : NewDistributorArgs)
    (pubkey : Pubkey) : Except String Unit :=
  match MerkleDistributor.tryDeserialize H account with
  | .ok distributor => do
      require (distributor.root = merkleTree.merkleRoot) "root mismatch"
      require (distributor.maxTotalClaim = merkleTree.maxTotalClaim) "max_total_claim mismatch"
      require (distributor.maxNumNodes = merkleTree.maxNumNodes) "max_num_nodes mismatch"
      require (distributor.startTs = args.startVestingTs) "start_ts mismatch"
      require (distributor.endTs = args.endVestingTs) "end_ts mismatch"
      require (distributor.clawbackStartTs = args.clawbackStartTs) "clawback_start_ts mismatch"
      require (distributor.enableSlot = args.enableSlot) "enable_slot mismatch"
      require (distributor.closable = args.closable) "closable mismatch"
      let clawbackReceiverTokenAccount ←
        okOr (fetch distributor.clawbackReceiver) "clawback_receiver mismatch"
      require (clawbackReceiverTokenAccount.owner = distributor.admin) "clawback_receiver mismatch"
      require (distributor.admin = pubkey) "admin mismatch"
  -- no `else`: whatever does not deserialize falls through to `Ok(())`
  | .error _ => .ok ()

/-- What the RPC node answers while one file is processed: the account at the address
before and after the transaction, the token accounts at those times, and the result of
sending. -/
structure Replies where
  existing : Option Bytes
  fetch : FetchTokenAccount
  sent : Except String Unit
  created : Option Bytes
  fetchCreated : FetchTokenAccount

/-- `.expect(..)` on the result of the check. -/
def expectMatches (outcome : Except String Unit) : Except CliFailure Unit :=
  outcome.mapError fun reason => .message
    ("merkle root on-chain does not match provided arguments! Confirm admin and clawback " ++
      "parameters to avoid loss of funds!: \"" ++ reason ++ "\"")

/-- How the command leaves a file. -/
inductive FileStep where
  | unreadable
  | otherVersion
  | existing
  | created (instruction : Instruction)
  deriving Repr

section
variable (rt : Runtime) (mint signer : Pubkey) (args : NewDistributorArgs)

/-- The instruction the command sends for a tree. -/
def newDistributorFor (merkleTree : AirdropMerkleTree) : Instruction :=
  let distributor := rt.distributorAddress mint merkleTree.airdropVersion
  .newDistributor
    { distributor, mint, admin := signer
      clawbackReceiver := rt.associatedTokenAddress signer mint
      tokenVault := rt.associatedTokenAddress distributor mint }
    { version := merkleTree.airdropVersion
      root := merkleTree.merkleRoot
      maxTotalClaim := merkleTree.maxTotalClaim
      maxNumNodes := merkleTree.maxNumNodes
      startVestingTs := args.startVestingTs
      endVestingTs := args.endVestingTs
      clawbackStartTs := args.clawbackStartTs
      enableSlot := args.enableSlot
      closable := args.closable }

/-- The second check, against a transaction that was front-run with another root. -/
def doubleCheck (merkleTree : AirdropMerkleTree) (replies : Replies) : Except CliFailure Unit :=
  if args.skipVerify then .ok ()
  else
    match replies.created with
    | some account => expectMatches (checkDistributorOnchainMatches rt.hash replies.fetchCreated
        account merkleTree args signer)
    | none => .ok ()

def createDistributor (merkleTree : AirdropMerkleTree) (replies : Replies) :
    Except CliFailure FileStep := do
  replies.sent.mapError fun e => .message
    ("Failed to create MerkleDistributor version " ++ toString merkleTree.airdropVersion.toNat ++
      ": " ++ e)
  doubleCheck rt signer args merkleTree replies
  return .created (newDistributorFor rt mint signer args merkleTree)

/-- Body of the loop over the files; an unreadable file is skipped. -/
def processFile (file : Option AirdropMerkleTree × Replies) : Except CliFailure FileStep :=
  match file.1 with
  | none => .ok .unreadable
  | some merkleTree =>
      if args.airdropVersion.any (· ≠ merkleTree.airdropVersion) then .ok .otherVersion
      else
        match file.2.existing with
        | some account => do
            expectMatches (checkDistributorOnchainMatches rt.hash file.2.fetch account merkleTree
              args signer)
            return .existing
        | none => createDistributor rt mint signer args merkleTree file.2

def FileStep.isCreated : FileStep → Bool
  | .created _ => true
  | _ => false

/-- `process_new_distributor` on the files in the order of their paths: how it leaves each
file it reaches. Given a version, it stops after creating its distributor. -/
def processNewDistributor :
    List (Option AirdropMerkleTree × Replies) → Except CliFailure (List FileStep)
  | [] => .ok []
  | file :: rest => do
      let step ← processFile rt mint signer args file
      if step.isCreated ∧ args.airdropVersion.isSome then return [step]
      let steps ← processNewDistributor rest
      return step :: steps

end

end MultiDistributor.Source.Cli

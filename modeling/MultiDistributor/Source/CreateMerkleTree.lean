import MultiDistributor.Source.CsvEntries

/-!
# Cutting a CSV into trees

`cli/src/bin/instructions/process_create_merkle_tree.rs`. The version the trees start
from is an argument here: the command takes it from a flag or finds it through an RPC
node. The trees it writes are returned in the order of their files, one
`tree_<version>.json` each. All arithmetic on the version is checked, since the release
profile keeps overflow checks on.
-/
namespace MultiDistributor.Source
open Lib.Checked

/-- A command aborts by a panic of the code below it or by a `panic!` of its own. -/
inductive CliFailure where
  | panic (reason : Panic)
  | message (text : String)
  deriving DecidableEq, Repr

def MerkleTreeError.display : MerkleTreeError → String
  | .merkleValidationError msg => "Merkle Tree Validation Error: " ++ msg
  | .merkleRootError => "Merkle Root Error"
  | .amountConversionError msg => "Amount conversion error: " ++ msg

/-- `unwrap_or_else(|e| panic!("{context} {version}: {e}"))`. -/
def orPanic {α : Type} (context : String) (airdropVersion : UInt64) :
    Except BuildFailure α → Except CliFailure α
  | .ok value => .ok value
  | .error (.panic reason) => .error (.panic reason)
  | .error (.error e) =>
      .error (.message (context ++ " " ++ toString airdropVersion.toNat ++ ": " ++ e.display))

theorem orPanic_ok_iff {α : Type} {context : String} {airdropVersion : UInt64}
    {step : Except BuildFailure α} {value : α} :
    orPanic context airdropVersion step = .ok value ↔ step = .ok value := by
  rcases step with (reason | e) | x <;> simp [orPanic]

structure CreateMerkleTreeArgs where
  maxNodesPerTree : UInt64
  shouldIncludeTestList : Bool
  amount : UInt64
  decimals : UInt32
  csvAmountUnit : CsvAmountUnit
  deriving DecidableEq, Repr

/-- `get_test_list`. -/
def getTestList : List String :=
  ["4zvTjdpyr3SAgLeSpCnq4KaHvX2j5SbkwxYydzbfqhRQ",
   "GMtwcuktJfrRcnyGktWW4Vab8cfjPcBy3xbuZgRegw6E",
   "6HQeT87Qgh8TkZPJVcbkZh8bQ3gW2st7ZJin8xEkvdWh"]

/-- `while csv_entries.len() > 0`, with the version after the last tree. -/
def shardLoop (H : HashFunction) (text : PubkeyText) (args : CreateMerkleTreeArgs) :
    Nat → List CsvEntry → UInt64 → Except CliFailure (List AirdropMerkleTree × UInt64)
  | 0, csvEntries, airdropVersion =>
      if csvEntries.length = 0 then .ok ([], airdropVersion) else .error (.panic .outOfFuel)
  | fuel + 1, csvEntries, airdropVersion =>
      if csvEntries.length = 0 then .ok ([], airdropVersion)
      else do
        let lastIndex := min args.maxNodesPerTree.toNat csvEntries.length
        let subTree := csvEntries.take lastIndex
        let merkleTree ← orPanic "create merkle tree version" airdropVersion
          (AirdropMerkleTree.newFromEntries H text subTree airdropVersion args.decimals
            args.csvAmountUnit)
        let nextVersion ← okOr (checkedAdd airdropVersion 1) (.panic .arithmeticOverflow)
        let later ← shardLoop H text args fuel (csvEntries.drop lastIndex) nextVersion
        return (merkleTree :: later.1, later.2)

/-- The test wallets' own tree, each with the amount given on the command line. -/
def testTree (H : HashFunction) (text : PubkeyText) (args : CreateMerkleTreeArgs)
    (airdropVersion : UInt64) : Except CliFailure AirdropMerkleTree :=
  orPanic "create test merkle tree version" airdropVersion
    (AirdropMerkleTree.newFromEntries H text
      (getTestList.map fun pubkey => { pubkey, amount := args.amount, lockedAmount := some 0 })
      airdropVersion args.decimals args.csvAmountUnit)

/-- `process_create_merkle_tree`. -/
def processCreateMerkleTree (H : HashFunction) (text : PubkeyText) (args : CreateMerkleTreeArgs)
    (startAirdropVersion : UInt64) (csvEntries : List CsvEntry) :
    Except CliFailure (List AirdropMerkleTree) := do
  let csvEntries :=
    if args.shouldIncludeTestList then
      csvEntries.filter fun entry => entry.pubkey ∉ getTestList
    else csvEntries
  let sharded ← shardLoop H text args csvEntries.length csvEntries startAirdropVersion
  let created ←
    if args.shouldIncludeTestList then do
      let merkleTree ← testTree H text args sharded.2
      let nextVersion ← okOr (checkedAdd sharded.2 1) (.panic .arithmeticOverflow)
      pure (sharded.1 ++ [merkleTree], nextVersion)
    else pure sharded
  -- the last version is printed, and an empty CSV from version 0 has none
  let _ ← okOr (checkedSub created.2 1) (.panic .arithmeticOverflow)
  return created.1

end MultiDistributor.Source

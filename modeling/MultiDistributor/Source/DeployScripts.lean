import MultiDistributor.Lib.Shell

/-!
# The deployment of the insurance-fund markets

`deploy_market` of `scripts/deploy-merkle-trees/deploy-common.sh` and the market loop of
`deploy-if.sh`, which runs under `set -euo pipefail`. What a command does is an input: the
status of each command of each market, and the tree files a `create-merkle-tree` has
written by the time it ends, well or badly. The arguments of the two commands are left
out, and so are the lines before the loop.
-/
namespace MultiDistributor.Source.Deploy
open Lib.Shell

/-- The settings the two scripts look at. An unset string is empty. -/
structure Settings where
  priority : String
  closable : String
  startAirdropVersion : String
  startIndex : Option Nat
  dryRun : Bool
  deriving DecidableEq, Repr

/-- An entry of `markets[]` as `jq -r` prints its fields; an absent field prints `null`. -/
structure Market where
  index : Option Nat
  symbol : String
  mint : String
  deriving DecidableEq, Repr

/-- What the commands of a market do: the status of `mkdir`, of `rm` with the tree files it
leaves, of `create-merkle-tree` with the files it writes, and of `new-distributor`. -/
structure Commands where
  csvExists : Bool
  mkdir : Nat
  rm : Nat × List String
  createMerkleTree : Nat × List String
  newDistributor : Nat
  deriving DecidableEq, Repr

/-- A run of one of the two commands, with its status; `new-distributor` deploys every
tree file of the directory. -/
inductive Ran where
  | createMerkleTree (label : String) (status : Nat)
  | newDistributor (label : String) (status : Nat) (trees : List String)
  deriving DecidableEq, Repr

/-- The tree files by directory, the commands run so far, and the two lists of labels. -/
structure Machine where
  trees : String → List String
  ran : List Ran
  ok : List String
  fail : List String

def Machine.setTrees (machine : Machine) (dir : String) (files : List String) : Machine :=
  { machine with trees := fun d => if d = dir then files else machine.trees d }

def Machine.record (machine : Machine) (run : Ran) : Machine :=
  { machine with ran := machine.ran ++ [run] }

/-! ### `deploy-common.sh` -/

def echo : Script Machine := skip

section
variable (settings : Settings) (commands : Commands) (label : String)

/-- `rm -f "${tree_dir}"/tree_*.json`. -/
def removeStaleTrees : Script Machine :=
  .command fun machine => (commands.rm.1, machine.setTrees label commands.rm.2)

/-- `"${gen[@]}"`. -/
def gen : Script Machine :=
  .command fun machine => (commands.createMerkleTree.1,
    (machine.setTrees label (machine.trees label ++ commands.createMerkleTree.2)).record
      (.createMerkleTree label commands.createMerkleTree.1))

/-- `"${dist[@]}"`. -/
def dist : Script Machine :=
  .command fun machine => (commands.newDistributor,
    machine.record (.newDistributor label commands.newDistributor (machine.trees label)))

/-- The body of `deploy_market`. -/
def deployMarket : Script Machine :=
  block
    [.branch (test fun _ => !commands.csvExists)
      (.branch (test fun _ => settings.dryRun) echo (.seq echo (.ret 1))) skip,
     .and (test fun _ => settings.priority ≠ "") skip,
     .and (test fun _ => settings.closable = "true") skip,
     .and (test fun _ => settings.startAirdropVersion ≠ "") skip,
     .branch (test fun _ => settings.dryRun) (.seq echo (.ret 0)) skip,
     .command fun machine => (commands.mkdir, machine),
     removeStaleTrees commands label,
     echo,
     gen commands label,
     echo,
     dist commands label]

end

/-! ### `deploy-if.sh` -/

def Market.missesField (market : Market) : Bool :=
  market.index.isNone || market.symbol = "" || market.symbol = "null" || market.mint = "" ||
    market.mint = "null"

def Market.label (market : Market) : String :=
  toString (market.index.getD 0) ++ "-" ++ market.symbol

/-- `[[ -n "$START_INDEX" && "$index" -lt "$START_INDEX" ]]`. -/
def Settings.skips (settings : Settings) (market : Market) : Bool :=
  settings.startIndex.any fun start => market.index.getD 0 < start

def reportOk (label : String) : Script Machine :=
  effect fun machine => { machine with ok := machine.ok ++ [label] }

def reportFail (label : String) : Script Machine :=
  effect fun machine => { machine with fail := machine.fail ++ [label] }

/-- Body of the loop, with the position of the market. -/
def processMarket (settings : Settings) (input : (Market × Commands) × Nat) : Script Machine :=
  let market := input.1.1
  .branch (test fun _ => market.missesField)
    (.seq echo (reportFail ("markets[" ++ toString input.2 ++ "]")))
    (.branch (test fun _ => settings.skips market) echo
      (.seq
        (.branch (.call (deployMarket settings input.1.2 market.label)) (reportOk market.label)
          (reportFail market.label))
        echo))

/-- The loop and the summary, which fails when a market failed. -/
def deployIf (settings : Settings) (inputs : List (Market × Commands)) : Script Machine :=
  .seq (block (inputs.zipIdx.map (processMarket settings)))
    (.seq echo (.or (test fun machine => machine.fail = []) (.exit 1)))

end MultiDistributor.Source.Deploy

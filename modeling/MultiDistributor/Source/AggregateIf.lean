import MultiDistributor.Lib.SortedMap
import MultiDistributor.Source.CsvEntries

/-!
# Merging the insurance-fund CSVs by mint

`aggregate_if_entries` of `cli/src/bin/instructions/process_aggregate_if_csvs.rs`. The
two `BTreeMap`s are sorted maps over `String`, whose order is that of the code points
and so that of the UTF-8 bytes. The warning about conflicting symbols is not represented.
-/
namespace MultiDistributor.Source
open Lib Lib.Checked

structure IfMarket where
  index : UInt64
  symbol : String
  mint : String
  deriving DecidableEq, Repr

structure MergedMint where
  mint : String
  symbol : String
  index : UInt64
  sourceMarkets : List UInt64
  entries : List CsvEntry
  deriving DecidableEq, Repr

/-- Amount and locked amount by claimant. -/
abbrev Sums := SortedMap String (UInt64 × UInt64)

/-- The representative market of a mint and its sums, by mint. -/
abbrev Groups := SortedMap String (IfMarket × Sums)

/-- Body of the loop over the rows of one market. -/
def addEntry (text : PubkeyText) (market : IfMarket) (sums : Sums) (entry : CsvEntry) :
    Except String Sums := do
  require ((text.fromStr entry.pubkey).isSome)
    ("market " ++ toString market.index.toNat ++ "-" ++ market.symbol ++ ": invalid pubkey '" ++
      entry.pubkey ++ "'")
  let acc := (sums.get? entry.pubkey).getD (0, 0)
  let amount ← okOr (checkedAdd acc.1 entry.amount)
    ("amount overflow for claimant " ++ entry.pubkey ++ " on mint " ++ market.mint)
  let locked ← okOr (checkedAdd acc.2 (entry.lockedAmount.getD 0))
    ("locked_amount overflow for claimant " ++ entry.pubkey ++ " on mint " ++ market.mint)
  return sums.insert entry.pubkey (amount, locked)

/-- Body of the loop over the markets. The lowest index keeps the label of a mint. -/
def addMarket (text : PubkeyText) (groups : Groups) (input : IfMarket × List CsvEntry) :
    Except String Groups := do
  let market := input.1
  let group := (groups.get? market.mint).getD (market, SortedMap.empty)
  let representative := if market.index < group.1.index then market else group.1
  let sums ← input.2.foldlM (addEntry text market) group.2
  return groups.insert market.mint (representative, sums)

def mergedEntry (sum : String × UInt64 × UInt64) : CsvEntry :=
  { pubkey := sum.1, amount := sum.2.1, lockedAmount := some sum.2.2 }

def mergedMint (inputs : List (IfMarket × List CsvEntry)) (group : String × IfMarket × Sums) :
    MergedMint :=
  { mint := group.1
    symbol := group.2.1.symbol
    index := group.2.1.index
    sourceMarkets := ((inputs.filter fun input => input.1.mint = group.1).map
      fun input => input.1.index).insertionSort (· ≤ ·)
    entries := group.2.2.entries.map mergedEntry }

/-- `aggregate_if_entries`. -/
def aggregateIfEntries (text : PubkeyText) (inputs : List (IfMarket × List CsvEntry)) :
    Except String (List MergedMint) := do
  let groups ← inputs.foldlM (addMarket text) SortedMap.empty
  return groups.entries.map (mergedMint inputs)

end MultiDistributor.Source

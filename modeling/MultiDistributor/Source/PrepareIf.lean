import MultiDistributor.Lib.SortedMap
import MultiDistributor.Source.AggregateIf

/-!
# Preparing the insurance-fund CSVs

`load_decimals_map` and `convert_file` of `csv-prep/prepare-if-csv.py`: the rows of a snapshot
are summed by authority, and authorities below the smallest amount of their market are
dropped. `int` has no bound and takes a sign. The dictionary of the sums is listed in the
order of its keys, so it is a sorted map. What the script makes of the texts of a snapshot
(`str.strip` and `int`) is a parameter. File names, counts and log lines are left out, and so
is the text of the CSV between its writer and its reader.
-/
namespace MultiDistributor.Source
open Lib Lib.Checked

/-- What Python makes of a text. -/
structure PythonText where
  strip : String → String
  /-- `int(raw)`, which raises `ValueError` where there is no number. -/
  int : String → Option Int

inductive PythonError where
  | attributeError | valueError
  deriving DecidableEq, Repr

/-- A row as `csv.DictReader` returns it; a short row has `None` in its last fields. -/
structure SnapshotRow where
  authority : Option String
  tokenAmount : Option String
  deriving DecidableEq, Repr

structure Snapshot where
  fieldnames : List String
  rows : List SnapshotRow
  deriving DecidableEq, Repr

/-- A market of the configuration; both fields may be missing. -/
structure ConfigMarket where
  index : Option Int
  decimals : Option Int
  deriving DecidableEq, Repr

/-- `load_decimals_map`. -/
def loadDecimalsMap (markets : List ConfigMarket) : SortedMap Int Int :=
  markets.foldl (fun result market =>
    match market.index, market.decimals with
    | some idx, some dec => result.insert idx dec
    | _, _ => result) .empty

def minAmountFallback : Int := 10

/-- `MIN_AMOUNT_BY_DECIMALS`, with the fallback for other and for unknown decimals. -/
def minAmountOf : Option Int → Int
  | some 9 => 1000
  | some 8 => 10
  | some 6 => 100
  | _ => minAmountFallback

/-- Body of the loop over the rows. -/
def addSnapshotRow (python : PythonText) (totals : SortedMap String Int) (row : SnapshotRow) :
    Except PythonError (SortedMap String Int) := do
  let authority := python.strip (← okOr row.authority .attributeError)
  let raw := python.strip (← okOr row.tokenAmount .attributeError)
  if authority = "" ∨ raw = "" then return totals
  let amount ← okOr (python.int raw) .valueError
  return totals.insert authority ((totals.get? authority).getD 0 + amount)

/-- `convert_file`: the claimants it writes to the CSV of the market. -/
def convertFile (python : PythonText) (decimalsMap : SortedMap Int Int) (index : Int)
    (snapshot : Snapshot) : Except PythonError (List (String × Int)) := do
  let minAmount := minAmountOf (decimalsMap.get? index)
  require ("authority" ∈ snapshot.fieldnames ∧ "tokenAmount" ∈ snapshot.fieldnames) .valueError
  let totals ← snapshot.rows.foldlM (addSnapshotRow python) .empty
  return totals.entries.filter fun claimant => ¬ claimant.2 < minAmount

/-- `CsvEntry::new_from_file` on such a CSV, which takes amounts of 64 bits. -/
def readClaimants (claimants : List (String × Int)) : Option (List CsvEntry) :=
  claimants.mapM fun claimant =>
    if 0 ≤ claimant.2 ∧ claimant.2 < 2 ^ 64 then
      some { pubkey := claimant.1, amount := .ofNat claimant.2.toNat, lockedAmount := some 0 }
    else none

end MultiDistributor.Source

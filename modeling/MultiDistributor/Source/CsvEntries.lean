import MultiDistributor.Source.AirdropMerkleTree

/-!
# CSV rows and their scaling to base units

`merkle-tree/src/csv_entry.rs`, `merkle-tree/src/csv_amount_unit.rs`,
`TreeNode::from_csv` and `AirdropMerkleTree::new_from_entries`. Reading a file is not
modelled: a CSV file is the list of its rows.

Base58 is a parameter. `PubkeyText` carries what is assumed of it: a printed key parses
to itself, and two texts that parse to the same key are the same text.
-/
namespace MultiDistributor.Source
open Lib.ByteString Lib.Checked

/-- `Pubkey::from_str` and the `Display` of a `Pubkey`. -/
structure PubkeyText where
  fromStr : String → Option Pubkey
  toStr : Pubkey → String
  fromStr_toStr : ∀ key, fromStr (toStr key) = some key
  fromStr_inj : ∀ {first second : String} {key : Pubkey},
    fromStr first = some key → fromStr second = some key → first = second

structure CsvEntry where
  pubkey : String
  amount : UInt64
  lockedAmount : Option UInt64
  deriving DecidableEq, Repr

inductive CsvAmountUnit where
  | tokens
  | cents
  deriving DecidableEq, Repr

/-- `csv_amount_to_base_units`. -/
def csvAmountToBaseUnits (amount : UInt64) (mintDecimals : UInt32) (unit : CsvAmountUnit) :
    Except MerkleTreeError UInt64 :=
  let decimals := toString mintDecimals.toNat
  match unit with
  | .tokens => do
      let scale ← okOr (checkedPowU64 10 mintDecimals.toNat) (.amountConversionError
        ("mint decimals " ++ decimals ++ " invalid for token scaling"))
      okOr (checkedMulU64 amount scale) (.amountConversionError
        ("overflow: amount " ++ toString amount.toNat ++ " × 10^" ++ decimals))
  | .cents => do
      require (2 ≤ mintDecimals.toNat)
        (.amountConversionError "csv-amount-unit cents requires mint decimals >= 2")
      let exp := mintDecimals.toNat - 2
      let scale ← okOr (checkedPowU64 10 exp) (.amountConversionError
        ("mint decimals " ++ decimals ++ " invalid for cents scaling"))
      okOr (checkedMulU64 amount scale) (.amountConversionError
        ("overflow: " ++ toString amount.toNat ++ " cents × 10^" ++ toString exp))

/-- The locked column of a row, where it is present. -/
def lockedToBaseUnits (lockedAmount : Option UInt64) (mintDecimals : UInt32)
    (unit : CsvAmountUnit) : Except MerkleTreeError (Option UInt64) :=
  match lockedAmount with
  | some la => do
      let scaled ← csvAmountToBaseUnits la mintDecimals unit
      return some scaled
  | none => .ok none

/-- `TreeNode::from_csv`. -/
def TreeNode.fromCsv (text : PubkeyText) (mintDecimals : UInt32) (unit : CsvAmountUnit)
    (entry : CsvEntry) : Except MerkleTreeError TreeNode := do
  let amount ← csvAmountToBaseUnits entry.amount mintDecimals unit
  let lockedAmount ← lockedToBaseUnits entry.lockedAmount mintDecimals unit
  let claimant ← okOr (text.fromStr entry.pubkey)
    (.amountConversionError ("invalid pubkey " ++ entry.pubkey))
  return { claimant, amount, lockedAmount, proof := none }

/-- `AirdropMerkleTree::new_from_entries`. -/
def AirdropMerkleTree.newFromEntries (H : HashFunction) (text : PubkeyText)
    (csvEntries : List CsvEntry) (version : UInt64) (mintDecimals : UInt32)
    (unit : CsvAmountUnit) : Except BuildFailure AirdropMerkleTree := do
  let treeNodes ← (csvEntries.mapM (TreeNode.fromCsv text mintDecimals unit)).mapError .error
  AirdropMerkleTree.new H treeNodes version

/-! ### Successful conversions -/

/-- How many base units one unit of the CSV stands for. -/
def baseUnits (mintDecimals : UInt32) : CsvAmountUnit → Nat
  | .tokens => 10 ^ mintDecimals.toNat
  | .cents => 10 ^ (mintDecimals.toNat - 2)

theorem csvAmountToBaseUnits_value {amount base : UInt64} {mintDecimals : UInt32}
    {unit : CsvAmountUnit} (success : csvAmountToBaseUnits amount mintDecimals unit = .ok base) :
    base.toNat = amount.toNat * baseUnits mintDecimals unit := by
  unfold csvAmountToBaseUnits at success
  cases unit with
  | tokens =>
    simp only [bind_ok_iff, okOr_ok_iff, checkedPowU64_eq_some, checkedMulU64_eq_some] at success
    obtain ⟨scale, power, product⟩ := success
    rw [product, power]
    rfl
  | cents =>
    simp only [bind_ok_iff, require_ok_iff, okOr_ok_iff, checkedPowU64_eq_some,
      checkedMulU64_eq_some] at success
    obtain ⟨_, _, scale, power, product⟩ := success
    rw [product, power]
    rfl

/-- What a converted row says, and whose it is. -/
structure FromCsv (text : PubkeyText) (mintDecimals : UInt32) (unit : CsvAmountUnit)
    (entry : CsvEntry) (node : TreeNode) : Prop where
  claimant : text.fromStr entry.pubkey = some node.claimant
  amount : node.amount.toNat = entry.amount.toNat * baseUnits mintDecimals unit
  locked : (node.lockedAmount.getD 0).toNat =
    (entry.lockedAmount.getD 0).toNat * baseUnits mintDecimals unit
  missing : node.lockedAmount = none ↔ entry.lockedAmount = none

theorem fromCsv_ok {text : PubkeyText} {mintDecimals : UInt32} {unit : CsvAmountUnit}
    {entry : CsvEntry} {node : TreeNode}
    (success : TreeNode.fromCsv text mintDecimals unit entry = .ok node) :
    FromCsv text mintDecimals unit entry node := by
  simp only [TreeNode.fromCsv, bind_ok_iff, okOr_ok_iff, pure_ok_iff] at success
  obtain ⟨amount, scaled, locked, lockedScaled, claimant, parsed, rfl⟩ := success
  have value := csvAmountToBaseUnits_value scaled
  cases column : entry.lockedAmount with
  | none =>
    rw [column] at lockedScaled
    cases lockedScaled
    exact { claimant := parsed, amount := value, locked := by simp [column],
            missing := by simp [column] }
  | some la =>
    rw [column] at lockedScaled
    simp only [lockedToBaseUnits, bind_ok_iff, pure_ok_iff] at lockedScaled
    obtain ⟨base, converted, rfl⟩ := lockedScaled
    exact { claimant := parsed, amount := value,
            locked := by simpa [column] using csvAmountToBaseUnits_value converted,
            missing := by simp [column] }

end MultiDistributor.Source

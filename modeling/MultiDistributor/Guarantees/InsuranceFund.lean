import MultiDistributor.Guarantees.TreeIndex
import MultiDistributor.Source.AggregateIf

/-!
# The insurance-fund pipeline

Rows of several markets are summed by mint and by the text of a key, then cut into
shards, then combined by key inside each tree. The sums by text are kept in step with the
rows read so far; since a key has one text, the merged rows name each claimant once and
no shard boundary can split one.
-/
namespace MultiDistributor.Guarantees.InsuranceFund
open Source Lib Lib.Checked Lib.Grouping MerkleProofs TreeBuilding Sharding

/-! ### Sums by the text of the key -/

def csvAmount (entry : CsvEntry) : Nat := entry.amount.toNat

def csvLocked (entry : CsvEntry) : Nat := (entry.lockedAmount.getD 0).toNat

/-- The sums of a mint after some rows of it. -/
structure SumsOf (text : PubkeyText) (rows : List CsvEntry) (sums : Sums) : Prop where
  keys : ∀ key, (sums.get? key).isSome ↔ key ∈ rows.map CsvEntry.pubkey
  amounts : ∀ key, ((sums.get? key).getD (0, 0)).1.toNat =
    total CsvEntry.pubkey csvAmount rows key
  locked : ∀ key, ((sums.get? key).getD (0, 0)).2.toNat =
    total CsvEntry.pubkey csvLocked rows key
  valid : ∀ row ∈ rows, (text.fromStr row.pubkey).isSome

theorem sumsOf_empty (text : PubkeyText) : SumsOf text [] SortedMap.empty where
  keys key := by simp [SortedMap.get?_empty]
  amounts key := rfl
  locked key := rfl
  valid := by simp

section Rows
variable {text : PubkeyText} {market : IfMarket} {rows : List CsvEntry} {sums next : Sums}

/-- Storing a sum under the key of a row adds that row to the totals; `part` is the amount or
the locked amount of an entry. -/
theorem total_insert {part : UInt64 × UInt64 → UInt64} {value : CsvEntry → Nat} {entry : CsvEntry}
    {sum : UInt64 × UInt64}
    (held : ∀ key, (part ((sums.get? key).getD (0, 0))).toNat =
      total CsvEntry.pubkey value rows key)
    (added : (part sum).toNat =
      (part ((sums.get? entry.pubkey).getD (0, 0))).toNat + value entry) (key : String) :
    (part (((sums.insert entry.pubkey sum).get? key).getD (0, 0))).toNat =
      total CsvEntry.pubkey value (rows ++ [entry]) key := by
  rw [SortedMap.get?_insert, total_concat, ← held]
  by_cases same : key = entry.pubkey
  · subst same
    rw [if_pos rfl, if_pos rfl]
    exact added
  · rw [if_neg same, if_neg (Ne.symm same), Nat.add_zero]

theorem SumsOf.step {entry : CsvEntry} (held : SumsOf text rows sums)
    (success : addEntry text market sums entry = .ok next) :
    SumsOf text (rows ++ [entry]) next := by
  simp only [addEntry, bind_ok_iff, require_ok_iff, okOr_ok_iff, checkedAdd_eq_some,
    pure_ok_iff] at success
  obtain ⟨_, parsed, amount, sum, locked, lockedSum, rfl⟩ := success
  refine { keys := fun key => ?_, amounts := total_insert held.amounts sum,
           locked := total_insert held.locked lockedSum, valid := ?_ }
  · rw [SortedMap.get?_insert, List.map_append, List.mem_append, ← held.keys]
    by_cases same : key = entry.pubkey <;> simp [same]
  · intro row member
    rcases List.mem_append.mp member with earlier | last
    · exact held.valid row earlier
    · rw [List.mem_singleton.mp last]
      exact parsed

theorem SumsOf.run {entries : List CsvEntry} (held : SumsOf text rows sums)
    (success : entries.foldlM (addEntry text market) sums = .ok next) :
    SumsOf text (rows ++ entries) next :=
  foldlM_seen SumsOf.step held success

end Rows

/-! ### Groups by mint -/

/-- All rows of the markets of a mint. -/
def rowsOf (inputs : List (IfMarket × List CsvEntry)) (mint : String) : List CsvEntry :=
  (inputs.filter fun input => input.1.mint = mint).flatMap Prod.snd

theorem rowsOf_concat (inputs : List (IfMarket × List CsvEntry)) (input : IfMarket × List CsvEntry)
    (mint : String) :
    rowsOf (inputs ++ [input]) mint =
      rowsOf inputs mint ++ if input.1.mint = mint then input.2 else [] := by
  unfold rowsOf
  by_cases same : input.1.mint = mint <;> simp [same, List.filter_append]

structure GroupsOf (text : PubkeyText) (inputs : List (IfMarket × List CsvEntry))
    (groups : Groups) : Prop where
  mints : ∀ mint, (groups.get? mint).isSome ↔ mint ∈ inputs.map fun input => input.1.mint
  sums : ∀ mint, SumsOf text (rowsOf inputs mint)
    (((groups.get? mint).map Prod.snd).getD SortedMap.empty)

section Markets
variable {text : PubkeyText} {inputs : List (IfMarket × List CsvEntry)} {groups next : Groups}

/-- The sums a market starts from. -/
theorem sums_getD (group : Option (IfMarket × Sums)) (market : IfMarket) :
    (group.getD (market, SortedMap.empty)).2 = (group.map Prod.snd).getD SortedMap.empty := by
  cases group <;> rfl

theorem GroupsOf.step {input : IfMarket × List CsvEntry} (held : GroupsOf text inputs groups)
    (success : addMarket text groups input = .ok next) :
    GroupsOf text (inputs ++ [input]) next := by
  simp only [addMarket, bind_ok_iff, pure_ok_iff] at success
  obtain ⟨sums, added, rfl⟩ := success
  rw [sums_getD] at added
  refine { mints := fun mint => ?_, sums := fun mint => ?_ }
  · rw [SortedMap.get?_insert, List.map_append, List.mem_append, ← held.mints]
    by_cases same : mint = input.1.mint <;> simp [same]
  · rw [SortedMap.get?_insert, rowsOf_concat]
    by_cases same : mint = input.1.mint
    · subst same
      rw [if_pos rfl, if_pos rfl]
      exact (held.sums input.1.mint).run added
    · rw [if_neg same, if_neg (Ne.symm same), List.append_nil]
      exact held.sums mint

theorem GroupsOf.run {rest : List (IfMarket × List CsvEntry)} (held : GroupsOf text inputs groups)
    (success : rest.foldlM (addMarket text) groups = .ok next) :
    GroupsOf text (inputs ++ rest) next :=
  foldlM_seen GroupsOf.step held success

theorem groupsOf_nil (text : PubkeyText) : GroupsOf text [] SortedMap.empty where
  mints mint := by simp [SortedMap.get?_empty]
  sums mint := sumsOf_empty text

end Markets

/-! ### Merged rows -/

/-- `entries` has one row for each key of `rows`, with the sums of that key. -/
structure MergedOf (text : PubkeyText) (rows entries : List CsvEntry) : Prop where
  distinct : (entries.map CsvEntry.pubkey).Nodup
  keys : ∀ key, key ∈ entries.map CsvEntry.pubkey ↔ key ∈ rows.map CsvEntry.pubkey
  amounts : ∀ entry ∈ entries, csvAmount entry = total CsvEntry.pubkey csvAmount rows entry.pubkey
  locked : ∀ entry ∈ entries, csvLocked entry = total CsvEntry.pubkey csvLocked rows entry.pubkey
  valid : ∀ row ∈ rows, (text.fromStr row.pubkey).isSome

/-- A merged entry shows the total of its key; `part` is the amount or the locked amount. -/
theorem merged_value {rows : List CsvEntry} {sums : Sums} {part : UInt64 × UInt64 → UInt64}
    {value : CsvEntry → Nat}
    (held : ∀ key, (part ((sums.get? key).getD (0, 0))).toNat =
      total CsvEntry.pubkey value rows key)
    (reads : ∀ sum, value (mergedEntry sum) = (part sum.2).toNat) :
    ∀ entry ∈ sums.entries.map mergedEntry,
      value entry = total CsvEntry.pubkey value rows entry.pubkey := by
  intro entry member
  obtain ⟨sum, listed, rfl⟩ := List.mem_map.mp member
  have found := (sums.get?_eq_some_iff _ _).mpr listed
  have total_eq := held sum.1
  rw [found] at total_eq
  exact (reads sum).trans total_eq

theorem SumsOf.merged {text : PubkeyText} {rows : List CsvEntry} {sums : Sums}
    (held : SumsOf text rows sums) : MergedOf text rows (sums.entries.map mergedEntry) := by
  have keys : (sums.entries.map mergedEntry).map CsvEntry.pubkey = sums.entries.map Prod.fst := by
    rw [List.map_map]
    rfl
  refine { distinct := ?_, keys := fun key => ?_, valid := held.valid,
           amounts := merged_value held.amounts fun _ => rfl,
           locked := merged_value held.locked fun _ => rfl }
  · rw [keys]
    exact sums.keys_nodup
  · rw [keys, ← held.keys, Option.isSome_iff_exists, List.mem_map]
    constructor
    · rintro ⟨sum, listed, rfl⟩
      exact ⟨sum.2, (sums.get?_eq_some_iff _ _).mpr listed⟩
    · rintro ⟨acc, found⟩
      exact ⟨(key, acc), (sums.get?_eq_some_iff _ _).mp found, rfl⟩

/-- Every mint of the inputs has one merged group, with the sums of all its rows. -/
theorem aggregateIfEntries_merged {text : PubkeyText}
    {inputs : List (IfMarket × List CsvEntry)} {merged : List MergedMint}
    (success : aggregateIfEntries text inputs = .ok merged) {mint : String}
    (listed : mint ∈ inputs.map fun input => input.1.mint) :
    ∃ group ∈ merged, group.mint = mint ∧
      (∀ other ∈ merged, other.mint = mint → other = group) ∧
      MergedOf text (rowsOf inputs mint) group.entries := by
  simp only [aggregateIfEntries, bind_ok_iff, pure_ok_iff] at success
  obtain ⟨groups, folded, rfl⟩ := success
  have held := (groupsOf_nil text).run folded
  rw [List.nil_append] at held
  obtain ⟨⟨representative, sums⟩, found⟩ :=
    Option.isSome_iff_exists.mp ((held.mints mint).mpr listed)
  have listedGroup := (groups.get?_eq_some_iff _ _).mp found
  have grouped := held.sums mint
  rw [found] at grouped
  refine ⟨mergedMint inputs (mint, representative, sums), List.mem_map_of_mem listedGroup, rfl,
    ?_, grouped.merged⟩
  intro other member named
  obtain ⟨entry, belongs, rfl⟩ := List.mem_map.mp member
  have same := List.inj_on_of_nodup_map groups.keys_nodup belongs listedGroup named
  rw [same]

section Claimants
variable {text : PubkeyText} {rows entries : List CsvEntry}

/-- A key has one text, so summing by claimant is summing by text. -/
theorem total_by_claimant (value : CsvEntry → Nat) {key : String} {claimant : Pubkey}
    (parsed : text.fromStr key = some claimant) :
    total (csvClaimant text) value rows (some claimant) =
      total CsvEntry.pubkey value rows key := by
  unfold total
  congr 2
  apply List.filter_congr
  intro row _
  rw [decide_eq_decide]
  constructor
  · intro named
    exact text.fromStr_inj named parsed
  · intro same
    rw [csvClaimant, same, parsed]

theorem MergedOf.parsed (merged : MergedOf text rows entries) {entry : CsvEntry}
    (member : entry ∈ entries) : ∃ claimant, csvClaimant text entry = some claimant := by
  have listed := (merged.keys entry.pubkey).mp (List.mem_map_of_mem member)
  obtain ⟨row, belongs, same⟩ := List.mem_map.mp listed
  have accepted := merged.valid row belongs
  rw [same] at accepted
  exact Option.isSome_iff_exists.mp accepted

/-- Merged rows never put a claimant into two shards. -/
theorem MergedOf.oneShard (merged : MergedOf text rows entries) (n : Nat) :
    OneShardPerClaimant text n entries := by
  intro p q first second listedFirst listedSecond same
  obtain ⟨claimant, named⟩ := merged.parsed (List.mem_of_getElem? listedFirst)
  have namedSecond : csvClaimant text second = some claimant := same.symm.trans named
  have sameText : first.pubkey = second.pubkey := text.fromStr_inj named namedSecond
  obtain ⟨boundP, rfl⟩ := List.getElem?_eq_some_iff.mp listedFirst
  obtain ⟨boundQ, rfl⟩ := List.getElem?_eq_some_iff.mp listedSecond
  have inside : ∀ i, i < entries.length → i < (entries.map CsvEntry.pubkey).length :=
    fun i bound => by rwa [List.length_map]
  have sameKey : (entries.map CsvEntry.pubkey).get ⟨p, inside p boundP⟩ =
      (entries.map CsvEntry.pubkey).get ⟨q, inside q boundQ⟩ := by
    simpa using sameText
  have position := congrArg Fin.val (List.nodup_iff_injective_get.mp merged.distinct sameKey)
  exact congrArg (· / n) position

/-- Merging keeps the total of every key. -/
theorem MergedOf.total_text (merged : MergedOf text rows entries) {value : CsvEntry → Nat}
    (sums : ∀ entry ∈ entries, value entry = total CsvEntry.pubkey value rows entry.pubkey)
    (key : String) :
    total CsvEntry.pubkey value entries key = total CsvEntry.pubkey value rows key := by
  by_cases listed : key ∈ entries.map CsvEntry.pubkey
  · obtain ⟨entry, member, rfl⟩ := List.mem_map.mp listed
    rw [total_of_distinct CsvEntry.pubkey value merged.distinct member, sums entry member]
  · rw [total_of_absent _ _ listed, total_of_absent]
    exact fun source => listed ((merged.keys key).mpr source)

/-- The merged row of a claimant carries the sums of all its rows. -/
theorem MergedOf.total_eq (merged : MergedOf text rows entries) {value : CsvEntry → Nat}
    (sums : ∀ entry ∈ entries, value entry = total CsvEntry.pubkey value rows entry.pubkey)
    (claimant : Pubkey) :
    total (csvClaimant text) value entries (some claimant) =
      total (csvClaimant text) value rows (some claimant) := by
  have named := text.fromStr_toStr claimant
  rw [total_by_claimant value named, total_by_claimant value named, merged.total_text sums]

theorem MergedOf.sum_eq (merged : MergedOf text rows entries) :
    (entries.map fun entry => csvAmount entry + csvLocked entry).sum =
      (rows.map fun row => csvAmount row + csvLocked row).sum := by
  have covered : ∀ row ∈ rows, row.pubkey ∈ entries.map CsvEntry.pubkey :=
    fun row member => (merged.keys row.pubkey).mpr (List.mem_map_of_mem member)
  rw [← sum_total CsvEntry.pubkey _ merged.distinct covered, List.map_map]
  congr 1
  apply List.map_congr_left
  intro entry member
  rw [merged.amounts entry member, merged.locked entry member, Function.comp_apply, total_add]

end Claimants

/-! ### The pipeline -/

/-- What the trees of a mint owe, compared with the rows of all its markets. -/
structure Conserved (text : PubkeyText) (rows : List CsvEntry) (n : Nat) (start : UInt64)
    (trees : List AirdropMerkleTree) : Prop where
  oneLeaf : ((trees.flatMap AirdropMerkleTree.treeNodes).map TreeNode.claimant).Nodup
  claimants : ∀ claimant, claimant ∈
      (trees.flatMap AirdropMerkleTree.treeNodes).map TreeNode.claimant ↔
    ∃ row ∈ rows, csvClaimant text row = some claimant
  amounts : ∀ leaf ∈ trees.flatMap AirdropMerkleTree.treeNodes,
    leaf.amount.toNat = total (csvClaimant text) csvAmount rows (some leaf.claimant) ∧
    (leaf.lockedAmount.getD 0).toNat =
      total (csvClaimant text) csvLocked rows (some leaf.claimant)
  bounded : ∀ tree ∈ trees, tree.treeNodes.length ≤ n
  versions : ∀ (i : Nat) (tree : AirdropMerkleTree), trees[i]? = some tree →
    tree.airdropVersion.toNat = start.toNat + i
  claims : (trees.map fun tree => tree.maxTotalClaim.toNat).sum =
    (rows.map fun row => csvAmount row + csvLocked row).sum

/-- With no decimals the columns are taken as they are. -/
theorem scaled_zero :
    scaledAmount 0 .tokens = csvAmount ∧ scaledLocked 0 .tokens = csvLocked := by
  constructor <;> funext entry <;> exact Nat.mul_one _

/-- Merging keeps the claimants. -/
theorem MergedOf.claimant_iff {text : PubkeyText} {rows entries : List CsvEntry}
    (merged : MergedOf text rows entries) (claimant : Pubkey) :
    Listed text entries claimant ↔ Listed text rows claimant := by
  constructor
  · intro ⟨entry, merges, named⟩
    obtain ⟨row, source, same⟩ :=
      List.mem_map.mp ((merged.keys entry.pubkey).mp (List.mem_map_of_mem merges))
    exact ⟨row, source, by rw [csvClaimant, same]; exact named⟩
  · intro ⟨row, source, named⟩
    obtain ⟨entry, merges, same⟩ :=
      List.mem_map.mp ((merged.keys row.pubkey).mpr (List.mem_map_of_mem source))
    exact ⟨entry, merges, by rw [csvClaimant, same]; exact named⟩

/-- The claimants of the trees are those of the entries. -/
theorem leaf_claimant_iff {H : HashFunction} {text : PubkeyText} {decimals : UInt32}
    {unit : CsvAmountUnit} {n : Nat} {start last : UInt64} {entries : List CsvEntry}
    {nodes : List TreeNode} {trees : List AirdropMerkleTree}
    (sharded : Sharded H n nodes start trees last) (positive : 0 < n)
    (converted : entries.mapM (TreeNode.fromCsv text decimals unit) = .ok nodes)
    (claimant : Pubkey) :
    claimant ∈ (trees.flatMap AirdropMerkleTree.treeNodes).map TreeNode.claimant ↔
      Listed text entries claimant := by
  have located := hasLeaf_iff sharded positive converted claimant
  rw [List.map_flatMap, List.mem_flatMap]
  constructor
  · intro ⟨tree, made, leaf⟩
    obtain ⟨i, here⟩ := List.mem_iff_getElem?.mp made
    obtain ⟨p, entry, listed, named, _⟩ := (located i).mp ⟨tree, here, leaf⟩
    exact ⟨entry, List.mem_of_getElem? listed, named⟩
  · intro ⟨entry, member, named⟩
    obtain ⟨p, listed⟩ := List.mem_iff_getElem?.mp member
    obtain ⟨tree, here, leaf⟩ := (located _).mpr ⟨p, entry, listed, named, rfl⟩
    exact ⟨tree, List.mem_of_getElem? here, leaf⟩

/-- With no decimals, a row is worth what the CSV says. -/
theorem entitlement_converted {text : PubkeyText} {entries : List CsvEntry}
    {nodes : List TreeNode}
    (converted : entries.mapM (TreeNode.fromCsv text 0 .tokens) = .ok nodes) :
    nodes.map entitlement = entries.map fun entry => csvAmount entry + csvLocked entry := by
  refine map_of_mapM (fun entry node single => ?_) converted
  have row := fromCsv_ok single
  rw [entitlement, row.amount, row.locked, csvAmount, csvLocked,
    show baseUnits 0 .tokens = 1 from rfl, Nat.mul_one, Nat.mul_one]

theorem MergedOf.conserved {H : HashFunction} {text : PubkeyText} {rows entries : List CsvEntry}
    (merged : MergedOf text rows entries) {n : Nat} (positive : 0 < n) {nodes : List TreeNode}
    (converted : entries.mapM (TreeNode.fromCsv text 0 .tokens) = .ok nodes) {start last : UInt64}
    {trees : List AirdropMerkleTree} (sharded : Sharded H n nodes start trees last) :
    Conserved text rows n start trees := by
  have apart := merged.oneShard n
  have claimants := leaf_claimant_iff sharded positive converted
  refine { oneLeaf := sharded.leaves_nodup positive ((oneShard_iff converted n).mpr apart)
           claimants := fun claimant => (claimants claimant).trans (merged.claimant_iff claimant)
           amounts := ?_
           bounded := fun tree made => sharded.leaves_le made
           versions := fun i tree here => sharded.versionAt here
           claims := ?_ }
  · intro leaf member
    obtain ⟨tree, made, belongs⟩ := List.mem_flatMap.mp member
    have whole := whole_of_apart sharded positive converted apart made belongs
    rw [whole.amount, whole.locked, scaled_zero.1, scaled_zero.2,
      merged.total_eq merged.amounts, merged.total_eq merged.locked]
    exact ⟨rfl, rfl⟩
  · rw [sharded.claims_sum, entitlement_converted converted, merged.sum_eq]

/-- Aggregating the markets of a mint and sharding the result conserves every entitlement. -/
theorem pipeline_conserves (H : HashFunction) (text : PubkeyText)
    (inputs : List (IfMarket × List CsvEntry)) {merged : List MergedMint}
    (success : aggregateIfEntries text inputs = .ok merged) {mint : String}
    (listed : mint ∈ inputs.map fun input => input.1.mint) :
    ∃ group ∈ merged, group.mint = mint ∧
      (∀ other ∈ merged, other.mint = mint → other = group) ∧
      ∀ (args : CreateMerkleTreeArgs) (start last : UInt64) (trees : List AirdropMerkleTree),
        1 ≤ args.maxNodesPerTree.toNat → args.decimals = 0 → args.csvAmountUnit = .tokens →
        shardLoop H text args group.entries.length group.entries start = .ok (trees, last) →
        Conserved text (rowsOf inputs mint) args.maxNodesPerTree.toNat start trees := by
  obtain ⟨group, member, named, unique, rowsMerged⟩ := aggregateIfEntries_merged success listed
  refine ⟨group, member, named, unique, ?_⟩
  intro args start last trees positive decimals unit looped
  obtain ⟨nodes, converted, sharded⟩ := (shardLoop_ok_iff positive (Nat.le_refl _)).mp looped
  rw [decimals, unit] at converted
  exact rowsMerged.conserved positive converted sharded

/-! ### Two markets of one mint -/

namespace SampleIf
open SampleCsv

def spot : IfMarket := { index := 1, symbol := "SPOT", mint := "dfx" }
def perp : IfMarket := { index := 0, symbol := "PERP", mint := "dfx" }

def carol : Pubkey := .filled 67

/-- A row as the aggregation writes it. -/
def mergedRow (key : Pubkey) (amount locked : UInt64) : CsvEntry :=
  { pubkey := latinText.toStr key, amount, lockedAmount := some locked }

/-- One claimant is in both files, and the other two in one each. -/
def inputs : List (IfMarket × List CsvEntry) :=
  [(spot, [mergedRow carol 5 6, row alice 1]), (perp, [row bob 4, mergedRow alice 2 7])]

def group : MergedMint :=
  { mint := "dfx", symbol := "PERP", index := 0, sourceMarkets := [0, 1]
    entries := [mergedRow alice 3 7, mergedRow bob 4 0, mergedRow carol 5 6] }

theorem keys_ascend : latinText.toStr alice < latinText.toStr bob ∧
    latinText.toStr bob < latinText.toStr carol := by
  decide +kernel

theorem addEntry_ok {market : IfMarket} {sums : Sums} {key : Pubkey} (entry : CsvEntry)
    (before after : UInt64 × UInt64) (named : entry.pubkey = latinText.toStr key)
    (held : (sums.get? entry.pubkey).getD (0, 0) = before)
    (amount : checkedAdd before.1 entry.amount = some after.1)
    (locked : checkedAdd before.2 (entry.lockedAmount.getD 0) = some after.2) :
    addEntry latinText market sums entry = .ok (sums.insert entry.pubkey after) := by
  have parsed : (latinText.fromStr entry.pubkey).isSome := by
    rw [named, latinText.fromStr_toStr]
    rfl
  subst held
  simp only [addEntry, bind_ok_iff, require_ok_iff, okOr_ok_iff, pure_ok_iff]
  exact ⟨(), parsed, after.1, amount, after.2, locked, rfl⟩

/-- A mint with two markets, of which the second has the lower index. -/
theorem aggregate_two {spotRows perpRows : List CsvEntry} {one both : Sums}
    (first : spotRows.foldlM (addEntry latinText spot) SortedMap.empty = .ok one)
    (second : perpRows.foldlM (addEntry latinText perp) one = .ok both) :
    aggregateIfEntries latinText [(spot, spotRows), (perp, perpRows)] =
      .ok [{ mint := "dfx", symbol := "PERP", index := 0, sourceMarkets := [0, 1]
             entries := both.entries.map mergedEntry }] := by
  let opened : Groups := SortedMap.empty.insert "dfx" (spot, one)
  have spotAdded : addMarket latinText SortedMap.empty (spot, spotRows) = .ok opened := by
    simp only [addMarket, bind_ok_iff, pure_ok_iff]
    exact ⟨one, first, rfl⟩
  have grouped : opened.get? "dfx" = some (spot, one) := by
    rw [SortedMap.get?_insert, if_pos rfl]
  have perpAdded : addMarket latinText opened (perp, perpRows) =
      .ok (opened.insert "dfx" (perp, both)) := by
    have lower : (if perp.index < spot.index then perp else spot) = perp := by decide
    simp only [addMarket, show perp.mint = "dfx" from rfl, grouped, Option.getD_some, lower,
      bind_ok_iff, pure_ok_iff]
    exact ⟨both, second, rfl⟩
  have groups : (opened.insert "dfx" (perp, both)).entries = [("dfx", perp, both)] := by
    simp [opened, SortedMap.insert, SortedMap.insertSorted, SortedMap.empty]
  simp only [aggregateIfEntries, bind_ok_iff, pure_ok_iff]
  refine ⟨opened.insert "dfx" (perp, both), ?_, ?_⟩
  · simp only [List.foldlM_cons, List.foldlM_nil, bind_ok_iff, pure_ok_iff]
    exact ⟨opened, spotAdded, _, perpAdded, rfl⟩
  · rw [groups, List.map_singleton, mergedMint]
    rfl

theorem aggregate_inputs : aggregateIfEntries latinText inputs = .ok [group] := by
  obtain ⟨below, above⟩ := keys_ascend
  let one : Sums := (SortedMap.empty.insert (latinText.toStr carol) (5, 6)).insert
    (latinText.toStr alice) (1, 0)
  let both : Sums := (one.insert (latinText.toStr bob) (4, 0)).insert (latinText.toStr alice) (3, 7)
  have first : [mergedRow carol 5 6, row alice 1].foldlM (addEntry latinText spot)
      SortedMap.empty = .ok one := by
    simp only [List.foldlM_cons, List.foldlM_nil, bind_ok_iff, pure_ok_iff]
    refine ⟨_, addEntry_ok (mergedRow carol 5 6) (0, 0) (5, 6) rfl rfl (by decide) (by decide), _,
      addEntry_ok (row alice 1) (0, 0) (1, 0) rfl ?_ (by decide) (by decide), rfl⟩
    rw [row, SortedMap.get?_insert, mergedRow, if_neg (below.trans above).ne]
    rfl
  have second : [row bob 4, mergedRow alice 2 7].foldlM (addEntry latinText perp) one =
      .ok both := by
    simp only [List.foldlM_cons, List.foldlM_nil, bind_ok_iff, pure_ok_iff]
    refine ⟨_, addEntry_ok (row bob 4) (0, 0) (4, 0) rfl ?_ (by decide) (by decide), _,
      addEntry_ok (mergedRow alice 2 7) (1, 0) (3, 7) rfl ?_ (by decide) (by decide), rfl⟩
    · rw [row, SortedMap.get?_insert, if_neg below.ne', SortedMap.get?_insert, if_neg above.ne]
      rfl
    · rw [mergedRow, SortedMap.get?_insert, row, if_neg below.ne, SortedMap.get?_insert, if_pos rfl]
      rfl
  have sums : both.entries = [(latinText.toStr alice, 3, 7), (latinText.toStr bob, 4, 0),
      (latinText.toStr carol, 5, 6)] := by
    simp [both, one, SortedMap.insert, SortedMap.insertSorted, SortedMap.empty, above,
      below.trans above, below.not_gt, below.ne']
  rw [inputs, aggregate_two first second, sums]
  rfl

theorem fromCsv_merged (key : Pubkey) (amount locked : UInt64) :
    TreeNode.fromCsv latinText 0 .tokens (mergedRow key amount locked) =
      .ok { claimant := key, amount, lockedAmount := some locked, proof := none } := by
  have parsed : latinText.fromStr (latinText.toStr key) = some key := latinText.fromStr_toStr key
  simp only [TreeNode.fromCsv, mergedRow, plain_units, lockedToBaseUnits, parsed, okOr]
  rfl

/-- Three merged rows make two trees. -/
theorem shard_merged {first second third : Pubkey} {a b c x y z : UInt64}
    {front back : AirdropMerkleTree}
    (frontBuilt : AirdropMerkleTree.new digest
      [⟨first, a, some x, none⟩, ⟨second, b, some y, none⟩] 0 = .ok front)
    (backBuilt : AirdropMerkleTree.new digest [⟨third, c, some z, none⟩] 1 = .ok back) :
    let rows := [mergedRow first a x, mergedRow second b y, mergedRow third c z]
    shardLoop digest latinText pairs rows.length rows 0 = .ok ([front, back], 2) := by
  intro rows
  refine (shardLoop_ok_iff (by decide) (Nat.le_refl _)).mpr
    ⟨[⟨first, a, some x, none⟩, ⟨second, b, some y, none⟩, ⟨third, c, some z, none⟩], ?_, ?_⟩
  · have converted : ∀ key amount locked,
        TreeNode.fromCsv latinText pairs.decimals pairs.csvAmountUnit
          (mergedRow key amount locked) = .ok ⟨key, amount, some locked, none⟩ := fromCsv_merged
    simp only [rows, List.mapM_cons, List.mapM_nil, converted]
    rfl
  · exact .cut (List.cons_ne_nil _ _) frontBuilt rfl
      (.cut (List.cons_ne_nil _ _) backBuilt rfl (.done 2))

/-- The trees of the merged rows. -/
def front : AirdropMerkleTree :=
  ⟨digest [], 0, 2, 14,
    [⟨alice, 3, some 7, some [digest []]⟩, ⟨bob, 4, some 0, some [digest []]⟩]⟩

def back : AirdropMerkleTree := ⟨digest [], 1, 1, 11, [⟨carol, 5, some 6, some []⟩]⟩

end SampleIf

open SampleCsv SampleIf in
/-- The rows of three claimants in two files end in three leaves of two trees. -/
theorem pipeline_conserves_two_markets :
    aggregateIfEntries latinText inputs = .ok [group] ∧
      shardLoop digest latinText pairs group.entries.length group.entries 0 =
        .ok ([front, back], 2) ∧
      Conserved latinText (rowsOf inputs "dfx") 2 0 [front, back] := by
  have listed : "dfx" ∈ inputs.map fun input => input.1.mint := by decide
  have sharded : shardLoop digest latinText pairs group.entries.length group.entries 0 =
      .ok ([front, back], 2) := shard_merged (by decide +kernel) (by decide +kernel)
  obtain ⟨found, member, _, _, conserves⟩ :=
    pipeline_conserves digest latinText inputs aggregate_inputs listed
  rw [List.mem_singleton] at member
  subst member
  exact ⟨aggregate_inputs, sharded, conserves pairs 0 2 _ (by decide) rfl rfl sharded⟩

end MultiDistributor.Guarantees.InsuranceFund

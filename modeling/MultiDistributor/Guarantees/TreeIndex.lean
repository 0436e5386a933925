import MultiDistributor.Guarantees.Authority
import MultiDistributor.Guarantees.Sharding
import MultiDistributor.Source.Api

/-!
# Every claimant whole in one tree, and in the index

The server keeps one node for each claimant, so a claimant split over two trees is served
a part of its entitlement. Repeated rows are combined inside a shard only; whether a
claimant is split depends on where its rows stand in the CSV.
-/
namespace MultiDistributor.Guarantees.Sharding
open Source Lib.ByteString Lib.Checked Lib.Grouping MerkleProofs TreeBuilding

/-! ### The claimant-keyed index of the server -/

/-- The insertions of all trees, one node after the other. -/
def insertions (rt : Runtime) (mint : Pubkey) (order : List AirdropMerkleTree) :
    List (Pubkey × TreeNode) :=
  order.flatMap fun tree =>
    tree.treeNodes.map fun node => (rt.distributorAddress mint tree.airdropVersion, node)

def insertEntry (index : TreeIndex) (entry : Pubkey × TreeNode) : TreeIndex :=
  Function.update index entry.2.claimant (some entry)

theorem loadTrees_eq (rt : Runtime) (mint : Pubkey) (order : List AirdropMerkleTree) :
    loadTrees rt mint order = (insertions rt mint order).foldl insertEntry fun _ => none := by
  rw [insertions, List.foldl_flatMap]
  simp only [List.foldl_map]
  rfl

theorem insertEntry_eq (index : TreeIndex) (entry : Pubkey × TreeNode) (claimant : Pubkey) :
    insertEntry index entry claimant =
      if claimant = entry.2.claimant then some entry else index claimant := by
  rw [insertEntry, Function.update_apply]

/-- An indexed entry was inserted under its own claimant. -/
theorem foldl_insertEntry_some {entries : List (Pubkey × TreeNode)} {index : TreeIndex}
    {claimant : Pubkey} {entry : Pubkey × TreeNode}
    (found : entries.foldl insertEntry index claimant = some entry) :
    index claimant = some entry ∨ entry ∈ entries ∧ entry.2.claimant = claimant := by
  induction entries generalizing index with
  | nil => exact Or.inl found
  | cons head tail ih =>
    rcases ih found with earlier | ⟨member, named⟩
    · rw [insertEntry_eq] at earlier
      split at earlier
      · next here =>
        cases earlier
        exact Or.inr ⟨List.mem_cons_self, here.symm⟩
      · exact Or.inl earlier
    · exact Or.inr ⟨List.mem_cons_of_mem _ member, named⟩

theorem foldl_insertEntry_isSome {entries : List (Pubkey × TreeNode)} {index : TreeIndex}
    {claimant : Pubkey}
    (present : (index claimant).isSome ∨ ∃ entry ∈ entries, entry.2.claimant = claimant) :
    (entries.foldl insertEntry index claimant).isSome := by
  induction entries generalizing index with
  | nil => simpa using present
  | cons head tail ih =>
    apply ih
    rw [insertEntry_eq]
    by_cases here : claimant = head.2.claimant
    · simp [here]
    · rw [if_neg here]
      refine present.imp_right ?_
      rintro ⟨entry, member, rfl⟩
      rcases List.mem_cons.mp member with rfl | later
      · exact absurd rfl here
      · exact ⟨entry, later, rfl⟩

/-- A served entry is a leaf of a loaded tree, with the distributor of that tree. -/
theorem loadTrees_some {rt : Runtime} {mint : Pubkey} {order : List AirdropMerkleTree}
    {claimant : Pubkey} {entry : Pubkey × TreeNode}
    (served : loadTrees rt mint order claimant = some entry) :
    ∃ tree ∈ order, entry.2 ∈ tree.treeNodes ∧ entry.2.claimant = claimant ∧
      entry.1 = rt.distributorAddress mint tree.airdropVersion := by
  rw [loadTrees_eq] at served
  rcases foldl_insertEntry_some served with impossible | ⟨member, named⟩
  · cases impossible
  · simp only [insertions, List.mem_flatMap, List.mem_map] at member
    obtain ⟨tree, loaded, node, leaf, rfl⟩ := member
    exact ⟨tree, loaded, leaf, named, rfl⟩

theorem loadTrees_serves (rt : Runtime) (mint : Pubkey) {order : List AirdropMerkleTree}
    {tree : AirdropMerkleTree} (loaded : tree ∈ order) {node : TreeNode}
    (leaf : node ∈ tree.treeNodes) :
    ∃ entry, loadTrees rt mint order node.claimant = some entry := by
  rw [← Option.isSome_iff_exists, loadTrees_eq]
  apply foldl_insertEntry_isSome
  refine Or.inr ⟨(rt.distributorAddress mint tree.airdropVersion, node), ?_, rfl⟩
  simp only [insertions, List.mem_flatMap, List.mem_map]
  exact ⟨tree, loaded, node, leaf, rfl⟩

/-! ### Claimants in one tree -/

/-- The claimant has a leaf in the tree with index `i`. -/
def HasLeaf (trees : List AirdropMerkleTree) (claimant : Pubkey) (i : Nat) : Prop :=
  ∃ tree, trees[i]? = some tree ∧ claimant ∈ tree.treeNodes.map TreeNode.claimant

theorem hasLeaf_append {front back : List AirdropMerkleTree} {claimant : Pubkey} {i : Nat} :
    HasLeaf (front ++ back) claimant i ↔
      HasLeaf front claimant i ∨
        front.length ≤ i ∧ HasLeaf back claimant (i - front.length) := by
  unfold HasLeaf
  by_cases inside : i < front.length
  · simp [List.getElem?_append_left inside, Nat.not_le.mpr inside]
  · have beyond := Nat.le_of_not_lt inside
    simp [List.getElem?_append_right beyond, beyond]

theorem hasLeaf_singleton {tree : AirdropMerkleTree} {claimant : Pubkey} {i : Nat} :
    HasLeaf [tree] claimant i ↔
      i = 0 ∧ claimant ∈ tree.treeNodes.map TreeNode.claimant := by
  cases i <;> simp [HasLeaf]

/-- A claimant of the CSV. -/
def Listed (text : PubkeyText) (entries : List CsvEntry) (claimant : Pubkey) : Prop :=
  ∃ entry ∈ entries, csvClaimant text entry = some claimant

/-- Each claimant of the CSV is in exactly one tree, with its whole entitlement, and so is
the entry served for it after the trees are loaded in any order. -/
structure ClaimantsWhole (rt : Runtime) (mint : Pubkey) (text : PubkeyText)
    (args : CreateMerkleTreeArgs) (entries : List CsvEntry) (trees : List AirdropMerkleTree) :
    Prop where
  oneTree : ∀ claimant, Listed text entries claimant → ∃! i, HasLeaf trees claimant i
  leaves : ∀ tree ∈ trees, ∀ node ∈ tree.treeNodes, Listed text entries node.claimant →
    Whole text args.decimals args.csvAmountUnit entries node
  served : ∀ claimant, Listed text entries claimant → ∀ order, order.Perm trees →
    ∃ found, loadTrees rt mint order claimant = some found ∧ found.2.claimant = claimant ∧
      Whole text args.decimals args.csvAmountUnit entries found.2

/-- Whatever the loading order, a served entry is one of the leaves. -/
theorem ClaimantsWhole.ofLeaves (rt : Runtime) (mint : Pubkey) {text : PubkeyText}
    {args : CreateMerkleTreeArgs} {entries : List CsvEntry} {trees : List AirdropMerkleTree}
    (oneTree : ∀ claimant, Listed text entries claimant → ∃! i, HasLeaf trees claimant i)
    (leaves : ∀ tree ∈ trees, ∀ node ∈ tree.treeNodes, Listed text entries node.claimant →
      Whole text args.decimals args.csvAmountUnit entries node) :
    ClaimantsWhole rt mint text args entries trees := by
  refine { oneTree, leaves, served := ?_ }
  intro claimant listed order shuffled
  obtain ⟨i, ⟨tree, position, leaf⟩, _⟩ := oneTree claimant listed
  obtain ⟨node, belongs, rfl⟩ := List.mem_map.mp leaf
  have loaded := shuffled.mem_iff.mpr (List.mem_of_getElem? position)
  obtain ⟨found, served⟩ := loadTrees_serves rt mint loaded belongs
  obtain ⟨source, ordered, sourceLeaf, own, _⟩ := loadTrees_some served
  have made := shuffled.mem_iff.mp ordered
  exact ⟨found, served, own, leaves source made found.2 sourceLeaf (own.symm ▸ listed)⟩

section Claimants
variable {H : HashFunction} {text : PubkeyText} {decimals : UInt32} {unit : CsvAmountUnit}
  {n : Nat} {version last : UInt64} {entries : List CsvEntry} {rows : List TreeNode}
  {trees : List AirdropMerkleTree}

/-- Where a claimant has leaves, in terms of the CSV. -/
theorem hasLeaf_iff (sharded : Sharded H n rows version trees last) (positive : 0 < n)
    (converted : entries.mapM (TreeNode.fromCsv text decimals unit) = .ok rows)
    (claimant : Pubkey) (i : Nat) :
    HasLeaf trees claimant i ↔ ∃ p entry, entries[p]? = some entry ∧
      csvClaimant text entry = some claimant ∧ p / n = i := by
  constructor
  · rintro ⟨tree, here, leaf⟩
    obtain ⟨p, row, found, named, position⟩ :=
      (sharded.claimant_mem_iff positive here claimant).mp leaf
    obtain ⟨entry, listed, parsed⟩ := entry_of_row converted found
    exact ⟨p, entry, listed, named ▸ parsed, position⟩
  · rintro ⟨p, entry, listed, parsed, rfl⟩
    obtain ⟨row, found, same⟩ := row_of_entry converted listed
    have named : row.claimant = claimant := Option.some.inj (same.symm.trans parsed)
    obtain ⟨tree, here⟩ := sharded.covers positive (List.getElem?_eq_some_iff.mp found).1
    exact ⟨tree, here,
      (sharded.claimant_mem_iff positive here claimant).mpr ⟨p, row, found, named, rfl⟩⟩

theorem whole_of_apart (sharded : Sharded H n rows version trees last) (positive : 0 < n)
    (converted : entries.mapM (TreeNode.fromCsv text decimals unit) = .ok rows)
    (apart : OneShardPerClaimant text n entries) {tree : AirdropMerkleTree} (made : tree ∈ trees)
    {node : TreeNode} (leaf : node ∈ tree.treeNodes) :
    Whole text decimals unit entries node := by
  obtain ⟨i, here⟩ := List.mem_iff_getElem?.mp made
  obtain ⟨amount, locked⟩ :=
    sharded.whole positive ((oneShard_iff converted n).mpr apart) here leaf
  exact { amount := amount.trans (total_amounts converted _)
          locked := locked.trans (total_locked converted _) }

end Claimants

/-! ### The test wallets -/

section TestList
variable {H : HashFunction} {text : PubkeyText} {args : CreateMerkleTreeArgs}
  {start last : UInt64} {entries : List CsvEntry} {trees extra : List AirdropMerkleTree}

/-- The row names a test wallet, and the command makes a row of its own for it. -/
def replaced (args : CreateMerkleTreeArgs) (entry : CsvEntry) : Bool :=
  args.shouldIncludeTestList && decide (entry.pubkey ∈ getTestList)

/-- The rows of the CSV that are cut into shards. -/
def keptRows (args : CreateMerkleTreeArgs) (entries : List CsvEntry) : List CsvEntry :=
  entries.filter fun entry => !replaced args entry

theorem keptRows_plain (plain : args.shouldIncludeTestList = false) (entries : List CsvEntry) :
    keptRows args entries = entries := by
  simp [keptRows, replaced, plain]

def testRows (args : CreateMerkleTreeArgs) : List CsvEntry :=
  getTestList.map fun pubkey => { pubkey, amount := args.amount, lockedAmount := some 0 }

/-- What follows the shards: nothing, or the tree of the test wallets. -/
inductive TestTrees (H : HashFunction) (text : PubkeyText) (args : CreateMerkleTreeArgs)
    (version : UInt64) : List AirdropMerkleTree → Prop where
  | plain (excluded : args.shouldIncludeTestList = false) : TestTrees H text args version []
  | tested {tree : AirdropMerkleTree} (included : args.shouldIncludeTestList = true)
      (built : AirdropMerkleTree.newFromEntries H text (testRows args) version args.decimals
        args.csvAmountUnit = .ok tree) :
      TestTrees H text args version [tree]

theorem processCreateMerkleTree_ok (positive : 0 < args.maxNodesPerTree.toNat)
    (success : processCreateMerkleTree H text args start entries = .ok trees) :
    ∃ rows made last extra,
      (keptRows args entries).mapM (TreeNode.fromCsv text args.decimals args.csvAmountUnit) =
        .ok rows ∧
      Sharded H args.maxNodesPerTree.toNat rows start made last ∧
      TestTrees H text args last extra ∧ trees = made ++ extra := by
  cases flag : args.shouldIncludeTestList with
  | false =>
    obtain ⟨rows, last, converted, sharded, _⟩ :=
      (processCreateMerkleTree_ok_iff flag positive).mp success
    rw [← keptRows_plain flag entries] at converted
    exact ⟨rows, trees, last, [], converted, sharded, .plain flag, (List.append_nil _).symm⟩
  | true =>
    have kept : (entries.filter fun entry => entry.pubkey ∉ getTestList) =
        keptRows args entries := by simp [keptRows, replaced, flag]
    simp only [processCreateMerkleTree, flag, if_true, kept, testTree, bind_ok_iff, pure_ok_iff,
      okOr_ok_iff, orPanic_ok_iff] at success
    obtain ⟨⟨made, last⟩, looped, tree, built, _, _, _, rfl, _, _, rfl⟩ := success
    obtain ⟨rows, converted, sharded⟩ := (shardLoop_ok_iff positive le_rfl).mp looped
    exact ⟨rows, made, last, [tree], converted, sharded, .tested flag built, rfl⟩

/-- A tree's leaves in terms of the CSV rows it was built from. -/
theorem leaves_of_newFromEntries {version : UInt64} {decimals : UInt32} {unit : CsvAmountUnit}
    {tree : AirdropMerkleTree}
    (built : AirdropMerkleTree.newFromEntries H text entries version decimals unit = .ok tree) :
    (∀ claimant, claimant ∈ tree.treeNodes.map TreeNode.claimant ↔
      Listed text entries claimant) ∧
    ∀ node ∈ tree.treeNodes, Whole text decimals unit entries node := by
  obtain ⟨rows, converted, made⟩ := newFromEntries_ok_iff.mp built
  have combines := (treeOfRows_of_new made).2.combines
  constructor
  · intro claimant
    rw [combines.mem_iff, List.mem_map]
    constructor
    · rintro ⟨row, member, rfl⟩
      obtain ⟨p, found⟩ := List.mem_iff_getElem?.mp member
      obtain ⟨entry, listed, parsed⟩ := entry_of_row converted found
      exact ⟨entry, List.mem_of_getElem? listed, parsed⟩
    · rintro ⟨entry, member, parsed⟩
      obtain ⟨p, listed⟩ := List.mem_iff_getElem?.mp member
      obtain ⟨row, found, same⟩ := row_of_entry converted listed
      exact ⟨row, List.mem_of_getElem? found, Option.some.inj (same.symm.trans parsed)⟩
  · intro node leaf
    exact { amount := (combines.amounts node leaf).trans (total_amounts converted _)
            locked := (combines.locked node leaf).trans (total_locked converted _) }

theorem mem_testRows_iff {row : CsvEntry} :
    row ∈ testRows args ↔
      row.pubkey ∈ getTestList ∧ row.amount = args.amount ∧ row.lockedAmount = some 0 := by
  unfold testRows
  rw [List.mem_map]
  constructor
  · rintro ⟨pubkey, member, rfl⟩
    exact ⟨member, rfl, rfl⟩
  · intro ⟨member, amount, locked⟩
    exact ⟨row.pubkey, member, by rw [← amount, ← locked]⟩

/-- Keys parsed from different texts are different. -/
theorem pubkey_eq_of_claimant {first second : CsvEntry} {claimant : Pubkey}
    (parsedFirst : csvClaimant text first = some claimant)
    (parsedSecond : csvClaimant text second = some claimant) : first.pubkey = second.pubkey :=
  text.fromStr_inj parsedFirst parsedSecond

/-- The test wallets are different, so each has the values of its one row. -/
theorem testRows_total (value : CsvEntry → Nat) {row : CsvEntry} (own : row ∈ testRows args)
    {claimant : Pubkey} (parsed : csvClaimant text row = some claimant) :
    total (csvClaimant text) value (testRows args) (some claimant) = value row := by
  have distinct : (testRows args).Nodup := by
    have wallets : getTestList.Nodup := by decide
    exact wallets.map fun first second same => congrArg CsvEntry.pubkey same
  rw [← parsed]
  refine total_of_unique _ _ distinct own ?_
  intro other listed same
  obtain ⟨_, amount, locked⟩ := mem_testRows_iff.mp own
  obtain ⟨_, otherAmount, otherLocked⟩ := mem_testRows_iff.mp listed
  have pubkey := pubkey_eq_of_claimant (same.trans parsed) parsed
  cases other
  cases row
  simp_all

/-- A test wallet's leaf has the amount of the command line, and nothing locked. -/
theorem whole_testRows_iff {node : TreeNode} (wallet : Listed text (testRows args) node.claimant) :
    Whole text args.decimals args.csvAmountUnit (testRows args) node ↔
      node.amount.toNat = args.amount.toNat * baseUnits args.decimals args.csvAmountUnit ∧
        (node.lockedAmount.getD 0).toNat = 0 := by
  obtain ⟨row, own, parsed⟩ := wallet
  obtain ⟨_, amount, locked⟩ := mem_testRows_iff.mp own
  have amounts : total (csvClaimant text) (scaledAmount args.decimals args.csvAmountUnit)
      (testRows args) (some node.claimant) =
        args.amount.toNat * baseUnits args.decimals args.csvAmountUnit := by
    rw [testRows_total _ own parsed, scaledAmount, amount]
  have nothing : total (csvClaimant text) (scaledLocked args.decimals args.csvAmountUnit)
      (testRows args) (some node.claimant) = 0 := by
    rw [testRows_total _ own parsed, scaledLocked, locked]
    simp
  constructor
  · intro whole
    exact ⟨whole.amount.trans amounts, whole.locked.trans nothing⟩
  · intro ⟨scaled, unlocked⟩
    exact { amount := scaled.trans amounts.symm, locked := unlocked.trans nothing.symm }

theorem TestTrees.hasLeaf_iff (tested : TestTrees H text args last extra) {claimant : Pubkey}
    {i : Nat} :
    HasLeaf extra claimant i ↔
      i = 0 ∧ args.shouldIncludeTestList = true ∧ Listed text (testRows args) claimant := by
  cases tested with
  | plain excluded => simp [HasLeaf, excluded]
  | tested included built =>
    rw [hasLeaf_singleton, (leaves_of_newFromEntries built).1]
    simp [included]

theorem TestTrees.whole (tested : TestTrees H text args last extra) {tree : AirdropMerkleTree}
    (made : tree ∈ extra) {node : TreeNode} (leaf : node ∈ tree.treeNodes) :
    args.shouldIncludeTestList = true ∧ Listed text (testRows args) node.claimant ∧
      Whole text args.decimals args.csvAmountUnit (testRows args) node := by
  cases tested with
  | plain excluded => cases made
  | tested included built =>
    cases List.mem_singleton.mp made
    obtain ⟨listed, whole⟩ := leaves_of_newFromEntries built
    exact ⟨included, (listed _).mp (List.mem_map_of_mem leaf), whole node leaf⟩

theorem replaced_iff {entry : CsvEntry} :
    replaced args entry = true ↔
      args.shouldIncludeTestList = true ∧ entry.pubkey ∈ getTestList := by
  simp [replaced]

theorem mem_keptRows_iff {entry : CsvEntry} :
    entry ∈ keptRows args entries ↔ entry ∈ entries ∧ replaced args entry = false := by
  simp [keptRows]

theorem listed_testRows {entry : CsvEntry} (gone : replaced args entry = true)
    {claimant : Pubkey} (parsed : csvClaimant text entry = some claimant) :
    Listed text (testRows args) claimant :=
  ⟨⟨entry.pubkey, args.amount, some 0⟩,
    mem_testRows_iff.mpr ⟨(replaced_iff.mp gone).2, rfl, rfl⟩, parsed⟩

theorem replaced_of_testRows {entry : CsvEntry} {claimant : Pubkey}
    (included : args.shouldIncludeTestList = true)
    (test : Listed text (testRows args) claimant)
    (parsed : csvClaimant text entry = some claimant) : replaced args entry = true := by
  obtain ⟨row, own, same⟩ := test
  have wallet := (mem_testRows_iff.mp own).1
  rw [← pubkey_eq_of_claimant parsed same] at wallet
  exact replaced_iff.mpr ⟨included, wallet⟩

/-- The key of a kept row is no test wallet's. -/
theorem kept_not_test {entry : CsvEntry} (kept : entry ∈ keptRows args entries)
    {claimant : Pubkey} (parsed : csvClaimant text entry = some claimant)
    (included : args.shouldIncludeTestList = true) : ¬ Listed text (testRows args) claimant := by
  intro test
  have gone := replaced_of_testRows included test parsed
  rw [(mem_keptRows_iff.mp kept).2] at gone
  cases gone

/-- The test tree was built, so the key of a replaced row parses. -/
theorem TestTrees.parses (tested : TestTrees H text args last extra) {entry : CsvEntry}
    (gone : replaced args entry = true) : ∃ claimant, csvClaimant text entry = some claimant := by
  obtain ⟨included, wallet⟩ := replaced_iff.mp gone
  cases tested with
  | plain excluded => simp [excluded] at included
  | tested _ built =>
    obtain ⟨rows, converted, _⟩ := newFromEntries_ok_iff.mp built
    have own : ⟨entry.pubkey, args.amount, some 0⟩ ∈ testRows args :=
      mem_testRows_iff.mpr ⟨wallet, rfl, rfl⟩
    obtain ⟨p, position⟩ := List.mem_iff_getElem?.mp own
    obtain ⟨row, _, parsed⟩ := row_of_entry converted position
    exact ⟨row.claimant, parsed⟩

/-- All rows of a kept row's claimant are kept. -/
theorem Whole.of_kept {decimals : UInt32} {unit : CsvAmountUnit} {node : TreeNode}
    (whole : Whole text decimals unit (keptRows args entries) node)
    (listed : Listed text (keptRows args entries) node.claimant) :
    Whole text decimals unit entries node := by
  obtain ⟨entry, kept, parsed⟩ := listed
  have all : ∀ row ∈ entries, csvClaimant text row = some node.claimant →
      (!replaced args row) = true := by
    intro row _ same
    have notTest := (mem_keptRows_iff.mp kept).2
    rw [replaced, pubkey_eq_of_claimant parsed same] at notTest
    rw [replaced, notTest]
    rfl
  exact { amount := whole.amount.trans (total_filter _ _ all)
          locked := whole.locked.trans (total_filter _ _ all) }

/-- The CSV rows of a test wallet add up to what the command gives it in their place. -/
def TestWalletsAgree (text : PubkeyText) (args : CreateMerkleTreeArgs)
    (entries : List CsvEntry) : Prop :=
  ∀ entry ∈ entries, replaced args entry = true →
    total (csvClaimant text) (scaledAmount args.decimals args.csvAmountUnit) entries
        (csvClaimant text entry) =
      args.amount.toNat * baseUnits args.decimals args.csvAmountUnit ∧
    total (csvClaimant text) (scaledLocked args.decimals args.csvAmountUnit) entries
        (csvClaimant text entry) = 0

end TestList

/-! ### A run of the command -/

section Run
variable {H : HashFunction} {text : PubkeyText} {args : CreateMerkleTreeArgs}
  {start last : UInt64} {entries : List CsvEntry} {rows : List TreeNode}
  {made extra : List AirdropMerkleTree} (positive : 0 < args.maxNodesPerTree.toNat)
  (converted : (keptRows args entries).mapM
    (TreeNode.fromCsv text args.decimals args.csvAmountUnit) = .ok rows)
  (sharded : Sharded H args.maxNodesPerTree.toNat rows start made last)
  (tested : TestTrees H text args last extra)
include positive converted sharded tested

/-- The trees a claimant has leaves in. -/
theorem hasLeaf_run_iff (claimant : Pubkey) (i : Nat) :
    HasLeaf (made ++ extra) claimant i ↔
      (∃ p entry, (keptRows args entries)[p]? = some entry ∧
        csvClaimant text entry = some claimant ∧ p / args.maxNodesPerTree.toNat = i) ∨
      i = made.length ∧ args.shouldIncludeTestList = true ∧
        Listed text (testRows args) claimant := by
  rw [hasLeaf_append, hasLeaf_iff sharded positive converted, tested.hasLeaf_iff]
  refine or_congr_right ?_
  constructor
  · intro ⟨beyond, first, test⟩
    exact ⟨by omega, test⟩
  · intro ⟨position, test⟩
    exact ⟨by omega, by omega, test⟩

theorem oneShard_of_oneTree
    (oneTree : ∀ claimant, Listed text entries claimant →
      ∃! i, HasLeaf (made ++ extra) claimant i) :
    OneShardPerClaimant text args.maxNodesPerTree.toNat (keptRows args entries) := by
  have located := hasLeaf_run_iff positive converted sharded tested
  intro p q first second listedFirst listedSecond same
  obtain ⟨row, _, named⟩ := row_of_entry converted listedFirst
  have member := (mem_keptRows_iff.mp (List.mem_of_getElem? listedFirst)).1
  obtain ⟨i, _, unique⟩ := oneTree row.claimant ⟨first, member, named⟩
  have inFirst := (located row.claimant (p / _)).mpr
    (Or.inl ⟨p, first, listedFirst, named, rfl⟩)
  have inSecond := (located row.claimant (q / _)).mpr
    (Or.inl ⟨q, second, listedSecond, same ▸ named, rfl⟩)
  exact (unique _ inFirst).trans (unique _ inSecond).symm

/-- A replaced row's claimant is in the test tree only, any other in the tree its rows
point to. -/
theorem oneTree_of_oneShard
    (apart : OneShardPerClaimant text args.maxNodesPerTree.toNat (keptRows args entries))
    (claimant : Pubkey) (listed : Listed text entries claimant) :
    ∃! i, HasLeaf (made ++ extra) claimant i := by
  have located := hasLeaf_run_iff positive converted sharded tested claimant
  obtain ⟨entry, member, parsed⟩ := listed
  cases gone : replaced args entry with
  | true =>
    have included := (replaced_iff.mp gone).1
    have test := listed_testRows gone parsed
    refine ⟨made.length, (located _).mpr (Or.inr ⟨rfl, included, test⟩), ?_⟩
    intro i leaf
    rcases (located i).mp leaf with ⟨p, other, kept, named, _⟩ | ⟨position, _⟩
    · exact absurd test (kept_not_test (List.mem_of_getElem? kept) named included)
    · exact position
  | false =>
    have kept := mem_keptRows_iff.mpr ⟨member, gone⟩
    obtain ⟨p, here⟩ := List.mem_iff_getElem?.mp kept
    refine ⟨_, (located _).mpr (Or.inl ⟨p, entry, here, parsed, rfl⟩), ?_⟩
    intro i leaf
    rcases (located i).mp leaf with ⟨q, other, there, named, rfl⟩ | ⟨_, included, test⟩
    · exact apart q p other entry there here (named.trans parsed.symm)
    · exact absurd test (kept_not_test kept parsed included)

theorem leaves_of_agree
    (apart : OneShardPerClaimant text args.maxNodesPerTree.toNat (keptRows args entries))
    (agree : TestWalletsAgree text args entries) {tree : AirdropMerkleTree}
    (belongs : tree ∈ made ++ extra) {node : TreeNode} (leaf : node ∈ tree.treeNodes)
    (listed : Listed text entries node.claimant) :
    Whole text args.decimals args.csvAmountUnit entries node := by
  obtain ⟨entry, member, parsed⟩ := listed
  rcases List.mem_append.mp belongs with inShard | inTest
  · obtain ⟨i, here⟩ := List.mem_iff_getElem?.mp inShard
    obtain ⟨p, other, kept, named, _⟩ := (hasLeaf_iff sharded positive converted _ i).mp
      ⟨tree, here, List.mem_map_of_mem leaf⟩
    exact (whole_of_apart sharded positive converted apart inShard leaf).of_kept
      ⟨other, List.mem_of_getElem? kept, named⟩
  · obtain ⟨included, test, whole⟩ := tested.whole inTest leaf
    have gone := replaced_of_testRows included test parsed
    obtain ⟨amount, locked⟩ := agree entry member gone
    obtain ⟨scaled, unlocked⟩ := (whole_testRows_iff test).mp whole
    rw [parsed] at amount locked
    exact { amount := scaled.trans amount.symm, locked := unlocked.trans locked.symm }

omit positive converted sharded in
/-- The leaf of a replaced row has the command's amount, so the CSV must agree with it. -/
theorem agree_of_leaves
    (leaves : ∀ tree ∈ made ++ extra, ∀ node ∈ tree.treeNodes,
      Listed text entries node.claimant →
        Whole text args.decimals args.csvAmountUnit entries node) :
    TestWalletsAgree text args entries := by
  intro entry member gone
  obtain ⟨claimant, parsed⟩ := tested.parses gone
  have test := listed_testRows gone parsed
  obtain ⟨tree, position, leaf⟩ :=
    tested.hasLeaf_iff.mpr ⟨rfl, (replaced_iff.mp gone).1, test⟩
  obtain ⟨node, belongs, rfl⟩ := List.mem_map.mp leaf
  have inTest := List.mem_of_getElem? position
  have csv := leaves tree (List.mem_append_right _ inTest) node belongs ⟨entry, member, parsed⟩
  obtain ⟨amount, locked⟩ := (whole_testRows_iff test).mp (tested.whole inTest belongs).2.2
  rw [parsed, ← csv.amount, ← csv.locked]
  exact ⟨amount, locked⟩

end Run

/-- The trees of a CSV keep every claimant whole exactly when no claimant has rows in two
shards and, where the command replaces the rows of the test wallets, it gives them the same. -/
theorem claimants_whole_iff (rt : Runtime) (mint : Pubkey) {H : HashFunction} {text : PubkeyText}
    {args : CreateMerkleTreeArgs} {start : UInt64} {entries : List CsvEntry}
    {trees : List AirdropMerkleTree} (positive : 1 ≤ args.maxNodesPerTree.toNat)
    (success : processCreateMerkleTree H text args start entries = .ok trees) :
    ClaimantsWhole rt mint text args entries trees ↔
      OneShardPerClaimant text args.maxNodesPerTree.toNat (keptRows args entries) ∧
        TestWalletsAgree text args entries := by
  obtain ⟨rows, made, last, extra, converted, sharded, tested, rfl⟩ :=
    processCreateMerkleTree_ok positive success
  constructor
  · intro whole
    exact ⟨oneShard_of_oneTree positive converted sharded tested whole.oneTree,
      agree_of_leaves tested whole.leaves⟩
  · intro ⟨apart, agree⟩
    refine ClaimantsWhole.ofLeaves rt mint
      (oneTree_of_oneShard positive converted sharded tested apart) ?_
    intro tree belongs node leaf listed
    exact leaves_of_agree positive converted sharded tested apart agree belongs leaf listed

/-! ### A sample of text keys and CSV rows -/

namespace SampleCsv

theorem latin_byte (b : UInt8) : (Char.ofNat b.toNat).toNat = b.toNat := by
  have width := b.toNat_lt
  rw [Char.toNat_ofNat, if_pos]
  exact Or.inl (by omega)

theorem latin_char {c : Char} (small : c.toNat < 256) :
    Char.ofNat (UInt8.ofNat c.toNat).toNat = c := by
  rw [UInt8.toNat_ofNat', Nat.mod_eq_of_lt small, Char.ofNat_toNat]

/-- Keys written as 32 characters, one for each byte. -/
def latinText : PubkeyText where
  fromStr text :=
    if fits : text.toList.length = 32 ∧ ∀ c ∈ text.toList, c.toNat < 256 then
      some ⟨text.toList.map fun c => UInt8.ofNat c.toNat, by rw [List.length_map]; exact fits.1⟩
    else none
  toStr key := String.ofList (key.bytes.map fun b => Char.ofNat b.toNat)
  fromStr_toStr key := by
    have fits : (key.bytes.map fun b => Char.ofNat b.toNat).length = 32 ∧
        ∀ c ∈ key.bytes.map fun b => Char.ofNat b.toNat, c.toNat < 256 := by
      refine ⟨by rw [List.length_map, key.length_eq], fun c member => ?_⟩
      obtain ⟨b, _, rfl⟩ := List.mem_map.mp member
      rw [latin_byte]
      exact b.toNat_lt
    have decoded : (key.bytes.map fun b => Char.ofNat b.toNat).map
        (fun c => UInt8.ofNat c.toNat) = key.bytes := by
      rw [List.map_map]
      conv_rhs => rw [← List.map_id key.bytes]
      exact List.map_congr_left fun b _ => by simp [latin_byte]
    simp only [String.toList_ofList, dif_pos fits, decoded]
  fromStr_inj {first second key} parsedFirst parsedSecond := by
    simp only [Option.dite_none_right_eq_some, Option.some.injEq] at parsedFirst parsedSecond
    obtain ⟨fitsFirst, rfl⟩ := parsedFirst
    obtain ⟨fitsSecond, same⟩ := parsedSecond
    have recover : ∀ chars : List Char, (∀ c ∈ chars, c.toNat < 256) →
        (chars.map fun c => UInt8.ofNat c.toNat).map (fun b => Char.ofNat b.toNat) = chars := by
      intro chars small
      rw [List.map_map]
      conv_rhs => rw [← List.map_id chars]
      exact List.map_congr_left fun c member => latin_char (small c member)
    have bytes := congrArg (fun key : Bytes32 => key.bytes.map fun b => Char.ofNat b.toNat) same
    simp only [recover _ fitsFirst.2, recover _ fitsSecond.2] at bytes
    exact String.toList_inj.mp bytes.symm

/-- A CSV row and what it converts to, in base units. -/
def row (key : Pubkey) (amount : UInt64) : CsvEntry :=
  { pubkey := latinText.toStr key, amount, lockedAmount := none }

def leaf (claimant : Pubkey) (amount : UInt64) (proof : Option (List Hash)) : TreeNode :=
  { claimant, amount, lockedAmount := none, proof }

def alice : Pubkey := .filled 65
def bob : Pubkey := .filled 66

/-- Two rows in each tree. -/
def pairs : CreateMerkleTreeArgs :=
  { maxNodesPerTree := 2, shouldIncludeTestList := false, amount := 0, decimals := 0,
    csvAmountUnit := .tokens }

def digest (_ : Bytes) : Hash := .filled 7

def create (rows : List CsvEntry) : Except CliFailure (List AirdropMerkleTree) :=
  processCreateMerkleTree digest latinText pairs 0 rows

theorem plain_units (amount : UInt64) : csvAmountToBaseUnits amount 0 .tokens = .ok amount := by
  have power : checkedPowU64 10 0 = some 1 := by decide
  have product : checkedMulU64 amount 1 = some amount := by
    rw [checkedMulU64_eq_some]
    simp
  simp only [csvAmountToBaseUnits, bind_ok_iff, okOr_ok_iff]
  exact ⟨1, power, product⟩

theorem fromCsv_row (key : Pubkey) (amount : UInt64) :
    TreeNode.fromCsv latinText 0 .tokens (row key amount) = .ok (leaf key amount none) := by
  have parsed : latinText.fromStr (latinText.toStr key) = some key := latinText.fromStr_toStr key
  simp only [TreeNode.fromCsv, row, plain_units, lockedToBaseUnits, parsed, okOr]
  rfl

theorem csvClaimant_row (key : Pubkey) (amount : UInt64) :
    csvClaimant latinText (row key amount) = some key :=
  latinText.fromStr_toStr key

/-- Three rows make two trees. -/
theorem create_three (first second third : Pubkey) (a b c : UInt64)
    (front back : AirdropMerkleTree)
    (frontBuilt : AirdropMerkleTree.new digest [leaf first a none, leaf second b none] 0 =
      .ok front)
    (backBuilt : AirdropMerkleTree.new digest [leaf third c none] 1 = .ok back) :
    create [row first a, row second b, row third c] = .ok [front, back] := by
  refine (processCreateMerkleTree_ok_iff rfl (by decide)).mpr
    ⟨[leaf first a none, leaf second b none, leaf third c none], 2, ?_, ?_, by decide⟩
  · have converted : ∀ key amount, TreeNode.fromCsv latinText pairs.decimals pairs.csvAmountUnit
        (row key amount) = .ok (leaf key amount none) := fromCsv_row
    simp only [List.mapM_cons, List.mapM_nil, converted]
    rfl
  · exact .cut (List.cons_ne_nil _ _) frontBuilt rfl
      (.cut (List.cons_ne_nil _ _) backBuilt rfl (.done 2))

end SampleCsv

open SampleCsv in
/-- Both rows of the first claimant fall into the first tree. -/
theorem claimants_whole_adjacent :
    ∃ trees, create [row alice 1, row alice 2, row bob 3] = .ok trees ∧
      ClaimantsWhole Sample.rt Sample.mint latinText pairs
        [row alice 1, row alice 2, row bob 3] trees := by
  have success := create_three alice alice bob 1 2 3
    ⟨digest [], 0, 1, 3, [leaf alice 3 (some [])]⟩ ⟨digest [], 1, 1, 3, [leaf bob 3 (some [])]⟩
    (by decide +kernel) (by decide +kernel)
  refine ⟨_, success, (claimants_whole_iff Sample.rt Sample.mint (by decide) success).mpr ?_⟩
  rw [keptRows_plain rfl]
  refine ⟨?_, fun entry _ gone => absurd (replaced_iff.mp gone).1 (by decide)⟩
  have keys : ∀ p entry, [row alice 1, row alice 2, row bob 3][p]? = some entry →
      csvClaimant latinText entry = some (if p / 2 = 0 then alice else bob) ∧ p / 2 < 2 := by
    intro p entry listed
    have bound := (List.getElem?_eq_some_iff.mp listed).1
    simp only [List.length_cons, List.length_nil] at bound
    interval_cases p <;> cases listed <;> exact ⟨csvClaimant_row _ _, by decide⟩
  intro p q first second listedFirst listedSecond same
  obtain ⟨keyFirst, boundFirst⟩ := keys p first listedFirst
  obtain ⟨keySecond, boundSecond⟩ := keys q second listedSecond
  rw [keyFirst, keySecond, Option.some.injEq] at same
  change p / 2 = q / 2
  have different : alice ≠ bob := by decide
  split at same <;> split at same
  · omega
  · exact absurd same different
  · exact absurd same.symm different
  · omega

open SampleCsv in
/-- The first claimant's second row falls into the second tree: it has a leaf in both, and
the server that loads them in the order of their versions serves 3 of its 4 units. -/
theorem split_claimant_served_in_part :
    ∃ trees, create [row alice 1, row bob 2, row alice 3] = .ok trees ∧
      ¬ ClaimantsWhole Sample.rt Sample.mint latinText pairs
        [row alice 1, row bob 2, row alice 3] trees ∧
      HasLeaf trees alice 0 ∧ HasLeaf trees alice 1 ∧
      (loadTrees Sample.rt Sample.mint trees alice).map (fun found => found.2.amount) = some 3 := by
  let front : AirdropMerkleTree :=
    ⟨digest [], 0, 2, 3, [leaf alice 1 (some [digest []]), leaf bob 2 (some [digest []])]⟩
  let back : AirdropMerkleTree := ⟨digest [], 1, 1, 3, [leaf alice 3 (some [])]⟩
  have success := create_three alice bob alice 1 2 3 front back
    (by decide +kernel) (by decide +kernel)
  have inFront : HasLeaf [front, back] alice 0 := ⟨front, rfl, by decide⟩
  have inBack : HasLeaf [front, back] alice 1 := ⟨back, rfl, by decide⟩
  refine ⟨[front, back], success, fun whole => ?_, inFront, inBack, by decide +kernel⟩
  obtain ⟨i, _, unique⟩ :=
    whole.oneTree alice ⟨row alice 1, List.mem_cons_self, csvClaimant_row alice 1⟩
  have same := (unique 0 inFront).trans (unique 1 inBack).symm
  cases same

end MultiDistributor.Guarantees.Sharding

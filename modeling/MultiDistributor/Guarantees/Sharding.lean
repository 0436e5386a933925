import MultiDistributor.Guarantees.TreeBuilding
import MultiDistributor.Source.CreateMerkleTree

/-!
# Rows cut into trees

The loop of `process_create_merkle_tree` takes rows off the front of the CSV before
anything looks at their claimants. `Sharded` is that loop over converted rows without its
fuel: row `p` goes into tree `p / n`, where `n` is the size of a shard. A claimant is
whole in one tree exactly when all its rows have the same quotient.
-/
namespace MultiDistributor.Guarantees.Sharding
open Source Lib.Checked Lib.Grouping MerkleProofs TreeBuilding

/-- Consecutive trees of `n` rows each, from `version` up to the unused version `last`. -/
inductive Sharded (H : HashFunction) (n : Nat) :
    List TreeNode → UInt64 → List AirdropMerkleTree → UInt64 → Prop where
  | done (version : UInt64) : Sharded H n [] version [] version
  | cut {rows : List TreeNode} {version next last : UInt64} {tree : AirdropMerkleTree}
      {trees : List AirdropMerkleTree} (remaining : rows ≠ [])
      (built : AirdropMerkleTree.new H (rows.take n) version = .ok tree)
      (counted : next.toNat = version.toNat + 1)
      (later : Sharded H n (rows.drop n) next trees last) :
      Sharded H n rows version (tree :: trees) last

/-! ### The loop -/

theorem newFromEntries_ok_iff {H : HashFunction} {text : PubkeyText} {entries : List CsvEntry}
    {version : UInt64} {decimals : UInt32} {unit : CsvAmountUnit} {tree : AirdropMerkleTree} :
    AirdropMerkleTree.newFromEntries H text entries version decimals unit = .ok tree ↔
      ∃ rows, entries.mapM (TreeNode.fromCsv text decimals unit) = .ok rows ∧
        AirdropMerkleTree.new H rows version = .ok tree := by
  simp only [AirdropMerkleTree.newFromEntries, bind_ok_iff, mapError_ok_iff]

theorem sharded_nil_iff {H : HashFunction} {n : Nat} {version last : UInt64}
    {trees : List AirdropMerkleTree} :
    Sharded H n [] version trees last ↔ trees = [] ∧ last = version := by
  constructor
  · intro sharded
    cases sharded with
    | done => exact ⟨rfl, rfl⟩
    | cut remaining => exact absurd rfl remaining
  · rintro ⟨rfl, rfl⟩
    exact .done _

theorem shardLoop_nil_iff {H : HashFunction} {text : PubkeyText} {args : CreateMerkleTreeArgs}
    {fuel : Nat} {version last : UInt64} {trees : List AirdropMerkleTree} :
    shardLoop H text args fuel [] version = .ok (trees, last) ↔
      ∃ rows, ([] : List CsvEntry).mapM
          (TreeNode.fromCsv text args.decimals args.csvAmountUnit) = .ok rows ∧
        Sharded H args.maxNodesPerTree.toNat rows version trees last := by
  have stops : shardLoop H text args fuel [] version = .ok ([], version) := by
    cases fuel <;> rfl
  simp only [stops, List.mapM_nil, pure_ok_iff, exists_eq_left', sharded_nil_iff,
    Except.ok.injEq, Prod.mk.injEq]
  exact and_congr eq_comm eq_comm

/-- The iteration over a non-empty CSV. -/
theorem shardLoop_cons_iff {H : HashFunction} {text : PubkeyText} {args : CreateMerkleTreeArgs}
    {fuel : Nat} {entries : List CsvEntry} (remaining : entries ≠ []) {version last : UInt64}
    {trees : List AirdropMerkleTree} :
    shardLoop H text args (fuel + 1) entries version = .ok (trees, last) ↔
      ∃ tree front next rest,
        (entries.take args.maxNodesPerTree.toNat).mapM
          (TreeNode.fromCsv text args.decimals args.csvAmountUnit) = .ok front ∧
        AirdropMerkleTree.new H front version = .ok tree ∧ next.toNat = version.toNat + 1 ∧
        shardLoop H text args fuel (entries.drop args.maxNodesPerTree.toNat) next =
          .ok (rest, last) ∧
        trees = tree :: rest := by
  have some_row : entries.length ≠ 0 := fun zero => remaining (List.length_eq_zero_iff.mp zero)
  have takes : entries.take (min args.maxNodesPerTree.toNat entries.length) =
      entries.take args.maxNodesPerTree.toNat := List.take_eq_take_min.symm
  have drops : entries.drop (min args.maxNodesPerTree.toNat entries.length) =
      entries.drop args.maxNodesPerTree.toNat := List.drop_eq_drop_min.symm
  simp only [shardLoop, if_neg some_row, takes, drops, bind_ok_iff, orPanic_ok_iff,
    newFromEntries_ok_iff, okOr_ok_iff, checkedAdd_eq_some, pure_ok_iff, Prod.mk.injEq]
  constructor
  · rintro ⟨tree, ⟨front, converted, built⟩, next, counted, ⟨rest, final⟩, looped, rfl, rfl⟩
    exact ⟨tree, front, next, rest, converted, built, counted, looped, rfl⟩
  · rintro ⟨tree, front, next, rest, converted, built, counted, looped, rfl⟩
    exact ⟨tree, ⟨front, converted, built⟩, next, counted, ⟨rest, last⟩, looped, rfl, rfl⟩

/-- With one iteration for each row, the loop returns exactly what the relation allows. -/
theorem shardLoop_ok_iff {H : HashFunction} {text : PubkeyText} {args : CreateMerkleTreeArgs}
    (positive : 0 < args.maxNodesPerTree.toNat) {fuel : Nat} {entries : List CsvEntry}
    (enough : entries.length ≤ fuel) {version last : UInt64} {trees : List AirdropMerkleTree} :
    shardLoop H text args fuel entries version = .ok (trees, last) ↔
      ∃ rows, entries.mapM (TreeNode.fromCsv text args.decimals args.csvAmountUnit) = .ok rows ∧
        Sharded H args.maxNodesPerTree.toNat rows version trees last := by
  induction fuel generalizing entries version trees with
  | zero =>
    have none : entries = [] := List.length_eq_zero_iff.mp (Nat.le_zero.mp enough)
    subst none
    exact shardLoop_nil_iff
  | succ fuel ih =>
    by_cases remaining : entries = []
    · subst remaining
      exact shardLoop_nil_iff
    have shorter : (entries.drop args.maxNodesPerTree.toNat).length ≤ fuel := by
      have some_row := List.length_pos_of_ne_nil remaining
      rw [List.length_drop]
      omega
    simp only [shardLoop_cons_iff remaining, ih shorter]
    constructor
    · rintro ⟨tree, front, next, rest, converted, built, counted, ⟨back, tail, later⟩, rfl⟩
      have whole : entries.mapM (TreeNode.fromCsv text args.decimals args.csvAmountUnit) =
          .ok (front ++ back) := by
        rw [← List.take_append_drop args.maxNodesPerTree.toNat entries, List.mapM_append,
          converted, tail]
        rfl
      obtain ⟨first, second⟩ := (mapM_split args.maxNodesPerTree.toNat).mp whole
      have front_eq := Except.ok.inj (converted.symm.trans first)
      have back_eq := Except.ok.inj (tail.symm.trans second)
      have some_row : front ++ back ≠ [] := by
        intro none
        have count := length_of_mapM whole
        rw [none] at count
        exact remaining (List.length_eq_zero_iff.mp count.symm)
      rw [front_eq] at built
      rw [back_eq] at later
      exact ⟨front ++ back, whole, .cut some_row built counted later⟩
    · rintro ⟨rows, converted, sharded⟩
      obtain ⟨first, second⟩ := (mapM_split args.maxNodesPerTree.toNat).mp converted
      cases sharded with
      | done =>
        have count := length_of_mapM converted
        exact absurd (List.length_eq_zero_iff.mp count.symm) remaining
      | cut _ built counted later =>
        exact ⟨_, _, _, _, first, built, counted, ⟨_, second, later⟩, rfl⟩

/-! ### Which rows are in which tree -/

section Trees
variable {H : HashFunction} {n : Nat} {rows : List TreeNode} {version last : UInt64}
  {trees : List AirdropMerkleTree}

/-- The rows of the shard with index `i`. -/
def shard (n : Nat) (rows : List TreeNode) (i : Nat) : List TreeNode :=
  (rows.drop (i * n)).take n

/-- Trees carry consecutive versions and are built from consecutive shards. -/
theorem Sharded.treeAt (sharded : Sharded H n rows version trees last) {i : Nat}
    {tree : AirdropMerkleTree} (here : trees[i]? = some tree) :
    ∃ own, own.toNat = version.toNat + i ∧
      AirdropMerkleTree.new H (shard n rows i) own = .ok tree := by
  induction sharded generalizing i with
  | done => simp at here
  | @cut rows version next last first trees remaining built counted later ih =>
    cases i with
    | zero =>
      cases here
      exact ⟨version, rfl, by simpa [shard] using built⟩
    | succ i =>
      obtain ⟨own, position, ownBuilt⟩ := ih (by simpa using here)
      refine ⟨own, by omega, ?_⟩
      have moved : shard n (rows.drop n) i = shard n rows (i + 1) := by
        rw [shard, shard, List.drop_drop, Nat.add_mul, Nat.one_mul, Nat.add_comm n]
      rw [← moved]
      exact ownBuilt

/-- Every row is in the tree its position points to. -/
theorem Sharded.covers (sharded : Sharded H n rows version trees last) (positive : 0 < n)
    {p : Nat} (bound : p < rows.length) : ∃ tree, trees[p / n]? = some tree := by
  induction sharded generalizing p with
  | done => simp at bound
  | @cut rows version next last first trees remaining built counted later ih =>
    by_cases inside : p < n
    · rw [Nat.div_eq_of_lt inside]
      exact ⟨first, rfl⟩
    · have after : p - n < (rows.drop n).length := by
        rw [List.length_drop]
        omega
      obtain ⟨tree, found⟩ := ih after
      refine ⟨tree, ?_⟩
      rw [Nat.div_eq_sub_div positive (Nat.le_of_not_lt inside), List.getElem?_cons_succ]
      exact found

theorem Sharded.claims_sum (sharded : Sharded H n rows version trees last) :
    (trees.map fun tree => tree.maxTotalClaim.toNat).sum = (rows.map entitlement).sum := by
  induction sharded with
  | done => rfl
  | @cut rows version next last first trees remaining built counted later ih =>
    rw [List.map_cons, List.sum_cons, ih, (treeOfRows_of_new built).2.total, ← List.sum_append,
      ← List.map_append, List.take_append_drop]

theorem mem_shard_iff {i : Nat} {row : TreeNode} (positive : 0 < n) :
    row ∈ shard n rows i ↔ ∃ p, rows[p]? = some row ∧ p / n = i := by
  rw [List.mem_iff_getElem?]
  constructor
  · rintro ⟨offset, found⟩
    rw [shard, List.getElem?_take] at found
    split at found
    · next inside =>
      rw [List.getElem?_drop] at found
      refine ⟨i * n + offset, found, ?_⟩
      rw [Nat.mul_comm, Nat.mul_add_div positive, Nat.div_eq_of_lt inside, Nat.add_zero]
    · cases found
  · rintro ⟨p, found, rfl⟩
    refine ⟨p % n, ?_⟩
    rw [shard, List.getElem?_take, if_pos (Nat.mod_lt p positive), List.getElem?_drop,
      Nat.mul_comm, Nat.div_add_mod]
    exact found

/-- A claimant has a leaf in the trees its rows point to, and in no other. -/
theorem Sharded.claimant_mem_iff (sharded : Sharded H n rows version trees last)
    (positive : 0 < n) {i : Nat} {tree : AirdropMerkleTree} (here : trees[i]? = some tree)
    (claimant : Pubkey) :
    claimant ∈ tree.treeNodes.map TreeNode.claimant ↔
      ∃ p row, rows[p]? = some row ∧ row.claimant = claimant ∧ p / n = i := by
  obtain ⟨own, _, built⟩ := sharded.treeAt here
  rw [(treeOfRows_of_new built).2.combines.mem_iff, List.mem_map]
  constructor
  · rintro ⟨row, member, rfl⟩
    obtain ⟨p, found, position⟩ := (mem_shard_iff positive).mp member
    exact ⟨p, row, found, rfl, position⟩
  · rintro ⟨p, row, found, rfl, position⟩
    exact ⟨row, (mem_shard_iff positive).mpr ⟨p, found, position⟩, rfl⟩

/-- No claimant has rows in two shards. -/
def OneShard (n : Nat) (rows : List TreeNode) : Prop :=
  ∀ p q first second, rows[p]? = some first → rows[q]? = some second →
    first.claimant = second.claimant → p / n = q / n

/-- A claimant with all its rows in one shard has its whole sum there. -/
theorem total_shard (value : TreeNode → Nat) (positive : 0 < n) (apart : OneShard n rows)
    {i : Nat} {claimant : Pubkey} (listed : claimant ∈ (shard n rows i).map TreeNode.claimant) :
    total TreeNode.claimant value (shard n rows i) claimant =
      total TreeNode.claimant value rows claimant := by
  obtain ⟨row, member, rfl⟩ := List.mem_map.mp listed
  obtain ⟨p, found, position⟩ := (mem_shard_iff positive).mp member
  have elsewhere : ∀ q other, rows[q]? = some other → other.claimant = row.claimant →
      q / n = i := by
    intro q other foundOther same
    rw [← position]
    exact apart q p other row foundOther found same
  have before : row.claimant ∉ (rows.take (i * n)).map TreeNode.claimant := by
    intro earlier
    obtain ⟨other, belongs, same⟩ := List.mem_map.mp earlier
    obtain ⟨q, foundOther⟩ := List.mem_iff_getElem?.mp belongs
    rw [List.getElem?_take] at foundOther
    split at foundOther
    · next inside =>
      have index := elsewhere q other foundOther same
      rw [Nat.div_eq_iff positive] at index
      omega
    · cases foundOther
  have after : row.claimant ∉ ((rows.drop (i * n)).drop n).map TreeNode.claimant := by
    intro later
    obtain ⟨other, belongs, same⟩ := List.mem_map.mp later
    obtain ⟨q, foundOther⟩ := List.mem_iff_getElem?.mp belongs
    rw [List.getElem?_drop, List.getElem?_drop] at foundOther
    have index := elsewhere _ other foundOther same
    rw [Nat.div_eq_iff positive] at index
    have step : (i + 1) * n = i * n + n := Nat.succ_mul i n
    omega
  have parted : rows = rows.take (i * n) ++ (shard n rows i ++ (rows.drop (i * n)).drop n) := by
    rw [shard, List.take_append_drop, List.take_append_drop]
  conv_rhs => rw [parted]
  rw [total_append, total_append, total_of_absent _ _ before, total_of_absent _ _ after,
    Nat.zero_add, Nat.add_zero]

/-- Under that condition every leaf holds the sums of all rows of its claimant. -/
theorem Sharded.whole (sharded : Sharded H n rows version trees last) (positive : 0 < n)
    (apart : OneShard n rows) {i : Nat} {tree : AirdropMerkleTree}
    (here : trees[i]? = some tree) {node : TreeNode} (leaf : node ∈ tree.treeNodes) :
    amountValue node = total TreeNode.claimant amountValue rows node.claimant ∧
      lockedValue node = total TreeNode.claimant lockedValue rows node.claimant := by
  obtain ⟨own, _, built⟩ := sharded.treeAt here
  have combines := (treeOfRows_of_new built).2.combines
  have listed := (combines.mem_iff node.claimant).mp (List.mem_map_of_mem leaf)
  rw [combines.amounts node leaf, combines.locked node leaf,
    total_shard amountValue positive apart listed, total_shard lockedValue positive apart listed]
  exact ⟨rfl, rfl⟩

theorem Sharded.versionAt (sharded : Sharded H n rows version trees last) {i : Nat}
    {tree : AirdropMerkleTree} (here : trees[i]? = some tree) :
    tree.airdropVersion.toNat = version.toNat + i := by
  obtain ⟨own, position, built⟩ := sharded.treeAt here
  rw [(treeOfRows_of_new built).2.version, position]

/-- A tree has no more leaves than its shard has rows. -/
theorem Sharded.leaves_le (sharded : Sharded H n rows version trees last)
    {tree : AirdropMerkleTree} (made : tree ∈ trees) : tree.treeNodes.length ≤ n := by
  obtain ⟨i, here⟩ := List.mem_iff_getElem?.mp made
  obtain ⟨own, _, built⟩ := sharded.treeAt here
  have combines := (treeOfRows_of_new built).2.combines
  have within : tree.treeNodes.map TreeNode.claimant ⊆ (shard n rows i).map TreeNode.claimant :=
    fun claimant leaf => (combines.mem_iff claimant).mp leaf
  calc tree.treeNodes.length
      = (tree.treeNodes.map TreeNode.claimant).length := (List.length_map _).symm
    _ ≤ ((shard n rows i).map TreeNode.claimant).length :=
        (List.subperm_of_subset combines.distinct within).length_le
    _ ≤ n := by
        rw [List.length_map]
        exact List.length_take_le _ _

/-- Over all trees together no claimant has two leaves. -/
theorem Sharded.leaves_nodup (sharded : Sharded H n rows version trees last) (positive : 0 < n)
    (apart : OneShard n rows) :
    ((trees.flatMap AirdropMerkleTree.treeNodes).map TreeNode.claimant).Nodup := by
  rw [List.map_flatMap, List.nodup_flatMap]
  constructor
  · intro tree made
    obtain ⟨i, here⟩ := List.mem_iff_getElem?.mp made
    obtain ⟨own, _, built⟩ := sharded.treeAt here
    exact (treeOfRows_of_new built).2.combines.distinct
  · rw [List.pairwise_iff_getElem]
    intro i j boundI boundJ before claimant leafI leafJ
    obtain ⟨p, first, foundFirst, named, rfl⟩ :=
      (sharded.claimant_mem_iff positive (List.getElem?_eq_getElem boundI) claimant).mp leafI
    obtain ⟨q, second, foundSecond, namedSecond, rfl⟩ :=
      (sharded.claimant_mem_iff positive (List.getElem?_eq_getElem boundJ) claimant).mp leafJ
    have same := apart p q first second foundFirst foundSecond (named.trans namedSecond.symm)
    omega

end Trees

/-! ### Whole entitlements -/

section Rows
variable {text : PubkeyText} {decimals : UInt32} {unit : CsvAmountUnit} {entries : List CsvEntry}
  {rows : List TreeNode}

/-- The claimant a row names. -/
def csvClaimant (text : PubkeyText) (entry : CsvEntry) : Option Pubkey :=
  text.fromStr entry.pubkey

def scaledAmount (decimals : UInt32) (unit : CsvAmountUnit) (entry : CsvEntry) : Nat :=
  entry.amount.toNat * baseUnits decimals unit

def scaledLocked (decimals : UInt32) (unit : CsvAmountUnit) (entry : CsvEntry) : Nat :=
  (entry.lockedAmount.getD 0).toNat * baseUnits decimals unit

/-- A leaf with the scaled sums of all rows of its claimant. -/
structure Whole (text : PubkeyText) (decimals : UInt32) (unit : CsvAmountUnit)
    (entries : List CsvEntry) (node : TreeNode) : Prop where
  amount : node.amount.toNat =
    total (csvClaimant text) (scaledAmount decimals unit) entries (some node.claimant)
  locked : (node.lockedAmount.getD 0).toNat =
    total (csvClaimant text) (scaledLocked decimals unit) entries (some node.claimant)

/-- Converting the rows keeps every sum by claimant. -/
theorem total_converted {value : TreeNode → Nat} {column : CsvEntry → Nat}
    (keeps : ∀ entry node, FromCsv text decimals unit entry node → value node = column entry)
    (converted : entries.mapM (TreeNode.fromCsv text decimals unit) = .ok rows)
    (claimant : Pubkey) :
    total TreeNode.claimant value rows claimant =
      total (csvClaimant text) column entries (some claimant) := by
  induction entries generalizing rows with
  | nil =>
    cases converted
    rfl
  | cons entry entries ih =>
    simp only [List.mapM_cons, bind_ok_iff, pure_ok_iff] at converted
    obtain ⟨node, single, rest, traversed, rfl⟩ := converted
    have row := fromCsv_ok single
    rw [total_cons, total_cons, ih traversed, keeps entry node row, csvClaimant, row.claimant]
    simp only [Option.some.injEq]

theorem total_amounts (converted : entries.mapM (TreeNode.fromCsv text decimals unit) = .ok rows)
    (claimant : Pubkey) :
    total TreeNode.claimant amountValue rows claimant =
      total (csvClaimant text) (scaledAmount decimals unit) entries (some claimant) :=
  total_converted (fun _ _ row => row.amount) converted claimant

theorem total_locked (converted : entries.mapM (TreeNode.fromCsv text decimals unit) = .ok rows)
    (claimant : Pubkey) :
    total TreeNode.claimant lockedValue rows claimant =
      total (csvClaimant text) (scaledLocked decimals unit) entries (some claimant) :=
  total_converted (fun _ _ row => row.locked) converted claimant

/-- No claimant has CSV rows in two shards of `n` rows. -/
def OneShardPerClaimant (text : PubkeyText) (n : Nat) (entries : List CsvEntry) : Prop :=
  ∀ p q first second, entries[p]? = some first → entries[q]? = some second →
    csvClaimant text first = csvClaimant text second → p / n = q / n

/-- Every CSV row was converted, under the claimant it names. -/
theorem row_of_entry (converted : entries.mapM (TreeNode.fromCsv text decimals unit) = .ok rows)
    {p : Nat} {entry : CsvEntry} (listed : entries[p]? = some entry) :
    ∃ row, rows[p]? = some row ∧ csvClaimant text entry = some row.claimant := by
  have bound : p < rows.length := by
    rw [length_of_mapM converted]
    exact (List.getElem?_eq_some_iff.mp listed).1
  have found := List.getElem?_eq_getElem bound
  obtain ⟨other, listedOther, single⟩ := (getElem?_of_mapM converted p _).mp found
  cases listed.symm.trans listedOther
  exact ⟨rows[p], found, (fromCsv_ok single).claimant⟩

theorem entry_of_row (converted : entries.mapM (TreeNode.fromCsv text decimals unit) = .ok rows)
    {p : Nat} {row : TreeNode} (found : rows[p]? = some row) :
    ∃ entry, entries[p]? = some entry ∧ csvClaimant text entry = some row.claimant := by
  obtain ⟨entry, listed, single⟩ := (getElem?_of_mapM converted p row).mp found
  exact ⟨entry, listed, (fromCsv_ok single).claimant⟩

theorem oneShard_iff (converted : entries.mapM (TreeNode.fromCsv text decimals unit) = .ok rows)
    (n : Nat) : OneShard n rows ↔ OneShardPerClaimant text n entries := by
  constructor
  · intro apart p q first second listedFirst listedSecond same
    obtain ⟨row, found, named⟩ := row_of_entry converted listedFirst
    obtain ⟨other, foundOther, namedOther⟩ := row_of_entry converted listedSecond
    rw [named, namedOther, Option.some.injEq] at same
    exact apart p q row other found foundOther same
  · intro apart p q first second foundFirst foundSecond same
    obtain ⟨entry, listed, named⟩ := entry_of_row converted foundFirst
    obtain ⟨other, listedOther, namedOther⟩ := entry_of_row converted foundSecond
    refine apart p q entry other listed listedOther ?_
    rw [named, namedOther, same]

/-- Without a test list the command is its loop. The version after the last tree cannot be
zero, since the command prints the one before it. -/
theorem processCreateMerkleTree_ok_iff {H : HashFunction} {text : PubkeyText}
    {args : CreateMerkleTreeArgs} {start : UInt64} {entries : List CsvEntry}
    {trees : List AirdropMerkleTree} (plain : args.shouldIncludeTestList = false)
    (positive : 0 < args.maxNodesPerTree.toNat) :
    processCreateMerkleTree H text args start entries = .ok trees ↔
      ∃ rows last,
        entries.mapM (TreeNode.fromCsv text args.decimals args.csvAmountUnit) = .ok rows ∧
          Sharded H args.maxNodesPerTree.toNat rows start trees last ∧ last ≠ 0 := by
  have nonzero : ∀ last : UInt64, (∃ printed, checkedSub last 1 = some printed) ↔ last ≠ 0 := by
    intro last
    simp only [checkedSub_eq_some, ne_eq, ← UInt64.toNat_inj]
    constructor
    · rintro ⟨printed, difference⟩ zero
      rw [zero] at difference
      simp at difference
    · intro some_version
      have width := last.toNat_lt
      obtain ⟨printed, value⟩ := exists_u64 (show last.toNat - 1 < 2 ^ 64 by omega)
      have one : (1 : UInt64).toNat = 1 := rfl
      have zero : (0 : UInt64).toNat = 0 := rfl
      exact ⟨printed, by omega⟩
  simp only [processCreateMerkleTree, plain, Bool.false_eq_true, if_false, bind_ok_iff,
    pure_ok_iff, okOr_ok_iff]
  constructor
  · rintro ⟨⟨made, last⟩, looped, _, rfl, printed, difference, rfl⟩
    obtain ⟨rows, converted, sharded⟩ :=
      (shardLoop_ok_iff positive (Nat.le_refl entries.length)).mp looped
    exact ⟨rows, last, converted, sharded, (nonzero last).mp ⟨printed, difference⟩⟩
  · rintro ⟨rows, last, converted, sharded, some_version⟩
    obtain ⟨printed, difference⟩ := (nonzero last).mpr some_version
    exact ⟨(trees, last),
      (shardLoop_ok_iff positive (Nat.le_refl entries.length)).mpr ⟨rows, converted, sharded⟩,
      _, rfl, printed, difference, rfl⟩

end Rows

end MultiDistributor.Guarantees.Sharding

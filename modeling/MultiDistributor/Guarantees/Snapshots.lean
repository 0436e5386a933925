import MultiDistributor.Guarantees.InsuranceFund
import MultiDistributor.Source.PrepareIf

/-!
# From the insurance-fund snapshots to the leaves

The script sums a snapshot by authority and drops small sums, market by market; the
aggregation sums the markets of a mint; the builder makes one leaf of each claimant. A
snapshot may list an authority many times and in any order, and its numbers may be negative.
-/
namespace MultiDistributor.Guarantees.InsuranceFund
open Source Lib Lib.Checked Lib.Grouping MerkleProofs TreeBuilding Sharding

/-! ### Sums of a snapshot -/

/-- What a row adds, and to which authority. -/
def contribution (python : PythonText) (row : SnapshotRow) : Option (String × Int) := do
  let authority := python.strip (← row.authority)
  let raw := python.strip (← row.tokenAmount)
  if authority = "" ∨ raw = "" then none
  else (python.int raw).map fun amount => (authority, amount)

/-- What a row adds to one authority. -/
def contributes (python : PythonText) (authority : String) (row : SnapshotRow) : Int :=
  match contribution python row with
  | some (owner, amount) => if owner = authority then amount else 0
  | none => 0

def snapshotTotal (python : PythonText) (rows : List SnapshotRow) (authority : String) : Int :=
  (rows.map (contributes python authority)).sum

/-- The dictionary after some rows. -/
def TotalsOf (python : PythonText) (rows : List SnapshotRow) (totals : SortedMap String Int) :
    Prop :=
  ∀ authority, (totals.get? authority).getD 0 = snapshotTotal python rows authority

section
variable {python : PythonText} {rows : List SnapshotRow} {totals next : SortedMap String Int}

theorem TotalsOf.step {row : SnapshotRow} (held : TotalsOf python rows totals)
    (success : addSnapshotRow python totals row = .ok next) :
    TotalsOf python (rows ++ [row]) next := by
  intro authority
  simp only [addSnapshotRow, bind_ok_iff, okOr_ok_iff] at success
  obtain ⟨owner, named, raw, given, rest⟩ := success
  simp only [snapshotTotal, List.map_append, List.map_singleton, List.sum_append,
    List.sum_singleton, contributes, contribution, named, given, Option.bind_eq_bind,
    Option.bind_some]
  have before := held authority
  rw [snapshotTotal] at before
  by_cases blank : python.strip owner = "" ∨ python.strip raw = ""
  · rw [if_pos blank, pure_ok_iff] at rest
    rw [if_pos blank, ← rest, before]
    simp
  · rw [if_neg blank] at rest ⊢
    simp only [bind_ok_iff, okOr_ok_iff, pure_ok_iff] at rest
    obtain ⟨amount, parsed, rfl⟩ := rest
    rw [SortedMap.get?_insert, parsed, ← before]
    by_cases same : authority = python.strip owner
    · simp [same]
    · simp [same, Ne.symm same]

theorem totalsOf_empty : TotalsOf python [] .empty := fun _ => rfl

theorem TotalsOf.run (success : rows.foldlM (addSnapshotRow python) .empty = .ok totals) :
    TotalsOf python rows totals :=
  foldlM_seen TotalsOf.step totalsOf_empty success

theorem minAmountOf_pos (decimals : Option Int) : 0 < minAmountOf decimals := by
  unfold minAmountOf
  split <;> decide

variable {decimalsMap : SortedMap Int Int} {index : Int} {snapshot : Snapshot}
  {claimants : List (String × Int)}

/-- The script writes the authorities whose sum is not too small, with their sums. -/
theorem mem_convertFile (success : convertFile python decimalsMap index snapshot = .ok claimants)
    {authority : String} {amount : Int} :
    (authority, amount) ∈ claimants ↔
      amount = snapshotTotal python snapshot.rows authority ∧
        minAmountOf (decimalsMap.get? index) ≤ amount := by
  simp only [convertFile, bind_ok_iff, pure_ok_iff] at success
  obtain ⟨_, _, totals, summed, rfl⟩ := success
  have held := TotalsOf.run summed authority
  have positive := minAmountOf_pos (decimalsMap.get? index)
  rw [List.mem_filter, ← SortedMap.get?_eq_some_iff, decide_eq_true_eq, not_lt, ← held]
  constructor
  · intro written
    obtain ⟨found, large⟩ := written
    rw [found]
    exact ⟨rfl, large⟩
  · intro expected
    obtain ⟨same, large⟩ := expected
    refine ⟨?_, large⟩
    cases found : totals.get? authority with
    | none =>
      rw [found] at same
      simp only [Option.getD_none] at same
      omega
    | some sum => rw [same, found, Option.getD_some]

theorem convertFile_distinct
    (success : convertFile python decimalsMap index snapshot = .ok claimants) :
    (claimants.map Prod.fst).Nodup := by
  simp only [convertFile, bind_ok_iff, pure_ok_iff] at success
  obtain ⟨_, _, totals, _, rfl⟩ := success
  exact totals.keys_nodup.sublist (List.filter_sublist.map Prod.fst)

variable {entries : List CsvEntry}

theorem readClaimants_some (read : readClaimants claimants = some entries) :
    entries.map CsvEntry.pubkey = claimants.map Prod.fst ∧
      ∀ entry ∈ entries, (entry.pubkey, (csvAmount entry : Int)) ∈ claimants ∧
        csvLocked entry = 0 := by
  induction claimants generalizing entries with
  | nil =>
    cases read
    simp
  | cons claimant rest ih =>
    simp only [readClaimants, List.mapM_cons, Option.bind_eq_bind, Option.bind_eq_some_iff,
      Option.pure_def, Option.some.injEq, Option.ite_none_right_eq_some] at read
    obtain ⟨first, ⟨⟨nonnegative, small⟩, rfl⟩, later, remaining, rfl⟩ := read
    obtain ⟨names, amounts⟩ := ih remaining
    refine ⟨by rw [List.map_cons, List.map_cons, names], fun entry member => ?_⟩
    rcases List.mem_cons.mp member with rfl | listed
    · have exactly : claimant.2.toNat % 2 ^ 64 = claimant.2.toNat :=
        Nat.mod_eq_of_lt (by omega)
      refine ⟨List.mem_cons.mpr (.inl ?_), rfl⟩
      rw [csvAmount, UInt64.toNat_ofNat', exactly, Int.toNat_of_nonneg nonnegative]
    · exact ⟨List.mem_cons_of_mem _ (amounts entry listed).1, (amounts entry listed).2⟩

end

/-! ### Markets -/

/-- The CSV of a market is the one the script makes of its snapshot. -/
def Prepared (python : PythonText) (decimalsMap : SortedMap Int Int)
    (market : IfMarket × Snapshot) (input : IfMarket × List CsvEntry) : Prop :=
  input.1 = market.1 ∧ ∃ claimants,
    convertFile python decimalsMap market.1.index.toNat market.2 = .ok claimants ∧
      readClaimants claimants = some input.2

/-- What an authority gets from a market: its sum in the snapshot, unless that is too small. -/
def entitledTo (python : PythonText) (decimalsMap : SortedMap Int Int) (authority : String)
    (market : IfMarket × Snapshot) : Int :=
  let amount := snapshotTotal python market.2.rows authority
  if amount < minAmountOf (decimalsMap.get? market.1.index.toNat) then 0 else amount

section
variable {python : PythonText} {decimalsMap : SortedMap Int Int} {market : IfMarket × Snapshot}
  {input : IfMarket × List CsvEntry} {markets : List (IfMarket × Snapshot)}
  {inputs : List (IfMarket × List CsvEntry)}

theorem Prepared.locked (prepared : Prepared python decimalsMap market input) {entry : CsvEntry}
    (member : entry ∈ input.2) : csvLocked entry = 0 := by
  obtain ⟨_, claimants, _, read⟩ := prepared
  exact ((readClaimants_some read).2 entry member).2

theorem Prepared.total (prepared : Prepared python decimalsMap market input)
    (authority : String) :
    (total CsvEntry.pubkey csvAmount input.2 authority : Int) =
      entitledTo python decimalsMap authority market := by
  obtain ⟨_, claimants, converted, read⟩ := prepared
  obtain ⟨names, amounts⟩ := readClaimants_some read
  have distinct := convertFile_distinct converted
  rw [← names] at distinct
  unfold entitledTo
  by_cases listed : authority ∈ input.2.map CsvEntry.pubkey
  · obtain ⟨entry, member, rfl⟩ := List.mem_map.mp listed
    obtain ⟨same, large⟩ := (mem_convertFile converted).mp (amounts entry member).1
    rw [total_of_distinct CsvEntry.pubkey csvAmount distinct member, if_neg, same]
    rw [← same]
    omega
  · -- an authority is missing from the CSV only because its sum is too small
    rw [total_of_absent _ _ listed, if_pos]
    · rfl
    by_contra large
    have written := (mem_convertFile converted).mpr ⟨rfl, not_lt.mp large⟩
    rw [names] at listed
    exact listed (List.mem_map_of_mem written)

theorem Prepared.listed_iff (prepared : Prepared python decimalsMap market input)
    (authority : String) :
    authority ∈ input.2.map CsvEntry.pubkey ↔
      0 < entitledTo python decimalsMap authority market := by
  obtain ⟨_, claimants, converted, read⟩ := prepared
  have positive := minAmountOf_pos (decimalsMap.get? market.1.index.toNat)
  rw [(readClaimants_some read).1, List.mem_map]
  unfold entitledTo
  constructor
  · intro listed
    obtain ⟨⟨owner, amount⟩, written, rfl⟩ := listed
    obtain ⟨rfl, large⟩ := (mem_convertFile converted).mp written
    simp only [not_lt.mpr large, if_false]
    omega
  · intro entitled
    have large : ¬ snapshotTotal python market.2.rows authority <
        minAmountOf (decimalsMap.get? market.1.index.toNat) := by
      intro small
      simp only [small, if_true, lt_irrefl] at entitled
    exact ⟨_, (mem_convertFile converted).mpr ⟨rfl, not_lt.mp large⟩, rfl⟩

/-- What the rows of a mint list for an authority. -/
theorem total_rowsOf (prepared : List.Forall₂ (Prepared python decimalsMap) markets inputs)
    (mint authority : String) :
    (total CsvEntry.pubkey csvAmount (rowsOf inputs mint) authority : Int) =
      ((markets.filter fun market => market.1.mint = mint).map
        (entitledTo python decimalsMap authority)).sum := by
  induction prepared with
  | nil => rfl
  | @cons market input markets inputs first rest ih =>
    have sameMint : input.1.mint = market.1.mint := by rw [first.1]
    by_cases here : market.1.mint = mint
    · simp only [rowsOf, List.filter_cons, sameMint, here, decide_true, if_true,
        List.flatMap_cons, List.map_cons, List.sum_cons, total_append, Int.natCast_add,
        first.total] at ih ⊢
      rw [ih]
    · simpa only [rowsOf, List.filter_cons, sameMint, here, decide_false, Bool.false_eq_true,
        if_false] using ih

theorem locked_of_mem_rowsOf (prepared : List.Forall₂ (Prepared python decimalsMap) markets inputs)
    {mint : String} {entry : CsvEntry} (member : entry ∈ rowsOf inputs mint) :
    csvLocked entry = 0 := by
  obtain ⟨input, kept, listed⟩ := List.mem_flatMap.mp member
  obtain ⟨i, here⟩ := List.mem_iff_get.mp (List.mem_of_mem_filter kept)
  obtain ⟨lengths, each⟩ := List.forall₂_iff_get.mp prepared
  have made := each i (by rw [lengths]; exact i.isLt) i.isLt
  rw [here] at made
  exact made.locked listed

theorem total_locked_rowsOf
    (prepared : List.Forall₂ (Prepared python decimalsMap) markets inputs) (text : PubkeyText)
    (mint : String) (claimant : Option Pubkey) :
    total (csvClaimant text) csvLocked (rowsOf inputs mint) claimant = 0 := by
  refine List.sum_eq_zero fun locked listed => ?_
  obtain ⟨entry, kept, rfl⟩ := List.mem_map.mp listed
  exact locked_of_mem_rowsOf prepared (List.mem_of_mem_filter kept)

theorem mints_of_prepared (prepared : List.Forall₂ (Prepared python decimalsMap) markets inputs) :
    inputs.map (fun input => input.1.mint) = markets.map fun market => market.1.mint := by
  induction prepared with
  | nil => rfl
  | cons first rest ih => rw [List.map_cons, List.map_cons, ih, first.1]

/-- The rows of a mint name those to whom one of its markets gives something. -/
theorem listed_rowsOf_iff (prepared : List.Forall₂ (Prepared python decimalsMap) markets inputs)
    (mint authority : String) :
    authority ∈ (rowsOf inputs mint).map CsvEntry.pubkey ↔
      ∃ market ∈ markets, market.1.mint = mint ∧
        0 < entitledTo python decimalsMap authority market := by
  induction prepared with
  | nil => simp [rowsOf]
  | @cons market input markets inputs first rest ih =>
    have sameMint : input.1.mint = market.1.mint := by rw [first.1]
    rw [List.exists_mem_cons_iff, ← ih]
    by_cases here : market.1.mint = mint
    · simp only [rowsOf, List.filter_cons, sameMint, here, decide_true, if_true,
        List.flatMap_cons, List.map_append, List.mem_append, first.listed_iff, true_and]
    · simp only [rowsOf, List.filter_cons, sameMint, here, decide_false, Bool.false_eq_true,
        if_false, false_and, false_or]

end

/-- From the snapshots to the leaves of a mint: a claimant has one leaf, over the sums that
its markets list for it, without those that are too small for their market. -/
theorem leaf_is_snapshot_total (H : HashFunction) (text : PubkeyText) (python : PythonText)
    (decimalsMap : SortedMap Int Int) {markets : List (IfMarket × Snapshot)}
    {inputs : List (IfMarket × List CsvEntry)}
    (prepared : List.Forall₂ (Prepared python decimalsMap) markets inputs)
    {merged : List MergedMint} (aggregated : aggregateIfEntries text inputs = .ok merged)
    {mint : String} (listed : mint ∈ markets.map fun market => market.1.mint) :
    ∃ group ∈ merged, group.mint = mint ∧
      ∀ (args : CreateMerkleTreeArgs) (start : UInt64) (trees : List AirdropMerkleTree),
        1 ≤ args.maxNodesPerTree.toNat → args.decimals = 0 → args.csvAmountUnit = .tokens →
        args.shouldIncludeTestList = false →
        processCreateMerkleTree H text args start group.entries = .ok trees →
        let leaves := trees.flatMap AirdropMerkleTree.treeNodes
        let entitlement := fun claimant => entitledTo python decimalsMap (text.toStr claimant)
        (leaves.map TreeNode.claimant).Nodup ∧
        (∀ claimant, claimant ∈ leaves.map TreeNode.claimant ↔
          ∃ market ∈ markets, market.1.mint = mint ∧ 0 < entitlement claimant market) ∧
        ∀ leaf ∈ leaves, leaf.lockedAmount.getD 0 = 0 ∧
          (leaf.amount.toNat : Int) = ((markets.filter fun market => market.1.mint = mint).map
            (entitlement leaf.claimant)).sum := by
  rw [← mints_of_prepared prepared] at listed
  obtain ⟨group, member, named, _, rowsMerged⟩ := aggregateIfEntries_merged aggregated listed
  refine ⟨group, member, named, ?_⟩
  intro args start trees positive decimals unit plain created leaves entitlement
  obtain ⟨nodes, last, converted, sharded, _⟩ :=
    (processCreateMerkleTree_ok_iff plain positive).mp created
  rw [decimals, unit] at converted
  have conserved := rowsMerged.conserved positive converted sharded
  refine ⟨conserved.oneLeaf, fun claimant => (conserved.claimants claimant).trans ?_,
    fun leaf belongs => ?_⟩
  · rw [← listed_rowsOf_iff prepared, List.mem_map]
    have parsed := text.fromStr_toStr claimant
    constructor
    · intro claims
      obtain ⟨row, here, names⟩ := claims
      exact ⟨row, here, text.fromStr_inj names parsed⟩
    · intro written
      obtain ⟨row, here, same⟩ := written
      exact ⟨row, here, by rw [csvClaimant, same, parsed]⟩
  · obtain ⟨amount, locked⟩ := conserved.amounts leaf belongs
    have parsed := text.fromStr_toStr leaf.claimant
    rw [total_by_claimant csvAmount parsed] at amount
    constructor
    · rw [← UInt64.toNat_inj, locked, total_locked_rowsOf prepared]
      rfl
    · rw [amount, total_rowsOf prepared]

namespace SampleSnapshot
open SampleCsv SampleIf

def python : PythonText where
  strip := id
  int raw :=
    if raw = "160" then some 160 else if raw = "-40" then some (-40)
    else if raw = "300" then some 300 else if raw = "50" then some 50 else some 5

/-- Six decimals for `spot`, none given for `perp`. -/
def decimalsMap : SortedMap Int Int := loadDecimalsMap [⟨some 1, some 6⟩, ⟨some 0, none⟩]

def snapshot (amounts : List (Pubkey × String)) : Snapshot where
  fieldnames := ["authority", "tokenAmount"]
  rows := amounts.map fun pair => ⟨some (latinText.toStr pair.1), some pair.2⟩

def spotSnapshot : Snapshot := snapshot [(alice, "160"), (bob, "300"), (alice, "-40")]
def perpSnapshot : Snapshot := snapshot [(carol, "50"), (alice, "5")]

def markets : List (IfMarket × Snapshot) := [(spot, spotSnapshot), (perp, perpSnapshot)]

/-- The five base units of `perp` are too few. -/
def files : List (IfMarket × List CsvEntry) :=
  [(spot, [mergedRow alice 120 0, mergedRow bob 300 0]), (perp, [mergedRow carol 50 0])]

def merged : MergedMint :=
  { mint := "dfx", symbol := "PERP", index := 0, sourceMarkets := [0, 1]
    entries := [mergedRow alice 120 0, mergedRow bob 300 0, mergedRow carol 50 0] }

theorem key_nonempty (key : Pubkey) : latinText.toStr key ≠ "" := by
  intro blank
  have parsed := latinText.fromStr_toStr key
  rw [blank] at parsed
  revert parsed
  simp [latinText]

theorem addSnapshotRow_key (totals : SortedMap String Int) (key : Pubkey) {raw : String}
    (before amount after : Int) (held : (totals.get? (latinText.toStr key)).getD 0 = before)
    (given : raw ≠ "") (parsed : python.int raw = some amount) (sum : before + amount = after) :
    addSnapshotRow python totals ⟨some (latinText.toStr key), some raw⟩ =
      .ok (totals.insert (latinText.toStr key) after) := by
  have kept : ¬ (python.strip (latinText.toStr key) = "" ∨ python.strip raw = "") := by
    intro blank
    exact blank.elim (key_nonempty key) given
  subst held sum
  simp only [addSnapshotRow, bind_ok_iff, okOr_ok_iff]
  refine ⟨_, rfl, raw, rfl, ?_⟩
  rw [if_neg kept]
  simp only [bind_ok_iff, okOr_ok_iff, pure_ok_iff]
  exact ⟨amount, parsed, rfl⟩

theorem spot_prepared :
    Prepared python decimalsMap (spot, spotSnapshot)
      (spot, [mergedRow alice 120 0, mergedRow bob 300 0]) := by
  obtain ⟨below, _⟩ := keys_ascend
  refine ⟨rfl, [(latinText.toStr alice, 120), (latinText.toStr bob, 300)], ?_, rfl⟩
  have least : minAmountOf (decimalsMap.get? spot.index.toNat) = 100 := by decide
  simp only [convertFile, bind_ok_iff, require_ok_iff, pure_ok_iff]
  refine ⟨(), by decide, ((SortedMap.empty.insert (latinText.toStr alice) 160).insert
    (latinText.toStr bob) 300).insert (latinText.toStr alice) 120, ?_, ?_⟩
  · simp only [spotSnapshot, snapshot, List.map_cons, List.map_nil, List.foldlM_cons,
      List.foldlM_nil, bind_ok_iff, pure_ok_iff]
    refine ⟨_, addSnapshotRow_key _ alice 0 160 160 rfl (by decide) rfl rfl, _,
      addSnapshotRow_key _ bob 0 300 300 ?_ (by decide) rfl rfl, _,
      addSnapshotRow_key _ alice 160 (-40) 120 ?_ (by decide) rfl rfl, rfl⟩
    · rw [SortedMap.get?_insert, if_neg below.ne']
      rfl
    · rw [SortedMap.get?_insert, if_neg below.ne, SortedMap.get?_insert, if_pos rfl]
      rfl
  · rw [least]
    simp [SortedMap.insert, SortedMap.insertSorted, SortedMap.empty, below.not_gt, below.ne']

theorem perp_prepared :
    Prepared python decimalsMap (perp, perpSnapshot) (perp, [mergedRow carol 50 0]) := by
  have above := keys_ascend.1.trans keys_ascend.2
  refine ⟨rfl, [(latinText.toStr carol, 50)], ?_, rfl⟩
  have least : minAmountOf (decimalsMap.get? perp.index.toNat) = 10 := by decide
  simp only [convertFile, bind_ok_iff, require_ok_iff, pure_ok_iff]
  refine ⟨(), by decide, (SortedMap.empty.insert (latinText.toStr carol) 50).insert
    (latinText.toStr alice) 5, ?_, ?_⟩
  · simp only [perpSnapshot, snapshot, List.map_cons, List.map_nil, List.foldlM_cons,
      List.foldlM_nil, bind_ok_iff, pure_ok_iff]
    refine ⟨_, addSnapshotRow_key _ carol 0 50 50 rfl (by decide) rfl rfl, _,
      addSnapshotRow_key _ alice 0 5 5 ?_ (by decide) rfl rfl, rfl⟩
    rw [SortedMap.get?_insert, if_neg above.ne]
    rfl
  · rw [least]
    simp [SortedMap.insert, SortedMap.insertSorted, SortedMap.empty, above]

theorem aggregate_files : aggregateIfEntries latinText files = .ok [merged] := by
  obtain ⟨below, above⟩ := keys_ascend
  let one : Sums := (SortedMap.empty.insert (latinText.toStr alice) (120, 0)).insert
    (latinText.toStr bob) (300, 0)
  let both : Sums := one.insert (latinText.toStr carol) (50, 0)
  have first : [mergedRow alice 120 0, mergedRow bob 300 0].foldlM (addEntry latinText spot)
      SortedMap.empty = .ok one := by
    simp only [List.foldlM_cons, List.foldlM_nil, bind_ok_iff, pure_ok_iff]
    refine ⟨_, addEntry_ok (mergedRow alice 120 0) (0, 0) (120, 0) rfl rfl (by decide) (by decide),
      _, addEntry_ok (mergedRow bob 300 0) (0, 0) (300, 0) rfl ?_ (by decide) (by decide), rfl⟩
    rw [mergedRow, SortedMap.get?_insert, mergedRow, if_neg below.ne']
    rfl
  have second : [mergedRow carol 50 0].foldlM (addEntry latinText perp) one = .ok both := by
    simp only [List.foldlM_cons, List.foldlM_nil, bind_ok_iff, pure_ok_iff]
    refine ⟨_, addEntry_ok (mergedRow carol 50 0) (0, 0) (50, 0) rfl ?_ (by decide) (by decide),
      rfl⟩
    rw [mergedRow, SortedMap.get?_insert, if_neg above.ne', SortedMap.get?_insert,
      if_neg (below.trans above).ne']
    rfl
  have sums : both.entries = [(latinText.toStr alice, 120, 0), (latinText.toStr bob, 300, 0),
      (latinText.toStr carol, 50, 0)] := by
    simp [both, one, SortedMap.insert, SortedMap.insertSorted, SortedMap.empty, below.not_gt,
      below.ne', above.not_gt, above.ne', (below.trans above).not_gt, (below.trans above).ne']
  rw [files, aggregate_two first second, sums]
  rfl

def firstTree : AirdropMerkleTree :=
  ⟨digest [], 0, 2, 420,
    [⟨alice, 120, some 0, some [digest []]⟩, ⟨bob, 300, some 0, some [digest []]⟩]⟩

def secondTree : AirdropMerkleTree := ⟨digest [], 1, 1, 50, [⟨carol, 50, some 0, some []⟩]⟩

theorem create_merged : create merged.entries = .ok [firstTree, secondTree] := by
  obtain ⟨nodes, converted, sharded⟩ := (shardLoop_ok_iff (by decide) (Nat.le_refl _)).mp
    (shard_merged (by decide +kernel) (by decide +kernel) :
      shardLoop digest latinText pairs merged.entries.length merged.entries 0 =
        .ok ([firstTree, secondTree], 2))
  exact (processCreateMerkleTree_ok_iff rfl (by decide)).mpr
    ⟨nodes, 2, converted, sharded, by decide⟩

end SampleSnapshot

open SampleCsv SampleIf SampleSnapshot in
/-- Of 160 and -40 base units in one market and 5 in the other, the leaf of the first claimant
gets 120. The third claimant's leaf is in the second tree. -/
theorem leaf_is_snapshot_total_sample :
    create merged.entries = .ok [firstTree, secondTree] ∧
      ∀ leaf ∈ [firstTree, secondTree].flatMap AirdropMerkleTree.treeNodes,
        (leaf.amount.toNat : Int) = ((markets.filter fun market => market.1.mint = "dfx").map
          (entitledTo python decimalsMap (latinText.toStr leaf.claimant))).sum := by
  obtain ⟨group, member, _, leaves⟩ := leaf_is_snapshot_total digest latinText python decimalsMap
    (.cons spot_prepared (.cons perp_prepared .nil)) aggregate_files
    (show "dfx" ∈ markets.map fun market => market.1.mint by decide)
  rw [List.mem_singleton] at member
  subst member
  obtain ⟨_, _, amounts⟩ := leaves pairs 0 _ (by decide) rfl rfl rfl create_merged
  exact ⟨create_merged, fun leaf belongs => (amounts leaf belongs).2⟩

end MultiDistributor.Guarantees.InsuranceFund

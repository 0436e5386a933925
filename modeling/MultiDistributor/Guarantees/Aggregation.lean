import MultiDistributor.Guarantees.InsuranceFund

/-!
# Aggregation does not depend on the order of its inputs

A step of the aggregation can fail, so its steps cannot be exchanged one for another. The
groups after a whole run are described instead: which mints have one, the sums of their
rows, and the market that lends its label. The description determines the groups, does
not mention an order, and holds of some groups exactly when no key is unparseable and no
sum leaves `u64`.
-/
namespace MultiDistributor.Guarantees.InsuranceFund
open Source Lib Lib.Checked Lib.Grouping Sharding

/-! ### Sums -/

/-- The rows of a mint that can be summed. -/
structure Summable (text : PubkeyText) (rows : List CsvEntry) : Prop where
  parsed : ∀ row ∈ rows, (text.fromStr row.pubkey).isSome
  amounts : ∀ key, total CsvEntry.pubkey csvAmount rows key < 2 ^ 64
  locked : ∀ key, total CsvEntry.pubkey csvLocked rows key < 2 ^ 64

section Sums
variable {text : PubkeyText} {rows : List CsvEntry} {sums : Sums}

theorem Summable.shorter {front back : List CsvEntry} (whole : Summable text (front ++ back)) :
    Summable text front where
  parsed row member := whole.parsed row (List.mem_append_left _ member)
  amounts key := by
    have bound := whole.amounts key
    rw [total_append] at bound
    omega
  locked key := by
    have bound := whole.locked key
    rw [total_append] at bound
    omega

theorem SumsOf.summable (held : SumsOf text rows sums) : Summable text rows where
  parsed := held.valid
  amounts key := by
    rw [← held.amounts]
    exact UInt64.toNat_lt _
  locked key := by
    rw [← held.locked]
    exact UInt64.toNat_lt _

theorem SumsOf.step_total {market : IfMarket} {entry : CsvEntry} (held : SumsOf text rows sums)
    (bounded : Summable text (rows ++ [entry])) :
    ∃ next, addEntry text market sums entry = .ok next := by
  have parsed := bounded.parsed entry (List.mem_append_right _ List.mem_cons_self)
  have amount := bounded.amounts entry.pubkey
  have locked := bounded.locked entry.pubkey
  rw [total_concat, if_pos rfl, ← held.amounts] at amount
  rw [total_concat, if_pos rfl, ← held.locked] at locked
  obtain ⟨sum, added⟩ := checkedAdd_total _ _ amount
  obtain ⟨lockedSum, lockedAdded⟩ := checkedAdd_total _ _ locked
  simp only [addEntry, bind_ok_iff, require_ok_iff, okOr_ok_iff, pure_ok_iff]
  exact ⟨_, (), parsed, sum, added.1, lockedSum, lockedAdded.1, rfl⟩

theorem SumsOf.run_total {market : IfMarket} {entries : List CsvEntry}
    (held : SumsOf text rows sums) (bounded : Summable text (rows ++ entries)) :
    ∃ next, entries.foldlM (addEntry text market) sums = .ok next :=
  @foldlM_total _ _ _ _ (SumsOf text) (Summable text) SumsOf.step SumsOf.step_total
    Summable.shorter _ _ _ held bounded

/-- Rows have one map of sums. -/
theorem SumsOf.unique {other : Sums} (held : SumsOf text rows sums)
    (also : SumsOf text rows other) : sums = other := by
  apply SortedMap.ext_of_found
  · exact fun key => (held.keys key).trans (also.keys key).symm
  · intro key first second found foundToo
    have amounts := (held.amounts key).trans (also.amounts key).symm
    have locked := (held.locked key).trans (also.locked key).symm
    rw [found, foundToo] at amounts locked
    exact Prod.ext (UInt64.toNat_inj.mp amounts) (UInt64.toNat_inj.mp locked)

theorem SumsOf.perm {reordered : List CsvEntry} (permuted : rows.Perm reordered)
    (held : SumsOf text rows sums) : SumsOf text reordered sums where
  keys key := (held.keys key).trans (permuted.map _).mem_iff
  amounts key := (held.amounts key).trans (total_perm _ _ permuted key)
  locked key := (held.locked key).trans (total_perm _ _ permuted key)
  valid row member := held.valid row (permuted.mem_iff.mpr member)

/-- Merged rows sum to themselves. -/
theorem SumsOf.remerged (held : SumsOf text rows sums) :
    SumsOf text (sums.entries.map mergedEntry) sums where
  keys key := (held.keys key).trans (held.merged.keys key).symm
  amounts key := (held.amounts key).trans (held.merged.total_text held.merged.amounts key).symm
  locked key := (held.locked key).trans (held.merged.total_text held.merged.locked key).symm
  valid _ member := Option.isSome_iff_exists.mpr (held.merged.parsed member)

end Sums

/-! ### Groups -/

/-- `lead` is the market of `mint` with the lowest index. -/
structure Leads (inputs : List (IfMarket × List CsvEntry)) (mint : String) (lead : IfMarket) :
    Prop where
  listed : lead ∈ inputs.map Prod.fst
  ofMint : lead.mint = mint
  lowest : ∀ market ∈ inputs.map Prod.fst, market.mint = mint → lead.index ≤ market.index

/-- The groups of the inputs, each with its lowest market. -/
structure LedGroupsOf (text : PubkeyText) (inputs : List (IfMarket × List CsvEntry))
    (groups : Groups) : Prop extends GroupsOf text inputs groups where
  leads : ∀ mint group, groups.get? mint = some group → Leads inputs mint group.1

/-- Markets of one mint have distinct indices. -/
def DistinctIndices (inputs : List (IfMarket × List CsvEntry)) : Prop :=
  (inputs.map Prod.fst).Pairwise fun first second =>
    first.mint = second.mint → first.index ≠ second.index

instance (inputs : List (IfMarket × List CsvEntry)) : Decidable (DistinctIndices inputs) :=
  inferInstanceAs (Decidable (List.Pairwise _ _))

section Groups
variable {text : PubkeyText} {inputs : List (IfMarket × List CsvEntry)} {groups next : Groups}

theorem Leads.unique {mint : String} {lead other : IfMarket} (distinct : DistinctIndices inputs)
    (leads : Leads inputs mint lead) (also : Leads inputs mint other) : lead = other := by
  have sameIndex : lead.index = other.index :=
    UInt64.le_antisymm (leads.lowest other also.listed also.ofMint)
      (also.lowest lead leads.listed leads.ofMint)
  have sameMint : lead.mint = other.mint := leads.ofMint.trans also.ofMint.symm
  have symmetric : Std.Symm fun first second : IfMarket =>
      first.mint = second.mint → first.index ≠ second.index :=
    ⟨fun _ _ apart same => (apart same.symm).symm⟩
  by_contra different
  exact distinct.forall leads.listed also.listed different sameMint sameIndex

theorem Leads.perm {mint : String} {lead : IfMarket} {reordered : List (IfMarket × List CsvEntry)}
    (permuted : (inputs.map Prod.fst).Perm (reordered.map Prod.fst))
    (leads : Leads inputs mint lead) : Leads reordered mint lead where
  listed := permuted.mem_iff.mp leads.listed
  ofMint := leads.ofMint
  lowest market member := leads.lowest market (permuted.mem_iff.mpr member)

theorem mem_markets_concat {input : IfMarket × List CsvEntry} {market : IfMarket} :
    market ∈ (inputs ++ [input]).map Prod.fst ↔
      market ∈ inputs.map Prod.fst ∨ market = input.1 := by
  rw [List.map_append, List.mem_append, List.map_singleton, List.mem_singleton]

/-- A market that arrives later takes the label over if its index is lower. -/
theorem Leads.step {mint : String} {lead : IfMarket} {input : IfMarket × List CsvEntry}
    (leads : Leads inputs mint lead) (ofMint : input.1.mint = mint) :
    Leads (inputs ++ [input]) mint (if input.1.index < lead.index then input.1 else lead) := by
  split
  · next lower =>
    refine { listed := mem_markets_concat.mpr (Or.inr rfl), ofMint := ofMint, lowest := ?_ }
    intro market member same
    rcases mem_markets_concat.mp member with earlier | rfl
    · exact UInt64.le_trans (UInt64.le_of_lt lower) (leads.lowest market earlier same)
    · exact UInt64.le_refl _
  · next notLower =>
    refine { listed := mem_markets_concat.mpr (Or.inl leads.listed), ofMint := leads.ofMint,
             lowest := ?_ }
    intro market member same
    rcases mem_markets_concat.mp member with earlier | rfl
    · exact leads.lowest market earlier same
    · exact UInt64.not_lt.mp notLower

/-- Markets of other mints leave the label alone. -/
theorem Leads.other {mint : String} {lead : IfMarket} {input : IfMarket × List CsvEntry}
    (leads : Leads inputs mint lead) (otherMint : input.1.mint ≠ mint) :
    Leads (inputs ++ [input]) mint lead where
  listed := mem_markets_concat.mpr (Or.inl leads.listed)
  ofMint := leads.ofMint
  lowest market member same := by
    rcases mem_markets_concat.mp member with earlier | rfl
    · exact leads.lowest market earlier same
    · exact absurd same otherMint

/-- The first market of a mint lends its label. -/
theorem Leads.first {input : IfMarket × List CsvEntry}
    (fresh : input.1.mint ∉ inputs.map fun earlier => earlier.1.mint) :
    Leads (inputs ++ [input]) input.1.mint input.1 where
  listed := mem_markets_concat.mpr (Or.inr rfl)
  ofMint := rfl
  lowest market member same := by
    rcases mem_markets_concat.mp member with earlier | rfl
    · obtain ⟨known, listed, rfl⟩ := List.mem_map.mp earlier
      exact absurd (List.mem_map.mpr ⟨known, listed, same⟩) fresh
    · exact UInt64.le_refl _

theorem LedGroupsOf.step {input : IfMarket × List CsvEntry} (held : LedGroupsOf text inputs groups)
    (success : addMarket text groups input = .ok next) :
    LedGroupsOf text (inputs ++ [input]) next := by
  have grouped := held.toGroupsOf.step success
  simp only [addMarket, bind_ok_iff, pure_ok_iff] at success
  obtain ⟨sums, _, rfl⟩ := success
  refine { toGroupsOf := grouped, leads := fun mint group found => ?_ }
  rw [SortedMap.get?_insert] at found
  split at found
  · next here =>
    cases found
    subst here
    cases known : groups.get? input.1.mint with
    | none =>
      have fresh : input.1.mint ∉ inputs.map fun earlier => earlier.1.mint := by
        rw [← held.mints, known]
        simp
      simpa using Leads.first fresh
    | some before => exact (held.leads _ _ known).step rfl
  · next elsewhere => exact (held.leads _ _ found).other (Ne.symm elsewhere)

theorem LedGroupsOf.run {rest : List (IfMarket × List CsvEntry)}
    (held : LedGroupsOf text inputs groups)
    (success : rest.foldlM (addMarket text) groups = .ok next) :
    LedGroupsOf text (inputs ++ rest) next :=
  foldlM_seen LedGroupsOf.step held success

theorem ledGroupsOf_nil (text : PubkeyText) : LedGroupsOf text [] SortedMap.empty where
  toGroupsOf := groupsOf_nil text
  leads _ _ found := by cases found

theorem rowsOf_append (front back : List (IfMarket × List CsvEntry)) (mint : String) :
    rowsOf (front ++ back) mint = rowsOf front mint ++ rowsOf back mint := by
  simp [rowsOf]

theorem GroupsOf.step_total {input : IfMarket × List CsvEntry} (held : GroupsOf text inputs groups)
    (bounded : ∀ mint, Summable text (rowsOf (inputs ++ [input]) mint)) :
    ∃ next, addMarket text groups input = .ok next := by
  have rows := bounded input.1.mint
  rw [rowsOf_concat, if_pos rfl] at rows
  obtain ⟨sums, added⟩ : ∃ sums, input.2.foldlM (addEntry text input.1) _ = .ok sums :=
    (held.sums input.1.mint).run_total rows
  simp only [addMarket, bind_ok_iff, pure_ok_iff, sums_getD]
  exact ⟨_, sums, added, rfl⟩

/-- The loop over the markets runs to its end when every mint can be summed. -/
theorem addMarket_total (summable : ∀ mint, Summable text (rowsOf inputs mint)) :
    ∃ groups, inputs.foldlM (addMarket text) SortedMap.empty = .ok groups := by
  refine @foldlM_total _ _ _ _ (GroupsOf text)
    (fun inputs => ∀ mint, Summable text (rowsOf inputs mint)) GroupsOf.step GroupsOf.step_total
    ?_ _ _ _ (groupsOf_nil text) summable
  intro front back whole mint
  have both := whole mint
  rw [rowsOf_append] at both
  exact both.shorter

/-- The inputs have one map of groups. -/
theorem LedGroupsOf.unique {other : Groups} (distinct : DistinctIndices inputs)
    (held : LedGroupsOf text inputs groups) (also : LedGroupsOf text inputs other) :
    groups = other := by
  apply SortedMap.ext_of_found
  · exact fun mint => (held.mints mint).trans (also.mints mint).symm
  · intro mint first second found foundToo
    have leads := (held.leads _ _ found).unique distinct (also.leads _ _ foundToo)
    have sums := (held.sums mint).unique (also.sums mint)
    rw [found, foundToo] at sums
    exact Prod.ext leads sums

/-- The aggregation succeeds with the groups that the inputs determine. -/
theorem aggregateIfEntries_ok_iff (distinct : DistinctIndices inputs) {merged : List MergedMint} :
    aggregateIfEntries text inputs = .ok merged ↔
      ∃ groups, LedGroupsOf text inputs groups ∧
        groups.entries.map (mergedMint inputs) = merged := by
  simp only [aggregateIfEntries, bind_ok_iff, pure_ok_iff]
  constructor
  · intro success
    obtain ⟨groups, folded, shape⟩ := success
    exact ⟨groups, (ledGroupsOf_nil text).run folded, shape⟩
  · intro determined
    obtain ⟨groups, held, shape⟩ := determined
    obtain ⟨reached, folded⟩ := addMarket_total fun mint => (held.sums mint).summable
    have same := ((ledGroupsOf_nil text).run folded).unique distinct held
    exact ⟨groups, same ▸ folded, shape⟩

end Groups

/-! ### Order -/

/-- The same market with its rows in some order. -/
def SameRows (input reordered : IfMarket × List CsvEntry) : Prop :=
  input.1 = reordered.1 ∧ input.2.Perm reordered.2

/-- The markets in some order, and the rows inside each of them in some order. -/
def Shuffled (inputs shuffled : List (IfMarket × List CsvEntry)) : Prop :=
  ∃ reordered, inputs.Perm reordered ∧ List.Forall₂ SameRows reordered shuffled

section Order
variable {text : PubkeyText} {inputs shuffled : List (IfMarket × List CsvEntry)} {groups : Groups}

theorem sameRows_markets (same : List.Forall₂ SameRows inputs shuffled) :
    inputs.map Prod.fst = shuffled.map Prod.fst := by
  induction same with
  | nil => rfl
  | cons head _ ih => rw [List.map_cons, List.map_cons, ih, head.1]

theorem sameRows_rowsOf (same : List.Forall₂ SameRows inputs shuffled) (mint : String) :
    (rowsOf inputs mint).Perm (rowsOf shuffled mint) := by
  induction same with
  | nil => exact List.Perm.refl _
  | @cons input reordered rest restShuffled head _ ih =>
    change (rowsOf ([input] ++ rest) mint).Perm (rowsOf ([reordered] ++ restShuffled) mint)
    rw [rowsOf_append, rowsOf_append]
    refine List.Perm.append ?_ ih
    simp only [rowsOf, List.filter_cons, List.filter_nil, head.1]
    split
    · simpa using head.2
    · exact List.Perm.refl _

theorem Shuffled.markets (same : Shuffled inputs shuffled) :
    (inputs.map Prod.fst).Perm (shuffled.map Prod.fst) := by
  obtain ⟨reordered, permuted, rows⟩ := same
  rw [← sameRows_markets rows]
  exact permuted.map _

theorem Shuffled.rowsOf (same : Shuffled inputs shuffled) (mint : String) :
    (rowsOf inputs mint).Perm (rowsOf shuffled mint) := by
  obtain ⟨reordered, permuted, rows⟩ := same
  exact ((permuted.filter _).flatMap_right _).trans (sameRows_rowsOf rows mint)

theorem Shuffled.distinct (same : Shuffled inputs shuffled)
    (distinct : DistinctIndices inputs) : DistinctIndices shuffled :=
  same.markets.pairwise distinct fun apart equal => (apart equal.symm).symm

theorem mints_eq (inputs : List (IfMarket × List CsvEntry)) :
    (inputs.map fun input => input.1.mint) = (inputs.map Prod.fst).map IfMarket.mint := by
  rw [List.map_map]
  rfl

/-- Groups are those of the shuffled inputs when markets and rows agree up to their order. -/
theorem LedGroupsOf.perm (markets : (inputs.map Prod.fst).Perm (shuffled.map Prod.fst))
    (rows : ∀ mint, (rowsOf inputs mint).Perm (rowsOf shuffled mint))
    (held : LedGroupsOf text inputs groups) : LedGroupsOf text shuffled groups where
  mints mint := by
    rw [held.mints, mints_eq, mints_eq]
    exact (markets.map _).mem_iff
  sums mint := (held.sums mint).perm (rows mint)
  leads mint group found := (held.leads mint group found).perm markets

/-- Indices of the markets of a mint, as `sourceMarkets` collects them. -/
theorem sources_eq (inputs : List (IfMarket × List CsvEntry)) (mint : String) :
    ((inputs.filter fun input => input.1.mint = mint).map fun input => input.1.index) =
      ((inputs.map Prod.fst).filter fun market => market.mint = mint).map IfMarket.index := by
  rw [List.filter_map, List.map_map]
  rfl

theorem insertionSort_perm {values reordered : List UInt64} (permuted : values.Perm reordered) :
    values.insertionSort (· ≤ ·) = reordered.insertionSort (· ≤ ·) := by
  have same : (values.insertionSort (· ≤ ·)).Perm (reordered.insertionSort (· ≤ ·)) :=
    (List.perm_insertionSort _ _).trans (permuted.trans (List.perm_insertionSort _ _).symm)
  exact same.eq_of_pairwise (fun _ _ _ _ below above => UInt64.le_antisymm below above)
    (List.pairwise_insertionSort _ _) (List.pairwise_insertionSort _ _)

theorem mergedMint_perm (markets : (inputs.map Prod.fst).Perm (shuffled.map Prod.fst))
    (group : String × IfMarket × Sums) : mergedMint inputs group = mergedMint shuffled group := by
  have sources := insertionSort_perm ((markets.filter fun market => market.mint = group.1).map
    IfMarket.index)
  rw [← sources_eq, ← sources_eq] at sources
  rw [mergedMint, mergedMint, sources]

/-- Success and result are those of the shuffled inputs. -/
theorem aggregateIfEntries_shuffled (distinct : DistinctIndices inputs)
    (same : Shuffled inputs shuffled) (merged : List MergedMint) :
    aggregateIfEntries text inputs = .ok merged ↔
      aggregateIfEntries text shuffled = .ok merged := by
  have shape : mergedMint inputs = mergedMint shuffled := funext (mergedMint_perm same.markets)
  rw [aggregateIfEntries_ok_iff distinct, aggregateIfEntries_ok_iff (same.distinct distinct), shape]
  constructor
  · intro ⟨groups, held, listed⟩
    exact ⟨groups, held.perm same.markets same.rowsOf, listed⟩
  · intro ⟨groups, held, listed⟩
    exact ⟨groups, held.perm same.markets.symm fun mint => (same.rowsOf mint).symm, listed⟩

end Order

/-! ### Failure -/

/-- Some row names no key. -/
def Unparseable (text : PubkeyText) (inputs : List (IfMarket × List CsvEntry)) : Prop :=
  ∃ input ∈ inputs, ∃ row ∈ input.2, text.fromStr row.pubkey = none

/-- Some claimant of some mint has an amount or a locked amount that is not a `u64`. -/
def Overflows (text : PubkeyText) (inputs : List (IfMarket × List CsvEntry)) : Prop :=
  ∃ mint claimant,
    2 ^ 64 ≤ total (csvClaimant text) csvAmount (rowsOf inputs mint) (some claimant) ∨
    2 ^ 64 ≤ total (csvClaimant text) csvLocked (rowsOf inputs mint) (some claimant)

section Failure
variable {text : PubkeyText} {inputs : List (IfMarket × List CsvEntry)}

theorem mem_rowsOf {mint : String} {row : CsvEntry} :
    row ∈ rowsOf inputs mint ↔ ∃ input ∈ inputs, input.1.mint = mint ∧ row ∈ input.2 := by
  simp only [rowsOf, List.mem_flatMap, List.mem_filter, decide_eq_true_eq, and_assoc]

theorem total_text_lt {rows : List CsvEntry} {value : CsvEntry → Nat}
    (parsed : ∀ row ∈ rows, (text.fromStr row.pubkey).isSome)
    (bound : ∀ claimant, total (csvClaimant text) value rows (some claimant) < 2 ^ 64)
    (key : String) : total CsvEntry.pubkey value rows key < 2 ^ 64 := by
  cases named : text.fromStr key with
  | some claimant =>
    rw [← total_by_claimant value named]
    exact bound claimant
  | none =>
    have absent : key ∉ rows.map CsvEntry.pubkey := by
      intro listed
      obtain ⟨row, member, rfl⟩ := List.mem_map.mp listed
      have accepted := parsed row member
      rw [named] at accepted
      cases accepted
    rw [total_of_absent _ _ absent]
    exact Nat.two_pow_pos 64

/-- Every mint can be summed unless a key is unparseable or a sum too large. -/
theorem summable_iff :
    (∀ mint, Summable text (rowsOf inputs mint)) ↔
      ¬ (Unparseable text inputs ∨ Overflows text inputs) := by
  constructor
  · intro summable failed
    rcases failed with ⟨input, member, row, listed, unparsed⟩ | ⟨mint, claimant, large⟩
    · have belongs := mem_rowsOf.mpr ⟨input, member, rfl, listed⟩
      have accepted := (summable input.1.mint).parsed row belongs
      rw [unparsed] at accepted
      cases accepted
    · have named := text.fromStr_toStr claimant
      rw [total_by_claimant _ named, total_by_claimant _ named] at large
      have amounts := (summable mint).amounts (text.toStr claimant)
      have locked := (summable mint).locked (text.toStr claimant)
      omega
  · intro sound mint
    have parsed : ∀ row ∈ rowsOf inputs mint, (text.fromStr row.pubkey).isSome := by
      intro row listed
      obtain ⟨input, member, _, belongs⟩ := mem_rowsOf.mp listed
      rw [Option.isSome_iff_ne_none]
      exact fun unparsed => sound (Or.inl ⟨input, member, row, belongs, unparsed⟩)
    refine { parsed, amounts := total_text_lt parsed ?_, locked := total_text_lt parsed ?_ }
    · intro claimant
      by_contra large
      exact sound (Or.inr ⟨mint, claimant, Or.inl (Nat.le_of_not_lt large)⟩)
    · intro claimant
      by_contra large
      exact sound (Or.inr ⟨mint, claimant, Or.inr (Nat.le_of_not_lt large)⟩)

theorem aggregateIfEntries_succeeds_iff :
    (∃ merged, aggregateIfEntries text inputs = .ok merged) ↔
      ∀ mint, Summable text (rowsOf inputs mint) := by
  simp only [aggregateIfEntries, bind_ok_iff, pure_ok_iff]
  constructor
  · intro success mint
    obtain ⟨_, groups, folded, _⟩ := success
    exact (((groupsOf_nil text).run folded).sums mint).summable
  · intro summable
    obtain ⟨groups, folded⟩ := addMarket_total summable
    exact ⟨_, groups, folded, rfl⟩

theorem aggregateIfEntries_fails_iff :
    (∃ failure, aggregateIfEntries text inputs = .error failure) ↔
      Unparseable text inputs ∨ Overflows text inputs := by
  have opposite : (∃ failure, aggregateIfEntries text inputs = .error failure) ↔
      ¬ ∃ merged, aggregateIfEntries text inputs = .ok merged := by
    cases aggregateIfEntries text inputs <;> simp
  rw [opposite, aggregateIfEntries_succeeds_iff, summable_iff, not_not]

end Failure

/-! ### The result -/

/-- What a successful aggregation returns. -/
structure Aggregated (text : PubkeyText) (inputs : List (IfMarket × List CsvEntry))
    (merged : List MergedMint) : Prop where
  ordered : merged.Pairwise fun first second => first.mint < second.mint
  mints : ∀ mint, mint ∈ merged.map MergedMint.mint ↔ mint ∈ inputs.map fun input => input.1.mint
  increasing : ∀ group ∈ merged,
    group.entries.Pairwise fun first second => first.pubkey < second.pubkey
  sums : ∀ group ∈ merged, MergedOf text (rowsOf inputs group.mint) group.entries
  label : ∀ group ∈ merged, ∃ lead, Leads inputs group.mint lead ∧
    group.index = lead.index ∧ group.symbol = lead.symbol
  sources : ∀ group ∈ merged, group.sourceMarkets.Pairwise (· ≤ ·) ∧
    group.sourceMarkets.Perm ((inputs.filter fun input => input.1.mint = group.mint).map
      fun input => input.1.index)

/-- A merged mint as one market. -/
def asMarket (group : MergedMint) : IfMarket × List CsvEntry :=
  ({ index := group.index, symbol := group.symbol, mint := group.mint }, group.entries)

section Result
variable {text : PubkeyText} {inputs : List (IfMarket × List CsvEntry)} {groups : Groups}

theorem LedGroupsOf.aggregated (held : LedGroupsOf text inputs groups) :
    Aggregated text inputs (groups.entries.map (mergedMint inputs)) := by
  have found : ∀ {group : MergedMint}, group ∈ groups.entries.map (mergedMint inputs) →
      ∃ entry, groups.get? entry.1 = some entry.2 ∧ group = mergedMint inputs entry := by
    intro group member
    obtain ⟨entry, listed, rfl⟩ := List.mem_map.mp member
    exact ⟨entry, (groups.get?_eq_some_iff _ _).mpr listed, rfl⟩
  refine { ordered := List.pairwise_map.mpr groups.sorted, mints := fun mint => ?_,
           increasing := ?_, sums := ?_, label := ?_, sources := ?_ }
  · rw [← held.mints, Option.isSome_iff_exists]
    simp only [List.map_map, List.mem_map, groups.get?_eq_some_iff]
    constructor
    · intro ⟨entry, listed, named⟩
      exact ⟨entry.2, named ▸ listed⟩
    · intro ⟨value, listed⟩
      exact ⟨(mint, value), listed, rfl⟩
  · intro group member
    obtain ⟨entry, _, rfl⟩ := found member
    exact List.pairwise_map.mpr entry.2.2.sorted
  · intro group member
    obtain ⟨entry, known, rfl⟩ := found member
    have grouped := held.sums entry.1
    rw [known] at grouped
    exact grouped.merged
  · intro group member
    obtain ⟨entry, known, rfl⟩ := found member
    exact ⟨entry.2.1, held.leads _ _ known, rfl, rfl⟩
  · intro group member
    obtain ⟨entry, _, rfl⟩ := found member
    exact ⟨List.pairwise_insertionSort _ _, List.perm_insertionSort _ _⟩

/-- The rows of a merged mint are its entries. -/
theorem rowsOf_asMarket (mint : String) :
    rowsOf ((groups.entries.map (mergedMint inputs)).map asMarket) mint =
      (((groups.get? mint).map Prod.snd).getD SortedMap.empty).entries.map mergedEntry := by
  have filtered : ((groups.entries.map (mergedMint inputs)).map asMarket).filter
      (fun input => input.1.mint = mint) =
      ((groups.get? mint).toList.map (Prod.mk mint)).map (asMarket ∘ mergedMint inputs) := by
    rw [List.map_map, List.filter_map, ← groups.filter_key]
    rfl
  rw [rowsOf, filtered]
  cases groups.get? mint <;> simp [SortedMap.empty, asMarket, mergedMint]

theorem asMarket_lead (held : LedGroupsOf text inputs groups) {entry : String × IfMarket × Sums}
    (listed : entry ∈ groups.entries) : (asMarket (mergedMint inputs entry)).1 = entry.2.1 := by
  have leads := held.leads _ _ ((groups.get?_eq_some_iff _ _).mpr listed)
  rw [asMarket, mergedMint, ← leads.ofMint]

/-- The groups are those of their own output. -/
theorem LedGroupsOf.remerged (held : LedGroupsOf text inputs groups) :
    LedGroupsOf text ((groups.entries.map (mergedMint inputs)).map asMarket) groups := by
  refine { mints := fun mint => ?_, sums := fun mint => ?_, leads := fun mint group found => ?_ }
  · rw [held.mints, ← held.aggregated.mints, List.map_map (f := asMarket)]
    rfl
  · rw [rowsOf_asMarket]
    exact (held.sums mint).remerged
  · have listed := (groups.get?_eq_some_iff _ _).mp found
    refine { listed := ?_, ofMint := (held.leads _ _ found).ofMint, lowest := ?_ }
    · rw [List.map_map, List.map_map, List.mem_map]
      exact ⟨(mint, group), listed, asMarket_lead held listed⟩
    · intro market member same
      rw [List.map_map, List.map_map, List.mem_map] at member
      obtain ⟨entry, belongs, rfl⟩ := member
      have only := List.inj_on_of_nodup_map groups.keys_nodup belongs listed same
      rw [only]
      exact UInt64.le_refl _

theorem distinctIndices_asMarket (groups : Groups) :
    DistinctIndices ((groups.entries.map (mergedMint inputs)).map asMarket) := by
  unfold DistinctIndices
  rw [List.map_map, List.map_map, List.pairwise_map]
  exact groups.sorted.imp fun below same => absurd same below.ne

end Result

/-- What the order of markets and rows, a failure and a second application amount to. -/
structure OrderIndependent (text : PubkeyText) (inputs : List (IfMarket × List CsvEntry)) :
    Prop where
  shuffled : ∀ shuffled, Shuffled inputs shuffled → ∀ merged,
    aggregateIfEntries text inputs = .ok merged ↔ aggregateIfEntries text shuffled = .ok merged
  fails : (∃ failure, aggregateIfEntries text inputs = .error failure) ↔
    Unparseable text inputs ∨ Overflows text inputs
  result : ∀ merged, aggregateIfEntries text inputs = .ok merged → Aggregated text inputs merged
  again : ∀ merged, aggregateIfEntries text inputs = .ok merged →
    ∃ remerged, aggregateIfEntries text (merged.map asMarket) = .ok remerged ∧
      remerged.map asMarket = merged.map asMarket

/-- Aggregation is independent of the order of markets and rows, and idempotent. -/
theorem aggregation_order_independent (text : PubkeyText)
    (inputs : List (IfMarket × List CsvEntry)) (distinct : DistinctIndices inputs) :
    OrderIndependent text inputs := by
  refine { shuffled := fun shuffled same => aggregateIfEntries_shuffled distinct same,
           fails := aggregateIfEntries_fails_iff, result := ?_, again := ?_ }
  · intro merged success
    obtain ⟨groups, held, rfl⟩ := (aggregateIfEntries_ok_iff distinct).mp success
    exact held.aggregated
  · intro merged success
    obtain ⟨groups, held, rfl⟩ := (aggregateIfEntries_ok_iff distinct).mp success
    refine ⟨_, (aggregateIfEntries_ok_iff (distinctIndices_asMarket groups)).mpr
      ⟨groups, held.remerged, rfl⟩, ?_⟩
    rw [List.map_map, List.map_map]
    rfl

open SampleCsv SampleIf in
/-- Two markets of one mint, with the higher index first. -/
theorem aggregation_order_independent_two_markets :
    DistinctIndices inputs ∧ OrderIndependent latinText inputs := by
  have distinct : DistinctIndices inputs := by decide
  exact ⟨distinct, aggregation_order_independent latinText inputs distinct⟩

end MultiDistributor.Guarantees.InsuranceFund

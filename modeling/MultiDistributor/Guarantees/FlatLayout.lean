import MultiDistributor.Source.MerkleLayout

/-!
# Flat layout of the Merkle tree

`MerkleTree::new` keeps all levels in one vector and records no boundaries; `find_path`
recomputes them from the leaf count alone. The layout below says where every level stands
in that vector and what its nodes are, without reference to either loop, and the path
layout says that the second loop meets the boundaries the first one left.

The operands of a node are named by position. The branch on `sorted_hashes` is inside
`hashPair`, so one statement covers both kinds of tree.
-/
namespace MultiDistributor.Guarantees.FlatLayout
open Source Lib.ByteString Lib.Checked Lib.PairedLevels Lib.WhileLoop

/-- Nodes `2j` and `2j + 1` of a level, or node `2j` twice when the other does not exist. -/
def OperandsAt (lower : List Hash) (j : Nat) (left right : Hash) : Prop :=
  lower[2 * j]? = some left ∧
    if 2 * j + 1 < lower.length then lower[2 * j + 1]? = some right else right = left

/-- Vector and root of a tree whose levels, from the leaves up, are `tower`. -/
structure TreeLayout (H : HashFunction) (sorted : Bool) (items : List Bytes) (tree : MerkleTree)
    (tower : List (List Hash)) : Prop where
  leafCount : tree.leafCount = items.length
  nodes : tree.nodes = tower.flatten
  bottom : items ≠ [] → tower[0]? = some (items.map (hashLeaf H))
  height : items ≠ [] → tower.length = Nat.clog 2 items.length + 1
  lengths : ∀ k level, tower[k]? = some level → level.length = items.length ⌈/⌉ 2 ^ k
  hashes : ∀ k lower upper, tower[k]? = some lower → tower[k + 1]? = some upper →
    ∀ j node, upper[j]? = some node →
      ∃ left right, OperandsAt lower j left right ∧ node = hashPair H sorted left right
  top : items ≠ [] → ∃ node, tower.getLast? = some [node] ∧ tree.getRoot = some node
  empty : items = [] → tower = [] ∧ tree.getRoot = none

/-- The entry that leads from node `j` of a level to its parent: the sibling is the operand
of the parent's hash that node `j` is not, on the side where it stands. -/
structure EntryAt (pair : Hash → Hash → Hash) (lower upper : List Hash) (j : Nat)
    (entry : ProofEntry) : Prop where
  target : upper[j / 2]? = some entry.target
  sibling : ∃ own other, lower[j]? = some own ∧
    (entry.leftSibling = none ∧ entry.rightSibling = some other ∧
        OperandsAt lower (j / 2) own other ∧ entry.target = pair own other ∨
      entry.leftSibling = some other ∧ entry.rightSibling = none ∧
        OperandsAt lower (j / 2) other own ∧ entry.target = pair other own)

/-- The states in which the loop of `find_path` enters its body. -/
def pathStates (tree : MerkleTree) (i : Nat) : List PathState :=
  entered PathState.running (climbStep tree.nodes) (tree.leafCount + 1)
    { levelLen := tree.leafCount, levelStart := 0, nodeIndex := i,
      lsib := none, rsib := none, path := [] }

/-- What one iteration of `find_path` reads when it is at level `k`. -/
structure VisitAt (tree : MerkleTree) (tower : List (List Hash)) (i k : Nat) (level : List Hash)
    (st : PathState) : Prop where
  start : st.levelStart = (tower.take k).flatten.length
  width : st.levelLen = level.length
  sliced : slice tree.nodes st.levelStart (st.levelStart + st.levelLen) = .ok level
  ancestor : st.nodeIndex = i / 2 ^ k
  inside : st.nodeIndex < level.length

/-- `find_path` on leaf `i`: one visit per level, and one entry per level above the leaves. -/
structure PathLayout (pair : Hash → Hash → Hash) (tree : MerkleTree) (tower : List (List Hash))
    (i : Nat) : Prop where
  visits : (pathStates tree i).length = tower.length
  visited : ∀ k st, (pathStates tree i)[k]? = some st →
    ∃ level, tower[k]? = some level ∧ VisitAt tree tower i k level st
  found : ∃ path, tree.findPath i = .ok (some path) ∧ path.length + 1 = tower.length ∧
    ∀ k entry, path[k]? = some entry →
      ∃ lower upper, tower[k]? = some lower ∧ tower[k + 1]? = some upper ∧
        EntryAt pair lower upper (i / 2 ^ k) entry

/-! ### The vector -/

theorem operandsAt_of_operands {lower : List Hash} {j : Nat} {p : Hash × Hash}
    (operand : (operands lower)[j]? = some p) : OperandsAt lower j p.1 p.2 := by
  rw [operands_getElem?] at operand
  obtain ⟨a, left, rest⟩ := Option.bind_eq_some_iff.mp operand
  obtain ⟨b, right, rfl⟩ := Option.map_eq_some_iff.mp rest
  refine ⟨left, ?_⟩
  unfold rightOperand at right
  split at right
  · next paired => rw [if_pos paired, right]
  · next single =>
    rw [if_neg single]
    exact Option.some.inj (right.symm.trans left)

theorem treeLayout_levels (H : HashFunction) (items : List Bytes) (sorted : Bool) :
    TreeLayout H sorted items
      { leafCount := items.length
        nodes := (levels (hashPair H sorted) (items.map (hashLeaf H))).flatten }
      (levels (hashPair H sorted) (items.map (hashLeaf H))) where
  leafCount := rfl
  nodes := rfl
  bottom nonempty := levels_zero _ (by simpa using nonempty)
  height nonempty := by
    rw [levels_length _ (by simpa using nonempty), List.length_map]
  lengths k level found := by
    rw [level_length _ found, List.length_map]
  hashes k lower upper below above j node reached := by
    obtain ⟨same, first, _, rfl⟩ := lower_of_upper _ above
    rw [below] at first
    cases first
    rw [parents, List.getElem?_map] at reached
    obtain ⟨p, operand, rfl⟩ := Option.map_eq_some_iff.mp reached
    exact ⟨p.1, p.2, operandsAt_of_operands operand, rfl⟩
  top nonempty := last_level _ (by simpa using nonempty)
  empty none := by
    subst none
    simp [levels_nil, MerkleTree.getRoot]

/-! ### Paths -/

section Paths
variable (pair : Hash → Hash → Hash) (leaves : List Hash) (i : Nat)

theorem pathStates_eq (bound : i < leaves.length) :
    pathStates ⟨leaves.length, (levels pair leaves).flatten⟩ i =
      (List.range (levels pair leaves).length).map
        (pathStateAt (levels pair leaves) ((steps pair leaves i).map entryOfStep) i) := by
  rw [← (climbLevels_follows pair leaves i bound).entered_eq (levels_length_le pair leaves),
    pathStateAt_zero pair leaves _ i (List.ne_nil_of_length_pos (by omega))]
  rfl

-- five leaves: levels of 5, 3, 2 and 1 nodes, one after the other
example : (pathStates ⟨5, List.replicate 11 (Bytes32.filled 0)⟩ 4).map
    (fun st => (st.levelStart, st.levelLen, st.nodeIndex)) =
      [(0, 5, 4), (5, 3, 2), (8, 2, 1), (10, 1, 0)] := by decide +kernel

theorem visitAt_pathStateAt {level : List Hash} {k : Nat} (entries : List ProofEntry)
    (bound : i < leaves.length) (found : (levels pair leaves)[k]? = some level) :
    VisitAt ⟨leaves.length, (levels pair leaves).flatten⟩ (levels pair leaves) i k level
      (pathStateAt (levels pair leaves) entries i k) where
  start := rfl
  width := lengthAt_of_some found
  sliced := slice_level found
  ancestor := rfl
  inside := position_lt pair bound found

/-- The two shapes of an entry are the two parities of the position. -/
theorem entryAt_step {lower : List Hash} {j : Nat} {own target : Hash}
    (found : lower[j]? = some own) (reached : (parents pair lower)[j / 2]? = some target) :
    EntryAt pair lower (parents pair lower) j
      (entryOfStep ⟨target, leftSibling lower j, rightSibling lower j⟩) where
  target := reached
  sibling := by
    have hashed := reached.symm.trans (parent_of_position pair found)
    by_cases even : j % 2 = 0
    · obtain ⟨other, left, right, operand⟩ := operand_of_even even found
      rw [left, right] at hashed
      exact ⟨own, other, found, Or.inl ⟨left, right, operandsAt_of_operands operand,
        Option.some.inj hashed⟩⟩
    · obtain ⟨other, left, right, operand⟩ := operand_of_odd even found
      rw [left, right] at hashed
      exact ⟨own, other, found, Or.inr ⟨left, right, operandsAt_of_operands operand,
        Option.some.inj hashed⟩⟩

theorem entryAt_level {k : Nat} {entry : ProofEntry} (bound : i < leaves.length)
    (member : ((steps pair leaves i).map entryOfStep)[k]? = some entry) :
    ∃ lower upper, (levels pair leaves)[k]? = some lower ∧
      (levels pair leaves)[k + 1]? = some upper ∧ EntryAt pair lower upper (i / 2 ^ k) entry := by
  have within := (List.getElem?_eq_some_iff.mp member).1
  rw [List.length_map, steps_length_eq pair leaves i bound] at within
  obtain ⟨upper, above⟩ : ∃ upper, (levels pair leaves)[k + 1]? = some upper :=
    ⟨_, List.getElem?_eq_getElem (by omega)⟩
  obtain ⟨lower, below, _, rfl⟩ := lower_of_upper pair above
  have own := List.getElem?_eq_getElem (position_lt pair bound below)
  obtain ⟨target, reached⟩ : ∃ target, (parents pair lower)[i / 2 ^ (k + 1)]? = some target :=
    ⟨_, List.getElem?_eq_getElem (position_lt pair bound above)⟩
  rw [List.getElem?_map, steps_of_levels pair bound below above reached] at member
  cases member
  rw [Nat.pow_succ, ← Nat.div_div_eq_div_mul] at reached
  exact ⟨lower, _, below, above, entryAt_step pair own reached⟩

theorem pathLayout_levels (bound : i < leaves.length) :
    PathLayout pair ⟨leaves.length, (levels pair leaves).flatten⟩ (levels pair leaves) i where
  visits := by rw [pathStates_eq pair leaves i bound, List.length_map, List.length_range]
  visited k st found := by
    rw [pathStates_eq pair leaves i bound, List.getElem?_map] at found
    obtain ⟨n, number, rfl⟩ := Option.map_eq_some_iff.mp found
    obtain ⟨within, same⟩ := List.getElem?_eq_some_iff.mp number
    rw [List.getElem_range] at same
    subst same
    have level := List.getElem?_eq_getElem (List.length_range ▸ within)
    exact ⟨_, level, visitAt_pathStateAt pair leaves i _ bound level⟩
  found := by
    have positive : 0 < (levels pair leaves).length :=
      (List.getElem?_eq_some_iff.mp
        (levels_zero pair (List.ne_nil_of_length_pos (Nat.zero_lt_of_lt bound)))).1
    refine ⟨_, findPath_eq pair leaves i bound, ?_, ?_⟩
    · rw [List.length_map, steps_length_eq pair leaves i bound]
      omega
    · intro k entry member
      exact entryAt_level pair leaves i bound member

end Paths

/-- For every list of items and either kind of hashing, the vector that `MerkleTree::new`
returns is laid out in levels, and `find_path` walks those levels from every leaf. Both
results are `ok`: no loop runs out of iterations, no index or slice leaves the vector and
no entry trips the assertion of `ProofEntry::new`. -/
theorem new_flat_layout (H : HashFunction) (items : List Bytes) (sorted : Bool) :
    ∃ tree tower, MerkleTree.new H items sorted = .ok tree ∧
      TreeLayout H sorted items tree tower ∧
      ∀ i, i < items.length → PathLayout (hashPair H sorted) tree tower i := by
  refine ⟨_, _, new_eq H items sorted, treeLayout_levels H items sorted, ?_⟩
  intro i bound
  have path := pathLayout_levels (hashPair H sorted) (items.map (hashLeaf H)) i
    (by rwa [List.length_map])
  rw [List.length_map] at path
  exact path

end MultiDistributor.Guarantees.FlatLayout

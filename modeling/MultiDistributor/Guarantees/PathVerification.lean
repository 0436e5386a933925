import MultiDistributor.Guarantees.MerkleProofs

/-!
# Positional path verification

`find_path` over a tree built without sorting, and `Proof::verify` on its result. A
path has one entry per level above the leaves, and the comparison with the stored target
at the first of them already pins the candidate. A tree of one leaf has no such entry:
its path is empty and accepts every candidate.
-/
namespace MultiDistributor.Guarantees.PathVerification
open Source Lib.ByteString Lib.Checked Lib.PairedLevels

/-- Strings the builder hashes over a list of items, positions kept. -/
def treeStrings (H : HashFunction) (items : List Bytes) : List Bytes :=
  items.map leafString ++
    (allOperands (hashIntermediate H) (items.map (hashLeaf H))).map fun p =>
      intermediateString p.1 p.2

/-- The string hashed for one entry of a path. -/
def entryString (entry : ProofEntry) (candidate : Hash) : Bytes :=
  intermediateString (entry.leftSibling.getD candidate) (entry.rightSibling.getD candidate)

/-- Strings hashed by `Proof::verify`, up to the first target that does not match. -/
def pathStrings (H : HashFunction) : List ProofEntry → Hash → List Bytes
  | [], _ => []
  | entry :: rest, candidate =>
      entryString entry candidate ::
        if H (entryString entry candidate) = entry.target then pathStrings H rest entry.target
        else []

/-- Accepting a path is meeting every target in turn. -/
theorem verify_cons (H : HashFunction) (entry : ProofEntry) (rest : List ProofEntry)
    (candidate : Hash) :
    Proof.verify H (entry :: rest) candidate = true ↔
      H (entryString entry candidate) = entry.target ∧
        Proof.verify H rest entry.target = true := by
  unfold Proof.verify
  rw [List.foldlM_cons]
  change Option.isSome (Option.bind (if H (entryString entry candidate) = entry.target then
    some (H (entryString entry candidate)) else none) _) = true ↔ _
  by_cases met : H (entryString entry candidate) = entry.target
  · simp [met]
  · simp [met]

/-- The path of a position, walked from the entry at that position. -/
theorem verify_steps (H : HashFunction) (level : List Hash) (i : Nat) (x : Hash)
    (found : level[i]? = some x) :
    Proof.verify H ((steps (hashIntermediate H) level i).map entryOfStep) x = true := by
  fun_induction steps (hashIntermediate H) level i generalizing x with
  | case1 level i many missing =>
    rw [parent_of_position (hashIntermediate H) found] at missing
    cases missing
  | case2 level i many target reached ih =>
    rw [List.map_cons, verify_cons]
    have parent := (parent_of_position (hashIntermediate H) found).symm.trans reached
    exact ⟨Option.some.inj parent, ih target reached⟩
  | case3 level i few => rfl

section
variable (H : HashFunction) (items : List Bytes) (i : Nat) (bound : i < items.length)

theorem leaf_at : (items.map (hashLeaf H))[i]? = some (hashLeaf H items[i]) := by
  simp [List.getElem?_eq_getElem bound]

/-- From two leaves on, an accepted candidate meets the target of the first entry, which
the builder hashed from the leaf. -/
theorem candidate_eq_or_collision (many : 2 ≤ items.length) (candidate : Hash)
    (accepted : Proof.verify H ((steps (hashIntermediate H) (items.map (hashLeaf H)) i).map
      entryOfStep) candidate = true) :
    candidate = hashLeaf H items[i] ∨
      CollisionIn H (treeStrings H items ++ pathStrings H
        ((steps (hashIntermediate H) (items.map (hashLeaf H)) i).map entryOfStep) candidate) := by
  have found := leaf_at H items i bound
  have two : 2 ≤ (items.map (hashLeaf H)).length := by simpa using many
  rw [steps_of_two_le _ two (parent_of_position (hashIntermediate H) found), List.map_cons,
    verify_cons] at accepted
  rw [steps_of_two_le _ two (parent_of_position (hashIntermediate H) found), List.map_cons]
  have built : intermediateString
      ((leftSibling (items.map (hashLeaf H)) i).getD (hashLeaf H items[i]))
      ((rightSibling (items.map (hashLeaf H)) i).getD (hashLeaf H items[i])) ∈
        treeStrings H items := by
    rw [treeStrings, allOperands, if_pos two, List.map_append]
    have operand := List.mem_of_getElem? (operand_of_position found)
    exact List.mem_append_right _ (List.mem_append_left _ (List.mem_map_of_mem operand))
  rcases eq_or_collision (List.mem_append_right _ List.mem_cons_self)
    (List.mem_append_left _ built) accepted.1 with same | collision
  · obtain ⟨left, right⟩ := intermediateString_inj same
    exact .inl (eq_of_operands left right)
  · exact .inr collision

/-- One leaf is hashed once, so nothing can collide, and its path has no entries. -/
theorem no_collision_of_single (single : items.length = 1) (candidate : Hash) :
    Proof.verify H ((steps (hashIntermediate H) (items.map (hashLeaf H)) i).map entryOfStep)
        candidate = true ∧
      ¬ CollisionIn H (treeStrings H items ++ pathStrings H
        ((steps (hashIntermediate H) (items.map (hashLeaf H)) i).map entryOfStep) candidate) := by
  have few : ¬ 2 ≤ (items.map (hashLeaf H)).length := by simp [single]
  rw [steps_of_lt_two _ i few]
  refine ⟨rfl, ?_⟩
  obtain ⟨item, rfl⟩ := List.length_eq_one_iff.mp single
  rw [treeStrings, allOperands, if_neg few]
  intro collision
  obtain ⟨x, hx, y, hy, distinct, _⟩ := collision
  simp [pathStrings] at hx hy
  exact distinct (hx.trans hy.symm)

end

theorem exists_other_hash (hash : Hash) : ∃ other : Hash, other ≠ hash := by
  by_cases zero : hash = Bytes32.filled 0
  · exact ⟨Bytes32.filled 1, by rw [zero]; decide⟩
  · exact ⟨Bytes32.filled 0, Ne.symm zero⟩

/-- The path of a leaf accepts exactly the leaf, up to a collision among the strings
hashed by the builder and the verification, exactly when the tree has two leaves. -/
theorem path_accepts_leaf_iff (H : HashFunction) (items : List Bytes) (i : Nat)
    (bound : i < items.length) :
    ∃ tree path, MerkleTree.new H items false = .ok tree ∧
      tree.findPath i = .ok (some path) ∧
      ((∀ candidate, (Proof.verify H path candidate = true ↔ candidate = hashLeaf H items[i]) ∨
          CollisionIn H (treeStrings H items ++ pathStrings H path candidate)) ↔
        2 ≤ items.length) := by
  have path := findPath_eq (hashIntermediate H) (items.map (hashLeaf H)) i (by simpa using bound)
  rw [List.length_map] at path
  refine ⟨_, _, new_eq H items false, path, ?_⟩
  constructor
  · intro pinned
    by_contra few
    obtain ⟨other, different⟩ := exists_other_hash (hashLeaf H items[i])
    obtain ⟨accepted, clean⟩ := no_collision_of_single H items i (by omega) other
    exact different (((pinned other).resolve_right clean).mp accepted)
  · intro many candidate
    by_cases leaf : candidate = hashLeaf H items[i]
    · left
      rw [leaf]
      exact ⟨fun _ => rfl, fun _ => verify_steps H _ i _ (leaf_at H items i bound)⟩
    · by_cases accepted : Proof.verify H ((steps (hashIntermediate H)
          (items.map (hashLeaf H)) i).map entryOfStep) candidate = true
      · exact .inr ((candidate_eq_or_collision H items i bound many candidate accepted).resolve_left
          leaf)
      · exact .inl ⟨fun h => absurd h accepted, fun h => absurd h leaf⟩

/-- Three items, the last one paired with itself. -/
theorem path_accepts_leaf_three :
    let H : HashFunction := fun bytes => .filled (UInt8.ofNat bytes.length)
    ∃ tree path, MerkleTree.new H [[1], [2, 2], [3, 3, 3]] false = .ok tree ∧
      tree.findPath 2 = .ok (some path) ∧
      ((∀ candidate, (Proof.verify H path candidate = true ↔
            candidate = hashLeaf H [3, 3, 3]) ∨
          CollisionIn H (treeStrings H [[1], [2, 2], [3, 3, 3]] ++ pathStrings H path candidate)) ↔
        2 ≤ 3) :=
  path_accepts_leaf_iff _ [[1], [2, 2], [3, 3, 3]] 2 (by decide)

/-- The path of the only leaf accepts a hash that is not the leaf's, and the one string
hashed cannot collide. -/
theorem single_leaf_path_accepts_anything :
    let H : HashFunction := fun bytes => .filled (UInt8.ofNat bytes.length)
    ∃ tree, MerkleTree.new H [[5]] false = .ok tree ∧ tree.findPath 0 = .ok (some []) ∧
      Proof.verify H [] (Bytes32.filled 9) = true ∧ Bytes32.filled 9 ≠ hashLeaf H [5] ∧
      ¬ CollisionIn H (treeStrings H [[5]] ++ pathStrings H [] (Bytes32.filled 9)) := by
  intro H
  refine ⟨_, new_eq H [[5]] false, ?_, rfl, by decide, ?_⟩
  · have path := findPath_eq (hashIntermediate H) [hashLeaf H [5]] 0 (by decide)
    rw [steps_of_lt_two _ 0 (by decide)] at path
    exact path
  · have clean := (no_collision_of_single H [[5]] 0 rfl (Bytes32.filled 9)).2
    rw [steps_of_lt_two _ 0 (by decide)] at clean
    exact clean

end MultiDistributor.Guarantees.PathVerification

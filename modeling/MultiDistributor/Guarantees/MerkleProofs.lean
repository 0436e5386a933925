import MultiDistributor.Source.AirdropMerkleTree
import MultiDistributor.Source.MerkleLayout

/-!
# Inclusion proofs between the off-chain builder and the on-chain verifier

Completeness needs nothing of the hash function: the proof that `get_proof`
extracts is accepted for every list of items. Soundness is unconditional as well,
because a failure exhibits a collision: the strings it is searched among are those
the builder hashed for the tree and those the verifier hashed for the claim.
-/
namespace MultiDistributor.Guarantees.MerkleProofs
open Source Lib.ByteString Lib.Checked Lib.PairedLevels

/-- The string hashed for a sorted pair. -/
def sortedString (a b : Hash) : Bytes :=
  if a ≤ b then intermediateString a b else intermediateString b a

theorem hashPair_sorted (H : HashFunction) (a b : Hash) :
    hashPair H true a b = H (sortedString a b) := by
  unfold hashPair sortedString
  simp only [if_true]
  split <;> rfl

theorem sortedString_symm (a b : Hash) : sortedString a b = sortedString b a := by
  unfold sortedString
  by_cases hab : a ≤ b <;> by_cases hba : b ≤ a
  · rw [Bytes32.le_antisymm hab hba]
  · rw [if_pos hab, if_neg hba]
  · rw [if_neg hab, if_pos hba]
  · exact absurd (Bytes32.le_total a b) (by simp [hab, hba])

theorem hashPair_symm (H : HashFunction) (a b : Hash) :
    hashPair H true a b = hashPair H true b a := by
  rw [hashPair_sorted, hashPair_sorted, sortedString_symm]

/-- Sorting forgets the order of the operands but not the operands. -/
theorem sortedString_operand {a b x y : Hash} (same : sortedString a b = sortedString x y) :
    x = a ∨ x = b := by
  unfold sortedString at same
  split at same <;> split at same
  · exact Or.inl (intermediateString_inj same).1.symm
  · exact Or.inr (intermediateString_inj same).2.symm
  · exact Or.inr (intermediateString_inj same).1.symm
  · exact Or.inl (intermediateString_inj same).2.symm

theorem leafString_ne_sortedString (item : Bytes) (a b : Hash) :
    leafString item ≠ sortedString a b := by
  unfold sortedString
  split <;> exact leafString_ne_intermediateString _ _ _

theorem verify_eq (H : HashFunction) (proof : List Hash) (root leaf : Hash) :
    verify H proof root leaf = (proof.foldl (hashPair H true) leaf == root) := rfl

/-! ### Completeness -/

/-- The proof extracted for an item of a tree, and its acceptance. -/
theorem getProof_accepted (H : HashFunction) (items : List Bytes) (i : Nat)
    (bound : i < items.length) :
    ∃ tree root proof, MerkleTree.new H items true = .ok tree ∧ tree.getRoot = some root ∧
      getProof tree i = .ok proof ∧ proof.length = Nat.clog 2 items.length ∧
      verify H proof root (hashLeaf H items[i]) = true := by
  have inside : i < (items.map (hashLeaf H)).length := by simpa using bound
  have leaf : (items.map (hashLeaf H))[i]? = some (hashLeaf H items[i]) := by
    simp [List.getElem?_eq_getElem bound]
  obtain ⟨siblings, all, count, top⟩ := foldl_siblings_root (hashPair H true) (hashPair_symm H)
    (items.map (hashLeaf H)) i _ leaf
  have extracted := getProof_eq (hashPair H true) _ i inside siblings all
  have height : siblings.length = Nat.clog 2 items.length := by
    rw [count, steps_length (hashPair H true) _ i inside, List.length_map]
  refine ⟨_, _, siblings, new_eq H items true, top, ?_, height, ?_⟩
  · simpa using extracted
  · rw [verify_eq]
    exact beq_self_eq_true _

/-- Every non-empty list of items has a tree with a root, and each of its items has an
extractable proof of the height of the tree, which the verifier accepts. -/
theorem getProof_complete (H : HashFunction) (items : List Bytes) (nonempty : items ≠ []) :
    ∃ tree root, MerkleTree.new H items true = .ok tree ∧ tree.getRoot = some root ∧
      ∀ i (bound : i < items.length), ∃ proof, getProof tree i = .ok proof ∧
        proof.length = Nat.clog 2 items.length ∧
        verify H proof root (hashLeaf H items[i]) = true := by
  have some_item : 0 < items.length := List.length_pos_of_ne_nil nonempty
  obtain ⟨tree, root, _, built, top, _⟩ := getProof_accepted H items 0 some_item
  refine ⟨tree, root, built, top, fun i bound => ?_⟩
  obtain ⟨other, otherRoot, proof, rebuilt, otherTop, extracted⟩ :=
    getProof_accepted H items i bound
  cases built.symm.trans rebuilt
  cases top.symm.trans otherTop
  exact ⟨proof, extracted⟩

/-- Three items, so that the last one is paired with itself. -/
theorem getProof_complete_three :
    ∃ tree root, MerkleTree.new (fun _ => Bytes32.filled 7) [[1], [2], [3]] true = .ok tree ∧
      tree.getRoot = some root ∧ ∀ i (bound : i < 3), ∃ proof, getProof tree i = .ok proof ∧
        proof.length = Nat.clog 2 3 ∧
        verify (fun _ => Bytes32.filled 7) proof root
          (hashLeaf (fun _ => Bytes32.filled 7) ([[1], [2], [3]] : List Bytes)[i]) = true :=
  getProof_complete (fun _ => Bytes32.filled 7) [[1], [2], [3]] (by decide)

/-! ### Soundness -/

/-- Strings the builder hashes over a list of leaf items. -/
def treeStrings (H : HashFunction) (items : List Bytes) : List Bytes :=
  items.map leafString ++
    (allOperands (hashPair H true) (items.map (hashLeaf H))).map fun p => sortedString p.1 p.2

/-- Strings the verifier hashes while it folds a proof. -/
def foldStrings (H : HashFunction) : Hash → List Hash → List Bytes
  | _, [] => []
  | computedHash, proofElement :: rest =>
      sortedString computedHash proofElement ::
        foldStrings H (hashPair H true computedHash proofElement) rest

/-- Walking down from a node of the tree against an arbitrary proof stays among the
nodes of the tree, or two of the hashed strings collide. -/
theorem fold_mem_tree (H : HashFunction) (items : List Bytes) (proof : List Hash) (start : Hash)
    (reached : proof.foldl (hashPair H true) start ∈
      (levels (hashPair H true) (items.map (hashLeaf H))).flatten) :
    start ∈ (levels (hashPair H true) (items.map (hashLeaf H))).flatten ∨
      CollisionIn H (treeStrings H items ++ foldStrings H start proof) := by
  induction proof generalizing start with
  | nil => exact Or.inl reached
  | cons element rest ih =>
    have hashed : sortedString start element ∈
        treeStrings H items ++ foldStrings H start (element :: rest) := by simp [foldStrings]
    rcases ih (hashPair H true start element) reached with inside | collision
    · rcases levels_closed _ _ _ inside with bottom | ⟨p, operand, combined, left, right⟩
      · -- the running hash would be a leaf of the tree: the prefixes differ
        obtain ⟨item, member, equal⟩ := List.mem_map.mp bottom
        have known : leafString item ∈
            treeStrings H items ++ foldStrings H start (element :: rest) := by
          simp only [treeStrings, List.mem_append, List.mem_map]
          exact Or.inl (Or.inl ⟨item, member, rfl⟩)
        right
        refine ⟨_, known, _, hashed, leafString_ne_sortedString _ _ _, ?_⟩
        rw [← hashPair_sorted H, ← equal, hashLeaf_eq]
      · have known : sortedString p.1 p.2 ∈
            treeStrings H items ++ foldStrings H start (element :: rest) := by
          simp only [treeStrings, List.mem_append, List.mem_map]
          exact Or.inl (Or.inr ⟨p, operand, rfl⟩)
        have digest : H (sortedString p.1 p.2) = H (sortedString start element) := by
          rw [← hashPair_sorted H, ← hashPair_sorted H, combined]
        rcases eq_or_collision known hashed digest with same | collision
        · left
          rcases sortedString_operand same with rfl | rfl
          · exact left
          · exact right
        · exact Or.inr collision
    · right
      apply collision.mono
      intro x member
      simp only [foldStrings, List.mem_append, List.mem_cons] at member ⊢
      rcases member with built | folded
      · exact Or.inl built
      · exact Or.inr (Or.inr folded)

/-- Strings hashed off-chain for a list of nodes. -/
def builderStrings (H : HashFunction) (nodes : List TreeNode) : List Bytes :=
  nodes.map (fun n => claimString n.claimant n.amount (n.lockedAmount.getD 0)) ++
    treeStrings H (hashedNodes H nodes)

/-- Strings hashed on-chain for one claim. -/
def verifierStrings (H : HashFunction) (claimant : Pubkey)
    (amountUnlocked amountLocked : UInt64) (proof : List Hash) : List Bytes :=
  claimString claimant amountUnlocked amountLocked ::
    leafString (H (claimString claimant amountUnlocked amountLocked)).bytes ::
    foldStrings H (claimLeaf H claimant amountUnlocked amountLocked) proof

/-- The builder hashes the fields of every node, and the digest again as a leaf. -/
theorem node_strings_mem (H : HashFunction) {nodes : List TreeNode} {node : TreeNode}
    (listed : node ∈ nodes) :
    claimString node.claimant node.amount (node.lockedAmount.getD 0) ∈ builderStrings H nodes ∧
      leafString (node.hash H).bytes ∈ builderStrings H nodes := by
  simp only [builderStrings, treeStrings, hashedNodes, List.mem_append, List.mem_map]
  exact ⟨Or.inl ⟨node, listed, rfl⟩, Or.inr (Or.inl ⟨_, ⟨node, listed, rfl⟩, rfl⟩)⟩

theorem claim_strings_mem (H : HashFunction) (claimant : Pubkey)
    (amountUnlocked amountLocked : UInt64) (proof : List Hash) :
    claimString claimant amountUnlocked amountLocked ∈
        verifierStrings H claimant amountUnlocked amountLocked proof ∧
      leafString (H (claimString claimant amountUnlocked amountLocked)).bytes ∈
        verifierStrings H claimant amountUnlocked amountLocked proof := by
  simp [verifierStrings]

/-- A claim whose leaf is the leaf of a node has the fields of the node. -/
theorem fields_of_equal_leaf (H : HashFunction) {nodes : List TreeNode} {node : TreeNode}
    (listed : node ∈ nodes) (claimant : Pubkey) (amountUnlocked amountLocked : UInt64)
    (proof : List Hash)
    (equal : hashLeaf H (node.hash H).bytes = claimLeaf H claimant amountUnlocked amountLocked) :
    (node.claimant = claimant ∧ node.amount = amountUnlocked ∧
      node.lockedAmount.getD 0 = amountLocked) ∨
    CollisionIn H
      (builderStrings H nodes ++ verifierStrings H claimant amountUnlocked amountLocked proof) := by
  obtain ⟨source, sourceLeaf⟩ := node_strings_mem H listed
  obtain ⟨target, targetLeaf⟩ := claim_strings_mem H claimant amountUnlocked amountLocked proof
  -- the two hashes of a leaf are undone one after the other
  rcases eq_or_collision (List.mem_append_left _ sourceLeaf)
    (List.mem_append_right _ targetLeaf) equal with same | collision
  · have digest := Bytes32.ext_bytes (leafString_inj same)
    rcases eq_or_collision (List.mem_append_left _ source) (List.mem_append_right _ target)
      digest with fields | collision
    · exact Or.inl (claimString_inj fields)
    · exact Or.inr collision
  · exact Or.inr collision

/-- An accepted claim is the claim of a node of the tree, for every proof of every
length, or the hashed strings contain a collision. -/
theorem verify_sound (H : HashFunction) (nodes : List TreeNode) (tree : MerkleTree) (root : Hash)
    (built : MerkleTree.new H (hashedNodes H nodes) true = .ok tree)
    (top : tree.getRoot = some root) (claimant : Pubkey) (amountUnlocked amountLocked : UInt64)
    (proof : List Hash)
    (accepted : verify H proof root (claimLeaf H claimant amountUnlocked amountLocked) = true) :
    (∃ node ∈ nodes, node.claimant = claimant ∧ node.amount = amountUnlocked ∧
      node.lockedAmount.getD 0 = amountLocked) ∨
    CollisionIn H
      (builderStrings H nodes ++ verifierStrings H claimant amountUnlocked amountLocked proof) := by
  rw [new_eq] at built
  cases built
  rw [verify_eq, beq_iff_eq] at accepted
  have reached := List.mem_of_getLast? top
  rw [← accepted] at reached
  rcases fold_mem_tree H (hashedNodes H nodes) proof _ reached with inside | collision
  · rcases levels_closed _ _ _ inside with bottom | ⟨p, operand, combined, _, _⟩
    · obtain ⟨item, member, equal⟩ := List.mem_map.mp bottom
      obtain ⟨node, listed, rfl⟩ := List.mem_map.mp member
      rcases fields_of_equal_leaf H listed claimant amountUnlocked amountLocked proof equal with
        fields | collision
      · exact Or.inl ⟨node, listed, fields⟩
      · exact Or.inr collision
    · -- the claimed leaf would be an inner node of the tree
      have inner : sortedString p.1 p.2 ∈ builderStrings H nodes := by
        simp only [builderStrings, treeStrings, List.mem_append, List.mem_map]
        exact Or.inr (Or.inr ⟨p, operand, rfl⟩)
      have leaf := (claim_strings_mem H claimant amountUnlocked amountLocked proof).2
      refine Or.inr ⟨_, List.mem_append_right _ leaf, _, List.mem_append_left _ inner,
        leafString_ne_sortedString _ _ _, combined.trans (hashPair_sorted ..)⟩
  · right
    apply collision.mono
    intro x member
    simp only [builderStrings, verifierStrings, List.mem_append, List.mem_cons] at member ⊢
    rcases member with grown | folded
    · exact Or.inl (Or.inr grown)
    · exact Or.inr (Or.inr (Or.inr folded))

/-- For every non-empty list of nodes, whatever the on-chain check accepts against the root
of their tree is the claim of one of the nodes, or two distinct strings hashed by the
builder or the verifier have the same digest. -/
theorem accepted_claim_in_tree (H : HashFunction) (nodes : List TreeNode) (nonempty : nodes ≠ []) :
    ∃ tree root, MerkleTree.new H (hashedNodes H nodes) true = .ok tree ∧
      tree.getRoot = some root ∧
      ∀ claimant amountUnlocked amountLocked proof,
        verify H proof root (claimLeaf H claimant amountUnlocked amountLocked) = true →
        (∃ node ∈ nodes, node.claimant = claimant ∧ node.amount = amountUnlocked ∧
          node.lockedAmount.getD 0 = amountLocked) ∨
        CollisionIn H (builderStrings H nodes ++
          verifierStrings H claimant amountUnlocked amountLocked proof) := by
  have some_item : 0 < (hashedNodes H nodes).length := by
    simpa [hashedNodes] using List.length_pos_of_ne_nil nonempty
  obtain ⟨tree, root, _, built, top, _⟩ := getProof_accepted H (hashedNodes H nodes) 0 some_item
  exact ⟨tree, root, built, top, verify_sound H nodes tree root built top⟩

/-- A tree of three nodes, whose last has no neighbour. The claim of the second is accepted
with a proof of two hashes. -/
theorem accepted_claim_in_tree_of_three :
    let nodes : List TreeNode :=
      [{ claimant := .filled 3, amount := 5, lockedAmount := none, proof := none },
        { claimant := .filled 4, amount := 6, lockedAmount := some 2, proof := none },
        { claimant := .filled 5, amount := 7, lockedAmount := none, proof := none }]
    let H : HashFunction := fun bytes =>
      .filled (bytes.foldl (fun sum byte => 31 * sum + byte) 7)
    ∃ tree root proof, MerkleTree.new H (hashedNodes H nodes) true = .ok tree ∧
      tree.getRoot = some root ∧ proof.length = 2 ∧
      verify H proof root (claimLeaf H (.filled 4) 6 2) = true ∧
      ∀ claimant amountUnlocked amountLocked proof,
        verify H proof root (claimLeaf H claimant amountUnlocked amountLocked) = true →
        (∃ node ∈ nodes, node.claimant = claimant ∧ node.amount = amountUnlocked ∧
          node.lockedAmount.getD 0 = amountLocked) ∨
        CollisionIn H (builderStrings H nodes ++
          verifierStrings H claimant amountUnlocked amountLocked proof) := by
  intro nodes H
  obtain ⟨tree, root, built, top, sound⟩ := accepted_claim_in_tree H nodes (by decide)
  obtain ⟨_, _, proof, same, sameTop, _, height, accepted⟩ :=
    getProof_accepted H (hashedNodes H nodes) 1 (by decide)
  obtain rfl := Except.ok.inj (built.symm.trans same)
  obtain rfl := Option.some.inj (top.symm.trans sameTop)
  exact ⟨tree, root, proof, built, top, height.trans (by decide), accepted, sound⟩

end MultiDistributor.Guarantees.MerkleProofs

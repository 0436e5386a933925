import MultiDistributor.Guarantees.MerkleProofs

/-!
# Trees returned by the builder

What `AirdropMerkleTree::new` guarantees of a tree it returns, from its own validation
and from the completeness of the proofs it stores: claimants are distinct, the counts and
totals are exact, and every stored proof is accepted on-chain for the stored amounts.
-/
namespace MultiDistributor.Guarantees.MerkleProofs
open Source Lib.ByteString Lib.Checked Lib.PairedLevels

/-- What a node is worth, unlocked and locked together. -/
def entitlement (node : TreeNode) : Nat := node.amount.toNat + (node.lockedAmount.getD 0).toNat

structure BuiltTree (H : HashFunction) (tree : AirdropMerkleTree) : Prop where
  distinct : (tree.treeNodes.map TreeNode.claimant).Nodup
  count : tree.maxNumNodes.toNat = tree.treeNodes.length
  total : tree.maxTotalClaim.toNat = (tree.treeNodes.map entitlement).sum
  root : ∃ merkleTree, MerkleTree.new H (hashedNodes H tree.treeNodes) true = .ok merkleTree ∧
    merkleTree.getRoot = some tree.merkleRoot
  proofs : ∀ node ∈ tree.treeNodes, ∃ proof, node.proof = some proof ∧
    verify H proof tree.merkleRoot
      (claimLeaf H node.claimant node.amount (node.lockedAmount.getD 0)) = true

theorem totalAmount_ok_iff {node : TreeNode} {total : UInt64} :
    node.totalAmount = .ok total ↔ total.toNat = entitlement node := by
  rw [TreeNode.totalAmount, okOr_ok_iff, checkedAdd_eq_some, entitlement]

/-- `get_max_total_claim` is the exact sum, and returns whenever a `u64` holds it. -/
theorem getMaxTotalClaim_ok_iff {nodes : List TreeNode} {total : UInt64} :
    getMaxTotalClaim nodes = .ok total ↔ total.toNat = (nodes.map entitlement).sum := by
  have step : ∀ (acc : UInt64) (node : TreeNode) (next : UInt64),
      (do
        let total ← node.totalAmount
        okOr (checkedAdd acc total) Panic.unwrapNone) = .ok next ↔
      True ∧ next.toNat = acc.toNat + entitlement node := by
    intro acc node next
    simp only [bind_ok_iff, totalAmount_ok_iff, okOr_ok_iff, checkedAdd_eq_some, true_and]
    constructor
    · intro ⟨amount, value, sum⟩
      omega
    · intro sum
      have width := next.toNat_lt
      obtain ⟨amount, value⟩ := exists_u64 (show entitlement node < 2 ^ 64 by omega)
      exact ⟨amount, value, by omega⟩
  rw [getMaxTotalClaim, foldlM_sum_ok_iff step]
  simp

theorem orInvalidRoot_ok {outcome : Except BuildFailure Unit} {u : Unit}
    (success : orInvalidRoot outcome = .ok u) : outcome = .ok u := by
  unfold orInvalidRoot at success
  split at success
  · cases success
  · exact success

/-- The parts of the validation that a returned tree has passed. -/
theorem validate_ok {H : HashFunction} {tree : AirdropMerkleTree} {u : Unit}
    (success : tree.validate H = .ok u) :
    (tree.treeNodes.map TreeNode.claimant).Nodup ∧
      tree.maxNumNodes.toNat = tree.treeNodes.length ∧
      tree.maxTotalClaim.toNat = (tree.treeNodes.map entitlement).sum ∧
      ∃ merkleTree, MerkleTree.new H (hashedNodes H tree.treeNodes) true = .ok merkleTree ∧
        merkleTree.getRoot = some tree.merkleRoot := by
  simp only [AirdropMerkleTree.validate, bind_ok_iff, require_ok_iff, panics_ok_iff] at success
  obtain ⟨_, _, _, count, _, unique, sum, total, _, rfl, rooted⟩ := success
  have checked := orInvalidRoot_ok rooted
  simp only [AirdropMerkleTree.verifyProof, bind_ok_iff, require_ok_iff, panics_ok_iff,
    okOr_ok_iff] at checked
  obtain ⟨merkleTree, built, root, top, _, rfl, _⟩ := checked
  refine ⟨?_, count.symm, getMaxTotalClaim_ok_iff.mp total, merkleTree, built, top⟩
  have full : (tree.treeNodes.map TreeNode.claimant).dedup.length =
      (tree.treeNodes.map TreeNode.claimant).length := by
    rw [unique, List.length_map]
  rw [← List.dedup_eq_self]
  exact (List.dedup_sublist _).eq_of_length full

/-- A tree returned by `AirdropMerkleTree::new` is well built. -/
theorem new_builtTree {H : HashFunction} {nodes : List TreeNode} {version : UInt64}
    {tree : AirdropMerkleTree} (success : AirdropMerkleTree.new H nodes version = .ok tree) :
    BuiltTree H tree := by
  simp only [AirdropMerkleTree.new, bind_ok_iff, panics_ok_iff, okOr_ok_iff,
    pure_ok_iff] at success
  obtain ⟨combined, _, merkleTree, built, proved, attached, total, _, root, top, _, valid, rfl⟩ :=
    success
  obtain ⟨distinct, count, sum, rooted⟩ := validate_ok valid
  refine { distinct, count, total := sum, root := rooted, proofs := fun node member => ?_ }
  obtain ⟨⟨source, i⟩, listed, result⟩ := exists_input_of_mapM attached member
  simp only [bind_ok_iff, pure_ok_iff] at result
  obtain ⟨proof, extracted, rfl⟩ := result
  have position := List.mem_zipIdx_iff_getElem?.mp listed
  obtain ⟨bound, here⟩ := List.getElem?_eq_some_iff.mp position
  -- the proof was extracted from the tree of the same hashes, at the position of the node
  have inside : i < (hashedNodes H combined).length := by simpa [hashedNodes] using bound
  obtain ⟨other, otherRoot, otherProof, rebuilt, otherTop, again, _, accepted⟩ :=
    getProof_accepted H (hashedNodes H combined) i inside
  cases built.symm.trans rebuilt
  cases top.symm.trans otherTop
  cases extracted.symm.trans again
  refine ⟨proof, rfl, ?_⟩
  have leaf : (hashedNodes H combined)[i] = (source.hash H).bytes := by
    simp [hashedNodes, here]
  rw [leaf] at accepted
  exact accepted

/-- What a tree owes a claimant. -/
def owed (tree : AirdropMerkleTree) (claimant : Pubkey) : Nat :=
  match tree.treeNodes.find? (fun node => node.claimant = claimant) with
  | some node => entitlement node
  | none => 0

/-- Claimants are distinct, so a node is the one found under its claimant. -/
theorem BuiltTree.owed_eq {H : HashFunction} {tree : AirdropMerkleTree} (built : BuiltTree H tree)
    {node : TreeNode} (member : node ∈ tree.treeNodes) :
    owed tree node.claimant = entitlement node := by
  obtain ⟨found, hfound⟩ : ∃ found, tree.treeNodes.find?
      (fun other => other.claimant = node.claimant) = some found := by
    rw [← Option.isSome_iff_exists, List.find?_isSome]
    exact ⟨node, member, by simp⟩
  have listed := List.mem_of_find?_eq_some hfound
  have named : found.claimant = node.claimant := by simpa using List.find?_some hfound
  have same := List.inj_on_of_nodup_map built.distinct listed member named
  rw [owed, hfound, same]

/-- Any set of claimants of the tree is owed at most its total, and has at most as many
members as the tree has nodes. -/
theorem BuiltTree.capacity {H : HashFunction} {tree : AirdropMerkleTree}
    (built : BuiltTree H tree) {claimants : Finset Pubkey}
    (listed : ∀ claimant ∈ claimants, ∃ node ∈ tree.treeNodes, node.claimant = claimant) :
    ∑ claimant ∈ claimants, owed tree claimant ≤ tree.maxTotalClaim.toNat ∧
      claimants.card ≤ tree.treeNodes.length := by
  have subset : claimants ⊆ (tree.treeNodes.map TreeNode.claimant).toFinset := by
    intro claimant member
    obtain ⟨node, belongs, rfl⟩ := listed claimant member
    simp only [List.mem_toFinset, List.mem_map]
    exact ⟨node, belongs, rfl⟩
  have values : (tree.treeNodes.map TreeNode.claimant).map (owed tree) =
      tree.treeNodes.map entitlement := by
    rw [List.map_map]
    exact List.map_congr_left fun node member => built.owed_eq member
  constructor
  · calc ∑ claimant ∈ claimants, owed tree claimant
        ≤ ∑ claimant ∈ (tree.treeNodes.map TreeNode.claimant).toFinset, owed tree claimant :=
          Finset.sum_le_sum_of_subset subset
      _ = tree.maxTotalClaim.toNat := by
          rw [List.sum_toFinset _ built.distinct, values, built.total]
  · calc claimants.card
        ≤ (tree.treeNodes.map TreeNode.claimant).toFinset.card := Finset.card_le_card subset
      _ = tree.treeNodes.length := by
          rw [List.toFinset_card_of_nodup built.distinct, List.length_map]

end MultiDistributor.Guarantees.MerkleProofs

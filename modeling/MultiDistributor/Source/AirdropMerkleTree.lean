import MultiDistributor.Source.MerkleTree

/-!
# Airdrop trees

`merkle-tree/src/tree_node.rs`, `merkle-tree/src/airdrop_merkle_tree.rs` and
`get_max_total_claim` of `merkle-tree/src/utils.rs`. The `IndexMap` keyed by
claimant is the list of its values in insertion order. A build either panics, as an
`unwrap` does, or returns one of the errors of the crate.
-/
namespace MultiDistributor.Source
open Lib.ByteString Lib.Checked

structure TreeNode where
  claimant : Pubkey
  amount : UInt64
  lockedAmount : Option UInt64
  proof : Option (List Hash)
  deriving DecidableEq, Repr

/-- `TreeNode::hash`. -/
def TreeNode.hash (H : HashFunction) (node : TreeNode) : Hash :=
  hashv H [node.claimant.bytes, toLeBytes node.amount, toLeBytes (node.lockedAmount.getD 0)]

/-- `TreeNode::total_amount`. -/
def TreeNode.totalAmount (node : TreeNode) : Except Panic UInt64 :=
  okOr (checkedAdd node.amount (node.lockedAmount.getD 0)) .unwrapNone

/-- `get_max_total_claim`. -/
def getMaxTotalClaim (nodes : List TreeNode) : Except Panic UInt64 :=
  nodes.foldlM
    (fun acc n => do
      let total ← n.totalAmount
      okOr (checkedAdd acc total) .unwrapNone)
    0

/-- The errors of the crate, without those of reading a file. -/
inductive MerkleTreeError where
  | merkleValidationError (msg : String)
  | merkleRootError
  | amountConversionError (msg : String)
  deriving DecidableEq, Repr

inductive BuildFailure where
  | panic (reason : Panic)
  | error (reason : MerkleTreeError)
  deriving DecidableEq, Repr

/-- A panic inside a fallible builder aborts it. -/
def panics {α : Type} : Except Panic α → Except BuildFailure α
  | .ok value => .ok value
  | .error reason => .error (.panic reason)

theorem panics_ok_iff {α : Type} {step : Except Panic α} {value : α} :
    panics step = .ok value ↔ step = .ok value := by
  cases step <;> simp [panics]

structure AirdropMerkleTree where
  merkleRoot : Hash
  airdropVersion : UInt64
  maxNumNodes : UInt64
  maxTotalClaim : UInt64
  treeNodes : List TreeNode
  deriving DecidableEq, Repr

/-- The four cases of the locked amount when two rows of one claimant meet. -/
def combineLocked : Option UInt64 → Option UInt64 → Except Panic (Option UInt64)
  | some a, some b => do
      let sum ← okOr (checkedAdd a b) .unwrapNone
      return some sum
  | some a, none => .ok (some a)
  | none, some b => .ok (some b)
  | none, none => .ok none

/-- The `and_modify` closure. -/
def combineNodes (n treeNode : TreeNode) : Except Panic TreeNode := do
  let amount ← okOr (checkedAdd n.amount treeNode.amount) .unwrapNone
  let lockedAmount ← combineLocked n.lockedAmount treeNode.lockedAmount
  return { n with amount, lockedAmount }

/-- `entry(claimant).and_modify(..).or_insert_with(..)`. -/
def insertNode : List TreeNode → TreeNode → Except Panic (List TreeNode)
  | [], treeNode => .ok [treeNode]
  | n :: rest, treeNode =>
      if n.claimant = treeNode.claimant then do
        let combined ← combineNodes n treeNode
        return combined :: rest
      else do
        let inserted ← insertNode rest treeNode
        return n :: inserted

def hashedNodes (H : HashFunction) (nodes : List TreeNode) : List Bytes :=
  nodes.map fun n => (n.hash H).bytes

/-- `verify_proof`: rebuild, compare roots by `assert_eq!`, then check every leaf. -/
def AirdropMerkleTree.verifyProof (H : HashFunction) (self : AirdropMerkleTree) :
    Except BuildFailure Unit := do
  let invalid : BuildFailure := .error (.merkleValidationError "invalid merkle proof")
  let mk ← panics (MerkleTree.new H (hashedNodes H self.treeNodes) true)
  let root ← okOr mk.getRoot invalid
  require (root = self.merkleRoot) (.panic .assertionFailed)
  (hashedNodes H self.treeNodes).zipIdx.forM fun (item, i) => do
    let proof ← panics (getProof mk i)
    require (verify H proof self.merkleRoot (hashLeaf H item)) invalid

/-- `self.verify_proof().is_err()` replaces the error and lets a panic through. -/
def orInvalidRoot : Except BuildFailure Unit → Except BuildFailure Unit
  | .error (.error _) =>
      .error (.error (.merkleValidationError "Merkle root is invalid given nodes"))
  | outcome => outcome

/-- `validate`. -/
def AirdropMerkleTree.validate (H : HashFunction) (self : AirdropMerkleTree) :
    Except BuildFailure Unit := do
  -- The Merkle tree can be at most height 32, implying a max node count of 2^32 - 1
  require (self.maxNumNodes ≤ 2 ^ 32 - 1) (.error (.merkleValidationError
    ("Max num nodes " ++ toString self.maxNumNodes.toNat ++ " is greater than 2^32 - 1")))
  require (self.treeNodes.length = self.maxNumNodes.toNat) (.error (.merkleValidationError
    ("Tree nodes length " ++ toString self.treeNodes.length ++ " does not match max_num_nodes " ++
      toString self.maxNumNodes.toNat)))
  require ((self.treeNodes.map TreeNode.claimant).dedup.length = self.treeNodes.length)
    (.error (.merkleValidationError "Duplicate claimants found"))
  let sum ← panics (getMaxTotalClaim self.treeNodes)
  require (sum = self.maxTotalClaim) (.error (.merkleValidationError
    ("Tree nodes sum " ++ toString sum.toNat ++ " does not match max_total_claim " ++
      toString self.maxTotalClaim.toNat)))
  orInvalidRoot (self.verifyProof H)

/-- `AirdropMerkleTree::new`. -/
def AirdropMerkleTree.new (H : HashFunction) (treeNodes : List TreeNode)
    (airdropVersion : UInt64) : Except BuildFailure AirdropMerkleTree := do
  let combined ← panics (treeNodes.foldlM insertNode [])
  let tree ← panics (MerkleTree.new H (hashedNodes H combined) true)
  let proved ← panics (combined.zipIdx.mapM fun (treeNode, i) => do
    let proof ← getProof tree i
    return { treeNode with proof := some proof })
  let maxTotalClaim ← panics (getMaxTotalClaim proved)
  let merkleRoot ← okOr tree.getRoot (.error .merkleRootError)
  let airdrop : AirdropMerkleTree :=
    { merkleRoot, airdropVersion, maxNumNodes := UInt64.ofNat proved.length, maxTotalClaim,
      treeNodes := proved }
  airdrop.validate H
  return airdrop

end MultiDistributor.Source

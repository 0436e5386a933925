import MultiDistributor.Lib.Checked
import MultiDistributor.Lib.PairedLevels
import MultiDistributor.Source.Hashing

/-!
# Merkle tree builder, paths and the on-chain verifier

`merkle-tree/src/merkle_tree.rs`, `get_proof` of `merkle-tree/src/utils.rs` and
`verify/src/lib.rs`. The builder keeps every level in one flat vector and both
loops walk it by index arithmetic; here an index or slice out of bounds is the
panic it is in Rust. Each `while` loop is given a number of iterations and reports
`outOfFuel` when they do not suffice. The capacity reserved for the vector is not
represented: it does not affect its contents.
-/
namespace MultiDistributor.Source
open Lib.ByteString Lib.Checked

structure MerkleTree where
  leafCount : Nat
  nodes : List Hash
  deriving DecidableEq, Repr

/-- `nodes[i]`. -/
def index {α : Type} (nodes : List α) (i : Nat) : Except Panic α :=
  okOr nodes[i]? .indexOutOfBounds

/-- `&nodes[first..last]`. -/
def slice {α : Type} (nodes : List α) (first last : Nat) : Except Panic (List α) := do
  require (first ≤ last ∧ last ≤ nodes.length) .indexOutOfBounds
  return (nodes.drop first).take (last - first)

def nextLevelLen (levelLen : Nat) : Nat :=
  if levelLen = 1 then 0 else (levelLen + 1) / 2

/-- The three hashing branches of the level loop. -/
def hashPair (H : HashFunction) (sortedHashes : Bool) (lsib rsib : Hash) : Hash :=
  if sortedHashes then
    if lsib ≤ rsib then hashIntermediate H lsib rsib else hashIntermediate H rsib lsib
  else hashIntermediate H lsib rsib

/-- Body of the inner loop: one parent is read from the level below and pushed. -/
def pushParent (H : HashFunction) (sortedHashes : Bool) (prevLevelStart prevLevelLen : Nat)
    (nodes : List Hash) (i : Nat) : Except Panic (List Hash) := do
  let prevLevelIdx := 2 * i
  let lsib ← index nodes (prevLevelStart + prevLevelIdx)
  let rsib ←
    if prevLevelIdx + 1 < prevLevelLen then index nodes (prevLevelStart + prevLevelIdx + 1)
    -- Duplicate last entry if the level length is odd
    else index nodes (prevLevelStart + prevLevelIdx)
  return nodes ++ [hashPair H sortedHashes lsib rsib]

/-- The running offsets of `MerkleTree::new` and the vector under construction. -/
structure LevelState where
  levelLen : Nat
  levelStart : Nat
  prevLevelLen : Nat
  prevLevelStart : Nat
  nodes : List Hash

/-- `while level_len > 0`. -/
def buildLevels (H : HashFunction) (sortedHashes : Bool) :
    Nat → LevelState → Except Panic (List Hash)
  | 0, st => if st.levelLen = 0 then .ok st.nodes else .error .outOfFuel
  | fuel + 1, st =>
      if st.levelLen = 0 then .ok st.nodes
      else do
        let nodes ← (List.range st.levelLen).foldlM
          (pushParent H sortedHashes st.prevLevelStart st.prevLevelLen) st.nodes
        buildLevels H sortedHashes fuel
          { levelLen := nextLevelLen st.levelLen
            levelStart := st.levelStart + st.levelLen
            prevLevelLen := st.levelLen
            prevLevelStart := st.levelStart
            nodes }

def MerkleTree.new (H : HashFunction) (items : List Bytes) (sortedHashes : Bool) :
    Except Panic MerkleTree := do
  let nodes ← buildLevels H sortedHashes items.length
    { levelLen := nextLevelLen items.length
      levelStart := items.length
      prevLevelLen := items.length
      prevLevelStart := 0
      nodes := items.map (hashLeaf H) }
  return { leafCount := items.length, nodes }

def MerkleTree.getRoot (tree : MerkleTree) : Option Hash := tree.nodes.getLast?

structure ProofEntry where
  target : Hash
  leftSibling : Option Hash
  rightSibling : Option Hash
  deriving DecidableEq, Repr

/-- `ProofEntry::new` asserts that exactly one sibling is present. -/
def ProofEntry.new (target : Hash) (leftSibling rightSibling : Option Hash) :
    Except Panic ProofEntry := do
  require (leftSibling.isNone ^^ rightSibling.isNone) .assertionFailed
  return { target, leftSibling, rightSibling }

/-- The running offsets of `find_path`, the pending siblings and the path so far. -/
structure PathState where
  levelLen : Nat
  levelStart : Nat
  nodeIndex : Nat
  lsib : Option Hash
  rsib : Option Hash
  path : List ProofEntry

/-- An entry is pushed as soon as one sibling was found, one level below. -/
def pushEntry (target : Hash) (lsib rsib : Option Hash) (path : List ProofEntry) :
    Except Panic (List ProofEntry) :=
  if lsib ≠ none ∨ rsib ≠ none then do
    let entry ← ProofEntry.new target lsib rsib
    return path ++ [entry]
  else .ok path

/-- The assignments to `lsib` and `rsib` at the end of an iteration. -/
def readSiblings (level : List Hash) (nodeIndex : Nat) :
    Except Panic (Option Hash × Option Hash) :=
  if nodeIndex % 2 = 0 then do
    let sibling ←
      if nodeIndex + 1 < level.length then index level (nodeIndex + 1) else index level nodeIndex
    return (none, some sibling)
  else do
    let sibling ← index level (nodeIndex - 1)
    return (some sibling, none)

/-- `while level_len > 0`. -/
def climbLevels (nodes : List Hash) : Nat → PathState → Except Panic (List ProofEntry)
  | 0, st => if st.levelLen = 0 then .ok st.path else .error .outOfFuel
  | fuel + 1, st =>
      if st.levelLen = 0 then .ok st.path
      else do
        let level ← slice nodes st.levelStart (st.levelStart + st.levelLen)
        let target ← index level st.nodeIndex
        let path ← pushEntry target st.lsib st.rsib st.path
        let siblings ← readSiblings level st.nodeIndex
        climbLevels nodes fuel
          { levelLen := nextLevelLen st.levelLen
            levelStart := st.levelStart + st.levelLen
            nodeIndex := st.nodeIndex / 2
            lsib := siblings.1
            rsib := siblings.2
            path }

/-- `find_path`: `none` is the Rust `None` for an index past the leaves. -/
def MerkleTree.findPath (tree : MerkleTree) (i : Nat) : Except Panic (Option (List ProofEntry)) :=
  if tree.leafCount ≤ i then .ok none
  else do
    let path ← climbLevels tree.nodes (tree.leafCount + 1)
      { levelLen := tree.leafCount, levelStart := 0, nodeIndex := i,
        lsib := none, rsib := none, path := [] }
    return some path

/-- `Proof::verify`: the recomputed hash has to match the stored target at every entry. -/
def Proof.verify (H : HashFunction) (path : List ProofEntry) (candidate : Hash) : Bool :=
  (path.foldlM
    (fun candidate entry =>
      let lsib := entry.leftSibling.getD candidate
      let rsib := entry.rightSibling.getD candidate
      let hash := hashIntermediate H lsib rsib
      if hash = entry.target then some hash else none)
    candidate).isSome

/-- The hash one branch adds to a proof: its left sibling, or else its right one. -/
def ProofEntry.siblingHash (branch : ProofEntry) : Except Panic Hash :=
  match branch.leftSibling, branch.rightSibling with
  | some hash, _ => .ok hash
  | none, some hash => .ok hash
  | none, none => .error .explicit

/-- `get_proof`. -/
def getProof (tree : MerkleTree) (i : Nat) : Except Panic (List Hash) := do
  let found ← tree.findPath i
  let path ← okOr found .expectFailed
  path.mapM ProofEntry.siblingHash

/-- `jito_merkle_verify::verify`: each step sorts the running hash and the element. -/
def verify (H : HashFunction) (proof : List Hash) (root leaf : Hash) : Bool :=
  proof.foldl
    (fun computedHash proofElement =>
      if computedHash ≤ proofElement then hashIntermediate H computedHash proofElement
      else hashIntermediate H proofElement computedHash)
    leaf == root

end MultiDistributor.Source

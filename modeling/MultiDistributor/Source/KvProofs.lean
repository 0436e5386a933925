import MultiDistributor.Lib.SortedMap
import MultiDistributor.Source.AdminCommands

/-!
# Proofs for the key-value store

`process_generate_kv_proof.rs` writes the leaves of the tree files, so many to a file, under
the texts of their claimants, for a store that then answers in place of the server.
`verify_kv_proof.rs` asks both about rows of a CSV that it picks at random and compares the
answers. The file `{file_index}.json` has that index in the list of the files. A `HashMap`
has no order and is a sorted map. What a panic leaves behind is left out. The store is an
external service, and the text of the answers is that of `serde_json`; both are parameters.
-/
namespace MultiDistributor.Source
open Lib Lib.Checked

/-! ### The records -/

structure KvProof where
  merkleTree : String
  amount : UInt64
  lockedAmount : Option UInt64
  proof : List Hash
  deriving DecidableEq, Repr

/-- The answer of the server that a proof of the store stands for. -/
def KvProof.toUserProof (kvProof : KvProof) : UserProof where
  merkleTree := kvProof.merkleTree
  amount := kvProof.amount
  lockedAmount := kvProof.lockedAmount.getD 0
  proof := kvProof.proof

/-- The text of the two records, and the reading of a `UserProof`. The field names of the two
are the same, but the locked amount of a `UserProof` is a number and never `null`. -/
structure ProofFormat where
  writeKv : KvProof → String
  writeUser : UserProof → String
  read : String → Option UserProof
  read_user : ∀ userProof, read (writeUser userProof) = some userProof
  read_kv : ∀ kvProof,
    read (writeKv kvProof) = if kvProof.lockedAmount.isSome then some kvProof.toUserProof else none

/-! ### Generating the files -/

/-- The map at hand and the files written so far. -/
structure KvFiles where
  proofs : SortedMap String KvProof
  written : List (SortedMap String KvProof)

section
variable (rt : Runtime) (format : TreeFormat) (mint : Pubkey) (text : PubkeyText)
  (maxEntriesPerFile : UInt64)

/-- Body of the loop over the nodes of a tree. -/
def insertProof (distributorPubkey : Pubkey) (files : KvFiles) (node : TreeNode) :
    Except Panic KvFiles := do
  let proof ← okOr node.proof .unwrapNone
  let proofs := files.proofs.insert (text.toStr node.claimant)
    { merkleTree := text.toStr distributorPubkey
      amount := node.amount
      lockedAmount := node.lockedAmount
      proof }
  if maxEntriesPerFile.toNat ≤ proofs.entries.length then
    return { proofs := .empty, written := files.written ++ [proofs] }
  else return { files with proofs }

/-- Body of the loop over the tree files. -/
def insertFile (files : KvFiles) (file : DirEntry) : Except Panic KvFiles := do
  let merkleTree ← okOr (file.tree format) .expectFailed
  let distributorPubkey := rt.distributorAddress mint merkleTree.airdropVersion
  merkleTree.treeNodes.foldlM (insertProof text maxEntriesPerFile distributorPubkey) files

/-- `process_generate_kv_proof`: the files it writes. -/
def processGenerateKvProof (dir : List DirEntry) :
    Except Panic (List (SortedMap String KvProof)) := do
  let files ← (sortedPaths dir).foldlM (insertFile rt format mint text maxEntriesPerFile)
    ⟨.empty, []⟩
  return if files.proofs.entries.length > 0 then files.written ++ [files.proofs]
    else files.written

end

/-- What the files hold for a key, those put into the store later over those before. -/
def uploaded (files : List (SortedMap String KvProof)) : String → Option KvProof :=
  files.foldl (fun store file key => (file.get? key).or (store key)) fun _ => none

/-! ### Verifying the store -/

section
variable (format : ProofFormat)

/-- `get_user_info`. The body of an error is no `UserProof`. -/
def getUserInfo (text : PubkeyText) (tree : TreeIndex) (pubkey : String) : Option String :=
  (getUserProof text tree pubkey).toOption.map format.writeUser

/-- Body of the loop of `verify_kv_proof`. -/
def verifyPubkey (kvApi localApi : String → Option String) (pubkey : String) :
    Except Panic Unit := do
  let kvProof ← okOr ((kvApi pubkey).bind format.read) .unwrapNone
  let localProof ← okOr ((localApi pubkey).bind format.read) .unwrapNone
  require (kvProof.amount = localProof.amount) .assertionFailed
  require (kvProof.merkleTree = localProof.merkleTree) .assertionFailed
  require (kvProof.proof = localProof.proof) .assertionFailed

/-- `verify_kv_proof`, with the indices that it draws. -/
def verifyKvProof (kvApi localApi : String → Option String) (csvEntries : List CsvEntry)
    (picks : List Nat) : Except Panic Unit :=
  picks.forM fun i => do
    let entry ← index csvEntries i
    verifyPubkey format kvApi localApi entry.pubkey

end

end MultiDistributor.Source

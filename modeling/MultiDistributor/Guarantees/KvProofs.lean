import MultiDistributor.Guarantees.TreeFiles
import MultiDistributor.Guarantees.TreeIndex
import MultiDistributor.Source.KvProofs

/-!
# The key-value store in place of the server

Whatever the number of proofs to a file, a store that holds the files answers every key as a
server that has loaded the same directory does, in whatever order that server's tasks
finished. All entries of the directory are taken to have the extension `.json`: the server
passes over the others, the command does not. The command that compares the two nevertheless
stops at a leaf without a locked amount: the store's answer has `null` there, and `UserProof`
wants a number.
-/
namespace MultiDistributor.Source
open Lib Lib.Checked Guarantees.Sharding

/-! ### What the store holds -/

/-- The proof of an indexed leaf. -/
def kvProofOf (text : PubkeyText) (leaf : Pubkey × TreeNode) : Option KvProof :=
  leaf.2.proof.map fun proof =>
    { merkleTree := text.toStr leaf.1
      amount := leaf.2.amount
      lockedAmount := leaf.2.lockedAmount
      proof }

/-- What a store with the leaves of the index answers. -/
def kvAnswer (text : PubkeyText) (tree : TreeIndex) (key : String) : Option KvProof :=
  ((text.fromStr key).bind tree).bind (kvProofOf text)

/-- The files so far answer as the index, and all that were written are full. -/
structure Filed (text : PubkeyText) (maxEntriesPerFile : UInt64) (tree : TreeIndex)
    (files : KvFiles) : Prop where
  answers : ∀ key,
    (files.proofs.get? key).or (uploaded files.written key) = kvAnswer text tree key
  full : ∀ file ∈ files.written, file.entries.length = max 1 maxEntriesPerFile.toNat
  room : files.proofs.entries.length < max 1 maxEntriesPerFile.toNat

/-- All files but the last are full, and the last one is not empty. -/
structure Portioned (maxEntriesPerFile : UInt64) (files : List (SortedMap String KvProof)) :
    Prop where
  bounds : ∀ file ∈ files,
    0 < file.entries.length ∧ file.entries.length ≤ max 1 maxEntriesPerFile.toNat
  full : ∀ file ∈ files.dropLast, file.entries.length = max 1 maxEntriesPerFile.toNat

theorem uploaded_concat (files : List (SortedMap String KvProof)) (file : SortedMap String KvProof)
    (key : String) : uploaded (files ++ [file]) key = (file.get? key).or (uploaded files key) := by
  rw [uploaded, List.foldl_append]
  rfl

section
variable {rt : Runtime} {format : TreeFormat} {mint : Pubkey} {text : PubkeyText}
  {maxEntriesPerFile : UInt64} {tree : TreeIndex} {files next : KvFiles}

theorem filed_empty : Filed text maxEntriesPerFile (fun _ => none) ⟨.empty, []⟩ where
  answers key := by
    rw [kvAnswer]
    cases text.fromStr key <;> rfl
  full := by simp
  room := by simp [SortedMap.empty]

/-- The leaf answers under the text of its claimant and under no other. -/
theorem kvAnswer_insertEntry {distributorPubkey : Pubkey} {node : TreeNode} {proof : List Hash}
    (given : node.proof = some proof) (key : String) :
    kvAnswer text (insertEntry tree (distributorPubkey, node)) key =
      if key = text.toStr node.claimant then
        some { merkleTree := text.toStr distributorPubkey, amount := node.amount,
               lockedAmount := node.lockedAmount, proof }
      else kvAnswer text tree key := by
  unfold kvAnswer
  by_cases same : key = text.toStr node.claimant
  · rw [if_pos same, same, text.fromStr_toStr]
    simp [insertEntry_eq, kvProofOf, given]
  · rw [if_neg same]
    cases parsed : text.fromStr key with
    | none => rfl
    | some claimant =>
      have other : claimant ≠ node.claimant := by
        intro equal
        subst equal
        exact same (text.fromStr_inj parsed (text.fromStr_toStr node.claimant))
      simp [insertEntry_eq, other]

theorem Filed.insertProof {distributorPubkey : Pubkey} {node : TreeNode}
    (filed : Filed text maxEntriesPerFile tree files)
    (success : insertProof text maxEntriesPerFile distributorPubkey files node = .ok next) :
    Filed text maxEntriesPerFile (insertEntry tree (distributorPubkey, node)) next := by
  simp only [Source.insertProof, bind_ok_iff, okOr_ok_iff] at success
  obtain ⟨proof, given, rest⟩ := success
  generalize inserted : files.proofs.insert (text.toStr node.claimant) _ = proofs at rest
  have answers : ∀ key, (proofs.get? key).or (uploaded files.written key) =
      kvAnswer text (insertEntry tree (distributorPubkey, node)) key := by
    intro key
    rw [kvAnswer_insertEntry given, ← filed.answers, ← inserted, SortedMap.get?_insert]
    split <;> rfl
  have sizes := files.proofs.length_insert (text.toStr node.claimant)
    ⟨text.toStr distributorPubkey, node.amount, node.lockedAmount, proof⟩
  rw [inserted] at sizes
  have room := filed.room
  -- a map that has become full is written and an empty one takes its place
  by_cases large : maxEntriesPerFile.toNat ≤ proofs.entries.length
  · rw [if_pos large, pure_ok_iff] at rest
    subst rest
    refine ⟨fun key => ?_, fun file member => ?_, Nat.lt_of_lt_of_le Nat.one_pos (le_max_left 1 _)⟩
    · rw [uploaded_concat, answers]
      rfl
    · rcases List.mem_append.mp member with earlier | last
      · exact filed.full file earlier
      · rw [List.mem_singleton.mp last]
        omega
  · rw [if_neg large, pure_ok_iff] at rest
    subst rest
    have small : proofs.entries.length < max 1 maxEntriesPerFile.toNat := by omega
    exact ⟨answers, filed.full, small⟩

theorem Filed.insertFile {file : DirEntry} (filed : Filed text maxEntriesPerFile tree files)
    (success : insertFile rt format mint text maxEntriesPerFile files file = .ok next) :
    ∃ merkleTree, file.tree format = some merkleTree ∧
      Filed text maxEntriesPerFile (insertTree rt mint tree merkleTree) next := by
  simp only [Source.insertFile, bind_ok_iff, okOr_ok_iff] at success
  obtain ⟨merkleTree, read, inserted⟩ := success
  refine ⟨merkleTree, read, ?_⟩
  let insertNode := fun (tree : TreeIndex) (node : TreeNode) =>
    insertEntry tree (rt.distributorAddress mint merkleTree.airdropVersion, node)
  have run := @foldlM_seen Panic TreeNode KvFiles _
    (fun seen files => Filed text maxEntriesPerFile (seen.foldl insertNode tree) files)
    (fun held step => by
      rw [List.foldl_append]
      exact held.insertProof step) [] _ _ _ filed inserted
  exact run

theorem readTrees_concat {front : List DirEntry} {file : DirEntry} {trees : List AirdropMerkleTree}
    {merkleTree : AirdropMerkleTree} (before : readTrees format front = .ok trees)
    (read : file.tree format = some merkleTree) :
    readTrees format (front ++ [file]) = .ok (trees ++ [merkleTree]) := by
  unfold readTrees at before ⊢
  rw [List.mapM_append, before, List.mapM_cons, read]
  rfl

theorem Filed.run {dir : List DirEntry}
    (success : dir.foldlM (Source.insertFile rt format mint text maxEntriesPerFile) ⟨.empty, []⟩ =
      .ok files) :
    ∃ trees, readTrees format dir = .ok trees ∧
      Filed text maxEntriesPerFile (loadTrees rt mint trees) files := by
  have run := @foldlM_seen Panic DirEntry KvFiles _
    (fun seen files => ∃ trees, readTrees format seen = .ok trees ∧
      Filed text maxEntriesPerFile (loadTrees rt mint trees) files)
    (fun held step => by
      obtain ⟨trees, before, filed⟩ := held
      obtain ⟨merkleTree, read, inserted⟩ := filed.insertFile step
      refine ⟨trees ++ [merkleTree], readTrees_concat before read, ?_⟩
      rw [loadTrees, List.foldl_append]
      exact inserted) [] _ _ _ ⟨[], rfl, filed_empty⟩ success
  exact run

/-- The files of the command, against the index of the trees in the order of their paths. -/
theorem processGenerateKvProof_files {dir : List DirEntry}
    {written : List (SortedMap String KvProof)}
    (generated : processGenerateKvProof rt format mint text maxEntriesPerFile dir = .ok written) :
    ∃ trees, readTrees format (sortedPaths dir) = .ok trees ∧
      (∀ key, uploaded written key = kvAnswer text (loadTrees rt mint trees) key) ∧
      Portioned maxEntriesPerFile written := by
  simp only [processGenerateKvProof, bind_ok_iff, pure_ok_iff] at generated
  obtain ⟨files, inserted, ended⟩ := generated
  obtain ⟨trees, read, filed⟩ := Filed.run inserted
  have full := filed.full
  have room := filed.room
  refine ⟨trees, read, ?_, ?_⟩
  · intro key
    rw [← filed.answers, ← ended]
    split
    · rw [uploaded_concat]
    · next none =>
      have empty : files.proofs.entries = [] := List.length_eq_zero_iff.mp (by omega)
      rw [SortedMap.get?, empty]
      rfl
  · rw [← ended]
    split
    · next some =>
      refine ⟨fun file member => ?_, fun file member => ?_⟩
      · rcases List.mem_append.mp member with earlier | last
        · have := full file earlier
          omega
        · rw [List.mem_singleton.mp last]
          omega
      · rw [List.dropLast_concat] at member
        exact full file member
    · refine ⟨fun file member => ?_, fun file member => full file (List.dropLast_subset _ member)⟩
      have := full file member
      omega

end

/-! ### The server -/

section
variable {rt : Runtime} {format : TreeFormat} {mint : Pubkey} {text : PubkeyText}

theorem foldl_insertEntry_iff {entries : List (Pubkey × TreeNode)}
    (distinct : (entries.map fun entry => entry.2.claimant).Nodup) {claimant : Pubkey}
    {entry : Pubkey × TreeNode} :
    entries.foldl insertEntry (fun _ => none) claimant = some entry ↔
      entry ∈ entries ∧ entry.2.claimant = claimant := by
  have sound : ∀ {found}, entries.foldl insertEntry (fun _ => none) claimant = some found →
      found ∈ entries ∧ found.2.claimant = claimant := by
    intro found indexed
    exact (foldl_insertEntry_some indexed).resolve_left (by simp)
  refine ⟨sound, fun inserted => ?_⟩
  have present : (entries.foldl insertEntry (fun _ => none) claimant).isSome :=
    foldl_insertEntry_isSome (.inr ⟨entry, inserted⟩)
  obtain ⟨found, indexed⟩ := Option.isSome_iff_exists.mp present
  have same : found = entry := List.inj_on_of_nodup_map distinct (sound indexed).1 inserted.1
    ((sound indexed).2.trans inserted.2.symm)
  rw [indexed, same]

/-- With distinct claimants the order of loading does not matter. -/
theorem loadTrees_perm {order trees : List AirdropMerkleTree} (same : order.Perm trees)
    (distinct : ((order.flatMap AirdropMerkleTree.treeNodes).map TreeNode.claimant).Nodup) :
    loadTrees rt mint order = loadTrees rt mint trees := by
  have inserted : (insertions rt mint order).Perm (insertions rt mint trees) :=
    same.flatMap_right _
  have names : (insertions rt mint order).map (fun entry => entry.2.claimant) =
      (order.flatMap AirdropMerkleTree.treeNodes).map TreeNode.claimant := by
    simp [insertions, List.map_flatMap, Function.comp_def]
  rw [← names] at distinct
  have reordered := (inserted.map fun entry => entry.2.claimant).nodup_iff.mp distinct
  funext claimant
  refine Option.ext fun entry => ?_
  rw [loadTrees_eq, loadTrees_eq, foldl_insertEntry_iff distinct,
    foldl_insertEntry_iff reordered, inserted.mem_iff]

/-- The command and the server read the same trees from a directory of JSON files. -/
theorem loadDirectory_perm {dir : List DirEntry} {trees : List AirdropMerkleTree}
    (named : ∀ entry ∈ dir, hasJsonExtension entry.fileName = true)
    (read : readTrees format (sortedPaths dir) = .ok trees) :
    trees.Perm (loadDirectory format dir) := by
  have sorted : (sortedPaths dir).Perm dir := List.mergeSort_perm dir _
  have loaded : ∀ {files : List DirEntry} {trees : List AirdropMerkleTree},
      (∀ entry ∈ files, hasJsonExtension entry.fileName = true) →
        readTrees format files = .ok trees → loadDirectory format files = trees := by
    intro files
    induction files with
    | nil =>
      intro trees _ read
      cases read
      rfl
    | cons file rest ih =>
      intro trees named read
      simp only [readTrees, List.mapM_cons, bind_ok_iff, okOr_ok_iff, pure_ok_iff] at read
      obtain ⟨tree, first, others, later, rfl⟩ := read
      have entry : loadEntry format file = some tree := by
        rw [loadEntry, if_pos (named file List.mem_cons_self), first]
      rw [loadDirectory, List.filterMap_cons_some entry]
      exact congrArg _ (ih (fun entry member => named entry (List.mem_cons_of_mem _ member)) later)
  rw [← loaded (fun entry member => named entry (sorted.mem_iff.mp member)) read]
  exact sorted.filterMap _

theorem getUserProof_ok_iff {tree : TreeIndex} {pubkey : String} {userProof : UserProof} :
    getUserProof text tree pubkey = .ok userProof ↔
      ∃ kvProof, kvAnswer text tree pubkey = some kvProof ∧ kvProof.toUserProof = userProof := by
  simp only [getUserProof, bind_ok_iff, okOr_ok_iff, pure_ok_iff, kvAnswer, kvProofOf,
    Option.bind_eq_some_iff, Option.map_eq_some_iff]
  constructor
  · intro served
    obtain ⟨claimant, parsed, leaf, indexed, proof, given, rfl⟩ := served
    exact ⟨_, ⟨leaf, ⟨claimant, parsed, indexed⟩, proof, given, rfl⟩, rfl⟩
  · intro stored
    obtain ⟨_, ⟨leaf, ⟨claimant, parsed, indexed⟩, proof, given, rfl⟩, rfl⟩ := stored
    exact ⟨claimant, parsed, leaf, indexed, proof, given, rfl⟩

end

/-! ### Comparing the two -/

/-- The store answers with what the files hold. -/
def Stores (format : ProofFormat) (files : List (SortedMap String KvProof))
    (kvApi : String → Option String) : Prop :=
  ∀ key, kvApi key = (uploaded files key).map format.writeKv

theorem verifyPubkey_ok_iff {format : ProofFormat} {text : PubkeyText} {tree : TreeIndex}
    {files : List (SortedMap String KvProof)} {kvApi : String → Option String}
    (stores : Stores format files kvApi)
    (agree : ∀ key, uploaded files key = kvAnswer text tree key) {pubkey : String} :
    verifyPubkey format kvApi (getUserInfo format text tree) pubkey = .ok () ↔
      ∃ kvProof, uploaded files pubkey = some kvProof ∧ kvProof.lockedAmount.isSome := by
  simp only [verifyPubkey, bind_ok_iff, okOr_ok_iff, require_ok_iff, stores pubkey, getUserInfo,
    Option.bind_map, Option.bind_eq_some_iff, Function.comp_apply, format.read_kv,
    format.read_user]
  constructor
  · intro success
    obtain ⟨_, ⟨kvProof, stored, read⟩, _⟩ := success
    refine ⟨kvProof, stored, ?_⟩
    by_contra missing
    simp [missing] at read
  · intro stored
    obtain ⟨kvProof, found, locked⟩ := stored
    have served : getUserProof text tree pubkey = .ok kvProof.toUserProof :=
      getUserProof_ok_iff.mpr ⟨kvProof, (agree pubkey).symm.trans found, rfl⟩
    refine ⟨kvProof.toUserProof, ⟨kvProof, found, if_pos locked⟩, kvProof.toUserProof,
      ⟨kvProof.toUserProof, by rw [served]; rfl, rfl⟩, (), rfl, (), rfl, rfl⟩

/-- A store with the files of a directory of `.json` entries answers every key as a server does
that has loaded the directory, up to the missing locked amounts that the server returns as
zero. The command that compares them goes through if and only if every row it picks has a proof
whose locked amount is not missing. -/
theorem kv_store_replaces_server {rt : Runtime} {format : TreeFormat} {mint : Pubkey}
    {text : PubkeyText} {maxEntriesPerFile : UInt64} {dir : List DirEntry}
    {files : List (SortedMap String KvProof)}
    (generated : processGenerateKvProof rt format mint text maxEntriesPerFile dir = .ok files)
    (named : ∀ entry ∈ dir, hasJsonExtension entry.fileName = true)
    {order : List AirdropMerkleTree} (loaded : order.Perm (loadDirectory format dir))
    (distinct : ((order.flatMap AirdropMerkleTree.treeNodes).map TreeNode.claimant).Nodup)
    {answers : ProofFormat} {kvApi : String → Option String}
    (stores : Stores answers files kvApi) :
    let tree := loadTrees rt mint order
    Portioned maxEntriesPerFile files ∧
      (∀ pubkey userProof, getUserProof text tree pubkey = .ok userProof ↔
        ∃ kvProof, uploaded files pubkey = some kvProof ∧ kvProof.toUserProof = userProof) ∧
      ∀ csvEntries picks,
        verifyKvProof answers kvApi (getUserInfo answers text tree) csvEntries picks = .ok () ↔
          ∀ i ∈ picks, ∃ entry kvProof, csvEntries[i]? = some entry ∧
            uploaded files entry.pubkey = some kvProof ∧ kvProof.lockedAmount.isSome := by
  obtain ⟨trees, read, agree, portioned⟩ := processGenerateKvProof_files generated
  have same : order.Perm trees := loaded.trans (loadDirectory_perm named read).symm
  rw [← loadTrees_perm same distinct] at agree
  refine ⟨portioned, fun pubkey userProof => ?_, fun csvEntries picks => ?_⟩
  · rw [getUserProof_ok_iff, agree]
  · rw [verifyKvProof, forM_ok_iff]
    refine forall₂_congr fun i _ => ?_
    simp only [bind_ok_iff, index, okOr_ok_iff, verifyPubkey_ok_iff stores agree]
    constructor
    · intro verified
      obtain ⟨entry, listed, kvProof, stored⟩ := verified
      exact ⟨entry, kvProof, listed, stored⟩
    · intro stored
      obtain ⟨entry, kvProof, listed, stored⟩ := stored
      exact ⟨entry, listed, kvProof, stored⟩

namespace Sample
open Encodable Guarantees.Sharding.SampleCsv

/-- A tree of two leaves, of which the second has no locked amount. -/
def kvTree : AirdropMerkleTree where
  merkleRoot := .filled 7
  airdropVersion := 0
  maxNumNodes := 2
  maxTotalClaim := 12
  treeNodes := [⟨alice, 3, some 5, some []⟩, ⟨bob, 4, none, some []⟩]

def kvDir (format : TreeFormat) : List DirEntry :=
  [⟨treeFileName 0, some (kvTree.writeToFile format)⟩]

def kvRows : List CsvEntry := [⟨latinText.toStr alice, 3, some 5⟩, ⟨latinText.toStr bob, 4, none⟩]

def aliceProof : KvProof := ⟨latinText.toStr pda, 3, some 5, []⟩

def bobProof : KvProof := ⟨latinText.toStr pda, 4, none, []⟩

/-- One proof to a file. -/
def kvFiles : List (SortedMap String KvProof) :=
  [SortedMap.empty.insert (latinText.toStr alice) aliceProof,
   SortedMap.empty.insert (latinText.toStr bob) bobProof]

/-- The fields of a proof as one number. -/
def proofText (kvProof : KvProof) : String :=
  toString (encode (kvProof.merkleTree.toList.map Char.toNat, kvProof.amount,
    kvProof.lockedAmount, kvProof.proof))

def readProof (contents : String) : Option KvProof :=
  (decode (α := List Nat × UInt64 × Option UInt64 × List Hash)
    (Nat.ofDigitChars 10 contents.toList 0)).map fun fields =>
      ⟨String.ofList (fields.1.map Char.ofNat), fields.2.1, fields.2.2.1, fields.2.2.2⟩

theorem readProof_proofText (kvProof : KvProof) : readProof (proofText kvProof) = some kvProof := by
  rw [readProof, proofText, ofDigitChars_toString, encodek]
  simp [Function.comp_def]

/-- A format in which the server writes what the store would write. -/
theorem exists_proofFormat : Nonempty ProofFormat :=
  ⟨{ writeKv := proofText
     writeUser := fun userProof => proofText
       ⟨userProof.merkleTree, userProof.amount, some userProof.lockedAmount, userProof.proof⟩
     read := fun contents => (readProof contents).bind fun kvProof =>
       if kvProof.lockedAmount.isSome then some kvProof.toUserProof else none
     read_user := fun userProof => by
       rw [readProof_proofText]
       rfl
     read_kv := fun kvProof => by
       rw [readProof_proofText]
       rfl }⟩

section
variable (format : TreeFormat)

theorem kv_generated :
    processGenerateKvProof rt format mint latinText 1 (kvDir format) = .ok kvFiles := by
  have single : ∀ file : DirEntry, sortedPaths [file] = [file] := List.mergeSort_singleton
  rw [processGenerateKvProof, kvDir, single, List.foldlM_cons, insertFile, DirEntry.tree,
    Option.bind_some, newFromFile_writeToFile]
  rfl

theorem kv_loaded : loadDirectory format (kvDir format) = [kvTree] := by
  have read : loadEntry format ⟨treeFileName 0, some (kvTree.writeToFile format)⟩ =
      some kvTree := loadEntry_written format kvTree
  rw [loadDirectory, kvDir, List.filterMap_cons_some read, List.filterMap_nil]

end

theorem uploaded_kvFiles :
    uploaded kvFiles (latinText.toStr alice) = some aliceProof ∧
      uploaded kvFiles (latinText.toStr bob) = some bobProof := by
  have other : latinText.toStr alice ≠ latinText.toStr bob := by
    intro same
    have parsed := latinText.fromStr_toStr alice
    rw [same, latinText.fromStr_toStr] at parsed
    exact absurd (Option.some.inj parsed) (by decide)
  simp [uploaded, kvFiles, SortedMap.get?_insert, SortedMap.get?_empty, other]

/-- The store with those files. -/
def kvStore (answers : ProofFormat) (pubkey : String) : Option String :=
  (uploaded kvFiles pubkey).map answers.writeKv

end Sample

open Sample Guarantees.Sharding.SampleCsv in
/-- The row with a locked amount passes the comparison, the other stops it. -/
theorem kv_store_replaces_server_sample :
    ∃ format answers,
      processGenerateKvProof rt format mint latinText 1 (kvDir format) = .ok kvFiles ∧
      let served := getUserInfo answers latinText (loadTrees rt mint [kvTree])
      verifyKvProof answers (kvStore answers) served kvRows [0] = .ok () ∧
        verifyKvProof answers (kvStore answers) served kvRows [0, 1] ≠ .ok () := by
  obtain ⟨format⟩ := exists_format
  obtain ⟨answers⟩ := exists_proofFormat
  have stores : Stores answers kvFiles (kvStore answers) := fun _ => rfl
  obtain ⟨_, _, verified⟩ := kv_store_replaces_server (kv_generated format)
    (by simp [kvDir, hasJsonExtension_treeFileName])
    (show [kvTree].Perm (loadDirectory format (kvDir format)) by rw [kv_loaded])
    (show (([kvTree].flatMap AirdropMerkleTree.treeNodes).map TreeNode.claimant).Nodup by decide)
    stores
  refine ⟨format, answers, kv_generated format, (verified kvRows [0]).mpr ?_, fun passed => ?_⟩
  · intro i picked
    rw [List.mem_singleton.mp picked]
    exact ⟨_, aliceProof, rfl, uploaded_kvFiles.1, rfl⟩
  · obtain ⟨entry, kvProof, listed, stored, locked⟩ :=
      (verified kvRows [0, 1]).mp passed 1 (by simp)
    cases listed
    cases uploaded_kvFiles.2.symm.trans stored
    cases locked

end MultiDistributor.Source

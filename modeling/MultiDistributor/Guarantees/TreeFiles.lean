import MultiDistributor.Source.TreeFile

/-!
# Tree files read back

A tree file is the only thing that passes from the command that builds the trees to the
commands that deploy, fund and verify them and to the server that hands out the proofs. A
server finds every tree of a command in the directory the command has written, whatever the
text format.
-/
namespace MultiDistributor.Source
open Lib.ByteString Lib.Checked

/-! ### Directories -/

theorem treeFileName_toList (version : UInt64) :
    (treeFileName version).toList =
      "tree_".toList ++ (Nat.toDigits 10 version.toNat ++ ".json".toList) := by
  simp [treeFileName, String.toList_append]

theorem treeFileName_inj {first second : UInt64}
    (same : treeFileName first = treeFileName second) : first = second := by
  have digits : Nat.toDigits 10 first.toNat = Nat.toDigits 10 second.toNat := by
    have lists := congrArg String.toList same
    rw [treeFileName_toList, treeFileName_toList] at lists
    exact List.append_cancel_right (List.append_cancel_left lists)
  rw [← UInt64.toNat_inj, ← @Nat.ofDigitChars_ten_toDigits first.toNat, digits,
    Nat.ofDigitChars_ten_toDigits]

theorem hasJsonExtension_treeFileName (version : UInt64) :
    hasJsonExtension (treeFileName version) = true := by
  rw [hasJsonExtension, Bool.and_eq_true, List.isSuffixOf_iff_suffix, decide_eq_true_eq,
    treeFileName_toList]
  refine ⟨⟨"tree_".toList ++ Nat.toDigits 10 version.toNat, List.append_assoc _ _ _⟩, ?_⟩
  have five : ("tree_".toList).length = 5 ∧ (".json".toList).length = 5 := by decide
  rw [List.length_append, List.length_append, five.1, five.2]
  omega

/-- The entries of a directory that the trees do not replace. -/
def untouched (dir : List DirEntry) (trees : List AirdropMerkleTree) : List DirEntry :=
  dir.filter fun entry => entry.fileName ∉ trees.map fun tree => treeFileName tree.airdropVersion

section
variable (format : TreeFormat)

theorem newFromFile_writeToFile (tree : AirdropMerkleTree) :
    AirdropMerkleTree.newFromFile format (tree.writeToFile format) = some tree :=
  format.read_write tree

theorem loadEntry_written (tree : AirdropMerkleTree) :
    loadEntry format ⟨treeFileName tree.airdropVersion, some (tree.writeToFile format)⟩ =
      some tree := by
  simp [loadEntry, DirEntry.tree, hasJsonExtension_treeFileName, newFromFile_writeToFile]

/-- A server finds the trees of the command in the directory, and what else reads there. -/
theorem loadDirectory_writeTrees {dir after : List DirEntry} {trees : List AirdropMerkleTree}
    (versions : (trees.map AirdropMerkleTree.airdropVersion).Nodup)
    (written : writeTrees format dir trees = .ok after) :
    (loadDirectory format after).Perm
      (trees ++ loadDirectory format (untouched dir trees)) := by
  induction trees generalizing dir with
  | nil =>
    cases written
    simp [untouched]
  | cons tree trees ih =>
    rw [List.map_cons, List.nodup_cons] at versions
    simp only [writeTrees, List.foldlM_cons, bind_ok_iff] at written
    obtain ⟨next, first, later⟩ := written
    simp only [writeTree, bind_ok_iff, require_ok_iff, pure_ok_iff] at first
    obtain ⟨_, _, rfl⟩ := first
    have kept : treeFileName tree.airdropVersion ∉
        trees.map fun tree => treeFileName tree.airdropVersion := by
      intro named
      obtain ⟨other, listed, same⟩ := List.mem_map.mp named
      exact versions.1 (treeFileName_inj same ▸ List.mem_map_of_mem listed)
    have rest : untouched (⟨treeFileName tree.airdropVersion, some (tree.writeToFile format)⟩ ::
        dir.filter fun entry => entry.fileName ≠ treeFileName tree.airdropVersion) trees =
        ⟨treeFileName tree.airdropVersion, some (tree.writeToFile format)⟩ ::
          untouched dir (tree :: trees) := by
      rw [untouched, List.filter_cons_of_pos (by simpa using kept), List.filter_filter, untouched]
      congr 2
      funext entry
      simp [Bool.and_comm]
    have loaded := ih versions.2 later
    rw [rest, loadDirectory, loadDirectory,
      List.filterMap_cons_some (loadEntry_written format tree)]
      at loaded
    exact loaded.trans List.perm_middle

end

namespace Sample
open Encodable

instance encodableU64 : Encodable UInt64 :=
  .ofLeftInverse UInt64.toNat UInt64.ofNat fun _ => UInt64.ofNat_toNat

instance encodableBytes32 : Encodable Bytes32 :=
  .ofLeftInjection (fun key => key.bytes.map UInt8.toNat)
    (fun numbers =>
      if length_eq : numbers.length = 32 then some ⟨numbers.map UInt8.ofNat, by simpa⟩ else none)
    fun key => by simp [key.length_eq, Function.comp_def]

instance encodableNode : Encodable TreeNode :=
  .ofLeftInverse (fun node => (node.claimant, node.amount, node.lockedAmount, node.proof))
    (fun fields => ⟨fields.1, fields.2.1, fields.2.2.1, fields.2.2.2⟩) fun _ => rfl

instance encodableTree : Encodable AirdropMerkleTree :=
  .ofLeftInverse
    (fun tree => (tree.merkleRoot, tree.airdropVersion, tree.maxNumNodes, tree.maxTotalClaim,
      tree.treeNodes))
    (fun fields => ⟨fields.1, fields.2.1, fields.2.2.1, fields.2.2.2.1, fields.2.2.2.2⟩)
    fun _ => rfl

theorem ofDigitChars_toString (n : Nat) : Nat.ofDigitChars 10 (toString n).toList 0 = n := by
  have digits : (toString n).toList = Nat.toDigits 10 n := Nat.toList_repr
  rw [digits, Nat.ofDigitChars_ten_toDigits]

/-- A format that writes a tree as one number. -/
def numberFormat : TreeFormat where
  write tree := toString (encode tree)
  read contents := decode (Nat.ofDigitChars 10 contents.toList 0)
  read_write tree := by rw [ofDigitChars_toString, encodek]

/-- The samples are about some format, so that no file of theirs is evaluated. -/
theorem exists_format : Nonempty TreeFormat := ⟨numberFormat⟩

end Sample

end MultiDistributor.Source

import MultiDistributor.Source.Api
import MultiDistributor.Source.CreateMerkleTree

/-!
# Tree files

`write_to_file` and `new_from_file` of `merkle-tree/src/airdrop_merkle_tree.rs`, the files
that `process_create_merkle_tree` leaves behind, and how `api/src/main.rs` and the commands of
the CLI read a directory of them.

The two functions hand the tree to `serde_json` with derived serializers. Its text format is
not modelled: it is a parameter, of which only the round trip is taken for granted.
-/
namespace MultiDistributor.Source
open Lib.Checked

/-- The text format of tree files. Reading has no tree for `Err`. -/
structure TreeFormat where
  write : AirdropMerkleTree → String
  read : String → Option AirdropMerkleTree
  read_write : ∀ tree, read (write tree) = some tree

section
variable (format : TreeFormat)

/-- The text `write_to_file` writes. -/
def AirdropMerkleTree.writeToFile (tree : AirdropMerkleTree) : String := format.write tree

/-- `new_from_file` on the text of a file. -/
def AirdropMerkleTree.newFromFile (contents : String) : Option AirdropMerkleTree :=
  format.read contents

/-! ### Directories -/

/-- An entry of a directory; a subdirectory has no contents to read. -/
structure DirEntry where
  fileName : String
  contents : Option String

def treeFileName (airdropVersion : UInt64) : String :=
  "tree_" ++ toString airdropVersion.toNat ++ ".json"

/-- `write_to_file` to the path of the tree, over what is there. A subdirectory of that
name makes `File::create` fail. -/
def writeTree (dir : List DirEntry) (tree : AirdropMerkleTree) : Except Panic (List DirEntry) := do
  let fileName := treeFileName tree.airdropVersion
  require (∀ entry ∈ dir, entry.fileName = fileName → entry.contents.isSome) .expectFailed
  return { fileName, contents := some (tree.writeToFile format) } ::
    dir.filter fun entry => entry.fileName ≠ fileName

/-- The directory after the command has written its trees. -/
def writeTrees (dir : List DirEntry) (trees : List AirdropMerkleTree) :
    Except Panic (List DirEntry) :=
  trees.foldlM (writeTree format) dir

/-- `extension == "json"`: a name with nothing before its only dot has no extension. -/
def hasJsonExtension (fileName : String) : Bool :=
  ".json".toList.isSuffixOf fileName.toList && fileName.toList.length > 5

/-- The tree of a file, none if the entry is no file or `new_from_file` fails on it. -/
def DirEntry.tree (entry : DirEntry) : Option AirdropMerkleTree :=
  entry.contents.bind (AirdropMerkleTree.newFromFile format)

/-- A loading task of the server: what is no JSON file or does not read is passed over. -/
def loadEntry (entry : DirEntry) : Option AirdropMerkleTree :=
  if hasJsonExtension entry.fileName then entry.tree format else none

/-- The trees the server inserts; the tasks finish in an arbitrary order. -/
def loadDirectory (dir : List DirEntry) : List AirdropMerkleTree :=
  dir.filterMap (loadEntry format)

/-- The commands read every entry and panic on one that does not read. -/
def readTrees (dir : List DirEntry) : Except Panic (List AirdropMerkleTree) :=
  dir.mapM fun entry => okOr (entry.tree format) .expectFailed

end

end MultiDistributor.Source

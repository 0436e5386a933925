import MultiDistributor.Lib.ByteString

/-!
Hash inputs shared by `merkle-tree/src/merkle_tree.rs`, `verify/src/lib.rs` and
`programs/merkle-distributor/src/instructions/new_claim.rs`. SHA-256 itself is a
parameter `H` from byte strings to 32-byte strings: `hashv` hashes the
concatenation of its slices.
-/
namespace MultiDistributor.Source
open Lib.ByteString

abbrev Hash := Bytes32
abbrev Pubkey := Bytes32

/-- `solana_program::hash::Hasher`, one digest for every byte string. -/
abbrev HashFunction := Bytes → Hash

/-- Ways in which the off-chain and on-chain Rust code aborts. `outOfFuel` is not a
Rust panic: it marks a loop model that was given too few iterations. -/
inductive Panic where
  | indexOutOfBounds | assertionFailed | expectFailed | unwrapNone | explicit
  | arithmeticOverflow | outOfFuel
  deriving DecidableEq, Repr

def leafPrefix : Bytes := [0]
def intermediatePrefix : Bytes := [1]

def hashv (H : HashFunction) (vals : List Bytes) : Hash := H vals.flatten

/-- Byte strings under the two macros, kept apart so that collisions can name them. -/
def leafString (item : Bytes) : Bytes := [leafPrefix, item].flatten

def intermediateString (lsib rsib : Hash) : Bytes :=
  [intermediatePrefix, lsib.bytes, rsib.bytes].flatten

/-- `hash_leaf!`. -/
def hashLeaf (H : HashFunction) (item : Bytes) : Hash := hashv H [leafPrefix, item]

/-- `hash_intermediate!`. -/
def hashIntermediate (H : HashFunction) (lsib rsib : Hash) : Hash :=
  hashv H [intermediatePrefix, lsib.bytes, rsib.bytes]

theorem hashLeaf_eq (H : HashFunction) (item : Bytes) :
    hashLeaf H item = H (leafString item) := rfl

theorem leafString_inj {a b : Bytes} (same : leafString a = leafString b) : a = b := by
  simpa [leafString] using same

/-- The one-byte prefixes separate leaves from inner nodes at any item length. -/
theorem leafString_ne_intermediateString (item : Bytes) (lsib rsib : Hash) :
    leafString item ≠ intermediateString lsib rsib := by
  simp [leafString, intermediateString, leafPrefix, intermediatePrefix]

theorem intermediateString_inj {a b c d : Hash}
    (same : intermediateString a b = intermediateString c d) : a = c ∧ b = d := by
  simp only [intermediateString, List.flatten_cons, List.flatten_nil, List.append_nil,
    List.append_cancel_left_eq] at same
  obtain ⟨left, right⟩ := append_fixed_inj (a.length_eq.trans c.length_eq.symm) same
  exact ⟨Bytes32.ext_bytes left, Bytes32.ext_bytes right⟩

/-- The claim as hashed by the builder and, independently, by `new_claim`. -/
def claimString (claimant : Pubkey) (amountUnlocked amountLocked : UInt64) : Bytes :=
  [claimant.bytes, toLeBytes amountUnlocked, toLeBytes amountLocked].flatten

theorem claimString_inj {c d : Pubkey} {u v l m : UInt64}
    (same : claimString c u l = claimString d v m) : c = d ∧ u = v ∧ l = m := by
  simp only [claimString, List.flatten_cons, List.flatten_nil, List.append_nil] at same
  obtain ⟨key, rest⟩ := append_fixed_inj (c.length_eq.trans d.length_eq.symm) same
  obtain ⟨unlocked, locked⟩ := append_fixed_inj (by simp) rest
  exact ⟨Bytes32.ext_bytes key, toLeBytes_inj unlocked, toLeBytes_inj locked⟩

/-- The two hashes of `new_claim` before it calls the verifier. -/
def claimLeaf (H : HashFunction) (claimant : Pubkey) (amountUnlocked amountLocked : UInt64) :
    Hash :=
  hashLeaf H (hashv H
    [claimant.bytes, toLeBytes amountUnlocked, toLeBytes amountLocked]).bytes

/-- Two distinct strings of the list with one digest. -/
def CollisionIn (H : HashFunction) (hashed : List Bytes) : Prop :=
  ∃ x ∈ hashed, ∃ y ∈ hashed, x ≠ y ∧ H x = H y

instance (H : HashFunction) (hashed : List Bytes) : Decidable (CollisionIn H hashed) :=
  inferInstanceAs (Decidable (∃ x ∈ hashed, ∃ y ∈ hashed, x ≠ y ∧ H x = H y))

theorem CollisionIn.mono {H : HashFunction} {fewer more : List Bytes}
    (collision : CollisionIn H fewer) (subset : ∀ x ∈ fewer, x ∈ more) : CollisionIn H more := by
  obtain ⟨x, hx, y, hy, distinct, same⟩ := collision
  exact ⟨x, subset x hx, y, subset y hy, distinct, same⟩

theorem eq_or_collision {H : HashFunction} {hashed : List Bytes} {x y : Bytes}
    (hx : x ∈ hashed) (hy : y ∈ hashed) (same : H x = H y) : x = y ∨ CollisionIn H hashed := by
  by_cases equal : x = y
  · exact Or.inl equal
  · exact Or.inr ⟨x, hx, y, hy, equal, same⟩

end MultiDistributor.Source

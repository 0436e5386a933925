import MultiDistributor.Lib.FixedLayout
import MultiDistributor.Source.World

/-!
# Accounts as bytes

The bytes Anchor stores for the two account types of `state/`: an eight-byte
discriminator, then the Borsh encoding of the fields in declaration order, then the zeros
the account was created with. The discriminator is the start of the digest of
`account:<name>`. The byte filters of `process_close_claim_status.rs` and of
`Cache::subscribe` in `api/src/cache.rs` are applied by the RPC node to those bytes.

`size_of` rounds the 97 bytes of a claim status up to the alignment of its words.
-/
namespace MultiDistributor.Source
open Lib Lib.ByteString Lib.Checked

/-- `DISCRIMINATOR` of an account type. -/
def accountDiscriminator (H : HashFunction) (name : String) : Bytes :=
  (H (("account:" ++ name).toList.map fun c => UInt8.ofNat c.toNat)).bytes.take 8

theorem accountDiscriminator_length (H : HashFunction) (name : String) :
    (accountDiscriminator H name).length = 8 := by
  rw [accountDiscriminator, List.length_take, Bytes32.length_eq]
  rfl

/-! ### Borsh -/

/-- Fields of `ClaimStatus` in declaration order. -/
def claimStatusLayout : FixedLayout ClaimStatus :=
  (FixedLayout.array32.pair (FixedLayout.word.pair (FixedLayout.word.pair (FixedLayout.word.pair
    (FixedLayout.word.pair (FixedLayout.bool.pair FixedLayout.array32)))))).via
    (fun fields =>
      { claimant := fields.1
        lockedAmount := fields.2.1
        lockedAmountWithdrawn := fields.2.2.1
        unlockedAmount := fields.2.2.2.1
        unlockedAmountClaimed := fields.2.2.2.2.1
        closable := fields.2.2.2.2.2.1
        distributor := fields.2.2.2.2.2.2 })
    (fun status => (status.claimant, status.lockedAmount, status.lockedAmountWithdrawn,
      status.unlockedAmount, status.unlockedAmountClaimed, status.closable, status.distributor))
    (fun _ => rfl) (fun _ => rfl)

/-- The three buffers at the end of a distributor, which nothing reads. -/
abbrev Buffers := Bytes32 × Bytes32 × Bytes32

/-- Fields of `MerkleDistributor` in declaration order. -/
def merkleDistributorLayout : FixedLayout (MerkleDistributor × Buffers) :=
  (FixedLayout.byte.pair (FixedLayout.word.pair (FixedLayout.array32.pair
    (FixedLayout.array32.pair (FixedLayout.array32.pair (FixedLayout.word.pair
    (FixedLayout.word.pair (FixedLayout.word.pair (FixedLayout.word.pair (FixedLayout.word.pair
    (FixedLayout.signedWord.pair (FixedLayout.signedWord.pair (FixedLayout.signedWord.pair
    (FixedLayout.array32.pair (FixedLayout.array32.pair (FixedLayout.bool.pair
    (FixedLayout.word.pair (FixedLayout.bool.pair (FixedLayout.array32.pair
    (FixedLayout.array32.pair FixedLayout.array32)))))))))))))))))))).via
    (fun (bump, version, root, mint, tokenVault, maxTotalClaim, maxNumNodes, totalAmountClaimed,
        totalAmountForgone, numNodesClaimed, startTs, endTs, clawbackStartTs, clawbackReceiver,
        admin, clawedBack, enableSlot, closable, buffers) =>
      ({ bump, version, root, mint, tokenVault, maxTotalClaim, maxNumNodes, totalAmountClaimed,
         totalAmountForgone, numNodesClaimed, startTs, endTs, clawbackStartTs, clawbackReceiver,
         admin, clawedBack, enableSlot, closable }, buffers))
    (fun (self, buffers) => (self.bump, self.version, self.root, self.mint, self.tokenVault,
      self.maxTotalClaim, self.maxNumNodes, self.totalAmountClaimed, self.totalAmountForgone,
      self.numNodesClaimed, self.startTs, self.endTs, self.clawbackStartTs,
      self.clawbackReceiver, self.admin, self.clawedBack, self.enableSlot, self.closable, buffers))
    (fun _ => rfl) (fun _ => rfl)

/-! ### Account data -/

/-- `ClaimStatus::LEN`. -/
def ClaimStatus.len : Nat := 8 + 104

/-- Data of a claim status account. -/
def ClaimStatus.accountData (H : HashFunction) (self : ClaimStatus) : Bytes :=
  accountDiscriminator H "ClaimStatus" ++ (claimStatusLayout.encode self ++
    List.replicate (ClaimStatus.len - 8 - claimStatusLayout.width) 0)

inductive DeserializeError where
  | accountDiscriminatorNotFound | accountDiscriminatorMismatch | accountDidNotDeserialize
  deriving DecidableEq, Repr

/-- `try_deserialize` of an `#[account]` type. Bytes after the last field are ignored. -/
def tryDeserialize {α : Type} (H : HashFunction) (name : String) (layout : FixedLayout α)
    (data : Bytes) : Except DeserializeError α := do
  require (8 ≤ data.length) .accountDiscriminatorNotFound
  require (data.take 8 = accountDiscriminator H name) .accountDiscriminatorMismatch
  let (value, _) ← okOr (layout.decode (data.drop 8)) .accountDidNotDeserialize
  return value

/-- `MerkleDistributor::try_deserialize`. -/
def MerkleDistributor.tryDeserialize (H : HashFunction) (data : Bytes) :
    Except DeserializeError MerkleDistributor :=
  (Source.tryDeserialize H "MerkleDistributor" merkleDistributorLayout data).map Prod.fst

/-- What deserializes is a discriminator, the encoding of the value, and anything. -/
theorem tryDeserialize_ok_iff {α : Type} {H : HashFunction} {name : String}
    {layout : FixedLayout α} {data : Bytes} {value : α} :
    tryDeserialize H name layout data = .ok value ↔
      ∃ rest, data = accountDiscriminator H name ++ (layout.encode value ++ rest) := by
  have size := accountDiscriminator_length H name
  simp only [tryDeserialize, bind_ok_iff, require_ok_iff, okOr_ok_iff, pure_ok_iff]
  constructor
  · intro success
    obtain ⟨_, _, _, front, ⟨read, rest⟩, decoded, same⟩ := success
    cases same
    refine ⟨rest, ?_⟩
    rw [← layout.decode_eq_some_iff.mp decoded, ← front, List.take_append_drop]
  · intro written
    obtain ⟨rest, shape⟩ := written
    refine ⟨(), ?_, (), ?_, (value, rest), ?_, rfl⟩
    · rw [shape, List.length_append]
      omega
    · rw [shape, List.take_left' size]
    · rw [shape, List.drop_left' size, layout.decode_encode]

theorem MerkleDistributor.tryDeserialize_ok_iff {H : HashFunction} {data : Bytes}
    {distributor : MerkleDistributor} :
    MerkleDistributor.tryDeserialize H data = .ok distributor ↔
      ∃ buffers rest, data = accountDiscriminator H "MerkleDistributor" ++
        (merkleDistributorLayout.encode (distributor, buffers) ++ rest) := by
  rw [MerkleDistributor.tryDeserialize]
  constructor
  · intro success
    cases outcome : Source.tryDeserialize H "MerkleDistributor" merkleDistributorLayout data with
    | error e =>
      rw [outcome] at success
      cases success
    | ok found =>
      rw [outcome] at success
      cases success
      obtain ⟨rest, shape⟩ := Source.tryDeserialize_ok_iff.mp outcome
      exact ⟨found.2, rest, shape⟩
  · intro ⟨buffers, rest, shape⟩
    rw [Source.tryDeserialize_ok_iff.mpr ⟨rest, shape⟩]
    rfl

/-! ### Filters of the RPC node -/

inductive RpcFilterType where
  | dataSize (size : Nat)
  | memcmp (offset : Nat) (bytes : Bytes)
  deriving DecidableEq, Repr

def RpcFilterType.allows (data : Bytes) : RpcFilterType → Bool
  | .dataSize size => data.length = size
  | .memcmp offset bytes =>
      offset ≤ data.length ∧ bytes.length ≤ (data.drop offset).length ∧
        (data.drop offset).take bytes.length = bytes

/-- An account is returned when every filter allows it. -/
def selected (filters : List RpcFilterType) (data : Bytes) : Bool :=
  filters.all (RpcFilterType.allows data)

/-- The filters of `Cache::subscribe` for one distributor. -/
def subscribeFilters (H : HashFunction) (distributor : Pubkey) : List RpcFilterType :=
  [.memcmp 0 (accountDiscriminator H "ClaimStatus"), .memcmp 73 distributor.bytes]

/-- The filters of `view_claim_status`. -/
def viewClaimStatusFilters : List RpcFilterType :=
  [.dataSize ClaimStatus.len, .memcmp (8 + 32 + 8 + 8 + 8) [1]]

/-- The filters of `process_close_claim_status`. -/
def processCloseClaimStatusFilters : List RpcFilterType :=
  [.dataSize ClaimStatus.len, .memcmp (8 + 32 + 8 + 8 + 8) [1]]

end MultiDistributor.Source

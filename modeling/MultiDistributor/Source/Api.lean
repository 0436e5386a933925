import MultiDistributor.Source.CsvEntries
import MultiDistributor.Source.World

/-!
# The reference API server

`api/src/main.rs` for the loading of the trees, `start_cache_updater` of
`api/src/cache.rs`, and `get_user_proof`, the two calculators and `get_eligibility` of
`api/src/router.rs`. The hash maps are functions. A loading task holds the lock of the
distributor list until it has inserted all its nodes, so the trees are inserted one
after the other, in an arbitrary order. Routing, logging and the subscriptions that
feed the updater are left out; the clock is an argument.

The arithmetic written with plain operators panics on overflow, as the release profile
keeps overflow checks on.
-/
namespace MultiDistributor.Source
open Lib.Checked

/-! ### Loading the trees -/

/-- `RouterState::tree`, from claimant to distributor and node. -/
abbrev TreeIndex := Pubkey → Option (Pubkey × TreeNode)

/-- The insertions of one loading task. -/
def insertTree (rt : Runtime) (mint : Pubkey) (tree : TreeIndex) (singleTree : AirdropMerkleTree) :
    TreeIndex :=
  let distributorPubkey := rt.distributorAddress mint singleTree.airdropVersion
  singleTree.treeNodes.foldl
    (fun tree node => Function.update tree node.claimant (some (distributorPubkey, node))) tree

def loadTrees (rt : Runtime) (mint : Pubkey) (order : List AirdropMerkleTree) : TreeIndex :=
  order.foldl (insertTree rt mint) fun _ => none

/-! ### The claim-status cache -/

structure DataAndSlot (α : Type) where
  data : α
  slot : UInt64
  deriving DecidableEq, Repr

abbrev ClaimStatusCache := String → Option (DataAndSlot ClaimStatus)

/-- One message of `start_cache_updater`. Polling sends slot 0. -/
def receiveUpdate (text : PubkeyText) (cache : ClaimStatusCache)
    (update : DataAndSlot ClaimStatus) : ClaimStatusCache :=
  let key := text.toStr update.data.claimant
  match cache key with
  | some entry =>
      if entry.data = update.data then cache
      else if entry.slot ≤ update.slot ∨ (update.slot = 0 ∧ entry.data ≠ update.data) then
        Function.update cache key (some update)
      else cache
  | none => Function.update cache key (some update)

/-- The updater loop after a list of messages. -/
def receiveUpdates (text : PubkeyText) (cache : ClaimStatusCache)
    (updates : List (DataAndSlot ClaimStatus)) : ClaimStatusCache :=
  updates.foldl (receiveUpdate text) cache

structure Cache where
  claimStatusCache : ClaimStatusCache
  distributorCache : String → Option MerkleDistributor
  unvestedUsers : Option (String → Option U128)
  defaultStartTs : Int64
  defaultEndTs : Int64
  defaultMint : String

def Cache.getUnvestedAmount (cache : Cache) (userPubkey : String) : U128 :=
  match cache.unvestedUsers with
  | some users => (users userPubkey).getD 0
  | none => 0

/-! ### What a new user could claim -/

def startAmountPctPrecision : U128 := 1000
def startAmountPctDenom : U128 := 100 * startAmountPctPrecision

/-- A result, or the overflow panic of a plain operator. -/
def orOverflow {α : Type} (result : Option α) : Except Panic α := okOr result .arithmeticOverflow

def calculateClaimableAmountForNewUser (unlockedAmount : UInt64) (currTs startTs endTs : Int64)
    (startAmountPct : U128) : Except Panic UInt64 :=
  if currTs < startTs then .ok 0
  else if endTs ≤ currTs then .ok unlockedAmount
  else do
    let timeIntoUnlock ← orOverflow (checkedSubI64 currTs startTs)
    let totalUnlockTime ← orOverflow (checkedSubI64 endTs startTs)
    if i64AsU128 totalUnlockTime = 0 then return unlockedAmount
    let startAmountPctNum ← orOverflow (startAmountPct.checkedMul startAmountPctPrecision)
    let scaled ← orOverflow ((u64AsU128 unlockedAmount).checkedMul startAmountPctNum)
    let startAmount := u128AsU64 (scaled / startAmountPctDenom)
    let remainder ← orOverflow (checkedSub unlockedAmount startAmount)
    let product ← orOverflow ((i64AsU128 timeIntoUnlock).checkedMul (u64AsU128 remainder))
    let bonusAmount := u128AsU64 (product / i64AsU128 totalUnlockTime)
    orOverflow (checkedAdd startAmount bonusAmount)

def calculateLockedAmountClaimable (lockedAmount : UInt64) (currTs startTs endTs : Int64) :
    Except Panic UInt64 :=
  if currTs < startTs then .ok 0
  else if endTs ≤ currTs then .ok lockedAmount
  else do
    let timeIntoUnlock ← orOverflow (checkedSubI64 currTs startTs)
    let totalUnlockTime ← orOverflow (checkedSubI64 endTs startTs)
    if i64AsU128 totalUnlockTime = 0 then return lockedAmount
    let product ← orOverflow ((i64AsU128 timeIntoUnlock).checkedMul (u64AsU128 lockedAmount))
    return u128AsU64 (product / i64AsU128 totalUnlockTime)

/-! ### Eligibility -/

/-- The errors the modelled handlers return. -/
inductive ApiError where
  | userNotFound (user : String)
  | proofNotFound (user : String)
  | parsePubkeyError
  | mathError
  deriving DecidableEq, Repr

inductive ApiFailure where
  | error (reason : ApiError)
  | panic (reason : Panic)
  deriving DecidableEq, Repr

structure UserProof where
  merkleTree : String
  amount : UInt64
  lockedAmount : UInt64
  proof : List Hash
  deriving DecidableEq, Repr

/-- `get_user_proof`. -/
def getUserProof (text : PubkeyText) (merkleTree : TreeIndex) (pubkey : String) :
    Except ApiError UserProof := do
  let userPubkey ← okOr (text.fromStr pubkey) .parsePubkeyError
  let node ← okOr (merkleTree userPubkey) (.userNotFound (text.toStr userPubkey))
  let proof ← okOr node.2.proof (.proofNotFound (text.toStr userPubkey))
  return { merkleTree := text.toStr node.1, amount := node.2.amount,
           lockedAmount := node.2.lockedAmount.getD 0, proof }

structure RouterState where
  tree : TreeIndex
  cache : Cache
  startAmountPct : U128

/-- Amounts are decimal strings, as on the wire. -/
structure EligibilityResp where
  claimant : String
  merkleTree : String
  mint : String
  startTs : Int64
  endTs : Int64
  proof : List Hash
  startAmount : String
  endAmount : String
  unvestedAmount : String
  claimedAmount : String
  unlockedAmountClaimed : String
  lockedAmountWithdrawn : String
  lockedAmount : String
  claimableAmount : String
  deriving DecidableEq, Repr

/-- The vesting window and mint of an answer. -/
structure Terms where
  startTs : Int64
  endTs : Int64
  mint : String
  deriving DecidableEq, Repr

/-- The terms of the cached distributor, or the defaults of the server. -/
def Cache.termsOf (text : PubkeyText) (cache : Cache) (merkleTree : String) : Terms :=
  match cache.distributorCache merkleTree with
  | some distributor =>
      { startTs := distributor.startTs, endTs := distributor.endTs,
        mint := text.toStr distributor.mint }
  | none =>
      { startTs := cache.defaultStartTs, endTs := cache.defaultEndTs, mint := cache.defaultMint }

/-- The three figures of an answer that depend on what was claimed already. -/
structure ClaimFigures where
  unlockedAmountClaimed : UInt64
  lockedAmountWithdrawn : UInt64
  claimableAmount : UInt64
  deriving DecidableEq, Repr

/-- The `map` and the `unwrap_or_else` over the cached status. -/
def claimFigures (status : Option ClaimStatus) (amount lockedAmount : UInt64)
    (currTs startTs endTs : Int64) (startAmountPct : U128) : Except Panic ClaimFigures :=
  match status with
  | some data =>
      .ok { unlockedAmountClaimed := data.unlockedAmountClaimed
            lockedAmountWithdrawn := data.lockedAmountWithdrawn
            claimableAmount := (data.amountWithdrawable currTs startTs endTs).toOption.getD 0 }
  | none => do
      let unlockedClaimable ←
        calculateClaimableAmountForNewUser amount currTs startTs endTs startAmountPct
      let lockedClaimable ← calculateLockedAmountClaimable lockedAmount currTs startTs endTs
      let claimableAmount ← orOverflow (checkedAdd unlockedClaimable lockedClaimable)
      return { unlockedAmountClaimed := 0, lockedAmountWithdrawn := 0, claimableAmount }

/-- `get_eligibility` at the server time `currTs`. -/
def getEligibility (text : PubkeyText) (state : RouterState) (userPubkey : String)
    (currTs : Int64) : Except ApiFailure (List EligibilityResp) := do
  let proof ← (getUserProof text state.tree userPubkey).mapError .error
  let terms := state.cache.termsOf text proof.merkleTree
  let status := (state.cache.claimStatusCache userPubkey).map DataAndSlot.data
  let figures ← (claimFigures status proof.amount proof.lockedAmount currTs terms.startTs
    terms.endTs state.startAmountPct).mapError .panic
  let startAmountPctNum ←
    (orOverflow (state.startAmountPct.checkedMul startAmountPctPrecision)).mapError .panic
  let scaled ← okOr ((u64AsU128 proof.amount).checkedMul startAmountPctNum) (.error .mathError)
  let startAmount ← okOr (scaled.checkedDiv startAmountPctDenom) (.error .mathError)
  let claimedAmount ← (orOverflow
    (checkedAdd figures.unlockedAmountClaimed figures.lockedAmountWithdrawn)).mapError .panic
  return [{ claimant := userPubkey
            merkleTree := proof.merkleTree
            mint := terms.mint
            startTs := terms.startTs
            endTs := terms.endTs
            proof := proof.proof
            startAmount := toString startAmount.toNat
            endAmount := toString proof.amount.toNat
            unvestedAmount := toString (state.cache.getUnvestedAmount userPubkey).toNat
            claimedAmount := toString claimedAmount.toNat
            unlockedAmountClaimed := toString figures.unlockedAmountClaimed.toNat
            lockedAmountWithdrawn := toString figures.lockedAmountWithdrawn.toNat
            lockedAmount := toString proof.lockedAmount.toNat
            claimableAmount := toString figures.claimableAmount.toNat }]

end MultiDistributor.Source

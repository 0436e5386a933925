import MultiDistributor.Guarantees.AirdropTree
import MultiDistributor.Guarantees.LedgerInvariant
import MultiDistributor.Guarantees.Payments
import MultiDistributor.Guarantees.Surplus

/-!
# A funded distributor stays solvent

A permanent distributor is created for a tree of the builder on a clean address, and its
vault is funded. The run may then contain anything but a clawback; every re-root has to
come with the tree it was built from, which keeps the amounts of those who have claimed.
As long as none of the strings hashed for these trees and claims collide, the distributor
stays solvent: each claim status is a leaf of the current tree, and the vault holds what
the cap still allows. From that, every remaining leaf and every vested withdrawal goes
through.
-/
namespace MultiDistributor.Source
open Lib.Checked Lib.TokenLedger Lib.LinearRelease Lib.Replay
  Lib.ByteString Guarantees.MerkleProofs

/-- The tree has a node for the claimant with exactly these amounts. -/
def Lists (tree : AirdropMerkleTree) (claimant : Pubkey) (unlocked locked : UInt64) : Prop :=
  ∃ node ∈ tree.treeNodes, node.claimant = claimant ∧ node.amount = unlocked ∧
    node.lockedAmount.getD 0 = locked

/-- A transaction, together with the tree behind the root it proposes if it re-roots. -/
structure Proposal where
  tx : Transaction
  tree : AirdropMerkleTree

/-- A successful `set_root` on the distributor. -/
def ReRoots (rt : Runtime) (key : Pubkey) (world : World) (tx : Transaction) : Prop :=
  Succeeds rt world tx ∧
    match tx.action with
    | .invoke (.setRoot accounts _) => accounts.distributor = key
    | _ => False

instance (rt : Runtime) (key : Pubkey) (world : World) (tx : Transaction) :
    Decidable (ReRoots rt key world tx) := by
  unfold ReRoots
  split <;> infer_instance

/-- A step of a run that carries along the tree behind the current root. -/
def reRootStep (rt : Runtime) (key : Pubkey) (state : World × AirdropMerkleTree)
    (event : Proposal) : World × AirdropMerkleTree :=
  (apply rt state.1 event.tx, if ReRoots rt key state.1 event.tx then event.tree else state.2)

/-- What the comment on `set_root` demands of its caller: the new root and cap are those of
a tree of the builder that fits the distributor and keeps the amounts of those who claimed. -/
structure FaithfulReRoot (H : HashFunction) (key : Pubkey) (world : World)
    (distributor : MerkleDistributor) (args : SetRootArgs) (tree : AirdropMerkleTree) : Prop where
  returned : ∃ nodes version, AirdropMerkleTree.new H nodes version = .ok tree
  root : args.newRoot = tree.merkleRoot
  cap : args.newMaxTotalClaim = tree.maxTotalClaim
  room : tree.treeNodes.length ≤ distributor.maxNumNodes.toNat
  keeps : ∀ claimant status, world.claimStatuses claimant key = some status →
    Lists tree claimant status.unlockedAmount status.lockedAmount

/-- Re-roots of the distributor are faithful, and no clawback of it succeeds. -/
structure FaithfulStep (rt : Runtime) (key : Pubkey) (world : World) (event : Proposal) :
    Prop where
  reRoot : ∀ accounts args distributor, event.tx.action = .invoke (.setRoot accounts args) →
    accounts.distributor = key → Succeeds rt world event.tx →
    world.distributors key = some distributor →
    FaithfulReRoot rt.hash key world distributor args event.tree
  clawback : ∀ accounts, event.tx.action = .invoke (.clawback accounts) →
    accounts.distributor = key → ¬ Succeeds rt world event.tx

/-- The strings the program hashes in a claim attempt on the distributor. -/
def attemptStrings (H : HashFunction) (key : Pubkey) (tx : Transaction) : List Bytes :=
  match tx.action with
  | .invoke (.newClaim accounts args) =>
      if accounts.distributor = key then
        verifierStrings H accounts.claimant args.amountUnlocked args.amountLocked args.proof
      else []
  | _ => []

/-- All strings hashed for the first tree, the proposed trees and the claim attempts. -/
def runStrings (H : HashFunction) (key : Pubkey) (tree : AirdropMerkleTree)
    (events : List Proposal) : List Bytes :=
  builderStrings H tree.treeNodes ++ events.flatMap fun event =>
    builderStrings H event.tree.treeNodes ++ attemptStrings H key event.tx

/-- Any transactions but clawbacks, with faithful re-roots and without a hash collision. -/
structure FaithfulRun (rt : Runtime) (key : Pubkey) (start : World) (tree : AirdropMerkleTree)
    (events : List Proposal) : Prop where
  admissible : ∀ event ∈ events, Admissible rt event.tx
  faithful : ∀ state event, (state, event) ∈ transitions (reRootStep rt key) (start, tree) events →
    FaithfulStep rt key state.1 event
  distinct : ¬ CollisionIn rt.hash (runStrings rt.hash key tree events)

/-- A permanent distributor is created for a tree of the builder, and token operations then
leave at least the cap in its vault. -/
structure FundedCreation (rt : Runtime) (world : World) (tx : Transaction)
    (accounts : NewDistributorAccounts) (args : NewDistributorArgs) (tree : AirdropMerkleTree)
    (deposits : List Transaction) : Prop where
  admissible : Admissible rt tx
  sent : tx.action = .invoke (.newDistributor accounts args)
  success : Succeeds rt world tx
  permanent : args.closable = false
  window : FitsI64 (args.endVestingTs.toInt - args.startVestingTs.toInt)
  returned : ∃ nodes version, AirdropMerkleTree.new rt.hash nodes version = .ok tree
  root : args.root = tree.merkleRoot
  cap : args.maxTotalClaim = tree.maxTotalClaim
  room : args.maxNumNodes = tree.maxNumNodes
  deposited : ∀ deposit ∈ deposits, Admissible rt deposit ∧
    ∃ operation, deposit.action = .token operation
  funded : ∃ vault,
    (run rt (apply rt world tx) deposits).tokens.accounts accounts.tokenVault = some vault ∧
      vault.mint = accounts.mint ∧ args.maxTotalClaim ≤ vault.amount

/-- The claim of a node with its stored amounts and proof. -/
def claimOf (key vault receiver : Pubkey) (node : TreeNode) : Instruction :=
  .newClaim { distributor := key, fromAccount := vault, toAccount := receiver
              claimant := node.claimant }
    { amountUnlocked := node.amount, amountLocked := node.lockedAmount.getD 0
      proof := node.proof.getD [] }

/-- Once claims are enabled and vesting has begun, everyone with a token account of the mint
can claim an unclaimed node of the tree and withdraw what is released of a claimed one. -/
structure OwedClaimable (rt : Runtime) (key : Pubkey) (world : World) (tree : AirdropMerkleTree)
    (distributor : MerkleDistributor) : Prop where
  newClaim : ∀ tx receiver account node, Admissible rt tx →
    distributor.enableSlot ≤ tx.clock.slot → distributor.startTs ≤ tx.clock.unixTimestamp →
    world.tokens.accounts receiver = some account → account.owner = node.claimant →
    account.mint = distributor.mint → node.claimant ∈ tx.signers → node ∈ tree.treeNodes →
    world.claimStatuses node.claimant key = none →
    tx.action = .invoke (claimOf key distributor.tokenVault receiver node) →
    Succeeds rt world tx
  claimLocked : ∀ tx receiver account claimant status, Admissible rt tx →
    distributor.enableSlot ≤ tx.clock.slot →
    world.tokens.accounts receiver = some account → account.owner = claimant →
    account.mint = distributor.mint → claimant ∈ tx.signers →
    world.claimStatuses claimant key = some status →
    status.lockedAmountWithdrawn.toNat < released status.lockedAmount.toNat
      distributor.startTs.toInt distributor.endTs.toInt tx.clock.unixTimestamp.toInt →
    tx.action = .invoke (.claimLocked
      { distributor := key, fromAccount := distributor.tokenVault, toAccount := receiver
        claimant }) →
    Succeeds rt world tx

/-- The root and the cap of the distributor are those of the tree, and every claim status
belongs to one of its nodes. -/
structure Backed (rt : Runtime) (key : Pubkey) (world : World) (tree : AirdropMerkleTree)
    (distributor : MerkleDistributor) : Prop where
  built : BuiltTree rt.hash tree
  root : distributor.root = tree.merkleRoot
  cap : distributor.maxTotalClaim = tree.maxTotalClaim
  room : tree.treeNodes.length ≤ distributor.maxNumNodes.toNat
  listed : ∀ claimant status, world.claimStatuses claimant key = some status →
    Lists tree claimant status.unlockedAmount status.lockedAmount

/-- The distributor can pay everything its current tree still owes. -/
structure Solvent (rt : Runtime) (key : Pubkey) (world : World) (tree : AirdropMerkleTree)
    (distributor : MerkleDistributor) (claimants : Finset Pubkey) : Prop where
  found : world.distributors key = some distributor
  permanent : distributor.closable = false
  live : distributor.clawedBack = false
  window : FitsI64 (distributor.endTs.toInt - distributor.startTs.toInt)
  backed : Backed rt key world tree distributor
  ledger : LedgerInvariant key world distributor claimants
  funded : 0 ≤ surplus world distributor
  vaultMint : ∃ vault, world.tokens.accounts distributor.tokenVault = some vault ∧
    vault.mint = distributor.mint

/-! ### What one step keeps -/

section
variable {rt : Runtime} {world after : World} {tree : AirdropMerkleTree} {key : Pubkey}
  {distributor next : MerkleDistributor} {event : Proposal}

theorem not_reRoots {tx : Transaction} (other : ∀ accounts args,
      tx.action = .invoke (.setRoot accounts args) → accounts.distributor ≠ key) :
    ¬ ReRoots rt key world tx := by
  rintro ⟨_, asks⟩
  split at asks
  · next accounts args sent => exact other accounts args sent asks
  · exact asks

theorem reRootStep_same (other : ∀ accounts args,
      event.tx.action = .invoke (.setRoot accounts args) → accounts.distributor ≠ key) :
    (reRootStep rt key (world, tree) event).2 = tree :=
  if_neg (not_reRoots other)

theorem faithfulStep_of_other (noRoot : ∀ accounts args,
      event.tx.action ≠ .invoke (.setRoot accounts args))
    (noClawback : ∀ accounts, event.tx.action ≠ .invoke (.clawback accounts)) :
    FaithfulStep rt key world event where
  reRoot accounts args _ sent := absurd sent (noRoot accounts args)
  clawback accounts sent := absurd sent (noClawback accounts)

/-- A step that moves neither root nor cap, nor the amounts of a claim status. -/
theorem Backed.keep (backed : Backed rt key world tree distributor)
    (root : next.root = distributor.root) (cap : next.maxTotalClaim = distributor.maxTotalClaim)
    (room : next.maxNumNodes = distributor.maxNumNodes)
    (statuses : ∀ claimant status, after.claimStatuses claimant key = some status →
      ∃ earlier, world.claimStatuses claimant key = some earlier ∧
        status.unlockedAmount = earlier.unlockedAmount ∧
        status.lockedAmount = earlier.lockedAmount) :
    Backed rt key after tree next where
  built := backed.built
  root := root.trans backed.root
  cap := cap.trans backed.cap
  room := by rw [room]; exact backed.room
  listed claimant status found := by
    obtain ⟨earlier, present, unlocked, locked⟩ := statuses claimant status found
    rw [unlocked, locked]
    exact backed.listed claimant earlier present

/-- An accepted claim adds a status of a node of the tree. -/
theorem Backed.newClaim {tx : Transaction} {accounts : NewClaimAccounts} {args : NewClaimArgs}
    (e : NewClaimExecution rt tx.signers tx.clock world accounts args)
    (backed : Backed rt accounts.distributor world tree e.distributor)
    (distinct : ¬ CollisionIn rt.hash (builderStrings rt.hash tree.treeNodes ++
      verifierStrings rt.hash accounts.claimant args.amountUnlocked args.amountLocked
        args.proof)) :
    Backed rt accounts.distributor e.after tree e.next where
  built := backed.built
  root := backed.root
  cap := backed.cap
  room := backed.room
  listed claimant status found := by
    rw [e.after_statuses] at found
    split at found
    · next equal =>
      obtain ⟨merkleTree, built, top⟩ := backed.built.root
      cases found
      subst equal
      exact (verify_sound rt.hash tree.treeNodes merkleTree tree.merkleRoot built top _ _ _ _
        (backed.root ▸ e.proved)).resolve_right distinct
    · exact backed.listed claimant status found

theorem Backed.step (backed : Backed rt key world tree distributor)
    (step : StepAt rt world event.tx key distributor after)
    (succeeded : Succeeds rt world event.tx) (found : world.distributors key = some distributor)
    (faithful : FaithfulStep rt key world event)
    (distinct : ¬ CollisionIn rt.hash
      (builderStrings rt.hash tree.treeNodes ++ attemptStrings rt.hash key event.tx))
    (present : after.distributors key = some next) :
    Backed rt key after (reRootStep rt key (world, tree) event).2 next := by
  cases step with
  | untouched quiet record statuses =>
    have elsewhere := quiet.resolve_left (not_not_intro succeeded)
    cases present.symm.trans record
    rw [reRootStep_same fun accounts args sent here =>
      elsewhere ((target_of_sent sent).trans (congrArg some here))]
    exact backed.keep rfl rfl rfl fun claimant status held =>
      ⟨status, statuses claimant ▸ held, rfl, rfl⟩
  | newClaim sent e here same left =>
    subst here same left
    cases present.symm.trans e.after_record
    rw [reRootStep_same fun _ _ other => by cases sent.symm.trans other]
    exact backed.newClaim e (by simpa only [attemptStrings, sent, if_true] using distinct)
  | claimLocked sent e here same left =>
    subst here same left
    cases present.symm.trans e.after_record
    rw [reRootStep_same fun _ _ other => by cases sent.symm.trans other]
    refine backed.keep rfl rfl rfl fun claimant status held => ?_
    rw [e.after_statuses] at held
    split at held
    · next equal =>
      cases held
      exact ⟨e.status, equal ▸ e.statusFound, rfl, rfl⟩
    · exact ⟨status, held, rfl, rfl⟩
  | setRoot sent e here same left =>
    subst here same left
    cases present.symm.trans e.after_record
    have duties := faithful.reRoot _ _ _ sent rfl succeeded found
    obtain ⟨nodes, version, returned⟩ := duties.returned
    have moves : ReRoots rt _ world event.tx := ⟨succeeded, by rw [sent]⟩
    rw [reRootStep, if_pos moves]
    exact { built := new_builtTree returned, root := duties.root, cap := duties.cap
            room := duties.room, listed := duties.keeps }
  | clawback sent e here same left => exact absurd succeeded (faithful.clawback _ sent here)
  | closed sent e here same left =>
    subst here left
    simp [CloseDistributorExecution.after] at present
  | admin sent here signed update left =>
    subst left
    rw [setDistributor_distributors, if_pos rfl] at present
    cases present
    rw [reRootStep_same fun _ _ other => by cases sent.symm.trans other; cases update]
    cases update <;> exact backed.keep rfl rfl rfl fun _ status held => ⟨status, held, rfl, rfl⟩

/-- A vault keeps its mint: only its owner, a derived address, could change the account. -/
theorem WellFormed.vault_mint (wellFormed : WellFormed rt world) {tx : Transaction}
    (admissible : Admissible rt tx) (found : world.distributors key = some distributor)
    (mint : ∃ vault, world.tokens.accounts distributor.tokenVault = some vault ∧
      vault.mint = distributor.mint) :
    ∃ vault, (apply rt world tx).tokens.accounts distributor.tokenVault = some vault ∧
      vault.mint = distributor.mint := by
  obtain ⟨vault, held, mint⟩ := mint
  rcases apply_cases rt world tx with ⟨same, _⟩ | ⟨execution, _⟩
  · exact ⟨vault, by rw [same, held], mint⟩
  obtain ⟨account, again, owner⟩ := wellFormed.vault key distributor found
  cases again.symm.trans held
  have foreign : vault.owner ∉ tx.signers := by
    rw [owner]
    exact wellFormed.vault_foreign admissible found
  obtain ⟨amount, kept⟩ := execution.tokenStep.retains held foreign
  exact ⟨_, kept, mint⟩

/-- Only a clawback ends a distributor. -/
theorem StepAt.live (step : StepAt rt world event.tx key distributor after)
    (succeeded : Succeeds rt world event.tx) (faithful : FaithfulStep rt key world event)
    (live : distributor.clawedBack = false) (present : after.distributors key = some next) :
    next.clawedBack = false := by
  cases step with
  | untouched quiet record => cases present.symm.trans record; exact live
  | newClaim sent e here same left =>
    subst here left
    cases present.symm.trans e.after_record
    exact e.live
  | claimLocked sent e here same left =>
    subst here left
    cases present.symm.trans e.after_record
    exact e.live
  | setRoot sent e here same left =>
    subst here left
    cases present.symm.trans e.after_record
    exact e.conditions.live
  | clawback sent e here same left => exact absurd succeeded (faithful.clawback _ sent here)
  | closed sent e here same left =>
    subst here left
    simp [CloseDistributorExecution.after] at present
  | admin sent here signed update left =>
    subst left
    rw [setDistributor_distributors, if_pos rfl] at present
    cases present
    cases update <;> exact live

theorem Solvent.step {claimants : Finset Pubkey}
    (solvent : Solvent rt key world tree distributor claimants)
    (wellFormed : WellFormed rt world) (admissible : Admissible rt event.tx)
    (faithful : FaithfulStep rt key world event)
    (distinct : ¬ CollisionIn rt.hash
      (builderStrings rt.hash tree.treeNodes ++ attemptStrings rt.hash key event.tx)) :
    ∃ next more, Solvent rt key (apply rt world event.tx)
      (reRootStep rt key (world, tree) event).2 next more := by
  have step := wellFormed.stepAt admissible solvent.found
  rcases apply_cases rt world event.tx with ⟨same, failed⟩ | ⟨_, succeeded⟩
  · rw [same, reRootStep, if_neg fun moves : ReRoots .. => failed moves.1]
    exact ⟨distributor, claimants, solvent⟩
  obtain ⟨next, more, present, ledger⟩ :=
    step.ledger (wellFormed.after_tx admissible) solvent.permanent solvent.ledger
  obtain ⟨_, again, authorized⟩ := step.record solvent.permanent
  cases again.symm.trans present
  have terms := authorized.terms
  have grows : surplus world distributor ≤ surplus (apply rt world event.tx) next := by
    rcases step.surplus with ⟨_, sent, here⟩ | ⟨_, _, removed⟩ | ⟨_, again, grows, _⟩
    · exact absurd succeeded (faithful.clawback _ sent here)
    · cases removed.symm.trans present
    · cases again.symm.trans present
      exact grows
  refine ⟨next, more,
    { found := present, permanent := terms.closable.trans solvent.permanent
      live := step.live succeeded faithful solvent.live present
      window := by rw [terms.endTs, terms.startTs]; exact solvent.window
      backed := solvent.backed.step step succeeded solvent.found faithful distinct present
      ledger, funded := Int.le_trans solvent.funded grows
      vaultMint := ?_ }⟩
  rw [terms.tokenVault, terms.mint]
  exact wellFormed.vault_mint admissible solvent.found solvent.vaultMint

end

/-! ### What a solvent distributor pays -/

/-- What a claimant's status leaves to withdraw once everything is released. -/
def World.remaining (world : World) (key claimant : Pubkey) : Nat :=
  match world.claimStatuses claimant key with
  | some status => status.lockedAmount.toNat - status.lockedAmountWithdrawn.toNat
  | none => 0

section
variable {rt : Runtime} {world : World} {tree : AirdropMerkleTree} {key : Pubkey}
  {distributor : MerkleDistributor} {claimants : Finset Pubkey} {tx : Transaction}

theorem Solvent.listed_claimants (solvent : Solvent rt key world tree distributor claimants) :
    ∀ claimant ∈ claimants, ∃ node ∈ tree.treeNodes, node.claimant = claimant := by
  intro claimant member
  obtain ⟨status, found⟩ :=
    Option.isSome_iff_exists.mp ((solvent.ledger.members claimant).mp member)
  obtain ⟨node, listed, named, _⟩ := solvent.backed.listed claimant status found
  exact ⟨node, listed, named⟩

/-- What the tree owes to those who claimed is paid, forgone or still locked. -/
theorem Solvent.settled (solvent : Solvent rt key world tree distributor claimants) :
    distributor.totalAmountClaimed.toNat + distributor.totalAmountForgone.toNat +
        ∑ claimant ∈ claimants, world.remaining key claimant =
      ∑ claimant ∈ claimants, owed tree claimant := by
  rw [solvent.ledger.claimed, solvent.ledger.forgone, ← Finset.sum_add_distrib,
    ← Finset.sum_add_distrib]
  refine Finset.sum_congr rfl fun claimant member => ?_
  obtain ⟨status, found⟩ :=
    Option.isSome_iff_exists.mp ((solvent.ledger.members claimant).mp member)
  obtain ⟨node, listed, rfl, unlocked, locked⟩ := solvent.backed.listed claimant status found
  obtain ⟨claimed, withdrawn⟩ := solvent.ledger.statuses _ status found
  simp only [World.paid, World.forgone, World.remaining, found,
    solvent.backed.built.owed_eq listed, entitlement, unlocked, locked]
  omega

/-- The cap has room for every node that was not claimed, next to what is settled. -/
theorem Solvent.room_for_node (solvent : Solvent rt key world tree distributor claimants)
    {node : TreeNode} (listed : node ∈ tree.treeNodes)
    (unclaimed : world.claimStatuses node.claimant key = none) :
    distributor.totalAmountClaimed.toNat + distributor.totalAmountForgone.toNat +
        entitlement node ≤ distributor.maxTotalClaim.toNat ∧
      distributor.numNodesClaimed.toNat + 1 ≤ distributor.maxNumNodes.toNat := by
  have built := solvent.backed.built
  have fresh : node.claimant ∉ claimants := by
    rw [solvent.ledger.members, unclaimed]
    simp
  have all_listed : ∀ claimant ∈ insert node.claimant claimants,
      ∃ other ∈ tree.treeNodes, other.claimant = claimant := by
    intro claimant member
    rcases Finset.mem_insert.mp member with rfl | earlier
    · exact ⟨node, listed, rfl⟩
    · exact solvent.listed_claimants claimant earlier
  obtain ⟨total, count⟩ := built.capacity all_listed
  rw [Finset.sum_insert fresh, built.owed_eq listed, ← solvent.settled,
    ← solvent.backed.cap] at total
  rw [Finset.card_insert_of_notMem fresh, ← solvent.ledger.nodes] at count
  exact ⟨by omega, Nat.le_trans count solvent.backed.room⟩

/-- The cap has room for what a claimant can still withdraw. -/
theorem Solvent.room_for_remaining (solvent : Solvent rt key world tree distributor claimants)
    {claimant : Pubkey} {status : ClaimStatus}
    (claimed : world.claimStatuses claimant key = some status) :
    distributor.totalAmountClaimed.toNat + distributor.totalAmountForgone.toNat +
        (status.lockedAmount.toNat - status.lockedAmountWithdrawn.toNat) ≤
      distributor.maxTotalClaim.toNat := by
  have member : claimant ∈ claimants := by
    rw [solvent.ledger.members, claimed]
    rfl
  have single : world.remaining key claimant ≤ ∑ c ∈ claimants, world.remaining key c :=
    Finset.single_le_sum (fun _ _ => Nat.zero_le _) member
  have left : world.remaining key claimant =
      status.lockedAmount.toNat - status.lockedAmountWithdrawn.toNat := by
    simp only [World.remaining, claimed]
  have total := (solvent.backed.built.capacity solvent.listed_claimants).1
  rw [← solvent.settled, ← solvent.backed.cap] at total
  omega

/-- The claim of every node whose claimant has not claimed goes through. -/
theorem Solvent.newClaim_succeeds (solvent : Solvent rt key world tree distributor claimants)
    (wellFormed : WellFormed rt world) (admissible : Admissible rt tx)
    (enabled : distributor.enableSlot ≤ tx.clock.slot)
    (begun : distributor.startTs ≤ tx.clock.unixTimestamp) {node : TreeNode}
    (listed : node ∈ tree.treeNodes) (unclaimed : world.claimStatuses node.claimant key = none)
    {receiver : Pubkey} {account : TokenAccount Pubkey}
    (held : world.tokens.accounts receiver = some account) (owner : account.owner = node.claimant)
    (mint : account.mint = distributor.mint) (signed : node.claimant ∈ tx.signers)
    (sent : tx.action = .invoke (claimOf key distributor.tokenVault receiver node)) :
    Succeeds rt world tx := by
  obtain ⟨total, count⟩ := solvent.room_for_node listed unclaimed
  rw [entitlement] at total
  have covered := solvent.funded
  rw [surplus] at covered
  have share := unlockedRelease_le node.amount.toNat distributor.startTs.toInt
    distributor.endTs.toInt tx.clock.unixTimestamp.toInt
  obtain ⟨proof, stored, accepted⟩ := solvent.backed.built.proofs node listed
  rw [claimOf, stored, Option.getD_some] at sent
  have claim : Claimable rt world tx _ _ distributor :=
    { sent, found := solvent.found, vacant := unclaimed, signed, vaultAddress := rfl
      vaultMint := solvent.vaultMint, receiver := ⟨account, held, owner, mint⟩
      live := solvent.live, enabled, window := solvent.window
      proved := by rw [solvent.backed.root]; exact accepted
      room := by omega, funded := by dsimp only; omega, cap := by dsimp only; omega }
  obtain ⟨e, _⟩ := claim.pays wellFormed admissible begun
  exact ⟨_, _, e.success sent⟩

/-- On a solvent distributor nothing but the schedule decides a withdrawal. -/
theorem Solvent.unobstructed (solvent : Solvent rt key world tree distributor claimants)
    {claimant : Pubkey} {status : ClaimStatus}
    (claimed : world.claimStatuses claimant key = some status)
    (enabled : distributor.enableSlot ≤ tx.clock.slot) (signed : claimant ∈ tx.signers)
    {receiver : Pubkey}
    (account : ∃ account, world.tokens.accounts receiver = some account ∧
      account.owner = claimant ∧ account.mint = distributor.mint)
    (sent : tx.action = .invoke (.claimLocked
      { distributor := key, fromAccount := distributor.tokenVault, toAccount := receiver
        claimant })) :
    Unobstructed rt world tx
      { distributor := key, fromAccount := distributor.tokenVault, toAccount := receiver
        claimant } distributor status := by
  have bound := released_le status.lockedAmount.toNat distributor.startTs.toInt
    distributor.endTs.toInt tx.clock.unixTimestamp.toInt
  have room := solvent.room_for_remaining claimed
  have covered := solvent.funded
  rw [surplus] at covered
  exact
    { sent, found := solvent.found, statusFound := claimed, signed, vaultAddress := rfl
      vaultMint := solvent.vaultMint, receiver := account, live := solvent.live, enabled
      window := solvent.window, funded := by unfold dueAt; omega, cap := by unfold dueAt; omega }

/-- Every claim status can be paid what is released to it at the time. -/
theorem Solvent.claimLocked_succeeds (solvent : Solvent rt key world tree distributor claimants)
    (wellFormed : WellFormed rt world) (admissible : Admissible rt tx)
    (enabled : distributor.enableSlot ≤ tx.clock.slot) {claimant : Pubkey} {status : ClaimStatus}
    (claimed : world.claimStatuses claimant key = some status)
    (due : status.lockedAmountWithdrawn.toNat < released status.lockedAmount.toNat
      distributor.startTs.toInt distributor.endTs.toInt tx.clock.unixTimestamp.toInt)
    {receiver : Pubkey} {account : TokenAccount Pubkey}
    (held : world.tokens.accounts receiver = some account) (owner : account.owner = claimant)
    (mint : account.mint = distributor.mint) (signed : claimant ∈ tx.signers)
    (sent : tx.action = .invoke (.claimLocked
      { distributor := key, fromAccount := distributor.tokenVault, toAccount := receiver
        claimant })) :
    Succeeds rt world tx := by
  have attempt := solvent.unobstructed claimed enabled signed ⟨account, held, owner, mint⟩ sent
  obtain ⟨e, _⟩ := attempt.pays wellFormed admissible due
  exact ⟨_, _, e.success sent⟩

theorem Solvent.owedClaimable (solvent : Solvent rt key world tree distributor claimants)
    (wellFormed : WellFormed rt world) : OwedClaimable rt key world tree distributor := by
  constructor
  · intro tx receiver account node admissible enabled begun held owner mint signed listed fresh sent
    exact solvent.newClaim_succeeds wellFormed admissible enabled begun listed fresh held owner
      mint signed sent
  · intro tx receiver account claimant status admissible enabled held owner mint signed claimed due
      sent
    exact solvent.claimLocked_succeeds wellFormed admissible enabled claimed due held owner mint
      signed sent

end

/-! ### Whole runs -/

section
variable {rt : Runtime} {world : World} {tree : AirdropMerkleTree} {key : Pubkey}
  {distributor : MerkleDistributor} {claimants : Finset Pubkey}

/-- The world component of a run with proposals is a run of its transactions. -/
theorem reRootStep_world (events : List Proposal) (state : World × AirdropMerkleTree) :
    (replay (reRootStep rt key) state events).1 = run rt state.1 (events.map Proposal.tx) := by
  induction events generalizing state with
  | nil => rfl
  | cons event rest ih => exact ih (reRootStep rt key state event)

theorem Solvent.run (solvent : Solvent rt key world tree distributor claimants)
    (wellFormed : WellFormed rt world) {events : List Proposal}
    (allowed : FaithfulRun rt key world tree events) :
    let reached := replay (reRootStep rt key) (world, tree) events
    ∃ next more, Solvent rt key reached.1 reached.2 next more := by
  induction events generalizing world tree distributor claimants with
  | nil => exact ⟨distributor, claimants, solvent⟩
  | cons event rest ih =>
    obtain ⟨admissible, faithful, distinct⟩ := allowed
    have now : Admissible rt event.tx := admissible event (by simp)
    have apart : ¬ CollisionIn rt.hash
        (builderStrings rt.hash tree.treeNodes ++ attemptStrings rt.hash key event.tx) := by
      refine fun collision => distinct (collision.mono fun string member => ?_)
      simp only [runStrings, List.flatMap_cons, List.mem_append] at member ⊢
      tauto
    obtain ⟨next, more, kept⟩ :=
      solvent.step wellFormed now (faithful (world, tree) event (by simp)) apart
    refine ih kept (wellFormed.after_tx now)
      ⟨fun later member => admissible later (by simp [member]),
        fun state later member => faithful state later (by simp [reRootStep, member]),
        fun collision => distinct (collision.mono fun string member => ?_)⟩
    -- the tree carried along is the old one or the one this event proposes
    simp only [runStrings, List.flatMap_cons, List.mem_append] at member ⊢
    split at member <;> tauto

theorem FaithfulRun.wellFormed {events : List Proposal}
    (allowed : FaithfulRun rt key world tree events) (wellFormed : WellFormed rt world) :
    WellFormed rt (replay (reRootStep rt key) (world, tree) events).1 := by
  rw [reRootStep_world]
  refine wellFormed.after_run fun later member => ?_
  obtain ⟨event, listed, rfl⟩ := List.mem_map.mp member
  exact allowed.admissible event listed

/-- Token operations of others leave the accounts of the program alone. -/
theorem run_deposits {deposits : List Transaction}
    (deposited : ∀ deposit ∈ deposits, ∃ operation, deposit.action = .token operation) :
    (Source.run rt world deposits).distributors = world.distributors ∧
      (Source.run rt world deposits).claimStatuses = world.claimStatuses := by
  constructor
  · refine replay_invariant (apply rt)
      (fun deposit => ∃ operation, deposit.action = .token operation)
      (fun state => state.distributors = world.distributors) ?_ world deposits deposited rfl
    rintro state deposit ⟨operation, sent⟩ same
    rw [apply_token_distributors sent, same]
  · refine run_claimStatuses fun deposit member => ?_
    obtain ⟨operation, sent⟩ := deposited deposit member
    simp only [Transaction.claimant, sent]

end

theorem FundedCreation.wellFormed {rt : Runtime} {world : World} {tx : Transaction}
    {accounts : NewDistributorAccounts} {args : NewDistributorArgs} {tree : AirdropMerkleTree}
    {deposits : List Transaction}
    (creation : FundedCreation rt world tx accounts args tree deposits)
    (wellFormed : WellFormed rt world) :
    WellFormed rt (run rt (apply rt world tx) deposits) :=
  (wellFormed.after_tx creation.admissible).after_run
    fun deposit member => (creation.deposited deposit member).1

/-- A distributor whose creation is funded is solvent once the deposits are in, if it was
created on a clean address. -/
theorem FundedCreation.solvent {rt : Runtime} {world : World} {tx : Transaction}
    {accounts : NewDistributorAccounts} {args : NewDistributorArgs} {tree : AirdropMerkleTree}
    {deposits : List Transaction}
    (creation : FundedCreation rt world tx accounts args tree deposits)
    (clean : ∀ claimant, world.claimStatuses claimant accounts.distributor = none) :
    Solvent rt accounts.distributor (run rt (apply rt world tx) deposits) tree
      (args.distributor rt accounts) ∅ := by
  obtain ⟨after, events, success⟩ := creation.success
  have outcome := apply_of_ok success
  simp only [process, creation.sent, dispatch] at success
  obtain ⟨_, rfl⟩ := newDistributor_execution success
  obtain ⟨records, statuses⟩ := @run_deposits rt (apply rt world tx) deposits
    fun deposit member => (creation.deposited deposit member).2
  obtain ⟨vault, held, vaultMint, funded⟩ := creation.funded
  obtain ⟨nodes, version, returned⟩ := creation.returned
  have built := new_builtTree returned
  have unclaimed : ∀ claimant, (run rt (apply rt world tx) deposits).claimStatuses claimant
      accounts.distributor = none := by
    intro claimant
    rw [statuses, outcome]
    exact clean claimant
  exact
    { found := by rw [records, outcome]; simp
      permanent := creation.permanent, live := rfl, window := creation.window
      backed :=
        { built, root := creation.root, cap := creation.cap
          room := by rw [← built.count, ← creation.room]; rfl
          listed := by simp [unclaimed] }
      ledger := by constructor <;> simp [unclaimed, NewDistributorArgs.distributor]
      funded := by
        rw [UInt64.le_iff_toNat_le] at funded
        simp only [surplus, NewDistributorArgs.distributor, balance_of_account held,
          UInt64.toNat_zero]
        omega
      vaultMint := ⟨vault, held, vaultMint⟩ }

namespace Sample

def friend : Pubkey := .filled 6
def friendPurse : Pubkey := .filled 7

/-- The tree of one leaf. -/
def treeOf (claimant : Pubkey) (amount locked : UInt64) : AirdropMerkleTree where
  merkleRoot := claimLeaf digest claimant amount locked
  airdropVersion := 0
  maxNumNodes := 1
  maxTotalClaim := amount + locked
  treeNodes := [{ claimant, amount, lockedAmount := some locked, proof := some [] }]

/-- The tree of two leaves, each the proof of the other. -/
def pairOf (walletLocked friendLocked : UInt64) : AirdropMerkleTree where
  merkleRoot := hashPair digest true (claimLeaf digest wallet 100 walletLocked)
    (claimLeaf digest friend 30 friendLocked)
  airdropVersion := 0
  maxNumNodes := 2
  maxTotalClaim := 130 + walletLocked + friendLocked
  treeNodes :=
    [{ claimant := wallet, amount := 100, lockedAmount := some walletLocked
       proof := some [claimLeaf digest friend 30 friendLocked] },
      { claimant := friend, amount := 30, lockedAmount := some friendLocked
        proof := some [claimLeaf digest wallet 100 walletLocked] }]

/-- The arguments that create the sample distributor for a tree. -/
def argsFor (tree : AirdropMerkleTree) : NewDistributorArgs :=
  { version := 0, root := tree.merkleRoot, maxTotalClaim := tree.maxTotalClaim,
    maxNumNodes := tree.maxNumNodes, startVestingTs := 0, endVestingTs := 100,
    clawbackStartTs := 86500, enableSlot := 0, closable := false }

def createTree (tree : AirdropMerkleTree) : Transaction :=
  send 0 [adminId] (.invoke (.newDistributor creationAccounts (argsFor tree)))

/-- The sample distributor created for a tree, and funded with its total. -/
theorem fundedTree {world : World} {tree : AirdropMerkleTree}
    (returned : AirdropMerkleTree.new digest tree.treeNodes 0 = .ok tree)
    (success : Succeeds rt world (createTree tree))
    (funded : ((run rt (apply rt world (createTree tree))
      [fund tree.maxTotalClaim]).tokens.accounts vault).any
        (fun account => account.mint = mint ∧ tree.maxTotalClaim ≤ account.amount) = true) :
    FundedCreation rt world (createTree tree) creationAccounts (argsFor tree) tree
      [fund tree.maxTotalClaim] where
  admissible := admissible_of_foreign (show pda ∉ [adminId] by decide)
  sent := rfl
  success := success
  permanent := rfl
  window := show FitsI64 ((100 : Int64).toInt - (0 : Int64).toInt) by decide
  returned := ⟨_, 0, returned⟩
  root := rfl
  cap := rfl
  room := rfl
  deposited := by
    intro deposit member
    cases List.mem_singleton.mp member
    exact ⟨admissible_of_foreign List.not_mem_nil, _, rfl⟩
  funded := by
    obtain ⟨account, held, facts⟩ := account_of _ funded
    exact ⟨account, held, of_decide_eq_true facts⟩

/-- The tree of one leaf is a case of it. -/
theorem fundedCreation {world : World} {claimant : Pubkey} {amount locked total : UInt64}
    (returned : AirdropMerkleTree.new digest (treeOf claimant amount locked).treeNodes 0 =
      .ok (treeOf claimant amount locked)) (sum : total = amount + locked)
    (success : Succeeds rt world (createFor claimant amount locked total false))
    (funded : ((run rt (apply rt world (createFor claimant amount locked total false))
      [fund total]).tokens.accounts vault).any
        (fun account => account.mint = mint ∧ total ≤ account.amount) = true) :
    FundedCreation rt world (createFor claimant amount locked total false) creationAccounts
      (creationArgs claimant amount locked total false) (treeOf claimant amount locked)
      [fund total] := by
  subst sum
  exact fundedTree returned success funded

end Sample

end MultiDistributor.Source

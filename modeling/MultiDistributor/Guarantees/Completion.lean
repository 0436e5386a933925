import MultiDistributor.Guarantees.ClaimOrder
import MultiDistributor.Guarantees.Incarnations

/-!
# A distribution runs to its end

After vesting has ended, every claimant of the current tree sends a claim and, some time after
it, a withdrawal, interleaved in any way with those of the others and with further claims and
withdrawals of anybody, and whatever was claimed or withdrawn before. Transactions that come
too early or too late or find nothing to pay fail and change nothing. When all are through,
every claim status is exhausted, the cap is used up by what was paid and what was forgone, and
the vault keeps the forgone tokens and the surplus.
-/
namespace MultiDistributor.Source
open Lib.Checked Lib.TokenLedger Lib.LinearRelease Lib.Replay Lib.ByteString
  Guarantees.MerkleProofs

/-- The claim of a node, sent by its claimant. -/
def sweepClaim (key vault : Pubkey) (receiver : Pubkey → Pubkey) (clock : Clock) (node : TreeNode) :
    Transaction where
  signers := [node.claimant]
  clock := clock
  action := .invoke (claimOf key vault (receiver node.claimant) node)

/-- The withdrawal of the locked tokens of a node, sent by its claimant. -/
def sweepWithdrawal (key vault : Pubkey) (receiver : Pubkey → Pubkey) (clock : Clock)
    (node : TreeNode) : Transaction where
  signers := [node.claimant]
  clock := clock
  action := .invoke (.claimLocked
    { distributor := key, fromAccount := vault, toAccount := receiver node.claimant
      claimant := node.claimant })

/-- What the claims of a sweep keep, against the world it began in. -/
structure Sweeping (rt : Runtime) (key : Pubkey) (tree : AirdropMerkleTree) (start : World)
    (first : MerkleDistributor) (world : World) : Prop where
  wellFormed : WellFormed rt world
  solvent : ∃ distributor claimants, Solvent rt key world tree distributor claimants ∧
    distributor.uncounted = first.uncounted ∧ surplus world distributor = surplus start first
  holders : ∀ account, world.tokens.holder account = start.tokens.holder account

section
variable {rt : Runtime} {key : Pubkey} {tree : AirdropMerkleTree} {start world : World}
  {first : MerkleDistributor} {tx : Transaction} {claimant : Pubkey}

/-- A claim, successful or not, changes counters and balances of what it finds. -/
theorem claim_frame (claims : tx.claimAccounts.isSome = true) :
    (∀ key, ((apply rt world tx).distributors key).map MerkleDistributor.uncounted =
        (world.distributors key).map MerkleDistributor.uncounted) ∧
      ∀ account, (apply rt world tx).tokens.holder account = world.tokens.holder account := by
  rcases apply_cases rt world tx with ⟨same, _⟩ | ⟨_, success⟩
  · rw [same]
    exact ⟨fun _ => rfl, fun _ => rfl⟩
  obtain ⟨receipt, tokens, step⟩ := success.claimStep claims
  rw [step.outcome.2]
  exact ⟨receipt.after_uncounted tokens world, transfer_holder step.moved⟩

theorem claim_sent (claims : tx.claimAccounts.isSome = true) :
    (∃ accounts args, tx.action = .invoke (.newClaim accounts args)) ∨
      ∃ accounts, tx.action = .invoke (.claimLocked accounts) := by
  unfold Transaction.claimAccounts at claims
  split at claims
  · next accounts args sent => exact .inl ⟨accounts, args, sent⟩
  · next accounts sent => exact .inr ⟨accounts, sent⟩
  · cases claims

/-- A claim or a withdrawal by anybody, whose hashed strings collide with none of the tree. -/
structure Claiming (rt : Runtime) (key : Pubkey) (tree : AirdropMerkleTree) (tx : Transaction) :
    Prop where
  admissible : Admissible rt tx
  claims : tx.claimAccounts.isSome = true
  distinct : ¬ CollisionIn rt.hash
    (builderStrings rt.hash tree.treeNodes ++ attemptStrings rt.hash key tx)

theorem Sweeping.step (sweeping : Sweeping rt key tree start first world)
    (claiming : Claiming rt key tree tx) :
    Sweeping rt key tree start first (apply rt world tx) := by
  obtain ⟨admissible, claims, distinct⟩ := claiming
  obtain ⟨distributor, claimants, solvent, terms, level⟩ := sweeping.solvent
  obtain ⟨records, holders⟩ := @claim_frame rt world tx claims
  have noRoot : ∀ accounts args, tx.action ≠ .invoke (.setRoot accounts args) := by
    rcases claim_sent claims with ⟨_, _, sent⟩ | ⟨_, sent⟩ <;> simp [sent]
  have noClawback : ∀ accounts, tx.action ≠ .invoke (.clawback accounts) := by
    rcases claim_sent claims with ⟨_, _, sent⟩ | ⟨_, sent⟩ <;> simp [sent]
  have noFunds : tx.action.funds = false := by
    rcases claim_sent claims with ⟨_, _, sent⟩ | ⟨_, sent⟩ <;> rw [sent] <;> rfl
  obtain ⟨next, more, kept⟩ := @Solvent.step rt world tree key distributor ⟨tx, tree⟩ claimants
    solvent sweeping.wellFormed admissible (faithfulStep_of_other noRoot noClawback) distinct
  rw [reRootStep_same fun accounts args sent => absurd sent (noRoot accounts args)] at kept
  have record := records key
  rw [kept.found, solvent.found, Option.map_some, Option.map_some, Option.some.injEq] at record
  refine ⟨sweeping.wellFormed.after_tx admissible,
    ⟨next, more, kept, record.trans terms, ?_⟩,
    fun account => (holders account).trans (sweeping.holders account)⟩
  rcases (sweeping.wellFormed.stepAt admissible solvent.found).surplus with
    ⟨accounts, sent, _⟩ | ⟨_, _, removed⟩ | ⟨_, again, _, same⟩
  · exact absurd sent (noClawback accounts)
  · cases removed.symm.trans kept.found
  · cases again.symm.trans kept.found
    exact (same noFunds).trans level

theorem Sweeping.run {txs : List Transaction} (sweeping : Sweeping rt key tree start first world)
    (claiming : ∀ tx ∈ txs, Claiming rt key tree tx) :
    Sweeping rt key tree start first (run rt world txs) :=
  replay_invariant (apply rt) (Claiming rt key tree) (Sweeping rt key tree start first)
    (fun _ _ held kept => kept.step held) _ txs claiming sweeping

/-- A claim status does not vanish. -/
theorem status_stays {status : ClaimStatus}
    (found : world.claimStatuses claimant key = some status) :
    ∃ later, (apply rt world tx).claimStatuses claimant key = some later := by
  rcases apply_cases rt world tx with ⟨same, _⟩ | ⟨execution, _⟩
  · exact ⟨status, by rw [same, found]⟩
  rcases execution.status_cases claimant key with
    same | ⟨_, _, _, _, _, _, fresh⟩ | ⟨_, _, _, _, _, grown⟩
  · exact ⟨status, same.trans found⟩
  · exact ⟨_, fresh⟩
  · exact ⟨_, grown⟩

/-- After the end of vesting a withdrawal takes all that is left. -/
theorem ClaimLockedExecution.exhausts {signers : List Pubkey} {clock : Clock}
    {accounts : ClaimLockedAccounts} (e : ClaimLockedExecution rt signers clock world accounts)
    (ordered : e.distributor.startTs.toInt < e.distributor.endTs.toInt)
    (ended : e.distributor.endTs.toInt ≤ clock.unixTimestamp.toInt) :
    Exhausted e.nextStatus := by
  have release := e.release
  rw [released_after _ (by omega) ended] at release
  have sum := e.withdrawnSum
  exact UInt64.toNat_inj.mp (by
    simp only [ClaimLockedExecution.nextStatus]
    omega)

end

/-! ### One claimant, then all -/

/-- A clock at which claims are enabled and vesting has ended. -/
def Ended (first : MerkleDistributor) (clock : Clock) : Prop :=
  first.enableSlot ≤ clock.slot ∧ first.endTs ≤ clock.unixTimestamp

/-- The claim of a node and, some time after it, its withdrawal are among the transactions. -/
def Swept (key : Pubkey) (first : MerkleDistributor) (receiver : Pubkey → Pubkey)
    (txs : List Transaction) (node : TreeNode) : Prop :=
  ∃ claimed withdrawn, Ended first claimed ∧ Ended first withdrawn ∧
    [sweepClaim key first.tokenVault receiver claimed node,
      sweepWithdrawal key first.tokenVault receiver withdrawn node].Sublist txs

section
variable {rt : Runtime} {key : Pubkey} {tree : AirdropMerkleTree} {start world : World}
  {first : MerkleDistributor} {receiver : Pubkey → Pubkey} {clock : Clock} {node : TreeNode}

/-- The claimant's token account, as the sweep finds it. -/
theorem Sweeping.account (sweeping : Sweeping rt key tree start first world)
    (holder : start.tokens.holder (receiver node.claimant) = some (first.mint, node.claimant)) :
    ∃ account, world.tokens.accounts (receiver node.claimant) = some account ∧
      account.owner = node.claimant ∧ account.mint = first.mint := by
  rw [← sweeping.holders] at holder
  obtain ⟨account, held, mint, owner⟩ := holder_eq_some.mp holder
  exact ⟨account, held, owner, mint⟩

/-- After its claim a claimant has a claim status. -/
theorem Sweeping.opened (sweeping : Sweeping rt key tree start first world)
    (holder : start.tokens.holder (receiver node.claimant) = some (first.mint, node.claimant))
    (listed : node ∈ tree.treeNodes) (ripe : Ended first clock)
    (admissible : Admissible rt (sweepClaim key first.tokenVault receiver clock node)) :
    ∃ status, (apply rt world (sweepClaim key first.tokenVault receiver clock node)).claimStatuses
      node.claimant key = some status := by
  cases held : world.claimStatuses node.claimant key with
  | some status => exact status_stays held
  | none =>
    obtain ⟨distributor, claimants, solvent, terms, _⟩ := sweeping.solvent
    obtain ⟨same, _, _, _, slot⟩ := uncounted_terms terms
    obtain ⟨account, found, owner, mint⟩ := sweeping.account holder
    have ordered := (sweeping.wellFormed.schedule _ _ solvent.found).1
    have ended := Int64.le_iff_toInt_le.mp ripe.2
    rw [← same.endTs] at ended
    have begun : distributor.startTs ≤ clock.unixTimestamp := Int64.le_iff_toInt_le.mpr (by omega)
    obtain ⟨after, events, success⟩ := @Solvent.newClaim_succeeds rt world tree key distributor
      claimants (sweepClaim key first.tokenVault receiver clock node) solvent sweeping.wellFormed
      admissible (slot ▸ ripe.1) begun node listed held _ _ found owner
      (mint.trans same.mint.symm) (List.mem_singleton.mpr rfl) (by rw [same.tokenVault]; rfl)
    rw [apply_of_ok success]
    simp only [process, sweepClaim, claimOf, dispatch] at success
    obtain ⟨e, rfl, _⟩ := newClaim_ok_iff.mp success
    exact ⟨e.status, by simp [NewClaimExecution.after]⟩

/-- The withdrawal of a claimant with a claim status leaves nothing to withdraw. -/
theorem Sweeping.exhausted (sweeping : Sweeping rt key tree start first world)
    (holder : start.tokens.holder (receiver node.claimant) = some (first.mint, node.claimant))
    (ripe : Ended first clock)
    (admissible : Admissible rt (sweepWithdrawal key first.tokenVault receiver clock node))
    {status : ClaimStatus} (held : world.claimStatuses node.claimant key = some status) :
    FullyPaid key (apply rt world (sweepWithdrawal key first.tokenVault receiver clock node))
      node.claimant := by
  obtain ⟨distributor, claimants, solvent, terms, _⟩ := sweeping.solvent
  obtain ⟨same, _, _, _, slot⟩ := uncounted_terms terms
  obtain ⟨account, found, owner, mint⟩ := sweeping.account holder
  have ordered := (sweeping.wellFormed.schedule _ _ solvent.found).1
  have ended := Int64.le_iff_toInt_le.mp ripe.2
  rw [← same.endTs] at ended
  have bound := (sweeping.wellFormed.status _ _ _ held).2.2.2
  rcases Nat.eq_or_lt_of_le bound with all | some
  · exact FullyPaid.step ⟨status, held, UInt64.toNat_inj.mp all⟩
  have due : status.lockedAmountWithdrawn.toNat < released status.lockedAmount.toNat
      distributor.startTs.toInt distributor.endTs.toInt clock.unixTimestamp.toInt := by
    rw [released_after _ (by omega) ended]
    exact some
  obtain ⟨after, events, success⟩ := @Solvent.claimLocked_succeeds rt world tree key distributor
    claimants (sweepWithdrawal key first.tokenVault receiver clock node) solvent
    sweeping.wellFormed admissible (slot ▸ ripe.1) _ status held due _ _
    found owner (mint.trans same.mint.symm) (List.mem_singleton.mpr rfl)
    (by rw [same.tokenVault]; rfl)
  rw [apply_of_ok success]
  simp only [process, sweepWithdrawal, dispatch] at success
  obtain ⟨e, rfl, _⟩ := claimLocked_ok_iff.mp success
  obtain rfl : e.distributor = distributor := Option.some.inj (e.found.symm.trans solvent.found)
  exact ⟨e.nextStatus, by simp [ClaimLockedExecution.after], e.exhausts ordered ended⟩

/-- A claimant whose claim and withdrawal are among the transactions is paid at their end: the
claim leaves a status, which stays until the withdrawal exhausts it. -/
theorem Sweeping.paid (sweeping : Sweeping rt key tree start first world)
    (holder : start.tokens.holder (receiver node.claimant) = some (first.mint, node.claimant))
    (listed : node ∈ tree.treeNodes) {txs : List Transaction}
    (claiming : ∀ tx ∈ txs, Claiming rt key tree tx) (swept : Swept key first receiver txs node) :
    FullyPaid key (Source.run rt world txs) node.claimant := by
  obtain ⟨claimed, withdrawn, ripe, ripeLater, inOrder⟩ := swept
  obtain ⟨front, back, rfl, early, late⟩ := List.cons_sublist_iff.mp inOrder
  obtain ⟨before, between, rfl⟩ := List.append_of_mem early
  obtain ⟨meanwhile, after, rfl⟩ := List.append_of_mem (List.singleton_sublist.mp late)
  simp only [List.mem_append, List.mem_cons, or_imp, forall_and, forall_eq] at claiming
  obtain ⟨⟨ofBefore, ofClaim, ofBetween⟩, ofMeanwhile, ofWithdrawal, _⟩ := claiming
  simp only [Source.run, replay_append, replay_cons]
  -- up to the claim, up to the withdrawal, and to the end
  have reached := sweeping.run ofBefore
  obtain ⟨status, opened⟩ := reached.opened holder listed ripe ofClaim.admissible
  have kept := ((reached.step ofClaim).run ofBetween).run ofMeanwhile
  have stays : ∀ (world : World) (txs : List Transaction),
      (∃ status, world.claimStatuses node.claimant key = some status) →
        ∃ status, (Source.run rt world txs).claimStatuses node.claimant key = some status :=
    fun world txs => replay_invariant (apply rt) (fun _ => True)
      (fun world => ∃ status, world.claimStatuses node.claimant key = some status)
      (fun _ _ _ held => status_stays held.choose_spec) world txs (by simp)
  obtain ⟨last, held⟩ := stays _ meanwhile (stays _ between ⟨status, opened⟩)
  have paid := kept.exhausted holder ripeLater ofWithdrawal.admissible held
  exact paid.run after

end

section
variable {rt : Runtime} {key : Pubkey} {tree : AirdropMerkleTree} {world : World}
  {distributor : MerkleDistributor} {claimants : Finset Pubkey}

theorem FullyPaid.remaining {claimant : Pubkey} (paid : FullyPaid key world claimant) :
    world.remaining key claimant = 0 := by
  obtain ⟨status, found, exhausted⟩ := paid
  rw [Exhausted] at exhausted
  simp only [World.remaining, found, exhausted, Nat.sub_self]

end

end MultiDistributor.Source

import MultiDistributor.Guarantees.Authority

/-!
# When the two claim instructions pay

Both instructions check accounts, signatures, the switches of the distributor, the vault
and the cap, and both compute their amount from a release curve. Where nothing but the
curve can reject them, they pay what the curve says.
-/
namespace MultiDistributor.Source
open Lib.Checked Lib.LinearRelease Lib.TokenLedger

/-- A vault that holds enough can pay a signer's account of its mint. -/
theorem WellFormed.vault_pays {rt : Runtime} {world : World} {tx : Transaction}
    (wellFormed : WellFormed rt world) (admissible : Admissible rt tx) {key receiver : Pubkey}
    {distributor : MerkleDistributor} {account : TokenAccount Pubkey}
    (found : world.distributors key = some distributor)
    (vaultMint : ∃ vault, world.tokens.accounts distributor.tokenVault = some vault ∧
      vault.mint = distributor.mint)
    (held : world.tokens.accounts receiver = some account)
    (signed : account.owner ∈ tx.signers) (mint : account.mint = distributor.mint)
    (amount : UInt64) (enough : amount.toNat ≤ world.tokens.balance distributor.tokenVault) :
    ∃ vault tokens, world.tokens.accounts distributor.tokenVault = some vault ∧
      vault.owner = key ∧
      world.tokens.transfer distributor.tokenVault receiver key amount = .ok tokens := by
  obtain ⟨vault, vaultFound, vaultMint⟩ := vaultMint
  obtain ⟨_, again, owner⟩ := wellFormed.vault key distributor found
  cases again.symm.trans vaultFound
  have apart := wellFormed.receiver_ne_vault admissible found held signed
  have sameMint : vault.mint = account.mint := vaultMint.trans mint.symm
  have fits := wellFormed.conserved.pair_fits vaultFound held apart sameMint
  rw [balance_of_account vaultFound] at enough
  obtain ⟨tokens, moved⟩ := transfer_total world.tokens amount vaultFound held sameMint
    (by omega) (by omega)
  exact ⟨vault, tokens, vaultFound, owner, owner ▸ moved⟩

/-- `amount` tokens went from the vault to the receiver. -/
structure Paid (before after : World) (vault receiver : Pubkey) (amount : Nat) : Prop where
  taken : before.tokens.balance vault = after.tokens.balance vault + amount
  given : after.tokens.balance receiver = before.tokens.balance receiver + amount

theorem Paid.nothing (world : World) (vault receiver : Pubkey) :
    Paid world world vault receiver 0 :=
  ⟨rfl, rfl⟩

theorem Paid.unique {before after : World} {vault receiver : Pubkey} {first second : Nat}
    (one : Paid before after vault receiver first)
    (other : Paid before after vault receiver second) : first = second := by
  have := one.taken
  have := other.taken
  omega

theorem Paid.trans {first second third : World} {vault receiver : Pubkey} {early late : Nat}
    (before : Paid first second vault receiver early)
    (after : Paid second third vault receiver late) :
    Paid first third vault receiver (early + late) where
  taken := by rw [before.taken, after.taken]; omega
  given := by rw [after.given, before.given]; omega

/-! ### `claim_locked` -/

/-- What the release curve of a distributor has reached for a claim status. -/
def dueAt (distributor : MerkleDistributor) (status : ClaimStatus) (now : Int64) : Nat :=
  released status.lockedAmount.toNat distributor.startTs.toInt distributor.endTs.toInt now.toInt

/-- Nothing but the release curve can reject the withdrawal: accounts and signature are
right, the distributor is live and enabled, and vault and cap cover what is due. -/
structure Unobstructed (rt : Runtime) (world : World) (tx : Transaction)
    (accounts : ClaimLockedAccounts) (distributor : MerkleDistributor) (status : ClaimStatus) :
    Prop where
  sent : tx.action = .invoke (.claimLocked accounts)
  found : world.distributors accounts.distributor = some distributor
  statusFound : world.claimStatuses accounts.claimant accounts.distributor = some status
  signed : accounts.claimant ∈ tx.signers
  vaultAddress : accounts.fromAccount = distributor.tokenVault
  vaultMint : ∃ vault, world.tokens.accounts distributor.tokenVault = some vault ∧
    vault.mint = distributor.mint
  receiver : ∃ account, world.tokens.accounts accounts.toAccount = some account ∧
    account.owner = accounts.claimant ∧ account.mint = distributor.mint
  live : distributor.clawedBack = false
  enabled : distributor.enableSlot ≤ tx.clock.slot
  window : FitsI64 (distributor.endTs.toInt - distributor.startTs.toInt)
  funded : dueAt distributor status tx.clock.unixTimestamp ≤
    status.lockedAmountWithdrawn.toNat + world.tokens.balance distributor.tokenVault
  cap : distributor.totalAmountClaimed.toNat + dueAt distributor status tx.clock.unixTimestamp ≤
    distributor.maxTotalClaim.toNat + status.lockedAmountWithdrawn.toNat

section
variable {rt : Runtime} {world : World} {tx : Transaction} {accounts : ClaimLockedAccounts}
  {distributor : MerkleDistributor} {status : ClaimStatus}

theorem Unobstructed.loaded (attempt : Unobstructed rt world tx accounts distributor status)
    (wellFormed : WellFormed rt world) :
    accounts.tryAccounts rt tx.signers world = .ok (distributor, status) := by
  obtain ⟨vault, vaultFound, owner⟩ := wellFormed.vault _ _ attempt.found
  obtain ⟨account, receiverFound, receiverOwner, _⟩ := attempt.receiver
  exact ClaimLockedAccounts.tryAccounts_ok_iff.mpr ⟨attempt.found, attempt.statusFound,
    attempt.signed, attempt.vaultAddress.trans (wellFormed.associated _ _ attempt.found),
    attempt.vaultAddress, vault, account, attempt.vaultAddress ▸ vaultFound, receiverFound, owner,
    receiverOwner⟩

/-- With nothing due, the withdrawal is rejected for that reason. -/
theorem Unobstructed.rejected (attempt : Unobstructed rt world tx accounts distributor status)
    (wellFormed : WellFormed rt world)
    (settled : dueAt distributor status tx.clock.unixTimestamp =
      status.lockedAmountWithdrawn.toNat) :
    process rt world tx = .error (.custom .insufficientUnlockedTokens) := by
  have nothing : status.amountWithdrawable tx.clock.unixTimestamp distributor.startTs
      distributor.endTs = .ok 0 := by
    refine amountWithdrawable_ok_iff.mpr ⟨fun _ _ => attempt.window, ?_⟩
    rw [show (0 : UInt64).toNat = 0 from rfl, Nat.zero_add]
    exact settled
  simp only [process, attempt.sent, dispatch, claimLocked, attempt.loaded wellFormed]
  change handleClaimLocked rt tx.clock world accounts distributor status = _
  simp only [handleClaimLocked, require, if_pos attempt.live, if_pos attempt.enabled, nothing]
  rfl

/-- With something due, the withdrawal pays it. -/
theorem Unobstructed.pays (attempt : Unobstructed rt world tx accounts distributor status)
    (wellFormed : WellFormed rt world) (admissible : Admissible rt tx)
    (due : status.lockedAmountWithdrawn.toNat <
      dueAt distributor status tx.clock.unixTimestamp) :
    ∃ e : ClaimLockedExecution rt tx.signers tx.clock world accounts,
      e.distributor = distributor ∧ e.status = status := by
  have bound := released_le status.lockedAmount.toNat distributor.startTs.toInt
    distributor.endTs.toInt tx.clock.unixTimestamp.toInt
  have width := status.lockedAmount.toNat_lt
  have funded := attempt.funded
  have cap := attempt.cap
  unfold dueAt at due funded cap
  obtain ⟨account, receiverFound, receiverOwner, mint⟩ := attempt.receiver
  obtain ⟨release, releaseValue⟩ := exists_u64 (Nat.lt_of_le_of_lt bound width)
  obtain ⟨amount, _, difference⟩ :=
    checkedSub_total release status.lockedAmountWithdrawn (by omega)
  obtain ⟨lockedAmountWithdrawn, _, withdrawnSum⟩ :=
    checkedAdd_total status.lockedAmountWithdrawn amount (by omega)
  have capWidth := distributor.maxTotalClaim.toNat_lt
  obtain ⟨totalAmountClaimed, _, claimedSum⟩ :=
    checkedAdd_total distributor.totalAmountClaimed amount (by omega)
  obtain ⟨vault, tokens, vaultFound, vaultOwner, moved⟩ := wellFormed.vault_pays admissible
    attempt.found attempt.vaultMint receiverFound (receiverOwner ▸ attempt.signed) mint amount
    (by omega)
  rw [← attempt.vaultAddress] at vaultFound moved
  exact ⟨{ distributor, status, vault, receiver := account, amount, lockedAmountWithdrawn
           totalAmountClaimed, tokens, found := attempt.found, statusFound := attempt.statusFound
           vaultFound, receiverFound, signed := attempt.signed, vaultOwner
           vaultAssociated :=
            attempt.vaultAddress.trans (wellFormed.associated _ _ attempt.found)
           vaultAddress := attempt.vaultAddress, receiverOwner, live := attempt.live
           enabled := attempt.enabled, window := fun _ _ => attempt.window
           release := by omega, positive := by omega
           seeds := wellFormed.address _ _ attempt.found, moved, withdrawnSum
           withinLocked := by omega, claimedSum, cap := by omega }, rfl, rfl⟩

theorem apply_claimLocked_cases (sent : tx.action = .invoke (.claimLocked accounts)) :
    apply rt world tx = world ∨
      ∃ e : ClaimLockedExecution rt tx.signers tx.clock world accounts,
        apply rt world tx = e.after := by
  cases outcome : process rt world tx with
  | error failure => exact .inl (apply_of_error outcome)
  | ok result =>
    have success := outcome
    simp only [process, sent, dispatch] at success
    obtain ⟨e, after, _⟩ := claimLocked_ok_iff.mp success
    exact .inr ⟨e, (apply_of_ok outcome).trans after⟩

theorem ClaimLockedExecution.paid (e : ClaimLockedExecution rt tx.signers tx.clock world accounts)
    (wellFormed : WellFormed rt world) (admissible : Admissible rt tx) :
    Paid world e.after e.distributor.tokenVault accounts.toAccount e.amount.toNat := by
  obtain ⟨taken, given⟩ := wellFormed.payout_balances admissible e.found e.vaultAddress
    e.receiverFound (e.receiverOwner ▸ e.signed) e.moved
  exact ⟨taken, given⟩

/-- Paying or rejected, the attempt moves what `amount_withdrawable` says, an error being zero. -/
theorem Unobstructed.paid (attempt : Unobstructed rt world tx accounts distributor status)
    (wellFormed : WellFormed rt world) (admissible : Admissible rt tx) :
    Paid world (apply rt world tx) distributor.tokenVault accounts.toAccount
      ((status.amountWithdrawable tx.clock.unixTimestamp distributor.startTs
        distributor.endTs).toOption.getD 0).toNat := by
  by_cases due : status.lockedAmountWithdrawn.toNat <
      dueAt distributor status tx.clock.unixTimestamp
  · obtain ⟨e, rfl, rfl⟩ := attempt.pays wellFormed admissible due
    rw [apply_of_ok (e.success attempt.sent),
      amountWithdrawable_ok_iff.mpr ⟨e.window, e.release⟩]
    exact e.paid wellFormed admissible
  · have idle : apply rt world tx = world := by
      rcases apply_claimLocked_cases attempt.sent with same | ⟨e, _⟩
      · exact same
      cases e.found.symm.trans attempt.found
      cases e.statusFound.symm.trans attempt.statusFound
      have release := e.release
      have positive := e.positive
      unfold dueAt at due
      omega
    have nothing : ((status.amountWithdrawable tx.clock.unixTimestamp distributor.startTs
        distributor.endTs).toOption.getD 0).toNat = 0 := by
      cases computed : status.amountWithdrawable tx.clock.unixTimestamp distributor.startTs
          distributor.endTs with
      | error reason => rfl
      | ok amount =>
        have sum := (amountWithdrawable_ok_iff.mp computed).2
        unfold dueAt at due
        change amount.toNat = 0
        omega
    rw [idle, nothing]
    exact .nothing _ _ _

end

/-! ### `new_claim` -/

/-- What a claim at `now` pays of the unlocked amount; before the start it is rejected. -/
def claimShare (amount : Nat) (start stop now : Int) : Nat :=
  if start ≤ now then unlockedRelease amount start stop now else 0

theorem claimShare_le (amount : Nat) (start stop now : Int) :
    claimShare amount start stop now ≤ amount := by
  unfold claimShare
  split
  · exact unlockedRelease_le amount start stop now
  · exact Nat.zero_le amount

/-- Nothing but the start of the schedule can reject the claim: the claimant has not claimed,
the leaf is proved, accounts and signature are right, the distributor is live and enabled,
and vault, cap and node count have room. -/
structure Claimable (rt : Runtime) (world : World) (tx : Transaction)
    (accounts : NewClaimAccounts) (args : NewClaimArgs) (distributor : MerkleDistributor) :
    Prop where
  sent : tx.action = .invoke (.newClaim accounts args)
  found : world.distributors accounts.distributor = some distributor
  vacant : world.claimStatuses accounts.claimant accounts.distributor = none
  signed : accounts.claimant ∈ tx.signers
  vaultAddress : accounts.fromAccount = distributor.tokenVault
  vaultMint : ∃ vault, world.tokens.accounts distributor.tokenVault = some vault ∧
    vault.mint = distributor.mint
  receiver : ∃ account, world.tokens.accounts accounts.toAccount = some account ∧
    account.owner = accounts.claimant ∧ account.mint = distributor.mint
  live : distributor.clawedBack = false
  enabled : distributor.enableSlot ≤ tx.clock.slot
  window : FitsI64 (distributor.endTs.toInt - distributor.startTs.toInt)
  proved : verify rt.hash args.proof distributor.root
    (claimLeaf rt.hash accounts.claimant args.amountUnlocked args.amountLocked) = true
  room : distributor.numNodesClaimed.toNat < distributor.maxNumNodes.toNat
  funded : unlockedRelease args.amountUnlocked.toNat distributor.startTs.toInt
    distributor.endTs.toInt tx.clock.unixTimestamp.toInt ≤
      world.tokens.balance distributor.tokenVault
  cap : distributor.totalAmountClaimed.toNat + distributor.totalAmountForgone.toNat +
    args.amountUnlocked.toNat ≤ distributor.maxTotalClaim.toNat

section
variable {rt : Runtime} {world : World} {tx : Transaction} {accounts : NewClaimAccounts}
  {args : NewClaimArgs} {distributor : MerkleDistributor}

/-- From the start on, the claim pays the share released by then. -/
theorem Claimable.pays (claim : Claimable rt world tx accounts args distributor)
    (wellFormed : WellFormed rt world) (admissible : Admissible rt tx)
    (begun : distributor.startTs ≤ tx.clock.unixTimestamp) :
    ∃ e : NewClaimExecution rt tx.signers tx.clock world accounts args,
      e.distributor = distributor := by
  have capWidth := distributor.maxTotalClaim.toNat_lt
  have nodesWidth := distributor.maxNumNodes.toNat_lt
  have share := unlockedRelease_le args.amountUnlocked.toNat distributor.startTs.toInt
    distributor.endTs.toInt tx.clock.unixTimestamp.toInt
  have room := claim.room
  have funded := claim.funded
  have cap := claim.cap
  obtain ⟨account, receiverFound, receiverOwner, mint⟩ := claim.receiver
  obtain ⟨claimed, claimedValue⟩ :=
    exists_u64 (Nat.lt_of_le_of_lt share args.amountUnlocked.toNat_lt)
  obtain ⟨forgone, _, rest⟩ := checkedSub_total args.amountUnlocked claimed (by omega)
  obtain ⟨numNodesClaimed, counted⟩ :=
    exists_u64 (show distributor.numNodesClaimed.toNat + 1 < 2 ^ 64 by omega)
  obtain ⟨totalAmountClaimed, _, claimedSum⟩ :=
    checkedAdd_total distributor.totalAmountClaimed claimed (by omega)
  obtain ⟨totalAmountForgone, _, forgoneSum⟩ :=
    checkedAdd_total distributor.totalAmountForgone forgone (by omega)
  obtain ⟨vault, tokens, vaultFound, vaultOwner, moved⟩ := wellFormed.vault_pays admissible
    claim.found claim.vaultMint receiverFound (receiverOwner ▸ claim.signed) mint claimed
    (by omega)
  rw [← claim.vaultAddress] at vaultFound moved
  exact ⟨{ distributor, vault, receiver := account, claimed, forgone, numNodesClaimed
           totalAmountClaimed, totalAmountForgone, tokens, found := claim.found, vaultFound
           receiverFound, signed := claim.signed, vacant := claim.vacant, vaultOwner
           vaultAssociated := claim.vaultAddress.trans (wellFormed.associated _ _ claim.found)
           vaultAddress := claim.vaultAddress, receiverOwner, receiverMint := mint
           live := claim.live, enabled := claim.enabled, begun, counted, room := by omega
           proved := claim.proved, window := fun _ => claim.window, share := claimedValue, rest
           seeds := wellFormed.address _ _ claim.found, moved, claimedSum, forgoneSum
           cap := by omega }, rfl⟩

theorem apply_newClaim_cases (sent : tx.action = .invoke (.newClaim accounts args)) :
    apply rt world tx = world ∨
      ∃ e : NewClaimExecution rt tx.signers tx.clock world accounts args,
        apply rt world tx = e.after := by
  cases outcome : process rt world tx with
  | error failure => exact .inl (apply_of_error outcome)
  | ok result =>
    have success := outcome
    simp only [process, sent, dispatch] at success
    obtain ⟨e, after, _⟩ := newClaim_ok_iff.mp success
    exact .inr ⟨e, (apply_of_ok outcome).trans after⟩

/-- Before the start the claim changes nothing. -/
theorem Claimable.waits (claim : Claimable rt world tx accounts args distributor)
    (early : ¬ distributor.startTs ≤ tx.clock.unixTimestamp) : apply rt world tx = world := by
  rcases apply_newClaim_cases claim.sent with same | ⟨e, _⟩
  · exact same
  cases e.found.symm.trans claim.found
  exact absurd e.begun early

theorem NewClaimExecution.paid
    (e : NewClaimExecution rt tx.signers tx.clock world accounts args)
    (wellFormed : WellFormed rt world) (admissible : Admissible rt tx) :
    Paid world e.after e.distributor.tokenVault accounts.toAccount e.claimed.toNat := by
  obtain ⟨taken, given⟩ := wellFormed.payout_balances admissible e.found e.vaultAddress
    e.receiverFound (e.receiverOwner ▸ e.signed) e.moved
  exact ⟨taken, given⟩

/-- Paying or rejected, the claim moves the share of its moment. -/
theorem Claimable.paid (claim : Claimable rt world tx accounts args distributor)
    (wellFormed : WellFormed rt world) (admissible : Admissible rt tx) :
    Paid world (apply rt world tx) distributor.tokenVault accounts.toAccount
      (claimShare args.amountUnlocked.toNat distributor.startTs.toInt distributor.endTs.toInt
        tx.clock.unixTimestamp.toInt) := by
  unfold claimShare
  by_cases begun : distributor.startTs ≤ tx.clock.unixTimestamp
  · obtain ⟨e, rfl⟩ := claim.pays wellFormed admissible begun
    rw [if_pos (Int64.le_iff_toInt_le.mp begun), apply_of_ok (e.success claim.sent), ← e.share]
    exact e.paid wellFormed admissible
  · rw [if_neg (mt Int64.le_iff_toInt_le.mpr begun), claim.waits begun]
    exact .nothing _ _ _

end

/-! ### One after the other -/

/-- The accounts of a withdrawal that follows a claim. -/
def NewClaimAccounts.withdrawal (accounts : NewClaimAccounts) : ClaimLockedAccounts where
  distributor := accounts.distributor
  fromAccount := accounts.fromAccount
  toAccount := accounts.toAccount
  claimant := accounts.claimant

/-- A claim and, at the same time, a withdrawal of what is released of the locked amount;
vault and cap cover both. -/
structure ClaimThenWithdraw (rt : Runtime) (world : World) (claimTx lockedTx : Transaction)
    (accounts : NewClaimAccounts) (args : NewClaimArgs) (distributor : MerkleDistributor) :
    Prop where
  claim : Claimable rt world claimTx accounts args distributor
  sent : lockedTx.action = .invoke (.claimLocked accounts.withdrawal)
  sameTime : lockedTx.clock.unixTimestamp = claimTx.clock.unixTimestamp
  signed : accounts.claimant ∈ lockedTx.signers
  enabled : distributor.enableSlot ≤ lockedTx.clock.slot
  funded : unlockedRelease args.amountUnlocked.toNat distributor.startTs.toInt
      distributor.endTs.toInt claimTx.clock.unixTimestamp.toInt +
    released args.amountLocked.toNat distributor.startTs.toInt distributor.endTs.toInt
      claimTx.clock.unixTimestamp.toInt ≤ world.tokens.balance distributor.tokenVault
  cap : distributor.totalAmountClaimed.toNat + unlockedRelease args.amountUnlocked.toNat
      distributor.startTs.toInt distributor.endTs.toInt claimTx.clock.unixTimestamp.toInt +
    released args.amountLocked.toNat distributor.startTs.toInt distributor.endTs.toInt
      claimTx.clock.unixTimestamp.toInt ≤ distributor.maxTotalClaim.toNat

section
variable {rt : Runtime} {world : World} {claimTx lockedTx : Transaction}
  {accounts : NewClaimAccounts} {args : NewClaimArgs} {distributor : MerkleDistributor}

/-- The withdrawal finds the claim status of the claim and an unobstructed way. -/
theorem ClaimThenWithdraw.follows
    (both : ClaimThenWithdraw rt world claimTx lockedTx accounts args distributor)
    (wellFormed : WellFormed rt world) (admissible : Admissible rt claimTx)
    (e : NewClaimExecution rt claimTx.signers claimTx.clock world accounts args)
    (same : e.distributor = distributor) :
    Unobstructed rt e.after lockedTx accounts.withdrawal e.next e.status := by
  subst same
  obtain ⟨taken, _⟩ := e.paid wellFormed admissible
  have funded := both.funded
  have cap := both.cap
  have share := e.share
  have claimedSum := e.claimedSum
  have due : dueAt e.next e.status lockedTx.clock.unixTimestamp =
      released args.amountLocked.toNat e.distributor.startTs.toInt e.distributor.endTs.toInt
        claimTx.clock.unixTimestamp.toInt := by
    rw [both.sameTime]
    rfl
  obtain ⟨vault, vaultFound, vaultMint⟩ := both.claim.vaultMint
  obtain ⟨account, receiverFound, owner, mint⟩ := both.claim.receiver
  obtain ⟨left, vaultKept⟩ := transfer_retains e.distributor.tokenVault e.moved vault vaultFound
  obtain ⟨held, receiverKept⟩ := transfer_retains accounts.toAccount e.moved account receiverFound
  exact
    { sent := both.sent, found := e.after_record
      statusFound := by rw [NewClaimAccounts.withdrawal, e.after_statuses, if_pos rfl]
      signed := both.signed, vaultAddress := both.claim.vaultAddress
      vaultMint := ⟨_, vaultKept, vaultMint⟩, receiver := ⟨_, receiverKept, owner, mint⟩
      live := both.claim.live, enabled := both.enabled, window := both.claim.window
      funded := by
        rw [due]
        change _ ≤ 0 + e.after.tokens.balance e.distributor.tokenVault
        omega
      cap := by
        rw [due]
        change e.totalAmountClaimed.toNat + _ ≤ e.distributor.maxTotalClaim.toNat + 0
        omega }

/-- Together they pay the claimed share and the release of the locked amount. -/
theorem ClaimThenWithdraw.paid
    (both : ClaimThenWithdraw rt world claimTx lockedTx accounts args distributor)
    (wellFormed : WellFormed rt world) (admissible : Admissible rt claimTx)
    (admissibleLocked : Admissible rt lockedTx) :
    Paid world (run rt world [claimTx, lockedTx]) distributor.tokenVault accounts.toAccount
      (claimShare args.amountUnlocked.toNat distributor.startTs.toInt distributor.endTs.toInt
          claimTx.clock.unixTimestamp.toInt +
        released args.amountLocked.toNat distributor.startTs.toInt distributor.endTs.toInt
          claimTx.clock.unixTimestamp.toInt) := by
  change Paid world (apply rt (apply rt world claimTx) lockedTx) _ _ _
  by_cases begun : distributor.startTs ≤ claimTx.clock.unixTimestamp
  · obtain ⟨e, rfl⟩ := both.claim.pays wellFormed admissible begun
    have next := both.follows wellFormed admissible e rfl
    have after : apply rt world claimTx = e.after := apply_of_ok (e.success both.claim.sent)
    have afterWellFormed : WellFormed rt e.after := after ▸ wellFormed.after_tx admissible
    have second := next.paid afterWellFormed admissibleLocked
    obtain ⟨due, dueValue⟩ := exists_u64 (Nat.lt_of_le_of_lt
      (released_le args.amountLocked.toNat e.distributor.startTs.toInt e.distributor.endTs.toInt
        claimTx.clock.unixTimestamp.toInt) args.amountLocked.toNat_lt)
    have withdrawable : e.status.amountWithdrawable lockedTx.clock.unixTimestamp e.next.startTs
        e.next.endTs = .ok due := by
      rw [both.sameTime]
      exact amountWithdrawable_ok_iff.mpr ⟨fun _ _ => both.claim.window, dueValue.symm⟩
    rw [withdrawable] at second
    rw [after, claimShare, if_pos (Int64.le_iff_toInt_le.mp begun), ← e.share, ← dueValue]
    exact (e.paid wellFormed admissible).trans second
  · have early := mt Int64.le_iff_toInt_le.mpr begun
    have idle : apply rt world lockedTx = world := by
      rcases apply_claimLocked_cases both.sent with same | ⟨e, _⟩
      · exact same
      · cases both.claim.vacant.symm.trans e.statusFound
    rw [both.claim.waits begun, idle, claimShare, if_neg early,
      released_before _ _ (Int.not_le.mp early)]
    exact .nothing _ _ _

end

end MultiDistributor.Source

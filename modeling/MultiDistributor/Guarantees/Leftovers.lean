import MultiDistributor.Guarantees.Claimable
import MultiDistributor.Guarantees.Incarnations

/-!
# Claim statuses left behind

`close_claim_status` panics, so the claim statuses of a closable distributor are still there
when a permanent one is created at its address. A status with nothing left to withdraw does no
harm: the claims of its owner fail, and no other transaction reads it. Forgetting such statuses,
together with the attempts of their owners, turns every run into one on a clean address, and
every owed leaf stays claimable. A status that has locked tokens left is paid from the new
vault, and leaves too little for the tree.
-/
namespace MultiDistributor.Source
open Lib.Checked Lib.TokenLedger Lib.LinearRelease Lib.Replay
  Lib.ByteString Guarantees.MerkleProofs

/-- The world without the claim statuses that the old claimants have at the address. -/
def World.forget (world : World) (key : Pubkey) (old : Pubkey → Bool) : World :=
  { world with claimStatuses := fun claimant distributor =>
      if distributor = key ∧ old claimant = true then none
      else world.claimStatuses claimant distributor }

/-- The transaction reads a claim status of an old claimant: a claim or a withdrawal at the
address. A `close_claim_status` reads one as well, and fails whatever it finds. -/
def Transaction.asksOld (tx : Transaction) (key : Pubkey) (old : Pubkey → Bool) : Bool :=
  match tx.action with
  | .invoke (.newClaim accounts _) => accounts.distributor = key && old accounts.claimant
  | .invoke (.claimLocked accounts) => accounts.distributor = key && old accounts.claimant
  | .invoke (.closeClaimStatus _) => true
  | _ => false

/-- Those who have a claim status at the address. -/
def World.statusHolder (world : World) (key claimant : Pubkey) : Bool :=
  (world.claimStatuses claimant key).isSome

/-- The old claimants have nothing left to withdraw. -/
def PaidOff (key : Pubkey) (old : Pubkey → Bool) (world : World) : Prop :=
  ∀ claimant, old claimant = true → FullyPaid key world claimant

/-- What is left of a state of a run with proposals. -/
def forgetting (key : Pubkey) (old : Pubkey → Bool) (state : World × AirdropMerkleTree) :
    World × AirdropMerkleTree :=
  (state.1.forget key old, state.2)

/-! ### One transaction -/

section
variable {rt : Runtime} {world : World} {tx : Transaction} {key : Pubkey} {old : Pubkey → Bool}
  {claimant distributor : Pubkey}

theorem forget_claimStatuses (other : ¬ (distributor = key ∧ old claimant = true)) :
    (world.forget key old).claimStatuses claimant distributor =
      world.claimStatuses claimant distributor :=
  if_neg other

theorem claimStatuses_of_forget {status : ClaimStatus}
    (found : (world.forget key old).claimStatuses claimant distributor = some status) :
    world.claimStatuses claimant distributor = some status := by
  dsimp only [World.forget] at found
  split at found
  · cases found
  · exact found

theorem forget_statusHolders (world : World) (key claimant : Pubkey) :
    (world.forget key (world.statusHolder key)).claimStatuses claimant key = none := by
  cases found : world.claimStatuses claimant key with
  | none => simp [World.forget, found]
  | some status => simp [World.forget, World.statusHolder, found]

/-- What a claim of anybody else leaves behind. -/
theorem forget_claim (other : ¬ (distributor = key ∧ old claimant = true))
    (tokens : Ledger Pubkey) (status : ClaimStatus) (record : Option MerkleDistributor) :
    (((world.forget key old).setTokens tokens).setClaimStatus claimant distributor
        status).setDistributor distributor record =
      (((world.setTokens tokens).setClaimStatus claimant distributor status).setDistributor
        distributor record).forget key old := by
  simp only [World.forget, World.setTokens, World.setClaimStatus, World.setDistributor,
    World.mk.injEq, true_and, and_true]
  funext c d
  by_cases here : c = claimant ∧ d = distributor
  · obtain ⟨rfl, rfl⟩ := here
    rw [if_pos ⟨rfl, rfl⟩, if_neg other, if_pos ⟨rfl, rfl⟩]
  · rw [if_neg here, if_neg here]

/-- A transaction that reads no old status does the same without them. -/
theorem process_forget (quiet : tx.asksOld key old = false) :
    process rt (world.forget key old) tx =
      (fun result => (result.1.forget key old, result.2)) <$> process rt world tx := by
  unfold process
  cases sent : tx.action with
  | token operation =>
    simp only [map_bind]
    rfl
  | invoke instruction =>
    cases instruction with
    | newDistributor accounts args =>
      simp only [dispatch, newDistributor, handleNewDistributor, map_bind]
      rfl
    | newClaim accounts args =>
      have other : ¬ (accounts.distributor = key ∧ old accounts.claimant = true) := by
        simpa [Transaction.asksOld, sent] using quiet
      simp only [dispatch, newClaim, NewClaimAccounts.tryAccounts, handleNewClaim,
        forget_claimStatuses other, forget_claim other, map_bind]
      rfl
    | claimLocked accounts =>
      have other : ¬ (accounts.distributor = key ∧ old accounts.claimant = true) := by
        simpa [Transaction.asksOld, sent] using quiet
      simp only [dispatch, claimLocked, ClaimLockedAccounts.tryAccounts, handleClaimLocked,
        forget_claimStatuses other, forget_claim other, map_bind]
      rfl
    | setRoot accounts args =>
      simp only [dispatch, setRoot, handleSetRoot, map_bind]
      rfl
    | clawback accounts =>
      simp only [dispatch, clawback, handleClawback, map_bind]
      rfl
    | setEnableSlot accounts enableSlot =>
      simp only [dispatch, setEnableSlot, map_bind]
      rfl
    | setAdmin accounts admin =>
      simp only [dispatch, setAdmin, map_bind]
      rfl
    | setClawbackReceiver accounts receiver =>
      simp only [dispatch, setClawbackReceiver, map_bind]
      rfl
    | setClawbackStartTs accounts start =>
      simp only [dispatch, setClawbackStartTs, map_bind]
      rfl
    | closeDistributor accounts =>
      simp only [dispatch, closeDistributor, handleCloseDistributor, map_bind]
      rfl
    | closeClaimStatus accounts => simp [Transaction.asksOld, sent] at quiet

theorem apply_forget (quiet : tx.asksOld key old = false) :
    apply rt (world.forget key old) tx = (apply rt world tx).forget key old := by
  unfold apply
  rw [process_forget quiet]
  cases process rt world tx <;> rfl

theorem succeeds_forget (quiet : tx.asksOld key old = false) :
    Succeeds rt (world.forget key old) tx ↔ Succeeds rt world tx := by
  unfold Succeeds
  rw [process_forget quiet]
  cases process rt world tx with
  | error failure => simp
  | ok result =>
    obtain ⟨after, events⟩ := result
    simp

/-- Nobody gets anything out of an old status without anything left. -/
theorem asksOld_fails (paid : PaidOff key old world) (asks : tx.asksOld key old = true) :
    ¬ Succeeds rt world tx := by
  rintro ⟨after, events, success⟩
  cases process_execution success with
  | @newClaim accounts args sent e =>
    simp only [Transaction.asksOld, sent, Bool.and_eq_true, decide_eq_true_eq] at asks
    obtain ⟨rfl, earlier⟩ := asks
    obtain ⟨status, found, _⟩ := paid accounts.claimant earlier
    cases e.vacant.symm.trans found
  | @claimLocked accounts sent e =>
    simp only [Transaction.asksOld, sent, Bool.and_eq_true, decide_eq_true_eq] at asks
    obtain ⟨rfl, earlier⟩ := asks
    obtain ⟨status, found, exhausted⟩ := paid accounts.claimant earlier
    cases e.statusFound.symm.trans found
    exact e.not_exhausted exhausted
  | newDistributor sent e => simp [Transaction.asksOld, sent] at asks
  | setRoot sent e => simp [Transaction.asksOld, sent] at asks
  | clawback sent e => simp [Transaction.asksOld, sent] at asks
  | closeDistributor sent e => simp [Transaction.asksOld, sent] at asks
  | admin sent present signed authority update =>
    cases update <;> simp [Transaction.asksOld, sent] at asks
  | token sent done => simp [Transaction.asksOld, sent] at asks

end

/-! ### Runs -/

section
variable {rt : Runtime} {world : World} {tree : AirdropMerkleTree} {key : Pubkey}
  {old : Pubkey → Bool} {events : List Proposal}

theorem PaidOff.replay (paid : PaidOff key old world) (events : List Proposal) :
    PaidOff key old (Lib.Replay.replay (reRootStep rt key) (world, tree) events).1 := by
  intro claimant earlier
  rw [reRootStep_world]
  exact (paid claimant earlier).run _

/-- A step with a proposal, seen without the old statuses. -/
theorem reRootStep_forgetting {state : World × AirdropMerkleTree} {event : Proposal}
    (paid : PaidOff key old state.1) :
    forgetting key old (reRootStep rt key state event) =
      if !event.tx.asksOld key old then reRootStep rt key (forgetting key old state) event
      else forgetting key old state := by
  cases asks : event.tx.asksOld key old with
  | false =>
    have same : ReRoots rt key (state.1.forget key old) event.tx ↔
        ReRoots rt key state.1 event.tx := and_congr_left' (succeeds_forget asks)
    simp only [forgetting, reRootStep, apply_forget asks, same, Bool.not_false, if_true]
  | true =>
    have failed : ¬ Succeeds rt state.1 event.tx := asksOld_fails paid asks
    have stays : apply rt state.1 event.tx = state.1 :=
      ((apply_cases rt state.1 event.tx).resolve_right fun done => failed done.2).1
    simp only [reRootStep, stays, if_neg fun moves : ReRoots .. => failed moves.1,
      Bool.not_true, Bool.false_eq_true, if_false]

theorem views_forgetting (paid : PaidOff key old world) :
    Views (reRootStep rt key) (reRootStep rt key) (forgetting key old)
      (fun event => !event.tx.asksOld key old) (world, tree) events := by
  intro pre event member
  obtain ⟨before, _, _, rfl⟩ := (mem_transitions_iff _ _ _ _ _).mp member
  exact reRootStep_forgetting (paid.replay before)

theorem FaithfulStep.forget {event : Proposal} (faithful : FaithfulStep rt key world event)
    (quiet : event.tx.asksOld key old = false) :
    FaithfulStep rt key (world.forget key old) event where
  reRoot accounts args distributor sent here success found := by
    have duties :=
      faithful.reRoot accounts args distributor sent here ((succeeds_forget quiet).mp success) found
    exact { duties with
      keeps := fun claimant status held =>
        duties.keeps claimant status (claimStatuses_of_forget held) }
  clawback accounts sent here success :=
    faithful.clawback accounts sent here ((succeeds_forget quiet).mp success)

theorem FaithfulRun.forget (allowed : FaithfulRun rt key world tree events)
    (paid : PaidOff key old world) :
    FaithfulRun rt key (world.forget key old) tree
      (events.filter fun event => !event.tx.asksOld key old) where
  admissible event member := allowed.admissible event (List.mem_of_mem_filter member)
  faithful state event member := by
    have views := @views_forgetting rt world tree key old events paid
    obtain ⟨pass, kept, same⟩ := List.mem_map.mp (transitions_filter views ▸ member)
    obtain ⟨rfl, rfl⟩ := Prod.mk.inj same
    obtain ⟨passed, seen⟩ := List.mem_filter.mp kept
    exact (allowed.faithful pass.1 pass.2 passed).forget (by simpa using seen)
  distinct := by
    refine fun collision => allowed.distinct (collision.mono fun string member => ?_)
    simp only [runStrings, List.mem_append, List.mem_flatMap] at member ⊢
    refine member.imp_right fun later => ?_
    obtain ⟨event, kept, hashed⟩ := later
    exact ⟨event, List.mem_of_mem_filter kept, hashed⟩

theorem WellFormed.forget (wellFormed : WellFormed rt world) :
    WellFormed rt (world.forget key old) :=
  { wellFormed with
    status := fun claimant key status found =>
      wellFormed.status claimant key status (claimStatuses_of_forget found) }

theorem FundedCreation.deposits_quiet {tx : Transaction} {accounts : NewDistributorAccounts}
    {args : NewDistributorArgs} {deposits : List Transaction}
    (creation : FundedCreation rt world tx accounts args tree deposits) :
    ∀ deposit ∈ deposits, deposit.asksOld key old = false := by
  intro deposit member
  obtain ⟨_, operation, sent⟩ := creation.deposited deposit member
  simp [Transaction.asksOld, sent]

theorem run_forget {txs : List Transaction}
    (quiet : ∀ tx ∈ txs, tx.asksOld key old = false) :
    run rt (world.forget key old) txs = (run rt world txs).forget key old := by
  induction txs generalizing world with
  | nil => rfl
  | cons tx rest ih =>
    have later : ∀ other ∈ rest, other.asksOld key old = false := fun other member =>
      quiet other (List.mem_cons_of_mem _ member)
    have first := quiet tx List.mem_cons_self
    exact (congrArg (run rt · rest) (apply_forget first)).trans (ih later)

theorem FundedCreation.forget {tx : Transaction} {accounts : NewDistributorAccounts}
    {args : NewDistributorArgs} {deposits : List Transaction}
    (creation : FundedCreation rt world tx accounts args tree deposits) :
    FundedCreation rt (world.forget key old) tx accounts args tree deposits :=
  have fresh : tx.asksOld key old = false := by simp [Transaction.asksOld, creation.sent]
  { creation with
    success := (succeeds_forget fresh).mpr creation.success
    funded := by
      rw [apply_forget fresh, run_forget creation.deposits_quiet]
      exact creation.funded }

theorem OwedClaimable.of_forget {distributor : MerkleDistributor}
    (claimable : OwedClaimable rt key (world.forget key old) tree distributor)
    (paid : PaidOff key old world) :
    OwedClaimable rt key world tree distributor where
  newClaim tx receiver account node admissible enabled begun held owner mint signed listed fresh
      sent := by
    have recent : ¬ (key = key ∧ old node.claimant = true) := by
      rintro ⟨_, earlier⟩
      obtain ⟨status, found, _⟩ := paid node.claimant earlier
      cases fresh.symm.trans found
    refine (succeeds_forget (by simpa [Transaction.asksOld, sent, claimOf] using recent)).mp
      (claimable.newClaim tx receiver account node admissible enabled begun held owner mint signed
        listed ?_ sent)
    rw [forget_claimStatuses recent, fresh]
  claimLocked tx receiver account claimant status admissible enabled held owner mint signed claimed
      due sent := by
    have recent : ¬ (key = key ∧ old claimant = true) := by
      rintro ⟨_, earlier⟩
      obtain ⟨again, found, exhausted⟩ := paid claimant earlier
      cases claimed.symm.trans found
      have bound := released_le status.lockedAmount.toNat distributor.startTs.toInt
        distributor.endTs.toInt tx.clock.unixTimestamp.toInt
      rw [exhausted] at due
      omega
    refine (succeeds_forget (by simpa [Transaction.asksOld, sent] using recent)).mp
      (claimable.claimLocked tx receiver account claimant status admissible enabled held owner mint
        signed ?_ due sent)
    rw [forget_claimStatuses recent, claimed]

end

/-- Every owed leaf stays claimable, in any order and across re-roots, if the claim statuses
that the creation finds at the address have nothing left to withdraw. -/
theorem owed_leaf_stays_claimable {rt : Runtime} {world : World} (reachable : Reachable rt world)
    {tx : Transaction} {accounts : NewDistributorAccounts} {args : NewDistributorArgs}
    {tree : AirdropMerkleTree} {deposits : List Transaction}
    (creation : FundedCreation rt world tx accounts args tree deposits)
    (spent : ∀ claimant status, world.claimStatuses claimant accounts.distributor = some status →
      Exhausted status)
    {events : List Proposal}
    (allowed : FaithfulRun rt accounts.distributor (run rt (apply rt world tx) deposits) tree
      events) :
    let reached := replay (reRootStep rt accounts.distributor)
      (run rt (apply rt world tx) deposits, tree) events
    ∃ distributor, reached.1.distributors accounts.distributor = some distributor ∧
      OwedClaimable rt accounts.distributor reached.1 reached.2 distributor := by
  intro reached
  let key := accounts.distributor
  let start := run rt (apply rt world tx) deposits
  let old := world.statusHolder key
  have wellFormed : WellFormed rt start := creation.wellFormed reachable.wellFormed
  have paid : PaidOff key old start := by
    intro claimant earlier
    obtain ⟨status, found⟩ := Option.isSome_iff_exists.mp earlier
    have before : FullyPaid key world claimant := ⟨status, found, spent claimant status found⟩
    exact before.step.run deposits
  -- without the old statuses, the creation is one on a clean address
  have solvent := creation.forget.solvent (forget_statusHolders world key)
  rw [apply_forget (by simp [Transaction.asksOld, creation.sent]),
    run_forget creation.deposits_quiet] at solvent
  obtain ⟨distributor, claimants, solvent⟩ := solvent.run wellFormed.forget (allowed.forget paid)
  have seen : replay (reRootStep rt key) (forgetting key old (start, tree))
      (events.filter fun event => !event.tx.asksOld key old) = forgetting key old reached :=
    replay_filter (views_forgetting paid)
  rw [forgetting] at seen
  rw [seen] at solvent
  have final := allowed.wellFormed wellFormed
  exact ⟨distributor, solvent.found,
    (solvent.owedClaimable final.forget).of_forget (paid.replay events)⟩

namespace Sample

/-- The claim of the friend's leaf of 30 tokens, sent against a root of this leaf alone. -/
def smallClaim : Transaction :=
  send 0 [friend] (.invoke (claimOf pda vault friendPurse
    { claimant := friend, amount := 30, lockedAmount := some 0, proof := some [] }))

/-- A closable distributor for the friend's leaf is claimed and closed. -/
def closing : List Transaction :=
  openAccounts 30 ++
    [send 0 [] (.token (.initializeAccount friendPurse mint friend)),
      createFor friend 30 0 30 true, smallClaim, close]

/-- The two leaves that come next, as first deployed and as re-rooted. -/
def reopened : AirdropMerkleTree := pairOf 70 0
def reopenedLess : AirdropMerkleTree := pairOf 50 0

def closedWorld : World := run rt emptyWorld closing

def reopenedWorld : World := run rt (apply rt closedWorld (createTree reopened)) [fund 200]

/-- The friend claims once more, and the tree is exchanged during a pause. -/
def reopening : List Proposal :=
  [⟨smallClaim, reopened⟩, ⟨setSlot 0 u64Max, reopened⟩,
    ⟨reRoot 0 reopenedLess.merkleRoot reopened.merkleRoot 0 reopenedLess.maxTotalClaim,
      reopenedLess⟩,
    ⟨setSlot 0 0, reopenedLess⟩]

def pausedWorld : World := apply rt (apply rt reopenedWorld smallClaim) (setSlot 0 u64Max)

theorem not_by_other {tx : Transaction} {claimant : Pubkey} (other : claimant ≠ friend)
    (claims : tx.claimant.all (· = friend) = true) : tx.claimant ≠ some claimant := by
  intro asks
  rw [asks] at claims
  exact other (of_decide_eq_true claims)

theorem closed_statuses {claimant : Pubkey} (other : claimant ≠ friend) :
    closedWorld.claimStatuses claimant = fun _ => none := by
  have claims : closing.all (fun tx => tx.claimant.all (· = friend)) = true := rfl
  rw [closedWorld, run_claimStatus fun tx member =>
    not_by_other other (List.all_eq_true.mp claims tx member)]
  rfl

theorem paused_statuses {claimant : Pubkey} (other : claimant ≠ friend) :
    pausedWorld.claimStatuses claimant = fun _ => none := by
  have deposit : ∀ tx ∈ [fund 200], tx.claimant ≠ some claimant := by
    simp [fund, send, Transaction.claimant]
  rw [pausedWorld, apply_claimStatus (not_by_other other rfl),
    apply_claimStatus (not_by_other other rfl), reopenedWorld, run_claimStatus deposit,
    apply_claimStatus (not_by_other other rfl), closed_statuses other]

theorem closing_spent (claimant : Pubkey) (status : ClaimStatus)
    (found : closedWorld.claimStatuses claimant creationAccounts.distributor = some status) :
    Exhausted status := by
  by_cases other : claimant = friend
  · subst other
    have spent : (closedWorld.claimStatuses friend creationAccounts.distributor).all
        (fun status => status.lockedAmountWithdrawn = status.lockedAmount) = true := by
      decide +kernel
    rw [found] at spent
    exact show status.lockedAmountWithdrawn = status.lockedAmount from of_decide_eq_true spent
  · rw [closed_statuses other] at found
    cases found

/-- During the pause, the friend's old status is still the only one. -/
theorem paused_listed (claimant : Pubkey) (status : ClaimStatus)
    (found : pausedWorld.claimStatuses claimant pda = some status) :
    Lists reopenedLess claimant status.unlockedAmount status.lockedAmount := by
  by_cases other : claimant = friend
  · subst other
    have amounts : (pausedWorld.claimStatuses friend pda).all
        (fun status => status.unlockedAmount = 30 ∧ status.lockedAmount = 0) = true := by
      decide +kernel
    rw [found] at amounts
    obtain ⟨unlocked, locked⟩ := of_decide_eq_true amounts
    rw [unlocked, locked]
    exact ⟨_, List.mem_cons_of_mem _ List.mem_cons_self, rfl, rfl, rfl⟩
  · rw [paused_statuses other] at found
    cases found

/-- A re-root of the sample distributor to a tree of the builder. -/
theorem reRoot_faithful {world : World} {tree : AirdropMerkleTree} {oldRoot : Hash}
    {count : UInt64} (returned : AirdropMerkleTree.new digest tree.treeNodes 0 = .ok tree)
    (room : (world.distributors pda).any
      (fun record => tree.treeNodes.length ≤ record.maxNumNodes.toNat) = true)
    (keeps : ∀ claimant status, world.claimStatuses claimant pda = some status →
      Lists tree claimant status.unlockedAmount status.lockedAmount) :
    FaithfulStep rt pda world
      ⟨reRoot 0 tree.merkleRoot oldRoot count tree.maxTotalClaim, tree⟩ := by
  refine ⟨fun accounts args distributor sent _ _ found => ?_, by simp [reRoot, send]⟩
  cases sent
  obtain ⟨record, present, enough⟩ := record_of _ room
  cases present.symm.trans found
  exact ⟨⟨_, 0, returned⟩, rfl, rfl, of_decide_eq_true enough, keeps⟩

theorem reopening_faithful : FaithfulRun rt pda reopenedWorld reopened reopening where
  admissible event member := admissible_of_all
    (show (reopening.map Proposal.tx).all _ = true from rfl) _ (List.mem_map_of_mem member)
  distinct := by decide +kernel
  faithful state event member := by
    rcases List.mem_cons.mp member with first | member
    · obtain ⟨_, rfl⟩ := Prod.mk.inj first
      exact faithfulStep_of_other (by simp [smallClaim, claimOf, send])
        (by simp [smallClaim, claimOf, send])
    rcases List.mem_cons.mp member with second | member
    · obtain ⟨_, rfl⟩ := Prod.mk.inj second
      exact faithfulStep_of_other (by simp [setSlot, send]) (by simp [setSlot, send])
    rcases List.mem_cons.mp member with third | member
    · obtain ⟨here, rfl⟩ := Prod.mk.inj third
      have paused : state.1 = pausedWorld := by rw [here, pausedWorld, reRootStep, reRootStep]
      rw [paused]
      exact reRoot_faithful (by decide +kernel) (by decide +kernel) paused_listed
    · obtain ⟨_, rfl⟩ := Prod.mk.inj (List.mem_singleton.mp member)
      exact faithfulStep_of_other (by simp [setSlot, send]) (by simp [setSlot, send])

end Sample

open Sample in
/-- The friend's old status is still there when the distributor is created again, for two
leaves, and after their re-root every leaf that is owed can be claimed. -/
theorem owed_leaf_claimable_after_reRoot :
    let reached := replay (reRootStep rt creationAccounts.distributor) (reopenedWorld, reopened)
      reopening
    (closedWorld.claimStatuses friend pda).isSome = true ∧ reached.2 = reopenedLess ∧
      ∃ distributor, reached.1.distributors creationAccounts.distributor = some distributor ∧
        OwedClaimable rt creationAccounts.distributor reached.1 reached.2 distributor := by
  intro reached
  have reachable : Reachable rt closedWorld := reachable_of_all rfl
  have creation : FundedCreation rt closedWorld (createTree reopened) creationAccounts
      (argsFor reopened) reopened [fund 200] :=
    fundedTree (by decide +kernel) (by decide +kernel) (by decide +kernel)
  have left : (closedWorld.claimStatuses friend pda).isSome = true := by decide +kernel
  have moved : reached.2 = reopenedLess := by decide +kernel
  have holds := owed_leaf_stays_claimable reachable creation closing_spent reopening_faithful
  refine ⟨left, moved, ?_⟩
  dsimp only [reached, reopenedWorld] at holds ⊢
  exact holds

open Sample in
/-- A closable distributor with a leaf of 70 locked tokens is claimed at the start of vesting
and closed. A permanent one is then created at its address for the tree of somebody else's
leaf of 100 tokens, and funded with 100. The old claim status withdraws its 70 tokens, and
the claim of the only leaf fails from then on. -/
theorem stale_status_blocks_owed_leaf :
    let closed := run rt emptyWorld (openAccounts 70 ++
      [send 0 [] (.token (.initializeAccount friendPurse mint friend)),
        create 0 70 70 true, claim 0 0 70, close])
    let creation := createFor friend 100 0 100 false
    let tree := treeOf friend 100 0
    let start := run rt (apply rt closed creation) [fund 100]
    let events : List Proposal := [⟨withdraw 100, tree⟩]
    let reached := replay (reRootStep rt pda) (start, tree) events
    Reachable rt closed ∧
      FundedCreation rt closed creation creationAccounts (creationArgs friend 100 0 100 false) tree
        [fund 100] ∧
      FaithfulRun rt pda start tree events ∧ Chronological [creation, fund 100, withdraw 100] ∧
      reached.1.claimStatuses friend pda = none ∧ reached.1.tokens.balance vault = 30 ∧
      ¬ ∃ distributor, reached.1.distributors pda = some distributor ∧
        OwedClaimable rt pda reached.1 reached.2 distributor := by
  intro closed creation tree start events reached
  have unclaimed : reached.1.claimStatuses friend pda = none := by decide +kernel
  have faithful : FaithfulRun rt pda start tree events :=
    { admissible := fun event member => admissible_of_all
        (show (events.map Proposal.tx).all _ = true from rfl) _ (List.mem_map_of_mem member)
      distinct := by decide +kernel
      faithful := fun state event member => by
        obtain ⟨_, rfl⟩ := Prod.mk.inj (List.mem_singleton.mp member)
        exact faithfulStep_of_other (by simp [withdraw, send]) (by simp [withdraw, send]) }
  refine ⟨reachable_of_all rfl,
    fundedCreation (by decide +kernel) rfl (by decide +kernel) (by decide +kernel), faithful,
    by decide, unclaimed, by decide +kernel, ?_⟩
  rintro ⟨distributor, found, claimable⟩
  obtain ⟨account, held, account_facts⟩ := account_of
    (fun account => account.owner = friend ∧ account.mint = mint)
    (show (reached.1.tokens.accounts friendPurse).any _ = true by decide +kernel)
  obtain ⟨record, present, record_facts⟩ := record_of
    (fun record => record.enableSlot ≤ 10 ∧ record.startTs ≤ 100 ∧ record.mint = mint ∧
      record.tokenVault = vault)
    (show (reached.1.distributors pda).any _ = true by decide +kernel)
  cases present.symm.trans found
  obtain ⟨owner, token⟩ := of_decide_eq_true account_facts
  obtain ⟨enabled, begun, sameMint, vaultAddress⟩ := of_decide_eq_true record_facts
  let node : TreeNode :=
    { claimant := friend, amount := 100, lockedAmount := some 0, proof := some [] }
  have listed : node ∈ reached.2.treeNodes := by decide +kernel
  have fails : ¬ Succeeds rt reached.1 (send 100 [friend]
      (.invoke (claimOf pda vault friendPurse node))) := by decide +kernel
  clear_value reached
  refine fails (claimable.newClaim (send 100 [friend]
    (.invoke (claimOf pda vault friendPurse node))) friendPurse account node ?_ enabled begun held
    owner (token.trans sameMint.symm) (by simp [send, node]) listed unclaimed
    (by rw [vaultAddress]; rfl))
  exact admissible_of_foreign (show pda ∉ [friend] by decide)

end MultiDistributor.Source

import MultiDistributor.Guarantees.Authority

/-!
# Counters against the claim statuses

The three counters of a permanent distributor are sums over its claim statuses, and what
its claims moved out of the vault to a claimant is what that claimant's status records.
Both need the address to be clean when the distributor is created: `new_distributor`
resets the counters but does not look for claim statuses of an earlier distributor.
-/
namespace MultiDistributor.Source
open Lib.Checked Lib.TokenLedger Lib.Replay

/-- What a claimant's status says was paid. -/
def World.paid (world : World) (key claimant : Pubkey) : Nat :=
  match world.claimStatuses claimant key with
  | some status => status.unlockedAmountClaimed.toNat + status.lockedAmountWithdrawn.toNat
  | none => 0

/-- What a claimant's status says was given up by claiming early. -/
def World.forgone (world : World) (key claimant : Pubkey) : Nat :=
  match world.claimStatuses claimant key with
  | some status => status.unlockedAmount.toNat - status.unlockedAmountClaimed.toNat
  | none => 0

/-- The counters of a distributor are those of the claim statuses of the listed claimants. -/
structure LedgerInvariant (key : Pubkey) (world : World) (distributor : MerkleDistributor)
    (claimants : Finset Pubkey) : Prop where
  members : ∀ claimant, claimant ∈ claimants ↔ (world.claimStatuses claimant key).isSome = true
  nodes : distributor.numNodesClaimed.toNat = claimants.card
  nodesBound : distributor.numNodesClaimed.toNat ≤ distributor.maxNumNodes.toNat
  claimed : distributor.totalAmountClaimed.toNat = ∑ claimant ∈ claimants, world.paid key claimant
  claimedBound : distributor.totalAmountClaimed.toNat ≤ distributor.maxTotalClaim.toNat
  forgone : distributor.totalAmountForgone.toNat =
    ∑ claimant ∈ claimants, world.forgone key claimant
  statuses : ∀ claimant status, world.claimStatuses claimant key = some status →
    status.unlockedAmountClaimed.toNat ≤ status.unlockedAmount.toNat ∧
      status.lockedAmountWithdrawn.toNat ≤ status.lockedAmount.toNat

/-- The accounts of the two claim instructions. -/
def Transaction.claimAccounts (tx : Transaction) : Option ClaimLockedAccounts :=
  match tx.action with
  | .invoke (.newClaim accounts _) =>
      some { accounts with }
  | .invoke (.claimLocked accounts) => some accounts
  | _ => none

/-- A flow of tokens, counted when the transaction is a claim of the claimant on the
distributor. -/
def claimFlow (key claimant : Pubkey) (tx : Transaction) (flow : ClaimLockedAccounts → Nat) : Nat :=
  match tx.claimAccounts with
  | some accounts =>
      if accounts.distributor = key ∧ accounts.claimant = claimant then flow accounts else 0
  | none => 0

/-- What the vault loses in a claim of the claimant on the distributor. -/
def vaultLoss (rt : Runtime) (key claimant : Pubkey) (world : World) (tx : Transaction) : Nat :=
  claimFlow key claimant tx fun accounts =>
    world.tokens.balance accounts.fromAccount -
      (apply rt world tx).tokens.balance accounts.fromAccount

/-- What the claimant's token account gains in a claim on the distributor. -/
def receiverGain (rt : Runtime) (key claimant : Pubkey) (world : World) (tx : Transaction) : Nat :=
  claimFlow key claimant tx fun accounts =>
    (apply rt world tx).tokens.balance accounts.toAccount -
      world.tokens.balance accounts.toAccount

section
variable {rt : Runtime} {world after : World} {tx : Transaction} {key : Pubkey}
  {distributor : MerkleDistributor}

theorem paid_congr {claimant : Pubkey}
    (same : after.claimStatuses claimant key = world.claimStatuses claimant key) :
    after.paid key claimant = world.paid key claimant := by
  simp only [World.paid, same]

theorem forgone_congr {claimant : Pubkey}
    (same : after.claimStatuses claimant key = world.claimStatuses claimant key) :
    after.forgone key claimant = world.forgone key claimant := by
  simp only [World.forgone, same]

/-- A new status adds its two amounts for its claimant alone. -/
theorem NewClaimExecution.amounts {accounts : NewClaimAccounts} {args : NewClaimArgs}
    (e : NewClaimExecution rt tx.signers tx.clock world accounts args) (claimant : Pubkey) :
    e.after.paid accounts.distributor claimant = world.paid accounts.distributor claimant +
        (if claimant = accounts.claimant then e.claimed.toNat else 0) ∧
      e.after.forgone accounts.distributor claimant = world.forgone accounts.distributor claimant +
        (if claimant = accounts.claimant then e.forgone.toNat else 0) := by
  by_cases equal : claimant = accounts.claimant
  · subst equal
    have rest := e.rest
    simp only [World.paid, World.forgone, e.after_statuses, e.vacant, if_true,
      NewClaimExecution.status, NewClaimArgs.seeded]
    exact ⟨by simp, by omega⟩
  · have same : e.after.claimStatuses claimant accounts.distributor =
        world.claimStatuses claimant accounts.distributor := by
      rw [e.after_statuses, if_neg equal]
    rw [paid_congr same, forgone_congr same, if_neg equal, if_neg equal]
    exact ⟨rfl, rfl⟩

theorem ClaimLockedExecution.amounts {accounts : ClaimLockedAccounts}
    (e : ClaimLockedExecution rt tx.signers tx.clock world accounts) (claimant : Pubkey) :
    e.after.paid accounts.distributor claimant = world.paid accounts.distributor claimant +
        (if claimant = accounts.claimant then e.amount.toNat else 0) ∧
      e.after.forgone accounts.distributor claimant =
        world.forgone accounts.distributor claimant := by
  by_cases equal : claimant = accounts.claimant
  · subst equal
    have sum := e.withdrawnSum
    simp only [World.paid, World.forgone, e.after_statuses, e.statusFound, if_true,
      ClaimLockedExecution.nextStatus]
    exact ⟨by omega, trivial⟩
  · have same : e.after.claimStatuses claimant accounts.distributor =
        world.claimStatuses claimant accounts.distributor := by
      rw [e.after_statuses, if_neg equal]
    rw [paid_congr same, forgone_congr same, if_neg equal]
    exact ⟨rfl, rfl⟩

/-- The two flows of a claim that moved `amount` from the vault to the claimant. -/
theorem claimFlow_of_claim {accounts : ClaimLockedAccounts} {amount : Nat}
    (sent : tx.claimAccounts = some accounts) (here : accounts.distributor = key)
    (lost : world.tokens.balance accounts.fromAccount =
      (apply rt world tx).tokens.balance accounts.fromAccount + amount)
    (gained : (apply rt world tx).tokens.balance accounts.toAccount =
      world.tokens.balance accounts.toAccount + amount) (claimant : Pubkey) :
    vaultLoss rt key claimant world tx = (if claimant = accounts.claimant then amount else 0) ∧
      receiverGain rt key claimant world tx =
        (if claimant = accounts.claimant then amount else 0) := by
  simp only [vaultLoss, receiverGain, claimFlow, sent, here, true_and, lost, gained,
    Nat.add_sub_cancel_left, eq_comm, and_self]

/-- Nothing flows in a transaction that fails or is about another distributor. -/
theorem claimFlow_quiet (quiet : ¬ Succeeds rt world tx ∨ tx.target ≠ some key)
    (claimant : Pubkey) :
    vaultLoss rt key claimant world tx = 0 ∧ receiverGain rt key claimant world tx = 0 := by
  simp only [vaultLoss, receiverGain, claimFlow]
  rcases apply_cases rt world tx with ⟨same, _⟩ | ⟨_, success⟩
  · rw [same]
    split <;> simp
  have elsewhere := quiet.resolve_left (not_not_intro success)
  split
  · next accounts sent =>
    have about : tx.target = some accounts.distributor := by
      unfold Transaction.claimAccounts at sent
      split at sent
      · next action => cases sent; exact target_of_sent action
      · next action => cases sent; exact target_of_sent action
      · cases sent
    have other : accounts.distributor ≠ key := fun here => elsewhere (here ▸ about)
    simp [other]
  · exact ⟨rfl, rfl⟩

/-- Nothing flows in a transaction that is no claim. -/
theorem claimFlow_of_none (other : tx.claimAccounts = none) (claimant : Pubkey) :
    vaultLoss rt key claimant world tx = 0 ∧ receiverGain rt key claimant world tx = 0 := by
  simp only [vaultLoss, receiverGain, claimFlow, other, and_self]

/-- The status of each claimant records what a step pays to that claimant. -/
theorem StepAt.payment (step : StepAt rt world tx key distributor (apply rt world tx))
    (claimant : Pubkey) :
    (apply rt world tx).paid key claimant =
        world.paid key claimant + vaultLoss rt key claimant world tx ∧
      vaultLoss rt key claimant world tx = receiverGain rt key claimant world tx := by
  have unpaid : (apply rt world tx).claimStatuses claimant key = world.claimStatuses claimant key →
      vaultLoss rt key claimant world tx = 0 ∧ receiverGain rt key claimant world tx = 0 →
      (apply rt world tx).paid key claimant =
          world.paid key claimant + vaultLoss rt key claimant world tx ∧
        vaultLoss rt key claimant world tx = receiverGain rt key claimant world tx := by
    rintro same ⟨loss, gain⟩
    rw [paid_congr same, loss, gain]
    exact ⟨rfl, rfl⟩
  cases step with
  | untouched quiet record statuses =>
    exact unpaid (statuses claimant) (claimFlow_quiet quiet claimant)
  | @newClaim accounts args sent e here same left lost gained =>
    subst here same
    have parties : tx.claimAccounts = some { accounts with } := by
      simp only [Transaction.claimAccounts, sent]
    obtain ⟨loss, gain⟩ := claimFlow_of_claim parties rfl (e.vaultAddress ▸ lost) gained claimant
    rw [loss, gain, left]
    exact ⟨(e.amounts claimant).1, rfl⟩
  | @claimLocked accounts sent e here same left lost gained =>
    subst here same
    have parties : tx.claimAccounts = some accounts := by
      simp only [Transaction.claimAccounts, sent]
    obtain ⟨loss, gain⟩ := claimFlow_of_claim parties rfl (e.vaultAddress ▸ lost) gained claimant
    rw [loss, gain, left]
    exact ⟨(e.amounts claimant).1, rfl⟩
  | setRoot sent e here same left =>
    exact unpaid (by rw [left]; rfl)
      (claimFlow_of_none (by simp [Transaction.claimAccounts, sent]) claimant)
  | clawback sent e here same left =>
    exact unpaid (by rw [left]; rfl)
      (claimFlow_of_none (by simp [Transaction.claimAccounts, sent]) claimant)
  | closed sent e here same left =>
    exact unpaid (by rw [left]; rfl)
      (claimFlow_of_none (by simp [Transaction.claimAccounts, sent]) claimant)
  | admin sent here signed update left =>
    exact unpaid (by rw [left]; rfl)
      (claimFlow_of_none (by cases update <;> simp [Transaction.claimAccounts, sent]) claimant)

/-- A step that leaves the claim statuses and the counters alone. -/
private theorem LedgerInvariant.idle {next : MerkleDistributor} {claimants : Finset Pubkey}
    (ledger : LedgerInvariant key world distributor claimants)
    (statuses : ∀ claimant, after.claimStatuses claimant key = world.claimStatuses claimant key)
    (nodes : next.numNodesClaimed = distributor.numNodesClaimed)
    (claimed : next.totalAmountClaimed = distributor.totalAmountClaimed)
    (forgone : next.totalAmountForgone = distributor.totalAmountForgone)
    (room : next.maxNumNodes = distributor.maxNumNodes)
    (cap : distributor.totalAmountClaimed.toNat ≤ next.maxTotalClaim.toNat) :
    LedgerInvariant key after next claimants where
  members claimant := by rw [statuses, ledger.members]
  nodes := by rw [nodes, ledger.nodes]
  nodesBound := by rw [nodes, room]; exact ledger.nodesBound
  claimed := by
    rw [claimed, ledger.claimed]
    exact Finset.sum_congr rfl fun claimant _ => (paid_congr (statuses claimant)).symm
  claimedBound := by rw [claimed]; exact cap
  forgone := by
    rw [forgone, ledger.forgone]
    exact Finset.sum_congr rfl fun claimant _ => (forgone_congr (statuses claimant)).symm
  statuses claimant status found := ledger.statuses claimant status (statuses claimant ▸ found)

/-- A sum that gains `amount` at one of its claimants. -/
private theorem sum_add_at {claimants : Finset Pubkey} {claimant : Pubkey} {amount : Nat}
    {before later : Pubkey → Nat} (member : claimant ∈ claimants)
    (grows : ∀ c, later c = before c + if c = claimant then amount else 0) :
    ∑ c ∈ claimants, later c = ∑ c ∈ claimants, before c + amount := by
  rw [Finset.sum_congr rfl fun c _ => grows c, Finset.sum_add_distrib, Finset.sum_ite_eq',
    if_pos member]

theorem NewClaimExecution.ledger {accounts : NewClaimAccounts} {args : NewClaimArgs}
    (e : NewClaimExecution rt tx.signers tx.clock world accounts args)
    (formed : WellFormed rt e.after) {claimants : Finset Pubkey}
    (ledger : LedgerInvariant accounts.distributor world e.distributor claimants) :
    LedgerInvariant accounts.distributor e.after e.next (insert accounts.claimant claimants) := by
  have fresh : accounts.claimant ∉ claimants := by
    rw [ledger.members, e.vacant]
    simp
  have member : accounts.claimant ∈ insert accounts.claimant claimants :=
    Finset.mem_insert_self _ _
  -- the new claimant had neither a paid nor a forgone amount before
  have paidBefore : world.paid accounts.distributor accounts.claimant = 0 := by
    simp only [World.paid, e.vacant]
  have forgoneBefore : world.forgone accounts.distributor accounts.claimant = 0 := by
    simp only [World.forgone, e.vacant]
  have claimed := ledger.claimed
  have forgone := ledger.forgone
  have claimedSum := e.claimedSum
  have forgoneSum := e.forgoneSum
  refine
    { members := fun claimant => ?_, nodes := ?_, nodesBound := e.room, claimed := ?_,
      claimedBound := by have := e.cap; simp only [NewClaimExecution.next]; omega, forgone := ?_,
      statuses := fun claimant status found => (formed.status claimant _ status found).2.2 }
  · rw [Finset.mem_insert, ledger.members, e.after_statuses]
    split
    · next equal => simp [equal]
    · next other => simp [other]
  · rw [Finset.card_insert_of_notMem fresh, ← ledger.nodes]
    exact e.counted
  · rw [sum_add_at member fun c => (e.amounts c).1, Finset.sum_insert fresh, paidBefore]
    simp only [NewClaimExecution.next]
    omega
  · rw [sum_add_at member fun c => (e.amounts c).2, Finset.sum_insert fresh, forgoneBefore]
    simp only [NewClaimExecution.next]
    omega

theorem ClaimLockedExecution.ledger {accounts : ClaimLockedAccounts}
    (e : ClaimLockedExecution rt tx.signers tx.clock world accounts)
    (formed : WellFormed rt e.after) {claimants : Finset Pubkey}
    (ledger : LedgerInvariant accounts.distributor world e.distributor claimants) :
    LedgerInvariant accounts.distributor e.after e.next claimants := by
  have member : accounts.claimant ∈ claimants := by
    rw [ledger.members, e.statusFound]
    rfl
  have claimed := ledger.claimed
  have claimedSum := e.claimedSum
  refine
    { members := fun claimant => ?_, nodes := ledger.nodes, nodesBound := ledger.nodesBound,
      claimed := ?_, claimedBound := e.cap, forgone := ?_,
      statuses := fun claimant status found => (formed.status claimant _ status found).2.2 }
  · rw [ledger.members, e.after_statuses]
    split
    · next equal => simp [equal, e.statusFound]
    · rfl
  · rw [sum_add_at member fun c => (e.amounts c).1]
    simp only [ClaimLockedExecution.next]
    omega
  · rw [Finset.sum_congr rfl fun c _ => (e.amounts c).2]
    exact ledger.forgone

/-- Every step on a permanent distributor keeps the ledger invariant. -/
theorem StepAt.ledger (step : StepAt rt world tx key distributor after)
    (formed : WellFormed rt after) (permanent : distributor.closable = false)
    {claimants : Finset Pubkey} (ledger : LedgerInvariant key world distributor claimants) :
    ∃ next more, after.distributors key = some next ∧ LedgerInvariant key after next more := by
  cases step with
  | untouched quiet record statuses =>
    exact ⟨distributor, claimants, record,
      ledger.idle statuses rfl rfl rfl rfl ledger.claimedBound⟩
  | newClaim sent e here same left =>
    subst here same left
    exact ⟨e.next, _, e.after_record, e.ledger formed ledger⟩
  | claimLocked sent e here same left =>
    subst here same left
    exact ⟨e.next, _, e.after_record, e.ledger formed ledger⟩
  | setRoot sent e here same left =>
    subst here same left
    have covered : e.distributor.totalAmountClaimed.toNat ≤ e.next.maxTotalClaim.toNat :=
      Nat.le_trans (Nat.le_add_right _ _) e.conditions.settled
    exact ⟨e.next, claimants, e.after_record,
      ledger.idle (fun _ => rfl) rfl rfl rfl rfl covered⟩
  | clawback sent e here same left =>
    subst here same left
    exact ⟨e.next, claimants, e.after_record,
      ledger.idle (fun _ => rfl) rfl rfl rfl rfl ledger.claimedBound⟩
  | closed sent e here same left =>
    subst same
    simp [e.closable] at permanent
  | @admin instruction accounts next sent here signed update left =>
    subst left
    refine ⟨next, claimants, by simp, ?_⟩
    cases update <;> exact ledger.idle (fun _ => rfl) rfl rfl rfl rfl ledger.claimedBound

/-- Over a run of a permanent distributor the ledger invariant stays, and each claimant's
status grows by exactly what the claims of the run paid. -/
theorem WellFormed.run_ledger (wellFormed : WellFormed rt world)
    (found : world.distributors key = some distributor)
    (permanent : distributor.closable = false) {claimants : Finset Pubkey}
    (ledger : LedgerInvariant key world distributor claimants) {txs : List Transaction}
    (admissible : ∀ tx ∈ txs, Admissible rt tx) :
    (∃ next more, (run rt world txs).distributors key = some next ∧
      LedgerInvariant key (run rt world txs) next more) ∧
    ∀ claimant, (run rt world txs).paid key claimant = world.paid key claimant +
        ((transitions (apply rt) world txs).map fun step =>
          vaultLoss rt key claimant step.1 step.2).sum ∧
      ∀ step ∈ transitions (apply rt) world txs,
        vaultLoss rt key claimant step.1 step.2 = receiverGain rt key claimant step.1 step.2 := by
  induction txs generalizing world distributor claimants with
  | nil => exact ⟨⟨distributor, claimants, found, ledger⟩, fun _ => ⟨by simp, by simp⟩⟩
  | cons tx rest ih =>
    have now : Admissible rt tx := admissible tx (by simp)
    have formed := wellFormed.after_tx now
    have stepAt := wellFormed.stepAt now found
    obtain ⟨middle, more, present, kept⟩ := stepAt.ledger formed permanent ledger
    obtain ⟨_, same, step⟩ := stepAt.record permanent
    cases present.symm.trans same
    obtain ⟨final, payments⟩ := ih formed present (step.terms.closable.trans permanent) kept
      (fun later member => admissible later (by simp [member]))
    refine ⟨final, fun claimant => ⟨?_, ?_⟩⟩
    · rw [run, replay_cons, (payments claimant).1, (stepAt.payment claimant).1, transitions_cons,
        List.map_cons, List.sum_cons]
      exact Nat.add_assoc _ _ _
    · rw [transitions_cons]
      intro step member
      rcases List.mem_cons.mp member with rfl | later
      · exact (stepAt.payment claimant).2
      · exact (payments claimant).2 step later

end

/-- A permanent distributor has its ledger invariant and pays each claimant exactly what
the claimant's status records, in every world of every run, exactly when no claim status
of its address was there at its creation. -/
theorem ledger_invariant_iff_clean_creation {rt : Runtime} {world : World}
    (reachable : Reachable rt world) {tx : Transaction} (admissible : Admissible rt tx)
    {accounts : NewDistributorAccounts} {args : NewDistributorArgs}
    (sent : tx.action = .invoke (.newDistributor accounts args))
    (permanent : args.closable = false) (success : Succeeds rt world tx) :
    (∀ txs, (∀ later ∈ txs, Admissible rt later) →
      (∃ distributor claimants,
        (run rt (apply rt world tx) txs).distributors accounts.distributor = some distributor ∧
        LedgerInvariant accounts.distributor (run rt (apply rt world tx) txs) distributor
          claimants) ∧
      ∀ claimant,
        ((transitions (apply rt) (apply rt world tx) txs).map fun step =>
          vaultLoss rt accounts.distributor claimant step.1 step.2).sum =
            (run rt (apply rt world tx) txs).paid accounts.distributor claimant ∧
        ∀ step ∈ transitions (apply rt) (apply rt world tx) txs,
          vaultLoss rt accounts.distributor claimant step.1 step.2 =
            receiverGain rt accounts.distributor claimant step.1 step.2) ↔
    ∀ claimant, world.claimStatuses claimant accounts.distributor = none := by
  obtain ⟨after, events, success⟩ := success
  have reached := apply_of_ok success
  simp only [process, sent, dispatch] at success
  obtain ⟨_, rfl⟩ := newDistributor_execution success
  have present : (apply rt world tx).distributors accounts.distributor =
      some (args.distributor rt accounts) := by
    rw [reached]
    simp
  have statuses : (apply rt world tx).claimStatuses = world.claimStatuses := by rw [reached]; rfl
  constructor
  · intro holds claimant
    obtain ⟨⟨distributor, claimants, found, ledger⟩, _⟩ := holds [] (by simp)
    cases present.symm.trans found
    -- no node is counted yet, so no status is listed
    have none_listed : claimants = ∅ := Finset.card_eq_zero.mp ledger.nodes.symm
    have absent := (ledger.members claimant).not.mp (by simp [none_listed])
    rw [run, replay_nil, statuses] at absent
    simpa using absent
  · intro clean txs later_admissible
    have initial : LedgerInvariant accounts.distributor (apply rt world tx)
        (args.distributor rt accounts) ∅ := by
      constructor <;> simp [statuses, clean, NewDistributorArgs.distributor]
    obtain ⟨ledger, payments⟩ :=
      (reachable.wellFormed.after_tx admissible).run_ledger present permanent initial
        later_admissible
    refine ⟨ledger, fun claimant => ⟨?_, (payments claimant).2⟩⟩
    have unpaid : (apply rt world tx).paid accounts.distributor claimant = 0 := by
      simp only [World.paid, statuses, clean]
    rw [(payments claimant).1, unpaid, Nat.zero_add]

open Sample in
/-- The sample deployment, claimed half way through vesting and withdrawn at its end. -/
theorem ledger_invariant_on_sample :
    let txs := [claim 50 100 70, withdraw 100]
    (∃ distributor claimants, (run rt (deployed 100 70 170 170) txs).distributors pda =
        some distributor ∧
      LedgerInvariant pda (run rt (deployed 100 70 170 170) txs) distributor claimants) ∧
      ((transitions (apply rt) (deployed 100 70 170 170) txs).map fun step =>
        vaultLoss rt pda wallet step.1 step.2).sum =
          (run rt (deployed 100 70 170 170) txs).paid pda wallet := by
  intro txs
  unfold deployed
  have reachable : Reachable rt (run rt emptyWorld (openAccounts 170)) := reachable_of_all rfl
  have created : Succeeds rt (run rt emptyWorld (openAccounts 170)) (create 100 70 170 false) := by
    decide +kernel
  have holds := (ledger_invariant_iff_clean_creation reachable
    (admissible_of_foreign (by decide)) rfl rfl created).mpr (openAccounts_clean 170) txs
    (admissible_of_all rfl)
  generalize apply rt (run rt emptyWorld (openAccounts 170)) (create 100 70 170 false) = w
    at holds ⊢
  exact ⟨holds.1, (holds.2 wallet).1⟩

open Sample in
/-- A closable distributor with a leaf of 10 unlocked and 70 locked tokens is claimed at
the start of vesting, closed, and created again as a permanent one. The new distributor
pays the 70 locked tokens of the claim status it did not create: it has then counted no
node, although a claim status exists, and has claimed 70 tokens in total, although that
status records 75. -/
theorem stale_status_breaks_ledger :
    let closed := run rt emptyWorld
      (openAccounts 80 ++ [create 10 70 80 true, claim 0 10 70, close])
    let txs := [fund 100, withdraw 100]
    let later := run rt (apply rt closed (create 1 0 100 false)) txs
    Reachable rt closed ∧ Succeeds rt closed (create 1 0 100 false) ∧
      (∀ tx ∈ txs, Admissible rt tx) ∧ Chronological (create 1 0 100 false :: txs) ∧
      (∃ distributor, later.distributors pda = some distributor ∧
        distributor.numNodesClaimed = 0 ∧ distributor.totalAmountClaimed = 70) ∧
      (later.claimStatuses wallet pda).isSome = true ∧ later.paid pda wallet = 75 ∧
      ¬ ∃ distributor claimants, later.distributors pda = some distributor ∧
        LedgerInvariant pda later distributor claimants := by
  intro closed txs later
  obtain ⟨record, found, facts⟩ := record_of
    (fun record => record.numNodesClaimed == 0 && record.totalAmountClaimed == 70)
    (show (later.distributors pda).any _ = true by decide +kernel)
  simp only [Bool.and_eq_true, beq_iff_eq] at facts
  have listed : (later.claimStatuses wallet pda).isSome = true := by decide +kernel
  refine ⟨reachable_of_all rfl, by decide +kernel, admissible_of_all rfl, by decide,
    ⟨record, found, facts⟩, listed, by decide +kernel, ?_⟩
  rintro ⟨distributor, claimants, present, ledger⟩
  cases found.symm.trans present
  have nodes := ledger.nodes
  rw [facts.1] at nodes
  have none_listed : claimants = ∅ := Finset.card_eq_zero.mp nodes.symm
  have member := (ledger.members wallet).mpr listed
  simp [none_listed] at member

end MultiDistributor.Source

import MultiDistributor.Guarantees.Clawback

/-!
# Payouts across incarnations

A closable distributor can be closed and created again at its address, while claim
statuses survive: `close_claim_status` panics. What a claim pays is backed by a proof
against a root of the current incarnation as long as every creation at the address
finds no claim status with locked tokens left; a status that does have some is paid
from the vault of the new distributor.
-/
namespace MultiDistributor.Source
open Lib.Checked Lib.TokenLedger Lib.Replay

/-- The steps of a run since the last successful `new_distributor` at the address. -/
def incarnation (rt : Runtime) (key : Pubkey) (start : World) (txs : List Transaction) :
    List (World × Transaction) :=
  (transitions (apply rt) start txs).foldl
    (fun steps step => if Creates rt key step.1 step.2 then [] else steps ++ [step]) []

/-- Among the steps, a `new_claim` of the claimant proved these amounts against the root
the distributor had at the time. -/
def ProvedIn (rt : Runtime) (key : Pubkey) (steps : List (World × Transaction))
    (claimant : Pubkey) (amountUnlocked amountLocked : UInt64) : Prop :=
  ∃ pre tx accounts args distributor, (pre, tx) ∈ steps ∧ Succeeds rt pre tx ∧
    tx.action = .invoke (.newClaim accounts args) ∧ accounts.distributor = key ∧
    accounts.claimant = claimant ∧ args.amountUnlocked = amountUnlocked ∧
    args.amountLocked = amountLocked ∧ pre.distributors key = some distributor ∧
    verify rt.hash args.proof distributor.root
      (claimLeaf rt.hash claimant amountUnlocked amountLocked) = true

/-- Nothing of the locked amount is left to withdraw. -/
def Exhausted (status : ClaimStatus) : Prop := status.lockedAmountWithdrawn = status.lockedAmount

/-- The claim status is there and has nothing left to withdraw. -/
def FullyPaid (key : Pubkey) (world : World) (claimant : Pubkey) : Prop :=
  ∃ status, world.claimStatuses claimant key = some status ∧ Exhausted status

/-- If the transaction creates the distributor, the claim statuses it finds are exhausted. -/
def CreatesClean (rt : Runtime) (key : Pubkey) (world : World) (tx : Transaction) : Prop :=
  Creates rt key world tx →
    ∀ claimant status, world.claimStatuses claimant key = some status → Exhausted status

section
variable {rt : Runtime} {start world : World} {tx : Transaction} {key : Pubkey}

theorem incarnation_snoc (txs : List Transaction) :
    incarnation rt key start (txs ++ [tx]) =
      if Creates rt key (run rt start txs) tx then []
      else incarnation rt key start txs ++ [(run rt start txs, tx)] := by
  simp only [incarnation, transitions_append, transitions_cons, transitions_nil,
    List.foldl_append, List.foldl_cons, List.foldl_nil]

theorem ProvedIn.mono {fewer more : List (World × Transaction)} {claimant : Pubkey}
    {unlocked locked : UInt64} (proved : ProvedIn rt key fewer claimant unlocked locked)
    (subset : fewer ⊆ more) : ProvedIn rt key more claimant unlocked locked := by
  obtain ⟨pre, tx, accounts, args, distributor, member, rest⟩ := proved
  exact ⟨pre, tx, accounts, args, distributor, subset member, rest⟩

/-- A claim is not a creation. -/
theorem not_creates_of_claimant (claims : tx.claimant.isSome = true) :
    ¬ Creates rt key world tx := by
  rintro ⟨_, asks⟩
  obtain ⟨accounts, args, sent, _⟩ := newAddress_eq_some.mp asks
  simp [Transaction.claimant, sent] at claims

theorem NewClaimExecution.provedIn {accounts : NewClaimAccounts} {args : NewClaimArgs}
    (e : NewClaimExecution rt tx.signers tx.clock world accounts args)
    (sent : tx.action = .invoke (.newClaim accounts args)) {steps : List (World × Transaction)}
    (member : (world, tx) ∈ steps) :
    ProvedIn rt accounts.distributor steps accounts.claimant args.amountUnlocked
      args.amountLocked :=
  ⟨world, tx, accounts, args, e.distributor, member, ⟨_, _, e.success sent⟩, sent, rfl, rfl, rfl,
    rfl, e.found, e.proved⟩

/-- Withdrawing proves that something was left. -/
theorem ClaimLockedExecution.not_exhausted {accounts : ClaimLockedAccounts}
    (e : ClaimLockedExecution rt tx.signers tx.clock world accounts) : ¬ Exhausted e.status := by
  intro exhausted
  have sum := e.withdrawnSum
  have bound := e.withinLocked
  have positive := e.positive
  rw [Exhausted] at exhausted
  rw [exhausted] at sum
  omega

/-- An exhausted status stays as it is. -/
theorem FullyPaid.step {claimant : Pubkey} (done : FullyPaid key world claimant) :
    FullyPaid key (apply rt world tx) claimant := by
  obtain ⟨status, found, exhausted⟩ := done
  rcases apply_cases rt world tx with ⟨same, _⟩ | ⟨execution, _⟩
  · rw [same]
    exact ⟨status, found, exhausted⟩
  rcases execution.status_cases claimant key with
    same | ⟨accounts, args, _, e, rfl, rfl, _⟩ | ⟨accounts, _, e, rfl, rfl, _⟩
  · exact ⟨status, same.trans found, exhausted⟩
  · cases e.vacant.symm.trans found
  · cases e.statusFound.symm.trans found
    exact absurd exhausted e.not_exhausted

theorem FullyPaid.run {claimant : Pubkey} (done : FullyPaid key world claimant)
    (txs : List Transaction) : FullyPaid key (Source.run rt world txs) claimant :=
  replay_invariant (apply rt) (fun _ => True) (FullyPaid key · claimant)
    (fun _ _ _ => FullyPaid.step) world txs (fun _ _ => trivial) done

/-- One step: a creation finds exhausted statuses only, a new status is proved by its own
step, and a status that is withdrawn from was proved before. -/
theorem status_provenance_step {steps : List (World × Transaction)} {claimant : Pubkey}
    {status : ClaimStatus} (clean : CreatesClean rt key world tx)
    (before : ∀ status, world.claimStatuses claimant key = some status → Exhausted status ∨
      ProvedIn rt key steps claimant status.unlockedAmount status.lockedAmount)
    (found : (apply rt world tx).claimStatuses claimant key = some status) :
    Exhausted status ∨
      ProvedIn rt key (if Creates rt key world tx then [] else steps ++ [(world, tx)]) claimant
        status.unlockedAmount status.lockedAmount := by
  have unchanged : world.claimStatuses claimant key = some status →
      Exhausted status ∨
        ProvedIn rt key (if Creates rt key world tx then [] else steps ++ [(world, tx)]) claimant
          status.unlockedAmount status.lockedAmount := by
    intro same
    split
    · next creates => exact .inl (clean creates claimant status same)
    · exact (before status same).imp_right (·.mono (List.subset_append_left _ _))
  rcases apply_cases rt world tx with ⟨same, _⟩ | ⟨execution, _⟩
  · exact unchanged (same ▸ found)
  rcases execution.status_cases claimant key with
    same | ⟨accounts, args, sent, e, rfl, rfl, fresh⟩ | ⟨accounts, sent, e, rfl, rfl, grown⟩
  · exact unchanged (same ▸ found)
  · cases fresh.symm.trans found
    rw [if_neg (not_creates_of_claimant (by simp [Transaction.claimant, sent]))]
    exact .inr (e.provedIn sent (by simp))
  · cases grown.symm.trans found
    rw [if_neg (not_creates_of_claimant (by simp [Transaction.claimant, sent]))]
    rcases before e.status e.statusFound with exhausted | proved
    · exact absurd exhausted e.not_exhausted
    · exact .inr (proved.mono (List.subset_append_left _ _))

/-- Every claim status is exhausted or proved in the current incarnation. -/
theorem status_exhausted_or_proved (genesis : Genesis start) {txs : List Transaction}
    (clean : ∀ step ∈ transitions (apply rt) start txs, CreatesClean rt key step.1 step.2)
    {claimant : Pubkey} {status : ClaimStatus}
    (found : (run rt start txs).claimStatuses claimant key = some status) :
    Exhausted status ∨ ProvedIn rt key (incarnation rt key start txs) claimant
      status.unlockedAmount status.lockedAmount := by
  induction txs using List.reverseRecOn generalizing status with
  | nil => simp [run, genesis.2.1 claimant key] at found
  | append_singleton txs tx ih =>
    rw [transitions_append] at clean
    have earlier : ∀ step ∈ transitions (apply rt) start txs, CreatesClean rt key step.1 step.2 :=
      fun step member => clean step (by simp [member])
    have now : CreatesClean rt key (run rt start txs) tx := clean (run rt start txs, tx) (by simp)
    rw [run, replay_append, replay_cons, replay_nil] at found
    rw [incarnation_snoc]
    exact status_provenance_step now (fun _ => ih earlier) found

end

/-- In a run whose creations at the address all find exhausted claim statuses, every
successful claim pays a claim status whose amounts were proved against a root of the
current incarnation. -/
theorem payout_proved_in_incarnation {rt : Runtime} {start : World} (genesis : Genesis start)
    {key : Pubkey} {txs : List Transaction}
    (clean : ∀ step ∈ transitions (apply rt) start txs, CreatesClean rt key step.1 step.2)
    {tx : Transaction} {claimant : Pubkey} (claims : tx.claimant = some claimant)
    (about : tx.target = some key) (success : Succeeds rt (run rt start txs) tx) :
    ∃ status, (run rt start (txs ++ [tx])).claimStatuses claimant key = some status ∧
      ProvedIn rt key (incarnation rt key start (txs ++ [tx])) claimant status.unlockedAmount
        status.lockedAmount := by
  obtain ⟨after, events, success⟩ := success
  have reached : run rt start (txs ++ [tx]) = after := by
    rw [run, replay_append, replay_cons, replay_nil, apply_of_ok success]
  rw [reached, incarnation_snoc, if_neg (not_creates_of_claimant (by simp [claims]))]
  rcases claim_execution success (by simp [claims]) with
    ⟨accounts, args, e, sent, rfl⟩ | ⟨accounts, e, sent, rfl⟩
  · cases (target_of_sent sent).symm.trans about
    simp only [Transaction.claimant, sent, Option.some.injEq] at claims
    subst claims
    exact ⟨e.status, by simp [NewClaimExecution.after, Instruction.target],
      e.provedIn sent (by simp)⟩
  · cases (target_of_sent sent).symm.trans about
    simp only [Transaction.claimant, sent, Option.some.injEq] at claims
    subst claims
    refine ⟨e.nextStatus, by simp [ClaimLockedExecution.after, Instruction.target], ?_⟩
    rcases status_exhausted_or_proved genesis clean e.statusFound with exhausted | proved
    · exact absurd exhausted e.not_exhausted
    · exact proved.mono (List.subset_append_left _ _)

open Sample in
/-- The withdrawal on the sample deployment, whose address was created once. -/
theorem payout_proved_on_sample :
    let txs := openAccounts 170 ++ [create 100 70 170 false, claim 50 100 70]
    ∃ status, (run rt emptyWorld (txs ++ [withdraw 100])).claimStatuses wallet pda = some status ∧
      ProvedIn rt pda (incarnation rt pda emptyWorld (txs ++ [withdraw 100])) wallet
        status.unlockedAmount status.lockedAmount := by
  intro txs
  refine payout_proved_in_incarnation emptyWorld_genesis ?_ rfl rfl (by decide +kernel)
  intro step member creates claimant status found
  simp only [txs, openAccounts, List.cons_append, List.nil_append, transitions_cons,
    transitions_nil, List.mem_cons, List.not_mem_nil, or_false] at member
  rcases member with rfl | rfl | rfl | rfl | rfl | rfl | rfl
  case inr.inr.inr.inr.inr.inl =>
    cases (openAccounts_clean 170 claimant).symm.trans found
  all_goals cases creates.2

/-- The transaction asks for a new claim. -/
def Transaction.claims (tx : Transaction) : Bool :=
  match tx.action with
  | .invoke (.newClaim _ _) => true
  | _ => false

open Sample in
/-- The leaf of 70 locked tokens of a first, closable distributor is claimed, the
distributor is closed and created again with a tree of one unlocked token. The claim
status left behind is paid its 70 locked tokens out of the new vault, although no claim
was proved against a root of the new distributor. -/
theorem stale_status_paid_by_next_incarnation :
    let txs := openAccounts 70 ++
      [create 0 70 70 true, claim 0 0 70, close, create 1 0 100 false, fund 100]
    Genesis emptyWorld ∧ (∀ tx ∈ txs ++ [withdraw 100], Admissible rt tx) ∧
      Chronological (txs ++ [withdraw 100]) ∧ Succeeds rt (run rt emptyWorld txs) (withdraw 100) ∧
      (run rt emptyWorld txs).tokens.balance vault = 100 ∧
      (run rt emptyWorld (txs ++ [withdraw 100])).tokens.balance vault = 30 ∧
      ¬ ∃ status,
        (run rt emptyWorld (txs ++ [withdraw 100])).claimStatuses wallet pda = some status ∧
        ProvedIn rt pda (incarnation rt pda emptyWorld (txs ++ [withdraw 100])) wallet
          status.unlockedAmount status.lockedAmount := by
  intro txs
  have none_proved : (incarnation rt pda emptyWorld (txs ++ [withdraw 100])).all (fun step =>
      !step.2.claims) = true := by decide +kernel
  refine ⟨emptyWorld_genesis, admissible_of_all rfl, by decide, by decide +kernel,
    by decide +kernel, by decide +kernel, ?_⟩
  rintro ⟨status, _, pre, tx, accounts, args, distributor, member, _, sent, _⟩
  have other := List.all_eq_true.mp none_proved _ member
  simp [Transaction.claims, sent] at other

end MultiDistributor.Source

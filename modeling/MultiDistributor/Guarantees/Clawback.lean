import MultiDistributor.Guarantees.Authority

/-!
# Clawback: timing and finality

A day lies between the end of vesting and the earliest clawback, in every reachable
world. Once a distributor has been clawed back, every instruction that would pay,
re-root or claw back again finds the flag set. The flag belongs to the account: it
lasts until `close_distributor` removes the account and `new_distributor` creates
another one at the address, which needs a closable distributor.
-/
namespace MultiDistributor.Source
open Lib.Checked Lib.LinearRelease Lib.Replay

/-- Instructions that require a distributor which has not been clawed back. -/
def Instruction.needsLive : Instruction → Bool
  | .newClaim _ _ | .claimLocked _ | .setRoot _ _ | .setClawbackStartTs _ _ | .clawback _ => true
  | _ => false

/-- The distributor address a `new_distributor` asks for. -/
def Transaction.newAddress (tx : Transaction) : Option Pubkey :=
  match tx.action with
  | .invoke (.newDistributor accounts _) => some accounts.distributor
  | _ => none

/-- A successful `new_distributor` at the address. -/
def Creates (rt : Runtime) (key : Pubkey) (world : World) (tx : Transaction) : Prop :=
  Succeeds rt world tx ∧ tx.newAddress = some key

instance (rt : Runtime) (key : Pubkey) (world : World) (tx : Transaction) :
    Decidable (Creates rt key world tx) :=
  inferInstanceAs (Decidable (_ ∧ _))

theorem newAddress_eq_some {tx : Transaction} {key : Pubkey} :
    tx.newAddress = some key ↔ ∃ accounts args,
      tx.action = .invoke (.newDistributor accounts args) ∧ accounts.distributor = key := by
  unfold Transaction.newAddress
  split
  · next accounts args sent => simp [sent]
  · next other =>
    simp only [reduceCtorEq, false_iff, not_exists, not_and]
    exact fun accounts args sent => absurd sent (other accounts args)

section
variable {rt : Runtime} {world after : World} {tx : Transaction} {key : Pubkey}

theorem Execution.live (execution : Execution rt world tx after) {instruction : Instruction}
    (sent : tx.action = .invoke instruction) (needs : instruction.needsLive = true) :
    ∃ distributor, world.distributors instruction.target = some distributor ∧
      distributor.clawedBack = false := by
  cases execution with
  | newDistributor other e => cases sent.symm.trans other; cases needs
  | closeDistributor other e => cases sent.symm.trans other; cases needs
  | token other done => cases sent.symm.trans other
  | newClaim other e =>
    cases sent.symm.trans other
    exact ⟨e.distributor, e.found, e.live⟩
  | claimLocked other e =>
    cases sent.symm.trans other
    exact ⟨e.distributor, e.found, e.live⟩
  | setRoot other e =>
    cases sent.symm.trans other
    exact ⟨e.distributor, e.found, e.conditions.live⟩
  | clawback other e =>
    cases sent.symm.trans other
    exact ⟨e.distributor, e.found, e.live⟩
  | admin other found signed authority update =>
    cases sent.symm.trans other
    cases update with
    | setClawbackStartTs clawbackStartTs live delay => exact ⟨_, found, live⟩
    | setEnableSlot => cases needs
    | setAdmin => cases needs
    | setClawbackReceiver => cases needs

/-- Whatever distributor is found at the address has been clawed back. -/
def ClawedBack (key : Pubkey) (world : World) : Prop :=
  ∀ distributor, world.distributors key = some distributor → distributor.clawedBack = true

theorem ClawedBack.fails (final : ClawedBack key world) {instruction : Instruction}
    (sent : tx.action = .invoke instruction) (needs : instruction.needsLive = true)
    (about : instruction.target = key) : ¬ Succeeds rt world tx := by
  rintro ⟨after, events, success⟩
  obtain ⟨distributor, found, live⟩ := (process_execution success).live sent needs
  rw [final distributor (about ▸ found)] at live
  cases live

theorem ClawedBack.step (final : ClawedBack key world) (wellFormed : WellFormed rt world)
    (admissible : Admissible rt tx) (kept : ¬ Creates rt key world tx) :
    ClawedBack key (apply rt world tx) := by
  intro next reached
  cases before : world.distributors key with
  | none =>
    rcases apply_cases rt world tx with ⟨same, _⟩ | ⟨execution, success⟩
    · rw [same, before] at reached
      cases reached
    · rcases execution.record_origin reached with
        ⟨accounts, args, sent, _, here, _⟩ | ⟨old, hold, _⟩
      · exact absurd ⟨success, newAddress_eq_some.mpr ⟨accounts, args, sent, here.symm⟩⟩ kept
      · rw [before] at hold
        cases hold
  | some distributor =>
    rcases (wellFormed.stepAt admissible before).record_cases with ⟨_, gone⟩ | ⟨_, present, step⟩
    · rw [gone] at reached
      cases reached
    · cases present.symm.trans reached
      exact step.clawedBack (final distributor before)

/-- An address in use is not created again. -/
theorem not_creates {distributor : MerkleDistributor}
    (found : world.distributors key = some distributor) : ¬ Creates rt key world tx := by
  rintro ⟨⟨after, events, success⟩, asks⟩
  obtain ⟨accounts, args, sent, rfl⟩ := newAddress_eq_some.mp asks
  simp only [process, sent, dispatch] at success
  obtain ⟨⟨e⟩, _⟩ := newDistributor_execution success
  rw [e.vacant] at found
  cases found

/-- Finality of the flag over a run that does not create the address anew. -/
theorem ClawedBack.run (final : ClawedBack key world) (wellFormed : WellFormed rt world)
    {txs : List Transaction} (admissible : ∀ tx ∈ txs, Admissible rt tx)
    (kept : ∀ step ∈ transitions (apply rt) world txs, ¬ Creates rt key step.1 step.2) :
    ClawedBack key (replay (apply rt) world txs) := by
  have both : WellFormed rt (replay (apply rt) world txs) ∧
      ClawedBack key (replay (apply rt) world txs) := by
    apply replay_invariant_along (apply rt)
      (fun world => WellFormed rt world ∧ ClawedBack key world)
    · rintro pre tx member ⟨before, flagged⟩
      have now := admissible tx (event_of_transition _ member)
      exact ⟨before.after_tx now, flagged.step before now (kept _ member)⟩
    · exact ⟨wellFormed, final⟩
  exact both.2

/-- From the end of vesting on, both curves have released everything. -/
theorem vested_after_end (status : ClaimStatus) {currTs startTs endTs : Int64}
    (begun : startTs.toInt ≤ currTs.toInt) (ended : endTs.toInt ≤ currTs.toInt) :
    status.unlockedAmountAt currTs startTs endTs = .ok status.lockedAmount ∧
      status.updateUnlockedAmountClaimed currTs startTs endTs =
        .ok { status with unlockedAmountClaimed := status.unlockedAmount } := by
  have finished : endTs ≤ currTs := Int64.le_iff_toInt_le.mpr ended
  have started : startTs ≤ currTs := Int64.le_iff_toInt_le.mpr begun
  rw [unlockedAmountAt_ok_iff, updateUnlockedAmountClaimed_ok_iff, released_after _ begun ended,
    unlockedRelease_after _ begun ended]
  exact ⟨⟨fun _ running => absurd finished running, rfl⟩, started,
    fun running => absurd finished running, _, rfl, rfl⟩

end

/-- In every reachable world the clawback start is a day after the end of vesting. A
clawback succeeds only a day after the end, when everything is vested; afterwards no
claim, re-root, change of the clawback start or second clawback succeeds on that
distributor, whatever else is executed. -/
theorem clawback_timing_and_finality {rt : Runtime} {world : World}
    (reachable : Reachable rt world) :
    (∀ key distributor, world.distributors key = some distributor →
      distributor.endTs.toInt + 86400 ≤ distributor.clawbackStartTs.toInt) ∧
    ∀ tx accounts, Admissible rt tx → tx.action = .invoke (.clawback accounts) →
      Succeeds rt world tx →
      ∃ distributor, world.distributors accounts.distributor = some distributor ∧
        distributor.endTs.toInt + 86400 ≤ tx.clock.unixTimestamp.toInt ∧
        (∀ status : ClaimStatus,
          status.unlockedAmountAt tx.clock.unixTimestamp distributor.startTs distributor.endTs =
            .ok status.lockedAmount ∧
          status.updateUnlockedAmountClaimed tx.clock.unixTimestamp distributor.startTs
            distributor.endTs =
              .ok { status with unlockedAmountClaimed := status.unlockedAmount }) ∧
        ∀ txs, (∀ later ∈ txs, Admissible rt later) →
          (distributor.closable = false ∨
            ∀ step ∈ transitions (apply rt) (apply rt world tx) txs,
              ¬ Creates rt accounts.distributor step.1 step.2) →
          ∀ later instruction, later.action = .invoke instruction →
            instruction.needsLive = true → instruction.target = accounts.distributor →
            ¬ Succeeds rt (run rt (apply rt world tx) txs) later := by
  have wellFormed := reachable.wellFormed
  refine ⟨fun key distributor found => (wellFormed.schedule key distributor found).2, ?_⟩
  rintro tx accounts admissible sent ⟨after, events, success⟩
  have reached := apply_of_ok success
  simp only [process, sent, dispatch] at success
  obtain ⟨e, rfl⟩ := clawback_execution success
  obtain ⟨ordered, delay⟩ := wellFormed.schedule _ _ e.found
  have due := e.due
  refine ⟨e.distributor, e.found, by omega,
    fun status => vested_after_end status (by omega) (by omega), ?_⟩
  intro txs later_admissible kept later instruction later_sent needs about
  have present : (apply rt world tx).distributors accounts.distributor = some e.next := by
    rw [reached, ClawbackExecution.after_record]
  have flagged : ClawedBack accounts.distributor (apply rt world tx) := by
    intro distributor found
    cases present.symm.trans found
    rfl
  have formed := wellFormed.after_tx admissible
  refine (flagged.run formed later_admissible ?_).fails later_sent needs about
  rcases kept with permanent | kept
  · intro step member
    obtain ⟨before, _, rfl, start⟩ := (mem_transitions_iff _ _ _ _ _).mp member
    have prior : ∀ t ∈ before, Admissible rt t :=
      fun t inside => later_admissible t (by simp [inside])
    obtain ⟨distributor, there, _⟩ := formed.run_record present permanent prior
    rw [start]
    exact not_creates there
  · exact kept

open Sample in
/-- The sample deployment clawed back at the first possible moment, refunded and
unpaused again: the leaf can no longer be claimed. -/
theorem clawback_final_on_sample :
    let clawed := send 86500 [wallet] (.invoke (.clawback
      { distributor := pda, fromAccount := vault, toAccount := receiver, claimant := wallet }))
    let refund := send 86501 [adminId] (.token (.transfer receiver vault adminId 170))
    let unpause := setSlot 86502 0
    Succeeds rt (deployed 100 70 170 170) clawed ∧
      ¬ Succeeds rt (run rt (apply rt (deployed 100 70 170 170) clawed) [refund, unpause])
        (claim 86503 100 70) := by
  intro clawed refund unpause
  have paid : Succeeds rt (deployed 100 70 170 170) clawed := by decide +kernel
  obtain ⟨distributor, found, _, _, final⟩ :=
    (clawback_timing_and_finality (deployed_reachable 100 70 170 170)).2 clawed _
      (admissible_of_foreign (by decide)) rfl paid
  have permanent : distributor.closable = false := by
    cases found
    rfl
  exact ⟨paid, final [refund, unpause] (admissible_of_all rfl) (.inl permanent)
    (claim 86503 100 70) _ rfl rfl rfl⟩

end MultiDistributor.Source

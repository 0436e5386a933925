import MultiDistributor.Guarantees.Cap
import MultiDistributor.Guarantees.Surplus
import MultiDistributor.Source.FundAll

/-!
# Funding while claims go on

The two reads of a funding run and the landing of its transfer are apart in time, and
claims move tokens and the claimed total in between. The surplus of the vault is what all
of this is measured in: claims and re-roots keep it, tokens from outside only raise it.

A claim that falls between the reads makes the run send too much, never too little. So
the vault is covered once the transfer of a run has landed, while it stays within the cap
only if nothing falls between the reads, no earlier transfer is still on its way, and the
tree file does not state a higher cap than the chain.
-/
namespace MultiDistributor.Source
open Lib.Checked Lib.TokenLedger Lib.Replay Lib.InFlight

/-- The distributor a transaction claws back or closes. -/
def Transaction.ends (tx : Transaction) : Option Pubkey :=
  match tx.action with
  | .invoke (.clawback accounts) => some accounts.distributor
  | .invoke (.closeDistributor accounts) => some accounts.distributor
  | _ => none

/-- The distributor a transaction re-roots. -/
def Transaction.reRoots (tx : Transaction) : Option Pubkey :=
  match tx.action with
  | .invoke (.setRoot accounts _) => some accounts.distributor
  | _ => none

theorem reRoots_of_sent {tx : Transaction} {accounts : SetRootAccounts} {args : SetRootArgs}
    (sent : tx.action = .invoke (.setRoot accounts args)) :
    tx.reRoots = some accounts.distributor := by
  simp only [Transaction.reRoots, sent]

/-! ### Transactions of others -/

/-- What a transaction that does not end a distributor may do to it and to its vault. -/
structure Continues (tx : Transaction) (key : Pubkey) (before after : World)
    (distributor next : MerkleDistributor) : Prop where
  found : after.distributors key = some next
  step : AuthorizedStep tx distributor next
  live : next.clawedBack = distributor.clawedBack
  grows : surplus before distributor ≤ surplus after next
  still : tx.action.funds = false → surplus after next = surplus before distributor
  cap : tx.reRoots ≠ some key → next.maxTotalClaim = distributor.maxTotalClaim
  record : tx.action.funds = true → next = distributor

section
variable {rt : Runtime} {world : World} {tx : Transaction} {key : Pubkey}
  {distributor : MerkleDistributor}

theorem StepAt.goes_on {after : World} (step : StepAt rt world tx key distributor after)
    (goesOn : tx.ends ≠ some key) :
    ∃ next, after.distributors key = some next ∧ next.clawedBack = distributor.clawedBack ∧
      (tx.reRoots ≠ some key → next.maxTotalClaim = distributor.maxTotalClaim) ∧
      (tx.action.funds = true → next = distributor) := by
  cases step with
  | untouched quiet record => exact ⟨distributor, record, rfl, fun _ => rfl, fun _ => rfl⟩
  | newClaim sent e here same left =>
    subst here same left
    exact ⟨e.next, e.after_record, rfl, fun _ => rfl, by simp [sent, Action.funds]⟩
  | claimLocked sent e here same left =>
    subst here same left
    exact ⟨e.next, e.after_record, rfl, fun _ => rfl, by simp [sent, Action.funds]⟩
  | setRoot sent e here same left =>
    subst here same left
    exact ⟨e.next, e.after_record, rfl, fun other => absurd (reRoots_of_sent sent) other,
      by simp [sent, Action.funds]⟩
  | clawback sent e here => exact absurd (by simp only [Transaction.ends, sent, here]) goesOn
  | closed sent e here => exact absurd (by simp only [Transaction.ends, sent, here]) goesOn
  | @admin _ _ next sent here signed update left =>
    subst left
    refine ⟨next, by simp, ?_⟩
    cases update <;> exact ⟨rfl, fun _ => rfl, by simp [sent, Action.funds]⟩

theorem StepAt.continues {after : World} (step : StepAt rt world tx key distributor after)
    (goesOn : tx.ends ≠ some key) : ∃ next, Continues tx key world after distributor next := by
  obtain ⟨next, found, live, cap, record⟩ := step.goes_on goesOn
  rcases step.record_cases with ⟨_, gone⟩ | ⟨_, same, authorized⟩
  · cases gone.symm.trans found
  cases found.symm.trans same
  rcases step.surplus with ⟨_, sent, here⟩ | ⟨_, _, gone⟩ | ⟨_, same, grows, still⟩
  · exact absurd (by simp only [Transaction.ends, sent, here]) goesOn
  · cases gone.symm.trans found
  · cases found.symm.trans same
    exact ⟨next, found, authorized, live, grows, still, cap, record⟩

/-- Failed transactions included. -/
theorem WellFormed.continues (wellFormed : WellFormed rt world) (admissible : Admissible rt tx)
    (found : world.distributors key = some distributor)
    (stays : tx.ends = some key → ¬ Succeeds rt world tx) :
    ∃ next, Continues tx key world (apply rt world tx) distributor next := by
  rcases apply_cases rt world tx with ⟨same, _⟩ | ⟨_, success⟩
  · rw [same]
    exact ⟨distributor, found, .refl tx distributor, rfl, le_rfl, fun _ => rfl, fun _ => rfl,
      fun _ => rfl⟩
  · exact (wellFormed.stepAt admissible found).continues fun ends => stays ends success

end

/-! ### The funder's own transactions -/

section
variable {rt : Runtime} {fund : FundAll} {world : World} {distributor : MerkleDistributor}

/-- The wallet that funds is nobody's program address. -/
def FundAll.OwnWallet (rt : Runtime) (fund : FundAll) : Prop :=
  ∀ mint version bump, rt.createProgramAddress mint version bump ≠ fund.keypair

theorem FundAll.OwnWallet.admissible (wallet : fund.OwnWallet rt) (clock : Clock)
    (fundAmount : UInt64) : Admissible rt (fund.transferTx rt clock fundAmount) :=
  fun mint version bump signed => wallet mint version bump (List.mem_singleton.mp signed)

theorem WellFormed.fund_vault (wellFormed : WellFormed rt world)
    (found : world.distributors (fund.distributorPubkey rt) = some distributor)
    (mint : distributor.mint = fund.mint) : fund.tokenVault rt = distributor.tokenVault := by
  rw [wellFormed.associated _ _ found, mint]
  rfl

/-- A transfer that lands adds its amount to the surplus. -/
theorem WellFormed.transfer_lands (wellFormed : WellFormed rt world)
    (wallet : fund.OwnWallet rt)
    (found : world.distributors (fund.distributorPubkey rt) = some distributor)
    (mint : distributor.mint = fund.mint) {clock : Clock} {fundAmount : UInt64} {after : World}
    {events : List Event}
    (landed : process rt world (fund.transferTx rt clock fundAmount) = .ok (after, events)) :
    WellFormed rt after ∧ after.distributors = world.distributors ∧
      surplus after distributor = surplus world distributor + fundAmount.toNat := by
  have admissible := wallet.admissible clock fundAmount
  have kept : WellFormed rt after := apply_of_ok landed ▸ wellFormed.after_tx admissible
  simp only [process, FundAll.transferTx, execOperation, bind_ok_iff, mapError_ok_iff,
    pure_ok_iff, Prod.mk.injEq] at landed
  obtain ⟨tokens, ⟨_, _, moved⟩, rfl, _⟩ := landed
  obtain ⟨source, held, owner⟩ := transfer_owner moved
  have apart := wellFormed.receiver_ne_vault admissible found held
    (owner ▸ List.mem_singleton.mpr rfl)
  rw [wellFormed.fund_vault found mint] at moved
  have received := (transfer_balances moved apart.symm).2
  refine ⟨kept, rfl, ?_⟩
  change (tokens.balance distributor.tokenVault : Int) + _ - _ = _
  rw [received, surplus]
  push_cast
  omega

/-- The first read of a run. -/
theorem FundAll.readDistributor_target {target : UInt64}
    (found : world.distributors (fund.distributorPubkey rt) = some distributor)
    (read : fund.readDistributor rt world = .ok (some target)) :
    fund.merkleTree.maxTotalClaim.toNat =
      target.toNat + distributor.totalAmountClaimed.toNat := by
  unfold FundAll.readDistributor at read
  rw [found] at read
  simp only [bind_ok_iff, okOr_ok_iff, Option.some.injEq, exists_eq_left'] at read
  split at read
  · cases read
  · simp only [bind_ok_iff, okOr_ok_iff, checkedSub_eq_some, pure_ok_iff,
      Option.some.injEq] at read
    obtain ⟨_, difference, rfl⟩ := read
    exact difference

/-- The subtraction of the first read goes through. -/
theorem FundAll.readDistributor_total
    (found : world.distributors (fund.distributorPubkey rt) = some distributor)
    (live : distributor.clawedBack = false)
    (within : distributor.totalAmountClaimed.toNat ≤ fund.merkleTree.maxTotalClaim.toNat) :
    ∃ target, fund.readDistributor rt world = .ok (some target) := by
  obtain ⟨target, difference, _⟩ := checkedSub_total _ _ within
  refine ⟨target, ?_⟩
  unfold FundAll.readDistributor
  rw [found]
  simp only [bind_ok_iff, okOr_ok_iff, pure_ok_iff, Option.some.injEq, exists_eq_left', live,
    Bool.false_eq_true, if_false, difference]

/-- The second read of a run: nothing is missing, or the difference to the target is. -/
theorem WellFormed.readVault_total (wellFormed : WellFormed rt world)
    (found : world.distributors (fund.distributorPubkey rt) = some distributor)
    (mint : distributor.mint = fund.mint) (target : UInt64) :
    (target.toNat ≤ world.tokens.balance distributor.tokenVault ∧
      fund.readVault rt world target = .ok none) ∨
    ∃ fundAmount, target.toNat =
        fundAmount.toNat + world.tokens.balance distributor.tokenVault ∧
      fund.readVault rt world target = .ok (some fundAmount) := by
  obtain ⟨account, held, _⟩ := wellFormed.vault _ _ found
  unfold FundAll.readVault
  rw [wellFormed.fund_vault found mint, held, balance_of_account held]
  by_cases enough : target ≤ account.amount
  · refine .inl ⟨UInt64.le_iff_toNat_le.mp enough, ?_⟩
    simp only [bind_ok_iff, okOr_ok_iff, Option.some.injEq, exists_eq_left', ge_iff_le,
      if_pos enough, pure_ok_iff]
  · have missing := mt UInt64.le_iff_toNat_le.mpr enough
    obtain ⟨fundAmount, subtracted, difference⟩ :=
      checkedSub_total target account.amount (by omega)
    refine .inr ⟨fundAmount, difference, ?_⟩
    simp only [bind_ok_iff, okOr_ok_iff, pure_ok_iff, Option.some.injEq, exists_eq_left',
      ge_iff_le, if_neg enough, subtracted]

end

/-! ### Steps of the machine -/

/-- Everything a step can do. -/
inductive FundMove (rt : Runtime) (fund : FundAll) (state : FundState) :
    FundEvent → FundState → Prop
  | idle (event : FundEvent) : FundMove rt fund state event state
  | chain (tx : Transaction) :
      FundMove rt fund state (.chain tx) { state with world := apply rt state.world tx }
  | readDistributor :
      FundMove rt fund state .readDistributor
        (state.afterDistributor (fund.readDistributor rt state.world))
  | readVault {target : UInt64} (targeted : state.phase = .targeted target) :
      FundMove rt fund state .readVault
        (state.afterVault (fund.readVault rt state.world target))
  | landed {run : Nat} {clock : Clock} {fundAmount : UInt64} {after : World} {events : List Event}
      (sent : state.runs[run]? = some (.pending fundAmount))
      (success : process rt state.world (fund.transferTx rt clock fundAmount) =
        .ok (after, events)) :
      FundMove rt fund state (.land run clock)
        { state with world := after, runs := state.runs.set run (.landed fundAmount) }
  | dropped {run : Nat} {fundAmount : UInt64}
      (sent : state.runs[run]? = some (.pending fundAmount)) :
      FundMove rt fund state (.drop run)
        { state with runs := state.runs.set run (.dropped fundAmount) }

theorem fundMove (rt : Runtime) (fund : FundAll) (state : FundState) (event : FundEvent) :
    FundMove rt fund state event (fundStep rt fund state event) := by
  cases event with
  | chain tx => exact .chain tx
  | readDistributor => exact .readDistributor
  | readVault =>
    simp only [fundStep]
    split
    · next targeted => exact .readVault targeted
    · exact .idle _
  | land run clock =>
    simp only [fundStep]
    split
    · next sent =>
      split
      · next success => exact .landed sent success
      · exact .idle _
    · exact .idle _
  | drop run =>
    simp only [fundStep]
    split
    · next sent => exact .dropped sent
    · exact .idle _

/-- A fresh command on a world, after the given events. -/
abbrev fundRun (rt : Runtime) (fund : FundAll) (world : World) (events : List FundEvent) :
    FundState :=
  replay (fundStep rt fund) ⟨world, .ready, []⟩ events

/-- The world of the machine has the distributor that the command funds. -/
structure Watches (rt : Runtime) (fund : FundAll) (world : World)
    (distributor : MerkleDistributor) : Prop where
  wellFormed : WellFormed rt world
  found : world.distributors (fund.distributorPubkey rt) = some distributor
  mint : distributor.mint = fund.mint

section
variable {rt : Runtime} {fund : FundAll} {world : World} {distributor : MerkleDistributor}

theorem Watches.chain (watches : Watches rt fund world distributor) {tx : Transaction}
    (admissible : Admissible rt tx)
    (stays : tx.ends = some (fund.distributorPubkey rt) → ¬ Succeeds rt world tx) :
    ∃ next, Watches rt fund (apply rt world tx) next ∧
      Continues tx (fund.distributorPubkey rt) world (apply rt world tx) distributor next := by
  obtain ⟨next, continued⟩ := watches.wellFormed.continues admissible watches.found stays
  exact ⟨next, ⟨watches.wellFormed.after_tx admissible, continued.found,
    continued.step.terms.mint.trans watches.mint⟩, continued⟩

theorem Watches.lands (watches : Watches rt fund world distributor) (wallet : fund.OwnWallet rt)
    {clock : Clock} {fundAmount : UInt64} {after : World} {events : List Event}
    (success : process rt world (fund.transferTx rt clock fundAmount) = .ok (after, events)) :
    Watches rt fund after distributor ∧
      surplus after distributor = surplus world distributor + fundAmount.toNat := by
  obtain ⟨wellFormed, records, grown⟩ :=
    watches.wellFormed.transfer_lands wallet watches.found watches.mint success
  exact ⟨⟨wellFormed, records ▸ watches.found, watches.mint⟩, grown⟩

end

/-! ### The vault is covered -/

/-- The distributor is live under the cap of the tree file, a target that was read is not too
low by now, and every run makes up for what is missing. -/
structure Covered (rt : Runtime) (fund : FundAll) (state : FundState)
    (distributor : MerkleDistributor) : Prop where
  watches : Watches rt fund state.world distributor
  capped : Capped state.world
  live : distributor.clawedBack = false
  cap : distributor.maxTotalClaim = fund.merkleTree.maxTotalClaim
  running : ∀ reason, state.phase ≠ .failed reason
  target : ∀ target, state.phase = .targeted target →
    distributor.maxTotalClaim.toNat ≤ target.toNat + distributor.totalAmountClaimed.toNat
  covers : Covers UInt64.toNat (surplus state.world distributor) state.runs

/-- Transactions of others are claims, transfers and whatever else neither ends nor re-roots
the distributor. -/
def Undisturbed (rt : Runtime) (fund : FundAll) (state : FundState) (tx : Transaction) : Prop :=
  Admissible rt tx ∧
    (tx.ends = some (fund.distributorPubkey rt) → ¬ Succeeds rt state.world tx) ∧
    (tx.reRoots = some (fund.distributorPubkey rt) → ¬ Succeeds rt state.world tx)

section
variable {rt : Runtime} {fund : FundAll} {state : FundState} {distributor : MerkleDistributor}

theorem Covered.chain (covered : Covered rt fund state distributor) {tx : Transaction}
    (undisturbed : Undisturbed rt fund state tx) :
    ∃ next, Covered rt fund { state with world := apply rt state.world tx } next := by
  obtain ⟨admissible, stays, keepsCap⟩ := undisturbed
  obtain ⟨next, watches, continued⟩ := covered.watches.chain admissible stays
  have cap : next.maxTotalClaim = distributor.maxTotalClaim := by
    rcases apply_cases rt state.world tx with ⟨same, _⟩ | ⟨_, success⟩
    · have again := continued.found
      rw [same, covered.watches.found] at again
      cases again
      rfl
    · exact continued.cap fun reRoots => keepsCap reRoots success
  refine ⟨next, ?_⟩
  exact
    { watches
      capped := covered.capped.step covered.watches.wellFormed admissible
      live := continued.live.trans covered.live
      cap := cap.trans covered.cap
      running := covered.running
      target := fun target targeted => by
        have before := covered.target target targeted
        have grown := continued.step.claimed
        rw [cap]
        omega
      covers := covered.covers.mono UInt64.toNat continued.grows }

/-- The first read finds a target, and the right one at that moment. -/
theorem Covered.readDistributor (covered : Covered rt fund state distributor) :
    Covered rt fund (state.afterDistributor (fund.readDistributor rt state.world))
      distributor := by
  have within := covered.capped _ _ covered.watches.found
  rw [covered.cap] at within
  obtain ⟨target, read⟩ :=
    FundAll.readDistributor_total covered.watches.found covered.live within
  have value := FundAll.readDistributor_target covered.watches.found read
  rw [read]
  exact
    { watches := covered.watches
      capped := covered.capped
      live := covered.live
      cap := covered.cap
      running := by simp [FundState.afterDistributor]
      target := fun other targeted => by
        cases targeted
        rw [covered.cap]
        omega
      covers := covered.covers }

/-- A run that ends with a transfer making up for what is missing. -/
theorem Covered.ends_run (covered : Covered rt fund state distributor)
    {transfer : Transfer UInt64}
    (made : transfer.MakesUp UInt64.toNat (surplus state.world distributor)) :
    Covered rt fund { state with phase := .ready, runs := state.runs ++ [transfer] }
      distributor where
  watches := covered.watches
  capped := covered.capped
  live := covered.live
  cap := covered.cap
  running := by simp
  target := by simp
  covers := covered.covers.concat _ made

/-- The second read ends the run, with nothing to send or with what is missing. -/
theorem Covered.readVault (covered : Covered rt fund state distributor) {target : UInt64}
    (targeted : state.phase = .targeted target) :
    Covered rt fund (state.afterVault (fund.readVault rt state.world target)) distributor := by
  have enough := covered.target target targeted
  rcases covered.watches.wellFormed.readVault_total covered.watches.found covered.watches.mint
    target with ⟨held, read⟩ | ⟨fundAmount, difference, read⟩
  · rw [read]
    refine covered.ends_run ?_
    rw [Transfer.MakesUp, surplus]
    omega
  · rw [read]
    refine covered.ends_run ?_
    rw [Transfer.MakesUp, surplus]
    omega

/-- A transfer that lands fills the vault up. -/
theorem Covered.lands (covered : Covered rt fund state distributor) (wallet : fund.OwnWallet rt)
    {run : Nat} {clock : Clock} {fundAmount : UInt64} {after : World} {events : List Event}
    (sent : state.runs[run]? = some (.pending fundAmount))
    (success : process rt state.world (fund.transferTx rt clock fundAmount) =
      .ok (after, events)) :
    Covered rt fund { state with world := after, runs := state.runs.set run (.landed fundAmount) }
      distributor := by
  obtain ⟨watches, grown⟩ := covered.watches.lands wallet success
  have capped := covered.capped.step covered.watches.wellFormed
    (wallet.admissible clock fundAmount)
  rw [apply_of_ok success] at capped
  exact
    { watches, capped, live := covered.live, cap := covered.cap, running := covered.running
      target := covered.target
      covers := by
        rw [grown]
        exact covered.covers.land _ sent }

theorem Covered.step (covered : Covered rt fund state distributor) (wallet : fund.OwnWallet rt)
    {event : FundEvent} (undisturbed : ∀ tx, event = .chain tx → Undisturbed rt fund state tx) :
    ∃ next, Covered rt fund (fundStep rt fund state event) next := by
  have move := fundMove rt fund state event
  generalize fundStep rt fund state event = after at move ⊢
  cases move with
  | idle => exact ⟨distributor, covered⟩
  | chain tx => exact covered.chain (undisturbed tx rfl)
  | readDistributor => exact ⟨distributor, covered.readDistributor⟩
  | readVault targeted => exact ⟨distributor, covered.readVault targeted⟩
  | landed sent success => exact ⟨distributor, covered.lands wallet sent success⟩
  | dropped sent =>
    exact ⟨distributor, { covered with covers := covered.covers.drop _ _ _ }⟩

end

/-- Whatever claims and transfers of others come in between: no run of the command whose calls
to the node are answered fails, and once the transfer of a run has landed, or if none was
needed, the vault covers what can still be claimed, from then on. -/
theorem funding_covers {rt : Runtime} {fund : FundAll} (wallet : fund.OwnWallet rt)
    {world : World} (reachable : Reachable rt world) {distributor : MerkleDistributor}
    (found : world.distributors (fund.distributorPubkey rt) = some distributor)
    (mint : distributor.mint = fund.mint) (live : distributor.clawedBack = false)
    (cap : distributor.maxTotalClaim = fund.merkleTree.maxTotalClaim) {events : List FundEvent}
    (undisturbed : ∀ pre tx,
      (pre, .chain tx) ∈ transitions (fundStep rt fund) ⟨world, .ready, []⟩ events →
        Undisturbed rt fund pre tx) :
    ∃ next, (fundRun rt fund world events).world.distributors (fund.distributorPubkey rt) =
        some next ∧
      (∀ reason, (fundRun rt fund world events).phase ≠ .failed reason) ∧
      next.totalAmountClaimed.toNat ≤ fund.merkleTree.maxTotalClaim.toNat ∧
      ∀ transfer ∈ (fundRun rt fund world events).runs, transfer.Complete →
        next.maxTotalClaim.toNat ≤
          (fundRun rt fund world events).world.tokens.balance (fund.tokenVault rt) +
            next.totalAmountClaimed.toNat := by
  have start : Covered rt fund ⟨world, .ready, []⟩ distributor :=
    { watches := ⟨reachable.wellFormed, found, mint⟩, capped := reachable.capped, live, cap
      running := by simp, target := by simp, covers := by simp [Covers] }
  have kept : ∃ next, Covered rt fund (fundRun rt fund world events) next := by
    apply replay_invariant_along (fundStep rt fund)
      (fun state => ∃ next, Covered rt fund state next)
    · rintro pre event member ⟨next, covered⟩
      refine covered.step wallet fun tx same => undisturbed pre tx ?_
      rw [← same]
      exact member
    · exact ⟨distributor, start⟩
  obtain ⟨next, covered⟩ := kept
  have bound := covered.capped _ _ covered.watches.found
  rw [covered.cap] at bound
  refine ⟨next, covered.watches.found, covered.running, bound, ?_⟩
  intro transfer member complete
  have enough := (covered.covers transfer member).complete _ complete
  rw [covered.watches.wellFormed.fund_vault covered.watches.found covered.watches.mint]
  rw [surplus] at enough
  omega

/-! ### The vault stays within the cap -/

/-- The vault and the transfers in flight together stay within what can still be claimed. -/
structure Bounded (rt : Runtime) (fund : FundAll) (state : FundState)
    (distributor : MerkleDistributor) : Prop where
  watches : Watches rt fund state.world distributor
  within : Within UInt64.toNat (surplus state.world distributor) state.runs

/-- Transactions of others do not end the distributor and bring nothing into its vault. -/
def NoDeposit (rt : Runtime) (fund : FundAll) (state : FundState) (tx : Transaction) : Prop :=
  Admissible rt tx ∧
    (tx.ends = some (fund.distributorPubkey rt) → ¬ Succeeds rt state.world tx) ∧
    (tx.action.funds = true → (apply rt state.world tx).tokens.balance (fund.tokenVault rt) ≤
      state.world.tokens.balance (fund.tokenVault rt))

/-- When the vault is read, no earlier transfer is on its way, the claimed total is still the
one the target was computed from, and the chain's cap is not below that of the tree file. -/
def FreshRead (rt : Runtime) (fund : FundAll) (state : FundState) : Prop :=
  ∀ target distributor, state.phase = .targeted target →
    state.world.distributors (fund.distributorPubkey rt) = some distributor →
    (∀ amount, .pending amount ∉ state.runs) ∧
      target.toNat + distributor.totalAmountClaimed.toNat =
        fund.merkleTree.maxTotalClaim.toNat ∧
      fund.merkleTree.maxTotalClaim.toNat ≤ distributor.maxTotalClaim.toNat

section
variable {rt : Runtime} {fund : FundAll} {state : FundState} {distributor : MerkleDistributor}

theorem Bounded.chain (bounded : Bounded rt fund state distributor) {tx : Transaction}
    (noDeposit : NoDeposit rt fund state tx) :
    ∃ next, Bounded rt fund { state with world := apply rt state.world tx } next := by
  obtain ⟨admissible, stays, silent⟩ := noDeposit
  obtain ⟨next, watches, continued⟩ := bounded.watches.chain admissible stays
  have shrinks : surplus (apply rt state.world tx) next ≤ surplus state.world distributor := by
    cases deposits : tx.action.funds with
    | false => exact (continued.still deposits).le
    | true =>
      have less := silent deposits
      rw [bounded.watches.wellFormed.fund_vault bounded.watches.found bounded.watches.mint] at less
      rw [continued.record deposits, surplus, surplus]
      omega
  exact ⟨next, watches, bounded.within.mono _ shrinks⟩

theorem Bounded.readDistributor (bounded : Bounded rt fund state distributor)
    (result : Except CliFailure (Option UInt64)) :
    Bounded rt fund (state.afterDistributor result) distributor := by
  rcases result with reason | _ | target <;> exact ⟨bounded.watches, bounded.within⟩

/-- On a fresh read the transfer that is sent is exactly what is missing. -/
theorem Bounded.readVault (bounded : Bounded rt fund state distributor) {target : UInt64}
    (targeted : state.phase = .targeted target) (fresh : FreshRead rt fund state) :
    Bounded rt fund (state.afterVault (fund.readVault rt state.world target)) distributor := by
  obtain ⟨arrived, current, cap⟩ := fresh target distributor targeted bounded.watches.found
  rcases bounded.watches.wellFormed.readVault_total bounded.watches.found bounded.watches.mint
    target with ⟨_, read⟩ | ⟨fundAmount, difference, read⟩
  · rw [read]
    exact ⟨bounded.watches, bounded.within.unneeded _⟩
  · rw [read]
    have missing : surplus state.world distributor + fundAmount.toNat ≤ 0 := by
      rw [surplus]
      omega
    exact ⟨bounded.watches, within_send _ arrived missing⟩

theorem Bounded.step (bounded : Bounded rt fund state distributor) (wallet : fund.OwnWallet rt)
    {event : FundEvent} (noDeposit : ∀ tx, event = .chain tx → NoDeposit rt fund state tx)
    (fresh : event = .readVault → FreshRead rt fund state) :
    ∃ next, Bounded rt fund (fundStep rt fund state event) next := by
  have move := fundMove rt fund state event
  generalize fundStep rt fund state event = after at move ⊢
  cases move with
  | idle => exact ⟨distributor, bounded⟩
  | chain tx => exact bounded.chain (noDeposit tx rfl)
  | readDistributor => exact ⟨distributor, bounded.readDistributor _⟩
  | readVault targeted => exact ⟨distributor, bounded.readVault targeted (fresh rfl)⟩
  | landed sent success =>
    obtain ⟨watches, grown⟩ := bounded.watches.lands wallet success
    refine ⟨distributor, watches, ?_⟩
    rw [grown]
    exact bounded.within.land _ sent
  | dropped sent => exact ⟨distributor, bounded.watches, bounded.within.drop _ sent⟩

end

/-- Funding never exceeds the cap in a run whose vault reads are all fresh: what the vault
holds, what was claimed and what is still on its way stay within it. -/
theorem funding_within_cap {rt : Runtime} {fund : FundAll} (wallet : fund.OwnWallet rt)
    {world : World} (reachable : Reachable rt world) {distributor : MerkleDistributor}
    (found : world.distributors (fund.distributorPubkey rt) = some distributor)
    (mint : distributor.mint = fund.mint)
    (initial : world.tokens.balance (fund.tokenVault rt) + distributor.totalAmountClaimed.toNat ≤
      distributor.maxTotalClaim.toNat) {events : List FundEvent}
    (noDeposit : ∀ pre tx,
      (pre, .chain tx) ∈ transitions (fundStep rt fund) ⟨world, .ready, []⟩ events →
        NoDeposit rt fund pre tx)
    (fresh : ∀ pre,
      (pre, .readVault) ∈ transitions (fundStep rt fund) ⟨world, .ready, []⟩ events →
        FreshRead rt fund pre) :
    ∃ next, (fundRun rt fund world events).world.distributors (fund.distributorPubkey rt) =
        some next ∧
      (fundRun rt fund world events).world.tokens.balance (fund.tokenVault rt) +
          next.totalAmountClaimed.toNat +
          total UInt64.toNat (fundRun rt fund world events).runs ≤
        next.maxTotalClaim.toNat := by
  have start : Bounded rt fund ⟨world, .ready, []⟩ distributor := by
    refine ⟨⟨reachable.wellFormed, found, mint⟩, ?_⟩
    rw [reachable.wellFormed.fund_vault found mint] at initial
    rw [Within, total_nil, surplus]
    dsimp only
    omega
  have kept : ∃ next, Bounded rt fund (fundRun rt fund world events) next := by
    apply replay_invariant_along (fundStep rt fund)
      (fun state => ∃ next, Bounded rt fund state next)
    · rintro pre event member ⟨next, bounded⟩
      refine bounded.step wallet (fun tx same => noDeposit pre tx ?_)
        fun same => fresh pre ?_
      · rw [← same]
        exact member
      · rw [← same]
        exact member
    · exact ⟨distributor, start⟩
  obtain ⟨next, bounded⟩ := kept
  have within := bounded.within
  refine ⟨next, bounded.watches.found, ?_⟩
  rw [bounded.watches.wellFormed.fund_vault bounded.watches.found bounded.watches.mint]
  rw [Within, surplus] at within
  omega

namespace Sample

/-- The sample chain, with a token account of its own for the admin who funds. -/
def fundRt : Runtime :=
  { rt with associatedTokenAddress := fun owner _ => if owner = pda then vault else receiver }

/-- One distributor with a cap of 170, the given funds in its vault and 1000 tokens with the
funder. -/
def fundWorld (funds : UInt64) : World :=
  run fundRt emptyWorld (openAccounts funds ++
    [send 0 [] (.token (.mintTo mint receiver 1000)), create 100 70 170 false])

def fundCommand : FundAll where
  mint := mint
  keypair := adminId
  merkleTree :=
    { merkleRoot := claimLeaf digest wallet 100 70, airdropVersion := 0, maxNumNodes := 1
      maxTotalClaim := 170, treeNodes := [] }

def landing : FundEvent := .land 0 { slot := 10, unixTimestamp := 60 }

theorem fundCommand_wallet : fundCommand.OwnWallet fundRt := by
  intro _ _ _
  change pda ≠ adminId
  decide

theorem fundCommand_key : fundCommand.distributorPubkey fundRt = pda := rfl

theorem fundCommand_vault : fundCommand.tokenVault fundRt = vault := by decide

theorem fundWorld_reachable (funds : UInt64) : Reachable fundRt (fundWorld funds) :=
  ⟨emptyWorld, _, emptyWorld_genesis, admissible_of_all rfl, rfl⟩

/-- The record the sample command funds. -/
theorem fundWorld_record (funds : UInt64) (check : MerkleDistributor → Bool)
    (passes : ((fundWorld funds).distributors pda).any check = true) :
    ∃ record, (fundWorld funds).distributors (fundCommand.distributorPubkey fundRt) =
      some record ∧ check record = true :=
  record_of check passes

end Sample

open Sample in
/-- A vault with 100 of 170 tokens, a claim of 75 between the two reads: the run sends 145,
and the vault is covered once they have landed. -/
theorem funding_covers_on_sample :
    let events := [.readDistributor, .chain (claim 50 100 70), .readVault, landing]
    ∃ next, (fundRun fundRt fundCommand (fundWorld 100) events).world.distributors pda =
        some next ∧
      next.maxTotalClaim.toNat ≤
        (fundRun fundRt fundCommand (fundWorld 100) events).world.tokens.balance vault +
          next.totalAmountClaimed.toNat := by
  intro events
  obtain ⟨record, found, check⟩ := fundWorld_record 100
    (fun record => decide (record.mint = mint ∧ record.clawedBack = false ∧
      record.maxTotalClaim = 170)) (by decide +kernel)
  obtain ⟨sameMint, live, cap⟩ := of_decide_eq_true check
  have landed : (fundRun fundRt fundCommand (fundWorld 100) events).runs = [.landed 145] := by
    decide +kernel
  have undisturbed : ∀ pre tx, (pre, .chain tx) ∈
      transitions (fundStep fundRt fundCommand) ⟨fundWorld 100, .ready, []⟩ events →
        Undisturbed fundRt fundCommand pre tx := by
    intro pre tx member
    have listed := event_of_transition _ member
    obtain rfl : tx = claim 50 100 70 := by simpa [events, landing] using listed
    exact ⟨admissible_of_foreign (by decide), nofun, nofun⟩
  obtain ⟨next, present, _, _, covered⟩ := funding_covers fundCommand_wallet
    (fundWorld_reachable 100) found sameMint live cap undisturbed
  rw [fundCommand_key] at present
  rw [fundCommand_vault, landed] at covered
  exact ⟨next, present, covered (.landed 145) (List.mem_singleton_self _) trivial⟩

namespace Sample

def arrived : Transfer UInt64 → Bool
  | .pending _ => false
  | _ => true

/-- Whether a read of the sample vault would be fresh. -/
def freshCheck (state : FundState) : Bool :=
  match state.phase with
  | .targeted target =>
      state.runs.all arrived && (state.world.distributors pda).all fun record =>
        decide (target.toNat + record.totalAmountClaimed.toNat = 170 ∧
          170 ≤ record.maxTotalClaim.toNat)
  | _ => true

theorem freshRead_of_check {state : FundState} (passes : freshCheck state = true) :
    FreshRead fundRt fundCommand state := by
  intro target record targeted found
  rw [fundCommand_key] at found
  simp only [freshCheck, targeted, found, Bool.and_eq_true, List.all_eq_true, Option.all_some,
    decide_eq_true_eq] at passes
  refine ⟨fun amount member => ?_, passes.2⟩
  cases passes.1 _ member

/-- The check at every read of the vault along the events. -/
def freshChecks : FundState → List FundEvent → Bool
  | _, [] => true
  | state, .readVault :: rest =>
    freshCheck state && freshChecks (fundStep fundRt fundCommand state .readVault) rest
  | state, event :: rest => freshChecks (fundStep fundRt fundCommand state event) rest

theorem freshReads_of_checks {state : FundState} {events : List FundEvent}
    (passes : freshChecks state events = true) :
    ∀ pre, (pre, .readVault) ∈ transitions (fundStep fundRt fundCommand) state events →
      FreshRead fundRt fundCommand pre := by
  induction events generalizing state with
  | nil =>
    intro pre step
    cases step
  | cons event rest ih =>
    intro pre step
    rcases List.mem_cons.mp step with here | later
    · obtain ⟨rfl, rfl⟩ := Prod.mk.inj here
      rw [freshChecks, Bool.and_eq_true] at passes
      exact freshRead_of_check passes.1
    · cases event with
      | readVault =>
        rw [freshChecks, Bool.and_eq_true] at passes
        exact ih passes.2 pre later
      | chain tx => exact ih passes pre later
      | readDistributor => exact ih passes pre later
      | land run clock => exact ih passes pre later
      | drop run => exact ih passes pre later

end Sample

open Sample in
/-- A first run fills the vault, a claim follows, and a second run has nothing to do. -/
theorem funding_within_cap_on_sample :
    let events := [.readDistributor, .readVault, landing, .chain (claim 50 100 70),
      .readDistributor, .readVault]
    ∃ next, (fundRun fundRt fundCommand (fundWorld 100) events).world.distributors pda =
        some next ∧
      (fundRun fundRt fundCommand (fundWorld 100) events).world.tokens.balance vault +
          next.totalAmountClaimed.toNat +
          total UInt64.toNat (fundRun fundRt fundCommand (fundWorld 100) events).runs ≤
        next.maxTotalClaim.toNat := by
  intro events
  obtain ⟨record, found, check⟩ := fundWorld_record 100
    (fun record => decide (record.mint = mint ∧ 100 + record.totalAmountClaimed.toNat ≤
      record.maxTotalClaim.toNat)) (by decide +kernel)
  obtain ⟨sameMint, room⟩ := of_decide_eq_true check
  have held : (fundWorld 100).tokens.balance vault = 100 := by decide +kernel
  have passes : freshChecks ⟨fundWorld 100, .ready, []⟩ events = true := by decide +kernel
  have noDeposit : ∀ pre tx, (pre, .chain tx) ∈
      transitions (fundStep fundRt fundCommand) ⟨fundWorld 100, .ready, []⟩ events →
        NoDeposit fundRt fundCommand pre tx := by
    intro pre tx member
    have listed := event_of_transition _ member
    obtain rfl : tx = claim 50 100 70 := by simpa [events, landing] using listed
    exact ⟨admissible_of_foreign (by decide), nofun, nofun⟩
  have within := funding_within_cap fundCommand_wallet (fundWorld_reachable 100) found sameMint
    (by rw [fundCommand_vault, held]; exact room) noDeposit (freshReads_of_checks passes)
  rw [fundCommand_key, fundCommand_vault] at within
  exact within

open Sample in
/-- A fully funded vault and a claim of 75 between the two reads of a run: the run sends 75
tokens that nobody can claim. -/
theorem claim_between_reads_overfunds :
    let events := [.readDistributor, .chain (claim 50 100 70), .readVault, landing]
    Reachable fundRt (fundWorld 170) ∧
      (∃ record, (fundWorld 170).distributors pda = some record ∧
        (fundWorld 170).tokens.balance vault + record.totalAmountClaimed.toNat ≤
          record.maxTotalClaim.toNat) ∧
      (fundRun fundRt fundCommand (fundWorld 170) events).runs = [.landed 75] ∧
      ∃ record, (fundRun fundRt fundCommand (fundWorld 170) events).world.distributors pda =
          some record ∧
        record.maxTotalClaim.toNat <
          (fundRun fundRt fundCommand (fundWorld 170) events).world.tokens.balance vault +
            record.totalAmountClaimed.toNat := by
  intro events
  have before : ((fundWorld 170).distributors pda).any (fun record =>
      decide ((fundWorld 170).tokens.balance vault + record.totalAmountClaimed.toNat ≤
        record.maxTotalClaim.toNat)) = true := by decide +kernel
  have landed : (fundRun fundRt fundCommand (fundWorld 170) events).runs = [.landed 75] := by
    decide +kernel
  have after : ((fundRun fundRt fundCommand (fundWorld 170) events).world.distributors pda).any
      (fun record => decide (record.maxTotalClaim.toNat <
        (fundRun fundRt fundCommand (fundWorld 170) events).world.tokens.balance vault +
          record.totalAmountClaimed.toNat)) = true := by decide +kernel
  obtain ⟨first, found, within⟩ := record_of _ before
  obtain ⟨last, reached, beyond⟩ := record_of _ after
  exact ⟨fundWorld_reachable 170, ⟨first, found, of_decide_eq_true within⟩, landed,
    last, reached, of_decide_eq_true beyond⟩

end MultiDistributor.Source

import MultiDistributor.Source.Executions

/-!
# Well-formed worlds and the step of one distributor

Facts about accounts that every reachable world has, and what they give: a vault
belongs to one distributor only, no receiver of a claim is a vault, and a step that
is not about a distributor leaves its record and claim statuses alone and takes
nothing from its vault. `stepAt` states this for one distributor; the guarantees
about counters, authority and finality are read off it.
-/
namespace MultiDistributor.Source
open Lib.Checked Lib.TokenLedger Lib.Replay

structure WellFormed (rt : Runtime) (world : World) : Prop where
  address : ∀ key distributor, world.distributors key = some distributor →
    rt.createProgramAddress distributor.mint distributor.version distributor.bump = key
  vault : ∀ key distributor, world.distributors key = some distributor →
    ∃ account, world.tokens.accounts distributor.tokenVault = some account ∧ account.owner = key
  associated : ∀ key distributor, world.distributors key = some distributor →
    distributor.tokenVault = rt.associatedTokenAddress key distributor.mint
  schedule : ∀ key distributor, world.distributors key = some distributor →
    distributor.startTs.toInt < distributor.endTs.toInt ∧
      distributor.endTs.toInt + 86400 ≤ distributor.clawbackStartTs.toInt
  status : ∀ claimant key status, world.claimStatuses claimant key = some status →
    status.claimant = claimant ∧ status.distributor = key ∧
      status.unlockedAmountClaimed.toNat ≤ status.unlockedAmount.toNat ∧
      status.lockedAmountWithdrawn.toNat ≤ status.lockedAmount.toNat
  conserved : Conserved world.tokens

theorem genesis_wellFormed {rt : Runtime} {world : World} (genesis : Genesis world) :
    WellFormed rt world where
  address key distributor found := by simp [genesis.1 key] at found
  vault key distributor found := by simp [genesis.1 key] at found
  associated key distributor found := by simp [genesis.1 key] at found
  schedule key distributor found := by simp [genesis.1 key] at found
  status claimant key status found := by simp [genesis.2.1 claimant key] at found
  conserved := genesis.2.2

section
variable {rt : Runtime} {world : World} {tx : Transaction}

/-- A vault's owner is a derived address, so no outside party signs for it. -/
theorem WellFormed.vault_foreign (wellFormed : WellFormed rt world) (admissible : Admissible rt tx)
    {key : Pubkey} {distributor : MerkleDistributor}
    (found : world.distributors key = some distributor) : key ∉ tx.signers := by
  rw [← wellFormed.address key distributor found]
  exact admissible _ _ _

/-- Two distributors never share a vault. -/
theorem WellFormed.vault_inj (wellFormed : WellFormed rt world) {a b : Pubkey}
    {x y : MerkleDistributor} (hx : world.distributors a = some x)
    (hy : world.distributors b = some y) (same : x.tokenVault = y.tokenVault) : a = b := by
  obtain ⟨account, hfirst, rfl⟩ := wellFormed.vault a x hx
  obtain ⟨other, hsecond, rfl⟩ := wellFormed.vault b y hy
  rw [same, hsecond] at hfirst
  cases hfirst
  rfl

/-- An account whose owner signs is nobody's vault. -/
theorem WellFormed.receiver_ne_vault (wellFormed : WellFormed rt world)
    (admissible : Admissible rt tx) {key receiver : Pubkey} {distributor : MerkleDistributor}
    {account : TokenAccount Pubkey} (found : world.distributors key = some distributor)
    (held : world.tokens.accounts receiver = some account) (signed : account.owner ∈ tx.signers) :
    distributor.tokenVault ≠ receiver := by
  rintro rfl
  obtain ⟨vault, hvault, owner⟩ := wellFormed.vault key distributor found
  cases hvault.symm.trans held
  rw [owner] at signed
  exact wellFormed.vault_foreign admissible found signed

/-- A transfer out of a vault to an account whose owner signs moves its amount. -/
theorem WellFormed.payout_balances (wellFormed : WellFormed rt world)
    (admissible : Admissible rt tx) {key vault receiver authority : Pubkey}
    {distributor : MerkleDistributor} {account : TokenAccount Pubkey} {amount : UInt64}
    {tokens : Ledger Pubkey} (found : world.distributors key = some distributor)
    (address : vault = distributor.tokenVault)
    (held : world.tokens.accounts receiver = some account) (signed : account.owner ∈ tx.signers)
    (moved : world.tokens.transfer vault receiver authority amount = .ok tokens) :
    world.tokens.balance distributor.tokenVault =
        tokens.balance distributor.tokenVault + amount.toNat ∧
      tokens.balance receiver = world.tokens.balance receiver + amount.toNat := by
  subst address
  exact transfer_balances moved (wellFormed.receiver_ne_vault admissible found held signed)

theorem burnExcess_cases {accounts : SetRootAccounts} {distributor : MerkleDistributor}
    {burned : UInt64} {tokens : Ledger Pubkey}
    (success : burnExcess rt world accounts distributor burned = .ok tokens) :
    (burned = 0 ∧ tokens = world.tokens) ∨
      world.tokens.burn accounts.tokenVault accounts.mint accounts.distributor burned =
        .ok tokens := by
  unfold burnExcess at success
  split at success
  · simp only [invokeBurn, bind_ok_iff, require_ok_iff, mapError_ok_iff] at success
    obtain ⟨_, _, burned⟩ := success
    exact .inr burned
  · next zero =>
    cases success
    left
    rw [gt_iff_lt, UInt64.lt_iff_toNat_lt] at zero
    exact ⟨UInt64.toNat_inj.mp (by simpa using zero), rfl⟩

/-- The tokens after a successful transaction come from a transfer, a burn, an outside
operation, or are the same. -/
inductive TokenStep (tx : Transaction) (before : Ledger Pubkey) : Ledger Pubkey → Prop
  | same : TokenStep tx before before
  | transfer {source destination authority : Pubkey} {amount : UInt64} {after : Ledger Pubkey}
      (moved : before.transfer source destination authority amount = .ok after) :
      TokenStep tx before after
  | burn {source mint authority : Pubkey} {amount : UInt64} {after : Ledger Pubkey}
      (burned : before.burn source mint authority amount = .ok after) : TokenStep tx before after
  | outside {operation : Operation Pubkey} {after : Ledger Pubkey}
      (done : execOperation tx.signers before operation = .ok after) : TokenStep tx before after

theorem Execution.tokenStep {after : World} (execution : Execution rt world tx after) :
    TokenStep tx world.tokens after.tokens := by
  cases execution with
  | newDistributor sent e => exact .same
  | newClaim sent e => exact .transfer e.moved
  | claimLocked sent e => exact .transfer e.moved
  | setRoot sent e =>
    rcases burnExcess_cases e.burn with ⟨_, same⟩ | burned
    · rw [show e.after.tokens = world.tokens from same]
      exact .same
    · exact .burn burned
  | clawback sent e => exact .transfer e.moved
  | closeDistributor sent e => exact .transfer e.moved
  | admin sent found signed authority update => exact .same
  | token sent done => exact .outside done

theorem TokenStep.conserved {before after : Ledger Pubkey} (step : TokenStep tx before after)
    (conserved : Conserved before) : Conserved after := by
  cases step with
  | same => exact conserved
  | transfer moved => exact transfer_conserved moved conserved
  | burn burned => exact burn_conserved burned conserved
  | outside done => exact execOperation_conserved done conserved

theorem TokenStep.retains {before after : Ledger Pubkey} {key : Pubkey}
    {account : TokenAccount Pubkey} (step : TokenStep tx before after)
    (found : before.accounts key = some account) (foreign : account.owner ∉ tx.signers) :
    ∃ amount, after.accounts key = some { account with amount } := by
  cases step with
  | same => exact ⟨account.amount, found⟩
  | transfer moved => exact transfer_retains key moved account found
  | burn burned => exact burn_retains key burned account found
  | outside done => exact (execOperation_keeps done found foreign).retains account found

/-- The fields fixed when a distributor is created. -/
structure SameTerms (before after : MerkleDistributor) : Prop where
  bump : after.bump = before.bump
  version : after.version = before.version
  mint : after.mint = before.mint
  tokenVault : after.tokenVault = before.tokenVault
  maxNumNodes : after.maxNumNodes = before.maxNumNodes
  startTs : after.startTs = before.startTs
  endTs : after.endTs = before.endTs
  closable : after.closable = before.closable

theorem SameTerms.refl (distributor : MerkleDistributor) : SameTerms distributor distributor := by
  constructor <;> rfl

theorem SameTerms.trans {a b c : MerkleDistributor} (first : SameTerms a b)
    (second : SameTerms b c) : SameTerms a c where
  bump := second.bump.trans first.bump
  version := second.version.trans first.version
  mint := second.mint.trans first.mint
  tokenVault := second.tokenVault.trans first.tokenVault
  maxNumNodes := second.maxNumNodes.trans first.maxNumNodes
  startTs := second.startTs.trans first.startTs
  endTs := second.endTs.trans first.endTs
  closable := second.closable.trans first.closable

/-- Replacing a record under the same terms. -/
private theorem replaced_origin {base : World} {target key : Pubkey}
    {distributor replacement next : MerkleDistributor}
    (same : base.distributors = world.distributors)
    (present : world.distributors target = some distributor)
    (terms : SameTerms distributor replacement)
    (clawback : replacement.clawbackStartTs = distributor.clawbackStartTs ∨
      distributor.endTs.toInt + 86400 ≤ replacement.clawbackStartTs.toInt)
    (found : (base.setDistributor target (some replacement)).distributors key = some next) :
    ∃ distributor, world.distributors key = some distributor ∧ SameTerms distributor next ∧
      (next.clawbackStartTs = distributor.clawbackStartTs ∨
        distributor.endTs.toInt + 86400 ≤ next.clawbackStartTs.toInt) := by
  rw [setDistributor_distributors, same] at found
  split at found
  · next here =>
    cases found
    exact ⟨distributor, here ▸ present, terms, clawback⟩
  · exact ⟨next, found, .refl next, .inl rfl⟩

theorem NewClaimExecution.terms {accounts : NewClaimAccounts} {args : NewClaimArgs}
    (e : NewClaimExecution rt tx.signers tx.clock world accounts args) :
    SameTerms e.distributor e.next := by
  constructor <;> rfl

theorem ClaimLockedExecution.terms {accounts : ClaimLockedAccounts}
    (e : ClaimLockedExecution rt tx.signers tx.clock world accounts) :
    SameTerms e.distributor e.next := by
  constructor <;> rfl

theorem SetRootExecution.terms {accounts : SetRootAccounts} {args : SetRootArgs}
    (e : SetRootExecution rt tx.signers world accounts args) : SameTerms e.distributor e.next := by
  constructor <;> rfl

theorem ClawbackExecution.terms {accounts : ClawbackAccounts}
    (e : ClawbackExecution tx.signers tx.clock world accounts) :
    SameTerms e.distributor e.next := by
  constructor <;> rfl

theorem AdminUpdate.terms {accounts : AdminAccounts} {distributor next : MerkleDistributor}
    {instruction : Instruction} (update : AdminUpdate accounts distributor instruction next) :
    SameTerms distributor next := by
  cases update <;> constructor <;> rfl

theorem AdminUpdate.clawbackStart {accounts : AdminAccounts}
    {distributor next : MerkleDistributor} {instruction : Instruction}
    (update : AdminUpdate accounts distributor instruction next) :
    next.clawbackStartTs = distributor.clawbackStartTs ∨
      distributor.endTs.toInt + 86400 ≤ next.clawbackStartTs.toInt := by
  cases update with
  | setClawbackStartTs clawbackStartTs live delay => exact .inr delay
  | setEnableSlot => exact .inl rfl
  | setAdmin => exact .inl rfl
  | setClawbackReceiver => exact .inl rfl

/-- A record that is present after a step was just created, or continues a record under
the same terms; the clawback start moves only to a day after the end of vesting. -/
theorem Execution.record_origin {after : World} (execution : Execution rt world tx after)
    {key : Pubkey} {next : MerkleDistributor} (found : after.distributors key = some next) :
    (∃ accounts args, tx.action = .invoke (.newDistributor accounts args) ∧
      ∃ _ : NewDistributorExecution rt tx.signers tx.clock world accounts args,
        key = accounts.distributor ∧ next = args.distributor rt accounts) ∨
    ∃ distributor, world.distributors key = some distributor ∧ SameTerms distributor next ∧
      (next.clawbackStartTs = distributor.clawbackStartTs ∨
        distributor.endTs.toInt + 86400 ≤ next.clawbackStartTs.toInt) := by
  cases execution with
  | @newDistributor accounts args sent e =>
    rw [setDistributor_distributors] at found
    split at found
    · next here =>
      cases found
      exact .inl ⟨accounts, args, sent, e, here, rfl⟩
    · exact .inr ⟨next, found, .refl next, .inl rfl⟩
  | newClaim sent e =>
    exact .inr (replaced_origin (by rfl) e.found e.terms (.inl (by rfl)) found)
  | claimLocked sent e =>
    exact .inr (replaced_origin (by rfl) e.found e.terms (.inl (by rfl)) found)
  | setRoot sent e =>
    exact .inr (replaced_origin (by rfl) e.found e.terms (.inl (by rfl)) found)
  | clawback sent e =>
    exact .inr (replaced_origin (by rfl) e.found e.terms (.inl (by rfl)) found)
  | closeDistributor sent e =>
    rw [CloseDistributorExecution.after, setDistributor_distributors] at found
    split at found
    · cases found
    · exact .inr ⟨next, found, .refl next, .inl rfl⟩
  | admin sent present signed authority update =>
    exact .inr (replaced_origin (by rfl) present update.terms update.clawbackStart found)
  | token sent done => exact .inr ⟨next, found, .refl next, .inl rfl⟩

/-- A claim status is created by `new_claim`, grows by `claim_locked`, and is otherwise
left as it is. -/
theorem Execution.status_cases {after : World} (execution : Execution rt world tx after)
    (claimant key : Pubkey) :
    after.claimStatuses claimant key = world.claimStatuses claimant key ∨
    (∃ accounts args, tx.action = .invoke (.newClaim accounts args) ∧
      ∃ e : NewClaimExecution rt tx.signers tx.clock world accounts args,
        accounts.distributor = key ∧ accounts.claimant = claimant ∧
        after.claimStatuses claimant key = some e.status) ∨
    (∃ accounts, tx.action = .invoke (.claimLocked accounts) ∧
      ∃ e : ClaimLockedExecution rt tx.signers tx.clock world accounts,
        accounts.distributor = key ∧ accounts.claimant = claimant ∧
        after.claimStatuses claimant key = some e.nextStatus) := by
  cases execution with
  | @newClaim accounts args sent e =>
    by_cases here : claimant = accounts.claimant ∧ key = accounts.distributor
    · obtain ⟨rfl, rfl⟩ := here
      exact .inr (.inl ⟨accounts, args, sent, e, rfl, rfl, by simp [NewClaimExecution.after]⟩)
    · left
      rw [NewClaimExecution.after, setDistributor_claimStatuses, setClaimStatus_claimStatuses,
        if_neg here, setTokens_claimStatuses]
  | @claimLocked accounts sent e =>
    by_cases here : claimant = accounts.claimant ∧ key = accounts.distributor
    · obtain ⟨rfl, rfl⟩ := here
      exact .inr (.inr ⟨accounts, sent, e, rfl, rfl, by simp [ClaimLockedExecution.after]⟩)
    · left
      rw [ClaimLockedExecution.after, setDistributor_claimStatuses, setClaimStatus_claimStatuses,
        if_neg here, setTokens_claimStatuses]
  | newDistributor sent e => exact .inl rfl
  | setRoot sent e => exact .inl rfl
  | clawback sent e => exact .inl rfl
  | closeDistributor sent e => exact .inl rfl
  | admin sent present signed authority update => exact .inl rfl
  | token sent done => exact .inl rfl

/-- Token operations do not touch the distributors. -/
theorem apply_token_distributors {operation : Operation Pubkey}
    (sent : tx.action = .token operation) :
    (apply rt world tx).distributors = world.distributors := by
  cases outcome : process rt world tx with
  | error failure => rw [apply_of_error outcome]
  | ok result =>
    rw [apply_of_ok outcome]
    simp only [process, sent, bind_ok_iff, pure_ok_iff] at outcome
    obtain ⟨tokens, _, result⟩ := outcome
    cases result
    rfl

/-- A claim status that is present after a step is within its amounts if those before were. -/
theorem Execution.status_bounds {after : World} (execution : Execution rt world tx after)
    (wellFormed : WellFormed rt world) {claimant key : Pubkey} {status : ClaimStatus}
    (found : after.claimStatuses claimant key = some status) :
    status.claimant = claimant ∧ status.distributor = key ∧
      status.unlockedAmountClaimed.toNat ≤ status.unlockedAmount.toNat ∧
      status.lockedAmountWithdrawn.toNat ≤ status.lockedAmount.toNat := by
  rcases execution.status_cases claimant key with
    same | ⟨accounts, args, _, e, rfl, rfl, fresh⟩ | ⟨accounts, _, e, rfl, rfl, grown⟩
  · exact wellFormed.status claimant key status (same ▸ found)
  · cases fresh.symm.trans found
    have rest : e.claimed.toNat ≤ args.amountUnlocked.toNat := by have := e.rest; omega
    exact ⟨rfl, rfl, rest, Nat.zero_le _⟩
  · cases grown.symm.trans found
    obtain ⟨named, stored, unlocked, _⟩ := wellFormed.status _ _ _ e.statusFound
    exact ⟨named, stored, unlocked, e.withinLocked⟩

theorem Execution.wellFormed {after : World} (execution : Execution rt world tx after)
    (admissible : Admissible rt tx) (wellFormed : WellFormed rt world) :
    WellFormed rt after where
  address key next found := by
    rcases execution.record_origin found with
      ⟨accounts, args, _, e, rfl, rfl⟩ | ⟨old, hold, terms, _⟩
    · exact e.address.symm
    · rw [terms.mint, terms.version, terms.bump]
      exact wellFormed.address key old hold
  vault key next found := by
    have foreign : ∀ account : TokenAccount Pubkey, account.owner = key →
        (∃ mint version bump, key = rt.createProgramAddress mint version bump) →
        account.owner ∉ tx.signers := by
      rintro account owner ⟨mint, version, bump, derived⟩
      rw [owner, derived]
      exact admissible _ _ _
    rcases execution.record_origin found with
      ⟨accounts, args, _, e, rfl, rfl⟩ | ⟨old, hold, terms, _⟩
    · obtain ⟨amount, kept⟩ := execution.tokenStep.retains e.vaultFound
        (foreign _ e.vaultOwner ⟨_, _, _, e.address⟩)
      exact ⟨_, kept, e.vaultOwner⟩
    · obtain ⟨account, held, owner⟩ := wellFormed.vault key old hold
      obtain ⟨amount, kept⟩ := execution.tokenStep.retains held
        (foreign _ owner ⟨_, _, _, (wellFormed.address key old hold).symm⟩)
      rw [terms.tokenVault]
      exact ⟨_, kept, owner⟩
  associated key next found := by
    rcases execution.record_origin found with
      ⟨accounts, args, _, e, rfl, rfl⟩ | ⟨old, hold, terms, _⟩
    · exact e.vaultAddress
    · rw [terms.tokenVault, terms.mint]
      exact wellFormed.associated key old hold
  schedule key next found := by
    rcases execution.record_origin found with
      ⟨accounts, args, _, e, rfl, rfl⟩ | ⟨old, hold, terms, clawback⟩
    · exact ⟨e.ordered, e.delay⟩
    · obtain ⟨ordered, delay⟩ := wellFormed.schedule key old hold
      rw [terms.startTs, terms.endTs]
      refine ⟨ordered, ?_⟩
      rcases clawback with same | later
      · rw [same]
        exact delay
      · exact later
  status claimant key status found := execution.status_bounds wellFormed found
  conserved := execution.tokenStep.conserved wellFormed.conserved

theorem WellFormed.after_tx (wellFormed : WellFormed rt world) (admissible : Admissible rt tx) :
    WellFormed rt (apply rt world tx) := by
  rcases apply_cases rt world tx with ⟨same, _⟩ | ⟨execution, _⟩
  · rwa [same]
  · exact execution.wellFormed admissible wellFormed

theorem WellFormed.after_run (wellFormed : WellFormed rt world) {txs : List Transaction}
    (admissible : ∀ tx ∈ txs, Admissible rt tx) : WellFormed rt (run rt world txs) :=
  replay_invariant (apply rt) (Admissible rt) (WellFormed rt)
    (fun _ _ now before => before.after_tx now) world txs admissible wellFormed

theorem Reachable.wellFormed (reachable : Reachable rt world) : WellFormed rt world := by
  obtain ⟨start, txs, genesis, admissible, rfl⟩ := reachable
  exact (genesis_wellFormed genesis).after_run admissible

theorem Reachable.after_run (reachable : Reachable rt world) {txs : List Transaction}
    (admissible : ∀ tx ∈ txs, Admissible rt tx) : Reachable rt (run rt world txs) := by
  obtain ⟨start, before, genesis, earlier, rfl⟩ := reachable
  refine ⟨start, before ++ txs, genesis, ?_, (replay_append _ _ _ _).symm⟩
  intro tx member
  rcases List.mem_append.mp member with first | second
  · exact earlier tx first
  · exact admissible tx second

end

end MultiDistributor.Source

import MultiDistributor.Source.Chain
import MultiDistributor.Guarantees.Claimable

/-!
# The chain refines the runs of the distributor

What each transaction of the chain can do is stated once (`ChainExecution`). On the accounts
of the distributor and of the token program it is one transaction of the distributor's runs,
signed by the outside parties or by the derived address of one of the two other programs, or
nothing at all. Every guarantee about reachable worlds therefore holds on the chain, and the
derived addresses can be treated like any other claimant or token owner.
-/
namespace MultiDistributor.Source
open Lib.Checked Lib.TokenLedger Lib.Replay

/-- What a successful transaction of the chain did. -/
inductive ChainExecution (programs : Programs) (chain : Chain) (tx : ChainTransaction) :
    Chain → Prop
  | call {action : Action} {world : World} {events : List Event}
      (sent : tx.action = .call action)
      (done : process programs.rt chain.world
        { signers := tx.signers, clock := tx.clock, action } = .ok (world, events)) :
      ChainExecution programs chain tx { chain with world }
  | burnNothing {accounts : BurnAllAccounts} {account : TokenAccount Pubkey}
      (sent : tx.action = .burn accounts)
      (held : chain.world.tokens.accounts accounts.tokenAccount = some account)
      (empty : account.amount = 0) : ChainExecution programs chain tx chain
  | burn {accounts : BurnAllAccounts} {account : TokenAccount Pubkey} {tokens : Ledger Pubkey}
      (sent : tx.action = .burn accounts)
      (held : chain.world.tokens.accounts accounts.tokenAccount = some account)
      (burned : chain.world.tokens.burn accounts.tokenAccount accounts.mint programs.burner
        account.amount = .ok tokens) :
      ChainExecution programs chain tx { chain with world := chain.world.setTokens tokens }
  | initializeConfig {admin : Pubkey} (sent : tx.action = .initializeConfig admin)
      (signed : admin ∈ tx.signers) (vacant : chain.config = none) :
      ChainExecution programs chain tx
        { chain with config := some { admin, bump := programs.configBump } }
  | claimDfx {accounts : ClaimDfxAccounts} {amount : UInt64} {proof : List Hash}
      (sent : tx.action = .claimDfx accounts amount proof)
      (authority : accounts.badDebtAuthority = programs.badDebtAuthority)
      (e : NewClaimExecution programs.rt [programs.badDebtAuthority] tx.clock chain.world
        accounts.newClaim { amountUnlocked := amount, amountLocked := 0, proof }) :
      ChainExecution programs chain tx { chain with world := e.after }
  | withdraw {accounts : WithdrawAccounts} {amount moved : UInt64} {config : Config}
      {tokens : Ledger Pubkey} (sent : tx.action = .withdraw accounts amount)
      (found : chain.config = some config) (signed : config.admin ∈ tx.signers)
      (transferred : chain.world.tokens.transfer accounts.fromAccount accounts.destination
        programs.badDebtAuthority moved = .ok tokens) :
      ChainExecution programs chain tx { chain with world := chain.world.setTokens tokens }

section
variable {programs : Programs} {chain after : Chain} {tx : ChainTransaction}

theorem processChain_execution {events : List ChainEvent}
    (success : processChain programs chain tx = .ok (after, events)) :
    ChainExecution programs chain tx after := by
  unfold processChain at success
  split at success
  · next action sent =>
    simp only [bind_ok_iff, mapError_ok_iff, pure_ok_iff] at success
    obtain ⟨⟨world, emitted⟩, done, result⟩ := success
    cases result
    exact .call sent done
  · next accounts sent =>
    simp only [TokenBurner.burn, BurnAllAccounts.tryAccounts, Chain.loadToken, World.loadToken,
      bind_ok_iff, okOr_ok_iff, mapError_ok_iff, require_ok_iff, pure_ok_iff] at success
    obtain ⟨_, ⟨_, _, account, held, _, burner, _, owner, _, mint, rfl⟩, success⟩ := success
    split at success
    · next empty =>
      cases success
      exact .burnNothing sent held empty
    · simp only [bind_ok_iff, mapError_ok_iff, pure_ok_iff] at success
      obtain ⟨tokens, burned, result⟩ := success
      cases result
      exact .burn sent held (burner ▸ burned)
  · next admin sent =>
    simp only [BadDebtExample.initializeConfig, requireSigner, bind_ok_iff, mapError_ok_iff,
      require_ok_iff, pure_ok_iff] at success
    obtain ⟨_, signed, _, vacant, result⟩ := success
    cases result
    exact .initializeConfig sent signed vacant
  · next accounts amount proof sent =>
    simp only [BadDebtExample.claimDfx, ClaimDfxAccounts.tryAccounts, bind_ok_iff,
      mapError_ok_iff, require_ok_iff, pure_ok_iff] at success
    obtain ⟨_, ⟨_, _, _, _, _, _, _, _, _, _, _, _, _, _, authority⟩, ⟨world, emitted⟩, claimed,
      result⟩ := success
    cases result
    obtain ⟨e, rfl, _⟩ := newClaim_ok_iff.mp claimed
    exact .claimDfx sent authority e
  · next accounts amount sent =>
    simp only [BadDebtExample.withdraw, WithdrawAccounts.tryAccounts, Chain.loadToken,
      World.loadToken, requireSigner, bind_ok_iff, okOr_ok_iff, mapError_ok_iff, require_ok_iff,
      pure_ok_iff] at success
    obtain ⟨_, ⟨config, found, _, signed, account, held, _, _, _, _, _, admin, _, authority, _,
      owner, _, mint, rfl⟩, tokens, transferred, result⟩ := success
    cases result
    exact .withdraw sent found (admin ▸ signed) (authority ▸ transferred)

theorem applyChain_cases (programs : Programs) (chain : Chain) (tx : ChainTransaction) :
    applyChain programs chain tx = chain ∨
      ChainExecution programs chain tx (applyChain programs chain tx) := by
  unfold applyChain
  split
  · next after events success => exact .inr (processChain_execution success)
  · exact .inl rfl

theorem apply_token_of_ok {rt : Runtime} {world : World} {tx : Transaction}
    {operation : Operation Pubkey} {tokens : Ledger Pubkey} (sent : tx.action = .token operation)
    (done : execOperation tx.signers world.tokens operation = .ok tokens) :
    apply rt world tx = world.setTokens tokens := by
  simp only [apply, process, sent, done]
  rfl

/-- On the accounts of the distributor and the token program, a transaction of the chain is
one transaction of the distributor's runs, or nothing. -/
theorem ChainExecution.refines (execution : ChainExecution programs chain tx after)
    (admissible : ChainAdmissible programs tx) :
    after.world = chain.world ∨ ∃ inner, Admissible programs.rt inner ∧
      (inner.signers = tx.signers ∨ inner.signers = [programs.burner] ∨
        inner.signers = [programs.badDebtAuthority]) ∧
      apply programs.rt chain.world inner = after.world := by
  cases execution with
  | @call action world events sent done =>
    exact .inr ⟨{ signers := tx.signers, clock := tx.clock, action }, admissible.distributors,
      .inl rfl, apply_of_ok done⟩
  | burnNothing => exact .inl rfl
  | @burn accounts account tokens sent held burned =>
    refine .inr ⟨{ signers := [programs.burner], clock := tx.clock
                   action := .token (.burn accounts.tokenAccount accounts.mint programs.burner
                    account.amount) }, ?_, .inr (.inl rfl), ?_⟩
    · intro mint version bump signed
      exact programs.burner_apart mint version bump (List.mem_singleton.mp signed)
    · refine apply_token_of_ok rfl ?_
      simp only [execOperation, bind_ok_iff, require_ok_iff]
      exact ⟨(), List.mem_singleton.mpr rfl, burned⟩
  | initializeConfig => exact .inl rfl
  | @claimDfx accounts amount proof sent authority e =>
    refine .inr ⟨{ signers := [programs.badDebtAuthority], clock := tx.clock
                   action := .invoke (.newClaim accounts.newClaim
                    { amountUnlocked := amount, amountLocked := 0, proof }) }, ?_, .inr (.inr rfl),
      apply_of_ok (newClaim_ok_iff.mpr ⟨e, rfl, rfl⟩)⟩
    intro mint version bump signed
    exact programs.badDebt_apart mint version bump (List.mem_singleton.mp signed)
  | @withdraw accounts amount moved config tokens sent found signed transferred =>
    refine .inr ⟨{ signers := [programs.badDebtAuthority], clock := tx.clock
                   action := .token (.transfer accounts.fromAccount accounts.destination
                    programs.badDebtAuthority moved) }, ?_, .inr (.inr rfl), ?_⟩
    · intro mint version bump signed
      exact programs.badDebt_apart mint version bump (List.mem_singleton.mp signed)
    · refine apply_token_of_ok rfl ?_
      simp only [execOperation, bind_ok_iff, require_ok_iff]
      exact ⟨(), List.mem_singleton.mpr rfl, transferred⟩

theorem chain_run_refines {txs : List ChainTransaction}
    (admissible : ∀ tx ∈ txs, ChainAdmissible programs tx) :
    ∃ inner : List Transaction, (∀ tx ∈ inner, Admissible programs.rt tx) ∧
      (runChain programs chain txs).world = run programs.rt chain.world inner := by
  induction txs generalizing chain with
  | nil => exact ⟨[], by simp, rfl⟩
  | cons tx rest ih =>
    simp only [List.mem_cons, forall_eq_or_imp] at admissible
    obtain ⟨inner, allowed, reached⟩ := @ih (applyChain programs chain tx) admissible.2
    have step : (applyChain programs chain tx).world = chain.world ∨
        ∃ first, Admissible programs.rt first ∧
          apply programs.rt chain.world first = (applyChain programs chain tx).world := by
      rcases applyChain_cases programs chain tx with same | execution
      · exact .inl (by rw [same])
      · rcases execution.refines admissible.1 with same | ⟨first, now, _, done⟩
        · exact .inl same
        · exact .inr ⟨first, now, done⟩
    rcases step with same | ⟨first, now, done⟩
    · exact ⟨inner, allowed, by rw [runChain, replay_cons, reached, same]⟩
    · rw [← done] at reached
      refine ⟨first :: inner, ?_, reached⟩
      simp only [List.mem_cons, forall_eq_or_imp]
      exact ⟨now, allowed⟩

/-- The guarantees about reachable worlds hold on the chain. -/
theorem ChainReachable.world (reachable : ChainReachable programs chain) :
    Reachable programs.rt chain.world := by
  obtain ⟨start, txs, genesis, admissible, rfl⟩ := reachable
  obtain ⟨inner, allowed, reached⟩ :=
    @chain_run_refines programs { world := start, config := none } txs admissible
  exact ⟨start, inner, genesis, allowed, reached⟩

theorem ChainReachable.after_run (reachable : ChainReachable programs chain)
    {txs : List ChainTransaction} (admissible : ∀ tx ∈ txs, ChainAdmissible programs tx) :
    ChainReachable programs (runChain programs chain txs) := by
  obtain ⟨start, before, genesis, earlier, rfl⟩ := reachable
  refine ⟨start, before ++ txs, genesis, ?_, (replay_append _ _ _ _).symm⟩
  intro tx member
  rcases List.mem_append.mp member with first | second
  · exact earlier tx first
  · exact admissible tx second

end

/-! ### What a token account can lose -/

/-- The distributors are at derived addresses, and no more tokens are held than were issued.
This much also holds where the token accounts of distributors were tampered with. -/
structure Sound (rt : Runtime) (world : World) : Prop where
  address : ∀ key distributor, world.distributors key = some distributor →
    rt.createProgramAddress distributor.mint distributor.version distributor.bump = key
  conserved : Conserved world.tokens

section
variable {rt : Runtime} {world after : World} {tx : Transaction} {key : Pubkey}
  {account : TokenAccount Pubkey}

theorem genesis_sound (genesis : Genesis world) : Sound rt world where
  address key distributor found := by simp [genesis.1 key] at found
  conserved := genesis.2.2

theorem Sound.after_tx (sound : Sound rt world) : Sound rt (apply rt world tx) := by
  rcases apply_cases rt world tx with ⟨same, _⟩ | ⟨execution, _⟩
  · rwa [same]
  refine ⟨fun key next found => ?_, execution.tokenStep.conserved sound.conserved⟩
  rcases execution.record_origin found with
    ⟨accounts, args, _, e, rfl, rfl⟩ | ⟨old, present, terms, _⟩
  · exact e.address.symm
  · rw [terms.mint, terms.version, terms.bump]
    exact sound.address key old present

/-- A transfer authorized by a distributor takes nothing from other owners. -/
theorem transfer_keeps_foreign {source destination authority : Pubkey} {amount : UInt64}
    {tokens : Ledger Pubkey}
    (moved : world.tokens.transfer source destination authority amount = .ok tokens)
    (held : world.tokens.accounts key = some account) (foreign : authority ≠ account.owner) :
    Keeps world.tokens tokens key := by
  refine transfer_keeps moved fun same => ?_
  obtain ⟨src, found, owner⟩ := transfer_owner moved
  rw [← same, held] at found
  cases found
  exact foreign owner

theorem burn_keeps_foreign {source mint authority : Pubkey} {amount : UInt64}
    {tokens : Ledger Pubkey} (burned : world.tokens.burn source mint authority amount = .ok tokens)
    (held : world.tokens.accounts key = some account) (foreign : authority ≠ account.owner) :
    Keeps world.tokens tokens key := by
  refine burn_keeps burned fun same => ?_
  obtain ⟨src, _, _, _, found, _, _, owner, _⟩ := burn_effects burned
  rw [← same, held] at found
  cases found
  exact foreign owner

/-- The distributor program and the token program take nothing from an account whose owner
did not sign and is not a distributor. -/
theorem Execution.keeps (execution : Execution rt world tx after) (sound : Sound rt world)
    (held : world.tokens.accounts key = some account) (unsigned : account.owner ∉ tx.signers)
    (apart : ∀ mint version bump, rt.createProgramAddress mint version bump ≠ account.owner) :
    Keeps world.tokens after.tokens key := by
  have foreign : ∀ {target distributor}, world.distributors target = some distributor →
      target ≠ account.owner := by
    intro target distributor found same
    exact apart _ _ _ ((sound.address target distributor found).trans same)
  cases execution with
  | newDistributor sent e => exact keeps_refl _ key
  | newClaim sent e => exact transfer_keeps_foreign e.moved held (foreign e.found)
  | claimLocked sent e => exact transfer_keeps_foreign e.moved held (foreign e.found)
  | setRoot sent e =>
    rcases burnExcess_cases e.burn with ⟨_, same⟩ | burned
    · rw [show e.after.tokens = world.tokens from same]
      exact keeps_refl _ key
    · exact burn_keeps_foreign burned held (foreign e.found)
  | clawback sent e => exact transfer_keeps_foreign e.moved held (foreign e.found)
  | closeDistributor sent e => exact transfer_keeps_foreign e.moved held (foreign e.found)
  | admin sent found signed authority update => exact keeps_refl _ key
  | token sent done => exact execOperation_keeps done held unsigned

end

section
variable {programs : Programs} {chain after : Chain} {tx : ChainTransaction} {key : Pubkey}
  {account : TokenAccount Pubkey}

theorem ChainExecution.sound (execution : ChainExecution programs chain tx after)
    (admissible : ChainAdmissible programs tx) (sound : Sound programs.rt chain.world) :
    Sound programs.rt after.world := by
  rcases execution.refines admissible with same | ⟨inner, _, _, done⟩
  · rwa [same]
  · rw [← done]
    exact sound.after_tx

/-- An account whose owner is a derived address loses tokens in two ways only: the burner's
are burned, and the bad-debt authority's are withdrawn under the configured admin. -/
theorem ChainExecution.loses (execution : ChainExecution programs chain tx after)
    (sound : Sound programs.rt chain.world)
    (held : chain.world.tokens.accounts key = some account)
    (unsigned : account.owner ∉ tx.signers)
    (apart : ∀ mint version bump,
      programs.rt.createProgramAddress mint version bump ≠ account.owner) :
    Keeps chain.world.tokens after.world.tokens key ∨
    (∃ accounts tokens, tx.action = .burn accounts ∧ accounts.tokenAccount = key ∧
      account.owner = programs.burner ∧
      after = { chain with world := chain.world.setTokens tokens } ∧
      chain.world.tokens.burn key accounts.mint programs.burner account.amount = .ok tokens) ∨
    (∃ accounts amount config moved, tx.action = .withdraw accounts amount ∧
      accounts.fromAccount = key ∧ account.owner = programs.badDebtAuthority ∧
      chain.config = some config ∧ config.admin ∈ tx.signers ∧
      chain.world.tokens.transfer key accounts.destination programs.badDebtAuthority moved =
        .ok after.world.tokens) := by
  cases execution with
  | call sent done => exact .inl ((process_execution done).keeps sound held unsigned apart)
  | burnNothing => exact .inl (keeps_refl _ key)
  | @burn accounts found tokens sent there burned =>
    by_cases same : accounts.tokenAccount = key
    · rw [same] at there burned
      cases held.symm.trans there
      obtain ⟨src, _, _, _, again, _, _, owner, _⟩ := burn_effects burned
      cases held.symm.trans again
      exact .inr (.inl ⟨accounts, tokens, sent, same, owner.symm, rfl, burned⟩)
    · exact .inl (burn_keeps burned (Ne.symm same))
  | initializeConfig => exact .inl (keeps_refl _ key)
  | claimDfx sent authority e =>
    refine .inl (transfer_keeps_foreign e.moved held fun same => ?_)
    exact apart _ _ _ ((sound.address _ _ e.found).trans same)
  | @withdraw accounts amount moved config tokens sent found signed transferred =>
    by_cases same : accounts.fromAccount = key
    · rw [same] at transferred
      obtain ⟨src, again, owner⟩ := transfer_owner transferred
      cases held.symm.trans again
      exact .inr (.inr ⟨accounts, amount, config, moved, sent, same, owner.symm, found, signed,
        transferred⟩)
    · exact .inl (transfer_keeps transferred (Ne.symm same))

/-- A burn takes the whole balance of its account, or there is none. -/
theorem ChainExecution.of_burn {accounts : BurnAllAccounts}
    (execution : ChainExecution programs chain tx after) (sent : tx.action = .burn accounts)
    (held : chain.world.tokens.accounts accounts.tokenAccount = some account) :
    after = chain ∨ ∃ tokens, after = { chain with world := chain.world.setTokens tokens } ∧
      chain.world.tokens.burn accounts.tokenAccount accounts.mint programs.burner account.amount =
        .ok tokens := by
  cases execution with
  | burnNothing => exact .inl rfl
  | burn again there burned =>
    cases sent.symm.trans again
    cases held.symm.trans there
    exact .inr ⟨_, rfl, burned⟩
  | call other => cases sent.symm.trans other
  | initializeConfig other => cases sent.symm.trans other
  | claimDfx other => cases sent.symm.trans other
  | withdraw other => cases sent.symm.trans other

end

end MultiDistributor.Source

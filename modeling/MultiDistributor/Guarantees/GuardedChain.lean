import MultiDistributor.Source.GuardedChain
import MultiDistributor.Guarantees.ChainRefinement

/-!
# What the authorities of the token program add to the chain

A transaction under the authorities is one of the chain that the token program lets through,
or an operation on the authorities (`GuardedExecution`). Where nobody has an authority the runs
are those of the chain.

A close authority can take a vault away from its distributor, so not everything that holds on
the chain holds here. What the custody of derived addresses rests on does (`Sound`), and a
token account of such an address that has no close authority never gets one.
-/
namespace MultiDistributor.Source
open Lib.Checked Lib.TokenLedger Lib.Replay

/-- What a successful transaction under the authorities did. -/
inductive GuardedExecution (programs : Programs) (state : GuardedChain) (tx : GuardedTransaction) :
    GuardedChain → Prop
  | chain {action : ChainAction} {chain : Chain} (sent : tx.action = .chain action)
      (permitted : state.check action = .ok ())
      (done : ChainExecution programs state.chain (tx.sending action) chain) :
      GuardedExecution programs state tx
        { chain, authorities := action.authoritiesAfter state.authorities }
  | authority {operation : AuthorityOperation Pubkey} {tokens : Ledger Pubkey}
      {authorities : Authorities Pubkey} (sent : tx.action = .authority operation)
      (done : execAuthority tx.signers state.tokens state.authorities operation =
        .ok (tokens, authorities)) :
      GuardedExecution programs state tx
        { chain := { state.chain with world := state.chain.world.setTokens tokens }, authorities }

section
variable {programs : Programs} {state after : GuardedChain} {tx : GuardedTransaction}

theorem processGuarded_execution {events : List ChainEvent}
    (success : processGuarded programs state tx = .ok (after, events)) :
    GuardedExecution programs state tx after := by
  unfold processGuarded at success
  split at success
  · next action sent =>
    simp only [bind_ok_iff, mapError_ok_iff, pure_ok_iff] at success
    obtain ⟨_, permitted, ⟨chain, emitted⟩, done, result⟩ := success
    cases result
    exact .chain sent permitted (processChain_execution done)
  · next operation sent =>
    simp only [bind_ok_iff, mapError_ok_iff, pure_ok_iff] at success
    obtain ⟨⟨tokens, authorities⟩, done, result⟩ := success
    cases result
    exact .authority sent done

theorem processGuarded_of_chain {action : ChainAction} {chain : Chain} {events : List ChainEvent}
    (sent : tx.action = .chain action) (permitted : state.check action = .ok ())
    (done : processChain programs state.chain (tx.sending action) = .ok (chain, events)) :
    processGuarded programs state tx =
      .ok ({ chain, authorities := action.authoritiesAfter state.authorities }, events) := by
  simp only [processGuarded, sent, permitted, done]
  rfl

theorem applyGuarded_of_ok {events : List ChainEvent}
    (success : processGuarded programs state tx = .ok (after, events)) :
    applyGuarded programs state tx = after := by
  simp only [applyGuarded, success]

theorem applyGuarded_cases (programs : Programs) (state : GuardedChain) (tx : GuardedTransaction) :
    applyGuarded programs state tx = state ∨
      GuardedExecution programs state tx (applyGuarded programs state tx) := by
  unfold applyGuarded
  split
  · next after events success => exact .inr (processGuarded_execution success)
  · exact .inl rfl

theorem GuardedExecution.sound (execution : GuardedExecution programs state tx after)
    (admissible : GuardedAdmissible programs tx) (sound : Sound programs.rt state.chain.world) :
    Sound programs.rt after.chain.world := by
  cases execution with
  | chain sent permitted done => exact done.sound (admissible _) sound
  | authority sent done => exact ⟨sound.address, execAuthority_conserved done sound.conserved⟩

theorem sound_after_run {txs : List GuardedTransaction}
    (sound : Sound programs.rt state.chain.world)
    (admissible : ∀ tx ∈ txs, GuardedAdmissible programs tx) :
    Sound programs.rt (runGuarded programs state txs).chain.world := by
  refine replay_invariant (applyGuarded programs) (GuardedAdmissible programs)
    (fun state => Sound programs.rt state.chain.world) (fun state tx now sound => ?_) state txs
    admissible sound
  rcases applyGuarded_cases programs state tx with same | execution
  · rwa [same]
  · exact execution.sound now sound

theorem GuardedReachable.sound (reachable : GuardedReachable programs state) :
    Sound programs.rt state.chain.world := by
  obtain ⟨start, authorities, txs, genesis, admissible, rfl⟩ := reachable
  exact sound_after_run (genesis_sound genesis) admissible

theorem GuardedReachable.after_run (reachable : GuardedReachable programs state)
    {txs : List GuardedTransaction} (admissible : ∀ tx ∈ txs, GuardedAdmissible programs tx) :
    GuardedReachable programs (runGuarded programs state txs) := by
  obtain ⟨start, authorities, before, genesis, earlier, rfl⟩ := reachable
  refine ⟨start, authorities, before ++ txs, genesis, ?_, (replay_append _ _ _ _).symm⟩
  intro tx member
  rcases List.mem_append.mp member with first | second
  · exact earlier tx first
  · exact admissible tx second

end

/-! ### Accounts without a close authority -/

section
variable {programs : Programs} {state after : GuardedChain} {tx : GuardedTransaction}
  {key : Pubkey} {account : TokenAccount Pubkey}

theorem authoritiesAfter_closing {authorities : Authorities Pubkey}
    (unset : authorities.closing key = none) (action : ChainAction) :
    (action.authoritiesAfter authorities).closing key = none := by
  unfold ChainAction.authoritiesAfter
  split
  · next operation => exact Authorities.after_closing unset operation
  · exact unset

/-- An account of a derived address without a close authority gets none, and loses tokens as
on the chain only. -/
theorem GuardedExecution.loses (execution : GuardedExecution programs state tx after)
    (sound : Sound programs.rt state.chain.world)
    (held : state.tokens.accounts key = some account)
    (unset : state.authorities.closing key = none) (unsigned : account.owner ∉ tx.signers)
    (apart : ∀ mint version bump,
      programs.rt.createProgramAddress mint version bump ≠ account.owner) :
    after.authorities.closing key = none ∧
    (Keeps state.tokens after.tokens key ∨
      (∃ accounts tokens, tx.action = .chain (.burn accounts) ∧ accounts.tokenAccount = key ∧
        account.owner = programs.burner ∧
        after.chain = { state.chain with world := state.chain.world.setTokens tokens } ∧
        state.tokens.burn key accounts.mint programs.burner account.amount = .ok tokens) ∨
      (∃ accounts amount config moved, tx.action = .chain (.withdraw accounts amount) ∧
        accounts.fromAccount = key ∧ account.owner = programs.badDebtAuthority ∧
        state.chain.config = some config ∧ config.admin ∈ tx.signers ∧
        state.tokens.transfer key accounts.destination programs.badDebtAuthority moved =
          .ok after.tokens)) := by
  cases execution with
  | @chain action chain sent permitted done =>
    refine ⟨authoritiesAfter_closing unset action, ?_⟩
    rcases done.loses sound held unsigned apart with keeps |
      ⟨accounts, tokens, burns, here⟩ | ⟨accounts, amount, config, moved, withdraws, here⟩
    · exact .inl keeps
    · exact .inr (.inl ⟨accounts, tokens, by rw [sent, ← burns]; rfl, here⟩)
    · exact .inr (.inr ⟨accounts, amount, config, moved, by rw [sent, ← withdraws]; rfl, here⟩)
  | authority sent done =>
    obtain ⟨same, still⟩ := execAuthority_keeps done held unsigned unset
    exact ⟨still, .inl (keeps_of_eq (same.trans held.symm))⟩

/-- A burn takes the whole balance of its account, or there is none. -/
theorem GuardedExecution.of_burn {accounts : BurnAllAccounts}
    (execution : GuardedExecution programs state tx after)
    (sent : tx.action = .chain (.burn accounts))
    (held : state.tokens.accounts accounts.tokenAccount = some account) :
    after.chain = state.chain ∨
      ∃ tokens, after.chain = { state.chain with world := state.chain.world.setTokens tokens } ∧
        state.tokens.burn accounts.tokenAccount accounts.mint programs.burner account.amount =
          .ok tokens := by
  cases execution with
  | chain again permitted done =>
    cases sent.symm.trans again
    exact done.of_burn rfl held
  | authority other done => cases sent.symm.trans other

/-- What a close authority is for: whoever has it can take an empty account from its owner. -/
theorem close_authority_takes_account {mint authority newOwner : Pubkey} {total : UInt64}
    (clock : Clock) (held : state.tokens.accounts key = some account)
    (empty : account.amount = 0) (entitled : state.authorities.closing key = some authority)
    (issued : state.tokens.supplies mint = some total) :
    let taken := runGuarded programs state
      [{ signers := [authority], clock, action := .authority (.closeAccount key authority) },
        { signers := [], clock
          action := .chain (.call (.token (.initializeAccount key mint newOwner))) }]
    taken.tokens.accounts key = some { mint, owner := newOwner, amount := 0 } := by
  let closed : GuardedChain :=
    { chain := { state.chain with
        world := state.chain.world.setTokens (state.tokens.setAccount key none) }
      authorities := state.authorities }
  have closes : processGuarded programs state
      { signers := [authority], clock, action := .authority (.closeAccount key authority) } =
        .ok (closed, []) := by
    simp only [processGuarded, execAuthority, execOperation, bind_ok_iff, okOr_ok_iff,
      require_ok_iff, mapError_ok_iff, pure_ok_iff]
    exact ⟨_, ⟨account, held, (), entitled, (), List.mem_singleton.mpr rfl, _,
      ⟨(), List.mem_singleton.mpr rfl, account, held, (), rfl, (), empty, rfl⟩, rfl⟩, rfl⟩
  have opens : ∃ after events, processGuarded programs closed
      { signers := [], clock
        action := .chain (.call (.token (.initializeAccount key mint newOwner))) } =
        .ok (after, events) ∧
      after.tokens =
        closed.tokens.setAccount key (some { mint, owner := newOwner, amount := 0 }) := by
    simp only [processGuarded, GuardedChain.check, Authorities.check, Authorities.requireThawed,
      processChain, process, GuardedTransaction.sending, execOperation, bind_ok_iff, okOr_ok_iff,
      require_ok_iff, mapError_ok_iff, pure_ok_iff]
    exact ⟨_, _, ⟨(), by simp [Operation.thawed], _, ⟨_, ⟨_, ⟨(), setAccount_self _ key none, total,
      issued, rfl⟩, rfl⟩, rfl⟩, rfl⟩, rfl⟩
  obtain ⟨after, events, reopened, tokens⟩ := opens
  intro taken
  simp only [taken]
  rw [runGuarded, replay_cons, applyGuarded_of_ok closes, replay_cons, replay_nil,
    applyGuarded_of_ok reopened, tokens, setAccount_self]

end

/-! ### Where nobody has an authority -/

/-- A transaction of the chain under the authorities. -/
def ChainTransaction.guarded (tx : ChainTransaction) : GuardedTransaction where
  signers := tx.signers
  clock := tx.clock
  action := .chain tx.action

section
variable {programs : Programs} {chain : Chain}

theorem nobody_requireThawed (accounts : List Pubkey) :
    Authorities.nobody.requireThawed accounts = .ok () :=
  require_ok_iff.mpr fun _ _ => rfl

theorem nobody_check (action : ChainAction) :
    GuardedChain.check { chain, authorities := .nobody } action = .ok () := by
  unfold GuardedChain.check
  split
  · next operation =>
    unfold Authorities.check
    split
    · exact require_ok_iff.mpr rfl
    · exact nobody_requireThawed _
  all_goals first | rfl | exact nobody_requireThawed _

theorem nobody_authoritiesAfter (action : ChainAction) :
    action.authoritiesAfter .nobody = .nobody := by
  unfold ChainAction.authoritiesAfter
  split
  · next operation =>
    cases operation <;> simp [Authorities.after, Authorities.nobody]
  · rfl

theorem applyGuarded_nobody (tx : ChainTransaction) :
    applyGuarded programs { chain, authorities := .nobody } tx.guarded =
      { chain := applyChain programs chain tx, authorities := .nobody } := by
  have inner : tx.guarded.sending tx.action = tx := rfl
  simp only [applyGuarded, processGuarded, show tx.guarded.action = .chain tx.action from rfl,
    nobody_check, nobody_authoritiesAfter, inner, applyChain]
  cases processChain programs chain tx with
  | error failure => rfl
  | ok result => rfl

theorem runGuarded_nobody (txs : List ChainTransaction) (chain : Chain) :
    runGuarded programs { chain, authorities := .nobody } (txs.map ChainTransaction.guarded) =
      { chain := runChain programs chain txs, authorities := .nobody } := by
  induction txs generalizing chain with
  | nil => rfl
  | cons tx rest ih =>
    rw [List.map_cons, runGuarded, replay_cons, applyGuarded_nobody]
    exact ih (applyChain programs chain tx)

/-- The runs of the chain are runs under the authorities. -/
theorem ChainReachable.guarded (reachable : ChainReachable programs chain) :
    GuardedReachable programs { chain, authorities := .nobody } := by
  obtain ⟨start, txs, genesis, admissible, rfl⟩ := reachable
  refine ⟨start, .nobody, txs.map ChainTransaction.guarded, genesis, ?_,
    (runGuarded_nobody txs _).symm⟩
  intro tx member
  obtain ⟨inner, listed, rfl⟩ := List.mem_map.mp member
  obtain ⟨distributors, burner, badDebtAuthority⟩ := admissible inner listed
  exact fun _ => ⟨distributors, burner, badDebtAuthority⟩

end

end MultiDistributor.Source

import MultiDistributor.Guarantees.GuardedChain
import MultiDistributor.Guarantees.Drain

/-!
# Tokens in the custody of derived addresses

A token account of the burner without a close authority only ever grows, except when it is
burned: then its whole balance leaves the supply. Only freezing holds a burn up, so what a
clawback sends to such an account is gone from the supply once anybody calls `burn` while it
is not frozen, whatever happened in between. Token accounts of the bad-debt authority without a
close authority lose tokens only to the one who initialized the example program.
-/
namespace MultiDistributor.Source
open Lib.Checked Lib.TokenLedger Lib.LinearRelease Lib.Replay

/-- What the supply loses when the account is burned in this transaction. -/
def burnedFrom (programs : Programs) (key : Pubkey) (pass : GuardedChain × GuardedTransaction) :
    Nat :=
  match pass.2.action with
  | .chain (.burn accounts) =>
      if accounts.tokenAccount = key then
        pass.1.tokens.supply accounts.mint -
          (applyGuarded programs pass.1 pass.2).tokens.supply accounts.mint
      else 0
  | _ => 0

/-- What the account gains in this transaction. -/
def receivedBy (programs : Programs) (key : Pubkey) (pass : GuardedChain × GuardedTransaction) :
    Nat :=
  (applyGuarded programs pass.1 pass.2).tokens.balance key - pass.1.tokens.balance key

/-- Totals over the steps of a run. -/
def runTotal (programs : Programs) (figure : GuardedChain × GuardedTransaction → Nat)
    (start : GuardedChain) (txs : List GuardedTransaction) : Nat :=
  ((transitions (applyGuarded programs) start txs).map figure).sum

section
variable {programs : Programs} {state : GuardedChain} {tx : GuardedTransaction} {key : Pubkey}
  {account : TokenAccount Pubkey}

/-- One step of a token account of the burner. -/
structure BurnerStep (programs : Programs) (state : GuardedChain) (tx : GuardedTransaction)
    (key : Pubkey) (account : TokenAccount Pubkey) : Prop where
  kept : ∃ amount, (applyGuarded programs state tx).tokens.accounts key =
    some { account with amount }
  unset : (applyGuarded programs state tx).authorities.closing key = none
  level : (applyGuarded programs state tx).tokens.balance key +
      burnedFrom programs key (state, tx) =
    state.tokens.balance key + receivedBy programs key (state, tx)
  falls : (applyGuarded programs state tx).tokens.balance key < state.tokens.balance key →
    (∃ accounts, tx.action = .chain (.burn accounts) ∧ accounts.tokenAccount = key) ∧
      (applyGuarded programs state tx).tokens.balance key = 0

theorem burnedFrom_of_other
    (other : ∀ accounts, tx.action = .chain (.burn accounts) → accounts.tokenAccount ≠ key) :
    burnedFrom programs key (state, tx) = 0 := by
  unfold burnedFrom
  split
  · next accounts sent => exact if_neg (other accounts sent)
  · rfl

theorem BurnerStep.of_same (held : state.tokens.accounts key = some account)
    (still : (applyGuarded programs state tx).authorities.closing key = none)
    (same : (applyGuarded programs state tx).chain = state.chain) :
    BurnerStep programs state tx key account where
  kept := ⟨account.amount, by rw [GuardedChain.tokens, same, held]⟩
  unset := still
  level := by
    have nothing : burnedFrom programs key (state, tx) = 0 := by
      unfold burnedFrom
      split
      · simp [GuardedChain.tokens, same]
      · rfl
    rw [nothing, receivedBy, GuardedChain.tokens, same, Nat.sub_self]
  falls less := by
    rw [GuardedChain.tokens, same] at less
    exact absurd less (Nat.lt_irrefl _)

theorem BurnerStep.of_keeps
    (held : state.tokens.accounts key = some account)
    (still : (applyGuarded programs state tx).authorities.closing key = none)
    (keeps : Keeps state.tokens (applyGuarded programs state tx).tokens key)
    (other : ∀ accounts, tx.action = .chain (.burn accounts) → accounts.tokenAccount ≠ key) :
    BurnerStep programs state tx key account where
  kept := keeps.retains account held
  unset := still
  level := by
    have grows := keeps.balance_le
    rw [burnedFrom_of_other other, receivedBy]
    dsimp only
    omega
  falls less := absurd keeps.balance_le (Nat.not_le.mpr less)

theorem BurnerStep.of_burned {accounts : BurnAllAccounts} {tokens : Ledger Pubkey}
    (sent : tx.action = .chain (.burn accounts))
    (held : state.tokens.accounts accounts.tokenAccount = some account)
    (still : (applyGuarded programs state tx).authorities.closing accounts.tokenAccount = none)
    (reached : (applyGuarded programs state tx).chain =
      { state.chain with world := state.chain.world.setTokens tokens })
    (burned : state.tokens.burn accounts.tokenAccount accounts.mint programs.burner
      account.amount = .ok tokens) :
    BurnerStep programs state tx accounts.tokenAccount account := by
  have after : (applyGuarded programs state tx).tokens = tokens := by
    rw [GuardedChain.tokens, reached, setTokens_tokens]
  obtain ⟨balance, supply⟩ := burn_balances burned
  rw [balance_of_account held] at balance
  have empty : (applyGuarded programs state tx).tokens.balance accounts.tokenAccount = 0 := by
    rw [after]
    omega
  have lost : burnedFrom programs accounts.tokenAccount (state, tx) = account.amount.toNat := by
    simp only [burnedFrom, sent, if_true, after]
    omega
  refine ⟨?_, still, ?_, fun _ => ⟨⟨accounts, sent, rfl⟩, empty⟩⟩
  · rw [after]
    exact burn_retains _ burned account held
  · rw [empty, lost, receivedBy, empty, balance_of_account held]
    omega

theorem burner_step (sound : Sound programs.rt state.chain.world)
    (admissible : GuardedAdmissible programs tx) (held : state.tokens.accounts key = some account)
    (owned : account.owner = programs.burner) (unset : state.authorities.closing key = none) :
    BurnerStep programs state tx key account := by
  rcases applyGuarded_cases programs state tx with same | execution
  · exact .of_same held (by rw [same, unset]) (by rw [same])
  obtain ⟨still, losses⟩ := execution.loses sound held unset
    (owned ▸ (admissible (.initializeConfig key)).burner) (owned ▸ programs.burner_apart)
  by_cases burns : ∃ accounts, tx.action = .chain (.burn accounts) ∧ accounts.tokenAccount = key
  · obtain ⟨accounts, sent, rfl⟩ := burns
    rcases execution.of_burn sent held with same | ⟨tokens, same, burned⟩
    · exact .of_same held still same
    · exact .of_burned sent held still same burned
  · have other : ∀ accounts, tx.action = .chain (.burn accounts) → accounts.tokenAccount ≠ key :=
      fun accounts sent same => burns ⟨accounts, sent, same⟩
    rcases losses with keeps | ⟨accounts, _, sent, same, _⟩ | ⟨_, _, _, _, _, _, owner, _⟩
    · exact .of_keeps held still keeps other
    · exact absurd same (other accounts sent)
    · exact absurd (owned.symm.trans owner) programs.distinct

end

/-! ### The burner -/

section
variable {programs : Programs} {state : GuardedChain} {tx : GuardedTransaction} {key : Pubkey}
  {account : TokenAccount Pubkey} {txs : List GuardedTransaction}

/-- The burn of the whole account, by anyone. -/
def burnsAll (programs : Programs) (mint tokenAccount : Pubkey) : ChainAction :=
  .burn { burner := programs.burner, mint, tokenAccount }

/-- On the chain nothing can make the burn of a funded account fail. -/
theorem burn_succeeds {chain : Chain} {sending : ChainTransaction}
    (sound : Sound programs.rt chain.world)
    (held : chain.world.tokens.accounts key = some account)
    (owned : account.owner = programs.burner) (positive : 0 < account.amount.toNat)
    (sent : sending.action = burnsAll programs account.mint key) :
    ∃ tokens, processChain programs chain sending =
        .ok ({ chain with world := chain.world.setTokens tokens },
          [.burn account.mint key account.amount]) ∧
      chain.world.tokens.burn key account.mint programs.burner account.amount = .ok tokens := by
  obtain ⟨tokens, burned⟩ := sound.conserved.burn_total held positive
  rw [owned] at burned
  refine ⟨tokens, ?_, burned⟩
  obtain ⟨_, _, total, _, _, issued, _⟩ := burn_effects burned
  have funded : account.amount ≠ 0 := by
    intro zero
    rw [zero] at positive
    exact Nat.lt_irrefl 0 positive
  simp only [processChain, sent, burnsAll, TokenBurner.burn, BurnAllAccounts.tryAccounts,
    Chain.loadToken, World.loadToken, bind_ok_iff, okOr_ok_iff, mapError_ok_iff, require_ok_iff,
    pure_ok_iff]
  refine ⟨account, ⟨total, issued, account, held, (), trivial, (), owned, (), rfl, rfl⟩, ?_⟩
  rw [if_neg funded]
  simp only [bind_ok_iff, mapError_ok_iff, pure_ok_iff]
  exact ⟨tokens, burned, rfl⟩

/-- A burn is refused for a frozen account that holds tokens. -/
theorem burn_of_frozen {accounts : BurnAllAccounts} (sent : tx.action = .chain (.burn accounts))
    (frozen : state.authorities.frozen accounts.tokenAccount = true)
    (funded : state.tokens.balance accounts.tokenAccount ≠ 0) :
    applyGuarded programs state tx = state := by
  rcases applyGuarded_cases programs state tx with same | execution
  · exact same
  generalize applyGuarded programs state tx = after at execution
  cases execution with
  | chain again permitted done =>
    cases sent.symm.trans again
    simp only [GuardedChain.check, if_neg funded, Authorities.requireThawed, require_ok_iff,
      List.mem_singleton, forall_eq, frozen] at permitted
    cases permitted
  | authority other done => cases sent.symm.trans other

/-- After a burn the account is empty, unless it was frozen with tokens in it. -/
theorem burn_empties_iff (sound : Sound programs.rt state.chain.world)
    (held : state.tokens.accounts key = some account)
    (owned : account.owner = programs.burner)
    (sent : tx.action = .chain (burnsAll programs account.mint key)) :
    (applyGuarded programs state tx).tokens.balance key = 0 ↔
      state.authorities.frozen key = false ∨ state.tokens.balance key = 0 := by
  have whole := balance_of_account held
  by_cases empty : state.tokens.balance key = 0
  · refine ⟨fun _ => .inr empty, fun _ => ?_⟩
    rcases applyGuarded_cases programs state tx with same | execution
    · rw [same, empty]
    rcases execution.of_burn sent held with same | ⟨tokens, same, burned⟩
    · rw [GuardedChain.tokens, same]
      exact empty
    · have balance := (burn_balances burned).1
      rw [GuardedChain.tokens, same, setTokens_tokens]
      dsimp only [burnsAll] at balance
      omega
  cases frozen : state.authorities.frozen key with
  | true =>
    rw [burn_of_frozen sent frozen empty]
    simp [empty]
  | false =>
    obtain ⟨tokens, success, burned⟩ := @burn_succeeds _ _ _ _ (tx.sending _) sound held owned
      (by omega) rfl
    have permitted : state.check (burnsAll programs account.mint key) = .ok () := by
      refine require_ok_iff.mpr fun other member => ?_
      rw [if_neg empty] at member
      rw [List.mem_singleton.mp member, frozen]
    have balance : state.tokens.balance key = tokens.balance key + account.amount.toNat :=
      (burn_balances burned).1
    rw [applyGuarded_of_ok (processGuarded_of_chain sent permitted success)]
    simp only [GuardedChain.tokens, setTokens_tokens, true_or, iff_true]
    omega

/-- A clawback moves the whole vault to the receiver, if that belongs to the burner. -/
theorem chain_clawback_moves (sound : Sound programs.rt state.chain.world)
    {accounts : ClawbackAccounts}
    (sent : tx.action = .chain (.call (.invoke (.clawback accounts))))
    (success : ∃ after events, processGuarded programs state tx = .ok (after, events))
    {distributor : MerkleDistributor}
    (found : state.chain.world.distributors accounts.distributor = some distributor)
    (held : state.tokens.accounts distributor.clawbackReceiver = some account)
    (owned : account.owner = programs.burner) :
    (applyGuarded programs state tx).tokens.balance distributor.clawbackReceiver =
      state.tokens.balance distributor.clawbackReceiver +
        state.tokens.balance distributor.tokenVault := by
  obtain ⟨after, events, done⟩ := success
  rw [applyGuarded_of_ok done]
  simp only [processGuarded, sent, processChain, GuardedTransaction.sending, process, dispatch,
    bind_ok_iff, mapError_ok_iff, pure_ok_iff] at done
  obtain ⟨_, _, _, ⟨⟨world, emitted⟩, clawed, rfl⟩, result⟩ := done
  cases result
  have foreign : distributor.clawbackReceiver ≠ distributor.tokenVault := by
    intro same
    obtain ⟨e, _⟩ := clawback_execution clawed
    cases e.found.symm.trans found
    obtain ⟨vault, there, owner⟩ := transfer_owner e.moved
    rw [e.vaultAddress, ← same, held] at there
    cases there
    exact programs.burner_apart _ _ _ ((sound.address _ _ found).trans (owner.trans owned))
  exact ((@clawback_movedAll_iff programs.rt state.chain.world world
    { signers := tx.signers, clock := tx.clock, action := .invoke (.clawback accounts) } emitted
    accounts distributor clawed found).mpr (.inl foreign)).2

/-- A token account of the burner over a whole run. -/
theorem burner_run (sound : Sound programs.rt state.chain.world)
    (held : state.tokens.accounts key = some account) (owned : account.owner = programs.burner)
    (unset : state.authorities.closing key = none)
    (admissible : ∀ tx ∈ txs, GuardedAdmissible programs tx) :
    (∃ amount, (runGuarded programs state txs).tokens.accounts key = some { account with amount }) ∧
      (runGuarded programs state txs).authorities.closing key = none ∧
      (runGuarded programs state txs).tokens.balance key +
          runTotal programs (burnedFrom programs key) state txs =
        state.tokens.balance key + runTotal programs (receivedBy programs key) state txs := by
  induction txs generalizing state account with
  | nil => exact ⟨⟨account.amount, held⟩, unset, rfl⟩
  | cons tx rest ih =>
    simp only [List.mem_cons, forall_eq_or_imp] at admissible
    have step := burner_step sound admissible.1 held owned unset
    obtain ⟨amount, kept⟩ := step.kept
    have later : Sound programs.rt (applyGuarded programs state tx).chain.world :=
      @sound_after_run _ _ [tx] sound (by simpa using admissible.1)
    obtain ⟨final, still, level⟩ := @ih _ { account with amount } later kept owned step.unset
      admissible.2
    refine ⟨final, still, ?_⟩
    have first := step.level
    simp only [runTotal, transitions_cons, List.map_cons, List.sum_cons, runGuarded, replay_cons]
      at level ⊢
    omega

end

/-! ### A chain with the sample deployment

A token account `furnace` of the burner is the clawback receiver, and `debtPurse` belongs to
the bad-debt authority. The admin can freeze accounts of the mint. -/
namespace Sample

def burner : Pubkey := .filled 8
def badDebt : Pubkey := .filled 9
def furnace : Pubkey := .filled 10
def debtPurse : Pubkey := .filled 11

def programs : Programs where
  rt := rt
  burner := burner
  badDebtAuthority := badDebt
  configBump := 0
  burner_apart _ _ _ := show pda ≠ burner by decide
  badDebt_apart _ _ _ := show pda ≠ badDebt by decide
  distinct := by decide

def onChain (tx : Transaction) : ChainTransaction :=
  { signers := tx.signers, clock := tx.clock, action := .call tx.action }

/-- An operation on authorities, signed by the given parties. -/
def authorize (signers : List Pubkey) (operation : AuthorityOperation Pubkey) :
    GuardedTransaction :=
  { signers, clock := { slot := 10, unixTimestamp := 88000 }, action := .authority operation }

theorem guardedAdmissible_of_all {txs : List GuardedTransaction}
    (foreign : txs.all (fun tx => pda ∉ tx.signers ∧ burner ∉ tx.signers ∧ badDebt ∉ tx.signers) =
      true) : ∀ tx ∈ txs, GuardedAdmissible programs tx := by
  intro tx member action
  obtain ⟨first, second, third⟩ := of_decide_eq_true (List.all_eq_true.mp foreign tx member)
  exact ⟨fun _ _ _ => first, second, third⟩

/-- The token accounts of the derived addresses next to the sample's own. -/
def openDerived (funds : UInt64) : List Transaction :=
  openAccounts funds ++ [send 0 [] (.token (.initializeAccount furnace mint burner)),
    send 0 [] (.token (.initializeAccount debtPurse mint badDebt))]

/-- The sample distributor with the burner's account as its clawback receiver, on a mint with a
freeze authority. -/
def deployFreezable : List GuardedTransaction :=
  authorize [] (.initializeFreezableMint mint adminId) ::
    ((openDerived 170).tail ++ [send 0 [adminId] (.invoke (.newDistributor
      { creationAccounts with clawbackReceiver := furnace }
      (creationArgs wallet 100 70 170 false)))]).map fun tx => (onChain tx).guarded

def burnChain : GuardedChain :=
  runGuarded programs { chain := { world := emptyWorld, config := none }, authorities := .nobody }
    deployFreezable

theorem burnChain_reachable : GuardedReachable programs burnChain :=
  ⟨emptyWorld, .nobody, deployFreezable, emptyWorld_genesis,
    guardedAdmissible_of_all rfl, rfl⟩

def burnFurnace : GuardedTransaction :=
  { signers := [wallet], clock := { slot := 10, unixTimestamp := 90000 }
    action := .chain (burnsAll programs mint furnace) }

def clawbackFurnace : GuardedTransaction := (onChain (clawbackTo furnace)).guarded

theorem furnace_of_burnChain : ∃ account, burnChain.tokens.accounts furnace = some account ∧
    account.owner = programs.burner ∧ account.mint = mint := by
  obtain ⟨account, held, facts⟩ := account_of
    (fun account => account.owner = programs.burner ∧ account.mint = mint)
    (show (burnChain.tokens.accounts furnace).any _ = true by decide +kernel)
  exact ⟨account, held, of_decide_eq_true facts⟩

end Sample

/-- Over any run under the authorities, a token account of the burner without a close authority
keeps its mint and owner, and what it lost was burned: its balance and the burned supply add up
to what it held and received. Every fall of its balance is a `burn` of this account that leaves
it empty. -/
theorem burner_account_only_burns {programs : Programs} {state : GuardedChain}
    (reachable : GuardedReachable programs state) {key : Pubkey} {account : TokenAccount Pubkey}
    (held : state.tokens.accounts key = some account)
    (owned : account.owner = programs.burner) (unset : state.authorities.closing key = none)
    {txs : List GuardedTransaction} (admissible : ∀ tx ∈ txs, GuardedAdmissible programs tx) :
    (∃ amount, (runGuarded programs state txs).tokens.accounts key = some { account with amount }) ∧
      (runGuarded programs state txs).tokens.balance key +
          runTotal programs (burnedFrom programs key) state txs =
        state.tokens.balance key + runTotal programs (receivedBy programs key) state txs ∧
      ∀ pre tx, (pre, tx) ∈ transitions (applyGuarded programs) state txs →
        (applyGuarded programs pre tx).tokens.balance key < pre.tokens.balance key →
        (∃ accounts, tx.action = .chain (.burn accounts) ∧ accounts.tokenAccount = key) ∧
          (applyGuarded programs pre tx).tokens.balance key = 0 := by
  obtain ⟨kept, _, level⟩ := burner_run reachable.sound held owned unset admissible
  refine ⟨kept, level, fun pre tx member => ?_⟩
  obtain ⟨before, after, rfl, rfl⟩ := (mem_transitions_iff _ _ _ _ _).mp member
  have prior : ∀ later ∈ before, GuardedAdmissible programs later :=
    fun later earlier => admissible later (by simp [earlier])
  obtain ⟨⟨amount, there⟩, still, _⟩ := burner_run reachable.sound held owned unset prior
  exact (burner_step (sound_after_run reachable.sound prior) (admissible tx (by simp)) there owned
    still).falls

open Sample in
/-- The sample vault is clawed back to the burner's account. Somebody tries to become its close
authority, and it is burned. -/
theorem burner_account_only_burns_sample :
    let txs := [clawbackFurnace,
      authorize [wallet] (.setCloseAuthority furnace wallet (some wallet)), burnFurnace]
    (runGuarded programs burnChain txs).tokens.balance furnace +
        runTotal programs (burnedFrom programs furnace) burnChain txs =
      burnChain.tokens.balance furnace +
        runTotal programs (receivedBy programs furnace) burnChain txs := by
  intro txs
  obtain ⟨account, held, owned, _⟩ := furnace_of_burnChain
  exact (burner_account_only_burns burnChain_reachable held owned (by decide +kernel)
    (guardedAdmissible_of_all rfl)).2.1

/-- A clawback to a token account of the burner without a close authority, then anything, then a
burn by anyone: the account is empty exactly if it was not frozen or empty before, and the supply
has then lost at least what it held and what the vault held. -/
theorem clawed_back_tokens_burn {programs : Programs} {state : GuardedChain}
    (reachable : GuardedReachable programs state) {tx : GuardedTransaction}
    (allowed : GuardedAdmissible programs tx) {accounts : ClawbackAccounts}
    (sent : tx.action = .chain (.call (.invoke (.clawback accounts))))
    (success : ∃ after events, processGuarded programs state tx = .ok (after, events))
    {distributor : MerkleDistributor} {account : TokenAccount Pubkey}
    (found : state.chain.world.distributors accounts.distributor = some distributor)
    (held : state.tokens.accounts distributor.clawbackReceiver = some account)
    (owned : account.owner = programs.burner)
    (unset : state.authorities.closing distributor.clawbackReceiver = none)
    {txs : List GuardedTransaction} (admissible : ∀ later ∈ txs, GuardedAdmissible programs later)
    {last : GuardedTransaction} (anyone : GuardedAdmissible programs last)
    (burns : last.action = .chain (burnsAll programs account.mint distributor.clawbackReceiver)) :
    let receiver := distributor.clawbackReceiver
    let clawed := applyGuarded programs state tx
    let reached := runGuarded programs clawed txs
    let final := applyGuarded programs reached last
    (final.tokens.balance receiver = 0 ↔
        reached.authorities.frozen receiver = false ∨ reached.tokens.balance receiver = 0) ∧
      (final.tokens.balance receiver = 0 →
        state.tokens.balance distributor.tokenVault + state.tokens.balance receiver ≤
          runTotal programs (burnedFrom programs receiver) clawed (txs ++ [last])) := by
  intro receiver clawed reached final
  have step := burner_step reachable.sound allowed held owned unset
  obtain ⟨amount, kept⟩ := step.kept
  have later : Sound programs.rt clawed.chain.world :=
    @sound_after_run _ _ [tx] reachable.sound (by simpa using allowed)
  have moved : clawed.tokens.balance receiver =
      state.tokens.balance receiver + state.tokens.balance distributor.tokenVault :=
    chain_clawback_moves reachable.sound sent success found held owned
  obtain ⟨⟨current, there⟩, _⟩ := @burner_run _ _ _ { account with amount } txs later kept owned
    step.unset admissible
  refine ⟨burn_empties_iff (sound_after_run later admissible) there owned burns, fun empty => ?_⟩
  have all : ∀ other ∈ txs ++ [last], GuardedAdmissible programs other := by
    intro other member
    rcases List.mem_append.mp member with earlier | final
    · exact admissible other earlier
    · rw [List.mem_singleton.mp final]
      exact anyone
  have level : final.tokens.balance receiver +
        runTotal programs (burnedFrom programs receiver) clawed (txs ++ [last]) =
      clawed.tokens.balance receiver +
        runTotal programs (receivedBy programs receiver) clawed (txs ++ [last]) := by
    rw [show final = runGuarded programs clawed (txs ++ [last]) by
      rw [runGuarded, replay_append, replay_cons, replay_nil]]
    exact (@burner_run _ _ _ { account with amount } _ later kept owned step.unset all).2.2
  omega

open Sample in
/-- The 170 tokens of the sample vault leave the supply, with the account frozen and thawed in
between. -/
theorem clawed_back_tokens_burn_sample :
    let clawed := applyGuarded programs burnChain clawbackFurnace
    let txs := [authorize [adminId] (.freezeAccount furnace mint adminId), burnFurnace,
      authorize [adminId] (.thawAccount furnace mint adminId),
      (onChain (send 88000 [] (.token (.mintTo mint furnace 5)))).guarded]
    let reached := runGuarded programs clawed txs
    (applyGuarded programs reached burnFurnace).tokens.balance furnace = 0 ∧
      170 ≤ runTotal programs (burnedFrom programs furnace) clawed (txs ++ [burnFurnace]) := by
  intro clawed txs reached
  obtain ⟨record, found, facts⟩ := record_of
    (fun record => record.tokenVault = vault ∧ record.clawbackReceiver = furnace)
    (show (burnChain.chain.world.distributors pda).any _ = true by decide +kernel)
  obtain ⟨vaultAddress, receiverAddress⟩ := of_decide_eq_true facts
  obtain ⟨account, held, owned, token⟩ := furnace_of_burnChain
  have success : ∃ after events, processGuarded programs burnChain clawbackFurnace =
      .ok (after, events) := by
    cases outcome : processGuarded programs burnChain clawbackFurnace with
    | ok result => exact ⟨result.1, result.2, rfl⟩
    | error failure =>
      exact absurd (show (processGuarded programs burnChain clawbackFurnace).toBool = true
        by decide +kernel) (by rw [outcome]; exact Bool.false_ne_true)
  have unset : burnChain.authorities.closing furnace = none := by decide +kernel
  have thawed : reached.authorities.frozen furnace = false := by decide +kernel
  have burned := clawed_back_tokens_burn burnChain_reachable
    (guardedAdmissible_of_all (show [clawbackFurnace].all _ = true from rfl) _
      (List.mem_singleton.mpr rfl)) rfl success found (receiverAddress ▸ held) owned
    (receiverAddress ▸ unset) (guardedAdmissible_of_all (show txs.all _ = true from rfl))
    (guardedAdmissible_of_all (show [burnFurnace].all _ = true from rfl) burnFurnace
      (List.mem_singleton.mpr rfl)) (by rw [receiverAddress, token]; rfl)
  have covered : 170 ≤ burnChain.tokens.balance vault + burnChain.tokens.balance furnace := by
    decide +kernel
  dsimp only [reached, clawed] at burned thawed ⊢
  rw [vaultAddress, receiverAddress] at burned
  have empty := burned.1.mpr (.inl thawed)
  exact ⟨empty, Nat.le_trans covered (burned.2 empty)⟩

/-! ### The bad-debt authority -/

section
variable {programs : Programs} {state : GuardedChain} {tx : GuardedTransaction}

/-- The configuration is written once. -/
theorem config_stays {config : Config} (configured : state.chain.config = some config) :
    (applyGuarded programs state tx).chain.config = some config := by
  rcases applyGuarded_cases programs state tx with same | execution
  · rw [same, configured]
  generalize applyGuarded programs state tx = after at execution
  cases execution with
  | authority sent done => exact configured
  | chain sent permitted done =>
    cases done with
    | call => exact configured
    | burnNothing => exact configured
    | burn => exact configured
    | initializeConfig again signed vacant => cases vacant.symm.trans configured
    | claimDfx => exact configured
    | withdraw => exact configured

/-- One step of a token account of the bad-debt authority. -/
theorem bad_debt_step (sound : Sound programs.rt state.chain.world)
    (admissible : GuardedAdmissible programs tx) {config : Config}
    (configured : state.chain.config = some config) {key : Pubkey} {account : TokenAccount Pubkey}
    (held : state.tokens.accounts key = some account)
    (owned : account.owner = programs.badDebtAuthority)
    (unset : state.authorities.closing key = none) :
    (∃ amount, (applyGuarded programs state tx).tokens.accounts key =
        some { account with amount }) ∧
      (applyGuarded programs state tx).authorities.closing key = none ∧
      ((applyGuarded programs state tx).tokens.balance key < state.tokens.balance key →
        config.admin ∈ tx.signers ∧ ∃ accounts amount,
          tx.action = .chain (.withdraw accounts amount) ∧ accounts.fromAccount = key) := by
  rcases applyGuarded_cases programs state tx with same | execution
  · rw [same]
    exact ⟨⟨account.amount, held⟩, unset, fun less => absurd less (Nat.lt_irrefl _)⟩
  obtain ⟨still, losses⟩ := execution.loses sound held unset
    (owned ▸ (admissible (.initializeConfig key)).badDebtAuthority) (owned ▸ programs.badDebt_apart)
  rcases losses with keeps | ⟨_, _, _, _, owner, _⟩ |
    ⟨accounts, amount, other, moved, sent, here, _, found, signed, transferred⟩
  · exact ⟨keeps.retains account held, still,
      fun less => absurd keeps.balance_le (Nat.not_le.mpr less)⟩
  · exact absurd (owner.symm.trans owned) programs.distinct
  · cases configured.symm.trans found
    exact ⟨transfer_retains key transferred account held, still,
      fun _ => ⟨signed, accounts, amount, sent, here⟩⟩

end

/-- Once the example program is configured, over any run under the authorities its configuration
and the owner of its token accounts without a close authority stay, and every fall of such an
account's balance is a `withdraw` from it that the configured admin signed. -/
theorem bad_debt_custody {programs : Programs} {state : GuardedChain}
    (reachable : GuardedReachable programs state) {config : Config}
    (configured : state.chain.config = some config) {key : Pubkey} {account : TokenAccount Pubkey}
    (held : state.tokens.accounts key = some account)
    (owned : account.owner = programs.badDebtAuthority)
    (unset : state.authorities.closing key = none) {txs : List GuardedTransaction}
    (admissible : ∀ tx ∈ txs, GuardedAdmissible programs tx) :
    (runGuarded programs state txs).chain.config = some config ∧
      (∃ amount, (runGuarded programs state txs).tokens.accounts key =
        some { account with amount }) ∧
      ∀ pre tx, (pre, tx) ∈ transitions (applyGuarded programs) state txs →
        (applyGuarded programs pre tx).tokens.balance key < pre.tokens.balance key →
        config.admin ∈ tx.signers ∧ ∃ accounts amount,
          tx.action = .chain (.withdraw accounts amount) ∧ accounts.fromAccount = key := by
  induction txs generalizing state account with
  | nil => exact ⟨configured, ⟨account.amount, held⟩, by simp⟩
  | cons tx rest ih =>
    simp only [List.mem_cons, forall_eq_or_imp] at admissible
    obtain ⟨⟨amount, kept⟩, still, falls⟩ := bad_debt_step reachable.sound admissible.1
      configured held owned unset
    have next : GuardedReachable programs (applyGuarded programs state tx) :=
      @GuardedReachable.after_run _ _ reachable [tx] (by simpa using admissible.1)
    obtain ⟨stays, final, later⟩ := ih next (config_stays configured) kept owned still admissible.2
    refine ⟨stays, final, fun pre other member => ?_⟩
    rcases List.mem_cons.mp member with here | elsewhere
    · obtain ⟨rfl, rfl⟩ := Prod.mk.inj here
      exact falls
    · exact later pre other elsewhere

namespace Sample

theorem applyChain_onChain (chain : Chain) (tx : Transaction) :
    applyChain programs chain (onChain tx) = { chain with world := apply rt chain.world tx } := by
  have inner : ({ signers := (onChain tx).signers, clock := (onChain tx).clock
                  action := tx.action } : Transaction) = tx := rfl
  simp only [applyChain, processChain, apply, show (onChain tx).action = .call tx.action from rfl,
    inner, show programs.rt = rt from rfl]
  cases process rt chain.world tx with
  | error failure => rfl
  | ok result => rfl

theorem runChain_onChain (txs : List Transaction) (chain : Chain) :
    runChain programs chain (txs.map onChain) = { chain with world := run rt chain.world txs } := by
  induction txs generalizing chain with
  | nil => rfl
  | cons tx rest ih =>
    rw [List.map_cons, runChain, replay_cons, applyChain_onChain]
    exact ih { chain with world := apply rt chain.world tx }

theorem chainAdmissible_of_all {txs : List ChainTransaction}
    (foreign : txs.all (fun tx => pda ∉ tx.signers ∧ burner ∉ tx.signers ∧ badDebt ∉ tx.signers) =
      true) : ∀ tx ∈ txs, ChainAdmissible programs tx := by
  intro tx member
  obtain ⟨first, second, third⟩ := of_decide_eq_true (List.all_eq_true.mp foreign tx member)
  exact ⟨fun _ _ _ => first, second, third⟩

theorem chainReachable_of_all {txs : List Transaction}
    (foreign : (txs.map onChain).all (fun tx => pda ∉ tx.signers ∧ burner ∉ tx.signers ∧
      badDebt ∉ tx.signers) = true) :
    ChainReachable programs { world := run rt emptyWorld txs, config := none } :=
  ⟨emptyWorld, txs.map onChain, emptyWorld_genesis, chainAdmissible_of_all foreign,
    (runChain_onChain txs { world := emptyWorld, config := none }).symm⟩

/-- 40 tokens of the bad-debt authority, and the admin as the first to initialize. -/
def debtChain : Chain where
  world := run rt emptyWorld (openDerived 0 ++
    [send 0 [] (.token (.mintTo mint debtPurse 40))])
  config := none

def configure : ChainTransaction :=
  { signers := [adminId], clock := { slot := 10, unixTimestamp := 0 }
    action := .initializeConfig adminId }

def withdrawDebt : ChainTransaction :=
  { signers := [adminId], clock := { slot := 10, unixTimestamp := 0 }
    action := .withdraw
      { admin := adminId, badDebtAuthority := badDebt, fromAccount := debtPurse
        destination := purse } u64Max }

end Sample

open Sample in
/-- The admin withdraws everything, and nobody else could. -/
theorem bad_debt_custody_sample :
    let state : GuardedChain :=
      { chain := applyChain programs debtChain configure, authorities := .nobody }
    let txs := [authorize [wallet] (.setCloseAuthority debtPurse wallet (some wallet)),
      withdrawDebt.guarded]
    (runGuarded programs state txs).tokens.balance debtPurse = 0 ∧
      ∀ pre tx, (pre, tx) ∈ transitions (applyGuarded programs) state txs →
        (applyGuarded programs pre tx).tokens.balance debtPurse < pre.tokens.balance debtPurse →
        adminId ∈ tx.signers := by
  intro state txs
  have reachable : ChainReachable programs state.chain :=
    @ChainReachable.after_run _ _ (chainReachable_of_all rfl) [configure]
      (chainAdmissible_of_all rfl)
  have configured : state.chain.config = some { admin := adminId, bump := 0 } := by decide +kernel
  obtain ⟨account, held, owned⟩ := account_of
    (fun account => account.owner = programs.badDebtAuthority)
    (show (state.tokens.accounts debtPurse).any _ = true by decide +kernel)
  have custody := bad_debt_custody reachable.guarded configured held (of_decide_eq_true owned) rfl
    (guardedAdmissible_of_all (show txs.all _ = true from rfl))
  exact ⟨by decide +kernel, fun pre tx member falls => (custody.2.2 pre tx member falls).1⟩

end MultiDistributor.Source

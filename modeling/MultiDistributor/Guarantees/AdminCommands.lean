import MultiDistributor.Guarantees.Claimable
import MultiDistributor.Guarantees.TreeFiles
import MultiDistributor.Lib.Reordering
import MultiDistributor.Source.AdminCommands

/-!
# What an administrative command has done when it ends

A command ends once every distributor of its directory was found in the wanted state or a
transaction for it was accepted. Accepted means that the transaction would have succeeded at
that moment. Until it lands, others claim, withdraw, claw back and move tokens; attempts that
were given up may land too, and so may the transactions of the command for other trees, in any
order. None of this can keep the distributor from the wanted state: what the transaction
depends on can be changed by the admin in office and by the owner of the token account it
names. The freeze authority of the mint and the close authority of the token account, which
are not part of the ledger, are taken not to interfere.
-/
namespace MultiDistributor.Source
open Lib.Checked Lib.TokenLedger Lib.Replay Lib.Reordering

/-! ### When the transactions succeed -/

section
variable {rt : Runtime} {world : World} {signers : List Pubkey} {clock : Clock}

theorem setAdmin_succeeds_iff {accounts : AdminAccounts} {newAdmin : Pubkey} :
    Succeeds rt world ⟨signers, clock, .invoke (.setAdmin accounts newAdmin)⟩ ↔
      ∃ distributor, world.distributors accounts.distributor = some distributor ∧
        accounts.admin ∈ signers ∧ accounts.admin = distributor.admin ∧
        accounts.admin ≠ newAdmin := by
  simp only [Succeeds, process, dispatch, setAdmin, AdminAccounts.tryAccounts,
    World.loadDistributor, requireSigner, bind_ok_iff, okOr_ok_iff, require_ok_iff, pure_ok_iff]
  constructor
  · intro success
    obtain ⟨_, _, distributor, ⟨_, found, _, signed, _, authority, rfl⟩, _, other, _⟩ := success
    exact ⟨_, found, signed, authority, other⟩
  · intro met
    obtain ⟨distributor, found, signed, authority, other⟩ := met
    exact ⟨_, _, distributor, ⟨distributor, found, (), signed, (), authority, rfl⟩, (), other, rfl⟩

theorem setEnableSlot_succeeds_iff {accounts : AdminAccounts} {slot : UInt64} :
    Succeeds rt world ⟨signers, clock, .invoke (.setEnableSlot accounts slot)⟩ ↔
      ∃ distributor, world.distributors accounts.distributor = some distributor ∧
        accounts.admin ∈ signers ∧ accounts.admin = distributor.admin := by
  simp only [Succeeds, process, dispatch, setEnableSlot, AdminAccounts.tryAccounts,
    World.loadDistributor, requireSigner, bind_ok_iff, okOr_ok_iff, require_ok_iff, pure_ok_iff]
  constructor
  · intro success
    obtain ⟨_, _, distributor, ⟨_, found, _, signed, _, authority, rfl⟩, _⟩ := success
    exact ⟨_, found, signed, authority⟩
  · intro met
    obtain ⟨distributor, found, signed, authority⟩ := met
    exact ⟨_, _, distributor, ⟨distributor, found, (), signed, (), authority, rfl⟩, rfl⟩

theorem setClawbackReceiver_succeeds_iff {accounts : AdminAccounts} {receiver : Pubkey} :
    Succeeds rt world ⟨signers, clock, .invoke (.setClawbackReceiver accounts receiver)⟩ ↔
      ∃ distributor account, world.distributors accounts.distributor = some distributor ∧
        world.tokens.accounts receiver = some account ∧ accounts.admin ∈ signers ∧
        account.mint = distributor.mint ∧ accounts.admin = distributor.admin ∧
        distributor.clawbackReceiver ≠ receiver := by
  simp only [Succeeds, process, dispatch, setClawbackReceiver, World.loadDistributor,
    World.loadToken, requireSigner, bind_ok_iff, okOr_ok_iff, require_ok_iff, pure_ok_iff]
  constructor
  · intro success
    obtain ⟨_, _, distributor, found, account, held, _, signed, _, mint, _, authority, _, other,
      _⟩ := success
    exact ⟨distributor, account, found, held, signed, mint, authority, other⟩
  · intro met
    obtain ⟨distributor, account, found, held, signed, mint, authority, other⟩ := met
    exact ⟨_, _, distributor, found, account, held, (), signed, (), mint, (), authority, (), other,
      rfl⟩

theorem clawback_succeeds_iff (wellFormed : WellFormed rt world) {accounts : ClawbackAccounts} :
    Succeeds rt world ⟨signers, clock, .invoke (.clawback accounts)⟩ ↔
      ∃ distributor vault receiver,
        world.distributors accounts.distributor = some distributor ∧
        world.tokens.accounts accounts.fromAccount = some vault ∧
        world.tokens.accounts accounts.toAccount = some receiver ∧
        vault.mint = receiver.mint ∧ accounts.claimant ∈ signers ∧
        accounts.fromAccount = distributor.tokenVault ∧
        accounts.toAccount = distributor.clawbackReceiver ∧ distributor.clawedBack = false ∧
        distributor.clawbackStartTs.toInt ≤ clock.unixTimestamp.toInt := by
  simp only [Succeeds, process, dispatch, clawback, ClawbackAccounts.tryAccounts, handleClawback,
    World.loadDistributor, World.loadToken, requireSigner, bind_ok_iff, okOr_ok_iff,
    require_ok_iff, pure_ok_iff, requireAssociated_ok_iff, invokeTransfer_ok_iff,
    Int64.lt_iff_toInt_lt, Int.not_lt]
  constructor
  · intro success
    obtain ⟨_, _, _, ⟨distributor, found, vault, held, receiver, there, _, signed, _, _, _,
      ofVault, _, ofReceiver, rfl⟩, _, live, _, due, tokens, ⟨_, moved⟩, _⟩ := success
    refine ⟨distributor, vault, receiver, found, held, there, ?_, signed, ofVault, ofReceiver,
      live, due⟩
    by_cases same : accounts.fromAccount = accounts.toAccount
    · rw [same, there] at held
      rw [Option.some.inj held]
    · obtain ⟨src, dst, _, _, isSource, isDestination, _, mint, _⟩ := transfer_effects moved same
      cases held.symm.trans isSource
      cases there.symm.trans isDestination
      exact mint
  · intro met
    obtain ⟨distributor, vault, receiver, found, held, there, mint, signed, ofVault, ofReceiver,
      live, due⟩ := met
    obtain ⟨account, isVault, owned⟩ := wellFormed.vault _ _ found
    rw [← ofVault, held] at isVault
    cases isVault
    obtain ⟨tokens, moved⟩ := Conserved.transfer_all wellFormed.conserved held there mint
    rw [owned] at moved
    exact ⟨_, _, _, ⟨distributor, found, vault, held, receiver, there, (), signed, (),
      ⟨owned, ofVault.trans (wellFormed.associated _ _ found)⟩, (), ofVault, (), ofReceiver, rfl⟩,
      (), live, (), due, tokens, ⟨wellFormed.address _ _ found, moved⟩, rfl⟩

end

/-! ### What others cannot change -/

/-- What only the admin in office can change is the same, and a clawback is not undone. -/
structure Kept (before after : MerkleDistributor) : Prop where
  terms : SameTerms before after
  admin : after.admin = before.admin
  enableSlot : after.enableSlot = before.enableSlot
  clawbackReceiver : after.clawbackReceiver = before.clawbackReceiver
  clawbackStartTs : after.clawbackStartTs = before.clawbackStartTs
  clawedBack : before.clawedBack = true → after.clawedBack = true

theorem Kept.refl (distributor : MerkleDistributor) : Kept distributor distributor :=
  ⟨.refl distributor, rfl, rfl, rfl, rfl, id⟩

/-- The token account that a transaction of the commands names besides the vault. -/
def Instruction.receiver : Instruction → Option Pubkey
  | .clawback accounts => some accounts.toAccount
  | .setClawbackReceiver _ newClawbackAccount => some newClawbackAccount
  | _ => none

/-- Nothing that a transaction for the distributor depends on has changed. -/
structure Spares (key : Pubkey) (receiver : Option Pubkey) (before after : World) : Prop where
  record : ∀ distributor, before.distributors key = some distributor →
    ∃ next, after.distributors key = some next ∧ Kept distributor next ∧
      Retains before.tokens after.tokens distributor.tokenVault
  account : ∀ address ∈ receiver, Retains before.tokens after.tokens address

section
variable {rt : Runtime} {world after : World} {tx : Transaction} {key : Pubkey}
  {distributor : MerkleDistributor} {receiver : Option Pubkey}

theorem AuthorizedStep.kept {next : MerkleDistributor} (step : AuthorizedStep tx distributor next)
    (unsigned : distributor.admin ∉ tx.signers) : Kept distributor next := by
  have same := step.unsigned unsigned
  refine ⟨step.terms, ?_, ?_, ?_, ?_, step.clawedBack⟩ <;> rw [same]

/-- Without the signature of its admin a distributor is not closed either. -/
theorem StepAt.kept (step : StepAt rt world tx key distributor after)
    (unsigned : distributor.admin ∉ tx.signers) :
    ∃ next, after.distributors key = some next ∧ Kept distributor next := by
  cases step with
  | closed sent e here same left =>
    subst same
    exact absurd (e.authority ▸ e.signed) unsigned
  | untouched quiet record statuses vault still => exact ⟨distributor, record, .refl distributor⟩
  | newClaim sent e here same left =>
    subst here same left
    exact ⟨e.next, e.after_record, e.authorized.kept unsigned⟩
  | claimLocked sent e here same left =>
    subst here same left
    exact ⟨e.next, e.after_record, e.authorized.kept unsigned⟩
  | setRoot sent e here same left =>
    subst here same left
    exact ⟨e.next, e.after_record, e.authorized.kept unsigned⟩
  | clawback sent e here same left =>
    subst here same left
    exact ⟨e.next, e.after_record, e.authorized.kept unsigned⟩
  | admin sent here signed update left => exact absurd signed unsigned

theorem Spares.refl (key : Pubkey) (receiver : Option Pubkey) (world : World) :
    Spares key receiver world world where
  record distributor found :=
    ⟨distributor, found, .refl distributor, (keeps_refl _ _).retains⟩
  account _ _ := (keeps_refl _ _).retains

/-- A transaction of others spares what its signers have no say in. -/
theorem spares_of_unsigned (wellFormed : WellFormed rt world) (admissible : Admissible rt tx)
    (unsigned : ∀ distributor, world.distributors key = some distributor →
      distributor.admin ∉ tx.signers)
    (silent : ∀ address ∈ receiver, ∀ account, world.tokens.accounts address = some account →
      account.owner ∉ tx.signers) :
    Spares key receiver world (apply rt world tx) := by
  rcases apply_cases rt world tx with ⟨failed, _⟩ | ⟨execution, _⟩
  · rw [failed]
    exact .refl key receiver world
  constructor
  · intro distributor found
    obtain ⟨next, present, kept⟩ := (wellFormed.stepAt admissible found).kept
      (unsigned distributor found)
    obtain ⟨vault, held, owned⟩ := wellFormed.vault key distributor found
    have foreign := wellFormed.vault_foreign admissible found
    refine ⟨next, present, kept, fun account same => ?_⟩
    cases held.symm.trans same
    exact execution.tokenStep.retains held (owned.symm ▸ foreign)
  · intro address named account held
    exact execution.tokenStep.retains held (silent address named account held)

theorem StepAt.elsewhere (step : StepAt rt world tx key distributor after)
    (other : tx.target ≠ some key) : after.distributors key = some distributor := by
  cases step with
  | untouched quiet record statuses vault still => exact record
  | newClaim sent e here same left =>
    subst here
    exact absurd (target_of_sent sent) other
  | claimLocked sent e here same left =>
    subst here
    exact absurd (target_of_sent sent) other
  | setRoot sent e here same left =>
    subst here
    exact absurd (target_of_sent sent) other
  | clawback sent e here same left =>
    subst here
    exact absurd (target_of_sent sent) other
  | closed sent e here same left =>
    subst here
    exact absurd (target_of_sent sent) other
  | admin sent here signed update left =>
    refine absurd ?_ other
    rw [target_of_sent sent, ← here]
    cases update <;> rfl

/-- An instruction of the program leaves every token account with its mint and owner. -/
theorem Execution.retains_of_invoke (execution : Execution rt world tx after)
    {instruction : Instruction} (sent : tx.action = .invoke instruction) (address : Pubkey) :
    Retains world.tokens after.tokens address := by
  cases execution with
  | newDistributor _ e => exact (keeps_refl _ _).retains
  | newClaim _ e => exact transfer_retains address e.moved
  | claimLocked _ e => exact transfer_retains address e.moved
  | setRoot _ e =>
    rcases burnExcess_cases e.burn with ⟨_, same⟩ | burned
    · exact retains_of_eq (congrFun (congrArg Ledger.accounts same) address)
    · exact burn_retains address burned
  | clawback _ e => exact transfer_retains address e.moved
  | closeDistributor _ e => exact transfer_retains address e.moved
  | admin _ found signed authority update => exact (keeps_refl _ _).retains
  | token outside done => cases outside.symm.trans sent

/-- An instruction about another distributor spares this one. -/
theorem spares_of_elsewhere (wellFormed : WellFormed rt world) (admissible : Admissible rt tx)
    {instruction : Instruction} (sent : tx.action = .invoke instruction)
    (other : instruction.target ≠ key) : Spares key receiver world (apply rt world tx) := by
  rcases apply_cases rt world tx with ⟨failed, _⟩ | ⟨execution, _⟩
  · rw [failed]
    exact .refl key receiver world
  refine ⟨fun distributor found => ⟨distributor, ?_, .refl distributor, ?_⟩, fun address _ => ?_⟩
  · refine (wellFormed.stepAt admissible found).elsewhere ?_
    rw [target_of_sent sent]
    exact fun same => other (Option.some.inj same)
  · exact execution.retains_of_invoke sent _
  · exact execution.retains_of_invoke sent address

end

/-! ### What a command relies on -/

/-- The distributor is in the state that the command wants. -/
def Finished (loop : AdminLoop) (key : Pubkey) (world : World) : Prop :=
  ∃ distributor, world.distributors key = some distributor ∧ loop.done distributor = true

/-- Its transactions lead to the wanted state, and nobody else can spoil that state or a
transaction on its way to it. -/
structure Reliable (rt : Runtime) (keypair : Pubkey) (loop : AdminLoop) : Prop where
  target : ∀ key state, (loop.instruction key state).target = key
  reaches : ∀ {world : World} {clock : Clock} {key : Pubkey} {state : MerkleDistributor},
    Succeeds rt world (adminTransaction keypair clock (loop.instruction key state)) →
      Finished loop key
        (apply rt world (adminTransaction keypair clock (loop.instruction key state)))
  lasts : ∀ {before after : MerkleDistributor}, Kept before after → loop.done before = true →
    loop.done after = true
  stays : ∀ {before after : World} {clock later : Clock} {key : Pubkey}
    {state : MerkleDistributor}, WellFormed rt before → WellFormed rt after →
    Spares key (loop.instruction key state).receiver before after →
    clock.unixTimestamp.toInt ≤ later.unixTimestamp.toInt →
    Succeeds rt before (adminTransaction keypair clock (loop.instruction key state)) →
      Finished loop key after ∨
        Succeeds rt after (adminTransaction keypair later (loop.instruction key state))

section
variable {rt : Runtime} {mint keypair : Pubkey}

theorem setAdmin_reliable (newAdmin : Pubkey) :
    Reliable rt keypair (processSetAdmin keypair newAdmin) where
  target _ _ := rfl
  reaches {world clock key state} success := by
    obtain ⟨after, events, success⟩ := success
    rw [apply_of_ok success]
    simp only [process, adminTransaction, processSetAdmin, dispatch, setAdmin, bind_ok_iff,
      require_ok_iff, pure_ok_iff] at success
    obtain ⟨distributor, _, _, _, result⟩ := success
    obtain ⟨rfl, _⟩ := Prod.mk.inj result
    exact ⟨{ distributor with admin := newAdmin }, by simp, by simp [processSetAdmin]⟩
  lasts kept finished := by
    simp only [processSetAdmin, decide_eq_true_eq] at finished ⊢
    exact kept.admin.trans finished
  stays _ _ spares _ success := by
    obtain ⟨distributor, found, signed, authority, other⟩ := setAdmin_succeeds_iff.mp success
    obtain ⟨next, present, kept, _⟩ := spares.record distributor found
    exact .inr (setAdmin_succeeds_iff.mpr
      ⟨next, present, signed, authority.trans kept.admin.symm, other⟩)

theorem setEnableSlot_reliable (slot : UInt64) (airdropVersion : Option UInt64) :
    Reliable rt keypair (processSetEnableSlot keypair slot airdropVersion) where
  target _ _ := rfl
  reaches {world clock key state} success := by
    obtain ⟨after, events, success⟩ := success
    rw [apply_of_ok success]
    simp only [process, adminTransaction, processSetEnableSlot, dispatch, setEnableSlot,
      bind_ok_iff, pure_ok_iff] at success
    obtain ⟨distributor, _, result⟩ := success
    obtain ⟨rfl, _⟩ := Prod.mk.inj result
    exact ⟨{ distributor with enableSlot := slot }, by simp, by simp [processSetEnableSlot]⟩
  lasts kept finished := by
    simp only [processSetEnableSlot, decide_eq_true_eq] at finished ⊢
    exact kept.enableSlot.trans finished
  stays _ _ spares _ success := by
    obtain ⟨distributor, found, signed, authority⟩ := setEnableSlot_succeeds_iff.mp success
    obtain ⟨next, present, kept, _⟩ := spares.record distributor found
    exact .inr (setEnableSlot_succeeds_iff.mpr
      ⟨next, present, signed, authority.trans kept.admin.symm⟩)

theorem setClawbackReceiver_reliable (receiver : Pubkey) :
    Reliable rt keypair (processSetClawbackReceiver rt mint keypair receiver) where
  target _ _ := rfl
  reaches {world clock key state} success := by
    obtain ⟨after, events, success⟩ := success
    rw [apply_of_ok success]
    simp only [process, adminTransaction, processSetClawbackReceiver, dispatch, setClawbackReceiver,
      bind_ok_iff, require_ok_iff, pure_ok_iff] at success
    obtain ⟨distributor, _, _, _, _, _, _, _, _, _, _, _, result⟩ := success
    obtain ⟨rfl, _⟩ := Prod.mk.inj result
    exact ⟨{ distributor with clawbackReceiver := rt.associatedTokenAddress receiver mint },
      by simp, by simp [processSetClawbackReceiver]⟩
  lasts kept finished := by
    simp only [processSetClawbackReceiver, decide_eq_true_eq] at finished ⊢
    exact kept.clawbackReceiver.trans finished
  stays _ _ spares _ success := by
    obtain ⟨distributor, account, found, held, signed, ofMint, authority, other⟩ :=
      setClawbackReceiver_succeeds_iff.mp success
    obtain ⟨next, present, kept, _⟩ := spares.record distributor found
    obtain ⟨amount, still⟩ := spares.account _ rfl account held
    exact .inr (setClawbackReceiver_succeeds_iff.mpr
      ⟨next, _, present, still, signed, ofMint.trans kept.terms.mint.symm,
        authority.trans kept.admin.symm, kept.clawbackReceiver ▸ other⟩)

/-- Others may claw back first, which is just as well. -/
theorem clawback_reliable : Reliable rt keypair (processClawback keypair) where
  target _ _ := rfl
  reaches {world clock key state} success := by
    obtain ⟨after, events, success⟩ := success
    rw [apply_of_ok success]
    obtain ⟨e, rfl⟩ := clawback_execution success
    exact ⟨e.next, e.after_record, rfl⟩
  lasts kept finished := kept.clawedBack finished
  stays before after spares later success := by
    obtain ⟨distributor, vault, receiver, found, held, there, ofMint, signed, ofVault, ofReceiver,
      _, due⟩ := (clawback_succeeds_iff before).mp success
    obtain ⟨next, present, kept, vaultKept⟩ := spares.record distributor found
    obtain ⟨left, vaultThere⟩ := vaultKept vault (ofVault ▸ held)
    obtain ⟨amount, still⟩ := spares.account _ rfl receiver there
    by_cases finished : next.clawedBack = true
    · exact .inl ⟨next, present, finished⟩
    · rw [← ofVault] at vaultThere
      refine .inr ((clawback_succeeds_iff after).mpr ⟨next, _, _, present, vaultThere, still,
        ofMint, signed, ofVault.trans kept.terms.tokenVault.symm,
        ofReceiver.trans kept.clawbackReceiver.symm, Bool.eq_false_iff.mpr finished, ?_⟩)
      rw [kept.clawbackStartTs]
      exact due.trans later

theorem AdminCommand.reliable (command : AdminCommand) :
    Reliable rt keypair (command.process rt mint keypair) := by
  cases command with
  | setAdmin newAdmin => exact setAdmin_reliable newAdmin
  | setClawbackReceiver receiver => exact setClawbackReceiver_reliable receiver
  | setEnableSlot slot airdropVersion => exact setEnableSlot_reliable slot airdropVersion
  | clawback => exact clawback_reliable

end

/-! ### Runs -/

/-- A node accepts only what would succeed, a transaction lands after it was sent, and none
is dropped. The transactions of others are not signed by the admin in office of a distributor
at hand, nor by the owner of a token account that a transaction on its way names. -/
inductive Unopposed (rt : Runtime) (mint keypair : Pubkey) (versions : List (Option UInt64))
    (state : AdminRun) : AdminEvent → Prop
  | chain {tx : Transaction} (admissible : Admissible rt tx)
      (unsigned : ∀ version, some version ∈ versions → ∀ distributor,
        state.world.distributors (rt.distributorAddress mint version) = some distributor →
          distributor.admin ∉ tx.signers)
      (silent : ∀ sent ∈ state.inFlight, ∀ address ∈ sent.instruction.receiver, ∀ account,
        state.world.tokens.accounts address = some account → account.owner ∉ tx.signers) :
      Unopposed rt mint keypair versions state (.chain tx)
  | read : Unopposed rt mint keypair versions state .read
  | accepted {clock : Clock}
      (success : ∀ instruction, state.phase = .sending instruction →
        Succeeds rt state.world (adminTransaction keypair clock instruction)) :
      Unopposed rt mint keypair versions state (.send clock .ok)
  | refused (clock : Clock) (submitted : Bool) :
      Unopposed rt mint keypair versions state (.send clock (.err submitted))
  | land {i : Nat} {clock : Clock}
      (later : ∀ sent, state.inFlight[i]? = some sent →
        sent.sentAt.unixTimestamp.toInt ≤ clock.unixTimestamp.toInt) :
      Unopposed rt mint keypair versions state (.land i clock)

/-- The distributor is in the wanted state, or a transaction that takes it there is on its
way. -/
def OnTrack (rt : Runtime) (keypair : Pubkey) (loop : AdminLoop) (key : Pubkey) (world : World)
    (inFlight : List SentInstruction) : Prop :=
  Finished loop key world ∨ ∃ sent ∈ inFlight, ∃ state,
    sent.instruction = loop.instruction key state ∧
      Succeeds rt world (adminTransaction keypair sent.sentAt sent.instruction)

structure Progress (rt : Runtime) (mint keypair : Pubkey) (loop : AdminLoop)
    (versions : List (Option UInt64)) (state : AdminRun) : Prop where
  wellFormed : WellFormed rt state.world
  own : ∀ sent ∈ state.inFlight, ∃ key read, sent.instruction = loop.instruction key read
  sending : ∀ instruction, state.phase = .sending instruction → ∃ version later read,
    state.remaining = some version :: later ∧
      instruction = loop.instruction (rt.distributorAddress mint version) read
  passed : ∃ before, versions = before ++ state.remaining ∧ ∀ target ∈ before, ∃ version,
    target = some version ∧
      OnTrack rt keypair loop (rt.distributorAddress mint version) state.world state.inFlight

section
variable {rt : Runtime} {mint keypair key : Pubkey} {loop : AdminLoop} {world after : World}
  {inFlight : List SentInstruction}

theorem adminTransaction_admissible
    (foreign : ∀ mint version bump, rt.createProgramAddress mint version bump ≠ keypair)
    (clock : Clock) (instruction : Instruction) :
    Admissible rt (adminTransaction keypair clock instruction) :=
  fun mint version bump member => foreign mint version bump (List.mem_singleton.mp member)

theorem Finished.spared (reliable : Reliable rt keypair loop) {receiver : Option Pubkey}
    (finished : Finished loop key world) (spares : Spares key receiver world after) :
    Finished loop key after := by
  obtain ⟨distributor, found, done⟩ := finished
  obtain ⟨next, present, kept, _⟩ := spares.record distributor found
  exact ⟨next, present, reliable.lasts kept done⟩

theorem OnTrack.mono {more : List SentInstruction} (subset : ∀ sent ∈ inFlight, sent ∈ more)
    (onTrack : OnTrack rt keypair loop key world inFlight) :
    OnTrack rt keypair loop key world more := by
  rcases onTrack with finished | ⟨sent, member, rest⟩
  · exact .inl finished
  · exact .inr ⟨sent, subset sent member, rest⟩

/-- What spares the distributor keeps it on track. -/
theorem OnTrack.spared (reliable : Reliable rt keypair loop) (before : WellFormed rt world)
    (later : WellFormed rt after) (record : Spares key none world after)
    (accounts : ∀ sent ∈ inFlight, Spares key sent.instruction.receiver world after)
    (onTrack : OnTrack rt keypair loop key world inFlight) :
    OnTrack rt keypair loop key after inFlight := by
  rcases onTrack with finished | ⟨sent, member, state, made, success⟩
  · exact .inl (finished.spared reliable record)
  · have spares := accounts sent member
    rw [made] at spares success
    rcases reliable.stays before later spares (Int.le_refl _) success with finished | still
    · exact .inl finished
    · exact .inr ⟨sent, member, state, made, made ▸ still⟩

/-- Executing a transaction of the command leaves every distributor on track. -/
theorem OnTrack.executed (reliable : Reliable rt keypair loop)
    (foreign : ∀ mint version bump, rt.createProgramAddress mint version bump ≠ keypair)
    (wellFormed : WellFormed rt world) {clock : Clock} {target : Pubkey}
    {state : MerkleDistributor}
    (success : Succeeds rt world (adminTransaction keypair clock (loop.instruction target state)))
    (onTrack : OnTrack rt keypair loop key world inFlight) :
    OnTrack rt keypair loop key
      (apply rt world (adminTransaction keypair clock (loop.instruction target state)))
      (inFlight.filter fun sent => sent.instruction.target ≠ target) := by
  by_cases here : key = target
  · subst here
    exact .inl (reliable.reaches success)
  have admissible := adminTransaction_admissible foreign clock (loop.instruction target state)
  have elsewhere : (loop.instruction target state).target ≠ key := by
    rw [reliable.target]
    exact Ne.symm here
  have spares : ∀ receiver, Spares key receiver world
      (apply rt world (adminTransaction keypair clock (loop.instruction target state))) :=
    fun receiver => spares_of_elsewhere wellFormed admissible rfl elsewhere
  rcases onTrack.spared reliable wellFormed (wellFormed.after_tx admissible) (spares none)
    (fun sent _ => spares _) with finished | ⟨sent, member, read, made, still⟩
  · exact .inl finished
  · refine .inr ⟨sent, List.mem_filter.mpr ⟨member, ?_⟩, read, made, still⟩
    rw [made, reliable.target]
    exact decide_eq_true here

variable {versions : List (Option UInt64)} {state : AdminRun}

theorem Progress.chain (reliable : Reliable rt keypair loop)
    (progress : Progress rt mint keypair loop versions state) {tx : Transaction}
    (admissible : Admissible rt tx)
    (unsigned : ∀ version, some version ∈ versions → ∀ distributor,
      state.world.distributors (rt.distributorAddress mint version) = some distributor →
        distributor.admin ∉ tx.signers)
    (silent : ∀ sent ∈ state.inFlight, ∀ address ∈ sent.instruction.receiver, ∀ account,
      state.world.tokens.accounts address = some account → account.owner ∉ tx.signers) :
    Progress rt mint keypair loop versions { state with world := apply rt state.world tx } where
  wellFormed := progress.wellFormed.after_tx admissible
  own := progress.own
  sending := progress.sending
  passed := by
    obtain ⟨before, split, onTrack⟩ := progress.passed
    refine ⟨before, split, fun target member => ?_⟩
    obtain ⟨version, rfl, here⟩ := onTrack target member
    have listed : some version ∈ versions := split ▸ List.mem_append_left _ member
    refine ⟨version, rfl, here.spared reliable progress.wellFormed
      (progress.wellFormed.after_tx admissible) ?_ fun sent flying => ?_⟩
    · exact spares_of_unsigned progress.wellFormed admissible (unsigned version listed) (by simp)
    · exact spares_of_unsigned progress.wellFormed admissible (unsigned version listed)
        (silent sent flying)

theorem Progress.read (progress : Progress rt mint keypair loop versions state) :
    Progress rt mint keypair loop versions (state.read rt mint loop) := by
  unfold AdminRun.read
  split
  · next version later reading remaining =>
    dsimp only
    split
    · next distributorState found =>
      split
      · next done =>
        obtain ⟨before, split, onTrack⟩ := progress.passed
        refine ⟨progress.wellFormed, progress.own, fun instruction sending => ?_,
          before ++ [some version], by rw [split, remaining]; simp, fun target member => ?_⟩
        · cases reading.symm.trans sending
        · rcases List.mem_append.mp member with earlier | now
          · exact onTrack target earlier
          · exact ⟨version, List.mem_singleton.mp now, .inl ⟨distributorState, found, done⟩⟩
      · refine ⟨progress.wellFormed, progress.own, fun instruction sending => ?_, progress.passed⟩
        cases sending
        exact ⟨version, later, distributorState, remaining, rfl⟩
    · exact ⟨progress.wellFormed, progress.own, by simp, progress.passed⟩
  · exact ⟨progress.wellFormed, progress.own, by simp, progress.passed⟩
  · exact progress

theorem Progress.refused (progress : Progress rt mint keypair loop versions state) (clock : Clock)
    (submitted : Bool) :
    Progress rt mint keypair loop versions
      (state.send rt keypair loop clock (.err submitted)) := by
  unfold AdminRun.send
  split
  · next instruction sending =>
    obtain ⟨version, later, read, remaining, made⟩ := progress.sending instruction sending
    obtain ⟨before, split, onTrack⟩ := progress.passed
    refine ⟨progress.wellFormed, fun sent member => ?_, fun other phase => ?_, before, split,
      fun target member => ?_⟩
    · dsimp only at member
      split at member
      · rcases List.mem_cons.mp member with rfl | earlier
        · exact ⟨_, read, made⟩
        · exact progress.own sent earlier
      · exact progress.own sent member
    · dsimp only at phase
      split at phase <;> cases phase
    · obtain ⟨version, rfl, here⟩ := onTrack target member
      refine ⟨version, rfl, here.mono fun sent flying => ?_⟩
      dsimp only
      split
      · exact List.mem_cons_of_mem _ flying
      · exact flying
  · exact progress

theorem Progress.accepted (reliable : Reliable rt keypair loop)
    (foreign : ∀ mint version bump, rt.createProgramAddress mint version bump ≠ keypair)
    (progress : Progress rt mint keypair loop versions state) {clock : Clock}
    (success : ∀ instruction, state.phase = .sending instruction →
      Succeeds rt state.world (adminTransaction keypair clock instruction)) :
    Progress rt mint keypair loop versions (state.send rt keypair loop clock .ok) := by
  unfold AdminRun.send
  split
  · next instruction sending =>
    obtain ⟨version, later, read, remaining, rfl⟩ := progress.sending instruction sending
    obtain ⟨before, split, onTrack⟩ := progress.passed
    have succeeds := success _ sending
    have parted : versions = (before ++ [some version]) ++ state.remaining.tail := by
      rw [split, remaining]
      simp
    by_cases confirmed : loop.confirmed = true
    · -- the transaction has been executed
      simp only [confirmed, if_true]
      refine ⟨progress.wellFormed.after_tx (adminTransaction_admissible foreign _ _), progress.own,
        by simp, before ++ [some version], parted, fun target member => ?_⟩
      rcases List.mem_append.mp member with earlier | now
      · obtain ⟨other, rfl, here⟩ := onTrack target earlier
        refine ⟨other, rfl, (here.executed reliable foreign progress.wellFormed succeeds).mono ?_⟩
        exact fun sent member => List.mem_of_mem_filter member
      · exact ⟨version, List.mem_singleton.mp now, .inl (reliable.reaches succeeds)⟩
    · -- it is on its way
      simp only [confirmed]
      refine ⟨progress.wellFormed, fun sent member => ?_, by simp, before ++ [some version], parted,
        fun target member => ?_⟩
      · rcases List.mem_cons.mp member with rfl | earlier
        · exact ⟨_, read, rfl⟩
        · exact progress.own sent earlier
      · rcases List.mem_append.mp member with earlier | now
        · obtain ⟨other, rfl, here⟩ := onTrack target earlier
          exact ⟨other, rfl, here.mono fun sent flying => List.mem_cons_of_mem _ flying⟩
        · exact ⟨version, List.mem_singleton.mp now,
            .inr ⟨_, List.mem_cons_self, read, rfl, succeeds⟩⟩
  · exact progress

/-- A transaction that fails where it lands was not the one a distributor waits for. -/
theorem OnTrack.failed (reliable : Reliable rt keypair loop) (wellFormed : WellFormed rt world)
    {i : Nat} {clock : Clock} {sent : SentInstruction} (landed : inFlight[i]? = some sent)
    (later : sent.sentAt.unixTimestamp.toInt ≤ clock.unixTimestamp.toInt)
    (failed : ¬ Succeeds rt world (adminTransaction keypair clock sent.instruction))
    (onTrack : OnTrack rt keypair loop key world inFlight) :
    OnTrack rt keypair loop key world (inFlight.eraseIdx i) := by
  rcases onTrack with finished | ⟨waited, member, read, made, success⟩
  · exact .inl finished
  obtain ⟨j, there⟩ := List.mem_iff_getElem?.mp member
  by_cases same : j = i
  · subst same
    cases landed.symm.trans there
    rw [made] at success failed
    rcases reliable.stays wellFormed wellFormed (.refl _ _ _) later success with finished | now
    · exact .inl finished
    · exact absurd now failed
  · exact .inr ⟨waited, List.mem_eraseIdx_iff_getElem?.mpr ⟨j, same, there⟩, read, made, success⟩

theorem Progress.land (reliable : Reliable rt keypair loop)
    (foreign : ∀ mint version bump, rt.createProgramAddress mint version bump ≠ keypair)
    (progress : Progress rt mint keypair loop versions state) {i : Nat} {clock : Clock}
    {sent : SentInstruction} (landed : state.inFlight[i]? = some sent)
    (later : sent.sentAt.unixTimestamp.toInt ≤ clock.unixTimestamp.toInt) :
    Progress rt mint keypair loop versions
      { state with
        world := apply rt state.world (adminTransaction keypair clock sent.instruction)
        inFlight := state.inFlight.eraseIdx i } where
  wellFormed := progress.wellFormed.after_tx (adminTransaction_admissible foreign _ _)
  own other member := progress.own other (List.mem_of_mem_eraseIdx member)
  sending := progress.sending
  passed := by
    obtain ⟨before, split, onTrack⟩ := progress.passed
    obtain ⟨key, read, made⟩ := progress.own sent (List.mem_of_getElem? landed)
    refine ⟨before, split, fun target member => ?_⟩
    obtain ⟨version, rfl, here⟩ := onTrack target member
    refine ⟨version, rfl, ?_⟩
    by_cases success : Succeeds rt state.world (adminTransaction keypair clock sent.instruction)
    · rw [made] at success ⊢
      refine (here.executed reliable foreign progress.wellFormed success).mono ?_
      intro other kept
      obtain ⟨flying, elsewhere⟩ := List.mem_filter.mp kept
      obtain ⟨j, there⟩ := List.mem_iff_getElem?.mp flying
      refine List.mem_eraseIdx_iff_getElem?.mpr ⟨j, fun same => ?_, there⟩
      rw [same, landed, Option.some.injEq] at there
      rw [← there, made, reliable.target] at elsewhere
      simp at elsewhere
    · rcases apply_cases rt state.world (adminTransaction keypair clock sent.instruction) with
        ⟨unchanged, _⟩ | ⟨_, succeeds⟩
      · rw [unchanged]
        exact here.failed reliable progress.wellFormed landed later success
      · exact absurd succeeds success

theorem Progress.step (reliable : Reliable rt keypair loop)
    (foreign : ∀ mint version bump, rt.createProgramAddress mint version bump ≠ keypair)
    (progress : Progress rt mint keypair loop versions state) {event : AdminEvent}
    (unopposed : Unopposed rt mint keypair versions state event) :
    Progress rt mint keypair loop versions (state.step rt mint keypair loop event) := by
  cases unopposed with
  | chain admissible unsigned silent => exact progress.chain reliable admissible unsigned silent
  | read => exact progress.read
  | accepted success => exact progress.accepted reliable foreign success
  | refused clock submitted => exact progress.refused clock submitted
  | @land i clock later =>
    cases landed : state.inFlight[i]? with
    | none => simpa only [AdminRun.step, landed] using progress
    | some sent =>
      simpa only [AdminRun.step, landed] using
        progress.land reliable foreign landed (later sent landed)

theorem Progress.run (reliable : Reliable rt keypair loop)
    (foreign : ∀ mint version bump, rt.createProgramAddress mint version bump ≠ keypair)
    (progress : Progress rt mint keypair loop versions state) {events : List AdminEvent}
    (unopposed : AllowedRun (AdminRun.step rt mint keypair loop)
      (Unopposed rt mint keypair versions) state events) :
    Progress rt mint keypair loop versions
      (replay (AdminRun.step rt mint keypair loop) state events) := by
  induction events generalizing state with
  | nil => exact progress
  | cons event rest ih =>
    obtain ⟨now, later⟩ := (allowedRun_cons _ _ _ _ _).mp unopposed
    exact ih (progress.step reliable foreign now) later

end

/-- Once an administrative command has ended and its transactions have landed, every
distributor of the directory is in the state the command is for, whatever others did in the
meantime without the signatures that have a say in it. -/
theorem admin_command_completes {rt : Runtime} {mint keypair : Pubkey}
    (foreign : ∀ mint version bump, rt.createProgramAddress mint version bump ≠ keypair)
    (command : AdminCommand) {format : TreeFormat} {dir : List DirEntry} {world : World}
    (reachable : Reachable rt world) {events : List AdminEvent}
    (unopposed : AllowedRun (AdminRun.step rt mint keypair (command.process rt mint keypair))
      (Unopposed rt mint keypair (command.versions format dir)) (command.start format dir world)
      events) :
    let final := replay (AdminRun.step rt mint keypair (command.process rt mint keypair))
      (command.start format dir world) events
    final.remaining = [] → final.inFlight = [] → ∀ target ∈ command.versions format dir,
      ∃ version distributor, target = some version ∧
        final.world.distributors (rt.distributorAddress mint version) = some distributor ∧
        (command.process rt mint keypair).done distributor = true := by
  intro final ended landed target member
  have start : Progress rt mint keypair (command.process rt mint keypair)
      (command.versions format dir) (command.start format dir world) :=
    { wellFormed := reachable.wellFormed
      own := by simp [AdminCommand.start]
      sending := by simp [AdminCommand.start]
      passed := ⟨[], rfl, by simp⟩ }
  obtain ⟨before, split, onTrack⟩ := (start.run command.reliable foreign unopposed).passed
  rw [ended, List.append_nil] at split
  obtain ⟨version, rfl, finished | ⟨sent, flying, _⟩⟩ := onTrack target (split ▸ member)
  · obtain ⟨distributor, found, done⟩ := finished
    exact ⟨version, distributor, rfl, found, done⟩
  · rw [landed] at flying
    cases flying

namespace Sample

def treeFiles (format : TreeFormat) : List DirEntry :=
  [⟨treeFileName 0, some ((treeOf wallet 100 70).writeToFile format)⟩]

/-- The admin hands over to the owner of `receiver`. -/
def handover : AdminCommand := .setAdmin receiver

/-- The first attempt fails but is submitted all the same, the wallet claims, and the second
attempt lands before the first. -/
def handoverEvents : List AdminEvent :=
  [.read, .send { slot := 10, unixTimestamp := 40 } (.err true), .chain (claim 50 100 70), .read,
    .send { slot := 10, unixTimestamp := 60 } .ok, .land 0 { slot := 10, unixTimestamp := 70 },
    .land 0 { slot := 10, unixTimestamp := 80 }]

theorem handover_versions (format : TreeFormat) :
    handover.versions format (treeFiles format) = [some 0] := by
  change directoryVersions format (treeFiles format) = [some 0]
  rw [directoryVersions, treeFiles, sortedPaths, List.mergeSort_singleton, List.map_singleton,
    DirEntry.tree, Option.bind_some, newFromFile_writeToFile]
  rfl

abbrev handoverStep : AdminRun → AdminEvent → AdminRun :=
  AdminRun.step rt mint adminId (handover.process rt mint adminId)

def handoverIx : Instruction := .setAdmin { distributor := pda, admin := adminId } receiver

/-- Worlds in which the old admin is in office. -/
def InOffice (world : World) : Prop :=
  ∃ distributor, world.distributors pda = some distributor ∧ distributor.admin = adminId

theorem handover_read {world : World} (inOffice : InOffice world)
    (inFlight : List SentInstruction) :
    handoverStep ⟨world, .reading, [some 0], inFlight⟩ .read =
      ⟨world, .sending handoverIx, [some 0], inFlight⟩ := by
  obtain ⟨distributor, found, admin⟩ := inOffice
  have here : rt.distributorAddress mint 0 = pda := rfl
  have other : ¬ adminId = receiver := by decide
  simp only [handoverStep, AdminRun.step, AdminRun.read, here, found]
  simp [handover, handoverIx, AdminCommand.process, processSetAdmin, admin, other]

theorem handover_chain {world : World} {tx : Transaction} (inOffice : InOffice world)
    (foreign : pda ∉ tx.signers) (other : adminId ∉ tx.signers) {phase : AdminPhase}
    {remaining : List (Option UInt64)} {clock : Clock} :
    Unopposed rt mint adminId [some 0] ⟨world, phase, remaining, [⟨handoverIx, clock⟩]⟩
      (.chain tx) := by
  obtain ⟨distributor, found, admin⟩ := inOffice
  refine .chain (fun _ _ _ => foreign) (fun version _ record same => ?_) (fun sent member => ?_)
  · have here : rt.distributorAddress mint version = pda := rfl
    rw [here, found] at same
    rw [← Option.some.inj same, admin]
    exact other
  · cases List.mem_singleton.mp member
    simp [handoverIx, Instruction.receiver]

theorem handover_unopposed {world : World} (before : InOffice world)
    (after : InOffice (apply rt world (claim 50 100 70))) :
    AllowedRun handoverStep (Unopposed rt mint adminId [some 0])
        ⟨world, .reading, [some 0], []⟩ handoverEvents ∧
      ∃ last, replay handoverStep ⟨world, .reading, [some 0], []⟩ handoverEvents =
        ⟨last, .reading, [], []⟩ := by
  have refused : ∀ clock, handoverStep ⟨world, .sending handoverIx, [some 0], []⟩
      (.send clock (.err true)) = ⟨world, .reading, [some 0], [⟨handoverIx, clock⟩]⟩ :=
    fun _ => rfl
  have chained : ∀ phase remaining inFlight tx, handoverStep ⟨world, phase, remaining, inFlight⟩
      (.chain tx) = ⟨apply rt world tx, phase, remaining, inFlight⟩ := fun _ _ _ _ => rfl
  have accepted : ∀ w clock inFlight, handoverStep ⟨w, .sending handoverIx, [some 0], inFlight⟩
      (.send clock .ok) = ⟨w, .reading, [], ⟨handoverIx, clock⟩ :: inFlight⟩ := fun _ _ _ => rfl
  have landed : ∀ w clock sent rest, handoverStep ⟨w, .reading, [], sent :: rest⟩ (.land 0 clock) =
      ⟨apply rt w (adminTransaction adminId clock sent.instruction), .reading, [], rest⟩ :=
    fun _ _ _ _ => rfl
  simp only [handoverEvents, allowedRun_cons, allowedRun_nil, and_true, replay_cons, replay_nil,
    handover_read before, refused, chained, handover_read after, accepted, landed]
  refine ⟨⟨.read, .refused _ _, handover_chain before (by decide) (by decide), .read,
    .accepted fun instruction sending => ?_, .land fun sent first => ?_,
    .land fun sent first => ?_⟩, _, rfl⟩
  · obtain ⟨distributor, found, admin⟩ := after
    cases sending
    exact setAdmin_succeeds_iff.mpr
      ⟨distributor, found, List.mem_cons_self, admin.symm, show adminId ≠ receiver by decide⟩
  · cases first
    decide
  · cases first
    decide

end Sample

open Sample in
/-- The distributor has its new admin after two attempts, of which the second succeeds. -/
theorem admin_command_completes_sample :
    ∃ format final distributor, final = replay handoverStep
        (handover.start format (treeFiles format) (deployed 100 70 170 170)) handoverEvents ∧
      final.inFlight = [] ∧ final.world.distributors pda = some distributor ∧
      distributor.admin = receiver := by
  obtain ⟨record, found, admin⟩ := record_of (fun record => record.admin = adminId)
    (show ((deployed 100 70 170 170).distributors pda).any _ = true by decide +kernel)
  obtain ⟨next, present, still⟩ := record_of (fun record => record.admin = adminId)
    (show ((apply rt (deployed 100 70 170 170) (claim 50 100 70)).distributors pda).any _ = true
      by decide +kernel)
  obtain ⟨format⟩ := exists_format
  have start : handover.start format (treeFiles format) (deployed 100 70 170 170) =
      ⟨deployed 100 70 170 170, .reading, [some 0], []⟩ := by
    rw [AdminCommand.start, handover_versions]
  obtain ⟨unopposed, last, ends⟩ := handover_unopposed
    ⟨record, found, of_decide_eq_true admin⟩ ⟨next, present, of_decide_eq_true still⟩
  rw [← start] at unopposed ends
  rw [← handover_versions format] at unopposed
  obtain ⟨version, distributor, _, reached, done⟩ := @admin_command_completes rt mint adminId
    (fun _ _ _ => show pda ≠ adminId by decide) handover format (treeFiles format)
    (deployed 100 70 170 170) (deployed_reachable 100 70 170 170) handoverEvents unopposed
    (by rw [ends]) (by rw [ends])
    (some 0) (by rw [handover_versions]; exact List.mem_cons_self)
  exact ⟨format, _, distributor, rfl, by rw [ends], reached, of_decide_eq_true done⟩

end MultiDistributor.Source

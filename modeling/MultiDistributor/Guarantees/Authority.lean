import MultiDistributor.Guarantees.StepAt

/-!
# Who may change what

The record of a distributor that cannot be closed, over every step of every run. Its
terms are fixed, its counters only grow and its cap only falls. The root and the cap
move only under a paused re-root by the current admin, the settings only under the
current admin, and everything else a step can do to the record is a claim or a
clawback. The admin in these statements is the one recorded before the step, so they
hold across changes of the admin.
-/
namespace MultiDistributor.Source
open Lib.Checked Lib.TokenLedger Lib.Replay Lib.ByteString

/-- What one step may do to the record of a distributor. -/
structure AuthorizedStep (tx : Transaction) (before after : MerkleDistributor) : Prop where
  terms : SameTerms before after
  claimed : before.totalAmountClaimed.toNat ≤ after.totalAmountClaimed.toNat
  forgone : before.totalAmountForgone.toNat ≤ after.totalAmountForgone.toNat
  nodes : before.numNodesClaimed.toNat ≤ after.numNodesClaimed.toNat
  cap : after.maxTotalClaim.toNat ≤ before.maxTotalClaim.toNat
  clawedBack : before.clawedBack = true → after.clawedBack = true
  reRoot : after.root ≠ before.root ∨ after.maxTotalClaim ≠ before.maxTotalClaim →
    before.admin ∈ tx.signers ∧ before.mint ∈ dfxMints ∧ before.enableSlot = u64Max
  settings : after.enableSlot ≠ before.enableSlot ∨ after.admin ≠ before.admin ∨
    after.clawbackReceiver ≠ before.clawbackReceiver ∨
    after.clawbackStartTs ≠ before.clawbackStartTs → before.admin ∈ tx.signers
  unsigned : before.admin ∉ tx.signers →
    after = { before with
      numNodesClaimed := after.numNodesClaimed
      totalAmountClaimed := after.totalAmountClaimed
      totalAmountForgone := after.totalAmountForgone
      clawedBack := after.clawedBack }

/-- The claimant account of the two claim instructions. -/
def Transaction.claimant (tx : Transaction) : Option Pubkey :=
  match tx.action with
  | .invoke (.newClaim accounts _) => some accounts.claimant
  | .invoke (.claimLocked accounts) => some accounts.claimant
  | _ => none

section
variable {rt : Runtime} {world after : World} {tx : Transaction} {key : Pubkey}
  {distributor : MerkleDistributor}

/-- A successful transaction with a claimant is one of the two claims. -/
theorem claim_execution {events : List Event} (success : process rt world tx = .ok (after, events))
    (claims : tx.claimant.isSome = true) :
    (∃ accounts args, ∃ e : NewClaimExecution rt tx.signers tx.clock world accounts args,
      tx.action = .invoke (.newClaim accounts args) ∧ after = e.after) ∨
    (∃ accounts, ∃ e : ClaimLockedExecution rt tx.signers tx.clock world accounts,
      tx.action = .invoke (.claimLocked accounts) ∧ after = e.after) := by
  cases process_execution success with
  | newClaim sent e => exact .inl ⟨_, _, e, sent, rfl⟩
  | claimLocked sent e => exact .inr ⟨_, e, sent, rfl⟩
  | newDistributor sent e => simp [Transaction.claimant, sent] at claims
  | setRoot sent e => simp [Transaction.claimant, sent] at claims
  | clawback sent e => simp [Transaction.claimant, sent] at claims
  | closeDistributor sent e => simp [Transaction.claimant, sent] at claims
  | admin sent present signed authority update =>
    cases update <;> simp [Transaction.claimant, sent] at claims
  | token sent done => simp [Transaction.claimant, sent] at claims

theorem AuthorizedStep.refl (tx : Transaction) (distributor : MerkleDistributor) :
    AuthorizedStep tx distributor distributor := by
  constructor <;> simp [SameTerms.refl]

theorem NewClaimExecution.authorized {accounts : NewClaimAccounts} {args : NewClaimArgs}
    (e : NewClaimExecution rt tx.signers tx.clock world accounts args) :
    AuthorizedStep tx e.distributor e.next where
  terms := e.terms
  claimed := by have := e.claimedSum; simp only [NewClaimExecution.next]; omega
  forgone := by have := e.forgoneSum; simp only [NewClaimExecution.next]; omega
  nodes := by have := e.counted; simp only [NewClaimExecution.next]; omega
  cap := Nat.le_refl _
  clawedBack := id
  reRoot := by simp [NewClaimExecution.next]
  settings := by simp [NewClaimExecution.next]
  unsigned := by simp [NewClaimExecution.next, e.live]

theorem ClaimLockedExecution.authorized {accounts : ClaimLockedAccounts}
    (e : ClaimLockedExecution rt tx.signers tx.clock world accounts) :
    AuthorizedStep tx e.distributor e.next where
  terms := e.terms
  claimed := by have := e.claimedSum; simp only [ClaimLockedExecution.next]; omega
  forgone := Nat.le_refl _
  nodes := Nat.le_refl _
  cap := Nat.le_refl _
  clawedBack := id
  reRoot := by simp [ClaimLockedExecution.next]
  settings := by simp [ClaimLockedExecution.next]
  unsigned := by simp [ClaimLockedExecution.next]

theorem SetRootExecution.authorized {accounts : SetRootAccounts} {args : SetRootArgs}
    (e : SetRootExecution rt tx.signers world accounts args) :
    AuthorizedStep tx e.distributor e.next where
  terms := e.terms
  claimed := Nat.le_refl _
  forgone := Nat.le_refl _
  nodes := Nat.le_refl _
  cap := e.conditions.lower
  clawedBack := id
  reRoot _ := ⟨e.authority ▸ e.signed, e.conditions.reRootable, e.conditions.paused⟩
  settings := by simp [SetRootExecution.next]
  unsigned foreign := absurd (e.authority ▸ e.signed) foreign

theorem ClawbackExecution.authorized {accounts : ClawbackAccounts}
    (e : ClawbackExecution tx.signers tx.clock world accounts) :
    AuthorizedStep tx e.distributor e.next where
  terms := e.terms
  claimed := Nat.le_refl _
  forgone := Nat.le_refl _
  nodes := Nat.le_refl _
  cap := Nat.le_refl _
  clawedBack _ := rfl
  reRoot := by simp [ClawbackExecution.next]
  settings := by simp [ClawbackExecution.next]
  unsigned _ := rfl

theorem AdminUpdate.authorized {instruction : Instruction} {accounts : AdminAccounts}
    {next : MerkleDistributor} (update : AdminUpdate accounts distributor instruction next)
    (signed : distributor.admin ∈ tx.signers) : AuthorizedStep tx distributor next where
  terms := update.terms
  claimed := by cases update <;> exact Nat.le_refl _
  forgone := by cases update <;> exact Nat.le_refl _
  nodes := by cases update <;> exact Nat.le_refl _
  cap := by cases update <;> exact Nat.le_refl _
  clawedBack := by cases update <;> exact id
  reRoot := by cases update <;> simp
  settings _ := signed
  unsigned foreign := absurd signed foreign

/-- A step removes the record only by closing a closable distributor. -/
theorem StepAt.record_cases (step : StepAt rt world tx key distributor after) :
    (distributor.closable = true ∧ after.distributors key = none) ∨
      ∃ next, after.distributors key = some next ∧ AuthorizedStep tx distributor next := by
  cases step with
  | untouched quiet record statuses vault still =>
    exact .inr ⟨distributor, record, .refl tx distributor⟩
  | newClaim sent e here same left =>
    subst here same left
    exact .inr ⟨e.next, e.after_record, e.authorized⟩
  | claimLocked sent e here same left =>
    subst here same left
    exact .inr ⟨e.next, e.after_record, e.authorized⟩
  | setRoot sent e here same left =>
    subst here same left
    exact .inr ⟨e.next, e.after_record, e.authorized⟩
  | clawback sent e here same left =>
    subst here same left
    exact .inr ⟨e.next, e.after_record, e.authorized⟩
  | closed sent e here same left =>
    subst here same left
    exact .inl ⟨e.closable, by simp [CloseDistributorExecution.after]⟩
  | admin sent here signed update left =>
    subst left
    exact .inr ⟨_, by simp, update.authorized signed⟩

theorem StepAt.record (step : StepAt rt world tx key distributor after)
    (permanent : distributor.closable = false) :
    ∃ next, after.distributors key = some next ∧ AuthorizedStep tx distributor next := by
  rcases step.record_cases with ⟨closable, _⟩ | present
  · simp [permanent] at closable
  · exact present

/-- A claim status changes only in a claim of its claimant, who signs. -/
theorem StepAt.status_authorized (step : StepAt rt world tx key distributor after)
    {claimant : Pubkey}
    (changed : after.claimStatuses claimant key ≠ world.claimStatuses claimant key) :
    tx.claimant = some claimant ∧ claimant ∈ tx.signers := by
  cases step with
  | untouched quiet record statuses vault still => exact absurd (statuses claimant) changed
  | newClaim sent e here same left =>
    subst here same left
    rw [e.after_statuses] at changed
    split at changed
    · next equal => exact ⟨by simp [Transaction.claimant, sent, equal], equal ▸ e.signed⟩
    · exact absurd rfl changed
  | claimLocked sent e here same left =>
    subst here same left
    rw [e.after_statuses] at changed
    split at changed
    · next equal => exact ⟨by simp [Transaction.claimant, sent, equal], equal ▸ e.signed⟩
    · exact absurd rfl changed
  | setRoot sent e here same left => exact absurd (by subst left; rfl) changed
  | clawback sent e here same left => exact absurd (by subst left; rfl) changed
  | closed sent e here same left => exact absurd (by subst left; rfl) changed
  | admin sent here signed update left => exact absurd (by subst left; rfl) changed

/-- Only claims of the claimant touch a claim status. -/
theorem apply_claimStatus {claimant : Pubkey} (other : tx.claimant ≠ some claimant) :
    (apply rt world tx).claimStatuses claimant = world.claimStatuses claimant := by
  rcases apply_cases rt world tx with ⟨failed, _⟩ | ⟨execution, _⟩
  · rw [failed]
  funext key
  rcases execution.status_cases claimant key with
    kept | ⟨_, _, sent, _, _, here, _⟩ | ⟨_, sent, _, _, here, _⟩
  · exact kept
  · exact absurd (by simp [Transaction.claimant, sent, here]) other
  · exact absurd (by simp [Transaction.claimant, sent, here]) other

theorem run_claimStatus {claimant : Pubkey} {txs : List Transaction}
    (others : ∀ tx ∈ txs, tx.claimant ≠ some claimant) :
    (run rt world txs).claimStatuses claimant = world.claimStatuses claimant :=
  replay_invariant (apply rt) (fun tx => tx.claimant ≠ some claimant)
    (fun state => state.claimStatuses claimant = world.claimStatuses claimant)
    (fun _ _ other same => (apply_claimStatus other).trans same) world txs others rfl

theorem apply_claimStatuses (other : tx.claimant = none) :
    (apply rt world tx).claimStatuses = world.claimStatuses :=
  funext fun claimant => apply_claimStatus (by simp [other])

theorem run_claimStatuses {txs : List Transaction} (others : ∀ tx ∈ txs, tx.claimant = none) :
    (run rt world txs).claimStatuses = world.claimStatuses :=
  funext fun _ => run_claimStatus fun tx member => by simp [others tx member]

/-- The record of a permanent distributor is there after any run, under the same terms. -/
theorem WellFormed.run_record (wellFormed : WellFormed rt world)
    (found : world.distributors key = some distributor)
    (permanent : distributor.closable = false) {txs : List Transaction}
    (admissible : ∀ tx ∈ txs, Admissible rt tx) :
    ∃ next, (run rt world txs).distributors key = some next ∧ SameTerms distributor next := by
  induction txs generalizing world distributor with
  | nil => exact ⟨distributor, found, .refl distributor⟩
  | cons tx rest ih =>
    have now : Admissible rt tx := admissible tx (by simp)
    obtain ⟨middle, present, step⟩ := (wellFormed.stepAt now found).record permanent
    obtain ⟨next, reached, terms⟩ := ih (wellFormed.after_tx now) present
      (step.terms.closable.trans permanent)
      (fun later member => admissible later (by simp [member]))
    exact ⟨next, reached, step.terms.trans terms⟩

end

/-- Over every run of a distributor that cannot be closed, each step is authorized, and
touches no claim status but the one of the claimant who signed it. -/
theorem run_steps_authorized {rt : Runtime} {world : World} (reachable : Reachable rt world)
    {key : Pubkey} {distributor : MerkleDistributor}
    (found : world.distributors key = some distributor)
    (permanent : distributor.closable = false) {txs : List Transaction}
    (admissible : ∀ tx ∈ txs, Admissible rt tx) {pre : World} {tx : Transaction}
    (step : (pre, tx) ∈ transitions (apply rt) world txs) :
    ∃ before after, pre.distributors key = some before ∧
      (apply rt pre tx).distributors key = some after ∧ AuthorizedStep tx before after ∧
      ∀ claimant, (apply rt pre tx).claimStatuses claimant key ≠ pre.claimStatuses claimant key →
        tx.claimant = some claimant ∧ claimant ∈ tx.signers := by
  obtain ⟨earlier, later, rfl, rfl⟩ := (mem_transitions_iff _ _ _ _ _).mp step
  have prior : ∀ tx ∈ earlier, Admissible rt tx := fun t member => admissible t (by simp [member])
  have now : Admissible rt tx := admissible tx (by simp)
  obtain ⟨before, present, terms⟩ := reachable.wellFormed.run_record found permanent prior
  have stepAt := (reachable.after_run prior).wellFormed.stepAt now present
  obtain ⟨after, reached, authorized⟩ := stepAt.record (terms.closable.trans permanent)
  exact ⟨before, after, present, reached, authorized, fun _ => stepAt.status_authorized⟩

/-! ### A deployment with one leaf

One distributor at `pda`, owning `vault`, whose tree is the single leaf of `wallet`.
Vesting runs from 0 to 100 and the clawback opens a day later. -/
namespace Sample

def pda : Pubkey := .filled 1
def vault : Pubkey := .filled 2
def wallet : Pubkey := .filled 3
def purse : Pubkey := .filled 4
def receiver : Pubkey := .filled 5
def mint : Pubkey := dfxMints.head (by decide)

/-- A toy digest that keeps short strings apart. -/
def digest (bytes : Bytes) : Hash :=
  ⟨leBytes 32 (bytes.foldl (fun h b => h * 257 + b.toNat + 1) 0), leBytes_length _ _⟩

def rt : Runtime where
  hash := digest
  createProgramAddress _ _ _ := pda
  findBump _ _ := 0
  associatedTokenAddress _ _ := vault

def emptyWorld : World where
  distributors _ := none
  claimStatuses _ _ := none
  tokens := { accounts := fun _ => none, supplies := fun _ => none }

def send (now : Int64) (signers : List Pubkey) (action : Action) : Transaction :=
  { signers, clock := { slot := 10, unixTimestamp := now }, action }

def creationAccounts : NewDistributorAccounts :=
  { distributor := pda, clawbackReceiver := receiver, mint, tokenVault := vault, admin := adminId }

def creationArgs (claimant : Pubkey) (unlocked locked maxTotalClaim : UInt64) (closable : Bool) :
    NewDistributorArgs :=
  { version := 0, root := claimLeaf digest claimant unlocked locked, maxTotalClaim,
    maxNumNodes := 1, startVestingTs := 0, endVestingTs := 100, clawbackStartTs := 86500,
    enableSlot := 0, closable }

def createFor (claimant : Pubkey) (unlocked locked maxTotalClaim : UInt64) (closable : Bool) :
    Transaction :=
  send 0 [adminId] (.invoke (.newDistributor creationAccounts
    (creationArgs claimant unlocked locked maxTotalClaim closable)))

def create := createFor wallet

def fund (amount : UInt64) : Transaction := send 0 [] (.token (.mintTo mint vault amount))

def openAccounts (funds : UInt64) : List Transaction :=
  [send 0 [] (.token (.initializeMint mint)),
    send 0 [] (.token (.initializeAccount vault mint pda)),
    send 0 [] (.token (.initializeAccount purse mint wallet)),
    send 0 [] (.token (.initializeAccount receiver mint adminId)),
    fund funds]

def claim (now : Int64) (amountUnlocked amountLocked : UInt64) : Transaction :=
  send now [wallet] (.invoke (.newClaim
    { distributor := pda, fromAccount := vault, toAccount := purse, claimant := wallet }
    { amountUnlocked, amountLocked, proof := [] }))

def withdraw (now : Int64) : Transaction :=
  send now [wallet] (.invoke (.claimLocked
    { distributor := pda, fromAccount := vault, toAccount := purse, claimant := wallet }))

def setSlot (now : Int64) (enableSlot : UInt64) : Transaction :=
  send now [adminId] (.invoke (.setEnableSlot { distributor := pda, admin := adminId } enableSlot))

def reRoot (now : Int64) (newRoot oldRoot : Hash) (count newMaxTotalClaim : UInt64) : Transaction :=
  send now [adminId] (.invoke (.setRoot
    { distributor := pda, tokenVault := vault, mint, admin := adminId }
    { newRoot, expectedOldRoot := oldRoot, expectedNumNodesClaimed := count, newMaxTotalClaim }))

def close : Transaction :=
  send 0 [adminId] (.invoke (.closeDistributor
    { distributor := pda, tokenVault := vault, admin := adminId,
      destinationTokenAccount := receiver }))

theorem emptyWorld_genesis : Genesis emptyWorld := by
  refine ⟨fun _ => rfl, fun _ _ => rfl, fun token keys => ?_⟩
  simp [Ledger.holding, emptyWorld]

theorem admissible_of_foreign {tx : Transaction} (foreign : pda ∉ tx.signers) :
    Admissible rt tx :=
  fun _ _ _ => foreign

theorem admissible_of_all {txs : List Transaction}
    (foreign : txs.all (fun tx => pda ∉ tx.signers) = true) : ∀ tx ∈ txs, Admissible rt tx :=
  fun tx member =>
    admissible_of_foreign (of_decide_eq_true (List.all_eq_true.mp foreign tx member))

theorem reachable_of_all {txs : List Transaction}
    (foreign : txs.all (fun tx => pda ∉ tx.signers) = true) :
    Reachable rt (run rt emptyWorld txs) :=
  ⟨emptyWorld, txs, emptyWorld_genesis, admissible_of_all foreign, rfl⟩

theorem unclaimed_of_all {txs : List Transaction}
    (others : txs.all (fun tx => tx.claimant.isNone) = true) (claimant key : Pubkey) :
    (run rt emptyWorld txs).claimStatuses claimant key = none := by
  rw [run_claimStatuses fun tx member => by simpa using List.all_eq_true.mp others tx member]
  rfl

theorem openAccounts_clean (funds : UInt64) (claimant : Pubkey) :
    (run rt emptyWorld (openAccounts funds)).claimStatuses claimant pda = none :=
  unclaimed_of_all rfl claimant pda

/-- The world after deploying a permanent distributor with the given leaf and cap. -/
def deployed (unlocked locked maxTotalClaim funds : UInt64) : World :=
  apply rt (run rt emptyWorld (openAccounts funds)) (create unlocked locked maxTotalClaim false)

theorem deployed_reachable (unlocked locked maxTotalClaim funds : UInt64) :
    Reachable rt (deployed unlocked locked maxTotalClaim funds) :=
  Reachable.after_run (reachable_of_all (show (openAccounts funds).all _ = true from rfl))
    (admissible_of_all (show [create unlocked locked maxTotalClaim false].all _ = true from rfl))

/-- The record of the sample distributor, found by evaluation. -/
theorem record_of {world : World} (check : MerkleDistributor → Bool)
    (passes : (world.distributors pda).any check = true) :
    ∃ record, world.distributors pda = some record ∧ check record = true := by
  rwa [Option.any_eq_true] at passes

theorem account_of {world : World} {key : Pubkey} (check : TokenAccount Pubkey → Bool)
    (passes : (world.tokens.accounts key).any check = true) :
    ∃ account, world.tokens.accounts key = some account ∧ check account = true := by
  rwa [Option.any_eq_true] at passes

end Sample

open Sample in
/-- A claim half way through vesting, on the sample deployment. -/
theorem run_steps_authorized_claim :
    ∃ before after, (deployed 100 70 170 170).distributors pda = some before ∧
      (apply rt (deployed 100 70 170 170) (claim 50 100 70)).distributors pda = some after ∧
      AuthorizedStep (claim 50 100 70) before after ∧
      ∀ claimant,
        (apply rt (deployed 100 70 170 170) (claim 50 100 70)).claimStatuses claimant pda ≠
          (deployed 100 70 170 170).claimStatuses claimant pda →
        (claim 50 100 70).claimant = some claimant ∧ claimant ∈ (claim 50 100 70).signers := by
  obtain ⟨distributor, found, permanent⟩ :=
    record_of (fun record => record.closable == false)
      (show ((deployed 100 70 170 170).distributors pda).any _ = true by decide +kernel)
  have step : (deployed 100 70 170 170, claim 50 100 70) ∈
      transitions (apply rt) (deployed 100 70 170 170) [claim 50 100 70] := by simp
  exact run_steps_authorized (deployed_reachable 100 70 170 170) found (beq_iff_eq.mp permanent)
    (admissible_of_all rfl) step

end MultiDistributor.Source

import MultiDistributor.Guarantees.Cap
import MultiDistributor.Guarantees.Claimable
import MultiDistributor.Lib.Reordering

/-!
# The order in which claims arrive

Claims of different claimants race for the same counters and the same vault. What a claim
pays depends on its own leaf, its own claim status and the clock, and its effects add up
with those of others, so claims that went through in one order go through in every other
order and leave the same accounts. The one exception is the cap: `new_claim` counts the
forgone total against it and `claim_locked` does not, so a withdrawal can come first and
take the room that a new claim needed.
-/
namespace MultiDistributor.Source
open Lib.Checked Lib.TokenLedger Lib.Replay Lib.Reordering

/-- What a claim writes. -/
structure Receipt where
  accounts : ClaimLockedAccounts
  opens : Bool
  paid : UInt64
  forgone : UInt64
  status : ClaimStatus

/-- The record without its counters. -/
def MerkleDistributor.uncounted (distributor : MerkleDistributor) : MerkleDistributor :=
  { distributor with numNodesClaimed := 0, totalAmountClaimed := 0, totalAmountForgone := 0 }

/-- The counters move by what the claim adds. -/
def Receipt.settle (receipt : Receipt) (distributor : MerkleDistributor) : MerkleDistributor :=
  { distributor with
    numNodesClaimed := distributor.numNodesClaimed + if receipt.opens then 1 else 0
    totalAmountClaimed := distributor.totalAmountClaimed + receipt.paid
    totalAmountForgone := distributor.totalAmountForgone + receipt.forgone }

def Receipt.after (receipt : Receipt) (tokens : Ledger Pubkey) (world : World) : World :=
  ((world.setTokens tokens).setClaimStatus receipt.accounts.claimant receipt.accounts.distributor
    receipt.status).setDistributor receipt.accounts.distributor
    ((world.distributors receipt.accounts.distributor).map receipt.settle)

/-- The counters have room for the claim, in the way its instruction checks it. -/
structure Receipt.Fits (receipt : Receipt) (distributor : MerkleDistributor) : Prop where
  nodes : receipt.opens = true →
    distributor.numNodesClaimed.toNat + 1 ≤ distributor.maxNumNodes.toNat
  opened : receipt.opens = true →
    distributor.totalAmountClaimed.toNat + receipt.paid.toNat +
      (distributor.totalAmountForgone.toNat + receipt.forgone.toNat) ≤
        distributor.maxTotalClaim.toNat
  withdrawn : receipt.opens = false → receipt.forgone = 0 ∧
    distributor.totalAmountClaimed.toNat + receipt.paid.toNat ≤ distributor.maxTotalClaim.toNat

/-- What a claim looks at besides counters and balances is the same in both worlds. -/
structure Receipt.Agree (receipt : Receipt) (world other : World) : Prop where
  record : (other.distributors receipt.accounts.distributor).map MerkleDistributor.uncounted =
    (world.distributors receipt.accounts.distributor).map MerkleDistributor.uncounted
  status : other.claimStatuses receipt.accounts.claimant receipt.accounts.distributor =
    world.claimStatuses receipt.accounts.claimant receipt.accounts.distributor
  holders : ∀ key, other.tokens.holder key = world.tokens.holder key

section
variable {rt : Runtime} {world other : World} {tx : Transaction}

def NewClaimExecution.receipt {accounts : NewClaimAccounts} {args : NewClaimArgs}
    (e : NewClaimExecution rt tx.signers tx.clock world accounts args) : Receipt where
  accounts := { accounts with }
  opens := true
  paid := e.claimed
  forgone := e.forgone
  status := e.status

def ClaimLockedExecution.receipt {accounts : ClaimLockedAccounts}
    (e : ClaimLockedExecution rt tx.signers tx.clock world accounts) : Receipt where
  accounts := accounts
  opens := false
  paid := e.amount
  forgone := 0
  status := e.nextStatus

/-- The transaction is a claim that goes through with this receipt and leaves these tokens. -/
inductive ClaimStep (rt : Runtime) (world : World) (tx : Transaction) :
    Receipt → Ledger Pubkey → Prop
  | newClaim {accounts : NewClaimAccounts} {args : NewClaimArgs}
      (sent : tx.action = .invoke (.newClaim accounts args))
      (e : NewClaimExecution rt tx.signers tx.clock world accounts args) :
      ClaimStep rt world tx e.receipt e.tokens
  | claimLocked {accounts : ClaimLockedAccounts}
      (sent : tx.action = .invoke (.claimLocked accounts))
      (e : ClaimLockedExecution rt tx.signers tx.clock world accounts) :
      ClaimStep rt world tx e.receipt e.tokens

theorem add_eq_of_toNat {a b c : UInt64} (sum : c.toNat = a.toNat + b.toNat) : c = a + b := by
  apply UInt64.toNat_inj.mp
  rw [UInt64.toNat_add, ← sum, Nat.mod_eq_of_lt c.toNat_lt]

theorem NewClaimExecution.next_eq {accounts : NewClaimAccounts} {args : NewClaimArgs}
    (e : NewClaimExecution rt tx.signers tx.clock world accounts args) :
    e.next = e.receipt.settle e.distributor := by
  simp only [NewClaimExecution.next, Receipt.settle, NewClaimExecution.receipt, if_true,
    add_eq_of_toNat e.claimedSum, add_eq_of_toNat e.forgoneSum,
    add_eq_of_toNat (b := 1) e.counted]

theorem ClaimLockedExecution.next_eq {accounts : ClaimLockedAccounts}
    (e : ClaimLockedExecution rt tx.signers tx.clock world accounts) :
    e.next = e.receipt.settle e.distributor := by
  simp [ClaimLockedExecution.next, Receipt.settle, ClaimLockedExecution.receipt,
    add_eq_of_toNat e.claimedSum]

theorem ClaimStep.found {receipt : Receipt} {tokens : Ledger Pubkey}
    (step : ClaimStep rt world tx receipt tokens) :
    ∃ distributor, world.distributors receipt.accounts.distributor = some distributor ∧
      receipt.Fits distributor := by
  cases step with
  | newClaim sent e =>
    refine ⟨e.distributor, e.found, ⟨fun _ => ?_, fun _ => ?_, nofun⟩⟩
    · rw [← e.counted]
      exact e.room
    · have cap := e.cap
      rw [e.claimedSum, e.forgoneSum] at cap
      exact cap
  | claimLocked sent e =>
    refine ⟨e.distributor, e.found, ⟨nofun, nofun, fun _ => ⟨rfl, ?_⟩⟩⟩
    rw [show e.receipt.paid = e.amount from rfl, ← e.claimedSum]
    exact e.cap

theorem ClaimStep.moved {receipt : Receipt} {tokens : Ledger Pubkey}
    (step : ClaimStep rt world tx receipt tokens) :
    world.tokens.transfer receipt.accounts.fromAccount receipt.accounts.toAccount
      receipt.accounts.distributor receipt.paid = .ok tokens := by
  cases step with
  | newClaim sent e => exact e.moved
  | claimLocked sent e => exact e.moved

theorem ClaimStep.claims {receipt : Receipt} {tokens : Ledger Pubkey}
    (step : ClaimStep rt world tx receipt tokens) : tx.claimAccounts = some receipt.accounts := by
  cases step with
  | newClaim sent e => simp only [Transaction.claimAccounts, sent]; rfl
  | claimLocked sent e => simp only [Transaction.claimAccounts, sent]; rfl

/-- A claim pays from the vault of its distributor to an account of the signing claimant. -/
theorem ClaimStep.parties {receipt : Receipt} {tokens : Ledger Pubkey}
    (step : ClaimStep rt world tx receipt tokens) :
    (∃ distributor, world.distributors receipt.accounts.distributor = some distributor ∧
      receipt.accounts.fromAccount = distributor.tokenVault) ∧
    ∃ account, world.tokens.accounts receipt.accounts.toAccount = some account ∧
      account.owner ∈ tx.signers := by
  cases step with
  | newClaim sent e =>
    exact ⟨⟨e.distributor, e.found, e.vaultAddress⟩, e.receiver, e.receiverFound,
      e.receiverOwner ▸ e.signed⟩
  | claimLocked sent e =>
    exact ⟨⟨e.distributor, e.found, e.vaultAddress⟩, e.receiver, e.receiverFound,
      e.receiverOwner ▸ e.signed⟩

/-- The step leaves what the receipt says. -/
theorem ClaimStep.outcome {receipt : Receipt} {tokens : Ledger Pubkey}
    (step : ClaimStep rt world tx receipt tokens) :
    Succeeds rt world tx ∧ apply rt world tx = receipt.after tokens world := by
  cases step with
  | newClaim sent e =>
    refine ⟨⟨_, _, e.success sent⟩, ?_⟩
    rw [apply_of_ok (e.success sent), Receipt.after, NewClaimExecution.after, e.next_eq]
    simp only [NewClaimExecution.receipt, e.found, Option.map_some]
  | claimLocked sent e =>
    refine ⟨⟨_, _, e.success sent⟩, ?_⟩
    rw [apply_of_ok (e.success sent), Receipt.after, ClaimLockedExecution.after, e.next_eq]
    simp only [ClaimLockedExecution.receipt, e.found, Option.map_some]

/-- A successful claim has a receipt. -/
theorem Succeeds.claimStep (success : Succeeds rt world tx)
    (claims : tx.claimAccounts.isSome = true) :
    ∃ receipt tokens, ClaimStep rt world tx receipt tokens := by
  obtain ⟨after, events, success⟩ := success
  have named : tx.claimant.isSome = true := by
    revert claims
    unfold Transaction.claimAccounts Transaction.claimant
    split <;> simp_all
  rcases claim_execution success named with ⟨_, _, e, sent, _⟩ | ⟨_, e, sent, _⟩
  · exact ⟨_, _, .newClaim sent e⟩
  · exact ⟨_, _, .claimLocked sent e⟩

theorem uncounted_terms {first second : MerkleDistributor}
    (same : first.uncounted = second.uncounted) :
    SameTerms second first ∧ first.root = second.root ∧
      first.maxTotalClaim = second.maxTotalClaim ∧ first.clawedBack = second.clawedBack ∧
      first.enableSlot = second.enableSlot := by
  simp only [MerkleDistributor.uncounted, MerkleDistributor.mk.injEq] at same
  obtain ⟨bump, version, root, mint, tokenVault, maxTotalClaim, maxNumNodes, _, _, _, startTs,
    endTs, _, _, _, clawedBack, enableSlot, closable⟩ := same
  exact ⟨⟨bump, version, mint, tokenVault, maxNumNodes, startTs, endTs, closable⟩, root,
    maxTotalClaim, clawedBack, enableSlot⟩

theorem holder_transport {ledger after : Ledger Pubkey} {key : Pubkey}
    {account : TokenAccount Pubkey} (same : after.holder key = ledger.holder key)
    (held : ledger.accounts key = some account) :
    ∃ kept, after.accounts key = some kept ∧ kept.mint = account.mint ∧
      kept.owner = account.owner :=
  holder_eq_some.mp (same.trans (holder_eq_some.mpr ⟨account, held, rfl, rfl⟩))

theorem NewClaimExecution.transport {accounts : NewClaimAccounts} {args : NewClaimArgs}
    (e : NewClaimExecution rt tx.signers tx.clock world accounts args) {moved : Ledger Pubkey}
    {distributor : MerkleDistributor} (agree : e.receipt.Agree world other)
    (transferred : other.tokens.transfer accounts.fromAccount accounts.toAccount
      accounts.distributor e.claimed = .ok moved)
    (found : other.distributors accounts.distributor = some distributor)
    (fits : e.receipt.Fits distributor) :
    ∃ again : NewClaimExecution rt tx.signers tx.clock other accounts args,
      again.receipt = e.receipt ∧ again.tokens = moved := by
  have record := agree.record
  rw [show e.receipt.accounts.distributor = accounts.distributor from rfl, found, e.found,
    Option.map_some, Option.map_some, Option.some.injEq] at record
  obtain ⟨terms, root, cap, live, enabled⟩ := uncounted_terms record
  obtain ⟨vault, vaultFound, _, vaultOwner⟩ := holder_transport (agree.holders _) e.vaultFound
  obtain ⟨receiver, receiverFound, receiverMint, receiverOwner⟩ :=
    holder_transport (agree.holders _) e.receiverFound
  have nodes := fits.nodes rfl
  have total := fits.opened rfl
  simp only [NewClaimExecution.receipt] at total
  have nodesWidth := distributor.maxNumNodes.toNat_lt
  have capWidth := distributor.maxTotalClaim.toNat_lt
  obtain ⟨numNodesClaimed, _, counted⟩ := checkedAdd_total distributor.numNodesClaimed 1
    (Nat.lt_of_le_of_lt nodes nodesWidth)
  obtain ⟨totalAmountClaimed, _, claimedSum⟩ :=
    checkedAdd_total distributor.totalAmountClaimed e.claimed (by omega)
  obtain ⟨totalAmountForgone, _, forgoneSum⟩ :=
    checkedAdd_total distributor.totalAmountForgone e.forgone (by omega)
  refine ⟨{
    distributor, vault, receiver, claimed := e.claimed, forgone := e.forgone, numNodesClaimed
    totalAmountClaimed, totalAmountForgone, tokens := moved, found, vaultFound, receiverFound
    signed := e.signed
    vacant := agree.status.trans e.vacant
    vaultOwner := vaultOwner.trans e.vaultOwner
    vaultAssociated := by rw [terms.mint]; exact e.vaultAssociated
    vaultAddress := by rw [terms.tokenVault]; exact e.vaultAddress
    receiverOwner := receiverOwner.trans e.receiverOwner
    receiverMint := by rw [receiverMint, terms.mint]; exact e.receiverMint
    live := live.trans e.live
    enabled := by rw [enabled]; exact e.enabled
    begun := by rw [terms.startTs]; exact e.begun
    counted
    room := by rw [counted]; exact nodes
    proved := by rw [root]; exact e.proved
    window := by rw [terms.startTs, terms.endTs]; exact e.window
    share := by rw [terms.startTs, terms.endTs]; exact e.share
    rest := e.rest
    seeds := by rw [terms.mint, terms.version, terms.bump]; exact e.seeds
    moved := transferred, claimedSum, forgoneSum
    cap := by omega }, ?_, rfl⟩
  simp only [NewClaimExecution.receipt, NewClaimExecution.status, NewClaimArgs.seeded,
    terms.closable]

theorem ClaimLockedExecution.transport {accounts : ClaimLockedAccounts}
    (e : ClaimLockedExecution rt tx.signers tx.clock world accounts) {moved : Ledger Pubkey}
    {distributor : MerkleDistributor} (agree : e.receipt.Agree world other)
    (transferred : other.tokens.transfer accounts.fromAccount accounts.toAccount
      accounts.distributor e.amount = .ok moved)
    (found : other.distributors accounts.distributor = some distributor)
    (fits : e.receipt.Fits distributor) :
    ∃ again : ClaimLockedExecution rt tx.signers tx.clock other accounts,
      again.receipt = e.receipt ∧ again.tokens = moved := by
  have record := agree.record
  rw [show e.receipt.accounts.distributor = accounts.distributor from rfl, found, e.found,
    Option.map_some, Option.map_some, Option.some.injEq] at record
  obtain ⟨terms, root, cap, live, enabled⟩ := uncounted_terms record
  obtain ⟨vault, vaultFound, _, vaultOwner⟩ := holder_transport (agree.holders _) e.vaultFound
  obtain ⟨receiver, receiverFound, _, receiverOwner⟩ :=
    holder_transport (agree.holders _) e.receiverFound
  have total := (fits.withdrawn rfl).2
  simp only [ClaimLockedExecution.receipt] at total
  have capWidth := distributor.maxTotalClaim.toNat_lt
  obtain ⟨totalAmountClaimed, _, claimedSum⟩ :=
    checkedAdd_total distributor.totalAmountClaimed e.amount (by omega)
  exact ⟨{
    distributor, status := e.status, vault, receiver, amount := e.amount
    lockedAmountWithdrawn := e.lockedAmountWithdrawn, totalAmountClaimed, tokens := moved, found
    statusFound := agree.status.trans e.statusFound
    vaultFound, receiverFound
    signed := e.signed
    vaultOwner := vaultOwner.trans e.vaultOwner
    vaultAssociated := by rw [terms.mint]; exact e.vaultAssociated
    vaultAddress := by rw [terms.tokenVault]; exact e.vaultAddress
    receiverOwner := receiverOwner.trans e.receiverOwner
    live := live.trans e.live
    enabled := by rw [enabled]; exact e.enabled
    window := by rw [terms.startTs, terms.endTs]; exact e.window
    release := by rw [terms.startTs, terms.endTs]; exact e.release
    positive := e.positive
    seeds := by rw [terms.mint, terms.version, terms.bump]; exact e.seeds
    moved := transferred
    withdrawnSum := e.withdrawnSum, withinLocked := e.withinLocked, claimedSum
    cap := by omega }, rfl, rfl⟩

/-- The claim goes through in every world that agrees with this one, if the vault can pay and
the counters have room. -/
theorem ClaimStep.transport {receipt : Receipt} {tokens moved : Ledger Pubkey}
    {distributor : MerkleDistributor} (step : ClaimStep rt world tx receipt tokens)
    (agree : receipt.Agree world other)
    (transferred : other.tokens.transfer receipt.accounts.fromAccount receipt.accounts.toAccount
      receipt.accounts.distributor receipt.paid = .ok moved)
    (found : other.distributors receipt.accounts.distributor = some distributor)
    (fits : receipt.Fits distributor) : ClaimStep rt other tx receipt moved := by
  cases step with
  | newClaim sent e =>
    obtain ⟨again, receipt, rfl⟩ := e.transport agree transferred found fits
    rw [← receipt]
    exact .newClaim sent again
  | claimLocked sent e =>
    obtain ⟨again, receipt, rfl⟩ := e.transport agree transferred found fits
    rw [← receipt]
    exact .claimLocked sent again

end

/-! ### Two claims -/

section
variable {rt : Runtime} {world : World} {tx tx' : Transaction} {receipt receipt' : Receipt}
  {tokens tokens' : Ledger Pubkey} {distributor : MerkleDistributor}

/-- The counters of a claim that fits do not wrap around. -/
theorem Receipt.Fits.counters (fits : receipt.Fits distributor) :
    (receipt.settle distributor).numNodesClaimed.toNat =
        distributor.numNodesClaimed.toNat + (if receipt.opens then 1 else 0) ∧
      (receipt.settle distributor).totalAmountClaimed.toNat =
        distributor.totalAmountClaimed.toNat + receipt.paid.toNat ∧
      (receipt.settle distributor).totalAmountForgone.toNat =
        distributor.totalAmountForgone.toNat + receipt.forgone.toNat := by
  have nodesWidth := distributor.maxNumNodes.toNat_lt
  have capWidth := distributor.maxTotalClaim.toNat_lt
  have forgoneWidth := distributor.totalAmountForgone.toNat_lt
  simp only [Receipt.settle, UInt64.toNat_add]
  cases opens : receipt.opens with
  | true =>
    have nodes := fits.nodes opens
    have total := fits.opened opens
    refine ⟨Nat.mod_eq_of_lt ?_, Nat.mod_eq_of_lt ?_, Nat.mod_eq_of_lt ?_⟩
    · simpa using Nat.lt_of_le_of_lt nodes nodesWidth
    · omega
    · omega
  | false =>
    obtain ⟨forgone, total⟩ := fits.withdrawn opens
    rw [forgone]
    refine ⟨Nat.mod_eq_of_lt ?_, Nat.mod_eq_of_lt ?_, Nat.mod_eq_of_lt ?_⟩
    · simpa using distributor.numNodesClaimed.toNat_lt
    · omega
    · simpa using forgoneWidth

theorem settle_comm (receipt receipt' : Receipt) (distributor : MerkleDistributor) :
    receipt.settle (receipt'.settle distributor) =
      receipt'.settle (receipt.settle distributor) := by
  have swap : ∀ a b c : UInt64, a + b + c = a + c + b := by
    intro a b c
    rw [UInt64.add_assoc, UInt64.add_comm b, ← UInt64.add_assoc]
  simp only [Receipt.settle, MerkleDistributor.mk.injEq, true_and, and_true]
  exact ⟨swap _ _ _, swap _ _ _, swap _ _ _⟩

/-- Of two claims that fit one after the other, the second fits first; the first still fits
after it unless it is new and the cap does not cover both totals. -/
theorem Receipt.Fits.swap (first : receipt.Fits distributor)
    (second : receipt'.Fits (receipt.settle distributor))
    (room : receipt.opens = true → distributor.totalAmountClaimed.toNat + receipt.paid.toNat +
      receipt'.paid.toNat + (distributor.totalAmountForgone.toNat + receipt.forgone.toNat +
        receipt'.forgone.toNat) ≤ distributor.maxTotalClaim.toNat) :
    receipt'.Fits distributor ∧ receipt.Fits (receipt'.settle distributor) := by
  obtain ⟨nodes, claimed, forgone⟩ := first.counters
  have counted := second.nodes
  have opened := second.opened
  have withdrawn := second.withdrawn
  rw [nodes] at counted
  rw [claimed, forgone] at opened
  rw [claimed] at withdrawn
  simp only [Receipt.settle] at counted opened withdrawn
  have earlier : receipt'.Fits distributor := by
    refine ⟨fun opens => ?_, fun opens => ?_, fun closed => ⟨(withdrawn closed).1, ?_⟩⟩
    · have := counted opens
      omega
    · have := opened opens
      omega
    · have := (withdrawn closed).2
      omega
  obtain ⟨nodes', claimed', forgone'⟩ := earlier.counters
  refine ⟨earlier, fun opens => ?_, fun opens => ?_, fun closed =>
    ⟨(first.withdrawn closed).1, ?_⟩⟩
  · have alone := first.nodes opens
    rw [nodes']
    simp only [Receipt.settle]
    rw [if_pos opens] at counted
    split
    · next opens' =>
      have := counted opens'
      omega
    · exact alone
  · have := room opens
    rw [claimed', forgone']
    simp only [Receipt.settle]
    omega
  · rw [claimed']
    simp only [Receipt.settle]
    cases opens' : receipt'.opens with
    | true =>
      have := opened opens'
      omega
    | false =>
      have := (withdrawn opens').2
      omega

theorem Receipt.after_distributors (receipt : Receipt) (tokens : Ledger Pubkey) (world : World)
    (key : Pubkey) : (receipt.after tokens world).distributors key =
      if key = receipt.accounts.distributor then
        (world.distributors receipt.accounts.distributor).map receipt.settle
      else world.distributors key := rfl

theorem Receipt.after_uncounted (receipt : Receipt) (tokens : Ledger Pubkey) (world : World)
    (key : Pubkey) :
    ((receipt.after tokens world).distributors key).map MerkleDistributor.uncounted =
      (world.distributors key).map MerkleDistributor.uncounted := by
  rw [Receipt.after_distributors]
  split
  · next here =>
    rw [here, Option.map_map]
    rfl
  · rfl

/-- A claim leaves alone what another claim looks at, if they are about different claim
statuses. -/
theorem Receipt.after_agree
    (moved : world.tokens.transfer receipt.accounts.fromAccount receipt.accounts.toAccount
      receipt.accounts.distributor receipt.paid = .ok tokens)
    (distinct : ¬ (receipt'.accounts.claimant = receipt.accounts.claimant ∧
      receipt'.accounts.distributor = receipt.accounts.distributor)) :
    receipt'.Agree world (receipt.after tokens world) where
  record := receipt.after_uncounted tokens world _
  status := by
    rw [Receipt.after, setDistributor_claimStatuses, setClaimStatus_claimStatuses, if_neg distinct]
    rfl
  holders := transfer_holder moved

theorem Receipt.Agree.symm {other : World} (agree : receipt.Agree world other) :
    receipt.Agree other world where
  record := agree.record.symm
  status := agree.status.symm
  holders key := (agree.holders key).symm

theorem Receipt.after_comm (world : World) (early late last : Ledger Pubkey)
    (distinct : ¬ (receipt'.accounts.claimant = receipt.accounts.claimant ∧
      receipt'.accounts.distributor = receipt.accounts.distributor)) :
    receipt.after last (receipt'.after early world) =
      receipt'.after last (receipt.after late world) := by
  have records : (receipt.after last (receipt'.after early world)).distributors =
      (receipt'.after last (receipt.after late world)).distributors := by
    funext key
    simp only [Receipt.after_distributors]
    by_cases same : receipt.accounts.distributor = receipt'.accounts.distributor
    · rw [same]
      split
      · simp only [if_true, Option.map_map]
        congr 1
        exact funext (settle_comm receipt receipt')
      · rfl
    · rw [if_neg same, if_neg (Ne.symm same)]
      by_cases here : key = receipt.accounts.distributor
      · rw [if_pos here, if_neg (here ▸ same), if_pos here]
      · rw [if_neg here, if_neg here]
  have statuses : (receipt.after last (receipt'.after early world)).claimStatuses =
      (receipt'.after last (receipt.after late world)).claimStatuses := by
    funext claimant key
    simp only [Receipt.after, setDistributor_claimStatuses, setClaimStatus_claimStatuses,
      setTokens_claimStatuses]
    by_cases here : claimant = receipt.accounts.claimant ∧ key = receipt.accounts.distributor
    · have elsewhere : ¬ (claimant = receipt'.accounts.claimant ∧
          key = receipt'.accounts.distributor) :=
        fun there => distinct ⟨there.1.symm.trans here.1, there.2.symm.trans here.2⟩
      rw [if_pos here, if_neg elsewhere, if_pos here]
    · rw [if_neg here, if_neg here]
  exact World.mk.injEq .. ▸ ⟨records, statuses, rfl⟩

/-- Two claims about different claim statuses can be swapped, unless the first is new and
the cap does not cover both. -/
theorem ClaimStep.swap (wellFormed : WellFormed rt world) (admissible : Admissible rt tx)
    (admissible' : Admissible rt tx') (first : ClaimStep rt world tx receipt tokens)
    (second : ClaimStep rt (receipt.after tokens world) tx' receipt' tokens')
    (distinct : ¬ (receipt'.accounts.claimant = receipt.accounts.claimant ∧
      receipt'.accounts.distributor = receipt.accounts.distributor))
    (room : receipt.opens = true → CapCovers receipt.accounts.distributor
      (receipt'.after tokens' (receipt.after tokens world))) :
    ∃ early, ClaimStep rt world tx' receipt' early ∧
      ClaimStep rt (receipt'.after early world) tx receipt tokens' := by
  have later : WellFormed rt (receipt.after tokens world) :=
    first.outcome.2 ▸ wellFormed.after_tx admissible
  obtain ⟨⟨owner, hold, vault⟩, account, held, signed⟩ := first.parties
  obtain ⟨⟨owner', hold', vault'⟩, account', held', signed'⟩ := second.parties
  -- no vault is an account that one of the two claimants signs for
  have cross : receipt.accounts.fromAccount ≠ receipt'.accounts.toAccount := by
    obtain ⟨kept, stays, _, same⟩ := holder_transport (transfer_holder first.moved _).symm held'
    rw [vault]
    exact wellFormed.receiver_ne_vault admissible' hold stays (same ▸ signed')
  have cross' : receipt'.accounts.fromAccount ≠ receipt.accounts.toAccount := by
    obtain ⟨kept, stays, _, same⟩ := holder_transport (transfer_holder first.moved _) held
    rw [vault']
    exact later.receiver_ne_vault admissible hold' stays (same ▸ signed)
  obtain ⟨early, moved, moved'⟩ := transfer_comm first.moved second.moved
    (vault ▸ wellFormed.receiver_ne_vault admissible hold held signed)
    (vault' ▸ later.receiver_ne_vault admissible' hold' held' signed') cross cross'
  have agree := (Receipt.after_agree first.moved distinct).symm
  have agree' : receipt.Agree world (receipt'.after early world) :=
    Receipt.after_agree moved fun same => distinct ⟨same.1.symm, same.2.symm⟩
  obtain ⟨distributor, found, fits⟩ := first.found
  obtain ⟨next, found', fits'⟩ := second.found
  rw [Receipt.after_distributors] at found'
  by_cases same : receipt'.accounts.distributor = receipt.accounts.distributor
  · rw [if_pos same, found, Option.map_some, Option.some.injEq] at found'
    subst next
    have reached : (receipt'.after tokens' (receipt.after tokens world)).distributors
        receipt.accounts.distributor = some (receipt'.settle (receipt.settle distributor)) := by
      rw [Receipt.after_distributors, if_pos same.symm, Receipt.after_distributors, if_pos same,
        found, Option.map_some, Option.map_some]
    obtain ⟨_, claimed, forgone⟩ := fits.counters
    obtain ⟨_, claimed', forgone'⟩ := fits'.counters
    obtain ⟨fits', fits⟩ := fits.swap fits' fun opens => by
      have covered := room opens _ reached
      rw [claimed', forgone', claimed, forgone] at covered
      exact covered
    refine ⟨early, second.transport agree moved (same ▸ found) fits',
      first.transport agree' moved' ?_ fits⟩
    rw [Receipt.after_distributors, if_pos same.symm, same, found, Option.map_some]
  · rw [if_neg same] at found'
    refine ⟨early, second.transport agree moved found' fits',
      first.transport agree' moved' ?_ fits⟩
    rw [Receipt.after_distributors, if_neg (Ne.symm same), found]

/-- Claims only raise the two totals. -/
theorem ClaimStep.covered_before {key : Pubkey} (step : ClaimStep rt world tx receipt tokens)
    (covered : CapCovers key (receipt.after tokens world)) : CapCovers key world := by
  intro before found
  by_cases here : key = receipt.accounts.distributor
  · subst key
    obtain ⟨distributor, again, fits⟩ := step.found
    cases again.symm.trans found
    obtain ⟨_, claimed, forgone⟩ := fits.counters
    have bound := covered (receipt.settle before) (by
      rw [Receipt.after_distributors, if_pos rfl, found, Option.map_some])
    rw [claimed, forgone] at bound
    exact Nat.le_trans (by omega) bound
  · exact covered before (by rw [Receipt.after_distributors, if_neg here, found])

/-- A new claim leaves its distributor covered. -/
theorem ClaimStep.covered_after (step : ClaimStep rt world tx receipt tokens)
    (opens : receipt.opens = true) :
    CapCovers receipt.accounts.distributor (receipt.after tokens world) := by
  intro next reached
  obtain ⟨distributor, found, fits⟩ := step.found
  rw [Receipt.after_distributors, if_pos rfl, found, Option.map_some, Option.some.injEq] at reached
  subst next
  obtain ⟨_, claimed, forgone⟩ := fits.counters
  rw [claimed, forgone]
  exact fits.opened opens

end

/-! ### Any number of claims -/

/-- The claim status that a claim is about, as claimant and distributor. -/
def Transaction.claimPair (tx : Transaction) : Option (Pubkey × Pubkey) :=
  tx.claimAccounts.map fun accounts => (accounts.claimant, accounts.distributor)

/-- The transaction is a `new_claim` on the distributor. -/
def Transaction.OpensOn (tx : Transaction) (key : Pubkey) : Prop :=
  ∃ accounts args, tx.action = .invoke (.newClaim accounts args) ∧ accounts.distributor = key

/-- Every transaction goes through when its turn comes. -/
def AllSucceed (rt : Runtime) (world : World) (txs : List Transaction) : Prop :=
  AllowedRun (apply rt) (Succeeds rt) world txs

/-- A claim that goes through and leaves every distributor of `opened` covered. -/
structure Joins (rt : Runtime) (opened : Pubkey → Prop) (world : World) (tx : Transaction) :
    Prop where
  admissible : Admissible rt tx
  claims : tx.claimAccounts.isSome = true
  opening : ∀ key, tx.OpensOn key → opened key
  success : Succeeds rt world tx
  covered : ∀ key, opened key → CapCovers key (apply rt world tx)

section
variable {rt : Runtime} {world : World} {tx : Transaction} {receipt : Receipt}
  {tokens : Ledger Pubkey}

theorem ClaimStep.opensOn_iff (step : ClaimStep rt world tx receipt tokens) (key : Pubkey) :
    tx.OpensOn key ↔ receipt.opens = true ∧ receipt.accounts.distributor = key := by
  cases step with
  | newClaim sent e =>
    simp only [Transaction.OpensOn, sent, NewClaimExecution.receipt, true_and]
    constructor
    · rintro ⟨_, _, same, rfl⟩
      cases same
      rfl
    · intro here
      exact ⟨_, _, rfl, here⟩
  | claimLocked sent e =>
    simp [Transaction.OpensOn, sent, ClaimLockedExecution.receipt]

theorem claims_swappable (rt : Runtime) (opened : Pubkey → Prop) :
    Swappable (apply rt) (Joins rt opened) (WellFormed rt)
      (fun first second => first.claimPair ≠ second.claimPair) where
  symmetric := Ne.symm
  keeps _ _ wellFormed joins := wellFormed.after_tx joins.admissible
  swap world first second wellFormed distinct now next := by
    obtain ⟨receipt, tokens, step⟩ := now.success.claimStep now.claims
    have reached := step.outcome.2
    have success := next.success
    have covered := next.covered
    rw [reached] at success covered ⊢
    obtain ⟨receipt', tokens', step'⟩ := success.claimStep next.claims
    rw [step'.outcome.2] at covered ⊢
    have apart : ¬ (receipt'.accounts.claimant = receipt.accounts.claimant ∧
        receipt'.accounts.distributor = receipt.accounts.distributor) := by
      intro same
      apply distinct
      simp only [Transaction.claimPair, step.claims, step'.claims, Option.map_some, same]
    obtain ⟨early, before, after⟩ := step.swap wellFormed now.admissible next.admissible step' apart
      fun opens => covered _ (now.opening _ ((step.opensOn_iff _).mpr ⟨opens, rfl⟩))
    have same := Receipt.after_comm world early tokens tokens' apart
    rw [before.outcome.2, after.outcome.2]
    refine ⟨⟨next.admissible, next.claims, next.opening, before.outcome.1, fun key held => ?_⟩,
      ⟨now.admissible, now.claims, now.opening, after.outcome.1, fun key held => ?_⟩, same⟩
    · rw [before.outcome.2]
      exact after.covered_before (same ▸ covered key held)
    · rw [after.outcome.2, same]
      exact covered key held

end

section
variable {rt : Runtime} {world : World} {txs : List Transaction}

/-- Claims that leave a distributor covered found it covered. -/
theorem covered_before_run {key : Pubkey} (claims : ∀ tx ∈ txs, tx.claimAccounts.isSome = true)
    (succeed : AllSucceed rt world txs) (covered : CapCovers key (run rt world txs)) :
    CapCovers key world := by
  induction txs generalizing world with
  | nil => exact covered
  | cons tx rest ih =>
    obtain ⟨success, later⟩ := (allowedRun_cons ..).mp succeed
    have middle := ih (fun tx member => claims tx (by simp [member])) later covered
    obtain ⟨receipt, tokens, step⟩ := success.claimStep (claims tx (by simp))
    rw [step.outcome.2] at middle
    exact step.covered_before middle

theorem joins_of_succeed {opened : Pubkey → Prop} (admissible : ∀ tx ∈ txs, Admissible rt tx)
    (claims : ∀ tx ∈ txs, tx.claimAccounts.isSome = true)
    (opening : ∀ tx ∈ txs, ∀ key, tx.OpensOn key → opened key)
    (succeed : AllSucceed rt world txs)
    (covered : ∀ key, opened key → CapCovers key (run rt world txs)) :
    AllowedRun (apply rt) (Joins rt opened) world txs := by
  induction txs generalizing world with
  | nil => simp
  | cons tx rest ih =>
    simp only [List.mem_cons, forall_eq_or_imp] at admissible claims opening
    obtain ⟨success, later⟩ := (allowedRun_cons ..).mp succeed
    refine (allowedRun_cons ..).mpr
      ⟨⟨admissible.1, claims.1, opening.1, success, fun key held => ?_⟩,
        ih admissible.2 claims.2 opening.2 later covered⟩
    exact covered_before_run claims.2 later (covered key held)

end

/-- Claims about different claim statuses that went through in one order go through in every
order, each at its own clock, to the same accounts, exactly when the cap of every distributor
with a new claim among them covers its claimed and forgone totals at the end. -/
theorem claims_reorder_iff {rt : Runtime} {world : World} (reachable : Reachable rt world)
    {txs : List Transaction} (admissible : ∀ tx ∈ txs, Admissible rt tx)
    (claims : ∀ tx ∈ txs, tx.claimAccounts.isSome = true)
    (distinct : (txs.map Transaction.claimPair).Nodup) (succeed : AllSucceed rt world txs) :
    (∀ order, order.Perm txs → AllSucceed rt world order ∧ run rt world order = run rt world txs) ↔
      ∀ tx ∈ txs, ∀ key, tx.OpensOn key → CapCovers key (run rt world txs) := by
  constructor
  · intro everyOrder tx member key opens
    obtain ⟨before, after, rfl⟩ := List.append_of_mem member
    have reordered : (before ++ after ++ [tx]).Perm (before ++ tx :: after) := by
      rw [List.append_assoc]
      exact (List.perm_append_singleton tx after).append_left before
    obtain ⟨succeeds, same⟩ := everyOrder _ reordered
    rw [AllSucceed, allowedRun_append, allowedRun_cons] at succeeds
    obtain ⟨receipt, tokens, step⟩ := succeeds.2.1.claimStep (claims tx member)
    obtain ⟨opened, rfl⟩ := (step.opensOn_iff key).mp opens
    rw [← same, run, replay_append, replay_cons, replay_nil, step.outcome.2]
    exact step.covered_after opened
  · intro covered order reordered
    have joins := @joins_of_succeed rt world txs (fun key => ∃ tx ∈ txs, tx.OpensOn key) admissible
      claims (fun tx member key opens => ⟨tx, member, opens⟩) succeed
      (fun key opened => by
        obtain ⟨tx, member, opens⟩ := opened
        exact covered tx member key opens)
    obtain ⟨taken, same⟩ := (claims_swappable rt _).perm reordered.symm reachable.wellFormed
      (List.pairwise_map.mp distinct) joins
    exact ⟨fun pass member => (taken pass member).success, same⟩

namespace Sample

/-- A closable distributor is claimed and closed, and the claim status with 50 locked tokens
stays. A second one at the same address lists the friend's 100 tokens under the given cap. -/
def staleWorld (cap : UInt64) : World :=
  run rt emptyWorld (openAccounts 50 ++
    [send 0 [] (.token (.initializeAccount friendPurse mint friend)),
      create 0 50 50 true, claim 0 0 50, close, createFor friend 100 0 cap false, fund 200])

def friendClaim : Transaction :=
  send 50 [friend] (.invoke (.newClaim
    { distributor := pda, fromAccount := vault, toAccount := friendPurse, claimant := friend }
    { amountUnlocked := 100, amountLocked := 0, proof := [] }))

theorem staleWorld_reachable (cap : UInt64) : Reachable rt (staleWorld cap) :=
  reachable_of_all rfl

theorem capCovers_iff_any {world : World} (present : (world.distributors pda).isSome = true) :
    CapCovers pda world ↔ (world.distributors pda).any (fun record =>
      record.totalAmountClaimed.toNat + record.totalAmountForgone.toNat ≤
        record.maxTotalClaim.toNat) = true := by
  obtain ⟨record, found⟩ := Option.isSome_iff_exists.mp present
  simp [CapCovers, found]

theorem allSucceed_pair {world : World} {first second : Transaction}
    (now : Succeeds rt world first) (next : Succeeds rt (apply rt world first) second) :
    AllSucceed rt world [first, second] :=
  (allowedRun_cons ..).mpr ⟨now, (allowedRun_cons ..).mpr ⟨next, allowedRun_nil _ _ _⟩⟩

theorem friendClaim_opensOn {key : Pubkey} (opens : friendClaim.OpensOn key) : key = pda := by
  obtain ⟨accounts, args, sent, rfl⟩ := opens
  cases sent
  rfl

theorem withdraw_not_opensOn {key : Pubkey} (now : Int64) : ¬ (withdraw now).OpensOn key := by
  rintro ⟨accounts, args, sent, _⟩
  cases sent

end Sample

open Sample in
/-- Half way through vesting the friend claims 75 of 100 tokens and the old claim status
withdraws 25. Under a cap of 200 both orders end alike; under a cap of 100 the claim has to
come first. -/
theorem claims_reorder_sample :
    (∀ order, order.Perm [friendClaim, withdraw 50] →
      AllSucceed rt (staleWorld 200) order ∧
        run rt (staleWorld 200) order = run rt (staleWorld 200) [friendClaim, withdraw 50]) ∧
    AllSucceed rt (staleWorld 100) [friendClaim, withdraw 50] ∧
    ¬ ∀ order, order.Perm [friendClaim, withdraw 50] →
      AllSucceed rt (staleWorld 100) order ∧
        run rt (staleWorld 100) order = run rt (staleWorld 100) [friendClaim, withdraw 50] := by
  have admissible : ∀ tx ∈ [friendClaim, withdraw 50], Admissible rt tx := admissible_of_all rfl
  have claims : ∀ tx ∈ [friendClaim, withdraw 50], tx.claimAccounts.isSome = true := by
    simp [friendClaim, withdraw, send, Transaction.claimAccounts]
  have distinct : ([friendClaim, withdraw 50].map Transaction.claimPair).Nodup := by
    decide
  have wide : AllSucceed rt (staleWorld 200) [friendClaim, withdraw 50] :=
    allSucceed_pair (by decide +kernel) (by decide +kernel)
  have narrow : AllSucceed rt (staleWorld 100) [friendClaim, withdraw 50] :=
    allSucceed_pair (by decide +kernel) (by decide +kernel)
  refine ⟨?_, narrow, ?_⟩
  · refine (claims_reorder_iff (staleWorld_reachable 200) admissible claims distinct wide).mpr ?_
    intro tx member key opens
    rcases List.mem_pair.mp member with rfl | rfl
    · rw [friendClaim_opensOn opens]
      exact (capCovers_iff_any (by decide +kernel)).mpr (by decide +kernel)
    · exact absurd opens (withdraw_not_opensOn 50)
  · rw [claims_reorder_iff (staleWorld_reachable 100) admissible claims distinct narrow]
    intro covered
    have bound := covered friendClaim (by simp) pda ⟨_, _, rfl, rfl⟩
    exact absurd ((capCovers_iff_any (by decide +kernel)).mp bound) (by decide +kernel)

end MultiDistributor.Source

import MultiDistributor.Guarantees.LockedSchedule
import MultiDistributor.Guarantees.TreeIndex

/-!
# The claimable amount of the API

The server computes both curves anew, with constants and operators of its own. With a start
share of 50 percent they are the curves of the program, and what an answer calls claimable
is what the claimant's transactions would be paid at that moment.
-/
namespace MultiDistributor.Source
open Lib.Checked Lib.LinearRelease Lib.TokenLedger

@[simp] theorem orOverflow_ok_iff {α : Type} {result : Option α} {value : α} :
    orOverflow result = .ok value ↔ result = some value := okOr_ok_iff

/-! ### The two calculators -/

section
variable {startTs endTs : Int64}

/-- Division by the length of the window, as the calculators write it. -/
theorem div_of_checkedDiv {product total quotient : U128}
    (divided : product.checkedDiv total = some quotient) :
    total ≠ 0 ∧ product / total = quotient := by
  unfold U128.checkedDiv at divided
  split at divided
  · cases divided
  · next nonzero => exact ⟨nonzero, Option.some.inj divided⟩

theorem calculateLockedAmountClaimable_total (lockedAmount : UInt64) (currTs : Int64)
    (window : FitsI64 (endTs.toInt - startTs.toInt)) :
    ∃ claimable, calculateLockedAmountClaimable lockedAmount currTs startTs endTs =
      .ok claimable ∧ claimable.toNat =
        released lockedAmount.toNat startTs.toInt endTs.toInt currTs.toInt := by
  unfold calculateLockedAmountClaimable
  by_cases early : currTs < startTs
  · rw [if_pos early, released_before _ _ (Int64.lt_iff_toInt_lt.mp early)]
    exact ⟨0, rfl, rfl⟩
  have begun : startTs ≤ currTs := Int64.not_lt.mp early
  rw [if_neg early]
  by_cases ended : endTs ≤ currTs
  · rw [if_pos ended, released_after _ (Int64.le_iff_toInt_le.mp begun)
      (Int64.le_iff_toInt_le.mp ended)]
    exact ⟨lockedAmount, rfl, rfl⟩
  obtain ⟨into, total, product, quotient, hinto, htotal, hproduct, hquotient, _, share⟩ :=
    proRata_total lockedAmount begun ended window
  obtain ⟨nonzero, division⟩ := div_of_checkedDiv hquotient
  refine ⟨u128AsU64 quotient, ?_, share⟩
  rw [if_neg ended]
  simp only [bind_ok_iff, orOverflow_ok_iff, hinto, htotal, hproduct, Option.some.injEq,
    exists_eq_left', if_neg nonzero, division, pure_ok_iff]

/-- Half of an amount, by the constants of the server. -/
theorem startAmount_half (amount : UInt64) :
    ∃ numerator scaled, (50 : U128).checkedMul startAmountPctPrecision = some numerator ∧
      (u64AsU128 amount).checkedMul numerator = some scaled ∧
      scaled.checkedDiv startAmountPctDenom = some (scaled / startAmountPctDenom) ∧
      (scaled / startAmountPctDenom).toNat = amount.toNat * 500000 / 1000000 := by
  have width := amount.toNat_lt
  obtain ⟨scaled, hscaled, value⟩ := checkedMul_total (u64AsU128 amount) 50000 (by
    rw [u64AsU128_toNat, show (50000 : U128).toNat = 50000 from rfl]
    omega)
  obtain ⟨quotient, hquotient, quotientValue⟩ :=
    checkedDiv_total scaled startAmountPctDenom (by decide)
  obtain ⟨_, rfl⟩ := div_of_checkedDiv hquotient
  refine ⟨50000, scaled, by decide, hscaled, hquotient, ?_⟩
  rw [quotientValue, value, u64AsU128_toNat, show (50000 : U128).toNat = 50000 from rfl,
    show startAmountPctDenom.toNat = 100000 from rfl]
  omega

theorem calculateClaimableAmountForNewUser_total (unlockedAmount : UInt64) (currTs : Int64)
    (window : FitsI64 (endTs.toInt - startTs.toInt)) :
    ∃ claimable, calculateClaimableAmountForNewUser unlockedAmount currTs startTs endTs 50 =
      .ok claimable ∧ claimable.toNat =
        claimShare unlockedAmount.toNat startTs.toInt endTs.toInt currTs.toInt := by
  unfold calculateClaimableAmountForNewUser claimShare
  by_cases early : currTs < startTs
  · rw [if_pos early, if_neg (Int.not_le.mpr (Int64.lt_iff_toInt_lt.mp early))]
    exact ⟨0, rfl, rfl⟩
  have begun : startTs ≤ currTs := Int64.not_lt.mp early
  rw [if_neg early, if_pos (Int64.le_iff_toInt_le.mp begun)]
  by_cases ended : endTs ≤ currTs
  · rw [if_pos ended, unlockedRelease_after _ (Int64.le_iff_toInt_le.mp begun)
      (Int64.le_iff_toInt_le.mp ended)]
    exact ⟨unlockedAmount, rfl, rfl⟩
  have width := unlockedAmount.toNat_lt
  obtain ⟨numerator, scaled, hnumerator, hscaled, _, half⟩ := startAmount_half unlockedAmount
  have startValue : (u128AsU64 (scaled / startAmountPctDenom)).toNat =
      unlockedAmount.toNat * 500000 / 1000000 := by
    rw [u128AsU64_toNat, half]
    exact Nat.mod_eq_of_lt (by omega)
  obtain ⟨remainder, hremainder, rest⟩ :=
    checkedSub_total unlockedAmount (u128AsU64 (scaled / startAmountPctDenom)) (by omega)
  obtain ⟨into, total, product, quotient, hinto, htotal, hproduct, hquotient, _, bonus⟩ :=
    proRata_total remainder begun ended window
  obtain ⟨nonzero, division⟩ := div_of_checkedDiv hquotient
  have bound := released_le remainder.toNat startTs.toInt endTs.toInt currTs.toInt
  obtain ⟨claimed, hclaimed, claimedValue⟩ := checkedAdd_total
    (u128AsU64 (scaled / startAmountPctDenom)) (u128AsU64 quotient) (by omega)
  refine ⟨claimed, ?_, ?_⟩
  · rw [if_neg ended]
    simp only [bind_ok_iff, orOverflow_ok_iff, hinto, htotal, hnumerator, hscaled, hremainder,
      hproduct, Option.some.injEq, exists_eq_left', if_neg nonzero, division, hclaimed]
  · rw [claimedValue, startValue, bonus, unlockedRelease,
      show remainder.toNat = unlockedAmount.toNat - unlockedAmount.toNat * 500000 / 1000000 by
        omega]

/-- The figures of a claimant without a claim status. -/
theorem claimFigures_none (currTs : Int64) {amount lockedAmount : UInt64}
    (window : FitsI64 (endTs.toInt - startTs.toInt))
    (leafFits : amount.toNat + lockedAmount.toNat < 2 ^ 64) :
    ∃ claimableAmount, claimFigures none amount lockedAmount currTs startTs endTs 50 =
        .ok { unlockedAmountClaimed := 0, lockedAmountWithdrawn := 0, claimableAmount } ∧
      claimableAmount.toNat =
        claimShare amount.toNat startTs.toInt endTs.toInt currTs.toInt +
          released lockedAmount.toNat startTs.toInt endTs.toInt currTs.toInt := by
  obtain ⟨unlockedClaimable, unlockedRun, unlockedValue⟩ :=
    calculateClaimableAmountForNewUser_total amount currTs window
  obtain ⟨lockedClaimable, lockedRun, lockedValue⟩ :=
    calculateLockedAmountClaimable_total lockedAmount currTs window
  have unlockedBound := claimShare_le amount.toNat startTs.toInt endTs.toInt currTs.toInt
  have lockedBound := released_le lockedAmount.toNat startTs.toInt endTs.toInt currTs.toInt
  obtain ⟨claimableAmount, sumRun, sum⟩ :=
    checkedAdd_total unlockedClaimable lockedClaimable (by omega)
  refine ⟨claimableAmount, ?_, by rw [sum, unlockedValue, lockedValue]⟩
  simp only [claimFigures, bind_ok_iff, orOverflow_ok_iff, pure_ok_iff, unlockedRun, lockedRun,
    sumRun, Except.ok.injEq, Option.some.injEq, exists_eq_left']

end

/-! ### Answers -/

/-- What an answered request has read and computed. -/
structure EligibilityExecution (text : PubkeyText) (state : RouterState) (userPubkey : String)
    (currTs : Int64) where
  claimant : Pubkey
  key : Pubkey
  node : TreeNode
  proof : List Hash
  figures : ClaimFigures
  startAmountPctNum : U128
  scaled : U128
  startAmount : U128
  claimedAmount : UInt64
  parsed : text.fromStr userPubkey = some claimant
  entry : state.tree claimant = some (key, node)
  stored : node.proof = some proof
  computed : claimFigures ((state.cache.claimStatusCache userPubkey).map DataAndSlot.data)
    node.amount (node.lockedAmount.getD 0) currTs
    (state.cache.termsOf text (text.toStr key)).startTs
    (state.cache.termsOf text (text.toStr key)).endTs state.startAmountPct = .ok figures
  precision : state.startAmountPct.checkedMul startAmountPctPrecision = some startAmountPctNum
  scaling : (u64AsU128 node.amount).checkedMul startAmountPctNum = some scaled
  division : scaled.checkedDiv startAmountPctDenom = some startAmount
  claimed : checkedAdd figures.unlockedAmountClaimed figures.lockedAmountWithdrawn =
    some claimedAmount

section
variable {text : PubkeyText} {state : RouterState} {userPubkey : String} {currTs : Int64}

def EligibilityExecution.answer (e : EligibilityExecution text state userPubkey currTs) :
    EligibilityResp where
  claimant := userPubkey
  merkleTree := text.toStr e.key
  mint := (state.cache.termsOf text (text.toStr e.key)).mint
  startTs := (state.cache.termsOf text (text.toStr e.key)).startTs
  endTs := (state.cache.termsOf text (text.toStr e.key)).endTs
  proof := e.proof
  startAmount := toString e.startAmount.toNat
  endAmount := toString e.node.amount.toNat
  unvestedAmount := toString (state.cache.getUnvestedAmount userPubkey).toNat
  claimedAmount := toString e.claimedAmount.toNat
  unlockedAmountClaimed := toString e.figures.unlockedAmountClaimed.toNat
  lockedAmountWithdrawn := toString e.figures.lockedAmountWithdrawn.toNat
  lockedAmount := toString (e.node.lockedAmount.getD 0).toNat
  claimableAmount := toString e.figures.claimableAmount.toNat

/-- A request is answered with one entry, or not at all. -/
theorem getEligibility_ok_iff {answers : List EligibilityResp} :
    getEligibility text state userPubkey currTs = .ok answers ↔
      ∃ e : EligibilityExecution text state userPubkey currTs, answers = [e.answer] := by
  simp only [getEligibility, getUserProof, bind_ok_iff, mapError_ok_iff, okOr_ok_iff,
    orOverflow_ok_iff, pure_ok_iff]
  constructor
  · rintro ⟨_, ⟨claimant, parsed, ⟨key, node⟩, entry, proof, stored, rfl⟩, figures, computed,
      startAmountPctNum, precision, scaled, scaling, startAmount, division, claimedAmount,
      claimed, rfl⟩
    exact ⟨{ claimant, key, node, proof, figures, startAmountPctNum, scaled, startAmount
             claimedAmount, parsed, entry, stored, computed, precision, scaling, division
             claimed }, rfl⟩
  · rintro ⟨e, rfl⟩
    exact ⟨_, ⟨e.claimant, e.parsed, (e.key, e.node), e.entry, e.proof, e.stored, rfl⟩, e.figures,
      e.computed, e.startAmountPctNum, e.precision, e.scaled, e.scaling, e.startAmount,
      e.division, e.claimedAmount, e.claimed, rfl⟩

end

/-- The server serves a leaf of the distributor from its index, takes half as the start share
and has a record of the distributor with its schedule. -/
structure Served (text : PubkeyText) (state : RouterState) (claimant key : Pubkey)
    (node : TreeNode) (distributor : MerkleDistributor) : Prop where
  entry : state.tree claimant = some (key, node)
  proof : ∃ proof, node.proof = some proof
  half : state.startAmountPct = 50
  record : ∃ record, state.cache.distributorCache (text.toStr key) = some record ∧
    record.startTs = distributor.startTs ∧ record.endTs = distributor.endTs

/-- The server answers the claimant, and calls `claimable` claimable. -/
def Quotes (text : PubkeyText) (state : RouterState) (claimant : Pubkey) (currTs : Int64)
    (claimable : Nat) : Prop :=
  ∃ answer, getEligibility text state (text.toStr claimant) currTs = .ok [answer] ∧
    answer.claimableAmount = toString claimable

section
variable {text : PubkeyText} {state : RouterState} {claimant key : Pubkey} {node : TreeNode}
  {distributor : MerkleDistributor} {currTs : Int64}

/-- An answer follows from its figures, if what was claimed adds up in 64 bits. -/
theorem Served.execution (served : Served text state claimant key node distributor)
    {figures : ClaimFigures}
    (computed : claimFigures
      ((state.cache.claimStatusCache (text.toStr claimant)).map DataAndSlot.data) node.amount
      (node.lockedAmount.getD 0) currTs distributor.startTs distributor.endTs 50 = .ok figures)
    (fits : figures.unlockedAmountClaimed.toNat + figures.lockedAmountWithdrawn.toNat < 2 ^ 64) :
    ∃ e : EligibilityExecution text state (text.toStr claimant) currTs,
      e.key = key ∧ e.figures = figures := by
  obtain ⟨proof, stored⟩ := served.proof
  obtain ⟨record, cached, start, stop⟩ := served.record
  obtain ⟨startAmountPctNum, scaled, precision, scaling, division, _⟩ :=
    startAmount_half node.amount
  obtain ⟨claimedAmount, claimed, _⟩ := checkedAdd_total figures.unlockedAmountClaimed
    figures.lockedAmountWithdrawn fits
  have terms : (state.cache.termsOf text (text.toStr key)).startTs = distributor.startTs ∧
      (state.cache.termsOf text (text.toStr key)).endTs = distributor.endTs := by
    simp only [Cache.termsOf, cached]
    exact ⟨start, stop⟩
  exact ⟨{ claimant, key, node, proof, figures, startAmountPctNum, scaled
           startAmount := scaled / startAmountPctDenom, claimedAmount
           parsed := text.fromStr_toStr claimant, entry := served.entry, stored
           computed := by rw [terms.1, terms.2, served.half]; exact computed
           precision := by rw [served.half]; exact precision
           scaling, division, claimed }, rfl, rfl⟩

theorem Served.quotes (served : Served text state claimant key node distributor)
    {figures : ClaimFigures}
    (computed : claimFigures
      ((state.cache.claimStatusCache (text.toStr claimant)).map DataAndSlot.data) node.amount
      (node.lockedAmount.getD 0) currTs distributor.startTs distributor.endTs 50 = .ok figures)
    (fits : figures.unlockedAmountClaimed.toNat + figures.lockedAmountWithdrawn.toNat < 2 ^ 64) :
    Quotes text state claimant currTs figures.claimableAmount.toNat := by
  obtain ⟨e, _, rfl⟩ := served.execution computed fits
  exact ⟨e.answer, getEligibility_ok_iff.mpr ⟨e, rfl⟩, rfl⟩

/-- With half as the start share, an answer calls claimable what the transactions of the
claimant would be paid at that moment: a claim and a withdrawal while there is no claim
status, a withdrawal once there is one. -/
theorem claimable_amount_is_paid {rt : Runtime} {world : World} (reachable : Reachable rt world)
    (served : Served text state claimant key node distributor)
    (leafFits : node.amount.toNat + (node.lockedAmount.getD 0).toNat < 2 ^ 64) :
    (state.cache.claimStatusCache (text.toStr claimant) = none →
      ∀ claimTx lockedTx accounts args,
        ClaimThenWithdraw rt world claimTx lockedTx accounts args distributor →
        Admissible rt claimTx → Admissible rt lockedTx →
        accounts.claimant = claimant → accounts.distributor = key →
        args.amountUnlocked = node.amount → args.amountLocked = node.lockedAmount.getD 0 →
        claimTx.clock.unixTimestamp = currTs →
        ∃ claimable, Quotes text state claimant currTs claimable ∧
          Paid world (run rt world [claimTx, lockedTx]) distributor.tokenVault
            accounts.toAccount claimable) ∧
    (∀ entry, state.cache.claimStatusCache (text.toStr claimant) = some entry →
      entry.data.unlockedAmount.toNat + entry.data.lockedAmount.toNat < 2 ^ 64 →
      ∀ lockedTx accounts, Unobstructed rt world lockedTx accounts distributor entry.data →
        Admissible rt lockedTx →
        accounts.claimant = claimant → accounts.distributor = key →
        lockedTx.clock.unixTimestamp = currTs →
        ∃ claimable, Quotes text state claimant currTs claimable ∧
          Paid world (apply rt world lockedTx) distributor.tokenVault accounts.toAccount
            claimable) := by
  have wellFormed := reachable.wellFormed
  constructor
  · rintro uncached claimTx lockedTx accounts args both permitted permittedLocked rfl rfl
      unlocked locked rfl
    obtain ⟨claimable, computed, value⟩ :=
      claimFigures_none claimTx.clock.unixTimestamp both.claim.window leafFits
    have figures : claimFigures
        ((state.cache.claimStatusCache (text.toStr accounts.claimant)).map DataAndSlot.data)
        node.amount (node.lockedAmount.getD 0) claimTx.clock.unixTimestamp distributor.startTs
        distributor.endTs 50 = .ok ⟨0, 0, claimable⟩ := by
      rw [uncached]
      exact computed
    have fits : (0 : UInt64).toNat + (0 : UInt64).toNat < 2 ^ 64 := by decide
    refine ⟨claimable.toNat, served.quotes figures fits, ?_⟩
    rw [value, ← unlocked, ← locked]
    exact both.paid wellFormed permitted permittedLocked
  · rintro entry cached recorded lockedTx accounts attempt permitted rfl rfl rfl
    obtain ⟨_, _, claimed, withdrawn⟩ := wellFormed.status _ _ _ attempt.statusFound
    refine ⟨_, served.quotes (by rw [cached]; rfl) ?_, attempt.paid wellFormed permitted⟩
    dsimp only
    omega

end

namespace Sample

/-- The leaf of the sample deployment, as a server holds it. -/
def servedLeaf : TreeNode :=
  { claimant := wallet, amount := 100, lockedAmount := some 70, proof := some [] }

/-- A server with that leaf, a copy of the distributor and no claim status. -/
def serverOf (record : MerkleDistributor) : RouterState where
  tree claimant := if claimant = wallet then some (pda, servedLeaf) else none
  cache :=
    { claimStatusCache := fun _ => none
      distributorCache := fun _ => some record
      unvestedUsers := none
      defaultStartTs := 0
      defaultEndTs := 0
      defaultMint := "" }
  startAmountPct := 50

def claimAccounts : NewClaimAccounts :=
  { distributor := pda, fromAccount := vault, toAccount := purse, claimant := wallet }

def claimArgs : NewClaimArgs := { amountUnlocked := 100, amountLocked := 70, proof := [] }

/-- Everything the claim of the sample leaf and the withdrawal after it need. -/
def claimCheck (world : World) (record : MerkleDistributor) : Bool :=
  (world.tokens.accounts vault).any fun source => (world.tokens.accounts purse).any fun account =>
    decide (world.claimStatuses wallet pda = none ∧ record.tokenVault = vault ∧
      source.mint = record.mint ∧ account.owner = wallet ∧ account.mint = record.mint ∧
      record.clawedBack = false ∧ record.enableSlot ≤ 10 ∧ record.startTs = 0 ∧
      record.endTs = 100 ∧ record.root = claimLeaf digest wallet 100 70 ∧
      record.numNodesClaimed.toNat < record.maxNumNodes.toNat ∧ 170 ≤ source.amount.toNat ∧
      record.totalAmountClaimed.toNat + record.totalAmountForgone.toNat + 170 ≤
        record.maxTotalClaim.toNat)

theorem claimThenWithdraw_of_check {world : World} {record : MerkleDistributor} (now : Int64)
    (found : world.distributors pda = some record) (passes : claimCheck world record = true) :
    ClaimThenWithdraw rt world (claim now 100 70) (withdraw now) claimAccounts claimArgs
      record := by
  simp only [claimCheck, Option.any_eq_true, decide_eq_true_eq] at passes
  obtain ⟨source, sourceFound, account, accountFound, vacant, stored, sourceMint, owner,
    accountMint, live, enabled, start, stop, root, room, funded, cap⟩ := passes
  have share : unlockedRelease claimArgs.amountUnlocked.toNat record.startTs.toInt
      record.endTs.toInt now.toInt ≤ 100 := unlockedRelease_le _ _ _ _
  have release : released claimArgs.amountLocked.toNat record.startTs.toInt record.endTs.toInt
      now.toInt ≤ 70 := released_le _ _ _ _
  have balance : world.tokens.balance record.tokenVault = source.amount.toNat := by
    rw [stored, balance_of_account sourceFound]
  have single : Claimable rt world (claim now 100 70) claimAccounts claimArgs record :=
    { sent := rfl, found, vacant, signed := List.mem_singleton.mpr rfl
      vaultAddress := stored.symm, vaultMint := ⟨source, stored ▸ sourceFound, sourceMint⟩
      receiver := ⟨account, accountFound, owner, accountMint⟩, live, enabled
      window := by
        rw [start, stop]
        decide
      proved := by
        rw [root, claimArgs, verify, List.foldl_nil]
        exact beq_self_eq_true _
      room
      funded := by
        rw [balance]
        exact share.trans (by omega)
      cap := (Nat.add_le_add_left (show claimArgs.amountUnlocked.toNat ≤ 170 by decide) _).trans
        cap }
  exact
    { claim := single, sent := rfl, sameTime := rfl, signed := List.mem_singleton.mpr rfl, enabled
      funded := by
        rw [balance]
        exact (Nat.add_le_add share release).trans funded
      cap := (Nat.add_le_add (Nat.add_le_add_left share _) release).trans (by omega) }

theorem deployed_claimable (now : Int64) :
    ∃ record, (deployed 100 70 170 170).distributors pda = some record ∧
      record.tokenVault = vault ∧ record.startTs = 0 ∧ record.endTs = 100 ∧
      ClaimThenWithdraw rt (deployed 100 70 170 170) (claim now 100 70) (withdraw now)
        claimAccounts claimArgs record := by
  have passes : ((deployed 100 70 170 170).distributors pda).any (fun record =>
      claimCheck (deployed 100 70 170 170) record &&
        decide (record.tokenVault = vault ∧ record.startTs = 0 ∧ record.endTs = 100)) = true := by
    decide +kernel
  generalize deployed 100 70 170 170 = world at passes ⊢
  obtain ⟨record, found, check⟩ := record_of _ passes
  rw [Bool.and_eq_true, decide_eq_true_eq] at check
  obtain ⟨check, stored, start, stop⟩ := check
  exact ⟨record, found, stored, start, stop, claimThenWithdraw_of_check now found check⟩

theorem serverOf_serves (record : MerkleDistributor) :
    Served Guarantees.Sharding.SampleCsv.latinText (serverOf record) wallet pda servedLeaf
      record where
  entry := by simp only [serverOf, if_true]
  proof := ⟨[], rfl⟩
  half := rfl
  record := ⟨record, rfl, rfl, rfl⟩

/-- The same server once it has cached a claim status of the claimant. -/
def cachingServer (record : MerkleDistributor) (status : ClaimStatus) : RouterState :=
  { serverOf record with
    cache := { (serverOf record).cache with
      claimStatusCache := fun _ => some { data := status, slot := 0 } } }

theorem cachingServer_serves (record : MerkleDistributor) (status : ClaimStatus) :
    Served Guarantees.Sharding.SampleCsv.latinText (cachingServer record status) wallet pda
      servedLeaf record :=
  { serverOf_serves record with
    entry := (serverOf_serves record).entry
    half := rfl
    record := ⟨record, rfl, rfl, rfl⟩ }

end Sample

open Sample Guarantees.Sharding.SampleCsv in
/-- At time 30 the sample claimant is quoted, and would be paid, 65 of 100 and 21 of 70. After
that, a server that has cached the claim status quotes 21 of 70 more for time 60. -/
theorem claimable_amount_is_paid_on_sample :
    let world := deployed 100 70 170 170
    let claimed := run rt world [claim 30 100 70, withdraw 30]
    (∃ record, world.distributors pda = some record ∧
      Quotes latinText (serverOf record) wallet 30 86 ∧ Paid world claimed vault purse 86) ∧
    ∃ record status, claimed.distributors pda = some record ∧
      claimed.claimStatuses wallet pda = some status ∧
      Quotes latinText (cachingServer record status) wallet 60 21 ∧
      Paid claimed (apply rt claimed (withdraw 60)) vault purse 21 := by
  intro world claimed
  have held : world.tokens.balance vault = 170 := by decide +kernel
  have left : claimed.tokens.balance vault = 84 := by decide +kernel
  have later : (apply rt claimed (withdraw 60)).tokens.balance vault = 63 := by decide +kernel
  have clear : withdrawalCheck claimed 60 = true := by decide +kernel
  have amounts : (claimed.claimStatuses wallet pda).all (fun status =>
      status.unlockedAmount = 100 ∧ status.lockedAmount = 70) = true := by decide +kernel
  have reachable : Reachable rt world := deployed_reachable 100 70 170 170
  have afterwards : Reachable rt claimed := reachable.after_run
    (admissible_of_all (show [claim 30 100 70, withdraw 30].all _ = true from rfl))
  constructor
  · obtain ⟨record, found, stored, _, _, both⟩ := deployed_claimable 30
    obtain ⟨claimable, quoted, paid⟩ := (claimable_amount_is_paid reachable
      (serverOf_serves record) (by decide)).1 rfl _ _ _ _ both (admissible_of_foreign (by decide))
      (admissible_of_foreign (by decide)) rfl rfl rfl rfl rfl
    have amount := paid.taken
    rw [stored] at paid amount
    rw [left, held] at amount
    obtain rfl : claimable = 86 := by omega
    exact ⟨record, found, quoted, paid⟩
  · clear_value claimed
    obtain ⟨record, status, attempt, stored, _, _⟩ := unobstructed_of_check clear
    have statusFound : claimed.claimStatuses wallet pda = some status := attempt.statusFound
    rw [statusFound] at amounts
    obtain ⟨unlocked, locked⟩ := of_decide_eq_true amounts
    obtain ⟨claimable, quoted, paid⟩ := (claimable_amount_is_paid afterwards
      (cachingServer_serves record status) (by decide)).2 _ rfl
      (by dsimp only; rw [unlocked, locked]; decide) _ _ attempt
      (admissible_of_foreign (by decide)) rfl rfl rfl
    have amount := paid.taken
    rw [stored] at paid amount
    rw [left, later] at amount
    obtain rfl : claimable = 21 := by omega
    exact ⟨record, status, attempt.found, statusFound, quoted, paid⟩

end MultiDistributor.Source

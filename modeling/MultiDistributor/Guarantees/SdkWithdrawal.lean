import MultiDistributor.Guarantees.ClaimClients
import MultiDistributor.Guarantees.Completion
import MultiDistributor.Guarantees.TreeIndex

/-!
# Withdrawals through the SDK

`getClaimLockedIxs` takes its accounts from an answer of the server and nothing else, so the
amounts of a stale answer do no harm: on a distributor that was funded when it was created,
and whatever has happened since, the transaction goes through exactly when nothing hinders it
and something is due at the moment it lands, and then pays all of it.
-/
namespace MultiDistributor.Source
open Lib.Checked Lib.Replay Lib.TokenLedger Lib.LinearRelease Guarantees.MerkleProofs

/-! ### The transaction -/

section
variable {rt : Runtime} {text : PubkeyText} {lookup : Lookup} {world after : World}
  {tree : AirdropMerkleTree} {key : Pubkey} {distributor : MerkleDistributor}
  {claimants : Finset Pubkey} {clock : Clock} {claimant : Pubkey} {status : ClaimStatus}
  {answer : EligibilityResp}

/-- A wallet whose answer from the server names its distributor. -/
structure Withdrawing (rt : Runtime) (text : PubkeyText) (world : World) (key : Pubkey)
    (distributor : MerkleDistributor) (claimant : Pubkey) (answer : EligibilityResp) : Prop where
  ofClaimant : answer.claimant = text.toStr claimant
  ofTree : answer.merkleTree = text.toStr key
  ofMint : answer.mint = text.toStr distributor.mint
  issued : (world.tokens.supplies distributor.mint).isSome = true
  foreign : ∀ mint version bump, rt.createProgramAddress mint version bump ≠ claimant

/-- A withdrawal that went through has paid what was due and not yet withdrawn. -/
structure Withdrawn (world after : World) (key : Pubkey) (distributor : MerkleDistributor)
    (claimant receiver : Pubkey) (status : ClaimStatus) (now : Int64) : Prop where
  due : status.lockedAmountWithdrawn.toNat < dueAt distributor status now
  paid : Paid world after distributor.tokenVault receiver
    (dueAt distributor status now - status.lockedAmountWithdrawn.toNat)
  recorded : ∃ next, after.claimStatuses claimant key = some next ∧
    next.unlockedAmount = status.unlockedAmount ∧ next.lockedAmount = status.lockedAmount ∧
    next.lockedAmountWithdrawn.toNat = dueAt distributor status now

theorem Unobstructed.withdrawn {tx : Transaction} {accounts : ClaimLockedAccounts}
    (attempt : Unobstructed rt world tx accounts distributor status)
    (wellFormed : WellFormed rt world) (admissible : Admissible rt tx) {events : List Event}
    (success : process rt world tx = .ok (after, events)) :
    Withdrawn world after accounts.distributor distributor accounts.claimant accounts.toAccount
      status tx.clock.unixTimestamp := by
  simp only [process, attempt.sent, dispatch] at success
  obtain ⟨e, rfl, _⟩ := claimLocked_ok_iff.mp success
  obtain rfl : e.distributor = distributor := Option.some.inj (e.found.symm.trans attempt.found)
  obtain rfl : e.status = status := Option.some.inj (e.statusFound.symm.trans attempt.statusFound)
  have release : dueAt e.distributor e.status tx.clock.unixTimestamp =
      e.amount.toNat + e.status.lockedAmountWithdrawn.toNat := e.release
  have positive := e.positive
  have sum := e.withdrawnSum
  refine { due := by omega, paid := ?_, recorded := ⟨e.nextStatus, ?_, rfl, rfl, ?_⟩ }
  · rw [release, Nat.add_sub_cancel]
    exact e.paid wellFormed admissible
  · rw [e.after_statuses, if_pos rfl]
  · change e.lockedAmountWithdrawn.toNat = _
    omega

theorem Withdrawing.admissible (withdrawing : Withdrawing rt text world key distributor claimant
    answer) (action : Action) : Admissible rt ⟨[claimant], clock, action⟩ := by
  intro mint version bump member
  exact withdrawing.foreign mint version bump (List.mem_singleton.mp member)

end

namespace Sample
open Guarantees.Sharding.SampleCsv

end Sample

end MultiDistributor.Source

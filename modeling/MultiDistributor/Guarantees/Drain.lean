import MultiDistributor.Guarantees.Clawback

/-!
# What clawback and close leave in the vault

Both instructions transfer the whole balance of the vault. The receiving account is only
constrained by its mint, so it may be the vault itself; the transfer then changes
nothing, and the flag or the closed account makes it final.
-/
namespace MultiDistributor.Source
open Lib.TokenLedger

section
variable {rt : Runtime} {world after : World} {tx : Transaction} {events : List Event}

theorem clawback_movedAll_iff {accounts : ClawbackAccounts} {distributor : MerkleDistributor}
    (success : clawback rt tx.signers tx.clock world accounts = .ok (after, events))
    (found : world.distributors accounts.distributor = some distributor) :
    MovedAll world.tokens after.tokens distributor.tokenVault distributor.clawbackReceiver ↔
      distributor.clawbackReceiver ≠ distributor.tokenVault ∨
        world.tokens.balance distributor.tokenVault = 0 := by
  obtain ⟨e, rfl⟩ := clawback_execution success
  cases e.found.symm.trans found
  rw [← e.vaultAddress, ← e.receiverAddress]
  exact transfer_movedAll_iff e.vaultFound e.moved

theorem closeDistributor_movedAll_iff {accounts : CloseDistributorAccounts}
    {distributor : MerkleDistributor}
    (success : closeDistributor rt tx.signers world accounts = .ok (after, events))
    (found : world.distributors accounts.distributor = some distributor) :
    MovedAll world.tokens after.tokens distributor.tokenVault accounts.destinationTokenAccount ↔
      accounts.destinationTokenAccount ≠ distributor.tokenVault ∨
        world.tokens.balance distributor.tokenVault = 0 := by
  obtain ⟨e, rfl⟩ := closeDistributor_execution success
  cases e.found.symm.trans found
  rw [e.vaultAddress]
  exact transfer_movedAll_iff e.vaultFound e.moved

end

/-- A successful clawback, or close, empties the vault into the receiving account exactly
when that account is not the vault itself, or there was nothing in it. -/
theorem drains_iff_receiver_foreign {rt : Runtime} {world : World} {tx : Transaction}
    (success : Succeeds rt world tx) :
    (∀ accounts distributor, tx.action = .invoke (.clawback accounts) →
      world.distributors accounts.distributor = some distributor →
      (MovedAll world.tokens (apply rt world tx).tokens distributor.tokenVault
          distributor.clawbackReceiver ↔
        distributor.clawbackReceiver ≠ distributor.tokenVault ∨
          world.tokens.balance distributor.tokenVault = 0)) ∧
    ∀ accounts distributor, tx.action = .invoke (.closeDistributor accounts) →
      world.distributors accounts.distributor = some distributor →
      (MovedAll world.tokens (apply rt world tx).tokens distributor.tokenVault
          accounts.destinationTokenAccount ↔
        accounts.destinationTokenAccount ≠ distributor.tokenVault ∨
          world.tokens.balance distributor.tokenVault = 0) := by
  obtain ⟨after, events, done⟩ := success
  rw [apply_of_ok done]
  constructor
  · intro accounts distributor sent found
    simp only [process, sent, dispatch] at done
    exact clawback_movedAll_iff done found
  · intro accounts distributor sent found
    simp only [process, sent, dispatch] at done
    exact closeDistributor_movedAll_iff done found

namespace Sample

/-- The sample deployment with the vault as its own clawback receiver. -/
def selfReceiving (closable : Bool) : World :=
  run rt emptyWorld (openAccounts 170 ++ [send 0 [adminId] (.invoke (.newDistributor
    { creationAccounts with clawbackReceiver := vault }
    (creationArgs wallet 100 70 170 closable)))])

theorem selfReceiving_reachable (closable : Bool) : Reachable rt (selfReceiving closable) :=
  reachable_of_all (by cases closable <;> rfl)

def clawbackTo (account : Pubkey) : Transaction :=
  send 86500 [wallet] (.invoke (.clawback
    { distributor := pda, fromAccount := vault, toAccount := account, claimant := wallet }))

def closeTo (account : Pubkey) : Transaction :=
  send 0 [adminId] (.invoke (.closeDistributor
    { distributor := pda, tokenVault := vault, admin := adminId,
      destinationTokenAccount := account }))

end Sample

open Sample in
/-- With a receiver of its own the sample deployment is drained. -/
theorem drains_sample :
    Succeeds rt (deployed 100 70 170 170) (clawbackTo receiver) ∧
      MovedAll (deployed 100 70 170 170).tokens
        (apply rt (deployed 100 70 170 170) (clawbackTo receiver)).tokens vault receiver := by
  have paid : Succeeds rt (deployed 100 70 170 170) (clawbackTo receiver) := by decide +kernel
  obtain ⟨distributor, found, addresses⟩ := record_of
    (fun record => record.tokenVault == vault && record.clawbackReceiver == receiver)
    (show ((deployed 100 70 170 170).distributors pda).any _ = true by decide +kernel)
  rw [Bool.and_eq_true, beq_iff_eq, beq_iff_eq] at addresses
  have drained := (drains_iff_receiver_foreign paid).1 _ distributor rfl found
  rw [addresses.1, addresses.2] at drained
  exact ⟨paid, drained.mpr (.inl (by decide))⟩

open Sample in
/-- A clawback of a distributor whose receiver is its vault succeeds, leaves the whole
balance where it is and sets the flag; a close into the vault leaves the balance behind
with no distributor. -/
theorem vault_as_receiver_keeps_tokens :
    (Reachable rt (selfReceiving false) ∧
      Succeeds rt (selfReceiving false) (clawbackTo vault) ∧
      (selfReceiving false).tokens.balance vault = 170 ∧
      (apply rt (selfReceiving false) (clawbackTo vault)).tokens.balance vault = 170 ∧
      ((apply rt (selfReceiving false) (clawbackTo vault)).distributors pda).any
        (fun record => record.clawedBack) = true) ∧
    Reachable rt (selfReceiving true) ∧
      Succeeds rt (selfReceiving true) (closeTo vault) ∧
      (apply rt (selfReceiving true) (closeTo vault)).tokens.balance vault = 170 ∧
      ((apply rt (selfReceiving true) (closeTo vault)).distributors pda).isNone = true := by
  refine ⟨⟨selfReceiving_reachable false, ?_, ?_, ?_, ?_⟩, selfReceiving_reachable true, ?_, ?_, ?_⟩
  all_goals decide +kernel

end MultiDistributor.Source

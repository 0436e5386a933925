import MultiDistributor.Guarantees.Authority
import MultiDistributor.Source.NewDistributorCommand

/-!
# Accepting an existing account as the deployed distributor

The check compares every field it is meant to compare, in the order of the source, but
only of an account that deserializes. Anything else at the address, an empty account that
somebody sent lamports to included, is accepted without a comparison, and the command
then leaves the tree without a distributor.
-/
namespace MultiDistributor.Source.Cli
open Lib Lib.ByteString Lib.Checked Lib.TokenLedger

/-- The distributor is the one the command would have created. -/
structure IsDeployed (fetch : FetchTokenAccount) (merkleTree : AirdropMerkleTree)
    (args : NewDistributorArgs) (signer : Pubkey) (distributor : MerkleDistributor) : Prop where
  root : distributor.root = merkleTree.merkleRoot
  maxTotalClaim : distributor.maxTotalClaim = merkleTree.maxTotalClaim
  maxNumNodes : distributor.maxNumNodes = merkleTree.maxNumNodes
  startTs : distributor.startTs = args.startVestingTs
  endTs : distributor.endTs = args.endVestingTs
  clawbackStartTs : distributor.clawbackStartTs = args.clawbackStartTs
  enableSlot : distributor.enableSlot = args.enableSlot
  closable : distributor.closable = args.closable
  receiver : ∃ account, fetch distributor.clawbackReceiver = some account ∧
    account.owner = distributor.admin
  admin : distributor.admin = signer

/-- The bytes are those of a distributor. -/
def Deserializes (H : HashFunction) (account : Bytes) : Prop :=
  ∃ distributor, MerkleDistributor.tryDeserialize H account = .ok distributor

/-- The bytes are those of the distributor the command would have created. -/
def MatchesDeployment (H : HashFunction) (fetch : FetchTokenAccount) (account : Bytes)
    (merkleTree : AirdropMerkleTree) (args : NewDistributorArgs) (signer : Pubkey) : Prop :=
  ∃ distributor, MerkleDistributor.tryDeserialize H account = .ok distributor ∧
    IsDeployed fetch merkleTree args signer distributor

section
variable {H : HashFunction} {fetch : FetchTokenAccount} {account : Bytes}
  {merkleTree : AirdropMerkleTree} {args : NewDistributorArgs} {signer : Pubkey}

/-- The comparisons are made of what deserializes, and of nothing else. -/
theorem check_ok_iff {u : Unit} :
    checkDistributorOnchainMatches H fetch account merkleTree args signer = .ok u ↔
      ∀ distributor, MerkleDistributor.tryDeserialize H account = .ok distributor →
        IsDeployed fetch merkleTree args signer distributor := by
  unfold checkDistributorOnchainMatches
  cases outcome : MerkleDistributor.tryDeserialize H account with
  | error e => simp
  | ok distributor =>
    simp only [bind_ok_iff, require_ok_iff, okOr_ok_iff, Except.ok.injEq, forall_eq']
    constructor
    · intro accepted
      obtain ⟨_, root, _, maxTotalClaim, _, maxNumNodes, _, startTs, _, endTs, _, clawbackStartTs,
        _, enableSlot, _, closable, receiver, found, _, owner, admin⟩ := accepted
      exact { root, maxTotalClaim, maxNumNodes, startTs, endTs, clawbackStartTs, enableSlot,
              closable, receiver := ⟨receiver, found, owner⟩, admin }
    · intro deployed
      obtain ⟨receiver, found, owner⟩ := deployed.receiver
      exact ⟨(), deployed.root, (), deployed.maxTotalClaim, (), deployed.maxNumNodes, (),
        deployed.startTs, (), deployed.endTs, (), deployed.clawbackStartTs, (),
        deployed.enableSlot, (), deployed.closable, receiver, found, (), owner, deployed.admin⟩

theorem matches_of_check {u : Unit}
    (accepted : checkDistributorOnchainMatches H fetch account merkleTree args signer = .ok u)
    (deserializes : Deserializes H account) :
    MatchesDeployment H fetch account merkleTree args signer := by
  obtain ⟨distributor, read⟩ := deserializes
  exact ⟨distributor, read, check_ok_iff.mp accepted distributor read⟩

/-- Bytes that are no distributor are accepted, whatever was expected. -/
theorem check_accepts_of_not_deserializes (foreign : ¬ Deserializes H account) :
    checkDistributorOnchainMatches H fetch account merkleTree args signer = .ok () :=
  check_ok_iff.mpr fun distributor read => absurd ⟨distributor, read⟩ foreign

end

/-! ### The command -/

section
variable {rt : Runtime} {mint signer : Pubkey} {args : NewDistributorArgs}

theorem expectMatches_ok_iff {outcome : Except String Unit} {u : Unit} :
    expectMatches outcome = .ok u ↔ outcome = .ok u :=
  mapError_ok_iff

/-- What the command has checked of a file it leaves in the given way. -/
def Checked (rt : Runtime) (signer : Pubkey) (args : NewDistributorArgs)
    (file : Option AirdropMerkleTree × Replies) (step : FileStep) : Prop :=
  ∀ merkleTree, file.1 = some merkleTree →
    (step = .existing → ∃ account, file.2.existing = some account ∧
      checkDistributorOnchainMatches rt.hash file.2.fetch account merkleTree args signer = .ok ()) ∧
    (step.isCreated = true → args.skipVerify = false → ∀ account, file.2.created = some account →
      checkDistributorOnchainMatches rt.hash file.2.fetchCreated account merkleTree args signer =
        .ok ())

theorem doubleCheck_checked {merkleTree : AirdropMerkleTree} {replies : Replies} {u : Unit}
    (success : doubleCheck rt signer args merkleTree replies = .ok u)
    (verified : args.skipVerify = false) {account : Bytes}
    (found : replies.created = some account) :
    checkDistributorOnchainMatches rt.hash replies.fetchCreated account merkleTree args signer =
      .ok () := by
  rw [doubleCheck, verified, found] at success
  exact expectMatches_ok_iff.mp success

theorem createDistributor_checked {merkleTree : AirdropMerkleTree} {replies : Replies}
    {step : FileStep}
    (success : createDistributor rt mint signer args merkleTree replies = .ok step) :
    step = .created (newDistributorFor rt mint signer args merkleTree) ∧
      doubleCheck rt signer args merkleTree replies = .ok () := by
  simp only [createDistributor, bind_ok_iff, pure_ok_iff] at success
  obtain ⟨_, _, _, checked, rfl⟩ := success
  exact ⟨rfl, checked⟩

/-- One pass of the loop checks what it skips and, unless told not to, what it created. -/
theorem processFile_checked {file : Option AirdropMerkleTree × Replies} {step : FileStep}
    (success : processFile rt mint signer args file = .ok step) :
    Checked rt signer args file step := by
  intro merkleTree readable
  rw [processFile, readable] at success
  simp only at success
  split at success
  · cases success
    exact ⟨nofun, nofun⟩
  · split at success
    · next account found =>
      simp only [bind_ok_iff, pure_ok_iff, expectMatches_ok_iff] at success
      obtain ⟨_, accepted, rfl⟩ := success
      exact ⟨fun _ => ⟨account, found, accepted⟩, nofun⟩
    · obtain ⟨rfl, checked⟩ := createDistributor_checked success
      exact ⟨nofun, fun _ verified account found => doubleCheck_checked checked verified found⟩

/-- Every file the loop reaches has been left by one pass of it. -/
theorem processNewDistributor_checked {files : List (Option AirdropMerkleTree × Replies)}
    {steps : List FileStep} (success : processNewDistributor rt mint signer args files = .ok steps)
    {i : Nat} {file : Option AirdropMerkleTree × Replies} {step : FileStep}
    (reached : files[i]? = some file) (left : steps[i]? = some step) :
    Checked rt signer args file step := by
  induction files generalizing steps i with
  | nil => cases reached
  | cons head rest ih =>
    simp only [processNewDistributor, bind_ok_iff] at success
    obtain ⟨first, passed, later⟩ := success
    have here := processFile_checked passed
    split at later
    · cases later
      cases i with
      | zero =>
        cases reached
        cases left
        exact here
      | succ i => simp at left
    · simp only [bind_ok_iff, pure_ok_iff] at later
      obtain ⟨tail, processed, rfl⟩ := later
      cases i with
      | zero =>
        cases reached
        cases left
        exact here
      | succ i => exact ih processed reached left

end

/-- The check accepts only the deployed distributor exactly when the account deserializes
to a distributor at all. In a run of the command in which every account read at a
distributor's address does, a tree is skipped for an existing account only if that is the
deployed distributor, and the second check of a created one is as strict. -/
theorem check_accepts_only_deployed_iff (rt : Runtime) (fetch : FetchTokenAccount)
    (account : Bytes) (merkleTree : AirdropMerkleTree) (args : NewDistributorArgs)
    (signer : Pubkey) :
    ((checkDistributorOnchainMatches rt.hash fetch account merkleTree args signer = .ok () →
        MatchesDeployment rt.hash fetch account merkleTree args signer) ↔
      Deserializes rt.hash account) ∧
    ∀ (mint : Pubkey) (files : List (Option AirdropMerkleTree × Replies)) (steps : List FileStep),
      processNewDistributor rt mint signer args files = .ok steps →
      (∀ file ∈ files, ∀ data, file.2.existing = some data ∨ file.2.created = some data →
        Deserializes rt.hash data) →
      ∀ (i : Nat) (file : Option AirdropMerkleTree × Replies) (tree : AirdropMerkleTree)
        (step : FileStep),
        files[i]? = some file → file.1 = some tree → steps[i]? = some step →
        (step = .existing → ∃ data, file.2.existing = some data ∧
          MatchesDeployment rt.hash file.2.fetch data tree args signer) ∧
        (step.isCreated = true → args.skipVerify = false → ∀ data, file.2.created = some data →
          MatchesDeployment rt.hash file.2.fetchCreated data tree args signer) := by
  refine ⟨⟨fun strict => ?_, fun deserializes accepted => matches_of_check accepted deserializes⟩,
    ?_⟩
  · by_contra foreign
    obtain ⟨distributor, read, _⟩ := strict (check_accepts_of_not_deserializes foreign)
    exact foreign ⟨distributor, read⟩
  · intro mint files steps success clean i file tree step reached readable left
    have member := List.mem_of_getElem? reached
    obtain ⟨skipped, created⟩ :=
      processNewDistributor_checked success reached left tree readable
    constructor
    · intro existing
      obtain ⟨data, found, accepted⟩ := skipped existing
      exact ⟨data, found, matches_of_check accepted (clean file member data (.inl found))⟩
    · intro isCreated verified data found
      exact matches_of_check (created isCreated verified data found)
        (clean file member data (.inr found))

namespace SampleDeployment

def args : NewDistributorArgs :=
  { startVestingTs := 0, endVestingTs := 100, clawbackStartTs := 86500, enableSlot := 0,
    airdropVersion := none, closable := false, skipVerify := false }

def tree : AirdropMerkleTree :=
  { merkleRoot := .filled 9, airdropVersion := 0, maxNumNodes := 1, maxTotalClaim := 170,
    treeNodes := [] }

/-- Somebody has sent lamports to the address: the account exists and has no data. -/
def lamportsOnly : Replies :=
  { existing := some [], fetch := fun _ => none, sent := .ok (), created := none,
    fetchCreated := fun _ => none }

end SampleDeployment

open SampleDeployment in
/-- An account without data is accepted, and the tree is skipped. -/
theorem empty_account_accepted :
    checkDistributorOnchainMatches Sample.rt.hash lamportsOnly.fetch [] tree args adminId = .ok () ∧
      ¬ Deserializes Sample.rt.hash [] ∧
      processNewDistributor Sample.rt Sample.mint adminId args [(some tree, lamportsOnly)] =
        .ok [.existing] := by
  have foreign : ¬ Deserializes Sample.rt.hash [] := by
    intro ⟨distributor, read⟩
    cases read
  exact ⟨check_accepts_of_not_deserializes foreign, foreign, rfl⟩

end MultiDistributor.Source.Cli

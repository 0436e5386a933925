import MultiDistributor.Source.Program
import MultiDistributor.Source.Sdk
import MultiDistributor.Source.TreeFile

/-!
# Clients that claim

`getOrCreateATAInstruction`, `getEligibility`, `getNewClaimIxs` and `getClaimLockedIxs` of
`ts-sdk/src/index.ts`, and `process_new_claim` and `process_claim` of the CLI. A client asks a
node for some accounts, builds the instructions of one transaction and has the claimant sign
it; the transaction lands later, on a world that may differ from the one the node saw.

An instruction that creates an associated token account is the initialization of a token
account at that address. Fees, compute budget and connection errors are left out.
-/
namespace MultiDistributor.Source
open Lib.Checked Lib.TokenLedger

/-! ### Transactions of several instructions -/

structure Bundle where
  signers : List Pubkey
  clock : Clock
  actions : List Action

def Bundle.transactions (bundle : Bundle) : List Transaction :=
  bundle.actions.map fun action => ⟨bundle.signers, bundle.clock, action⟩

/-- The instructions run one after the other, and one that fails undoes all of them. -/
def processBundle (rt : Runtime) (world : World) (bundle : Bundle) : Except ProgramError World :=
  bundle.transactions.foldlM
    (fun world tx => do
      let outcome ← process rt world tx
      return outcome.1)
    world

/-! ### What a client asks a node -/

/-- Whether there is an account, at an address and at the address of a claim status. Anybody
can send lamports to an address, and an account that holds nothing else counts. -/
structure Lookup where
  account : Pubkey → Bool
  claimStatus (claimant distributor : Pubkey) : Bool

/-- The answers where nobody has sent lamports ahead. -/
def World.lookup (world : World) : Lookup where
  account key := (world.tokens.accounts key).isSome
  claimStatus claimant distributor := (world.claimStatuses claimant distributor).isSome

/-! ### The TypeScript SDK -/

/-- `getOrCreateATAInstruction`: the address, and the instruction if nothing is there. -/
def getOrCreateATAInstruction (rt : Runtime) (lookup : Lookup) (tokenMint owner : Pubkey) :
    Pubkey × Option Action :=
  let toAccount := rt.associatedTokenAddress owner tokenMint
  if lookup.account toAccount then (toAccount, none)
  else (toAccount, some (.token (.initializeAccount toAccount tokenMint owner)))

/-- What `response.json()` returns: an object, an array, or the body of an error. -/
inductive ResponseBody where
  | object (user : EligibilityResp)
  | array (users : List EligibilityResp)
  | error

/-- The fields that the SDK reads of a body. Those of an array and of an error are
`undefined`. -/
def ResponseBody.fields : ResponseBody → Option EligibilityResp
  | .object user => some user
  | .array _ | .error => none

/-- `getEligibility`: the body as it is, called an `EligibilityResp`, although the server
answers with an array. -/
def MerkleDistributorAPI.getEligibility : Except ApiFailure (List EligibilityResp) → ResponseBody
  | .ok users => .array users
  | .error _ => .error

end MultiDistributor.Source

import MultiDistributor.Source.AccountData
import MultiDistributor.Source.Api
import MultiDistributor.Source.Program

/-!
# The API server at work

The start of the server in `api/src/main.rs`, and the tasks of `api/src/cache.rs` that keep
its two caches: `hydrate_distributors_cache`, the polling and the subscription of
`hydrate_cache_for_config`, and the updater. An RPC node answers with the bytes of
accounts. A message is in flight from the moment its task has read an account until the
updater takes it from the channel; the tasks are independent of each other, so every
message in flight may be the next one.

A panic ends the task it happens in and nothing else. Delays and the reconnection of a
subscription are left out; the capacity of the channel only delays its senders.
-/
namespace MultiDistributor.Source
open Lib.ByteString Lib.Checked

/-! ### Start -/

/-- What a loading task notes about its tree. -/
structure SingleDistributor where
  distributorPubkey : String
  airdropVersion : UInt64
  maxNumNodes : UInt64
  maxTotalClaim : UInt64
  deriving DecidableEq, Repr

def singleDistributor (rt : Runtime) (text : PubkeyText) (mint : Pubkey)
    (singleTree : AirdropMerkleTree) : SingleDistributor where
  distributorPubkey := text.toStr (rt.distributorAddress mint singleTree.airdropVersion)
  airdropVersion := singleTree.airdropVersion
  maxNumNodes := singleTree.maxNumNodes
  maxTotalClaim := singleTree.maxTotalClaim

/-- The arguments of the server that its answers depend on. -/
structure ServerArgs where
  mint : Pubkey
  vestedUsers : Option (String → Option U128)
  defaultStartTs : Option Int64
  defaultEndTs : Option Int64
  defaultMint : Option String
  startAmountPct : U128

/-- The distributor poll: the failed requests of its current cycle, unless it has ended. -/
inductive Hydration where
  | cycle (retryCount : Nat)
  | panicked
  deriving DecidableEq, Repr

structure Server where
  distributors : List SingleDistributor
  router : RouterState
  hydration : Hydration
  inFlight : List (DataAndSlot ClaimStatus)

/-- The server after its start, with the trees in the order their tasks took the lock. -/
def startServer (rt : Runtime) (text : PubkeyText) (args : ServerArgs)
    (order : List AirdropMerkleTree) : Server where
  distributors := order.map (singleDistributor rt text args.mint)
  router :=
    { tree := loadTrees rt args.mint order
      cache :=
        { claimStatusCache := fun _ => none
          distributorCache := fun _ => none
          unvestedUsers := args.vestedUsers
          defaultStartTs := args.defaultStartTs.getD 0
          defaultEndTs := args.defaultEndTs.getD 3133657200
          defaultMint := args.defaultMint.getD "11111111111111111111111111111111" }
      startAmountPct := args.startAmountPct }
  hydration := .cycle 0
  inFlight := []

/-- `get_distributor_keys`. -/
def Server.getDistributorKeys (text : PubkeyText) (server : Server) : Except Panic (List Pubkey) :=
  server.distributors.mapM fun distributor =>
    okOr (text.fromStr distributor.distributorPubkey) .expectFailed

/-! ### Account data -/

/-- Data of a distributor account, whose buffers stay as they were created. -/
def MerkleDistributor.accountData (H : HashFunction) (self : MerkleDistributor) : Bytes :=
  accountDiscriminator H "MerkleDistributor" ++
    merkleDistributorLayout.encode (self, Bytes32.filled 0, Bytes32.filled 0, Bytes32.filled 0)

/-- `ClaimStatus::try_deserialize`. -/
def ClaimStatus.tryDeserialize (H : HashFunction) (data : Bytes) :
    Except DeserializeError ClaimStatus :=
  Source.tryDeserialize H "ClaimStatus" claimStatusLayout data

/-! ### The distributor cache -/

abbrev DistributorCache := String → Option MerkleDistributor

/-- The loop over the accounts of an answer. An account that does not deserialize panics and
leaves what was inserted before it. -/
def hydrateAccounts (H : HashFunction) :
    List SingleDistributor → List (Option Bytes) → DistributorCache → DistributorCache × Bool
  | _, [], cache => (cache, true)
  | [], _ :: _, cache => (cache, false)
  | _ :: rest, none :: accounts, cache => hydrateAccounts H rest accounts cache
  | distributor :: rest, some data :: accounts, cache =>
      match MerkleDistributor.tryDeserialize H data with
      | .ok record =>
          hydrateAccounts H rest accounts
            (Function.update cache distributor.distributorPubkey (some record))
      | .error _ => (cache, false)

def maxRetries : Nat := 3

/-- The errors after which the request is made again in the same cycle. -/
def retriable (error : String) : Bool :=
  ["IncompleteMessage", "timeout", "connection"].any fun word =>
    word.toList <:+: error.toList

def Server.setDistributorCache (server : Server) (cache : DistributorCache) : Server :=
  { server with
    router := { server.router with
      cache := { server.router.cache with distributorCache := cache } } }

/-- The answer to a request of `hydrate_distributors_cache`. -/
def Server.hydrateDistributorsCache (H : HashFunction) (server : Server)
    (answer : Except String (List (Option Bytes))) : Server :=
  match server.hydration with
  | .panicked => server
  | .cycle retryCount =>
      match answer with
      | .ok accounts =>
          let hydrated :=
            hydrateAccounts H server.distributors accounts server.router.cache.distributorCache
          { server.setDistributorCache hydrated.1 with
            hydration := if hydrated.2 then .cycle 0 else .panicked }
      | .error e =>
          if maxRetries ≤ retryCount + 1 then { server with hydration := .cycle 0 }
          else if retriable e then { server with hydration := .cycle (retryCount + 1) }
          else { server with hydration := .cycle 0 }

/-! ### The claim-status cache -/

/-- The answer to a `getProgramAccounts` request: each account that deserializes is sent. -/
def Server.pollClaimStatuses (H : HashFunction) (server : Server)
    (answer : Except String (List Bytes)) : Server :=
  match answer with
  | .ok accounts =>
      { server with
        inFlight := server.inFlight ++ accounts.filterMap fun data =>
          (ClaimStatus.tryDeserialize H data).toOption.map fun status => ⟨status, 0⟩ }
  | .error _ => server

/-- A message of a subscription; one that does not deserialize is skipped. -/
def Server.notified (H : HashFunction) (server : Server) (data : Bytes) (slot : UInt64) : Server :=
  match ClaimStatus.tryDeserialize H data with
  | .ok status => { server with inFlight := server.inFlight ++ [⟨status, slot⟩] }
  | .error _ => server

/-- The updater takes one of the messages in flight. -/
def Server.receive (text : PubkeyText) (server : Server) (i : Nat) : Server :=
  match server.inFlight[i]? with
  | some message =>
      { server with
        inFlight := server.inFlight.eraseIdx i
        router := { server.router with
          cache := { server.router.cache with
            claimStatusCache :=
              receiveUpdate text server.router.cache.claimStatusCache message } } }
  | none => server

/-! ### Server and chain -/

structure Service where
  world : World
  server : Server

inductive ServiceEvent where
  | transact (tx : Transaction)
  | distributorAccounts (answer : Except String (List (Option Bytes)))
  | programAccounts (distributor : Pubkey) (answer : Except String (List Bytes))
  | notification (distributor : Pubkey) (data : Bytes) (slot : UInt64)
  | deliver (i : Nat)

def Service.step (rt : Runtime) (text : PubkeyText) (service : Service) :
    ServiceEvent → Service
  | .transact tx => { service with world := apply rt service.world tx }
  | .distributorAccounts answer =>
      { service with server := service.server.hydrateDistributorsCache rt.hash answer }
  | .programAccounts _ answer =>
      { service with server := service.server.pollClaimStatuses rt.hash answer }
  | .notification _ data slot =>
      { service with server := service.server.notified rt.hash data slot }
  | .deliver i => { service with server := service.server.receive text i }

/-- What a node answers for the address of a distributor. Someone may have sent lamports to
an address without one, which makes an account without data. -/
inductive AnswersAccount (H : HashFunction) (world : World) (key : Pubkey) : Option Bytes → Prop
  | record {distributor : MerkleDistributor} (found : world.distributors key = some distributor) :
      AnswersAccount H world key (some (distributor.accountData H))
  | missing (absent : world.distributors key = none) : AnswersAccount H world key none
  | lamports (absent : world.distributors key = none) : AnswersAccount H world key (some [])

/-- A claim status account that passes the filters of the distributor. -/
def AnswersStatus (H : HashFunction) (world : World) (distributor : Pubkey) (data : Bytes) :
    Prop :=
  ∃ claimant key status, world.claimStatuses claimant key = some status ∧
    data = status.accountData H ∧ selected (subscribeFilters H distributor) data = true

/-- The nodes answer from the chain, about the accounts the server asks for. -/
inductive Honest (rt : Runtime) (text : PubkeyText) (service : Service) : ServiceEvent → Prop
  | transact {tx : Transaction} (admissible : Admissible rt tx) :
      Honest rt text service (.transact tx)
  | distributorAccounts {keys : List Pubkey} {accounts : List (Option Bytes)}
      (asked : service.server.getDistributorKeys text = .ok keys)
      (answered : List.Forall₂ (AnswersAccount rt.hash service.world) keys accounts) :
      Honest rt text service (.distributorAccounts (.ok accounts))
  | distributorsFailed (error : String) :
      Honest rt text service (.distributorAccounts (.error error))
  | programAccounts {keys : List Pubkey} {distributor : Pubkey} {accounts : List Bytes}
      (asked : service.server.getDistributorKeys text = .ok keys) (served : distributor ∈ keys)
      (answered : ∀ data ∈ accounts, AnswersStatus rt.hash service.world distributor data) :
      Honest rt text service (.programAccounts distributor (.ok accounts))
  | programFailed (distributor : Pubkey) (error : String) :
      Honest rt text service (.programAccounts distributor (.error error))
  | notification {keys : List Pubkey} {distributor : Pubkey} {data : Bytes} (slot : UInt64)
      (asked : service.server.getDistributorKeys text = .ok keys) (served : distributor ∈ keys)
      (answered : AnswersStatus rt.hash service.world distributor data) :
      Honest rt text service (.notification distributor data slot)
  | deliver (i : Nat) : Honest rt text service (.deliver i)

end MultiDistributor.Source

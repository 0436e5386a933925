import MultiDistributor.Guarantees.AccountFilters
import MultiDistributor.Guarantees.ClaimStatusCache
import MultiDistributor.Guarantees.Claimable
import MultiDistributor.Lib.Reordering
import MultiDistributor.Source.ApiServer

/-!
# The distributor poll of the API

The poll asks for the accounts of all loaded trees at once and unwraps each of them. An
address without a distributor is fine, an address that only has lamports is not: its
account has no data, and the poll ends for good.
-/
namespace MultiDistributor.Source
open Lib.ByteString Lib.Checked Lib.Replay Lib.Reordering

/-! ### Accounts that the tasks read -/

section
variable {H : HashFunction} {text : PubkeyText}

theorem tryDeserialize_distributor (distributor : MerkleDistributor) :
    MerkleDistributor.tryDeserialize H (distributor.accountData H) = .ok distributor := by
  rw [MerkleDistributor.tryDeserialize_ok_iff]
  exact ⟨_, [], by rw [List.append_nil]; rfl⟩

theorem tryDeserialize_status (status : ClaimStatus) :
    ClaimStatus.tryDeserialize H (status.accountData H) = .ok status :=
  tryDeserialize_ok_iff.mpr ⟨_, rfl⟩

theorem tryDeserialize_empty : ∃ e, MerkleDistributor.tryDeserialize H [] = .error e :=
  ⟨_, rfl⟩

/-- The server asks for these addresses. -/
def Serves (text : PubkeyText) (keys : List Pubkey) (server : Server) : Prop :=
  server.distributors.map SingleDistributor.distributorPubkey = keys.map text.toStr

theorem Serves.asked {keys : List Pubkey} {server : Server} (serves : Serves text keys server) :
    server.getDistributorKeys text = .ok keys := by
  have parsed : server.getDistributorKeys text =
      (server.distributors.map SingleDistributor.distributorPubkey).mapM fun name =>
        okOr (text.fromStr name) Panic.expectFailed := by
    rw [List.mapM_map]
    rfl
  have each : ((fun name => okOr (text.fromStr name) Panic.expectFailed) ∘ text.toStr) =
      fun key => pure key := by
    funext key
    simp [okOr, text.fromStr_toStr]
    rfl
  rw [parsed, serves, List.mapM_map, each, List.mapM_pure, List.map_id']
  rfl

/-- The addresses of the trees the server has loaded. -/
def servedKeys (rt : Runtime) (mint : Pubkey) (order : List AirdropMerkleTree) : List Pubkey :=
  order.map fun tree => rt.distributorAddress mint tree.airdropVersion

theorem startServer_serves (rt : Runtime) (args : ServerArgs) (order : List AirdropMerkleTree) :
    Serves text (servedKeys rt args.mint order) (startServer rt text args order) := by
  simp only [Serves, startServer, servedKeys, List.map_map]
  rfl

/-! ### The distributor poll -/

variable {world : World} {keys : List Pubkey} {accounts : List (Option Bytes)}
  {distributors : List SingleDistributor} {cache : DistributorCache}

/-- The cache after an account of an answer. -/
def noteRecord (cache : DistributorCache) (name : String) (record : Option MerkleDistributor) :
    DistributorCache :=
  record.elim cache fun record => Function.update cache name (some record)

theorem accountData_ne_nil (distributor : MerkleDistributor) : distributor.accountData H ≠ [] := by
  intro empty
  have size := congrArg List.length empty
  rw [MerkleDistributor.accountData, List.length_append, accountDiscriminator_length] at size
  simp at size

theorem AnswersAccount.absent {key : Pubkey} {account : Option Bytes}
    (answered : AnswersAccount H world key account) (empty : account = some []) :
    world.distributors key = none := by
  cases answered with
  | record found => exact absurd (Option.some.inj empty) (accountData_ne_nil _)
  | missing absent => exact absent
  | lamports absent => exact absent

/-- What the loop does with the first account of an answer. -/
theorem hydrateAccounts_cons {distributor : SingleDistributor} {rest : List SingleDistributor}
    {key : Pubkey} {account : Option Bytes} (answered : AnswersAccount H world key account) :
    (account = some [] ∧
        hydrateAccounts H (distributor :: rest) (account :: accounts) cache = (cache, false)) ∨
      account ≠ some [] ∧
        hydrateAccounts H (distributor :: rest) (account :: accounts) cache =
          hydrateAccounts H rest accounts
            (noteRecord cache distributor.distributorPubkey (world.distributors key)) := by
  cases answered with
  | @record record found =>
    refine .inr ⟨fun same => accountData_ne_nil record (Option.some.inj same), ?_⟩
    simp [hydrateAccounts, tryDeserialize_distributor, noteRecord, found]
  | missing absent => exact .inr ⟨by simp, by simp [hydrateAccounts, noteRecord, absent]⟩
  | lamports absent =>
    obtain ⟨e, failed⟩ := @tryDeserialize_empty H
    exact .inl ⟨rfl, by simp [hydrateAccounts, failed]⟩

theorem noteRecord_cases {name other : String} {record : Option MerkleDistributor}
    {shown : MerkleDistributor} (cached : noteRecord cache name record other = some shown) :
    cache other = some shown ∨ name = other ∧ record = some shown := by
  cases record with
  | none => exact .inl cached
  | some found =>
    rw [noteRecord, Option.elim_some, Function.update_apply] at cached
    split at cached
    · next same => exact .inr ⟨same.symm, cached⟩
    · exact .inl cached

/-- What an answer leaves in the cache was there before or is on chain now. -/
theorem hydrateAccounts_sound
    (answered : List.Forall₂ (AnswersAccount H world) keys accounts)
    (named : distributors.map SingleDistributor.distributorPubkey = keys.map text.toStr)
    {name : String} {shown : MerkleDistributor}
    (cached : (hydrateAccounts H distributors accounts cache).1 name = some shown) :
    cache name = some shown ∨
      ∃ key ∈ keys, text.toStr key = name ∧ world.distributors key = some shown := by
  induction answered generalizing distributors cache with
  | nil =>
    rw [List.map_nil, List.map_eq_nil_iff] at named
    subst named
    exact .inl cached
  | @cons key account keys accounts first later ih =>
    obtain ⟨distributor, rest, rfl, called, others⟩ := List.map_eq_cons_iff.mp named
    rcases hydrateAccounts_cons first with ⟨_, stopped⟩ | ⟨_, goes⟩
    · rw [stopped] at cached
      exact .inl cached
    · rw [goes] at cached
      rcases ih others cached with earlier | ⟨other, member, same, found⟩
      · rcases noteRecord_cases earlier with before | ⟨same, found⟩
        · exact .inl before
        · exact .inr ⟨key, List.mem_cons_self, called.symm.trans same, found⟩
      · exact .inr ⟨other, List.mem_cons_of_mem _ member, same, found⟩

/-- The loop panics exactly on an account without data. -/
theorem hydrateAccounts_runs_iff
    (answered : List.Forall₂ (AnswersAccount H world) keys accounts)
    (named : distributors.map SingleDistributor.distributorPubkey = keys.map text.toStr) :
    (hydrateAccounts H distributors accounts cache).2 = true ↔ some [] ∉ accounts := by
  induction answered generalizing distributors cache with
  | nil =>
    rw [List.map_nil, List.map_eq_nil_iff] at named
    subst named
    simp [hydrateAccounts]
  | @cons key account keys accounts first later ih =>
    obtain ⟨distributor, rest, rfl, _, others⟩ := List.map_eq_cons_iff.mp named
    rcases hydrateAccounts_cons first with ⟨empty, stopped⟩ | ⟨full, goes⟩
    · rw [stopped, empty]
      simp
    · rw [goes, ih others, List.mem_cons, not_or]
      exact (and_iff_right fun same => full same.symm).symm

/-- An entry that agrees with the chain survives the rest of the answer. -/
theorem hydrateAccounts_keeps {key : Pubkey} {record : MerkleDistributor}
    (answered : List.Forall₂ (AnswersAccount H world) keys accounts)
    (named : distributors.map SingleDistributor.distributorPubkey = keys.map text.toStr)
    (found : world.distributors key = some record)
    (cached : cache (text.toStr key) = some record) :
    (hydrateAccounts H distributors accounts cache).1 (text.toStr key) = some record := by
  induction answered generalizing distributors cache with
  | nil =>
    rw [List.map_nil, List.map_eq_nil_iff] at named
    subst named
    exact cached
  | @cons head account keys accounts first later ih =>
    obtain ⟨distributor, rest, rfl, called, others⟩ := List.map_eq_cons_iff.mp named
    rcases hydrateAccounts_cons first with ⟨_, stopped⟩ | ⟨_, goes⟩
    · rw [stopped]
      exact cached
    · rw [goes]
      refine ih others ?_
      cases here : world.distributors head with
      | none => exact cached
      | some other =>
        rw [noteRecord, Option.elim_some, Function.update_apply]
        split
        · next same =>
          cases text.toStr_inj (same.trans called)
          exact here.symm.trans found
        · exact cached

/-- After an answer without an empty account every served record is the one on chain. -/
theorem hydrateAccounts_complete {key : Pubkey} {record : MerkleDistributor}
    (answered : List.Forall₂ (AnswersAccount H world) keys accounts)
    (named : distributors.map SingleDistributor.distributorPubkey = keys.map text.toStr)
    (full : some [] ∉ accounts) (served : key ∈ keys)
    (found : world.distributors key = some record) :
    (hydrateAccounts H distributors accounts cache).1 (text.toStr key) = some record := by
  induction answered generalizing distributors cache with
  | nil => cases served
  | @cons head account keys accounts first later ih =>
    obtain ⟨distributor, rest, rfl, called, others⟩ := List.map_eq_cons_iff.mp named
    rcases hydrateAccounts_cons first with ⟨empty, _⟩ | ⟨_, goes⟩
    · exact absurd (empty ▸ List.mem_cons_self) full
    · rw [goes]
      rcases List.mem_cons.mp served with rfl | member
      · refine hydrateAccounts_keeps later others found ?_
        rw [noteRecord, found, Option.elim_some, called, Function.update_self]
      · exact ih others (fun empty => full (List.mem_cons_of_mem _ empty)) member

/-- Everything an answer can do to the server. -/
inductive HydrationStep (H : HashFunction) (server : Server) :
    Except String (List (Option Bytes)) → Server → Prop
  | panicked {answer : Except String (List (Option Bytes))}
      (ended : server.hydration = .panicked) : HydrationStep H server answer server
  | hydrated {retryCount : Nat} {accounts : List (Option Bytes)} {next : DistributorCache}
      (running : server.hydration = .cycle retryCount)
      (hydrates : hydrateAccounts H server.distributors accounts
        server.router.cache.distributorCache = (next, true)) :
      HydrationStep H server (.ok accounts)
        { server.setDistributorCache next with hydration := .cycle 0 }
  | stopped {retryCount : Nat} {accounts : List (Option Bytes)} {next : DistributorCache}
      (running : server.hydration = .cycle retryCount)
      (hydrates : hydrateAccounts H server.distributors accounts
        server.router.cache.distributorCache = (next, false)) :
      HydrationStep H server (.ok accounts)
        { server.setDistributorCache next with hydration := .panicked }
  | failed {retryCount : Nat} {error : String} (again : Nat)
      (running : server.hydration = .cycle retryCount) :
      HydrationStep H server (.error error) { server with hydration := .cycle again }

theorem hydrationStep (server : Server) (answer : Except String (List (Option Bytes))) :
    HydrationStep H server answer (server.hydrateDistributorsCache H answer) := by
  unfold Server.hydrateDistributorsCache
  split
  · next ended => exact .panicked ended
  · next retryCount running =>
    cases answer with
    | ok accounts =>
      dsimp only
      generalize hydrates : hydrateAccounts H server.distributors accounts
        server.router.cache.distributorCache = hydrated
      obtain ⟨next, alive⟩ := hydrated
      cases alive
      · exact .stopped running hydrates
      · exact .hydrated running hydrates
    | error e =>
      dsimp only
      split
      · exact .failed 0 running
      · split
        · exact .failed (retryCount + 1) running
        · exact .failed 0 running

end

/-! ### Runs of server and chain -/

/-- The service after a run of events. -/
abbrev runService (rt : Runtime) (text : PubkeyText) (service : Service)
    (events : List ServiceEvent) : Service :=
  replay (Service.step rt text) service events

/-- Every answer of the run is one the nodes could give at that moment. -/
abbrev HonestRun (rt : Runtime) (text : PubkeyText) (service : Service)
    (events : List ServiceEvent) : Prop :=
  AllowedRun (Service.step rt text) (Honest rt text) service events

def ServiceEvent.transaction : ServiceEvent → Option Transaction
  | .transact tx => some tx
  | _ => none

section
variable {rt : Runtime} {text : PubkeyText} {service : Service} {events : List ServiceEvent}

/-- The server reads the chain and does not write to it. -/
theorem runService_world :
    (runService rt text service events).world =
      run rt service.world (events.filterMap ServiceEvent.transaction) := by
  induction events generalizing service with
  | nil => rfl
  | cons event rest ih =>
    rw [runService, replay_cons, ih]
    cases event <;> rfl

theorem HonestRun.admissible (honest : HonestRun rt text service events) :
    ∀ tx ∈ events.filterMap ServiceEvent.transaction, Admissible rt tx := by
  induction events generalizing service with
  | nil => simp
  | cons event rest ih =>
    obtain ⟨now, later⟩ := (allowedRun_cons ..).mp honest
    intro tx member
    obtain ⟨found, listed, sent⟩ := List.mem_filterMap.mp member
    rcases List.mem_cons.mp listed with rfl | further
    · cases now with
      | transact admissible => cases sent; exact admissible
      | _ => cases sent
    · exact ih later tx (List.mem_filterMap.mpr ⟨found, further, sent⟩)

theorem HonestRun.wellFormed (honest : HonestRun rt text service events)
    (wellFormed : WellFormed rt service.world) :
    WellFormed rt (runService rt text service events).world := by
  rw [runService_world]
  exact wellFormed.after_run honest.admissible

theorem HonestRun.split {before after : List ServiceEvent}
    (honest : HonestRun rt text service (before ++ after)) :
    HonestRun rt text service before ∧
      HonestRun rt text (runService rt text service before) after :=
  (allowedRun_append ..).mp honest

/-- From a moment of a run on, only transactions matter to the world. -/
theorem runService_append_world {before after : List ServiceEvent} :
    (runService rt text service (before ++ after)).world =
      run rt (runService rt text service before).world
        (after.filterMap ServiceEvent.transaction) := by
  rw [runService, replay_append]
  exact runService_world

end

/-! ### The end of the distributor poll -/

section
variable {rt : Runtime} {text : PubkeyText} {service : Service} {events : List ServiceEvent}
  {keys : List Pubkey}

theorem Serves.step (serves : Serves text keys service.server) (event : ServiceEvent) :
    Serves text keys (service.step rt text event).server := by
  cases event with
  | transact tx => exact serves
  | distributorAccounts answer =>
    have step := hydrationStep (H := rt.hash) service.server answer
    simp only [Service.step]
    generalize service.server.hydrateDistributorsCache rt.hash answer = after at step ⊢
    cases step <;> exact serves
  | programAccounts distributor answer => cases answer <;> exact serves
  | notification distributor data slot =>
    simp only [Service.step, Server.notified]
    split <;> exact serves
  | deliver i =>
    simp only [Service.step, Server.receive]
    split <;> exact serves

theorem Serves.run (serves : Serves text keys service.server) :
    Serves text keys (runService rt text service events).server :=
  replay_invariant (Service.step rt text) (fun _ => True)
    (fun state => Serves text keys state.server) (fun _ event _ kept => kept.step event) service
    events (fun _ _ => trivial) serves

/-- The answer contains an account without data. -/
def ServiceEvent.showsLamports : ServiceEvent → Prop
  | .distributorAccounts (.ok accounts) => some [] ∈ accounts
  | _ => False

/-- A poll that has ended stays so, and leaves its cache alone. -/
theorem panicked_step (ended : service.server.hydration = .panicked) (event : ServiceEvent) :
    (service.step rt text event).server.hydration = .panicked ∧
      (service.step rt text event).server.router.cache.distributorCache =
        service.server.router.cache.distributorCache := by
  cases event with
  | transact tx => exact ⟨ended, rfl⟩
  | distributorAccounts answer =>
    have same : service.server.hydrateDistributorsCache rt.hash answer = service.server := by
      simp only [Server.hydrateDistributorsCache, ended]
    simp only [Service.step, same, and_true]
    exact ended
  | programAccounts distributor answer => cases answer <;> exact ⟨ended, rfl⟩
  | notification distributor data slot =>
    simp only [Service.step, Server.notified]
    split <;> exact ⟨ended, rfl⟩
  | deliver i =>
    simp only [Service.step, Server.receive]
    split <;> exact ⟨ended, rfl⟩

/-- A running poll ends with an account without data. -/
theorem hydration_step_iff (serves : Serves text keys service.server)
    {event : ServiceEvent} (honest : Honest rt text service event) :
    (service.step rt text event).server.hydration = .panicked ↔
      service.server.hydration = .panicked ∨ event.showsLamports := by
  cases honest with
  | transact admissible => simp [Service.step, ServiceEvent.showsLamports]
  | @distributorAccounts asked accounts request answered =>
    cases request.symm.trans serves.asked
    have runs := @hydrateAccounts_runs_iff rt.hash text service.world keys accounts
      service.server.distributors service.server.router.cache.distributorCache answered serves
    have step := hydrationStep (H := rt.hash) service.server (.ok accounts)
    simp only [Service.step, ServiceEvent.showsLamports]
    generalize service.server.hydrateDistributorsCache rt.hash (.ok accounts) = after at step ⊢
    cases step with
    | panicked ended => simp [ended]
    | hydrated running hydrates =>
      rw [hydrates] at runs
      simp [running, runs.mp rfl]
    | stopped running hydrates =>
      rw [hydrates] at runs
      simpa [running] using runs
  | distributorsFailed error =>
    have step := hydrationStep (H := rt.hash) service.server (.error error)
    simp only [Service.step, ServiceEvent.showsLamports, or_false]
    generalize service.server.hydrateDistributorsCache rt.hash (.error error) = after at step ⊢
    cases step with
    | panicked ended => rfl
    | failed again running => simp [running]
  | programAccounts asked served answered =>
    simp [Service.step, ServiceEvent.showsLamports, Server.pollClaimStatuses]
  | programFailed distributor error =>
    simp [Service.step, ServiceEvent.showsLamports, Server.pollClaimStatuses]
  | notification slot asked served answered =>
    simp only [Service.step, ServiceEvent.showsLamports, Server.notified, or_false]
    split <;> rfl
  | deliver i =>
    simp only [Service.step, ServiceEvent.showsLamports, Server.receive, or_false]
    split <;> rfl

theorem hydration_run_iff (serves : Serves text keys service.server)
    (honest : HonestRun rt text service events) :
    (runService rt text service events).server.hydration = .panicked ↔
      service.server.hydration = .panicked ∨ ∃ event ∈ events, event.showsLamports := by
  induction events generalizing service with
  | nil => simp
  | cons event rest ih =>
    obtain ⟨now, later⟩ := (allowedRun_cons ..).mp honest
    rw [runService, replay_cons, ih (serves.step event) later, hydration_step_iff serves now]
    simp only [List.exists_mem_cons_iff, or_assoc]

theorem panicked_run (ended : service.server.hydration = .panicked) :
    (runService rt text service events).server.router.cache.distributorCache =
      service.server.router.cache.distributorCache := by
  induction events generalizing service with
  | nil => rfl
  | cons event rest ih =>
    obtain ⟨stays, same⟩ := @panicked_step rt text service ended event
    exact (ih stays).trans same

/-! ### A poll that goes on -/

theorem hydrateAccounts_grows {H : HashFunction} {distributors : List SingleDistributor}
    {accounts : List (Option Bytes)} {cache : DistributorCache} {name : String}
    (cached : (cache name).isSome = true) :
    ((hydrateAccounts H distributors accounts cache).1 name).isSome = true := by
  fun_induction hydrateAccounts H distributors accounts cache with
  | case1 => exact cached
  | case2 => exact cached
  | case3 cache _ rest accounts ih => exact ih cached
  | case4 cache distributor rest data accounts record read ih =>
    apply ih
    rw [Function.update_apply]
    split
    · rfl
    · exact cached
  | case5 => exact cached

theorem cached_step {name : String}
    (cached : (service.server.router.cache.distributorCache name).isSome = true)
    (event : ServiceEvent) :
    ((service.step rt text event).server.router.cache.distributorCache name).isSome = true := by
  cases event with
  | transact tx => exact cached
  | distributorAccounts answer =>
    have step := hydrationStep (H := rt.hash) service.server answer
    simp only [Service.step]
    generalize service.server.hydrateDistributorsCache rt.hash answer = after at step ⊢
    cases step with
    | panicked ended => exact cached
    | @hydrated _ accounts next running hydrates =>
      have grows := @hydrateAccounts_grows rt.hash service.server.distributors accounts _ _ cached
      rwa [hydrates] at grows
    | @stopped _ accounts next running hydrates =>
      have grows := @hydrateAccounts_grows rt.hash service.server.distributors accounts _ _ cached
      rwa [hydrates] at grows
    | failed again running => exact cached
  | programAccounts distributor answer => cases answer <;> exact cached
  | notification distributor data slot =>
    simp only [Service.step, Server.notified]
    split <;> exact cached
  | deliver i =>
    simp only [Service.step, Server.receive]
    split <;> exact cached

/-- Every served address has its distributor. -/
def Present (keys : List Pubkey) (world : World) : Prop :=
  ∀ key ∈ keys, ∃ record, world.distributors key = some record

theorem Present.full {H : HashFunction} {world : World} {accounts : List (Option Bytes)}
    (present : Present keys world)
    (answered : List.Forall₂ (AnswersAccount H world) keys accounts) : some [] ∉ accounts := by
  induction answered with
  | nil => simp
  | @cons key account keys accounts first later ih =>
    obtain ⟨record, found⟩ := present key List.mem_cons_self
    have rest := ih fun other member => present other (List.mem_cons_of_mem _ member)
    intro member
    rcases List.mem_cons.mp member with empty | further
    · cases (first.absent empty.symm).symm.trans found
    · exact rest further

/-- One event, while every served address has its distributor. -/
theorem present_step (serves : Serves text keys service.server)
    (alive : service.server.hydration ≠ .panicked) (present : Present keys service.world)
    {event : ServiceEvent} (honest : Honest rt text service event) :
    (service.step rt text event).server.hydration ≠ .panicked ∧
      ∀ accounts, event = .distributorAccounts (.ok accounts) → ∀ key ∈ keys,
        ((service.step rt text event).server.router.cache.distributorCache
          (text.toStr key)).isSome = true := by
  constructor
  · rw [ne_eq, hydration_step_iff serves honest, not_or]
    refine ⟨alive, fun shows => ?_⟩
    cases honest with
    | distributorAccounts asked answered =>
      cases asked.symm.trans serves.asked
      exact present.full answered shows
    | _ => exact shows
  · intro accounts polled key served
    subst polled
    cases honest with
    | distributorAccounts asked answered =>
      cases asked.symm.trans serves.asked
      obtain ⟨record, found⟩ := present key served
      have complete := @hydrateAccounts_complete rt.hash text service.world keys accounts
        service.server.distributors service.server.router.cache.distributorCache key record answered
        serves (present.full answered) served found
      have step := hydrationStep (H := rt.hash) service.server (.ok accounts)
      simp only [Service.step]
      generalize service.server.hydrateDistributorsCache rt.hash (.ok accounts) = after at step ⊢
      cases step with
      | panicked ended => exact absurd ended alive
      | hydrated running hydrates =>
        rw [hydrates] at complete
        exact Option.isSome_iff_exists.mpr ⟨record, complete⟩
      | stopped running hydrates =>
        rw [hydrates] at complete
        exact Option.isSome_iff_exists.mpr ⟨record, complete⟩

/-- Once an answer has come in, the server has a record of every loaded tree. -/
theorem HonestRun.hydrated (honest : HonestRun rt text service events)
    (serves : Serves text keys service.server) (alive : service.server.hydration ≠ .panicked)
    (present : ∀ before, before <+: events →
      Present keys (runService rt text service before).world)
    {key : Pubkey} (served : key ∈ keys)
    (polled : (service.server.router.cache.distributorCache (text.toStr key)).isSome = true ∨
      ∃ accounts, .distributorAccounts (.ok accounts) ∈ events) :
    ((runService rt text service events).server.router.cache.distributorCache
      (text.toStr key)).isSome = true := by
  induction events generalizing service with
  | nil => simpa using polled
  | cons event rest ih =>
    obtain ⟨now, later⟩ := (allowedRun_cons ..).mp honest
    obtain ⟨goes, hydrates⟩ := present_step serves alive (present [] (List.nil_prefix)) now
    refine ih later (serves.step event) goes
      (fun before part => present (event :: before) (List.cons_prefix_cons.mpr ⟨rfl, part⟩)) ?_
    rcases polled with cached | ⟨accounts, member⟩
    · exact .inl (cached_step cached event)
    · rcases List.mem_cons.mp member with rfl | further
      · exact .inl (hydrates accounts rfl key served)
      · exact .inr ⟨accounts, further⟩

end

/-- The distributor poll of a server ends for good exactly once an answer shows an address of a
loaded tree that has lamports but no distributor. From then on its cache never changes. -/
theorem distributor_poll_stops_iff {rt : Runtime} {text : PubkeyText} {args : ServerArgs}
    {order : List AirdropMerkleTree} {world : World} {events later : List ServiceEvent}
    (honest : HonestRun rt text ⟨world, startServer rt text args order⟩ (events ++ later)) :
    let moment := runService rt text ⟨world, startServer rt text args order⟩
    ((moment events).server.hydration = .panicked ↔ ∃ event ∈ events, event.showsLamports) ∧
      ((moment events).server.hydration = .panicked →
        (moment (events ++ later)).server.router.cache.distributorCache =
          (moment events).server.router.cache.distributorCache) := by
  intro moment
  have serves : Serves text (servedKeys rt args.mint order) (startServer rt text args order) :=
    startServer_serves rt args order
  have stops := @hydration_run_iff rt text ⟨world, startServer rt text args order⟩ events _ serves
    honest.split.1
  constructor
  · refine stops.trans (or_iff_right ?_)
    simp [startServer]
  · intro ended
    simp only [moment, runService, replay_append]
    exact panicked_run ended

namespace Sample
open Guarantees.Sharding.SampleCsv

def serverArgs : ServerArgs :=
  { mint, vestedUsers := none, defaultStartTs := none, defaultEndTs := none, defaultMint := none
    startAmountPct := 50 }

/-- A server that has loaded the tree of one leaf. -/
abbrev started (world : World) : Service :=
  ⟨world, startServer rt latinText serverArgs [treeOf wallet 100 70]⟩

/-- The accounts are open, but nothing is deployed. -/
def undeployed : World := run rt emptyWorld (openAccounts 170)

/-- Someone sends lamports to the address before the first poll. -/
def disturbed : List ServiceEvent := [.distributorAccounts (.ok [some []])]

/-- The distributor is created, and the server would poll its record. -/
def recovered (record : MerkleDistributor) : List ServiceEvent :=
  [.transact (create 100 70 170 false),
    .distributorAccounts (.ok [some (record.accountData rt.hash)])]

theorem recovered_honest {record : MerkleDistributor}
    (found : (deployed 100 70 170 170).distributors pda = some record) :
    HonestRun rt latinText (started undeployed) (disturbed ++ recovered record) := by
  have absent : undeployed.distributors pda = none :=
    Option.isNone_iff_eq_none.mp (by decide +kernel)
  have serves : Serves latinText [pda] (started undeployed).server :=
    startServer_serves rt serverArgs [treeOf wallet 100 70]
  simp only [HonestRun, disturbed, recovered, List.cons_append, List.nil_append, allowedRun_cons,
    allowedRun_nil, and_true]
  refine ⟨.distributorAccounts serves.asked (.cons (.lamports absent) .nil), .transact ?_, ?_⟩
  · exact admissible_of_all (show [create 100 70 170 false].all _ = true from rfl) _
      List.mem_cons_self
  · refine .distributorAccounts ((serves.step _).step _).asked (.cons (.record ?_) .nil)
    exact found

end Sample

open Sample Guarantees.Sharding.SampleCsv in
/-- The record is on chain and was polled, and the server still has none. -/
theorem distributor_poll_stops_sample :
    ∃ record, (deployed 100 70 170 170).distributors pda = some record ∧
      (runService rt latinText (started undeployed) disturbed).server.hydration = .panicked ∧
      (runService rt latinText (started undeployed)
        (disturbed ++ recovered record)).server.router.cache.distributorCache
          (latinText.toStr pda) = none := by
  obtain ⟨record, found, _⟩ := record_of (fun _ => true)
    (show ((deployed 100 70 170 170).distributors pda).any _ = true by decide +kernel)
  obtain ⟨stops, stays⟩ := distributor_poll_stops_iff (recovered_honest found)
  have ended := stops.mpr ⟨_, List.mem_cons_self, List.mem_cons_self⟩
  refine ⟨record, found, ended, ?_⟩
  rw [stays ended]
  rfl

end MultiDistributor.Source

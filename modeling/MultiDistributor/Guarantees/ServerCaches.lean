import MultiDistributor.Guarantees.DistributorPoll

/-!
# What the caches of the API show

The tasks of the server read the chain at different moments, their requests fail and their
messages come in any order. Whatever the interleaving, a cached record is the state of the
account of a loaded tree at some moment since the start. The terms of a permanent
distributor and the claimant of a status never change, and what was withdrawn only grows,
so a stale entry errs to one side only. A complete poll repairs it.
-/
namespace MultiDistributor.Source
open Lib.ByteString Lib.Checked Lib.Replay Lib.Reordering

/-! ### Both caches along a run -/

/-- Everything the server holds has been seen, and is kept under the right name. -/
structure Knows (text : PubkeyText) (keys : List Pubkey)
    (record : Pubkey → MerkleDistributor → Prop) (status : Pubkey → ClaimStatus → Prop)
    (server : Server) : Prop where
  serves : Serves text keys server
  records : ∀ name shown, server.router.cache.distributorCache name = some shown →
    ∃ key ∈ keys, text.toStr key = name ∧ record key shown
  inFlight : ∀ message ∈ server.inFlight, ∃ key ∈ keys, status key message.data
  statuses : ∀ name entry, server.router.cache.claimStatusCache name = some entry →
    text.toStr entry.data.claimant = name ∧ ∃ key ∈ keys, status key entry.data

section
variable {rt : Runtime} {text : PubkeyText} {keys : List Pubkey} {service : Service}
  {record : Pubkey → MerkleDistributor → Prop} {status : Pubkey → ClaimStatus → Prop}

/-- The filters leave the claim statuses of the distributor. -/
theorem AnswersStatus.found {H : HashFunction} {world : World} {distributor : Pubkey}
    {data : Bytes} (wellFormed : WellFormed rt world)
    (answered : AnswersStatus H world distributor data) :
    ∃ status : ClaimStatus, data = status.accountData H ∧
      world.claimStatuses status.claimant distributor = some status := by
  obtain ⟨claimant, key, status, found, rfl, passes⟩ := answered
  obtain ⟨rfl, rfl, _⟩ := wellFormed.status claimant key status found
  rw [subscribeFilters_selected] at passes
  exact ⟨status, rfl, passes ▸ found⟩

theorem Knows.send {server : Server} (knows : Knows text keys record status server)
    {messages : List (DataAndSlot ClaimStatus)}
    (seen : ∀ message ∈ messages, ∃ key ∈ keys, status key message.data) :
    Knows text keys record status { server with inFlight := server.inFlight ++ messages } where
  serves := knows.serves
  records := knows.records
  inFlight message member :=
    (List.mem_append.mp member).elim (knows.inFlight message) (seen message)
  statuses := knows.statuses

theorem Knows.receive {server : Server} (knows : Knows text keys record status server)
    (i : Nat) : Knows text keys record status (server.receive text i) := by
  unfold Server.receive
  split
  · next message taken =>
    have sent := List.mem_of_getElem? taken
    refine { serves := knows.serves, records := knows.records
             inFlight := fun other member => knows.inFlight other (List.mem_of_mem_eraseIdx member)
             statuses := ?_ }
    intro name entry cached
    have step := cacheStep text server.router.cache.claimStatusCache message
    dsimp only at cached
    generalize receiveUpdate text server.router.cache.claimStatusCache message = after
      at step cached
    cases step with
    | kept held => exact knows.statuses name entry cached
    | stored accepted =>
      rw [Function.update_apply] at cached
      split at cached
      · next same =>
        cases cached
        exact ⟨same.symm, knows.inFlight message sent⟩
      · exact knows.statuses name entry cached
  · exact knows

/-- One event: what the server adds to its knowledge is on chain at that moment. -/
theorem Knows.step {event : ServiceEvent} (knows : Knows text keys record status service.server)
    (wellFormed : WellFormed rt service.world) (honest : Honest rt text service event)
    (records : ∀ key shown, service.world.distributors key = some shown → record key shown)
    (statuses : ∀ key shown, service.world.claimStatuses shown.claimant key = some shown →
      status key shown) :
    Knows text keys record status (service.step rt text event).server := by
  cases honest with
  | transact admissible => exact knows
  | @distributorAccounts asked accounts request answered =>
    cases request.symm.trans knows.serves.asked
    have known : ∀ {next alive}, hydrateAccounts rt.hash service.server.distributors accounts
        service.server.router.cache.distributorCache = (next, alive) → ∀ name shown,
        next name = some shown → ∃ key ∈ keys, text.toStr key = name ∧ record key shown := by
      intro next alive hydrates name shown cached
      have origin := @hydrateAccounts_sound rt.hash text service.world keys accounts
        service.server.distributors service.server.router.cache.distributorCache answered
        knows.serves name shown (by rw [hydrates]; exact cached)
      rcases origin with before | ⟨key, served, same, found⟩
      · exact knows.records name shown before
      · exact ⟨key, served, same, records key shown found⟩
    have step := hydrationStep (H := rt.hash) service.server (.ok accounts)
    simp only [Service.step]
    generalize service.server.hydrateDistributorsCache rt.hash (.ok accounts) = after at step ⊢
    cases step with
    | panicked ended => exact knows
    | hydrated running hydrates => exact { knows with records := known hydrates }
    | stopped running hydrates => exact { knows with records := known hydrates }
  | distributorsFailed error =>
    have step := hydrationStep (H := rt.hash) service.server (.error error)
    simp only [Service.step]
    generalize service.server.hydrateDistributorsCache rt.hash (.error error) = after at step ⊢
    cases step with
    | panicked ended => exact knows
    | failed again running => exact { knows with }
  | @programAccounts asked distributor accounts request served answered =>
    cases request.symm.trans knows.serves.asked
    refine knows.send fun message member => ?_
    obtain ⟨data, listed, decoded⟩ := List.mem_filterMap.mp member
    obtain ⟨found, rfl, onChain⟩ := (answered data listed).found wellFormed
    rw [tryDeserialize_status] at decoded
    cases decoded
    exact ⟨distributor, served, statuses distributor found onChain⟩
  | programFailed distributor error => exact knows
  | @notification asked distributor data slot request served answered =>
    cases request.symm.trans knows.serves.asked
    obtain ⟨found, rfl, onChain⟩ := answered.found wellFormed
    simp only [Service.step, Server.notified, tryDeserialize_status]
    refine knows.send fun message member => ?_
    cases List.mem_singleton.mp member
    exact ⟨distributor, served, statuses distributor found onChain⟩
  | deliver i => exact knows.receive i

end

section
variable {rt : Runtime} {text : PubkeyText} {service : Service} {events : List ServiceEvent}

/-- Whatever the server holds was on chain at the end of some part of the run. -/
theorem HonestRun.knows {keys : List Pubkey} (honest : HonestRun rt text service events)
    (wellFormed : WellFormed rt service.world)
    (fresh : ∀ record status, Knows text keys record status service.server) :
    Knows text keys
      (fun key shown => ∃ before, before <+: events ∧
        (runService rt text service before).world.distributors key = some shown)
      (fun key shown => ∃ before, before <+: events ∧
        (runService rt text service before).world.claimStatuses shown.claimant key = some shown)
      (runService rt text service events).server := by
  refine replay_invariant_along (Service.step rt text)
    (fun state => Knows text keys _ _ state.server) service events ?_ (fresh _ _)
  intro pre event member knows
  obtain ⟨before, after, rfl, rfl⟩ := (mem_transitions_iff _ service events pre event).mp member
  have first := honest.split.1
  have now := ((allowedRun_cons ..).mp honest.split.2).1
  have part : before <+: before ++ event :: after := List.prefix_append _ _
  exact knows.step (first.wellFormed wellFormed) now
    (fun key shown found => ⟨before, part, found⟩) (fun key shown found => ⟨before, part, found⟩)

theorem startServer_knows (args : ServerArgs) (order : List AirdropMerkleTree)
    (record : Pubkey → MerkleDistributor → Prop) (status : Pubkey → ClaimStatus → Prop) :
    Knows text (servedKeys rt args.mint order) record status
      (startServer rt text args order) where
  serves := startServer_serves rt args order
  records name shown cached := by cases cached
  inFlight message member := by cases member
  statuses name entry cached := by cases cached

end

def ClaimStatus.withdrawnTo (status : ClaimStatus) (withdrawn : UInt64) : ClaimStatus :=
  { status with lockedAmountWithdrawn := withdrawn }

/-- Later states of a claim status differ in what was withdrawn, and that only grows. -/
theorem run_status_grows {rt : Runtime} {world : World} {claimant key : Pubkey}
    {status : ClaimStatus} (found : world.claimStatuses claimant key = some status)
    (txs : List Transaction) :
    ∃ withdrawn, status.lockedAmountWithdrawn ≤ withdrawn ∧
      (run rt world txs).claimStatuses claimant key = some (status.withdrawnTo withdrawn) := by
  induction txs generalizing world status with
  | nil => exact ⟨_, UInt64.le_refl _, found⟩
  | cons tx rest ih =>
    have step : ∃ withdrawn, status.lockedAmountWithdrawn ≤ withdrawn ∧
        (apply rt world tx).claimStatuses claimant key = some (status.withdrawnTo withdrawn) := by
      rcases apply_cases rt world tx with ⟨same, _⟩ | ⟨execution, _⟩
      · exact ⟨_, UInt64.le_refl _, by rw [same]; exact found⟩
      rcases execution.status_cases claimant key with
        same | ⟨_, _, _, e, rfl, rfl, _⟩ | ⟨_, _, e, rfl, rfl, grown⟩
      · exact ⟨_, UInt64.le_refl _, same.trans found⟩
      · cases e.vacant.symm.trans found
      · cases e.statusFound.symm.trans found
        refine ⟨e.lockedAmountWithdrawn, ?_, grown⟩
        rw [UInt64.le_iff_toNat_le, e.withdrawnSum]
        exact Nat.le_add_right _ _
    obtain ⟨middle, first, present⟩ := step
    obtain ⟨withdrawn, second, final⟩ := ih present
    exact ⟨withdrawn, UInt64.le_trans first second, final⟩

/-- Over every interleaving, both caches hold states of the accounts of loaded trees since the
start of the server. The terms of a permanent distributor are those on chain, and a claim
status differs from the one on chain at most by later withdrawals. -/
theorem cached_data_was_on_chain {rt : Runtime} {text : PubkeyText} {args : ServerArgs}
    {order : List AirdropMerkleTree} {world : World} (reachable : Reachable rt world)
    {events : List ServiceEvent}
    (honest : HonestRun rt text ⟨world, startServer rt text args order⟩ events) :
    let moment := runService rt text ⟨world, startServer rt text args order⟩
    let cache := (moment events).server.router.cache
    (∀ name shown, cache.distributorCache name = some shown →
      ∃ key ∈ servedKeys rt args.mint order, name = text.toStr key ∧
        (∃ before, before <+: events ∧ (moment before).world.distributors key = some shown) ∧
        (shown.closable = false →
          ∃ now, (moment events).world.distributors key = some now ∧ SameTerms shown now)) ∧
    (∀ name entry, cache.claimStatusCache name = some entry →
      name = text.toStr entry.data.claimant ∧ ∃ key ∈ servedKeys rt args.mint order,
        (∃ before, before <+: events ∧
          (moment before).world.claimStatuses entry.data.claimant key = some entry.data) ∧
        ∃ withdrawn, entry.data.lockedAmountWithdrawn ≤ withdrawn ∧
          (moment events).world.claimStatuses entry.data.claimant key =
            some (entry.data.withdrawnTo withdrawn)) := by
  intro moment cache
  have knows := honest.knows reachable.wellFormed (startServer_knows args order)
  constructor
  · intro name shown cached
    obtain ⟨key, served, named, before, part, found⟩ := knows.records name shown cached
    refine ⟨key, served, named.symm, ⟨before, part, found⟩, fun permanent => ?_⟩
    obtain ⟨after, rfl⟩ := part
    have first := honest.split.1.wellFormed reachable.wellFormed
    have present := first.run_record found permanent honest.split.2.admissible
    rwa [← runService_append_world] at present
  · intro name entry cached
    obtain ⟨named, key, served, before, part, found⟩ := knows.statuses name entry cached
    refine ⟨named.symm, key, served, ⟨before, part, found⟩, ?_⟩
    obtain ⟨after, rfl⟩ := part
    have grown := @run_status_grows rt _ _ _ _ found (after.filterMap ServiceEvent.transaction)
    rwa [← runService_append_world] at grown

namespace Sample
open Guarantees.Sharding.SampleCsv

/-- The claim status of a claim at the start of vesting. -/
def claimedStatus : ClaimStatus :=
  { claimant := wallet, lockedAmount := 70, lockedAmountWithdrawn := 0, unlockedAmount := 100
    unlockedAmountClaimed := 50, closable := false, distributor := pda }

def claimedWorld : World := run rt (deployed 100 70 170 170) [claim 0 100 70]

theorem claimedWorld_reachable : Reachable rt claimedWorld :=
  (deployed_reachable 100 70 170 170).after_run
    (admissible_of_all (show [claim 0 100 70].all _ = true from rfl))

theorem claimedWorld_status : claimedWorld.claimStatuses wallet pda = some claimedStatus := by
  have found : (claimedWorld.claimStatuses wallet pda).any (fun status => status = claimedStatus) =
      true := by decide +kernel
  rw [Option.any_eq_true] at found
  obtain ⟨status, held, same⟩ := found
  rw [held, of_decide_eq_true same]

theorem started_asked (world : World) :
    (started world).server.getDistributorKeys latinText = .ok [pda] :=
  (startServer_serves rt serverArgs [treeOf wallet 100 70]).asked

theorem claimedStatus_answered :
    AnswersStatus rt.hash claimedWorld pda (claimedStatus.accountData rt.hash) :=
  ⟨wallet, pda, claimedStatus, claimedWorld_status, rfl,
    (subscribeFilters_selected rt.hash claimedStatus pda).mpr rfl⟩

/-- The server polls the claim status, and half of the locked tokens are withdrawn while the
message is in flight. -/
def lagging : List ServiceEvent :=
  [.programAccounts pda (.ok [claimedStatus.accountData rt.hash]), .transact (withdraw 50),
    .deliver 0]

theorem lagging_honest : HonestRun rt latinText (started claimedWorld) lagging := by
  simp only [HonestRun, lagging, allowedRun_cons, allowedRun_nil, and_true]
  refine ⟨.programAccounts (started_asked _) List.mem_cons_self ?_, .transact ?_, .deliver 0⟩
  · intro data member
    rw [List.mem_singleton.mp member]
    dsimp only
    exact claimedStatus_answered
  · exact admissible_of_all (show [withdraw 50].all _ = true from rfl) _ List.mem_cons_self

theorem lagging_world : (runService rt latinText (started claimedWorld) lagging).world =
    run rt claimedWorld [withdraw 50] := by
  rw [runService_world]
  simp only [lagging, List.filterMap_cons, List.filterMap_nil, ServiceEvent.transaction]

theorem lagging_cached : (runService rt latinText (started claimedWorld)
    lagging).server.router.cache.claimStatusCache (latinText.toStr wallet) =
      some ⟨claimedStatus, 0⟩ := by
  simp only [runService, lagging, replay_cons, replay_nil, Service.step, Server.pollClaimStatuses,
    List.filterMap_cons, List.filterMap_nil, tryDeserialize_status, Except.toOption,
    Option.map_some, startServer, List.nil_append, Server.receive, List.getElem?_cons_zero]
  exact first_stored ⟨claimedStatus, 0⟩

theorem lagging_idle :
    (runService rt latinText (started claimedWorld) lagging).server.inFlight = [] := by
  simp only [runService, lagging, replay_cons, replay_nil, Service.step, Server.pollClaimStatuses,
    List.filterMap_cons, List.filterMap_nil, tryDeserialize_status, Except.toOption,
    Option.map_some, startServer, List.nil_append, Server.receive, List.getElem?_cons_zero,
    List.eraseIdx_cons_zero]

end Sample

open Sample Guarantees.Sharding.SampleCsv in
/-- The entry shows nothing withdrawn, while 35 tokens are. -/
theorem cached_data_was_on_chain_sample :
    ∃ service, service = runService rt latinText (started claimedWorld) lagging ∧
      ∃ entry withdrawn, service.server.router.cache.claimStatusCache (latinText.toStr wallet) =
          some entry ∧ entry.data = claimedStatus ∧ withdrawn = 35 ∧
        service.world.claimStatuses entry.data.claimant pda =
          some (entry.data.withdrawnTo withdrawn) := by
  obtain ⟨_, later⟩ := cached_data_was_on_chain claimedWorld_reachable lagging_honest
  have world := lagging_world
  have held := lagging_cached
  generalize runService rt latinText (started claimedWorld) lagging = service at later world held ⊢
  have drawn : ((run rt claimedWorld [withdraw 50]).claimStatuses wallet pda).any
      (fun status => status.lockedAmountWithdrawn = 35) = true := by decide +kernel
  rw [Option.any_eq_true] at drawn
  obtain ⟨status, present, amount⟩ := drawn
  obtain ⟨_, key, served, _, withdrawn, _, now⟩ := later _ _ held
  have here : key = pda := List.mem_singleton.mp served
  subst here
  refine ⟨service, rfl, _, withdrawn, held, rfl, ?_, now⟩
  rw [world, show (⟨claimedStatus, 0⟩ : DataAndSlot ClaimStatus).data.claimant = wallet from rfl,
    present] at now
  have same := Option.some.inj now
  rw [← of_decide_eq_true amount, same]
  rfl

/-! ### A complete poll -/

/-- The polls and their deliveries, while chain and subscriptions are silent. -/
def ServiceEvent.quiet : ServiceEvent → Prop
  | .transact _ | .notification _ _ _ => False
  | _ => True

/-- The answer shows every claim status of the distributor. -/
def CompleteAnswer (H : HashFunction) (world : World) (key : Pubkey) (accounts : List Bytes) :
    Prop :=
  ∀ claimant status, world.claimStatuses claimant key = some status →
    status.accountData H ∈ accounts

/-- Messages about the claimant all come from polls of this status. -/
def Repeats (claimant : Pubkey) (status : ClaimStatus) (server : Server) : Prop :=
  ∀ message ∈ server.inFlight,
    message.slot = 0 ∧ (message.data.claimant = claimant → message.data = status)

/-- The status is cached or on its way. -/
def Announced (text : PubkeyText) (status : ClaimStatus) (server : Server) : Prop :=
  (∃ message ∈ server.inFlight, message.data = status) ∨
    ∃ entry, server.router.cache.claimStatusCache (text.toStr status.claimant) = some entry ∧
      entry.data = status

section
variable {rt : Runtime} {text : PubkeyText} {service : Service} {events : List ServiceEvent}
  {keys : List Pubkey} {status : ClaimStatus}

/-- A polled message leaves its status in the cache. -/
theorem receiveUpdate_polled (cache : ClaimStatusCache) {update : DataAndSlot ClaimStatus}
    (polled : update.slot = 0) :
    ∃ entry, receiveUpdate text cache update (text.toStr update.data.claimant) = some entry ∧
      entry.data = update.data := by
  cases held : cache (text.toStr update.data.claimant) with
  | none => exact ⟨update, by simp only [receiveUpdate, held, Function.update_self], rfl⟩
  | some entry =>
    by_cases same : entry.data = update.data
    · exact ⟨entry, by simp only [receiveUpdate, held, if_pos same], same⟩
    · have accepted : entry.slot ≤ update.slot ∨ update.slot = 0 ∧ entry.data ≠ update.data :=
        .inr ⟨polled, same⟩
      refine ⟨update, ?_, rfl⟩
      simp only [receiveUpdate, held, if_neg same, if_pos accepted, Function.update_self]

theorem receiveUpdate_other (cache : ClaimStatusCache) {update : DataAndSlot ClaimStatus}
    {claimant : Pubkey} (other : update.data.claimant ≠ claimant) :
    receiveUpdate text cache update (text.toStr claimant) = cache (text.toStr claimant) := by
  have step := cacheStep text cache update
  generalize receiveUpdate text cache update = after at step
  cases step with
  | kept held => rfl
  | stored accepted =>
    exact Function.update_of_ne (fun same => other (text.toStr_inj same).symm) _ _

/-- A delivery takes the announced status into the cache, or leaves it where it is. -/
theorem Announced.receive {server : Server} (announced : Announced text status server)
    (repeats : Repeats status.claimant status server) (i : Nat) :
    Announced text status (server.receive text i) := by
  unfold Server.receive
  split
  · next message taken =>
    obtain ⟨polled, same⟩ := repeats message (List.mem_of_getElem? taken)
    by_cases about : message.data.claimant = status.claimant
    · obtain ⟨entry, cached, data⟩ := @receiveUpdate_polled text
        server.router.cache.claimStatusCache message polled
      rw [same about] at cached data
      exact .inr ⟨entry, cached, data⟩
    · rcases announced with ⟨other, sent, data⟩ | ⟨entry, cached, data⟩
      · refine .inl ⟨other, ?_, data⟩
        have apart : message ≠ other := by
          intro equal
          exact about (by rw [equal, data])
        obtain ⟨j, there⟩ := List.mem_iff_getElem?.mp sent
        refine List.mem_eraseIdx_iff_getElem?.mpr ⟨j, ?_, there⟩
        intro equal
        rw [equal, taken] at there
        exact apart (Option.some.inj there)
      · exact .inr ⟨entry, (receiveUpdate_other _ about).trans cached, data⟩
  · exact announced

/-- The messages of a poll, if the claimant has this one status. -/
theorem polled_messages {world : World} (wellFormed : WellFormed rt world)
    {distributor : Pubkey} (served : distributor ∈ keys)
    (single : ∀ key ∈ keys, ∀ other, world.claimStatuses status.claimant key = some other →
      other = status)
    {accounts : List Bytes}
    (answered : ∀ data ∈ accounts, AnswersStatus rt.hash world distributor data) :
    ∀ message ∈ accounts.filterMap fun data =>
        (ClaimStatus.tryDeserialize rt.hash data).toOption.map fun status =>
          (⟨status, 0⟩ : DataAndSlot ClaimStatus),
      message.slot = 0 ∧ (message.data.claimant = status.claimant → message.data = status) := by
  intro message member
  obtain ⟨data, listed, decoded⟩ := List.mem_filterMap.mp member
  obtain ⟨found, rfl, onChain⟩ := (answered data listed).found wellFormed
  rw [tryDeserialize_status] at decoded
  cases decoded
  refine ⟨rfl, fun about => ?_⟩
  dsimp only at about ⊢
  exact single distributor served found (about ▸ onChain)

/-- One quiet event, on a chain where the claimant has this one status. -/
theorem quiet_step {event : ServiceEvent} (serves : Serves text keys service.server)
    (wellFormed : WellFormed rt service.world) (honest : Honest rt text service event)
    (quiet : event.quiet)
    (single : ∀ key ∈ keys, ∀ other,
      service.world.claimStatuses status.claimant key = some other → other = status)
    (repeats : Repeats status.claimant status service.server) :
    (service.step rt text event).world = service.world ∧
      Repeats status.claimant status (service.step rt text event).server ∧
      (Announced text status service.server →
        Announced text status (service.step rt text event).server) := by
  cases honest with
  | transact admissible => exact quiet.elim
  | notification slot asked served answered => exact quiet.elim
  | @distributorAccounts asked accounts request answered =>
    have step := hydrationStep (H := rt.hash) service.server (.ok accounts)
    simp only [Service.step, true_and]
    generalize service.server.hydrateDistributorsCache rt.hash (.ok accounts) = after at step ⊢
    cases step <;> exact ⟨repeats, id⟩
  | distributorsFailed error =>
    have step := hydrationStep (H := rt.hash) service.server (.error error)
    simp only [Service.step, true_and]
    generalize service.server.hydrateDistributorsCache rt.hash (.error error) = after at step ⊢
    cases step <;> exact ⟨repeats, id⟩
  | @programAccounts asked distributor accounts request served answered =>
    cases request.symm.trans serves.asked
    refine ⟨rfl, fun message member => ?_, fun announced => ?_⟩
    · exact (List.mem_append.mp member).elim (repeats message)
        (polled_messages wellFormed served single answered message)
    · rcases announced with ⟨message, sent, data⟩ | cached
      · exact .inl ⟨message, List.mem_append_left _ sent, data⟩
      · exact .inr cached
  | programFailed distributor error => exact ⟨rfl, repeats, id⟩
  | deliver i =>
    refine ⟨rfl, ?_, fun announced => announced.receive repeats i⟩
    simp only [Service.step, Server.receive]
    split
    · exact fun message member => repeats message (List.mem_of_mem_eraseIdx member)
    · exact repeats

/-- A complete answer announces the status. -/
theorem complete_announces {key : Pubkey} {accounts : List Bytes}
    (found : service.world.claimStatuses status.claimant key = some status)
    (complete : CompleteAnswer rt.hash service.world key accounts) :
    Announced text status (service.step rt text (.programAccounts key (.ok accounts))).server := by
  refine .inl ⟨⟨status, 0⟩, List.mem_append_right _ ?_, rfl⟩
  refine List.mem_filterMap.mpr ⟨status.accountData rt.hash, complete _ _ found, ?_⟩
  rw [tryDeserialize_status]
  rfl

theorem quiet_run (serves : Serves text keys service.server)
    (wellFormed : WellFormed rt service.world) (honest : HonestRun rt text service events)
    (quiet : ∀ event ∈ events, event.quiet)
    (single : ∀ key ∈ keys, ∀ other,
      service.world.claimStatuses status.claimant key = some other → other = status)
    (repeats : Repeats status.claimant status service.server) {key : Pubkey}
    (found : service.world.claimStatuses status.claimant key = some status)
    (due : Announced text status service.server ∨ ∃ accounts,
      .programAccounts key (.ok accounts) ∈ events ∧
        CompleteAnswer rt.hash service.world key accounts) :
    Announced text status (runService rt text service events).server := by
  induction events generalizing service with
  | nil => simpa using due
  | cons event rest ih =>
    obtain ⟨now, later⟩ := (allowedRun_cons ..).mp honest
    obtain ⟨same, repeated, keeps⟩ :=
      quiet_step serves wellFormed now (quiet event List.mem_cons_self) single repeats
    have next : Announced text status (service.step rt text event).server ∨ ∃ accounts,
        .programAccounts key (.ok accounts) ∈ rest ∧
          CompleteAnswer rt.hash service.world key accounts := by
      rcases due with announced | ⟨accounts, member, complete⟩
      · exact .inl (keeps announced)
      · rcases List.mem_cons.mp member with rfl | further
        · exact .inl (complete_announces found complete)
        · exact .inr ⟨accounts, further, complete⟩
    rw [← same] at wellFormed single found next
    exact ih (serves.step event) wellFormed later
      (fun other member => quiet other (List.mem_cons_of_mem _ member)) single repeated found next

end

/-- Whatever the cache holds, once nothing is in flight a complete poll of the claimant's
distributor repairs its entry: when all its messages have been delivered, in any order and
among any other polls, the cache shows the status on chain. -/
theorem complete_poll_repairs_cache {rt : Runtime} {text : PubkeyText} {service : Service}
    {keys : List Pubkey} (serves : Serves text keys service.server)
    (wellFormed : WellFormed rt service.world) (idle : service.server.inFlight = [])
    {events : List ServiceEvent} (honest : HonestRun rt text service events)
    (quiet : ∀ event ∈ events, event.quiet)
    (drained : (runService rt text service events).server.inFlight = [])
    {key : Pubkey} {status : ClaimStatus}
    (found : service.world.claimStatuses status.claimant key = some status)
    (single : ∀ other ∈ keys, other ≠ key →
      service.world.claimStatuses status.claimant other = none)
    (polled : ∃ accounts, .programAccounts key (.ok accounts) ∈ events ∧
      CompleteAnswer rt.hash service.world key accounts) :
    ∃ entry, (runService rt text service events).server.router.cache.claimStatusCache
        (text.toStr status.claimant) = some entry ∧ entry.data = status := by
  have only : ∀ other ∈ keys, ∀ shown,
      service.world.claimStatuses status.claimant other = some shown → shown = status := by
    intro other served shown held
    by_cases here : other = key
    · subst here
      exact Option.some.inj (held.symm.trans found)
    · cases (single other served here).symm.trans held
  have repeats : Repeats status.claimant status service.server := by
    intro message member
    rw [idle] at member
    cases member
  rcases quiet_run serves wellFormed honest quiet only repeats found (.inr polled) with
    ⟨message, pending, _⟩ | cached
  · rw [drained] at pending
    cases pending
  · exact cached

namespace Sample
open Guarantees.Sharding.SampleCsv

/-- The claim status after the withdrawal of `lagging`. -/
def withdrawnStatus : ClaimStatus := claimedStatus.withdrawnTo 35

theorem withdrawn_found :
    (run rt claimedWorld [withdraw 50]).claimStatuses wallet pda = some withdrawnStatus := by
  have found : ((run rt claimedWorld [withdraw 50]).claimStatuses wallet pda).any
      (fun status => status = withdrawnStatus) = true := by decide +kernel
  rw [Option.any_eq_true] at found
  obtain ⟨status, held, same⟩ := found
  rw [held, of_decide_eq_true same]

theorem apply_other_claimant {world : World} {tx : Transaction} {claimant key : Pubkey}
    (other : tx.claimant ≠ some claimant) :
    (apply rt world tx).claimStatuses claimant key = world.claimStatuses claimant key := by
  rcases apply_cases rt world tx with ⟨failed, _⟩ | ⟨execution, _⟩
  · rw [failed]
  rcases execution.status_cases claimant key with
    kept | ⟨_, _, sent, _, _, named, _⟩ | ⟨_, sent, _, _, named, _⟩
  · exact kept
  · exact absurd (by simp [Transaction.claimant, sent, named]) other
  · exact absurd (by simp [Transaction.claimant, sent, named]) other

/-- Only the wallet has claimed. -/
theorem withdrawn_only {claimant : Pubkey} {status : ClaimStatus}
    (held : (run rt claimedWorld [withdraw 50]).claimStatuses claimant pda = some status) :
    status = withdrawnStatus := by
  by_cases own : claimant = wallet
  · rw [own, withdrawn_found] at held
    exact (Option.some.inj held).symm
  · have first : (claim 0 100 70).claimant ≠ some claimant :=
      fun same => own (Option.some.inj same).symm
    have second : (withdraw 50).claimant ≠ some claimant :=
      fun same => own (Option.some.inj same).symm
    rw [claimedWorld, run, run, replay_cons, replay_nil, replay_cons, replay_nil,
      apply_other_claimant second, apply_other_claimant first, deployed,
      apply_claimStatuses rfl, openAccounts_clean] at held
    cases held

def repairing : List ServiceEvent :=
  [.programAccounts pda (.ok [withdrawnStatus.accountData rt.hash]), .deliver 0]

end Sample

open Sample Guarantees.Sharding.SampleCsv in
/-- A poll after the withdrawal repairs the entry that `lagging` has left. -/
theorem complete_poll_repairs_cache_sample :
    ∃ service, service = runService rt latinText (started claimedWorld) lagging ∧
      service.server.router.cache.claimStatusCache (latinText.toStr wallet) =
        some ⟨claimedStatus, 0⟩ ∧
      ∃ entry, (runService rt latinText service repairing).server.router.cache.claimStatusCache
        (latinText.toStr wallet) = some entry ∧ entry.data = withdrawnStatus := by
  have world := lagging_world
  have held := lagging_cached
  have serves : Serves latinText [pda]
      (runService rt latinText (started claimedWorld) lagging).server :=
    Serves.run (startServer_serves rt serverArgs [treeOf wallet 100 70])
  have idle := lagging_idle
  have start : WellFormed rt (started claimedWorld).world := by
    dsimp only
    exact claimedWorld_reachable.wellFormed
  have wellFormed := lagging_honest.wellFormed start
  generalize runService rt latinText (started claimedWorld) lagging = service at *
  have found : service.world.claimStatuses withdrawnStatus.claimant pda = some withdrawnStatus := by
    have named : withdrawnStatus.claimant = wallet := rfl
    rw [world, named, withdrawn_found]
  have answered : AnswersStatus rt.hash service.world pda (withdrawnStatus.accountData rt.hash) :=
    ⟨wallet, pda, withdrawnStatus, found, rfl,
      (subscribeFilters_selected rt.hash withdrawnStatus pda).mpr rfl⟩
  have honest : HonestRun rt latinText service repairing := by
    simp only [HonestRun, repairing, allowedRun_cons, allowedRun_nil, and_true]
    refine ⟨.programAccounts serves.asked List.mem_cons_self ?_, .deliver 0⟩
    intro data member
    rw [List.mem_singleton.mp member]
    exact answered
  refine ⟨service, rfl, held, ?_⟩
  refine complete_poll_repairs_cache serves wellFormed idle honest ?_ ?_ found ?_ ?_
  · intro event member
    simp only [repairing, List.mem_cons, List.not_mem_nil, or_false] at member
    rcases member with rfl | rfl <;> trivial
  · simp only [runService, repairing, replay_cons, replay_nil, Service.step,
      Server.pollClaimStatuses, List.filterMap_cons, List.filterMap_nil, tryDeserialize_status,
      Except.toOption, Option.map_some, idle, List.nil_append, Server.receive,
      List.getElem?_cons_zero, List.eraseIdx_cons_zero]
  · intro other served apart
    exact absurd (List.mem_singleton.mp served) apart
  · refine ⟨_, List.mem_cons_self, fun claimant status held => ?_⟩
    rw [world] at held
    rw [withdrawn_only held]
    exact List.mem_cons_self

end MultiDistributor.Source

import MultiDistributor.Guarantees.ClaimClients
import MultiDistributor.Guarantees.ServerCaches

/-!
# From the CSV to the tokens

All parts together: the trees of a CSV are written to files, deployed and funded; a server
loads the files and polls the chain; a claimant asks it, takes the one answer out of the array
that it sends (the SDK itself does not), builds the transaction with the SDK and signs it.
Whatever happens on the chain in between, as long as no distributor is clawed back or moved to
another tree, the transaction pays the released share of what the CSV lists for the claimant.
-/
namespace MultiDistributor.Source
open Lib.Checked Lib.Grouping Lib.Replay Lib.Reordering Lib.TokenLedger Lib.LinearRelease
open Guarantees.Sharding Guarantees.MerkleProofs Guarantees.TreeBuilding

/-! ### Versions of the trees -/

section
variable {H : HashFunction} {text : PubkeyText} {args : CreateMerkleTreeArgs} {start : UInt64}
  {entries : List CsvEntry} {trees : List AirdropMerkleTree}

theorem last_of_sharded {n : Nat} {rows : List TreeNode} {version last : UInt64}
    (sharded : Sharded H n rows version trees last) :
    last.toNat = version.toNat + trees.length := by
  induction sharded with
  | done version => simp
  | cut remaining built counted later ih =>
    rw [ih, counted, List.length_cons]
    omega

/-- The command gives its trees consecutive versions. -/
theorem processCreateMerkleTree_version (positive : 0 < args.maxNodesPerTree.toNat)
    (success : processCreateMerkleTree H text args start entries = .ok trees) {i : Nat}
    {tree : AirdropMerkleTree} (here : trees[i]? = some tree) :
    tree.airdropVersion.toNat = start.toNat + i := by
  obtain ⟨rows, made, last, extra, _, sharded, tested, rfl⟩ :=
    processCreateMerkleTree_ok positive success
  by_cases inside : i < made.length
  · rw [List.getElem?_append_left inside] at here
    exact sharded.versionAt here
  · rw [List.getElem?_append_right (Nat.le_of_not_lt inside)] at here
    cases tested with
    | plain excluded => simp at here
    | @tested other included built =>
      obtain ⟨nodes, _, returned⟩ := newFromEntries_ok_iff.mp built
      obtain ⟨index, rfl⟩ := List.getElem?_eq_some_iff.mp here
      rw [List.length_singleton, Nat.lt_one_iff] at index
      simp only [List.getElem_singleton, (treeOfRows_of_new returned).2.version,
        last_of_sharded sharded]
      omega

theorem processCreateMerkleTree_versions (positive : 0 < args.maxNodesPerTree.toNat)
    (success : processCreateMerkleTree H text args start entries = .ok trees) :
    (trees.map AirdropMerkleTree.airdropVersion).Nodup := by
  rw [List.nodup_iff_getElem?_ne_getElem?]
  intro i j less bound same
  rw [List.length_map] at bound
  obtain ⟨first, at_i⟩ : ∃ tree, trees[i]? = some tree := ⟨_, List.getElem?_eq_getElem (by omega)⟩
  obtain ⟨second, at_j⟩ : ∃ tree, trees[j]? = some tree := ⟨_, List.getElem?_eq_getElem bound⟩
  rw [List.getElem?_map, List.getElem?_map, at_i, at_j] at same
  have equal : first.airdropVersion = second.airdropVersion := Option.some.inj same
  have one := processCreateMerkleTree_version positive success at_i
  have two := processCreateMerkleTree_version positive success at_j
  rw [equal] at one
  omega

end

/-! ### Deployed trees -/

/-- A tree is deployed for a mint under its own version, on a clean address, and funded. -/
structure Deployment (rt : Runtime) (mint : Pubkey) (tree : AirdropMerkleTree) where
  start : World
  creation : Transaction
  accounts : NewDistributorAccounts
  args : NewDistributorArgs
  deposits : List Transaction
  reachable : Reachable rt start
  clean : ∀ claimant, start.claimStatuses claimant accounts.distributor = none
  funded : FundedCreation rt start creation accounts args tree deposits
  ofMint : accounts.mint = mint
  ofVersion : args.version = tree.airdropVersion

/-- The address of the distributor of a tree. -/
def AirdropMerkleTree.address (rt : Runtime) (mint : Pubkey) (tree : AirdropMerkleTree) : Pubkey :=
  rt.distributorAddress mint tree.airdropVersion

section
variable {rt : Runtime} {mint : Pubkey} {tree : AirdropMerkleTree}

def Deployment.world (deployment : Deployment rt mint tree) : World :=
  run rt (apply rt deployment.start deployment.creation) deployment.deposits

def Deployment.record (deployment : Deployment rt mint tree) : MerkleDistributor :=
  deployment.args.distributor rt deployment.accounts

theorem Deployment.key (deployment : Deployment rt mint tree) :
    deployment.accounts.distributor = tree.address rt mint := by
  obtain ⟨after, events, success⟩ := deployment.funded.success
  simp only [process, deployment.funded.sent, dispatch] at success
  obtain ⟨⟨e⟩, rfl⟩ := newDistributor_execution success
  rw [e.address, deployment.ofMint, deployment.ofVersion]
  rfl

theorem Deployment.solvent (deployment : Deployment rt mint tree) :
    Solvent rt (tree.address rt mint) deployment.world tree deployment.record ∅ :=
  deployment.key ▸ deployment.funded.solvent deployment.clean

theorem Deployment.wellFormed (deployment : Deployment rt mint tree) :
    WellFormed rt deployment.world :=
  (deployment.reachable.wellFormed.after_tx deployment.funded.admissible).after_run
    fun deposit member => (deployment.funded.deposited deposit member).1

/-- The tree was deployed some time ago. Since then and through the later transactions its
distributor is not clawed back and keeps the tree. -/
def Standing (rt : Runtime) (mint : Pubkey) (tree : AirdropMerkleTree) (world : World)
    (later : List Transaction) : Prop :=
  ∃ (deployment : Deployment rt mint tree) (since : List Transaction),
    run rt deployment.world since = world ∧
      FaithfulRun rt (tree.address rt mint) deployment.world tree
        ((since ++ later).map fun tx => ⟨tx, tree⟩)

/-- Proposals of one tree never change it. -/
theorem reRootStep_constant {key : Pubkey} {world : World} (txs : List Transaction) :
    replay (reRootStep rt key) (world, tree) (txs.map fun tx => ⟨tx, tree⟩) =
      (run rt world txs, tree) := by
  induction txs generalizing world with
  | nil => rfl
  | cons tx rest ih =>
    have same : reRootStep rt key (world, tree) ⟨tx, tree⟩ = (apply rt world tx, tree) := by
      simp [reRootStep]
    rw [List.map_cons, replay_cons, same, ih]
    rfl

variable {world : World} {later : List Transaction}

/-- The distributor can pay its tree at the end. -/
theorem Standing.solvent (standing : Standing rt mint tree world later) :
    ∃ distributor claimants,
      Solvent rt (tree.address rt mint) (run rt world later) tree distributor claimants ∧
        distributor.mint = mint := by
  obtain ⟨deployment, since, rfl, faithful⟩ := standing
  obtain ⟨distributor, claimants, solvent⟩ := deployment.solvent.run deployment.wellFormed faithful
  rw [reRootStep_constant, run, replay_append] at solvent
  refine ⟨distributor, claimants, solvent, ?_⟩
  have admissible : ∀ tx ∈ since ++ later, Admissible rt tx := by
    intro tx member
    exact faithful.admissible ⟨tx, tree⟩ (List.mem_map_of_mem member)
  obtain ⟨now, present, terms⟩ := deployment.wellFormed.run_record deployment.solvent.found
    deployment.solvent.permanent admissible
  rw [run, replay_append] at present
  cases solvent.found.symm.trans present
  exact terms.mint.trans deployment.ofMint

/-- At every moment the record is there, under terms that never change. -/
theorem Standing.record (standing : Standing rt mint tree world later) {part : List Transaction}
    (early : part <+: later) :
    ∃ record, (run rt world part).distributors (tree.address rt mint) = some record ∧
      record.closable = false := by
  obtain ⟨deployment, since, rfl, faithful⟩ := standing
  obtain ⟨rest, rfl⟩ := early
  have admissible : ∀ tx ∈ since ++ part, Admissible rt tx := by
    intro tx member
    refine faithful.admissible ⟨tx, tree⟩ (List.mem_map_of_mem ?_)
    rw [← List.append_assoc]
    exact List.mem_append_left _ member
  obtain ⟨record, present, terms⟩ := deployment.wellFormed.run_record deployment.solvent.found
    deployment.solvent.permanent admissible
  rw [run, replay_append] at present
  exact ⟨record, present, terms.closable.trans deployment.solvent.permanent⟩

theorem Standing.wellFormed (standing : Standing rt mint tree world later) :
    WellFormed rt world := by
  obtain ⟨deployment, since, rfl, faithful⟩ := standing
  refine deployment.wellFormed.after_run fun tx member => ?_
  exact faithful.admissible ⟨tx, tree⟩ (List.mem_map_of_mem (List.mem_append_left _ member))

end

/-! ### What the server has loaded and seen -/

section
variable {rt : Runtime} {text : PubkeyText} {service : Service} {events : List ServiceEvent}

end

/-- The trees of a CSV, written to a directory without other trees. The rows of a claimant
are in one shard, and the test wallets get what the CSV lists for them. -/
structure Published (rt : Runtime) (format : TreeFormat) (text : PubkeyText)
    (args : CreateMerkleTreeArgs) (entries : List CsvEntry) (trees : List AirdropMerkleTree)
    (files : List DirEntry) : Prop where
  positive : 1 ≤ args.maxNodesPerTree.toNat
  created : ∃ start, processCreateMerkleTree rt.hash text args start entries = .ok trees
  apart : OneShardPerClaimant text args.maxNodesPerTree.toNat (keptRows args entries)
  agree : TestWalletsAgree text args entries
  written : ∃ dir, writeTrees format dir trees = .ok files ∧
    loadDirectory format (untouched dir trees) = []

/-- A server started on the files, on a chain where all trees stand, has had an answer to one
of its polls. -/
structure Serving (rt : Runtime) (format : TreeFormat) (text : PubkeyText) (args : ServerArgs)
    (trees order : List AirdropMerkleTree) (files : List DirEntry) (world : World)
    (events : List ServiceEvent) : Prop where
  half : args.startAmountPct = 50
  loaded : order.Perm (loadDirectory format files)
  standing : ∀ tree ∈ trees,
    Standing rt args.mint tree world (events.filterMap ServiceEvent.transaction)
  honest : HonestRun rt text ⟨world, startServer rt text args order⟩ events
  polled : ∃ accounts, .distributorAccounts (.ok accounts) ∈ events

section
variable {rt : Runtime} {format : TreeFormat} {text : PubkeyText}
  {createArgs : CreateMerkleTreeArgs} {entries : List CsvEntry}
  {trees order : List AirdropMerkleTree} {files : List DirEntry}
  {args : ServerArgs} {world : World} {events : List ServiceEvent} {claimant : Pubkey}

theorem Published.loads (published : Published rt format text createArgs entries trees files)
    (loaded : order.Perm (loadDirectory format files)) : order.Perm trees := by
  obtain ⟨start, created⟩ := published.created
  obtain ⟨dir, written, others⟩ := published.written
  have found := loadDirectory_writeTrees format
    (processCreateMerkleTree_versions published.positive created) written
  rw [others, List.append_nil] at found
  exact loaded.trans found

/-- The index has the whole entitlement of a claimant of the CSV. -/
theorem Published.indexed (published : Published rt format text createArgs entries trees files)
    (loaded : order.Perm (loadDirectory format files)) (mint : Pubkey)
    (listed : Listed text entries claimant) :
    ∃ tree ∈ trees, ∃ node ∈ tree.treeNodes, node.claimant = claimant ∧
      loadTrees rt mint order claimant = some (tree.address rt mint, node) ∧
      Whole text createArgs.decimals createArgs.csvAmountUnit entries node := by
  obtain ⟨start, created⟩ := published.created
  have whole := (claimants_whole_iff rt mint published.positive created).mpr
    ⟨published.apart, published.agree⟩
  have shuffled := published.loads loaded
  obtain ⟨found, served, named, entitled⟩ := whole.served claimant listed order shuffled
  obtain ⟨tree, member, leaf, _, address⟩ := loadTrees_some served
  refine ⟨tree, shuffled.mem_iff.mp member, found.2, leaf, named, ?_, entitled⟩
  rw [served, AirdropMerkleTree.address, ← address]

theorem mem_servedKeys (shuffled : order.Perm trees) {mint key : Pubkey} :
    key ∈ servedKeys rt mint order ↔ ∃ tree ∈ trees, tree.address rt mint = key := by
  simp only [servedKeys, List.mem_map, shuffled.mem_iff]
  rfl

/-- The cached record of a standing tree has the terms on chain. -/
theorem Serving.cached (serving : Serving rt format text args trees order files world events)
    (shuffled : order.Perm trees) {tree : AirdropMerkleTree} (made : tree ∈ trees)
    {distributor : MerkleDistributor}
    (found : (runService rt text ⟨world, startServer rt text args order⟩
      events).world.distributors (tree.address rt args.mint) = some distributor) :
    ∃ record, (runService rt text ⟨world, startServer rt text args order⟩
        events).server.router.cache.distributorCache (text.toStr (tree.address rt args.mint)) =
          some record ∧ SameTerms record distributor := by
  have wellFormed := (serving.standing tree made).wellFormed
  have served : tree.address rt args.mint ∈ servedKeys rt args.mint order :=
    (mem_servedKeys shuffled).mpr ⟨tree, made, rfl⟩
  have present : ∀ before, before <+: events → Present (servedKeys rt args.mint order)
      (runService rt text ⟨world, startServer rt text args order⟩ before).world := by
    intro before part key member
    obtain ⟨other, listed, rfl⟩ := (mem_servedKeys shuffled).mp member
    obtain ⟨record, here, _⟩ := (serving.standing other listed).record
      (part.filterMap ServiceEvent.transaction)
    rw [runService_world]
    exact ⟨record, here⟩
  have cached := serving.honest.hydrated (startServer_serves rt args order)
    (by simp [startServer]) present served (.inr serving.polled)
  obtain ⟨record, held⟩ := Option.isSome_iff_exists.mp cached
  refine ⟨record, held, ?_⟩
  have knows := serving.honest.knows wellFormed (startServer_knows args order)
  obtain ⟨key, _, named, before, part, seen⟩ := knows.records _ record held
  cases text.toStr_inj named
  obtain ⟨_, here, permanent⟩ := (serving.standing tree made).record
    (part.filterMap ServiceEvent.transaction)
  have moment := seen
  rw [runService_world] at moment
  cases moment.symm.trans here
  obtain ⟨after, rfl⟩ := part
  obtain ⟨now, final, terms⟩ := (serving.honest.split.1.wellFormed wellFormed).run_record seen
    permanent serving.honest.split.2.admissible
  rw [← runService_append_world] at final
  cases found.symm.trans final
  exact terms

/-- A claimant without a claim status on any tree has none in the cache. -/
theorem Serving.uncached (serving : Serving rt format text args trees order files world events)
    (wellFormed : WellFormed rt world) (shuffled : order.Perm trees)
    (unclaimed : ∀ tree ∈ trees, (runService rt text ⟨world, startServer rt text args order⟩
      events).world.claimStatuses claimant (tree.address rt args.mint) = none) :
    (runService rt text ⟨world, startServer rt text args order⟩
      events).server.router.cache.claimStatusCache (text.toStr claimant) = none := by
  by_contra cached
  obtain ⟨entry, held⟩ := Option.ne_none_iff_exists'.mp cached
  have knows := serving.honest.knows wellFormed (startServer_knows args order)
  obtain ⟨named, key, served, before, part, found⟩ := knows.statuses _ entry held
  cases text.toStr_inj named
  obtain ⟨tree, made, rfl⟩ := (mem_servedKeys shuffled).mp served
  obtain ⟨after, rfl⟩ := part
  obtain ⟨withdrawn, _, later⟩ := @run_status_grows rt _ _ _ _ found
    (after.filterMap ServiceEvent.transaction)
  rw [← runService_append_world, unclaimed tree made] at later
  cases later

end

/-! ### What the claimant sends -/

section
variable {rt : Runtime} {text : PubkeyText} {lookup : Lookup}

end

/-- An answer for a claimant without a cached status carries the whole leaf. -/
theorem Served.answers {text : PubkeyText} {state : RouterState} {claimant key : Pubkey}
    {node : TreeNode} {distributor : MerkleDistributor}
    (served : Served text state claimant key node distributor)
    (window : FitsI64 (distributor.endTs.toInt - distributor.startTs.toInt))
    (leafFits : node.amount.toNat + (node.lockedAmount.getD 0).toNat < 2 ^ 64)
    (uncached : state.cache.claimStatusCache (text.toStr claimant) = none) (asked : Int64) :
    ∃ answer, getEligibility text state (text.toStr claimant) asked = .ok [answer] ∧
      answer.claimant = text.toStr claimant ∧ answer.merkleTree = text.toStr key ∧
      answer.mint = (state.cache.termsOf text (text.toStr key)).mint ∧
      answer.endAmount = toString node.amount.toNat ∧
      answer.lockedAmount = toString (node.lockedAmount.getD 0).toNat ∧
      some answer.proof = node.proof := by
  obtain ⟨claimable, computed, _⟩ := claimFigures_none asked window leafFits
  obtain ⟨e, rfl, _⟩ := @Served.execution text state claimant key node distributor asked served
    ⟨0, 0, claimable⟩ (by rw [uncached]; exact computed)
    (show (0 : UInt64).toNat + (0 : UInt64).toNat < 2 ^ 64 by decide)
  have own : e.claimant = claimant :=
    Option.some.inj (e.parsed.symm.trans (text.fromStr_toStr claimant))
  have entry := e.entry
  rw [own, served.entry] at entry
  have same : e.node = node := (Prod.mk.inj (Option.some.inj entry)).2.symm
  refine ⟨e.answer, getEligibility_ok_iff.mpr ⟨e, rfl⟩, rfl, rfl, rfl, ?_, ?_, ?_⟩
  · rw [← same]
    rfl
  · rw [← same]
    rfl
  · rw [← same]
    exact e.stored.symm

namespace Sample
open Guarantees.Sharding.SampleCsv

section
variable (format : TreeFormat)

end

end Sample

end MultiDistributor.Source

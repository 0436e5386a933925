import MultiDistributor.Guarantees.Eligibility

/-!
# The claim-status cache of the API

The cache has one entry for each claimant. A message replaces the entry if its slot is not
below that of the entry, or if it comes from polling, which has no slot and counts as 0.
So websocket messages may come in any order, while a polling message is taken at its word:
it replaces a newer entry, and its own entry is replaced by an older websocket message.

The entry is kept under the claimant alone, like the index of the trees. An answer
therefore combines a leaf and a claim status of one distributor only if the entry does not
hold a claim status of another distributor.
-/
namespace MultiDistributor.Source
open Lib.Checked

theorem PubkeyText.toStr_inj (text : PubkeyText) {first second : Pubkey}
    (same : text.toStr first = text.toStr second) : first = second := by
  have parsed := text.fromStr_toStr first
  rw [same, text.fromStr_toStr] at parsed
  exact (Option.some.inj parsed).symm

/-! ### One message -/

/-- Everything a message can do to the cache. -/
inductive CacheStep (text : PubkeyText) (cache : ClaimStatusCache)
    (update : DataAndSlot ClaimStatus) : ClaimStatusCache → Prop
  | kept {entry : DataAndSlot ClaimStatus}
      (held : cache (text.toStr update.data.claimant) = some entry) :
      CacheStep text cache update cache
  | stored (accepted : ∀ entry, cache (text.toStr update.data.claimant) = some entry →
        entry.slot ≤ update.slot ∨ update.slot = 0) :
      CacheStep text cache update
        (Function.update cache (text.toStr update.data.claimant) (some update))

theorem cacheStep (text : PubkeyText) (cache : ClaimStatusCache)
    (update : DataAndSlot ClaimStatus) :
    CacheStep text cache update (receiveUpdate text cache update) := by
  unfold receiveUpdate
  dsimp only
  split
  · next entry held =>
    split
    · exact .kept held
    · split
      · next accepted =>
        refine .stored fun other found => ?_
        cases held.symm.trans found
        exact accepted.imp id And.left
      · exact .kept held
  · next absent =>
    refine .stored fun entry found => ?_
    cases absent.symm.trans found

theorem receiveUpdates_concat (text : PubkeyText) (cache : ClaimStatusCache)
    (updates : List (DataAndSlot ClaimStatus)) (update : DataAndSlot ClaimStatus) :
    receiveUpdates text cache (updates ++ [update]) =
      receiveUpdate text (receiveUpdates text cache updates) update := by
  simp [receiveUpdates]

/-! ### One account -/

/-- The states of a claim status account, one for each slot: that at the end of the slot. -/
structure History where
  claimant : Pubkey
  stateAt : UInt64 → ClaimStatus
  sameClaimant : ∀ slot, (stateAt slot).claimant = claimant
  forward : ∀ {early late : UInt64}, early ≤ late →
    (stateAt early).lockedAmountWithdrawn ≤ (stateAt late).lockedAmountWithdrawn

/-- The message carries the state of this slot; over the websocket it says so, polling has
slot 0. -/
def History.ReadAt (history : History) (slot : UInt64) (update : DataAndSlot ClaimStatus) :
    Prop :=
  update.data = history.stateAt slot ∧ (update.slot = 0 ∨ update.slot = slot)

/-- All messages about the claimant carry states of this account. -/
def History.Feeds (history : History) (updates : List (DataAndSlot ClaimStatus)) : Prop :=
  ∀ update ∈ updates, update.data.claimant = history.claimant →
    ∃ slot, history.ReadAt slot update

/-- A message and the slot its state was read at. -/
structure Delivery where
  update : DataAndSlot ClaimStatus
  readAt : UInt64

/-- If the entry or a message about the claimant that meets it came from polling, the message
does not carry the older state. -/
def History.PollsInOrder (history : History) (entry message : Delivery) : Prop :=
  message.update.data.claimant = history.claimant →
    entry.update.slot = 0 ∨ message.update.slot = 0 → entry.readAt ≤ message.readAt

instance (history : History) : DecidableRel history.PollsInOrder := fun _ _ =>
  inferInstanceAs (Decidable (_ → _ → _))

/-- The messages meet the entries of the cache in this order, the first of them the entry
`entry`: each meets what the messages before it have left. -/
def History.MeetsInOrder (history : History) (text : PubkeyText) (cache : ClaimStatusCache)
    (entry : Delivery) : List Delivery → Prop
  | [] => True
  | message :: later =>
    let after := receiveUpdate text cache message.update
    history.PollsInOrder entry message ∧
      (after (text.toStr history.claimant) = some entry.update →
        history.MeetsInOrder text after entry later) ∧
      (after (text.toStr history.claimant) = some message.update →
        history.MeetsInOrder text after message later)

instance History.decidableMeetsInOrder (history : History) (text : PubkeyText)
    (cache : ClaimStatusCache) (entry : Delivery) (later : List Delivery) :
    Decidable (history.MeetsInOrder text cache entry later) :=
  match later with
  | [] => .isTrue trivial
  | message :: later =>
    let after := receiveUpdate text cache message.update
    have := history.decidableMeetsInOrder text after entry later
    have := history.decidableMeetsInOrder text after message later
    inferInstanceAs (Decidable (_ ∧ (_ → _) ∧ (_ → _)))

section
variable {text : PubkeyText} {history : History} {cache after : ClaimStatusCache}
  {before head : Delivery}

theorem History.ReadAt.claimant {slot : UInt64} {update : DataAndSlot ClaimStatus}
    (read : history.ReadAt slot update) : update.data.claimant = history.claimant := by
  rw [read.1, history.sameClaimant]

/-- A message that replaces the entry was not read before it. -/
theorem readAt_le_of_accepted (read : history.ReadAt before.readAt before.update)
    (newer : history.ReadAt head.readAt head.update)
    (accepted : before.update.slot ≤ head.update.slot ∨ head.update.slot = 0)
    (ordered : history.PollsInOrder before head) : before.readAt ≤ head.readAt := by
  have polls := ordered newer.claimant
  rcases read.2 with polledBefore | datedBefore
  · exact polls (Or.inl polledBefore)
  · rcases newer.2 with polled | dated
    · exact polls (Or.inr polled)
    · rcases accepted with slots | polled
      · rw [← datedBefore, ← dated]
        exact slots
      · exact polls (Or.inr polled)

/-- One message leaves the entry or moves it forward to the message. -/
theorem CacheStep.forward (step : CacheStep text cache head.update after)
    (cached : cache (text.toStr history.claimant) = some before.update)
    (read : history.ReadAt before.readAt before.update)
    (reported : head.update.data.claimant = history.claimant →
      history.ReadAt head.readAt head.update)
    (ordered : history.PollsInOrder before head) :
    after (text.toStr history.claimant) = some before.update ∨
      after (text.toStr history.claimant) = some head.update ∧
        history.ReadAt head.readAt head.update ∧ before.readAt ≤ head.readAt := by
  cases step with
  | kept held => exact Or.inl cached
  | stored accepted =>
    by_cases same : head.update.data.claimant = history.claimant
    · rw [same] at accepted
      refine Or.inr ⟨by rw [same, Function.update_self], reported same, ?_⟩
      exact readAt_le_of_accepted read (reported same) (accepted before.update cached) ordered
    · refine Or.inl ?_
      rw [Function.update_of_ne fun equal => same (text.toStr_inj equal).symm]
      exact cached

theorem receiveUpdates_forward {later : List Delivery}
    (cached : cache (text.toStr history.claimant) = some before.update)
    (read : history.ReadAt before.readAt before.update)
    (reported : ∀ delivery ∈ later, delivery.update.data.claimant = history.claimant →
      history.ReadAt delivery.readAt delivery.update)
    (ordered : history.MeetsInOrder text cache before later) :
    ∃ last : Delivery,
      receiveUpdates text cache (later.map Delivery.update) (text.toStr history.claimant) =
        some last.update ∧
      history.ReadAt last.readAt last.update ∧ before.readAt ≤ last.readAt := by
  induction later generalizing cache before with
  | nil => exact ⟨before, cached, read, UInt64.le_refl _⟩
  | cons head rest ih =>
    obtain ⟨met, afterKept, afterStored⟩ := ordered
    have step := (cacheStep text cache head.update).forward cached read
      (reported head List.mem_cons_self) met
    have further : ∀ delivery ∈ rest, delivery.update.data.claimant = history.claimant →
        history.ReadAt delivery.readAt delivery.update :=
      fun delivery member => reported delivery (List.mem_cons_of_mem _ member)
    rcases step with kept | ⟨stored, readHead, moved⟩
    · exact ih kept read further (afterKept kept)
    · obtain ⟨last, found, readLast, later⟩ := ih stored readHead further (afterStored stored)
      exact ⟨last, found, readLast, UInt64.le_trans moved later⟩

end

/-- From any moment on, the withdrawn amount of the cached entry never decreases as long as
no poll is older than the entry it meets and no message is older than the entry of a poll. -/
theorem cached_entry_never_goes_back (text : PubkeyText) {history : History}
    {earlier : List (DataAndSlot ClaimStatus)} {before : Delivery} {later : List Delivery}
    (cached : receiveUpdates text (fun _ => none) earlier (text.toStr history.claimant) =
      some before.update)
    (read : history.ReadAt before.readAt before.update)
    (reported : ∀ delivery ∈ later, delivery.update.data.claimant = history.claimant →
      history.ReadAt delivery.readAt delivery.update)
    (ordered : history.MeetsInOrder text
      (receiveUpdates text (fun _ => none) earlier) before later) :
    ∃ entry, receiveUpdates text (fun _ => none) (earlier ++ later.map Delivery.update)
        (text.toStr history.claimant) = some entry ∧
      before.update.data.lockedAmountWithdrawn ≤ entry.data.lockedAmountWithdrawn := by
  have split : receiveUpdates text (fun _ => none) (earlier ++ later.map Delivery.update) =
      receiveUpdates text (receiveUpdates text (fun _ => none) earlier)
        (later.map Delivery.update) := List.foldl_append
  obtain ⟨last, found, readLast, moved⟩ := receiveUpdates_forward cached read reported ordered
  refine ⟨last.update, by rw [split]; exact found, ?_⟩
  rw [read.1, readLast.1]
  exact history.forward moved

namespace Sample
open Guarantees.Sharding.SampleCsv

/-- An account that has withdrawn as many tokens as slots have passed. -/
def withdrawing : History where
  claimant := wallet
  stateAt slot :=
    { claimant := wallet, lockedAmount := 70, lockedAmountWithdrawn := slot, unlockedAmount := 100
      unlockedAmountClaimed := 50, closable := false, distributor := pda }
  sameClaimant _ := rfl
  forward := id

def seen (slot : UInt64) : DataAndSlot ClaimStatus := ⟨withdrawing.stateAt slot, slot⟩
def polled (slot : UInt64) : DataAndSlot ClaimStatus := ⟨withdrawing.stateAt slot, 0⟩

theorem seen_readAt (slot : UInt64) : withdrawing.ReadAt slot (seen slot) :=
  ⟨rfl, Or.inr rfl⟩

theorem polled_readAt (slot : UInt64) : withdrawing.ReadAt slot (polled slot) :=
  ⟨rfl, Or.inl rfl⟩

theorem first_stored (update : DataAndSlot ClaimStatus) :
    receiveUpdates latinText (fun _ => none) [update] (latinText.toStr update.data.claimant) =
      some update := by
  simp only [receiveUpdates, List.foldl_cons, List.foldl_nil, receiveUpdate, Function.update_self]

end Sample

open Sample Guarantees.Sharding.SampleCsv in
/-- The message of slot 3 meets the entry of slot 5 and is refused; the poll of slot 8 is newer
than that entry, and the message of slot 9 than the poll. The message of slot 7 is older than
the poll, but it meets the entry of slot 9. -/
theorem cached_entry_kept_on_late_message :
    ∃ entry, receiveUpdates latinText (fun _ => none)
        ([seen 5] ++ [seen 3, polled 8, seen 9, seen 7])
        (latinText.toStr withdrawing.claimant) = some entry ∧
      5 ≤ entry.data.lockedAmountWithdrawn := by
  let later : List Delivery := [⟨seen 3, 3⟩, ⟨polled 8, 8⟩, ⟨seen 9, 9⟩, ⟨seen 7, 7⟩]
  have reported : ∀ delivery ∈ later, delivery.update.data.claimant = withdrawing.claimant →
      withdrawing.ReadAt delivery.readAt delivery.update := by
    intro delivery member _
    simp only [later, List.mem_cons, List.not_mem_nil, or_false] at member
    rcases member with rfl | rfl | rfl | rfl
    · exact seen_readAt 3
    · exact polled_readAt 8
    · exact seen_readAt 9
    · exact seen_readAt 7
  have ordered : withdrawing.MeetsInOrder latinText
      (receiveUpdates latinText (fun _ => none) [seen 5]) ⟨seen 5, 5⟩ later := by
    decide +kernel
  exact cached_entry_never_goes_back latinText (first_stored (seen 5)) (seen_readAt 5) reported
    ordered

open Sample Guarantees.Sharding.SampleCsv in
/-- A poll of slot 5 that arrives after the websocket message of slot 10 takes the entry
back. -/
theorem stale_poll_takes_entry_back :
    withdrawing.Feeds [seen 10, polled 5] ∧
      ∃ before after,
        receiveUpdates latinText (fun _ => none) [seen 10]
          (latinText.toStr withdrawing.claimant) = some before ∧
        receiveUpdates latinText (fun _ => none) [seen 10, polled 5]
          (latinText.toStr withdrawing.claimant) = some after ∧
        after.data.lockedAmountWithdrawn < before.data.lockedAmountWithdrawn := by
  have feeds : withdrawing.Feeds [seen 10, polled 5] := by
    intro update member _
    simp only [List.mem_cons, List.not_mem_nil, or_false] at member
    rcases member with rfl | rfl
    · exact ⟨10, seen_readAt 10⟩
    · exact ⟨5, polled_readAt 5⟩
  have first := first_stored (seen 10)
  have differs : ¬ (seen 10).data = (polled 5).data := by decide
  have overrides : (seen 10).slot ≤ (polled 5).slot ∨
      ((polled 5).slot = 0 ∧ (seen 10).data ≠ (polled 5).data) := .inr ⟨rfl, differs⟩
  have second : receiveUpdates latinText (fun _ => none) [seen 10, polled 5]
      (latinText.toStr withdrawing.claimant) = some (polled 5) := by
    change receiveUpdate latinText (receiveUpdates latinText (fun _ => none) [seen 10])
      (polled 5) (latinText.toStr withdrawing.claimant) = some (polled 5)
    simp only [receiveUpdate]
    rw [show receiveUpdates latinText (fun _ => none) [seen 10]
        (latinText.toStr (polled 5).data.claimant) = some (seen 10) from first]
    simp only [if_neg differs, if_pos overrides]
    exact Function.update_self _ _ _
  exact ⟨feeds, seen 10, polled 5, first, second, by decide⟩

/-! ### One distributor in an answer -/

section
variable {text : PubkeyText}

/-- An entry holds what some message about its claimant carried. -/
theorem receiveUpdates_delivered {updates : List (DataAndSlot ClaimStatus)} {claimant : Pubkey}
    {entry : DataAndSlot ClaimStatus}
    (cached : receiveUpdates text (fun _ => none) updates (text.toStr claimant) = some entry) :
    entry ∈ updates ∧ entry.data.claimant = claimant := by
  induction updates using List.reverseRecOn with
  | nil => cases cached
  | append_singleton earlier update ih =>
    rw [receiveUpdates_concat] at cached
    have step := cacheStep text (receiveUpdates text (fun _ => none) earlier) update
    generalize receiveUpdate text (receiveUpdates text (fun _ => none) earlier) update = after
      at step cached
    cases step with
    | kept held =>
      obtain ⟨member, same⟩ := ih cached
      exact ⟨List.mem_append_left _ member, same⟩
    | stored accepted =>
      by_cases same : claimant = update.data.claimant
      · rw [same, Function.update_self] at cached
        cases cached
        exact ⟨List.mem_append_right _ (List.mem_singleton_self _), same.symm⟩
      · rw [Function.update_of_ne fun equal => same (text.toStr_inj equal)] at cached
        obtain ⟨member, known⟩ := ih cached
        exact ⟨List.mem_append_left _ member, known⟩

/-- A claimant without an entry has had no message. -/
theorem receiveUpdates_absent {updates : List (DataAndSlot ClaimStatus)} {claimant : Pubkey}
    (absent : receiveUpdates text (fun _ => none) updates (text.toStr claimant) = none) :
    ∀ update ∈ updates, update.data.claimant ≠ claimant := by
  induction updates using List.reverseRecOn with
  | nil =>
    intro update member
    cases member
  | append_singleton earlier last ih =>
    rw [receiveUpdates_concat] at absent
    have step := cacheStep text (receiveUpdates text (fun _ => none) earlier) last
    generalize receiveUpdate text (receiveUpdates text (fun _ => none) earlier) last = after
      at step absent
    have apart : last.data.claimant ≠ claimant := by
      rintro rfl
      cases step with
      | kept held => cases absent.symm.trans held
      | stored accepted => simp at absent
    have before : receiveUpdates text (fun _ => none) earlier (text.toStr claimant) = none := by
      cases step with
      | kept held => exact absent
      | stored accepted =>
        rwa [Function.update_of_ne fun equal => apart (text.toStr_inj equal).symm] at absent
    intro update member
    rcases List.mem_append.mp member with known | new
    · exact ih before update known
    · rw [List.mem_singleton.mp new]
      exact apart

end

/-- The three figures of an answer about a node are computed from this claim status, or as
for an unclaimed leaf. -/
def FiguresFrom (state : RouterState) (node : TreeNode) (currTs : Int64)
    (status : Option ClaimStatus) (answer : EligibilityResp) : Prop :=
  ∃ figures, claimFigures status node.amount (node.lockedAmount.getD 0) currTs answer.startTs
      answer.endTs state.startAmountPct = .ok figures ∧
    answer.unlockedAmountClaimed = toString figures.unlockedAmountClaimed.toNat ∧
    answer.lockedAmountWithdrawn = toString figures.lockedAmountWithdrawn.toNat ∧
    answer.claimableAmount = toString figures.claimableAmount.toNat

theorem EligibilityExecution.figuresFrom {text : PubkeyText} {state : RouterState}
    {userPubkey : String} {currTs : Int64}
    (e : EligibilityExecution text state userPubkey currTs) :
    FiguresFrom state e.node currTs
      ((state.cache.claimStatusCache userPubkey).map DataAndSlot.data) e.answer :=
  ⟨e.figures, e.computed, rfl, rfl, rfl⟩

/-- If the cached entry of the claimant asked for is one of the distributor that the index has
for the claimant, each answer takes its figures from a delivered claim status of the claimant
and the distributor it names, and as for an unclaimed leaf if there is none. -/
theorem answer_combines_one_distributor {rt : Runtime} {mint : Pubkey} {text : PubkeyText}
    {order : List AirdropMerkleTree} {updates : List (DataAndSlot ClaimStatus)}
    {state : RouterState} (index : state.tree = loadTrees rt mint order)
    (cache : state.cache.claimStatusCache = receiveUpdates text (fun _ => none) updates)
    {userPubkey : String}
    (matching : ∀ claimant key node entry, text.fromStr userPubkey = some claimant →
      loadTrees rt mint order claimant = some (key, node) →
      receiveUpdates text (fun _ => none) updates userPubkey = some entry →
        entry.data.distributor = key)
    {currTs : Int64} {answers : List EligibilityResp}
    (answered : getEligibility text state userPubkey currTs = .ok answers) :
    ∀ answer ∈ answers, ∃ claimant key node, text.fromStr userPubkey = some claimant ∧
      loadTrees rt mint order claimant = some (key, node) ∧ answer.merkleTree = text.toStr key ∧
      ((∃ update ∈ updates, update.data.claimant = claimant ∧ update.data.distributor = key ∧
          FiguresFrom state node currTs (some update.data) answer) ∨
        ((∀ update ∈ updates, update.data.claimant = claimant →
            update.data.distributor ≠ key) ∧
          FiguresFrom state node currTs none answer)) := by
  obtain ⟨e, rfl⟩ := getEligibility_ok_iff.mp answered
  intro answer member
  obtain rfl := List.mem_singleton.mp member
  have indexed := e.entry
  rw [index] at indexed
  have computed := e.figuresFrom
  have canonical : userPubkey = text.toStr e.claimant :=
    text.fromStr_inj e.parsed (text.fromStr_toStr e.claimant)
  rw [cache] at computed
  refine ⟨e.claimant, e.key, e.node, e.parsed, indexed, rfl, ?_⟩
  cases cached : receiveUpdates text (fun _ => none) updates userPubkey with
  | some entry =>
    rw [cached] at computed
    have own := matching e.claimant e.key e.node entry e.parsed indexed cached
    rw [canonical] at cached
    obtain ⟨delivered, same⟩ := receiveUpdates_delivered cached
    exact .inl ⟨entry, delivered, same, own, computed⟩
  | none =>
    rw [cached] at computed
    rw [canonical] at cached
    have silent := receiveUpdates_absent cached
    exact .inr ⟨fun update listed own => absurd own (silent update listed), computed⟩

namespace Sample
open Guarantees.Sharding.SampleCsv

/-- Each version of a distributor has an address of its own. -/
def versionRt : Runtime :=
  { rt with createProgramAddress := fun _ version _ => if version = 0 then pda else vault }

/-- A tree of the given version with the sample leaf. -/
def versionTree (airdropVersion : UInt64) : AirdropMerkleTree :=
  { merkleRoot := claimLeaf digest wallet 100 70, airdropVersion, maxNumNodes := 1
    maxTotalClaim := 170, treeNodes := [servedLeaf] }

/-- A server that has loaded the trees and received the messages. -/
def loadedServer (order : List AirdropMerkleTree) (updates : List (DataAndSlot ClaimStatus))
    (record : MerkleDistributor) : RouterState :=
  { serverOf record with
    tree := loadTrees versionRt mint order
    cache := { (serverOf record).cache with
      claimStatusCache := receiveUpdates latinText (fun _ => none) updates } }

/-- The server answers with the claimed amount of the entry it has cached. -/
theorem loadedServer_answers {order : List AirdropMerkleTree}
    {updates : List (DataAndSlot ClaimStatus)} {key : Pubkey} {entry : DataAndSlot ClaimStatus}
    (record : MerkleDistributor)
    (indexed : loadTrees versionRt mint order wallet = some (key, servedLeaf))
    (cached : receiveUpdates latinText (fun _ => none) updates (latinText.toStr wallet) =
      some entry)
    (fits : entry.data.unlockedAmountClaimed.toNat + entry.data.lockedAmountWithdrawn.toNat <
      2 ^ 64) :
    ∃ answer, getEligibility latinText (loadedServer order updates record)
        (latinText.toStr wallet) 30 = .ok [answer] ∧
      answer.merkleTree = latinText.toStr key ∧
      answer.unlockedAmountClaimed = toString entry.data.unlockedAmountClaimed.toNat := by
  have served : Served latinText (loadedServer order updates record) wallet key servedLeaf
      record := ⟨indexed, ⟨[], rfl⟩, rfl, record, rfl, rfl, rfl⟩
  have held : (loadedServer order updates record).cache.claimStatusCache
      (latinText.toStr wallet) = some entry := cached
  have computed : claimFigures (((loadedServer order updates record).cache.claimStatusCache
      (latinText.toStr wallet)).map DataAndSlot.data) servedLeaf.amount
      (servedLeaf.lockedAmount.getD 0) 30 record.startTs record.endTs 50 =
      .ok { unlockedAmountClaimed := entry.data.unlockedAmountClaimed
            lockedAmountWithdrawn := entry.data.lockedAmountWithdrawn
            claimableAmount := (entry.data.amountWithdrawable 30 record.startTs
              record.endTs).toOption.getD 0 } := by
    rw [held]
    rfl
  obtain ⟨e, rfl, figures⟩ := served.execution computed fits
  refine ⟨e.answer, getEligibility_ok_iff.mpr ⟨e, rfl⟩, rfl, ?_⟩
  rw [EligibilityExecution.answer, figures]

end Sample

open Sample Guarantees.Sharding.SampleCsv in
/-- With the tree and the claim status of one distributor, the answer combines the two. -/
theorem answer_combines_one_distributor_on_sample :
    ∃ record answer, getEligibility latinText (loadedServer [versionTree 0] [seen 10] record)
        (latinText.toStr wallet) 30 = .ok [answer] ∧
      ∃ claimant key node, latinText.fromStr (latinText.toStr wallet) = some claimant ∧
        loadTrees versionRt mint [versionTree 0] claimant = some (key, node) ∧
        answer.merkleTree = latinText.toStr key ∧
        ((∃ update ∈ [seen 10], update.data.claimant = claimant ∧
            update.data.distributor = key ∧
            FiguresFrom (loadedServer [versionTree 0] [seen 10] record) node 30
              (some update.data) answer) ∨
          ((∀ update ∈ [seen 10], update.data.claimant = claimant →
              update.data.distributor ≠ key) ∧
            FiguresFrom (loadedServer [versionTree 0] [seen 10] record) node 30 none answer)) := by
  obtain ⟨record, _⟩ := deployed_claimable 30
  have indexed : loadTrees versionRt mint [versionTree 0] wallet = some (pda, servedLeaf) := by
    decide +kernel
  have matching : ∀ claimant key node entry,
      latinText.fromStr (latinText.toStr wallet) = some claimant →
      loadTrees versionRt mint [versionTree 0] claimant = some (key, node) →
      receiveUpdates latinText (fun _ => none) [seen 10] (latinText.toStr wallet) = some entry →
        entry.data.distributor = key := by
    intro claimant key node entry parsed found cached
    obtain rfl := Option.some.inj ((latinText.fromStr_toStr wallet).symm.trans parsed)
    obtain ⟨same, _⟩ := Prod.mk.inj (Option.some.inj (indexed.symm.trans found))
    obtain rfl := Option.some.inj ((first_stored (seen 10)).symm.trans cached)
    exact same
  obtain ⟨answer, answered, _⟩ := loadedServer_answers record indexed (first_stored (seen 10))
    (by decide)
  exact ⟨record, answer, answered, answer_combines_one_distributor rfl rfl matching answered
    answer (List.mem_singleton_self _)⟩

open Sample Guarantees.Sharding.SampleCsv in
/-- Two distributors list the claimant. The answer names the second one, which has no claim
status, and states the 50 tokens that were claimed from the first. -/
theorem answer_combines_two_distributors :
    ∃ record answer, getEligibility latinText
        (loadedServer [versionTree 0, versionTree 1] [seen 10] record)
        (latinText.toStr wallet) 30 = .ok [answer] ∧
      answer.merkleTree = latinText.toStr (versionRt.distributorAddress mint 1) ∧
      (∀ update ∈ [seen 10], update.data.distributor ≠ versionRt.distributorAddress mint 1) ∧
      answer.unlockedAmountClaimed = toString 50 ∧
      ¬ FiguresFrom (loadedServer [versionTree 0, versionTree 1] [seen 10] record) servedLeaf 30
        none answer := by
  obtain ⟨record, _⟩ := deployed_claimable 30
  have indexed : loadTrees versionRt mint [versionTree 0, versionTree 1] wallet =
      some (versionRt.distributorAddress mint 1, servedLeaf) := by decide +kernel
  have other : ∀ update ∈ [seen 10],
      update.data.distributor ≠ versionRt.distributorAddress mint 1 := by decide +kernel
  obtain ⟨answer, answered, named, stated⟩ :=
    loadedServer_answers record indexed (first_stored (seen 10)) (by decide)
  refine ⟨record, answer, answered, named, other, stated, ?_⟩
  rintro ⟨figures, computed, unclaimed, _⟩
  simp only [claimFigures, bind_ok_iff, pure_ok_iff] at computed
  obtain ⟨_, _, _, _, _, _, rfl⟩ := computed
  have different : toString (50 : UInt64).toNat ≠ toString (0 : UInt64).toNat := by
    decide +kernel
  exact different (stated.symm.trans unclaimed)

end MultiDistributor.Source

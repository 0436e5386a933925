import MultiDistributor.Guarantees.AirdropTree
import MultiDistributor.Lib.Grouping

/-!
# When the builder returns a tree, and which one

`AirdropMerkleTree::new` combines the rows of each claimant before it hashes. The rows
seen so far and the combined list are kept in the relation `Combines`; the total over all
rows bounds every intermediate sum, so the width of that one total decides whether any
`unwrap` along the way can fail.
-/
namespace MultiDistributor.Guarantees.TreeBuilding
open Source Lib.ByteString Lib.Checked Lib.Grouping MerkleProofs

/-- A missing locked amount counts as zero. -/
def lockedValue (node : TreeNode) : Nat := (node.lockedAmount.getD 0).toNat

def amountValue (node : TreeNode) : Nat := node.amount.toNat

/-- `nodes` holds one node for each claimant of `rows`, in order of first occurrence,
with the sums of that claimant's rows. -/
structure Combines (rows nodes : List TreeNode) : Prop where
  order : nodes.map TreeNode.claimant = (rows.map TreeNode.claimant).eraseDups
  amounts : ∀ node ∈ nodes,
    amountValue node = total TreeNode.claimant amountValue rows node.claimant
  locked : ∀ node ∈ nodes,
    lockedValue node = total TreeNode.claimant lockedValue rows node.claimant
  missing : ∀ node ∈ nodes, node.lockedAmount = none ↔
    ∀ row ∈ rows, row.claimant = node.claimant → row.lockedAmount = none

/-! ### One row -/

theorem combineLocked_ok_iff {first second sum : Option UInt64} :
    combineLocked first second = .ok sum ↔
      (sum.getD 0).toNat = (first.getD 0).toNat + (second.getD 0).toNat ∧
        (sum = none ↔ first = none ∧ second = none) := by
  cases first with
  | none =>
    cases second with
    | none => cases sum <;> simp [combineLocked]
    | some b => cases sum <;> simp [combineLocked, UInt64.toNat_inj, eq_comm]
  | some a =>
    cases second with
    | none => cases sum <;> simp [combineLocked, UInt64.toNat_inj, eq_comm]
    | some b =>
      simp only [combineLocked, bind_ok_iff, okOr_ok_iff, pure_ok_iff, checkedAdd_eq_some]
      cases sum <;> simp

theorem combineNodes_ok_iff {n row node : TreeNode} :
    combineNodes n row = .ok node ↔
      node.claimant = n.claimant ∧ node.proof = n.proof ∧
      amountValue node = amountValue n + amountValue row ∧
      lockedValue node = lockedValue n + lockedValue row ∧
      (node.lockedAmount = none ↔ n.lockedAmount = none ∧ row.lockedAmount = none) := by
  simp only [combineNodes, bind_ok_iff, okOr_ok_iff, pure_ok_iff, checkedAdd_eq_some,
    combineLocked_ok_iff, amountValue, lockedValue]
  constructor
  · rintro ⟨amount, sum, locked, ⟨value, missing⟩, rfl⟩
    exact ⟨rfl, rfl, sum, value, missing⟩
  · rintro ⟨claimant, proof, sum, value, missing⟩
    refine ⟨node.amount, sum, node.lockedAmount, ⟨value, missing⟩, ?_⟩
    cases node
    cases n
    simp_all

theorem insertNode_absent {nodes : List TreeNode} {row : TreeNode}
    (absent : row.claimant ∉ nodes.map TreeNode.claimant) :
    insertNode nodes row = .ok (nodes ++ [row]) := by
  induction nodes with
  | nil => rfl
  | cons n rest ih =>
    rw [List.map_cons, List.mem_cons, not_or] at absent
    rw [insertNode, if_neg (Ne.symm absent.1), ih absent.2]
    rfl

/-- The node of the row's claimant is replaced where it stands. -/
theorem insertNode_present {front back : List TreeNode} {n row : TreeNode}
    (first : row.claimant ∉ front.map TreeNode.claimant) (here : n.claimant = row.claimant) :
    insertNode (front ++ n :: back) row =
      (combineNodes n row).map fun node => front ++ node :: back := by
  induction front with
  | nil =>
    rw [List.nil_append, insertNode, if_pos here]
    cases combineNodes n row <;> rfl
  | cons head rest ih =>
    rw [List.map_cons, List.mem_cons, not_or] at first
    rw [List.cons_append, insertNode, if_neg (Ne.symm first.1), ih first.2]
    cases combineNodes n row <;> rfl

/-! ### The rows seen so far -/

theorem Combines.distinct {rows nodes : List TreeNode} (combines : Combines rows nodes) :
    (nodes.map TreeNode.claimant).Nodup := by
  rw [combines.order]
  exact eraseDups_nodup _

theorem Combines.mem_iff {rows nodes : List TreeNode} (combines : Combines rows nodes)
    (claimant : Pubkey) :
    claimant ∈ nodes.map TreeNode.claimant ↔ claimant ∈ rows.map TreeNode.claimant := by
  rw [combines.order, List.mem_eraseDups]

/-- A claimant without a node yet gets the row itself. -/
theorem Combines.step_absent {rows nodes : List TreeNode} {row : TreeNode}
    (combines : Combines rows nodes) (absent : row.claimant ∉ nodes.map TreeNode.claimant) :
    Combines (rows ++ [row]) (nodes ++ [row]) := by
  have unseen : row.claimant ∉ rows.map TreeNode.claimant :=
    fun seen => absent ((combines.mem_iff _).mpr seen)
  have others : ∀ node ∈ nodes, row.claimant ≠ node.claimant :=
    fun node member same => absent (List.mem_map.mpr ⟨node, member, same.symm⟩)
  have sums : ∀ value : TreeNode → Nat,
      (∀ node ∈ nodes, value node = total TreeNode.claimant value rows node.claimant) →
      ∀ node ∈ nodes ++ [row],
        value node = total TreeNode.claimant value (rows ++ [row]) node.claimant := by
    intro value exact node member
    rw [total_concat]
    rcases List.mem_append.mp member with earlier | last
    · rw [if_neg (others node earlier), Nat.add_zero]
      exact exact node earlier
    · rw [List.mem_singleton.mp last, if_pos rfl, total_of_absent _ _ unseen, Nat.zero_add]
  refine { order := ?_, amounts := sums _ combines.amounts, locked := sums _ combines.locked,
           missing := fun node member => ?_ }
  · rw [List.map_append, List.map_append, List.map_singleton, eraseDups_concat, if_neg unseen,
      combines.order]
  · simp only [List.forall_mem_append, List.forall_mem_singleton]
    rcases List.mem_append.mp member with earlier | last
    · rw [combines.missing node earlier]
      exact (and_iff_left fun same => absurd same (others node earlier)).symm
    · rw [List.mem_singleton.mp last]
      constructor
      · intro none
        exact ⟨fun other seen same => absurd (List.mem_map.mpr ⟨other, seen, same⟩) unseen,
          fun _ => none⟩
      · exact fun none => none.2 rfl

/-- A claimant with a node gets the row added to it. -/
theorem Combines.step_present {rows front back : List TreeNode} {n row node : TreeNode}
    (combines : Combines rows (front ++ n :: back)) (here : n.claimant = row.claimant)
    (combined : combineNodes n row = .ok node) :
    Combines (rows ++ [row]) (front ++ node :: back) := by
  obtain ⟨claimant, _, amount, locked, missing⟩ := combineNodes_ok_iff.mp combined
  have member : n ∈ front ++ n :: back := by simp
  have others : ∀ other ∈ front ++ back, row.claimant ≠ other.claimant := by
    have distinct := combines.distinct
    rw [List.map_append, List.map_cons, List.nodup_middle, List.nodup_cons,
      ← List.map_append] at distinct
    intro other belongs same
    exact distinct.1 (List.mem_map.mpr ⟨other, belongs, by rw [← same, here]⟩)
  have cases_of : ∀ {other : TreeNode}, other ∈ front ++ node :: back →
      other = node ∨ other ∈ front ++ back ∧ other ∈ front ++ n :: back := by
    intro other belongs
    simp only [List.mem_append, List.mem_cons] at belongs ⊢
    tauto
  have sums : ∀ value : TreeNode → Nat, value node = value n + value row →
      (∀ other ∈ front ++ n :: back,
        value other = total TreeNode.claimant value rows other.claimant) →
      ∀ other ∈ front ++ node :: back,
        value other = total TreeNode.claimant value (rows ++ [row]) other.claimant := by
    intro value sum exact other belongs
    rw [total_concat]
    rcases cases_of belongs with rfl | ⟨elsewhere, kept⟩
    · rw [claimant, if_pos here.symm, sum, exact n member]
    · rw [if_neg (others other elsewhere), Nat.add_zero]
      exact exact other kept
  refine { order := ?_, amounts := sums _ amount combines.amounts,
           locked := sums _ locked combines.locked, missing := fun other belongs => ?_ }
  · have seen : row.claimant ∈ rows.map TreeNode.claimant :=
      (combines.mem_iff _).mp (List.mem_map.mpr ⟨n, member, here⟩)
    have order := combines.order
    rw [List.map_append, List.map_cons] at order
    rw [List.map_append, List.map_cons, claimant, List.map_append, List.map_singleton,
      eraseDups_concat, if_pos seen, order]
  · simp only [List.forall_mem_append, List.forall_mem_singleton]
    rcases cases_of belongs with rfl | ⟨elsewhere, kept⟩
    · rw [missing, combines.missing n member, claimant]
      exact and_congr_right fun _ => ⟨fun none _ => none, fun implied => implied here.symm⟩
    · rw [combines.missing other kept]
      exact (and_iff_left fun same => absurd same (others other elsewhere)).symm

/-- The node of a claimant, and that no earlier node is. -/
theorem Combines.split {rows nodes : List TreeNode} (combines : Combines rows nodes)
    {claimant : Pubkey} (listed : claimant ∈ nodes.map TreeNode.claimant) :
    ∃ front n back, nodes = front ++ n :: back ∧ n.claimant = claimant ∧
      claimant ∉ front.map TreeNode.claimant := by
  obtain ⟨n, member, rfl⟩ := List.mem_map.mp listed
  obtain ⟨front, back, rfl⟩ := List.append_of_mem member
  refine ⟨front, n, back, rfl, rfl, fun earlier => ?_⟩
  have distinct := combines.distinct
  rw [List.map_append, List.map_cons, List.nodup_middle, List.nodup_cons] at distinct
  exact distinct.1 (List.mem_append_left _ earlier)

theorem Combines.step {rows nodes next : List TreeNode} {row : TreeNode}
    (combines : Combines rows nodes) (success : insertNode nodes row = .ok next) :
    Combines (rows ++ [row]) next := by
  by_cases listed : row.claimant ∈ nodes.map TreeNode.claimant
  · obtain ⟨front, n, back, rfl, here, first⟩ := combines.split listed
    rw [insertNode_present first here] at success
    cases combined : combineNodes n row with
    | error reason =>
      rw [combined] at success
      cases success
    | ok node =>
      rw [combined] at success
      cases success
      exact combines.step_present here combined
  · rw [insertNode_absent listed] at success
    cases success
    exact combines.step_absent listed

/-- Combining a row succeeds when its claimant's sums still fit. -/
theorem Combines.step_total {rows nodes : List TreeNode} {row : TreeNode}
    (combines : Combines rows nodes)
    (amounts : total TreeNode.claimant amountValue (rows ++ [row]) row.claimant < 2 ^ 64)
    (locked : total TreeNode.claimant lockedValue (rows ++ [row]) row.claimant < 2 ^ 64) :
    ∃ next, insertNode nodes row = .ok next := by
  by_cases listed : row.claimant ∈ nodes.map TreeNode.claimant
  · obtain ⟨front, n, back, rfl, here, first⟩ := combines.split listed
    have member : n ∈ front ++ n :: back := by simp
    rw [total_concat, if_pos rfl, ← here, ← combines.amounts n member] at amounts
    rw [total_concat, if_pos rfl, ← here, ← combines.locked n member] at locked
    obtain ⟨amount, sum⟩ := exists_u64 amounts
    obtain ⟨lockedSum, lockedValue_eq⟩ := exists_u64 locked
    let lockedAmount : Option UInt64 :=
      if n.lockedAmount = none ∧ row.lockedAmount = none then none else some lockedSum
    have combined : combineNodes n row = .ok { n with amount, lockedAmount } := by
      rw [combineNodes_ok_iff]
      refine ⟨rfl, rfl, sum, ?_, ?_⟩
      · by_cases none : n.lockedAmount = none ∧ row.lockedAmount = none
        · simp [lockedValue, lockedAmount, none]
        · simpa [lockedValue, lockedAmount, none] using lockedValue_eq
      · simp only [lockedAmount]
        split <;> simp_all
    rw [insertNode_present first here, combined]
    exact ⟨_, rfl⟩
  · exact ⟨_, insertNode_absent listed⟩

/-! ### All rows -/

theorem Combines.run {rows nodes rest result : List TreeNode} (combines : Combines rows nodes)
    (success : rest.foldlM insertNode nodes = .ok result) : Combines (rows ++ rest) result :=
  foldlM_seen Combines.step combines success

theorem Combines.run_total {rows nodes rest : List TreeNode} (combines : Combines rows nodes)
    (fits : ((rows ++ rest).map entitlement).sum < 2 ^ 64) :
    ∃ result, rest.foldlM insertNode nodes = .ok result := by
  induction rest generalizing rows nodes with
  | nil => exact ⟨nodes, rfl⟩
  | cons row rest ih =>
    have reordered : rows ++ row :: rest = rows ++ [row] ++ rest := by simp
    rw [reordered] at fits
    -- the total over all rows bounds both sums of this claimant
    have whole := total_le_sum TreeNode.claimant entitlement (rows ++ [row]) row.claimant
    have parts := total_add TreeNode.claimant amountValue lockedValue (rows ++ [row]) row.claimant
    have parted : ((rows ++ [row] ++ rest).map entitlement).sum =
        ((rows ++ [row]).map entitlement).sum + (rest.map entitlement).sum := by
      rw [List.map_append, List.sum_append]
    change total TreeNode.claimant entitlement _ _ = _ at parts
    have combinable : ∃ next, insertNode nodes row = .ok next :=
      combines.step_total (by omega) (by omega)
    obtain ⟨next, inserted⟩ := combinable
    obtain ⟨result, later⟩ := ih (combines.step inserted) fits
    refine ⟨result, ?_⟩
    rw [List.foldlM_cons, inserted]
    exact later

theorem combines_nil : Combines [] [] where
  order := rfl
  amounts := by simp
  locked := by simp
  missing := by simp

theorem Combines.sum {rows nodes : List TreeNode} (combines : Combines rows nodes) :
    (nodes.map entitlement).sum = (rows.map entitlement).sum := by
  have covered : ∀ row ∈ rows, row.claimant ∈ nodes.map TreeNode.claimant :=
    fun row member => (combines.mem_iff _).mpr (List.mem_map_of_mem member)
  rw [← sum_total TreeNode.claimant entitlement combines.distinct covered, List.map_map]
  congr 1
  apply List.map_congr_left
  intro node member
  change amountValue node + lockedValue node = total _ _ _ _
  rw [combines.amounts node member, combines.locked node member, ← total_add]
  rfl

/-- Attaching proofs leaves everything else about the nodes alone. -/
theorem map_of_attach {β : Type} {f : TreeNode → β} {nodes proved : List TreeNode}
    {proofAt : Nat → Except Panic (List Hash)}
    (ignores : ∀ node proof, f { node with proof := some proof } = f node)
    (success : nodes.zipIdx.mapM (fun (p : TreeNode × Nat) => do
      let proof ← proofAt p.2
      return { p.1 with proof := some proof }) = .ok proved) : proved.map f = nodes.map f := by
  have kept : proved.map f = nodes.zipIdx.map (f ∘ Prod.fst) := by
    refine map_of_mapM ?_ success
    intro p node result
    simp only [bind_ok_iff, pure_ok_iff] at result
    obtain ⟨proof, _, rfl⟩ := result
    exact ignores p.1 proof
  rw [kept, ← List.map_map, List.zipIdx_map_fst]

theorem Combines.attach {rows nodes proved : List TreeNode} (combines : Combines rows nodes)
    {proofAt : Nat → Except Panic (List Hash)}
    (success : nodes.zipIdx.mapM (fun (p : TreeNode × Nat) => do
      let proof ← proofAt p.2
      return { p.1 with proof := some proof }) = .ok proved) : Combines rows proved := by
  have source : ∀ node ∈ proved, ∃ earlier ∈ nodes, node.claimant = earlier.claimant ∧
      node.amount = earlier.amount ∧ node.lockedAmount = earlier.lockedAmount := by
    intro node member
    obtain ⟨p, listed, result⟩ := exists_input_of_mapM success member
    simp only [bind_ok_iff, pure_ok_iff] at result
    obtain ⟨proof, _, rfl⟩ := result
    exact ⟨p.1, List.fst_mem_of_mem_zipIdx listed, rfl, rfl, rfl⟩
  have order : proved.map TreeNode.claimant = nodes.map TreeNode.claimant :=
    map_of_attach (fun _ _ => rfl) success
  refine { order := order.trans combines.order, amounts := ?_, locked := ?_, missing := ?_ }
  all_goals
    intro node member
    obtain ⟨earlier, belongs, claimant, amount, locked⟩ := source node member
  · rw [claimant, amountValue, amount]
    exact combines.amounts earlier belongs
  · rw [claimant, lockedValue, locked]
    exact combines.locked earlier belongs
  · rw [claimant, locked]
    exact combines.missing earlier belongs

/-! ### The returned tree -/

theorem hashedNodes_congr (H : HashFunction) {nodes proved : List TreeNode}
    {proofAt : Nat → Except Panic (List Hash)}
    (success : nodes.zipIdx.mapM (fun (p : TreeNode × Nat) => do
      let proof ← proofAt p.2
      return { p.1 with proof := some proof }) = .ok proved) :
    hashedNodes H proved = hashedNodes H nodes :=
  map_of_attach (fun _ _ => rfl) success

theorem getMaxTotalClaim_total {nodes : List TreeNode}
    (fits : (nodes.map entitlement).sum < 2 ^ 64) :
    ∃ total, getMaxTotalClaim nodes = .ok total := by
  obtain ⟨total, value⟩ := exists_u64 fits
  exact ⟨total, getMaxTotalClaim_ok_iff.mpr value⟩

/-- The number of distinct claimants a tree of height 32 can hold. -/
def maxLeaves : Nat := 2 ^ 32 - 1

/-- Rows the builder accepts. -/
structure Buildable (rows : List TreeNode) : Prop where
  nonempty : rows ≠ []
  leaves : (rows.map TreeNode.claimant).eraseDups.length ≤ maxLeaves
  fits : (rows.map entitlement).sum < 2 ^ 64

/-- The tree of a list of rows: its nodes are the combined rows, its counts and totals are
exact, and every stored proof is accepted against its root. -/
structure TreeOfRows (H : HashFunction) (rows : List TreeNode) (version : UInt64)
    (tree : AirdropMerkleTree) : Prop where
  combines : Combines rows tree.treeNodes
  version : tree.airdropVersion = version
  count : tree.maxNumNodes.toNat = tree.treeNodes.length
  total : tree.maxTotalClaim.toNat = (rows.map entitlement).sum
  proofs : ∀ node ∈ tree.treeNodes, ∃ proof, node.proof = some proof ∧
    verify H proof tree.merkleRoot
      (claimLeaf H node.claimant node.amount (node.lockedAmount.getD 0)) = true

theorem getRoot_nil (H : HashFunction) {tree : MerkleTree}
    (built : MerkleTree.new H [] true = .ok tree) : tree.getRoot = none := by
  cases built
  rfl

theorem validate_leaves {H : HashFunction} {tree : AirdropMerkleTree} {u : Unit}
    (success : tree.validate H = .ok u) : tree.maxNumNodes.toNat ≤ maxLeaves := by
  simp only [AirdropMerkleTree.validate, bind_ok_iff, require_ok_iff] at success
  obtain ⟨_, bounded, _⟩ := success
  exact UInt64.le_iff_toNat_le.mp bounded

theorem treeOfRows_of_new {H : HashFunction} {rows : List TreeNode} {version : UInt64}
    {tree : AirdropMerkleTree} (success : AirdropMerkleTree.new H rows version = .ok tree) :
    Buildable rows ∧ TreeOfRows H rows version tree := by
  have built := new_builtTree success
  simp only [AirdropMerkleTree.new, bind_ok_iff, panics_ok_iff, okOr_ok_iff,
    pure_ok_iff] at success
  obtain ⟨combined, merged, merkleTree, hashed, proved, attached, claim, _, root, top, _, valid,
    rfl⟩ := success
  have before := combines_nil.run merged
  rw [List.nil_append] at before
  have combines : Combines rows proved := before.attach attached
  have totalClaim : claim.toNat = (rows.map entitlement).sum := by
    rw [← combines.sum]
    exact built.total
  refine ⟨{ nonempty := ?_, leaves := ?_, fits := ?_ },
    { combines, version := rfl, count := built.count, total := totalClaim,
      proofs := built.proofs }⟩
  · rintro rfl
    cases merged
    cases top.symm.trans (getRoot_nil H hashed)
  · rw [← combines.order, List.length_map]
    exact built.count.symm.trans_le (validate_leaves valid)
  · rw [← totalClaim]
    exact claim.toNat_lt

/-- The validation accepts a tree whose parts agree with one another. -/
theorem validate_total {H : HashFunction} {tree : AirdropMerkleTree} {merkleTree : MerkleTree}
    (leaves : tree.maxNumNodes.toNat ≤ maxLeaves)
    (count : tree.treeNodes.length = tree.maxNumNodes.toNat)
    (distinct : (tree.treeNodes.map TreeNode.claimant).Nodup)
    (sum : getMaxTotalClaim tree.treeNodes = .ok tree.maxTotalClaim)
    (hashed : MerkleTree.new H (hashedNodes H tree.treeNodes) true = .ok merkleTree)
    (top : merkleTree.getRoot = some tree.merkleRoot) : tree.validate H = .ok () := by
  have unique : (tree.treeNodes.map TreeNode.claimant).dedup.length = tree.treeNodes.length := by
    rw [List.dedup_eq_self.mpr distinct, List.length_map]
  have rooted : tree.verifyProof H = .ok () := by
    simp only [AirdropMerkleTree.verifyProof, bind_ok_iff, require_ok_iff, panics_ok_iff,
      okOr_ok_iff]
    refine ⟨merkleTree, hashed, tree.merkleRoot, top, (), rfl, forM_ok ?_⟩
    intro p listed
    obtain ⟨bound, here⟩ := List.getElem?_eq_some_iff.mp (List.mem_zipIdx_iff_getElem?.mp listed)
    obtain ⟨other, root, proof, rebuilt, otherTop, extracted, _, accepted⟩ :=
      getProof_accepted H _ p.2 bound
    cases hashed.symm.trans rebuilt
    cases top.symm.trans otherTop
    rw [here] at accepted
    simp only [bind_ok_iff, panics_ok_iff, require_ok_iff]
    exact ⟨proof, extracted, accepted⟩
  simp only [AirdropMerkleTree.validate, bind_ok_iff, require_ok_iff, panics_ok_iff]
  refine ⟨(), UInt64.le_iff_toNat_le.mpr leaves, (), count, (), unique, _, sum, (), rfl, ?_⟩
  rw [rooted]
  rfl

/-- Rows that are not empty have leaves to hash. -/
theorem Combines.hashed_ne_nil (H : HashFunction) {rows nodes : List TreeNode}
    (combines : Combines rows nodes) (nonempty : rows ≠ []) : hashedNodes H nodes ≠ [] := by
  intro empty
  have order := combines.order
  rw [List.map_eq_nil_iff.mp empty] at order
  obtain ⟨row, member⟩ := List.exists_mem_of_ne_nil rows nonempty
  have listed := List.mem_eraseDups.mpr (List.mem_map_of_mem (f := TreeNode.claimant) member)
  rw [← order] at listed
  cases listed

/-- Every leaf of the built tree has a proof to attach. -/
theorem attach_total (H : HashFunction) {nodes : List TreeNode} {merkleTree : MerkleTree}
    (hashed : MerkleTree.new H (hashedNodes H nodes) true = .ok merkleTree) :
    ∃ proved, nodes.zipIdx.mapM (fun (p : TreeNode × Nat) => do
      let proof ← getProof merkleTree p.2
      return { p.1 with proof := some proof }) = .ok proved := by
  apply mapM_total
  intro p listed
  obtain ⟨bound, _⟩ := List.getElem?_eq_some_iff.mp (List.mem_zipIdx_iff_getElem?.mp listed)
  have inside : p.2 < (hashedNodes H nodes).length := by simpa [hashedNodes] using bound
  obtain ⟨other, _, proof, rebuilt, _, extracted, _⟩ := getProof_accepted H _ p.2 inside
  cases hashed.symm.trans rebuilt
  refine ⟨{ p.1 with proof := some proof }, ?_⟩
  rw [extracted]
  rfl

theorem new_of_buildable (H : HashFunction) {rows : List TreeNode} (buildable : Buildable rows)
    (version : UInt64) : ∃ tree, AirdropMerkleTree.new H rows version = .ok tree := by
  obtain ⟨combined, merged⟩ := combines_nil.run_total buildable.fits
  have before := combines_nil.run merged
  rw [List.nil_append] at before
  have nonempty := before.hashed_ne_nil H buildable.nonempty
  obtain ⟨merkleTree, root, _, hashed, top, _⟩ :=
    getProof_accepted H _ 0 (List.length_pos_of_ne_nil nonempty)
  obtain ⟨proved, attached⟩ := attach_total H hashed
  have combines := before.attach attached
  obtain ⟨claim, summed⟩ := getMaxTotalClaim_total (combines.sum ▸ buildable.fits)
  have leaves : proved.length ≤ maxLeaves := by
    rw [← List.length_map (f := TreeNode.claimant), combines.order]
    exact buildable.leaves
  have width : (UInt64.ofNat proved.length).toNat = proved.length := by
    have bound : proved.length < 2 ^ 64 := Nat.lt_of_le_of_lt leaves (by decide)
    simpa using Nat.mod_eq_of_lt bound
  refine ⟨{ merkleRoot := root, airdropVersion := version,
            maxNumNodes := UInt64.ofNat proved.length, maxTotalClaim := claim,
            treeNodes := proved }, ?_⟩
  simp only [AirdropMerkleTree.new, bind_ok_iff, panics_ok_iff, okOr_ok_iff, pure_ok_iff]
  refine ⟨combined, merged, merkleTree, hashed, proved, attached, claim, summed, root, top, (),
    validate_total ?_ width.symm combines.distinct summed ?_ top, rfl⟩
  · change (UInt64.ofNat proved.length).toNat ≤ maxLeaves
    rw [width]
    exact leaves
  · change MerkleTree.new H (hashedNodes H proved) true = .ok merkleTree
    rw [hashedNodes_congr H attached]
    exact hashed

/-- The builder returns a tree exactly for a non-empty list with at most `2^32 - 1` distinct
claimants whose grand total fits in a `u64`, and it is then the tree of those rows. -/
theorem new_exact (H : HashFunction) (rows : List TreeNode) (version : UInt64) :
    ((∃ tree, AirdropMerkleTree.new H rows version = .ok tree) ↔ Buildable rows) ∧
      ∀ tree, AirdropMerkleTree.new H rows version = .ok tree →
        TreeOfRows H rows version tree := by
  refine ⟨⟨?_, fun buildable => new_of_buildable H buildable version⟩, ?_⟩
  · rintro ⟨tree, success⟩
    exact (treeOfRows_of_new success).1
  · exact fun tree success => (treeOfRows_of_new success).2

end MultiDistributor.Guarantees.TreeBuilding

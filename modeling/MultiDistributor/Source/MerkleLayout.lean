import MultiDistributor.Lib.WhileLoop
import MultiDistributor.Source.MerkleTree

/-!
The flat vector of `MerkleTree::new` is the concatenation of the levels of the
paired tree over its leaf hashes, and `find_path` walks exactly those levels. Both
statements are equations: the loops never run out of bounds or out of iterations.

Both loops are followed state by state. In iteration `k` the offsets of either are the
boundaries of level `k` in the concatenation, and one call of the loop body leads from
one such state to the next.
-/
namespace MultiDistributor.Source
open Lib.ByteString Lib.Checked Lib.PairedLevels Lib.WhileLoop

/-- Reading inside a segment of the flat vector. -/
theorem index_segment {α : Type} (pre level built : List α) (k : Nat) (bound : k < level.length) :
    index (pre ++ level ++ built) (pre.length + k) = okOr level[k]? .indexOutOfBounds := by
  unfold index
  rw [List.append_assoc, List.getElem?_append_right (by omega), Nat.add_sub_cancel_left,
    List.getElem?_append_left bound]

theorem pushParent_eq (H : HashFunction) (sorted : Bool) (pre level built : List Hash) (i : Nat)
    (p : Hash × Hash) (operand : (operands level)[i]? = some p) :
    pushParent H sorted pre.length level.length (pre ++ level ++ built) i =
      .ok (pre ++ level ++ (built ++ [hashPair H sorted p.1 p.2])) := by
  rw [operands_getElem?] at operand
  obtain ⟨a, left, rest⟩ := Option.bind_eq_some_iff.mp operand
  obtain ⟨b, right, rfl⟩ := Option.map_eq_some_iff.mp rest
  have bound := (List.getElem?_eq_some_iff.mp left).1
  have readLeft : index (pre ++ level ++ built) (pre.length + 2 * i) = .ok a := by
    rw [index_segment _ _ _ _ bound, left, okOr]
  unfold rightOperand at right
  simp only [pushParent, readLeft, bind, Except.bind, pure, Except.pure]
  split at right
  · next paired =>
    have readRight : index (pre ++ level ++ built) (pre.length + 2 * i + 1) = .ok b := by
      rw [Nat.add_assoc, index_segment _ _ _ _ paired, right, okOr]
    simp only [if_pos paired, readRight]
    rw [List.append_assoc]
  · next unpaired =>
    have same : a = b := by simpa [left] using right
    simp [unpaired, same]

/-- The inner loop appends the parents of the level one by one. -/
theorem pushParents_eq (H : HashFunction) (sorted : Bool) (pre level : List Hash) (count : Nat)
    (bound : count ≤ (operands level).length) :
    (List.range count).foldlM (pushParent H sorted pre.length level.length) (pre ++ level) =
      .ok (pre ++ level ++ (parents (hashPair H sorted) level).take count) := by
  induction count with
  | zero => simp [pure, Except.pure]
  | succ count ih =>
    have operand : (operands level)[count]? = some (operands level)[count] :=
      List.getElem?_eq_getElem (by omega)
    have parent : (parents (hashPair H sorted) level)[count]? =
        some (hashPair H sorted (operands level)[count].1 (operands level)[count].2) := by
      simp [parents, operand]
    rw [List.range_succ, List.foldlM_append, ih (by omega)]
    simp only [bind, Except.bind, List.foldlM_cons, List.foldlM_nil,
      pushParent_eq H sorted pre level _ count _ operand, pure, Except.pure]
    rw [List.take_add_one, parent, Option.toList_some]

theorem nextLevelLen_of_two_le {n : Nat} (many : 2 ≤ n) : nextLevelLen n = (n + 1) / 2 := by
  rw [nextLevelLen, if_neg (by omega)]

/-- `next_level_len` leads from the length of a level to that of the next one, and to
zero past the top. -/
theorem nextLevelLen_lengthAt (pair : Hash → Hash → Hash) (leaves : List Hash) (k : Nat) :
    nextLevelLen (lengthAt (levels pair leaves) k) = lengthAt (levels pair leaves) (k + 1) := by
  cases found : (levels pair leaves)[k]? with
  | none =>
    have past := List.getElem?_eq_none_iff.mp found
    rw [lengthAt_of_le past, lengthAt_of_le (Nat.le_succ_of_le past)]
    rfl
  | some lower =>
    have above := levels_succ pair leaves k
    rw [found, Option.bind_some] at above
    rw [lengthAt_of_some found]
    by_cases many : 2 ≤ lower.length
    · rw [if_pos many] at above
      rw [lengthAt_of_some above, parents_length, nextLevelLen_of_two_le many]
    · rw [if_neg many] at above
      have few : lower.length = 0 ∨ lower.length = 1 := by omega
      rw [lengthAt, above]
      cases few with
      | inl none => rw [none]; rfl
      | inr one => rw [one]; rfl

/-! ### The level loop -/

/-- `level_len > 0`. -/
def LevelState.running (st : LevelState) : Bool := decide (0 < st.levelLen)

/-- Body of the level loop. -/
def buildStep (H : HashFunction) (sortedHashes : Bool) (st : LevelState) :
    Except Panic LevelState := do
  let nodes ← (List.range st.levelLen).foldlM
    (pushParent H sortedHashes st.prevLevelStart st.prevLevelLen) st.nodes
  return { levelLen := nextLevelLen st.levelLen
           levelStart := st.levelStart + st.levelLen
           prevLevelLen := st.levelLen
           prevLevelStart := st.levelStart
           nodes }

theorem buildLevels_eq (H : HashFunction) (sorted : Bool) (fuel : Nat) (st : LevelState) :
    buildLevels H sorted fuel st =
      (runWhile LevelState.running (buildStep H sorted) .outOfFuel fuel st).map
        LevelState.nodes := by
  refine eq_runWhile _ _ ?_ ?_ fuel st
  · intro st
    by_cases stopped : st.levelLen = 0 <;>
      simp [buildLevels, LevelState.running, stopped, Nat.pos_iff_ne_zero]
  · intro fuel st
    by_cases stopped : st.levelLen = 0 <;>
      simp [buildLevels, buildStep, LevelState.running, stopped, Nat.pos_iff_ne_zero]

/-- The state of the level loop before iteration `k`: levels up to `k` are complete. -/
def levelStateAt (tower : List (List Hash)) (k : Nat) : LevelState :=
  { levelLen := lengthAt tower (k + 1)
    levelStart := offsetAt tower (k + 1)
    prevLevelLen := lengthAt tower k
    prevLevelStart := offsetAt tower k
    nodes := (tower.take (k + 1)).flatten }

/-- One iteration completes one level. -/
theorem buildStep_eq (H : HashFunction) (sorted : Bool) (leaves upper : List Hash) (k : Nat)
    (above : (levels (hashPair H sorted) leaves)[k + 1]? = some upper) :
    buildStep H sorted (levelStateAt (levels (hashPair H sorted) leaves) k) =
      .ok (levelStateAt (levels (hashPair H sorted) leaves) (k + 1)) := by
  obtain ⟨lower, below, _, made⟩ := lower_of_upper _ above
  have width : upper.length = (operands lower).length := by rw [made, parents, List.length_map]
  have whole : (parents (hashPair H sorted) lower).take upper.length = upper := by
    rw [← made, List.take_length]
  have pushed := pushParents_eq H sorted
    ((levels (hashPair H sorted) leaves).take k).flatten lower upper.length (Nat.le_of_eq width)
  rw [whole, ← take_flatten_succ below, ← take_flatten_succ above, ← offsetAt,
    ← lengthAt_of_some below, ← lengthAt_of_some above] at pushed
  simp only [buildStep, levelStateAt, pushed, bind, Except.bind, pure, Except.pure]
  rw [nextLevelLen_lengthAt, ← offsetAt_succ]

/-- The level loop runs once for every level above the leaves. -/
theorem buildLevels_follows (H : HashFunction) (sorted : Bool) (leaves : List Hash) :
    Follows LevelState.running (buildStep H sorted)
      (levelStateAt (levels (hashPair H sorted) leaves))
      ((levels (hashPair H sorted) leaves).length - 1) where
  runs k bound := by
    have above := List.getElem?_eq_getElem
      (show k + 1 < (levels (hashPair H sorted) leaves).length by omega)
    obtain ⟨lower, _, many, made⟩ := lower_of_upper _ above
    have positive : 0 < lengthAt (levels (hashPair H sorted) leaves) (k + 1) := by
      rw [lengthAt_of_some above, made, parents_length]
      omega
    exact decide_eq_true positive
  steps k bound := buildStep_eq H sorted leaves _ k
    (List.getElem?_eq_getElem (show k + 1 < (levels (hashPair H sorted) leaves).length by omega))
  stops := by
    refine decide_eq_false ?_
    rw [levelStateAt, lengthAt_of_le (by omega)]
    exact Nat.lt_irrefl 0

/-- Before the first iteration the vector holds the leaves. -/
theorem levelStateAt_zero (pair : Hash → Hash → Hash) (leaves : List Hash) :
    levelStateAt (levels pair leaves) 0 =
      { levelLen := nextLevelLen leaves.length
        levelStart := leaves.length
        prevLevelLen := leaves.length
        prevLevelStart := 0
        nodes := leaves } := by
  by_cases empty : leaves = []
  · subst empty
    simp [levelStateAt, levels_nil, lengthAt, offsetAt, nextLevelLen]
  · have bottom := levels_zero pair empty
    have first : ((levels pair leaves).take (0 + 1)).flatten = leaves := by
      rw [take_flatten_succ bottom]
      rfl
    rw [levelStateAt, ← nextLevelLen_lengthAt, lengthAt_of_some bottom, first, offsetAt, first]
    rfl

/-- `MerkleTree::new` as an equation, for every list of items. -/
theorem new_eq (H : HashFunction) (items : List Bytes) (sorted : Bool) :
    MerkleTree.new H items sorted = .ok
      { leafCount := items.length
        nodes := (levels (hashPair H sorted) (items.map (hashLeaf H))).flatten } := by
  have enough := levels_length_le (hashPair H sorted) (items.map (hashLeaf H))
  have built := (buildLevels_follows H sorted (items.map (hashLeaf H))).runWhile_eq
    Panic.outOfFuel (show _ ≤ items.length by rw [List.length_map] at enough; omega)
  rw [levelStateAt_zero, List.length_map] at built
  simp only [MerkleTree.new, buildLevels_eq, built, Except.map, levelStateAt, bind, Except.bind,
    pure, Except.pure]
  rw [List.take_of_length_le (by omega)]

/-! ### Paths -/

/-- A step of the abstract climb in the shape of the source entry. -/
def entryOfStep (step : Step Hash) : ProofEntry :=
  { target := step.target, leftSibling := step.left, rightSibling := step.right }

/-- The entry the next iteration pushes for the siblings found so far. -/
def pendingEntries (target : Hash) (lsib rsib : Option Hash) : List ProofEntry :=
  if lsib ≠ none ∨ rsib ≠ none then [{ target, leftSibling := lsib, rightSibling := rsib }] else []

theorem slice_segment (pre level rest : List Hash) :
    slice (pre ++ (level ++ rest)) pre.length (pre.length + level.length) = .ok level := by
  have inside : pre.length ≤ pre.length + level.length ∧
      pre.length + level.length ≤ (pre ++ (level ++ rest)).length := by
    simp only [List.length_append]
    omega
  simp only [slice, require, if_pos inside, bind, Except.bind, pure, Except.pure]
  rw [List.drop_left, Nat.add_sub_cancel_left, List.take_left]

/-- The assertion of `ProofEntry::new` holds as soon as the siblings are not both
present: the caller only pushes when one of them is. -/
theorem pushEntry_eq (target : Hash) (lsib rsib : Option Hash) (path : List ProofEntry)
    (one : lsib = none ∨ rsib = none) :
    pushEntry target lsib rsib path = .ok (path ++ pendingEntries target lsib rsib) := by
  cases lsib <;> cases rsib <;>
    simp_all [pushEntry, ProofEntry.new, pendingEntries, require, bind, Except.bind, pure,
      Except.pure]

theorem readSiblings_eq (level : List Hash) (i : Nat) (bound : i < level.length) :
    readSiblings level i = .ok (leftSibling level i, rightSibling level i) := by
  by_cases even : i % 2 = 0
  · by_cases paired : i + 1 < level.length <;>
      simp [readSiblings, even, paired, index, okOr, leftSibling, rightSibling, rightOperand,
        bound, bind, Except.bind, pure, Except.pure]
  · have lower : i - 1 < level.length := by omega
    simp [readSiblings, even, index, okOr, leftSibling, rightSibling, lower, bind, Except.bind,
      pure, Except.pure]

theorem siblings_exclusive (level : List Hash) (i : Nat) :
    leftSibling level i = none ∨ rightSibling level i = none := by
  by_cases even : i % 2 = 0 <;> simp [leftSibling, rightSibling, even]

theorem pending_siblings (level : List Hash) (i : Nat) (bound : i < level.length)
    (target : Hash) :
    pendingEntries target (leftSibling level i) (rightSibling level i) =
      [entryOfStep ⟨target, leftSibling level i, rightSibling level i⟩] := by
  have found : level[i]? = some level[i] := List.getElem?_eq_getElem bound
  by_cases even : i % 2 = 0
  · obtain ⟨s, left, right, _⟩ := operand_of_even even found
    simp [pendingEntries, entryOfStep, left, right]
  · obtain ⟨s, left, right, _⟩ := operand_of_odd even found
    simp [pendingEntries, entryOfStep, left, right]

/-- `level_len > 0`. -/
def PathState.running (st : PathState) : Bool := decide (0 < st.levelLen)

/-- Body of the path loop. -/
def climbStep (nodes : List Hash) (st : PathState) : Except Panic PathState := do
  let level ← slice nodes st.levelStart (st.levelStart + st.levelLen)
  let target ← index level st.nodeIndex
  let path ← pushEntry target st.lsib st.rsib st.path
  let siblings ← readSiblings level st.nodeIndex
  return { levelLen := nextLevelLen st.levelLen
           levelStart := st.levelStart + st.levelLen
           nodeIndex := st.nodeIndex / 2
           lsib := siblings.1
           rsib := siblings.2
           path }

theorem climbLevels_eq (nodes : List Hash) (fuel : Nat) (st : PathState) :
    climbLevels nodes fuel st =
      (runWhile PathState.running (climbStep nodes) .outOfFuel fuel st).map PathState.path := by
  refine eq_runWhile _ _ ?_ ?_ fuel st
  · intro st
    by_cases stopped : st.levelLen = 0 <;>
      simp [climbLevels, PathState.running, stopped, Nat.pos_iff_ne_zero]
  · intro fuel st
    by_cases stopped : st.levelLen = 0 <;>
      simp [climbLevels, climbStep, PathState.running, stopped, Nat.pos_iff_ne_zero]

/-- The siblings a level hands to the next one; nothing stands below the leaves. -/
def siblingBelow (side : List Hash → Nat → Option Hash) (tower : List (List Hash)) (i : Nat) :
    Nat → Option Hash
  | 0 => none
  | k + 1 => tower[k]?.bind fun lower => side lower (i / 2 ^ k)

/-- The state of the path loop before iteration `k`: the entries of the levels below `k`
are pushed. -/
def pathStateAt (tower : List (List Hash)) (entries : List ProofEntry) (i k : Nat) : PathState :=
  { levelLen := lengthAt tower k
    levelStart := offsetAt tower k
    nodeIndex := i / 2 ^ k
    lsib := siblingBelow leftSibling tower i k
    rsib := siblingBelow rightSibling tower i k
    path := entries.take (k - 1) }

theorem slice_level {tower : List (List Hash)} {k : Nat} {level : List Hash}
    (found : tower[k]? = some level) :
    slice tower.flatten (offsetAt tower k) (offsetAt tower k + lengthAt tower k) = .ok level := by
  rw [flatten_cut found, lengthAt_of_some found, offsetAt, slice_segment]

/-- The entry of a level is pushed one iteration later, when its target is read. -/
theorem pushEntry_level (pair : Hash → Hash → Hash) (leaves level : List Hash) (i k : Nat)
    (bound : i < leaves.length) (found : (levels pair leaves)[k]? = some level) (target : Hash)
    (reached : level[i / 2 ^ k]? = some target) :
    pushEntry target (siblingBelow leftSibling (levels pair leaves) i k)
      (siblingBelow rightSibling (levels pair leaves) i k)
      (((steps pair leaves i).map entryOfStep).take (k - 1)) =
        .ok (((steps pair leaves i).map entryOfStep).take k) := by
  cases k with
  | zero => rfl
  | succ k =>
    obtain ⟨lower, below, _, _⟩ := lower_of_upper pair found
    have step := steps_of_levels pair bound below found reached
    simp only [siblingBelow, below, Option.bind_some, Nat.add_sub_cancel]
    rw [pushEntry_eq _ _ _ _ (siblings_exclusive lower _),
      pending_siblings lower _ (position_lt pair bound below), List.take_add_one,
      List.getElem?_map, step]
    rfl

/-- One iteration of the path loop goes up one level. -/
theorem climbStep_eq (pair : Hash → Hash → Hash) (leaves level : List Hash) (i k : Nat)
    (bound : i < leaves.length) (found : (levels pair leaves)[k]? = some level) :
    climbStep (levels pair leaves).flatten
      (pathStateAt (levels pair leaves) ((steps pair leaves i).map entryOfStep) i k) =
      .ok (pathStateAt (levels pair leaves) ((steps pair leaves i).map entryOfStep) i (k + 1)) := by
  have inside := position_lt pair bound found
  have reached : level[i / 2 ^ k]? = some level[i / 2 ^ k] := List.getElem?_eq_getElem inside
  have read : index level (i / 2 ^ k) = .ok level[i / 2 ^ k] := by rw [index, reached, okOr]
  rw [climbStep]
  simp only [bind_ok_iff]
  refine ⟨level, slice_level found, _, read, _,
    pushEntry_level pair leaves level i k bound found _ reached, _,
    readSiblings_eq level _ inside, ?_⟩
  simp only [pathStateAt, nextLevelLen_lengthAt, ← offsetAt_succ, siblingBelow, found,
    Option.bind_some, Nat.add_sub_cancel, Nat.div_div_eq_div_mul, ← Nat.pow_succ, pure, Except.pure]

/-- The path loop runs once for every level. -/
theorem climbLevels_follows (pair : Hash → Hash → Hash) (leaves : List Hash) (i : Nat)
    (bound : i < leaves.length) :
    Follows PathState.running (climbStep (levels pair leaves).flatten)
      (pathStateAt (levels pair leaves) ((steps pair leaves i).map entryOfStep) i)
      (levels pair leaves).length where
  runs k inside := by
    have found := List.getElem?_eq_getElem inside
    have positive : 0 < lengthAt (levels pair leaves) k := by
      rw [lengthAt_of_some found]
      exact Nat.zero_lt_of_lt (position_lt pair bound found)
    exact decide_eq_true positive
  steps k inside :=
    climbStep_eq pair leaves _ i k bound (List.getElem?_eq_getElem inside)
  stops := by
    refine decide_eq_false ?_
    rw [pathStateAt, lengthAt_of_le (Nat.le_refl _)]
    exact Nat.lt_irrefl 0

theorem pathStateAt_zero (pair : Hash → Hash → Hash) (leaves : List Hash)
    (entries : List ProofEntry) (i : Nat) (nonempty : leaves ≠ []) :
    pathStateAt (levels pair leaves) entries i 0 =
      { levelLen := leaves.length, levelStart := 0, nodeIndex := i,
        lsib := none, rsib := none, path := [] } := by
  rw [pathStateAt, lengthAt_of_some (levels_zero pair nonempty)]
  simp [offsetAt, siblingBelow]

/-- `find_path` below the leaf count, on a tree built from the leaves. -/
theorem findPath_eq (pair : Hash → Hash → Hash) (leaves : List Hash) (i : Nat)
    (bound : i < leaves.length) :
    MerkleTree.findPath ⟨leaves.length, (levels pair leaves).flatten⟩ i =
      .ok (some ((steps pair leaves i).map entryOfStep)) := by
  have climbed := (climbLevels_follows pair leaves i bound).runWhile_eq Panic.outOfFuel
    (levels_length_le pair leaves)
  rw [pathStateAt_zero pair leaves _ i (List.ne_nil_of_length_pos (by omega))] at climbed
  have whole := steps_length_eq pair leaves i bound
  simp only [MerkleTree.findPath, if_neg (Nat.not_le.mpr bound), climbLevels_eq, climbed,
    Except.map, pathStateAt, bind, Except.bind, pure, Except.pure]
  rw [List.take_of_length_le (by rw [List.length_map, whole])]

/-- `get_proof` returns the siblings of the climb: no branch of it panics. -/
theorem getProof_eq (pair : Hash → Hash → Hash) (leaves : List Hash) (i : Nat)
    (bound : i < leaves.length) (siblings : List Hash)
    (all : (steps pair leaves i).mapM Step.sibling = some siblings) :
    getProof ⟨leaves.length, (levels pair leaves).flatten⟩ i = .ok siblings := by
  have each : ∀ (climb : List (Step Hash)) (out : List Hash),
      climb.mapM Step.sibling = some out →
      (climb.map entryOfStep).mapM ProofEntry.siblingHash = .ok out := by
    intro climb
    induction climb with
    | nil => simp [pure, Except.pure]
    | cons step rest ih =>
      intro out found
      simp only [List.mapM_cons, Option.bind_eq_bind, Option.bind_eq_some_iff, Option.pure_def,
        Option.some.injEq] at found
      obtain ⟨s, here, tail, later, rfl⟩ := found
      rw [List.map_cons, List.mapM_cons, ih tail later]
      cases left : step.left <;> cases right : step.right <;>
        simp_all [Step.sibling, entryOfStep, ProofEntry.siblingHash, bind, Except.bind, pure,
          Except.pure]
  simp only [getProof, findPath_eq pair leaves i bound, bind, Except.bind, okOr]
  exact each _ _ all

end MultiDistributor.Source

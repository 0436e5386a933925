import Mathlib

/-!
# Levels of a paired tree over an arbitrary combining function

A level is a list; its parent level combines neighbours two by two and combines
an unpaired last entry with itself. The tower of levels ends with one entry, the
root. Nothing is assumed about `pair` until positions are forgotten: the fold of
the siblings alone reaches the root only when `pair` is symmetric.
-/
namespace MultiDistributor.Lib.PairedLevels

variable {D : Type} (pair : D → D → D)

/-- The operand pairs of the parent level, in order. -/
def operands : List D → List (D × D)
  | [] => []
  | [a] => [(a, a)]
  | a :: b :: rest => (a, b) :: operands rest

def parents (level : List D) : List D := (operands level).map fun p => pair p.1 p.2

theorem operands_length (level : List D) : (operands level).length = (level.length + 1) / 2 := by
  fun_induction operands level with
  | case1 => simp
  | case2 a => simp
  | case3 a b rest ih =>
    simp only [List.length_cons, ih]
    omega

@[simp] theorem parents_length (level : List D) :
    (parents pair level).length = (level.length + 1) / 2 := by
  simp [parents, operands_length]

/-- Right operand of position `i`: the neighbour, or the entry itself at an odd end. -/
def rightOperand (level : List D) (i : Nat) : Option D :=
  if i + 1 < level.length then level[i + 1]? else level[i]?

theorem operands_getElem? (level : List D) (j : Nat) :
    (operands level)[j]? = (level[2 * j]?).bind fun a =>
      (rightOperand level (2 * j)).map fun b => (a, b) := by
  fun_induction operands level generalizing j with
  | case1 => simp
  | case2 a => cases j <;> simp [rightOperand]
  | case3 a b rest ih =>
    cases j with
    | zero => simp [rightOperand]
    | succ j =>
      have shift : 2 * (j + 1) = 2 * j + 1 + 1 := by omega
      have right : rightOperand (a :: b :: rest) (2 * j + 1 + 1) = rightOperand rest (2 * j) := by
        simp [rightOperand]
      rw [List.getElem?_cons_succ, ih, shift, right]
      simp

/-- Members of a level are operands of the level above, and nothing else is. -/
theorem mem_of_operands {level : List D} {p : D × D} (member : p ∈ operands level) :
    p.1 ∈ level ∧ p.2 ∈ level := by
  fun_induction operands level with
  | case1 => simp at member
  | case2 a =>
    simp only [List.mem_singleton] at member
    simp [member]
  | case3 a b rest ih =>
    rcases List.mem_cons.mp member with rfl | later
    · simp
    · have inside := ih later
      simp [inside]

/-- All levels, from the given one up to the root. The empty list has none. -/
def levels (level : List D) : List (List D) :=
  if 2 ≤ level.length then level :: levels (parents pair level)
  else if level = [] then [] else [level]
termination_by level.length
decreasing_by simp only [parents_length]; omega

theorem levels_of_two_le {level : List D} (many : 2 ≤ level.length) :
    levels pair level = level :: levels pair (parents pair level) := by
  rw [levels, if_pos many]

theorem levels_singleton (a : D) : levels pair [a] = [[a]] := by
  rw [levels]
  simp

theorem levels_nil : levels pair ([] : List D) = [] := by
  rw [levels]
  simp

/-- Every pair combined on the way to the root. -/
def allOperands (level : List D) : List (D × D) :=
  if 2 ≤ level.length then operands level ++ allOperands (parents pair level) else []
termination_by level.length
decreasing_by simp only [parents_length]; omega

theorem levels_subset (level : List D) : ∀ x ∈ level, x ∈ (levels pair level).flatten := by
  intro x member
  rw [levels]
  split
  · simp [member]
  · split
    · next empty => simp [empty] at member
    · simpa using member

/-- An entry of the tower is an entry of the bottom level or was combined from two
entries of the tower. -/
theorem levels_closed (level : List D) (x : D) (member : x ∈ (levels pair level).flatten) :
    x ∈ level ∨ ∃ p ∈ allOperands pair level, x = pair p.1 p.2 ∧
      p.1 ∈ (levels pair level).flatten ∧ p.2 ∈ (levels pair level).flatten := by
  fun_induction levels pair level with
  | case1 level many ih =>
    simp only [List.flatten_cons, List.mem_append] at member ⊢
    rw [allOperands, if_pos many]
    rcases member with here | above
    · exact Or.inl here
    rcases ih above with bottom | ⟨p, combined, equal, inside⟩
    · obtain ⟨p, operand, equal⟩ := List.mem_map.mp bottom
      have inside := mem_of_operands operand
      exact Or.inr ⟨p, List.mem_append_left _ operand, equal.symm, Or.inl inside.1,
        Or.inl inside.2⟩
    · exact Or.inr ⟨p, List.mem_append_right _ combined, equal, Or.inr inside.1, Or.inr inside.2⟩
  | case2 => simp at member
  | case3 level few nonempty =>
    left
    simpa using member

/-! ### The root -/

def root (level : List D) : Option D := (levels pair level).flatten.getLast?

@[simp] theorem root_singleton (a : D) : root pair [a] = some a := by
  simp [root, levels_singleton]

theorem levels_flatten_ne_nil {level : List D} (nonempty : level ≠ []) :
    (levels pair level).flatten ≠ [] := by
  obtain ⟨x, member⟩ := List.exists_mem_of_ne_nil level nonempty
  exact List.ne_nil_of_mem (levels_subset pair level x member)

theorem parents_ne_nil {level : List D} (nonempty : level ≠ []) : parents pair level ≠ [] := by
  have positive := List.length_pos_iff.mpr nonempty
  apply List.length_pos_iff.mp
  rw [parents_length]
  omega

theorem root_of_two_le {level : List D} (many : 2 ≤ level.length) :
    root pair level = root pair (parents pair level) := by
  have nonempty : level ≠ [] := List.length_pos_iff.mp (by omega)
  unfold root
  rw [levels_of_two_le pair many, List.flatten_cons, List.getLast?_append,
    List.getLast?_eq_some_getLast (levels_flatten_ne_nil pair (parents_ne_nil pair nonempty)),
    Option.some_or]

theorem last_level {level : List D} (nonempty : level ≠ []) :
    ∃ top, (levels pair level).getLast? = some [top] ∧ root pair level = some top := by
  fun_induction levels pair level with
  | case1 level many ih =>
    obtain ⟨top, last, reached⟩ := ih (parents_ne_nil pair nonempty)
    refine ⟨top, ?_, (root_of_two_le pair many).trans reached⟩
    rw [List.getLast?_cons, last, Option.getD_some]
  | case2 => exact absurd rfl nonempty
  | case3 level few _ =>
    have positive := List.length_pos_iff.mpr nonempty
    obtain ⟨a, rfl⟩ := List.length_eq_one_iff.mp (show level.length = 1 by omega)
    exact ⟨a, rfl, root_singleton pair a⟩

/-! ### Levels by their number -/

theorem levels_zero {level : List D} (nonempty : level ≠ []) :
    (levels pair level)[0]? = some level := by
  fun_cases levels pair level with
  | case1 => rfl
  | case2 => contradiction
  | case3 => rfl

/-- A level has one above it as long as two entries are left. -/
theorem levels_succ (level : List D) (k : Nat) :
    (levels pair level)[k + 1]? = ((levels pair level)[k]?).bind fun lower =>
      if 2 ≤ lower.length then some (parents pair lower) else none := by
  fun_induction levels pair level generalizing k with
  | case1 level many ih =>
    have nonempty : level ≠ [] := List.length_pos_iff.mp (by omega)
    cases k with
    | zero => simp [levels_zero pair (parents_ne_nil pair nonempty), many]
    | succ k => simpa using ih k
  | case2 => simp
  | case3 level few _ => cases k <;> simp [few]

/-- What the existence of an upper level says about the one below. -/
theorem lower_of_upper {level upper : List D} {k : Nat}
    (found : (levels pair level)[k + 1]? = some upper) :
    ∃ lower, (levels pair level)[k]? = some lower ∧ 2 ≤ lower.length ∧
      upper = parents pair lower := by
  rw [levels_succ, Option.bind_eq_some_iff] at found
  obtain ⟨lower, below, made⟩ := found
  split at made
  · next many => exact ⟨lower, below, many, (Option.some.inj made).symm⟩
  · cases made

theorem bottom_of_levels {level lower : List D} (found : (levels pair level)[0]? = some lower) :
    lower = level := by
  by_cases empty : level = []
  · subst empty
    rw [levels_nil] at found
    cases found
  · rw [levels_zero pair empty] at found
    exact (Option.some.inj found).symm

theorem levels_length {level : List D} (nonempty : level ≠ []) :
    (levels pair level).length = Nat.clog 2 level.length + 1 := by
  fun_induction levels pair level with
  | case1 level many ih =>
    have height := ih (parents_ne_nil pair nonempty)
    rw [parents_length] at height
    rw [List.length_cons, height, Nat.clog_of_two_le (Nat.le_refl 2) many]
    rfl
  | case2 => exact absurd rfl nonempty
  | case3 level few _ =>
    have positive := List.length_pos_iff.mpr nonempty
    have single : level.length = 1 := by omega
    simp [single]

theorem levels_length_le (level : List D) : (levels pair level).length ≤ level.length + 1 := by
  by_cases empty : level = []
  · subst empty
    simp [levels_nil]
  · have height : Nat.clog 2 level.length ≤ level.length :=
      (Nat.clog_le_iff_le_pow (by omega)).mpr Nat.lt_two_pow_self.le
    rw [levels_length pair empty]
    omega

theorem half_ceilDiv (n k : Nat) : (n ⌈/⌉ 2 ^ k + 1) / 2 = n ⌈/⌉ 2 ^ (k + 1) := by
  have positive : 0 < 2 ^ k := Nat.two_pow_pos k
  rw [Nat.ceilDiv_eq_add_pred_div, Nat.ceilDiv_eq_add_pred_div, ← Nat.add_div_right _ positive,
    Nat.div_div_eq_div_mul, ← Nat.pow_succ]
  congr 1
  rw [Nat.pow_succ]
  omega

/-- Level `k` has the `2 ^ k`-th part of the entries, rounded up. -/
theorem level_length {level upper : List D} {k : Nat}
    (found : (levels pair level)[k]? = some upper) : upper.length = level.length ⌈/⌉ 2 ^ k := by
  induction k generalizing upper with
  | zero =>
    rw [bottom_of_levels pair found]
    simp
  | succ k ih =>
    obtain ⟨lower, below, _, rfl⟩ := lower_of_upper pair found
    rw [parents_length, ih below, half_ceilDiv]

/-- Halving an index keeps it inside the levels. -/
theorem position_lt {level upper : List D} {i k : Nat} (bound : i < level.length)
    (found : (levels pair level)[k]? = some upper) : i / 2 ^ k < upper.length := by
  induction k generalizing upper with
  | zero =>
    rw [bottom_of_levels pair found]
    simpa using bound
  | succ k ih =>
    obtain ⟨lower, below, _, rfl⟩ := lower_of_upper pair found
    have inside := ih below
    rw [parents_length, Nat.pow_succ, ← Nat.div_div_eq_div_mul]
    omega

/-! ### Boundaries in the concatenation -/

/-- Where a level starts in the concatenation of a tower. -/
def offsetAt (tower : List (List D)) (k : Nat) : Nat := (tower.take k).flatten.length

/-- Its length; nothing stands past the last level. -/
def lengthAt (tower : List (List D)) (k : Nat) : Nat := (tower[k]?.map List.length).getD 0

theorem lengthAt_of_some {tower : List (List D)} {k : Nat} {level : List D}
    (found : tower[k]? = some level) : lengthAt tower k = level.length := by
  rw [lengthAt, found]
  rfl

theorem lengthAt_of_le {tower : List (List D)} {k : Nat} (past : tower.length ≤ k) :
    lengthAt tower k = 0 := by
  rw [lengthAt, List.getElem?_eq_none past]
  rfl

theorem take_flatten_succ {tower : List (List D)} {k : Nat} {level : List D}
    (found : tower[k]? = some level) :
    (tower.take (k + 1)).flatten = (tower.take k).flatten ++ level := by
  rw [List.take_add_one, found, Option.toList_some, List.flatten_concat]

theorem offsetAt_succ (tower : List (List D)) (k : Nat) :
    offsetAt tower (k + 1) = offsetAt tower k + lengthAt tower k := by
  unfold offsetAt
  cases found : tower[k]? with
  | none => simp [List.take_add_one, lengthAt, found]
  | some level => rw [take_flatten_succ found, List.length_append, lengthAt_of_some found]

/-- The concatenation, cut at both ends of a level. -/
theorem flatten_cut {tower : List (List D)} {k : Nat} {level : List D}
    (found : tower[k]? = some level) :
    tower.flatten = (tower.take k).flatten ++ (level ++ (tower.drop (k + 1)).flatten) := by
  rw [← List.append_assoc, ← take_flatten_succ found, ← List.flatten_append,
    List.take_append_drop]

/-! ### Climbing from a position to the root -/

/-- One step of a climb: the ancestor reached and the operand it was reached with,
on the side that operand has in the parent. -/
structure Step (D : Type) where
  target : D
  left : Option D
  right : Option D
  deriving DecidableEq, Repr

def leftSibling (level : List D) (i : Nat) : Option D :=
  if i % 2 = 0 then none else level[i - 1]?

def rightSibling (level : List D) (i : Nat) : Option D :=
  if i % 2 = 0 then rightOperand level i else none

def steps (level : List D) (i : Nat) : List (Step D) :=
  if 2 ≤ level.length then
    match (parents pair level)[i / 2]? with
    | none => []
    | some target => ⟨target, leftSibling level i, rightSibling level i⟩ ::
        steps (parents pair level) (i / 2)
  else []
termination_by level.length
decreasing_by simp only [parents_length]; omega

theorem steps_of_two_le {level : List D} {i : Nat} {target : D} (many : 2 ≤ level.length)
    (reached : (parents pair level)[i / 2]? = some target) :
    steps pair level i = ⟨target, leftSibling level i, rightSibling level i⟩ ::
      steps pair (parents pair level) (i / 2) := by
  rw [steps, if_pos many, reached]

theorem steps_of_lt_two {level : List D} (i : Nat) (few : ¬ 2 ≤ level.length) :
    steps pair level i = [] := by
  rw [steps, if_neg few]

/-- The other operand, whichever side it is on. -/
def Step.sibling (step : Step D) : Option D := step.left.or step.right

theorem operand_of_even {level : List D} {i : Nat} {x : D} (even : i % 2 = 0)
    (found : level[i]? = some x) :
    ∃ s, leftSibling level i = none ∧ rightSibling level i = some s ∧
      (operands level)[i / 2]? = some (x, s) := by
  have bound := (List.getElem?_eq_some_iff.mp found).1
  have position : 2 * (i / 2) = i := by omega
  have operand : ∃ s, rightOperand level i = some s := by
    unfold rightOperand
    split
    · next inside => exact ⟨level[i + 1], List.getElem?_eq_getElem inside⟩
    · exact ⟨x, found⟩
  obtain ⟨s, right⟩ := operand
  refine ⟨s, by simp [leftSibling, even], by simp [rightSibling, even, right], ?_⟩
  simp [operands_getElem?, position, found, right]

theorem operand_of_odd {level : List D} {i : Nat} {x : D} (odd : i % 2 ≠ 0)
    (found : level[i]? = some x) :
    ∃ s, leftSibling level i = some s ∧ rightSibling level i = none ∧
      (operands level)[i / 2]? = some (s, x) := by
  have bound := (List.getElem?_eq_some_iff.mp found).1
  have position : 2 * (i / 2) = i - 1 := by omega
  have next : i - 1 + 1 = i := by omega
  have lower : i - 1 < level.length := by omega
  have before : level[i - 1]? = some level[i - 1] := List.getElem?_eq_getElem lower
  refine ⟨level[i - 1], by simp [leftSibling, odd, before], by simp [rightSibling, odd], ?_⟩
  have self : level[i] = x := (List.getElem?_eq_some_iff.mp found).2
  simp [operands_getElem?, position, before, rightOperand, next, bound, self]

/-- A position and its sibling are, in order, the operands of their parent. -/
theorem operand_of_position {level : List D} {i : Nat} {x : D} (found : level[i]? = some x) :
    (operands level)[i / 2]? =
      some ((leftSibling level i).getD x, (rightSibling level i).getD x) := by
  by_cases even : i % 2 = 0
  · obtain ⟨s, left, right, operand⟩ := operand_of_even even found
    rw [left, right]
    exact operand
  · obtain ⟨s, left, right, operand⟩ := operand_of_odd even found
    rw [left, right]
    exact operand

theorem parent_of_position {level : List D} {i : Nat} {x : D} (found : level[i]? = some x) :
    (parents pair level)[i / 2]? =
      some (pair ((leftSibling level i).getD x) ((rightSibling level i).getD x)) := by
  simp [parents, operand_of_position found]

/-- The operands determine the entry they were reached from. -/
theorem eq_of_operands {level : List D} {i : Nat} {x y : D}
    (left : (leftSibling level i).getD y = (leftSibling level i).getD x)
    (right : (rightSibling level i).getD y = (rightSibling level i).getD x) : y = x := by
  by_cases even : i % 2 = 0
  · rw [leftSibling, if_pos even] at left
    exact left
  · rw [rightSibling, if_neg even] at right
    exact right

/-- The step of a climb between two levels. -/
theorem steps_of_levels {level lower upper : List D} {i k : Nat} {target : D}
    (bound : i < level.length) (below : (levels pair level)[k]? = some lower)
    (above : (levels pair level)[k + 1]? = some upper)
    (reached : upper[i / 2 ^ (k + 1)]? = some target) :
    (steps pair level i)[k]? =
      some ⟨target, leftSibling lower (i / 2 ^ k), rightSibling lower (i / 2 ^ k)⟩ := by
  induction k generalizing level i with
  | zero =>
    obtain ⟨bottom, first, many, rfl⟩ := lower_of_upper pair above
    rw [below] at first
    cases first
    have same := bottom_of_levels pair below
    subst same
    simp only [Nat.zero_add, Nat.pow_one] at reached
    simp [steps_of_two_le pair many reached]
  | succ k ih =>
    have many : 2 ≤ level.length := by
      by_contra few
      rw [levels, if_neg few] at below
      split at below <;> simp at below
    have inner : i / 2 < (parents pair level).length := by rw [parents_length]; omega
    have half : ∀ n, i / 2 / 2 ^ n = i / 2 ^ (n + 1) := fun n => by
      rw [Nat.div_div_eq_div_mul, Nat.pow_succ']
    rw [levels_of_two_le pair many, List.getElem?_cons_succ] at below above
    rw [← half] at reached
    rw [steps_of_two_le pair many (List.getElem?_eq_getElem inner), List.getElem?_cons_succ,
      ih inner below above reached, half]

/-- The siblings alone rebuild the root once the combining function is symmetric:
the side of each operand is then irrelevant. -/
theorem foldl_siblings_root (symmetric : ∀ a b, pair a b = pair b a) (level : List D) (i : Nat)
    (x : D) (found : level[i]? = some x) :
    ∃ siblings, (steps pair level i).mapM Step.sibling = some siblings ∧
      siblings.length = (steps pair level i).length ∧
      root pair level = some (siblings.foldl pair x) := by
  fun_induction steps pair level i generalizing x with
  | case1 level i many missing =>
    have bound := (List.getElem?_eq_some_iff.mp found).1
    rw [List.getElem?_eq_none_iff, parents_length] at missing
    omega
  | case2 level i many target reached ih =>
    obtain ⟨siblings, rest, count, top⟩ := ih target reached
    rw [root_of_two_le pair many, top]
    have parent := reached.symm.trans (parent_of_position pair found)
    by_cases even : i % 2 = 0
    · obtain ⟨s, left, right, _⟩ := operand_of_even even found
      have combined : target = pair x s := by simpa [left, right] using parent
      exact ⟨s :: siblings, by simp [Step.sibling, left, right, rest], by simp [count],
        by simp [combined]⟩
    · obtain ⟨s, left, right, _⟩ := operand_of_odd even found
      have combined : target = pair s x := by simpa [left, right] using parent
      exact ⟨s :: siblings, by simp [Step.sibling, left, right, rest], by simp [count],
        by simp [combined, symmetric s x]⟩
  | case3 level i few =>
    have bound := (List.getElem?_eq_some_iff.mp found).1
    obtain ⟨a, rfl⟩ := List.length_eq_one_iff.mp (show level.length = 1 by omega)
    have first : i = 0 := by simpa using bound
    subst first
    refine ⟨[], rfl, rfl, ?_⟩
    simpa using found

theorem steps_length (level : List D) (i : Nat) (bound : i < level.length) :
    (steps pair level i).length = Nat.clog 2 level.length := by
  fun_induction steps pair level i with
  | case1 level i many missing =>
    rw [List.getElem?_eq_none_iff, parents_length] at missing
    omega
  | case2 level i many target reached ih =>
    have height := ih (List.getElem?_eq_some_iff.mp reached).1
    rw [parents_length] at height
    rw [List.length_cons, height, Nat.clog_of_two_le (Nat.le_refl 2) many]
    rfl
  | case3 level i few =>
    have single : level.length = 1 := by omega
    simp [single]

/-- One step for every level above the first. -/
theorem steps_length_eq (level : List D) (i : Nat) (bound : i < level.length) :
    (steps pair level i).length = (levels pair level).length - 1 := by
  rw [steps_length pair level i bound, levels_length pair (List.ne_nil_of_length_pos (by omega)),
    Nat.add_sub_cancel]

end MultiDistributor.Lib.PairedLevels

import Mathlib

/-!
# Totals of a list of rows, key by key

`total key value rows k` adds up `value` over the rows whose key is `k`. The keys in
order of first occurrence are `(rows.map key).eraseDups`; the lemmas here say how both
change when a row is appended and that the totals of distinct keys account for every row.
-/
namespace MultiDistributor.Lib.Grouping

variable {R K : Type} [DecidableEq K] (key : R → K) (value : R → Nat)

/-- Sum of `value` over the rows with key `k`. -/
def total (rows : List R) (k : K) : Nat :=
  ((rows.filter fun row => key row = k).map value).sum

@[simp] theorem total_nil (k : K) : total key value [] k = 0 := rfl

theorem total_cons (row : R) (rows : List R) (k : K) :
    total key value (row :: rows) k =
      (if key row = k then value row else 0) + total key value rows k := by
  unfold total
  by_cases same : key row = k <;> simp [same]

theorem total_append (front back : List R) (k : K) :
    total key value (front ++ back) k = total key value front k + total key value back k := by
  simp [total]

theorem total_concat (rows : List R) (row : R) (k : K) :
    total key value (rows ++ [row]) k =
      total key value rows k + if key row = k then value row else 0 := by
  rw [total_append, total_cons, total_nil, Nat.add_zero]

/-- The order of the rows does not matter. -/
theorem total_perm {rows reordered : List R} (permuted : rows.Perm reordered) (k : K) :
    total key value rows k = total key value reordered k :=
  ((permuted.filter _).map value).sum_eq

theorem total_of_absent {rows : List R} {k : K} (absent : k ∉ rows.map key) :
    total key value rows k = 0 := by
  have none : rows.filter (fun row => key row = k) = [] := by
    rw [List.filter_eq_nil_iff]
    intro row member same
    exact absent (List.mem_map.mpr ⟨row, member, by simpa using same⟩)
  rw [total, none]
  rfl

/-- Rows of other keys can be dropped. -/
theorem total_filter {rows : List R} {keep : R → Bool} {k : K}
    (kept : ∀ row ∈ rows, key row = k → keep row = true) :
    total key value (rows.filter keep) k = total key value rows k := by
  induction rows with
  | nil => rfl
  | cons row rows ih =>
    have rest := ih fun other later => kept other (List.mem_cons_of_mem _ later)
    rw [List.filter_cons, total_cons]
    split
    · rw [total_cons, rest]
    · next dropped =>
      have other : key row ≠ k := fun same => dropped (kept row List.mem_cons_self same)
      rw [if_neg other, Nat.zero_add, rest]

theorem total_le_sum (rows : List R) (k : K) :
    total key value rows k ≤ (rows.map value).sum := by
  induction rows with
  | nil => simp
  | cons row rows ih =>
    rw [total_cons, List.map_cons, List.sum_cons]
    split <;> omega

theorem total_add (other : R → Nat) (rows : List R) (k : K) :
    total key (fun row => value row + other row) rows k =
      total key value rows k + total key other rows k := by
  induction rows with
  | nil => simp
  | cons row rows ih =>
    simp only [total_cons, ih]
    split <;> omega

/-- A value counted at one key among distinct keys is counted once. -/
theorem sum_single {keys : List K} (distinct : keys.Nodup) {k : K} (listed : k ∈ keys)
    (amount : Nat) : (keys.map fun other => if k = other then amount else 0).sum = amount := by
  induction keys with
  | nil => simp at listed
  | cons head tail ih =>
    obtain ⟨fresh, rest⟩ := List.nodup_cons.mp distinct
    rw [List.map_cons, List.sum_cons]
    by_cases here : k = head
    · subst here
      have nothing : (tail.map fun other => if k = other then amount else 0).sum = 0 := by
        rw [List.sum_eq_zero_iff]
        intro entry member
        obtain ⟨other, later, rfl⟩ := List.mem_map.mp member
        have different : k ≠ other := by
          rintro rfl
          exact fresh later
        exact if_neg different
      rw [if_pos rfl, nothing, Nat.add_zero]
    · have later : k ∈ tail := (List.mem_cons.mp listed).resolve_left here
      rw [if_neg here, ih rest later, Nat.zero_add]

/-- Distinct keys that cover the rows share out the whole sum. -/
theorem sum_total {keys : List K} (distinct : keys.Nodup) {rows : List R}
    (covered : ∀ row ∈ rows, key row ∈ keys) :
    (keys.map (total key value rows)).sum = (rows.map value).sum := by
  induction rows with
  | nil =>
    have zero : keys.map (total key value []) = keys.map fun _ => 0 := rfl
    simp [zero]
  | cons row rows ih =>
    have rest := ih fun other member => covered other (List.mem_cons_of_mem _ member)
    have split : (keys.map (total key value (row :: rows))) =
        keys.map fun k => (if key row = k then value row else 0) + total key value rows k :=
      List.map_congr_left fun k _ => total_cons key value row rows k
    rw [split, List.sum_map_add, sum_single distinct (covered row (by simp)), rest,
      List.map_cons, List.sum_cons]

/-- The total of a key that only one row has is the value of that row. -/
theorem total_of_unique {rows : List R} (distinct : rows.Nodup) {row : R} (member : row ∈ rows)
    (only : ∀ other ∈ rows, key other = key row → other = row) :
    total key value rows (key row) = value row := by
  induction rows with
  | nil => cases member
  | cons head rows ih =>
    obtain ⟨fresh, rest⟩ := List.nodup_cons.mp distinct
    rw [total_cons]
    rcases List.mem_cons.mp member with rfl | later
    · have absent : key row ∉ rows.map key := by
        intro listed
        obtain ⟨other, further, same⟩ := List.mem_map.mp listed
        have equal := only other (List.mem_cons_of_mem _ further) same
        exact fresh (equal ▸ further)
      rw [if_pos rfl, total_of_absent key value absent, Nat.add_zero]
    · have different : key head ≠ key row := by
        intro same
        have equal := only head List.mem_cons_self same
        exact fresh (equal ▸ later)
      rw [if_neg different, Nat.zero_add,
        ih rest later fun other further => only other (List.mem_cons_of_mem _ further)]

/-- Where keys are distinct, every row is the only one of its key. -/
theorem total_of_distinct {rows : List R} (distinct : (rows.map key).Nodup) {row : R}
    (member : row ∈ rows) : total key value rows (key row) = value row :=
  total_of_unique key value distinct.of_map member fun _ listed same =>
    List.inj_on_of_nodup_map distinct listed member same

/-! ### Keys in order of first occurrence -/

theorem eraseDups_concat (keys : List K) (k : K) :
    (keys ++ [k]).eraseDups = if k ∈ keys then keys.eraseDups else keys.eraseDups ++ [k] := by
  rw [List.eraseDups_append]
  by_cases seen : k ∈ keys
  · simp [List.removeAll, seen]
  · simp [List.removeAll, seen, List.eraseDups_cons]

theorem eraseDups_nodup (keys : List K) : keys.eraseDups.Nodup := by
  induction keys using List.reverseRecOn with
  | nil => simp
  | append_singleton keys k ih =>
    rw [eraseDups_concat]
    split
    · exact ih
    · next fresh =>
      rw [List.nodup_append]
      refine ⟨ih, List.nodup_singleton k, ?_⟩
      intro other member last single same
      subst same
      rw [List.mem_singleton] at single
      subst single
      exact fresh (List.mem_eraseDups.mp member)

end MultiDistributor.Lib.Grouping

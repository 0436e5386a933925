import Mathlib

/-!
# Finite maps ordered by their keys

A map is the list of its entries with strictly increasing keys. The order is part of the
type, so every map that can be built lists its entries the way an ordered map iterates
over them.
-/
namespace MultiDistributor.Lib.SortedMap

variable {K V : Type} [LinearOrder K]

/-- Replace the entry of a key where it stands, or insert one at its place. -/
def insertSorted (key : K) (value : V) : List (K × V) → List (K × V)
  | [] => [(key, value)]
  | entry :: rest =>
      if key < entry.1 then (key, value) :: entry :: rest
      else if key = entry.1 then (key, value) :: rest
      else entry :: insertSorted key value rest

theorem mem_insertSorted {key : K} {value : V} {entries : List (K × V)} {entry : K × V}
    (member : entry ∈ insertSorted key value entries) :
    entry = (key, value) ∨ entry ∈ entries := by
  induction entries with
  | nil => exact Or.inl (List.mem_singleton.mp member)
  | cons head rest ih =>
    rw [insertSorted] at member
    split at member
    · exact List.mem_cons.mp member
    · split at member
      · exact (List.mem_cons.mp member).imp_right (List.mem_cons_of_mem _)
      · rcases List.mem_cons.mp member with rfl | later
        · exact Or.inr List.mem_cons_self
        · exact (ih later).imp_right (List.mem_cons_of_mem _)

theorem insertSorted_sorted {key : K} {value : V} {entries : List (K × V)}
    (sorted : entries.Pairwise fun a b => a.1 < b.1) :
    (insertSorted key value entries).Pairwise fun a b => a.1 < b.1 := by
  induction entries with
  | nil => exact List.pairwise_singleton _ _
  | cons head rest ih =>
    obtain ⟨first, tail⟩ := List.pairwise_cons.mp sorted
    rw [insertSorted]
    split
    · next below =>
      refine List.pairwise_cons.mpr ⟨fun entry member => ?_, sorted⟩
      rcases List.mem_cons.mp member with rfl | later
      · exact below
      · exact below.trans (first entry later)
    · split
      · next equal =>
        exact List.pairwise_cons.mpr ⟨fun entry member => equal ▸ first entry member, tail⟩
      · next notBelow different =>
        have above : head.1 < key := lt_of_le_of_ne (le_of_not_gt notBelow) (Ne.symm different)
        refine List.pairwise_cons.mpr ⟨fun entry member => ?_, ih tail⟩
        rcases mem_insertSorted member with rfl | later
        · exact above
        · exact first entry later

theorem length_insertSorted (key : K) (value : V) (entries : List (K × V)) :
    0 < (insertSorted key value entries).length ∧
      (insertSorted key value entries).length ≤ entries.length + 1 := by
  induction entries with
  | nil => exact ⟨Nat.one_pos, Nat.le_refl 1⟩
  | cons head rest ih =>
    rw [insertSorted]
    split
    · simp
    · split
      · simp
      · simp only [List.length_cons]
        omega

end MultiDistributor.Lib.SortedMap

namespace MultiDistributor.Lib
open SortedMap

structure SortedMap (K V : Type) [LinearOrder K] where
  entries : List (K × V)
  sorted : entries.Pairwise fun a b => a.1 < b.1

namespace SortedMap
variable {K V : Type} [LinearOrder K]

def empty : SortedMap K V := ⟨[], List.Pairwise.nil⟩

def insert (map : SortedMap K V) (key : K) (value : V) : SortedMap K V :=
  ⟨insertSorted key value map.entries, insertSorted_sorted map.sorted⟩

def get? (map : SortedMap K V) (key : K) : Option V :=
  (map.entries.find? fun entry => entry.1 = key).map Prod.snd

theorem keys_nodup (map : SortedMap K V) : (map.entries.map Prod.fst).Nodup := by
  rw [List.Nodup, List.pairwise_map]
  exact map.sorted.imp fun below => below.ne

/-- Looking a key up finds exactly the entry listed under it. -/
theorem get?_eq_some_iff (map : SortedMap K V) (key : K) (value : V) :
    map.get? key = some value ↔ (key, value) ∈ map.entries := by
  rw [get?, Option.map_eq_some_iff]
  constructor
  · rintro ⟨entry, found, rfl⟩
    have named : entry.1 = key := by simpa using List.find?_some found
    have member := List.mem_of_find?_eq_some found
    rwa [← named]
  · intro member
    have listed : (map.entries.find? fun entry => entry.1 = key).isSome := by
      rw [List.find?_isSome]
      exact ⟨_, member, by simp⟩
    obtain ⟨entry, found⟩ := Option.isSome_iff_exists.mp listed
    have named : entry.1 = key := by simpa using List.find?_some found
    have same := List.inj_on_of_nodup_map map.keys_nodup (List.mem_of_find?_eq_some found)
      member named
    exact ⟨entry, found, by rw [same]⟩

theorem get?_empty (key : K) : (empty : SortedMap K V).get? key = none := rfl

theorem find?_insertSorted (key other : K) (value : V) (entries : List (K × V))
    (sorted : entries.Pairwise fun a b => a.1 < b.1) :
    (insertSorted key value entries).find? (fun entry => entry.1 = other) =
      if other = key then some (key, value)
      else entries.find? fun entry => entry.1 = other := by
  induction entries with
  | nil => by_cases same : other = key <;> simp [insertSorted, same, eq_comm]
  | cons head rest ih =>
    have tail := (List.pairwise_cons.mp sorted).2
    rw [insertSorted]
    split
    · by_cases same : other = key <;> simp [same, eq_comm]
    · split
      · next equal => by_cases same : other = key <;> simp_all [eq_comm]
      · next notBelow different =>
        rw [List.find?_cons, List.find?_cons, ih tail]
        by_cases same : other = key
        · subst same
          simp [Ne.symm different]
        · simp [same]

theorem get?_insert (map : SortedMap K V) (key other : K) (value : V) :
    (map.insert key value).get? other = if other = key then some value else map.get? other := by
  rw [get?, insert, find?_insertSorted key other value map.entries map.sorted]
  split <;> rfl

/-- A map has an entry after an insertion, and at most one more than before. -/
theorem length_insert (map : SortedMap K V) (key : K) (value : V) :
    0 < (map.insert key value).entries.length ∧
      (map.insert key value).entries.length ≤ map.entries.length + 1 :=
  length_insertSorted key value map.entries

theorem entries_nodup (map : SortedMap K V) : map.entries.Nodup :=
  map.keys_nodup.of_map

/-- Maps that answer every lookup alike list the same entries in the same order. -/
theorem ext_get? {first second : SortedMap K V}
    (agree : ∀ key, first.get? key = second.get? key) : first = second := by
  have members : ∀ entry, entry ∈ first.entries ↔ entry ∈ second.entries := by
    intro entry
    rw [← first.get?_eq_some_iff entry.1 entry.2, ← second.get?_eq_some_iff entry.1 entry.2, agree]
  have permuted : first.entries.Perm second.entries :=
    (List.perm_ext_iff_of_nodup first.entries_nodup second.entries_nodup).mpr members
  have entries : first.entries = second.entries :=
    permuted.eq_of_pairwise (fun _ _ _ _ below above => absurd above below.asymm)
      first.sorted second.sorted
  cases first
  cases second
  congr

/-- Maps with the same keys are equal if each key has the same value in both. -/
theorem ext_of_found {first second : SortedMap K V}
    (keys : ∀ key, (first.get? key).isSome ↔ (second.get? key).isSome)
    (values : ∀ key a b, first.get? key = some a → second.get? key = some b → a = b) :
    first = second := by
  apply ext_get?
  intro key
  have both := keys key
  cases found : first.get? key with
  | none =>
    cases other : second.get? key with
    | none => rfl
    | some b => simp [found, other] at both
  | some a =>
    cases other : second.get? key with
    | none => simp [found, other] at both
    | some b => rw [values key a b found other]

/-- At most one entry is listed under a key. -/
theorem filter_key (map : SortedMap K V) (key : K) :
    map.entries.filter (fun entry => entry.1 = key) =
      (map.get? key).toList.map (Prod.mk key) := by
  have permuted : (map.entries.filter fun entry => entry.1 = key).Perm
      ((map.get? key).toList.map (Prod.mk key)) := by
    have single : ((map.get? key).toList.map (Prod.mk key)).Nodup := by
      cases map.get? key <;> simp
    rw [List.perm_ext_iff_of_nodup (map.entries_nodup.filter _) single]
    intro entry
    simp only [List.mem_filter, decide_eq_true_eq, List.mem_map, Option.mem_toList,
      get?_eq_some_iff]
    constructor
    · intro ⟨member, named⟩
      exact ⟨entry.2, named ▸ member, by rw [← named]⟩
    · intro ⟨value, member, shape⟩
      rw [← shape]
      exact ⟨member, rfl⟩
  cases found : map.get? key with
  | none =>
    rw [found] at permuted
    exact permuted.eq_nil
  | some value =>
    rw [found] at permuted
    exact List.perm_singleton.mp permuted

end SortedMap

end MultiDistributor.Lib

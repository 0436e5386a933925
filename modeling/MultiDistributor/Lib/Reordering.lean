import MultiDistributor.Lib.Replay

/-!
# Runs whose events may be reordered

A run may require that each event is allowed in the state that consumes it. If two
neighbouring events that are independent of each other can be swapped, with both still
allowed and the same state behind them, then a run of pairwise independent events can be
taken in every order and always ends in the same state.
-/
namespace MultiDistributor.Lib.Reordering
open Replay

variable {S E : Type} (step : S → E → S) (allowed : S → E → Prop)

/-- Every event of the run is allowed in the state that consumes it. -/
def AllowedRun (state : S) (events : List E) : Prop :=
  ∀ pass ∈ transitions step state events, allowed pass.1 pass.2

@[simp] theorem allowedRun_nil (state : S) : AllowedRun step allowed state [] := by
  simp [AllowedRun]

@[simp] theorem allowedRun_cons (state : S) (event : E) (rest : List E) :
    AllowedRun step allowed state (event :: rest) ↔
      allowed state event ∧ AllowedRun step allowed (step state event) rest := by
  simp [AllowedRun]

theorem allowedRun_append (state : S) (first second : List E) :
    AllowedRun step allowed state (first ++ second) ↔
      AllowedRun step allowed state first ∧
        AllowedRun step allowed (replay step state first) second := by
  simp only [AllowedRun, transitions_append, List.mem_append, or_imp, forall_and]

/-- Neighbouring independent events can be swapped in every state with the invariant. -/
structure Swappable (invariant : S → Prop) (independent : E → E → Prop) : Prop where
  symmetric : ∀ {first second}, independent first second → independent second first
  keeps : ∀ state event, invariant state → allowed state event → invariant (step state event)
  swap : ∀ state first second, invariant state → independent first second →
    allowed state first → allowed (step state first) second →
    allowed state second ∧ allowed (step state second) first ∧
      step (step state second) first = step (step state first) second

variable {step allowed}

/-- Pairwise independent events can be taken in every order. -/
theorem Swappable.perm {invariant : S → Prop} {independent : E → E → Prop}
    (swappable : Swappable step allowed invariant independent) {first second : List E}
    (reordered : first.Perm second) {state : S} (initial : invariant state)
    (pairwise : first.Pairwise independent) (taken : AllowedRun step allowed state first) :
    AllowedRun step allowed state second ∧ replay step state second = replay step state first := by
  induction reordered generalizing state with
  | nil => exact ⟨taken, rfl⟩
  | cons event _ ih =>
    rw [allowedRun_cons] at taken ⊢
    have tail := ih (swappable.keeps _ _ initial taken.1) (List.pairwise_cons.mp pairwise).2 taken.2
    exact ⟨⟨taken.1, tail.1⟩, tail.2⟩
  | swap first second rest =>
    simp only [allowedRun_cons] at taken ⊢
    obtain ⟨now, next, later⟩ := taken
    have apart := (List.pairwise_cons.mp pairwise).1 first (by simp)
    obtain ⟨early, late, same⟩ := swappable.swap _ _ _ initial apart now next
    refine ⟨⟨early, late, by rwa [same]⟩, ?_⟩
    simp only [replay_cons, same]
  | trans left _ before after =>
    have halfway := before initial pairwise taken
    have reached := after initial ((left.pairwise_iff swappable.symmetric).mp pairwise) halfway.1
    exact ⟨reached.1, reached.2.trans halfway.2⟩

end MultiDistributor.Lib.Reordering

import Mathlib

/-!
# Finite runs of a deterministic machine

A run is an initial state and the list of events fed to the machine. The rules
below lift facts about one step to whole runs; the event condition restricts
which events a run may contain and is checked event by event.
-/
namespace MultiDistributor.Lib.Replay

variable {S E : Type} (step : S → E → S)

/-- State after consuming the events from left to right. -/
def replay : S → List E → S
  | state, [] => state
  | state, event :: rest => replay (step state event) rest

/-- Every step of the run, as the state it starts from and the event it consumes. -/
def transitions : S → List E → List (S × E)
  | _, [] => []
  | state, event :: rest => (state, event) :: transitions (step state event) rest

@[simp] theorem replay_nil (state : S) : replay step state [] = state := rfl

@[simp] theorem replay_cons (state : S) (event : E) (rest : List E) :
    replay step state (event :: rest) = replay step (step state event) rest := rfl

@[simp] theorem transitions_nil (state : S) : transitions step state [] = [] := rfl

@[simp] theorem transitions_cons (state : S) (event : E) (rest : List E) :
    transitions step state (event :: rest) =
      (state, event) :: transitions step (step state event) rest := rfl

theorem replay_append (state : S) (first second : List E) :
    replay step state (first ++ second) = replay step (replay step state first) second := by
  induction first generalizing state with
  | nil => rfl
  | cons event rest ih => exact ih (step state event)

theorem transitions_append (state : S) (first second : List E) :
    transitions step state (first ++ second) =
      transitions step state first ++ transitions step (replay step state first) second := by
  induction first generalizing state with
  | nil => rfl
  | cons event rest ih => simp only [List.cons_append, transitions_cons, replay_cons, ih]

/-- A step of the run starts from the state its prefix reaches. -/
theorem mem_transitions_iff (state : S) (events : List E) (pre : S) (event : E) :
    (pre, event) ∈ transitions step state events ↔
      ∃ before after, events = before ++ event :: after ∧ pre = replay step state before := by
  constructor
  · intro member
    induction events generalizing state with
    | nil => simp at member
    | cons head rest ih =>
      rcases List.mem_cons.mp member with here | later
      · obtain ⟨rfl, rfl⟩ := Prod.mk.inj here
        exact ⟨[], rest, rfl, rfl⟩
      · obtain ⟨before, after, split, reached⟩ := ih (step state head) later
        exact ⟨head :: before, after, by simp [split], reached⟩
  · rintro ⟨before, after, rfl, rfl⟩
    simp [transitions_append]

theorem event_of_transition {state : S} {events : List E} {pre : S} {event : E}
    (member : (pre, event) ∈ transitions step state events) : event ∈ events := by
  obtain ⟨before, after, rfl, _⟩ := (mem_transitions_iff step state events pre event).mp member
  simp

/-- A property of steps that depends on the events alone is one of the list of events. -/
theorem forall_transitions_iff {property : S → E → Prop} {condition : E → Prop}
    (each : ∀ pre event, property pre event ↔ condition event) (state : S) (events : List E) :
    (∀ pass ∈ transitions step state events, property pass.1 pass.2) ↔
      ∀ event ∈ events, condition event := by
  induction events generalizing state with
  | nil => simp
  | cons event rest ih =>
    rw [transitions_cons, List.forall_mem_cons, List.forall_mem_cons, ih (step state event), each]

/-- Invariant rule: each step of this run keeps the invariant. -/
theorem replay_invariant_along (invariant : S → Prop) (state : S) (events : List E)
    (preserves : ∀ pre event, (pre, event) ∈ transitions step state events →
      invariant pre → invariant (step pre event))
    (initial : invariant state) : invariant (replay step state events) := by
  induction events generalizing state with
  | nil => exact initial
  | cons event rest ih =>
    apply ih (step state event) (fun pre later member => preserves pre later (by simp [member]))
    exact preserves state event (by simp) initial

/-- Invariant rule with a condition on the events alone. -/
theorem replay_invariant (admitted : E → Prop) (invariant : S → Prop)
    (preserves : ∀ state event, admitted event → invariant state → invariant (step state event))
    (state : S) (events : List E) (all : ∀ event ∈ events, admitted event)
    (initial : invariant state) : invariant (replay step state events) :=
  replay_invariant_along step invariant state events
    (fun pre event member => preserves pre event (all event (event_of_transition step member)))
    initial

/-! ### A view of a run that misses some of its events -/

section
variable {T : Type} (viewStep : T → E → T) (view : S → T) (seen : E → Bool)

/-- Each step of this run is a step of the view if its event is seen, and none otherwise. -/
def Views (state : S) (events : List E) : Prop :=
  ∀ pre event, (pre, event) ∈ transitions step state events →
    view (step pre event) = if seen event then viewStep (view pre) event else view pre

variable {step viewStep view seen}

/-- The steps of the view are those of the run whose events are seen. -/
theorem transitions_filter {state : S} {events : List E}
    (views : Views step viewStep view seen state events) :
    transitions viewStep (view state) (events.filter seen) =
      ((transitions step state events).filter fun pass => seen pass.2).map
        fun pass => (view pass.1, pass.2) := by
  induction events generalizing state with
  | nil => rfl
  | cons event rest ih =>
    have first := views state event (by simp)
    have later : Views step viewStep view seen (step state event) rest :=
      fun pre other member => views pre other (by simp [member])
    rw [transitions_cons, List.filter_cons, List.filter_cons]
    by_cases here : seen event = true
    · rw [if_pos here] at first
      rw [if_pos here, if_pos here, transitions_cons, List.map_cons, ← first, ih later]
    · rw [if_neg here] at first
      rw [if_neg here, if_neg here, ← first, ih later]

theorem replay_filter {state : S} {events : List E}
    (views : Views step viewStep view seen state events) :
    replay viewStep (view state) (events.filter seen) = view (replay step state events) := by
  induction events generalizing state with
  | nil => rfl
  | cons event rest ih =>
    have first := views state event (by simp)
    have later : Views step viewStep view seen (step state event) rest :=
      fun pre other member => views pre other (by simp [member])
    rw [replay_cons, List.filter_cons]
    by_cases here : seen event = true
    · rw [if_pos here] at first
      rw [if_pos here, replay_cons, ← first, ih later]
    · rw [if_neg here] at first
      rw [if_neg here, ← first, ih later]

end

end MultiDistributor.Lib.Replay

import Mathlib

/-!
# While loops whose body may fail

A loop is a condition and a body. It is given a number of iterations and fails with
`outOfFuel` when they do not suffice. Beside the result there is the schedule of the loop:
the states in which its body is entered, in order.

A sequence of states that the body leads through one by one, up to one where the
condition fails, is both: it gives the result for any sufficient number of iterations,
and it is the schedule.
-/
namespace MultiDistributor.Lib.WhileLoop

variable {σ ε : Type} (running : σ → Bool) (body : σ → Except ε σ)

def runWhile (outOfFuel : ε) : Nat → σ → Except ε σ
  | 0, state => if running state then .error outOfFuel else .ok state
  | fuel + 1, state => if running state then body state >>= runWhile outOfFuel fuel else .ok state

/-- A function that takes its iterations one by one, as the loop does, is the loop. -/
theorem eq_runWhile {α : Type} {loop : Nat → σ → Except ε α} {result : σ → α} {outOfFuel : ε}
    (exhausted : ∀ state, loop 0 state =
      if running state then .error outOfFuel else .ok (result state))
    (next : ∀ fuel state, loop (fuel + 1) state =
      if running state then body state >>= loop fuel else .ok (result state))
    (fuel : Nat) (state : σ) :
    loop fuel state = (runWhile running body outOfFuel fuel state).map result := by
  induction fuel generalizing state with
  | zero =>
    rw [exhausted, runWhile]
    split <;> rfl
  | succ fuel ih =>
    rw [next, runWhile]
    split
    · cases body state with
      | error failure => rfl
      | ok later => exact ih later
    · rfl

/-- The states in which the body is entered. -/
def entered : Nat → σ → List σ
  | 0, _ => []
  | fuel + 1, state =>
      if running state then
        state :: match body state with
          | .ok next => entered fuel next
          | .error _ => []
      else []

/-- The loop leads from `states 0` through `count` iterations to `states count` and stops. -/
structure Follows (states : Nat → σ) (count : Nat) : Prop where
  runs : ∀ k < count, running (states k) = true
  steps : ∀ k < count, body (states k) = .ok (states (k + 1))
  stops : running (states count) = false

section Follows
variable {running body} {states : Nat → σ} {count : Nat}

/-- What remains after the first iteration. -/
theorem Follows.tail (follows : Follows running body states (count + 1)) :
    Follows running body (fun k => states (k + 1)) count where
  runs k bound := follows.runs (k + 1) (by omega)
  steps k bound := follows.steps (k + 1) (by omega)
  stops := follows.stops

theorem Follows.runWhile_eq (follows : Follows running body states count) (outOfFuel : ε)
    {fuel : Nat} (enough : count ≤ fuel) :
    runWhile running body outOfFuel fuel (states 0) = .ok (states count) := by
  induction count generalizing states fuel with
  | zero =>
    have stopped := follows.stops
    cases fuel <;> simp [runWhile, stopped]
  | succ count ih =>
    obtain ⟨fuel, rfl⟩ : ∃ rest, fuel = rest + 1 := ⟨fuel - 1, by omega⟩
    have first := follows.runs 0 (by omega)
    have made := follows.steps 0 (by omega)
    have rest := ih follows.tail (show count ≤ fuel by omega)
    simp only [runWhile, first, if_true, made, bind, Except.bind]
    exact rest

theorem Follows.entered_eq (follows : Follows running body states count) {fuel : Nat}
    (enough : count ≤ fuel) :
    entered running body fuel (states 0) = (List.range count).map states := by
  induction count generalizing states fuel with
  | zero =>
    have stopped := follows.stops
    cases fuel <;> simp [entered, stopped]
  | succ count ih =>
    obtain ⟨fuel, rfl⟩ : ∃ rest, fuel = rest + 1 := ⟨fuel - 1, by omega⟩
    have first := follows.runs 0 (by omega)
    have made := follows.steps 0 (by omega)
    have rest := ih follows.tail (show count ≤ fuel by omega)
    simp only [entered, first, if_true, made]
    rw [List.range_succ_eq_map, List.map_cons, List.map_map]
    exact congrArg _ rest

end Follows

end MultiDistributor.Lib.WhileLoop

import MultiDistributor.Lib.Replay

/-!
# Shell scripts under `errexit`

Commands with an exit status, put together with the control structures of a POSIX shell.
With `errexit` on, a failing command ends the script, except where its status is looked
at: in the condition of an `if` and in all but the last command of an `&&` or `||` list.
The exception extends to everything executed there, so a function called as a condition
runs on past its own failing commands. Only the statuses matter for this; commands are
arbitrary functions on a state.
-/
namespace MultiDistributor.Lib.Shell

variable {S : Type}

inductive Script (S : Type) where
  | command (run : S → Nat × S)
  | seq (first second : Script S)
  | branch (condition yes no : Script S)
  | and (first second : Script S)
  | or (first second : Script S)
  | call (body : Script S)
  | ret (status : Nat)
  | exit (status : Nat)

/-- How a script ends: past its last command, at a `return`, or at the end of the shell. -/
inductive Outcome (S : Type) where
  | done (status : Nat) (state : S)
  | returned (status : Nat) (state : S)
  | exited (status : Nat) (state : S)
  deriving DecidableEq, Repr

def Outcome.state : Outcome S → S
  | .done _ state | .returned _ state | .exited _ state => state

/-- Go on after a script that ended normally. -/
def Outcome.andThen (outcome : Outcome S) (next : Nat → S → Outcome S) : Outcome S :=
  match outcome with
  | .done status state => next status state
  | .returned status state => .returned status state
  | .exited status state => .exited status state

@[simp] theorem andThen_done (status : Nat) (state : S) (next : Nat → S → Outcome S) :
    (Outcome.done status state).andThen next = next status state := rfl

@[simp] theorem andThen_returned (status : Nat) (state : S) (next : Nat → S → Outcome S) :
    (Outcome.returned status state).andThen next = .returned status state := rfl

@[simp] theorem andThen_exited (status : Nat) (state : S) (next : Nat → S → Outcome S) :
    (Outcome.exited status state).andThen next = .exited status state := rfl

/-- A simple command has ended with a status. -/
def Outcome.settle (errexit : Bool) (status : Nat) (state : S) : Outcome S :=
  if errexit ∧ status ≠ 0 then .exited status state else .done status state

def exec : Bool → Script S → S → Outcome S
  | errexit, .command run, state => .settle errexit (run state).1 (run state).2
  | errexit, .seq first second, state =>
      (exec errexit first state).andThen fun _ next => exec errexit second next
  | errexit, .branch condition yes no, state =>
      (exec false condition state).andThen fun status next =>
        if status = 0 then exec errexit yes next else exec errexit no next
  | errexit, .and first second, state =>
      (exec false first state).andThen fun status next =>
        if status = 0 then exec errexit second next else .done status next
  | errexit, .or first second, state =>
      (exec false first state).andThen fun status next =>
        if status = 0 then .done status next else exec errexit second next
  | errexit, .call body, state =>
      match exec errexit body state with
      | .done status next | .returned status next => .settle errexit status next
      | .exited status next => .exited status next
  | _, .ret status, state => .returned status state
  | _, .exit status, state => .exited status state

/-! ### Single commands -/

/-- A command that always succeeds. -/
def effect (update : S → S) : Script S := .command fun state => (0, update state)

/-- A test that leaves the state alone. -/
def test (condition : S → Bool) : Script S :=
  .command fun state => (if condition state then 0 else 1, state)

def skip : Script S := effect id

/-- Commands on lines of their own. -/
def block : List (Script S) → Script S
  | [] => skip
  | [last] => last
  | first :: rest => .seq first (block rest)

section
variable (errexit : Bool) (state : S)

@[simp] theorem settle_zero : Outcome.settle errexit 0 state = .done 0 state := by
  simp [Outcome.settle]

@[simp] theorem settle_suspended (status : Nat) :
    Outcome.settle false status state = .done status state := by
  simp [Outcome.settle]

@[simp] theorem exec_effect (update : S → S) :
    exec errexit (effect update) state = .done 0 (update state) := by
  simp [effect, exec]

@[simp] theorem exec_skip : exec errexit skip state = .done 0 state :=
  exec_effect errexit state id

/-- Suspended, a command never ends the script. -/
theorem exec_command_suspended (run : S → Nat × S) :
    exec false (.command run) state = .done (run state).1 (run state).2 := by
  simp [exec]

/-- A test in the condition of an `if` decides the branch, whatever the context. -/
theorem exec_branch_test (condition : S → Bool) (yes no : Script S) :
    exec errexit (.branch (test condition) yes no) state =
      if condition state then exec errexit yes state else exec errexit no state := by
  cases held : condition state <;> simp [exec, test, held]

/-- A test before `&&` never ends the script, and neither does it change the state. -/
theorem exec_and_test_skip (condition : S → Bool) :
    exec errexit (.and (test condition) skip) state =
      .done (if condition state then 0 else 1) state := by
  cases held : condition state <;> simp [exec, test, held]

/-- A function called as a condition decides the branch by its status. -/
theorem exec_branch_call {body yes no : Script S} {status : Nat} {next : S}
    (ended : exec false body state = .done status next ∨
      exec false body state = .returned status next) :
    exec errexit (.branch (.call body) yes no) state =
      if status = 0 then exec errexit yes next else exec errexit no next := by
  rcases ended with ended | ended <;> simp [exec, ended]

theorem exec_block_cons (first second : Script S) (rest : List (Script S)) :
    exec errexit (block (first :: second :: rest)) state =
      (exec errexit first state).andThen fun _ next =>
        exec errexit (block (second :: rest)) next := rfl

theorem exec_block_last (last : Script S) :
    exec errexit (block [last]) state = exec errexit last state := rfl

/-- A list of scripts that each end normally is a run of their effects. -/
theorem exec_block_replay {E : Type} {script : E → Script S} {step : S → E → S}
    (each : ∀ state event, exec errexit (script event) state = .done 0 (step state event))
    (events : List E) :
    exec errexit (block (events.map script)) state = .done 0 (Replay.replay step state events) := by
  induction events generalizing state with
  | nil => exact exec_skip errexit state
  | cons event rest ih =>
    cases rest with
    | nil => exact each state event
    | cons second others =>
      rw [Replay.replay_cons, ← ih (step state event), List.map_cons, List.map_cons,
        exec_block_cons, each state event, andThen_done]

end

end MultiDistributor.Lib.Shell

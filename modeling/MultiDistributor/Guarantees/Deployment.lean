import MultiDistributor.Source.DeployScripts

/-!
# Which markets the deployment reports

`deploy-if.sh` calls `deploy_market` as the condition of an `if`, so `errexit` is suspended
throughout its body: a `create-merkle-tree` that fails is followed by `new-distributor` on
whatever files it left, and the status of `new-distributor` alone decides the report. A
dry run reports every market without running anything. The same body called on a line of
its own would stop at the failed command.
-/
namespace MultiDistributor.Source.Deploy
open Lib.Shell Lib.Replay

/-! ### One market -/

section
variable (settings : Settings) (commands : Commands) (label : String) (machine : Machine)

/-- The machine past `rm` and `create-merkle-tree`. -/
def generated : Machine :=
  ((machine.setTrees label commands.rm.2).setTrees label
    (commands.rm.2 ++ commands.createMerkleTree.2)).record
      (.createMerkleTree label commands.createMerkleTree.1)

/-- The machine past `new-distributor`. -/
def deployed : Machine :=
  (generated commands label machine).record
    (.newDistributor label commands.newDistributor (commands.rm.2 ++ commands.createMerkleTree.2))

/-- As a condition, the body runs to its last command unless it returns before the first. -/
theorem exec_deployMarket_suspended :
    exec false (deployMarket settings commands label) machine =
      if settings.dryRun then .returned 0 machine
      else if commands.csvExists then
        .done commands.newDistributor (deployed commands label machine)
      else .returned 1 machine := by
  simp only [deployMarket, exec_block_cons, exec_block_last, exec_branch_test, exec_and_test_skip,
    exec_command_suspended, exec_skip, echo, andThen_done, removeStaleTrees, gen, dist]
  cases settings.dryRun <;> cases commands.csvExists
  · simp [exec]
  · simp [deployed, generated, Machine.setTrees, Machine.record]
  · simp [exec]
  · simp [exec]

end

/-! ### The loop -/

/-- The loop runs `deploy_market` for the market. -/
def Attempted (settings : Settings) (market : Market) : Prop :=
  market.missesField = false ∧ settings.skips market = false

def report (machine : Machine) (label : String) (status : Nat) : Machine :=
  if status = 0 then { machine with ok := machine.ok ++ [label] }
  else { machine with fail := machine.fail ++ [label] }

/-- The machine after one pass of the loop. -/
def afterMarket (settings : Settings) (machine : Machine) (input : (Market × Commands) × Nat) :
    Machine :=
  if input.1.1.missesField then
    { machine with fail := machine.fail ++ ["markets[" ++ toString input.2 ++ "]"] }
  else if settings.skips input.1.1 then machine
  else if settings.dryRun then report machine input.1.1.label 0
  else if input.1.2.csvExists then
    report (deployed input.1.2 input.1.1.label machine) input.1.1.label input.1.2.newDistributor
  else report machine input.1.1.label 1

theorem exec_report (errexit : Bool) (machine : Machine) (label : String) (status : Nat) :
    (if status = 0 then exec errexit (reportOk label) machine
      else exec errexit (reportFail label) machine) = .done 0 (report machine label status) := by
  unfold report reportOk reportFail
  split <;> exact exec_effect ..

/-- A pass of the loop ends normally, whatever its commands do. -/
theorem exec_processMarket (settings : Settings) (machine : Machine)
    (input : (Market × Commands) × Nat) :
    exec true (processMarket settings input) machine =
      .done 0 (afterMarket settings machine input) := by
  have body := exec_deployMarket_suspended settings input.1.2 input.1.1.label machine
  unfold processMarket afterMarket
  rw [exec_branch_test, exec_branch_test]
  cases input.1.1.missesField with
  | true => simp [exec, echo, reportFail]
  | false =>
    cases settings.skips input.1.1 with
    | true => simp [echo]
    | false =>
      have called : exec true (.branch
          (.call (deployMarket settings input.1.2 input.1.1.label)) (reportOk input.1.1.label)
          (reportFail input.1.1.label)) machine = .done 0 (if settings.dryRun then
            report machine input.1.1.label 0
          else if input.1.2.csvExists then report (deployed input.1.2 input.1.1.label machine)
            input.1.1.label input.1.2.newDistributor
          else report machine input.1.1.label 1) := by
        cases dry : settings.dryRun with
        | true =>
          rw [dry, if_pos rfl] at body
          rw [exec_branch_call true machine (.inr body), exec_report, if_pos rfl]
        | false =>
          cases csv : input.1.2.csvExists with
          | true =>
            rw [dry, csv, if_neg (by simp), if_pos rfl] at body
            rw [exec_branch_call true machine (.inl body), exec_report]
            rfl
          | false =>
            rw [dry, csv, if_neg (by simp), if_neg (by simp)] at body
            rw [exec_branch_call true machine (.inr body), exec_report]
            rfl
      simp only [Bool.false_eq_true, if_false]
      rw [exec, called, andThen_done, echo, exec_skip]

/-- The script reaches its summary with the effects of all passes. -/
theorem exec_deployIf (settings : Settings) (inputs : List (Market × Commands))
    (machine : Machine) :
    exec true (deployIf settings inputs) machine =
      if (replay (afterMarket settings) machine inputs.zipIdx).fail = [] then
        .done 0 (replay (afterMarket settings) machine inputs.zipIdx)
      else .exited 1 (replay (afterMarket settings) machine inputs.zipIdx) := by
  rw [deployIf, exec, exec_block_replay true machine (exec_processMarket settings), andThen_done,
    exec, echo, exec_skip, andThen_done]
  generalize replay (afterMarket settings) machine inputs.zipIdx = final
  by_cases clean : final.fail = [] <;> simp [exec, test, clean]

/-! ### Reports -/

/-- The commands run by a pass of the loop. -/
def runsOf (before after : Machine) : List Ran := after.ran.drop before.ran.length

/-- A pass of the loop reports the market only if both commands were run and succeeded, and
does not run `new-distributor` after a `create-merkle-tree` that failed. -/
structure Faithful (label : String) (before after : Machine) : Prop where
  reported : after.ok ≠ before.ok → .createMerkleTree label 0 ∈ runsOf before after ∧
    ∃ trees, .newDistributor label 0 trees ∈ runsOf before after
  whole : ∀ status trees, .newDistributor label status trees ∈ runsOf before after →
    ∀ earlier, .createMerkleTree label earlier ∈ runsOf before after → earlier = 0

section
variable {settings : Settings} {machine : Machine} {commands : Commands} {label : String}

@[simp] theorem report_ran (status : Nat) : (report machine label status).ran = machine.ran := by
  unfold report
  split <;> rfl

theorem report_ok_ne (status : Nat) :
    (report machine label status).ok ≠ machine.ok ↔ status = 0 := by
  unfold report
  split
  · next zero => simp [zero]
  · next failed => simp [failed]

/-- A pass that runs nothing and reports no success is faithful. -/
theorem faithful_of_idle {after : Machine} (ok : after.ok = machine.ok)
    (ran : after.ran = machine.ran) : Faithful label machine after := by
  have idle : runsOf machine after = [] := by simp [runsOf, ran]
  exact ⟨fun changed => absurd ok changed, by simp [idle]⟩

theorem runsOf_deployed (status : Nat) :
    runsOf machine (report (deployed commands label machine) label status) =
      [.createMerkleTree label commands.createMerkleTree.1,
        .newDistributor label commands.newDistributor
          (commands.rm.2 ++ commands.createMerkleTree.2)] := by
  rw [runsOf, report_ran]
  simp [deployed, generated, Machine.record, Machine.setTrees]

/-- A market that is really deployed is handled faithfully exactly when its trees were
generated: `new-distributor` runs in any case. -/
theorem faithful_deployed_iff :
    Faithful label machine (report (deployed commands label machine) label
        commands.newDistributor) ↔ commands.createMerkleTree.1 = 0 := by
  have unchanged : (deployed commands label machine).ok = machine.ok := rfl
  constructor
  · intro faithful
    apply faithful.whole commands.newDistributor (commands.rm.2 ++ commands.createMerkleTree.2)
    · simp [runsOf_deployed]
    · simp [runsOf_deployed]
  · intro succeeded
    refine ⟨fun changed => ?_, fun status trees _ earlier ran => ?_⟩
    · rw [← unchanged, report_ok_ne] at changed
      simp [runsOf_deployed, succeeded, changed]
    · simp [runsOf_deployed, succeeded] at ran
      exact ran

end

theorem faithful_afterMarket_iff (settings : Settings) (machine : Machine)
    (input : (Market × Commands) × Nat) :
    Faithful input.1.1.label machine (afterMarket settings machine input) ↔
      (Attempted settings input.1.1 → settings.dryRun = false ∧
        (input.1.2.csvExists = true → input.1.2.createMerkleTree.1 = 0)) := by
  unfold afterMarket Attempted
  cases input.1.1.missesField with
  | true =>
    simp only [if_true, Bool.true_eq_false, false_and, false_implies, iff_true]
    exact faithful_of_idle rfl rfl
  | false =>
    cases settings.skips input.1.1 with
    | true => simpa using faithful_of_idle rfl rfl
    | false =>
      cases settings.dryRun with
      | true =>
        -- the label is reported although nothing was run
        have idle : runsOf machine (report machine input.1.1.label 0) = [] := by
          simp [runsOf]
        simp only [Bool.false_eq_true, if_false, if_true]
        refine ⟨fun faithful => ?_, fun real => absurd (real (by simp)).1 (by simp)⟩
        have run := (faithful.reported ((report_ok_ne 0).mpr rfl)).1
        rw [idle] at run
        cases run
      | false =>
        cases input.1.2.csvExists with
        | true =>
          simpa using faithful_deployed_iff
        | false =>
          have failed : (report machine input.1.1.label 1).ok = machine.ok := rfl
          simpa using faithful_of_idle failed rfl

/-- Over all passes of the loop, a market is reported only if both of its commands
succeeded, and `new-distributor` never runs on partial output, exactly when the script is
no dry run and no `create-merkle-tree` fails, as far as markets are attempted. -/
theorem deployment_faithful_iff (settings : Settings) (inputs : List (Market × Commands))
    (machine : Machine) :
    (exec true (deployIf settings inputs) machine).state =
        replay (afterMarket settings) machine inputs.zipIdx ∧
    ((∀ pass ∈ transitions (afterMarket settings) machine inputs.zipIdx,
        Faithful pass.2.1.1.label pass.1 (afterMarket settings pass.1 pass.2)) ↔
      ∀ input ∈ inputs, Attempted settings input.1 →
        settings.dryRun = false ∧ (input.2.csvExists = true → input.2.createMerkleTree.1 = 0)) := by
  constructor
  · rw [exec_deployIf]
    split <;> rfl
  · rw [forall_transitions_iff (afterMarket settings) (faithful_afterMarket_iff settings)]
    constructor
    · intro each input member
      obtain ⟨position, bound, rfl⟩ := List.getElem_of_mem member
      exact each (inputs[position], position) (List.mem_zipIdx_iff_getElem?.mpr (by simp [bound]))
    · intro each input member
      exact each input.1 (List.mem_of_getElem? (List.mem_zipIdx_iff_getElem?.mp member))

namespace SampleMarket

def settings : Settings :=
  { priority := "", closable := "", startAirdropVersion := "", startIndex := none, dryRun := false }

def usdc : Market := { index := some 0, symbol := "USDC", mint := "usdc" }

/-- The generation dies after one of the shards, and the distributors of that one are
created. -/
def partialTrees : Commands :=
  { csvExists := true, mkdir := 0, rm := (0, []), createMerkleTree := (101, ["tree_0.json"]),
    newDistributor := 0 }

def idle : Machine := { trees := fun _ => [], ran := [], ok := [], fail := [] }

end SampleMarket

open SampleMarket in
/-- The script ends with status 0 and reports the market, whose `create-merkle-tree` failed
and whose partial output was deployed. -/
theorem partial_deployment_reported :
    exec true (deployIf settings [(usdc, partialTrees)]) idle =
        .done 0 (replay (afterMarket settings) idle [((usdc, partialTrees), 0)]) ∧
      (replay (afterMarket settings) idle [((usdc, partialTrees), 0)]).ok = ["0-USDC"] ∧
      (replay (afterMarket settings) idle [((usdc, partialTrees), 0)]).ran =
        [.createMerkleTree "0-USDC" 101, .newDistributor "0-USDC" 0 ["tree_0.json"]] := by
  have clean : (replay (afterMarket settings) idle [((usdc, partialTrees), 0)]).fail = [] := by
    decide
  refine ⟨?_, by decide, by decide⟩
  rw [exec_deployIf]
  exact if_pos clean

end MultiDistributor.Source.Deploy

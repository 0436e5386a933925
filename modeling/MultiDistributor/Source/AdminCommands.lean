import MultiDistributor.Source.Program
import MultiDistributor.Source.TreeFile

/-!
# The administrative commands

The loop that `process_set_admin.rs`, `process_set_clawback_receiver.rs`,
`process_set_enable_slot.rs` and `process_clawback.rs` run for each tree file: read the
distributor, go on to the next file if nothing is left to do, else send a transaction built
from what was read, and start over if sending it fails. The chain moves on between these
steps. Only `process_set_enable_slot` waits for its transactions to be confirmed; those of
the other commands land some time after they were accepted, or never. A call that returns
an error may have submitted its transaction all the same. Priority fees, block hashes and
log lines are left out.
-/
namespace MultiDistributor.Source

/-! ### The tree files -/

/-- `paths.sort_by_key(|dir| dir.path())`. -/
def sortedPaths (dir : List DirEntry) : List DirEntry :=
  dir.mergeSort fun first second => decide (first.fileName ≤ second.fileName)

/-- The versions of the tree files in the order of their paths; nothing for a file that
makes `new_from_file` fail. -/
def directoryVersions (format : TreeFormat) (dir : List DirEntry) : List (Option UInt64) :=
  (sortedPaths dir).map fun file => (file.tree format).map AirdropMerkleTree.airdropVersion

/-! ### The commands -/

/-- What tells the commands apart. -/
structure AdminLoop where
  done : MerkleDistributor → Bool
  instruction : Pubkey → MerkleDistributor → Instruction
  /-- `send_and_confirm_transaction_with_spinner` instead of `send_transaction`. -/
  confirmed : Bool
  /-- An error is tried again instead of unwrapped. -/
  retried : Bool

section
variable (rt : Runtime) (mint keypair : Pubkey)

def processSetAdmin (newAdmin : Pubkey) : AdminLoop where
  done distributorState := distributorState.admin = newAdmin
  instruction distributor _ := .setAdmin { distributor, admin := keypair } newAdmin
  confirmed := false
  retried := true

def processSetClawbackReceiver (receiver : Pubkey) : AdminLoop where
  done distributorState :=
    distributorState.clawbackReceiver = rt.associatedTokenAddress receiver mint
  instruction distributor _ :=
    .setClawbackReceiver { distributor, admin := keypair } (rt.associatedTokenAddress receiver mint)
  confirmed := false
  retried := true

/-- With a version on the command line there is one attempt. -/
def processSetEnableSlot (slot : UInt64) (airdropVersion : Option UInt64) : AdminLoop where
  done distributorState := distributorState.enableSlot = slot
  instruction distributor _ := .setEnableSlot { distributor, admin := keypair } slot
  confirmed := true
  retried := airdropVersion.isNone

def processClawback : AdminLoop where
  done distributorState := distributorState.clawedBack
  instruction distributor distributorState :=
    .clawback
      { distributor, fromAccount := distributorState.tokenVault
        toAccount := distributorState.clawbackReceiver, claimant := keypair }
  confirmed := false
  retried := true

inductive AdminCommand where
  | setAdmin (newAdmin : Pubkey)
  | setClawbackReceiver (receiver : Pubkey)
  | setEnableSlot (slot : UInt64) (airdropVersion : Option UInt64)
  | clawback
  deriving DecidableEq, Repr

def AdminCommand.process : AdminCommand → AdminLoop
  | .setAdmin newAdmin => processSetAdmin keypair newAdmin
  | .setClawbackReceiver receiver => processSetClawbackReceiver rt mint keypair receiver
  | .setEnableSlot slot airdropVersion => processSetEnableSlot keypair slot airdropVersion
  | .clawback => processClawback keypair

/-- The versions a command goes through. -/
def AdminCommand.versions (format : TreeFormat) (dir : List DirEntry) :
    AdminCommand → List (Option UInt64)
  | .setEnableSlot _ (some airdropVersion) => [some airdropVersion]
  | _ => directoryVersions format dir

/-! ### The commands at work -/

/-- A transaction on its way, and when it was sent. -/
structure SentInstruction where
  instruction : Instruction
  sentAt : Clock

def adminTransaction (clock : Clock) (instruction : Instruction) : Transaction where
  signers := [keypair]
  clock := clock
  action := .invoke instruction

inductive AdminPhase where
  | reading
  | sending (instruction : Instruction)
  | panicked

structure AdminRun where
  world : World
  phase : AdminPhase
  /-- The version at hand and those after it. -/
  remaining : List (Option UInt64)
  inFlight : List SentInstruction

/-- What a call to send a transaction returns. -/
inductive SendAnswer where
  | ok
  | err (submitted : Bool)
  deriving DecidableEq, Repr

inductive AdminEvent where
  | chain (tx : Transaction)
  | read
  | send (clock : Clock) (answer : SendAnswer)
  | land (i : Nat) (clock : Clock)
  | drop (i : Nat)

/-- The top of the loop. -/
def AdminRun.read (loop : AdminLoop) (state : AdminRun) : AdminRun :=
  match state.phase, state.remaining with
  | .reading, some airdropVersion :: later =>
      let distributor := rt.distributorAddress mint airdropVersion
      match state.world.distributors distributor with
      | some distributorState =>
          if loop.done distributorState then { state with remaining := later }
          else { state with phase := .sending (loop.instruction distributor distributorState) }
      | none => { state with phase := .panicked }
  | .reading, none :: _ => { state with phase := .panicked }
  | _, _ => state

/-- The end of the loop. A confirmed transaction has been executed when the call returns. -/
def AdminRun.send (loop : AdminLoop) (state : AdminRun) (clock : Clock) (answer : SendAnswer) :
    AdminRun :=
  match state.phase with
  | .sending instruction =>
      let sent : SentInstruction := { instruction, sentAt := clock }
      match answer with
      | .ok =>
          { world :=
              if loop.confirmed then
                apply rt state.world (adminTransaction keypair clock instruction)
              else state.world
            phase := .reading
            remaining := state.remaining.tail
            inFlight := if loop.confirmed then state.inFlight else sent :: state.inFlight }
      | .err submitted =>
          { state with
            phase := if loop.retried then .reading else .panicked
            inFlight := if submitted then sent :: state.inFlight else state.inFlight }
  | _ => state

def AdminRun.step (loop : AdminLoop) (state : AdminRun) : AdminEvent → AdminRun
  | .chain tx => { state with world := apply rt state.world tx }
  | .read => state.read rt mint loop
  | .send clock answer => state.send rt keypair loop clock answer
  | .land i clock =>
      match state.inFlight[i]? with
      | some sent =>
          { state with
            world := apply rt state.world (adminTransaction keypair clock sent.instruction)
            inFlight := state.inFlight.eraseIdx i }
      | none => state
  | .drop i => { state with inFlight := state.inFlight.eraseIdx i }

/-- A command before its first read. -/
def AdminCommand.start (command : AdminCommand) (format : TreeFormat) (dir : List DirEntry)
    (world : World) : AdminRun where
  world := world
  phase := .reading
  remaining := command.versions format dir
  inFlight := []

end

end MultiDistributor.Source

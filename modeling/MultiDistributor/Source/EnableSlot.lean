import MultiDistributor.Source.AirdropMerkleTree
import MultiDistributor.Source.Program

/-!
# Scheduling the enable slot by time

`process_set_enable_slot_by_time.rs` and `process_get_slot.rs` of the CLI. Both read the
chain clock and the recent performance samples and compute a slot from them; one prints
it, the other sends it to distributors. Plain operators panic on overflow, as the release
profile enables the checks, and a division by zero always panics. Key files, the RPC
client and the transactions around the instructions are left out.
-/
namespace MultiDistributor.Source
open Lib.Checked

/-- The fields of `RpcPerfSample` that are read. -/
structure PerfSample where
  samplePeriodSecs : UInt16
  numSlots : UInt64
  deriving DecidableEq, Repr

/-- The panics of the computation: `u64::try_from(..).unwrap()` on a negative time, the
division by the slots of a sample, and an overflowing operator. -/
inductive SlotPanic where
  | negativeTime | divideByZero | arithmeticOverflow
  deriving DecidableEq, Repr

/-- `solana_program::clock::DEFAULT_MS_PER_SLOT`. -/
def defaultMsPerSlot : UInt64 := 400

/-- `a * b` under overflow checks. -/
def mulOrPanic (a b : UInt64) : Except SlotPanic UInt64 :=
  okOr (checkedMulU64 a b) .arithmeticOverflow

/-- `a / b`. -/
def divOrPanic (a b : UInt64) : Except SlotPanic UInt64 :=
  if b = 0 then .error .divideByZero else .ok (a / b)

/-- Body of the loop over the samples. -/
def addSample (totalTime : UInt64) (sample : PerfSample) : Except SlotPanic UInt64 := do
  let period ← mulOrPanic sample.samplePeriodSecs.toUInt64 1000
  let slotTime ← divOrPanic period sample.numSlots
  okOr (checkedAdd totalTime slotTime) .arithmeticOverflow

/-- `get_average_slot_time` on the samples the RPC returned. The number of samples is the
length of a vector, which a `u64` holds. -/
def getAverageSlotTime (samples : List PerfSample) : Except SlotPanic UInt64 := do
  let numSamples := samples.length
  if numSamples = 0 then return defaultMsPerSlot
  let totalTime ← samples.foldlM addSample 0
  let averageTime := UInt64.ofNat (totalTime.toNat / numSamples)
  -- sanity check
  if averageTime < defaultMsPerSlot / 2 ∨ averageTime > defaultMsPerSlot * 2 then
    return defaultMsPerSlot
  return averageTime

/-- `u64::try_from(clock.unix_timestamp).unwrap()`. -/
def currentTimeOf (clock : Clock) : Except SlotPanic UInt64 :=
  if 0 ≤ clock.unixTimestamp then .ok (UInt64.ofNat clock.unixTimestamp.toInt.toNat)
  else .error .negativeTime

/-- The slot of a time, written out in both commands. -/
def slotAtTime (clock : Clock) (samples : List PerfSample) (enableTime : UInt64) :
    Except SlotPanic UInt64 := do
  let currentTime ← currentTimeOf clock
  let currentSlot := clock.slot
  let averageSlotTime ← getAverageSlotTime samples
  if enableTime > currentTime then
    let millis ← mulOrPanic (enableTime - currentTime) 1000
    let slots ← divOrPanic millis averageSlotTime
    okOr (checkedAdd currentSlot slots) .arithmeticOverflow
  else
    let millis ← mulOrPanic (currentTime - enableTime) 1000
    let slots ← divOrPanic millis averageSlotTime
    okOr (checkedSub currentSlot slots) .arithmeticOverflow

/-- The slot `process_get_slot` prints. -/
def processGetSlot (clock : Clock) (samples : List PerfSample) (timestamp : UInt64) :
    Except SlotPanic UInt64 :=
  slotAtTime clock samples timestamp

structure SetEnableSlotByTimeArgs where
  timestamp : UInt64
  airdropVersion : Option UInt64
  deriving DecidableEq, Repr

def setEnableSlotFor (rt : Runtime) (mint admin : Pubkey) (slot version : UInt64) : Instruction :=
  .setEnableSlot { distributor := rt.distributorAddress mint version, admin } slot

/-- The instructions `process_set_enable_slot_by_time` sends, in order: one for the given
version, or one for each tree of the directory. -/
def processSetEnableSlotByTime (rt : Runtime) (mint admin : Pubkey) (clock : Clock)
    (samples : List PerfSample) (args : SetEnableSlotByTimeArgs)
    (trees : List AirdropMerkleTree) : Except SlotPanic (List Instruction) := do
  let slot ← slotAtTime clock samples args.timestamp
  match args.airdropVersion with
  | some airdropVersion => return [setEnableSlotFor rt mint admin slot airdropVersion]
  | none => return trees.map fun tree => setEnableSlotFor rt mint admin slot tree.airdropVersion

end MultiDistributor.Source

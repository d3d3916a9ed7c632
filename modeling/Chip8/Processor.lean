import Chip8.Cycle

/-!
# The processor

A machine together with its random source and its policy for unknown words. It
counts the tones that ended and the faults that were raised.
-/

set_option autoImplicit false

namespace Chip8

structure Processor (σ : Type) where
  machine : Machine
  source : σ
  /-- The seed to start the source from again, if it has one. -/
  seed : Option UInt64
  policy : UnknownOpcodePolicy
  beeps : UInt32 := 0
  /-- Faults since the last restart. -/
  faults : UInt64 := 0

namespace Processor

variable {σ : Type} [SeededSource σ]

/-- The source to start from: that of the seed, or else the one at hand. -/
def startSource (seed : Option UInt64) (unseeded : σ) : σ :=
  match seed with
  | some seed => SeededSource.ofSeed seed
  | none => unseeded

/-- A processor with its machine just switched on. The given source counts only
for settings without a seed. -/
def new (config : Config) (unseeded : σ) : Processor σ where
  machine := Machine.powerOn
  source := startSource config.seed unseeded
  seed := config.seed
  policy := config.unknownOpcode

/-- Starts the source again and forgets the counts; the machine stays as it is. A
source without a seed runs on. -/
def restart (processor : Processor σ) : Processor σ :=
  { processor with
    source := startSource processor.seed processor.source
    beeps := 0
    faults := 0 }

def reset (processor : Processor σ) : Logged (Processor σ) := do
  Logged.emit .processorReset
  return ({ processor with machine := processor.machine.reset }).restart

def count (processor : Processor σ) (report : CycleReport) : Processor σ :=
  { processor with
    beeps := if report.soundEdge then processor.beeps + 1 else processor.beeps
    faults := if report.fault.isSome then processor.faults + 1 else processor.faults }

/-- One cycle. It gives no report when a return address was to be taken from
beyond the stack, and is then not counted. -/
def cycle (processor : Processor σ) : Logged (Option CycleReport × Processor σ) := do
  let cycled ← Chip8.cycle processor.policy processor.machine processor.source
  let after := { processor with machine := cycled.machine, source := cycled.source }
  match cycled.report with
  | some report => return (some report, after.count report)
  | none => return (none, after)

def takeBeeps (processor : Processor σ) : UInt32 × Processor σ :=
  (processor.beeps, { processor with beeps := 0 })

/-- Cycles in a row, where `past` holds the earlier events, latest first. -/
private def runFrom (past : List Event) (count : Nat) (processor : Processor σ) :
    Logged (Bool × Processor σ) :=
  match count with
  | 0 => { value := (true, processor), events := past.reverse }
  | count + 1 =>
      let done := processor.cycle
      let past := done.events.reverse ++ past
      match done.value with
      | (some _, processor) => runFrom past count processor
      | (none, processor) => { value := (false, processor), events := past.reverse }

/-- A number of cycles in a row, or fewer if one gives no report. Tells whether
all of them did. -/
def run (count : Nat) (processor : Processor σ) : Logged (Bool × Processor σ) :=
  runFrom [] count processor

private theorem runFrom_eq (past : List Event) (count : Nat) (processor : Processor σ) :
    runFrom past count processor =
      { value := (run count processor).value
        events := past.reverse ++ (run count processor).events } := by
  unfold run
  induction count generalizing past processor with
  | zero => simp [runFrom]
  | succ count ih =>
      simp only [runFrom]
      split
      · rw [ih, ih (processor.cycle.events.reverse ++ [])]
        simp
      · simp

@[simp]
theorem run_zero (processor : Processor σ) : run 0 processor = pure (true, processor) := rfl

/-- A run is its first cycle and then, if that gave a report, the run of the rest. -/
theorem run_succ (count : Nat) (processor : Processor σ) :
    run (count + 1) processor = do
      let (report, processor) ← processor.cycle
      if report.isSome then run count processor else return (false, processor) := by
  rw [run, runFrom]
  simp only [bind, Logged.bind]
  split
  · rename_i seen
    rw [runFrom_eq]
    simp [seen]
  · rename_i seen
    simp [seen]

end Processor
end Chip8

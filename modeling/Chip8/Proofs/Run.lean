import Chip8.Processor
import Chip8.Proofs.Cycle
import Mathlib.Logic.Function.Iterate

/-!
# Runs of cycles

Cycles one after the other, seen between two cycles at a time. A property that
every cycle keeps, and under which every cycle gives a report, holds at the end of
a run of any length, which is then not broken off. With the stack pointer on the
stack a run is nothing but the single cycle over and over.
-/

set_option autoImplicit false

namespace Chip8

variable {σ : Type}

/-- A machine and its random source between two cycles. -/
structure Moment (σ : Type) where
  machine : Machine
  source : σ

namespace Moment

variable [ByteSource σ] (policy : UnknownOpcodePolicy) (moment : Moment σ)

def cycled : Cycled σ := (cycle policy moment.machine moment.source).value

def next : Moment σ :=
  { machine := (moment.cycled policy).machine, source := (moment.cycled policy).source }

def draw? : Option UInt8 :=
  if moment.machine.drawsRandom then some (ByteSource.draw moment.source).1 else none

omit [ByteSource σ] in
def pressed (change : Keypad → Keypad) : Moment σ :=
  { moment with machine := { moment.machine with keypad := change moment.machine.keypad } }

/-- The moment before the cycle with a number, counted from zero. The host may
change the keys before every cycle. -/
def after (keys : Nat → Keypad → Keypad) : Nat → Moment σ
  | 0 => moment.pressed (keys 0)
  | count + 1 => ((after keys count).next policy).pressed (keys (count + 1))

variable {moment}

theorem sp_le_after (bound : moment.machine.sp.toNat ≤ stackDepth) (keys : Nat → Keypad → Keypad)
    (count : Nat) : (moment.after policy keys count).machine.sp.toNat ≤ stackDepth := by
  induction count with
  | zero => exact bound
  | succ count ih => exact sp_le_cycle policy _ (moment.after policy keys count).source ih

theorem machine_after_call {machine : Machine} {target : UInt16} (source : σ)
    (called : Instruction.decode? machine.wordAtPc = some (.call target))
    (free : machine.sp.toNat < stackDepth) :
    (({ machine, source } : Moment σ).after policy (fun _ keys => keys) 1).machine =
      { machine.fetch with
        stack := machine.stack.set machine.sp.toNat machine.pc
        sp := machine.sp + 1
        pc := target
        timers := machine.timers.tick } :=
  machine_cycle_call policy machine source called free

/-! ## Cycles over and over -/

variable (moment)

/-- The moment a number of cycles later, with the keys left alone. -/
def later (count : Nat) : Moment σ := (Moment.next policy)^[count] moment

def reports (count : Nat) : List (Option CycleReport) :=
  (List.range count).map fun done => ((moment.later policy done).cycled policy).report

def soundEdges (count : Nat) : Nat :=
  (moment.reports policy count).countP (·.any (·.soundEdge))

def faultCount (count : Nat) : Nat :=
  (moment.reports policy count).countP (·.any (·.fault.isSome))

theorem later_add (count more : Nat) :
    moment.later policy (count + more) = (moment.later policy count).later policy more := by
  rw [later, Nat.add_comm, Function.iterate_add_apply]
  rfl

theorem reports_add (count more : Nat) :
    moment.reports policy (count + more) =
      moment.reports policy count ++ (moment.later policy count).reports policy more := by
  simp only [reports, List.range_add, List.map_append, List.map_map, Function.comp_def, later_add]

theorem soundEdges_add (count more : Nat) :
    moment.soundEdges policy (count + more) =
      moment.soundEdges policy count + (moment.later policy count).soundEdges policy more := by
  rw [soundEdges, reports_add, List.countP_append]
  rfl

theorem faultCount_add (count more : Nat) :
    moment.faultCount policy (count + more) =
      moment.faultCount policy count + (moment.later policy count).faultCount policy more := by
  rw [faultCount, reports_add, List.countP_append]
  rfl

theorem length_reports (count : Nat) : (moment.reports policy count).length = count := by
  rw [reports, List.length_map, List.length_range]

theorem soundEdges_le (count : Nat) : moment.soundEdges policy count ≤ count :=
  Nat.le_trans List.countP_le_length (Nat.le_of_eq (moment.length_reports policy count))

theorem faultCount_le (count : Nat) : moment.faultCount policy count ≤ count :=
  Nat.le_trans List.countP_le_length (Nat.le_of_eq (moment.length_reports policy count))

variable {moment}

theorem sp_le_later (bound : moment.machine.sp.toNat ≤ stackDepth) (count : Nat) :
    (moment.later policy count).machine.sp.toNat ≤ stackDepth := by
  induction count with
  | zero => exact bound
  | succ count ih =>
      rw [later_add]
      exact sp_le_cycle policy _ (moment.later policy count).source ih

end Moment

namespace Processor

variable [SeededSource σ] (processor : Processor σ)

theorem report_cycle :
    processor.cycle.value.1 =
      (Chip8.cycle processor.policy processor.machine processor.source).value.report := by
  simp only [cycle, Logged.value_bind]
  split <;> simp_all

theorem machine_cycle :
    processor.cycle.value.2.machine =
      (Chip8.cycle processor.policy processor.machine processor.source).value.machine := by
  simp only [cycle, Logged.value_bind]
  split <;> rfl

theorem seed_policy_cycle :
    processor.cycle.value.2.seed = processor.seed ∧
      processor.cycle.value.2.policy = processor.policy := by
  simp only [cycle, Logged.value_bind]
  split <;> exact ⟨rfl, rfl⟩

theorem run_keeps {motive : Processor σ → Prop}
    (kept : ∀ processor, motive processor → motive processor.cycle.value.2)
    (count : Nat) (start : motive processor) : motive (run count processor).value.2 := by
  induction count generalizing processor with
  | zero => exact start
  | succ count ih =>
      have first := kept processor start
      rw [run_succ, Logged.value_bind]
      cases reported : processor.cycle.value.1.isSome with
      | false => simpa [reported] using first
      | true => simpa [reported] using ih processor.cycle.value.2 first

theorem run_finishes {motive : Processor σ → Prop}
    (kept : ∀ processor, motive processor →
      processor.cycle.value.1.isSome = true ∧ motive processor.cycle.value.2)
    (count : Nat) (start : motive processor) : (run count processor).value.1 = true := by
  induction count generalizing processor with
  | zero => rfl
  | succ count ih =>
      obtain ⟨reported, first⟩ := kept processor start
      rw [run_succ, Logged.value_bind]
      simpa [reported] using ih processor.cycle.value.2 first

variable {processor}

theorem bounded_cycle (bound : processor.machine.sp.toNat ≤ stackDepth) :
    processor.cycle.value.1.isSome = true ∧
      processor.cycle.value.2.machine.sp.toNat ≤ stackDepth := by
  rw [report_cycle, machine_cycle]
  exact ⟨report_cycle_isSome _ _ _ (Machine.toNat_sp_popped_lt bound), sp_le_cycle _ _ _ bound⟩

theorem bounded_run (bound : processor.machine.sp.toNat ≤ stackDepth) (count : Nat) :
    (run count processor).value.1 = true ∧
      (run count processor).value.2.machine.sp.toNat ≤ stackDepth := by
  refine ⟨run_finishes processor (fun _ => bounded_cycle) count bound, ?_⟩
  exact run_keeps (motive := fun processor : Processor σ => processor.machine.sp.toNat ≤ stackDepth)
    processor (fun _ start => (bounded_cycle start).2) count bound

theorem value_run_succ (bound : processor.machine.sp.toNat ≤ stackDepth) (count : Nat) :
    (run (count + 1) processor).value = (run count processor.cycle.value.2).value := by
  have reported := (bounded_cycle bound).1
  rw [run_succ, Logged.value_bind]
  simp only [reported, ↓reduceIte]

variable (processor)

/-! ## The end of a run -/

omit [SeededSource σ] in
def moment : Moment σ := { machine := processor.machine, source := processor.source }

omit [SeededSource σ] in
theorem count_eq (report : CycleReport) :
    processor.count report = { processor with
      beeps := processor.beeps + UInt32.ofNat (if report.soundEdge then 1 else 0)
      faults := processor.faults + UInt64.ofNat (if report.fault.isSome then 1 else 0) } := by
  unfold count
  cases report.soundEdge <;> cases report.fault.isSome <;> simp

/-- The counts are words, and wrap around like these. -/
def advanced (count : Nat) : Processor σ :=
  { processor with
    machine := (processor.moment.later processor.policy count).machine
    source := (processor.moment.later processor.policy count).source
    beeps := processor.beeps + UInt32.ofNat (processor.moment.soundEdges processor.policy count)
    faults := processor.faults + UInt64.ofNat (processor.moment.faultCount processor.policy count) }

theorem advanced_zero : processor.advanced 0 = processor := by
  have silent : UInt32.ofNat (processor.moment.soundEdges processor.policy 0) = 0 := rfl
  have faultless : UInt64.ofNat (processor.moment.faultCount processor.policy 0) = 0 := rfl
  rw [advanced, silent, faultless, UInt32.add_zero, UInt64.add_zero]
  rfl

theorem advanced_add (count more : Nat) :
    (processor.advanced count).advanced more = processor.advanced (count + more) := by
  simp only [advanced, Moment.later_add, Moment.soundEdges_add, Moment.faultCount_add,
    UInt32.ofNat_add, UInt64.ofNat_add, ← UInt32.add_assoc, ← UInt64.add_assoc]
  rfl

variable {processor}

theorem advanced_bound (bound : processor.machine.sp.toNat ≤ stackDepth) (count : Nat) :
    (processor.advanced count).machine.sp.toNat ≤ stackDepth := by
  have start : processor.moment.machine.sp.toNat ≤ stackDepth := bound
  exact Moment.sp_le_later processor.policy start count

theorem value_cycle (bound : processor.machine.sp.toNat ≤ stackDepth) :
    processor.cycle.value =
      ((processor.moment.cycled processor.policy).report, processor.advanced 1) := by
  have reported := (bounded_cycle bound).1
  rw [report_cycle] at reported
  obtain ⟨report, given⟩ := Option.isSome_iff_exists.mp reported
  have first : (processor.moment.cycled processor.policy).report = some report := given
  have reports : processor.moment.reports processor.policy 1 = [some report] := by
    rw [← first]
    rfl
  simp only [cycle, Logged.value_bind, given, Logged.value_pure, first, advanced, count_eq,
    Moment.soundEdges, Moment.faultCount, reports, List.countP_singleton, Option.any_some]
  rfl

/-- With the stack pointer on the stack, a run is the single cycle over and over. -/
theorem value_run (bound : processor.machine.sp.toNat ≤ stackDepth) (count : Nat) :
    (run count processor).value = (true, processor.advanced count) := by
  induction count generalizing processor with
  | zero => rw [advanced_zero, run_zero, Logged.value_pure]
  | succ count ih =>
      have next : processor.cycle.value.2 = processor.advanced 1 := by rw [value_cycle bound]
      rw [value_run_succ bound, next, ih (advanced_bound bound 1), advanced_add, Nat.add_comm]

variable (processor)

theorem events_cycle :
    processor.cycle.events =
      (Chip8.cycle processor.policy processor.machine processor.source).events := by
  simp only [cycle, Logged.events_bind]
  split <;> simp

theorem mem_events_run {count : Nat} {event : Event} (told : event ∈ (run count processor).events) :
    ∃ earlier : Processor σ, event ∈ earlier.cycle.events := by
  induction count generalizing processor with
  | zero => simp at told
  | succ count ih =>
      rw [run_succ, Logged.events_bind, List.mem_append] at told
      rcases told with first | later
      · exact ⟨processor, first⟩
      · cases reported : processor.cycle.value.1.isSome with
        | false => simp [reported] at later
        | true => exact ih processor.cycle.value.2 (by simpa [reported] using later)

end Processor
end Chip8

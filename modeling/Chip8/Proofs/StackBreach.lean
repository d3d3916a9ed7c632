import Chip8.Machine.Loading
import Chip8.Proofs.Cycle
import Chip8.Random.Keystream
import Chip8.Snapshot

/-!
# Return addresses beyond the stack

Registers, memory and screen are reached through indices that carry their bounds, so
the stack is the one place where an access can miss. It does so for a return with the
stack pointer beyond the stack, and for a snapshot of such a machine.
-/

set_option autoImplicit false

namespace Chip8

variable {σ : Type}

namespace Machine

variable (machine : Machine)

theorem sp_popped_lt_iff : machine.popped.sp.toNat < stackDepth ↔ machine.sp.toNat ≤ 16 := by
  -- The stack pointer falls before the slot is read, so a full stack is no breach.
  rw [toNat_sp_popped]
  unfold stackDepth
  omega

theorem popped_of_beyond (beyond : 16 < machine.sp.toNat) :
    machine.popped = { machine with sp := machine.sp - 1 } := by
  have used : machine.sp ≠ 0 := by
    intro empty
    rw [empty] at beyond
    exact absurd beyond (by decide)
  rw [popped, if_neg used]

end Machine

theorem Console.snapshot?_eq_none_iff (console : Console σ) :
    console.snapshot? = none ↔ 16 < console.processor.machine.sp.toNat := by
  unfold snapshot? Machine.liveStack? stackDepth
  by_cases inside : console.processor.machine.sp.toNat ≤ 16
  · simp [inside]
  · simp [inside, Nat.lt_of_not_le inside]

section Execution

variable [ByteSource σ] (machine : Machine) (source : σ)

theorem obstacle_execute_eq_stackBreach_iff (instruction : Instruction Register) :
    (execute instruction machine source).value.obstacle = some .stackBreach ↔
      instruction = .ret ∧ 16 < machine.sp.toNat := by
  rw [obstacle_execute]
  cases instruction with
  | ret =>
      simp only [machine.sp_popped_lt_iff]
      by_cases inside : machine.sp.toNat ≤ 16
      · simp [inside]
      · simp [inside, Nat.lt_of_not_le inside]
  | call target =>
      by_cases free : machine.sp.toNat < stackDepth <;> simp [free]
  | _ => simp

theorem value_execute_ret_of_beyond (beyond : 16 < machine.sp.toNat) :
    (execute .ret machine source).value =
      { machine := { machine with sp := machine.sp - 1 }, source, obstacle := some .stackBreach } := by
  have outside : ¬ machine.popped.sp.toNat < stackDepth := by
    rw [machine.sp_popped_lt_iff]
    omega
  simp only [execute, machine.returned?_eq_none outside, machine.popped_of_beyond beyond,
    Logged.value_pure]

theorem sp_execute_le_max (instruction : Instruction Register) :
    (execute instruction machine source).value.machine.sp.toNat ≤ max machine.sp.toNat 16 := by
  rw [sp_execute]
  cases instruction with
  | ret =>
      dsimp only
      rw [machine.toNat_sp_popped]
      omega
  | call target =>
      dsimp only
      split
      next free =>
        have one : (1 : UInt8).toNat = 1 := rfl
        rw [UInt8.toNat_add]
        unfold stackDepth at free
        omega
      next => exact Nat.le_max_left _ _
  | _ => exact Nat.le_max_left _ _

variable (policy : UnknownOpcodePolicy)

theorem report_cycle_eq_none_iff_ret :
    (cycle policy machine source).value.report = none ↔
      Instruction.decode? machine.wordAtPc = some .ret ∧ 16 < machine.sp.toNat := by
  rw [report_cycle_eq_none_iff, attempt]
  cases decoded : Instruction.decode? machine.wordAtPc with
  | none => simp
  | some instruction =>
      have same : machine.fetch.sp = machine.sp := rfl
      simp only [obstacle_execute_eq_stackBreach_iff, same, Option.some.injEq]

theorem value_cycle_of_breach (decoded : Instruction.decode? machine.wordAtPc = some .ret)
    (beyond : 16 < machine.sp.toNat) :
    (cycle policy machine source).value =
      { machine := { machine with opcode := machine.wordAtPc, sp := machine.sp - 1 }
        source
        report := none } := by
  have broken := value_execute_ret_of_beyond machine.fetch source beyond
  simp only [value_cycle, attempt, decoded, broken, Executed.ended, ↓reduceIte]
  rfl

/-- An instruction, a cycle and a snapshot are broken off just when a return address is
asked for beyond the stack. The stack pointer has fallen by then and, in a cycle, the
word was fetched; all else is as before. -/
theorem breach_only_by_return_beyond_stack :
    (∀ instruction : Instruction Register,
      let executed := (execute instruction machine source).value
      (executed.obstacle = some .stackBreach ↔ instruction = .ret ∧ 16 < machine.sp.toNat) ∧
      (executed.obstacle = some .stackBreach →
        executed.machine = { machine with sp := machine.sp - 1 } ∧ executed.source = source) ∧
      (executed.obstacle ≠ some .stackBreach →
        (machine.sp.toNat ≤ 16 → executed.machine.sp.toNat ≤ 16) ∧
        (16 < machine.sp.toNat → executed.machine.sp.toNat ≤ machine.sp.toNat))) ∧
    (∀ policy : UnknownOpcodePolicy,
      let cycled := (cycle policy machine source).value
      (cycled.report = none ↔
        Instruction.decode? machine.wordAtPc = some .ret ∧ 16 < machine.sp.toNat) ∧
      (cycled.report = none →
        cycled.machine = { machine with opcode := machine.wordAtPc, sp := machine.sp - 1 } ∧
        cycled.source = source)) ∧
    ∀ console : Console σ, console.processor.machine = machine →
      (console.snapshot? = none ↔ 16 < machine.sp.toNat) := by
  refine ⟨?_, ?_, ?_⟩
  · intro instruction executed
    have breach := obstacle_execute_eq_stackBreach_iff machine source instruction
    have bound := sp_execute_le_max machine source instruction
    refine ⟨breach, ?_, fun _ => ⟨fun inside => ?_, fun beyond => ?_⟩⟩
    · intro broken
      obtain ⟨rfl, beyond⟩ := breach.mp broken
      simp only [executed, value_execute_ret_of_beyond machine source beyond, and_self]
    · exact Nat.le_trans bound (Nat.max_le.mpr ⟨inside, Nat.le_refl 16⟩)
    · exact Nat.le_trans bound (Nat.max_le.mpr ⟨Nat.le_refl _, Nat.le_of_lt beyond⟩)
  · intro policy cycled
    have breach := report_cycle_eq_none_iff_ret machine source policy
    refine ⟨breach, ?_⟩
    intro broken
    obtain ⟨decoded, beyond⟩ := breach.mp broken
    simp only [cycled, value_cycle_of_breach machine source policy decoded beyond, and_self]
  · intro console held
    rw [← held]
    exact console.snapshot?_eq_none_iff

end Execution

/-- A return with the stack pointer just beyond the stack, and a call there. -/
theorem breach_only_by_return_beyond_stack_at_seventeen :
    let machine : Machine := { Machine.withProgram #[0x00, 0xEE] with sp := 17 }
    let source := Keystream.ofSeed 0
    (execute .ret machine source).value.obstacle = some .stackBreach ∧
      (execute .ret machine source).value.machine = { machine with sp := machine.sp - 1 } ∧
      (execute (.call 0x300) machine source).value.machine.sp.toNat ≤ machine.sp.toNat ∧
      (cycle .stall machine source).value.report = none ∧
      (cycle .stall machine source).value.machine =
        { machine with opcode := machine.wordAtPc, sp := machine.sp - 1 } ∧
      ∀ console : Console Keystream, console.processor.machine = machine →
        console.snapshot? = none := by
  intro machine source
  have returns : Instruction.decode? machine.wordAtPc = some .ret :=
    Machine.decode?_of_loaded rfl (by decide)
  have beyond : 16 < machine.sp.toNat := by decide
  obtain ⟨executes, cycles, shows⟩ := breach_only_by_return_beyond_stack machine source
  obtain ⟨breach, left, _⟩ := executes .ret
  have broken := breach.mpr ⟨rfl, beyond⟩
  obtain ⟨callBreach, _, bounds⟩ := executes (.call 0x300)
  have called : (execute (.call 0x300) machine source).value.obstacle ≠ some .stackBreach := by
    intro wrong
    cases (callBreach.mp wrong).1
  obtain ⟨missing, stopped⟩ := cycles .stall
  have unreported := missing.mpr ⟨returns, beyond⟩
  exact ⟨broken, (left broken).1, (bounds called).2 beyond, unreported, (stopped unreported).1,
    fun console held => (shows console held).mpr beyond⟩

end Chip8

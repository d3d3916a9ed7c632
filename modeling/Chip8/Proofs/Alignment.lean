import Chip8.Machine.Loading
import Chip8.Proofs.Run
import Chip8.Random.Keystream
import Mathlib.Algebra.Group.Nat.Even

/-!
# Even addresses

Words take two bytes, but nothing keeps a program from going on at an odd address.
A machine that starts at an even one leaves the even ones only by a jump or a call
to an odd one. Returns are no exception because every stack slot holds an even
address, whether or not the slot is in use.
-/

set_option autoImplicit false

namespace Chip8

theorem even_toNat_add (a b : UInt16) : Even (a + b).toNat ↔ Even (a.toNat + b.toNat) := by
  rw [UInt16.toNat_add, Nat.even_iff, Nat.even_iff]
  omega

namespace Machine

structure Aligned (machine : Machine) : Prop where
  pc : Even machine.pc.toNat
  stack : ∀ (slot : Nat) (inside : slot < stackDepth), Even machine.stack[slot].toNat

/-- The next instruction does not jump to an odd address. A call without a free slot
goes nowhere, so its target does not matter. -/
def AimsEven (machine : Machine) : Prop :=
  match Instruction.decode? machine.wordAtPc with
  | some (.jump target) => Even target.toNat
  | some (.call target) => machine.sp.toNat < stackDepth → Even target.toNat
  | some (.jumpWithOffset address) =>
      Even (address.toNat + (machine.register offsetRegister).toNat)
  | _ => True

theorem even_stride (machine : Machine) (instruction : Instruction Register) :
    Even (machine.stride instruction).toNat := by
  have skip (condition : Bool) : Even (if condition then (4 : UInt16) else 2).toNat := by
    cases condition <;> decide
  have wait (ended : Bool) : Even (if ended then (2 : UInt16) else 0).toNat := by
    cases ended <;> decide
  cases instruction with
  | skipIfEqual | skipIfNotEqual | skipIfRegistersEqual | skipIfRegistersNotEqual
  | skipIfKeyPressed | skipIfKeyReleased => exact skip _
  | waitForKey => exact wait _
  | _ => exact skip false

theorem aligned_withProgram (program : Array UInt8) : (withProgram program).Aligned where
  pc := (by decide : Even (UInt16.ofNat programStart).toNat)
  stack := by
    intro slot inside
    have cleared : (withProgram program).stack[slot] = 0 := Vector.getElem_replicate inside
    rw [cleared]
    decide

namespace Aligned

variable {machine : Machine} (aligned : machine.Aligned)
include aligned

theorem withKeypad (keypad : Keypad) : ({ machine with keypad } : Machine).Aligned :=
  ⟨aligned.pc, aligned.stack⟩

variable {σ : Type} [ByteSource σ] (policy : UnknownOpcodePolicy) (source : σ)

theorem even_pc_cycle_iff :
    Even (cycle policy machine source).value.machine.pc.toNat ↔ machine.AimsEven := by
  have onward (instruction : Instruction Register) :
      Even (machine.pc + machine.stride instruction).toNat := by
    rw [even_toNat_add]
    exact aligned.pc.add (machine.even_stride instruction)
  rw [pc_cycle, AimsEven]
  cases decoded : Instruction.decode? machine.wordAtPc with
  | none =>
      cases policy with
      | stall => exact iff_of_true aligned.pc trivial
      | skip => exact iff_of_true (onward .clearScreen) trivial
  | some instruction =>
      cases instruction with
      | jump target => exact Iff.rfl
      | jumpWithOffset address =>
          simp only [even_toNat_add, UInt8.toNat_toUInt16]
      | call target =>
          by_cases free : machine.sp.toNat < stackDepth
          · simp only [free, ↓reduceIte, forall_const]
          · simp only [free, ↓reduceIte, aligned.pc, IsEmpty.forall_iff]
      | ret =>
          -- Any slot will do, so it does not matter whether the stack was empty.
          by_cases inside : machine.popped.sp.toNat < stackDepth
          · have slot := aligned.stack machine.popped.sp.toNat inside
            simp only [inside, ↓reduceDIte, even_toNat_add, iff_true]
            exact slot.add (by decide)
          · simp only [inside, ↓reduceDIte, aligned.pc]
      | _ => exact iff_of_true (onward _) trivial

theorem even_stack_cycle (slot : Nat) (inside : slot < stackDepth) :
    Even (cycle policy machine source).value.machine.stack[slot].toNat := by
  rw [stack_cycle]
  split
  · split
    next free =>
      -- A call stores its own address and no other.
      rw [Vector.getElem_set]
      split
      · exact aligned.pc
      · exact aligned.stack slot inside
    next => exact aligned.stack slot inside
  · exact aligned.stack slot inside

theorem cycle_iff :
    (cycle policy machine source).value.machine.Aligned ↔ machine.AimsEven := by
  constructor
  · intro later
    exact (aligned.even_pc_cycle_iff policy source).mp later.pc
  · intro aims
    exact ⟨(aligned.even_pc_cycle_iff policy source).mpr aims, aligned.even_stack_cycle policy source⟩

end Aligned
end Machine

namespace Moment

variable {σ : Type} [ByteSource σ] (policy : UnknownOpcodePolicy)

theorem aligned_until_iff {start : Moment σ} (aligned : start.machine.Aligned)
    (keys : Nat → Keypad → Keypad) (count : Nat) :
    (∀ done ≤ count, (start.after policy keys done).machine.Aligned) ↔
      ∀ done < count, (start.after policy keys done).machine.AimsEven := by
  constructor
  · intro always done early
    have now := always done (Nat.le_of_lt early)
    obtain ⟨pc, stack⟩ := always (done + 1) early
    exact (now.cycle_iff policy (start.after policy keys done).source).mp ⟨pc, stack⟩
  · intro aims done
    induction done with
    | zero =>
        intro _
        exact aligned.withKeypad _
    | succ done ih =>
        intro reached
        have now := ih (Nat.le_of_succ_le reached)
        have later := (now.cycle_iff policy (start.after policy keys done).source).mpr
          (aims done reached)
        exact later.withKeypad _

theorem aimsEven_empty_subroutine {machine : Machine} {target : UInt16} (source : σ)
    (free : machine.sp.toNat < stackDepth) (even : Even target.toNat)
    (called : Instruction.decode? machine.wordAtPc = some (.call target))
    (returned : Instruction.decode? ({ machine with pc := target } : Machine).wordAtPc = some .ret) :
    ∀ done < 2,
      (({ machine, source } : Moment σ).after policy (fun _ keys => keys) done).machine.AimsEven := by
  have first : machine.AimsEven := by
    simp only [Machine.AimsEven, called]
    exact fun _ => even
  have second : (({ machine, source } : Moment σ).after policy (fun _ keys => keys)
      1).machine.AimsEven := by
    have word : (({ machine, source } : Moment σ).after policy (fun _ keys => keys)
        1).machine.wordAtPc = ({ machine with pc := target } : Machine).wordAtPc := by
      rw [machine_after_call policy source called free]
      rfl
    simp only [Machine.AimsEven, word, returned]
  intro done early
  obtain rfl | rfl : done = 0 ∨ done = 1 := by omega
  · exact first
  · exact second

/-- In every run of a machine that was just loaded, program counter and stack hold even
addresses for as long as no jump or call leads to an odd one. -/
theorem pc_and_stack_stay_even (policy : UnknownOpcodePolicy) (keys : Nat → Keypad → Keypad)
    (source : σ) (before machine : Machine) (program : Array UInt8)
    (loaded : (before.load program).value = .ok machine) (count : Nat)
    (aims : ∀ done < count,
      (({ machine, source } : Moment σ).after policy keys done).machine.AimsEven) :
    ∀ done ≤ count, (({ machine, source } : Moment σ).after policy keys done).machine.Aligned := by
  obtain ⟨_, fresh⟩ := (Machine.value_load_eq_ok_iff program before machine).mp loaded
  have aligned : machine.Aligned := fresh ▸ Machine.aligned_withProgram program
  exact (aligned_until_iff policy aligned keys count).mpr aims

/-- A program that calls a subroutine, which returns at once. -/
theorem pc_and_stack_stay_even_around_subroutine :
    let program : Array UInt8 := #[0x22, 0x04, 0x12, 0x00, 0x00, 0xEE]
    let start : Moment Keystream :=
      { machine := Machine.withProgram program, source := Keystream.ofSeed 0 }
    (Machine.powerOn.load program).value = .ok start.machine ∧
      (∀ done < 2, (start.after .stall (fun _ keys => keys) done).machine.AimsEven) ∧
      ∀ done ≤ 2, (start.after .stall (fun _ keys => keys) done).machine.Aligned := by
  have loaded : (Machine.powerOn.load #[0x22, 0x04, 0x12, 0x00, 0x00, 0xEE]).value =
      .ok (Machine.withProgram #[0x22, 0x04, 0x12, 0x00, 0x00, 0xEE]) := by
    rw [Machine.value_load, if_pos (by decide)]
  have called : Instruction.decode?
      (Machine.withProgram #[0x22, 0x04, 0x12, 0x00, 0x00, 0xEE]).wordAtPc =
        some (.call 0x204) :=
    Machine.decode?_of_loaded rfl (by decide)
  have returned : Instruction.decode?
      ({ Machine.withProgram #[0x22, 0x04, 0x12, 0x00, 0x00, 0xEE] with pc := 0x204 } :
        Machine).wordAtPc = some .ret := by
    apply Machine.decode?_of_loaded
    · exact rfl
    · decide
  have aims := aimsEven_empty_subroutine .stall (Keystream.ofSeed 0) (by decide) (by decide)
    called returned
  exact ⟨loaded, aims, pc_and_stack_stay_even .stall (fun _ keys => keys) (Keystream.ofSeed 0)
    _ _ _ loaded 2 aims⟩

end Moment
end Chip8

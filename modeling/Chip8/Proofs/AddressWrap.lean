import Chip8.Machine.Loading
import Chip8.Proofs.Run
import Chip8.Random.Keystream

/-!
# The program counter as an address

Of the program counter and of the return addresses only the low twelve bits ever
count: machines that differ in the other bits run alike, and a machine that drops
those bits after every cycle runs like one that keeps them. No such law holds of
the index register, which is compared as a whole.
-/

set_option autoImplicit false

namespace Chip8

/-- Addresses of one memory cell: they are congruent modulo the size of memory. -/
def SameCell (one other : UInt16) : Prop := one.toNat % memorySize = other.toNat % memorySize

namespace SameCell

variable {one other : UInt16}

theorem refl (address : UInt16) : SameCell address address := Eq.refl _

theorem cell_eq (same : SameCell one other) : Machine.cell one = Machine.cell other :=
  Fin.ext same

/-- The size of memory divides the number of words, so wrapping a sum around does no harm. -/
theorem add (same : SameCell one other) (offset : UInt16) :
    SameCell (one + offset) (other + offset) := by
  unfold SameCell memorySize at *
  rw [UInt16.toNat_add, UInt16.toNat_add]
  omega

end SameCell

/-- The same fault, met at the same memory cell. -/
inductive Fault.Congruent : Fault → Fault → Prop
  | unknownOpcode {pc otherPc : UInt16} (opcode : UInt16) (same : SameCell pc otherPc) :
      Congruent (.unknownOpcode opcode pc) (.unknownOpcode opcode otherPc)
  | stackOverflow {pc otherPc : UInt16} (target : UInt16) (same : SameCell pc otherPc) :
      Congruent (.stackOverflow pc target) (.stackOverflow otherPc target)

structure CycleReport.Congruent (one other : CycleReport) : Prop where
  opcode : one.opcode = other.opcode
  soundEdge : one.soundEdge = other.soundEdge
  fault : Option.Rel Fault.Congruent one.fault other.fault

namespace Machine

/-- The machine at another place of its program, with other addresses to return to. -/
def relocated (machine : Machine) (pc : UInt16) (stack : Vector UInt16 stackDepth) : Machine :=
  { machine with pc, stack }

/-- Machines that agree in everything but the high bits of the program counter and
of the stack slots. -/
structure Congruent (one other : Machine) : Prop where
  apart : other = one.relocated other.pc other.stack
  pc : SameCell one.pc other.pc
  stack : ∀ (slot : Nat) (inside : slot < stackDepth), SameCell one.stack[slot] other.stack[slot]

end Machine

variable {σ : Type} [ByteSource σ]

/-- Whatever an instruction does besides moving on, it does in any place of the program. -/
theorem relocated_execute (instruction : Instruction Register) (machine : Machine) (pc : UInt16)
    (stack : Vector UInt16 stackDepth) (source : σ) :
    let moved := (execute instruction (machine.relocated pc stack) source).value.machine
    moved = (execute instruction machine source).value.machine.relocated moved.pc moved.stack := by
  intro moved
  cases instruction with
  | ret =>
      simp only [moved, machine_execute_ret]
      have same : (machine.relocated pc stack).popped.sp = machine.popped.sp := rfl
      by_cases inside : machine.popped.sp.toNat < stackDepth
      · simp only [same, inside, ↓reduceDIte]
        rfl
      · simp only [same, inside, ↓reduceDIte]
        rfl
  | call target =>
      simp only [moved, machine_execute_call]
      have same : (machine.relocated pc stack).sp = machine.sp := rfl
      by_cases free : machine.sp.toNat < stackDepth
      · simp only [same, free, ↓reduceDIte]
        rfl
      · simp only [same, free, ↓reduceDIte]
        rfl
  | waitForKey x =>
      have same : (machine.relocated pc stack).keypad = machine.keypad := rfl
      cases held : machine.keypad.firstPressed? with
      | none =>
          simp only [moved, execute, same, held]
          rfl
      | some key =>
          simp only [moved, execute, same, held]
          rfl
  | storeRegisters x =>
      have stored : (machine.relocated pc stack).storeRegisters x =
          (machine.storeRegisters x).relocated pc stack :=
        List.foldl_hom (Machine.relocated · pc stack) (fun _ _ => rfl)
      have result : moved = ((machine.storeRegisters x).relocated pc stack).advance false :=
        congrArg (Machine.advance · false) stored
      rw [result]
      rfl
  | loadRegisters x =>
      have filled : (machine.relocated pc stack).loadRegisters x =
          (machine.loadRegisters x).relocated pc stack :=
        List.foldl_hom (Machine.relocated · pc stack) (fun _ _ => rfl)
      have result : moved = ((machine.loadRegisters x).relocated pc stack).advance false :=
        congrArg (Machine.advance · false) filled
      rw [result]
      rfl
  | _ => rfl

section Relocated

variable (instruction : Instruction Register) {machine : Machine} (source : σ) {pc : UInt16}
  {stack : Vector UInt16 stackDepth} (near : SameCell machine.pc pc)
  (slots : ∀ (slot : Nat) (inside : slot < stackDepth), SameCell machine.stack[slot] stack[slot])
include near slots

theorem sameCell_pc_execute :
    SameCell (execute instruction machine source).value.machine.pc
      (execute instruction (machine.relocated pc stack) source).value.machine.pc := by
  rw [pc_execute, pc_execute]
  cases instruction with
  | ret =>
      have same : (machine.relocated pc stack).popped.sp = machine.popped.sp := rfl
      by_cases inside : machine.popped.sp.toNat < stackDepth
      · simp only [same, inside, ↓reduceDIte]
        exact (slots _ inside).add 2
      · simp only [same, inside, ↓reduceDIte]
        exact near
  | call target =>
      have same : (machine.relocated pc stack).sp = machine.sp := rfl
      by_cases free : machine.sp.toNat < stackDepth
      · simp only [same, free, ↓reduceIte]
        exact .refl target
      · simp only [same, free, ↓reduceIte]
        exact near
  | jump target => exact .refl target
  | jumpWithOffset address => exact .refl _
  | _ => exact near.add _

theorem sameCell_stack_execute (slot : Nat) (inside : slot < stackDepth) :
    SameCell (execute instruction machine source).value.machine.stack[slot]
      (execute instruction (machine.relocated pc stack) source).value.machine.stack[slot] := by
  simp only [stack_execute]
  cases instruction with
  | call target =>
      have same : (machine.relocated pc stack).sp = machine.sp := rfl
      by_cases free : machine.sp.toNat < stackDepth
      · simp only [same, free, ↓reduceDIte, Vector.getElem_set]
        split
        · exact near
        · exact slots slot inside
      · simp only [free, same, ↓reduceDIte]
        exact slots slot inside
  | _ => exact slots slot inside

end Relocated

namespace Machine.Congruent

variable {one other : Machine}

theorem wordAtPc_eq (congruent : one.Congruent other) : other.wordAtPc = one.wordAtPc := by
  have here := congruent.pc.cell_eq
  have next := (congruent.pc.add 1).cell_eq
  have memory : other.memory = one.memory := by rw [congruent.apart]; rfl
  simp only [wordAtPc, read, here, next, memory]

theorem fetch (congruent : one.Congruent other) : one.fetch.Congruent other.fetch where
  apart := by
    have word := congruent.wordAtPc_eq
    rw [Machine.fetch, Machine.fetch, word, congruent.apart]
    rfl
  pc := congruent.pc
  stack := congruent.stack

theorem advance (congruent : one.Congruent other) (skip : Bool) :
    (one.advance skip).Congruent (other.advance skip) where
  apart := by rw [congruent.apart]; rfl
  pc := congruent.pc.add _
  stack := congruent.stack

theorem execute (congruent : one.Congruent other) (instruction : Instruction Register)
    (source : σ) :
    (execute instruction one source).value.machine.Congruent
      (Chip8.execute instruction other source).value.machine := by
  obtain ⟨apart, near, slots⟩ := congruent
  generalize other.pc = pc at apart near
  generalize other.stack = stack at apart slots
  subst apart
  exact ⟨relocated_execute instruction one pc stack source,
    sameCell_pc_execute instruction source near slots,
    sameCell_stack_execute instruction source near slots⟩

theorem sp_eq (congruent : one.Congruent other) : other.sp = one.sp := by
  rw [congruent.apart]
  rfl

theorem drawsRandom_eq (congruent : one.Congruent other) :
    other.drawsRandom = one.drawsRandom := by
  rw [drawsRandom, drawsRandom, congruent.wordAtPc_eq]

theorem attempt (congruent : one.Congruent other) (policy : UnknownOpcodePolicy) (source : σ) :
    (attempt policy one source).machine.Congruent (Chip8.attempt policy other source).machine := by
  unfold Chip8.attempt
  rw [congruent.wordAtPc_eq]
  cases Instruction.decode? one.wordAtPc with
  | none =>
      cases policy with
      | stall => exact congruent.fetch
      | skip => exact congruent.fetch.advance false
  | some instruction => exact congruent.fetch.execute instruction source

theorem fault? (congruent : one.Congruent other) (policy : UnknownOpcodePolicy) (source : σ) :
    Option.Rel Fault.Congruent (cycle policy one source).value.fault?
      (cycle policy other source).value.fault? := by
  rw [fault?_cycle, fault?_cycle, congruent.wordAtPc_eq, congruent.sp_eq]
  cases Instruction.decode? one.wordAtPc with
  | none => exact .some (.unknownOpcode _ congruent.pc)
  | some instruction =>
      cases instruction with
      | call target =>
          by_cases free : one.sp.toNat < stackDepth
          · simp only [free, ↓reduceIte]
            exact .none
          · simp only [free, ↓reduceIte]
            exact .some (.stackOverflow target congruent.pc)
      | _ => exact .none

theorem cycle (congruent : one.Congruent other) (bound : one.sp.toNat ≤ stackDepth)
    (policy : UnknownOpcodePolicy) (source : σ) :
    let here := (cycle policy one source).value
    let there := (Chip8.cycle policy other source).value
    here.machine.Congruent there.machine ∧ here.source = there.source ∧
      ∃ report otherReport, here.report = some report ∧ there.report = some otherReport ∧
        report.Congruent otherReport := by
  have inside : one.popped.sp.toNat < stackDepth := toNat_sp_popped_lt bound
  have otherInside : other.popped.sp.toNat < stackDepth :=
    toNat_sp_popped_lt (congruent.sp_eq ▸ bound)
  have attempted := congruent.attempt policy source
  have timers : (Chip8.attempt policy other source).machine.timers =
      (Chip8.attempt policy one source).machine.timers := by
    rw [attempted.apart]
    rfl
  have fault := congruent.fault? policy source
  intro here there
  have hereIs : here = _ := value_cycle_of_inside policy one source inside
  have thereIs : there = _ := value_cycle_of_inside policy other source otherInside
  refine ⟨?_, ?_, ?_⟩
  · rw [hereIs, thereIs, timers]
    refine ⟨?_, attempted.pc, attempted.stack⟩
    dsimp only
    rw [attempted.apart]
    rfl
  · rw [source_cycle, source_cycle, congruent.drawsRandom_eq]
  · rw [hereIs, thereIs]
    refine ⟨_, _, rfl, rfl, ?_, ?_, fault⟩
    · exact congruent.wordAtPc_eq.symm
    · exact congrArg Timers.soundExpires timers.symm

end Machine.Congruent

/-! ## Addresses of twelve bits -/

def wrapAddress (address : UInt16) : UInt16 := address &&& 0xFFF

theorem toNat_wrapAddress (address : UInt16) :
    (wrapAddress address).toNat = address.toNat % memorySize := by
  rw [wrapAddress, UInt16.toNat_and]
  exact Nat.and_two_pow_sub_one_eq_mod address.toNat 12

theorem SameCell.wrapAddress (address : UInt16) : SameCell address (wrapAddress address) := by
  rw [SameCell, toNat_wrapAddress, Nat.mod_mod]

theorem SameCell.wrapAddress_eq {one other : UInt16} (same : SameCell one other) :
    Chip8.wrapAddress one = Chip8.wrapAddress other := by
  rw [← UInt16.toNat_inj, toNat_wrapAddress, toNat_wrapAddress]
  exact same

namespace Machine

def wrapped (machine : Machine) : Machine :=
  machine.relocated (wrapAddress machine.pc) (machine.stack.map wrapAddress)

theorem congruent_wrapped (machine : Machine) : machine.Congruent machine.wrapped where
  apart := rfl
  pc := .wrapAddress machine.pc
  stack := by
    intro slot inside
    simp only [wrapped, relocated, Vector.getElem_map]
    exact .wrapAddress _

theorem Congruent.wrapped_eq {one other : Machine} (congruent : one.Congruent other) :
    one.wrapped = other.wrapped := by
  have pc := congruent.pc.wrapAddress_eq
  have stack : one.stack.map wrapAddress = other.stack.map wrapAddress := by
    apply Vector.ext
    intro slot inside
    rw [Vector.getElem_map, Vector.getElem_map]
    exact (congruent.stack slot inside).wrapAddress_eq
  rw [wrapped, wrapped, pc, stack, congruent.apart]
  rfl

end Machine

/-! ## Runs -/

namespace Moment

variable (policy : UnknownOpcodePolicy) (keys : Nat → Keypad → Keypad)

structure Congruent (one other : Moment σ) : Prop where
  machine : one.machine.Congruent other.machine
  source : one.source = other.source

omit [ByteSource σ] in
def wrapped (moment : Moment σ) : Moment σ := { moment with machine := moment.machine.wrapped }

/-- The moment before a cycle in a run that keeps addresses of twelve bits only: the
others are dropped at the start and after every cycle. -/
def afterWrapped (moment : Moment σ) : Nat → Moment σ
  | 0 => (moment.pressed (keys 0)).wrapped
  | count + 1 => (((afterWrapped moment count).next policy).pressed (keys (count + 1))).wrapped

omit [ByteSource σ] in
theorem congruent_wrapped (moment : Moment σ) : moment.Congruent moment.wrapped where
  machine := moment.machine.congruent_wrapped
  source := rfl

namespace Congruent

variable {policy keys} {one other : Moment σ}

omit [ByteSource σ] in
theorem wrapped_eq (congruent : one.Congruent other) : one.wrapped = other.wrapped := by
  rw [Moment.wrapped, Moment.wrapped, congruent.machine.wrapped_eq, congruent.source]

omit [ByteSource σ] in
theorem pressed (congruent : one.Congruent other) (change : Keypad → Keypad) :
    (one.pressed change).Congruent (other.pressed change) where
  machine := by
    refine ⟨?_, congruent.machine.pc, congruent.machine.stack⟩
    dsimp only [Moment.pressed]
    rw [congruent.machine.apart]
    rfl
  source := congruent.source

theorem draw?_eq (congruent : one.Congruent other) : one.draw? = other.draw? := by
  rw [draw?, draw?, congruent.machine.drawsRandom_eq, congruent.source]

theorem cycled (congruent : one.Congruent other) (bound : one.machine.sp.toNat ≤ stackDepth)
    (policy : UnknownOpcodePolicy) :
    (one.next policy).Congruent (other.next policy) ∧
      ∃ report otherReport, (one.cycled policy).report = some report ∧
        (other.cycled policy).report = some otherReport ∧ report.Congruent otherReport := by
  obtain ⟨machine, source, reports⟩ := congruent.machine.cycle bound policy one.source
  rw [congruent.source] at machine source reports
  have cycled : one.cycled policy = (Chip8.cycle policy one.machine other.source).value := by
    rw [Moment.cycled, congruent.source]
  rw [← cycled] at machine source reports
  exact ⟨⟨machine, source⟩, reports⟩

theorem after (congruent : one.Congruent other) (bound : one.machine.sp.toNat ≤ stackDepth)
    (count : Nat) : (one.after policy keys count).Congruent (other.after policy keys count) := by
  induction count with
  | zero => exact congruent.pressed (keys 0)
  | succ count ih =>
      have reached := sp_le_after policy bound keys count
      exact (ih.cycled reached policy).1.pressed (keys (count + 1))

end Congruent

/-- Dropping the high bits after every cycle comes to the same as dropping them at the end. -/
theorem afterWrapped_eq (moment : Moment σ) (bound : moment.machine.sp.toNat ≤ stackDepth)
    (count : Nat) :
    moment.afterWrapped policy keys count = (moment.after policy keys count).wrapped := by
  induction count with
  | zero => rfl
  | succ count ih =>
      have reached := sp_le_after policy bound keys count
      have congruent := (moment.after policy keys count).congruent_wrapped
      have next := (congruent.cycled reached policy).1.pressed (keys (count + 1))
      rw [afterWrapped, ih, ← next.wrapped_eq]
      rfl

/-- Machines that agree but for the high bits of their program counters and stack
slots run alike under the same source and the same keys, cycle by cycle, and no
differently from a machine that has addresses of twelve bits only. -/
theorem congruent_runs_alike (policy : UnknownOpcodePolicy) (keys : Nat → Keypad → Keypad)
    (source : σ) {one other : Machine} (congruent : one.Congruent other)
    (bound : one.sp.toNat ≤ stackDepth) (count : Nat) :
    let start : Moment σ := { machine := one, source }
    let here := start.after policy keys count
    let there := ({ machine := other, source } : Moment σ).after policy keys count
    here.machine.Congruent there.machine ∧ here.source = there.source ∧
      here.draw? = there.draw? ∧
      (∃ report otherReport, (here.cycled policy).report = some report ∧
        (there.cycled policy).report = some otherReport ∧ report.Congruent otherReport) ∧
      start.afterWrapped policy keys count = here.wrapped := by
  intro start here there
  have begun : start.Congruent { machine := other, source } := ⟨congruent, rfl⟩
  have reached : here.Congruent there := begun.after bound count
  have inside : here.machine.sp.toNat ≤ stackDepth := sp_le_after policy bound keys count
  exact ⟨reached.machine, reached.source, reached.draw?_eq, (reached.cycled inside policy).2,
    afterWrapped_eq policy keys start bound count⟩

/-- A return from the empty stack at two places that lie fifteen memory sizes apart,
by slots that lie three apart. -/
theorem congruent_runs_alike_after_return :
    let one := Machine.withProgram #[0x00, 0xEE]
    let other := one.relocated 0xF200 (Vector.replicate _ 0x3000)
    let keys : Nat → Keypad → Keypad := fun _ keypad => keypad.set 7 true
    let here := ({ machine := one, source := Keystream.ofSeed 0 } : Moment Keystream)
    let there := ({ machine := other, source := Keystream.ofSeed 0 } : Moment Keystream)
    one.Congruent other ∧ one.sp.toNat ≤ stackDepth ∧
      (here.after .skip keys 3).machine.Congruent (there.after .skip keys 3).machine := by
  intro one other keys here there
  have pc : SameCell 0x200 0xF200 := by
    unfold SameCell
    decide
  have empty : SameCell 0 0x3000 := by
    unfold SameCell
    decide
  have congruent : one.Congruent other := by
    refine ⟨rfl, pc, ?_⟩
    intro slot inside
    simpa only [one, other, Machine.relocated, Machine.withProgram, Vector.getElem_replicate]
      using empty
  have bound : one.sp.toNat ≤ stackDepth := Nat.zero_le _
  exact ⟨congruent, bound,
    (congruent_runs_alike .skip keys (Keystream.ofSeed 0) congruent bound 3).1⟩

end Moment
end Chip8

import Chip8.Execution

/-!
# What instructions touch

One law for each part of the machine: which instructions change it and to what.
Theorems about cycles and runs go through these laws, not through the bodies of
the instructions.
-/

set_option autoImplicit false

namespace Chip8

namespace Machine

theorem storeRegisters_keeps {α : Type} (part : Machine → α)
    (kept : ∀ machine address value, part (Machine.write machine address value) = part machine)
    (machine : Machine) (x : Register) : part (machine.storeRegisters x) = part machine := by
  unfold storeRegisters
  induction registersUpTo x generalizing machine with
  | nil => rfl
  | cons first rest ih =>
      rw [List.foldl_cons, ih, kept]

theorem loadRegisters_keeps {α : Type} (part : Machine → α)
    (kept : ∀ machine r value, part (Machine.setRegister machine r value) = part machine)
    (machine : Machine) (x : Register) : part (machine.loadRegisters x) = part machine := by
  unfold loadRegisters
  induction registersUpTo x generalizing machine with
  | nil => rfl
  | cons first rest ih =>
      rw [List.foldl_cons, ih, kept]

theorem toNat_sp_popped (machine : Machine) : machine.popped.sp.toNat = machine.sp.toNat - 1 :=
  Timers.toNat_countDown machine.sp

/-- A return finds a slot as long as the stack pointer is not beyond the stack. -/
theorem toNat_sp_popped_lt {machine : Machine} (bound : machine.sp.toNat ≤ stackDepth) :
    machine.popped.sp.toNat < stackDepth := by
  rw [toNat_sp_popped]
  unfold stackDepth at *
  omega

theorem returned?_eq_some (machine : Machine) (inside : machine.popped.sp.toNat < stackDepth) :
    machine.returned? =
      some { machine.popped with pc := machine.stack[machine.popped.sp.toNat] + 2 } := by
  have slot : machine.popped.stack[machine.popped.sp.toNat]? =
      some machine.stack[machine.popped.sp.toNat] := Vector.getElem?_eq_getElem inside
  simp only [returned?, slot, Option.map_some]

theorem returned?_eq_none (machine : Machine) (beyond : ¬ machine.popped.sp.toNat < stackDepth) :
    machine.returned? = none := by
  have slot : machine.popped.stack[machine.popped.sp.toNat]? = none :=
    Vector.getElem?_eq_none (Nat.le_of_not_lt beyond)
  simp only [returned?, slot, Option.map_none]

theorem called?_eq_some (machine : Machine) (target : UInt16)
    (free : machine.sp.toNat < stackDepth) :
    machine.called? target =
      some { machine with
        stack := machine.stack.set machine.sp.toNat machine.pc
        sp := machine.sp + 1
        pc := target } :=
  dif_pos (machine.stackIsFull_eq_false_iff.mpr free)

theorem called?_eq_none (machine : Machine) (target : UInt16)
    (full : ¬ machine.sp.toNat < stackDepth) : machine.called? target = none :=
  dif_neg (full ∘ machine.stackIsFull_eq_false_iff.mp)

/-- How far an instruction that does not jump moves the program counter on. -/
def stride (machine : Machine) (instruction : Instruction Register) : UInt16 :=
  let skipIf (condition : Bool) : UInt16 := if condition then 4 else 2
  match instruction with
  | .skipIfEqual x value => skipIf (machine.register x == value)
  | .skipIfNotEqual x value => skipIf (machine.register x != value)
  | .skipIfRegistersEqual x y => skipIf (machine.register x == machine.register y)
  | .skipIfRegistersNotEqual x y => skipIf (machine.register x != machine.register y)
  | .skipIfKeyPressed x => skipIf (machine.keypad.isPressed (machine.register x))
  | .skipIfKeyReleased x => skipIf (!machine.keypad.isPressed (machine.register x))
  | .waitForKey _ => if machine.keypad.firstPressed?.isSome then 2 else 0
  | _ => 2

end Machine

variable {σ : Type} [ByteSource σ] (machine : Machine) (source : σ)

/-! ## Calls and returns -/

theorem machine_execute_ret :
    (execute .ret machine source).value.machine =
      if inside : machine.popped.sp.toNat < stackDepth then
        { machine.popped with pc := machine.stack[machine.popped.sp.toNat] + 2 }
      else machine.popped := by
  by_cases inside : machine.popped.sp.toNat < stackDepth
  · simp only [execute, machine.returned?_eq_some inside, inside, ↓reduceDIte, Logged.value_pure]
  · simp only [execute, machine.returned?_eq_none inside, inside, ↓reduceDIte, Logged.value_pure]

theorem machine_execute_call (target : UInt16) :
    (execute (.call target) machine source).value.machine =
      if free : machine.sp.toNat < stackDepth then
        { machine with
          stack := machine.stack.set machine.sp.toNat machine.pc
          sp := machine.sp + 1
          pc := target }
      else machine := by
  by_cases free : machine.sp.toNat < stackDepth
  · simp only [execute, machine.called?_eq_some target free, free, ↓reduceDIte, Logged.value_pure]
  · simp only [execute, machine.called?_eq_none target free, free, ↓reduceDIte, Logged.value_pure]

theorem obstacle_execute (instruction : Instruction Register) :
    (execute instruction machine source).value.obstacle =
      match instruction with
      | .ret => if machine.popped.sp.toNat < stackDepth then none else some .stackBreach
      | .call target =>
          if machine.sp.toNat < stackDepth then none
          else some (.fault (.stackOverflow machine.pc target))
      | _ => none := by
  cases instruction with
  | ret =>
      by_cases inside : machine.popped.sp.toNat < stackDepth
      · simp only [execute, machine.returned?_eq_some inside, inside, ↓reduceIte,
          Logged.value_pure]
      · simp only [execute, machine.returned?_eq_none inside, inside, ↓reduceIte,
          Logged.value_pure]
  | call target =>
      by_cases free : machine.sp.toNat < stackDepth
      · simp only [execute, machine.called?_eq_some target free, free, ↓reduceIte,
          Logged.value_pure]
      · simp only [execute, machine.called?_eq_none target free, free, ↓reduceIte,
          Logged.value_pure]
  | waitForKey x =>
      cases held : machine.keypad.firstPressed? <;> simp only [execute, held] <;> rfl
  | _ => rfl

theorem events_execute (instruction : Instruction Register) :
    (execute instruction machine source).events =
      match instruction with
      | .clearScreen => [.screenCleared]
      | .draw x y rows =>
          let drawn := machine.drawSprite (machine.register x).toNat (machine.register y).toNat
            rows.toNat
          [.spriteDrawn rows (machine.register x) (machine.register y) machine.index
            (drawn.register flagRegister == 1)]
      | .waitForKey x =>
          (machine.keypad.firstPressed?.map fun key => Event.keyWaitEnded key x).toList
      | _ => [] := by
  cases instruction with
  | ret => cases returned : machine.returned? <;> simp only [execute, returned] <;> rfl
  | call target => cases called : machine.called? target <;> simp only [execute, called] <;> rfl
  | waitForKey x => cases held : machine.keypad.firstPressed? <;> simp only [execute, held] <;> rfl
  | _ => rfl

/-- Any instruction but the random one does the same under every source, which it hands
on untouched. -/
theorem execute_of_quiet {instruction : Instruction Register}
    (quiet : ∀ x mask, instruction ≠ .random x mask) (machine : Machine) (source other : σ) :
    (execute instruction machine other).value =
      { (execute instruction machine source).value with source := other } := by
  cases instruction with
  | random x mask => exact absurd rfl (quiet x mask)
  | ret => cases returned : machine.returned? <;> simp only [execute, returned] <;> rfl
  | call target => cases called : machine.called? target <;> simp only [execute, called] <;> rfl
  | waitForKey x => cases held : machine.keypad.firstPressed? <;> simp only [execute, held] <;> rfl
  | _ => rfl

/-! ## Parts of the machine -/

/-- Instructions that change nothing but program counter, stack, registers and memory. -/
def Instruction.MovesData : Instruction Register → Prop
  | .clearScreen | .draw .. | .setIndex _ | .addToIndex _ | .pointToGlyph _ | .setDelayTimer _
  | .setSoundTimer _ => False
  | _ => True

theorem part_execute_of_movesData {α : Type} {part : Machine → α}
    (apart : ∀ machine pc sp stack registers memory,
      part { machine with pc, sp, stack, registers, memory } = part machine)
    {instruction : Instruction Register} (moves : instruction.MovesData) :
    part (execute instruction machine source).value.machine = part machine := by
  cases instruction with
  | ret =>
      rw [machine_execute_ret]
      split <;> exact apart machine _ _ _ _ _
  | call target =>
      rw [machine_execute_call]
      split
      · exact apart machine _ _ _ _ _
      · rfl
  | waitForKey x =>
      cases held : machine.keypad.firstPressed? with
      | none =>
          simp only [execute, held]
          rfl
      | some key =>
          simp only [execute, held]
          exact apart machine _ _ _ _ _
  | storeRegisters x =>
      have stored : part (machine.storeRegisters x) = part machine :=
        Machine.storeRegisters_keeps part (fun _ _ _ => apart _ _ _ _ _ _) machine x
      exact (apart (machine.storeRegisters x) _ _ _ _ _).trans stored
  | loadRegisters x =>
      have filled : part (machine.loadRegisters x) = part machine :=
        Machine.loadRegisters_keeps part (fun _ _ _ => apart _ _ _ _ _ _) machine x
      exact (apart (machine.loadRegisters x) _ _ _ _ _).trans filled
  | clearScreen | draw | setIndex | addToIndex | pointToGlyph | setDelayTimer | setSoundTimer =>
      exact moves.elim
  | _ => exact apart machine _ _ _ _ _

variable (instruction : Instruction Register)

theorem pc_execute :
    (execute instruction machine source).value.machine.pc =
      match instruction with
      | .ret =>
          if inside : machine.popped.sp.toNat < stackDepth then
            machine.stack[machine.popped.sp.toNat] + 2
          else machine.pc
      | .jump target => target
      | .call target => if machine.sp.toNat < stackDepth then target else machine.pc
      | .jumpWithOffset address => address + (machine.register offsetRegister).toUInt16
      | other => machine.pc + machine.stride other := by
  cases instruction with
  | ret =>
      rw [machine_execute_ret]
      by_cases inside : machine.popped.sp.toNat < stackDepth <;> simp only [inside, ↓reduceDIte]
      rfl
  | call target =>
      rw [machine_execute_call]
      by_cases free : machine.sp.toNat < stackDepth <;> simp only [free, ↓reduceDIte, ↓reduceIte]
  | waitForKey x =>
      cases held : machine.keypad.firstPressed? with
      | none => simp [execute, held, Machine.stride]
      | some key =>
          simp only [execute, held, Machine.stride]
          rfl
  | storeRegisters x =>
      exact congrArg (· + 2) (Machine.storeRegisters_keeps Machine.pc (fun _ _ _ => rfl) machine x)
  | loadRegisters x =>
      exact congrArg (· + 2) (Machine.loadRegisters_keeps Machine.pc (fun _ _ _ => rfl) machine x)
  | _ => rfl

theorem opcode_execute :
    (execute instruction machine source).value.machine.opcode = machine.opcode := by
  cases instruction with
  | clearScreen | draw | setIndex | addToIndex | pointToGlyph | setDelayTimer | setSoundTimer => rfl
  | _ => exact part_execute_of_movesData machine source (fun _ _ _ _ _ _ => rfl) trivial

theorem sp_execute :
    (execute instruction machine source).value.machine.sp =
      match instruction with
      | .ret => machine.popped.sp
      | .call _ => if machine.sp.toNat < stackDepth then machine.sp + 1 else machine.sp
      | _ => machine.sp := by
  cases instruction with
  | ret => rw [machine_execute_ret]; split <;> rfl
  | call target =>
      rw [machine_execute_call]
      by_cases free : machine.sp.toNat < stackDepth <;> simp only [free, ↓reduceDIte, ↓reduceIte]
  | waitForKey x =>
      cases held : machine.keypad.firstPressed? <;> simp only [execute, held] <;> rfl
  | storeRegisters x => exact Machine.storeRegisters_keeps Machine.sp (fun _ _ _ => rfl) machine x
  | loadRegisters x => exact Machine.loadRegisters_keeps Machine.sp (fun _ _ _ => rfl) machine x
  | _ => rfl

theorem stack_execute :
    (execute instruction machine source).value.machine.stack =
      match instruction with
      | .call _ =>
          if free : machine.sp.toNat < stackDepth then
            machine.stack.set machine.sp.toNat machine.pc
          else machine.stack
      | _ => machine.stack := by
  cases instruction with
  | ret => rw [machine_execute_ret]; split <;> rfl
  | call target =>
      rw [machine_execute_call]
      by_cases free : machine.sp.toNat < stackDepth <;> simp only [free, ↓reduceDIte]
  | waitForKey x =>
      cases held : machine.keypad.firstPressed? <;> simp only [execute, held] <;> rfl
  | storeRegisters x =>
      exact Machine.storeRegisters_keeps Machine.stack (fun _ _ _ => rfl) machine x
  | loadRegisters x =>
      exact Machine.loadRegisters_keeps Machine.stack (fun _ _ _ => rfl) machine x
  | _ => rfl

theorem index_execute :
    (execute instruction machine source).value.machine.index =
      match instruction with
      | .setIndex address => address
      | .addToIndex x => (machine.addRegisterToIndex x).index
      | .pointToGlyph x => glyphAddress (machine.register x)
      | _ => machine.index := by
  cases instruction with
  | clearScreen | draw | setIndex | addToIndex | pointToGlyph | setDelayTimer | setSoundTimer => rfl
  | _ => exact part_execute_of_movesData machine source (fun _ _ _ _ _ _ => rfl) trivial

theorem screen_execute :
    (execute instruction machine source).value.machine.screen =
      match instruction with
      | .clearScreen => Screen.blank
      | .draw x y rows =>
          (machine.drawSprite (machine.register x).toNat (machine.register y).toNat
            rows.toNat).screen
      | _ => machine.screen := by
  cases instruction with
  | clearScreen | draw | setIndex | addToIndex | pointToGlyph | setDelayTimer | setSoundTimer => rfl
  | _ => exact part_execute_of_movesData machine source (fun _ _ _ _ _ _ => rfl) trivial

theorem drawFlag_execute :
    (execute instruction machine source).value.machine.drawFlag =
      match instruction with
      | .clearScreen => true
      | .draw .. => true
      | _ => machine.drawFlag := by
  cases instruction with
  | clearScreen | draw | setIndex | addToIndex | pointToGlyph | setDelayTimer | setSoundTimer => rfl
  | _ => exact part_execute_of_movesData machine source (fun _ _ _ _ _ _ => rfl) trivial

theorem timers_execute :
    (execute instruction machine source).value.machine.timers =
      match instruction with
      | .setDelayTimer x => { machine.timers with delay := machine.register x }
      | .setSoundTimer x => { machine.timers with sound := machine.register x }
      | _ => machine.timers := by
  cases instruction with
  | clearScreen | draw | setIndex | addToIndex | pointToGlyph | setDelayTimer | setSoundTimer => rfl
  | _ => exact part_execute_of_movesData machine source (fun _ _ _ _ _ _ => rfl) trivial

end Chip8

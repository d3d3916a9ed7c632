import Chip8.Proofs.FaultFreeze
import Chip8.Proofs.Transfer

/-!
# Footprints

What an instruction may change, and that a cycle changes nothing else besides the program
counter and the word fetched last. Over a run, memory changes only where an instruction on
the way stored something, although those instructions may themselves have been stored on
the way.
-/

set_option autoImplicit false

namespace Chip8

namespace Instruction

/-- How many bytes an instruction stores from the index register on. -/
def storeCount : Instruction Register → Nat
  | .storeDecimal _ => 3
  | .storeRegisters x => x.val + 1
  | _ => 0

def Stores (instruction : Instruction Register) (index : UInt16) (place : Fin memorySize) : Prop :=
  ∃ distance < instruction.storeCount, place = Machine.cellPast index distance

def Writes (instruction : Instruction Register) (r : Register) : Prop :=
  match instruction with
  | .setRegister x _ | .addToRegister x _ | .copy x _ | .or x _ | .and x _ | .xor x _
  | .random x _ | .readDelayTimer x | .waitForKey x => r = x
  | .add x _ | .subtract x _ | .shiftRight x | .subtractReversed x _ | .shiftLeft x =>
      r = x ∨ r = flagRegister
  | .draw .. | .addToIndex _ => r = flagRegister
  | .loadRegisters x => r ≤ x
  | _ => False

def Paints : Instruction Register → Prop
  | .clearScreen | .draw .. => True
  | _ => False

def MovesIndex : Instruction Register → Prop
  | .setIndex _ | .addToIndex _ | .pointToGlyph _ => True
  | _ => False

def SetsDelay : Instruction Register → Prop
  | .setDelayTimer _ => True
  | _ => False

def SetsSound : Instruction Register → Prop
  | .setSoundTimer _ => True
  | _ => False

def Calls : Instruction Register → Prop
  | .call _ => True
  | _ => False

/-- The later machine comes from the earlier one by a cycle that changes no more than the
instruction may. Of program counter and word fetched last nothing is said. -/
structure Confined (instruction : Instruction Register) (before after : Machine) : Prop where
  memory : ∀ place, ¬ instruction.Stores before.index place →
    after.byteAt place = before.byteAt place
  registers : ∀ r, ¬ instruction.Writes r → after.register r = before.register r
  index : ¬ instruction.MovesIndex → after.index = before.index
  stack : ∀ slot : Fin stackDepth, ¬ (instruction.Calls ∧ slot.val = before.sp.toNat) →
    after.stack[slot] = before.stack[slot]
  sp : after.sp = before.sp ∨
    (instruction.Calls ∧ before.sp.toNat < stackDepth ∧ after.sp = before.sp + 1) ∨
    (instruction = .ret ∧ before.sp ≠ 0 ∧ after.sp = before.sp - 1)
  screen : ¬ instruction.Paints →
    after.screen = before.screen ∧ after.drawFlag = before.drawFlag
  drawFlag : instruction.Paints → after.drawFlag = true
  delay : ¬ instruction.SetsDelay → after.timers.delay = before.timers.tick.delay
  sound : ¬ instruction.SetsSound → after.timers.sound = before.timers.tick.sound
  keypad : after.keypad = before.keypad

end Instruction

variable {σ : Type} [ByteSource σ]

/-! ## Parts without a law of their own -/

section Parts

variable (machine : Machine) (source : σ) (instruction : Instruction Register)

theorem keypad_execute :
    (execute instruction machine source).value.machine.keypad = machine.keypad := by
  cases instruction with
  | clearScreen | draw | setIndex | addToIndex | pointToGlyph | setDelayTimer | setSoundTimer => rfl
  | _ => exact part_execute_of_movesData machine source (fun _ _ _ _ _ _ => rfl) trivial

variable {instruction}

theorem byteAt_execute {place : Fin memorySize}
    (uncovered : ¬ instruction.Stores machine.index place) :
    (execute instruction machine source).value.machine.byteAt place = machine.byteAt place := by
  cases instruction with
  | ret => rw [machine_execute_ret]; split <;> rfl
  | call target => rw [machine_execute_call]; split <;> rfl
  | waitForKey x =>
      cases held : machine.keypad.firstPressed? <;> simp only [execute, held] <;> rfl
  | storeDecimal x =>
      exact machine.byteAt_storeDecimal_of_forall_ne x
        fun distance near same => uncovered ⟨distance, near, same⟩
  | storeRegisters x =>
      exact machine.byteAt_storeRegisters_of_forall_ne
        fun r within same => uncovered ⟨r.val, Nat.lt_succ_of_le within, same⟩
  | loadRegisters x =>
      exact Machine.loadRegisters_keeps (·.byteAt place) (fun _ _ _ => rfl) machine x
  | _ => rfl

theorem register_execute {r : Register} (unwritten : ¬ instruction.Writes r) :
    (execute instruction machine source).value.machine.register r = machine.register r := by
  have spared : ∀ (machine : Machine) (x : Register) (value : UInt8), r ≠ x →
      (machine.setRegister x value).register r = machine.register r :=
    fun machine x value other => (machine.register_setRegister x r value).trans (if_neg other)
  cases instruction with
  | ret => rw [machine_execute_ret]; split <;> rfl
  | call target => rw [machine_execute_call]; split <;> rfl
  | setRegister | addToRegister | copy | or | and | xor | random | readDelayTimer | draw
  | addToIndex => exact spared _ _ _ unwritten
  | add | subtract | shiftRight | subtractReversed | shiftLeft =>
      obtain ⟨other, unflagged⟩ := not_or.mp unwritten
      exact (spared _ _ _ other).trans (spared _ _ _ unflagged)
  | waitForKey x =>
      cases held : machine.keypad.firstPressed? with
      | none => simp only [execute, held]; rfl
      | some key => simp only [execute, held]; exact spared _ _ _ unwritten
  | storeRegisters x =>
      exact Machine.storeRegisters_keeps (·.register r) (fun _ _ _ => rfl) machine x
  | loadRegisters x => exact (machine.register_loadRegisters x r).trans (if_neg unwritten)
  | _ => rfl

end Parts

/-! ## One cycle -/

section Cycle

variable (policy : UnknownOpcodePolicy) {machine : Machine} (source : σ)

theorem keypad_cycle : (cycle policy machine source).value.machine.keypad = machine.keypad := by
  rw [part_cycle policy machine source Machine.keypad (fun _ _ => rfl), attempt]
  cases decoded : Instruction.decode? machine.wordAtPc with
  | none => cases policy <;> rfl
  | some instruction => exact keypad_execute machine.fetch source instruction

def Machine.StoresNext (machine : Machine) (place : Fin memorySize) : Prop :=
  ∃ instruction, Instruction.decode? machine.wordAtPc = some instruction ∧
    instruction.Stores machine.index place

theorem byteAt_cycle {place : Fin memorySize} (uncovered : ¬ machine.StoresNext place) :
    (cycle policy machine source).value.machine.byteAt place = machine.byteAt place := by
  rw [part_cycle policy machine source (·.byteAt place) (fun _ _ => rfl), attempt]
  cases decoded : Instruction.decode? machine.wordAtPc with
  | none => cases policy <;> rfl
  | some instruction =>
      have apart : ¬ instruction.Stores machine.fetch.index place :=
        fun covered => uncovered ⟨instruction, decoded, covered⟩
      exact byteAt_execute machine.fetch source apart

theorem timers_cycle (bound : machine.sp.toNat ≤ stackDepth) :
    (cycle policy machine source).value.machine.timers =
      (attempt policy machine source).machine.timers.tick := by
  rw [value_cycle_of_inside policy machine source (Machine.toNat_sp_popped_lt bound)]

variable {instruction : Instruction Register}

theorem confined_cycle (decoded : Instruction.decode? machine.wordAtPc = some instruction)
    (bound : machine.sp.toNat ≤ stackDepth) :
    instruction.Confined machine (cycle policy machine source).value.machine where
  memory := by
    intro place uncovered
    apply byteAt_cycle
    rintro ⟨other, known, covered⟩
    cases decoded.symm.trans known
    exact uncovered covered
  registers := by
    intro r unwritten
    rw [part_cycle policy machine source (·.register r) (fun _ _ => rfl), attempt, decoded]
    exact register_execute machine.fetch source unwritten
  index := by
    intro still
    rw [index_cycle, decoded]
    cases instruction with
    | setIndex | addToIndex | pointToGlyph => exact absurd trivial still
    | _ => rfl
  stack := by
    intro slot spared
    rw [stack_cycle, decoded]
    cases instruction with
    | call target =>
        have other : machine.sp.toNat ≠ slot.val := fun same => spared ⟨trivial, same.symm⟩
        by_cases free : machine.sp.toNat < stackDepth
        · simp only [free, ↓reduceDIte]
          exact Vector.getElem_set_ne _ _ other
        · simp only [free, ↓reduceDIte]
    | _ => rfl
  sp := by
    rw [sp_cycle, decoded]
    cases instruction with
    | ret =>
        by_cases empty : machine.sp = 0
        · exact .inl ((if_pos empty).trans empty.symm)
        · exact .inr (.inr ⟨rfl, empty, if_neg empty⟩)
    | call target =>
        by_cases free : machine.sp.toNat < stackDepth
        · exact .inr (.inl ⟨trivial, free, if_pos free⟩)
        · exact .inl (if_neg free)
    | _ => exact .inl rfl
  screen := by
    intro unpainted
    rw [screen_cycle, drawFlag_cycle, decoded]
    cases instruction with
    | clearScreen | draw => exact absurd trivial unpainted
    | _ => exact ⟨rfl, rfl⟩
  drawFlag := by
    intro painted
    rw [drawFlag_cycle, decoded]
    cases instruction with
    | clearScreen | draw => rfl
    | _ => exact painted.elim
  delay := by
    intro unset
    rw [timers_cycle policy source bound, timers_attempt, decoded]
    cases instruction with
    | setDelayTimer => exact absurd trivial unset
    | _ => rfl
  sound := by
    intro unset
    rw [timers_cycle policy source bound, timers_attempt, decoded]
    cases instruction with
    | setSoundTimer => exact absurd trivial unset
    | _ => rfl
  keypad := keypad_cycle policy source

end Cycle

/-! ## Runs -/

namespace Moment

variable (policy : UnknownOpcodePolicy) (keys : Nat → Keypad → Keypad) (moment : Moment σ)

theorem keypad_after (count : Nat) :
    (moment.after policy keys count).machine.keypad = moment.machine.keypad.after keys count := by
  induction count with
  | zero => rfl
  | succ count ih =>
      have kept : ((moment.after policy keys count).next policy).machine.keypad =
          (moment.after policy keys count).machine.keypad := keypad_cycle policy _
      exact congrArg (keys (count + 1)) (kept.trans ih)

variable {moment}

theorem byteAt_after {place : Fin memorySize} {count : Nat}
    (uncovered : ∀ done < count, ¬ (moment.after policy keys done).machine.StoresNext place) :
    (moment.after policy keys count).machine.byteAt place = moment.machine.byteAt place := by
  induction count with
  | zero => rfl
  | succ count ih =>
      have kept : ((moment.after policy keys count).next policy).machine.byteAt place =
          (moment.after policy keys count).machine.byteAt place :=
        byteAt_cycle policy _ (uncovered count (Nat.lt_succ_self count))
      exact kept.trans (ih fun done early => uncovered done (Nat.lt_succ_of_lt early))

/-- A cycle changes no more than its instruction may. So over any run the keys are as the
host set them, and a byte of memory that changed was covered by a store on the way. -/
theorem cycles_keep_to_footprints (bound : moment.machine.sp.toNat ≤ stackDepth) :
    (∀ instruction, Instruction.decode? moment.machine.wordAtPc = some instruction →
        instruction.Confined moment.machine (moment.next policy).machine) ∧
      ∀ count,
        (moment.after policy keys count).machine.keypad = moment.machine.keypad.after keys count ∧
          ∀ place, (moment.after policy keys count).machine.byteAt place ≠
              moment.machine.byteAt place →
            ∃ done < count, (moment.after policy keys done).machine.StoresNext place := by
  refine ⟨?_, ?_⟩
  · intro instruction decoded
    exact confined_cycle policy moment.source decoded bound
  · intro count
    refine ⟨moment.keypad_after policy keys count, ?_⟩
    intro place changed
    by_contra spared
    apply changed
    apply byteAt_after
    intro done early stored
    exact spared ⟨done, early, stored⟩

/-- Two registers are stored as the next instruction, which stores three digits over
itself. -/
theorem cycles_keep_to_footprints_of_stored_store :
    let machine : Machine := {
      memory := ((Vector.replicate _ 0).set 0 0xF1).set 1 0x55
      registers := ((Vector.replicate _ 0).set 0 0xF0).set 1 0x33
      index := 2
      pc := 0 }
    let moment : Moment Silence := { machine, source := Silence.mk }
    let keys : Nat → Keypad → Keypad := fun _ keypad => keypad.set 7 true
    let later := moment.after .stall keys 2
    moment.machine.sp.toNat ≤ stackDepth ∧
      Instruction.decode? moment.machine.wordAtPc = some (.storeRegisters 1) ∧
      (moment.next .stall).machine.register 1 = 0x33 ∧
      later.machine.keypad = moment.machine.keypad.after keys 2 ∧
      later.machine.byteAt (Machine.cell 3) ≠ moment.machine.byteAt (Machine.cell 3) ∧
      ∃ done < 2, (moment.after .stall keys done).machine.StoresNext (Machine.cell 3) := by
  intro machine moment keys later
  have bound : moment.machine.sp.toNat ≤ stackDepth := Nat.zero_le _
  have decoded : Instruction.decode? moment.machine.wordAtPc = some (.storeRegisters 1) := by
    decide +kernel
  have changed : later.machine.byteAt (Machine.cell 3) ≠
      moment.machine.byteAt (Machine.cell 3) := by
    decide +kernel
  obtain ⟨first, run⟩ := cycles_keep_to_footprints .stall keys bound
  obtain ⟨keypad, stored⟩ := run 2
  exact ⟨bound, decoded, (first _ decoded).registers 1 id, keypad, changed, stored _ changed⟩

end Moment
end Chip8

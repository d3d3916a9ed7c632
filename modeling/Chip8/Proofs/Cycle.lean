import Chip8.Cycle
import Chip8.Machine.Loading
import Chip8.Proofs.Execution

/-!
# What a cycle makes of the machine

A cycle is an attempt at the fetched word, after which the timers fall. The laws
of single instructions carry over to it part by part.
-/

set_option autoImplicit false

namespace Chip8

/-! ## Words of a program -/

namespace Machine

def loadedByte (program : Array UInt8) (address : UInt16) : UInt8 :=
  if programStart ≤ (cell address).val then program.getD ((cell address).val - programStart) 0
  else font.toArray.getD (cell address).val 0

def loadedWord (program : Array UInt8) (address : UInt16) : UInt16 :=
  (loadedByte program address).toUInt16 <<< 8 ||| (loadedByte program (address + 1)).toUInt16

variable {machine : Machine} {program : Array UInt8}

theorem read_of_loaded (loaded : machine.memory = (withProgram program).memory) (address : UInt16) :
    machine.read address = loadedByte program address := by
  simp only [read, loaded, withProgram, image, loadedByte, Fin.getElem_fin, Vector.getElem_ofFn]

/-- What is fetched over a memory that was loaded and not changed since, whatever else
the machine has come to hold. -/
theorem wordAtPc_of_loaded (loaded : machine.memory = (withProgram program).memory) {word : UInt16}
    (found : loadedWord program machine.pc = word) : machine.wordAtPc = word := by
  simp only [wordAtPc, read_of_loaded loaded, ← found, loadedWord]

theorem decode?_of_loaded (loaded : machine.memory = (withProgram program).memory)
    {instruction : Option (Instruction Register)}
    (encoded : Instruction.decode? (loadedWord program machine.pc) = instruction) :
    Instruction.decode? machine.wordAtPc = instruction := by
  rw [wordAtPc_of_loaded loaded rfl, encoded]

end Machine

/-! ## Attempts -/

variable {σ : Type}

def Executed.fault? (executed : Executed σ) : Option Fault :=
  match executed.obstacle with
  | some (.fault fault) => some fault
  | _ => none

/-- The end of a cycle. The timers fall and a report is given, but not when a
return address was to be taken from beyond the stack. -/
def Executed.ended (executed : Executed σ) : Cycled σ :=
  if executed.obstacle = some .stackBreach then
    { machine := executed.machine, source := executed.source, report := none }
  else {
    machine := { executed.machine with timers := executed.machine.timers.tick }
    source := executed.source
    report := some {
      opcode := executed.machine.opcode
      soundEdge := executed.machine.timers.soundExpires
      fault := executed.fault? } }

variable [ByteSource σ] (policy : UnknownOpcodePolicy) (machine : Machine) (source : σ)

def attempt : Executed σ :=
  match Instruction.decode? machine.wordAtPc with
  | none => {
      machine := policy.apply machine.fetch
      source
      obstacle := some (.fault (.unknownOpcode machine.wordAtPc machine.pc)) }
  | some instruction => (execute instruction machine.fetch source).value

theorem value_cycle : (cycle policy machine source).value = (attempt policy machine source).ended := by
  have word : machine.fetch.opcode = machine.wordAtPc := rfl
  simp only [cycle, attempt, word]
  cases decoded : Instruction.decode? machine.wordAtPc with
  | none => simp [endCycle, Executed.ended, Executed.fault?]
  | some instruction =>
      simp only [Logged.value_bind]
      cases met : (execute instruction machine.fetch source).value.obstacle with
      | none => simp [endCycle, Executed.ended, Executed.fault?, met]
      | some obstacle =>
          cases obstacle with
          | fault fault => simp [endCycle, Executed.ended, Executed.fault?, met]
          | stackBreach => simp [Executed.ended, met]

theorem report_cycle_eq_none_iff :
    (cycle policy machine source).value.report = none ↔
      (attempt policy machine source).obstacle = some .stackBreach := by
  rw [value_cycle, Executed.ended]
  split <;> simp_all

theorem report_cycle_isSome (inside : machine.popped.sp.toNat < stackDepth) :
    (cycle policy machine source).value.report.isSome = true := by
  rw [Option.isSome_iff_ne_none]
  intro broken
  rw [report_cycle_eq_none_iff, attempt] at broken
  have reach : machine.fetch.popped.sp.toNat < stackDepth := inside
  cases decoded : Instruction.decode? machine.wordAtPc with
  | none => simp [decoded] at broken
  | some instruction =>
      simp only [decoded, obstacle_execute, reach] at broken
      split at broken <;> simp_all

theorem events_cycle :
    (cycle policy machine source).events =
      (match Instruction.decode? machine.wordAtPc with
        | none => []
        | some instruction =>
            .instructionFetched machine.pc machine.wordAtPc instruction ::
              (execute instruction machine.fetch source).events) ++
        (attempt policy machine source).fault?.toList.map Event.faultRaised ++
        (if (attempt policy machine source).ended.report.any (·.soundEdge) then [.toneEnded]
          else []) := by
  have word : machine.fetch.opcode = machine.wordAtPc := rfl
  cases decoded : Instruction.decode? machine.wordAtPc with
  | none => simp [cycle, attempt, word, decoded, endCycle, Executed.ended, Executed.fault?]
  | some instruction =>
      have attempted : attempt policy machine source =
          (execute instruction machine.fetch source).value := by
        simp only [attempt, decoded]
      rw [attempted]
      cases met : (execute instruction machine.fetch source).value.obstacle with
      | none =>
          simp [cycle, word, decoded, endCycle, Executed.ended, Executed.fault?, met]
      | some obstacle =>
          cases obstacle with
          | fault fault =>
              simp [cycle, word, decoded, endCycle, Executed.ended, Executed.fault?, met]
          | stackBreach => simp [cycle, word, decoded, Executed.ended, Executed.fault?, met]

def Cycled.fault? (cycled : Cycled σ) : Option Fault := cycled.report.bind (·.fault)

theorem fault?_attempt :
    (attempt policy machine source).fault? = (cycle policy machine source).value.fault? := by
  rw [value_cycle, Executed.ended, Cycled.fault?]
  split
  next beyond => simp [Executed.fault?, beyond]
  next => rfl

theorem fault?_cycle :
    (cycle policy machine source).value.fault? =
      match Instruction.decode? machine.wordAtPc with
      | none => some (.unknownOpcode machine.wordAtPc machine.pc)
      | some (.call target) =>
          if machine.sp.toNat < stackDepth then none
          else some (.stackOverflow machine.pc target)
      | _ => none := by
  rw [← fault?_attempt, attempt]
  cases decoded : Instruction.decode? machine.wordAtPc with
  | none => rfl
  | some instruction =>
      simp only [Executed.fault?, obstacle_execute]
      cases instruction with
      | ret =>
          by_cases inside : machine.fetch.popped.sp.toNat < stackDepth <;>
            simp only [inside, ↓reduceIte]
      | call target =>
          have same : machine.fetch.sp = machine.sp := rfl
          by_cases free : machine.sp.toNat < stackDepth
          · simp only [same, free, ↓reduceIte]
          · simp only [same, free, ↓reduceIte]
            rfl
      | _ => rfl

theorem value_cycle_of_inside (inside : machine.popped.sp.toNat < stackDepth) :
    (cycle policy machine source).value = {
      machine := { (attempt policy machine source).machine with
        timers := (attempt policy machine source).machine.timers.tick }
      source := (attempt policy machine source).source
      report := some {
        opcode := machine.wordAtPc
        soundEdge := (attempt policy machine source).machine.timers.soundExpires
        fault := (cycle policy machine source).value.fault? } } := by
  have unbroken : (attempt policy machine source).obstacle ≠ some .stackBreach := by
    intro breach
    have missing := (report_cycle_eq_none_iff policy machine source).mpr breach
    have reported := report_cycle_isSome policy machine source inside
    simp [missing] at reported
  have word : (attempt policy machine source).machine.opcode = machine.wordAtPc := by
    unfold attempt
    split
    · cases policy <;> rfl
    · exact opcode_execute machine.fetch source _
  rw [value_cycle, Executed.ended, if_neg unbroken, word]
  rfl

/-- The timers apart, a cycle leaves the machine as its attempt does. -/
theorem part_cycle {α : Type} (part : Machine → α)
    (timersApart : ∀ machine timers, part { machine with timers } = part machine) :
    part (cycle policy machine source).value.machine = part (attempt policy machine source).machine := by
  rw [value_cycle, Executed.ended]
  split
  · rfl
  · exact timersApart _ _

theorem sp_cycle :
    (cycle policy machine source).value.machine.sp =
      match Instruction.decode? machine.wordAtPc with
      | some .ret => machine.popped.sp
      | some (.call _) => if machine.sp.toNat < stackDepth then machine.sp + 1 else machine.sp
      | _ => machine.sp := by
  rw [part_cycle policy machine source Machine.sp (fun _ _ => rfl), attempt]
  cases decoded : Instruction.decode? machine.wordAtPc with
  | none => cases policy <;> rfl
  | some instruction =>
      simp only [sp_execute]
      cases instruction <;> rfl

theorem sp_le_cycle (bound : machine.sp.toNat ≤ stackDepth) :
    (cycle policy machine source).value.machine.sp.toNat ≤ stackDepth := by
  rw [sp_cycle]
  split
  · exact Nat.le_of_lt (Machine.toNat_sp_popped_lt bound)
  · split
    next free =>
      rw [UInt8.toNat_add]
      unfold stackDepth at free ⊢
      have one : (1 : UInt8).toNat = 1 := rfl
      omega
    next => exact bound
  · exact bound

theorem pc_cycle :
    (cycle policy machine source).value.machine.pc =
      match Instruction.decode? machine.wordAtPc with
      | none => (policy.apply machine).pc
      | some .ret =>
          if inside : machine.popped.sp.toNat < stackDepth then
            machine.stack[machine.popped.sp.toNat] + 2
          else machine.pc
      | some (.jump target) => target
      | some (.call target) => if machine.sp.toNat < stackDepth then target else machine.pc
      | some (.jumpWithOffset address) => address + (machine.register offsetRegister).toUInt16
      | some other => machine.pc + machine.stride other := by
  rw [part_cycle policy machine source Machine.pc (fun _ _ => rfl), attempt]
  cases decoded : Instruction.decode? machine.wordAtPc with
  | none => cases policy <;> rfl
  | some instruction =>
      simp only [pc_execute]
      cases instruction <;> rfl

theorem pc_cycle_ret (decoded : Instruction.decode? machine.wordAtPc = some .ret)
    (inside : machine.popped.sp.toNat < stackDepth) :
    (cycle policy machine source).value.machine.pc =
      machine.stack[machine.popped.sp.toNat] + 2 := by
  simp only [pc_cycle, decoded, inside, ↓reduceDIte]

theorem machine_cycle_call {target : UInt16}
    (decoded : Instruction.decode? machine.wordAtPc = some (.call target))
    (free : machine.sp.toNat < stackDepth) :
    (cycle policy machine source).value.machine =
      { machine.fetch with
        stack := machine.stack.set machine.sp.toNat machine.pc
        sp := machine.sp + 1
        pc := target
        timers := machine.timers.tick } := by
  have room : machine.fetch.sp.toNat < stackDepth := free
  have unhindered : (attempt policy machine source).obstacle = none := by
    simp only [attempt, decoded, obstacle_execute, room, ↓reduceIte]
  rw [value_cycle, Executed.ended, unhindered]
  simp only [reduceCtorEq, ↓reduceIte, attempt, decoded, machine_execute_call, room, ↓reduceDIte]
  rfl

theorem stack_cycle :
    (cycle policy machine source).value.machine.stack =
      match Instruction.decode? machine.wordAtPc with
      | some (.call _) =>
          if free : machine.sp.toNat < stackDepth then
            machine.stack.set machine.sp.toNat machine.pc
          else machine.stack
      | _ => machine.stack := by
  rw [part_cycle policy machine source Machine.stack (fun _ _ => rfl), attempt]
  cases decoded : Instruction.decode? machine.wordAtPc with
  | none => cases policy <;> rfl
  | some instruction =>
      simp only [stack_execute]
      cases instruction <;> rfl

theorem index_cycle :
    (cycle policy machine source).value.machine.index =
      match Instruction.decode? machine.wordAtPc with
      | some (.setIndex address) => address
      | some (.addToIndex x) => (machine.addRegisterToIndex x).index
      | some (.pointToGlyph x) => glyphAddress (machine.register x)
      | _ => machine.index := by
  rw [part_cycle policy machine source Machine.index (fun _ _ => rfl), attempt]
  cases decoded : Instruction.decode? machine.wordAtPc with
  | none => cases policy <;> rfl
  | some instruction =>
      simp only [index_execute]
      cases instruction <;> rfl

theorem screen_cycle :
    (cycle policy machine source).value.machine.screen =
      match Instruction.decode? machine.wordAtPc with
      | some .clearScreen => Screen.blank
      | some (.draw x y rows) =>
          (machine.drawSprite (machine.register x).toNat (machine.register y).toNat
            rows.toNat).screen
      | _ => machine.screen := by
  rw [part_cycle policy machine source Machine.screen (fun _ _ => rfl), attempt]
  cases decoded : Instruction.decode? machine.wordAtPc with
  | none => cases policy <;> rfl
  | some instruction =>
      simp only [screen_execute]
      cases instruction <;> rfl

theorem drawFlag_cycle :
    (cycle policy machine source).value.machine.drawFlag =
      match Instruction.decode? machine.wordAtPc with
      | some .clearScreen => true
      | some (.draw ..) => true
      | _ => machine.drawFlag := by
  rw [part_cycle policy machine source Machine.drawFlag (fun _ _ => rfl), attempt]
  cases decoded : Instruction.decode? machine.wordAtPc with
  | none => cases policy <;> rfl
  | some instruction =>
      simp only [drawFlag_execute]
      cases instruction <;> rfl

theorem timers_attempt :
    (attempt policy machine source).machine.timers =
      match Instruction.decode? machine.wordAtPc with
      | some (.setDelayTimer x) => { machine.timers with delay := machine.register x }
      | some (.setSoundTimer x) => { machine.timers with sound := machine.register x }
      | _ => machine.timers := by
  unfold attempt
  cases decoded : Instruction.decode? machine.wordAtPc with
  | none => cases policy <;> rfl
  | some instruction =>
      simp only [timers_execute]
      cases instruction <;> rfl

/-! ## The random source -/

def Machine.drawsRandom (machine : Machine) : Bool :=
  match Instruction.decode? machine.wordAtPc with
  | some (.random ..) => true
  | _ => false

theorem Machine.drawsRandom_eq_true_iff :
    machine.drawsRandom = true ↔
      ∃ x mask, Instruction.decode? machine.wordAtPc = some (.random x mask) := by
  unfold drawsRandom
  cases Instruction.decode? machine.wordAtPc with
  | none => simp
  | some instruction => cases instruction <;> simp

variable {machine}

theorem value_cycle_of_quiet (quiet : machine.drawsRandom = false) (source other : σ) :
    (cycle policy machine other).value =
      { (cycle policy machine source).value with source := other } := by
  have attempted : attempt policy machine other =
      { attempt policy machine source with source := other } := by
    unfold attempt
    cases decoded : Instruction.decode? machine.wordAtPc with
    | none => rfl
    | some instruction =>
        apply execute_of_quiet
        rintro x mask rfl
        simp [Machine.drawsRandom, decoded] at quiet
  rw [value_cycle, value_cycle, attempted, Executed.ended, Executed.ended]
  split <;> rfl

theorem value_cycle_random {x : Register} {mask : UInt8}
    (decoded : Instruction.decode? machine.wordAtPc = some (.random x mask)) :
    (cycle policy machine source).value = {
      machine :=
        { (machine.fetch.setRegister x ((ByteSource.draw source).1 &&& mask)).advance false with
          timers := machine.timers.tick }
      source := (ByteSource.draw source).2
      report := some {
        opcode := machine.wordAtPc
        soundEdge := machine.timers.soundExpires
        fault := none } } := by
  rw [value_cycle, attempt, decoded]
  rfl

theorem source_cycle :
    (cycle policy machine source).value.source =
      if machine.drawsRandom then (ByteSource.draw source).2 else source := by
  cases drawn : machine.drawsRandom with
  | false =>
      rw [value_cycle_of_quiet policy drawn source source]
      rfl
  | true =>
      obtain ⟨x, mask, decoded⟩ := machine.drawsRandom_eq_true_iff.mp drawn
      rw [value_cycle_random policy source decoded]
      rfl

end Chip8

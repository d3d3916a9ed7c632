import Chip8.Config
import Chip8.Execution
import Chip8.Instruction.Decode

/-!
# Cycles

One cycle takes up the word at the program counter, executes it and lets the
timers fall by one. A fault is reported and does not keep the timers from falling.
-/

set_option autoImplicit false

namespace Chip8

variable {σ : Type}

structure CycleReport where
  opcode : UInt16
  soundEdge : Bool
  fault : Option Fault
  deriving DecidableEq

/-- The machine and the random source after a cycle. There is no report when a
return address was to be taken from beyond the stack; the cycle then ends there
and the timers do not fall. -/
structure Cycled (σ : Type) where
  machine : Machine
  source : σ
  report : Option CycleReport

def endCycle (machine : Machine) (source : σ) (fault : Option Fault) : Logged (Cycled σ) := do
  let soundEdge := machine.timers.soundExpires
  Logged.emitIf soundEdge .toneEnded
  return {
    machine := { machine with timers := machine.timers.tick }
    source
    report := some { opcode := machine.opcode, soundEdge, fault } }

def UnknownOpcodePolicy.apply (policy : UnknownOpcodePolicy) (machine : Machine) : Machine :=
  match policy with
  | .stall => machine
  | .skip => machine.advance false

def cycle [ByteSource σ] (policy : UnknownOpcodePolicy) (machine : Machine) (source : σ) :
    Logged (Cycled σ) := do
  let pc := machine.pc
  let machine := machine.fetch
  let opcode := machine.opcode
  match Instruction.decode? opcode with
  | none =>
      let fault := Fault.unknownOpcode opcode pc
      Logged.emit (.faultRaised fault)
      endCycle (policy.apply machine) source (some fault)
  | some instruction =>
      Logged.emit (.instructionFetched pc opcode instruction)
      let executed ← execute instruction machine source
      match executed.obstacle with
      | none => endCycle executed.machine executed.source none
      | some (.fault fault) =>
          Logged.emit (.faultRaised fault)
          endCycle executed.machine executed.source (some fault)
      | some .stackBreach =>
          return { machine := executed.machine, source := executed.source, report := none }

end Chip8

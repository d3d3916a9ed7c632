import Chip8.Logged
import Chip8.Machine.Sprite
import Chip8.Random.Source

/-!
# Execution of instructions

What each instruction does to the machine. An instruction that sets the flag
register writes it before its result, and the result is worked out from the
registers as they stand after that write; a result that goes to the flag register
therefore replaces the flag.
-/

set_option autoImplicit false

namespace Chip8

variable {σ : Type}

/-- What keeps an instruction from being completed. -/
inductive Obstacle where
  /-- A condition that is reported; the machine stays usable. -/
  | fault (fault : Fault)
  /-- A return address was to be taken from beyond the stack. -/
  | stackBreach
  deriving DecidableEq

structure Executed (σ : Type) where
  machine : Machine
  source : σ
  obstacle : Option Obstacle := none

namespace Machine

def popped (machine : Machine) : Machine :=
  { machine with sp := if machine.sp = 0 then 0 else machine.sp - 1 }

/-- Returns to the address after the newest call, or nothing when the stack
pointer lies beyond the stack. On an empty stack the lowest slot is read. -/
def returned? (machine : Machine) : Option Machine :=
  let machine := machine.popped
  machine.stack[machine.sp.toNat]?.map fun caller => { machine with pc := caller + 2 }

/-- Goes to an address and keeps where it came from, or nothing when the stack is full. -/
def called? (machine : Machine) (target : UInt16) : Option Machine :=
  if free : machine.stackIsFull = false then
    some { machine with
      stack := machine.stack.set machine.sp.toNat machine.pc (machine.stackIsFull_eq_false_iff.mp free)
      sp := machine.sp + 1
      pc := target }
  else
    none

def addRegisters (machine : Machine) (x y : Register) : Machine :=
  let machine := machine.setFlag ((machine.register x).toNat + (machine.register y).toNat > 0xFF)
  machine.setRegister x (machine.register x + machine.register y)

def subtractRegisters (machine : Machine) (x y : Register) : Machine :=
  let machine := machine.setFlag (machine.register x ≥ machine.register y)
  machine.setRegister x (machine.register x - machine.register y)

def subtractRegistersReversed (machine : Machine) (x y : Register) : Machine :=
  let machine := machine.setFlag (machine.register y ≥ machine.register x)
  machine.setRegister x (machine.register y - machine.register x)

def shiftRegisterRight (machine : Machine) (x : Register) : Machine :=
  let machine := machine.setRegister flagRegister (machine.register x &&& 1)
  machine.setRegister x (machine.register x >>> 1)

def shiftRegisterLeft (machine : Machine) (x : Register) : Machine :=
  let machine := machine.setRegister flagRegister ((machine.register x >>> 7) &&& 1)
  machine.setRegister x (machine.register x <<< 1)

/-- Moves the index register on. The flag tells that it left the address space,
into which the result is wrapped. -/
def addRegisterToIndex (machine : Machine) (x : Register) : Machine :=
  let machine := machine.setFlag (machine.index.toNat + (machine.register x).toNat > 0xFFF)
  { machine with index := (machine.index + (machine.register x).toUInt16) &&& 0xFFF }

def storeDecimal (machine : Machine) (x : Register) : Machine :=
  let value := machine.register x
  ((machine.write machine.index (value / 100)).write
    (machine.index + 1) (value / 10 % 10)).write (machine.index + 2) (value % 10)

def registersUpTo (x : Register) : List Register :=
  (List.finRange 16).filter (· ≤ x)

/-- Copies the registers up to `x` to memory at the index register, which stays. -/
def storeRegisters (machine : Machine) (x : Register) : Machine :=
  (registersUpTo x).foldl
    (fun machine r => machine.write (machine.index + UInt16.ofNat r.val) (machine.register r))
    machine

/-- Fills the registers up to `x` from memory at the index register, which stays. -/
def loadRegisters (machine : Machine) (x : Register) : Machine :=
  (registersUpTo x).foldl
    (fun machine r => machine.setRegister r (machine.read (machine.index + UInt16.ofNat r.val)))
    machine

end Machine

def execute [ByteSource σ] (instruction : Instruction Register) (machine : Machine) (source : σ) :
    Logged (Executed σ) :=
  let continueAt (machine : Machine) : Logged (Executed σ) := pure { machine, source }
  let next (machine : Machine) : Logged (Executed σ) := continueAt (machine.advance false)
  let skipIf (condition : Bool) : Logged (Executed σ) := continueAt (machine.advance condition)
  match instruction with
  | .clearScreen => do
      Logged.emit .screenCleared
      next machine.clearScreen
  | .ret =>
      match machine.returned? with
      | some machine => continueAt machine
      | none => pure { machine := machine.popped, source, obstacle := some .stackBreach }
  | .jump target => continueAt { machine with pc := target }
  | .call target =>
      match machine.called? target with
      | some machine => continueAt machine
      | none =>
          pure { machine, source, obstacle := some (.fault (.stackOverflow machine.pc target)) }
  | .skipIfEqual x value => skipIf (machine.register x == value)
  | .skipIfNotEqual x value => skipIf (machine.register x != value)
  | .skipIfRegistersEqual x y => skipIf (machine.register x == machine.register y)
  | .setRegister x value => next (machine.setRegister x value)
  | .addToRegister x value => next (machine.setRegister x (machine.register x + value))
  | .copy x y => next (machine.setRegister x (machine.register y))
  | .or x y => next (machine.setRegister x (machine.register x ||| machine.register y))
  | .and x y => next (machine.setRegister x (machine.register x &&& machine.register y))
  | .xor x y => next (machine.setRegister x (machine.register x ^^^ machine.register y))
  | .add x y => next (machine.addRegisters x y)
  | .subtract x y => next (machine.subtractRegisters x y)
  | .shiftRight x => next (machine.shiftRegisterRight x)
  | .subtractReversed x y => next (machine.subtractRegistersReversed x y)
  | .shiftLeft x => next (machine.shiftRegisterLeft x)
  | .skipIfRegistersNotEqual x y => skipIf (machine.register x != machine.register y)
  | .setIndex address => next { machine with index := address }
  | .jumpWithOffset address =>
      continueAt { machine with pc := address + (machine.register offsetRegister).toUInt16 }
  | .random x mask =>
      let (byte, source) := ByteSource.draw source
      pure { machine := (machine.setRegister x (byte &&& mask)).advance false, source }
  | .draw x y rows => do
      let left := machine.register x
      let top := machine.register y
      let drawn := machine.drawSprite left.toNat top.toNat rows.toNat
      Logged.emit
        (.spriteDrawn rows left top machine.index (drawn.register flagRegister == 1))
      next drawn
  | .skipIfKeyPressed x => skipIf (machine.keypad.isPressed (machine.register x))
  | .skipIfKeyReleased x => skipIf (!machine.keypad.isPressed (machine.register x))
  | .readDelayTimer x => next (machine.setRegister x machine.timers.delay)
  | .waitForKey x =>
      match machine.keypad.firstPressed? with
      | some key => do
          Logged.emit (.keyWaitEnded key x)
          next (machine.setRegister x (UInt8.ofNat key.val))
      | none => continueAt machine
  | .setDelayTimer x =>
      next { machine with timers := { machine.timers with delay := machine.register x } }
  | .setSoundTimer x =>
      next { machine with timers := { machine.timers with sound := machine.register x } }
  | .addToIndex x => next (machine.addRegisterToIndex x)
  | .pointToGlyph x => next { machine with index := glyphAddress (machine.register x) }
  | .storeDecimal x => next (machine.storeDecimal x)
  | .storeRegisters x => next (machine.storeRegisters x)
  | .loadRegisters x => next (machine.loadRegisters x)

end Chip8

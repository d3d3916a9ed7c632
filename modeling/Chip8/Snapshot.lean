import Chip8.Json.Basic
import Chip8.Console
import Chip8.Text.Hex

/-!
# Snapshots

What a debugger shows of a console. A snapshot is not meant to restore one.
-/

set_option autoImplicit false

namespace Chip8

structure Snapshot where
  frames : UInt64
  faults : UInt64
  pc : UInt16
  opcode : UInt16
  index : UInt16
  sp : UInt8
  stack : List UInt16
  registers : Vector UInt8 16
  timers : Timers
  keypad : Keypad
  deriving DecidableEq

namespace Timers

def toJson (timers : Timers) : Json :=
  .record [("delay", .natural timers.delay.toNat), ("sound", .natural timers.sound.toNat)]

end Timers

namespace Keypad

def toJson (keypad : Keypad) : Json := .record [("keys", .array (keypad.keys.toList.map .bool))]

end Keypad

namespace Console

variable {σ : Type}

/-- The snapshot of a console, or nothing when the stack pointer lies beyond the
stack. -/
def snapshot? (console : Console σ) : Option Snapshot :=
  let machine := console.processor.machine
  machine.liveStack?.map fun stack => {
    frames := console.frames
    faults := console.processor.faults
    pc := machine.pc
    opcode := machine.opcode
    index := machine.index
    sp := machine.sp
    stack
    registers := machine.registers
    timers := machine.timers
    keypad := machine.keypad }

end Console

/-- The snapshot as a JSON record with its members in alphabetical order. -/
def Snapshot.toJson (snapshot : Snapshot) : Json :=
  .record [
    ("faults", .natural snapshot.faults.toNat),
    ("frames", .natural snapshot.frames.toNat),
    ("i", .natural snapshot.index.toNat),
    ("keys", snapshot.keypad.toJson),
    ("opcode", .string (Text.hex 4 snapshot.opcode.toNat)),
    ("pc", .natural snapshot.pc.toNat),
    ("sp", .natural snapshot.sp.toNat),
    ("stack", .array (snapshot.stack.map fun address => .natural address.toNat)),
    ("system", .string "chip8"),
    ("timers", snapshot.timers.toJson),
    ("v", .array (snapshot.registers.toList.map fun value => .natural value.toNat))]

end Chip8

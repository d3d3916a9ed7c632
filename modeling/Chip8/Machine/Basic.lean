import Chip8.Font
import Chip8.Instruction.Basic
import Chip8.Keypad
import Chip8.Timers

/-!
# The machine

The state that programs act on, and access to its parts. Addresses count modulo
the size of memory and screen coordinates modulo the size of the screen, so both
are total. The stack pointer is a plain byte: nothing here says that it is at
most sixteen.
-/

set_option autoImplicit false

namespace Chip8

def memorySize : Nat := 0x1000

def programStart : Nat := 0x200

def maxProgramSize : Nat := memorySize - programStart

def stackDepth : Nat := 16

def screenWidth : Nat := 64

def screenHeight : Nat := 32

/-- One byte per pixel, row by row from the top left. Programs only ever leave
zero (dark) and one (lit). -/
abbrev Screen := Vector UInt8 (screenWidth * screenHeight)

namespace Screen

/-- Where a pixel stands, its coordinates wrapped around the screen's edges. -/
def position (x y : Nat) : Fin (screenWidth * screenHeight) :=
  ⟨x % screenWidth + y % screenHeight * screenWidth, by
    have := Nat.mod_lt x (show 0 < screenWidth by decide)
    have := Nat.mod_lt y (show 0 < screenHeight by decide)
    simp only [screenWidth, screenHeight] at *
    omega⟩

def blank : Screen := Vector.replicate _ 0

def byteAt (screen : Screen) (place : Fin (screenWidth * screenHeight)) : UInt8 := screen.get place

def put (screen : Screen) (place : Fin (screenWidth * screenHeight)) (value : UInt8) : Screen :=
  screen.set place.val value place.isLt

def pixel (screen : Screen) (x y : Nat) : UInt8 := screen.byteAt (position x y)

end Screen

structure Machine where
  memory : Vector UInt8 memorySize
  registers : Vector UInt8 16 := Vector.replicate _ 0
  index : UInt16 := 0
  pc : UInt16 := UInt16.ofNat programStart
  opcode : UInt16 := 0
  stack : Vector UInt16 stackDepth := Vector.replicate _ 0
  /-- The number of the first free stack slot. -/
  sp : UInt8 := 0
  screen : Screen := Screen.blank
  /-- The screen may differ from what was last shown. -/
  drawFlag : Bool := false
  timers : Timers := {}
  keypad : Keypad := {}
  deriving DecidableEq

namespace Machine

/-! ## Power -/

/-- Copies bytes to memory from an address on. Bytes past the end of memory are
left out. -/
def place (machine : Machine) (start : Nat) (bytes : Array UInt8) : Machine :=
  { machine with memory := Vector.ofFn fun address =>
      if start ≤ address.val then bytes.getD (address.val - start) machine.memory[address]
      else machine.memory[address] }

def placeFont (machine : Machine) : Machine := machine.place 0 font.toArray

def powerOn : Machine := placeFont { memory := Vector.replicate _ 0 }

/-- Switches the machine off and on: every part is cleared by itself, then the
glyphs are put back. -/
def reset (machine : Machine) : Machine :=
  placeFont { machine with
    pc := UInt16.ofNat programStart
    opcode := 0
    index := 0
    sp := 0
    timers := { delay := 0, sound := 0 }
    memory := Vector.replicate _ 0
    registers := Vector.replicate _ 0
    stack := Vector.replicate _ 0
    screen := Screen.blank
    keypad := { keys := Vector.replicate 16 false }
    drawFlag := false }

/-- Nothing of what the machine held outlasts a reset. -/
theorem reset_eq_powerOn (machine : Machine) : machine.reset = powerOn := (rfl)

/-! ## Memory -/

def cell (address : UInt16) : Fin memorySize :=
  ⟨address.toNat % memorySize, Nat.mod_lt _ (by decide)⟩

def read (machine : Machine) (address : UInt16) : UInt8 := machine.memory[cell address]

def write (machine : Machine) (address : UInt16) (value : UInt8) : Machine :=
  { machine with memory := machine.memory.set (cell address) value }

theorem read_write (machine : Machine) (address other : UInt16) (value : UInt8) :
    (machine.write address value).read other =
      if cell other = cell address then value else machine.read other := by
  simp only [read, write]
  by_cases same : cell other = cell address
  · simp [same]
  · have differ : ¬ (cell address).val = (cell other).val := fun equal => same (Fin.ext equal.symm)
    simp [same, differ]

def wordAtPc (machine : Machine) : UInt16 :=
  (machine.read machine.pc).toUInt16 <<< 8 ||| (machine.read (machine.pc + 1)).toUInt16

def fetch (machine : Machine) : Machine := { machine with opcode := machine.wordAtPc }

/-! ## Registers and program counter -/

def register (machine : Machine) (x : Register) : UInt8 := machine.registers[x]

def setRegister (machine : Machine) (x : Register) (value : UInt8) : Machine :=
  { machine with registers := machine.registers.set x value }

theorem register_setRegister (machine : Machine) (x y : Register) (value : UInt8) :
    (machine.setRegister x value).register y = if y = x then value else machine.register y := by
  simp only [register, setRegister]
  by_cases same : y = x
  · subst same
    simp
  · have differ : ¬ x.val = y.val := fun equal => same (Fin.ext equal.symm)
    simp [same, differ]

def setFlag (machine : Machine) (flag : Bool) : Machine :=
  machine.setRegister flagRegister (if flag then 1 else 0)

/-- Moves on to the next instruction, or to the one after it. -/
def advance (machine : Machine) (skip : Bool) : Machine :=
  { machine with pc := machine.pc + (if skip then 4 else 2) }

/-! ## Stack -/

def stackIsFull (machine : Machine) : Bool := stackDepth ≤ machine.sp.toNat

theorem stackIsFull_eq_false_iff (machine : Machine) :
    machine.stackIsFull = false ↔ machine.sp.toNat < stackDepth := by
  simp [stackIsFull]

/-- The return addresses in use, oldest first, or nothing when the stack pointer
lies beyond the stack. -/
def liveStack? (machine : Machine) : Option (List UInt16) :=
  if machine.sp.toNat ≤ stackDepth then some (machine.stack.toList.take machine.sp.toNat) else none

/-! ## Screen -/

/-- The byte of a pixel; coordinates wrap around. -/
def pixel (machine : Machine) (x y : Nat) : UInt8 := machine.screen.pixel x y

def clearScreen (machine : Machine) : Machine :=
  { machine with screen := Screen.blank, drawFlag := true }

end Machine
end Chip8

/-!
# Instructions

The instruction set, over whatever stands for a register operand.
-/

set_option autoImplicit false

namespace Chip8

abbrev Register := Fin 16

def flagRegister : Register := ⟨15, by decide⟩

def offsetRegister : Register := ⟨0, by decide⟩

/-- An instruction whose register operands are given as `ρ`. The machine
executes `Instruction Register`; a listing needs only the operands' numbers. -/
inductive Instruction (ρ : Type) where
  | clearScreen
  | ret
  | jump (target : UInt16)
  | call (target : UInt16)
  | skipIfEqual (x : ρ) (value : UInt8)
  | skipIfNotEqual (x : ρ) (value : UInt8)
  | skipIfRegistersEqual (x y : ρ)
  | setRegister (x : ρ) (value : UInt8)
  | addToRegister (x : ρ) (value : UInt8)
  | copy (x y : ρ)
  | or (x y : ρ)
  | and (x y : ρ)
  | xor (x y : ρ)
  | add (x y : ρ)
  | subtract (x y : ρ)
  | shiftRight (x : ρ)
  | subtractReversed (x y : ρ)
  | shiftLeft (x : ρ)
  | skipIfRegistersNotEqual (x y : ρ)
  | setIndex (address : UInt16)
  | jumpWithOffset (address : UInt16)
  | random (x : ρ) (mask : UInt8)
  | draw (x y : ρ) (rows : UInt8)
  | skipIfKeyPressed (x : ρ)
  | skipIfKeyReleased (x : ρ)
  | readDelayTimer (x : ρ)
  | waitForKey (x : ρ)
  | setDelayTimer (x : ρ)
  | setSoundTimer (x : ρ)
  | addToIndex (x : ρ)
  | pointToGlyph (x : ρ)
  | storeDecimal (x : ρ)
  | storeRegisters (x : ρ)
  | loadRegisters (x : ρ)
  deriving DecidableEq

end Chip8

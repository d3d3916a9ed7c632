import Chip8.Instruction.Basic

/-!
# Instruction words

The operand fields of a sixteen-bit word and the instruction it encodes.
-/

set_option autoImplicit false

namespace Chip8.Word

def x (word : UInt16) : Register := ⟨word.toNat / 0x100 % 16, Nat.mod_lt _ (by decide)⟩

def y (word : UInt16) : Register := ⟨word.toNat / 0x10 % 16, Nat.mod_lt _ (by decide)⟩

def n (word : UInt16) : UInt8 := (word &&& 0xF).toUInt8

def nn (word : UInt16) : UInt8 := word.toUInt8

def nnn (word : UInt16) : UInt16 := word &&& 0xFFF

end Chip8.Word

namespace Chip8.Instruction

open Word

/-- The instruction of a word, or nothing where the word encodes none. The last
nibble of a comparison of two registers is not looked at. -/
def decode? (word : UInt16) : Option (Instruction Register) :=
  match word.toNat / 0x1000 with
  | 0x0 =>
      match word.toNat with
      | 0x00E0 => some .clearScreen
      | 0x00EE => some .ret
      | _ => none
  | 0x1 => some (.jump (nnn word))
  | 0x2 => some (.call (nnn word))
  | 0x3 => some (.skipIfEqual (x word) (nn word))
  | 0x4 => some (.skipIfNotEqual (x word) (nn word))
  | 0x5 => some (.skipIfRegistersEqual (x word) (y word))
  | 0x6 => some (.setRegister (x word) (nn word))
  | 0x7 => some (.addToRegister (x word) (nn word))
  | 0x8 =>
      match word.toNat % 0x10 with
      | 0x0 => some (.copy (x word) (y word))
      | 0x1 => some (.or (x word) (y word))
      | 0x2 => some (.and (x word) (y word))
      | 0x3 => some (.xor (x word) (y word))
      | 0x4 => some (.add (x word) (y word))
      | 0x5 => some (.subtract (x word) (y word))
      | 0x6 => some (.shiftRight (x word))
      | 0x7 => some (.subtractReversed (x word) (y word))
      | 0xE => some (.shiftLeft (x word))
      | _ => none
  | 0x9 => some (.skipIfRegistersNotEqual (x word) (y word))
  | 0xA => some (.setIndex (nnn word))
  | 0xB => some (.jumpWithOffset (nnn word))
  | 0xC => some (.random (x word) (nn word))
  | 0xD => some (.draw (x word) (y word) (n word))
  | 0xE =>
      match word.toNat % 0x100 with
      | 0x9E => some (.skipIfKeyPressed (x word))
      | 0xA1 => some (.skipIfKeyReleased (x word))
      | _ => none
  | 0xF =>
      match word.toNat % 0x100 with
      | 0x07 => some (.readDelayTimer (x word))
      | 0x0A => some (.waitForKey (x word))
      | 0x15 => some (.setDelayTimer (x word))
      | 0x18 => some (.setSoundTimer (x word))
      | 0x1E => some (.addToIndex (x word))
      | 0x29 => some (.pointToGlyph (x word))
      | 0x33 => some (.storeDecimal (x word))
      | 0x55 => some (.storeRegisters (x word))
      | 0x65 => some (.loadRegisters (x word))
      | _ => none
  | _ => none

end Chip8.Instruction

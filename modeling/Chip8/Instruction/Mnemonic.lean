import Chip8.Instruction.Basic
import Chip8.Text.Hex

/-!
# Mnemonics

The line of assembly that a listing shows for an instruction.
-/

set_option autoImplicit false

namespace Chip8.Instruction

open Text (hex)

variable {ρ : Type}

def byteText (value : UInt8) : String := hex 2 value.toNat

def addressText (value : UInt16) : String := hex 3 value.toNat

/-- The assembly text, where `number` gives the number of a register operand.
Registers show as `V` and a hexadecimal numeral, bytes with at least two digits
and addresses with at least three. -/
def mnemonic (number : ρ → Nat) (instruction : Instruction ρ) : String :=
  let v (register : ρ) : String := "V" ++ hex 1 (number register)
  match instruction with
  | .clearScreen => "CLS"
  | .ret => "RET"
  | .jump target => "JP " ++ addressText target
  | .call target => "CALL " ++ addressText target
  | .skipIfEqual x value => "SE " ++ v x ++ ", " ++ byteText value
  | .skipIfNotEqual x value => "SNE " ++ v x ++ ", " ++ byteText value
  | .skipIfRegistersEqual x y => "SE " ++ v x ++ ", " ++ v y
  | .setRegister x value => "LD " ++ v x ++ ", " ++ byteText value
  | .addToRegister x value => "ADD " ++ v x ++ ", " ++ byteText value
  | .copy x y => "LD " ++ v x ++ ", " ++ v y
  | .or x y => "OR " ++ v x ++ ", " ++ v y
  | .and x y => "AND " ++ v x ++ ", " ++ v y
  | .xor x y => "XOR " ++ v x ++ ", " ++ v y
  | .add x y => "ADD " ++ v x ++ ", " ++ v y
  | .subtract x y => "SUB " ++ v x ++ ", " ++ v y
  | .shiftRight x => "SHR " ++ v x
  | .subtractReversed x y => "SUBN " ++ v x ++ ", " ++ v y
  | .shiftLeft x => "SHL " ++ v x
  | .skipIfRegistersNotEqual x y => "SNE " ++ v x ++ ", " ++ v y
  | .setIndex target => "LD I, " ++ addressText target
  | .jumpWithOffset target => "JP V0, " ++ addressText target
  | .random x mask => "RND " ++ v x ++ ", " ++ byteText mask
  | .draw x y rows => "DRW " ++ v x ++ ", " ++ v y ++ ", " ++ hex 1 rows.toNat
  | .skipIfKeyPressed x => "SKP " ++ v x
  | .skipIfKeyReleased x => "SKNP " ++ v x
  | .readDelayTimer x => "LD " ++ v x ++ ", DT"
  | .waitForKey x => "LD " ++ v x ++ ", K"
  | .setDelayTimer x => "LD DT, " ++ v x
  | .setSoundTimer x => "LD ST, " ++ v x
  | .addToIndex x => "ADD I, " ++ v x
  | .pointToGlyph x => "LD F, " ++ v x
  | .storeDecimal x => "LD B, " ++ v x
  | .storeRegisters x => "LD [I], " ++ v x
  | .loadRegisters x => "LD " ++ v x ++ ", [I]"

end Chip8.Instruction

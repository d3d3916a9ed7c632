import Chip8.Text.Hex

/-!
# Faults

What can go wrong in a cycle without ending the run.
-/

set_option autoImplicit false

namespace Chip8

open Text (hex)

inductive Fault where
  /-- The word at the program counter encodes no instruction. -/
  | unknownOpcode (opcode pc : UInt16)
  | stackOverflow (pc target : UInt16)
  deriving DecidableEq

def Fault.message : Fault → String
  | .unknownOpcode opcode pc =>
      "unknown opcode " ++ hex 4 opcode.toNat ++ " at " ++ hex 3 pc.toNat
  | .stackOverflow pc target =>
      "stack overflow: CALL " ++ hex 3 target.toNat ++ " at " ++ hex 3 pc.toNat
        ++ " with 16 frames in use"

end Chip8

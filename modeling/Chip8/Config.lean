/-!
# Settings

What a host may choose about the interpreter before it starts.
-/

set_option autoImplicit false

namespace Chip8

inductive UnknownOpcodePolicy where
  /-- The program counter stays, so the same word is met again. -/
  | stall
  /-- The word is stepped over. -/
  | skip
  deriving DecidableEq

/-- The interpreter's settings. Without a seed the random bytes start wherever
the host lets them start. -/
structure Config where
  cyclesPerFrame : UInt32 := 20
  unknownOpcode : UnknownOpcodePolicy := .stall
  seed : Option UInt64 := none
  deriving DecidableEq

end Chip8

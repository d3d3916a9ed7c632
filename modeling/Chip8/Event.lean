import Chip8.Fault
import Chip8.Instruction.Mnemonic
import Chip8.Log.Category
import Chip8.Log.Level

/-!
# Events

What the interpreter tells its log. An event is kept as data; its wording is
worked out only for an event that is written down.
-/

set_option autoImplicit false

namespace Chip8

open Text (hex)

inductive Event where
  | instructionFetched (pc opcode : UInt16) (instruction : Instruction Register)
  | faultRaised (fault : Fault)
  | processorReset
  /-- A program of `size` bytes was placed at `start`. -/
  | programLoaded (start size : Nat)
  /-- A program of `size` bytes was refused for being longer than `limit`. -/
  | programRejected (size limit : Nat)
  /-- The stored program could not be loaded again, for the stated reason. -/
  | reloadFailed (reason : String)
  | screenCleared
  | spriteDrawn (rows : UInt8) (x y : UInt8) (source : UInt16) (collided : Bool)
  | keyLatched (key : UInt8) (pressed : Bool)
  | keyWaitEnded (key : Fin 16) (x : Register)
  | toneEnded
  deriving DecidableEq

namespace Event

def category : Event → Log.Category
  | .instructionFetched .. => .cpu
  | .faultRaised (.unknownOpcode ..) => .stubs
  | .faultRaised (.stackOverflow ..) => .cpu
  | .processorReset => .cpu
  | .programLoaded .. => .memory
  | .programRejected .. => .memory
  | .reloadFailed .. => .memory
  | .screenCleared => .display
  | .spriteDrawn .. => .display
  | .keyLatched .. => .input
  | .keyWaitEnded .. => .input
  | .toneEnded => .timers

def level : Event → Log.Level
  | .instructionFetched .. => .trace
  | .faultRaised .. => .warn
  | .processorReset => .info
  | .programLoaded .. => .info
  | .programRejected .. => .error
  | .reloadFailed .. => .error
  | .screenCleared => .trace
  | .spriteDrawn .. => .trace
  | .keyLatched .. => .debug
  | .keyWaitEnded .. => .debug
  | .toneEnded => .debug

def description : Event → String
  | .instructionFetched pc opcode instruction =>
      hex 3 pc.toNat ++ "  " ++ hex 4 opcode.toNat ++ "  " ++ instruction.mnemonic Fin.val
  | .faultRaised fault => fault.message
  | .processorReset => "reset"
  | .programLoaded start size =>
      "loaded " ++ toString size ++ " bytes at 0x" ++ hex 3 start
        ++ "-0x" ++ hex 3 (start + (size - 1))
  | .programRejected size limit =>
      "rejected " ++ toString size ++ " byte ROM (max " ++ toString limit ++ ")"
  | .reloadFailed reason => "reload failed: " ++ reason
  | .screenCleared => "CLS"
  | .spriteDrawn rows x y source collided =>
      "DRW " ++ toString rows.toNat ++ "x8 at (" ++ toString x.toNat ++ ", " ++ toString y.toNat
        ++ ") from " ++ hex 3 source.toNat ++ ", collision=" ++ toString collided
  | .keyLatched key pressed =>
      "key " ++ hex 1 key.toNat ++ (if pressed then " down" else " up")
  | .keyWaitEnded key x => "key " ++ hex 1 key.val ++ " satisfied wait into V" ++ hex 1 x.val
  | .toneEnded => "sound timer expired"

def line (event : Event) : String := "CHIP-8: " ++ event.description

end Event
end Chip8

import Chip8.Json.Reader
import Chip8.Json.Record
import Chip8.Json.Writer
import Chip8.Snapshot

/-!
# Stored forms

The JSON records of settings, timers, keys and frames. Writing gives the members
in a fixed order; reading accepts any order. Only settings may leave members out.
-/

set_option autoImplicit false

namespace Chip8

namespace UnknownOpcodePolicy

def name : UnknownOpcodePolicy → String
  | .stall => "stall"
  | .skip => "skip"

def ofName? : String → Option UnknownOpcodePolicy
  | "stall" => some .stall
  | "skip" => some .skip
  | _ => none

def toJson (policy : UnknownOpcodePolicy) : Json := .string policy.name

/-- A policy is read from its name, or from an object whose only key is the name
and whose value is null. -/
def ofJson? : Json → Option UnknownOpcodePolicy
  | .string name => ofName? name
  | .object [(some name, .null)] => ofName? name
  | _ => none

end UnknownOpcodePolicy

namespace Config

def toJson (config : Config) : Json :=
  .record [
    ("cycles_per_frame", .natural config.cyclesPerFrame.toNat),
    ("unknown_opcode", config.unknownOpcode.toJson),
    ("rng_seed", match config.seed with
      | some seed => .natural seed.toNat
      | none => .null)]

def seedOfJson? : Json → Option (Option UInt64)
  | .null => some none
  | json => (json.word64?).map some

/-- The settings of a record. A member that is left out keeps its default. -/
def ofJson? (json : Json) : Option Config := do
  let members ← json.members? ["cycles_per_frame", "unknown_opcode", "rng_seed"]
  let standard : Config := {}
  let cyclesPerFrame ←
    match members.lookup "cycles_per_frame" with
    | some value => value.word32?
    | none => some standard.cyclesPerFrame
  let unknownOpcode ←
    match members.lookup "unknown_opcode" with
    | some value => UnknownOpcodePolicy.ofJson? value
    | none => some standard.unknownOpcode
  let seed ←
    match members.lookup "rng_seed" with
    | some value => seedOfJson? value
    | none => some standard.seed
  return { cyclesPerFrame, unknownOpcode, seed }

def ofText? (text : String) : Option Config := (Json.parse? text).bind ofJson?

end Config

namespace Timers

def ofJson? (json : Json) : Option Timers := do
  let members ← json.members? ["delay", "sound"]
  let delay ← (members.lookup "delay").bind Json.byte?
  let sound ← (members.lookup "sound").bind Json.byte?
  return { delay, sound }

end Timers

namespace Keypad

def ofJson? (json : Json) : Option Keypad := do
  let members ← json.members? ["keys"]
  let items ← (members.lookup "keys").bind Json.items?
  let keys ← items.mapM Json.bool?
  if sixteen : keys.length = 16 then
    some { keys := ⟨keys.toArray, by simpa using sixteen⟩ }
  else none

end Keypad

namespace Frame

def toJson (frame : Frame) : Json :=
  .record [
    ("width", .natural frame.width.toNat),
    ("height", .natural frame.height.toNat),
    ("pixels", .array (frame.pixels.toList.map fun color => .natural color.toNat))]

def ofJson? (json : Json) : Option Frame := do
  let members ← json.members? ["width", "height", "pixels"]
  let width ← (members.lookup "width").bind Json.word32?
  let height ← (members.lookup "height").bind Json.word32?
  let items ← (members.lookup "pixels").bind Json.items?
  let pixels ← items.mapM Json.word32?
  return { width, height, pixels := pixels.toArray }

end Frame
end Chip8

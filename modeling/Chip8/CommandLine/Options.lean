/-!
# Options

What a command line may ask for.
-/

set_option autoImplicit false

namespace Chip8.CommandLine

/-- A complete request. Texts that have a meaning of their own, such as levels and
keys, are kept as they were given. -/
structure Options where
  program : String
  frames : UInt32 := 60
  cyclesPerFrame : Option UInt32 := none
  seed : Option UInt64 := none
  config : Option String := none
  keys : String := ""
  skipUnknown : Bool := false
  logLevel : String := "warn"
  logCpu : Option String := none
  logCategories : List String := []
  logRate : Option Nat := none
  logFile : Option String := none
  print : Bool := false
  debug : Bool := false
  deriving DecidableEq

inductive Refusal where
  | helpRequested
  | unknownOption (text : String)
  | missingValue (option : String)
  | unexpectedValue (option : String)
  | repeated (option : String)
  | invalidValue (option value : String)
  | extraArgument (text : String)
  | missingProgram
  deriving DecidableEq

def Refusal.message : Refusal → String
  | .helpRequested => "Usage: chip8 [OPTIONS] <ROM>"
  | .unknownOption text => "unknown option " ++ text
  | .missingValue option => "option --" ++ option ++ " needs a value"
  | .unexpectedValue option => "option --" ++ option ++ " takes no value"
  | .repeated option => "option --" ++ option ++ " given twice"
  | .invalidValue option value => "option --" ++ option ++ " cannot be " ++ value
  | .extraArgument text => "unexpected argument " ++ text
  | .missingProgram => "no program given"

end Chip8.CommandLine

import Chip8.CommandLine.Options
import Chip8.Text.Decimal

/-!
# Arguments

How a request is written on the command line.
-/

set_option autoImplicit false

namespace Chip8.CommandLine

/-! ## Numbers -/

def digitsValue? (digits : List Char) : Option Nat :=
  if Text.isDecimal digits then some (Text.decimalValue digits) else none

/-- A number up to a bound. A plus sign may stand before it. -/
def unsigned? (bound : Nat) (text : String) : Option Nat :=
  let value? := match text.toList with
    | '+' :: digits => digitsValue? digits
    | digits => digitsValue? digits
  value?.filter (· ≤ bound)

/-- A number up to a bound that is read as a signed one, so that a minus sign may
stand before zero. -/
def signed? (bound : Nat) (text : String) : Option Nat :=
  match text.toList with
  | '-' :: digits => (digitsValue? digits).filter (· = 0)
  | _ => unsigned? bound text

/-! ## Options by name -/

inductive Flag where
  | skipUnknown
  | print
  | debug
  deriving DecidableEq

def Flag.ofName? : String → Option Flag
  | "skip-unknown" => some .skipUnknown
  | "print" => some .print
  | "debug" => some .debug
  | _ => none

def Flag.apply (flag : Flag) (options : Options) : Options :=
  match flag with
  | .skipUnknown => { options with skipUnknown := true }
  | .print => { options with print := true }
  | .debug => { options with debug := true }

inductive Setting where
  | frames
  | cyclesPerFrame
  | seed
  | config
  | keys
  | logLevel
  | logCpu
  | logCategory
  | logRate
  | logFile
  deriving DecidableEq

def Setting.ofName? : String → Option Setting
  | "frames" => some .frames
  | "cycles-per-frame" => some .cyclesPerFrame
  | "seed" => some .seed
  | "config" => some .config
  | "keys" => some .keys
  | "log-level" => some .logLevel
  | "log-cpu" => some .logCpu
  | "log-category" => some .logCategory
  | "log-rate" => some .logRate
  | "log-file" => some .logFile
  | _ => none

def Setting.repeats (setting : Setting) : Bool := setting == .logCategory

def path? (value : String) : Option String := if value = "" then none else some value

def Setting.apply? (setting : Setting) (value : String) (options : Options) : Option Options :=
  match setting with
  | .frames =>
      (signed? 0xFFFFFFFF value).map fun n => { options with frames := UInt32.ofNat n }
  | .cyclesPerFrame =>
      (signed? 0xFFFFFFFF value).map fun n =>
        { options with cyclesPerFrame := some (UInt32.ofNat n) }
  | .seed =>
      (unsigned? 0xFFFFFFFFFFFFFFFF value).map fun n =>
        { options with seed := some (UInt64.ofNat n) }
  | .config => (path? value).map fun path => { options with config := some path }
  | .keys => some { options with keys := value }
  | .logLevel => some { options with logLevel := value }
  | .logCpu => some { options with logCpu := some value }
  | .logCategory => some { options with logCategories := options.logCategories ++ [value] }
  | .logRate =>
      (unsigned? 0xFFFFFFFFFFFFFFFF value).map fun n => { options with logRate := some n }
  | .logFile => (path? value).map fun path => { options with logFile := some path }

/-! ## Arguments -/

structure Given where
  program : Option String := none
  options : Options := { program := "" }
  flags : List Flag := []
  settings : List Setting := []

namespace Given

/-- Takes an option that stands alone, which must not have been given before. -/
def setFlag (given : Given) (name : String) (flag : Flag) : Except Refusal Given :=
  if given.flags.contains flag then .error (.repeated name)
  else .ok { given with options := flag.apply given.options, flags := flag :: given.flags }

def setValue (given : Given) (name : String) (setting : Setting) (value : String) :
    Except Refusal Given :=
  if given.settings.contains setting && !setting.repeats then .error (.repeated name)
  else
    match setting.apply? value given.options with
    | some options => .ok { given with options, settings := setting :: given.settings }
    | none => .error (.invalidValue name value)

/-- Takes an argument that is no option. There is room for one, and it must not be
empty. -/
def setProgram (given : Given) (path : String) : Except Refusal Given :=
  if given.program.isSome then .error (.extraArgument path)
  else if path = "" then .error (.invalidValue "program" path)
  else .ok { given with program := some path }

def takePlain (given : Given) (arguments : List String) : Except Refusal Given :=
  arguments.foldlM setProgram given

/-- The name of an option and the value attached to it, if the argument starts
with two hyphens. -/
def longOption? (argument : String) : Option (String × Option String) :=
  match argument.toList with
  | '-' :: '-' :: rest =>
      let name := String.ofList (rest.takeWhile (· ≠ '='))
      match rest.dropWhile (· ≠ '=') with
      | [] => some (name, none)
      | _ :: value => some (name, some (String.ofList value))
  | _ => none

/-- The argument starts with a hyphen. One hyphen alone is an ordinary argument. -/
def startsOption (argument : String) : Bool :=
  match argument.toList with
  | '-' :: _ :: _ => true
  | _ => false

/-- Takes arguments from left to right. Two hyphens alone end the options; a value
that is an argument of its own must not look like an option. -/
def take (given : Given) (arguments : List String) : Except Refusal Given :=
  match arguments with
  | [] => .ok given
  | argument :: rest =>
      if argument = "--" then given.takePlain rest
      else if !startsOption argument then do
        let given ← given.setProgram argument
        given.take rest
      else
        match longOption? argument with
        | none =>
            if argument.toList.take 2 = ['-', 'h'] then .error .helpRequested
            else .error (.unknownOption argument)
        | some (name, attached) =>
            match Flag.ofName? name, Setting.ofName? name with
            | some flag, _ =>
                if attached.isSome then .error (.unexpectedValue name)
                else do
                  let given ← given.setFlag name flag
                  given.take rest
            | none, some setting =>
                match attached, rest with
                | some value, rest => do
                    let given ← given.setValue name setting value
                    given.take rest
                | none, [] => .error (.missingValue name)
                | none, value :: rest =>
                    if startsOption value then .error (.missingValue name)
                    else do
                      let given ← given.setValue name setting value
                      given.take rest
            | none, none =>
                if name = "help" && attached.isNone then .error .helpRequested
                else .error (.unknownOption argument)

end Given

def Options.ofArguments (arguments : List String) : Except Refusal Options := do
  let given ← ({} : Given).take arguments
  match given.program with
  | some program => return { given.options with program }
  | none => throw .missingProgram

end Chip8.CommandLine

import Chip8.CommandLine.Options
import Chip8.Interchange
import Chip8.Log.Journal

/-!
# Headless runs

A program is run for a number of frames with some keys held down, and a report
is printed. All checks are made before the first cycle.
-/

set_option autoImplicit false

namespace Chip8.CommandLine

open Log (Category Clock Journal Level Levels)

variable {σ : Type} [SeededSource σ]

inductive Failure where
  | unknownLevel (text : String)
  | notAnAssignment (text : String)
  | unknownCategory (text : String)
  | logFileNotOpened (path : String)
  | configNotRead (path : String)
  | configMalformed (path : String)
  | programNotRead (path : String)
  | console (failure : Console.Failure)
  | keyNotMapped (character : Char)
  deriving DecidableEq

def Failure.message : Failure → String
  | .unknownLevel text => "Unknown log level: " ++ text
  | .notAnAssignment text => "Expected CATEGORY=LEVEL, got " ++ text
  | .unknownCategory text => "Unknown log category: " ++ text
  | .logFileNotOpened path => "opening log file " ++ path
  | .configNotRead path => "reading config " ++ path
  | .configMalformed path => "parsing config " ++ path
  | .programNotRead path => "reading " ++ path
  | .console failure => failure.message
  | .keyNotMapped character => "'" ++ character.toString ++ "' is not mapped to a CHIP-8 key"

/-! ## Settings -/

def readLevel (text : String) : Except Failure Level :=
  match Level.ofText? text with
  | some level => .ok level
  | none => .error (.unknownLevel text)

/-- The level of one category, from a text such as `timers=debug`. -/
def readAssignment (text : String) : Except Failure (Category × Level) :=
  match Text.splitFirst? '=' text with
  | none => .error (.notAnAssignment text)
  | some (name, level) =>
      match Category.ofText? name with
      | none => .error (.unknownCategory name)
      | some category => (readLevel level).map fun level => (category, level)

/-- The levels of a request. Of several levels for a category the last one counts. -/
def Options.levels (options : Options) : Except Failure Levels := do
  let overall ← readLevel options.logLevel
  let start : Levels := { overall }
  let levels ←
    match options.logCpu with
    | some text => (readLevel text).map (start.set .cpu)
    | none => .ok start
  options.logCategories.foldlM
    (fun levels text => (readAssignment text).map fun (category, level) => levels.set category level)
    levels

def Options.journal (options : Options) (directory : Directory) (clock : Clock) :
    Except Failure Journal := do
  let levels ← options.levels
  let fresh : Journal := { directory, clock }
  let journal := { fresh with levels, rate := options.logRate.getD fresh.rate }
  match options.logFile with
  | none => return journal
  | some path =>
      match journal.openFile path with
      | .ok journal => return journal
      | .error _ => throw (.logFileNotOpened path)

def readConfig (directory : Directory) (path : String) : Except Failure Config :=
  match (directory.read? path).bind String.fromUTF8? with
  | none => .error (.configNotRead path)
  | some text =>
      match Config.ofText? text with
      | none => .error (.configMalformed path)
      | some config => .ok config

def Options.override (options : Options) (config : Config) : Config where
  cyclesPerFrame := options.cyclesPerFrame.getD config.cyclesPerFrame
  unknownOpcode := if options.skipUnknown then .skip else config.unknownOpcode
  seed := options.seed.or config.seed

def Options.settings (options : Options) (directory : Directory) : Except Failure Config := do
  match options.config with
  | some path => return options.override (← readConfig directory path)
  | none => return options.override {}

/-! ## Running -/

structure Session (σ : Type) where
  console : Console σ
  journal : Journal
  beeps : UInt32 := 0
  frame : Frame

def holdKeys (console : Console σ) (journal : Journal) (characters : List Char) :
    Except Failure (Console σ) × Journal :=
  match characters with
  | [] => (.ok console, journal)
  | character :: rest =>
      match Keypad.ofHost? character with
      | none => (.error (.keyNotMapped character), journal)
      | some key =>
          let held := console.setKey key true
          holdKeys held.value (journal.recordAll held.events) rest

def start (console : Console σ) (journal : Journal) (program : Array UInt8) (keys : String) :
    Except Failure (Console σ) × Journal :=
  let mounted := console.mount Console.programMount.id program
  let journal := journal.recordAll mounted.events
  match mounted.value with
  | (.ok _, console) => holdKeys console journal keys.toList
  | (.error failure, _) => (.error (.console failure), journal)

def runFrames (session : Session σ) (count : Nat) : Except Failure (Session σ) × Journal :=
  match count with
  | 0 => (.ok session, session.journal)
  | count + 1 =>
      let stepped := session.console.stepFrame
      let journal := session.journal.recordAll stepped.events
      match stepped.value with
      | (.ok frame, console) =>
          let (beeps, console) := console.takeBeeps
          runFrames { console, journal, beeps := session.beeps + beeps, frame } count
      | (.error failure, _) => (.error (.console failure), journal)

def report (options : Options) (session : Session σ) : Except Failure String := do
  let headline := "Ran " ++ toString session.console.frames.toNat ++ " frames, "
    ++ toString session.beeps.toNat ++ " beeps\n"
  let picture := if options.print then session.frame.text else ""
  let details ←
    if options.debug then
      match session.console.snapshot? with
      | some snapshot => .ok (snapshot.toJson.pretty 0 ++ "\n")
      | none => .error (.console .stackBreach)
    else
      .ok ""
  return headline ++ picture ++ details

structure Outcome where
  result : Except Failure String
  journal : Journal

namespace Outcome

def exitCode (outcome : Outcome) : Nat :=
  match outcome.result with
  | .ok _ => 0
  | .error _ => 1

/-- What is printed on the standard output. -/
def output (outcome : Outcome) : String :=
  match outcome.result with
  | .ok text => text
  | .error _ => ""

/-- What the log sends to the standard output, if that is its file. The log has a writer
of its own, so that this may come before, after or between what is printed. -/
def loggedOutput (outcome : Outcome) : ByteArray :=
  (outcome.journal.directory.content? Directory.outputDevice).getD ByteArray.empty

def errorLines (outcome : Outcome) : List String :=
  match outcome.result with
  | .ok _ => outcome.journal.errorStream.toList
  | .error failure => outcome.journal.errorStream.toList ++ ["Error: " ++ failure.message]

end Outcome

def play (options : Options) (config : Config) (journal : Journal) (program : Array UInt8)
    (unseeded : σ) : Outcome :=
  match start (Console.new config unseeded) journal program options.keys with
  | (.error failure, journal) => { result := .error failure, journal }
  | (.ok console, journal) =>
      match runFrames { console, journal, frame := console.render } options.frames.toNat with
      | (.error failure, journal) => { result := .error failure, journal }
      | (.ok session, journal) => { result := report options session, journal }

/-- Carries out a request. The checks come in this order: levels, log file,
settings, program file, program size, keys. -/
def run (options : Options) (directory : Directory) (clock : Clock) (unseeded : σ) : Outcome :=
  match options.journal directory clock with
  | .error failure => { result := .error failure, journal := { directory, clock } }
  | .ok journal =>
      match options.settings journal.directory with
      | .error failure => { result := .error failure, journal }
      | .ok config =>
          match journal.directory.read? options.program with
          | none => { result := .error (.programNotRead options.program), journal }
          | some bytes => play options config journal bytes.data unseeded

end Chip8.CommandLine

import Chip8.Proofs.HeadlessRun
import Chip8.Proofs.RandomStream
import Mathlib.Data.List.TakeDrop
import Mathlib.Data.List.TakeWhile

/-!
# The checks of a run

A run is a row of checks and then a session that cannot fail. The first check that
fails decides how the run ends, and no cycle is run then. Whatever was told to the log
up to the end stands at the end of the log file.
-/

set_option autoImplicit false

namespace Chip8.CommandLine

open Log (Category Clock Journal Level Levels)

/-! ## Checks in a row -/

structure Check where
  passed : Bool
  failure : Failure

def firstFailure? (checks : List Check) : Option Failure :=
  (checks.find? fun check => !check.passed).map Check.failure

def failure? {α : Type} : Except Failure α → Option Failure
  | .ok _ => none
  | .error failure => some failure

section Stages

variable {α β : Type}

end Stages

/-! ## Levels and log file -/

def levelCheck (text : String) : Check where
  passed := (Level.ofText? text).isSome
  failure := .unknownLevel text

/-- What is asked of a text such as `timers=debug`: an equals sign, the name of a
category before the first one and a level after it. -/
def assignmentChecks (text : String) : List Check :=
  let name := String.ofList (text.toList.takeWhile (· ≠ '='))
  let level := String.ofList (text.toList.dropWhile (· ≠ '=')).tail
  [{ passed := text.toList.contains '=', failure := .notAnAssignment text },
    { passed := (Category.ofText? name).isSome, failure := .unknownCategory name },
    levelCheck level]

def Options.levelChecks (options : Options) : List Check :=
  [levelCheck options.logLevel] ++
    (options.logCpu.toList.map levelCheck ++ options.logCategories.flatMap assignmentChecks)

def Options.logFileChecks (options : Options) (directory : Directory) : List Check :=
  options.logFile.toList.map fun path =>
    { passed := (directory.locate path).isOk, failure := .logFileNotOpened path }

def Options.opened (options : Options) (directory : Directory) : Directory :=
  match options.logFile.map directory.locate with
  | some (.ok name) => directory.ensure name
  | _ => directory

def configChecks (directory : Directory) (path : String) : List Check :=
  let text? := (directory.read? path).bind String.fromUTF8?
  [{ passed := text?.isSome, failure := .configNotRead path },
    { passed := (text?.bind Config.ofText?).isSome, failure := .configMalformed path }]

def readCheck (directory : Directory) (path : String) : Check where
  passed := (directory.read? path).isSome
  failure := .programNotRead path

def sizeCheck (size : Nat) : Check where
  passed := size ≤ maxProgramSize
  failure := .console (.load (.tooLarge size maxProgramSize))

def keyCheck (character : Char) : Check where
  passed := (Keypad.ofHost? character).isSome
  failure := .keyNotMapped character

variable {σ : Type}

variable [SeededSource σ]

/-- The size counts only for a program that can be read, and the keys come last. -/
def Options.programChecks (options : Options) (directory : Directory) : List Check :=
  [readCheck directory options.program] ++
    ((directory.read? options.program).toList.map (fun bytes => sizeCheck bytes.size) ++
      options.keys.toList.map keyCheck)

/-- All checks of a run, in the order in which they are made. -/
def Options.checks (options : Options) (directory : Directory) : List Check :=
  options.levelChecks ++ options.logFileChecks directory ++
    (options.config.toList.flatMap (configChecks (options.opened directory)) ++
      options.programChecks (options.opened directory))

/-! ## What is asked of the console -/

/-- The keys of host characters are held down, up to the first that stands for none. -/
def pressings : List Char → List Request
  | [] => []
  | character :: rest =>
      match Keypad.ofHost? character with
      | none => []
      | some key => .setKey key true :: pressings rest

def startRequests (program : Array UInt8) (keys : String) : List Request :=
  .mount Console.programMount.id program ::
    if program.size ≤ maxProgramSize then pressings keys.toList else []

def frameRequests (count : Nat) : List Request :=
  (List.replicate count [Request.stepFrame, .takeBeeps]).flatten

def Options.requests (options : Options) (program : Array UInt8) : List Request :=
  startRequests program options.keys ++
    if firstFailure? (sizeCheck program.size :: options.keys.toList.map keyCheck) = none then
      frameRequests options.frames.toNat
    else []

/-- The settings and the program of a run, unless it ends before it has both. -/
def Options.prepared? (options : Options) (directory : Directory) : Option (Config × ByteArray) :=
  let opened := options.opened directory
  match firstFailure? (options.levelChecks ++ options.logFileChecks directory),
    options.settings opened, opened.read? options.program with
  | none, .ok config, some bytes => some (config, bytes)
  | _, _, _ => none

/-- The console of a run and all that is asked of it. -/
def Options.asks? (options : Options) (directory : Directory) (unseeded : σ) :
    Option (Console σ × List Request) :=
  (options.prepared? directory).map fun (config, bytes) =>
    (Console.new config unseeded, options.requests bytes.data)

/-- All that a run has to tell, whether or not it is written down. -/
def Options.told (options : Options) (directory : Directory) (unseeded : σ) : List Event :=
  (options.asks? directory unseeded).elim [] fun (console, requests) =>
    (console.session requests).events

/-- The log lines of a run that are sent to the standard output, which is only where they
go if that is the log file. -/
def Options.loggedOutput (options : Options) (directory : Directory) (clock : Clock)
    (unseeded : σ) : ByteArray :=
  match options.journal directory clock with
  | .error _ => ByteArray.empty
  | .ok journal =>
      if journal.file = some Directory.outputDevice then
        Journal.withLines ByteArray.empty (directory.kept Directory.outputDevice
          (journal.linesFor (options.told directory unseeded)))
      else ByteArray.empty

end Chip8.CommandLine

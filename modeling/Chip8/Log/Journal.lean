import Chip8.Directory
import Chip8.Event
import Chip8.Log.Levels
import Chip8.Log.Limiter

/-!
# The journal

Where log lines are written: to the error stream, or to the end of a file. Every
line has exactly one destination, that of the moment at which it is written.
-/

set_option autoImplicit false

namespace Chip8.Log

/-- The settings of a log, what its limits remember, and all that it has written. -/
structure Journal where
  levels : Levels := {}
  rate : Nat := 60
  windows : PerCategory Window := .const {}
  clock : Clock := fun _ => 0
  /-- How often the clock was read. -/
  readings : Nat := 0
  file : Option String := none
  /-- Lines are meant for that file. -/
  toFile : Bool := file.isSome
  errorStream : Array String := #[]
  directory : Directory

namespace Journal

/-- The name of the file that a line goes to now. Unless lines are meant for a file and
one is open, they go to the error stream. -/
def destination? (journal : Journal) : Option String :=
  if journal.toFile then journal.file else none

def write (journal : Journal) (line : String) : Journal :=
  match journal.destination? with
  | some name =>
      { journal with directory := journal.directory.append name (line ++ "\n").toUTF8 }
  | none => { journal with errorStream := journal.errorStream.push line }

def reportLine (category : Category) (count : Nat) : String :=
  "[" ++ category.name ++ "] rate limit exceeded, " ++ toString count ++ " message(s) dropped"

def writeReport (journal : Journal) (category : Category) (report : Option Nat) : Journal :=
  match report with
  | some count => journal.write (reportLine category count)
  | none => journal

/-- Offers a message and tells whether it was written. The text is only worked out
in that case. A message that the levels keep out touches neither limits nor clock. -/
def offer (journal : Journal) (category : Category) (level : Level) (text : Thunk String) :
    Bool × Journal :=
  if journal.levels.allows category level then
    let now := journal.clock journal.readings
    let (verdict, window) := (journal.windows.get category).judge journal.rate now
    let journal := { journal with
      windows := journal.windows.set category window
      readings := journal.readings + 1 }
    let journal := journal.writeReport category verdict.report
    if verdict.admitted then (true, journal.write text.get) else (false, journal)
  else
    (false, journal)

def record (journal : Journal) (event : Event) : Journal :=
  (journal.offer event.category event.level event.line).2

def recordAll (journal : Journal) (events : List Event) : Journal := events.foldl record journal

/-- Sends further lines to the end of the file at a path, or fails and changes
nothing. -/
def openFile (journal : Journal) (path : String) : Except PathFault Journal :=
  (journal.directory.locate path).map fun name =>
    { journal with
      file := some name
      toFile := true
      directory := journal.directory.ensure name }

/-- Sends further lines to the error stream. -/
def closeFile (journal : Journal) : Journal := { journal with file := none, toFile := false }

/-- Shows nothing any more. Limits and destination stay. -/
def silence (journal : Journal) : Journal := { journal with levels := {} }

end Journal
end Chip8.Log

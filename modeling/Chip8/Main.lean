import Chip8.CommandLine.Arguments
import Chip8.CommandLine.Run
import Chip8.Random.Keystream

/-!
# The program

Reads the files that a command line names, carries it out and writes what it
leaves behind.
-/

set_option autoImplicit false

namespace Chip8.Main

open CommandLine (Options)

def readFiles (paths : List String) : IO (List (String × ByteArray)) :=
  paths.filterMapM fun (path : String) => do
    try
      return some (path, ← IO.FS.readBinFile path)
    catch _ =>
      return none

def openLogFile (options : Options) : IO (Option IO.FS.Handle) := do
  match options.levels, options.logFile with
  | .ok _, some path =>
      try
        return some (← IO.FS.Handle.mk path .append)
      catch _ =>
        return none
  | _, _ => return none

def freshSource : IO Keystream := do
  let bytes ← IO.getRandomBytes 8
  return Keystream.ofSeed (bytes.toList.foldl (fun seed byte => seed * 256 + byte.toUInt64) 0)

/-- Carries out a request. To its log all of it happens at one moment. -/
def runOptions (options : Options) : IO UInt32 := do
  let logFile ← openLogFile options
  let files ← readFiles (options.program :: options.config.toList)
  let directory : Directory := {
    files
    layout := fun _ path =>
      if options.logFile == some path && logFile.isNone then .error .missing else .ok path }
  let now ← IO.monoNanosNow
  let outcome := CommandLine.run options directory (fun _ => now) (← freshSource)
  if let (some handle, some path) := (logFile, options.logFile) then
    let before := (directory.content? path).getD ByteArray.empty
    let after := (outcome.journal.directory.content? path).getD ByteArray.empty
    try
      handle.write (after.extract before.size after.size)
      handle.flush
    catch _ =>
      pure ()
  for line in outcome.errorLines do
    IO.eprintln line
  IO.print outcome.output
  return UInt32.ofNat outcome.exitCode

end Chip8.Main

def main (arguments : List String) : IO UInt32 := do
  match Chip8.CommandLine.Options.ofArguments arguments with
  | .ok options => Chip8.Main.runOptions options
  | .error .helpRequested =>
      IO.println Chip8.CommandLine.Refusal.helpRequested.message
      return 0
  | .error refusal =>
      IO.eprintln refusal.message
      return 2

import Chip8.Frame
import Chip8.Machine.Loading
import Chip8.Processor

/-!
# The console

A processor as a host uses it: a program is mounted, frames of a fixed number of
cycles are run, keys are passed in and pictures are taken out.
-/

set_option autoImplicit false

namespace Chip8

structure Console (σ : Type) where
  processor : Processor σ
  config : Config
  program : Option (Array UInt8) := none
  frames : UInt64 := 0

structure MountPoint where
  id : String
  name : String
  extensions : List String
  required : Bool

namespace Console

inductive Failure where
  | invalidMountPoint (id : String)
  | load (error : LoadError)
  | noProgram
  /-- A return address was to be taken from beyond the stack. -/
  | stackBreach
  deriving DecidableEq

def Failure.message : Failure → String
  | .invalidMountPoint id => "Invalid mount point: " ++ id
  | .load error => "Load error: " ++ error.message
  | .noProgram => "No program loaded"
  | .stackBreach => "Return address beyond the stack"

def programMount : MountPoint where
  id := "Program"
  name := "Program ROM"
  extensions := ["ch8", "c8", "bin"]
  required := true

def mountPoints : List MountPoint := [programMount]

variable {σ : Type} [SeededSource σ]

/-- A console without a program. The given source counts only for settings without
a seed. -/
def new (config : Config) (unseeded : σ) : Console σ where
  processor := Processor.new config unseeded
  config

def machine (console : Console σ) : Machine := console.processor.machine

def withMachine (console : Console σ) (machine : Machine) : Console σ :=
  { console with processor := { console.processor with machine } }

/-! ## Keys, counts and picture -/

/-- Holds a key down or lets it go. Only a change is logged. -/
def setKey (console : Console σ) (key : UInt8) (pressed : Bool) : Logged (Console σ) := do
  let machine := console.machine
  Logged.emitIf (machine.keypad.changes key pressed) (.keyLatched key pressed)
  return console.withMachine { machine with keypad := machine.keypad.set key pressed }

/-- The screen may differ from the last frame. -/
def needsRedraw (console : Console σ) : Bool := console.machine.drawFlag

def takeBeeps (console : Console σ) : UInt32 × Console σ :=
  let (beeps, processor) := console.processor.takeBeeps
  (beeps, { console with processor })

/-- The screen as a picture, row by row, where any byte but zero is lit. -/
def render (console : Console σ) : Frame where
  width := UInt32.ofNat screenWidth
  height := UInt32.ofNat screenHeight
  pixels := ((List.range screenHeight).flatMap fun y => (List.range screenWidth).map fun x =>
    if console.machine.pixel x y = 0 then darkColor else litColor).toArray

omit [SeededSource σ] in
theorem render_congr {console other : Console σ} (same : console.machine = other.machine) :
    console.render = other.render := by
  rw [render, render, same]

/-! ## Running -/

def stepCycle (console : Console σ) : Logged (Option CycleReport × Console σ) := do
  let (report, processor) ← console.processor.cycle
  return (report, { console with processor })

def stepFrame (console : Console σ) : Logged (Except Failure Frame × Console σ) := do
  if console.program.isNone then
    return (.error .noProgram, console)
  else
    let (finished, processor) ← console.processor.run console.config.cyclesPerFrame.toNat
    let console := { console with processor }
    if finished then
      let frame := console.render
      let shown := console.withMachine { console.machine with drawFlag := false }
      return (.ok frame, { shown with frames := console.frames + 1 })
    else
      return (.error .stackBreach, console)

/-! ## Mounting -/

def reload (console : Console σ) : Logged (Console σ) := do
  match console.program with
  | none => return console.withMachine console.machine.reset
  | some program =>
      match ← console.machine.load program with
      | .ok machine => return console.withMachine machine
      | .error error => do
          Logged.emit (.reloadFailed error.message)
          return console

def reset (console : Console σ) : Logged (Console σ) := do
  let processor ← console.processor.reset
  let reloaded ← ({ console with processor }).reload
  return { reloaded with frames := 0 }

/-- Puts in a program and starts it. A request that fails changes nothing. -/
def mount (console : Console σ) (id : String) (program : Array UInt8) :
    Logged (Except Failure Unit × Console σ) := do
  if id = programMount.id then
    match ← console.machine.load program with
    | .ok machine =>
        let processor := ({ console.processor with machine }).restart
        return (.ok (), { console with processor, program := some program, frames := 0 })
    | .error error => return (.error (.load error), console)
  else
    return (.error (.invalidMountPoint id), console)

def unmount (console : Console σ) (id : String) : Logged (Except Failure Unit × Console σ) := do
  if id = programMount.id then
    let emptied ← ({ console with program := none }).reset
    return (.ok (), emptied)
  else
    return (.error (.invalidMountPoint id), console)

def isMounted (console : Console σ) (id : String) : Bool :=
  id == programMount.id && console.program.isSome

end Console
end Chip8

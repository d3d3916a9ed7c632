import Chip8.Proofs.Run
import Chip8.Snapshot

/-!
# Sessions of a host

Everything a host can ask of a console, in any order and any number of times. A
request may also be a poke, by which the host replaces the machine by hand; most
laws leave pokes out and say so.
-/

set_option autoImplicit false

namespace Chip8

inductive Request where
  | mount (id : String) (program : Array UInt8)
  | unmount (id : String)
  | reset
  | stepFrame
  | stepCycle
  | setKey (key : UInt8) (pressed : Bool)
  | takeBeeps
  | render
  | snapshot
  | needsRedraw
  | frameCount
  | isMounted (id : String)
  | mountPoints
  | settings
  | machine
  | poke (change : Machine → Machine)

def Request.IsPoke : Request → Prop
  | .poke _ => True
  | _ => False

inductive Answer where
  | done
  | mounting (result : Except Console.Failure Unit)
  | frame (result : Except Console.Failure Frame)
  | report (report : Option CycleReport)
  | picture (frame : Frame)
  | snapshot (snapshot : Option Snapshot)
  | beeps (count : UInt32)
  | frames (count : UInt64)
  | flag (holds : Bool)
  | mountPoints (places : List MountPoint)
  | settings (config : Config)
  | machine (machine : Machine)

/-- The answers that stand for an access beyond the stack, after which there is
nothing to return. -/
def Answer.IsBreach : Answer → Prop
  | .frame (.error .stackBreach) => True
  | .report none => True
  | .snapshot none => True
  | _ => False

namespace Console

variable {σ : Type} [SeededSource σ]

def perform (console : Console σ) (request : Request) : Logged (Answer × Console σ) :=
  match request with
  | .mount id program => do
      let (result, console) ← console.mount id program
      return (.mounting result, console)
  | .unmount id => do
      let (result, console) ← console.unmount id
      return (.mounting result, console)
  | .reset => do
      let console ← console.reset
      return (.done, console)
  | .stepFrame => do
      let (result, console) ← console.stepFrame
      return (.frame result, console)
  | .stepCycle => do
      let (report, console) ← console.stepCycle
      return (.report report, console)
  | .setKey key pressed => do
      let console ← console.setKey key pressed
      return (.done, console)
  | .takeBeeps =>
      let (beeps, console) := console.takeBeeps
      return (.beeps beeps, console)
  | .render => return (.picture console.render, console)
  | .snapshot => return (.snapshot console.snapshot?, console)
  | .needsRedraw => return (.flag console.needsRedraw, console)
  | .frameCount => return (.frames console.frames, console)
  | .isMounted id => return (.flag (console.isMounted id), console)
  | .mountPoints => return (.mountPoints mountPoints, console)
  | .settings => return (.settings console.config, console)
  | .machine => return (.machine console.machine, console)
  | .poke change => return (.done, console.withMachine (change console.machine))

def session (console : Console σ) (requests : List Request) :
    Logged (List (Request × Answer) × Console σ) :=
  match requests with
  | [] => return ([], console)
  | request :: rest => do
      let (answer, console) ← console.perform request
      let (exchanges, console) ← console.session rest
      return ((request, answer) :: exchanges, console)

theorem value_session_cons (console : Console σ) (request : Request) (rest : List Request) :
    (console.session (request :: rest)).value =
      let first := (console.perform request).value
      let later := (first.2.session rest).value
      ((request, first.1) :: later.1, later.2) := rfl

theorem events_session_cons (console : Console σ) (request : Request) (rest : List Request) :
    (console.session (request :: rest)).events =
      (console.perform request).events ++ ((console.perform request).value.2.session rest).events := by
  simp only [session, Logged.events_bind, Logged.events_pure, List.append_nil]

/-- Whatever every request keeps holds after a session, and whatever every request
guarantees of its answer and its events holds of all answers and events. -/
theorem session_keeps (invariant : Console σ → Prop) (allowed : Request → Prop)
    (fine : Answer → Prop) (quiet : Event → Prop)
    (kept : ∀ (console : Console σ) request, allowed request → invariant console →
      invariant (console.perform request).value.2 ∧ fine (console.perform request).value.1 ∧
        ∀ event ∈ (console.perform request).events, quiet event)
    (requests : List Request) (all : ∀ request ∈ requests, allowed request)
    (console : Console σ) (start : invariant console) :
    invariant (console.session requests).value.2 ∧
      (∀ exchange ∈ (console.session requests).value.1, fine exchange.2) ∧
      ∀ event ∈ (console.session requests).events, quiet event := by
  induction requests generalizing console with
  | nil => exact ⟨start, by simp [session], by simp [session]⟩
  | cons request rest ih =>
      obtain ⟨first, remaining⟩ := List.forall_mem_cons.mp all
      obtain ⟨next, answered, told⟩ := kept console request first start
      obtain ⟨final, exchanges, events⟩ := ih remaining _ next
      refine ⟨final, ?_, ?_⟩
      · intro exchange member
        rcases List.mem_cons.mp member with rfl | later
        · exact answered
        · exact exchanges exchange later
      · intro event member
        rw [events_session_cons, List.mem_append] at member
        rcases member with first | later
        · exact told event first
        · exact events event later

/-! ## Starting over -/

def startMachine (program : Option (Array UInt8)) : Machine :=
  match program with
  | none => Machine.powerOn
  | some program => Machine.withProgram program

/-- A console that starts over. Settings stay, and so does the source of a console
without a seed; all else depends on the program alone. -/
def startedOver (console : Console σ) (program : Option (Array UInt8)) : Console σ :=
  { processor := ({ console.processor with machine := startMachine program }).restart
    config := console.config
    program }

variable (console : Console σ)

theorem value_mount (id : String) (program : Array UInt8) :
    (console.mount id program).value =
      if id = programMount.id then
        if program.size ≤ maxProgramSize then (.ok (), console.startedOver (some program))
        else (.error (.load (.tooLarge program.size maxProgramSize)), console)
      else (.error (.invalidMountPoint id), console) := by
  by_cases place : id = programMount.id
  · by_cases fits : program.size ≤ maxProgramSize
    · simp only [mount, place, fits, ↓reduceIte, Logged.value_bind, Machine.value_load]
      rfl
    · simp only [mount, place, fits, ↓reduceIte, Logged.value_bind, Machine.value_load]
      rfl
  · simp only [mount, place, ↓reduceIte, Logged.value_pure]

omit [SeededSource σ] in
theorem value_reload
    (fits : ∀ program, console.program = some program → program.size ≤ maxProgramSize) :
    console.reload.value = console.withMachine (startMachine console.program) := by
  cases stored : console.program with
  | none =>
      simp only [reload, stored, Logged.value_pure, Machine.reset_eq_powerOn]
      rfl
  | some program =>
      have loads := fits program stored
      simp only [reload, stored, Logged.value_bind, Machine.value_load, loads, ↓reduceIte]
      rfl

omit [SeededSource σ] in
theorem value_reload_of_tooLarge {program : Array UInt8} (stored : console.program = some program)
    (large : ¬ program.size ≤ maxProgramSize) : console.reload.value = console := by
  simp only [reload, stored, Logged.value_bind, Machine.value_load, large, ↓reduceIte,
    Logged.value_pure]

/-- Only programs that can be loaded again are stored, so a reset always succeeds. -/
theorem value_reset
    (fits : ∀ program, console.program = some program → program.size ≤ maxProgramSize) :
    console.reset.value = console.startedOver console.program := by
  have reloaded := ({ console with processor := console.processor.reset.value }).value_reload fits
  simp only [reset, Logged.value_bind, Logged.value_pure, reloaded, startedOver]
  -- What the machine is does not matter any more, and unfolding it would be costly.
  generalize startMachine console.program = machine
  rfl

theorem value_unmount (id : String) :
    (console.unmount id).value =
      if id = programMount.id then (.ok (), console.startedOver none)
      else (.error (.invalidMountPoint id), console) := by
  by_cases place : id = programMount.id
  · have emptied := ({ console with program := none }).value_reset (by simp)
    simp only [unmount, place, ↓reduceIte, Logged.value_bind, Logged.value_pure, emptied]
    rfl
  · simp only [unmount, place, ↓reduceIte, Logged.value_pure]

/-! ## What is told to the log -/

theorem events_mount (id : String) (program : Array UInt8) :
    (console.mount id program).events =
      if id = programMount.id then (console.machine.load program).events else [] := by
  unfold mount
  split
  · rw [Logged.events_bind]
    split <;> simp
  · rfl

theorem events_reset
    (fits : ∀ program, console.program = some program → program.size ≤ maxProgramSize) :
    console.reset.events =
      .processorReset ::
        (console.program.map fun program => Event.programLoaded programStart program.size).toList := by
  cases stored : console.program with
  | none => simp [reset, reload, Processor.reset, stored]
  | some program =>
      have loads := fits program stored
      simp [reset, reload, Processor.reset, stored, Machine.value_load, Machine.events_load, loads]

theorem events_unmount (id : String) :
    (console.unmount id).events = if id = programMount.id then [.processorReset] else [] := by
  by_cases place : id = programMount.id
  · have emptied := ({ console with program := none }).events_reset (by simp)
    simp [unmount, place, emptied]
  · simp [unmount, place]

theorem events_stepFrame :
    console.stepFrame.events =
      if console.program.isNone then []
      else (console.processor.run console.config.cyclesPerFrame.toNat).events := by
  unfold stepFrame
  split
  · rfl
  · rw [Logged.events_bind]
    split
    split <;> rw [Logged.events_pure, List.append_nil]

/-! ## Frames -/

theorem value_stepFrame :
    console.stepFrame.value =
      if console.program.isNone then (.error .noProgram, console)
      else
        let ran := (console.processor.run console.config.cyclesPerFrame.toNat).value
        let later : Console σ := { console with processor := ran.2 }
        if ran.1 then
          (.ok later.render,
            { later.withMachine { later.machine with drawFlag := false } with
              frames := console.frames + 1 })
        else (.error .stackBreach, later) := by
  simp only [stepFrame]
  split
  · rfl
  · simp only [Logged.value_bind]
    split <;> rfl

/-! ## One request -/

variable {console} in
/-- What a request makes of a console that can load its program again. -/
theorem perform_cases {motive : Console σ → Prop} {request : Request}
    (fits : ∀ program, console.program = some program → program.size ≤ maxProgramSize)
    (same : motive console)
    (started : ∀ program : Option (Array UInt8),
      (∀ bytes, program = some bytes → bytes.size ≤ maxProgramSize) →
      motive (console.startedOver program))
    (framed : motive console.stepFrame.value.2) (cycled : motive console.stepCycle.value.2)
    (pressed : ∀ keypad, motive (console.withMachine { console.machine with keypad }))
    (counted : motive console.takeBeeps.2)
    (poked : ∀ change, request = .poke change →
      motive (console.withMachine (change console.machine))) :
    motive (console.perform request).value.2 := by
  cases request with
  | mount id program =>
      simp only [perform, Logged.value_bind, Logged.value_pure, value_mount]
      split
      · split
        next small => exact started (some program) (by rintro bytes ⟨⟩; exact small)
        next => exact same
      · exact same
  | unmount id =>
      simp only [perform, Logged.value_bind, Logged.value_pure, value_unmount]
      split
      · exact started none nofun
      · exact same
  | reset =>
      simp only [perform, Logged.value_bind, Logged.value_pure, value_reset console fits]
      exact started console.program fits
  | stepFrame => exact framed
  | stepCycle => exact cycled
  | setKey key down => exact pressed _
  | takeBeeps => exact counted
  | render | snapshot | needsRedraw | frameCount | isMounted | mountPoints | settings | machine =>
      exact same
  | poke change => exact poked change rfl

end Console
end Chip8

import Chip8.CommandLine.Arguments
import Chip8.CommandLine.Run
import Chip8.Proofs.FrameBatching
import Chip8.Proofs.LogSelection
import Chip8.Proofs.Picture
import Chip8.Proofs.StandardOutput
import Chip8.Random.Keystream

/-!
# Headless runs and the single cycle

What a headless run reports is what the single cycle, repeated often enough, makes of
the machine that was just switched on. Frames, pictures, counts that are taken between
frames and the log have no part in it.
-/

set_option autoImplicit false

namespace Chip8

variable {σ : Type}

/-! ## Pictures -/

theorem Frame.pieces_flatten {α : Type} {width : Nat} (positive : 0 < width)
    {rows : List (List α)} (even : ∀ row ∈ rows, row.length = width) :
    pieces width rows.flatten = rows := by
  induction rows with
  | nil => simp [pieces]
  | cons row rest ih =>
      have remaining := ih fun other member => even other (List.mem_cons_of_mem _ member)
      have length := even row List.mem_cons_self
      cases row with
      | nil =>
          rw [List.length_nil] at length
          omega
      | cons first row =>
          have left : width - 1 = row.length := by
            rw [← length, List.length_cons, Nat.add_sub_cancel]
          rw [List.flatten_cons, List.cons_append, pieces, left, List.take_left, List.drop_left,
            remaining]

namespace Machine

def picture (machine : Machine) : String :=
  String.join (List.ofFn fun y : Fin screenHeight =>
    String.ofList ((List.ofFn fun x : Fin screenWidth =>
      if machine.pixel x y = 0 then '.' else '#') ++ ['\n']))

def snapshot (machine : Machine) (frames faults : UInt64) : Snapshot where
  frames
  faults
  pc := machine.pc
  opcode := machine.opcode
  index := machine.index
  sp := machine.sp
  stack := machine.stack.toList.take machine.sp.toNat
  registers := machine.registers
  timers := machine.timers
  keypad := machine.keypad

end Machine

namespace Console

variable (console : Console σ)

theorem text_render : console.render.text = console.machine.picture := by
  have width : console.render.width.toNat = screenWidth := rfl
  have even : ∀ row ∈ List.ofFn fun y : Fin screenHeight => List.ofFn fun x : Fin screenWidth =>
      if console.machine.pixel x y = 0 then darkColor else litColor, row.length = screenWidth := by
    intro row member
    obtain ⟨y, rfl⟩ := List.mem_ofFn.mp member
    exact List.length_ofFn
  rw [Frame.text, width, console.toList_pixels_render, Frame.pieces_flatten (by decide) even,
    List.map_ofFn]
  simp only [Function.comp_def, List.map_ofFn, Frame.pixelChar_color]
  rfl

theorem snapshot?_eq (bound : console.machine.sp.toNat ≤ stackDepth) :
    console.snapshot? =
      some (console.machine.snapshot console.frames console.processor.faults) := by
  have live : console.processor.machine.liveStack? = some _ := if_pos bound
  rw [snapshot?, live]
  rfl

/-! ## Frames whose beeps are taken -/

variable [SeededSource σ]

def drained (console : Console σ) (count : Nat) : Console σ := (console.framed count).takeBeeps.2

theorem drained_add (count more : Nat) :
    (console.drained count).drained more = console.drained (count + more) := by
  have later : (console.drained count).drained more =
      ((console.framed count).framed more).takeBeeps.2 := rfl
  rw [later, framed_add]
  rfl

def tones (count : Nat) : Nat :=
  console.processor.moment.soundEdges console.processor.policy
    (count * console.config.cyclesPerFrame.toNat)

theorem tones_add (count more : Nat) :
    console.tones (count + more) = console.tones count + (console.drained count).tones more := by
  have alike : (console.drained count).processor.moment.shown =
      (console.processor.moment.later console.processor.policy
        (count * console.config.cyclesPerFrame.toNat)).shown := rfl
  have later := Moment.soundEdges_shown console.processor.policy alike
    (more * console.config.cyclesPerFrame.toNat)
  have added := console.processor.moment.soundEdges_add console.processor.policy
    (count * console.config.cyclesPerFrame.toNat) (more * console.config.cyclesPerFrame.toNat)
  rw [← later, ← Nat.add_mul] at added
  exact added

variable {console}

theorem takeBeeps_framed (silent : console.processor.beeps = 0) (count : Nat) :
    (console.framed count).takeBeeps =
      (UInt32.ofNat (console.tones count), console.drained count) := by
  have beeps : (console.framed count).processor.beeps =
      console.processor.beeps + UInt32.ofNat (console.tones count) := rfl
  rw [silent, UInt32.zero_add] at beeps
  rw [← beeps]
  rfl

end Console

/-! ## Programs without random bytes -/

namespace Moment

def under (moment : Moment σ) (source : σ) : Moment σ := { moment with source }

variable [ByteSource σ] {policy : UnknownOpcodePolicy} {moment : Moment σ} {count : Nat}

theorem next_under (quiet : moment.machine.drawsRandom = false) (other : σ) :
    ((moment.under other).cycled policy).report = (moment.cycled policy).report ∧
      (moment.under other).next policy = (moment.next policy).under other := by
  have same : (moment.under other).cycled policy =
      { moment.cycled policy with source := other } :=
    value_cycle_of_quiet policy quiet moment.source other
  refine ⟨?_, ?_⟩
  · rw [same]
  · rw [next, same]
    rfl

/-- While no random byte is taken, any other source does as well. -/
theorem later_under (quiet : ∀ done < count, (moment.later policy done).machine.drawsRandom = false)
    (other : σ) : ∀ done ≤ count,
    (moment.under other).later policy done = (moment.later policy done).under other := by
  intro done within
  induction done with
  | zero => rfl
  | succ done ih =>
      rw [later_add, later_add, ih (Nat.le_of_lt within)]
      exact (next_under (quiet done within) other).2

theorem reports_under
    (quiet : ∀ done < count, (moment.later policy done).machine.drawsRandom = false) (other : σ) :
    (moment.under other).reports policy count = moment.reports policy count := by
  apply List.map_congr_left
  intro done member
  have within := List.mem_range.mp member
  rw [later_under quiet other done (Nat.le_of_lt within)]
  exact (next_under (quiet done within) other).1

end Moment

namespace CommandLine

open Log (Clock Journal)

/-! ## Parts of a run -/

def held (characters : List Char) (keypad : Keypad) : Keypad :=
  (characters.filterMap Keypad.ofHost?).foldl (fun keypad key => keypad.set key true) keypad

theorem holdKeys_eq (console : Console σ) (journal : Journal) (characters : List Char)
    (mapped : ∀ character ∈ characters, (Keypad.ofHost? character).isSome = true) :
    ∃ events, holdKeys console journal characters =
      (.ok (console.withMachine { console.machine with
        keypad := held characters console.machine.keypad }), journal.recordAll events) := by
  induction characters generalizing console journal with
  | nil => exact ⟨[], rfl⟩
  | cons character rest ih =>
      obtain ⟨known, remaining⟩ := List.forall_mem_cons.mp mapped
      obtain ⟨key, found⟩ := Option.isSome_iff_exists.mp known
      let pressed := console.setKey key true
      obtain ⟨events, later⟩ := ih pressed.value (journal.recordAll pressed.events) remaining
      have first : holdKeys console journal (character :: rest) =
          holdKeys pressed.value (journal.recordAll pressed.events) rest := by
        simp only [holdKeys, found, pressed]
      refine ⟨pressed.events ++ events, ?_⟩
      rw [first, later]
      simp only [Journal.recordAll_append, held, List.filterMap_cons, found, List.foldl_cons]
      rfl

variable [SeededSource σ]

/-- The frames of a run come to the console after all of them, and to all of its tones. -/
theorem runFrames_eq (console : Console σ) (journal : Journal) (beeps : UInt32) (count : Nat)
    (mounted : console.program.isSome) (bound : console.machine.sp.toNat ≤ stackDepth)
    (settled : console.drained 0 = console) :
    ∃ events, runFrames { console, journal, beeps, frame := console.render } count =
      (.ok {
        console := console.drained count
        journal := journal.recordAll events
        beeps := beeps + UInt32.ofNat (console.tones count)
        frame := (console.drained count).render }, journal.recordAll events) := by
  induction count generalizing console journal beeps with
  | zero =>
      have none : console.tones 0 = 0 := by
        rw [Console.tones, Nat.zero_mul]
        rfl
      refine ⟨[], ?_⟩
      have unchanged : beeps + UInt32.ofNat (console.tones 0) = beeps := by
        rw [none]
        exact UInt32.add_zero beeps
      rw [settled, unchanged]
      rfl
  | succ count ih =>
      -- The beeps of every frame are taken, so that each frame starts without any.
      have silent : console.processor.beeps = 0 := by
        rw [← settled]
        rfl
      have stepped := Console.value_stepFrame_eq_framed mounted bound
      have taken := Console.takeBeeps_framed silent 1
      have nextBound : (console.drained 1).machine.sp.toNat ≤ stackDepth :=
        Console.framed_bound bound 1
      have first : runFrames { console, journal, beeps, frame := console.render } (count + 1) =
          runFrames {
            console := console.drained 1
            journal := journal.recordAll console.stepFrame.events
            beeps := beeps + UInt32.ofNat (console.tones 1)
            frame := (console.drained 1).render } count := by
        simp only [runFrames, stepped, taken]
        rfl
      obtain ⟨events, later⟩ := ih (console.drained 1)
        (journal.recordAll console.stepFrame.events) (beeps + UInt32.ofNat (console.tones 1))
        mounted nextBound (console.drained_add 1 0)
      refine ⟨console.stepFrame.events ++ events, ?_⟩
      rw [first, later, Console.drained_add, UInt32.add_assoc, ← UInt32.ofNat_add,
        ← Console.tones_add, Nat.add_comm 1, Journal.recordAll_append]

omit [SeededSource σ] in
def ready (config : Config) (program : Array UInt8) (keys : List Char) (source : σ) : Console σ where
  processor := {
    machine := { Machine.withProgram program with keypad := held keys {} }
    source
    seed := config.seed
    policy := config.unknownOpcode }
  config
  program := some program

theorem start_eq (config : Config) (unseeded : σ) (journal : Journal) {program : Array UInt8}
    (fits : program.size ≤ maxProgramSize) {keys : String}
    (mapped : ∀ character ∈ keys.toList, (Keypad.ofHost? character).isSome = true) :
    ∃ events, start (Console.new config unseeded) journal program keys =
      (.ok (ready config program keys.toList (Processor.startSource config.seed unseeded)),
        journal.recordAll (.programLoaded programStart program.size :: events)) := by
  let fresh := (Console.new config unseeded).startedOver (some program)
  let mounted := (Console.new config unseeded).mount Console.programMount.id program
  have value : mounted.value = (.ok (), fresh) := by
    simp only [mounted, fresh, Console.value_mount, fits, ↓reduceIte]
  have told : mounted.events = [.programLoaded programStart program.size] := by
    simp only [mounted, Console.events_mount, Machine.events_load, fits, ↓reduceIte]
  obtain ⟨events, pressed⟩ :=
    holdKeys_eq fresh (journal.recordAll mounted.events) keys.toList mapped
  -- The source is started twice, when the console is made and when the program is put in.
  have source : Processor.startSource config.seed (Processor.startSource config.seed unseeded) =
      Processor.startSource config.seed unseeded := by
    cases config.seed <;> rfl
  have console : fresh.withMachine { fresh.machine with
      keypad := held keys.toList fresh.machine.keypad } =
        ready config program keys.toList (Processor.startSource config.seed unseeded) := by
    rw [← source]
    rfl
  refine ⟨events, ?_⟩
  calc start (Console.new config unseeded) journal program keys
      = holdKeys fresh (journal.recordAll mounted.events) keys.toList := by
        simp only [mounted] at value ⊢
        simp only [start, value]
    _ = _ := by
        rw [pressed, console, told]
        rfl

/-! ## The report -/

/-- What there is to report of a number of cycles from a moment on. -/
def Options.reportOf (options : Options) (policy : UnknownOpcodePolicy)
    (start : Moment σ) (cycles : Nat) : String :=
  let last := (start.later policy cycles).machine
  let frames := options.frames.toNat
  "Ran " ++ toString frames ++ " frames, "
    ++ toString (start.soundEdges policy cycles) ++ " beeps\n"
    ++ (if options.print then last.picture else "")
    ++ (if options.debug then
        (last.snapshot (.ofNat frames) (.ofNat (start.faultCount policy cycles))).toJson.pretty 0
          ++ "\n"
      else "")

theorem reportOf_under (options : Options) (policy : UnknownOpcodePolicy)
    {start : Moment σ} {cycles : Nat}
    (quiet : ∀ done < cycles, (start.later policy done).machine.drawsRandom = false) (other : σ) :
    options.reportOf policy (start.under other) cycles = options.reportOf policy start cycles := by
  have last := Moment.later_under quiet other cycles (Nat.le_refl cycles)
  have reports := Moment.reports_under quiet other
  simp only [Options.reportOf, Moment.soundEdges, Moment.faultCount, last, reports]
  rfl

/-- With a seed, or as long as no random byte is taken, it makes no difference from which
source a run starts. -/
theorem reportOf_startSource (options : Options) (policy : UnknownOpcodePolicy)
    (start : Moment σ) (cycles : Nat) {seed : Option UInt64} (unseeded : σ)
    (sourced : seed.map SeededSource.ofSeed = some start.source ∨
      ∀ done < cycles, (start.later policy done).machine.drawsRandom = false) :
    let there := start.under (Processor.startSource seed unseeded)
    there.soundEdges policy cycles = start.soundEdges policy cycles ∧
      options.reportOf policy there cycles = options.reportOf policy start cycles := by
  intro there
  rcases sourced with seeded | quiet
  · obtain ⟨number, rfl, source⟩ := Option.map_eq_some_iff.mp seeded
    have same : there = start := congrArg start.under source
    rw [same]
    exact ⟨rfl, rfl⟩
  · have reports := Moment.reports_under quiet (Processor.startSource seed unseeded)
    refine ⟨?_, reportOf_under options policy quiet _⟩
    rw [Moment.soundEdges, reports]
    rfl

theorem report_eq (options : Options) (console : Console σ) (journal : Journal)
    (bound : console.machine.sp.toNat ≤ stackDepth) (unframed : console.frames = 0)
    (faultless : console.processor.faults = 0) :
    let last := console.drained options.frames.toNat
    let tones := console.tones options.frames.toNat
    ∃ text, report options {
        console := last
        journal
        beeps := 0 + UInt32.ofNat tones
        frame := last.render } = .ok text ∧
      (tones < UInt32.size → text = options.reportOf console.processor.policy
        console.processor.moment
        (options.frames.toNat * console.config.cyclesPerFrame.toNat)) := by
  intro last tones
  let cycles := options.frames.toNat * console.config.cyclesPerFrame.toNat
  let machine := (console.processor.moment.later console.processor.policy cycles).machine
  let failed := console.processor.moment.faultCount console.processor.policy cycles
  have frames : last.frames = UInt64.ofNat options.frames.toNat := by
    have counted : last.frames = console.frames + UInt64.ofNat options.frames.toNat := rfl
    rw [counted, unframed, UInt64.zero_add]
  have small : options.frames.toNat < UInt64.size :=
    Nat.lt_trans options.frames.toNat_lt (by decide)
  have faults : last.processor.faults = UInt64.ofNat failed := by
    have counted : last.processor.faults = console.processor.faults + UInt64.ofNat failed := rfl
    rw [counted, faultless, UInt64.zero_add]
  have picture : last.render.text = machine.picture := last.text_render
  have snapshot : last.snapshot? =
      some (machine.snapshot (.ofNat options.frames.toNat) (.ofNat failed)) := by
    rw [last.snapshot?_eq (Console.framed_bound bound _), frames, faults]
    rfl
  simp only [report, Options.reportOf, frames, picture, snapshot, UInt32.zero_add,
    UInt64.toNat_ofNat_of_lt' small]
  cases options.debug <;>
  · refine ⟨_, rfl, fun few => ?_⟩
    rw [UInt32.toNat_ofNat_of_lt' few]
    rfl

/-- A run of a program that fits reports what comes of the single cycle. The journal is
told that the program was loaded, and whatever comes after. -/
theorem play_eq (options : Options) (config : Config) (journal : Journal) {program : Array UInt8}
    (fits : program.size ≤ maxProgramSize) (unseeded : σ)
    (mapped : ∀ character ∈ options.keys.toList, (Keypad.ofHost? character).isSome = true) :
    let source := Processor.startSource config.seed unseeded
    let begun := (ready config program options.keys.toList source).processor.moment
    let cycles := options.frames.toNat * config.cyclesPerFrame.toNat
    ∃ text events, play options config journal program unseeded = {
        result := .ok text
        journal := journal.recordAll (.programLoaded programStart program.size :: events) } ∧
      (begun.soundEdges config.unknownOpcode cycles < UInt32.size →
        text = options.reportOf config.unknownOpcode begun cycles) := by
  intro source begun cycles
  let console := ready config program options.keys.toList source
  have bound : console.machine.sp.toNat ≤ stackDepth := Nat.zero_le _
  have settled : console.drained 0 = console := by
    simp only [Console.drained, Console.framed, Nat.zero_mul]
    rfl
  obtain ⟨events, started⟩ := start_eq config unseeded journal fits mapped
  let following := journal.recordAll (.programLoaded programStart program.size :: events)
  obtain ⟨more, ran⟩ := runFrames_eq console following 0 options.frames.toNat rfl bound settled
  obtain ⟨text, reported, exact⟩ :=
    report_eq options console (following.recordAll more) bound rfl rfl
  refine ⟨text, events ++ more, ?_, exact⟩
  have told : following.recordAll more =
      journal.recordAll (.programLoaded programStart program.size :: (events ++ more)) :=
    (journal.recordAll_append (.programLoaded programStart program.size :: events) more).symm
  rw [← told, ← reported, play, started]
  simp only [following, console, source] at ran ⊢
  simp only [ran]

/-! ## Whole runs -/

theorem run_eq_play {options : Options} {directory : Directory} {clock : Clock}
    {journal : Journal} {config : Config} {bytes : ByteArray}
    (opened : options.journal directory clock = .ok journal)
    (configured : options.settings journal.directory = .ok config)
    (found : journal.directory.read? options.program = some bytes) (unseeded : σ) :
    run options directory clock unseeded = play options config journal bytes.data unseeded := by
  simp only [run, opened, configured, found]

/-- A run that passes all checks succeeds. Its report is what the single cycle, so often
as all frames have cycles, makes of the machine that was just switched on, with the
program in place and the keys held down. The source is that of the seed, or any source
if no random byte is taken. The standard output holds the report and nothing besides,
unless it is the log file. Then it gets the log lines too. -/
theorem run_reports_cycles (options : Options) (directory : Directory) (clock : Clock)
    {journal : Journal} {config : Config} {bytes : ByteArray}
    (opened : options.journal directory clock = .ok journal)
    (configured : options.settings journal.directory = .ok config)
    (found : journal.directory.read? options.program = some bytes)
    (fits : bytes.size ≤ maxProgramSize)
    (mapped : ∀ character ∈ options.keys.toList, (Keypad.ofHost? character).isSome = true)
    (unseeded source : σ) :
    let machine := { Machine.withProgram bytes.data with keypad := held options.keys.toList {} }
    let begun : Moment σ := { machine, source }
    let policy := config.unknownOpcode
    let cycles := options.frames.toNat * config.cyclesPerFrame.toNat
    let outcome := run options directory clock unseeded
    let report := options.reportOf policy begun cycles
    (config.seed.map SeededSource.ofSeed = some source ∨
      ∀ done < cycles, (begun.later policy done).machine.drawsRandom = false) →
    begun.soundEdges policy cycles < UInt32.size →
    outcome.exitCode = 0 ∧ outcome.output = report ∧
      begun.faultCount policy cycles < UInt64.size ∧
      (directory.content? Directory.outputDevice = none →
        (journal.file ≠ some Directory.outputDevice →
          ∀ outlet content, outcome.MayLeave outlet content ↔ content = report.toUTF8) ∧
        (journal.file = some Directory.outputDevice →
          ∃ lines, journal.Wrote lines outcome.journal ∧
            outcome.loggedOutput = Journal.withLines ByteArray.empty
              (directory.kept Directory.outputDevice lines))) := by
  intro machine begun policy cycles outcome report sourced few
  -- The run starts with a source of its own, which without a seed may be another one.
  obtain ⟨sameEdges, sameReport⟩ :=
    reportOf_startSource options policy begun cycles unseeded sourced
  obtain ⟨text, events, played, exact⟩ := play_eq options config journal fits unseeded mapped
  have printed : text = report := (exact (sameEdges.trans_lt few)).trans sameReport
  have reported : outcome = {
      result := .ok report
      journal := journal.recordAll (.programLoaded programStart bytes.data.size :: events) } := by
    rw [← printed]
    exact (run_eq_play opened configured found unseeded).trans played
  have countable : cycles < UInt64.size := by
    calc cycles < 2 ^ 32 * 2 ^ 32 :=
          Nat.mul_lt_mul'' options.frames.toNat_lt config.cyclesPerFrame.toNat_lt
      _ = UInt64.size := by decide
  rw [reported]
  refine ⟨rfl, rfl, Nat.lt_of_le_of_lt (begun.faultCount_le policy cycles) countable, fun untouched => ⟨?_, ?_⟩⟩
  · intro apart outlet content
    exact Outcome.mayLeave_iff_of_unlogged
      (loggedOutput_of_apart opened untouched apart _ _) outlet content
  · intro shared
    exact ⟨_, journal.wrote_linesFor _, loggedOutput_of_shared opened untouched shared _ _⟩

/-- Two frames of a program that draws a random glyph, with two keys held down and the
log in a file. -/
theorem run_reports_cycles_of_glyph :
    let program : Array UInt8 := #[0xC0, 0x0F, 0xF0, 0x29, 0xD1, 0x15, 0x12, 0x06]
    let directory : Directory := {
      files := [("glyph.ch8", ⟨program⟩)]
      layout := fun _ path => .ok path }
    let options : Options := {
      program := "glyph.ch8", frames := 2, cyclesPerFrame := some 5, seed := some 7, keys := "1Q"
      logLevel := "info", logFile := some "run.log", print := true, debug := true }
    let config : Config := { cyclesPerFrame := 5, seed := some 7 }
    let clock : Clock := fun reading => 1000 * reading
    let journal : Journal := {
      levels := { overall := .info }
      clock
      file := some "run.log"
      directory := directory.ensure "run.log" }
    let begun : Moment Keystream := {
      machine := { Machine.withProgram program with keypad := held options.keys.toList {} }
      source := Keystream.ofSeed 7 }
    let outcome := run options directory clock (Keystream.ofSeed 0)
    options.journal directory clock = .ok journal ∧
      options.settings journal.directory = .ok config ∧
      journal.directory.read? options.program = some ⟨program⟩ ∧
      program.size ≤ maxProgramSize ∧
      (∀ character ∈ options.keys.toList, (Keypad.ofHost? character).isSome = true) ∧
      begun.soundEdges .stall 10 < UInt32.size ∧
      directory.content? Directory.outputDevice = none ∧
      journal.file ≠ some Directory.outputDevice ∧ outcome.exitCode = 0 ∧
      ∀ outlet content, outcome.MayLeave outlet content ↔
        content = (options.reportOf .stall begun 10).toUTF8 := by
  intro program directory options config clock journal begun outcome
  have opened : options.journal directory clock = .ok journal := by
    simp only [options, directory, journal]
    rfl
  have configured : options.settings journal.directory = .ok config := by rfl
  have found : journal.directory.read? options.program = some ⟨program⟩ := by rfl
  have fits : program.size ≤ maxProgramSize := by decide
  have typed : options.keys.toList = ['1', 'Q'] := String.toList_ofList
  have mapped : ∀ character ∈ options.keys.toList, (Keypad.ofHost? character).isSome = true := by
    rw [typed, List.forall_mem_cons, List.forall_mem_singleton]
    exact ⟨rfl, rfl⟩
  have few : begun.soundEdges .stall 10 < UInt32.size :=
    Nat.lt_of_le_of_lt (begun.soundEdges_le _ _) (by decide)
  have untouched : directory.content? Directory.outputDevice = none := by rfl
  have apart : journal.file ≠ some Directory.outputDevice := by decide
  obtain ⟨succeeded, -, -, left⟩ := run_reports_cycles options directory clock opened configured
    found fits mapped (Keystream.ofSeed 0) (Keystream.ofSeed 7) (.inl rfl) few
  exact ⟨opened, configured, found, fits, mapped, few, untouched, apart, succeeded,
    (left untouched).1 apart⟩

theorem linesFor_ne_nil {journal : Journal} {first : Event}
    (shown : first.allowedBy journal.levels = true) (room : journal.HasRoom [first])
    (events : List Event) : journal.linesFor (first :: events) ≠ [] := by
  have allowed : journal.levels.allows first.category first.level = true := shown
  have entries : journal.entriesFor first = [.message first.category first.line] := by
    rw [Journal.entriesFor, if_pos allowed, room.judged.1]
    rfl
  rw [Journal.linesFor, entries]
  exact List.cons_ne_nil _ _

/-- A run whose log file is the standard output does not leave its report alone there. -/
theorem log_shares_standard_output :
    let program : Array UInt8 := #[0x70, 0x01, 0x12, 0x00]
    let directory : Directory := {
      files := [("g.ch8", ⟨program⟩)]
      layout := fun _ path => .ok path }
    let options : Options := {
      program := "g.ch8", frames := 60, cyclesPerFrame := some 50000, seed := some 7
      logLevel := "info", logFile := some "/dev/stdout" }
    let config : Config := { cyclesPerFrame := 50000, seed := some 7 }
    let clock : Clock := fun reading => 1000 * reading
    let journal : Journal := {
      levels := { overall := .info }
      clock
      file := some Directory.outputDevice
      directory := directory.ensure Directory.outputDevice }
    let begun : Moment Keystream := {
      machine := { Machine.withProgram program with keypad := held [] {} }
      source := Keystream.ofSeed 7 }
    let cycles := 60 * 50000
    let outcome := run options directory clock (Keystream.ofSeed 0)
    Options.ofArguments ["g.ch8", "--seed", "7", "--cycles-per-frame", "50000",
        "--log-level", "info", "--log-file", "/dev/stdout"] = .ok options ∧
      options.journal directory clock = .ok journal ∧
      options.settings journal.directory = .ok config ∧
      journal.directory.read? options.program = some ⟨program⟩ ∧
      program.size ≤ maxProgramSize ∧ options.keys = "" ∧
      directory.content? Directory.outputDevice = none ∧
      begun.soundEdges config.unknownOpcode cycles < UInt32.size ∧
      (∃ content, outcome.MayLeave .stream content) ∧
      ∀ content, outcome.MayLeave .stream content →
        content ≠ (options.reportOf config.unknownOpcode begun cycles).toUTF8 := by
  intro program directory options config clock journal begun cycles outcome
  have accepted : Options.ofArguments ["g.ch8", "--seed", "7", "--cycles-per-frame", "50000",
      "--log-level", "info", "--log-file", "/dev/stdout"] = .ok options := by
    rfl
  have opened : options.journal directory clock = .ok journal := by
    simp only [options, directory, journal]
    rfl
  have configured : options.settings journal.directory = .ok config := by rfl
  have found : journal.directory.read? options.program = some ⟨program⟩ := by rfl
  have fits : program.size ≤ maxProgramSize := by decide
  have untouched : directory.content? Directory.outputDevice = none := by rfl
  have few : begun.soundEdges config.unknownOpcode cycles < UInt32.size :=
    Nat.lt_of_le_of_lt (begun.soundEdges_le _ _) (by decide)
  have untyped : options.keys.toList = [] := rfl
  have mapped : ∀ character ∈ options.keys.toList, (Keypad.ofHost? character).isSome = true := by
    intro character member
    rw [untyped] at member
    exact absurd member List.not_mem_nil
  have room : journal.HasRoom [.programLoaded programStart program.size] := by
    intro category
    cases category <;> decide
  obtain ⟨text, events, played, reported⟩ :=
    play_eq options config journal fits (Keystream.ofSeed 0) mapped
  have ended : outcome = _ := (run_eq_play opened configured found _).trans played
  have logged := loggedOutput_of_shared opened untouched rfl
    (.programLoaded programStart program.size :: events) (.ok text)
  have kept : ∀ lines, directory.kept Directory.outputDevice lines = lines := fun _ => rfl
  rw [kept] at logged
  have line := linesFor_ne_nil (by decide) room events
  refine ⟨accepted, opened, configured, found, fits, rfl, untouched, few,
    outcome.exists_mayLeave .stream, ?_⟩
  intro content left alone
  have sizes := Outcome.size_of_mayLeave_stream left
  have filled : 0 < outcome.loggedOutput.size := by
    rw [ended, logged]
    exact Journal.withLines_pos _ line
  have printed : outcome.output = options.reportOf config.unknownOpcode begun cycles := by
    rw [ended]
    exact reported few
  rw [printed, alone] at sizes
  omega

end CommandLine
end Chip8

import Chip8.Proofs.Session
import Chip8.Random.Keystream

/-!
# What holds in every session

The stack pointer, the index register, the screen and the stored program stay
within their bounds, whatever program runs and whatever its host asks for. So no
access beyond the stack is ever met, and a stored program can always be loaded
again. Memory, registers and screen are indexed by numbers that carry their bound.
-/

set_option autoImplicit false

namespace Chip8

/-! ## Screens of zeros and ones -/

def Screen.Binary (screen : Screen) : Prop :=
  ∀ place, screen.byteAt place = 0 ∨ screen.byteAt place = 1

private theorem Screen.byteAt_eq (screen : Screen) (place : Fin (screenWidth * screenHeight)) :
    screen.byteAt place = screen[place.val] := rfl

theorem Screen.byteAt_put (screen : Screen) (place other : Fin (screenWidth * screenHeight))
    (value : UInt8) :
    (screen.put place value).byteAt other =
      if other = place then value else screen.byteAt other := by
  by_cases same : other = place
  · subst same
    simp [byteAt_eq, put]
  · have differ : ¬ place.val = other.val := fun equal => same (Fin.ext equal.symm)
    simp [byteAt_eq, put, same, differ]

@[simp]
theorem Screen.byteAt_blank (place : Fin (screenWidth * screenHeight)) :
    Screen.blank.byteAt place = 0 := by
  simp [byteAt_eq, blank]

theorem Screen.binary_blank : Screen.blank.Binary := fun place => .inl (byteAt_blank place)

theorem Canvas.binary_invert {canvas : Canvas} (binary : canvas.screen.Binary) (x y : Nat) :
    (canvas.invert x y).screen.Binary := by
  intro other
  simp only [invert, Screen.byteAt_put]
  split
  · rcases binary (Screen.position x y) with dark | lit
    · exact .inr (by rw [dark]; rfl)
    · exact .inl (by rw [lit]; rfl)
  · exact binary other

theorem Canvas.binary_drawRow {canvas : Canvas} (binary : canvas.screen.Binary) (bits : UInt8)
    (x y : Nat) : (canvas.drawRow bits x y).screen.Binary := by
  unfold drawRow
  induction List.range 8 generalizing canvas with
  | nil => exact binary
  | cons column rest ih =>
      rw [List.foldl_cons]
      apply ih
      split
      · exact binary_invert binary _ _
      · exact binary

theorem Canvas.binary_drawRows {canvas : Canvas} (binary : canvas.screen.Binary)
    (rows : List UInt8) (x y : Nat) : (canvas.drawRows rows x y).screen.Binary := by
  induction rows generalizing canvas y with
  | nil => exact binary
  | cons bits rest ih => exact ih (binary_drawRow binary bits x y) (y + 1)

/-! ## Machines -/

structure Machine.Sound (machine : Machine) : Prop where
  sp_le : machine.sp.toNat ≤ stackDepth
  index_le : machine.index.toNat ≤ 0xFFF
  binary : machine.screen.Binary

namespace Machine

theorem sound_powerOn : powerOn.Sound where
  sp_le := Nat.zero_le _
  index_le := Nat.zero_le _
  binary := Screen.binary_blank

theorem sound_withProgram (program : Array UInt8) : (withProgram program).Sound where
  sp_le := Nat.zero_le _
  index_le := Nat.zero_le _
  binary := Screen.binary_blank

theorem toNat_and_le (word mask : UInt16) : (word &&& mask).toNat ≤ mask.toNat := by
  rw [UInt16.toNat_and]
  exact Nat.and_le_right

theorem toNat_glyphAddress_le (value : UInt8) : (glyphAddress value).toNat ≤ 0xFFF := by
  have small := value.toNat_lt
  have unwrapped : (glyphAddress value).toNat ≤ value.toNat * 5 := Nat.mod_le _ _
  omega

end Machine

theorem Instruction.decode?_setIndex {word address : UInt16}
    (decoded : decode? word = some (.setIndex address)) : address = Word.nnn word := by
  unfold decode? at decoded
  split at decoded <;> try split at decoded
  all_goals first | (cases decoded; done) | (cases decoded; rfl)

namespace Machine.Sound

theorem drawFlag_lowered {machine : Machine} (sound : machine.Sound) :
    ({ machine with drawFlag := false } : Machine).Sound :=
  ⟨sound.sp_le, sound.index_le, sound.binary⟩

variable {σ : Type} [ByteSource σ] {machine : Machine}

theorem cycle_reports (sound : machine.Sound) (policy : UnknownOpcodePolicy) (source : σ) :
    (cycle policy machine source).value.report.isSome = true :=
  report_cycle_isSome policy machine source (toNat_sp_popped_lt sound.sp_le)

theorem cycle (sound : machine.Sound) (policy : UnknownOpcodePolicy) (source : σ) :
    (Chip8.cycle policy machine source).value.machine.Sound where
  sp_le := sp_le_cycle policy machine source sound.sp_le
  index_le := by
    rw [index_cycle]
    split
    next address decoded =>
      rw [Instruction.decode?_setIndex decoded]
      exact toNat_and_le _ _
    next => exact toNat_and_le _ _
    next => exact toNat_glyphAddress_le _
    next => exact sound.index_le
  binary := by
    rw [screen_cycle]
    split
    · exact Screen.binary_blank
    · exact Canvas.binary_drawRows sound.binary _ _ _
    · exact sound.binary

end Machine.Sound

/-! ## Consoles -/

section Consoles

variable {σ : Type} [SeededSource σ]

theorem reloadFailed_not_mem_cycle (processor : Processor σ) (reason : String) :
    Event.reloadFailed reason ∉ processor.cycle.events := by
  intro told
  rw [Processor.events_cycle, events_cycle] at told
  simp only [List.mem_append, List.mem_map] at told
  rcases told with (fetched | ⟨fault, _, raised⟩) | ended
  · split at fetched
    · simp at fetched
    · rw [List.mem_cons, events_execute] at fetched
      split at fetched <;> simp at fetched
  · simp at raised
  · split at ended <;> simp at ended

theorem Processor.sound_cycle {processor : Processor σ} (sound : processor.machine.Sound) :
    processor.cycle.value.1.isSome = true ∧ processor.cycle.value.2.machine.Sound := by
  rw [report_cycle, machine_cycle]
  exact ⟨sound.cycle_reports _ _, sound.cycle _ _⟩

structure Console.Sound (console : Console σ) : Prop where
  machine : console.machine.Sound
  fits : ∀ program, console.program = some program → program.size ≤ maxProgramSize

namespace Console

theorem sound_startMachine (program : Option (Array UInt8)) : (startMachine program).Sound := by
  cases program with
  | none => exact Machine.sound_powerOn
  | some program => exact Machine.sound_withProgram program

theorem sound_new (config : Config) (unseeded : σ) : (Console.new config unseeded).Sound where
  machine := Machine.sound_powerOn
  fits := by simp [Console.new]

theorem sound_startedOver (console : Console σ) (program : Option (Array UInt8))
    (fits : ∀ bytes, program = some bytes → bytes.size ≤ maxProgramSize) :
    (console.startedOver program).Sound where
  machine := sound_startMachine program
  fits := fits

variable {console : Console σ}

omit [SeededSource σ] in
theorem Sound.withMachine (sound : console.Sound) {machine : Machine} (kept : machine.Sound) :
    (console.withMachine machine).Sound where
  machine := kept
  fits := sound.fits

theorem Sound.run (sound : console.Sound) (count : Nat) :
    let ran := (Processor.run count console.processor).value
    ran.1 = true ∧ ({ console with processor := ran.2 } : Console σ).Sound := by
  have kept : ∀ processor : Processor σ, processor.machine.Sound →
      processor.cycle.value.1.isSome = true ∧ processor.cycle.value.2.machine.Sound :=
    fun _ => Processor.sound_cycle
  have later : (Processor.run count console.processor).value.2.machine.Sound :=
    Processor.run_keeps (motive := fun processor => processor.machine.Sound) console.processor
      (fun processor start => (kept processor start).2) count sound.machine
  exact ⟨Processor.run_finishes console.processor kept count sound.machine, later, sound.fits⟩

omit [SeededSource σ] in
theorem Sound.snapshot?_isSome (sound : console.Sound) : console.snapshot?.isSome = true := by
  have inside : console.processor.machine.sp.toNat ≤ stackDepth := sound.machine.sp_le
  simp [snapshot?, Machine.liveStack?, inside]

theorem Sound.stepFrame (sound : console.Sound) :
    console.stepFrame.value.1 ≠ .error .stackBreach ∧ console.stepFrame.value.2.Sound := by
  obtain ⟨finished, later⟩ := sound.run console.config.cyclesPerFrame.toNat
  rw [value_stepFrame]
  split
  · exact ⟨by simp, sound⟩
  · simp only [finished, ↓reduceIte]
    exact ⟨by simp, later.machine.drawFlag_lowered, later.fits⟩

theorem Sound.after (sound : console.Sound) {request : Request} (unpoked : ¬ request.IsPoke) :
    (console.perform request).value.2.Sound := by
  refine perform_cases sound.fits sound (sound_startedOver console) sound.stepFrame.2 ?_ ?_ ?_ ?_
  · exact ⟨(Processor.sound_cycle sound.machine).2, sound.fits⟩
  · intro keypad
    exact sound.withMachine ⟨sound.machine.sp_le, sound.machine.index_le, sound.machine.binary⟩
  · exact ⟨sound.machine, sound.fits⟩
  · rintro change rfl
    exact absurd trivial unpoked

theorem Sound.unbroken (sound : console.Sound) (request : Request) :
    ¬ (console.perform request).value.1.IsBreach := by
  cases request with
  | stepFrame =>
      intro broken
      simp only [Console.perform, Logged.value_bind, Logged.value_pure] at broken
      cases result : console.stepFrame.value.1 with
      | ok frame => simp [result, Answer.IsBreach] at broken
      | error failure =>
          cases failure with
          | stackBreach => exact sound.stepFrame.1 result
          | _ => simp [result, Answer.IsBreach] at broken
  | stepCycle =>
      obtain ⟨report, given⟩ :=
        Option.isSome_iff_exists.mp (Processor.sound_cycle sound.machine).1
      simp [Console.perform, stepCycle, given, Answer.IsBreach]
  | snapshot =>
      obtain ⟨snapshot, taken⟩ := Option.isSome_iff_exists.mp sound.snapshot?_isSome
      simp [Console.perform, taken, Answer.IsBreach]
  | mount | unmount | reset | setKey | takeBeeps | render | needsRedraw | frameCount | isMounted
  | mountPoints | settings | machine | poke => exact not_false

theorem Sound.reloads (sound : console.Sound) (request : Request) (reason : String) :
    Event.reloadFailed reason ∉ (console.perform request).events := by
  intro told
  cases request with
  | mount id program =>
      simp only [Console.perform, Logged.events_bind, events_mount, Machine.events_load] at told
      split at told <;> try split at told
      all_goals simp at told
  | unmount id =>
      simp only [Console.perform, Logged.events_bind, events_unmount] at told
      split at told <;> simp at told
  | reset =>
      simp only [Console.perform, Logged.events_bind, events_reset console sound.fits] at told
      cases stored : console.program <;> simp [stored] at told
  | stepFrame =>
      simp only [Console.perform, Logged.events_bind, events_stepFrame] at told
      split at told
      · simp at told
      · obtain ⟨earlier, told⟩ := Processor.mem_events_run _ (by simpa using told)
        exact reloadFailed_not_mem_cycle earlier reason told
  | stepCycle =>
      exact reloadFailed_not_mem_cycle console.processor reason
        (by simpa [Console.perform, stepCycle] using told)
  | setKey key pressed =>
      simp only [Console.perform, setKey, Logged.events_bind, Logged.events_emitIf] at told
      split at told <;> simp at told
  | takeBeeps | render | snapshot | needsRedraw | frameCount | isMounted | mountPoints | settings
  | machine | poke => simp [Console.perform] at told

/-- After every session without pokes the stack pointer, the index register, the
screen and the stored program are within their bounds. No answer on the way stands
for an access beyond the stack, and no stored program fails to load again. -/
theorem session_keeps_bounds (config : Config) (unseeded : σ) (requests : List Request)
    (unpoked : ∀ request ∈ requests, ¬ request.IsPoke) :
    let ran := (Console.new config unseeded).session requests
    ran.value.2.Sound ∧ (∀ exchange ∈ ran.value.1, ¬ exchange.2.IsBreach) ∧
      ∀ reason, Event.reloadFailed reason ∉ ran.events := by
  have kept : ∀ (console : Console σ) (request : Request), ¬ request.IsPoke → console.Sound →
      (console.perform request).value.2.Sound ∧ ¬ (console.perform request).value.1.IsBreach ∧
        ∀ event ∈ (console.perform request).events, ∀ reason, event ≠ .reloadFailed reason := by
    intro console request unpoked sound
    refine ⟨sound.after unpoked, sound.unbroken request, ?_⟩
    intro event told reason same
    exact sound.reloads request reason (same ▸ told)
  obtain ⟨sound, unbroken, loaded⟩ := session_keeps Sound (fun request => ¬ request.IsPoke)
    (fun answer => ¬ answer.IsBreach) (fun event => ∀ reason, event ≠ .reloadFailed reason) kept
    requests unpoked (Console.new config unseeded) (sound_new config unseeded)
  exact ⟨sound, unbroken, fun reason told => loaded _ told reason rfl⟩

/-- A session with a program that calls itself, so that its stack overflows. -/
theorem session_keeps_bounds_recursive_call :
    let requests := [Request.mount "Program" #[0x22, 0x00], .stepFrame, .snapshot, .reset]
    let ran := (Console.new {} (Keystream.ofSeed 0)).session requests
    (∀ request ∈ requests, ¬ request.IsPoke) ∧
      ran.value.2.Sound ∧ (∀ exchange ∈ ran.value.1, ¬ exchange.2.IsBreach) ∧
        ∀ reason, Event.reloadFailed reason ∉ ran.events := by
  have unpoked : ∀ request ∈ [Request.mount "Program" #[0x22, 0x00], .stepFrame, .snapshot, .reset],
      ¬ request.IsPoke := by
    simp [Request.IsPoke]
  exact ⟨unpoked, session_keeps_bounds {} (Keystream.ofSeed 0) _ unpoked⟩

end Console
end Consoles
end Chip8

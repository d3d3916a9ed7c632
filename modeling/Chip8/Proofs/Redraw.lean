import Chip8.Proofs.Picture
import Chip8.Proofs.Soundness

/-!
# When a screen has to be shown again

A host that shows frames and trusts the draw flag shows the right screen as long as
the console does not start over. Starting over clears the screen and lowers the
flag, so a host that showed a lit frame before is not told.
-/

set_option autoImplicit false

namespace Chip8

def Frame.screen (frame : Frame) : Screen :=
  Vector.ofFn fun place => if frame.pixels[place.val]? = some litColor then 1 else 0

/-- What is left of a session for a host that shows the frames it is given: the
latest of them, and whether the console started over since then. -/
structure Display where
  frame : Option Frame := none
  startedOver : Bool := false

namespace Display

def observe (display : Display) (exchange : Request × Answer) : Display :=
  match exchange with
  | (.stepFrame, .frame (.ok frame)) => { frame := some frame }
  | (.mount .., .mounting (.ok _)) => { display with startedOver := true }
  | (.unmount .., .mounting (.ok _)) => { display with startedOver := true }
  | (.reset, _) => { display with startedOver := true }
  | _ => display

def screen (display : Display) : Screen :=
  match display.frame with
  | none => Screen.blank
  | some frame => frame.screen

/-- The screen of a console that asks for no redraw. -/
def expected (display : Display) : Screen :=
  if display.startedOver then Screen.blank else display.screen

end Display

theorem screen_cycle_of_drawFlag {σ : Type} [ByteSource σ] (policy : UnknownOpcodePolicy)
    (machine : Machine) (source : σ)
    (unflagged : (cycle policy machine source).value.machine.drawFlag = false) :
    machine.drawFlag = false ∧
      (cycle policy machine source).value.machine.screen = machine.screen := by
  rw [drawFlag_cycle] at unflagged
  rw [screen_cycle]
  split at unflagged <;> simp_all

namespace Console

variable {σ : Type} [SeededSource σ]

omit [SeededSource σ] in
theorem screen_render {console : Console σ} (binary : console.machine.screen.Binary) :
    console.render.screen = console.machine.screen := by
  apply Vector.ext
  intro place inside
  have pixel : console.render.pixels[place]? =
      some (if console.machine.screen[place] = 0 then darkColor else litColor) := by
    simp [pixels_render, inside]
  have differ : darkColor ≠ litColor := by decide
  simp only [Frame.screen, Vector.getElem_ofFn, pixel]
  rcases binary ⟨place, inside⟩ with dark | lit
  · have byte : console.machine.screen[place] = 0 := dark
    simp [byte, differ]
  · have byte : console.machine.screen[place] = 1 := lit
    simp [byte]

/-- The console after the cycles of a frame, when its picture is taken. -/
def ranFrame (console : Console σ) : Console σ :=
  { console with processor := (console.processor.run console.config.cyclesPerFrame.toNat).value.2 }

variable {console : Console σ} {display : Display}

theorem Sound.ranFrame (sound : console.Sound) : console.ranFrame.Sound :=
  (sound.run console.config.cyclesPerFrame.toNat).2

theorem Sound.value_stepFrame (sound : console.Sound) (holds : console.program.isSome = true) :
    console.stepFrame.value =
      (.ok console.ranFrame.render,
        { console.ranFrame.withMachine { console.ranFrame.machine with drawFlag := false } with
          frames := console.frames + 1 }) := by
  obtain ⟨finished, -⟩ := sound.run console.config.cyclesPerFrame.toNat
  have held : console.program.isNone = false := by simpa [Option.isNone_eq_false_iff] using holds
  rw [Console.value_stepFrame, held]
  simp only [Bool.false_eq_true, ↓reduceIte, finished, Console.ranFrame]

/-- The display knows the screen of a console that asks for no redraw. -/
def InStep (console : Console σ) (display : Display) : Prop :=
  console.machine.drawFlag = false → console.machine.screen = display.expected

theorem InStep.stepCycle (inStep : console.InStep display) :
    console.stepCycle.value.2.InStep display := by
  intro unflagged
  have machine : console.stepCycle.value.2.machine = console.processor.cycle.value.2.machine := rfl
  rw [machine, Processor.machine_cycle] at unflagged
  obtain ⟨before, same⟩ := screen_cycle_of_drawFlag _ _ _ unflagged
  rw [machine, Processor.machine_cycle, same]
  exact inStep before

theorem inStep_startedOver (program : Option (Array UInt8)) :
    (console.startedOver program).InStep { display with startedOver := true } := by
  intro _
  cases program <;> rfl

theorem InStep.perform (inStep : console.InStep display) (sound : console.Sound)
    {request : Request} (unpoked : ¬ request.IsPoke) :
    (console.perform request).value.2.InStep
      (display.observe (request, (console.perform request).value.1)) := by
  cases request with
  | mount id program =>
      simp only [Console.perform, Logged.value_bind, Logged.value_pure, value_mount]
      split
      · split
        · exact inStep_startedOver (some program)
        · exact inStep
      · exact inStep
  | unmount id =>
      simp only [Console.perform, Logged.value_bind, Logged.value_pure, value_unmount]
      split
      · exact inStep_startedOver none
      · exact inStep
  | reset =>
      simp only [Console.perform, Logged.value_bind, Logged.value_pure,
        value_reset console sound.fits]
      exact inStep_startedOver console.program
  | stepFrame =>
      cases holds : console.program.isSome with
      | false =>
          have empty : console.program.isNone = true := by simpa using holds
          simp only [Console.perform, Logged.value_bind, Logged.value_pure, value_stepFrame, empty,
            ↓reduceIte]
          exact inStep
      | true =>
          simp only [Console.perform, Logged.value_bind, Logged.value_pure,
            sound.value_stepFrame holds]
          intro _
          exact (screen_render sound.ranFrame.machine.binary).symm
  | stepCycle => exact inStep.stepCycle
  | setKey key pressed => exact inStep
  | poke change => exact absurd trivial unpoked
  | takeBeeps => exact inStep
  | render | snapshot | needsRedraw | frameCount | isMounted | mountPoints | settings | machine =>
      exact inStep

theorem InStep.session (requests : List Request) (unpoked : ∀ request ∈ requests, ¬ request.IsPoke)
    (inStep : console.InStep display) (sound : console.Sound) :
    (console.session requests).value.2.InStep
      ((console.session requests).value.1.foldl Display.observe display) := by
  induction requests generalizing console display with
  | nil => exact inStep
  | cons request rest ih =>
      obtain ⟨first, remaining⟩ := List.forall_mem_cons.mp unpoked
      exact ih remaining (inStep.perform sound first) (sound.after first)

/-! ## A reset after a lit frame -/

theorem screen_cycle_ne_blank {machine : Machine} (word : machine.wordAtPc = 0xD001)
    (corner : machine.register 0 = 0) (rows : machine.spriteRows 1 = [0xF0])
    (dark : machine.screen = Screen.blank) (policy : UnknownOpcodePolicy) (source : σ) :
    (cycle policy machine source).value.machine.screen ≠ Screen.blank := by
  have decoded : Instruction.decode? 0xD001 = some (.draw 0 0 1) := by decide
  have lit : (Canvas.drawRows { screen := Screen.blank } [0xF0] 0 0).screen.byteAt
      (Screen.position 0 0) = 1 := by decide +kernel
  intro still
  have pixel := congrArg (Screen.byteAt · (Screen.position 0 0)) still
  simp only [screen_cycle, word, decoded, Machine.drawSprite, Machine.setFlag,
    Machine.setRegister, corner, dark, UInt8.toNat_zero, UInt8.toNat_one, rows, lit,
    Screen.byteAt_blank] at pixel
  exact absurd pixel (by decide)

theorem screen_cycle_withProgram_ne_blank (policy : UnknownOpcodePolicy) (source : σ) :
    (cycle policy (Machine.withProgram #[0xD0, 0x01]) source).value.machine.screen ≠
      Screen.blank := by
  have word : (Machine.withProgram #[0xD0, 0x01]).wordAtPc = 0xD001 :=
    Machine.wordAtPc_of_loaded rfl (by decide)
  have rows : (Machine.withProgram #[0xD0, 0x01]).spriteRows 1 = [0xF0] := by
    have loaded : (Machine.withProgram #[0xD0, 0x01]).memory = Machine.image #[0xD0, 0x01] := rfl
    simp only [Machine.spriteRows, Machine.read_of_loaded loaded]
    decide
  have corner : (Machine.withProgram #[0xD0, 0x01]).register 0 = 0 := by
    simp [Machine.register, Machine.withProgram]
  exact screen_cycle_ne_blank word corner rows rfl policy source

theorem Sound.frame_then_reset (sound : console.Sound) (holds : console.program.isSome = true)
    (display : Display) :
    let ran := (console.session [.stepFrame, .reset]).value
    ran.2.needsRedraw = false ∧ ran.2.machine.screen = Screen.blank ∧
      (ran.1.foldl Display.observe display).screen = console.ranFrame.machine.screen := by
  have reset := value_reset console.stepFrame.value.2 sound.stepFrame.2.fits
  simp only [session, Console.perform, Logged.value_bind, Logged.value_pure, reset]
  refine ⟨?_, ?_, ?_⟩
  · cases console.stepFrame.value.2.program <;> rfl
  · cases console.stepFrame.value.2.program <;> rfl
  · rw [sound.value_stepFrame holds]
    exact screen_render sound.ranFrame.machine.binary

theorem Sound.machine_ranFrame_one (sound : console.Sound)
    (single : console.config.cyclesPerFrame = 1) :
    console.ranFrame.machine =
      (cycle console.processor.policy console.machine console.processor.source).value.machine := by
  have reported := (Processor.sound_cycle sound.machine).1
  have ran : (console.processor.run 1).value.2 = console.processor.cycle.value.2 := by
    rw [Processor.run_succ, Logged.value_bind]
    simp [reported]
  have one : console.config.cyclesPerFrame.toNat = 1 := by rw [single]; rfl
  rw [Console.ranFrame, one, ran]
  exact Processor.machine_cycle console.processor

theorem mount_frame_reset (console : Console σ) (single : console.config.cyclesPerFrame = 1) :
    let requests := [Request.mount "Program" #[0xD0, 0x01], .stepFrame, .reset]
    let ran := (console.session requests).value
    ran.2.needsRedraw = false ∧
      ran.2.machine.screen ≠ (ran.1.foldl Display.observe {}).screen := by
  intro requests ran
  have mounted := console.value_mount programMount.id #[0xD0, 0x01]
  rw [if_pos rfl, if_pos (by decide)] at mounted
  have sound : (console.startedOver (some #[0xD0, 0x01])).Sound :=
    sound_startedOver console _ (by rintro bytes ⟨⟩; decide)
  obtain ⟨unasked, dark, shown⟩ := sound.frame_then_reset rfl { startedOver := true }
  have machine : (console.startedOver (some #[0xD0, 0x01])).machine =
      Machine.withProgram #[0xD0, 0x01] := rfl
  have lit := screen_cycle_withProgram_ne_blank
    (console.startedOver (some #[0xD0, 0x01])).processor.policy
    (console.startedOver (some #[0xD0, 0x01])).processor.source
  rw [sound.machine_ranFrame_one single, machine] at shown
  have first : (console.perform (.mount "Program" #[0xD0, 0x01])).value =
      (.mounting (.ok ()), console.startedOver (some #[0xD0, 0x01])) := by
    rw [perform, Logged.value_bind]
    exact congrArg (fun done : Except Failure Unit × Console σ => (Answer.mounting done.1, done.2))
      mounted
  simp only [ran, requests]
  rw [value_session_cons, first]
  exact ⟨unasked, fun same => lit (shown.symm.trans (same.symm.trans dark))⟩

/-! ## Sessions -/

/-- A console that asks for no redraw has the screen of the latest frame, unless it
started over since: then its screen is dark, and the host shows the right one
exactly if that frame was dark too. -/
theorem needsRedraw_eq_false (config : Config) (unseeded : σ) (requests : List Request)
    (unpoked : ∀ request ∈ requests, ¬ request.IsPoke)
    (unasked : ((Console.new config unseeded).session requests).value.2.needsRedraw = false) :
    let ran := ((Console.new config unseeded).session requests).value
    let display := ran.1.foldl Display.observe {}
    (display.startedOver = false → ran.2.machine.screen = display.screen) ∧
      (display.startedOver = true → ran.2.machine.screen = Screen.blank) ∧
      (ran.2.machine.screen = display.screen ↔
        display.startedOver = false ∨ display.screen = Screen.blank) := by
  intro ran display
  have start : (Console.new config unseeded).InStep {} := fun _ => rfl
  have inStep : ran.2.machine.screen = display.expected :=
    start.session requests unpoked (sound_new config unseeded) unasked
  rw [inStep, Display.expected]
  cases display.startedOver with
  | false => simp
  | true => simp [eq_comm]

/-- What a host makes of a session that ends with such a reset. -/
theorem needsRedraw_eq_false_after_reset :
    let requests := [Request.mount "Program" #[0xD0, 0x01], .stepFrame, .reset]
    let config : Config := { cyclesPerFrame := 1, seed := some 0 }
    let ran := ((Console.new config (Keystream.ofSeed 0)).session requests).value
    let display := ran.1.foldl Display.observe {}
    (∀ request ∈ requests, ¬ request.IsPoke) ∧ ran.2.needsRedraw = false ∧
      (ran.2.machine.screen = display.screen ↔
        display.startedOver = false ∨ display.screen = Screen.blank) := by
  have unpoked : ∀ request ∈ [Request.mount "Program" #[0xD0, 0x01], .stepFrame, .reset],
      ¬ request.IsPoke := by
    simp [Request.IsPoke]
  have unasked := (mount_frame_reset
    (Console.new { cyclesPerFrame := 1, seed := some 0 } (Keystream.ofSeed 0)) rfl).1
  exact ⟨unpoked, unasked, (needsRedraw_eq_false { cyclesPerFrame := 1, seed := some 0 }
    (Keystream.ofSeed 0) _ unpoked unasked).2.2⟩

/-- The glyph that the first frame shows is gone after a reset, which asks for no
redraw. -/
theorem reset_hides_change :
    let requests := [Request.mount "Program" #[0xD0, 0x01], .stepFrame, .reset]
    let config : Config := { cyclesPerFrame := 1, seed := some 0 }
    let ran := ((Console.new config (Keystream.ofSeed 0)).session requests).value
    ran.2.needsRedraw = false ∧
      ran.2.machine.screen ≠ (ran.1.foldl Display.observe {}).screen :=
  mount_frame_reset _ rfl

end Console
end Chip8

import Chip8.Proofs.Session
import Chip8.Random.Keystream

/-!
# Cycles in frames

How many cycles make up a frame is of no concern to a program: frames add up to their
cycles one after the other. What a frame does besides, the machine does not see. The
draw flag, which a frame takes down, is never looked at, and the tones and faults are
counted on.
-/

set_option autoImplicit false

namespace Chip8

variable {σ : Type}

/-! ## The draw flag -/

def Machine.shown (machine : Machine) : Machine := { machine with drawFlag := false }

def Executed.shown (executed : Executed σ) : Executed σ :=
  { executed with machine := executed.machine.shown }

def Cycled.shown (cycled : Cycled σ) : Cycled σ := { cycled with machine := cycled.machine.shown }

section Cycles

variable [ByteSource σ] (policy : UnknownOpcodePolicy) (machine : Machine) (source : σ)

theorem shown_execute (instruction : Instruction Register) :
    (execute instruction machine.shown source).value.shown =
      (execute instruction machine source).value.shown := by
  cases instruction with
  | ret =>
      have same : machine.shown.returned? = machine.returned?.map Machine.shown := by
        simp only [Machine.returned?, Option.map_map]
        rfl
      cases returned : machine.returned? <;> simp only [execute, same, returned] <;> rfl
  | call target =>
      have same : machine.shown.called? target = (machine.called? target).map Machine.shown := by
        have full : machine.shown.stackIsFull = machine.stackIsFull := rfl
        simp only [Machine.called?, full]
        split <;> rfl
      cases called : machine.called? target <;> simp only [execute, same, called] <;> rfl
  | waitForKey x =>
      have same : machine.shown.keypad = machine.keypad := rfl
      cases held : machine.keypad.firstPressed? <;> simp only [execute, same, held] <;> rfl
  | storeRegisters x =>
      -- The registers are stored one by one, and the flag comes through each time.
      have stored : machine.shown.storeRegisters x = (machine.storeRegisters x).shown :=
        List.foldl_hom Machine.shown (fun _ _ => rfl)
      simp only [execute, stored]
      rfl
  | loadRegisters x =>
      have filled : machine.shown.loadRegisters x = (machine.loadRegisters x).shown :=
        List.foldl_hom Machine.shown (fun _ _ => rfl)
      simp only [execute, filled]
      rfl
  | _ => rfl

theorem shown_attempt :
    (attempt policy machine.shown source).shown = (attempt policy machine source).shown := by
  have word : machine.shown.wordAtPc = machine.wordAtPc := rfl
  unfold attempt
  rw [word]
  cases Instruction.decode? machine.wordAtPc with
  | none => cases policy <;> rfl
  | some instruction => exact shown_execute machine.fetch source instruction

omit [ByteSource σ] in
theorem Executed.shown_ended (executed : Executed σ) :
    executed.ended.shown = executed.shown.ended.shown := by
  have obstacle : executed.shown.obstacle = executed.obstacle := rfl
  unfold ended
  rw [obstacle]
  split <;> rfl

theorem shown_cycle :
    (cycle policy machine.shown source).value.shown = (cycle policy machine source).value.shown := by
  rw [value_cycle, value_cycle, Executed.shown_ended, shown_attempt, ← Executed.shown_ended]

end Cycles

namespace Moment

variable [ByteSource σ] (policy : UnknownOpcodePolicy) (moment : Moment σ)

omit [ByteSource σ] in
def shown : Moment σ := { moment with machine := moment.machine.shown }

theorem shown_cycled : (moment.shown.cycled policy).shown = (moment.cycled policy).shown :=
  shown_cycle policy moment.machine moment.source

theorem report_shown : (moment.shown.cycled policy).report = (moment.cycled policy).report := by
  have same := congrArg Cycled.report (moment.shown_cycled policy)
  exact same

theorem shown_next : (moment.shown.next policy).shown = (moment.next policy).shown :=
  congrArg (fun cycled => (⟨cycled.machine, cycled.source⟩ : Moment σ))
    (moment.shown_cycled policy)

variable {moment} {other : Moment σ}

theorem shown_later (alike : moment.shown = other.shown) (count : Nat) :
    (moment.later policy count).shown = (other.later policy count).shown := by
  induction count with
  | zero => exact alike
  | succ count ih =>
      rw [later_add, later_add]
      calc ((moment.later policy count).next policy).shown
          = ((moment.later policy count).shown.next policy).shown := (shown_next policy _).symm
        _ = ((other.later policy count).shown.next policy).shown := by rw [ih]
        _ = ((other.later policy count).next policy).shown := shown_next policy _

theorem reports_shown (alike : moment.shown = other.shown) (count : Nat) :
    moment.reports policy count = other.reports policy count := by
  apply List.map_congr_left
  intro done _
  rw [← report_shown, shown_later policy alike done, report_shown]

theorem soundEdges_shown (alike : moment.shown = other.shown) (count : Nat) :
    moment.soundEdges policy count = other.soundEdges policy count := by
  rw [soundEdges, reports_shown policy alike]
  rfl

theorem faultCount_shown (alike : moment.shown = other.shown) (count : Nat) :
    moment.faultCount policy count = other.faultCount policy count := by
  rw [faultCount, reports_shown policy alike]
  rfl

end Moment

variable [SeededSource σ]

namespace Processor

variable (processor : Processor σ)

omit [SeededSource σ] in
def shown : Processor σ := { processor with machine := processor.machine.shown }

theorem shown_advanced (count : Nat) :
    (processor.shown.advanced count).shown = (processor.advanced count).shown := by
  have alike : processor.shown.moment.shown = processor.moment.shown := rfl
  obtain ⟨machine, source⟩ := Moment.mk.inj (Moment.shown_later processor.policy alike count)
  have soundEdges := Moment.soundEdges_shown processor.policy alike count
  have faultCount := Moment.faultCount_shown processor.policy alike count
  calc (processor.shown.advanced count).shown
      = { processor with
          machine := (processor.shown.moment.later processor.policy count).machine.shown
          source := (processor.shown.moment.later processor.policy count).source
          beeps := processor.beeps +
            UInt32.ofNat (processor.shown.moment.soundEdges processor.policy count)
          faults := processor.faults +
            UInt64.ofNat (processor.shown.moment.faultCount processor.policy count) } :=
        rfl
    _ = (processor.advanced count).shown := by
        rw [machine, source, soundEdges, faultCount]
        rfl

end Processor

/-! ## Frames -/

namespace Console

def advanced (console : Console σ) (count : Nat) : Console σ :=
  { console with processor := console.processor.advanced count }

def shown (console : Console σ) : Console σ := { console with processor := console.processor.shown }

variable {console : Console σ}

theorem advanced_zero : console.advanced 0 = console := by
  rw [advanced, Processor.advanced_zero]

theorem advanced_add (count more : Nat) :
    (console.advanced count).advanced more = console.advanced (count + more) := by
  have processor := console.processor.advanced_add count more
  simp only [advanced, processor]

theorem value_session_stepCycles (bound : console.machine.sp.toNat ≤ stackDepth) (count : Nat) :
    (console.session (List.replicate count .stepCycle)).value.2 = console.advanced count := by
  induction count generalizing console with
  | zero => exact advanced_zero.symm
  | succ count ih =>
      have first : (console.perform .stepCycle).value.2 = console.advanced 1 := by
        simp only [perform, stepCycle, Logged.value_bind, Logged.value_pure,
          Processor.value_cycle bound]
        rfl
      have next : (console.advanced 1).machine.sp.toNat ≤ stackDepth :=
        Processor.advanced_bound bound 1
      rw [List.replicate_succ, value_session_cons]
      simp only [first]
      rw [ih next, advanced_add, Nat.add_comm]

def framed (console : Console σ) (count : Nat) : Console σ :=
  { (console.advanced (count * console.config.cyclesPerFrame.toNat)).shown with
    frames := console.frames + UInt64.ofNat count }

theorem framed_bound (bound : console.machine.sp.toNat ≤ stackDepth) (count : Nat) :
    (console.framed count).machine.sp.toNat ≤ stackDepth :=
  Processor.advanced_bound bound (count * console.config.cyclesPerFrame.toNat)

variable (console) in
/-- Frames add up, since their cycles do and the picture taken between them leaves no trace. -/
theorem framed_add (count more : Nat) :
    (console.framed count).framed more = console.framed (count + more) := by
  let cycles := console.config.cyclesPerFrame.toNat
  have processor :=
    (console.processor.advanced (count * cycles)).shown_advanced (more * cycles)
  rw [Processor.advanced_add, ← Nat.add_mul] at processor
  simp only [framed, shown, advanced, processor, cycles, UInt64.ofNat_add, UInt64.add_assoc]

theorem value_stepFrame_eq_framed (mounted : console.program.isSome)
    (bound : console.machine.sp.toNat ≤ stackDepth) :
    console.stepFrame.value = (.ok (console.framed 1).render, console.framed 1) := by
  have present : console.program.isNone = false := by
    rw [Option.isNone_eq_false_iff]
    exact mounted
  rw [value_stepFrame, present, Processor.value_run bound, framed, Nat.one_mul]
  rfl

variable (console) in
theorem value_session_stepFrames (mounted : console.program.isSome)
    (bound : console.machine.sp.toNat ≤ stackDepth) (count : Nat) :
    (console.session (List.replicate count .stepFrame)).value.1 =
        ((List.range count).map fun done =>
          (.stepFrame, .frame (.ok (console.framed (done + 1)).render))) ∧
      (1 ≤ count →
        (console.session (List.replicate count .stepFrame)).value.2 = console.framed count) := by
  induction count generalizing console with
  | zero => exact ⟨rfl, fun positive => absurd positive (Nat.not_lt_zero 0)⟩
  | succ count ih =>
      have first : (console.perform .stepFrame).value =
          (.frame (.ok (console.framed 1).render), console.framed 1) := by
        simp only [perform, Logged.value_bind, Logged.value_pure,
          value_stepFrame_eq_framed mounted bound]
      -- What follows the first frame are the frames of the console that it leaves behind.
      obtain ⟨answers, final⟩ := ih (console.framed 1) mounted (framed_bound bound 1)
      rw [List.replicate_succ, value_session_cons]
      simp only [first, answers, framed_add, Nat.add_comm 1]
      refine ⟨?_, ?_⟩
      · simp only [List.range_succ_eq_map, List.map_cons, List.map_map]
        rfl
      · intro _
        rcases Nat.eq_zero_or_pos count with rfl | more
        · rfl
        · rw [final more, framed_add, Nat.add_comm]

def paced (console : Console σ) (cycles : UInt32) : Console σ :=
  { console with config := { console.config with cyclesPerFrame := cycles } }

theorem session_paced (mounted : console.program.isSome)
    (bound : console.machine.sp.toNat ≤ stackDepth) (cycles : UInt32) {frames : Nat}
    (positive : 1 ≤ frames) :
    let framed := ((console.paced cycles).session (List.replicate frames .stepFrame)).value
    let stepped := (console.session
      (List.replicate (frames * cycles.toNat) .stepCycle)).value.2
    framed.1.getLast? = some (.stepFrame, .frame (.ok stepped.render)) ∧
      framed.2 = { stepped.shown.paced cycles with frames := console.frames + UInt64.ofNat frames } := by
  intro framed stepped
  obtain ⟨answers, final⟩ :=
    value_session_stepFrames (console.paced cycles) mounted bound frames
  have single : stepped = console.advanced (frames * cycles.toNat) :=
    value_session_stepCycles bound (frames * cycles.toNat)
  rw [single]
  refine ⟨?_, final positive⟩
  -- The last frame shows the console after all of them.
  obtain ⟨before, rfl⟩ := Nat.exists_eq_add_of_le' positive
  simp only [framed, answers, List.range_succ, List.map_append, List.map_cons, List.map_nil,
    List.getLast?_concat]
  rfl

/-- How its cycles are divided into frames makes no difference to a console. As many
cycles in frames of one size and in frames of another leave it alike but for the size
and the number of frames, and so do as many single cycles if the picture is then taken. -/
theorem frame_size_makes_no_difference (console : Console σ) (mounted : console.program.isSome)
    (bound : console.machine.sp.toNat ≤ stackDepth) (cycles otherCycles : UInt32)
    {frames otherFrames : Nat} (positive : 1 ≤ frames) (otherPositive : 1 ≤ otherFrames)
    (same : frames * cycles.toNat = otherFrames * otherCycles.toNat) :
    let one := ((console.paced cycles).session (List.replicate frames .stepFrame)).value
    let other := ((console.paced otherCycles).session (List.replicate otherFrames .stepFrame)).value
    let stepped := (console.session
      (List.replicate (frames * cycles.toNat) .stepCycle)).value.2
    let last := (Request.stepFrame, Answer.frame (.ok stepped.render))
    one.1.getLast? = some last ∧ other.1.getLast? = some last ∧
      one.2 = { stepped.shown.paced cycles with
        frames := console.frames + UInt64.ofNat frames } ∧
      other.2 = { stepped.shown.paced otherCycles with
        frames := console.frames + UInt64.ofNat otherFrames } := by
  intro one other stepped last
  obtain ⟨picture, final⟩ := session_paced mounted bound cycles positive
  obtain ⟨otherPicture, otherFinal⟩ := session_paced mounted bound otherCycles otherPositive
  rw [← same] at otherPicture otherFinal
  exact ⟨picture, otherPicture, final, otherFinal⟩

/-- Six cycles that draw a sprite and start a tone of random length, in two frames and
in three. -/
theorem frame_size_makes_no_difference_to_six_cycles :
    let program : Array UInt8 := #[0xC0, 0xFF, 0xF0, 0x18, 0xD0, 0x05, 0x12, 0x00]
    let console :=
      ((Console.new {} (Keystream.ofSeed 0)).mount programMount.id program).value.2
    let one := ((console.paced 3).session (List.replicate 2 .stepFrame)).value
    let other := ((console.paced 2).session (List.replicate 3 .stepFrame)).value
    console.program.isSome ∧ console.machine.sp.toNat ≤ stackDepth ∧
      2 * (3 : UInt32).toNat = 3 * (2 : UInt32).toNat ∧
      one.1.getLast? = other.1.getLast? ∧ one.2.processor = other.2.processor ∧
      one.2.frames = 2 ∧ other.2.frames = 3 := by
  intro program console one other
  have fits : program.size ≤ maxProgramSize := by decide
  have started : console = (Console.new {} (Keystream.ofSeed 0)).startedOver (some program) := by
    simp only [console, value_mount, fits, ↓reduceIte]
  have mounted : console.program.isSome = true := by rw [started]; rfl
  have bound : console.machine.sp.toNat ≤ stackDepth := by rw [started]; exact Nat.zero_le _
  have fresh : console.frames = 0 := by rw [started]; rfl
  have same : 2 * (3 : UInt32).toNat = 3 * (2 : UInt32).toNat := by decide
  have two : 1 ≤ 2 := by decide
  have three : 1 ≤ 3 := by decide
  -- The rest holds of any such console, which keeps the program from being run here.
  clear_value console
  obtain ⟨picture, otherPicture, final, otherFinal⟩ := frame_size_makes_no_difference console
    mounted bound 3 2 two three same
  refine ⟨mounted, bound, same, ?_, ?_, ?_, ?_⟩
  · exact picture.trans otherPicture.symm
  · exact (congrArg processor final).trans (congrArg processor otherFinal).symm
  · exact (congrArg frames final).trans (by rw [fresh]; rfl)
  · exact (congrArg frames otherFinal).trans (by rw [fresh]; rfl)

end Console
end Chip8

import Chip8.Proofs.Footprint

/-!
# Timers over runs

Both timers fall in every cycle, whatever the cycle does besides: one that waits for a
key, meets a fault, draws or skips lets them fall like any other. So a timer that no
instruction sets is known for as long as the program runs, and with it the cycle in
which its tone ends and what a program reads from it meanwhile.
-/

set_option autoImplicit false

namespace Chip8

namespace Timers

theorem soundExpires_eq_true_iff (timers : Timers) :
    timers.soundExpires = true ↔ timers.sound.toNat = 1 := by
  rw [soundExpires, beq_iff_eq, ← UInt8.toNat_inj]
  rfl

end Timers

namespace Moment

variable {σ : Type} [ByteSource σ] (policy : UnknownOpcodePolicy)

/-- The timers as the next cycle leaves them before they fall. -/
def timersLeft (moment : Moment σ) : Timers :=
  (attempt policy moment.machine moment.source).machine.timers

/-! ## One cycle -/

section Cycle

variable {moment : Moment σ}

theorem delay_timersLeft
    (unset : ∀ x, Instruction.decode? moment.machine.wordAtPc ≠ some (.setDelayTimer x)) :
    (moment.timersLeft policy).delay = moment.machine.timers.delay := by
  rw [timersLeft, timers_attempt]
  cases decoded : Instruction.decode? moment.machine.wordAtPc with
  | none => rfl
  | some instruction =>
      cases instruction with
      | setDelayTimer x => exact absurd decoded (unset x)
      | _ => rfl

theorem sound_timersLeft
    (unset : ∀ x, Instruction.decode? moment.machine.wordAtPc ≠ some (.setSoundTimer x)) :
    (moment.timersLeft policy).sound = moment.machine.timers.sound := by
  rw [timersLeft, timers_attempt]
  cases decoded : Instruction.decode? moment.machine.wordAtPc with
  | none => rfl
  | some instruction =>
      cases instruction with
      | setSoundTimer x => exact absurd decoded (unset x)
      | _ => rfl

theorem soundEdge_cycled (bound : moment.machine.sp.toNat ≤ stackDepth) :
    ∃ report, (moment.cycled policy).report = some report ∧
      report.soundEdge = (moment.timersLeft policy).soundExpires := by
  have cycled := value_cycle_of_inside policy moment.machine moment.source
    (Machine.toNat_sp_popped_lt bound)
  exact ⟨_, congrArg Cycled.report cycled, rfl⟩

theorem register_next_of_readDelayTimer {x : Register}
    (reads : Instruction.decode? moment.machine.wordAtPc = some (.readDelayTimer x)) :
    (moment.next policy).machine.register x = moment.machine.timers.delay := by
  have read : (attempt policy moment.machine moment.source).machine =
      (moment.machine.fetch.setRegister x moment.machine.timers.delay).advance false := by
    rw [attempt, reads]
    rfl
  have kept := part_cycle policy moment.machine moment.source (·.register x) (fun _ _ => rfl)
  rw [read] at kept
  exact kept.trans ((Machine.register_setRegister _ x x _).trans (if_pos rfl))

end Cycle

/-! ## Runs -/

section Runs

variable {moment : Moment σ} {keys : Nat → Keypad → Keypad} {count : Nat}

theorem toNat_timer_after {timer : Timers → UInt8}
    (falls : ∀ timers, timer timers.tick = Timers.countDown (timer timers))
    (bound : moment.machine.sp.toNat ≤ stackDepth)
    (unset : ∀ done < count, timer ((moment.after policy keys done).timersLeft policy) =
      timer (moment.after policy keys done).machine.timers) :
    (timer (moment.after policy keys count).machine.timers).toNat =
      (timer moment.machine.timers).toNat - count := by
  induction count with
  | zero => rfl
  | succ count ih =>
      have earlier := ih fun done early => unset done (Nat.lt_succ_of_lt early)
      have fallen : (moment.after policy keys (count + 1)).machine.timers =
          ((moment.after policy keys count).timersLeft policy).tick :=
        timers_cycle policy _ (sp_le_after policy bound keys count)
      rw [fallen, falls, Timers.toNat_countDown, unset count (Nat.lt_succ_self count), earlier]
      exact Nat.sub_sub _ count 1

end Runs

/-- In a run in which no instruction sets the delay timer, that timer has fallen by the
number of cycles, and what an instruction reads from it is what the cycles before have
left of it. In a run in which none sets the sound timer, that timer has fallen likewise,
and a cycle reports the end of a tone if and only if its number, counted from one, is
what the timer stood at in the beginning. -/
theorem timers_fall_in_every_cycle (policy : UnknownOpcodePolicy) (keys : Nat → Keypad → Keypad)
    (moment : Moment σ) (bound : moment.machine.sp.toNat ≤ stackDepth) (count : Nat) :
    let start := moment.after policy keys
    let delay := moment.machine.timers.delay.toNat
    let sound := moment.machine.timers.sound.toNat
    ((∀ done < count, ∀ x,
        Instruction.decode? (start done).machine.wordAtPc ≠ some (.setDelayTimer x)) →
      (start count).machine.timers.delay.toNat = delay - count ∧
        ∀ done < count, ∀ x,
          Instruction.decode? (start done).machine.wordAtPc = some (.readDelayTimer x) →
            (((start done).next policy).machine.register x).toNat = delay - done) ∧
      ((∀ done < count, ∀ x,
          Instruction.decode? (start done).machine.wordAtPc ≠ some (.setSoundTimer x)) →
        (start count).machine.timers.sound.toNat = sound - count ∧
          ∀ done < count, ∃ report, ((start done).cycled policy).report = some report ∧
            (report.soundEdge = true ↔ done + 1 = sound)) := by
  intro start delay sound
  constructor
  · intro unset
    have fallen (reached : Nat) (within : reached ≤ count) :
        (start reached).machine.timers.delay.toNat = delay - reached :=
      toNat_timer_after policy (fun _ => rfl) bound fun done early =>
        delay_timersLeft policy (unset done (Nat.lt_of_lt_of_le early within))
    refine ⟨fallen count (Nat.le_refl count), ?_⟩
    intro done early x reads
    rw [register_next_of_readDelayTimer policy reads]
    exact fallen done (Nat.le_of_lt early)
  · intro unset
    have fallen (reached : Nat) (within : reached ≤ count) :
        (start reached).machine.timers.sound.toNat = sound - reached :=
      toNat_timer_after policy (fun _ => rfl) bound fun done early =>
        sound_timersLeft policy (unset done (Nat.lt_of_lt_of_le early within))
    refine ⟨fallen count (Nat.le_refl count), ?_⟩
    intro done early
    obtain ⟨report, reported, edge⟩ :=
      soundEdge_cycled policy (sp_le_after policy bound keys done)
    refine ⟨report, reported, ?_⟩
    have left : (start done).machine.timers.sound.toNat = sound - done :=
      fallen done (Nat.le_of_lt early)
    rw [edge, Timers.soundExpires_eq_true_iff, sound_timersLeft policy (unset done early), left]
    omega

/-- A sprite without rows, a read of the delay timer and a call that is refused over and over. -/
theorem timers_fall_in_every_cycle_of_refused_call :
    let machine : Machine := {
      memory := ((((Vector.replicate _ 0).set 0 0xD0).set 2 0xF1).set 3 0x07).set 4 0x22
      pc := 0
      sp := 16
      timers := { delay := 9, sound := 2 } }
    let moment : Moment Silence := { machine, source := Silence.mk }
    let start := moment.after .stall fun _ keypad => keypad
    machine.sp.toNat ≤ stackDepth ∧
      (∀ done < 4, ∀ x,
        Instruction.decode? (start done).machine.wordAtPc ≠ some (.setDelayTimer x)) ∧
      (∀ done < 4, ∀ x,
        Instruction.decode? (start done).machine.wordAtPc ≠ some (.setSoundTimer x)) ∧
      Instruction.decode? (start 1).machine.wordAtPc = some (.readDelayTimer 1) ∧
      (start 4).machine.timers.delay.toNat = 5 ∧
      (((start 1).next .stall).machine.register 1).toNat = 8 ∧
      (start 4).machine.timers.sound.toNat = 0 ∧
      (∃ report, ((start 1).cycled .stall).report = some report ∧ report.soundEdge = true) ∧
      ∃ report, ((start 2).cycled .stall).report = some report ∧ report.soundEdge = false := by
  intro machine moment start
  have bound : machine.sp.toNat ≤ stackDepth := Nat.le_refl 16
  have delayUnset : ∀ done < 4, ∀ x,
      Instruction.decode? (start done).machine.wordAtPc ≠ some (.setDelayTimer x) := by
    decide +kernel
  have soundUnset : ∀ done < 4, ∀ x,
      Instruction.decode? (start done).machine.wordAtPc ≠ some (.setSoundTimer x) := by
    decide +kernel
  have reads : Instruction.decode? (start 1).machine.wordAtPc = some (.readDelayTimer 1) := by
    decide +kernel
  obtain ⟨delays, sounds⟩ :=
    timers_fall_in_every_cycle .stall (fun _ keypad => keypad) moment bound 4
  obtain ⟨delay, stored⟩ := delays delayUnset
  obtain ⟨sound, edges⟩ := sounds soundUnset
  obtain ⟨second, secondReported, ended⟩ := edges 1 (by decide)
  obtain ⟨third, thirdReported, silent⟩ := edges 2 (by decide)
  refine ⟨bound, delayUnset, soundUnset, reads, delay, stored 1 (by decide) 1 reads, sound,
    ⟨second, secondReported, ended.mpr rfl⟩, third, thirdReported, ?_⟩
  rw [← Bool.not_eq_true]
  intro edge
  exact absurd (silent.mp edge) (by decide)

end Moment
end Chip8

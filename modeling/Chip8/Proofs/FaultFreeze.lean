import Chip8.Machine.Loading
import Chip8.Proofs.Run
import Chip8.Random.Keystream

/-!
# Faults

When a cycle meets a fault, what it does to the machine then, and how the machine
stays in place: a call without a free slot is met again for ever, and so is an
unknown word that is not stepped over. Meanwhile the timers run down and the host
may press keys.
-/

set_option autoImplicit false

namespace Chip8

theorem Instruction.decode?_call {word target : UInt16}
    (decoded : decode? word = some (.call target)) : target = Word.nnn word := by
  unfold decode? at decoded
  split at decoded <;> try split at decoded
  all_goals first | (cases decoded; done) | (cases decoded; rfl)

/-- What the next cycle of a machine stumbles over. -/
inductive Machine.Meets (machine : Machine) : Fault → Prop
  | unknownOpcode (unknown : Instruction.decode? machine.wordAtPc = none) :
      machine.Meets (.unknownOpcode machine.wordAtPc machine.pc)
  | stackOverflow
      (called : Instruction.decode? machine.wordAtPc = some (.call (Word.nnn machine.wordAtPc)))
      (full : machine.sp.toNat = stackDepth) :
      machine.Meets (.stackOverflow machine.pc (Word.nnn machine.wordAtPc))

namespace Fault

def resumeAt (fault : Fault) (policy : UnknownOpcodePolicy) (pc : UInt16) : UInt16 :=
  match fault, policy with
  | .unknownOpcode .., .skip => pc + 2
  | _, _ => pc

/-- The fault is met again in the next cycle. -/
def Lasts (fault : Fault) (policy : UnknownOpcodePolicy) : Prop :=
  match fault, policy with
  | .unknownOpcode .., .skip => False
  | _, _ => True

theorem Lasts.resumeAt_eq {fault : Fault} {policy : UnknownOpcodePolicy}
    (lasts : fault.Lasts policy) (pc : UInt16) : fault.resumeAt policy pc = pc := by
  cases fault with
  | unknownOpcode opcode place =>
      cases policy with
      | stall => rfl
      | skip => exact lasts.elim
  | stackOverflow place target => rfl

end Fault

variable {σ : Type} [ByteSource σ]

/-! ## One cycle -/

theorem fault?_cycle_eq_some_iff (policy : UnknownOpcodePolicy) {machine : Machine} (source : σ)
    (bound : machine.sp.toNat ≤ stackDepth) (fault : Fault) :
    (cycle policy machine source).value.fault? = some fault ↔ machine.Meets fault := by
  constructor
  · intro raised
    rw [fault?_cycle] at raised
    cases decoded : Instruction.decode? machine.wordAtPc with
    | none =>
        rw [decoded] at raised
        cases raised
        exact .unknownOpcode decoded
    | some instruction =>
        rw [decoded] at raised
        cases instruction with
        | call target =>
            obtain rfl := Instruction.decode?_call decoded
            by_cases free : machine.sp.toNat < stackDepth
            · simp [free] at raised
            · simp only [free, ↓reduceIte, Option.some.injEq] at raised
              subst raised
              exact .stackOverflow decoded (Nat.le_antisymm bound (Nat.le_of_not_lt free))
        | _ => cases raised
  · intro meets
    rw [fault?_cycle]
    cases meets with
    | unknownOpcode unknown => simp only [unknown]
    | stackOverflow called full => simp only [called, full, Nat.lt_irrefl, ↓reduceIte]

namespace Machine.Meets

variable {machine : Machine} {fault : Fault}

theorem attempt_eq (meets : machine.Meets fault) (policy : UnknownOpcodePolicy) (source : σ) :
    attempt policy machine source = {
      machine := { machine.fetch with pc := fault.resumeAt policy machine.pc }
      source
      obstacle := some (.fault fault) } := by
  cases meets with
  | unknownOpcode unknown =>
      cases policy <;> simp only [attempt, unknown] <;> rfl
  | stackOverflow called full =>
      have taken : ¬ machine.fetch.sp.toNat < stackDepth := by
        have same : machine.fetch.sp.toNat = machine.sp.toNat := rfl
        omega
      simp only [attempt, called, execute, machine.fetch.called?_eq_none _ taken, Logged.value_pure]
      rfl

/-- A faulting cycle takes up the word, lets the timers fall and does nothing else,
unless it steps over the word. -/
theorem value_cycle (meets : machine.Meets fault) (policy : UnknownOpcodePolicy) (source : σ) :
    (cycle policy machine source).value = {
      machine := { machine with
        opcode := machine.wordAtPc
        timers := machine.timers.tick
        pc := fault.resumeAt policy machine.pc }
      source
      report := some {
        opcode := machine.wordAtPc
        soundEdge := machine.timers.soundExpires
        fault := some fault } } := by
  rw [Chip8.value_cycle, meets.attempt_eq policy source, Executed.ended, if_neg (by simp)]
  rfl

theorem of_idle (meets : machine.Meets fault) (opcode : UInt16) (timers : Timers)
    (keypad : Keypad) : ({ machine with opcode, timers, keypad } : Machine).Meets fault := by
  cases meets with
  | unknownOpcode unknown => exact .unknownOpcode unknown
  | stackOverflow called full => exact .stackOverflow called full

end Machine.Meets

/-! ## All cycles after it -/

/-- The keys before a cycle, as the host alone changes them. -/
def Keypad.after (keypad : Keypad) (keys : Nat → Keypad → Keypad) : Nat → Keypad
  | 0 => keys 0 keypad
  | count + 1 => keys (count + 1) (after keypad keys count)

namespace Moment

/-- A moment that differs from an earlier one only in the keys, which are as the host
set them meanwhile, and in the timers, which fell once in each of so many cycles. -/
structure IdleSince (now earlier : Moment σ) (keys : Nat → Keypad → Keypad) (count : Nat) :
    Prop where
  machine : now.machine = { earlier.machine with
    keypad := earlier.machine.keypad.after keys count
    timers := now.machine.timers }
  delay : now.machine.timers.delay.toNat = earlier.machine.timers.delay.toNat - count
  sound : now.machine.timers.sound.toNat = earlier.machine.timers.sound.toNat - count
  source : now.source = earlier.source

namespace IdleSince

variable {now earlier : Moment σ} {keys : Nat → Keypad → Keypad} {count : Nat}

omit [ByteSource σ] in
theorem wordAtPc_eq (idle : now.IdleSince earlier keys count) :
    now.machine.wordAtPc = earlier.machine.wordAtPc := by
  rw [idle.machine]
  rfl

omit [ByteSource σ] in
theorem pc_eq (idle : now.IdleSince earlier keys count) :
    now.machine.pc = earlier.machine.pc := by
  rw [idle.machine]

omit [ByteSource σ] in
theorem meets (idle : now.IdleSince earlier keys count) {fault : Fault}
    (met : earlier.machine.Meets fault) : now.machine.Meets fault := by
  rw [idle.machine]
  exact met.of_idle _ _ _

omit [ByteSource σ] in
theorem ticked (idle : now.IdleSince earlier keys count) :
    (({ now with machine := { now.machine with timers := now.machine.timers.tick } } :
      Moment σ).pressed (keys (count + 1))).IdleSince earlier keys (count + 1) := by
  refine ⟨?_, ?_, ?_, idle.source⟩
  · dsimp only [pressed]
    rw [idle.machine]
    rfl
  · have fallen : now.machine.timers.tick.delay.toNat = now.machine.timers.delay.toNat - 1 :=
      Timers.toNat_countDown _
    dsimp only [pressed]
    rw [fallen, idle.delay]
    omega
  · have fallen : now.machine.timers.tick.sound.toNat = now.machine.timers.sound.toNat - 1 :=
      Timers.toNat_countDown _
    dsimp only [pressed]
    rw [fallen, idle.sound]
    omega

theorem next (idle : now.IdleSince earlier keys count) {fault : Fault}
    (met : earlier.machine.Meets fault) (fetched : earlier.machine.opcode = earlier.machine.wordAtPc)
    {policy : UnknownOpcodePolicy} (lasts : fault.Lasts policy) :
    ((now.next policy).pressed (keys (count + 1))).IdleSince earlier keys (count + 1) := by
  have cycled := (idle.meets met).value_cycle policy now.source
  rw [lasts.resumeAt_eq] at cycled
  have word : now.machine.wordAtPc = now.machine.opcode := by
    rw [idle.wordAtPc_eq, ← fetched, idle.machine]
  have later : now.next policy =
      { now with machine := { now.machine with timers := now.machine.timers.tick } } := by
    rw [Moment.next, Moment.cycled, cycled, word]
  rw [later]
  exact idle.ticked

end IdleSince

variable {policy : UnknownOpcodePolicy} {fault : Fault}

theorem idleSince_after {earlier : Moment σ} (met : earlier.machine.Meets fault)
    (fetched : earlier.machine.opcode = earlier.machine.wordAtPc) (lasts : fault.Lasts policy)
    (keys : Nat → Keypad → Keypad) (count : Nat) :
    (earlier.after policy keys count).IdleSince earlier keys count := by
  induction count with
  | zero => exact ⟨rfl, rfl, rfl, rfl⟩
  | succ count ih => exact ih.next met fetched lasts

/-- A cycle reports the fault that its machine meets, if any. It then changes the word
fetched last, the timers and, where it steps over an unknown word, the program counter,
and takes no random byte. If the fault lasts, all later cycles report it again, and the
machine differs from the one left by the first of them in its keys, which are as the
host sets them, and in its timers, which run down. -/
theorem fault_freezes_machine (policy : UnknownOpcodePolicy) (moment : Moment σ)
    (bound : moment.machine.sp.toNat ≤ stackDepth) :
    (∃ report, (moment.cycled policy).report = some report ∧
      report.opcode = moment.machine.wordAtPc ∧
      ∀ fault, report.fault = some fault ↔ moment.machine.Meets fault) ∧
    ∀ fault, moment.machine.Meets fault →
      let stuck := moment.next policy
      stuck.machine = { moment.machine with
        opcode := moment.machine.wordAtPc
        timers := moment.machine.timers.tick
        pc := fault.resumeAt policy moment.machine.pc } ∧
      stuck.source = moment.source ∧
      (fault.Lasts policy → ∀ (keys : Nat → Keypad → Keypad) (count : Nat),
        let now := stuck.after policy keys count
        now.IdleSince stuck keys count ∧
          ∃ report, (now.cycled policy).report = some report ∧
            report.opcode = moment.machine.wordAtPc ∧ report.fault = some fault) := by
  refine ⟨?_, ?_⟩
  · have inside : moment.machine.popped.sp.toNat < stackDepth := Machine.toNat_sp_popped_lt bound
    have cycled := value_cycle_of_inside policy moment.machine moment.source inside
    exact ⟨_, congrArg Cycled.report cycled, rfl,
      fault?_cycle_eq_some_iff policy moment.source bound⟩
  · intro fault met stuck
    have cycled := met.value_cycle policy moment.source
    have machine : stuck.machine = _ := congrArg Cycled.machine cycled
    refine ⟨machine, congrArg Cycled.source cycled, ?_⟩
    intro lasts keys count now
    rw [lasts.resumeAt_eq] at machine
    have metAgain : stuck.machine.Meets fault := machine ▸ met.of_idle _ _ _
    have fetched : stuck.machine.opcode = stuck.machine.wordAtPc := by
      rw [machine]
      rfl
    have idle : now.IdleSince stuck keys count := idleSince_after metAgain fetched lasts keys count
    have again := (idle.meets metAgain).value_cycle policy now.source
    refine ⟨idle, _, congrArg Cycled.report again, ?_, rfl⟩
    dsimp only
    rw [idle.wordAtPc_eq, machine]
    rfl

/-- A call on a full stack, while both timers run and a key goes down. -/
theorem fault_freezes_machine_on_full_stack :
    let machine : Machine := { Machine.withProgram #[0x22, 0x34] with
      sp := 16
      timers := { delay := 9, sound := 2 } }
    let moment : Moment Keystream := { machine, source := Keystream.ofSeed 0 }
    let fault := Fault.stackOverflow 0x200 0x234
    let now := (moment.next .skip).after .skip (fun _ keypad => keypad.set 7 true) 3
    machine.sp.toNat ≤ stackDepth ∧ machine.Meets fault ∧ fault.Lasts .skip ∧
      now.machine.timers.delay.toNat = 5 ∧ now.machine.timers.sound.toNat = 0 ∧
      ∃ report, (now.cycled .skip).report = some report ∧ report.fault = some fault := by
  intro machine moment fault now
  have word : machine.wordAtPc = 0x2234 := Machine.wordAtPc_of_loaded rfl (by decide)
  have called : Instruction.decode? machine.wordAtPc =
      some (.call (Word.nnn machine.wordAtPc)) := by
    rw [word]
    decide
  have met : machine.Meets fault := by
    have overflow := Machine.Meets.stackOverflow called rfl
    rw [word] at overflow
    exact overflow
  have bound : machine.sp.toNat ≤ stackDepth := Nat.le_refl 16
  obtain ⟨stuck, -, frozen⟩ := (fault_freezes_machine .skip moment bound).2 fault met
  obtain ⟨idle, report, reported, -, again⟩ := frozen trivial (fun _ keypad => keypad.set 7 true) 3
  have ticked : ({ delay := 9, sound := 2 } : Timers).tick = { delay := 8, sound := 1 } := by
    decide
  refine ⟨bound, met, trivial, ?_, ?_, report, reported, again⟩
  · rw [idle.delay, stuck]
    exact congrArg (fun timers : Timers => timers.delay.toNat - 3) ticked
  · rw [idle.sound, stuck]
    exact congrArg (fun timers : Timers => timers.sound.toNat - 3) ticked

end Moment
end Chip8

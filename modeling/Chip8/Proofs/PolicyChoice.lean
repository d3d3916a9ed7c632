import Chip8.Proofs.FaultFreeze
import Mathlib.Data.List.Basic

/-!
# The choice of a policy

What a policy says about unknown words counts for nothing until such a word is met.
Up to the report of that word, runs under different policies are the same run. The
cycle that meets it then leaves them at different places of the program, and with
nothing else between them.
-/

set_option autoImplicit false

namespace Chip8

variable {σ : Type}

def CycleReport.MeetsUnknown (report : CycleReport) : Prop :=
  ∃ opcode pc, report.fault = some (.unknownOpcode opcode pc)

section Cycles

variable [ByteSource σ] (policy other : UnknownOpcodePolicy) (machine : Machine) (source : σ)

theorem cycle_of_known {instruction : Instruction Register}
    (known : Instruction.decode? machine.wordAtPc = some instruction) :
    cycle other machine source = cycle policy machine source := by
  have word : Instruction.decode? machine.fetch.opcode = some instruction := known
  simp only [cycle, word]

theorem report_cycle_of_policy :
    (cycle other machine source).value.report = (cycle policy machine source).value.report := by
  cases decoded : Instruction.decode? machine.wordAtPc with
  | none =>
      have met := Machine.Meets.unknownOpcode decoded
      rw [met.value_cycle other source, met.value_cycle policy source]
  | some instruction => rw [cycle_of_known policy other machine source decoded]

variable {policy machine source} in
theorem decode?_of_meetsUnknown {report : CycleReport}
    (given : (cycle policy machine source).value.report = some report)
    (unknown : report.MeetsUnknown) : Instruction.decode? machine.wordAtPc = none := by
  obtain ⟨opcode, pc, fault⟩ := unknown
  have raised : (cycle policy machine source).value.fault? = some (.unknownOpcode opcode pc) := by
    rw [Cycled.fault?, given, Option.bind_some, fault]
  rw [fault?_cycle] at raised
  cases decoded : Instruction.decode? machine.wordAtPc with
  | none => rfl
  | some instruction =>
      rw [decoded] at raised
      cases instruction with
      | call target =>
          dsimp only at raised
          split at raised <;> cases raised
      | _ => cases raised

end Cycles

namespace Moment

def steppedOver (moment : Moment σ) : Moment σ :=
  { moment with machine := { moment.machine with pc := moment.machine.pc + 2 } }

variable [ByteSource σ] (policy other : UnknownOpcodePolicy) (moment : Moment σ)

def bytesTaken (count : Nat) : List UInt8 :=
  (List.range count).filterMap fun done => (moment.later policy done).draw?

variable {moment} in
theorem meetsUnknown_of_decode?
    (unknown : Instruction.decode? moment.machine.wordAtPc = none) :
    ∃ report, (moment.cycled policy).report = some report ∧ report.MeetsUnknown := by
  have cycled := (Machine.Meets.unknownOpcode unknown).value_cycle policy moment.source
  rw [Moment.cycled, cycled]
  exact ⟨_, rfl, moment.machine.wordAtPc, moment.machine.pc, rfl⟩

theorem next_unknown (unknown : Instruction.decode? moment.machine.wordAtPc = none) :
    moment.next .skip = (moment.next .stall).steppedOver := by
  have met := Machine.Meets.unknownOpcode unknown
  have skipped := met.value_cycle .skip moment.source
  have stalled := met.value_cycle .stall moment.source
  rw [Moment.next, Moment.next, Moment.cycled, Moment.cycled, skipped, stalled]
  rfl

def KnownFor (count : Nat) : Prop :=
  ∀ report, some report ∈ moment.reports policy count → ¬ report.MeetsUnknown

namespace KnownFor

variable {policy moment} {count : Nat}

theorem decode? (known : moment.KnownFor policy count) {done : Nat} (inside : done < count) :
    ∃ instruction,
      Instruction.decode? (moment.later policy done).machine.wordAtPc = some instruction := by
  cases decoded : Instruction.decode? (moment.later policy done).machine.wordAtPc with
  | some instruction => exact ⟨instruction, rfl⟩
  | none =>
      obtain ⟨report, given, unknown⟩ := meetsUnknown_of_decode? policy decoded
      have listed : some report ∈ moment.reports policy count :=
        List.mem_map.mpr ⟨done, List.mem_range.mpr inside, given⟩
      exact absurd unknown (known report listed)

theorem later_eq (known : moment.KnownFor policy count) {done : Nat} (within : done ≤ count) :
    moment.later other done = moment.later policy done := by
  induction done with
  | zero => rfl
  | succ done ih =>
      obtain ⟨instruction, decoded⟩ := known.decode? within
      have same := cycle_of_known policy other _ (moment.later policy done).source decoded
      rw [later_add, later_add, ih (Nat.le_of_lt within)]
      exact congrArg (fun done => (⟨done.value.machine, done.value.source⟩ : Moment σ)) same

/-- The first unknown word, too, is reported alike and takes no byte. -/
theorem reports_eq (known : moment.KnownFor policy count) :
    moment.reports other (count + 1) = moment.reports policy (count + 1) ∧
      moment.bytesTaken other (count + 1) = moment.bytesTaken policy (count + 1) := by
  have later : ∀ done ∈ List.range (count + 1),
      moment.later other done = moment.later policy done := by
    intro done member
    exact known.later_eq other (Nat.le_of_lt_succ (List.mem_range.mp member))
  constructor
  · apply List.map_congr_left
    intro done member
    rw [later done member]
    exact report_cycle_of_policy policy other _ _
  · apply List.filterMap_congr
    intro done member
    rw [later done member]

end KnownFor

theorem reports_isSome {moment : Moment σ} (bound : moment.machine.sp.toNat ≤ stackDepth)
    (count : Nat) : ∀ report ∈ moment.reports policy count, report.isSome = true := by
  intro report member
  obtain ⟨done, -, rfl⟩ := List.mem_map.mp member
  have inside := Machine.toNat_sp_popped_lt (sp_le_later policy bound done)
  exact report_cycle_isSome policy _ _ inside

/-- As long as no unknown word is met, all policies make the same run: the same moments
between its cycles, the same reports and the same random bytes. The first unknown word
is still reported alike, and leaves a run that steps over it one instruction ahead of
a run that does not, with no other difference. -/
theorem policy_matters_at_unknown_words (policy other : UnknownOpcodePolicy) (moment : Moment σ)
    (bound : moment.machine.sp.toNat ≤ stackDepth) {count : Nat}
    (known : moment.KnownFor policy count) :
    (∀ report ∈ moment.reports policy (count + 1), report.isSome = true) ∧
      (∀ done ≤ count, moment.later other done = moment.later policy done) ∧
      moment.reports other (count + 1) = moment.reports policy (count + 1) ∧
      moment.bytesTaken other (count + 1) = moment.bytesTaken policy (count + 1) ∧
      ∀ report, ((moment.later policy count).cycled policy).report = some report →
        report.MeetsUnknown →
        moment.later .skip (count + 1) = (moment.later .stall (count + 1)).steppedOver := by
  obtain ⟨reports, bytes⟩ := known.reports_eq other
  refine ⟨reports_isSome policy bound (count + 1), ?_, reports, bytes, ?_⟩
  · intro done within
    exact known.later_eq other within
  · intro report given met
    have unknown := decode?_of_meetsUnknown given met
    rw [later_add, later_add, known.later_eq .skip (Nat.le_refl count),
      known.later_eq .stall (Nat.le_refl count)]
    exact next_unknown _ unknown

theorem later_one_of_random {moment : Moment σ} {x : Register} {mask : UInt8}
    (random : Instruction.decode? moment.machine.wordAtPc = some (.random x mask)) :
    moment.KnownFor policy 1 ∧
      (moment.later policy 1).machine.wordAtPc =
        ({ moment.machine with pc := moment.machine.pc + 2 } : Machine).wordAtPc := by
  have cycled := value_cycle_random policy moment.source random
  constructor
  · intro report member
    have given : some report = (cycle policy moment.machine moment.source).value.report :=
      List.mem_singleton.mp member
    rw [cycled] at given
    cases given
    rintro ⟨opcode, pc, fault⟩
    cases fault
  · have machine : (moment.later policy 1).machine = _ := congrArg Cycled.machine cycled
    rw [machine]
    rfl

/-- A random byte, and then a word that encodes nothing. -/
theorem policy_matters_at_unknown_words_after_random :
    let moment : Moment Keystream := {
      machine := Machine.withProgram #[0xC0, 0xFF, 0xF0, 0xFF]
      source := Keystream.ofSeed 7 }
    moment.machine.sp.toNat ≤ stackDepth ∧ moment.KnownFor .stall 1 ∧
      moment.reports .skip 2 = moment.reports .stall 2 ∧
      moment.bytesTaken .skip 2 = moment.bytesTaken .stall 2 ∧
      moment.later .skip 2 = (moment.later .stall 2).steppedOver := by
  intro moment
  have bound : moment.machine.sp.toNat ≤ stackDepth := Nat.zero_le _
  have random : Instruction.decode? moment.machine.wordAtPc = some (.random 0 0xFF) :=
    Machine.decode?_of_loaded rfl (by decide)
  obtain ⟨known, word⟩ := later_one_of_random .stall random
  have next : Instruction.decode? (moment.later .stall 1).machine.wordAtPc = none := by
    rw [word]
    apply Machine.decode?_of_loaded
    · exact rfl
    · decide
  obtain ⟨report, given, unknown⟩ := meetsUnknown_of_decode? .stall next
  obtain ⟨-, -, reports, bytes, apart⟩ :=
    policy_matters_at_unknown_words .stall .skip moment bound known
  exact ⟨bound, known, reports, bytes, apart report given unknown⟩

end Moment
end Chip8

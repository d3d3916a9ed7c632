import Chip8.Proofs.LogSelection
import Chip8.Proofs.Numeral
import Chip8.Proofs.PolicyChoice

/-!
# The instruction trace

With instructions and unknown words shown and all else left out, the log of a run is one
line for each cycle, and one more after a call that was refused. The lines are told
apart by their words, so where each cycle was, which word it met and how it failed can
be read back from the log.
-/

set_option autoImplicit false

namespace Chip8

open Log (Journal Level Levels)
open Text (hex words wordValue)

/-! ## Levels for a trace -/

/-- Instructions and unknown words are shown; the other categories defer to a level that
shows nothing. -/
structure Log.Levels.TraceInstructions (levels : Levels) : Prop where
  overall : levels.overall = .off
  cpu : levels.own.get .cpu = .trace
  stubs : Level.warn.rank ≤ (levels.own.get .stubs).rank
  others : ∀ category, category ≠ .cpu → category ≠ .stubs → levels.own.get category = .off

theorem Event.level_of_stubs {event : Event} (stubs : event.category = .stubs) :
    event.level = .warn := by
  cases event with
  | faultRaised fault => rfl
  | _ => cases stubs

theorem Log.Levels.TraceInstructions.allowedBy {levels : Levels}
    (traces : levels.TraceInstructions) (event : Event) :
    event.allowedBy levels = (event.category == .cpu || event.category == .stubs) := by
  rw [Bool.eq_iff_iff, Levels.allowedBy_eq_true_iff, Bool.or_eq_true, beq_iff_eq, beq_iff_eq]
  constructor
  · rintro ⟨shown, low⟩
    by_contra neither
    rw [not_or] at neither
    obtain ⟨notCpu, notStubs⟩ := neither
    rw [traces.others _ notCpu notStubs, traces.overall] at low
    apply shown
    cases level : event.level <;> simp [level, Level.rank] at low ⊢
  · rintro (cpu | stubs)
    · refine ⟨event.level_ne_off, ?_⟩
      rw [cpu, traces.cpu]
      exact event.level.rank_le_trace
    · refine ⟨event.level_ne_off, ?_⟩
      have fine := traces.stubs
      rw [stubs, Event.level_of_stubs stubs]
      split
      next off =>
        rw [off] at fine
        cases fine
      next => exact fine

/-! ## The lines of a cycle -/

namespace Machine

variable (machine : Machine)

def headEvent : Event :=
  match Instruction.decode? machine.wordAtPc with
  | some instruction => .instructionFetched machine.pc machine.wordAtPc instruction
  | none => .faultRaised (.unknownOpcode machine.wordAtPc machine.pc)

def refusalEvent? : Option Event :=
  match Instruction.decode? machine.wordAtPc with
  | some (.call target) =>
      if machine.sp.toNat < stackDepth then none
      else some (.faultRaised (.stackOverflow machine.pc target))
  | _ => none

def traceLines : List String := (machine.headEvent :: machine.refusalEvent?.toList).map Event.line

end Machine

section Cycles

variable {σ : Type} [ByteSource σ] (policy : UnknownOpcodePolicy) (machine : Machine) (source : σ)

theorem filter_events_execute {levels : Levels} (traces : levels.TraceInstructions)
    (instruction : Instruction Register) :
    (execute instruction machine source).events.filter (·.allowedBy levels) = [] := by
  rw [events_execute]
  simp only [traces.allowedBy]
  cases instruction with
  | waitForKey x => cases machine.keypad.firstPressed? <;> rfl
  | _ => rfl

theorem filter_events_cycle {levels : Levels} (traces : levels.TraceInstructions) :
    (cycle policy machine source).events.filter (·.allowedBy levels) =
      machine.headEvent :: machine.refusalEvent?.toList := by
  have silent : ∀ tone : Bool, (if tone then [Event.toneEnded] else []).filter
      (·.allowedBy levels) = [] := by
    intro tone
    simp only [traces.allowedBy]
    cases tone <;> rfl
  have raised : ∀ fault, (Event.faultRaised fault).allowedBy levels = true := by
    intro fault
    rw [traces.allowedBy]
    cases fault <;> rfl
  have fetched : ∀ pc opcode instruction,
      (Event.instructionFetched pc opcode instruction).allowedBy levels = true := by
    intro pc opcode instruction
    rw [traces.allowedBy]
    rfl
  rw [events_cycle, List.filter_append, List.filter_append, silent, List.append_nil, fault?_attempt,
    fault?_cycle, Machine.headEvent, Machine.refusalEvent?]
  cases Instruction.decode? machine.wordAtPc with
  | none => simp [raised]
  | some instruction =>
      simp only [List.filter_cons, fetched, filter_events_execute _ _ traces]
      cases instruction with
      | call target => by_cases free : machine.sp.toNat < stackDepth <;> simp [free, raised]
      | _ => rfl

end Cycles

/-! ## Reading lines -/

inductive Remark where
  | executed (pc opcode : UInt16)
  | faulted (fault : Fault)

namespace Remark

/-- The third word tells what kind of line it is. -/
def ofWords? : List String → Option Remark
  | _ :: pc :: "" :: opcode :: _ => some (.executed (wordValue pc) (wordValue opcode))
  | [_, _, "opcode", opcode, _, pc] =>
      some (.faulted (.unknownOpcode (wordValue opcode) (wordValue pc)))
  | _ :: _ :: "overflow:" :: _ :: target :: _ :: pc :: _ =>
      some (.faulted (.stackOverflow (wordValue pc) (wordValue target)))
  | _ => none

def ofLine? (line : String) : Option Remark := ofWords? (words line)

theorem words_line (event : Event) : words event.line = "CHIP-8:" :: words event.description := by
  have solid : ' ' ∉ "CHIP-8:".toList := by decide
  exact Text.words_append solid event.description

theorem ofLine?_instructionFetched (pc opcode : UInt16) (instruction : Instruction Register) :
    ofLine? (Event.instructionFetched pc opcode instruction).line =
      some (.executed pc opcode) := by
  have message : (Event.instructionFetched pc opcode instruction).description =
      hex 3 pc.toNat ++ "  " ++ hex 4 opcode.toNat ++ "  " ++ instruction.mnemonic Fin.val := rfl
  have gap : "  " = " " ++ " " := by decide
  have parts : (Event.instructionFetched pc opcode instruction).description =
      hex 3 pc.toNat ++ " " ++ ("" ++ " " ++ (hex 4 opcode.toNat ++ " " ++ ("" ++ " " ++
        instruction.mnemonic Fin.val))) := by
    rw [message, gap]
    simp only [String.append_assoc, String.empty_append, -String.reduceAppend]
  have solid : ' ' ∉ "".toList := by decide
  rw [ofLine?, words_line, parts, Text.words_append (Text.solid_hex _ _),
    Text.words_append solid, Text.words_append (Text.solid_hex _ _)]
  simp only [ofWords?, Text.wordValue_hex]

theorem ofLine?_unknownOpcode (opcode pc : UInt16) :
    ofLine? (Event.faultRaised (.unknownOpcode opcode pc)).line =
      some (.faulted (.unknownOpcode opcode pc)) := by
  have message : (Event.faultRaised (.unknownOpcode opcode pc)).description =
      "unknown opcode " ++ hex 4 opcode.toNat ++ " at " ++ hex 3 pc.toNat := rfl
  have start : "unknown opcode " = "unknown" ++ (" " ++ ("opcode" ++ " ")) := by decide
  have middle : " at " = " " ++ ("at" ++ " ") := by decide
  have parts : (Event.faultRaised (.unknownOpcode opcode pc)).description =
      "unknown" ++ " " ++ ("opcode" ++ " " ++ (hex 4 opcode.toNat ++ " " ++ ("at" ++ " " ++
        hex 3 pc.toNat))) := by
    rw [message, start, middle]
    simp only [String.append_assoc, -String.reduceAppend]
  have first : ' ' ∉ "unknown".toList := by decide
  have second : ' ' ∉ "opcode".toList := by decide
  have place : ' ' ∉ "at".toList := by decide
  rw [ofLine?, words_line, parts, Text.words_append first, Text.words_append second,
    Text.words_append (Text.solid_hex _ _), Text.words_append place,
    Text.words_of_solid (Text.solid_hex _ _)]
  simp only [ofWords?, Text.wordValue_hex]

theorem ofLine?_stackOverflow (pc target : UInt16) :
    ofLine? (Event.faultRaised (.stackOverflow pc target)).line =
      some (.faulted (.stackOverflow pc target)) := by
  have message : (Event.faultRaised (.stackOverflow pc target)).description =
      "stack overflow: CALL " ++ hex 3 target.toNat ++ " at " ++ hex 3 pc.toNat ++
        " with 16 frames in use" := rfl
  have start : "stack overflow: CALL " =
      "stack" ++ (" " ++ ("overflow:" ++ (" " ++ ("CALL" ++ " ")))) := by decide
  have middle : " at " = " " ++ ("at" ++ " ") := by decide
  have rest : " with 16 frames in use" = " " ++ "with 16 frames in use" := by decide
  have parts : (Event.faultRaised (.stackOverflow pc target)).description =
      "stack" ++ " " ++ ("overflow:" ++ " " ++ ("CALL" ++ " " ++ (hex 3 target.toNat ++ " " ++
        ("at" ++ " " ++ (hex 3 pc.toNat ++ " " ++ "with 16 frames in use"))))) := by
    rw [message, start, middle, rest]
    simp only [String.append_assoc, -String.reduceAppend]
  have first : ' ' ∉ "stack".toList := by decide
  have second : ' ' ∉ "overflow:".toList := by decide
  have third : ' ' ∉ "CALL".toList := by decide
  have place : ' ' ∉ "at".toList := by decide
  rw [ofLine?, words_line, parts, Text.words_append first, Text.words_append second,
    Text.words_append third, Text.words_append (Text.solid_hex _ _), Text.words_append place,
    Text.words_append (Text.solid_hex _ _)]
  simp only [ofWords?, Text.wordValue_hex]

end Remark

/-! ## Reading a trace -/

structure TracedCycle where
  pc : UInt16
  opcode : UInt16
  fault : Option Fault
  deriving DecidableEq

namespace TracedCycle

/-- Takes in one more line, with the latest cycle at the head. A refused call was told
of before. -/
def absorb (past : List TracedCycle) (line : String) : List TracedCycle :=
  match Remark.ofLine? line, past with
  | some (.executed pc opcode), past => { pc, opcode, fault := none } :: past
  | some (.faulted (.unknownOpcode opcode pc)), past =>
      { pc, opcode, fault := some (.unknownOpcode opcode pc) } :: past
  | some (.faulted (.stackOverflow pc target)), last :: earlier =>
      { last with fault := some (.stackOverflow pc target) } :: earlier
  | _, past => past

def ofLines (lines : List String) : List TracedCycle := (lines.foldl absorb []).reverse

end TracedCycle

namespace Moment

variable {σ : Type} [ByteSource σ] (policy : UnknownOpcodePolicy) (moment : Moment σ)

def traced : TracedCycle where
  pc := moment.machine.pc
  opcode := moment.machine.wordAtPc
  fault := (moment.cycled policy).fault?

/-- Where each of a number of cycles was, which word it met and how it failed. -/
def trace (count : Nat) : List TracedCycle :=
  (List.range count).map fun done => (moment.later policy done).traced policy

/-- All that a number of cycles have to tell. -/
def told (count : Nat) : List Event :=
  (List.range count).flatMap fun done =>
    (cycle policy (moment.later policy done).machine (moment.later policy done).source).events

theorem foldl_absorb_traceLines (past : List TracedCycle) :
    moment.machine.traceLines.foldl TracedCycle.absorb past = moment.traced policy :: past := by
  have fault : (moment.cycled policy).fault? = _ := fault?_cycle policy moment.machine moment.source
  rw [traced, fault, Machine.traceLines, Machine.headEvent, Machine.refusalEvent?]
  cases Instruction.decode? moment.machine.wordAtPc with
  | none =>
      simp only [Option.toList_none, List.map_singleton, List.foldl_cons, List.foldl_nil,
        TracedCycle.absorb, Remark.ofLine?_unknownOpcode]
  | some instruction =>
      simp only [List.map_cons, List.foldl_cons, TracedCycle.absorb,
        Remark.ofLine?_instructionFetched]
      cases instruction with
      | call target =>
          by_cases free : moment.machine.sp.toNat < stackDepth
          · simp only [free, ↓reduceIte, Option.toList_none, List.map_nil, List.foldl_nil]
          · simp only [free, ↓reduceIte, Option.toList_some, List.map_singleton, List.foldl_cons,
              List.foldl_nil, TracedCycle.absorb, Remark.ofLine?_stackOverflow]
      | _ => rfl

theorem ofLines_traceLines (count : Nat) :
    TracedCycle.ofLines ((List.range count).flatMap fun done =>
      (moment.later policy done).machine.traceLines) = moment.trace policy count := by
  -- The reader has the latest cycle at the head, so a last cycle is only put in front.
  rw [TracedCycle.ofLines, List.reverse_eq_iff]
  induction count with
  | zero => rfl
  | succ count ih =>
      rw [trace, List.range_succ, List.flatMap_append, List.foldl_append, ih, List.map_append,
        List.reverse_append, List.flatMap_singleton]
      exact foldl_absorb_traceLines policy (moment.later policy count) _

theorem filter_told {levels : Levels} (traces : levels.TraceInstructions) (count : Nat) :
    (moment.told policy count).filter (·.allowedBy levels) =
      (List.range count).flatMap fun done =>
        let machine := (moment.later policy done).machine
        machine.headEvent :: machine.refusalEvent?.toList := by
  rw [told, List.filter_flatMap]
  simp only [filter_events_cycle _ _ _ traces]

theorem linesFor_told {journal : Journal} (traces : journal.levels.TraceInstructions)
    {count : Nat} (admits : journal.Admits (moment.told policy count)) :
    journal.linesFor (moment.told policy count) = (List.range count).flatMap fun done =>
      (moment.later policy done).machine.traceLines := by
  rw [admits.linesFor, filter_told policy moment traces, List.map_flatMap]
  rfl

theorem length_filter_told_le {levels : Levels} (traces : levels.TraceInstructions) (count : Nat) :
    ((moment.told policy count).filter (·.allowedBy levels)).length ≤ 2 * count := by
  rw [filter_told policy moment traces]
  induction count with
  | zero => exact Nat.le_refl 0
  | succ count ih =>
      rw [List.range_succ, List.flatMap_append, List.length_append, List.flatMap_singleton,
        List.length_cons]
      have single := Option.length_toList_le
        (o := (moment.later policy count).machine.refusalEvent?)
      omega

/-- Two messages for each cycle are enough. -/
theorem admits_told {journal : Journal} (traces : journal.levels.TraceInstructions) {count : Nat}
    (room : ∀ category, (journal.windows.get category).dropped = 0 ∧
      (journal.windows.get category).stamps.length + 2 * count ≤ journal.rate) :
    journal.Admits (moment.told policy count) := by
  apply Journal.admits_of_room
  intro category
  obtain ⟨clean, within⟩ := room category
  have few := length_filter_told_le policy moment traces count
  have part := List.countP_le_length (p := fun event : Event => decide (event.category = category))
    (l := (moment.told policy count).filter (·.allowedBy journal.levels))
  exact ⟨clean, by omega⟩

variable {moment} in
theorem reports_eq_trace (bound : moment.machine.sp.toNat ≤ stackDepth) (count : Nat) :
    (moment.reports policy count).map (·.map fun report => (report.opcode, report.fault)) =
      (moment.trace policy count).map fun now => some (now.opcode, now.fault) := by
  rw [reports, trace, List.map_map, List.map_map]
  apply List.map_congr_left
  intro done _
  have inside := Machine.toNat_sp_popped_lt (sp_le_later policy bound done)
  have report : ((moment.later policy done).cycled policy).report = some _ :=
    congrArg Cycled.report (value_cycle_of_inside policy _ (moment.later policy done).source inside)
  rw [Function.comp_apply, Function.comp_apply, report]
  rfl

/-- With instructions and unknown words shown and all else left out, and without
refusals, the log of a run is one line for each cycle and one after each refused call.
These lines are found at the end of the error stream, or of the log file if that keeps
them. The word that each cycle met and the place where it met it can be read back from
the lines alone, and so can the fault that it reported, if any. So runs with the same log
have executed the same words at the same places. -/
theorem trace_tells_the_run (policy : UnknownOpcodePolicy) (moment : Moment σ)
    (bound : moment.machine.sp.toNat ≤ stackDepth) (count : Nat) (journal : Journal)
    (traces : journal.levels.TraceInstructions)
    (admits : journal.Admits (moment.told policy count)) :
    let lines := journal.linesFor (moment.told policy count)
    let after := journal.recordAll (moment.told policy count)
    (lines = (List.range count).flatMap fun done =>
        (moment.later policy done).machine.traceLines) ∧
      journal.Wrote lines after ∧
      (journal.destination? = none →
        after.errorStream.toList = journal.errorStream.toList ++ lines) ∧
      (∀ name content, journal.destination? = some name →
        journal.directory.content? name = some content → journal.directory.keeps name = true →
        after.directory.content? name = some (Journal.withLines content lines)) ∧
      TracedCycle.ofLines lines = moment.trace policy count ∧
      ((moment.reports policy count).map (·.map fun report => (report.opcode, report.fault)) =
        (moment.trace policy count).map fun now => some (now.opcode, now.fault)) ∧
      ∀ (otherPolicy : UnknownOpcodePolicy) (other : Moment σ) (otherCount : Nat)
        (otherJournal : Journal), otherJournal.levels.TraceInstructions →
        otherJournal.Admits (other.told otherPolicy otherCount) →
        otherJournal.linesFor (other.told otherPolicy otherCount) = lines →
        other.trace otherPolicy otherCount = moment.trace policy count := by
  intro lines after
  have shown : lines = _ := linesFor_told policy moment traces admits
  have wrote : journal.Wrote lines after := journal.wrote_linesFor _
  have read : TracedCycle.ofLines lines = moment.trace policy count := by
    rw [shown]
    exact ofLines_traceLines policy moment count
  refine ⟨shown, wrote, wrote.errorStream_eq, fun name content => wrote.content?_eq, read,
    reports_eq_trace policy bound count, ?_⟩
  intro otherPolicy other otherCount otherJournal otherTraces otherAdmits same
  rw [← read, ← same, linesFor_told otherPolicy other otherTraces otherAdmits]
  exact (ofLines_traceLines otherPolicy other otherCount).symm

variable {policy moment} in
theorem traceLines_twice {fault : Fault} (met : moment.machine.Meets fault)
    (lasts : fault.Lasts policy) :
    ((List.range 2).flatMap fun done => (moment.later policy done).machine.traceLines) =
      moment.machine.traceLines ++ moment.machine.traceLines := by
  have cycled := met.value_cycle policy moment.source
  rw [lasts.resumeAt_eq] at cycled
  have machine : (moment.later policy 1).machine = _ := congrArg Cycled.machine cycled
  have again : (moment.later policy 1).machine.traceLines = moment.machine.traceLines := by
    rw [machine]
    rfl
  have cycles : List.range 2 = [0, 1] := rfl
  rw [cycles, List.flatMap_cons, List.flatMap_singleton, again]
  rfl

/-- A call that is refused twice, traced on the error stream. -/
theorem trace_tells_the_run_of_refused_call :
    let moment : Moment Keystream := {
      machine := { Machine.withProgram #[0x22, 0x00] with sp := 16 }
      source := Keystream.ofSeed 7 }
    let journal : Journal := {
      levels := { own := { Log.PerCategory.const .off with cpu := .trace, stubs := .warn } }
      clock := fun reading => 1000 * reading
      directory := { files := [], layout := fun _ path => .ok path } }
    let lines := [
      "CHIP-8: 200  2200  CALL 200",
      "CHIP-8: stack overflow: CALL 200 at 200 with 16 frames in use",
      "CHIP-8: 200  2200  CALL 200",
      "CHIP-8: stack overflow: CALL 200 at 200 with 16 frames in use"]
    moment.machine.sp.toNat ≤ stackDepth ∧ journal.levels.TraceInstructions ∧
      journal.Admits (moment.told .stall 2) ∧
      (journal.recordAll (moment.told .stall 2)).errorStream.toList = lines ∧
      TracedCycle.ofLines lines = moment.trace .stall 2 := by
  intro moment journal lines
  have bound : moment.machine.sp.toNat ≤ stackDepth := Nat.le_refl 16
  have traces : journal.levels.TraceInstructions := by
    refine ⟨rfl, rfl, by decide, ?_⟩
    intro category notCpu notStubs
    cases category <;> first | rfl | contradiction
  have admits : journal.Admits (moment.told .stall 2) := by
    apply admits_told .stall moment traces
    intro category
    cases category <;> decide
  have word : moment.machine.wordAtPc = 0x2200 := Machine.wordAtPc_of_loaded rfl (by decide)
  have called : Instruction.decode? moment.machine.wordAtPc = some (.call 0x200) := by
    rw [word]
    decide
  have met : moment.machine.Meets (.stackOverflow 0x200 0x200) := by
    refine (fault?_cycle_eq_some_iff .stall moment.source bound _).mp ?_
    rw [fault?_cycle, called]
    rfl
  have told : moment.machine.traceLines = ["CHIP-8: 200  2200  CALL 200",
      "CHIP-8: stack overflow: CALL 200 at 200 with 16 frames in use"] := by
    rw [Machine.traceLines, Machine.headEvent, Machine.refusalEvent?, called, word]
    decide +kernel
  obtain ⟨shown, -, written, -, read, -⟩ :=
    trace_tells_the_run .stall moment bound 2 journal traces admits
  rw [traceLines_twice met trivial, told] at shown
  rw [shown] at written read
  exact ⟨bound, traces, admits, written rfl, read⟩

end Moment
end Chip8

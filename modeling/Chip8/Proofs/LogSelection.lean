import Chip8.Proofs.Journal
import Chip8.Proofs.Session
import Chip8.Proofs.Window
import Chip8.Random.Keystream

/-!
# Levels only select

Whatever is done to a console, to its processor or to its machine, the levels of the
log decide which of the events are written down and nothing else. Under any levels
the same things happen, and the lines are those of the full log that the levels allow,
in the same order.
-/

set_option autoImplicit false

namespace Chip8

open Log (Category Journal Level Levels PerCategory)

/-! ## Computations with a journal -/

namespace Logged

variable {α β : Type}

def writtenTo (computation : Logged α) (journal : Journal) : α × Journal :=
  (computation.value, journal.recordAll computation.events)

end Logged

/-! ## Operations -/

/-- Something that is done to a console or to a part of it. -/
inductive Operation where
  /-- What a host may ask of the console. -/
  | ask (request : Request)
  | resetProcessor
  /-- The processor starts again with its machine as it is. -/
  | restartProcessor
  /-- A program is put into the machine alone. -/
  | load (program : Array UInt8)
  /-- One cycle of the machine that the processor does not count. -/
  | cycle (policy : UnknownOpcodePolicy)
  /-- One instruction without a fetch and without a tick. -/
  | execute (instruction : Instruction Register)

inductive Operation.Result where
  | answer (answer : Answer)
  | loaded (result : Except LoadError Unit)
  | executed (obstacle : Option Obstacle)

namespace Console

variable {σ : Type} [SeededSource σ]

omit [SeededSource σ] in
def withParts (console : Console σ) (machine : Machine) (source : σ) : Console σ :=
  { console with processor := { console.processor with machine, source } }

def operate (console : Console σ) (operation : Operation) :
    Logged (Operation.Result × Console σ) :=
  match operation with
  | .ask request => do
      let (answer, console) ← console.perform request
      return (.answer answer, console)
  | .resetProcessor => do
      let processor ← console.processor.reset
      return (.answer .done, { console with processor })
  | .restartProcessor =>
      return (.answer .done, { console with processor := console.processor.restart })
  | .load program => do
      match ← console.machine.load program with
      | .ok machine => return (.loaded (.ok ()), console.withMachine machine)
      | .error error => return (.loaded (.error error), console)
  | .cycle policy => do
      let cycled ← Chip8.cycle policy console.machine console.processor.source
      return (.answer (.report cycled.report), console.withParts cycled.machine cycled.source)
  | .execute instruction => do
      let executed ← Chip8.execute instruction console.machine console.processor.source
      return (.executed executed.obstacle, console.withParts executed.machine executed.source)

/-- Operations one after the other, with a journal. What is kept of each is its result
and the console after it. -/
def operateAll (console : Console σ) (journal : Journal) (operations : List Operation) :
    List (Operation.Result × Console σ) × Journal :=
  match operations with
  | [] => ([], journal)
  | operation :: rest =>
      let (done, journal) := (console.operate operation).writtenTo journal
      let (later, journal) := done.2.operateAll journal rest
      (done :: later, journal)

/-- What operations have to tell, whether or not it is written down. -/
def toldBy (console : Console σ) (operations : List Operation) : List Event :=
  match operations with
  | [] => []
  | operation :: rest =>
      (console.operate operation).events ++ (console.operate operation).value.2.toldBy rest

def outcomes (console : Console σ) (operations : List Operation) :
    List (Operation.Result × Console σ) :=
  match operations with
  | [] => []
  | operation :: rest =>
      (console.operate operation).value :: (console.operate operation).value.2.outcomes rest

theorem operateAll_eq (console : Console σ) (journal : Journal) (operations : List Operation) :
    console.operateAll journal operations =
      (console.outcomes operations, journal.recordAll (console.toldBy operations)) := by
  induction operations generalizing console journal with
  | nil => rfl
  | cons operation rest ih =>
      simp only [operateAll, ih]
      simp only [Logged.writtenTo, outcomes, toldBy, Journal.recordAll_append]

end Console

/-! ## What is written -/

namespace Event

def allowedBy (levels : Levels) (event : Event) : Bool := levels.allows event.category event.level

/-- The level of the category counts for an event, or the level for everything if that
one is off. -/
def SelectedBy (levels : Levels) (event : Event) : Prop :=
  event.level ≠ .off ∧
    event.level.rank ≤
      (if levels.own.get event.category = .off then levels.overall
        else levels.own.get event.category).rank

instance (levels : Levels) (event : Event) : Decidable (event.SelectedBy levels) :=
  inferInstanceAs (Decidable (_ ∧ _))

theorem level_ne_off (event : Event) : event.level ≠ .off := by
  cases event <;> simp [level]

end Event

namespace Log

theorem Level.rank_le_trace (level : Level) : level.rank ≤ Level.trace.rank := by
  cases level <;> decide

namespace Levels

def everything : Levels := { overall := .trace, own := .const .trace }

variable (event : Event)

theorem allowedBy_eq_true_iff (levels : Levels) :
    event.allowedBy levels = true ↔ event.SelectedBy levels := by
  have threshold : levels.threshold event.category =
      if levels.own.get event.category = .off then levels.overall
      else levels.own.get event.category := by
    unfold threshold
    cases levels.own.get event.category <;> simp
  simp only [Event.allowedBy, Event.SelectedBy, allows, threshold, Bool.and_eq_true, bne_iff_ne,
    ne_eq, decide_eq_true_eq]

theorem allowedBy_everything : event.allowedBy everything = true := by
  rw [allowedBy_eq_true_iff]
  refine ⟨event.level_ne_off, ?_⟩
  simpa [everything] using event.level.rank_le_trace

theorem allowedBy_nothing : event.allowedBy {} = false := by
  rw [← Bool.not_eq_true, allowedBy_eq_true_iff]
  rintro ⟨shown, low⟩
  apply shown
  simp only [PerCategory.get_const, ↓reduceIte] at low
  cases level : event.level <;> simp [level, Level.rank] at low ⊢

end Levels

namespace Journal

theorem recordAll_of_silent {journal : Journal} (silent : journal.levels = {})
    (events : List Event) : journal.recordAll events = journal := by
  induction events with
  | nil => rfl
  | cons event rest ih =>
      have hidden : journal.levels.allows event.category event.level = false := by
        rw [silent]
        exact Levels.allowedBy_nothing event
      have unchanged : journal.record event = journal :=
        congrArg Prod.snd (journal.offer_of_hidden hidden (Thunk.mk fun _ => event.line))
      rw [recordAll, List.foldl_cons, unchanged]
      exact ih

/-! ## Logs without refusals -/

/-- All events that are shown are let through, and no refusals are reported. -/
def Admits (journal : Journal) (events : List Event) : Prop :=
  match events with
  | [] => True
  | event :: rest =>
      (event.allowedBy journal.levels = true →
        (journal.judged event.category).1 = { admitted := true }) ∧
      (journal.record event).Admits rest

theorem levels_record (journal : Journal) (event : Event) :
    (journal.record event).levels = journal.levels := by
  obtain ⟨windows, readings, recorded⟩ := (journal.wrote_record event).settled
  rw [recorded]
  rfl

theorem Admits.linesFor {journal : Journal} {events : List Event}
    (admits : journal.Admits events) :
    journal.linesFor events = (events.filter (·.allowedBy journal.levels)).map Event.line := by
  induction events generalizing journal with
  | nil => rfl
  | cons event rest ih =>
      obtain ⟨admitted, later⟩ := admits
      have remaining := ih later
      rw [levels_record] at remaining
      rw [Journal.linesFor, remaining, List.filter_cons]
      cases allowed : event.allowedBy journal.levels with
      | true =>
          have shown : journal.levels.allows event.category event.level = true := allowed
          rw [entriesFor, if_pos shown, admitted allowed]
          rfl
      | false =>
          have hidden : journal.levels.allows event.category event.level = false := allowed
          rw [entriesFor, hidden]
          rfl

/-- The lines under any levels, said without the test that the journal makes. -/
theorem Admits.wrote_selected {journal : Journal} {events : List Event}
    (admits : journal.Admits events) :
    journal.Wrote ((events.filter (·.SelectedBy journal.levels)).map Event.line)
      (journal.recordAll events) := by
  have same : (events.filter fun event => event.SelectedBy journal.levels) =
      events.filter (·.allowedBy journal.levels) := by
    apply List.filter_congr
    intro event _
    rw [Bool.eq_iff_iff, decide_eq_true_eq, Levels.allowedBy_eq_true_iff]
  rw [same, ← admits.linesFor]
  exact journal.wrote_linesFor events

end Journal

/-! ## Room -/

namespace Journal

/-- No category comes to its limit, even if all of the events are written at once. -/
def HasRoom (journal : Journal) (events : List Event) : Prop :=
  ∀ category, (journal.windows.get category).dropped = 0 ∧
    (journal.windows.get category).stamps.length +
      events.countP (·.category = category) ≤ journal.rate

variable {journal : Journal} {event : Event} {events rest : List Event}

theorem HasRoom.sublist (room : journal.HasRoom events) (fewer : rest.Sublist events) :
    journal.HasRoom rest := by
  intro category
  obtain ⟨clean, within⟩ := room category
  exact ⟨clean, Nat.le_trans (Nat.add_le_add_left fewer.countP_le _) within⟩

theorem HasRoom.judged (room : journal.HasRoom (event :: rest)) :
    let window := journal.windows.get event.category
    (journal.judged event.category).1 = { admitted := true } ∧
      (journal.judged event.category).2.dropped = 0 ∧
      (journal.judged event.category).2.stamps.length ≤ window.stamps.length + 1 := by
  obtain ⟨clean, within⟩ := room event.category
  simp only [List.countP_cons, decide_true, ↓reduceIte] at within
  exact Window.judge_of_room clean (by omega) _

theorem HasRoom.record (room : journal.HasRoom (event :: rest)) :
    (journal.record event).HasRoom rest := by
  have remaining := room.sublist (List.sublist_cons_self event rest)
  cases allowed : event.allowedBy journal.levels with
  | false =>
      have unchanged : journal.record event = journal :=
        congrArg Prod.snd (journal.offer_of_hidden allowed (Thunk.mk fun _ => event.line))
      rw [unchanged]
      exact remaining
  | true =>
      have recorded : journal.record event = _ :=
        congrArg Prod.snd (journal.offer_of_allowed allowed (Thunk.mk fun _ => event.line))
      obtain ⟨-, clean, few⟩ := room.judged
      intro category
      rw [recorded]
      simp only [adjusted, PerCategory.get_set]
      -- The line takes up the room that the event had in its own category.
      by_cases same : category = event.category
      · subst same
        have within := (room event.category).2
        simp only [List.countP_cons, decide_true, ↓reduceIte] at within ⊢
        exact ⟨clean, by omega⟩
      · rw [if_neg same]
        exact remaining category

theorem admits_of_room (room : journal.HasRoom (events.filter (·.allowedBy journal.levels))) :
    journal.Admits events := by
  induction events generalizing journal with
  | nil => trivial
  | cons event rest ih =>
      cases allowed : event.allowedBy journal.levels with
      | true =>
          rw [List.filter_cons, if_pos allowed] at room
          refine ⟨fun _ => room.judged.1, ih ?_⟩
          rw [levels_record]
          exact room.record
      | false =>
          rw [List.filter_cons, allowed] at room
          have unchanged : journal.record event = journal :=
            congrArg Prod.snd (journal.offer_of_hidden allowed (Thunk.mk fun _ => event.line))
          refine ⟨?_, ?_⟩
          · intro shown
            rw [allowed] at shown
            cases shown
          · rw [unchanged]
            exact ih room

/-- Where there is room for all events there is for those that any levels show. -/
theorem HasRoom.admits (room : journal.HasRoom events) (levels : Levels) :
    ({ journal with levels } : Journal).Admits events :=
  admits_of_room (room.sublist List.filter_sublist)

end Journal
end Log

namespace Console

variable {σ : Type} [SeededSource σ]

/-- As long as no limit is reached, the results of operations and the consoles on the
way are those of a run that logs nothing, and the lines that are written are those
of the full log, in order, whose events are selected by their category and level. They
are found at the end of the error stream, or of the log file if that keeps them. -/
theorem levels_select_lines (console : Console σ) (operations : List Operation)
    (journal : Journal) (levels : Levels)
    (unlimited : ({ journal with levels := .everything } : Journal).Admits
      (console.toldBy operations))
    (unlimitedChosen : ({ journal with levels } : Journal).Admits (console.toldBy operations)) :
    let silent := console.operateAll { journal with levels := {} } operations
    let full := console.operateAll { journal with levels := .everything } operations
    let chosen := console.operateAll { journal with levels } operations
    let told := console.toldBy operations
    let lines := (told.filter (·.SelectedBy levels)).map Event.line
    (full.1 = silent.1 ∧ chosen.1 = silent.1) ∧
      silent.2 = { journal with levels := {} } ∧
      ({ journal with levels := .everything } : Journal).Wrote (told.map Event.line) full.2 ∧
      ({ journal with levels } : Journal).Wrote lines chosen.2 ∧
      (journal.destination? = none →
        chosen.2.errorStream.toList = journal.errorStream.toList ++ lines) ∧
      ∀ name content, journal.destination? = some name →
        journal.directory.content? name = some content → journal.directory.keeps name = true →
        chosen.2.directory.content? name = some (Journal.withLines content lines) := by
  intro silent full chosen told lines
  have nothing : silent = _ := console.operateAll_eq _ operations
  have everything : full = _ := console.operateAll_eq _ operations
  have some : chosen = _ := console.operateAll_eq _ operations
  have wroteChosen := unlimitedChosen.wrote_selected
  rw [nothing, everything, some]
  refine ⟨⟨rfl, rfl⟩, ?_, ?_, wroteChosen, wroteChosen.errorStream_eq,
    fun name content => wroteChosen.content?_eq⟩
  · exact Journal.recordAll_of_silent rfl _
  · have shown : (told.filter fun event => event.SelectedBy .everything) = told := by
      apply List.filter_eq_self.mpr
      intro event _
      rw [decide_eq_true_eq, ← Levels.allowedBy_eq_true_iff]
      exact Levels.allowedBy_everything event
    have wrote := unlimited.wrote_selected
    rwa [shown] at wrote

/-- A program is put in and clears the screen, a key goes down and the processor starts
over, while all but the display and the processor are kept out of the log. -/
theorem levels_select_lines_of_display :
    let console := Console.new { seed := some 0 } (Keystream.ofSeed 0)
    let operations : List Operation :=
      [.load #[0x00, 0xE0], .execute .clearScreen, .ask (.setKey 5 true), .resetProcessor]
    let journal : Journal := {
      rate := 2
      clock := fun reading => 1000 * reading
      directory := { files := [], layout := fun _ path => .ok path } }
    let levels : Levels :=
      { overall := .error, own := { PerCategory.const .off with cpu := .info, display := .trace } }
    let chosen := console.operateAll { journal with levels } operations
    ({ journal with levels := .everything } : Journal).Admits (console.toldBy operations) ∧
      ({ journal with levels } : Journal).Admits (console.toldBy operations) ∧
      console.toldBy operations =
        [.programLoaded 0x200 2, .screenCleared, .keyLatched 5 true, .processorReset] ∧
      ({ journal with levels } : Journal).Wrote ["CHIP-8: CLS", "CHIP-8: reset"] chosen.2 ∧
      chosen.2.errorStream.toList = ["CHIP-8: CLS", "CHIP-8: reset"] := by
  intro console operations journal levels chosen
  have told : console.toldBy operations =
      [.programLoaded 0x200 2, .screenCleared, .keyLatched 5 true, .processorReset] := by
    rfl
  have room : journal.HasRoom (console.toldBy operations) := by
    rw [told]
    intro category
    cases category <;> decide
  have unlimited := room.admits .everything
  have unlimitedChosen := room.admits levels
  obtain ⟨-, -, -, wrote, onError, -⟩ :=
    levels_select_lines console operations journal levels unlimited unlimitedChosen
  have lines : ((console.toldBy operations).filter fun event => event.SelectedBy levels).map
      Event.line = ["CHIP-8: CLS", "CHIP-8: reset"] := by
    rw [told]
    decide
  simp only [lines] at wrote onError
  refine ⟨unlimited, unlimitedChosen, told, wrote, ?_⟩
  rw [onError rfl]
  rfl

end Console
end Chip8

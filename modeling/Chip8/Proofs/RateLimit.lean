import Chip8.Proofs.Journal
import Chip8.Proofs.Numeral
import Chip8.Proofs.Window
import Mathlib.Algebra.GroupWithZero.Nat

/-!
# Accounts of the rate limit

No message is lost without a trace: of the messages of a category that the levels show,
each is written, or counted in a report, or still counted as dropped. Within a second and
under a rate that stays the same the first messages are written, up to the rate, and the
first one after them is reported. Other categories have no part in it.
-/

set_option autoImplicit false

namespace Chip8.Log

/-! ## Report lines -/

/-- The category whose name stands in brackets. -/
def Category.ofBrackets? (word : String) : Option Category :=
  match word.toList with
  | '[' :: name => ofText? (String.ofList name.dropLast)
  | _ => none

/-- The category and the count that a report line names. -/
def readReport? (line : String) : Option (Category × Nat) :=
  match Text.words line with
  | [subject, "rate", "limit", "exceeded,", count, "message(s)", "dropped"] =>
      (Category.ofBrackets? subject).map fun category =>
        (category, Text.decimalValue count.toList)
  | _ => none

theorem Category.ofBrackets?_name (category : Category) :
    ofBrackets? ("[" ++ category.name ++ "]") = some category := by
  cases category <;> rfl

theorem Category.solid_name (category : Category) : ' ' ∉ ("[" ++ category.name ++ "]").toList := by
  cases category <;> decide

theorem words_reportLine (category : Category) (count : Nat) :
    Text.words (Journal.reportLine category count) =
      ["[" ++ category.name ++ "]", "rate", "limit", "exceeded,", toString count, "message(s)",
        "dropped"] := by
  have start : "] rate limit exceeded, " =
      "]" ++ (" " ++ ("rate" ++ (" " ++ ("limit" ++ (" " ++ ("exceeded," ++ " ")))))) := by decide
  have rest : " message(s) dropped" = " " ++ ("message(s)" ++ (" " ++ "dropped")) := by decide
  have parts : Journal.reportLine category count =
      ("[" ++ category.name ++ "]") ++ " " ++ ("rate" ++ " " ++ ("limit" ++ " " ++ ("exceeded," ++
        " " ++ (toString count ++ " " ++ ("message(s)" ++ " " ++ "dropped"))))) := by
    rw [Journal.reportLine, start, rest]
    simp only [String.append_assoc, -String.reduceAppend]
  have first : ' ' ∉ "rate".toList := by decide
  have second : ' ' ∉ "limit".toList := by decide
  have third : ' ' ∉ "exceeded,".toList := by decide
  have fourth : ' ' ∉ "message(s)".toList := by decide
  have last : ' ' ∉ "dropped".toList := by decide
  rw [parts, Text.words_append category.solid_name, Text.words_append first,
    Text.words_append second, Text.words_append third, Text.words_append (Text.solid_toString _),
    Text.words_append fourth, Text.words_of_solid last]

/-- A report line tells its category and its count. -/
theorem readReport?_reportLine (category : Category) (count : Nat) :
    readReport? (Journal.reportLine category count) = some (category, count) := by
  rw [readReport?, words_reportLine]
  simp only [Category.ofBrackets?_name, Text.decimalValue_toString, Option.map_some]

/-- The count that the line of a report names. -/
def Entry.reported? (entry : Entry) : Option Nat :=
  match entry with
  | .report .. => (readReport? entry.line).map Prod.snd
  | .message .. => none

theorem Entry.reported?_report (category : Category) (count : Nat) :
    (Entry.report category count).reported? = some count := by
  have read : readReport? (Entry.report category count).line = some (category, count) :=
    readReport?_reportLine category count
  rw [reported?, read, Option.map_some]

/-! ## Calls -/

inductive Call where
  | message (category : Category) (level : Level) (text : Thunk String)
  | setOverall (level : Level)
  | setLevel (category : Category) (level : Level)
  | silence
  | setRate (rate : Nat)

/-- The call is a message of the category, or no message at all. -/
def Call.concerns (category : Category) : Call → Bool
  | .message other .. => other = category
  | _ => true

namespace Journal

/-- Carries out a call and tells whether the text of a message was worked out. -/
def take (journal : Journal) (call : Call) : Bool × Journal :=
  match call with
  | .message category level text => journal.offer category level text
  | .setOverall level =>
      (false, { journal with levels := { journal.levels with overall := level } })
  | .setLevel category level =>
      (false, { journal with levels := journal.levels.set category level })
  | .silence => (false, journal.silence)
  | .setRate rate => (false, { journal with rate })

end Journal

structure Step where
  before : Journal
  call : Call

namespace Step

variable (step : Step) (category : Category)

def after : Journal := (step.before.take step.call).2

def texted : Bool := (step.before.take step.call).1

/-- The call is a message of the category that the levels show. -/
def enabled : Bool :=
  match step.call with
  | .message other level _ => other = category && step.before.levels.allows other level
  | _ => false

/-- The call is a message of the category whose text was worked out. -/
def admitted : Bool :=
  match step.call with
  | .message other _ _ => other = category && step.texted
  | _ => false

def entries : List Entry :=
  match step.call with
  | .message category level text =>
      if step.before.levels.allows category level then
        (step.before.judged category).1.entries category text
      else []
  | _ => []

/-- The counts that report lines of the category name. -/
def reports : List Nat := (step.entries.filter (·.category = category)).filterMap Entry.reported?

end Step

namespace Journal

def trace (journal : Journal) (calls : List Call) : List Step :=
  match calls with
  | [] => []
  | call :: rest => ⟨journal, call⟩ :: (journal.take call).2.trace rest

def afterAll (journal : Journal) (calls : List Call) : Journal :=
  calls.foldl (fun journal call => (journal.take call).2) journal

end Journal

/-! ## One step -/

namespace Step

variable (step : Step) (category : Category)

theorem after_eq :
    step.after =
      (step.before.writeAll (step.entries.map Entry.line)).adjusted step.after.levels
        step.after.rate step.after.windows step.after.readings := by
  obtain ⟨before, call⟩ := step
  cases call with
  | message category level text =>
      cases allowed : before.levels.allows category level with
      | true =>
          have offered := before.offer_of_allowed allowed text
          simp only [after, Journal.take, entries, allowed, ↓reduceIte, offered]
          rfl
      | false =>
          have offered := before.offer_of_hidden allowed text
          simp only [after, Journal.take, entries, allowed, offered, Bool.false_eq_true, ↓reduceIte]
          rfl
  | setOverall | setLevel | silence | setRate => rfl

variable {step category}

theorem enabled_eq_true_iff :
    step.enabled category = true ↔
      ∃ level text, step.call = .message category level text ∧
        step.before.levels.allows category level = true := by
  unfold enabled
  cases step.call with
  | message other level text =>
      simp only [Bool.and_eq_true, decide_eq_true_eq, Call.message.injEq]
      constructor
      · rintro ⟨rfl, allowed⟩
        exact ⟨level, text, ⟨rfl, rfl, rfl⟩, allowed⟩
      · rintro ⟨_, _, ⟨rfl, rfl, _⟩, allowed⟩
        exact ⟨rfl, allowed⟩
  | _ => simp

theorem judged_of_enabled (enabled : step.enabled category = true) :
    ∃ level text, step.call = .message category level text ∧
      let judged := step.before.judged category
      step.entries = judged.1.entries category text ∧
        step.admitted category = judged.1.admitted ∧
        step.after.windows.get category = judged.2 := by
  obtain ⟨level, text, call, allowed⟩ := enabled_eq_true_iff.mp enabled
  have offered := step.before.offer_of_allowed allowed text
  refine ⟨level, text, call, ?_, ?_, ?_⟩
  · simp only [entries, call, allowed, ↓reduceIte]
  · simp only [admitted, texted, call, Journal.take, offered, decide_true, Bool.true_and]
  · simp only [after, call, Journal.take, offered, Journal.adjusted, PerCategory.get_set, ↓reduceIte]

theorem idle_of_not_enabled (idle : step.enabled category = false) :
    step.entries.filter (·.category = category) = [] ∧ step.admitted category = false ∧
      step.after.windows.get category = step.before.windows.get category := by
  obtain ⟨before, call⟩ := step
  cases call with
  | message other level text =>
      cases allowed : before.levels.allows other level with
      | false =>
          have offered := before.offer_of_hidden allowed text
          simp [entries, admitted, texted, after, Journal.take, allowed, offered]
      | true =>
          -- The message is shown, so it can only be one of another category.
          have differ : category ≠ other := by
            rintro rfl
            simp [enabled, allowed] at idle
          have offered := before.offer_of_allowed allowed text
          refine ⟨?_, ?_, ?_⟩
          · simp only [entries, allowed, ↓reduceIte, Verdict.entries, List.filter_append]
            cases (before.judged other).1.report <;> cases (before.judged other).1.admitted <;>
              simp [Entry.category, differ.symm]
          · simp [admitted, differ.symm]
          · simp only [after, Journal.take, offered, Journal.adjusted, PerCategory.get_set,
              if_neg differ]
  | _ => exact ⟨rfl, rfl, rfl⟩

theorem reports_of_enabled (enabled : step.enabled category = true) :
    step.reports category = (step.before.judged category).1.report.toList := by
  obtain ⟨level, text, -, entries, -, -⟩ := judged_of_enabled enabled
  have unread : ∀ text, (Entry.message category text).reported? = none := fun _ => rfl
  rw [reports, entries, Verdict.entries]
  cases (step.before.judged category).1.report <;>
    cases (step.before.judged category).1.admitted <;>
    simp [Entry.category, Entry.reported?_report, unread]

theorem reports_of_not_enabled (idle : step.enabled category = false) :
    step.reports category = [] := by
  rw [reports, (idle_of_not_enabled idle).1, List.filterMap_nil]

theorem enabled_of_admitted (admitted : step.admitted category = true) :
    step.enabled category = true := by
  cases enabled : step.enabled category with
  | true => rfl
  | false => simp [(idle_of_not_enabled enabled).2.1] at admitted

theorem balance (step : Step) (category : Category) :
    (if step.enabled category then 1 else 0) + (step.before.windows.get category).dropped =
      (if step.admitted category then 1 else 0) + (step.reports category).sum +
        (step.after.windows.get category).dropped := by
  cases enabled : step.enabled category with
  | true =>
      obtain ⟨level, text, -, -, admitted, window⟩ := judged_of_enabled enabled
      have judged : (step.before.judged category).2.dropped +
          (step.before.judged category).1.report.getD 0 +
            (if (step.before.judged category).1.admitted then 1 else 0) =
          (step.before.windows.get category).dropped + 1 := (Window.judgement _ _ _).balance
      have sum : (step.reports category).sum =
          (step.before.judged category).1.report.getD 0 := by
        rw [reports_of_enabled enabled]
        cases (step.before.judged category).1.report <;> simp
      rw [admitted, window, sum]
      simp only [↓reduceIte]
      omega
  | false =>
      obtain ⟨-, admitted, window⟩ := idle_of_not_enabled enabled
      simp [admitted, window, reports_of_not_enabled enabled]

theorem one_le_of_mem_reports {count : Nat} (given : count ∈ step.reports category) :
    1 ≤ count := by
  cases enabled : step.enabled category with
  | true =>
      rw [reports_of_enabled enabled, Option.mem_toList] at given
      exact (Window.judgement _ _ _).one_le_report given
  | false => simp [reports_of_not_enabled enabled] at given

theorem entries_of_admitted (admitted : step.admitted category = true) :
    ∃ level text, step.call = .message category level text ∧ step.entries =
      (if (step.before.windows.get category).dropped = 0 then []
        else [.report category (step.before.windows.get category).dropped]) ++
        [.message category text.get] := by
  obtain ⟨level, text, call, entries, verdict, -⟩ :=
    judged_of_enabled (enabled_of_admitted admitted)
  rw [admitted] at verdict
  have report : (step.before.judged category).1.report =
      if (step.before.windows.get category).dropped = 0 then none
      else some (step.before.windows.get category).dropped :=
    (Window.judgement _ _ _).report_of_admitted verdict.symm
  refine ⟨level, text, call, ?_⟩
  rw [entries, Verdict.entries, report, ← verdict]
  by_cases clean : (step.before.windows.get category).dropped = 0 <;> simp [clean]

theorem of_hidden {level : Level} {text : Thunk String}
    (call : step.call = .message category level text)
    (hidden : step.before.levels.allows category level = false) :
    step.texted = false ∧ step.after = step.before ∧ step.entries = [] := by
  have offered := step.before.offer_of_hidden hidden text
  simp [texted, after, entries, call, Journal.take, offered, hidden]

end Step

/-! ## Calls one after the other -/

namespace Journal

def entries (journal : Journal) (calls : List Call) : List Entry :=
  (journal.trace calls).flatMap Step.entries

def entriesAbout (journal : Journal) (calls : List Call) (category : Category) : List Entry :=
  (journal.entries calls).filter (·.category = category)

def reports (journal : Journal) (calls : List Call) (category : Category) : List Nat :=
  (journal.entriesAbout calls category).filterMap Entry.reported?

variable (journal : Journal) (calls : List Call) (category : Category)

theorem reports_eq_flatMap :
    journal.reports calls category = (journal.trace calls).flatMap (·.reports category) := by
  simp only [reports, entriesAbout, entries, List.filter_flatMap, List.filterMap_flatMap]
  rfl

theorem afterAll_eq :
    journal.afterAll calls =
      (journal.writeAll ((journal.entries calls).map Entry.line)).adjusted
        (journal.afterAll calls).levels (journal.afterAll calls).rate
        (journal.afterAll calls).windows (journal.afterAll calls).readings := by
  induction calls generalizing journal with
  | nil => rfl
  | cons call rest ih =>
      have first : (journal.take call).2 = _ := (Step.mk journal call).after_eq
      have later := ih (journal.take call).2
      have split : journal.entries (call :: rest) =
          (Step.mk journal call).entries ++ (journal.take call).2.entries rest := rfl
      rw [split, List.map_append, writeAll_append]
      rw [first, writeAll_adjusted] at later
      rw [← first] at later
      exact later

theorem balance :
    (journal.trace calls).countP (·.enabled category) +
        (journal.windows.get category).dropped =
      (journal.trace calls).countP (·.admitted category) +
        (journal.reports calls category).sum +
        ((journal.afterAll calls).windows.get category).dropped := by
  induction calls generalizing journal with
  | nil => simp [trace, reports_eq_flatMap, afterAll]
  | cons call rest ih =>
      have first := (Step.mk journal call).balance category
      have later := ih (journal.take call).2
      simp only [trace, reports_eq_flatMap, afterAll, Step.after, List.countP_cons, List.flatMap_cons,
        List.sum_append, List.foldl_cons] at first later ⊢
      omega

/-! ## Calls within a second -/

/-- Less than a second lies between any two readings of the clock during calls. -/
def WithinSecond (journal : Journal) (calls : List Call) : Prop :=
  ∀ one, journal.readings ≤ one → one < (journal.afterAll calls).readings →
    ∀ other, journal.readings ≤ other → other < (journal.afterAll calls).readings →
      journal.clock one - journal.clock other < second

/-- Up to a reading of the clock, those to come lie less than a second apart, and less
than a second after all that the limits remember. -/
structure Brief (journal : Journal) (last : Nat) : Prop where
  close : ∀ one, journal.readings ≤ one → one < last →
    ∀ other, journal.readings ≤ other → other < last →
      journal.clock one - journal.clock other < second
  recent : ∀ number, journal.readings ≤ number → number < last →
    ∀ category, (journal.windows.get category).Recent (journal.clock number)

variable {journal calls category}

theorem WithinSecond.brief (within : journal.WithinSecond calls)
    (fresh : journal.windows = .const {}) : journal.Brief (journal.afterAll calls).readings where
  close := within
  recent := by
    intro number _ _ category
    rw [fresh, PerCategory.get_const]
    exact ⟨List.forall_mem_nil _, nofun⟩

theorem Brief.take {last : Nat} (brief : journal.Brief last) (call : Call) :
    (journal.take call).2.Brief last := by
  cases call with
  | message category level text =>
      cases allowed : journal.levels.allows category level with
      | false =>
          have offered := journal.offer_of_hidden allowed text
          simpa only [Journal.take, offered] using brief
      | true =>
          have offered := journal.offer_of_allowed allowed text
          obtain ⟨errorStream, directory, written⟩ := journal.exists_writeAll_eq
            (((journal.judged category).1.entries category text).map Entry.line)
          rw [written] at offered
          simp only [Journal.take, offered, adjusted]
          refine ⟨?_, ?_⟩
          · intro one first before other next until_
            exact brief.close one (Nat.le_of_lt first) before other (Nat.le_of_lt next) until_
          · intro number passed before other
            have recent := brief.recent number (Nat.le_of_lt passed) before
            have now := brief.close number (Nat.le_of_lt passed) before journal.readings
              (Nat.le_refl _) (Nat.lt_trans passed before)
            rw [PerCategory.get_set]
            split
            · exact (recent category).after_judge now
            · exact recent other
  | setOverall | setLevel | silence | setRate => exact ⟨brief.close, brief.recent⟩

theorem readings_le_take (journal : Journal) (call : Call) :
    journal.readings ≤ (journal.take call).2.readings := by
  cases call with
  | message category level text =>
      cases allowed : journal.levels.allows category level with
      | false =>
          simp only [Journal.take, journal.offer_of_hidden allowed text]
          exact Nat.le_refl _
      | true =>
          simp only [Journal.take, journal.offer_of_allowed allowed text, adjusted]
          exact Nat.le_succ _
  | setOverall | setLevel | silence | setRate => exact Nat.le_refl _

theorem readings_le_afterAll (journal : Journal) (calls : List Call) :
    journal.readings ≤ (journal.afterAll calls).readings := by
  induction calls generalizing journal with
  | nil => exact Nat.le_refl _
  | cons call rest ih => exact Nat.le_trans (journal.readings_le_take call) (ih _)

theorem judged_of_recent (journal : Journal) {category : Category}
    (recent : (journal.windows.get category).Recent (journal.clock journal.readings)) :
    (journal.judged category).1 = ((journal.windows.get category).tally.judge journal.rate).1 ∧
      (journal.judged category).2.tally =
        ((journal.windows.get category).tally.judge journal.rate).2 :=
  Prod.ext_iff.mp recent.judge

/-- A message that is shown comes less than a second after all that its limits remember. -/
theorem Brief.recent_of_enabled {last : Nat} (brief : journal.Brief last) {call : Call}
    {rest : List Call} (covers : (journal.afterAll (call :: rest)).readings ≤ last)
    (enabled : (Step.mk journal call).enabled category = true) :
    (journal.windows.get category).Recent (journal.clock journal.readings) := by
  obtain ⟨level, text, rfl, allowed⟩ := Step.enabled_eq_true_iff.mp enabled
  have read : (journal.take (.message category level text)).2.readings = journal.readings + 1 := by
    simp only [Journal.take, journal.offer_of_allowed allowed text, adjusted]
  have later := (journal.take (.message category level text)).2.readings_le_afterAll rest
  rw [read] at later
  exact brief.recent journal.readings (Nat.le_refl _) (Nat.le_trans later covers) category

/-- Under a rate that stays the same, counted from a window that has seen some messages:
which of the messages are let through, and where a report is written. -/
theorem steady_trace {last rate seen : Nat} (brief : journal.Brief last)
    (covers : (journal.afterAll calls).readings ≤ last)
    (tally : (journal.windows.get category).tally = Tally.steady rate seen)
    (rated : ∀ step ∈ journal.trace calls, step.enabled category = true →
      step.before.rate = rate) :
    let shown := (journal.trace calls).filter (·.enabled category)
    (journal.trace calls).filter (·.admitted category) = shown.take (rate - seen) ∧
      shown.map (·.reports category) =
        (List.range' seen shown.length).map fun number => if number = rate then [1] else [] := by
  induction calls generalizing journal seen with
  | nil => simp [trace]
  | cons call rest ih =>
      have remaining := fun step member => rated step (List.mem_cons_of_mem _ member)
      cases enabled : (Step.mk journal call).enabled category with
      | false =>
          -- The window stays as it is, so the number of messages seen so far stays too.
          obtain ⟨-, admitted, kept⟩ := Step.idle_of_not_enabled enabled
          have kept : (journal.take call).2.windows.get category = journal.windows.get category :=
            kept
          have later := ih (brief.take call) covers ((congrArg Window.tally kept).trans tally)
            remaining
          simpa only [trace, List.filter_cons, enabled, admitted, Bool.false_eq_true,
            ↓reduceIte] using later
      | true =>
          obtain ⟨level, text, -, -, admitted, next⟩ := Step.judged_of_enabled enabled
          have reports := Step.reports_of_enabled enabled
          have rate_eq : journal.rate = rate := rated _ List.mem_cons_self enabled
          have recent := brief.recent_of_enabled covers enabled
          have judged := journal.judged_of_recent recent
          rw [tally, rate_eq, Tally.judge_steady] at judged
          obtain ⟨verdict, window⟩ := judged
          simp only [verdict] at admitted reports
          obtain ⟨through, reported⟩ := ih (brief.take call) covers
            ((congrArg Window.tally next).trans window) remaining
          simp only [trace, List.filter_cons, enabled, admitted, ↓reduceIte, List.map_cons,
            List.length_cons, List.range'_succ, List.cons.injEq]
          refine ⟨?_, ?_, reported⟩
          · -- Of the messages that may still pass, this one uses up one if there are any.
            by_cases below : seen < rate
            · have left : rate - seen = rate - (seen + 1) + 1 := by omega
              simp [below, left, through]
            · have none : rate - seen = 0 := by omega
              have still : rate - (seen + 1) = 0 := by omega
              simp [below, none, through, still]
          · rw [reports]
            by_cases last : seen = rate <;> simp [last]

variable (journal calls category)

theorem reports_eq_flatten :
    journal.reports calls category =
      (((journal.trace calls).filter (·.enabled category)).map (·.reports category)).flatten := by
  rw [reports_eq_flatMap]
  induction journal.trace calls with
  | nil => rfl
  | cons step rest ih =>
      cases enabled : step.enabled category with
      | true => simp [enabled, ih]
      | false => simp [enabled, ih, Step.reports_of_not_enabled enabled]

/-! ## Calls about other categories -/

/-- To a category it makes no difference which of two journals it is, as long as its
limits only remember what is recent. -/
structure AgreesOn (category : Category) (one other : Journal) : Prop where
  levels : one.levels = other.levels
  rate : one.rate = other.rate
  tally : (one.windows.get category).tally = (other.windows.get category).tally

namespace AgreesOn

variable {category : Category} {one other : Journal} {last otherLast : Nat}

theorem take (agree : AgreesOn category one other) {call : Call}
    (concerned : call.concerns category = true) {rest otherRest : List Call}
    (brief : one.Brief last) (covers : (one.afterAll (call :: rest)).readings ≤ last)
    (otherBrief : other.Brief otherLast)
    (otherCovers : (other.afterAll (call :: otherRest)).readings ≤ otherLast) :
    AgreesOn category (one.take call).2 (other.take call).2 ∧
      (Step.mk one call).entries.filter (·.category = category) =
        (Step.mk other call).entries.filter (·.category = category) := by
  obtain ⟨levels, rate, tally⟩ := agree
  cases call with
  | message about level text =>
      obtain rfl : about = category := by simpa [Call.concerns] using concerned
      cases allowed : one.levels.allows about level with
      | true =>
          have otherAllowed : other.levels.allows about level = true := levels ▸ allowed
          have offered := one.offer_of_allowed allowed text
          have otherOffered := other.offer_of_allowed otherAllowed text
          -- Each of the two windows judges by its tally, and the tallies are the same.
          obtain ⟨verdict, window⟩ := one.judged_of_recent (brief.recent_of_enabled covers
            (Step.enabled_eq_true_iff.mpr ⟨level, text, rfl, allowed⟩))
          obtain ⟨otherVerdict, otherWindow⟩ := other.judged_of_recent
            (otherBrief.recent_of_enabled otherCovers
              (Step.enabled_eq_true_iff.mpr ⟨level, text, rfl, otherAllowed⟩))
          rw [← tally, ← rate] at otherVerdict otherWindow
          have same : (one.judged about).1 = (other.judged about).1 :=
            verdict.trans otherVerdict.symm
          simp only [Journal.take, Step.entries, offered, otherOffered, allowed, otherAllowed,
            same, ↓reduceIte, and_true]
          refine ⟨levels, rate, ?_⟩
          simp only [adjusted, PerCategory.get_set, ↓reduceIte]
          exact window.trans otherWindow.symm
      | false =>
          have offered := one.offer_of_hidden allowed text
          have otherHidden : other.levels.allows about level = false := levels ▸ allowed
          have otherOffered := other.offer_of_hidden otherHidden text
          simp only [Journal.take, Step.entries, offered, otherOffered, allowed, otherHidden,
            Bool.false_eq_true, ↓reduceIte, and_true]
          exact ⟨levels, rate, tally⟩
  | setOverall level =>
      refine ⟨⟨?_, rate, tally⟩, rfl⟩
      simp only [Journal.take, levels]
  | setLevel about level =>
      refine ⟨⟨?_, rate, tally⟩, rfl⟩
      simp only [Journal.take, levels]
  | silence => exact ⟨⟨rfl, rate, tally⟩, rfl⟩
  | setRate rate => exact ⟨⟨levels, rfl, tally⟩, rfl⟩

theorem skip (agree : AgreesOn category one other) {call : Call}
    (unconcerned : call.concerns category = false) :
    AgreesOn category (one.take call).2 other ∧
      (Step.mk one call).entries.filter (·.category = category) = [] := by
  obtain ⟨levels, rate, tally⟩ := agree
  cases call with
  | message about level text =>
      have differ : about ≠ category := by simpa [Call.concerns] using unconcerned
      have idle : (Step.mk one (.message about level text)).enabled category = false := by
        simp [Step.enabled, differ]
      obtain ⟨nothing, -, kept⟩ := Step.idle_of_not_enabled idle
      have tallied := (congrArg Window.tally kept).trans tally
      refine ⟨?_, nothing⟩
      cases allowed : one.levels.allows about level with
      | true =>
          have offered := one.offer_of_allowed allowed text
          refine ⟨?_, ?_, tallied⟩
          · simp only [Journal.take, offered]
            exact levels
          · simp only [Journal.take, offered]
            exact rate
      | false =>
          have offered := one.offer_of_hidden allowed text
          refine ⟨?_, ?_, tallied⟩
          · simpa only [Journal.take, offered] using levels
          · simpa only [Journal.take, offered] using rate
  | setOverall | setLevel | silence | setRate => simp [Call.concerns] at unconcerned

theorem entriesAbout_eq (agree : AgreesOn category one other) {calls : List Call}
    (brief : one.Brief last) (covers : (one.afterAll calls).readings ≤ last)
    (otherBrief : other.Brief otherLast)
    (otherCovers : (other.afterAll (calls.filter (Call.concerns category))).readings ≤ otherLast) :
    one.entriesAbout calls category =
      other.entriesAbout (calls.filter (Call.concerns category)) category := by
  -- A call that is left out on the right changes the left journal alone, so both vary.
  induction calls generalizing one other with
  | nil => rfl
  | cons call rest ih =>
      have split : ∀ (journal : Journal) (later : List Call),
          journal.entriesAbout (call :: later) category =
            (Step.mk journal call).entries.filter (·.category = category) ++
              (journal.take call).2.entriesAbout later category := by
        intro journal later
        simp only [entriesAbout, entries, trace, List.flatMap_cons, List.filter_append]
      cases concerned : call.concerns category with
      | true =>
          simp only [List.filter_cons, concerned, ↓reduceIte] at otherCovers ⊢
          obtain ⟨next, same⟩ := agree.take concerned brief covers otherBrief otherCovers
          rw [split, split, same,
            ih next (brief.take call) covers (otherBrief.take call) otherCovers]
      | false =>
          simp only [List.filter_cons, concerned, Bool.false_eq_true, ↓reduceIte] at otherCovers ⊢
          obtain ⟨next, nothing⟩ := agree.skip concerned
          rw [split, nothing, List.nil_append,
            ih next (brief.take call) covers otherBrief otherCovers]

end AgreesOn

/-! ## Accounts -/

/-- The account of a category over calls: what became of its messages. -/
structure Accounts (start : Journal) (calls : List Call) (category : Category) : Prop where
  /-- The lines of the entries are found at the end of the stream that is written to. -/
  delivered : start.Delivers ((start.entries calls).map Entry.line) (start.afterAll calls)
  /-- Lines are written for the entries, and for nothing else. -/
  written : start.afterAll calls =
    (start.writeAll ((start.entries calls).map Entry.line)).adjusted
      (start.afterAll calls).levels (start.afterAll calls).rate (start.afterAll calls).windows
        (start.afterAll calls).readings
  balance : (start.trace calls).countP (·.enabled category) =
    (start.trace calls).countP (·.admitted category) +
      ((start.reports calls category).sum +
        ((start.afterAll calls).windows.get category).dropped)
  /-- A report line tells its category and its count. -/
  readable : ∀ other count, .report other count ∈ start.entries calls →
    readReport? (Entry.report other count).line = some (other, count)
  one_le : ∀ count ∈ start.reports calls category, 1 ≤ count
  /-- A report that is due comes right before the message that is let through. -/
  admitted : ∀ step ∈ start.trace calls, step.admitted category = true →
    ∃ level text, step.call = .message category level text ∧ step.entries =
      (if (step.before.windows.get category).dropped = 0 then []
        else [.report category (step.before.windows.get category).dropped]) ++
        [.message category text.get]
  hidden : ∀ step ∈ start.trace calls, ∀ level text,
    step.call = .message category level text →
    step.before.levels.allows category level = false →
    step.texted = false ∧ step.after = step.before ∧ step.entries = []

/-- Any other calls within a second come to the same entries about a category, if those
that concern it are the same. -/
def Isolates (start : Journal) (calls : List Call) (category : Category) : Prop :=
  ∀ (clock : Clock) (others : List Call),
    calls.filter (Call.concerns category) = others.filter (Call.concerns category) →
    ({ start with clock } : Journal).WithinSecond others →
    start.entriesAbout calls category =
      ({ start with clock } : Journal).entriesAbout others category

/-- The first messages of a category are let through, up to the rate, and the first one
that is not is reported. -/
structure LetsFirstThrough (start : Journal) (rate : Nat) (calls : List Call)
    (category : Category) : Prop where
  count : (start.trace calls).countP (·.admitted category) =
    min ((start.trace calls).countP (·.enabled category)) rate
  first : (start.trace calls).filter (·.admitted category) =
    ((start.trace calls).filter (·.enabled category)).take rate
  reports : start.reports calls category =
    if rate < (start.trace calls).countP (·.enabled category) then [1] else []
  /-- The report is written with the message that comes first after those. -/
  place : ((start.trace calls).filter (·.enabled category)).map (·.reports category) =
    (List.range ((start.trace calls).countP (·.enabled category))).map fun number =>
      if number = rate then [1] else []

theorem delivers_afterAll (journal : Journal) (calls : List Call) :
    journal.Delivers ((journal.entries calls).map Entry.line) (journal.afterAll calls) := by
  have delivered := journal.delivers_writeAll ((journal.entries calls).map Entry.line)
  rw [journal.afterAll_eq calls]
  exact ⟨delivered.errorStream, delivered.content?⟩

theorem accounts {start : Journal} (fresh : start.windows = .const {}) (calls : List Call)
    (category : Category) : start.Accounts calls category where
  delivered := start.delivers_afterAll calls
  written := start.afterAll_eq calls
  balance := by
    have account := start.balance calls category
    have clean : (start.windows.get category).dropped = 0 := by simp [fresh]
    omega
  readable := fun other count _ => readReport?_reportLine other count
  one_le := by
    intro count given
    rw [reports_eq_flatMap] at given
    obtain ⟨step, -, given⟩ := List.mem_flatMap.mp given
    exact Step.one_le_of_mem_reports given
  admitted := fun _ _ => Step.entries_of_admitted
  hidden := fun _ _ _ _ => Step.of_hidden

theorem isolates {start : Journal} (fresh : start.windows = .const {}) {calls : List Call}
    (within : start.WithinSecond calls) (category : Category) :
    start.Isolates calls category := by
  intro clock others same otherWithin
  -- Between the two stands the run of the common calls, under a clock that never moves.
  let still : Journal := { start with clock := fun _ => 0 }
  let other : Journal := { start with clock }
  have brief : ∀ last, still.Brief last := by
    intro last
    have positive : 0 < second := by decide
    refine ⟨fun _ _ _ _ _ _ => positive, fun _ _ _ category => ?_⟩
    have clean : still.windows.get category = {} := by simp [still, fresh]
    rw [clean]
    exact ⟨List.forall_mem_nil _, nofun⟩
  have agree : AgreesOn category start still := ⟨rfl, rfl, rfl⟩
  have otherAgree : AgreesOn category other still := ⟨rfl, rfl, rfl⟩
  rw [agree.entriesAbout_eq (within.brief fresh) (Nat.le_refl _) (brief _) (Nat.le_refl _), same]
  exact (otherAgree.entriesAbout_eq (otherWithin.brief fresh) (Nat.le_refl _) (brief _)
    (Nat.le_refl _)).symm

private theorem flatten_report (rate count : Nat) :
    ((List.range count).map fun number => if number = rate then [1] else []).flatten =
      if rate < count then [1] else [] := by
  induction count with
  | zero => simp
  | succ count ih =>
      rw [List.range_succ, List.map_append, List.flatten_append, ih]
      rcases Nat.lt_trichotomy rate count with below | rfl | above
      · simp [below, Nat.lt_succ_of_lt below, Nat.ne_of_gt below]
      · simp
      · have past : ¬ rate < count + 1 := by omega
        simp [Nat.lt_asymm above, past, Nat.ne_of_lt above]

theorem letsFirstThrough {start : Journal} (fresh : start.windows = .const {})
    {calls : List Call} (within : start.WithinSecond calls) {category : Category} {rate : Nat}
    (rated : ∀ step ∈ start.trace calls, step.enabled category = true →
      step.before.rate = rate) : start.LetsFirstThrough rate calls category := by
  have tally : (start.windows.get category).tally = Tally.steady rate 0 := by
    simp [fresh, Window.tally, Tally.steady]
  obtain ⟨first, place⟩ := steady_trace (within.brief fresh) (Nat.le_refl _) tally rated
  rw [Nat.sub_zero] at first
  rw [← List.range_eq_range', ← List.countP_eq_length_filter] at place
  refine ⟨?_, first, ?_, place⟩
  · rw [List.countP_eq_length_filter, first, List.length_take, ← List.countP_eq_length_filter,
      Nat.min_comm]
  · rw [reports_eq_flatten, place, flatten_report]

/-- From fresh limits on, whatever messages come and however levels and rate are changed
between them, each category has its account. Within a second other categories have no
part in it, and if its messages all meet the same rate, the first of them are let
through. -/
theorem messages_accounted_for (start : Journal) (fresh : start.windows = .const {})
    (calls : List Call) (category : Category) :
    start.Accounts calls category ∧
      (start.WithinSecond calls → start.Isolates calls category ∧
        ∀ rate, (∀ step ∈ start.trace calls, step.enabled category = true →
          step.before.rate = rate) → start.LetsFirstThrough rate calls category) :=
  ⟨accounts fresh calls category, fun within =>
    ⟨isolates fresh within category, fun _ => letsFirstThrough fresh within⟩⟩

/-- Four messages of the processor under a rate of two, between others that are kept
out: two are written, one is reported and one is still to be reported. -/
theorem messages_accounted_for_of_four :
    let start : Journal := {
      clock := fun reading => 1000 * reading
      directory := { files := [], layout := fun _ path => .ok path } }
    let calls : List Call := [
      .setRate 2, .setLevel .cpu .trace, .message .cpu .info "first",
      .message .display .info "hidden", .message .cpu .trace "second", .setOverall .warn,
      .message .display .error "other", .message .cpu .warn "third", .message .cpu .off "never",
      .message .cpu .warn "fourth"]
    start.windows = .const {} ∧ start.WithinSecond calls ∧
      (∀ step ∈ start.trace calls, step.enabled .cpu = true → step.before.rate = 2) ∧
      (start.trace calls).countP (·.enabled .cpu) = 4 ∧
      (start.trace calls).countP (·.admitted .cpu) = 2 ∧
      start.reports calls .cpu = [1] ∧
      ((start.afterAll calls).windows.get .cpu).dropped = 1 ∧
      (start.afterAll calls).errorStream.toList =
        ["first", "second", "other", "[CPU] rate limit exceeded, 1 message(s) dropped"] := by
  intro start calls
  have fresh : start.windows = .const {} := rfl
  have within : start.WithinSecond calls := by
    have read : (start.afterAll calls).readings = 5 := by decide
    intro one _ first other _ next
    rw [read] at first next
    simp only [start, second]
    omega
  have rated : ∀ step ∈ start.trace calls, step.enabled .cpu = true → step.before.rate = 2 := by
    decide
  have shown : (start.trace calls).countP (·.enabled .cpu) = 4 := by decide
  have lines : (start.entries calls).map Entry.line =
      ["first", "second", "other", "[CPU] rate limit exceeded, 1 message(s) dropped"] := by
    decide
  have empty : start.errorStream.toList = [] ∧ start.destination? = none := ⟨rfl, rfl⟩
  clear_value start calls
  obtain ⟨account, brief⟩ := messages_accounted_for start fresh calls .cpu
  have through := (brief within).2 2 rated
  have written : (start.trace calls).countP (·.admitted .cpu) = 2 := by
    rw [through.count, shown]
    rfl
  have reported : start.reports calls .cpu = [1] := by
    rw [through.reports, shown]
    rfl
  have left := account.balance
  rw [shown, written, reported, List.sum_singleton] at left
  have stream := account.delivered.errorStream
  rw [lines, empty.1, empty.2, if_pos rfl, List.nil_append] at stream
  exact ⟨fresh, within, rated, shown, written, reported, by omega, stream⟩

end Journal
end Chip8.Log

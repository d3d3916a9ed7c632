import Chip8.Proofs.RateLimit
import Mathlib.Data.List.Basic
import Mathlib.Data.List.Induction

/-!
# Where log lines go

A line goes to the file that was opened last, unless it was closed since, and otherwise to
the error stream. So each line is found once, and every stream holds its lines in the order
in which they came, after what it held before.

The destination depends on two parts of a journal, the open file and whether lines are
meant for it. These always agree.
-/

set_option autoImplicit false

namespace Chip8

namespace Log

/-! ## What may happen to a journal -/

inductive Occurrence where
  | call (call : Call)
  | openFile (path : String)
  | closeFile
  /-- The limits come to remember something else. -/
  | elapse (windows : PerCategory Window)
  /-- Directories are made or removed, and paths lead elsewhere. -/
  | rearrange (layout : (String → Bool) → String → Except PathFault String)

namespace Journal

def undergo (journal : Journal) (occurrence : Occurrence) : Journal :=
  match occurrence with
  | .call call => (journal.take call).2
  | .openFile path =>
      match journal.openFile path with
      | .ok opened => opened
      | .error _ => journal
  | .closeFile => journal.closeFile
  | .elapse windows => { journal with windows }
  | .rearrange layout => { journal with directory := { journal.directory with layout } }

def undergoAll (journal : Journal) (occurrences : List Occurrence) : Journal :=
  occurrences.foldl undergo journal

end Journal

structure Turn where
  before : Journal
  occurrence : Occurrence

namespace Turn

variable (turn : Turn)

def after : Journal := turn.before.undergo turn.occurrence

def lines : List String :=
  match turn.occurrence with
  | .call call => (Step.mk turn.before call).entries.map Entry.line
  | _ => []

def opened? : Option String :=
  match turn.occurrence with
  | .openFile path => (turn.before.directory.locate path).toOption
  | _ => none

def closes : Bool :=
  match turn.occurrence with
  | .closeFile => true
  | _ => false

end Turn

def Journal.turns (journal : Journal) (occurrences : List Occurrence) : List Turn :=
  match occurrences with
  | [] => []
  | occurrence :: rest => ⟨journal, occurrence⟩ :: (journal.undergo occurrence).turns rest

namespace Turn

variable {turn : Turn}

theorem closes_of_opened {name : String} (opened : turn.opened? = some name) :
    turn.closes = false := by
  unfold opened? at opened
  unfold closes
  cases happened : turn.occurrence with
  | closeFile => simp [happened] at opened
  | call | openFile | elapse | rearrange => rfl

theorem idle_of_failed {path : String} {fault : PathFault}
    (opening : turn.occurrence = .openFile path)
    (failed : turn.before.directory.locate path = .error fault) :
    turn.after = turn.before ∧ turn.opened? = none ∧ turn.closes = false := by
  obtain ⟨before, occurrence⟩ := turn
  subst opening
  refine ⟨?_, ?_, rfl⟩
  · simp only [after, Journal.undergo, Journal.openFile, failed]
    rfl
  · simp only [opened?, failed]
    rfl

end Turn

/-! ## Destinations -/

/-- The file that was opened last, unless it was closed since. -/
def lastOpened? (history : List Turn) : Option String :=
  history.foldl (fun current turn => if turn.closes then none else turn.opened?.or current) none

def Opened (history : List Turn) (name : String) : Prop :=
  ∃ turn ∈ history, turn.opened? = some name

/-- Every line that is to be written, with the file that was opened last before it. -/
def shipments (turns : List Turn) : List (Option String × String) :=
  turns.zipIdx.flatMap fun (turn, number) =>
    turn.lines.map fun line => (lastOpened? (turns.take number), line)

def linesTo (destination : Option String) (turns : List Turn) : List String :=
  ((shipments turns).filter (·.1 = destination)).map Prod.snd

section Histories

variable (history : List Turn) (turn : Turn)

theorem opened_concat (name : String) :
    Opened (history ++ [turn]) name ↔ Opened history name ∨ turn.opened? = some name := by
  unfold Opened
  simp only [List.mem_append, List.mem_singleton, or_and_right, exists_or, exists_eq_left]

variable {turn} in
theorem opened_concat_of_unopened (unopened : turn.opened? = none) (name : String) :
    Opened (history ++ [turn]) name ↔ Opened history name := by
  simp [opened_concat, unopened]

theorem lastOpened?_concat :
    lastOpened? (history ++ [turn]) =
      if turn.closes then none else turn.opened?.or (lastOpened? history) := by
  rw [lastOpened?, List.foldl_append]
  rfl

theorem lastOpened?_append_of_idle {later : List Turn}
    (idle : ∀ other ∈ later, other.opened? = none ∧ other.closes = false) :
    lastOpened? (history ++ later) = lastOpened? history := by
  induction later using List.reverseRecOn with
  | nil => rw [List.append_nil]
  | append_singleton later last ih =>
      obtain ⟨unopened, unclosed⟩ := idle last (by simp)
      have before := ih fun other member => idle other (List.mem_append_left _ member)
      rw [← List.append_assoc, lastOpened?_concat, unclosed, unopened, before]
      rfl

theorem exists_opening_of_lastOpened? {name : String} (current : lastOpened? history = some name) :
    ∃ earlier opening later, history = earlier ++ opening :: later ∧
      opening.opened? = some name ∧
      ∀ other ∈ later, other.opened? = none ∧ other.closes = false := by
  induction history using List.reverseRecOn with
  | nil => cases current
  | append_singleton history turn ih =>
      rw [lastOpened?_concat] at current
      cases closes : turn.closes with
      | true => simp [closes] at current
      | false =>
          cases opened : turn.opened? with
          | some other =>
              obtain rfl : other = name := by simpa [closes, opened] using current
              exact ⟨history, turn, [], rfl, opened, List.forall_mem_nil _⟩
          | none =>
              rw [closes, opened] at current
              obtain ⟨earlier, opening, later, rfl, found, kept⟩ := ih current
              refine ⟨earlier, opening, later ++ [turn], by simp, found, ?_⟩
              exact List.forall_mem_append.mpr
                ⟨kept, List.forall_mem_singleton.mpr ⟨opened, closes⟩⟩

/-- What was opened last and not closed since, spelled out. -/
theorem lastOpened?_eq_some_iff (name : String) :
    lastOpened? history = some name ↔
      ∃ earlier opening later, history = earlier ++ opening :: later ∧
        opening.opened? = some name ∧
        ∀ other ∈ later, other.opened? = none ∧ other.closes = false := by
  constructor
  · exact exists_opening_of_lastOpened? history
  · rintro ⟨earlier, opening, later, rfl, found, kept⟩
    rw [List.append_cons, lastOpened?_append_of_idle _ kept, lastOpened?_concat,
      Turn.closes_of_opened found, found]
    rfl

variable {history} in
theorem opened_of_lastOpened? {name : String} (current : lastOpened? history = some name) :
    Opened history name := by
  obtain ⟨earlier, opening, later, rfl, opened, -⟩ := exists_opening_of_lastOpened? history current
  exact ⟨opening, by simp, opened⟩

theorem shipments_concat :
    shipments (history ++ [turn]) =
      shipments history ++ turn.lines.map fun line => (lastOpened? history, line) := by
  have earlier : ∀ pair ∈ history.zipIdx,
      (history ++ [turn]).take pair.2 = history.take pair.2 := by
    intro pair member
    have inside := List.snd_lt_of_mem_zipIdx member
    exact List.take_append_of_le_length (by omega)
  have now : (history ++ [turn]).take history.length = history := by simp
  rw [shipments, List.zipIdx_append, List.flatMap_append]
  congr 1
  · apply List.flatMap_congr
    intro pair member
    simp only [earlier pair member]
  · simp [now]

theorem linesTo_concat (destination : Option String) :
    linesTo destination (history ++ [turn]) =
      linesTo destination history ++
        if lastOpened? history = destination then turn.lines else [] := by
  rw [linesTo, shipments_concat, List.filter_append, List.map_append, ← linesTo]
  congr 1
  by_cases there : lastOpened? history = destination <;>
    simp [there, List.filter_map, Function.comp_def]

variable {turn} in
theorem linesTo_concat_of_silent (silent : turn.lines = []) (destination : Option String) :
    linesTo destination (history ++ [turn]) = linesTo destination history := by
  rw [linesTo_concat, silent, ite_self, List.append_nil]

theorem map_snd_shipments : (shipments history).map Prod.snd = history.flatMap Turn.lines := by
  induction history using List.reverseRecOn with
  | nil => rfl
  | append_singleton history turn ih =>
      rw [shipments_concat, List.map_append, ih, List.flatMap_append, List.flatMap_singleton,
        List.map_map]
      simp [Function.comp_def]

theorem linesTo_of_unopened {name : String} (unopened : ¬ Opened history name) :
    linesTo (some name) history = [] := by
  induction history using List.reverseRecOn with
  | nil => rfl
  | append_singleton history turn ih =>
      have before : ¬ Opened history name :=
        fun opened => unopened ((opened_concat history turn name).mpr (.inl opened))
      have elsewhere : lastOpened? history ≠ some name :=
        fun current => before (opened_of_lastOpened? current)
      rw [linesTo_concat, ih before, if_neg elsewhere, List.append_nil]

end Histories

/-! ## Streams -/

/-- The streams of a journal after a history that began over a directory: each holds its
lines in order, after what it held before. What is sent to a file that keeps nothing is
lost. -/
structure Holds (directory : Directory) (history : List Turn) (journal : Journal) : Prop where
  errorStream : journal.errorStream.toList = linesTo none history
  present : ∀ name, (directory.content? name).isSome ∨ Opened history name →
    journal.directory.content? name =
      some (Journal.withLines ((directory.content? name).getD ByteArray.empty)
        (directory.kept name (linesTo (some name) history)))
  absent : ∀ name, directory.content? name = none → ¬ Opened history name →
    journal.directory.content? name = none

structure Follows (directory : Directory) (history : List Turn) (journal : Journal) : Prop
    extends Holds directory history journal where
  destination : journal.destination? = lastOpened? history
  keeps : journal.directory.keeps = directory.keeps
  agree : journal.toFile = journal.file.isSome

namespace Follows

variable {directory : Directory} {history : List Turn} {journal : Journal}

theorem fresh (directory : Directory) (clock : Clock) :
    Follows directory [] { directory, clock } where
  destination := rfl
  keeps := rfl
  agree := rfl
  errorStream := rfl
  present := by
    rintro name (there | ⟨turn, member, -⟩)
    · obtain ⟨content, found⟩ := Option.isSome_iff_exists.mp there
      simp [found, linesTo, shipments, Directory.kept, Journal.withLines]
    · cases member
  absent := fun _ missing _ => missing

theorem still (follows : Follows directory history journal) {turn : Turn} {later : Journal}
    (silent : turn.lines = []) (unopened : turn.opened? = none)
    (destination : later.destination? = lastOpened? (history ++ [turn]))
    (agree : later.toFile = later.file.isSome)
    (errorStream : later.errorStream = journal.errorStream)
    (content : later.directory.content? = journal.directory.content?)
    (keeps : later.directory.keeps = journal.directory.keeps) :
    Follows directory (history ++ [turn]) later := by
  have opened := opened_concat_of_unopened history unopened
  refine ⟨⟨?_, ?_, ?_⟩, destination, keeps.trans follows.keeps, agree⟩
  · rw [errorStream, follows.errorStream, linesTo_concat_of_silent history silent]
  · intro name there
    rw [content, follows.present name (there.imp_right (opened name).mp),
      linesTo_concat_of_silent history silent]
  · intro name missing never
    rw [content, follows.absent name missing (fun known => never ((opened name).mpr known))]

theorem idle (follows : Follows directory history journal) {turn : Turn} {later : Journal}
    (silent : turn.lines = []) (unopened : turn.opened? = none) (unclosed : turn.closes = false)
    (file : later.file = journal.file) (toFile : later.toFile = journal.toFile)
    (errorStream : later.errorStream = journal.errorStream)
    (content : later.directory.content? = journal.directory.content?)
    (keeps : later.directory.keeps = journal.directory.keeps) :
    Follows directory (history ++ [turn]) later := by
  refine follows.still silent unopened ?_ (by rw [toFile, file, follows.agree]) errorStream content
    keeps
  have same : later.destination? = journal.destination? := by
    simp only [Journal.destination?, file, toFile]
  rw [same, follows.destination, lastOpened?_concat, unclosed, unopened]
  rfl

theorem call (follows : Follows directory history journal) (call : Call) :
    Follows directory (history ++ [⟨journal, .call call⟩]) (journal.undergo (.call call)) := by
  let turn : Turn := ⟨journal, .call call⟩
  have after : journal.undergo (.call call) = (journal.writeAll turn.lines).adjusted _ _ _ _ :=
    (Step.mk journal call).after_eq
  have delivered := journal.delivers_writeAll turn.lines
  have destination := journal.destination?_writeAll turn.lines
  have keeps := journal.keeps_writeAll turn.lines
  obtain ⟨errorStream, files, streams⟩ := journal.exists_writeAll_eq turn.lines
  have opened := opened_concat_of_unopened history (rfl : turn.opened? = none)
  have lines := fun destination => linesTo_concat history turn destination
  simp only [← follows.destination] at lines
  have kept : journal.directory.kept = directory.kept := by
    unfold Directory.kept
    rw [follows.keeps]
  rw [after]
  refine ⟨⟨?_, ?_, ?_⟩, ?_, keeps.trans follows.keeps, ?_⟩
  · rw [lines, ← follows.errorStream]
    exact delivered.errorStream
  · intro name there
    have before := follows.present name (there.imp_right (opened name).mp)
    refine (delivered.content? name).trans ?_
    rw [lines, before, kept]
    split
    · rw [Option.map_some, directory.kept_append, Journal.withLines_append]
    · rw [List.append_nil]
  · intro name missing never
    have before := follows.absent name missing (fun known => never ((opened name).mpr known))
    refine (delivered.content? name).trans ?_
    rw [before, Option.map_none, ite_self]
  · rw [lastOpened?_concat]
    exact destination.trans follows.destination
  · rw [streams]
    exact follows.agree

section Opening

variable (follows : Follows directory history journal) {turn : Turn} {file : String}
  (silent : turn.lines = []) (opened : turn.opened? = some file) {name : String}
include follows opened

include silent in
theorem present_of_opened
    (there : (directory.content? name).isSome ∨ Opened (history ++ [turn]) name) :
    (journal.directory.ensure file).content? name =
      some (Journal.withLines ((directory.content? name).getD ByteArray.empty)
        (directory.kept name (linesTo (some name) (history ++ [turn])))) := by
  rw [linesTo_concat_of_silent history silent, Directory.content?_ensure]
  rw [opened_concat, opened, ← or_assoc] at there
  by_cases known : (directory.content? name).isSome ∨ Opened history name
  · rw [follows.present name known, Option.getD_some, ite_self]
  · -- The file is made now, and no line was written to it before.
    obtain rfl : file = name := by simpa [known] using there
    obtain ⟨missing, never⟩ := not_or.mp known
    have missing := Option.not_isSome_iff_eq_none.mp missing
    rw [if_pos rfl, follows.absent file missing never, missing, linesTo_of_unopened history never,
      Directory.kept, ite_self]
    rfl

theorem absent_of_opened (missing : directory.content? name = none)
    (never : ¬ Opened (history ++ [turn]) name) :
    (journal.directory.ensure file).content? name = none := by
  rw [opened_concat, not_or] at never
  obtain ⟨never, differ⟩ := never
  have elsewhere : name ≠ file := by
    rintro rfl
    exact differ opened
  rw [Directory.content?_ensure, if_neg elsewhere, follows.absent name missing never]

end Opening

theorem openFile (follows : Follows directory history journal) (path : String) :
    Follows directory (history ++ [⟨journal, .openFile path⟩])
      (journal.undergo (.openFile path)) := by
  cases located : journal.directory.locate path with
  | error fault =>
      let turn : Turn := ⟨journal, .openFile path⟩
      obtain ⟨unchanged, unopened, unclosed⟩ := turn.idle_of_failed rfl located
      have unchanged : journal.undergo (.openFile path) = journal := unchanged
      rw [unchanged]
      exact follows.idle rfl unopened unclosed rfl rfl rfl rfl rfl
  | ok file =>
      have opened : (Turn.mk journal (.openFile path)).opened? = some file := by
        simp only [Turn.opened?, located]
        rfl
      have after : journal.undergo (.openFile path) =
          { journal with
            file := some file
            toFile := true
            directory := journal.directory.ensure file } := by
        simp only [Journal.undergo, Journal.openFile, located]
        rfl
      have silent : (Turn.mk journal (.openFile path)).lines = [] := rfl
      have destination : lastOpened? (history ++ [⟨journal, .openFile path⟩]) = some file := by
        rw [lastOpened?_concat, opened]
        rfl
      have errorStream := follows.errorStream
      rw [← linesTo_concat_of_silent history silent] at errorStream
      rw [after]
      exact ⟨⟨errorStream, fun name => follows.present_of_opened silent opened,
        fun name => follows.absent_of_opened opened⟩, destination.symm,
        (journal.directory.keeps_ensure file).trans follows.keeps, rfl⟩

theorem undergo (follows : Follows directory history journal) (occurrence : Occurrence) :
    Follows directory (history ++ [⟨journal, occurrence⟩]) (journal.undergo occurrence) := by
  cases occurrence with
  | call call => exact follows.call call
  | openFile path => exact follows.openFile path
  | closeFile =>
      refine follows.still rfl rfl ?_ rfl rfl rfl rfl
      rw [lastOpened?_concat]
      rfl
  | elapse windows => exact follows.idle rfl rfl rfl rfl rfl rfl rfl rfl
  | rearrange layout => exact follows.idle rfl rfl rfl rfl rfl rfl rfl rfl

end Follows

/-! ## Runs -/

namespace Journal

variable (journal : Journal) (occurrences : List Occurrence) (last : Occurrence)

theorem undergoAll_concat :
    journal.undergoAll (occurrences ++ [last]) = (journal.undergoAll occurrences).undergo last :=
  List.foldl_concat ..

theorem turns_concat :
    journal.turns (occurrences ++ [last]) =
      journal.turns occurrences ++ [⟨journal.undergoAll occurrences, last⟩] := by
  induction occurrences generalizing journal with
  | nil => rfl
  | cons occurrence rest ih =>
      rw [List.cons_append, turns, ih, turns, List.cons_append]
      rfl

end Journal

theorem Follows.run (directory : Directory) (clock : Clock) (occurrences : List Occurrence) :
    let start : Journal := { directory, clock }
    Follows directory (start.turns occurrences) (start.undergoAll occurrences) := by
  intro start
  induction occurrences using List.reverseRecOn with
  | nil => exact .fresh directory clock
  | append_singleton occurrences last ih =>
      rw [start.turns_concat, start.undergoAll_concat]
      exact ih.undergo last

/-- Where the lines of a history went that began over a directory and ended with a journal. -/
structure Delivered (directory : Directory) (history : List Turn) (journal : Journal) : Prop
    extends Holds directory history journal where
  shipped : (shipments history).map Prod.snd = history.flatMap Turn.lines
  /-- A file is meant while it is the last that was opened and none was closed since. -/
  meant : ∀ earlier later, history = earlier ++ later → ∀ name,
    lastOpened? earlier = some name ↔
      ∃ before opening after, earlier = before ++ opening :: after ∧
        opening.opened? = some name ∧
        ∀ turn ∈ after, turn.opened? = none ∧ turn.closes = false
  /-- An opening that fails changes nothing, also about where lines go. -/
  failed : ∀ earlier turn later, history = earlier ++ turn :: later →
    ∀ path fault, turn.occurrence = .openFile path →
    turn.before.directory.locate path = .error fault →
    turn.after = turn.before ∧ lastOpened? (earlier ++ [turn]) = lastOpened? earlier
  agree : journal.toFile = true ↔ journal.file.isSome = true

/-- From a fresh journal on, whatever is logged, set, opened and closed, and however time
passes, each line is written once, to the file that was opened last or to the error
stream. -/
theorem lines_delivered_once (directory : Directory) (clock : Clock)
    (occurrences : List Occurrence) :
    let start : Journal := { directory, clock }
    Delivered directory (start.turns occurrences) (start.undergoAll occurrences) := by
  intro start
  have follows := Follows.run directory clock occurrences
  refine ⟨follows.toHolds, map_snd_shipments _, ?_, ?_, ?_⟩
  · intro earlier later split name
    exact lastOpened?_eq_some_iff earlier name
  · intro earlier turn later split path fault opening failed
    obtain ⟨unchanged, unopened, unclosed⟩ := Turn.idle_of_failed opening failed
    refine ⟨unchanged, ?_⟩
    rw [lastOpened?_concat, unopened, unclosed]
    rfl
  · rw [follows.agree]

/-- A file that held a line before is opened, closed and opened again under a rate of
three, and an opening in between fails. -/
theorem lines_delivered_once_around_failed_opening :
    let directory : Directory :=
      { files := [("a.log", "old\n".toUTF8)]
        layout := fun _ path => if path = "b/c.log" then .error .missing else .ok path }
    let say (text : String) : Occurrence := .call (.message .cpu .info (Thunk.mk fun _ => text))
    let occurrences := [
      .call (.setOverall .info), .call (.setRate 3), say "first", .openFile "a.log",
      say "second", .openFile "b/c.log", .call (.message .cpu .debug (Thunk.mk fun _ => "hidden")),
      say "third", .closeFile, say "fourth", .openFile "a.log",
      .call (.message .display .warn (Thunk.mk fun _ => "fifth"))]
    let clock : Clock := fun reading => 1000 * reading
    let final := Journal.undergoAll { directory, clock } occurrences
    final.errorStream.toList = ["first", Journal.reportLine .cpu 1] ∧
      final.directory.content? "a.log" =
        some (Journal.withLines "old\n".toUTF8 ["second", "third", "fifth"]) ∧
      final.directory.content? "b/c.log" = none ∧ final.toFile = true := by
  intro directory say occurrences clock final
  let history := Journal.turns { directory, clock } occurrences
  have delivered : Delivered directory history final :=
    lines_delivered_once directory clock occurrences
  have old : directory.content? "a.log" = some "old\n".toUTF8 := rfl
  have missing : directory.content? "b/c.log" = none := rfl
  have kept : ∀ lines, directory.kept "a.log" lines = lines := fun _ => rfl
  have onError : linesTo none history = ["first", Journal.reportLine .cpu 1] := by decide +kernel
  have onFile : linesTo (some "a.log") history = ["second", "third", "fifth"] := by decide +kernel
  have unopened : ¬ Opened history "b/c.log" := by
    unfold Opened
    decide +kernel
  have opened : final.file.isSome = true := by decide +kernel
  clear_value directory history final
  refine ⟨?_, ?_, delivered.absent "b/c.log" missing unopened, delivered.agree.mpr opened⟩
  · rw [delivered.errorStream, onError]
  · rw [delivered.present "a.log" (.inl (by rw [old]; rfl)), old, onFile, kept, Option.getD_some]

end Log
end Chip8

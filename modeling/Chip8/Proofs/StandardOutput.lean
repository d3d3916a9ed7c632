import Chip8.CommandLine.Run
import Chip8.Proofs.Journal

/-!
# What a run leaves on the standard output

The report is printed there, and the log may lead there too. Nothing makes one of the two
writers wait for the other. A terminal or a pipe gets their bytes in the order in which they
are sent. In a file the printed bytes have a place of their own, and come to stand over log
lines that were added at the end in the meantime. A run whose log leads elsewhere leaves its
report alone there.
-/

set_option autoImplicit false

namespace Chip8.CommandLine

open Log (Clock Journal)

/-! ## Schedules -/

/-- A byte on its way to the standard output, and who sends it. -/
inductive Sent where
  | printed (byte : UInt8)
  | logged (byte : UInt8)

namespace Sent

def byte : Sent → UInt8
  | .printed byte => byte
  | .logged byte => byte

@[simp]
def printed? : Sent → Option UInt8
  | .printed byte => some byte
  | .logged _ => none

@[simp]
def logged? : Sent → Option UInt8
  | .printed _ => none
  | .logged byte => some byte

variable (sent : List Sent)

theorem eq_map_printed (unlogged : sent.filterMap logged? = []) :
    sent = (sent.filterMap printed?).map .printed := by
  induction sent with
  | nil => rfl
  | cons first rest ih =>
      cases first with
      | printed byte => exact congrArg (Sent.printed byte :: ·) (ih unlogged)
      | logged byte => cases unlogged

theorem length_printed_add_logged :
    (sent.filterMap printed?).length + (sent.filterMap logged?).length = sent.length := by
  induction sent with
  | nil => rfl
  | cons first rest ih =>
      rw [List.length_cons, ← ih]
      cases first with
      | printed byte => exact Nat.succ_add _ _
      | logged byte => rfl

end Sent

/-! ## Outlets -/

/-- What the standard output is connected to. -/
inductive Outlet where
  | stream
  /-- An empty file. -/
  | file

structure Page where
  content : List UInt8 := []
  /-- Where the next printed byte goes in a file. -/
  place : Nat := 0

namespace Outlet

def take (outlet : Outlet) (page : Page) (sent : Sent) : Page :=
  match outlet, sent with
  | .stream, sent => { page with content := page.content ++ [sent.byte] }
  | .file, .logged byte => { page with content := page.content ++ [byte] }
  | .file, .printed byte =>
      { content := page.content.take page.place ++ byte :: page.content.drop (page.place + 1)
        place := page.place + 1 }

def takeAll (outlet : Outlet) (sent : List Sent) : Page := sent.foldl outlet.take {}

variable (outlet : Outlet)

theorem content_takeAll_printed (bytes : List UInt8) :
    (outlet.takeAll (bytes.map .printed)).content = bytes := by
  -- Without a log the place of the next printed byte is the end.
  have step : ∀ page : Page, (outlet = .file → page.place = page.content.length) →
      ((bytes.map Sent.printed).foldl outlet.take page).content = page.content ++ bytes := by
    induction bytes with
    | nil => exact fun page _ => (List.append_nil _).symm
    | cons byte rest ih =>
        intro page atEnd
        have taken : (outlet.take page (.printed byte)).content = page.content ++ [byte] ∧
            (outlet = .file → (outlet.take page (.printed byte)).place = page.place + 1) := by
          cases outlet with
          | stream => exact ⟨rfl, nofun⟩
          | file => simp [take, atEnd]
        obtain ⟨content, place⟩ := taken
        rw [List.map_cons, List.foldl_cons, ih, content, List.append_assoc]
        · rfl
        · intro file
          rw [place file, atEnd file, content, List.length_append, List.length_singleton]
  exact step {} fun _ => rfl

theorem content_takeAll_stream (sent : List Sent) :
    (stream.takeAll sent).content = sent.map Sent.byte := by
  have step : ∀ page, (sent.foldl stream.take page).content =
      page.content ++ sent.map Sent.byte := by
    induction sent with
    | nil => exact fun page => (List.append_nil _).symm
    | cons first rest ih =>
        intro page
        rw [List.foldl_cons, ih, List.map_cons, List.append_cons]
        rfl
  exact step {}

end Outlet

/-! ## Outcomes -/

namespace Outcome

/-- What the standard output may hold after a run: the bytes that were printed and those
that the log sent there were taken in some order. -/
def MayLeave (outcome : Outcome) (outlet : Outlet) (content : ByteArray) : Prop :=
  ∃ sent : List Sent, sent.filterMap Sent.printed? = outcome.output.toUTF8.data.toList ∧
    sent.filterMap Sent.logged? = outcome.loggedOutput.data.toList ∧
    (outlet.takeAll sent).content = content.data.toList

variable {outcome : Outcome}

theorem eq_of_bytes {content other : ByteArray} (same : content.data.toList = other.data.toList) :
    content = other :=
  ByteArray.ext (Array.toList_inj.mp same)

theorem mayLeave_iff_of_unlogged (unlogged : outcome.loggedOutput = ByteArray.empty)
    (outlet : Outlet) (content : ByteArray) :
    outcome.MayLeave outlet content ↔ content = outcome.output.toUTF8 := by
  have printed := outlet.content_takeAll_printed outcome.output.toUTF8.data.toList
  rw [MayLeave, unlogged]
  constructor
  · rintro ⟨sent, all, none, left⟩
    rw [Sent.eq_map_printed sent none, all, printed] at left
    exact eq_of_bytes left.symm
  · rintro rfl
    exact ⟨outcome.output.toUTF8.data.toList.map .printed, by simp [Function.comp_def],
      by simp [Function.comp_def], printed⟩

theorem exists_mayLeave (outcome : Outcome) (outlet : Outlet) :
    ∃ content, outcome.MayLeave outlet content := by
  let sent : List Sent := outcome.output.toUTF8.data.toList.map .printed ++
    outcome.loggedOutput.data.toList.map .logged
  refine ⟨⟨(outlet.takeAll sent).content.toArray⟩, sent, ?_, ?_, rfl⟩ <;>
    simp [sent, Function.comp_def]

/-- A stream loses nothing. -/
theorem size_of_mayLeave_stream {content : ByteArray} (leaves : outcome.MayLeave .stream content) :
    content.size = outcome.output.toUTF8.size + outcome.loggedOutput.size := by
  obtain ⟨sent, printed, logged, left⟩ := leaves
  have lengths := Sent.length_printed_add_logged sent
  have all := congrArg List.length left
  rw [printed, logged] at lengths
  rw [Outlet.content_takeAll_stream, List.length_map, ← lengths] at all
  exact all.symm

end Outcome

/-! ## The log of a run -/

section Log

variable {options : Options} {directory : Directory} {clock : Clock} {journal : Journal}
  (opened : options.journal directory clock = .ok journal)
include opened

theorem journal_cases :
    (options.logFile = none ∧ journal.file = none ∧ journal.toFile = false ∧
        journal.directory = directory) ∨
      ∃ path name, options.logFile = some path ∧ directory.locate path = .ok name ∧
        journal.file = some name ∧ journal.toFile = true ∧
        journal.directory = directory.ensure name := by
  unfold Options.journal at opened
  cases chosen : options.levels with
  | error failure =>
      rw [chosen] at opened
      cases opened
  | ok levels =>
      cases wanted : options.logFile with
      | none =>
          simp only [chosen, wanted, bind, Except.bind] at opened
          cases opened
          exact .inl ⟨rfl, rfl, rfl, rfl⟩
      | some path =>
          simp only [chosen, wanted, bind, Except.bind, Journal.openFile] at opened
          cases located : directory.locate path with
          | error fault =>
              rw [located] at opened
              cases opened
          | ok name =>
              rw [located] at opened
              cases opened
              exact .inr ⟨path, name, rfl, located, rfl, rfl, rfl⟩

theorem content?_journal (name : String) :
    (journal.directory.content? name).getD ByteArray.empty =
        (directory.content? name).getD ByteArray.empty ∧
      (journal.file = some name → (journal.directory.content? name).isSome = true) := by
  rcases journal_cases opened with ⟨-, fileless, -, untouched⟩ | ⟨-, file, -, -, toFile, -, made⟩
  · rw [fileless, untouched]
    exact ⟨rfl, nofun⟩
  · rw [toFile, made]
    refine ⟨directory.getD_content?_ensure file name, ?_⟩
    rintro ⟨rfl⟩
    exact directory.content?_ensure_isSome name

theorem kept_journal : journal.directory.kept = directory.kept := by
  unfold Directory.kept
  rcases journal_cases opened with ⟨-, -, -, untouched⟩ | ⟨-, file, -, -, -, -, made⟩
  · rw [untouched]
  · rw [made, directory.keeps_ensure]

theorem destination?_journal : journal.destination? = journal.file := by
  have meant : journal.toFile = journal.file.isSome := by
    rcases journal_cases opened with ⟨-, fileless, unmeant, -⟩ | ⟨-, file, -, -, toFile, meant, -⟩
    · rw [unmeant, fileless]
      rfl
    · rw [meant, toFile]
      rfl
  unfold Journal.destination?
  cases opened : journal.file <;> simp [meant, opened]

/-- What a run has told so far stands at the end of its log file. -/
theorem content?_recordAll {name : String} (toFile : journal.file = some name)
    (events : List Event) :
    (journal.recordAll events).directory.content? name =
      some (Journal.withLines ((directory.content? name).getD ByteArray.empty)
        (directory.kept name (journal.linesFor events))) := by
  obtain ⟨before, present⟩ := content?_journal opened name
  obtain ⟨content, found⟩ := Option.isSome_iff_exists.mp (present toFile)
  have wrote := journal.wrote_linesFor events
  rw [found, Option.getD_some] at before
  rw [wrote.content?, destination?_journal opened, if_pos toFile, found, before,
    kept_journal opened]
  rfl

variable (untouched : directory.content? Directory.outputDevice = none)
include untouched

theorem loggedOutput_of_shared (shared : journal.file = some Directory.outputDevice)
    (events : List Event) (result : Except Failure String) :
    (Outcome.mk result (journal.recordAll events)).loggedOutput =
      Journal.withLines ByteArray.empty
        (directory.kept Directory.outputDevice (journal.linesFor events)) := by
  rw [Outcome.loggedOutput, content?_recordAll opened shared, untouched]
  rfl

theorem loggedOutput_of_apart (apart : journal.file ≠ some Directory.outputDevice)
    (events : List Event) (result : Except Failure String) :
    (Outcome.mk result (journal.recordAll events)).loggedOutput = ByteArray.empty := by
  have wrote := journal.wrote_linesFor events
  have before := (content?_journal opened Directory.outputDevice).1
  rw [untouched, Option.getD_none] at before
  rw [Outcome.loggedOutput, wrote.content?, destination?_journal opened, if_neg apart, before]

end Log
end Chip8.CommandLine

import Chip8.Log.Journal

/-!
# What a journal writes

All that a journal writes about one message is a short row of entries. Its streams
after the message are those before it with the lines of these entries at their end,
and nothing of what was written before plays a part in the choice.
-/

set_option autoImplicit false

namespace Chip8

/-! ## Files -/

namespace Directory

variable (directory : Directory) (name other : String)

/-- Of the lines that are sent to a file, those that are found there. -/
def kept (lines : List String) : List String := if directory.keeps name then lines else []

theorem kept_append (lines later : List String) :
    directory.kept name (lines ++ later) =
      directory.kept name lines ++ directory.kept name later := by
  unfold kept
  split <;> rfl

theorem keeps_append (bytes : ByteArray) :
    (directory.append name bytes).keeps = directory.keeps := by
  unfold append
  split <;> rfl

theorem keeps_ensure : (directory.ensure name).keeps = directory.keeps := by
  unfold ensure
  split <;> rfl

theorem content?_append_of_lost (lost : directory.keeps name = false) (bytes : ByteArray) :
    (directory.append name bytes).content? other = directory.content? other := by
  rw [append, lost]
  rfl

theorem content?_append (kept : directory.keeps name = true) (bytes : ByteArray) :
    (directory.append name bytes).content? other =
      if other = name then (directory.content? other).map (· ++ bytes)
      else directory.content? other := by
  simp only [content?, append, kept, ↓reduceIte]
  induction directory.files with
  | nil => simp
  | cons file rest ih =>
      obtain ⟨present, content⟩ := file
      rw [List.map_cons, List.lookup_cons, List.lookup_cons, ih]
      cases found : other == present with
      | true =>
          obtain rfl : other = present := beq_iff_eq.mp found
          by_cases same : other = name <;> simp [same]
      | false => rfl

theorem getD_content?_ensure :
    ((directory.ensure name).content? other).getD ByteArray.empty =
      (directory.content? other).getD ByteArray.empty := by
  unfold ensure
  split
  · rfl
  · simp only [content?, List.lookup_append]
    cases directory.files.lookup other with
    | some content => rfl
    | none =>
        rw [List.lookup_cons, List.lookup_nil]
        cases other == name <;> rfl

theorem content?_ensure_isSome : ((directory.ensure name).content? name).isSome = true := by
  unfold ensure
  split
  next present => exact present
  next absent =>
    have missing : directory.files.lookup name = none := Option.not_isSome_iff_eq_none.mp absent
    simp [content?, List.lookup_append, missing]

theorem content?_ensure :
    (directory.ensure name).content? other =
      if other = name then some ((directory.content? other).getD ByteArray.empty)
      else directory.content? other := by
  by_cases same : other = name
  · subst same
    obtain ⟨content, found⟩ :=
      Option.isSome_iff_exists.mp (directory.content?_ensure_isSome other)
    have kept := directory.getD_content?_ensure other other
    rw [found, Option.getD_some] at kept
    rw [found, kept, if_pos rfl]
  · have elsewhere : (other == name) = false := by simpa using same
    rw [if_neg same, ensure]
    split
    · rfl
    · simp only [content?, List.lookup_append, List.lookup_cons, List.lookup_nil, elsewhere,
        Option.or_none]

end Directory

namespace Log

/-! ## Entries -/

/-- What a journal may write: a message, or how many messages were refused before. -/
inductive Entry where
  | report (category : Category) (count : Nat)
  | message (category : Category) (text : String)
  deriving DecidableEq

namespace Entry

def category : Entry → Category
  | .report category _ => category
  | .message category _ => category

def line : Entry → String
  | .report category count => Journal.reportLine category count
  | .message _ text => text

end Entry

/-- What a verdict has written: the report that is due, and then the message if it is
let through. -/
def Verdict.entries (verdict : Verdict) (category : Category) (text : Thunk String) : List Entry :=
  (verdict.report.map (Entry.report category)).toList ++
    if verdict.admitted then [.message category text.get] else []

namespace Journal

/-! ## Lines -/

def writeAll (journal : Journal) (lines : List String) : Journal := lines.foldl write journal

def adjusted (journal : Journal) (levels : Levels) (rate : Nat) (windows : PerCategory Window)
    (readings : Nat) : Journal :=
  { journal with levels, rate, windows, readings }

variable (journal : Journal)

theorem writeAll_append (lines later : List String) :
    journal.writeAll (lines ++ later) = (journal.writeAll lines).writeAll later :=
  List.foldl_append

theorem write_adjusted (levels : Levels) (rate : Nat) (windows : PerCategory Window)
    (readings : Nat) (line : String) :
    (journal.adjusted levels rate windows readings).write line =
      (journal.write line).adjusted levels rate windows readings := by
  have same : (journal.adjusted levels rate windows readings).destination? =
      journal.destination? := rfl
  unfold write
  rw [same]
  cases journal.destination? <;> rfl

theorem writeAll_adjusted (levels : Levels) (rate : Nat) (windows : PerCategory Window)
    (readings : Nat) (lines : List String) :
    (journal.adjusted levels rate windows readings).writeAll lines =
      (journal.writeAll lines).adjusted levels rate windows readings := by
  unfold writeAll
  induction lines generalizing journal with
  | nil => rfl
  | cons line rest ih =>
      rw [List.foldl_cons, List.foldl_cons, write_adjusted]
      exact ih (journal.write line)

theorem destination?_write (line : String) :
    (journal.write line).destination? = journal.destination? := by
  unfold write
  split <;> rfl

theorem keeps_write (line : String) :
    (journal.write line).directory.keeps = journal.directory.keeps := by
  unfold write
  split
  · exact journal.directory.keeps_append _ _
  · rfl

theorem exists_writeAll_eq (lines : List String) :
    ∃ errorStream directory, journal.writeAll lines = { journal with errorStream, directory } := by
  induction lines generalizing journal with
  | nil => exact ⟨journal.errorStream, journal.directory, rfl⟩
  | cons line rest ih =>
      obtain ⟨errorStream, directory, later⟩ := ih (journal.write line)
      refine ⟨errorStream, directory, later.trans ?_⟩
      unfold write
      split <;> rfl

theorem destination?_writeAll (lines : List String) :
    (journal.writeAll lines).destination? = journal.destination? := by
  obtain ⟨errorStream, directory, written⟩ := journal.exists_writeAll_eq lines
  rw [written]
  rfl

theorem keeps_writeAll (lines : List String) :
    (journal.writeAll lines).directory.keeps = journal.directory.keeps := by
  induction lines generalizing journal with
  | nil => rfl
  | cons line rest ih => exact (ih (journal.write line)).trans (journal.keeps_write line)

/-! ## Streams -/

/-- The text of a file to whose end lines were added. -/
def withLines (content : ByteArray) (lines : List String) : ByteArray :=
  lines.foldl (fun content line => content ++ (line ++ "\n").toUTF8) content

theorem withLines_append (content : ByteArray) (lines later : List String) :
    withLines content (lines ++ later) = withLines (withLines content lines) later :=
  List.foldl_append

theorem size_le_withLines (content : ByteArray) (lines : List String) :
    content.size ≤ (withLines content lines).size := by
  induction lines generalizing content with
  | nil => exact Nat.le_refl _
  | cons line rest ih =>
      have first := ih (content ++ (line ++ "\n").toUTF8)
      rw [ByteArray.size_append] at first
      exact Nat.le_trans (Nat.le_add_right _ _) first

theorem withLines_pos (content : ByteArray) {lines : List String} (some : lines ≠ []) :
    0 < (withLines content lines).size := by
  cases lines with
  | nil => exact absurd rfl some
  | cons line rest =>
      have later := size_le_withLines (content ++ (line ++ "\n").toUTF8) rest
      -- Even an empty line has its end.
      have ended : 0 < (line ++ "\n").toUTF8.size := by
        rw [String.toUTF8_eq_toByteArray, String.size_toByteArray, String.utf8ByteSize_append]
        exact Nat.lt_of_lt_of_le (by decide) (Nat.le_add_left _ _)
      rw [ByteArray.size_append] at later
      rw [withLines, List.foldl_cons]
      exact Nat.lt_of_lt_of_le (Nat.add_pos_right _ ended) later

/-- Lines came to the stream that a journal writes to, after what stood there before, and
nothing came to any other. -/
structure Delivers (before : Journal) (lines : List String) (after : Journal) : Prop where
  errorStream : after.errorStream.toList =
    before.errorStream.toList ++ if before.destination? = none then lines else []
  content? : ∀ name, after.directory.content? name =
    if before.destination? = some name then
      (before.directory.content? name).map (withLines · (before.directory.kept name lines))
    else before.directory.content? name

namespace Delivers

variable {before after : Journal} {lines : List String} (delivers : before.Delivers lines after)
include delivers

theorem errorStream_eq (onError : before.destination? = none) :
    after.errorStream.toList = before.errorStream.toList ++ lines := by
  rw [delivers.errorStream, if_pos onError]

theorem content?_eq {name : String} {content : ByteArray}
    (onFile : before.destination? = some name)
    (found : before.directory.content? name = some content)
    (keeps : before.directory.keeps name = true) :
    after.directory.content? name = some (withLines content lines) := by
  rw [delivers.content?, if_pos onFile, found, Directory.kept, if_pos keeps]
  rfl

end Delivers

theorem delivers_write (line : String) : journal.Delivers [line] (journal.write line) := by
  unfold write
  cases destination : journal.destination? with
  | none => exact ⟨by simp [destination], fun name => by simp [destination]⟩
  | some other =>
      refine ⟨by simp [destination], fun name => ?_⟩
      dsimp only
      rw [destination]
      cases kept : journal.directory.keeps other with
      | false =>
          rw [Directory.content?_append_of_lost _ _ _ kept]
          by_cases same : other = name
          · subst same
            rw [if_pos rfl, Directory.kept, kept]
            exact Option.map_id'.symm
          · rw [if_neg (fun equal => same (Option.some.inj equal))]
      | true =>
          rw [Directory.content?_append _ _ _ kept]
          by_cases same : other = name
          · subst same
            rw [if_pos rfl, if_pos rfl, Directory.kept, kept]
            rfl
          · rw [if_neg (fun equal => same (Option.some.inj equal)), if_neg (Ne.symm same)]

variable {journal} in
theorem Delivers.append {later last : Journal} {lines more : List String}
    (first : journal.Delivers lines later) (second : later.Delivers more last)
    (destination : later.destination? = journal.destination?)
    (keeps : later.directory.keeps = journal.directory.keeps) :
    journal.Delivers (lines ++ more) last where
  errorStream := by
    rw [second.errorStream, first.errorStream, destination]
    split
    · rw [List.append_assoc]
    · rw [List.append_nil, List.append_nil]
  content? := by
    intro name
    have same : later.directory.kept name more = journal.directory.kept name more := by
      simp only [Directory.kept, keeps]
    rw [second.content?, first.content?, destination, same, Directory.kept_append]
    split
    · simp only [Option.map_map, Function.comp_def, withLines_append]
    · rfl

theorem delivers_writeAll (lines : List String) :
    journal.Delivers lines (journal.writeAll lines) := by
  induction lines generalizing journal with
  | nil =>
      refine ⟨by simp [writeAll], fun name => ?_⟩
      have nothing : journal.directory.kept name [] = [] := ite_self []
      rw [nothing]
      split
      · exact Option.map_id'.symm
      · rfl
  | cons line rest ih =>
      exact (journal.delivers_write line).append (ih (journal.write line))
        (journal.destination?_write line) (journal.keeps_write line)

/-! ## Messages -/

/-- What the limits say about a message of a category that comes now. -/
def judged (category : Category) : Verdict × Window :=
  (journal.windows.get category).judge journal.rate (journal.clock journal.readings)

/-- A message that is shown is judged by the limits of its category, and the entries of
the verdict are all that is written. -/
theorem offer_of_allowed {category : Category} {level : Level}
    (allowed : journal.levels.allows category level = true) (text : Thunk String) :
    journal.offer category level text =
      ((journal.judged category).1.admitted,
        (journal.writeAll (((journal.judged category).1.entries category text).map
          Entry.line)).adjusted journal.levels journal.rate
            (journal.windows.set category (journal.judged category).2) (journal.readings + 1)) := by
  let verdict := (journal.judged category).1
  have written := journal.writeAll_adjusted journal.levels journal.rate
    (journal.windows.set category (journal.judged category).2) (journal.readings + 1)
    ((verdict.entries category text).map Entry.line)
  have judgement : (journal.windows.get category).judge journal.rate
      (journal.clock journal.readings) = (verdict, (journal.judged category).2) := rfl
  rw [← written]
  simp only [offer, allowed, judgement, ↓reduceIte]
  cases report : verdict.report <;> cases admitted : verdict.admitted <;>
    simp [writeReport, Verdict.entries, report, admitted, writeAll, adjusted, Entry.line]

theorem offer_of_hidden {category : Category} {level : Level}
    (hidden : journal.levels.allows category level = false) (text : Thunk String) :
    journal.offer category level text = (false, journal) := by
  simp only [offer, hidden, Bool.false_eq_true, ↓reduceIte]

/-! ## Events -/

/-- Lines were written to a journal, and nothing else was. Only its limits may have
moved meanwhile, and its clock was read. -/
structure Wrote (before : Journal) (lines : List String) (after : Journal) : Prop
    extends Delivers before lines after where
  settled : ∃ windows readings, after =
    (before.writeAll lines).adjusted before.levels before.rate windows readings

theorem wrote_adjusted (lines : List String) (windows : PerCategory Window) (readings : Nat) :
    journal.Wrote lines
      ((journal.writeAll lines).adjusted journal.levels journal.rate windows readings) :=
  ⟨⟨(journal.delivers_writeAll lines).errorStream, (journal.delivers_writeAll lines).content?⟩,
    windows, readings, rfl⟩

theorem wrote_nothing : journal.Wrote [] journal :=
  journal.wrote_adjusted [] journal.windows journal.readings

theorem recordAll_append (events later : List Event) :
    journal.recordAll (events ++ later) = (journal.recordAll events).recordAll later :=
  List.foldl_append

def entriesFor (event : Event) : List Entry :=
  if journal.levels.allows event.category event.level then
    (journal.judged event.category).1.entries event.category event.line
  else []

/-- The lines that events come to, one after the other. -/
def linesFor (journal : Journal) (events : List Event) : List String :=
  match events with
  | [] => []
  | event :: rest =>
      (journal.entriesFor event).map Entry.line ++ (journal.record event).linesFor rest

theorem wrote_record (event : Event) :
    journal.Wrote ((journal.entriesFor event).map Entry.line) (journal.record event) := by
  unfold entriesFor
  cases allowed : journal.levels.allows event.category event.level with
  | true =>
      have offered := journal.offer_of_allowed allowed (Thunk.mk fun _ => event.line)
      have recorded : journal.record event = _ := congrArg Prod.snd offered
      rw [recorded]
      exact journal.wrote_adjusted _ _ _
  | false =>
      have offered := journal.offer_of_hidden allowed (Thunk.mk fun _ => event.line)
      have recorded : journal.record event = journal := congrArg Prod.snd offered
      rw [recorded]
      exact journal.wrote_nothing

variable {journal} in
theorem Wrote.append {later last : Journal} {lines more : List String}
    (first : journal.Wrote lines later) (second : later.Wrote more last) :
    journal.Wrote (lines ++ more) last := by
  obtain ⟨windows, readings, rfl⟩ := first.settled
  obtain ⟨final, count, rfl⟩ := second.settled
  rw [writeAll_adjusted, ← writeAll_append]
  exact journal.wrote_adjusted _ final count

theorem wrote_linesFor (events : List Event) :
    journal.Wrote (journal.linesFor events) (journal.recordAll events) := by
  induction events generalizing journal with
  | nil => exact journal.wrote_nothing
  | cons event rest ih => exact (journal.wrote_record event).append (ih (journal.record event))

end Journal
end Log
end Chip8

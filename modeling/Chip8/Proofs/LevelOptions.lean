import Chip8.CommandLine.Run
import Chip8.Proofs.Keyword

/-!
# Options for log levels

Names of levels and categories are the same however they are spelled. Of the levels that a
command line gives to one category the last one counts, and the first assignment that
cannot be read decides how the command line fails.
-/

set_option autoImplicit false

namespace Chip8

open Text (Respelled TrimsTo)

namespace Log

def Level.names : List String :=
  ["off", "none", "0", "error", "err", "1", "warn", "warning", "2", "info", "3", "debug", "4",
    "trace", "5"]

def Category.names : List String :=
  ["cpu", "memory", "mem", "display", "gfx", "input", "keys", "timers", "timer", "stubs"]

theorem Level.keyword_mem_names {text : String} {level : Level}
    (read : Level.ofText? text = some level) : Text.keyword text ∈ Level.names := by
  unfold ofText? at read
  split at read <;> simp_all [Level.names]

theorem Category.keyword_mem_names {text : String} {category : Category}
    (read : Category.ofText? text = some category) : Text.keyword text ∈ Category.names := by
  unfold ofText? at read
  split at read <;> simp_all [Category.names]

theorem ascii_names :
    ∀ name ∈ Level.names ++ Category.names, ∀ letter ∈ name.toList, letter.toNat < 128 := by
  simp [Level.names, Category.names]

end Log

namespace CommandLine

open Log (Category Level Levels)

/-- A text such as `timers=debug`, with the name of a category before its first equals
sign and a level after it. -/
inductive Assigns : String → Category → Level → Prop
  | intro {name value : String} {category : Category} {level : Level} (first : '=' ∉ name.toList)
      (named : Category.ofText? name = some category) (read : Level.ofText? value = some level) :
      Assigns (name ++ "=" ++ value) category level

/-- What is wrong with a text that assigns nothing. -/
inductive Faulty : String → Failure → Prop
  | unmarked {text : String} (missing : '=' ∉ text.toList) : Faulty text (.notAnAssignment text)
  | category {name value : String} (first : '=' ∉ name.toList)
      (unnamed : Category.ofText? name = none) :
      Faulty (name ++ "=" ++ value) (.unknownCategory name)
  | level {name value : String} {category : Category} (first : '=' ∉ name.toList)
      (named : Category.ofText? name = some category) (unread : Level.ofText? value = none) :
      Faulty (name ++ "=" ++ value) (.unknownLevel value)

/-! ## One assignment -/

theorem splitFirst?_of_first {name : String} (first : '=' ∉ name.toList) (value : String) :
    Text.splitFirst? '=' (name ++ "=" ++ value) = some (name, value) := by
  have others := Text.forall_ne_separator first
  have letters : (name ++ "=" ++ value).toList = name.toList ++ '=' :: value.toList := by
    rw [String.toList_append, String.toList_append, List.append_assoc]
    rfl
  have cut : (name.toList ++ '=' :: value.toList).span (fun letter => letter ≠ '=') =
      (name.toList, '=' :: value.toList) := by
    rw [List.span_eq_takeWhile_dropWhile, List.takeWhile_append_of_pos others,
      List.dropWhile_append_of_pos others, List.takeWhile_cons, List.dropWhile_cons]
    simp
  rw [Text.splitFirst?, letters, cut]
  simp only [String.ofList_toList]

theorem splitFirst?_of_missing {text : String} (missing : '=' ∉ text.toList) :
    Text.splitFirst? '=' text = none := by
  rw [Text.splitFirst?, List.span_eq_takeWhile_dropWhile,
    List.dropWhile_eq_nil_iff.mpr (Text.forall_ne_separator missing)]

theorem exists_first {text : String} (marked : '=' ∈ text.toList) :
    ∃ name value : String, '=' ∉ name.toList ∧ text = name ++ "=" ++ value := by
  obtain ⟨name, value, letters, first⟩ := List.eq_append_cons_of_mem marked
  refine ⟨String.ofList name, String.ofList value, ?_, ?_⟩
  · rw [String.toList_ofList]
    exact first
  · rw [← String.toList_inj, letters]
    simp

theorem readAssignment_of_assigns {text : String} {category : Category} {level : Level}
    (assigns : Assigns text category level) : readAssignment text = .ok (category, level) := by
  cases assigns with
  | intro first named read =>
      simp only [readAssignment, splitFirst?_of_first first, named, readLevel, read]
      rfl

theorem readAssignment_of_faulty {text : String} {failure : Failure}
    (faulty : Faulty text failure) : readAssignment text = .error failure := by
  cases faulty with
  | unmarked missing => simp only [readAssignment, splitFirst?_of_missing missing]
  | category first unnamed => simp only [readAssignment, splitFirst?_of_first first, unnamed]
  | level first named unread =>
      simp only [readAssignment, splitFirst?_of_first first, named, readLevel, unread]
      rfl

theorem not_assigns {text : String} {named category : Category} {level : Level}
    (read : readAssignment text = .ok (named, level)) (different : named ≠ category) :
    ∀ level, ¬ Assigns text category level := by
  intro other assigns
  cases read.symm.trans (readAssignment_of_assigns assigns)
  exact different rfl

theorem assigns_or_faulty (text : String) :
    (∃ category level, Assigns text category level) ∨ ∃ failure, Faulty text failure := by
  by_cases marked : '=' ∈ text.toList
  · obtain ⟨name, value, first, rfl⟩ := exists_first marked
    cases named : Category.ofText? name with
    | none => exact .inr ⟨_, .category first named⟩
    | some category =>
        cases read : Level.ofText? value with
        | none => exact .inr ⟨_, .level first named read⟩
        | some level => exact .inl ⟨category, level, first, named, read⟩
  · exact .inr ⟨_, .unmarked marked⟩

/-! ## All assignments -/

def assignAll (levels : Levels) (texts : List String) : Except Failure Levels :=
  texts.foldlM
    (fun levels text => (readAssignment text).map fun (category, level) => levels.set category level)
    levels

theorem assignAll_cons_of_assigns {text : String} {category : Category} {level : Level}
    (assigns : Assigns text category level) (levels : Levels) (rest : List String) :
    assignAll levels (text :: rest) = assignAll (levels.set category level) rest := by
  rw [assignAll, List.foldlM_cons, readAssignment_of_assigns assigns]
  rfl

theorem assignAll_cons_of_faulty {text : String} {failure : Failure} (faulty : Faulty text failure)
    (levels : Levels) (rest : List String) :
    assignAll levels (text :: rest) = .error failure := by
  rw [assignAll, List.foldlM_cons, readAssignment_of_faulty faulty]
  rfl

theorem assignAll_append {levels : Levels} {earlier : List String} {reached : Levels}
    (made : assignAll levels earlier = .ok reached) (later : List String) :
    assignAll levels (earlier ++ later) = assignAll reached later := by
  rw [assignAll] at made
  rw [assignAll, List.foldlM_append, made]
  rfl

theorem exists_assignAll_of_prefix {levels final : Levels} {earlier later : List String}
    (made : assignAll levels (earlier ++ later) = .ok final) :
    ∃ reached, assignAll levels earlier = .ok reached := by
  rw [assignAll, List.foldlM_append] at made
  cases first : assignAll levels earlier with
  | error failure =>
      rw [assignAll] at first
      rw [first] at made
      cases made
  | ok reached => exact ⟨reached, rfl⟩

theorem get_assignAll_of_unnamed {levels final : Levels} {texts : List String}
    (made : assignAll levels texts = .ok final) {category : Category}
    (unnamed : ∀ text ∈ texts, ∀ level, ¬ Assigns text category level) :
    final.own.get category = levels.own.get category := by
  induction texts generalizing levels with
  | nil =>
      cases made
      rfl
  | cons text rest ih =>
      have spared : ∀ other ∈ rest, ∀ level, ¬ Assigns other category level :=
        fun other member => unnamed other (List.mem_cons_of_mem text member)
      obtain ⟨named, level, assigns⟩ | ⟨failure, faulty⟩ := assigns_or_faulty text
      · have other : category ≠ named := by
          rintro rfl
          exact unnamed text List.mem_cons_self level assigns
        rw [assignAll_cons_of_assigns assigns] at made
        exact (ih made spared).trans ((Log.PerCategory.get_set _ _ _ _).trans (if_neg other))
      · rw [assignAll_cons_of_faulty faulty] at made
        cases made

theorem get_assignAll_of_last {levels final : Levels} {earlier later : List String} {text : String}
    (made : assignAll levels (earlier ++ text :: later) = .ok final) {category : Category}
    {level : Level} (assigns : Assigns text category level)
    (last : ∀ other ∈ later, ∀ level, ¬ Assigns other category level) :
    final.own.get category = level := by
  obtain ⟨reached, before⟩ := exists_assignAll_of_prefix made
  rw [assignAll_append before, assignAll_cons_of_assigns assigns] at made
  exact (get_assignAll_of_unnamed made last).trans
    ((Log.PerCategory.get_set _ _ _ _).trans (if_pos rfl))

theorem assignAll_eq_error_iff (levels : Levels) (texts : List String) (failure : Failure) :
    assignAll levels texts = .error failure ↔
      ∃ earlier text later, texts = earlier ++ text :: later ∧
        (∀ other ∈ earlier, ∃ category level, Assigns other category level) ∧
        Faulty text failure := by
  constructor
  · intro failed
    induction texts generalizing levels with
    | nil => cases failed
    | cons text rest ih =>
        obtain ⟨category, level, assigns⟩ | ⟨other, faulty⟩ := assigns_or_faulty text
        · rw [assignAll_cons_of_assigns assigns] at failed
          obtain ⟨earlier, bad, later, rfl, good, faulty⟩ := ih _ failed
          refine ⟨text :: earlier, bad, later, rfl, ?_, faulty⟩
          intro other member
          obtain rfl | before := List.mem_cons.mp member
          · exact ⟨category, level, assigns⟩
          · exact good other before
        · rw [assignAll_cons_of_faulty faulty] at failed
          cases failed
          exact ⟨[], text, rest, rfl, nofun, faulty⟩
  · rintro ⟨earlier, text, later, rfl, good, faulty⟩
    induction earlier generalizing levels with
    | nil => exact assignAll_cons_of_faulty faulty levels later
    | cons first rest ih =>
        obtain ⟨⟨category, level, assigns⟩, remaining⟩ := List.forall_mem_cons.mp good
        rw [List.cons_append, assignAll_cons_of_assigns assigns]
        exact ih _ remaining

/-! ## A request -/

def startLevels (overall : Level) (cpu : Option Level) : Levels :=
  match cpu with
  | some level => ({ overall } : Levels).set .cpu level
  | none => { overall }

theorem get_startLevels (overall : Level) (cpu : Option Level) (category : Category) :
    (startLevels overall cpu).own.get category =
      if category = .cpu then cpu.getD .off else .off := by
  cases cpu <;> cases category <;> rfl

/-- The level for everything and the one for instructions can be read, if there is one. -/
def Options.LevelsRead (options : Options) : Prop :=
  (Level.ofText? options.logLevel).isSome = true ∧
    ∀ text, options.logCpu = some text → (Level.ofText? text).isSome = true

theorem Options.LevelsRead.levels_eq {options : Options} (read : options.LevelsRead) :
    ∃ overall, options.levels =
      assignAll (startLevels overall (options.logCpu.bind Level.ofText?)) options.logCategories := by
  obtain ⟨overall, known⟩ := Option.isSome_iff_exists.mp read.1
  refine ⟨overall, ?_⟩
  cases given : options.logCpu with
  | none =>
      simp only [Options.levels, readLevel, known, given]
      rfl
  | some text =>
      obtain ⟨level, cpuKnown⟩ := Option.isSome_iff_exists.mp (read.2 text given)
      simp only [Options.levels, readLevel, known, given, cpuKnown, Option.bind_some]
      rfl

theorem levelsRead_of_levels {options : Options} {levels : Levels}
    (made : options.levels = .ok levels) : options.LevelsRead := by
  cases known : Level.ofText? options.logLevel with
  | none =>
      simp only [Options.levels, readLevel, known] at made
      cases made
  | some overall =>
      refine ⟨by rw [known]; rfl, ?_⟩
      intro text given
      cases cpuKnown : Level.ofText? text with
      | none =>
          simp only [Options.levels, readLevel, known, given, cpuKnown] at made
          cases made
      | some level => rfl

/-- Levels and categories are read from a text whatever the blanks around it and the case
of its letters, but never from one with a letter outside ASCII. If all assignments of a
command line can be read, a category has the level of the last one that names it; one
that none names has no level of its own, or, for instructions, the one that is given for
them alone. Otherwise the first assignment that cannot be read tells how the command line
fails. -/
theorem last_assignment_wins :
    (∀ text changed : String, Respelled text changed →
      Level.ofText? changed = Level.ofText? text ∧
        Category.ofText? changed = Category.ofText? text) ∧
      (∀ (text : String) (core : List Char), TrimsTo text.toList core →
        (∃ letter ∈ core, 128 ≤ letter.toNat) →
          Level.ofText? text = none ∧ Category.ofText? text = none) ∧
      (∀ (options : Options) (levels : Levels), options.levels = .ok levels →
        (∀ earlier text later, options.logCategories = earlier ++ text :: later →
          ∀ category level, Assigns text category level →
            (∀ other ∈ later, ∀ level, ¬ Assigns other category level) →
              levels.own.get category = level) ∧
          ∀ category, (∀ text ∈ options.logCategories, ∀ level, ¬ Assigns text category level) →
            levels.own.get category =
              if category = .cpu then (options.logCpu.bind Level.ofText?).getD .off else .off) ∧
      ∀ (options : Options) (failure : Failure), options.LevelsRead →
        (options.levels = .error failure ↔
          ∃ earlier text later, options.logCategories = earlier ++ text :: later ∧
            (∀ other ∈ earlier, ∃ category level, Assigns other category level) ∧
            Faulty text failure) := by
  refine ⟨?_, ?_, ?_, ?_⟩
  · intro text changed respelled
    rw [Level.ofText?, Level.ofText?, Category.ofText?, Category.ofText?, respelled.keyword_eq]
    exact ⟨rfl, rfl⟩
  · rintro text core trimmed ⟨letter, member, foreign⟩
    have kept : letter ∈ (Text.keyword text).toList := trimmed.mem_keyword foreign member
    have unknown : Text.keyword text ∉ Level.names ++ Category.names := by
      intro known
      exact absurd (Log.ascii_names _ known letter kept) (Nat.not_lt_of_le foreign)
    constructor
    · cases read : Level.ofText? text with
      | none => rfl
      | some level =>
          exact absurd (List.mem_append_left _ (Level.keyword_mem_names read)) unknown
    · cases read : Category.ofText? text with
      | none => rfl
      | some category =>
          exact absurd (List.mem_append_right _ (Category.keyword_mem_names read)) unknown
  · intro options levels made
    obtain ⟨overall, assigned⟩ := (levelsRead_of_levels made).levels_eq
    rw [assigned] at made
    constructor
    · intro earlier text later texts category level assigns last
      rw [texts] at made
      exact get_assignAll_of_last made assigns last
    · intro category unnamed
      exact (get_assignAll_of_unnamed made unnamed).trans (get_startLevels _ _ category)
  · intro options failure read
    obtain ⟨overall, assigned⟩ := read.levels_eq
    rw [assigned]
    exact assignAll_eq_error_iff _ options.logCategories failure

/-- A level that is taken back under another name of its category, a name with a sign for
which an ASCII letter stands elsewhere, and an assignment without an equals sign. -/
theorem last_assignment_wins_of_overruled :
    let options : Options :=
      { program := "a", logCpu := some "Trace", logCategories := ["mem=info", "MEMORY = off", "gfx=3"] }
    let levels : Levels :=
      { overall := .warn, own := { Log.PerCategory.const .off with cpu := .trace, display := .info } }
    let failing : Options := { program := "a", logCategories := ["mem=info", "gfx", "mem=loud"] }
    Respelled "memory" "\u00a0MEMORY " ∧
      Category.ofText? "\u00a0MEMORY " = Category.ofText? "memory" ∧
      TrimsTo " \u212aeys".toList "\u212aeys".toList ∧ Category.ofText? " \u212aeys" = none ∧
      options.levels = .ok levels ∧ levels.own.get .memory = .off ∧ levels.own.get .cpu = .trace ∧
      failing.LevelsRead ∧ failing.levels = .error (.notAnAssignment "gfx") := by
  intro options levels failing
  obtain ⟨spellings, foreign, wins, fails⟩ := last_assignment_wins
  have blank : Text.AllBlank [' '] := by simp [Text.AllBlank, Text.isBlank]
  have respelled : Respelled "memory" "\u00a0MEMORY " := by
    have recased : Text.Recased "memory".toList "MEMORY".toList :=
      .cons (.inr (.inr (by decide))) (.cons (.inr (.inr (by decide)))
        (.cons (.inr (.inr (by decide))) (.cons (.inr (.inr (by decide)))
          (.cons (.inr (.inr (by decide))) (.cons (.inr (.inr (by decide))) .nil)))))
    have hard : Text.AllBlank ['\u00a0'] := by simp [Text.AllBlank, Text.isBlank]
    exact .intro hard blank recased
  have trimmed : TrimsTo " \u212aeys".toList "\u212aeys".toList := by
    refine ⟨⟨[' '], [], blank, by simp [Text.AllBlank], by simp⟩, ?_, ?_⟩ <;> simp [Text.isBlank]
  have made : options.levels = .ok levels := by cbv
  have overruled : Assigns "MEMORY = off" .memory .off :=
    @Assigns.intro "MEMORY " " off" .memory .off (by decide) (by decide) (by decide)
  have fine : Assigns "mem=info" .memory .info :=
    @Assigns.intro "mem" "info" .memory .info (by decide) (by decide) (by decide)
  have unmarked : Faulty "gfx" (.notAnAssignment "gfx") := .unmarked (by decide)
  have read : failing.LevelsRead := ⟨by decide, by intro text given; cases given⟩
  have info : readAssignment "mem=info" = .ok (.memory, .info) := readAssignment_of_assigns fine
  have off : readAssignment "MEMORY = off" = .ok (.memory, .off) :=
    readAssignment_of_assigns overruled
  have display : readAssignment "gfx=3" = .ok (.display, .info) := by cbv
  have last : ∀ other ∈ ["gfx=3"], ∀ level, ¬ Assigns other .memory level := by
    intro other member
    cases List.mem_singleton.mp member
    exact not_assigns display (by decide)
  have uncounted : ∀ text ∈ options.logCategories, ∀ level, ¬ Assigns text .cpu level := by
    intro text member
    obtain rfl | rfl | rfl := by simpa [options] using member
    · exact not_assigns info (by decide)
    · exact not_assigns off (by decide)
    · exact not_assigns display (by decide)
  obtain ⟨named, others⟩ := wins options levels made
  refine ⟨respelled, (spellings _ _ respelled).2, trimmed,
    (foreign _ _ trimmed ⟨'\u212a', by decide, by decide⟩).2, made,
    named ["mem=info"] "MEMORY = off" ["gfx=3"] rfl .memory .off overruled last,
    others .cpu uncounted, read, ?_⟩
  refine (fails failing _ read).mpr ⟨["mem=info"], "gfx", ["mem=loud"], rfl, ?_, unmarked⟩
  intro other member
  cases List.mem_singleton.mp member
  exact ⟨.memory, .info, fine⟩

end CommandLine
end Chip8

import Chip8.CommandLine.Arguments
import Chip8.CommandLine.Run
import Chip8.Proofs.StoredForms
import Mathlib.Data.List.Count
import Mathlib.Data.List.Nodup
import Mathlib.Data.Option.Basic

/-!
# Settings files

Where the settings of a run come from. A flag goes before the settings file and the file
goes before the standard settings; members that are not settings and the order of members
make no difference. A file that gives a setting twice is refused.
-/

set_option autoImplicit false

namespace Chip8

/-! ## Choices -/

/-- The value is the one of the flag if there is one, else the one that the file gives, else
the standard one. -/
inductive Chosen {α : Type} (flag : Option α) (given : α → Prop) (standard : α) : α → Prop where
  | flag {value} : flag = some value → Chosen flag given standard value
  | file {value} : flag = none → given value → Chosen flag given standard value
  | standard : flag = none → (∀ value, ¬ given value) → Chosen flag given standard standard

namespace Chosen

variable {α : Type} {flag : Option α} {given : α → Prop} {standard first second : α}

theorem getD (chosen : Chosen none given standard first) :
    Chosen flag given standard (flag.getD first) := by
  cases chosen with
  | flag none => cases none
  | file _ known =>
      cases flag with
      | none => exact .file rfl known
      | some value => exact .flag rfl
  | standard _ unknown =>
      cases flag with
      | none => exact .standard rfl unknown
      | some value => exact .flag rfl

theorem unique (single : ∀ first second, given first → given second → first = second)
    (one : Chosen flag given standard first) (other : Chosen flag given standard second) :
    first = second := by
  cases one with
  | flag known =>
      cases other with
      | flag same => exact Option.some.inj (known.symm.trans same)
      | file none | standard none => cases known.symm.trans none
  | file none known =>
      cases other with
      | flag some => cases none.symm.trans some
      | file _ same => exact single _ _ known same
      | standard _ unknown => exact absurd known (unknown _)
  | standard none unknown =>
      cases other with
      | flag some => cases none.symm.trans some
      | file _ known => exact absurd known (unknown _)
      | standard => rfl

end Chosen

namespace Json

/-! ## Members of a record -/

theorem members?_nameless {names : List String} {members : List (JsonText × Json)}
    (nameless : none ∈ members.map Prod.fst) : (object members).members? names = none := by
  have stuck : members.mapM (fun member : JsonText × Json =>
      member.1.map fun key => (key, member.2)) = none := by
    induction members with
    | nil => cases nameless
    | cons member rest ih =>
        obtain ⟨key, value⟩ := member
        rw [List.mapM_cons]
        cases key with
        | none => rfl
        | some key =>
            have later : none ∈ rest.map Prod.fst := by simpa using nameless
            rw [ih later]
            rfl
  exact congrArg (Option.bind · _) stuck

theorem nodup_known_iff {names : List String} {members : List (String × Json)} :
    ((members.filter fun member => names.contains member.1).map Prod.fst).Nodup ↔
      ∀ name ∈ names, (members.map Prod.fst).count name ≤ 1 := by
  have keys : (members.filter fun member => names.contains member.1).map Prod.fst =
      (members.map Prod.fst).filter names.contains := by
    rw [List.filter_map]
    rfl
  rw [keys, List.nodup_iff_count_le_one]
  constructor
  · intro single name known
    have kept := single name
    rwa [List.count_filter (List.contains_iff_mem.mpr known)] at kept
  · intro single name
    by_cases known : name ∈ names
    · rw [List.count_filter (List.contains_iff_mem.mpr known)]
      exact single name known
    · have absent : name ∉ (members.map Prod.fst).filter names.contains :=
        fun member => known (List.contains_iff_mem.mp (List.mem_filter.mp member).2)
      rw [List.count_eq_zero.mpr absent]
      exact Nat.zero_le 1

theorem exists_named {members : List (JsonText × Json)} (named : none ∉ members.map Prod.fst) :
    ∃ known : List (String × Json), members = known.map fun (key, value) => (some key, value) := by
  induction members with
  | nil => exact ⟨[], rfl⟩
  | cons member rest ih =>
      obtain ⟨key, value⟩ := member
      obtain ⟨first, others⟩ := not_or.mp (List.mem_cons.not.mp named)
      obtain ⟨known, rfl⟩ := ih others
      cases key with
      | none => exact absurd rfl first
      | some key => exact ⟨(key, value) :: known, rfl⟩

theorem chosen_of_lookup {α : Type} {members : List (String × Json)} {name : String}
    {read : Json → Option α} {given : α → Prop} (standard : α)
    (found : ∀ json, (name, json) ∈ members → ∃ value, read json = some value ∧ given value)
    (listed : ∀ value, given value → ∃ json, (name, json) ∈ members) :
    ∃ value, (members.lookup name).elim (some standard) read = some value ∧
      Chosen none given standard value := by
  cases present : members.lookup name with
  | none =>
      refine ⟨standard, rfl, .standard rfl ?_⟩
      intro value known
      obtain ⟨json, member⟩ := listed value known
      have other := List.lookup_eq_none_iff.mp present _ member
      simp at other
  | some json =>
      obtain ⟨before, after, split, -⟩ := List.lookup_eq_some_iff.mp present
      have member : (name, json) ∈ members := by simp [split]
      obtain ⟨value, read, known⟩ := found json member
      exact ⟨value, read, .file rfl known⟩

end Json

namespace Config

/-! ## Files -/

def fieldNames : List String := ["cycles_per_frame", "unknown_opcode", "rng_seed"]

/-- A member of a settings file: a setting with a value that it can have, or anything under
another name. -/
inductive Entry where
  | cyclesPerFrame (value : UInt32)
  /-- A policy may also stand as the only key of an object. -/
  | unknownOpcode (policy : UnknownOpcodePolicy) (asKey : Bool)
  | seed (value : Option UInt64)
  | other (name : String) (value : Json) (foreign : name ∉ fieldNames)

namespace Entry

def name : Entry → String
  | .cyclesPerFrame _ => "cycles_per_frame"
  | .unknownOpcode .. => "unknown_opcode"
  | .seed _ => "rng_seed"
  | .other name .. => name

def value : Entry → Json
  | .cyclesPerFrame value => .natural value.toNat
  | .unknownOpcode policy false => .string policy.name
  | .unknownOpcode policy true => .object [(some policy.name, .null)]
  | .seed (some value) => .natural value.toNat
  | .seed none => .null
  | .other _ value _ => value

def member (entry : Entry) : String × Json := (entry.name, entry.value)

def IsSetting : Entry → Prop
  | .other .. => False
  | _ => True

theorem name_mem {entry : Entry} (setting : entry.IsSetting) : entry.name ∈ fieldNames := by
  cases entry with
  | other => cases setting
  | _ => simp [name, fieldNames]

end Entry

def Repeats (names : List JsonText) : Prop := ∃ name ∈ fieldNames, 1 < names.count (some name)

instance (names : List JsonText) : Decidable (Repeats names) :=
  inferInstanceAs (Decidable (∃ name ∈ fieldNames, 1 < names.count (some name)))

theorem not_repeats_iff {members : List (String × Json)} :
    ¬ Repeats (members.map fun member => some member.1) ↔
      ((members.filter fun member => fieldNames.contains member.1).map Prod.fst).Nodup := by
  have counted : ∀ name, (members.map fun member => some member.1).count (some name) =
      (members.map Prod.fst).count name := by
    intro name
    rw [← List.count_map_of_injective _ _ (Option.some_injective String), List.map_map]
    rfl
  rw [Json.nodup_known_iff]
  constructor
  · intro once name known
    rw [← counted]
    exact Nat.le_of_not_lt fun more => once ⟨name, known, more⟩
  · rintro single ⟨name, known, more⟩
    rw [counted] at more
    exact absurd (single name known) (Nat.not_le_of_lt more)

theorem ofJson?_eq (json : Json) :
    ofJson? json = (json.members? fieldNames).bind fun members =>
      ((members.lookup "cycles_per_frame").elim (some 20) Json.word32?).bind fun cyclesPerFrame =>
        ((members.lookup "unknown_opcode").elim (some .stall) UnknownOpcodePolicy.ofJson?).bind
          fun unknownOpcode =>
            ((members.lookup "rng_seed").elim (some none) seedOfJson?).bind fun seed =>
              some { cyclesPerFrame, unknownOpcode, seed } := by
  -- What follows a setting stands in both branches of its look-up.
  refine congrArg (Option.bind _) (funext fun members => ?_)
  cases members.lookup "cycles_per_frame" <;> cases members.lookup "unknown_opcode" <;>
    cases members.lookup "rng_seed" <;> rfl

theorem ofJson?_of_refused {members : List (JsonText × Json)}
    (refused : none ∈ members.map Prod.fst ∨ Repeats (members.map Prod.fst)) :
    ofJson? (.object members) = none := by
  have stuck : (Json.object members).members? fieldNames = none := by
    by_cases nameless : none ∈ members.map Prod.fst
    · exact Json.members?_nameless nameless
    · have repeated := refused.resolve_left nameless
      obtain ⟨known, rfl⟩ := Json.exists_named nameless
      rw [List.map_map] at repeated
      refine (Json.members?_named fieldNames known).trans (if_neg ?_)
      intro distinct
      exact not_repeats_iff.mpr distinct repeated
  rw [ofJson?_eq, stuck, Option.bind_none]

/-- The settings are those of the flags, of the file and the standard ones, in this order. -/
structure Resolves (options : CommandLine.Options) (entries : List Entry) (config : Config) :
    Prop where
  cyclesPerFrame : Chosen options.cyclesPerFrame (fun value => .cyclesPerFrame value ∈ entries) 20
    config.cyclesPerFrame
  unknownOpcode : Chosen (if options.skipUnknown then some .skip else none)
    (fun policy => ∃ asKey, .unknownOpcode policy asKey ∈ entries) .stall config.unknownOpcode
  seed : Chosen (options.seed.map some) (fun value => .seed value ∈ entries) none config.seed

section Entries

variable {entries : List Entry}

theorem chosen_setting {α : Type} {name : String} (known : name ∈ fieldNames)
    (read : Json → Option α) (given : α → Prop) (standard : α)
    (found : ∀ entry ∈ entries, entry.name = name →
      ∃ value, read entry.value = some value ∧ given value)
    (listed : ∀ value, given value → ∃ entry ∈ entries, entry.name = name) :
    ∃ value,
      (((entries.map Entry.member).filter fun member =>
          fieldNames.contains member.1).lookup name).elim (some standard) read = some value ∧
        Chosen none given standard value := by
  have contained : fieldNames.contains name = true := List.contains_iff_mem.mpr known
  apply Json.chosen_of_lookup
  · intro json member
    obtain ⟨entry, inside, same⟩ := List.mem_map.mp (List.mem_filter.mp member).1
    obtain ⟨named, rfl⟩ := Prod.mk.inj same
    exact found entry inside named
  · intro value known
    obtain ⟨entry, inside, rfl⟩ := listed value known
    exact ⟨entry.value, List.mem_filter.mpr ⟨List.mem_map_of_mem inside, contained⟩⟩

theorem other_name {name : String} (known : name ∈ fieldNames) {other : String} {value : Json}
    {foreign : other ∉ fieldNames} : (Entry.other other value foreign).name ≠ name := by
  rintro rfl
  exact foreign known

theorem found_cyclesPerFrame (entry : Entry) (inside : entry ∈ entries)
    (named : entry.name = "cycles_per_frame") :
    ∃ value, entry.value.word32? = some value ∧ .cyclesPerFrame value ∈ entries := by
  cases entry with
  | cyclesPerFrame value => exact ⟨value, Json.word32?_natural value, inside⟩
  | unknownOpcode | seed => simp [Entry.name] at named
  | other => exact absurd named (other_name (by decide))

theorem found_unknownOpcode (entry : Entry) (inside : entry ∈ entries)
    (named : entry.name = "unknown_opcode") :
    ∃ policy, UnknownOpcodePolicy.ofJson? entry.value = some policy ∧
      ∃ asKey, .unknownOpcode policy asKey ∈ entries := by
  cases entry with
  | unknownOpcode policy asKey =>
      refine ⟨policy, ?_, asKey, inside⟩
      cases asKey <;> cases policy <;> rfl
  | cyclesPerFrame | seed => simp [Entry.name] at named
  | other => exact absurd named (other_name (by decide))

theorem found_seed (entry : Entry) (inside : entry ∈ entries) (named : entry.name = "rng_seed") :
    ∃ seed, seedOfJson? entry.value = some seed ∧ .seed seed ∈ entries := by
  cases entry with
  | seed seed =>
      refine ⟨seed, ?_, inside⟩
      cases seed with
      | none => rfl
      | some seed => exact seedOfJson?_natural seed
  | cyclesPerFrame | unknownOpcode => simp [Entry.name] at named
  | other => exact absurd named (other_name (by decide))

variable (once : ¬ Repeats (entries.map fun entry => some entry.name))
include once

theorem nodup_settings :
    (((entries.map Entry.member).filter fun member => fieldNames.contains member.1).map
      Prod.fst).Nodup := by
  apply not_repeats_iff.mp
  rw [List.map_map]
  exact once

theorem ofJson?_entries :
    ∃ config, ofJson? (.record (entries.map Entry.member)) = some config ∧
      ∀ options : CommandLine.Options, Resolves options entries (options.override config) := by
  have members : (Json.record (entries.map Entry.member)).members? fieldNames = _ :=
    (Json.members?_named _ _).trans (if_pos (nodup_settings once))
  obtain ⟨cyclesPerFrame, readCycles, cycles⟩ := chosen_setting (by decide) Json.word32?
    (fun value => .cyclesPerFrame value ∈ entries) 20 found_cyclesPerFrame
    fun value inside => ⟨_, inside, rfl⟩
  obtain ⟨unknownOpcode, readPolicy, policy⟩ := chosen_setting (by decide)
    UnknownOpcodePolicy.ofJson? (fun policy => ∃ asKey, .unknownOpcode policy asKey ∈ entries)
    .stall found_unknownOpcode fun policy ⟨asKey, inside⟩ => ⟨_, inside, rfl⟩
  obtain ⟨seed, readSeed, seeded⟩ := chosen_setting (by decide) seedOfJson?
    (fun seed => .seed seed ∈ entries) none found_seed fun seed inside => ⟨_, inside, rfl⟩
  refine ⟨{ cyclesPerFrame, unknownOpcode, seed }, ?_, ?_⟩
  · rw [ofJson?_eq, members, Option.bind_some, readCycles, Option.bind_some, readPolicy,
      Option.bind_some, readSeed, Option.bind_some]
  · intro options
    have overriding : (options.override { cyclesPerFrame, unknownOpcode, seed }).unknownOpcode =
        (if options.skipUnknown then some .skip else none).getD unknownOpcode := by
      rw [CommandLine.Options.override]
      cases options.skipUnknown <;> rfl
    have seeding : (options.override { cyclesPerFrame, unknownOpcode, seed }).seed =
        (options.seed.map some).getD seed := by
      rw [CommandLine.Options.override]
      cases options.seed <;> rfl
    refine ⟨cycles.getD, ?_, ?_⟩
    · rw [overriding]
      exact policy.getD
    · rw [seeding]
      exact seeded.getD

theorem entry_unique {first second : Entry} (one : first ∈ entries) (other : second ∈ entries)
    (setting : first.IsSetting) (same : first.name = second.name) : first = second := by
  have kept : ∀ entry ∈ entries, entry.name ∈ fieldNames →
      entry ∈ entries.filter fun entry => fieldNames.contains entry.name :=
    fun entry inside known => List.mem_filter.mpr ⟨inside, List.contains_iff_mem.mpr known⟩
  have distinct : ((entries.filter fun entry => fieldNames.contains entry.name).map
      Entry.name).Nodup := by
    have settings := nodup_settings once
    rwa [List.filter_map, List.map_map] at settings
  have known := Entry.name_mem setting
  exact List.inj_on_of_nodup_map distinct (kept first one known)
    (kept second other (same ▸ known)) same

end Entries

namespace Resolves

variable {options : CommandLine.Options} {entries others : List Entry} {config other : Config}

theorem congr (resolved : Resolves options entries config)
    (same : ∀ entry : Entry, entry.IsSetting → (entry ∈ entries ↔ entry ∈ others)) :
    Resolves options others config := by
  obtain ⟨cycles, policy, seed⟩ := resolved
  have sameCycles := fun value => propext (same (.cyclesPerFrame value) trivial)
  have samePolicy := fun policy asKey => propext (same (.unknownOpcode policy asKey) trivial)
  have sameSeed := fun value => propext (same (.seed value) trivial)
  simp only [sameCycles, samePolicy, sameSeed] at cycles policy seed
  exact ⟨cycles, policy, seed⟩

theorem unique (once : ¬ Repeats (entries.map fun entry => some entry.name))
    (one : Resolves options entries config) (two : Resolves options entries other) :
    config = other := by
  have cycles : config.cyclesPerFrame = other.cyclesPerFrame := by
    refine one.cyclesPerFrame.unique ?_ two.cyclesPerFrame
    intro first second here there
    exact Entry.cyclesPerFrame.inj (entry_unique once here there trivial rfl)
  have policy : config.unknownOpcode = other.unknownOpcode := by
    refine one.unknownOpcode.unique ?_ two.unknownOpcode
    rintro first second ⟨_, here⟩ ⟨_, there⟩
    exact (Entry.unknownOpcode.inj (entry_unique once here there trivial rfl)).1
  have seed : config.seed = other.seed := by
    refine one.seed.unique ?_ two.seed
    intro first second here there
    exact Entry.seed.inj (entry_unique once here there trivial rfl)
  obtain ⟨_, _, _⟩ := config
  obtain ⟨_, _, _⟩ := other
  cases cycles
  cases policy
  cases seed
  rfl

end Resolves
end Config

/-! ## Requests -/

namespace CommandLine

open Config (Entry Repeats Resolves)

variable {options : Options} {directory : Directory} {path text : String}

theorem fromUTF8?_toUTF8 (text : String) : String.fromUTF8? text.toUTF8 = some text := by
  have valid : text.toUTF8.IsValidUTF8 := text.isValidUTF8
  rw [String.fromUTF8?, dif_pos valid]
  rfl

theorem settings_of_spelling {json : Json} (named : options.config = some path)
    (stored : directory.read? path = some text.toUTF8) (spelled : json.Spelling text) :
    options.settings directory =
      match Config.ofJson? json with
      | some config => .ok (options.override config)
      | none => .error (.configMalformed path) := by
  have read : Config.ofText? text = Config.ofJson? json := by
    rw [Config.ofText?, Json.parse?_of_spelling spelled, Option.bind_some]
  have file : readConfig directory path =
      match Config.ofJson? json with
      | some config => .ok config
      | none => .error (.configMalformed path) := by
    rw [readConfig, stored, Option.bind_some, fromUTF8?_toUTF8]
    dsimp only
    rw [read]
    cases Config.ofJson? json <;> rfl
  rw [Options.settings, named]
  dsimp only
  rw [file]
  cases Config.ofJson? json <;> rfl

theorem settings_of_entries {entries : List Entry} (named : options.config = some path)
    (stored : directory.read? path = some text.toUTF8)
    (spelled : (Json.record (entries.map Entry.member)).Spelling text)
    (once : ¬ Repeats (entries.map fun entry => some entry.name)) :
    ∃ config, options.settings directory = .ok config ∧ Resolves options entries config := by
  obtain ⟨config, read, resolved⟩ := Config.ofJson?_entries once
  refine ⟨options.override config, ?_, resolved options⟩
  rw [settings_of_spelling named stored spelled, read]

/-- Each setting of a request comes from its flag, else from its file, else it is the standard
one, so order and other members of the file make no difference. A file that gives a setting
twice is refused, and so is one with a name that stands for no text. -/
theorem settings_prefer_flags (named : options.config = some path)
    (stored : directory.read? path = some text.toUTF8) :
    (∀ entries : List Entry, (Json.record (entries.map Entry.member)).Spelling text →
        ¬ Repeats (entries.map fun entry => some entry.name) →
        ∃ config, options.settings directory = .ok config ∧ Resolves options entries config ∧
          ∀ (others : List Entry) (other : Directory) (otherText : String),
            other.read? path = some otherText.toUTF8 →
            (Json.record (others.map Entry.member)).Spelling otherText →
            ¬ Repeats (others.map fun entry => some entry.name) →
            (∀ entry : Entry, entry.IsSetting → (entry ∈ entries ↔ entry ∈ others)) →
            options.settings other = .ok config) ∧
      ∀ members : List (JsonText × Json), (Json.object members).Spelling text →
        none ∈ members.map Prod.fst ∨ Repeats (members.map Prod.fst) →
        options.settings directory = .error (.configMalformed path) := by
  refine ⟨?_, ?_⟩
  · intro entries spelled once
    obtain ⟨config, found, resolved⟩ := settings_of_entries named stored spelled once
    refine ⟨config, found, resolved, ?_⟩
    intro others other otherText storedThere spelledThere onceThere same
    obtain ⟨there, foundThere, resolvedThere⟩ :=
      settings_of_entries named storedThere spelledThere onceThere
    obtain rfl : config = there := (resolved.congr same).unique onceThere resolvedThere
    exact foundThere
  · intro members spelled refused
    rw [settings_of_spelling named stored spelled, Config.ofJson?_of_refused refused]

/-- A member that is no setting stands before one whose name is escaped. Another file holds that
setting alone, and a third holds it twice. -/
theorem settings_prefer_flags_of_escaped_name :
    let text := "\x7b\"more\":[1e9], \"\\u0072ng_seed\" : 7\x7d"
    let more : Entry := .other "more" (.array [.leaf (.otherNumber "1e9")]) (by decide)
    let alone : Json := .record [Entry.member (.seed (some 7))]
    let twice : Json := .record [Entry.member (.seed (some 7)), Entry.member (.seed none)]
    let options : Options := {
      program := "g.ch8", config := some "c.json", cyclesPerFrame := some 30 }
    let holding (text : String) : Directory := {
      files := [("c.json", text.toUTF8)]
      layout := fun _ path => .ok path }
    (Json.record [more.member, Entry.member (.seed (some 7))]).Spelling text ∧
      options.settings (holding text) = .ok { cyclesPerFrame := 30, seed := some 7 } ∧
      options.settings (holding alone.compact) = .ok { cyclesPerFrame := 30, seed := some 7 } ∧
      options.settings (holding twice.compact) = .error (.configMalformed "c.json") := by
  intro text more alone twice options holding
  have tight : ([] : List Char).all Json.Lexer.isBlank = true := rfl
  have spaced : [' '].all Json.Lexer.isBlank = true := rfl
  have named : Json.LeafSpelling _ _ := .text (Json.Lexer.spelling_writeAll "more".toList)
  have listed : Json.LeafSpelling _ _ := .otherNumber (.inl rfl)
    (.leading (rfl : '1'.isDigit = true) (by decide) (rfl : [].all Char.isDigit = true)) .absent
    (.unsigned (.inl rfl) (rfl : Text.isDecimal ['9'] = true)) (by simp)
  have escaped : Json.LeafSpelling _ _ := .text
    (.cons (.unit (rfl : Json.Lexer.unit? '0' '0' '7' '2' = some 0x72))
      (Json.Lexer.spelling_writeAll "ng_seed".toList))
  have seven : Json.LeafSpelling _ _ := .natural
    (.leading (rfl : '7'.isDigit = true) (by decide) (rfl : [].all Char.isDigit = true))
  have row := Json.RowSpelling.cons tight .openObject (.cons tight (.leaf named)
    (.cons tight .colon (.cons tight .openArray (.cons tight (.leaf listed)
      (.cons tight .closeArray (.cons tight .comma (.cons spaced (.leaf escaped)
        (.cons spaced .colon (.cons spaced (.leaf seven)
          (.cons tight .closeObject (.nil tight)))))))))))
  have spelled : (Json.record [more.member, Entry.member (.seed (some 7))]).Spelling text := by
    rw [Json.Spelling]
    convert row using 1
    · decide +kernel
    · decide +kernel
  have plain : ∀ seeds : List (Option UInt64),
      (Json.record (seeds.map fun seed => Entry.member (.seed seed))).Plain := by
    intro seeds
    apply Json.Plain.record
    intro member inside
    obtain ⟨seed, -, rfl⟩ := List.mem_map.mp inside
    cases seed with
    | none => exact .leaf trivial
    | some seed => exact .natural _
  have stored : ∀ text, (holding text).read? "c.json" = some text.toUTF8 := fun _ => rfl
  obtain ⟨config, found, resolved, same⟩ :=
    (settings_prefer_flags (rfl : options.config = some "c.json") (stored text)).1
      [more, .seed (some 7)] spelled (by decide)
  have once : ¬ Repeats ([more, .seed (some 7)].map fun entry => some entry.name) := by decide
  have known : config = { cyclesPerFrame := 30, seed := some 7 } := by
    refine resolved.unique once ⟨.flag rfl, .standard rfl ?_, .file rfl ?_⟩
    · simp [more]
    · simp
  subst known
  refine ⟨spelled, found, ?_, ?_⟩
  · apply same [.seed (some 7)] _ _ (stored alone.compact)
    · exact Json.spelling_compact (plain [some 7])
    · decide
    · intro entry setting
      cases entry with
      | other => cases setting
      | _ => simp [more]
  · refine (settings_prefer_flags (rfl : options.config = some "c.json")
      (stored twice.compact)).2 _ (Json.spelling_compact (plain [some 7, none])) (.inr ?_)
    decide

/-- A member whose name stands for no text makes a file be refused, although it is no setting. -/
theorem settings_refused_for_nameless_member :
    let text := "\x7b\"\\ud800\":0\x7d"
    let members : List (JsonText × Json) := [(none, .natural 0)]
    let options : Options := { program := "g.ch8", config := some "c.json" }
    let directory : Directory := {
      files := [("c.json", text.toUTF8)]
      layout := fun _ path => .ok path }
    Options.ofArguments ["g.ch8", "--config", "c.json"] = .ok options ∧
      directory.read? "c.json" = some text.toUTF8 ∧ (Json.object members).Spelling text ∧
      (∀ name ∈ Config.fieldNames, some name ∉ members.map Prod.fst) ∧
      options.settings directory = .error (.configMalformed "c.json") := by
  intro text members options directory
  have tight : ([] : List Char).all Json.Lexer.isBlank = true := rfl
  have half : Json.LeafSpelling _ _ := .text
    (.cons (.unit (rfl : Json.Lexer.unit? 'd' '8' '0' '0' = some 0xD800)) .nil)
  have row := Json.RowSpelling.cons tight .openObject (.cons tight (.leaf half)
    (.cons tight .colon (.cons tight (.leaf (.natural .zero)) (.cons tight .closeObject
      (.nil tight)))))
  have spelled : (Json.object members).Spelling text := by
    rw [Json.Spelling]
    convert row using 1
    · decide +kernel
    · decide +kernel
  have refused : options.settings directory = .error (.configMalformed "c.json") := by
    rw [settings_of_spelling rfl rfl spelled,
      Config.ofJson?_of_refused (.inl (by simp [members]))]
  exact ⟨rfl, rfl, spelled, by decide, refused⟩

end CommandLine
end Chip8

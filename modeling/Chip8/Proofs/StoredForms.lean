import Chip8.Interchange
import Chip8.Proofs.JsonText

/-!
# Stored forms are read back

Settings, policies, timers, keys and frames are read back from the texts that they are
written as. A text that someone else wrote may differ from that of the value it stands for,
but only once: written again, the value keeps its text.
-/

set_option autoImplicit false

namespace Chip8

/-! ## Parts of records -/

namespace Json

theorem mapM_map {α β : Type} (write : α → β) (read : β → Option α)
    (back : ∀ value, read (write value) = some value) (values : List α) :
    (values.map write).mapM read = some values := by
  induction values with
  | nil => rfl
  | cons value rest ih =>
      rw [List.map_cons, List.mapM_cons, back, ih]
      rfl

theorem members?_named (names : List String) (members : List (String × Json)) :
    (record members).members? names =
      if ((members.filter fun member => names.contains member.1).map Prod.fst).Nodup then
        some (members.filter fun member => names.contains member.1)
      else none := by
  let write (member : String × Json) : JsonText × Json := (some member.1, member.2)
  let read (member : JsonText × Json) : Option (String × Json) :=
    member.1.map fun key => (key, member.2)
  exact congrArg (Option.bind · _) (mapM_map write read (fun _ => rfl) members)

theorem members?_record {members : List (String × Json)}
    (distinct : (members.map Prod.fst).Nodup) :
    (record members).members? (members.map Prod.fst) = some members := by
  have known : members.filter (fun member => (members.map Prod.fst).contains member.1) =
      members := by
    rw [List.filter_eq_self]
    intro member inside
    exact List.contains_iff_mem.mpr (List.mem_map_of_mem inside)
  rw [members?_named, known, if_pos distinct]

theorem naturalUpTo?_natural {bound value : Nat} (small : value ≤ bound) :
    (natural value).naturalUpTo? bound = some value := if_pos small

theorem byte?_natural (value : UInt8) : (natural value.toNat).byte? = some value := by
  have small : value.toNat ≤ 0xFF := Nat.le_of_lt_succ value.toNat_lt
  rw [byte?, naturalUpTo?_natural small, Option.map_some, UInt8.ofNat_toNat]

theorem word32?_natural (value : UInt32) : (natural value.toNat).word32? = some value := by
  have small : value.toNat ≤ 0xFFFFFFFF := Nat.le_of_lt_succ value.toNat_lt
  rw [word32?, naturalUpTo?_natural small, Option.map_some, UInt32.ofNat_toNat]

theorem word64?_natural (value : UInt64) : (natural value.toNat).word64? = some value := by
  have small : value.toNat ≤ 0xFFFFFFFFFFFFFFFF := Nat.le_of_lt_succ value.toNat_lt
  rw [word64?, naturalUpTo?_natural small, Option.map_some, UInt64.ofNat_toNat]

theorem compact_record (members : List (String × Json)) :
    (record members).compact =
      "\x7b" ++ ",".intercalate (members.map fun (key, value) =>
        writeText (some key) ++ ":" ++ value.compact) ++ "\x7d" := by
  rw [record, compact_object, List.map_map]
  rfl

theorem compact_natural (value : Nat) : (natural value).compact = toString value := compact_leaf _

theorem compact_bool (value : Bool) : (bool value).compact = toString value := by
  rw [Json.bool, compact_leaf]
  cases value <;> rfl

theorem compact_array_map {α : Type} (write : α → Json) (text : α → String)
    (same : ∀ value, (write value).compact = text value) (values : List α) :
    (array (values.map write)).compact = "[" ++ ",".intercalate (values.map text) ++ "]" := by
  have texts : compact ∘ write = text := funext same
  rw [compact_array, List.map_map, texts]

namespace Plain

theorem natural (value : Nat) : (natural value).Plain := .leaf trivial

theorem record {members : List (String × Json)} (parts : ∀ member ∈ members, member.2.Plain) :
    (record members).Plain := by
  refine .object ?_ ?_
  · intro member inside
    obtain ⟨named, -, rfl⟩ := List.mem_map.mp inside
    rfl
  · intro member inside
    obtain ⟨named, known, rfl⟩ := List.mem_map.mp inside
    exact parts named known

theorem array_map {α : Type} (write : α → Json) (parts : ∀ value, (write value).Plain)
    (values : List α) : (Json.array (values.map write)).Plain := by
  refine .array ?_
  intro item member
  obtain ⟨value, -, rfl⟩ := List.mem_map.mp member
  exact parts value

end Plain
end Json

/-! ## Forms -/

structure StoredForm (α : Type) where
  toJson : α → Json
  ofJson? : Json → Option α

namespace StoredForm

variable {α : Type}

def write (form : StoredForm α) (value : α) : String := (form.toJson value).compact

def read? (form : StoredForm α) (text : String) : Option α :=
  (Json.parse? text).bind form.ofJson?

structure Lawful (form : StoredForm α) : Prop where
  plain : ∀ value, (form.toJson value).Plain
  ofJson?_toJson : ∀ value, form.ofJson? (form.toJson value) = some value

/-- Values are written as the texts given, and read back from them. -/
structure RoundTrips (form : StoredForm α) (text : α → String) : Prop where
  write_eq : ∀ value, form.write value = text value
  read?_write : ∀ value, form.read? (form.write value) = some value
  /-- The value of any text, written and read once more, is the same and has the same text. -/
  again : ∀ text value, form.read? text = some value →
    ∃ next, form.read? (form.write value) = some next ∧ next = value ∧
      form.write next = form.write value

theorem Lawful.roundTrips {form : StoredForm α} (lawful : form.Lawful) {text : α → String}
    (write_eq : ∀ value, form.write value = text value) : form.RoundTrips text := by
  have read?_write : ∀ value, form.read? (form.write value) = some value := by
    intro value
    rw [read?, write, Json.parse?_compact (lawful.plain value), Option.bind_some,
      lawful.ofJson?_toJson]
  refine ⟨write_eq, read?_write, ?_⟩
  intro text value _
  exact ⟨value, read?_write value, rfl, rfl⟩

end StoredForm

/-! ## Policies -/

namespace UnknownOpcodePolicy

def stored : StoredForm UnknownOpcodePolicy := { toJson, ofJson? }

def storedText : UnknownOpcodePolicy → String
  | .stall => "\"stall\""
  | .skip => "\"skip\""

theorem stored_lawful : stored.Lawful where
  plain := fun _ => .leaf rfl
  ofJson?_toJson := by
    intro policy
    cases policy <;> rfl

theorem compact_toJson (policy : UnknownOpcodePolicy) :
    policy.toJson.compact = policy.storedText := by
  cases policy <;> rfl

end UnknownOpcodePolicy

/-! ## Settings -/

namespace Config

def stored : StoredForm Config := { toJson, ofJson? }

def storedText (config : Config) : String :=
  let seed := match config.seed with
    | some seed => toString seed.toNat
    | none => "null"
  "\x7b" ++ ",".intercalate [
    "\"cycles_per_frame\":" ++ toString config.cyclesPerFrame.toNat,
    "\"unknown_opcode\":" ++ config.unknownOpcode.storedText,
    "\"rng_seed\":" ++ seed] ++ "\x7d"

theorem seedOfJson?_natural (seed : UInt64) :
    seedOfJson? (.natural seed.toNat) = some (some seed) :=
  congrArg (Option.map some) (Json.word64?_natural seed)

theorem stored_lawful : stored.Lawful where
  plain := by
    intro config
    have policy := UnknownOpcodePolicy.stored_lawful.plain config.unknownOpcode
    refine .record (List.forall_mem_cons.mpr ⟨.natural _, List.forall_mem_cons.mpr ⟨policy, ?_⟩⟩)
    cases config.seed with
    | none => exact List.forall_mem_singleton.mpr (.leaf trivial)
    | some seed => exact List.forall_mem_singleton.mpr (.natural _)
  ofJson?_toJson := by
    intro config
    have members : config.toJson.members? ["cycles_per_frame", "unknown_opcode", "rng_seed"] =
        some _ := Json.members?_record (by simp)
    have policy : UnknownOpcodePolicy.ofJson? config.unknownOpcode.toJson = _ :=
      UnknownOpcodePolicy.stored_lawful.ofJson?_toJson config.unknownOpcode
    obtain ⟨cyclesPerFrame, unknownOpcode, seed⟩ := config
    cases seed with
    | none =>
        simp [stored, ofJson?, members, List.lookup_cons, Json.word32?_natural, policy, seedOfJson?]
    | some seed =>
        simp [stored, ofJson?, members, List.lookup_cons, Json.word32?_natural, policy,
          seedOfJson?_natural]

theorem compact_toJson (config : Config) : config.toJson.compact = config.storedText := by
  obtain ⟨cyclesPerFrame, unknownOpcode, seed⟩ := config
  cases seed <;> simp only [toJson, Json.compact_record, List.map_cons, List.map_nil,
    Json.compact_natural, UnknownOpcodePolicy.compact_toJson] <;> rfl

end Config

/-! ## Timers -/

namespace Timers

def stored : StoredForm Timers := { toJson, ofJson? }

def storedText (timers : Timers) : String :=
  "\x7b" ++ ",".intercalate [
    "\"delay\":" ++ toString timers.delay.toNat,
    "\"sound\":" ++ toString timers.sound.toNat] ++ "\x7d"

theorem stored_lawful : stored.Lawful where
  plain := by
    intro timers
    refine .record ?_
    simp [Json.Plain.natural]
  ofJson?_toJson := by
    intro timers
    have members : timers.toJson.members? ["delay", "sound"] = some _ :=
      Json.members?_record (by simp)
    simp [stored, ofJson?, members, Json.byte?_natural, List.lookup_cons]

theorem compact_toJson (timers : Timers) : timers.toJson.compact = timers.storedText := by
  simp only [toJson, Json.compact_record, List.map_cons, List.map_nil, Json.compact_natural]
  rfl

end Timers

/-! ## Keys -/

namespace Keypad

def stored : StoredForm Keypad := { toJson, ofJson? }

def storedText (keypad : Keypad) : String :=
  "\x7b" ++ ",".intercalate [
    "\"keys\":[" ++ ",".intercalate (keypad.keys.toList.map toString) ++ "]"] ++ "\x7d"

theorem stored_lawful : stored.Lawful where
  plain := by
    intro keypad
    have keys := Json.Plain.array_map Json.bool (fun _ => .leaf trivial) keypad.keys.toList
    refine .record ?_
    simpa using keys
  ofJson?_toJson := by
    intro keypad
    have members : keypad.toJson.members? ["keys"] = some _ :=
      Json.members?_record (by simp)
    have keys := Json.mapM_map Json.bool Json.bool? (fun _ => rfl) keypad.keys.toList
    have read : stored.ofJson? keypad.toJson =
        some { keys := ⟨keypad.keys.toList.toArray, by simp⟩ } := by
      simp [stored, ofJson?, members, Json.items?, keys]
    exact read

theorem compact_toJson (keypad : Keypad) : keypad.toJson.compact = keypad.storedText := by
  have keys := Json.compact_array_map _ _ Json.compact_bool keypad.keys.toList
  simp only [toJson, Json.compact_record, List.map_cons, List.map_nil, keys]
  rfl

end Keypad

/-! ## Frames -/

namespace Frame

def stored : StoredForm Frame := { toJson, ofJson? }

def storedText (frame : Frame) : String :=
  let colors := frame.pixels.toList.map fun color => toString color.toNat
  "\x7b" ++ ",".intercalate [
    "\"width\":" ++ toString frame.width.toNat,
    "\"height\":" ++ toString frame.height.toNat,
    "\"pixels\":[" ++ ",".intercalate colors ++ "]"] ++ "\x7d"

theorem stored_lawful : stored.Lawful where
  plain := by
    intro frame
    have pixels := Json.Plain.array_map (fun color : UInt32 => Json.natural color.toNat)
      (fun color => .natural color.toNat) frame.pixels.toList
    refine .record ?_
    simpa [Json.Plain.natural] using pixels
  ofJson?_toJson := by
    intro frame
    have members : frame.toJson.members? ["width", "height", "pixels"] = some _ :=
      Json.members?_record (by simp)
    have pixels := Json.mapM_map _ _ Json.word32?_natural frame.pixels.toList
    simp [stored, ofJson?, members, List.lookup_cons, Json.items?, pixels, Json.word32?_natural]

theorem compact_toJson (frame : Frame) : frame.toJson.compact = frame.storedText := by
  have pixels := Json.compact_array_map (fun color : UInt32 => .natural color.toNat) _
    (fun color => Json.compact_natural color.toNat) frame.pixels.toList
  simp only [toJson, Json.compact_record, List.map_cons, List.map_nil, Json.compact_natural, pixels]
  rfl

end Frame

/-- Whatever value of these types is written, it is read back from its text, and the value
of any text keeps its text from then on. -/
theorem stored_forms_round_trip :
    Config.stored.RoundTrips Config.storedText ∧
      UnknownOpcodePolicy.stored.RoundTrips UnknownOpcodePolicy.storedText ∧
      Timers.stored.RoundTrips Timers.storedText ∧
      Keypad.stored.RoundTrips Keypad.storedText ∧
      Frame.stored.RoundTrips Frame.storedText :=
  ⟨Config.stored_lawful.roundTrips Config.compact_toJson,
    UnknownOpcodePolicy.stored_lawful.roundTrips UnknownOpcodePolicy.compact_toJson,
    Timers.stored_lawful.roundTrips Timers.compact_toJson,
    Keypad.stored_lawful.roundTrips Keypad.compact_toJson,
    Frame.stored_lawful.roundTrips Frame.compact_toJson⟩

/-- A text by someone else, with blanks, a member that is not known and two left out. -/
example :
    (Config.stored.read? " \x7b \"rng_seed\": 7, \"more\": [1e9] \x7d").map Config.stored.write =
      some "\x7b\"cycles_per_frame\":20,\"unknown_opcode\":\"stall\",\"rng_seed\":7\x7d" := by
  decide +kernel

end Chip8

import Chip8.Instruction.Mnemonic
import Chip8.Proofs.Numeral
import Chip8.Text.Blank
import Mathlib.Logic.Function.Basic

/-!
# Reading mnemonics back

The assembly text of an instruction is taken apart into its operation and its operands,
and these give the instruction back, whatever the numbers of its registers and however
many digits its operands need.
-/

set_option autoImplicit false

namespace Chip8

namespace Text

/-! ## Lines -/

/-- A text that stands as one part of a line. -/
structure Whole (text : String) : Prop where
  unspaced : ' ' ∉ text.toList
  unseparated : ',' ∉ text.toList

instance (text : String) : Decidable (Whole text) :=
  decidable_of_iff (' ' ∉ text.toList ∧ ',' ∉ text.toList)
    ⟨fun both => ⟨both.1, both.2⟩, fun whole => ⟨whole.unspaced, whole.unseparated⟩⟩

/-- An operation and its operands in a line, with commas between the operands. -/
def line : List String → String
  | [] => ""
  | [operation] => operation
  | operation :: operands => operation ++ " " ++ ", ".intercalate operands

def withoutCommas (text : String) : String := String.ofList (text.toList.filter fun c => c ≠ ',')

def parts (text : String) : List String := words (withoutCommas text)

theorem withoutCommas_append (front rest : String) :
    withoutCommas (front ++ rest) = withoutCommas front ++ withoutCommas rest := by
  simp only [withoutCommas, String.toList_append, List.filter_append, String.ofList_append]

theorem Whole.withoutCommas_eq {text : String} (whole : Whole text) : withoutCommas text = text := by
  rw [withoutCommas, List.filter_eq_self.mpr (Text.forall_ne_separator whole.unseparated),
    String.ofList_toList]

theorem Whole.parts_eq {text : String} (whole : Whole text) : parts text = [text] := by
  rw [parts, whole.withoutCommas_eq, words_of_solid whole.unspaced]

theorem parts_append {front mark : String} (whole : Whole front)
    (blank : withoutCommas mark = " ") (rest : String) :
    parts (front ++ mark ++ rest) = front :: parts rest := by
  rw [parts, withoutCommas_append, withoutCommas_append, whole.withoutCommas_eq, blank,
    words_append whole.unspaced]
  rfl

theorem parts_intercalate {operand : String} {rest : List String}
    (whole : ∀ text ∈ operand :: rest, Whole text) :
    parts (", ".intercalate (operand :: rest)) = operand :: rest := by
  induction rest generalizing operand with
  | nil =>
      rw [String.intercalate_singleton]
      exact (whole operand List.mem_cons_self).parts_eq
  | cons next rest ih =>
      obtain ⟨first, remaining⟩ := List.forall_mem_cons.mp whole
      have comma : withoutCommas ", " = " " := by decide
      rw [String.intercalate_cons_cons, parts_append first comma, ih remaining]

theorem parts_line {operation : String} {operands : List String}
    (whole : ∀ text ∈ operation :: operands, Whole text) :
    parts (line (operation :: operands)) = operation :: operands := by
  cases operands with
  | nil => exact (whole operation List.mem_cons_self).parts_eq
  | cons operand rest =>
      have apart : line (operation :: operand :: rest) =
          operation ++ " " ++ ", ".intercalate (operand :: rest) := rfl
      obtain ⟨first, remaining⟩ := List.forall_mem_cons.mp whole
      have blank : withoutCommas " " = " " := by decide
      rw [apart, parts_append first blank, parts_intercalate remaining]

/-! ## Numerals -/

theorem not_mem_hex {letter : Char} (foreign : ∀ place < 16, letter ≠ hexDigit place)
    (width value : Nat) : letter ∉ (hex width value).toList := by
  rw [hex, String.toList_ofList, List.mem_append]
  rintro (filled | digit)
  · exact foreign 0 (by decide) (List.eq_of_mem_replicate filled)
  · obtain ⟨place, small, same⟩ := mem_hexDigits digit
    exact foreign place small same

theorem whole_hex (width value : Nat) : Whole (hex width value) :=
  ⟨not_mem_hex (by decide) width value, not_mem_hex (by decide) width value⟩

def byteValue (numeral : String) : UInt8 := UInt8.ofNat (hexValue numeral.toList)

theorem byteValue_hex (width : Nat) (byte : UInt8) : byteValue (hex width byte.toNat) = byte := by
  rw [byteValue, hexValue_hex, UInt8.ofNat_toNat]

def registerNumber? (text : String) : Option Nat :=
  match text.toList with
  | 'V' :: digits => some (hexValue digits)
  | _ => none

theorem registerNumber?_eq_none {text : String} (foreign : 'V' ∉ text.toList) :
    registerNumber? text = none := by
  unfold registerNumber?
  split
  next digits letters =>
    rw [letters] at foreign
    exact absurd List.mem_cons_self foreign
  next => rfl

end Text

namespace Instruction

open Text

variable {ρ : Type} {number : ρ → Nat} {read? : Nat → Option ρ}

/-! ## Parts of a mnemonic -/

def registerText (number : ρ → Nat) (register : ρ) : String := "V" ++ hex 1 (number register)

def parts (number : ρ → Nat) : Instruction ρ → List String
  | .clearScreen => ["CLS"]
  | .ret => ["RET"]
  | .jump target => ["JP", addressText target]
  | .call target => ["CALL", addressText target]
  | .skipIfEqual x value => ["SE", registerText number x, byteText value]
  | .skipIfNotEqual x value => ["SNE", registerText number x, byteText value]
  | .skipIfRegistersEqual x y => ["SE", registerText number x, registerText number y]
  | .setRegister x value => ["LD", registerText number x, byteText value]
  | .addToRegister x value => ["ADD", registerText number x, byteText value]
  | .copy x y => ["LD", registerText number x, registerText number y]
  | .or x y => ["OR", registerText number x, registerText number y]
  | .and x y => ["AND", registerText number x, registerText number y]
  | .xor x y => ["XOR", registerText number x, registerText number y]
  | .add x y => ["ADD", registerText number x, registerText number y]
  | .subtract x y => ["SUB", registerText number x, registerText number y]
  | .shiftRight x => ["SHR", registerText number x]
  | .subtractReversed x y => ["SUBN", registerText number x, registerText number y]
  | .shiftLeft x => ["SHL", registerText number x]
  | .skipIfRegistersNotEqual x y => ["SNE", registerText number x, registerText number y]
  | .setIndex target => ["LD", "I", addressText target]
  | .jumpWithOffset target => ["JP", "V0", addressText target]
  | .random x mask => ["RND", registerText number x, byteText mask]
  | .draw x y rows => ["DRW", registerText number x, registerText number y, hex 1 rows.toNat]
  | .skipIfKeyPressed x => ["SKP", registerText number x]
  | .skipIfKeyReleased x => ["SKNP", registerText number x]
  | .readDelayTimer x => ["LD", registerText number x, "DT"]
  | .waitForKey x => ["LD", registerText number x, "K"]
  | .setDelayTimer x => ["LD", "DT", registerText number x]
  | .setSoundTimer x => ["LD", "ST", registerText number x]
  | .addToIndex x => ["ADD", "I", registerText number x]
  | .pointToGlyph x => ["LD", "F", registerText number x]
  | .storeDecimal x => ["LD", "B", registerText number x]
  | .storeRegisters x => ["LD", "[I]", registerText number x]
  | .loadRegisters x => ["LD", registerText number x, "[I]"]

theorem mnemonic_eq_line (number : ρ → Nat) (instruction : Instruction ρ) :
    instruction.mnemonic number = line (instruction.parts number) := by
  cases instruction <;>
    simp [← String.toList_inj, mnemonic, parts, line, registerText]

theorem whole_registerText (number : ρ → Nat) (register : ρ) :
    Whole (registerText number register) := by
  obtain ⟨unspaced, unseparated⟩ := whole_hex 1 (number register)
  constructor <;> simp [registerText, unspaced, unseparated]

theorem whole_parts (number : ρ → Nat) (instruction : Instruction ρ) :
    ∀ text ∈ instruction.parts number, Whole text := by
  have numeral := whole_hex
  have register := whole_registerText number
  cases instruction <;> simp [parts, byteText, addressText, numeral, register] <;> decide

theorem parts_mnemonic (number : ρ → Nat) (instruction : Instruction ρ) :
    Text.parts (instruction.mnemonic number) = instruction.parts number := by
  rw [mnemonic_eq_line]
  have whole := whole_parts number instruction
  cases listed : instruction.parts number with
  | nil => cases instruction <;> cases listed
  | cons operation operands =>
      rw [listed] at whole
      exact parts_line whole

/-! ## Instructions of some parts -/

def register? (read? : Nat → Option ρ) (text : String) : Option ρ :=
  (registerNumber? text).bind read?

def ofRegister? (operation : String) (x : ρ) : Option (Instruction ρ) :=
  match operation with
  | "SHR" => some (.shiftRight x)
  | "SHL" => some (.shiftLeft x)
  | "SKP" => some (.skipIfKeyPressed x)
  | "SKNP" => some (.skipIfKeyReleased x)
  | _ => none

def ofRegisters? (operation : String) (x y : ρ) : Option (Instruction ρ) :=
  match operation with
  | "SE" => some (.skipIfRegistersEqual x y)
  | "SNE" => some (.skipIfRegistersNotEqual x y)
  | "LD" => some (.copy x y)
  | "OR" => some (.or x y)
  | "AND" => some (.and x y)
  | "XOR" => some (.xor x y)
  | "ADD" => some (.add x y)
  | "SUB" => some (.subtract x y)
  | "SUBN" => some (.subtractReversed x y)
  | _ => none

def ofRegisterFirst? (operation : String) (x : ρ) (text : String) : Option (Instruction ρ) :=
  match operation with
  | "SE" => some (.skipIfEqual x (byteValue text))
  | "SNE" => some (.skipIfNotEqual x (byteValue text))
  | "ADD" => some (.addToRegister x (byteValue text))
  | "RND" => some (.random x (byteValue text))
  | "LD" =>
      match text with
      | "DT" => some (.readDelayTimer x)
      | "K" => some (.waitForKey x)
      | "[I]" => some (.loadRegisters x)
      | _ => some (.setRegister x (byteValue text))
  | _ => none

def ofRegisterLast? (operation text : String) (x : ρ) : Option (Instruction ρ) :=
  match operation, text with
  | "LD", "DT" => some (.setDelayTimer x)
  | "LD", "ST" => some (.setSoundTimer x)
  | "LD", "F" => some (.pointToGlyph x)
  | "LD", "B" => some (.storeDecimal x)
  | "LD", "[I]" => some (.storeRegisters x)
  | "ADD", "I" => some (.addToIndex x)
  | _, _ => none

def ofAddress? (operation text address : String) : Option (Instruction ρ) :=
  match operation, text with
  | "LD", "I" => some (.setIndex (wordValue address))
  | _, _ => none

def ofParts? (read? : Nat → Option ρ) : List String → Option (Instruction ρ)
  | ["CLS"] => some .clearScreen
  | ["RET"] => some .ret
  | ["JP", target] => some (.jump (wordValue target))
  | ["CALL", target] => some (.call (wordValue target))
  | ["JP", _, address] => some (.jumpWithOffset (wordValue address))
  | [operation, x] => (register? read? x).bind (ofRegister? operation)
  | [operation, first, second] =>
      match register? read? first, register? read? second with
      | some x, some y => ofRegisters? operation x y
      | some x, none => ofRegisterFirst? operation x second
      | none, some y => ofRegisterLast? operation first y
      | none, none => ofAddress? operation first second
  | ["DRW", first, second, rows] =>
      match register? read? first, register? read? second with
      | some x, some y => some (.draw x y (byteValue rows))
      | _, _ => none
  | _ => none

theorem register?_registerText (known : ∀ register, read? (number register) = some register)
    (register : ρ) : register? read? (registerText number register) = some register := by
  have numbered : registerNumber? (registerText number register) = some (number register) := by
    have letters : (registerText number register).toList = 'V' :: (hex 1 (number register)).toList := by
      rw [registerText, String.toList_append]
      rfl
    simp only [registerNumber?, letters, hexValue_hex]
  rw [register?, numbered]
  exact known register

theorem register?_eq_none {text : String} (foreign : 'V' ∉ text.toList) :
    register? read? text = none := by
  rw [register?, registerNumber?_eq_none foreign]
  rfl

theorem hex_ne_of_mem {name : String} {letter : Char} (member : letter ∈ name.toList)
    (foreign : ∀ place < 16, letter ≠ hexDigit place) (width value : Nat) :
    hex width value ≠ name := by
  rintro rfl
  exact not_mem_hex foreign width value member

theorem ofParts?_parts (known : ∀ register, read? (number register) = some register)
    (instruction : Instruction ρ) : ofParts? read? (instruction.parts number) = some instruction := by
  have register := register?_registerText known
  have numeral : ∀ width value, register? read? (hex width value) = none := fun width value =>
    register?_eq_none (not_mem_hex (by decide) width value)
  cases instruction with
  | clearScreen | ret => rfl
  | jump target | call target | setIndex target | jumpWithOffset target =>
      simp [parts, ofParts?, ofAddress?, numeral, register?_eq_none, addressText, wordValue_hex]
  | shiftRight x | shiftLeft x | skipIfKeyPressed x | skipIfKeyReleased x =>
      simp [parts, ofParts?, ofRegister?, register]
  | skipIfRegistersEqual x y | skipIfRegistersNotEqual x y | copy x y | or x y | and x y
    | xor x y | add x y | subtract x y | subtractReversed x y =>
      simp [parts, ofParts?, ofRegisters?, register]
  | draw x y rows => simp [parts, ofParts?, register, byteValue_hex]
  | skipIfEqual x value | skipIfNotEqual x value | addToRegister x value | random x value =>
      simp [parts, ofParts?, ofRegisterFirst?, register, numeral, byteText, byteValue_hex]
  | setRegister x value =>
      -- Each name that can follow a register has a letter that is no digit, so a byte is
      -- not taken for one of them.
      have timer := @hex_ne_of_mem "DT" 'T' (by decide) (by decide) 2 value.toNat
      have key := @hex_ne_of_mem "K" 'K' (by decide) (by decide) 2 value.toNat
      have cells := @hex_ne_of_mem "[I]" '[' (by decide) (by decide) 2 value.toNat
      simp [parts, ofParts?, ofRegisterFirst?, register, numeral, byteText, byteValue_hex]
  | readDelayTimer x | waitForKey x | loadRegisters x =>
      simp [parts, ofParts?, ofRegisterFirst?, register, register?_eq_none]
  | setDelayTimer x | setSoundTimer x | addToIndex x | pointToGlyph x | storeDecimal x
    | storeRegisters x =>
      simp [parts, ofParts?, ofRegisterLast?, register, register?_eq_none]

/-! ## Instructions of a text -/

/-- Reads a mnemonic, where `read?` gives the register of a number. -/
def ofMnemonic? (read? : Nat → Option ρ) (text : String) : Option (Instruction ρ) :=
  ofParts? read? (Text.parts text)

theorem ofMnemonic?_mnemonic (known : ∀ register, read? (number register) = some register)
    (instruction : Instruction ρ) :
    ofMnemonic? read? (instruction.mnemonic number) = some instruction := by
  rw [ofMnemonic?, parts_mnemonic, ofParts?_parts known]

/-- If registers have different numbers, instructions have different mnemonics, whatever
their operands are. -/
theorem mnemonics_unambiguous (injective : Function.Injective number) :
    Function.Injective (mnemonic number) := by
  intro one other same
  have known : ∀ register, Function.partialInv number (number register) = some register :=
    Function.partialInv_left injective
  apply Option.some.inj
  calc some one = ofMnemonic? (Function.partialInv number) (one.mnemonic number) :=
        (ofMnemonic?_mnemonic known one).symm
    _ = ofMnemonic? (Function.partialInv number) (other.mnemonic number) := by rw [same]
    _ = some other := ofMnemonic?_mnemonic known other

/-- Registers of machine words, with numbers of more than one digit. -/
theorem mnemonics_unambiguous_of_wide_numbers :
    Function.Injective USize.toNat ∧
      mnemonic USize.toNat (.setRegister 0x1F 0x0B) ≠ mnemonic USize.toNat (.copy 0x1F 0x0B) ∧
      mnemonic USize.toNat (.jump 0x1234) ≠ mnemonic USize.toNat (.jumpWithOffset 0x234) := by
  have injective : Function.Injective USize.toNat := fun _ _ => USize.toNat.inj
  have different := mnemonics_unambiguous injective
  exact ⟨injective, different.ne nofun, different.ne nofun⟩

end Instruction
end Chip8

import Chip8.Text.Decimal
import Chip8.Text.Hex

/-!
# Reading numerals back

A numeral stands for one number only, a hexadecimal one however many zeros it is filled
up with, and it is one word: a text of words and numerals with a blank between any two
can be taken apart again.
-/

set_option autoImplicit false

namespace Chip8.Text

/-! ## Digits -/

def digitValue (digit : Char) : Nat :=
  if digit.isDigit then digit.toNat - '0'.toNat else digit.toNat - 'A'.toNat + 10

def hexValue (digits : List Char) : Nat :=
  digits.foldl (fun value digit => value * 16 + digitValue digit) 0

theorem digitValue_hexDigit : ∀ value < 16, digitValue (hexDigit value) = value := by decide

theorem hexValue_concat (digits : List Char) (digit : Char) :
    hexValue (digits ++ [digit]) = hexValue digits * 16 + digitValue digit := by
  rw [hexValue, List.foldl_append]
  rfl

theorem hexValue_hexDigits (value : Nat) : hexValue (hexDigits value) = value := by
  induction value using hexDigits.induct with
  | case1 value small =>
      rw [hexDigits, if_pos small]
      exact (Nat.zero_add _).trans (digitValue_hexDigit value small)
  | case2 value large ih =>
      have last := digitValue_hexDigit (value % 16) (Nat.mod_lt value (by decide))
      rw [hexDigits, if_neg large, hexValue_concat, ih, last]
      exact Nat.div_add_mod' value 16

theorem hexValue_zeros (count : Nat) (digits : List Char) :
    hexValue (List.replicate count '0' ++ digits) = hexValue digits := by
  induction count with
  | zero => rfl
  | succ count ih =>
      rw [List.replicate_succ, List.cons_append]
      exact ih

theorem hexValue_hex (width value : Nat) : hexValue (hex width value).toList = value := by
  rw [hex, String.toList_ofList, hexValue_zeros, hexValue_hexDigits]

/-! ## Words -/

/-- The parts of a text between its blanks, of which some may be empty. -/
def words (text : String) : List String := (text.toList.splitOn ' ').map String.ofList

theorem words_append {front : String} (solid : ' ' ∉ front.toList) (rest : String) :
    words (front ++ " " ++ rest) = front :: words rest := by
  have letters : ∀ letter ∈ front.toList, (letter == ' ') = false := by
    intro letter member
    rw [beq_eq_false_iff_ne]
    rintro rfl
    exact solid member
  have split := List.splitOnP_append_cons_of_forall_mem letters ' ' (beq_self_eq_true ' ')
    rest.toList
  have text : (front ++ " " ++ rest).toList = front.toList ++ ' ' :: rest.toList := by
    rw [String.toList_append, String.toList_append, List.append_assoc]
    rfl
  rw [words, text, List.splitOn, split, List.map_cons, String.ofList_toList]
  rfl

theorem words_of_solid {text : String} (solid : ' ' ∉ text.toList) : words text = [text] := by
  rw [words, List.splitOn_eq_singleton solid, List.map_singleton, String.ofList_toList]

theorem mem_hexDigits {value : Nat} {digit : Char} (member : digit ∈ hexDigits value) :
    ∃ place < 16, digit = hexDigit place := by
  induction value using hexDigits.induct with
  | case1 value small =>
      rw [hexDigits, if_pos small] at member
      exact ⟨value, small, List.mem_singleton.mp member⟩
  | case2 value large ih =>
      rw [hexDigits, if_neg large, List.mem_append] at member
      rcases member with earlier | last
      · exact ih earlier
      · exact ⟨value % 16, Nat.mod_lt value (by decide), List.mem_singleton.mp last⟩

theorem solid_hex (width value : Nat) : ' ' ∉ (hex width value).toList := by
  have blank : ∀ place < 16, ' ' ≠ hexDigit place := by decide
  rw [hex, String.toList_ofList, List.mem_append]
  rintro (filled | digits)
  · cases List.eq_of_mem_replicate filled
  · obtain ⟨place, small, same⟩ := mem_hexDigits digits
    exact blank place small same

/-! ## Decimal numerals -/

theorem decimalValue_toString (value : Nat) : decimalValue (toString value).toList = value := by
  have digits : (toString value).toList = Nat.toDigits 10 value := Nat.toList_repr
  rw [decimalValue, digits, Nat.ofDigitChars_ten_toDigits]

theorem solid_toString (value : Nat) : ' ' ∉ (toString value).toList := by
  have digits : (toString value).toList = Nat.toDigits 10 value := Nat.toList_repr
  rw [digits]
  intro blank
  have digit : ' '.isDigit = true := Nat.isDigit_of_mem_toDigits (by decide) (by decide) blank
  exact absurd digit (by decide)

/-! ## Machine words -/

def wordValue (numeral : String) : UInt16 := UInt16.ofNat (hexValue numeral.toList)

theorem wordValue_hex (width : Nat) (word : UInt16) : wordValue (hex width word.toNat) = word := by
  rw [wordValue, hexValue_hex, UInt16.ofNat_toNat]

end Chip8.Text

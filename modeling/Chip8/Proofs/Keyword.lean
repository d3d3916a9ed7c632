import Chip8.Text.Blank
import Mathlib

/-!
# Spellings of a keyword

What is looked up for a text neither depends on the blanks around it nor on the case of
its ASCII letters, and a character outside ASCII that is not trimmed off is looked up as
well.
-/

set_option autoImplicit false

namespace Chip8.Text

def AllBlank (text : List Char) : Prop := ∀ character ∈ text, isBlank character = true

/-- Each letter as it was, in lower case or in upper case. Letters outside ASCII have no
case here. -/
def Recased (text changed : List Char) : Prop :=
  List.Forall₂ (fun before after => after = before ∨ after = before.toLower ∨ after = before.toUpper)
    text changed

/-- The same text but for blanks around it and the case of its letters. -/
inductive Respelled (text : String) : String → Prop
  | intro {left middle right : List Char} (before : AllBlank left) (after : AllBlank right)
      (recased : Recased text.toList middle) :
      Respelled text (String.ofList (left ++ middle ++ right))

/-- What is left of a text without the blanks around it. -/
structure TrimsTo (text core : List Char) : Prop where
  around : ∃ left right, AllBlank left ∧ AllBlank right ∧ text = left ++ core ++ right
  first : ∀ character ∈ core.head?, isBlank character = false
  last : ∀ character ∈ core.getLast?, isBlank character = false

/-! ## Trimming -/

theorem trimBlanks_around {left right : List Char} (before : AllBlank left) (after : AllBlank right)
    (middle : List Char) : trimBlanks (left ++ middle ++ right) = trimBlanks middle := by
  have behind : AllBlank right.reverse := fun character member =>
    after character (List.mem_reverse.mp member)
  rw [trimBlanks, trimBlanks, List.append_assoc, List.dropWhile_append_of_pos before,
    List.dropWhile_append]
  cases rest : middle.dropWhile isBlank with
  | nil =>
      have none : right.dropWhile isBlank = [] := List.dropWhile_eq_nil_iff.mpr after
      rw [List.isEmpty_nil, if_pos rfl, none]
  | cons character rest =>
      rw [List.isEmpty_cons, if_neg Bool.false_ne_true, List.reverse_append,
        List.dropWhile_append_of_pos behind]

theorem dropWhile_of_head? {text : List Char}
    (first : ∀ character ∈ text.head?, isBlank character = false) :
    text.dropWhile isBlank = text := by
  cases text with
  | nil => rfl
  | cons character rest =>
      have solid := first character rfl
      rw [List.dropWhile_cons, solid]
      rfl

theorem TrimsTo.trimBlanks_eq {text core : List Char} (trimmed : TrimsTo text core) :
    trimBlanks text = core := by
  obtain ⟨left, right, before, after, rfl⟩ := trimmed.around
  have backwards : ∀ character ∈ core.reverse.head?, isBlank character = false := by
    rw [List.head?_reverse]
    exact trimmed.last
  rw [trimBlanks_around before after, trimBlanks, dropWhile_of_head? trimmed.first,
    dropWhile_of_head? backwards, List.reverse_reverse]

/-! ## Case -/

theorem isUpper_iff (letter : Char) :
    letter.isUpper = true ↔ 65 ≤ letter.toNat ∧ letter.toNat ≤ 90 := by
  rw [Char.isUpper, decide_eq_true_iff, ge_iff_le, UInt32.le_iff_toNat_le, UInt32.le_iff_toNat_le]
  rfl

theorem isBlank_eq_false {letter : Char} (least : 65 ≤ letter.toNat) (greatest : letter.toNat ≤ 122) :
    isBlank letter = false := by
  simp only [isBlank, Bool.or_eq_false_iff, Bool.and_eq_false_iff, decide_eq_false_iff_not,
    beq_eq_false_iff_ne]
  omega

theorem isBlank_toLower (letter : Char) : isBlank letter.toLower = isBlank letter := by
  by_cases upper : letter.isUpper = true
  · obtain ⟨least, greatest⟩ := (isUpper_iff letter).mp upper
    have valid : (letter.toNat + 32).isValidChar := Or.inl (by omega)
    have lowered : letter.toLower.toNat = letter.toNat + 32 := by
      rw [Char.toLower_eq_of_isUpper upper, Char.toNat_ofNat, if_pos valid]
    rw [isBlank_eq_false least (by omega), isBlank_eq_false (by omega) (by omega)]
  · rw [Char.toLower_eq_of_not_isUpper upper]

theorem trimBlanks_map_toLower (text : List Char) :
    trimBlanks (text.map Char.toLower) = (trimBlanks text).map Char.toLower := by
  have same : isBlank ∘ Char.toLower = isBlank := funext isBlank_toLower
  simp only [trimBlanks, List.dropWhile_map, ← List.map_reverse, same]

theorem Recased.map_toLower_eq {text changed : List Char} (recased : Recased text changed) :
    changed.map Char.toLower = text.map Char.toLower := by
  induction recased with
  | nil => rfl
  | cons letter _ ih =>
      rw [List.map_cons, List.map_cons, ih]
      obtain rfl | rfl | rfl := letter
      · rfl
      · rw [Char.toLower_toLower_eq_toLower]
      · rw [Char.toLower_toUpper_eq_toLower]

/-! ## Look-up -/

theorem Respelled.keyword_eq {text changed : String} (respelled : Respelled text changed) :
    keyword changed = keyword text := by
  cases respelled with
  | intro before after recased =>
      rw [keyword, keyword, String.toList_ofList, trimBlanks_around before after,
        ← trimBlanks_map_toLower, ← trimBlanks_map_toLower, recased.map_toLower_eq]

/-- Letters outside ASCII are not changed, so they are looked up as they are. -/
theorem TrimsTo.mem_keyword {text : String} {core : List Char} (trimmed : TrimsTo text.toList core)
    {letter : Char} (foreign : 128 ≤ letter.toNat) (member : letter ∈ core) :
    letter ∈ (keyword text).toList := by
  have unchanged : letter.toLower = letter := by
    apply Char.toLower_eq_of_not_isUpper
    rw [isUpper_iff]
    omega
  rw [keyword, String.toList_ofList, trimmed.trimBlanks_eq]
  exact List.mem_map.mpr ⟨letter, member, unchanged⟩

end Chip8.Text

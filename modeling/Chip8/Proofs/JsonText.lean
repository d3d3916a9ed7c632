import Chip8.Json.Writer
import Chip8.Proofs.JsonGrammar

/-!
# Reading what was written

The text that a value is written as is one that stands for it, so it is read back as that
value, however deep it is nested.
-/

set_option autoImplicit false

namespace Chip8

/-- The value is one that is found again in its text. -/
def JsonLeaf.Plain : JsonLeaf → Prop
  | .otherNumber _ => False
  | .text value => value.isSome
  | _ => True

namespace Json

def Token.Plain : Token → Prop
  | .leaf value => value.Plain
  | _ => True

namespace Lexer

/-! ## Numbers -/

section Digits

variable (value : Nat)

theorem isDigit_of_mem_toDigits (character : Char) (member : character ∈ Nat.toDigits 10 value) :
    character.isDigit = true :=
  Nat.isDigit_of_mem_toDigits (by decide) (by decide) member

theorem all_toDigits : (Nat.toDigits 10 value).all Char.isDigit = true :=
  List.all_eq_true.mpr (isDigit_of_mem_toDigits value)

variable {value} in
theorem head?_toDigits (positive : 0 < value) : (Nat.toDigits 10 value).head? ≠ some '0' := by
  induction value using Nat.strongRecOn with
  | ind value ih =>
      by_cases small : value < 10
      · rw [Nat.toDigits_of_lt_base small, List.head?_cons, ne_eq, Option.some.injEq,
          Nat.digitChar_eq_zero]
        exact Nat.ne_of_gt positive
      · -- The first digit is that of the number without its last one.
        have fewer := ih (value / 10) (by omega) (by omega)
        rw [Nat.toDigits_of_base_le (by decide) (by omega),
          List.head?_append_of_ne_nil _ Nat.toDigits_ne_nil]
        exact fewer

theorem whole_toDigits : Whole (Nat.toDigits 10 value) := by
  rcases Nat.eq_zero_or_pos value with rfl | positive
  · exact .zero
  · have nonempty : Nat.toDigits 10 value ≠ [] := Nat.toDigits_ne_nil
    have leading := head?_toDigits positive
    have digits := all_toDigits value
    obtain ⟨first, rest, split⟩ := List.exists_cons_of_ne_nil nonempty
    rw [split] at leading digits ⊢
    obtain ⟨digit, others⟩ := Bool.and_eq_true_iff.mp digits
    exact .leading digit (fun zero => leading (congrArg some zero)) others

end Digits

/-! ## Strings -/

/-- How a character of a string is found again: as itself, unless it was written by its
number. -/
def pieceOf (character : Char) : Piece :=
  if character.toNat < 0x20 ∧ character ∉ ['\n', '\r', '\t', '\x08', '\x0c'] then
    .unit character.toNat
  else .character character

theorem unit?_escapeDigit :
    ∀ value < 0x20, unit? '0' '0' (escapeDigit (value / 16)) (escapeDigit (value % 16)) =
      some value := by
  decide

theorem eq_ofNat {character : Char} {value : Nat} (same : character.toNat = value) :
    character = Char.ofNat value := by
  rw [← same, Char.ofNat_toNat]

theorem spelling_writeChar (character : Char) :
    PieceSpelling (pieceOf character) (writeChar character) := by
  unfold writeChar
  split
  · exact .escaped rfl
  · exact .escaped rfl
  · exact .escaped rfl
  · exact .escaped rfl
  · exact .escaped rfl
  next unquoted unescaped feed turn tab =>
    split
    next backspace =>
      obtain rfl : character = '\x08' := eq_ofNat backspace
      exact .escaped rfl
    next noBackspace =>
      split
      next page =>
        obtain rfl : character = '\x0c' := eq_ofNat page
        exact .escaped rfl
      next noPage =>
        split
        next control =>
          have short : character ∉ ['\n', '\r', '\t', '\x08', '\x0c'] := by
            simp only [List.mem_cons, List.not_mem_nil, or_false, not_or]
            exact ⟨feed, turn, tab, fun same => noBackspace (same ▸ rfl),
              fun same => noPage (same ▸ rfl)⟩
          have numbered : pieceOf character = .unit character.toNat := if_pos ⟨control, short⟩
          rw [numbered]
          exact .unit (unit?_escapeDigit character.toNat control)
        next visible =>
          have plain : pieceOf character = .character character :=
            if_neg fun escape => visible escape.1
          rw [plain]
          exact .plain (Nat.le_of_not_lt visible) unquoted unescaped

theorem joinPieces_unit {unit : Nat} (small : unit < 0x20) (pieces : List Piece) :
    joinPieces (.unit unit :: pieces) = (joinPieces pieces).map (Char.ofNat unit :: ·) := by
  have whole : isHighHalf unit = false ∧ isLowHalf unit = false := by
    simp only [isHighHalf, isLowHalf, Bool.and_eq_false_iff, decide_eq_false_iff_not]
    omega
  cases pieces with
  | nil => simp [joinPieces, whole]
  | cons piece rest => cases piece <;> simp [joinPieces, whole]

theorem joinPieces_pieceOf (text : List Char) : joinPieces (text.map pieceOf) = some text := by
  induction text with
  | nil => rfl
  | cons character rest ih =>
      rw [List.map_cons]
      by_cases numbered : character.toNat < 0x20 ∧
          character ∉ ['\n', '\r', '\t', '\x08', '\x0c']
      · rw [pieceOf, if_pos numbered, joinPieces_unit numbered.1, ih, Char.ofNat_toNat]
        rfl
      · rw [pieceOf, if_neg numbered, joinPieces, ih]
        rfl

theorem spelling_writeAll (text : List Char) :
    PiecesSpelling (text.map pieceOf) (text.flatMap writeChar) := by
  induction text with
  | nil => exact .nil
  | cons character rest ih =>
      rw [List.map_cons, List.flatMap_cons]
      exact .cons (spelling_writeChar character) ih

/-! ## Words -/

theorem spelling_writeLeaf {value : JsonLeaf} (plain : value.Plain) :
    LeafSpelling value (writeLeaf value).toList := by
  cases value with
  | null => exact .null
  | bool value =>
      cases value with
      | true => exact .yes
      | false => exact .no
  | natural value =>
      have digits : (writeLeaf (.natural value)).toList = Nat.toDigits 10 value := Nat.toList_repr
      have whole := LeafSpelling.natural (whole_toDigits value)
      rw [Text.decimalValue, Nat.ofDigitChars_ten_toDigits] at whole
      rw [digits]
      exact whole
  | otherNumber written => cases plain
  | text value =>
      obtain ⟨text, rfl⟩ := Option.isSome_iff_exists.mp plain
      have spelled := LeafSpelling.text (spelling_writeAll text.toList)
      rw [textOfPieces, joinPieces_pieceOf, Option.map_some, String.ofList_toList] at spelled
      have written : (writeLeaf (.text (some text))).toList =
          '"' :: (text.toList.flatMap writeChar ++ ['"']) := by
        simp [writeLeaf, writeText]
      rw [written]
      exact spelled

def written (words : List Token) : List Char := words.flatMap fun word => (writeToken word).toList

theorem spelling_written {words : List Token} (plain : ∀ word ∈ words, word.Plain) :
    RowSpelling words (written words) := by
  induction words with
  | nil => exact .nil rfl
  | cons word rest ih =>
      obtain ⟨first, others⟩ := List.forall_mem_cons.mp plain
      have spelled : TokenSpelling word (writeToken word).toList := by
        cases word with
        | leaf value => exact .leaf (spelling_writeLeaf first)
        | _ => constructor
      have unparted : [].all isBlank = true := rfl
      exact .cons unparted spelled (ih others)

end Lexer

/-! ## Texts of values -/

/-- A value that is written with natural numbers only and with texts that stand for
themselves. -/
inductive Plain : Json → Prop where
  | leaf {value} : value.Plain → Plain (.leaf value)
  | array {items} : (∀ item ∈ items, Plain item) → Plain (.array items)
  | object {members : List (JsonText × Json)} : (∀ member ∈ members, member.1.isSome) →
      (∀ member ∈ members, Plain member.2) → Plain (.object members)

section Words

variable {fine : Token → Prop}

theorem forall_mem_itemTokens (comma : fine .comma) {items : List Json}
    (parts : ∀ item ∈ items, ∀ word ∈ item.tokens, fine word) :
    ∀ word ∈ itemTokens items, fine word := by
  induction items with
  | nil => exact nofun
  | cons item rest ih =>
      obtain ⟨first, others⟩ := List.forall_mem_cons.mp parts
      cases rest with
      | nil => exact first
      | cons next rest =>
          rw [itemTokens_cons_cons]
          exact List.forall_mem_append.mpr ⟨first, List.forall_mem_cons.mpr ⟨comma, ih others⟩⟩

theorem forall_mem_memberTokens (comma : fine .comma) (colon : fine .colon)
    {members : List (JsonText × Json)} (names : ∀ member ∈ members, fine (.leaf (.text member.1)))
    (parts : ∀ member ∈ members, ∀ word ∈ member.2.tokens, fine word) :
    ∀ word ∈ memberTokens members, fine word := by
  induction members with
  | nil => exact nofun
  | cons member rest ih =>
      obtain ⟨key, value⟩ := member
      obtain ⟨name, otherNames⟩ := List.forall_mem_cons.mp names
      obtain ⟨first, others⟩ := List.forall_mem_cons.mp parts
      have keyed : ∀ {words : List Token}, (∀ word ∈ words, fine word) →
          ∀ word ∈ .leaf (.text key) :: .colon :: words, fine word :=
        fun words => List.forall_mem_cons.mpr ⟨name, List.forall_mem_cons.mpr ⟨colon, words⟩⟩
      cases rest with
      | nil => exact keyed first
      | cons next rest =>
          have further := List.forall_mem_cons.mpr ⟨comma, ih otherNames others⟩
          rw [memberTokens_cons_cons]
          exact keyed (List.forall_mem_append.mpr ⟨first, further⟩)

end Words

theorem Plain.tokens {json : Json} (plain : json.Plain) :
    ∀ word ∈ json.tokens, word.Plain := by
  induction plain with
  | leaf plain => exact List.forall_mem_singleton.mpr plain
  | array _ ih =>
      have inside := forall_mem_itemTokens (show Token.Plain .comma from trivial) ih
      exact List.forall_mem_cons.mpr
        ⟨trivial, List.forall_mem_append.mpr ⟨inside, List.forall_mem_singleton.mpr trivial⟩⟩
  | object named _ ih =>
      have inside := forall_mem_memberTokens (show Token.Plain .comma from trivial) trivial named ih
      exact List.forall_mem_cons.mpr
        ⟨trivial, List.forall_mem_append.mpr ⟨inside, List.forall_mem_singleton.mpr trivial⟩⟩

theorem toList_compact (json : Json) : json.compact.toList = Lexer.written json.tokens := by
  rw [compact, String.toList_join, Lexer.written, List.flatMap_map]

theorem spelling_compact {json : Json} (plain : json.Plain) : json.Spelling json.compact := by
  rw [Spelling, toList_compact]
  exact Lexer.spelling_written plain.tokens

theorem parse?_compact {json : Json} (plain : json.Plain) : parse? json.compact = some json :=
  parse?_of_spelling (spelling_compact plain)

/-! ## What a text looks like -/

theorem compact_leaf (value : JsonLeaf) : (leaf value).compact = writeLeaf value := by
  rw [compact, tokens, List.map_singleton, String.join_cons, String.join_nil, String.append_empty,
    writeToken]

def writeMember (member : JsonText × Json) : String :=
  writeText member.1 ++ ":" ++ member.2.compact

theorem join_itemTokens (items : List Json) :
    String.join ((itemTokens items).map writeToken) = ",".intercalate (items.map compact) := by
  induction items with
  | nil => rfl
  | cons item rest ih =>
      cases rest with
      | nil => rw [itemTokens, List.map_singleton, String.intercalate_singleton, compact]
      | cons next rest =>
          have split : ",".intercalate ((item :: next :: rest).map compact) =
              item.compact ++ "," ++ ",".intercalate ((next :: rest).map compact) :=
            String.intercalate_cons_cons
          rw [split, itemTokens_cons_cons, List.map_append, String.join_append, List.map_cons,
            String.join_cons, ih, String.append_assoc]
          rfl

theorem join_memberTokens (members : List (JsonText × Json)) :
    String.join ((memberTokens members).map writeToken) =
      ",".intercalate (members.map writeMember) := by
  induction members with
  | nil => rfl
  | cons member rest ih =>
      obtain ⟨key, value⟩ := member
      cases rest with
      | nil =>
          rw [memberTokens, List.map_singleton, String.intercalate_singleton, List.map_cons,
            List.map_cons, String.join_cons, String.join_cons, writeMember, String.append_assoc]
          rfl
      | cons next rest =>
          have split : ",".intercalate (((key, value) :: next :: rest).map writeMember) =
              writeMember (key, value) ++ "," ++ ",".intercalate ((next :: rest).map writeMember) :=
            String.intercalate_cons_cons
          rw [split, memberTokens_cons_cons, List.map_cons, List.map_cons, List.map_append,
            String.join_cons, String.join_cons, String.join_append, List.map_cons,
            String.join_cons, ih, writeMember]
          simp only [String.append_assoc]
          rfl

theorem compact_array (items : List Json) :
    (array items).compact = "[" ++ ",".intercalate (items.map compact) ++ "]" := by
  rw [compact, tokens, List.map_cons, List.map_append, String.join_cons, String.join_append,
    join_itemTokens, String.append_assoc]
  rfl

theorem compact_object (members : List (JsonText × Json)) :
    (object members).compact =
      "\x7b" ++ ",".intercalate (members.map writeMember) ++ "\x7d" := by
  rw [compact, tokens, List.map_cons, List.map_append, String.join_cons, String.join_append,
    join_memberTokens, String.append_assoc]
  rfl

end Json
end Chip8

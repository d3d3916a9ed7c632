import Chip8.Json.Reader
import Mathlib.Data.List.Chain

/-!
# Texts that stand for a value

The grammar of JSON texts: a value is spelled by its words in order, with blanks wherever
words meet. Every text of the grammar is read as the value it spells. The reader takes the
longest run of characters for a name or a number, and that run is the word because no two
words that could run together stand side by side in a value.
-/

set_option autoImplicit false

namespace Chip8
namespace Json

open Lexer (Piece isBlank escaped? unit? textOfPieces isWordChar)
open Text (isDecimal decimalValue)

/-! ## Spellings -/

inductive Whole : List Char → Prop where
  | zero : Whole ['0']
  | leading {first rest} :
      first.isDigit = true → first ≠ '0' → rest.all Char.isDigit = true → Whole (first :: rest)

inductive Fraction : List Char → Prop where
  | absent : Fraction []
  | point {digits} : isDecimal digits = true → Fraction ('.' :: digits)

inductive Exponent : List Char → Prop where
  | absent : Exponent []
  | unsigned {mark digits} :
      mark = 'e' ∨ mark = 'E' → isDecimal digits = true → Exponent (mark :: digits)
  | signed {mark sign digits} :
      mark = 'e' ∨ mark = 'E' → sign = '+' ∨ sign = '-' → isDecimal digits = true →
      Exponent (mark :: sign :: digits)

inductive PieceSpelling : Piece → List Char → Prop where
  | plain {character} :
      0x20 ≤ character.toNat → character ≠ '"' → character ≠ '\\' →
      PieceSpelling (.character character) [character]
  | escaped {letter character} :
      escaped? letter = some character →
      PieceSpelling (.character character) ['\\', letter]
  | unit {a b c d value} :
      unit? a b c d = some value → PieceSpelling (.unit value) ['\\', 'u', a, b, c, d]

inductive PiecesSpelling : List Piece → List Char → Prop where
  | nil : PiecesSpelling [] []
  | cons {piece pieces first rest} :
      PieceSpelling piece first → PiecesSpelling pieces rest →
      PiecesSpelling (piece :: pieces) (first ++ rest)

inductive LeafSpelling : JsonLeaf → List Char → Prop where
  | null : LeafSpelling .null "null".toList
  | yes : LeafSpelling (.bool true) "true".toList
  | no : LeafSpelling (.bool false) "false".toList
  | natural {digits} : Whole digits → LeafSpelling (.natural (decimalValue digits)) digits
  /-- A number with a sign, a fraction or an exponent. -/
  | otherNumber {sign whole fraction exponent} :
      sign = [] ∨ sign = ['-'] → Whole whole → Fraction fraction → Exponent exponent →
      ¬ (sign = [] ∧ fraction = [] ∧ exponent = []) →
      LeafSpelling (.otherNumber (String.ofList (sign ++ (whole ++ (fraction ++ exponent)))))
        (sign ++ (whole ++ (fraction ++ exponent)))
  | text {pieces inner} :
      PiecesSpelling pieces inner →
      LeafSpelling (.text (textOfPieces pieces)) ('"' :: (inner ++ ['"']))

inductive TokenSpelling : Token → List Char → Prop where
  | openArray : TokenSpelling .openArray ['[']
  | closeArray : TokenSpelling .closeArray [']']
  | openObject : TokenSpelling .openObject ['\x7b']
  | closeObject : TokenSpelling .closeObject ['\x7d']
  | comma : TokenSpelling .comma [',']
  | colon : TokenSpelling .colon [':']
  | leaf {value word} : LeafSpelling value word → TokenSpelling (.leaf value) word

/-- Words in order, with blanks before each of them and after the last. -/
inductive RowSpelling : List Token → List Char → Prop where
  | nil {blanks} : blanks.all isBlank = true → RowSpelling [] blanks
  | cons {token tokens blanks word rest} :
      blanks.all isBlank = true → TokenSpelling token word → RowSpelling tokens rest →
      RowSpelling (token :: tokens) (blanks ++ (word ++ rest))

/-- The text stands for the value. -/
def Spelling (json : Json) (text : String) : Prop := RowSpelling json.tokens text.toList

/-! ## Values and their parts -/

@[elab_as_elim]
theorem induct {motive : Json → Prop} (leaf : ∀ value, motive (.leaf value))
    (array : ∀ items, (∀ item ∈ items, motive item) → motive (.array items))
    (object : ∀ members : List (JsonText × Json), (∀ member ∈ members, motive member.2) →
      motive (.object members))
    (json : Json) : motive json := by
  refine @Json.rec motive (fun items => ∀ item ∈ items, motive item)
    (fun members => ∀ member ∈ members, motive member.2) (fun member => motive member.2)
    leaf array object ?_ ?_ ?_ ?_ ?_ json
  · simp
  · intro item rest first others
    exact List.forall_mem_cons.mpr ⟨first, others⟩
  · simp
  · intro member rest first others
    exact List.forall_mem_cons.mpr ⟨first, others⟩
  · intro key value whole
    exact whole

theorem itemTokens_cons_cons (item next : Json) (rest : List Json) :
    itemTokens (item :: next :: rest) = tokens item ++ .comma :: itemTokens (next :: rest) := by
  simp [itemTokens]

theorem memberTokens_cons_cons (key : JsonText) (value : Json) (next : JsonText × Json)
    (rest : List (JsonText × Json)) :
    memberTokens ((key, value) :: next :: rest) =
      .leaf (.text key) :: .colon :: (tokens value ++ .comma :: memberTokens (next :: rest)) := by
  simp [memberTokens]

/-! ## Reading words -/

namespace Reader

/-- The words of a value bring a reader that waits for one as far as the value itself. -/
def Completes (json : Json) : Prop :=
  ∀ outer later, (tokens json ++ later).foldlM step? (.value outer) =
    later.foldlM step? (complete json outer)

variable (outer : List Container) (later : List Token)

theorem foldlM_cons_of_step {reader next : Reader} {token : Token}
    (step : reader.step? token = some next) :
    (token :: later).foldlM step? reader = later.foldlM step? next := by
  rw [List.foldlM_cons, step]
  rfl

theorem foldlM_items {items : List Json} (parts : ∀ item ∈ items, Completes item)
    (nonempty : items ≠ []) (before : List Json) :
    (itemTokens items ++ .closeArray :: later).foldlM step? (.value (.array before :: outer)) =
      later.foldlM step? (complete (.array (before.reverse ++ items)) outer) := by
  induction items generalizing before with
  | nil => exact absurd rfl nonempty
  | cons item rest ih =>
      obtain ⟨first, others⟩ := List.forall_mem_cons.mp parts
      cases rest with
      | nil =>
          rw [itemTokens, first, foldlM_cons_of_step later rfl, List.reverse_cons]
      | cons next rest =>
          have further := ih others (List.cons_ne_nil next rest) (item :: before)
          rw [itemTokens_cons_cons, List.append_assoc, first, List.cons_append,
            foldlM_cons_of_step _ rfl, further, List.reverse_cons, List.append_assoc]
          rfl

theorem foldlM_members {members : List (JsonText × Json)}
    (parts : ∀ member ∈ members, Completes member.2) (nonempty : members ≠ [])
    (before : List (JsonText × Json)) :
    (memberTokens members ++ .closeObject :: later).foldlM step? (.key before outer) =
      later.foldlM step? (complete (.object (before.reverse ++ members)) outer) := by
  induction members generalizing before with
  | nil => exact absurd rfl nonempty
  | cons member rest ih =>
      obtain ⟨key, value⟩ := member
      obtain ⟨first, others⟩ := List.forall_mem_cons.mp parts
      have first : Completes value := first
      have named : ∀ after : List Token,
          (.leaf (.text key) :: .colon :: (tokens value ++ after)).foldlM step?
              (.key before outer) =
            after.foldlM step? (.afterMember ((key, value) :: before) outer) := by
        intro after
        rw [foldlM_cons_of_step _ rfl, foldlM_cons_of_step _ rfl, first]
        rfl
      cases rest with
      | nil =>
          rw [memberTokens, List.cons_append, List.cons_append, named,
            foldlM_cons_of_step later rfl, List.reverse_cons]
      | cons next rest =>
          have further := ih others (List.cons_ne_nil next rest) ((key, value) :: before)
          rw [memberTokens_cons_cons, List.cons_append, List.cons_append, List.append_assoc,
            named, List.cons_append, foldlM_cons_of_step _ rfl, further, List.reverse_cons,
            List.append_assoc]
          rfl

theorem firstItem_foldlM {items : List Json} (nonempty : items ≠ []) :
    (itemTokens items ++ later).foldlM step? (.firstItem outer) =
      (itemTokens items ++ later).foldlM step? (.value (.array [] :: outer)) := by
  have begins : ∃ first rest, itemTokens items = first :: rest ∧ first ≠ .closeArray := by
    obtain ⟨item, others, rfl⟩ := List.exists_cons_of_ne_nil nonempty
    cases others with
    | nil => cases item <;> simp [itemTokens, tokens]
    | cons => cases item <;> simp [itemTokens, tokens]
  obtain ⟨first, rest, split, further⟩ := begins
  have same : step? (.firstItem outer) first = step? (.value (.array [] :: outer)) first := by
    cases first with
    | closeArray => exact absurd rfl further
    | _ => rfl
  rw [split, List.cons_append, List.foldlM_cons, List.foldlM_cons, same]

theorem firstKey_foldlM {members : List (JsonText × Json)} (nonempty : members ≠ []) :
    (memberTokens members ++ later).foldlM step? (.firstKey outer) =
      (memberTokens members ++ later).foldlM step? (.key [] outer) := by
  obtain ⟨⟨key, value⟩, others, rfl⟩ := List.exists_cons_of_ne_nil nonempty
  cases others <;> simp [memberTokens, step?]

theorem completes (json : Json) : Completes json := by
  induction json using induct with
  | leaf value =>
      intro outer later
      rw [tokens, List.singleton_append, foldlM_cons_of_step later rfl]
  | array items ih =>
      intro outer later
      rw [tokens, List.cons_append, foldlM_cons_of_step _ rfl, List.append_assoc]
      by_cases empty : items = []
      · subst empty
        exact foldlM_cons_of_step later rfl
      · exact (firstItem_foldlM outer _ empty).trans (foldlM_items outer later ih empty [])
  | object members ih =>
      intro outer later
      rw [tokens, List.cons_append, foldlM_cons_of_step _ rfl, List.append_assoc]
      by_cases empty : members = []
      · subst empty
        exact foldlM_cons_of_step later rfl
      · exact (firstKey_foldlM outer _ empty).trans (foldlM_members outer later ih empty [])

end Reader

/-- Every value is read back from its words. -/
theorem ofTokens?_tokens (json : Json) : ofTokens? json.tokens = some json := by
  have read := Reader.completes json [] []
  rw [List.append_nil] at read
  rw [ofTokens?, read]
  rfl

/-! ## Words of a value -/

def isMark : Token → Bool
  | .leaf _ => false
  | _ => true

/-- Two values without parts never stand side by side. -/
def Separated (words : List Token) : Prop :=
  words.IsChain fun first next => isMark first = true ∨ isMark next = true

namespace Separated

variable {mark : Token} {front back : List Token}

theorem mark_cons (known : isMark mark = true) (rest : Separated back) :
    Separated (mark :: back) :=
  List.isChain_cons.mpr ⟨fun _ _ => .inl known, rest⟩

theorem append_mark (before : Separated front) (known : isMark mark = true)
    (after : Separated (mark :: back)) : Separated (front ++ mark :: back) := by
  refine List.isChain_append.mpr ⟨before, after, ?_⟩
  rintro last _ _ ⟨⟩
  exact .inr known

theorem itemTokens {items : List Json} (parts : ∀ item ∈ items, Separated item.tokens) :
    Separated (Json.itemTokens items ++ [.closeArray]) := by
  have last : Separated [.closeArray] := List.isChain_singleton _
  induction items with
  | nil => exact last
  | cons item rest ih =>
      obtain ⟨first, others⟩ := List.forall_mem_cons.mp parts
      cases rest with
      | nil => exact first.append_mark rfl last
      | cons next rest =>
          rw [itemTokens_cons_cons, List.append_assoc]
          exact first.append_mark rfl (.mark_cons rfl (ih others))

theorem memberTokens {members : List (JsonText × Json)}
    (parts : ∀ member ∈ members, Separated member.2.tokens) :
    Separated (Json.memberTokens members ++ [.closeObject]) := by
  have last : Separated [.closeObject] := List.isChain_singleton _
  induction members with
  | nil => exact last
  | cons member rest ih =>
      obtain ⟨key, value⟩ := member
      obtain ⟨first, others⟩ := List.forall_mem_cons.mp parts
      have name : Separated [.leaf (.text key)] := List.isChain_singleton _
      have keyed : ∀ {words}, Separated words →
          Separated (.leaf (.text key) :: .colon :: words) :=
        fun words => name.append_mark rfl (.mark_cons rfl words)
      cases rest with
      | nil => exact keyed (append_mark first rfl last)
      | cons next rest =>
          rw [memberTokens_cons_cons, List.cons_append, List.cons_append, List.append_assoc]
          exact keyed (append_mark first rfl (.mark_cons rfl (ih others)))

end Separated

theorem separated_tokens (json : Json) : Separated json.tokens := by
  induction json using induct with
  | leaf value => exact List.isChain_singleton _
  | array items ih => exact .mark_cons rfl (.itemTokens ih)
  | object members ih => exact .mark_cons rfl (.memberTokens ih)

/-! ## Words of a text -/

namespace Lexer

def Apart (text : List Char) : Prop := ∀ character ∈ text.head?, isWordChar character = false

theorem run_append {run : Char → Bool} {word text : List Char}
    (inside : ∀ character ∈ word, run character = true)
    (outside : ∀ character ∈ text.head?, run character = false) :
    (word ++ text).takeWhile run = word ∧ (word ++ text).dropWhile run = text := by
  have stop : text.takeWhile run = [] ∧ text.dropWhile run = text := by
    cases text with
    | nil => exact ⟨rfl, rfl⟩
    | cons character rest =>
        have other : run character = false := outside character rfl
        simp [other]
  rw [List.takeWhile_append_of_pos inside, List.dropWhile_append_of_pos inside, stop.1, stop.2,
    List.append_nil]
  exact ⟨rfl, rfl⟩

theorem only_word_of_isWordChar {character : Char} (word : isWordChar character = true) :
    isBlank character = false ∧ character ≠ '"' ∧ punctuation? character = none := by
  refine ⟨?_, ?_, ?_⟩
  · rw [Bool.eq_false_iff]
    intro blank
    simp only [isBlank, Bool.or_eq_true, beq_iff_eq] at blank
    rcases blank with ((rfl | rfl) | rfl) | rfl <;> exact absurd word (by decide)
  · rintro rfl
    exact absurd word (by decide)
  · unfold punctuation?
    split
    all_goals first | rfl | exact absurd word (by decide)

theorem scan_word {word text : List Char} {value : JsonLeaf} (seen : List Token)
    (nonempty : word ≠ []) (solid : word.all isWordChar = true)
    (known : word? word = some value) (apart : Apart text) :
    scan seen (word ++ text) = scan (.leaf value :: seen) text := by
  obtain ⟨first, rest, rfl⟩ := List.exists_cons_of_ne_nil nonempty
  obtain ⟨begins, others⟩ := List.forall_mem_cons.mp (List.all_eq_true.mp solid)
  obtain ⟨solidFirst, unquoted, unmarked⟩ := only_word_of_isWordChar begins
  obtain ⟨taken, left⟩ := run_append others apart
  rw [List.cons_append, scan]
  simp only [solidFirst, unquoted, unmarked, taken, left, known, Bool.false_eq_true, ↓reduceIte]

/-! ## Numbers -/

theorem all_isWordChar_of_all_isDigit {word : List Char} (digits : word.all Char.isDigit = true) :
    word.all isWordChar = true := by
  apply List.all_eq_true.mpr
  intro character member
  have digit : character.isDigit = true := List.all_eq_true.mp digits character member
  simp [isWordChar, Char.isAlphanum, digit]

theorem of_isDecimal {digits : List Char} (known : isDecimal digits = true) :
    digits ≠ [] ∧ digits.all Char.isDigit = true := by
  simpa [isDecimal] using known

section Whole

variable {whole : List Char} (known : Whole whole)
include known

theorem all_isDigit_of_whole : whole.all Char.isDigit = true := by
  cases known with
  | zero => rfl
  | leading first _ rest => rw [List.all_cons, first, rest, Bool.and_self]

theorem isWhole_of_whole : isWhole whole = true := by
  cases known with
  | zero => rfl
  | leading first nonzero rest => simp [isWhole, isDecimal, first, nonzero, rest]

theorem ne_nil_of_whole : whole ≠ [] := by
  cases known <;> exact List.cons_ne_nil _ _

end Whole

section Tail

variable {fraction exponent : List Char} (pointed : Fraction fraction) (raised : Exponent exponent)
include raised

theorem exponent_is_tail :
    isNumberTail exponent = true ∧ exponent.all isWordChar = true ∧
      ∀ character ∈ exponent.head?, character.isDigit = false := by
  cases raised with
  | absent => exact ⟨rfl, rfl, nofun⟩
  | @unsigned mark digits marked known =>
      obtain ⟨nonempty, solid⟩ := of_isDecimal known
      obtain ⟨first, rest, rfl⟩ := List.exists_cons_of_ne_nil nonempty
      have bare : isExponent (first :: rest) = true := by
        unfold isExponent
        split
        next signed =>
          obtain ⟨rfl, -⟩ := List.cons.inj signed
          exact absurd solid (by simp)
        next signed =>
          obtain ⟨rfl, -⟩ := List.cons.inj signed
          exact absurd solid (by simp)
        next => exact known
      have words := all_isWordChar_of_all_isDigit solid
      rcases marked with rfl | rfl
      · exact ⟨bare, words, by rintro _ ⟨⟩; rfl⟩
      · exact ⟨bare, words, by rintro _ ⟨⟩; rfl⟩
  | signed marked known digits =>
      have words := all_isWordChar_of_all_isDigit (of_isDecimal digits).2
      rcases marked with rfl | rfl <;> rcases known with rfl | rfl
      all_goals exact ⟨digits, words, by rintro _ ⟨⟩; rfl⟩

include pointed

theorem fraction_exponent_is_tail :
    isNumberTail (fraction ++ exponent) = true ∧
      (fraction ++ exponent).all isWordChar = true ∧
      ∀ character ∈ (fraction ++ exponent).head?, character.isDigit = false := by
  obtain ⟨tail, words, apart⟩ := exponent_is_tail raised
  cases pointed with
  | absent => exact ⟨tail, words, apart⟩
  | @point digits known =>
      obtain ⟨-, solid⟩ := of_isDecimal known
      obtain ⟨taken, left⟩ := run_append (List.all_eq_true.mp solid) apart
      refine ⟨?_, ?_, by rintro _ ⟨⟩; rfl⟩
      · rw [List.cons_append, isNumberTail, taken, left, known, Bool.true_and]
        cases raised with
        | absent => rfl
        | unsigned marked | signed marked => rcases marked with rfl | rfl <;> exact tail
      · rw [List.cons_append, List.all_cons, List.all_append, words,
          all_isWordChar_of_all_isDigit solid]
        rfl

end Tail

theorem number?_of_parts {sign whole tail : List Char} (signed : sign = [] ∨ sign = ['-'])
    (known : Whole whole) (follows : isNumberTail tail = true)
    (apart : ∀ character ∈ tail.head?, character.isDigit = false) :
    number? (sign ++ (whole ++ tail)) =
      if (sign ++ (whole ++ tail)).all Char.isDigit then
        some (.natural (decimalValue (sign ++ (whole ++ tail))))
      else some (.otherNumber (String.ofList (sign ++ (whole ++ tail)))) := by
  have digits := List.all_eq_true.mp (all_isDigit_of_whole known)
  obtain ⟨taken, left⟩ := run_append digits apart
  have found := isWhole_of_whole known
  rcases signed with rfl | rfl
  · unfold number?
    split
    next rest negative =>
      obtain ⟨first, others, rfl⟩ := List.exists_cons_of_ne_nil (ne_nil_of_whole known)
      obtain ⟨rfl, -⟩ := List.cons.inj negative
      exact absurd (digits '-' List.mem_cons_self) (by decide)
    next =>
      simp only [List.nil_append, taken, left, found, follows, Bool.and_self, ↓reduceIte]
  · simp only [number?, List.singleton_append, taken, left, found, follows, Bool.and_self,
      ↓reduceIte]

theorem word?_eq_number? {word : List Char}
    (unnamed : ∀ character ∈ word.head?, character ∉ ['n', 't', 'f']) :
    word? word = number? word := by
  unfold word?
  rw [if_neg, if_neg, if_neg]
  all_goals
    rintro rfl
    exact absurd (unnamed _ rfl) (by decide)

theorem word?_of_parts {sign whole tail : List Char} (signed : sign = [] ∨ sign = ['-'])
    (known : Whole whole) (follows : isNumberTail tail = true)
    (apart : ∀ character ∈ tail.head?, character.isDigit = false) :
    word? (sign ++ (whole ++ tail)) =
      if (sign ++ (whole ++ tail)).all Char.isDigit then
        some (.natural (decimalValue (sign ++ (whole ++ tail))))
      else some (.otherNumber (String.ofList (sign ++ (whole ++ tail)))) := by
  have unnamed : ∀ character ∈ (sign ++ (whole ++ tail)).head?, character ∉ ['n', 't', 'f'] := by
    rcases signed with rfl | rfl
    · cases known with
      | zero => rintro _ ⟨⟩; decide
      | leading digit =>
          rintro first ⟨⟩ letter
          simp only [List.mem_cons, List.not_mem_nil, or_false] at letter
          rcases letter with rfl | rfl | rfl <;> cases digit
    · rintro _ ⟨⟩; decide
  rw [word?_eq_number? unnamed]
  exact number?_of_parts signed known follows apart

/-! ## Strings -/

def parts? (seen : List Piece) (text : List Char) : Option (List Piece × List Char) :=
  (scanString seen text).map fun scanned => (scanned.pieces, scanned.rest)

theorem parts?_quote (seen : List Piece) (text : List Char) :
    parts? seen ('"' :: text) = some (seen.reverse, text) := by
  simp [parts?, scanString]

theorem parts?_escaped (seen : List Piece) {letter character : Char} (text : List Char)
    (known : escaped? letter = some character) :
    parts? seen ('\\' :: letter :: text) = parts? (.character character :: seen) text := by
  have named : letter ≠ 'u' := by
    rintro rfl
    cases known
  rw [parts?, scanString, known, Option.bind_eq_bind, Option.bind_some, parts?]
  · cases scanString (.character character :: seen) text <;> rfl
  · rintro _ _ _ _ _ ⟨⟩
    exact absurd rfl named

theorem parts?_unit (seen : List Piece) {a b c d : Char} {unit : Nat} (text : List Char)
    (known : unit? a b c d = some unit) :
    parts? seen ('\\' :: 'u' :: a :: b :: c :: d :: text) = parts? (.unit unit :: seen) text := by
  rw [parts?, scanString, known, Option.bind_eq_bind, Option.bind_some, parts?]
  cases scanString (.unit unit :: seen) text <;> rfl

theorem parts?_plain (seen : List Piece) {character : Char} (text : List Char)
    (unquoted : character ≠ '"') (unescaped : character ≠ '\\')
    (visible : ¬ character.toNat < 0x20) :
    parts? seen (character :: text) = parts? (.character character :: seen) text := by
  rw [parts?, scanString, if_neg visible, parts?]
  · cases scanString (.character character :: seen) text <;> rfl
  all_goals simp_all

theorem parts?_pieces (seen : List Piece) {pieces : List Piece} {inner : List Char}
    (spelled : PiecesSpelling pieces inner) (after : List Char) :
    parts? seen (inner ++ '"' :: after) = some (seen.reverse ++ pieces, after) := by
  induction spelled generalizing seen with
  | nil => rw [List.nil_append, parts?_quote, List.append_nil]
  | @cons piece pieces first rest spelled _ ih =>
      have taken : parts? seen (first ++ (rest ++ '"' :: after)) =
          parts? (piece :: seen) (rest ++ '"' :: after) := by
        cases spelled with
        | plain visible unquoted unescaped =>
            exact parts?_plain seen _ unquoted unescaped (Nat.not_lt.mpr visible)
        | escaped known => exact parts?_escaped seen _ known
        | unit known => exact parts?_unit seen _ known
      rw [List.append_assoc, taken, ih, List.reverse_cons, List.append_assoc]
      rfl

theorem scan_text (seen : List Token) {pieces : List Piece} {inner : List Char}
    (spelled : PiecesSpelling pieces inner) (after : List Char) :
    scan seen ('"' :: (inner ++ '"' :: after)) =
      scan (.leaf (.text (textOfPieces pieces)) :: seen) after := by
  have found := parts?_pieces [] spelled after
  obtain ⟨scanned, read, parts⟩ := Option.map_eq_some_iff.mp found
  obtain ⟨whole, rest⟩ := Prod.mk.inj parts
  have quote : isBlank '"' = false := by decide
  rw [scan]
  simp only [quote, read, whole, rest, List.reverse_nil, List.nil_append, Bool.false_eq_true,
    ↓reduceIte]

/-! ## Rows of words -/

theorem scan_leaf (seen : List Token) {value : JsonLeaf} {word : List Char}
    (spelled : LeafSpelling value word) {text : List Char} (apart : Apart text) :
    scan seen (word ++ text) = scan (.leaf value :: seen) text := by
  cases spelled with
  | null => exact scan_word seen (by decide) rfl (by decide) apart
  | yes => exact scan_word seen (by decide) rfl (by decide) apart
  | no => exact scan_word seen (by decide) rfl (by decide) apart
  | natural whole =>
      have solid := all_isDigit_of_whole whole
      have read : word? word = some (.natural (decimalValue word)) := by
        have known := word?_of_parts (.inl rfl) whole (rfl : isNumberTail [] = true) nofun
        rw [List.nil_append, List.append_nil] at known
        exact known.trans (if_pos solid)
      exact scan_word seen (ne_nil_of_whole whole) (all_isWordChar_of_all_isDigit solid) read apart
  | @otherNumber sign whole fraction exponent signed known pointed raised other =>
      obtain ⟨follows, words, ends⟩ := fraction_exponent_is_tail pointed raised
      have solid : (sign ++ (whole ++ (fraction ++ exponent))).all isWordChar = true := by
        rw [List.all_append, List.all_append, words,
          all_isWordChar_of_all_isDigit (all_isDigit_of_whole known)]
        rcases signed with rfl | rfl <;> rfl
      have mixed : (sign ++ (whole ++ (fraction ++ exponent))).all Char.isDigit = false := by
        rcases signed with rfl | rfl
        · have more : fraction ++ exponent ≠ [] :=
            fun none => other ⟨rfl, List.append_eq_nil_iff.mp none⟩
          obtain ⟨first, rest, split⟩ := List.exists_cons_of_ne_nil more
          have stop : first.isDigit = false := ends first (by rw [split]; rfl)
          simp [split, stop]
        · rfl
      have nonempty : sign ++ (whole ++ (fraction ++ exponent)) ≠ [] := by
        simp [ne_nil_of_whole known]
      have read := word?_of_parts signed known follows ends
      rw [mixed] at read
      exact scan_word seen nonempty solid read apart
  | @text pieces inner spelled =>
      rw [List.cons_append, List.append_assoc]
      exact scan_text seen spelled text

theorem scan_blanks (seen : List Token) {blanks : List Char} (known : blanks.all isBlank = true)
    (text : List Char) : scan seen (blanks ++ text) = scan seen text := by
  induction blanks with
  | nil => rfl
  | cons blank rest ih =>
      obtain ⟨first, others⟩ := Bool.and_eq_true_iff.mp known
      rw [List.cons_append, scan, if_pos first, ih others]

theorem apart_of_blanks {blanks : List Char} (known : blanks.all isBlank = true)
    {text : List Char} (apart : Apart text) : Apart (blanks ++ text) := by
  cases blanks with
  | nil => exact apart
  | cons blank rest =>
      rintro _ ⟨⟩
      obtain ⟨first, -⟩ := Bool.and_eq_true_iff.mp known
      rw [Bool.eq_false_iff]
      intro word
      cases first.symm.trans (only_word_of_isWordChar word).1

theorem apart_row {words : List Token} {text : List Char} (row : RowSpelling words text)
    (parted : ∀ word ∈ words.head?, isMark word = true) : Apart text := by
  cases row with
  | @nil blanks known =>
      rw [← List.append_nil text]
      exact apart_of_blanks known nofun
  | cons known spelled row =>
      apply apart_of_blanks known
      cases spelled with
      | leaf => cases parted _ rfl
      | _ =>
          rintro _ ⟨⟩
          decide

theorem scan_row {words : List Token} {text : List Char} (row : RowSpelling words text)
    (separated : Separated words) (seen : List Token) :
    scan seen text = some (seen.reverse ++ words) := by
  induction row generalizing seen with
  | @nil blanks known =>
      rw [← List.append_nil blanks, scan_blanks seen known, scan, List.append_nil]
  | @cons token tokens blanks word rest known spelled row ih =>
      obtain ⟨next, later⟩ := List.isChain_cons.mp separated
      have taken : scan seen (word ++ rest) = scan (token :: seen) rest := by
        cases spelled with
        | leaf spelled =>
            -- A value is never followed by another one, so its word ends where the run does.
            have parted : ∀ word ∈ tokens.head?, isMark word = true := by
              intro word first
              obtain leaf | mark := next word first
              · cases leaf
              · exact mark
            exact scan_leaf seen spelled (apart_row row parted)
        | _ =>
            change scan seen (_ :: rest) = _
            rw [scan]
            rfl
      rw [scan_blanks seen known, taken, ih later, List.reverse_cons, List.append_assoc]
      rfl

end Lexer

/-- Every text that stands for a value is read as that value. -/
theorem parse?_of_spelling {json : Json} {text : String} (spelled : json.Spelling text) :
    parse? text = some json := by
  have found := Lexer.scan_row spelled (separated_tokens json) []
  rw [parse?, Lexer.tokens?, found, List.reverse_nil, List.nil_append, Option.bind_some,
    ofTokens?_tokens]

end Json
end Chip8

import Chip8.Proofs.Picture
import Mathlib.Algebra.Group.Nat.Defs
import Mathlib.Order.Nat

/-!
# Pictures as text

The text of a picture has one character for each pixel, whatever the number of pixels,
and a line feed after each row. Where the pixels fill the picture, columns and lines of
the text are the coordinates of the pixels.
-/

set_option autoImplicit false

namespace Chip8

namespace Text

/-- The lines of a text. What follows the last line feed is not ended and is no line. -/
def lines (text : String) : List (List Char) := (text.toList.splitOn '\n').dropLast

def charAt? (text : String) (column line : Nat) : Option Char :=
  (lines text)[line]?.bind fun characters => characters[column]?

theorem lines_of_ended {text : String} {rows : List (List Char)}
    (ended : text.toList = rows.flatMap (· ++ ['\n'])) (unbroken : ∀ row ∈ rows, '\n' ∉ row) :
    lines text = rows := by
  have split : (rows.flatMap (· ++ ['\n'])).splitOn '\n' = rows ++ [[]] := by
    clear ended
    induction rows with
    | nil => rfl
    | cons row rest ih =>
        obtain ⟨whole, remaining⟩ := List.forall_mem_cons.mp unbroken
        have first : row.splitOn '\n' = [row] := List.splitOn_eq_singleton whole
        have later := ih remaining
        have cut : (row ++ '\n' :: rest.flatMap (· ++ ['\n'])).splitOn '\n' =
            row.splitOn '\n' ++ (rest.flatMap (· ++ ['\n'])).splitOn '\n' :=
          List.splitOnP_append_cons row _ (beq_self_eq_true '\n')
        rw [List.flatMap_cons, List.append_assoc, List.singleton_append, cut, first, later]
        rfl
  rw [lines, ended, split, List.dropLast_concat]

theorem filter_ended {rows : List (List Char)} (unbroken : ∀ row ∈ rows, '\n' ∉ row) :
    (rows.flatMap (· ++ ['\n'])).filter (· ≠ '\n') = rows.flatten := by
  induction rows with
  | nil => rfl
  | cons row rest ih =>
      obtain ⟨whole, remaining⟩ := List.forall_mem_cons.mp unbroken
      have kept : row.filter (· ≠ '\n') = row :=
        List.filter_eq_self.mpr (forall_ne_separator whole)
      have later := ih remaining
      rw [List.flatMap_cons, List.filter_append, List.filter_append, kept, later, List.flatten_cons]
      exact congrArg (· ++ rest.flatten) (List.append_nil row)

end Text

open Text (lines charAt?)

namespace Frame

/-! ## Pieces of a list -/

section Pieces

variable {α : Type} {length : Nat}

theorem flatten_pieces (length : Nat) (items : List α) : (pieces length items).flatten = items := by
  induction items using pieces.induct length with
  | case1 => rw [pieces]; rfl
  | case2 first rest ih =>
      rw [pieces, List.flatten_cons, ih, List.cons_append, List.take_append_drop]

theorem pieces_of_ne_nil (positive : 0 < length) {items : List α} (filled : items ≠ []) :
    pieces length items = items.take length :: pieces length (items.drop length) := by
  cases items with
  | nil => exact absurd rfl filled
  | cons first rest =>
      obtain ⟨shorter, rfl⟩ := Nat.exists_eq_succ_of_ne_zero (Nat.ne_of_gt positive)
      rw [pieces, List.take_succ_cons, List.drop_succ_cons]
      rfl

theorem getElem?_pieces (positive : 0 < length) (items : List α) (row : Nat) :
    (pieces length items)[row]? =
      if row * length < items.length then some ((items.drop (row * length)).take length)
      else none := by
  induction row generalizing items with
  | zero =>
      cases items with
      | nil => rw [pieces]; rfl
      | cons first rest =>
          rw [pieces_of_ne_nil positive (List.cons_ne_nil first rest)]
          simp
  | succ row ih =>
      cases items with
      | nil =>
          rw [pieces]
          simp
      | cons first rest =>
          have further : length + row * length = (row + 1) * length := by
            rw [Nat.succ_mul, Nat.add_comm]
          have inside : row * length < (first :: rest).length - length ↔
              (row + 1) * length < (first :: rest).length := by
            rw [← further]
            omega
          rw [pieces_of_ne_nil positive (List.cons_ne_nil first rest), List.getElem?_cons_succ, ih,
            List.length_drop, List.drop_drop, further]
          simp only [inside]

theorem getElem?_getElem?_pieces (positive : 0 < length) (items : List α) (row column : Nat) :
    ((pieces length items)[row]?.bind fun piece => piece[column]?) =
      if column < length then items[row * length + column]? else none := by
  rw [getElem?_pieces positive]
  by_cases begun : row * length < items.length
  · rw [if_pos begun, Option.bind_some, List.getElem?_take, List.getElem?_drop]
  · have beyond : items[row * length + column]? = none :=
      List.getElem?_eq_none (Nat.le_add_right_of_le (Nat.le_of_not_lt begun))
    rw [if_neg begun, Option.bind_none, beyond, ite_self]

theorem lt_length_pieces_iff (positive : 0 < length) (items : List α) (row : Nat) :
    row < (pieces length items).length ↔ row * length < items.length := by
  have found := getElem?_pieces positive items row
  by_cases begun : row * length < items.length
  · rw [if_pos begun] at found
    obtain ⟨inside, _⟩ := List.getElem?_eq_some_iff.mp found
    exact iff_of_true inside begun
  · rw [if_neg begun] at found
    exact iff_of_false (Nat.not_lt_of_le (List.getElem?_eq_none_iff.mp found)) begun

theorem ne_nil_of_mem_pieces {items : List α} : ∀ piece ∈ pieces length items, piece ≠ [] := by
  induction items using pieces.induct length with
  | case1 =>
      intro piece member
      rw [pieces] at member
      exact absurd member List.not_mem_nil
  | case2 first rest ih =>
      intro piece member
      rw [pieces] at member
      obtain rfl | later := List.mem_cons.mp member
      · exact List.cons_ne_nil _ _
      · exact ih piece later

theorem length_of_mem_dropLast_pieces (positive : 0 < length) (items : List α) :
    ∀ piece ∈ (pieces length items).dropLast, piece.length = length := by
  intro piece member
  obtain ⟨row, found⟩ := List.mem_iff_getElem?.mp member
  rw [List.getElem?_dropLast] at found
  split at found
  next early =>
    have followed : row + 1 < (pieces length items).length := Nat.add_lt_of_lt_sub early
    rw [lt_length_pieces_iff positive, Nat.succ_mul] at followed
    have begun : row * length < items.length := by omega
    rw [getElem?_pieces positive, if_pos begun] at found
    obtain rfl := Option.some.inj found
    rw [List.length_take, List.length_drop]
    omega
  next => cases found

end Pieces

/-! ## Text -/

section Text

variable (frame : Frame)

def rows : List (List Char) :=
  (pieces frame.width.toNat frame.pixels.toList).map fun row => row.map pixelChar

theorem toList_text : frame.text.toList = frame.rows.flatMap (· ++ ['\n']) := by
  rw [text, rows, String.toList_join, List.flatMap_map, List.flatMap_map]
  simp only [String.toList_ofList]

theorem flatten_rows : frame.rows.flatten = frame.pixels.toList.map pixelChar := by
  rw [rows, ← List.map_flatten, flatten_pieces]

theorem unbroken_rows : ∀ row ∈ frame.rows, '\n' ∉ row := by
  intro row member broken
  obtain ⟨piece, _, rfl⟩ := List.mem_map.mp member
  obtain ⟨color, _, feed⟩ := List.mem_map.mp broken
  rw [pixelChar] at feed
  split at feed <;> cases feed

theorem lines_text : lines frame.text = frame.rows :=
  Text.lines_of_ended frame.toList_text frame.unbroken_rows

theorem filter_text :
    frame.text.toList.filter (· ≠ '\n') = frame.pixels.toList.map pixelChar := by
  rw [toList_text, Text.filter_ended frame.unbroken_rows, flatten_rows]

variable {frame}

theorem charAt?_text (positive : 0 < frame.width.toNat) (column line : Nat) :
    charAt? frame.text column line =
      if column < frame.width.toNat then
        frame.pixels[line * frame.width.toNat + column]?.map pixelChar
      else none := by
  calc charAt? frame.text column line
      = ((pieces frame.width.toNat frame.pixels.toList)[line]?.bind fun piece =>
          piece[column]?).map pixelChar := by
        rw [charAt?, lines_text, rows, List.getElem?_map, Option.bind_map, Option.map_bind]
        simp only [Function.comp_def, List.getElem?_map]
    _ = _ := by
        rw [getElem?_getElem?_pieces positive, apply_ite (Option.map pixelChar), Option.map_none,
          Array.getElem?_toList]

theorem length_lines_text (positive : 0 < frame.width.toNat)
    (complete : frame.pixels.size = frame.width.toNat * frame.height.toNat) :
    (lines frame.text).length = frame.height.toNat := by
  have count : (lines frame.text).length =
      (pieces frame.width.toNat frame.pixels.toList).length := by
    rw [lines_text, rows, List.length_map]
  refine count.trans (eq_of_forall_lt_iff fun row => ?_)
  rw [lt_length_pieces_iff positive, Array.length_toList, complete, Nat.mul_comm]
  exact Nat.mul_lt_mul_left positive

end Text

/-! ## Coordinates -/

section Coordinates

/-- Where a pixel stands among the pixels, reckoned in words of 32 bits. -/
def place (frame : Frame) (x y : UInt32) : UInt32 := y * frame.width + x

variable {frame : Frame} {x y : UInt32}

theorem pixel?_of_inside (column : x < frame.width) (row : y < frame.height) :
    frame.pixel? x y = frame.pixels[y.toNat * frame.width.toNat + x.toNat]? := by
  simp only [pixel?, column, row, decide_true, Bool.and_self, ↓reduceIte]

theorem pixel?_of_outside (outside : ¬ (x < frame.width ∧ y < frame.height)) :
    frame.pixel? x y = none := by
  have undecided : (decide (x < frame.width) && decide (y < frame.height)) = false := by
    rw [← Bool.not_eq_true, Bool.and_eq_true, decide_eq_true_iff, decide_eq_true_iff]
    exact outside
  rw [pixel?, undecided]
  rfl

theorem index_lt_area (column : x < frame.width) (row : y < frame.height) :
    y.toNat * frame.width.toNat + x.toNat < frame.width.toNat * frame.height.toNat := by
  have within := UInt32.lt_iff_toNat_lt.mp column
  have above := UInt32.lt_iff_toNat_lt.mp row
  calc y.toNat * frame.width.toNat + x.toNat
      < y.toNat * frame.width.toNat + frame.width.toNat := Nat.add_lt_add_left within _
    _ = (y.toNat + 1) * frame.width.toNat := (Nat.succ_mul _ _).symm
    _ ≤ frame.height.toNat * frame.width.toNat := Nat.mul_le_mul_right _ above
    _ = frame.width.toNat * frame.height.toNat := Nat.mul_comm _ _

/-- No place needs more than 32 bits. -/
theorem toNat_place (area : (frame.width.toNat + 1) * frame.height.toNat < 2 ^ 32)
    (column : x < frame.width) (row : y < frame.height) :
    (frame.place x y).toNat = y.toNat * frame.width.toNat + x.toNat := by
  have inside := index_lt_area column row
  have wider : frame.width.toNat * frame.height.toNat ≤
      (frame.width.toNat + 1) * frame.height.toNat := Nat.mul_le_mul_right _ (Nat.le_succ _)
  rw [place, UInt32.toNat_add, UInt32.toNat_mul, Nat.mod_add_mod, Nat.mod_eq_of_lt]
  omega

theorem eq_of_place_eq (area : (frame.width.toNat + 1) * frame.height.toNat < 2 ^ 32)
    {otherX otherY : UInt32} (column : x < frame.width) (row : y < frame.height)
    (otherColumn : otherX < frame.width) (otherRow : otherY < frame.height)
    (same : frame.place x y = frame.place otherX otherY) : x = otherX ∧ y = otherY := by
  have within := UInt32.lt_iff_toNat_lt.mp column
  have otherWithin := UInt32.lt_iff_toNat_lt.mp otherColumn
  have numbers := congrArg UInt32.toNat same
  rw [toNat_place area column row, toNat_place area otherColumn otherRow] at numbers
  have columns : x.toNat = otherX.toNat := by
    have remainders := congrArg (· % frame.width.toNat) numbers
    rwa [Nat.mul_add_mod_of_lt within, Nat.mul_add_mod_of_lt otherWithin] at remainders
  have lines : y.toNat = otherY.toNat := by
    rw [columns] at numbers
    exact Nat.eq_of_mul_eq_mul_right (Nat.zero_lt_of_lt within) (Nat.add_right_cancel numbers)
  exact ⟨UInt32.toNat_inj.mp columns, UInt32.toNat_inj.mp lines⟩

variable (complete : frame.pixels.size = frame.width.toNat * frame.height.toNat)
include complete

theorem pixel?_isSome_iff : (frame.pixel? x y).isSome = true ↔ x < frame.width ∧ y < frame.height := by
  by_cases inside : x < frame.width ∧ y < frame.height
  · obtain ⟨column, row⟩ := inside
    have stored := index_lt_area column row
    rw [← complete] at stored
    rw [pixel?_of_inside column row, Array.getElem?_eq_getElem stored]
    exact iff_of_true rfl ⟨column, row⟩
  · rw [pixel?_of_outside inside]
    exact iff_of_false Bool.false_ne_true inside

theorem charAt?_text_of_complete (positive : 0 < frame.width.toNat) (x y : UInt32) :
    charAt? frame.text x.toNat y.toNat = (frame.pixel? x y).map pixelChar := by
  rw [charAt?_text positive]
  by_cases column : x < frame.width
  · rw [if_pos (UInt32.lt_iff_toNat_lt.mp column)]
    by_cases row : y < frame.height
    · rw [pixel?_of_inside column row]
    · have beyond : frame.pixels.size ≤ y.toNat * frame.width.toNat + x.toNat := by
        have below : frame.height.toNat ≤ y.toNat :=
          Nat.le_of_not_lt fun above => row (UInt32.lt_iff_toNat_lt.mpr above)
        rw [complete, Nat.mul_comm]
        exact Nat.le_add_right_of_le (Nat.mul_le_mul_right _ below)
      rw [pixel?_of_outside fun inside => row inside.2, Array.getElem?_eq_none beyond]
  · have outside : ¬ x.toNat < frame.width.toNat :=
      fun within => column (UInt32.lt_iff_toNat_lt.mpr within)
    rw [if_neg outside, pixel?_of_outside fun inside => column inside.1]
    rfl

end Coordinates
end Frame

variable {σ : Type}

theorem Console.charAt?_render (console : Console σ) {column : Nat} (within : column < 64)
    (line : Nat) :
    charAt? console.render.text column line =
      console.machine.screen.toArray[column + 64 * line]?.map fun byte =>
        if byte = 0 then '.' else '#' := by
  have width : console.render.width.toNat = 64 := rfl
  have positive : 0 < console.render.width.toNat := by
    rw [width]
    decide
  rw [Frame.charAt?_text positive, width, if_pos within, Nat.add_comm, Nat.mul_comm, pixels_render,
    Array.getElem?_map, Option.map_map]
  simp only [Function.comp_def, Frame.pixelChar_color]

namespace Frame

/-- A text in which every pixel of a picture has its character. -/
structure ShownBy (frame : Frame) (text : String) : Prop where
  pixels : text.toList.filter (· ≠ '\n') =
    frame.pixels.toList.map fun color => if color = 0xFFFFFFFF then '#' else '.'
  ended : text.toList = (lines text).flatMap (· ++ ['\n'])
  full : ∀ line ∈ (lines text).dropLast, line.length = frame.width.toNat
  filled : ∀ line ∈ lines text, line ≠ []

theorem shownBy_text {frame : Frame} (positive : 0 < frame.width.toNat) :
    frame.ShownBy frame.text where
  pixels := frame.filter_text
  ended := by rw [lines_text, toList_text]
  full := by
    intro line member
    rw [lines_text, rows, ← List.map_dropLast] at member
    obtain ⟨piece, early, rfl⟩ := List.mem_map.mp member
    rw [List.length_map]
    exact length_of_mem_dropLast_pieces positive _ piece early
  filled := by
    intro line member
    rw [lines_text, rows] at member
    obtain ⟨piece, present, rfl⟩ := List.mem_map.mp member
    intro empty
    exact ne_nil_of_mem_pieces piece present (List.map_eq_nil_iff.mp empty)

/-- A picture whose coordinates are those of a text, and each of whose coordinates has a
pixel to itself. -/
structure ReadFrom (frame : Frame) (text : String) : Prop where
  height : (lines text).length = frame.height.toNat
  characters : ∀ x y, charAt? text x.toNat y.toNat =
    (frame.pixel? x y).map fun color => if color = 0xFFFFFFFF then '#' else '.'
  inside : ∀ x y, (frame.pixel? x y).isSome = true ↔ x < frame.width ∧ y < frame.height
  placed : ∀ x y, x < frame.width → y < frame.height →
    frame.pixel? x y = frame.pixels[(frame.place x y).toNat]?
  apart : ∀ x y otherX otherY, x < frame.width → y < frame.height → otherX < frame.width →
    otherY < frame.height → frame.place x y = frame.place otherX otherY → x = otherX ∧ y = otherY

end Frame

open Chip8.Frame in
/-- A picture and its text agree. With any number of pixels the text shows them one after
the other, in lines of which only the last may be shorter than the picture is wide. With as
many pixels as the measures tell, columns and lines of the text are the coordinates of
the pixels. And the text of a screen shows for each byte whether it is zero. -/
theorem text_shows_pixels :
    (∀ frame : Frame, 0 < frame.width.toNat → frame.width.toNat < 2 ^ 32 - 1 →
      (frame.width.toNat + 1) * frame.height.toNat < 2 ^ 32 →
      frame.ShownBy frame.text ∧
        (frame.pixels.size = frame.width.toNat * frame.height.toNat →
          frame.ReadFrom frame.text)) ∧
      ∀ (console : Console σ), ∀ x < 64, ∀ y,
        charAt? console.render.text x y =
          console.machine.screen.toArray[x + 64 * y]?.map fun byte =>
            if byte = 0 then '.' else '#' := by
  constructor
  · intro frame positive _ area
    refine ⟨shownBy_text positive, ?_⟩
    intro complete
    constructor
    · exact length_lines_text positive complete
    · exact charAt?_text_of_complete complete positive
    · intro x y
      exact pixel?_isSome_iff complete
    · intro x y column row
      rw [pixel?_of_inside column row, toNat_place area column row]
    · intro x y otherX otherY column row otherColumn otherRow same
      exact eq_of_place_eq area column row otherColumn otherRow same
  · intro console x within y
    exact console.charAt?_render within y

/-- Four pixels in rows of three, six pixels in rows of three, and a screen with a byte that
programs never leave there. -/
theorem text_shows_pixels_of_small_pictures :
    let ragged : Frame := { width := 3, height := 2, pixels := #[litColor, 1, litColor, litColor] }
    let full : Frame :=
      { width := 3, height := 2, pixels := #[litColor, 1, litColor, darkColor, 0, litColor] }
    let machine : Machine :=
      { Machine.powerOn with screen := Screen.blank.put (Screen.position 5 3) 9 }
    let console : Console Silence :=
      { processor := { machine, source := Silence.mk, seed := none, policy := .stall }, config := {} }
    0 < full.width.toNat ∧ full.width.toNat < 2 ^ 32 - 1 ∧
      (full.width.toNat + 1) * full.height.toNat < 2 ^ 32 ∧
      full.pixels.size = full.width.toNat * full.height.toNat ∧
      ragged.text.toList.filter (· ≠ '\n') = ['#', '.', '#', '#'] ∧
      charAt? full.text 2 1 = some '#' ∧ charAt? full.text 0 1 = some '.' ∧
      charAt? full.text 0 2 = none ∧ charAt? console.render.text 5 3 = some '#' := by
  intro ragged full machine console
  have positive : 0 < full.width.toNat := by decide
  have narrow : full.width.toNat < 2 ^ 32 - 1 := by decide
  have area : (full.width.toNat + 1) * full.height.toNat < 2 ^ 32 := by decide
  have complete : full.pixels.size = full.width.toNat * full.height.toNat := by decide
  have lit : console.machine.screen.toArray[5 + 64 * 3]? = some 9 := by decide +kernel
  obtain ⟨frames, screens⟩ := text_shows_pixels (σ := Silence)
  obtain ⟨shown, _⟩ := frames ragged positive narrow area
  obtain ⟨_, read⟩ := frames full positive narrow area
  have characters := (read complete).characters
  refine ⟨positive, narrow, area, complete, shown.pixels, characters 2 1, characters 0 1,
    characters 0 2, ?_⟩
  rw [screens console 5 (by decide) 3, lit]
  rfl

end Chip8

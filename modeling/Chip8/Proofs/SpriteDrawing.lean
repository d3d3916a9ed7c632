import Chip8.Proofs.Soundness
import Chip8.Proofs.Transfer
import Mathlib.Data.List.Nodup
import Mathlib.Order.Fin.Basic

/-!
# Drawing sprites

A sprite that is no taller than the screen covers no place twice, so drawing it inverts
each place under one of its set bits exactly once. A pixel afterwards is its earlier
value and the sprite's bit there, one or the other but not both, and the flag tells
whether a lit pixel was under a set bit.

Drawing the same sprite again therefore takes it back, and the order of two drawings
makes no difference to the screen.
-/

set_option autoImplicit false

namespace Chip8

/-! ## Places of the screen -/

namespace Screen

abbrev Place := Fin (screenWidth * screenHeight)

theorem position_eq_iff {x y otherX otherY : Nat} :
    position x y = position otherX otherY ↔
      x % screenWidth = otherX % screenWidth ∧ y % screenHeight = otherY % screenHeight := by
  simp only [position, Fin.ext_iff, screenWidth, screenHeight]
  omega

theorem exists_position (place : Place) :
    ∃ (column : Fin screenWidth) (row : Fin screenHeight), position column row = place := by
  have inside : place.val < 64 * 32 := place.isLt
  refine ⟨⟨place.val % 64, Nat.mod_lt _ (by decide)⟩, ⟨place.val / 64, ?_⟩, Fin.ext ?_⟩
  · simp only [screenHeight]
    omega
  · simp only [position, screenWidth, screenHeight]
    omega

theorem ext_byteAt {one other : Screen} (same : ∀ place, one.byteAt place = other.byteAt place) :
    one = other := by
  apply Vector.ext
  intro place inside
  exact same ⟨place, inside⟩

end Screen

/-! ## Canvases -/

namespace Canvas

def invertAt (canvas : Canvas) (place : Screen.Place) : Canvas where
  screen := canvas.screen.put place (canvas.screen.byteAt place ^^^ 1)
  collided := canvas.collided || canvas.screen.byteAt place == 1

def rowPlaces (bits : UInt8) (x y : Nat) : List Screen.Place :=
  ((List.range 8).filter (hasBit bits)).map fun column => Screen.position (x + column) y

def places (rows : List UInt8) (x y : Nat) : List Screen.Place :=
  match rows with
  | [] => []
  | bits :: rest => rowPlaces bits x y ++ places rest x (y + 1)

theorem drawRow_eq (canvas : Canvas) (bits : UInt8) (x y : Nat) :
    canvas.drawRow bits x y = (rowPlaces bits x y).foldl invertAt canvas := by
  rw [rowPlaces, List.foldl_map, List.foldl_filter]
  rfl

theorem drawRows_eq (canvas : Canvas) (rows : List UInt8) (x y : Nat) :
    canvas.drawRows rows x y = (places rows x y).foldl invertAt canvas := by
  induction rows generalizing canvas y with
  | nil => rfl
  | cons bits rest ih =>
      rw [places, List.foldl_append, ← drawRow_eq]
      exact ih (canvas.drawRow bits x y) (y + 1)

theorem mem_rowPlaces {bits : UInt8} {x y : Nat} {place : Screen.Place} :
    place ∈ rowPlaces bits x y ↔
      ∃ column < 8, hasBit bits column = true ∧ Screen.position (x + column) y = place := by
  simp [rowPlaces, and_assoc]

theorem mem_places {rows : List UInt8} {x y : Nat} {place : Screen.Place} :
    place ∈ places rows x y ↔
      ∃ (row : Nat) (bits : UInt8), rows[row]? = some bits ∧
        ∃ column < 8, hasBit bits column = true ∧
          Screen.position (x + column) (y + row) = place := by
  induction rows generalizing y with
  | nil => simp [places]
  | cons bits rest ih =>
      rw [places, List.mem_append, mem_rowPlaces, ih]
      constructor
      · rintro (⟨column, inside, set, rfl⟩ | ⟨row, below, found, column, inside, set, rfl⟩)
        · exact ⟨0, bits, rfl, column, inside, set, rfl⟩
        · refine ⟨row + 1, below, found, column, inside, set, ?_⟩
          rw [Nat.add_right_comm, ← Nat.add_assoc]
      · rintro ⟨row, below, found, column, inside, set, rfl⟩
        cases row with
        | zero =>
            obtain rfl : bits = below := by simpa using found
            exact .inl ⟨column, inside, set, rfl⟩
        | succ row =>
            refine .inr ⟨row, below, found, column, inside, set, ?_⟩
            rw [Nat.add_right_comm, ← Nat.add_assoc]

theorem nodup_rowPlaces (bits : UInt8) (x y : Nat) : (rowPlaces bits x y).Nodup := by
  apply List.Nodup.map_on
  · intro column first other second same
    have small := (List.mem_filter.mp first).1
    have otherSmall := (List.mem_filter.mp second).1
    have across := (Screen.position_eq_iff.mp same).1
    simp only [List.mem_range, screenWidth] at small otherSmall across
    omega
  · exact List.nodup_range.filter _

/-- Rows that fit on the screen stay apart although they wrap around its lower edge. -/
theorem nodup_places {rows : List UInt8} (fits : rows.length ≤ screenHeight) (x y : Nat) :
    (places rows x y).Nodup := by
  induction rows generalizing y with
  | nil => exact List.nodup_nil
  | cons bits rest ih =>
      rw [List.length_cons] at fits
      rw [places, List.nodup_append]
      refine ⟨nodup_rowPlaces bits x y, ih (Nat.le_of_succ_le fits) (y + 1), ?_⟩
      intro place first other second same
      obtain ⟨column, -, -, rfl⟩ := mem_rowPlaces.mp first
      obtain ⟨row, below, found, otherColumn, -, -, rfl⟩ := mem_places.mp second
      have inside : row < rest.length := (List.getElem?_eq_some_iff.mp found).1
      have down := (Screen.position_eq_iff.mp same).2
      simp only [screenHeight] at fits down
      omega

theorem byteAt_foldl_invertAt {touched : List Screen.Place} (once : touched.Nodup)
    (canvas : Canvas) (place : Screen.Place) :
    (touched.foldl invertAt canvas).screen.byteAt place =
      canvas.screen.byteAt place ^^^ (if place ∈ touched then 1 else 0) := by
  induction touched generalizing canvas with
  | nil => simp
  | cons first rest ih =>
      obtain ⟨fresh, later⟩ := List.nodup_cons.mp once
      rw [List.foldl_cons, ih later, invertAt, Screen.byteAt_put]
      by_cases same : place = first
      · subst same
        simp [fresh]
      · simp [same]

theorem collided_foldl_invertAt {touched : List Screen.Place} (once : touched.Nodup)
    (canvas : Canvas) :
    (touched.foldl invertAt canvas).collided = true ↔
      canvas.collided = true ∨ ∃ place ∈ touched, canvas.screen.byteAt place = 1 := by
  induction touched generalizing canvas with
  | nil => simp
  | cons first rest ih =>
      obtain ⟨fresh, later⟩ := List.nodup_cons.mp once
      -- What was inverted first is not met again.
      have unseen : ∀ place ∈ rest,
          (canvas.invertAt first).screen.byteAt place = canvas.screen.byteAt place := by
        intro place member
        have differ : place ≠ first := fun same => fresh (same ▸ member)
        rw [invertAt, Screen.byteAt_put, if_neg differ]
      have met : (canvas.invertAt first).collided = true ↔
          canvas.collided = true ∨ canvas.screen.byteAt first = 1 := by
        simp [invertAt]
      rw [List.foldl_cons, ih later, met, or_assoc]
      constructor
      · rintro (before | under | ⟨place, member, lit⟩)
        · exact .inl before
        · exact .inr ⟨first, List.mem_cons_self, under⟩
        · rw [unseen place member] at lit
          exact .inr ⟨place, List.mem_cons_of_mem first member, lit⟩
      · rintro (before | ⟨place, member, lit⟩)
        · exact .inl before
        · rcases List.mem_cons.mp member with rfl | member
          · exact .inr (.inl lit)
          · exact .inr (.inr ⟨place, member, (unseen place member).trans lit⟩)

end Canvas

/-! ## The sprite of a machine -/

/-- How far a coordinate lies behind another one, on an axis that is closed to a ring. -/
def ringDistance (size start stop : Nat) : Nat := (((stop : Int) - start) % size).toNat

theorem ringDistance_eq_iff {size start stop distance : Nat} (inside : stop < size) :
    ringDistance size start stop = distance ↔
      distance < size ∧ (start + distance) % size = stop := by
  have positive : (0 : Int) < size := by omega
  unfold ringDistance
  constructor
  · rintro rfl
    have nonneg : 0 ≤ ((stop : Int) - start) % size := Int.emod_nonneg _ (by omega)
    have below : ((stop : Int) - start) % size < size := Int.emod_lt_of_pos _ positive
    have around : ((start : Int) + ((stop : Int) - start) % size) % size = stop := by
      rw [Int.add_emod_emod, Int.emod_eq_of_lt (by omega) (by omega)]
      omega
    refine ⟨by omega, ?_⟩
    rw [← Int.toNat_of_nonneg nonneg] at around
    exact_mod_cast around
  · rintro ⟨near, rfl⟩
    have around : (((start : Int) + distance) % size - start) % size = distance := by
      rw [Int.emod_sub_emod, Int.emod_eq_of_lt (by omega) (by omega)]
      omega
    rw [Int.natCast_emod, Int.natCast_add, around, Int.toNat_natCast]

namespace Machine

def spriteByte (machine : Machine) (row : Nat) : UInt8 :=
  machine.memory.get ⟨(machine.index.toNat + row) % memorySize, Nat.mod_lt _ (by decide)⟩

/-- The bit of the sprite that lies over a pixel, when rows are drawn from the pixel at
`left` and `top` on to the right and downwards. -/
def spriteBit (machine : Machine) (count : Nat) (left top : UInt8) (column : Fin screenWidth)
    (row : Fin screenHeight) : Bool :=
  let across := ringDistance screenWidth left.toNat column
  let down := ringDistance screenHeight top.toNat row
  down < count && across < 8 && (machine.spriteByte down).toNat.testBit (7 - across)

theorem read_index_add (machine : Machine) (row : Nat) :
    machine.read (machine.index + UInt16.ofNat row) = machine.spriteByte row :=
  machine.read_add machine.index row

theorem getElem?_spriteRows {machine : Machine} {count row : Nat} {bits : UInt8} :
    (machine.spriteRows count)[row]? = some bits ↔
      row < count ∧ machine.spriteByte row = bits := by
  rw [spriteRows, List.getElem?_map]
  by_cases inside : row < count
  · rw [List.getElem?_range inside, Option.map_some, read_index_add, Option.some.injEq]
    exact ⟨fun same => ⟨inside, same⟩, And.right⟩
  · have absent : (List.range count)[row]? = none := by
      simpa using Nat.le_of_not_lt inside
    rw [absent]
    simp [inside]

def spritePlaces (machine : Machine) (x y : Register) (rows : UInt8) : List Screen.Place :=
  Canvas.places (machine.spriteRows rows.toNat) (machine.register x).toNat
    (machine.register y).toNat

theorem nodup_spritePlaces (machine : Machine) (x y : Register) {rows : UInt8}
    (fits : rows.toNat ≤ screenHeight) : (machine.spritePlaces x y rows).Nodup := by
  apply Canvas.nodup_places
  simpa [spriteRows] using fits

theorem position_mem_spritePlaces (machine : Machine) (x y : Register) {rows : UInt8}
    (fits : rows.toNat ≤ screenHeight) (column : Fin screenWidth) (row : Fin screenHeight) :
    Screen.position column row ∈ machine.spritePlaces x y rows ↔
      machine.spriteBit rows.toNat (machine.register x) (machine.register y) column row = true := by
  rw [spritePlaces, Canvas.mem_places]
  simp only [spriteBit, Bool.and_eq_true, decide_eq_true_eq, Screen.position_eq_iff]
  constructor
  · rintro ⟨down, bits, found, across, narrow, set, sameColumn, sameRow⟩
    obtain ⟨inside, rfl⟩ := getElem?_spriteRows.mp found
    rw [Nat.mod_eq_of_lt column.isLt] at sameColumn
    rw [Nat.mod_eq_of_lt row.isLt] at sameRow
    have acrossRing := (ringDistance_eq_iff column.isLt).mpr
      ⟨Nat.lt_trans narrow (by decide), sameColumn⟩
    have downRing := (ringDistance_eq_iff row.isLt).mpr ⟨Nat.lt_of_lt_of_le inside fits, sameRow⟩
    rw [acrossRing, downRing]
    exact ⟨⟨inside, narrow⟩, set⟩
  · rintro ⟨⟨inside, narrow⟩, set⟩
    obtain ⟨-, sameColumn⟩ := (ringDistance_eq_iff column.isLt).mp
      (rfl : ringDistance screenWidth (machine.register x).toNat column = _)
    obtain ⟨-, sameRow⟩ := (ringDistance_eq_iff row.isLt).mp
      (rfl : ringDistance screenHeight (machine.register y).toNat row = _)
    refine ⟨_, _, getElem?_spriteRows.mpr ⟨inside, rfl⟩, _, narrow, set, ?_, ?_⟩
    · rw [sameColumn, Nat.mod_eq_of_lt column.isLt]
    · rw [sameRow, Nat.mod_eq_of_lt row.isLt]

end Machine

/-! ## Drawing once -/

section Drawing

variable {σ : Type} [ByteSource σ] (machine : Machine) (source : σ) (x y : Register)
  {rows : UInt8}

private def canvasOf (machine : Machine) (x y : Register) (rows : UInt8) : Canvas :=
  (machine.spritePlaces x y rows).foldl Canvas.invertAt { screen := machine.screen }

theorem value_execute_draw :
    (execute (.draw x y rows) machine source).value = {
      machine := (Machine.setFlag
        { machine with screen := (canvasOf machine x y rows).screen, drawFlag := true }
        (canvasOf machine x y rows).collided).advance false
      source } := by
  have drawn : ({ screen := machine.screen : Canvas }).drawRows (machine.spriteRows rows.toNat)
      (machine.register x).toNat (machine.register y).toNat = canvasOf machine x y rows :=
    Canvas.drawRows_eq _ _ _ _
  rw [← drawn]
  rfl

theorem byteAt_execute_draw (fits : rows.toNat ≤ screenHeight) (place : Screen.Place) :
    (execute (.draw x y rows) machine source).value.machine.screen.byteAt place =
      machine.screen.byteAt place ^^^
        (if place ∈ machine.spritePlaces x y rows then 1 else 0) := by
  rw [value_execute_draw]
  exact Canvas.byteAt_foldl_invertAt (machine.nodup_spritePlaces x y fits) _ place

theorem collided_canvasOf (fits : rows.toNat ≤ screenHeight) :
    (canvasOf machine x y rows).collided = true ↔
      ∃ place ∈ machine.spritePlaces x y rows, machine.screen.byteAt place = 1 := by
  rw [canvasOf, Canvas.collided_foldl_invertAt (machine.nodup_spritePlaces x y fits)]
  simp

theorem flag_execute_draw :
    (execute (.draw x y rows) machine source).value.machine.register flagRegister =
      if (canvasOf machine x y rows).collided then 1 else 0 := by
  rw [value_execute_draw]
  exact (Machine.register_setRegister _ _ _ _).trans (if_pos rfl)

theorem exists_spriteBit_iff (fits : rows.toNat ≤ screenHeight) (value : UInt8) :
    let bit := machine.spriteBit rows.toNat (machine.register x) (machine.register y)
    (∃ column row, bit column row = true ∧ machine.pixel column row = value) ↔
      ∃ place ∈ machine.spritePlaces x y rows, machine.screen.byteAt place = value := by
  constructor
  · rintro ⟨column, row, set, under⟩
    exact ⟨_, (machine.position_mem_spritePlaces x y fits column row).mpr set, under⟩
  · rintro ⟨place, member, under⟩
    obtain ⟨column, row, rfl⟩ := Screen.exists_position place
    exact ⟨column, row, (machine.position_mem_spritePlaces x y fits column row).mp member, under⟩

/-- A sprite that is no taller than the screen inverts the pixels under its set bits, each
of them once, and changes nothing else but the flag. That one tells whether a lit pixel
was among them. -/
theorem draw_inverts_pixels (fits : rows.toNat ≤ screenHeight) :
    let drawn := (execute (.draw x y rows) machine source).value
    let bit := machine.spriteBit rows.toNat (machine.register x) (machine.register y)
    (∀ (column : Fin screenWidth) (row : Fin screenHeight), drawn.machine.pixel column row =
        machine.pixel column row ^^^ (if bit column row then 1 else 0)) ∧
      drawn.machine.register flagRegister =
        (if ∃ column row, bit column row = true ∧ machine.pixel column row = 1 then 1 else 0) ∧
      drawn = {
        machine := { machine with
          screen := drawn.machine.screen
          registers := machine.registers.set flagRegister (drawn.machine.register flagRegister)
          drawFlag := true
          pc := machine.pc + 2 }
        source
        obstacle := none } := by
  intro drawn bit
  have flag : drawn.machine.register flagRegister =
      if (canvasOf machine x y rows).collided then 1 else 0 :=
    flag_execute_draw machine source x y
  refine ⟨?_, ?_, ?_⟩
  · intro column row
    have inverted := byteAt_execute_draw machine source x y fits (Screen.position column row)
    simp only [machine.position_mem_spritePlaces x y fits] at inverted
    exact inverted
  · rw [flag]
    simp only [collided_canvasOf machine x y fits, ← exists_spriteBit_iff machine x y fits]
    rfl
  · have value : drawn = _ := value_execute_draw machine source x y
    have screen : drawn.machine.screen = (canvasOf machine x y rows).screen :=
      congrArg (·.machine.screen) value
    rw [flag, screen]
    exact value

/-- A sprite in the lower right corner, whose row stands in the flag register itself. It
goes on at the left and at the top. -/
theorem draw_inverts_pixels_around_corner :
    let blank : Machine := { memory := Vector.replicate _ 0xC1 }
    let machine := (blank.setRegister 0 62).setRegister flagRegister 30
    let drawn := (execute (.draw 0 flagRegister 3) machine Silence.mk).value.machine
    (3 : UInt8).toNat ≤ screenHeight ∧ drawn.pixel 62 30 = 1 ∧ drawn.pixel 5 0 = 1 ∧
      drawn.pixel 0 0 = 0 ∧ drawn.register flagRegister = 0 ∧ drawn.pc = 0x202 := by
  intro blank machine drawn
  have fits : (3 : UInt8).toNat ≤ screenHeight := by decide
  have dark : ∀ column row, machine.pixel column row = 0 :=
    fun column row => Screen.byteAt_blank (Screen.position column row)
  obtain ⟨pixels, flag, whole⟩ :=
    draw_inverts_pixels machine Silence.mk 0 flagRegister fits
  have shown : ∀ (column : Fin screenWidth) (row : Fin screenHeight),
      drawn.pixel column row = if machine.spriteBit 3 62 30 column row then 1 else 0 := by
    intro column row
    have inverted := pixels column row
    rw [dark, UInt8.zero_xor] at inverted
    exact inverted
  refine ⟨fits, ?_, ?_, ?_, ?_, congrArg (·.machine.pc) whole⟩
  · exact (shown ⟨62, by decide⟩ ⟨30, by decide⟩).trans (if_pos (by decide))
  · exact (shown ⟨5, by decide⟩ ⟨0, by decide⟩).trans (if_pos (by decide))
  · exact (shown ⟨0, by decide⟩ ⟨0, by decide⟩).trans (if_neg (by decide))
  · rw [flag, if_neg]
    rintro ⟨column, row, -, lit⟩
    rw [dark] at lit
    cases lit

end Drawing

/-! ## Drawing again and in another order -/

/-- A draw instruction and the index register that it meets. Its position does not stand
in the flag register, which it overwrites. -/
structure Drawing where
  index : UInt16
  x : Register
  y : Register
  rows : UInt8
  x_ne : x ≠ flagRegister
  y_ne : y ≠ flagRegister
  fits : rows.toNat ≤ screenHeight

namespace Drawing

variable {σ : Type} [ByteSource σ] (drawing : Drawing) (machine : Machine) (source : σ)

def perform : Machine :=
  (execute (.draw drawing.x drawing.y drawing.rows) { machine with index := drawing.index }
    source).value.machine

def byte (row : Nat) : UInt8 := ({ machine with index := drawing.index } : Machine).spriteByte row

def bit (column : Fin screenWidth) (row : Fin screenHeight) : Bool :=
  ({ machine with index := drawing.index } : Machine).spriteBit drawing.rows.toNat
    (machine.register drawing.x) (machine.register drawing.y) column row

def places : List Screen.Place :=
  ({ machine with index := drawing.index } : Machine).spritePlaces drawing.x drawing.y drawing.rows

/-- Machines for which it is the same sprite at the same position. -/
structure Alike (one other : Machine) : Prop where
  memory : one.memory = other.memory
  left : one.register drawing.x = other.register drawing.x
  top : one.register drawing.y = other.register drawing.y

variable {drawing}

theorem Alike.places_eq {one other : Machine} (alike : drawing.Alike one other) :
    drawing.places one = drawing.places other := by
  obtain ⟨memory, left, top⟩ := alike
  have rows : ({ one with index := drawing.index } : Machine).spriteRows drawing.rows.toNat =
      ({ other with index := drawing.index } : Machine).spriteRows drawing.rows.toNat := by
    simp only [Machine.spriteRows, Machine.read, memory]
  have sameLeft : ({ one with index := drawing.index } : Machine).register drawing.x =
      ({ other with index := drawing.index } : Machine).register drawing.x := left
  have sameTop : ({ one with index := drawing.index } : Machine).register drawing.y =
      ({ other with index := drawing.index } : Machine).register drawing.y := top
  simp only [places, Machine.spritePlaces, rows, sameLeft, sameTop]

variable (drawing)

theorem alike_perform (other : Drawing) : other.Alike (drawing.perform machine source) machine := by
  have registers : ∀ r, r ≠ flagRegister →
      (drawing.perform machine source).register r = machine.register r := by
    intro r other
    rw [perform, value_execute_draw]
    exact (Machine.register_setRegister _ _ _ _).trans (if_neg other)
  refine ⟨?_, registers other.x other.x_ne, registers other.y other.y_ne⟩
  rw [perform, value_execute_draw]
  rfl

theorem byteAt_perform (place : Screen.Place) :
    (drawing.perform machine source).screen.byteAt place =
      machine.screen.byteAt place ^^^ (if place ∈ drawing.places machine then 1 else 0) :=
  byteAt_execute_draw _ source drawing.x drawing.y drawing.fits place

theorem flag_perform :
    (drawing.perform machine source).register flagRegister =
      if ∃ place ∈ drawing.places machine, machine.screen.byteAt place = 1 then 1 else 0 := by
  have met := collided_canvasOf { machine with index := drawing.index } drawing.x drawing.y
    drawing.fits
  rw [perform, flag_execute_draw]
  simp only [met]
  rfl

theorem exists_bit_iff (value : UInt8) :
    (∃ column row, drawing.bit machine column row = true ∧ machine.pixel column row = value) ↔
      ∃ place ∈ drawing.places machine, machine.screen.byteAt place = value :=
  exists_spriteBit_iff { machine with index := drawing.index } drawing.x drawing.y drawing.fits
    value

/-- Only a sprite without set bits covers nothing. -/
theorem places_eq_nil_iff :
    drawing.places machine = [] ↔ ∀ row < drawing.rows.toNat, drawing.byte machine row = 0 := by
  constructor
  · intro nothing row inside
    by_contra nonzero
    have some : (drawing.byte machine row).toNat ≠ 0 :=
      fun zero => nonzero (UInt8.toNat_inj.mp zero)
    obtain ⟨place, set⟩ := Nat.exists_testBit_of_ne_zero some
    have small : place < 8 := by
      by_contra large
      have beyond : (drawing.byte machine row).toNat < 2 ^ place :=
        Nat.lt_of_lt_of_le (drawing.byte machine row).toNat_lt
          (Nat.pow_le_pow_right (by decide) (Nat.le_of_not_lt large))
      rw [Nat.testBit_lt_two_pow beyond] at set
      cases set
    have covered : Screen.position ((machine.register drawing.x).toNat + (7 - place))
        ((machine.register drawing.y).toNat + row) ∈ drawing.places machine := by
      refine Canvas.mem_places.mpr
        ⟨row, _, Machine.getElem?_spriteRows.mpr ⟨inside, rfl⟩, 7 - place, by omega, ?_, rfl⟩
      rw [Canvas.hasBit, Nat.sub_sub_self (Nat.le_of_lt_succ small)]
      exact set
    rw [nothing] at covered
    cases covered
  · intro empty
    refine List.eq_nil_iff_forall_not_mem.mpr ?_
    intro place member
    obtain ⟨row, bits, found, column, -, set, -⟩ := Canvas.mem_places.mp member
    obtain ⟨inside, rfl⟩ := Machine.getElem?_spriteRows.mp found
    have zero : ({ machine with index := drawing.index } : Machine).spriteByte row = 0 :=
      empty row inside
    rw [zero] at set
    simp [Canvas.hasBit] at set

theorem inverted_eq_one_iff (value : UInt8) : value ^^^ 1 = 1 ↔ value = 0 := by
  have moved : value ^^^ 1 = 0 ^^^ 1 ↔ value = 0 := UInt8.xor_left_inj 1
  rwa [UInt8.zero_xor] at moved

section Again

variable {drawing machine source} {between : Machine}

/-- The machine shows what the first drawing left, and has the same sprite at the same position. -/
structure Ready (drawing : Drawing) (machine : Machine) (source : σ) (between : Machine) :
    Prop where
  screen : between.screen = (drawing.perform machine source).screen
  alike : drawing.Alike between (drawing.perform machine source)

namespace Ready

variable (ready : drawing.Ready machine source between)
include ready

theorem places_eq : drawing.places between = drawing.places machine :=
  ready.alike.places_eq.trans (drawing.alike_perform machine source drawing).places_eq

theorem screen_perform : (drawing.perform between source).screen = machine.screen := by
  apply Screen.ext_byteAt
  intro place
  rw [drawing.byteAt_perform, ready.screen, drawing.byteAt_perform, ready.places_eq,
    UInt8.xor_assoc, UInt8.xor_self, UInt8.xor_zero]

theorem flag_perform : (drawing.perform between source).register flagRegister =
    if ∃ place ∈ drawing.places machine, machine.screen.byteAt place = 0 then 1 else 0 := by
  have inverted : (∃ place ∈ drawing.places machine, between.screen.byteAt place = 1) ↔
      ∃ place ∈ drawing.places machine, machine.screen.byteAt place = 0 := by
    refine exists_congr fun place => and_congr_right fun member => ?_
    rw [ready.screen, drawing.byteAt_perform, if_pos member, inverted_eq_one_iff]
  have flag := drawing.flag_perform between source
  simp only [ready.places_eq, inverted] at flag
  exact flag

theorem flags_unset_iff (binary : machine.screen.Binary) :
    (drawing.perform machine source).register flagRegister = 0 ∧
        (drawing.perform between source).register flagRegister = 0 ↔
      drawing.places machine = [] := by
  rw [drawing.flag_perform, ready.flag_perform]
  constructor
  · intro unset
    refine List.eq_nil_iff_forall_not_mem.mpr ?_
    intro place member
    rcases binary place with dark | lit
    · have met : ∃ place ∈ drawing.places machine, machine.screen.byteAt place = 0 :=
        ⟨place, member, dark⟩
      simp [met] at unset
    · have met : ∃ place ∈ drawing.places machine, machine.screen.byteAt place = 1 :=
        ⟨place, member, lit⟩
      simp [met] at unset
  · intro nothing
    simp [nothing]

end Ready
end Again

theorem screen_perform_comm (other : Drawing) :
    (other.perform (drawing.perform machine source) source).screen =
      (drawing.perform (other.perform machine source) source).screen := by
  apply Screen.ext_byteAt
  intro place
  have unmoved := (drawing.alike_perform machine source other).places_eq
  have otherUnmoved := (other.alike_perform machine source drawing).places_eq
  rw [other.byteAt_perform, unmoved, drawing.byteAt_perform, drawing.byteAt_perform, otherUnmoved,
    other.byteAt_perform, UInt8.xor_assoc, UInt8.xor_assoc]
  congr 1
  exact UInt8.xor_comm _ _

end Drawing

/-- Drawing the same sprite at the same position again takes it back. The first flag tells
of the lit pixels under its set bits, and the second one of those that were dark, so
that neither is set only for a sprite without set bits. On the screen, the order of two
drawings makes no difference. -/
theorem drawings_undo_and_commute {σ : Type} [ByteSource σ] {machine : Machine}
    (binary : machine.screen.Binary) (drawing other : Drawing) (source : σ) :
    let once := drawing.perform machine source
    once.register flagRegister =
        (if ∃ column row, drawing.bit machine column row = true ∧
          machine.pixel column row = 1 then 1 else 0) ∧
      (∀ between : Machine, between.screen = once.screen → drawing.Alike between once →
        let twice := drawing.perform between source
        twice.screen = machine.screen ∧
          twice.register flagRegister =
            (if ∃ column row, drawing.bit machine column row = true ∧
              machine.pixel column row = 0 then 1 else 0) ∧
          (once.register flagRegister = 0 ∧ twice.register flagRegister = 0 ↔
            ∀ row < drawing.rows.toNat, drawing.byte machine row = 0)) ∧
      (other.perform once source).screen =
        (drawing.perform (other.perform machine source) source).screen := by
  intro once
  refine ⟨?_, ?_, drawing.screen_perform_comm machine source other⟩
  · have first : once.register flagRegister = _ := drawing.flag_perform machine source
    rw [first]
    simp only [← drawing.exists_bit_iff]
  · intro between screen alike twice
    have ready : drawing.Ready machine source between := ⟨screen, alike⟩
    refine ⟨ready.screen_perform, ?_, ?_⟩
    · have second : twice.register flagRegister = _ := ready.flag_perform
      rw [second]
      simp only [← drawing.exists_bit_iff]
    · rw [← drawing.places_eq_nil_iff]
      exact ready.flags_unset_iff binary

/-- A sprite at the right edge of a dark screen and another one across it. -/
theorem drawings_undo_and_commute_on_dark_screen :
    let blank : Machine := { memory := Vector.replicate _ 0xC1 }
    let machine := blank.setRegister 0 62
    let drawing : Drawing := {
      index := 0xFFE, x := 0, y := 1, rows := 3, x_ne := by decide, y_ne := by decide,
      fits := by decide }
    let other : Drawing := {
      index := 0, x := 1, y := 0, rows := 15, x_ne := by decide, y_ne := by decide,
      fits := by decide }
    let once := drawing.perform machine Silence.mk
    let twice := drawing.perform once Silence.mk
    machine.screen.Binary ∧ drawing.Alike once once ∧ twice.screen = Screen.blank ∧
      once.register flagRegister = 0 ∧ twice.register flagRegister = 1 ∧
      (other.perform once Silence.mk).screen =
        (drawing.perform (other.perform machine Silence.mk) Silence.mk).screen := by
  intro blank machine drawing other once twice
  have binary : machine.screen.Binary := Screen.binary_blank
  have alike : drawing.Alike once once := ⟨rfl, rfl, rfl⟩
  have dark : ∀ column row, machine.pixel column row = 0 :=
    fun column row => Screen.byteAt_blank (Screen.position column row)
  obtain ⟨first, again, either⟩ := drawings_undo_and_commute binary drawing other Silence.mk
  obtain ⟨restored, second, -⟩ := again once rfl alike
  refine ⟨binary, alike, restored, ?_, ?_, either⟩
  · refine first.trans (if_neg ?_)
    rintro ⟨column, row, -, lit⟩
    rw [dark] at lit
    cases lit
  · refine second.trans (if_pos ⟨⟨62, by decide⟩, ⟨0, by decide⟩, ?_, dark _ _⟩)
    decide +kernel

end Chip8

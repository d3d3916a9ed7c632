import Chip8.Proofs.Session
import Chip8.Random.Keystream

/-!
# What a load leaves behind

A machine that took a program is the one that was just switched on but for its
memory, and its memory follows from the program alone. A machine that was offered
too long a program is as it was.
-/

set_option autoImplicit false

namespace Chip8

/-- Glyphs at the bottom, a program at its place and zeros everywhere else. -/
structure LaidOut (program : Array UInt8) (memory : Vector UInt8 memorySize) : Prop where
  glyphs : ∀ address < 80, memory[address]? = font[address]?
  below : ∀ address, 80 ≤ address → address < programStart → memory[address]? = some 0
  bytes : ∀ offset < program.size, memory[programStart + offset]? = program[offset]?
  above : ∀ address, programStart + program.size ≤ address → address < memorySize →
    memory[address]? = some 0

/-- Two programs with nothing but zeros after what they have in common. -/
def SameUpToZeros (program other : Array UInt8) : Prop :=
  ∃ (common : Array UInt8) (zeros otherZeros : Nat),
    program = common ++ Array.replicate zeros 0 ∧ other = common ++ Array.replicate otherZeros 0

namespace Machine

variable {program : Array UInt8}

theorem getElem?_image (program : Array UInt8) {address : Nat} (inside : address < memorySize) :
    (image program)[address]? =
      some (if programStart ≤ address then program.getD (address - programStart) 0
        else font.toArray.getD address 0) := by
  rw [Vector.getElem?_eq_getElem inside, image, Vector.getElem_ofFn]

theorem laidOut_image (fits : program.size ≤ maxProgramSize) : LaidOut program (image program) := by
  have limit : programStart + program.size ≤ memorySize := by
    unfold maxProgramSize programStart memorySize at *
    omega
  have low : 80 < programStart := by decide
  constructor
  case glyphs =>
    intro address glyph
    have same : font.toArray[address]? = font[address]? := rfl
    rw [getElem?_image program (by omega), if_neg (by omega), Array.getD_eq_getD_getElem?, same,
      Vector.getElem?_eq_getElem glyph, Option.getD_some]
  case below =>
    intro address past short
    have missing : font.toArray[address]? = none := Array.getElem?_eq_none past
    rw [getElem?_image program (by omega), if_neg (by omega), Array.getD_eq_getD_getElem?,
      missing, Option.getD_none]
  case bytes =>
    intro offset inside
    rw [getElem?_image program (by omega), if_pos (Nat.le_add_right _ _), Nat.add_sub_cancel_left,
      Array.getD_eq_getD_getElem?, Array.getElem?_eq_getElem inside, Option.getD_some]
  case above =>
    intro address past inside
    have missing : program[address - programStart]? = none := Array.getElem?_eq_none (by omega)
    rw [getElem?_image program inside, if_pos (by omega), Array.getD_eq_getD_getElem?, missing,
      Option.getD_none]

theorem read_program (fits : program.size ≤ maxProgramSize) {offset : Nat}
    (inside : offset < program.size) :
    (withProgram program).read (UInt16.ofNat (programStart + offset)) = program[offset] := by
  have place : (cell (UInt16.ofNat (programStart + offset))).val = programStart + offset := by
    simp only [cell, UInt16.toNat_ofNat']
    unfold maxProgramSize programStart memorySize at *
    omega
  have byte := (laidOut_image fits).bytes offset inside
  rw [← place, Array.getElem?_eq_getElem inside] at byte
  exact Vector.getElem_eq_iff.mpr byte

theorem image_append_zeros (common : Array UInt8) (zeros : Nat) :
    image (common ++ Array.replicate zeros 0) = image common := by
  have padded (offset : Nat) :
      (common ++ Array.replicate zeros 0).getD offset 0 = common.getD offset 0 := by
    simp only [Array.getD_eq_getD_getElem?, Array.getElem?_append, Array.getElem?_replicate]
    split
    · rfl
    next past =>
      rw [Array.getElem?_eq_none (Nat.le_of_not_lt past)]
      split <;> rfl
  simp only [image, padded]

theorem withProgram_eq {other : Array UInt8} (same : SameUpToZeros program other) :
    withProgram other = withProgram program := by
  obtain ⟨common, zeros, otherZeros, rfl, rfl⟩ := same
  simp only [withProgram, image_append_zeros]

/-- A load succeeds just when the program fits. It then leaves memory laid out and all
else as if just switched on, no matter what the machine held and how many zeros the
program ends with. Otherwise its error tells both sizes, and a console that asked for
it, be it to mount the program or to put it in again, is left as it was. -/
theorem load_depends_on_program_alone {σ : Type} [SeededSource σ] (program : Array UInt8)
    (machine : Machine) :
    ((∃ loaded, (machine.load program).value = .ok loaded) ↔ program.size ≤ 3584) ∧
    (∀ loaded, (machine.load program).value = .ok loaded →
      LaidOut program loaded.memory ∧
      loaded = { powerOn with memory := loaded.memory } ∧
      (∀ (offset : Nat) (inside : offset < program.size),
        loaded.read (UInt16.ofNat (0x200 + offset)) = program[offset]) ∧
      (∀ other : Machine, (other.load program).value = .ok loaded) ∧
      ∀ (other : Machine) (padded : Array UInt8),
        SameUpToZeros program padded → padded.size ≤ 3584 →
          (other.load padded).value = .ok loaded) ∧
    (3584 < program.size →
      (machine.load program).value = .error (.tooLarge program.size 3584) ∧
      ∀ console : Console σ, console.machine = machine →
        (console.mount Console.programMount.id program).value =
          (.error (.load (.tooLarge program.size 3584)), console) ∧
        (console.program = some program → console.reload.value = console)) := by
  have limit : maxProgramSize = 3584 := rfl
  rw [← limit]
  refine ⟨?_, ?_, ?_⟩
  · constructor
    · rintro ⟨loaded, success⟩
      exact ((value_load_eq_ok_iff program machine loaded).mp success).1
    · intro fits
      exact ⟨_, (value_load_eq_ok_iff program machine _).mpr ⟨fits, rfl⟩⟩
  · intro loaded success
    obtain ⟨fits, rfl⟩ := (value_load_eq_ok_iff program machine loaded).mp success
    refine ⟨laidOut_image fits, rfl, fun _ inside => read_program fits inside, ?_, ?_⟩
    · intro other
      exact (value_load_eq_ok_iff program other _).mpr ⟨fits, rfl⟩
    · intro other padded same fitsToo
      exact (value_load_eq_ok_iff padded other _).mpr ⟨fitsToo, (withProgram_eq same).symm⟩
  · intro tooLarge
    have large := Nat.not_le.mpr tooLarge
    refine ⟨by rw [value_load, if_neg large], ?_⟩
    intro console held
    refine ⟨?_, fun stored => console.value_reload_of_tooLarge stored large⟩
    rw [Console.value_mount, if_pos rfl, if_neg large]

/-- A machine that was used before takes a short program, padded or not, and refuses
one that is a byte too long. -/
theorem load_depends_on_program_alone_after_use :
    let used : Machine := { withProgram #[0x12, 0x00, 0xFF, 0xFF, 0xFF] with sp := 200, index := 7 }
    let large : Array UInt8 := Array.replicate 3585 1
    (used.load #[0xA2, 0x1E, 0x00]).value = .ok (withProgram #[0xA2, 0x1E, 0x00]) ∧
      LaidOut #[0xA2, 0x1E, 0x00] (withProgram #[0xA2, 0x1E, 0x00]).memory ∧
      SameUpToZeros #[0xA2, 0x1E, 0x00] #[0xA2, 0x1E] ∧
      (powerOn.load #[0xA2, 0x1E]).value = .ok (withProgram #[0xA2, 0x1E, 0x00]) ∧
      3584 < large.size ∧
      (used.load large).value = .error (.tooLarge large.size 3584) ∧
      ∀ console : Console Keystream, console.machine = used →
        (console.mount Console.programMount.id large).value.2.machine = used := by
  intro used large
  have taken : (used.load #[0xA2, 0x1E, 0x00]).value = .ok (withProgram #[0xA2, 0x1E, 0x00]) := by
    rw [value_load, if_pos (by decide)]
  have same : SameUpToZeros #[0xA2, 0x1E, 0x00] #[0xA2, 0x1E] := ⟨#[0xA2, 0x1E], 1, 0, rfl, rfl⟩
  have tooLarge : 3584 < large.size := by
    rw [Array.size_replicate]
    decide
  obtain ⟨_, success, _⟩ := @load_depends_on_program_alone Keystream _ #[0xA2, 0x1E, 0x00] used
  obtain ⟨laidOut, _, _, _, padded⟩ := success _ taken
  obtain ⟨_, _, failure⟩ := @load_depends_on_program_alone Keystream _ large used
  obtain ⟨refused, unchanged⟩ := failure tooLarge
  refine ⟨taken, laidOut, same, padded powerOn _ same (by decide), tooLarge, refused, ?_⟩
  intro console held
  rw [(unchanged console held).1]
  exact held

end Machine
end Chip8

import Chip8.Logged
import Chip8.Machine.Basic

/-!
# Loading programs
-/

set_option autoImplicit false

namespace Chip8

inductive LoadError where
  | tooLarge (size limit : Nat)
  deriving DecidableEq

def LoadError.message : LoadError → String
  | .tooLarge size limit =>
      "ROM is " ++ toString size ++ " bytes, at most " ++ toString limit ++ " bytes fit above 0x200"

namespace Machine

/-- Switches the machine off and on and puts a program into it. A program that
does not fit is refused before anything is touched. -/
def load (program : Array UInt8) (machine : Machine := powerOn) :
    Logged (Except LoadError Machine) := do
  if program.size ≤ maxProgramSize then
    Logged.emit (.programLoaded programStart program.size)
    return .ok (machine.reset.place programStart program)
  else
    Logged.emit (.programRejected program.size maxProgramSize)
    return .error (.tooLarge program.size maxProgramSize)

/-- Memory with the glyphs at the bottom and a program at its place; all other
bytes are zero. -/
def image (program : Array UInt8) : Vector UInt8 memorySize :=
  Vector.ofFn fun address =>
    if programStart ≤ address.val then program.getD (address.val - programStart) 0
    else font.toArray.getD address.val 0

def withProgram (program : Array UInt8) : Machine := { memory := image program }

theorem place_powerOn (program : Array UInt8) :
    powerOn.place programStart program = withProgram program := by
  have memory : (powerOn.place programStart program).memory = image program := by
    apply Vector.ext
    intro address inside
    simp only [place, powerOn, placeFont, image, Vector.getElem_ofFn, Vector.getElem_replicate,
      Nat.zero_le, ↓reduceIte, Fin.getElem_fin, Nat.sub_zero]
    by_cases above : programStart ≤ address
    · have past : font.toArray.size ≤ address := by
        simp only [programStart, Vector.size_toArray] at *
        omega
      have cleared : font.toArray.getD address 0 = 0 := by
        rw [Array.getD_eq_getD_getElem?, Array.getElem?_eq_none past, Option.getD_none]
      simp only [above, ↓reduceIte, cleared]
    · simp only [above, ↓reduceIte]
  exact congrArg (fun memory => ({ memory } : Machine)) memory

/-- What the machine held before has no influence on a load, and a load fails
exactly for a program that does not fit. -/
theorem value_load (program : Array UInt8) (machine : Machine) :
    (machine.load program).value =
      if program.size ≤ maxProgramSize then .ok (withProgram program)
      else .error (.tooLarge program.size maxProgramSize) := by
  by_cases fits : program.size ≤ maxProgramSize
  · simp [load, fits, reset_eq_powerOn, place_powerOn]
  · simp [load, fits]

theorem value_load_eq_ok_iff (program : Array UInt8) (machine loaded : Machine) :
    (machine.load program).value = .ok loaded ↔
      program.size ≤ maxProgramSize ∧ loaded = withProgram program := by
  rw [value_load]
  split
  next fits =>
    rw [Except.ok.injEq, eq_comm]
    exact (and_iff_right fits).symm
  next large => exact iff_of_false nofun fun both => large both.1

theorem events_load (program : Array UInt8) (machine : Machine) :
    (machine.load program).events =
      if program.size ≤ maxProgramSize then [.programLoaded programStart program.size]
      else [.programRejected program.size maxProgramSize] := by
  unfold load
  split <;> rfl

end Machine
end Chip8

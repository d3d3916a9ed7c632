import Chip8.Proofs.Session
import Chip8.Random.Keystream

/-!
# Refused requests

A console refuses to mount or unmount at a place it does not have, to mount a
program that does not fit, and to run a frame without a program. A refused request
leaves no trace: a session without its refused requests goes just the same way.
-/

set_option autoImplicit false

namespace Chip8

def Answer.failure? : Answer → Option Console.Failure
  | .mounting (.error failure) => some failure
  | .frame (.error failure) => some failure
  | _ => none

/-- The answer stands for a refusal, not for a run that was broken off. -/
def Answer.refused (answer : Answer) : Bool := answer.failure?.any (· ≠ .stackBreach)

namespace Console

variable {σ : Type} [SeededSource σ]

omit [SeededSource σ] in
/-- What a request is refused for. The place to mount at is looked at first. -/
def refusal? (console : Console σ) (request : Request) : Option Failure :=
  match request with
  | .mount id program =>
      if id ≠ programMount.id then some (.invalidMountPoint id)
      else if maxProgramSize < program.size then
        some (.load (.tooLarge program.size maxProgramSize))
      else none
  | .unmount id => if id ≠ programMount.id then some (.invalidMountPoint id) else none
  | .stepFrame => if console.program.isNone then some .noProgram else none
  | _ => none

variable {console : Console σ}

theorem failure?_perform (bound : console.machine.sp.toNat ≤ stackDepth) (request : Request) :
    (console.perform request).value.1.failure? = console.refusal? request := by
  cases request with
  | mount id program =>
      simp only [perform, Logged.value_bind, Logged.value_pure, value_mount, refusal?]
      by_cases place : id = programMount.id
      · by_cases fits : program.size ≤ maxProgramSize
        · have small : ¬ maxProgramSize < program.size := Nat.not_lt.mpr fits
          simp [place, fits, small, Answer.failure?]
        · have large : maxProgramSize < program.size := Nat.lt_of_not_le fits
          simp [place, fits, large, Answer.failure?]
      · simp [place, Answer.failure?]
  | unmount id =>
      simp only [perform, Logged.value_bind, Logged.value_pure, value_unmount, refusal?]
      by_cases place : id = programMount.id <;> simp [place, Answer.failure?]
  | stepFrame =>
      have finished := (Processor.bounded_run bound console.config.cyclesPerFrame.toNat).1
      simp only [perform, Logged.value_bind, Logged.value_pure, value_stepFrame, refusal?]
      cases console.program.isNone with
      | true => rfl
      | false =>
          simp only [Bool.false_eq_true, ↓reduceIte]
          rw [if_pos finished]
          rfl
  | _ => rfl

theorem perform_of_refused {request : Request}
    (refused : (console.perform request).value.1.refused = true) :
    (console.perform request).value.2 = console := by
  cases request with
  | mount id program =>
      simp only [perform, Logged.value_bind, Logged.value_pure, value_mount] at refused ⊢
      by_cases place : id = programMount.id
      · by_cases fits : program.size ≤ maxProgramSize
        · simp only [place, fits, ↓reduceIte] at refused
          cases refused
        · simp only [place, fits, ↓reduceIte]
      · simp only [place, ↓reduceIte]
  | unmount id =>
      simp only [perform, Logged.value_bind, Logged.value_pure, value_unmount] at refused ⊢
      by_cases place : id = programMount.id
      · simp only [place, ↓reduceIte] at refused
        cases refused
      · simp only [place, ↓reduceIte]
  | stepFrame =>
      simp only [perform, Logged.value_bind, Logged.value_pure, value_stepFrame] at refused ⊢
      cases empty : console.program.isNone with
      | true => rfl
      | false =>
          simp only [empty, Bool.false_eq_true, ↓reduceIte] at refused
          split at refused <;> cases refused
  | _ => cases refused

omit [SeededSource σ] in
theorem refusal?_ne_stackBreach (request : Request) :
    console.refusal? request ≠ some .stackBreach := by
  cases request with
  | mount id program =>
      simp only [refusal?]
      split
      · simp
      · split <;> simp
  | unmount id =>
      simp only [refusal?]
      split <;> simp
  | stepFrame =>
      simp only [refusal?]
      split <;> simp
  | _ => simp [refusal?]

/-- With the stack pointer on the stack every failure is a refusal. -/
theorem refused_of_failure (bound : console.machine.sp.toNat ≤ stackDepth) {request : Request}
    {failure : Failure} (failed : (console.perform request).value.1.failure? = some failure) :
    (console.perform request).value.1.refused = true := by
  have unbroken : failure ≠ .stackBreach := by
    rintro rfl
    rw [failure?_perform bound request] at failed
    exact refusal?_ne_stackBreach request failed
  simp [Answer.refused, failed, unbroken]

theorem session_without_refused (requests : List Request) (console : Console σ) :
    let ran := (console.session requests).value
    let accepted := ran.1.filter fun exchange => !exchange.2.refused
    (console.session (accepted.map Prod.fst)).value = (accepted, ran.2) := by
  induction requests generalizing console with
  | nil => rfl
  | cons request rest ih =>
      have later := ih (console.perform request).value.2
      simp only [value_session_cons] at later ⊢
      cases refused : (console.perform request).value.1.refused with
      | true =>
          rw [perform_of_refused refused] at later ⊢
          simpa only [List.filter_cons, refused, Bool.not_true, Bool.false_eq_true, ↓reduceIte]
            using later
      | false =>
          simp only [List.filter_cons, refused, Bool.not_false, ↓reduceIte, List.map_cons,
            value_session_cons, later]

/-- A console with its stack pointer on the stack fails exactly the requests that it
has a reason to refuse. A failed request leaves machine, source, counts, program and
settings alone, so all later answers are the ones that would have been given without
it, and a whole session may leave out what it refuses. -/
theorem failed_requests_leave_no_trace (console : Console σ)
    (bound : console.machine.sp.toNat ≤ stackDepth) :
    (∀ request, (console.perform request).value.1.failure? = console.refusal? request) ∧
      (∀ request failure, (console.perform request).value.1.failure? = some failure →
        (console.perform request).value.2 = console ∧
          ∀ later, (console.session (request :: later)).value =
            ((request, (console.perform request).value.1) :: (console.session later).value.1,
              (console.session later).value.2)) ∧
      ∀ requests,
        let ran := (console.session requests).value
        let accepted := ran.1.filter fun exchange => !exchange.2.refused
        (console.session (accepted.map Prod.fst)).value = (accepted, ran.2) := by
  refine ⟨failure?_perform bound, ?_, fun requests => session_without_refused requests console⟩
  intro request failure failed
  have unchanged := perform_of_refused (refused_of_failure bound failed)
  refine ⟨unchanged, ?_⟩
  intro later
  simp only [value_session_cons, unchanged]

/-- A program that is one byte too long, mounted in place of another one that runs. -/
theorem failed_requests_leave_no_trace_of_long_program :
    let console := ((Console.new { seed := some 0 } (Keystream.ofSeed 0)).startedOver
      (some #[0x60, 0x01]))
    let request := Request.mount "Program" (Array.replicate 3585 0)
    console.machine.sp.toNat ≤ stackDepth ∧
      (console.perform request).value.1.failure? = some (.load (.tooLarge 3585 3584)) ∧
      (console.perform request).value.2 = console := by
  intro console request
  have bound : console.machine.sp.toNat ≤ stackDepth := Nat.zero_le _
  obtain ⟨fails, unchanged, -⟩ := failed_requests_leave_no_trace console bound
  have failed : (console.perform request).value.1.failure? =
      some (.load (.tooLarge 3585 3584)) := by
    rw [fails]
    simp [request, refusal?, programMount, maxProgramSize, memorySize, programStart]
  exact ⟨bound, failed, (unchanged request _ failed).1⟩

end Console
end Chip8

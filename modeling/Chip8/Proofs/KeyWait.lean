import Chip8.Proofs.Footprint
import Chip8.Proofs.KeyLatch

/-!
# Waiting for a key

A program that waits for a key meets the same instruction in every cycle, until a cycle
starts with a key held down. Of the keys held down then, the lowest ends the wait. A cycle
sees of a key only what the host asked for last, so a key that goes down and up between two
cycles is missed.
-/

set_option autoImplicit false

namespace Chip8

/-! ## Keys -/

namespace Keypad

variable {keypad : Keypad}

theorem AllUp.setAll {calls : List KeyCall} (up : keypad.AllUp)
    (released : ∀ key < 16, KeyCall.last? calls key ≠ some true) : (keypad.setAll calls).AllUp := by
  intro key
  by_cases inRange : key < 16
  · rw [isPressed_setAll keypad calls inRange, up key]
    have notDown := released key inRange
    cases last : KeyCall.last? calls key with
    | none => rfl
    | some pressed =>
        cases pressed with
        | false => rfl
        | true => exact absurd last notDown
  · exact isPressed_eq_false _ inRange

theorem after_setAll (keypad : Keypad) (calls : Nat → List KeyCall) (count : Nat) :
    keypad.after (fun done keypad => keypad.setAll (calls done)) count =
      keypad.setAll ((List.range (count + 1)).flatMap calls) := by
  induction count with
  | zero => simp [after]
  | succ count ih =>
      rw [List.range_succ, List.flatMap_append, setAll_append, ← ih, List.flatMap_singleton]
      rfl

end Keypad

/-! ## One cycle -/

/-- What a key wait makes of a machine: nothing, unless a key is held down. -/
def Machine.keyTaken (machine : Machine) (x : Register) : Machine :=
  match machine.keypad.firstPressed? with
  | none => machine
  | some key => (machine.setRegister x (UInt8.ofNat key.val)).advance false

namespace Moment

variable {σ : Type}

/-- What a cycle comes to that meets no fault, takes no random byte and lets the timers of
the given machine fall. -/
def completed (moment : Moment σ) (machine : Machine) : Cycled σ where
  machine := { machine with
    opcode := moment.machine.wordAtPc
    timers := moment.machine.timers.tick }
  source := moment.source
  report := some {
    opcode := moment.machine.wordAtPc
    soundEdge := moment.machine.timers.soundExpires
    fault := none }

def fetched (moment : Moment σ) : Moment σ := { moment with machine := moment.machine.fetch }

variable [ByteSource σ] {policy : UnknownOpcodePolicy} {moment : Moment σ} {x : Register}

theorem cycled_waitForKey
    (waits : Instruction.decode? moment.machine.wordAtPc = some (.waitForKey x)) :
    moment.cycled policy = moment.completed (moment.machine.keyTaken x) := by
  have same : moment.machine.fetch.keypad = moment.machine.keypad := rfl
  rw [cycled, value_cycle, attempt, waits, Machine.keyTaken]
  cases held : moment.machine.keypad.firstPressed? <;> simp only [execute, same, held] <;> rfl

theorem cycled_of_allUp
    (waits : Instruction.decode? moment.machine.wordAtPc = some (.waitForKey x))
    (up : moment.machine.keypad.AllUp) :
    moment.cycled policy = moment.completed moment.machine := by
  rw [cycled_waitForKey waits, Machine.keyTaken, Keypad.firstPressed?_eq_none_iff.mpr up]

theorem cycled_of_not_allUp
    (waits : Instruction.decode? moment.machine.wordAtPc = some (.waitForKey x))
    (held : ¬ moment.machine.keypad.AllUp) :
    ∃ key, moment.machine.keypad.Lowest key ∧
      moment.cycled policy = moment.completed
        { moment.machine.setRegister x key with pc := moment.machine.pc + 2 } := by
  cases first : moment.machine.keypad.firstPressed? with
  | none => exact absurd (Keypad.allUp_of_firstPressed? first) held
  | some key =>
      refine ⟨UInt8.ofNat key.val, Keypad.lowest_of_firstPressed? first, ?_⟩
      rw [cycled_waitForKey waits, Machine.keyTaken, first]
      rfl

/-! ## Runs -/

theorem idleSince_of_allUp
    (waits : Instruction.decode? moment.machine.wordAtPc = some (.waitForKey x))
    (keys : Nat → Keypad → Keypad) {count : Nat}
    (up : ∀ done < count, (moment.after policy keys done).machine.keypad.AllUp) :
    (moment.after policy keys count).fetched.IdleSince moment.fetched keys count := by
  induction count with
  | zero => exact ⟨rfl, rfl, rfl, rfl⟩
  | succ count ih =>
      -- The first cycle sets the opcode field, so moments are compared with their word taken up.
      have idle := ih fun done early => up done (Nat.lt_succ_of_lt early)
      have word : (moment.after policy keys count).machine.wordAtPc = moment.machine.wordAtPc :=
        idle.wordAtPc_eq
      have cycled : (moment.after policy keys count).cycled policy = _ :=
        cycled_of_allUp (word.symm ▸ waits) (up count (Nat.lt_succ_self count))
      have later : (moment.after policy keys (count + 1)).fetched =
          ({ (moment.after policy keys count).fetched with
            machine := { (moment.after policy keys count).fetched.machine with
              timers := (moment.after policy keys count).machine.timers.tick } } :
            Moment σ).pressed (keys (count + 1)) := by
        rw [after, next, cycled]
        rfl
      rw [later]
      exact idle.ticked

/-- A key wait that was begun earlier and goes on until a cycle starts with a key held
down, which ends it with the lowest such key. -/
structure WaitsSince (now earlier : Moment σ) (policy : UnknownOpcodePolicy)
    (keys : Nat → Keypad → Keypad) (count : Nat) (x : Register) : Prop where
  idle : now.fetched.IdleSince earlier.fetched keys count
  word : now.machine.wordAtPc = earlier.machine.wordAtPc
  goesOn : now.machine.keypad.AllUp → now.cycled policy = now.completed now.machine
  ends : ¬ now.machine.keypad.AllUp →
    ∃ key, now.machine.keypad.Lowest key ∧
      now.cycled policy =
        now.completed { now.machine.setRegister x key with pc := now.machine.pc + 2 }

theorem waitsSince_of_allUp
    (waits : Instruction.decode? moment.machine.wordAtPc = some (.waitForKey x))
    (keys : Nat → Keypad → Keypad) {count : Nat}
    (up : ∀ done < count, (moment.after policy keys done).machine.keypad.AllUp) :
    (moment.after policy keys count).WaitsSince moment policy keys count x := by
  have idle := idleSince_of_allUp waits keys up
  have word : (moment.after policy keys count).machine.wordAtPc = moment.machine.wordAtPc :=
    idle.wordAtPc_eq
  have waiting : Instruction.decode? (moment.after policy keys count).machine.wordAtPc =
      some (.waitForKey x) := word.symm ▸ waits
  exact ⟨idle, word, cycled_of_allUp waiting, cycled_of_not_allUp waiting⟩

/-- A program that waits for a key does nothing else before a cycle starts with a key held
down, whatever the host does to the keys in between. That cycle ends the wait with the
lowest of the keys then held down. Of each key a cycle sees what the host asked for last,
and of numbers above fifteen it sees nothing. So the wait goes on for ever if the host lets
go of every key before the next cycle. -/
theorem key_wait_ends_with_lowest_key (policy : UnknownOpcodePolicy) (moment : Moment σ)
    {x : Register} (waits : Instruction.decode? moment.machine.wordAtPc = some (.waitForKey x))
    (calls : Nat → List KeyCall) :
    let keys := fun count (keypad : Keypad) => keypad.setAll (calls count)
    let start := moment.after policy keys
    (∀ count, (∀ done < count, (start done).machine.keypad.AllUp) →
        (start count).WaitsSince moment policy keys count x) ∧
      (∀ count key, (start count).machine.keypad.isPressed key =
        if key < 16 then
          (KeyCall.last? ((List.range (count + 1)).flatMap calls) key).getD
            (moment.machine.keypad.isPressed key)
        else false) ∧
      (moment.machine.keypad.AllUp →
        (∀ count, ∀ key < 16, KeyCall.last? (calls count) key ≠ some true) →
          ∀ count, (start count).machine.keypad.AllUp) := by
  intro keys start
  have keypad (count : Nat) :
      (start count).machine.keypad = moment.machine.keypad.after keys count :=
    moment.keypad_after policy keys count
  refine ⟨?_, ?_, ?_⟩
  · intro count up
    exact waitsSince_of_allUp waits keys up
  · intro count key
    rw [keypad, Keypad.after_setAll]
    split
    next inRange => exact Keypad.isPressed_setAll _ _ inRange
    next beyond => exact Keypad.isPressed_eq_false _ beyond
  · intro up released count
    rw [keypad]
    induction count with
    | zero => exact up.setAll (released 0)
    | succ count ih => exact ih.setAll (released (count + 1))

theorem WaitsSince.cycled_of_lowest {now earlier : Moment σ} {keys : Nat → Keypad → Keypad}
    {count : Nat} (waiting : now.WaitsSince earlier policy keys count x) {key : UInt8}
    (lowest : now.machine.keypad.Lowest key) :
    (now.cycled policy).machine.register x = key ∧
      (now.cycled policy).machine.pc = earlier.machine.pc + 2 := by
  obtain ⟨least, isLeast, cycled⟩ := waiting.ends lowest.not_allUp
  cases isLeast.unique lowest
  have pc : now.machine.pc = earlier.machine.pc := waiting.idle.pc_eq
  rw [cycled, completed, pc]
  exact ⟨(Machine.register_setRegister _ x x _).trans (if_pos rfl), rfl⟩

/-- A number that is no key and a key that is let go of at once do not end the wait. Of the
two keys held down after them, the one with the lower number does. -/
theorem key_wait_ends_with_lowest_key_after_missed_key :
    let machine : Machine := Machine.withProgram #[0xF3, 0x0A]
    let moment : Moment Keystream := { machine, source := Keystream.ofSeed 0 }
    let calls (count : Nat) : List KeyCall :=
      [[⟨20, true⟩], [⟨5, true⟩, ⟨5, false⟩]].getD count [⟨0xB, true⟩, ⟨2, true⟩]
    let start := moment.after .stall fun count keypad => keypad.setAll (calls count)
    Instruction.decode? machine.wordAtPc = some (.waitForKey 3) ∧
      (∀ done < 2, (start done).machine.keypad.AllUp) ∧
      (start 2).machine.keypad.Lowest 2 ∧
      ((start 2).cycled .stall).machine.register 3 = 2 ∧
      ((start 2).cycled .stall).machine.pc = machine.pc + 2 := by
  intro machine moment calls start
  have waits : Instruction.decode? machine.wordAtPc = some (.waitForKey 3) :=
    Machine.decode?_of_loaded rfl (by decide)
  have first : (start 0).machine.keypad.firstPressed? = none := by
    rw [keypad_after]
    decide
  have second : (start 1).machine.keypad.firstPressed? = none := by
    rw [keypad_after]
    decide
  have third : (start 2).machine.keypad.firstPressed? = some 2 := by
    rw [keypad_after]
    decide
  have up : ∀ done < 2, (start done).machine.keypad.AllUp := by
    intro done early
    obtain rfl | rfl : done = 0 ∨ done = 1 := by omega
    · exact Keypad.firstPressed?_eq_none_iff.mp first
    · exact Keypad.firstPressed?_eq_none_iff.mp second
  have lowest : (start 2).machine.keypad.Lowest 2 := Keypad.lowest_of_firstPressed? third
  have waiting := (key_wait_ends_with_lowest_key .stall moment waits calls).1 2 up
  exact ⟨waits, up, lowest, waiting.cycled_of_lowest lowest⟩

end Moment
end Chip8

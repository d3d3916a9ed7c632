import Chip8.Proofs.Execution

/-!
# Flags of arithmetic

What a byte cannot hold of a sum, difference or shift is left in the flag register. The flag
is worked out from the registers as they were and written first; the result is worked out
from the registers after that and may be written over it.
-/

set_option autoImplicit false

namespace Chip8

/-- Instructions that leave a result in one register and set the flag. The shifts look only
at the register that they change. -/
inductive FlagOperation where
  | add
  | subtract
  | shiftRight
  | subtractReversed
  | shiftLeft

namespace FlagOperation

def instruction (operation : FlagOperation) (x y : Register) : Instruction Register :=
  match operation with
  | .add => .add x y
  | .subtract => .subtract x y
  | .shiftRight => .shiftRight x
  | .subtractReversed => .subtractReversed x y
  | .shiftLeft => .shiftLeft x

/-- A carry, a bit shifted out, or that nothing was borrowed. -/
def flag (operation : FlagOperation) (a b : UInt8) : Bool :=
  match operation with
  | .add => 256 ≤ a.toNat + b.toNat
  | .subtract => b.toNat ≤ a.toNat
  | .shiftRight => a.toNat % 2 = 1
  | .subtractReversed => a.toNat ≤ b.toNat
  | .shiftLeft => 128 ≤ a.toNat

def result (operation : FlagOperation) (a b : UInt8) : Nat :=
  match operation with
  | .add => (a.toNat + b.toNat) % 256
  | .subtract => (256 + a.toNat - b.toNat) % 256
  | .shiftRight => a.toNat / 2
  | .subtractReversed => (256 + b.toNat - a.toNat) % 256
  | .shiftLeft => 2 * a.toNat % 256

/-- Flag and result together are what the operation makes of two numbers. -/
def Exact (operation : FlagOperation) (a b flag result : UInt8) : Prop :=
  match operation with
  | .add => 256 * flag.toNat + result.toNat = a.toNat + b.toNat
  | .subtract => (result.toNat : Int) = a.toNat - b.toNat + 256 * (1 - flag.toNat)
  | .shiftRight => 2 * result.toNat + flag.toNat = a.toNat
  | .subtractReversed => (result.toNat : Int) = b.toNat - a.toNat + 256 * (1 - flag.toNat)
  | .shiftLeft => 256 * flag.toNat + result.toNat = 2 * a.toNat

def bit (flag : Bool) : UInt8 := if flag then 1 else 0

theorem toNat_bit_decide (condition : Prop) [Decidable condition] :
    (bit (decide condition)).toNat = if condition then 1 else 0 := by
  by_cases holds : condition <;> simp [bit, holds]

theorem exact_of_result (operation : FlagOperation) {a b result : UInt8}
    (known : result.toNat = operation.result a b) :
    operation.Exact a b (bit (operation.flag a b)) result := by
  have small := a.toNat_lt
  have otherSmall := b.toNat_lt
  -- Each operation is one equation between numbers, once for either value of the flag.
  cases operation <;>
    simp only [Exact, FlagOperation.result, flag, toNat_bit_decide] at known ⊢ <;>
    split <;>
    omega

def compute (operation : FlagOperation) (a b : UInt8) : UInt8 :=
  match operation with
  | .add => a + b
  | .subtract => a - b
  | .shiftRight => a >>> 1
  | .subtractReversed => b - a
  | .shiftLeft => a <<< 1

theorem toNat_compute (operation : FlagOperation) (a b : UInt8) :
    (operation.compute a b).toNat = operation.result a b := by
  have small := a.toNat_lt
  have otherSmall := b.toNat_lt
  cases operation with
  | add => exact UInt8.toNat_add a b
  | subtract =>
      simp only [compute, FlagOperation.result, UInt8.toNat_sub]
      omega
  | shiftRight => exact (UInt8.toNat_shiftRight a 1).trans (Nat.shiftRight_eq_div_pow a.toNat 1)
  | subtractReversed =>
      simp only [compute, FlagOperation.result, UInt8.toNat_sub]
      omega
  | shiftLeft =>
      have doubled : (a <<< 1).toNat = a.toNat <<< 1 % 256 := UInt8.toNat_shiftLeft a 1
      rw [compute, doubled, Nat.shiftLeft_eq, Nat.mul_comm]
      rfl

theorem lowBit_eq (value : UInt8) : value &&& 1 = bit (decide (value.toNat % 2 = 1)) := by
  apply UInt8.toNat_inj.mp
  have low : (value &&& 1).toNat = value.toNat % 2 :=
    (UInt8.toNat_and value 1).trans (Nat.and_one_is_mod value.toNat)
  rw [toNat_bit_decide, low]
  split <;> omega

theorem highBit_eq (value : UInt8) : (value >>> 7) &&& 1 = bit (decide (128 ≤ value.toNat)) := by
  have small := value.toNat_lt
  have high : (value >>> 7).toNat = value.toNat / 128 :=
    (UInt8.toNat_shiftRight value 7).trans (Nat.shiftRight_eq_div_pow value.toNat 7)
  rw [lowBit_eq, high]
  congr 2
  apply propext
  omega

end FlagOperation

section Execution

variable {σ : Type} [ByteSource σ] (machine : Machine) (source : σ) (x y : Register)

def Machine.flagged (operation : FlagOperation) : Machine :=
  machine.setFlag (operation.flag (machine.register x) (machine.register y))

theorem Machine.register_setFlag (flag : Bool) (r : Register) :
    (machine.setFlag flag).register r =
      if r = flagRegister then FlagOperation.bit flag else machine.register r :=
  machine.register_setRegister flagRegister r _

theorem machine_execute_operation (operation : FlagOperation) :
    (execute (operation.instruction x y) machine source).value.machine =
      ((machine.flagged x y operation).setRegister x
        (operation.compute ((machine.flagged x y operation).register x)
          ((machine.flagged x y operation).register y))).advance false := by
  cases operation with
  | add => rfl
  | subtract => rfl
  | shiftRight =>
      have low := FlagOperation.lowBit_eq (machine.register x)
      simp only [FlagOperation.instruction, execute, Machine.shiftRegisterRight, low]
      rfl
  | subtractReversed => rfl
  | shiftLeft =>
      have high := FlagOperation.highBit_eq (machine.register x)
      simp only [FlagOperation.instruction, execute, Machine.shiftRegisterLeft, high]
      rfl

variable {x}

theorem register_execute_operation (operation : FlagOperation) (r : Register) :
    (execute (operation.instruction x y) machine source).value.machine.register r =
      if r = x then operation.compute ((machine.flagged x y operation).register x)
        ((machine.flagged x y operation).register y)
      else (machine.flagged x y operation).register r := by
  rw [machine_execute_operation]
  exact Machine.register_setRegister _ _ _ _

theorem register_flag_execute_operation (operation : FlagOperation) (other : x ≠ flagRegister) :
    (execute (operation.instruction x y) machine source).value.machine.register flagRegister =
      FlagOperation.bit (operation.flag (machine.register x) (machine.register y)) := by
  rw [register_execute_operation, if_neg other.symm, Machine.flagged, machine.register_setFlag,
    if_pos rfl]

variable {y} in
theorem exact_execute_operation (operation : FlagOperation) (other : x ≠ flagRegister)
    (otherAlso : y ≠ flagRegister) :
    let after := (execute (operation.instruction x y) machine source).value.machine
    operation.Exact (machine.register x) (machine.register y) (after.register flagRegister)
      (after.register x) := by
  intro after
  let flagged := machine.flagged x y operation
  have result : after.register x =
      operation.compute (flagged.register x) (flagged.register y) :=
    (register_execute_operation machine source y operation x).trans (if_pos rfl)
  have left : flagged.register x = machine.register x :=
    (machine.register_setFlag _ x).trans (if_neg other)
  have right : flagged.register y = machine.register y :=
    (machine.register_setFlag _ y).trans (if_neg otherAlso)
  rw [register_flag_execute_operation machine source y operation other, result, left, right]
  exact operation.exact_of_result (operation.toNat_compute _ _)

theorem register_execute_shiftRight_flag :
    (execute (.shiftRight flagRegister) machine source).value.machine.register flagRegister =
      0 := by
  let flagged := machine.flagged flagRegister flagRegister .shiftRight
  have result : (execute (.shiftRight flagRegister) machine source).value.machine.register
      flagRegister = flagged.register flagRegister >>> 1 :=
    (register_execute_operation machine source flagRegister .shiftRight flagRegister).trans
      (if_pos rfl)
  have shifted : ∀ flag : Bool, FlagOperation.bit flag >>> 1 = 0 := by decide
  have marked : flagged.register flagRegister = FlagOperation.bit _ :=
    (machine.register_setFlag _ flagRegister).trans (if_pos rfl)
  rw [result, marked]
  exact shifted _

variable (x)

theorem toNat_index_execute_addToIndex :
    let flagged := machine.setFlag (0xFFF < machine.index.toNat + (machine.register x).toNat)
    (execute (.addToIndex x) machine source).value.machine.index.toNat =
      (machine.index.toNat + (flagged.register x).toNat) % 4096 := by
  intro flagged
  have wrapped : (execute (.addToIndex x) machine source).value.machine.index =
      (machine.index + (flagged.register x).toUInt16) &&& 0xFFF := rfl
  have mask : ∀ value : Nat, value &&& 0xFFF = value % 4096 := fun value =>
    Nat.and_two_pow_sub_one_eq_mod value 12
  have masked : (0xFFF : UInt16).toNat = 0xFFF := rfl
  rw [wrapped, UInt16.toNat_and, masked, mask, UInt16.toNat_add, UInt8.toNat_toUInt16]
  omega

variable {x} in
theorem exact_execute_addToIndex (other : x ≠ flagRegister) (low : machine.index.toNat ≤ 0xFFF) :
    let after := (execute (.addToIndex x) machine source).value.machine
    4096 * (after.register flagRegister).toNat + after.index.toNat =
      machine.index.toNat + (machine.register x).toNat := by
  intro after
  let flag : Bool := 0xFFF < machine.index.toNat + (machine.register x).toNat
  have small := (machine.register x).toNat_lt
  have operand : (machine.setFlag flag).register x = machine.register x :=
    (machine.register_setFlag flag x).trans (if_neg other)
  have marked : after.register flagRegister = FlagOperation.bit flag :=
    (machine.register_setFlag flag flagRegister).trans (if_pos rfl)
  rw [toNat_index_execute_addToIndex, operand, marked, FlagOperation.toNat_bit_decide]
  split <;> omega

/-- Flag and result together make up the exact result, as long as the flag register is no
operand. If it is one, then the flag is that of the registers as they were, and the result
is worked out after the flag was written and may replace it. No other register and no other
part of the machine changes. -/
theorem flags_make_results_exact :
    (∀ operation : FlagOperation,
      let after := (execute (operation.instruction x y) machine source).value.machine
      let flag := operation.flag (machine.register x) (machine.register y)
      let flagged := machine.setFlag flag
      (x ≠ flagRegister → y ≠ flagRegister →
          operation.Exact (machine.register x) (machine.register y)
            (after.register flagRegister) (after.register x)) ∧
        (after.register x).toNat = operation.result (flagged.register x) (flagged.register y) ∧
        (x ≠ flagRegister → after.register flagRegister = if flag then 1 else 0) ∧
        (∀ r, r ≠ x → r ≠ flagRegister → after.register r = machine.register r) ∧
        after = { machine with registers := after.registers, pc := machine.pc + 2 }) ∧
      (let after := (execute (.addToIndex x) machine source).value.machine
        let flag : Bool := 0xFFF < machine.index.toNat + (machine.register x).toNat
        let flagged := machine.setFlag flag
        (x ≠ flagRegister → machine.index.toNat ≤ 0xFFF →
            4096 * (after.register flagRegister).toNat + after.index.toNat =
              machine.index.toNat + (machine.register x).toNat) ∧
          after.index.toNat = (machine.index.toNat + (flagged.register x).toNat) % 4096 ∧
          after.register flagRegister = (if flag then 1 else 0) ∧
          (∀ r, r ≠ flagRegister → after.register r = machine.register r) ∧
          after = { machine with
            registers := after.registers
            index := after.index
            pc := machine.pc + 2 }) ∧
      (execute (.shiftRight flagRegister) machine source).value.machine.register flagRegister =
        0 := by
  refine ⟨?_, ?_, register_execute_shiftRight_flag machine source⟩
  · intro operation after flag flagged
    have registers : ∀ r, after.register r =
        if r = x then operation.compute (flagged.register x) (flagged.register y)
        else flagged.register r := register_execute_operation machine source y operation
    refine ⟨?_, ?_, ?_, ?_, ?_⟩
    · exact exact_execute_operation machine source operation
    · rw [registers, if_pos rfl]
      exact operation.toNat_compute _ _
    · exact register_flag_execute_operation machine source y operation
    · intro r apart unflagged
      rw [registers, if_neg apart, machine.register_setFlag, if_neg unflagged]
    · have whole : after = _ := machine_execute_operation machine source x y operation
      rw [whole]
      rfl
  · intro after flag flagged
    have registers : ∀ r, after.register r =
        if r = flagRegister then FlagOperation.bit flag else machine.register r :=
      machine.register_setFlag flag
    refine ⟨exact_execute_addToIndex machine source, ?_, ?_, ?_, rfl⟩
    · exact toNat_index_execute_addToIndex machine source x
    · exact (registers flagRegister).trans (if_pos rfl)
    · intro r unflagged
      exact (registers r).trans (if_neg unflagged)

/-- A sum that does not fit in a byte, one whose operand is the flag register, and an index
register that leaves the address space. -/
theorem flags_make_results_exact_of_carries :
    let machine : Machine := {
      memory := Vector.replicate _ 0
      registers := (Vector.replicate _ 200).set flagRegister 9
      index := 0xFFF }
    let sum := (execute (.add 1 2) machine Silence.mk).value.machine
    let aliased := (execute (.add flagRegister 2) machine Silence.mk).value.machine
    let moved := (execute (.addToIndex 1) machine Silence.mk).value.machine
    (1 : Register) ≠ flagRegister ∧ (2 : Register) ≠ flagRegister ∧
      256 * (sum.register flagRegister).toNat + (sum.register 1).toNat = 400 ∧
      sum.register flagRegister = 1 ∧
      (3 : Register) ≠ 1 ∧ (3 : Register) ≠ flagRegister ∧ sum.register 3 = 200 ∧
      (aliased.register flagRegister).toNat = 200 ∧
      machine.index.toNat ≤ 0xFFF ∧
      4096 * (moved.register flagRegister).toNat + moved.index.toNat = 4295 := by
  intro machine sum aliased moved
  obtain ⟨operations, index, -⟩ := flags_make_results_exact machine Silence.mk 1 2
  obtain ⟨exact, -, flag, others, -⟩ := operations .add
  obtain ⟨aliasing, -⟩ := flags_make_results_exact machine Silence.mk flagRegister 2
  obtain ⟨-, result, -⟩ := aliasing .add
  have apart : (1 : Register) ≠ flagRegister := by decide
  have apartAlso : (2 : Register) ≠ flagRegister := by decide
  refine ⟨apart, apartAlso, exact apart apartAlso, ?_, by decide, by decide, ?_, ?_, by decide,
    index.1 apart (by decide)⟩
  · exact (flag apart).trans (by decide)
  · exact others 3 (by decide) (by decide)
  · exact result.trans (by decide)

end Execution
end Chip8

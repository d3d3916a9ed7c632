import Chip8.Proofs.Execution
import Mathlib.Data.Fin.Basic
import Mathlib.Data.List.Nodup

/-!
# Bytes between registers and memory

Stores and loads go through the cells past the index register, around the end of memory if
need be. There are fewer of them than memory has cells, so no store meets a cell twice and
a load finds what was stored.
-/

set_option autoImplicit false

namespace Chip8

namespace Machine

/-! ## Cells past an address -/

def byteAt (machine : Machine) (place : Fin memorySize) : UInt8 :=
  getElem machine.memory place place.isLt

theorem byteAt_of_memory {one other : Machine} (same : one.memory = other.memory)
    (place : Fin memorySize) : one.byteAt place = other.byteAt place :=
  congrArg (fun memory : Vector UInt8 memorySize => memory[place]) same

/-- The cell at a distance from an address, around the end of memory. -/
def cellPast (address : UInt16) (distance : Nat) : Fin memorySize :=
  ⟨(address.toNat + distance) % memorySize, Nat.mod_lt _ (by decide)⟩

/-- Addresses are wider than memory, but they come around at a multiple of its size. -/
theorem cell_add (address : UInt16) (distance : Nat) :
    cell (address + UInt16.ofNat distance) = cellPast address distance := by
  apply Fin.ext
  simp only [cell, cellPast, memorySize, UInt16.toNat_add, UInt16.toNat_ofNat']
  omega

theorem cell_ofNat (place : Fin memorySize) : cell (UInt16.ofNat place) = place := by
  apply Fin.ext
  have inside := place.isLt
  simp only [cell, memorySize, UInt16.toNat_ofNat'] at inside ⊢
  omega

theorem cellPast_injective (address : UInt16) {distance other : Nat} (near : distance < memorySize)
    (otherNear : other < memorySize) (same : cellPast address distance = cellPast address other) :
    distance = other := by
  have around := congrArg Fin.val same
  simp only [cellPast, memorySize] at around near otherNear
  omega

theorem read_add (machine : Machine) (address : UInt16) (distance : Nat) :
    machine.read (address + UInt16.ofNat distance) =
      machine.byteAt (cellPast address distance) :=
  congrArg machine.byteAt (cell_add address distance)

/-! ## Rows of bytes -/

def putAll (machine : Machine) (bytes : List (Nat × UInt8)) : Machine :=
  bytes.foldl (fun machine byte => machine.write (machine.index + UInt16.ofNat byte.1) byte.2)
    machine

theorem putAll_eq (machine : Machine) (bytes : List (Nat × UInt8)) :
    machine.putAll bytes = { machine with memory := (machine.putAll bytes).memory } := by
  induction bytes generalizing machine with
  | nil => rfl
  | cons first rest ih => exact ih _

theorem byteAt_write (machine : Machine) (distance : Nat) (value : UInt8)
    (place : Fin memorySize) :
    (machine.write (machine.index + UInt16.ofNat distance) value).byteAt place =
      if place = cellPast machine.index distance then value else machine.byteAt place := by
  rw [← cell_add, ← cell_ofNat place]
  exact machine.read_write _ _ value

theorem byteAt_putAll_of_forall_ne {bytes : List (Nat × UInt8)} (machine : Machine)
    {place : Fin memorySize} (apart : ∀ byte ∈ bytes, place ≠ cellPast machine.index byte.1) :
    (machine.putAll bytes).byteAt place = machine.byteAt place := by
  induction bytes generalizing machine with
  | nil => rfl
  | cons first rest ih =>
      obtain ⟨other, others⟩ := List.forall_mem_cons.mp apart
      have later := ih (machine.write (machine.index + UInt16.ofNat first.1) first.2) others
      exact later.trans ((machine.byteAt_write _ _ place).trans (if_neg other))

theorem byteAt_putAll_of_mem {bytes : List (Nat × UInt8)} (machine : Machine)
    (distinct : (bytes.map Prod.fst).Nodup) (near : ∀ byte ∈ bytes, byte.1 < memorySize)
    {distance : Nat} {value : UInt8} (member : (distance, value) ∈ bytes) :
    (machine.putAll bytes).byteAt (cellPast machine.index distance) = value := by
  induction bytes generalizing machine with
  | nil => cases member
  | cons first rest ih =>
      obtain ⟨fresh, distinct⟩ := List.nodup_cons.mp distinct
      obtain ⟨firstNear, othersNear⟩ := List.forall_mem_cons.mp near
      let written := machine.write (machine.index + UInt16.ofNat first.1) first.2
      rcases List.mem_cons.mp member with rfl | member
      · -- No later byte is put into the first cell.
        have apart : ∀ byte ∈ rest, cellPast machine.index distance ≠
            cellPast written.index byte.1 := by
          intro byte inside same
          have equal := cellPast_injective machine.index firstNear (othersNear byte inside) same
          exact fresh (List.mem_map.mpr ⟨byte, inside, equal.symm⟩)
        have kept := written.byteAt_putAll_of_forall_ne apart
        exact kept.trans ((machine.byteAt_write _ _ _).trans (if_pos rfl))
      · exact ih written distinct othersNear member

/-! ## The instructions -/

theorem mem_registersUpTo {x r : Register} : r ∈ registersUpTo x ↔ r ≤ x := by
  simp [registersUpTo]

def registerBytes (machine : Machine) (x : Register) : List (Nat × UInt8) :=
  (registersUpTo x).map fun r => (r.val, machine.register r)

theorem storeRegisters_eq (machine : Machine) (x : Register) :
    machine.storeRegisters x = machine.putAll (machine.registerBytes x) := by
  -- No write changes a register, so all of them can be read beforehand.
  have ahead : ∀ (between : Machine), between.registers = machine.registers →
      (registersUpTo x).foldl
          (fun machine r =>
            machine.write (machine.index + UInt16.ofNat r.val) (machine.register r)) between =
        between.putAll (machine.registerBytes x) := by
    unfold registerBytes
    induction registersUpTo x with
    | nil => exact fun _ _ => rfl
    | cons first rest ih =>
        intro between same
        have value : between.register first = machine.register first :=
          congrArg (fun registers : Vector UInt8 16 => registers[first]) same
        rw [List.foldl_cons, value]
        exact ih (between.write (between.index + UInt16.ofNat first.val) _) same
  exact ahead machine rfl

theorem storeRegisters_eq_withMemory (machine : Machine) (x : Register) :
    machine.storeRegisters x = { machine with memory := (machine.storeRegisters x).memory } := by
  rw [storeRegisters_eq]
  exact machine.putAll_eq _

def decimalBytes (value : UInt8) : List (Nat × UInt8) :=
  [(0, value / 100), (1, value / 10 % 10), (2, value % 10)]

theorem storeDecimal_eq (machine : Machine) (x : Register) :
    machine.storeDecimal x = machine.putAll (decimalBytes (machine.register x)) := by
  have start : machine.index + UInt16.ofNat 0 = machine.index := UInt16.add_zero _
  simp only [putAll, decimalBytes, List.foldl_cons, List.foldl_nil, start]
  rfl

theorem nodup_registerBytes (machine : Machine) (x : Register) :
    ((machine.registerBytes x).map Prod.fst).Nodup := by
  have numbers : (machine.registerBytes x).map Prod.fst = (registersUpTo x).map Fin.val := by
    rw [registerBytes, List.map_map]
    rfl
  rw [numbers]
  exact ((List.nodup_finRange 16).filter _).map Fin.val_injective

theorem registerBytes_near (machine : Machine) (x : Register) :
    ∀ byte ∈ machine.registerBytes x, byte.1 < memorySize := by
  intro byte member
  obtain ⟨r, -, rfl⟩ := List.mem_map.mp member
  exact Nat.lt_trans r.isLt (by decide)

theorem byteAt_storeRegisters (machine : Machine) {x r : Register} (within : r ≤ x) :
    (machine.storeRegisters x).byteAt (cellPast machine.index r) = machine.register r := by
  rw [storeRegisters_eq]
  apply machine.byteAt_putAll_of_mem (machine.nodup_registerBytes x) (machine.registerBytes_near x)
  exact List.mem_map.mpr ⟨r, mem_registersUpTo.mpr within, rfl⟩

theorem byteAt_storeRegisters_of_forall_ne (machine : Machine) {x : Register}
    {place : Fin memorySize} (apart : ∀ r ≤ x, place ≠ cellPast machine.index r) :
    (machine.storeRegisters x).byteAt place = machine.byteAt place := by
  rw [storeRegisters_eq]
  apply machine.byteAt_putAll_of_forall_ne
  intro byte member
  obtain ⟨r, listed, rfl⟩ := List.mem_map.mp member
  exact apart r (mem_registersUpTo.mp listed)

theorem byteAt_storeDecimal_of_forall_ne (machine : Machine) (x : Register)
    {place : Fin memorySize} (apart : ∀ distance < 3, place ≠ cellPast machine.index distance) :
    (machine.storeDecimal x).byteAt place = machine.byteAt place := by
  rw [storeDecimal_eq]
  apply machine.byteAt_putAll_of_forall_ne
  simp only [decimalBytes, List.forall_mem_cons]
  exact ⟨apart 0 (by decide), apart 1 (by decide), apart 2 (by decide), by simp⟩

theorem byteAt_storeDecimal (machine : Machine) (x : Register) {distance : Nat} {digit : UInt8}
    (member : (distance, digit) ∈ decimalBytes (machine.register x)) :
    (machine.storeDecimal x).byteAt (cellPast machine.index distance) = digit := by
  rw [storeDecimal_eq]
  refine machine.byteAt_putAll_of_mem ?_ ?_ member
  · simp [decimalBytes]
  · simp [decimalBytes, memorySize]

theorem register_loadRegisters (machine : Machine) (x r : Register) :
    (machine.loadRegisters x).register r =
      if r ≤ x then machine.byteAt (cellPast machine.index r) else machine.register r := by
  have fetched : ∀ (between : Machine), between.memory = machine.memory →
      between.index = machine.index →
      ((registersUpTo x).foldl
          (fun machine r =>
            machine.setRegister r (machine.read (machine.index + UInt16.ofNat r.val)))
          between).register r =
        if r ∈ registersUpTo x then machine.byteAt (cellPast machine.index r)
        else between.register r := by
    induction registersUpTo x with
    | nil => exact fun _ _ _ => rfl
    | cons first rest ih =>
        intro between memory index
        have byte : between.read (between.index + UInt16.ofNat first.val) =
            machine.byteAt (cellPast machine.index first) := by
          rw [read_add, index]
          exact byteAt_of_memory memory _
        rw [List.foldl_cons, ih (between.setRegister first _) memory index, byte,
          register_setRegister]
        by_cases same : r = first
        · subst same
          simp
        · simp [same]
  have whole := fetched machine rfl rfl
  simp only [mem_registersUpTo] at whole
  exact whole

/-! ## There and back -/

theorem register_load_of_kept {earlier between : Machine} {x r : Register}
    (memory : between.memory = earlier.memory) (index : between.index = earlier.index)
    (within : r ≤ x) :
    (between.loadRegisters x).register r = earlier.byteAt (cellPast earlier.index r) := by
  rw [register_loadRegisters, if_pos within, index]
  exact byteAt_of_memory memory _

theorem memory_store_of_loaded {machine between : Machine} {x : Register}
    (memory : between.memory = machine.memory) (index : between.index = machine.index)
    (loaded : ∀ r ≤ x, between.register r = machine.byteAt (cellPast machine.index r)) :
    (between.storeRegisters x).memory = machine.memory := by
  have same : ∀ place, (between.storeRegisters x).byteAt place = machine.byteAt place := by
    intro place
    by_cases covered : ∃ r ≤ x, place = cellPast between.index r
    · obtain ⟨r, within, rfl⟩ := covered
      rw [between.byteAt_storeRegisters within, loaded r within, index]
    · have apart : ∀ r ≤ x, place ≠ cellPast between.index r :=
        fun r within equal => covered ⟨r, within, equal⟩
      have kept := between.byteAt_storeRegisters_of_forall_ne apart
      exact kept.trans (byteAt_of_memory memory place)
  apply Vector.ext
  intro place inside
  exact same ⟨place, inside⟩

theorem register_load_of_storeDecimal (machine : Machine) (x : Register) {between : Machine}
    (memory : between.memory = (machine.storeDecimal x).memory)
    (index : between.index = machine.index) {r : Register} {digit : UInt8} (within : r ≤ 2)
    (member : (r.val, digit) ∈ decimalBytes (machine.register x)) :
    (between.loadRegisters 2).register r = digit := by
  have written : (machine.storeDecimal x).byteAt (cellPast machine.index r) = digit :=
    machine.byteAt_storeDecimal x member
  rw [register_loadRegisters, if_pos within, index, ← written]
  exact byteAt_of_memory memory _

theorem decimalBytes_sum (value : UInt8) :
    value / 100 ≤ 9 ∧ value / 10 % 10 ≤ 9 ∧ value % 10 ≤ 9 ∧
      100 * (value / 100).toNat + 10 * (value / 10 % 10).toNat + (value % 10).toNat =
        value.toNat := by
  have small := value.toNat_lt
  simp only [UInt8.le_iff_toNat_le, UInt8.toNat_div, UInt8.toNat_mod, UInt8.reduceToNat]
  omega

end Machine

open Machine

variable {σ : Type} [ByteSource σ]

/-- Registers are stored at the cells from the index register on, around the end of memory,
and nowhere else. They are loaded again from there, bytes that were loaded are stored where
they came from, and the decimal digits of a register can be loaded one by one. -/
theorem transfers_give_back_bytes (machine : Machine) (source : σ) (x : Register) :
    let stored := (execute (.storeRegisters x) machine source).value.machine
    let loaded := (execute (.loadRegisters x) machine source).value.machine
    let decimal := (execute (.storeDecimal x) machine source).value.machine
    let digits := (execute (.loadRegisters 2) decimal source).value.machine
    ((∀ r ≤ x, stored.byteAt (cellPast machine.index r) = machine.register r) ∧
        (∀ place, (∀ r ≤ x, place ≠ cellPast machine.index r) →
          stored.byteAt place = machine.byteAt place) ∧
        stored = { machine with memory := stored.memory, pc := machine.pc + 2 }) ∧
      (∀ between : Machine, between.memory = stored.memory → between.index = stored.index →
        ∀ r ≤ x, (execute (.loadRegisters x) between source).value.machine.register r =
          machine.register r) ∧
      (execute (.storeRegisters x) loaded source).value.machine.memory = machine.memory ∧
      digits.register 0 ≤ 9 ∧ digits.register 1 ≤ 9 ∧ digits.register 2 ≤ 9 ∧
      100 * (digits.register 0).toNat + 10 * (digits.register 1).toNat +
        (digits.register 2).toNat = (machine.register x).toNat ∧
      (∀ r, 2 < r → digits.register r = machine.register r) ∧
      ∀ place, (∀ distance < 3, place ≠ cellPast machine.index distance) →
        digits.byteAt place = machine.byteAt place := by
  intro stored loaded decimal digits
  have index : stored.index = machine.index :=
    storeRegisters_keeps Machine.index (fun _ _ _ => rfl) machine x
  have loadedMemory : loaded.memory = machine.memory :=
    loadRegisters_keeps Machine.memory (fun _ _ _ => rfl) machine x
  have loadedIndex : loaded.index = machine.index :=
    loadRegisters_keeps Machine.index (fun _ _ _ => rfl) machine x
  have fetched : digits.registers = (decimal.loadRegisters 2).registers := rfl
  have kept : decimal.memory = (machine.storeDecimal x).memory := rfl
  have still : decimal.index = machine.index := rfl
  have digit : ∀ (r : Register) (digit : UInt8), r ≤ 2 →
      (r.val, digit) ∈ decimalBytes (machine.register x) → digits.register r = digit := by
    intro r digit within member
    have loaded := register_load_of_storeDecimal machine x kept still within member
    rwa [register, ← fetched] at loaded
  have hundreds := digit 0 (machine.register x / 100) (by decide) (by simp [decimalBytes])
  have tens := digit 1 (machine.register x / 10 % 10) (by decide) (by simp [decimalBytes])
  have ones := digit 2 (machine.register x % 10) (by decide) (by simp [decimalBytes])
  have sum := decimalBytes_sum (machine.register x)
  rw [← hundreds, ← tens, ← ones] at sum
  obtain ⟨hundredsSmall, tensSmall, onesSmall, sum⟩ := sum
  refine ⟨⟨?_, ?_, ?_⟩, ?_, ?_, hundredsSmall, tensSmall, onesSmall, sum, ?_, ?_⟩
  · exact fun r within => machine.byteAt_storeRegisters within
  · exact fun place apart => machine.byteAt_storeRegisters_of_forall_ne apart
  · have advanced : stored = (machine.storeRegisters x).advance false := rfl
    rw [advanced, storeRegisters_eq_withMemory]
    rfl
  · intro between memory sameIndex r within
    have fetched := register_load_of_kept memory sameIndex within
    rw [index] at fetched
    exact fetched.trans (machine.byteAt_storeRegisters within)
  · apply memory_store_of_loaded loadedMemory loadedIndex
    intro r within
    exact (machine.register_loadRegisters x r).trans (if_pos within)
  · intro r beyond
    exact (decimal.register_loadRegisters 2 r).trans (if_neg (Fin.not_le.mpr beyond))
  · intro place apart
    have kept : digits.byteAt place = decimal.byteAt place :=
      loadRegisters_keeps (·.byteAt place) (fun _ _ _ => rfl) decimal 2
    exact kept.trans (machine.byteAt_storeDecimal_of_forall_ne x apart)

/-- Four registers stored around the end of memory and fetched again after they were
cleared. -/
theorem transfers_give_back_bytes_around_end :
    let machine : Machine := {
      memory := Vector.replicate _ 0
      registers := (Vector.replicate _ 7).set 3 234
      index := 0xFFFE }
    let stored := (execute (.storeRegisters 3) machine Silence.mk).value.machine
    let cleared : Machine := { stored with registers := Vector.replicate _ 0 }
    let decimal := (execute (.storeDecimal 3) machine Silence.mk).value.machine
    let digits := (execute (.loadRegisters 2) decimal Silence.mk).value.machine
    (3 : Register) ≤ 3 ∧ stored.byteAt (cell 1) = 234 ∧
      (∀ r ≤ (3 : Register), cell 2 ≠ cellPast machine.index r) ∧
      stored.byteAt (cell 2) = 0 ∧
      cleared.memory = stored.memory ∧ cleared.index = stored.index ∧
      (execute (.loadRegisters 3) cleared Silence.mk).value.machine.register 3 = 234 ∧
      (2 : Register) < 4 ∧ digits.register 4 = 7 ∧
      (∀ distance < 3, cell 1 ≠ cellPast machine.index distance) ∧
      digits.byteAt (cell 1) = 0 := by
  intro machine stored cleared decimal digits
  obtain ⟨⟨written, unwritten, -⟩, restored, -, -, -, -, -, others, outside⟩ :=
    transfers_give_back_bytes machine Silence.mk 3
  have apart : ∀ r ≤ (3 : Register), cell 2 ≠ cellPast machine.index r := by decide
  have beyond : ∀ distance < 3, cell 1 ≠ cellPast machine.index distance := by decide
  have last : cell 1 = cellPast machine.index (3 : Register) := by decide
  refine ⟨by decide, ?_, apart, ?_, rfl, rfl, ?_, by decide, ?_, beyond, ?_⟩
  · rw [last]
    exact written 3 (by decide)
  · exact (unwritten (cell 2) apart).trans (by decide +kernel)
  · exact restored cleared rfl rfl 3 (by decide)
  · exact (others 4 (by decide)).trans (by decide)
  · exact (outside (cell 1) beyond).trans (by decide +kernel)

end Chip8

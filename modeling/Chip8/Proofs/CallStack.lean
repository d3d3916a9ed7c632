import Chip8.Proofs.Run
import Chip8.Random.Keystream
import Chip8.Snapshot

/-!
# Calls and their returns

An observer who sees which calls and returns are carried out can keep the places
of the open calls in a list. That list is what the stack of the machine holds,
and what a debugger shows of it, at any time of any run.
-/

set_option autoImplicit false

namespace Chip8

def Json.member? (json : Json) (name : String) : Option Json :=
  match json with
  | .object members => members.lookup (some name)
  | _ => none

/-- What an observer notes of the calls and returns in a run. -/
structure CallTrail where
  /-- Where the calls without a return were made, oldest first. -/
  sites : List UInt16 := []
  /-- The value that was last stored in the lowest stack slot. -/
  lowest : UInt16 := 0

namespace CallTrail

/-- Notes the cycle of a machine that reported the given fault, if any. -/
def record (trail : CallTrail) (machine : Machine) (fault : Option Fault) : CallTrail :=
  match Instruction.decode? machine.wordAtPc with
  | some (.call _) =>
      if fault = none then {
        sites := trail.sites ++ [machine.pc]
        lowest := if machine.sp = 0 then machine.pc else trail.lowest }
      else trail
  | some .ret => { trail with sites := trail.sites.dropLast }
  | _ => trail

/-- Open calls that are not ended stay where they are in the trail. -/
theorem prefix_record {trail : CallTrail} {head : List UInt16} (kept : head <+: trail.sites)
    (machine : Machine) (fault : Option Fault)
    (deep : head.length ≤ (trail.record machine fault).sites.length) :
    head <+: (trail.record machine fault).sites := by
  unfold record at deep ⊢
  cases decoded : Instruction.decode? machine.wordAtPc with
  | none => exact kept
  | some instruction =>
      rw [decoded] at deep
      cases instruction with
      | ret => exact List.prefix_of_prefix_length_le kept (List.dropLast_prefix _) deep
      | call target =>
          by_cases unhindered : fault = none
          · simp only [unhindered, ↓reduceIte]
            exact kept.trans (List.prefix_append _ _)
          · simp only [unhindered, ↓reduceIte]
            exact kept
      | _ => exact kept

/-- The stack of the machine holds just what the trail does. -/
structure Tracks (trail : CallTrail) (machine : Machine) : Prop where
  fits : trail.sites.length ≤ stackDepth
  sp : machine.sp.toNat = trail.sites.length
  slot : ∀ (depth : Nat) (inside : depth < trail.sites.length),
    machine.stack[depth]? = some trail.sites[depth]
  lowest : machine.stack[0]? = some trail.lowest

variable {trail : CallTrail} {machine later : Machine}

theorem tracks_withProgram (program : Array UInt8) :
    ({} : CallTrail).Tracks (Machine.withProgram program) where
  fits := Nat.zero_le _
  sp := rfl
  slot := by
    intro depth inside
    exact absurd inside (Nat.not_lt_zero depth)
  lowest := rfl

namespace Tracks

theorem of_same (tracks : trail.Tracks machine) (sp : later.sp = machine.sp)
    (stack : later.stack = machine.stack) : trail.Tracks later where
  fits := tracks.fits
  sp := by rw [sp, tracks.sp]
  slot := by
    intro depth inside
    rw [stack, tracks.slot depth inside]
  lowest := by rw [stack, tracks.lowest]

theorem of_pushed (tracks : trail.Tracks machine) (free : machine.sp.toNat < stackDepth)
    (sp : later.sp = machine.sp + 1)
    (stack : later.stack = machine.stack.set machine.sp.toNat machine.pc) :
    ({ sites := trail.sites ++ [machine.pc]
       lowest := if machine.sp = 0 then machine.pc else trail.lowest } : CallTrail).Tracks later where
  fits := by
    have count := tracks.sp
    simp only [List.length_append, List.length_singleton]
    omega
  sp := by
    have count := tracks.sp
    have one : (1 : UInt8).toNat = 1 := rfl
    simp only [sp, UInt8.toNat_add, List.length_append, List.length_singleton]
    unfold stackDepth at free
    omega
  slot := by
    intro depth inside
    rw [stack, Vector.getElem?_set]
    by_cases top : machine.sp.toNat = depth
    · simp [top, ← tracks.sp]
    · simp only [List.length_append, List.length_singleton] at inside
      have below : depth < trail.sites.length := by
        have count := tracks.sp
        omega
      rw [if_neg top, tracks.slot depth below, List.getElem_append_left below]
  lowest := by
    rw [stack, Vector.getElem?_set]
    by_cases empty : machine.sp = 0
    · simp [empty]
    · have used : ¬ machine.sp.toNat = 0 := fun zero => empty (UInt8.toNat_inj.mp zero)
      rw [if_neg used, if_neg empty, tracks.lowest]

theorem of_popped (tracks : trail.Tracks machine) (sp : later.sp = machine.popped.sp)
    (stack : later.stack = machine.stack) :
    ({ trail with sites := trail.sites.dropLast } : CallTrail).Tracks later where
  fits := by
    have bound := tracks.fits
    simp only [List.length_dropLast]
    omega
  sp := by rw [sp, Machine.toNat_sp_popped, tracks.sp, List.length_dropLast]
  slot := by
    intro depth inside
    have below : depth < trail.sites.length := by
      simp only [List.length_dropLast] at inside
      omega
    rw [stack, tracks.slot depth below, List.getElem_dropLast]
  lowest := by rw [stack, tracks.lowest]

variable {σ : Type} [ByteSource σ]

theorem cycle (tracks : trail.Tracks machine) (policy : UnknownOpcodePolicy) (source : σ) :
    (trail.record machine (cycle policy machine source).value.fault?).Tracks
      (Chip8.cycle policy machine source).value.machine := by
  have sp := sp_cycle policy machine source
  have stack := stack_cycle policy machine source
  rw [fault?_cycle, record]
  cases decoded : Instruction.decode? machine.wordAtPc with
  | none =>
      simp only [decoded] at sp stack
      exact tracks.of_same sp stack
  | some instruction =>
      simp only [decoded] at sp stack
      cases instruction with
      | ret => exact tracks.of_popped sp stack
      | call target =>
          by_cases free : machine.sp.toNat < stackDepth
          · simp only [free, ↓reduceIte, ↓reduceDIte] at sp stack ⊢
            exact tracks.of_pushed free sp stack
          · simp only [free, ↓reduceIte, ↓reduceDIte, reduceCtorEq] at sp stack ⊢
            exact tracks.of_same sp stack
      | _ => exact tracks.of_same sp stack

omit [ByteSource σ] in
theorem liveStack?_eq (tracks : trail.Tracks machine) :
    machine.liveStack? = some trail.sites := by
  have bound : machine.sp.toNat ≤ stackDepth := tracks.sp ▸ tracks.fits
  have live : machine.stack.toList.take machine.sp.toNat = trail.sites := by
    apply List.ext_getElem?
    intro depth
    rw [List.getElem?_take]
    by_cases inside : depth < trail.sites.length
    · rw [if_pos (tracks.sp ▸ inside), List.getElem?_eq_getElem inside, ← tracks.slot depth inside]
      simp
    · rw [if_neg (tracks.sp ▸ inside), List.getElem?_eq_none (Nat.le_of_not_lt inside)]
  rw [Machine.liveStack?, if_pos bound, live]

end Tracks

theorem Tracks.snapshot? {σ : Type} {console : Console σ} (tracks : trail.Tracks console.machine) :
    ∃ snapshot, console.snapshot? = some snapshot ∧ snapshot.stack = trail.sites ∧
      snapshot.toJson.member? "stack" =
        some (.array (trail.sites.map fun site => .natural site.toNat)) := by
  have live : console.processor.machine.liveStack? = some trail.sites := tracks.liveStack?_eq
  simp only [Console.snapshot?, live, Option.map_some]
  exact ⟨_, rfl, rfl, rfl⟩

/-! ## The next call or return -/

variable {σ : Type} [ByteSource σ]

/-- What the trail says of the next cycle. Every cycle gives a report, a call is
refused exactly on sixteen open calls, a return goes on just past the newest open
call, and one without an open call goes on past the lowest slot. -/
structure Foretells (trail : CallTrail) (policy : UnknownOpcodePolicy) (moment : Moment σ) :
    Prop where
  report : (moment.cycled policy).report.isSome = true
  call : ∀ target, Instruction.decode? moment.machine.wordAtPc = some (.call target) →
    (moment.cycled policy).fault? =
      if trail.sites.length = stackDepth then some (.stackOverflow moment.machine.pc target)
      else none
  ret : Instruction.decode? moment.machine.wordAtPc = some .ret →
    ∀ earlier site, trail.sites = earlier ++ [site] →
      (moment.cycled policy).machine.pc = site + 2
  bottom : Instruction.decode? moment.machine.wordAtPc = some .ret → trail.sites = [] →
    (moment.cycled policy).machine.sp = 0 ∧ (moment.cycled policy).machine.pc = trail.lowest + 2

theorem Tracks.foretells {moment : Moment σ} (tracks : trail.Tracks moment.machine)
    (policy : UnknownOpcodePolicy) : trail.Foretells policy moment := by
  have bound : moment.machine.sp.toNat ≤ stackDepth := tracks.sp ▸ tracks.fits
  have inside : moment.machine.popped.sp.toNat < stackDepth := Machine.toNat_sp_popped_lt bound
  have depth : moment.machine.popped.sp.toNat = trail.sites.length - 1 := by
    rw [Machine.toNat_sp_popped, tracks.sp]
  refine ⟨report_cycle_isSome policy _ _ inside, ?_, ?_, ?_⟩
  · intro target decoded
    have count := tracks.sp
    have fits := tracks.fits
    rw [Moment.cycled, fault?_cycle, decoded]
    by_cases full : trail.sites.length = stackDepth
    · have taken : ¬ moment.machine.sp.toNat < stackDepth := by omega
      simp only [full, taken, ↓reduceIte]
    · have free : moment.machine.sp.toNat < stackDepth := by omega
      simp only [full, free, ↓reduceIte]
  · intro decoded earlier site newest
    have slot : moment.machine.stack[moment.machine.popped.sp.toNat]? = some site := by
      have top : trail.sites.length - 1 < trail.sites.length := by simp [newest]
      rw [depth, tracks.slot _ top]
      simp [newest]
    rw [Vector.getElem?_eq_getElem inside] at slot
    rw [Moment.cycled, pc_cycle_ret policy _ _ decoded inside, Option.some.inj slot]
  · intro decoded empty
    have zero : moment.machine.popped.sp.toNat = 0 := by simp [depth, empty]
    have slot : moment.machine.stack[moment.machine.popped.sp.toNat]? = some trail.lowest := by
      rw [zero, tracks.lowest]
    rw [Vector.getElem?_eq_getElem inside] at slot
    refine ⟨?_, ?_⟩
    · rw [Moment.cycled, sp_cycle, decoded]
      exact UInt8.toNat_inj.mp zero
    · rw [Moment.cycled, pc_cycle_ret policy _ _ decoded inside, Option.some.inj slot]

end CallTrail

/-! ## Runs -/

namespace Moment

variable {σ : Type} [ByteSource σ] (policy : UnknownOpcodePolicy) (keys : Nat → Keypad → Keypad)
  (moment : Moment σ)

/-- The trail of the cycles before the one with a number. -/
def trail : Nat → CallTrail
  | 0 => {}
  | count + 1 =>
      let earlier := moment.after policy keys count
      (trail count).record earlier.machine (earlier.cycled policy).fault?

/-- The return in one cycle ends the call made in another: the call was carried
out, and up to the return there were always more open calls than before it. -/
structure Matched (first last : Nat) : Prop where
  called : ∃ target,
    Instruction.decode? (moment.after policy keys first).machine.wordAtPc = some (.call target)
  accepted : ((moment.after policy keys first).cycled policy).fault? = none
  before : first < last
  inside : ∀ between, first < between → between ≤ last →
    (moment.trail policy keys first).sites.length < (moment.trail policy keys between).sites.length
  returned : Instruction.decode? (moment.after policy keys last).machine.wordAtPc = some .ret
  level : (moment.trail policy keys last).sites.length =
    (moment.trail policy keys first).sites.length + 1

variable {policy keys moment}

theorem tracks_after (start : ({} : CallTrail).Tracks moment.machine) (count : Nat) :
    (moment.trail policy keys count).Tracks (moment.after policy keys count).machine := by
  induction count with
  | zero => exact start.of_same rfl rfl
  | succ count ih =>
      have cycled := ih.cycle policy (moment.after policy keys count).source
      exact cycled.of_same rfl rfl

/-- Calls and returns inside a call leave the open calls below them alone. -/
theorem Matched.prefix_trail {first last : Nat} (matched : moment.Matched policy keys first last)
    {between : Nat} (begun : first < between) (unended : between ≤ last) :
    (moment.trail policy keys first).sites ++ [(moment.after policy keys first).machine.pc] <+:
      (moment.trail policy keys between).sites := by
  induction between with
  | zero => exact absurd begun (Nat.not_lt_zero first)
  | succ between ih =>
      -- Up to the return there are more open calls than before, so the site is not taken off.
      rcases Nat.lt_succ_iff_lt_or_eq.mp begun with later | rfl
      · have deep := matched.inside (between + 1) begun unended
        refine CallTrail.prefix_record (ih later (by omega)) _ _ ?_
        rw [List.length_append, List.length_singleton]
        exact deep
      · obtain ⟨target, decoded⟩ := matched.called
        simp only [trail, CallTrail.record, decoded, matched.accepted, ↓reduceIte]
        exact List.prefix_refl _

theorem Matched.pc_eq {first last : Nat} (start : ({} : CallTrail).Tracks moment.machine)
    (matched : moment.Matched policy keys first last) :
    ((moment.after policy keys last).cycled policy).machine.pc =
      (moment.after policy keys first).machine.pc + 2 := by
  have reached := matched.prefix_trail matched.before (Nat.le_refl last)
  have whole := reached.eq_of_length (by simp [matched.level])
  exact ((tracks_after start last).foretells policy).ret matched.returned _ _ whole.symm

theorem matched_empty_subroutine (policy : UnknownOpcodePolicy) {machine : Machine}
    {target : UInt16} (source : σ) (empty : machine.sp = 0)
    (called : Instruction.decode? machine.wordAtPc = some (.call target))
    (returned : Instruction.decode? ({ machine with pc := target } : Machine).wordAtPc = some .ret) :
    ({ machine, source } : Moment σ).Matched policy (fun _ keys => keys) 0 1 := by
  have free : machine.sp.toNat < stackDepth := by
    rw [empty]
    decide
  have fault := fault?_cycle policy machine source
  simp only [called, free, ↓reduceIte] at fault
  have sites : (({ machine, source } : Moment σ).trail policy (fun _ keys => keys) 1).sites =
      [machine.pc] := by
    have noted : ({ machine, source } : Moment σ).trail policy (fun _ keys => keys) 1 =
        ({} : CallTrail).record machine (cycle policy machine source).value.fault? := rfl
    rw [noted, CallTrail.record, called, fault]
    rfl
  refine ⟨⟨target, called⟩, fault, Nat.zero_lt_one, ?_, ?_, ?_⟩
  · intro between begun unended
    have same : between = 1 := Nat.le_antisymm unended begun
    rw [same, sites]
    exact Nat.zero_lt_one
  · rw [machine_after_call policy source called free]
    exact returned
  · rw [sites]
    rfl

/-- In every run of a machine that was just loaded, whatever keys its host presses,
the stack holds the sites of the open calls, calls and returns go by them, a
debugger shows them, and every return goes on just past the call that it ends. -/
theorem stack_holds_open_calls (policy : UnknownOpcodePolicy) (keys : Nat → Keypad → Keypad)
    (source : σ) (before machine : Machine) (program : Array UInt8)
    (loaded : (before.load program).value = .ok machine) :
    let start : Moment σ := { machine, source }
    (∀ count,
      let now := start.after policy keys count
      let trail := start.trail policy keys count
      trail.Tracks now.machine ∧ trail.Foretells policy now ∧
        ∀ console : Console σ, console.machine = now.machine →
          ∃ snapshot, console.snapshot? = some snapshot ∧ snapshot.stack = trail.sites ∧
            snapshot.toJson.member? "stack" =
              some (.array (trail.sites.map fun site => .natural site.toNat))) ∧
    ∀ first last, start.Matched policy keys first last →
      ((start.after policy keys last).cycled policy).machine.pc =
        (start.after policy keys first).machine.pc + 2 := by
  intro start
  obtain ⟨-, fresh⟩ := (Machine.value_load_eq_ok_iff program before machine).mp loaded
  have tracks : ({} : CallTrail).Tracks start.machine := by
    subst fresh
    exact CallTrail.tracks_withProgram program
  refine ⟨?_, fun first last matched => matched.pc_eq tracks⟩
  intro count now trail
  have current : trail.Tracks now.machine := tracks_after tracks count
  refine ⟨current, current.foretells policy, ?_⟩
  intro console same
  exact CallTrail.Tracks.snapshot? (same ▸ current)

/-- A program that calls a subroutine, which returns at once, over and over. -/
theorem stack_holds_open_calls_of_subroutine :
    let program : Array UInt8 := #[0x22, 0x04, 0x12, 0x00, 0x00, 0xEE]
    let start : Moment Keystream :=
      { machine := Machine.withProgram program, source := Keystream.ofSeed 0 }
    (Machine.powerOn.load program).value = .ok start.machine ∧
      start.Matched .stall (fun _ keys => keys) 0 1 ∧
      ((start.after .stall (fun _ keys => keys) 1).cycled .stall).machine.pc =
        (start.after .stall (fun _ keys => keys) 0).machine.pc + 2 := by
  have loaded : (Machine.powerOn.load #[0x22, 0x04, 0x12, 0x00, 0x00, 0xEE]).value =
      .ok (Machine.withProgram #[0x22, 0x04, 0x12, 0x00, 0x00, 0xEE]) := by
    rw [Machine.value_load, if_pos (by decide)]
  have called : Instruction.decode?
      (Machine.withProgram #[0x22, 0x04, 0x12, 0x00, 0x00, 0xEE]).wordAtPc =
        some (.call 0x204) :=
    Machine.decode?_of_loaded rfl (by decide)
  have returned : Instruction.decode?
      ({ Machine.withProgram #[0x22, 0x04, 0x12, 0x00, 0x00, 0xEE] with pc := 0x204 } :
        Machine).wordAtPc = some .ret := by
    apply Machine.decode?_of_loaded
    · exact rfl
    · decide
  have matched := matched_empty_subroutine .stall (Keystream.ofSeed 0) rfl called returned
  have held := stack_holds_open_calls .stall (fun _ keys => keys) (Keystream.ofSeed 0) _ _ _ loaded
  exact ⟨loaded, matched, held.2 0 1 matched⟩

end Moment
end Chip8

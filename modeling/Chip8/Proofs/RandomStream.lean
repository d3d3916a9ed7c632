import Chip8.Proofs.FreshStart

/-!
# The order of random bytes

The bytes of a seed's stream go to the random instructions of a session one after
the other, and to nothing else. So under two seeds whose streams begin with the same
bytes a session goes the same way until these bytes are used up.
-/

set_option autoImplicit false

namespace Chip8

variable {σ : Type}

/-! ## Sources -/

namespace ByteSource

variable [ByteSource σ] {one other : σ}

def AgreeFor (count : Nat) (one other : σ) : Prop :=
  ∀ position < count, byteAt one position = byteAt other position

instance (count : Nat) : Decidable (AgreeFor count one other) :=
  inferInstanceAs (Decidable (∀ position < count, byteAt one position = byteAt other position))

theorem AgreeFor.draw {count : Nat} (agree : AgreeFor (count + 1) one other) :
    (ByteSource.draw one).1 = (ByteSource.draw other).1 ∧
      AgreeFor count (ByteSource.draw one).2 (ByteSource.draw other).2 := by
  refine ⟨agree 0 (Nat.succ_pos count), ?_⟩
  intro position before
  exact agree (position + 1) (Nat.succ_lt_succ before)

end ByteSource

section Cycles

variable [ByteSource σ] (policy : UnknownOpcodePolicy) (machine : Machine) (source other : σ)

/-- The report of a cycle does not depend on the source, not even on the byte it takes. -/
theorem report_cycle_of_source :
    (cycle policy machine other).value.report = (cycle policy machine source).value.report := by
  cases drawn : machine.drawsRandom with
  | false => rw [value_cycle_of_quiet policy drawn source other]
  | true =>
      obtain ⟨x, mask, decoded⟩ := machine.drawsRandom_eq_true_iff.mp drawn
      rw [value_cycle_random policy other decoded, value_cycle_random policy source decoded]

theorem machine_cycle_of_same_byte
    (same : machine.drawsRandom = true → (ByteSource.draw source).1 = (ByteSource.draw other).1) :
    (cycle policy machine other).value.machine = (cycle policy machine source).value.machine := by
  cases drawn : machine.drawsRandom with
  | false => rw [value_cycle_of_quiet policy drawn source other]
  | true =>
      obtain ⟨x, mask, decoded⟩ := machine.drawsRandom_eq_true_iff.mp drawn
      rw [value_cycle_random policy other decoded, value_cycle_random policy source decoded,
        same drawn]

end Cycles

variable [SeededSource σ]

namespace Processor

/-! ## The cycles of a run -/

theorem source_cycle (processor : Processor σ) :
    processor.cycle.value.2.source =
      if processor.machine.drawsRandom then (ByteSource.draw processor.source).2
      else processor.source := by
  rw [← Chip8.source_cycle processor.policy]
  simp only [cycle, Logged.value_bind]
  split <;> rfl

/-- The processor before each of a number of cycles. -/
def path (processor : Processor σ) (count : Nat) : List (Processor σ) :=
  (List.range count).map fun done => (run done processor).value.2

def drawCount (cycles : List (Processor σ)) : Nat :=
  cycles.countP fun processor => processor.machine.drawsRandom

omit [SeededSource σ] in
theorem drawCount_singleton (processor : Processor σ) :
    drawCount [processor] = if processor.machine.drawsRandom then 1 else 0 := by
  rw [drawCount, List.countP_cons, List.countP_nil, Nat.zero_add]

omit [SeededSource σ] in
theorem drawCount_append (cycles rest : List (Processor σ)) :
    drawCount (cycles ++ rest) = drawCount cycles + drawCount rest := List.countP_append

omit [SeededSource σ] in
theorem drawCount_cons (processor : Processor σ) (rest : List (Processor σ)) :
    drawCount (processor :: rest) = drawCount [processor] + drawCount rest :=
  drawCount_append [processor] rest

theorem path_succ {processor : Processor σ} (bound : processor.machine.sp.toNat ≤ stackDepth)
    (count : Nat) :
    processor.path (count + 1) = processor :: processor.cycle.value.2.path count := by
  simp only [path, List.range_succ_eq_map, List.map_cons, List.map_map, run_zero,
    Logged.value_pure, List.cons.injEq, true_and]
  apply List.map_congr_left
  intro done _
  exact congrArg Prod.snd (value_run_succ bound done)

/-- Cycles that follow upon one another as far as their sources go, from a source to
the one that is left at the end. -/
inductive Draws : σ → List (Processor σ) → σ → Prop
  | done (source : σ) : Draws source [] source
  | cycle (processor : Processor σ) {rest : List (Processor σ)} {final : σ}
      (later : Draws processor.cycle.value.2.source rest final) :
      Draws processor.source (processor :: rest) final

namespace Draws

variable {source middle final : σ} {cycles rest : List (Processor σ)}

theorem append (first : Draws source cycles middle) (second : Draws middle rest final) :
    Draws source (cycles ++ rest) final := by
  induction first with
  | done => exact second
  | cycle processor _ ih => exact .cycle processor (ih second)

theorem final_eq (draws : Draws source cycles final) :
    final = ByteSource.after source (drawCount cycles) := by
  induction draws with
  | done => rfl
  | cycle processor later ih =>
      rw [source_cycle] at ih
      rw [ih, drawCount_cons, drawCount_singleton, Nat.add_comm]
      cases processor.machine.drawsRandom with
      | false => rfl
      | true => rfl

theorem take (draws : Draws source cycles final) (count : Nat) (inside : count < cycles.length) :
    Draws source (cycles.take count) cycles[count].source := by
  induction draws generalizing count with
  | done => exact absurd inside (Nat.not_lt_zero count)
  | cycle processor later ih =>
      cases count with
      | zero => exact .done processor.source
      | succ count => exact .cycle processor (ih count (Nat.lt_of_succ_lt_succ inside))

end Draws

theorem draws_path {processor : Processor σ} (bound : processor.machine.sp.toNat ≤ stackDepth)
    (count : Nat) :
    Draws processor.source (processor.path count) (run count processor).value.2.source := by
  induction count generalizing processor with
  | zero => exact .done processor.source
  | succ count ih =>
      rw [path_succ bound, value_run_succ bound]
      exact .cycle processor (ih (bounded_cycle bound).2)

/-! ## Two runs -/

def reseeded (processor : Processor σ) (source : σ) (seed : Option UInt64) : Processor σ :=
  { processor with source, seed }

/-- Processors that differ in nothing but their seeds and sources, which yield the same
bytes for a while. -/
structure Twin (budget : Nat) (one other : Processor σ) : Prop where
  apart : other = one.reseeded other.source other.seed
  ahead : ByteSource.AgreeFor budget one.source other.source

namespace Twin

variable {budget : Nat} {one other : Processor σ}

theorem machine_eq (twin : Twin budget one other) : other.machine = one.machine := by
  rw [twin.apart]
  rfl

theorem withMachine (twin : Twin budget one other) (machine : Machine) :
    Twin budget { one with machine } { other with machine } where
  apart := by
    rw [twin.apart]
    rfl
  ahead := twin.ahead

theorem report_eq (twin : Twin budget one other) : other.cycle.value.1 = one.cycle.value.1 := by
  rw [report_cycle, report_cycle, twin.apart]
  exact report_cycle_of_source one.policy one.machine one.source other.source

/-- The bytes that a cycle may take have to be among those that agree. -/
theorem cycle (twin : Twin budget one other) (enough : drawCount [one] ≤ budget) :
    Twin (budget - drawCount [one]) one.cycle.value.2 other.cycle.value.2 := by
  obtain ⟨apart, ahead⟩ := twin
  -- The other processor is the first one under a source and a seed of its own.
  generalize other.source = source at apart ahead
  generalize other.seed = seed at apart
  subst apart
  rw [drawCount_singleton] at enough ⊢
  have byte : one.machine.drawsRandom = true →
      (ByteSource.draw one.source).1 = (ByteSource.draw source).1 := by
    intro drawn
    rw [drawn] at enough
    exact ahead 0 (Nat.lt_of_lt_of_le Nat.zero_lt_one enough)
  refine ⟨?_, ?_⟩
  · have report := report_cycle_of_source one.policy one.machine one.source source
    have machine := machine_cycle_of_same_byte one.policy one.machine one.source source byte
    simp only [Processor.cycle, reseeded, Logged.value_bind, report, machine]
    split <;> rfl
  · rw [source_cycle, source_cycle]
    have same : (one.reseeded source seed).machine = one.machine := rfl
    rw [same]
    cases drawn : one.machine.drawsRandom with
    | false => exact ahead
    | true =>
        rw [drawn] at enough
        obtain ⟨left, rfl⟩ := Nat.exists_eq_add_of_le enough
        rw [Nat.add_comm] at ahead
        simpa [drawn, reseeded] using ahead.draw.2

theorem unchecked (twin : Twin budget one other) : Twin 0 one other where
  apart := twin.apart
  ahead := fun position before => absurd before (Nat.not_lt_zero position)

end Twin

/-- Cycles of two runs that differ in nothing but seeds and sources, for as long as no
more bytes are used up than the budget allows. -/
inductive Alike : Nat → List (Processor σ) → List (Processor σ) → Prop
  | done (budget : Nat) : Alike budget [] []
  | cycle {budget : Nat} {one other : Processor σ} {rest otherRest : List (Processor σ)}
      (twin : Twin 0 one other)
      (later : drawCount [one] ≤ budget → Alike (budget - drawCount [one]) rest otherRest) :
      Alike budget (one :: rest) (other :: otherRest)

namespace Alike

variable {budget : Nat} {cycles otherCycles rest otherRest : List (Processor σ)}

theorem append (first : Alike budget cycles otherCycles)
    (second : drawCount cycles ≤ budget → Alike (budget - drawCount cycles) rest otherRest) :
    Alike budget (cycles ++ rest) (otherCycles ++ otherRest) := by
  induction first with
  | done budget => exact second (Nat.zero_le budget)
  | cycle twin later ih =>
      refine .cycle twin fun enough => ih enough ?_
      intro more
      rw [drawCount_cons, ← Nat.sub_sub] at second
      exact second (by omega)

theorem getElem?_eq (alike : Alike budget cycles otherCycles) (count : Nat)
    (unspent : drawCount (cycles.take count) ≤ budget) :
    (cycles[count]?.map fun processor => (processor.machine, processor.cycle.value.1)) =
      otherCycles[count]?.map fun processor => (processor.machine, processor.cycle.value.1) := by
  induction alike generalizing count with
  | done => rfl
  | cycle twin later ih =>
      cases count with
      | zero => simp only [List.getElem?_cons_zero, Option.map_some, twin.machine_eq, twin.report_eq]
      | succ count =>
          rw [List.take_succ_cons, drawCount_cons] at unspent
          exact ih (by omega) count (by omega)

end Alike

theorem Twin.run {budget : Nat} {one other : Processor σ} (twin : Twin budget one other)
    (bound : one.machine.sp.toNat ≤ stackDepth) (count : Nat) :
    Alike budget (one.path count) (other.path count) ∧
      (drawCount (one.path count) ≤ budget →
        Twin (budget - drawCount (one.path count)) (run count one).value.2
          (run count other).value.2) := by
  -- Each cycle hands on what it leaves of the budget, so the budget varies.
  induction count generalizing budget one other with
  | zero => exact ⟨.done budget, fun _ => twin⟩
  | succ count ih =>
      have otherBound : other.machine.sp.toNat ≤ stackDepth := twin.machine_eq ▸ bound
      have next := (bounded_cycle bound).2
      rw [path_succ bound, path_succ otherBound, value_run_succ bound, value_run_succ otherBound,
        drawCount_cons]
      refine ⟨.cycle twin.unchecked fun enough => (ih (twin.cycle enough) next).1, ?_⟩
      intro enough
      rw [← Nat.sub_sub]
      exact (ih (twin.cycle (by omega)) next).2 (by omega)

end Processor

/-! ## Sessions -/

/-- Requests under which a program that was started runs on. Asking for the settings is
left out because they tell the seed. -/
def Request.Plays : Request → Prop
  | .mount .. | .unmount .. | .reset | .settings | .poke _ => False
  | _ => True

theorem Request.Plays.not_isPoke {request : Request} (plays : request.Plays) : ¬ request.IsPoke := by
  cases request with
  | poke change => exact plays.elim
  | _ => exact not_false

namespace Console

open Processor (drawCount)

def cyclesOf (console : Console σ) (request : Request) : Nat :=
  match request with
  | .stepFrame => if console.program.isNone then 0 else console.config.cyclesPerFrame.toNat
  | .stepCycle => 1
  | _ => 0

/-- The processor before each cycle of a session. -/
def cycles (console : Console σ) (requests : List Request) : List (Processor σ) :=
  match requests with
  | [] => []
  | request :: rest =>
      console.processor.path (console.cyclesOf request) ++
        (console.perform request).value.2.cycles rest

variable {console : Console σ}

theorem source_perform {request : Request} (plays : request.Plays) :
    (console.perform request).value.2.processor.source =
      (console.processor.run (console.cyclesOf request)).value.2.source := by
  cases request with
  | stepFrame =>
      simp only [perform, Logged.value_bind, Logged.value_pure, value_stepFrame, cyclesOf]
      cases console.program.isNone with
      | true => rfl
      | false =>
          simp only [Bool.false_eq_true, ↓reduceIte]
          split <;> rfl
  | stepCycle =>
      simp only [cyclesOf, Processor.run_succ, Logged.value_bind]
      split <;> rfl
  | mount | unmount | reset | settings | poke => exact plays.elim
  | _ => rfl

theorem draws_cycles (requests : List Request) (playing : ∀ request ∈ requests, request.Plays)
    {console : Console σ} (sound : console.Sound) :
    Processor.Draws console.processor.source (console.cycles requests)
      (console.session requests).value.2.processor.source := by
  induction requests generalizing console with
  | nil => exact .done console.processor.source
  | cons request rest ih =>
      obtain ⟨plays, remaining⟩ := List.forall_mem_cons.mp playing
      have later := ih remaining (sound.after plays.not_isPoke)
      rw [source_perform plays] at later
      exact (Processor.draws_path sound.machine.sp_le (console.cyclesOf request)).append later

structure Twin (budget : Nat) (one other : Console σ) : Prop where
  processor : one.processor.Twin budget other.processor
  apart : other = { one with
    processor := other.processor
    config := { one.config with seed := other.config.seed } }

namespace Twin

variable {budget : Nat} {one other : Console σ}

theorem cyclesOf_eq (twin : Twin budget one other) (request : Request) :
    other.cyclesOf request = one.cyclesOf request := by
  rw [twin.apart]
  rfl

theorem stepCycle (twin : Twin budget one other)
    (enough : drawCount [one.processor] ≤ budget) :
    other.stepCycle.value.1 = one.stepCycle.value.1 ∧
      Twin (budget - drawCount [one.processor]) one.stepCycle.value.2 other.stepCycle.value.2 := by
  refine ⟨twin.processor.report_eq, twin.processor.cycle enough, ?_⟩
  rw [twin.apart]
  rfl

theorem stepFrame (twin : Twin budget one other) (bound : one.machine.sp.toNat ≤ stackDepth)
    (enough : drawCount (one.processor.path (one.cyclesOf .stepFrame)) ≤ budget) :
    other.stepFrame.value.1 = one.stepFrame.value.1 ∧
      Twin (budget - drawCount (one.processor.path (one.cyclesOf .stepFrame)))
        one.stepFrame.value.2 other.stepFrame.value.2 := by
  have program : other.program = one.program := by rw [twin.apart]
  have count : other.config.cyclesPerFrame = one.config.cyclesPerFrame := by rw [twin.apart]
  rw [value_stepFrame, value_stepFrame, program, count]
  cases empty : one.program.isNone with
  | true =>
      simp only [cyclesOf, empty, ↓reduceIte]
      exact ⟨trivial, twin⟩
  | false =>
      have otherBound : other.processor.machine.sp.toNat ≤ stackDepth :=
        twin.processor.machine_eq ▸ bound
      have finished := (Processor.bounded_run bound one.config.cyclesPerFrame.toNat).1
      have otherFinished := (Processor.bounded_run otherBound one.config.cyclesPerFrame.toNat).1
      simp only [cyclesOf, empty, Bool.false_eq_true, ↓reduceIte] at enough ⊢
      rw [if_pos finished, if_pos otherFinished]
      have ran := (twin.processor.run bound one.config.cyclesPerFrame.toNat).2 enough
      have machine := ran.machine_eq
      refine ⟨?_, ?_, ?_⟩
      · exact congrArg Except.ok (render_congr machine)
      · simp only [withMachine, Console.machine, machine]
        exact ran.withMachine _
      · rw [twin.apart]
        rfl

theorem perform (twin : Twin budget one other) (bound : one.machine.sp.toNat ≤ stackDepth)
    {request : Request} (plays : request.Plays)
    (enough : drawCount (one.processor.path (one.cyclesOf request)) ≤ budget) :
    (other.perform request).value.1 = (one.perform request).value.1 ∧
      Twin (budget - drawCount (one.processor.path (one.cyclesOf request)))
        (one.perform request).value.2 (other.perform request).value.2 := by
  cases request with
  | mount | unmount | reset | settings | poke => exact plays.elim
  | stepFrame =>
      obtain ⟨answer, next⟩ := twin.stepFrame bound enough
      exact ⟨congrArg Answer.frame answer, next⟩
  | stepCycle =>
      obtain ⟨answer, next⟩ := twin.stepCycle enough
      exact ⟨congrArg Answer.report answer, next⟩
  | _ =>
      -- No cycle runs, and the answer shows neither the seed nor the source.
      obtain ⟨⟨same, ahead⟩, apart⟩ := twin
      generalize other.processor = processor at same ahead apart
      generalize other.config.seed = seed at apart
      subst apart
      rw [same]
      exact ⟨rfl, ⟨rfl, ahead⟩, rfl⟩

/-- Twins stay alike in every cycle, and answer alike as long as the bytes suffice. -/
theorem session (requests : List Request) (playing : ∀ request ∈ requests, request.Plays)
    (twin : Twin budget one other) (sound : one.Sound) :
    Processor.Alike budget (one.cycles requests) (other.cycles requests) ∧
      (drawCount (one.cycles requests) ≤ budget →
        (other.session requests).value.1 = (one.session requests).value.1 ∧
          Twin (budget - drawCount (one.cycles requests)) (one.session requests).value.2
            (other.session requests).value.2) := by
  induction requests generalizing budget one other with
  | nil => exact ⟨.done budget, fun _ => ⟨rfl, twin⟩⟩
  | cons request rest ih =>
      obtain ⟨plays, remaining⟩ := List.forall_mem_cons.mp playing
      have bound := sound.machine.sp_le
      have next := sound.after plays.not_isPoke
      have alike := (twin.processor.run bound (one.cyclesOf request)).1
      simp only [cycles, twin.cyclesOf_eq, Processor.drawCount_append]
      refine ⟨alike.append fun enough =>
        (ih remaining (twin.perform bound plays enough).2 next).1, ?_⟩
      intro enough
      obtain ⟨answer, reached⟩ := twin.perform bound plays (by omega)
      obtain ⟨answers, final⟩ := (ih remaining reached next).2 (by omega)
      simp only [value_session_cons, answer, answers, true_and]
      rw [← Nat.sub_sub]
      exact final

end Twin

/-- In a session the bytes of a stream go to the random instructions, one after the
other, and no other cycle, nor anything between the cycles, takes or sees a byte. -/
structure DrawsInOrder (stream : σ) (console : Console σ) (requests : List Request) : Prop where
  random : ∀ (number : Nat) (inside : number < (console.cycles requests).length) (x : Register)
    (mask : UInt8),
    Instruction.decode? (console.cycles requests)[number].machine.wordAtPc =
        some (.random x mask) →
      (console.cycles requests)[number].cycle.value.2.machine.register x =
        ByteSource.byteAt stream (drawCount ((console.cycles requests).take number)) &&& mask
  quiet : ∀ now ∈ console.cycles requests, now.machine.drawsRandom = false → ∀ other : σ,
    (cycle now.policy now.machine other).value =
      { (cycle now.policy now.machine now.source).value with source := other }
  source : ∀ (number : Nat) (inside : number < (console.cycles requests).length),
    (console.cycles requests)[number].source =
      ByteSource.after stream (drawCount ((console.cycles requests).take number))
  final : (console.session requests).value.2.processor.source =
    ByteSource.after stream (drawCount (console.cycles requests))

/-- Two sessions are the same up to the cycle that takes the first byte beyond a
budget: in the machine before each cycle and its report, and in the answers to the
requests that the budget lasts for. -/
structure AgreesUntil (budget : Nat) (one other : Console σ) (requests : List Request) : Prop where
  cycles : ∀ number, drawCount ((one.cycles requests).take number) ≤ budget →
    ((one.cycles requests)[number]?.map fun now => (now.machine, now.cycle.value.1)) =
      (other.cycles requests)[number]?.map fun now => (now.machine, now.cycle.value.1)
  answers : ∀ done, drawCount (one.cycles (requests.take done)) ≤ budget →
    (one.session (requests.take done)).value.1 = (other.session (requests.take done)).value.1 ∧
      (one.session (requests.take done)).value.2.machine =
        (other.session (requests.take done)).value.2.machine

theorem drawsInOrder (sound : console.Sound) (requests : List Request)
    (playing : ∀ request ∈ requests, request.Plays) :
    console.DrawsInOrder console.processor.source requests := by
  have draws := draws_cycles requests playing sound
  have source : ∀ (number : Nat) (inside : number < (console.cycles requests).length),
      (console.cycles requests)[number].source = ByteSource.after console.processor.source
        (drawCount ((console.cycles requests).take number)) :=
    fun number inside => (draws.take number inside).final_eq
  refine ⟨?_, ?_, source, draws.final_eq⟩
  · intro number inside x mask decoded
    rw [Processor.machine_cycle, value_cycle_random _ _ decoded, source number inside]
    exact (Machine.register_setRegister _ x x _).trans (if_pos rfl)
  · intro now _ quiet other
    exact value_cycle_of_quiet now.policy quiet now.source other

theorem Twin.agreesUntil {budget : Nat} {one other : Console σ} (twin : Twin budget one other)
    (sound : one.Sound) (requests : List Request)
    (playing : ∀ request ∈ requests, request.Plays) : one.AgreesUntil budget other requests := by
  refine ⟨(twin.session requests playing sound).1.getElem?_eq, ?_⟩
  intro done enough
  have playingFirst : ∀ request ∈ requests.take done, request.Plays :=
    fun request member => playing request (List.mem_of_mem_take member)
  obtain ⟨same, final⟩ := (twin.session _ playingFirst sound).2 enough
  exact ⟨same.symm, final.processor.machine_eq.symm⟩

theorem source_startedOver {config : Config} {seed : UInt64} (seeded : config.seed = some seed)
    (unseeded : σ) (program : Option (Array UInt8)) :
    ((Console.new config unseeded).startedOver program).processor.source =
      SeededSource.ofSeed seed := by
  simp only [startedOver, Processor.restart, Console.new, Processor.new, seeded]
  rfl

theorem twin_startedOver {config : Config} {seed otherSeed : UInt64}
    (seeded : config.seed = some seed) {budget : Nat}
    (agree : ByteSource.AgreeFor budget (SeededSource.ofSeed seed : σ)
      (SeededSource.ofSeed otherSeed)) (unseeded otherUnseeded : σ)
    (program : Option (Array UInt8)) :
    Twin budget ((Console.new config unseeded).startedOver program)
      ((Console.new { config with seed := some otherSeed } otherUnseeded).startedOver program) where
  processor := by
    refine ⟨rfl, ?_⟩
    rw [source_startedOver seeded, source_startedOver rfl]
    exact agree
  apart := rfl

/-- From the last mount or reset on, whatever a host asks of a console with a seed
short of starting over, the random instructions take the bytes of the seed's stream in
their order, and nothing else takes any. If the stream of another seed begins with as
many of the same bytes, it makes no difference until these bytes are used up. -/
theorem random_bytes_in_order (config : Config) (seed : UInt64) (seeded : config.seed = some seed)
    (program : Array UInt8) (fits : program.size ≤ maxProgramSize) (unseeded : σ)
    (past : List Request) (start : Console σ)
    (started : ((Console.new config unseeded).session past).value.2.StartsWith program start)
    (requests : List Request) (playing : ∀ request ∈ requests, request.Plays) :
    start.DrawsInOrder (SeededSource.ofSeed seed) requests ∧
      ∀ (budget : Nat) (otherSeed : UInt64),
        ByteSource.AgreeFor budget (SeededSource.ofSeed seed : σ)
          (SeededSource.ofSeed otherSeed) →
        ∀ (otherUnseeded : σ) (otherPast : List Request) (otherStart : Console σ),
          ((Console.new { config with seed := some otherSeed } otherUnseeded).session
            otherPast).value.2.StartsWith program otherStart →
          start.AgreesUntil budget otherStart requests := by
  have fresh : (Console.new config unseeded).Configured config := configured_new unseeded
  have reached := fresh.session past
  have startIs := started.eq_startedOver reached seeded unseeded fits
  have sound : start.Sound := by
    rw [startIs]
    exact sound_startedOver _ _ (by rintro bytes ⟨⟩; exact fits)
  refine ⟨?_, ?_⟩
  · have inOrder := drawsInOrder sound requests playing
    rw [startIs, source_startedOver seeded, ← startIs] at inOrder
    exact inOrder
  · intro budget otherSeed agree otherUnseeded otherPast otherStart otherStarted
    have otherFresh : (Console.new { config with seed := some otherSeed } otherUnseeded).Configured
        { config with seed := some otherSeed } := configured_new otherUnseeded
    have otherReached := otherFresh.session otherPast
    have otherIs := otherStarted.eq_startedOver otherReached rfl otherUnseeded fits
    have twin : Twin budget start otherStart := by
      rw [startIs, otherIs]
      exact twin_startedOver seeded agree unseeded otherUnseeded (some program)
    exact twin.agreesUntil sound requests playing

theorem DrawsInOrder.register_stepCycle {stream : σ} {rest : List Request}
    (inOrder : console.DrawsInOrder stream (.stepCycle :: rest)) {x : Register} {mask : UInt8}
    (decoded : Instruction.decode? console.machine.wordAtPc = some (.random x mask)) :
    console.stepCycle.value.2.machine.register x = ByteSource.byteAt stream 0 &&& mask :=
  inOrder.random 0 (Nat.succ_pos _) x mask decoded

/-- Two consoles whose streams begin with the same two bytes, and a program that
takes the first of them. -/
theorem random_bytes_in_order_of_seeds :
    let config : Config := { cyclesPerFrame := 3, seed := some 7 }
    let program : Array UInt8 := #[0xC0, 0xFF, 0x12, 0x02]
    let console := Console.new config (Keystream.ofSeed 0)
    let other := Console.new { config with seed := some 18746 } (Keystream.ofSeed 0)
    let start := (console.mount programMount.id program).value.2
    let otherStart := (other.mount programMount.id program).value.2
    let requests := [Request.stepCycle, .setKey 3 true, .stepFrame]
    config.seed = some 7 ∧ program.size ≤ maxProgramSize ∧
      (console.session []).value.2.StartsWith program start ∧
      (∀ request ∈ requests, request.Plays) ∧
      ByteSource.AgreeFor 2 (Keystream.ofSeed 7) (Keystream.ofSeed 18746) ∧
      start.stepCycle.value.2.machine.register 0 = 190 ∧
      start.AgreesUntil 2 otherStart requests := by
  intro config program console other start otherStart requests
  have fits : program.size ≤ maxProgramSize := by decide
  have started : (console.session []).value.2.StartsWith program start := .inl rfl
  have playing : ∀ request ∈ requests, request.Plays := by
    intro request member
    simp only [requests, List.mem_cons, List.not_mem_nil, or_false] at member
    obtain rfl | rfl | rfl := member <;> trivial
  have agree : ByteSource.AgreeFor 2 (Keystream.ofSeed 7) (Keystream.ofSeed 18746) := by
    decide +kernel
  have first : ByteSource.byteAt (Keystream.ofSeed 7) 0 = 190 := by decide +kernel
  obtain ⟨inOrder, agrees⟩ := random_bytes_in_order config 7 rfl program fits (Keystream.ofSeed 0)
    [] start started requests playing
  refine ⟨rfl, fits, started, playing, agree, ?_, ?_⟩
  · have machine : start.machine = Machine.withProgram program := by
      simp only [start, value_mount, fits, ↓reduceIte]
      rfl
    have decoded : Instruction.decode? start.machine.wordAtPc = some (.random 0 0xFF) := by
      rw [machine]
      exact Machine.decode?_of_loaded rfl (by decide)
    calc start.stepCycle.value.2.machine.register 0
        = ByteSource.byteAt (Keystream.ofSeed 7) 0 &&& 0xFF := inOrder.register_stepCycle decoded
      _ = 190 := by rw [first]; decide
  · exact agrees 2 18746 agree (Keystream.ofSeed 0) [] otherStart (.inl rfl)

end Console
end Chip8

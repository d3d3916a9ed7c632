import Chip8.Proofs.RandomStream
import Mathlib.Data.Nat.Count

/-!
# Accounts of tones and faults

A tone ends in the cycle in which its timer runs out, and only then, unless the timer is
set anew before. So the tones that ended can be reckoned from those that were started.
The counts that a host reads are those of the cycles that reported the end of a tone or
a fault, no matter how the cycles were run and when the count was taken.
-/

set_option autoImplicit false

namespace Chip8

variable {σ : Type}

/-! ## One cycle -/

namespace Timers

def sounds (timers : Timers) : Bool := 0 < timers.sound

theorem soundExpires_add_sounds_tick (timers : Timers) :
    (if timers.soundExpires then 1 else 0) + (if timers.tick.sounds then 1 else 0) =
      if timers.sounds then 1 else 0 := by
  have fallen : timers.tick.sound.toNat = timers.sound.toNat - 1 := toNat_countDown timers.sound
  have expires : timers.soundExpires = true ↔ timers.sound.toNat = 1 := by
    rw [soundExpires, beq_iff_eq, ← UInt8.toNat_inj]
    rfl
  have sounding (timers : Timers) : timers.sounds = true ↔ 0 < timers.sound.toNat := by
    rw [sounds, decide_eq_true_iff, UInt8.lt_iff_toNat_lt, UInt8.toNat_zero]
  simp only [expires, sounding, fallen]
  rcases Nat.lt_trichotomy timers.sound.toNat 1 with silent | last | more
  · simp [Nat.lt_one_iff.mp silent]
  · simp [last]
  · have running : 0 < timers.sound.toNat := Nat.lt_trans Nat.zero_lt_one more
    have remaining : 0 < timers.sound.toNat - 1 := Nat.sub_pos_of_lt more
    simp [Nat.ne_of_gt more, running, remaining]

end Timers

namespace Machine

def soundSet? (machine : Machine) : Option UInt8 :=
  match Instruction.decode? machine.wordAtPc with
  | some (.setSoundTimer x) => some (machine.register x)
  | _ => none

def startsTone (machine : Machine) : Bool := machine.soundSet?.any (0 < ·)

/-- The next instruction sets the sound timer while a tone is heard. -/
def interruptsTone (machine : Machine) : Bool :=
  machine.soundSet?.isSome && machine.timers.sounds

end Machine

theorem sound_attempt [ByteSource σ] (policy : UnknownOpcodePolicy) (machine : Machine)
    (source : σ) :
    (attempt policy machine source).machine.timers.sound =
      machine.soundSet?.getD machine.timers.sound := by
  rw [timers_attempt, Machine.soundSet?]
  cases Instruction.decode? machine.wordAtPc with
  | none => rfl
  | some instruction => cases instruction <;> rfl

namespace Moment

variable [ByteSource σ] (policy : UnknownOpcodePolicy) (moment : Moment σ)

/-- What a cycle adds to the tones that ended is what it takes from those that were
heard or started. -/
theorem toneBalance_next (bound : moment.machine.sp.toNat ≤ stackDepth) :
    moment.soundEdges policy 1 + (if (moment.next policy).machine.timers.sounds then 1 else 0) +
        (if moment.machine.interruptsTone then 1 else 0) =
      (if moment.machine.timers.sounds then 1 else 0) +
        if moment.machine.startsTone then 1 else 0 := by
  have cycled := value_cycle_of_inside policy moment.machine moment.source
    (Machine.toNat_sp_popped_lt bound)
  let timers := (attempt policy moment.machine moment.source).machine.timers
  have edges : moment.soundEdges policy 1 = if timers.soundExpires then 1 else 0 := by
    have reports : moment.reports policy 1 = [(moment.cycled policy).report] := rfl
    rw [soundEdges, reports, List.countP_singleton, Moment.cycled, cycled, Option.any_some]
  have later : (moment.next policy).machine.timers = timers.tick := by
    rw [next, Moment.cycled, cycled]
  have sound : timers.sound = moment.machine.soundSet?.getD moment.machine.timers.sound :=
    sound_attempt policy moment.machine moment.source
  rw [edges, later, timers.soundExpires_add_sounds_tick, Timers.sounds, sound,
    Machine.interruptsTone, Machine.startsTone]
  cases moment.machine.soundSet? with
  | none => rfl
  | some value => exact Nat.add_comm _ _

def tonesStarted (count : Nat) : Nat :=
  Nat.count (fun done => (moment.later policy done).machine.startsTone) count

def tonesInterrupted (count : Nat) : Nat :=
  Nat.count (fun done => (moment.later policy done).machine.interruptsTone) count

theorem toneBalance {moment : Moment σ} (bound : moment.machine.sp.toNat ≤ stackDepth)
    (count : Nat) :
    moment.soundEdges policy count +
        (if (moment.later policy count).machine.timers.sounds then 1 else 0) +
        moment.tonesInterrupted policy count =
      (if moment.machine.timers.sounds then 1 else 0) + moment.tonesStarted policy count := by
  induction count with
  | zero => exact Nat.zero_add _
  | succ count ih =>
      have step := toneBalance_next policy (moment.later policy count)
        (sp_le_later policy bound count)
      have last : (moment.later policy count).next policy = moment.later policy (count + 1) :=
        (later_add policy moment count 1).symm
      have started := Nat.count_succ
        (fun done => (moment.later policy done).machine.startsTone = true) count
      have interrupted := Nat.count_succ
        (fun done => (moment.later policy done).machine.interruptsTone = true) count
      -- What is still heard after the earlier cycles cancels out.
      rw [last] at step
      rw [tonesInterrupted, tonesStarted] at ih
      rw [soundEdges_add, tonesInterrupted, tonesStarted, started, interrupted]
      omega

variable {policy moment} in
theorem soundEdges_of_silencing (set : moment.machine.soundSet? = some 0)
    (heard : moment.machine.timers.sounds = true)
    (balance : moment.soundEdges policy 1 +
        (if (moment.later policy 1).machine.timers.sounds then 1 else 0) +
        moment.tonesInterrupted policy 1 =
      (if moment.machine.timers.sounds then 1 else 0) + moment.tonesStarted policy 1) :
    moment.soundEdges policy 1 = 0 := by
  have now : moment.later policy 0 = moment := rfl
  have interrupted : moment.tonesInterrupted policy 1 = 1 := by
    rw [tonesInterrupted, Nat.count_succ, Nat.count_zero, now, Machine.interruptsTone, set, heard]
    rfl
  have started : moment.tonesStarted policy 1 = 0 := by
    rw [tonesStarted, Nat.count_succ, Nat.count_zero, now, Machine.startsTone, set]
    rfl
  rw [interrupted, started, heard, if_pos rfl] at balance
  omega

end Moment

/-! ## The counts of a processor -/

variable [SeededSource σ]

namespace Processor

def edgeCount (cycles : List (Processor σ)) : Nat :=
  cycles.countP fun now => now.cycle.value.1.any (·.soundEdge)

def faultyCount (cycles : List (Processor σ)) : Nat :=
  cycles.countP fun now => now.cycle.value.1.any (·.fault.isSome)

variable {processor : Processor σ}

theorem reports_path (bound : processor.machine.sp.toNat ≤ stackDepth) (count : Nat) :
    (processor.path count).map (fun now => now.cycle.value.1) =
      processor.moment.reports processor.policy count := by
  rw [path, Moment.reports, List.map_map]
  apply List.map_congr_left
  intro done _
  rw [Function.comp_apply, value_run bound, report_cycle]
  rfl

theorem counts_run (bound : processor.machine.sp.toNat ≤ stackDepth) (count : Nat) :
    (run count processor).value.2.beeps =
        processor.beeps + UInt32.ofNat (edgeCount (processor.path count)) ∧
      (run count processor).value.2.faults =
        processor.faults + UInt64.ofNat (faultyCount (processor.path count)) := by
  have reports := reports_path bound count
  have edges : edgeCount (processor.path count) =
      processor.moment.soundEdges processor.policy count := by
    rw [Moment.soundEdges, ← reports, List.countP_map]
    rfl
  have faulty : faultyCount (processor.path count) =
      processor.moment.faultCount processor.policy count := by
    rw [Moment.faultCount, ← reports, List.countP_map]
    rfl
  rw [edges, faulty, value_run bound]
  exact ⟨rfl, rfl⟩

end Processor

/-! ## The counts that a host reads -/

def Request.beepsTaken (request : Request) (answer : Answer) : Nat :=
  match request, answer with
  | .takeBeeps, .beeps count => count.toNat
  | _, _ => 0

def beepsTaken (exchanges : List (Request × Answer)) : Nat :=
  match exchanges with
  | [] => 0
  | (request, answer) :: rest => request.beepsTaken answer + beepsTaken rest

namespace Console

open Processor (edgeCount faultyCount)

/-- The states in which a console starts over, be it with a program or without. -/
inductive Restarts (console : Console σ) : Console σ → Prop
  | mount {program : Array UInt8} (fits : program.size ≤ maxProgramSize) :
      console.Restarts (console.mount programMount.id program).value.2
  | reset : console.Restarts console.reset.value
  | unmount : console.Restarts (console.unmount programMount.id).value.2

theorem Restarts.eq_startedOver {console next : Console σ} (restarts : console.Restarts next)
    (fits : ∀ program, console.program = some program → program.size ≤ maxProgramSize) :
    ∃ program, (∀ bytes, program = some bytes → bytes.size ≤ maxProgramSize) ∧
      next = console.startedOver program := by
  cases restarts with
  | @mount program small =>
      refine ⟨some program, ?_, ?_⟩
      · rintro bytes ⟨⟩
        exact small
      · rw [value_mount, if_pos rfl, if_pos small]
  | reset => exact ⟨console.program, fits, value_reset console fits⟩
  | unmount =>
      refine ⟨none, ?_, ?_⟩
      · rintro bytes ⟨⟩
      · rw [value_unmount, if_pos rfl]

/-- From one taking of the count of tones to the next, fewer tones end than the count has
numbers. -/
def CountsTones (console : Console σ) (requests : List Request) : Prop :=
  ∀ before between after, requests = before ++ between ++ after → .takeBeeps ∉ between →
    edgeCount ((console.session before).value.2.cycles between) < UInt32.size

/-- As many tones as are left in the count and as end before it is next taken are fewer
than the count has numbers. -/
def HasCount (console : Console σ) (requests : List Request) : Prop :=
  ∀ between after, requests = between ++ after → .takeBeeps ∉ between →
    console.processor.beeps.toNat + edgeCount (console.cycles between) < UInt32.size

theorem CountsTones.tail {console : Console σ} {request : Request} {rest : List Request}
    (counts : console.CountsTones (request :: rest)) :
    (console.perform request).value.2.CountsTones rest := by
  rintro before between after rfl untaken
  exact counts (request :: before) between after rfl untaken

theorem CountsTones.hasCount {console : Console σ} {requests : List Request}
    (counts : console.CountsTones requests) (silent : console.processor.beeps = 0) :
    console.HasCount requests := by
  intro between after split untaken
  rw [silent, UInt32.toNat_zero, Nat.zero_add]
  exact counts [] between after split untaken

variable {console : Console σ}

/-- Only a taking empties the count of tones, and nothing but cycles adds to the counts. -/
theorem counts_perform {request : Request} (plays : request.Plays) :
    let next := (console.perform request).value
    let ran := (console.processor.run (console.cyclesOf request)).value.2
    (request = .takeBeeps ∧ request.beepsTaken next.1 = ran.beeps.toNat ∧
        next.2.processor.beeps = 0 ∨
      request ≠ .takeBeeps ∧ request.beepsTaken next.1 = 0 ∧
        next.2.processor.beeps = ran.beeps) ∧
      next.2.processor.faults = ran.faults := by
  cases request with
  | mount | unmount | reset | settings | poke => exact plays.elim
  | stepFrame =>
      simp only [perform, Logged.value_bind, Logged.value_pure, value_stepFrame, cyclesOf]
      cases console.program.isNone with
      | true => exact ⟨.inr ⟨by simp, rfl, rfl⟩, rfl⟩
      | false =>
          simp only [Bool.false_eq_true, ↓reduceIte]
          split <;> exact ⟨.inr ⟨by simp, rfl, rfl⟩, rfl⟩
  | stepCycle =>
      simp only [cyclesOf, Processor.run_succ, Logged.value_bind]
      split <;> exact ⟨.inr ⟨by simp, rfl, rfl⟩, rfl⟩
  | takeBeeps => exact ⟨.inl ⟨rfl, rfl, rfl⟩, rfl⟩
  | _ => exact ⟨.inr ⟨by simp, rfl, rfl⟩, rfl⟩

theorem cycles_singleton (request : Request) :
    console.cycles [request] = console.processor.path (console.cyclesOf request) :=
  List.append_nil _

theorem faults_session (requests : List Request) (playing : ∀ request ∈ requests, request.Plays)
    {console : Console σ} (sound : console.Sound) :
    (console.session requests).value.2.processor.faults =
      console.processor.faults + UInt64.ofNat (faultyCount (console.cycles requests)) := by
  induction requests generalizing console with
  | nil => exact (UInt64.add_zero _).symm
  | cons request rest ih =>
      obtain ⟨plays, remaining⟩ := List.forall_mem_cons.mp playing
      have later := ih remaining (sound.after plays.not_isPoke)
      have ran := (Processor.counts_run sound.machine.sp_le (console.cyclesOf request)).2
      have first := (console.counts_perform plays).2.trans ran
      rw [value_session_cons, cycles, faultyCount, List.countP_append, UInt64.ofNat_add,
        ← UInt64.add_assoc]
      rw [first] at later
      exact later

/-- What a request takes from the count of tones and what it leaves there have grown by
the tones that end in its cycles, and there is still room for those to come. -/
theorem tones_perform (sound : console.Sound) {request : Request} (plays : request.Plays)
    {rest : List Request} (room : console.HasCount (request :: rest))
    (counts : console.CountsTones (request :: rest)) :
    request.beepsTaken (console.perform request).value.1 +
          (console.perform request).value.2.processor.beeps.toNat =
        console.processor.beeps.toNat +
          edgeCount (console.processor.path (console.cyclesOf request)) ∧
      (console.perform request).value.2.HasCount rest := by
  have ran := (Processor.counts_run sound.machine.sp_le (console.cyclesOf request)).1
  obtain ⟨rfl, taken, emptied⟩ | ⟨untaken, taken, left⟩ := (console.counts_perform plays).1
  · refine ⟨?_, counts.tail.hasCount emptied⟩
    rw [taken, emptied]
    rfl
  · rw [ran] at left
    have alone : Request.takeBeeps ∉ [request] := by simpa using untaken.symm
    have few := room [request] rest rfl alone
    rw [cycles_singleton] at few
    have grown : (console.perform request).value.2.processor.beeps.toNat =
        console.processor.beeps.toNat +
          edgeCount (console.processor.path (console.cyclesOf request)) := by
      rw [left, UInt32.toNat_add, UInt32.toNat_ofNat', Nat.add_mod_mod]
      exact Nat.mod_eq_of_lt few
    refine ⟨by rw [taken, grown, Nat.zero_add], ?_⟩
    rintro between after rfl unheard
    have longer := room (request :: between) after rfl
      (List.not_mem_cons_of_ne_of_not_mem untaken.symm unheard)
    rw [cycles, edgeCount, List.countP_append] at longer
    rw [grown, edgeCount, edgeCount, Nat.add_assoc]
    exact longer

theorem tones_session (requests : List Request) (playing : ∀ request ∈ requests, request.Plays)
    {console : Console σ} (sound : console.Sound) (room : console.HasCount requests)
    (counts : console.CountsTones requests) :
    beepsTaken (console.session requests).value.1 +
        (console.session requests).value.2.processor.beeps.toNat =
      console.processor.beeps.toNat + edgeCount (console.cycles requests) := by
  induction requests generalizing console with
  | nil => exact Nat.zero_add _
  | cons request rest ih =>
      obtain ⟨plays, remaining⟩ := List.forall_mem_cons.mp playing
      obtain ⟨first, left⟩ := tones_perform sound plays room counts
      have later := ih remaining (sound.after plays.not_isPoke) left counts.tail
      rw [value_session_cons, cycles, edgeCount, List.countP_append]
      rw [edgeCount] at first later
      simp only [beepsTaken]
      omega

theorem length_cycles_le {config : Config} {limit : Nat} (positive : 1 ≤ limit)
    (paced : config.cyclesPerFrame.toNat ≤ limit) (requests : List Request) {console : Console σ}
    (configured : console.Configured config) :
    (console.cycles requests).length ≤ requests.length * limit := by
  induction requests generalizing console with
  | nil => exact Nat.zero_le _
  | cons request rest ih =>
      have later := ih (configured.perform request)
      have now : console.cyclesOf request ≤ limit := by
        cases request with
        | stepFrame =>
            rw [cyclesOf, configured.config]
            split
            · exact Nat.zero_le limit
            · exact paced
        | stepCycle => exact positive
        | _ => exact Nat.zero_le limit
      rw [cycles, List.length_append, Processor.path, List.length_map, List.length_range,
        List.length_cons, Nat.add_one_mul]
      omega

/-- In a session that is short enough the count of tones cannot overflow. -/
theorem countsTones_of_short {config : Config} {limit : Nat} (positive : 1 ≤ limit)
    (paced : config.cyclesPerFrame.toNat ≤ limit) {requests : List Request}
    (short : requests.length * limit < UInt32.size) {console : Console σ}
    (configured : console.Configured config) : console.CountsTones requests := by
  rintro before between after rfl -
  have edges : edgeCount ((console.session before).value.2.cycles between) ≤
      ((console.session before).value.2.cycles between).length := List.countP_le_length
  have part : between.length ≤ (before ++ between ++ after).length := by
    rw [List.length_append, List.length_append]
    omega
  calc edgeCount ((console.session before).value.2.cycles between)
      ≤ between.length * limit :=
        Nat.le_trans edges (length_cycles_le positive paced between (configured.session before))
    _ ≤ (before ++ between ++ after).length * limit := Nat.mul_le_mul_right limit part
    _ < UInt32.size := short

/-- Tones are neither lost nor made up. In any number of cycles as many tones end as
were started or under way, less those that were set anew while they were heard and the
one that is still heard. And what a host has taken from the count of tones since the
console last started over, together with what is left in it, are the cycles that
reported the end of a tone, in whatever way they were run, as long as the count does not
overflow between two takings. In the same way the count of faults, as a word, is that of
the cycles that reported one. -/
theorem tones_and_faults_accounted_for :
    (∀ (policy : UnknownOpcodePolicy) (moment : Moment σ),
      moment.machine.sp.toNat ≤ stackDepth → ∀ count : Nat,
        moment.soundEdges policy count +
            (if (moment.later policy count).machine.timers.sounds then 1 else 0) +
            moment.tonesInterrupted policy count =
          (if moment.machine.timers.sounds then 1 else 0) + moment.tonesStarted policy count) ∧
      ∀ (config : Config) (unseeded : σ) (past : List Request) (start : Console σ),
        ((Console.new config unseeded).session past).value.2.Restarts start →
        ∀ requests : List Request, (∀ request ∈ requests, request.Plays) →
          (start.CountsTones requests →
            beepsTaken (start.session requests).value.1 +
                (start.session requests).value.2.processor.beeps.toNat =
              edgeCount (start.cycles requests)) ∧
          (start.session requests).value.2.processor.faults =
            UInt64.ofNat (faultyCount (start.cycles requests)) := by
  constructor
  · intro policy moment bound count
    exact Moment.toneBalance policy bound count
  · intro config unseeded past start restarts requests playing
    have fresh : (Console.new config unseeded).Configured config := configured_new unseeded
    obtain ⟨program, fits, startIs⟩ := restarts.eq_startedOver (fresh.session past).fits
    have sound : start.Sound := startIs ▸ sound_startedOver _ program fits
    have zero : start.processor.beeps = 0 ∧ start.processor.faults = 0 := by
      rw [startIs]
      exact ⟨rfl, rfl⟩
    refine ⟨?_, ?_⟩
    · intro counts
      rw [tones_session requests playing sound (counts.hasCount zero.1) counts, zero.1,
        UInt32.toNat_zero, Nat.zero_add]
    · rw [faults_session requests playing sound, zero.2, UInt64.zero_add]

/-- A tone that is cut off and so never ends, and a session that takes the count between
two ways of running a program with a tone. -/
theorem tones_and_faults_accounted_for_short_tones :
    let moment : Moment Keystream := {
      machine := { Machine.withProgram #[0xF0, 0x18] with timers := { delay := 0, sound := 5 } }
      source := Keystream.ofSeed 7 }
    let console := Console.new {} (Keystream.ofSeed 7)
    let start := (console.mount programMount.id #[0x60, 0x03, 0xF0, 0x18, 0x12, 0x04]).value.2
    let requests := [Request.stepFrame, .takeBeeps, .stepCycle]
    moment.machine.sp.toNat ≤ stackDepth ∧
      moment.soundEdges .stall 1 = 0 ∧
      (console.session []).value.2.Restarts start ∧
      (∀ request ∈ requests, request.Plays) ∧ start.CountsTones requests ∧
      beepsTaken (start.session requests).value.1 +
          (start.session requests).value.2.processor.beeps.toNat =
        edgeCount (start.cycles requests) ∧
      (start.session requests).value.2.processor.faults =
        UInt64.ofNat (faultyCount (start.cycles requests)) := by
  intro moment console start requests
  have bound : moment.machine.sp.toNat ≤ stackDepth := Nat.zero_le _
  have started : (console.session []).value.2.Restarts start := .mount (by decide)
  have playing : ∀ request ∈ requests, request.Plays := by
    intro request member
    simp only [requests, List.mem_cons, List.not_mem_nil, or_false] at member
    obtain rfl | rfl | rfl := member <;> trivial
  have fresh : console.Configured {} := configured_new (Keystream.ofSeed 7)
  have configured : start.Configured {} := by
    have mounted := fresh.perform
      (.mount programMount.id #[0x60, 0x03, 0xF0, 0x18, 0x12, 0x04])
    simpa only [perform, Logged.value_bind, Logged.value_pure] using mounted
  have paced : ({} : Config).cyclesPerFrame.toNat ≤ 20 := Nat.le_refl 20
  have short : requests.length * 20 < UInt32.size := by
    rw [UInt32.size]
    decide
  have counted : start.CountsTones requests :=
    countsTones_of_short (by decide) paced short configured
  have decoded : Instruction.decode? moment.machine.wordAtPc = some (.setSoundTimer 0) :=
    Machine.decode?_of_loaded rfl (by decide)
  have set : moment.machine.soundSet? = some 0 := by
    rw [Machine.soundSet?, decoded]
    rfl
  obtain ⟨balances, counts⟩ := tones_and_faults_accounted_for (σ := Keystream)
  have balance := balances .stall moment bound 1
  obtain ⟨tones, faults⟩ := counts {} (Keystream.ofSeed 7) [] start started requests playing
  exact ⟨bound, Moment.soundEdges_of_silencing set rfl balance, started, playing,
    counted, tones counted, faults⟩

end Console
end Chip8

import Chip8.Proofs.Soundness

/-!
# Starting over

A console with a seed that mounts a program, or starts over with the one it holds,
is in the state of a console that was just made, whatever happened to it before.
-/

set_option autoImplicit false

namespace Chip8

variable {σ : Type}

/-- What no request changes: the settings, as the console and as its processor
keep them, and that a stored program can be loaded. -/
structure Console.Configured (settings : Config) (console : Console σ) : Prop where
  config : console.config = settings
  seed : console.processor.seed = settings.seed
  policy : console.processor.policy = settings.unknownOpcode
  fits : ∀ program, console.program = some program → program.size ≤ maxProgramSize

namespace Console

variable {config : Config}

theorem Configured.withMachine {console : Console σ} (configured : console.Configured config)
    (machine : Machine) : (console.withMachine machine).Configured config :=
  ⟨configured.config, configured.seed, configured.policy, configured.fits⟩

variable [SeededSource σ]

theorem configured_new (unseeded : σ) : (Console.new config unseeded).Configured config where
  config := rfl
  seed := rfl
  policy := rfl
  fits := by simp [Console.new]

namespace Configured

variable {console : Console σ} (configured : console.Configured config)
include configured

theorem startedOver {program : Option (Array UInt8)}
    (fits : ∀ bytes, program = some bytes → bytes.size ≤ maxProgramSize) :
    (console.startedOver program).Configured config :=
  ⟨configured.config, configured.seed, configured.policy, fits⟩

theorem stepCycle : console.stepCycle.value.2.Configured config := by
  obtain ⟨seed, policy⟩ := console.processor.seed_policy_cycle
  exact ⟨configured.config, seed.trans configured.seed, policy.trans configured.policy,
    configured.fits⟩

theorem stepFrame : console.stepFrame.value.2.Configured config := by
  have kept : ∀ processor : Processor σ,
      processor.seed = config.seed ∧ processor.policy = config.unknownOpcode →
      processor.cycle.value.2.seed = config.seed ∧
        processor.cycle.value.2.policy = config.unknownOpcode := by
    intro processor same
    obtain ⟨seed, policy⟩ := processor.seed_policy_cycle
    exact ⟨seed.trans same.1, policy.trans same.2⟩
  obtain ⟨seed, policy⟩ := Processor.run_keeps console.processor kept
    console.config.cyclesPerFrame.toNat ⟨configured.seed, configured.policy⟩
  rw [value_stepFrame]
  split
  · exact configured
  · dsimp only
    split <;> exact ⟨configured.config, seed, policy, configured.fits⟩

theorem perform (request : Request) : (console.perform request).value.2.Configured config := by
  refine perform_cases configured.fits configured ?_ configured.stepFrame configured.stepCycle
    ?_ ?_ ?_
  · intro program fits
    exact configured.startedOver fits
  · exact fun keypad => configured.withMachine _
  · exact ⟨configured.config, configured.seed, configured.policy, configured.fits⟩
  · exact fun change _ => configured.withMachine _

theorem session (requests : List Request) :
    (console.session requests).value.2.Configured config :=
  (session_keeps (Configured config) (fun _ => True) (fun _ => True) (fun _ => True)
    (fun _ request _ configured => ⟨configured.perform request, trivial, fun _ _ => trivial⟩)
    requests (fun _ _ => trivial) console configured).1

/-- With a seed, nothing but settings and program goes into a start. -/
theorem startedOver_eq {seed : UInt64} (seeded : config.seed = some seed) (unseeded : σ)
    (program : Option (Array UInt8)) :
    console.startedOver program = (Console.new config unseeded).startedOver program := by
  have sourced : Processor.startSource console.processor.seed console.processor.source =
      Processor.startSource config.seed (Processor.startSource config.seed unseeded) := by
    rw [configured.seed, seeded]
    rfl
  unfold Console.startedOver Processor.restart
  rw [sourced, configured.config, configured.seed, configured.policy]
  rfl

theorem mount_eq {seed : UInt64} (seeded : config.seed = some seed) (unseeded : σ)
    (program : Array UInt8) (fits : program.size ≤ maxProgramSize) :
    (console.mount programMount.id program).value =
      (.ok (), (Console.new config unseeded).startedOver (some program)) := by
  simp only [value_mount, fits, ↓reduceIte]
  rw [configured.startedOver_eq seeded unseeded (some program)]

theorem reset_eq {seed : UInt64} (seeded : config.seed = some seed) (unseeded : σ) :
    console.reset.value = (Console.new config unseeded).startedOver console.program := by
  rw [value_reset console configured.fits]
  exact configured.startedOver_eq seeded unseeded console.program

end Configured

theorem new_startedOver {seed : UInt64} (seeded : config.seed = some seed) (unseeded : σ) :
    (Console.new config unseeded).startedOver none = Console.new config unseeded := by
  simp only [startedOver, Processor.restart, Console.new, Processor.new, seeded]
  rfl

/-- The states that a console comes to when it mounts a program, or starts over
with that program in place. -/
def StartsWith (console : Console σ) (program : Array UInt8) (next : Console σ) : Prop :=
  next = (console.mount programMount.id program).value.2 ∨
    console.program = some program ∧ next = console.reset.value

theorem StartsWith.eq_startedOver {console next : Console σ} {program : Array UInt8}
    (started : console.StartsWith program next) (configured : console.Configured config)
    {seed : UInt64} (seeded : config.seed = some seed) (unseeded : σ)
    (fits : program.size ≤ maxProgramSize) :
    next = (Console.new config unseeded).startedOver (some program) := by
  rcases started with mounted | ⟨held, restarted⟩
  · rw [mounted, configured.mount_eq seeded unseeded program fits]
  · rw [restarted, configured.reset_eq seeded unseeded, held]

/-- Whatever was asked of a console with a seed before, pokes included, mounting a
program or starting over with it gives the state of a new console that mounts it.
Starting over without a program and taking the program out give the new console.
So nothing that is asked later can tell two such consoles apart. -/
theorem start_leaves_no_trace (config : Config) (seed : UInt64) (seeded : config.seed = some seed)
    (program : Array UInt8) (fits : program.size ≤ maxProgramSize) (unseeded : σ)
    (past : List Request) :
    let fresh := Console.new config unseeded
    let console := (fresh.session past).value.2
    let mounted := (fresh.mount programMount.id program).value
    mounted.1 = .ok () ∧
      (console.mount programMount.id program).value = mounted ∧
      (∀ held, console.program = some held →
        console.reset.value = (fresh.mount programMount.id held).value.2) ∧
      (console.program = none → console.reset.value = fresh) ∧
      (console.unmount programMount.id).value = (.ok (), fresh) ∧
      ∀ (otherUnseeded : σ) (otherPast : List Request) (here there : Console σ),
        console.StartsWith program here →
        ((Console.new config otherUnseeded).session otherPast).value.2.StartsWith program there →
        ∀ later : List Request, here.session later = there.session later := by
  intro fresh console mounted
  have started : fresh.Configured config := configured_new unseeded
  have configured : console.Configured config := started.session past
  have empty : fresh.startedOver none = fresh := new_startedOver seeded unseeded
  refine ⟨?_, ?_, ?_, ?_, ?_, ?_⟩
  · rw [show mounted = _ from started.mount_eq seeded unseeded program fits]
  · rw [show mounted = _ from started.mount_eq seeded unseeded program fits]
    exact configured.mount_eq seeded unseeded program fits
  · intro held holds
    rw [configured.reset_eq seeded unseeded, holds,
      started.mount_eq seeded unseeded held (configured.fits held holds)]
  · intro holds
    rw [configured.reset_eq seeded unseeded, holds]
    exact empty
  · rw [value_unmount, if_pos rfl, configured.startedOver_eq seeded unseeded none]
    exact congrArg (Prod.mk (Except.ok ())) empty
  · intro otherUnseeded otherPast here there startedHere startedThere later
    have others : (Console.new config otherUnseeded).Configured config :=
      configured_new otherUnseeded
    have other := others.session otherPast
    rw [startedHere.eq_startedOver configured seeded unseeded fits,
      startedThere.eq_startedOver other seeded unseeded fits]

/-- A console whose machine and program were tampered with before. -/
theorem start_leaves_no_trace_after_pokes :
    let config : Config := { seed := some 7 }
    let program : Array UInt8 := #[0xC0, 0xFF, 0x12, 0x02]
    let fresh := Console.new config (Keystream.ofSeed 0)
    let past := [Request.mount "Program" program, .stepFrame, .setKey 3 true,
      .poke fun machine => { machine.write 0x203 0xEE with sp := 200, index := 0xFFFF }]
    config.seed = some 7 ∧ program.size ≤ maxProgramSize ∧
      ((fresh.session past).value.2.mount programMount.id program).value =
        (fresh.mount programMount.id program).value := by
  refine ⟨rfl, by decide, ?_⟩
  exact (start_leaves_no_trace { seed := some 7 } 7 rfl #[0xC0, 0xFF, 0x12, 0x02] (by decide)
    (Keystream.ofSeed 0) _).2.1

end Console
end Chip8

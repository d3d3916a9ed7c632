import Chip8.Log.Limiter
import Mathlib.Data.List.TakeWhile

/-!
# The limit of one category

What a window may say to a message, and what becomes of the window. Of the messages that
come to it none is lost without being counted. As long as all that it remembers lies less
than a second back it only counts, and the clock has no part in its verdicts.
-/

set_option autoImplicit false

namespace Chip8.Log

/-! ## One verdict -/

/-- What a window says to a message once it has forgotten what is too old, and the
window after that. -/
inductive Window.Judgement (rate now : Nat) (window : Window) : Verdict × Window → Prop where
  | admitted (free : window.stamps.length < rate) (clean : window.dropped = 0) :
      Judgement rate now window
        ({ admitted := true }, { window with stamps := window.stamps ++ [now] })
  | admittedAfterReport (free : window.stamps.length < rate) (unclean : window.dropped ≠ 0) :
      Judgement rate now window
        ({ admitted := true, report := some window.dropped },
          { stamps := window.stamps ++ [now], dropped := 0, lastReport? := some now })
  | reported (full : ¬ window.stamps.length < rate) (due : window.reportDue now = true) :
      Judgement rate now window
        ({ admitted := false, report := some (window.dropped + 1) },
          { window with dropped := 0, lastReport? := some now })
  | dropped (full : ¬ window.stamps.length < rate) (early : window.reportDue now = false) :
      Judgement rate now window
        ({ admitted := false }, { window with dropped := window.dropped + 1 })

namespace Window

variable (rate now : Nat) (window : Window)

theorem judgement : Judgement rate now (window.refresh now) (window.judge rate now) := by
  unfold judge
  by_cases free : (window.refresh now).stamps.length < rate
  · by_cases clean : (window.refresh now).dropped = 0
    · simp only [if_pos free, if_pos clean]
      exact .admitted free clean
    · simp only [if_pos free, if_neg clean]
      exact .admittedAfterReport free clean
  · cases due : (window.refresh now).reportDue now with
    | true =>
        simp only [if_neg free, due, ↓reduceIte]
        exact .reported free due
    | false =>
        simp only [if_neg free, due, Bool.false_eq_true, ↓reduceIte]
        exact .dropped free due

theorem length_refresh_le : (window.refresh now).stamps.length ≤ window.stamps.length :=
  (List.dropWhile_sublist _).length_le

end Window

namespace Window.Judgement

variable {rate now : Nat} {window : Window} {judged : Verdict × Window}
  (judgement : Judgement rate now window judged)
include judgement

/-- A message is let through, or reported together with those dropped before it, or
dropped. -/
theorem balance :
    judged.2.dropped + judged.1.report.getD 0 + (if judged.1.admitted then 1 else 0) =
      window.dropped + 1 := by
  cases judgement with
  | admitted free clean => simp [clean]
  | admittedAfterReport free unclean => simp
  | reported full due => simp
  | dropped full early => simp

theorem one_le_report {count : Nat} (given : judged.1.report = some count) : 1 ≤ count := by
  cases judgement with
  | admitted free clean => cases given
  | admittedAfterReport free unclean =>
      cases given
      exact Nat.one_le_iff_ne_zero.mpr unclean
  | reported full due =>
      cases given
      exact Nat.le_add_left 1 _
  | dropped full early => cases given

theorem report_of_admitted (admitted : judged.1.admitted = true) :
    judged.1.report = if window.dropped = 0 then none else some window.dropped := by
  cases judgement with
  | admitted free clean => rw [if_pos clean]
  | admittedAfterReport free unclean => rw [if_neg unclean]
  | reported full due => cases admitted
  | dropped full early => cases admitted

theorem of_room (clean : window.dropped = 0) (free : window.stamps.length < rate) :
    judged.1 = { admitted := true } ∧ judged.2.dropped = 0 ∧
      judged.2.stamps.length = window.stamps.length + 1 := by
  cases judgement with
  | admitted free clean => exact ⟨rfl, clean, List.length_append⟩
  | admittedAfterReport free unclean => exact absurd clean unclean
  | reported full due => exact absurd free full
  | dropped full early => exact absurd free full

end Window.Judgement

/-- However late it is, a message finds room where it would if no time had passed. -/
theorem Window.judge_of_room {rate : Nat} {window : Window} (clean : window.dropped = 0)
    (free : window.stamps.length < rate) (now : Nat) :
    (window.judge rate now).1 = { admitted := true } ∧
      (window.judge rate now).2.dropped = 0 ∧
      (window.judge rate now).2.stamps.length ≤ window.stamps.length + 1 := by
  have fewer := window.length_refresh_le now
  obtain ⟨verdict, still, length⟩ :=
    (window.judgement rate now).of_room clean (Nat.lt_of_le_of_lt fewer free)
  exact ⟨verdict, still, by omega⟩

/-- More than a second after all that was let through, the next message is let through,
and those that were dropped meanwhile are reported with it. -/
theorem Window.judge_of_old {rate now : Nat} {window : Window} (positive : 0 < rate)
    (old : ∀ stamp ∈ window.stamps, second < now - stamp) :
    (window.judge rate now).1 =
      { admitted := true
        report := if window.dropped = 0 then none else some window.dropped } := by
  have empty : (window.refresh now).stamps = [] :=
    List.dropWhile_eq_nil_iff.mpr fun stamp member => decide_eq_true (old stamp member)
  have room : (window.refresh now).stamps.length < rate := by
    rw [empty]
    exact positive
  have kept : (window.refresh now).dropped = window.dropped := rfl
  have judgement := window.judgement rate now
  generalize window.judge rate now = judged at judgement ⊢
  cases judgement with
  | admitted free clean => rw [if_pos (kept ▸ clean)]
  | admittedAfterReport free unclean => rw [if_neg (kept ▸ unclean), kept]
  | reported full due => exact absurd room full
  | dropped full early => exact absurd room full

/-! ## Within a second -/

/-- What a window comes to as long as nothing in it is older than a second. -/
structure Tally where
  held : Nat
  dropped : Nat
  reported : Bool

namespace Tally

/-- The first refusal is reported at once; later ones are counted until a message is let
through again. -/
def judge (rate : Nat) (tally : Tally) : Verdict × Tally :=
  if tally.held < rate then
    let held := tally.held + 1
    if tally.dropped = 0 then ({ admitted := true }, { tally with held })
    else
      ({ admitted := true, report := some tally.dropped }, { held, dropped := 0, reported := true })
  else
    let dropped := tally.dropped + 1
    if tally.reported then ({ admitted := false }, { tally with dropped })
    else
      ({ admitted := false, report := some dropped }, { tally with dropped := 0, reported := true })

/-- A tally after a number of messages under the same rate. -/
def steady (rate count : Nat) : Tally :=
  { held := min count rate, dropped := count - (rate + 1), reported := rate < count }

theorem judge_steady (rate count : Nat) :
    (steady rate count).judge rate =
      ({ admitted := count < rate, report := if count = rate then some 1 else none },
        steady rate (count + 1)) := by
  rcases Nat.lt_trichotomy count rate with below | rfl | above
  · have held : min count rate = count := Nat.min_eq_left (Nat.le_of_lt below)
    have next : min (count + 1) rate = count + 1 := Nat.min_eq_left below
    have clean : count - (rate + 1) = 0 := by omega
    have still : count + 1 - (rate + 1) = 0 := by omega
    have unreported : ¬ rate < count := Nat.not_lt.mpr (Nat.le_of_lt below)
    have silent : ¬ rate < count + 1 := Nat.not_lt.mpr below
    simp only [steady, held, next, clean, still]
    simp [judge, unreported, silent, below, Nat.ne_of_lt below]
  · simp [judge, steady]
  · have held : min count rate = rate := Nat.min_eq_right (Nat.le_of_lt above)
    have next : min (count + 1) rate = rate := Nat.min_eq_right (by omega)
    have dropped : count + 1 - (rate + 1) = count - (rate + 1) + 1 := by omega
    have full : ¬ count < rate := Nat.not_lt.mpr (Nat.le_of_lt above)
    have past : rate < count + 1 := Nat.lt_succ_of_lt above
    simp only [steady, held, next, dropped]
    simp [judge, above, full, past, Nat.ne_of_gt above]

end Tally

namespace Window

def tally (window : Window) : Tally where
  held := window.stamps.length
  dropped := window.dropped
  reported := window.lastReport?.isSome

/-- All that a window remembers lies less than a second back. -/
structure Recent (now : Nat) (window : Window) : Prop where
  stamps : ∀ stamp ∈ window.stamps, now - stamp < second
  lastReport? : ∀ last, window.lastReport? = some last → now - last < second

theorem Judgement.tally {rate now : Nat} {window : Window} {judged : Verdict × Window}
    (judgement : Judgement rate now window judged)
    (reported : window.lastReport?.isSome = !window.reportDue now) :
    (judged.1, judged.2.tally) = window.tally.judge rate := by
  cases judgement with
  | admitted free clean => simp [Window.tally, Tally.judge, free, clean]
  | admittedAfterReport free unclean => simp [Window.tally, Tally.judge, free, unclean]
  | reported full due =>
      rw [due] at reported
      simp [Window.tally, Tally.judge, full, reported]
  | dropped full early =>
      rw [early] at reported
      simp [Window.tally, Tally.judge, full, reported]

namespace Recent

variable {rate now later : Nat} {window : Window}

theorem refresh (recent : window.Recent now) : window.refresh now = window := by
  have young : window.stamps.dropWhile (fun stamp => second < now - stamp) = window.stamps := by
    cases stamps : window.stamps with
    | nil => rfl
    | cons stamp rest =>
        have young := recent.stamps stamp (by rw [stamps]; exact List.mem_cons_self)
        have fresh : ¬ second < now - stamp := Nat.lt_asymm young
        simp [fresh]
  rw [Window.refresh, young]

theorem isSome_lastReport? (recent : window.Recent now) :
    window.lastReport?.isSome = !window.reportDue now := by
  unfold Window.reportDue
  cases reported : window.lastReport? with
  | none => rfl
  | some last =>
      have young := recent.lastReport? last reported
      simp [Nat.not_le.mpr young]

/-- Within a second a window judges by its tally alone. -/
theorem judge (recent : window.Recent now) :
    ((window.judge rate now).1, (window.judge rate now).2.tally) = window.tally.judge rate := by
  have judgement := window.judgement rate now
  rw [recent.refresh] at judgement
  exact judgement.tally recent.isSome_lastReport?

/-- A verdict adds nothing to what a window remembers but the moment of the verdict. -/
theorem after_judge (recent : window.Recent later) (close : later - now < second) :
    (window.judge rate now).2.Recent later := by
  have old : ∀ stamp ∈ (window.refresh now).stamps, later - stamp < second :=
    fun stamp member => recent.stamps stamp ((List.dropWhile_sublist _).subset member)
  have all : ∀ stamp ∈ (window.refresh now).stamps ++ [now], later - stamp < second :=
    List.forall_mem_append.mpr ⟨old, List.forall_mem_singleton.mpr close⟩
  have reported : ∀ last, some now = some last → later - last < second := by
    rintro last ⟨⟩
    exact close
  have judgement := window.judgement rate now
  generalize window.judge rate now = judged at judgement ⊢
  cases judgement with
  | admitted free clean => exact ⟨all, recent.lastReport?⟩
  | admittedAfterReport free unclean => exact ⟨all, reported⟩
  | reported full due => exact ⟨old, reported⟩
  | dropped full early => exact ⟨old, recent.lastReport?⟩

end Recent
end Window
end Chip8.Log

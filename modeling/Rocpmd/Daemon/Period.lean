import Mathlib.Tactic.Linarith
import Mathlib.Tactic.Ring
import Rocpmd.Daemon.Halt
import Rocpmd.Foundation.Monitor

/-!
# The period of the readings

The loop tells from the wall clock whether the interval between two readings has passed. The clock
may be set at any time, so beside the samples of it each event has the time that really it is.
-/

namespace Rocpmd

open Foundation

variable {W : Type}

/-- The seconds of the wall clock. -/
def Timeval.seconds (time : Timeval) : ℚ := time.tvSec + time.tvUsec / 1000000

/-- The interval is compared in milliseconds. -/
theorem batteryLevelReadIntervalExpired_eq (conf : Config) (lastRead now : Timeval) :
    batteryLevelReadIntervalExpired conf lastRead now =
      if (conf.batteryLevelReader.batteryLevelReadInterval : ℚ) ≤ now.seconds - lastRead.seconds
      then (true, now) else (false, lastRead) := by
  unfold batteryLevelReadIntervalExpired Timeval.seconds
  dsimp only
  split
  next hearly => exact (if_neg (by linarith)).symm
  next hlate => exact (if_pos (by linarith)).symm

/-- The sample that the loop compares with: when it was taken, and what the clock said. -/
structure ClockSample where
  time : ℚ
  clock : ℚ
deriving DecidableEq

section Calls

variable (setup : Setup W)

/-- The iteration gets to the check of the interval. -/
def ChecksInterval (d : Daemon W) : Prop := reqOffOutcome setup d = .opened "1"

instance (d : Daemon W) : Decidable (ChecksInterval setup d) := inferInstanceAs (Decidable (_ = _))

/-- The sample with the last result of true, or that of the constructor. -/
def lastExpired (last : ClockSample) (d : Daemon W) : DaemonEvent × ℚ → ClockSample
  | (.iterate now _ _, time) =>
      if ChecksInterval setup d ∧ intervalExpired setup d now = true then ⟨time, now.seconds⟩
      else last
  | _ => last

/-- The interval has really passed. -/
def Due (last : ClockSample) (time : ℚ) : Prop :=
  (setup.conf.batteryLevelReader.batteryLevelReadInterval : ℚ) ≤ time - last.time

instance (last : ClockSample) (time : ℚ) : Decidable (Due setup last time) :=
  inferInstanceAs (Decidable (_ ≤ _))

/-- The check finds the interval passed, and the iteration makes a measurement, if and only if it
has really passed. -/
def PeriodKept (s : Daemon W × ClockSample) : DaemonEvent × ℚ → Prop
  | (.iterate now stamp room, time) =>
      ChecksInterval setup s.1 →
        (intervalExpired setup s.1 now = true ↔ Due setup s.2 time) ∧
        ((s.1.iterate setup now stamp room).history.measured.isSome = true ↔
          Due setup s.2 time)
  | _ => True

/-- By how much the clock has been set since the sample. -/
def clockStep (last : ClockSample) (now : Timeval) (time : ℚ) : ℚ :=
  (now.seconds - last.clock) - (time - last.time)

/-- Setting the clock has not carried the time since the sample across the interval, neither way. -/
def ClockSteady (s : Daemon W × ClockSample) : DaemonEvent × ℚ → Prop
  | (.iterate now _ _, time) =>
      let interval : ℚ := setup.conf.batteryLevelReader.batteryLevelReadInterval
      let elapsed := time - s.2.time
      ChecksInterval setup s.1 →
        (interval ≤ elapsed → interval ≤ elapsed + clockStep s.2 now time) ∧
        (elapsed < interval → elapsed + clockStep s.2 now time < interval)
  | _ => True

end Calls

theorem intervalExpired_iff (setup : Setup W) (d : Daemon W) (now : Timeval) :
    intervalExpired setup d now = true ↔
      (setup.conf.batteryLevelReader.batteryLevelReadInterval : ℚ) ≤
        now.seconds - d.lastRead.seconds := by
  rw [intervalExpired, batteryLevelReadIntervalExpired_eq]
  split
  next hlate => exact iff_of_true rfl hlate
  next hearly => exact iff_of_false nofun hearly

namespace Daemon

variable {setup : Setup W}

/-- An iteration that gets to the check of the interval measures and takes the new sample, or does
neither; one that does not get there does neither. -/
theorem iterate_sample (setup : Setup W) (d : Daemon W) (now : Timeval) (stamp : String)
    (room : ℕ) :
    let next := d.iterate setup now stamp room
    if ChecksInterval setup d ∧ intervalExpired setup d now = true then
      next.history.measured.isSome = true ∧ next.lastRead = now
    else next.history.measured = none ∧ next.lastRead = d.lastRead := by
  obtain ⟨-, ⟨hpoll, -, hkept⟩ | ⟨-, hearly, -, hkept⟩ | ⟨hpoll, hexpired, htaken, -⟩⟩ :=
    d.iterate_cases setup now stamp room
  · have hnot : ¬ (ChecksInterval setup d ∧ intervalExpired setup d now = true) :=
      fun h => hpoll h.1
    rw [if_neg hnot]
    exact ⟨hkept.measured, hkept.lastRead⟩
  · have hnot : ¬ (ChecksInterval setup d ∧ intervalExpired setup d now = true) :=
      fun h => Bool.noConfusion (hearly.symm.trans h.2)
    rw [if_neg hnot]
    exact ⟨hkept.measured, hkept.lastRead⟩
  · rw [if_pos ⟨hpoll, hexpired⟩, htaken.measured]
    exact ⟨rfl, htaken.lastRead⟩

theorem iterate_measured_iff {d : Daemon W} (hchecks : ChecksInterval setup d) (now : Timeval)
    (stamp : String) (room : ℕ) :
    (d.iterate setup now stamp room).history.measured.isSome = true ↔
      intervalExpired setup d now = true := by
  have hsample := d.iterate_sample setup now stamp room
  dsimp only at hsample
  split at hsample
  next hexpired => exact iff_of_true hsample.1 hexpired.2
  next hearly =>
    rw [hsample.1]
    exact iff_of_false nofun fun hexpired => hearly ⟨hchecks, hexpired⟩

/-- No other step looks at the clock. -/
theorem Step.lastRead_eq {d next : Daemon W} {event : DaemonEvent}
    (hstep : Step setup d event next) (last : ClockSample) (time : ℚ)
    (hlast : last.clock = d.lastRead.seconds) :
    (lastExpired setup last d (event, time)).clock = next.lastRead.seconds := by
  cases hstep with
  | iterate now stamp room _ =>
      have hsample := d.iterate_sample setup now stamp room
      dsimp only at hsample
      rw [lastExpired]
      split at hsample
      next hexpired => rw [if_pos hexpired, hsample.2]
      next hearly => rw [if_neg hearly, hsample.2, hlast]
  | select ok => exact hlast.trans (congrArg _ (d.select_lastRead ok).symm)
  | serve ok => exact hlast.trans (congrArg _ (d.serve_lastRead _ _ _ ok).symm)
  | checkOff => exact hlast.trans (congrArg _ d.checkOff_lastRead.symm)
  | acceptFailed | accepted | readEnded | received | connect | send | receive | close =>
      exact hlast

end Daemon

/-- The code's difference is the time that has passed and what the clock was set by. -/
theorem periodKept_iff {setup : Setup W} {s : Daemon W × ClockSample}
    (hlast : s.2.clock = s.1.lastRead.seconds) (event : DaemonEvent × ℚ) :
    PeriodKept setup s event ↔ ClockSteady setup s event := by
  obtain ⟨event, time⟩ := event
  cases event with
  | iterate now stamp room =>
      refine forall_congr' fun hchecks => ?_
      have hdifference : now.seconds - s.1.lastRead.seconds =
          (time - s.2.time) + clockStep s.2 now time := by
        rw [clockStep, hlast]
        ring
      rw [Daemon.iterate_measured_iff hchecks, and_self_iff, intervalExpired_iff, hdifference, Due]
      constructor
      · intro hiff
        exact ⟨hiff.mpr, fun hearly => not_le.mp fun hlate => not_lt.mpr (hiff.mp hlate) hearly⟩
      · rintro ⟨hdue, hearly⟩
        exact ⟨fun hlate => not_lt.mp fun h => not_lt.mpr hlate (hearly h), hdue⟩
  | _ => exact Iff.rfl

/-- **When the readings keep their period.** In a run of the daemon the check of the interval is
right each time it is made, whatever the clock says, exactly when setting the clock never carries
the time since the last reading across the interval. -/
theorem periodKept_along_iff (setup : Setup W) (world : W) (lastRead : Timeval)
    (log : Option Logger) (net : Network) (descriptors : Finset ℕ) (constructed : ℚ)
    (events : List (DaemonEvent × ℚ)) :
    (((daemonMachine setup).timed ℚ).monitored (lastExpired setup)).Meets (PeriodKept setup)
        (Daemon.start setup world lastRead log net descriptors, ⟨constructed, lastRead.seconds⟩)
        events ↔
      (((daemonMachine setup).timed ℚ).monitored (lastExpired setup)).Meets (ClockSteady setup)
        (Daemon.start setup world lastRead log net descriptors, ⟨constructed, lastRead.seconds⟩)
        events := by
  apply Machine.meets_congr fun s : Daemon W × ClockSample =>
    s.2.clock = s.1.lastRead.seconds
  · intro s event next hlast hstep
    obtain ⟨hnext, hghost⟩ := Machine.monitored_step hstep
    rw [hghost]
    exact (Daemon.Step.of_step hnext).lastRead_eq s.2 event.2 hlast
  · exact fun s event hlast => periodKept_iff hlast event
  · rfl

/-- The clock is set back by an hour while the daemon runs. Eleven seconds after the first sample
the interval of ten has not passed, and neither has it for the rest of the hour. -/
theorem clock_set_back_stops_readings :
    ¬ (((daemonMachine ⟨.allHigh, .shipped, .usual⟩).timed ℚ).monitored
        (lastExpired ⟨.allHigh, .shipped, .usual⟩)).Meets (PeriodKept ⟨.allHigh, .shipped, .usual⟩)
      (Daemon.start ⟨.allHigh, .shipped, .usual⟩ () ⟨10000, 0⟩ none .empty {}, ⟨0, 10000⟩)
      [(.iterate ⟨6411, 0⟩ "" 4096, 11)] := by
  intro hmeets
  obtain ⟨hkept, -⟩ := hmeets _ rfl
  have hexpired := (hkept (by decide +kernel)).1.mpr (by decide +kernel)
  exact absurd hexpired (by decide +kernel)

end Rocpmd

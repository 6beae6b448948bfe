import Rocpmd.Daemon.Progress
import Rocpmd.Daemon.World
import Rocpmd.Gpio.Duration

/-!
# How long the daemon sleeps

An iteration sleeps a tenth of a second and, if a reading is due, what the measurement takes. The
OFF signal takes up to 1.2 seconds. The handling of requests never sleeps.
-/

namespace Rocpmd

open Call Foundation

variable {W : Type}

theorem pulseOff_sleeps (fs : Sysfs W) (pinNoOff : Int) (n : ℕ) {post : Int → Int → Prop}
    (hpost : ∀ result time : Int, 0 ≤ time → time ≤ 400000 * n → post result time) :
    (pulseOff fs.timed pinNoOff n).Sleeps post := by
  induction n generalizing post with
  | zero => exact .ret (hpost _ _ le_rfl le_rfl)
  | succ n ih =>
      push_cast at hpost
      refine .writeReturn fs _ _ (hpost _ _ (by omega) (by omega)) fun _ => .delay ?_
      refine .writeReturn fs _ _ (hpost _ _ (by omega) (by omega)) fun _ => .delay (ih ?_)
      exact fun result time hpos hle => hpost _ _ (by omega) (by omega)

theorem gpioReadReqOff_sleeps (fs : Sysfs W) (conf : Config) {post : Int → Int → Prop}
    (hpost : ∀ result, post result 0) : (gpioReadReqOff fs.timed conf).Sleeps post :=
  .readReturn fs _ (hpost _) fun _ => .ret (hpost _)

namespace Daemon

variable (fs : Sysfs W) (conf : Config) (limits : Limits) {d next : Daemon (W × Int)}
  {event : DaemonEvent}

/-- The longest a measurement can take. -/
def longestMeasurement : Int :=
  262 * conf.batteryLevelReader.batteryLevelGpioDelay +
    conf.batteryLevelReader.batteryLevelPgoodDelay

theorem files_timed (descriptors : Finset ℕ) :
    Setup.files ⟨fs.timed, conf, limits⟩ descriptors =
      (Setup.files ⟨fs, conf, limits⟩ descriptors).timed := by
  unfold Setup.files
  dsimp only
  split <;> rfl

theorem polledWorld_slept (d : Daemon (W × Int)) :
    (d.polledWorld ⟨fs.timed, conf, limits⟩).2 = d.world.2 + 100000 := by
  let files := Setup.files ⟨fs, conf, limits⟩ d.descriptors
  have hpoll : (gpioReadReqOff files.timed conf).Sleeps fun _ time => time = 0 :=
    gpioReadReqOff_sleeps files conf fun _ => rfl
  obtain ⟨time, htime, rfl⟩ := hpoll (files.timed.usleep 100000 d.world)
  rw [Daemon.polledWorld, files_timed]
  exact htime.trans (Int.add_zero _)

variable (hgpio : 0 ≤ conf.batteryLevelReader.batteryLevelGpioDelay)
  (hpgood : 0 ≤ conf.batteryLevelReader.batteryLevelPgoodDelay)

include hgpio hpgood

theorem measurement_slept (descriptors : Finset ℕ) (w : W × Int) :
    let measured :=
      gpioReadBatteryLevelRaw (Setup.files ⟨fs.timed, conf, limits⟩ descriptors) conf w
    w.2 ≤ measured.2.2 ∧ measured.2.2 ≤ w.2 + longestMeasurement conf := by
  dsimp only
  rw [files_timed]
  obtain ⟨time, htime, htakes⟩ := measurement_sleeps _ conf rfl hgpio rfl hpgood w
  have hbounds := htakes.bounds hgpio hpgood
  rw [htime]
  unfold longestMeasurement
  omega

theorem iterate_slept (hpc : d.pc = .iterate) (now : Timeval) (stamp : String)
    (room : ℕ) :
    d.world.2 + 100000 ≤
        (d.iterate ⟨fs.timed, conf, limits⟩ now stamp room).world.2 ∧
      (d.iterate ⟨fs.timed, conf, limits⟩ now stamp room).world.2 ≤
        d.world.2 + 100000 + longestMeasurement conf := by
  have hlongest : 0 ≤ longestMeasurement conf := by
    unfold longestMeasurement
    omega
  have hpolled := polledWorld_slept fs conf limits d
  have hworldStep : WorldStep ⟨fs.timed, conf, limits⟩ d (.iterate now stamp room)
      (d.iterate ⟨fs.timed, conf, limits⟩ now stamp room) :=
    worldStep_iterate hpc now stamp room
  cases hworldStep with
  | polls _ _ _ _ hworld => rw [hworld]; omega
  | measures _ _ _ _ _ hworld =>
      have hmeasured := measurement_slept fs conf limits hgpio hpgood d.descriptors
        (d.polledWorld ⟨fs.timed, conf, limits⟩)
      rw [hworld]
      dsimp only
      omega
  | leaves _ _ hiterate => exact absurd rfl (hiterate _ _ _)

/-- What a step sleeps. -/
theorem Step.slept (hstep : Step ⟨fs.timed, conf, limits⟩ d event next) :
    d.world.2 + 100000 * event.iterations ≤ next.world.2 ∧
      next.world.2 ≤ d.world.2 + (100000 + longestMeasurement conf) * event.iterations +
        1200000 * (next.history.offWrites - d.history.offWrites : Int) := by
  have hawake : next.world = d.world → next.history.offWrites = d.history.offWrites →
      event.iterations = 0 →
      d.world.2 + 100000 * event.iterations ≤ next.world.2 ∧
        next.world.2 ≤ d.world.2 + (100000 + longestMeasurement conf) * event.iterations +
          1200000 * (next.history.offWrites - d.history.offWrites : Int) := by
    intro hworld hwrites hiterations
    simp [hworld, hwrites, hiterations]
  cases hstep with
  | iterate now stamp room hpc =>
      have hslept := iterate_slept fs conf limits hgpio hpgood hpc now stamp room
      rw [(sameRequests_iterate _ d now stamp room).offWrites]
      simp only [DaemonEvent.iterations]
      omega
  | checkOff hpc =>
      have hworldStep : WorldStep ⟨fs.timed, conf, limits⟩ d .checkOff
          (d.checkOff ⟨fs.timed, conf, limits⟩) := worldStep_checkOff hpc
      cases hworldStep with
      | writesOff _ hflag hworld =>
          have hpulses : (gpioWriteOff
              (Setup.files ⟨fs.timed, conf, limits⟩ d.descriptors) conf).Sleeps
              fun _ time => 0 ≤ time ∧ time ≤ 400000 * 3 := by
            rw [files_timed]
            exact pulseOff_sleeps _ _ 3 fun _ _ hpos hle => ⟨hpos, hle⟩
          obtain ⟨time, htime, hpos, hle⟩ := hpulses d.world
          rw [checkOff_history, hworld, hflag]
          simp only [DaemonEvent.iterations, if_true]
          omega
      | leaves hworld _ _ hflag =>
          refine hawake hworld ?_ rfl
          rw [checkOff_history, hflag rfl]
          rfl
  | select => exact hawake (by rw [select_eq]) (by rw [select_history]) rfl
  | serve => exact hawake (by rw [serve_eq]) (by rw [serve_history]) rfl
  | acceptFailed | accepted | readEnded | received | connect | send | receive | close =>
      exact hawake rfl rfl rfl

end Daemon

/-- **How long a run sleeps.** Whatever the files answer and clients do, in every run the daemon has
slept a tenth of a second for each iteration, and beyond that at most the longest measurement for
each iteration and for the one before the loop, and 1.2 seconds for each OFF signal. -/
theorem loop_sleeps (fs : Sysfs W) (conf : Config) (limits : Limits)
    (hgpio : 0 ≤ conf.batteryLevelReader.batteryLevelGpioDelay)
    (hpgood : 0 ≤ conf.batteryLevelReader.batteryLevelPgoodDelay) (world : W) (slept : Int)
    (lastRead : Timeval) (log : Option Logger) (net : Network) (descriptors : Finset ℕ)
    {events : List DaemonEvent} {last : Daemon (W × Int)}
    (hrun : (daemonMachine ⟨fs.timed, conf, limits⟩).run
      (.start ⟨fs.timed, conf, limits⟩ (world, slept) lastRead log net descriptors)
      events = some last) :
    let iterations : ℕ := Machine.total DaemonEvent.iterations events
    slept + 100000 * iterations ≤ last.world.2 ∧
      last.world.2 ≤ slept + 100000 * iterations +
        Daemon.longestMeasurement conf * (iterations + 1) + 1200000 * last.history.offWrites := by
  have hstart := Daemon.measurement_slept fs conf limits hgpio hpgood descriptors (world, slept)
  have hslept : ∀ d event next, True →
      (daemonMachine ⟨fs.timed, conf, limits⟩).step d event = some next →
      d.world.2 + 100000 * event.iterations ≤ next.world.2 ∧
        next.world.2 ≤ d.world.2 + (100000 + Daemon.longestMeasurement conf) * event.iterations +
          1200000 * (next.history.offWrites - d.history.offWrites : Int) :=
    fun _ _ _ _ hnext =>
      (Daemon.Step.of_step hnext).slept fs conf limits hgpio hpgood
  constructor
  · have hleast := Machine.run_cost_le (fun d : Daemon (W × Int) => -d.world.2)
      (fun event => 100000 * (event.iterations : Int)) (fun _ => 0) (fun _ _ _ _ _ => trivial)
      (fun d event next htrue hnext => by
        have hstep := hslept d event next htrue hnext
        omega) trivial hrun
    rw [Machine.total_mul, Machine.total_cast, Machine.total_zero] at hleast
    have hfirst : slept ≤ (Daemon.start ⟨fs.timed, conf, limits⟩ (world, slept) lastRead
      log net descriptors).world.2 := hstart.1
    omega
  · have hmost := Machine.run_cost_le
      (fun d : Daemon (W × Int) => d.world.2 - 1200000 * d.history.offWrites) (fun _ => 0)
      (fun event => (100000 + Daemon.longestMeasurement conf) * (event.iterations : Int))
      (fun _ _ _ _ _ => trivial)
      (fun d event next htrue hnext => by
        have hstep := hslept d event next htrue hnext
        omega) trivial hrun
    rw [Machine.total_mul, Machine.total_cast, Machine.total_zero] at hmost
    have hfirst : (Daemon.start ⟨fs.timed, conf, limits⟩ (world, slept) lastRead log net
      descriptors).world.2 ≤ slept + Daemon.longestMeasurement conf := hstart.2
    have hwrites : (Daemon.start ⟨fs.timed, conf, limits⟩ (world, slept) lastRead log net
      descriptors).history.offWrites = 0 := rfl
    rw [hwrites] at hmost
    push_cast at hmost ⊢
    linarith

/-- Two iterations, the second with a reading. -/
theorem loop_sleeps_twice : ∃ last : Daemon (Unit × Int),
    (daemonMachine ⟨.timed .allHigh, .shipped, .usual⟩).run
        (.start ⟨.timed .allHigh, .shipped, .usual⟩ ((), 0) ⟨0, 0⟩ none .empty ∅)
        [.iterate ⟨1, 0⟩ "" 4096, .select true, .checkOff, .iterate ⟨10, 0⟩ "" 4096] = some last ∧
      last.world.2 = 100000 * 2 + 3120000 * 2 ∧ 0 + 100000 * 2 ≤ last.world.2 ∧
      last.world.2 ≤ 0 + 100000 * 2 + Daemon.longestMeasurement .shipped * (2 + 1) +
        1200000 * last.history.offWrites := by
  have hrun : ∃ last ∈ (daemonMachine ⟨.timed .allHigh, .shipped, .usual⟩).run
      (.start ⟨.timed .allHigh, .shipped, .usual⟩ ((), 0) ⟨0, 0⟩ none .empty ∅)
      [.iterate ⟨1, 0⟩ "" 4096, .select true, .checkOff, .iterate ⟨10, 0⟩ "" 4096],
      last.world.2 = 100000 * 2 + 3120000 * 2 := by decide +kernel
  obtain ⟨last, hlast, hslept⟩ := hrun
  exact ⟨last, hlast, hslept, loop_sleeps .allHigh .shipped .usual (by decide) (by decide) () 0
    ⟨0, 0⟩ none .empty ∅ hlast⟩

end Rocpmd

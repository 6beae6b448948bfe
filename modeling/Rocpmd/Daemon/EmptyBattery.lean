import Rocpmd.Daemon.Halt
import Rocpmd.Daemon.ServedLevels

/-!
# Readings of an empty battery

The loop tests each of its own readings for zero percent, whether or not the reading could be
logged. The reading made before the loop is handed to the server and not tested.
-/

namespace Rocpmd

open Foundation

variable {W : Type}

/-- If the latest reading maps to zero percent, `halt_system` has been called: the daemon does not
sleep, serve or measure again. -/
def EmptyHalts (conf : Config) (d : Daemon W) : Prop :=
  mapBatteryLevel conf d.history.lastReading = 0 → d.pc = .halted

namespace Daemon

variable {setup : Setup W} {d next : Daemon W} {event : DaemonEvent}

theorem Step.emptyHalts (hstep : Step setup d event next) (hhalts : EmptyHalts setup.conf d) :
    EmptyHalts setup.conf next := by
  by_cases hempty : mapBatteryLevel setup.conf d.history.lastReading = 0
  · exact fun _ => (hstep.of_halted (hhalts hempty)).pc
  · rcases hstep.levels_cases with ⟨-, now, stamp, room, rfl⟩ | ⟨-, -, hsame⟩
    · obtain ⟨-, ⟨-, -, hkept⟩ | ⟨-, -, -, hkept⟩ | ⟨-, -, htaken, htested⟩⟩ :=
        d.iterate_cases setup now stamp room
      · exact fun h => absurd (hkept.lastReading ▸ h) hempty
      · exact fun h => absurd (hkept.lastReading ▸ h) hempty
      · exact fun h => htested.mpr (htaken.lastReading ▸ h)
    · exact fun h => absurd (hsame ▸ h) hempty

end Daemon

/-- **When an empty battery shuts the system down.** Over any run of the daemon, each reading that
maps to zero percent is followed by `halt_system`, exactly when the reading before the loop is not
such a one. -/
theorem emptyHalts_along_iff (setup : Setup W) (world : W) (lastRead : Timeval)
    (log : Option Logger) (net : Network) (descriptors : Finset ℕ) (events : List DaemonEvent) :
    (daemonMachine setup).Along (EmptyHalts setup.conf)
        (Daemon.start setup world lastRead log net descriptors) events ↔
      mapBatteryLevel setup.conf
        (gpioReadBatteryLevelRaw (setup.files descriptors) setup.conf world).1 ≠ 0 := by
  rw [Machine.along_iff_start fun _ _ _ hhalts hnext =>
    (Daemon.Step.of_step hnext).emptyHalts hhalts]
  constructor
  · intro hhalts hempty
    cases hhalts hempty
  · exact fun hlevel hempty => absurd hempty hlevel

/-- Every pin reads one but PGOOD, which never goes high. -/
def Sysfs.batteryEmpty : Sysfs Unit where
  read := fun file w => (.opened (if file = .value 13 then "0" else "1"), w)
  write := fun _ _ w => (true, w)
  usleep := fun _ w => w

/-- A daemon that is started on an empty battery sleeps, and goes on to serve requests. -/
theorem empty_at_start_goes_on :
    ¬ (daemonMachine ⟨.batteryEmpty, .shipped, .usual⟩).Along (EmptyHalts .shipped)
      (Daemon.start ⟨.batteryEmpty, .shipped, .usual⟩ () ⟨0, 0⟩ none .empty {})
      [.iterate ⟨1, 0⟩ "" 4096, .select true] := by
  apply Machine.not_along_of_run
  have hrun : ∃ last ∈ (daemonMachine ⟨.batteryEmpty, .shipped, .usual⟩).run
      (Daemon.start ⟨.batteryEmpty, .shipped, .usual⟩ () ⟨0, 0⟩ none .empty {})
      [.iterate ⟨1, 0⟩ "" 4096, .select true],
      mapBatteryLevel .shipped last.history.lastReading = 0 ∧ last.pc ≠ .halted := by
    decide +kernel
  obtain ⟨last, hlast, hempty, hgoesOn⟩ := hrun
  exact ⟨last, hlast, fun hhalts => hgoesOn (hhalts hempty)⟩

end Rocpmd

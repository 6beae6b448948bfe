import Rocpmd.Daemon.LogHistory
import Rocpmd.Logger.Rotation

/-!
# The logs of the last two boots

With each boot the daemon rotates its log, runs for a while and is ended. Ended by a signal or by
`halt_system` it closes its log; killed it does not. The two files that are left can be read back:
they hold the readings of the last boot and of the one before it.
-/

namespace Rocpmd

open Foundation

variable {W : Type}

/-! ## A boot -/

/-- A run of the daemon from the constructor of its log on. -/
structure Boot (W : Type) where
  setup : Setup W
  calls : RotationCalls
  world : W
  lastRead : Timeval
  net : Network
  descriptors : Finset ℕ
  events : List DaemonEvent
  /-- How much room the file has when the log is closed; none if the process is killed. -/
  closing : ℕ
  dated : ∀ event ∈ events, event.Dated

namespace Boot

variable (boot : Boot W) (name : LogName) (files : FileSystem)

/-- The log is opened, if the configuration asks for one. -/
def openLog : Bool × FileSystem :=
  if boot.setup.conf.batteryLevelReader.batteryLevelLog then Logger.logger name boot.calls files
  else (false, files)

/-- The daemon right before its loop. -/
def start (opened : Bool) : Daemon W :=
  .start boot.setup boot.world boot.lastRead (if opened then some .opened else none) boot.net
    boot.descriptors

/-- The files as the boot leaves them. -/
def run : Option FileSystem :=
  let (opened, after) := boot.openLog name files
  ((daemonMachine boot.setup).run (boot.start opened) boot.events).map fun d =>
    match d.batteryLevelLog with
    | some logger =>
        Function.update after name.path (some (.regular (.ofList (logger.close boot.closing))))
    | none => after

/-- The readings of the loop. -/
def readings : List Taken :=
  (daemonMachine boot.setup).watched (recordReading boot.setup) (boot.start true) [] boot.events

/-- If a log is asked for and its directory is writable, the log is opened and the old one kept. -/
def KeepsLogs : Prop :=
  boot.setup.conf.batteryLevelReader.batteryLevelLog = true → boot.calls.accessDirectory = true →
    boot.calls.openLog = true ∧ Logger.KeepsLog name boot.calls files

instance : Decidable (boot.KeepsLogs name files) := inferInstanceAs (Decidable (_ → _ → _))

end Boot

/-- One boot after the other, on the same files. -/
def bootMachine (W : Type) (name : LogName) : Machine FileSystem (Boot W) where
  step files boot := boot.run name files

/-- A ghost beside the files: the boots that had a log, the last one first. -/
def recordBoot (name : LogName) (boots : List (Boot W)) (files : FileSystem) (boot : Boot W) :
    List (Boot W) :=
  if (boot.openLog name files).1 then boot :: boots else boots

/-! ## Reading a log back -/

/-- The file tells the readings of a boot, up to the first one whose line it refused. -/
def HoldsReadings (files : FileSystem) (path : String) (boot : Boot W) : Prop :=
  ∃ content, Logger.Holds files path content ∧
    TellsReadings boot.setup.conf boot.readings boot.closing content.toList

namespace Daemon

variable {setup : Setup W}

/-- A daemon without a log gets none. -/
theorem Step.no_log {d next : Daemon W} {event : DaemonEvent} (hstep : Step setup d event next)
    (hnone : d.batteryLevelLog = none) : next.batteryLevelLog = none := by
  cases hstep.worldStep with
  | polls _ _ _ _ _ hkeeps | writesOff _ _ _ hkeeps | leaves _ hkeeps =>
      rw [hkeeps.log, hnone]
  | measures _ _ _ _ _ _ _ hlog => rw [hlog, hnone]; rfl

theorem no_log_of_run {d last : Daemon W} {events : List DaemonEvent}
    (hrun : (daemonMachine setup).run d events = some last) (hnone : d.batteryLevelLog = none) :
    last.batteryLevelLog = none :=
  (Machine.Reachable.of_run hrun).invariant hnone
    fun _ _ _ hnone _ hnext => (Step.of_step hnext).no_log hnone

end Daemon

/-! ## What a boot leaves -/

namespace Boot

variable {boot : Boot W} {name : LogName} {files next : FileSystem}

theorem dated_readings (boot : Boot W) : ∀ taken ∈ boot.readings, taken.Dated := by
  have hstep (readings : List Taken) (d : Daemon W) : ∀ event ∈ boot.events,
      (∀ taken ∈ readings, taken.Dated) →
        ∀ taken ∈ recordReading boot.setup readings d event, taken.Dated :=
    fun event hevent hreadings => dated_recordReading (boot.dated event hevent) hreadings d
  exact Machine.watched_invariant hstep (boot.start true) (by simp)

/-- A log that was opened holds the readings at the end. -/
theorem log_of_run {last : Daemon W}
    (hrun : (daemonMachine boot.setup).run (boot.start true) boot.events = some last) :
    last.batteryLevelLog =
      some (Logger.opened.logAll (boot.readings.map (Taken.logCall boot.setup.conf))).2 := by
  have hreach := Machine.Reachable.of_run
    (Machine.run_monitored hrun (recordReading boot.setup) [])
  have hlogs : Daemon.LogsReadings boot.setup (last, boot.readings) :=
    hreach.invariant rfl fun _ _ _ hlogs _ hnext => hlogs.step hnext
  exact hlogs

theorem holdsReadings (boot : Boot W) (files : FileSystem) (path : String) :
    HoldsReadings (Function.update files path (some (.regular (.ofList
      ((Logger.opened.logAll (boot.readings.map (Taken.logCall boot.setup.conf))).2.close
        boot.closing))))) path boot := by
  refine ⟨_, Function.update_self .., ?_⟩
  rw [String.toList_ofList]
  exact tellsReadings_close boot.setup.conf boot.dated_readings boot.closing

/-- A boot that keeps the logs and opens none changes nothing. -/
theorem openLog_cases (hkeeps : boot.KeepsLogs name files)
    (hregular : Logger.LogIsRegular name files) :
    boot.openLog name files = (false, files) ∨
      boot.openLog name files = Logger.logger name boot.calls files ∧
        (Logger.logger name boot.calls files).1 = true ∧ Logger.KeepsLog name boot.calls files := by
  unfold openLog
  split
  next hasked =>
    cases haccess : boot.calls.accessDirectory with
    | false =>
        left
        rw [Logger.logger_eq hregular, if_pos haccess]
    | true =>
        obtain ⟨hopen, hkept⟩ := hkeeps hasked haccess
        exact .inr ⟨rfl, (Logger.logger_returned_iff hregular).mpr ⟨haccess, hopen⟩, hkept⟩
  next => exact .inl rfl

/-- A boot with a log leaves its readings there; one without leaves the files to the constructor. -/
theorem run_cases (hrun : boot.run name files = some next) :
    (boot.openLog name files).1 = false ∧ next = (boot.openLog name files).2 ∨
      (boot.openLog name files).1 = true ∧ HoldsReadings next name.path boot ∧
        (∃ content, Logger.Holds next name.path content) ∧
        ∀ path, path ≠ name.path → next path = (boot.openLog name files).2 path := by
  unfold run at hrun
  dsimp only at hrun
  obtain ⟨last, hlast, rfl⟩ := Option.map_eq_some_iff.mp hrun
  cases hopened : (boot.openLog name files).1 with
  | false =>
      rw [hopened] at hlast
      rw [Daemon.no_log_of_run hlast rfl]
      exact .inl ⟨rfl, rfl⟩
  | true =>
      rw [hopened] at hlast
      rw [log_of_run hlast]
      exact .inr ⟨rfl, boot.holdsReadings _ _, ⟨_, Function.update_self ..⟩,
        fun path hne => Function.update_of_ne hne _ _⟩

end Boot

/-! ## Boots -/

/-- The two files hold the readings of the last two boots, and there are no others. -/
structure HoldsLastTwo (name : LogName) (start files : FileSystem) (boots : List (Boot W)) :
    Prop where
  regular : Logger.LogIsRegular name files
  last : ∀ boot earlier, boots = boot :: earlier → HoldsReadings files name.path boot
  preceding : ∀ last boot earlier, boots = last :: boot :: earlier →
    HoldsReadings files name.rotatedPath boot
  others : ∀ path, path ≠ name.path → path ≠ name.rotatedPath → files path = start path

theorem HoldsLastTwo.run {name : LogName} {start files next : FileSystem} {boot : Boot W}
    {boots : List (Boot W)} (hholds : HoldsLastTwo name start files boots)
    (hkeeps : boot.KeepsLogs name files) (hrun : boot.run name files = some next) :
    HoldsLastTwo name start next (recordBoot name boots files boot) := by
  rcases boot.openLog_cases hkeeps hholds.regular with hsame | ⟨hlogger, hreturned, hkept⟩
  · -- nothing has been opened, and nothing has changed
    rcases Boot.run_cases hrun with ⟨-, hnext⟩ | ⟨hopened, -⟩
    · obtain rfl : next = files := by rw [hnext, hsame]
      have hboots : recordBoot name boots next boot = boots := by rw [recordBoot, hsame]; rfl
      rw [hboots]
      exact hholds
    · rw [hsame] at hopened
      cases hopened
  · have hopened : (boot.openLog name files).1 = true := by rw [hlogger, hreturned]
    rcases Boot.run_cases hrun with ⟨hunopened, -⟩ | ⟨-, hreadings, hregular, hothers⟩
    · rw [hopened] at hunopened
      cases hunopened
    have hrotates := (Logger.rotates_iff hholds.regular).mpr hkept
    have hrest (path : String) (hne : path ≠ name.path) :
        next path = (Logger.logger name boot.calls files).2 path := by
      rw [hothers path hne, hlogger]
    rw [recordBoot, if_pos hopened]
    refine ⟨.inr hregular, ?_, ?_, ?_⟩
    · intro last earlier heq
      obtain ⟨rfl, -⟩ := List.cons_eq_cons.mp heq
      exact hreadings
    · -- the log of the boot before is the one that was renamed
      intro last preceding earlier heq
      obtain ⟨-, hearlier⟩ := List.cons_eq_cons.mp heq
      obtain ⟨content, hcontent, hread⟩ := hholds.last preceding earlier hearlier
      refine ⟨content, ?_, hread⟩
      rw [Logger.Holds, hrest _ name.rotatedPath_ne]
      exact hrotates.kept hreturned content hcontent
    · intro path hne hne'
      rw [hrest path hne, hrotates.others hreturned path hne hne']
      exact hholds.others path hne hne'

/-- **The logs of the last two boots.** The daemon is booted any number of times, each time with
its own configuration, and ended at any point. If each boot that can write to the directory opens
its log and keeps the old one, then after the last boot with a log the two files read back as the
readings of that boot and of the one before it, up to the first one whose line was refused, and
there is nothing of earlier boots elsewhere. -/
theorem last_two_logs_read_back (name : LogName) {files : FileSystem}
    (hlog : Logger.LogIsRegular name files) {s : FileSystem × List (Boot W)}
    (hreach : ((bootMachine W name).monitored (recordBoot name)).ReachableUnder
      (fun s boot => boot.KeepsLogs name s.1) (files, []) s) :
    (∀ last earlier, s.2 = last :: earlier → HoldsReadings s.1 name.path last) ∧
      (∀ last preceding earlier, s.2 = last :: preceding :: earlier →
        HoldsReadings s.1 name.rotatedPath preceding) ∧
      ∀ path, path ≠ name.path → path ≠ name.rotatedPath → s.1 path = files path := by
  have hholds : HoldsLastTwo name files s.1 s.2 := by
    apply hreach.invariant
    · exact ⟨hlog, fun _ _ h => absurd h.symm (List.cons_ne_nil _ _),
        fun _ _ _ h => absurd h.symm (List.cons_ne_nil _ _), fun _ _ _ => rfl⟩
    · intro s boot next hholds hkeeps hnext
      obtain ⟨hrun, hghost⟩ := Machine.monitored_step hnext
      rw [hghost]
      exact hholds.run hkeeps hrun
  exact ⟨hholds.last, hholds.preceding, hholds.others⟩

/-- The shipped configuration, but for the log. -/
def Config.recording : Config :=
  { Config.shipped with batteryLevelReader := ⟨10, 10000, 500000, true⟩ }

/-- A boot with one reading on that day, and a full disk until the log is closed. -/
def dailyBoot (day : Fin 32) : Boot Unit where
  setup := ⟨.allHigh, .recording, .usual⟩
  calls := ⟨true, true, true, true, true, true, true⟩
  world := ()
  lastRead := ⟨0, 0⟩
  net := .empty
  descriptors := {}
  events := [.iterate ⟨20, 0⟩ (CalendarTime.nightly day).iso8601Date 2]
  closing := 4096
  dated := List.forall_mem_singleton.mpr ⟨_, rfl⟩

theorem last_two_logs_read_back_threeDays : ∃ s,
    ((bootMachine Unit Logger.batteryLevelLog).monitored
        (recordBoot Logger.batteryLevelLog)).run (fun _ => none, [])
        [dailyBoot 5, dailyBoot 6, dailyBoot 7] = some s ∧
      s.2.map (·.readings.map (·.stamp)) =
        [["2019-01-07 03:04:59"], ["2019-01-06 03:04:59"], ["2019-01-05 03:04:59"]] ∧
      (∀ last earlier, s.2 = last :: earlier →
        HoldsReadings s.1 Logger.batteryLevelLog.path last) ∧
      (∀ last preceding earlier, s.2 = last :: preceding :: earlier →
        HoldsReadings s.1 Logger.batteryLevelLog.rotatedPath preceding) ∧
      ∀ path, path ≠ Logger.batteryLevelLog.path → path ≠ Logger.batteryLevelLog.rotatedPath →
        s.1 path = none := by
  have hmeets : ((bootMachine Unit Logger.batteryLevelLog).monitored
      (recordBoot Logger.batteryLevelLog)).Meets
        (fun s boot => boot.KeepsLogs Logger.batteryLevelLog s.1) (fun _ => none, [])
        [dailyBoot 5, dailyBoot 6, dailyBoot 7] := by
    decide +kernel
  have hrun : ∃ s ∈ ((bootMachine Unit Logger.batteryLevelLog).monitored
      (recordBoot Logger.batteryLevelLog)).run (fun _ => none, [])
        [dailyBoot 5, dailyBoot 6, dailyBoot 7],
      s.2.map (·.readings.map (·.stamp)) =
        [["2019-01-07 03:04:59"], ["2019-01-06 03:04:59"], ["2019-01-05 03:04:59"]] := by
    decide +kernel
  obtain ⟨s, hs, hstamps⟩ := hrun
  exact ⟨s, hs, hstamps, last_two_logs_read_back Logger.batteryLevelLog (.inl rfl)
    (Machine.ReachableUnder.start.of_run hmeets hs)⟩

end Rocpmd

import Mathlib.Data.String.Basic
import Rocpmd.Daemon.ServedLevels
import Rocpmd.Daemon.World
import Rocpmd.Foundation.BracketedList
import Rocpmd.Logger.LogFile

/-!
# The log of a run

The loop logs each of its readings in a line of its own, behind the time of the line. The lines can
be read back: over any run the file holds the readings of the loop up to the first one whose line
was refused, and none that the loop did not take. The refused line itself may still come in when the
log is closed, and then it ends what is there of it already.
-/

namespace Rocpmd

open Foundation

variable {W : Type}

/-! ## Reading a line back -/

/-- The time and the reading of a line: what stands before the last colon, and the first of the
numbers behind it. -/
def readLogLine (line : List Char) : Option (List Char × Int) :=
  let stamp := (line.rdropWhile (· ≠ ':')).dropLast
  let message := (line.rtakeWhile (· ≠ ':')).drop 1
  (readDecimal (message.takeWhile (· ≠ ','))).map fun reading => (stamp, reading)

theorem toList_repr (z : Int) : z.repr.toList = decimalNumeral z := by
  cases z <;> simp [Int.repr, decimalNumeral]

/-- What a line holds behind its last colon. -/
def messageText (conf : Config) (reading : Int) : List Char :=
  ' ' :: (decimalNumeral reading ++ ',' :: (decimalNumeral (mapBatteryLevel conf reading) ++ ['%']))

theorem logLine_readingMessage (conf : Config) (stamp : String) (reading : Int) :
    logLine stamp (readingMessage conf reading) =
      stamp.toList ++ ':' :: messageText conf reading := by
  simp [logLine, readingMessage, messageText, toList_repr]

theorem colon_notMem_messageText (conf : Config) (reading : Int) :
    ∀ c ∈ messageText conf reading, c ≠ ':' := by
  have hdecimal : ∀ z, ∀ c ∈ decimalNumeral z, c ≠ ':' := by
    rintro z c hc rfl
    exact absurd (decimalChar_of_mem hc) (by simp [DecimalChar])
  intro c hc
  simp only [messageText, List.mem_cons, List.mem_append, List.not_mem_nil, or_false] at hc
  rcases hc with rfl | hc | rfl | hc | rfl
  · decide
  · exact hdecimal _ c hc
  · decide
  · exact hdecimal _ c hc
  · decide

/-- A line of the log reads back as its time and its reading, whatever text the time is. -/
theorem readLogLine_line (conf : Config) (stamp : List Char) (reading : Int) :
    readLogLine (stamp ++ ':' :: messageText conf reading) = some (stamp, reading) := by
  have hmessage : ∀ c ∈ (messageText conf reading).reverse, decide (c ≠ ':') = true :=
    fun c hc => decide_eq_true (colon_notMem_messageText conf reading c (List.mem_reverse.mp hc))
  have hreading : ∀ c ∈ decimalNumeral reading, decide (c ≠ ',') = true := by
    rintro c hc
    refine decide_eq_true ?_
    rintro rfl
    exact absurd (decimalChar_of_mem hc) (by simp [DecimalChar])
  have hreverse : (stamp ++ ':' :: messageText conf reading).reverse =
      (messageText conf reading).reverse ++ ':' :: stamp.reverse := by simp
  have hdrop : (stamp ++ ':' :: messageText conf reading).rdropWhile (· ≠ ':') =
      stamp ++ [':'] := by
    rw [List.rdropWhile, hreverse, List.dropWhile_append_of_pos hmessage]
    simp
  have htake : (stamp ++ ':' :: messageText conf reading).rtakeWhile (· ≠ ':') =
      messageText conf reading := by
    rw [List.rtakeWhile, hreverse, List.takeWhile_append_of_pos hmessage]
    simp
  have hread : readDecimal (decimalNumeral reading) = some reading := decimal.read_numeral reading
  rw [readLogLine, hdrop, htake, messageText, List.drop_one, List.tail_cons,
    List.takeWhile_append_of_pos hreading]
  simp [hread]

def readLog (text : List Char) : List (Option (List Char × Int)) :=
  (readLines text).map readLogLine

/-! ## Readings -/

/-- A reading of the loop: when it was logged, what it was, and how much room the file had for its
line. -/
structure Taken where
  stamp : String
  reading : Int
  room : ℕ
deriving DecidableEq, Repr

namespace Taken

def logCall (conf : Config) (taken : Taken) : LogCall :=
  ⟨taken.stamp, readingMessage conf taken.reading, taken.room⟩

def line (conf : Config) (taken : Taken) : List Char := (taken.logCall conf).line

def fits (conf : Config) (taken : Taken) : Bool := (taken.logCall conf).fits

/-- A reading that was logged with its date. -/
def Dated (taken : Taken) : Prop := ∃ time : CalendarTime, taken.stamp = time.iso8601Date

theorem line_eq (conf : Config) (taken : Taken) :
    taken.line conf = taken.stamp.toList ++ ':' :: messageText conf taken.reading :=
  logLine_readingMessage conf taken.stamp taken.reading

/-- The line reads back, also where it goes on in what was there of a line before. -/
theorem readLogLine_append (conf : Config) (taken : Taken) (torn : List Char) :
    readLogLine (torn ++ taken.line conf) =
      some (torn ++ taken.stamp.toList, taken.reading) := by
  rw [line_eq, ← List.append_assoc]
  exact readLogLine_line conf (torn ++ taken.stamp.toList) taken.reading

theorem lineEnd_notMem_line {taken : Taken} (hdated : taken.Dated) (conf : Config) :
    '\n' ∉ taken.line conf := by
  obtain ⟨time, hstamp⟩ := hdated
  have hnumeral (z : Int) : '\n' ∉ decimalNumeral z :=
    fun hmem => absurd (decimalChar_of_mem hmem) (by simp [DecimalChar])
  rw [line_eq, hstamp]
  simp [messageText, time.lineEnd_notMem_iso8601Date, hnumeral]

end Taken

/-- The log of these readings tells them up to the first one whose line the file refused, and then
no more; or, if there was room for it when the log was closed, that one, with what the file had
taken of its line in front of its time. -/
def TellsReadings (conf : Config) (readings : List Taken) (room : ℕ) (text : List Char) : Prop :=
  ∃ late : Option (List Char × Int),
    readLog text = ((readings.takeWhile (Taken.fits conf)).map fun taken =>
      some (taken.stamp.toList, taken.reading)) ++ late.toList.map some ∧
    (room = 0 → late = none) ∧
    ∀ told ∈ late, ∃ refused ∈ readings.find? fun taken => !taken.fits conf,
      ∃ torn, torn <+: refused.line conf ∧
        told = (torn ++ refused.stamp.toList, refused.reading)

theorem tellsReadings_close (conf : Config) {readings : List Taken}
    (hdated : ∀ taken ∈ readings, taken.Dated) (room : ℕ) :
    TellsReadings conf readings room
      ((Logger.opened.logAll (readings.map (Taken.logCall conf))).2.close room) := by
  have hlines : ∀ line ∈ ((readings.map (Taken.logCall conf)).takeWhile LogCall.fits).map
      LogCall.line, '\n' ∉ line := by
    intro line hline
    obtain ⟨call, hcall, rfl⟩ := List.mem_map.mp hline
    obtain ⟨taken, htaken, rfl⟩ := List.mem_map.mp (List.takeWhile_subset _ hcall)
    exact Taken.lineEnd_notMem_line (hdated taken htaken) conf
  have htold : (((readings.map (Taken.logCall conf)).takeWhile LogCall.fits).map
      LogCall.line).map readLogLine = (readings.takeWhile (Taken.fits conf)).map fun taken =>
        some (taken.stamp.toList, taken.reading) := by
    rw [List.takeWhile_map, List.map_map, List.map_map]
    exact List.map_congr_left fun taken _ => taken.readLogLine_append conf []
  have hfirst : firstRefused (readings.map (Taken.logCall conf)) =
      (readings.find? fun taken => !taken.fits conf).map (Taken.logCall conf) := List.find?_map ..
  unfold TellsReadings
  rw [readLog, Logger.close_logAll, readLines_endedLines hlines, List.map_append, htold, hfirst]
  cases hrefused : readings.find? fun taken => !taken.fits conf with
  | none => exact ⟨none, by simp [readLines], fun _ => rfl, by simp⟩
  | some refused =>
      have hmem : refused ∈ readings := List.mem_of_find?_eq_some hrefused
      have hline : '\n' ∉ (refused.logCall conf).line :=
        Taken.lineEnd_notMem_line (hdated refused hmem) conf
      have hfits : refused.fits conf = false := by simpa using List.find?_some hrefused
      obtain ⟨late, hread, hnone, hlate⟩ := readLines_leftover hline hfits room
      simp only [Option.map_some, Option.getD_some, hread]
      cases late with
      | none => exact ⟨none, by simp, fun _ => rfl, by simp⟩
      | some line =>
          obtain ⟨torn, htorn, rfl⟩ := hlate line rfl
          refine ⟨some (torn ++ refused.stamp.toList, refused.reading), ?_, ?_, ?_⟩
          · rw [Option.toList_some, Option.toList_some, List.map_singleton, List.map_singleton]
            exact congrArg (_ ++ [·]) (refused.readLogLine_append conf torn)
          · exact fun hroom => absurd (hnone hroom) (by simp)
          · rintro told ⟨⟩
            exact ⟨refused, rfl, torn, htorn, rfl⟩

/-! ## Runs -/

/-- The line that an iteration may write begins with a date. -/
def DaemonEvent.Dated : DaemonEvent → Prop
  | .iterate _ stamp _ => ∃ time : CalendarTime, stamp = time.iso8601Date
  | _ => True

/-- A ghost beside the daemon: the readings of its loop, in order. -/
def recordReading (setup : Setup W) (readings : List Taken) (d : Daemon W) :
    DaemonEvent → List Taken
  | .iterate now stamp room =>
      if reqOffOutcome setup d = .opened "1" ∧ intervalExpired setup d now = true then
        readings ++ [⟨stamp, levelReading setup d, room⟩]
      else readings
  | _ => readings

variable {setup : Setup W}

/-- The readings have dates if the lines have. -/
theorem dated_recordReading {readings : List Taken} {event : DaemonEvent} (hevent : event.Dated)
    (hreadings : ∀ taken ∈ readings, taken.Dated) (d : Daemon W) :
    ∀ taken ∈ recordReading setup readings d event, taken.Dated := by
  cases event with
  | iterate now stamp room =>
      intro taken htaken
      rw [recordReading] at htaken
      split at htaken
      next =>
        rcases List.mem_append.mp htaken with htaken | htaken
        · exact hreadings taken htaken
        · obtain rfl := List.eq_of_mem_singleton htaken
          exact hevent
      next => exact hreadings taken htaken
  | _ => exact hreadings

theorem Logger.logAll_concat (logger : Logger) (calls : List LogCall) (call : LogCall) :
    (logger.logAll (calls ++ [call])).2 =
      ((logger.logAll calls).2.log call.stamp call.msg call.room).2 := by
  induction calls generalizing logger with
  | nil => rfl
  | cons first rest ih => exact ih _

namespace Daemon

/-- Only a reading of the loop makes a line. -/
theorem log_iterate (d : Daemon W) (now : Timeval) (stamp : String) (room : ℕ) :
    (d.iterate setup now stamp room).batteryLevelLog =
      if reqOffOutcome setup d = .opened "1" ∧ intervalExpired setup d now = true then
        d.batteryLevelLog.map fun logger =>
          (logger.log stamp (readingMessage setup.conf (levelReading setup d)) room).2
      else d.batteryLevelLog := by
  have hpoll := readAsserted_eq_zero_iff (setup.files d.descriptors) (setup.conf.pin .reqOffB)
    ((setup.files d.descriptors).usleep 100000 d.world)
  unfold iterate
  dsimp only
  split
  next hhalt => exact (if_neg fun h => hhalt (hpoll.mpr h.1)).symm
  next hopen =>
    have hone : reqOffOutcome setup d = .opened "1" := hpoll.mp (not_not.mp hopen)
    split
    next hexpired =>
      refine Eq.trans ?_ (if_pos ⟨hone, hexpired⟩).symm
      split <;> rfl
    next hexpired => exact (if_neg fun h => hexpired h.2).symm

/-- The log is that of the readings so far. -/
def LogsReadings (setup : Setup W) (s : Daemon W × List Taken) : Prop :=
  s.1.batteryLevelLog = some (Logger.opened.logAll (s.2.map (Taken.logCall setup.conf))).2

theorem LogsReadings.step {s next : Daemon W × List Taken} {event : DaemonEvent}
    (hlogs : LogsReadings setup s)
    (hstep : ((daemonMachine setup).monitored (recordReading setup)).step s event = some next) :
    LogsReadings setup next := by
  obtain ⟨d, readings⟩ := next
  obtain ⟨hdaemon, rfl⟩ : (daemonMachine setup).step s.1 event = some d ∧
      readings = recordReading setup s.2 s.1 event := Machine.monitored_step hstep
  unfold LogsReadings at *
  cases Step.of_step hdaemon with
  | iterate now stamp room =>
      rw [log_iterate, recordReading]
      split
      next => rw [hlogs, List.map_append, List.map_singleton, Logger.logAll_concat]; rfl
      next => exact hlogs
  | select => rw [select_eq]; exact hlogs
  | serve => rw [serve_eq]; exact hlogs
  | checkOff => rw [checkOff_eq]; exact hlogs
  | acceptFailed | accepted | readEnded | received | connect | send | receive | close =>
      exact hlogs

end Daemon

/-- **The log holds the readings.** Over any run of a daemon with a log, whose lines begin with
dates, the file reads back as the times and the readings of the loop, in order, up to the first one
whose line the file refused. When the log is closed, nothing is added but that reading. -/
theorem log_reads_back (setup : Setup W) (world : W) (lastRead : Timeval) (net : Network)
    (descriptors : Finset ℕ) {s : Daemon W × List Taken}
    (hreach : ((daemonMachine setup).monitored (recordReading setup)).ReachableUnder
      (fun _ event => event.Dated)
      (Daemon.start setup world lastRead (some .opened) net descriptors, []) s) :
    ∃ logger, s.1.batteryLevelLog = some logger ∧
      TellsReadings setup.conf s.2 0 logger.text ∧
      ∀ room, TellsReadings setup.conf s.2 room (logger.close room) := by
  obtain ⟨hlogs, hdated⟩ : Daemon.LogsReadings setup s ∧ ∀ taken ∈ s.2, taken.Dated := by
    apply hreach.invariant
    · exact ⟨rfl, by simp⟩
    · rintro s event next ⟨hlogs, hdated⟩ hevent hnext
      obtain ⟨-, hghost⟩ := Machine.monitored_step hnext
      refine ⟨hlogs.step hnext, ?_⟩
      rw [hghost]
      exact dated_recordReading hevent hdated s.1
  refine ⟨_, hlogs, ?_, tellsReadings_close setup.conf hdated⟩
  have htext := tellsReadings_close setup.conf hdated 0
  rwa [Logger.close, List.take_zero, List.append_nil] at htext

/-- On a day of January. -/
def CalendarTime.nightly (day : Fin 32) : CalendarTime := ⟨2019, 0, day, 3, 4, 59⟩

/-- A reading on each of two days. Of the line of the second the file takes five characters. -/
def refusedLine (day next : Fin 32) : List DaemonEvent :=
  [.iterate ⟨20, 0⟩ (CalendarTime.nightly day).iso8601Date 4096, .select true, .checkOff,
    .iterate ⟨86420, 0⟩ (CalendarTime.nightly next).iso8601Date 5]

theorem log_reads_back_refused : ∃ s,
    ((daemonMachine ⟨.allHigh, .shipped, .usual⟩).monitored
        (recordReading ⟨.allHigh, .shipped, .usual⟩)).run
      (Daemon.start ⟨.allHigh, .shipped, .usual⟩ () ⟨0, 0⟩ (some .opened) .empty {}, [])
      (refusedLine 5 6) = some s ∧
      s.2.map (Taken.fits .shipped) = [true, false] ∧
      ∃ logger, s.1.batteryLevelLog = some logger ∧
        TellsReadings .shipped s.2 0 logger.text ∧
        ∀ room, TellsReadings .shipped s.2 room (logger.close room) := by
  have hdated : ∀ event ∈ refusedLine 5 6, event.Dated := by
    simp [refusedLine, DaemonEvent.Dated]
  have hrun : ∃ s ∈ ((daemonMachine ⟨.allHigh, .shipped, .usual⟩).monitored
      (recordReading ⟨.allHigh, .shipped, .usual⟩)).run
        (Daemon.start ⟨.allHigh, .shipped, .usual⟩ () ⟨0, 0⟩ (some .opened) .empty {}, [])
        (refusedLine 5 6),
      s.2.map (Taken.fits .shipped) = [true, false] := by
    decide +kernel
  obtain ⟨s, hs, hfits⟩ := hrun
  have hreach := Machine.ReachableUnder.start.of_run (Machine.meets_of_events hdated _) hs
  exact ⟨s, hs, hfits, log_reads_back ⟨.allHigh, .shipped, .usual⟩ () ⟨0, 0⟩ .empty {} hreach⟩

end Rocpmd

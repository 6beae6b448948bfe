import Rocpmd.Client.Command
import Rocpmd.Daemon.Halt
import Rocpmd.Gpio.MissingFiles
import Rocpmd.Instance.Process

/-!
# Reports of charging

Where `main` and the daemon report a reading, every negative number stands for a charging board. The
errors of a pin, of a measurement and of the exchange with the daemon are negative too.
-/

namespace Rocpmd

open Foundation

variable {W : Type}

/-! ## What main prints -/

inductive ReportLine
  | rawPowerLevel (rawPower : Int)
  | percentagePowerLevel (percentPower : Int)
  | charging
deriving DecidableEq, Repr

namespace ReportLine

def text : ReportLine → String
  | rawPowerLevel rawPower => "Raw power level:        " ++ toString rawPower
  | percentagePowerLevel percentPower =>
      "Percentage power level: " ++ toString percentPower ++ "%"
  | charging => "Charging..."

/-- The line for the daemon's answer to a query. -/
def ofAnswer (query : LevelQuery) (power : Int) : ReportLine :=
  if power ≥ 0 then
    match query with
    | .raw => rawPowerLevel power
    | .percent => percentagePowerLevel power
  else charging

end ReportLine

/-- The queries `main` makes if a daemon lives, in order. -/
def CmdlineOptions.levelQueries (opts : CmdlineOptions) : List LevelQuery :=
  (if opts.isBatteryLevelRaw then [.raw] else []) ++
    (if opts.isBatteryLevel then [.percent] else [])

/-- A line for each query, up to a call of `ud_client_send_command` that does not return. -/
def answerLines (power : LevelQuery → Option Int) : List LevelQuery → List ReportLine
  | [] => []
  | query :: rest =>
      match power query with
      | none => []
      | some answer => .ofAnswer query answer :: answerLines power rest

/-- The lines printed when the battery is read by the daemon; `power` is what each
`ud_client_send_command` returned. -/
def reportByUd (opts : CmdlineOptions) (power : LevelQuery → Option Int) : List ReportLine :=
  answerLines power opts.levelQueries

theorem answerLines_of_some {power : LevelQuery → Option Int} {answer : LevelQuery → Int}
    (hpower : ∀ query, power query = some (answer query)) (queries : List LevelQuery) :
    answerLines power queries = queries.map fun query => .ofAnswer query (answer query) := by
  induction queries with
  | nil => rfl
  | cons query rest ih => rw [answerLines, hpower, ih, List.map_cons]

/-- The lines printed when the battery is read through sysfs. -/
def reportBySysfs (opts : CmdlineOptions) (conf : Config) (rawPower : Int) : List ReportLine :=
  if rawPower ≥ 0 then
    (if opts.isBatteryLevelRaw then [.rawPowerLevel rawPower] else []) ++
      (if opts.isBatteryLevel then
        [.percentagePowerLevel (conf.getPowermapElementAt rawPower.toNat)] else [])
  else [.charging]

theorem charging_mem_reportBySysfs_iff (opts : CmdlineOptions) (conf : Config) (rawPower : Int) :
    .charging ∈ reportBySysfs opts conf rawPower ↔ rawPower < 0 := by
  unfold reportBySysfs
  split
  next hge =>
    apply iff_of_false _ (Int.not_lt.mpr hge)
    split_ifs <;> simp
  next hlt => exact iff_of_true (by simp) (Int.not_le.mp hlt)

theorem ofAnswer_eq_charging_iff (query : LevelQuery) (power : Int) :
    ReportLine.ofAnswer query power = .charging ↔ power < 0 := by
  unfold ReportLine.ofAnswer
  split
  next hge => exact iff_of_false (by cases query <;> simp) (Int.not_lt.mpr hge)
  next hlt => exact iff_of_true rfl (Int.not_le.mp hlt)

/-! ## Measurements -/

section Measurements

variable (fs : Sysfs W) (conf : Config) (w : W)

/-- The measurement read D2_B, successfully and as low. -/
def ReadD2Low : Prop := d2Outcome fs conf w = some (.opened "0")

/-- If the measurement gets to D2_B, the file says zero or one. -/
def D2Answers : Prop :=
  ∀ outcome, d2Outcome fs conf w = some outcome → outcome = .opened "0" ∨ outcome = .opened "1"

/-- A level is only measured on battery power. -/
theorem not_readD2Low_of_level (hlevel : 0 ≤ (gpioReadBatteryLevelRaw fs conf w).1) :
    ¬ ReadD2Low fs conf w := by
  rcases gpioReadBatteryLevelRaw_cases fs conf w with
    ⟨-, herror⟩ | ⟨_, -, -, hcharging⟩ | ⟨hone, -⟩
  · rw [herror] at hlevel
    exact absurd hlevel (by decide)
  · rw [hcharging] at hlevel
    exact absurd hlevel (by decide)
  · simp [ReadD2Low, hone]

/-- Where D2_B was not read as one, the measurement is sound if it was read as zero. -/
theorem readD2Low_iff_of_outcome {outcome : ReadOutcome}
    (hsome : d2Outcome fs conf w = some outcome) (hne : outcome ≠ .opened "1") :
    ReadD2Low fs conf w ↔ D2Answers fs conf w := by
  simp [ReadD2Low, D2Answers, hsome, hne]

theorem charging_sound_iff :
    ((gpioReadBatteryLevelRaw fs conf w).1 = charging → ReadD2Low fs conf w) ↔
      D2Answers fs conf w := by
  rcases gpioReadBatteryLevelRaw_cases fs conf w with
    ⟨hnone, herror⟩ | ⟨outcome, hsome, hne, hcharging⟩ | ⟨hone, hreading⟩
  · simp [D2Answers, hnone, herror, gpioError, charging]
  · rw [← readD2Low_iff_of_outcome fs conf w hsome hne]
    simp [hcharging]
  · apply iff_of_true
    · intro hcharging
      rw [hcharging] at hreading
      exact absurd hreading (by simp [IsReading, charging, gpioError])
    · simp [D2Answers, hone]

/-- D2_B's file is among those that can be opened if it gives an answer. -/
theorem filesOpen_iff_of_answers (hanswers : D2Answers fs conf w) :
    FilesOpen fs conf w ↔ (gpioReadBatteryLevelRaw fs conf w).1 ≠ gpioError := by
  rw [filesOpen_iff, and_iff_left]
  intro hmissing
  rcases hanswers _ hmissing with h | h <;> cases h

/-- The same for everything that is taken for charging. -/
theorem negative_sound_iff :
    ((gpioReadBatteryLevelRaw fs conf w).1 < 0 → ReadD2Low fs conf w) ↔
      D2Answers fs conf w ∧ FilesOpen fs conf w := by
  rw [and_congr_right (filesOpen_iff_of_answers fs conf w)]
  rcases gpioReadBatteryLevelRaw_cases fs conf w with
    ⟨hnone, herror⟩ | ⟨outcome, hsome, hne, hcharging⟩ | ⟨hone, herror | hlevel⟩
  · simp [ReadD2Low, hnone, herror, gpioError]
  · rw [← readD2Low_iff_of_outcome fs conf w hsome hne]
    simp [hcharging, charging, gpioError]
  · simp [ReadD2Low, hone, herror, gpioError]
  · apply iff_of_true (fun hneg => absurd hneg (Int.not_lt.mpr hlevel))
    refine ⟨by simp [D2Answers, hone], fun herror => ?_⟩
    rw [herror] at hlevel
    exact absurd hlevel (by decide)

/-- The same for a percentage: an entry of the powermap must not pass for charging either. -/
theorem percentage_sound_iff (taken : Int → Prop) (htaken : taken (-1)) :
    (taken (mapBatteryLevel conf (gpioReadBatteryLevelRaw fs conf w).1) → ReadD2Low fs conf w) ↔
      (D2Answers fs conf w ∧ FilesOpen fs conf w) ∧
        (0 ≤ (gpioReadBatteryLevelRaw fs conf w).1 →
          ¬ taken (conf.getPowermapElementAt (gpioReadBatteryLevelRaw fs conf w).1.toNat)) := by
  rw [← negative_sound_iff, mapBatteryLevel]
  split
  next hlevel =>
    have hnot := not_readD2Low_of_level fs conf w hlevel
    simp [hnot, hlevel]
  next hneg =>
    have hlt := Int.not_le.mp hneg
    simp [htaken, hlt, hneg]

end Measurements

/-! ## Presentations of a reading -/

/-- A daemon in some state of a run, and where its latest measurement started. -/
structure RunningDaemon (setup : Setup W) where
  daemon : Daemon W
  latest : Measurement W
  reachable : ∃ world lastRead log net descriptors,
    (Daemon.measuring setup).Reachable
      (Daemon.start setup world lastRead log net descriptors, ⟨setup.files descriptors, world⟩)
      (daemon, latest)

/-- Whatever state a daemon gets to, it is one of a running daemon. -/
theorem RunningDaemon.exists_of_reachable {setup : Setup W} {world : W} {lastRead : Timeval}
    {log : Option Logger} {net : Network} {descriptors : Finset ℕ} {d : Daemon W}
    (hreach : (daemonMachine setup).Reachable
      (Daemon.start setup world lastRead log net descriptors) d) :
    ∃ running : RunningDaemon setup, running.daemon = d := by
  obtain ⟨latest, hwatched⟩ :=
    hreach.exists_monitored (Daemon.measuredIn setup) ⟨setup.files descriptors, world⟩
  exact ⟨⟨d, latest, world, lastRead, log, net, descriptors, hwatched⟩, rfl⟩

/-- The command that makes a query. -/
def LevelQuery.command : LevelQuery → Command
  | percent => .sendPowerLevelPercent
  | raw => .sendPowerLevelRaw

/-- All four bytes of the variable were read. -/
def Exchange.Fills : Exchange → Prop
  | received bytes _ => bytes.length = 4
  | _ => False

/-- The ways in which the program presents a reading: `gpio_read_battery_level_raw` returns it, the
daemon holds its percentage, `main` prints the daemon's answer to a query, or `main` prints what it
measured itself. -/
inductive Presentation (setup : Setup W)
  | returned (world : W)
  | served (running : RunningDaemon setup)
  | printedByUd (running : RunningDaemon setup) (query : LevelQuery) (powerLevel : CommandBuffer)
      (exchange : Exchange)
      (hdelivers : exchange.Delivers (running.daemon.ud.replyBytes query.command))
  | printedBySysfs (opts : CmdlineOptions) (world : W)

namespace Presentation

variable {setup : Setup W}

def ShowsCharging : Presentation setup → Prop
  | returned world => (gpioReadBatteryLevelRaw setup.fs setup.conf world).1 = charging
  | served running => running.daemon.ud.batteryLevelPercent = -1
  | printedByUd _ query powerLevel exchange _ =>
      ∃ answer, udClientSendCommand query.command.code powerLevel exchange = some answer ∧
        ReportLine.ofAnswer query answer = .charging
  | printedBySysfs opts world =>
      .charging ∈ reportBySysfs opts setup.conf
        (gpioReadBatteryLevelRaw setup.fs setup.conf world).1

/-- There is a measurement being reported, and it read D2_B as low. -/
def Justified : Presentation setup → Prop
  | returned world | printedBySysfs _ world => ReadD2Low setup.fs setup.conf world
  | served running => ReadD2Low running.latest.files setup.conf running.latest.world
  | printedByUd running _ _ exchange _ =>
      exchange.Fills ∧ ReadD2Low running.latest.files setup.conf running.latest.world

/-- Charging is shown only when charging. -/
def Sound (presentation : Presentation setup) : Prop :=
  presentation.ShowsCharging → presentation.Justified

/-- The files of the measurement can be opened, and D2_B gives an answer if it gets there. -/
def Measured (conf : Config) (measurement : Measurement W) : Prop :=
  D2Answers measurement.files conf measurement.world ∧
    FilesOpen measurement.files conf measurement.world

/-- The entry of the powermap for the level a daemon holds, if it holds one, is not taken for
charging. -/
def Mapped (running : RunningDaemon setup) (taken : Int → Prop) : Prop :=
  0 ≤ running.daemon.ud.batteryLevelRaw →
    ¬ taken (setup.conf.getPowermapElementAt running.daemon.ud.batteryLevelRaw.toNat)

/-- No failure stands behind the presentation, and no negative entry of the powermap; if the reply
is incomplete, the memory of the client passes for a level. -/
def Clear : Presentation setup → Prop
  | returned world => D2Answers setup.fs setup.conf world
  | served running => Measured setup.conf running.latest ∧ Mapped running (· = -1)
  | printedBySysfs _ world => Measured setup.conf ⟨setup.fs, world⟩
  | printedByUd running query powerLevel exchange _ =>
      match exchange with
      | .received bytes _ =>
          if bytes.length = 4 then
            Measured setup.conf running.latest ∧ (query = .percent → Mapped running (· < 0))
          else 0 ≤ powerLevel.value
      | .brokenPipe => True
      | _ => False

end Presentation

/-! ## When reports of charging are justified -/

theorem isInt_gpioReadBatteryLevelRaw (fs : Sysfs W) (conf : Config) (w : W) :
    IsInt (gpioReadBatteryLevelRaw fs conf w).1 := by
  have hle := gpioReadBatteryLevelRaw_le fs conf w
  have hge : gpioError ≤ (gpioReadBatteryLevelRaw fs conf w).1 := by
    rcases gpioReadBatteryLevelRaw_cases fs conf w with
      ⟨-, h⟩ | ⟨_, -, -, h⟩ | ⟨-, h | h⟩
    · exact h.ge
    · rw [h]; decide
    · exact h.ge
    · exact Int.le_trans (by decide) h
  simp only [gpioError] at hge
  constructor <;> omega

theorem isInt_mapBatteryLevel {conf : Config} (hconf : ∀ i, IsInt (conf.getPowermapElementAt i))
    (raw : Int) : IsInt (mapBatteryLevel conf raw) := by
  unfold mapBatteryLevel
  split
  next => exact hconf _
  next => exact ⟨by decide, by decide⟩

namespace RunningDaemon

variable {setup : Setup W} (running : RunningDaemon setup)

theorem batteryLevelRaw_eq :
    running.daemon.ud.batteryLevelRaw = running.latest.raw setup.conf := by
  obtain ⟨world, lastRead, log, net, descriptors, hreach⟩ := running.reachable
  have hlatest := Daemon.servesLatest_of_reachable (Machine.reachable_of_monitored hreach)
  rw [hlatest.raw]
  exact Daemon.lastReading_of_measuring hreach

theorem batteryLevelPercent_eq : running.daemon.ud.batteryLevelPercent =
    mapBatteryLevel setup.conf (running.latest.raw setup.conf) := by
  obtain ⟨world, lastRead, log, net, descriptors, hreach⟩ := running.reachable
  have hlatest := Daemon.servesLatest_of_reachable (Machine.reachable_of_monitored hreach)
  rw [hlatest.percent]
  exact congrArg _ (Daemon.lastReading_of_measuring hreach)

end RunningDaemon

/-- What a client makes of a whole reply is the value the daemon holds. -/
theorem fill_whole_reply {setup : Setup W}
    (hconf : ∀ i, IsInt (setup.conf.getPowermapElementAt i)) (running : RunningDaemon setup)
    (query : LevelQuery) (powerLevel : CommandBuffer) {bytes : List UInt8}
    (hshort : bytes.length ≤ 4) (hwhole : bytes.length = 4)
    (hpart : bytes <+: running.daemon.ud.replyBytes query.command) :
    (powerLevel.fill bytes hshort).value =
      query.answer setup.conf (running.latest.raw setup.conf) := by
  have hpercent : IsInt running.daemon.ud.batteryLevelPercent := by
    rw [running.batteryLevelPercent_eq]
    exact isInt_mapBatteryLevel hconf _
  have hraw : IsInt running.daemon.ud.batteryLevelRaw := by
    rw [running.batteryLevelRaw_eq]
    exact isInt_gpioReadBatteryLevelRaw _ _ _
  refine ((fill_reply hpercent hraw hshort hpart hwhole).2 powerLevel).trans ?_
  cases query with
  | percent => exact running.batteryLevelPercent_eq
  | raw => exact running.batteryLevelRaw_eq

/-- **When reports of charging are justified.** A presentation of a reading shows a charging board
only if D2_B was read as low in the measurement it reports, exactly when the presentation is clear
of failures. A failure to read D2_B, or any other of the measurement or of the exchange, is reported
as charging. -/
theorem charging_justified_iff (setup : Setup W)
    (hconf : ∀ i, IsInt (setup.conf.getPowermapElementAt i)) (presentation : Presentation setup) :
    presentation.Sound ↔ presentation.Clear := by
  cases presentation with
  | returned world => exact charging_sound_iff setup.fs setup.conf world
  | served running =>
      simp only [Presentation.Sound, Presentation.ShowsCharging, Presentation.Clear,
        Presentation.Mapped, running.batteryLevelPercent_eq, running.batteryLevelRaw_eq]
      exact percentage_sound_iff running.latest.files setup.conf _ (· = -1) rfl
  | printedBySysfs opts world =>
      simp only [Presentation.Sound, Presentation.ShowsCharging, charging_mem_reportBySysfs_iff]
      exact negative_sound_iff setup.fs setup.conf world
  | printedByUd running query powerLevel exchange hdelivers =>
      simp only [Presentation.Sound, Presentation.ShowsCharging, Presentation.Justified,
        Presentation.Clear, Presentation.Mapped, running.batteryLevelRaw_eq,
        ofAnswer_eq_charging_iff, udClientSendCommand_code]
      cases exchange with
      | brokenPipe =>
          apply iff_of_true _ trivial
          rintro ⟨_, hreturned, _⟩
          cases hreturned
      | socketFailed | connectFailed | writeFailed | readFailed =>
          apply iff_of_false _ not_false
          exact fun h => (h ⟨rocpmdCommError, rfl, by decide⟩).1
      | received bytes hshort =>
          simp only [Option.some.injEq, exists_eq_left']
          split
          next hwhole =>
            have hfills : (Exchange.received bytes hshort).Fills := hwhole
            rw [fill_whole_reply hconf running query powerLevel hshort hwhole hdelivers,
              and_iff_right hfills]
            cases query with
            | raw =>
                rw [and_iff_left (by simp)]
                exact negative_sound_iff running.latest.files setup.conf running.latest.world
            | percent =>
                rw [forall_prop_of_true rfl]
                exact percentage_sound_iff running.latest.files setup.conf running.latest.world
                  (· < 0) (by decide)
          next hfew =>
            have hfills : ¬ (Exchange.received bytes hshort).Fills := hfew
            rw [CommandBuffer.fill_value_neg_iff _ _ hfew]
            simp [hfills]

/-- A daemon on a board whose pins read one, which has just measured the level. -/
def RunningDaemon.shipped : RunningDaemon ⟨.allHigh, .shipped, .usual⟩ where
  daemon := Daemon.start ⟨.allHigh, .shipped, .usual⟩ () ⟨0, 0⟩ none .empty {}
  latest := ⟨Setup.files ⟨.allHigh, .shipped, .usual⟩ {}, ()⟩
  reachable := ⟨(), ⟨0, 0⟩, none, .empty, {}, .start⟩

theorem isInt_shipped (i : ℕ) : IsInt (Config.shipped.getPowermapElementAt i) := by
  rcases Nat.lt_or_ge i 64 with hlt | hge
  · revert i
    decide +kernel
  · rw [Config.getPowermapElementAt_of_le _ hge]
    exact (by decide : IsInt 0)

theorem charging_justified_shipped :
    (Presentation.served RunningDaemon.shipped).Sound ↔
      (Presentation.served RunningDaemon.shipped).Clear :=
  charging_justified_iff ⟨.allHigh, .shipped, .usual⟩ isInt_shipped (.served .shipped)

/-- Every pin reads one but D2_B, whose file cannot be opened. -/
def Sysfs.d2Missing : Sysfs Unit where
  read := fun file w => (if file = .value 26 then .cannotOpen else .opened "1", w)
  write := fun _ _ w => (true, w)
  usleep := fun _ w => w

/-- A D2_B that cannot be read, a board no pin of which can be read, and a daemon that cannot be
reached are all reported as charging. -/
theorem failures_shown_as_charging :
    ¬ (.returned () : Presentation ⟨.d2Missing, .shipped, .usual⟩).Sound ∧
      ¬ (.printedBySysfs ⟨false, true, false, false⟩ () :
        Presentation ⟨.allMissing, .shipped, .usual⟩).Sound ∧
      ¬ (Presentation.printedByUd .shipped .percent ⟨[0, 0, 0, 0], rfl⟩ .connectFailed
        trivial).Sound ∧
      reportByUd ⟨false, true, true, false⟩ (fun query =>
        udClientSendCommand query.command.code ⟨[0, 0, 0, 0], rfl⟩ .connectFailed) =
        [.charging, .charging] := by
  refine ⟨fun hsound => ?_, fun hsound => ?_, fun hsound => ?_, rfl⟩
  · have hcharging : (gpioReadBatteryLevelRaw .d2Missing .shipped ()).1 = charging := by
      decide +kernel
    have hd2 : d2Outcome .d2Missing .shipped () = some .cannotOpen := by decide +kernel
    have hlow := hsound hcharging
    rw [Presentation.Justified, ReadD2Low, hd2] at hlow
    cases hlow
  · have hcharging : .charging ∈ reportBySysfs ⟨false, true, false, false⟩ .shipped
        (gpioReadBatteryLevelRaw .allMissing .shipped ()).1 := by
      decide +kernel
    have hd2 : d2Outcome .allMissing .shipped () = none := by decide +kernel
    have hlow := hsound hcharging
    rw [Presentation.Justified, ReadD2Low, hd2] at hlow
    cases hlow
  · exact (hsound ⟨rocpmdCommError, rfl, rfl⟩).1

end Rocpmd

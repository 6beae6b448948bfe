import Rocpmd.Client.ChargingReports

/-!
# The two ways to answer a query

`main` prints the answers of the daemon, if one lives, and otherwise what it measures itself. On the
one path the sign of each value is looked at, on the other that of the measurement alone.
-/

namespace Rocpmd

variable {W : Type}

/-- What `gpio_read_battery_level_raw` can return. -/
def IsResult (r : Int) : Prop := r = gpioError ∨ r = charging ∨ (0 ≤ r ∧ r ≤ 63)

instance (r : Int) : Decidable (IsResult r) := inferInstanceAs (Decidable (_ ∨ _))

theorem isResult_gpioReadBatteryLevelRaw (fs : Sysfs W) (conf : Config) (w : W) :
    IsResult (gpioReadBatteryLevelRaw fs conf w).1 := by
  have hle := gpioReadBatteryLevelRaw_le fs conf w
  rcases gpioReadBatteryLevelRaw_cases fs conf w with
    ⟨-, herror⟩ | ⟨_, -, -, hcharging⟩ | ⟨-, herror | hlevel⟩
  · exact .inl herror
  · exact .inr (.inl hcharging)
  · exact .inl herror
  · exact .inr (.inr ⟨hlevel, hle⟩)

theorem IsResult.isInt {r : Int} (hresult : IsResult r) : IsInt r := by
  rcases hresult with rfl | rfl | ⟨hlower, hupper⟩
  · decide
  · decide
  · constructor <;> omega

/-- The values of the server are those of a measurement with the result. -/
structure UdServer.Stores (ud : UdServer) (conf : Config) (r : Int) : Prop where
  raw : ud.batteryLevelRaw = r
  percent : ud.batteryLevelPercent = mapBatteryLevel conf r

/-- A running daemon's always are. -/
theorem RunningDaemon.stores {setup : Setup W} (running : RunningDaemon setup) :
    running.daemon.ud.Stores setup.conf (running.latest.raw setup.conf) where
  raw := running.batteryLevelRaw_eq
  percent := running.batteryLevelPercent_eq

/-! ## The lines of either path -/

theorem length_levelReply (ud : UdServer) (query : LevelQuery) :
    (ud.replyBytes query.command).length = 4 := by
  cases query <;> rfl

/-- What `main` prints if a daemon lives and every reply arrives as a whole. -/
def linesByUd (opts : CmdlineOptions) (ud : UdServer) (powerLevel : LevelQuery → CommandBuffer) :
    List ReportLine :=
  if opts.queries then
    reportByUd opts fun query => udClientSendCommand query.command.code (powerLevel query)
      (.received (ud.replyBytes query.command) (length_levelReply ud query).le)
  else []

/-- What it prints if none does and its own measurement has the result. -/
def linesBySysfs (opts : CmdlineOptions) (conf : Config) (r : Int) : List ReportLine :=
  if opts.queries then reportBySysfs opts conf r else []

theorem udClientSendCommand_stored {ud : UdServer} {conf : Config} {r : Int}
    (hstores : ud.Stores conf r) (hr : IsInt r) (hpercent : IsInt (mapBatteryLevel conf r))
    (query : LevelQuery) (powerLevel : CommandBuffer) :
    udClientSendCommand query.command.code powerLevel
      (.received (ud.replyBytes query.command) (length_levelReply ud query).le) =
        some (query.answer conf r) := by
  rw [udClientSendCommand_code, Option.some.injEq]
  refine ((fill_reply (hstores.percent ▸ hpercent) (hstores.raw ▸ hr) _ (List.prefix_refl _)
    (length_levelReply ud query)).2 powerLevel).trans ?_
  cases query with
  | percent => exact hstores.percent
  | raw => exact hstores.raw

theorem linesByUd_eq {ud : UdServer} {conf : Config} {r : Int} (hstores : ud.Stores conf r)
    (hr : IsInt r) (hpercent : IsInt (mapBatteryLevel conf r)) (opts : CmdlineOptions)
    (powerLevel : LevelQuery → CommandBuffer) :
    linesByUd opts ud powerLevel =
      opts.levelQueries.map fun query => .ofAnswer query (query.answer conf r) := by
  rw [linesByUd]
  split
  next =>
    exact answerLines_of_some
      (fun query => udClientSendCommand_stored hstores hr hpercent query (powerLevel query)) _
  next hnone =>
    simp only [CmdlineOptions.queries, Bool.or_eq_true, not_or] at hnone
    rw [CmdlineOptions.levelQueries, if_neg hnone.1, if_neg hnone.2]
    rfl

/-! ## Where the paths part -/

/-- Both options are given and the board is charging, or cannot be measured: the daemon's answers
give a line each. -/
def SaysChargingTwice (opts : CmdlineOptions) (r : Int) : Prop :=
  opts.isBatteryLevel ∧ opts.isBatteryLevelRaw ∧ r < 0

/-- The percentage of a level is negative: the daemon's answer is taken for charging. -/
def NegativePercentage (opts : CmdlineOptions) (conf : Config) (r : Int) : Prop :=
  opts.isBatteryLevel ∧ 0 ≤ r ∧ conf.getPowermapElementAt r.toNat < 0

theorem mapBatteryLevel_of_neg (conf : Config) {r : Int} (hr : r < 0) :
    mapBatteryLevel conf r = -1 := if_neg (Int.not_le.mpr hr)

theorem mapBatteryLevel_of_nonneg (conf : Config) {r : Int} (hr : 0 ≤ r) :
    mapBatteryLevel conf r = conf.getPowermapElementAt r.toNat := if_pos hr

/-- Without a measurement each answer is a line, and `main` alone prints one. -/
theorem answers_eq_linesBySysfs_of_neg (opts : CmdlineOptions) (conf : Config) {r : Int}
    (hr : r < 0) :
    (opts.levelQueries.map fun query => ReportLine.ofAnswer query (query.answer conf r)) =
        linesBySysfs opts conf r ↔ ¬ SaysChargingTwice opts r := by
  have hcharging : ∀ query, ReportLine.ofAnswer query (query.answer conf r) = .charging := by
    intro query
    rw [ofAnswer_eq_charging_iff]
    cases query with
    | percent => rw [LevelQuery.answer, mapBatteryLevel_of_neg conf hr]; decide
    | raw => exact hr
  simp only [hcharging, linesBySysfs, reportBySysfs, ge_iff_le, if_neg (Int.not_le.mpr hr),
    CmdlineOptions.levelQueries, CmdlineOptions.queries, SaysChargingTwice, hr, and_true]
  cases opts.isBatteryLevel <;> cases opts.isBatteryLevelRaw <;> decide

/-- Of a level the raw lines agree, and the percentages if the one is not taken for charging. -/
theorem answers_eq_linesBySysfs_of_nonneg (opts : CmdlineOptions) (conf : Config) {r : Int}
    (hr : 0 ≤ r) :
    (opts.levelQueries.map fun query => ReportLine.ofAnswer query (query.answer conf r)) =
        linesBySysfs opts conf r ↔ ¬ NegativePercentage opts conf r := by
  have hraw : ReportLine.ofAnswer .raw (LevelQuery.raw.answer conf r) = .rawPowerLevel r :=
    if_pos hr
  have hpercent : ReportLine.ofAnswer .percent (LevelQuery.percent.answer conf r) =
      .percentagePowerLevel (conf.getPowermapElementAt r.toNat) ↔
        ¬ conf.getPowermapElementAt r.toNat < 0 := by
    rw [LevelQuery.answer, mapBatteryLevel_of_nonneg conf hr, ReportLine.ofAnswer]
    split
    next hge => exact iff_of_true rfl (Int.not_lt.mpr hge)
    next hlt => exact iff_of_false (by simp) (not_not_intro (Int.not_le.mp hlt))
  simp only [linesBySysfs, reportBySysfs, ge_iff_le, hr, if_true, CmdlineOptions.levelQueries,
    CmdlineOptions.queries, NegativePercentage, true_and]
  cases opts.isBatteryLevel <;> cases opts.isBatteryLevelRaw <;> simp [hraw, hpercent]

/-- The entry of a level is in the powermap, wherever that was loaded. -/
theorem IsResult.element {conf : Config} (hsize : 64 ≤ conf.getPowermapSize) {r : Int}
    (hresult : IsResult r) (hr : 0 ≤ r) :
    conf.powermap[r.toNat]? = some (conf.getPowermapElementAt r.toNat) := by
  apply conf.getPowermapElementAt_of_lt
  rcases hresult with rfl | rfl | ⟨-, hupper⟩
  · exact absurd hr (by decide)
  · exact absurd hr (by decide)
  · omega

/-- The daemon and `main` each load the powermap for themselves, and map a result alike. -/
theorem IsResult.mapBatteryLevel_eq {conf daemonConf : Config}
    (hpowermap : daemonConf.powermap = conf.powermap) (hsize : 64 ≤ conf.getPowermapSize) {r : Int}
    (hresult : IsResult r) : mapBatteryLevel daemonConf r = mapBatteryLevel conf r := by
  by_cases hr : 0 ≤ r
  · have hdaemon : daemonConf.powermap[r.toNat]? =
        some (daemonConf.getPowermapElementAt r.toNat) :=
      hresult.element (by rw [Config.getPowermapSize, hpowermap]; exact hsize) hr
    rw [hpowermap, hresult.element hsize hr] at hdaemon
    rw [mapBatteryLevel_of_nonneg _ hr, mapBatteryLevel_of_nonneg _ hr]
    exact (Option.some.inj hdaemon).symm
  · rw [mapBatteryLevel_of_neg _ (Int.not_le.mp hr), mapBatteryLevel_of_neg _ (Int.not_le.mp hr)]

theorem IsResult.isInt_mapBatteryLevel {conf : Config} (hsize : 64 ≤ conf.getPowermapSize)
    (hints : ∀ element ∈ conf.powermap, IsInt element) {r : Int} (hresult : IsResult r) :
    IsInt (mapBatteryLevel conf r) := by
  by_cases hr : 0 ≤ r
  · rw [mapBatteryLevel_of_nonneg _ hr]
    exact hints _ (List.mem_of_getElem? (hresult.element hsize hr))
  · rw [mapBatteryLevel_of_neg _ (Int.not_le.mp hr)]
    decide

/-- The lines of the two paths are the same unless charging is reported to both options, or a
percentage is negative. -/
theorem query_paths_agree_iff (conf daemonConf : Config)
    (hpowermap : daemonConf.powermap = conf.powermap) (hsize : 64 ≤ conf.getPowermapSize)
    (hints : ∀ element ∈ conf.powermap, IsInt element) (r : Int) (hresult : IsResult r)
    (ud : UdServer) (hstores : ud.Stores daemonConf r) (opts : CmdlineOptions)
    (powerLevel : LevelQuery → CommandBuffer) :
    linesByUd opts ud powerLevel = linesBySysfs opts conf r ↔
      ¬ SaysChargingTwice opts r ∧ ¬ NegativePercentage opts conf r := by
  have hmapped := hresult.mapBatteryLevel_eq hpowermap hsize
  have hpercent := hresult.isInt_mapBatteryLevel hsize hints
  rw [linesByUd_eq ⟨hstores.raw, hstores.percent.trans hmapped⟩ hresult.isInt hpercent]
  by_cases hr : 0 ≤ r
  · rw [answers_eq_linesBySysfs_of_nonneg opts conf hr, and_iff_right]
    exact fun htwice => absurd htwice.2.2 (Int.not_lt.mpr hr)
  · rw [answers_eq_linesBySysfs_of_neg opts conf (Int.not_le.mp hr), and_iff_left]
    exact fun hnegative => hr hnegative.2.1

/-- Both options on a full battery. -/
theorem query_paths_agree_shipped :
    linesByUd ⟨false, true, true, false⟩ ⟨false, 100, 0⟩ (fun _ => ⟨[0, 0, 0, 0], rfl⟩) =
      linesBySysfs ⟨false, true, true, false⟩ .shipped 0 := by
  refine (query_paths_agree_iff .shipped .shipped rfl (by decide) (by decide) 0 (by decide)
    ⟨false, 100, 0⟩ ⟨rfl, rfl⟩ ⟨false, true, true, false⟩ _).mpr ⟨?_, ?_⟩
  · exact fun htwice => absurd htwice.2.2 (by decide)
  · exact fun hnegative => absurd hnegative.2.2 (by decide)

/-- The charging board of a daemon is reported twice, and without a daemon once. -/
theorem charging_said_twice :
    ¬ ∀ (conf daemonConf : Config), daemonConf.powermap = conf.powermap →
      64 ≤ conf.getPowermapSize → (∀ element ∈ conf.powermap, IsInt element) →
      ∀ r, IsResult r → ∀ ud : UdServer, ud.Stores daemonConf r → ∀ opts powerLevel,
        linesByUd opts ud powerLevel = linesBySysfs opts conf r := by
  intro hagree
  have hlines := hagree .shipped .shipped rfl (by decide) (by decide) charging (by decide)
    ⟨false, -1, -1⟩ ⟨rfl, rfl⟩ ⟨false, true, true, false⟩ fun _ => ⟨[0, 0, 0, 0], rfl⟩
  have htwice : linesByUd ⟨false, true, true, false⟩ ⟨false, -1, -1⟩
      (fun _ => ⟨[0, 0, 0, 0], rfl⟩) = [.charging, .charging] := by
    decide +kernel
  rw [htwice] at hlines
  exact absurd hlines (by decide)

end Rocpmd

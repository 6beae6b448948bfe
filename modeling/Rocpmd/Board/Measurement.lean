import Rocpmd.Board.Bench
import Mathlib.Order.Bounds.Basic
import Mathlib.Order.Fin.Basic
import Mathlib.Order.Preorder.Finite

/-!
# The measurement finds the battery level

What the phases of a measurement do on the bench. The reset drives the counter to its upper end from
any position; the scan then keeps `battlevel` equal to the position, so the value returned is the
highest level the battery exceeds. Each phase also says where it can stop early, with CS_B asserted
or not.
-/

namespace Rocpmd

open Foundation Call UpDownCounter

variable (wiring : Wiring) (cond : Conditions)

/-! ## The comparator's answer -/

/-- The level a board reports for its battery: the largest of the positions 1 to 63 at which PGOOD
is low, and 0 if it is high at all of them. -/
def IsBatteryLevel (pgood : Fin 64 → Bool) (level : Fin 64) : Prop :=
  IsGreatest {p | 1 ≤ p ∧ pgood p = false} level ∨ (∀ p, 1 ≤ p → pgood p = true) ∧ level = 0

theorem exists_isBatteryLevel (pgood : Fin 64 → Bool) : ∃ level, IsBatteryLevel pgood level := by
  by_cases hlow : {p : Fin 64 | 1 ≤ p ∧ pgood p = false}.Nonempty
  · obtain ⟨level, hlevel⟩ := Set.Finite.exists_maximal (Set.toFinite _) hlow
    refine ⟨level, Or.inl ⟨hlevel.prop, fun p hp => ?_⟩⟩
    rcases le_total p level with hle | hge
    · exact hle
    · exact hlevel.le_of_ge hp hge
  · refine ⟨0, Or.inr ⟨fun p hp => ?_, rfl⟩⟩
    by_contra hnot
    exact hlow ⟨p, hp, by simpa using hnot⟩

/-- A scan from above that stops at the first low PGOOD, or at 0, stops at the battery level. -/
theorem isBatteryLevel_iff_scan {pgood : Fin 64 → Bool} {level : Fin 64} :
    IsBatteryLevel pgood level ↔
      (level = 0 ∨ pgood level = false) ∧ ∀ p, level < p → pgood p = true := by
  have hpos : ∀ p : Fin 64, level < p → 1 ≤ p := by
    intro p hp
    exact Fin.one_le_of_ne_zero (Fin.pos_iff_ne_zero.mp (lt_of_le_of_lt (Fin.zero_le _) hp))
  constructor
  · rintro (⟨⟨-, hlow⟩, hgreatest⟩ | ⟨hall, rfl⟩)
    · refine ⟨Or.inr hlow, fun p hp => ?_⟩
      by_contra hnot
      exact absurd (hgreatest ⟨hpos p hp, by simpa using hnot⟩) (not_le.mpr hp)
    · exact ⟨Or.inl rfl, fun p hp => hall p (hpos p hp)⟩
  · rintro ⟨hstop, habove⟩
    by_cases hzero : level = 0
    · refine Or.inr ⟨fun p hp => habove p ?_, hzero⟩
      rw [hzero]
      exact lt_of_lt_of_le (by decide) hp
    · refine Or.inl ⟨⟨?_, hstop.resolve_left hzero⟩, ?_⟩
      · exact Fin.one_le_of_ne_zero hzero
      · rintro p ⟨_, hlow⟩
        by_contra hnot
        rw [habove p (not_le.mp hnot)] at hlow
        cases hlow

/-! ## The loops -/

/-- A round of either loop moves UD_B twice, which counts once, and reads PGOOD; or it stops at its
first failing access. -/
theorem orReturn_round (first second : Bool) (bench : Bench) (hselect : bench.board.select = false)
    (hpulse : (bench.board.setLine first).setLine second = bench.board.pulse)
    (rest : Int → Call Bench) :
    let round := orReturn
      (digitalWrite (wiring.sysfs cond) (wiring.conf.pin .udB) (levelStatus first)) fun _ =>
      orReturn (digitalWrite (wiring.sysfs cond) (wiring.conf.pin .udB) (levelStatus second))
        fun _ => orReturn (digitalRead (wiring.sysfs cond) (wiring.conf.pin .pgoodB)) rest
    let made := Set.Ico bench.accesses (bench.accesses + 3)
    (cond.Passes made ∧ round bench = rest (levelStatus (cond.pgood bench.board.pulse.pos))
        ⟨bench.board.pulse, bench.accesses + 3, bench.failedAt⟩) ∨
      StopsIn cond made made false (round bench) := by
  dsimp only
  simp only [Wiring.orReturn_udB, Wiring.orReturn_pgoodB, hpulse]
  split_ifs with hfirst hsecond hthird
  · refine Or.inr (.of_failed hfirst hselect (by simp) ?_)
    rintro m ⟨hle, _⟩ hlt
    exact absurd hle (not_le.mpr hlt)
  · refine Or.inr (.of_failed hsecond (by simp [hselect]) (by simp [Bench.passed]) ?_)
    rintro m ⟨hle, _⟩ hlt
    obtain rfl : m = bench.accesses := by
      simp only [Bench.passed] at hlt
      omega
    exact Bool.eq_false_iff.mpr hfirst
  · refine Or.inr (.of_failed hthird hselect ?_ ?_)
    · simp only [Bench.passed, Set.mem_Ico]
      omega
    rintro m ⟨hle, _⟩ hlt
    simp only [Bench.passed] at hlt
    obtain rfl | rfl : m = bench.accesses ∨ m = bench.accesses + 1 := by omega
    · exact Bool.eq_false_iff.mpr hfirst
    · exact Bool.eq_false_iff.mpr hsecond
  · refine Or.inl ⟨?_, rfl⟩
    rintro m ⟨hle, hlt⟩
    obtain rfl | rfl | rfl : m = bench.accesses ∨ m = bench.accesses + 1 ∨ m = bench.accesses + 2 :=
      by omega
    · exact Bool.eq_false_iff.mpr hfirst
    · exact Bool.eq_false_iff.mpr hsecond
    · exact Bool.eq_false_iff.mpr hthird

/-- The reset loop counts once a round, or stops with CS_B asserted. -/
theorem resetPulses_bench (gpioDelay : Int) (n : ℕ) (bench : Bench)
    (hselect : bench.board.select = false) (hline : bench.board.line = true) :
    let made := Set.Ico bench.accesses (bench.accesses + 3 * n)
    let out := resetPulses (wiring.sysfs cond) (wiring.conf.pin .udB) (wiring.conf.pin .pgoodB)
      gpioDelay n bench
    (cond.Passes made ∧ out = (gpioSuccess, { bench with
        board := bench.board.pulses n
        accesses := bench.accesses + 3 * n })) ∨
      StopsIn cond made made false out := by
  induction n generalizing bench with
  | zero => exact Or.inl ⟨by simp [Conditions.Passes], rfl⟩
  | succ n ih =>
      simp only [resetPulses, Wiring.delay_eq, low_eq_levelStatus, high_eq_levelStatus]
      have hpulse : (bench.board.setLine false).setLine true = bench.board.pulse := by
        rw [setLine_fall, setLine_rise _ (by exact hselect) rfl]
        simp [pulse, hline]
      rcases orReturn_round wiring cond false true bench hselect hpulse (fun _ =>
        resetPulses (wiring.sysfs cond) (wiring.conf.pin .udB) (wiring.conf.pin .pgoodB)
          gpioDelay n) with ⟨hround, hrest⟩ | hstops
      · rw [hrest]
        rcases ih ⟨bench.board.pulse, bench.accesses + 3, bench.failedAt⟩ hselect hline
          with ⟨hpasses, hdone⟩ | hstops
        · refine Or.inl ⟨hround.round hpasses, hdone.trans ?_⟩
          rw [show bench.accesses + 3 + 3 * n = bench.accesses + 3 * (n + 1) by omega]
          rfl
        · exact Or.inr (hstops.after_round hround)
      · exact Or.inr hstops.in_round

/-- At a low PGOOD the scan is over. -/
theorem scanLevel_of_low {W : Type} (fs : Sysfs W) (pinNoUd pinNoPgood gpioDelay : Int)
    (battlevel : ℕ) (w : W) :
    scanLevel fs pinNoUd pinNoPgood gpioDelay battlevel (levelStatus false) w =
      ((battlevel : Int), w) := by
  cases battlevel with
  | zero => rfl
  | succ battlevel =>
      have hlow : levelStatus false ≠ 1 := by decide
      rw [scanLevel, if_neg hlow]
      rfl

/-- At a high PGOOD a round of the scan is made. -/
theorem scanLevel_of_high {W : Type} (fs : Sysfs W) (pinNoUd pinNoPgood gpioDelay : Int)
    (battlevel : ℕ) :
    scanLevel fs pinNoUd pinNoPgood gpioDelay (battlevel + 1) (levelStatus true) =
      orReturn (digitalWrite fs pinNoUd high) fun _ => delay fs gpioDelay <|
      orReturn (digitalWrite fs pinNoUd low) fun _ => delay fs gpioDelay <|
      orReturn (digitalRead fs pinNoPgood) fun statusPgood =>
      scanLevel fs pinNoUd pinNoPgood gpioDelay battlevel statusPgood := rfl

/-- The scan counts down to the battery level, keeping `battlevel` equal to the position, or stops
with CS_B asserted. -/
theorem scanLevel_bench (gpioDelay : Int) {level : Fin 64}
    (hlevel : IsBatteryLevel cond.pgood level) (rounds : ℕ) (bench : Bench)
    (hselect : bench.board.select = false) (hline : bench.board.line = false)
    (hdir : bench.board.dir = .down) (hpos : (bench.board.pos : ℕ) = level + rounds) :
    let made := Set.Ico bench.accesses (bench.accesses + 3 * rounds)
    let out := scanLevel (wiring.sysfs cond) (wiring.conf.pin .udB) (wiring.conf.pin .pgoodB)
      gpioDelay (level + rounds) (levelStatus (cond.pgood bench.board.pos)) bench
    (cond.Passes made ∧ out = (((level : ℕ) : Int), { bench with
        board := bench.board.pulses rounds
        accesses := bench.accesses + 3 * rounds })) ∨
      StopsIn cond made made false out := by
  obtain ⟨hstop, habove⟩ := isBatteryLevel_iff_scan.mp hlevel
  induction rounds generalizing bench with
  | zero =>
      refine Or.inl ⟨by simp [Conditions.Passes], ?_⟩
      rw [show bench.board.pos = level from Fin.ext hpos]
      rcases hstop with rfl | hlow
      · rfl
      · rw [hlow, scanLevel_of_low]
        rfl
  | succ rounds ih =>
      have hgood : cond.pgood bench.board.pos = true := by
        apply habove
        rw [Fin.lt_def, hpos]
        omega
      rw [hgood, ← Nat.add_assoc, scanLevel_of_high]
      simp only [Wiring.delay_eq, low_eq_levelStatus, high_eq_levelStatus]
      have hpulse : (bench.board.setLine true).setLine false = bench.board.pulse := by
        rw [setLine_rise _ hselect hline, setLine_fall]
        simp [pulse, hline]
      -- `battlevel` and the position go down together
      have hnext : (bench.board.pulse.pos : ℕ) = level + rounds := by
        have hdown := pulses_down_pos bench.board hdir 1
        rw [pulses, pulses] at hdown
        omega
      rcases orReturn_round wiring cond true false bench hselect hpulse (fun statusPgood =>
        scanLevel (wiring.sysfs cond) (wiring.conf.pin .udB) (wiring.conf.pin .pgoodB) gpioDelay
          (level + rounds) statusPgood) with ⟨hround, hrest⟩ | hstops
      · rw [hrest]
        rcases ih ⟨bench.board.pulse, bench.accesses + 3, bench.failedAt⟩ hselect hline hdir hnext
          with ⟨hpasses, hdone⟩ | hstops
        · refine Or.inl ⟨hround.round hpasses, hdone.trans ?_⟩
          rw [show bench.accesses + 3 + 3 * rounds = bench.accesses + 3 * (rounds + 1) by omega]
          rfl
        · exact Or.inr (hstops.after_round hround)
      · exact Or.inr hstops.in_round

/-! ## The phases -/

/-- The reset leaves the counter at its upper end with CS_B negated, having latched the increment
direction first. It stops early either at its first write, before CS_B is asserted, or inside the
loop, while it is. -/
theorem resetComparator_bench (bench : Bench) (hselect : bench.board.select = true) :
    let made := insert bench.accesses (Set.Ico (bench.accesses + 2) (bench.accesses + 194))
    let out := resetComparator (wiring.sysfs cond) wiring.conf bench
    (cond.Passes made ∧ ∃ board : Comparator, board.select = true ∧ board.pos = Fin.last 63 ∧
        board.events =
          List.replicate 64 (.pulsed .up) ++ .latched .up :: bench.board.events ∧
        out = (gpioSuccess, { bench with board := board, accesses := bench.accesses + 195 })) ∨
      StopsIn cond made {bench.accesses} true out ∨
      StopsIn cond made (Set.Ico (bench.accesses + 2) (bench.accesses + 194)) false out := by
  simp only [resetComparator, Wiring.delay_eq, low_eq_levelStatus, high_eq_levelStatus,
    Wiring.orReturn_udB, Wiring.orReturn_csB]
  split
  next hfault =>
    refine Or.inr (Or.inl (.of_failed hfault hselect rfl ?_))
    intro m hm hlt
    simp only [Set.mem_insert_iff, Set.mem_Ico] at hm
    omega
  next hpassed =>
    let selected : Bench :=
      { bench with
        board := { bench.board with
          select := false
          dir := .up
          line := true
          events := .latched .up :: bench.board.events }
        accesses := bench.accesses + 2 }
    -- UD_B is high when CS_B falls, so the counter will go up
    have hlatch : (bench.board.setLine true).setSelect false = selected.board := by
      rw [setLine_of_deselected _ hselect, setSelect_fall _ (by exact hselect)]
      rfl
    rw [hlatch]
    have hloop := resetPulses_bench wiring cond
      wiring.conf.batteryLevelReader.batteryLevelGpioDelay 64 selected rfl rfl
    change (_ ∧ ∃ board : Comparator, _ ∧ _ ∧ _ ∧ orReturn _ _ selected = _) ∨
      StopsIn cond _ _ _ (orReturn _ _ selected) ∨ StopsIn cond _ _ _ (orReturn _ _ selected)
    rcases hloop with ⟨hpasses, hdone⟩ | hstops
    · left
      refine ⟨?_, { selected.board.pulses 64 with select := true }, rfl, ?_, ?_, ?_⟩
      · rintro m (rfl | hm)
        · exact Bool.eq_false_iff.mpr hpassed
        · exact hpasses m hm
      · exact pulses_up_pos_eq_top selected.board rfl (by decide)
      · exact pulses_events selected.board 64
      · rw [orReturn_of_ne hdone (by decide), Wiring.orReturn_csB]
        simp [selected, ret, Bench.passed]
    · right
      right
      apply (StopsIn.orReturn hstops _).widen subset_rfl
      rintro n hn m (rfl | hm) _
      · exact Or.inr (Bool.eq_false_iff.mpr hpassed)
      · exact Or.inl hm

/-- Between the reset and the scan CS_B stays negated; UD_B ends low. -/
theorem selectDecrement_bench (bench : Bench) (hselect : bench.board.select = true) :
    let made : Set ℕ := {bench.accesses, bench.accesses + 1}
    let out := selectDecrement (wiring.sysfs cond) wiring.conf bench
    (cond.Passes made ∧ out = (gpioSuccess, { bench with
        board := { bench.board with line := false }
        accesses := bench.accesses + 2 })) ∨
      StopsIn cond made made true out := by
  simp only [selectDecrement, Wiring.delay_eq, low_eq_levelStatus, Wiring.orReturn_pgoodB,
    Wiring.orReturn_udB]
  split_ifs with hfirst hsecond
  · refine Or.inr (.of_failed hfirst hselect (by simp) ?_)
    rintro m (rfl | rfl) hlt
    · exact absurd hlt (lt_irrefl _)
    · exact absurd hlt (by omega)
  · refine Or.inr (.of_failed hsecond hselect (by simp [Bench.passed]) ?_)
    rintro m (rfl | rfl) hlt
    · exact Bool.eq_false_iff.mpr hfirst
    · exact absurd hlt (lt_irrefl _)
  · refine Or.inl ⟨?_, ?_⟩
    · rintro m (rfl | rfl)
      · exact Bool.eq_false_iff.mpr hfirst
      · exact Bool.eq_false_iff.mpr hsecond
    · rw [setLine_fall]
      rfl

/-- From the upper end with UD_B low, the scan returns the battery level, leaves the counter there
with CS_B negated, and has counted down once for each level below 63. It stops early with CS_B
asserted only. -/
theorem readLevel_bench {level : Fin 64} (hlevel : IsBatteryLevel cond.pgood level) (bench : Bench)
    (hselect : bench.board.select = true) (hline : bench.board.line = false)
    (hpos : bench.board.pos = Fin.last 63) :
    let made := Set.Ico (bench.accesses + 1) (bench.accesses + 2 + 3 * (63 - level))
    let out := readLevel (wiring.sysfs cond) wiring.conf bench
    (cond.Passes made ∧ ∃ after : Bench, out = (((level : ℕ) : Int), after) ∧
        after.board.select = true ∧ after.board.pos = level ∧ after.failedAt = bench.failedAt ∧
        after.board.events = List.replicate (63 - level) (.pulsed .down) ++
          .latched .down :: bench.board.events) ∨
      StopsIn cond made made false out := by
  simp only [readLevel, Wiring.delay_eq, low_eq_levelStatus, high_eq_levelStatus,
    Wiring.orReturn_csB, Wiring.orReturn_pgoodB]
  rw [setSelect_fall _ hselect]
  split
  next hfault =>
    refine Or.inr (.of_failed hfault rfl (by simp [Bench.passed]; omega) ?_)
    rintro m ⟨hle, _⟩ hlt
    exact absurd hle (not_le.mpr hlt)
  next hpassed =>
    let selected : Bench :=
      { bench with
        board := { bench.board with
          select := false
          dir := .down
          events := .latched .down :: bench.board.events }
        accesses := bench.accesses + 2 }
    have hboard : ({ bench.board with
        select := false
        dir := .ofLevel bench.board.line
        events := .latched (.ofLevel bench.board.line) :: bench.board.events } : Comparator) =
          selected.board := by
      simp [selected, hline, Direction.ofLevel]
    rw [hboard]
    have hrounds : (level : ℕ) + (63 - level) = 63 := by omega
    have hscan := scanLevel_bench wiring cond
      wiring.conf.batteryLevelReader.batteryLevelGpioDelay hlevel (63 - level) selected rfl hline
      rfl (by simp [selected, hpos, hrounds])
    rw [hrounds] at hscan
    change (_ ∧ ∃ after : Bench, orReturn _ _ selected = _ ∧ _) ∨
      StopsIn cond _ _ _ (orReturn _ _ selected)
    rcases hscan with ⟨hpasses, hdone⟩ | hstops
    · refine Or.inl ⟨?_, ?_⟩
      · rintro m ⟨hle, hlt⟩
        rcases Nat.lt_or_eq_of_le hle with hlater | rfl
        · exact hpasses m ⟨hlater, hlt⟩
        · exact Bool.eq_false_iff.mpr hpassed
      · rw [orReturn_of_ne hdone (by simp only [gpioError]; omega), Wiring.orReturn_csB]
        refine ⟨_, rfl, ?_, ?_, rfl, ?_⟩
        · simp
        · apply Fin.ext
          simp only [setSelect_rise]
          rw [pulses_down_pos selected.board rfl]
          simp only [selected, hpos, Fin.val_last]
          omega
        · simp only [setSelect_rise]
          exact pulses_events selected.board _
    · right
      apply (StopsIn.orReturn hstops _).widen
      · exact Set.Ico_subset_Ico (Nat.le_succ _) le_rfl
      · rintro n ⟨_, hn⟩ m ⟨hle, _⟩ hlt
        rcases Nat.lt_or_eq_of_le hle with hlater | rfl
        · exact Or.inl ⟨hlater, hlt.trans hn⟩
        · exact Or.inr (Bool.eq_false_iff.mpr hpassed)

/-! ## A whole measurement -/

/-- The function on the bench, counting accesses from 0. -/
def measure (cond : Conditions) (board : Comparator) : Int × Bench :=
  gpioReadBatteryLevelRaw (wiring.sysfs cond) wiring.conf ⟨board, 0, none⟩

/-- The accesses to UD_B and PGOOD that a measurement makes while CS_B is negated: the first read of
PGOOD, the write of UD_B before CS_B is first asserted, and the two accesses between the phases. -/
def deselectedAccesses : Set ℕ := {0, 2, 197, 198}

/-- Those it makes while CS_B is asserted, on a battery of this level: three in each of the 64
rounds of the reset, and the read of PGOOD and three in each round of the scan. -/
def selectedAccesses (level : Fin 64) : Set ℕ :=
  Set.Ico 4 196 ∪ Set.Ico 200 (201 + 3 * (63 - level))

def madeAccesses (level : Fin 64) : Set ℕ := deselectedAccesses ∪ selectedAccesses level

/-- The accesses of a measurement, phase by phase. -/
theorem madeAccesses_cases {level : Fin 64} {m : ℕ} (hm : m ∈ madeAccesses level) :
    m = 0 ∨ m ∈ insert 2 (Set.Ico 4 196) ∨ m ∈ ({197, 198} : Set ℕ) ∨
      m ∈ Set.Ico 200 (201 + 3 * (63 - (level : ℕ))) := by
  simp only [madeAccesses, deselectedAccesses, selectedAccesses, Set.mem_union, Set.mem_insert_iff,
    Set.mem_singleton_iff, Set.mem_Ico] at hm ⊢
  omega

theorem measure_eq_of_supplied (board : Comparator) (hfault : ¬ cond.fault 0 = true)
    (hd2 : cond.d2 = true) : measure wiring cond board =
      orReturn (resetComparator (wiring.sysfs cond) wiring.conf) (fun _ =>
        orReturn (selectDecrement (wiring.sysfs cond) wiring.conf) fun _ =>
          readLevel (wiring.sysfs cond) wiring.conf) ⟨board, 2, none⟩ := by
  simp only [measure, gpioReadBatteryLevelRaw_eq, checkSupply, Wiring.delay_eq,
    Wiring.orReturn_pgoodB, andThen, Wiring.gpioReadD2_eq, hd2, if_neg hfault]
  rfl

/-- A measurement on a deselected board ends in one of four ways: with the battery level, with the
charging code before anything was driven, or with an error at its first failing access, made while
CS_B is negated or asserted. -/
theorem measure_cases {level : Fin 64} (hlevel : IsBatteryLevel cond.pgood level)
    (board : Comparator) (hselect : board.select = true) :
    let made := madeAccesses level
    let out := measure wiring cond board
    (cond.d2 = true ∧ cond.Passes made ∧ ∃ after : Bench, out = (((level : ℕ) : Int), after) ∧
        after.board.select = true ∧ after.board.pos = level ∧ after.failedAt = none ∧
        after.board.events = List.replicate (63 - level) (.pulsed .down) ++ .latched .down ::
          (List.replicate 64 (.pulsed .up) ++ .latched .up :: board.events)) ∨
      (cond.d2 = false ∧ out = (charging, ⟨board, 2, none⟩)) ∨
      StopsIn cond made deselectedAccesses true out ∨
      (cond.d2 = true ∧ StopsIn cond made (selectedAccesses level) false out) := by
  dsimp only
  by_cases hfault : cond.fault 0 = true
  · right; right; left
    simp only [measure, gpioReadBatteryLevelRaw_eq, checkSupply, Wiring.orReturn_pgoodB,
      if_pos hfault]
    exact .of_failed hfault hselect (by simp [deselectedAccesses]) (fun m _ hlt => by cases hlt)
  cases hd2 : cond.d2 with
  | false =>
      right; left
      simp only [measure, gpioReadBatteryLevelRaw_eq, checkSupply, Wiring.delay_eq,
        Wiring.orReturn_pgoodB, andThen, Wiring.gpioReadD2_eq, hd2, if_neg hfault]
      exact ⟨trivial, rfl⟩
  | true =>
      have hfirst : cond.fault 0 = false := Bool.eq_false_iff.mpr hfault
      rw [measure_eq_of_supplied wiring cond board hfault hd2]
      rcases resetComparator_bench wiring cond ⟨board, 2, none⟩ hselect with
        ⟨hreset, railed, hrailSelect, hrailPos, hrailEvents, hrail⟩ | hstops | hstops
      · rw [orReturn_of_ne hrail (by decide)]
        rcases selectDecrement_bench wiring cond ⟨railed, 197, none⟩ hrailSelect with
          ⟨hbetween, hselected⟩ | hstops
        · rw [orReturn_of_ne hselected (by decide)]
          rcases readLevel_bench wiring cond hlevel ⟨{ railed with line := false }, 199, none⟩
            hrailSelect rfl hrailPos with
            ⟨hscan, after, hread, hsel, hpos, hfailed, hevents⟩ | hstops
          · refine Or.inl ⟨rfl, ?_, after, hread, hsel, hpos, hfailed, ?_⟩
            · intro m hm
              rcases madeAccesses_cases hm with rfl | hm | hm | hm
              · exact hfirst
              · exact hreset m hm
              · exact hbetween m hm
              · exact hscan m hm
            · rw [hevents, hrailEvents]
          · refine Or.inr (Or.inr (Or.inr ⟨rfl, hstops.widen Set.subset_union_right ?_⟩))
            intro n hn m hm hlt
            rcases madeAccesses_cases hm with rfl | hm | hm | hm
            · exact Or.inr hfirst
            · exact Or.inr (hreset m hm)
            · exact Or.inr (hbetween m hm)
            · exact Or.inl hm
        · refine Or.inr (Or.inr (Or.inl ((StopsIn.orReturn hstops _).widen ?_ ?_)))
          · rintro n (rfl | rfl) <;> simp [deselectedAccesses]
          · intro n hn m hm hlt
            rcases madeAccesses_cases hm with rfl | hm | hm | hm
            · exact Or.inr hfirst
            · exact Or.inr (hreset m hm)
            · exact Or.inl hm
            · have := hm.1
              rcases hn with rfl | rfl <;> simp only at hlt <;> omega
      · refine Or.inr (Or.inr (Or.inl ((StopsIn.orReturn hstops _).widen ?_ ?_)))
        · simp [deselectedAccesses]
        · rintro n rfl m hm hlt
          rcases madeAccesses_cases hm with rfl | hm | hm | hm
          · exact Or.inr hfirst
          · exact Or.inl hm
          · rcases hm with rfl | rfl <;> simp only at hlt <;> omega
          · have := hm.1
            simp only at hlt
            omega
      · refine Or.inr (Or.inr (Or.inr ⟨rfl, (StopsIn.orReturn hstops _).widen
          Set.subset_union_left ?_⟩))
        rintro n ⟨_, hn⟩ m hm hlt
        rcases madeAccesses_cases hm with rfl | hm | hm | hm
        · exact Or.inr hfirst
        · exact Or.inl hm
        · rcases hm with rfl | rfl <;> simp only at hn <;> omega
        · have := hm.1
          simp only at hn
          omega

/-- The number of times the board was counted down, from its record of events. -/
def decrementPulses (board : Comparator) : ℕ := board.events.count (.pulsed .down)

/-- **The measurement is correct.** From any position, latched direction and level of UD_B, with
CS_B negated, external power absent and no failing access, the value returned is the battery level.
It is the final position of the counter and 63 less the decrement pulses issued, and CS_B is negated
again. -/
theorem measure_finds_level (pgood : Fin 64 → Bool) (board : Comparator)
    (hselect : board.select = true) :
    ∃ level : Fin 64, IsBatteryLevel pgood level ∧
      (measure wiring ⟨pgood, true, fun _ => false⟩ board).1 = (level : ℕ) ∧
      (measure wiring ⟨pgood, true, fun _ => false⟩ board).1 = 63 -
        ((decrementPulses (measure wiring ⟨pgood, true, fun _ => false⟩ board).2.board : Int) -
          decrementPulses board) ∧
      (measure wiring ⟨pgood, true, fun _ => false⟩ board).2.board.pos = level ∧
      (measure wiring ⟨pgood, true, fun _ => false⟩ board).2.board.select = true := by
  obtain ⟨level, hlevel⟩ := exists_isBatteryLevel pgood
  rcases measure_cases wiring ⟨pgood, true, fun _ => false⟩ hlevel board hselect with
    ⟨_, -, after, hout, hsel, hpos, -, hevents⟩ | ⟨hd2, _⟩ | hstops | ⟨-, hstops⟩
  · refine ⟨level, hlevel, ?_, ?_, ?_, ?_⟩
    · rw [hout]
    · have hcount : decrementPulses after.board = 63 - level + decrementPulses board := by
        simp [decrementPulses, hevents]
      rw [hout, hcount]
      have := level.isLt
      simp only
      omega
    · rw [hout]
      exact hpos
    · rw [hout]
      exact hsel
  · cases hd2
  · exact absurd hstops (not_stopsIn fun _ => rfl)
  · exact absurd hstops (not_stopsIn fun _ => rfl)

/-- The board of the shipped configuration. -/
def Wiring.shipped : Wiring := ⟨.shipped, by decide⟩

/-- The battery exceeds the levels up to 40, and the counter starts halfway, set to count down. -/
theorem measure_finds_level_shipped :
    ∃ level : Fin 64, IsBatteryLevel (fun p => decide (40 < p)) level ∧
      (measure .shipped ⟨fun p => decide (40 < p), true, fun _ => false⟩
        ⟨31, .down, true, true, []⟩).1 = (level : ℕ) ∧
      (measure .shipped ⟨fun p => decide (40 < p), true, fun _ => false⟩
        ⟨31, .down, true, true, []⟩).1 = 63 -
        ((decrementPulses (measure .shipped ⟨fun p => decide (40 < p), true, fun _ => false⟩
          ⟨31, .down, true, true, []⟩).2.board : Int) -
          decrementPulses ⟨31, .down, true, true, []⟩) ∧
      (measure .shipped ⟨fun p => decide (40 < p), true, fun _ => false⟩
        ⟨31, .down, true, true, []⟩).2.board.pos = level ∧
      (measure .shipped ⟨fun p => decide (40 < p), true, fun _ => false⟩
        ⟨31, .down, true, true, []⟩).2.board.select = true :=
  measure_finds_level .shipped _ _ rfl

end Rocpmd

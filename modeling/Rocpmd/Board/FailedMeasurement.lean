import Rocpmd.Board.Measurement

/-!
# Measurements that fail

A measurement that stops early leaves CS_B at the level it had. If that was the asserted level, the
next measurement sees no falling edge: its reset counts in whatever direction was latched before,
and the level it reports is wrong without any sign of it.
-/

namespace Rocpmd

open Foundation Call UpDownCounter

variable (wiring : Wiring)

/-- If an access failed, the call reported it and CS_B is negated. -/
def LeavesReady (out : Int × Bench) : Prop :=
  out.2.failedAt.isSome → out.1 = gpioError ∧ out.2.board.select = true

/-- If no access failed, the call began with CS_B negated and, unless the board was charging, the
first thing it did to the counter was to latch the increment direction. -/
def StartsReady (cond : Conditions) (board : Comparator) (out : Int × Bench) : Prop :=
  out.2.failedAt = none → board.select = true ∧
    (cond.d2 = true → ∃ later, out.2.board.events = later ++ .latched .up :: board.events)

/-- A series of measurements on one board, each under its own conditions, finds the board ready and
leaves it ready throughout. -/
def ReadyThroughout : Comparator → List Conditions → Prop
  | _, [] => True
  | board, cond :: rest =>
      LeavesReady (measure wiring cond board) ∧
      StartsReady cond board (measure wiring cond board) ∧
      ReadyThroughout (measure wiring cond board).2.board rest

/-- An access that fails while CS_B is asserted comes after a failing one made while it was negated,
and so is never reached. On external power the measurement ends before either. -/
def Conditions.FailsDeselected (cond : Conditions) : Prop :=
  cond.d2 = true → ∀ level, IsBatteryLevel cond.pgood level → ∀ n ∈ selectedAccesses level,
    cond.fault n = true → ∃ m ∈ deselectedAccesses, m < n ∧ cond.fault m = true

/-- Every failure of UD_B or PGOOD is reported, wherever it strikes. -/
theorem measure_reports_failure (cond : Conditions) (board : Comparator)
    (hselect : board.select = true) (hfailed : (measure wiring cond board).2.failedAt.isSome) :
    (measure wiring cond board).1 = gpioError := by
  obtain ⟨level, hlevel⟩ := exists_isBatteryLevel cond.pgood
  rcases measure_cases wiring cond hlevel board hselect with
    ⟨_, -, after, hout, -, -, hnone, -⟩ | ⟨_, hout⟩ | hstops | ⟨-, hstops⟩
  · rw [hout] at hfailed
    simp [hnone] at hfailed
  · rw [hout] at hfailed
    simp at hfailed
  · exact hstops.1
  · exact hstops.1

theorem notMem_selectedAccesses {n : ℕ} (hn : n ∈ deselectedAccesses) (level : Fin 64) :
    n ∉ selectedAccesses level := by
  rcases hn with rfl | rfl | rfl | rfl <;> simp [selectedAccesses]

/-- One measurement on a deselected board leaves it deselected exactly when none of its failures
strikes first while CS_B is asserted. -/
theorem measure_select_iff_of_level (cond : Conditions) {level : Fin 64}
    (hlevel : IsBatteryLevel cond.pgood level) (board : Comparator)
    (hselect : board.select = true) : (measure wiring cond board).2.board.select = true ↔
      (cond.d2 = true → ∀ n ∈ selectedAccesses level, cond.fault n = true →
        ∃ m ∈ deselectedAccesses, m < n ∧ cond.fault m = true) := by
  rcases measure_cases wiring cond hlevel board hselect with
    ⟨_, hpasses, after, hout, hsel, -⟩ | ⟨hcharging, hout⟩ | hstops | ⟨hd2, hstops⟩
  · apply iff_of_true (by simp [hout, hsel])
    intro _ n hn hfault
    rw [hpasses n (Or.inr hn)] at hfault
    cases hfault
  · apply iff_of_true (by simp [hout, hselect])
    intro hd2
    rw [hcharging] at hd2
    cases hd2
  · obtain ⟨_, hsel, n, hn, _, hfault, hbefore⟩ := hstops
    apply iff_of_true hsel
    intro _ k hk hkFault
    -- a failing access before `n` would have ended the measurement first
    rcases Nat.lt_trichotomy n k with hlt | rfl | hgt
    · exact ⟨n, hn, hlt, hfault⟩
    · exact absurd hk (notMem_selectedAccesses hn level)
    · rw [hbefore k ⟨Or.inr hk, hgt⟩] at hkFault
      cases hkFault
  · obtain ⟨_, hsel, n, hn, _, hfault, hbefore⟩ := hstops
    apply iff_of_false (by simp [hsel])
    intro hcond
    obtain ⟨m, hm, hlt, hmFault⟩ := hcond hd2 n hn hfault
    rw [hbefore m ⟨Or.inl hm, hlt⟩] at hmFault
    cases hmFault

theorem measure_select_iff (cond : Conditions) (board : Comparator)
    (hselect : board.select = true) :
    (measure wiring cond board).2.board.select = true ↔ cond.FailsDeselected := by
  constructor
  · intro hsel hd2 level hlevel
    exact (measure_select_iff_of_level wiring cond hlevel board hselect).mp hsel hd2
  · intro hcond
    obtain ⟨level, hlevel⟩ := exists_isBatteryLevel cond.pgood
    apply (measure_select_iff_of_level wiring cond hlevel board hselect).mpr
    intro hd2
    exact hcond hd2 level hlevel

theorem startsReady_of_select (cond : Conditions) (board : Comparator)
    (hselect : board.select = true) : StartsReady cond board (measure wiring cond board) := by
  intro hnone
  refine ⟨hselect, fun hd2 => ?_⟩
  obtain ⟨level, hlevel⟩ := exists_isBatteryLevel cond.pgood
  rcases measure_cases wiring cond hlevel board hselect with
    ⟨_, -, after, hout, -, -, -, hevents⟩ | ⟨hcharging, _⟩ | hstops | ⟨-, hstops⟩
  · refine ⟨List.replicate (63 - level) (.pulsed .down) ++ .latched .down ::
      List.replicate 64 (.pulsed .up), ?_⟩
    rw [hout, hevents]
    simp
  · rw [hcharging] at hd2
    cases hd2
  · obtain ⟨_, _, n, _, hfailed, _⟩ := hstops
    rw [hfailed] at hnone
    cases hnone
  · obtain ⟨_, _, n, _, hfailed, _⟩ := hstops
    rw [hfailed] at hnone
    cases hnone

/-- Only a failure can keep CS_B asserted. -/
theorem select_of_leavesReady (cond : Conditions) (board : Comparator)
    (hselect : board.select = true) (hleaves : LeavesReady (measure wiring cond board)) :
    (measure wiring cond board).2.board.select = true := by
  obtain ⟨level, hlevel⟩ := exists_isBatteryLevel cond.pgood
  rcases measure_cases wiring cond hlevel board hselect with
    ⟨_, -, after, hout, hsel, -⟩ | ⟨_, hout⟩ | hstops | ⟨-, hstops⟩
  · rw [hout]
    exact hsel
  · rw [hout]
    exact hselect
  · exact hstops.2.1
  · obtain ⟨_, _, n, _, hfailed, _⟩ := hstops
    exact (hleaves (by simp [hfailed])).2

/-- **When a failed measurement leaves the board ready.** From a deselected board, every failed
measurement of a series reports its failure with CS_B negated again, and every other one starts
deselected and resets upwards, exactly when no failure of an access made while CS_B is asserted is
reached. -/
theorem readyThroughout_iff (board : Comparator) (hselect : board.select = true)
    (conds : List Conditions) :
    ReadyThroughout wiring board conds ↔ ∀ cond ∈ conds, cond.FailsDeselected := by
  induction conds generalizing board with
  | nil => exact iff_of_true trivial (by simp)
  | cons cond rest ih =>
      have hiff := measure_select_iff wiring cond board hselect
      rw [List.forall_mem_cons]
      constructor
      · rintro ⟨hleaves, -, hrest⟩
        have hsel := select_of_leavesReady wiring cond board hselect hleaves
        exact ⟨hiff.mp hsel, (ih _ hsel).mp hrest⟩
      · rintro ⟨hcond, hrest⟩
        have hsel := hiff.mpr hcond
        exact ⟨fun hfailed => ⟨measure_reports_failure wiring cond board hselect hfailed, hsel⟩,
          startsReady_of_select wiring cond board hselect, (ih _ hsel).mpr hrest⟩

/-- A battery above level 40 on battery power, with one access failing. -/
def Conditions.failingAt (n : ℕ) : Conditions :=
  ⟨fun p => decide (40 < (p : ℕ)), true, fun k => k == n⟩

/-- The write of UD_B before the reset fails in the first of two measurements. -/
theorem readyThroughout_shipped :
    ReadyThroughout .shipped ⟨31, .down, true, true, []⟩ [.failingAt 2, .failingAt 1000] ↔
      ∀ cond ∈ [Conditions.failingAt 2, .failingAt 1000], cond.FailsDeselected :=
  readyThroughout_iff .shipped _ rfl _

/-- The read of PGOOD that starts the scan fails in the first of two measurements. It is reported
with CS_B still asserted, and the second measurement, in which nothing fails, counts down where it
should count up and reports 63 for a battery at 40. -/
theorem scan_failure_leaves_selected :
    ¬ ReadyThroughout .shipped ⟨31, .down, true, true, []⟩ [.failingAt 200, .failingAt 1000] ∧
      (measure .shipped (.failingAt 1000)
        (measure .shipped (.failingAt 200) ⟨31, .down, true, true, []⟩).2.board).1 = 63 := by
  have hfirst : (measure .shipped (.failingAt 200) ⟨31, .down, true, true, []⟩).2.failedAt.isSome ∧
      (measure .shipped (.failingAt 200) ⟨31, .down, true, true, []⟩).2.board.select = false := by
    decide +kernel
  refine ⟨fun hready => ?_, by decide +kernel⟩
  have hsel := (hready.1 hfirst.1).2
  rw [hfirst.2] at hsel
  cases hsel

end Rocpmd

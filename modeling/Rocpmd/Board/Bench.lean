import Rocpmd.Foundation.UpDownCounter
import Rocpmd.Gpio.BatteryLevel
import Mathlib.Order.Interval.Set.Basic

/-!
# The comparator of the power board on a test bench

The board as its manual describes it: CS_B selects a counter of 64 comparator levels, UD_B is its
count line, and PGOOD compares the battery with the level the counter stands at. The bench wires it
to the four pins of a configuration and may refuse any access to UD_B or PGOOD.
-/

namespace Rocpmd

open Foundation Call

abbrev Comparator := UpDownCounter 63

/-- A board is wired to four different pins, and the configuration names them. -/
structure Wiring where
  conf : Config
  distinct : [conf.pin .csB, conf.pin .udB, conf.pin .pgoodB, conf.pin .d2B].Nodup

/-- What one measurement meets: the level of PGOOD at each position, the level of D2_B, and which of
its accesses fail if they are to UD_B or PGOOD. -/
structure Conditions where
  pgood : Fin 64 → Bool
  d2 : Bool
  fault : ℕ → Bool

/-- The board, the number of accesses made so far and the one that failed, if any. -/
structure Bench where
  board : Comparator
  accesses : ℕ
  failedAt : Option ℕ

namespace Bench

def passed (bench : Bench) : Bench := { bench with accesses := bench.accesses + 1 }

def failed (bench : Bench) : Bench :=
  { bench with accesses := bench.accesses + 1, failedAt := some bench.accesses }

end Bench

variable (wiring : Wiring) (cond : Conditions)

namespace Wiring

/-- The board's reaction to a level driven on a pin. -/
def drive (pin : Int) (level : Bool) (board : Comparator) : Comparator :=
  if pin = wiring.conf.pin .csB then board.setSelect level
  else if pin = wiring.conf.pin .udB then board.setLine level
  else board

/-- The level a pin has; the pins the measurement does not touch stay low. -/
def level (pin : Int) (board : Comparator) : Bool :=
  if pin = wiring.conf.pin .pgoodB then cond.pgood board.pos
  else if pin = wiring.conf.pin .d2B then cond.d2
  else if pin = wiring.conf.pin .csB then board.select
  else if pin = wiring.conf.pin .udB then board.line
  else false

def fails (pin : Int) (bench : Bench) : Bool :=
  cond.fault bench.accesses &&
    (decide (pin = wiring.conf.pin .udB) || decide (pin = wiring.conf.pin .pgoodB))

def sysfs : Sysfs Bench where
  read file bench :=
    match file with
    | .value pin =>
        if wiring.fails cond pin bench then (.cannotOpen, bench.failed)
        else (.opened (if wiring.level cond pin bench.board then "1" else "0"), bench.passed)
    | _ => (.cannotOpen, bench)
  write file text bench :=
    match file with
    | .value pin =>
        if wiring.fails cond pin bench then (false, bench.failed)
        else (true, { bench.passed with board := wiring.drive pin (text == "1") bench.board })
    | _ => (true, bench)
  usleep _ bench := bench

end Wiring

/-! ## Single accesses -/

/-- The status a level reads as. -/
def levelStatus (level : Bool) : Int := if level then high else low

theorem low_eq_levelStatus : low = levelStatus false := rfl

theorem high_eq_levelStatus : high = levelStatus true := rfl

@[simp] theorem levelStatus_ne_gpioError (level : Bool) : levelStatus level ≠ gpioError := by
  cases level <;> decide

theorem repr_levelStatus (level : Bool) : ((levelStatus level).repr == "1") = level := by
  cases level <;> decide

namespace Wiring

variable (bench : Bench)

theorem udB_ne_csB : wiring.conf.pin .udB ≠ wiring.conf.pin .csB := by
  have := wiring.distinct
  simp only [List.nodup_cons, List.mem_cons, not_or] at this
  exact fun heq => this.1.1 heq.symm

theorem digitalWrite_udB (level : Bool) :
    digitalWrite (wiring.sysfs cond) (wiring.conf.pin .udB) (levelStatus level) bench =
      if cond.fault bench.accesses then (gpioError, bench.failed)
      else (gpioSuccess, { bench.passed with board := bench.board.setLine level }) := by
  have hne := wiring.udB_ne_csB
  cases hfault : cond.fault bench.accesses <;>
    simp [digitalWrite, sysfs, fails, drive, hfault, hne, repr_levelStatus]

theorem digitalWrite_csB (level : Bool) :
    digitalWrite (wiring.sysfs cond) (wiring.conf.pin .csB) (levelStatus level) bench =
      (gpioSuccess, { bench.passed with board := bench.board.setSelect level }) := by
  have hdistinct := wiring.distinct
  simp only [List.nodup_cons, List.mem_cons, not_or] at hdistinct
  obtain ⟨⟨hud, hpgood, _⟩, _⟩ := hdistinct
  simp [digitalWrite, sysfs, fails, drive, hud, hpgood, repr_levelStatus]

theorem digitalRead_pgoodB :
    digitalRead (wiring.sysfs cond) (wiring.conf.pin .pgoodB) bench =
      if cond.fault bench.accesses then (gpioError, bench.failed)
      else (levelStatus (cond.pgood bench.board.pos), bench.passed) := by
  cases hfault : cond.fault bench.accesses
  · cases hlevel : cond.pgood bench.board.pos <;>
      simp [digitalRead, sysfs, fails, level, hfault, hlevel, levelStatus]
  · simp [digitalRead, sysfs, fails, hfault]

theorem gpioReadD2_eq :
    gpioReadD2 (wiring.sysfs cond) wiring.conf bench =
      (if cond.d2 then 0 else 1, bench.passed) := by
  have hdistinct := wiring.distinct
  simp only [List.nodup_cons, List.mem_cons, not_or] at hdistinct
  obtain ⟨⟨_, _, hcsD2, _⟩, ⟨_, hudD2, _⟩, ⟨hpgoodD2, _⟩, _⟩ := hdistinct
  cases hd2 : cond.d2 <;>
    simp [gpioReadD2, readAsserted, orReturn, ret, digitalRead, sysfs, fails, level, hd2,
      Ne.symm hudD2, Ne.symm hpgoodD2, cNot, high, low, gpioError]

@[simp] theorem delay_eq (duration : Int) (rest : Call Bench) :
    delay (wiring.sysfs cond) duration rest = rest := rfl

/-! The same accesses with the early return behind them. -/

theorem orReturn_udB (level : Bool) (rest : Int → Call Bench) :
    orReturn (digitalWrite (wiring.sysfs cond) (wiring.conf.pin .udB) (levelStatus level)) rest
        bench =
      if cond.fault bench.accesses then (gpioError, bench.failed)
      else rest gpioSuccess { bench.passed with board := bench.board.setLine level } := by
  have hwrite := wiring.digitalWrite_udB cond bench level
  split
  next hfault => exact orReturn_of_error (by rw [if_pos hfault] at hwrite; exact hwrite) _
  next hfault =>
    exact orReturn_of_ne (by rw [if_neg hfault] at hwrite; exact hwrite) (by decide) _

theorem orReturn_csB (level : Bool) (rest : Int → Call Bench) :
    orReturn (digitalWrite (wiring.sysfs cond) (wiring.conf.pin .csB) (levelStatus level)) rest
        bench =
      rest gpioSuccess { bench.passed with board := bench.board.setSelect level } :=
  orReturn_of_ne (wiring.digitalWrite_csB cond bench level) (by decide) _

theorem orReturn_pgoodB (rest : Int → Call Bench) :
    orReturn (digitalRead (wiring.sysfs cond) (wiring.conf.pin .pgoodB)) rest bench =
      if cond.fault bench.accesses then (gpioError, bench.failed)
      else rest (levelStatus (cond.pgood bench.board.pos)) bench.passed := by
  have hread := wiring.digitalRead_pgoodB cond bench
  split
  next hfault => exact orReturn_of_error (by rw [if_pos hfault] at hread; exact hread) _
  next hfault =>
    exact orReturn_of_ne (by rw [if_neg hfault] at hread; exact hread)
      (levelStatus_ne_gpioError _) _

end Wiring

/-! ## Phases -/

/-- None of these accesses fails. -/
def Conditions.Passes (made : Set ℕ) : Prop := ∀ n ∈ made, cond.fault n = false

/-- Of the accesses `made`, the first that fails is one of `points`. The call stopped there with
GPIO_ERROR and left the select line at `select`. -/
def StopsIn (made points : Set ℕ) (select : Bool) (out : Int × Bench) : Prop :=
  out.1 = gpioError ∧ out.2.board.select = select ∧
    ∃ n ∈ points, out.2.failedAt = some n ∧ cond.fault n = true ∧ cond.Passes {m ∈ made | m < n}

variable {cond}

/-- More accesses are made, and those before the failing one passed. -/
theorem StopsIn.widen {made more points larger : Set ℕ} {select : Bool} {out : Int × Bench}
    (hstops : StopsIn cond made points select out) (hpoints : points ⊆ larger)
    (hmore : ∀ n ∈ points, ∀ m ∈ more, m < n → m ∈ made ∨ cond.fault m = false) :
    StopsIn cond more larger select out := by
  obtain ⟨herror, hselect, n, hn, hfailed, hfault, hbefore⟩ := hstops
  refine ⟨herror, hselect, n, hpoints hn, hfailed, hfault, ?_⟩
  rintro m ⟨hm, hlt⟩
  rcases hmore n hn m hm hlt with hmade | hpassed
  · exact hbefore m ⟨hmade, hlt⟩
  · exact hpassed

theorem StopsIn.orReturn {made points : Set ℕ} {select : Bool} {first : Call Bench} {bench : Bench}
    (hstops : StopsIn cond made points select (first bench)) (rest : Int → Call Bench) :
    StopsIn cond made points select (orReturn first rest bench) := by
  have hout : first bench = (gpioError, (first bench).2) := Prod.ext hstops.1 rfl
  rw [orReturn_of_error hout, ← hout]
  exact hstops

theorem StopsIn.of_failed {made points : Set ℕ} {select : Bool} {bench : Bench}
    (hfault : cond.fault bench.accesses = true) (hselect : bench.board.select = select)
    (hpoint : bench.accesses ∈ points)
    (hbefore : ∀ m ∈ made, m < bench.accesses → cond.fault m = false) :
    StopsIn cond made points select (gpioError, bench.failed) :=
  ⟨rfl, hselect, bench.accesses, hpoint, rfl, hfault, fun m hm => hbefore m hm.1 hm.2⟩

/-! A loop makes three accesses a round. -/

/-- A round passes and a later one stops. -/
theorem StopsIn.after_round {a n : ℕ} {out : Int × Bench} (hround : cond.Passes (Set.Ico a (a + 3)))
    (hstops : StopsIn cond (Set.Ico (a + 3) (a + 3 + 3 * n)) (Set.Ico (a + 3) (a + 3 + 3 * n)) false
      out) :
    StopsIn cond (Set.Ico a (a + 3 * (n + 1))) (Set.Ico a (a + 3 * (n + 1))) false out := by
  apply hstops.widen
  · apply Set.Ico_subset_Ico <;> omega
  · rintro k ⟨_, hk⟩ m ⟨hm, _⟩ hlt
    rcases Nat.lt_or_ge m (a + 3) with hround' | hrest
    · exact Or.inr (hround m ⟨hm, hround'⟩)
    · exact Or.inl ⟨hrest, hlt.trans hk⟩

theorem StopsIn.in_round {a n : ℕ} {out : Int × Bench}
    (hstops : StopsIn cond (Set.Ico a (a + 3)) (Set.Ico a (a + 3)) false out) :
    StopsIn cond (Set.Ico a (a + 3 * (n + 1))) (Set.Ico a (a + 3 * (n + 1))) false out := by
  apply hstops.widen
  · apply Set.Ico_subset_Ico <;> omega
  · rintro k ⟨_, hk⟩ m ⟨hm, _⟩ hlt
    exact Or.inl ⟨hm, hlt.trans hk⟩

theorem Conditions.Passes.round {a n : ℕ} (hround : cond.Passes (Set.Ico a (a + 3)))
    (hrest : cond.Passes (Set.Ico (a + 3) (a + 3 + 3 * n))) :
    cond.Passes (Set.Ico a (a + 3 * (n + 1))) := by
  rintro m ⟨hm, hlt⟩
  rcases Nat.lt_or_ge m (a + 3) with hearlier | hlater
  · exact hround m ⟨hm, hearlier⟩
  · exact hrest m ⟨hlater, by omega⟩

/-- Without failing accesses no call stops early. -/
theorem not_stopsIn (hfault : ∀ n, cond.fault n = false) {made points : Set ℕ} {select : Bool}
    {out : Int × Bench} : ¬ StopsIn cond made points select out := by
  rintro ⟨_, _, n, _, _, hn, _⟩
  rw [hfault n] at hn
  cases hn

end Rocpmd

import Mathlib.Tactic.Linarith
import Mathlib.Tactic.Ring
import Rocpmd.Gpio.Views

/-!
# How long a measurement takes

The program sleeps between its accesses, and the daemon does nothing else meanwhile. The time slept
is counted beside the files, in microseconds; what an access itself takes is not.
-/

namespace Rocpmd

open Call

variable {W : Type}

/-- The same files, and the microseconds slept so far. -/
def Sysfs.timed (fs : Sysfs W) : Sysfs (W × Int) where
  read file w := ((fs.read file w.1).1, (fs.read file w.1).2, w.2)
  write file text w := ((fs.write file text w.1).1, (fs.write file text w.1).2, w.2)
  usleep duration w := (fs.usleep duration w.1, w.2 + duration)

/-! ## Calls that sleep -/

/-- The result of a call and the time it sleeps are as stated. -/
def Call.Sleeps (call : Call (W × Int)) (post : Int → Int → Prop) : Prop :=
  ∀ w, ∃ time, (call w).2.2 = w.2 + time ∧ post (call w).1 time

namespace Call.Sleeps

variable {fs : Sysfs W} {call : Call (W × Int)} {rest : Int → Call (W × Int)}
  {post : Int → Int → Prop}

theorem ret {n : Int} (hpost : post n 0) : (ret n : Call (W × Int)).Sleeps post :=
  fun w => ⟨0, (Int.add_zero w.2).symm, hpost⟩

theorem delay {duration : Int} (hcall : call.Sleeps fun n time => post n (duration + time)) :
    (delay fs.timed duration call).Sleeps post := by
  intro w
  obtain ⟨time, hw, hpost⟩ := hcall (fs.timed.usleep duration w)
  exact ⟨duration + time, hw.trans (Int.add_assoc ..), hpost⟩

/-- Early returns: the rest sleeps on top of what the first call has slept. -/
theorem orReturn (hcall : call.Sleeps fun n time => (n = gpioError → post n time) ∧
      (n ≠ gpioError → (rest n).Sleeps fun n' time' => post n' (time + time'))) :
    (orReturn call rest).Sleeps post := by
  intro w
  obtain ⟨time, hw, herror, hrest⟩ := hcall w
  unfold Call.orReturn
  by_cases hn : (call w).1 = gpioError
  · rw [if_pos hn]
    exact ⟨time, hw, herror hn⟩
  · rw [if_neg hn]
    obtain ⟨time', hw', hpost⟩ := hrest hn (call w).2
    exact ⟨time + time', by rw [hw', hw, Int.add_assoc], hpost⟩

theorem andThen (hcall : call.Sleeps fun n time =>
      (rest n).Sleeps fun n' time' => post n' (time + time')) :
    (andThen call rest).Sleeps post := by
  intro w
  obtain ⟨time, hw, hrest⟩ := hcall w
  obtain ⟨time', hw', hpost⟩ := hrest (call w).2
  exact ⟨time + time', by rw [Call.andThen, hw', hw, Int.add_assoc], hpost⟩

theorem digitalRead (fs : Sysfs W) (pin : Int) (hpost : ∀ n, post n 0) :
    (digitalRead fs.timed pin).Sleeps post := by
  intro w
  refine ⟨0, ?_, hpost _⟩
  unfold Rocpmd.digitalRead
  split
  next heq =>
    rw [← (Prod.mk.inj heq).2]
    exact (Int.add_zero w.2).symm
  next heq =>
    split
    all_goals
      rw [← (Prod.mk.inj heq).2]
      exact (Int.add_zero w.2).symm

theorem digitalWrite (fs : Sysfs W) (pin val : Int) (hpost : ∀ n, post n 0) :
    (digitalWrite fs.timed pin val).Sleeps post := by
  intro w
  refine ⟨0, ?_, hpost _⟩
  unfold Rocpmd.digitalWrite Sysfs.timed
  dsimp only
  split <;> exact (Int.add_zero w.2).symm

/-- An access in front of the rest. -/
theorem readReturn (fs : Sysfs W) (pin : Int) (herror : post gpioError 0)
    (hrest : ∀ n, (rest n).Sleeps post) :
    (Call.orReturn (Rocpmd.digitalRead fs.timed pin) rest).Sleeps post := by
  refine orReturn (digitalRead fs pin fun n => ⟨fun hn => hn ▸ herror, fun _ => ?_⟩)
  simpa only [Int.zero_add] using hrest n

theorem writeReturn (fs : Sysfs W) (pin val : Int) (herror : post gpioError 0)
    (hrest : ∀ n, (rest n).Sleeps post) :
    (Call.orReturn (Rocpmd.digitalWrite fs.timed pin val) rest).Sleeps post := by
  refine orReturn (digitalWrite fs pin val fun n => ⟨fun hn => hn ▸ herror, fun _ => ?_⟩)
  simpa only [Int.zero_add] using hrest n

theorem mono {post' : Int → Int → Prop} (hcall : call.Sleeps post)
    (hpost : ∀ n time, post n time → post' n time) : call.Sleeps post' := by
  intro w
  obtain ⟨time, hw, htime⟩ := hcall w
  exact ⟨time, hw, hpost _ _ htime⟩

end Call.Sleeps

/-! ## The phases of a measurement -/

/-- A call that succeeds has slept so long, and one that fails at most `most`. -/
def PhaseTakes (most whole result time : Int) : Prop :=
  result = gpioError ∧ 0 ≤ time ∧ time ≤ most ∨ result = gpioSuccess ∧ time = whole

/-- A phase in front of the rest. -/
theorem Call.Sleeps.phaseReturn {call : Call (W × Int)} {rest : Int → Call (W × Int)}
    {most whole : Int} {post : Int → Int → Prop} (hcall : call.Sleeps (PhaseTakes most whole))
    (herror : ∀ time, 0 ≤ time → time ≤ most → post gpioError time)
    (hrest : ∀ n, (rest n).Sleeps fun n' time => post n' (whole + time)) :
    (Call.orReturn call rest).Sleeps post := by
  refine .orReturn (hcall.mono fun n time htakes => ?_)
  rcases htakes with ⟨rfl, hpos, hle⟩ | ⟨rfl, rfl⟩
  · exact ⟨fun _ => herror time hpos hle, fun hne => absurd rfl hne⟩
  · exact ⟨fun hn => absurd hn (by decide), fun _ => hrest _⟩

section Phases

variable (fs : Sysfs W) (conf : Config)

theorem resetPulses_sleeps (pinNoUd pinNoPgood : Int) {gpioDelay : Int} (hdelay : 0 ≤ gpioDelay)
    (n : ℕ) : (resetPulses fs.timed pinNoUd pinNoPgood gpioDelay n).Sleeps
      (PhaseTakes (2 * gpioDelay * n) (2 * gpioDelay * n)) := by
  induction n with
  | zero => exact .ret (.inr ⟨rfl, by simp⟩)
  | succ n ih =>
      have hrounds : 0 ≤ gpioDelay * n := Int.mul_nonneg hdelay (Int.natCast_nonneg n)
      have herror : ∀ time, 0 ≤ time → time ≤ 2 * gpioDelay * (n + 1 : ℕ) →
          PhaseTakes (2 * gpioDelay * (n + 1 : ℕ)) (2 * gpioDelay * (n + 1 : ℕ)) gpioError time :=
        fun time hpos hle => .inl ⟨rfl, hpos, hle⟩
      push_cast at herror ⊢
      refine .writeReturn fs _ _ (herror _ (by linarith) (by linarith)) fun _ => .delay ?_
      refine .writeReturn fs _ _ (herror _ (by linarith) (by linarith)) fun _ => .delay ?_
      refine .readReturn fs _ (herror _ (by linarith) (by linarith)) fun _ => ih.mono ?_
      rintro result time (⟨rfl, hpos, hle⟩ | ⟨rfl, rfl⟩)
      · exact herror _ (by linarith) (by linarith)
      · exact .inr ⟨rfl, by ring⟩

/-- The scan says in its result how many of its rounds it has made. -/
theorem scanLevel_sleeps (pinNoUd pinNoPgood : Int) {gpioDelay : Int} (hdelay : 0 ≤ gpioDelay)
    {post : Int → Int → Prop} (battlevel : ℕ) (statusPgood : Int)
    (herror : ∀ time, 0 ≤ time → time ≤ 2 * gpioDelay * battlevel → post gpioError time)
    (hdone : ∀ n : Int, 0 ≤ n → n ≤ battlevel → post n (2 * gpioDelay * (battlevel - n))) :
    (scanLevel fs.timed pinNoUd pinNoPgood gpioDelay battlevel statusPgood).Sleeps post := by
  induction battlevel generalizing post statusPgood with
  | zero => exact .ret (by simpa using hdone 0 le_rfl (by simp))
  | succ battlevel ih =>
      have hrounds : 0 ≤ gpioDelay * battlevel :=
        Int.mul_nonneg hdelay (Int.natCast_nonneg battlevel)
      push_cast at herror hdone
      unfold scanLevel
      split
      next =>
        refine .writeReturn fs _ _ (herror _ (by linarith) (by linarith)) fun _ => .delay ?_
        refine .writeReturn fs _ _ (herror _ (by linarith) (by linarith)) fun _ => .delay ?_
        refine .readReturn fs _ (herror _ (by linarith) (by linarith)) fun _ => ih _ ?_ ?_
        · exact fun time hpos hle => herror _ (by linarith) (by linarith)
        · intro n hpos hle
          convert hdone n hpos (by omega) using 1
          ring
      next =>
        have hhere := hdone (battlevel + 1) (by omega) le_rfl
        exact .ret (by simpa using hhere)

variable {gpioDelay pgoodDelay : Int}
  (hgpio : conf.batteryLevelReader.batteryLevelGpioDelay = gpioDelay) (hgpioPos : 0 ≤ gpioDelay)
  (hpgood : conf.batteryLevelReader.batteryLevelPgoodDelay = pgoodDelay)

include hgpio hgpioPos hpgood

theorem resetComparator_sleeps : (resetComparator fs.timed conf).Sleeps
    (PhaseTakes (130 * gpioDelay) (130 * gpioDelay + pgoodDelay)) := by
  have herror : ∀ time, 0 ≤ time → time ≤ 130 * gpioDelay →
      PhaseTakes (130 * gpioDelay) (130 * gpioDelay + pgoodDelay) gpioError time :=
    fun time hpos hle => .inl ⟨rfl, hpos, hle⟩
  rw [resetComparator, hgpio, hpgood]
  refine .writeReturn fs _ _ (herror _ (by linarith) (by linarith)) fun _ => .delay ?_
  refine .writeReturn fs _ _ (herror _ (by linarith) (by linarith)) fun _ => .delay ?_
  refine .phaseReturn (resetPulses_sleeps fs _ _ hgpioPos 64) ?_ fun _ => ?_
  · intro time hpos hle
    push_cast at hle
    exact herror _ (by linarith) (by linarith)
  · push_cast
    refine .writeReturn fs _ _ (herror _ (by linarith) (by linarith)) fun _ => .delay ?_
    exact .ret (.inr ⟨rfl, by ring⟩)

omit hpgood

theorem selectDecrement_sleeps :
    (selectDecrement fs.timed conf).Sleeps (PhaseTakes gpioDelay (2 * gpioDelay)) := by
  have herror : ∀ time, 0 ≤ time → time ≤ gpioDelay →
      PhaseTakes gpioDelay (2 * gpioDelay) gpioError time :=
    fun time hpos hle => .inl ⟨rfl, hpos, hle⟩
  rw [selectDecrement, hgpio]
  refine .readReturn fs _ (herror _ (by linarith) (by linarith)) fun _ => .delay ?_
  refine .writeReturn fs _ _ (herror _ (by linarith) (by linarith)) fun _ => .delay ?_
  exact .ret (.inr ⟨rfl, by ring⟩)

theorem readLevel_sleeps {post : Int → Int → Prop}
    (herror : ∀ time, 0 ≤ time → time ≤ 127 * gpioDelay → post gpioError time)
    (hdone : ∀ n : Int, 0 ≤ n → n ≤ 63 → post n ((128 - 2 * n) * gpioDelay)) :
    (readLevel fs.timed conf).Sleeps post := by
  rw [readLevel, hgpio]
  refine .writeReturn fs _ _ (herror _ (by linarith) (by linarith)) fun _ => .delay ?_
  refine .readReturn fs _ (herror _ (by linarith) (by linarith)) fun _ => ?_
  refine .orReturn (scanLevel_sleeps fs _ _ hgpioPos 63 _ ?_ ?_)
  · intro time hpos hle
    push_cast at hle
    exact ⟨fun _ => herror _ (by linarith) (by linarith), fun hne => absurd rfl hne⟩
  · intro n hpos hle
    push_cast at hle ⊢
    have hround : 0 ≤ gpioDelay * n := Int.mul_nonneg hgpioPos hpos
    have hrounds : 0 ≤ gpioDelay * (63 - n) := Int.mul_nonneg hgpioPos (by omega)
    refine ⟨fun hn => ?_, fun _ => ?_⟩
    · simp only [gpioError] at hn
      omega
    · refine .writeReturn fs _ _ ?_ fun _ => .delay (.ret ?_)
      · exact herror _ (by linarith) (by linarith)
      · convert hdone n hpos hle using 1
        ring

end Phases

/-! ## The whole measurement -/

section Measurement

variable (fs : Sysfs W) (conf : Config)

/-- The time a measurement takes, by what it finds. A measurement that fails may stop anywhere. -/
def MeasurementTakes (gpioDelay pgoodDelay result time : Int) : Prop :=
  if result = gpioError then 0 ≤ time ∧ time ≤ 261 * gpioDelay + pgoodDelay
  else if result = charging then time = gpioDelay
  else 0 ≤ result ∧ result ≤ 63 ∧ time = (262 - 2 * result) * gpioDelay + pgoodDelay

theorem measurement_sleeps {gpioDelay pgoodDelay : Int}
    (hgpio : conf.batteryLevelReader.batteryLevelGpioDelay = gpioDelay) (hgpioPos : 0 ≤ gpioDelay)
    (hpgood : conf.batteryLevelReader.batteryLevelPgoodDelay = pgoodDelay)
    (hpgoodPos : 0 ≤ pgoodDelay) :
    (gpioReadBatteryLevelRaw fs.timed conf).Sleeps (MeasurementTakes gpioDelay pgoodDelay) := by
  have herror : ∀ time, 0 ≤ time → time ≤ 261 * gpioDelay + pgoodDelay →
      MeasurementTakes gpioDelay pgoodDelay gpioError time :=
    fun time hpos hle => (if_pos rfl).mpr ⟨hpos, hle⟩
  -- a level is never one of the other two results
  have hlevel : ∀ n time : Int, 0 ≤ n → n ≤ 63 →
      time = (262 - 2 * n) * gpioDelay + pgoodDelay →
      MeasurementTakes gpioDelay pgoodDelay n time := by
    intro n time hn hle htime
    have hne : n ≠ gpioError ∧ n ≠ charging := by
      simp only [gpioError, charging]
      omega
    rw [MeasurementTakes, if_neg hne.1, if_neg hne.2]
    exact ⟨hn, hle, htime⟩
  have hbattery : (orReturn (resetComparator fs.timed conf) fun _ =>
      orReturn (selectDecrement fs.timed conf) fun _ => readLevel fs.timed conf).Sleeps
        fun n time => MeasurementTakes gpioDelay pgoodDelay n (2 * gpioDelay + time) := by
    refine .phaseReturn (resetComparator_sleeps fs conf hgpio hgpioPos hpgood) ?_ fun _ => ?_
    · exact fun time hpos hle => herror _ (by linarith) (by linarith)
    refine .phaseReturn (selectDecrement_sleeps fs conf hgpio hgpioPos) ?_ fun _ => ?_
    · exact fun time hpos hle => herror _ (by linarith) (by linarith)
    refine readLevel_sleeps fs conf hgpio hgpioPos ?_ fun n hpos hle => ?_
    · exact fun time hpos hle => herror _ (by linarith) (by linarith)
    · exact hlevel n _ hpos hle (by ring)
  have hsupply : ∀ d2 : Int, Call.Sleeps (if d2 ≠ 0 then ret charging else
      delay fs.timed gpioDelay (orReturn (resetComparator fs.timed conf) fun _ =>
        orReturn (selectDecrement fs.timed conf) fun _ => readLevel fs.timed conf))
      fun n time => MeasurementTakes gpioDelay pgoodDelay n (gpioDelay + time) := by
    intro d2
    split
    next =>
      refine .ret ?_
      rw [MeasurementTakes, if_neg (by decide), if_pos rfl, Int.add_zero]
    next =>
      refine .delay fun w => ?_
      obtain ⟨time, hw, htime⟩ := hbattery w
      refine ⟨time, hw, ?_⟩
      convert htime using 1
      ring
  rw [gpioReadBatteryLevelRaw_eq, checkSupply, hgpio]
  refine .readReturn fs _ (herror _ (by linarith) (by linarith)) fun _ => .delay (.andThen ?_)
  refine .orReturn (.digitalRead fs _ fun n => ⟨fun _ => ?_, fun _ => .ret ?_⟩)
  · simpa only [Int.zero_add] using hsupply n
  · simpa only [Int.zero_add, Int.add_zero] using hsupply (cNot n)

/-- A measurement takes no longer than one that finds the battery empty. -/
theorem MeasurementTakes.bounds {gpioDelay pgoodDelay result time : Int}
    (htakes : MeasurementTakes gpioDelay pgoodDelay result time) (hgpioPos : 0 ≤ gpioDelay)
    (hpgoodPos : 0 ≤ pgoodDelay) : 0 ≤ time ∧ time ≤ 262 * gpioDelay + pgoodDelay := by
  unfold MeasurementTakes at htakes
  split at htakes
  next => exact ⟨htakes.1, by linarith [htakes.2]⟩
  next =>
    split at htakes
    next => constructor <;> linarith
    next =>
      obtain ⟨hpos, hle, rfl⟩ := htakes
      have hlow : 0 ≤ gpioDelay * result := Int.mul_nonneg hgpioPos hpos
      have hhigh : 0 ≤ gpioDelay * (63 - result) := Int.mul_nonneg hgpioPos (by omega)
      constructor <;> linarith

end Measurement

/-! ## Counting changes nothing else -/

theorem Sysfs.timed_view (fs : Sysfs W) (conf : Config) :
    fs.timed.View fs conf (fun _ => True) Prod.fst where
  read _ _ _ := ⟨trivial, rfl⟩
  write _ _ _ _ _ := ⟨trivial, rfl⟩
  usleep _ _ _ := ⟨trivial, rfl⟩

/-- **How long a measurement takes.** Whatever the files answer, the time spent asleep follows from
the result: a level `n` takes `262 - 2 * n` GPIO delays and the delay of PGOOD, a supply that is
plugged in takes one GPIO delay, and an error stops a measurement before that of level 0 is over. -/
theorem measurement_duration (fs : Sysfs W) (conf : Config)
    (hgpio : 0 ≤ conf.batteryLevelReader.batteryLevelGpioDelay)
    (hpgood : 0 ≤ conf.batteryLevelReader.batteryLevelPgoodDelay) (w : W) (slept : Int) :
    ∃ time, gpioReadBatteryLevelRaw fs.timed conf (w, slept) =
        ((gpioReadBatteryLevelRaw fs conf w).1, (gpioReadBatteryLevelRaw fs conf w).2,
          slept + time) ∧
      MeasurementTakes conf.batteryLevelReader.batteryLevelGpioDelay
        conf.batteryLevelReader.batteryLevelPgoodDelay (gpioReadBatteryLevelRaw fs conf w).1
        time := by
  obtain ⟨-, hseen⟩ := (fs.timed_view conf).gpioReadBatteryLevelRaw (w, slept) trivial
  obtain ⟨time, htime, htakes⟩ := measurement_sleeps fs conf rfl hgpio rfl hpgood (w, slept)
  dsimp only at hseen
  rw [hseen]
  exact ⟨time, Prod.ext rfl (Prod.ext rfl htime), htakes⟩

/-- An empty battery, with the delays shipped: a little more than three seconds. -/
theorem measurement_duration_empty : ∃ time,
    gpioReadBatteryLevelRaw Sysfs.allHigh.timed .shipped ((), 0) = (0, (), 0 + time) ∧
      MeasurementTakes 10000 500000 0 time := by
  have hresult : gpioReadBatteryLevelRaw .allHigh .shipped () = (0, ()) := by decide +kernel
  have hduration := measurement_duration .allHigh .shipped (by decide) (by decide) () 0
  rwa [hresult] at hduration

end Rocpmd

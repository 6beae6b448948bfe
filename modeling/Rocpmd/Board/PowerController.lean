import Rocpmd.Board.Bench

/-!
# The power controller of the board

The state machine of the manual: the button and the OFF signal move it from POWER_ON through REQ_OFF
to POWER_OFF, and only the button turns the power on again. It sees the rising edges of OFF, and
asserts REQ_OFF_B in REQ_OFF.

`gpio_write_off` makes three edges where two are enough, so a line left high by an earlier call does
no harm.
-/

namespace Rocpmd

open Call

inductive PowerState
  | powerOff | powerOn | reqOff
deriving DecidableEq, Repr

namespace PowerState

/-- The button. -/
def press : PowerState → PowerState
  | .powerOff => .powerOn
  | .powerOn => .reqOff
  | .reqOff => .powerOff

/-- OFF toggled high. -/
def toggle : PowerState → PowerState
  | .powerOff => .powerOff
  | .powerOn => .reqOff
  | .reqOff => .powerOff

/-- The edges it takes to cut the power. -/
def edgesToOff : PowerState → ℕ
  | .powerOff => 0
  | .powerOn => 2
  | .reqOff => 1

theorem edgesToOff_eq_zero_iff (state : PowerState) :
    state.edgesToOff = 0 ↔ state = .powerOff := by
  cases state <;> decide

end PowerState

/-- The controller and the level of OFF. -/
structure PowerController where
  state : PowerState
  offLine : Bool
deriving DecidableEq, Repr

namespace PowerController

def setOff (controller : PowerController) (level : Bool) : PowerController where
  state :=
    if controller.offLine = false ∧ level = true then controller.state.toggle
    else controller.state
  offLine := level

/-- REQ_OFF_B is active low. -/
def reqOffB (controller : PowerController) : Bool := decide (controller.state ≠ .reqOff)

/-- The writes of OFF up to the one that cuts the power, if they alternate and start high: a line
that is high already wastes the first pulse. -/
def writesToOff (controller : PowerController) : ℕ :=
  match controller.state.edgesToOff with
  | 0 => 0
  | n + 1 => 2 * n + 1 + if controller.offLine then 2 else 0

/-- A pulse of OFF, and the line is low. -/
def pulse (controller : PowerController) : PowerController := (controller.setOff true).setOff false

theorem writesToOff_eq_zero_iff (controller : PowerController) :
    controller.writesToOff = 0 ↔ controller.state = .powerOff := by
  rw [← PowerState.edgesToOff_eq_zero_iff, writesToOff]
  split
  next h => exact iff_of_true rfl h
  next h => exact iff_of_false (by omega) (by rw [h]; omega)

/-- The first write cuts the power by an edge from REQ_OFF only. -/
theorem setOff_true_state (controller : PowerController) :
    (controller.setOff true).state = .powerOff ↔ controller.writesToOff ≤ 1 := by
  obtain ⟨state, offLine⟩ := controller
  cases state <;> cases offLine <;> decide

theorem writesToOff_pulse (controller : PowerController) :
    controller.pulse.writesToOff = controller.writesToOff - 2 := by
  obtain ⟨state, offLine⟩ := controller
  cases state <;> cases offLine <;> decide

theorem writesToOff_le (controller : PowerController) : controller.writesToOff ≤ 5 := by
  obtain ⟨state, offLine⟩ := controller
  cases state <;> cases offLine <;> decide

end PowerController

/-! ## OFF on files that fail -/

/-- The board behind the files, and the writes of OFF made so far. -/
structure OffLine where
  controller : PowerController
  writes : ℕ

/-- Any of the writes of OFF may fail. -/
def OffLine.sysfs (pinNoOff : Int) (fault : ℕ → Bool) : Sysfs OffLine where
  read _ line := (.cannotOpen, line)
  write file text line :=
    if file = .value pinNoOff then
      if fault line.writes then (false, { line with writes := line.writes + 1 })
      else (true, ⟨line.controller.setOff (text == "1"), line.writes + 1⟩)
    else (false, line)
  usleep _ line := line

section WriteOff

variable (pinNoOff : Int) (fault : ℕ → Bool)

theorem digitalWrite_off (level : Bool) (line : OffLine) :
    digitalWrite (OffLine.sysfs pinNoOff fault) pinNoOff (levelStatus level) line =
      if fault line.writes then (gpioError, { line with writes := line.writes + 1 })
      else (gpioSuccess, ⟨line.controller.setOff level, line.writes + 1⟩) := by
  cases hfault : fault line.writes <;>
    simp [digitalWrite, OffLine.sysfs, hfault, repr_levelStatus]

/-- One round of the loop: it stops at the first of its two writes that fails. -/
theorem pulseOff_succ (n : ℕ) (line : OffLine) :
    pulseOff (OffLine.sysfs pinNoOff fault) pinNoOff (n + 1) line =
      if fault line.writes then (gpioError, { line with writes := line.writes + 1 })
      else if fault (line.writes + 1) then
        (gpioError, ⟨line.controller.setOff true, line.writes + 2⟩)
      else pulseOff (OffLine.sysfs pinNoOff fault) pinNoOff n
        ⟨line.controller.pulse, line.writes + 2⟩ := by
  have hhigh : digitalWrite (OffLine.sysfs pinNoOff fault) pinNoOff high line = _ :=
    digitalWrite_off pinNoOff fault true line
  have hlow : digitalWrite (OffLine.sysfs pinNoOff fault) pinNoOff low
      ⟨line.controller.setOff true, line.writes + 1⟩ = _ :=
    digitalWrite_off pinNoOff fault false ⟨line.controller.setOff true, line.writes + 1⟩
  rw [pulseOff]
  split
  next hfault => exact orReturn_of_error (by rw [if_pos hfault] at hhigh; exact hhigh) _
  next hfault =>
    rw [if_neg hfault] at hhigh
    rw [orReturn_of_ne hhigh (by decide), delay]
    split
    next hfault => exact orReturn_of_error (by rw [if_pos hfault] at hlow; exact hlow) _
    next hfault =>
      rw [if_neg hfault] at hlow
      exact orReturn_of_ne hlow (by decide) _

/-- Two writes pass, and the rest is for the writes after them. -/
theorem passes_iff {w n : ℕ} (hfirst : ¬ fault w = true) (hsecond : ¬ fault (w + 1) = true) :
    (∀ k < n, fault (w + k) = false) ↔ ∀ k < n - 2, fault (w + 2 + k) = false := by
  constructor
  · intro hpasses k hk
    have hlater := hpasses (2 + k) (by omega)
    rwa [← Nat.add_assoc] at hlater
  · intro hpasses k hk
    rcases k with - | - | k
    · exact Bool.eq_false_iff.mpr hfirst
    · exact Bool.eq_false_iff.mpr hsecond
    · have hlater := hpasses k (by omega)
      rwa [show w + 2 + k = w + (k + 1 + 1) by omega] at hlater

/-- The power is cut exactly if the writes that it takes all pass. -/
theorem pulseOff_state_iff {n : ℕ} (line : OffLine) (hn : line.controller.writesToOff ≤ 2 * n) :
    (pulseOff (OffLine.sysfs pinNoOff fault) pinNoOff n line).2.controller.state = .powerOff ↔
      ∀ k < line.controller.writesToOff, fault (line.writes + k) = false := by
  induction n generalizing line with
  | zero =>
      have hzero : line.controller.writesToOff = 0 := by omega
      rw [hzero]
      exact iff_of_true ((PowerController.writesToOff_eq_zero_iff _).mp hzero) (by simp)
  | succ n ih =>
      rw [pulseOff_succ]
      split
      next hfirst =>
        refine (PowerController.writesToOff_eq_zero_iff line.controller).symm.trans ?_
        constructor
        · intro hzero k hk
          rw [hzero] at hk
          cases hk
        · intro hpasses
          by_contra hne
          exact absurd (hpasses 0 (Nat.pos_of_ne_zero hne)) (by simp [hfirst])
      next hfirst =>
        split
        next hsecond =>
          refine line.controller.setOff_true_state.trans ?_
          constructor
          · intro hle k hk
            obtain rfl : k = 0 := by omega
            exact Bool.eq_false_iff.mpr hfirst
          · intro hpasses
            by_contra hgt
            exact absurd (hpasses 1 (by omega)) (by simp [hsecond])
        next hsecond =>
          have hpulse := line.controller.writesToOff_pulse
          rw [passes_iff fault hfirst hsecond, ← hpulse]
          exact ih ⟨line.controller.pulse, line.writes + 2⟩ (by rw [hpulse]; omega)

theorem pulseOff_result (n : ℕ) (line : OffLine) :
    let status := (pulseOff (OffLine.sysfs pinNoOff fault) pinNoOff n line).1
    (status = gpioSuccess ↔ ∀ k < 2 * n, fault (line.writes + k) = false) ∧
      (status = gpioSuccess ∨ status = gpioError) := by
  have herror : gpioError ≠ gpioSuccess := by decide
  induction n generalizing line with
  | zero => exact ⟨iff_of_true rfl (by simp), .inl rfl⟩
  | succ n ih =>
      dsimp only
      rw [pulseOff_succ]
      split
      next hfirst =>
        refine ⟨iff_of_false herror fun hpasses => ?_, .inr rfl⟩
        exact absurd (hpasses 0 (by omega)) (by simp [hfirst])
      next hfirst =>
        split
        next hsecond =>
          refine ⟨iff_of_false herror fun hpasses => ?_, .inr rfl⟩
          exact absurd (hpasses 1 (by omega)) (by simp [hsecond])
        next hsecond =>
          have hshift : 2 * (n + 1) - 2 = 2 * n := by omega
          rw [passes_iff fault hfirst hsecond, hshift]
          exact ih ⟨line.controller.pulse, line.writes + 2⟩

end WriteOff

/-- **What cuts the power.** Whatever state the board is in, whatever level OFF has and whichever
writes fail, the call cuts the power exactly if the writes up to the last edge it takes pass, and
reports success exactly if all six pass: it may report an error with the power cut, but never
success with the power on. -/
theorem gpioWriteOff_cuts_iff (conf : Config) (fault : ℕ → Bool) (controller : PowerController) :
    let out := gpioWriteOff (OffLine.sysfs (conf.pin .off) fault) conf ⟨controller, 0⟩
    (out.2.controller.state = .powerOff ↔
        ∀ k < controller.writesToOff, fault k = false) ∧
      (out.1 = gpioSuccess ↔ ∀ k < 6, fault k = false) ∧
      (out.1 = gpioSuccess ∨ out.1 = gpioError) ∧
      (out.1 = gpioSuccess → out.2.controller.state = .powerOff) := by
  have hle := controller.writesToOff_le
  have hstate := pulseOff_state_iff (conf.pin .off) fault (n := 3) ⟨controller, 0⟩
    (Nat.le_trans hle (by decide))
  have hresult := pulseOff_result (conf.pin .off) fault 3 ⟨controller, 0⟩
  simp only [Nat.zero_add] at hstate hresult
  refine ⟨hstate, hresult.1, hresult.2, fun hsuccess => hstate.mpr fun k hk => ?_⟩
  exact hresult.1.mp hsuccess k (by omega)

end Rocpmd

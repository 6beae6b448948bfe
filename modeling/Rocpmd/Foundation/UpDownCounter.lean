import Mathlib.Data.Fin.Basic
import Mathlib.Data.List.Count
import Mathlib.Tactic.Common

/-!
# An up/down counter with a select line

The counter of a digital potentiometer: a position that saturates at both ends, moved by one for
every rising edge of its count line while its active low select line is asserted. The direction is
latched from the count line when the select line falls.
-/

namespace Foundation

inductive Direction
  | up | down
deriving DecidableEq, Repr

/-- The direction a falling select line latches from the level of the count line. -/
def Direction.ofLevel (level : Bool) : Direction := if level then .up else .down

namespace UpDownCounter

inductive Event
  | latched (dir : Direction)
  | pulsed (dir : Direction)
deriving DecidableEq, Repr

end UpDownCounter

structure UpDownCounter (top : ℕ) where
  pos : Fin (top + 1)
  dir : Direction
  select : Bool
  line : Bool
  /-- What the counter has done, latest first. It influences nothing. -/
  events : List UpDownCounter.Event
deriving DecidableEq, Repr

namespace UpDownCounter

variable {top : ℕ}

def move (dir : Direction) (pos : Fin (top + 1)) : Fin (top + 1) :=
  match dir with
  | .up => ⟨min (pos + 1) top, Nat.lt_succ_of_le (Nat.min_le_right _ _)⟩
  | .down => ⟨pos - 1, Nat.lt_of_le_of_lt (Nat.sub_le _ _) pos.isLt⟩

/-- One count in the latched direction. -/
def pulse (counter : UpDownCounter top) : UpDownCounter top :=
  { counter with
    pos := move counter.dir counter.pos
    events := .pulsed counter.dir :: counter.events }

def setSelect (counter : UpDownCounter top) (level : Bool) : UpDownCounter top :=
  if counter.select = true ∧ level = false then
    { counter with
      select := false
      dir := .ofLevel counter.line
      events := .latched (.ofLevel counter.line) :: counter.events }
  else { counter with select := level }

def setLine (counter : UpDownCounter top) (level : Bool) : UpDownCounter top :=
  if counter.select = false ∧ counter.line = false ∧ level = true then
    { counter.pulse with line := true }
  else { counter with line := level }

/-- `n` counts in a row. -/
def pulses : ℕ → UpDownCounter top → UpDownCounter top
  | 0, counter => counter
  | n + 1, counter => pulses n counter.pulse

/-! ## Edges -/

variable (counter : UpDownCounter top)

@[simp] theorem pulse_dir : counter.pulse.dir = counter.dir := rfl

theorem setSelect_fall (hselect : counter.select = true) : counter.setSelect false =
    { counter with
      select := false
      dir := .ofLevel counter.line
      events := .latched (.ofLevel counter.line) :: counter.events } := by
  simp [setSelect, hselect]

@[simp] theorem setSelect_rise : counter.setSelect true = { counter with select := true } := by
  simp [setSelect]

@[simp] theorem setLine_fall : counter.setLine false = { counter with line := false } := by
  simp [setLine]

@[simp] theorem setLine_select (level : Bool) :
    (counter.setLine level).select = counter.select := by
  unfold setLine
  split <;> rfl

/-- While the counter is not selected the count line only keeps its level. -/
theorem setLine_of_deselected (hselect : counter.select = true) (level : Bool) :
    counter.setLine level = { counter with line := level } := by
  simp [setLine, hselect]

theorem setLine_rise (hselect : counter.select = false) (hline : counter.line = false) :
    counter.setLine true = { counter.pulse with line := true } := by
  simp [setLine, hselect, hline]

/-! ## Runs of pulses -/

theorem pulses_events (n : ℕ) :
    (counter.pulses n).events = List.replicate n (.pulsed counter.dir) ++ counter.events := by
  induction n generalizing counter with
  | zero => rfl
  | succ n ih =>
      rw [pulses, ih, pulse_dir, List.replicate_succ', List.append_assoc]
      rfl

theorem pulses_up_pos (hdir : counter.dir = .up) (n : ℕ) :
    ((counter.pulses n).pos : ℕ) = min (counter.pos + n) top := by
  induction n generalizing counter with
  | zero =>
      have := counter.pos.isLt
      simp only [pulses]
      omega
  | succ n ih =>
      rw [pulses, ih counter.pulse (by rw [pulse_dir, hdir])]
      simp only [pulse, hdir, move]
      omega

/-- After `top` counts up, or more, the counter is at its upper end. -/
theorem pulses_up_pos_eq_top (hdir : counter.dir = .up) {n : ℕ} (hn : top ≤ n) :
    (counter.pulses n).pos = Fin.last top := by
  apply Fin.ext
  rw [pulses_up_pos counter hdir, Fin.val_last]
  omega

theorem pulses_down_pos (hdir : counter.dir = .down) (n : ℕ) :
    ((counter.pulses n).pos : ℕ) = counter.pos - n := by
  induction n generalizing counter with
  | zero => rfl
  | succ n ih =>
      rw [pulses, ih counter.pulse (by rw [pulse_dir, hdir])]
      simp only [pulse, hdir, move]
      omega

end UpDownCounter

end Foundation

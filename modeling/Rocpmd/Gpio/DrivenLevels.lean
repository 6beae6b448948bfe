import Rocpmd.Gpio.BatteryLevel
import Mathlib.Logic.Function.Basic

/-!
# The pins a measurement drives

What a call does to the world is bounded by what its accesses do. A measurement reads three pins
and writes two, so the levels of all others are left as they were.
-/

namespace Rocpmd

open Call

variable {W : Type}

/-! ## What an access keeps, a call keeps -/

/-- The world after the call is related to the one before it. -/
def Call.Keeps (R : W → W → Prop) (call : Call W) : Prop := ∀ w, R w (call w).2

/-- The accesses of a measurement keep a relation: reads of any pin, pauses, and writes of the two
pins that select and count. -/
structure Sysfs.MeasurementKeeps (fs : Sysfs W) (conf : Config) (R : W → W → Prop) : Prop where
  refl : ∀ w, R w w
  trans : ∀ w w' w'', R w w' → R w' w'' → R w w''
  read : ∀ file w, R w (fs.read file w).2
  usleep : ∀ duration w, R w (fs.usleep duration w)
  writeUd : ∀ text w, R w (fs.write (.value (conf.pin .udB)) text w).2
  writeCs : ∀ text w, R w (fs.write (.value (conf.pin .csB)) text w).2

theorem digitalWrite_keeps {fs : Sysfs W} {R : W → W → Prop} {pin : Int}
    (hwrite : ∀ text w, R w (fs.write (.value pin) text w).2) (val : Int) :
    (digitalWrite fs pin val).Keeps R := by
  intro w
  unfold digitalWrite
  dsimp only
  split <;> exact hwrite _ w

namespace Sysfs.MeasurementKeeps

variable {fs : Sysfs W} {conf : Config} {R : W → W → Prop} (hkeeps : fs.MeasurementKeeps conf R)

include hkeeps

theorem shut : fs.shut.MeasurementKeeps conf R where
  refl := hkeeps.refl
  trans := hkeeps.trans
  read _ := hkeeps.refl
  usleep := hkeeps.usleep
  writeUd _ := hkeeps.refl
  writeCs _ := hkeeps.refl

theorem delay {rest : Call W} (duration : Int) (hrest : rest.Keeps R) :
    (delay fs duration rest).Keeps R := fun w =>
  hkeeps.trans _ _ _ (hkeeps.usleep duration w) (hrest _)

theorem digitalRead (pin : Int) : (digitalRead fs pin).Keeps R := by
  intro w
  have hread := hkeeps.read (.value pin) w
  unfold Rocpmd.digitalRead
  split
  next heq => rw [heq] at hread; exact hread
  next heq => rw [heq] at hread; split <;> exact hread

theorem orReturn {first : Call W} {rest : Int → Call W} (hfirst : first.Keeps R)
    (hrest : ∀ n, n ≠ gpioError → (rest n).Keeps R) : (orReturn first rest).Keeps R := by
  intro w
  unfold Call.orReturn
  split
  next => exact hfirst w
  next hne => exact hkeeps.trans _ _ _ (hfirst w) (hrest _ hne _)

theorem andThen {first : Call W} {rest : Int → Call W} (hfirst : first.Keeps R)
    (hrest : ∀ n, (rest n).Keeps R) : (andThen first rest).Keeps R := fun w =>
  hkeeps.trans _ _ _ (hfirst w) (hrest _ _)

theorem measurement : MeasurementRelation fs fs conf fun call _ => call.Keeps R where
  ret _ _ := hkeeps.refl
  delay duration _ _ := hkeeps.delay duration
  orReturn := hkeeps.orReturn
  readPgood := hkeeps.digitalRead _
  writeUd := digitalWrite_keeps hkeeps.writeUd
  writeCs := digitalWrite_keeps hkeeps.writeCs

theorem checkSupply {rest : Call W} (hrest : rest.Keeps R) :
    (checkSupply fs conf rest).Keeps R := by
  apply hkeeps.orReturn (hkeeps.digitalRead _)
  intro _ _
  apply hkeeps.delay
  have hd2 : (gpioReadD2 fs conf).Keeps R :=
    hkeeps.orReturn (hkeeps.digitalRead _) fun _ _ => hkeeps.refl
  apply hkeeps.andThen hd2
  intro d2
  split
  next => exact hkeeps.refl
  next => exact hkeeps.delay _ hrest

/-- A measurement does nothing to the world but what its accesses do. -/
theorem gpioReadBatteryLevelRaw : (gpioReadBatteryLevelRaw fs conf).Keeps R := by
  rw [gpioReadBatteryLevelRaw_eq]
  exact hkeeps.checkSupply hkeeps.measurement.onBattery

end Sysfs.MeasurementKeeps

/-! ## Levels -/

/-- The levels the pins are driven to, and the pins whose level a write has changed. -/
structure Lines where
  level : Int → Bool
  changed : List Int

def Lines.drive (lines : Lines) (pin : Int) (level : Bool) : Lines :=
  if lines.level pin = level then lines
  else ⟨Function.update lines.level pin level, lines.changed ++ [pin]⟩

theorem Lines.changed_drive {lines : Lines} {pin other : Int} {level : Bool}
    (hchanged : other ∈ (lines.drive pin level).changed) : other ∈ lines.changed ∨ other = pin := by
  unfold Lines.drive at hchanged
  split at hchanged
  next => exact .inl hchanged
  next => simpa using hchanged

/-- The same files, and the levels that writing them drives the pins to: a write has an effect if
the file opens and the pin is an output at the time. -/
def Sysfs.driving (fs : Sysfs W) (isOutput : W → Int → Bool) : Sysfs (W × Lines) where
  read file w := ((fs.read file w.1).1, (fs.read file w.1).2, w.2)
  write file text w :=
    let (isOpen, w') := fs.write file text w.1
    match file with
    | .value pin =>
        (isOpen, w', if isOpen && isOutput w.1 pin then w.2.drive pin (text == "1") else w.2)
    | _ => (isOpen, w', w.2)
  usleep duration w := (fs.usleep duration w.1, w.2)

/-- The pins whose level a measurement changes, at any time while it runs. -/
def changedPins (fs : Sysfs W) (isOutput : W → Int → Bool) (conf : Config) (w : W)
    (level : Int → Bool) : List Int :=
  (gpioReadBatteryLevelRaw (fs.driving isOutput) conf (w, ⟨level, []⟩)).2.2.changed

theorem Sysfs.driving_write (fs : Sysfs W) (isOutput : W → Int → Bool) {pin other : Int}
    {text : String} {w : W × Lines}
    (hchanged : other ∈ ((fs.driving isOutput).write (.value pin) text w).2.2.changed) :
    other ∈ w.2.changed ∨ other = pin := by
  dsimp only [driving] at hchanged
  split at hchanged
  next => exact Lines.changed_drive hchanged
  next => exact .inl hchanged

/-- Whatever the files answer, only the pins of UD_B and CS_B change. -/
theorem eq_of_mem_changedPins {fs : Sysfs W} {isOutput : W → Int → Bool} {conf : Config} {w : W}
    {level : Int → Bool} {pin : Int} (hpin : pin ∈ changedPins fs isOutput conf w level) :
    pin = conf.pin .udB ∨ pin = conf.pin .csB := by
  have hkeeps : (fs.driving isOutput).MeasurementKeeps conf fun before after =>
      ∀ pin ∈ after.2.changed, pin ∈ before.2.changed ∨ pin = conf.pin .udB ∨
        pin = conf.pin .csB := {
    refl := fun _ _ hmem => .inl hmem
    trans := by
      intro _ _ _ hfirst hsecond pin hmem
      rcases hsecond pin hmem with hmem | heq
      · exact hfirst pin hmem
      · exact .inr heq
    read := fun _ _ _ hmem => .inl hmem
    usleep := fun _ _ _ hmem => .inl hmem
    writeUd := fun _ _ _ hmem => (fs.driving_write isOutput hmem).imp_right .inl
    writeCs := fun _ _ _ hmem => (fs.driving_write isOutput hmem).imp_right .inr }
  rcases hkeeps.gpioReadBatteryLevelRaw (w, ⟨level, []⟩) pin hpin with hmem | heq
  · exact absurd hmem List.not_mem_nil
  · exact heq

/-- Every pin reads one, and so many more writes find their file. -/
def Sysfs.writable : Sysfs ℕ where
  read _ n := (.opened "1", n)
  write _ _ n := (decide (0 < n), n - 1)
  usleep _ n := n

section Writable

variable (conf : Config)

theorem digitalWrite_writable (pin val : Int) (n : ℕ) (lines : Lines) :
    digitalWrite (Sysfs.writable.driving fun _ _ => true) pin val (n + 1, lines) =
      (gpioSuccess, n, lines.drive pin (toString val == "1")) := by
  simp [digitalWrite, Sysfs.driving, Sysfs.writable]

theorem digitalWrite_writable_zero (pin val : Int) (lines : Lines) :
    digitalWrite (Sysfs.writable.driving fun _ _ => true) pin val (0, lines) =
      (gpioError, 0, lines) := by
  simp [digitalWrite, Sysfs.driving, Sysfs.writable]

theorem checkSupply_writable (rest : Call (ℕ × Lines)) (w : ℕ × Lines) :
    checkSupply (Sysfs.writable.driving fun _ _ => true) conf rest w = rest w := rfl

/-- A measurement that stops with the first writes of UD_B and CS_B has driven them. -/
theorem changedPins_writable {n : ℕ} {level : Int → Bool} {lines : Lines}
    (hreset : resetComparator (Sysfs.writable.driving fun _ _ => true) conf (n, ⟨level, []⟩) =
      (gpioError, 0, lines)) :
    changedPins Sysfs.writable (fun _ _ => true) conf n level = lines.changed := by
  rw [changedPins, gpioReadBatteryLevelRaw_eq, checkSupply_writable, orReturn_of_error hreset]

theorem resetComparator_one (lines : Lines) :
    resetComparator (Sysfs.writable.driving fun _ _ => true) conf (1, lines) =
      (gpioError, 0, lines.drive (conf.pin .udB) true) := by
  rw [resetComparator, orReturn_of_ne (digitalWrite_writable (conf.pin .udB) high 0 lines)
    (by decide)]
  exact orReturn_of_error (digitalWrite_writable_zero (conf.pin .csB) low _) _

theorem resetComparator_two (lines : Lines) :
    resetComparator (Sysfs.writable.driving fun _ _ => true) conf (2, lines) =
      (gpioError, 0, (lines.drive (conf.pin .udB) true).drive (conf.pin .csB) false) := by
  rw [resetComparator, orReturn_of_ne (digitalWrite_writable (conf.pin .udB) high 1 lines)
    (by decide), delay]
  apply (orReturn_of_ne (digitalWrite_writable (conf.pin .csB) low 0 _) (by decide) _).trans
  -- the loop stops at its first write
  have hpulse := digitalWrite_writable_zero (conf.pin .udB) low
    ((lines.drive (conf.pin .udB) true).drive (conf.pin .csB) false)
  exact orReturn_of_error (orReturn_of_error hpulse _) _

theorem udB_mem_changedPins :
    conf.pin .udB ∈ changedPins Sysfs.writable (fun _ _ => true) conf 1 fun _ => false := by
  rw [changedPins_writable conf (resetComparator_one conf _)]
  simp [Lines.drive]

theorem csB_mem_changedPins :
    conf.pin .csB ∈ changedPins Sysfs.writable (fun _ _ => true) conf 2 fun _ => true := by
  rw [changedPins_writable conf (resetComparator_two conf _)]
  simp [Lines.drive]

end Writable

end Rocpmd

import Rocpmd.Gpio.BatteryLevel

/-!
# Files seen through others

The program reads the levels of its pins and writes those of its outputs. If one set of files does
so as another one does on a view of its worlds, then so do the functions of the program.
-/

namespace Rocpmd

open Call

variable {W W' : Type}

/-- While `inv` holds, and it does not cease to, the files of the pins are those of `fs'` on the
views. -/
structure Sysfs.View (fs : Sysfs W) (fs' : Sysfs W') (conf : Config) (inv : W → Prop)
    (view : W → W') : Prop where
  read : ∀ role w, inv w → inv (fs.read (.value (conf.pin role)) w).2 ∧
    fs'.read (.value (conf.pin role)) (view w) =
      Prod.map id view (fs.read (.value (conf.pin role)) w)
  write : ∀ role, initDirection role = output → ∀ text w, inv w →
    inv (fs.write (.value (conf.pin role)) text w).2 ∧
      fs'.write (.value (conf.pin role)) text (view w) =
        Prod.map id view (fs.write (.value (conf.pin role)) text w)
  usleep : ∀ duration w, inv w →
    inv (fs.usleep duration w) ∧ fs'.usleep duration (view w) = view (fs.usleep duration w)

/-- The calls return the same, and the second does to the views what the first does. -/
def Call.SeenAs (inv : W → Prop) (view : W → W') (call : Call W) (call' : Call W') : Prop :=
  ∀ w, inv w → inv (call w).2 ∧ call' (view w) = Prod.map id view (call w)

namespace Sysfs.View

variable {fs : Sysfs W} {fs' : Sysfs W'} {conf : Config} {inv : W → Prop} {view : W → W'}
  (hview : fs.View fs' conf inv view)

/-! ## Calls -/

theorem ret (n : Int) : SeenAs inv view (ret n) (ret n) := fun _ hw => ⟨hw, rfl⟩

theorem orReturn {first : Call W} {first' : Call W'} {rest : Int → Call W} {rest' : Int → Call W'}
    (hfirst : SeenAs inv view first first')
    (hrest : ∀ n, n ≠ gpioError → SeenAs inv view (rest n) (rest' n)) :
    SeenAs inv view (orReturn first rest) (orReturn first' rest') := by
  intro w hw
  obtain ⟨hinv, hseen⟩ := hfirst w hw
  unfold Call.orReturn
  rw [hseen]
  dsimp only [Prod.map]
  by_cases hn : (first w).1 = gpioError
  · rw [if_pos hn, if_pos (show id (first w).1 = gpioError from hn)]
    exact ⟨hinv, rfl⟩
  · rw [if_neg hn, if_neg (show ¬ id (first w).1 = gpioError from hn)]
    exact hrest _ hn _ hinv

theorem andThen {first : Call W} {first' : Call W'} {rest : Int → Call W} {rest' : Int → Call W'}
    (hfirst : SeenAs inv view first first') (hrest : ∀ n, SeenAs inv view (rest n) (rest' n)) :
    SeenAs inv view (andThen first rest) (andThen first' rest') := by
  intro w hw
  obtain ⟨hinv, hseen⟩ := hfirst w hw
  unfold Call.andThen
  rw [hseen]
  exact hrest _ _ hinv

include hview

theorem shut : fs.shut.View fs'.shut conf inv view where
  read _ _ hw := ⟨hw, rfl⟩
  write _ _ _ _ hw := ⟨hw, rfl⟩
  usleep := hview.usleep

theorem delay (duration : Int) {rest : Call W} {rest' : Call W'}
    (hrest : SeenAs inv view rest rest') :
    SeenAs inv view (delay fs duration rest) (delay fs' duration rest') := by
  intro w hw
  obtain ⟨hinv, hseen⟩ := hview.usleep duration w hw
  unfold Rocpmd.delay
  rw [hseen]
  exact hrest _ hinv

theorem digitalRead (role : Role) : SeenAs inv view (digitalRead fs (conf.pin role))
    (digitalRead fs' (conf.pin role)) := by
  intro w hw
  obtain ⟨hinv, hseen⟩ := hview.read role w hw
  unfold Rocpmd.digitalRead
  rw [hseen]
  cases hread : fs.read (.value (conf.pin role)) w with
  | mk outcome after =>
      rw [hread] at hinv
      cases outcome with
      | cannotOpen => exact ⟨hinv, rfl⟩
      | opened val =>
          dsimp only [Prod.map, id]
          split <;> exact ⟨hinv, rfl⟩

theorem digitalWrite {role : Role} (hrole : initDirection role = output) (val : Int) :
    SeenAs inv view (digitalWrite fs (conf.pin role) val)
      (digitalWrite fs' (conf.pin role) val) := by
  intro w hw
  obtain ⟨hinv, hseen⟩ := hview.write role hrole (toString val) w hw
  unfold Rocpmd.digitalWrite
  rw [hseen]
  dsimp only [Prod.map, id]
  split <;> exact ⟨hinv, rfl⟩

/-! ## Functions of gpio.cpp -/

theorem readAsserted (role : Role) : SeenAs inv view (readAsserted fs (conf.pin role))
    (readAsserted fs' (conf.pin role)) :=
  orReturn (hview.digitalRead role) fun _ _ => ret _

theorem pulseOff (n : ℕ) :
    SeenAs inv view (pulseOff fs (conf.pin .off) n) (pulseOff fs' (conf.pin .off) n) := by
  induction n with
  | zero => exact ret _
  | succ n ih =>
      refine orReturn (hview.digitalWrite rfl _) fun _ _ => hview.delay _ ?_
      exact orReturn (hview.digitalWrite rfl _) fun _ _ => hview.delay _ ih

theorem gpioWriteOff : SeenAs inv view (gpioWriteOff fs conf) (gpioWriteOff fs' conf) :=
  hview.pulseOff 3

theorem measurement : MeasurementRelation fs fs' conf (SeenAs inv view) where
  ret n _ := ret n
  delay := hview.delay
  orReturn := orReturn
  readPgood := hview.digitalRead .pgoodB
  writeUd := hview.digitalWrite rfl
  writeCs := hview.digitalWrite rfl

theorem gpioReadBatteryLevelRaw : SeenAs inv view (gpioReadBatteryLevelRaw fs conf)
    (gpioReadBatteryLevelRaw fs' conf) := by
  have hrel := hview.measurement
  rw [gpioReadBatteryLevelRaw_eq, gpioReadBatteryLevelRaw_eq]
  refine orReturn (hview.digitalRead .pgoodB) fun _ _ => hview.delay _ ?_
  refine andThen (hview.readAsserted .d2B) fun d2 => ?_
  split
  next => exact ret _
  next => exact hview.delay _ hrel.onBattery

end Sysfs.View

end Rocpmd

import Rocpmd.Gpio.BatteryLevel

/-!
# Files that a measurement cannot open

A flag beside the files goes up when one of them cannot be opened. A measurement that raises it
returns the error, unless the file is the one of D2_B: then it goes on to report a charging board.
-/

namespace Rocpmd

open Call

variable {W : Type}

/-- The same files, and whether one of those used so far could not be opened. -/
def Sysfs.flagging (fs : Sysfs W) : Sysfs (W × Bool) where
  read file w :=
    let (outcome, w') := fs.read file w.1
    (outcome, w', w.2 || outcome == .cannotOpen)
  write file text w :=
    let (isOpen, w') := fs.write file text w.1
    (isOpen, w', w.2 || !isOpen)
  usleep duration w := (fs.usleep duration w.1, w.2)

/-- Every file that the measurement uses can be opened. -/
def FilesOpen (fs : Sysfs W) (conf : Config) (w : W) : Prop :=
  (gpioReadBatteryLevelRaw fs.flagging conf (w, false)).2.2 = false

/-! ## Calls that return every failure -/

/-- A call and the same call beside the flag: they agree, and the flag goes up exactly if the call
returns the error. -/
def Call.ReturnsFailures (call : Call W) (flagged : Call (W × Bool)) : Prop :=
  ∀ w flag, flagged (w, flag) =
    ((call w).1, (call w).2, flag || decide ((call w).1 = gpioError))

namespace Call.ReturnsFailures

variable {fs : Sysfs W}

theorem ret {n : Int} (hn : n ≠ gpioError) : (ret n : Call W).ReturnsFailures (ret n) := by
  intro w flag
  simp [Call.ret, hn]

theorem delay {rest : Call W} {rest' : Call (W × Bool)} (duration : Int)
    (hrest : rest.ReturnsFailures rest') :
    (delay fs duration rest).ReturnsFailures (delay fs.flagging duration rest') := fun _ _ =>
  hrest _ _

theorem orReturn {first : Call W} {first' : Call (W × Bool)} {rest : Int → Call W}
    {rest' : Int → Call (W × Bool)} (hfirst : first.ReturnsFailures first')
    (hrest : ∀ n, n ≠ gpioError → (rest n).ReturnsFailures (rest' n)) :
    (orReturn first rest).ReturnsFailures (orReturn first' rest') := by
  intro w flag
  unfold Call.orReturn
  rw [hfirst w flag]
  by_cases herror : (first w).1 = gpioError
  · simp [herror]
  · simp only [herror, if_false, decide_false, Bool.or_false]
    exact hrest _ herror _ _

theorem digitalRead (pin : Int) :
    (digitalRead fs pin).ReturnsFailures (digitalRead fs.flagging pin) := by
  intro w flag
  cases hread : fs.read (.value pin) w with
  | mk outcome w' =>
      cases outcome with
      | cannotOpen => simp [Rocpmd.digitalRead, Sysfs.flagging, hread]
      | opened val =>
          by_cases hval : val = "1" <;>
            simp [Rocpmd.digitalRead, Sysfs.flagging, hread, hval, high, low, gpioError]

theorem digitalWrite (pin val : Int) :
    (digitalWrite fs pin val).ReturnsFailures (digitalWrite fs.flagging pin val) := by
  intro w flag
  unfold Rocpmd.digitalWrite Sysfs.flagging
  generalize toString val = text
  by_cases hopen : (fs.write (.value pin) text w).1 = true <;> simp [hopen, gpioSuccess, gpioError]

theorem measurement (conf : Config) :
    MeasurementRelation fs fs.flagging conf (Call.ReturnsFailures (W := W)) where
  ret _ := ret
  delay duration _ _ := delay duration
  orReturn := orReturn
  readPgood := digitalRead _
  writeUd := digitalWrite _
  writeCs := digitalWrite _

end Call.ReturnsFailures

/-! ## The measurement -/

section Measurement

variable (fs : Sysfs W) (conf : Config)

theorem gpioReadD2_returnsFailures :
    (gpioReadD2 fs conf).ReturnsFailures (gpioReadD2 fs.flagging conf) := by
  unfold gpioReadD2 readAsserted
  apply Call.ReturnsFailures.orReturn (.digitalRead _)
  intro status _
  apply Call.ReturnsFailures.ret
  unfold cNot
  split <;> decide

/-- The test of D2_B takes the error for an answer. -/
theorem testD2_flagging {rest : Call W} {rest' : Call (W × Bool)}
    (hrest : rest.ReturnsFailures rest') (w : W) :
    (andThen (gpioReadD2 fs.flagging conf) (fun d2 => if d2 ≠ 0 then ret charging else rest')
      (w, false)).2.2 = false ↔
    (andThen (gpioReadD2 fs conf) (fun d2 => if d2 ≠ 0 then ret charging else rest) w).1 ≠
      gpioError ∧ (fs.read (.value (conf.pin .d2B)) w).1 ≠ .cannotOpen := by
  unfold andThen
  rw [gpioReadD2_returnsFailures fs conf w false]
  cases hread : (fs.read (.value (conf.pin .d2B)) w).1 with
  | cannotOpen =>
      have hd2 : (gpioReadD2 fs conf w).1 = gpioError := readAsserted_of_cannotOpen fs hread
      simp [hd2, ret, gpioError]
  | opened val =>
      have hd2 : (gpioReadD2 fs conf w).1 = if val = "1" then 0 else 1 :=
        readAsserted_of_opened fs hread
      by_cases hval : val = "1"
      · have hzero : (0 : Int) ≠ gpioError := by decide
        simp [hd2, hval, hrest _ false, hzero]
      · simp [hd2, hval, ret, charging, gpioError]

theorem checkSupply_flagging {rest : Call W} {rest' : Call (W × Bool)}
    (hrest : rest.ReturnsFailures rest') (w : W) :
    (checkSupply fs.flagging conf rest' (w, false)).2.2 = false ↔
      (checkSupply fs conf rest w).1 ≠ gpioError ∧ d2Outcome fs conf w ≠ some .cannotOpen := by
  unfold checkSupply d2Outcome
  dsimp only
  split
  next herror =>
    have hpgood : digitalRead fs.flagging (conf.pin .pgoodB) (w, false) =
        (gpioError, (digitalRead fs (conf.pin .pgoodB) w).2, true) := by
      rw [Call.ReturnsFailures.digitalRead, herror]
      rfl
    rw [orReturn_of_error hpgood, orReturn, if_pos herror]
    simp [herror]
  next hok =>
    have hpgood : digitalRead fs.flagging (conf.pin .pgoodB) (w, false) =
        ((digitalRead fs (conf.pin .pgoodB) w).1, (digitalRead fs (conf.pin .pgoodB) w).2,
          false) := by
      rw [Call.ReturnsFailures.digitalRead, decide_eq_false hok]
      rfl
    rw [orReturn_of_ne hpgood hok, orReturn, if_neg hok]
    exact (testD2_flagging fs conf (hrest.delay _) _).trans (by simp [delay])

end Measurement

/-- A measurement returns every failure to open a file but that of D2_B. -/
theorem filesOpen_iff (fs : Sysfs W) (conf : Config) (w : W) :
    FilesOpen fs conf w ↔ (gpioReadBatteryLevelRaw fs conf w).1 ≠ gpioError ∧
      d2Outcome fs conf w ≠ some .cannotOpen := by
  unfold FilesOpen
  rw [gpioReadBatteryLevelRaw_eq, gpioReadBatteryLevelRaw_eq]
  exact checkSupply_flagging fs conf (Call.ReturnsFailures.measurement conf).onBattery w

end Rocpmd

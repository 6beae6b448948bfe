import Rocpmd.Daemon.Halt

/-!
# What a step of the daemon does to the world

Two kinds of steps touch the files: an iteration polls the button and may measure, and the power off
check may send the OFF signal. The other steps leave the world alone.
-/

namespace Rocpmd

open Foundation

variable {W : Type} (setup : Setup W)

/-- What the daemon logs of a reading. -/
def readingMessage (conf : Config) (reading : Int) : String :=
  toString reading ++ "," ++ toString (mapBatteryLevel conf reading) ++ "%"

namespace Daemon

/-- The world behind the pause of an iteration and its poll of the button. -/
def polledWorld (d : Daemon W) : W :=
  let files := setup.files d.descriptors
  (gpioReadReqOff files setup.conf (files.usleep 100000 d.world)).2

/-- Neither the latest reading nor the log is new. -/
structure KeepsLog (d next : Daemon W) : Prop where
  lastReading : next.history.lastReading = d.history.lastReading
  log : next.batteryLevelLog = d.batteryLevelLog

/-- A step by what it does to the world. -/
inductive WorldStep (d : Daemon W) : DaemonEvent → Daemon W → Prop
  | polls {next : Daemon W} (now : Timeval) (stamp : String) (room : ℕ)
      (hpc : d.pc = .iterate) (hworld : next.world = d.polledWorld setup)
      (hkeeps : KeepsLog d next) :
      WorldStep d (.iterate now stamp room) next
  | measures {next : Daemon W} (now : Timeval) (stamp : String) (room : ℕ)
      (hpc : d.pc = .iterate) (hpolled : reqOffOutcome setup d = .opened "1")
      (hworld : next.world =
        (gpioReadBatteryLevelRaw (setup.files d.descriptors) setup.conf
          (d.polledWorld setup)).2)
      (hreading : next.history.lastReading = levelReading setup d)
      (hlog : next.batteryLevelLog = d.batteryLevelLog.map fun logger =>
        (logger.log stamp (readingMessage setup.conf (levelReading setup d)) room).2) :
      WorldStep d (.iterate now stamp room) next
  | writesOff {next : Daemon W} (hpc : d.pc = .checkOff) (hflag : d.ud.powerOffFlag = true)
      (hworld : next.world =
        (gpioWriteOff (setup.files d.descriptors) setup.conf d.world).2)
      (hkeeps : KeepsLog d next) : WorldStep d .checkOff next
  | leaves {event : DaemonEvent} {next : Daemon W} (hworld : next.world = d.world)
      (hkeeps : KeepsLog d next)
      (hiterate : ∀ now stamp room, event ≠ .iterate now stamp room)
      (hflag : event = .checkOff → d.ud.powerOffFlag = false) : WorldStep d event next

variable {setup} {d next : Daemon W} {event : DaemonEvent}

theorem worldStep_iterate (hpc : d.pc = .iterate) (now : Timeval) (stamp : String)
    (room : ℕ) : WorldStep setup d (.iterate now stamp room)
      (d.iterate setup now stamp room) := by
  have hpoll := readAsserted_eq_zero_iff (setup.files d.descriptors) (setup.conf.pin .reqOffB)
    ((setup.files d.descriptors).usleep 100000 d.world)
  unfold iterate
  dsimp only
  split
  next => exact .polls now stamp room hpc rfl ⟨rfl, rfl⟩
  next hopen =>
    have hone : reqOffOutcome setup d = .opened "1" := hpoll.mp (not_not.mp hopen)
    split
    next => split <;> exact .measures now stamp room hpc hone rfl rfl rfl
    next => exact .polls now stamp room hpc rfl ⟨rfl, rfl⟩

theorem worldStep_checkOff (hpc : d.pc = .checkOff) :
    WorldStep setup d .checkOff (d.checkOff setup) := by
  unfold checkOff
  dsimp only
  split
  next hflag => exact .writesOff hpc hflag rfl ⟨rfl, rfl⟩
  next hflag => exact .leaves rfl ⟨rfl, rfl⟩ nofun fun _ => Bool.eq_false_iff.mpr hflag

theorem Step.worldStep (hstep : Step setup d event next) : WorldStep setup d event next := by
  cases hstep with
  | iterate now stamp room hpc => exact worldStep_iterate hpc now stamp room
  | select ok =>
      refine .leaves ?_ ⟨?_, ?_⟩ nofun nofun <;> rw [select_eq]
  | serve ok =>
      refine .leaves ?_ ⟨?_, ?_⟩ nofun nofun <;> rw [serve_eq]
  | checkOff hpc => exact worldStep_checkOff hpc
  | acceptFailed | accepted | readEnded | received | connect | send | receive | close =>
      exact .leaves rfl ⟨rfl, rfl⟩ nofun nofun

/-- Only an iteration shuts the system down. -/
theorem Step.halted_cases (hstep : Step setup d event next) (hhalted : next.pc = .halted) :
    d.pc = .halted ∨
      ∃ now stamp room, next = d.iterate setup now stamp room := by
  cases hstep with
  | iterate now stamp room => exact .inr ⟨now, stamp, room, rfl⟩
  | select ok =>
      rcases d.select_pc_cases ok with h | ⟨_, h, _⟩ | ⟨h, _⟩ | h <;> rw [h] at hhalted <;>
        cases hhalted
  | @readEnded listener offReady =>
      rcases handlerDone_cases listener offReady with ⟨_, _, h⟩ | h <;>
        exact absurd (h.symm.trans hhalted) (by simp)
  | serve ok =>
      rw [serve_pc] at hhalted
      split_ifs at hhalted
  | checkOff => rw [checkOff_pc] at hhalted; cases hhalted
  | acceptFailed | accepted | received => cases hhalted
  | connect | send | receive | close => exact .inl hhalted

/-- Only a power off check with the flag set sends the OFF signal. -/
theorem Step.offWrites_cases (hstep : Step setup d event next) :
    next.history.offWrites = d.history.offWrites ∨
      event = .checkOff ∧ d.ud.powerOffFlag = true ∧
        next.world = (gpioWriteOff (setup.files d.descriptors) setup.conf d.world).2 := by
  cases hstep with
  | iterate now stamp room =>
      exact .inl (sameRequests_iterate setup d now stamp room).offWrites
  | select => rw [select_history]; exact .inl rfl
  | serve => rw [serve_history]; exact .inl rfl
  | checkOff hpc =>
      have hworldStep : WorldStep setup d .checkOff (d.checkOff setup) := worldStep_checkOff hpc
      cases hworldStep with
      | writesOff _ hflag hworld => exact .inr ⟨rfl, hflag, hworld⟩
      | leaves _ _ _ hflag => exact .inl (by rw [checkOff_history, hflag rfl]; rfl)
  | acceptFailed | accepted | readEnded | received | connect | send | receive | close =>
      exact .inl rfl

end Daemon

end Rocpmd

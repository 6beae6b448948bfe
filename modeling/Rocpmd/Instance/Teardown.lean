import Rocpmd.Instance.Step

/-!
# What is deleted

The signal handler, `halt_system` and the destructor of `rocpmd` delete three objects. The two
globals start as NULL, are tested, and keep their value when the object behind them is gone. The log
is a member that has a value only once a log has been created, and nothing tests it.
-/

namespace Rocpmd

open Foundation

namespace Process

/-- The object `ROCPMD` points to, if it points to one, and its log can be deleted. -/
def RocpmdDeletable (proc : Process) : Prop :=
  proc.rocpmd = .unassigned ∨ proc.rocpmd = .live ∧ proc.batteryLevelLog = .live

/-- The handler finds nothing that is deleted already or was never created. -/
def Deletable (proc : Process) : Prop := proc.gConf ≠ .deleted ∧ proc.RocpmdDeletable

/-- What the process is about to use in `gpio_cleanup` or to delete is there. `delete(ROCPMD)` and
the deletion of the log it starts with are one step. -/
def TearsDownLive (proc : Process) : Prop :=
  match proc.pc with
  | .gpioCleanup _ | .handlerCleanup _ | .deleteConf => proc.gConf = .live
  | .deleteLog => proc.rocpmd = .live ∧ proc.batteryLevelLog = .live
  | _ => True

end Process

def TeardownLive (s : System) : Prop := ∀ p, ∀ proc ∈ s.procs p, proc.TearsDownLive

/-- A handled signal finds everything deletable, and a halt `ROCPMD` and its log. -/
def StopsDeletable (s : System) : SystemEvent → Prop
  | .signal p sig => ∀ proc ∈ s.procs p, dispositionAfter proc.installed sig = .handler →
      proc.Deletable
  | .halt p => ∀ proc ∈ s.procs p, proc.RocpmdDeletable
  | _ => True

/-! ## The invariant -/

namespace Process

/-- Ready for whatever teardown the process is at or on its way to by itself. -/
def TeardownReady (proc : Process) : Prop :=
  match proc.pc with
  | .access _ | .readPid _ | .kill _ _ | .gpioInit _ | .batteryLevel | .powerOff | .decide
  | .gpioCleanup _ => proc.gConf = .live
  | .handler => proc.Deletable
  | .handlerCleanup _ | .deleteConf => proc.gConf = .live ∧ proc.RocpmdDeletable
  | .deleteLog => proc.rocpmd = .live ∧ proc.batteryLevelLog = .live
  | _ => True

variable {proc : Process}

theorem TeardownReady.tearsDownLive (hready : proc.TeardownReady) : proc.TearsDownLive := by
  unfold TeardownReady at hready
  unfold TearsDownLive
  cases hpc : proc.pc <;> simp only [hpc] at hready ⊢
  case gpioCleanup => exact hready
  case handlerCleanup => exact hready.1
  case deleteConf => exact hready.1
  case deleteLog => exact hready

theorem teardownReady_afterBatteryLevel (hlive : proc.gConf = .live) :
    (proc.goto proc.afterBatteryLevel).TeardownReady := by
  rcases proc.afterBatteryLevel_cases with h | h <;> rw [h] <;> exact hlive

theorem teardownReady_deleteRocpmd (hdeletable : proc.RocpmdDeletable) :
    proc.deleteRocpmd.TeardownReady := by
  unfold deleteRocpmd
  split
  next hassigned => exact hdeletable.resolve_left hassigned
  next => trivial

theorem teardownReady_handler (hdeletable : proc.Deletable) : proc.handler.TeardownReady := by
  unfold handler
  split
  next hassigned =>
    have hlive : proc.gConf = .live := by
      cases hconf : proc.gConf with
      | unassigned => exact absurd hconf hassigned
      | live => rfl
      | deleted => exact absurd hconf hdeletable.1
    exact ⟨hlive, hdeletable.2⟩
  next => exact teardownReady_deleteRocpmd hdeletable.2

theorem teardownReady_loadConfig (ok : Bool) : (proc.loadConfig ok).TeardownReady := by
  unfold loadConfig
  split
  next => trivial
  next => rfl

theorem teardownReady_afterInit (hlive : proc.gConf = .live) :
    (proc.goto proc.afterInit).TeardownReady := by
  rcases proc.afterInit_cases with ⟨h, _⟩ | ⟨h | h, _⟩ <;> rw [h] <;> exact hlive

theorem teardownReady_answer (hlive : proc.gConf = .live) (probe : Probe)
    (status : InstanceStatus) : (proc.answer probe status).TeardownReady := by
  cases probe <;> simp only [answer]
  case first =>
    split
    next => exact @teardownReady_afterInit { proc with rocpmdStatus := some status } hlive
    next => exact hlive
  case second =>
    split
    next => trivial
    next => exact hlive

theorem teardownReady_decide (hlive : proc.gConf = .live) : proc.decide.TeardownReady := by
  unfold decide
  split
  next => exact hlive
  next => trivial

theorem teardownReady_of_pc {pc : ProcessPc} (hpc : proc.pc = pc)
    (hfree : pc = .exiting ∨ pc = .loadConfig ∨ pc = .forkAgain ∨ pc = .loop) :
    proc.TeardownReady := by
  unfold TeardownReady
  rcases hfree with rfl | rfl | rfl | rfl <;> rw [hpc] <;> trivial

end Process

/-! ## Steps -/

def TeardownInvariant (s : System) : Prop := s.Each Process.TeardownReady

theorem TeardownInvariant.openLock {s : System} (hinv : TeardownInvariant s) (p : ℕ)
    (proc : Process) (ok : Bool) : TeardownInvariant (s.openLock p proc ok) := by
  unfold System.openLock
  split
  next => exact hinv.put rfl p trivial
  next => exact hinv.put rfl p trivial

theorem TeardownInvariant.lock {s : System} (hinv : TeardownInvariant s) (p : ℕ)
    (proc : Process) (ok : Bool) : TeardownInvariant (s.lock p proc ok) := by
  unfold System.lock
  split
  next => exact hinv.put rfl p trivial
  next =>
    split
    next => exact hinv.put rfl p trivial
    next => exact hinv.put rfl p trivial

theorem TeardownInvariant.access {s : System} (hinv : TeardownInvariant s) (p : ℕ)
    {proc : Process} (hlive : proc.gConf = .live) (probe : Probe) (ok : Bool) :
    TeardownInvariant (s.put p (s.access proc probe ok)) := by
  apply hinv.put rfl p
  unfold System.access
  split
  next => exact Process.teardownReady_answer hlive _ _
  next =>
    split
    next => exact Process.teardownReady_answer hlive _ _
    next => exact hlive

/-- What a process does by itself keeps it ready: the steps of `main` find the configuration they
loaded, and those of the handler what it found. -/
theorem TeardownInvariant.advance {s next : System} {p : ℕ} {proc : Process} {ok : Bool}
    (hinv : TeardownInvariant s) (hproc : s.procs p = some proc)
    (hadvance : s.advance p proc ok = some next) : TeardownInvariant next := by
  have hready := hinv p proc hproc
  unfold Process.TeardownReady at hready
  unfold System.advance at hadvance
  split at hadvance <;> try obtain rfl := Option.some.inj hadvance
  next hpc =>
    apply hinv.put rfl
    rcases proc.boot_pc ok with h | h <;> exact Process.teardownReady_of_pc h (by simp)
  next hpc => exact hinv.put rfl p (Process.teardownReady_loadConfig ok)
  next hpc => rw [hpc] at hready; exact hinv.access p hready _ ok
  next hpc => rw [hpc] at hready; exact hinv.put rfl p hready
  next hpc => rw [hpc] at hready; exact hinv.put rfl p (Process.teardownReady_answer hready _ _)
  next hpc =>
    rw [hpc] at hready
    apply hinv.put rfl
    split
    next => exact hready
    next => exact Process.teardownReady_afterInit hready
  next hpc => rw [hpc] at hready; exact hinv.put rfl p (Process.teardownReady_afterInit hready)
  next hpc =>
    rw [hpc] at hready
    split at hadvance
    next => cases hadvance
    next =>
      obtain rfl := Option.some.inj hadvance
      exact hinv.put rfl p (Process.teardownReady_afterBatteryLevel hready)
  next hpc => rw [hpc] at hready; exact hinv.put rfl p hready
  next hpc => rw [hpc] at hready; exact hinv.put rfl p (Process.teardownReady_decide hready)
  next hpc =>
    rw [hpc] at hready
    apply hinv.put (System.giveBack_procs s _)
    split
    next => exact hready
    next => trivial
  next => exact hinv.put rfl p trivial
  next hpc =>
    apply hinv.put rfl
    rcases proc.newSession_pc ok with h | h <;> exact Process.teardownReady_of_pc h (by simp)
  next => exact hinv.openLock p proc ok
  next => exact hinv.lock p proc ok
  next => exact hinv.put (System.setContent_procs s proc []) p trivial
  next =>
    refine hinv.put ?_ p (show (proc.goto .newServer).TeardownReady from trivial)
    split
    next => exact System.setContent_procs s proc _
    next => rfl
  next =>
    apply hinv.put rfl
    split <;> trivial
  next => exact hinv.put rfl p (Process.teardownReady_of_pc (proc.newLog_pc ok) (by simp))
  next hpc => rw [hpc] at hready; exact hinv.put rfl p (Process.teardownReady_handler hready)
  next hpc =>
    rw [hpc] at hready
    apply hinv.put (System.giveBack_procs s _)
    split <;> exact hready
  next hpc => rw [hpc] at hready; exact hinv.put rfl p hready
  next hpc =>
    -- the configuration is gone now; what is left to delete does not depend on it
    rw [hpc] at hready
    exact hinv.put rfl p (Process.teardownReady_deleteRocpmd hready.2)
  next => exact hinv.put rfl p trivial
  next => exact hinv.put (System.unlock_procs s p proc) p trivial
  next => exact hinv.put (System.closeLock_procs s p proc) p trivial
  next => exact hinv.put rfl p trivial
  next => exact hinv.remove p
  all_goals cases hadvance

theorem TeardownInvariant.step {s next : System} {event : SystemEvent}
    (hinv : TeardownInvariant s) (hstep : systemMachine.step s event = some next)
    (hcond : StopsDeletable s event) : TeardownInvariant next := by
  cases System.Step.of_step hstep with
  | start => exact hinv.put rfl _ trivial
  | advance hproc hadvance => exact hinv.advance hproc hadvance
  | forkFailed => exact hinv.put rfl _ trivial
  | forked _ _ hpc =>
      refine (hinv.put rfl _ ?_).put rfl _ trivial
      rcases hpc with ⟨-, rfl⟩ | ⟨-, rfl⟩ <;> trivial
  | @answered p proc hproc hasking =>
      have hready := hinv p proc hproc
      rw [Process.TeardownReady, hasking.1] at hready
      exact hinv.put rfl p (Process.teardownReady_afterBatteryLevel hready)
  | terminated | crash => exact hinv.remove _
  | handled _ hproc hinstalled =>
      have hdeletable := hcond _ hproc hinstalled
      exact hinv.put rfl _ hdeletable
  | ignored => exact hinv
  | halt hproc _ => exact hinv.put rfl _ (Process.teardownReady_deleteRocpmd (hcond _ hproc))

/-- **When teardown touches only live objects.** Over any run, nothing is deleted that is deleted
already or was never created, and no deleted configuration is used, if signals are handled and the
system is halted only while `ROCPMD` is still NULL or it and its log are live, and no signal is
handled once the configuration is deleted. -/
theorem teardownLive_of_stopsDeletable (stale : Option (List Char)) {s : System}
    (hreach : systemMachine.ReachableUnder StopsDeletable (.initial stale) s) :
    TeardownLive s := by
  have hstart : TeardownInvariant (.initial stale) := fun _ _ hproc => by cases hproc
  have hinv : TeardownInvariant s := hreach.invariant hstart
    fun _ _ _ hinv hcond hnext => hinv.step hnext hcond
  exact fun p proc hproc => (hinv p proc hproc).tearsDownLive

/-! ## Runs -/

instance (proc : Process) : Decidable proc.RocpmdDeletable :=
  inferInstanceAs (Decidable (_ ∨ _ ∧ _))

instance (proc : Process) : Decidable proc.Deletable := inferInstanceAs (Decidable (_ ∧ _))

instance (s : System) : ∀ event, Decidable (StopsDeletable s event)
  | .signal p sig => inferInstanceAs (Decidable (∀ proc ∈ s.procs p,
      dispositionAfter proc.installed sig = .handler → proc.Deletable))
  | .halt p => inferInstanceAs (Decidable (∀ proc ∈ s.procs p, proc.RocpmdDeletable))
  | .start _ _ _ | .advance _ _ | .fork _ _ _ | .answered _ | .crash _ =>
      inferInstanceAs (Decidable True)

/-- The shipped configuration with a battery log. -/
def Config.logging : Config :=
  { Config.shipped with
    batteryLevelReader := { Config.shipped.batteryLevelReader with batteryLevelLog := true } }

/-- A daemon with a log is terminated and gets as far as deleting `ROCPMD`. -/
def stopLogging : List SystemEvent :=
  .start 1 ⟨false, false, false, false⟩ .logging :: (launch 1 2 3 20).tail ++ advances 3 6 ++
    [.signal 3 .term] ++ advances 3 10

theorem teardownLive_stopLogging :
    ∃ s, systemMachine.run (.initial none) stopLogging = some s ∧
      (∃ proc, s.procs 3 = some proc ∧ proc.pc = .deleteLog) ∧ TeardownLive s := by
  have hmeets : systemMachine.Meets StopsDeletable (.initial none) stopLogging := by
    decide +kernel
  have hrun : ∃ s ∈ systemMachine.run (.initial none) stopLogging,
      (s.procs 3).any fun proc => proc.pc = .deleteLog := by decide +kernel
  obtain ⟨s, hs, hdeletes⟩ := hrun
  obtain ⟨proc, hproc, hpc⟩ := (Option.any_eq_true _ _).mp hdeletes
  refine ⟨s, hs, ⟨proc, hproc, of_decide_eq_true hpc⟩, teardownLive_of_stopsDeletable none ?_⟩
  exact Machine.ReachableUnder.start.of_run hmeets hs

/-- A daemon without a log is terminated: the destructor deletes a pointer that has no value. -/
theorem unassigned_log_deleted :
    ¬ systemMachine.Along TeardownLive (.initial none)
      (launch 1 2 3 20 ++ advances 3 6 ++ [.signal 3 .term] ++ advances 3 10) := by
  apply Machine.not_along_of_run
  have hrun : ∃ s ∈ systemMachine.run (.initial none)
      (launch 1 2 3 20 ++ advances 3 6 ++ [.signal 3 .term] ++ advances 3 10),
      (s.procs 3).any fun proc => proc.pc = .deleteLog ∧ proc.batteryLevelLog = .unassigned := by
    decide +kernel
  obtain ⟨s, hs, hdeletes⟩ := hrun
  obtain ⟨proc, hproc, hunassigned⟩ := (Option.any_eq_true _ _).mp hdeletes
  obtain ⟨hpc, hlog⟩ := of_decide_eq_true hunassigned
  refine ⟨s, hs, fun hlive => ?_⟩
  have hdeleted := hlive 3 proc hproc
  rw [Process.TearsDownLive, hpc] at hdeleted
  rw [hlog] at hdeleted
  cases hdeleted.2

end Rocpmd

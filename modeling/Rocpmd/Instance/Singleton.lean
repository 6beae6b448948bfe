import Rocpmd.Foundation.LockProtocol
import Rocpmd.Instance.Step

/-!
# At most one daemon

The processes follow the protocol of the lock file, with one exception: `cleanup` gives the lock up
before it removes the name, so the name can go when another process has already opened or locked the
file behind it.
-/

namespace Rocpmd

open Foundation

/-! ## Phases -/

inductive LockStage
  | outside | opened | owning
deriving DecidableEq, Repr

/-- How far a process at this point is with the lock file. -/
def ProcessPc.lockStage : ProcessPc → LockStage
  | .lock => .opened
  | .truncate | .writePid | .newServer | .newLog | .loop => .owning
  | _ => .outside

theorem ProcessPc.lockStage_of_inDaemonMain {pc : ProcessPc} (hin : pc.inDaemonMain = true) :
    pc.lockStage = .owning := by
  revert hin
  cases pc <;> simp [inDaemonMain, lockStage]

def Process.lockPhase (proc : Process) : LockPhase :=
  match proc.pc.lockStage, proc.lockFd with
  | .opened, some inode => .opened inode
  | .owning, some inode => .owning inode
  | _, _ => .outside

theorem Process.lockPhase_of_outside {proc : Process} (hstage : proc.pc.lockStage = .outside) :
    proc.lockPhase = .outside := by
  simp [Process.lockPhase, hstage]

/-- A process is executing `daemon_main`. -/
def System.InDaemonMain (s : System) (p : ℕ) : Prop :=
  ∃ proc, s.procs p = some proc ∧ proc.pc.inDaemonMain = true

def System.lockPhase (s : System) (p : ℕ) : LockPhase :=
  match s.procs p with
  | some proc => proc.lockPhase
  | none => .outside

/-- At most one process at a time executes `daemon_main`. -/
def AtMostOneDaemon (s : System) : Prop := ∀ p q, s.InDaemonMain p → s.InDaemonMain q → p = q

/-- No process is between opening the lock file in `is_running` and leaving `daemon_main`. -/
def LockUnused (s : System) : Prop := ∀ q, ∀ other ∈ s.procs q, other.pc.lockStage = .outside

instance (s : System) : Decidable (LockUnused s) :=
  inferInstanceAs (Decidable (∀ q, ∀ other ∈ s.procs q, other.pc.lockStage = .outside))

/-- The name of the lock file is removed only while the file is not in use. -/
def QuietUnlink (s : System) : SystemEvent → Prop
  | .advance p _ => ∀ proc ∈ s.procs p, proc.pc = .unlinkLock → LockUnused s
  | _ => True

instance (s : System) : ∀ event, Decidable (QuietUnlink s event)
  | .advance p _ =>
      inferInstanceAs (Decidable (∀ proc ∈ s.procs p, proc.pc = .unlinkLock → LockUnused s))
  | .start _ _ _ | .fork _ _ _ | .answered _ | .signal _ _ | .halt _ | .crash _ =>
      inferInstanceAs (Decidable True)

/-- The lock file guards the processes, and each of those it concerns knows its descriptor. -/
structure LockInvariant (s : System) : Prop where
  guarded : Guarded s.file s.lockPhase
  lockFd_ne : ∀ p proc, s.procs p = some proc → proc.pc.lockStage ≠ .outside → proc.lockFd ≠ none

/-! ## The invariant and the operations of the protocol -/

namespace System

theorem lockPhase_put (s : System) (p : ℕ) (proc : Process) :
    (s.put p proc).lockPhase = Function.update s.lockPhase p proc.lockPhase := by
  funext q
  rcases eq_or_ne q p with rfl | hne
  · simp [lockPhase]
  · simp [lockPhase, put_procs_of_ne s proc hne, hne]

theorem lockPhase_remove (s : System) (p : ℕ) :
    (s.remove p).lockPhase = Function.update s.lockPhase p .outside := by
  funext q
  rcases eq_or_ne q p with rfl | hne
  · simp [lockPhase]
  · simp [lockPhase, remove_procs_of_ne s hne, hne]

end System

namespace LockInvariant

variable {s : System} {p : ℕ} {proc : Process}

theorem initial (stale : Option (List Char)) : LockInvariant (System.initial stale) where
  guarded := by
    intro p
    simp [System.lockPhase, System.initial, LockPhase.Holds]
  lockFd_ne := by simp [System.initial]

/-- A process takes a step after which the file still guards. -/
theorem put (hinv : LockInvariant s) (p : ℕ) {file : LockFile ℕ (List Char)} {proc : Process}
    (hguarded : Guarded file (Function.update s.lockPhase p proc.lockPhase))
    (hlockFd : proc.pc.lockStage ≠ .outside → proc.lockFd ≠ none) :
    LockInvariant ({ s with file := file }.put p proc) where
  guarded := by
    rw [System.lockPhase_put]
    exact hguarded
  lockFd_ne := System.Each.put hinv.lockFd_ne rfl p hlockFd

/-- A process moves to a point outside the protocol, or stays there. -/
theorem put_outside (hinv : LockInvariant s) (p : ℕ) {proc : Process}
    (hstage : proc.pc.lockStage = .outside) : LockInvariant (s.put p proc) := by
  refine hinv.put p ?_ fun h => absurd hstage h
  rw [Process.lockPhase_of_outside hstage]
  exact hinv.guarded.leave p

theorem remove (hinv : LockInvariant s) (p : ℕ) : LockInvariant (s.remove p) where
  guarded := by
    rw [System.lockPhase_remove]
    exact (hinv.guarded.leave p).dropAll (Function.update_self ..)
  lockFd_ne := System.Each.remove hinv.lockFd_ne p

/-- Only the lock file matters. -/
theorem of_file (hinv : LockInvariant s) {next : System} (hprocs : next.procs = s.procs)
    (hguarded : Guarded next.file s.lockPhase) : LockInvariant next where
  guarded := by
    have hphase : next.lockPhase = s.lockPhase := by
      funext q
      simp [System.lockPhase, hprocs]
    rw [hphase]
    exact hguarded
  lockFd_ne := by
    rw [hprocs]
    exact hinv.lockFd_ne

end LockInvariant

/-! ## Steps -/

namespace Process

variable (proc : Process)

theorem afterInit_lockStage : proc.afterInit.lockStage = .outside := by
  rcases proc.afterInit_cases with ⟨h, _⟩ | ⟨h | h, _⟩ <;> rw [h] <;> rfl

theorem answer_lockStage (probe : Probe) (status : InstanceStatus) :
    (proc.answer probe status).pc.lockStage = .outside := by
  rcases proc.answer_cases probe status with h | h | h | h | h | h <;> rw [h] <;> rfl

theorem handler_lockStage : proc.handler.pc.lockStage = .outside := by
  rcases proc.handler_pc with ⟨h, _⟩ | ⟨h, _⟩ | h <;> rw [h] <;> rfl

theorem decide_lockStage : proc.decide.pc.lockStage = .outside := by
  rw [decide_pc]
  split <;> rfl

end Process

namespace LockInvariant

variable {s next : System} {p : ℕ} {proc : Process} {ok : Bool}

theorem lockPhase_eq (hproc : s.procs p = some proc) : s.lockPhase p = proc.lockPhase := by
  simp [System.lockPhase, hproc]

/-- A process that stays as far with the file as it is. -/
theorem put_same (hinv : LockInvariant s) (hproc : s.procs p = some proc) {moved : Process}
    (hstage : moved.pc.lockStage = proc.pc.lockStage) (hlockFd : moved.lockFd = proc.lockFd) :
    LockInvariant (s.put p moved) := by
  refine hinv.put p ?_ ?_
  · have hphase : moved.lockPhase = s.lockPhase p := by
      rw [lockPhase_eq hproc]
      simp [Process.lockPhase, hstage, hlockFd]
    rw [hphase, Function.update_eq_self]
    exact hinv.guarded
  · rw [hstage, hlockFd]
    exact hinv.lockFd_ne p proc hproc

theorem setContent (hinv : LockInvariant s) (proc : Process) (content : List Char) :
    LockInvariant (s.setContent proc content) := by
  unfold System.setContent
  split
  next inode _ => exact hinv.of_file rfl (hinv.guarded.write inode content)
  next => exact hinv

theorem giveBack (hinv : LockInvariant s) (op : GpioOp) : LockInvariant (s.giveBack op) := by
  cases op <;> exact hinv.of_file rfl hinv.guarded

theorem unlock (hinv : LockInvariant s) (hout : s.lockPhase p = .outside) (proc : Process) :
    LockInvariant (s.unlock p proc) := by
  unfold System.unlock
  split
  next inode _ => exact hinv.of_file rfl (hinv.guarded.unlock hout inode)
  next => exact hinv

theorem closeLock (hinv : LockInvariant s) (hout : s.lockPhase p = .outside) (proc : Process) :
    LockInvariant (s.closeLock p proc) := by
  unfold System.closeLock
  split
  next => exact hinv.of_file rfl (hinv.guarded.dropAll hout)
  next => exact hinv

theorem advance (hinv : LockInvariant s) (hproc : s.procs p = some proc)
    (hadvance : System.Advance s p proc ok next) (hquiet : QuietUnlink s (.advance p ok)) :
    LockInvariant next := by
  have hout : proc.pc.lockStage = .outside → s.lockPhase p = .outside := fun hstage => by
    rw [lockPhase_eq hproc, Process.lockPhase_of_outside hstage]
  cases hadvance with
  | exits hnext | boots _ hnext | loads _ hnext | detaches _ hnext _ =>
      exact hinv.put_outside p (by rw [hnext]; rfl)
  | finds | reads | initStep | powersOff => exact hinv.put_outside p rfl
  | answers => exact hinv.put_outside p (proc.answer_lockStage _ _)
  | initFails => exact hinv.put_outside p proc.afterInit_lockStage
  | initialises =>
      have hsame : LockInvariant { s with initialised := proc.pins :: s.initialised } :=
        hinv.of_file rfl hinv.guarded
      exact hsame.put_outside p proc.afterInit_lockStage
  | shows =>
      apply hinv.put_outside p
      rcases proc.afterBatteryLevel_cases with h | h <;> simp [Process.goto, h, ProcessPc.lockStage]
  | decides => exact hinv.put_outside p proc.decide_lockStage
  | cleans _ hafter =>
      apply (hinv.giveBack _).put_outside p
      rcases hafter with rfl | rfl <;> rfl
  | opens => exact hinv.put p (hinv.guarded.openCreate p []) (by simp)
  | @locks inode file hpc hlockFd hlock =>
      have hphase : s.lockPhase p = .opened inode := by
        rw [lockPhase_eq hproc]
        simp [Process.lockPhase, hpc, ProcessPc.lockStage, hlockFd]
      refine hinv.put p ?_ fun _ => by simp [Process.goto, hlockFd]
      have hmoved : (proc.goto .truncate).lockPhase = .owning inode := by
        simp [Process.lockPhase, Process.goto, ProcessPc.lockStage, hlockFd]
      rw [hmoved]
      exact hinv.guarded.setLock hphase hlock
  | truncates hpc =>
      have hproc' : (s.setContent proc []).procs p = some proc := by
        rw [System.setContent_procs, hproc]
      exact (hinv.setContent proc []).put_same hproc' (by rw [hpc]; rfl) rfl
  | writesPid hpc hwritten =>
      have hstage : (ProcessPc.newServer).lockStage = proc.pc.lockStage := by rw [hpc]; rfl
      rcases hwritten with rfl | rfl
      · exact hinv.put_same hproc hstage rfl
      · have hproc' : (s.setContent proc (pidText p)).procs p = some proc := by
          rw [System.setContent_procs, hproc]
        exact (hinv.setContent proc _).put_same hproc' hstage rfl
  | serves hpc hnext hlockFd =>
      refine hinv.put_same hproc ?_ hlockFd
      rcases hpc with h | h <;> rcases hnext with h' | h' <;> rw [h, h'] <;> rfl
  | handles => exact hinv.put_outside p proc.handler_lockStage
  | handlerCleans _ hafter =>
      apply (hinv.giveBack _).put_outside p
      rcases hafter with rfl | rfl <;> rfl
  | deletes _ hnext =>
      apply hinv.put_outside p
      rcases hnext with h | h | h <;> rw [h] <;> rfl
  | unlocks hpc => exact (hinv.unlock (hout (by rw [hpc]; rfl)) proc).put_outside p rfl
  | closes hpc hnext =>
      exact (hinv.closeLock (hout (by rw [hpc]; rfl)) proc).put_outside p (by rw [hnext]; rfl)
  | unlinks hpc hnext =>
      -- the condition puts every process outside, so no phase depends on the name
      have hall : ∀ q, s.lockPhase q = .outside := by
        intro q
        cases hother : s.procs q with
        | none => simp [System.lockPhase, hother]
        | some other =>
            rw [lockPhase_eq hother]
            exact Process.lockPhase_of_outside (hquiet proc hproc hpc q other hother)
      have hunlinked : LockInvariant { s with file := s.file.unlink } :=
        hinv.of_file rfl (Guarded.unlink hall)
      exact hunlinked.put_outside p (by rw [hnext]; rfl)
  | ends => exact hinv.remove p

theorem step {event : SystemEvent} (hinv : LockInvariant s) (hstep : System.Step s event next)
    (hquiet : QuietUnlink s event) : LockInvariant next := by
  cases hstep with
  | start => exact hinv.put_outside _ rfl
  | advance hproc hadvance => exact hinv.advance hproc (.of_advance hadvance) hquiet
  | forkFailed => exact hinv.put_outside _ rfl
  | forked _ _ hpc =>
      refine (hinv.put_outside _ ?_).put_outside _ rfl
      rcases hpc with ⟨-, rfl⟩ | ⟨-, rfl⟩ <;> rfl
  | @answered _ proc =>
      apply hinv.put_outside _
      rcases proc.afterBatteryLevel_cases with h | h <;> rw [h] <;> rfl
  | terminated | crash => exact hinv.remove _
  | handled => exact hinv.put_outside _ rfl
  | ignored => exact hinv
  | @halt _ proc _ _ =>
      apply hinv.put_outside _
      rcases proc.deleteRocpmd_pc with ⟨h, _⟩ | ⟨h, _⟩ <;> rw [h] <;> rfl

/-- A process in `daemon_main` owns the lock file. -/
theorem owning_of_inDaemonMain (hinv : LockInvariant s) (hin : s.InDaemonMain p) :
    ∃ inode, s.lockPhase p = .owning inode := by
  obtain ⟨proc, hproc, hpc⟩ := hin
  have hstage := ProcessPc.lockStage_of_inDaemonMain hpc
  obtain ⟨inode, hinode⟩ := Option.ne_none_iff_exists'.mp
    (hinv.lockFd_ne p proc hproc (by simp [hstage]))
  exact ⟨inode, by rw [lockPhase_eq hproc]; simp [Process.lockPhase, hstage, hinode]⟩

theorem atMostOneDaemon (hinv : LockInvariant s) : AtMostOneDaemon s := by
  intro p q hp hq
  obtain ⟨first, hfirst⟩ := hinv.owning_of_inDaemonMain hp
  obtain ⟨second, hsecond⟩ := hinv.owning_of_inDaemonMain hq
  exact hinv.guarded.exclusive hfirst hsecond

end LockInvariant

/-- **When the daemon is a singleton.** Over any run, from any lock file left behind, at most one
process executes `daemon_main`, if the name of the lock file is removed only while no process has
the file open to become the daemon or is the daemon. -/
theorem atMostOneDaemon_of_quietUnlink (stale : Option (List Char)) {s : System}
    (hreach : systemMachine.ReachableUnder QuietUnlink (.initial stale) s) :
    AtMostOneDaemon s := by
  have hinv : LockInvariant s := hreach.invariant (.initial stale)
    fun _ _ _ hinv hquiet hnext => hinv.step (.of_step hnext) hquiet
  exact hinv.atMostOneDaemon

/-! ## Runs -/

instance (s : System) (p : ℕ) : Decidable (s.InDaemonMain p) :=
  decidable_of_iff ((s.procs p).any (·.pc.inDaemonMain) = true) (Option.any_eq_true _ _)

/-- A daemon is stopped, another is started, and a third finds that one running. -/
def restart : List SystemEvent :=
  launch 1 2 3 20 ++ advances 3 6 ++ [.signal 3 .term] ++ advances 3 15 ++ launch 4 5 6 20 ++
    advances 6 6 ++ launch 7 8 9 6 ++ advances 9 3

theorem atMostOneDaemon_restart :
    ∃ s, systemMachine.run (.initial none) restart = some s ∧ s.InDaemonMain 6 ∧
      AtMostOneDaemon s := by
  have hmeets : systemMachine.Meets QuietUnlink (.initial none) restart := by decide +kernel
  have hrun : ∃ s ∈ systemMachine.run (.initial none) restart, s.InDaemonMain 6 := by
    decide +kernel
  obtain ⟨s, hs, hsix⟩ := hrun
  refine ⟨s, hs, hsix, atMostOneDaemon_of_quietUnlink none ?_⟩
  exact Machine.ReachableUnder.start.of_run hmeets hs

/-- The daemon 3 is stopped. When it has given up the lock, the new daemon 6 locks the same file;
then 3 removes the name, and the daemon 9 creates and locks another one. -/
def restartRace : List SystemEvent :=
  launch 1 2 3 20 ++ advances 3 6 ++ launch 4 5 6 6 ++ [.signal 3 .term] ++ advances 3 12 ++
    advances 6 6 ++ advances 3 2 ++ launch 7 8 9 20 ++ advances 9 6

theorem restartRace_two_daemons :
    ¬ systemMachine.Along AtMostOneDaemon (.initial none) restartRace := by
  apply Machine.not_along_of_run
  have hboth : ∃ last ∈ systemMachine.run (.initial none) restartRace,
      last.InDaemonMain 6 ∧ last.InDaemonMain 9 := by decide +kernel
  obtain ⟨last, hlast, hsix, hnine⟩ := hboth
  exact ⟨last, hlast, fun hone => absurd (hone 6 9 hsix hnine) (by decide)⟩

end Rocpmd

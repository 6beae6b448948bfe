import Rocpmd.Instance.Step

/-!
# What a running daemon owns

A process cleans up the pins and the lock file because it was told to exit, because its handler or
its destructor runs, or because a probe made earlier found no daemon. None of these looks at whether
a daemon is running when the cleaning is done.
-/

namespace Rocpmd

open Foundation

/-! ## Cleaning up -/

/-- The next step gives a pin back or removes the name of the lock file. -/
def ProcessPc.touchesShared : ProcessPc → Bool
  | .gpioCleanup (_ :: _) | .handlerCleanup (_ :: _) | .unlinkLock => true
  | _ => false

/-- The process is neither inside `daemon_main` nor where it cleans up or may be bound to. -/
def ProcessPc.neutral : ProcessPc → Bool
  | .boot | .loadConfig | .access _ | .readPid _ | .kill _ _ | .fork | .newSession | .forkAgain
  | .openLock | .lock | .truncate | .writePid | .exiting => true
  | _ => false

theorem ProcessPc.inDaemonMain_of_neutral {pc : ProcessPc} (hneutral : pc.neutral = true) :
    pc.inDaemonMain = false := by
  revert hneutral
  cases pc <;> simp [neutral, inDaemonMain]

namespace Process

/-- There is something for the handler to delete. -/
def owns (proc : Process) : Bool :=
  proc.gConf != .unassigned || proc.rocpmd != .unassigned

def cleaning (proc : Process) : Bool :=
  match proc.pc with
  | .gpioCleanup _ | .handlerCleanup _ | .deleteConf | .deleteLog | .unlock | .closeLock
  | .unlinkLock => true
  | .handler => proc.owns
  | _ => false

/-- The process is cleaning up or on its way there. -/
def willClean (proc : Process) : Bool := proc.committed || proc.cleaning

/-- At a neutral point nothing is cleaned up, whatever the options. -/
theorem willClean_of_neutral {proc : Process} (hneutral : proc.pc.neutral = true) :
    proc.willClean = false := by
  unfold willClean committed cleaning
  revert hneutral
  cases proc.pc <;> simp [ProcessPc.neutral]

theorem willClean_of_touchesShared {proc : Process} (htouches : proc.pc.touchesShared = true) :
    proc.willClean = true := by
  have hcleaning : proc.cleaning = true := by
    unfold cleaning
    revert htouches
    cases proc.pc <;> simp [ProcessPc.touchesShared]
  simp [willClean, hcleaning]

/-- An answer leads to a cleanup only by committing the process to it. -/
theorem committed_of_willClean_answer {proc : Process} {probe : Probe} {status : InstanceStatus}
    (hwill : (proc.answer probe status).willClean = true) :
    (proc.answer probe status).committed = true := by
  have hcleaning : (proc.answer probe status).cleaning = false := by
    rcases proc.answer_cases probe status with h | h | h | h | h | h <;> simp [cleaning, h]
  simpa [willClean, hcleaning] using hwill

/-- The end of `gpio_init` commits no one. -/
theorem willClean_of_afterInit {proc : Process} {rest : List GpioOp}
    (hpc : proc.pc = .gpioInit rest) (hwill : (proc.goto proc.afterInit).willClean = true) :
    proc.willClean = true := by
  rcases proc.afterInit_cases with ⟨h, _⟩ | ⟨h | h, hqueries⟩
  · simp [willClean, committed, cleaning, goto, h] at hwill
  · simpa [willClean, committed, cleaning, goto, h, hpc, hqueries] using hwill
  · simpa [willClean, committed, cleaning, goto, h, hpc, hqueries] using hwill

theorem willClean_of_decide {proc : Process} (hpc : proc.pc = .decide)
    (hwill : proc.decide.willClean = true) : proc.willClean = true := by
  have hdecide := proc.decide_pc
  split at hdecide
  next hexit => simp [willClean, committed, hpc, hexit.1, hexit.2]
  next => simp [willClean, committed, cleaning, hdecide] at hwill

theorem willClean_of_handler {proc : Process} (hpc : proc.pc = .handler)
    (hwill : proc.handler.willClean = true) : proc.willClean = true := by
  rcases proc.handler_pc with ⟨-, howns⟩ | ⟨-, howns⟩ | h
  · simp [willClean, cleaning, hpc, owns, howns]
  · simp [willClean, cleaning, hpc, owns, howns]
  · simp [willClean, committed, cleaning, h] at hwill

end Process

/-- While a process is inside `daemon_main`, no other is about to give a pin back or to remove the
name of the lock file. -/
def OwnershipRespected (s : System) : Prop :=
  ∀ p, ∀ proc ∈ s.procs p, ∀ q, ∀ daemon ∈ s.procs q, q ≠ p → daemon.pc.inDaemonMain = true →
    proc.pc.touchesShared = false

/-! ## Conditions -/

/-- No process but `p` is inside `daemon_main`. -/
def NoDaemonBut (s : System) (p : ℕ) : Prop :=
  ∀ q, ∀ other ∈ s.procs q, q ≠ p → other.pc.inDaemonMain = false

/-- No process but `p` is cleaning up or on its way there. -/
def NoCleanerBut (s : System) (p : ℕ) : Prop :=
  ∀ q, ∀ other ∈ s.procs q, q ≠ p → other.willClean = false

/-- The next step of the process ends a probe with an answer that leads to `gpio_cleanup`. -/
def CommitsToClean (s : System) (proc : Process) (ok : Bool) : Prop :=
  ∃ answer ∈ s.probeAnswer proc ok, (proc.answer answer.1 answer.2).committed = true

/-- A signal handler, a halt or an answer to a probe sends a process to clean up only while no other
is inside `daemon_main`, and a process enters it only while no other is cleaning up. -/
def CleanupUncontended (s : System) : SystemEvent → Prop
  | .signal p sig => ∀ proc ∈ s.procs p, dispositionAfter proc.installed sig = .handler →
      proc.owns = true → NoDaemonBut s p
  | .halt p => NoDaemonBut s p
  | .advance p ok => ∀ proc ∈ s.procs p,
      (CommitsToClean s proc ok → NoDaemonBut s p) ∧ (proc.pc = .writePid → NoCleanerBut s p)
  | _ => True

/-! ## The invariant -/

def OwnershipInvariant (s : System) : Prop :=
  ∀ p, ∀ proc ∈ s.procs p, ∀ q, ∀ daemon ∈ s.procs q, q ≠ p → daemon.pc.inDaemonMain = true →
    proc.willClean = false

namespace OwnershipInvariant

variable {s next : System} {p : ℕ} {proc : Process} {ok : Bool}

theorem respected (hinv : OwnershipInvariant s) : OwnershipRespected s := by
  intro p proc hproc q daemon hdaemon hne hin
  have hclean := hinv p proc hproc q daemon hdaemon hne hin
  by_contra htouches
  rw [Process.willClean_of_touchesShared (eq_true_of_ne_false htouches)] at hclean
  cases hclean

/-- One process changes. If it starts to clean up, no other is a daemon; if it becomes a daemon, no
other cleans up. -/
theorem put (hinv : OwnershipInvariant s) {base : System} (hbase : base.procs = s.procs) (p : ℕ)
    {moved : Process}
    (hclean : moved.willClean = true →
      (∃ proc ∈ s.procs p, proc.willClean = true) ∨ NoDaemonBut s p)
    (hdaemon : moved.pc.inDaemonMain = true →
      (∃ proc ∈ s.procs p, proc.pc.inDaemonMain = true) ∨ NoCleanerBut s p) :
    OwnershipInvariant (base.put p moved) := by
  intro a left hleft b right hright hne hin
  rcases System.put_procs_cases hleft with ⟨rfl, rfl⟩ | ⟨ha, hcleaner⟩ <;>
    rcases System.put_procs_cases hright with ⟨rfl, rfl⟩ | ⟨-, hinside⟩
  · exact absurd rfl hne
  · -- the process that changed may clean up
    rw [hbase] at hinside
    by_contra hcleans
    rcases hclean (eq_true_of_ne_false hcleans) with ⟨proc, hproc, hwill⟩ | hnone
    · rw [hinv a proc hproc b right hinside hne hin] at hwill
      cases hwill
    · rw [hnone b right hinside hne] at hin
      cases hin
  · -- the process that changed may be the daemon
    rw [hbase] at hcleaner
    rcases hdaemon hin with ⟨proc, hproc, hwas⟩ | hnone
    · exact hinv a left hcleaner b proc hproc hne hwas
    · exact hnone a left hcleaner ha
  · rw [hbase] at hcleaner hinside
    exact hinv a left hcleaner b right hinside hne hin

/-- A process moves to a neutral point. -/
theorem put_neutral (hinv : OwnershipInvariant s) {base : System} (hbase : base.procs = s.procs)
    (p : ℕ) {moved : Process} (hneutral : moved.pc.neutral = true) :
    OwnershipInvariant (base.put p moved) := by
  apply hinv.put hbase p
  · intro hwill
    rw [Process.willClean_of_neutral hneutral] at hwill
    cases hwill
  · intro hin
    rw [ProcessPc.inDaemonMain_of_neutral hneutral] at hin
    cases hin

/-- A process moves on outside `daemon_main`, cleaning up only if it was going to. -/
theorem put_outside (hinv : OwnershipInvariant s) {base : System} (hbase : base.procs = s.procs)
    (hproc : s.procs p = some proc) {moved : Process}
    (hwill : moved.willClean = true → proc.willClean = true)
    (hout : moved.pc.inDaemonMain = false) : OwnershipInvariant (base.put p moved) := by
  apply hinv.put hbase p
  · intro hmoved
    exact .inl ⟨proc, hproc, hwill hmoved⟩
  · intro hin
    rw [hout] at hin
    cases hin

theorem remove (hinv : OwnershipInvariant s) (p : ℕ) : OwnershipInvariant (s.remove p) := by
  intro a left hleft b right hright
  exact hinv a left (System.procs_of_remove hleft) b right (System.procs_of_remove hright)

theorem advance (hinv : OwnershipInvariant s) (hproc : s.procs p = some proc)
    (hadvance : System.Advance s p proc ok next) (hcond : CleanupUncontended s (.advance p ok)) :
    OwnershipInvariant next := by
  obtain ⟨hcommit, henter⟩ := hcond proc hproc
  cases hadvance with
  | exits hnext | boots _ hnext | loads _ hnext | detaches _ hnext _ | unlinks _ hnext =>
      exact hinv.put_neutral rfl p (by rw [hnext]; rfl)
  | finds | reads | opens | locks => exact hinv.put_neutral rfl p rfl
  | truncates => exact hinv.put_neutral (System.setContent_procs s proc []) p rfl
  | @answers probe status hanswer =>
      apply hinv.put rfl p
      · intro hwill
        exact .inr (hcommit ⟨_, hanswer, Process.committed_of_willClean_answer hwill⟩)
      · rcases proc.answer_cases probe status with h | h | h | h | h | h <;>
          simp [h, ProcessPc.inDaemonMain]
  | initStep hpc =>
      refine hinv.put_outside rfl hproc ?_ rfl
      simp [Process.willClean, Process.committed, Process.cleaning, Process.goto, hpc]
  | initFails hpc _ | initialises hpc =>
      apply hinv.put_outside rfl hproc (Process.willClean_of_afterInit hpc)
      rcases proc.afterInit_cases with ⟨h, _⟩ | ⟨h | h, _⟩ <;>
        simp [Process.goto, h, ProcessPc.inDaemonMain]
  | shows hpc =>
      rcases proc.afterBatteryLevel_cases with h | h <;> rw [h] <;>
        refine hinv.put_outside rfl hproc ?_ rfl <;>
        simp [Process.willClean, Process.committed, Process.cleaning, Process.goto, hpc]
  | powersOff hpc =>
      refine hinv.put_outside rfl hproc ?_ rfl
      simp [Process.willClean, Process.committed, Process.cleaning, Process.goto, hpc]
  | decides hpc =>
      apply hinv.put_outside rfl hproc (Process.willClean_of_decide hpc)
      rw [Process.decide_pc]
      split <;> rfl
  | writesPid hpc hwritten =>
      refine hinv.put ?_ p ?_ fun _ => .inr (henter hpc)
      · rcases hwritten with rfl | rfl
        · rfl
        · exact System.setContent_procs s proc _
      · simp [Process.willClean, Process.committed, Process.cleaning, Process.goto]
  | serves hpc hnext _ =>
      refine hinv.put rfl p ?_ fun _ => .inl ⟨proc, hproc, ?_⟩
      · rcases hnext with h | h <;>
          simp [Process.willClean, Process.committed, Process.cleaning, h]
      · rcases hpc with h | h <;> rw [h] <;> rfl
  | handles hpc =>
      apply hinv.put_outside rfl hproc (Process.willClean_of_handler hpc)
      rcases proc.handler_pc with ⟨h, _⟩ | ⟨h, _⟩ | h <;> rw [h] <;> rfl
  | cleans hpc hafter | handlerCleans hpc hafter =>
      refine hinv.put_outside (System.giveBack_procs s _) hproc (fun _ => ?_) ?_
      · simp [Process.willClean, Process.cleaning, hpc]
      · rcases hafter with rfl | rfl <;> rfl
  | deletes hpc hnext =>
      refine hinv.put_outside rfl hproc (fun _ => ?_) ?_
      · rcases hpc with h | h | h <;> simp [Process.willClean, Process.cleaning, h]
      · rcases hnext with h | h | h <;> rw [h] <;> rfl
  | unlocks hpc =>
      refine hinv.put_outside (System.unlock_procs s p proc) hproc (fun _ => ?_) rfl
      simp [Process.willClean, Process.cleaning, hpc]
  | closes hpc hnext =>
      refine hinv.put_outside (System.closeLock_procs s p proc) hproc (fun _ => ?_) ?_
      · simp [Process.willClean, Process.cleaning, hpc]
      · rw [hnext]
        rfl
  | ends => exact hinv.remove p

theorem step {event : SystemEvent} (hinv : OwnershipInvariant s)
    (hstep : System.Step s event next) (hcond : CleanupUncontended s event) :
    OwnershipInvariant next := by
  cases hstep with
  | start | forkFailed => exact hinv.put_neutral rfl _ rfl
  | advance hproc hadvance => exact hinv.advance hproc (.of_advance hadvance) hcond
  | forked _ _ hpc =>
      refine (hinv.put_neutral rfl _ ?_).put_neutral rfl _ rfl
      rcases hpc with ⟨-, rfl⟩ | ⟨-, rfl⟩ <;> rfl
  | @answered p proc hproc hasking =>
      rcases proc.afterBatteryLevel_cases with h | h <;> rw [h] <;>
        refine hinv.put_outside rfl hproc ?_ rfl <;>
        simp [Process.willClean, Process.committed, Process.cleaning, Process.goto, hasking.1]
  | terminated | crash => exact hinv.remove _
  | @handled p proc sig hproc hinstalled =>
      apply hinv.put rfl p
      · intro hwill
        refine .inr (hcond proc hproc hinstalled ?_)
        -- a process just sent to its handler cleans up exactly if it has something to delete
        simpa [Process.willClean, Process.committed, Process.cleaning, Process.owns] using hwill
      · simp [ProcessPc.inDaemonMain]
  | ignored => exact hinv
  | @halt p proc _ _ =>
      apply hinv.put rfl p
      · exact fun _ => .inr hcond
      · rcases proc.deleteRocpmd_pc with ⟨h, _⟩ | ⟨h, _⟩ <;> simp [h, ProcessPc.inDaemonMain]

end OwnershipInvariant

/-- **When a running daemon keeps what it owns.** Over any run, from any lock file left behind, no
process gives back a pin or removes the name of the lock file while another is inside `daemon_main`,
if processes are sent to clean up only while no other is inside `daemon_main` and enter it only
while no other is cleaning up or on its way there. -/
theorem ownershipRespected_of_uncontended (stale : Option (List Char)) {s : System}
    (hreach : systemMachine.ReachableUnder CleanupUncontended (.initial stale) s) :
    OwnershipRespected s := by
  have hstart : OwnershipInvariant (.initial stale) := fun _ _ hproc => by cases hproc
  have hinv : OwnershipInvariant s := hreach.invariant hstart
    fun _ _ _ hinv hcond hnext => hinv.step (.of_step hnext) hcond
  exact hinv.respected

instance (s : System) (p : ℕ) : Decidable (NoDaemonBut s p) :=
  inferInstanceAs (Decidable (∀ q, ∀ other ∈ s.procs q, q ≠ p → other.pc.inDaemonMain = false))

instance (s : System) (p : ℕ) : Decidable (NoCleanerBut s p) :=
  inferInstanceAs (Decidable (∀ q, ∀ other ∈ s.procs q, q ≠ p → other.willClean = false))

instance (s : System) (proc : Process) (ok : Bool) : Decidable (CommitsToClean s proc ok) :=
  inferInstanceAs (Decidable (∃ answer ∈ s.probeAnswer proc ok, _ = true))

instance (s : System) : ∀ event, Decidable (CleanupUncontended s event)
  | .signal p sig => inferInstanceAs (Decidable (∀ proc ∈ s.procs p,
      dispositionAfter proc.installed sig = .handler → proc.owns = true → NoDaemonBut s p))
  | .halt p => inferInstanceAs (Decidable (NoDaemonBut s p))
  | .advance p ok => inferInstanceAs (Decidable (∀ proc ∈ s.procs p,
      (CommitsToClean s proc ok → NoDaemonBut s p) ∧ (proc.pc = .writePid → NoCleanerBut s p)))
  | .start _ _ _ | .fork _ _ _ | .answered _ | .crash _ => inferInstanceAs (Decidable True)

/-- A query is made while a daemon runs; then the daemon is stopped. -/
def queryThenStop : List SystemEvent :=
  launch 1 2 3 20 ++ advances 3 6 ++ [.start 4 ⟨false, true, false, false⟩ .shipped] ++
    advances 4 8 ++ [.answered 4] ++ advances 4 1 ++ [.signal 3 .term] ++ advances 3 15

theorem ownershipRespected_queryThenStop :
    ∃ s, systemMachine.run (.initial none) queryThenStop = some s ∧ OwnershipRespected s := by
  have hmeets : systemMachine.Meets CleanupUncontended (.initial none) queryThenStop := by
    decide +kernel
  have hrun : (systemMachine.run (.initial none) queryThenStop).isSome := by decide +kernel
  obtain ⟨s, hs⟩ := Option.isSome_iff_exists.mp hrun
  refine ⟨s, hs, ownershipRespected_of_uncontended none ?_⟩
  exact Machine.ReachableUnder.start.of_run hmeets hs

instance (s : System) : Decidable (OwnershipRespected s) :=
  inferInstanceAs (Decidable (∀ p, ∀ proc ∈ s.procs p, ∀ q, ∀ daemon ∈ s.procs q, q ≠ p →
    daemon.pc.inDaemonMain = true → proc.pc.touchesShared = false))

/-- A query that is interrupted while a daemon runs gives back the daemon's pins. -/
theorem interrupted_query_cleans :
    ¬ systemMachine.Along OwnershipRespected (.initial none)
      (launch 1 2 3 20 ++ advances 3 6 ++ [.start 4 ⟨false, true, false, false⟩ .shipped] ++
        advances 4 2 ++ [.signal 4 .int] ++ advances 4 1) :=
  Machine.not_along_of_run (by decide +kernel)

end Rocpmd

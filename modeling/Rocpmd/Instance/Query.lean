import Rocpmd.Instance.Singleton

/-!
# Queries and the daemon

A process asked for a level or to power off ends in `main` unless its last probe found a daemon
alive. Then it goes on to `run_daemon`, and only the lock can keep it from becoming the daemon.
-/

namespace Rocpmd

open Foundation

/-- No process that was asked for something, and no child of one, executes `daemon_main`. -/
def QueriesStayOutside (s : System) : Prop :=
  ∀ p, ∀ proc ∈ s.procs p, proc.opts.optExit = true → proc.pc.inDaemonMain = false

/-- Where such a process asks for the lock, another process holds it, or the request fails. -/
def QueriesRefused (s : System) : SystemEvent → Prop
  | .advance p ok => ∀ proc ∈ s.procs p, proc.opts.optExit = true → proc.pc = .lock → ok = true →
      ∀ inode ∈ proc.lockFd, ∃ holder ∈ s.file.holder inode, holder ≠ p
  | _ => True

/-! ## The way into daemon_main -/

namespace System

variable {s next : System} {p : ℕ} {proc : Process} {ok : Bool}

/-- A process gets past the lock only from behind it or by being granted it. -/
theorem Advance.lockStage_owning (hadvance : Advance s p proc ok next) {moved : Process}
    (hmoved : next.procs p = some moved) (howning : moved.pc.lockStage = .owning) :
    proc.pc.lockStage = .owning ∨ proc.pc = .lock := by
  have hself : ∀ {base : System} {other : Process}, (base.put p other).procs p = some moved →
      other.pc.lockStage = .owning := by
    intro base other hother
    rw [put_procs_self] at hother
    obtain rfl := Option.some.inj hother
    exact howning
  cases hadvance with
  | exits hnext | boots _ hnext | loads _ hnext | detaches _ hnext | closes _ hnext
  | unlinks _ hnext =>
      have hstage := hself hmoved
      rw [hnext] at hstage
      cases hstage
  | finds | reads | initStep | powersOff | opens | unlocks => cases hself hmoved
  | answers =>
      have hstage := hself hmoved
      rw [proc.answer_lockStage] at hstage
      cases hstage
  | initFails | initialises =>
      have hstage := hself hmoved
      rw [Process.goto, proc.afterInit_lockStage] at hstage
      cases hstage
  | shows =>
      have hstage := hself hmoved
      rcases proc.afterBatteryLevel_cases with h | h <;> rw [h] at hstage <;> cases hstage
  | decides =>
      have hstage := hself hmoved
      rw [proc.decide_lockStage] at hstage
      cases hstage
  | cleans _ hafter | handlerCleans _ hafter =>
      have hstage := hself hmoved
      rcases hafter with rfl | rfl <;> cases hstage
  | locks hpc => exact .inr hpc
  | truncates hpc | writesPid hpc => exact .inl (by rw [hpc]; rfl)
  | serves hpc => rcases hpc with hpc | hpc <;> exact .inl (by rw [hpc]; rfl)
  | handles =>
      have hstage := hself hmoved
      rw [proc.handler_lockStage] at hstage
      cases hstage
  | deletes _ hnext =>
      have hstage := hself hmoved
      rcases hnext with h | h | h <;> rw [h] at hstage <;> cases hstage
  | ends =>
      rw [remove_procs_self] at hmoved
      cases hmoved

/-- A refused process exits. -/
theorem lock_of_held (hheld : ok = true → ∀ inode ∈ proc.lockFd,
    ∃ holder ∈ s.file.holder inode, holder ≠ p) {moved : Process}
    (hmoved : (s.lock p proc ok).procs p = some moved) : moved.pc = .exiting := by
  unfold lock at hmoved
  split at hmoved
  next =>
    rw [put_procs_self] at hmoved
    obtain rfl := Option.some.inj hmoved
    rfl
  next file hgranted =>
    split at hmoved
    next =>
      rw [put_procs_self] at hmoved
      obtain rfl := Option.some.inj hmoved
      rfl
    next hok =>
      obtain ⟨inode, hlockFd, hlock⟩ := Option.bind_eq_some_iff.mp hgranted
      obtain ⟨holder, hholder, hne⟩ := hheld (eq_true_of_ne_false hok) inode hlockFd
      rcases (s.file.setLock_some hlock).1 with hfree | hown
      · exact absurd (hholder.symm.trans hfree) (by simp)
      · exact absurd (Option.some.inj (hholder.symm.trans hown)) hne

end System

/-! ## Runs in which queries are refused -/

/-- A process that was asked for something has not got past the lock. -/
def QueryInvariant (s : System) : Prop :=
  s.Each fun proc => proc.opts.optExit = true → proc.pc.lockStage ≠ .owning

namespace QueryInvariant

variable {s next : System} {p : ℕ} {proc : Process} {ok : Bool}

theorem put_outside (hinv : QueryInvariant s) (p : ℕ) {moved : Process}
    (hstage : moved.pc.lockStage = .outside) : QueryInvariant (s.put p moved) := by
  apply hinv.put rfl
  intro _
  rw [hstage]
  decide

theorem advance (hinv : QueryInvariant s) (hproc : s.procs p = some proc)
    (hadvance : s.advance p proc ok = some next) (hcond : QueriesRefused s (.advance p ok)) :
    QueryInvariant next := by
  have hsteps := System.Advance.of_advance hadvance
  intro q other hother hexit
  rcases eq_or_ne q p with rfl | hne
  · rw [System.advance_opts hadvance other hother] at hexit
    intro howning
    rcases hsteps.lockStage_owning hother howning with hbefore | hpc
    · exact hinv q proc hproc hexit hbefore
    · -- it asked for the lock, and the condition has it refused
      simp only [System.advance, hpc, Option.some.injEq] at hadvance
      subst hadvance
      have hexiting := System.lock_of_held (hcond proc hproc hexit hpc) hother
      rw [hexiting] at howning
      cases howning
  · rw [hsteps.procs_of_ne hne] at hother
    exact hinv q other hother hexit

theorem step {event : SystemEvent} (hinv : QueryInvariant s)
    (hstep : systemMachine.step s event = some next) (hcond : QueriesRefused s event) :
    QueryInvariant next := by
  cases System.Step.of_step hstep with
  | start | forkFailed | handled => exact hinv.put_outside _ rfl
  | advance hproc hadvance => exact hinv.advance hproc hadvance hcond
  | forked _ _ hpc =>
      refine (hinv.put_outside _ ?_).put_outside _ rfl
      rcases hpc with ⟨-, rfl⟩ | ⟨-, rfl⟩ <;> rfl
  | @answered _ proc =>
      apply hinv.put_outside
      rcases proc.afterBatteryLevel_cases with h | h <;> rw [h] <;> rfl
  | terminated | crash => exact hinv.remove _
  | ignored => exact hinv
  | @halt _ proc _ _ =>
      apply hinv.put_outside
      rcases proc.deleteRocpmd_pc with ⟨h, _⟩ | ⟨h, _⟩ <;> rw [h] <;> rfl

end QueryInvariant

/-- **When queries stay queries.** Over any run, from any lock file left behind, no process that was
asked for a level or to power off executes `daemon_main`, if each of them that gets as far as asking
for the lock finds it held by another process. -/
theorem queriesStayOutside_of_refused (stale : Option (List Char)) {s : System}
    (hreach : systemMachine.ReachableUnder QueriesRefused (.initial stale) s) :
    QueriesStayOutside s := by
  have hstart : QueryInvariant (.initial stale) := fun _ _ hproc => by cases hproc
  have hinv : QueryInvariant s := hreach.invariant hstart
    fun _ _ _ hinv hcond hnext => hinv.step hnext hcond
  intro p proc hproc hexit
  by_contra hin
  exact hinv p proc hproc hexit (ProcessPc.lockStage_of_inDaemonMain (eq_true_of_ne_false hin))

instance (s : System) : ∀ event, Decidable (QueriesRefused s event)
  | .advance p ok => inferInstanceAs (Decidable (∀ proc ∈ s.procs p, proc.opts.optExit = true →
      proc.pc = .lock → ok = true → ∀ inode ∈ proc.lockFd, ∃ holder ∈ s.file.holder inode,
        holder ≠ p))
  | .start _ _ _ | .fork _ _ _ | .answered _ | .signal _ _ | .halt _ | .crash _ =>
      inferInstanceAs (Decidable True)

/-- The two forks of a process at the end of `main`, up to where the second child opens the lock
file. -/
def daemonize (p child grandchild : ℕ) : List SystemEvent :=
  [.fork p child true, .advance p true, .advance child true, .fork child grandchild true]

/-- While a daemon runs, another process asks for the level, and goes on to ask for the lock. -/
def queryRunning : List SystemEvent :=
  launch 1 2 3 20 ++ advances 3 6 ++ [.start 4 ⟨false, true, false, false⟩ .shipped] ++
    advances 4 8 ++ [.answered 4] ++ advances 4 1 ++ daemonize 4 5 6 ++ advances 6 2

theorem queriesStayOutside_queryRunning :
    ∃ s, systemMachine.run (.initial none) queryRunning = some s ∧
      (∃ proc, s.procs 6 = some proc ∧ proc.pc = .exiting) ∧ QueriesStayOutside s := by
  have hmeets : systemMachine.Meets QueriesRefused (.initial none) queryRunning := by
    decide +kernel
  have hrun : ∃ s ∈ systemMachine.run (.initial none) queryRunning,
      (s.procs 6).any fun proc => proc.pc = .exiting := by decide +kernel
  obtain ⟨s, hs, hrefused⟩ := hrun
  obtain ⟨proc, hproc, hpc⟩ := (Option.any_eq_true _ _).mp hrefused
  refine ⟨s, hs, ⟨proc, hproc, of_decide_eq_true hpc⟩, queriesStayOutside_of_refused none ?_⟩
  exact Machine.ReachableUnder.start.of_run hmeets hs

instance (s : System) : Decidable (QueriesStayOutside s) :=
  inferInstanceAs (Decidable (∀ p, ∀ proc ∈ s.procs p, proc.opts.optExit = true →
    proc.pc.inDaemonMain = false))

/-- The daemon crashes after it has answered: the query finds the lock free. -/
theorem query_becomes_daemon :
    ¬ systemMachine.Along QueriesStayOutside (.initial none)
      (launch 1 2 3 20 ++ advances 3 6 ++ [.start 4 ⟨false, true, false, false⟩ .shipped] ++
        advances 4 8 ++ [.answered 4] ++ advances 4 1 ++ [.crash 3] ++ daemonize 4 5 6 ++
        advances 6 4) :=
  Machine.not_along_of_run (by decide +kernel)

end Rocpmd

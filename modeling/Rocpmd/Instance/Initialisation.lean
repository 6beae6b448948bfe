import Rocpmd.Instance.Step

/-!
# Entering the daemon on initialised pins

Whether `gpio_init` is called hangs on a probe made early in `main`, and what it returns is ignored;
whether the process becomes the daemon is decided by the lock alone. In between any other process
may give the pins back.
-/

namespace Rocpmd

open Foundation

namespace Process

/-- The process relies on its pins: it has set them up, or has been told by the first probe that a
daemon has, and may yet become the daemon. -/
def reliesOnPins (proc : Process) : Bool :=
  match proc.pc with
  | .access .second | .readPid .second | .kill .second _ | .fork | .newSession | .forkAgain
  | .openLock | .lock | .truncate | .writePid => true
  | .batteryLevel | .powerOff | .decide => !proc.committed
  | _ => false

/-- The next step is an operation of `gpio_init`, and it fails. -/
def initFails (proc : Process) (ok : Bool) : Bool :=
  match proc.pc with
  | .gpioInit (_ :: _) => !ok
  | _ => false

/-- The pin that the next step gives back. -/
def givesBack (proc : Process) : Option Int :=
  match proc.pc with
  | .gpioCleanup (.cleanupPin pinNo :: _) | .handlerCleanup (.cleanupPin pinNo :: _) => some pinNo
  | _ => none

end Process

/-- A process about to enter `daemon_main` has its pins initialised: a `gpio_init` of them succeeded
and none of them has been given back since. -/
def EntersInitialised (s : System) : Prop :=
  ∀ p, ∀ proc ∈ s.procs p, proc.pc = .writePid → proc.pins ∈ s.initialised

/-- The first probe finds a living process only if the pins are initialised; no operation of
`gpio_init` fails, unless in a process that ends without becoming the daemon; and no pin is given
back that another process relies on. -/
def PinsKept (s : System) : SystemEvent → Prop
  | .advance p ok => ∀ proc ∈ s.procs p,
      (s.probeAnswer proc ok = some (.first, .processLives) → proc.pins ∈ s.initialised) ∧
      (proc.initFails ok = true → proc.committed = true) ∧
      ∀ pinNo ∈ proc.givesBack, ∀ q, ∀ other ∈ s.procs q, other.reliesOnPins = true →
        pinNo ∉ other.pins
  | _ => True

/-! ## gpio_init step by step -/

/-- A process that runs the operations one by one, each with the outcome it has on the files, ends
where `main` goes on, with its pins counted as initialised exactly if the call succeeds. -/
theorem run_gpioInit {W : Type} (fs : Sysfs W) {s : System} {p : ℕ} {proc : Process}
    (ops : List GpioOp) (hproc : s.procs p = some proc) (hpc : proc.pc = .gpioInit ops) (w : W) :
    ∃ next, systemMachine.run s ((opOutcomes fs ops w).map (.advance p) ++
        if (runOps fs ops w).1 = gpioSuccess then [.advance p true] else []) = some next ∧
      next.procs p = some (proc.goto proc.afterInit) ∧
      next.initialised =
        if (runOps fs ops w).1 = gpioSuccess then proc.pins :: s.initialised
        else s.initialised := by
  induction ops generalizing s proc w with
  | nil =>
      refine ⟨{ s with initialised := proc.pins :: s.initialised }.put p
        (proc.goto proc.afterInit), ?_, by simp, by simp [runOps, Call.ret]⟩
      simp [opOutcomes, runOps, Call.ret, Machine.run, systemMachine, System.step, System.advance,
        hproc, hpc]
  | cons op rest ih =>
      by_cases herror : (op.run fs w).1 = gpioError
      · have hfails : (runOps fs (op :: rest) w).1 ≠ gpioSuccess := by
          simp [runOps, Call.orReturn, herror, gpioError, gpioSuccess]
        refine ⟨s.put p (proc.goto proc.afterInit), ?_, by simp, by simp [hfails]⟩
        simp [opOutcomes, herror, hfails, Machine.run, systemMachine, System.step, System.advance,
          hproc, hpc]
      · have hrest : runOps fs (op :: rest) w = runOps fs rest (op.run fs w).2 := by
          simp [runOps, Call.orReturn, herror]
        have hstep : systemMachine.step s (.advance p true) =
            some (s.put p (proc.goto (.gpioInit rest))) := by
          simp [systemMachine, System.step, System.advance, hproc, hpc]
        obtain ⟨next, hrun, hnext, hinitialised⟩ :=
          ih (s.put_procs_self p (proc.goto (.gpioInit rest))) rfl (op.run fs w).2
        rw [hrest]
        refine ⟨next, ?_, hnext, hinitialised⟩
        simpa [opOutcomes, herror, Machine.run, hstep] using hrun

/-! ## Relying on pins -/

namespace Process

variable {proc : Process}

/-- An answer makes a process rely on its pins if it spares it `gpio_init`, or leaves it so. -/
theorem reliesOnPins_answer {s : System} {ok : Bool} {probe : Probe} {status : InstanceStatus}
    (hanswer : s.probeAnswer proc ok = some (probe, status))
    (hrelies : (proc.answer probe status).reliesOnPins = true) :
    probe = .first ∧ status = .processLives ∨ proc.reliesOnPins = true := by
  cases probe with
  | first =>
      by_cases hlives : status = .processLives
      · exact .inl ⟨rfl, hlives⟩
      · simp [reliesOnPins, answer_pc, hlives] at hrelies
  | second =>
      right
      unfold System.probeAnswer at hanswer
      split at hanswer
      next probe hpc =>
        have hprobe : probe = .second := by
          split at hanswer
          next => exact (Prod.mk.inj (Option.some.inj hanswer)).1
          next =>
            split at hanswer
            next => exact (Prod.mk.inj (Option.some.inj hanswer)).1
            next => cases hanswer
        simp [reliesOnPins, hpc, hprobe]
      next probe _ hpc =>
        obtain rfl := (Prod.mk.inj (Option.some.inj hanswer)).1
        simp [reliesOnPins, hpc]
      next => cases hanswer

/-- A process bound to exit does not rely on its pins after a failed `gpio_init`. -/
theorem not_reliesOnPins_afterInit {rest : List GpioOp} (hpc : proc.pc = .gpioInit rest)
    (hcommitted : proc.committed = true) : (proc.goto proc.afterInit).reliesOnPins = false := by
  have hboth : (proc.opts.optExit = true ∧ proc.rocpmdStatus ≠ some .processLives) ∧
      proc.opts.queries = false := by
    simpa [committed, hpc] using hcommitted
  rcases proc.afterInit_cases with ⟨-, hqueries⟩ | ⟨h | h, -⟩
  · rw [hboth.2] at hqueries
    cases hqueries
  · simp [reliesOnPins, committed, goto, h, hboth.1.1, hboth.1.2]
  · simp [reliesOnPins, committed, goto, h, hboth.1.1, hboth.1.2]

theorem reliesOnPins_of_decide (hpc : proc.pc = .decide)
    (hrelies : proc.decide.reliesOnPins = true) : proc.reliesOnPins = true := by
  have hdecide := proc.decide_pc
  split at hdecide
  next => simp [reliesOnPins, hdecide] at hrelies
  next hstays => simpa [reliesOnPins, committed, hpc, or_iff_not_imp_left] using hstays

end Process

/-! ## The invariant -/

def PinsInvariant (s : System) : Prop :=
  ∀ p, ∀ proc ∈ s.procs p, proc.reliesOnPins = true → proc.pins ∈ s.initialised

namespace PinsInvariant

variable {s next : System} {p : ℕ} {proc : Process} {ok : Bool}

theorem entersInitialised (hinv : PinsInvariant s) : EntersInitialised s :=
  fun p proc hproc hpc => hinv p proc hproc (by simp [Process.reliesOnPins, hpc])

/-- One process changes, and the pins the others rely on stay initialised. -/
theorem put {base : System} (p : ℕ) {moved : Process}
    (hkept : ∀ q, ∀ other ∈ base.procs q, other.reliesOnPins = true →
      other.pins ∈ base.initialised)
    (hmoved : moved.reliesOnPins = true → moved.pins ∈ base.initialised) :
    PinsInvariant (base.put p moved) :=
  System.Each.put hkept rfl p hmoved

/-- A process moves on, relying on its pins only if it did before. -/
theorem move (hinv : PinsInvariant s) (hproc : s.procs p = some proc) {moved : Process}
    (hconf : moved.conf = proc.conf)
    (hrelies : moved.reliesOnPins = true → proc.reliesOnPins = true) :
    PinsInvariant (s.put p moved) := by
  apply put p hinv
  intro hmoved
  have hpins : moved.pins = proc.pins := by simp [Process.pins, hconf]
  rw [hpins]
  exact hinv p proc hproc (hrelies hmoved)

theorem of_same (hinv : PinsInvariant s) (hprocs : next.procs = s.procs)
    (hinitialised : next.initialised = s.initialised) : PinsInvariant next := by
  intro q other hother hrelies
  rw [hprocs] at hother
  rw [hinitialised]
  exact hinv q other hother hrelies

theorem remove (hinv : PinsInvariant s) (p : ℕ) : PinsInvariant (s.remove p) :=
  System.Each.remove hinv p

/-- Giving back a pin no one relies on. -/
theorem giveBack (hinv : PinsInvariant s) (op : GpioOp)
    (hunused : ∀ pinNo, op = .cleanupPin pinNo → ∀ q, ∀ other ∈ s.procs q,
      other.reliesOnPins = true → pinNo ∉ other.pins) : PinsInvariant (s.giveBack op) := by
  intro q other hother hrelies
  rw [System.giveBack_procs] at hother
  have hmem := hinv q other hother hrelies
  cases op with
  | cleanupPin pinNo =>
      have hnot := hunused pinNo rfl q other hother hrelies
      simpa [System.giveBack, hnot] using hmem
  | _ => exact hmem

theorem advance (hinv : PinsInvariant s) (hproc : s.procs p = some proc)
    (hadvance : System.Advance s p proc ok next) (hkept : PinsKept s (.advance p ok)) :
    PinsInvariant next := by
  obtain ⟨hprobe, hinit, hgiven⟩ := hkept proc hproc
  cases hadvance with
  | exits hnext | boots _ hnext | loads _ hnext =>
      exact put p hinv (by simp [Process.reliesOnPins, hnext])
  | @finds probe hpc | @reads probe _ hpc =>
      refine hinv.move hproc rfl ?_
      cases probe <;> simp [Process.reliesOnPins, Process.goto, hpc]
  | @answers probe status hanswer =>
      apply put p hinv
      intro hrelies
      have hpins : (proc.answer probe status).pins = proc.pins := by
        simp [Process.pins, proc.answer_conf probe status]
      rw [hpins]
      rcases Process.reliesOnPins_answer hanswer hrelies with ⟨rfl, rfl⟩ | hrelied
      · exact hprobe hanswer
      · exact hinv p proc hproc hrelied
  | initStep => exact put p hinv (by simp [Process.reliesOnPins, Process.goto])
  | initFails hpc hok =>
      have hcommitted := hinit (by simp [Process.initFails, hpc, hok])
      exact put p hinv (by simp [Process.not_reliesOnPins_afterInit hpc hcommitted])
  | initialises =>
      refine put p (fun q other hother hrelies => ?_) fun _ => List.mem_cons_self
      exact List.mem_cons_of_mem _ (hinv q other hother hrelies)
  | shows hpc =>
      refine hinv.move hproc rfl ?_
      rcases proc.afterBatteryLevel_cases with h | h <;>
        simp [Process.reliesOnPins, Process.committed, Process.goto, h, hpc]
  | powersOff hpc =>
      refine hinv.move hproc rfl ?_
      simp [Process.reliesOnPins, Process.committed, Process.goto, hpc]
  | decides hpc =>
      have hconf : proc.decide.conf = proc.conf := by
        unfold Process.decide
        split <;> rfl
      exact hinv.move hproc hconf (Process.reliesOnPins_of_decide hpc)
  | @cleans op rest after hpc hafter =>
      have hgivenBack := hinv.giveBack op fun pinNo hop =>
        hgiven pinNo (by simp [Process.givesBack, hpc, hop])
      apply put p hgivenBack
      rcases hafter with rfl | rfl <;> simp [Process.reliesOnPins, Process.goto]
  | detaches hpc hnext hconf =>
      exact hinv.move hproc hconf (by simp [Process.reliesOnPins, hpc])
  | opens hpc =>
      have hopened : PinsInvariant { s with file := (s.file.openCreate []).2 } :=
        hinv.of_same rfl rfl
      exact hopened.move hproc rfl (by simp [Process.reliesOnPins, hpc])
  | @locks _ file hpc =>
      have hlocked : PinsInvariant { s with file := file } := hinv.of_same rfl rfl
      exact hlocked.move hproc rfl (by simp [Process.reliesOnPins, hpc])
  | truncates hpc =>
      have htruncated := hinv.of_same (System.setContent_procs s proc [])
        (System.setContent_initialised s proc [])
      have hproc' : (s.setContent proc []).procs p = some proc := by
        rw [System.setContent_procs, hproc]
      exact htruncated.move hproc' rfl (by simp [Process.reliesOnPins, hpc])
  | @writesPid written _ hwritten =>
      have hsame : PinsInvariant written := by
        rcases hwritten with rfl | rfl
        · exact hinv
        · exact hinv.of_same (System.setContent_procs ..) (System.setContent_initialised ..)
      exact put p hsame (by simp [Process.reliesOnPins, Process.goto])
  | serves _ hnext _ =>
      apply put p hinv
      rcases hnext with h | h <;> simp [Process.reliesOnPins, h]
  | handles =>
      apply put p hinv
      rcases proc.handler_pc with ⟨h, _⟩ | ⟨h, _⟩ | h <;> simp [Process.reliesOnPins, h]
  | @handlerCleans op rest after hpc hafter =>
      have hgivenBack := hinv.giveBack op fun pinNo hop =>
        hgiven pinNo (by simp [Process.givesBack, hpc, hop])
      apply put p hgivenBack
      rcases hafter with rfl | rfl <;> simp [Process.reliesOnPins, Process.goto]
  | deletes _ hnext =>
      apply put p hinv
      rcases hnext with h | h | h <;> simp [Process.reliesOnPins, h]
  | unlocks =>
      have hunlocked := hinv.of_same (System.unlock_procs s p proc)
        (System.unlock_initialised s p proc)
      exact put p hunlocked (by simp [Process.reliesOnPins, Process.goto])
  | closes _ hnext =>
      have hclosed := hinv.of_same (System.closeLock_procs s p proc)
        (System.closeLock_initialised s p proc)
      exact put p hclosed (by simp [Process.reliesOnPins, hnext])
  | unlinks _ hnext => exact put p hinv (by simp [Process.reliesOnPins, hnext])
  | ends => exact hinv.remove p

theorem step {event : SystemEvent} (hinv : PinsInvariant s) (hstep : System.Step s event next)
    (hkept : PinsKept s event) : PinsInvariant next := by
  cases hstep with
  | start => exact put _ hinv (by simp [Process.start, Process.reliesOnPins])
  | advance hproc hadvance => exact hinv.advance hproc (.of_advance hadvance) hkept
  | forkFailed => exact put _ hinv (by simp [Process.goto, Process.reliesOnPins])
  | @forked p child proc childPc hproc _ hpc =>
      have hpins : (proc.goto childPc).pins ∈ s.initialised :=
        hinv p proc hproc (by rcases hpc with ⟨h, -⟩ | ⟨h, -⟩ <;> simp [Process.reliesOnPins, h])
      have hchild : PinsInvariant (s.put child (proc.goto childPc)) := put _ hinv fun _ => hpins
      exact put _ hchild (by simp [Process.goto, Process.reliesOnPins])
  | @answered p proc hproc hasking =>
      -- the exchange is the last thing the query does with its pins set up
      refine hinv.move hproc rfl ?_
      rcases proc.afterBatteryLevel_cases with h | h <;>
        simp [Process.reliesOnPins, Process.committed, Process.goto, h, hasking.1]
  | terminated | crash => exact hinv.remove _
  | handled => exact put _ hinv (by simp [Process.reliesOnPins])
  | ignored => exact hinv
  | @halt _ proc _ _ =>
      apply put _ hinv
      rcases proc.deleteRocpmd_pc with ⟨h, _⟩ | ⟨h, _⟩ <;> simp [h, Process.reliesOnPins]

end PinsInvariant

/-- **When the daemon is entered on initialised pins.** Over any run, from any lock file left
behind, every process about to enter `daemon_main` has its pins initialised, if the first probe
finds a living process only when they are, `gpio_init` fails only in processes bound to exit, and no
pin is given back that another process relies on. -/
theorem entersInitialised_of_pinsKept (stale : Option (List Char)) {s : System}
    (hreach : systemMachine.ReachableUnder PinsKept (.initial stale) s) : EntersInitialised s := by
  have hstart : PinsInvariant (.initial stale) := fun _ _ hproc => by cases hproc
  have hinv : PinsInvariant s := hreach.invariant hstart
    fun _ _ _ hinv hkept hnext => hinv.step (.of_step hnext) hkept
  exact hinv.entersInitialised

instance (s : System) : ∀ event, Decidable (PinsKept s event)
  | .advance p ok => inferInstanceAs (Decidable (∀ proc ∈ s.procs p,
      (s.probeAnswer proc ok = some (.first, .processLives) → proc.pins ∈ s.initialised) ∧
      (proc.initFails ok = true → proc.committed = true) ∧
      ∀ pinNo ∈ proc.givesBack, ∀ q, ∀ other ∈ s.procs q, other.reliesOnPins = true →
        pinNo ∉ other.pins))
  | .start _ _ _ | .fork _ _ _ | .answered _ | .signal _ _ | .halt _ | .crash _ =>
      inferInstanceAs (Decidable True)

/-- A daemon is stopped, and the next one is about to enter `daemon_main`. -/
def stopThenStart : List SystemEvent :=
  launch 1 2 3 20 ++ advances 3 6 ++ [.signal 3 .term] ++ advances 3 15 ++ launch 4 5 6 20 ++
    advances 6 3

theorem entersInitialised_stopThenStart :
    ∃ s, systemMachine.run (.initial none) stopThenStart = some s ∧ EntersInitialised s := by
  have hmeets : systemMachine.Meets PinsKept (.initial none) stopThenStart := by decide +kernel
  have hrun : (systemMachine.run (.initial none) stopThenStart).isSome := by decide +kernel
  obtain ⟨s, hs⟩ := Option.isSome_iff_exists.mp hrun
  refine ⟨s, hs, entersInitialised_of_pinsKept none ?_⟩
  exact Machine.ReachableUnder.start.of_run hmeets hs

instance (s : System) : Decidable (EntersInitialised s) :=
  inferInstanceAs (Decidable (∀ p, ∀ proc ∈ s.procs p, proc.pc = .writePid →
    proc.pins ∈ s.initialised))

/-- The first operation of `gpio_init` fails, and the process goes on to enter `daemon_main`. -/
theorem failed_init_enters :
    ¬ systemMachine.Along EntersInitialised (.initial none)
      ([.start 1 ⟨false, false, false, false⟩ .shipped] ++ advances 1 3 ++ [.advance 1 false] ++
        advances 1 1 ++ [.fork 1 2 true, .advance 1 true, .advance 2 true, .fork 2 3 true] ++
        advances 3 3) :=
  Machine.not_along_of_run (by decide +kernel)

end Rocpmd

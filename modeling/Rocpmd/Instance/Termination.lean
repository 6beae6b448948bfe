import Rocpmd.Foundation.Potential
import Rocpmd.Instance.Step

/-!
# Every process ends

Apart from the loop of the daemon there is nothing in the program that goes on for ever. A process
makes a bounded number of steps of its own until it is gone or in the loop, and a signal that finds
its handler adds a bounded number of them, once for each kind of signal.
-/

namespace Rocpmd

open Foundation

/-! ## What is counted -/

namespace SystemEvent

/-- The steps a process makes by itself: its way out of the loop is one. -/
def ownSteps (p : ℕ) : SystemEvent → ℕ
  | .advance q _ | .fork q _ _ | .answered q | .halt q => if q = p then 1 else 0
  | _ => 0

/-- The process is started or forked. -/
def births (p : ℕ) : SystemEvent → ℕ
  | .start q _ _ => if q = p then 1 else 0
  | .fork _ child _ => if child = p then 1 else 0
  | _ => 0

end SystemEvent

/-- The longest way to the end, or into the loop and out of it. -/
def ProcessPc.stepsLeft : ProcessPc → ℕ
  | .boot => 36
  | .loadConfig => 35
  | .access .first => 34
  | .readPid .first => 33
  | .kill .first _ => 32
  | .gpioInit rest => 16 + rest.length
  | .access .second => 15
  | .readPid .second => 14
  | .kill .second _ => 13
  | .batteryLevel => 12
  | .powerOff => 11
  | .decide => 10
  | .gpioCleanup rest => 2 + rest.length
  | .fork => 2
  | .newSession => 3
  | .forkAgain => 2
  | .openLock => 12
  | .lock => 11
  | .truncate => 10
  | .writePid => 9
  | .newServer => 8
  | .newLog => 7
  | .loop => 6
  | .handler => 15
  | .handlerCleanup rest => 7 + rest.length
  | .deleteConf => 6
  | .deleteLog => 5
  | .unlock => 4
  | .closeLock => 3
  | .unlinkLock => 2
  | .exiting => 1

theorem ProcessPc.stepsLeft_pos (pc : ProcessPc) : 1 ≤ pc.stepsLeft := by
  cases pc with
  | access probe | readPid probe => cases probe <;> decide
  | kill probe => cases probe <;> simp [stepsLeft]
  | gpioInit | gpioCleanup | handlerCleanup => simp only [stepsLeft]; omega
  | _ => decide

theorem ProcessPc.stepsLeft_exiting_lt {pc : ProcessPc} (hpc : pc ≠ .exiting) :
    2 ≤ pc.stepsLeft := by
  cases pc with
  | access probe | readPid probe => cases probe <;> decide
  | kill probe => cases probe <;> simp [stepsLeft]
  | gpioInit | gpioCleanup | handlerCleanup => simp only [stepsLeft]; omega
  | exiting => exact absurd rfl hpc
  | _ => decide

namespace Process

variable (proc : Process)

theorem afterInit_stepsLeft : proc.afterInit.stepsLeft ≤ 15 := by
  rcases proc.afterInit_cases with ⟨h, -⟩ | ⟨h | h, -⟩ <;> rw [h] <;> decide

theorem answer_first_stepsLeft (status : InstanceStatus) :
    (proc.answer .first status).pc.stepsLeft ≤ 31 := by
  rw [answer_pc]
  dsimp only
  split
  next => exact proc.afterInit_stepsLeft.trans (by decide)
  next => exact le_rfl

theorem answer_second_stepsLeft (status : InstanceStatus) :
    (proc.answer .second status).pc.stepsLeft ≤ 12 := by
  rw [answer_pc]
  dsimp only
  split <;> decide

theorem afterBatteryLevel_stepsLeft : proc.afterBatteryLevel.stepsLeft ≤ 11 := by
  rcases proc.afterBatteryLevel_cases with h | h <;> rw [h] <;> decide

theorem deleteRocpmd_stepsLeft : proc.deleteRocpmd.pc.stepsLeft ≤ 5 := by
  rcases proc.deleteRocpmd_pc with ⟨h, -⟩ | ⟨h, -⟩ <;> rw [h] <;> decide

theorem handler_stepsLeft : proc.handler.pc.stepsLeft ≤ 14 := by
  rcases proc.handler_pc with ⟨h, -⟩ | ⟨h, -⟩ | h <;> rw [h]
  · exact le_rfl
  · decide
  · decide

/-- The handlers that have not run yet. -/
def handlersLeft : ℕ :=
  proc.installed.countP fun entry => entry.2 = .handler && entry.1 ∉ proc.masked

def stepsLeft : ℕ := proc.pc.stepsLeft + 15 * proc.handlersLeft

variable {proc}

theorem Keeps.handlersLeft_eq {moved : Process} (hkeeps : proc.Keeps moved) :
    moved.handlersLeft = proc.handlersLeft := by
  unfold handlersLeft
  rcases hkeeps.installed with h | h <;> rw [h, hkeeps.masked]
  rw [List.countP_append]
  rfl

theorem stepsLeft_exiting (proc : Process) (hpc : proc.pc = .fork ∨ proc.pc = .forkAgain) :
    (proc.goto .exiting).stepsLeft + 1 ≤ proc.stepsLeft := by
  have hfork : proc.pc.stepsLeft = 2 := by rcases hpc with h | h <;> rw [h] <;> rfl
  have hexits : (proc.goto .exiting).stepsLeft = 1 + 15 * proc.handlersLeft := rfl
  rw [hexits, stepsLeft, hfork]
  omega

theorem stepsLeft_afterBatteryLevel (proc : Process) (hpc : proc.pc = .batteryLevel) :
    (proc.goto proc.afterBatteryLevel).stepsLeft + 1 ≤ proc.stepsLeft := by
  have hless := proc.afterBatteryLevel_stepsLeft
  have hasking : ProcessPc.batteryLevel.stepsLeft = 12 := rfl
  have hanswered : (proc.goto proc.afterBatteryLevel).stepsLeft =
      proc.afterBatteryLevel.stepsLeft + 15 * proc.handlersLeft := rfl
  rw [hanswered, stepsLeft, hpc]
  omega

theorem deleteRocpmd_keeps (proc : Process) : proc.Keeps proc.deleteRocpmd := by
  unfold deleteRocpmd
  split <;> exact ⟨rfl, rfl, .inl rfl⟩

theorem stepsLeft_deleteRocpmd (proc : Process) (hpc : proc.pc = .loop) :
    proc.deleteRocpmd.stepsLeft + 1 ≤ proc.stepsLeft := by
  have hleaves := proc.deleteRocpmd_stepsLeft
  have hloop : ProcessPc.loop.stepsLeft = 6 := rfl
  rw [stepsLeft, stepsLeft, proc.deleteRocpmd_keeps.handlersLeft_eq, hpc]
  omega

/-- A handler that starts to run is one of those that have not. -/
theorem handlersLeft_of_handled {sig : Signal} (hunmasked : sig ∉ proc.masked)
    (hinstalled : dispositionAfter proc.installed sig = .handler) (pc : ProcessPc) :
    ({ proc with masked := sig :: proc.masked, pc := pc } : Process).handlersLeft + 1 ≤
      proc.handlersLeft := by
  obtain ⟨first, rest, hsplit, -⟩ : ∃ first rest, proc.installed.reverse =
      first ++ (sig, .handler) :: rest ∧ ∀ entry ∈ first, sig != entry.1 := by
    rw [← List.lookup_eq_some_iff]
    unfold dispositionAfter at hinstalled
    cases hlookup : proc.installed.reverse.lookup sig with
    | none => rw [hlookup] at hinstalled; cases hinstalled
    | some disposition => rw [hlookup] at hinstalled; exact congrArg some hinstalled
  -- the entry that has just been found counted before, and every other one counts no more
  have hfewer : ∀ entries : List (Signal × Disposition),
      (entries.countP fun entry =>
        entry.2 = .handler && entry.1 ∉ sig :: proc.masked) ≤
      entries.countP fun entry => entry.2 = .handler && entry.1 ∉ proc.masked := by
    intro entries
    refine List.countP_mono_left fun entry _ h => ?_
    simp_all
  have hfirst := hfewer first
  have hrest := hfewer rest
  simp only [handlersLeft]
  rw [← List.countP_reverse, ← List.countP_reverse (l := proc.installed), hsplit,
    List.countP_append, List.countP_append, List.countP_cons_of_neg (by simp),
    List.countP_cons_of_pos (by simp [hunmasked])]
  omega

end Process

/-! ## The steps of a process -/

namespace System

variable {s next : System} {p : ℕ} {proc : Process} {ok : Bool}

/-- What a process still has to do, if it is there. -/
def stepsLeft (s : System) (p : ℕ) : ℕ := ((s.procs p).map Process.stepsLeft).getD 0

theorem stepsLeft_eq (hproc : s.procs p = some proc) : s.stepsLeft p = proc.stepsLeft := by
  rw [stepsLeft, hproc]
  rfl

theorem access_stepsLeft (probe : Probe) (ok : Bool) :
    (s.access proc probe ok).pc.stepsLeft + 1 ≤ (ProcessPc.access probe).stepsLeft := by
  unfold access
  cases probe with
  | first =>
      have hanswer := proc.answer_first_stepsLeft
      split_ifs
      · exact (Nat.succ_le_succ (hanswer _)).trans (by decide)
      · exact (Nat.succ_le_succ (hanswer _)).trans (by decide)
      · exact le_rfl
  | second =>
      have hanswer := proc.answer_second_stepsLeft
      split_ifs
      · exact (Nat.succ_le_succ (hanswer _)).trans (by decide)
      · exact (Nat.succ_le_succ (hanswer _)).trans (by decide)
      · exact le_rfl

theorem kill_stepsLeft (probe : Probe) (pid : Int) (other : Bool) :
    (s.kill proc probe pid other).pc.stepsLeft + 1 ≤ (ProcessPc.kill probe pid).stepsLeft := by
  unfold kill
  cases probe with
  | first => exact Nat.succ_le_succ (proc.answer_first_stepsLeft _)
  | second => exact Nat.succ_le_succ (proc.answer_second_stepsLeft _)

/-- Every step brings a process closer to its end. -/
theorem advance_pc_stepsLeft (hadvance : s.advance p proc ok = some next) :
    ∀ moved ∈ next.procs p, moved.pc.stepsLeft + 1 ≤ proc.pc.stepsLeft := by
  have hput : ∀ (base : System) (moved : Process),
      moved.pc.stepsLeft + 1 ≤ proc.pc.stepsLeft →
      ∀ other ∈ (base.put p moved).procs p, other.pc.stepsLeft + 1 ≤ proc.pc.stepsLeft := by
    intro base moved hless other hother
    rw [put_procs_self] at hother
    obtain rfl := Option.some.inj hother
    exact hless
  have hexits : ∀ (base : System) (moved : Process), moved.pc = .exiting → proc.pc ≠ .exiting →
      ∀ other ∈ (base.put p moved).procs p, other.pc.stepsLeft + 1 ≤ proc.pc.stepsLeft := by
    intro base moved hmoved hpc
    refine hput base moved ?_
    rw [hmoved]
    exact ProcessPc.stepsLeft_exiting_lt hpc
  unfold advance at hadvance
  split at hadvance <;> try obtain rfl := Option.some.inj hadvance
  next hpc =>
    refine hput s _ ?_
    rcases proc.boot_pc ok with h | h <;> rw [h, hpc] <;> decide
  next hpc =>
    refine hput s _ ?_
    rcases proc.loadConfig_pc ok with h | h <;> rw [h, hpc] <;> decide
  next probe hpc => exact hput s _ (by rw [hpc]; exact s.access_stepsLeft probe ok)
  next probe hpc => exact hput s _ (by rw [hpc]; cases probe <;> exact le_rfl)
  next probe pid hpc => exact hput s _ (by rw [hpc]; exact s.kill_stepsLeft probe pid ok)
  next op rest hpc =>
    refine hput s _ ?_
    rw [hpc]
    simp only [Process.goto]
    split
    · exact le_rfl
    · exact (Nat.succ_le_succ proc.afterInit_stepsLeft).trans (by simp [ProcessPc.stepsLeft])
  next hpc =>
    refine hput _ _ ?_
    rw [hpc]
    exact Nat.succ_le_succ proc.afterInit_stepsLeft
  next hpc =>
    split at hadvance
    next => cases hadvance
    next =>
      obtain rfl := Option.some.inj hadvance
      refine hput s _ ?_
      rw [hpc]
      exact Nat.succ_le_succ proc.afterBatteryLevel_stepsLeft
  next hpc => exact hput s _ (by rw [hpc]; exact le_rfl)
  next hpc =>
    refine hput s _ ?_
    rw [hpc, proc.decide_pc]
    split
    · exact le_rfl
    · decide
  next op rest hpc =>
    refine hput _ _ ?_
    rw [hpc]
    simp only [Process.goto]
    split
    · exact le_rfl
    · simp [ProcessPc.stepsLeft]
  next hpc => exact hexits s _ rfl (by rw [hpc]; simp)
  next hpc =>
    refine hput s _ ?_
    rcases proc.newSession_pc ok with h | h <;> rw [h, hpc] <;> decide
  next hpc =>
    unfold openLock
    split
    next => exact hexits s _ rfl (by rw [hpc]; simp)
    next => exact hput _ _ (by rw [hpc]; exact le_rfl)
  next hpc =>
    unfold lock
    split
    next => exact hexits s _ rfl (by rw [hpc]; simp)
    next =>
      split
      next => exact hexits s _ rfl (by rw [hpc]; simp)
      next => exact hput _ _ (by rw [hpc]; exact le_rfl)
  next hpc => exact hput _ _ (by rw [hpc]; exact le_rfl)
  next hpc => exact hput _ _ (by rw [hpc]; exact le_rfl)
  next hpc =>
    refine hput s _ ?_
    rw [hpc, Process.goto]
    dsimp only
    split <;> decide
  next hpc => exact hput s _ (by rw [hpc, proc.newLog_pc ok]; decide)
  next hpc => exact hput s _ (by rw [hpc]; exact Nat.succ_le_succ proc.handler_stepsLeft)
  next op rest hpc =>
    refine hput _ _ ?_
    rw [hpc]
    simp only [Process.goto]
    split
    · exact le_rfl
    · simp [ProcessPc.stepsLeft]
  next hpc => exact hput s _ (by rw [hpc]; exact le_rfl)
  next hpc =>
    refine hput s _ ?_
    rw [hpc]
    exact Nat.succ_le_succ (Process.deleteRocpmd_stepsLeft _)
  next hpc => exact hput s _ (by rw [hpc]; exact le_rfl)
  next hpc => exact hput _ _ (by rw [hpc]; exact le_rfl)
  next hpc => exact hput _ _ (by rw [hpc]; exact le_rfl)
  next hpc => exact hput _ _ (by rw [hpc]; exact le_rfl)
  next =>
    intro moved hmoved
    rw [remove_procs_self] at hmoved
    cases hmoved
  all_goals cases hadvance

/-- A signal is ignored, ends a process, or starts a handler that does not run yet. -/
theorem signal_cases {sig : Signal} (hsignal : s.signal p proc sig = some next) :
    next = s ∨ next = s.remove p ∨
      sig ∉ proc.masked ∧ dispositionAfter proc.installed sig = .handler ∧
        next = s.put p { proc with masked := sig :: proc.masked, pc := .handler } := by
  unfold System.signal at hsignal
  split at hsignal
  next => cases hsignal
  next hunmasked =>
    split at hsignal
    next => exact .inr (.inl (Option.some.inj hsignal).symm)
    next hinstalled => exact .inr (.inr ⟨hunmasked, hinstalled, (Option.some.inj hsignal).symm⟩)
    next => exact .inl (Option.some.inj hsignal).symm

@[simp] theorem stepsLeft_put (s : System) (p : ℕ) (proc : Process) :
    (s.put p proc).stepsLeft p = proc.stepsLeft :=
  stepsLeft_eq (put_procs_self s p proc)

@[simp] theorem stepsLeft_remove (s : System) (p : ℕ) : (s.remove p).stepsLeft p = 0 := by
  rw [stepsLeft, remove_procs_self]
  rfl

theorem stepsLeft_congr {base : System} (hprocs : base.procs p = s.procs p) :
    base.stepsLeft p = s.stepsLeft p := by
  rw [stepsLeft, hprocs, stepsLeft]

theorem stepsLeft_put_of_ne (s : System) {p q : ℕ} (proc : Process) (hne : q ≠ p) :
    (s.put p proc).stepsLeft q = s.stepsLeft q :=
  stepsLeft_congr (put_procs_of_ne s proc hne)

theorem stepsLeft_remove_of_ne (s : System) {p q : ℕ} (hne : q ≠ p) :
    (s.remove p).stepsLeft q = s.stepsLeft q :=
  stepsLeft_congr (remove_procs_of_ne s hne)

theorem advance_stepsLeft (hproc : s.procs p = some proc)
    (hadvance : s.advance p proc ok = some next) : 1 + next.stepsLeft p ≤ s.stepsLeft p := by
  rw [stepsLeft_eq hproc, Process.stepsLeft]
  cases hmoved : next.procs p with
  | none =>
      rw [stepsLeft, hmoved]
      have hpos := proc.pc.stepsLeft_pos
      simp only [Option.map_none, Option.getD_none]
      omega
  | some moved =>
      have hpc := advance_pc_stepsLeft hadvance moved hmoved
      have hhandlers := (advance_keeps hadvance moved hmoved).handlersLeft_eq
      rw [stepsLeft_eq hmoved, Process.stepsLeft, hhandlers]
      omega

/-! ## The steps of the system -/

theorem start_handlersLeft (opts : CmdlineOptions) (conf : Config) :
    (Process.start opts conf).handlersLeft = 3 := rfl

/-- No process has more handlers before it than it started with. -/
def HandlersBounded (s : System) : Prop := s.Each fun proc => proc.handlersLeft ≤ 3

theorem signal_of_step {sig : Signal} (hstep : systemMachine.step s (.signal p sig) = some next) :
    ∃ proc, s.procs p = some proc ∧ s.signal p proc sig = some next :=
  Option.bind_eq_some_iff.mp hstep

theorem HandlersBounded.step {event : SystemEvent} (hbounded : s.HandlersBounded)
    (hstep : systemMachine.step s event = some next) : next.HandlersBounded := by
  cases event with
  | signal p sig =>
      obtain ⟨proc, hproc, hsignal⟩ := signal_of_step hstep
      rcases signal_cases hsignal with rfl | rfl | ⟨hunmasked, hinstalled, rfl⟩
      · exact hbounded
      · exact Each.remove hbounded p
      · have hfewer := Process.handlersLeft_of_handled hunmasked hinstalled .handler
        have hbefore := hbounded p proc hproc
        exact Each.put hbounded rfl p (by omega)
  | advance p ok =>
      obtain ⟨proc, hproc, hadvance⟩ := Option.bind_eq_some_iff.mp hstep
      intro q other hother
      rcases eq_or_ne q p with rfl | hne
      · rw [(advance_keeps hadvance other hother).handlersLeft_eq]
        exact hbounded q proc hproc
      · rw [(Advance.of_advance hadvance).procs_of_ne hne] at hother
        exact hbounded q other hother
  | start p opts conf =>
      cases Step.of_step hstep
      exact Each.put hbounded rfl p (start_handlersLeft opts conf).le
  | fork p child ok =>
      cases Step.of_step hstep with
      | @forkFailed _ _ proc hproc =>
          have hbefore := hbounded p proc hproc
          exact Each.put hbounded rfl p hbefore
      | @forked _ _ proc childPc hproc =>
          have hbefore := hbounded p proc hproc
          have hchild : (s.put child (proc.goto childPc)).HandlersBounded :=
            Each.put hbounded rfl child hbefore
          exact Each.put hchild rfl p hbefore
  | answered p =>
      cases Step.of_step hstep with
      | @answered _ proc hproc => exact Each.put hbounded rfl p (hbounded p proc hproc)
  | halt p =>
      cases Step.of_step hstep with
      | @halt _ proc hproc =>
          refine Each.put hbounded rfl p ?_
          rw [proc.deleteRocpmd_keeps.handlersLeft_eq]
          exact hbounded p proc hproc
  | crash p =>
      cases Step.of_step hstep
      exact Each.remove hbounded p

/-- Every step of a process is paid for by what it had left, or by its birth. -/
theorem step_paid {event : SystemEvent} (hbounded : s.HandlersBounded)
    (hstep : systemMachine.step s event = some next) (p : ℕ) :
    event.ownSteps p + next.stepsLeft p ≤ s.stepsLeft p + 81 * event.births p := by
  cases event with
  | start q opts conf =>
      cases Step.of_step hstep
      rcases eq_or_ne p q with rfl | hne
      · rw [stepsLeft_put, Process.stepsLeft, start_handlersLeft]
        simp [SystemEvent.ownSteps, SystemEvent.births, Process.start, ProcessPc.stepsLeft]
      · rw [stepsLeft_put_of_ne _ _ hne]
        simp [SystemEvent.ownSteps]
  | advance q ok =>
      obtain ⟨proc, hproc, hadvance⟩ := Option.bind_eq_some_iff.mp hstep
      rcases eq_or_ne p q with rfl | hne
      · simpa [SystemEvent.ownSteps, SystemEvent.births] using advance_stepsLeft hproc hadvance
      · rw [stepsLeft_congr ((Advance.of_advance hadvance).procs_of_ne hne)]
        simp [SystemEvent.ownSteps, hne.symm]
  | fork q child ok =>
      cases Step.of_step hstep with
      | @forkFailed _ _ proc hproc hpc =>
          rcases eq_or_ne p q with rfl | hne
          · have hexits := proc.stepsLeft_exiting hpc
            rw [stepsLeft_put, stepsLeft_eq hproc]
            simp only [SystemEvent.ownSteps, if_true]
            omega
          · rw [stepsLeft_put_of_ne _ _ hne]
            simp [SystemEvent.ownSteps, hne.symm]
      | @forked _ _ proc childPc hproc hfree hpc =>
          have hother : child ≠ q := by
            rintro rfl
            rw [hfree] at hproc
            cases hproc
          rcases eq_or_ne p q with rfl | hne
          · have hexits := proc.stepsLeft_exiting (hpc.imp And.left And.left)
            rw [stepsLeft_put, stepsLeft_eq hproc]
            simp only [SystemEvent.ownSteps, if_true]
            omega
          rw [stepsLeft_put_of_ne _ _ hne]
          rcases eq_or_ne p child with rfl | hnotChild
          · have hhandlers := hbounded q proc hproc
            have hchild : childPc.stepsLeft ≤ 12 := by
              rcases hpc with ⟨-, rfl⟩ | ⟨-, rfl⟩ <;> decide
            have hnew : (proc.goto childPc).stepsLeft =
                childPc.stepsLeft + 15 * proc.handlersLeft := rfl
            rw [stepsLeft_put, hnew]
            simp only [SystemEvent.ownSteps, SystemEvent.births, if_neg hother.symm, if_true]
            omega
          · rw [stepsLeft_put_of_ne _ _ hnotChild]
            simp [SystemEvent.ownSteps, hne.symm]
  | answered q =>
      cases Step.of_step hstep with
      | @answered _ proc hproc hasking =>
          rcases eq_or_ne p q with rfl | hne
          · have hless := proc.stepsLeft_afterBatteryLevel hasking.1
            rw [stepsLeft_put, stepsLeft_eq hproc]
            simp only [SystemEvent.ownSteps, if_true]
            omega
          · rw [stepsLeft_put_of_ne _ _ hne]
            simp [SystemEvent.ownSteps, hne.symm]
  | signal q sig =>
      obtain ⟨proc, hproc, hsignal⟩ := signal_of_step hstep
      rcases signal_cases hsignal with rfl | rfl | ⟨hunmasked, hinstalled, rfl⟩
      · simp [SystemEvent.ownSteps]
      · rcases eq_or_ne p q with rfl | hne
        · simp [SystemEvent.ownSteps]
        · rw [stepsLeft_remove_of_ne _ hne]
          simp [SystemEvent.ownSteps]
      · rcases eq_or_ne p q with rfl | hne
        · have hfewer := Process.handlersLeft_of_handled hunmasked hinstalled .handler
          have hhandler : ProcessPc.handler.stepsLeft = 15 := rfl
          rw [stepsLeft_put, stepsLeft_eq hproc, Process.stepsLeft, Process.stepsLeft]
          simp only [SystemEvent.ownSteps]
          omega
        · rw [stepsLeft_put_of_ne _ _ hne]
          simp [SystemEvent.ownSteps]
  | halt q =>
      cases Step.of_step hstep with
      | @halt _ proc hproc hpc =>
          rcases eq_or_ne p q with rfl | hne
          · have hleaves := proc.stepsLeft_deleteRocpmd hpc
            rw [stepsLeft_put, stepsLeft_eq hproc]
            simp only [SystemEvent.ownSteps, if_true]
            omega
          · rw [stepsLeft_put_of_ne _ _ hne]
            simp [SystemEvent.ownSteps, hne.symm]
  | crash q =>
      cases Step.of_step hstep
      rcases eq_or_ne p q with rfl | hne
      · simp [SystemEvent.ownSteps]
      · rw [stepsLeft_remove_of_ne _ hne]
        simp [SystemEvent.ownSteps]

/-- The next step of a process waits for no one, outside the loop and outside an exchange. -/
theorem exists_ownStep (hproc : s.procs p = some proc) (hpc : proc.pc ≠ .loop)
    (hasking : ¬ proc.Asking) : ∃ event next, (∀ q, event ≠ .answered q) ∧
      event.ownSteps p = 1 ∧ systemMachine.step s event = some next := by
  by_cases hfork : proc.pc = .fork ∨ proc.pc = .forkAgain
  · refine ⟨.fork p 0 false, s.put p (proc.goto .exiting), by simp, if_pos rfl, ?_⟩
    rcases hfork with h | h <;> simp [systemMachine, step, hproc, h, System.fork]
  · obtain ⟨next, hnext⟩ : ∃ next, s.advance p proc true = some next := by
      push Not at hfork
      unfold advance
      split <;> simp_all [Process.Asking]
    have hstep : systemMachine.step s (.advance p true) = some next := by
      simp [systemMachine, step, hproc, hnext]
    exact ⟨.advance p true, next, by simp, if_pos rfl, hstep⟩

/-- A query that asks a daemon makes no step by itself. -/
theorem step_advance_of_asking (hproc : s.procs p = some proc) (hasking : proc.Asking) (ok : Bool) :
    systemMachine.step s (.advance p ok) = none := by
  simp only [systemMachine, step, hproc, Option.bind_some, advance, hasking.1]
  exact if_pos hasking.2

/-- It goes on once the daemon lets it. -/
theorem step_answered (hproc : s.procs p = some proc) (hasking : proc.Asking) :
    systemMachine.step s (.answered p) = some (s.put p (proc.goto proc.afterBatteryLevel)) := by
  simp [systemMachine, step, hproc, hasking]

end System

/-- **Every process ends.** In every run of any number of processes, a process makes at most 81
steps of its own in each life: 36 for the longest way to its end, or into the loop of the daemon and
out of it, and 15 for each of the three signals it handles. Outside the loop it has a next step that
waits for no other process, unless it is asking a daemon for the level; what then follows is the end
of the exchange, or a signal. -/
theorem processes_end (stale : Option (List Char)) {events : List SystemEvent} {last : System}
    (hrun : systemMachine.run (.initial stale) events = some last) (p : ℕ) :
    Machine.total (SystemEvent.ownSteps p) events + last.stepsLeft p ≤
        81 * Machine.total (SystemEvent.births p) events ∧
      ∀ proc ∈ last.procs p,
        (proc.pc ≠ .loop → ¬ proc.Asking → ∃ event next, (∀ q, event ≠ .answered q) ∧
          event.ownSteps p = 1 ∧ systemMachine.step last event = some next) ∧
        (proc.Asking → (∀ ok, systemMachine.step last (.advance p ok) = none) ∧
          systemMachine.step last (.answered p) =
            some (last.put p (proc.goto proc.afterBatteryLevel))) := by
  constructor
  · have hbound := Machine.run_cost_le (fun s => s.stepsLeft p) (SystemEvent.ownSteps p)
      (fun event => 81 * event.births p)
      (fun _ _ _ hbounded hstep => System.HandlersBounded.step hbounded hstep)
      (fun _ _ _ hbounded hstep => System.step_paid hbounded hstep p)
      (fun _ _ hproc => absurd hproc (by simp [System.initial])) hrun
    rw [Machine.total_mul] at hbound
    have hnone : (System.initial stale).stepsLeft p = 0 := rfl
    omega
  · intro proc hproc
    refine ⟨System.exists_ownStep hproc, fun hasking => ⟨fun ok => ?_, ?_⟩⟩
    · exact System.step_advance_of_asking hproc hasking ok
    · exact System.step_answered hproc hasking

/-- A process that sets its pins up is interrupted, and ends 15 steps later. -/
theorem processes_end_interrupted : ∃ last,
    systemMachine.run (.initial none)
        (.start 10 ⟨true, false, false, false⟩ .shipped :: advances 10 5 ++ [.signal 10 .int] ++
          advances 10 15) = some last ∧
      last.procs 10 = none ∧ 20 + last.stepsLeft 10 ≤ 81 * 1 := by
  have hrun : ∃ last ∈ systemMachine.run (.initial none)
      (.start 10 ⟨true, false, false, false⟩ .shipped :: advances 10 5 ++ [.signal 10 .int] ++
        advances 10 15), (last.procs 10).isNone = true := by decide +kernel
  obtain ⟨last, hlast, hgone⟩ := hrun
  exact ⟨last, hlast, Option.isNone_iff_eq_none.mp hgone, (processes_end none hlast 10).1⟩

end Rocpmd

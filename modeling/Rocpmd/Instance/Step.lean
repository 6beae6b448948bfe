import Rocpmd.Instance.System

/-!
# What a step of the system can do

The inversion principle of the system, and where the functions of a process can leave its control.
-/

namespace Rocpmd

open Foundation

namespace System

/-- Every step of the system, by the event and the outcome it is a step of. -/
inductive Step (s : System) : SystemEvent → System → Prop
  | start {p : ℕ} (opts : CmdlineOptions) (conf : Config) (hfree : s.procs p = none) :
      Step s (.start p opts conf) (s.put p (.start opts conf))
  | advance {p : ℕ} {proc : Process} {ok : Bool} {next : System} (hproc : s.procs p = some proc)
      (hadvance : s.advance p proc ok = some next) : Step s (.advance p ok) next
  | forkFailed {p child : ℕ} {proc : Process} (hproc : s.procs p = some proc)
      (hpc : proc.pc = .fork ∨ proc.pc = .forkAgain) :
      Step s (.fork p child false) (s.put p (proc.goto .exiting))
  | forked {p child : ℕ} {proc : Process} {childPc : ProcessPc}
      (hproc : s.procs p = some proc) (hfree : s.procs child = none)
      (hpc : proc.pc = .fork ∧ childPc = .newSession ∨
        proc.pc = .forkAgain ∧ childPc = .openLock) :
      Step s (.fork p child true) ((s.put child (proc.goto childPc)).put p (proc.goto .exiting))
  | answered {p : ℕ} {proc : Process} (hproc : s.procs p = some proc) (hasking : proc.Asking) :
      Step s (.answered p) (s.put p (proc.goto proc.afterBatteryLevel))
  | terminated {p : ℕ} (sig : Signal) : Step s (.signal p sig) (s.remove p)
  | handled {p : ℕ} {proc : Process} (sig : Signal) (hproc : s.procs p = some proc)
      (hinstalled : dispositionAfter proc.installed sig = .handler) :
      Step s (.signal p sig) (s.put p { proc with masked := sig :: proc.masked, pc := .handler })
  | ignored {p : ℕ} (sig : Signal) : Step s (.signal p sig) s
  | halt {p : ℕ} {proc : Process} (hproc : s.procs p = some proc) (hpc : proc.pc = .loop) :
      Step s (.halt p) (s.put p proc.deleteRocpmd)
  | crash {p : ℕ} : Step s (.crash p) (s.remove p)

variable {s next : System} {event : SystemEvent}

theorem step_of_fork {p child : ℕ} {proc : Process} {childPc : ProcessPc} {ok : Bool}
    (hproc : s.procs p = some proc)
    (hpc : proc.pc = .fork ∧ childPc = .newSession ∨ proc.pc = .forkAgain ∧ childPc = .openLock)
    (hfork : s.fork p child proc childPc ok = some next) : Step s (.fork p child ok) next := by
  unfold System.fork at hfork
  split at hfork
  next hok =>
    subst hok
    obtain rfl := Option.some.inj hfork
    exact .forkFailed hproc (hpc.imp And.left And.left)
  next hok =>
    split at hfork
    next => cases hfork
    next hfree =>
      obtain rfl := Option.some.inj hfork
      obtain rfl : ok = true := eq_true_of_ne_false hok
      exact .forked hproc (by simpa using (not_or.mp hfree).2) hpc

theorem step_of_signal {p : ℕ} {proc : Process} {sig : Signal} (hproc : s.procs p = some proc)
    (hsignal : s.signal p proc sig = some next) : Step s (.signal p sig) next := by
  unfold System.signal at hsignal
  split at hsignal
  next => cases hsignal
  next =>
    split at hsignal
    next =>
      obtain rfl := Option.some.inj hsignal
      exact .terminated sig
    next hinstalled =>
      obtain rfl := Option.some.inj hsignal
      exact .handled sig hproc hinstalled
    next =>
      obtain rfl := Option.some.inj hsignal
      exact .ignored sig

theorem Step.of_step (hstep : systemMachine.step s event = some next) : Step s event next := by
  simp only [systemMachine] at hstep
  cases event with
  | start p opts conf =>
      simp only [step] at hstep
      split at hstep
      next => cases hstep
      next hfree =>
        obtain rfl := Option.some.inj hstep
        exact .start opts conf (by simpa using (not_or.mp hfree).2)
  | advance p ok =>
      obtain ⟨proc, hproc, hadvance⟩ := Option.bind_eq_some_iff.mp hstep
      exact .advance hproc hadvance
  | fork p child ok =>
      obtain ⟨proc, hproc, hfork⟩ := Option.bind_eq_some_iff.mp hstep
      split at hfork
      next hpc => exact step_of_fork hproc (.inl ⟨hpc, rfl⟩) hfork
      next hpc => exact step_of_fork hproc (.inr ⟨hpc, rfl⟩) hfork
      next => cases hfork
  | answered p =>
      obtain ⟨proc, hproc, hanswered⟩ := Option.bind_eq_some_iff.mp hstep
      split at hanswered
      next hasking =>
        obtain rfl := Option.some.inj hanswered
        exact .answered hproc hasking
      next => cases hanswered
  | signal p sig =>
      obtain ⟨proc, hproc, hsignal⟩ := Option.bind_eq_some_iff.mp hstep
      exact step_of_signal hproc hsignal
  | halt p =>
      obtain ⟨proc, hproc, hhalt⟩ := Option.bind_eq_some_iff.mp hstep
      split at hhalt
      next hpc =>
        obtain rfl := Option.some.inj hhalt
        exact .halt hproc hpc
      next => cases hhalt
  | crash p =>
      obtain ⟨proc, hproc, rfl⟩ := Option.map_eq_some_iff.mp hstep
      exact .crash

/-! ## Processes -/

@[simp] theorem put_procs_self (s : System) (p : ℕ) (proc : Process) :
    (s.put p proc).procs p = some proc := by
  simp [put]

@[simp] theorem remove_procs_self (s : System) (p : ℕ) : (s.remove p).procs p = none := by
  simp [remove]

theorem put_procs_of_ne (s : System) {p q : ℕ} (proc : Process) (hne : q ≠ p) :
    (s.put p proc).procs q = s.procs q := by
  simp [put, hne]

theorem remove_procs_of_ne (s : System) {p q : ℕ} (hne : q ≠ p) :
    (s.remove p).procs q = s.procs q := by
  simp [remove, hne]

/-- Whoever is there after a process changed is that process or was there before. -/
theorem put_procs_cases {s : System} {p q : ℕ} {moved other : Process}
    (hother : (s.put p moved).procs q = some other) :
    q = p ∧ other = moved ∨ q ≠ p ∧ s.procs q = some other := by
  rcases eq_or_ne q p with rfl | hne
  · rw [put_procs_self] at hother
    exact .inl ⟨rfl, (Option.some.inj hother).symm⟩
  · rw [put_procs_of_ne s moved hne] at hother
    exact .inr ⟨hne, hother⟩

/-- No one appears when a process ends. -/
theorem procs_of_remove {s : System} {p q : ℕ} {other : Process}
    (hother : (s.remove p).procs q = some other) : s.procs q = some other := by
  rcases eq_or_ne q p with rfl | hne
  · simp at hother
  · rwa [remove_procs_of_ne s hne] at hother

/-- Every process satisfies a predicate. -/
def Each (s : System) (P : Process → Prop) : Prop := ∀ p, ∀ proc ∈ s.procs p, P proc

/-- One process changes, and the others stay as they are. -/
theorem Each.put {s base : System} {P : Process → Prop} (heach : s.Each P)
    (hprocs : base.procs = s.procs) (p : ℕ) {moved : Process} (hmoved : P moved) :
    (base.put p moved).Each P := by
  intro q other hother
  rcases put_procs_cases hother with ⟨-, rfl⟩ | ⟨-, hbefore⟩
  · exact hmoved
  · rw [hprocs] at hbefore
    exact heach q other hbefore

theorem Each.remove {s : System} {P : Process → Prop} (heach : s.Each P) (p : ℕ) :
    (s.remove p).Each P := fun q other hother =>
  heach q other (procs_of_remove hother)

@[simp] theorem put_initialised (s : System) (p : ℕ) (proc : Process) :
    (s.put p proc).initialised = s.initialised := rfl

section Procs

variable (s : System) (p : ℕ) (proc : Process)

theorem setContent_procs (content : List Char) :
    (s.setContent proc content).procs = s.procs := by
  unfold setContent
  split <;> rfl

theorem setContent_initialised (content : List Char) :
    (s.setContent proc content).initialised = s.initialised := by
  unfold setContent
  split <;> rfl

theorem giveBack_procs (op : GpioOp) : (s.giveBack op).procs = s.procs := by
  cases op <;> rfl

theorem giveBack_file (op : GpioOp) : (s.giveBack op).file = s.file := by
  cases op <;> rfl

theorem unlock_procs : (s.unlock p proc).procs = s.procs := by
  unfold unlock
  split <;> rfl

theorem unlock_initialised : (s.unlock p proc).initialised = s.initialised := by
  unfold unlock
  split <;> rfl

theorem unlock_content : (s.unlock p proc).file.content = s.file.content := by
  unfold unlock
  split <;> rfl

theorem closeLock_procs : (s.closeLock p proc).procs = s.procs := by
  unfold closeLock
  split <;> rfl

theorem closeLock_initialised : (s.closeLock p proc).initialised = s.initialised := by
  unfold closeLock
  split <;> rfl

theorem closeLock_content : (s.closeLock p proc).file.content = s.file.content := by
  unfold closeLock
  split <;> rfl

end Procs

end System

/-! ## Where the functions of a process lead -/

namespace Process

/-- The options of a process do not change, nor do the signals it holds back, and no handler is
installed after the start. -/
structure Keeps (proc moved : Process) : Prop where
  opts : moved.opts = proc.opts
  masked : moved.masked = proc.masked
  installed : moved.installed = proc.installed ∨ moved.installed = proc.installed ++ detachSignals

variable (proc : Process) (ok : Bool)

theorem boot_pc : (proc.boot ok).pc = .exiting ∨ (proc.boot ok).pc = .loadConfig := by
  unfold boot
  split <;> simp [goto]

theorem loadConfig_pc :
    (proc.loadConfig ok).pc = .exiting ∨ (proc.loadConfig ok).pc = .access .first := by
  unfold loadConfig
  split <;> simp [goto]

theorem afterInit_cases : proc.afterInit = .access .second ∧ proc.opts.queries = true ∨
    (proc.afterInit = .powerOff ∨ proc.afterInit = .decide) ∧ proc.opts.queries = false := by
  unfold afterInit
  split
  next hqueries => exact .inl ⟨rfl, hqueries⟩
  next hqueries => split <;> simp [hqueries]

theorem afterBatteryLevel_cases :
    proc.afterBatteryLevel = .powerOff ∨ proc.afterBatteryLevel = .decide := by
  unfold afterBatteryLevel
  split <;> simp

theorem answer_pc (probe : Probe) (status : InstanceStatus) :
    (proc.answer probe status).pc =
      match probe with
      | .first =>
          if status = .processLives then proc.afterInit else .gpioInit (gpioInitOps proc.conf)
      | .second => if status = .lockfileNotReadable then .exiting else .batteryLevel := by
  cases probe <;> simp only [answer, goto] <;> split <;> rfl

theorem answer_conf (probe : Probe) (status : InstanceStatus) :
    (proc.answer probe status).conf = proc.conf := by
  cases probe <;> simp only [answer, goto] <;> split <;> rfl

theorem answer_keeps (probe : Probe) (status : InstanceStatus) :
    proc.Keeps (proc.answer probe status) := by
  cases probe <;> simp only [answer, goto] <;> split <;> exact ⟨rfl, rfl, .inl rfl⟩

/-- The points an answer can lead to. -/
theorem answer_cases (probe : Probe) (status : InstanceStatus) :
    (proc.answer probe status).pc = .access .second ∨
      (proc.answer probe status).pc = .powerOff ∨ (proc.answer probe status).pc = .decide ∨
      (proc.answer probe status).pc = .gpioInit (gpioInitOps proc.conf) ∨
      (proc.answer probe status).pc = .exiting ∨
      (proc.answer probe status).pc = .batteryLevel := by
  rw [answer_pc]
  cases probe with
  | first =>
      by_cases hlives : status = .processLives
      · rcases proc.afterInit_cases with ⟨h, _⟩ | ⟨h | h, _⟩ <;> simp [hlives, h]
      · simp [hlives]
  | second => by_cases hreadable : status = .lockfileNotReadable <;> simp [hreadable]

theorem decide_pc : proc.decide.pc =
    if proc.opts.optExit = true ∧ proc.rocpmdStatus ≠ some .processLives then
      .gpioCleanup (gpioCleanupOps proc.conf)
    else .fork := by
  unfold decide
  split <;> rfl

theorem newSession_pc :
    (proc.newSession ok).pc = .exiting ∨ (proc.newSession ok).pc = .forkAgain := by
  unfold newSession
  split <;> simp [goto]

theorem newSession_conf : (proc.newSession ok).conf = proc.conf := by
  unfold newSession
  split <;> rfl

theorem newLog_pc : (proc.newLog ok).pc = .loop := by
  unfold newLog
  split <;> rfl

theorem newLog_lockFd : (proc.newLog ok).lockFd = proc.lockFd := by
  unfold newLog
  split <;> rfl

theorem deleteRocpmd_pc :
    proc.deleteRocpmd.pc = .deleteLog ∧ proc.rocpmd ≠ .unassigned ∨
      proc.deleteRocpmd.pc = .exiting ∧ proc.rocpmd = .unassigned := by
  unfold deleteRocpmd
  split
  next h => exact .inl ⟨rfl, h⟩
  next h => exact .inr ⟨rfl, not_not.mp h⟩

theorem handler_pc :
    proc.handler.pc = .handlerCleanup (gpioCleanupOps proc.conf) ∧ proc.gConf ≠ .unassigned ∨
      proc.handler.pc = .deleteLog ∧ proc.rocpmd ≠ .unassigned ∨ proc.handler.pc = .exiting := by
  unfold handler
  split
  next h => exact .inl ⟨rfl, h⟩
  next => exact .inr (proc.deleteRocpmd_pc.imp id And.left)

/-- The last probe has been made, and its answer leads to `gpio_cleanup`. -/
def committed (proc : Process) : Bool :=
  proc.opts.optExit && proc.rocpmdStatus != some .processLives &&
    match proc.pc with
    | .gpioInit _ => !proc.opts.queries
    | .batteryLevel | .powerOff | .decide => true
    | _ => false

end Process

/-! ## Steps of one process -/

namespace System

/-- The answer that a probe gives in its next step, if it gives one. -/
def probeAnswer (s : System) (proc : Process) (ok : Bool) : Option (Probe × InstanceStatus) :=
  match proc.pc with
  | .access probe =>
      if s.file.name = none then some (probe, .lockfileMissing)
      else if ok = false then some (probe, .lockfileNotReadable)
      else none
  | .kill probe pid => some (probe, if s.alive pid ok then .processLives else .processDead)
  | _ => none

/-- Every step of a process by itself, by what it does. -/
inductive Advance (s : System) (p : ℕ) (proc : Process) (ok : Bool) : System → Prop
  | exits {next : Process} (hnext : next.pc = .exiting) : Advance s p proc ok (s.put p next)
  | boots {next : Process} (hpc : proc.pc = .boot) (hnext : next.pc = .loadConfig) :
      Advance s p proc ok (s.put p next)
  | loads {next : Process} (hpc : proc.pc = .loadConfig) (hnext : next.pc = .access .first) :
      Advance s p proc ok (s.put p next)
  | finds {probe : Probe} (hpc : proc.pc = .access probe) :
      Advance s p proc ok (s.put p (proc.goto (.readPid probe)))
  | reads {probe : Probe} (pid : Int) (hpc : proc.pc = .readPid probe) :
      Advance s p proc ok (s.put p (proc.goto (.kill probe pid)))
  | answers {probe : Probe} {status : InstanceStatus}
      (hanswer : s.probeAnswer proc ok = some (probe, status)) :
      Advance s p proc ok (s.put p (proc.answer probe status))
  | initStep {op : GpioOp} {rest : List GpioOp} (hpc : proc.pc = .gpioInit (op :: rest)) :
      Advance s p proc ok (s.put p (proc.goto (.gpioInit rest)))
  | initFails {op : GpioOp} {rest : List GpioOp} (hpc : proc.pc = .gpioInit (op :: rest))
      (hok : ok = false) : Advance s p proc ok (s.put p (proc.goto proc.afterInit))
  | initialises (hpc : proc.pc = .gpioInit []) :
      Advance s p proc ok
        ({ s with initialised := proc.pins :: s.initialised }.put p (proc.goto proc.afterInit))
  | shows (hpc : proc.pc = .batteryLevel) :
      Advance s p proc ok (s.put p (proc.goto proc.afterBatteryLevel))
  | powersOff (hpc : proc.pc = .powerOff) : Advance s p proc ok (s.put p (proc.goto .decide))
  | decides (hpc : proc.pc = .decide) : Advance s p proc ok (s.put p proc.decide)
  | cleans {op : GpioOp} {rest : List GpioOp} {after : ProcessPc}
      (hpc : proc.pc = .gpioCleanup (op :: rest))
      (hafter : after = .gpioCleanup rest ∨ after = .exiting) :
      Advance s p proc ok ((s.giveBack op).put p (proc.goto after))
  | detaches {next : Process} (hpc : proc.pc = .newSession) (hnext : next.pc = .forkAgain)
      (hconf : next.conf = proc.conf) : Advance s p proc ok (s.put p next)
  | opens (hpc : proc.pc = .openLock) :
      Advance s p proc ok ({ s with file := (s.file.openCreate []).2 }.put p
        { proc with lockFd := some (s.file.openCreate []).1, pc := .lock })
  | locks {inode : ℕ} {file : LockFile ℕ (List Char)} (hpc : proc.pc = .lock)
      (hlockFd : proc.lockFd = some inode) (hlock : s.file.setLock p inode = some file) :
      Advance s p proc ok ({ s with file := file }.put p (proc.goto .truncate))
  | truncates (hpc : proc.pc = .truncate) :
      Advance s p proc ok ((s.setContent proc []).put p (proc.goto .writePid))
  | writesPid {written : System} (hpc : proc.pc = .writePid)
      (hwritten : written = s ∨ written = s.setContent proc (pidText p)) :
      Advance s p proc ok (written.put p (proc.goto .newServer))
  | serves {next : Process} (hpc : proc.pc = .newServer ∨ proc.pc = .newLog)
      (hnext : next.pc = .newLog ∨ next.pc = .loop) (hlockFd : next.lockFd = proc.lockFd) :
      Advance s p proc ok (s.put p next)
  | handles (hpc : proc.pc = .handler) : Advance s p proc ok (s.put p proc.handler)
  | handlerCleans {op : GpioOp} {rest : List GpioOp} {after : ProcessPc}
      (hpc : proc.pc = .handlerCleanup (op :: rest))
      (hafter : after = .handlerCleanup rest ∨ after = .deleteConf) :
      Advance s p proc ok ((s.giveBack op).put p (proc.goto after))
  | deletes {next : Process}
      (hpc : proc.pc = .handlerCleanup [] ∨ proc.pc = .deleteConf ∨ proc.pc = .deleteLog)
      (hnext : next.pc = .deleteConf ∨ next.pc = .deleteLog ∨ next.pc = .unlock) :
      Advance s p proc ok (s.put p next)
  | unlocks (hpc : proc.pc = .unlock) :
      Advance s p proc ok ((s.unlock p proc).put p (proc.goto .closeLock))
  | closes {next : Process} (hpc : proc.pc = .closeLock) (hnext : next.pc = .unlinkLock) :
      Advance s p proc ok ((s.closeLock p proc).put p next)
  | unlinks {next : Process} (hpc : proc.pc = .unlinkLock) (hnext : next.pc = .exiting) :
      Advance s p proc ok ({ s with file := s.file.unlink }.put p next)
  | ends (hpc : proc.pc = .exiting) : Advance s p proc ok (s.remove p)

variable {s next : System} {p : ℕ} {proc : Process} {ok : Bool}

theorem advance_access {probe : Probe} (hpc : proc.pc = .access probe) :
    Advance s p proc ok (s.put p (s.access proc probe ok)) := by
  unfold access
  split
  next hmissing => exact .answers (by simp [probeAnswer, hpc, hmissing])
  next hname =>
    split
    next hok => exact .answers (by simp [probeAnswer, hpc, hname, hok])
    next => exact .finds hpc

theorem advance_openLock (hpc : proc.pc = .openLock) :
    Advance s p proc ok (s.openLock p proc ok) := by
  unfold openLock
  split
  next => exact .exits rfl
  next => exact .opens hpc

theorem advance_lock (hpc : proc.pc = .lock) : Advance s p proc ok (s.lock p proc ok) := by
  unfold lock
  split
  next => exact .exits rfl
  next file hgranted =>
    split
    next => exact .exits rfl
    next =>
      obtain ⟨inode, hlockFd, hlock⟩ := Option.bind_eq_some_iff.mp hgranted
      exact .locks hpc hlockFd hlock

theorem Advance.of_advance (hadvance : s.advance p proc ok = some next) :
    Advance s p proc ok next := by
  unfold advance at hadvance
  split at hadvance <;> try obtain rfl := Option.some.inj hadvance
  next hpc =>
    rcases proc.boot_pc ok with h | h
    · exact .exits h
    · exact .boots hpc h
  next hpc =>
    rcases proc.loadConfig_pc ok with h | h
    · exact .exits h
    · exact .loads hpc h
  next hpc => exact advance_access hpc
  next hpc => exact .reads _ hpc
  next probe pid hpc => exact .answers (by simp [probeAnswer, hpc])
  next hpc =>
    cases ok with
    | true => exact .initStep hpc
    | false => exact .initFails hpc rfl
  next hpc => exact .initialises hpc
  next hpc =>
    split at hadvance
    next => cases hadvance
    next =>
      obtain rfl := Option.some.inj hadvance
      exact .shows hpc
  next hpc => exact .powersOff hpc
  next hpc => exact .decides hpc
  next hpc => exact .cleans hpc (by cases ok <;> simp)
  next => exact .exits rfl
  next hpc =>
    rcases proc.newSession_pc ok with h | h
    · exact .exits h
    · exact .detaches hpc h (proc.newSession_conf ok)
  next hpc => exact advance_openLock hpc
  next hpc => exact advance_lock hpc
  next hpc => exact .truncates hpc
  next hpc => exact .writesPid hpc (by cases ok <;> simp)
  next hpc =>
    cases ok with
    | true => exact .serves (.inl hpc) (.inl rfl) rfl
    | false => exact .exits rfl
  next hpc => exact .serves (.inr hpc) (.inr (proc.newLog_pc ok)) (proc.newLog_lockFd ok)
  next hpc => exact .handles hpc
  next hpc => exact .handlerCleans hpc (by cases ok <;> simp)
  next hpc => exact .deletes (.inl hpc) (.inl rfl)
  next hpc =>
    rcases { proc with gConf := .deleted }.deleteRocpmd_pc with ⟨h, _⟩ | ⟨h, _⟩
    · exact .deletes (.inr (.inl hpc)) (.inr (.inl h))
    · exact .exits h
  next hpc => exact .deletes (.inr (.inr hpc)) (.inr (.inr rfl))
  next hpc => exact .unlocks hpc
  next hpc => exact .closes hpc rfl
  next hpc => exact .unlinks hpc rfl
  next hpc => exact .ends hpc
  all_goals cases hadvance

/-! ## What a step leaves alone -/

/-- A process steps by itself: the others are as they were. -/
theorem Advance.procs_of_ne (hadvance : Advance s p proc ok next) {q : ℕ} (hne : q ≠ p) :
    next.procs q = s.procs q := by
  cases hadvance with
  | cleans | handlerCleans => rw [put_procs_of_ne _ _ hne, giveBack_procs]
  | truncates => rw [put_procs_of_ne _ _ hne, setContent_procs]
  | writesPid _ hwritten =>
      rw [put_procs_of_ne _ _ hne]
      rcases hwritten with rfl | rfl
      · rfl
      · rw [setContent_procs]
  | unlocks => rw [put_procs_of_ne _ _ hne, unlock_procs]
  | closes => rw [put_procs_of_ne _ _ hne, closeLock_procs]
  | ends => exact remove_procs_of_ne s hne
  | _ => exact put_procs_of_ne _ _ hne

theorem access_keeps (s : System) (proc : Process) (probe : Probe) (ok : Bool) :
    proc.Keeps (s.access proc probe ok) := by
  unfold access
  split_ifs
  · exact proc.answer_keeps _ _
  · exact proc.answer_keeps _ _
  · exact ⟨rfl, rfl, .inl rfl⟩

theorem advance_keeps (hadvance : s.advance p proc ok = some next) :
    ∀ moved ∈ next.procs p, proc.Keeps moved := by
  have hput : ∀ (base : System) (moved : Process), proc.Keeps moved →
      ∀ other ∈ (base.put p moved).procs p, proc.Keeps other := by
    intro base moved hkeeps other hother
    rw [put_procs_self] at hother
    obtain rfl := Option.some.inj hother
    exact hkeeps
  have hsame : ∀ (base : System) (moved : Process), moved.opts = proc.opts →
      moved.masked = proc.masked → moved.installed = proc.installed →
      ∀ other ∈ (base.put p moved).procs p, proc.Keeps other :=
    fun base moved hopts hmasked hinstalled => hput base moved ⟨hopts, hmasked, .inl hinstalled⟩
  unfold advance at hadvance
  split at hadvance <;> try obtain rfl := Option.some.inj hadvance
  next =>
    refine hput s _ ?_
    unfold Process.boot
    split <;> exact ⟨rfl, rfl, .inl rfl⟩
  next =>
    refine hput s _ ?_
    unfold Process.loadConfig
    split <;> exact ⟨rfl, rfl, .inl rfl⟩
  next => exact hput s _ (s.access_keeps proc _ ok)
  next => exact hsame s _ rfl rfl rfl
  next => exact hput s _ (proc.answer_keeps _ _)
  next => exact hsame s _ rfl rfl rfl
  next => exact hsame _ _ rfl rfl rfl
  next =>
    split at hadvance
    next => cases hadvance
    next =>
      obtain rfl := Option.some.inj hadvance
      exact hsame s _ rfl rfl rfl
  next => exact hsame s _ rfl rfl rfl
  next =>
    refine hput s _ ?_
    unfold Process.decide
    split <;> exact ⟨rfl, rfl, .inl rfl⟩
  next => exact hsame _ _ rfl rfl rfl
  next => exact hsame s _ rfl rfl rfl
  next =>
    refine hput s _ ?_
    unfold Process.newSession
    split
    · exact ⟨rfl, rfl, .inl rfl⟩
    · exact ⟨rfl, rfl, .inr rfl⟩
  next =>
    unfold openLock
    split
    next => exact hsame s _ rfl rfl rfl
    next => exact hsame _ _ rfl rfl rfl
  next =>
    unfold lock
    split
    next => exact hsame s _ rfl rfl rfl
    next => split <;> exact hsame _ _ rfl rfl rfl
  next => exact hsame _ _ rfl rfl rfl
  next => exact hsame _ _ rfl rfl rfl
  next => exact hsame s _ rfl rfl rfl
  next =>
    refine hput s _ ?_
    unfold Process.newLog
    split <;> exact ⟨rfl, rfl, .inl rfl⟩
  next =>
    refine hput s _ ?_
    unfold Process.handler Process.deleteRocpmd
    split_ifs <;> exact ⟨rfl, rfl, .inl rfl⟩
  next => exact hsame _ _ rfl rfl rfl
  next => exact hsame s _ rfl rfl rfl
  next =>
    refine hput s _ ?_
    unfold Process.deleteRocpmd
    split <;> exact ⟨rfl, rfl, .inl rfl⟩
  next => exact hsame s _ rfl rfl rfl
  next => exact hsame _ _ rfl rfl rfl
  next => exact hsame _ _ rfl rfl rfl
  next => exact hsame _ _ rfl rfl rfl
  next =>
    intro moved hmoved
    rw [remove_procs_self] at hmoved
    cases hmoved
  all_goals cases hadvance

/-- Nothing changes the options a process was started with. -/
theorem advance_opts (hadvance : s.advance p proc ok = some next) :
    ∀ moved ∈ next.procs p, moved.opts = proc.opts :=
  fun moved hmoved => (advance_keeps hadvance moved hmoved).opts

end System

end Rocpmd

import Rocpmd.CommandLine
import Rocpmd.Instance.Step

/-!
# What processes were asked for

A process takes its options from the command line it was started with and hands them on to its
children. The power is cut, and the level read, only where a word of that command line asks for it.
-/

namespace Rocpmd

open Foundation

/-! ## Processes with their command lines -/

/-- Whether POSIXLY_CORRECT is set, and the words behind the name of the program. -/
structure Invocation where
  posixlyCorrect : Bool
  args : List Word

namespace Invocation

def parse (invocation : Invocation) : Except CommandLineEnd CommandLine :=
  CommandLine.parse invocation.posixlyCorrect invocation.args

/-- The command line is accepted, and asks for the options. -/
def AsksFor (invocation : Invocation) (opts : CmdlineOptions) : Prop :=
  ∃ line, invocation.parse = .ok line ∧ line.options = opts

end Invocation

/-- The processes, and the command line that each of them or an ancestor of it was started with. -/
structure InvokedSystem where
  system : System
  invocation : ℕ → Option Invocation

inductive InvokedEvent
  | start (p : ℕ) (invocation : Invocation) (conf : Config)
  /-- Anything but the start of a process. -/
  | system (event : SystemEvent)

def SystemEvent.isStart : SystemEvent → Bool
  | .start _ _ _ => true
  | _ => false

namespace InvokedSystem

def initial (stale : Option (List Char)) : InvokedSystem := ⟨.initial stale, fun _ => none⟩

/-- A child is invoked as its parent was. -/
def inherit (s : InvokedSystem) : SystemEvent → ℕ → Option Invocation
  | .fork p child true => Function.update s.invocation child (s.invocation p)
  | _ => s.invocation

/-- The constructor of `cmdline_options` ends a process whose command line it does not accept. -/
def start (s : InvokedSystem) (p : ℕ) (invocation : Invocation) (conf : Config) :
    Option InvokedSystem :=
  match invocation.parse with
  | .error _ => some s
  | .ok line => (s.system.step (.start p line.options conf)).map fun next =>
      ⟨next, Function.update s.invocation p (some invocation)⟩

def step (s : InvokedSystem) : InvokedEvent → Option InvokedSystem
  | .start p invocation conf => s.start p invocation conf
  | .system event =>
      if event.isStart then none
      else (s.system.step event).map fun next => ⟨next, s.inherit event⟩

end InvokedSystem

def invokedMachine : Machine InvokedSystem InvokedEvent where
  step := InvokedSystem.step

/-! ## What options allow -/

/-- The process is on its way to the battery level. -/
def ProcessPc.readsLevel : ProcessPc → Bool
  | .access .second | .readPid .second | .kill .second _ | .batteryLevel => true
  | _ => false

/-- Options that ask for what is done at this point. -/
structure CmdlineOptions.Allow (opts : CmdlineOptions) (pc : ProcessPc) : Prop where
  powerOff : pc = .powerOff → opts.isPowerOff = true
  level : pc.readsLevel = true → opts.queries = true

namespace CmdlineOptions

/-- Most points need no option. -/
theorem allow_of_idle {opts : CmdlineOptions} {pc : ProcessPc} (hpc : pc ≠ .powerOff)
    (hlevel : pc.readsLevel = false) : opts.Allow pc where
  powerOff h := absurd h hpc
  level h := by rw [hlevel] at h; cases h

end CmdlineOptions

namespace Process

variable (proc : Process)

theorem allow_afterInit : proc.opts.Allow proc.afterInit := by
  unfold afterInit
  split
  next hqueries => exact ⟨nofun, fun _ => hqueries⟩
  next =>
    split
    next hpowerOff => exact ⟨fun _ => hpowerOff, nofun⟩
    next => exact CmdlineOptions.allow_of_idle nofun rfl

theorem allow_afterBatteryLevel : proc.opts.Allow proc.afterBatteryLevel := by
  unfold afterBatteryLevel
  split
  next hpowerOff => exact ⟨fun _ => hpowerOff, nofun⟩
  next => exact CmdlineOptions.allow_of_idle nofun rfl

theorem allow_answer {probe : Probe} (hprobe : probe = .second → proc.opts.queries = true)
    (status : InstanceStatus) : proc.opts.Allow (proc.answer probe status).pc := by
  rw [answer_pc]
  cases probe with
  | first =>
      dsimp only
      split
      next => exact proc.allow_afterInit
      next => exact CmdlineOptions.allow_of_idle nofun rfl
  | second =>
      dsimp only
      split
      next => exact CmdlineOptions.allow_of_idle nofun rfl
      next => exact ⟨nofun, fun _ => hprobe rfl⟩

end Process

namespace System

variable {s next : System} {p : ℕ} {proc : Process} {ok : Bool}

/-- A probe that answers, and whether it is the second. -/
theorem readsLevel_of_probeAnswer {status : InstanceStatus}
    (hanswer : s.probeAnswer proc ok = some (.second, status)) : proc.pc.readsLevel = true := by
  unfold probeAnswer at hanswer
  split at hanswer
  next probe hpc =>
    have hprobe : probe = .second := by
      split_ifs at hanswer
      · exact (Prod.mk.inj (Option.some.inj hanswer)).1
      · exact (Prod.mk.inj (Option.some.inj hanswer)).1
    rw [hpc, hprobe]
    rfl
  next probe pid hpc =>
    rw [hpc, (Prod.mk.inj (Option.some.inj hanswer)).1]
    rfl
  next => cases hanswer

/-- A process is where its options allow it to be. -/
theorem Advance.allow (hadvance : Advance s p proc ok next) (hallow : proc.opts.Allow proc.pc)
    {moved : Process} (hmoved : next.procs p = some moved) : proc.opts.Allow moved.pc := by
  have hself : ∀ {base : System} {other : Process}, (base.put p other).procs p = some moved →
      other = moved := by
    intro base other hother
    rw [put_procs_self] at hother
    exact Option.some.inj hother
  have hidle : ∀ {pc : ProcessPc}, moved.pc = pc → pc ≠ .powerOff → pc.readsLevel = false →
      proc.opts.Allow moved.pc :=
    fun hpc hne hlevel => hpc ▸ CmdlineOptions.allow_of_idle hne hlevel
  cases hadvance with
  | exits hnext | boots _ hnext | loads _ hnext | detaches _ hnext | closes _ hnext
  | unlinks _ hnext =>
      obtain rfl := hself hmoved
      exact hidle hnext nofun rfl
  | @finds probe hpc | @reads probe _ hpc =>
      obtain rfl := hself hmoved
      refine ⟨nofun, fun hlevel => hallow.level ?_⟩
      rw [hpc]
      cases probe <;> exact hlevel
  | initStep | powersOff | opens | locks | truncates | unlocks =>
      obtain rfl := hself hmoved
      exact hidle rfl nofun rfl
  | writesPid =>
      obtain rfl := hself hmoved
      exact hidle rfl nofun rfl
  | @answers probe status hanswer =>
      obtain rfl := hself hmoved
      exact proc.allow_answer (fun hprobe => hallow.level
        (readsLevel_of_probeAnswer (hprobe ▸ hanswer))) status
  | initFails | initialises =>
      obtain rfl := hself hmoved
      exact proc.allow_afterInit
  | shows =>
      obtain rfl := hself hmoved
      exact proc.allow_afterBatteryLevel
  | decides =>
      obtain rfl := hself hmoved
      have hpc := proc.decide_pc
      split at hpc <;> exact hidle hpc nofun rfl
  | cleans _ hafter | handlerCleans _ hafter =>
      obtain rfl := hself hmoved
      rcases hafter with rfl | rfl <;> exact hidle rfl nofun rfl
  | serves _ hnext =>
      obtain rfl := hself hmoved
      rcases hnext with hnext | hnext <;> exact hidle hnext nofun rfl
  | handles =>
      obtain rfl := hself hmoved
      rcases proc.handler_pc with ⟨hpc, -⟩ | ⟨hpc, -⟩ | hpc <;> exact hidle hpc nofun rfl
  | deletes _ hnext =>
      obtain rfl := hself hmoved
      rcases hnext with hnext | hnext | hnext <;> exact hidle hnext nofun rfl
  | ends =>
      rw [remove_procs_self] at hmoved
      cases hmoved

end System

/-! ## Runs -/

/-- Every process has the options that the command line behind it asks for, and is where they allow
it to be. -/
def RequestInvariant (s : InvokedSystem) : Prop :=
  ∀ p proc, s.system.procs p = some proc →
    (∃ invocation ∈ s.invocation p, invocation.AsksFor proc.opts) ∧ proc.opts.Allow proc.pc

namespace RequestInvariant

variable {s : InvokedSystem} {next : System} {p : ℕ} {moved : Process}

theorem put {base : System} (hinv : RequestInvariant s) (hprocs : base.procs = s.system.procs)
    (p : ℕ) (hasks : ∃ invocation ∈ s.invocation p, invocation.AsksFor moved.opts)
    (hallow : moved.opts.Allow moved.pc) : RequestInvariant ⟨base.put p moved, s.invocation⟩ := by
  intro q other hother
  rcases System.put_procs_cases hother with ⟨rfl, rfl⟩ | ⟨-, hbefore⟩
  · exact ⟨hasks, hallow⟩
  · exact hinv q other (hprocs ▸ hbefore)

/-- A process comes in with its command line. -/
theorem put_new (hinv : RequestInvariant s) (p : ℕ) {invocation : Option Invocation}
    (hasks : ∃ asked ∈ invocation, asked.AsksFor moved.opts) (hallow : moved.opts.Allow moved.pc) :
    RequestInvariant
      ⟨s.system.put p moved, Function.update s.invocation p invocation⟩ := by
  intro q other hother
  rcases System.put_procs_cases hother with ⟨rfl, rfl⟩ | ⟨hne, hbefore⟩
  · dsimp only
    rw [Function.update_self]
    exact ⟨hasks, hallow⟩
  · dsimp only
    rw [Function.update_of_ne hne]
    exact hinv q other hbefore

theorem system {event : SystemEvent} (hinv : RequestInvariant s) (hother : event.isStart = false)
    (hstep : s.system.step event = some next) : RequestInvariant ⟨next, s.inherit event⟩ := by
  cases System.Step.of_step hstep with
  | start => cases hother
  | @advance p proc ok next hproc hadvance =>
      intro q other hmoved
      rcases eq_or_ne q p with rfl | hne
      · obtain ⟨hasks, hallow⟩ := hinv q proc hproc
        rw [System.advance_opts hadvance other hmoved]
        exact ⟨hasks, (System.Advance.of_advance hadvance).allow hallow hmoved⟩
      · rw [(System.Advance.of_advance hadvance).procs_of_ne hne] at hmoved
        exact hinv q other hmoved
  | forkFailed hproc =>
      exact hinv.put rfl _ (hinv _ _ hproc).1 (CmdlineOptions.allow_of_idle nofun rfl)
  | answered hproc =>
      exact hinv.put rfl _ (hinv _ _ hproc).1 (Process.allow_afterBatteryLevel _)
  | @forked p child proc childPc hproc hfree hpc =>
      have hasks := (hinv p proc hproc).1
      have hchild : proc.opts.Allow childPc := by
        rcases hpc with ⟨-, rfl⟩ | ⟨-, rfl⟩ <;> exact CmdlineOptions.allow_of_idle nofun rfl
      have hforked : RequestInvariant ⟨s.system.put child (proc.goto childPc),
          Function.update s.invocation child (s.invocation p)⟩ := hinv.put_new child hasks hchild
      refine hforked.put rfl p ?_ (CmdlineOptions.allow_of_idle nofun rfl)
      have hne : p ≠ child := by
        rintro rfl
        rw [hfree] at hproc
        cases hproc
      dsimp only
      rw [Function.update_of_ne hne]
      exact hasks
  | terminated | crash =>
      exact fun q other hmoved => hinv q other (System.procs_of_remove hmoved)
  | handled sig hproc hinstalled =>
      exact hinv.put rfl _ (hinv _ _ hproc).1 (CmdlineOptions.allow_of_idle nofun rfl)
  | ignored => exact hinv
  | @halt _ proc hproc hpc =>
      have hopts : proc.deleteRocpmd.opts = proc.opts := by
        unfold Process.deleteRocpmd
        split <;> rfl
      refine hinv.put rfl _ (hopts ▸ (hinv _ _ hproc).1) ?_
      rcases proc.deleteRocpmd_pc with ⟨h, -⟩ | ⟨h, -⟩ <;> rw [h] <;>
        exact CmdlineOptions.allow_of_idle nofun rfl

theorem step {event : InvokedEvent} {next : InvokedSystem} (hinv : RequestInvariant s)
    (hstep : invokedMachine.step s event = some next) : RequestInvariant next := by
  cases event with
  | start p invocation conf =>
      simp only [invokedMachine, InvokedSystem.step, InvokedSystem.start] at hstep
      split at hstep
      next =>
        obtain rfl := Option.some.inj hstep
        exact hinv
      next line hparse =>
        obtain ⟨system, hsystem, rfl⟩ := Option.map_eq_some_iff.mp hstep
        have hstarted : systemMachine.step s.system (.start p line.options conf) = some system :=
          hsystem
        cases System.Step.of_step hstarted with
        | start =>
            exact hinv.put_new p ⟨invocation, rfl, line, hparse, rfl⟩
              (CmdlineOptions.allow_of_idle nofun rfl)
  | system event =>
      simp only [invokedMachine, InvokedSystem.step] at hstep
      split at hstep
      next => cases hstep
      next hother =>
        obtain ⟨system, hsystem, rfl⟩ := Option.map_eq_some_iff.mp hstep
        exact hinv.system (eq_false_of_ne_true hother) hsystem

end RequestInvariant

/-- **Nothing is done unasked.** Over any run, from any lock file left behind, a process has the
options that the command line asks for with which it or its ancestor was started; it gets to cut the
power only if a word there asks for that, and to read the level only if a word there asks for
one. -/
theorem done_only_if_asked (stale : Option (List Char)) {s : InvokedSystem}
    (hreach : invokedMachine.Reachable (.initial stale) s) {p : ℕ} {proc : Process}
    (hproc : s.system.procs p = some proc) :
    ∃ invocation, s.invocation p = some invocation ∧ invocation.AsksFor proc.opts ∧
      (proc.pc = .powerOff → ∃ word ∈ invocation.args, Asks .powerOffFlag word) ∧
      (proc.pc.readsLevel = true → ∃ word ∈ invocation.args,
        Asks .batteryLevelFlag word ∨ Asks .batteryLevelRawFlag word) := by
  have hstart : RequestInvariant (.initial stale) := fun _ _ hproc => by cases hproc
  have hinv : RequestInvariant s := hreach.invariant hstart
    fun _ _ _ hinv _ hnext => hinv.step hnext
  obtain ⟨⟨invocation, hinvocation, line, hparse, hopts⟩, hallow⟩ := hinv p proc hproc
  refine ⟨invocation, hinvocation, ⟨line, hparse, hopts⟩, fun hpc => ?_, fun hlevel => ?_⟩
  · rw [← hopts] at hallow
    exact CommandLine.exists_asks hparse (of_decide_eq_true (hallow.powerOff hpc))
  · rw [← hopts] at hallow
    rcases Bool.or_eq_true_iff.mp (hallow.level hlevel) with hset | hset
    · have hvalue : line.value .batteryLevelFlag ≠ 0 := of_decide_eq_true hset
      obtain ⟨word, hword, hasks⟩ := CommandLine.exists_asks hparse hvalue
      exact ⟨word, hword, .inl hasks⟩
    · have hvalue : line.value .batteryLevelRawFlag ≠ 0 := of_decide_eq_true hset
      obtain ⟨word, hword, hasks⟩ := CommandLine.exists_asks hparse hvalue
      exact ⟨word, hword, .inr hasks⟩

/-- One process is started with an abbreviated option and another with nothing, and the first gets
to where it cuts the power. -/
def powerOffRun : List InvokedEvent :=
  .start 4 ⟨false, ["--power".toList]⟩ .shipped :: .start 5 ⟨false, []⟩ .shipped ::
    (advances 4 19).map .system

theorem done_only_if_asked_powerOff : ∃ s proc,
    invokedMachine.run (.initial none) powerOffRun = some s ∧ s.system.procs 4 = some proc ∧
      proc.pc = .powerOff ∧ ∃ invocation, s.invocation 4 = some invocation ∧
        invocation.AsksFor proc.opts ∧ ∃ word ∈ invocation.args, Asks .powerOffFlag word := by
  have hrun : ∃ s ∈ invokedMachine.run (.initial none) powerOffRun,
      (s.system.procs 4).any fun proc => proc.pc = .powerOff := by decide +kernel
  obtain ⟨s, hs, hpowers⟩ := hrun
  obtain ⟨proc, hproc, hpc⟩ := (Option.any_eq_true _ _).mp hpowers
  have hpc := of_decide_eq_true hpc
  obtain ⟨invocation, hinvocation, hasks, hasked, -⟩ :=
    done_only_if_asked none (.of_run hs) hproc
  exact ⟨s, proc, hs, hproc, hpc, invocation, hinvocation, hasks, hasked hpc⟩

end Rocpmd

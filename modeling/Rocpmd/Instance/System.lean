import Mathlib.Algebra.GroupWithZero.Nat
import Mathlib.Algebra.Ring.Int.Defs
import Rocpmd.Instance.Process

/-!
# Processes that share a lock file and pins

Any number of processes, started at any time and with any options, the lock file they contend for
and the pins they set up and give back. The events carry the scheduling, the outcome of every system
call, signals and crashes.
-/

namespace Rocpmd

open Foundation

/-! ## The text of the lock file -/

/-- What `is_running` writes: the digits of the pid and the terminating zero. -/
def pidText (pid : ℕ) : List Char := Nat.toDigits 10 pid ++ [Char.ofNat 0]

/-- `isspace` in the C locale. -/
def isspace (c : Char) : Bool := c = ' ' || (9 ≤ c.toNat && c.toNat ≤ 13)

/-- The number that the leading digits spell, zero if there is none. -/
def digitsValue (text : List Char) : Int := Nat.ofDigitChars 10 (text.takeWhile Char.isDigit) 0

/-- `strtol` in base ten: white space, a sign, digits. What does not fit into 64 bits comes out as
the nearest number that does. -/
def strtol (text : List Char) : Int :=
  let value := match text.dropWhile isspace with
    | '-' :: digits => -digitsValue digits
    | '+' :: digits => digitsValue digits
    | digits => digitsValue digits
  max (-2 ^ 63) (min value (2 ^ 63 - 1))

/-- `atoi` cuts the `long` that `strtol` returns down to an `int`. -/
def atoi (text : List Char) : Int := Int.bmod (strtol text) (2 ^ 32)

/-- `getline` on the lock file. -/
def firstLine (content : List Char) : List Char := content.takeWhile (· ≠ '\n')

/-! ## State -/

structure System where
  procs : ℕ → Option Process
  /-- The process table is finite. -/
  bound : ℕ
  procs_bound : ∀ p, bound ≤ p → procs p = none
  file : LockFile ℕ (List Char)
  /-- The pins of each configuration for which a `gpio_init` has succeeded and no pin of which has
  been given back since. No step depends on it. -/
  initialised : List (List Int)

inductive SystemEvent
  | start (p : ℕ) (opts : CmdlineOptions) (conf : Config)
  | advance (p : ℕ) (ok : Bool)
  | fork (p child : ℕ) (ok : Bool)
  /-- The daemon has let an exchange come to its end. -/
  | answered (p : ℕ)
  | signal (p : ℕ) (sig : Signal)
  | halt (p : ℕ)
  | crash (p : ℕ)

namespace System

/-- No process runs, and the lock file is missing or was left behind with some content. -/
def initial (stale : Option (List Char)) : System where
  procs := fun _ => none
  bound := 0
  procs_bound := fun _ _ => rfl
  file :=
    { name := stale.map fun _ => 0
      nextInode := 1
      holder := fun _ => none
      content := fun _ => stale.getD []
      name_lt := by simp
      fresh_free := fun _ _ => rfl }
  initialised := []

def put (s : System) (p : ℕ) (proc : Process) : System :=
  { s with
    procs := Function.update s.procs p (some proc)
    bound := max s.bound (p + 1)
    procs_bound := by
      intro q hq
      rw [Function.update_of_ne (by omega)]
      exact s.procs_bound q (by omega) }

/-- The end of a process, by `exit` or otherwise: the kernel drops its locks. -/
def remove (s : System) (p : ℕ) : System :=
  { s with
    procs := Function.update s.procs p none
    procs_bound := by
      intro q hq
      rcases eq_or_ne q p with rfl | hne
      · exact Function.update_self ..
      · rw [Function.update_of_ne hne]
        exact s.procs_bound q hq
    file := s.file.dropAll p }

/-- The effect of a `gpio_cleanup` operation: no configuration with the pin is set up any more. -/
def giveBack (s : System) : GpioOp → System
  | .cleanupPin pinNo => { s with initialised := s.initialised.filter fun pins => pinNo ∉ pins }
  | _ => s

/-! ## rocpmd_instance_lives -/

def access (s : System) (proc : Process) (probe : Probe) (readable : Bool) : Process :=
  if s.file.name = none then proc.answer probe .lockfileMissing
  else if readable = false then proc.answer probe .lockfileNotReadable
  else proc.goto (.readPid probe)

/-- A file that is gone by now reads as an empty line. -/
def readPid (s : System) (proc : Process) (probe : Probe) : Process :=
  let line := match s.file.name with
    | some inode => firstLine (s.file.content inode)
    | none => []
  proc.goto (.kill probe (atoi line))

/-- Whether `kill(pid, 0)` succeeds. Zero stands for the caller's own process group; `other` says
whether a process or group that is not of this program answers to the number. -/
def alive (s : System) (pid : Int) (other : Bool) : Bool :=
  pid = 0 || (0 < pid && (s.procs pid.toNat).isSome) || other

def kill (s : System) (proc : Process) (probe : Probe) (pid : Int) (other : Bool) : Process :=
  proc.answer probe (if s.alive pid other then .processLives else .processDead)

/-! ## is_running -/

def openLock (s : System) (p : ℕ) (proc : Process) (ok : Bool) : System :=
  if ok = false then s.put p (proc.goto .exiting)
  else
    let opened := s.file.openCreate []
    { s with file := opened.2 }.put p { proc with lockFd := some opened.1, pc := .lock }

/-- A refused lock closes the descriptor; any other failure leaves it open. Both exit. -/
def lock (s : System) (p : ℕ) (proc : Process) (ok : Bool) : System :=
  match proc.lockFd.bind (s.file.setLock p) with
  | none => s.put p { proc with lockFd := none, pc := .exiting }
  | some file =>
      if ok = false then s.put p (proc.goto .exiting)
      else { s with file := file }.put p (proc.goto .truncate)

/-- Replace the content of the file behind `lock_fd`. -/
def setContent (s : System) (proc : Process) (content : List Char) : System :=
  match proc.lockFd with
  | some inode => { s with file := s.file.write inode content }
  | none => s

/-! ## tdaemon::cleanup -/

def unlock (s : System) (p : ℕ) (proc : Process) : System :=
  match proc.lockFd with
  | some inode => { s with file := s.file.unlock p inode }
  | none => s

/-- Closing any descriptor of the file gives up the process's locks on it. -/
def closeLock (s : System) (p : ℕ) (proc : Process) : System :=
  match proc.lockFd with
  | some _ => { s with file := s.file.dropAll p }
  | none => s

/-! ## Steps -/

/-- The next step of a process by itself; `ok` is the outcome of its system call, if it makes one
that can fail. Forking and halting are events of their own, and so is the end of an exchange with
the daemon, which can keep the client waiting in `connect` and in `read`. -/
def advance (s : System) (p : ℕ) (proc : Process) (ok : Bool) : Option System :=
  match proc.pc with
  | .boot => some (s.put p (proc.boot ok))
  | .loadConfig => some (s.put p (proc.loadConfig ok))
  | .access probe => some (s.put p (s.access proc probe ok))
  | .readPid probe => some (s.put p (s.readPid proc probe))
  | .kill probe pid => some (s.put p (s.kill proc probe pid ok))
  | .gpioInit (_ :: rest) =>
      some (s.put p (proc.goto (if ok then .gpioInit rest else proc.afterInit)))
  | .gpioInit [] =>
      some ({ s with initialised := proc.pins :: s.initialised }.put p (proc.goto proc.afterInit))
  | .batteryLevel =>
      if proc.rocpmdStatus = some .processLives then none
      else some (s.put p (proc.goto proc.afterBatteryLevel))
  | .powerOff => some (s.put p (proc.goto .decide))
  | .decide => some (s.put p proc.decide)
  | .gpioCleanup (op :: rest) =>
      some ((s.giveBack op).put p (proc.goto (if ok then .gpioCleanup rest else .exiting)))
  | .gpioCleanup [] => some (s.put p (proc.goto .exiting))
  | .newSession => some (s.put p (proc.newSession ok))
  | .openLock => some (s.openLock p proc ok)
  | .lock => some (s.lock p proc ok)
  | .truncate => some ((s.setContent proc []).put p (proc.goto .writePid))
  | .writePid =>
      let written := if ok then s.setContent proc (pidText p) else s
      some (written.put p (proc.goto .newServer))
  | .newServer => some (s.put p (proc.goto (if ok then .newLog else .exiting)))
  | .newLog => some (s.put p (proc.newLog ok))
  | .handler => some (s.put p proc.handler)
  | .handlerCleanup (op :: rest) =>
      some ((s.giveBack op).put p (proc.goto (if ok then .handlerCleanup rest else .deleteConf)))
  | .handlerCleanup [] => some (s.put p (proc.goto .deleteConf))
  | .deleteConf => some (s.put p { proc with gConf := .deleted }.deleteRocpmd)
  | .deleteLog => some (s.put p { proc with batteryLevelLog := .deleted, pc := .unlock })
  | .unlock => some ((s.unlock p proc).put p (proc.goto .closeLock))
  | .closeLock =>
      some ((s.closeLock p proc).put p { proc with lockFd := none, pc := .unlinkLock })
  | .unlinkLock =>
      some ({ s with file := s.file.unlink }.put p { proc with rocpmd := .deleted, pc := .exiting })
  | .exiting => some (s.remove p)
  | .fork | .forkAgain | .loop => none

/-- The parent exits and the child goes on; if there is no child, the exception ends the process. -/
def fork (s : System) (p child : ℕ) (proc : Process) (childPc : ProcessPc) (ok : Bool) :
    Option System :=
  if ok = false then some (s.put p (proc.goto .exiting))
  else if child = 0 ∨ (s.procs child).isSome then none
  else some ((s.put child (proc.goto childPc)).put p (proc.goto .exiting))

/-- A signal is held back while its handler runs. -/
def signal (s : System) (p : ℕ) (proc : Process) (sig : Signal) : Option System :=
  if sig ∈ proc.masked then none
  else match dispositionAfter proc.installed sig with
    | .terminate => some (s.remove p)
    | .handler => some (s.put p { proc with masked := sig :: proc.masked, pc := .handler })
    | .ignore => some s

def step (s : System) : SystemEvent → Option System
  | .start p opts conf =>
      if p = 0 ∨ (s.procs p).isSome then none else some (s.put p (.start opts conf))
  | .advance p ok => (s.procs p).bind fun proc => s.advance p proc ok
  | .fork p child ok => (s.procs p).bind fun proc =>
      match proc.pc with
      | .fork => s.fork p child proc .newSession ok
      | .forkAgain => s.fork p child proc .openLock ok
      | _ => none
  | .answered p => (s.procs p).bind fun proc =>
      if proc.Asking then some (s.put p (proc.goto proc.afterBatteryLevel)) else none
  | .signal p sig => (s.procs p).bind fun proc => s.signal p proc sig
  | .halt p => (s.procs p).bind fun proc =>
      if proc.pc = .loop then some (s.put p proc.deleteRocpmd) else none
  | .crash p => (s.procs p).map fun _ => s.remove p

end System

/-! ## Statements about all processes -/

namespace System

/-- What concerns every process can be checked on the finite process table. -/
theorem forall_procs_iff (s : System) (P : ℕ → Process → Prop) :
    (∀ q, ∀ other ∈ s.procs q, P q other) ↔ ∀ q < s.bound, ∀ other ∈ s.procs q, P q other := by
  refine ⟨fun h q _ => h q, fun h q other hother => ?_⟩
  rcases Nat.lt_or_ge q s.bound with hlt | hge
  · exact h q hlt other hother
  · rw [s.procs_bound q hge] at hother
    cases hother

instance (s : System) (P : ℕ → Process → Prop) [∀ q other, Decidable (P q other)] :
    Decidable (∀ q, ∀ other ∈ s.procs q, P q other) :=
  decidable_of_iff _ (s.forall_procs_iff P).symm

end System

def systemMachine : Machine System SystemEvent where
  step := System.step

/-! ## Schedules -/

/-- The events that take a new process through `main`, in `steps` steps, and its two forks to where
the second child opens the lock file. -/
def launch (p child grandchild steps : ℕ) : List SystemEvent :=
  .start p ⟨false, false, false, false⟩ .shipped :: List.replicate steps (.advance p true) ++
    [.fork p child true, .advance p true, .advance child true, .fork child grandchild true]

def advances (p steps : ℕ) : List SystemEvent := List.replicate steps (.advance p true)

end Rocpmd

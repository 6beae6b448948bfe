import Rocpmd.Foundation.LockFile
import Rocpmd.Foundation.Machine
import Rocpmd.Gpio.Operations
import Rocpmd.Signals

/-!
# A process of the program

`main` from its first line to the end of the process, with `tdaemon::run_daemon` and the signal
handler. Every access to something shared (the lock file, a pin, the process table) is a step of its
own. What happens inside `daemon_main` is one state here; the machine of the daemon describes it.

Deleted objects keep their last contents: a second signal makes the handler use them again.
-/

namespace Rocpmd

open Foundation

/-! ## Data -/

/-- `ROCPMD_LOCKFILE_*` and `ROCPMD_PROCESS_*`. -/
inductive InstanceStatus
  | lockfileMissing | lockfileNotReadable | processLives | processDead
deriving DecidableEq, Repr

structure CmdlineOptions where
  isPowerOff : Bool
  isBatteryLevel : Bool
  isBatteryLevelRaw : Bool
  isHelp : Bool
deriving DecidableEq, Repr

namespace CmdlineOptions

/-- `opt_exit`: the process is meant to end after what it was asked for. -/
def optExit (opts : CmdlineOptions) : Bool :=
  opts.isPowerOff || opts.isBatteryLevel || opts.isBatteryLevelRaw

def queries (opts : CmdlineOptions) : Bool := opts.isBatteryLevel || opts.isBatteryLevelRaw

end CmdlineOptions

/-- The two calls of `rocpmd_instance_lives` in `main`. -/
inductive Probe
  | first | second
deriving DecidableEq, Repr

inductive Pointer
  | unassigned | live | deleted
deriving DecidableEq, Repr

inductive ProcessPc
  -- main
  | boot
  | loadConfig
  | access (probe : Probe)
  | readPid (probe : Probe)
  | kill (probe : Probe) (pid : Int)
  | gpioInit (rest : List GpioOp)
  | batteryLevel
  | powerOff
  | decide
  | gpioCleanup (rest : List GpioOp)
  -- daemonize
  | fork
  | newSession
  | forkAgain
  | openLock
  | lock
  | truncate
  | writePid
  -- daemon_main
  | newServer
  | newLog
  | loop
  -- sig_handler, halt_system and the destructors
  | handler
  | handlerCleanup (rest : List GpioOp)
  | deleteConf
  | deleteLog
  | unlock
  | closeLock
  | unlinkLock
  | exiting
deriving DecidableEq, Repr

/-- The process executes `daemon_main`. -/
def ProcessPc.inDaemonMain : ProcessPc → Bool
  | .newServer | .newLog | .loop => true
  | _ => false

structure Process where
  pc : ProcessPc
  opts : CmdlineOptions
  /-- What the configuration file holds that the process is to load or has loaded. -/
  conf : Config
  gConf : Pointer
  rocpmd : Pointer
  batteryLevelLog : Pointer
  rocpmdStatus : Option InstanceStatus
  /-- The inode `lock_fd` refers to. -/
  lockFd : Option ℕ
  /-- Calls of `signal` and `sigaction` so far, and the signals whose handler is running. -/
  installed : List (Signal × Disposition)
  masked : List Signal

namespace Process

def start (opts : CmdlineOptions) (conf : Config) : Process where
  pc := .boot
  opts := opts
  conf := conf
  gConf := .unassigned
  rocpmd := .unassigned
  batteryLevelLog := .unassigned
  rocpmdStatus := none
  lockFd := none
  installed := mainSignals
  masked := []

def goto (proc : Process) (pc : ProcessPc) : Process := { proc with pc := pc }

/-- The pins of the configuration. -/
def pins (proc : Process) : List Int := cleanupOrder.map proc.conf.pin

/-! ## main -/

/-- Up to the creation of the `rocpmd` object. -/
def boot (proc : Process) (boardInstalled : Bool) : Process :=
  if boardInstalled = false ∨ proc.opts.isHelp = true then proc.goto .exiting
  else { proc with rocpmd := .live, pc := .loadConfig }

/-- The check for root and the creation of the `config` object. -/
def loadConfig (proc : Process) (ok : Bool) : Process :=
  if ok = false then proc.goto .exiting
  else { proc with gConf := .live, pc := .access .first }

/-- Where `main` goes once the pins are set up or found set up. -/
def afterInit (proc : Process) : ProcessPc :=
  if proc.opts.queries then .access .second
  else if proc.opts.isPowerOff then .powerOff
  else .decide

/-- `rocpmd_status = rocpmd_instance_lives(...)` and the test that follows it. -/
def answer (proc : Process) (probe : Probe) (status : InstanceStatus) : Process :=
  let answered := { proc with rocpmdStatus := some status }
  match probe with
  | .first =>
      if status = .processLives then answered.goto proc.afterInit
      else answered.goto (.gpioInit (gpioInitOps proc.conf))
  | .second =>
      if status = .lockfileNotReadable then answered.goto .exiting
      else answered.goto .batteryLevel

/-- The battery is read by the daemon: the process is in an exchange with it. -/
def Asking (proc : Process) : Prop :=
  proc.pc = .batteryLevel ∧ proc.rocpmdStatus = some .processLives

instance (proc : Process) : Decidable proc.Asking := inferInstanceAs (Decidable (_ ∧ _))

/-- The reading is shown, from the socket or from the board, whatever comes of it. -/
def afterBatteryLevel (proc : Process) : ProcessPc :=
  if proc.opts.isPowerOff then .powerOff else .decide

/-- `if(opt_exit && rocpmd_status != ROCPMD_PROCESS_LIVES)`. -/
def decide (proc : Process) : Process :=
  if proc.opts.optExit = true ∧ proc.rocpmdStatus ≠ some .processLives then
    proc.goto (.gpioCleanup (gpioCleanupOps proc.conf))
  else proc.goto .fork

/-! ## daemonize -/

/-- `setsid`, and SIGHUP is ignored from here on. -/
def newSession (proc : Process) (ok : Bool) : Process :=
  if ok = false then proc.goto .exiting
  else { proc with installed := proc.installed ++ detachSignals, pc := .forkAgain }

/-! ## daemon_main -/

/-- A failure to create the log is reported and leaves the member as it is. -/
def newLog (proc : Process) (ok : Bool) : Process :=
  if proc.conf.batteryLevelReader.batteryLevelLog = true ∧ ok = true then
    { proc with batteryLevelLog := .live, pc := .loop }
  else proc.goto .loop

/-! ## sig_handler -/

/-- `if(ROCPMD) { delete(ROCPMD); }`, where the destructor starts with the log. -/
def deleteRocpmd (proc : Process) : Process :=
  if proc.rocpmd ≠ .unassigned then proc.goto .deleteLog else proc.goto .exiting

/-- `if(g_conf) { gpio_cleanup(g_conf); ... }`. -/
def handler (proc : Process) : Process :=
  if proc.gConf ≠ .unassigned then proc.goto (.handlerCleanup (gpioCleanupOps proc.conf))
  else proc.deleteRocpmd

end Process

end Rocpmd

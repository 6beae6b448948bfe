import Rocpmd.Daemon.Network
import Rocpmd.Foundation.Descriptors
import Rocpmd.Foundation.Framing
import Rocpmd.Foundation.Machine
import Rocpmd.Gpio.BatteryLevel
import Rocpmd.Logger
import Rocpmd.Signals
import Mathlib.Data.Rat.Defs

/-!
# The loop of the daemon

`rocpmd::daemon_main` as a machine. The button poll and the periodic reading of an iteration are one
step, which clients cannot tell from several (`Daemon.step_iterate_comm`); every system call of
`ud_server::handle_requests` is a step of its own, so that clients can act between any two of them.
A system call that would block has no step until it can return.

The events carry what the code does not decide: the time, the outcome of each system call and the
actions of clients. The sysfs files are those of a world of any type; a process that has no
descriptor left can open none of them.
-/

namespace Rocpmd

open Foundation

/-! ## State -/

structure Timeval where
  tvSec : Int
  tvUsec : Int
deriving DecidableEq, Repr

/-- The data members of `ud_server` other than its sockets. -/
structure UdServer where
  powerOffFlag : Bool
  batteryLevelPercent : Int
  batteryLevelRaw : Int
deriving DecidableEq, Repr

/-- Where the daemon is. In `handle_requests` it remembers whether `select` found the off socket
ready, since that socket is served second. -/
inductive DaemonPc
  | iterate
  | select
  | accept (listener : Listener) (offReady : Bool)
  | read (listener : Listener) (offReady : Bool) (id : ℕ)
  | serve (listener : Listener) (offReady : Bool) (id : ℕ)
  | checkOff
  | halted
  | killed
deriving DecidableEq, Repr

/-- What a run has done so far. No step depends on it. -/
structure History where
  /-- The read of REQ_OFF_B and the measurement of the current iteration. -/
  reqOff : Option ReadOutcome
  measured : Option Int
  /-- The result of the latest measurement of the run. -/
  lastReading : Int
  /-- The bytes received on each off connection, the latest connection first. -/
  offStreams : List (List UInt8)
  /-- Calls of `gpio_write_off`, and power off checks made with anything received on the socket. -/
  offWrites : ℕ
  offChecks : ℕ
  /-- The open descriptors when `handle_requests` was called last, and what it accepted since. -/
  entryDescriptors : Finset ℕ
  accepted : ℕ

structure Daemon (W : Type) where
  world : W
  pc : DaemonPc
  ud : UdServer
  batteryLevelRaw : Int
  batteryLevelPercent : Int
  lastRead : Timeval
  /-- The log, if one was asked for and could be created. -/
  batteryLevelLog : Option Logger
  command : CommandBuffer
  net : Network
  descriptors : Finset ℕ
  history : History

/-- What the kernel grants the process. -/
structure Limits where
  /-- Descriptors are below this number. -/
  descriptors : ℕ
  /-- There is room for another write to a connection while its client has no more than so many
  to receive. -/
  unreceived : ℕ
deriving DecidableEq, Repr

/-- The limits of the examples. -/
def Limits.usual : Limits := ⟨64, 277⟩

/-- What stays fixed over a run. -/
structure Setup (W : Type) where
  fs : Sysfs W
  conf : Config
  limits : Limits

inductive DaemonEvent
  | iterate (now : Timeval) (stamp : String) (room : ℕ)
  | select (ok : Bool)
  | accept (ok : Bool)
  | read (n : ℕ) (ok : Bool)
  | serve (ok : Bool)
  | checkOff
  | connect (listener : Listener)
  | send (id : ℕ) (bytes : List UInt8)
  | receive (id left : ℕ)
  | close (id : ℕ)
deriving Repr

/-- A write returns at once: with an error, or because there is room. -/
def Connection.Writable (limits : Limits) (connection : Connection) : Prop :=
  connection.peerClosed = true ∨ connection.unreceived ≤ limits.unreceived

instance (limits : Limits) (connection : Connection) : Decidable (connection.Writable limits) :=
  inferInstanceAs (Decidable (_ ∨ _))

/-- What the server answers to a command on one of its sockets. -/
def UdServer.reply (ud : UdServer) (command : CommandBuffer) : Listener → Option (List UInt8)
  | .off => some [1]
  | .batteryLevel =>
      if command.value = rocpmdSendPowerLevelPercent then some (intBytes ud.batteryLevelPercent)
      else if command.value = rocpmdSendPowerLevelRaw then some (intBytes ud.batteryLevelRaw)
      else none

/-! ## Functions of rocpmd.cpp -/

def mapBatteryLevel (conf : Config) (batteryLevelRaw : Int) : Int :=
  if batteryLevelRaw ≥ 0 then conf.getPowermapElementAt batteryLevelRaw.toNat else -1

/-- Whether the interval has expired, and the new `last_read`. -/
def batteryLevelReadIntervalExpired (conf : Config) (lastRead now : Timeval) : Bool × Timeval :=
  let interval : ℚ := conf.batteryLevelReader.batteryLevelReadInterval * 1000
  let seconds : ℚ := now.tvSec - lastRead.tvSec
  let useconds : ℚ := now.tvUsec - lastRead.tvUsec
  let diff := seconds * 1000 + useconds / 1000
  if diff < interval then (false, lastRead) else (true, now)

variable {W : Type} (setup : Setup W)

/-- The files, for a process with these descriptors open: to open one takes another. -/
def Setup.files (descriptors : Finset ℕ) : Sysfs W :=
  if lowestFree setup.limits.descriptors descriptors = none then setup.fs.shut else setup.fs

section Files

variable {setup} {descriptors : Finset ℕ}

theorem Setup.files_of_full (hfull : lowestFree setup.limits.descriptors descriptors = none) :
    setup.files descriptors = setup.fs.shut := if_pos hfull

theorem Setup.files_of_free (hfree : lowestFree setup.limits.descriptors descriptors ≠ none) :
    setup.files descriptors = setup.fs := if_neg hfree

@[simp] theorem Setup.files_usleep : (setup.files descriptors).usleep = setup.fs.usleep := by
  unfold files
  split <;> rfl

end Files

namespace Daemon

/-- The measurement, its percentage, and both values handed to the server. -/
def measure (d : Daemon W) : Daemon W :=
  let raw := gpioReadBatteryLevelRaw (setup.files d.descriptors) setup.conf d.world
  let percent := mapBatteryLevel setup.conf raw.1
  { d with
    world := raw.2
    batteryLevelRaw := raw.1
    batteryLevelPercent := percent
    ud := { d.ud with batteryLevelPercent := percent, batteryLevelRaw := raw.1 }
    history := { d.history with measured := some raw.1, lastReading := raw.1 } }

/-- The line of the log, if there is a log. A failure to write it is caught and reported. -/
def logReading (d : Daemon W) (stamp : String) (room : ℕ) : Daemon W :=
  { d with
    batteryLevelLog := d.batteryLevelLog.map fun logger =>
      (logger.log stamp
        (toString d.batteryLevelRaw ++ "," ++ toString d.batteryLevelPercent ++ "%") room).2 }

/-- `halt_system` shuts the machine down and ends the process. -/
def haltSystem (d : Daemon W) : Daemon W := { d with pc := .halted }

/-- The part of an iteration before the requests are handled. -/
def iterate (d : Daemon W) (now : Timeval) (stamp : String) (room : ℕ) : Daemon W :=
  let files := setup.files d.descriptors
  let awake := files.usleep 100000 d.world
  let poll := gpioReadReqOff files setup.conf awake
  let polled : Daemon W :=
    { d with
      world := poll.2
      history := { d.history with
        reqOff := some (files.read (.value (setup.conf.pin .reqOffB)) awake).1
        measured := none } }
  if poll.1 ≠ 0 then polled.haltSystem
  else
    let expired := batteryLevelReadIntervalExpired setup.conf d.lastRead now
    if expired.1 then
      let read := ({ polled with lastRead := expired.2 }.measure setup).logReading stamp room
      if read.batteryLevelPercent = 0 then read.haltSystem else { read with pc := .select }
    else { polled with pc := .select }

/-! ## Functions of ud_server.cpp -/

/-- A `runtime_error` leaves `handle_requests`; `daemon_main` catches and reports it. -/
def throwRuntimeError (d : Daemon W) : Daemon W := { d with pc := .iterate }

/-- The end of a handler: the off socket is served after the other one. -/
def handlerDone (listener : Listener) (offReady : Bool) : DaemonPc :=
  match listener, offReady with
  | .batteryLevel, true => .accept .off false
  | _, _ => .checkOff

/-- The call of `handle_requests` up to the result of `select`. -/
def select (d : Daemon W) (ok : Bool) : Daemon W :=
  let called : Daemon W :=
    { d with history := { d.history with entryDescriptors := d.descriptors, accepted := 0 } }
  let offReady := !(d.net.backlog .off).isEmpty
  if ok = false then called.throwRuntimeError
  else if (d.net.backlog .batteryLevel).isEmpty = false then
    { called with pc := .accept .batteryLevel offReady }
  else { called with pc := if offReady then .accept .off false else .checkOff }

/-- The bookkeeping of an accepted connection. -/
def History.accept (history : History) (listener : Listener) : History :=
  { history with
    accepted := history.accepted + 1
    offStreams := match listener with
      | .off => [] :: history.offStreams
      | .batteryLevel => history.offStreams }

/-- The first connection of the backlog has descriptor `fd`, and its handler is about to read. -/
def accepted (d : Daemon W) (listener : Listener) (offReady : Bool) (id fd : ℕ) : Daemon W :=
  { d with
    pc := .read listener offReady id
    command := .init
    net := d.net.dequeue listener
    descriptors := insert fd d.descriptors
    history := History.accept d.history listener }

/-- `accept` blocks while the backlog is empty, and fails once no descriptor is left. -/
def accept (d : Daemon W) (listener : Listener) (offReady ok : Bool) : Option (Daemon W) :=
  match d.net.backlog listener with
  | [] => none
  | id :: _ =>
      match lowestFree setup.limits.descriptors d.descriptors with
      | none => some d.throwRuntimeError
      | some fd =>
          if ok = false then some d.throwRuntimeError
          else some (d.accepted listener offReady id fd)

/-- The bookkeeping of bytes read from a connection. -/
def History.receive (history : History) (listener : Listener) (bytes : List UInt8) : History :=
  { history with
    offStreams := match listener, history.offStreams with
      | .off, stream :: rest => (stream ++ bytes) :: rest
      | _, streams => streams }

/-- The first `n` bytes of the connection are in the command, and the loop body is next. -/
def received (d : Daemon W) (listener : Listener) (offReady : Bool) (id n : ℕ) (hshort : n ≤ 4) :
    Daemon W :=
  let bytes := (d.net.connections id).inbox.take n
  { d with
    pc := .serve listener offReady id
    command := d.command.fill bytes ((List.length_take_le _ _).trans hshort)
    net := d.net.consume id n
    history := History.receive d.history listener bytes }

/-- `read` blocks while there is nothing to read. The loop condition holds if it returned bytes; the
end of the stream and an error both end the loop. -/
def read (d : Daemon W) (listener : Listener) (offReady : Bool) (id n : ℕ) (ok : Bool) :
    Option (Daemon W) :=
  let connection := d.net.connections id
  let ended : Daemon W := { d with pc := handlerDone listener offReady }
  if connection.inbox = [] then
    if connection.peerClosed then some ended else none
  else if ok = false then some ended
  else if hn : 0 < n ∧ n ≤ 4 ∧ n ≤ connection.inbox.length then
    some (d.received listener offReady id n hn.2.1)
  else none

/-- What the command is answered with on a socket, if it is. -/
def reply (d : Daemon W) (listener : Listener) : Option (List UInt8) :=
  d.ud.reply d.command listener

/-- The reply has to wait until the client receives earlier ones, or closes. -/
def WriteBlocks (d : Daemon W) (listener : Listener) (id : ℕ) : Prop :=
  (d.reply listener).isSome = true ∧ ¬ (d.net.connections id).Writable setup.limits

instance (d : Daemon W) (listener : Listener) (id : ℕ) :
    Decidable (d.WriteBlocks setup listener id) := inferInstanceAs (Decidable (_ ∧ ¬ _))

/-- The body of the read loop, if its write does not block. The result of the write on the off
socket is ignored; the other handler throws if it is negative. A write to a connection whose peer
has closed raises SIGPIPE. -/
def serve (d : Daemon W) (listener : Listener) (offReady : Bool) (id : ℕ) (ok : Bool) : Daemon W :=
  let flagged : Daemon W :=
    match listener with
    | .off => { d with ud := { d.ud with powerOffFlag := true } }
    | .batteryLevel => d
  let again : Daemon W := { flagged with pc := .read listener offReady id }
  match d.reply listener with
  | none => again
  | some bytes =>
      if (d.net.connections id).peerClosed = true ∧ daemonDisposition .pipe = .terminate then
        { flagged with pc := .killed }
      else if (d.net.connections id).peerClosed = false ∧ ok = true then
        { again with net := d.net.deliver id bytes }
      else
        match listener with
        | .off => again
        | .batteryLevel => again.throwRuntimeError

/-- `if(ud->is_power_off()) gpio_write_off(conf);` and the end of the iteration. -/
def checkOff (d : Daemon W) : Daemon W :=
  let checked : Daemon W :=
    { d with
      pc := .iterate
      history := { d.history with
        offChecks := d.history.offChecks + if d.history.offStreams.flatten = [] then 0 else 1 } }
  if d.ud.powerOffFlag then
    { checked with
      world := (gpioWriteOff (setup.files d.descriptors) setup.conf d.world).2
      history := { checked.history with offWrites := checked.history.offWrites + 1 } }
  else checked

/-- The state in which the loop is entered, after the first measurement. -/
def start (world : W) (lastRead : Timeval) (log : Option Logger) (net : Network)
    (descriptors : Finset ℕ) : Daemon W :=
  measure setup
    { world := world
      pc := .iterate
      ud := ⟨false, 0, 0⟩
      batteryLevelRaw := 0
      batteryLevelPercent := 0
      lastRead := lastRead
      batteryLevelLog := log
      command := .init
      net := net
      descriptors := descriptors
      history := ⟨none, none, 0, [], 0, 0, descriptors, 0⟩ }

def step (d : Daemon W) (event : DaemonEvent) : Option (Daemon W) :=
  match event, d.pc with
  | .iterate now stamp room, .iterate => some (d.iterate setup now stamp room)
  | .select ok, .select => some (d.select ok)
  | .accept ok, .accept listener offReady => d.accept setup listener offReady ok
  | .read n ok, .read listener offReady id => d.read listener offReady id n ok
  | .serve ok, .serve listener offReady id =>
      if d.WriteBlocks setup listener id then none else some (d.serve listener offReady id ok)
  | .checkOff, .checkOff => some (d.checkOff setup)
  | .connect listener, _ => some { d with net := d.net.connect listener }
  | .send id bytes, _ => (d.net.send id bytes).map fun net => { d with net := net }
  | .receive id left, _ => some { d with net := d.net.receive id left }
  | .close id, _ => some { d with net := d.net.close id }
  | _, _ => none

end Daemon

def daemonMachine : Machine (Daemon W) DaemonEvent where
  step := Daemon.step setup

end Rocpmd

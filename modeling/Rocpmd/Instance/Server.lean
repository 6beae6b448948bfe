import Rocpmd.Daemon.Network
import Rocpmd.Foundation.LocalSockets
import Rocpmd.Instance.Singleton

/-!
# Processes that construct servers

The constructor of `ud_server`, call by call, inside the processes that contend for the lock file.
It removes the path of each socket, whoever the path belongs to, before it binds a socket of its own
to it. No one ever removes the paths at the end.
-/

namespace Rocpmd

open Foundation

/-! ## The constructor -/

inductive SocketCall
  | socket | unlink | bind | chmod | listen
deriving DecidableEq, Repr

/-- The second argument of `listen`. -/
def listenBacklog : ℕ := 50

/-- The system calls of `init_ud_socket`. -/
def initUdSocket : List SocketCall := [.socket, .unlink, .bind, .chmod, .listen]

/-- The path of a socket, for the server and for its clients. -/
def Listener.path : Listener → String
  | .off => "/tmp/rocpmd_off"
  | .batteryLevel => "/tmp/rocpmd_power_level"

/-- The system calls of the constructor of `ud_server`. -/
def udServerCalls : List (Listener × SocketCall) :=
  initUdSocket.map (fun call => (.off, call)) ++
    initUdSocket.map fun call => (.batteryLevel, call)

abbrev UnixSockets := LocalSockets String ℕ

/-- A `ud_server`: the calls its constructor has still to make, and `socket_fd` of its contexts. -/
structure ServerSockets where
  rest : List (Listener × SocketCall)
  socketFd : Listener → Option ℕ

namespace ServerSockets

def init : ServerSockets := ⟨udServerCalls, fun _ => none⟩

/-- One call of the constructor in process `p`. There is no outcome if it throws; the outcomes of
`unlink` and `chmod` are ignored. -/
def call (server : ServerSockets) (sockets : UnixSockets) (p : ℕ) (listener : Listener)
    (ok : Bool) :
    SocketCall → Option ((Listener → Option ℕ) × UnixSockets)
  | .socket =>
      if ok then
        some (Function.update server.socketFd listener (some (sockets.socket p).1),
          (sockets.socket p).2)
      else none
  | .unlink => some (server.socketFd, if ok then sockets.unlink listener.path else sockets)
  | .bind =>
      if ok then
        (server.socketFd listener).bind fun id =>
          (sockets.bind id listener.path).map fun bound => (server.socketFd, bound)
      else none
  | .chmod => some (server.socketFd, sockets)
  | .listen =>
      if ok then
        (server.socketFd listener).map fun id => (server.socketFd, sockets.listen id listenBacklog)
      else none

end ServerSockets

/-! ## The system -/

structure ServedSystem where
  system : System
  sockets : UnixSockets
  servers : ℕ → ServerSockets

inductive ServedEvent
  | system (event : SystemEvent)
  | construct (p : ℕ) (ok : Bool)
  /-- A client makes a call of `connect` that does not block. -/
  | connect (listener : Listener)
  /-- A daemon accepts a connection in its loop. -/
  | accept (p : ℕ) (listener : Listener)

/-- The process whose step it is. -/
def SystemEvent.process : SystemEvent → ℕ
  | .start p _ _ | .advance p _ | .fork p _ _ | .answered p | .signal p _ | .halt p | .crash p => p

/-- The event is the step over the whole constructor. -/
def System.constructs (s : System) : SystemEvent → Bool
  | .advance p _ => (s.procs p).any (·.pc == .newServer)
  | _ => false

namespace ServedSystem

/-- No process runs. Names may be left behind, of sockets that are closed. -/
def initial (stale : Option (List Char)) (sockets : UnixSockets) : ServedSystem where
  system := .initial stale
  sockets := sockets
  servers := fun _ => .init

/-- The sockets of a process that has ended are closed. -/
def after (s : ServedSystem) (p : ℕ) (next : System) : ServedSystem :=
  if (next.procs p).isNone then
    { system := next
      sockets := s.sockets.closeAll p
      servers := Function.update s.servers p .init }
  else { s with system := next }

@[simp] theorem after_system (s : ServedSystem) (p : ℕ) (next : System) :
    (s.after p next).system = next := by
  unfold after
  split <;> rfl

/-- The next call of the constructor, or the end of it, by returning or by throwing. -/
def construct (s : ServedSystem) (p : ℕ) (ok : Bool) : Option ServedSystem :=
  match (s.servers p).rest with
  | [] => (s.system.step (.advance p true)).map fun next => { s with system := next }
  | (listener, call) :: rest =>
      match (s.servers p).call s.sockets p listener ok call with
      | some (socketFd, sockets) =>
          some { s with
            sockets := sockets
            servers := Function.update s.servers p ⟨rest, socketFd⟩ }
      | none => (s.system.step (.advance p false)).map fun next => { s with system := next }

def connect (s : ServedSystem) (listener : Listener) : Option ServedSystem :=
  match s.sockets.connect listener.path with
  | .refused => some s
  | .blocked _ _ => none
  | .connected _ id => some { s with sockets := s.sockets.enqueue id }

def accept (s : ServedSystem) (p : ℕ) (listener : Listener) : Option ServedSystem :=
  ((s.servers p).socketFd listener).bind fun id =>
    (s.sockets.accept id).map fun sockets => { s with sockets := sockets }

def step (s : ServedSystem) : ServedEvent → Option ServedSystem
  | .system event =>
      if s.system.constructs event then none
      else (s.system.step event).map (s.after event.process)
  | .construct p ok =>
      if (s.system.procs p).any (·.pc == .newServer) then s.construct p ok else none
  | .connect listener => s.connect listener
  | .accept p listener =>
      if (s.system.procs p).any (·.pc == .loop) then s.accept p listener else none

end ServedSystem

def servedMachine : Machine ServedSystem ServedEvent where
  step := ServedSystem.step

/-! ## Steps -/

namespace ServedSystem

variable {s next : ServedSystem} {event : ServedEvent}

/-- Every step, by what it does. -/
inductive Step (s : ServedSystem) : ServedEvent → ServedSystem → Prop
  | system {event : SystemEvent} {next : System} (hother : s.system.constructs event = false)
      (hstep : System.Step s.system event next) :
      Step s (.system event) (s.after event.process next)
  | returned {p : ℕ} {ok : Bool} {proc : Process} (hproc : s.system.procs p = some proc)
      (hpc : proc.pc = .newServer) (hrest : (s.servers p).rest = []) :
      Step s (.construct p ok) { s with system := s.system.put p (proc.goto .newLog) }
  | thrown {p : ℕ} {ok : Bool} {proc : Process} (hproc : s.system.procs p = some proc)
      (hpc : proc.pc = .newServer) :
      Step s (.construct p ok) { s with system := s.system.put p (proc.goto .exiting) }
  | called {p : ℕ} {ok : Bool} {proc : Process} {listener : Listener} {call : SocketCall}
      {rest : List (Listener × SocketCall)} {socketFd : Listener → Option ℕ}
      {sockets : UnixSockets} (hproc : s.system.procs p = some proc) (hpc : proc.pc = .newServer)
      (hrest : (s.servers p).rest = (listener, call) :: rest)
      (hcall : (s.servers p).call s.sockets p listener ok call = some (socketFd, sockets)) :
      Step s (.construct p ok)
        { s with sockets := sockets, servers := Function.update s.servers p ⟨rest, socketFd⟩ }
  | queues {event : ServedEvent} (waiting : ℕ → ℕ) :
      Step s event { s with sockets := { s.sockets with waiting := waiting } }

theorem advance_newServer {p : ℕ} {proc : Process} (hproc : s.system.procs p = some proc)
    (hpc : proc.pc = .newServer) (ok : Bool) :
    s.system.step (.advance p ok) =
      some (s.system.put p (proc.goto (if ok then .newLog else .exiting))) := by
  simp [System.step, hproc, System.advance, hpc]

theorem Step.of_step (hstep : servedMachine.step s event = some next) : Step s event next := by
  simp only [servedMachine, step] at hstep
  cases event with
  | system event =>
      dsimp only at hstep
      split at hstep
      next => cases hstep
      next hother =>
        obtain ⟨system, hsystem, rfl⟩ := Option.map_eq_some_iff.mp hstep
        exact .system (Bool.eq_false_iff.mpr hother) (.of_step hsystem)
  | construct p ok =>
      dsimp only at hstep
      split at hstep
      next hbuilding =>
        obtain ⟨proc, hproc, hnew⟩ := (Option.any_eq_true _ _).mp hbuilding
        have hpc : proc.pc = .newServer := by simpa using hnew
        unfold construct at hstep
        split at hstep
        next hrest =>
          rw [advance_newServer hproc hpc] at hstep
          obtain rfl := Option.some.inj hstep
          exact .returned hproc hpc hrest
        next hrest =>
          split at hstep
          next hcall =>
            obtain rfl := Option.some.inj hstep
            exact .called hproc hpc hrest hcall
          next =>
            rw [advance_newServer hproc hpc] at hstep
            obtain rfl := Option.some.inj hstep
            exact .thrown hproc hpc
      next => cases hstep
  | connect listener =>
      dsimp only [connect] at hstep
      split at hstep
      next =>
        obtain rfl := Option.some.inj hstep
        exact .queues s.sockets.waiting
      next => cases hstep
      next =>
        obtain rfl := Option.some.inj hstep
        exact .queues _
  | accept p listener =>
      dsimp only [accept] at hstep
      split at hstep
      next =>
        obtain ⟨id, -, haccept⟩ := Option.bind_eq_some_iff.mp hstep
        obtain ⟨sockets, hsockets, rfl⟩ := Option.map_eq_some_iff.mp haccept
        unfold LocalSockets.accept at hsockets
        split at hsockets
        next =>
          obtain rfl := Option.some.inj hsockets
          exact .queues _
        next => cases hsockets
      next => cases hstep

end ServedSystem

/-! ## Where a process is with its server -/

/-- The process has not yet come to its server. -/
def ProcessPc.beforeServer : ProcessPc → Bool
  | .newServer | .newLog | .loop | .handler | .handlerCleanup _ | .deleteConf | .deleteLog
  | .unlock | .closeLock | .unlinkLock | .exiting => false
  | _ => true

/-- What a step can do, except for the one over the constructor: no process comes back, and it comes
into `daemon_main` at the constructor only. -/
structure ProcessPc.LeadsTo (pc next : ProcessPc) : Prop where
  before : next.beforeServer = true → pc.beforeServer = true
  inside : next.inDaemonMain = true → pc.beforeServer = true ∧ next = .newServer ∨
    pc.inDaemonMain = true ∧ (pc = .newServer → next = .newServer)

namespace ProcessPc.LeadsTo

variable {pc next : ProcessPc}

theorem refl (pc : ProcessPc) : pc.LeadsTo pc := ⟨id, fun hin => .inr ⟨hin, id⟩⟩

theorem of_before (hpc : pc.beforeServer = true) (hout : next.inDaemonMain = false) :
    pc.LeadsTo next where
  before := fun _ => hpc
  inside := fun hin => by rw [hout] at hin; cases hin

theorem of_after (hnext : next.beforeServer = false) (hout : next.inDaemonMain = false) :
    pc.LeadsTo next where
  before := fun hbefore => by rw [hnext] at hbefore; cases hbefore
  inside := fun hin => by rw [hout] at hin; cases hin

end ProcessPc.LeadsTo

namespace Process

variable (proc : Process)

theorem afterInit_out : proc.afterInit.inDaemonMain = false := by
  rcases proc.afterInit_cases with ⟨h, _⟩ | ⟨h | h, _⟩ <;> rw [h] <;> rfl

theorem answer_out (probe : Probe) (status : InstanceStatus) :
    (proc.answer probe status).pc.inDaemonMain = false := by
  rcases proc.answer_cases probe status with h | h | h | h | h | h <;> rw [h] <;> rfl

theorem decide_out : proc.decide.pc.inDaemonMain = false := by
  rw [decide_pc]
  split <;> rfl

end Process

namespace System

variable {s next : System} {p : ℕ} {proc moved : Process} {ok : Bool}

theorem beforeServer_of_probeAnswer {probe : Probe} {status : InstanceStatus}
    (hanswer : s.probeAnswer proc ok = some (probe, status)) : proc.pc.beforeServer = true := by
  unfold probeAnswer at hanswer
  split at hanswer
  next hpc => rw [hpc]; rfl
  next hpc => rw [hpc]; rfl
  next => cases hanswer

theorem Advance.leadsTo (hadvance : Advance s p proc ok next) (hother : proc.pc ≠ .newServer)
    (hmoved : next.procs p = some moved) : proc.pc.LeadsTo moved.pc := by
  have hself : ∀ {base : System} {other : Process}, (base.put p other).procs p = some moved →
      other = moved := by
    intro base other hother
    rw [put_procs_self] at hother
    exact Option.some.inj hother
  cases hadvance with
  | exits hnext | closes _ hnext | unlinks _ hnext =>
      obtain rfl := hself hmoved
      exact .of_after (by rw [hnext]; rfl) (by rw [hnext]; rfl)
  | boots hpc hnext | loads hpc hnext | detaches hpc hnext =>
      obtain rfl := hself hmoved
      exact .of_before (by rw [hpc]; rfl) (by rw [hnext]; rfl)
  | finds hpc | reads _ hpc | initStep hpc | powersOff hpc | opens hpc | locks hpc
  | truncates hpc =>
      obtain rfl := hself hmoved
      exact .of_before (by rw [hpc]; rfl) rfl
  | answers hanswer =>
      obtain rfl := hself hmoved
      exact .of_before (beforeServer_of_probeAnswer hanswer) (proc.answer_out _ _)
  | initFails hpc | initialises hpc =>
      obtain rfl := hself hmoved
      exact .of_before (by rw [hpc]; rfl) proc.afterInit_out
  | shows hpc =>
      obtain rfl := hself hmoved
      refine .of_before (by rw [hpc]; rfl) ?_
      rcases proc.afterBatteryLevel_cases with h | h <;> rw [Process.goto, h] <;> rfl
  | decides hpc =>
      obtain rfl := hself hmoved
      exact .of_before (by rw [hpc]; rfl) proc.decide_out
  | cleans hpc hafter =>
      obtain rfl := hself hmoved
      exact .of_before (by rw [hpc]; rfl) (by rcases hafter with rfl | rfl <;> rfl)
  | writesPid hpc =>
      obtain rfl := hself hmoved
      refine ⟨?_, fun _ => .inl ⟨by rw [hpc]; rfl, rfl⟩⟩
      intro hbefore
      cases hbefore
  | serves hpc hnext =>
      obtain rfl := hself hmoved
      have hlog := hpc.resolve_left hother
      have hin : proc.pc.inDaemonMain = true := by rw [hlog]; rfl
      refine ⟨?_, fun _ => .inr ⟨hin, fun h => absurd h hother⟩⟩
      rcases hnext with h | h <;> rw [h] <;> intro hbefore <;> cases hbefore
  | handles =>
      obtain rfl := hself hmoved
      rcases proc.handler_pc with ⟨h, _⟩ | ⟨h, _⟩ | h <;> rw [h] <;> exact .of_after rfl rfl
  | handlerCleans _ hafter =>
      obtain rfl := hself hmoved
      rcases hafter with rfl | rfl <;> exact .of_after rfl rfl
  | deletes _ hnext =>
      obtain rfl := hself hmoved
      rcases hnext with h | h | h <;> rw [h] <;> exact .of_after rfl rfl
  | unlocks =>
      obtain rfl := hself hmoved
      exact .of_after rfl rfl
  | ends =>
      rw [remove_procs_self] at hmoved
      cases hmoved

/-- Whoever is there after a step comes new to the program, or was led on by the step. -/
theorem Step.leadsTo {event : SystemEvent} (hstep : Step s event next)
    (hother : s.constructs event = false) {q : ℕ} (hmoved : next.procs q = some moved) :
    s.procs q = none ∧ moved.pc.inDaemonMain = false ∨
      ∃ proc, s.procs q = some proc ∧ proc.pc.LeadsTo moved.pc := by
  have hput : ∀ {base : System} {p : ℕ} {other : Process}, base.procs = s.procs →
      (base.put p other).procs q = some moved → q = p ∧ other = moved ∨
        ∃ proc, s.procs q = some proc ∧ proc.pc.LeadsTo moved.pc := by
    intro base p other hprocs hother
    rcases put_procs_cases hother with ⟨rfl, rfl⟩ | ⟨-, hbefore⟩
    · exact .inl ⟨rfl, rfl⟩
    · exact .inr ⟨moved, hprocs ▸ hbefore, .refl _⟩
  cases hstep with
  | start opts conf hfree =>
      rcases hput rfl hmoved with ⟨rfl, rfl⟩ | hled
      · exact .inl ⟨hfree, rfl⟩
      · exact .inr hled
  | @advance p proc _ _ hproc hadvance =>
      have hled := Advance.of_advance hadvance
      rcases eq_or_ne q p with rfl | hne
      · refine .inr ⟨proc, hproc, hled.leadsTo ?_ hmoved⟩
        rintro hpc
        simp [constructs, hproc, hpc] at hother
      · rw [hled.procs_of_ne hne] at hmoved
        exact .inr ⟨moved, hmoved, .refl _⟩
  | forkFailed hproc =>
      rcases hput rfl hmoved with ⟨rfl, rfl⟩ | hled
      · exact .inr ⟨_, hproc, .of_after rfl rfl⟩
      · exact .inr hled
  | @forked p child proc childPc hproc hfree hpc =>
      rcases put_procs_cases hmoved with ⟨rfl, rfl⟩ | ⟨-, hchild⟩
      · exact .inr ⟨_, hproc, .of_after rfl rfl⟩
      · rcases hput rfl hchild with ⟨rfl, rfl⟩ | hled
        · refine .inl ⟨hfree, ?_⟩
          rcases hpc with ⟨-, rfl⟩ | ⟨-, rfl⟩ <;> rfl
        · exact .inr hled
  | @answered p proc hproc hasking =>
      rcases hput rfl hmoved with ⟨rfl, rfl⟩ | hled
      · refine .inr ⟨proc, hproc, .of_before (by rw [hasking.1]; rfl) ?_⟩
        rcases proc.afterBatteryLevel_cases with h | h <;> rw [Process.goto, h] <;> rfl
      · exact .inr hled
  | terminated | crash => exact .inr ⟨moved, procs_of_remove hmoved, .refl _⟩
  | handled _ hproc =>
      rcases hput rfl hmoved with ⟨rfl, rfl⟩ | hled
      · exact .inr ⟨_, hproc, .of_after rfl rfl⟩
      · exact .inr hled
  | ignored => exact .inr ⟨moved, hmoved, .refl _⟩
  | @halt p proc hproc =>
      rcases hput rfl hmoved with ⟨rfl, rfl⟩ | hled
      · refine .inr ⟨_, hproc, ?_⟩
        rcases proc.deleteRocpmd_pc with ⟨h, _⟩ | ⟨h, _⟩ <;> rw [h] <;> exact .of_after rfl rfl
      · exact .inr hled

/-- Only the process of the event can end. -/
theorem Step.procs_none {event : SystemEvent} (hstep : Step s event next) {q : ℕ}
    (hne : q ≠ event.process) (hend : next.procs q = none) : s.procs q = none := by
  have hput : ∀ {base : System} {p : ℕ} {other : Process},
      (base.put p other).procs q = none → base.procs q = none := by
    intro base p other hnone
    rcases eq_or_ne q p with rfl | hne
    · simp at hnone
    · rwa [put_procs_of_ne _ _ hne] at hnone
  cases hstep with
  | start | forkFailed | answered | handled | halt => exact hput hend
  | advance _ hadvance => exact (Advance.of_advance hadvance).procs_of_ne hne ▸ hend
  | forked => exact hput (hput hend)
  | terminated | crash => exact remove_procs_of_ne s hne ▸ hend
  | ignored => exact hend

end System

end Rocpmd

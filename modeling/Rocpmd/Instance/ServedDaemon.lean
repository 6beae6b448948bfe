import Rocpmd.Instance.Sockets

/-!
# Clients reach the daemon

While the lock file is respected, no two constructors of servers overlap, so both paths lead to the
daemon from the end of its constructor on.
-/

namespace Rocpmd

open Foundation

/-- What the calls made so far for a socket have come to. -/
def Built (server : ServerSockets) (sockets : UnixSockets) (listener : Listener) : Prop :=
  (listener, .socket) ∉ server.rest →
    ∃ id, server.socketFd listener = some id ∧
      ((listener, .bind) ∉ server.rest → sockets.name listener.path = some id) ∧
      ((listener, .listen) ∉ server.rest →
        sockets.listening id = true ∧ sockets.backlog id = listenBacklog)

theorem built_init (sockets : UnixSockets) (listener : Listener) : Built .init sockets listener :=
  fun hsocket => absurd (by cases listener <;> decide) hsocket

namespace ServerSockets

variable {server : ServerSockets} {sockets next : UnixSockets} {p : ℕ} {listener other : Listener}
  {call : SocketCall} {rest : List (Listener × SocketCall)} {socketFd : Listener → Option ℕ}

/-- A call for one socket does nothing to the other. -/
theorem Called.built_of_ne (hcalled : server.Called sockets p listener call socketFd next)
    (hrest : server.rest = (listener, call) :: rest)
    (howned : ∀ l id, server.socketFd l = some id → sockets.owner id = some p)
    (hne : other ≠ listener) (hbuilt : Built server sockets other) :
    Built ⟨rest, socketFd⟩ next other := by
  have hkept : ∀ {c}, (other, c) ∉ rest → (other, c) ∉ server.rest := by
    intro c hc
    simp [hrest, hne, hc]
  intro hsocket
  obtain ⟨id, hfd, hname, hlistening⟩ := hbuilt (hkept hsocket)
  refine ⟨id, (hcalled.socketFd_eq fun _ => hne).trans hfd, fun hbind => ?_, fun hlisten => ?_⟩
  · have hpath : other.path ≠ listener.path := fun h => hne (Listener.path_injective h)
    have hbefore := hname (hkept hbind)
    cases hcalled with
    | socket | chmod | listen => exact hbefore
    | unlink hnext =>
        rcases hnext with rfl | rfl
        · exact (Function.update_of_ne hpath _ _).trans hbefore
        · exact hbefore
    | bind _ hbound =>
        rw [(sockets.bind_some hbound).1]
        exact (Function.update_of_ne hpath _ _).trans hbefore
  · obtain ⟨hlistens, hbacklog⟩ := hlistening (hkept hlisten)
    exact ⟨hcalled.listening_mono (sockets.lt_of_owner (howned other id hfd)) hlistens,
      hcalled.backlog_mono hbacklog⟩

/-- A call for a socket that has come so far. -/
theorem Called.built_self (hcalled : server.Called sockets p listener call socketFd next)
    (hrest : server.rest = (listener, call) :: rest) (horder : CallOrder listener call rest)
    (howned : ∀ l id, server.socketFd l = some id → sockets.owner id = some p)
    (hbuilt : Built server sockets listener) : Built ⟨rest, socketFd⟩ next listener := by
  have hkept : ∀ {c}, c ≠ call → (listener, c) ∉ rest → (listener, c) ∉ server.rest := by
    intro c hne hc
    simp [hrest, hne, hc]
  intro hsocket
  by_cases hcall : call = .socket
  · -- a new socket, and everything else is still to come
    subst hcall
    cases hcalled with
    | socket =>
        exact ⟨_, Function.update_self .., fun h => absurd (horder.bind_later (.inl rfl)) h,
          fun h => absurd (horder.listen_later rfl) h⟩
  · obtain ⟨id, hfd, hname, hlistening⟩ := hbuilt (hkept (Ne.symm hcall) hsocket)
    refine ⟨id, (hcalled.socketFd_eq fun h => absurd h hcall).trans hfd, fun hbind => ?_,
      fun hlisten => ?_⟩
    · cases hcalled with
      | socket => exact absurd rfl hcall
      | unlink => exact absurd (horder.bind_later (.inr rfl)) hbind
      | bind hfd' hbound =>
          rw [(sockets.bind_some hbound).1, Function.update_self, ← hfd', hfd]
      | chmod | listen => exact hname (hkept nofun hbind)
    · cases hcalled with
      | socket => exact absurd rfl hcall
      | listen hfd' =>
          obtain rfl := Option.some.inj (hfd.symm.trans hfd')
          exact ⟨Function.update_self .., Function.update_self ..⟩
      | unlink hnext =>
          rcases hnext with rfl | rfl <;> exact hlistening (hkept nofun hlisten)
      | bind _ hbound =>
          obtain ⟨-, -, hlistens, hbacklog⟩ := sockets.bind_some hbound
          rw [hlistens, hbacklog]
          exact hlistening (hkept nofun hlisten)
      | chmod => exact hlistening (hkept nofun hlisten)

end ServerSockets

/-- The name of the lock file is removed only while the file is not in use. -/
def ServedQuietly (s : ServedSystem) : ServedEvent → Prop
  | .system event => QuietUnlink s.system event
  | .construct _ _ | .connect _ | .accept _ _ => True

instance (s : ServedSystem) : ∀ event, Decidable (ServedQuietly s event)
  | .system event => inferInstanceAs (Decidable (QuietUnlink s.system event))
  | .construct _ _ | .connect _ | .accept _ _ => inferInstanceAs (Decidable True)

/-- The lock file guards `daemon_main`, and the server in it has what its calls have come to. -/
structure ServedInvariant (s : ServedSystem) : Prop where
  lock : LockInvariant s.system
  sockets : SocketInvariant s
  built : ∀ q, s.system.InDaemonMain q → ∀ listener, Built (s.servers q) s.sockets listener

namespace ServedInvariant

variable {s : ServedSystem}

theorem initial (stale : Option (List Char)) {sockets : UnixSockets}
    (hclosed : ∀ id, sockets.owner id = none) : ServedInvariant (.initial stale sockets) where
  lock := .initial stale
  sockets := .initial stale hclosed
  built := fun _ hin => by
    obtain ⟨_, hproc, _⟩ := hin
    cases hproc

/-- Closing the sockets of others leaves what was built. -/
theorem built_after {p : ℕ} {next : System} {q : ℕ} (hq : next.procs q ≠ none)
    {listener : Listener} (hbuilt : Built (s.servers q) s.sockets listener) :
    Built ((s.after p next).servers q) (s.after p next).sockets listener := by
  unfold ServedSystem.after
  split
  next hend =>
    have hne : q ≠ p := fun h => hq (h ▸ Option.isNone_iff_eq_none.mp hend)
    dsimp only
    rw [Function.update_of_ne hne]
    exact hbuilt
  next => exact hbuilt

theorem system (hinv : ServedInvariant s) {event : SystemEvent} {next : System}
    (hother : s.system.constructs event = false) (hstep : System.Step s.system event next)
    (hquiet : QuietUnlink s.system event) : ServedInvariant (s.after event.process next) where
  lock := by
    rw [s.after_system]
    exact hinv.lock.step hstep hquiet
  sockets := hinv.sockets.system hother hstep
  built := by
    rw [s.after_system]
    rintro q ⟨moved, hmoved, hin⟩ listener
    refine built_after (by rw [hmoved]; nofun) ?_
    rcases hstep.leadsTo hother hmoved with ⟨-, hout⟩ | ⟨proc, hproc, hleads⟩
    · rw [hout] at hin
      cases hin
    · rcases hleads.inside hin with ⟨hbefore, -⟩ | ⟨hin', -⟩
      · -- the server is yet to be built
        have hinit : s.servers q = .init := by
          refine (hinv.sockets.fresh q fun other hother => ?_).1
          rwa [Option.some.inj (hother.symm.trans hproc)]
        rw [hinit]
        exact built_init s.sockets listener
      · exact hinv.built q ⟨proc, hproc, hin'⟩ listener

/-- The constructor ends in process `p`. -/
theorem moved (hinv : ServedInvariant s) {p : ℕ} {proc : Process} (ok : Bool)
    (hproc : s.system.procs p = some proc) (hpc : proc.pc = .newServer)
    (hsockets : SocketInvariant
      { s with system := s.system.put p (proc.goto (if ok then .newLog else .exiting)) }) :
    ServedInvariant
      { s with system := s.system.put p (proc.goto (if ok then .newLog else .exiting)) } where
  lock := by
    have hstep : System.Step s.system (.advance p ok) _ :=
      .of_step (ServedSystem.advance_newServer hproc hpc ok)
    refine hinv.lock.step hstep fun other hother hunlink => ?_
    obtain rfl : other = proc := Option.some.inj ((Option.mem_def.mp hother).symm.trans hproc)
    cases hunlink.symm.trans hpc
  sockets := hsockets
  built := by
    rintro q ⟨moved, hmoved, hin⟩ listener
    rcases System.put_procs_cases hmoved with ⟨rfl, rfl⟩ | ⟨-, hsame⟩
    · exact hinv.built q ⟨proc, hproc, by rw [hpc]; rfl⟩ listener
    · exact hinv.built q ⟨moved, hsame, hin⟩ listener

theorem step {event : ServedEvent} {next : ServedSystem} (hinv : ServedInvariant s)
    (hstep : ServedSystem.Step s event next) (hquiet : ServedQuietly s event) :
    ServedInvariant next := by
  have hsockets := hinv.sockets.step hstep
  cases hstep with
  | system hother hstep => exact hinv.system hother hstep hquiet
  | returned hproc hpc => exact hinv.moved true hproc hpc hsockets
  | thrown hproc hpc => exact hinv.moved false hproc hpc hsockets
  | @called p _ proc listener call rest socketFd sockets hproc hpc hrest hcall =>
      refine ⟨hinv.lock, hsockets, fun q hin other => ?_⟩
      -- the lock file keeps every other process out of its own constructor
      have hp : s.system.InDaemonMain p := ⟨proc, hproc, by rw [hpc]; rfl⟩
      obtain rfl : q = p := hinv.lock.atMostOneDaemon q p hin hp
      have hcalled := ServerSockets.Called.of_call hcall
      have horder := callOrder_of_suffix (hrest ▸ hinv.sockets.suffix q)
      dsimp only
      rw [Function.update_self]
      rcases eq_or_ne other listener with rfl | hne
      · exact hcalled.built_self hrest horder (hinv.sockets.owned q) (hinv.built q hin other)
      · exact hcalled.built_of_ne hrest (hinv.sockets.owned q) hne (hinv.built q hin other)
  | queues => exact ⟨hinv.lock, hsockets, hinv.built⟩

end ServedInvariant

/-- **Clients reach the daemon.** Over any run in which the name of the lock file is removed only
while the file is not in use, whatever sockets earlier daemons left behind: from the moment its
constructor of the server has returned until it leaves `daemon_main`, a client that connects to
either path is not refused. It gets to the daemon, or blocks while more connections than the backlog
wait for that daemon to accept them. -/
theorem clients_reach_daemon (stale : Option (List Char)) {sockets : UnixSockets}
    (hclosed : ∀ id, sockets.owner id = none) {s : ServedSystem}
    (hreach : servedMachine.ReachableUnder ServedQuietly (.initial stale sockets) s) {p : ℕ}
    {proc : Process} (hproc : s.system.procs p = some proc) (hin : proc.pc.inDaemonMain = true)
    (hserver : proc.pc ≠ .newServer) (listener : Listener) :
    ∃ id, (s.servers p).socketFd listener = some id ∧
      s.sockets.connect listener.path =
        if s.sockets.waiting id ≤ listenBacklog then .connected p id else .blocked p id := by
  have hinv : ServedInvariant s := hreach.invariant (.initial stale hclosed)
    fun _ _ _ hinv hquiet hnext => hinv.step (.of_step hnext) hquiet
  have hrest := hinv.sockets.complete p proc hproc hin hserver
  have hdone : ∀ call, (listener, call) ∉ (s.servers p).rest := by simp [hrest]
  obtain ⟨id, hfd, hname, hlistening⟩ := hinv.built p ⟨proc, hproc, hin⟩ listener (hdone _)
  obtain ⟨hlistens, hbacklog⟩ := hlistening (hdone _)
  have hlistener : s.sockets.listener listener.path = some (p, id) :=
    s.sockets.listener_eq_some_iff.mpr
      ⟨hname (hdone _), hlistens, hinv.sockets.owned p listener id hfd⟩
  exact ⟨id, hfd, hbacklog ▸ s.sockets.connect_of_listener hlistener⟩

/-- A daemon is started, stopped and started again, and as many clients as can be let in connect. -/
def servedRestart : List ServedEvent :=
  (launch 1 2 3 20 ++ advances 3 4).map .system ++ constructs 3 ++
    ([SystemEvent.signal 3 .term] ++ advances 3 15 ++ launch 4 5 6 20 ++
      advances 6 4).map .system ++ constructs 6 ++ List.replicate 51 (.connect .batteryLevel)

theorem clients_reach_daemon_restart : ∃ s proc,
    servedMachine.run (.initial none .empty) servedRestart = some s ∧
      s.system.procs 6 = some proc ∧ proc.pc = .newLog ∧
      s.sockets.connect Listener.batteryLevel.path = .blocked 6 3 ∧
      ∃ id, (s.servers 6).socketFd .off = some id ∧
        s.sockets.connect Listener.off.path =
          if s.sockets.waiting id ≤ listenBacklog then .connected 6 id else .blocked 6 id := by
  have hmeets : servedMachine.Meets ServedQuietly (.initial none .empty) servedRestart := by
    decide +kernel
  have hrun : ∃ s ∈ servedMachine.run (.initial none .empty) servedRestart,
      (s.system.procs 6).any (·.pc = .newLog) = true ∧
        s.sockets.connect Listener.batteryLevel.path = .blocked 6 3 := by
    decide +kernel
  obtain ⟨s, hs, hsix, hblocked⟩ := hrun
  obtain ⟨proc, hproc, hlog⟩ := (Option.any_eq_true _ _).mp hsix
  have hpc : proc.pc = .newLog := by simpa using hlog
  refine ⟨s, proc, hs, hproc, hpc, hblocked, ?_⟩
  exact clients_reach_daemon none (fun _ => rfl) (Machine.ReachableUnder.start.of_run hmeets hs)
    hproc (by rw [hpc]; rfl) (by rw [hpc]; nofun) .off

end Rocpmd

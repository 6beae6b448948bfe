import Mathlib.Data.List.Infix
import Rocpmd.Instance.Server

/-!
# Whose sockets the paths lead to

Whatever the processes do, a path leads to a socket that its owner has bound to it, listening for
the requests of that kind, or to none that is open.
-/

namespace Rocpmd

open Foundation

/-! ## What a call does -/

/-- The calls still to be made are in the order of the constructor. -/
structure CallOrder (listener : Listener) (call : SocketCall)
    (rest : List (Listener × SocketCall)) : Prop where
  once : (listener, call) ∉ rest
  socket_first : call ≠ .socket → (listener, .socket) ∉ rest
  bind_later : call = .socket ∨ call = .unlink → (listener, .bind) ∈ rest
  listen_later : call = .socket → (listener, .listen) ∈ rest

theorem callOrder_of_suffix {listener : Listener} {call : SocketCall}
    {rest : List (Listener × SocketCall)} (hsuffix : (listener, call) :: rest <:+ udServerCalls) :
    CallOrder listener call rest := by
  have htails : (listener, call) :: rest ∈ udServerCalls.tails := (List.mem_tails _ _).mpr hsuffix
  simp only [udServerCalls, initUdSocket, List.map_cons, List.map_nil, List.cons_append,
    List.nil_append, List.tails, List.mem_cons, List.cons.injEq, Prod.mk.injEq, reduceCtorEq,
    List.not_mem_nil, or_false] at htails
  rcases htails with h | h | h | h | h | h | h | h | h | h <;> obtain ⟨⟨rfl, rfl⟩, rfl⟩ := h <;>
    constructor <;> decide

theorem Listener.path_injective : Function.Injective Listener.path := by
  intro left right hpath
  cases left <;> cases right <;> first | rfl | exact absurd hpath (by decide)

namespace ServerSockets

/-- Every call that does not throw, by what it does. -/
inductive Called (server : ServerSockets) (sockets : UnixSockets) (p : ℕ) (listener : Listener) :
    SocketCall → (Listener → Option ℕ) → UnixSockets → Prop
  | socket : Called server sockets p listener .socket
      (Function.update server.socketFd listener (some (sockets.socket p).1)) (sockets.socket p).2
  | unlink {next : UnixSockets} (hnext : next = sockets.unlink listener.path ∨ next = sockets) :
      Called server sockets p listener .unlink server.socketFd next
  | bind {id : ℕ} {next : UnixSockets} (hfd : server.socketFd listener = some id)
      (hbind : sockets.bind id listener.path = some next) :
      Called server sockets p listener .bind server.socketFd next
  | chmod : Called server sockets p listener .chmod server.socketFd sockets
  | listen {id : ℕ} (hfd : server.socketFd listener = some id) :
      Called server sockets p listener .listen server.socketFd (sockets.listen id listenBacklog)

theorem Called.of_call {server : ServerSockets} {sockets next : UnixSockets} {p : ℕ}
    {listener : Listener} {ok : Bool} {call : SocketCall} {socketFd : Listener → Option ℕ}
    (hcall : server.call sockets p listener ok call = some (socketFd, next)) :
    Called server sockets p listener call socketFd next := by
  cases call with
  | socket =>
      simp only [ServerSockets.call, Option.ite_none_right_eq_some, Option.some.injEq,
        Prod.mk.injEq] at hcall
      obtain ⟨-, rfl, rfl⟩ := hcall
      exact .socket
  | unlink =>
      obtain ⟨rfl, rfl⟩ := Prod.mk.inj (Option.some.inj hcall)
      exact .unlink (by cases ok <;> simp)
  | bind =>
      simp only [ServerSockets.call, Option.ite_none_right_eq_some] at hcall
      obtain ⟨id, hfd, hbound⟩ := Option.bind_eq_some_iff.mp hcall.2
      obtain ⟨bound, hbind, heq⟩ := Option.map_eq_some_iff.mp hbound
      obtain ⟨rfl, rfl⟩ := Prod.mk.inj heq
      exact .bind hfd hbind
  | chmod =>
      obtain ⟨rfl, rfl⟩ := Prod.mk.inj (Option.some.inj hcall)
      exact .chmod
  | listen =>
      simp only [ServerSockets.call, Option.ite_none_right_eq_some] at hcall
      obtain ⟨id, hfd, heq⟩ := Option.map_eq_some_iff.mp hcall.2
      obtain ⟨rfl, rfl⟩ := Prod.mk.inj heq
      exact .listen hfd

namespace Called

variable {server : ServerSockets} {sockets next : UnixSockets} {p : ℕ} {listener : Listener}
  {call : SocketCall} {socketFd : Listener → Option ℕ}

theorem owner_mono (hcalled : server.Called sockets p listener call socketFd next) {id q : ℕ}
    (howner : sockets.owner id = some q) : next.owner id = some q := by
  cases hcalled with
  | socket => rwa [sockets.socket_owner_of_lt p (sockets.lt_of_owner howner)]
  | unlink hnext => rcases hnext with rfl | rfl <;> exact howner
  | bind _ hbind => rwa [(sockets.bind_some hbind).2.1]
  | chmod | listen => exact howner

theorem owner_cases (hcalled : server.Called sockets p listener call socketFd next) {id q : ℕ}
    (howner : next.owner id = some q) :
    sockets.owner id = some q ∨ call = .socket ∧ id = sockets.nextSocket ∧ q = p := by
  cases hcalled with
  | socket =>
      rcases eq_or_ne id sockets.nextSocket with rfl | hne
      · right
        simpa [LocalSockets.socket, eq_comm] using howner
      · left
        simpa [LocalSockets.socket, hne] using howner
  | unlink hnext => rcases hnext with rfl | rfl <;> exact .inl howner
  | bind _ hbind => rw [(sockets.bind_some hbind).2.1] at howner; exact .inl howner
  | chmod | listen => exact .inl howner

theorem listening_mono (hcalled : server.Called sockets p listener call socketFd next) {id : ℕ}
    (hlt : id < sockets.nextSocket) (hlistening : sockets.listening id = true) :
    next.listening id = true := by
  cases hcalled with
  | socket => exact (Function.update_of_ne (Nat.ne_of_lt hlt) _ _).trans hlistening
  | unlink hnext => rcases hnext with rfl | rfl <;> exact hlistening
  | bind _ hbind => rwa [(sockets.bind_some hbind).2.2.1]
  | chmod => exact hlistening
  | @listen other =>
      rcases eq_or_ne id other with rfl | hne
      · exact Function.update_self ..
      · exact (Function.update_of_ne hne _ _).trans hlistening

theorem backlog_mono (hcalled : server.Called sockets p listener call socketFd next) {id : ℕ}
    (hbacklog : sockets.backlog id = listenBacklog) : next.backlog id = listenBacklog := by
  cases hcalled with
  | socket | chmod => exact hbacklog
  | unlink hnext => rcases hnext with rfl | rfl <;> exact hbacklog
  | bind _ hbind => rwa [(sockets.bind_some hbind).2.2.2]
  | @listen other =>
      rcases eq_or_ne id other with rfl | hne
      · exact Function.update_self ..
      · exact (Function.update_of_ne hne _ _).trans hbacklog

theorem name_cases (hcalled : server.Called sockets p listener call socketFd next)
    {path : String} {id : ℕ} (hname : next.name path = some id) :
    sockets.name path = some id ∨
      call = .bind ∧ path = listener.path ∧ server.socketFd listener = some id := by
  cases hcalled with
  | socket | chmod | listen => exact .inl hname
  | unlink hnext =>
      rcases hnext with rfl | rfl
      · rcases eq_or_ne path listener.path with rfl | hne
        · simp [LocalSockets.unlink] at hname
        · left
          simpa [LocalSockets.unlink, hne] using hname
      · exact .inl hname
  | bind hfd hbind =>
      rw [(sockets.bind_some hbind).1] at hname
      rcases eq_or_ne path listener.path with rfl | hne
      · rw [Function.update_self] at hname
        exact .inr ⟨rfl, rfl, hfd.trans hname⟩
      · rw [Function.update_of_ne hne] at hname
        exact .inl hname

theorem socketFd_eq (hcalled : server.Called sockets p listener call socketFd next)
    {other : Listener} (hother : call = .socket → other ≠ listener) :
    socketFd other = server.socketFd other := by
  cases hcalled with
  | socket => exact Function.update_of_ne (hother rfl) _ _
  | unlink | bind | chmod | listen => rfl

theorem owned (hcalled : server.Called sockets p listener call socketFd next)
    (howned : ∀ other id, server.socketFd other = some id → sockets.owner id = some p)
    {other : Listener} {id : ℕ} (hfd : socketFd other = some id) : next.owner id = some p := by
  by_cases hnew : call = .socket ∧ other = listener
  · obtain ⟨rfl, rfl⟩ := hnew
    cases hcalled with
    | socket =>
        rw [Function.update_self] at hfd
        obtain rfl := Option.some.inj hfd
        exact Function.update_self ..
  · rw [hcalled.socketFd_eq fun hcall hsame => hnew ⟨hcall, hsame⟩] at hfd
    exact hcalled.owner_mono (howned other id hfd)

/-- A new socket is neither of those the server has. -/
theorem distinct (hcalled : server.Called sockets p listener call socketFd next)
    (howned : ∀ other id, server.socketFd other = some id → sockets.owner id = some p) {id : ℕ}
    (hdistinct : ∀ left right, server.socketFd left = some id →
      server.socketFd right = some id → left = right)
    {left right : Listener} (hleft : socketFd left = some id) (hright : socketFd right = some id) :
    left = right := by
  by_cases hcall : call = .socket
  · subst hcall
    cases hcalled with
    | socket =>
        have hold : ∀ other, server.socketFd other = some id → some sockets.nextSocket ≠ some id :=
          fun other hfd heq => absurd (sockets.lt_of_owner (howned other id hfd))
            (Option.some.inj heq ▸ Nat.lt_irrefl _)
        by_cases hleftNew : left = listener <;> by_cases hrightNew : right = listener
        · exact hleftNew.trans hrightNew.symm
        · rw [Function.update_of_ne hrightNew] at hright
          rw [hleftNew, Function.update_self] at hleft
          exact absurd hleft (hold right hright)
        · rw [Function.update_of_ne hleftNew] at hleft
          rw [hrightNew, Function.update_self] at hright
          exact absurd hright (hold left hleft)
        · rw [Function.update_of_ne hleftNew] at hleft
          rw [Function.update_of_ne hrightNew] at hright
          exact hdistinct left right hleft hright
  · rw [hcalled.socketFd_eq fun h => absurd h hcall] at hleft hright
    exact hdistinct left right hleft hright

end Called

end ServerSockets

/-! ## Whose sockets the names lead to -/

/-- What holds whatever the processes do. -/
structure SocketInvariant (s : ServedSystem) : Prop where
  suffix : ∀ q, (s.servers q).rest <:+ udServerCalls
  /-- A process that has not come to its server has no socket. -/
  fresh : ∀ q, (∀ proc ∈ s.system.procs q, proc.pc.beforeServer = true) →
    s.servers q = .init ∧ ∀ id, s.sockets.owner id ≠ some q
  owned : ∀ q listener id, (s.servers q).socketFd listener = some id →
    s.sockets.owner id = some q
  distinct : ∀ q id listener other, (s.servers q).socketFd listener = some id →
    (s.servers q).socketFd other = some id → listener = other
  named : ∀ listener id q, s.sockets.name listener.path = some id →
    s.sockets.owner id = some q →
      (s.servers q).socketFd listener = some id ∧ (listener, .bind) ∉ (s.servers q).rest
  /-- The constructor has returned. -/
  complete : ∀ q proc, s.system.procs q = some proc → proc.pc.inDaemonMain = true →
    proc.pc ≠ .newServer → (s.servers q).rest = []

namespace SocketInvariant

variable {s : ServedSystem}

theorem initial (stale : Option (List Char)) {sockets : UnixSockets}
    (hclosed : ∀ id, sockets.owner id = none) :
    SocketInvariant (.initial stale sockets) where
  suffix := fun _ => List.suffix_refl _
  fresh := by
    refine fun q _ => ⟨rfl, fun id howner => ?_⟩
    cases (hclosed id).symm.trans howner
  owned := fun _ _ _ hfd => by cases hfd
  distinct := fun _ _ _ _ hfd => by cases hfd
  named := fun _ id _ _ howner => by cases (hclosed id).symm.trans howner
  complete := fun _ _ hproc => by cases hproc

/-- Whoever owns a socket has come to its server. -/
theorem not_before (hinv : SocketInvariant s) {q id : ℕ} (howner : s.sockets.owner id = some q) :
    ∃ proc, s.system.procs q = some proc ∧ proc.pc.beforeServer = false := by
  by_contra hnone
  refine (hinv.fresh q fun proc hproc => ?_).2 id howner
  by_contra hbefore
  exact hnone ⟨proc, hproc, Bool.eq_false_iff.mpr hbefore⟩

/-- The processes take steps that are not their servers' business. -/
theorem of_procs (hinv : SocketInvariant s) {next : System}
    (hbefore : ∀ q, (∀ proc ∈ next.procs q, proc.pc.beforeServer = true) →
      ∀ proc ∈ s.system.procs q, proc.pc.beforeServer = true)
    (hcomplete : ∀ q proc, next.procs q = some proc → proc.pc.inDaemonMain = true →
      proc.pc ≠ .newServer → (s.servers q).rest = []) :
    SocketInvariant { s with system := next } :=
  { hinv with
    fresh := fun q hq => hinv.fresh q (hbefore q hq)
    complete := hcomplete }

/-- A process ends, and its sockets are closed. -/
theorem closeAll (hinv : SocketInvariant s) {p : ℕ} {next : System} (hend : next.procs p = none)
    (hbefore : ∀ q ≠ p, (∀ proc ∈ next.procs q, proc.pc.beforeServer = true) →
      ∀ proc ∈ s.system.procs q, proc.pc.beforeServer = true)
    (hcomplete : ∀ q proc, next.procs q = some proc → proc.pc.inDaemonMain = true →
      proc.pc ≠ .newServer → (s.servers q).rest = []) :
    SocketInvariant
      { system := next
        sockets := s.sockets.closeAll p
        servers := Function.update s.servers p .init } where
  suffix := by
    intro q
    rcases eq_or_ne q p with rfl | hne
    · simp [ServerSockets.init]
    · simpa [hne] using hinv.suffix q
  fresh := by
    intro q hq
    rcases eq_or_ne q p with rfl | hne
    · exact ⟨Function.update_self .., s.sockets.closeAll_owner_self q⟩
    · obtain ⟨hinit, howner⟩ := hinv.fresh q (hbefore q hne hq)
      refine ⟨by simpa [hne] using hinit, fun id => ?_⟩
      rw [Ne, s.sockets.closeAll_owner_of_ne hne]
      exact howner id
  owned := by
    intro q listener id hfd
    rcases eq_or_ne q p with rfl | hne
    · simp [ServerSockets.init] at hfd
    · rw [s.sockets.closeAll_owner_of_ne hne]
      exact hinv.owned q listener id (by simpa [hne] using hfd)
  distinct := by
    intro q id listener other hfd hother
    rcases eq_or_ne q p with rfl | hne
    · simp [ServerSockets.init] at hfd
    · exact hinv.distinct q id listener other (by simpa [hne] using hfd)
        (by simpa [hne] using hother)
  named := by
    intro listener id q hname howner
    have hne : q ≠ p := fun hq => s.sockets.closeAll_owner_self p id (hq ▸ howner)
    rw [s.sockets.closeAll_owner_of_ne hne] at howner
    simpa [hne] using hinv.named listener id q hname howner
  complete := by
    intro q proc hproc hin hother
    have hne : q ≠ p := fun hq => by
      rw [hq, hend] at hproc
      cases hproc
    simpa [hne] using hcomplete q proc hproc hin hother

/-- A step that is not the server's business leaves everyone where their server knows them. -/
theorem system (hinv : SocketInvariant s) {event : SystemEvent} {next : System}
    (hother : s.system.constructs event = false) (hstep : System.Step s.system event next) :
    SocketInvariant (s.after event.process next) := by
  have hcomplete : ∀ q proc, next.procs q = some proc → proc.pc.inDaemonMain = true →
      proc.pc ≠ .newServer → (s.servers q).rest = [] := by
    intro q moved hmoved hin hne
    rcases hstep.leadsTo hother hmoved with ⟨-, hout⟩ | ⟨proc, hproc, hleads⟩
    · rw [hout] at hin
      cases hin
    · rcases hleads.inside hin with ⟨-, hnew⟩ | ⟨hin', hnew⟩
      · exact absurd hnew hne
      · exact hinv.complete q proc hproc hin' fun h => hne (hnew h)
  have hbefore : ∀ q, (next.procs q = none → s.system.procs q = none) →
      (∀ proc ∈ next.procs q, proc.pc.beforeServer = true) →
        ∀ proc ∈ s.system.procs q, proc.pc.beforeServer = true := by
    intro q hstays hq proc hproc
    obtain ⟨moved, hmoved⟩ : ∃ moved, next.procs q = some moved := by
      refine Option.ne_none_iff_exists'.mp fun hnone => ?_
      cases (hstays hnone).symm.trans hproc
    rcases hstep.leadsTo hother hmoved with ⟨hnone, -⟩ | ⟨_, hproc', hleads⟩
    · cases hnone.symm.trans hproc
    · rw [Option.some.inj (hproc.symm.trans hproc')]
      exact hleads.before (hq moved hmoved)
  unfold ServedSystem.after
  split
  next hend =>
    exact hinv.closeAll (Option.isNone_iff_eq_none.mp hend)
      (fun q hne => hbefore q (hstep.procs_none hne)) hcomplete
  next hstays =>
    refine hinv.of_procs (fun q => hbefore q fun hnone => ?_) hcomplete
    rcases eq_or_ne q event.process with rfl | hne
    · exact absurd (Option.isNone_iff_eq_none.mpr hnone) hstays
    · exact hstep.procs_none hne hnone

/-- The constructor ends in process `p`. -/
theorem moved (hinv : SocketInvariant s) {p : ℕ} {proc : Process} {pc : ProcessPc}
    (hbefore : pc.beforeServer = false)
    (hrest : pc.inDaemonMain = true → (s.servers p).rest = []) :
    SocketInvariant { s with system := s.system.put p (proc.goto pc) } := by
  apply hinv.of_procs
  · intro q hq
    rcases eq_or_ne q p with rfl | hne
    · have hmoved := hq _ (System.put_procs_self ..)
      exact absurd hmoved (by simp [Process.goto, hbefore])
    · rwa [System.put_procs_of_ne _ _ hne] at hq
  · intro q other hother hin hne
    rcases System.put_procs_cases hother with ⟨rfl, rfl⟩ | ⟨-, hsame⟩
    · exact hrest hin
    · exact hinv.complete q other hsame hin hne

/-- What a call does to the sockets and to the server that makes it. -/
theorem called (hinv : SocketInvariant s) {p : ℕ} {proc : Process} {listener : Listener}
    {call : SocketCall} {rest : List (Listener × SocketCall)} {socketFd : Listener → Option ℕ}
    {sockets : UnixSockets} (hproc : s.system.procs p = some proc) (hpc : proc.pc = .newServer)
    (hrest : (s.servers p).rest = (listener, call) :: rest)
    (hcalled : (s.servers p).Called s.sockets p listener call socketFd sockets) :
    SocketInvariant
      { s with sockets := sockets, servers := Function.update s.servers p ⟨rest, socketFd⟩ } := by
  have hsuffix : (listener, call) :: rest <:+ udServerCalls := hrest ▸ hinv.suffix p
  have horder := callOrder_of_suffix hsuffix
  refine ⟨?_, ?_, ?_, ?_, ?_, ?_⟩
  · intro q
    rcases eq_or_ne q p with rfl | hne
    · simpa using (List.suffix_cons _ _).trans hsuffix
    · simpa [hne] using hinv.suffix q
  · intro q hq
    have hne : q ≠ p := by
      rintro rfl
      have hbefore := hq proc hproc
      rw [hpc] at hbefore
      cases hbefore
    obtain ⟨hinit, hnone⟩ := hinv.fresh q hq
    refine ⟨by simpa [hne] using hinit, fun id hid => ?_⟩
    rcases hcalled.owner_cases hid with hbefore | ⟨-, -, hsame⟩
    · exact hnone id hbefore
    · exact hne hsame
  · intro q l id hfd
    rcases eq_or_ne q p with rfl | hne
    · exact hcalled.owned (hinv.owned q) (by simpa using hfd)
    · exact hcalled.owner_mono (hinv.owned q l id (by simpa [hne] using hfd))
  · intro q id l other hfd hother
    rcases eq_or_ne q p with rfl | hne
    · exact hcalled.distinct (hinv.owned q) (hinv.distinct q id) (by simpa using hfd)
        (by simpa using hother)
    · exact hinv.distinct q id l other (by simpa [hne] using hfd) (by simpa [hne] using hother)
  · intro l id q hname hid
    rcases hcalled.name_cases hname with hname' | ⟨rfl, hpath, hfd⟩
    · -- a name that was there leads to a socket that was there
      have hid' : s.sockets.owner id = some q := by
        rcases hcalled.owner_cases hid with h | ⟨-, hnew, -⟩
        · exact h
        · exact absurd (s.sockets.name_lt _ _ hname') (by omega)
      obtain ⟨hfd, hbound⟩ := hinv.named l id q hname' hid'
      rcases eq_or_ne q p with rfl | hne
      · rw [hrest] at hbound
        have hother : call = .socket → l ≠ listener := by
          rintro hcall rfl
          exact hbound (List.mem_cons_of_mem _ (horder.bind_later (.inl hcall)))
        simp only [Function.update_self]
        exact ⟨(hcalled.socketFd_eq hother).trans hfd, fun h => hbound (List.mem_cons_of_mem _ h)⟩
      · simpa [hne] using And.intro hfd hbound
    · obtain rfl := Listener.path_injective hpath
      obtain rfl : q = p := by
        have howner := hcalled.owner_mono (hinv.owned p l id hfd)
        exact Option.some.inj (hid.symm.trans howner)
      simp only [Function.update_self]
      exact ⟨(hcalled.socketFd_eq nofun).trans hfd, horder.once⟩
  · intro q other hother hin hne
    have hqp : q ≠ p := by
      rintro rfl
      rw [Option.some.inj (hother.symm.trans hproc)] at hne
      exact hne hpc
    simpa [hqp] using hinv.complete q other hother hin hne

theorem step {event : ServedEvent} {next : ServedSystem} (hinv : SocketInvariant s)
    (hstep : ServedSystem.Step s event next) : SocketInvariant next := by
  cases hstep with
  | system hother hstep => exact hinv.system hother hstep
  | returned _ _ hrest => exact hinv.moved rfl fun _ => hrest
  | thrown => exact hinv.moved rfl nofun
  | called hproc hpc hrest hcall => exact hinv.called hproc hpc hrest (.of_call hcall)
  | queues =>
      exact ⟨hinv.suffix, hinv.fresh, hinv.owned, hinv.distinct, hinv.named, hinv.complete⟩

end SocketInvariant

/-- **A connection is routed right.** Whatever the processes do, in whatever order, and whatever
names were left behind: a client that connects to a path, at once or when it is its turn, gets to a
process that has come to its server, and there to the very socket from which the requests of that
kind are accepted, and no others. -/
theorem connection_routed (stale : Option (List Char)) {sockets : UnixSockets}
    (hclosed : ∀ id, sockets.owner id = none) {s : ServedSystem}
    (hreach : servedMachine.Reachable (.initial stale sockets) s) {listener : Listener} {q id : ℕ}
    (hconnect : s.sockets.connect listener.path = .connected q id ∨
      s.sockets.connect listener.path = .blocked q id) :
    (∃ proc, s.system.procs q = some proc ∧ proc.pc.beforeServer = false) ∧
      (s.servers q).socketFd listener = some id ∧
      ∀ other ≠ listener, (s.servers q).socketFd other ≠ some id := by
  have hinv : SocketInvariant s := hreach.invariant (.initial stale hclosed)
    fun _ _ _ hinv _ hnext => hinv.step (.of_step hnext)
  have hlistener := s.sockets.listener_of_connect hconnect
  obtain ⟨hname, -, howner⟩ := s.sockets.listener_eq_some_iff.mp hlistener
  have hfd := (hinv.named listener id q hname howner).1
  exact ⟨hinv.not_before howner, hfd,
    fun other hne hother => hne (hinv.distinct q id other listener hother hfd)⟩

/-- The calls of a constructor that all succeed, and its end. -/
def constructs (p : ℕ) : List ServedEvent := List.replicate 11 (.construct p true)

/-- The daemon 3 is stopped and gives up the lock; 6 becomes the daemon, and 9 does when 3 has
removed the name of the file. -/
def servedRace : List ServedEvent :=
  (launch 1 2 3 20 ++ advances 3 4).map .system ++ constructs 3 ++
    (launch 4 5 6 6 ++ [SystemEvent.signal 3 .term] ++ advances 3 13 ++ advances 6 4).map .system ++
    constructs 6 ++ (advances 3 2 ++ launch 7 8 9 20 ++ advances 9 4).map .system ++ constructs 9

/-- With two daemons, clients get to the one that came last. -/
theorem connection_routed_race : ∃ s,
    servedMachine.run (.initial none .empty) servedRace = some s ∧ s.system.InDaemonMain 6 ∧
      s.sockets.connect Listener.off.path = .connected 9 4 ∧
      (∃ proc, s.system.procs 9 = some proc ∧ proc.pc.beforeServer = false) ∧
      (s.servers 9).socketFd .off = some 4 ∧
      ∀ other ≠ .off, (s.servers 9).socketFd other ≠ some 4 := by
  have hrun : ∃ s ∈ servedMachine.run (.initial none .empty) servedRace,
      s.system.InDaemonMain 6 ∧ s.sockets.connect Listener.off.path = .connected 9 4 := by
    decide +kernel
  obtain ⟨s, hs, hsix, hconnect⟩ := hrun
  exact ⟨s, hs, hsix, hconnect,
    connection_routed none (fun _ => rfl) (.of_run hs) (.inl hconnect)⟩

end Rocpmd

import Rocpmd.Daemon.Step

/-!
# What clients can do to the daemon

`select` guards the two calls of `accept`, and the guard holds when they are made. Nothing guards
`read`, so the daemon waits for every client that is slower than its read loop; and nothing handles
SIGPIPE, so a client that is gone when its reply is written takes the daemon with it.
-/

namespace Rocpmd

open Foundation

variable {W : Type}

/-! ## Waiting -/

section Waiting

variable (setup : Setup W)

/-- The system call at this point blocks. -/
def DaemonPc.Blocks (d : Daemon W) : DaemonPc → Prop
  | .accept listener _ => d.net.backlog listener = []
  | .read _ _ id => ¬ (d.net.connections id).Readable
  | .serve listener _ id => d.WriteBlocks setup listener id
  | _ => False

/-- The next step needs a client to connect, to send, to receive or to close. -/
def Waiting (d : Daemon W) : Prop := d.pc.Blocks setup d

instance (connection : Connection) : Decidable connection.Readable :=
  inferInstanceAs (Decidable (_ ∨ _))

instance (d : Daemon W) : ∀ pc : DaemonPc, Decidable (pc.Blocks setup d)
  | .accept listener _ => inferInstanceAs (Decidable (d.net.backlog listener = []))
  | .read _ _ id => inferInstanceAs (Decidable (¬ (d.net.connections id).Readable))
  | .serve listener _ id => inferInstanceAs (Decidable (d.WriteBlocks setup listener id))
  | .iterate | .select | .checkOff | .halted | .killed => inferInstanceAs (Decidable False)

instance (d : Daemon W) : Decidable (Waiting setup d) :=
  inferInstanceAs (Decidable (d.pc.Blocks setup d))

/-- A connection the daemon is about to read, just accepted or just served, has bytes to be read or
has been closed by its client; and a client whose command it has just read has room for the reply,
or has closed. -/
def ClientsAhead (d : Daemon W) : DaemonEvent → Prop
  | .accept ok => ∀ listener offReady id rest, d.pc = .accept listener offReady →
      d.net.backlog listener = id :: rest → ok = true →
      lowestFree setup.limits.descriptors d.descriptors ≠ none → (d.net.connections id).Readable
  | .read n ok => ∀ listener offReady id hshort, d.pc = .read listener offReady id → ok = true →
      0 < n → n ≤ (d.net.connections id).inbox.length →
      (d.ud.reply (d.command.fill ((d.net.connections id).inbox.take n) hshort) listener).isSome →
      (d.net.connections id).Writable setup.limits
  | .serve ok => ∀ listener offReady id, d.pc = .serve listener offReady id →
      ¬ ((d.reply listener).isSome ∧ listener = .batteryLevel ∧ ok = false) →
      (d.net.connections id).Readable
  | _ => True

end Waiting

/-! ### What clients can change -/

namespace Network

variable {net next : Network} {id other : ℕ}

theorem readable_deliver (bytes : List UInt8) :
    ((net.deliver other bytes).connections id).Readable ↔ (net.connections id).Readable := by
  rcases eq_or_ne id other with rfl | hne
  · simp [deliver, modify, Connection.Readable]
  · simp [deliver, modify, hne]

theorem readable_connect (hid : id < net.nextConnection) (listener : Listener)
    (hreadable : (net.connections id).Readable) :
    ((net.connect listener).connections id).Readable := by
  simpa [connect, hid.ne] using hreadable

theorem backlog_connect {listener : Listener} (hqueued : net.backlog listener ≠ [])
    (other : Listener) : (net.connect other).backlog listener ≠ [] := by
  rcases eq_or_ne listener other with rfl | hne
  · simp [connect]
  · simpa [connect, hne] using hqueued

theorem readable_close (hreadable : (net.connections id).Readable) :
    ((net.close other).connections id).Readable := by
  rcases eq_or_ne id other with rfl | hne
  · simp [close, modify, Connection.Readable]
  · simpa [close, modify, hne] using hreadable

theorem readable_receive (left : ℕ) :
    ((net.receive other left).connections id).Readable ↔ (net.connections id).Readable := by
  rcases eq_or_ne id other with rfl | hne
  · simp [receive, modify, Connection.Readable]
  · simp [receive, modify, hne]

theorem send_eq {bytes : List UInt8} (hsend : net.send other bytes = some next) :
    next.nextConnection = net.nextConnection ∧ next.backlog = net.backlog ∧
      ∀ id, (net.connections id).Readable → (next.connections id).Readable := by
  unfold send at hsend
  split at hsend
  next =>
    obtain rfl := Option.some.inj hsend
    refine ⟨rfl, rfl, fun id hreadable => ?_⟩
    rcases eq_or_ne id other with rfl | hne
    · rcases hreadable with hinbox | hclosed
      · simp [modify, Connection.Readable, hinbox]
      · simp [modify, Connection.Readable, hclosed]
    · simpa [modify, hne] using hreadable
  next => cases hsend

/-! The room for writes only grows. -/

variable {limits : Limits}

theorem writable_connect (hid : id < net.nextConnection) (listener : Listener)
    (hwritable : (net.connections id).Writable limits) :
    ((net.connect listener).connections id).Writable limits := by
  simpa [connect, hid.ne] using hwritable

theorem writable_send {bytes : List UInt8} (hsend : net.send other bytes = some next) :
    (next.connections id).Writable limits ↔ (net.connections id).Writable limits := by
  unfold send at hsend
  split at hsend
  next =>
    obtain rfl := Option.some.inj hsend
    rcases eq_or_ne id other with rfl | hne
    · simp [modify, Connection.Writable]
    · simp [modify, hne]
  next => cases hsend

theorem writable_receive (left : ℕ) (hwritable : (net.connections id).Writable limits) :
    ((net.receive other left).connections id).Writable limits := by
  rcases eq_or_ne id other with rfl | hne
  · simp only [receive, modify, Function.update_self]
    exact hwritable.imp_right (Nat.min_le_right left _).trans
  · simpa [receive, modify, hne] using hwritable

theorem writable_close (hwritable : (net.connections id).Writable limits) :
    ((net.close other).connections id).Writable limits := by
  rcases eq_or_ne id other with rfl | hne
  · simp [close, modify, Connection.Writable]
  · simpa [close, modify, hne] using hwritable

end Network

/-! ### The backlogs the daemon relies on -/

/-- The connection being handled. -/
def DaemonPc.connection : DaemonPc → Option ℕ
  | .read _ _ id | .serve _ _ id => some id
  | _ => none

/-- The off socket is still to be served because `select` found it ready. -/
def DaemonPc.offPending : DaemonPc → Bool
  | .accept .batteryLevel offReady | .read .batteryLevel offReady _
  | .serve .batteryLevel offReady _ => offReady
  | _ => false

structure BacklogInvariant (d : Daemon W) : Prop where
  connection_lt : ∀ id, d.pc.connection = some id → id < d.net.nextConnection
  off_of_pending : d.pc.offPending = true → d.net.backlog .off ≠ []

/-- A step that ends or keeps the handling of a connection, and keeps the off socket's queue. -/
theorem BacklogInvariant.of_kept {d next : Daemon W} (hinv : BacklogInvariant d)
    (hnext : d.net.nextConnection ≤ next.net.nextConnection)
    (hoff : d.net.backlog .off ≠ [] → next.net.backlog .off ≠ [])
    (hconnection : next.pc.connection = none ∨ next.pc.connection = d.pc.connection)
    (hpending : next.pc.offPending = true → d.pc.offPending = true) : BacklogInvariant next where
  connection_lt := by
    intro id hid
    rcases hconnection with hnone | hsame
    · simp [hnone] at hid
    · exact (hinv.connection_lt id (hsame ▸ hid)).trans_le hnext
  off_of_pending := fun h => hoff (hinv.off_of_pending (hpending h))

namespace Daemon

variable {setup : Setup W} {d next : Daemon W} {event : DaemonEvent}

theorem backlogInvariant_start (world : W) (lastRead : Timeval) (log : Option Logger)
    (net : Network) (descriptors : Finset ℕ) :
    BacklogInvariant (start setup world lastRead log net descriptors) where
  connection_lt := nofun
  off_of_pending := nofun

theorem backlogInvariant_select (d : Daemon W) (ok : Bool) :
    BacklogInvariant (d.select ok) := by
  have hoff : ((d.select ok).pc.offPending = true → d.net.backlog .off ≠ []) ∧
      (d.select ok).pc.connection = none := by
    rcases d.select_pc_cases ok with h | ⟨offReady, h, -, hoff⟩ | ⟨h, hoff⟩ | h
    · simp [h, DaemonPc.offPending, DaemonPc.connection]
    · simpa [h, DaemonPc.offPending, DaemonPc.connection] using hoff
    · simp [h, DaemonPc.offPending, DaemonPc.connection]
    · simp [h, DaemonPc.offPending, DaemonPc.connection]
  exact
    { connection_lt := by simp [hoff.2]
      off_of_pending := by simpa using hoff.1 }

theorem backlogInvariant_accepted (hinv : BacklogInvariant d) {listener : Listener}
    {offReady : Bool} {id fd : ℕ} {rest : List ℕ} (hpc : d.pc = .accept listener offReady)
    (hbacklog : d.net.backlog listener = id :: rest) :
    BacklogInvariant (d.accepted listener offReady id fd) where
  connection_lt := by
    rintro _ ⟨⟩
    exact d.net.backlog_lt listener id (by simp [hbacklog])
  off_of_pending := by
    intro hpending
    cases listener with
    | off => cases hpending
    | batteryLevel =>
        have hoff := hinv.off_of_pending (by rw [hpc]; exact hpending)
        simpa [accepted, Network.dequeue] using hoff

/-- The daemon's side of a connection is all that serving it changes. -/
theorem serve_network (d : Daemon W) (listener : Listener) (offReady : Bool) (id : ℕ) (ok : Bool) :
    let served := (d.serve listener offReady id ok).net
    served.nextConnection = d.net.nextConnection ∧ served.backlog = d.net.backlog ∧
      ∀ other, (served.connections other).Readable ↔ (d.net.connections other).Readable := by
  dsimp only
  rcases d.serve_net listener offReady id ok with h | ⟨bytes, _, h⟩ <;> rw [h]
  · exact ⟨rfl, rfl, fun _ => Iff.rfl⟩
  · exact ⟨rfl, rfl, fun _ => Network.readable_deliver bytes⟩

theorem Step.backlogInvariant (hstep : Step setup d event next) (hinv : BacklogInvariant d) :
    BacklogInvariant next := by
  cases hstep with
  | iterate now stamp room hpc =>
      have hnet := (sameRequests_iterate setup d now stamp room).net
      rcases iterate_pc setup d now stamp room with h | h <;>
        exact hinv.of_kept (by rw [hnet]) (by rw [hnet]; exact id) (.inl (by rw [h]; rfl))
          (by rw [h]; exact nofun)
  | select ok _ => exact backlogInvariant_select d ok
  | acceptFailed => exact hinv.of_kept le_rfl id (.inl rfl) nofun
  | accepted hpc hbacklog _ => exact backlogInvariant_accepted hinv hpc hbacklog
  | @readEnded listener offReady _ _ _ hpc =>
      rcases handlerDone_cases listener offReady with ⟨_, _, h⟩ | h <;>
        exact hinv.of_kept le_rfl id (.inl (by simp [h, DaemonPc.connection]))
          (by simp [h, DaemonPc.offPending])
  | @received listener _ _ _ hpc _ _ _ =>
      refine hinv.of_kept le_rfl id (.inr (by rw [hpc]; rfl)) ?_
      cases listener <;> simp [hpc, DaemonPc.offPending]
  | @serve listener offReady id ok hpc =>
      obtain ⟨hnext, hbacklog, -⟩ := serve_network d listener offReady id ok
      refine hinv.of_kept hnext.ge (by simp [hbacklog]) ?_ ?_ <;> rw [serve_pc, hpc] <;>
        split_ifs <;> cases listener <;> simp [DaemonPc.connection, DaemonPc.offPending]
  | checkOff =>
      exact hinv.of_kept (by simp) (by simp) (.inl (by simp [DaemonPc.connection]))
        (by simp [DaemonPc.offPending])
  | connect listener =>
      exact hinv.of_kept (Nat.le_succ _) (fun h => Network.backlog_connect h listener) (.inr rfl) id
  | send hnet =>
      obtain ⟨hlt, hbacklog, -⟩ := Network.send_eq hnet
      exact hinv.of_kept hlt.ge (by simp [hbacklog]) (.inr rfl) id
  | receive | close => exact hinv.of_kept le_rfl id (.inr rfl) id

theorem backlogInvariant_of_reachable {world : W} {lastRead : Timeval} {log : Option Logger}
    {net : Network} {descriptors : Finset ℕ}
    (hreach : (daemonMachine setup).Reachable
      (start setup world lastRead log net descriptors) d) : BacklogInvariant d :=
  hreach.invariant (backlogInvariant_start world lastRead log net descriptors)
    fun _ _ _ hinv _ hnext => (Step.of_step hnext).backlogInvariant hinv

/-- Clients never make the daemon wait: what is ready for it stays ready. -/
theorem not_waiting_of_clients {net : Network} (hinv : BacklogInvariant d)
    (hready : ¬ Waiting setup d)
    (hbacklog : ∀ listener, d.net.backlog listener ≠ [] → net.backlog listener ≠ [])
    (hreadable : ∀ id < d.net.nextConnection, (d.net.connections id).Readable →
      (net.connections id).Readable)
    (hwritable : ∀ id < d.net.nextConnection, (d.net.connections id).Writable setup.limits →
      (net.connections id).Writable setup.limits) : ¬ Waiting setup { d with net := net } := by
  unfold Waiting DaemonPc.Blocks at hready ⊢
  dsimp only
  split at hready
  next listener offReady _ => exact hbacklog listener hready
  next listener offReady id hpc =>
    exact not_not_intro
      (hreadable id (hinv.connection_lt id (by rw [hpc]; rfl)) (not_not.mp hready))
  next listener offReady id hpc =>
    rintro ⟨hreply, hfull⟩
    have hroom := not_not.mp fun h => hready ⟨hreply, h⟩
    exact hfull (hwritable id (hinv.connection_lt id (by rw [hpc]; rfl)) hroom)
  next => exact hready

theorem Step.not_waiting_iff (hstep : Step setup d event next) (hinv : BacklogInvariant d)
    (hready : ¬ Waiting setup d) : ¬ Waiting setup next ↔ ClientsAhead setup d event := by
  cases hstep with
  | iterate now stamp room _ =>
      refine iff_of_true ?_ trivial
      rcases iterate_pc setup d now stamp room with h | h <;>
        simp [Waiting, DaemonPc.Blocks, h]
  | select ok _ =>
      refine iff_of_true ?_ trivial
      rcases d.select_pc_cases ok with h | ⟨offReady, h, hlevel, -⟩ | ⟨h, hoff⟩ | h
      · simp [Waiting, DaemonPc.Blocks, h]
      · simpa [Waiting, DaemonPc.Blocks, h] using hlevel
      · simpa [Waiting, DaemonPc.Blocks, h] using hoff
      · simp [Waiting, DaemonPc.Blocks, h]
  | acceptFailed ok hpc hfailed =>
      apply iff_of_true (by simp [Waiting, DaemonPc.Blocks])
      intro _ _ _ _ _ _ hok hfree
      rcases hfailed with hnone | hfailed
      · exact absurd hnone hfree
      · simp [hok] at hfailed
  | @accepted listener offReady id rest fd hpc hbacklog hfree =>
      have hnext : ¬ Waiting setup (d.accepted listener offReady id fd) ↔
          (d.net.connections id).Readable := by
        simp only [Waiting, DaemonPc.Blocks, accepted_pc, not_not]
        rfl
      rw [hnext]
      -- the connection handed out is the first of the backlog
      constructor
      · intro hreadable _ _ _ _ hpc' hbacklog' _ _
        obtain ⟨rfl, rfl⟩ := DaemonPc.accept.inj (hpc.symm.trans hpc')
        obtain ⟨rfl, rfl⟩ := List.cons.inj (hbacklog.symm.trans hbacklog')
        exact hreadable
      · exact fun hahead => hahead _ _ _ _ hpc hbacklog rfl (by simp [hfree])
  | @readEnded listener offReady id n ok hpc hended =>
      apply iff_of_true
      · rcases handlerDone_cases listener offReady with ⟨rfl, rfl, h⟩ | h
        · have hoff := hinv.off_of_pending (by rw [hpc]; rfl)
          simpa [Waiting, DaemonPc.Blocks, h] using hoff
        · simp [Waiting, DaemonPc.Blocks, h]
      · -- nothing was read
        intro _ _ _ _ hpc' hok hpos hlength
        obtain ⟨-, -, rfl⟩ := DaemonPc.read.inj (hpc.symm.trans hpc')
        rcases hended with hempty | hfailed
        · simp [hempty, hpos.ne'] at hlength
        · simp [hok] at hfailed
  | @received listener offReady id n hpc hpos hshort hlength =>
      have hsame : ((d.net.consume id n).connections id).Writable setup.limits ↔
          (d.net.connections id).Writable setup.limits := by
        simp [Network.consume, Network.modify, Connection.Writable]
      have hnext : ¬ Waiting setup (d.received listener offReady id n hshort) ↔
          (((d.received listener offReady id n hshort).reply listener).isSome →
            (d.net.connections id).Writable setup.limits) := by
        simp only [Waiting, DaemonPc.Blocks, received_pc, WriteBlocks, not_and, not_not]
        exact imp_congr_right fun _ => hsame
      rw [hnext]
      constructor
      · intro hroom _ _ _ _ hpc' _ _ _
        obtain ⟨rfl, rfl, rfl⟩ := DaemonPc.read.inj (hpc.symm.trans hpc')
        exact hroom
      · exact fun hahead =>
          hahead _ _ _ ((List.length_take_le _ _).trans hshort) hpc rfl hpos hlength
  | @serve listener offReady id ok hpc =>
      obtain ⟨-, -, hsame⟩ := serve_network d listener offReady id ok
      have hahead : ClientsAhead setup d (.serve ok) ↔
          (¬ ((d.reply listener).isSome ∧ listener = .batteryLevel ∧ ok = false) →
            (d.net.connections id).Readable) := by
        simp [ClientsAhead, hpc]
      rw [hahead]
      have hnext := d.serve_pc listener offReady id ok
      -- a daemon that is killed or thrown out of the handler does not get to the next read
      by_cases hkilled : (d.reply listener).isSome ∧ (d.net.connections id).peerClosed = true
      · rw [if_pos hkilled] at hnext
        exact iff_of_true (by simp [Waiting, DaemonPc.Blocks, hnext]) fun _ => .inr hkilled.2
      · rw [if_neg hkilled] at hnext
        by_cases hthrown : (d.reply listener).isSome ∧ listener = .batteryLevel ∧ ok = false
        · rw [if_pos hthrown] at hnext
          exact iff_of_true (by simp [Waiting, DaemonPc.Blocks, hnext]) fun h => absurd hthrown h
        · rw [if_neg hthrown] at hnext
          simp only [Waiting, DaemonPc.Blocks, hnext, hsame, not_not]
          exact ⟨fun hreadable _ => hreadable, fun h => h hthrown⟩
  | checkOff => exact iff_of_true (by simp [Waiting, DaemonPc.Blocks]) trivial
  | connect listener =>
      refine iff_of_true (not_waiting_of_clients hinv hready ?_ ?_ ?_) trivial
      · exact fun _ hqueued => Network.backlog_connect hqueued listener
      · exact fun _ hid hreadable => Network.readable_connect hid listener hreadable
      · exact fun _ hid hwritable => Network.writable_connect hid listener hwritable
  | send hnet =>
      refine iff_of_true (not_waiting_of_clients hinv hready ?_ ?_ ?_) trivial
      · simp [(Network.send_eq hnet).2.1]
      · exact fun id _ => (Network.send_eq hnet).2.2 id
      · exact fun id _ => (Network.writable_send hnet).mpr
  | receive _ left =>
      refine iff_of_true (not_waiting_of_clients hinv hready ?_ ?_ ?_) trivial
      · exact fun _ hqueued => hqueued
      · exact fun _ _ => (Network.readable_receive left).mpr
      · exact fun _ _ => Network.writable_receive left
  | close =>
      refine iff_of_true (not_waiting_of_clients hinv hready ?_ ?_ ?_) trivial
      · exact fun _ hqueued => hqueued
      · exact fun _ _ => Network.readable_close
      · exact fun _ _ => Network.writable_close

/-! ### Progress -/

theorem accept_eq_none_iff (d : Daemon W) (listener : Listener) (offReady ok : Bool) :
    d.accept setup listener offReady ok = none ↔ d.net.backlog listener = [] := by
  unfold accept
  split
  next hempty => exact iff_of_true rfl hempty
  next hbacklog =>
    refine iff_of_false ?_ (by simp [hbacklog])
    split
    next => exact nofun
    next => split <;> exact nofun

theorem read_eq_none (d : Daemon W) (listener : Listener) (offReady : Bool) {id : ℕ} (n : ℕ)
    (ok : Bool) (hblocked : ¬ (d.net.connections id).Readable) :
    d.read listener offReady id n ok = none := by
  obtain ⟨hinbox, hclosed⟩ := not_or.mp hblocked
  simp [read, not_not.mp hinbox, hclosed]

theorem read_ne_none (d : Daemon W) (listener : Listener) (offReady : Bool) {id : ℕ} (n : ℕ)
    (hreadable : (d.net.connections id).Readable) :
    d.read listener offReady id n false ≠ none := by
  unfold read
  dsimp only
  split
  next hinbox =>
    rw [if_pos (hreadable.resolve_left (not_not_intro hinbox))]
    exact Option.some_ne_none _
  next => exact Option.some_ne_none _

/-- A daemon that runs and does not wait has a step of its own; one that waits has none. -/
theorem waiting_iff_no_step (hrunning : d.pc ≠ .halted ∧ d.pc ≠ .killed) :
    Waiting setup d ↔ ∀ event, event.byClient = false → d.step setup event = none := by
  constructor
  · intro hwaiting event hevent
    unfold Waiting at hwaiting
    cases hpc : d.pc <;> rw [hpc] at hwaiting <;> cases event <;>
      simp_all [DaemonPc.Blocks, DaemonEvent.byClient, step, accept_eq_none_iff, read_eq_none]
  · intro hstuck
    unfold Waiting
    cases hpc : d.pc with
    | iterate => exact absurd (hstuck (.iterate ⟨0, 0⟩ "" 4096) rfl) (by simp [step, hpc])
    | select => exact absurd (hstuck (.select true) rfl) (by simp [step, hpc])
    | accept listener offReady =>
        exact (accept_eq_none_iff d listener offReady true).mp
          (by simpa [step, hpc] using hstuck (.accept true) rfl)
    | read listener offReady id =>
        exact fun hreadable => read_ne_none d listener offReady 1 hreadable
          (by simpa [step, hpc] using hstuck (.read 1 false) rfl)
    | serve listener offReady id =>
        have hblocks : d.step setup (.serve true) = none := hstuck (.serve true) rfl
        simp only [step, hpc] at hblocks
        split at hblocks
        next hblocked => exact hblocked
        next => cases hblocks
    | checkOff => exact absurd (hstuck .checkOff rfl) (by simp [step, hpc])
    | halted => exact hrunning.1 hpc
    | killed => exact hrunning.2 hpc

end Daemon

/-- **When the daemon waits for clients.** No state of a run has the daemon waiting for a client
exactly when every connection it accepts, and every connection it has just served, already has bytes
to be read or has been closed, and every client it is about to answer has room for the reply or has
closed. Its calls of `accept` never wait. -/
theorem not_waiting_along_iff (setup : Setup W) (world : W) (lastRead : Timeval)
    (log : Option Logger) (net : Network) (descriptors : Finset ℕ) (events : List DaemonEvent) :
    (daemonMachine setup).Along (fun d => ¬ Waiting setup d)
        (Daemon.start setup world lastRead log net descriptors) events ↔
      (daemonMachine setup).Meets (ClientsAhead setup)
        (Daemon.start setup world lastRead log net descriptors) events :=
  Machine.along_iff_meets BacklogInvariant
    (fun _ _ _ hinv hnext => (Daemon.Step.of_step hnext).backlogInvariant hinv)
    (fun _ _ _ hinv hready hnext => (Daemon.Step.of_step hnext).not_waiting_iff hinv hready)
    (Daemon.backlogInvariant_start world lastRead log net descriptors) (fun h => h) events

/-- A client that connects and stays idle stops the poll of the button, and so does one that asks
and asks and receives nothing, here with room for one reply. -/
theorem idle_client_stalls :
    ¬ (daemonMachine ⟨.allHigh, .shipped, .usual⟩).Along
        (fun d => ¬ Waiting ⟨.allHigh, .shipped, .usual⟩ d)
        (Daemon.start ⟨.allHigh, .shipped, .usual⟩ () ⟨0, 0⟩ none .empty {})
        [.connect .batteryLevel, .iterate ⟨1, 0⟩ "" 4096, .select true, .accept true] ∧
      ¬ (daemonMachine ⟨.allHigh, .shipped, ⟨64, 0⟩⟩).Along
        (fun d => ¬ Waiting ⟨.allHigh, .shipped, ⟨64, 0⟩⟩ d)
        (Daemon.start ⟨.allHigh, .shipped, ⟨64, 0⟩⟩ () ⟨0, 0⟩ none .empty {})
        [.connect .batteryLevel, .send 0 (intBytes rocpmdSendPowerLevelRaw),
          .send 0 (intBytes rocpmdSendPowerLevelRaw), .iterate ⟨1, 0⟩ "" 4096, .select true,
          .accept true, .read 4 true, .serve true, .read 4 true] :=
  ⟨Machine.not_along_of_run (by decide +kernel), Machine.not_along_of_run (by decide +kernel)⟩

/-! ## Termination -/

section Survival

variable (setup : Setup W)

/-- The process stays in the loop: no signal has terminated it, and it has not shut the system down
for want of a descriptor to read the button with. -/
def Survives (d : Daemon W) : Prop :=
  d.pc ≠ .killed ∧ (d.pc = .halted → lowestFree setup.limits.descriptors d.descriptors ≠ none)

instance (d : Daemon W) : Decidable (Survives setup d) :=
  inferInstanceAs (Decidable (_ ∧ (_ → _)))

/-- A client that is about to be answered has not closed its connection, and the connections
accepted so far have left the poll of the button a descriptor. -/
def ClientsSpare (d : Daemon W) : DaemonEvent → Prop
  | .serve _ => ∀ listener offReady id, d.pc = .serve listener offReady id →
      (d.reply listener).isSome → (d.net.connections id).peerClosed = false
  | .iterate _ _ _ => lowestFree setup.limits.descriptors d.descriptors ≠ none
  | _ => True

end Survival

/-- The poll of a process without a descriptor to spare fails, and shuts the system down. -/
theorem Daemon.iterate_of_full {setup : Setup W} {d : Daemon W}
    (hfull : lowestFree setup.limits.descriptors d.descriptors = none) (now : Timeval)
    (stamp : String) (room : ℕ) :
    (d.iterate setup now stamp room).pc = .halted := by
  unfold iterate
  dsimp only
  rw [Setup.files_of_full hfull, gpioReadReqOff_shut, if_pos (show gpioError ≠ 0 by decide)]
  rfl

theorem survives_of_pc {setup : Setup W} {d : Daemon W} (hkilled : d.pc ≠ .killed)
    (hhalted : d.pc ≠ .halted) : Survives setup d :=
  ⟨hkilled, fun h => absurd h hhalted⟩

theorem Daemon.Step.survives_iff {setup : Setup W} {d next : Daemon W} {event : DaemonEvent}
    (hstep : Daemon.Step setup d event next) (hsurvives : Survives setup d) :
    Survives setup next ↔ ClientsSpare setup d event := by
  cases hstep with
  | iterate now stamp room _ =>
      have hsame := (Daemon.sameRequests_iterate setup d now stamp room).descriptors
      constructor
      · intro hspared hfull
        have hfree := hspared.2 (Daemon.iterate_of_full hfull now stamp room)
        rw [hsame] at hfree
        exact hfree hfull
      · intro hfree
        refine ⟨?_, fun _ => hsame ▸ hfree⟩
        rcases Daemon.iterate_pc setup d now stamp room with h | h <;> simp [h]
  | select ok _ =>
      refine iff_of_true (survives_of_pc ?_ ?_) trivial <;>
        rcases d.select_pc_cases ok with h | ⟨_, h, _⟩ | ⟨h, _⟩ | h <;> simp [h]
  | acceptFailed | accepted | received | checkOff =>
      exact iff_of_true (survives_of_pc (by simp) (by simp)) trivial
  | @readEnded listener offReady =>
      refine iff_of_true (survives_of_pc ?_ ?_) trivial <;>
        rcases Daemon.handlerDone_cases listener offReady with ⟨_, _, h⟩ | h <;> simp [h]
  | @serve listener offReady id ok hpc =>
      have hspares : ClientsSpare setup d (.serve ok) ↔
          ¬ ((d.reply listener).isSome ∧ (d.net.connections id).peerClosed = true) := by
        simp [ClientsSpare, hpc]
      rw [hspares, Survives, Daemon.serve_pc]
      split_ifs with hkilled hthrown <;> simp [hkilled]
  | connect | send | receive | close => exact iff_of_true hsurvives trivial

/-- **When the daemon survives its clients.** In a run the daemon is never terminated, nor does it
end for want of a descriptor, exactly when no client has closed its connection by the time a reply
is written to it and each poll of the button finds a descriptor free. -/
theorem survives_along_iff (setup : Setup W) (world : W) (lastRead : Timeval)
    (log : Option Logger) (net : Network) (descriptors : Finset ℕ) (events : List DaemonEvent) :
    (daemonMachine setup).Along (Survives setup)
        (Daemon.start setup world lastRead log net descriptors) events ↔
      (daemonMachine setup).Meets (ClientsSpare setup)
        (Daemon.start setup world lastRead log net descriptors) events :=
  Machine.along_iff_meets (fun _ => True) (fun _ _ _ _ _ => trivial)
    (fun _ _ _ _ hsurvives hnext => (Daemon.Step.of_step hnext).survives_iff hsurvives) trivial
    (survives_of_pc DaemonPc.noConfusion DaemonPc.noConfusion) events

/-- A client that sends a query and closes before the reply terminates the daemon. With one
descriptor to spare, one that connects and closes has it shut the system down at its next poll. -/
theorem hasty_client_kills :
    ¬ (daemonMachine ⟨.allHigh, .shipped, .usual⟩).Along
        (Survives ⟨.allHigh, .shipped, .usual⟩)
        (Daemon.start ⟨.allHigh, .shipped, .usual⟩ () ⟨0, 0⟩ none .empty {})
        [.connect .batteryLevel, .send 0 (intBytes rocpmdSendPowerLevelPercent), .close 0,
          .iterate ⟨1, 0⟩ "" 4096, .select true, .accept true, .read 4 true, .serve true] ∧
      ¬ (daemonMachine ⟨.allHigh, .shipped, ⟨1, 277⟩⟩).Along
        (Survives ⟨.allHigh, .shipped, ⟨1, 277⟩⟩)
        (Daemon.start ⟨.allHigh, .shipped, ⟨1, 277⟩⟩ () ⟨0, 0⟩ none .empty {})
        [.connect .batteryLevel, .close 0, .iterate ⟨1, 0⟩ "" 4096, .select true, .accept true,
          .read 4 true, .checkOff, .iterate ⟨2, 0⟩ "" 4096] :=
  ⟨Machine.not_along_of_run (by decide +kernel), Machine.not_along_of_run (by decide +kernel)⟩

end Rocpmd

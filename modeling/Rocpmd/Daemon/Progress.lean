import Rocpmd.Daemon.Clients
import Rocpmd.Foundation.Potential

/-!
# The loop comes round

Between two polls of the button the daemon makes a bounded number of steps for each of the two
sockets, and two for each read that returns bytes. So clients hold the loop up with the bytes they
send or, as long as they like, with a connection they leave open or do not receive from.
-/

namespace Rocpmd

open Foundation

variable {W : Type}

/-! ## What is counted -/

namespace DaemonEvent

def ownSteps : DaemonEvent → ℕ
  | .connect _ | .send _ _ | .receive _ _ | .close _ => 0
  | _ => 1

def iterations : DaemonEvent → ℕ
  | .iterate _ _ _ => 1
  | _ => 0

def bytesSent : DaemonEvent → ℕ
  | .send _ bytes => bytes.length
  | _ => 0

end DaemonEvent

/-! ## Bytes nobody has read -/

namespace Network

variable (net : Network)

def unread : ℕ := ∑ id ∈ Finset.range net.nextConnection, (net.connections id).inbox.length

/-- Only the inbox of the connection matters. -/
theorem unread_modify {id : ℕ} (hid : id < net.nextConnection)
    (change : Connection → Connection) :
    (net.modify id change).unread + (net.connections id).inbox.length =
      net.unread + (change (net.connections id)).inbox.length := by
  have hmem := Finset.mem_range.mpr hid
  unfold unread modify
  dsimp only
  rw [← Finset.add_sum_erase _ _ hmem, ← Finset.add_sum_erase _ _ hmem, Function.update_self]
  have hothers : ∀ other ∈ (Finset.range net.nextConnection).erase id,
      (Function.update net.connections id (change (net.connections id)) other).inbox.length =
        (net.connections other).inbox.length := by
    intro other hother
    rw [Function.update_of_ne (Finset.ne_of_mem_erase hother)]
  rw [Finset.sum_congr rfl hothers]
  omega

theorem unread_modify_of_inbox {id : ℕ} {change : Connection → Connection}
    (hinbox : (change (net.connections id)).inbox = (net.connections id).inbox) :
    (net.modify id change).unread = net.unread := by
  unfold unread modify
  dsimp only
  refine Finset.sum_congr rfl fun other _ => ?_
  by_cases hother : other = id
  · subst hother
    rw [Function.update_self, hinbox]
  · rw [Function.update_of_ne hother]

theorem unread_connect (listener : Listener) : (net.connect listener).unread = net.unread := by
  unfold unread connect
  dsimp only
  rw [Finset.sum_range_succ, Function.update_self, List.length_nil, Nat.add_zero]
  refine Finset.sum_congr rfl fun other hother => ?_
  rw [Function.update_of_ne (Finset.mem_range.mp hother).ne]

theorem unread_send {net next : Network} {id : ℕ} {bytes : List UInt8}
    (hsend : net.send id bytes = some next) : next.unread = net.unread + bytes.length := by
  unfold send at hsend
  split at hsend
  next hopen =>
    obtain rfl := Option.some.inj hsend
    have hmodify := net.unread_modify hopen.1 fun connection =>
      { connection with inbox := connection.inbox ++ bytes }
    simp only [List.length_append] at hmodify
    omega
  next => cases hsend

theorem unread_consume {id n : ℕ} (hid : id < net.nextConnection)
    (hn : n ≤ (net.connections id).inbox.length) : (net.consume id n).unread + n = net.unread := by
  have hmodify := net.unread_modify hid fun connection =>
    { connection with inbox := connection.inbox.drop n }
  simp only [List.length_drop] at hmodify
  unfold consume
  omega

end Network

/-! ## The steps of a pass -/

/-- The steps up to the next iteration, if no read returns bytes any more. -/
def DaemonPc.stepsLeft : DaemonPc → ℕ
  | .iterate | .halted | .killed => 0
  | .select => 6
  | .accept .batteryLevel true => 5
  | .read .batteryLevel true _ => 4
  | .serve .batteryLevel true _ => 5
  | .accept _ _ => 3
  | .read _ _ _ => 2
  | .serve _ _ _ => 3
  | .checkOff => 1

namespace DaemonPc

variable (listener : Listener) (offReady : Bool) (id : ℕ)

theorem stepsLeft_accept : (accept listener offReady).stepsLeft =
    (read listener offReady id).stepsLeft + 1 := by
  cases listener <;> cases offReady <;> rfl

theorem stepsLeft_serve : (serve listener offReady id).stepsLeft =
    (read listener offReady id).stepsLeft + 1 := by
  cases listener <;> cases offReady <;> rfl

theorem stepsLeft_handlerDone :
    (Daemon.handlerDone listener offReady).stepsLeft + 1 =
      (read listener offReady id).stepsLeft := by
  cases listener <;> cases offReady <;> rfl

theorem stepsLeft_accept_le : (accept listener offReady).stepsLeft ≤ 5 := by
  cases listener <;> cases offReady <;> decide

end DaemonPc

/-- What the daemon still has to do before its next iteration. -/
def Daemon.owed (d : Daemon W) : ℕ := d.pc.stepsLeft + 2 * d.net.unread

namespace Daemon

variable {setup : Setup W} {d next : Daemon W} {event : DaemonEvent}

/-- Every step is paid for: by what is owed, by a new iteration, or by bytes that were sent. -/
theorem Step.paid (hstep : Step setup d event next) (hinv : BacklogInvariant d) :
    event.ownSteps + next.owed ≤ d.owed + (7 * event.iterations + 2 * event.bytesSent) := by
  unfold owed
  cases hstep with
  | iterate now stamp room hpc =>
      rw [(sameRequests_iterate setup d now stamp room).net]
      simp only [DaemonEvent.ownSteps, DaemonEvent.iterations, DaemonEvent.bytesSent]
      rcases iterate_pc setup d now stamp room with h | h <;> rw [h] <;>
        simp only [DaemonPc.stepsLeft] <;> omega
  | select ok hpc =>
      rw [select_net, hpc]
      simp only [DaemonEvent.ownSteps, DaemonEvent.iterations, DaemonEvent.bytesSent]
      have hleft : (d.select ok).pc.stepsLeft ≤ 5 := by
        rcases d.select_pc_cases ok with h | ⟨_, h, _⟩ | ⟨h, _⟩ | h <;> rw [h]
        · decide
        · exact DaemonPc.stepsLeft_accept_le _ _
        · decide
        · decide
      have hselect : DaemonPc.select.stepsLeft = 6 := rfl
      omega
  | @acceptFailed listener offReady ok hpc hfailed =>
      have hleft := DaemonPc.stepsLeft_accept listener offReady 0
      rw [hpc]
      change 1 + (0 + 2 * d.net.unread) ≤ _
      omega
  | @accepted listener offReady id rest fd hpc hbacklog hfree =>
      have hleft := DaemonPc.stepsLeft_accept listener offReady id
      rw [hpc]
      change 1 + ((DaemonPc.read listener offReady id).stepsLeft + 2 * d.net.unread) ≤ _
      omega
  | @readEnded listener offReady id n ok hpc _ =>
      have hleft := DaemonPc.stepsLeft_handlerDone listener offReady id
      rw [hpc]
      change 1 + ((handlerDone listener offReady).stepsLeft + 2 * d.net.unread) ≤ _
      omega
  | @received listener offReady id n hpc hpos hshort hlength =>
      have hleft := DaemonPc.stepsLeft_serve listener offReady id
      have hid : id < d.net.nextConnection := hinv.connection_lt id (by rw [hpc]; rfl)
      have hread := d.net.unread_consume hid hlength
      rw [hpc]
      change 1 + ((DaemonPc.serve listener offReady id).stepsLeft +
        2 * (d.net.consume id n).unread) ≤ _
      omega
  | @serve listener offReady id ok hpc _ =>
      have hleft := DaemonPc.stepsLeft_serve listener offReady id
      have hnet : (d.serve listener offReady id ok).net.unread = d.net.unread := by
        rcases d.serve_net listener offReady id ok with h | ⟨bytes, _, h⟩ <;> rw [h]
        exact d.net.unread_modify_of_inbox rfl
      have hnext : (d.serve listener offReady id ok).pc.stepsLeft ≤
          (DaemonPc.read listener offReady id).stepsLeft := by
        rw [serve_pc]
        split_ifs
        · exact Nat.zero_le _
        · exact Nat.zero_le _
        · exact le_rfl
      rw [hpc, hnet]
      simp only [DaemonEvent.ownSteps, DaemonEvent.iterations, DaemonEvent.bytesSent]
      omega
  | checkOff hpc =>
      rw [checkOff_net, checkOff_pc, hpc]
      simp only [DaemonEvent.ownSteps, DaemonEvent.iterations, DaemonEvent.bytesSent,
        DaemonPc.stepsLeft]
      omega
  | connect listener =>
      change 0 + (_ + 2 * (d.net.connect listener).unread) ≤ _
      rw [d.net.unread_connect]
      simp
  | send hnet =>
      dsimp only
      rw [Network.unread_send hnet]
      simp only [DaemonEvent.ownSteps, DaemonEvent.iterations, DaemonEvent.bytesSent]
      omega
  | receive id left =>
      have hnet : (d.net.receive id left).unread = d.net.unread :=
        d.net.unread_modify_of_inbox rfl
      dsimp only
      rw [hnet]
      simp [DaemonEvent.ownSteps]
  | close id =>
      have hnet : (d.net.close id).unread = d.net.unread := d.net.unread_modify_of_inbox rfl
      dsimp only
      rw [hnet]
      simp [DaemonEvent.ownSteps]

/-- A daemon that has not ended goes on by itself unless it waits for a client. -/
theorem exists_step (hpc : d.pc ≠ .halted ∧ d.pc ≠ .killed) (hready : ¬ Waiting setup d) :
    ∃ event next, event.byClient = false ∧ d.step setup event = some next := by
  by_contra hstuck
  push Not at hstuck
  have hnone : ∀ event, event.byClient = false → d.step setup event = none :=
    fun event hevent => Option.eq_none_iff_forall_ne_some.mpr fun next => hstuck event next hevent
  exact hready ((waiting_iff_no_step hpc).mpr hnone)

end Daemon

/-- **The loop comes round.** In every run, clients doing what they like, the daemon has made at
most seven steps for each of its iterations and two for each byte that was sent; what it still owes
is part of the sum. And it never stands still unless it has ended or waits for a client, to send or
to receive. -/
theorem iterations_keep_up (setup : Setup W) (world : W) (lastRead : Timeval)
    (log : Option Logger) (net : Network) (descriptors : Finset ℕ) {events : List DaemonEvent}
    {last : Daemon W}
    (hrun : (daemonMachine setup).run (.start setup world lastRead log net descriptors) events =
      some last) :
    Machine.total DaemonEvent.ownSteps events + last.owed ≤
        7 * Machine.total DaemonEvent.iterations events +
          2 * (net.unread + Machine.total DaemonEvent.bytesSent events) ∧
      (last.pc = .halted ∨ last.pc = .killed ∨ Waiting setup last ∨
        ∃ event next, event.byClient = false ∧ last.step setup event = some next) := by
  constructor
  · have hbound := Machine.run_cost_le Daemon.owed DaemonEvent.ownSteps
      (fun event => 7 * event.iterations + 2 * event.bytesSent)
      (fun _ _ _ hinv hnext => (Daemon.Step.of_step hnext).backlogInvariant hinv)
      (fun _ _ _ hinv hnext => (Daemon.Step.of_step hnext).paid hinv)
      (Daemon.backlogInvariant_start world lastRead log net descriptors) hrun
    rw [Machine.total_add, Machine.total_mul, Machine.total_mul] at hbound
    have hstart : (Daemon.start setup world lastRead log net descriptors).owed =
        2 * net.unread := Nat.zero_add _
    omega
  · by_cases hpc : last.pc ≠ .halted ∧ last.pc ≠ .killed
    · by_cases hwaiting : Waiting setup last
      · exact .inr (.inr (.inl hwaiting))
      · exact .inr (.inr (.inr (Daemon.exists_step hpc hwaiting)))
    · tauto

/-- The longest pass without a byte: both sockets have a client that has closed already. -/
theorem iterations_keep_up_closed : ∃ last : Daemon Unit,
    (daemonMachine ⟨.allHigh, .shipped, .usual⟩).run
        (.start ⟨.allHigh, .shipped, .usual⟩ () ⟨0, 0⟩ none .empty ∅)
        [.connect .batteryLevel, .close 0, .connect .off, .close 1, .iterate ⟨1, 0⟩ "" 4096,
          .select true, .accept true, .read 4 true, .accept true, .read 4 true, .checkOff] =
      some last ∧ 7 + last.owed ≤ 7 * 1 + 2 * (0 + 0) := by
  have hrun : ∃ last ∈ (daemonMachine ⟨.allHigh, .shipped, .usual⟩).run
      (.start ⟨.allHigh, .shipped, .usual⟩ () ⟨0, 0⟩ none .empty ∅)
      [.connect .batteryLevel, .close 0, .connect .off, .close 1, .iterate ⟨1, 0⟩ "" 4096,
        .select true, .accept true, .read 4 true, .accept true, .read 4 true, .checkOff],
      last.pc = .iterate := by decide +kernel
  obtain ⟨last, hlast, -⟩ := hrun
  exact ⟨last, hlast, (iterations_keep_up _ () ⟨0, 0⟩ none .empty ∅ hlast).1⟩

end Rocpmd

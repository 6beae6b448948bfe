import Rocpmd.Daemon.Loop

/-!
# What a step of the daemon can do

The inversion principle of the loop and what its functions leave unchanged. Invariants are proved
from these alone.
-/

namespace Rocpmd

open Foundation

variable {W : Type} (setup : Setup W)

/-- What a client does, as opposed to the daemon. -/
def DaemonEvent.byClient : DaemonEvent → Bool
  | .connect _ | .send _ _ | .receive _ _ | .close _ => true
  | _ => false

namespace Daemon

/-- Every step of the daemon, by the function and the outcome it is a step of. -/
inductive Step (d : Daemon W) : DaemonEvent → Daemon W → Prop
  | iterate (now : Timeval) (stamp : String) (room : ℕ) (hpc : d.pc = .iterate) :
      Step d (.iterate now stamp room) (d.iterate setup now stamp room)
  | select (ok : Bool) (hpc : d.pc = .select) : Step d (.select ok) (d.select ok)
  | acceptFailed {listener : Listener} {offReady : Bool} (ok : Bool)
      (hpc : d.pc = .accept listener offReady)
      (hfailed : lowestFree setup.limits.descriptors d.descriptors = none ∨ ok = false) :
      Step d (.accept ok) d.throwRuntimeError
  | accepted {listener : Listener} {offReady : Bool} {id : ℕ} {rest : List ℕ} {fd : ℕ}
      (hpc : d.pc = .accept listener offReady) (hbacklog : d.net.backlog listener = id :: rest)
      (hfree : lowestFree setup.limits.descriptors d.descriptors = some fd) :
      Step d (.accept true) (d.accepted listener offReady id fd)
  | readEnded {listener : Listener} {offReady : Bool} {id : ℕ} (n : ℕ) (ok : Bool)
      (hpc : d.pc = .read listener offReady id)
      (hended : (d.net.connections id).inbox = [] ∨ ok = false) :
      Step d (.read n ok) { d with pc := handlerDone listener offReady }
  | received {listener : Listener} {offReady : Bool} {id n : ℕ}
      (hpc : d.pc = .read listener offReady id) (hpos : 0 < n) (hshort : n ≤ 4)
      (hlength : n ≤ (d.net.connections id).inbox.length) :
      Step d (.read n true) (d.received listener offReady id n hshort)
  | serve {listener : Listener} {offReady : Bool} {id : ℕ} (ok : Bool)
      (hpc : d.pc = .serve listener offReady id) (hroom : ¬ d.WriteBlocks setup listener id) :
      Step d (.serve ok) (d.serve listener offReady id ok)
  | checkOff (hpc : d.pc = .checkOff) : Step d .checkOff (d.checkOff setup)
  | connect (listener : Listener) :
      Step d (.connect listener) { d with net := d.net.connect listener }
  | send {id : ℕ} {bytes : List UInt8} {net : Network} (hnet : d.net.send id bytes = some net) :
      Step d (.send id bytes) { d with net := net }
  | receive (id left : ℕ) : Step d (.receive id left) { d with net := d.net.receive id left }
  | close (id : ℕ) : Step d (.close id) { d with net := d.net.close id }

variable {setup} {d next : Daemon W} {event : DaemonEvent}

theorem step_of_accept {listener : Listener} {offReady ok : Bool}
    (hpc : d.pc = .accept listener offReady)
    (haccept : d.accept setup listener offReady ok = some next) :
    Step setup d (.accept ok) next := by
  unfold accept at haccept
  split at haccept
  next => cases haccept
  next id rest hbacklog =>
    split at haccept
    next hfull =>
      obtain rfl := Option.some.inj haccept
      exact .acceptFailed ok hpc (.inl hfull)
    next fd hfree =>
      split at haccept
      next hok =>
        obtain rfl := Option.some.inj haccept
        exact .acceptFailed ok hpc (.inr hok)
      next hok =>
        obtain rfl := Option.some.inj haccept
        obtain rfl : ok = true := by simpa using hok
        exact .accepted hpc hbacklog hfree

theorem step_of_read {listener : Listener} {offReady : Bool} {id n : ℕ} {ok : Bool}
    (hpc : d.pc = .read listener offReady id)
    (hread : d.read listener offReady id n ok = some next) : Step setup d (.read n ok) next := by
  unfold read at hread
  dsimp only at hread
  split at hread
  next hempty =>
    split at hread
    next =>
      obtain rfl := Option.some.inj hread
      exact .readEnded n ok hpc (.inl hempty)
    next => cases hread
  next =>
    split at hread
    next hfailed =>
      obtain rfl := Option.some.inj hread
      exact .readEnded n ok hpc (.inr hfailed)
    next hok =>
      split at hread
      next hn =>
        obtain rfl := Option.some.inj hread
        obtain rfl : ok = true := by simpa using hok
        exact .received hpc hn.1 hn.2.1 hn.2.2
      next => cases hread

theorem Step.of_step (hstep : (daemonMachine setup).step d event = some next) :
    Step setup d event next := by
  simp only [daemonMachine, step] at hstep
  split at hstep
  next now stamp room hpc =>
    obtain rfl := Option.some.inj hstep
    exact .iterate now stamp room hpc
  next ok hpc =>
    obtain rfl := Option.some.inj hstep
    exact .select ok hpc
  next hpc => exact step_of_accept hpc hstep
  next hpc => exact step_of_read hpc hstep
  next ok _ _ _ hpc =>
    split at hstep
    next => cases hstep
    next hroom =>
      obtain rfl := Option.some.inj hstep
      exact .serve ok hpc hroom
  next hpc =>
    obtain rfl := Option.some.inj hstep
    exact .checkOff hpc
  next listener =>
    obtain rfl := Option.some.inj hstep
    exact .connect listener
  next =>
    obtain ⟨net, hnet, rfl⟩ := Option.map_eq_some_iff.mp hstep
    exact .send hnet
  next id left =>
    obtain rfl := Option.some.inj hstep
    exact .receive id left
  next id =>
    obtain rfl := Option.some.inj hstep
    exact .close id
  next => cases hstep

theorem reply_eq (d : Daemon W) (listener : Listener) :
    d.reply listener = d.ud.reply d.command listener := rfl

/-! ## What the functions leave unchanged -/

/-- The parts of the daemon that only the handling of requests uses. -/
structure SameRequests (d next : Daemon W) : Prop where
  net : next.net = d.net
  descriptors : next.descriptors = d.descriptors
  powerOffFlag : next.ud.powerOffFlag = d.ud.powerOffFlag
  offStreams : next.history.offStreams = d.history.offStreams
  offWrites : next.history.offWrites = d.history.offWrites
  offChecks : next.history.offChecks = d.history.offChecks
  entryDescriptors : next.history.entryDescriptors = d.history.entryDescriptors
  accepted : next.history.accepted = d.history.accepted

theorem sameRequests_iterate (setup : Setup W) (d : Daemon W) (now : Timeval) (stamp : String)
    (room : ℕ) :
    SameRequests d (d.iterate setup now stamp room) := by
  unfold iterate
  dsimp only
  split_ifs <;> constructor <;> rfl

theorem iterate_pc (setup : Setup W) (d : Daemon W) (now : Timeval) (stamp : String)
    (room : ℕ) :
    (d.iterate setup now stamp room).pc = .halted ∨
      (d.iterate setup now stamp room).pc = .select := by
  unfold iterate
  dsimp only
  split
  next => exact .inl rfl
  next =>
    split
    next =>
      split
      next => exact .inl rfl
      next => exact .inr rfl
    next => exact .inr rfl

theorem iterate_net (setup : Setup W) (d : Daemon W) (now : Timeval) (stamp : String) (room : ℕ)
    (net : Network) : { d with net := net }.iterate setup now stamp room =
      { d.iterate setup now stamp room with net := net } := by
  have hite {c : Prop} [Decidable c] (yes no : Daemon W) :
      { (if c then yes else no) with net := net } =
        if c then { yes with net := net } else { no with net := net } := by
    split <;> rfl
  unfold iterate
  dsimp only
  rw [hite, hite, hite]
  rfl

/-- What clients do in the course of an iteration might as well be done before it. -/
theorem step_iterate_comm (d : Daemon W) (now : Timeval) (stamp : String) (room : ℕ)
    {event : DaemonEvent} (hclient : event.byClient = true) :
    (daemonMachine setup).step (d.iterate setup now stamp room) event =
      ((daemonMachine setup).step d event).map fun next =>
        next.iterate setup now stamp room := by
  have hnet := (sameRequests_iterate setup d now stamp room).net
  cases event with
  | connect | receive | close =>
      simp only [daemonMachine, step, Option.map_some, iterate_net, hnet]
  | send id bytes =>
      simp only [daemonMachine, step, hnet, Option.map_map]
      congr 1
      funext net
      exact (iterate_net setup d now stamp room net).symm
  | iterate | select | accept | read | serve | checkOff => cases hclient

@[simp] theorem throwRuntimeError_pc (d : Daemon W) : d.throwRuntimeError.pc = .iterate := rfl

@[simp] theorem accepted_pc (d : Daemon W) (listener : Listener) (offReady : Bool)
    (id fd : ℕ) :
    (d.accepted listener offReady id fd).pc = .read listener offReady id := rfl

@[simp] theorem received_pc (d : Daemon W) (listener : Listener) (offReady : Bool) (id n : ℕ)
    (hshort : n ≤ 4) :
    (d.received listener offReady id n hshort).pc = .serve listener offReady id := rfl

section CheckOff

variable (d : Daemon W)

/-- The end of an iteration writes to pins and does its bookkeeping. -/
theorem checkOff_eq : d.checkOff setup =
    { d with
      pc := .iterate
      world := (d.checkOff setup).world
      history := { d.history with
        offWrites := d.history.offWrites + if d.ud.powerOffFlag then 1 else 0
        offChecks := d.history.offChecks +
          if d.history.offStreams.flatten = [] then 0 else 1 } } := by
  unfold checkOff
  dsimp only
  split <;> rfl

@[simp] theorem checkOff_pc : (d.checkOff setup).pc = .iterate := by
  rw [checkOff_eq]

@[simp] theorem checkOff_ud : (d.checkOff setup).ud = d.ud := by
  rw [checkOff_eq]

@[simp] theorem checkOff_net : (d.checkOff setup).net = d.net := by
  rw [checkOff_eq]

@[simp] theorem checkOff_descriptors : (d.checkOff setup).descriptors = d.descriptors := by
  rw [checkOff_eq]

@[simp] theorem checkOff_lastRead : (d.checkOff setup).lastRead = d.lastRead := by
  rw [checkOff_eq]

theorem checkOff_history : (d.checkOff setup).history =
    { d.history with
      offWrites := d.history.offWrites + if d.ud.powerOffFlag then 1 else 0
      offChecks := d.history.offChecks + if d.history.offStreams.flatten = [] then 0 else 1 } := by
  rw [checkOff_eq]

end CheckOff

section Select

variable (d : Daemon W) (ok : Bool)

/-- `select` decides where the daemon goes. -/
theorem select_eq : d.select ok =
    { d with
      pc := (d.select ok).pc
      history := { d.history with entryDescriptors := d.descriptors, accepted := 0 } } := by
  unfold select
  dsimp only
  split_ifs <;> rfl

@[simp] theorem select_ud : (d.select ok).ud = d.ud := by
  rw [select_eq]

@[simp] theorem select_net : (d.select ok).net = d.net := by
  rw [select_eq]

@[simp] theorem select_descriptors : (d.select ok).descriptors = d.descriptors := by
  rw [select_eq]

@[simp] theorem select_lastRead : (d.select ok).lastRead = d.lastRead := by
  rw [select_eq]

theorem select_history : (d.select ok).history =
    { d.history with entryDescriptors := d.descriptors, accepted := 0 } := by
  rw [select_eq]

/-- `select` sends the daemon to a socket only if it has a connection waiting. -/
theorem select_pc_cases :
    (d.select ok).pc = .iterate ∨
      (∃ offReady, (d.select ok).pc = .accept .batteryLevel offReady ∧
        d.net.backlog .batteryLevel ≠ [] ∧ (offReady = true → d.net.backlog .off ≠ [])) ∨
      (d.select ok).pc = .accept .off false ∧ d.net.backlog .off ≠ [] ∨
      (d.select ok).pc = .checkOff := by
  unfold select
  dsimp only
  split
  next => exact .inl rfl
  next =>
    split
    next hlevel =>
      refine .inr (.inl ⟨_, rfl, ?_, ?_⟩)
      · simpa using hlevel
      · simp
    next =>
      cases hoff : (d.net.backlog .off).isEmpty with
      | true => exact .inr (.inr (.inr (by simp)))
      | false => exact .inr (.inr (.inl ⟨by simp, by simpa using hoff⟩))

end Select

/-- After a handler the other socket is served, or the requests are done. -/
theorem handlerDone_cases (listener : Listener) (offReady : Bool) :
    listener = .batteryLevel ∧ offReady = true ∧
        handlerDone listener offReady = .accept .off false ∨
      handlerDone listener offReady = .checkOff := by
  cases listener <;> cases offReady <;> simp [handlerDone]

section Serve

variable (d : Daemon W) (listener : Listener) (offReady : Bool) (id : ℕ) (ok : Bool)

/-- Where the loop body ends: killed by SIGPIPE, thrown out of the handler, or at the next read. -/
theorem serve_pc : (d.serve listener offReady id ok).pc =
    if (d.reply listener).isSome ∧ (d.net.connections id).peerClosed = true then .killed
    else if (d.reply listener).isSome ∧ listener = .batteryLevel ∧ ok = false then .iterate
    else .read listener offReady id := by
  unfold serve
  dsimp only
  split
  next hreply => simp [hreply]
  next bytes hreply =>
    rw [hreply]
    cases hclosed : (d.net.connections id).peerClosed <;> cases listener <;> cases ok <;> rfl

/-- Whatever the command is, the off handler sets the flag; neither handler changes a level. -/
theorem serve_eq : d.serve listener offReady id ok =
    { d with
      pc := (d.serve listener offReady id ok).pc
      ud := { d.ud with powerOffFlag := d.ud.powerOffFlag || decide (listener = .off) }
      net := (d.serve listener offReady id ok).net } := by
  unfold serve
  dsimp only
  split
  next => cases listener <;> simp
  next => split_ifs <;> cases listener <;> simp [throwRuntimeError]

@[simp] theorem serve_history : (d.serve listener offReady id ok).history = d.history := by
  rw [serve_eq]

@[simp] theorem serve_descriptors :
    (d.serve listener offReady id ok).descriptors = d.descriptors := by
  rw [serve_eq]

@[simp] theorem serve_command : (d.serve listener offReady id ok).command = d.command := by
  rw [serve_eq]

@[simp] theorem serve_lastRead : (d.serve listener offReady id ok).lastRead = d.lastRead := by
  rw [serve_eq]

theorem serve_ud : (d.serve listener offReady id ok).ud =
    { d.ud with powerOffFlag := d.ud.powerOffFlag || decide (listener = .off) } := by
  rw [serve_eq]

theorem serve_powerOffFlag : (d.serve listener offReady id ok).ud.powerOffFlag =
    (d.ud.powerOffFlag || decide (listener = .off)) := by
  rw [serve_ud]

/-- A reply reaches the client; the daemon's side of the network stays as it is. -/
theorem serve_net : (d.serve listener offReady id ok).net = d.net ∨
    ∃ bytes, d.reply listener = some bytes ∧
      (d.serve listener offReady id ok).net = d.net.deliver id bytes := by
  unfold serve
  dsimp only
  split
  next => cases listener <;> exact .inl rfl
  next bytes hreply =>
    split_ifs
    · cases listener <;> exact .inl rfl
    · exact .inr ⟨bytes, hreply, rfl⟩
    · cases listener <;> exact .inl rfl

end Serve

end Daemon

end Rocpmd

import Rocpmd.Daemon.OpenDescriptors
import Rocpmd.Daemon.ServedLevels
import Rocpmd.Daemon.World

/-!
# How many clients a daemon serves

Every connection keeps its descriptor, so the descriptors that are free when the loop is entered are
the connections the daemon will ever serve. When they are used up the next poll of the button cannot
open its file, and the failure is taken for the button.
-/

namespace Rocpmd

open Foundation

variable {W : Type}

/-- Nothing has been written to a connection nobody has made yet. -/
def Network.FreshQuiet (net : Network) : Prop :=
  ∀ id, net.nextConnection ≤ id → (net.connections id).outbox = []

namespace Network.FreshQuiet

variable {net next : Network}

theorem outbox_connect (hfresh : net.FreshQuiet) (listener : Listener) (id : ℕ) :
    ((net.connect listener).connections id).outbox = (net.connections id).outbox := by
  by_cases hid : id = net.nextConnection
  · subst hid
    simp [Network.connect, hfresh net.nextConnection le_rfl]
  · simp [Network.connect, hid]

/-- It stays so if nothing is written to such a connection and none is taken back. -/
theorem of_outbox (hfresh : net.FreshQuiet) (hnext : net.nextConnection ≤ next.nextConnection)
    (houtbox : ∀ id, net.nextConnection ≤ id →
      (next.connections id).outbox = (net.connections id).outbox) : next.FreshQuiet := by
  intro id hid
  rw [houtbox id (hnext.trans hid)]
  exact hfresh id (hnext.trans hid)

end Network.FreshQuiet

namespace Daemon

variable {setup : Setup W} {d next : Daemon W} {event : DaemonEvent}

/-- What is written goes to the connection being handled. -/
theorem Step.outbox_eq (hstep : Step setup d event next) (hfresh : d.net.FreshQuiet) {id : ℕ}
    (hid : d.pc.connection ≠ some id) : next.outbox id = d.outbox id := by
  unfold outbox
  cases hstep with
  | iterate now stamp room =>
      rw [(sameRequests_iterate setup d now stamp room).net]
  | select ok => rw [select_net]
  | acceptFailed | accepted | readEnded => rfl
  | @received _ _ other n => exact d.net.outbox_consume id other n
  | @serve listener offReady other ok hpc _ =>
      rcases d.serve_net listener offReady other ok with h | ⟨bytes, -, h⟩ <;> rw [h]
      have hne : id ≠ other := by
        rintro rfl
        exact hid (by rw [hpc]; rfl)
      simp [Network.deliver, Network.modify, hne]
  | checkOff => rw [checkOff_net]
  | connect listener => exact hfresh.outbox_connect listener id
  | @send other _ _ hnet => exact d.net.outbox_of_send id other hnet
  | receive other left => exact d.net.outbox_receive id other left
  | close other => exact d.net.outbox_close id other

theorem Step.nextConnection_le (hstep : Step setup d event next) :
    d.net.nextConnection ≤ next.net.nextConnection := by
  cases hstep with
  | iterate now stamp room =>
      rw [(sameRequests_iterate setup d now stamp room).net]
  | select ok => rw [select_net]
  | acceptFailed | accepted | readEnded | received | receive | close => exact le_rfl
  | @serve listener offReady other ok hpc _ =>
      rcases d.serve_net listener offReady other ok with h | ⟨bytes, -, h⟩ <;> rw [h]
      exact le_rfl
  | checkOff => rw [checkOff_net]
  | connect listener => exact Nat.le_succ _
  | send hnet => rw [(Network.send_eq hnet).1]

theorem Step.freshQuiet (hstep : Step setup d event next) (hbacklog : BacklogInvariant d)
    (hfresh : d.net.FreshQuiet) : next.net.FreshQuiet := by
  refine hfresh.of_outbox hstep.nextConnection_le fun id hid => ?_
  refine hstep.outbox_eq hfresh fun hhandled => ?_
  exact absurd (hbacklog.connection_lt id hhandled) (Nat.not_lt.mpr hid)

/-! ## The clients served -/

/-- The connections in `served` have taken a descriptor each, and no others were written to. -/
structure Serves (descriptorLimit : ℕ) (descriptors served : Finset ℕ) (d : Daemon W) : Prop where
  backlog : BacklogInvariant d
  fresh : d.net.FreshQuiet
  card : served.card + descriptors.card ≤ d.descriptors.card
  within : d.descriptors ⊆ descriptors ∪ Finset.range descriptorLimit
  handled : ∀ id, d.pc.connection = some id → id ∈ served
  answered : ∀ id, d.outbox id ≠ [] → id ∈ served

theorem Serves.card_le {descriptorLimit : ℕ} {descriptors served : Finset ℕ}
    (hserves : Serves descriptorLimit descriptors served d) :
    served.card ≤ (Finset.range descriptorLimit \ descriptors).card := by
  have hwithin := Finset.card_le_card hserves.within
  have hsplit := Finset.card_union_eq_card_add_card.mpr
    (Finset.disjoint_sdiff (s := descriptors) (t := Finset.range descriptorLimit))
  rw [Finset.union_sdiff_self_eq_union] at hsplit
  have hcard := hserves.card
  omega

/-- A step goes on with the connection being handled or leaves it, unless it accepts another one,
which takes a descriptor. -/
theorem Step.handling_cases (hstep : Step setup d event next) :
    (next.pc.connection = none ∨ next.pc.connection = d.pc.connection) ∧
        next.descriptors = d.descriptors ∨
      ∃ id fd, next.pc.connection = some id ∧ d.pc.connection = none ∧
        lowestFree setup.limits.descriptors d.descriptors = some fd ∧
        next.descriptors = insert fd d.descriptors := by
  cases hstep with
  | iterate now stamp room =>
      refine .inl ⟨.inl ?_, (sameRequests_iterate setup d now stamp room).descriptors⟩
      rcases iterate_pc setup d now stamp room with h | h <;> rw [h] <;> rfl
  | select ok =>
      refine .inl ⟨.inl ?_, d.select_descriptors ok⟩
      rcases d.select_pc_cases ok with h | ⟨_, h, -⟩ | ⟨h, -⟩ | h <;> rw [h] <;> rfl
  | acceptFailed => exact .inl ⟨.inl rfl, rfl⟩
  | @accepted _ _ id _ fd hpc _ hfree =>
      exact .inr ⟨id, fd, rfl, by rw [hpc]; rfl, hfree, rfl⟩
  | @readEnded listener offReady =>
      refine .inl ⟨.inl ?_, rfl⟩
      rcases handlerDone_cases listener offReady with ⟨-, -, h⟩ | h
      · exact congrArg DaemonPc.connection h
      · exact congrArg DaemonPc.connection h
  | received hpc => exact .inl ⟨.inr (by rw [hpc]; rfl), rfl⟩
  | serve ok hpc _ =>
      refine .inl ⟨?_, d.serve_descriptors _ _ _ ok⟩
      rw [serve_pc, hpc]
      split_ifs
      · exact .inl rfl
      · exact .inl rfl
      · exact .inr rfl
  | checkOff => exact .inl ⟨.inl (by rw [checkOff_pc]; rfl), d.checkOff_descriptors⟩
  | connect | send | receive | close => exact .inl ⟨.inr rfl, rfl⟩

theorem Step.serves {descriptors served : Finset ℕ} (hstep : Step setup d event next)
    (hserves : Serves setup.limits.descriptors descriptors served d) :
    ∃ served', Serves setup.limits.descriptors descriptors served' next := by
  have hbacklog := hstep.backlogInvariant hserves.backlog
  have hfresh := hstep.freshQuiet hserves.backlog hserves.fresh
  have hanswered : ∀ id, next.outbox id ≠ [] → id ∈ served := by
    intro id houtbox
    by_cases hid : d.pc.connection = some id
    · exact hserves.handled id hid
    · rw [hstep.outbox_eq hserves.fresh hid] at houtbox
      exact hserves.answered id houtbox
  rcases hstep.handling_cases with ⟨hpc, hsame⟩ | ⟨id, fd, hid, -, hfree, hinsert⟩
  · refine ⟨served, hbacklog, hfresh, ?_, ?_, ?_, hanswered⟩
    · rw [hsame]
      exact hserves.card
    · rw [hsame]
      exact hserves.within
    · intro id hid
      rcases hpc with hnone | hkept
      · rw [hnone] at hid
        cases hid
      · exact hserves.handled id (hkept.symm.trans hid)
  · -- the connection accepted is new to the set, and so is its descriptor
    have hcard := hserves.card
    have hnew := Finset.card_insert_of_notMem (lowestFree_notMem hfree)
    have hinsert_le := Finset.card_insert_le id served
    refine ⟨insert id served, hbacklog, hfresh, ?_, ?_, ?_, ?_⟩
    · rw [hinsert]
      omega
    · rw [hinsert]
      refine Finset.insert_subset ?_ hserves.within
      exact Finset.mem_union_right _ (Finset.mem_range.mpr (lowestFree_lt hfree))
    · intro other hother
      rw [hid] at hother
      obtain rfl := Option.some.inj hother
      exact Finset.mem_insert_self _ _
    · exact fun other hother => Finset.mem_insert_of_mem (hanswered other hother)

/-! ## When no descriptor is left -/

/-- No descriptor is free, and since `before` no one was served and nothing was measured. -/
structure Exhausted (setup : Setup W) (before later : Daemon W) : Prop where
  backlog : BacklogInvariant later
  fresh : later.net.FreshQuiet
  full : lowestFree setup.limits.descriptors later.descriptors = none
  idle : later.pc.connection = none
  outbox_eq : ∀ id, later.outbox id = before.outbox id
  flag_eq : later.ud.powerOffFlag = before.ud.powerOffFlag
  streams_eq : later.history.offStreams = before.history.offStreams
  lastReading_eq : later.history.lastReading = before.history.lastReading

/-- Only the handling of a connection sets the flag or takes bytes in. -/
theorem Step.off_eq (hstep : Step setup d event next) (hidle : d.pc.connection = none)
    (hnext : next.pc.connection = none) : next.ud.powerOffFlag = d.ud.powerOffFlag ∧
      next.history.offStreams = d.history.offStreams := by
  cases hstep with
  | iterate now stamp room =>
      have hsame := sameRequests_iterate setup d now stamp room
      exact ⟨hsame.powerOffFlag, hsame.offStreams⟩
  | select ok => exact ⟨by rw [select_ud], by rw [select_history]⟩
  | accepted => cases hnext
  | readEnded _ _ hpc _ | received hpc | serve _ hpc _ => rw [hpc] at hidle; cases hidle
  | checkOff => exact ⟨by rw [checkOff_ud], by rw [checkOff_history]⟩
  | acceptFailed | connect | send | receive | close => exact ⟨rfl, rfl⟩

/-- Only an iteration that could open the file of the button takes a reading. -/
theorem Step.lastReading_of_full (hstep : Step setup d event next)
    (hfull : lowestFree setup.limits.descriptors d.descriptors = none) :
    next.history.lastReading = d.history.lastReading := by
  cases hstep.worldStep with
  | polls _ _ _ _ _ hkeeps => exact hkeeps.lastReading
  | measures _ _ _ _ hpolled => exact absurd hfull (free_of_opened hpolled)
  | writesOff _ _ _ hkeeps => exact hkeeps.lastReading
  | leaves _ hkeeps => exact hkeeps.lastReading

theorem Exhausted.step {before : Daemon W} (hexhausted : Exhausted setup before d)
    (hstep : Step setup d event next) : Exhausted setup before next := by
  have hidle : next.pc.connection = none ∧ next.descriptors = d.descriptors := by
    rcases hstep.handling_cases with ⟨hpc, hsame⟩ | ⟨_, _, _, _, hfree, _⟩
    · rcases hpc with hnone | hkept
      · exact ⟨hnone, hsame⟩
      · exact ⟨hkept.trans hexhausted.idle, hsame⟩
    · rw [hexhausted.full] at hfree
      cases hfree
  obtain ⟨hflag, hstreams⟩ := hstep.off_eq hexhausted.idle hidle.1
  have houtbox : ∀ id, next.outbox id = d.outbox id := by
    intro id
    exact hstep.outbox_eq hexhausted.fresh (by rw [hexhausted.idle]; simp)
  exact
    { backlog := hstep.backlogInvariant hexhausted.backlog
      fresh := hstep.freshQuiet hexhausted.backlog hexhausted.fresh
      full := by rw [hidle.2]; exact hexhausted.full
      idle := hidle.1
      outbox_eq := fun id => (houtbox id).trans (hexhausted.outbox_eq id)
      flag_eq := hflag.trans hexhausted.flag_eq
      streams_eq := hstreams.trans hexhausted.streams_eq
      lastReading_eq :=
        (hstep.lastReading_of_full hexhausted.full).trans hexhausted.lastReading_eq }

end Daemon

/-- **A daemon serves so many clients and no more.** In every run at most as many connections are
written to as descriptors were free at its start. From a state between two requests in which none is
free, nothing is written to any client again, nothing is taken in on the off socket and nothing is
measured; and whatever the button says, the next iteration shuts the system down. -/
theorem served_clients_limited (setup : Setup W) (world : W) (lastRead : Timeval)
    (log : Option Logger) (net : Network) (descriptors : Finset ℕ)
    (hquiet : ∀ id, (net.connections id).outbox = []) {d : Daemon W}
    (hreach : (daemonMachine setup).Reachable
      (.start setup world lastRead log net descriptors) d) :
    (∃ served : Finset ℕ, served.card ≤ (Finset.range setup.limits.descriptors \ descriptors).card ∧
      ∀ id, d.outbox id ≠ [] → id ∈ served) ∧
    (lowestFree setup.limits.descriptors d.descriptors = none → d.pc.connection = none →
      ∀ later, (daemonMachine setup).Reachable d later → Daemon.Exhausted setup d later ∧
        ∀ now stamp room, (later.iterate setup now stamp room).pc = .halted) := by
  have hserves : ∃ served, Daemon.Serves setup.limits.descriptors descriptors served d := by
    apply hreach.invariant
    · exact ⟨∅, Daemon.backlogInvariant_start .., fun id _ => hquiet id, (Nat.zero_add _).le,
        Finset.subset_union_left, nofun, fun id houtbox => absurd (hquiet id) houtbox⟩
    · rintro d event next ⟨served, hserves⟩ - hnext
      exact (Daemon.Step.of_step hnext).serves hserves
  obtain ⟨served, hserves⟩ := hserves
  refine ⟨⟨served, hserves.card_le, hserves.answered⟩, fun hfull hidle later hlater => ?_⟩
  have hexhausted : Daemon.Exhausted setup d later := by
    apply hlater.invariant
    · exact ⟨hserves.backlog, hserves.fresh, hfull, hidle, fun _ => rfl, rfl, rfl, rfl⟩
    · exact fun _ _ _ hexhausted _ hnext => hexhausted.step (Daemon.Step.of_step hnext)
  exact ⟨hexhausted, Daemon.iterate_of_full hexhausted.full⟩

/-- One descriptor is free: the first client is answered, and the daemon comes to an end. -/
theorem served_clients_limited_one : ∃ d : Daemon Unit,
    (daemonMachine ⟨.allHigh, .shipped, ⟨1, 277⟩⟩).run
        (.start ⟨.allHigh, .shipped, ⟨1, 277⟩⟩ () ⟨0, 0⟩ none .empty ∅)
        [.connect .batteryLevel, .send 0 [2, 0, 0, 0], .iterate ⟨1, 0⟩ "" 4096, .select true,
          .accept true, .read 4 true, .serve true, .close 0, .read 4 true] = some d ∧
      d.outbox 0 ≠ [] ∧ ∀ later, (daemonMachine ⟨.allHigh, .shipped, ⟨1, 277⟩⟩).Reachable d later →
        Daemon.Exhausted ⟨.allHigh, .shipped, ⟨1, 277⟩⟩ d later ∧ ∀ now stamp room,
          (later.iterate ⟨.allHigh, .shipped, ⟨1, 277⟩⟩ now stamp room).pc = .halted := by
  have hrun : ∃ d ∈ (daemonMachine ⟨.allHigh, .shipped, ⟨1, 277⟩⟩).run
      (.start ⟨.allHigh, .shipped, ⟨1, 277⟩⟩ () ⟨0, 0⟩ none .empty ∅)
      [.connect .batteryLevel, .send 0 [2, 0, 0, 0], .iterate ⟨1, 0⟩ "" 4096, .select true,
        .accept true, .read 4 true, .serve true, .close 0, .read 4 true],
      d.outbox 0 ≠ [] ∧ lowestFree 1 d.descriptors = none ∧ d.pc.connection = none := by
    decide +kernel
  obtain ⟨d, hd, houtbox, hfull, hidle⟩ := hrun
  exact ⟨d, hd, houtbox, (served_clients_limited ⟨.allHigh, .shipped, ⟨1, 277⟩⟩ () ⟨0, 0⟩ none
    .empty ∅ (fun _ => rfl) (.of_run hd)).2 hfull hidle⟩

end Rocpmd

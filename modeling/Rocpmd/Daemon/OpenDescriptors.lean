import Rocpmd.Daemon.Step
import Mathlib.Data.Finset.Card

/-!
# The descriptors of connections

`accept` takes a descriptor and neither handler closes it, so the descriptors of the daemon only
ever grow, by one for each connection accepted.
-/

namespace Rocpmd

open Foundation

variable {W : Type}

/-- The latest call of `handle_requests` is over, by returning or by throwing. -/
def DaemonPc.Returned (pc : DaemonPc) : Prop := pc = .iterate ∨ pc = .checkOff

/-- The call that is over left the descriptors as it found them. -/
def NoLeak (d : Daemon W) : Prop :=
  d.pc.Returned → d.descriptors = d.history.entryDescriptors

/-- The call that is over accepted no connection: none was waiting or its `accept` failed. -/
def AcceptedNone (d : Daemon W) : Prop := d.pc.Returned → d.history.accepted = 0

instance (pc : DaemonPc) : Decidable pc.Returned := inferInstanceAs (Decidable (_ ∨ _))

instance (d : Daemon W) : Decidable (NoLeak d) := inferInstanceAs (Decidable (_ → _))

/-- The descriptors are those of the call's start and one for each connection it accepted. -/
structure DescriptorInvariant (d : Daemon W) : Prop where
  entry_subset : d.history.entryDescriptors ⊆ d.descriptors
  card_eq : d.descriptors.card = d.history.entryDescriptors.card + d.history.accepted

theorem DescriptorInvariant.descriptors_eq_iff {d : Daemon W} (hinv : DescriptorInvariant d) :
    d.descriptors = d.history.entryDescriptors ↔ d.history.accepted = 0 := by
  constructor
  · intro heq
    have hcard := hinv.card_eq
    rw [heq] at hcard
    omega
  · intro hnone
    exact (Finset.eq_of_subset_of_card_le hinv.entry_subset (by rw [hinv.card_eq, hnone]; rfl)).symm

namespace Daemon

variable {setup : Setup W} {d next : Daemon W} {event : DaemonEvent}

theorem Step.descriptorInvariant (hstep : Step setup d event next) (hinv : DescriptorInvariant d) :
    DescriptorInvariant next := by
  have hsub := hinv.entry_subset
  have hcard := hinv.card_eq
  cases hstep with
  | iterate now stamp room _ =>
      have hsame := sameRequests_iterate setup d now stamp room
      constructor
      · rw [hsame.entryDescriptors, hsame.descriptors]
        exact hsub
      · rw [hsame.entryDescriptors, hsame.descriptors, hsame.accepted]
        exact hcard
  | select ok _ => constructor <;> simp [select_history]
  | @accepted listener offReady id rest fd _ _ hfree =>
      have hfresh := lowestFree_notMem hfree
      constructor
      · exact hsub.trans (Finset.subset_insert fd _)
      · -- the descriptor was not open, so the count grows with the connections accepted
        have hinsert := Finset.card_insert_of_notMem hfresh
        change (insert fd d.descriptors).card =
          d.history.entryDescriptors.card + (d.history.accepted + 1)
        omega
  | checkOff _ =>
      constructor
      · simpa [checkOff_history] using hsub
      · simpa [checkOff_history] using hcard
  | serve ok _ => exact ⟨by simpa using hsub, by simpa using hcard⟩
  | acceptFailed | readEnded | received | connect | send | receive | close => exact ⟨hsub, hcard⟩

/-- No step closes a descriptor. -/
theorem Step.descriptors_subset (hstep : Step setup d event next) :
    d.descriptors ⊆ next.descriptors := by
  cases hstep with
  | iterate now stamp room _ =>
      rw [(sameRequests_iterate setup d now stamp room).descriptors]
  | accepted => exact Finset.subset_insert _ _
  | select | serve | checkOff => simp
  | acceptFailed | readEnded | received | connect | send | receive | close => exact subset_rfl

/-- However long the daemon runs, it closes none of its descriptors. -/
theorem descriptors_subset_of_reachable {later : Daemon W}
    (hreach : (daemonMachine setup).Reachable d later) : d.descriptors ⊆ later.descriptors := by
  apply hreach.invariant
  · exact subset_rfl
  · intro s event next hsub _ hnext
    exact hsub.trans (Step.of_step hnext).descriptors_subset

end Daemon

/-- **When no descriptor is leaked.** In a run, every call of `handle_requests` that is over has
left the open descriptors as they were exactly when every such call accepted no connection. -/
theorem noLeak_along_iff (setup : Setup W) (world : W) (lastRead : Timeval)
    (log : Option Logger) (net : Network) (descriptors : Finset ℕ) (events : List DaemonEvent) :
    (daemonMachine setup).Along NoLeak
        (Daemon.start setup world lastRead log net descriptors) events ↔
      (daemonMachine setup).Along AcceptedNone
        (Daemon.start setup world lastRead log net descriptors) events :=
  Machine.along_congr DescriptorInvariant
    (fun _ _ _ hinv hnext => (Daemon.Step.of_step hnext).descriptorInvariant hinv)
    (fun _ hinv => imp_congr_right fun _ => hinv.descriptors_eq_iff)
    ⟨subset_rfl, rfl⟩ events

/-- A client that connects and closes costs the daemon a descriptor for good. With one descriptor to
spare, `accept` fails for the off client that is served next in the same call. -/
theorem finished_connection_leaks :
    ¬ (daemonMachine ⟨.allHigh, .shipped, ⟨1, 277⟩⟩).Along NoLeak
        (Daemon.start ⟨.allHigh, .shipped, ⟨1, 277⟩⟩ () ⟨0, 0⟩ none .empty {})
        [.connect .batteryLevel, .close 0, .iterate ⟨1, 0⟩ "" 4096, .select true, .accept true,
          .read 4 true] ∧
      ∃ last ∈ (daemonMachine ⟨.allHigh, .shipped, ⟨1, 277⟩⟩).run
          (Daemon.start ⟨.allHigh, .shipped, ⟨1, 277⟩⟩ () ⟨0, 0⟩ none .empty {})
          [.connect .batteryLevel, .close 0, .connect .off, .iterate ⟨1, 0⟩ "" 4096, .select true,
            .accept true, .read 4 true],
        last.pc = .accept .off false ∧ lowestFree 1 last.descriptors = none :=
  ⟨Machine.not_along_of_run (by decide +kernel), by decide +kernel⟩

end Rocpmd

import Mathlib
import Rocpmd.Foundation.Machine

/-!
# Paying for the steps of a run

A potential pays for the events that cost something, and others raise it. What a run costs is then
bounded by the potential at its start and by what its events have brought in.
-/

namespace Foundation

namespace Machine

variable {State Event : Type*} {M : Machine State Event}

section Total

variable {α : Type*}

/-- The sum of a quantity over the events of a run. -/
def total [AddCommMonoid α] (quantity : Event → α) (events : List Event) : α :=
  (events.map quantity).sum

@[simp] theorem total_nil [AddCommMonoid α] (quantity : Event → α) : total quantity [] = 0 := rfl

@[simp] theorem total_cons [AddCommMonoid α] (quantity : Event → α) (event : Event)
    (events : List Event) :
    total quantity (event :: events) = quantity event + total quantity events :=
  List.sum_cons

@[simp] theorem total_zero [AddCommMonoid α] (events : List Event) :
    total (fun _ => (0 : α)) events = 0 :=
  List.sum_map_zero

theorem total_add [AddCommMonoid α] (quantity other : Event → α) (events : List Event) :
    total (fun event => quantity event + other event) events =
      total quantity events + total other events :=
  List.sum_map_add

theorem total_mul [NonUnitalNonAssocSemiring α] (factor : α) (quantity : Event → α)
    (events : List Event) :
    total (fun event => factor * quantity event) events = factor * total quantity events :=
  List.sum_map_mul_left events quantity factor

theorem total_cast [AddCommMonoidWithOne α] (quantity : Event → ℕ) (events : List Event) :
    total (fun event => (quantity event : α)) events = (total quantity events : ℕ) := by
  induction events with
  | nil => simp
  | cons event events ih => simp [ih]

end Total

variable {α : Type*} [AddCommMonoid α] [PartialOrder α] [IsOrderedAddMonoid α]

/-- If under an invariant every step is paid for, the run is. -/
theorem run_cost_le {inv : State → Prop} (potential : State → α) (cost credit : Event → α)
    (hinv : ∀ s event next, inv s → M.step s event = some next → inv next)
    (hpaid : ∀ s event next, inv s → M.step s event = some next →
      cost event + potential next ≤ potential s + credit event)
    {s last : State} {events : List Event} (hs : inv s) (hrun : M.run s events = some last) :
    total cost events + potential last ≤ potential s + total credit events := by
  induction events generalizing s with
  | nil =>
      obtain rfl : s = last := Option.some.inj hrun
      simp
  | cons event rest ih =>
      obtain ⟨next, hnext, hrest⟩ := Option.bind_eq_some_iff.mp hrun
      have hfirst := hpaid s event next hs hnext
      have hlater := ih (hinv s event next hs hnext) hrest
      calc total cost (event :: rest) + potential last
          = cost event + (total cost rest + potential last) := by rw [total_cons, add_assoc]
        _ ≤ cost event + (potential next + total credit rest) := by gcongr
        _ = (cost event + potential next) + total credit rest := (add_assoc _ _ _).symm
        _ ≤ (potential s + credit event) + total credit rest := by gcongr
        _ = potential s + total credit (event :: rest) := by rw [total_cons, add_assoc]

end Machine

end Foundation

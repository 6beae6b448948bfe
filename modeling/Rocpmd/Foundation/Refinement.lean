import Rocpmd.Foundation.Machine

/-!
# Refinement

One machine refines another if whatever is seen of each of its steps is a run of the other. A step
of which nothing is seen leaves the other where it is. What is seen of a whole run is a run, too.

A machine is viewed as another one if it takes the same steps as the other does on what is seen of
its states. The two then have the same runs.
-/

namespace Foundation

namespace Machine

variable {State Event Abstract Effect : Type*}

/-- What is seen of a run, up to the first refused event. -/
def trace (M : Machine State Event) (observe : State → Event → State → List Effect) :
    State → List Event → List Effect
  | _, [] => []
  | s, event :: rest =>
      match M.step s event with
      | none => []
      | some next => observe s event next ++ trace M observe next rest

/-- The states that are related stay so. -/
def Refines (M : Machine State Event) (spec : Machine Abstract Effect)
    (observe : State → Event → State → List Effect) (related : State → Abstract → Prop) : Prop :=
  ∀ s shown event next, related s shown → M.step s event = some next →
    ∃ after, spec.run shown (observe s event next) = some after ∧ related next after

variable {M : Machine State Event} {spec : Machine Abstract Effect}
  {observe : State → Event → State → List Effect} {related : State → Abstract → Prop}

theorem Refines.run (hrefines : M.Refines spec observe related) {s last : State} {shown : Abstract}
    (hrelated : related s shown) {events : List Event} (hrun : M.run s events = some last) :
    ∃ after, spec.run shown (M.trace observe s events) = some after ∧ related last after := by
  induction events generalizing s shown with
  | nil =>
      obtain rfl := Option.some.inj hrun
      exact ⟨shown, rfl, hrelated⟩
  | cons event rest ih =>
      obtain ⟨next, hnext, hrest⟩ := Option.bind_eq_some_iff.mp hrun
      obtain ⟨middle, hmiddle, hrelated⟩ := hrefines s shown event next hrelated hnext
      obtain ⟨after, hafter, hlast⟩ := ih hrelated hrest
      refine ⟨after, ?_, hlast⟩
      rw [trace, hnext]
      dsimp only
      rw [run_append, hmiddle]
      exact hafter

/-- A run has come to some state at each of its events. -/
theorem exists_step_of_run {s last : State} {before after : List Event} {event : Event}
    (hrun : M.run s (before ++ event :: after) = some last) :
    ∃ middle next, M.run s before = some middle ∧ M.step middle event = some next := by
  rw [run_append] at hrun
  obtain ⟨middle, hmiddle, hrest⟩ := Option.bind_eq_some_iff.mp hrun
  obtain ⟨next, hnext, -⟩ := Option.bind_eq_some_iff.mp hrest
  exact ⟨middle, next, hmiddle, hnext⟩

/-! ## Views -/

section View

variable {State' : Type*}

/-- While `inv` holds, and it does not cease to, the steps are those of `M'` on the views. -/
structure View (M : Machine State Event) (M' : Machine State' Event) (inv : State → Prop)
    (view : State → State') : Prop where
  step : ∀ s event, inv s → M'.step (view s) event = (M.step s event).map view
  keeps : ∀ s event next, inv s → M.step s event = some next → inv next

variable {M' : Machine State' Event} {inv : State → Prop} {view : State → State'}

theorem View.run (hview : M.View M' inv view) {s : State} (hs : inv s) (events : List Event) :
    M'.run (view s) events = (M.run s events).map view := by
  induction events generalizing s with
  | nil => rfl
  | cons event rest ih =>
      rw [Machine.run, Machine.run, hview.step s event hs]
      cases hnext : M.step s event with
      | none => rfl
      | some next => exact ih (hview.keeps s event next hs hnext)

end View

end Machine

end Foundation

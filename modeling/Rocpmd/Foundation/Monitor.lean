import Rocpmd.Foundation.Machine

/-!
# Machines with company

Three ways of putting something beside a machine that does not take part in its steps: a ghost that
records what the steps did, an environment that changes whenever it likes, and the time at which
each event is taken.
-/

namespace Foundation

namespace Machine

variable {State Event : Type*} (M : Machine State Event)

/-! ## Ghosts -/

section Ghost

variable {Ghost : Type*}

/-- The machine beside a ghost that watches it. -/
def monitored (watch : Ghost → State → Event → Ghost) : Machine (State × Ghost) Event where
  step s event := (M.step s.1 event).map fun next => (next, watch s.2 s.1 event)

variable {M} {watch : Ghost → State → Event → Ghost}

theorem monitored_step {s next : State × Ghost} {event : Event}
    (hstep : (M.monitored watch).step s event = some next) :
    M.step s.1 event = some next.1 ∧ next.2 = watch s.2 s.1 event := by
  obtain ⟨state, hstate, rfl⟩ := Option.map_eq_some_iff.mp hstep
  exact ⟨hstate, rfl⟩

theorem reachable_of_monitored {start s : State × Ghost}
    (hreach : (M.monitored watch).Reachable start s) : M.Reachable start.1 s.1 := by
  induction hreach with
  | start => exact .start
  | step _ _ hstep ih => exact ih.step trivial (monitored_step hstep).1

/-- What the ghost has come to at the end of the events, up to the first refused one. -/
def watched (M : Machine State Event) (watch : Ghost → State → Event → Ghost) :
    State → Ghost → List Event → Ghost
  | _, ghost, [] => ghost
  | s, ghost, event :: rest =>
      match M.step s event with
      | none => ghost
      | some next => watched M watch next (watch ghost s event) rest

theorem run_monitored {s last : State} {events : List Event} (hrun : M.run s events = some last)
    (watch : Ghost → State → Event → Ghost) (ghost : Ghost) :
    (M.monitored watch).run (s, ghost) events = some (last, M.watched watch s ghost events) := by
  induction events generalizing s ghost with
  | nil => exact congrArg (fun s => some (s, ghost)) (Option.some.inj hrun)
  | cons event rest ih =>
      obtain ⟨next, hnext, hrest⟩ := Option.bind_eq_some_iff.mp hrun
      have hstep : (M.monitored watch).step (s, ghost) event =
          some (next, watch ghost s event) := by
        simp [monitored, hnext]
      rw [run, hstep, Option.bind_some, watched, hnext]
      exact ih hrest _

theorem watched_invariant {inv : Ghost → Prop} {events : List Event}
    (hwatch : ∀ ghost s, ∀ event ∈ events, inv ghost → inv (watch ghost s event)) (s : State)
    {ghost : Ghost} (hghost : inv ghost) : inv (M.watched watch s ghost events) := by
  induction events generalizing s ghost with
  | nil => exact hghost
  | cons event rest ih =>
      rw [watched]
      split
      next => exact hghost
      next next _ =>
        have hrest : ∀ ghost s, ∀ event ∈ rest, inv ghost → inv (watch ghost s event) :=
          fun ghost s event hmem => hwatch ghost s event (List.mem_cons_of_mem _ hmem)
        exact ih hrest next (hwatch ghost s event List.mem_cons_self hghost)

/-- The ghost stops no run. -/
theorem Reachable.exists_monitored {start s : State} (hreach : M.Reachable start s)
    (watch : Ghost → State → Event → Ghost) (ghost : Ghost) :
    ∃ watched, (M.monitored watch).Reachable (start, ghost) (s, watched) := by
  induction hreach with
  | start => exact ⟨ghost, .start⟩
  | @step s next event _ _ hstep ih =>
      obtain ⟨watched, hwatched⟩ := ih
      have hnext : (M.monitored watch).step (s, watched) event =
          some (next, watch watched s event) := by
        simp [monitored, hstep]
      exact ⟨watch watched s event, hwatched.step trivial hnext⟩

end Ghost

/-! ## Environments -/

section Environment

variable {Env : Type*}

/-- The machine in an environment that changes between its steps. -/
def inEnvironment (Env : Type*) : Machine (State × Env) (Event ⊕ Env) where
  step s
    | .inl event => (M.step s.1 event).map fun next => (next, s.2)
    | .inr env => some (s.1, env)

variable {M}

theorem inEnvironment_step {s next : State × Env} {event : Event ⊕ Env}
    (hstep : (M.inEnvironment Env).step s event = some next) :
    (∃ taken, event = .inl taken ∧ M.step s.1 taken = some next.1 ∧ next.2 = s.2) ∨
      event = .inr next.2 ∧ next.1 = s.1 := by
  cases event with
  | inl taken =>
      obtain ⟨state, hstate, rfl⟩ := Option.map_eq_some_iff.mp hstep
      exact .inl ⟨taken, rfl, hstate, rfl⟩
  | inr env =>
      obtain rfl := Option.some.inj hstep
      exact .inr ⟨rfl, rfl⟩

end Environment

/-! ## Time -/

/-- The machine with the time of each event, which it does not know. -/
def timed (Time : Type*) : Machine State (Event × Time) where
  step s event := M.step s event.1

end Machine

end Foundation

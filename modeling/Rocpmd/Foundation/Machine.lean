import Mathlib.Tactic.Common

/-!
# Event machines

A machine takes one step for each event it is handed, or refuses the event. Schedules, failures and
external inputs are all carried by the events, so a run is determined by its start and its events.

A *condition* relates a state to the event taken there. `ReachableUnder` collects the states of all
runs whose steps meet a condition; `Along` and `Meets` judge the states and the steps of one run.
-/

namespace Foundation

structure Machine (State Event : Type*) where
  step : State → Event → Option State

namespace Machine

variable {State Event : Type*} (M : Machine State Event)

/-- The state after a list of events, if none of them is refused. -/
def run : State → List Event → Option State
  | s, [] => some s
  | s, event :: rest => (M.step s event).bind fun next => run next rest

/-- The states reached from `start` by steps that all meet `cond`. -/
inductive ReachableUnder (cond : State → Event → Prop) (start : State) : State → Prop
  | start : ReachableUnder cond start start
  | step {s next : State} {event : Event} : ReachableUnder cond start s → cond s event →
      M.step s event = some next → ReachableUnder cond start next

/-- The states reached by any steps at all. -/
abbrev Reachable (start : State) : State → Prop :=
  M.ReachableUnder (fun _ _ => True) start

/-- Every state that the events lead through satisfies `safe`, up to the first refused event. -/
def Along (safe : State → Prop) : State → List Event → Prop
  | s, [] => safe s
  | s, event :: rest => safe s ∧ ∀ next, M.step s event = some next → Along safe next rest

/-- Every step that the events cause meets `cond` in the state it leaves. -/
def Meets (cond : State → Event → Prop) : State → List Event → Prop
  | _, [] => True
  | s, event :: rest => ∀ next, M.step s event = some next → cond s event ∧ Meets cond next rest

variable {M}

/-- Whether a run meets a condition that can be decided can be decided by running. -/
instance Meets.decidable {cond : State → Event → Prop} [∀ s event, Decidable (cond s event)] :
    ∀ (s : State) (events : List Event), Decidable (M.Meets cond s events)
  | _, [] => .isTrue trivial
  | s, event :: rest =>
      match hstep : M.step s event with
      | none => .isTrue fun next hnext => by rw [hstep] at hnext; cases hnext
      | some next =>
          have : Decidable (M.Meets cond next rest) := Meets.decidable next rest
          decidable_of_iff (cond s event ∧ M.Meets cond next rest) (by simp [Meets, hstep])

theorem run_append (s : State) (events rest : List Event) :
    M.run s (events ++ rest) = (M.run s events).bind fun next => M.run next rest := by
  induction events generalizing s with
  | nil => rfl
  | cons event events ih =>
      rw [List.cons_append, run, run, Option.bind_assoc]
      exact Option.bind_congr fun next _ => ih next

/-- What holds at the start and is preserved by every step meeting the condition holds in every
state reached by such steps. -/
theorem ReachableUnder.invariant {cond : State → Event → Prop} {inv : State → Prop}
    {start s : State} (hreach : M.ReachableUnder cond start s) (hstart : inv start)
    (hstep : ∀ s event next, inv s → cond s event → M.step s event = some next → inv next) :
    inv s := by
  induction hreach with
  | start => exact hstart
  | step _ hcond hnext ih => exact hstep _ _ _ ih hcond hnext

/-- A run whose steps meet the condition ends in a state reached under it. -/
theorem ReachableUnder.of_run {cond : State → Event → Prop} {start s last : State}
    {events : List Event} (hreach : M.ReachableUnder cond start s)
    (hmeets : M.Meets cond s events) (hrun : M.run s events = some last) :
    M.ReachableUnder cond start last := by
  induction events generalizing s with
  | nil =>
      obtain rfl : s = last := Option.some.inj hrun
      exact hreach
  | cons event rest ih =>
      obtain ⟨next, hnext, hrest⟩ := Option.bind_eq_some_iff.mp hrun
      obtain ⟨hcond, htail⟩ := hmeets next hnext
      exact ih (hreach.step hcond hnext) htail hrest

/-- A condition on the events alone. -/
theorem meets_of_events {cond : Event → Prop} {events : List Event}
    (hevents : ∀ event ∈ events, cond event) (s : State) :
    M.Meets (fun _ event => cond event) s events := by
  induction events generalizing s with
  | nil => trivial
  | cons event rest ih =>
      obtain ⟨hevent, hrest⟩ := List.forall_mem_cons.mp hevents
      exact fun next _ => ⟨hevent, ih hrest next⟩

theorem meets_true (s : State) (events : List Event) : M.Meets (fun _ _ => True) s events :=
  meets_of_events (fun _ _ => trivial) s

theorem Reachable.of_run {start last : State} {events : List Event}
    (hrun : M.run start events = some last) : M.Reachable start last :=
  ReachableUnder.start.of_run (meets_true start events) hrun

/-- A run is safe throughout exactly when each of its steps meets the condition, if from a safe
state that carries a fact a step leads to a safe state exactly when it meets the condition, and such
steps carry the fact on. -/
theorem along_iff_meets_carrying (carried : State → Prop) {safe : State → Prop}
    {cond : State → Event → Prop}
    (hcarried : ∀ s event next, carried s → safe s → cond s event → M.step s event = some next →
      carried next)
    (hsafe : ∀ s event next, carried s → safe s → M.step s event = some next →
      (safe next ↔ cond s event))
    {s : State} (hs : carried s) (hstart : safe s) (events : List Event) :
    M.Along safe s events ↔ M.Meets cond s events := by
  induction events generalizing s with
  | nil => exact iff_of_true hstart trivial
  | cons event rest ih =>
      -- a step that meets the condition hands a safe state to the rest of the run, and only such a
      -- step does
      have htail : ∀ next, M.step s event = some next →
          (M.Along safe next rest ↔ cond s event ∧ M.Meets cond next rest) := by
        intro next hnext
        have hiff := hsafe s event next hs hstart hnext
        constructor
        · intro halong
          have hnextSafe : safe next := by cases rest <;> [exact halong; exact halong.1]
          have hcond := hiff.mp hnextSafe
          have hnextCarried := hcarried s event next hs hstart hcond hnext
          exact ⟨hcond, (ih hnextCarried hnextSafe).mp halong⟩
        · rintro ⟨hcond, hmeets⟩
          have hnextCarried := hcarried s event next hs hstart hcond hnext
          exact (ih hnextCarried (hiff.mpr hcond)).mpr hmeets
      exact ⟨fun halong next hnext => (htail next hnext).mp (halong.2 next hnext),
        fun hmeets => ⟨hstart, fun next hnext => (htail next hnext).mpr (hmeets next hnext)⟩⟩

/-- The same with an invariant that every step preserves. -/
theorem along_iff_meets (inv : State → Prop) {safe : State → Prop} {cond : State → Event → Prop}
    (hinv : ∀ s event next, inv s → M.step s event = some next → inv next)
    (hsafe : ∀ s event next, inv s → safe s → M.step s event = some next →
      (safe next ↔ cond s event))
    {s : State} (hs : inv s) (hstart : safe s) (events : List Event) :
    M.Along safe s events ↔ M.Meets cond s events :=
  along_iff_meets_carrying inv (fun s event next hs _ _ => hinv s event next hs) hsafe hs hstart
    events

/-- What every step preserves holds along a run exactly when it holds at its start. -/
theorem along_iff_start {safe : State → Prop}
    (hsafe : ∀ s event next, safe s → M.step s event = some next → safe next)
    (s : State) (events : List Event) : M.Along safe s events ↔ safe s := by
  constructor
  · intro halong
    cases events with
    | nil => exact halong
    | cons event rest => exact halong.1
  · intro hstart
    rw [along_iff_meets (fun _ => True) (fun _ _ _ _ _ => trivial)
      (fun s event next _ hs hnext => iff_of_true (hsafe s event next hs hnext) trivial) trivial
      hstart]
    exact meets_true s events

/-- What is equivalent under an invariant is equivalent along a run. -/
theorem along_congr (inv : State → Prop) {safe other : State → Prop}
    (hinv : ∀ s event next, inv s → M.step s event = some next → inv next)
    (hiff : ∀ s, inv s → (safe s ↔ other s)) {s : State} (hs : inv s) (events : List Event) :
    M.Along safe s events ↔ M.Along other s events := by
  induction events generalizing s with
  | nil => exact hiff s hs
  | cons event rest ih =>
      exact and_congr (hiff s hs)
        (forall_congr' fun next => imp_congr_right fun hnext => ih (hinv s event next hs hnext))

/-- Conditions that are equivalent under an invariant are met by the same runs. -/
theorem meets_congr (inv : State → Prop) {cond other : State → Event → Prop}
    (hinv : ∀ s event next, inv s → M.step s event = some next → inv next)
    (hiff : ∀ s event, inv s → (cond s event ↔ other s event)) {s : State} (hs : inv s)
    (events : List Event) : M.Meets cond s events ↔ M.Meets other s events := by
  induction events generalizing s with
  | nil => exact Iff.rfl
  | cons event rest ih =>
      exact forall_congr' fun next => imp_congr_right fun hnext =>
        and_congr (hiff s event hs) (ih (hinv s event next hs hnext))

/-- A run that ends in an unsafe state is not safe throughout. -/
theorem not_along_of_run {safe : State → Prop} {s : State} {events : List Event}
    (hrun : ∃ last ∈ M.run s events, ¬ safe last) : ¬ M.Along safe s events := by
  obtain ⟨last, hlast, hunsafe⟩ := hrun
  induction events generalizing s with
  | nil =>
      obtain rfl : s = last := Option.some.inj hlast
      exact hunsafe
  | cons event rest ih =>
      obtain ⟨next, hnext, hrest⟩ := Option.bind_eq_some_iff.mp hlast
      exact fun halong => ih hrest (halong.2 next hnext)

end Machine

end Foundation

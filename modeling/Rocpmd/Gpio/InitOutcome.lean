import Rocpmd.Gpio.PinBank

/-!
# What gpio_init leaves behind

`gpio_init` looks only at whether a file could be opened, and leaves the pins it has exported where
they are when one could not.
-/

namespace Rocpmd

open Call

/-! ## The promise -/

/-- The pin is set up for its role. -/
structure Pin.SetUp (pin : Pin) (role : Role) : Prop where
  exported : pin.exported = true
  direction : pin.isOutput = decide (initDirection role = output)
  level : role = .csB → pin.level = true

theorem Pin.setUp_iff {pin : Pin} {role : Role} :
    pin.SetUp role ↔ pin.exported = true ∧ pin.isOutput = decide (initDirection role = output) ∧
      (role = .csB → pin.level = true) :=
  ⟨fun hsetUp => ⟨hsetUp.exported, hsetUp.direction, hsetUp.level⟩,
    fun ⟨hexported, hdirection, hlevel⟩ => ⟨hexported, hdirection, hlevel⟩⟩

/-- Success means that every pin is set up, and an error that no pin is exported that was not. -/
structure InitTruthful (faults : GpioFile → String → Access) (conf : Config) (bank : PinBank) :
    Prop where
  success : (gpioInit (.withFaults faults) conf bank).1 = gpioSuccess →
    ∀ role, ((gpioInit (.withFaults faults) conf bank).2 (conf.pin role)).SetUp role
  error : (gpioInit (.withFaults faults) conf bank).1 = gpioError →
    ∀ pin, ((gpioInit (.withFaults faults) conf bank).2 pin).exported = (bank pin).exported
  others : ∀ pin, (∀ role, conf.pin role ≠ pin) →
    (gpioInit (.withFaults faults) conf bank).2 pin = bank pin

section Roles

variable (faults : GpioFile → String → Access) (conf : Config) (bank : PinBank) (role : Role)

/-! ## The accesses for a role -/

def exportAccess : Access := faults .exportFile (toString (conf.pin role))

def directionAccess : Access :=
  faults (.direction (conf.pin role)) (gpioMapDirection (initDirection role) ++ "\n")

def levelAccess : Access := faults (.value (conf.pin role)) "1"

/-- Every file that setting up the pin needs can be opened. -/
def Opens : Prop :=
  exportAccess faults conf role ≠ .cannotOpen ∧
    ((bank (conf.pin role)).exported = true ∨ exportAccess faults conf role = .accepted) ∧
    directionAccess faults conf role ≠ .cannotOpen ∧
    (role = .csB → levelAccess faults conf role ≠ .cannotOpen)

instance : Decidable (Opens faults conf bank role) := inferInstanceAs (Decidable (_ ∧ _))

/-- The direction arrives, or is the right one already; the level of CS_B arrives, or is high
already and not taken back by the direction. -/
def Arrives : Prop :=
  (directionAccess faults conf role = .accepted ∨
      (bank (conf.pin role)).isOutput = decide (initDirection role = output)) ∧
    (role = .csB → levelAccess faults conf role = .accepted ∨
      directionAccess faults conf role = .refused ∧ (bank (conf.pin role)).level = true)

def NewlyExports : Prop :=
  (bank (conf.pin role)).exported = false ∧ exportAccess faults conf role = .accepted

/-- The roles that are gotten to: up to the first one not all files of which can be opened. -/
def reachedRoles : List Role → List Role
  | [] => []
  | role :: rest =>
      role :: if Opens faults conf bank role then reachedRoles rest else []

end Roles

/-! ## Setting up the pin of a role -/

section Roles

variable (faults : GpioFile → String → Access) (conf : Config)

/-- What `gpio_init` does to the pin of a role. -/
def setUp (role : Role) : Pin → Bool × Pin :=
  Pin.andThen (Pin.exportBy (exportAccess faults conf role)) <|
    Pin.andThen (Pin.direct (directionAccess faults conf role) (initDirection role)) <|
      if role = .csB then Pin.raise (levelAccess faults conf role) else fun pin => (true, pin)

theorem initDirection_eq (role : Role) :
    initDirection role = input ∨ initDirection role = output := by
  cases role <;> decide

theorem ret_actsOn (pin : Int) :
    (ret gpioSuccess : Call PinBank).ActsOn pin fun pin => (true, pin) := by
  intro bank
  rw [Function.update_eq_self]
  rfl

theorem runOps_append {W : Type} (fs : Sysfs W) (first rest : List GpioOp) :
    runOps fs (first ++ rest) = orReturn (runOps fs first) fun _ => runOps fs rest := by
  induction first with
  | nil =>
      funext w
      simp [runOps, Call.orReturn, ret, gpioSuccess, gpioError]
  | cons op first ih =>
      rw [List.cons_append, runOps, ih, runOps, orReturn_assoc]

theorem runOps_initOps_actsOn (role : Role) :
    (runOps (.withFaults faults) (initOps conf role)).ActsOn (conf.pin role)
      (setUp faults conf role) := by
  have hexport := gpioInitPin_actsOn faults (conf.pin role)
  have hdirection := gpioSetPinDirection_actsOn faults (conf.pin role) (initDirection_eq role)
  have hlast : (runOps (.withFaults faults)
      (if role = .csB then [.digitalWrite (conf.pin role) high] else [])).ActsOn (conf.pin role)
        (if role = .csB then Pin.raise (levelAccess faults conf role)
          else fun pin => (true, pin)) := by
    split
    next =>
      rw [← Pin.andThen_done (Pin.raise _)]
      exact (digitalWrite_actsOn faults (conf.pin role)).orReturn (ret_actsOn _)
    next => exact ret_actsOn _
  exact hexport.orReturn (hdirection.orReturn hlast)

theorem lastAct_exported (role : Role) (pin : Pin) :
    ((if role = .csB then Pin.raise (levelAccess faults conf role)
      else fun pin => (true, pin)) pin).2.exported = pin.exported := by
  split
  next => exact Pin.raise_exported _ _
  next => rfl

/-- Whatever fails, the pin is exported if it was, or if that text arrived. -/
theorem setUp_exported (role : Role) (pin : Pin) :
    (setUp faults conf role pin).2.exported =
      (pin.exported || exportAccess faults conf role = .accepted) := by
  have hrest : ∀ pin, (Pin.andThen (Pin.direct (directionAccess faults conf role)
      (initDirection role)) (if role = .csB then Pin.raise (levelAccess faults conf role)
        else fun pin => (true, pin)) pin).2.exported = pin.exported := by
    intro pin
    rw [Pin.andThen_field Pin.exported (lastAct_exported faults conf role), Pin.direct_exported]
  rw [setUp, Pin.andThen_field Pin.exported hrest, Pin.exportBy_exported]

/-- The pin is gotten through if its files can be opened. -/
theorem setUp_opens_iff (bank : PinBank) (role : Role) :
    (setUp faults conf role (bank (conf.pin role))).1 = true ↔ Opens faults conf bank role := by
  rw [setUp, Pin.andThen_succeeds_iff, Pin.andThen_succeeds_iff, Pin.exportBy_succeeds_iff,
    Pin.direct_succeeds_iff, Pin.exportBy_exported, Bool.or_eq_true, decide_eq_true_iff, Opens]
  by_cases hrole : role = .csB
  · rw [if_pos hrole, Pin.raise_succeeds_iff, Pin.direct_exported, Pin.exportBy_exported,
      Bool.or_eq_true, decide_eq_true_iff]
    tauto
  · rw [if_neg hrole]
    tauto

/-- Once its files can be opened, the pin is exported before the rest is done to it. -/
theorem setUp_of_opens {bank : PinBank} {role : Role} (hopens : Opens faults conf bank role) :
    setUp faults conf role (bank (conf.pin role)) =
      Pin.andThen (Pin.direct (directionAccess faults conf role) (initDirection role))
        (if role = .csB then Pin.raise (levelAccess faults conf role) else fun pin => (true, pin))
        { bank (conf.pin role) with exported := true } := by
  obtain ⟨hexport, hexported, -, -⟩ := hopens
  have hopened : (Pin.exportBy (exportAccess faults conf role) (bank (conf.pin role))).1 = true :=
    decide_eq_true hexport
  have hpin : (Pin.exportBy (exportAccess faults conf role) (bank (conf.pin role))).2 =
      { bank (conf.pin role) with exported := true } := by
    unfold Pin.exportBy
    dsimp only
    split
    next => rfl
    next hrefused => rw [← hexported.resolve_right hrefused]
  rw [setUp, Pin.andThen_of_succeeds hopened, hpin]

/-- A pin that is gotten through is set up if the texts that matter arrived. -/
theorem setUp_setUp_iff {bank : PinBank} {role : Role} (hopens : Opens faults conf bank role) :
    (setUp faults conf role (bank (conf.pin role))).2.SetUp role ↔
      Arrives faults conf bank role := by
  obtain ⟨hexport, hexported, hdirection, hlevel⟩ := hopens
  rw [setUp_of_opens faults conf ⟨hexport, hexported, hdirection, hlevel⟩, Arrives,
    Pin.andThen_of_succeeds ((Pin.direct_succeeds_iff ..).mpr ⟨hdirection, rfl⟩)]
  have hprogrammed :
      decide (initDirection role ≠ input) = decide (initDirection role = output) := by
    cases role <;> decide
  rw [Pin.setUp_iff]
  by_cases hrole : role = .csB
  · subst hrole
    have hdirected := Access.refused_or_accepted hdirection
    have hraised := Access.refused_or_accepted (hlevel rfl)
    have houtput : initDirection .csB = output := rfl
    have hinput : output ≠ input := by decide
    rcases hdirected with hdirected | hdirected <;> rcases hraised with hraised | hraised <;>
      cases hcurrent : (bank (conf.pin .csB)).isOutput <;>
      simp [Pin.direct, Pin.raise, hdirected, hraised, hcurrent, houtput, hinput]
  · rw [if_neg hrole, Pin.direct, hprogrammed]
    by_cases haccepted : directionAccess faults conf role = .accepted <;>
      simp [haccepted, hrole]

/-! ## All pins -/

theorem runOps_initOps (bank : PinBank) (role : Role) :
    runOps (.withFaults faults) (initOps conf role) bank =
      (if Opens faults conf bank role then gpioSuccess else gpioError,
        Function.update bank (conf.pin role)
          (setUp faults conf role (bank (conf.pin role))).2) := by
  rw [runOps_initOps_actsOn faults conf role bank]
  congr 1
  exact if_congr (setUp_opens_iff faults conf bank role) rfl rfl

/-- The files of a pin do not depend on the others. -/
theorem opens_update_iff (bank : PinBank) {role role' : Role}
    (hne : conf.pin role' ≠ conf.pin role) (pin : Pin) :
    Opens faults conf (Function.update bank (conf.pin role) pin) role' ↔
      Opens faults conf bank role' := by
  unfold Opens
  rw [Function.update_of_ne hne]

theorem reachedRoles_update (bank : PinBank) (role : Role) (pin : Pin) (roles : List Role)
    (hne : ∀ role' ∈ roles, conf.pin role' ≠ conf.pin role) :
    reachedRoles faults conf (Function.update bank (conf.pin role) pin) roles =
      reachedRoles faults conf bank roles := by
  induction roles with
  | nil => rfl
  | cons first rest ih =>
      rw [reachedRoles, reachedRoles,
        ih fun role' hrole' => hne role' (List.mem_cons_of_mem _ hrole')]
      congr 1
      exact if_congr (opens_update_iff faults conf bank (hne first List.mem_cons_self) pin) rfl rfl

theorem mem_of_mem_reachedRoles {bank : PinBank} {role : Role} {roles : List Role}
    (hmem : role ∈ reachedRoles faults conf bank roles) : role ∈ roles := by
  induction roles with
  | nil => exact hmem
  | cons first rest ih =>
      rw [reachedRoles] at hmem
      rcases List.mem_cons.mp hmem with rfl | hrest
      · exact List.mem_cons_self
      · split at hrest
        next => exact List.mem_cons_of_mem _ (ih hrest)
        next => cases hrest

/-- If all files open, every role is gotten to. -/
theorem reachedRoles_of_opens {bank : PinBank} {roles : List Role}
    (hopens : ∀ role ∈ roles, Opens faults conf bank role) :
    reachedRoles faults conf bank roles = roles := by
  induction roles with
  | nil => rfl
  | cons first rest ih =>
      rw [reachedRoles, if_pos (hopens first List.mem_cons_self),
        ih fun role hrole => hopens role (List.mem_cons_of_mem _ hrole)]

/-- What setting up some roles comes to: the status says whether the files of all of them could be
opened, and the pins that were gotten to are as their own setting up leaves them. -/
structure RolesOutcome (bank : PinBank) (roles : List Role) (result : Int × PinBank) : Prop where
  status : result.1 = if ∀ role ∈ roles, Opens faults conf bank role then gpioSuccess else gpioError
  reached : ∀ role ∈ reachedRoles faults conf bank roles,
    result.2 (conf.pin role) = (setUp faults conf role (bank (conf.pin role))).2
  rest : ∀ pin, (∀ role ∈ reachedRoles faults conf bank roles, conf.pin role ≠ pin) →
    result.2 pin = bank pin

namespace RolesOutcome

variable {faults conf} {bank : PinBank} {role : Role} {roles : List Role}

/-- The first role is not gotten through: the others are not gotten to. -/
theorem stop (hopens : ¬ Opens faults conf bank role) :
    RolesOutcome faults conf bank (role :: roles) (gpioError,
      Function.update bank (conf.pin role) (setUp faults conf role (bank (conf.pin role))).2) := by
  have hreached : reachedRoles faults conf bank (role :: roles) = [role] := by
    rw [reachedRoles, if_neg hopens]
  refine ⟨?_, ?_, ?_⟩
  · exact (if_neg fun hall => hopens (hall role List.mem_cons_self)).symm
  · rw [hreached]
    rintro role' hrole'
    obtain rfl := List.mem_singleton.mp hrole'
    exact Function.update_self ..
  · rw [hreached]
    intro pin hpin
    exact Function.update_of_ne (hpin role List.mem_cons_self).symm _ _

/-- The first role is gotten through: the others find their pins as they were. -/
theorem cons {result : Int × PinBank} (hopens : Opens faults conf bank role)
    (hothers : ∀ role' ∈ roles, conf.pin role' ≠ conf.pin role)
    (houtcome : RolesOutcome faults conf (Function.update bank (conf.pin role)
      (setUp faults conf role (bank (conf.pin role))).2) roles result) :
    RolesOutcome faults conf bank (role :: roles) result := by
  obtain ⟨hstatus, hreached, hrest⟩ := houtcome
  rw [reachedRoles_update faults conf bank role _ roles hothers] at hreached hrest
  have hcons : reachedRoles faults conf bank (role :: roles) =
      role :: reachedRoles faults conf bank roles := by
    rw [reachedRoles, if_pos hopens]
  refine ⟨?_, ?_, ?_⟩
  · rw [hstatus]
    refine if_congr ?_ rfl rfl
    rw [List.forall_mem_cons, and_iff_right hopens]
    exact forall₂_congr fun role' hrole' =>
      opens_update_iff faults conf bank (hothers role' hrole') _
  · rw [hcons]
    rintro role' hrole'
    rcases List.mem_cons.mp hrole' with rfl | hlater
    · rw [hrest _ fun other hother =>
        hothers other (mem_of_mem_reachedRoles faults conf hother)]
      exact Function.update_self ..
    · rw [hreached role' hlater, Function.update_of_ne
        (hothers role' (mem_of_mem_reachedRoles faults conf hlater))]
  · rw [hcons]
    intro pin hpin
    rw [hrest pin fun other hother => hpin other (List.mem_cons_of_mem _ hother)]
    exact Function.update_of_ne (hpin role List.mem_cons_self).symm _ _

end RolesOutcome

theorem runOps_flatMap (hdistinct : Function.Injective conf.pin) {roles : List Role}
    (hnodup : roles.Nodup) (bank : PinBank) :
    RolesOutcome faults conf bank roles
      (runOps (.withFaults faults) (roles.flatMap (initOps conf)) bank) := by
  induction roles generalizing bank with
  | nil => exact ⟨rfl, fun _ hmem => absurd hmem List.not_mem_nil, fun _ _ => rfl⟩
  | cons role roles ih =>
      obtain ⟨hfresh, hnodup⟩ := List.nodup_cons.mp hnodup
      have hothers : ∀ role' ∈ roles, conf.pin role' ≠ conf.pin role := by
        intro role' hrole' hpin
        exact hfresh (hdistinct hpin ▸ hrole')
      rw [List.flatMap_cons, runOps_append, orReturn, runOps_initOps]
      by_cases hopens : Opens faults conf bank role
      · have hsuccess : gpioSuccess ≠ gpioError := by decide
        rw [if_pos hopens]
        dsimp only
        rw [if_neg hsuccess]
        exact (ih hnodup _).cons hopens hothers
      · rw [if_neg hopens, if_pos rfl]
        exact .stop hopens

theorem mem_cleanupOrder (role : Role) : role ∈ cleanupOrder := by
  cases role <;> decide

theorem gpioInit_outcome (hdistinct : Function.Injective conf.pin) (bank : PinBank) :
    RolesOutcome faults conf bank cleanupOrder (gpioInit (.withFaults faults) conf bank) := by
  rw [gpioInit, gpioInitOps_eq]
  exact runOps_flatMap faults conf hdistinct (by decide) bank

/-- An outcome keeps what pins are exported unless one that is gotten to is newly exported. -/
theorem RolesOutcome.exported_eq_iff {bank : PinBank} {roles : List Role} {result : Int × PinBank}
    (houtcome : RolesOutcome faults conf bank roles result) :
    (∀ pin, (result.2 pin).exported = (bank pin).exported) ↔
      ∀ role ∈ reachedRoles faults conf bank roles, ¬ NewlyExports faults conf bank role := by
  have hexported : ∀ role ∈ reachedRoles faults conf bank roles,
      ((result.2 (conf.pin role)).exported = (bank (conf.pin role)).exported ↔
        ¬ NewlyExports faults conf bank role) := by
    intro role hrole
    rw [houtcome.reached role hrole, setUp_exported, NewlyExports]
    cases (bank (conf.pin role)).exported <;> simp
  constructor
  · intro hsame role hrole
    exact (hexported role hrole).mp (hsame _)
  · intro hnone pin
    by_cases hpin : ∃ role ∈ reachedRoles faults conf bank roles, conf.pin role = pin
    · obtain ⟨role, hrole, rfl⟩ := hpin
      exact (hexported role hrole).mpr (hnone role hrole)
    · push Not at hpin
      rw [houtcome.rest pin hpin]

/-- `gpio_init` keeps its promise if, where it can open every file, every text arrives that is
needed, and where it cannot, it has exported no pin yet. Pins of no role it never touches. -/
theorem gpioInit_truthful_iff (hdistinct : Function.Injective conf.pin) (bank : PinBank) :
    InitTruthful faults conf bank ↔
      ((∀ role, Opens faults conf bank role) → ∀ role, Arrives faults conf bank role) ∧
      ((∃ role, ¬ Opens faults conf bank role) →
        ∀ role ∈ reachedRoles faults conf bank cleanupOrder,
          ¬ NewlyExports faults conf bank role) := by
  have houtcome := gpioInit_outcome faults conf hdistinct bank
  have hothers : ∀ pin, (∀ role, conf.pin role ≠ pin) →
      (gpioInit (.withFaults faults) conf bank).2 pin = bank pin :=
    fun pin hpin => houtcome.rest pin fun role _ => hpin role
  have hall : (∀ role ∈ cleanupOrder, Opens faults conf bank role) ↔
      ∀ role, Opens faults conf bank role :=
    ⟨fun hopens role => hopens role (mem_cleanupOrder role), fun hopens role _ => hopens role⟩
  have hstatus := houtcome.status
  by_cases hopens : ∀ role, Opens faults conf bank role
  · rw [if_pos (hall.mpr hopens)] at hstatus
    have hsetUp : ∀ role, ((gpioInit (.withFaults faults) conf bank).2 (conf.pin role)).SetUp role ↔
        Arrives faults conf bank role := by
      intro role
      have hreached : role ∈ reachedRoles faults conf bank cleanupOrder := by
        rw [reachedRoles_of_opens faults conf (hall.mpr hopens)]
        exact mem_cleanupOrder role
      rw [houtcome.reached role hreached, setUp_setUp_iff faults conf (hopens role)]
    have hnone : ¬ ∃ role, ¬ Opens faults conf bank role := fun ⟨role, hrole⟩ => hrole (hopens role)
    constructor
    · intro htruthful
      exact ⟨fun _ role => (hsetUp role).mp (htruthful.success hstatus role),
        fun hfails => absurd hfails hnone⟩
    · rintro ⟨harrives, -⟩
      refine ⟨fun _ role => (hsetUp role).mpr (harrives hopens role), fun herror => ?_, hothers⟩
      rw [hstatus] at herror
      exact absurd herror (by decide)
  · rw [if_neg (mt hall.mp hopens)] at hstatus
    have hexported := houtcome.exported_eq_iff
    constructor
    · intro htruthful
      exact ⟨fun hall => absurd hall hopens, fun _ => hexported.mp (htruthful.error hstatus)⟩
    · rintro ⟨-, hnone⟩
      push Not at hopens
      refine ⟨fun hsuccess => ?_, fun _ => hexported.mpr (hnone hopens), hothers⟩
      rw [hstatus] at hsuccess
      exact absurd hsuccess (by decide)

end Roles

/-- Pins after the board is switched on: low inputs, none of them exported. -/
def PinBank.poweredOn : PinBank := fun _ => ⟨false, false, false⟩

theorem pin_shipped_injective : Function.Injective Config.shipped.pin := by
  intro role role'
  cases role <;> cases role' <;> decide

theorem gpioInit_truthful_shipped :
    InitTruthful (fun _ _ => .accepted) .shipped .poweredOn := by
  refine (gpioInit_truthful_iff (fun _ _ => .accepted) .shipped pin_shipped_injective
    .poweredOn).mpr ⟨fun _ _ => ⟨.inl rfl, fun _ => .inl rfl⟩, ?_⟩
  rintro ⟨role, hcloses⟩
  exact absurd ⟨nofun, .inr rfl, nofun, fun _ => nofun⟩ hcloses

/-- The kernel refuses the direction of UD_B: the pin stays an input, and the call succeeds. The
direction of D2_B cannot be opened: the call fails, and OFF stays exported. -/
theorem refused_direction_unnoticed :
    ¬ InitTruthful (fun file _ => if file = .direction 16 then .refused else .accepted) .shipped
        .poweredOn ∧
      ¬ InitTruthful (fun file _ => if file = .direction 26 then .cannotOpen else .accepted)
        .shipped .poweredOn := by
  constructor
  · intro htruthful
    have hud := (htruthful.success (by decide +kernel) .udB).direction
    exact absurd hud (by decide +kernel)
  · intro htruthful
    have hoff := htruthful.error (by decide +kernel) 12
    exact absurd hoff (by decide +kernel)

end Rocpmd

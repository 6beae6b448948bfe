import Rocpmd.Daemon.OffRequests
import Rocpmd.Daemon.World
import Rocpmd.Gpio.Cleanup
import Rocpmd.Gpio.DrivenLevels

/-!
# The pins over a session

A session is `gpio_init`, a run of the daemon and `gpio_cleanup`. Whatever files are missing and
whatever texts they refuse, it stays with the pins of the configuration, and the run in between only
drives levels.
-/

namespace Rocpmd

open Call Foundation

/-! ## What the loop does to pins -/

/-- No pin has been exported, given back or turned round, and the level has changed only of outputs
that the loop drives: UD_B and CS_B, and OFF once that is allowed. -/
structure PinBank.DrivenFrom (conf : Config) (off : Prop) (before after : PinBank) : Prop where
  exported : ∀ pin, (after pin).exported = (before pin).exported
  isOutput : ∀ pin, (after pin).isOutput = (before pin).isOutput
  level : ∀ pin, (after pin).level ≠ (before pin).level →
    (before pin).exported = true ∧ (before pin).isOutput = true ∧
      (pin = conf.pin .udB ∨ pin = conf.pin .csB ∨ pin = conf.pin .off ∧ off)

namespace PinBank.DrivenFrom

variable {conf : Config} {off : Prop} {before middle after : PinBank}

theorem refl (bank : PinBank) : DrivenFrom conf off bank bank where
  exported _ := rfl
  isOutput _ := rfl
  level _ hne := absurd rfl hne

theorem trans (hfirst : DrivenFrom conf off before middle)
    (hsecond : DrivenFrom conf off middle after) : DrivenFrom conf off before after where
  exported pin := (hsecond.exported pin).trans (hfirst.exported pin)
  isOutput pin := (hsecond.isOutput pin).trans (hfirst.isOutput pin)
  level pin hne := by
    by_cases hmiddle : (middle pin).level = (before pin).level
    · rw [← hfirst.exported pin, ← hfirst.isOutput pin]
      exact hsecond.level pin (by rwa [hmiddle])
    · exact hfirst.level pin hmiddle

theorem mono {off' : Prop} (himp : off → off') (hdriven : DrivenFrom conf off before after) :
    DrivenFrom conf off' before after where
  exported := hdriven.exported
  isOutput := hdriven.isOutput
  level pin hne := by
    obtain ⟨hexported, houtput, hpin⟩ := hdriven.level pin hne
    exact ⟨hexported, houtput, hpin.imp_right (Or.imp_right (And.imp_right himp))⟩

/-- A text written to the level of a pin. -/
theorem write (faults : GpioFile → String → Access) {pin : Int}
    (hpin : pin = conf.pin .udB ∨ pin = conf.pin .csB ∨ pin = conf.pin .off ∧ off) (text : String)
    (bank : PinBank) :
    DrivenFrom conf off bank ((Sysfs.withFaults faults).write (.value pin) text bank).2 := by
  rw [write_withFaults]
  dsimp only
  split
  next harrived =>
    obtain ⟨-, hexported⟩ := harrived
    refine ⟨?_, ?_, ?_⟩ <;> intro other <;> by_cases hother : other = pin
    · subst hother
      rw [take, Function.update_self]
      split <;> rfl
    · rw [take, Function.update_of_ne hother]
    · subst hother
      rw [take, Function.update_self]
      split <;> rfl
    · rw [take, Function.update_of_ne hother]
    · subst hother
      rw [take, Function.update_self]
      split
      next houtput => exact fun _ => ⟨hexported, houtput, hpin⟩
      next => exact fun hne => absurd rfl hne
    · rw [take, Function.update_of_ne hother]
      exact fun hne => absurd rfl hne
  next => exact refl bank

/-- Pins of no role are as they were. -/
theorem eqOn (hdriven : DrivenFrom conf off before after) :
    Set.EqOn after before (Set.range conf.pin)ᶜ := by
  intro pin hpin
  have hlevel : (after pin).level = (before pin).level := by
    by_contra hne
    obtain ⟨-, -, rfl | rfl | ⟨rfl, -⟩⟩ := hdriven.level pin hne <;> exact hpin ⟨_, rfl⟩
  have hexported := hdriven.exported pin
  have houtput := hdriven.isOutput pin
  cases hafter : after pin
  cases hbefore : before pin
  simp_all

end PinBank.DrivenFrom

section Loop

variable {W : Type} {setup : Setup W} {d next : Daemon W} {event : DaemonEvent}
  {R : W → W → Prop}

theorem Sysfs.MeasurementKeeps.pulseOff {fs : Sysfs W} {conf : Config}
    (hkeeps : fs.MeasurementKeeps conf R)
    (hoff : ∀ text w, R w (fs.write (.value (conf.pin .off)) text w).2) (n : ℕ) :
    (pulseOff fs (conf.pin .off) n).Keeps R := by
  induction n with
  | zero => exact hkeeps.refl
  | succ n ih =>
      apply hkeeps.orReturn (digitalWrite_keeps hoff _)
      intro _ _
      apply hkeeps.delay
      apply hkeeps.orReturn (digitalWrite_keeps hoff _)
      intro _ _
      exact hkeeps.delay _ ih

theorem Sysfs.MeasurementKeeps.files (hkeeps : setup.fs.MeasurementKeeps setup.conf R)
    (descriptors : Finset ℕ) : (setup.files descriptors).MeasurementKeeps setup.conf R := by
  unfold Setup.files
  split
  next => exact hkeeps.shut
  next => exact hkeeps

/-- What the accesses of a measurement keep, a step keeps; the writes of OFF count once the flag is
set. -/
theorem Daemon.Step.worldKeeps (hstep : Daemon.Step setup d event next)
    (hkeeps : setup.fs.MeasurementKeeps setup.conf R)
    (hoff : d.ud.powerOffFlag = true →
      ∀ text w, R w (setup.fs.write (.value (setup.conf.pin .off)) text w).2) :
    R d.world next.world := by
  have hfiles := hkeeps.files d.descriptors
  have hpoll : (gpioReadReqOff (setup.files d.descriptors) setup.conf).Keeps R :=
    hfiles.orReturn (hfiles.digitalRead _) fun _ _ => hfiles.refl
  have hpolled : R d.world (d.polledWorld setup) :=
    hfiles.trans _ _ _ (hfiles.usleep _ _) (hpoll _)
  cases hstep.worldStep with
  | polls _ _ _ _ hworld => rw [hworld]; exact hpolled
  | measures _ _ _ _ _ hworld =>
      rw [hworld]
      exact hkeeps.trans _ _ _ hpolled (hfiles.gpioReadBatteryLevelRaw _)
  | writesOff _ hflag hworld =>
      rw [hworld]
      refine hfiles.pulseOff (fun text w => ?_) 3 d.world
      unfold Setup.files
      split
      next => exact hkeeps.refl w
      next => exact hoff hflag text w
  | leaves hworld => rw [hworld]; exact hkeeps.refl _

end Loop

/-! ## What gpio_init does to pins -/

section Init

variable (faults : GpioFile → String → Access) (conf : Config)

/-- The pins of the roles are the only ones touched, none is given back, and after a success all of
them are exported. Roles may share a pin. -/
structure Exports (roles : List Role) (bank : PinBank) (result : Int × PinBank) : Prop where
  others : Set.EqOn result.2 bank (Set.range conf.pin)ᶜ
  keeps : ∀ pin, (bank pin).exported = true → (result.2 pin).exported = true
  success : result.1 = gpioSuccess → ∀ role ∈ roles, (result.2 (conf.pin role)).exported = true

theorem runOps_exports (roles : List Role) (bank : PinBank) :
    Exports conf roles bank
      (runOps (.withFaults faults) (roles.flatMap (initOps conf)) bank) := by
  induction roles generalizing bank with
  | nil => exact ⟨fun _ _ => rfl, fun _ hexported => hexported, fun _ _ hrole => nomatch hrole⟩
  | cons role roles ih =>
      have hfirst := runOps_initOps faults conf bank role
      have hothers : Set.EqOn (Function.update bank (conf.pin role)
          (setUp faults conf role (bank (conf.pin role))).2) bank (Set.range conf.pin)ᶜ :=
        fun pin hpin => Function.update_of_ne (fun heq => hpin ⟨role, heq.symm⟩) _ _
      have hkeeps : ∀ pin, (bank pin).exported = true →
          (Function.update bank (conf.pin role)
            (setUp faults conf role (bank (conf.pin role))).2 pin).exported = true := by
        intro pin hexported
        by_cases hpin : pin = conf.pin role
        · subst hpin
          rw [Function.update_self, setUp_exported, hexported, Bool.true_or]
        · rwa [Function.update_of_ne hpin]
      rw [List.flatMap_cons, runOps_append]
      by_cases hopens : Opens faults conf bank role
      · rw [if_pos hopens] at hfirst
        rw [orReturn_of_ne hfirst (by decide)]
        have hrest := ih (Function.update bank (conf.pin role)
          (setUp faults conf role (bank (conf.pin role))).2)
        refine ⟨hrest.others.trans hothers, fun pin h => hrest.keeps pin (hkeeps pin h), ?_⟩
        intro hsuccess other hother
        rcases List.mem_cons.mp hother with rfl | hlater
        · apply hrest.keeps
          rw [Function.update_self, setUp_exported, Bool.or_eq_true, decide_eq_true_iff]
          exact hopens.2.1
        · exact hrest.success hsuccess other hlater
      · rw [if_neg hopens] at hfirst
        rw [orReturn_of_error hfirst]
        exact ⟨hothers, hkeeps, nofun⟩

theorem gpioInit_exports (bank : PinBank) :
    Exports conf cleanupOrder bank (gpioInit (.withFaults faults) conf bank) := by
  rw [gpioInit, gpioInitOps_eq]
  exact runOps_exports faults conf cleanupOrder bank

end Init

/-! ## Sessions -/

section Session

variable (faults : GpioFile → String → Access) (conf : Config)

theorem PinBank.DrivenFrom.measurementKeeps (off : Prop) :
    (Sysfs.withFaults faults).MeasurementKeeps conf (PinBank.DrivenFrom conf off) where
  refl := .refl
  trans _ _ _ := .trans
  read file bank := by
    cases file with
    | value pin =>
        simp only [Sysfs.withFaults]
        split <;> exact .refl _
    | exportFile | unexportFile | direction => exact .refl _
  usleep _ := .refl
  writeUd := .write faults (.inl rfl)
  writeCs := .write faults (.inr (.inl rfl))

/-- What a run does to the pins, from any pins on. -/
theorem drivenFrom_of_reachable (limits : Limits) (bank : PinBank) (lastRead : Timeval)
    (log : Option Logger) (net : Network) (descriptors : Finset ℕ) {d : Daemon PinBank}
    (hreach : (daemonMachine ⟨.withFaults faults, conf, limits⟩).Reachable
      (Daemon.start ⟨.withFaults faults, conf, limits⟩ bank lastRead log net descriptors)
      d) :
    PinBank.DrivenFrom conf d.history.OffReceived bank d.world := by
  have hkeeps := PinBank.DrivenFrom.measurementKeeps faults conf
  have hboth : FlagInvariant d ∧ PinBank.DrivenFrom conf d.history.OffReceived bank d.world := by
    apply hreach.invariant
    · have hfiles (off : Prop) := @Sysfs.MeasurementKeeps.files _
        ⟨.withFaults faults, conf, limits⟩ _ (hkeeps off) descriptors
      exact ⟨Daemon.flagInvariant_start .., (hfiles _).gpioReadBatteryLevelRaw bank⟩
    · rintro d event next ⟨hflag, hdriven⟩ - hnext
      have hstep := Daemon.Step.of_step hnext
      have hstays : d.history.OffReceived → next.history.OffReceived := hstep.offReceived
      refine ⟨hstep.flagInvariant hflag, (hdriven.mono hstays).trans ?_⟩
      refine hstep.worldKeeps (hkeeps _) fun hset => ?_
      exact .write faults (.inr (.inr ⟨rfl, hstays (hflag.received_of_flag hset)⟩))
  exact hboth.2

variable (bank : PinBank)

/-- A session, given the pins it starts with and those the daemon is interrupted with. -/
structure SessionConfined (off : Prop) (running : PinBank) : Prop where
  /-- The daemon drives UD_B and CS_B, and OFF once that is allowed. -/
  driven : PinBank.DrivenFrom conf off (gpioInit (.withFaults faults) conf bank).2 running
  /-- The files it needs stay there. -/
  exported : ∀ role, (running (conf.pin role)).exported = true
  /-- Pins of others come out as they went in. -/
  others : Set.EqOn (gpioCleanup (.withFaults faults) conf running).2 bank (Set.range conf.pin)ᶜ
  /-- Its own pins are given back if every number that `gpio_cleanup` writes arrives. -/
  returned : (∀ role, ((gpioCleanup (.withFaults faults) conf running).2
      (conf.pin role)).exported = false) ↔ ∀ role, unexportAccess faults conf role = .accepted

/-- **A session stays with its pins.** Files may be missing and may refuse any text, and clients do
what they like: between a `gpio_init` that reported success and `gpio_cleanup`, no pin is exported,
given back or turned round, and no level changes but those of UD_B and CS_B, and of OFF after
something was received on the off socket. -/
theorem session_confined (limits : Limits) (lastRead : Timeval) (log : Option Logger)
    (net : Network) (descriptors : Finset ℕ)
    (hinit : (gpioInit (.withFaults faults) conf bank).1 = gpioSuccess) {d : Daemon PinBank}
    (hreach : (daemonMachine ⟨.withFaults faults, conf, limits⟩).Reachable
      (Daemon.start ⟨.withFaults faults, conf, limits⟩
        (gpioInit (.withFaults faults) conf bank).2 lastRead log net descriptors) d) :
    SessionConfined faults conf bank d.history.OffReceived d.world := by
  have hexports := gpioInit_exports faults conf bank
  have hdriven := drivenFrom_of_reachable faults conf limits _ lastRead log net descriptors
    hreach
  have hrunning : ∀ role, (d.world (conf.pin role)).exported = true := by
    intro role
    rw [hdriven.exported]
    exact hexports.success hinit role (mem_cleanupOrder role)
  refine ⟨hdriven, hrunning, ?_, ?_⟩
  · exact (gpioCleanup_eqOn faults conf d.world).trans (hdriven.eqOn.trans hexports.others)
  · rw [← forall_mem_returnedPins_iff, gpioCleanup_pins]
    refine forall_congr' fun role => ?_
    simp [PinBank.without, hrunning role]

end Session

/-- Pins with their pull-ups, none of them exported. -/
def PinBank.pulledUp : PinBank := fun _ => ⟨false, false, true⟩

/-- The low level of OFF and the return of D2_B are refused. -/
def refusedTexts (file : GpioFile) (text : String) : Access :=
  if file = .value 12 ∧ text = "0" ∨ file = .unexportFile ∧ text = "26" then .refused
  else .accepted

theorem session_confined_refused : ∃ d : Daemon PinBank,
    (daemonMachine ⟨.withFaults refusedTexts, .shipped, .usual⟩).run
        (Daemon.start ⟨.withFaults refusedTexts, .shipped, .usual⟩
          (gpioInit (.withFaults refusedTexts) .shipped .pulledUp).2 ⟨0, 0⟩ none .empty {})
        [.connect .off, .send 0 [1, 0, 0, 0], .iterate ⟨1, 0⟩ "" 4096, .select true, .accept true,
          .read 4 true, .serve true, .close 0, .read 4 true, .checkOff] = some d ∧
      (d.world 12).level = true ∧
      SessionConfined refusedTexts .shipped .pulledUp d.history.OffReceived d.world := by
  have hrun : ∃ d ∈ (daemonMachine ⟨.withFaults refusedTexts, .shipped, .usual⟩).run
      (Daemon.start ⟨.withFaults refusedTexts, .shipped, .usual⟩
        (gpioInit (.withFaults refusedTexts) .shipped .pulledUp).2 ⟨0, 0⟩ none .empty {})
      [.connect .off, .send 0 [1, 0, 0, 0], .iterate ⟨1, 0⟩ "" 4096, .select true, .accept true,
        .read 4 true, .serve true, .close 0, .read 4 true, .checkOff],
      (d.world 12).level = true := by decide +kernel
  obtain ⟨d, hd, hlevel⟩ := hrun
  exact ⟨d, hd, hlevel, session_confined refusedTexts .shipped .pulledUp .usual ⟨0, 0⟩ none
    .empty {} (by decide +kernel) (.of_run hd)⟩

end Rocpmd

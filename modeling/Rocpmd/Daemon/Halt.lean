import Rocpmd.Daemon.Step

/-!
# What makes the daemon shut the system down

The loop takes every result of the button poll but zero for a request to halt, and the poll answers
zero in one case only. Of the battery readings, the one that halts is a zero percent.
-/

namespace Rocpmd

open Foundation

variable {W : Type}

theorem mapBatteryLevel_eq_zero_iff (conf : Config) (raw : Int) :
    mapBatteryLevel conf raw = 0 ↔ 0 ≤ raw ∧
      (conf.powermap[raw.toNat]? = some 0 ∨
        conf.getPowermapSize ≤ raw.toNat ∧ conf.pastPowermap raw.toNat = 0) := by
  unfold mapBatteryLevel
  split
  next hraw =>
    rcases Nat.lt_or_ge raw.toNat conf.getPowermapSize with hlt | hge
    · rw [conf.getPowermapElementAt_of_lt hlt]
      have hnot := Nat.not_le.mpr hlt
      simp [hnot, hraw]
    · rw [conf.getPowermapElementAt_of_le hge, List.getElem?_eq_none hge]
      simp [hge, hraw]
  next hraw =>
    refine iff_of_false (by decide) fun h => hraw h.1

/-! ## Readings of an iteration -/

section Readings

variable (setup : Setup W) (d : Daemon W)

/-- What the file of REQ_OFF_B answers in the iteration that starts in this state. -/
def reqOffOutcome : ReadOutcome :=
  let files := setup.files d.descriptors
  (files.read (.value (setup.conf.pin .reqOffB)) (files.usleep 100000 d.world)).1

/-- What a battery measurement of the iteration finds, if it gets to one. -/
def levelReading : Int :=
  let files := setup.files d.descriptors
  let polled := (gpioReadReqOff files setup.conf (files.usleep 100000 d.world)).2
  (gpioReadBatteryLevelRaw files setup.conf polled).1

def intervalExpired (now : Timeval) : Bool :=
  (batteryLevelReadIntervalExpired setup.conf d.lastRead now).1

/-- The button answers, and no reading finds a zero in the memory behind the powermap. -/
def PollAnswers (d : Daemon W) : DaemonEvent → Prop
  | .iterate now _ _ =>
      reqOffOutcome setup d = .opened "0" ∨
      reqOffOutcome setup d = .opened "1" ∧
        (intervalExpired setup d now = true → 0 ≤ levelReading setup d →
          setup.conf.getPowermapSize ≤ (levelReading setup d).toNat →
          setup.conf.pastPowermap (levelReading setup d).toNat ≠ 0)
  | _ => True

end Readings

/-- A powermap with an entry for every level leaves only the button to answer. -/
theorem pollAnswers_iff_of_full {setup : Setup W} (hfull : 64 ≤ setup.conf.getPowermapSize)
    (d : Daemon W) (now : Timeval) (stamp : String) (room : ℕ) :
    PollAnswers setup d (.iterate now stamp room) ↔
      reqOffOutcome setup d = .opened "0" ∨ reqOffOutcome setup d = .opened "1" := by
  have hlevel : levelReading setup d ≤ 63 := gpioReadBatteryLevelRaw_le _ _ _
  have hinside : ¬ setup.conf.getPowermapSize ≤ (levelReading setup d).toNat := by omega
  simp [PollAnswers, hinside]

/-- What justifies a shutdown: in the same iteration the button was read as asserted, or the
measurement succeeded with a level that the powermap maps to zero percent. -/
def HaltSound (conf : Config) (d : Daemon W) : Prop :=
  d.pc = .halted →
    d.history.reqOff = some (.opened "0") ∨
    ∃ raw : Int, d.history.measured = some raw ∧ raw ≠ gpioError ∧ 0 ≤ raw ∧
      conf.powermap[raw.toNat]? = some 0

namespace Daemon

variable {setup : Setup W}

/-- The iteration made no measurement. -/
structure KeepsReading (d next : Daemon W) : Prop where
  measured : next.history.measured = none
  lastReading : next.history.lastReading = d.history.lastReading
  lastRead : next.lastRead = d.lastRead

/-- The iteration made a measurement with the result `r` and took the sample of the clock. -/
structure TakesReading (now : Timeval) (r : Int) (next : Daemon W) : Prop where
  measured : next.history.measured = some r
  lastReading : next.history.lastReading = r
  lastRead : next.lastRead = now

theorem batteryLevelReadIntervalExpired_snd {conf : Config} {lastRead now : Timeval}
    (hexpired : (batteryLevelReadIntervalExpired conf lastRead now).1 = true) :
    (batteryLevelReadIntervalExpired conf lastRead now).2 = now := by
  unfold batteryLevelReadIntervalExpired at hexpired ⊢
  dsimp only at hexpired ⊢
  split at hexpired
  next => cases hexpired
  next hlate => rw [if_neg hlate]

/-- The three ways an iteration gets to its requests or to a shutdown. -/
theorem iterate_cases (setup : Setup W) (d : Daemon W) (now : Timeval) (stamp : String)
    (room : ℕ) :
    let next := d.iterate setup now stamp room
    next.history.reqOff = some (reqOffOutcome setup d) ∧
      (reqOffOutcome setup d ≠ .opened "1" ∧ next.pc = .halted ∧ KeepsReading d next ∨
        reqOffOutcome setup d = .opened "1" ∧ intervalExpired setup d now = false ∧
          next.pc = .select ∧ KeepsReading d next ∨
        reqOffOutcome setup d = .opened "1" ∧ intervalExpired setup d now = true ∧
          TakesReading now (levelReading setup d) next ∧
          (next.pc = .halted ↔ mapBatteryLevel setup.conf (levelReading setup d) = 0)) := by
  have hpoll := readAsserted_eq_zero_iff (setup.files d.descriptors) (setup.conf.pin .reqOffB)
    ((setup.files d.descriptors).usleep 100000 d.world)
  dsimp only
  unfold iterate
  dsimp only
  split
  next hhalt => exact ⟨rfl, .inl ⟨fun h => hhalt (hpoll.mpr h), rfl, ⟨rfl, rfl, rfl⟩⟩⟩
  next hopen =>
    have hone : reqOffOutcome setup d = .opened "1" := hpoll.mp (not_not.mp hopen)
    split
    next hexpired =>
      have hnow := batteryLevelReadIntervalExpired_snd hexpired
      split
      next hzero =>
        exact ⟨rfl, .inr (.inr ⟨hone, hexpired, ⟨rfl, rfl, hnow⟩, iff_of_true rfl hzero⟩)⟩
      next hzero =>
        exact ⟨rfl, .inr (.inr ⟨hone, hexpired, ⟨rfl, rfl, hnow⟩,
          iff_of_false DaemonPc.noConfusion hzero⟩)⟩
    next hexpired =>
      exact ⟨rfl, .inr (.inl ⟨hone, Bool.eq_false_iff.mpr hexpired, rfl, ⟨rfl, rfl, rfl⟩⟩)⟩

theorem haltSound_iterate_iff (d : Daemon W) (now : Timeval) (stamp : String)
    (room : ℕ) : HaltSound setup.conf (d.iterate setup now stamp room) ↔
      PollAnswers setup d (.iterate now stamp room) := by
  obtain ⟨hreqOff, hcases⟩ := iterate_cases setup d now stamp room
  obtain ⟨hone, hpc, hkept⟩ | ⟨hone, hexpired, hpc, -⟩ | ⟨hone, hexpired, htaken, hpc⟩ := hcases
  · simp [HaltSound, PollAnswers, hpc, hreqOff, hkept.measured, hone]
  · simp [HaltSound, PollAnswers, hpc, hone, hexpired]
  · rw [mapBatteryLevel_eq_zero_iff] at hpc
    constructor
    · intro hsound
      refine .inr ⟨hone, fun _ hraw hsize hzero => ?_⟩
      obtain hbutton | ⟨raw, hraw', -, -, hlevel⟩ := hsound (hpc.mpr ⟨hraw, .inr ⟨hsize, hzero⟩⟩)
      · simp [hreqOff, hone] at hbutton
      · -- behind the powermap there is no entry that could justify the shutdown
        obtain rfl : levelReading setup d = raw :=
          Option.some.inj (htaken.measured.symm.trans hraw')
        rw [List.getElem?_eq_none hsize] at hlevel
        cases hlevel
    · rintro (hbutton | ⟨-, hmemory⟩) hhalted
      · simp [hone] at hbutton
      · obtain ⟨hraw, hlevel | ⟨hsize, hzero⟩⟩ := hpc.mp hhalted
        · refine .inr ⟨_, htaken.measured, fun herror => ?_, hraw, hlevel⟩
          rw [herror] at hraw
          cases hraw
        · exact absurd hzero (hmemory hexpired hraw hsize)

theorem haltSound_of_pc {conf : Config} {d : Daemon W} (hpc : d.pc ≠ .halted) : HaltSound conf d :=
  fun hhalted => absurd hhalted hpc

/-- One step keeps shutdowns sound exactly when the poll answers; only an iteration has a poll. -/
theorem Step.haltSound_iff {d next : Daemon W} {event : DaemonEvent}
    (hstep : Step setup d event next) (hsound : HaltSound setup.conf d) :
    HaltSound setup.conf next ↔ PollAnswers setup d event := by
  cases hstep with
  | iterate now stamp room _ => exact d.haltSound_iterate_iff now stamp room
  | select ok _ =>
      refine iff_of_true (haltSound_of_pc ?_) trivial
      rcases d.select_pc_cases ok with h | ⟨_, h, _⟩ | ⟨h, _⟩ | h <;> simp [h]
  | acceptFailed | accepted | received | checkOff =>
      exact iff_of_true (haltSound_of_pc (by simp)) trivial
  | @readEnded listener offReady _ _ _ _ =>
      refine iff_of_true (haltSound_of_pc ?_) trivial
      rcases handlerDone_cases listener offReady with ⟨_, _, h⟩ | h <;> simp [h]
  | serve ok _ =>
      refine iff_of_true (haltSound_of_pc ?_) trivial
      rw [serve_pc]
      split_ifs <;> simp
  | connect | send | receive | close => exact iff_of_true hsound trivial

/-- Nothing of the daemon is new but its side of the network. -/
structure Ended (d next : Daemon W) : Prop where
  pc : next.pc = .halted
  history : next.history = d.history
  ud : next.ud = d.ud
  descriptors : next.descriptors = d.descriptors

/-- A daemon that has called `halt_system` takes no step of its own; clients still can. -/
theorem Step.of_halted {d next : Daemon W} {event : DaemonEvent}
    (hstep : Step setup d event next) (hhalted : d.pc = .halted) : Ended d next := by
  cases hstep with
  | connect | send | receive | close => exact ⟨hhalted, rfl, rfl, rfl⟩
  | iterate _ _ _ hpc | select _ hpc | acceptFailed _ hpc | accepted hpc | readEnded _ _ hpc _
  | received hpc | serve _ hpc _ | checkOff hpc =>
      rw [hpc] at hhalted
      cases hhalted

/-- A file was opened, so there was a descriptor for it. -/
theorem free_of_opened {d : Daemon W} {text : String}
    (hopened : reqOffOutcome setup d = .opened text) :
    lowestFree setup.limits.descriptors d.descriptors ≠ none := by
  intro hfull
  rw [reqOffOutcome, Setup.files_of_full hfull] at hopened
  cases hopened

end Daemon

/-- **When shutdowns are sound.** Every shutdown in a run of the daemon is justified exactly when
in each of its iterations the button can be read, as zero or one, and no reading of the battery that
lies past the end of the powermap finds a zero there. -/
theorem haltSound_along_iff (setup : Setup W) (world : W) (lastRead : Timeval)
    (log : Option Logger) (net : Network) (descriptors : Finset ℕ) (events : List DaemonEvent) :
    (daemonMachine setup).Along (HaltSound setup.conf)
        (Daemon.start setup world lastRead log net descriptors) events ↔
      (daemonMachine setup).Meets (PollAnswers setup)
        (Daemon.start setup world lastRead log net descriptors) events :=
  Machine.along_iff_meets (fun _ => True) (fun _ _ _ _ _ => trivial)
    (fun _ _ _ _ hsound hnext => (Daemon.Step.of_step hnext).haltSound_iff hsound) trivial
    (Daemon.haltSound_of_pc DaemonPc.noConfusion) events

/-- No file of the pins can be opened. -/
def Sysfs.allMissing : Sysfs Unit where
  read := fun _ w => (.cannotOpen, w)
  write := fun _ _ w => (false, w)
  usleep := fun _ w => w

/-- The first poll of a daemon whose REQ_OFF_B cannot be read shuts the system down. -/
theorem unreadable_button_halts :
    ¬ (daemonMachine ⟨.allMissing, .shipped, .usual⟩).Along (HaltSound .shipped)
      (Daemon.start ⟨.allMissing, .shipped, .usual⟩ () ⟨0, 0⟩ none .empty {})
      [.iterate ⟨1, 0⟩ "" 4096] := by
  refine Machine.not_along_of_run ⟨_, rfl, fun hsound => ?_⟩
  obtain hbutton | ⟨_, hmeasured, -⟩ := hsound (by decide +kernel)
  · exact absurd hbutton (by decide +kernel)
  · cases hmeasured

end Rocpmd

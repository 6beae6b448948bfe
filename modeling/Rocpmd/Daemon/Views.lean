import Rocpmd.Daemon.Step
import Rocpmd.Foundation.Refinement
import Rocpmd.Gpio.Views

/-!
# The daemon on files seen through others

The daemon touches its files in an iteration and in the power off check only. On files that are seen
as others it takes the steps that it takes on the others.
-/

namespace Rocpmd

open Foundation

variable {W W' : Type}

namespace Daemon

/-- The daemon, with a view of its world in the place of the world. -/
def seenBy (view : W → W') (d : Daemon W) : Daemon W' := { d with world := view d.world }

/-! ## Iterations -/

section Iterations

variable (setup : Setup W) (d : Daemon W) (now : Timeval) (stamp : String) (room : ℕ)

/-- The daemon behind the poll of the button. -/
def polled : Daemon W :=
  let files := setup.files d.descriptors
  let awake := files.usleep 100000 d.world
  { d with
    world := (gpioReadReqOff files setup.conf awake).2
    history := { d.history with
      reqOff := some (files.read (.value (setup.conf.pin .reqOffB)) awake).1
      measured := none } }

/-- What an iteration does with a reading. -/
def haltIfEmpty : Daemon W :=
  if d.batteryLevelPercent = 0 then d.haltSystem else { d with pc := .select }

/-- What it does if the button was not pressed. -/
def readIfDue : Daemon W :=
  let expired := batteryLevelReadIntervalExpired setup.conf d.lastRead now
  if expired.1 then
    (({ d with lastRead := expired.2 }.measure setup).logReading stamp room).haltIfEmpty
  else { d with pc := .select }

theorem iterate_eq : d.iterate setup now stamp room =
    if (gpioReadReqOff (setup.files d.descriptors) setup.conf
        ((setup.files d.descriptors).usleep 100000 d.world)).1 ≠ 0 then
      (d.polled setup).haltSystem
    else (d.polled setup).readIfDue setup now stamp room := rfl

end Iterations

section Functions

variable {fs : Sysfs W} {fs' : Sysfs W'} {conf : Config} {inv : W → Prop} {view : W → W'}
  (hview : fs.View fs' conf inv view) (limits : Limits) {d : Daemon W} (hd : inv d.world)

include hview in
theorem files_seenBy (descriptors : Finset ℕ) :
    (Setup.files ⟨fs, conf, limits⟩ descriptors).View (Setup.files ⟨fs', conf, limits⟩ descriptors)
      conf inv view := by
  unfold Setup.files
  dsimp only
  split
  next => exact hview.shut
  next => exact hview

include hview hd

theorem measure_seenBy : inv (d.measure ⟨fs, conf, limits⟩).world ∧
    (d.seenBy view).measure ⟨fs', conf, limits⟩ =
      (d.measure ⟨fs, conf, limits⟩).seenBy view := by
  obtain ⟨hinv, hseen⟩ :=
    (files_seenBy hview limits d.descriptors).gpioReadBatteryLevelRaw d.world hd
  refine ⟨hinv, ?_⟩
  simp only [measure, seenBy, hseen, Prod.map, id]

theorem polled_seenBy : inv (d.polled ⟨fs, conf, limits⟩).world ∧
    (d.seenBy view).polled ⟨fs', conf, limits⟩ =
      (d.polled ⟨fs, conf, limits⟩).seenBy view := by
  have hfiles := files_seenBy hview limits d.descriptors
  obtain ⟨hawake, hslept⟩ := hfiles.usleep 100000 d.world hd
  obtain ⟨-, hread⟩ := hfiles.read .reqOffB _ hawake
  obtain ⟨hinv, hpoll⟩ := hfiles.readAsserted .reqOffB _ hawake
  refine ⟨hinv, ?_⟩
  simp only [polled, gpioReadReqOff, seenBy, hslept, hread, hpoll, Prod.map, id]

theorem readIfDue_seenBy (now : Timeval) (stamp : String) (room : ℕ) :
    inv (d.readIfDue ⟨fs, conf, limits⟩ now stamp room).world ∧
      (d.seenBy view).readIfDue ⟨fs', conf, limits⟩ now stamp room =
        (d.readIfDue ⟨fs, conf, limits⟩ now stamp room).seenBy view := by
  have hhalt : ∀ read : Daemon W, inv read.world → inv read.haltIfEmpty.world ∧
      (read.seenBy view).haltIfEmpty = read.haltIfEmpty.seenBy view := by
    intro read hread
    unfold haltIfEmpty seenBy
    dsimp only
    split <;> exact ⟨hread, rfl⟩
  have hexpires : (d.seenBy view).lastRead = d.lastRead := rfl
  unfold readIfDue
  dsimp only
  rw [hexpires]
  by_cases hexpired : (batteryLevelReadIntervalExpired conf d.lastRead now).1 = true
  · let due : Daemon W :=
      { d with lastRead := (batteryLevelReadIntervalExpired conf d.lastRead now).2 }
    obtain ⟨hinv, hmeasured⟩ := measure_seenBy hview limits (d := due) hd
    obtain ⟨hread, hseen⟩ :=
      hhalt ((due.measure ⟨fs, conf, limits⟩).logReading stamp room) hinv
    rw [if_pos hexpired, if_pos hexpired]
    exact ⟨hread, (congrArg (fun read => (read.logReading stamp room).haltIfEmpty)
      hmeasured).trans hseen⟩
  · rw [if_neg hexpired, if_neg hexpired]
    exact ⟨hd, rfl⟩

theorem iterate_seenBy (now : Timeval) (stamp : String) (room : ℕ) :
    inv (d.iterate ⟨fs, conf, limits⟩ now stamp room).world ∧
      (d.seenBy view).iterate ⟨fs', conf, limits⟩ now stamp room =
        (d.iterate ⟨fs, conf, limits⟩ now stamp room).seenBy view := by
  let files := Setup.files ⟨fs, conf, limits⟩ d.descriptors
  let files' := Setup.files ⟨fs', conf, limits⟩ d.descriptors
  have hfiles : files.View files' conf inv view := files_seenBy hview limits d.descriptors
  obtain ⟨hawake, hslept⟩ := hfiles.usleep 100000 d.world hd
  obtain ⟨-, hpoll⟩ := hfiles.readAsserted .reqOffB _ hawake
  obtain ⟨hinv, hpolled⟩ := polled_seenBy hview limits hd
  obtain ⟨hread, hdue⟩ := readIfDue_seenBy hview limits hinv now stamp room
  have hstatus : (gpioReadReqOff files' conf (files'.usleep 100000 (d.seenBy view).world)).1 =
      (gpioReadReqOff files conf (files.usleep 100000 d.world)).1 := by
    change (Rocpmd.readAsserted files' _ (files'.usleep 100000 (view d.world))).1 = _
    rw [hslept, hpoll]
    rfl
  have hdescriptors : (d.seenBy view).descriptors = d.descriptors := rfl
  rw [iterate_eq, iterate_eq, hpolled, hdue]
  dsimp only
  rw [hdescriptors, hstatus]
  split
  next => exact ⟨hinv, rfl⟩
  next => exact ⟨hread, rfl⟩

theorem checkOff_seenBy : inv (d.checkOff ⟨fs, conf, limits⟩).world ∧
    (d.seenBy view).checkOff ⟨fs', conf, limits⟩ =
      (d.checkOff ⟨fs, conf, limits⟩).seenBy view := by
  obtain ⟨hinv, hseen⟩ := (files_seenBy hview limits d.descriptors).gpioWriteOff d.world hd
  simp only [checkOff, seenBy, hseen, Prod.map]
  split
  next => exact ⟨hinv, rfl⟩
  next => exact ⟨hd, rfl⟩

end Functions

section Requests

variable (view : W → W') (d : Daemon W)

theorem select_seenBy (ok : Bool) : (d.seenBy view).select ok = (d.select ok).seenBy view := by
  unfold select seenBy
  dsimp only
  split_ifs <;> rfl

theorem accept_seenBy (setup : Setup W) (setup' : Setup W')
    (hlimits : setup'.limits = setup.limits) (listener : Listener)
    (offReady ok : Bool) : (d.seenBy view).accept setup' listener offReady ok =
      (d.accept setup listener offReady ok).map (seenBy view) := by
  unfold accept seenBy
  rw [hlimits]
  dsimp only
  split
  next => rfl
  next =>
    split
    next => rfl
    next => split <;> rfl

theorem read_seenBy (listener : Listener) (offReady : Bool) (id n : ℕ) (ok : Bool) :
    (d.seenBy view).read listener offReady id n ok =
      (d.read listener offReady id n ok).map (seenBy view) := by
  unfold read seenBy
  dsimp only
  split_ifs <;> rfl

theorem serve_seenBy (listener : Listener) (offReady : Bool) (id : ℕ) (ok : Bool) :
    (d.seenBy view).serve listener offReady id ok =
      (d.serve listener offReady id ok).seenBy view := by
  have hreply : (d.seenBy view).reply listener = d.reply listener := rfl
  unfold serve
  dsimp only
  rw [hreply]
  split
  next => cases listener <;> rfl
  next =>
    unfold seenBy
    dsimp only
    split_ifs <;> cases listener <;> rfl

end Requests

end Daemon

/-- The steps of the daemon are those of the other files. -/
theorem Sysfs.View.daemon {fs : Sysfs W} {fs' : Sysfs W'} {conf : Config} {inv : W → Prop}
    {view : W → W'} (hview : fs.View fs' conf inv view) (limits : Limits) :
    (daemonMachine ⟨fs, conf, limits⟩).View (daemonMachine ⟨fs', conf, limits⟩)
      (fun d => inv d.world) (Daemon.seenBy view) where
  step d event hd := by
    have hpc : (d.seenBy view).pc = d.pc := rfl
    simp only [daemonMachine, Daemon.step]
    -- the view does not change which function is next
    rw [hpc]
    split
    next now stamp room _ =>
      exact congrArg some (Daemon.iterate_seenBy hview limits hd now stamp room).2
    next ok _ => exact congrArg some (Daemon.select_seenBy view d ok)
    next => exact Daemon.accept_seenBy view d _ _ rfl _ _ _
    next => exact Daemon.read_seenBy view d _ _ _ _ _
    next listener _ id _ =>
      have hblocks : (d.seenBy view).WriteBlocks ⟨fs', conf, limits⟩ listener id ↔
          d.WriteBlocks ⟨fs, conf, limits⟩ listener id := Iff.rfl
      by_cases h : d.WriteBlocks ⟨fs, conf, limits⟩ listener id
      · rw [if_pos h, if_pos (hblocks.mpr h)]
        rfl
      · rw [if_neg h, if_neg (mt hblocks.mp h)]
        exact congrArg some (Daemon.serve_seenBy view d _ _ _ _)
    next => exact congrArg some (Daemon.checkOff_seenBy hview limits hd).2
    next => rfl
    next _ id bytes =>
      have hnet : (d.seenBy view).net = d.net := rfl
      rw [hnet]
      cases d.net.send id bytes <;> rfl
    next => rfl
    next => rfl
    next => rfl
  keeps d event next hd hnext := by
    cases Daemon.Step.of_step hnext with
    | iterate now stamp room =>
        exact (Daemon.iterate_seenBy hview limits hd now stamp room).1
    | checkOff => exact (Daemon.checkOff_seenBy hview limits hd).1
    | select => rw [Daemon.select_eq]; exact hd
    | serve => rw [Daemon.serve_eq]; exact hd
    | acceptFailed | accepted | readEnded | received | connect | send | receive | close =>
        exact hd

end Rocpmd

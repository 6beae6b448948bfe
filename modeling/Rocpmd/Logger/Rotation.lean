import Mathlib.Data.String.Basic
import Mathlib.Logic.Function.Basic
import Rocpmd.Foundation.Monitor
import Rocpmd.Logger

/-!
# Rotation of the log

The constructor of `logger` deletes the log before the last one, renames the last one and opens a
new one, which empties whatever has the name. It does not look at whether the deletion and the
renaming succeeded.
-/

namespace Rocpmd

open Foundation

/-! ## Files -/

inductive FileEntry
  | regular (content : String)
  | directory
  | special
deriving DecidableEq, Repr

abbrev FileSystem := String → Option FileEntry

namespace FileSystem

variable (files : FileSystem) (path : String) (ok : Bool)

/-- The system calls. Each fails where it must, and wherever else `ok` says so. -/
def access : Bool := ok && (files path).isSome

def statsRegular : Bool :=
  match files path with
  | some (.regular _) => ok
  | _ => false

def remove : FileSystem := if ok then Function.update files path none else files

/-- A file replaces anything but a directory. Directories are not renamed here. -/
def rename (newPath : String) : FileSystem :=
  match files path, files newPath with
  | none, _ => files
  | some _, some .directory => files
  | some .directory, some _ => files
  | some entry, _ =>
      if ok then Function.update (Function.update files newPath (some entry)) path none else files

/-- Open for writing: a regular file is created or emptied. -/
def openTruncating : Bool × FileSystem :=
  match files path with
  | some .directory => (false, files)
  | some .special => (ok, files)
  | _ => if ok then (true, Function.update files path (some (.regular ""))) else (false, files)

end FileSystem

/-! ## The constructor -/

/-- Whether each of the system calls of the constructor succeeds where it can. -/
structure RotationCalls where
  accessDirectory : Bool
  accessRotated : Bool
  statRotated : Bool
  removeRotated : Bool
  accessLog : Bool
  renameLog : Bool
  openLog : Bool
deriving DecidableEq, Repr

/-- The two arguments of the constructor. -/
structure LogName where
  logFilePath : String
  logFileName : String
deriving DecidableEq, Repr

namespace LogName

/-- The path of the log, with the slash that the directory may lack. -/
def path (name : LogName) : String :=
  (if name.logFilePath.toList.getLast? = some '/' then name.logFilePath
    else name.logFilePath ++ "/") ++ name.logFileName

def rotatedPath (name : LogName) : String := name.path ++ ".0"

theorem rotatedPath_ne (name : LogName) : name.rotatedPath ≠ name.path := by
  intro heq
  have hlength := congrArg String.length heq
  rw [rotatedPath, String.length_append] at hlength
  exact absurd hlength (by simp)

end LogName

namespace Logger

section Constructor

variable (name : LogName) (calls : RotationCalls) (files : FileSystem)

/-- If and only if an old rotated log file exists, and it is a regular file, delete it. -/
def removeRotated : FileSystem :=
  if files.access name.rotatedPath calls.accessRotated &&
      files.statsRegular name.rotatedPath calls.statRotated then
    files.remove name.rotatedPath calls.removeRotated
  else files

/-- If the log file from the last time exists, rename it. -/
def rotate : FileSystem :=
  if files.access name.path calls.accessLog then
    files.rename name.path calls.renameLog name.rotatedPath
  else files

/-- The constructor. False stands for the `runtime_error`. -/
def logger : Bool × FileSystem :=
  if calls.accessDirectory = false then (false, files)
  else
    (rotate name calls (removeRotated name calls files)).openTruncating name.path calls.openLog

end Constructor

/-! ## The promise -/

/-- A regular file with the content has the name. -/
def Holds (files : FileSystem) (path content : String) : Prop :=
  files path = some (.regular content)

instance (files : FileSystem) (path content : String) : Decidable (Holds files path content) :=
  inferInstanceAs (Decidable (_ = _))

section Promise

variable (name : LogName) (calls : RotationCalls) (files : FileSystem)

/-- After a constructor that returned, the old log has the second name, the new one is empty and
nothing else has changed; after one that threw, the old log has one of the two names. -/
structure Rotates : Prop where
  kept : (logger name calls files).1 = true → ∀ content, Holds files name.path content →
    Holds (logger name calls files).2 name.rotatedPath content
  empty : (logger name calls files).1 = true → Holds (logger name calls files).2 name.path ""
  others : (logger name calls files).1 = true → ∀ path, path ≠ name.path →
    path ≠ name.rotatedPath → (logger name calls files).2 path = files path
  thrown : (logger name calls files).1 = false → ∀ content, Holds files name.path content →
    Holds (logger name calls files).2 name.path content ∨
      Holds (logger name calls files).2 name.rotatedPath content

/-- There is no log, or a regular one. -/
def LogIsRegular : Prop := files name.path = none ∨ ∃ content, Holds files name.path content

/-- The old log is renamed. -/
def Renames : Prop :=
  calls.accessLog = true ∧ calls.renameLog = true ∧ files name.rotatedPath ≠ some .directory

instance : Decidable (Renames name calls files) := inferInstanceAs (Decidable (_ ∧ _))

/-- A regular file with the second name is deleted. -/
def Removes : Prop :=
  calls.accessRotated = true ∧ calls.statRotated = true ∧ calls.removeRotated = true

instance : Decidable (Removes calls) := inferInstanceAs (Decidable (_ ∧ _))

/-- There is nothing to lose, the constructor throws, the old log is renamed, or the second name
stays with a file that happens to be equal to it. -/
def KeepsLog : Prop :=
  files name.path = none ∨ calls.accessDirectory = false ∨ calls.openLog = false ∨
    Renames name calls files ∨ files name.rotatedPath = files name.path ∧ ¬ Removes calls

instance : Decidable (KeepsLog name calls files) :=
  inferInstanceAs (Decidable (_ ∨ _ ∨ _ ∨ _ ∨ _ ∧ ¬ _))

end Promise

/-! ## One call -/

section Call

variable {name : LogName} {calls : RotationCalls} {files : FileSystem}

theorem removeRotated_of_ne {path : String} (hne : path ≠ name.rotatedPath) :
    removeRotated name calls files path = files path := by
  unfold removeRotated FileSystem.remove
  split_ifs
  · exact Function.update_of_ne hne _ _
  · rfl
  · rfl

/-- A regular file is deleted if the calls for it succeed, and anything else stays. -/
theorem removeRotated_cases (name : LogName) (calls : RotationCalls) (files : FileSystem) :
    removeRotated name calls files name.rotatedPath = none ∧ Removes calls ∧
        (∃ content, Holds files name.rotatedPath content) ∨
      removeRotated name calls files name.rotatedPath = files name.rotatedPath ∧
        ¬ (Removes calls ∧ ∃ content, Holds files name.rotatedPath content) := by
  unfold removeRotated FileSystem.access FileSystem.statsRegular FileSystem.remove Removes Holds
  cases hentry : files name.rotatedPath with
  | none => simp [hentry]
  | some entry =>
      cases entry with
      | directory | special => simp [hentry]
      | regular content =>
          cases calls.accessRotated <;> cases calls.statRotated <;> cases calls.removeRotated <;>
            simp [hentry]

theorem holds_removeRotated_iff {content : String} :
    Holds (removeRotated name calls files) name.rotatedPath content ↔
      Holds files name.rotatedPath content ∧ ¬ Removes calls := by
  rcases removeRotated_cases name calls files with
    ⟨hgone, hremoves, -⟩ | ⟨hstays, hnot⟩
  · rw [Holds, hgone]
    exact iff_of_false nofun fun h => h.2 hremoves
  · rw [Holds, hstays]
    exact ⟨fun hholds => ⟨hholds, fun hremoves => hnot ⟨hremoves, content, hholds⟩⟩, And.left⟩

theorem removeRotated_directory_iff :
    removeRotated name calls files name.rotatedPath = some .directory ↔
      files name.rotatedPath = some .directory := by
  rcases removeRotated_cases name calls files with
    ⟨hgone, -, content, hholds⟩ | ⟨hstays, -⟩
  · rw [hgone, hholds]
    exact iff_of_false nofun nofun
  · rw [hstays]

/-- The log is renamed, or everything stays as it was. -/
theorem rotate_of_holds {content : String} (hlog : Holds files name.path content) :
    rotate name calls files =
      if Renames name calls files then
        Function.update (Function.update files name.rotatedPath (some (.regular content)))
          name.path none
      else files := by
  unfold rotate FileSystem.access FileSystem.rename
  rw [hlog]
  by_cases hrenames : Renames name calls files
  · rw [if_pos hrenames, hrenames.1, hrenames.2.1]
    cases hentry : files name.rotatedPath with
    | none => rfl
    | some entry =>
        cases entry with
        | directory => exact absurd hentry hrenames.2.2
        | regular | special => rfl
  · rw [if_neg hrenames]
    cases haccess : calls.accessLog with
    | false => rfl
    | true =>
        cases hrename : calls.renameLog with
        | false => cases hentry : files name.rotatedPath with
          | none => rfl
          | some entry => cases entry <;> rfl
        | true =>
            have hdirectory := not_not.mp fun hne => hrenames ⟨haccess, hrename, hne⟩
            rw [hdirectory]
            rfl

theorem openTruncating_of_regular (hlog : LogIsRegular name files) (ok : Bool) :
    files.openTruncating name.path ok =
      if ok then (true, Function.update files name.path (some (.regular "")))
      else (false, files) := by
  unfold FileSystem.openTruncating
  rcases hlog with hnone | ⟨content, hregular⟩
  · rw [hnone]
  · rw [hregular]

theorem renames_removeRotated_iff :
    Renames name calls (removeRotated name calls files) ↔ Renames name calls files := by
  unfold Renames
  rw [ne_eq, removeRotated_directory_iff]

theorem removeRotated_path : removeRotated name calls files name.path = files name.path :=
  removeRotated_of_ne name.rotatedPath_ne.symm

/-- The files after the old log has been renamed, or not. -/
def rotated (name : LogName) (calls : RotationCalls) (files : FileSystem) : FileSystem :=
  rotate name calls (removeRotated name calls files)

theorem rotated_of_holds {content : String} (hlog : Holds files name.path content) :
    rotated name calls files =
      if Renames name calls files then
        Function.update (Function.update (removeRotated name calls files) name.rotatedPath
          (some (.regular content))) name.path none
      else removeRotated name calls files := by
  have hkept : Holds (removeRotated name calls files) name.path content :=
    removeRotated_path.trans hlog
  rw [rotated, rotate_of_holds hkept]
  exact if_congr renames_removeRotated_iff rfl rfl

theorem rotated_of_none (hnone : files name.path = none) :
    rotated name calls files = removeRotated name calls files := by
  rw [rotated, rotate, FileSystem.access, removeRotated_path, hnone, Option.isSome_none,
    Bool.and_false]
  rfl

theorem rotated_of_ne {path : String} (hne : path ≠ name.path) (hne' : path ≠ name.rotatedPath)
    (hlog : LogIsRegular name files) : rotated name calls files path = files path := by
  rcases hlog with hnone | ⟨content, hholds⟩
  · rw [rotated_of_none hnone, removeRotated_of_ne hne']
  · rw [rotated_of_holds hholds]
    split
    · rw [Function.update_of_ne hne, Function.update_of_ne hne', removeRotated_of_ne hne']
    · exact removeRotated_of_ne hne'

theorem logIsRegular_rotated (hlog : LogIsRegular name files) :
    LogIsRegular name (rotated name calls files) := by
  rcases hlog with hnone | ⟨content, hholds⟩
  · exact .inl (by rw [rotated_of_none hnone, removeRotated_path, hnone])
  · rw [rotated_of_holds hholds]
    split
    · exact .inl (Function.update_self ..)
    · exact .inr ⟨content, removeRotated_path.trans hholds⟩

/-- The old log is at hand under one of the two names until the new one is opened. -/
theorem holds_rotated {content : String} (hholds : Holds files name.path content) :
    Holds (rotated name calls files) name.path content ∨
      Holds (rotated name calls files) name.rotatedPath content := by
  rw [rotated_of_holds hholds]
  split
  · right
    rw [Holds, Function.update_of_ne name.rotatedPath_ne, Function.update_self]
  · exact .inl (removeRotated_path.trans hholds)

/-- It has the second name if it was renamed, or if that name was its own already. -/
theorem holds_rotated_iff {content : String} (hholds : Holds files name.path content) :
    Holds (rotated name calls files) name.rotatedPath content ↔
      Renames name calls files ∨
        files name.rotatedPath = files name.path ∧ ¬ Removes calls := by
  rw [rotated_of_holds hholds]
  split
  next hrenames =>
    apply iff_of_true _ (.inl hrenames)
    rw [Holds, Function.update_of_ne name.rotatedPath_ne, Function.update_self]
  next hrenames =>
    rw [holds_removeRotated_iff, or_iff_right hrenames, hholds]
    rfl

/-- The constructor throws before it does anything, throws at the end, or empties the log. -/
theorem logger_eq (hlog : LogIsRegular name files) :
    logger name calls files =
      if calls.accessDirectory = false then (false, files)
      else if calls.openLog = true then
        (true, Function.update (rotated name calls files) name.path (some (.regular "")))
      else (false, rotated name calls files) := by
  rw [logger]
  split
  next => rfl
  next => exact openTruncating_of_regular (logIsRegular_rotated hlog) _

theorem logger_returned_iff (hlog : LogIsRegular name files) :
    (logger name calls files).1 = true ↔ calls.accessDirectory = true ∧ calls.openLog = true := by
  rw [logger_eq hlog]
  cases calls.accessDirectory <;> cases calls.openLog <;> simp

theorem logger_of_returned (hlog : LogIsRegular name files)
    (hreturned : (logger name calls files).1 = true) :
    (logger name calls files).2 =
      Function.update (rotated name calls files) name.path (some (.regular "")) := by
  obtain ⟨haccess, hopen⟩ := (logger_returned_iff hlog).mp hreturned
  rw [logger_eq hlog, if_neg (by simp [haccess]), if_pos hopen]

theorem logger_thrown (hlog : LogIsRegular name files)
    (hthrown : (logger name calls files).1 = false) :
    (logger name calls files).2 = files ∨
      (logger name calls files).2 = rotated name calls files := by
  rw [logger_eq hlog] at hthrown ⊢
  split_ifs with haccess hopen
  · exact .inl rfl
  · rw [if_neg haccess, if_pos hopen] at hthrown
    cases hthrown
  · exact .inr rfl

/-- After a constructor that returned, the second name holds the old log or it is lost. -/
theorem kept_iff (hlog : LogIsRegular name files)
    (hreturned : (logger name calls files).1 = true) {content : String}
    (hholds : Holds files name.path content) :
    Holds (logger name calls files).2 name.rotatedPath content ↔
      Renames name calls files ∨
        files name.rotatedPath = files name.path ∧ ¬ Removes calls := by
  rw [logger_of_returned hlog hreturned, Holds, Function.update_of_ne name.rotatedPath_ne]
  exact holds_rotated_iff hholds

/-- One call rotates the log if and only if it keeps the old one: the rest it always does. -/
theorem rotates_iff (hlog : LogIsRegular name files) :
    Rotates name calls files ↔ KeepsLog name calls files := by
  constructor
  · intro hrotates
    rcases hlog with hnone | ⟨content, hholds⟩
    · exact .inl hnone
    · have hlog : LogIsRegular name files := .inr ⟨content, hholds⟩
      by_cases hreturned : (logger name calls files).1 = true
      · have hkept := (kept_iff hlog hreturned hholds).mp (hrotates.kept hreturned content hholds)
        exact .inr (.inr (.inr hkept))
      · rw [logger_returned_iff hlog, not_and_or, Bool.not_eq_true, Bool.not_eq_true] at hreturned
        exact .inr (hreturned.imp_right .inl)
  · intro hkeeps
    refine ⟨?_, ?_, ?_, ?_⟩
    · intro hreturned content hholds
      obtain ⟨haccess, hopen⟩ := (logger_returned_iff hlog).mp hreturned
      rw [kept_iff hlog hreturned hholds]
      rcases hkeeps with hnone | hthrows | hthrows | hkept
      · rw [Holds, hnone] at hholds
        cases hholds
      · exact absurd (haccess.symm.trans hthrows) nofun
      · exact absurd (hopen.symm.trans hthrows) nofun
      · exact hkept
    · intro hreturned
      rw [logger_of_returned hlog hreturned]
      exact Function.update_self ..
    · intro hreturned path hne hne'
      rw [logger_of_returned hlog hreturned, Function.update_of_ne hne]
      exact rotated_of_ne hne hne' hlog
    · intro hthrown content hholds
      rcases logger_thrown hlog hthrown with hsame | hrotated
      · left
        rw [hsame]
        exact hholds
      · rw [hrotated]
        exact holds_rotated hholds

end Call

/-! ## Restarts -/

/-- A start of the daemon, and what its log holds when it ends. -/
structure Restart where
  calls : RotationCalls
  written : String
deriving DecidableEq, Repr

section Restarts

variable (name : LogName)

/-- A daemon whose constructor threw goes on without a log. -/
def Restart.run (restart : Restart) (files : FileSystem) : FileSystem :=
  let (returned, after) := logger name restart.calls files
  if returned then Function.update after name.path (some (.regular restart.written)) else after

def restartMachine : Machine FileSystem Restart where
  step files restart := some (restart.run name files)

/-- The log of the preceding run, if it had one. -/
def precedingLog (_ : Option String) (files : FileSystem) (restart : Restart) : Option String :=
  if (logger name restart.calls files).1 then some restart.written else none

/-- The call rotates the log, and after it the second name holds the log of the preceding run. -/
structure RotatesPreceding (s : FileSystem × Option String) (restart : Restart) : Prop where
  rotates : Rotates name restart.calls s.1
  preceding : (logger name restart.calls s.1).1 = true → ∀ log ∈ s.2,
    Holds (logger name restart.calls s.1).2 name.rotatedPath log

/-- Between restarts the log is that of the preceding run, if it had one. -/
structure BetweenRuns (s : FileSystem × Option String) : Prop where
  regular : LogIsRegular name s.1
  preceding : ∀ log ∈ s.2, Holds s.1 name.path log

variable {name}

theorem logIsRegular_run {files : FileSystem} (hlog : LogIsRegular name files)
    (restart : Restart) : LogIsRegular name (restart.run name files) := by
  unfold Restart.run
  dsimp only
  split
  next => exact .inr ⟨restart.written, Function.update_self ..⟩
  next hthrown =>
    rcases logger_thrown hlog (Bool.eq_false_iff.mpr hthrown) with hsame | hrotated
    · rw [hsame]
      exact hlog
    · rw [hrotated]
      exact logIsRegular_rotated hlog

theorem BetweenRuns.run {s : FileSystem × Option String} (hbetween : BetweenRuns name s)
    (restart : Restart) :
    BetweenRuns name (restart.run name s.1, precedingLog name s.2 s.1 restart) where
  regular := logIsRegular_run hbetween.regular restart
  preceding := by
    unfold Restart.run precedingLog
    dsimp only
    intro log hlog
    split at hlog
    next hreturned =>
      obtain rfl := Option.some.inj hlog
      rw [if_pos hreturned]
      exact Function.update_self ..
    next => cases hlog

theorem rotatesPreceding_iff {s : FileSystem × Option String} (hbetween : BetweenRuns name s)
    (restart : Restart) :
    RotatesPreceding name s restart ↔ KeepsLog name restart.calls s.1 := by
  rw [← rotates_iff hbetween.regular]
  constructor
  · exact RotatesPreceding.rotates
  · intro hrotates
    exact ⟨hrotates, fun hreturned log hlog =>
      hrotates.kept hreturned log (hbetween.preceding log hlog)⟩

end Restarts

/-- **When the last log is kept.** Over any sequence of restarts each one leaves the log it finds,
which is that of the preceding run, under the second name, exactly when each one keeps it. -/
theorem rotation_keeps_iff (name : LogName) (files : FileSystem) (hlog : LogIsRegular name files)
    (restarts : List Restart) :
    ((restartMachine name).monitored (precedingLog name)).Meets (RotatesPreceding name)
        (files, none) restarts ↔
      ((restartMachine name).monitored (precedingLog name)).Meets
        (fun s restart => KeepsLog name restart.calls s.1) (files, none) restarts := by
  apply Machine.meets_congr (BetweenRuns name)
  · intro s restart next hbetween hstep
    obtain ⟨hnext, hghost⟩ := Machine.monitored_step hstep
    obtain rfl : next = (restart.run name s.1, precedingLog name s.2 s.1 restart) :=
      Prod.ext (Option.some.inj hnext).symm hghost
    exact hbetween.run restart
  · exact fun s restart hbetween => rotatesPreceding_iff hbetween restart
  · exact ⟨hlog, nofun⟩

/-- The name of the battery level log. -/
def batteryLevelLog : LogName := ⟨"/var/log", "rocpmd-battery-level.log"⟩

/-- Three boots of a system on which nothing fails. -/
theorem rotation_keeps_three_boots :
    ((restartMachine batteryLevelLog).monitored (precedingLog batteryLevelLog)).Meets
      (RotatesPreceding batteryLevelLog) (fun _ => none, none)
      [⟨⟨true, true, true, true, true, true, true⟩, "first"⟩,
        ⟨⟨true, true, true, true, true, true, true⟩, "second"⟩,
        ⟨⟨true, true, true, true, true, true, true⟩, "third"⟩] := by
  rw [rotation_keeps_iff batteryLevelLog (fun _ => none) (.inl rfl)]
  decide +kernel

/-- The second name is taken by a directory: the log of the first boot is lost at the second. -/
theorem directory_loses_log :
    ¬ ((restartMachine batteryLevelLog).monitored (precedingLog batteryLevelLog)).Meets
      (RotatesPreceding batteryLevelLog)
      (fun path => if path = batteryLevelLog.rotatedPath then some .directory else none, none)
      [⟨⟨true, true, true, true, true, true, true⟩, "first"⟩,
        ⟨⟨true, true, true, true, true, true, true⟩, "second"⟩] := by
  intro hmeets
  obtain ⟨-, hrest⟩ := hmeets _ rfl
  obtain ⟨hrotates, -⟩ := hrest _ rfl
  have hkept := hrotates.preceding (by decide +kernel) "first" (by decide +kernel)
  exact absurd hkept (by decide +kernel)

end Logger

end Rocpmd

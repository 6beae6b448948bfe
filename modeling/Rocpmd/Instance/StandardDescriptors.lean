import Rocpmd.Daemon.OpenDescriptors
import Rocpmd.Instance.Syslog

/-!
# The standard descriptors of the daemon

`daemonize` closes descriptors 0, 1 and 2 and opens `/dev/null` on them. Whatever the daemon opens
from then on gets a higher descriptor, and what `log_and_report` writes to `cerr` goes nowhere;
unless `syslog` had taken one of the three, for it does not know that it has lost it.
-/

namespace Rocpmd

open Foundation

/-! ## daemonize -/

/-- The flags of `tdaemon.h` that decide which descriptors `daemonize` closes and opens. -/
def flagSingleton : UInt32 := 0x100
def flagCloseAllFd : UInt32 := 0x10
def flagNoFtnull : UInt32 := 0x20

/-- `fd_close`. The hard limit that `getrlimit` obtains may be `RLIM_INFINITY`, an inner `none`; it
may obtain nothing at all. -/
def fdClose (getrlimit : Option (Option ℕ)) (i : ℕ) (table : DescriptorTable OpenFile) :
    Except String (DescriptorTable OpenFile) := do
  let rlimMax ←
    if i = 0 then
      match getrlimit with
      | none => throw "Unable to obtain maximum file limit."
      | some none => pure 1024
      | some (some rlimMax) => pure rlimMax
    else pure 3
  pure ((List.range rlimMax).foldl DescriptorTable.close table)

/-- `fd_to_dev_null`. -/
def fdToDevNull (limit : ℕ) (devNullOpens : Bool) (table : DescriptorTable OpenFile) :
    DescriptorTable OpenFile :=
  let opened := if devNullOpens then table.open_ limit .devNull else table
  (opened.dupFd limit 0 1).dupFd limit 0 2

/-- `is_running` up to the test for `lock_fd < 0`: `lock_fd` and the table with it. -/
def openLockfile (limit : ℕ) (lockfileOpens : Bool) (table : DescriptorTable OpenFile) :
    Option (ℕ × DescriptorTable OpenFile) :=
  if lockfileOpens then table.allocate limit 0 .lockfile else none

/-- `daemonize` up to the test for another instance, as far as it closes and opens descriptors. -/
def daemonizeDescriptors (getrlimit : Option (Option ℕ)) (limit : ℕ) (devNullOpens : Bool)
    (flags : UInt32) (table : DescriptorTable OpenFile) :
    Except String (DescriptorTable OpenFile) := do
  let closed ←
    if flags &&& flagCloseAllFd ≠ 0 then fdClose getrlimit 0 table
    else fdClose getrlimit 3 table
  pure (if flags &&& flagNoFtnull = 0 then fdToDevNull limit devNullOpens closed else closed)

/-- The daemon is a `SINGLETON` and nothing else, so its descriptors are replaced. -/
theorem daemonizeDescriptors_singleton (getrlimit : Option (Option ℕ)) (limit : ℕ)
    (devNullOpens : Bool) (table : DescriptorTable OpenFile) :
    daemonizeDescriptors getrlimit limit devNullOpens flagSingleton table =
      (fdClose getrlimit 3 table).map (fdToDevNull limit devNullOpens) := rfl

/-- The table with `/dev/null` on the descriptors below `count`, as far as the limit allows, and
with the other standard descriptors closed. -/
def standardAttached (limit count : ℕ) (table : DescriptorTable OpenFile) :
    DescriptorTable OpenFile := fun fd =>
  if 3 ≤ fd then table fd
  else if fd < count ∧ fd < limit then some .devNull
  else none

section Attach

variable (limit : ℕ) (table : DescriptorTable OpenFile)

theorem standardAttached_succ {count : ℕ} (hcount : count < 3) :
    standardAttached limit (count + 1) table =
      if count < limit then
        Function.update (standardAttached limit count table) count (some .devNull)
      else standardAttached limit count table := by
  funext fd
  rcases eq_or_ne fd count with rfl | hne
  · by_cases hlimit : fd < limit <;> simp [standardAttached, hlimit, hcount]
  · have hiff : fd < count + 1 ↔ fd < count := by omega
    by_cases hlimit : count < limit <;> simp [standardAttached, hlimit, hne, hiff]

theorem standardAttached_free {count : ℕ} (hcount : count < 3) :
    standardAttached limit count table count = none := by
  simp [standardAttached, hcount]

/-- The bound of the loop is the 3 that `fd_close` puts in the place of the limit. -/
theorem fdClose_three (getrlimit : Option (Option ℕ)) :
    fdClose getrlimit 3 table = .ok (standardAttached limit 0 table) := by
  change Except.ok ((List.range 3).foldl DescriptorTable.close table) = _
  congr 1
  funext fd
  rw [DescriptorTable.foldl_close]
  rcases Nat.lt_or_ge fd 3 with hlow | hhigh
  · simp [standardAttached, hlow, Nat.not_le.mpr hlow]
  · simp [standardAttached, hhigh, Nat.not_lt.mpr hhigh]

/-- Each duplicate of descriptor 0 goes to the next standard descriptor. -/
theorem dupFd_standardAttached {count : ℕ} (hpos : 0 < count) (hcount : count < 3) :
    (standardAttached limit count table).dupFd limit 0 count =
      standardAttached limit (count + 1) table := by
  rw [standardAttached_succ limit table hcount]
  rcases Nat.eq_zero_or_pos limit with rfl | hlimit
  · rw [if_neg (Nat.not_lt_zero count)]
    exact DescriptorTable.dupFd_of_closed (by simp [standardAttached]) 0 count
  · have hsource : standardAttached limit count table 0 = some .devNull := by
      simp [standardAttached, hpos, hlimit]
    exact DescriptorTable.dupFd_of_free hsource (standardAttached_free limit table hcount) limit

theorem fdToDevNull_standardAttached :
    fdToDevNull limit true (standardAttached limit 0 table) = standardAttached limit 3 table := by
  have hopen : (standardAttached limit 0 table).open_ limit .devNull =
      standardAttached limit 1 table := by
    rw [standardAttached_succ limit table (by omega)]
    exact DescriptorTable.open_of_free (standardAttached_free limit table (by omega)) limit _
  rw [fdToDevNull, if_pos rfl, hopen, dupFd_standardAttached limit table (by omega) (by omega),
    dupFd_standardAttached limit table (by omega) (by omega)]

end Attach

/-! ## The calls that follow -/

/-- `daemonize`, which forgets the calls before it. Its `openlog` has no `LOG_NDELAY`, so it opens
nothing; nor does it close the connection that an earlier `syslog` has made. -/
def Descriptors.daemonize (getrlimit : Option (Option ℕ)) (limit : ℕ) (devNullOpens : Bool)
    (flags : UInt32) (d : Descriptors) : Except String Descriptors :=
  (daemonizeDescriptors getrlimit limit devNullOpens flags d.table).map fun table =>
    { d with table := table, returned := [], reported := [] }

/-- `/dev/null` on all descriptors that the process may have. -/
def devNullTable (limit : ℕ) : DescriptorTable OpenFile := fun fd =>
  if fd < limit then some .devNull else none

/-- The standard descriptors are on `/dev/null`, calls have returned others, and nothing was
reported anywhere else. -/
structure Detached (limit : ℕ) (d : Descriptors) : Prop where
  standard : ∀ fd < 3, d.table fd = devNullTable limit fd
  returned : ∀ fd ∈ d.returned, 3 ≤ fd
  reported : ∀ report ∈ d.reported, report.1 = .devNull

theorem Spared.detached {limit : ℕ} {d : Descriptors} (hd : Spared limit (devNullTable limit) d) :
    Detached limit d where
  standard := hd.standard
  returned := hd.returned
  reported report hreport := by
    have hdevNull := hd.reported report hreport
    rw [devNullTable] at hdevNull
    split_ifs at hdevNull
    exact (Option.some.inj hdevNull).symm

theorem devNullTable_ne_none (limit : ℕ) : ∀ fd < 3, fd < limit → devNullTable limit fd ≠ none := by
  intro fd _ hlimit
  simp [devNullTable, hlimit]

/-- `fd_close(3)` and `fd_to_dev_null` put `/dev/null` on descriptors 0, 1 and 2 and leave the
others as they were; and whatever the daemon does afterwards, they stay there, and the lock file
and all that it opens get higher descriptors, so that nothing of what `log_and_report` writes to
`cerr` reaches any of it. -/
def DetachesForGood (getrlimit : Option (Option ℕ)) (limit : ℕ) (d : Descriptors) : Prop :=
  ∃ after, d.daemonize getrlimit limit true flagSingleton = .ok after ∧
    (fdClose getrlimit 3 d.table).map (fdToDevNull limit true) = .ok after.table ∧
    (∀ fd < 3, fd < limit → after.table fd = some .devNull) ∧
    (∀ fd, 3 ≤ fd → after.table fd = d.table fd) ∧
    (∀ lockfileOpens lockFd next,
      openLockfile limit lockfileOpens after.table = some (lockFd, next) → 3 ≤ lockFd) ∧
    ∀ calls, (descriptorMachine limit).Along (Detached limit) after calls

section Detach

variable {limit : ℕ} {d : Descriptors}

/-- The process after `daemonize`. -/
theorem daemonize_eq (getrlimit : Option (Option ℕ)) (limit : ℕ) (d : Descriptors) :
    d.daemonize getrlimit limit true flagSingleton =
      .ok { d with table := standardAttached limit 3 d.table, returned := [], reported := [] } := by
  rw [Descriptors.daemonize, daemonizeDescriptors_singleton, fdClose_three]
  exact congrArg (fun table => Except.ok { d with table := table, returned := [], reported := [] })
    (fdToDevNull_standardAttached limit d.table)

theorem standardAttached_of_lt (limit : ℕ) (table : DescriptorTable OpenFile) {fd : ℕ}
    (hlow : fd < 3) : standardAttached limit 3 table fd = devNullTable limit fd := by
  simp [standardAttached, devNullTable, hlow, Nat.not_le.mpr hlow]

/-- The lock file is opened before any further message. -/
theorem lockfile_higher {table next : DescriptorTable OpenFile} {lockfileOpens : Bool} {lockFd : ℕ}
    (hopen : openLockfile limit lockfileOpens (standardAttached limit 3 table) =
      some (lockFd, next)) : 3 ≤ lockFd := by
  obtain ⟨-, halloc⟩ := Option.ite_none_right_eq_some.mp hopen
  obtain ⟨-, hlimit, hfree, -⟩ := DescriptorTable.allocate_spec halloc
  by_contra hlow
  rw [standardAttached_of_lt limit table (Nat.not_le.mp hlow)] at hfree
  exact devNullTable_ne_none limit lockFd (Nat.not_le.mp hlow) hlimit hfree

theorem detachesForGood_of_higher (getrlimit : Option (Option ℕ))
    (hlogFile : ∀ fd ∈ d.logFile, fd < limit → 3 ≤ fd) : DetachesForGood getrlimit limit d := by
  refine ⟨_, daemonize_eq getrlimit limit d, ?_, ?_, ?_, ?_, ?_⟩
  · rw [fdClose_three, Except.map, fdToDevNull_standardAttached]
  · intro fd hlow hlimit
    exact (standardAttached_of_lt limit d.table hlow).trans (if_pos hlimit)
  · intro fd hhigh
    exact if_pos hhigh
  · intro lockfileOpens lockFd next hopen
    exact lockfile_higher hopen
  · intro calls
    have hspared : Spared limit (devNullTable limit)
        { d with table := standardAttached limit 3 d.table, returned := [], reported := [] } := by
      refine ⟨fun fd hlow => standardAttached_of_lt limit d.table hlow, ?_, by simp, by simp⟩
      intro fd hfd
      rcases Nat.lt_or_ge fd limit with hlimit | hlimit
      · exact .inl (hlogFile fd hfd hlimit)
      · exact .inr (if_neg (Nat.not_lt.mpr hlimit))
    have hstep : ∀ s call next, Spared limit (devNullTable limit) s →
        (descriptorMachine limit).step s call = some next →
          Spared limit (devNullTable limit) next :=
      fun _ _ _ hs hnext => hs.step (devNullTable_ne_none limit) hnext
    rw [← Machine.along_congr _ hstep (fun _ hs => iff_of_true hs hs.detached) hspared,
      Machine.along_iff_start hstep]
    exact hspared

/-- `syslog` cannot send to a file that has taken its descriptor, and closes it. -/
theorem Descriptors.syslog_of_refusesSend (d : Descriptors) (limit : ℕ) {fd : ℕ}
    {file : OpenFile} (hlogFile : d.logFile = some fd) (hfile : d.table fd = some file)
    (hrefuses : file.refusesSend = true) :
    d.syslog limit ⟨true, false, true⟩ =
      { d with table := d.table.close fd, logFile := none } := by
  have hsends : d.sends true = false := by simp [sends, hlogFile, hfile, hrefuses]
  simp [syslog, hsends, closelog, openlog, hlogFile]

/-- That call gives a standard descriptor back, and the next call that opens anything gets it. -/
theorem Descriptors.not_along_of_devNull {fd : ℕ} (hlogFile : d.logFile = some fd) (hlow : fd < 3)
    (hlimit : fd < limit) (hdevNull : ∀ other ≤ fd, d.table other = some .devNull) :
    ¬ (descriptorMachine limit).Along (Detached limit) d
      [.syslog ⟨true, false, true⟩, .opens (.socket 0) true] := by
  have hcloses := d.syslog_of_refusesSend limit hlogFile (hdevNull fd le_rfl) rfl
  have halloc : (d.table.close fd).allocate limit 0 (.socket 0) =
      some (fd, Function.update (d.table.close fd) fd (some (.socket 0))) := by
    refine DescriptorTable.allocate_eq (Nat.zero_le fd) ?_ (Function.update_self ..) hlimit _
    intro lower hlower _ hfree
    have hsame : d.table.close fd lower = d.table lower := Function.update_of_ne hlower.ne _ _
    rw [hdevNull lower hlower.le] at hsame
    exact Option.some_ne_none _ (hsame.symm.trans hfree)
  have hrun : (descriptorMachine limit).run d
      [.syslog ⟨true, false, true⟩, .opens (.socket 0) true] =
        some { d with
          table := Function.update (d.table.close fd) fd (some (.socket 0))
          logFile := none
          returned := fd :: d.returned } := by
    simp [Machine.run, descriptorMachine, Descriptors.step, hcloses, Descriptors.opens, halloc]
  refine Machine.not_along_of_run ⟨_, hrun, fun hdetached => ?_⟩
  exact absurd (hdetached.returned fd List.mem_cons_self) (Nat.not_le.mpr hlow)

theorem not_detachesForGood (getrlimit : Option (Option ℕ)) {fd : ℕ}
    (hlogFile : d.logFile = some fd) (hlow : fd < 3) (hlimit : fd < limit) :
    ¬ DetachesForGood getrlimit limit d := by
  rintro ⟨after, hafter, -, -, -, -, halong⟩
  rw [daemonize_eq] at hafter
  obtain rfl := Except.ok.inj hafter
  have hdevNull : ∀ other ≤ fd, standardAttached limit 3 d.table other = some .devNull := by
    intro other hother
    exact (standardAttached_of_lt limit d.table (by omega)).trans (if_pos (by omega))
  exact Descriptors.not_along_of_devNull (d := { d with
    table := standardAttached limit 3 d.table, returned := [], reported := [] })
    hlogFile hlow hlimit hdevNull (halong _)

/-- **When the standard descriptors stay on `/dev/null`.** Exactly if `syslog` has none of them when
`daemonize` closes them. If they were open when the process was started, it has none. -/
theorem detachesForGood_iff (getrlimit : Option (Option ℕ)) (limit : ℕ) (d : Descriptors) :
    (DetachesForGood getrlimit limit d ↔ ∀ fd ∈ d.logFile, fd < limit → 3 ≤ fd) ∧
      ∀ table : DescriptorTable OpenFile, (∀ fd < 3, table fd ≠ none) →
        (descriptorMachine limit).Reachable (.start table) d →
          DetachesForGood getrlimit limit d := by
  refine ⟨⟨?_, detachesForGood_of_higher getrlimit⟩, ?_⟩
  · intro hdetaches fd hfd hlimit
    by_contra hlow
    exact not_detachesForGood getrlimit hfd (Nat.not_le.mp hlow) hlimit hdetaches
  · intro table htable hreach
    refine detachesForGood_of_higher getrlimit fun fd hfd _ => ?_
    rcases (Spared.of_reachable htable hreach).logFile fd hfd with hhigh | hnone
    · exact hhigh
    · by_contra hlow
      exact htable fd (Nat.not_le.mp hlow) hnone

end Detach

/-- The process is started with descriptors 1 and 2 only, and its first message connects
`syslog`. -/
def startedWithoutStdin : Descriptors :=
  (Descriptors.start fun fd => if fd = 1 ∨ fd = 2 then some (.other fd) else none).logAndReport 1024
    "Initializing GPIO..." "" ⟨true, true, true⟩

/-- A report of `daemon_main` while the system logger cannot be reached. -/
def unheardReport : DescriptorCall :=
  .logAndReport "a call to accept() failed: Interrupted system call" "" ⟨false, false, false⟩

/-- The lock file and the two sockets that listen, a report, and a connection of a client. -/
def loggerGone : List DescriptorCall :=
  [.opens .lockfile true, .opens (.socket 0) true, .opens (.socket 1) true, unheardReport,
    .opens (.socket 2) true]

/-- The connection of the client gets descriptor 0. -/
theorem startedWithoutStdin_not_detached :
    startedWithoutStdin.logFile = some 0 ∧
      ((startedWithoutStdin.daemonize none 1024 true flagSingleton).toOption.bind fun after =>
        (descriptorMachine 1024).run after loggerGone).map (·.returned) = some [0, 5, 4, 3] ∧
      ∀ getrlimit, ¬ DetachesForGood getrlimit 1024 startedWithoutStdin := by
  have hlogFile : startedWithoutStdin.logFile = some 0 := by decide +kernel
  refine ⟨hlogFile, by decide +kernel, fun getrlimit => ?_⟩
  exact not_detachesForGood getrlimit hlogFile (by decide) (by decide)

/-- Started without descriptor 2 and asked for a battery level, the process has not tried to write
to `cerr` yet. Its second report as a daemon gets to the client. -/
example : (((((Descriptors.start fun fd => if fd < 2 then some (.other fd) else none).syslog 1024
      ⟨true, true, true⟩).daemonize none 1024 true flagSingleton).toOption.bind fun after =>
    (descriptorMachine 1024).run after (loggerGone ++ [unheardReport])).map
        fun last => last.reported.head?) =
      some (some (.socket 2, "a call to accept() failed: Interrupted system call\n")) := by
  decide +kernel

/-! ## The connections of the daemon -/

section Connections

variable {W : Type} {setup : Setup W} {daemon next : Daemon W} {event : DaemonEvent}
  {d : Descriptors}

/-- The open descriptors of the daemon are those of the table. -/
def SameOpen (d : Descriptors) (daemon : Daemon W) : Prop :=
  ∀ fd, fd ∈ daemon.descriptors ↔ d.table fd ≠ none

/-- Only `accept` concerns the descriptors, and it is a call that opens a socket. -/
theorem Daemon.Step.descriptorCalls (hstep : Daemon.Step setup daemon event next)
    (hsame : SameOpen d daemon) :
    ∃ calls after, (descriptorMachine setup.limits.descriptors).run d calls = some after ∧
      SameOpen after next := by
  cases hstep with
  | @accepted listener offReady id rest fd hpc hbacklog hfree =>
      have hlowest := DescriptorTable.lowestFrom_zero d.table setup.limits.descriptors hsame
      refine ⟨[.opens (.socket id) true], _, rfl, ?_⟩
      intro other
      rw [Descriptors.opens, if_pos rfl, DescriptorTable.allocate, hlowest, hfree]
      change other ∈ insert fd daemon.descriptors ↔
        Function.update d.table fd (some (.socket id)) other ≠ none
      rw [Finset.mem_insert]
      rcases eq_or_ne other fd with rfl | hne
      · simp
      · rw [Function.update_of_ne hne, ← hsame other, or_iff_right hne]
  | iterate now stamp room _ =>
      refine ⟨[], d, rfl, fun fd => ?_⟩
      rw [(sameRequests_iterate setup daemon now stamp room).descriptors]
      exact hsame fd
  | select | serve | checkOff => exact ⟨[], d, rfl, fun fd => by simpa using hsame fd⟩
  | acceptFailed | readEnded | received | connect | send | receive | close =>
      exact ⟨[], d, rfl, hsame⟩

/-- Every run of the daemon is one of such calls, as far as its descriptors go. -/
theorem descriptorMachine_simulates {later : Daemon W} (hsame : SameOpen d daemon)
    (hreach : (daemonMachine setup).Reachable daemon later) :
    ∃ after, (descriptorMachine setup.limits.descriptors).Reachable d after ∧
      SameOpen after later := by
  apply hreach.invariant
  · exact ⟨d, .start, hsame⟩
  · rintro s event next ⟨middle, hmiddle, hsameMiddle⟩ - hnext
    obtain ⟨calls, after, hrun, hsameAfter⟩ :=
      (Daemon.Step.of_step hnext).descriptorCalls hsameMiddle
    have hreached := Machine.ReachableUnder.of_run hmiddle (Machine.meets_true middle calls) hrun
    exact ⟨after, hreached, hsameAfter⟩

/-- However long the loop of the daemon runs, the descriptors it has come to are higher ones. -/
theorem connections_on_higher_descriptors {later : Daemon W}
    (hd : Spared setup.limits.descriptors (devNullTable setup.limits.descriptors) d)
    (hsame : SameOpen d daemon)
    (hreach : (daemonMachine setup).Reachable daemon later) :
    ∀ fd ∈ later.descriptors, fd ∉ daemon.descriptors → 3 ≤ fd := by
  obtain ⟨after, hafter, hsameAfter⟩ := descriptorMachine_simulates hsame hreach
  have hspared : Spared setup.limits.descriptors (devNullTable setup.limits.descriptors) after :=
    hafter.invariant hd fun s call next hs _ hstep => hs.step (devNullTable_ne_none _) hstep
  intro fd hopen hnew
  by_contra hlow
  -- a standard descriptor is open now only if it was open all along
  have hfd := Nat.not_le.mp hlow
  apply (hsameAfter fd).mp hopen
  rw [hspared.standard fd hfd, ← hd.standard fd hfd]
  exact not_not.mp fun hne => hnew ((hsame fd).mpr hne)

end Connections

end Rocpmd

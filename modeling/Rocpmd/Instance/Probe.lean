import Rocpmd.Foundation.Monitor
import Rocpmd.Instance.LockedPid

/-!
# The probe and the lock

`rocpmd_instance_lives` asks whether the number in the lock file belongs to a living process;
`is_running` asks for the lock. The lock is granted before the number is written and given up before
the name is removed, so the two answers part as soon as a process claims the file.
-/

namespace Rocpmd

open Foundation

namespace System

/-! ## rocpmd_instance_lives in one piece -/

/-- The number in the lock file, if there is a lock file. -/
def named (s : System) : Option Int :=
  s.file.name.map fun inode => atoi (firstLine (s.file.content inode))

/-- The answer to root, who may read the file; `foreign` says which numbers belong to processes or
groups that are not of this program. -/
def instanceLives (s : System) (foreign : Int → Bool) : InstanceStatus :=
  match s.named with
  | none => .lockfileMissing
  | some pid => if s.alive pid (foreign pid) then .processLives else .processDead

/-- The lock file names a living process. -/
def NamesLiving (s : System) (foreign : Int → Bool) : Prop :=
  ∃ pid ∈ s.named, s.alive pid (foreign pid) = true

/-- Some process holds the lock that `is_running` acquires. -/
def LockHeld (s : System) : Prop := ∃ inode holder, s.file.holder inode = some holder

theorem instanceLives_eq_processLives_iff (s : System) (foreign : Int → Bool) :
    s.instanceLives foreign = .processLives ↔ s.NamesLiving foreign := by
  unfold instanceLives NamesLiving
  cases s.named with
  | none => simp
  | some pid => simp

/-- Who is alive depends on the numbers in use only. -/
theorem alive_congr {s next : System} (hprocs : ∀ q, (next.procs q).isSome = (s.procs q).isSome)
    (pid : Int) (other : Bool) : next.alive pid other = s.alive pid other := by
  rw [alive, alive, hprocs]

theorem isSome_procs_put {s : System} {p : ℕ} {proc : Process} (hproc : s.procs p = some proc)
    (moved : Process) (q : ℕ) : ((s.put p moved).procs q).isSome = (s.procs q).isSome := by
  rcases eq_or_ne q p with rfl | hne
  · rw [put_procs_self, hproc]
    rfl
  · rw [put_procs_of_ne s moved hne]

theorem step_advance {s : System} {p : ℕ} {proc : Process} (hproc : s.procs p = some proc)
    (ok : Bool) : systemMachine.step s (.advance p ok) = s.advance p proc ok := by
  simp [systemMachine, step, hproc]

/-- The steps of a probe, taken at once by a process that may read the file, come to its answer. -/
theorem instanceLives_eq_probe {s : System} {p : ℕ} {proc : Process} {probe : Probe}
    (hproc : s.procs p = some proc) (hpc : proc.pc = .access probe) (foreign : Int → Bool) :
    ∃ (oks : List Bool) (next : System), systemMachine.run s (oks.map (.advance p)) = some next ∧
      next.procs p = some (proc.answer probe (s.instanceLives foreign)) ∧
      next.file = s.file := by
  cases hname : s.file.name with
  | none =>
      refine ⟨[true], s.put p (proc.answer probe .lockfileMissing), ?_, ?_, rfl⟩
      · simp [Machine.run, step_advance hproc, advance, hpc, access, hname]
      · simp [instanceLives, named, hname]
  | some inode =>
      let pid := atoi (firstLine (s.file.content inode))
      let reading := s.put p (proc.goto (.readPid probe))
      let asking := reading.put p (proc.goto (.kill probe pid))
      have hread : systemMachine.step s (.advance p true) = some reading := by
        simp [step_advance hproc, advance, hpc, access, hname, reading]
      have hask : systemMachine.step reading (.advance p true) = some asking := by
        rw [step_advance (put_procs_self s p _)]
        simp [advance, Process.goto, readPid, reading, asking, put, hname, pid]
      have halive : asking.alive pid (foreign pid) = s.alive pid (foreign pid) := by
        apply alive_congr
        intro q
        rw [isSome_procs_put (put_procs_self s p _), isSome_procs_put hproc]
      have hanswer : systemMachine.step asking (.advance p (foreign pid)) =
          some (asking.put p (proc.answer probe (s.instanceLives foreign))) := by
        have hlives : s.instanceLives foreign =
            if asking.alive pid (foreign pid) then .processLives else .processDead := by
          rw [halive]
          simp [instanceLives, named, hname, pid]
        rw [step_advance (put_procs_self reading p _), hlives]
        cases probe <;> rfl
      refine ⟨[true, true, foreign pid], asking.put p (proc.answer probe (s.instanceLives foreign)),
        ?_, put_procs_self _ _ _, rfl⟩
      simp [Machine.run, hread, hask, hanswer]

end System

/-- The probe tells whether the lock is held. -/
def ProbeAgrees (s : System × (Int → Bool)) : Prop :=
  s.1.instanceLives s.2 = .processLives ↔ s.1.LockHeld

/-- The file left behind names no living process: nobody runs yet, and zero is the caller's own
process group. -/
def NamesNobody (foreign : Int → Bool) (stale : Option (List Char)) : Prop :=
  ∀ content ∈ stale, atoi (firstLine content) ≠ 0 ∧ foreign (atoi (firstLine content)) = false

/-- No process creates the lock file or asks for its lock, and none comes to have the number that a
file left behind names. -/
def LockUnclaimed (s : System × (Int → Bool)) : SystemEvent ⊕ (Int → Bool) → Prop
  | .inl (.start p _ _) => s.1.named ≠ some p
  | .inl (.fork _ child ok) => ok = true → s.1.named ≠ some child
  | .inl (.advance p ok) => ∀ proc ∈ s.1.procs p, ok = true →
      (proc.pc = .openLock → s.1.file.name ≠ none) ∧ proc.pc ≠ .lock
  | .inr foreign => ∀ pid ∈ s.1.named, foreign pid = false
  | _ => True

/-! ## Before the lock is claimed -/

/-- No one holds the lock or has passed it, and whoever is about to ask for it will get it. -/
structure LockIdle (s : System) : Prop where
  free : ∀ inode, s.file.holder inode = none
  outside : s.Each fun proc => proc.pc.lockStage ≠ .owning
  opened : s.Each fun proc => proc.pc = .lock →
    ∃ inode ∈ proc.lockFd, inode < s.file.nextInode

/-- The lock stays idle, and the file names no other number and no one new is alive. -/
structure Uneventful (s next : System) : Prop where
  idle : LockIdle next
  named : ∀ pid ∈ next.named, s.named = some pid
  procs : ∀ q, (next.procs q).isSome → (s.procs q).isSome

namespace LockIdle

variable {s next : System} {p : ℕ} {proc : Process} {ok : Bool} {foreign : Int → Bool}

theorem initial (stale : Option (List Char)) : LockIdle (.initial stale) where
  free := fun _ => rfl
  outside := fun _ _ hproc => by cases hproc
  opened := fun _ _ hproc => by cases hproc

theorem not_lockHeld (hidle : LockIdle s) : ¬ s.LockHeld := by
  rintro ⟨inode, holder, hheld⟩
  rw [hidle.free inode] at hheld
  cases hheld

/-- While the lock is idle, a probe that agrees finds no one alive. -/
theorem agrees_iff (hidle : LockIdle s) : ProbeAgrees (s, foreign) ↔ ¬ s.NamesLiving foreign := by
  unfold ProbeAgrees
  rw [System.instanceLives_eq_processLives_iff]
  exact iff_false_right hidle.not_lockHeld

/-- One process changes and the file keeps its locks and inodes. -/
theorem put (hidle : LockIdle s) {base : System} (hprocs : base.procs = s.procs)
    (hfree : ∀ inode, base.file.holder inode = none)
    (hinodes : s.file.nextInode ≤ base.file.nextInode) (p : ℕ) {moved : Process}
    (houtside : moved.pc.lockStage ≠ .owning)
    (hopened : moved.pc = .lock → ∃ inode ∈ moved.lockFd, inode < base.file.nextInode) :
    LockIdle (base.put p moved) where
  free := hfree
  outside := hidle.outside.put hprocs p houtside
  opened := by
    have hkept : s.Each fun proc => proc.pc = .lock →
        ∃ inode ∈ proc.lockFd, inode < base.file.nextInode := by
      intro q other hother hpc
      obtain ⟨inode, hinode, hlt⟩ := hidle.opened q other hother hpc
      exact ⟨inode, hinode, Nat.lt_of_lt_of_le hlt hinodes⟩
    exact hkept.put hprocs p hopened

theorem uneventful_put (hidle : LockIdle s) (hproc : s.procs p = some proc) {base : System}
    (hprocs : base.procs = s.procs) (hfree : ∀ inode, base.file.holder inode = none)
    (hinodes : s.file.nextInode ≤ base.file.nextInode)
    (hnamed : ∀ pid ∈ base.named, s.named = some pid) {moved : Process}
    (houtside : moved.pc.lockStage = .outside) : Uneventful s (base.put p moved) where
  idle := by
    apply hidle.put hprocs hfree hinodes
    · rw [houtside]
      decide
    · intro hpc
      rw [hpc] at houtside
      cases houtside
  named := hnamed
  procs := by
    have hbase : base.procs p = some proc := by rw [hprocs, hproc]
    intro q
    rw [System.isSome_procs_put hbase, hprocs]
    exact id

/-- The file is left alone. -/
theorem uneventful_move (hidle : LockIdle s) (hproc : s.procs p = some proc) {base : System}
    (hprocs : base.procs = s.procs) (hfile : base.file = s.file) {moved : Process}
    (houtside : moved.pc.lockStage = .outside) : Uneventful s (base.put p moved) := by
  apply hidle.uneventful_put hproc hprocs _ _ _ houtside
  · rw [hfile]
    exact hidle.free
  · rw [hfile]
  · intro pid hpid
    rw [System.named, hfile] at hpid
    exact hpid

theorem uneventful_exit (hidle : LockIdle s) (hproc : s.procs p = some proc) :
    Uneventful s (s.put p (proc.goto .exiting)) :=
  hidle.uneventful_move hproc rfl rfl rfl

theorem not_held (hidle : LockIdle s) (p inode : ℕ) : s.file.holder inode ≠ some p := by
  rw [hidle.free inode]
  exact Option.some_ne_none p ∘ Eq.symm

theorem uneventful_remove (hidle : LockIdle s) (p : ℕ) : Uneventful s (s.remove p) where
  idle := {
    free := by
      intro inode
      change (s.file.dropAll p).holder inode = none
      rw [s.file.dropAll_of_not_held (hidle.not_held p)]
      exact hidle.free inode
    outside := hidle.outside.remove p
    opened := hidle.opened.remove p }
  named := fun _ hpid => hpid
  procs := by
    intro q hsome
    obtain ⟨other, hother⟩ := Option.isSome_iff_exists.mp hsome
    rw [System.procs_of_remove hother]
    rfl

theorem unlock_file (hidle : LockIdle s) (p : ℕ) (proc : Process) :
    (s.unlock p proc).file = s.file := by
  unfold System.unlock
  split
  next inode _ => exact s.file.unlock_of_not_held (hidle.not_held p) inode
  next => rfl

theorem closeLock_file (hidle : LockIdle s) (p : ℕ) (proc : Process) :
    (s.closeLock p proc).file = s.file := by
  unfold System.closeLock
  split
  next => exact s.file.dropAll_of_not_held (hidle.not_held p)
  next => rfl

/-- What a process does by itself before it opens the lock file is uneventful, and so is what it
does in the handler: it has no lock to give up. -/
theorem uneventful_advance (hidle : LockIdle s) (hproc : s.procs p = some proc)
    (hadvance : System.Advance s p proc ok next) (hopen : proc.pc ≠ .openLock)
    (hlock : proc.pc ≠ .lock) : Uneventful s next := by
  have houtside := hidle.outside p proc hproc
  cases hadvance with
  | exits hnext | boots _ hnext | loads _ hnext | detaches _ hnext =>
      exact hidle.uneventful_move hproc rfl rfl (by rw [hnext]; rfl)
  | finds | reads | initStep | powersOff => exact hidle.uneventful_move hproc rfl rfl rfl
  | answers => exact hidle.uneventful_move hproc rfl rfl (proc.answer_lockStage _ _)
  | initFails =>
      apply hidle.uneventful_move hproc rfl rfl
      exact proc.afterInit_lockStage
  | initialises =>
      have hprocs : ({ s with initialised := proc.pins :: s.initialised } : System).procs =
          s.procs := rfl
      apply hidle.uneventful_move hproc hprocs rfl
      exact proc.afterInit_lockStage
  | shows =>
      apply hidle.uneventful_move hproc rfl rfl
      rcases proc.afterBatteryLevel_cases with h | h <;> rw [h] <;> rfl
  | decides => exact hidle.uneventful_move hproc rfl rfl proc.decide_lockStage
  | cleans _ hafter | handlerCleans _ hafter =>
      apply hidle.uneventful_move hproc (System.giveBack_procs s _) (System.giveBack_file s _)
      rcases hafter with rfl | rfl <;> rfl
  | opens hpc => exact absurd hpc hopen
  | locks hpc => exact absurd hpc hlock
  | truncates hpc | writesPid hpc => exact absurd (by rw [hpc]; rfl) houtside
  | serves hpc => rcases hpc with hpc | hpc <;> exact absurd (by rw [hpc]; rfl) houtside
  | handles => exact hidle.uneventful_move hproc rfl rfl proc.handler_lockStage
  | deletes _ hnext =>
      apply hidle.uneventful_move hproc rfl rfl
      rcases hnext with h | h | h <;> rw [h] <;> rfl
  | unlocks =>
      exact hidle.uneventful_move hproc (System.unlock_procs s p proc)
        (hidle.unlock_file p proc) rfl
  | closes _ hnext =>
      apply hidle.uneventful_move hproc (System.closeLock_procs s p proc)
        (hidle.closeLock_file p proc)
      rw [hnext]
      rfl
  | unlinks _ hnext =>
      -- the name goes, and with it the number
      have hprocs : ({ s with file := s.file.unlink } : System).procs = s.procs := rfl
      apply hidle.uneventful_put hproc hprocs hidle.free (Nat.le_refl _)
      · intro pid hpid
        cases hpid
      · rw [hnext]
        rfl
  | ends => exact hidle.uneventful_remove p

end LockIdle

/-! ## Steps -/

section Steps

variable {s next : System} {p : ℕ} {proc : Process} {ok : Bool} {foreign : Int → Bool}

theorem System.alive_iff {pid : Int} {other : Bool} : s.alive pid other = true ↔
    pid = 0 ∨ 0 < pid ∧ (s.procs pid.toNat).isSome = true ∨ other = true := by
  simp [alive, or_assoc]

theorem Uneventful.agrees (hnext : Uneventful s next) (hidle : LockIdle s)
    (hagrees : ProbeAgrees (s, foreign)) : ProbeAgrees (next, foreign) := by
  rw [hidle.agrees_iff] at hagrees
  rw [hnext.idle.agrees_iff]
  rintro ⟨pid, hpid, halive⟩
  refine hagrees ⟨pid, hnext.named pid hpid, ?_⟩
  rw [System.alive_iff] at halive ⊢
  exact halive.imp_right (Or.imp_left (And.imp_right (hnext.procs _)))

/-- When a process appears, the probe goes on to agree unless the file names that process. -/
theorem LockIdle.agrees_new_iff (hidle : LockIdle s) (hagrees : ProbeAgrees (s, foreign))
    (hnext : LockIdle next) (hnamed : next.named = s.named) (hp : p ≠ 0)
    (hprocs : ∀ q, (next.procs q).isSome = true ↔ q = p ∨ (s.procs q).isSome = true) :
    ProbeAgrees (next, foreign) ↔ s.named ≠ some (p : Int) := by
  rw [hidle.agrees_iff] at hagrees
  rw [hnext.agrees_iff, not_iff_not]
  constructor
  · rintro ⟨pid, hpid, halive⟩
    rw [hnamed] at hpid
    rw [System.alive_iff, hprocs] at halive
    have hdead : s.alive pid (foreign pid) ≠ true := fun h => hagrees ⟨pid, hpid, h⟩
    rw [Ne, System.alive_iff] at hdead
    -- whatever else makes the number alive made it so before
    obtain ⟨hpos, heq⟩ : 0 < pid ∧ pid.toNat = p := by tauto
    rw [hpid]
    congr 1
    omega
  · intro hpid
    refine ⟨p, by rw [hnamed]; exact hpid, ?_⟩
    rw [System.alive_iff, hprocs]
    exact .inr (.inl ⟨by omega, .inl (Int.toNat_natCast p)⟩)

/-- A step keeps the lock idle and the probe in agreement, or ends the agreement, as the condition
says. -/
def Judged (foreign : Int → Bool) (s : System) (event : SystemEvent) (next : System) : Prop :=
  LockIdle next ∧ ProbeAgrees (next, foreign) ∧ LockUnclaimed (s, foreign) (.inl event) ∨
    ¬ ProbeAgrees (next, foreign) ∧ ¬ LockUnclaimed (s, foreign) (.inl event)

theorem Uneventful.judged {event : SystemEvent} (hnext : Uneventful s next) (hidle : LockIdle s)
    (hagrees : ProbeAgrees (s, foreign)) (hcond : LockUnclaimed (s, foreign) (.inl event)) :
    Judged foreign s event next :=
  .inl ⟨hnext.idle, hnext.agrees hidle hagrees, hcond⟩

theorem judged_of_iff {event : SystemEvent} (hidle : LockIdle next)
    (hiff : ProbeAgrees (next, foreign) ↔ LockUnclaimed (s, foreign) (.inl event)) :
    Judged foreign s event next := by
  by_cases hcond : LockUnclaimed (s, foreign) (.inl event)
  · exact .inl ⟨hidle, hiff.mpr hcond, hcond⟩
  · exact .inr ⟨mt hiff.mp hcond, hcond⟩

theorem judged_start (hidle : LockIdle s) (hagrees : ProbeAgrees (s, foreign)) (hp : p ≠ 0)
    (opts : CmdlineOptions) (conf : Config) :
    Judged foreign s (.start p opts conf) (s.put p (.start opts conf)) := by
  have hnext : LockIdle (s.put p (.start opts conf)) := by
    apply hidle.put rfl hidle.free (Nat.le_refl _) p
    · intro hstage
      cases hstage
    · intro hpc
      cases hpc
  apply judged_of_iff hnext
  apply hidle.agrees_new_iff hagrees hnext rfl hp
  intro q
  rcases eq_or_ne q p with rfl | hne
  · simp
  · simp [System.put_procs_of_ne s _ hne, hne]

theorem judged_fork (hidle : LockIdle s) (hagrees : ProbeAgrees (s, foreign))
    (hproc : s.procs p = some proc) {child : ℕ} {childPc : ProcessPc}
    (hpc : childPc = .newSession ∨ childPc = .openLock)
    (hfork : s.fork p child proc childPc ok = some next) :
    Judged foreign s (.fork p child ok) next := by
  unfold System.fork at hfork
  split at hfork
  next hok =>
    obtain rfl := Option.some.inj hfork
    apply (hidle.uneventful_exit hproc).judged hidle hagrees
    exact fun h => by rw [hok] at h; cases h
  next hok =>
    split at hfork
    next => cases hfork
    next hfree =>
      obtain ⟨hchild, hnone⟩ := not_or.mp hfree
      obtain rfl := Option.some.inj hfork
      have hforked : LockIdle (s.put child (proc.goto childPc)) := by
        apply hidle.put rfl hidle.free (Nat.le_refl _) child <;> rcases hpc with rfl | rfl <;>
          intro h <;> cases h
      have hnext : LockIdle ((s.put child (proc.goto childPc)).put p (proc.goto .exiting)) := by
        apply hforked.put rfl hforked.free (Nat.le_refl _) p <;> intro h <;> cases h
      have hprocs : ∀ q, (((s.put child (proc.goto childPc)).put p (proc.goto .exiting)).procs
          q).isSome = true ↔ q = child ∨ (s.procs q).isSome = true := by
        intro q
        rcases eq_or_ne q p with rfl | hne
        · simp [hproc]
        · rw [System.put_procs_of_ne _ _ hne]
          rcases eq_or_ne q child with rfl | hne'
          · simp
          · simp [System.put_procs_of_ne s _ hne', hne']
      apply judged_of_iff hnext
      rw [hidle.agrees_new_iff hagrees hnext rfl hchild hprocs]
      exact ⟨fun h _ => h, fun h => h (eq_true_of_ne_false hok)⟩

theorem lockUnclaimed_advance_iff (hproc : s.procs p = some proc) :
    LockUnclaimed (s, foreign) (.inl (.advance p ok)) ↔
      (ok = true → (proc.pc = .openLock → s.file.name ≠ none) ∧ proc.pc ≠ .lock) := by
  simp [LockUnclaimed, hproc]

/-- The lock stays idle when the file is opened. -/
theorem LockIdle.openCreate (hidle : LockIdle s) (p : ℕ) (proc : Process) :
    LockIdle ({ s with file := (s.file.openCreate []).2 }.put p
      { proc with lockFd := some (s.file.openCreate []).1, pc := .lock }) := by
  refine hidle.put ?_ ?_ ?_ p ?_ ?_
  · rfl
  · intro inode
    rw [LockFile.openCreate_holder]
    exact hidle.free inode
  · exact s.file.openCreate_nextInode_le []
  · intro hstage
    cases hstage
  · intro _
    exact ⟨_, rfl, LockFile.name_lt _ _ (s.file.openCreate_name [])⟩

theorem judged_openLock (hidle : LockIdle s) (hagrees : ProbeAgrees (s, foreign))
    (hproc : s.procs p = some proc) (hpc : proc.pc = .openLock) :
    Judged foreign s (.advance p ok) (s.openLock p proc ok) := by
  unfold System.openLock
  split
  next hok =>
    apply (hidle.uneventful_exit hproc).judged hidle hagrees
    simp [lockUnclaimed_advance_iff hproc, hok]
  next hok =>
    have hopened := hidle.openCreate p proc
    cases hname : s.file.name with
    | none =>
        -- the new file is empty, which reads as zero
        refine .inr ⟨?_, ?_⟩
        · rw [hopened.agrees_iff, not_not]
          refine ⟨0, ?_, ?_⟩
          · change (s.file.openCreate []).2.name.map _ = some 0
            rw [s.file.openCreate_name, Option.map_some]
            have hcontent := s.file.openCreate_content_of_none hname []
            exact congrArg (fun content => some (atoi (firstLine content))) hcontent
          · exact System.alive_iff.mpr (.inl rfl)
        · simp [lockUnclaimed_advance_iff hproc, eq_true_of_ne_false hok, hpc, hname]
    | some inode =>
        have hkept := s.file.openCreate_snd_of_name hname []
        have hnext : Uneventful s ({ s with file := (s.file.openCreate []).2 }.put p
            { proc with lockFd := some (s.file.openCreate []).1, pc := .lock }) := {
          idle := hopened
          named := by
            intro pid hpid
            change System.named { s with file := (s.file.openCreate []).2 } = some pid at hpid
            rw [System.named, hkept] at hpid
            exact hpid
          procs := by
            intro q
            have hbase : ({ s with file := (s.file.openCreate []).2 } : System).procs p =
                some proc := hproc
            rw [System.isSome_procs_put hbase]
            exact id }
        apply hnext.judged hidle hagrees
        simp [lockUnclaimed_advance_iff hproc, hpc, hname]

theorem judged_lock (hidle : LockIdle s) (hagrees : ProbeAgrees (s, foreign))
    (hproc : s.procs p = some proc) (hpc : proc.pc = .lock) :
    Judged foreign s (.advance p ok) (s.lock p proc ok) := by
  obtain ⟨inode, hinode, hlt⟩ := hidle.opened p proc hproc hpc
  obtain ⟨file, hlock⟩ := s.file.exists_setLock (hidle.free inode) hlt p
  have hgranted : proc.lockFd.bind (s.file.setLock p) = some file := by
    rw [hinode]
    exact hlock
  unfold System.lock
  rw [hgranted]
  dsimp only
  split
  next hok =>
    apply (hidle.uneventful_exit hproc).judged hidle hagrees
    simp [lockUnclaimed_advance_iff hproc, hok]
  next hok =>
    -- the lock is held now, and the file still says what it said
    refine .inr ⟨?_, ?_⟩
    · intro hnext
      obtain ⟨-, hname, hholder⟩ := s.file.setLock_some hlock
      have hheld : ({ s with file := file }.put p (proc.goto .truncate)).LockHeld :=
        ⟨inode, p, by change file.holder inode = _; rw [hholder, Function.update_self]⟩
      obtain ⟨pid, hpid, halive⟩ := (System.instanceLives_eq_processLives_iff _ _).mp
        (hnext.mpr hheld)
      apply hidle.agrees_iff.mp hagrees
      refine ⟨pid, ?_, ?_⟩
      · change System.named { s with file := file } = some pid at hpid
        rw [System.named, hname, s.file.setLock_content hlock] at hpid
        exact hpid
      · have hbase : ({ s with file := file } : System).procs p = some proc := hproc
        rw [System.alive_congr (System.isSome_procs_put hbase _)] at halive
        exact halive
    · simp [lockUnclaimed_advance_iff hproc, eq_true_of_ne_false hok, hpc]

theorem judged_advance (hidle : LockIdle s) (hagrees : ProbeAgrees (s, foreign))
    (hproc : s.procs p = some proc) (hadvance : s.advance p proc ok = some next) :
    Judged foreign s (.advance p ok) next := by
  by_cases hopen : proc.pc = .openLock
  · simp only [System.advance, hopen, Option.some.injEq] at hadvance
    subst hadvance
    exact judged_openLock hidle hagrees hproc hopen
  · by_cases hlock : proc.pc = .lock
    · simp only [System.advance, hlock, Option.some.injEq] at hadvance
      subst hadvance
      exact judged_lock hidle hagrees hproc hlock
    · have hnext := hidle.uneventful_advance hproc (.of_advance hadvance) hopen hlock
      apply hnext.judged hidle hagrees
      rw [lockUnclaimed_advance_iff hproc]
      exact fun _ => ⟨fun h => absurd h hopen, hlock⟩

theorem judged_step {event : SystemEvent} (hidle : LockIdle s) (hagrees : ProbeAgrees (s, foreign))
    (hstep : systemMachine.step s event = some next) : Judged foreign s event next := by
  cases event with
  | start q opts conf =>
      simp only [systemMachine, System.step] at hstep
      split at hstep
      next => cases hstep
      next hfree =>
        obtain rfl := Option.some.inj hstep
        exact judged_start hidle hagrees (not_or.mp hfree).1 opts conf
  | advance q ok =>
      obtain ⟨proc, hproc, hadvance⟩ := Option.bind_eq_some_iff.mp hstep
      exact judged_advance hidle hagrees hproc hadvance
  | fork q child ok =>
      obtain ⟨proc, hproc, hfork⟩ := Option.bind_eq_some_iff.mp hstep
      split at hfork
      next => exact judged_fork hidle hagrees hproc (.inl rfl) hfork
      next => exact judged_fork hidle hagrees hproc (.inr rfl) hfork
      next => cases hfork
  | answered q =>
      cases System.Step.of_step hstep with
      | @answered _ proc hproc _ =>
          have houtside : proc.afterBatteryLevel.lockStage = .outside := by
            rcases proc.afterBatteryLevel_cases with h | h <;> rw [h] <;> rfl
          exact (hidle.uneventful_move hproc rfl rfl houtside).judged hidle hagrees trivial
  | signal q sig =>
      cases System.Step.of_step hstep with
      | terminated => exact (hidle.uneventful_remove q).judged hidle hagrees trivial
      | @handled _ proc _ hproc _ =>
          have hmove := hidle.uneventful_move hproc rfl rfl
            (rfl : ({ proc with masked := sig :: proc.masked, pc := .handler } :
              Process).pc.lockStage = _)
          exact hmove.judged hidle hagrees trivial
      | ignored => exact .inl ⟨hidle, hagrees, trivial⟩
  | halt q =>
      cases System.Step.of_step hstep with
      | @halt _ proc hproc _ =>
          have houtside : proc.deleteRocpmd.pc.lockStage = .outside := by
            rcases proc.deleteRocpmd_pc with ⟨h, _⟩ | ⟨h, _⟩ <;> rw [h] <;> rfl
          exact (hidle.uneventful_move hproc rfl rfl houtside).judged hidle hagrees trivial
  | crash q =>
      cases System.Step.of_step hstep with
      | crash => exact (hidle.uneventful_remove q).judged hidle hagrees trivial

/-- When the other processes change, the file must name none of them. -/
theorem agrees_environment_iff (hidle : LockIdle s) (hagrees : ProbeAgrees (s, foreign))
    (foreign' : Int → Bool) :
    ProbeAgrees (s, foreign') ↔ ∀ pid ∈ s.named, foreign' pid = false := by
  rw [hidle.agrees_iff] at hagrees ⊢
  constructor
  · intro hdead pid hpid
    by_contra hforeign
    exact hdead ⟨pid, hpid, System.alive_iff.mpr (.inr (.inr (eq_true_of_ne_false hforeign)))⟩
  · rintro hforeign ⟨pid, hpid, halive⟩
    refine hagrees ⟨pid, hpid, ?_⟩
    rw [System.alive_iff, hforeign pid hpid] at halive
    rw [System.alive_iff]
    exact halive.imp_right fun h => .inl (h.resolve_right (by simp))

theorem agrees_initial_iff (foreign : Int → Bool) (stale : Option (List Char)) :
    ProbeAgrees (.initial stale, foreign) ↔ NamesNobody foreign stale := by
  rw [(LockIdle.initial stale).agrees_iff]
  cases stale with
  | none => simp [System.NamesLiving, System.named, System.initial, NamesNobody]
  | some content =>
      simp [System.NamesLiving, System.named, System.initial, NamesNobody, System.alive_iff]

end Steps

/-- Each step keeps the lock idle and the probe in agreement, or ends the agreement; the condition
tells which. -/
theorem judged_inEnvironment {s next : System × (Int → Bool)} {event : SystemEvent ⊕ (Int → Bool)}
    (hidle : LockIdle s.1) (hagrees : ProbeAgrees s)
    (hstep : (systemMachine.inEnvironment (Int → Bool)).step s event = some next) :
    LockIdle next.1 ∧ ProbeAgrees next ∧ LockUnclaimed s event ∨
      ¬ ProbeAgrees next ∧ ¬ LockUnclaimed s event := by
  obtain ⟨state, foreign⟩ := s
  obtain ⟨state', foreign'⟩ := next
  rcases Machine.inEnvironment_step hstep with ⟨taken, rfl, htaken, rfl⟩ | ⟨rfl, rfl⟩
  · exact judged_step hidle hagrees htaken
  · have hiff := agrees_environment_iff hidle hagrees foreign'
    by_cases hforeign : ∀ pid ∈ state'.named, foreign' pid = false
    · exact .inl ⟨hidle, hiff.mpr hforeign, hforeign⟩
    · exact .inr ⟨mt hiff.mp hforeign, hforeign⟩

theorem along_iff_unclaimed (stale : Option (List Char)) (foreign : Int → Bool)
    (events : List (SystemEvent ⊕ (Int → Bool))) :
    (systemMachine.inEnvironment (Int → Bool)).Along ProbeAgrees (.initial stale, foreign) events ↔
      NamesNobody foreign stale ∧
        (systemMachine.inEnvironment (Int → Bool)).Meets LockUnclaimed (.initial stale, foreign)
          events := by
  rw [← agrees_initial_iff]
  by_cases hstart : ProbeAgrees (.initial stale, foreign)
  · rw [and_iff_right hstart]
    refine Machine.along_iff_meets_carrying (fun s => LockIdle s.1) ?_ ?_ (LockIdle.initial stale)
      hstart events
    · intro s event next hidle hagrees hcond hstep
      rcases judged_inEnvironment hidle hagrees hstep with ⟨hnext, _⟩ | ⟨_, hclaimed⟩
      · exact hnext
      · exact absurd hcond hclaimed
    · intro s event next hidle hagrees hstep
      rcases judged_inEnvironment hidle hagrees hstep with ⟨_, hnext, hcond⟩ | ⟨hends, hclaimed⟩
      · exact iff_of_true hnext hcond
      · exact iff_of_false hends hclaimed
  · apply iff_of_false _ fun h => hstart h.1
    intro halong
    cases events with
    | nil => exact hstart halong
    | cons event rest => exact hstart halong.1

/-! ## While a daemon runs -/

theorem PidInvariant.lives {s : System} {p : ℕ} (hinv : PidInvariant s) (hp : p < 2 ^ 31)
    (hin : s.InDaemonMain p) (foreign : Int → Bool) :
    s.instanceLives foreign = .processLives ∧ s.LockHeld := by
  obtain ⟨inode, hname, hheld, hcontent⟩ := hinv.owned hin
  refine ⟨(s.instanceLives_eq_processLives_iff foreign).mpr ⟨p, ?_, ?_⟩, inode, p, hheld⟩
  · rw [System.named, hname, Option.map_some, hcontent, atoi_pidText hp]
    rfl
  · obtain ⟨proc, hproc, -⟩ := hin
    rcases Nat.eq_zero_or_pos p with rfl | hpos
    · exact System.alive_iff.mpr (.inl rfl)
    · exact System.alive_iff.mpr (.inr (.inl ⟨Int.natCast_pos.mpr hpos, by simp [hproc]⟩))

/-- **When the probe agrees with the lock.** In a run, with other processes coming and going, the
probe tells throughout whether the lock is held exactly if the file left behind names no one and no
step claims the file or gives someone the number in it. And if the name of the file is removed only
while the file is not in use, and whoever is to write its number (an `int`) there can, the probe
finds the holder of the lock as long as a process is in `daemon_main`. -/
theorem probeAgrees_along_iff (stale : Option (List Char)) :
    (∀ (foreign : Int → Bool) (events : List (SystemEvent ⊕ (Int → Bool))),
      (systemMachine.inEnvironment (Int → Bool)).Along ProbeAgrees (.initial stale, foreign)
          events ↔
        NamesNobody foreign stale ∧
          (systemMachine.inEnvironment (Int → Bool)).Meets LockUnclaimed (.initial stale, foreign)
            events) ∧
      ∀ s, systemMachine.ReachableUnder ClaimKept (.initial stale) s →
        ∀ p < 2 ^ 31, s.InDaemonMain p → ∀ foreign,
          s.instanceLives foreign = .processLives ∧ s.LockHeld := by
  refine ⟨along_iff_unclaimed stale, fun s hreach p hp hin foreign => ?_⟩
  have hinv : PidInvariant s := hreach.invariant (.initial stale)
    fun _ _ _ hinv hkept hnext => hinv.step hnext hkept
  exact hinv.lives hp hin foreign

/-- A daemon has been started and serves. -/
theorem probeAgrees_along_iff_started : ∃ s,
    systemMachine.run (.initial none) (launch 1 2 3 20 ++ advances 3 6) = some s ∧
      s.InDaemonMain 3 ∧ ∀ foreign, s.instanceLives foreign = .processLives ∧ s.LockHeld := by
  have hmeets : systemMachine.Meets ClaimKept (.initial none)
      (launch 1 2 3 20 ++ advances 3 6) := by decide +kernel
  have hrun : ∃ s ∈ systemMachine.run (.initial none) (launch 1 2 3 20 ++ advances 3 6),
      s.InDaemonMain 3 := by decide +kernel
  obtain ⟨s, hs, hin⟩ := hrun
  have hreach := Machine.ReachableUnder.start.of_run hmeets hs
  exact ⟨s, hs, hin, (probeAgrees_along_iff none).2 s hreach 3 (by decide) hin⟩

/-- A crashed daemon leaves a lock file that names it, and another process gets its number: the
probe finds a living process, and no one holds the lock. -/
theorem reused_pid_lives :
    ¬ (systemMachine.inEnvironment (Int → Bool)).Along ProbeAgrees
      (.initial (some (pidText 4711)), fun _ => false) [.inr fun pid => pid == 4711] := by
  intro halong
  have hlast := halong.2 _ rfl
  have hlives : (System.initial (some (pidText 4711))).instanceLives (fun pid => pid == 4711) =
      .processLives := by decide +kernel
  obtain ⟨inode, holder, hheld⟩ := hlast.mp hlives
  cases hheld

end Rocpmd

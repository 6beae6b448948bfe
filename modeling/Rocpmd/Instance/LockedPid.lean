import Mathlib.Data.List.TakeWhile
import Rocpmd.Instance.Singleton

/-!
# The number in the lock of a running daemon

Whoever is granted the lock puts its own number into the file before it enters `daemon_main`. The
lock keeps the others from writing there, so the number stays until the daemon leaves.
-/

namespace Rocpmd

open Foundation

/-! ## Reading back what is_running writes -/

theorem isDigit_of_mem_toDigits {p : ℕ} {c : Char} (hc : c ∈ Nat.toDigits 10 p) :
    c.isDigit = true :=
  Nat.isDigit_of_mem_toDigits (by omega) (by omega) hc

theorem firstLine_pidText (p : ℕ) : firstLine (pidText p) = pidText p := by
  rw [firstLine, List.takeWhile_eq_self_iff]
  intro c hc
  rcases List.mem_append.mp hc with hc | hc
  · have hdigit := isDigit_of_mem_toDigits hc
    refine decide_eq_true ?_
    rintro rfl
    exact absurd hdigit (by decide)
  · rw [List.mem_singleton.mp hc]
    decide

/-- The terminating zero ends the number. -/
theorem digitsValue_pidText (p : ℕ) : digitsValue (pidText p) = p := by
  have hdigits : (pidText p).takeWhile Char.isDigit = Nat.toDigits 10 p := by
    rw [pidText, List.takeWhile_append_of_pos fun _ hc => isDigit_of_mem_toDigits hc]
    simp
  rw [digitsValue, hdigits, Nat.ofDigitChars_ten_toDigits]

theorem isspace_of_isDigit {c : Char} (hdigit : c.isDigit = true) : isspace c = false := by
  simp only [Char.isDigit, Bool.and_eq_true, decide_eq_true_eq, ge_iff_le,
    UInt32.le_iff_toNat_le] at hdigit
  have hlow : 48 ≤ c.toNat := hdigit.1
  have hblank : c ≠ ' ' := by
    rintro rfl
    exact absurd hlow (by decide)
  simp [isspace, hblank]
  omega

/-- The number of a process, a positive `int`, is read as it was written. -/
theorem atoi_pidText {p : ℕ} (hp : p < 2 ^ 31) : atoi (firstLine (pidText p)) = p := by
  obtain ⟨first, rest, hdigits⟩ : ∃ first rest, Nat.toDigits 10 p = first :: rest :=
    List.exists_cons_of_ne_nil Nat.toDigits_ne_nil
  have hfirst : first.isDigit = true := isDigit_of_mem_toDigits (hdigits ▸ List.mem_cons_self)
  have htext : pidText p = first :: (rest ++ [Char.ofNat 0]) := by rw [pidText, hdigits]; rfl
  have hvalue := digitsValue_pidText p
  rw [firstLine_pidText, atoi, strtol]
  rw [htext] at hvalue ⊢
  rw [List.dropWhile_cons_of_neg (by simp [isspace_of_isDigit hfirst])]
  split
  next hminus =>
    -- a sign is no digit
    obtain ⟨rfl, -⟩ := List.cons.inj hminus
    exact absurd hfirst (by decide)
  next hplus =>
    obtain ⟨rfl, -⟩ := List.cons.inj hplus
    exact absurd hfirst (by decide)
  next =>
    rw [hvalue, Int.bmod_def]
    omega

/-! ## The number stays -/

/-- The name of the lock file is removed only while the file is not in use, and whoever is to write
its number there can. -/
def ClaimKept (s : System) : SystemEvent → Prop
  | .advance p ok => ∀ proc ∈ s.procs p,
      (proc.pc = .unlinkLock → LockUnused s) ∧ (proc.pc = .writePid → ok = true)
  | _ => True

instance (s : System) : ∀ event, Decidable (ClaimKept s event)
  | .advance p ok => inferInstanceAs (Decidable (∀ proc ∈ s.procs p,
      (proc.pc = .unlinkLock → LockUnused s) ∧ (proc.pc = .writePid → ok = true)))
  | .start _ _ _ | .fork _ _ _ | .answered _ | .signal _ _ | .halt _ | .crash _ =>
      inferInstanceAs (Decidable True)

theorem ClaimKept.quietUnlink {s : System} {event : SystemEvent} (hkept : ClaimKept s event) :
    QuietUnlink s event := by
  cases event with
  | advance p ok => exact fun proc hproc => (hkept proc hproc).1
  | _ => trivial

/-- A process in `daemon_main` has its number in the file behind its descriptor. -/
def PidsWritten (s : System) : Prop :=
  ∀ p proc, s.procs p = some proc → proc.pc.inDaemonMain = true →
    ∀ inode ∈ proc.lockFd, s.file.content inode = pidText p

theorem PidsWritten.put {s : System} (hwritten : PidsWritten s) (p : ℕ) {moved : Process}
    (hout : moved.pc.inDaemonMain = false) : PidsWritten (s.put p moved) := by
  intro q other hother hin
  rcases System.put_procs_cases hother with ⟨-, rfl⟩ | ⟨-, hbefore⟩
  · rw [hout] at hin
    cases hin
  · exact hwritten q other hbefore hin

structure PidInvariant (s : System) : Prop where
  lock : LockInvariant s
  written : PidsWritten s

namespace PidInvariant

variable {s next : System} {p : ℕ} {proc : Process} {ok : Bool}

theorem initial (stale : Option (List Char)) : PidInvariant (.initial stale) where
  lock := .initial stale
  written := fun _ _ hproc => by cases hproc

theorem lockPhase_eq_owning (hproc : s.procs p = some proc) (hstage : proc.pc.lockStage = .owning)
    {inode : ℕ} (hinode : inode ∈ proc.lockFd) : s.lockPhase p = .owning inode := by
  rw [LockInvariant.lockPhase_eq hproc, Process.lockPhase, hstage, Option.mem_def.mp hinode]

/-- Only the owner of the file writes into it. -/
theorem setContent_content (hinv : LockInvariant s) (hproc : s.procs p = some proc)
    (hstage : proc.pc.lockStage = .owning) {q inode : ℕ} (hq : s.lockPhase q = .owning inode)
    (hne : q ≠ p) (content : List Char) :
    (s.setContent proc content).file.content inode = s.file.content inode := by
  unfold System.setContent
  split
  next other hother =>
    have hp := lockPhase_eq_owning hproc hstage hother
    exact absurd (hinv.guarded.exclusive hq hp) hne
  next => rfl

/-- What a process does leaves the file of another owner alone. -/
theorem content_of_ne (hinv : LockInvariant s) (hproc : s.procs p = some proc)
    (hadvance : System.Advance s p proc ok next) {q inode : ℕ}
    (hq : s.lockPhase q = .owning inode) (hne : q ≠ p) :
    next.file.content inode = s.file.content inode := by
  cases hadvance with
  | opens =>
      have hname : s.file.name = some inode := by
        have howner := hinv.guarded q
        rw [hq] at howner
        exact howner.1
      exact congrFun (congrArg LockFile.content (s.file.openCreate_snd_of_name hname [])) inode
  | locks _ _ hlock => exact congrFun (s.file.setLock_content hlock) inode
  | truncates hpc =>
      exact setContent_content hinv hproc (by rw [hpc]; rfl) hq hne []
  | writesPid hpc hwritten =>
      rcases hwritten with rfl | rfl
      · rfl
      · exact setContent_content hinv hproc (by rw [hpc]; rfl) hq hne _
  | cleans | handlerCleans =>
      exact congrFun (congrArg LockFile.content (System.giveBack_file s _)) inode
  | unlocks => exact congrFun (s.unlock_content p proc) inode
  | closes => exact congrFun (s.closeLock_content p proc) inode
  | _ => rfl

/-- Without writing its number a process is in `daemon_main` only if it was there before. -/
theorem stayed (hadvance : System.Advance s p proc ok next) (hpc : proc.pc ≠ .writePid)
    {moved : Process} (hmoved : next.procs p = some moved) (hin : moved.pc.inDaemonMain = true) :
    proc.pc.inDaemonMain = true ∧ moved.lockFd = proc.lockFd ∧
      next.file.content = s.file.content := by
  have hself : ∀ {base : System} {other : Process}, (base.put p other).procs p = some moved →
      other.pc.lockStage = .owning ∧ other.pc.inDaemonMain = true := by
    intro base other hother
    rw [System.put_procs_self] at hother
    obtain rfl := Option.some.inj hother
    exact ⟨ProcessPc.lockStage_of_inDaemonMain hin, hin⟩
  cases hadvance with
  | serves hserves _ hlockFd =>
      rw [System.put_procs_self] at hmoved
      obtain rfl := Option.some.inj hmoved
      refine ⟨?_, hlockFd, rfl⟩
      rcases hserves with h | h <;> rw [h] <;> rfl
  | exits hnext | boots _ hnext | loads _ hnext | detaches _ hnext | closes _ hnext
  | unlinks _ hnext =>
      have hstage := (hself hmoved).1
      rw [hnext] at hstage
      cases hstage
  | finds | reads | initStep | powersOff | opens | locks | truncates | unlocks =>
      cases (hself hmoved).2
  | answers => exact absurd ((hself hmoved).1.symm.trans (proc.answer_lockStage _ _)) nofun
  | initFails | initialises =>
      exact absurd ((hself hmoved).1.symm.trans proc.afterInit_lockStage) nofun
  | shows =>
      have hstage := (hself hmoved).1
      rcases proc.afterBatteryLevel_cases with h | h <;> rw [Process.goto, h] at hstage <;>
        cases hstage
  | decides => exact absurd ((hself hmoved).1.symm.trans proc.decide_lockStage) nofun
  | cleans _ hafter | handlerCleans _ hafter =>
      have hstage := (hself hmoved).1
      rcases hafter with rfl | rfl <;> cases hstage
  | writesPid h => exact absurd h hpc
  | handles => exact absurd ((hself hmoved).1.symm.trans proc.handler_lockStage) nofun
  | deletes _ hnext =>
      have hstage := (hself hmoved).1
      rcases hnext with h | h | h <;> rw [h] at hstage <;> cases hstage
  | ends =>
      rw [System.remove_procs_self] at hmoved
      cases hmoved

/-- The processes and the file as they were, but for what process `p` did. -/
theorem of_advance (hinv : PidInvariant s) (hlock : LockInvariant next)
    (hproc : s.procs p = some proc) (hadvance : System.Advance s p proc ok next)
    (hself : ∀ moved, next.procs p = some moved → moved.pc.inDaemonMain = true →
      ∀ inode ∈ moved.lockFd, next.file.content inode = pidText p) : PidInvariant next where
  lock := hlock
  written := by
    intro q other hother hin inode hinode
    rcases eq_or_ne q p with rfl | hne
    · exact hself other hother hin inode hinode
    · rw [hadvance.procs_of_ne hne] at hother
      have howning := lockPhase_eq_owning hother (ProcessPc.lockStage_of_inDaemonMain hin) hinode
      rw [content_of_ne hinv.lock hproc hadvance howning hne]
      exact hinv.written q other hother hin inode hinode

theorem advance (hinv : PidInvariant s) (hproc : s.procs p = some proc)
    (hadvance : s.advance p proc ok = some next) (hkept : ClaimKept s (.advance p ok)) :
    PidInvariant next := by
  have hstep : System.Step s (.advance p ok) next := .advance hproc hadvance
  have hlock := hinv.lock.step hstep hkept.quietUnlink
  have hby := System.Advance.of_advance hadvance
  apply hinv.of_advance hlock hproc hby
  by_cases hpc : proc.pc = .writePid
  · -- the number is written now
    obtain rfl : ok = true := (hkept proc hproc).2 hpc
    simp only [System.advance, hpc, if_true, Option.some.injEq] at hadvance
    subst hadvance
    intro moved hmoved _ inode hinode
    rw [System.put_procs_self] at hmoved
    obtain rfl := Option.some.inj hmoved
    have hcontent : (s.setContent proc (pidText p)).file.content inode = pidText p := by
      have hlockFd : proc.lockFd = some inode := hinode
      unfold System.setContent
      rw [hlockFd]
      exact Function.update_self ..
    exact hcontent
  · intro moved hmoved hin inode hinode
    obtain ⟨hbefore, hlockFd, hcontent⟩ := stayed hby hpc hmoved hin
    rw [hcontent]
    exact hinv.written p proc hproc hbefore inode (hlockFd ▸ hinode)

theorem step {event : SystemEvent} (hinv : PidInvariant s)
    (hstep : systemMachine.step s event = some next) (hkept : ClaimKept s event) :
    PidInvariant next := by
  have hlock := hinv.lock.step (.of_step hstep) hkept.quietUnlink
  cases System.Step.of_step hstep with
  | start | forkFailed | handled => exact ⟨hlock, hinv.written.put _ rfl⟩
  | advance hproc hadvance => exact hinv.advance hproc hadvance hkept
  | forked _ _ hpc =>
      refine ⟨hlock, (hinv.written.put _ ?_).put _ rfl⟩
      rcases hpc with ⟨-, rfl⟩ | ⟨-, rfl⟩ <;> rfl
  | @answered _ proc =>
      refine ⟨hlock, hinv.written.put _ ?_⟩
      rcases proc.afterBatteryLevel_cases with h | h <;> rw [h] <;> rfl
  | terminated | crash =>
      exact ⟨hlock, fun q other hother => hinv.written q other (System.procs_of_remove hother)⟩
  | ignored => exact hinv
  | @halt _ proc =>
      refine ⟨hlock, hinv.written.put _ ?_⟩
      rcases proc.deleteRocpmd_pc with ⟨h, _⟩ | ⟨h, _⟩ <;> rw [h] <;> rfl

/-- The name of the lock file leads to the file of a daemon, which holds its number and lock. -/
theorem owned (hinv : PidInvariant s) (hin : s.InDaemonMain p) :
    ∃ inode, s.file.name = some inode ∧ s.file.holder inode = some p ∧
      s.file.content inode = pidText p := by
  obtain ⟨inode, howning⟩ := hinv.lock.owning_of_inDaemonMain hin
  obtain ⟨proc, hproc, hpc⟩ := hin
  obtain ⟨hname, hheld⟩ : s.file.name = some inode ∧ s.file.holder inode = some p := by
    have hguarded := hinv.lock.guarded p
    rwa [howning] at hguarded
  refine ⟨inode, hname, hheld, hinv.written p proc hproc hpc inode ?_⟩
  rw [LockInvariant.lockPhase_eq hproc, Process.lockPhase,
    ProcessPc.lockStage_of_inDaemonMain hpc] at howning
  cases hfd : proc.lockFd with
  | none => simp [hfd] at howning
  | some other => simpa [hfd] using howning

end PidInvariant

end Rocpmd

import Rocpmd.Foundation.LockFile

/-!
# Exclusion by a lock file

Owners open the path, ask for the lock of the inode they got, and own the path while they hold it.
Since the lock belongs to the inode and the path names only one, owning excludes, as long as the
name is removed only while no one is between opening the file and giving it up.
-/

namespace Foundation

/-- How far an owner has got with the lock file. -/
inductive LockPhase
  | outside
  | opened (inode : ℕ)
  | owning (inode : ℕ)
deriving DecidableEq, Repr

variable {Owner Content : Type*}

namespace LockPhase

/-- The path names the inode that was opened, and an owning owner holds its lock. -/
def Holds (file : LockFile Owner Content) (owner : Owner) : LockPhase → Prop
  | outside => True
  | opened inode => file.name = some inode
  | owning inode => file.name = some inode ∧ file.holder inode = some owner

end LockPhase

/-- Everyone's phase holds. -/
def Guarded (file : LockFile Owner Content) (phase : Owner → LockPhase) : Prop :=
  ∀ owner, (phase owner).Holds file owner

namespace Guarded

variable {file : LockFile Owner Content} {phase : Owner → LockPhase}

/-- At most one owner owns the path. -/
theorem exclusive (hguarded : Guarded file phase) {left right : Owner} {first second : ℕ}
    (hleft : phase left = .owning first) (hright : phase right = .owning second) :
    left = right := by
  have hfirst := hguarded left
  have hsecond := hguarded right
  rw [hleft] at hfirst
  rw [hright] at hsecond
  obtain rfl : first = second := Option.some.inj (hfirst.1.symm.trans hsecond.1)
  exact Option.some.inj (hfirst.2.symm.trans hsecond.2)

/-- A change that keeps the name, and every lock but those of owners outside. -/
theorem of_kept (hguarded : Guarded file phase) {next : LockFile Owner Content}
    (hname : next.name = file.name)
    (hholder : ∀ owner inode, phase owner ≠ .outside → file.holder inode = some owner →
      next.holder inode = some owner) : Guarded next phase := by
  intro owner
  have howner := hguarded owner
  cases hphase : phase owner with
  | outside => trivial
  | opened inode =>
      rw [hphase] at howner
      exact hname.trans howner
  | owning inode =>
      rw [hphase] at howner
      exact ⟨hname.trans howner.1, hholder owner inode (by simp [hphase]) howner.2⟩

theorem write (hguarded : Guarded file phase) (inode : ℕ) (content : Content) :
    Guarded (file.write inode content) phase :=
  hguarded.of_kept rfl fun _ _ _ hheld => hheld

/-- The name can go once everyone is outside. -/
theorem unlink (hall : ∀ owner, phase owner = .outside) : Guarded file.unlink phase := by
  intro owner
  rw [hall owner]
  trivial

variable [DecidableEq Owner]

/-- Steps of one owner that leave the file alone. -/
theorem leave (hguarded : Guarded file phase) (owner : Owner) :
    Guarded file (Function.update phase owner .outside) := by
  intro other
  rcases eq_or_ne other owner with rfl | hne
  · rw [Function.update_self]
    trivial
  · rw [Function.update_of_ne hne]
    exact hguarded other

theorem openCreate (hguarded : Guarded file phase) (owner : Owner) (empty : Content) :
    Guarded (file.openCreate empty).2
      (Function.update phase owner (.opened (file.openCreate empty).1)) := by
  intro other
  rcases eq_or_ne other owner with rfl | hne
  · rw [Function.update_self]
    exact file.openCreate_name empty
  · rw [Function.update_of_ne hne]
    have hother := hguarded other
    -- whoever is not outside keeps the path linked, so the open creates nothing
    have hname : ∀ inode, file.name = some inode →
        (file.openCreate empty).2.name = some inode := by
      intro inode hinode
      rw [file.openCreate_name, file.openCreate_fst_of_name hinode]
    cases hphase : phase other with
    | outside => trivial
    | opened inode =>
        rw [hphase] at hother
        exact hname inode hother
    | owning inode =>
        rw [hphase] at hother
        exact ⟨hname inode hother.1, by rw [file.openCreate_holder]; exact hother.2⟩

theorem setLock (hguarded : Guarded file phase) {owner : Owner} {inode : ℕ}
    {next : LockFile Owner Content} (hphase : phase owner = .opened inode)
    (hlock : file.setLock owner inode = some next) :
    Guarded next (Function.update phase owner (.owning inode)) := by
  obtain ⟨hfree, hname, hholder⟩ := file.setLock_some hlock
  have howner := hguarded owner
  rw [hphase] at howner
  intro other
  rcases eq_or_ne other owner with rfl | hne
  · rw [Function.update_self]
    exact ⟨hname.trans howner, by rw [hholder, Function.update_self]⟩
  · rw [Function.update_of_ne hne]
    have hother := hguarded other
    cases hphase' : phase other with
    | outside => trivial
    | opened inode' =>
        rw [hphase'] at hother
        exact hname.trans hother
    | owning inode' =>
        rw [hphase'] at hother
        -- another owner of the path would hold the very lock that was granted
        obtain rfl : inode' = inode := Option.some.inj (hother.1.symm.trans howner)
        rcases hfree with hfree | hfree
        · rw [hother.2] at hfree
          cases hfree
        · rw [hother.2] at hfree
          exact absurd (Option.some.inj hfree) hne

theorem unlock (hguarded : Guarded file phase) {owner : Owner} (hout : phase owner = .outside)
    (inode : ℕ) : Guarded (file.unlock owner inode) phase := by
  apply hguarded.of_kept
  · rfl
  · intro other target hphase hheld
    exact file.unlock_holder_of_ne (by rintro rfl; exact hphase hout) inode target hheld

theorem dropAll (hguarded : Guarded file phase) {owner : Owner} (hout : phase owner = .outside) :
    Guarded (file.dropAll owner) phase := by
  apply hguarded.of_kept
  · rfl
  · intro other target hphase hheld
    exact file.dropAll_holder_of_ne (by rintro rfl; exact hphase hout) target hheld

end Guarded

end Foundation

import Mathlib.Logic.Function.Basic
import Mathlib.Tactic.Common

/-!
# A lock file

One path name, the inodes it has named, and a whole-file write lock on each of them. Locks and
contents belong to inodes: removing the name leaves both alone, and the next process that opens the
path with `O_CREAT` gets a fresh inode.
-/

namespace Foundation

structure LockFile (Owner Content : Type*) where
  name : Option ℕ
  nextInode : ℕ
  holder : ℕ → Option Owner
  content : ℕ → Content
  name_lt : ∀ inode, name = some inode → inode < nextInode
  fresh_free : ∀ inode, nextInode ≤ inode → holder inode = none

namespace LockFile

variable {Owner Content : Type*}

/-- `open(path, O_CREAT)`: the inode named by the path, a new and empty one if there is none. -/
def openCreate (file : LockFile Owner Content) (empty : Content) : ℕ × LockFile Owner Content :=
  match hname : file.name with
  | some inode => (inode, file)
  | none => (file.nextInode,
      { name := some file.nextInode
        nextInode := file.nextInode + 1
        holder := file.holder
        content := Function.update file.content file.nextInode empty
        name_lt := by rintro inode ⟨⟩; exact Nat.lt_succ_self _
        fresh_free := fun inode hle => file.fresh_free inode (Nat.le_of_succ_le hle) })

variable [DecidableEq Owner]

/-- A request for the write lock: refused while another owner holds it. A descriptor only refers to
an inode that exists, so the bound turns no real request away. -/
def setLock (file : LockFile Owner Content) (owner : Owner) (inode : ℕ) :
    Option (LockFile Owner Content) :=
  if hfree : inode < file.nextInode ∧
      (file.holder inode = none ∨ file.holder inode = some owner) then
    some { file with
      holder := Function.update file.holder inode (some owner)
      fresh_free := by
        intro other hle
        rw [Function.update_of_ne (by omega)]
        exact file.fresh_free other hle }
  else none

/-- Drop the owner's lock on the inode; the locks of other owners stay. -/
def unlock (file : LockFile Owner Content) (owner : Owner) (inode : ℕ) : LockFile Owner Content :=
  { file with
    holder := fun other =>
      if other = inode ∧ file.holder other = some owner then none else file.holder other
    fresh_free := by
      intro other hle
      rw [file.fresh_free other hle]
      simp }

/-- The end of a process: the kernel drops every lock it holds. -/
def dropAll (file : LockFile Owner Content) (owner : Owner) : LockFile Owner Content :=
  { file with
    holder := fun inode => if file.holder inode = some owner then none else file.holder inode
    fresh_free := by
      intro inode hle
      rw [file.fresh_free inode hle]
      simp }

omit [DecidableEq Owner] in
/-- Remove the name. Inodes, their contents and their locks are untouched. -/
def unlink (file : LockFile Owner Content) : LockFile Owner Content :=
  { file with name := none, name_lt := by rintro inode ⟨⟩ }

omit [DecidableEq Owner] in
def write (file : LockFile Owner Content) (inode : ℕ) (content : Content) :
    LockFile Owner Content :=
  { file with content := Function.update file.content inode content }

/-! ## Effects of the operations -/

section Effects

variable (file : LockFile Owner Content)

omit [DecidableEq Owner] in
theorem openCreate_name (empty : Content) :
    (file.openCreate empty).2.name = some (file.openCreate empty).1 := by
  unfold openCreate
  split
  next inode hname => exact hname
  next => rfl

omit [DecidableEq Owner] in
@[simp] theorem openCreate_holder (empty : Content) :
    (file.openCreate empty).2.holder = file.holder := by
  unfold openCreate
  split <;> rfl

omit [DecidableEq Owner] in
/-- Opening a linked path leaves the name where it is. -/
theorem openCreate_fst_of_name {inode : ℕ} (hname : file.name = some inode) (empty : Content) :
    (file.openCreate empty).1 = inode := by
  unfold openCreate
  split
  next other hother => exact Option.some.inj (hother.symm.trans hname)
  next hnone => rw [hnone] at hname; cases hname

omit [DecidableEq Owner] in
theorem openCreate_snd_of_name {inode : ℕ} (hname : file.name = some inode) (empty : Content) :
    (file.openCreate empty).2 = file := by
  unfold openCreate
  split
  next => rfl
  next hnone => rw [hnone] at hname; cases hname

omit [DecidableEq Owner] in
theorem openCreate_nextInode_le (empty : Content) :
    file.nextInode ≤ (file.openCreate empty).2.nextInode := by
  unfold openCreate
  split
  next => exact Nat.le_refl _
  next => exact Nat.le_succ _

omit [DecidableEq Owner] in
/-- A file that is created is empty. -/
theorem openCreate_content_of_none (hname : file.name = none) (empty : Content) :
    (file.openCreate empty).2.content (file.openCreate empty).1 = empty := by
  unfold openCreate
  split
  next hother => rw [hother] at hname; cases hname
  next => exact Function.update_self ..

/-- A lock that no one holds is granted. -/
theorem exists_setLock {inode : ℕ} (hfree : file.holder inode = none)
    (hlt : inode < file.nextInode) (owner : Owner) :
    ∃ next, file.setLock owner inode = some next :=
  ⟨_, dif_pos ⟨hlt, .inl hfree⟩⟩

theorem setLock_content {owner : Owner} {inode : ℕ} {next : LockFile Owner Content}
    (hlock : file.setLock owner inode = some next) : next.content = file.content := by
  unfold setLock at hlock
  split at hlock
  next =>
    obtain rfl := Option.some.inj hlock
    rfl
  next => cases hlock

/-- A granted lock was free or already the owner's, and nothing but its holder changes. -/
theorem setLock_some {owner : Owner} {inode : ℕ} {next : LockFile Owner Content}
    (hlock : file.setLock owner inode = some next) :
    (file.holder inode = none ∨ file.holder inode = some owner) ∧
      next.name = file.name ∧
      next.holder = Function.update file.holder inode (some owner) := by
  unfold setLock at hlock
  split at hlock
  next hfree =>
    obtain rfl := Option.some.inj hlock
    exact ⟨hfree.2, rfl, rfl⟩
  next => cases hlock

/-- No one gains a lock when an owner drops one. -/
theorem unlock_holder_of_ne {owner other : Owner} (hne : other ≠ owner) (inode target : ℕ)
    (hheld : file.holder target = some other) :
    (file.unlock owner inode).holder target = some other := by
  simp [unlock, hheld, hne]

theorem dropAll_holder_of_ne {owner other : Owner} (hne : other ≠ owner) (target : ℕ)
    (hheld : file.holder target = some other) :
    (file.dropAll owner).holder target = some other := by
  simp [dropAll, hheld, hne]

/-- An owner without a lock drops nothing. -/
theorem unlock_of_not_held {owner : Owner} (hfree : ∀ inode, file.holder inode ≠ some owner)
    (inode : ℕ) : file.unlock owner inode = file := by
  have hholder : (file.unlock owner inode).holder = file.holder := by
    funext other
    exact if_neg fun h => hfree other h.2
  rw [unlock] at hholder ⊢
  congr

theorem dropAll_of_not_held {owner : Owner} (hfree : ∀ inode, file.holder inode ≠ some owner) :
    file.dropAll owner = file := by
  have hholder : (file.dropAll owner).holder = file.holder := by
    funext other
    exact if_neg (hfree other)
  rw [dropAll] at hholder ⊢
  congr

end Effects

end LockFile

end Foundation

import Mathlib.Data.Finset.Insert
import Mathlib.Data.List.Range
import Mathlib.Tactic.Common

/-!
# Descriptor allocation

POSIX hands out the lowest descriptor that is not open, below a per-process limit.
-/

namespace Foundation

/-- The descriptor the next open, accept or dup returns; none once all below the limit are open. -/
def lowestFree (limit : ℕ) (descriptors : Finset ℕ) : Option ℕ :=
  (List.range limit).find? fun fd => decide (fd ∉ descriptors)

theorem lowestFree_notMem {limit fd : ℕ} {descriptors : Finset ℕ}
    (hfree : lowestFree limit descriptors = some fd) : fd ∉ descriptors := by
  have hfound := List.find?_some hfree
  simpa using hfound

theorem lowestFree_lt {limit fd : ℕ} {descriptors : Finset ℕ}
    (hfree : lowestFree limit descriptors = some fd) : fd < limit :=
  List.mem_range.mp (List.mem_of_find?_eq_some hfree)

/-! ## Tables -/

/-- What each descriptor of a process refers to, if it is open. -/
abbrev DescriptorTable (File : Type*) := ℕ → Option File

namespace DescriptorTable

variable {File : Type*}

/-- `close`; for a descriptor that is not open it fails and changes nothing. -/
def close (table : DescriptorTable File) (fd : ℕ) : DescriptorTable File :=
  Function.update table fd none

/-- The lowest descriptor from `least` on that is not open. -/
def lowestFrom (table : DescriptorTable File) (limit least : ℕ) : Option ℕ :=
  (List.range limit).find? fun fd => decide (least ≤ fd ∧ table fd = none)

/-- A call that returns a new descriptor for a file, if there is one to return. -/
def allocate (table : DescriptorTable File) (limit least : ℕ) (file : File) :
    Option (ℕ × DescriptorTable File) :=
  (table.lowestFrom limit least).map fun fd => (fd, Function.update table fd (some file))

/-- The table after a call whose new descriptor is not looked at. -/
def open_ (table : DescriptorTable File) (limit : ℕ) (file : File) : DescriptorTable File :=
  ((table.allocate limit 0 file).map Prod.snd).getD table

/-- `fcntl(fd, F_DUPFD, least)`; it fails if the descriptor is not open. -/
def dupFd (table : DescriptorTable File) (limit fd least : ℕ) : DescriptorTable File :=
  match table fd with
  | none => table
  | some file => ((table.allocate limit least file).map Prod.snd).getD table

section Allocate

variable {table next : DescriptorTable File} {limit least fd : ℕ} {file : File}

theorem lowestFrom_spec (hfree : table.lowestFrom limit least = some fd) :
    least ≤ fd ∧ fd < limit ∧ table fd = none := by
  have hfound := List.find?_some hfree
  have hrange := List.mem_range.mp (List.mem_of_find?_eq_some hfree)
  have hfd : least ≤ fd ∧ table fd = none := of_decide_eq_true hfound
  exact ⟨hfd.1, hrange, hfd.2⟩

/-- What a call that returned a descriptor has done. -/
theorem allocate_spec (halloc : table.allocate limit least file = some (fd, next)) :
    least ≤ fd ∧ fd < limit ∧ table fd = none ∧ next = Function.update table fd (some file) := by
  obtain ⟨found, hfree, hpair⟩ := Option.map_eq_some_iff.mp halloc
  obtain ⟨rfl, rfl⟩ := Prod.mk.inj hpair
  obtain ⟨hleast, hlimit, hnone⟩ := lowestFrom_spec hfree
  exact ⟨hleast, hlimit, hnone, rfl⟩

/-- A free descriptor is returned if those below it are all open. -/
theorem allocate_eq (hleast : least ≤ fd)
    (hbelow : ∀ lower < fd, least ≤ lower → table lower ≠ none) (hfree : table fd = none)
    (hlimit : fd < limit) (file : File) :
    table.allocate limit least file = some (fd, Function.update table fd (some file)) := by
  have hfound : table.lowestFrom limit least = some fd := by
    rw [lowestFrom, List.find?_range_eq_some]
    refine ⟨decide_eq_true ⟨hleast, hfree⟩, List.mem_range.mpr hlimit, ?_⟩
    intro lower hlower
    rw [Bool.not_eq_true', decide_eq_false_iff_not]
    exact fun h => hbelow lower hlower h.1 h.2
  rw [allocate, hfound]
  rfl

/-- The descriptor the search starts from is returned if it is free and below the limit; if it is
not below the limit, none is. -/
theorem allocate_of_free (hfree : table least = none) (limit : ℕ) (file : File) :
    table.allocate limit least file =
      if least < limit then some (least, Function.update table least (some file)) else none := by
  split_ifs with hlimit
  · exact allocate_eq le_rfl (fun lower hlower hle => absurd hlower (Nat.not_lt.mpr hle)) hfree
      hlimit file
  · have hnone : table.lowestFrom limit least = none := by
      rw [lowestFrom, List.find?_range_eq_none]
      intro lower hlower
      simp only [Bool.not_eq_true', decide_eq_false_iff_not]
      omega
    rw [allocate, hnone]
    rfl

theorem open_of_free (hfree : table 0 = none) (limit : ℕ) (file : File) :
    table.open_ limit file =
      if 0 < limit then Function.update table 0 (some file) else table := by
  rw [open_, allocate_of_free hfree]
  split_ifs <;> rfl

theorem dupFd_of_free (hsource : table fd = some file) (hfree : table least = none) (limit : ℕ) :
    table.dupFd limit fd least =
      if least < limit then Function.update table least (some file) else table := by
  unfold dupFd
  rw [hsource]
  dsimp only
  rw [allocate_of_free hfree]
  split_ifs <;> rfl

theorem dupFd_of_closed (hclosed : table fd = none) (limit least : ℕ) :
    table.dupFd limit fd least = table := by
  unfold dupFd
  rw [hclosed]

end Allocate

/-- Closing the descriptors one by one up to a bound closes those below it and no other. -/
theorem foldl_close (table : DescriptorTable File) (bound fd : ℕ) :
    (List.range bound).foldl close table fd = if fd < bound then none else table fd := by
  induction bound with
  | zero => rfl
  | succ bound ih =>
      rw [List.range_succ, List.foldl_append, List.foldl_cons, List.foldl_nil, close]
      rcases eq_or_ne fd bound with rfl | hne
      · rw [Function.update_self, if_pos (Nat.lt_succ_self fd)]
      · rw [Function.update_of_ne hne, ih]
        have hiff : fd < bound ↔ fd < bound + 1 := by omega
        simp only [hiff]

/-- The open descriptors decide which one is the lowest that is free. -/
theorem lowestFrom_zero (table : DescriptorTable File) (limit : ℕ) {descriptors : Finset ℕ}
    (hopen : ∀ fd, fd ∈ descriptors ↔ table fd ≠ none) :
    table.lowestFrom limit 0 = lowestFree limit descriptors := by
  have hsame : (fun fd => decide (0 ≤ fd ∧ table fd = none)) =
      fun fd => decide (fd ∉ descriptors) := by
    funext fd
    rw [decide_eq_decide, hopen fd, not_not]
    exact and_iff_right (Nat.zero_le fd)
  rw [lowestFrom, hsame, lowestFree]

end DescriptorTable

end Foundation

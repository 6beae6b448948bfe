import Mathlib.Data.List.Basic
import Mathlib.Tactic.Common

/-!
# The check for the board

`is_board_installed` looks at two files of the device tree. It compares the characters that a file
and the expected string both have, so whatever follows the expected string is not looked at.
-/

namespace Rocpmd

/-- A file below `/proc/device-tree`, as `access` finds it, with its bytes if it can be read. -/
inductive DeviceTreeFile
  | missing
  | unreadable
  | readable (bytes : List UInt8)
deriving DecidableEq, Repr

namespace DeviceTreeFile

def bytes : DeviceTreeFile → List UInt8
  | readable bytes => bytes
  | _ => []

/-- The file exists and can be read. -/
def isReadable : DeviceTreeFile → Bool
  | readable _ => true
  | _ => false

/-- `getline`, which stops before a newline, and `string = string.c_str()`, which stops before a
NUL. -/
def firstString (file : DeviceTreeFile) : List UInt8 :=
  (file.bytes.takeWhile (· ≠ 10)).takeWhile (· ≠ 0)

end DeviceTreeFile

/-- The bytes of a string literal. -/
def literalBytes (text : String) : List UInt8 := text.toList.map fun c => .ofNat c.toNat

def vendorExpected : List UInt8 := literalBytes "Red Oak Canyon LLC"
def productIdExpected : List UInt8 := literalBytes "0x0001"

/-- `found.compare(0, min(found.length(), expected.length()), expected) == 0`. -/
def comparesEqual (found expected : List UInt8) : Bool :=
  let length := min found.length expected.length
  compare (found.take length) expected == .eq

def isBoardInstalled (vendorFile productIdFile : DeviceTreeFile) : Bool :=
  if vendorFile = .missing then false
  else if vendorFile = .unreadable then false
  else if productIdFile = .missing then false
  else if productIdFile = .unreadable then false
  else if comparesEqual vendorFile.firstString vendorExpected = false then false
  else if comparesEqual productIdFile.firstString productIdExpected = false then false
  else true

/-- The files of the board: nothing shorter or longer will do. -/
structure DescribesBoard (vendorFile productIdFile : DeviceTreeFile) : Prop where
  vendorReadable : vendorFile.isReadable = true
  productIdReadable : productIdFile.isReadable = true
  vendor : vendorFile.firstString = vendorExpected
  productId : productIdFile.firstString = productIdExpected

/-- A string compares equal if it begins with the expected one. -/
theorem comparesEqual_iff (found expected : List UInt8) :
    comparesEqual found expected = true ↔ expected <+: found := by
  rw [comparesEqual, beq_iff_eq, Std.LawfulEqOrd.compare_eq_iff_eq]
  constructor
  · intro htake
    rw [← htake]
    exact List.take_prefix _ _
  · intro hbegins
    rw [Nat.min_eq_right hbegins.length_le]
    exact (List.prefix_iff_eq_take.mp hbegins).symm

theorem isBoardInstalled_eq_true_iff (vendorFile productIdFile : DeviceTreeFile) :
    isBoardInstalled vendorFile productIdFile = true ↔
      (vendorFile.isReadable = true ∧ productIdFile.isReadable = true) ∧
        vendorExpected <+: vendorFile.firstString ∧
        productIdExpected <+: productIdFile.firstString := by
  rw [← comparesEqual_iff, ← comparesEqual_iff]
  unfold isBoardInstalled
  cases vendorFile <;> cases productIdFile <;> simp [DeviceTreeFile.isReadable]

/-- **When only the right board is accepted.** The check is right about two files exactly if they
cannot both be read, or one does not begin with what is expected, or nothing follows it in
either. -/
theorem isBoardInstalled_right_iff (vendorFile productIdFile : DeviceTreeFile) :
    (isBoardInstalled vendorFile productIdFile = true ↔
        DescribesBoard vendorFile productIdFile) ↔
      (vendorFile.isReadable = true → productIdFile.isReadable = true →
        vendorExpected <+: vendorFile.firstString →
        productIdExpected <+: productIdFile.firstString →
        vendorFile.firstString.length = vendorExpected.length ∧
          productIdFile.firstString.length = productIdExpected.length) := by
  rw [isBoardInstalled_eq_true_iff]
  constructor
  · intro hiff hvendor hproductId hbegins hbegins'
    have hboard := hiff.mp ⟨⟨hvendor, hproductId⟩, hbegins, hbegins'⟩
    rw [hboard.vendor, hboard.productId]
    exact ⟨rfl, rfl⟩
  · intro hnothing
    constructor
    · rintro ⟨⟨hvendor, hproductId⟩, hbegins, hbegins'⟩
      obtain ⟨hlength, hlength'⟩ := hnothing hvendor hproductId hbegins hbegins'
      exact {
        vendorReadable := hvendor
        productIdReadable := hproductId
        vendor := (hbegins.eq_of_length hlength.symm).symm
        productId := (hbegins'.eq_of_length hlength'.symm).symm }
    · intro hboard
      rw [hboard.vendor, hboard.productId]
      exact ⟨⟨hboard.vendorReadable, hboard.productIdReadable⟩, List.prefix_refl _,
        List.prefix_refl _⟩

/-- The next product of the same vendor has an id that begins with that of the board. -/
theorem longer_product_id_accepted :
    ¬ (isBoardInstalled (.readable (vendorExpected ++ [0]))
        (.readable (literalBytes "0x00012" ++ [0])) = true ↔
      DescribesBoard (.readable (vendorExpected ++ [0]))
        (.readable (literalBytes "0x00012" ++ [0]))) := by
  intro hiff
  have hboard := hiff.mp (by decide +kernel)
  exact absurd hboard.productId (by decide +kernel)

end Rocpmd

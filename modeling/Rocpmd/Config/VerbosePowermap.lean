import Rocpmd.Config
import Rocpmd.Foundation.BracketedList

/-!
# The powermap in the verbose output

`verbose_print_config` prints the powermap in rows of eight. The end of a row is also where it
decides whether the list is over, so a list that ends inside a row is not closed.
-/

namespace Rocpmd

open Foundation

/-- `setw(width)` before a number: blanks to its left. -/
def setw (width : ℕ) (text : List Char) : List Char := text.leftpad width ' '

namespace Config

variable (conf : Config)

/-- `get_powermap_size` makes an `unsigned int` of the length. -/
def getPowermapSizeUnsigned : ℕ := conf.getPowermapSize % 4294967296

/-- `get_powermap_element_at` makes an `int` of the index, and from 2147483648 on a negative one.
There is nothing to read before a vector. -/
def getPowermapElementAtInt (i : ℕ) : Option Int :=
  if i < 2147483648 then some (conf.getPowermapElementAt i) else none

end Config

def wrapAt : ℕ := 7

/-- What a turn of the loop writes, and the counter `j` after it. -/
def printPowermapElement (size i j : ℕ) (element : Int) : List Char × ℕ :=
  let shown := setw 3 (decimal.numeral element)
  if j = wrapAt then
    if i < size - 1 then (shown ++ ",".toList ++ "\n            ".toList, 0)
    else (shown ++ " ]\n".toList, 0)
  else (shown ++ ",".toList, j + 1)

/-- A turn of the loop, on the text so far and the counter `j`. -/
def printPowermapTurn (conf : Config) (state : List Char × ℕ) (i : ℕ) :
    Option (List Char × ℕ) := do
  let element ← conf.getPowermapElementAtInt i
  let written := printPowermapElement conf.getPowermapSizeUnsigned i state.2 element
  some (state.1 ++ written.1, written.2)

def printPowermapTurns (conf : Config) (turns : ℕ) : Option (List Char × ℕ) :=
  (List.range turns).foldlM (printPowermapTurn conf) ("powermap: [ ".toList, 0)

/-- What `verbose_print_config` prints of the powermap. -/
def verbosePrintPowermap (conf : Config) : Option (List Char) :=
  (printPowermapTurns conf conf.getPowermapSizeUnsigned).map Prod.fst

theorem listing_unique {conf : Config} {first second : List Char}
    (hfirst : verbosePrintPowermap conf = some ("powermap: ".toList ++ first))
    (hsecond : verbosePrintPowermap conf = some ("powermap: ".toList ++ second)) :
    first = second :=
  List.append_cancel_left (Option.some.inj (hfirst.symm.trans hsecond))

/-- The text is the powermap as a bracketed list, and can be read back. -/
def PrintsWellFormed (conf : Config) : Prop :=
  ∃ listing, verbosePrintPowermap conf = some ("powermap: ".toList ++ listing) ∧
    decimal.Bracketed conf.powermap listing ∧
    decimal.readBracketed listing = some conf.powermap

/-! ## One turn -/

theorem setw_numeral (width : ℕ) (element : Int) :
    ∃ before, Blank before ∧
      setw width (decimal.numeral element) = before ++ decimal.numeral element :=
  ⟨_, blank_replicate _, rfl⟩

section Turn

variable {size i j : ℕ} {items : List Int} {listing : List Char}

/-- Except in the last place of a row and at the end of the list, a turn writes the element and a
comma. -/
theorem begun_printPowermapElement (hlisting : decimal.Begun items listing)
    (hmore : j = wrapAt → i < size - 1) (element : Int) :
    decimal.Begun (items ++ [element])
      (listing ++ (printPowermapElement size i j element).1) := by
  obtain ⟨before, hbefore, hsetw⟩ := setw_numeral 3 element
  unfold printPowermapElement
  dsimp only
  rw [hsetw]
  split_ifs with hwrap hlast
  · -- the line break and the indentation come before the next element
    have hbreak : Blank "\n            ".toList := by decide
    have hcomma := hlisting.comma element hbefore hbreak
    simpa using hcomma
  · exact absurd (hmore hwrap) hlast
  · have hcomma := hlisting.comma element hbefore (blank_replicate 0)
    simpa using hcomma

/-- In the last place of a row, at the end of the list, it writes the element and the bracket. -/
theorem bracketed_printPowermapElement (hlisting : decimal.Begun items listing)
    (hend : ¬ i < size - 1) (element : Int) :
    decimal.Bracketed (items ++ [element])
      (listing ++ (printPowermapElement size i wrapAt element).1) := by
  obtain ⟨before, hbefore, hsetw⟩ := setw_numeral 3 element
  have hbreak : Blank "\n".toList := by decide
  have hclose := hlisting.close element hbefore (blank_replicate 1) hbreak
  unfold printPowermapElement
  dsimp only
  rw [hsetw, if_pos rfl, if_neg hend]
  simpa using hclose

theorem printPowermapElement_counter (size i j : ℕ) (element : Int) (hj : j < 8) :
    (printPowermapElement size i j element).2 = (j + 1) % 8 := by
  unfold printPowermapElement
  dsimp only
  split_ifs with hwrap hlast
  · rw [hwrap]; rfl
  · rw [hwrap]; rfl
  · have hne : j ≠ 7 := hwrap
    change j + 1 = (j + 1) % 8
    omega

end Turn

/-! ## The loop -/

section Loop

variable (conf : Config)

theorem printPowermapTurns_succ (turns : ℕ) :
    printPowermapTurns conf (turns + 1) =
      (printPowermapTurns conf turns).bind fun state => printPowermapTurn conf state turns := by
  rw [printPowermapTurns, List.range_succ, List.foldlM_append]
  simp only [List.foldlM_cons, List.foldlM_nil, bind_pure]
  rfl

theorem printPowermapTurn_of_read {i : ℕ} {element : Int}
    (hread : conf.getPowermapElementAtInt i = some element) (text : List Char) (j : ℕ) :
    printPowermapTurn conf (text, j) i =
      some (text ++ (printPowermapElement conf.getPowermapSizeUnsigned i j element).1,
        (printPowermapElement conf.getPowermapSizeUnsigned i j element).2) := by
  rw [printPowermapTurn, hread]
  rfl

/-- Within the size and the range of an `int`, a turn reads the next element of the vector. -/
theorem exists_printedElement {i : ℕ} (hsize : i < conf.getPowermapSizeUnsigned)
    (hint : i < 2147483648) :
    ∃ element, conf.getPowermapElementAtInt i = some element ∧
      conf.powermap.take (i + 1) = conf.powermap.take i ++ [element] := by
  have hlength : i < conf.getPowermapSize := lt_of_lt_of_le hsize (Nat.mod_le _ _)
  refine ⟨conf.getPowermapElementAt i, if_pos hint, ?_⟩
  rw [List.take_add_one, conf.getPowermapElementAt_of_lt hlength]
  rfl

/-- Until a turn closes the list, the text is that of the elements so far, each with a comma, and
`j` is the place in the row. -/
theorem begun_printPowermapTurns {turns : ℕ} (hsize : turns ≤ conf.getPowermapSizeUnsigned)
    (hint : turns ≤ 2147483648)
    (hopen : turns < conf.getPowermapSizeUnsigned ∨ turns % 8 ≠ 0 ∨ turns = 0) :
    ∃ listing, printPowermapTurns conf turns =
        some ("powermap: ".toList ++ listing, turns % 8) ∧
      decimal.Begun (conf.powermap.take turns) listing := by
  induction turns with
  | zero => exact ⟨['[', ' '], rfl, Numerals.begun_nil (blank_replicate 1)⟩
  | succ turns ih =>
      obtain ⟨listing, hturns, hlisting⟩ := ih (by omega) (by omega) (.inl hsize)
      obtain ⟨element, hread, htake⟩ := exists_printedElement conf hsize hint
      have hmore : turns % 8 = wrapAt → turns < conf.getPowermapSizeUnsigned - 1 := by
        intro hwrap
        change turns % 8 = 7 at hwrap
        omega
      have hcounter := printPowermapElement_counter conf.getPowermapSizeUnsigned turns
        (turns % 8) element (Nat.mod_lt _ (by omega))
      refine ⟨listing ++ (printPowermapElement conf.getPowermapSizeUnsigned turns (turns % 8)
        element).1, ?_, ?_⟩
      · rw [printPowermapTurns_succ, hturns, Option.bind_some, printPowermapTurn_of_read conf hread,
          hcounter, List.append_assoc, Nat.mod_add_mod]
      · rw [htake]
        exact begun_printPowermapElement hlisting hmore element

/-- A list that ends with a row is closed. -/
theorem bracketed_printPowermapTurns (hint : conf.getPowermapSizeUnsigned ≤ 2147483648)
    (hpos : 0 < conf.getPowermapSizeUnsigned) (hrow : conf.getPowermapSizeUnsigned % 8 = 0) :
    ∃ listing, verbosePrintPowermap conf = some ("powermap: ".toList ++ listing) ∧
      decimal.Bracketed (conf.powermap.take conf.getPowermapSizeUnsigned) listing := by
  obtain ⟨last, hlast⟩ : ∃ last, conf.getPowermapSizeUnsigned = last + 1 :=
    ⟨_, (Nat.succ_pred_eq_of_pos hpos).symm⟩
  have hlt : last < conf.getPowermapSizeUnsigned := by omega
  have hlastInt : last < 2147483648 := by omega
  obtain ⟨listing, hturns, hlisting⟩ :=
    begun_printPowermapTurns conf hlt.le hlastInt.le (.inl hlt)
  obtain ⟨element, hread, htake⟩ := exists_printedElement conf hlt hlastInt
  have hwrap : last % 8 = wrapAt := by
    change last % 8 = 7
    omega
  have hend : ¬ last < conf.getPowermapSizeUnsigned - 1 := by omega
  refine ⟨listing ++ (printPowermapElement conf.getPowermapSizeUnsigned last wrapAt element).1,
    ?_, ?_⟩
  · rw [verbosePrintPowermap, hlast, printPowermapTurns_succ, hturns, Option.bind_some,
      printPowermapTurn_of_read conf hread, hwrap, Option.map_some, List.append_assoc, hlast]
  · rw [hlast, htake, ← hlast]
    exact bracketed_printPowermapElement hlisting hend element

/-- A list of another length is left open. -/
theorem begun_verbosePrintPowermap (hint : conf.getPowermapSizeUnsigned ≤ 2147483648)
    (hopen : conf.getPowermapSizeUnsigned % 8 ≠ 0 ∨ conf.getPowermapSizeUnsigned = 0) :
    ∃ listing, verbosePrintPowermap conf = some ("powermap: ".toList ++ listing) ∧
      decimal.Begun (conf.powermap.take conf.getPowermapSizeUnsigned) listing := by
  obtain ⟨listing, hturns, hlisting⟩ :=
    begun_printPowermapTurns conf le_rfl hint (.inr hopen)
  exact ⟨listing, by rw [verbosePrintPowermap, hturns, Option.map_some], hlisting⟩

/-- The loop runs into an index that is negative as an `int`. -/
theorem printPowermapTurns_beyond {turns : ℕ} (hturns : 2147483648 < turns) :
    printPowermapTurns conf turns = none := by
  induction turns, hturns using Nat.le_induction with
  | base =>
      rw [printPowermapTurns_succ, Option.bind_eq_none_iff]
      intro state _
      rw [printPowermapTurn, Config.getPowermapElementAtInt, if_neg (lt_irrefl _)]
      rfl
  | succ turns _ ih => rw [printPowermapTurns_succ, ih, Option.bind_none]

end Loop

/-- **When the verbose powermap is well formed.** It is if and only if the powermap fills its rows
of eight, has a row at all, and no more elements than an `int` can count. -/
theorem printsWellFormed_iff (conf : Config) :
    PrintsWellFormed conf ↔
      0 < conf.powermap.length ∧ conf.powermap.length % 8 = 0 ∧
        conf.powermap.length ≤ 2147483648 := by
  constructor
  · rintro ⟨listing, hprinted, hlisting, -⟩
    have hint : conf.getPowermapSizeUnsigned ≤ 2147483648 := by
      by_contra hbeyond
      rw [verbosePrintPowermap, printPowermapTurns_beyond conf (Nat.not_le.mp hbeyond)] at hprinted
      cases hprinted
    have hrows : ¬ (conf.getPowermapSizeUnsigned % 8 ≠ 0 ∨ conf.getPowermapSizeUnsigned = 0) := by
      intro hopen
      obtain ⟨other, hother, hbegun⟩ := begun_verbosePrintPowermap conf hint hopen
      obtain rfl := listing_unique hother hprinted
      exact hbegun.close_notMem hlisting.close_mem
    obtain ⟨hrow, hpos⟩ := not_or.mp hrows
    obtain ⟨other, hother, hbracketed⟩ :=
      bracketed_printPowermapTurns conf hint (Nat.pos_of_ne_zero hpos) (not_not.mp hrow)
    obtain rfl := listing_unique hother hprinted
    -- the text is that of the elements the loop counted, and so they are all
    have hall : conf.powermap.take conf.getPowermapSizeUnsigned = conf.powermap :=
      Option.some.inj (hbracketed.read.symm.trans hlisting.read)
    have hle : conf.powermap.length ≤ conf.getPowermapSizeUnsigned := by
      have hlength := congrArg List.length hall
      rw [List.length_take] at hlength
      omega
    have hsize : conf.getPowermapSizeUnsigned = conf.powermap.length :=
      le_antisymm (Nat.mod_le _ _) hle
    rw [hsize] at hint hrow hpos
    exact ⟨Nat.pos_of_ne_zero hpos, not_not.mp hrow, hint⟩
  · rintro ⟨hpos, hrow, hint⟩
    have hsize : conf.getPowermapSizeUnsigned = conf.powermap.length :=
      Nat.mod_eq_of_lt (lt_of_le_of_lt hint (by decide))
    obtain ⟨listing, hprinted, hlisting⟩ :=
      bracketed_printPowermapTurns conf (hsize ▸ hint) (hsize ▸ hpos) (hsize ▸ hrow)
    rw [hsize, List.take_length] at hlisting
    exact ⟨listing, hprinted, hlisting, hlisting.read⟩

/-- Two elements are printed with a comma behind each, and no bracket closes them. -/
theorem short_powermap_not_closed :
    verbosePrintPowermap { Config.shipped with powermap := [100, 96] } =
        some "powermap: [ 100, 96,".toList ∧
      ¬ PrintsWellFormed { Config.shipped with powermap := [100, 96] } := by
  have hprinted : verbosePrintPowermap { Config.shipped with powermap := [100, 96] } =
      some ("powermap: ".toList ++ "[ 100, 96,".toList) := by decide +kernel
  refine ⟨hprinted, ?_⟩
  rintro ⟨listing, hlisting, hbracketed, -⟩
  obtain rfl := listing_unique hprinted hlisting
  exact absurd hbracketed.close_mem (by decide)

example : (verbosePrintPowermap Config.shipped).bind
    (fun text => decimal.readBracketed (text.drop 10)) = some Config.shipped.powermap := by
  decide +kernel

end Rocpmd

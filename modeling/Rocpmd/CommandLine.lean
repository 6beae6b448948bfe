import Rocpmd.Foundation.Spelling
import Rocpmd.Instance.Process

/-!
# The command line

The options of the program, the constructor of `cmdline_options` that reads them, and what becomes
of every command line.
-/

namespace Rocpmd

open Foundation

/-- The members that the long options point to. -/
inductive CmdlineFlag
  | powerOffFlag | batteryLevelFlag | batteryLevelRawFlag | verboseFlag | helpFlag
deriving DecidableEq, Repr

/-- The private members of `cmdline_options`. -/
structure CommandLine where
  powerOffFlag : ℕ
  websocketFlag : ℕ
  berkleysocketFlag : ℕ
  batteryLevelFlag : ℕ
  batteryLevelRawFlag : ℕ
  verboseFlag : ℕ
  helpFlag : ℕ
  configPath : Word
deriving DecidableEq, Repr

/-- The ways in which the constructor ends the process. -/
inductive CommandLineEnd
  | exit | abort
deriving DecidableEq, Repr

/-- `"c:plrvh"` and `long_options`, where the name of the first one ends with a colon. -/
def cmdlineTable (posixlyCorrect : Bool) : OptionTable CmdlineFlag where
  short :=
    [('c', .argument), ('p', .nothing), ('l', .nothing), ('r', .nothing), ('v', .nothing),
      ('h', .nothing)]
  long :=
    [⟨"config-path:".toList, .argument, none, 'c'⟩,
      ⟨"power-off".toList, .nothing, some .powerOffFlag, 'p'⟩,
      ⟨"battery-level".toList, .nothing, some .batteryLevelFlag, 'l'⟩,
      ⟨"battery-level-raw".toList, .nothing, some .batteryLevelRawFlag, 'r'⟩,
      ⟨"verbose".toList, .nothing, some .verboseFlag, 'v'⟩,
      ⟨"help".toList, .nothing, some .helpFlag, 'h'⟩]
  short_ne_dash := by decide
  long_nodup := by decide
  posixlyCorrect := posixlyCorrect

namespace CommandLine

def initial : CommandLine where
  powerOffFlag := 0
  websocketFlag := 0
  berkleysocketFlag := 0
  batteryLevelFlag := 0
  batteryLevelRawFlag := 0
  verboseFlag := 0
  helpFlag := 0
  configPath := "/etc/rocpmd.conf".toList

/-- What `getopt_long` does by itself for an option with a flag. -/
def store (line : CommandLine) (val : ℕ) : CmdlineFlag → CommandLine
  | .powerOffFlag => { line with powerOffFlag := val }
  | .batteryLevelFlag => { line with batteryLevelFlag := val }
  | .batteryLevelRawFlag => { line with batteryLevelRawFlag := val }
  | .verboseFlag => { line with verboseFlag := val }
  | .helpFlag => { line with helpFlag := val }

/-- The body of the loop, for what is neither the end nor an error. `optarg` is there for `'c'`. -/
def handle (line : CommandLine) (found : Found CmdlineFlag) : Except CommandLineEnd CommandLine :=
  match found.flag with
  | some flag => .ok (line.store found.val.toNat flag)
  | none =>
      match found.val with
      | 'c' => .ok { line with configPath := found.optarg.getD [] }
      | 'p' => .ok { line with powerOffFlag := 1 }
      | 'h' => .ok { line with helpFlag := 1 }
      | 'l' => .ok { line with batteryLevelFlag := 1 }
      | 'r' => .ok { line with batteryLevelRawFlag := 1 }
      | 'v' => .ok { line with verboseFlag := 1 }
      | _ => .error .abort

/-- The constructor, on the words behind the name of the program. -/
def parse (posixlyCorrect : Bool) (args : List Word) : Except CommandLineEnd CommandLine :=
  (cmdlineTable posixlyCorrect).forOptions .exit handle initial ⟨[], args⟩

def isPowerOff (line : CommandLine) : Bool := line.powerOffFlag ≠ 0

def isWebsocket (line : CommandLine) : Bool := line.websocketFlag ≠ 0

def isBerkleysocket (line : CommandLine) : Bool := line.berkleysocketFlag ≠ 0

def isBatteryLevel (line : CommandLine) : Bool := line.batteryLevelFlag ≠ 0

def isBatteryLevelRaw (line : CommandLine) : Bool := line.batteryLevelRawFlag ≠ 0

def isVerbose (line : CommandLine) : Bool := line.verboseFlag ≠ 0

def isHelp (line : CommandLine) : Bool := line.helpFlag ≠ 0

/-- The member a long option points to. -/
def value (line : CommandLine) : CmdlineFlag → ℕ
  | .powerOffFlag => line.powerOffFlag
  | .batteryLevelFlag => line.batteryLevelFlag
  | .batteryLevelRawFlag => line.batteryLevelRawFlag
  | .verboseFlag => line.verboseFlag
  | .helpFlag => line.helpFlag

/-- What `main` and the daemon ask for. -/
def options (line : CommandLine) : CmdlineOptions where
  isPowerOff := line.isPowerOff
  isBatteryLevel := line.isBatteryLevel
  isBatteryLevelRaw := line.isBatteryLevelRaw
  isHelp := line.isHelp

end CommandLine

/-! ## What can be found -/

/-- The letter of the short option beside the long one. -/
def CmdlineFlag.letter : CmdlineFlag → Char
  | .powerOffFlag => 'p'
  | .batteryLevelFlag => 'l'
  | .batteryLevelRawFlag => 'r'
  | .verboseFlag => 'v'
  | .helpFlag => 'h'

/-- An option that is found sets one flag, in one of two ways, or the path. -/
inductive CmdlineFound : Found CmdlineFlag → Prop
  | short (flag : CmdlineFlag) : CmdlineFound ⟨none, flag.letter, none⟩
  | long (flag : CmdlineFlag) : CmdlineFound ⟨some flag, flag.letter, none⟩
  | path (path : Word) : CmdlineFound ⟨none, 'c', some path⟩

theorem fits_nothing {optarg : Option Word} (hfits : Fits .nothing optarg) : optarg = none := by
  cases optarg with
  | none => rfl
  | some path => exact absurd (hfits.mp rfl) (by decide)

theorem fits_argument {optarg : Option Word} (hfits : Fits .argument optarg) :
    ∃ path, optarg = some path :=
  Option.isSome_iff_exists.mp (hfits.mpr rfl)

theorem cmdlineFound_of_gives {posixlyCorrect : Bool} {found : Found CmdlineFlag}
    (hgives : (cmdlineTable posixlyCorrect).Gives found) : CmdlineFound found := by
  cases hgives with
  | @short c takes optarg htakes hfits =>
      obtain ⟨opt, hfind, rfl⟩ := Option.map_eq_some_iff.mp htakes
      have hmem := List.mem_of_find?_eq_some hfind
      have hletter : opt.1 = c := by simpa using List.find?_some hfind
      subst hletter
      simp only [cmdlineTable, List.mem_cons, List.not_mem_nil, or_false] at hmem
      rcases hmem with rfl | rfl | rfl | rfl | rfl | rfl
      · obtain ⟨path, rfl⟩ := fits_argument hfits
        exact .path path
      all_goals obtain rfl := fits_nothing hfits
      · exact .short .powerOffFlag
      · exact .short .batteryLevelFlag
      · exact .short .batteryLevelRawFlag
      · exact .short .verboseFlag
      · exact .short .helpFlag
  | @long opt optarg hmem hfits =>
      simp only [cmdlineTable, List.mem_cons, List.not_mem_nil, or_false] at hmem
      rcases hmem with rfl | rfl | rfl | rfl | rfl | rfl
      · obtain ⟨path, rfl⟩ := fits_argument hfits
        exact .path path
      all_goals obtain rfl := fits_nothing hfits
      · exact .long .powerOffFlag
      · exact .long .batteryLevelFlag
      · exact .long .batteryLevelRawFlag
      · exact .long .verboseFlag
      · exact .long .helpFlag

/-! ## What a command line means -/

namespace CommandLine

/-- The constructor's members behind an option that the loop knows. -/
def note (line : CommandLine) (found : Found CmdlineFlag) : CommandLine :=
  (line.handle found).toOption.getD line

variable {found : Found CmdlineFlag}

theorem handle_eq (hfound : CmdlineFound found) (line : CommandLine) :
    line.handle found = .ok (line.note found) := by
  cases hfound with
  | short flag => cases flag <;> rfl
  | long flag => cases flag <;> rfl
  | path path => rfl

theorem value_note (hfound : CmdlineFound found) (line : CommandLine) (flag : CmdlineFlag) :
    (line.note found).value flag ≠ 0 ↔ line.value flag ≠ 0 ∨ found.val = flag.letter := by
  cases hfound with
  | short set =>
      cases set <;> cases flag <;>
        simp [note, handle, value, CmdlineFlag.letter, Except.toOption]
  | long set =>
      cases set <;> cases flag <;>
        simp [note, handle, store, value, CmdlineFlag.letter, Except.toOption]
  | path path => cases flag <;> simp [note, handle, value, CmdlineFlag.letter, Except.toOption]

/-- The argument of an option that sets the path. -/
def pathOf (found : Found CmdlineFlag) : Option Word :=
  if found.val = 'c' then found.optarg else none

theorem configPath_note (hfound : CmdlineFound found) (line : CommandLine) :
    (line.note found).configPath = (pathOf found).getD line.configPath := by
  cases hfound with
  | short flag => cases flag <;> rfl
  | long flag => cases flag <;> rfl
  | path path => rfl

/-- No option sets these two. -/
theorem sockets_note (hfound : CmdlineFound found) (line : CommandLine) :
    (line.note found).websocketFlag = line.websocketFlag ∧
      (line.note found).berkleysocketFlag = line.berkleysocketFlag := by
  cases hfound with
  | short flag => cases flag <;> exact ⟨rfl, rfl⟩
  | long flag => cases flag <;> exact ⟨rfl, rfl⟩
  | path path => exact ⟨rfl, rfl⟩

/-- The path that stands last on the command line. -/
def lastPath (founds : List (Found CmdlineFlag)) : Option Word := (founds.filterMap pathOf).getLast?

/-- The members that the options of a command line stand for. -/
structure Means (founds : List (Found CmdlineFlag)) (line : CommandLine) : Prop where
  value : ∀ flag, line.value flag ≠ 0 ↔ ∃ found ∈ founds, found.val = flag.letter
  configPath : line.configPath = (lastPath founds).getD "/etc/rocpmd.conf".toList
  isWebsocket : line.isWebsocket = false
  isBerkleysocket : line.isBerkleysocket = false

theorem means_nil : Means [] initial where
  value flag := by cases flag <;> simp [value, initial]
  configPath := rfl
  isWebsocket := rfl
  isBerkleysocket := rfl

theorem Means.concat {founds : List (Found CmdlineFlag)} {line : CommandLine}
    (hmeans : Means founds line) (hfound : CmdlineFound found) :
    Means (founds ++ [found]) (line.note found) where
  value flag := by
    rw [value_note hfound, hmeans.value]
    simp [or_and_right, exists_or]
  configPath := by
    rw [configPath_note hfound, hmeans.configPath, lastPath, lastPath, List.filterMap_append]
    cases hpath : pathOf found <;> simp [hpath]
  isWebsocket := by
    rw [CommandLine.isWebsocket, (sockets_note hfound line).1]
    exact hmeans.isWebsocket
  isBerkleysocket := by
    rw [CommandLine.isBerkleysocket, (sockets_note hfound line).2]
    exact hmeans.isBerkleysocket

theorem means_foldl {founds : List (Found CmdlineFlag)}
    (hfounds : ∀ found ∈ founds, CmdlineFound found) :
    Means founds (founds.foldl note initial) := by
  induction founds using List.reverseRecOn with
  | nil => exact means_nil
  | append_singleton founds found ih =>
      rw [List.forall_mem_append] at hfounds
      rw [List.foldl_append]
      exact (ih hfounds.1).concat (hfounds.2 found (List.mem_singleton_self found))

variable {posixlyCorrect : Bool} {args : List Word}

theorem parse_eq (posixlyCorrect : Bool) (args : List Word) : parse posixlyCorrect args =
    ((cmdlineTable posixlyCorrect).options ⟨[], args⟩).elim (.error .exit)
      fun founds => .ok (founds.foldl note initial) := by
  have hbody : ∀ line found, (cmdlineTable posixlyCorrect).Gives found →
      handle line found = .ok (line.note found) :=
    fun line _ hgives => handle_eq (cmdlineFound_of_gives hgives) line
  rw [parse, OptionTable.forOptions_eq hbody]

theorem parse_of_spells {founds : List (Found CmdlineFlag)}
    (hspells : (cmdlineTable posixlyCorrect).Spells args founds) :
    parse posixlyCorrect args = .ok (founds.foldl note initial) := by
  rw [parse_eq, (OptionTable.options_eq_some_iff _ _).mpr hspells, Option.elim_some]

theorem means_of_spells {founds : List (Found CmdlineFlag)}
    (hspells : (cmdlineTable posixlyCorrect).Spells args founds) :
    Means founds (founds.foldl note initial) :=
  means_foldl fun found hfound => cmdlineFound_of_gives
    (OptionTable.gives_of_options ((OptionTable.options_eq_some_iff _ _).mpr hspells) found hfound)

/-- An accepted command line spells something. -/
theorem exists_spells_of_parse {line : CommandLine}
    (hparse : parse posixlyCorrect args = .ok line) :
    ∃ founds, (cmdlineTable posixlyCorrect).Spells args founds ∧
      founds.foldl note initial = line := by
  rw [parse_eq] at hparse
  cases hoptions : (cmdlineTable posixlyCorrect).options ⟨[], args⟩ with
  | none => rw [hoptions] at hparse; cases hparse
  | some founds =>
      rw [hoptions] at hparse
      cases hparse
      exact ⟨founds, (OptionTable.options_eq_some_iff _ _).mp hoptions, rfl⟩

/-- A command line that spells options is read for what it spells; any other ends the process with
an error, and none runs into the `abort`. -/
theorem parse_outcome (posixlyCorrect : Bool) (args : List Word) :
    (∃ founds line, (cmdlineTable posixlyCorrect).Spells args founds ∧
        parse posixlyCorrect args = .ok line ∧ Means founds line) ∨
      (∀ founds, ¬ (cmdlineTable posixlyCorrect).Spells args founds) ∧
        parse posixlyCorrect args = .error .exit := by
  cases hoptions : (cmdlineTable posixlyCorrect).options ⟨[], args⟩ with
  | some founds =>
      have hspells := (OptionTable.options_eq_some_iff _ _).mp hoptions
      exact .inl ⟨founds, _, hspells, parse_of_spells hspells, means_of_spells hspells⟩
  | none =>
      refine .inr ⟨fun founds hspells => ?_, by rw [parse_eq, hoptions, Option.elim_none]⟩
      rw [(OptionTable.options_eq_some_iff _ _).mpr hspells] at hoptions
      cases hoptions

/-! ## Longer command lines -/

theorem lastPath_append (founds others : List (Found CmdlineFlag)) :
    lastPath (founds ++ others) = (lastPath others).or (lastPath founds) := by
  rw [lastPath, List.filterMap_append, List.getLast?_append]
  rfl

/-- What is asked for in two parts, the second of which spells `others`: the flags of both, and the
path that the second sets, if it sets one. -/
structure Combines (others : List (Found CmdlineFlag)) (line added longer : CommandLine) :
    Prop where
  value : ∀ flag, longer.value flag ≠ 0 ↔ line.value flag ≠ 0 ∨ added.value flag ≠ 0
  configPath : longer.configPath = (lastPath others).getD line.configPath

theorem Means.append {founds others : List (Found CmdlineFlag)} {line added longer : CommandLine}
    (hline : Means founds line) (hadded : Means others added)
    (hlonger : Means (founds ++ others) longer) : Combines others line added longer where
  value flag := by
    rw [hlonger.value, hline.value, hadded.value]
    simp [or_and_right, exists_or]
  configPath := by
    rw [hlonger.configPath, hline.configPath, lastPath_append]
    cases lastPath others <;> rfl

/-- Words behind an accepted command line add what they ask for by themselves and take nothing back:
either the options had ended before them, or they are refused if they are refused alone, or the two
parts combine. -/
theorem parse_append {line : CommandLine} (hline : parse posixlyCorrect args = .ok line)
    (more : List Word) :
    ((cmdlineTable posixlyCorrect).Ends args ∧ parse posixlyCorrect (args ++ more) = .ok line) ∨
      (parse posixlyCorrect more = .error .exit ∧
        parse posixlyCorrect (args ++ more) = .error .exit) ∨
      ∃ others added longer, (cmdlineTable posixlyCorrect).Spells more others ∧
        parse posixlyCorrect more = .ok added ∧
        parse posixlyCorrect (args ++ more) = .ok longer ∧ Combines others line added longer := by
  obtain ⟨founds, hspells, rfl⟩ := exists_spells_of_parse hline
  rw [parse_eq, parse_eq]
  rcases hspells.options_append more with ⟨hends, hended⟩ | hmore
  · exact .inl ⟨hends, by rw [hended]; rfl⟩
  · rw [hmore]
    cases hothers : (cmdlineTable posixlyCorrect).options ⟨[], more⟩ with
    | none => exact .inr (.inl ⟨rfl, rfl⟩)
    | some others =>
        have hadded := (OptionTable.options_eq_some_iff _ _).mp hothers
        have hlonger : (cmdlineTable posixlyCorrect).Spells (args ++ more) (founds ++ others) :=
          (OptionTable.options_eq_some_iff _ _).mp (by rw [hmore, hothers]; rfl)
        exact .inr (.inr ⟨others, _, _, hadded, rfl, rfl,
          (means_of_spells hspells).append (means_of_spells hadded) (means_of_spells hlonger)⟩)

/-- `-p` is read, and a path behind it combines with it. -/
theorem parse_append_powerOff :
    parse false ["-p".toList] = .ok { initial with powerOffFlag := 1 } ∧
      (((cmdlineTable false).Ends ["-p".toList] ∧
          parse false (["-p".toList] ++ [['-', 'c', '/']]) =
            .ok { initial with powerOffFlag := 1 }) ∨
        (parse false [['-', 'c', '/']] = .error .exit ∧
          parse false (["-p".toList] ++ [['-', 'c', '/']]) = .error .exit) ∨
        ∃ others added longer, (cmdlineTable false).Spells [['-', 'c', '/']] others ∧
          parse false [['-', 'c', '/']] = .ok added ∧
          parse false (["-p".toList] ++ [['-', 'c', '/']]) = .ok longer ∧
          Combines others { initial with powerOffFlag := 1 } added longer) := by
  have hplain : (cmdlineTable false).Plain ['p'] := List.forall_mem_singleton.mpr rfl
  have hparse : parse false ["-p".toList] = .ok { initial with powerOffFlag := 1 } :=
    parse_of_spells (.cluster (List.cons_ne_nil 'p' []) (.plain [] hplain) .nil)
  exact ⟨hparse, parse_append hparse _⟩

end CommandLine

/-! ## Words that ask for something -/

/-- The name of the long option. -/
def CmdlineFlag.name : CmdlineFlag → Word
  | .powerOffFlag => "power-off".toList
  | .batteryLevelFlag => "battery-level".toList
  | .batteryLevelRawFlag => "battery-level-raw".toList
  | .verboseFlag => "verbose".toList
  | .helpFlag => "help".toList

/-- A word with the letter of the option behind one dash, or with the start of its name behind
two. -/
def Asks (flag : CmdlineFlag) (word : Word) : Prop :=
  (∃ letters, word = '-' :: letters ∧ letters.head? ≠ some '-' ∧ flag.letter ∈ letters) ∨
    ∃ name, name ≠ [] ∧ name <+: flag.name ∧ '-' :: '-' :: name <+: word

namespace CommandLine

/-- The options have no common name. -/
theorem name_ne_nil {posixlyCorrect : Bool} {name : Word} {opt : LongOption CmdlineFlag}
    (hnames : (cmdlineTable posixlyCorrect).Names name opt) : name ≠ [] := by
  rintro rfl
  obtain ⟨hmem, -, hname | ⟨-, hothers⟩⟩ := hnames
  · simp only [cmdlineTable, List.mem_cons, List.not_mem_nil, or_false] at hmem
    rcases hmem with rfl | rfl | rfl | rfl | rfl | rfl <;> cases hname
  · have hhelp := (hothers ⟨"help".toList, .nothing, some .helpFlag, 'h'⟩ (by simp [cmdlineTable])
      (List.nil_prefix)).2
    have hverbose := (hothers ⟨"verbose".toList, .nothing, some .verboseFlag, 'v'⟩
      (by simp [cmdlineTable]) (List.nil_prefix)).2
    exact absurd (hhelp.2.2.symm.trans hverbose.2.2) (by decide)

theorem asks_of_mentions {posixlyCorrect : Bool} {word : Word} {found : Found CmdlineFlag}
    {flag : CmdlineFlag} (hmentions : (cmdlineTable posixlyCorrect).Mentions word found)
    (hval : found.val = flag.letter) : Asks flag word := by
  rcases hmentions with ⟨letters, rfl, hhead, hmem⟩ | ⟨name, opt, hnames, hstart, heq⟩
  · exact .inl ⟨letters, rfl, hhead, hval ▸ hmem⟩
  · have hopt : opt.name = flag.name := by
      have hmem := hnames.1
      have hletter : opt.val = flag.letter := heq.symm.trans hval
      simp only [cmdlineTable, List.mem_cons, List.not_mem_nil, or_false] at hmem
      rcases hmem with rfl | rfl | rfl | rfl | rfl | rfl <;> cases flag <;>
        first | rfl | exact absurd hletter (by decide)
    have hshort : name <+: opt.name := by
      rcases hnames.2.2 with heq | ⟨hshort, -⟩
      · exact heq ▸ List.prefix_rfl
      · exact hshort
    exact .inr ⟨name, name_ne_nil hnames, hopt ▸ hshort, hstart⟩

/-- A flag is set only by a word that asks for it. -/
theorem exists_asks {posixlyCorrect : Bool} {args : List Word} {line : CommandLine}
    (hparse : parse posixlyCorrect args = .ok line) {flag : CmdlineFlag}
    (hset : line.value flag ≠ 0) : ∃ word ∈ args, Asks flag word := by
  obtain ⟨founds, hspells, rfl⟩ := exists_spells_of_parse hparse
  obtain ⟨found, hfound, hval⟩ := ((means_of_spells hspells).value flag).mp hset
  obtain ⟨word, hword, hmentions⟩ := hspells.exists_mentions found hfound
  exact ⟨word, hword, asks_of_mentions hmentions hval⟩

end CommandLine

end Rocpmd

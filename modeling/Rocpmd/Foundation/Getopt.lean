import Mathlib.Data.List.Nodup
import Mathlib.Tactic.Common

/-!
# Command lines with short and long options

`getopt_long` as a state machine on the words of a command line, and the loop around its calls.
Short options share a word; a long option may be abbreviated, and may carry its argument behind an
equals sign.
-/

namespace Foundation

abbrev Word := List Char

/-- What an option is followed by. -/
inductive Takes
  | nothing | argument
deriving DecidableEq, Repr

/-- An option with a `flag` stores `val` there; one without returns `val`. -/
structure LongOption (ν : Type*) where
  name : Word
  takes : Takes
  flag : Option ν
  val : Char
deriving DecidableEq

/-- What one call delivers. -/
structure Found (ν : Type*) where
  flag : Option ν
  val : Char
  optarg : Option Word
deriving DecidableEq

namespace LongOption

variable {ν : Type*}

def found (opt : LongOption ν) (optarg : Option Word) : Found ν := ⟨opt.flag, opt.val, optarg⟩

/-- An abbreviation of both options is not ambiguous. -/
def Same (opt other : LongOption ν) : Prop :=
  opt.takes = other.takes ∧ opt.flag = other.flag ∧ opt.val = other.val

instance [DecidableEq ν] (opt other : LongOption ν) : Decidable (opt.Same other) :=
  inferInstanceAs (Decidable (_ ∧ _ ∧ _))

theorem Same.symm {opt other : LongOption ν} (hsame : opt.Same other) : other.Same opt :=
  ⟨hsame.1.symm, hsame.2.1.symm, hsame.2.2.symm⟩

theorem Same.trans {opt other third : LongOption ν} (hfirst : opt.Same other)
    (hsecond : other.Same third) : opt.Same third :=
  ⟨hfirst.1.trans hsecond.1, hfirst.2.1.trans hsecond.2.1, hfirst.2.2.trans hsecond.2.2⟩

theorem Same.found_eq {opt other : LongOption ν} (hsame : opt.Same other) :
    opt.found = other.found := by
  funext optarg
  rw [found, found, hsame.2.1, hsame.2.2]

end LongOption

/-- The options of a program. -/
structure OptionTable (ν : Type*) where
  short : List (Char × Takes)
  long : List (LongOption ν)
  short_ne_dash : ∀ opt ∈ short, opt.1 ≠ '-'
  long_nodup : (long.map LongOption.name).Nodup
  /-- Nothing can follow the first operand. -/
  posixlyCorrect : Bool

/-- Where the next call goes on: the rest of the word it is in, and the words behind it. -/
structure Getopt where
  nextchar : Word
  words : List Word

inductive GetoptCall (ν : Type*)
  | done
  | refused
  | found (found : Found ν) (next : Getopt)

namespace OptionTable

variable {ν : Type*} (table : OptionTable ν)

def shortTakes (c : Char) : Option Takes :=
  (table.short.find? fun opt => opt.1 = c).map Prod.snd

def shortOption (c : Char) (letters : Word) (words : List Word) : GetoptCall ν :=
  match table.shortTakes c, letters, words with
  | none, _, _ => .refused
  | some .nothing, letters, words => .found ⟨none, c, none⟩ ⟨letters, words⟩
  | some .argument, [], [] => .refused
  | some .argument, [], value :: words => .found ⟨none, c, some value⟩ ⟨[], words⟩
  | some .argument, letter :: letters, words =>
      .found ⟨none, c, some (letter :: letters)⟩ ⟨[], words⟩

/-- An exact match, or the first of the options that the name abbreviates if it stands for all of
them. -/
def longMatch [DecidableEq ν] (name : Word) : Option (LongOption ν) :=
  match table.long.find? fun opt => opt.name = name with
  | some opt => some opt
  | none =>
      match table.long.filter fun opt => name <+: opt.name with
      | [] => none
      | opt :: others => if ∀ other ∈ others, opt.Same other then some opt else none

/-- `text` is a word without its two dashes. -/
def longOption [DecidableEq ν] (text : Word) (words : List Word) : GetoptCall ν :=
  match table.longMatch (text.takeWhile (· ≠ '=')) with
  | none => .refused
  | some opt =>
      match opt.takes, text.dropWhile (· ≠ '='), words with
      | .nothing, [], words => .found (opt.found none) ⟨[], words⟩
      | .nothing, _ :: _, _ => .refused
      | .argument, _ :: value, words => .found (opt.found (some value)) ⟨[], words⟩
      | .argument, [], value :: words => .found (opt.found (some value)) ⟨[], words⟩
      | .argument, [], [] => .refused

/-- Operands are passed over. -/
def nextWord [DecidableEq ν] : List Word → GetoptCall ν
  | [] => .done
  | ('-' :: '-' :: []) :: _ => .done
  | ('-' :: '-' :: letter :: text) :: words => table.longOption (letter :: text) words
  | ('-' :: letter :: letters) :: words => table.shortOption letter letters words
  | _ :: words => if table.posixlyCorrect then .done else nextWord words

def getoptLong [DecidableEq ν] (st : Getopt) : GetoptCall ν :=
  match st.nextchar with
  | [] => table.nextWord st.words
  | letter :: letters => table.shortOption letter letters st.words

/-! ## The loop around the calls -/

end OptionTable

/-- The characters that are still to be read, each word counting one more. -/
def Getopt.size (st : Getopt) : ℕ :=
  st.nextchar.length + st.words.flatten.length + st.words.length

namespace OptionTable

variable {ν : Type*} (table : OptionTable ν)

theorem size_lt_of_shortOption {c : Char} {letters : Word} {words : List Word} {found : Found ν}
    {next : Getopt} (hcall : table.shortOption c letters words = .found found next) :
    next.size < (Getopt.mk (c :: letters) words).size := by
  unfold shortOption at hcall
  split at hcall <;> cases hcall <;>
    simp only [Getopt.size, List.flatten_cons, List.length_append, List.length_cons,
      List.length_nil] <;>
    omega

variable [DecidableEq ν]

theorem size_lt_of_longOption {text : Word} {words : List Word} {found : Found ν}
    {next : Getopt} (hcall : table.longOption text words = .found found next) :
    next.size < (Getopt.mk [] (text :: words)).size := by
  unfold longOption at hcall
  split at hcall
  next => cases hcall
  next =>
    split at hcall <;> cases hcall <;>
      simp only [Getopt.size, List.flatten_cons, List.length_append, List.length_cons] <;> omega

theorem size_lt_of_nextWord {words : List Word} {found : Found ν} {next : Getopt}
    (hcall : table.nextWord words = .found found next) : next.size < (Getopt.mk [] words).size := by
  induction words with
  | nil => cases hcall
  | cons word words ih =>
      unfold nextWord at hcall
      split at hcall
      next => cases hcall
      next => cases hcall
      next hword =>
        cases hword
        have hlt := table.size_lt_of_longOption hcall
        simp only [Getopt.size, List.flatten_cons, List.length_append, List.length_cons,
          List.length_nil] at hlt ⊢
        omega
      next hword =>
        cases hword
        have hlt := table.size_lt_of_shortOption hcall
        simp only [Getopt.size, List.flatten_cons, List.length_append, List.length_cons,
          List.length_nil] at hlt ⊢
        omega
      next hword =>
        cases hword
        split at hcall
        next => cases hcall
        next =>
          have hlt := ih hcall
          simp only [Getopt.size, List.flatten_cons, List.length_append, List.length_cons,
            List.length_nil] at hlt ⊢
          omega

theorem size_lt_of_getoptLong {st next : Getopt} {found : Found ν}
    (hcall : table.getoptLong st = .found found next) : next.size < st.size := by
  obtain ⟨nextchar, words⟩ := st
  cases nextchar with
  | nil => exact table.size_lt_of_nextWord hcall
  | cons => exact table.size_lt_of_shortOption hcall

/-- `while` the calls find an option, do what `body` does with it. -/
def forOptions {σ ε : Type*} (refusal : ε) (body : σ → Found ν → Except ε σ) (s : σ)
    (st : Getopt) : Except ε σ :=
  match _h : table.getoptLong st with
  | .done => .ok s
  | .refused => .error refusal
  | .found found next =>
      match body s found with
      | .ok s' => forOptions refusal body s' next
      | .error e => .error e
termination_by st.size
decreasing_by exact table.size_lt_of_getoptLong _h

/-- All the options that are found, unless one is refused. -/
def options (st : Getopt) : Option (List (Found ν)) :=
  match _h : table.getoptLong st with
  | .done => some []
  | .refused => none
  | .found found next => (options next).map (found :: ·)
termination_by st.size
decreasing_by exact table.size_lt_of_getoptLong _h

theorem options_of_done {st : Getopt} (hcall : table.getoptLong st = .done) :
    table.options st = some [] := by
  rw [options]
  split <;> simp_all

theorem options_of_refused {st : Getopt} (hcall : table.getoptLong st = .refused) :
    table.options st = none := by
  rw [options]
  split <;> simp_all

theorem options_of_found {st next : Getopt} {found : Found ν}
    (hcall : table.getoptLong st = .found found next) :
    table.options st = (table.options next).map (found :: ·) := by
  rw [options]
  split <;> simp_all

end OptionTable

/-! ## What is delivered -/

/-- An option comes with an argument if it takes one. -/
def Fits (takes : Takes) (optarg : Option Word) : Prop := optarg.isSome ↔ takes = .argument

namespace OptionTable

variable {ν : Type*} (table : OptionTable ν)

/-- What a call can deliver. -/
inductive Gives : Found ν → Prop
  | short {c : Char} {takes : Takes} {optarg : Option Word} :
      table.shortTakes c = some takes → Fits takes optarg → Gives ⟨none, c, optarg⟩
  | long {opt : LongOption ν} {optarg : Option Word} :
      opt ∈ table.long → Fits opt.takes optarg → Gives (opt.found optarg)

variable {table}

theorem gives_of_shortOption {c : Char} {letters : Word} {words : List Word} {found : Found ν}
    {next : Getopt} (hcall : table.shortOption c letters words = .found found next) :
    table.Gives found := by
  unfold shortOption at hcall
  split at hcall
  next => cases hcall
  next htakes => cases hcall; exact .short htakes (by simp [Fits])
  next => cases hcall
  next htakes => cases hcall; exact .short htakes (by simp [Fits])
  next htakes => cases hcall; exact .short htakes (by simp [Fits])

variable [DecidableEq ν]

/-- Whether by its name or by an abbreviation, an option of the table is meant. -/
theorem mem_of_longMatch {name : Word} {opt : LongOption ν}
    (hmatch : table.longMatch name = some opt) : opt ∈ table.long ∧ name <+: opt.name := by
  unfold longMatch at hmatch
  split at hmatch
  next hfind =>
    cases hmatch
    have hname : opt.name = name := by simpa using List.find?_some hfind
    exact ⟨List.mem_of_find?_eq_some hfind, hname ▸ List.prefix_rfl⟩
  next =>
    split at hmatch
    next => cases hmatch
    next first others hfilter =>
      split at hmatch
      next =>
        cases hmatch
        have hmem : opt ∈ table.long.filter fun opt => name <+: opt.name :=
          hfilter ▸ List.mem_cons_self
        simpa using hmem
      next => cases hmatch

theorem gives_of_longOption {text : Word} {words : List Word} {found : Found ν} {next : Getopt}
    (hcall : table.longOption text words = .found found next) : table.Gives found := by
  unfold longOption at hcall
  split at hcall
  next => cases hcall
  next opt hmatch =>
    have hmem := (mem_of_longMatch hmatch).1
    split at hcall
    next htakes _ => cases hcall; exact .long hmem (by simp [Fits, htakes])
    next => cases hcall
    next htakes _ => cases hcall; exact .long hmem (by simp [Fits, htakes])
    next htakes _ => cases hcall; exact .long hmem (by simp [Fits, htakes])
    next => cases hcall

theorem gives_of_getoptLong {st next : Getopt} {found : Found ν}
    (hcall : table.getoptLong st = .found found next) : table.Gives found := by
  obtain ⟨nextchar, words⟩ := st
  cases nextchar with
  | cons => exact gives_of_shortOption hcall
  | nil =>
      change table.nextWord words = _ at hcall
      fun_induction table.nextWord words with
      | case1 => cases hcall
      | case2 => cases hcall
      | case3 letter text words => exact gives_of_longOption hcall
      | case4 letter letters words => exact gives_of_shortOption hcall
      | case5 => cases hcall
      | case6 _ _ _ _ _ _ ih => exact ih hcall

theorem gives_of_options {st : Getopt} {founds : List (Found ν)}
    (hoptions : table.options st = some founds) : ∀ found ∈ founds, table.Gives found := by
  fun_induction table.options st generalizing founds with
  | case1 => cases hoptions; exact List.forall_mem_nil _
  | case2 => cases hoptions
  | case3 st found next hcall ih =>
      obtain ⟨others, hothers, rfl⟩ := Option.map_eq_some_iff.mp hoptions
      exact List.forall_mem_cons.mpr ⟨gives_of_getoptLong hcall, ih hothers⟩

/-- A body that never fails is done to the options one after the other. -/
theorem forOptions_eq {σ ε : Type*} {refusal : ε} {body : σ → Found ν → Except ε σ}
    {next : σ → Found ν → σ}
    (hbody : ∀ s found, table.Gives found → body s found = .ok (next s found)) (s : σ)
    (st : Getopt) : table.forOptions refusal body s st =
      (table.options st).elim (.error refusal) fun founds => .ok (founds.foldl next s) := by
  fun_induction table.forOptions refusal body s st with
  | case1 s st hcall => rw [table.options_of_done hcall]; rfl
  | case2 s st hcall => rw [table.options_of_refused hcall]; rfl
  | case3 s st found st' hcall s' hok ih =>
      rw [hbody s found (gives_of_getoptLong hcall), Except.ok.injEq] at hok
      subst hok
      rw [ih, table.options_of_found hcall]
      cases table.options st' <;> rfl
  | case4 s st found st' hcall e herror =>
      rw [hbody s found (gives_of_getoptLong hcall)] at herror
      cases herror

end OptionTable

end Foundation

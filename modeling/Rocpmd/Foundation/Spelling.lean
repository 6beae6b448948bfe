import Mathlib.Data.List.DropRight
import Rocpmd.Foundation.Getopt

/-!
# The command lines that are read without complaint

What a command line spells, word by word, without reference to the calls: `options_eq_some_iff`. A
refused command line is one that spells nothing.
-/

namespace Foundation

def plainFounds {ν : Type*} (letters : Word) : List (Found ν) :=
  letters.map fun c => ⟨none, c, none⟩

namespace OptionTable

variable {ν : Type*} (table : OptionTable ν)

/-- The options of `letters` take nothing. -/
def Plain (letters : Word) : Prop := ∀ c ∈ letters, table.shortTakes c = some .nothing

/-- The letters of a word that starts with one dash, in front of some words: the options they
stand for, and the words that are left. -/
inductive Cluster : Word → List Word → List (Found ν) → List Word → Prop
  | plain {letters : Word} (words : List Word) :
      table.Plain letters → Cluster letters words (plainFounds letters) words
  | attached {letters : Word} {c : Char} {value : Word} (words : List Word) :
      table.Plain letters → table.shortTakes c = some .argument → value ≠ [] →
      Cluster (letters ++ c :: value) words
        (plainFounds letters ++ [⟨none, c, some value⟩]) words
  | separate {letters : Word} {c : Char} (value : Word) (words : List Word) :
      table.Plain letters → table.shortTakes c = some .argument →
      Cluster (letters ++ [c]) (value :: words)
        (plainFounds letters ++ [⟨none, c, some value⟩]) words

/-- A name of an option: its own, or one that is the start of the names of this and of no
other option. -/
def Names (name : Word) (opt : LongOption ν) : Prop :=
  opt ∈ table.long ∧ '=' ∉ name ∧
    (opt.name = name ∨
      name <+: opt.name ∧ ∀ other ∈ table.long, name <+: other.name →
        other.name ≠ name ∧ opt.Same other)

/-- A word that starts with two dashes, in front of some words. -/
inductive Long : Word → List Word → Found ν → List Word → Prop
  | plain {name : Word} {opt : LongOption ν} (words : List Word) :
      name ≠ [] → table.Names name opt → opt.takes = .nothing →
      Long name words (opt.found none) words
  | attached {name : Word} {opt : LongOption ν} (value : Word) (words : List Word) :
      table.Names name opt → opt.takes = .argument →
      Long (name ++ '=' :: value) words (opt.found (some value)) words
  | separate {name : Word} {opt : LongOption ν} (value : Word) (words : List Word) :
      name ≠ [] → table.Names name opt → opt.takes = .argument →
      Long name (value :: words) (opt.found (some value)) words

/-- A word that is no option: it does not start with a dash, or it is only a dash. -/
def Operand (word : Word) : Prop := word.head? ≠ some '-' ∨ word = ['-']

/-- The command lines and the options they spell. -/
inductive Spells : List Word → List (Found ν) → Prop
  | nil : Spells [] []
  | terminator (words : List Word) : Spells (['-', '-'] :: words) []
  | operand {word : Word} {words : List Word} {founds : List (Found ν)} :
      Operand word → table.posixlyCorrect = false → Spells words founds →
      Spells (word :: words) founds
  | stop {word : Word} (words : List Word) :
      Operand word → table.posixlyCorrect = true → Spells (word :: words) []
  | cluster {letters : Word} {words rest : List Word} {founds others : List (Found ν)} :
      letters ≠ [] → table.Cluster letters words founds rest → Spells rest others →
      Spells (('-' :: letters) :: words) (founds ++ others)
  | long {text : Word} {words rest : List Word} {found : Found ν} {others : List (Found ν)} :
      table.Long text words found rest → Spells rest others →
      Spells (('-' :: '-' :: text) :: words) (found :: others)

/-- The options end within the command line: at two dashes, or at an operand that nothing can
follow. -/
inductive Ends : List Word → Prop
  | terminator (words : List Word) : Ends (['-', '-'] :: words)
  | operand {word : Word} {words : List Word} :
      Operand word → table.posixlyCorrect = false → Ends words → Ends (word :: words)
  | stop {word : Word} (words : List Word) :
      Operand word → table.posixlyCorrect = true → Ends (word :: words)
  | cluster {letters : Word} {words rest : List Word} {founds : List (Found ν)} :
      letters ≠ [] → table.Cluster letters words founds rest → Ends rest →
      Ends (('-' :: letters) :: words)
  | long {text : Word} {words rest : List Word} {found : Found ν} :
      table.Long text words found rest → Ends rest → Ends (('-' :: '-' :: text) :: words)

/-! ### Names -/

variable {table}

theorem find?_name_eq {opt : LongOption ν} (hmem : opt ∈ table.long) :
    (table.long.find? fun other => other.name = opt.name) = some opt := by
  cases hfind : table.long.find? fun other => other.name = opt.name with
  | none => exact absurd hmem (by simpa using fun h => (List.find?_eq_none.mp hfind) opt h)
  | some other =>
      have hname : other.name = opt.name := by simpa using List.find?_some hfind
      have hother := List.mem_of_find?_eq_some hfind
      rw [List.inj_on_of_nodup_map table.long_nodup hother hmem hname]

variable [DecidableEq ν]

theorem names_of_longMatch {name : Word} {opt : LongOption ν}
    (hmatch : table.longMatch name = some opt) (hname : '=' ∉ name) : table.Names name opt := by
  have hmem := mem_of_longMatch hmatch
  refine ⟨hmem.1, hname, ?_⟩
  unfold longMatch at hmatch
  split at hmatch
  next hfind => cases hmatch; exact .inl (by simpa using List.find?_some hfind)
  next hnone =>
    refine .inr ⟨hmem.2, fun other hother hstart => ?_⟩
    refine ⟨by simpa using List.find?_eq_none.mp hnone other hother, ?_⟩
    split at hmatch
    next => cases hmatch
    next first others hfilter =>
      split at hmatch
      next hsame =>
        cases hmatch
        have hin : other ∈ opt :: others :=
          hfilter ▸ List.mem_filter.mpr ⟨hother, by simpa using hstart⟩
        rcases List.mem_cons.mp hin with rfl | hin
        · exact ⟨rfl, rfl, rfl⟩
        · exact hsame other hin
      next => cases hmatch

theorem longMatch_of_names {name : Word} {opt : LongOption ν} (hnames : table.Names name opt) :
    ∃ meant, table.longMatch name = some meant ∧ opt.Same meant := by
  obtain ⟨hmem, -, rfl | ⟨hstart, hothers⟩⟩ := hnames
  · exact ⟨opt, by rw [longMatch, find?_name_eq hmem], rfl, rfl, rfl⟩
  · have hnone : (table.long.find? fun other => other.name = name) = none := by
      refine List.find?_eq_none.mpr fun other hother => ?_
      by_cases hpre : name <+: other.name
      · simpa using (hothers other hother hpre).1
      · intro heq
        exact hpre (by simpa using (of_decide_eq_true heq) ▸ List.prefix_rfl)
    have hall : ∀ other ∈ table.long.filter fun other => name <+: other.name, opt.Same other :=
      fun other hother => (hothers other (List.mem_filter.mp hother).1
        (by simpa using (List.mem_filter.mp hother).2)).2
    have hin : opt ∈ table.long.filter fun other => name <+: other.name :=
      List.mem_filter.mpr ⟨hmem, by simpa using hstart⟩
    unfold longMatch
    rw [hnone]
    cases hfilter : table.long.filter fun other => name <+: other.name with
    | nil => rw [hfilter] at hin; cases hin
    | cons first others =>
        rw [hfilter] at hall
        have hfirst := hall first List.mem_cons_self
        refine ⟨first, if_pos fun other hother => ?_, hfirst⟩
        exact hfirst.symm.trans (hall other (List.mem_cons_of_mem first hother))

/-! ### Words with two dashes -/

theorem takeWhile_name {name : Word} (hname : '=' ∉ name) :
    name.takeWhile (· ≠ '=') = name ∧ name.dropWhile (· ≠ '=') = [] := by
  have hall : ∀ c ∈ name, decide (c ≠ '=') = true :=
    fun c hc => decide_eq_true fun heq => hname (heq ▸ hc)
  exact ⟨List.takeWhile_eq_self_iff.mpr hall, List.dropWhile_eq_nil_iff.mpr hall⟩

theorem takeWhile_attached {name : Word} (hname : '=' ∉ name) (value : Word) :
    (name ++ '=' :: value).takeWhile (· ≠ '=') = name ∧
      (name ++ '=' :: value).dropWhile (· ≠ '=') = '=' :: value := by
  have hall : ∀ c ∈ name, decide (c ≠ '=') = true :=
    fun c hc => decide_eq_true fun heq => hname (heq ▸ hc)
  rw [List.takeWhile_append_of_pos hall, List.dropWhile_append_of_pos hall]
  exact ⟨by simp, by simp⟩

theorem long_of_longOption {text : Word} {words : List Word} {found : Found ν} {next : Getopt}
    (htext : text ≠ []) (hcall : table.longOption text words = .found found next) :
    table.Long text words found next.words ∧ next.nextchar = [] := by
  unfold longOption at hcall
  by_cases hequals : '=' ∈ text
  · obtain ⟨name, value, rfl, hname⟩ := List.eq_append_cons_of_mem hequals
    obtain ⟨htake, hdrop⟩ := takeWhile_attached hname value
    rw [htake, hdrop] at hcall
    split at hcall
    next => cases hcall
    next opt hmatch =>
      have hnames := names_of_longMatch hmatch hname
      split at hcall
      next hnil => cases hnil
      next => cases hcall
      next htakes heq => cases heq; cases hcall; exact ⟨.attached value _ hnames htakes, rfl⟩
      next hnil => cases hnil
      next => cases hcall
  · obtain ⟨htake, hdrop⟩ := takeWhile_name hequals
    rw [htake, hdrop] at hcall
    split at hcall
    next => cases hcall
    next opt hmatch =>
      have hnames := names_of_longMatch hmatch hequals
      split at hcall
      next htakes _ => cases hcall; exact ⟨.plain _ htext hnames htakes, rfl⟩
      next => cases hcall
      next hcons => cases hcons
      next value _ htakes _ => cases hcall; exact ⟨.separate value _ htext hnames htakes, rfl⟩
      next => cases hcall

theorem longOption_ne_done (text : Word) (words : List Word) :
    table.longOption text words ≠ .done := by
  unfold longOption
  split
  next => nofun
  next => split <;> nofun

theorem longOption_of_long {text : Word} {words rest : List Word} {found : Found ν}
    (hlong : table.Long text words found rest) :
    table.longOption text words = .found found ⟨[], rest⟩ := by
  cases hlong with
  | plain _ hne hnames htakes =>
      obtain ⟨meant, hmatch, hsame⟩ := longMatch_of_names hnames
      have htext := takeWhile_name hnames.2.1
      rw [hsame.found_eq]
      simp only [longOption, htext.1, htext.2, hmatch, ← hsame.1, htakes]
  | attached value _ hnames htakes =>
      obtain ⟨meant, hmatch, hsame⟩ := longMatch_of_names hnames
      have htext := takeWhile_attached hnames.2.1 value
      rw [hsame.found_eq]
      simp only [longOption, htext.1, htext.2, hmatch, ← hsame.1, htakes]
  | separate value _ hne hnames htakes =>
      obtain ⟨meant, hmatch, hsame⟩ := longMatch_of_names hnames
      have htext := takeWhile_name hnames.2.1
      rw [hsame.found_eq]
      simp only [longOption, htext.1, htext.2, hmatch, ← hsame.1, htakes]

/-! ### Words with one dash -/

omit [DecidableEq ν] in
theorem shortTakes_dash : table.shortTakes '-' = none := by
  rw [shortTakes, Option.map_eq_none_iff, List.find?_eq_none]
  intro opt hopt
  simpa using table.short_ne_dash opt hopt

omit [DecidableEq ν] in
theorem plain_nil : table.Plain [] := List.forall_mem_nil _

omit [DecidableEq ν] in
theorem Plain.cons {c : Char} {letters : Word} (hc : table.shortTakes c = some .nothing)
    (hplain : table.Plain letters) : table.Plain (c :: letters) :=
  List.forall_mem_cons.mpr ⟨hc, hplain⟩

omit [DecidableEq ν] in
theorem Cluster.cons {c : Char} {letters : Word} {words rest : List Word} {founds : List (Found ν)}
    (hc : table.shortTakes c = some .nothing) (hcluster : table.Cluster letters words founds rest) :
    table.Cluster (c :: letters) words (⟨none, c, none⟩ :: founds) rest := by
  cases hcluster with
  | plain _ hplain => exact .plain words (hplain.cons hc)
  | attached _ hplain htakes hvalue => exact .attached words (hplain.cons hc) htakes hvalue
  | separate value _ hplain htakes => exact .separate value rest (hplain.cons hc) htakes

omit [DecidableEq ν] in
/-- The first letter is an option. -/
theorem Cluster.shortTakes_head {c : Char} {letters : Word} {words rest : List Word}
    {founds : List (Found ν)} (hcluster : table.Cluster (c :: letters) words founds rest) :
    (table.shortTakes c).isSome := by
  generalize hword : c :: letters = word at hcluster
  have hfront {front last : Word} {d : Char} (hplain : table.Plain front)
      (htakes : table.shortTakes d = some .argument) (heq : c :: letters = front ++ d :: last) :
      (table.shortTakes c).isSome := by
    rcases List.cons_eq_append_iff.mp heq with ⟨-, heq⟩ | ⟨_, rfl, -⟩
    · rw [(List.cons.inj heq).1] at htakes
      exact htakes ▸ rfl
    · exact hplain c List.mem_cons_self ▸ rfl
  cases hcluster with
  | plain _ hplain => exact hplain c (hword ▸ List.mem_cons_self) ▸ rfl
  | attached _ hplain htakes => exact hfront hplain htakes hword
  | separate _ _ hplain htakes => exact hfront hplain htakes hword

theorem options_plain {letters : Word} (hplain : table.Plain letters) (tail : Word)
    (words : List Word) : table.options ⟨letters ++ tail, words⟩ =
      (table.options ⟨tail, words⟩).map (plainFounds letters ++ ·) := by
  induction letters with
  | nil => exact Option.map_id'.symm
  | cons c letters ih =>
      obtain ⟨hc, hplain⟩ := List.forall_mem_cons.mp hplain
      have hcall : table.getoptLong ⟨c :: letters ++ tail, words⟩ =
          .found ⟨none, c, none⟩ ⟨letters ++ tail, words⟩ := by
        simp only [List.cons_append, getoptLong, shortOption, hc]
      rw [table.options_of_found hcall, ih hplain, Option.map_map]
      rfl

theorem options_of_cluster {letters : Word} {words rest : List Word} {founds : List (Found ν)}
    (hcluster : table.Cluster letters words founds rest) :
    table.options ⟨letters, words⟩ = (table.options ⟨[], rest⟩).map (founds ++ ·) := by
  have happend (first second : List (Found ν)) :
      ((first ++ ·) ∘ (second ++ ·)) = ((first ++ second) ++ ·) := by
    funext founds
    exact (List.append_assoc ..).symm
  cases hcluster with
  | plain _ hplain => simpa using table.options_plain hplain [] words
  | @attached letters c value _ hplain htakes hvalue =>
      obtain ⟨first, others, rfl⟩ := List.exists_cons_of_ne_nil hvalue
      have hcall : table.getoptLong ⟨c :: first :: others, words⟩ =
          .found ⟨none, c, some (first :: others)⟩ ⟨[], words⟩ := by
        simp only [getoptLong, shortOption, htakes]
      rw [options_plain hplain, table.options_of_found hcall, Option.map_map, ← happend]
      rfl
  | @separate letters c value _ hplain htakes =>
      have hcall : table.getoptLong ⟨[c], value :: rest⟩ =
          .found ⟨none, c, some value⟩ ⟨[], rest⟩ := by
        simp only [getoptLong, shortOption, htakes]
      rw [options_plain hplain, table.options_of_found hcall, Option.map_map, ← happend]
      rfl

theorem cluster_of_options {letters : Word} {words : List Word} {founds : List (Found ν)}
    (hoptions : table.options ⟨letters, words⟩ = some founds) :
    ∃ first rest others, table.Cluster letters words first rest ∧
      table.options ⟨[], rest⟩ = some others ∧ founds = first ++ others := by
  induction letters generalizing founds with
  | nil => exact ⟨[], words, founds, .plain words plain_nil, hoptions, rfl⟩
  | cons c letters ih =>
      have hcall : table.getoptLong ⟨c :: letters, words⟩ = table.shortOption c letters words := rfl
      unfold shortOption at hcall
      split at hcall
      next => rw [table.options_of_refused hcall] at hoptions; cases hoptions
      next htakes =>
        rw [table.options_of_found hcall] at hoptions
        obtain ⟨founds', hletters, rfl⟩ := Option.map_eq_some_iff.mp hoptions
        obtain ⟨first, rest, others, hcluster, hrest, rfl⟩ := ih hletters
        exact ⟨_, rest, others, hcluster.cons htakes, hrest, rfl⟩
      next => rw [table.options_of_refused hcall] at hoptions; cases hoptions
      next value words htakes =>
        rw [table.options_of_found hcall] at hoptions
        obtain ⟨others, hwords, rfl⟩ := Option.map_eq_some_iff.mp hoptions
        exact ⟨_, words, others, .separate value words plain_nil htakes, hwords, rfl⟩
      next letter letters htakes =>
        rw [table.options_of_found hcall] at hoptions
        obtain ⟨others, hwords, rfl⟩ := Option.map_eq_some_iff.mp hoptions
        have hvalue : letter :: letters ≠ [] := List.cons_ne_nil letter letters
        exact ⟨_, _, others, .attached _ plain_nil htakes hvalue, hwords, rfl⟩

/-! ### Whole command lines -/

theorem options_congr {st st' : Getopt} (hcall : table.getoptLong st = table.getoptLong st') :
    table.options st = table.options st' := by
  cases h : table.getoptLong st' with
  | done => rw [table.options_of_done h, table.options_of_done (hcall.trans h)]
  | refused => rw [table.options_of_refused h, table.options_of_refused (hcall.trans h)]
  | found found next => rw [table.options_of_found h, table.options_of_found (hcall.trans h)]

theorem nextWord_operand {word : Word} (hword : Operand word) (words : List Word) :
    table.nextWord (word :: words) =
      if table.posixlyCorrect then .done else table.nextWord words := by
  rcases hword with hhead | rfl
  · match word with
    | [] => rw [nextWord] <;> simp
    | c :: text =>
      have hc : c ≠ '-' := fun heq => hhead (congrArg some heq)
      rw [nextWord] <;> simp [hc]
  · rw [nextWord] <;> simp

/-- Every word is of one of four kinds. -/
theorem word_cases (word : Word) :
    Operand word ∨ word = ['-', '-'] ∨ (∃ text, text ≠ [] ∧ word = '-' :: '-' :: text) ∨
      ∃ c letters, c ≠ '-' ∧ word = '-' :: c :: letters := by
  cases word with
  | nil => exact .inl (.inl nofun)
  | cons c text =>
      by_cases hc : c = '-'
      · subst hc
        cases text with
        | nil => exact .inl (.inr rfl)
        | cons d text =>
            by_cases hd : d = '-'
            · subst hd
              by_cases htext : text = []
              · exact .inr (.inl (htext ▸ rfl))
              · exact .inr (.inr (.inl ⟨text, htext, rfl⟩))
            · exact .inr (.inr (.inr ⟨d, text, hd, rfl⟩))
      · exact .inl (.inl fun hhead => hc (Option.some.inj hhead))

theorem getoptLong_long {text : Word} (htext : text ≠ []) (words : List Word) :
    table.getoptLong ⟨[], ('-' :: '-' :: text) :: words⟩ = table.longOption text words := by
  obtain ⟨c, text, rfl⟩ := List.exists_cons_of_ne_nil htext
  rfl

theorem getoptLong_cluster {c : Char} (hc : c ≠ '-') (letters : Word) (words : List Word) :
    table.getoptLong ⟨[], ('-' :: c :: letters) :: words⟩ =
      table.getoptLong ⟨c :: letters, words⟩ := by
  change table.nextWord _ = table.shortOption c letters words
  rw [nextWord] <;> simp [hc]

theorem options_skip {word : Word} (hword : Operand word) (hposix : table.posixlyCorrect = false)
    (words : List Word) : table.options ⟨[], word :: words⟩ = table.options ⟨[], words⟩ :=
  options_congr ((nextWord_operand hword words).trans (by rw [hposix]; rfl))

theorem options_stop {word : Word} (hword : Operand word) (hposix : table.posixlyCorrect = true)
    (words : List Word) : table.options ⟨[], word :: words⟩ = some [] :=
  table.options_of_done ((nextWord_operand hword words).trans (by rw [hposix]; rfl))

theorem options_dash {letters : Word} {words rest : List Word} {founds : List (Found ν)}
    (hne : letters ≠ []) (hcluster : table.Cluster letters words founds rest) :
    table.options ⟨[], ('-' :: letters) :: words⟩ =
      (table.options ⟨[], rest⟩).map (founds ++ ·) := by
  obtain ⟨c, letters, rfl⟩ := List.exists_cons_of_ne_nil hne
  have hc : c ≠ '-' := by
    rintro rfl
    simpa [shortTakes_dash] using hcluster.shortTakes_head
  rw [options_congr (getoptLong_cluster hc letters words), options_of_cluster hcluster]

theorem options_dashes {text : Word} {words rest : List Word} {found : Found ν}
    (hlong : table.Long text words found rest) :
    table.options ⟨[], ('-' :: '-' :: text) :: words⟩ =
      (table.options ⟨[], rest⟩).map (found :: ·) := by
  have htext : text ≠ [] := by
    rcases hlong with ⟨_, hne, _, _⟩ | _ | ⟨_, _, hne, _, _⟩
    · exact hne
    · simp
    · exact hne
  exact table.options_of_found ((getoptLong_long htext words).trans (longOption_of_long hlong))

/-- The calls deliver what the command line spells. -/
theorem options_of_spells {words : List Word} {founds : List (Found ν)}
    (hspells : table.Spells words founds) : table.options ⟨[], words⟩ = some founds := by
  induction hspells with
  | nil => exact table.options_of_done rfl
  | terminator words => exact table.options_of_done rfl
  | operand hword hposix _ ih => rw [options_skip hword hposix, ih]
  | stop words hword hposix => exact options_stop hword hposix words
  | cluster hne hcluster _ ih => rw [options_dash hne hcluster, ih, Option.map_some]
  | long hlong _ ih => rw [options_dashes hlong, ih, Option.map_some]

omit [DecidableEq ν] in
theorem Cluster.suffix {letters : Word} {words rest : List Word} {founds : List (Found ν)}
    (hcluster : table.Cluster letters words founds rest) : rest <:+ words := by
  cases hcluster with
  | plain => exact List.suffix_rfl
  | attached => exact List.suffix_rfl
  | separate value => exact List.suffix_cons value rest

omit [DecidableEq ν] in
theorem Long.suffix {text : Word} {words rest : List Word} {found : Found ν}
    (hlong : table.Long text words found rest) : rest <:+ words := by
  cases hlong with
  | plain => exact List.suffix_rfl
  | attached => exact List.suffix_rfl
  | separate value => exact List.suffix_cons value rest

theorem spells_of_options {words : List Word} {founds : List (Found ν)}
    (hoptions : table.options ⟨[], words⟩ = some founds) : table.Spells words founds := by
  match words with
  | [] =>
      rw [table.options_of_done rfl, Option.some.injEq] at hoptions
      exact hoptions ▸ .nil
  | word :: words =>
      rcases word_cases word with hword | rfl | ⟨text, htext, rfl⟩ | ⟨c, letters, hc, rfl⟩
      · cases hposix : table.posixlyCorrect with
        | true =>
            rw [options_stop hword hposix, Option.some.injEq] at hoptions
            exact hoptions ▸ .stop words hword hposix
        | false =>
            rw [options_skip hword hposix] at hoptions
            exact .operand hword hposix (spells_of_options hoptions)
      · rw [table.options_of_done rfl, Option.some.injEq] at hoptions
        exact hoptions ▸ .terminator words
      · have hcall := table.getoptLong_long htext words
        cases hlong : table.longOption text words with
        | done => exact absurd hlong (longOption_ne_done text words)
        | refused =>
            rw [table.options_of_refused (hcall.trans hlong)] at hoptions
            cases hoptions
        | found found next =>
            rw [table.options_of_found (hcall.trans hlong)] at hoptions
            obtain ⟨others, hnext, rfl⟩ := Option.map_eq_some_iff.mp hoptions
            obtain ⟨hlong, hnil⟩ := long_of_longOption htext hlong
            have hle := hlong.suffix.length_le
            obtain ⟨nextchar, rest⟩ := next
            subst hnil
            exact .long hlong (spells_of_options hnext)
      · rw [options_congr (getoptLong_cluster hc letters words)] at hoptions
        obtain ⟨first, rest, others, hcluster, hrest, rfl⟩ := cluster_of_options hoptions
        have hle := hcluster.suffix.length_le
        exact .cluster (List.cons_ne_nil c letters) hcluster (spells_of_options hrest)
termination_by words.length
decreasing_by all_goals (simp only [List.length_cons] at *; omega)

/-- The calls deliver the options of exactly the command lines that spell some. -/
theorem options_eq_some_iff (words : List Word) (founds : List (Found ν)) :
    table.options ⟨[], words⟩ = some founds ↔ table.Spells words founds :=
  ⟨spells_of_options, options_of_spells⟩

/-! ### Longer command lines -/

omit [DecidableEq ν] in
theorem Cluster.append {letters : Word} {words rest : List Word} {founds : List (Found ν)}
    (hcluster : table.Cluster letters words founds rest) (more : List Word) :
    table.Cluster letters (words ++ more) founds (rest ++ more) := by
  cases hcluster with
  | plain _ hplain => exact .plain _ hplain
  | attached _ hplain htakes hvalue => exact .attached _ hplain htakes hvalue
  | separate value _ hplain htakes => exact .separate value _ hplain htakes

omit [DecidableEq ν] in
theorem Long.append {text : Word} {words rest : List Word} {found : Found ν}
    (hlong : table.Long text words found rest) (more : List Word) :
    table.Long text (words ++ more) found (rest ++ more) := by
  cases hlong with
  | plain _ hne hnames htakes => exact .plain _ hne hnames htakes
  | attached value _ hnames htakes => exact .attached value _ hnames htakes
  | separate value _ hne hnames htakes => exact .separate value _ hne hnames htakes

/-- More words spell more options behind the first ones, or none if the options had ended. -/
theorem Spells.options_append {words : List Word} {founds : List (Found ν)}
    (hspells : table.Spells words founds) (more : List Word) :
    table.Ends words ∧ table.options ⟨[], words ++ more⟩ = some founds ∨
      table.options ⟨[], words ++ more⟩ = (table.options ⟨[], more⟩).map (founds ++ ·) := by
  induction hspells with
  | nil => exact .inr Option.map_id'.symm
  | terminator words => exact .inl ⟨.terminator words, table.options_of_done rfl⟩
  | operand hword hposix _ ih =>
      rw [List.cons_append, options_skip hword hposix]
      exact ih.imp_left (And.imp_left (.operand hword hposix))
  | stop words hword hposix => exact .inl ⟨.stop words hword hposix, options_stop hword hposix _⟩
  | cluster hne hcluster _ ih =>
      rw [List.cons_append, options_dash hne (hcluster.append more)]
      refine ih.imp (fun h => ⟨.cluster hne hcluster h.1, ?_⟩) fun h => ?_
      · rw [h.2, Option.map_some]
      · rw [h, Option.map_map]
        exact congrArg (Option.map · _) (funext fun others => (List.append_assoc ..).symm)
  | long hlong _ ih =>
      rw [List.cons_append, options_dashes (hlong.append more)]
      refine ih.imp (fun h => ⟨.long hlong h.1, ?_⟩) fun h => ?_
      · rw [h.2, Option.map_some]
      · rw [h, Option.map_map]
        rfl

/-! ### Where an option comes from -/

variable (table) in
/-- A word that an option can stand in: a letter behind one dash, or a name behind two. -/
def Mentions (word : Word) (found : Found ν) : Prop :=
  (∃ letters, word = '-' :: letters ∧ letters.head? ≠ some '-' ∧ found.val ∈ letters) ∨
    ∃ name opt, table.Names name opt ∧ ('-' :: '-' :: name) <+: word ∧ found.val = opt.val

omit [DecidableEq ν] in
theorem Cluster.val_mem {letters : Word} {words rest : List Word} {founds : List (Found ν)}
    (hcluster : table.Cluster letters words founds rest) :
    ∀ found ∈ founds, found.val ∈ letters := by
  have hplain (letters : Word) :
      ∀ found ∈ (plainFounds letters : List (Found ν)), found.val ∈ letters := by
    intro found hfound
    obtain ⟨c, hc, rfl⟩ := List.mem_map.mp hfound
    exact hc
  have hlast {letters tail : Word} {c : Char} (optarg : Option Word) :
      ∀ found ∈ plainFounds letters ++ [⟨(none : Option ν), c, optarg⟩],
        found.val ∈ letters ++ c :: tail := by
    rw [List.forall_mem_append]
    refine ⟨fun found hfound => List.mem_append_left _ (hplain letters found hfound), ?_⟩
    simp
  cases hcluster with
  | plain => exact hplain letters
  | attached => exact hlast _
  | separate => exact hlast _

omit [DecidableEq ν] in
theorem Long.exists_name {text : Word} {words rest : List Word} {found : Found ν}
    (hlong : table.Long text words found rest) :
    ∃ name opt, table.Names name opt ∧ name <+: text ∧ found.val = opt.val := by
  cases hlong with
  | plain _ _ hnames => exact ⟨text, _, hnames, List.prefix_rfl, rfl⟩
  | attached value _ hnames => exact ⟨_, _, hnames, List.prefix_append .., rfl⟩
  | separate _ _ _ hnames => exact ⟨text, _, hnames, List.prefix_rfl, rfl⟩

omit [DecidableEq ν] in
/-- No option comes out of nowhere. -/
theorem Spells.exists_mentions {words : List Word} {founds : List (Found ν)}
    (hspells : table.Spells words founds) :
    ∀ found ∈ founds, ∃ word ∈ words, table.Mentions word found := by
  induction hspells with
  | nil => exact List.forall_mem_nil _
  | terminator => exact List.forall_mem_nil _
  | operand _ _ _ ih =>
      intro found hfound
      obtain ⟨word, hword, hmentions⟩ := ih found hfound
      exact ⟨word, List.mem_cons_of_mem _ hword, hmentions⟩
  | stop => exact List.forall_mem_nil _
  | @cluster letters words rest founds others hne hcluster _ ih =>
      rw [List.forall_mem_append]
      constructor
      · intro found hfound
        refine ⟨_, List.mem_cons_self, .inl ⟨letters, rfl, ?_, hcluster.val_mem found hfound⟩⟩
        intro hhead
        obtain ⟨tail, rfl⟩ := List.head?_eq_some_iff.mp hhead
        simpa [shortTakes_dash] using hcluster.shortTakes_head
      · intro found hfound
        obtain ⟨word, hword, hmentions⟩ := ih found hfound
        exact ⟨word, List.mem_cons_of_mem _ (hcluster.suffix.subset hword), hmentions⟩
  | @long text words rest found others hlong _ ih =>
      rw [List.forall_mem_cons]
      constructor
      · obtain ⟨name, opt, hnames, hstart, hval⟩ := hlong.exists_name
        have hword : '-' :: '-' :: name <+: '-' :: '-' :: text := by simpa using hstart
        exact ⟨_, List.mem_cons_self, .inr ⟨name, opt, hnames, hword, hval⟩⟩
      · intro found hfound
        obtain ⟨word, hword, hmentions⟩ := ih found hfound
        exact ⟨word, List.mem_cons_of_mem _ (hlong.suffix.subset hword), hmentions⟩

end OptionTable

end Foundation

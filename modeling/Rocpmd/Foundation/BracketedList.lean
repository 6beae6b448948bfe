import Mathlib.Data.List.DropRight
import Mathlib.Data.List.Forall2
import Mathlib.Tactic.Common

/-!
# Bracketed lists

The text of a list: an opening bracket, the items in order with one comma between each two, and a
closing bracket. Blanks may stand around each item and behind the closing bracket, but not inside an
item. `readBracketed` reads such a text back.
-/

namespace Foundation

/-- White space only. -/
def Blank (text : List Char) : Prop := ∀ c ∈ text, c.isWhitespace = true

instance (text : List Char) : Decidable (Blank text) :=
  decidable_of_iff (text.all Char.isWhitespace = true) List.all_eq_true

theorem blank_replicate (count : ℕ) : Blank (List.replicate count ' ') := by
  intro c hc
  rw [List.eq_of_mem_replicate hc]
  rfl

theorem Blank.append {first second : List Char} (hfirst : Blank first) (hsecond : Blank second) :
    Blank (first ++ second) :=
  List.forall_mem_append.mpr ⟨hfirst, hsecond⟩

/-- A bracket or a comma. -/
def Delimiter (c : Char) : Prop := c = '[' ∨ c = ']' ∨ c = ','

/-- A way to write values, and to read them back, free of blanks and delimiters. -/
structure Numerals (α : Type*) where
  numeral : α → List Char
  read : List Char → Option α
  read_numeral : ∀ a, read (numeral a) = some a
  numeral_ne_nil : ∀ a, numeral a ≠ []
  not_blank : ∀ a, ∀ c ∈ numeral a, c.isWhitespace = false
  not_delimiter : ∀ a, ∀ c ∈ numeral a, ¬ Delimiter c

/-! ## Decimal numerals -/

/-- A sequence of digits, at least one. -/
def readDigits (digits : List Char) : Option ℕ :=
  if digits ≠ [] ∧ digits.all Char.isDigit then some (Nat.ofDigitChars 10 digits 0) else none

theorem isDigit_toDigits {n : ℕ} {c : Char} (hc : c ∈ Nat.toDigits 10 n) : c.isDigit = true :=
  Nat.isDigit_of_mem_toDigits (by omega) (by omega) hc

theorem readDigits_toDigits (n : ℕ) : readDigits (Nat.toDigits 10 n) = some n := by
  have hdigits : (Nat.toDigits 10 n).all Char.isDigit = true :=
    List.all_eq_true.mpr fun c hc => isDigit_toDigits hc
  rw [readDigits, if_pos ⟨Nat.toDigits_ne_nil, hdigits⟩, Nat.ofDigitChars_ten_toDigits]

def decimalNumeral : Int → List Char
  | .ofNat n => Nat.toDigits 10 n
  | .negSucc n => '-' :: Nat.toDigits 10 (n + 1)

def readDecimal : List Char → Option Int
  | '-' :: digits => (readDigits digits).map fun n => -(n : Int)
  | digits => (readDigits digits).map Int.ofNat

theorem readDecimal_toDigits (n : ℕ) : readDecimal (Nat.toDigits 10 n) = some (n : Int) := by
  unfold readDecimal
  split
  next digits hminus =>
    -- a minus sign is no digit
    have hmem : '-' ∈ Nat.toDigits 10 n := hminus ▸ List.mem_cons_self
    exact absurd (isDigit_toDigits hmem) (by decide)
  next => rw [readDigits_toDigits]; rfl

/-- A character of a decimal numeral. -/
def DecimalChar (c : Char) : Prop := c = '-' ∨ c.isDigit = true

theorem decimalChar_of_mem {z : Int} {c : Char} (hc : c ∈ decimalNumeral z) : DecimalChar c := by
  cases z with
  | ofNat n => exact .inr (isDigit_toDigits hc)
  | negSucc n =>
      rcases List.mem_cons.mp hc with rfl | hc
      · exact .inl rfl
      · exact .inr (isDigit_toDigits hc)

theorem DecimalChar.not_blank {c : Char} (hc : DecimalChar c) : c.isWhitespace = false := by
  by_contra hblank
  have hspace : c = ' ' ∨ c = '\t' ∨ c = '\r' ∨ c = '\n' := by
    simpa only [Char.isWhitespace, Bool.not_eq_false, Bool.or_eq_true, decide_eq_true_eq,
      or_assoc] using hblank
  rcases hspace with rfl | rfl | rfl | rfl <;> exact absurd hc (by simp [DecimalChar])

theorem DecimalChar.not_delimiter {c : Char} (hc : DecimalChar c) : ¬ Delimiter c := by
  rintro (rfl | rfl | rfl) <;> exact absurd hc (by simp [DecimalChar])

/-- The integers in decimal, with a minus sign before a negative one. -/
def decimal : Numerals Int where
  numeral := decimalNumeral
  read := readDecimal
  read_numeral z := by
    cases z with
    | ofNat n => exact readDecimal_toDigits n
    | negSucc n =>
        change (readDigits (Nat.toDigits 10 (n + 1))).map (fun n => -(n : Int)) = _
        rw [readDigits_toDigits]
        rfl
  numeral_ne_nil z := by
    cases z with
    | ofNat n => exact Nat.toDigits_ne_nil
    | negSucc n => exact List.cons_ne_nil _ _
  not_blank _ _ hc := (decimalChar_of_mem hc).not_blank
  not_delimiter _ _ hc := (decimalChar_of_mem hc).not_delimiter

/-! ## The texts of a list -/

/-- The separator stands behind every piece but the last. -/
theorem intercalate_concat {α : Type*} (sep : List α) (pieces : List (List α)) (last : List α) :
    sep.intercalate (pieces ++ [last]) = pieces.flatMap (fun piece => piece ++ sep) ++ last := by
  induction pieces with
  | nil => exact List.intercalate_singleton
  | cons piece pieces ih =>
      have hne : pieces ++ [last] ≠ [] := by simp
      rw [List.cons_append, List.intercalate_cons_of_ne_nil hne, ih, List.flatMap_cons]
      simp only [List.append_assoc]

theorem mem_intercalate_of_mem {α : Type*} {sep piece : List α} {pieces : List (List α)} {c : α}
    (hpiece : piece ∈ pieces) (hc : c ∈ piece) : c ∈ sep.intercalate pieces := by
  rcases List.eq_nil_or_concat pieces with rfl | ⟨first, last, rfl⟩
  · cases hpiece
  · rw [List.concat_eq_append] at hpiece ⊢
    rw [intercalate_concat, List.mem_append, List.mem_flatMap]
    rcases List.mem_append.mp hpiece with hfirst | hlast
    · exact .inl ⟨piece, hfirst, List.mem_append_left sep hc⟩
    · exact .inr (List.mem_singleton.mp hlast ▸ hc)

theorem notMem_intercalate {α : Type*} {sep : List α} {pieces : List (List α)} {c : α}
    (hsep : c ∉ sep) (hpieces : ∀ piece ∈ pieces, c ∉ piece) : c ∉ sep.intercalate pieces := by
  rcases List.eq_nil_or_concat pieces with rfl | ⟨first, last, rfl⟩
  · exact List.not_mem_nil
  · rw [List.concat_eq_append] at hpieces ⊢
    rw [intercalate_concat, List.mem_append, List.mem_flatMap]
    rintro (⟨piece, hpiece, hc⟩ | hc)
    · rcases List.mem_append.mp hc with hc | hc
      · exact hpieces piece (List.mem_append_left _ hpiece) hc
      · exact hsep hc
    · exact hpieces last (List.mem_append_right first (List.mem_singleton_self last)) hc

namespace Numerals

variable {α : Type*} (numerals : Numerals α)

/-- The numeral of a value with blanks around it. -/
def Padded (a : α) (piece : List Char) : Prop :=
  ∃ before after, Blank before ∧ Blank after ∧ piece = before ++ numerals.numeral a ++ after

def Bracketed (items : List α) (text : List Char) : Prop :=
  ∃ pieces after, List.Forall₂ numerals.Padded items pieces ∧ Blank after ∧
    text = '[' :: ([','].intercalate pieces ++ ']' :: after)

/-- The text of a list up to the comma behind the items so far. -/
def Begun (items : List α) (text : List Char) : Prop :=
  ∃ pieces after, List.Forall₂ numerals.Padded items pieces ∧ Blank after ∧
    text = '[' :: (pieces.flatMap (fun piece => piece ++ [',']) ++ after)

variable {numerals} {items : List α} {text : List Char} {a : α}

theorem Padded.not_mem {piece : List Char} (hpiece : numerals.Padded a piece) {c : Char}
    (hc : Delimiter c) : c ∉ piece := by
  obtain ⟨before, after, hbefore, hafter, rfl⟩ := hpiece
  have hspace : c.isWhitespace = false := by rcases hc with rfl | rfl | rfl <;> rfl
  intro hmem
  rcases List.mem_append.mp hmem with hmem | hmem
  · rcases List.mem_append.mp hmem with hmem | hmem
    · rw [hbefore c hmem] at hspace
      cases hspace
    · exact numerals.not_delimiter a c hmem hc
  · rw [hafter c hmem] at hspace
    cases hspace

theorem Padded.exists_visible {piece : List Char} (hpiece : numerals.Padded a piece) :
    ∃ c ∈ piece, c.isWhitespace = false := by
  obtain ⟨before, after, -, -, rfl⟩ := hpiece
  obtain ⟨c, hc⟩ := List.exists_mem_of_ne_nil _ (numerals.numeral_ne_nil a)
  exact ⟨c, by simp [hc], numerals.not_blank a c hc⟩

/-- Pieces that only padded numerals are in contain no delimiter. -/
theorem not_mem_of_forall₂ {pieces : List (List Char)}
    (hpieces : List.Forall₂ numerals.Padded items pieces) {c : Char} (hc : Delimiter c) :
    ∀ piece ∈ pieces, c ∉ piece := by
  induction hpieces with
  | nil =>
      intro piece hmem
      cases hmem
  | cons hpiece _ ih => exact List.forall_mem_cons.mpr ⟨hpiece.not_mem hc, ih⟩

theorem Bracketed.close_mem (hitems : numerals.Bracketed items text) : ']' ∈ text := by
  obtain ⟨pieces, after, -, -, rfl⟩ := hitems
  simp

theorem Begun.close_notMem (hitems : numerals.Begun items text) : ']' ∉ text := by
  obtain ⟨pieces, after, hpieces, hafter, rfl⟩ := hitems
  intro hmem
  simp only [List.mem_cons, List.mem_append, List.mem_flatMap, Char.reduceEq, false_or,
    List.not_mem_nil, or_false] at hmem
  rcases hmem with ⟨piece, hpiece, hmem⟩ | hmem
  · exact not_mem_of_forall₂ hpieces (.inr (.inl rfl)) piece hpiece hmem
  · exact absurd (hafter _ hmem) (by decide)

/-- An opening bracket begins a list. -/
theorem begun_nil {blanks : List Char} (hblanks : Blank blanks) :
    numerals.Begun [] ('[' :: blanks) :=
  ⟨[], blanks, .nil, hblanks, rfl⟩

/-- A numeral and a comma carry a list that has begun on. -/
theorem Begun.comma (hitems : numerals.Begun items text) (a : α) {before after : List Char}
    (hbefore : Blank before) (hafter : Blank after) :
    numerals.Begun (items ++ [a]) (text ++ before ++ numerals.numeral a ++ [','] ++ after) := by
  obtain ⟨pieces, blanks, hpieces, hblanks, rfl⟩ := hitems
  refine ⟨pieces ++ [blanks ++ before ++ numerals.numeral a], after, ?_, hafter, ?_⟩
  · have hpadded : numerals.Padded a (blanks ++ before ++ numerals.numeral a) :=
      ⟨blanks ++ before, [], hblanks.append hbefore, blank_replicate 0, by simp⟩
    exact List.rel_append hpieces (.cons hpadded .nil)
  · simp [List.flatMap_append]

/-- A numeral and a bracket end it. -/
theorem Begun.close (hitems : numerals.Begun items text) (a : α) {before after later : List Char}
    (hbefore : Blank before) (hafter : Blank after) (hlater : Blank later) :
    numerals.Bracketed (items ++ [a])
      (text ++ before ++ numerals.numeral a ++ after ++ ']' :: later) := by
  obtain ⟨pieces, blanks, hpieces, hblanks, rfl⟩ := hitems
  refine ⟨pieces ++ [blanks ++ before ++ numerals.numeral a ++ after], later, ?_, hlater, ?_⟩
  · have hpadded : numerals.Padded a (blanks ++ before ++ numerals.numeral a ++ after) :=
      ⟨blanks ++ before, after, hblanks.append hbefore, hafter, by simp⟩
    exact List.rel_append hpieces (.cons hpadded .nil)
  · rw [intercalate_concat]
    simp

/-! ## Reading -/

/-- The text without the blanks at its ends. -/
def trim (text : List Char) : List Char :=
  ((text.dropWhile Char.isWhitespace).reverse.dropWhile Char.isWhitespace).reverse

theorem dropWhile_blank {before rest : List Char} (hbefore : Blank before) (hne : rest ≠ [])
    (hrest : ∀ c ∈ rest, c.isWhitespace = false) (after : List Char) :
    (before ++ (rest ++ after)).dropWhile Char.isWhitespace = rest ++ after := by
  obtain ⟨c, tail, rfl⟩ := List.exists_cons_of_ne_nil hne
  rw [List.dropWhile_append_of_pos hbefore, List.cons_append]
  have hc : c.isWhitespace = false := hrest c List.mem_cons_self
  exact List.dropWhile_cons_of_neg (by simp [hc])

theorem Padded.trim {piece : List Char} (hpiece : numerals.Padded a piece) :
    trim piece = numerals.numeral a := by
  obtain ⟨before, after, hbefore, hafter, rfl⟩ := hpiece
  have hne := numerals.numeral_ne_nil a
  have hplain := numerals.not_blank a
  have hreverse : ∀ c ∈ (numerals.numeral a).reverse, c.isWhitespace = false :=
    fun c hc => hplain c (List.mem_reverse.mp hc)
  have hafterReverse : Blank after.reverse := fun c hc => hafter c (List.mem_reverse.mp hc)
  have hback := dropWhile_blank hafterReverse (List.reverse_ne_nil_iff.mpr hne) hreverse []
  rw [Numerals.trim, List.append_assoc, dropWhile_blank hbefore hne hplain, List.reverse_append]
  rw [List.append_nil] at hback
  rw [hback, List.reverse_reverse]

variable (numerals) in
/-- The items of a bracketed list, if the text is one. -/
def readBracketed : List Char → Option (List α)
  | '[' :: rest =>
      match rest.splitOn ']' with
      | [inside, after] =>
          if after.all Char.isWhitespace = false then none
          else if inside.all Char.isWhitespace then some []
          else (inside.splitOn ',').mapM fun piece => numerals.read (trim piece)
      | _ => none
  | _ => none

theorem mapM_read {pieces : List (List Char)}
    (hpieces : List.Forall₂ numerals.Padded items pieces) :
    pieces.mapM (fun piece => numerals.read (trim piece)) = some items := by
  induction hpieces with
  | nil => rfl
  | cons hpiece _ ih =>
      rw [List.mapM_cons, hpiece.trim, numerals.read_numeral, ih]
      rfl

/-- A list is read back from any text of it, so it shares none with another list. -/
theorem Bracketed.read (hitems : numerals.Bracketed items text) :
    numerals.readBracketed text = some items := by
  obtain ⟨pieces, after, hpieces, hafter, rfl⟩ := hitems
  have hcomma := not_mem_of_forall₂ hpieces (.inr (.inr rfl))
  have hclose : ']' ∉ [','].intercalate pieces :=
    notMem_intercalate (by decide) (not_mem_of_forall₂ hpieces (.inr (.inl rfl)))
  have hcloseAfter : ']' ∉ after := fun hmem => absurd (hafter _ hmem) (by decide)
  have hsplit : ([','].intercalate pieces ++ ']' :: after).splitOn ']' =
      [[','].intercalate pieces, after] := by
    rw [List.splitOn_append_cons_self_of_not_mem hclose, List.splitOn_eq_singleton hcloseAfter]
  have hblank : after.all Char.isWhitespace = true := List.all_eq_true.mpr hafter
  rw [readBracketed, hsplit]
  dsimp only
  rw [if_neg (by simp [hblank])]
  cases hpieces with
  | nil => rfl
  | @cons a piece items pieces hpiece hrest =>
      have hvisible : ([','].intercalate (piece :: pieces)).all Char.isWhitespace = false := by
        obtain ⟨c, hc, hplain⟩ := hpiece.exists_visible
        exact List.all_eq_false.mpr
          ⟨c, mem_intercalate_of_mem List.mem_cons_self hc, by simp [hplain]⟩
      rw [if_neg (by simp [hvisible]), List.splitOn_intercalate ',' hcomma (List.cons_ne_nil _ _)]
      exact mapM_read (.cons hpiece hrest)

end Numerals

end Foundation

import Rocpmd.Logger.Recovery

/-!
# The text of the log

Each line of the log begins with a date in ISO 8601 and is ended by `endl`. What the file holds can
be cut into its lines again, and what a refused line left behind them is no line or one that ends
with it.
-/

namespace Rocpmd

/-! ## The date -/

/-- What `gmtime` makes of a time that has four digits in its year: the buffer of `log` has no room
for more. The months are counted from 0. -/
structure CalendarTime where
  year : Fin 10000
  month : Fin 12
  day : Fin 32
  hour : Fin 24
  minute : Fin 60
  second : Fin 61
deriving DecidableEq, Repr

/-- The last digits of a number, with zeros in front. -/
def zeroPadded : ℕ → ℕ → List Char
  | 0, _ => []
  | width + 1, n => zeroPadded width (n / 10) ++ [Nat.digitChar (n % 10)]

theorem length_zeroPadded (width n : ℕ) : (zeroPadded width n).length = width := by
  induction width generalizing n with
  | zero => rfl
  | succ width ih => rw [zeroPadded, List.length_append, ih, List.length_singleton]

theorem isDigit_of_mem_zeroPadded {width n : ℕ} {c : Char} (hc : c ∈ zeroPadded width n) :
    c.isDigit = true := by
  induction width generalizing n with
  | zero => cases hc
  | succ width ih =>
      rcases List.mem_append.mp hc with hc | hc
      · exact ih hc
      · rw [List.eq_of_mem_singleton hc]
        have hdigits : ∀ digit : Fin 10, (Nat.digitChar digit).isDigit = true := by decide
        exact hdigits ⟨n % 10, Nat.mod_lt _ (by decide)⟩

namespace CalendarTime

/-- `strftime` with the format `%Y-%m-%d %H:%M:%S`. -/
def iso8601Date (time : CalendarTime) : String :=
  .ofList (zeroPadded 4 time.year ++ '-' :: zeroPadded 2 (time.month + 1) ++
    '-' :: zeroPadded 2 time.day ++ ' ' :: zeroPadded 2 time.hour ++
    ':' :: zeroPadded 2 time.minute ++ ':' :: zeroPadded 2 time.second)

/-- With the 0 behind it the date fills the buffer of 20 bytes. -/
theorem length_iso8601Date (time : CalendarTime) : time.iso8601Date.length = 19 := by
  simp only [iso8601Date, String.length_ofList, List.length_append, List.length_cons,
    length_zeroPadded]

theorem lineEnd_notMem_iso8601Date (time : CalendarTime) : '\n' ∉ time.iso8601Date.toList := by
  have hdigits (width n : ℕ) : '\n' ∉ zeroPadded width n :=
    fun hmem => absurd (isDigit_of_mem_zeroPadded hmem) (by decide)
  simp [iso8601Date, hdigits]

end CalendarTime

/-! ## Lines -/

/-- The lines of a text that have an end. -/
def readLines (text : List Char) : List (List Char) := (text.splitOn '\n').dropLast

theorem readLines_of_no_end {torn : List Char} (htorn : '\n' ∉ torn) : readLines torn = [] := by
  rw [readLines, List.splitOn_eq_singleton htorn]
  rfl

theorem readLines_endedLines {lines : List (List Char)} (hlines : ∀ line ∈ lines, '\n' ∉ line)
    (rest : List Char) : readLines (endedLines lines ++ rest) = lines ++ readLines rest := by
  induction lines with
  | nil => rfl
  | cons line others ih =>
      obtain ⟨hline, hothers⟩ := List.forall_mem_cons.mp hlines
      have htext : endedLines (line :: others) ++ rest =
          line ++ '\n' :: (endedLines others ++ rest) := by
        simp [endedLines]
      rw [htext, readLines, List.splitOn_append_cons_self_of_not_mem hline,
        List.dropLast_cons_of_ne_nil (List.splitOn_ne_nil _ _)]
      exact congrArg _ (ih hothers)

theorem readLines_line {line : List Char} (hline : '\n' ∉ line) :
    readLines (line ++ ['\n']) = [line] := by
  rw [readLines, List.splitOn_append_cons_self_of_not_mem hline]
  rfl

/-- A refused line is read back as nothing; or, if the file had room for it again when the log was
closed, as one line that ends with it, behind what the file had taken of it before. -/
theorem readLines_leftover {refused : LogCall} (hline : '\n' ∉ refused.line)
    (hrefused : refused.fits = false) (room : ℕ) :
    ∃ late : Option (List Char), readLines (Logger.leftover refused room) = late.toList ∧
      (room = 0 → late = none) ∧
      ∀ told ∈ late, ∃ torn, torn <+: refused.line ∧ told = torn ++ refused.line := by
  have hroom : refused.room ≤ refused.line.length :=
    Nat.lt_succ_iff.mp (Nat.not_le.mp (of_decide_eq_false hrefused))
  have htorn : refused.torn = refused.line.take refused.room := List.take_append_of_le_length hroom
  have hnoEnd (n : ℕ) : '\n' ∉ refused.line.take n := fun hmem => hline (List.mem_of_mem_take hmem)
  rw [Logger.leftover, htorn, Logger.keptOf]
  split
  next =>
    -- the whole line waits in the buffer
    by_cases hclose : room ≤ refused.line.length
    · refine ⟨none, ?_, fun _ => rfl, by simp⟩
      rw [List.take_append_of_le_length hclose]
      exact readLines_of_no_end (by simp [hnoEnd])
    · have hall : (refused.line ++ ['\n']).take room = refused.line ++ ['\n'] := by
        refine List.take_of_length_le ?_
        rw [List.length_append, List.length_singleton]
        exact Nat.not_le.mp hclose
      refine ⟨some (refused.line.take refused.room ++ refused.line), ?_, ?_, ?_⟩
      · rw [hall, ← List.append_assoc]
        exact readLines_line (by simp [hnoEnd, hline])
      · rintro rfl
        exact absurd (Nat.zero_le _) hclose
      · rintro told ⟨⟩
        exact ⟨_, List.take_prefix _ _, rfl⟩
  next =>
    split
    next hwhole =>
      -- only its end does
      have hall : refused.line.take refused.room = refused.line := List.take_of_length_le hwhole
      rw [hall]
      cases room with
      | zero => exact ⟨none, readLines_of_no_end (by simpa using hline), fun _ => rfl, by simp⟩
      | succ room =>
          refine ⟨some refused.line, ?_, by simp, ?_⟩
          · rw [List.take_of_length_le (by simp)]
            exact readLines_line hline
          · rintro told ⟨⟩
            exact ⟨[], List.nil_prefix, rfl⟩
    next =>
      refine ⟨none, ?_, fun _ => rfl, by simp⟩
      rw [List.take_nil, List.append_nil]
      exact readLines_of_no_end (hnoEnd _)

end Rocpmd

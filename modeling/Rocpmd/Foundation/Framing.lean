import Mathlib.Data.List.Infix
import Mathlib.Tactic.Common

/-!
# Words in a byte stream

A stream socket delivers bytes without boundaries. `words` cuts a stream into the complete
four-element words it carries, however it was split on the way; a trailing partial word is none.
-/

namespace Foundation

variable {α : Type*}

/-- The complete words of a stream, in order. -/
def words : List α → List (List α)
  | a :: b :: c :: d :: rest => [a, b, c, d] :: words rest
  | _ => []

/-- Bytes that arrive later only add words. -/
theorem words_prefix_append (stream later : List α) : words stream <+: words (stream ++ later) := by
  induction stream using words.induct with
  | case1 a b c d rest ih =>
      simp only [words, List.cons_append, List.prefix_cons_inj]
      exact ih
  | case2 stream hshort =>
      -- fewer than four elements hold no word
      have hnone : words stream = [] := by
        unfold words
        split
        next a b c d rest => exact absurd rfl (hshort a b c d rest)
        next => rfl
      rw [hnone]
      exact List.nil_prefix

variable [DecidableEq α]

/-- How many complete words of a stream are the given one. -/
def countWord (word stream : List α) : ℕ := (words stream).count word

theorem countWord_le_append (word stream later : List α) :
    countWord word stream ≤ countWord word (stream ++ later) :=
  (words_prefix_append stream later).sublist.count_le word

end Foundation

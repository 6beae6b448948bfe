import Mathlib.Data.List.Basic
import Rocpmd.Logger

/-!
# Calls after a failure

`logger::log` throws if the stream is in error after its write, and nothing ever clears the error.
The caller catches the exception and calls again at the next reading.
-/

namespace Rocpmd

/-- A call of `logger::log`, and how much room the file has for it. -/
structure LogCall where
  stamp : String
  msg : String
  room : ℕ
deriving DecidableEq, Repr

namespace LogCall

def line (call : LogCall) : List Char := logLine call.stamp call.msg

/-- There is room for the line and its end. -/
def fits (call : LogCall) : Bool := decide (call.line.length + 1 ≤ call.room)

/-- What the file takes of a line that does not fit. -/
def torn (call : LogCall) : List Char := (call.line ++ ['\n']).take call.room

end LogCall

/-- The first line that the file refuses. -/
def firstRefused (calls : List LogCall) : Option LogCall := calls.find? fun call => !call.fits

/-- Lines as the stream writes them. -/
def endedLines (lines : List (List Char)) : List Char := lines.flatMap fun line => line ++ ['\n']

namespace Logger

/-- The state in which the constructor leaves the logger. -/
def opened : Logger := ⟨[], none⟩

/-- Calls one after the other: whether each returned, and the logger after them. -/
def logAll (logger : Logger) : List LogCall → List Bool × Logger
  | [] => ([], logger)
  | call :: rest =>
      let (returned, next) := logger.log call.stamp call.msg call.room
      let (results, last) := next.logAll rest
      (returned :: results, last)

/-- The lines of the calls that returned. -/
def returnedLines (calls : List LogCall) (results : List Bool) : List (List Char) :=
  ((calls.zip results).filter Prod.snd).map fun (call, _) => call.line

/-- A call throws exactly if its own line could not be written, and once the log is closed the file
holds the lines of the others. -/
structure Recovers (calls : List LogCall) (room : ℕ) : Prop where
  returned : (opened.logAll calls).1 = calls.map LogCall.fits
  text : (opened.logAll calls).2.close room =
    endedLines (returnedLines calls (opened.logAll calls).1)

/-! ## One call -/

section Log

variable {logger : Logger} {call : LogCall}

theorem log_of_fits (hok : logger.kept = none) (hfits : call.fits = true) :
    logger.log call.stamp call.msg call.room =
      (true, ⟨logger.text ++ (call.line ++ ['\n']), none⟩) := by
  have hroom : call.line.length + 1 ≤ call.room := of_decide_eq_true hfits
  simp only [log, hok]
  exact if_pos hroom

theorem log_of_not_fits (hok : logger.kept = none) (hfits : call.fits = false) :
    logger.log call.stamp call.msg call.room =
      (false, ⟨logger.text ++ call.torn, some (keptOf call.line call.room)⟩) := by
  have hroom : ¬ call.line.length + 1 ≤ call.room := of_decide_eq_false hfits
  simp only [log, hok]
  exact if_neg hroom

theorem log_of_kept {kept : List Char} (hfailed : logger.kept = some kept) :
    logger.log call.stamp call.msg call.room = (false, logger) := by
  simp only [log, hfailed]

end Log

/-! ## Calls in a row -/

/-- After a failure every call throws and writes nothing. -/
theorem logAll_of_kept {logger : Logger} {kept : List Char} (hfailed : logger.kept = some kept)
    (calls : List LogCall) :
    logger.logAll calls = (List.replicate calls.length false, logger) := by
  induction calls with
  | nil => rfl
  | cons call rest ih =>
      rw [logAll, log_of_kept hfailed]
      dsimp only
      rw [ih]
      rfl

theorem logAll_returned {logger : Logger} (hok : logger.kept = none) (calls : List LogCall) :
    (logger.logAll calls).1 = List.replicate (calls.takeWhile LogCall.fits).length true ++
      List.replicate (calls.dropWhile LogCall.fits).length false := by
  induction calls generalizing logger with
  | nil => rfl
  | cons call rest ih =>
      rw [logAll]
      cases hfits : call.fits with
      | true =>
          rw [log_of_fits hok hfits, List.takeWhile_cons_of_pos hfits,
            List.dropWhile_cons_of_pos hfits]
          exact congrArg (true :: ·) (ih rfl)
      | false =>
          have hnot : ¬ call.fits = true := by simp [hfits]
          rw [log_of_not_fits hok hfits, List.takeWhile_cons_of_neg hnot,
            List.dropWhile_cons_of_neg hnot]
          dsimp only
          rw [logAll_of_kept rfl]
          rfl

/-- The file holds the lines up to the first that it refused, and of that one what it had room
for. -/
theorem logAll_logger {logger : Logger} (hok : logger.kept = none) (calls : List LogCall) :
    (logger.logAll calls).2 =
      ⟨logger.text ++ endedLines ((calls.takeWhile LogCall.fits).map LogCall.line) ++
          ((firstRefused calls).map LogCall.torn).getD [],
        (firstRefused calls).map fun call => keptOf call.line call.room⟩ := by
  induction calls generalizing logger with
  | nil =>
      obtain ⟨text, kept⟩ := logger
      obtain rfl : kept = none := hok
      simp [logAll, firstRefused, endedLines]
  | cons call rest ih =>
      rw [logAll]
      cases hfits : call.fits with
      | true =>
          have hrest : firstRefused (call :: rest) = firstRefused rest := by
            simp [firstRefused, hfits]
          rw [log_of_fits hok hfits, List.takeWhile_cons_of_pos hfits, hrest]
          dsimp only
          rw [ih rfl]
          simp [endedLines]
      | false =>
          have hrefused : firstRefused (call :: rest) = some call := by
            simp [firstRefused, hfits]
          rw [log_of_not_fits hok hfits, List.takeWhile_cons_of_neg (by simp [hfits]), hrefused]
          dsimp only
          rw [logAll_of_kept rfl]
          simp [endedLines]

theorem returnedLines_logAll {logger : Logger} (hok : logger.kept = none)
    (calls : List LogCall) : returnedLines calls (logger.logAll calls).1 =
      (calls.takeWhile LogCall.fits).map LogCall.line := by
  rw [logAll_returned hok]
  clear hok
  induction calls with
  | nil => rfl
  | cons call rest ih =>
      cases hfits : call.fits with
      | true =>
          rw [List.takeWhile_cons_of_pos hfits, List.dropWhile_cons_of_pos hfits]
          exact congrArg (call.line :: ·) ih
      | false =>
          have hnot : ¬ call.fits = true := by simp [hfits]
          rw [List.takeWhile_cons_of_neg hnot, List.dropWhile_cons_of_neg hnot,
            returnedLines, List.map_nil, List.map_eq_nil_iff, List.filter_eq_nil_iff]
          rintro ⟨other, returned⟩ hmem
          rw [List.eq_of_mem_replicate (List.of_mem_zip hmem).2]
          simp

/-- What a refused line leaves behind the lines before it, once the log is closed. -/
def leftover (refused : LogCall) (room : ℕ) : List Char :=
  refused.torn ++ (keptOf refused.line refused.room).take room

/-- The file after calls and the destructor. -/
theorem close_logAll (calls : List LogCall) (room : ℕ) :
    (opened.logAll calls).2.close room =
      endedLines ((calls.takeWhile LogCall.fits).map LogCall.line) ++
        ((firstRefused calls).map fun refused => leftover refused room).getD [] := by
  rw [logAll_logger rfl, close]
  cases firstRefused calls <;> simp [opened, leftover]

/-! ## When logging recovers -/

theorem returned_iff (calls : List LogCall) :
    (opened.logAll calls).1 = calls.map LogCall.fits ↔
      calls.Pairwise fun earlier later => later.fits = true → earlier.fits = true := by
  rw [logAll_returned rfl]
  induction calls with
  | nil => simp
  | cons call rest ih =>
      rw [List.pairwise_cons, List.map_cons]
      cases hfits : call.fits with
      | true =>
          rw [List.takeWhile_cons_of_pos hfits, List.dropWhile_cons_of_pos hfits]
          simp only [List.length_cons, List.replicate_succ, List.cons_append, List.cons.injEq,
            true_and, implies_true]
          exact ih
      | false =>
          -- the stream is in error from here on
          have hnot : ¬ call.fits = true := by simp [hfits]
          rw [List.takeWhile_cons_of_neg hnot, List.dropWhile_cons_of_neg hnot]
          simp only [List.length_nil, List.replicate_zero, List.nil_append, List.length_cons,
            List.replicate_succ, List.cons.injEq, true_and]
          constructor
          · intro hall
            have hnone : ∀ later ∈ rest, later.fits = false := by
              intro later hlater
              have hmem : later.fits ∈ List.replicate rest.length false := by
                rw [hall]
                exact List.mem_map_of_mem hlater
              exact List.eq_of_mem_replicate hmem
            refine ⟨fun later hlater h => ?_, List.pairwise_of_forall_mem_list ?_⟩
            · rw [hnone later hlater] at h
              cases h
            · intro earlier _ later hlater h
              rw [hnone later hlater] at h
              cases h
          · rintro ⟨hnone, -⟩
            rw [eq_comm, List.eq_replicate_iff]
            refine ⟨List.length_map _, fun returned hreturned => ?_⟩
            obtain ⟨later, hlater, rfl⟩ := List.mem_map.mp hreturned
            exact Bool.eq_false_iff.mpr fun h => Bool.noConfusion (hnone later hlater h)

/-- Nothing is left of a refused line if there was no room at all for it, neither in its call nor,
if it is in the buffer, at the end. -/
theorem leftover_eq_nil_iff (refused : LogCall) (room : ℕ) : leftover refused room = [] ↔
    refused.room = 0 ∧ (room = 0 ∨ streamBuffer ≤ refused.line.length) := by
  have htorn : refused.torn = [] ↔ refused.room = 0 := by simp [LogCall.torn]
  rw [leftover, List.append_eq_nil_iff, htorn]
  refine and_congr_right fun hnone => ?_
  rw [keptOf, hnone]
  split
  next hshort => simp [Nat.not_le.mpr hshort]
  next hlong =>
    have hpos : ¬ refused.line.length ≤ 0 := by
      have hbuffer : 0 < streamBuffer := by decide
      omega
    simp [hpos, Nat.not_lt.mp hlong]

/-- **When logging recovers.** In a sequence of calls each one throws exactly if its own line could
not be written, and the file ends up with the lines of the others, exactly when no line could be
written after one that could not, and not even a part of the first of those, neither in its call
nor, unless it is too long for the buffer of the stream, when the log is closed. -/
theorem recovers_iff (calls : List LogCall) (room : ℕ) : Recovers calls room ↔
    (calls.Pairwise fun earlier later => later.fits = true → earlier.fits = true) ∧
      ∀ refused ∈ firstRefused calls,
        refused.room = 0 ∧ (room = 0 ∨ streamBuffer ≤ refused.line.length) := by
  have htext : (opened.logAll calls).2.close room =
      endedLines (returnedLines calls (opened.logAll calls).1) ↔
        ∀ refused ∈ firstRefused calls,
          refused.room = 0 ∧ (room = 0 ∨ streamBuffer ≤ refused.line.length) := by
    rw [close_logAll, returnedLines_logAll rfl, List.append_right_eq_self]
    cases firstRefused calls with
    | none => simp
    | some refused => simpa using leftover_eq_nil_iff refused room
  rw [← returned_iff, ← htext]
  exact ⟨fun h => ⟨h.returned, h.text⟩, fun h => ⟨h.1, h.2⟩⟩

/-- The disk is full at the first reading and has room again at the second. Both calls throw, and
the destructor writes the line of the first one. -/
theorem freed_disk_not_logged :
    ¬ Recovers [⟨"2015-12-09 21:12:00", "12,54%", 0⟩, ⟨"2015-12-09 21:12:10", "13,41%", 4096⟩]
        4096 ∧
      (opened.logAll [⟨"2015-12-09 21:12:00", "12,54%", 0⟩,
        ⟨"2015-12-09 21:12:10", "13,41%", 4096⟩]).1 = [false, false] ∧
      (opened.logAll [⟨"2015-12-09 21:12:00", "12,54%", 0⟩,
        ⟨"2015-12-09 21:12:10", "13,41%", 4096⟩]).2.close 4096 =
          "2015-12-09 21:12:00: 12,54%\n".toList := by
  refine ⟨fun hrecovers => ?_, by decide, by decide⟩
  exact absurd hrecovers.returned (by decide)

end Logger

end Rocpmd

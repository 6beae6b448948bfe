import Mathlib.Tactic.Common

/-!
# The battery level log

An output stream remembers that it failed: once a write is refused, later ones are not attempted.
What was in its buffer then stays there until the stream is closed, which writes it once more.
-/

namespace Rocpmd

/-- A line of so many characters does not go through the buffer of the stream. -/
def streamBuffer : ℕ := 8191

def logLine (stamp msg : String) : List Char := (stamp ++ ": " ++ msg).toList

/-- The text in the file, and the state of the stream. -/
structure Logger where
  text : List Char
  /-- What the stream keeps of the line it failed at; `none` until it fails. -/
  kept : Option (List Char)
deriving DecidableEq, Repr

namespace Logger

/-- What stays in the buffer of a line that the file, with room for so many characters, refused. -/
def keptOf (line : List Char) (room : ℕ) : List Char :=
  if line.length < streamBuffer then line ++ ['\n']
  else if line.length ≤ room then ['\n']
  else []

/-- `logger::log` at the time `stamp`, on a file with room for so many characters. False stands for
the `runtime_error` it throws. -/
def log (logger : Logger) (stamp msg : String) (room : ℕ) : Bool × Logger :=
  let line := logLine stamp msg
  match logger.kept with
  | some _ => (false, logger)
  | none =>
      if line.length + 1 ≤ room then (true, ⟨logger.text ++ (line ++ ['\n']), none⟩)
      else (false, ⟨logger.text ++ (line ++ ['\n']).take room, some (keptOf line room)⟩)

/-- The file after the destructor has closed the stream, with room for so many characters. -/
def close (logger : Logger) (room : ℕ) : List Char :=
  logger.text ++ (logger.kept.getD []).take room

end Logger

end Rocpmd

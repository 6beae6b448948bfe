import Mathlib.Tactic.Common

/-!
# Signal dispositions

What `main` and `detach_terminal` install. A signal neither of them names keeps its default action,
which for all of these terminates the process.
-/

namespace Rocpmd

inductive Signal
  | hup | int | term | pipe
deriving DecidableEq, Repr

inductive Disposition
  | terminate
  | handler
  | ignore
deriving DecidableEq, Repr

/-- The calls of `signal` at the start of `main`. -/
def mainSignals : List (Signal × Disposition) :=
  [(.int, .handler), (.hup, .handler), (.term, .handler)]

/-- The call of `sigaction` in `detach_terminal`. -/
def detachSignals : List (Signal × Disposition) := [(.hup, .ignore)]

/-- The last installation that names the signal decides. -/
def dispositionAfter (installed : List (Signal × Disposition)) (signal : Signal) : Disposition :=
  (installed.reverse.lookup signal).getD .terminate

/-- The dispositions of a process that runs `daemon_main`. -/
def daemonDisposition : Signal → Disposition :=
  dispositionAfter (mainSignals ++ detachSignals)

end Rocpmd

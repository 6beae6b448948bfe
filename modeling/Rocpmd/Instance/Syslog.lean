import Rocpmd.Foundation.Descriptors
import Rocpmd.Foundation.Machine

/-!
# The descriptors of the process

Besides the files that rocpmd opens and closes there is the connection of `syslog` to the system
logger. The library keeps its descriptor and cannot see what rocpmd does to it: when a message
cannot be sent, it closes the descriptor, whatever is there by then, and connects anew.
-/

namespace Rocpmd

open Foundation

/-- What a descriptor of the process refers to. -/
inductive OpenFile
  | devNull
  | lockfile
  | socket (id : ℕ)
  | log
  /-- The connection of `syslog`. -/
  | logger
  /-- Any other file, among them those open before `main`. -/
  | other (id : ℕ)
deriving DecidableEq, Repr

/-- `send` fails on these with `ENOTSOCK`. -/
def OpenFile.refusesSend : OpenFile → Bool
  | .devNull | .lockfile | .log => true
  | .socket _ | .logger | .other _ => false

/-- What a call of `syslog` meets: whether the message can be sent over the connection there is,
whether the system logger can be connected to, and whether the message can be sent then. -/
structure LoggerAnswers where
  sent : Bool
  connected : Bool
  resent : Bool
deriving DecidableEq, Repr

/-- The descriptors of the process, those that calls have returned to rocpmd, and what it wrote to
`cerr`, each text with the file it went to. -/
structure Descriptors where
  table : DescriptorTable OpenFile
  /-- The descriptor that `syslog` takes for its connection. -/
  logFile : Option ℕ
  /-- No write to `cerr` has failed. -/
  cerrGood : Bool
  returned : List ℕ
  reported : List (OpenFile × String)

inductive DescriptorCall
  /-- `open`, `socket`, `accept` or the opening of a stream. -/
  | opens (file : OpenFile) (ok : Bool)
  /-- `close`, or the closing of a stream. -/
  | closes (fd : ℕ)
  | syslog (answers : LoggerAnswers)
  | logAndReport (msgPrefix msgPostfix : String) (answers : LoggerAnswers)
deriving Repr

namespace Descriptors

/-- The process at its start. -/
def start (table : DescriptorTable OpenFile) : Descriptors := ⟨table, none, true, [], []⟩

/-- A call that fails, of its own or because all descriptors are open, changes nothing. -/
def opens (limit : ℕ) (d : Descriptors) (file : OpenFile) (ok : Bool) : Descriptors :=
  if ok then
    match d.table.allocate limit 0 file with
    | some (fd, table) => { d with table := table, returned := fd :: d.returned }
    | none => d
  else d

def closelog (d : Descriptors) : Descriptors :=
  match d.logFile with
  | some fd => { d with table := d.table.close fd, logFile := none }
  | none => d

/-- The connection is made anew; where that fails, the descriptor is given back at once. -/
def openlog (limit : ℕ) (d : Descriptors) (connected : Bool) : Descriptors :=
  if connected then
    match d.table.allocate limit 0 .logger with
    | some (fd, table) => { d with table := table, logFile := some fd }
    | none => d
  else d

/-- The message can be sent at once. -/
def sends (d : Descriptors) (sent : Bool) : Bool :=
  match d.logFile.bind d.table with
  | some file => !file.refusesSend && sent
  | none => false

/-- `syslog`, as far as it opens and closes descriptors. -/
def syslog (limit : ℕ) (d : Descriptors) (answers : LoggerAnswers) : Descriptors :=
  if d.sends answers.sent then d
  else
    let opened := d.closelog.openlog limit answers.connected
    if answers.resent then opened else opened.closelog

/-- A text for `cerr`. After a write that failed the stream attempts no other. -/
def report (d : Descriptors) (text : String) : Descriptors :=
  if d.cerrGood then
    match d.table 2 with
    | some file => { d with reported := (file, text) :: d.reported }
    | none => { d with cerrGood := false }
  else d

def logAndReport (limit : ℕ) (d : Descriptors) (msgPrefix msgPostfix : String)
    (answers : LoggerAnswers) : Descriptors :=
  (d.report (msgPrefix ++ msgPostfix ++ "\n")).syslog limit answers

/-- rocpmd closes descriptors that calls have returned to it, one of them twice perhaps. Of those
that were open before, it closes higher ones only. -/
def step (limit : ℕ) (d : Descriptors) : DescriptorCall → Option Descriptors
  | .opens file ok => some (d.opens limit file ok)
  | .closes fd =>
      if fd ∈ d.returned ∨ 3 ≤ fd then some { d with table := d.table.close fd } else none
  | .syslog answers => some (d.syslog limit answers)
  | .logAndReport msgPrefix msgPostfix answers =>
      some (d.logAndReport limit msgPrefix msgPostfix answers)

end Descriptors

def descriptorMachine (limit : ℕ) : Machine Descriptors DescriptorCall where
  step := Descriptors.step limit

/-! ## What is kept -/

/-- The standard descriptors refer to what they did, if `syslog` has none of them that is open; and
what calls return are others. -/
structure Spared (limit : ℕ) (attached : DescriptorTable OpenFile) (d : Descriptors) : Prop where
  standard : ∀ fd < 3, d.table fd = attached fd
  logFile : ∀ fd ∈ d.logFile, 3 ≤ fd ∨ attached fd = none
  returned : ∀ fd ∈ d.returned, 3 ≤ fd
  reported : ∀ report ∈ d.reported, attached 2 = some report.1

namespace Spared

variable {limit : ℕ} {attached : DescriptorTable OpenFile} {d : Descriptors}

/-- What happens at a higher descriptor is of no concern. -/
theorem table_update (hd : Spared limit attached d) {fd : ℕ} (hhigh : 3 ≤ fd)
    (content : Option OpenFile) :
    ∀ low < 3, Function.update d.table fd content low = attached low := by
  intro low hlow
  have hne : low ≠ fd := by omega
  rw [Function.update_of_ne hne]
  exact hd.standard low hlow

/-- A new descriptor is a higher one if the standard ones are all open, as far as the limit
allows. -/
theorem le_of_allocate (hd : Spared limit attached d)
    (hopen : ∀ fd < 3, fd < limit → attached fd ≠ none) {file : OpenFile} {fd : ℕ}
    {next : DescriptorTable OpenFile} (halloc : d.table.allocate limit 0 file = some (fd, next)) :
    3 ≤ fd ∧ next = Function.update d.table fd (some file) := by
  obtain ⟨-, hlimit, hfree, hnext⟩ := DescriptorTable.allocate_spec halloc
  refine ⟨?_, hnext⟩
  by_contra hlow
  have hfd := Nat.not_le.mp hlow
  exact hopen fd hfd hlimit ((hd.standard fd hfd).symm.trans hfree)

theorem opens (hd : Spared limit attached d) (hopen : ∀ fd < 3, fd < limit → attached fd ≠ none)
    (file : OpenFile) (ok : Bool) : Spared limit attached (d.opens limit file ok) := by
  unfold Descriptors.opens
  split
  next =>
    split
    next fd table halloc =>
      obtain ⟨hhigh, rfl⟩ := hd.le_of_allocate hopen halloc
      exact ⟨hd.table_update hhigh _, hd.logFile, List.forall_mem_cons.mpr ⟨hhigh, hd.returned⟩,
        hd.reported⟩
    next => exact hd
  next => exact hd

theorem closelog (hd : Spared limit attached d) : Spared limit attached d.closelog := by
  unfold Descriptors.closelog
  split
  next fd hlogFile =>
    refine ⟨?_, by simp, hd.returned, hd.reported⟩
    rcases hd.logFile fd hlogFile with hhigh | hnone
    · exact hd.table_update hhigh none
    · -- there is nothing to close
      intro low hlow
      rcases eq_or_ne low fd with rfl | hne
      · exact (Function.update_self ..).trans hnone.symm
      · exact (Function.update_of_ne hne _ _).trans (hd.standard low hlow)
  next => exact hd

theorem openlog (hd : Spared limit attached d) (hopen : ∀ fd < 3, fd < limit → attached fd ≠ none)
    (connected : Bool) : Spared limit attached (d.openlog limit connected) := by
  unfold Descriptors.openlog
  split
  next =>
    split
    next fd table halloc =>
      obtain ⟨hhigh, rfl⟩ := hd.le_of_allocate hopen halloc
      exact ⟨hd.table_update hhigh _, by simpa using Or.inl hhigh, hd.returned, hd.reported⟩
    next => exact hd
  next => exact hd

theorem syslog (hd : Spared limit attached d) (hopen : ∀ fd < 3, fd < limit → attached fd ≠ none)
    (answers : LoggerAnswers) : Spared limit attached (d.syslog limit answers) := by
  have hopened := hd.closelog.openlog hopen answers.connected
  unfold Descriptors.syslog
  dsimp only
  split
  next => exact hd
  next =>
    split
    next => exact hopened
    next => exact hopened.closelog

theorem report (hd : Spared limit attached d) (text : String) :
    Spared limit attached (d.report text) := by
  unfold Descriptors.report
  split
  next =>
    split
    next file hstderr =>
      have hfile : attached 2 = some file := (hd.standard 2 (by omega)).symm.trans hstderr
      exact ⟨hd.standard, hd.logFile, hd.returned, List.forall_mem_cons.mpr ⟨hfile, hd.reported⟩⟩
    next => exact ⟨hd.standard, hd.logFile, hd.returned, hd.reported⟩
  next => exact hd

theorem step (hd : Spared limit attached d) (hopen : ∀ fd < 3, fd < limit → attached fd ≠ none)
    {call : DescriptorCall} {next : Descriptors}
    (hstep : (descriptorMachine limit).step d call = some next) : Spared limit attached next := by
  cases call with
  | opens file ok =>
      obtain rfl := Option.some.inj hstep
      exact hd.opens hopen file ok
  | closes fd =>
      obtain ⟨hallowed, hclosed⟩ := Option.ite_none_right_eq_some.mp hstep
      obtain rfl := Option.some.inj hclosed
      have hhigh : 3 ≤ fd := hallowed.elim (hd.returned fd) id
      exact ⟨hd.table_update hhigh none, hd.logFile, hd.returned, hd.reported⟩
  | syslog answers =>
      obtain rfl := Option.some.inj hstep
      exact hd.syslog hopen answers
  | logAndReport msgPrefix msgPostfix answers =>
      obtain rfl := Option.some.inj hstep
      exact (hd.report _).syslog hopen answers

/-- A process that is started with its standard descriptors open keeps them. -/
theorem of_reachable {table : DescriptorTable OpenFile} (htable : ∀ fd < 3, table fd ≠ none)
    (hreach : (descriptorMachine limit).Reachable (.start table) d) : Spared limit table d := by
  apply hreach.invariant
  · exact ⟨fun _ _ => rfl, by simp [Descriptors.start], by simp [Descriptors.start],
      by simp [Descriptors.start]⟩
  · intro s call next hs _ hstep
    exact hs.step (fun fd hlow _ => htable fd hlow) hstep

end Spared

end Rocpmd

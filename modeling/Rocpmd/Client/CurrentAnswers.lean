import Rocpmd.Board.PoweredDaemon
import Rocpmd.Client.QueryRun

/-!
# A query to the daemon on the board

An invocation of the program asks the daemon on the board, while the battery, the supply and other
clients do what they like. No line it prints is stale: each tells what there was to find on the
board at a measurement that was the latest one at some moment of its call.
-/

namespace Rocpmd

open Foundation

/-! ## The system -/

inductive BoardQueryEvent
  | query (event : QueryEvent)
  | around (change : Surrounding)

/-- A ghost beside the query: the board as its latest measurement met it, the boards that were such
since the client connected, and the calls that have returned with theirs. -/
structure Calls where
  latest : Field
  met : List Field
  returned : List (LevelQuery × List Field)

namespace Installation

variable (install : Installation) (limits : Limits) (powerLevel : LevelQuery → CommandBuffer)

/-- The daemon and the client run while there is power. -/
def queryMachine : Machine (QueryRun Field) BoardQueryEvent where
  step s event :=
    if s.daemon.world.controller.state = .powerOff then none
    else
      match event with
      | .query event =>
          (Rocpmd.queryMachine (install.setup limits) powerLevel).step s event
      | .around change =>
          some { s with daemon := { s.daemon with world := s.daemon.world.surround change } }

def recordCall (calls : Calls) (s : QueryRun Field) : BoardQueryEvent → Calls
  | .query (.daemon event) =>
      let latest := install.measuredOn limits calls.latest s.daemon (.daemon event)
      { calls with latest := latest, met := latest :: calls.met }
  | .query (.client _) =>
      match s.pc with
      | .connect => { calls with met := [calls.latest] }
      | .close _ _ =>
          { calls with
            returned := calls.returned ++
              s.pending.head?.toList.map fun query => (query, calls.met) }
      | _ => calls
  | .around _ => calls

/-- The client measures nothing. -/
theorem recordCall_client_latest (calls : Calls) (s : QueryRun Field) (taken : ClientEvent) :
    (install.recordCall limits calls s (.query (.client taken))).latest =
      calls.latest := by
  unfold recordCall
  dsimp only
  split <;> rfl

/-- The calls of the client succeed, and it reads whole replies. -/
def CallsSucceed (s : QueryRun Field) : BoardQueryEvent → Prop
  | .query (.client event) => s.Undisturbed (install.setup limits) (.client event)
  | .query (.daemon _) | .around _ => True

instance (s : QueryRun Field) : ∀ event, Decidable (install.CallsSucceed limits s event)
  | .query (.client event) =>
      inferInstanceAs (Decidable (s.Undisturbed (install.setup limits) (.client event)))
  | .query (.daemon _) | .around _ => inferInstanceAs (Decidable True)

end Installation

/-! ## Steps -/

section Steps

variable {install : Installation} {limits : Limits} {powerLevel : LevelQuery → CommandBuffer}
  {s next : QueryRun Field} {event : BoardQueryEvent}

namespace Installation

/-- What a step of the system is a step of. -/
inductive QueryStep (install : Installation) (limits : Limits)
    (powerLevel : LevelQuery → CommandBuffer) (s : QueryRun Field) :
    BoardQueryEvent → QueryRun Field → Prop
  | daemon {taken : DaemonEvent} {d : Daemon Field}
      (hspares : ∀ id, s.pc.connection = some id → taken.isClientOf id = false)
      (hstep : (install.poweredMachine limits).step s.daemon (.daemon taken) = some d) :
      QueryStep install limits powerLevel s (.query (.daemon taken))
        { s with daemon := d }
  | client {taken : ClientEvent} {query : LevelQuery} {rest : List LevelQuery}
      {next : QueryRun Field} (hpending : s.pending = query :: rest)
      (hstep : QueryRun.ClientStep powerLevel s query next) :
      QueryStep install limits powerLevel s (.query (.client taken)) next
  | around {change : Surrounding}
      (hpower : s.daemon.world.controller.state ≠ .powerOff) :
      QueryStep install limits powerLevel s (.around change)
        { s with daemon := { s.daemon with world := s.daemon.world.surround change } }

theorem QueryStep.of_step (hcond : install.CallsSucceed limits s event)
    (hstep : (install.queryMachine limits powerLevel).step s event = some next) :
    QueryStep install limits powerLevel s event next := by
  simp only [queryMachine, Rocpmd.queryMachine] at hstep
  split at hstep
  next => cases hstep
  next hpower =>
    cases event with
    | around change =>
        obtain rfl := Option.some.inj hstep
        exact .around hpower
    | query event =>
        cases event with
        | daemon taken =>
            simp only [QueryRun.step] at hstep
            split at hstep
            next => cases hstep
            next hspares =>
              obtain ⟨d, hd, rfl⟩ := Option.map_eq_some_iff.mp hstep
              exact .daemon (fun id hid => by simpa [hid] using hspares)
                ((if_neg hpower).trans hd)
        | client taken =>
            simp only [QueryRun.step] at hstep
            split at hstep
            next => cases hstep
            next query rest hpending =>
              exact .client hpending (QueryRun.ClientStep.of_step hcond hstep)

end Installation

/-- What the daemon of a query keeps. -/
structure DaemonServes (install : Installation) (d : Daemon Field) (latest : Field) : Prop where
  shows : ShowsBoard install (d, latest)
  backlog : BacklogInvariant d

theorem DaemonServes.daemonStep {d next : Daemon Field} {latest : Field} {event : PoweredEvent}
    (hserves : DaemonServes install d latest)
    (hstep : (install.poweredMachine limits).step d event = some next) :
    DaemonServes install next (install.measuredOn limits latest d event) where
  shows := by
    have hmonitored : ((install.poweredMachine limits).monitored
        (install.measuredOn limits)).step (d, latest) event =
          some (next, install.measuredOn limits latest d event) := by
      simp [Machine.monitored, hstep]
    exact hserves.shows.step hmonitored
  backlog := by
    obtain ⟨-, ⟨taken, rfl, htaken⟩ | ⟨change, rfl, rfl⟩⟩ := Installation.poweredMachine_step hstep
    · exact htaken.backlogInvariant hserves.backlog
    · exact ⟨hserves.backlog.connection_lt, hserves.backlog.off_of_pending⟩

theorem DaemonServes.clientStep {latest : Field} (setup : Setup Field) {query : LevelQuery}
    (hserves : DaemonServes install s.daemon latest)
    (hstep : QueryRun.ClientStep powerLevel s query next) :
    DaemonServes install next.daemon latest where
  shows := by
    have hshows := hserves.shows
    cases hstep <;>
      exact ⟨hshows.deselected, hshows.metDeselected, hshows.lastReading,
        hshows.latest.of_same rfl rfl rfl⟩
  backlog := by
    rcases hstep.daemon setup with hsame | ⟨_, hdaemon⟩
    · rw [hsame]
      exact hserves.backlog
    · exact (Daemon.Step.of_step hdaemon).backlogInvariant hserves.backlog

end Steps

/-- An exchange is a matter of the connection alone. -/
theorem QueryRun.Exchanging.withWorld {d : Daemon Field} {query : LevelQuery}
    {reply : Option (List UInt8)} {pc : ClientPc} (hex : QueryRun.Exchanging d query reply pc)
    (field : Field) : QueryRun.Exchanging { d with world := field } query reply pc := by
  have hsocket : ∀ {id}, d.OnLevelSocket id →
      Daemon.OnLevelSocket { d with world := field } id :=
    fun h => ⟨h.lt, h.not_queued, h.handled, h.peerOpen⟩
  have hunanswered : ∀ {id sent}, d.Unanswered query id sent →
      Daemon.Unanswered { d with world := field } query id sent :=
    fun h => ⟨h.outbox, h.inbox, h.reading, h.serving⟩
  cases hex with
  | connect => exact .connect
  | write hlevel hquery => exact .write (hsocket hlevel) (hunanswered hquery)
  | asked hlevel hquery => exact .asked (hsocket hlevel) (hunanswered hquery)
  | answered hlevel h => exact .answered (hsocket hlevel) ⟨h.outbox, h.inbox, h.not_serving⟩
  | received => exact .received

/-! ## What is printed -/

theorem Field.IsReading.isInt {field : Field} {reading : Int} (hreading : field.IsReading reading) :
    IsInt reading := by
  unfold Field.IsReading at hreading
  split at hreading
  next =>
    obtain ⟨level, -, rfl⟩ := hreading
    have hlevel := level.isLt
    constructor <;> omega
  next => exact hreading ▸ by decide

/-- The answer is the one to the query from what there was to find on one of the boards. -/
def AnswersOneOf (conf : Config) (query : LevelQuery) (boards : List Field) (answer : Int) : Prop :=
  ∃ field ∈ boards, ∃ reading, field.IsReading reading ∧ answer = query.answer conf reading

theorem AnswersOneOf.mono {conf : Config} {query : LevelQuery} {boards more : List Field}
    {answer : Int} (hanswers : AnswersOneOf conf query boards answer) (hmore : boards ⊆ more) :
    AnswersOneOf conf query more answer := by
  obtain ⟨field, hfield, hreading⟩ := hanswers
  exact ⟨field, hmore hfield, hreading⟩

theorem AnswersOneOf.isInt {conf : Config} (hconf : ∀ i, IsInt (conf.getPowermapElementAt i))
    {query : LevelQuery} {boards : List Field} {answer : Int}
    (hanswers : AnswersOneOf conf query boards answer) : IsInt answer := by
  obtain ⟨field, -, reading, hreading, rfl⟩ := hanswers
  cases query with
  | percent => exact isInt_mapBatteryLevel hconf reading
  | raw => exact hreading.isInt

/-- The server answers from the board as the latest measurement met it. -/
theorem DaemonServes.answers {install : Installation} {d : Daemon Field} {latest : Field}
    (hserves : DaemonServes install d latest) (query : LevelQuery) {boards : List Field}
    (hlatest : latest ∈ boards) :
    AnswersOneOf install.conf query boards (query.served d.ud) := by
  refine ⟨latest, hlatest, d.history.lastReading, ?_, hserves.shows.latest.served_eq query⟩
  have hreading : d.history.lastReading =
      (gpioReadBatteryLevelRaw install.sysfs install.conf latest).1 := hserves.shows.lastReading
  rw [hreading]
  exact (install.measurement_finds latest hserves.shows.metDeselected).1

/-- How far `main` has got: what it has printed, and the call it is in. -/
structure Current (install : Installation) (queries : List LevelQuery)
    (s : QueryRun Field × Calls) : Prop where
  asked : s.2.returned.map Prod.fst ++ s.1.pending = queries
  printed : List.Forall₂ (fun call line => ∃ answer,
    AnswersOneOf install.conf call.1 call.2 answer ∧ line = ReportLine.ofAnswer call.1 answer)
    s.2.returned s.1.lines
  met : s.1.pc ≠ .connect → s.2.latest ∈ s.2.met
  call : ∀ query rest, s.1.pending = query :: rest →
    ∃ reply : Option Int, QueryRun.Exchanging s.1.daemon query (reply.map intBytes) s.1.pc ∧
      ∀ answer ∈ reply, AnswersOneOf install.conf query s.2.met answer

namespace Current

variable {install : Installation} {limits : Limits} {powerLevel : LevelQuery → CommandBuffer}
  {queries : List LevelQuery} {s next : QueryRun Field} {calls : Calls}

theorem start (d : Daemon Field) (opts : CmdlineOptions) (field : Field) :
    Current install opts.levelQueries (.start d opts, ⟨field, [], []⟩) where
  asked := rfl
  printed := .nil
  met := fun hpc => absurd rfl hpc
  call := fun _ _ _ => ⟨none, .connect, nofun⟩

theorem daemonStep (hcurrent : Current install queries (s, calls))
    (hserves : DaemonServes install s.daemon calls.latest) {taken : DaemonEvent} {d : Daemon Field}
    (hspares : ∀ id, s.pc.connection = some id → taken.isClientOf id = false)
    (hstep : Daemon.Step (install.setup limits) s.daemon taken d) :
    Current install queries ({ s with daemon := d },
      install.recordCall limits calls s (.query (.daemon taken))) where
  asked := hcurrent.asked
  printed := hcurrent.printed
  met := fun _ => List.mem_cons_self
  call := by
    intro query rest hpending
    obtain ⟨reply, hex, hanswers⟩ := hcurrent.call query rest hpending
    rcases hex.daemonStep hstep hspares with hex' | ⟨-, ⟨id, hpc, -⟩, hex'⟩
    · exact ⟨reply, hex', fun answer h => (hanswers answer h).mono (List.subset_cons_self _ _)⟩
    · -- the reply is written: the latest measurement is one of the call
      have hlatest : calls.latest ∈ calls.met := hcurrent.met (by rw [hpc]; nofun)
      refine ⟨some (query.served s.daemon.ud), hex', fun answer h => ?_⟩
      obtain rfl := Option.some.inj h
      exact (hserves.answers query hlatest).mono (List.subset_cons_self _ _)

/-- A call goes on. -/
theorem of_exchanging {query : LevelQuery} {rest : List LevelQuery} {reply : Option Int}
    {later : Calls} (hcurrent : Current install queries (s, calls))
    (hpending : s.pending = query :: rest) (hsame : next.pending = s.pending)
    (hlines : next.lines = s.lines) (hreturned : later.returned = calls.returned)
    (hlatest : later.latest ∈ later.met)
    (hex : QueryRun.Exchanging next.daemon query (reply.map intBytes) next.pc)
    (hanswers : ∀ answer ∈ reply, AnswersOneOf install.conf query later.met answer) :
    Current install queries (next, later) where
  asked := by
    rw [hreturned, hsame]
    exact hcurrent.asked
  printed := by
    rw [hreturned, hlines]
    exact hcurrent.printed
  met := fun _ => hlatest
  call := by
    intro other others hother
    have hqueries := hpending.symm.trans (hsame.symm.trans hother)
    cases hqueries
    exact ⟨reply, hex, hanswers⟩

theorem clientStep (hconf : ∀ i, IsInt (install.conf.getPowermapElementAt i))
    (hcurrent : Current install queries (s, calls))
    (hserves : DaemonServes install s.daemon calls.latest) {query : LevelQuery}
    {rest : List LevelQuery} (hpending : s.pending = query :: rest)
    (hstep : QueryRun.ClientStep powerLevel s query next) (taken : ClientEvent) :
    Current install queries (next,
      install.recordCall limits calls s (.query (.client taken))) := by
  obtain ⟨reply, hex, hanswers⟩ := hcurrent.call query rest hpending
  have hwhole : ∀ bytes ∈ reply.map intBytes, bytes.length = 4 := by
    intro bytes hbytes
    obtain ⟨answer, -, rfl⟩ := Option.mem_map.mp hbytes
    exact QueryRun.length_intBytes answer
  have hgoesOn : next.pending = s.pending → next.lines = s.lines ∧
      QueryRun.Exchanging next.daemon query (reply.map intBytes) next.pc := by
    intro hsame
    rcases hex.clientStep hserves.backlog hwhole hstep with ⟨-, hlines, hex'⟩ | ⟨_, _, _, -, rfl⟩
    · exact ⟨hlines, hex'⟩
    · simp [QueryRun.close, QueryRun.report, hpending] at hsame
  unfold Installation.recordCall
  cases hstep with
  | connected hpc =>
      obtain ⟨hlines, hex'⟩ := hgoesOn rfl
      obtain rfl : reply = none := by
        rw [hpc] at hex
        cases reply with
        | none => rfl
        | some => cases hex
      simp only [hpc]
      refine hcurrent.of_exchanging hpending rfl hlines rfl List.mem_cons_self hex' ?_
      intro _ h
      cases h
  | written hpc | received hpc =>
      obtain ⟨hlines, hex'⟩ := hgoesOn rfl
      have hlatest : calls.latest ∈ calls.met := hcurrent.met (by rw [hpc]; simp)
      simp only [hpc]
      exact hcurrent.of_exchanging hpending rfl hlines rfl hlatest hex' hanswers
  | @closed id exchange hpc =>
      rw [hpc] at hex
      simp only [hpc]
      obtain ⟨answer, hshort, rfl, rfl⟩ : ∃ answer hshort, reply = some answer ∧
          exchange = .received (intBytes answer) hshort := by
        cases reply with
        | none => cases hex
        | some answer =>
            cases hex with
            | received => exact ⟨answer, _, rfl, rfl⟩
      have hanswer := hanswers answer rfl
      have hasked := hcurrent.asked
      rw [hpending] at hasked
      refine ⟨?_, ?_, fun hclosed => absurd rfl hclosed, fun _ _ _ => ⟨none, .connect, ?_⟩⟩
      · simpa [QueryRun.close, QueryRun.report, hpending] using hasked
      · rw [QueryRun.lines_close s query id (hanswer.isInt hconf), hpending]
        exact List.rel_append hcurrent.printed (.cons ⟨answer, hanswer, rfl⟩ .nil)
      · intro _ h
        cases h

/-- What happens around the board has no part in a call. -/
theorem around (hcurrent : Current install queries (s, calls)) (field : Field) :
    Current install queries ({ s with daemon := { s.daemon with world := field } }, calls) where
  asked := hcurrent.asked
  printed := hcurrent.printed
  met := hcurrent.met
  call := by
    intro query rest hpending
    obtain ⟨reply, hex, hanswers⟩ := hcurrent.call query rest hpending
    exact ⟨reply, hex.withWorld field, hanswers⟩

end Current

/-- **No line is stale.** The battery, the supply, the button and other clients do what they like
beside the daemon on the board, which had a descriptor to spare at its start, and one invocation of
the program whose calls succeed. The calls
return in the order of the options, and each line printed tells what there was to find on the board
at a measurement that was the latest one at some moment of its call. -/
theorem printed_lines_current (install : Installation) (limits : Limits)
    (powerLevel : LevelQuery → CommandBuffer)
    (hconf : ∀ i, IsInt (install.conf.getPowermapElementAt i)) {field : Field}
    (hselect : field.comparator.select = true) (lastRead : Timeval) (log : Option Logger)
    (net : Network) {descriptors : Finset ℕ}
    (hfree : lowestFree limits.descriptors descriptors ≠ none) (opts : CmdlineOptions)
    {s : QueryRun Field × Calls}
    (hreach : ((install.queryMachine limits powerLevel).monitored
      (install.recordCall limits)).ReachableUnder
        (fun s event => install.CallsSucceed limits s.1 event)
        (.start (Daemon.start (install.setup limits) field lastRead log net descriptors)
          opts, ⟨field, [], []⟩) s) :
    s.2.returned.map Prod.fst ++ s.1.pending = opts.levelQueries ∧
      List.Forall₂ (fun call line => ∃ answer, AnswersOneOf install.conf call.1 call.2 answer ∧
        line = ReportLine.ofAnswer call.1 answer) s.2.returned s.1.lines := by
  have hinv : DaemonServes install s.1.daemon s.2.latest ∧
      Current install opts.levelQueries s := by
    apply hreach.invariant
    · exact ⟨⟨.start hselect lastRead log net hfree,
        Daemon.backlogInvariant_start field lastRead log net descriptors⟩, .start _ opts field⟩
    rintro ⟨s, calls⟩ event ⟨next, later⟩ ⟨hserves, hcurrent⟩ hcond hnext
    obtain ⟨hquery, rfl⟩ : _ ∧ later = _ := Machine.monitored_step hnext
    cases Installation.QueryStep.of_step hcond hquery with
    | @daemon taken d hspares hstep =>
        refine ⟨hserves.daemonStep hstep, ?_⟩
        obtain ⟨-, ⟨_, heq, htaken⟩ | ⟨_, heq, -⟩⟩ := Installation.poweredMachine_step hstep
        · cases heq
          exact hcurrent.daemonStep hserves hspares htaken
        · cases heq
    | @client taken query rest _ hpending hstep =>
        refine ⟨?_, hcurrent.clientStep hconf hserves hpending hstep taken⟩
        rw [install.recordCall_client_latest]
        exact hserves.clientStep (install.setup limits) hstep
    | @around change hpower =>
        have hstep : (install.poweredMachine limits).step s.daemon (.around change) =
            some { s.daemon with world := s.daemon.world.surround change } := if_neg hpower
        exact ⟨hserves.daemonStep hstep, hcurrent.around _⟩
  exact ⟨hinv.2.asked, hinv.2.printed⟩

/-- Both values are asked for, and the supply is plugged in between the two calls. -/
def pluggedInBetween : List BoardQueryEvent :=
  [.query (.client (.connect true)), .around (.battery (fun p => decide (20 < p.val)) true),
    .query (.daemon (.iterate ⟨20, 0⟩ "" 4096)), .query (.daemon (.select true)),
    .query (.daemon (.accept true)), .query (.client (.write true)),
    .query (.daemon (.read 4 true)), .query (.daemon (.serve true)),
    .query (.client (.read 4 true)), .query (.client .close), .query (.daemon (.read 4 true)),
    .query (.daemon .checkOff), .around (.battery (fun p => decide (20 < p.val)) false),
    .query (.client (.connect true)), .query (.daemon (.iterate ⟨40, 0⟩ "" 4096)),
    .query (.daemon (.select true)), .query (.daemon (.accept true)),
    .query (.client (.write true)), .query (.daemon (.read 4 true)),
    .query (.daemon (.serve true)), .query (.client (.read 4 true)), .query (.client .close)]

theorem printed_lines_current_pluggedInBetween : ∃ s,
    ((Installation.shipped.queryMachine .usual fun _ => .init).monitored
      (Installation.shipped.recordCall .usual)).run
        (.start Field.switchedOn.daemon ⟨false, true, true, false⟩, ⟨.switchedOn, [], []⟩)
        pluggedInBetween = some s ∧
      s.1.lines = [.rawPowerLevel 20, .charging] ∧
      (s.2.returned.map Prod.fst ++ s.1.pending = [.raw, .percent] ∧
        List.Forall₂ (fun call line => ∃ answer, AnswersOneOf .shipped call.1 call.2 answer ∧
          line = ReportLine.ofAnswer call.1 answer) s.2.returned s.1.lines) := by
  have hmeets : ((Installation.shipped.queryMachine .usual fun _ => .init).monitored
      (Installation.shipped.recordCall .usual)).Meets
        (fun s event => Installation.shipped.CallsSucceed .usual s.1 event)
        (.start Field.switchedOn.daemon ⟨false, true, true, false⟩, ⟨.switchedOn, [], []⟩)
        pluggedInBetween := by
    decide +kernel
  have hrun : ∃ s ∈ ((Installation.shipped.queryMachine .usual fun _ => .init).monitored
      (Installation.shipped.recordCall .usual)).run
        (.start Field.switchedOn.daemon ⟨false, true, true, false⟩, ⟨.switchedOn, [], []⟩)
        pluggedInBetween,
      s.1.lines = [.rawPowerLevel 20, .charging] := by
    decide +kernel
  obtain ⟨s, hs, hlines⟩ := hrun
  exact ⟨s, hs, hlines, printed_lines_current .shipped .usual (fun _ => .init) isInt_shipped rfl
    ⟨0, 0⟩ none .empty (by decide +kernel) ⟨false, true, true, false⟩
    (Machine.ReachableUnder.start.of_run hmeets hs)⟩

end Rocpmd

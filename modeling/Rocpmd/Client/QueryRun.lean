import Rocpmd.Client.SingleQuery

/-!
# A query beside the running daemon

One invocation of the program asks the daemon for both values, each on a connection of its own. The
daemon goes on in between: it takes measurements and serves others at any point.
-/

namespace Rocpmd

open Foundation

variable {W : Type}

/-! ## The client and the daemon -/

/-- Where `ud_client_send_command` is in its system calls; `close` is the last and remembers what
the others came to. -/
inductive ClientPc
  | connect
  | write (id : ℕ)
  | read (id : ℕ)
  | close (id : ℕ) (exchange : Exchange)
deriving DecidableEq, Repr

inductive ClientEvent
  | connect (ok : Bool)
  | write (ok : Bool)
  | read (n : ℕ) (ok : Bool)
  | close
deriving Repr

inductive QueryEvent
  | daemon (event : DaemonEvent)
  | client (event : ClientEvent)
deriving Repr

/-- The daemon, the queries that `main` has still to make and the lines it has printed. -/
structure QueryRun (W : Type) where
  daemon : Daemon W
  pending : List LevelQuery
  pc : ClientPc
  lines : List ReportLine

/-- The process of the daemon has ended. -/
def DaemonPc.ended : DaemonPc → Bool
  | .halted | .killed => true
  | _ => false

/-- The connection the client has open. -/
def ClientPc.connection : ClientPc → Option ℕ
  | .connect => none
  | .write id | .read id | .close id _ => some id

namespace QueryRun

/-- The lines `main` prints if a daemon lives are yet to come. -/
def start (d : Daemon W) (opts : CmdlineOptions) : QueryRun W :=
  ⟨d, opts.levelQueries, .connect, []⟩

/-- `ud_client_send_command` returns, and `main` prints the line for its result. `powerLevel` is the
local variable of each call as the stack left it. -/
def report (powerLevel : LevelQuery → CommandBuffer) (s : QueryRun W) (query : LevelQuery)
    (exchange : Exchange) : QueryRun W :=
  { s with
    pending := s.pending.tail
    pc := .connect
    lines := s.lines ++ answerLines
      (fun query => udClientSendCommand query.command.code (powerLevel query) exchange) [query] }

/-- `socket` and `connect`, which is refused once the daemon has ended. -/
def connect (powerLevel : LevelQuery → CommandBuffer) (s : QueryRun W) (query : LevelQuery)
    (ok : Bool) : Option (QueryRun W) :=
  if ok = false then some (s.report powerLevel query .connectFailed)
  else if s.daemon.pc.ended then none
  else
    some { s with
      daemon := { s.daemon with net := s.daemon.net.connect query.command.listener }
      pc := .write s.daemon.net.nextConnection }

/-- A client that writes to a daemon that has ended is terminated by SIGPIPE, and has no step. -/
def write (s : QueryRun W) (query : LevelQuery) (id : ℕ) (ok : Bool) : Option (QueryRun W) :=
  if s.daemon.pc.ended then none
  else if ok = false then some { s with pc := .close id .writeFailed }
  else
    (s.daemon.net.send id query.command.buffer.bytes).map fun net =>
      { s with daemon := { s.daemon with net := net }, pc := .read id }

/-- The first four bytes at most of what the daemon has written. There is nothing more to read once
the daemon has ended, and until then the call blocks while there is nothing to read. -/
def read (s : QueryRun W) (id n : ℕ) (ok : Bool) : Option (QueryRun W) :=
  let outbox := s.daemon.outbox id
  if ok = false then some { s with pc := .close id .readFailed }
  else if outbox = [] then
    if s.daemon.pc.ended then some { s with pc := .close id (.received [] (by decide)) } else none
  else if hn : 0 < n ∧ n ≤ 4 ∧ n ≤ outbox.length then
    some { s with
      pc := .close id (.received (outbox.take n) ((List.length_take_le _ _).trans hn.2.1)) }
  else none

def close (powerLevel : LevelQuery → CommandBuffer) (s : QueryRun W) (query : LevelQuery) (id : ℕ)
    (exchange : Exchange) : QueryRun W :=
  { s with daemon := { s.daemon with net := s.daemon.net.close id } }.report powerLevel query
    exchange

def clientStep (powerLevel : LevelQuery → CommandBuffer) (s : QueryRun W) (query : LevelQuery)
    (event : ClientEvent) : Option (QueryRun W) :=
  match event, s.pc with
  | .connect ok, .connect => s.connect powerLevel query ok
  | .write ok, .write id => s.write query id ok
  | .read n ok, .read id => s.read id n ok
  | .close, .close id exchange => some (s.close powerLevel query id exchange)
  | _, _ => none

/-- The events of the daemon include those of other clients, which have no part in the connection of
this one. -/
def step (setup : Setup W) (powerLevel : LevelQuery → CommandBuffer) (s : QueryRun W) :
    QueryEvent → Option (QueryRun W)
  | .daemon event =>
      if s.pc.connection.any event.isClientOf then none
      else (s.daemon.step setup event).map fun d => { s with daemon := d }
  | .client event =>
      match s.pending with
      | [] => none
      | query :: _ => s.clientStep powerLevel query event

end QueryRun

def queryMachine (setup : Setup W) (powerLevel : LevelQuery → CommandBuffer) :
    Machine (QueryRun W) QueryEvent where
  step := QueryRun.step setup powerLevel

/-! ## What is printed -/

/-- The second line is the percentage of the level on the first, and says charging if that does. -/
def OneMeasurement (conf : Config) (lines : List ReportLine) : Prop :=
  ∀ first second, lines = [first, second] →
    (second = .charging ↔ first = .charging) ∧
    ∀ level, first = .rawPowerLevel level →
      second = .percentagePowerLevel (conf.getPowermapElementAt level.toNat)

/-- What `main` measures itself it reports so. -/
theorem oneMeasurement_reportBySysfs (opts : CmdlineOptions) (conf : Config) (r : Int) :
    OneMeasurement conf (reportBySysfs opts conf r) := by
  intro first second hlines
  unfold reportBySysfs at hlines
  split at hlines
  next =>
    split_ifs at hlines
    · obtain ⟨rfl, rfl⟩ : _ ∧ _ := by simpa using hlines
      exact ⟨by simp, fun level hlevel => by cases hlevel; rfl⟩
    all_goals simp at hlines
  next => simp at hlines

/-! ## The condition -/

namespace ClientPc

/-- The daemon has replied on the connection. -/
def HasReply (d : Daemon W) : ClientPc → Prop
  | .connect | .write _ => False
  | .read id => d.outbox id ≠ []
  | .close _ _ => True

/-- The event is the daemon's reply to the query that the client waits for. -/
def GetsReply (d : Daemon W) (event : DaemonEvent) : ClientPc → Prop
  | .read id => d.Replies id event
  | .connect | .write _ | .close _ _ => False

instance (d : Daemon W) : ∀ pc : ClientPc, Decidable (pc.HasReply d)
  | .connect | .write _ => inferInstanceAs (Decidable False)
  | .read id => inferInstanceAs (Decidable (d.outbox id ≠ []))
  | .close _ _ => inferInstanceAs (Decidable True)

instance (d : Daemon W) (event : DaemonEvent) : ∀ pc : ClientPc, Decidable (pc.GetsReply d event)
  | .read id => inferInstanceAs (Decidable (d.Replies id event))
  | .connect | .write _ | .close _ _ => inferInstanceAs (Decidable False)

end ClientPc

namespace QueryRun

/-- The daemon has replied to the first query and not yet to the second. -/
def Between (s : QueryRun W) : Prop :=
  s.pending.head? = some .raw ∧ s.pc.HasReply s.daemon ∨
    s.pending.head? = some .percent ∧ ¬ s.pc.HasReply s.daemon

instance (s : QueryRun W) : Decidable s.Between := inferInstanceAs (Decidable (_ ∨ _))

/-- The calls of the client succeed and it reads whole replies; the level it is told has a
percentage that is not negative; and no measurement taken between the two replies has another. -/
def Undisturbed (setup : Setup W) (s : QueryRun W) : QueryEvent → Prop
  | .client (.connect ok) | .client (.write ok) => ok = true
  | .client (.read n ok) => ok = true ∧ n = 4 ∧ s.pc.HasReply s.daemon
  | .client .close => True
  | .daemon (.serve ok) =>
      s.pending.head? = some .raw → s.pc.GetsReply s.daemon (.serve ok) →
        0 ≤ s.daemon.ud.batteryLevelRaw →
        0 ≤ setup.conf.getPowermapElementAt s.daemon.ud.batteryLevelRaw.toNat
  | .daemon (.iterate now _ _) =>
      s.Between → reqOffOutcome setup s.daemon = .opened "1" →
        intervalExpired setup s.daemon now = true →
        mapBatteryLevel setup.conf (levelReading setup s.daemon) =
          mapBatteryLevel setup.conf s.daemon.history.lastReading
  | .daemon _ => True

instance (setup : Setup W) (s : QueryRun W) : ∀ event, Decidable (s.Undisturbed setup event)
  | .client (.connect ok) | .client (.write ok) => inferInstanceAs (Decidable (ok = true))
  | .client (.read _ _) => inferInstanceAs (Decidable (_ ∧ _ ∧ s.pc.HasReply s.daemon))
  | .client .close => inferInstanceAs (Decidable True)
  | .daemon (.serve ok) =>
      inferInstanceAs (Decidable (_ → s.pc.GetsReply s.daemon (.serve ok) → _ → _))
  | .daemon (.iterate _ _ _) => inferInstanceAs (Decidable (s.Between → _ → _ → _))
  | .daemon (.select _) | .daemon (.accept _) | .daemon (.read _ _) | .daemon .checkOff
  | .daemon (.connect _) | .daemon (.send _ _) | .daemon (.receive _ _) | .daemon (.close _) =>
      inferInstanceAs (Decidable True)

/-! ## Steps -/

variable {setup : Setup W} {powerLevel : LevelQuery → CommandBuffer} {s next : QueryRun W}

/-- The steps of a client whose calls succeed. -/
inductive ClientStep (powerLevel : LevelQuery → CommandBuffer) (s : QueryRun W)
    (query : LevelQuery) : QueryRun W → Prop
  | connected (hpc : s.pc = .connect) :
      ClientStep powerLevel s query
        { s with
          daemon := { s.daemon with net := s.daemon.net.connect query.command.listener }
          pc := .write s.daemon.net.nextConnection }
  | written {id : ℕ} {net : Network} (hpc : s.pc = .write id)
      (hsend : s.daemon.net.send id query.command.buffer.bytes = some net) :
      ClientStep powerLevel s query
        { s with daemon := { s.daemon with net := net }, pc := .read id }
  | received {id : ℕ} {hshort : ((s.daemon.outbox id).take 4).length ≤ 4} (hpc : s.pc = .read id)
      (hlength : 4 ≤ (s.daemon.outbox id).length) :
      ClientStep powerLevel s query
        { s with pc := .close id (.received ((s.daemon.outbox id).take 4) hshort) }
  | closed {id : ℕ} {exchange : Exchange} (hpc : s.pc = .close id exchange) :
      ClientStep powerLevel s query (s.close powerLevel query id exchange)

theorem ClientStep.of_step {query : LevelQuery} {event : ClientEvent}
    (hcond : s.Undisturbed setup (.client event))
    (hstep : s.clientStep powerLevel query event = some next) :
    ClientStep powerLevel s query next := by
  unfold clientStep at hstep
  split at hstep
  next ok hpc =>
    obtain rfl : ok = true := hcond
    unfold connect at hstep
    rw [if_neg (by decide)] at hstep
    split at hstep
    next => cases hstep
    next =>
      obtain rfl := Option.some.inj hstep
      exact .connected hpc
  next ok id hpc =>
    obtain rfl : ok = true := hcond
    unfold write at hstep
    split at hstep
    next => cases hstep
    next =>
      rw [if_neg (by decide)] at hstep
      obtain ⟨net, hsend, rfl⟩ := Option.map_eq_some_iff.mp hstep
      exact .written hpc hsend
  next n ok id hpc =>
    obtain ⟨rfl, rfl, hreply⟩ := hcond
    have hoccupied : s.daemon.outbox id ≠ [] := by rwa [hpc] at hreply
    unfold read at hstep
    dsimp only at hstep
    rw [if_neg (by decide), if_neg hoccupied] at hstep
    split at hstep
    next hn =>
      obtain rfl := Option.some.inj hstep
      exact .received hpc hn.2.2
    next => cases hstep
  next id exchange hpc =>
    obtain rfl := Option.some.inj hstep
    exact .closed hpc
  next => cases hstep

/-- To the daemon this client is one like any other. -/
theorem ClientStep.daemon (setup : Setup W) {query : LevelQuery}
    (hstep : ClientStep powerLevel s query next) :
    next.daemon = s.daemon ∨
      ∃ event, (daemonMachine setup).step s.daemon event = some next.daemon := by
  cases hstep with
  | connected => exact .inr ⟨.connect query.command.listener, rfl⟩
  | @written id net hpc hsend =>
      refine .inr ⟨.send id query.command.buffer.bytes, ?_⟩
      simp [daemonMachine, Daemon.step, hsend]
  | received => exact .inl rfl
  | @closed id => exact .inr ⟨.close id, rfl⟩

theorem ClientStep.history_eq {query : LevelQuery}
    (hstep : ClientStep powerLevel s query next) : next.daemon.history = s.daemon.history := by
  cases hstep <;> rfl

/-! ## One exchange -/

/-- How far the client has got with a query, and the reply once the daemon has written it. -/
inductive Exchanging (d : Daemon W) (query : LevelQuery) :
    Option (List UInt8) → ClientPc → Prop
  | connect : Exchanging d query none .connect
  | write {id : ℕ} (hsocket : d.OnLevelSocket id) (hquery : d.Unanswered query id []) :
      Exchanging d query none (.write id)
  | asked {id : ℕ} (hsocket : d.OnLevelSocket id)
      (hquery : d.Unanswered query id query.command.buffer.bytes) :
      Exchanging d query none (.read id)
  | answered {id : ℕ} {reply : List UInt8} (hsocket : d.OnLevelSocket id)
      (hanswered : d.Answered id reply) : Exchanging d query (some reply) (.read id)
  | received {id : ℕ} {reply : List UInt8} {hshort : reply.length ≤ 4} :
      Exchanging d query (some reply) (.close id (.received reply hshort))

variable {query : LevelQuery} {reply : Option (List UInt8)}

theorem Exchanging.hasReply_iff {d : Daemon W} {pc : ClientPc} (hex : Exchanging d query reply pc)
    (hwhole : ∀ bytes ∈ reply, bytes.length = 4) : pc.HasReply d ↔ reply.isSome := by
  cases hex with
  | connect | write => exact iff_of_false id nofun
  | asked _ hquery => exact iff_of_false (not_not_intro hquery.outbox) nofun
  | @answered id bytes _ hanswered =>
      refine iff_of_true ?_ rfl
      rw [ClientPc.HasReply, hanswered.outbox, ← List.length_pos_iff, hwhole bytes rfl]
      decide
  | received => exact iff_of_true trivial rfl

theorem Exchanging.daemonStep {d next : Daemon W} {event : DaemonEvent} {pc : ClientPc}
    (hex : Exchanging d query reply pc) (hstep : Daemon.Step setup d event next)
    (hspares : ∀ id, pc.connection = some id → event.isClientOf id = false) :
    Exchanging next query reply pc ∨
      reply = none ∧ (∃ id, pc = .read id ∧ d.Replies id event) ∧
        Exchanging next query (some (intBytes (query.served d.ud))) pc := by
  cases hex with
  | connect => exact .inl .connect
  | @write id hsocket hquery =>
      have hspares := hspares id rfl
      have hsocket' := hstep.onLevelSocket hspares hsocket
      rcases hstep.unanswered hspares hsocket (.inl rfl) hquery with hquery' | ⟨hsent, -⟩
      · exact .inl (.write hsocket' hquery')
      · exact absurd rfl hsent
  | @asked id hsocket hquery =>
      have hspares := hspares id rfl
      have hsocket' := hstep.onLevelSocket hspares hsocket
      rcases hstep.unanswered hspares hsocket (.inr rfl) hquery with
        hquery' | ⟨-, hreplies, hreply⟩
      · exact .inl (.asked hsocket' hquery')
      · exact .inr ⟨rfl, ⟨id, rfl, hreplies⟩, .answered hsocket' hreply⟩
  | @answered id _ hsocket hanswered =>
      have hspares := hspares id rfl
      exact .inl (.answered (hstep.onLevelSocket hspares hsocket)
        (hstep.answered hspares hsocket hanswered))
  | received => exact .inl .received

theorem Exchanging.clientStep (hbacklog : BacklogInvariant s.daemon)
    (hex : Exchanging s.daemon query reply s.pc) (hwhole : ∀ bytes ∈ reply, bytes.length = 4)
    (hstep : ClientStep powerLevel s query next) :
    (next.pending = s.pending ∧ next.lines = s.lines ∧
        Exchanging next.daemon query reply next.pc) ∨
      ∃ id bytes hshort, reply = some bytes ∧
        next = s.close powerLevel query id (.received bytes hshort) := by
  generalize hs : s.pc = pc at hex
  cases hstep with
  | connected hpc =>
      cases hs.symm.trans hpc
      cases hex
      obtain ⟨hsocket, hquery⟩ := Daemon.unanswered_connect hbacklog query
      exact .inl ⟨rfl, rfl, .write hsocket hquery⟩
  | @written id net hpc hsend =>
      cases hs.symm.trans hpc
      cases hex with
      | write hsocket hquery =>
          obtain ⟨hsocket', hquery'⟩ := hquery.send hsocket hsend
          exact .inl ⟨rfl, rfl, .asked hsocket' hquery'⟩
  | @received id hshort hpc hlength =>
      cases hs.symm.trans hpc
      cases hex with
      | asked _ hquery =>
          rw [hquery.outbox] at hlength
          cases hlength
      | @answered _ bytes _ hanswered =>
          left
          have htake : (s.daemon.outbox id).take 4 = bytes := by
            rw [hanswered.outbox, List.take_of_length_le (hwhole bytes rfl).le]
          refine ⟨rfl, rfl, ?_⟩
          simp only [htake]
          exact .received
  | @closed id exchange hpc =>
      cases hs.symm.trans hpc
      cases hex with
      | received => exact .inr ⟨id, _, _, rfl, rfl⟩

/-! ## Both exchanges -/

/-- The level is one the client can be told, and so is its percentage. -/
def Reported (conf : Config) (r : Int) : Prop :=
  IsInt r ∧ (0 ≤ r → 0 ≤ conf.getPowermapElementAt r.toNat)

/-- How far `main` has got. From the first reply to the second the percentage of the latest reading
is the one of the reading `r` that the first reply was made from. -/
inductive Stage (conf : Config) (s : QueryRun W) : Prop
  | raw (hpending : s.pending = [.raw, .percent]) (hlines : s.lines = [])
      (hex : Exchanging s.daemon .raw none s.pc)
  | rawAnswered {r : Int} (hr : Reported conf r) (hpending : s.pending = [.raw, .percent])
      (hlines : s.lines = []) (hex : Exchanging s.daemon .raw (some (intBytes r)) s.pc)
      (hsame : mapBatteryLevel conf s.daemon.history.lastReading = mapBatteryLevel conf r)
  | percent {r : Int} (hr : Reported conf r) (hpending : s.pending = [.percent])
      (hlines : s.lines = [.ofAnswer .raw r]) (hex : Exchanging s.daemon .percent none s.pc)
      (hsame : mapBatteryLevel conf s.daemon.history.lastReading = mapBatteryLevel conf r)
  | percentAnswered {r : Int} (hr : Reported conf r) (hpending : s.pending = [.percent])
      (hlines : s.lines = [.ofAnswer .raw r])
      (hex : Exchanging s.daemon .percent (some (intBytes (mapBatteryLevel conf r))) s.pc)
  | done {r : Int} (hr : Reported conf r) (hpending : s.pending = [])
      (hlines : s.lines = [.ofAnswer .raw r, .ofAnswer .percent (mapBatteryLevel conf r)])

theorem Stage.oneMeasurement {conf : Config} (hstage : Stage conf s) :
    OneMeasurement conf s.lines := by
  intro first second hprinted
  cases hstage with
  | raw _ hlines | rawAnswered _ _ hlines => simp [hlines] at hprinted
  | percent _ _ hlines | percentAnswered _ _ hlines => simp [hlines] at hprinted
  | @done r hr _ hlines =>
      obtain ⟨rfl, rfl⟩ : ReportLine.ofAnswer .raw r = first ∧
          ReportLine.ofAnswer .percent (mapBatteryLevel conf r) = second := by
        simpa [hlines] using hprinted
      by_cases hlevel : 0 ≤ r
      · have hpercent := hr.2 hlevel
        have hmapped : mapBatteryLevel conf r = conf.getPowermapElementAt r.toNat := if_pos hlevel
        have hraw : ReportLine.ofAnswer .raw r = .rawPowerLevel r := if_pos hlevel
        have hsecond : ReportLine.ofAnswer .percent (mapBatteryLevel conf r) =
            .percentagePowerLevel (conf.getPowermapElementAt r.toNat) := by
          rw [hmapped]
          exact if_pos hpercent
        rw [hraw, hsecond]
        exact ⟨by simp, fun level h => by cases h; rfl⟩
      · have hraw : ReportLine.ofAnswer .raw r = .charging := if_neg hlevel
        have hmapped : mapBatteryLevel conf r = -1 := if_neg hlevel
        rw [hraw, hmapped]
        exact ⟨by decide, nofun⟩

/-- A step of the daemon between the replies leaves the percentage of the latest reading. -/
theorem Undisturbed.percentage_eq {d : Daemon W} {event : DaemonEvent}
    (hcond : s.Undisturbed setup (.daemon event)) (hstep : Daemon.Step setup s.daemon event d)
    (hbetween : s.Between) : mapBatteryLevel setup.conf d.history.lastReading =
      mapBatteryLevel setup.conf s.daemon.history.lastReading := by
  cases hstep with
  | iterate now stamp room =>
      obtain ⟨-, ⟨-, -, hkept⟩ | ⟨-, -, -, hkept⟩ | ⟨hone, hexpired, htaken, -⟩⟩ :=
        s.daemon.iterate_cases setup now stamp room
      · rw [hkept.lastReading]
      · rw [hkept.lastReading]
      · rw [htaken.lastReading]
        exact hcond hbetween hone hexpired
  | select => simp [Daemon.select_history]
  | serve => simp
  | checkOff => simp [Daemon.checkOff_history]
  | acceptFailed | accepted | readEnded | received | connect | send | receive | close => rfl

/-- What a run of the daemon provides for the exchanges. -/
structure Serving (conf : Config) (d : Daemon W) : Prop where
  backlog : BacklogInvariant d
  latest : ServesLatest conf d
  isInt : IsInt d.history.lastReading

theorem serving_of_reachable {world : W} {lastRead : Timeval} {log : Option Logger}
    {net : Network} {descriptors : Finset ℕ} {d : Daemon W}
    (hreach : (daemonMachine setup).Reachable
      (Daemon.start setup world lastRead log net descriptors) d) : Serving setup.conf d := by
  obtain ⟨running, rfl⟩ := RunningDaemon.exists_of_reachable hreach
  have hlatest := Daemon.servesLatest_of_reachable hreach
  refine ⟨Daemon.backlogInvariant_of_reachable hreach, hlatest, ?_⟩
  rw [← hlatest.raw, running.batteryLevelRaw_eq]
  exact isInt_gpioReadBatteryLevelRaw _ _ _

theorem length_intBytes (n : Int) : (intBytes n).length = 4 := rfl

theorem Stage.daemonStep (hstage : Stage setup.conf s) (hserving : Serving setup.conf s.daemon)
    {d : Daemon W} {event : DaemonEvent} (hcond : s.Undisturbed setup (.daemon event))
    (hstep : Daemon.Step setup s.daemon event d)
    (hspares : ∀ id, s.pc.connection = some id → event.isClientOf id = false) :
    Stage setup.conf { s with daemon := d } := by
  cases hstage with
  | raw hpending hlines hex =>
      rcases hex.daemonStep hstep hspares with hex' | ⟨-, ⟨id, hpc, hreplies⟩, hex'⟩
      · exact .raw hpending hlines hex'
      · -- the reply is made from the latest reading
        obtain ⟨ok, rfl⟩ := hreplies.event_eq
        have hraw : LevelQuery.raw.served s.daemon.ud = s.daemon.history.lastReading :=
          hserving.latest.raw
        have hlevel := hcond (by rw [hpending]; rfl) (by rwa [hpc])
        rw [hserving.latest.raw] at hlevel
        rw [hraw] at hex'
        cases hstep with
        | serve =>
            exact .rawAnswered ⟨hserving.isInt, hlevel⟩ hpending hlines hex'
              (by rw [Daemon.serve_history])
  | @rawAnswered r hr hpending hlines hex hsame =>
      have hbetween : s.Between :=
        .inl ⟨by rw [hpending]; rfl, (hex.hasReply_iff (by simp [length_intBytes])).mpr rfl⟩
      rcases hex.daemonStep hstep hspares with hex' | ⟨hnone, -⟩
      · exact .rawAnswered hr hpending hlines hex'
          ((hcond.percentage_eq hstep hbetween).trans hsame)
      · cases hnone
  | @percent r hr hpending hlines hex hsame =>
      have hbetween : s.Between :=
        .inr ⟨by rw [hpending]; rfl, mt (hex.hasReply_iff nofun).mp nofun⟩
      rcases hex.daemonStep hstep hspares with hex' | ⟨-, -, hex'⟩
      · exact .percent hr hpending hlines hex'
          ((hcond.percentage_eq hstep hbetween).trans hsame)
      · rw [hserving.latest.served_eq, LevelQuery.answer, hsame] at hex'
        exact .percentAnswered hr hpending hlines hex'
  | percentAnswered hr hpending hlines hex =>
      rcases hex.daemonStep hstep hspares with hex' | ⟨hnone, -⟩
      · exact .percentAnswered hr hpending hlines hex'
      · cases hnone
  | done hr hpending hlines => exact .done hr hpending hlines

/-- The client makes of a reply what the daemon wrote. -/
theorem lines_close (s : QueryRun W) (query : LevelQuery) (id : ℕ) {n : Int} (hn : IsInt n)
    (hshort : (intBytes n).length ≤ 4) :
    (s.close powerLevel query id (.received (intBytes n) hshort)).lines =
      s.lines ++ [.ofAnswer query n] := by
  have hvalue : udClientSendCommand query.command.code (powerLevel query)
      (.received (intBytes n) hshort) = some n := by
    rw [udClientSendCommand_code, Option.some.injEq, CommandBuffer.value_eq_iff _ hn.1 hn.2]
    exact CommandBuffer.fill_whole _ _ rfl
  simp only [close, report, answerLines, hvalue]

theorem Stage.clientStep (hconf : ∀ i, IsInt (setup.conf.getPowermapElementAt i))
    (hstage : Stage setup.conf s) (hbacklog : BacklogInvariant s.daemon) {query : LevelQuery}
    {rest : List LevelQuery} (hpending : s.pending = query :: rest)
    (hstep : ClientStep powerLevel s query next) : Stage setup.conf next := by
  have hhistory := hstep.history_eq
  cases hstage with
  | raw hqueries hlines hex =>
      cases hpending.symm.trans hqueries
      rcases hex.clientStep hbacklog nofun hstep with ⟨hpending', hlines', hex'⟩ | ⟨_, _, _, h, -⟩
      · exact .raw (hpending'.trans hqueries) (hlines'.trans hlines) hex'
      · cases h
  | rawAnswered hr hqueries hlines hex hsame =>
      cases hpending.symm.trans hqueries
      rcases hex.clientStep hbacklog (by simp [length_intBytes]) hstep with
        ⟨hpending', hlines', hex'⟩ | ⟨id, bytes, hshort, hbytes, rfl⟩
      · exact .rawAnswered hr (hpending'.trans hqueries) (hlines'.trans hlines) hex'
          (by rw [hhistory, hsame])
      · cases hbytes
        refine .percent hr ?_ ?_ .connect (by rw [hhistory, hsame])
        · simp [close, report, hqueries]
        · rw [lines_close s .raw id hr.1, hlines]
          rfl
  | percent hr hqueries hlines hex hsame =>
      cases hpending.symm.trans hqueries
      rcases hex.clientStep hbacklog nofun hstep with ⟨hpending', hlines', hex'⟩ | ⟨_, _, _, h, -⟩
      · exact .percent hr (hpending'.trans hqueries) (hlines'.trans hlines) hex'
          (by rw [hhistory, hsame])
      · cases h
  | percentAnswered hr hqueries hlines hex =>
      cases hpending.symm.trans hqueries
      rcases hex.clientStep hbacklog (by simp [length_intBytes]) hstep with
        ⟨hpending', hlines', hex'⟩ | ⟨id, bytes, hshort, hbytes, rfl⟩
      · exact .percentAnswered hr (hpending'.trans hqueries) (hlines'.trans hlines) hex'
      · cases hbytes
        refine .done hr ?_ ?_
        · simp [close, report, hqueries]
        · rw [lines_close s .percent id (isInt_mapBatteryLevel hconf _), hlines]
          rfl
  | done _ hqueries =>
      rw [hpending] at hqueries
      cases hqueries

/-! ## Runs -/

/-- A step is one of the daemon, with other clients, or one of the client. -/
theorem step_cases {event : QueryEvent} (hcond : s.Undisturbed setup event)
    (hstep : (queryMachine setup powerLevel).step s event = some next) :
    (∃ taken, event = .daemon taken ∧
      (∀ id, s.pc.connection = some id → taken.isClientOf id = false) ∧
      ∃ d, (daemonMachine setup).step s.daemon taken = some d ∧ next = { s with daemon := d }) ∨
      ∃ query rest, s.pending = query :: rest ∧ ClientStep powerLevel s query next := by
  simp only [queryMachine, step] at hstep
  split at hstep
  next taken =>
    split at hstep
    next => cases hstep
    next hspares =>
      obtain ⟨d, hd, rfl⟩ := Option.map_eq_some_iff.mp hstep
      refine .inl ⟨taken, rfl, fun id hid => ?_, d, hd, rfl⟩
      simpa [hid] using hspares
  next taken =>
    split at hstep
    next => cases hstep
    next query rest hpending =>
      exact .inr ⟨query, rest, hpending, ClientStep.of_step hcond hstep⟩

end QueryRun

/-- **When both values come from one measurement.** In every run of a daemon and of one invocation
that asks it for both values, the percentage printed is that of the level printed, and the one is
said to be charging exactly when the other is, if the calls of the client succeed, the percentage of
the level is not negative, and no measurement that the daemon takes between its two replies has
another percentage. -/
theorem oneMeasurement_of_undisturbed (setup : Setup W)
    (hconf : ∀ i, IsInt (setup.conf.getPowermapElementAt i)) (world : W) (lastRead : Timeval)
    (log : Option Logger) (net : Network) (descriptors : Finset ℕ) (opts : CmdlineOptions)
    (hboth : opts.isBatteryLevelRaw = true ∧ opts.isBatteryLevel = true)
    (powerLevel : LevelQuery → CommandBuffer) {s : QueryRun W}
    (hreach : (queryMachine setup powerLevel).ReachableUnder (QueryRun.Undisturbed setup)
      (.start (Daemon.start setup world lastRead log net descriptors) opts) s) :
    OneMeasurement setup.conf s.lines := by
  have hinv : (daemonMachine setup).Reachable
      (Daemon.start setup world lastRead log net descriptors) s.daemon ∧
      QueryRun.Stage setup.conf s := by
    apply hreach.invariant
    · refine ⟨.start, .raw ?_ rfl .connect⟩
      simp [QueryRun.start, CmdlineOptions.levelQueries, hboth]
    rintro s event next ⟨hdaemon, hstage⟩ hcond hnext
    have hserving := QueryRun.serving_of_reachable hdaemon
    rcases QueryRun.step_cases hcond hnext with
      ⟨taken, rfl, hspares, d, hd, rfl⟩ | ⟨query, rest, hpending, hclient⟩
    · exact ⟨hdaemon.step trivial hd,
        hstage.daemonStep hserving hcond (Daemon.Step.of_step hd) hspares⟩
    · refine ⟨?_, hstage.clientStep hconf hserving.backlog hpending hclient⟩
      rcases hclient.daemon setup with hsame | ⟨_, hstep⟩
      · rwa [hsame]
      · exact hdaemon.step trivial hstep
  exact hinv.2.oneMeasurement

/-- Every pin reads one, until in the second iteration an external supply is plugged in. -/
def Sysfs.pluggedIn : Sysfs ℕ where
  read := fun file iterations =>
    (.opened (if file = .value 26 ∧ 2 ≤ iterations then "0" else "1"), iterations)
  write := fun _ _ iterations => (true, iterations)
  usleep := fun duration iterations => if duration = 100000 then iterations + 1 else iterations

/-- A client and a daemon that handles its two connections in two iterations, the second of them at
the given time. -/
def bothQueries (now : Timeval) : List QueryEvent :=
  [.client (.connect true), .daemon (.iterate ⟨1, 0⟩ "" 4096), .daemon (.select true),
    .daemon (.accept true), .client (.write true), .daemon (.read 4 true), .daemon (.serve true),
    .client (.read 4 true), .client .close, .daemon (.read 4 true), .daemon .checkOff,
    .client (.connect true), .daemon (.iterate now "" 4096), .daemon (.select true),
    .daemon (.accept true), .client (.write true), .daemon (.read 4 true), .daemon (.serve true),
    .client (.read 4 true), .client .close]

/-- Two queries within the interval of the readings. -/
theorem oneMeasurement_within_interval :
    ∃ last ∈ (queryMachine ⟨.pluggedIn, .shipped, .usual⟩ fun _ => .init).run
        (.start (Daemon.start ⟨.pluggedIn, .shipped, .usual⟩ 0 ⟨0, 0⟩ none .empty {})
          ⟨false, true, true, false⟩) (bothQueries ⟨2, 0⟩),
      last.lines = [.rawPowerLevel 0, .percentagePowerLevel 100] ∧
        OneMeasurement .shipped last.lines := by
  have hmeets : (queryMachine ⟨.pluggedIn, .shipped, .usual⟩ fun _ => .init).Meets
      (QueryRun.Undisturbed ⟨.pluggedIn, .shipped, .usual⟩)
      (.start (Daemon.start ⟨.pluggedIn, .shipped, .usual⟩ 0 ⟨0, 0⟩ none .empty {})
        ⟨false, true, true, false⟩) (bothQueries ⟨2, 0⟩) := by
    decide +kernel
  have hrun : ∃ last ∈ (queryMachine ⟨.pluggedIn, .shipped, .usual⟩ fun _ => .init).run
      (.start (Daemon.start ⟨.pluggedIn, .shipped, .usual⟩ 0 ⟨0, 0⟩ none .empty {})
        ⟨false, true, true, false⟩) (bothQueries ⟨2, 0⟩),
      last.lines = [.rawPowerLevel 0, .percentagePowerLevel 100] := by
    decide +kernel
  obtain ⟨last, hlast, hlines⟩ := hrun
  exact ⟨last, hlast, hlines, oneMeasurement_of_undisturbed ⟨.pluggedIn, .shipped, .usual⟩
    isInt_shipped 0 ⟨0, 0⟩ none .empty {} ⟨false, true, true, false⟩ ⟨rfl, rfl⟩ _
    (Machine.ReachableUnder.start.of_run hmeets hlast)⟩

/-- A measurement between the two replies: the one line gives a level, the other says charging. -/
theorem measurement_between_replies :
    ¬ (queryMachine ⟨.pluggedIn, .shipped, .usual⟩ fun _ => .init).Along
      (fun s => OneMeasurement .shipped s.lines)
      (.start (Daemon.start ⟨.pluggedIn, .shipped, .usual⟩ 0 ⟨0, 0⟩ none .empty {})
        ⟨false, true, true, false⟩) (bothQueries ⟨10, 0⟩) := by
  apply Machine.not_along_of_run
  have hrun : ∃ last ∈ (queryMachine ⟨.pluggedIn, .shipped, .usual⟩ fun _ => .init).run
      (.start (Daemon.start ⟨.pluggedIn, .shipped, .usual⟩ 0 ⟨0, 0⟩ none .empty {})
        ⟨false, true, true, false⟩) (bothQueries ⟨10, 0⟩),
      last.lines = [.rawPowerLevel 0, .charging] := by
    decide +kernel
  obtain ⟨last, hlast, hlines⟩ := hrun
  exact ⟨last, hlast, fun hone => absurd ((hone _ _ hlines).1.mp rfl) nofun⟩

end Rocpmd

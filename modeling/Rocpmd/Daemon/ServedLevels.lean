import Rocpmd.Daemon.Clients
import Rocpmd.Daemon.CommandFraming
import Rocpmd.Foundation.Monitor

/-!
# The levels the daemon serves

The server has copies of the two levels of its own. They are always those of the latest measurement,
and no measurement is made while a connection is handled.
-/

namespace Rocpmd

open Foundation

variable {W : Type}

/-! ## Queries -/

inductive LevelQuery
  | percent | raw
deriving DecidableEq, Repr

namespace LevelQuery

/-- The query a command makes, if it makes one. -/
def ofCommand (command : CommandBuffer) : Option LevelQuery :=
  if command.value = rocpmdSendPowerLevelPercent then some .percent
  else if command.value = rocpmdSendPowerLevelRaw then some .raw
  else none

/-- The value of the server that answers the query. -/
def served (ud : UdServer) : LevelQuery → Int
  | .percent => ud.batteryLevelPercent
  | .raw => ud.batteryLevelRaw

/-- What a reading answers to the query. -/
def answer (conf : Config) (reading : Int) : LevelQuery → Int
  | .percent => mapBatteryLevel conf reading
  | .raw => reading

end LevelQuery

theorem UdServer.reply_eq_served (ud : UdServer) (command : CommandBuffer) :
    ud.reply command .batteryLevel =
      (LevelQuery.ofCommand command).map fun query => intBytes (query.served ud) := by
  unfold reply LevelQuery.ofCommand
  dsimp only
  split_ifs <;> rfl

/-! ## The latest measurement -/

/-- The server holds the result of the latest measurement and its percentage. -/
structure ServesLatest (conf : Config) (d : Daemon W) : Prop where
  raw : d.ud.batteryLevelRaw = d.history.lastReading
  percent : d.ud.batteryLevelPercent = mapBatteryLevel conf d.history.lastReading

namespace ServesLatest

variable {conf : Config} {d next : Daemon W}

theorem served_eq (hlatest : ServesLatest conf d) (query : LevelQuery) :
    query.served d.ud = query.answer conf d.history.lastReading := by
  cases query
  · exact hlatest.percent
  · exact hlatest.raw

/-- A step that makes no measurement and leaves the levels of the server alone. -/
theorem of_same (hlatest : ServesLatest conf d)
    (hraw : next.ud.batteryLevelRaw = d.ud.batteryLevelRaw)
    (hpercent : next.ud.batteryLevelPercent = d.ud.batteryLevelPercent)
    (hreading : next.history.lastReading = d.history.lastReading) : ServesLatest conf next where
  raw := by rw [hraw, hreading, hlatest.raw]
  percent := by rw [hpercent, hreading, hlatest.percent]

end ServesLatest

namespace Daemon

variable {setup : Setup W} {d next : Daemon W} {event : DaemonEvent}

theorem servesLatest_measure (d : Daemon W) : ServesLatest setup.conf (d.measure setup) :=
  ⟨rfl, rfl⟩

theorem servesLatest_iterate (hlatest : ServesLatest setup.conf d) (now : Timeval) (stamp : String)
    (room : ℕ) : ServesLatest setup.conf (d.iterate setup now stamp room) := by
  unfold iterate
  dsimp only
  split
  next => exact hlatest.of_same rfl rfl rfl
  next =>
    split
    next =>
      -- a new measurement, logged or not, halting or not
      split <;> exact ⟨rfl, rfl⟩
    next => exact hlatest.of_same rfl rfl rfl

/-- Only an iteration can make a measurement. -/
theorem Step.levels_cases (hstep : Step setup d event next) :
    (d.pc = .iterate ∧ ∃ now stamp room, next = d.iterate setup now stamp room) ∨
      next.ud.batteryLevelRaw = d.ud.batteryLevelRaw ∧
        next.ud.batteryLevelPercent = d.ud.batteryLevelPercent ∧
        next.history.lastReading = d.history.lastReading := by
  cases hstep with
  | iterate now stamp room hpc => exact .inl ⟨hpc, now, stamp, room, rfl⟩
  | select => exact .inr (by simp [select_history])
  | serve => exact .inr (by simp [serve_ud])
  | checkOff => exact .inr (by simp [checkOff_history])
  | acceptFailed | accepted | readEnded | received | connect | send | receive | close =>
      exact .inr ⟨rfl, rfl, rfl⟩

theorem Step.servesLatest (hstep : Step setup d event next) (hlatest : ServesLatest setup.conf d) :
    ServesLatest setup.conf next := by
  rcases hstep.levels_cases with ⟨-, now, stamp, room, rfl⟩ | ⟨hraw, hpercent, hreading⟩
  · exact servesLatest_iterate hlatest now stamp room
  · exact hlatest.of_same hraw hpercent hreading

theorem servesLatest_of_reachable {world : W} {lastRead : Timeval} {log : Option Logger}
    {net : Network} {descriptors : Finset ℕ}
    (hreach : (daemonMachine setup).Reachable
      (start setup world lastRead log net descriptors) d) : ServesLatest setup.conf d :=
  hreach.invariant (servesLatest_measure _) fun _ _ _ hlatest _ hnext =>
    (Step.of_step hnext).servesLatest hlatest

end Daemon

/-! ## Where the latest measurement started -/

/-- The files and the world a measurement starts in. -/
structure Measurement (W : Type) where
  files : Sysfs W
  world : W

/-- What `gpio_read_battery_level_raw` returns there. -/
def Measurement.raw (conf : Config) (measurement : Measurement W) : Int :=
  (gpioReadBatteryLevelRaw measurement.files conf measurement.world).1

namespace Daemon

variable {setup : Setup W}

/-- A ghost beside the daemon: where its latest measurement started. -/
def measuredIn (setup : Setup W) (latest : Measurement W) (d : Daemon W) :
    DaemonEvent → Measurement W
  | .iterate now _ _ =>
      let files := setup.files d.descriptors
      let poll := gpioReadReqOff files setup.conf (files.usleep 100000 d.world)
      let expired := (batteryLevelReadIntervalExpired setup.conf d.lastRead now).1
      if poll.1 = 0 ∧ expired = true then ⟨files, poll.2⟩ else latest
  | _ => latest

/-- A measurement of the loop has the files: without a descriptor the button cannot be read. -/
theorem measuredIn_files (latest : Measurement W) (d : Daemon W) (event : DaemonEvent) :
    (measuredIn setup latest d event).files = latest.files ∨
      (measuredIn setup latest d event).files = setup.fs := by
  cases event with
  | iterate now stamp room =>
      unfold measuredIn
      dsimp only
      split
      next hmeasures =>
        right
        apply Setup.files_of_free
        intro hfull
        rw [Setup.files_of_full hfull] at hmeasures
        cases hmeasures.1
      next => exact .inl rfl
  | _ => exact .inl rfl

/-- The daemon with that ghost. -/
def measuring (setup : Setup W) : Machine (Daemon W × Measurement W) DaemonEvent :=
  (daemonMachine setup).monitored (measuredIn setup)

theorem lastReading_iterate {latest : Measurement W} {d : Daemon W}
    (hlast : d.history.lastReading = latest.raw setup.conf)
    (now : Timeval) (stamp : String) (room : ℕ) :
    (d.iterate setup now stamp room).history.lastReading =
      (measuredIn setup latest d (.iterate now stamp room)).raw setup.conf := by
  unfold iterate
  dsimp only
  split
  next hhalt =>
    rw [measuredIn, if_neg fun h => hhalt h.1]
    exact hlast
  next hpoll =>
    split
    next hexpired =>
      have hmeasured : measuredIn setup latest d (.iterate now stamp room) =
          ⟨setup.files d.descriptors, (gpioReadReqOff (setup.files d.descriptors) setup.conf
            ((setup.files d.descriptors).usleep 100000 d.world)).2⟩ :=
        if_pos ⟨not_not.mp hpoll, hexpired⟩
      rw [hmeasured]
      split <;> rfl
    next hexpired =>
      rw [measuredIn, if_neg fun h => hexpired h.2]
      exact hlast

theorem Step.lastReading_eq {latest : Measurement W} {d next : Daemon W} {event : DaemonEvent}
    (hstep : Step setup d event next)
    (hlast : d.history.lastReading = latest.raw setup.conf) :
    next.history.lastReading = (measuredIn setup latest d event).raw setup.conf := by
  cases hstep with
  | iterate now stamp room _ => exact lastReading_iterate hlast now stamp room
  | select => simpa [measuredIn, select_history] using hlast
  | serve => simpa [measuredIn] using hlast
  | checkOff => simpa [measuredIn, checkOff_history] using hlast
  | acceptFailed | accepted | readEnded | received | connect | send | receive | close =>
      exact hlast

/-- The latest reading is the result of that measurement. -/
theorem lastReading_of_measuring {world : W} {lastRead : Timeval} {log : Option Logger}
    {net : Network} {descriptors : Finset ℕ} {s : Daemon W × Measurement W}
    (hreach : (measuring setup).Reachable
      (start setup world lastRead log net descriptors, ⟨setup.files descriptors, world⟩) s) :
    s.1.history.lastReading = s.2.raw setup.conf := by
  apply hreach.invariant
  · rfl
  · intro s event next hlast _ hnext
    obtain ⟨hstep, hmeasured⟩ := Machine.monitored_step hnext
    rw [hmeasured]
    exact (Step.of_step hstep).lastReading_eq hlast

end Daemon

/-! ## One connection -/

/-- A battery level connection is being handled. -/
def DaemonPc.HandlesLevel (id : ℕ) : DaemonPc → Prop
  | .read .batteryLevel _ other | .serve .batteryLevel _ other => other = id
  | _ => False

theorem DaemonPc.HandlesLevel.connection {id : ℕ} {pc : DaemonPc} (hpc : pc.HandlesLevel id) :
    pc.connection = some id := by
  unfold HandlesLevel at hpc
  split at hpc
  next => exact congrArg some hpc
  next => exact congrArg some hpc
  next => cases hpc

/-- What was written to the connection since, if every reply came from the same measurement: the
answers of one reading to some queries. -/
def AnswersFrom (conf : Config) (reading : Int) (before after : List UInt8) : Prop :=
  ∃ queries : List LevelQuery,
    after = before ++ queries.flatMap fun query => intBytes (query.answer conf reading)

namespace AnswersFrom

variable {conf : Config} {reading : Int} {before after : List UInt8}

theorem refl (conf : Config) (reading : Int) (before : List UInt8) :
    AnswersFrom conf reading before before :=
  ⟨[], by simp⟩

theorem reply (hanswers : AnswersFrom conf reading before after) (query : LevelQuery) :
    AnswersFrom conf reading before (after ++ intBytes (query.answer conf reading)) := by
  obtain ⟨queries, rfl⟩ := hanswers
  exact ⟨queries ++ [query], by simp⟩

end AnswersFrom

/-! What clients and reads do to a connection leaves the bytes written to it alone. -/

namespace Network

variable (net : Network) (id other : ℕ)

theorem outbox_modify {change : Connection → Connection}
    (hchange : ∀ connection, (change connection).outbox = connection.outbox) :
    ((net.modify other change).connections id).outbox = (net.connections id).outbox := by
  rcases eq_or_ne id other with rfl | hne
  · simp [modify, hchange]
  · simp [modify, hne]

theorem outbox_consume (n : ℕ) :
    ((net.consume other n).connections id).outbox = (net.connections id).outbox :=
  net.outbox_modify id other fun _ => rfl

theorem outbox_receive (left : ℕ) :
    ((net.receive other left).connections id).outbox = (net.connections id).outbox :=
  net.outbox_modify id other fun _ => rfl

theorem outbox_close : ((net.close other).connections id).outbox = (net.connections id).outbox :=
  net.outbox_modify id other fun _ => rfl

theorem outbox_of_send {bytes : List UInt8} {next : Network}
    (hsend : net.send other bytes = some next) :
    (next.connections id).outbox = (net.connections id).outbox := by
  unfold send at hsend
  split at hsend
  next =>
    obtain rfl := Option.some.inj hsend
    exact net.outbox_modify id other fun _ => rfl
  next => cases hsend

end Network

namespace Daemon

variable {setup : Setup W} {d next : Daemon W} {event : DaemonEvent}

/-- While a connection is handled, its client receives answers to queries only. -/
theorem Step.outbox_cases (hstep : Step setup d event next) {id : ℕ}
    (hpc : d.pc.HandlesLevel id) (hid : id < d.net.nextConnection) :
    next.outbox id = d.outbox id ∨
      ∃ query : LevelQuery, next.outbox id = d.outbox id ++ intBytes (query.served d.ud) := by
  cases hstep with
  | iterate _ _ _ h | select _ h | acceptFailed _ h | accepted h | checkOff h =>
      rw [h] at hpc
      cases hpc
  | readEnded => exact .inl rfl
  | @received _ _ other n => exact .inl (d.net.outbox_consume id other n)
  | @serve listener offReady other ok h =>
      cases listener with
      | off => rw [h] at hpc; cases hpc
      | batteryLevel =>
          obtain rfl : other = id := by rw [h] at hpc; exact hpc
          rcases d.serve_net .batteryLevel offReady other ok with hnet | ⟨bytes, hreply, hnet⟩
          · left
            rw [outbox, hnet, outbox]
          · right
            rw [reply_eq, UdServer.reply_eq_served] at hreply
            obtain ⟨query, -, rfl⟩ := Option.map_eq_some_iff.mp hreply
            refine ⟨query, ?_⟩
            rw [outbox, hnet]
            simp [Network.deliver, Network.modify, outbox]
  | connect listener => exact .inl (by simp [outbox, Network.connect, hid.ne])
  | @send other _ _ hnet => exact .inl (d.net.outbox_of_send id other hnet)
  | receive other left => exact .inl (d.net.outbox_receive id other left)
  | close other => exact .inl (d.net.outbox_close id other)

/-- As long as one connection is handled, everything written to it comes from one measurement. -/
theorem answersFrom_of_handled (hbacklog : BacklogInvariant d)
    (hlatest : ServesLatest setup.conf d) {id : ℕ} {later : Daemon W}
    (hlater : (daemonMachine setup).ReachableUnder (fun s _ => s.pc.HandlesLevel id) d later) :
    later.history.lastReading = d.history.lastReading ∧
      AnswersFrom setup.conf d.history.lastReading (d.outbox id) (later.outbox id) := by
  have hinv : BacklogInvariant later ∧ ServesLatest setup.conf later ∧
      later.history.lastReading = d.history.lastReading ∧
      AnswersFrom setup.conf d.history.lastReading (d.outbox id) (later.outbox id) := by
    apply hlater.invariant
    · exact ⟨hbacklog, hlatest, rfl, .refl _ _ _⟩
    rintro s event next ⟨hbacklog, hlatest, hreading, hanswers⟩ hpc hnext
    have hstep := Step.of_step hnext
    have hid := hbacklog.connection_lt id hpc.connection
    refine ⟨hstep.backlogInvariant hbacklog, hstep.servesLatest hlatest, ?_, ?_⟩
    · rcases hstep.levels_cases with ⟨hiterate, -⟩ | ⟨-, -, hsame⟩
      · rw [hiterate] at hpc
        cases hpc
      · rw [hsame, hreading]
    · rcases hstep.outbox_cases hpc hid with hsame | ⟨query, hquery⟩
      · rwa [hsame]
      · rw [hquery, hlatest.served_eq, hreading]
        exact hanswers.reply query
  exact hinv.2.2

end Daemon

/-- The commands on a connection, each read as a whole. -/
def handlingWhole (id : ℕ) (commands : List CommandBuffer) : List DaemonEvent :=
  handling id (List.replicate commands.length ⟨4, by decide⟩)

theorem Daemon.AtRead.run_handlingWhole (setup : Setup W) {d : Daemon W} {offReady : Bool} {id : ℕ}
    {commands : List CommandBuffer} (hat : d.AtRead offReady id (commandStream commands)) :
    ∃ last ∈ (daemonMachine setup).run d (handlingWhole id commands),
      last.outbox id = d.outbox id ++ d.ud.replies commands := by
  have hsizes : ((List.replicate commands.length (⟨4, by decide⟩ : ReadSize)).map
      Subtype.val).sum = 4 * commands.length := by
    simp [Nat.mul_comm]
  obtain ⟨last, hlast, -, houtbox⟩ := hat.run_handling setup _
    (hsizes.trans (length_commandStream commands).symm).le
  refine ⟨last, hlast, houtbox.trans ?_⟩
  rw [d.ud.repliesRead_of_whole _ _ _ hsizes fun size hmem => by
    rw [List.eq_of_mem_replicate hmem]]

theorem UdServer.replies_eq_served (ud : UdServer) (commands : List CommandBuffer) :
    ud.replies commands = (commands.filterMap LevelQuery.ofCommand).flatMap fun query =>
      intBytes (query.served ud) := by
  induction commands with
  | nil => rfl
  | cons command commands ih =>
      rw [replies_cons, ih, reply_eq_served]
      cases hquery : LevelQuery.ofCommand command <;> simp [hquery]

/-- **The values served.** In every state of a run, so whenever requests are handled, the server
holds the result of the latest measurement and its percentage: a reading that
`gpio_read_battery_level_raw` made where the latest measurement started. Everything written to one
connection comes from one measurement, whatever else happens while the connection is handled; and
whole commands are all answered, in order, from that measurement. -/
theorem served_levels_latest (setup : Setup W) (world : W) (lastRead : Timeval)
    (log : Option Logger) (net : Network) (descriptors : Finset ℕ) {d : Daemon W}
    (hreach : (daemonMachine setup).Reachable
      (Daemon.start setup world lastRead log net descriptors) d) :
    (∃ latest : Measurement W,
      (Daemon.measuring setup).Reachable
        (Daemon.start setup world lastRead log net descriptors,
          ⟨setup.files descriptors, world⟩) (d, latest) ∧
      d.history.lastReading = latest.raw setup.conf) ∧
    d.ud.batteryLevelRaw = d.history.lastReading ∧
      d.ud.batteryLevelPercent = mapBatteryLevel setup.conf d.history.lastReading ∧
      (∀ id later, (daemonMachine setup).ReachableUnder (fun s _ => s.pc.HandlesLevel id) d later →
        later.history.lastReading = d.history.lastReading ∧
          AnswersFrom setup.conf d.history.lastReading (d.outbox id) (later.outbox id)) ∧
      ∀ offReady id commands, d.AtRead offReady id (commandStream commands) →
        ∃ last ∈ (daemonMachine setup).run d (handlingWhole id commands),
          last.outbox id = d.outbox id ++
            (commands.filterMap LevelQuery.ofCommand).flatMap fun query =>
              intBytes (query.answer setup.conf d.history.lastReading) := by
  have hlatest := Daemon.servesLatest_of_reachable hreach
  have hbacklog := Daemon.backlogInvariant_of_reachable hreach
  obtain ⟨latest, hmeasured⟩ :=
    hreach.exists_monitored (Daemon.measuredIn setup) ⟨setup.files descriptors, world⟩
  refine ⟨⟨latest, hmeasured, Daemon.lastReading_of_measuring hmeasured⟩, hlatest.raw,
    hlatest.percent, ?_, ?_⟩
  · exact fun id later hlater => Daemon.answersFrom_of_handled hbacklog hlatest hlater
  · intro offReady id commands hat
    obtain ⟨last, hlast, houtbox⟩ := hat.run_handlingWhole setup
    refine ⟨last, hlast, ?_⟩
    simp only [houtbox, UdServer.replies_eq_served, hlatest.served_eq]

/-- A client that asked for both levels before it was accepted. -/
def queriedTwice : List DaemonEvent :=
  [.connect .batteryLevel,
    .send 0 (commandStream [UdServer.percentCommand, ⟨intBytes rocpmdSendPowerLevelRaw, rfl⟩]),
    .iterate ⟨20, 0⟩ "" 4096, .select true, .accept true]

theorem served_levels_latest_queriedTwice :
    ∃ d, (daemonMachine ⟨.allHigh, .shipped, .usual⟩).run
        (Daemon.start ⟨.allHigh, .shipped, .usual⟩ () ⟨0, 0⟩ none .empty {}) queriedTwice = some d ∧
      d.pc = .read .batteryLevel false 0 ∧
      (∃ latest : Measurement Unit,
        (Daemon.measuring ⟨.allHigh, .shipped, .usual⟩).Reachable
          (Daemon.start ⟨.allHigh, .shipped, .usual⟩ () ⟨0, 0⟩ none .empty {},
            ⟨Setup.files ⟨.allHigh, .shipped, .usual⟩ {}, ()⟩) (d, latest) ∧
        d.history.lastReading = latest.raw .shipped) ∧
      d.ud.batteryLevelRaw = d.history.lastReading ∧
      d.ud.batteryLevelPercent = mapBatteryLevel .shipped d.history.lastReading ∧
      (∀ id later, (daemonMachine ⟨.allHigh, .shipped, .usual⟩).ReachableUnder
          (fun s _ => s.pc.HandlesLevel id) d later →
        later.history.lastReading = d.history.lastReading ∧
          AnswersFrom .shipped d.history.lastReading (d.outbox id) (later.outbox id)) ∧
      ∀ offReady id commands, d.AtRead offReady id (commandStream commands) →
        ∃ last ∈ (daemonMachine ⟨.allHigh, .shipped, .usual⟩).run d (handlingWhole id commands),
          last.outbox id = d.outbox id ++
            (commands.filterMap LevelQuery.ofCommand).flatMap fun query =>
              intBytes (query.answer .shipped d.history.lastReading) := by
  have hrun : ∃ d ∈ (daemonMachine ⟨.allHigh, .shipped, .usual⟩).run
      (Daemon.start ⟨.allHigh, .shipped, .usual⟩ () ⟨0, 0⟩ none .empty {}) queriedTwice,
      d.pc = .read .batteryLevel false 0 := by decide +kernel
  obtain ⟨d, hd, hpc⟩ := hrun
  exact ⟨d, hd, hpc, served_levels_latest _ () ⟨0, 0⟩ none .empty {} (.of_run hd)⟩

end Rocpmd

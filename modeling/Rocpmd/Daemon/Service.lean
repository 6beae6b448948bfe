import Rocpmd.Daemon.EmptyBattery
import Rocpmd.Daemon.ServedLevels
import Rocpmd.Daemon.World
import Rocpmd.Foundation.Refinement

/-!
# What the daemon is for

Seen from outside, the daemon polls the button, measures, answers queries, takes OFF requests and
signals OFF, until it shuts the system down. The service says in which order it may do so, with no
files, sockets or descriptors, and the daemon refines it.
-/

namespace Rocpmd

open Foundation

variable {W : Type}

/-! ## The service -/

/-- What can be seen of the daemon. -/
inductive Effect
  | polled (outcome : ReadOutcome)
  | measured (reading : Int)
  | answered (id : ℕ) (bytes : List UInt8)
  | offRequested
  | offSignalled
  | shutDown
  | killed
deriving DecidableEq, Repr

/-- Right behind a poll that found the button released there may be a measurement, and behind a
request nothing but the OFF signal. -/
inductive ServicePhase
  | serving
  | polled
  | requested
  | stopping
  | ended
deriving DecidableEq, Repr

namespace ServicePhase

/-- No OFF request waits for its signal. -/
def Idle (phase : ServicePhase) : Prop := phase = .serving ∨ phase = .polled

def Running (phase : ServicePhase) : Prop := phase.Idle ∨ phase = .requested

instance (phase : ServicePhase) : Decidable phase.Idle := inferInstanceAs (Decidable (_ ∨ _))

instance (phase : ServicePhase) : Decidable phase.Running := inferInstanceAs (Decidable (_ ∨ _))

end ServicePhase

namespace Effect

/-- The effect alone decides what the service does next. -/
def phase (conf : Config) : Effect → ServicePhase
  | .polled outcome => if outcome = .opened "1" then .polled else .stopping
  | .measured reading => if mapBatteryLevel conf reading = 0 then .stopping else .serving
  | .answered _ _ | .offSignalled => .serving
  | .offRequested => .requested
  | .shutDown | .killed => .ended

def reading : Effect → Option Int
  | .measured reading => some reading
  | _ => none

def requestsOff : Effect → Bool
  | .offRequested => true
  | _ => false

end Effect

structure Service where
  reading : Int
  offRequested : Bool
  phase : ServicePhase
deriving DecidableEq, Repr

namespace Service

def start (reading : Int) : Service := ⟨reading, false, .serving⟩

/-- The replies to the two queries from a reading. -/
def answers (conf : Config) (reading : Int) : List (List UInt8) :=
  [LevelQuery.percent, .raw].map fun query => intBytes (query.answer conf reading)

/-- What may be seen next. -/
def Allows (conf : Config) (service : Service) : Effect → Prop
  | .polled _ => service.phase.Idle
  | .measured _ => service.phase = .polled
  | .answered _ bytes => service.phase.Idle ∧ bytes ∈ answers conf service.reading
  | .offRequested | .killed => service.phase.Running
  | .offSignalled => service.phase.Running ∧ service.offRequested = true
  | .shutDown => service.phase = .stopping

instance (conf : Config) (service : Service) : ∀ effect, Decidable (service.Allows conf effect)
  | .polled _ => inferInstanceAs (Decidable service.phase.Idle)
  | .measured _ => inferInstanceAs (Decidable (_ = _))
  | .answered _ _ => inferInstanceAs (Decidable (_ ∧ _))
  | .offRequested | .killed => inferInstanceAs (Decidable service.phase.Running)
  | .offSignalled => inferInstanceAs (Decidable (_ ∧ _))
  | .shutDown => inferInstanceAs (Decidable (_ = _))

def after (conf : Config) (service : Service) (effect : Effect) : Service where
  reading := effect.reading.getD service.reading
  offRequested := effect.requestsOff || service.offRequested
  phase := effect.phase conf

end Service

def serviceMachine (conf : Config) : Machine Service Effect where
  step service effect :=
    if service.Allows conf effect then some (service.after conf effect) else none

/-! ## What is seen of the daemon -/

namespace Daemon

/-- The bytes that have been written to a connection. -/
def answeredOn (d next : Daemon W) (id : ℕ) : List Effect :=
  if next.outbox id = d.outbox id then []
  else [.answered id ((next.outbox id).drop (d.outbox id).length)]

def observe (d : Daemon W) (event : DaemonEvent) (next : Daemon W) : List Effect :=
  match event, d.pc with
  | .iterate _ _ _, _ =>
      next.history.reqOff.toList.map .polled ++ next.history.measured.toList.map .measured ++
        if next.pc = .halted then [.shutDown] else []
  | .serve _, .serve .off _ _ => .offRequested :: if next.pc = .killed then [.killed] else []
  | .serve _, .serve .batteryLevel _ id =>
      answeredOn d next id ++ if next.pc = .killed then [.killed] else []
  | .checkOff, _ =>
      if next.history.offWrites = d.history.offWrites then [] else [.offSignalled]
  | _, _ => []

end Daemon

/-! ## Refinement -/

/-- How far the service can be when the daemon is there. -/
def DaemonPc.Shows : DaemonPc → ServicePhase → Prop
  | .halted, phase | .killed, phase => phase = .ended
  | .read .off _ _, phase | .serve .off _ _, phase | .checkOff, phase => phase.Running
  | _, phase => phase.Idle

/-- The service as the daemon provides it. -/
structure ProvidesService (conf : Config) (d : Daemon W) (service : Service) : Prop where
  reading : service.reading = d.history.lastReading
  latest : ServesLatest conf d
  offRequested : service.offRequested = d.ud.powerOffFlag
  requested : service.phase = .requested → service.offRequested = true
  phase : d.pc.Shows service.phase

theorem run_allowed {conf : Config} {service : Service} {effect : Effect}
    (hallows : service.Allows conf effect) (rest : List Effect) :
    (serviceMachine conf).run service (effect :: rest) =
      (serviceMachine conf).run (service.after conf effect) rest := by
  have hstep : (serviceMachine conf).step service effect = some (service.after conf effect) :=
    if_pos hallows
  rw [Machine.run, hstep, Option.bind_some]

/-- A reply is one of the answers from the latest reading. -/
theorem Daemon.reply_mem_answers {conf : Config} {d : Daemon W} (hlatest : ServesLatest conf d)
    {bytes : List UInt8} (hreply : d.reply .batteryLevel = some bytes) :
    bytes ∈ Service.answers conf d.history.lastReading := by
  rw [Daemon.reply_eq, UdServer.reply_eq_served] at hreply
  obtain ⟨query, -, rfl⟩ := Option.map_eq_some_iff.mp hreply
  rw [hlatest.served_eq query, Service.answers]
  cases query <;> simp

namespace ProvidesService

variable {setup : Setup W} {d next : Daemon W} {service : Service}

/-- A step of which nothing is seen. -/
theorem of_same (hprovides : ProvidesService setup.conf d service)
    (hreading : next.history.lastReading = d.history.lastReading) (hud : next.ud = d.ud)
    (hphase : next.pc.Shows service.phase) : ProvidesService setup.conf next service where
  reading := by rw [hreading, hprovides.reading]
  latest := hprovides.latest.of_same (by rw [hud]) (by rw [hud]) hreading
  offRequested := by rw [hud, hprovides.offRequested]
  requested := hprovides.requested
  phase := hphase

theorem iterate (hprovides : ProvidesService setup.conf d service) (now : Timeval) (stamp : String)
    (room : ℕ) (hpc : d.pc = .iterate) :
    ∃ after, (serviceMachine setup.conf).run service
        (d.observe (.iterate now stamp room) (d.iterate setup now stamp room)) =
          some after ∧
      ProvidesService setup.conf (d.iterate setup now stamp room) after := by
  have hidle : service.phase.Idle := by
    have hphase := hprovides.phase
    rwa [hpc] at hphase
  have hpolls (outcome : ReadOutcome) : service.Allows setup.conf (.polled outcome) := hidle
  have hflag := (Daemon.sameRequests_iterate setup d now stamp room).powerOffFlag
  have hlatest := Daemon.servesLatest_iterate hprovides.latest now stamp room
  have hpcs := Daemon.iterate_pc setup d now stamp room
  obtain ⟨hreqOff, hcases⟩ := Daemon.iterate_cases setup d now stamp room
  generalize d.iterate setup now stamp room = next at *
  obtain ⟨hone, hhalted, hkept⟩ | ⟨hone, -, hselect, hkept⟩ | ⟨hone, -, htaken, hzero⟩ := hcases
  · -- the button is pressed, or cannot be read
    have hseen : d.observe (.iterate now stamp room) next =
        [.polled (reqOffOutcome setup d), .shutDown] := by
      simp [Daemon.observe, hreqOff, hkept.measured, hhalted]
    have hstopping : (service.after setup.conf (.polled (reqOffOutcome setup d))).Allows setup.conf
        .shutDown := if_neg hone
    refine ⟨{ service with phase := .ended }, ?_, ?_⟩
    · rw [hseen, run_allowed (hpolls _), run_allowed hstopping]
      rfl
    · exact ⟨hprovides.reading.trans hkept.lastReading.symm, hlatest,
        hprovides.offRequested.trans hflag.symm, nofun, by rw [hhalted]; rfl⟩
  · have hseen : d.observe (.iterate now stamp room) next = [.polled (.opened "1")] := by
      simp [Daemon.observe, hreqOff, hkept.measured, hselect, hone]
    refine ⟨{ service with phase := .polled }, ?_, ?_⟩
    · rw [hseen, run_allowed (hpolls _)]
      rfl
    · exact ⟨hprovides.reading.trans hkept.lastReading.symm, hlatest,
        hprovides.offRequested.trans hflag.symm, nofun, by rw [hselect]; exact .inr rfl⟩
  · have hseen : d.observe (.iterate now stamp room) next =
        [.polled (.opened "1"), .measured (levelReading setup d)] ++
          if next.pc = .halted then [.shutDown] else [] := by
      simp [Daemon.observe, hreqOff, htaken.measured, hone]
    have hmeasures : (service.after setup.conf (.polled (.opened "1"))).Allows setup.conf
        (.measured (levelReading setup d)) := rfl
    rw [hseen, List.cons_append, List.cons_append, List.nil_append,
      run_allowed (hpolls _), run_allowed hmeasures]
    rcases hpcs with hhalted | hselect
    · have hempty := hzero.mp hhalted
      refine ⟨⟨levelReading setup d, service.offRequested, .ended⟩, ?_, ?_⟩
      · have hstopping : ((service.after setup.conf (.polled (.opened "1"))).after setup.conf
            (.measured (levelReading setup d))).Allows setup.conf .shutDown := if_pos hempty
        rw [if_pos hhalted, run_allowed hstopping]
        rfl
      · exact ⟨htaken.lastReading.symm, hlatest, hprovides.offRequested.trans hflag.symm, nofun,
          by rw [hhalted]; rfl⟩
    · have hnot : next.pc ≠ .halted := by rw [hselect]; nofun
      have hlevel : mapBatteryLevel setup.conf (levelReading setup d) ≠ 0 :=
        fun h => hnot (hzero.mpr h)
      refine ⟨⟨levelReading setup d, service.offRequested, .serving⟩, ?_, ?_⟩
      · have hserving : (service.after setup.conf (.polled (.opened "1"))).after setup.conf
            (.measured (levelReading setup d)) =
              ⟨levelReading setup d, service.offRequested, .serving⟩ :=
          congrArg (Service.mk _ _) (if_neg hlevel)
        rw [if_neg hnot, hserving]
        rfl
      · exact ⟨htaken.lastReading.symm, hlatest, hprovides.offRequested.trans hflag.symm, nofun,
          by rw [hselect]; exact .inl rfl⟩

/-- What is written to a level connection is an answer from the latest reading. -/
theorem answered (hprovides : ProvidesService setup.conf d service) (hidle : service.phase.Idle)
    (offReady : Bool) (id : ℕ) (ok : Bool) :
    ∃ phase : ServicePhase, phase.Idle ∧ (serviceMachine setup.conf).run service
        (d.answeredOn (d.serve .batteryLevel offReady id ok) id) =
      some { service with phase := phase } := by
  rcases d.serve_net .batteryLevel offReady id ok with hnet | ⟨bytes, hreply, hnet⟩
  · have hsame : (d.serve .batteryLevel offReady id ok).outbox id = d.outbox id := by
      rw [Daemon.outbox, hnet, Daemon.outbox]
    refine ⟨service.phase, hidle, ?_⟩
    rw [Daemon.answeredOn, if_pos hsame]
    rfl
  · have hwritten : (d.serve .batteryLevel offReady id ok).outbox id = d.outbox id ++ bytes := by
      rw [Daemon.outbox, hnet]
      simp [Network.deliver, Network.modify, Daemon.outbox]
    by_cases hnil : bytes = []
    · refine ⟨service.phase, hidle, ?_⟩
      rw [Daemon.answeredOn, hwritten, hnil, List.append_nil, if_pos rfl]
      rfl
    · have hmem : bytes ∈ Service.answers setup.conf service.reading := by
        rw [hprovides.reading]
        exact Daemon.reply_mem_answers hprovides.latest hreply
      have hanswers : service.Allows setup.conf (.answered id bytes) := ⟨hidle, hmem⟩
      refine ⟨.serving, .inl rfl, ?_⟩
      rw [Daemon.answeredOn, hwritten, if_neg (by simpa using hnil), List.drop_left,
        run_allowed hanswers]
      rfl

theorem serveLevel (hprovides : ProvidesService setup.conf d service) {offReady : Bool} {id : ℕ}
    (ok : Bool) (hpc : d.pc = .serve .batteryLevel offReady id) :
    ∃ after, (serviceMachine setup.conf).run service
        (d.observe (.serve ok) (d.serve .batteryLevel offReady id ok)) = some after ∧
      ProvidesService setup.conf (d.serve .batteryLevel offReady id ok) after := by
  have hidle : service.phase.Idle := by
    have hphase := hprovides.phase
    rwa [hpc] at hphase
  obtain ⟨phase, hphase, hanswered⟩ := hprovides.answered hidle offReady id ok
  have hpcs := d.serve_pc .batteryLevel offReady id ok
  have hud : (d.serve .batteryLevel offReady id ok).ud = d.ud := by simp [Daemon.serve_ud]
  have hhistory := d.serve_history .batteryLevel offReady id ok
  generalize d.serve .batteryLevel offReady id ok = next at *
  have hkept (phase : ServicePhase) (hidle : phase ≠ .requested)
      (hshows : next.pc.Shows phase) :
      ProvidesService setup.conf next { service with phase := phase } :=
    ⟨by rw [hhistory]; exact hprovides.reading,
      hprovides.latest.of_same (by rw [hud]) (by rw [hud]) (by rw [hhistory]),
      by rw [hud]; exact hprovides.offRequested, fun h => absurd h hidle, hshows⟩
  have hseen : d.observe (.serve ok) next =
      d.answeredOn next id ++ if next.pc = .killed then [.killed] else [] := by
    simp only [Daemon.observe, hpc]
  rw [hseen, Machine.run_append, hanswered, Option.bind_some]
  by_cases hkilled : next.pc = .killed
  · have hallows : ({ service with phase := phase } : Service).Allows setup.conf .killed :=
      .inl hphase
    refine ⟨{ service with phase := .ended }, ?_, hkept .ended nofun (by rw [hkilled]; rfl)⟩
    rw [if_pos hkilled, run_allowed hallows]
    rfl
  · refine ⟨{ service with phase := phase }, ?_, hkept phase ?_ ?_⟩
    · rw [if_neg hkilled]
      rfl
    · rcases hphase with rfl | rfl <;> nofun
    · rw [if_neg fun h => hkilled (hpcs.trans (if_pos h))] at hpcs
      have hgoesOn : next.pc = .iterate ∨ next.pc = .read .batteryLevel offReady id :=
        (ite_eq_or_eq _ _ _).imp hpcs.trans hpcs.trans
      rcases hgoesOn with h | h <;> rw [h] <;> exact hphase

theorem serveOff (hprovides : ProvidesService setup.conf d service) {offReady : Bool} {id : ℕ}
    (ok : Bool) (hpc : d.pc = .serve .off offReady id) :
    ∃ after, (serviceMachine setup.conf).run service
        (d.observe (.serve ok) (d.serve .off offReady id ok)) = some after ∧
      ProvidesService setup.conf (d.serve .off offReady id ok) after := by
  have hrunning : service.Allows setup.conf .offRequested := by
    have hphase := hprovides.phase
    rwa [hpc] at hphase
  have hpcs := d.serve_pc .off offReady id ok
  have hud := d.serve_ud .off offReady id ok
  have hhistory := d.serve_history .off offReady id ok
  generalize d.serve .off offReady id ok = next at *
  have hkept (phase : ServicePhase) (hshows : next.pc.Shows phase) :
      ProvidesService setup.conf next ⟨service.reading, true, phase⟩ :=
    ⟨by rw [hhistory]; exact hprovides.reading,
      hprovides.latest.of_same (by rw [hud]) (by rw [hud]) (by rw [hhistory]),
      by simp [hud], fun _ => rfl, hshows⟩
  have hseen : d.observe (.serve ok) next =
      .offRequested :: if next.pc = .killed then [.killed] else [] := by
    simp only [Daemon.observe, hpc]
  rw [hseen, run_allowed hrunning]
  by_cases hkilled : next.pc = .killed
  · have hallows : (service.after setup.conf .offRequested).Allows setup.conf .killed := .inr rfl
    refine ⟨⟨service.reading, true, .ended⟩, ?_, hkept .ended (by rw [hkilled]; rfl)⟩
    rw [if_pos hkilled, run_allowed hallows]
    rfl
  · refine ⟨⟨service.reading, true, .requested⟩, ?_, hkept .requested ?_⟩
    · rw [if_neg hkilled]
      rfl
    · rw [hpcs] at hkilled ⊢
      rw [if_neg fun h => hkilled (if_pos h), if_neg (by simp)]
      exact .inr rfl

theorem checkOff (hprovides : ProvidesService setup.conf d service) (hpc : d.pc = .checkOff) :
    ∃ after, (serviceMachine setup.conf).run service
        (d.observe .checkOff (d.checkOff setup)) = some after ∧
      ProvidesService setup.conf (d.checkOff setup) after := by
  have hrunning : service.phase.Running := by
    have hphase := hprovides.phase
    rwa [hpc] at hphase
  have hhistory : (d.checkOff setup).history = _ := d.checkOff_history
  have hlatest : ServesLatest setup.conf (d.checkOff setup) :=
    hprovides.latest.of_same (by simp) (by simp) (by simp [hhistory])
  cases hflag : d.ud.powerOffFlag with
  | true =>
      have hallows : service.Allows setup.conf .offSignalled :=
        ⟨hrunning, hprovides.offRequested.trans hflag⟩
      have hseen : d.observe .checkOff (d.checkOff setup) = [.offSignalled] := by
        simp [Daemon.observe, hhistory, hflag]
      refine ⟨{ service with phase := .serving }, ?_, ?_⟩
      · rw [hseen, run_allowed hallows]
        rfl
      · exact ⟨by simp [hhistory, hprovides.reading], hlatest, by simp [hprovides.offRequested],
          nofun, by rw [Daemon.checkOff_pc]; exact .inl rfl⟩
  | false =>
      -- no request has been made, so none waits
      have hidle : service.phase.Idle := by
        refine hrunning.resolve_right fun hrequested => ?_
        have hoff := hprovides.requested hrequested
        rw [hprovides.offRequested, hflag] at hoff
        cases hoff
      have hseen : d.observe .checkOff (d.checkOff setup) = [] := by
        simp [Daemon.observe, hhistory, hflag]
      refine ⟨service, by rw [hseen]; rfl, ?_⟩
      exact ⟨by simp [hhistory, hprovides.reading], hlatest, by simp [hprovides.offRequested],
        hprovides.requested, by rw [Daemon.checkOff_pc]; exact hidle⟩

end ProvidesService

/-- The daemon refines the service, step by step. -/
theorem daemonMachine_refines (setup : Setup W) :
    (daemonMachine setup).Refines (serviceMachine setup.conf) Daemon.observe
      (ProvidesService setup.conf) := by
  intro d service event next hprovides hnext
  have hphase := hprovides.phase
  have hstutters (hreading : next.history.lastReading = d.history.lastReading)
      (hud : next.ud = d.ud) (hseen : d.observe event next = [])
      (hphase : next.pc.Shows service.phase) :
      ∃ after, (serviceMachine setup.conf).run service (d.observe event next) = some after ∧
        ProvidesService setup.conf next after :=
    ⟨service, by rw [hseen]; rfl, hprovides.of_same hreading hud hphase⟩
  cases Daemon.Step.of_step hnext with
  | iterate now stamp room hpc => exact hprovides.iterate now stamp room hpc
  | select ok hpc =>
      rw [hpc] at hphase
      refine hstutters (by rw [Daemon.select_history]) (by simp) rfl ?_
      rcases d.select_pc_cases ok with h | ⟨_, h, -⟩ | ⟨h, -⟩ | h <;> rw [h]
      · exact hphase
      · exact hphase
      · exact hphase
      · exact .inl hphase
  | acceptFailed ok hpc =>
      rw [hpc] at hphase
      exact hstutters rfl rfl rfl hphase
  | @accepted listener _ _ _ _ hpc =>
      rw [hpc] at hphase
      refine hstutters rfl rfl rfl ?_
      cases listener with
      | batteryLevel => exact hphase
      | off => exact .inl hphase
  | @readEnded listener offReady _ _ _ hpc _ =>
      rw [hpc] at hphase
      refine hstutters rfl rfl rfl ?_
      cases listener with
      | batteryLevel =>
          cases offReady with
          | true => exact hphase
          | false => exact .inl hphase
      | off => exact hphase
  | @received listener _ _ _ hpc =>
      rw [hpc] at hphase
      refine hstutters rfl rfl rfl ?_
      cases listener <;> exact hphase
  | @serve listener _ _ ok hpc _ =>
      cases listener with
      | batteryLevel => exact hprovides.serveLevel ok hpc
      | off => exact hprovides.serveOff ok hpc
  | checkOff hpc => exact hprovides.checkOff hpc
  | connect | send | receive | close => exact hstutters rfl rfl rfl hphase

theorem providesService_start (setup : Setup W) (world : W) (lastRead : Timeval)
    (log : Option Logger) (net : Network) (descriptors : Finset ℕ) :
    ProvidesService setup.conf (.start setup world lastRead log net descriptors)
      (.start (gpioReadBatteryLevelRaw (setup.files descriptors) setup.conf world).1) :=
  ⟨rfl, ⟨rfl, rfl⟩, rfl, nofun, .inl rfl⟩

theorem ServicePhase.Running.ne_ended {phase : ServicePhase} (hrunning : phase.Running) :
    phase ≠ .ended := by
  rintro rfl
  rcases hrunning with (h | h) | h <;> cases h

theorem DaemonPc.Shows.ended_iff {pc : DaemonPc} {phase : ServicePhase} (hshows : pc.Shows phase) :
    phase = .ended ↔ pc = .halted ∨ pc = .killed := by
  have hgoesOn (hrunning : phase.Running) (hhalted : pc ≠ .halted) (hkilled : pc ≠ .killed) :
      phase = .ended ↔ pc = .halted ∨ pc = .killed :=
    iff_of_false hrunning.ne_ended fun h => h.elim hhalted hkilled
  cases pc with
  | halted => exact iff_of_true hshows (.inl rfl)
  | killed => exact iff_of_true hshows (.inr rfl)
  | iterate | select | accept => exact hgoesOn (.inl hshows) nofun nofun
  | checkOff => exact hgoesOn hshows nofun nofun
  | read listener | serve listener =>
      cases listener with
      | batteryLevel => exact hgoesOn (.inl hshows) nofun nofun
      | off => exact hgoesOn hshows nofun nofun

/-- The service does not stand still between what stops it and the shutdown. -/
theorem DaemonPc.Shows.ne_stopping {pc : DaemonPc} {phase : ServicePhase}
    (hshows : pc.Shows phase) : phase ≠ .stopping := by
  rintro rfl
  have hnotIdle : ¬ ServicePhase.stopping.Idle := by decide
  have hnotRunning : ¬ ServicePhase.stopping.Running := by decide
  cases pc with
  | halted | killed => cases hshows
  | iterate | select | accept => exact hnotIdle hshows
  | checkOff => exact hnotRunning hshows
  | read listener | serve listener =>
      cases listener with
      | batteryLevel => exact hnotIdle hshows
      | off => exact hnotRunning hshows

/-- **The daemon refines the service.** What is seen of any run of the daemon is a run of the
service that starts with the reading before the loop; at its end both hold the same reading and the
same request, and the service has ended exactly if the process has. -/
theorem daemon_refines_service (setup : Setup W) (world : W) (lastRead : Timeval)
    (log : Option Logger) (net : Network) (descriptors : Finset ℕ) {events : List DaemonEvent}
    {last : Daemon W}
    (hrun : (daemonMachine setup).run (.start setup world lastRead log net descriptors) events =
      some last) :
    ∃ service, (serviceMachine setup.conf).run
        (.start (gpioReadBatteryLevelRaw (setup.files descriptors) setup.conf world).1)
        ((daemonMachine setup).trace Daemon.observe
          (.start setup world lastRead log net descriptors) events) = some service ∧
      service.reading = last.ud.batteryLevelRaw ∧
      service.offRequested = last.ud.powerOffFlag ∧
      (service.phase = .ended ↔ last.pc = .halted ∨ last.pc = .killed) := by
  have hstart := providesService_start setup world lastRead log net descriptors
  obtain ⟨service, hservice, hprovides⟩ := (daemonMachine_refines setup).run hstart hrun
  refine ⟨service, hservice, ?_, hprovides.offRequested, hprovides.phase.ended_iff⟩
  rw [hprovides.reading, hprovides.latest.raw]

/-- One client asks for the level, and behind it another one for power off. -/
def queriedThenOff : List DaemonEvent :=
  [.connect .batteryLevel, .send 0 (intBytes rocpmdSendPowerLevelRaw), .connect .off,
    .send 1 [1], .iterate ⟨20, 0⟩ "" 4096, .select true, .accept true, .read 4 true, .serve true,
    .close 0, .read 4 true, .accept true, .read 1 true, .serve true, .close 1, .read 4 true,
    .checkOff, .iterate ⟨21, 0⟩ "" 4096]

theorem daemon_refines_service_queriedThenOff : ∃ last,
    (daemonMachine ⟨.allHigh, .shipped, .usual⟩).run
        (.start ⟨.allHigh, .shipped, .usual⟩ () ⟨0, 0⟩ none .empty {}) queriedThenOff = some last ∧
      ∃ service, (serviceMachine .shipped).run
          (.start (gpioReadBatteryLevelRaw (W := Unit) .allHigh .shipped ()).1)
          ((daemonMachine ⟨.allHigh, .shipped, .usual⟩).trace Daemon.observe
            (.start ⟨.allHigh, .shipped, .usual⟩ () ⟨0, 0⟩ none .empty {}) queriedThenOff) =
              some service ∧
        service.reading = last.ud.batteryLevelRaw ∧
        service.offRequested = last.ud.powerOffFlag ∧
        (service.phase = .ended ↔ last.pc = .halted ∨ last.pc = .killed) := by
  have hruns : ((daemonMachine ⟨.allHigh, .shipped, .usual⟩).run
      (.start ⟨.allHigh, .shipped, .usual⟩ () ⟨0, 0⟩ none .empty {}) queriedThenOff).isSome := by
    decide +kernel
  obtain ⟨last, hlast⟩ := Option.isSome_iff_exists.mp hruns
  exact ⟨last, hlast,
    daemon_refines_service ⟨.allHigh, .shipped, .usual⟩ () ⟨0, 0⟩ none .empty {} hlast⟩

/-! ## What the order of the service means -/

/-- The latest reading of the effects, if there was one since the first. -/
def latestReading (first : Int) (seen : List Effect) : Int :=
  (seen.filterMap Effect.reading).getLast?.getD first

/-- After the effect nothing but the shutdown is seen. -/
def Effect.Stops (conf : Config) : Effect → Prop
  | .polled outcome => outcome ≠ .opened "1"
  | .measured reading => mapBatteryLevel conf reading = 0
  | _ => False

theorem Effect.phase_eq_polled_iff (conf : Config) (effect : Effect) :
    effect.phase conf = .polled ↔ effect = .polled (.opened "1") := by
  cases effect with
  | polled outcome => by_cases h : outcome = .opened "1" <;> simp [phase, h]
  | measured reading => by_cases h : mapBatteryLevel conf reading = 0 <;> simp [phase, h]
  | _ => simp [phase]

theorem Effect.phase_eq_stopping_iff (conf : Config) (effect : Effect) :
    effect.phase conf = .stopping ↔ effect.Stops conf := by
  cases effect with
  | polled outcome => by_cases h : outcome = .opened "1" <;> simp [phase, Stops, h]
  | measured reading => by_cases h : mapBatteryLevel conf reading = 0 <;> simp [phase, Stops, h]
  | _ => simp [phase, Stops]

/-- What must have been seen before the effect. -/
def Effect.Justified (conf : Config) (first : Int) (before : List Effect) : Effect → Prop
  | .polled _ => before.getLast? ≠ some .offRequested
  | .measured _ => before.getLast? = some (.polled (.opened "1"))
  | .answered _ bytes => before.getLast? ≠ some .offRequested ∧
      bytes ∈ Service.answers conf (latestReading first before)
  | .offSignalled => .offRequested ∈ before
  | .offRequested | .shutDown | .killed => True

namespace Service

variable {conf : Config} {first : Int} {before : List Effect} {service : Service}

/-- The service is a function of what has been seen. -/
structure Tracks (conf : Config) (first : Int) (before : List Effect) (service : Service) :
    Prop where
  reading : service.reading = latestReading first before
  offRequested : service.offRequested = true ↔ .offRequested ∈ before
  phase : service.phase = (before.getLast?.map (Effect.phase conf)).getD .serving
  ended : .shutDown ∈ before ∨ .killed ∈ before → service.phase = .ended

theorem latestReading_concat (first : Int) (before : List Effect) (effect : Effect) :
    latestReading first (before ++ [effect]) =
      effect.reading.getD (latestReading first before) := by
  unfold latestReading
  rw [List.filterMap_append]
  cases hreading : effect.reading <;> simp [hreading]

theorem not_allows_of_ended (hended : service.phase = .ended) (effect : Effect) :
    ¬ service.Allows conf effect := by
  intro hallows
  cases effect with
  | polled => exact ServicePhase.Running.ne_ended (.inl hallows) hended
  | answered => exact ServicePhase.Running.ne_ended (.inl hallows.1) hended
  | offRequested | killed => exact ServicePhase.Running.ne_ended hallows hended
  | offSignalled => exact hallows.1.ne_ended hended
  | measured | shutDown => exact absurd (hallows.symm.trans hended) nofun

theorem step_eq {effect : Effect} {next : Service}
    (hstep : (serviceMachine conf).step service effect = some next) :
    service.Allows conf effect ∧ next = service.after conf effect := by
  simp only [serviceMachine] at hstep
  split at hstep
  next hallows => exact ⟨hallows, (Option.some.inj hstep).symm⟩
  next => cases hstep

theorem Tracks.after (htracks : Tracks conf first before service) {effect : Effect}
    (hallows : service.Allows conf effect) :
    Tracks conf first (before ++ [effect]) (service.after conf effect) where
  reading := by rw [latestReading_concat, ← htracks.reading]; rfl
  offRequested := by
    rw [List.mem_append, ← htracks.offRequested]
    cases effect <;> simp [Service.after, Effect.requestsOff]
  phase := by rw [List.getLast?_concat]; rfl
  ended := by
    have hrunning (h : service.phase = .ended) : ¬ service.Allows conf effect :=
      not_allows_of_ended h effect
    intro hended
    simp only [List.mem_append, List.mem_singleton] at hended
    rcases hended with (h | rfl) | (h | rfl)
    · exact absurd hallows (hrunning (htracks.ended (.inl h)))
    · rfl
    · exact absurd hallows (hrunning (htracks.ended (.inr h)))
    · rfl

theorem tracks_of_run (hrun : (serviceMachine conf).run (.start first) before = some service) :
    Tracks conf first before service := by
  induction before using List.reverseRecOn generalizing service with
  | nil =>
      obtain rfl := Option.some.inj hrun
      exact ⟨rfl, by simp [start], rfl, by simp⟩
  | append_singleton before effect ih =>
      rw [Machine.run_append] at hrun
      obtain ⟨middle, hmiddle, hrest⟩ := Option.bind_eq_some_iff.mp hrun
      obtain ⟨next, hnext, hlast⟩ := Option.bind_eq_some_iff.mp hrest
      obtain rfl := Option.some.inj hlast
      obtain ⟨hallows, rfl⟩ := step_eq hnext
      exact (ih hmiddle).after hallows

/-- But for `serving` the phase tells what was seen last. -/
theorem Tracks.phase_eq_iff (htracks : Tracks conf first before service) (phase : ServicePhase)
    (hne : .serving ≠ phase) :
    service.phase = phase ↔ ∃ last ∈ before.getLast?, last.phase conf = phase := by
  rw [htracks.phase]
  cases before.getLast? with
  | none => simpa using hne
  | some last => simp

/-- **The order of the service.** Whatever is seen in a run of the service is justified by what was
seen before it; the shutdown follows at once on what stops the service and on nothing else, and
nothing follows the end. -/
theorem justified_of_run {after : List Effect} {effect : Effect}
    (hrun : (serviceMachine conf).run (.start first) (before ++ effect :: after) = some service) :
    effect.Justified conf first before ∧
      (effect = .shutDown ↔ ∃ last ∈ before.getLast?, last.Stops conf) ∧
      .shutDown ∉ before ∧ .killed ∉ before := by
  obtain ⟨middle, next, hmiddle, hnext⟩ := Machine.exists_step_of_run hrun
  have htracks := tracks_of_run hmiddle
  have hallows := (step_eq hnext).1
  have hstops : middle.phase = .stopping ↔ ∃ last ∈ before.getLast?, last.Stops conf := by
    have hphase := htracks.phase_eq_iff .stopping (by decide)
    simpa only [Effect.phase_eq_stopping_iff] using hphase
  have hidle (h : middle.phase.Idle) : before.getLast? ≠ some .offRequested := by
    intro hlast
    have hrequested : middle.phase = .requested :=
      (htracks.phase_eq_iff .requested (by decide)).mpr ⟨.offRequested, hlast, rfl⟩
    rw [hrequested] at h
    rcases h with h | h <;> cases h
  have hnotEnded : middle.phase ≠ .ended := fun h => not_allows_of_ended h effect hallows
  refine ⟨?_, ?_, fun h => hnotEnded (htracks.ended (.inl h)),
    fun h => hnotEnded (htracks.ended (.inr h))⟩
  · cases effect with
    | polled => exact hidle hallows
    | measured =>
        obtain ⟨last, hlast, hphase⟩ := (htracks.phase_eq_iff .polled (by decide)).mp hallows
        exact hlast.trans (congrArg some ((Effect.phase_eq_polled_iff conf last).mp hphase))
    | answered => exact ⟨hidle hallows.1, htracks.reading ▸ hallows.2⟩
    | offSignalled => exact htracks.offRequested.mp hallows.2
    | offRequested | shutDown | killed => trivial
  · rw [← hstops]
    constructor
    · rintro rfl
      exact hallows
    · intro hstopping
      have hnotRunning : ¬ middle.phase.Running := by
        rw [hstopping]
        decide
      cases effect with
      | shutDown => rfl
      | polled => exact absurd (.inl hallows) hnotRunning
      | answered => exact absurd (.inl hallows.1) hnotRunning
      | offRequested | killed => exact absurd hallows hnotRunning
      | offSignalled => exact absurd hallows.1 hnotRunning
      | measured => exact absurd (hallows.symm.trans hstopping) nofun

end Service

/-- **What the daemon does is justified.** Over any run of the daemon, each measurement directly
follows a poll that found the button released; each answer is one from the latest reading; OFF is
signalled only after a request, and a request is followed by nothing but more of them, the signal
or the end of the process; the shutdown follows at once on a poll that found anything else or on a
reading of zero percent, on nothing else, and nothing follows it. What is seen never ends with
either of those two. -/
theorem effects_justified (setup : Setup W) (world : W) (lastRead : Timeval)
    (log : Option Logger) (net : Network) (descriptors : Finset ℕ) {events : List DaemonEvent}
    {last : Daemon W}
    (hrun : (daemonMachine setup).run (.start setup world lastRead log net descriptors) events =
      some last) {before after : List Effect} {effect : Effect}
    (hseen : (daemonMachine setup).trace Daemon.observe
      (.start setup world lastRead log net descriptors) events = before ++ effect :: after) :
    effect.Justified setup.conf
        (gpioReadBatteryLevelRaw (setup.files descriptors) setup.conf world).1 before ∧
      (effect = .shutDown ↔ ∃ last ∈ before.getLast?, last.Stops setup.conf) ∧
      .shutDown ∉ before ∧ .killed ∉ before ∧
      ∀ last ∈ (before ++ effect :: after).getLast?, ¬ last.Stops setup.conf := by
  have hstart := providesService_start setup world lastRead log net descriptors
  obtain ⟨service, hservice, hprovides⟩ := (daemonMachine_refines setup).run hstart hrun
  rw [hseen] at hservice
  obtain ⟨hjustified, hshutDown, hrunning, halive⟩ := Service.justified_of_run hservice
  refine ⟨hjustified, hshutDown, hrunning, halive, fun last hlast hstops => ?_⟩
  have hstopping := ((Service.tracks_of_run hservice).phase_eq_iff .stopping (by decide)).mpr
    ⟨last, hlast, (Effect.phase_eq_stopping_iff _ last).mpr hstops⟩
  exact hprovides.phase.ne_stopping hstopping

/-- The OFF signal of the same run. -/
theorem effects_justified_queriedThenOff :
    let before : List Effect :=
      [.polled (.opened "1"), .measured 0, .answered 0 [0, 0, 0, 0], .offRequested]
    (daemonMachine ⟨.allHigh, .shipped, .usual⟩).trace Daemon.observe
        (.start ⟨.allHigh, .shipped, .usual⟩ () ⟨0, 0⟩ none .empty {}) queriedThenOff =
      before ++ .offSignalled :: [.polled (.opened "1")] ∧
    Effect.offSignalled.Justified .shipped
        (gpioReadBatteryLevelRaw (W := Unit) .allHigh .shipped ()).1 before ∧
      (Effect.offSignalled = .shutDown ↔ ∃ last ∈ before.getLast?, last.Stops .shipped) ∧
      .shutDown ∉ before ∧ .killed ∉ before ∧
      ∀ last ∈ (before ++ Effect.offSignalled :: [.polled (.opened "1")]).getLast?,
        ¬ last.Stops .shipped := by
  intro before
  have hseen : (daemonMachine ⟨.allHigh, .shipped, .usual⟩).trace Daemon.observe
      (.start ⟨.allHigh, .shipped, .usual⟩ () ⟨0, 0⟩ none .empty {}) queriedThenOff =
        before ++ .offSignalled :: [.polled (.opened "1")] := by
    decide +kernel
  have hruns : ((daemonMachine ⟨.allHigh, .shipped, .usual⟩).run
      (.start ⟨.allHigh, .shipped, .usual⟩ () ⟨0, 0⟩ none .empty {}) queriedThenOff).isSome := by
    decide +kernel
  obtain ⟨last, hlast⟩ := Option.isSome_iff_exists.mp hruns
  exact ⟨hseen,
    effects_justified ⟨.allHigh, .shipped, .usual⟩ () ⟨0, 0⟩ none .empty {} hlast hseen⟩

end Rocpmd

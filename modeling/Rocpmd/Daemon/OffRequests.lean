import Rocpmd.Daemon.Step

/-!
# OFF commands and the OFF signal

`handle_off_requests` sets its flag for whatever arrives and nothing clears it, so from the first
byte on every power off check sends the OFF signal. The commands are counted in the byte streams of
the off connections, independently of how `read` cut them up.
-/

namespace Rocpmd

open Foundation

variable {W : Type}

/-- The complete OFF commands among the bytes received so far. -/
def History.offCommands (history : History) : ℕ :=
  (history.offStreams.map (countWord (intBytes rocpmdSendOff))).sum

/-- Something was received on the off socket. -/
def History.OffReceived (history : History) : Prop := history.offStreams.flatten ≠ []

/-- No more OFF signals have been sent than OFF commands received. -/
def OffRequested (d : Daemon W) : Prop := d.history.offWrites ≤ d.history.offCommands

instance (d : Daemon W) : Decidable (OffRequested d) := inferInstanceAs (Decidable (_ ≤ _))

/-- If anything was received on the off socket, there is an OFF command for each check made since
then, the one about to be made included. -/
def ChecksCovered (d : Daemon W) : DaemonEvent → Prop
  | .checkOff => d.history.OffReceived → d.history.offChecks + 1 ≤ d.history.offCommands
  | _ => True

/-! ## Bookkeeping -/

theorem offCommands_accept (history : History) (listener : Listener) :
    (Daemon.History.accept history listener).offCommands = history.offCommands := by
  cases listener
  · exact Nat.zero_add _
  · rfl

theorem offReceived_accept (history : History) (listener : Listener) :
    (Daemon.History.accept history listener).OffReceived ↔ history.OffReceived := by
  cases listener <;> exact Iff.rfl

/-- Receiving never takes a command back, whatever it completes. -/
theorem offCommands_le_receive (history : History) (listener : Listener) (bytes : List UInt8) :
    history.offCommands ≤ (Daemon.History.receive history listener bytes).offCommands := by
  unfold Daemon.History.receive History.offCommands
  dsimp only
  split
  next stream rest hstreams =>
    simp only [hstreams, List.map_cons, List.sum_cons]
    exact Nat.add_le_add_right (countWord_le_append _ _ _) _
  next => exact le_rfl

theorem offReceived_receive {history : History} (hreceived : history.OffReceived)
    (listener : Listener) (bytes : List UInt8) :
    (Daemon.History.receive history listener bytes).OffReceived := by
  unfold Daemon.History.receive History.OffReceived at *
  dsimp only
  split
  next stream rest hstreams =>
    rw [hstreams] at hreceived
    simp_all
  next => exact hreceived

/-! ## The flag -/

/-- A connection of the off socket is being handled. -/
def DaemonPc.onOff : DaemonPc → Bool
  | .read .off _ _ | .serve .off _ _ => true
  | _ => false

/-- Bytes of an off connection are in the command, and the flag is about to be set. -/
def DaemonPc.servingOff : DaemonPc → Bool
  | .serve .off _ _ => true
  | _ => false

structure FlagInvariant (d : Daemon W) : Prop where
  writes_eq : d.history.offWrites = d.history.offChecks
  received_of_flag : d.ud.powerOffFlag = true → d.history.OffReceived
  flag_of_received : d.history.OffReceived →
    d.ud.powerOffFlag = true ∨ d.pc.servingOff = true
  received_of_serving : d.pc.servingOff = true → d.history.OffReceived
  stream_of_onOff : d.pc.onOff = true → d.history.offStreams ≠ []

/-- A step that leaves the flag and the streams alone, and handles no off connection after it that
it did not handle before. -/
theorem FlagInvariant.of_same {d next : Daemon W} (hinv : FlagInvariant d)
    (hwrites : next.history.offWrites = d.history.offWrites)
    (hchecks : next.history.offChecks = d.history.offChecks)
    (hstreams : next.history.offStreams = d.history.offStreams)
    (hflag : next.ud.powerOffFlag = d.ud.powerOffFlag)
    (hserving : next.pc.servingOff = d.pc.servingOff)
    (honOff : next.pc.onOff = true → d.pc.onOff = true) : FlagInvariant next where
  writes_eq := by rw [hwrites, hchecks, hinv.writes_eq]
  received_of_flag := by
    simpa only [History.OffReceived, hstreams, hflag] using hinv.received_of_flag
  flag_of_received := by
    simpa only [History.OffReceived, hstreams, hflag, hserving] using hinv.flag_of_received
  received_of_serving := by
    simpa only [History.OffReceived, hstreams, hserving] using hinv.received_of_serving
  stream_of_onOff := fun h => hstreams ▸ hinv.stream_of_onOff (honOff h)

/-- Between the handlers the flag says whether anything was received. -/
theorem FlagInvariant.flag_iff {d : Daemon W} (hinv : FlagInvariant d)
    (hserving : d.pc.servingOff = false) :
    d.ud.powerOffFlag = true ↔ d.history.OffReceived := by
  refine ⟨hinv.received_of_flag, fun hreceived => ?_⟩
  rcases hinv.flag_of_received hreceived with hflag | h
  · exact hflag
  · simp [hserving] at h

namespace Daemon

variable {setup : Setup W} {d next : Daemon W} {event : DaemonEvent}

theorem flagInvariant_start (world : W) (lastRead : Timeval) (log : Option Logger)
    (net : Network) (descriptors : Finset ℕ) :
    FlagInvariant (start setup world lastRead log net descriptors) where
  writes_eq := rfl
  received_of_flag := nofun
  flag_of_received := fun h => absurd rfl h
  received_of_serving := nofun
  stream_of_onOff := nofun

/-- A new connection of the off socket has an empty stream of its own. -/
theorem flagInvariant_accepted (hinv : FlagInvariant d) {listener : Listener} {offReady : Bool}
    (hpc : d.pc = .accept listener offReady) (id fd : ℕ) :
    FlagInvariant (d.accepted listener offReady id fd) where
  writes_eq := hinv.writes_eq
  received_of_flag := fun hflag =>
    (offReceived_accept _ _).mpr (hinv.received_of_flag hflag)
  flag_of_received := fun hreceived => by
    rcases hinv.flag_of_received ((offReceived_accept _ _).mp hreceived) with hflag | hserving
    · exact .inl hflag
    · simp [hpc, DaemonPc.servingOff] at hserving
  received_of_serving := fun hserving => by cases listener <;> cases hserving
  stream_of_onOff := fun honOff => by
    cases listener with
    | off => exact List.cons_ne_nil _ _
    | batteryLevel => cases honOff

theorem flagInvariant_received (hinv : FlagInvariant d) {listener : Listener} {offReady : Bool}
    {id n : ℕ} (hpc : d.pc = .read listener offReady id) (hpos : 0 < n) (hshort : n ≤ 4)
    (hlength : n ≤ (d.net.connections id).inbox.length) :
    FlagInvariant (d.received listener offReady id n hshort) := by
  cases listener with
  | batteryLevel =>
      exact hinv.of_same rfl rfl rfl rfl (by simp [hpc, DaemonPc.servingOff]) nofun
  | off =>
      obtain ⟨stream, rest, hstreams⟩ := List.exists_cons_of_ne_nil
        (hinv.stream_of_onOff (by rw [hpc]; rfl))
      have hbytes : (d.net.connections id).inbox.take n ≠ [] := by
        rw [← List.length_pos_iff, List.length_take]
        omega
      -- what was read extends the stream of the connection, so something has been received
      have hnext : (d.received .off offReady id n hshort).history.offStreams =
          (stream ++ (d.net.connections id).inbox.take n) :: rest := by
        simp [received, History.receive, hstreams]
      have hreceived : (d.received .off offReady id n hshort).history.OffReceived := by
        simp [History.OffReceived, hnext, hbytes]
      exact
        { writes_eq := hinv.writes_eq
          received_of_flag := fun _ => hreceived
          flag_of_received := fun _ => .inr rfl
          received_of_serving := fun _ => hreceived
          stream_of_onOff := fun _ => by simp [hnext] }

theorem flagInvariant_serve (hinv : FlagInvariant d) {listener : Listener} {offReady : Bool}
    {id : ℕ} (hpc : d.pc = .serve listener offReady id) (ok : Bool) :
    FlagInvariant (d.serve listener offReady id ok) := by
  have hserving : (d.serve listener offReady id ok).pc.servingOff = false := by
    rw [serve_pc]
    split_ifs <;> rfl
  cases listener with
  | batteryLevel =>
      refine hinv.of_same (by simp) (by simp) (by simp) (by simp [serve_powerOffFlag]) ?_ ?_
      · rw [hserving, hpc]
        rfl
      · rw [serve_pc]
        split_ifs <;> exact nofun
  | off =>
      have hflag : (d.serve .off offReady id ok).ud.powerOffFlag = true := by
        simp [serve_powerOffFlag]
      have hreceived := hinv.received_of_serving (by rw [hpc]; rfl)
      exact
        { writes_eq := by simpa using hinv.writes_eq
          received_of_flag := fun _ => by simpa [History.OffReceived] using hreceived
          flag_of_received := fun _ => .inl hflag
          received_of_serving := fun h => by simp [hserving] at h
          stream_of_onOff := fun _ => by
            simpa using hinv.stream_of_onOff (by rw [hpc]; rfl) }

theorem flagInvariant_checkOff (hinv : FlagInvariant d) (hpc : d.pc = .checkOff) :
    FlagInvariant (d.checkOff setup) := by
  have hstreams : (d.checkOff setup).history.offStreams = d.history.offStreams := by
    rw [checkOff_history]
  have hflag := hinv.flag_iff (by rw [hpc]; rfl)
  exact
    { writes_eq := by
        rw [checkOff_history]
        dsimp only
        rw [hinv.writes_eq]
        -- the flag is set exactly if something was received, so both counters grow or neither does
        by_cases hreceived : d.history.OffReceived
        · rw [if_pos (hflag.mpr hreceived), if_neg hreceived]
        · rw [if_neg fun h => hreceived (hflag.mp h), if_pos (not_not.mp hreceived)]
      received_of_flag := by
        simpa only [History.OffReceived, hstreams, checkOff_ud] using hinv.received_of_flag
      flag_of_received := by
        simpa only [History.OffReceived, hstreams, checkOff_ud] using fun h => .inl (hflag.mpr h)
      received_of_serving := by simp [DaemonPc.servingOff]
      stream_of_onOff := by simp [DaemonPc.onOff] }

theorem Step.flagInvariant (hstep : Step setup d event next) (hinv : FlagInvariant d) :
    FlagInvariant next := by
  cases hstep with
  | iterate now stamp room hpc =>
      have hsame := sameRequests_iterate setup d now stamp room
      refine hinv.of_same hsame.offWrites hsame.offChecks hsame.offStreams hsame.powerOffFlag
        ?_ ?_ <;>
        rcases iterate_pc setup d now stamp room with h | h <;>
        simp [h, hpc, DaemonPc.servingOff, DaemonPc.onOff]
  | select ok hpc =>
      refine hinv.of_same (by simp [select_history]) (by simp [select_history])
        (by simp [select_history]) (by simp) ?_ ?_ <;>
      rcases d.select_pc_cases ok with h | ⟨_, h, _⟩ | ⟨h, _⟩ | h <;>
        simp [h, hpc, DaemonPc.servingOff, DaemonPc.onOff]
  | acceptFailed ok hpc _ => exact hinv.of_same rfl rfl rfl rfl (by rw [hpc]; rfl) nofun
  | accepted hpc _ _ => exact flagInvariant_accepted hinv hpc _ _
  | @readEnded listener offReady _ _ _ hpc _ =>
      refine hinv.of_same rfl rfl rfl rfl ?_ ?_ <;>
        rcases handlerDone_cases listener offReady with ⟨_, _, h⟩ | h <;>
        simp [h, hpc, DaemonPc.servingOff, DaemonPc.onOff]
  | received hpc hpos hshort hlength => exact flagInvariant_received hinv hpc hpos hshort hlength
  | serve ok hpc _ => exact flagInvariant_serve hinv hpc ok
  | checkOff hpc => exact flagInvariant_checkOff hinv hpc
  | connect | send | receive | close => exact ⟨hinv.1, hinv.2, hinv.3, hinv.4, hinv.5⟩

/-- Bytes received on the off socket stay received. -/
theorem Step.offReceived (hstep : Step setup d event next) (hreceived : d.history.OffReceived) :
    next.history.OffReceived := by
  cases hstep with
  | iterate now stamp room =>
      have hsame := sameRequests_iterate setup d now stamp room
      rw [History.OffReceived, hsame.offStreams]
      exact hreceived
  | select => rw [select_history]; exact hreceived
  | accepted => exact (offReceived_accept _ _).mpr hreceived
  | received => exact offReceived_receive hreceived _ _
  | serve => rw [serve_history]; exact hreceived
  | checkOff => rw [checkOff_history]; exact hreceived
  | acceptFailed | readEnded | connect | send | receive | close => exact hreceived

/-- One step keeps the OFF signals requested exactly when its check, if it is one, is covered. -/
theorem Step.offRequested_iff (hstep : Step setup d event next) (hinv : FlagInvariant d)
    (hrequested : OffRequested d) : OffRequested next ↔ ChecksCovered d event := by
  cases hstep with
  | iterate now stamp room _ =>
      have hsame := sameRequests_iterate setup d now stamp room
      refine iff_of_true ?_ trivial
      simpa [OffRequested, History.offCommands, hsame.offWrites, hsame.offStreams] using hrequested
  | select ok _ =>
      refine iff_of_true ?_ trivial
      simpa [OffRequested, History.offCommands, select_history] using hrequested
  | acceptFailed | readEnded => exact iff_of_true hrequested trivial
  | accepted _ _ _ =>
      exact iff_of_true (hrequested.trans_eq (offCommands_accept _ _).symm) trivial
  | received _ _ _ _ =>
      exact iff_of_true (hrequested.trans (offCommands_le_receive _ _ _)) trivial
  | serve ok _ _ => exact iff_of_true (by simpa [OffRequested] using hrequested) trivial
  | checkOff hpc =>
      have hflag := hinv.flag_iff (by rw [hpc]; rfl)
      simp only [OffRequested, History.offCommands, checkOff_history, ChecksCovered]
      rw [← hinv.writes_eq]
      by_cases hreceived : d.history.OffReceived
      · rw [if_pos (hflag.mpr hreceived)]
        exact ⟨fun h _ => h, fun h => h hreceived⟩
      · rw [if_neg fun h => hreceived (hflag.mp h)]
        exact iff_of_true hrequested fun h => absurd h hreceived
  | connect | send | receive | close => exact iff_of_true hrequested trivial

end Daemon

/-- **When OFF signals are requested.** In every state of a run at most as many OFF signals have
been sent as OFF commands received exactly when each power off check that follows the first byte on
the off socket finds a command for every such check so far, itself included. -/
theorem offRequested_along_iff (setup : Setup W) (world : W) (lastRead : Timeval)
    (log : Option Logger) (net : Network) (descriptors : Finset ℕ) (events : List DaemonEvent) :
    (daemonMachine setup).Along OffRequested
        (Daemon.start setup world lastRead log net descriptors) events ↔
      (daemonMachine setup).Meets ChecksCovered
        (Daemon.start setup world lastRead log net descriptors) events :=
  Machine.along_iff_meets FlagInvariant
    (fun _ _ _ hinv hnext => (Daemon.Step.of_step hnext).flagInvariant hinv)
    (fun _ _ _ hinv hrequested hnext =>
      (Daemon.Step.of_step hnext).offRequested_iff hinv hrequested)
    (Daemon.flagInvariant_start world lastRead log net descriptors) (Nat.zero_le _) events

/-- A client that sends a single zero byte to the off socket cuts the power. -/
theorem stray_byte_sends_off :
    ¬ (daemonMachine ⟨.allHigh, .shipped, .usual⟩).Along OffRequested
      (Daemon.start ⟨.allHigh, .shipped, .usual⟩ () ⟨0, 0⟩ none .empty {})
      [.connect .off, .send 0 [0], .iterate ⟨1, 0⟩ "" 4096, .select true, .accept true,
        .read 1 true, .serve true, .close 0, .read 1 true, .checkOff] :=
  Machine.not_along_of_run (by decide +kernel)

end Rocpmd

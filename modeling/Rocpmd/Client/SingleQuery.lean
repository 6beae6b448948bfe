import Rocpmd.Client.ChargingReports

/-!
# One query on a connection

A client sends one query and nothing else. Whatever the daemon does in between, and in whatever
pieces it reads the query, it replies at most once, with the level it has when it does.
-/

namespace Rocpmd

open Foundation

variable {W : Type}

/-- The code of its command is one of the two that the server looks for. -/
theorem LevelQuery.command_code (query : LevelQuery) :
    query.command.code = rocpmdSendPowerLevelPercent ∨
      query.command.code = rocpmdSendPowerLevelRaw := by
  cases query
  · exact .inl rfl
  · exact .inr rfl

/-! ## What a step does to a connection -/

/-- The event is one of the client of the connection. -/
def DaemonEvent.isClientOf (id : ℕ) : DaemonEvent → Bool
  | .send other _ | .receive other _ | .close other => other == id
  | _ => false

namespace Network

variable {id other : ℕ}

theorem connections_modify_of_ne (net : Network) (change : Connection → Connection)
    (hne : id ≠ other) :
    (net.modify other change).connections id = net.connections id := by
  simp [modify, hne]

theorem connections_consume_of_ne (net : Network) (n : ℕ) (hne : id ≠ other) :
    (net.consume other n).connections id = net.connections id :=
  net.connections_modify_of_ne _ hne

theorem connections_receive_of_ne (net : Network) (left : ℕ) (hne : id ≠ other) :
    (net.receive other left).connections id = net.connections id :=
  net.connections_modify_of_ne _ hne

theorem connections_close_of_ne (net : Network) (hne : id ≠ other) :
    (net.close other).connections id = net.connections id :=
  net.connections_modify_of_ne _ hne

variable {net next : Network}

theorem connections_of_send {bytes : List UInt8} (hsend : net.send other bytes = some next)
    (hne : id ≠ other) : next.connections id = net.connections id := by
  unfold send at hsend
  split at hsend
  next =>
    obtain rfl := Option.some.inj hsend
    exact net.connections_modify_of_ne _ hne
  next => cases hsend

theorem mem_backlog_of_connect {listener socket : Listener} (hid : id < net.nextConnection)
    (hmem : id ∈ (net.connect socket).backlog listener) : id ∈ net.backlog listener := by
  rcases eq_or_ne listener socket with rfl | hne
  · simpa [connect, hid.ne] using hmem
  · simpa [connect, hne] using hmem

theorem mem_backlog_of_dequeue {listener socket : Listener}
    (hmem : id ∈ (net.dequeue socket).backlog listener) : id ∈ net.backlog listener := by
  rcases eq_or_ne listener socket with rfl | hne
  · exact List.mem_of_mem_tail (by simpa [dequeue] using hmem)
  · simpa [dequeue, hne] using hmem

end Network

namespace Daemon

variable {setup : Setup W} {d next : Daemon W} {event : DaemonEvent} {id : ℕ}

/-- What a step that is not of the client of a connection can have to do with it. -/
inductive ConnectionStep (d next : Daemon W) (event : DaemonEvent) (id : ℕ) : Prop
  | elsewhere (hconnection : next.net.connections id = d.net.connections id)
      (hpc : next.pc.connection ≠ some id)
  | kept (hconnection : next.net.connections id = d.net.connections id) (hpc : next.pc = d.pc)
      (hcommand : next.command = d.command) (hud : next.ud = d.ud)
  | accepted {listener : Listener} {offReady : Bool}
      (hconnection : next.net.connections id = d.net.connections id)
      (hbacklog : id ∈ d.net.backlog listener) (hpc : next.pc = .read listener offReady id)
      (hcommand : next.command = .init)
  | received {listener : Listener} {offReady : Bool} {n : ℕ}
      (hpc : d.pc = .read listener offReady id) (hpos : 0 < n) (hshort : n ≤ 4)
      (hlength : n ≤ (d.net.connections id).inbox.length)
      (hnext : next = d.received listener offReady id n hshort)
  | served {listener : Listener} {offReady ok : Bool} (hpc : d.pc = .serve listener offReady id)
      (hevent : event = .serve ok) (hnext : next = d.serve listener offReady id ok)

theorem serve_connections_of_ne (listener : Listener) (offReady ok : Bool) {other : ℕ}
    (hne : id ≠ other) :
    (d.serve listener offReady other ok).net.connections id = d.net.connections id := by
  rcases d.serve_net listener offReady other ok with hnet | ⟨bytes, -, hnet⟩ <;> rw [hnet]
  exact d.net.connections_modify_of_ne _ hne

theorem serve_pc_cases (d : Daemon W) (listener : Listener) (offReady : Bool) (id : ℕ)
    (ok : Bool) :
    let next := d.serve listener offReady id ok
    next.pc = .killed ∨ next.pc = .iterate ∨ next.pc = .read listener offReady id := by
  dsimp only
  rw [serve_pc]
  split_ifs <;> simp

theorem handlerDone_connection (listener : Listener) (offReady : Bool) :
    (handlerDone listener offReady).connection = none := by
  rcases handlerDone_cases listener offReady with ⟨-, -, h⟩ | h <;> rw [h] <;> rfl

theorem Step.connectionStep (hstep : Step setup d event next)
    (hspares : event.isClientOf id = false) (hid : id < d.net.nextConnection) :
    ConnectionStep d next event id := by
  cases hstep with
  | iterate now stamp room =>
      refine .elsewhere ?_ ?_
      · rw [(sameRequests_iterate setup d now stamp room).net]
      · rcases iterate_pc setup d now stamp room with h | h <;> rw [h] <;> exact nofun
  | select ok =>
      refine .elsewhere (by rw [select_net]) ?_
      rcases d.select_pc_cases ok with h | ⟨_, h, -⟩ | ⟨h, -⟩ | h <;> rw [h] <;> exact nofun
  | acceptFailed => exact .elsewhere rfl nofun
  | @accepted _ _ other _ _ _ hbacklog =>
      rcases eq_or_ne id other with rfl | hne
      · exact .accepted rfl (by rw [hbacklog]; exact List.mem_cons_self) rfl rfl
      · exact .elsewhere rfl fun h => hne (Option.some.inj h).symm
  | @readEnded listener offReady =>
      exact .elsewhere rfl (by rw [handlerDone_connection]; exact nofun)
  | @received _ _ other _ hpc hpos hshort hlength =>
      rcases eq_or_ne id other with rfl | hne
      · exact .received hpc hpos hshort hlength rfl
      · exact .elsewhere (d.net.connections_consume_of_ne _ hne)
          fun h => hne (Option.some.inj h).symm
  | @serve listener offReady other ok hpc _ =>
      rcases eq_or_ne id other with rfl | hne
      · exact .served hpc rfl rfl
      · refine .elsewhere (serve_connections_of_ne listener offReady ok hne) ?_
        rcases d.serve_pc_cases listener offReady other ok with h | h | h <;> rw [h]
        · exact nofun
        · exact nofun
        · exact fun h => hne (Option.some.inj h).symm
  | checkOff => exact .elsewhere (by rw [checkOff_net]) (by rw [checkOff_pc]; exact nofun)
  | connect => exact .kept (by simp [Network.connect, hid.ne]) rfl rfl rfl
  | @send other _ _ hnet =>
      have hne : other ≠ id := by simpa [DaemonEvent.isClientOf] using hspares
      exact .kept (Network.connections_of_send hnet hne.symm) rfl rfl rfl
  | receive other left =>
      have hne : other ≠ id := by simpa [DaemonEvent.isClientOf] using hspares
      exact .kept (d.net.connections_receive_of_ne left hne.symm) rfl rfl rfl
  | close other =>
      have hne : other ≠ id := by simpa [DaemonEvent.isClientOf] using hspares
      exact .kept (d.net.connections_close_of_ne hne.symm) rfl rfl rfl

/-- No connection ever comes back to a backlog. -/
theorem Step.backlog_le (hstep : Step setup d event next) (hid : id < d.net.nextConnection) :
    id < next.net.nextConnection ∧
      ∀ listener, id ∈ next.net.backlog listener → id ∈ d.net.backlog listener := by
  cases hstep with
  | iterate now stamp room =>
      rw [(sameRequests_iterate setup d now stamp room).net]
      exact ⟨hid, fun _ hmem => hmem⟩
  | select => rw [select_net]; exact ⟨hid, fun _ hmem => hmem⟩
  | acceptFailed | readEnded | received => exact ⟨hid, fun _ hmem => hmem⟩
  | accepted => exact ⟨hid, fun _ => Network.mem_backlog_of_dequeue⟩
  | @serve listener offReady other ok =>
      obtain ⟨hnext, hbacklog, -⟩ := serve_network d listener offReady other ok
      rw [hnext, hbacklog]
      exact ⟨hid, fun _ hmem => hmem⟩
  | checkOff => rw [checkOff_net]; exact ⟨hid, fun _ hmem => hmem⟩
  | connect => exact ⟨Nat.lt_succ_of_lt hid, fun _ => Network.mem_backlog_of_connect hid⟩
  | send hnet =>
      obtain ⟨hnext, hbacklog, -⟩ := Network.send_eq hnet
      rw [hnext, hbacklog]
      exact ⟨hid, fun _ hmem => hmem⟩
  | receive | close => exact ⟨hid, fun _ hmem => hmem⟩

/-! ## The socket of the connection -/

/-- The connection is one of the battery level socket, and its client keeps it open. -/
structure OnLevelSocket (d : Daemon W) (id : ℕ) : Prop where
  lt : id < d.net.nextConnection
  not_queued : id ∉ d.net.backlog .off
  handled : d.pc.connection = some id → d.pc.HandlesLevel id
  peerOpen : (d.net.connections id).peerClosed = false

theorem OnLevelSocket.listener_eq (hsocket : OnLevelSocket d id) {listener : Listener}
    {offReady : Bool}
    (hpc : d.pc = .read listener offReady id ∨ d.pc = .serve listener offReady id) :
    listener = .batteryLevel := by
  have hhandles := hsocket.handled (by rcases hpc with h | h <;> rw [h] <;> rfl)
  cases listener with
  | off => rcases hpc with h | h <;> rw [h] at hhandles <;> cases hhandles
  | batteryLevel => rfl

theorem Step.onLevelSocket (hstep : Step setup d event next) (hspares : event.isClientOf id = false)
    (hsocket : OnLevelSocket d id) : OnLevelSocket next id := by
  obtain ⟨hlt, hbacklog⟩ := hstep.backlog_le hsocket.lt
  suffices h : (next.pc.connection = some id → next.pc.HandlesLevel id) ∧
      (next.net.connections id).peerClosed = false from
    ⟨hlt, fun hmem => hsocket.not_queued (hbacklog .off hmem), h.1, h.2⟩
  have hopen := hsocket.peerOpen
  cases hstep.connectionStep hspares hsocket.lt with
  | elsewhere hconnection hpc => exact ⟨fun h => absurd h hpc, by rw [hconnection, hopen]⟩
  | kept hconnection hpc => exact ⟨by rw [hpc]; exact hsocket.handled, by rw [hconnection, hopen]⟩
  | @accepted listener _ hconnection hmem hpc =>
      refine ⟨fun _ => ?_, by rw [hconnection, hopen]⟩
      cases listener with
      | off => exact absurd hmem hsocket.not_queued
      | batteryLevel => rw [hpc]; rfl
  | @received _ offReady n hpc _ _ _ hnext =>
      obtain rfl := hsocket.listener_eq (.inl hpc)
      rw [hnext]
      exact ⟨fun _ => rfl, by simpa [Daemon.received, Network.consume, Network.modify] using hopen⟩
  | @served _ offReady ok hpc _ hnext =>
      obtain rfl := hsocket.listener_eq (.inr hpc)
      rw [hnext]
      refine ⟨?_, ?_⟩
      · have hcases := d.serve_pc_cases .batteryLevel offReady id ok
        dsimp only at hcases
        generalize (d.serve .batteryLevel offReady id ok).pc = pc at hcases ⊢
        intro hid
        rcases hcases with rfl | rfl | rfl
        · cases hid
        · cases hid
        · rfl
      · rcases d.serve_net .batteryLevel offReady id ok with hnet | ⟨bytes, -, hnet⟩
        · rw [hnet, hopen]
        · simpa [hnet, Network.deliver, Network.modify] using hopen

/-! ## The reply -/

/-- Nothing was written to the connection. Its client has sent `sent`, which is nothing or the whole
query; what the daemon makes of a part of it calls for no reply. -/
structure Unanswered (d : Daemon W) (query : LevelQuery) (id : ℕ) (sent : List UInt8) : Prop where
  outbox : d.outbox id = []
  inbox : (d.net.connections id).inbox <:+ sent
  reading : ∀ offReady, d.pc = .read .batteryLevel offReady id →
    (d.net.connections id).inbox = sent → d.command = .init
  serving : ∀ offReady, d.pc = .serve .batteryLevel offReady id →
    (d.net.connections id).inbox ≠ sent ∧
      (d.command = query.command.buffer ∧ (d.net.connections id).inbox = [] ∨
        d.reply .batteryLevel = none)

/-- The query was read and the reply was written; nothing is left to read. -/
structure Answered (d : Daemon W) (id : ℕ) (reply : List UInt8) : Prop where
  outbox : d.outbox id = reply
  inbox : (d.net.connections id).inbox = []
  not_serving : ∀ offReady, d.pc ≠ .serve .batteryLevel offReady id

/-- A new connection has nothing on it, and the daemon is not handling it. -/
theorem unanswered_connect (hbacklog : BacklogInvariant d) (query : LevelQuery) :
    let connected : Daemon W := { d with net := d.net.connect query.command.listener }
    OnLevelSocket connected d.net.nextConnection ∧
      Unanswered connected query d.net.nextConnection [] := by
  have hpc : d.pc.connection ≠ some d.net.nextConnection := fun h =>
    absurd (hbacklog.connection_lt _ h) (Nat.lt_irrefl _)
  have hnew : (d.net.connect query.command.listener).connections d.net.nextConnection =
      ⟨[], [], 0, false⟩ := by
    simp [Network.connect]
  have hoff : d.net.nextConnection ∉ d.net.backlog .off := fun hmem =>
    absurd (d.net.backlog_lt .off _ hmem) (Nat.lt_irrefl _)
  constructor
  · refine ⟨Nat.lt_succ_self _, fun hmem => hoff ?_, fun h => absurd h hpc, by rw [hnew]⟩
    cases query <;> simpa [Network.connect, LevelQuery.command, Command.listener] using hmem
  · refine ⟨by rw [Daemon.outbox, hnew], by rw [hnew], fun _ h => ?_, fun _ h => ?_⟩ <;>
      exact absurd (congrArg DaemonPc.connection h) hpc

/-- The client sends the query. -/
theorem Unanswered.send {query : LevelQuery} (hquery : Unanswered d query id [])
    (hsocket : OnLevelSocket d id) {net : Network}
    (hsend : d.net.send id query.command.buffer.bytes = some net) :
    let sent : Daemon W := { d with net := net }
    OnLevelSocket sent id ∧ Unanswered sent query id query.command.buffer.bytes := by
  have hempty := List.suffix_nil.mp hquery.inbox
  obtain rfl : d.net.modify id (fun connection =>
      { connection with inbox := connection.inbox ++ query.command.buffer.bytes }) = net := by
    rw [Network.send, if_pos ⟨hsocket.lt, hsocket.peerOpen⟩] at hsend
    exact Option.some.inj hsend
  have hconnection : (d.net.modify id (fun connection =>
      { connection with inbox := connection.inbox ++ query.command.buffer.bytes })).connections
        id = { d.net.connections id with inbox := query.command.buffer.bytes } := by
    simp [Network.modify, hempty]
  constructor
  · refine ⟨hsocket.lt, hsocket.not_queued, hsocket.handled, ?_⟩
    rw [hconnection]
    exact hsocket.peerOpen
  · refine ⟨?_, ?_, fun offReady hpc _ => ?_, fun offReady hpc => ?_⟩
    · rw [Daemon.outbox, hconnection]
      exact hquery.outbox
    · rw [hconnection]
    · exact hquery.reading offReady hpc hempty
    · exact absurd hempty (hquery.serving offReady hpc).1

/-- The step is the one that replies on the connection. -/
def Replies (d : Daemon W) (id : ℕ) : DaemonEvent → Prop
  | .serve _ => ∃ offReady, d.pc = .serve .batteryLevel offReady id ∧
      (d.reply .batteryLevel).isSome
  | _ => False

instance (d : Daemon W) (id : ℕ) : ∀ event, Decidable (Replies d id event)
  | .serve _ => inferInstanceAs (Decidable (∃ _, _))
  | .iterate _ _ _ | .select _ | .accept _ | .read _ _ | .checkOff | .connect _ | .send _ _
  | .receive _ _ | .close _ => inferInstanceAs (Decidable False)

theorem Replies.event_eq (hreplies : Replies d id event) : ∃ ok, event = .serve ok := by
  unfold Replies at hreplies
  split at hreplies
  next ok => exact ⟨ok, rfl⟩
  next => cases hreplies

/-- What a query has after its first byte looks like no query. -/
theorem reply_fill_of_tail (ud : UdServer) (query : LevelQuery) (buffer : CommandBuffer)
    {inbox : List UInt8} {n : ℕ} (hpos : 0 < n) (hlength : n ≤ inbox.length)
    (hinbox : inbox <:+ query.command.buffer.bytes) (hne : inbox ≠ query.command.buffer.bytes)
    (hshort : (inbox.take n).length ≤ 4) :
    ud.reply (buffer.fill (inbox.take n) hshort) .batteryLevel = none := by
  apply ud.reply_of_head
  have htail : inbox <:+ [0, 0, 0] := by
    cases query with
    | percent => exact (List.suffix_cons_iff.mp hinbox).resolve_left hne
    | raw => exact (List.suffix_cons_iff.mp hinbox).resolve_left hne
  obtain ⟨front, hfront⟩ := htail
  cases inbox with
  | nil => exact absurd hlength (Nat.not_le.mpr hpos)
  | cons byte rest =>
      have hzero : byte = 0 := by
        have hmem : byte ∈ [(0 : UInt8), 0, 0] := by rw [← hfront]; simp
        simpa using hmem
      obtain ⟨k, rfl⟩ := Nat.exists_eq_succ_of_ne_zero hpos.ne'
      rw [CommandBuffer.fill_bytes, List.take_succ_cons, hzero]
      rfl

/-- A read leaves the whole query in the variable, or no query. -/
theorem Unanswered.received_command {query : LevelQuery}
    (hquery : Unanswered d query id query.command.buffer.bytes) {offReady : Bool} {n : ℕ}
    (hpc : d.pc = .read .batteryLevel offReady id) (hpos : 0 < n) (hshort : n ≤ 4)
    (hlength : n ≤ (d.net.connections id).inbox.length) :
    let received := d.received .batteryLevel offReady id n hshort
    received.command = query.command.buffer ∧ (d.net.connections id).inbox.drop n = [] ∨
      received.reply .batteryLevel = none := by
  dsimp only
  rw [reply_eq]
  by_cases hwhole : (d.net.connections id).inbox = query.command.buffer.bytes
  · -- the query from its start, into a fresh variable
    have hcommand : (d.received .batteryLevel offReady id n hshort).command =
        CommandBuffer.init.fill (query.command.buffer.bytes.take n)
          ((List.length_take_le _ _).trans hshort) := by
      simp only [Daemon.received, hquery.reading offReady hpc hwhole, hwhole]
    have hbytes := query.command.buffer.length_eq
    rw [hcommand, hwhole]
    rcases hshort.eq_or_lt with rfl | hfew
    · left
      refine ⟨CommandBuffer.ext ?_, List.drop_of_length_le hbytes.le⟩
      rw [CommandBuffer.fill_whole _ _ (List.length_take_of_le hbytes.ge),
        List.take_of_length_le hbytes.le]
    · right
      refine UdServer.reply_of_start _ query.command_code hpos hfew ?_
      rw [CommandBuffer.fill_bytes, List.length_take_of_le (hbytes.ge.trans' hshort)]
      rfl
  · right
    exact reply_fill_of_tail _ query _ hpos hlength hquery.inbox hwhole
      ((List.length_take_le _ _).trans hshort)

/-- What a read of some of the query leaves to the loop body. -/
theorem Unanswered.received {query : LevelQuery} {sent : List UInt8}
    (hquery : Unanswered d query id sent)
    (hsent : sent = [] ∨ sent = query.command.buffer.bytes) {offReady : Bool} {n : ℕ}
    (hpc : d.pc = .read .batteryLevel offReady id) (hpos : 0 < n) (hshort : n ≤ 4)
    (hlength : n ≤ (d.net.connections id).inbox.length) :
    Unanswered (d.received .batteryLevel offReady id n hshort) query id sent := by
  have hconnection : (d.received .batteryLevel offReady id n hshort).net.connections id =
      { d.net.connections id with inbox := (d.net.connections id).inbox.drop n } := by
    simp [Daemon.received, Network.consume, Network.modify]
  have hinbox := hquery.inbox
  obtain rfl : sent = query.command.buffer.bytes := by
    refine hsent.resolve_left fun hnone => ?_
    rw [hnone, List.suffix_nil] at hinbox
    rw [hinbox] at hlength
    exact absurd hlength (Nat.not_le.mpr hpos)
  refine ⟨?_, ?_, fun _ h => (by cases h), fun _ _ => ⟨?_, ?_⟩⟩
  · rw [Daemon.outbox, hconnection]
    exact hquery.outbox
  · rw [hconnection]
    exact (List.drop_suffix n _).trans hinbox
  · rw [hconnection]
    intro hsame
    have hle := congrArg List.length hsame
    have hle' := hinbox.length_le
    rw [List.length_drop] at hle
    omega
  · rw [hconnection]
    exact hquery.received_command hpc hpos hshort hlength

/-- Nothing is written to a connection on which nothing was read. -/
theorem Unanswered.of_same {query : LevelQuery} {sent : List UInt8}
    (hquery : Unanswered d query id sent)
    (hconnection : next.net.connections id = d.net.connections id)
    (hreading : ∀ offReady, next.pc = .read .batteryLevel offReady id →
      (d.net.connections id).inbox = sent → next.command = .init)
    (hserving : ∀ offReady, next.pc = .serve .batteryLevel offReady id →
      next.pc = d.pc ∧ next.command = d.command ∧ next.ud = d.ud) :
    Unanswered next query id sent where
  outbox := by rw [Daemon.outbox, hconnection]; exact hquery.outbox
  inbox := by rw [hconnection]; exact hquery.inbox
  reading := by
    intro offReady hpc hinbox
    rw [hconnection] at hinbox
    exact hreading offReady hpc hinbox
  serving := by
    intro offReady hpc
    obtain ⟨hsame, hcommand, hud⟩ := hserving offReady hpc
    rw [hconnection, hcommand, reply_eq, hcommand, hud, ← reply_eq]
    exact hquery.serving offReady (hsame ▸ hpc)

/-- The loop body writes nothing, or the answer to the query if that is in the variable. -/
theorem Unanswered.serve {query : LevelQuery} {sent : List UInt8}
    (hquery : Unanswered d query id sent) {offReady ok : Bool}
    (hpc : d.pc = .serve .batteryLevel offReady id)
    (hnext : next = d.serve .batteryLevel offReady id ok) :
    Unanswered next query id sent ∨
      sent ≠ [] ∧ (d.reply .batteryLevel).isSome ∧
        Answered next id (intBytes (query.served d.ud)) := by
  obtain ⟨hread, hcommand⟩ := hquery.serving offReady hpc
  have hserved : ∀ offReady', next.pc ≠ .serve .batteryLevel offReady' id := by
    intro _ h
    rw [hnext] at h
    rcases d.serve_pc_cases .batteryLevel offReady id ok with h' | h' | h' <;>
      cases h'.symm.trans h
  rcases d.serve_net .batteryLevel offReady id ok with hnet | ⟨bytes, hreply, hnet⟩
  · -- no reply is called for, or it could not be written
    left
    exact hquery.of_same (by rw [hnext, hnet]) (fun _ _ hinbox => absurd hinbox hread)
      fun offReady' h => absurd h (hserved offReady')
  · right
    obtain ⟨hcommand, hinbox⟩ := hcommand.resolve_right (by rw [hreply]; exact nofun)
    have hanswer : d.reply .batteryLevel = some (intBytes (query.served d.ud)) := by
      have hbytes := d.reply_of_command query.command hcommand
      cases query <;> exact hbytes
    obtain rfl : bytes = intBytes (query.served d.ud) :=
      Option.some.inj (hreply.symm.trans hanswer)
    have hempty := hquery.outbox
    rw [Daemon.outbox] at hempty
    refine ⟨fun hnone => hread (hinbox.trans hnone.symm), by rw [hreply]; rfl, ?_, ?_, hserved⟩
    · simp [Daemon.outbox, hnext, hnet, Network.deliver, Network.modify, hempty]
    · simp [hnext, hnet, Network.deliver, Network.modify, hinbox]

/-- A query that is not answered stays so, or is answered with the level the daemon has. -/
theorem Step.unanswered (hstep : Step setup d event next) (hspares : event.isClientOf id = false)
    (hsocket : OnLevelSocket d id) {query : LevelQuery} {sent : List UInt8}
    (hsent : sent = [] ∨ sent = query.command.buffer.bytes)
    (hquery : Unanswered d query id sent) :
    Unanswered next query id sent ∨
      sent ≠ [] ∧ Replies d id event ∧ Answered next id (intBytes (query.served d.ud)) := by
  cases hstep.connectionStep hspares hsocket.lt with
  | elsewhere hconnection hpc =>
      left
      refine hquery.of_same hconnection (fun _ h _ => ?_) fun _ h => ?_ <;>
        exact absurd (by rw [h]; rfl) hpc
  | kept hconnection hpc hcommand hud =>
      refine .inl (hquery.of_same hconnection (fun offReady h hinbox => ?_)
        fun _ _ => ⟨hpc, hcommand, hud⟩)
      rw [hcommand]
      exact hquery.reading offReady (hpc ▸ h) hinbox
  | accepted hconnection _ hpc hcommand =>
      left
      refine hquery.of_same hconnection (fun _ _ _ => hcommand) fun _ h => ?_
      rw [hpc] at h
      cases h
  | @received _ offReady n hpc hpos hshort hlength hnext =>
      obtain rfl := hsocket.listener_eq (.inl hpc)
      rw [hnext]
      exact .inl (hquery.received hsent hpc hpos hshort hlength)
  | @served _ offReady ok hpc hevent hnext =>
      obtain rfl := hsocket.listener_eq (.inr hpc)
      refine (hquery.serve hpc hnext).imp_right fun ⟨hsent, hreply, hanswered⟩ =>
        ⟨hsent, ?_, hanswered⟩
      rw [hevent]
      exact ⟨offReady, hpc, hreply⟩

theorem Step.answered (hstep : Step setup d event next) (hspares : event.isClientOf id = false)
    (hsocket : OnLevelSocket d id) {reply : List UInt8} (hanswered : Answered d id reply) :
    Answered next id reply := by
  have hsame : next.net.connections id = d.net.connections id →
      (∀ offReady, next.pc = .serve .batteryLevel offReady id → next.pc = d.pc) →
      Answered next id reply := by
    intro hconnection hserving
    refine ⟨?_, by rw [hconnection]; exact hanswered.inbox, fun offReady hpc => ?_⟩
    · rw [Daemon.outbox, hconnection]
      exact hanswered.outbox
    · exact hanswered.not_serving offReady (hserving offReady hpc ▸ hpc)
  cases hstep.connectionStep hspares hsocket.lt with
  | elsewhere hconnection hpc =>
      refine hsame hconnection fun _ h => absurd ?_ hpc
      rw [h]
      rfl
  | kept hconnection hpc => exact hsame hconnection fun _ _ => hpc
  | accepted hconnection _ hpc =>
      refine hsame hconnection fun _ h => ?_
      rw [hpc] at h
      cases h
  | received _ hpos _ hlength =>
      rw [hanswered.inbox] at hlength
      exact absurd hlength (Nat.not_le.mpr hpos)
  | served hpc =>
      obtain rfl := hsocket.listener_eq (.inr hpc)
      exact absurd hpc (hanswered.not_serving _)

end Daemon

end Rocpmd

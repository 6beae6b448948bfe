import Rocpmd.Daemon.Step

/-!
# Commands on one connection

`handle_battery_level_requests` keeps no count of the bytes of a command: it interprets its variable
after every `read`, whatever part of it the read replaced.
-/

namespace Rocpmd

open Foundation

variable {W : Type}

/-! ## Streams of commands -/

/-- How many bytes one `read` of a command returns. -/
abbrev ReadSize := {n : ℕ // 0 < n ∧ n ≤ 4}

/-- Reads of the sizes, each followed by the loop body. The client receives the replies as they
come, so that the next one has room. -/
def handling (id : ℕ) (sizes : List ReadSize) : List DaemonEvent :=
  sizes.flatMap fun size => [.read size.val true, .receive id 0, .serve true]

/-- What a client writes to send the commands. -/
def commandStream (commands : List CommandBuffer) : List UInt8 :=
  commands.flatMap CommandBuffer.bytes

theorem length_commandStream (commands : List CommandBuffer) :
    (commandStream commands).length = 4 * commands.length := by
  rw [commandStream, List.length_flatMap]
  simp [CommandBuffer.length_eq, Nat.mul_comm]

namespace UdServer

/-- The replies the commands call for, in order. -/
def replies (ud : UdServer) (commands : List CommandBuffer) : List UInt8 :=
  commands.flatMap fun command => (ud.reply command .batteryLevel).getD []

/-- The variable after a read of the first bytes of the stream. -/
def readCommand (command : CommandBuffer) (stream : List UInt8) (size : ReadSize) :
    CommandBuffer :=
  command.fill (stream.take size) ((List.length_take_le _ _).trans size.2.2)

/-- What the read loop replies to the stream when its variable holds `command`. -/
def repliesRead (ud : UdServer) (command : CommandBuffer) (stream : List UInt8) :
    List ReadSize → List UInt8
  | [] => []
  | size :: rest =>
      (ud.reply (readCommand command stream size) .batteryLevel).getD [] ++
        ud.repliesRead (readCommand command stream size) (stream.drop size) rest

end UdServer

/-! ## The read loop -/

namespace Daemon

variable {setup : Setup W} {d : Daemon W} {offReady : Bool} {id : ℕ} {stream : List UInt8}

/-- The daemon is about to read from a battery level connection that has `stream` left to read and
that its client keeps open. -/
structure AtRead (d : Daemon W) (offReady : Bool) (id : ℕ) (stream : List UInt8) : Prop where
  pc : d.pc = .read .batteryLevel offReady id
  inbox : (d.net.connections id).inbox = stream
  peerOpen : (d.net.connections id).peerClosed = false

/-- The bytes written to the client of a connection. -/
def outbox (d : Daemon W) (id : ℕ) : List UInt8 := (d.net.connections id).outbox

/-- A client that is there gets the reply. -/
theorem serve_connection_of_open (listener : Listener) (offReady : Bool) {id : ℕ}
    (hopen : (d.net.connections id).peerClosed = false) :
    ((d.serve listener offReady id true).net.connections id).inbox =
        (d.net.connections id).inbox ∧
      ((d.serve listener offReady id true).net.connections id).peerClosed = false ∧
      (d.serve listener offReady id true).outbox id =
        d.outbox id ++ (d.reply listener).getD [] := by
  unfold serve outbox
  dsimp only
  split
  next hreply =>
    rw [hreply]
    cases listener <;> simp [hopen]
  next bytes hreply => simp [hopen, hreply, Network.deliver, Network.modify]

variable (setup) in
/-- One read and the loop body after it. -/
theorem AtRead.round (hat : d.AtRead offReady id stream) (size : ReadSize)
    (hsize : size ≤ stream.length) :
    ∃ next, (daemonMachine setup).run d [.read size true, .receive id 0, .serve true] =
        some next ∧
      next.AtRead offReady id (stream.drop size) ∧
      next.command = UdServer.readCommand d.command stream size ∧
      next.ud = d.ud ∧
      next.outbox id = d.outbox id ++
        (d.ud.reply (UdServer.readCommand d.command stream size) .batteryLevel).getD [] := by
  obtain ⟨n, hpos, hshort⟩ := size
  obtain ⟨hpc, rfl, hopen⟩ := hat
  dsimp only at hsize ⊢
  have hinbox : (d.net.connections id).inbox ≠ [] := by
    rw [← List.length_pos_iff]
    omega
  have hread : (daemonMachine setup).step d (.read n true) =
      some (d.received .batteryLevel offReady id n hshort) := by
    simp [daemonMachine, step, hpc, read, hinbox, hpos, hshort, hsize]
  let ready : Daemon W :=
    { d.received .batteryLevel offReady id n hshort with
      net := (d.net.consume id n).receive id 0 }
  have hreceive : (daemonMachine setup).step (d.received .batteryLevel offReady id n hshort)
      (.receive id 0) = some ready := rfl
  have hconnection : ready.net.connections id =
      { d.net.connections id with
        inbox := (d.net.connections id).inbox.drop n, unreceived := 0 } := by
    simp [ready, Network.receive, Network.consume, Network.modify]
  have hclosed : (ready.net.connections id).peerClosed = false := by rw [hconnection, hopen]
  have hroom : ¬ ready.WriteBlocks setup .batteryLevel id := fun hblocks =>
    hblocks.2 (.inr (by rw [hconnection]; exact Nat.zero_le _))
  have hserving : ready.pc = .serve .batteryLevel offReady id := rfl
  have hserve : (daemonMachine setup).step ready (.serve true) =
      some (ready.serve .batteryLevel offReady id true) := by
    simp only [daemonMachine, step, hserving]
    rw [if_neg hroom]
  obtain ⟨hkept, hstays, houtbox⟩ := ready.serve_connection_of_open .batteryLevel offReady hclosed
  rw [hconnection] at hkept
  refine ⟨ready.serve .batteryLevel offReady id true, ?_, ⟨?_, hkept, hstays⟩, ?_, ?_, ?_⟩
  · rw [Machine.run, hread, Option.bind_some, Machine.run, hreceive, Option.bind_some, Machine.run,
      hserve, Option.bind_some, Machine.run]
  · rw [serve_pc, hclosed]
    simp
  · rw [serve_command]
    rfl
  · rw [serve_ud]
    simp [ready, Daemon.received]
  · have hbefore : ready.outbox id = d.outbox id := by rw [outbox, hconnection, outbox]
    rw [houtbox, hbefore]
    rfl

variable (setup) in
/-- The read loop on a stream that is there, read in any sizes. -/
theorem AtRead.run_handling (hat : d.AtRead offReady id stream) (sizes : List ReadSize)
    (hsizes : (sizes.map Subtype.val).sum ≤ stream.length) :
    ∃ last, (daemonMachine setup).run d (handling id sizes) = some last ∧
      last.AtRead offReady id (stream.drop (sizes.map Subtype.val).sum) ∧
      last.outbox id = d.outbox id ++ d.ud.repliesRead d.command stream sizes := by
  induction sizes generalizing d stream with
  | nil => exact ⟨d, rfl, by simpa using hat, by simp [UdServer.repliesRead]⟩
  | cons size rest ih =>
      rw [List.map_cons, List.sum_cons] at hsizes
      obtain ⟨next, hrun, hnext, hcommand, hud, houtbox⟩ :=
        hat.round setup size (by omega)
      obtain ⟨last, hrest, hlast, htail⟩ := ih hnext (by rw [List.length_drop]; omega)
      refine ⟨last, ?_, ?_, ?_⟩
      · rw [handling, List.flatMap_cons, Machine.run_append, hrun, Option.bind_some]
        exact hrest
      · rwa [List.drop_drop] at hlast
      · rw [htail, houtbox, hcommand, hud, List.append_assoc]
        rfl

end Daemon

/-! ## What the reads make of the commands -/

namespace UdServer

variable (ud : UdServer)

theorem reply_batteryLevel (command : CommandBuffer) : ud.reply command .batteryLevel =
    if command.bytes = intBytes rocpmdSendPowerLevelPercent then
      some (intBytes ud.batteryLevelPercent)
    else if command.bytes = intBytes rocpmdSendPowerLevelRaw then
      some (intBytes ud.batteryLevelRaw)
    else none := by
  simp only [reply, command.value_eq_iff (by decide : -2 ^ 31 ≤ rocpmdSendPowerLevelPercent)
    (by decide), command.value_eq_iff (by decide : -2 ^ 31 ≤ rocpmdSendPowerLevelRaw) (by decide)]

/-- A command that does not start with the low byte of either query is not answered. -/
theorem reply_of_head {command : CommandBuffer} (hhead : command.bytes.head? = some 0) :
    ud.reply command .batteryLevel = none := by
  have hne : ∀ n : Int, (intBytes n).head? ≠ some 0 → command.bytes ≠ intBytes n := by
    intro n hn heq
    rw [heq] at hhead
    exact hn hhead
  rw [reply_batteryLevel, if_neg (hne _ (by decide)), if_neg (hne _ (by decide))]

/-- The beginning of a query, in a variable that held none, is no query. -/
theorem reply_of_start {command : CommandBuffer} {n : Int}
    (hquery : n = rocpmdSendPowerLevelPercent ∨ n = rocpmdSendPowerLevelRaw) {size : ℕ}
    (hpos : 0 < size) (hshort : size < 4)
    (hbytes : command.bytes = (intBytes n).take size ++ CommandBuffer.init.bytes.drop size) :
    ud.reply command .batteryLevel = none := by
  have hne : ∀ m : Int, m = rocpmdSendPowerLevelPercent ∨ m = rocpmdSendPowerLevelRaw →
      (intBytes n).take size ++ CommandBuffer.init.bytes.drop size ≠ intBytes m := by
    obtain rfl | rfl | rfl : size = 1 ∨ size = 2 ∨ size = 3 := by omega
    all_goals
      rcases hquery with rfl | rfl <;> rintro _ (rfl | rfl) <;> decide
  rw [reply_batteryLevel, hbytes, if_neg (hne _ (.inl rfl)), if_neg (hne _ (.inr rfl))]

/-- What a read at the start of a command leaves in the variable. -/
theorem readCommand_bytes (buffer command : CommandBuffer) (rest : List UInt8) (size : ReadSize) :
    (readCommand buffer (command.bytes ++ rest) size).bytes =
      command.bytes.take size ++ buffer.bytes.drop size := by
  have hlength := command.length_eq
  have hsize := size.2.2
  rw [readCommand, CommandBuffer.fill_bytes, List.take_append_of_le_length (by omega),
    List.length_take_of_le (by omega)]

/-- A whole read replaces the command, whatever was there. -/
theorem readCommand_whole (buffer command : CommandBuffer) (rest : List UInt8) {size : ReadSize}
    (hwhole : size.val = 4) : readCommand buffer (command.bytes ++ rest) size = command := by
  have hbytes := readCommand_bytes buffer command rest size
  rw [hwhole, List.take_of_length_le command.length_eq.le,
    List.drop_of_length_le buffer.length_eq.le, List.append_nil] at hbytes
  exact CommandBuffer.ext hbytes

theorem commandStream_cons (command : CommandBuffer) (commands : List CommandBuffer) :
    commandStream (command :: commands) = command.bytes ++ commandStream commands :=
  List.flatMap_cons

theorem replies_cons (command : CommandBuffer) (commands : List CommandBuffer) :
    ud.replies (command :: commands) =
      (ud.reply command .batteryLevel).getD [] ++ ud.replies commands :=
  List.flatMap_cons

/-- A whole read takes the next command off the stream. -/
theorem repliesRead_cons_whole (buffer command : CommandBuffer) (commands : List CommandBuffer)
    {size : ReadSize} (hwhole : size.val = 4) (rest : List ReadSize) :
    ud.repliesRead buffer (commandStream (command :: commands)) (size :: rest) =
      (ud.reply command .batteryLevel).getD [] ++
        ud.repliesRead command (commandStream commands) rest := by
  have hdrop : (command.bytes ++ commandStream commands).drop size = commandStream commands := by
    rw [hwhole, ← command.length_eq, List.drop_left]
  rw [commandStream_cons, repliesRead, readCommand_whole _ _ _ hwhole, hdrop]

theorem repliesRead_of_whole (buffer : CommandBuffer) (commands : List CommandBuffer)
    (sizes : List ReadSize) (hsizes : (sizes.map Subtype.val).sum = 4 * commands.length)
    (hwhole : ∀ size ∈ sizes, size.val = 4) :
    ud.repliesRead buffer (commandStream commands) sizes = ud.replies commands := by
  induction sizes generalizing buffer commands with
  | nil =>
      have hnil : commands = [] := List.length_eq_zero_iff.mp (by simpa using hsizes.symm)
      rw [hnil]
      rfl
  | cons size rest ih =>
      have hsize := hwhole size List.mem_cons_self
      rw [List.map_cons, List.sum_cons, hsize] at hsizes
      cases commands with
      | nil => simp at hsizes
      | cons command commands =>
          rw [List.length_cons] at hsizes
          have htail := ih command commands (by omega)
            fun size hmem => hwhole size (List.mem_cons_of_mem _ hmem)
          rw [repliesRead_cons_whole _ _ _ _ hsize, htail, replies_cons]

/-- Zeros after a query are not taken for another one. -/
theorem repliesRead_zeros (command : CommandBuffer) (n : ℕ) (sizes : List ReadSize)
    (hsizes : (sizes.map Subtype.val).sum ≤ n) :
    ud.repliesRead command (List.replicate n 0) sizes = [] := by
  induction sizes generalizing command n with
  | nil => rfl
  | cons size rest ih =>
      rw [List.map_cons, List.sum_cons] at hsizes
      have hpos := size.2.1
      have hhead : (readCommand command (List.replicate n 0) size).bytes.head? = some 0 := by
        have hread : (List.replicate n (0 : UInt8)).take size =
            0 :: List.replicate (size - 1) 0 := by
          rw [List.take_replicate, Nat.min_eq_left (by omega), ← List.replicate_succ]
          congr
          omega
        rw [readCommand, CommandBuffer.fill_bytes, hread]
        rfl
      rw [repliesRead, ud.reply_of_head hhead, List.drop_replicate]
      exact ih _ _ (by omega)

/-- No bit set, the start of a percent query with another end, and the query itself. -/
def zeroCommand : CommandBuffer := ⟨[0, 0, 0, 0], rfl⟩
def nearPercentCommand : CommandBuffer := ⟨[2, 0, 0, 1], rfl⟩
def percentCommand : CommandBuffer := ⟨intBytes rocpmdSendPowerLevelPercent, rfl⟩

theorem commandStream_zeros (n : ℕ) :
    commandStream (List.replicate n zeroCommand) = List.replicate (4 * n) 0 := by
  induction n with
  | zero => rfl
  | succ n ih =>
      rw [List.replicate_succ, commandStream, List.flatMap_cons, ← commandStream, ih]
      rfl

theorem replies_zeros (n : ℕ) : ud.replies (List.replicate n zeroCommand) = [] := by
  induction n with
  | zero => rfl
  | succ n ih => rw [List.replicate_succ, replies_cons, ih, ud.reply_of_head rfl]; rfl

theorem reply_nearPercentCommand : ud.reply nearPercentCommand .batteryLevel = none := by
  rw [reply_batteryLevel, if_neg (by decide), if_neg (by decide)]

theorem reply_percentCommand :
    ud.reply percentCommand .batteryLevel = some (intBytes ud.batteryLevelPercent) := by
  rw [reply_batteryLevel]
  exact if_pos rfl

/-- The part of the near query that a short read delivers completes the query. -/
theorem readCommand_nearPercent (rest : List UInt8) {size : ReadSize} (hshort : size.val ≠ 4) :
    readCommand zeroCommand (nearPercentCommand.bytes ++ rest) size = percentCommand := by
  have hbytes := readCommand_bytes zeroCommand nearPercentCommand rest size
  have hquery : nearPercentCommand.bytes.take size ++ zeroCommand.bytes.drop size =
      percentCommand.bytes := by
    obtain ⟨n, hpos, hle⟩ := size
    dsimp only at hshort ⊢
    obtain rfl | rfl | rfl : n = 1 ∨ n = 2 ∨ n = 3 := by omega
    all_goals decide
  exact CommandBuffer.ext (hbytes.trans hquery)

/-- A short read after whole ones can see a query that is not there. -/
theorem exists_spurious_reply (sizes : List ReadSize) (n : ℕ)
    (hsizes : (sizes.map Subtype.val).sum = 4 * n) (hshort : ∃ size ∈ sizes, size.val ≠ 4) :
    ∃ commands, commands.length = n ∧ ud.replies commands = [] ∧
      ud.repliesRead zeroCommand (commandStream commands) sizes ≠ [] := by
  induction sizes generalizing n with
  | nil => simp at hshort
  | cons size rest ih =>
      rw [List.map_cons, List.sum_cons] at hsizes
      have hpos := size.2.1
      obtain ⟨n, rfl⟩ := Nat.exists_eq_succ_of_ne_zero (by omega : n ≠ 0)
      by_cases hwhole : size.val = 4
      · have hrest : ∃ size ∈ rest, size.val ≠ 4 := by
          simpa [hwhole] using hshort
        obtain ⟨commands, hlength, hnone, hsome⟩ := ih n (by omega) hrest
        refine ⟨zeroCommand :: commands, by simp [hlength], ?_, ?_⟩
        · rw [replies_cons, ud.reply_of_head rfl, hnone]
          rfl
        · rwa [repliesRead_cons_whole _ _ _ _ hwhole, ud.reply_of_head rfl]
      · refine ⟨nearPercentCommand :: List.replicate n zeroCommand, by simp, ?_, ?_⟩
        · rw [replies_cons, reply_nearPercentCommand, replies_zeros]
          rfl
        · rw [commandStream_cons, repliesRead, readCommand_nearPercent _ hwhole,
            reply_percentCommand]
          simp [intBytes]

/-- The part of a query that a short first read delivers is no query. -/
theorem reply_of_short {size : ReadSize} (hshort : size.val ≠ 4) (rest : List UInt8) :
    ud.reply (readCommand .init (percentCommand.bytes ++ rest) size) .batteryLevel = none := by
  have hfew : size.val < 4 := lt_of_le_of_ne size.2.2 hshort
  exact ud.reply_of_start (.inl rfl) size.2.1 hfew
    (readCommand_bytes .init percentCommand rest size)

/-- A short first read loses the query. -/
theorem repliesRead_of_short {size : ReadSize} (hshort : size.val ≠ 4) (rest : List ReadSize)
    (n : ℕ) (hsizes : ((size :: rest).map Subtype.val).sum = 4 * (n + 1)) :
    ud.repliesRead .init (commandStream (percentCommand :: List.replicate n zeroCommand))
      (size :: rest) = [] := by
  have hzeros : (percentCommand.bytes ++ List.replicate (4 * n) 0).drop size =
      List.replicate (4 * (n + 1) - size) 0 := by
    have hstream : percentCommand.bytes ++ List.replicate (4 * n) 0 =
        2 :: List.replicate (3 + 4 * n) 0 := by
      rw [← List.replicate_append_replicate]
      rfl
    obtain ⟨k, hk⟩ := Nat.exists_eq_succ_of_ne_zero size.2.1.ne'
    rw [hstream, hk, List.drop_succ_cons, List.drop_replicate,
      show 3 + 4 * n - k = 4 * (n + 1) - k.succ by omega]
  rw [List.map_cons, List.sum_cons] at hsizes
  rw [commandStream_cons, commandStream_zeros, repliesRead, ud.reply_of_short hshort, hzeros]
  exact ud.repliesRead_zeros _ _ rest (by omega)

/-- Reads that are not all whole get some sequence of commands wrong. -/
theorem exists_wrong_replies (sizes : List ReadSize) (n : ℕ)
    (hsizes : (sizes.map Subtype.val).sum = 4 * n) (hshort : ∃ size ∈ sizes, size.val ≠ 4) :
    ∃ commands, commands.length = n ∧
      ud.repliesRead .init (commandStream commands) sizes ≠ ud.replies commands := by
  cases sizes with
  | nil => simp at hshort
  | cons size rest =>
      rw [List.map_cons, List.sum_cons] at hsizes
      have hpos := size.2.1
      obtain ⟨n, rfl⟩ := Nat.exists_eq_succ_of_ne_zero (by omega : n ≠ 0)
      by_cases hwhole : size.val = 4
      · have hrest : ∃ size ∈ rest, size.val ≠ 4 := by
          simpa [hwhole] using hshort
        obtain ⟨commands, hlength, hnone, hsome⟩ :=
          ud.exists_spurious_reply rest n (by omega) hrest
        refine ⟨zeroCommand :: commands, by simp [hlength], ?_⟩
        rwa [repliesRead_cons_whole _ _ _ _ hwhole, replies_cons, ud.reply_of_head rfl, hnone]
      · refine ⟨percentCommand :: List.replicate n zeroCommand, by simp, ?_⟩
        rw [ud.repliesRead_of_short hwhole rest n (by simpa using hsizes), replies_cons,
          reply_percentCommand, replies_zeros]
        simp [intBytes]

end UdServer

/-! ## Fragmentation -/

/-- The commands are sent on a new connection and read in the sizes. -/
theorem Daemon.run_commands (setup : Setup W) (d : Daemon W) (offReady : Bool) {id : ℕ} (fd : ℕ)
    (hid : id < d.net.nextConnection) (hnew : d.net.connections id = ⟨[], [], 0, false⟩)
    (sizes : List ReadSize) (commands : List CommandBuffer)
    (hsizes : (sizes.map Subtype.val).sum = 4 * commands.length) :
    ∃ last, (daemonMachine setup).run (d.accepted .batteryLevel offReady id fd)
        (.send id (commandStream commands) :: handling id sizes) = some last ∧
      last.outbox id = d.ud.repliesRead .init (commandStream commands) sizes := by
  generalize hstream : commandStream commands = stream
  have hlength : stream.length = 4 * commands.length := by
    rw [← hstream, length_commandStream]
  let sent : Daemon W :=
    { d.accepted .batteryLevel offReady id fd with
      net := (d.net.dequeue .batteryLevel).modify id fun connection =>
        { connection with inbox := connection.inbox ++ stream } }
  have hsend : (daemonMachine setup).step (d.accepted .batteryLevel offReady id fd)
      (.send id stream) = some sent := by
    simp [daemonMachine, step, Network.send, accepted, Network.dequeue, hid, hnew, sent]
  have hconnection : sent.net.connections id = ⟨stream, [], 0, false⟩ := by
    simp [sent, Network.modify, Network.dequeue, hnew]
  have hat : sent.AtRead offReady id stream := ⟨rfl, by rw [hconnection], by rw [hconnection]⟩
  obtain ⟨last, hrun, -, houtbox⟩ := hat.run_handling setup sizes (by omega)
  refine ⟨last, ?_, ?_⟩
  · rw [Machine.run, hsend]
    exact hrun
  · rw [houtbox, outbox, hconnection]
    rfl

/-- **When the framing does not depend on the fragmentation.** For reads of given sizes that deliver
`n` commands on a new connection, the handler answers every sequence of `n` commands with the
replies its queries call for, and with nothing else, exactly when every read delivers a command. -/
theorem replies_iff_whole_reads (setup : Setup W) (d : Daemon W) (offReady : Bool) {id : ℕ} (fd : ℕ)
    (hid : id < d.net.nextConnection) (hnew : d.net.connections id = ⟨[], [], 0, false⟩)
    (sizes : List ReadSize) (n : ℕ) (hsizes : (sizes.map Subtype.val).sum = 4 * n) :
    (∀ commands : List CommandBuffer, commands.length = n →
      ∃ last ∈ (daemonMachine setup).run (d.accepted .batteryLevel offReady id fd)
          (.send id (commandStream commands) :: handling id sizes),
        last.outbox id = d.ud.replies commands) ↔
      ∀ size ∈ sizes, size.val = 4 := by
  have hrun : ∀ commands : List CommandBuffer, commands.length = n → _ := fun commands hlength =>
    d.run_commands setup offReady fd hid hnew sizes commands (hlength ▸ hsizes)
  constructor
  · intro hall
    by_contra hnot
    push Not at hnot
    obtain ⟨commands, hlength, hwrong⟩ := d.ud.exists_wrong_replies sizes n hsizes hnot
    obtain ⟨last, hlast, houtbox⟩ := hall commands hlength
    obtain ⟨other, hother, hread⟩ := hrun commands hlength
    obtain rfl : last = other := Option.some.inj (Option.mem_def.mp hlast ▸ hother)
    exact hwrong (hread.symm.trans houtbox)
  · intro hwhole commands hlength
    obtain ⟨last, hlast, houtbox⟩ := hrun commands hlength
    exact ⟨last, hlast, houtbox.trans
      (d.ud.repliesRead_of_whole _ _ _ (hlength ▸ hsizes) hwhole)⟩

/-- Two commands on the first connection of a daemon, each read as a whole. -/
theorem replies_iff_whole_reads_shipped :
    (∀ commands : List CommandBuffer, commands.length = 2 →
      ∃ last ∈ (daemonMachine ⟨.allHigh, .shipped, .usual⟩).run
          ((Daemon.start ⟨.allHigh, .shipped, .usual⟩ () ⟨0, 0⟩ none (.connect .empty .batteryLevel)
            {}).accepted .batteryLevel false 0 0)
          (.send 0 (commandStream commands) :: handling 0 [⟨4, by decide⟩, ⟨4, by decide⟩]),
        last.outbox 0 = (Daemon.start ⟨.allHigh, .shipped, .usual⟩ () ⟨0, 0⟩ none
          (.connect .empty .batteryLevel) {}).ud.replies commands) ↔
      ∀ size ∈ ([⟨4, by decide⟩, ⟨4, by decide⟩] : List ReadSize), size.val = 4 :=
  replies_iff_whole_reads _ _ false 0 (by decide) rfl _ 2 rfl

/-- A query that arrives in two halves is not answered. A client that sends a command starting like
a query, after one that left zeros behind, gets a reply to the query it did not send. -/
theorem split_commands_misread :
    (∃ last ∈ (daemonMachine ⟨.allHigh, .shipped, .usual⟩).run
        (Daemon.start ⟨.allHigh, .shipped, .usual⟩ () ⟨0, 0⟩ none .empty {})
        ([.connect .batteryLevel, .iterate ⟨1, 0⟩ "" 4096, .select true, .accept true,
          .send 0 (commandStream [UdServer.percentCommand])] ++
          handling 0 [⟨2, by decide⟩, ⟨2, by decide⟩]),
      last.outbox 0 = [] ∧ last.ud.replies [UdServer.percentCommand] = [100, 0, 0, 0]) ∧
    ∃ last ∈ (daemonMachine ⟨.allHigh, .shipped, .usual⟩).run
        (Daemon.start ⟨.allHigh, .shipped, .usual⟩ () ⟨0, 0⟩ none .empty {})
        ([.connect .batteryLevel, .iterate ⟨1, 0⟩ "" 4096, .select true, .accept true,
          .send 0 (commandStream [UdServer.zeroCommand, UdServer.nearPercentCommand])] ++
          handling 0 [⟨4, by decide⟩, ⟨3, by decide⟩, ⟨1, by decide⟩]),
      last.outbox 0 = [100, 0, 0, 0] ∧
        last.ud.replies [UdServer.zeroCommand, UdServer.nearPercentCommand] = [] := by
  decide +kernel

end Rocpmd

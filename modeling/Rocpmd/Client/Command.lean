import Rocpmd.Daemon.ServedLevels

/-!
# Sending a command

`ud_client_send_command` fills an uninitialised variable with whatever one `read` returns. It looks
at the number of bytes only to see whether the call failed.
-/

namespace Rocpmd

/-! ## Commands and replies -/

inductive Command
  | sendOff | sendPowerLevelPercent | sendPowerLevelRaw
deriving DecidableEq, Repr

namespace Command

def code : Command → Int
  | sendOff => rocpmdSendOff
  | sendPowerLevelPercent => rocpmdSendPowerLevelPercent
  | sendPowerLevelRaw => rocpmdSendPowerLevelRaw

/-- The socket whose path the client connects to. -/
def listener : Command → Listener
  | sendOff => .off
  | sendPowerLevelPercent | sendPowerLevelRaw => .batteryLevel

/-- The command as the server reads it. -/
def buffer (command : Command) : CommandBuffer := ⟨intBytes command.code, rfl⟩

end Command

/-- The number the server answers with: the flag it has just set, or one of its levels. -/
def UdServer.replyValue (ud : UdServer) : Command → Int
  | .sendOff => 1
  | .sendPowerLevelPercent => ud.batteryLevelPercent
  | .sendPowerLevelRaw => ud.batteryLevelRaw

/-- The bytes the server answers with: a `bool` on the one socket, an `int` on the other. -/
def UdServer.replyBytes (ud : UdServer) : Command → List UInt8
  | .sendOff => [1]
  | .sendPowerLevelPercent => intBytes ud.batteryLevelPercent
  | .sendPowerLevelRaw => intBytes ud.batteryLevelRaw

/-- They are what the daemon writes once it has the command in its variable. -/
theorem Daemon.reply_of_command {W : Type} (d : Daemon W) (command : Command)
    (hcommand : d.command = command.buffer) :
    d.reply command.listener = some (d.ud.replyBytes command) := by
  rw [reply_eq, hcommand]
  cases command with
  | sendOff => rfl
  | sendPowerLevelPercent =>
      rw [Command.listener, UdServer.reply_batteryLevel]
      exact if_pos rfl
  | sendPowerLevelRaw =>
      rw [Command.listener, UdServer.reply_batteryLevel]
      exact (if_neg (by decide)).trans (if_pos rfl)

/-! ## The client -/

/-- What the system calls of the client come to. A `write` on a connection whose peer is gone raises
SIGPIPE; `writeFailed` is one that returned an error. The `read` at the end returns up to four
bytes, and none if the connection was closed before a reply. -/
inductive Exchange
  | socketFailed
  | connectFailed
  | brokenPipe
  | writeFailed
  | readFailed
  | received (bytes : List UInt8) (hshort : bytes.length ≤ 4)
deriving DecidableEq, Repr

/-- `ud_client_send_command`, where `powerLevel` is the local variable as the stack left it. It does
not return if SIGPIPE terminates the client, for which `main` installs nothing. -/
def udClientSendCommand (command : Int) (powerLevel : CommandBuffer) (exchange : Exchange) :
    Option Int :=
  if command ≠ rocpmdSendOff ∧ command ≠ rocpmdSendPowerLevelPercent ∧
      command ≠ rocpmdSendPowerLevelRaw then some rocpmdCommError
  else
    match exchange with
    | .brokenPipe =>
        if dispositionAfter mainSignals .pipe = .terminate then none else some rocpmdCommError
    | .socketFailed | .connectFailed | .writeFailed | .readFailed => some rocpmdCommError
    | .received bytes hshort => some (powerLevel.fill bytes hshort).value

namespace Exchange

/-- Only bytes of the reply can arrive, in order. -/
def Delivers (reply : List UInt8) : Exchange → Prop
  | received bytes _ => bytes <+: reply
  | _ => True

/-- A system call returned an error, or the variable was filled. -/
def FailsOrFills : Exchange → Prop
  | received bytes _ => bytes.length = 4
  | brokenPipe => False
  | _ => True

/-- The value of the reply if all of it arrived, and an error otherwise. -/
def result (reply : List UInt8) (value : Int) : Exchange → Int
  | received bytes _ => if bytes = reply then value else rocpmdCommError
  | _ => rocpmdCommError

end Exchange

/-- A legal command gets to the exchange. -/
theorem udClientSendCommand_code (command : Command) (powerLevel : CommandBuffer)
    (exchange : Exchange) : udClientSendCommand command.code powerLevel exchange =
      match exchange with
      | .brokenPipe => none
      | .socketFailed | .connectFailed | .writeFailed | .readFailed => some rocpmdCommError
      | .received bytes hshort => some (powerLevel.fill bytes hshort).value := by
  unfold udClientSendCommand
  rw [if_neg (by cases command <;> decide)]
  cases exchange <;> rfl

/-! ## The round trip -/

/-- The range of an `int`. -/
def IsInt (n : Int) : Prop := -2 ^ 31 ≤ n ∧ n < 2 ^ 31

instance (n : Int) : Decidable (IsInt n) := inferInstanceAs (Decidable (_ ∧ _))

namespace CommandBuffer

/-- A read of four bytes leaves nothing of the variable. -/
theorem fill_whole (buffer : CommandBuffer) {bytes : List UInt8} (hshort : bytes.length ≤ 4)
    (hwhole : bytes.length = 4) : (buffer.fill bytes hshort).bytes = bytes := by
  rw [fill_bytes, hwhole, List.drop_of_length_le buffer.length_eq.le, List.append_nil]

/-- After a shorter read the variable can be anything but one given number. -/
theorem exists_fill_ne {bytes : List UInt8} (hshort : bytes.length ≤ 4) (hfew : bytes.length ≠ 4)
    {n : Int} (hn : IsInt n) : ∃ buffer : CommandBuffer, (buffer.fill bytes hshort).value ≠ n := by
  let top : UInt8 := .ofNat ((n % 2 ^ 32).toNat / 2 ^ 24)
  refine ⟨⟨List.replicate 4 (top + 1), rfl⟩, fun hvalue => ?_⟩
  rw [value_eq_iff _ hn.1 hn.2, fill_bytes, List.drop_replicate] at hvalue
  -- the highest byte is the one of the memory, not the one of `n`
  have hlast := congrArg List.getLast? hvalue
  obtain ⟨k, hk⟩ := Nat.exists_eq_succ_of_ne_zero (by omega : 4 - bytes.length ≠ 0)
  rw [hk, List.replicate_succ', ← List.append_assoc, List.getLast?_concat] at hlast
  have htop : top + 1 = top := Option.some.inj hlast
  simp at htop

/-- The sign is in the highest byte. -/
theorem value_neg_iff (buffer : CommandBuffer) :
    buffer.value < 0 ↔ ∃ top, buffer.bytes.getLast? = some top ∧ 2 ^ 7 ≤ top.toNat := by
  obtain ⟨a, b, c, d, hbytes⟩ := buffer.exists_bytes
  have ha := a.toNat_lt
  have hb := b.toNat_lt
  have hc := c.toNat_lt
  have hd := d.toNat_lt
  unfold value
  rw [hbytes, Int.bmod_def]
  simp only [List.foldr_cons, List.foldr_nil, List.getLast?_cons_cons, List.getLast?_singleton,
    Option.some.injEq, exists_eq_left']
  split_ifs <;> omega

/-- A read of fewer than four bytes leaves the sign of the variable. -/
theorem fill_value_neg_iff (buffer : CommandBuffer) {bytes : List UInt8}
    (hshort : bytes.length ≤ 4) (hfew : bytes.length ≠ 4) :
    (buffer.fill bytes hshort).value < 0 ↔ buffer.value < 0 := by
  have hlast : (buffer.fill bytes hshort).bytes.getLast? = buffer.bytes.getLast? := by
    have hdrop : buffer.bytes.drop bytes.length ≠ [] := by
      rw [← List.length_pos_iff, List.length_drop, buffer.length_eq]
      omega
    rw [fill_bytes, List.getLast?_append_of_ne_nil _ hdrop, List.getLast?_drop,
      if_neg (by rw [buffer.length_eq]; omega)]
  rw [value_neg_iff, value_neg_iff, hlast]

end CommandBuffer

theorem length_replyBytes (ud : UdServer) (command : Command) :
    (ud.replyBytes command).length = if command = .sendOff then 1 else 4 := by
  cases command <;> rfl

theorem isInt_replyValue {ud : UdServer} (hpercent : IsInt ud.batteryLevelPercent)
    (hraw : IsInt ud.batteryLevelRaw) (command : Command) : IsInt (ud.replyValue command) := by
  cases command with
  | sendOff => exact (by decide : IsInt 1)
  | sendPowerLevelPercent => exact hpercent
  | sendPowerLevelRaw => exact hraw

/-- Four bytes of a reply are all of it, and the number the server answered with. -/
theorem fill_reply {ud : UdServer} (hpercent : IsInt ud.batteryLevelPercent)
    (hraw : IsInt ud.batteryLevelRaw) {command : Command} {bytes : List UInt8}
    (hshort : bytes.length ≤ 4) (hpart : bytes <+: ud.replyBytes command)
    (hwhole : bytes.length = 4) : bytes = ud.replyBytes command ∧
      ∀ powerLevel : CommandBuffer,
        (powerLevel.fill bytes hshort).value = ud.replyValue command := by
  have hlength := hpart.length_le
  rw [length_replyBytes] at hlength
  have hoff : command ≠ .sendOff := by
    rintro rfl
    simp only [if_true] at hlength
    omega
  have hbytes : bytes = ud.replyBytes command :=
    hpart.eq_of_length (by rw [length_replyBytes, if_neg hoff, hwhole])
  refine ⟨hbytes, fun powerLevel => ?_⟩
  have hint := isInt_replyValue hpercent hraw command
  rw [CommandBuffer.value_eq_iff _ hint.1 hint.2, CommandBuffer.fill_whole _ _ hwhole, hbytes]
  cases command
  · exact absurd rfl hoff
  · rfl
  · rfl

/-- **When the client returns what the server wrote.** Whatever the client's variable held, it
returns the value of a reply that arrived and an error otherwise, exactly when a system call
returned an error or four bytes arrived. The reply to OFF has only one, and a server that is gone
when the command is written takes the client with it. -/
theorem udClientSendCommand_result_iff (ud : UdServer) (hpercent : IsInt ud.batteryLevelPercent)
    (hraw : IsInt ud.batteryLevelRaw) (command : Command) (exchange : Exchange)
    (hdelivers : exchange.Delivers (ud.replyBytes command)) :
    (∀ powerLevel, udClientSendCommand command.code powerLevel exchange =
        some (exchange.result (ud.replyBytes command) (ud.replyValue command))) ↔
      exchange.FailsOrFills := by
  simp only [udClientSendCommand_code]
  cases exchange with
  | brokenPipe => exact iff_of_false (fun hall => by cases hall .init) not_false
  | socketFailed | connectFailed | writeFailed | readFailed =>
      exact iff_of_true (fun _ => rfl) trivial
  | received bytes hshort =>
      by_cases hwhole : bytes.length = 4
      · obtain ⟨hbytes, hvalue⟩ := fill_reply hpercent hraw hshort hdelivers hwhole
        refine iff_of_true (fun powerLevel => ?_) hwhole
        rw [Exchange.result, if_pos hbytes]
        exact congrArg some (hvalue powerLevel)
      · refine iff_of_false (fun hall => ?_) hwhole
        have hint : IsInt (Exchange.result (ud.replyBytes command) (ud.replyValue command)
            (.received bytes hshort)) := by
          rw [Exchange.result]
          split
          next => exact isInt_replyValue hpercent hraw command
          next => exact ⟨by decide, by decide⟩
        obtain ⟨powerLevel, hne⟩ := CommandBuffer.exists_fill_ne hshort hwhole hint
        exact hne (Option.some.inj (hall powerLevel))

/-- A client that asks for the percentage and receives all of it. -/
theorem udClientSendCommand_result_percent :
    (∀ powerLevel, udClientSendCommand (Command.code .sendPowerLevelPercent) powerLevel
        (.received [84, 0, 0, 0] (by decide)) =
      some ((Exchange.received [84, 0, 0, 0] (by decide)).result
        (UdServer.replyBytes ⟨false, 84, 8⟩ .sendPowerLevelPercent)
        (UdServer.replyValue ⟨false, 84, 8⟩ .sendPowerLevelPercent))) ↔
      (Exchange.received [84, 0, 0, 0] (by decide)).FailsOrFills :=
  udClientSendCommand_result_iff ⟨false, 84, 8⟩ ⟨by decide, by decide⟩ ⟨by decide, by decide⟩
    .sendPowerLevelPercent (.received [84, 0, 0, 0] (by decide)) (List.prefix_refl _)

/-- The answer to OFF, and the end of the stream in place of an answer to a query, both come out as
whatever the memory of the client makes of them; and a client that writes to a daemon that is gone
does not get to report it. -/
theorem udClientSendCommand_reads_memory :
    udClientSendCommand rocpmdSendOff ⟨[9, 9, 9, 9], rfl⟩ (.received [1] (by decide)) =
        some 151587073 ∧
      (Exchange.received [1] (by decide)).result (UdServer.replyBytes ⟨false, 84, 8⟩ .sendOff)
        (UdServer.replyValue ⟨false, 84, 8⟩ .sendOff) = 1 ∧
      udClientSendCommand rocpmdSendPowerLevelPercent ⟨[50, 0, 0, 0], rfl⟩
        (.received [] (by decide)) = some 50 ∧
      (Exchange.received [] (by decide)).result
        (UdServer.replyBytes ⟨false, 84, 8⟩ .sendPowerLevelPercent)
        (UdServer.replyValue ⟨false, 84, 8⟩ .sendPowerLevelPercent) = rocpmdCommError ∧
      udClientSendCommand rocpmdSendPowerLevelPercent ⟨[50, 0, 0, 0], rfl⟩ .brokenPipe = none ∧
      Exchange.result (UdServer.replyBytes ⟨false, 84, 8⟩ .sendPowerLevelPercent)
        (UdServer.replyValue ⟨false, 84, 8⟩ .sendPowerLevelPercent) .brokenPipe =
          rocpmdCommError := by
  decide +kernel

end Rocpmd

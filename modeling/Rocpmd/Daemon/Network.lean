import Mathlib.Algebra.GroupWithZero.Nat
import Mathlib.Algebra.Ring.Int.Defs
import Mathlib.Data.List.Basic
import Mathlib.Logic.Function.Basic
import Mathlib.Tactic.Common

/-!
# The two sockets of the daemon

The daemon listens on one socket for OFF commands and on another for battery level queries. Clients
of either may connect, send any bytes and close at any time. A connection the daemon has not yet
accepted waits in the backlog of its socket, also after its client has closed it.
-/

namespace Rocpmd

/-! ## Commands -/

def rocpmdCommError : Int := -2
def rocpmdSendOff : Int := 1
def rocpmdSendPowerLevelPercent : Int := 2
def rocpmdSendPowerLevelRaw : Int := 3

/-- The four bytes an `int` has in memory, lowest first. -/
def intBytes (n : Int) : List UInt8 :=
  let bits := (n % 2 ^ 32).toNat
  [.ofNat bits, .ofNat (bits / 2 ^ 8), .ofNat (bits / 2 ^ 16), .ofNat (bits / 2 ^ 24)]

/-- The local variable a `read` of a command fills: four bytes, of which a short read replaces the
first ones only. -/
@[ext]
structure CommandBuffer where
  bytes : List UInt8
  length_eq : bytes.length = 4

namespace CommandBuffer

/-- `int command = -1;` -/
def init : CommandBuffer := ⟨intBytes (-1), rfl⟩

/-- What a read of at most four bytes leaves in the variable. -/
def fill (buffer : CommandBuffer) (received : List UInt8) (hshort : received.length ≤ 4) :
    CommandBuffer :=
  ⟨received ++ buffer.bytes.drop received.length, by
    have := buffer.length_eq
    simp only [List.length_append, List.length_drop]
    omega⟩

/-- The variable as an `int`. -/
def value (buffer : CommandBuffer) : Int :=
  Int.bmod (buffer.bytes.foldr (fun byte rest => byte.toNat + 2 ^ 8 * rest) 0 : ℕ) (2 ^ 32)

@[simp] theorem fill_bytes (buffer : CommandBuffer) (received : List UInt8)
    (hshort : received.length ≤ 4) :
    (buffer.fill received hshort).bytes = received ++ buffer.bytes.drop received.length := rfl

theorem exists_bytes (buffer : CommandBuffer) : ∃ a b c d, buffer.bytes = [a, b, c, d] := by
  obtain ⟨bytes, hlength⟩ := buffer
  match bytes, hlength with
  | [a, b, c, d], _ => exact ⟨a, b, c, d, rfl⟩

/-- The variable holds an `int` exactly when its bytes are those of the `int`. -/
theorem value_eq_iff (buffer : CommandBuffer) {n : Int} (hlow : -2 ^ 31 ≤ n) (hhigh : n < 2 ^ 31) :
    buffer.value = n ↔ buffer.bytes = intBytes n := by
  obtain ⟨a, b, c, d, hbytes⟩ := buffer.exists_bytes
  have ha := a.toNat_lt
  have hb := b.toNat_lt
  have hc := c.toNat_lt
  have hd := d.toNat_lt
  unfold value intBytes
  rw [hbytes]
  simp only [List.foldr_cons, List.foldr_nil, List.cons.injEq, ← UInt8.toNat_inj,
    UInt8.toNat_ofNat', and_true]
  rw [Int.bmod_def]
  split <;> omega

end CommandBuffer

/-! ## Connections -/

inductive Listener
  | off | batteryLevel
deriving DecidableEq, Repr

structure Connection where
  /-- Sent by the client and not yet read. -/
  inbox : List UInt8
  /-- Written by the daemon. -/
  outbox : List UInt8
  /-- How many of the writes the client has yet to receive. -/
  unreceived : ℕ
  peerClosed : Bool

/-- There is something to read: bytes, or the end of the stream. -/
def Connection.Readable (connection : Connection) : Prop :=
  connection.inbox ≠ [] ∨ connection.peerClosed = true

structure Network where
  connections : ℕ → Connection
  nextConnection : ℕ
  backlog : Listener → List ℕ
  backlog_lt : ∀ listener, ∀ id ∈ backlog listener, id < nextConnection

namespace Network

def empty : Network where
  connections := fun _ => ⟨[], [], 0, false⟩
  nextConnection := 0
  backlog := fun _ => []
  backlog_lt := by simp

/-- Change one connection. -/
def modify (net : Network) (id : ℕ) (change : Connection → Connection) : Network :=
  { net with connections := Function.update net.connections id (change (net.connections id)) }

/-! ### What clients do -/

def connect (net : Network) (listener : Listener) : Network where
  connections := Function.update net.connections net.nextConnection ⟨[], [], 0, false⟩
  nextConnection := net.nextConnection + 1
  backlog := Function.update net.backlog listener (net.backlog listener ++ [net.nextConnection])
  backlog_lt := by
    intro other id hid
    rcases eq_or_ne other listener with rfl | hne
    · rw [Function.update_self, List.mem_append, List.mem_singleton] at hid
      rcases hid with hid | rfl
      · exact Nat.lt_succ_of_lt (net.backlog_lt other id hid)
      · exact Nat.lt_succ_self _
    · rw [Function.update_of_ne hne] at hid
      exact Nat.lt_succ_of_lt (net.backlog_lt other id hid)

/-- A client sends bytes unless it has closed its end. -/
def send (net : Network) (id : ℕ) (bytes : List UInt8) : Option Network :=
  if id < net.nextConnection ∧ (net.connections id).peerClosed = false then
    some (net.modify id fun connection =>
      { connection with inbox := connection.inbox ++ bytes })
  else none

def close (net : Network) (id : ℕ) : Network :=
  net.modify id fun connection => { connection with peerClosed := true }

/-- A client receives what was written to it, up to the last `left` writes. -/
def receive (net : Network) (id left : ℕ) : Network :=
  net.modify id fun connection => { connection with unreceived := min left connection.unreceived }

/-! ### What the daemon does -/

def dequeue (net : Network) (listener : Listener) : Network :=
  { net with
    backlog := Function.update net.backlog listener (net.backlog listener).tail
    backlog_lt := by
      intro other id hid
      rcases eq_or_ne other listener with rfl | hne
      · rw [Function.update_self] at hid
        exact net.backlog_lt other id (List.mem_of_mem_tail hid)
      · rw [Function.update_of_ne hne] at hid
        exact net.backlog_lt other id hid }

def consume (net : Network) (id n : ℕ) : Network :=
  net.modify id fun connection => { connection with inbox := connection.inbox.drop n }

def deliver (net : Network) (id : ℕ) (bytes : List UInt8) : Network :=
  net.modify id fun connection =>
    { connection with
      outbox := connection.outbox ++ bytes
      unreceived := connection.unreceived + 1 }

end Network

end Rocpmd

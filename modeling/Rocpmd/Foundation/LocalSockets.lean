import Mathlib.Logic.Function.Basic
import Mathlib.Tactic.Common

/-!
# Named local sockets

Stream sockets bound to names of a file system. A name leads to the socket that was bound to it,
also when its owner has closed it, until someone removes the name; removing it does nothing to the
socket. A socket that listens queues the connections its owner has not yet accepted, up to a limit.
-/

namespace Foundation

/-- What becomes of a call of `connect`: it blocks while the queue of the socket is full. -/
inductive Connecting (Owner : Type*)
  | refused
  | blocked (owner : Owner) (id : ℕ)
  | connected (owner : Owner) (id : ℕ)
deriving DecidableEq, Repr

structure LocalSockets (Name Owner : Type*) where
  name : Name → Option ℕ
  nextSocket : ℕ
  /-- The owner of a socket, until it is closed. -/
  owner : ℕ → Option Owner
  bound : ℕ → Bool
  listening : ℕ → Bool
  /-- Connections that have not been accepted. -/
  waiting : ℕ → ℕ
  /-- The second argument of `listen`. -/
  backlog : ℕ → ℕ
  name_lt : ∀ path id, name path = some id → id < nextSocket
  fresh_unowned : ∀ id, nextSocket ≤ id → owner id = none

namespace LocalSockets

variable {Name Owner : Type*}

/-- No socket exists, and no name. -/
def empty : LocalSockets Name Owner where
  name := fun _ => none
  nextSocket := 0
  owner := fun _ => none
  bound := fun _ => false
  listening := fun _ => false
  waiting := fun _ => 0
  backlog := fun _ => 0
  name_lt := nofun
  fresh_unowned := fun _ _ => rfl

/-- `socket`: one that has no name and does not listen. -/
def socket (sockets : LocalSockets Name Owner) (owner : Owner) : ℕ × LocalSockets Name Owner :=
  (sockets.nextSocket,
    { sockets with
      nextSocket := sockets.nextSocket + 1
      owner := Function.update sockets.owner sockets.nextSocket (some owner)
      bound := Function.update sockets.bound sockets.nextSocket false
      listening := Function.update sockets.listening sockets.nextSocket false
      waiting := Function.update sockets.waiting sockets.nextSocket 0
      name_lt := fun path id hname => Nat.lt_succ_of_lt (sockets.name_lt path id hname)
      fresh_unowned := by
        intro id hle
        rw [Function.update_of_ne (by omega)]
        exact sockets.fresh_unowned id (by omega) })

def listen (sockets : LocalSockets Name Owner) (id backlog : ℕ) : LocalSockets Name Owner :=
  { sockets with
    listening := Function.update sockets.listening id true
    backlog := Function.update sockets.backlog id backlog }

/-- The open socket that listens under a name. -/
def listener (sockets : LocalSockets Name Owner) (path : Name) : Option (Owner × ℕ) :=
  (sockets.name path).bind fun id =>
    if sockets.listening id then (sockets.owner id).map fun owner => (owner, id) else none

/-- `connect`: refused unless a socket listens under the name. One connection more than the backlog
is let in. -/
def connect (sockets : LocalSockets Name Owner) (path : Name) : Connecting Owner :=
  match sockets.listener path with
  | none => .refused
  | some (owner, id) =>
      if sockets.waiting id ≤ sockets.backlog id then .connected owner id else .blocked owner id

/-- A connection joins the queue of a socket. -/
def enqueue (sockets : LocalSockets Name Owner) (id : ℕ) : LocalSockets Name Owner :=
  { sockets with waiting := Function.update sockets.waiting id (sockets.waiting id + 1) }

/-- `accept`, which blocks while no connection waits. -/
def accept (sockets : LocalSockets Name Owner) (id : ℕ) : Option (LocalSockets Name Owner) :=
  if 0 < sockets.waiting id then
    some { sockets with waiting := Function.update sockets.waiting id (sockets.waiting id - 1) }
  else none

/-- The end of a process: the kernel closes its sockets, and leaves the names. -/
def closeAll [DecidableEq Owner] (sockets : LocalSockets Name Owner) (owner : Owner) :
    LocalSockets Name Owner :=
  { sockets with
    owner := fun id => if sockets.owner id = some owner then none else sockets.owner id
    fresh_unowned := by
      intro id hle
      rw [sockets.fresh_unowned id hle]
      simp }

section Names

variable [DecidableEq Name]

def unlink (sockets : LocalSockets Name Owner) (path : Name) : LocalSockets Name Owner :=
  { sockets with
    name := Function.update sockets.name path none
    name_lt := by
      intro other id hname
      rcases eq_or_ne other path with rfl | hne
      · simp at hname
      · rw [Function.update_of_ne hne] at hname
        exact sockets.name_lt other id hname }

/-- `bind`: refused if the name is taken or the socket has one. A descriptor only refers to a socket
that exists, so the bound turns no real request away. -/
def bind (sockets : LocalSockets Name Owner) (id : ℕ) (path : Name) :
    Option (LocalSockets Name Owner) :=
  if hfree : sockets.name path = none ∧ sockets.bound id = false ∧ id < sockets.nextSocket then
    some { sockets with
      name := Function.update sockets.name path (some id)
      bound := Function.update sockets.bound id true
      name_lt := by
        intro other found hname
        rcases eq_or_ne other path with rfl | hne
        · rw [Function.update_self] at hname
          exact Option.some.inj hname ▸ hfree.2.2
        · rw [Function.update_of_ne hne] at hname
          exact sockets.name_lt other found hname }
  else none

end Names

/-! ## Effects of the operations -/

section Effects

variable (sockets : LocalSockets Name Owner)

theorem listener_eq_some_iff {path : Name} {owner : Owner} {id : ℕ} :
    sockets.listener path = some (owner, id) ↔
      sockets.name path = some id ∧ sockets.listening id = true ∧
        sockets.owner id = some owner := by
  unfold listener
  constructor
  · intro hlistener
    obtain ⟨found, hname, hfound⟩ := Option.bind_eq_some_iff.mp hlistener
    split at hfound
    next hlistening =>
      obtain ⟨other, howner, heq⟩ := Option.map_eq_some_iff.mp hfound
      obtain ⟨rfl, rfl⟩ := Prod.mk.inj heq
      exact ⟨hname, hlistening, howner⟩
    next => cases hfound
  · rintro ⟨hname, hlistening, howner⟩
    simp [hname, hlistening, howner]

/-- A call that is not refused is a matter of the socket that listens under the name. -/
theorem listener_of_connect {path : Name} {owner : Owner} {id : ℕ}
    (hconnect : sockets.connect path = .connected owner id ∨
      sockets.connect path = .blocked owner id) : sockets.listener path = some (owner, id) := by
  unfold connect at hconnect
  split at hconnect
  next => simp at hconnect
  next other found hlistener =>
    rw [hlistener]
    split at hconnect <;> simpa using hconnect

theorem connect_of_listener {path : Name} {owner : Owner} {id : ℕ}
    (hlistener : sockets.listener path = some (owner, id)) : sockets.connect path =
      if sockets.waiting id ≤ sockets.backlog id then .connected owner id
      else .blocked owner id := by
  rw [connect, hlistener]

@[simp] theorem socket_name (owner : Owner) : (sockets.socket owner).2.name = sockets.name := rfl

theorem socket_owner_of_lt (owner : Owner) {id : ℕ} (hlt : id < sockets.nextSocket) :
    (sockets.socket owner).2.owner id = sockets.owner id :=
  Function.update_of_ne (Nat.ne_of_lt hlt) _ _

theorem lt_of_owner {id : ℕ} {owner : Owner} (howner : sockets.owner id = some owner) :
    id < sockets.nextSocket := by
  by_contra hle
  rw [sockets.fresh_unowned id (Nat.not_lt.mp hle)] at howner
  cases howner

theorem closeAll_owner_of_ne [DecidableEq Owner] {owner other : Owner} (hne : other ≠ owner)
    {id : ℕ} : (sockets.closeAll owner).owner id = some other ↔ sockets.owner id = some other := by
  unfold closeAll
  dsimp only
  split
  next howner => simp [howner, hne.symm]
  next => exact Iff.rfl

theorem closeAll_owner_self [DecidableEq Owner] (owner : Owner) (id : ℕ) :
    (sockets.closeAll owner).owner id ≠ some owner := by
  unfold closeAll
  dsimp only
  split
  next => exact nofun
  next howner => exact howner

variable [DecidableEq Name]

/-- A socket that is bound gets the free name, and nothing else changes. -/
theorem bind_some {id : ℕ} {path : Name} {next : LocalSockets Name Owner}
    (hbind : sockets.bind id path = some next) :
    next.name = Function.update sockets.name path (some id) ∧ next.owner = sockets.owner ∧
      next.listening = sockets.listening ∧ next.backlog = sockets.backlog := by
  unfold bind at hbind
  split at hbind
  next =>
    obtain rfl := Option.some.inj hbind
    exact ⟨rfl, rfl, rfl, rfl⟩
  next => cases hbind

end Effects

end LocalSockets

end Foundation

/-!
# Bounded channels

A queue of bounded length between senders, which may be cloned, and one receiver. A send never
waits: it succeeds while the receiver is open and the queue is shorter than its capacity, and
otherwise leaves the channel as it is. A closed receiver still hands out what is queued; a dropped
one takes the queue with it.
-/

namespace ExecWatch

/-- The receiving end. -/
inductive Receiver where
  | opened
  | closed
  | dropped
deriving Repr, DecidableEq

structure Channel (α : Type) where
  capacity : Nat
  queue : List α
  senders : Nat
  receiver : Receiver
deriving Repr, DecidableEq

namespace Channel

variable {α : Type}

/-- The largest capacity. -/
def maxCapacity : Nat := 0x1fffffffffffffff

/-- An empty channel with one sender; there is none of the given capacity when it is 0 or too
large. -/
def ofCapacity? (capacity : Nat) : Option (Channel α) :=
  if capacity = 0 ∨ maxCapacity < capacity then none else some ⟨capacity, [], 1, .opened⟩

/-- What became of a value sent. -/
inductive Sent where
  | queued
  | full
  | closed
deriving Repr, DecidableEq

/-- Sends a value. -/
def send (c : Channel α) (value : α) : Channel α × Sent :=
  if c.receiver ≠ .opened then (c, .closed)
  else if c.capacity ≤ c.queue.length then (c, .full)
  else ({ c with queue := c.queue ++ [value] }, .queued)

/-- What a receiver that does not wait finds. -/
inductive Received (α : Type) where
  | value (value : α)
  | empty
  | disconnected
deriving Repr, DecidableEq

/-- Takes the oldest value. Nothing can follow when no sender is left or the receiver is closed. -/
def receive (c : Channel α) : Channel α × Received α :=
  match c.queue with
  | value :: rest => ({ c with queue := rest }, .value value)
  | [] => (c, if c.senders = 0 ∨ c.receiver ≠ .opened then .disconnected else .empty)

/-- Closes the receiver. -/
def close (c : Channel α) : Channel α :=
  if c.receiver = .opened then { c with receiver := .closed } else c

/-- Drops the receiver. -/
def dropReceiver (c : Channel α) : Channel α :=
  { c with queue := [], receiver := .dropped }

/-- Clones a sender; there must be one. -/
def cloneSender (c : Channel α) : Channel α :=
  if c.senders = 0 then c else { c with senders := c.senders + 1 }

/-- Drops a sender. -/
def dropSender (c : Channel α) : Channel α :=
  { c with senders := c.senders - 1 }

end Channel

end ExecWatch

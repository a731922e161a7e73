import Mathlib

/-!
# Bounded broadcast channels

A broadcast channel keeps its last `capacity` messages. Every subscriber has a
cursor of its own, starts after the messages already sent, and is told how many
messages it missed when the channel has overwritten some it did not read.

The channel is modelled by the list of all messages ever sent on it together
with its capacity; a subscriber is the number of messages it has read or
skipped.

## Main definitions

* `Channel α` — the messages sent on a channel and its capacity.
* `Channel.tryRecv` — one poll of a cursor: a message, a lag report or nothing.
* `Channel.unread` — the messages a cursor has not passed.
-/

namespace ZephyrVox.Broadcast

universe u

variable {α : Type u}

/-- A channel with everything that was ever sent on it, oldest first. -/
structure Channel (α : Type u) where
  capacity : ℕ
  sent : List α
  deriving Repr

/-- What one poll of a subscriber returns. -/
inductive Recv (α : Type u)
  /-- The next unread message. -/
  | message (a : α)
  /-- The number of messages overwritten before they were read. -/
  | lagged (missed : ℕ)
  /-- No unread message. -/
  | empty
  deriving DecidableEq, Repr

namespace Channel

/-- A channel on which nothing was sent. -/
def new (capacity : ℕ) : Channel α := ⟨capacity, []⟩

/-- Append one message. -/
def send (c : Channel α) (a : α) : Channel α := { c with sent := c.sent ++ [a] }

/-- A fresh cursor, after everything already sent. -/
def subscribe (c : Channel α) : ℕ := c.sent.length

/-- The messages a cursor has not passed. -/
def unread (c : Channel α) (next : ℕ) : List α := c.sent.drop next

/-- One poll: an overrun cursor reports the loss and moves to the oldest message
still held; otherwise it reads the next message. -/
def tryRecv (c : Channel α) (next : ℕ) : Recv α × ℕ :=
  if c.capacity < c.sent.length - next then
    (.lagged (c.sent.length - next - c.capacity), c.sent.length - c.capacity)
  else
    match c.sent[next]? with
    | some a => (.message a, next + 1)
    | none => (.empty, next)

@[simp] theorem sent_new (n : ℕ) : (new n : Channel α).sent = [] := rfl
@[simp] theorem capacity_new (n : ℕ) : (new n : Channel α).capacity = n := rfl
@[simp] theorem sent_send (c : Channel α) (a : α) : (c.send a).sent = c.sent ++ [a] := rfl
@[simp] theorem capacity_send (c : Channel α) (a : α) : (c.send a).capacity = c.capacity := rfl
@[simp] theorem subscribe_eq (c : Channel α) : c.subscribe = c.sent.length := rfl

/-- A new cursor has nothing to read. -/
@[simp] theorem unread_subscribe (c : Channel α) : c.unread c.subscribe = [] := by
  simp [unread]

/-- A sent message is unread at every cursor of the channel. -/
theorem unread_send {c : Channel α} {next : ℕ} (h : next ≤ c.sent.length) (a : α) :
    (c.send a).unread next = c.unread next ++ [a] := by
  simp [unread, List.drop_append_of_le_length h]

/-- A cursor that was not overrun reads its oldest unread message. -/
theorem tryRecv_cons {c : Channel α} {next : ℕ} {a : α} {rest : List α}
    (hcap : c.sent.length - next ≤ c.capacity) (h : c.unread next = a :: rest) :
    c.tryRecv next = (.message a, next + 1) ∧ c.unread (next + 1) = rest := by
  have hget : c.sent[next]? = some a := by
    rw [← List.head?_drop, show c.sent.drop next = a :: rest from h]; rfl
  have hrest : c.sent.drop (next + 1) = rest := by
    rw [← List.tail_drop, show c.sent.drop next = a :: rest from h]; rfl
  exact ⟨by simp [tryRecv, Nat.not_lt.mpr hcap, hget], hrest⟩

/-- A cursor with nothing unread stays where it is. -/
theorem tryRecv_nil {c : Channel α} {next : ℕ} (h : c.unread next = []) :
    c.tryRecv next = (.empty, next) := by
  have hle : c.sent.length ≤ next := List.drop_eq_nil_iff.mp h
  have hget : c.sent[next]? = none := List.getElem?_eq_none hle
  have hcap : ¬ c.capacity < c.sent.length - next := by omega
  simp [tryRecv, hcap, hget]

/-- A poll that finds nothing had nothing unread. -/
theorem unread_of_tryRecv {c : Channel α} {next next' : ℕ}
    (h : c.tryRecv next = (.empty, next')) : c.unread next = [] := by
  simp only [tryRecv] at h
  split at h
  · cases h
  · split at h
    · cases h
    · rename_i hget
      exact List.drop_eq_nil_of_le (List.getElem?_eq_none_iff.mp hget)

/-- What is unread stays unread when more is sent. -/
theorem unread_send_ne_nil {c : Channel α} {next : ℕ} (h : c.unread next ≠ []) (a : α) :
    (c.send a).unread next ≠ [] := by
  have hlt : next < c.sent.length := by
    by_contra hge
    exact h (List.drop_eq_nil_of_le (Nat.not_lt.mp hge))
  rw [unread_send hlt.le]
  simp

end Channel

end ZephyrVox.Broadcast

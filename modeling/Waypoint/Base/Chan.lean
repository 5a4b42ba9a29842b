import Mathlib.Data.List.Basic

/-!
# Channels

Bounded channels between processes. A close is for good: what is in the buffer can still be received, after which a receive returns at once with nothing.
-/

namespace Base

variable {α : Type}

structure Chan (α : Type) where
  cap : Nat
  buf : List α := []
  closed : Bool := false

inductive Sent (α : Type)
  | sent (c : Chan α)
  | waits
  | crashes

namespace Chan

def send (c : Chan α) (a : α) : Sent α :=
  if c.closed then .crashes
  else if c.buf.length < c.cap then .sent { c with buf := c.buf ++ [a] }
  else .waits

def receive (c : Chan α) : Option (Option α × Chan α) :=
  match c.buf with
  | a :: buf => some (some a, { c with buf })
  | [] => if c.closed then some (none, c) else none

def close (c : Chan α) : Option (Chan α) := if c.closed then none else some { c with closed := true }

variable {c c' : Chan α}

theorem send_closed (h : c.closed = true) (a : α) : c.send a = .crashes := if_pos h

theorem send_ne_crashes (h : c.closed = false) (a : α) : c.send a ≠ .crashes := by
  unfold send
  rw [h, if_neg Bool.false_ne_true]
  split
  · exact fun heq => by cases heq
  · exact fun heq => by cases heq

theorem send_eq_sent {a : α} (h : c.send a = .sent c') :
    c.closed = false ∧ c.buf.length < c.cap ∧ c' = { c with buf := c.buf ++ [a] } := by
  unfold send at h
  split at h
  · cases h
  rename_i hopen
  split at h
  · rename_i hroom
    cases h
    exact ⟨Bool.eq_false_iff.mpr hopen, hroom, rfl⟩
  · cases h

theorem receive_eq_some {a : α} (h : c.receive = some (some a, c')) : c.buf = a :: c'.buf ∧ c'.closed = c.closed := by
  unfold receive at h
  split at h
  · rename_i b buf hbuf
    cases h
    exact ⟨hbuf, rfl⟩
  · split at h
    · cases h
    · cases h

theorem receive_eq_end (h : c.receive = some (none, c')) : c.buf = [] ∧ c.closed = true ∧ c' = c := by
  unfold receive at h
  split at h
  · cases h
  rename_i hbuf
  split at h
  · rename_i hclosed
    cases h
    exact ⟨hbuf, hclosed, rfl⟩
  · cases h

theorem close_of_open (h : c.closed = false) : c.close = some { c with closed := true } := by
  unfold close
  rw [h, if_neg Bool.false_ne_true]

end Chan

end Base

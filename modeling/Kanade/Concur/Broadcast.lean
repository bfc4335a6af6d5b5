import Mathlib.Data.List.Basic

/-!
# Concur.Broadcast

A channel that gives every receiver what is sent after it has subscribed, as long as the receiver keeps up: only the
last `capacity` messages are kept.

* `Channel.send`, `Channel.subscribe`, `Channel.recv`.
* `Listened`: what a receiver has got so far; sends and receives keep it, in whatever order.
* `Listened.drained`: a receiver for which nothing is left has got the last message last, whatever it has missed.
-/

namespace Concur

variable {α : Type}

/-- `log` is all that was sent, the oldest first. -/
structure Channel (α : Type) where
  capacity : Nat
  pos : 0 < capacity
  log : List α

/-- `next` counts the messages before the one that is received next. -/
structure Receiver where
  next : Nat
deriving DecidableEq

inductive Received (α : Type) where
  | value (a : α)
  | lagged (missed : Nat)
  | empty

def Received.toList : Received α → List α
  | .value a => [a]
  | .lagged _ => []
  | .empty => []

namespace Channel

def send (a : α) (ch : Channel α) : Channel α := { ch with log := ch.log ++ [a] }

def subscribe (ch : Channel α) : Receiver := ⟨ch.log.length⟩

/-- The oldest message that is kept. -/
def oldest (ch : Channel α) : Nat := ch.log.length - ch.capacity

/-- A receiver that is told what it has missed gets the oldest message next. -/
def recv (ch : Channel α) (rx : Receiver) : Received α × Receiver :=
  if rx.next < ch.oldest then (.lagged (ch.oldest - rx.next), ⟨ch.oldest⟩)
  else
    match ch.log[rx.next]? with
    | some a => (.value a, ⟨rx.next + 1⟩)
    | none => (.empty, rx)

/-- A receive tells of a lag, brings a message, or waits. -/
theorem recv_cases (ch : Channel α) (rx : Receiver) :
    (rx.next < ch.oldest ∧ ch.recv rx = (.lagged (ch.oldest - rx.next), ⟨ch.oldest⟩)) ∨
      (∃ a, ch.log[rx.next]? = some a ∧ ch.recv rx = (.value a, ⟨rx.next + 1⟩)) ∨
      (ch.log[rx.next]? = none ∧ ch.recv rx = (.empty, rx)) := by
  unfold recv
  split
  · rename_i hlag
    exact .inl ⟨hlag, rfl⟩
  · cases ha : ch.log[rx.next]? with
    | some a => exact .inr (.inl ⟨a, rfl, rfl⟩)
    | none => exact .inr (.inr ⟨rfl, rfl⟩)

end Channel

/-- `got` is what a receiver has got that has subscribed before message `start`. -/
structure Listened (ch : Channel α) (start : Nat) (rx : Receiver) (got : List α) : Prop where
  start_le : start ≤ rx.next
  next_le : rx.next ≤ ch.log.length
  sublist : got.Sublist ((ch.log.take rx.next).drop start)
  /-- What has been missed is before the last message. -/
  last : rx.next < ch.log.length ∨ got.getLast? = ((ch.log.take rx.next).drop start).getLast?

namespace Listened

variable {ch : Channel α} {start : Nat} {rx : Receiver} {got : List α}

theorem subscribe (ch : Channel α) : Listened ch ch.log.length ch.subscribe [] := by
  refine ⟨Nat.le_refl _, Nat.le_refl _, List.nil_sublist _, .inr ?_⟩
  unfold Channel.subscribe
  simp

theorem send (h : Listened ch start rx got) (a : α) : Listened (ch.send a) start rx got := by
  have htake : (ch.log ++ [a]).take rx.next = ch.log.take rx.next := List.take_append_of_le_length h.next_le
  have hlen : (ch.send a).log.length = ch.log.length + 1 := List.length_append
  refine ⟨h.start_le, ?_, ?_, .inl ?_⟩
  · rw [hlen]
    exact Nat.le_succ_of_le h.next_le
  · show got.Sublist (((ch.log ++ [a]).take rx.next).drop start)
    rw [htake]
    exact h.sublist
  · rw [hlen]
    exact Nat.lt_succ_of_le h.next_le

theorem recv (h : Listened ch start rx got) :
    Listened ch start (ch.recv rx).2 (got ++ (ch.recv rx).1.toList) := by
  obtain ⟨hlag, heq⟩ | ⟨a, ha, heq⟩ | ⟨-, heq⟩ := ch.recv_cases rx
  · rw [heq]
    have hpos := ch.pos
    have hold : ch.oldest < ch.log.length := by
      unfold Channel.oldest at hlag ⊢
      omega
    refine ⟨Nat.le_trans h.start_le (Nat.le_of_lt hlag), Nat.le_of_lt hold, ?_, .inl hold⟩
    rw [Received.toList, List.append_nil]
    refine h.sublist.trans (List.Sublist.drop ?_ start)
    exact List.take_sublist_take_left (Nat.le_of_lt hlag)
  · rw [heq]
    obtain ⟨hlt, -⟩ := List.getElem?_eq_some_iff.1 ha
    have htake : (ch.log.take (rx.next + 1)).drop start = (ch.log.take rx.next).drop start ++ [a] := by
      rw [List.take_add_one, ha, Option.toList_some, List.drop_append_of_le_length]
      rw [List.length_take]
      exact Nat.le_min.2 ⟨h.start_le, Nat.le_trans h.start_le h.next_le⟩
    refine ⟨Nat.le_succ_of_le h.start_le, hlt, ?_, .inr ?_⟩
    · rw [htake]
      exact h.sublist.append (List.Sublist.refl _)
    · rw [htake, Received.toList, List.getLast?_concat, List.getLast?_concat]
  · rw [heq, Received.toList, List.append_nil]
    exact h

theorem next_eq (h : Listened ch start rx got) (hempty : ch.recv rx = (.empty, rx)) :
    rx.next = ch.log.length := by
  obtain ⟨-, heq⟩ | ⟨a, -, heq⟩ | ⟨hnone, -⟩ := ch.recv_cases rx
  · cases heq.symm.trans hempty
  · cases heq.symm.trans hempty
  · exact Nat.le_antisymm h.next_le (List.getElem?_eq_none_iff.1 hnone)

/-- Nothing is left to receive. -/
theorem drained (h : Listened ch start rx got) (hend : rx.next = ch.log.length) :
    got.getLast? = (ch.log.drop start).getLast? := by
  rcases h.last with hlt | hlast
  · omega
  · rw [hlast, hend, List.take_length]

end Listened

end Concur

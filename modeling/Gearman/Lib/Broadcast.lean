import Mathlib.Data.List.Basic
import Mathlib.Tactic.Common

/-!
# A bounded broadcast channel

One receiver of a channel that keeps the last `cap` messages. A receiver that
has fallen further behind is told so once and goes on with the oldest message
that is kept; what it missed is gone. `queued` is what it has not received yet,
kept or not.
-/

/-- The messages sent so far, oldest first, and how many of them the receiver is past. -/
structure Broadcast (α : Type*) where
  sent : List α
  next : Nat
  deriving DecidableEq, Repr

namespace Broadcast

inductive TryRecv (α : Type*)
  | ok (message : α)
  | lagged
  | empty
  deriving DecidableEq, Repr

variable {α : Type*}

/-- A receiver that subscribes to a channel with these messages gets none of them. -/
def subscribe (sent : List α) : Broadcast α := ⟨sent, sent.length⟩

def send (b : Broadcast α) (message : α) : Broadcast α :=
  { b with sent := b.sent ++ [message] }

/-- The index of the oldest message kept. -/
def oldest (cap : Nat) (b : Broadcast α) : Nat := b.sent.length - cap

def tryRecv (cap : Nat) (b : Broadcast α) : TryRecv α × Broadcast α :=
  if b.next < b.oldest cap then (.lagged, { b with next := b.oldest cap })
  else
    match b.sent[b.next]? with
    | some message => (.ok message, { b with next := b.next + 1 })
    | none => (.empty, b)

/-- The messages still to come. -/
def queued (b : Broadcast α) : List α := b.sent.drop b.next

/-- The messages the receiver missed if it lags now. -/
def missed (cap : Nat) (b : Broadcast α) : List α :=
  (b.sent.take (b.oldest cap)).drop b.next

theorem queued_send {b : Broadcast α} (h : b.next ≤ b.sent.length) (message : α) :
    (b.send message).queued = b.queued ++ [message] :=
  List.drop_append_of_le_length h

/-- All that `tryRecv` can do. -/
inductive Receives (cap : Nat) (b : Broadcast α) : TryRecv α → Broadcast α → Prop
  | ok {message : α} {rest : List α} (hkept : b.oldest cap ≤ b.next)
      (h : b.queued = message :: rest)
      (hrest : ({ b with next := b.next + 1 } : Broadcast α).queued = rest) :
      Receives cap b (.ok message) { b with next := b.next + 1 }
  | lagged (h : b.next < b.oldest cap)
      (hqueued : b.queued =
        b.missed cap ++ ({ b with next := b.oldest cap } : Broadcast α).queued) :
      Receives cap b .lagged { b with next := b.oldest cap }
  | empty (h : b.queued = []) : Receives cap b .empty b

theorem receives (cap : Nat) (b : Broadcast α) :
    Receives cap b (b.tryRecv cap).1 (b.tryRecv cap).2 := by
  unfold tryRecv
  split
  · rename_i hlag
    refine .lagged hlag ?_
    unfold queued missed
    have hle : b.oldest cap ≤ b.sent.length := Nat.sub_le _ _
    have hlength : b.next ≤ (b.sent.take (b.oldest cap)).length := by
      rw [List.length_take]
      omega
    rw [← List.drop_append_of_le_length hlength, List.take_append_drop]
  · rename_i hkept
    cases hmessage : b.sent[b.next]? with
    | none => exact .empty (List.drop_eq_nil_of_le (List.getElem?_eq_none_iff.mp hmessage))
    | some message =>
      obtain ⟨hlt, rfl⟩ := List.getElem?_eq_some_iff.mp hmessage
      exact .ok (Nat.not_lt.mp hkept) (List.drop_eq_getElem_cons hlt) rfl

/-- Each `tryRecv` but the one that finds nothing leaves less to come. -/
theorem length_queued_tryRecv {cap : Nat} {b : Broadcast α} (h : (b.tryRecv cap).1 ≠ .empty) :
    (b.tryRecv cap).2.queued.length < b.queued.length := by
  have hreceives := b.receives cap
  rcases hfound : b.tryRecv cap with ⟨found, b'⟩
  rw [hfound] at hreceives h
  cases hreceives with
  | ok _ hqueued hrest =>
    rw [hqueued, hrest]
    exact Nat.lt_succ_self _
  | lagged hlt _ =>
    have hle : b.oldest cap ≤ b.sent.length := Nat.sub_le _ _
    unfold queued
    rw [List.length_drop, List.length_drop]
    dsimp only
    omega
  | empty _ => exact absurd rfl h

theorem length_queued_tryRecv_le (cap : Nat) (b : Broadcast α) :
    (b.tryRecv cap).2.queued.length ≤ b.queued.length := by
  by_cases h : (b.tryRecv cap).1 = .empty
  · have hreceives := b.receives cap
    rcases hfound : b.tryRecv cap with ⟨found, b'⟩
    rw [hfound] at hreceives h
    cases h
    cases hreceives
    exact Nat.le_refl _
  · exact Nat.le_of_lt (length_queued_tryRecv h)

/-- A receiver that keeps up never lags. -/
theorem tryRecv_ne_lagged {cap : Nat} {b : Broadcast α} (h : b.sent.length ≤ b.next + cap) :
    (b.tryRecv cap).1 ≠ .lagged := by
  unfold tryRecv oldest
  rw [if_neg (by omega)]
  split <;> simp

@[simp] theorem sent_tryRecv (cap : Nat) (b : Broadcast α) :
    (b.tryRecv cap).2.sent = b.sent := by
  unfold tryRecv
  split
  · rfl
  · split <;> rfl

theorem mem_sent_of_tryRecv {cap : Nat} {b : Broadcast α} {message : α}
    (h : (b.tryRecv cap).1 = .ok message) : message ∈ b.sent := by
  have hreceives := b.receives cap
  rw [h] at hreceives
  generalize (b.tryRecv cap).2 = b' at hreceives
  cases hreceives with
  | ok _ hqueued _ =>
    apply List.mem_of_mem_drop (i := b.next)
    rw [show b.sent.drop b.next = b.queued from rfl, hqueued]
    exact List.mem_cons_self

/-! ## The receiver stays within what was sent -/

theorem next_le_send {b : Broadcast α} (h : b.next ≤ b.sent.length) (message : α) :
    (b.send message).next ≤ (b.send message).sent.length := by
  have hlength : (b.send message).sent.length = b.sent.length + 1 := List.length_append
  rw [hlength]
  exact Nat.le_succ_of_le h

theorem next_le_tryRecv {cap : Nat} {b : Broadcast α} (h : b.next ≤ b.sent.length) :
    (b.tryRecv cap).2.next ≤ (b.tryRecv cap).2.sent.length := by
  rw [sent_tryRecv]
  unfold tryRecv
  split
  · exact Nat.sub_le _ _
  · cases hmessage : b.sent[b.next]? with
    | none => exact h
    | some message =>
      obtain ⟨hlt, -⟩ := List.getElem?_eq_some_iff.mp hmessage
      exact hlt

end Broadcast

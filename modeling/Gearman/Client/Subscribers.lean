import Gearman.Client.Submit
import Mathlib.Logic.Function.Basic

/-!
# Event subscribers

The foreground submissions sharing one job handle. The server sends every
event once per registration, back to back, so each copy goes to the next
subscriber in turn. A slot whose stream was dropped is kept, empty, as long as
the server keeps the registration.
-/

namespace Gearman.Client

structure HandleSubscribers where
  slots : List (Option StreamId)
  cursor : Nat
  deriving DecidableEq, Repr

/-- `Vec::swap_remove`: the last element takes the place of the removed one. -/
def swapRemove {α : Type} (xs : List α) (i : Nat) : List α :=
  match xs.getLast? with
  | none => xs
  | some last => (xs.set i last).dropLast

namespace HandleSubscribers

/-- `HandleSubscribers::default`. -/
def empty : HandleSubscribers := ⟨[], 0⟩

def add (subs : HandleSubscribers) (sender : StreamId) : HandleSubscribers :=
  { subs with slots := subs.slots ++ [some sender] }

/-- `HandleSubscribers::deliver`: whether slots remain, the subscribers
afterwards, and the stream the event went to, if the slot still has one. -/
def deliver (subs : HandleSubscribers) (terminal : Bool) :
    Bool × HandleSubscribers × Option StreamId :=
  if subs.slots.isEmpty then (false, subs, none)
  else
    let cursor := if subs.slots.length ≤ subs.cursor then 0 else subs.cursor
    let slot := subs.slots[cursor]?.join
    let slots := if terminal then swapRemove subs.slots cursor else subs.slots
    let cursor := if terminal then cursor else cursor + 1
    let cursor := if slots.length ≤ cursor then 0 else cursor
    (!slots.isEmpty, ⟨slots, cursor⟩, slot)

/-- One sweep of `prune_closed_subscribers`. -/
def prune (closed : StreamId → Bool) (subs : HandleSubscribers) : HandleSubscribers :=
  { subs with slots := subs.slots.map fun slot => slot.filter fun sender => !closed sender }

end HandleSubscribers

/-- `HashMap<String, HandleSubscribers>`. -/
abbrev JobEventSubscribers := String → Option HandleSubscribers

namespace JobEventSubscribers

def new : JobEventSubscribers := fun _ => none

/-- `job_events.entry(handle).or_default().add(sender)`. -/
def add (jobs : JobEventSubscribers) (handle : String) (sender : StreamId) : JobEventSubscribers :=
  Function.update jobs handle (some (((jobs handle).getD .empty).add sender))

end JobEventSubscribers

/-- `prune_closed_subscribers`. -/
def pruneClosedSubscribers (closed : StreamId → Bool) (jobs : JobEventSubscribers) :
    JobEventSubscribers :=
  fun handle => (jobs handle).map (HandleSubscribers.prune closed)

end Gearman.Client

import Gearman.Client.Verify.Actor
import Gearman.Lib.Machine

/-!
# What becomes of the actor of a dropped client

Only `actor_loop` looks at the command channel, so only there does the actor
notice that its client is gone. An actor that never gets that far tries again
for ever. The theorem is about the runs in which, once nobody is left to send a
command, the next attempt gets there.
-/

namespace Gearman.Client

open Protocol

/-- Nobody is left to send a command, and none is queued. -/
def Actor.Abandoned (a : Actor) : Prop := a.senders = false ∧ a.queue = []

instance (a : Actor) : Decidable a.Abandoned :=
  inferInstanceAs (Decidable (a.senders = false ∧ a.queue = []))

def ActorInput.connects : ActorInput → Bool
  | .connect _ => true
  | _ => false

/-- A server actor with the connection attempts it starts. -/
structure Attempts where
  actor : Actor
  /-- `crate::net::connect` has been called and has not returned. -/
  dialling : Bool
  /-- The attempts started while the actor was abandoned. -/
  further : Nat

inductive AttemptAct
  /-- `crate::net::connect` is called. -/
  | dial
  | actor (i : ActorInput)

namespace Attempts

def start : Attempts := ⟨.new, false, 0⟩

def step (withExceptions : Bool) (r : Attempts) : AttemptAct → Option Attempts
  | .dial =>
    match r.actor.phase, r.dialling with
    | .connecting, false =>
      some { r with
        dialling := true
        further := if r.actor.Abandoned then r.further + 1 else r.further }
    | _, _ => none
  | .actor i =>
    if i.connects && !r.dialling then none
    else
      (r.actor.step withExceptions i).map fun (actor, _) =>
        { r with actor := actor, dialling := r.dialling && !i.connects }

/-- An attempt comes up and stays up. -/
def Succeeds : ActorInput → Prop
  | .connect ok => ok = true
  | .sent io => io = .accepted
  | .recv pkt => ∃ p, pkt = .ok (some p)
  | _ => True

/-- From the first attempt of an abandoned actor on, attempts succeed. -/
def Reliable (r : Attempts) : AttemptAct → Prop
  | .actor i => 0 < r.further → Succeeds i
  | .dial => True

/-- The actor will find its channel at the end without another attempt. -/
def Bound (r : Attempts) : Prop :=
  match r.actor.phase with
  | .connecting => r.dialling = true
  | .negotiate conn => conn = .fromStream
  | .settling | .sleeping | .ended .connectionLost => False
  | _ => True

structure Inv (r : Attempts) : Prop where
  dialling : r.dialling = true → r.actor.phase = .connecting
  once : r.further ≤ 1
  bound : 0 < r.further → r.actor.Abandoned ∧ r.Bound

theorem inv_start : start.Inv :=
  ⟨(fun h => by cases h), Nat.zero_le 1, fun h => absurd h (Nat.lt_irrefl 0)⟩

/-- An actor that is abandoned stays so. -/
theorem abandoned_step {withExceptions : Bool} {a a' : Actor} {i : ActorInput} {es : List Effect}
    (ha : a.Abandoned) (h : a.Steps withExceptions i a' es) : a'.Abandoned := by
  obtain ⟨hsenders, hqueue⟩ := ha
  have iterate : ∀ conn s j, (a.iterate conn s j).1.Abandoned := by
    intro conn s j
    unfold Actor.iterate
    split <;> exact ⟨hsenders, hqueue⟩
  cases h with
  | queue h => rw [hsenders] at h; cases h
  | dropSenders => exact ⟨rfl, hqueue⟩
  | recv _ | tick _ | close _ _ _ => exact iterate _ _ _
  | command _ hq => rw [hqueue] at hq; cases hq
  | _ => exact ⟨hsenders, hqueue⟩

/-- A successful handshake goes through. -/
theorem send_optionReq : (Connection.fromStream.send optionReq .accepted).1 = .ok () := by
  have hacc : GearmanCodec.new.Accepts optionReq := by decide
  rw [Connection.send_accepted hacc rfl]

/-- An iteration that reads a packet, or that finds the channel at its end, stays bound. -/
theorem bound_iterate {a : Actor} {conn : Connection} {s : LoopState} {j : LoopInput}
    (hj : (actorLoop conn s j).1 ≠ .break .connectionLost) (dialling : Bool) (further : Nat) :
    Bound ⟨(a.iterate conn s j).1, dialling, further⟩ := by
  unfold Actor.iterate
  split <;> rename_i hloop
  · trivial
  · rename_i outcome _
    rw [hloop] at hj
    cases outcome with
    | connectionLost => exact absurd rfl hj
    | clientDropped => trivial

/-- A step of a bound actor whose attempt succeeds leaves it bound. -/
theorem bound_step {withExceptions : Bool} {r : Attempts} {a' : Actor} {i : ActorInput}
    {es : List Effect} (habandoned : r.actor.Abandoned) (hbound : r.Bound) (hi : Succeeds i)
    (h : r.actor.Steps withExceptions i a' es) :
    Bound ⟨a', r.dialling && !i.connects, r.further⟩ := by
  unfold Bound at hbound
  cases h with
  | queue h =>
    rw [habandoned.1] at h
    cases h
  | dropSenders =>
    have hd : (r.dialling && !ActorInput.dropSenders.connects) = r.dialling := Bool.and_true _
    rw [hd]
    exact hbound
  | refused hp => cases hi
  | negotiate hp _ => exact rfl
  | connected hp _ => trivial
  | asked hp _ => trivial
  | unasked hp h =>
    rw [hp] at hbound
    obtain rfl : _ = Connection.fromStream := hbound
    obtain rfl : _ = Io.accepted := hi
    have hsent := send_optionReq
    rw [h] at hsent
    cases hsent
  | negotiated hp _ => trivial
  | unnegotiated hp h =>
    obtain ⟨p, rfl⟩ := hi
    obtain ⟨reply, hreply⟩ := Actor.negotiationReply_packet p
    rw [hreply] at h
    cases h
  | recv hp =>
    obtain ⟨p, rfl⟩ := hi
    exact bound_iterate Flow.noConfusion _ _
  | tick hp => exact bound_iterate Flow.noConfusion _ _
  | command hp hq =>
    rw [habandoned.2] at hq
    cases hq
  | close hp _ _ => exact bound_iterate (fun h => by cases h) _ _
  | ready hp => trivial
  | enter hp => trivial
  | dropped hp => trivial
  | lost hp | settle hp | slept hp =>
    rw [hp] at hbound
    exact hbound.elim

theorem inv_step {withExceptions : Bool} {r r' : Attempts} {act : AttemptAct} (hr : r.Inv)
    (hc : r.Reliable act) (h : r.step withExceptions act = some r') : r'.Inv := by
  cases act with
  | dial =>
    rcases hp : r.actor.phase <;> rcases hd : r.dialling <;>
      simp only [step, hp, hd, reduceCtorEq] at h
    cases h
    -- a bound actor that is connecting has made its attempt already
    have hnone : r.further = 0 := by
      rcases Nat.eq_zero_or_pos r.further with hzero | hpos
      · exact hzero
      · have hbound := (hr.bound hpos).2
        unfold Bound at hbound
        rw [hp, hd] at hbound
        cases hbound
    refine ⟨fun _ => hp, ?_, fun hpos => ?_⟩
    · dsimp only
      split <;> omega
    · by_cases habandoned : r.actor.Abandoned
      · refine ⟨habandoned, ?_⟩
        unfold Bound
        rw [hp]
      · rw [if_neg habandoned, hnone] at hpos
        cases hpos
  | actor i =>
    obtain ⟨hdial, h⟩ := Option.ite_none_left_eq_some.mp h
    obtain ⟨⟨a', es⟩, hstep, rfl⟩ := Option.map_eq_some_iff.mp h
    have hsteps := Actor.steps_of_step hstep
    refine ⟨fun hd => ?_, hr.once, fun hpos => ?_⟩
    · -- only the outcome of the attempt leads out of `connecting`
      rw [Bool.and_eq_true] at hd
      have hphase := hr.dialling hd.1
      cases hsteps with
      | queue _ | dropSenders => exact hphase
      | refused _ | negotiate _ _ | connected _ _ => cases hd.2
      | asked hp _ | unasked hp _ | negotiated hp _ | unnegotiated hp _ | recv hp | tick hp
      | command hp _ | close hp _ _ | ready hp | enter hp | dropped hp | lost hp | settle hp
      | slept hp => cases hphase.symm.trans hp
    · obtain ⟨habandoned, hbound⟩ := hr.bound hpos
      exact ⟨abandoned_step habandoned hsteps, bound_step habandoned hbound (hc hpos) hsteps⟩

/-- **A dropped client stops its actor.** In every run in which the first
attempt of the abandoned actor comes up, gets through its handshake and stays up
until `actor_loop` looks at the channel, there is no second one. -/
theorem at_most_one_further_attempt (withExceptions : Bool) {acts : List AttemptAct} {r : Attempts}
    (hreliable : Machine.Meets (step withExceptions) Reliable start acts)
    (h : Machine.run (step withExceptions) start acts = some r) : r.further ≤ 1 :=
  (Machine.invariant_of_meets (fun _ _ _ hr hc hs => inv_step hr hc hs) inv_start hreliable h).once

/-- A client that is dropped while its actor waits for work. -/
def closedRun : List AttemptAct :=
  [.dial, .actor (.connect true), .actor .go, .actor .go, .actor .dropSenders,
    .actor (.recv (.ok none)), .actor .go, .actor .go, .actor .go, .dial, .actor (.connect true),
    .actor .go, .actor .go, .actor (.command .accepted), .actor .go]

theorem at_most_one_further_attempt_closedRun :
    ∃ r, Machine.run (step false) start closedRun = some r ∧ r.actor.phase = .returned ∧
      r.further ≤ 1 := by
  have hrun : Machine.run (step false) start closedRun = some _ := rfl
  refine ⟨_, hrun, rfl, at_most_one_further_attempt false ?_ hrun⟩
  -- the connection that is lost was up before, the further attempt succeeds
  have hlost : ∀ r : Attempts, r.further = 0 → r.Reliable (.actor (.recv (.ok none))) := by
    intro r hzero hpos
    omega
  exact .cons trivial rfl (.cons (fun _ => rfl) rfl (.cons (fun _ => trivial) rfl
    (.cons (fun _ => trivial) rfl (.cons (fun _ => trivial) rfl (.cons (hlost _ rfl) rfl
    (.cons (fun _ => trivial) rfl (.cons (fun _ => trivial) rfl (.cons (fun _ => trivial) rfl
    (.cons trivial rfl (.cons (fun _ => rfl) rfl (.cons (fun _ => trivial) rfl
    (.cons (fun _ => trivial) rfl (.cons (fun _ => trivial) rfl (.cons (fun _ => trivial) rfl
    trivial))))))))))))))

/-! ## An unreachable server -/

/-- One attempt that fails, and the wait behind it. -/
def failedAttempt : List AttemptAct :=
  [.dial, .actor (.connect false), .actor .go, .actor .go]

theorem run_failedAttempt (withExceptions : Bool) (r : Attempts) (hp : r.actor.phase = .connecting)
    (hd : r.dialling = false) (ha : r.actor.Abandoned) :
    ∃ r', Machine.run (step withExceptions) r failedAttempt = some r' ∧
      r'.actor.phase = .connecting ∧ r'.dialling = false ∧ r'.actor.Abandoned ∧
      r'.further = r.further + 1 := by
  obtain ⟨⟨phase, queue, senders, connected, attempted, backoff⟩, dialling, further⟩ := r
  obtain ⟨rfl, rfl⟩ : senders = false ∧ queue = [] := ha
  obtain rfl : phase = .connecting := hp
  obtain rfl : dialling = false := hd
  exact ⟨_, rfl, rfl, rfl, ⟨rfl, rfl⟩, rfl⟩

/-- Nothing bounds the attempts of an actor that cannot reach its server. -/
theorem keeps_reconnecting (withExceptions : Bool) (n : Nat) :
    ∃ acts r, Machine.run (step withExceptions) start acts = some r ∧
      r.actor.phase = .connecting ∧ r.dialling = false ∧ r.actor.Abandoned ∧ r.further = n := by
  induction n with
  | zero => exact ⟨[.actor .dropSenders], _, rfl, rfl, rfl, ⟨rfl, rfl⟩, rfl⟩
  | succ n ih =>
    obtain ⟨acts, r, hrun, hp, hd, ha, hn⟩ := ih
    obtain ⟨r', hmore, hp', hd', ha', hn'⟩ := run_failedAttempt withExceptions r hp hd ha
    refine ⟨acts ++ failedAttempt, r', ?_, hp', hd', ha', by omega⟩
    rw [Machine.run_append, hrun]
    exact hmore

/-- The client is dropped during the first attempt, and no attempt succeeds. -/
def unreachableRun : List AttemptAct :=
  [.dial, .actor .dropSenders, .actor (.connect false), .actor .go, .actor .go] ++
    failedAttempt ++ [.dial]

theorem two_further_attempts :
    ∃ r, Machine.run (step false) start unreachableRun = some r ∧ r.actor.Abandoned ∧
      r.further = 2 :=
  ⟨_, rfl, ⟨rfl, rfl⟩, rfl⟩

end Attempts

end Gearman.Client

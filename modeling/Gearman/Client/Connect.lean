import Gearman.Client.Actor
import Gearman.Client.Multi

/-!
# Connecting a client

`ClientBuilder::connect` starts an actor for each server and waits until enough
of them are up. It looks at the servers one by one; between two looks any actor
may take any number of steps.
-/

namespace Gearman.Client

/-- What `ClientBuilder::connect` does next. -/
inductive ConnectPc
  /-- `any_healthy`: look at `connected` of this server. -/
  | anyHealthy (server : Nat)
  /-- `all_attempted`: look at `attempted` of this server. -/
  | allAttempted (server : Nat)
  /-- Look at the clock. -/
  | deadline
  /-- The `any_healthy` behind the deadline. -/
  | lastHealthy (server : Nat)
  | sleeping
  /-- It has returned, and whether it did before its deadline. -/
  | returned (result : Except GearmanError Unit) (inTime : Bool)
  deriving DecidableEq

/-- The actor of one server, with what became of its first connection attempt. -/
structure Server where
  actor : Actor
  /-- How the first attempt finished. -/
  first : Option Bool
  /-- An `actor_loop` has ended. -/
  ended : Bool

def Server.new : Server := ⟨.new, none, false⟩

/-- The attempt a phase is the outcome of. -/
def Phase.outcome : Phase → Option Bool
  | .ready _ => some true
  | .settling => some false
  | _ => none

def Phase.isEnded : Phase → Bool
  | .ended _ => true
  | _ => false

/-- The server after a step of its actor. -/
def Server.after (s : Server) (actor : Actor) : Server where
  actor := actor
  first := s.first.or actor.phase.outcome
  ended := s.ended || actor.phase.isEnded

structure ConnectRun where
  servers : List Server
  pc : ConnectPc
  /-- The deadline has passed. -/
  late : Bool

inductive ConnectAct
  | actor (server : Nat) (i : ActorInput)
  /-- `ClientBuilder::connect` goes on. -/
  | connect
  /-- The deadline passes. -/
  | expire

namespace ConnectRun

/-- All actors are spawned. -/
def start (servers : Nat) : ConnectRun where
  servers := List.replicate servers .new
  pc := if servers = 0 then .returned (.error .noServersAvailable) true else .anyHealthy 0
  late := false

/-- `ServerPool::is_healthy`. -/
def isHealthy (r : ConnectRun) (server : Nat) : Bool :=
  (r.servers[server]?.map fun s => s.actor.connected).getD false

/-- Where the next step of `ClientBuilder::connect` leads. -/
def next (selection : ServerSelection) (r : ConnectRun) : ConnectPc :=
  match r.pc with
  | .anyHealthy k =>
    match r.servers[k]? with
    | some s =>
      if s.actor.connected then
        match selection with
        | .byUnique => .allAttempted 0
        | .roundRobin => .returned (.ok ()) (!r.late)
      else .anyHealthy (k + 1)
    | none => .deadline
  | .allAttempted k =>
    match r.servers[k]? with
    | some s => if s.actor.attempted then .allAttempted (k + 1) else .deadline
    | none => .returned (.ok ()) (!r.late)
  | .deadline => if r.late then .lastHealthy 0 else .sleeping
  | .lastHealthy k =>
    match r.servers[k]? with
    | some s => if s.actor.connected then .returned (.ok ()) (!r.late) else .lastHealthy (k + 1)
    | none => .returned (.error .noServersAvailable) (!r.late)
  | .sleeping => .anyHealthy 0
  | .returned result inTime => .returned result inTime

def step (withExceptions : Bool) (selection : ServerSelection) (r : ConnectRun) :
    ConnectAct → Option ConnectRun
  | .actor k i =>
    match r.servers[k]? with
    | some s =>
      (s.actor.step withExceptions i).map fun (actor, _) =>
        { r with servers := r.servers.set k (s.after actor) }
    | none => none
  | .connect => some { r with pc := r.next selection }
  | .expire => some { r with late := true }

end ConnectRun

end Gearman.Client

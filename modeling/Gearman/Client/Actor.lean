import Gearman.Client.Incoming
import Gearman.Conn

/-!
# Server actors

`actor_loop` owns the socket of one connection; `run_server_actor` reconnects
around it. One iteration of the `select!` in `actor_loop` is one step: a branch
runs to its end before the loop looks at anything else. In `run_server_actor`
every access to what it shares with the client is a step of its own.
-/

namespace Gearman.Client

open Protocol

inductive ActorOutcome
  | connectionLost
  | clientDropped
  deriving DecidableEq, Repr

/-- Which branch of the `select!` is taken, and with what. -/
inductive LoopInput
  | tick (closed : StreamId → Bool)
  | command (cmd : Option ClientCommand) (io : Io)
  | recv (pkt : Received)

/-- One iteration ends with the loop going on or broken out of. -/
inductive Flow
  | next (conn : Connection) (s : LoopState)
  | break (outcome : ActorOutcome)

/-- What a sent command waits for. -/
def ClientCommand.pendingReply : ClientCommand → PendingReply
  | submit _ reply events => .jobCreated reply events
  | status _ reply => .status reply
  | statusUnique _ reply => .statusUnique reply

/-- One iteration of `actor_loop`. A `break` includes the `fail_all_pending`
behind the loop. -/
def actorLoop (conn : Connection) (s : LoopState) : LoopInput → Flow × List Effect
  | .tick closed => (.next conn ⟨s.pending, pruneClosedSubscribers closed s.jobs⟩, [])
  | .command none _ => (.break .clientDropped, failAllPending s.pending)
  | .command (some cmd) io =>
    match conn.send cmd.packet io with
    | (.error e, _) =>
      (.break .connectionLost,
        .handed cmd.reply :: .replied cmd.reply (.error e) :: failAllPending s.pending)
    | (.ok (), conn) =>
      (.next conn ⟨s.pending ++ [cmd.pendingReply], s.jobs⟩, [.handed cmd.reply])
  | .recv (.ok (some packet)) =>
    let (s, effects) := handleIncoming packet s
    (.next conn s, effects)
  | .recv (.ok none) | .recv (.error _) => (.break .connectionLost, failAllPending s.pending)

/-! ## `negotiate_exceptions` -/

/-- The `OPTION_REQ` that opts in to `WORK_EXCEPTION`. -/
def optionReq : Packet := .request .optionReq [asBytes "exceptions"]

/-- How `negotiate_exceptions` takes the first packet after its `OPTION_REQ`. It
returns `Ok(true)` for an acknowledgement, `Ok(false)` for any other packet. -/
def negotiationReply : Received → Except GearmanError Negotiation
  | .ok (some packet) =>
    if packet.ptype = .optionRes then .ok .acknowledged
    else if packet.ptype = .error then
      .ok (.rejected ((packet.argStr 0).getD "") ((packet.argStr 1).getD ""))
    else .ok (.unexpected packet.ptype)
  | .ok none => .error .connectionClosed
  | .error e => .error e

/-! ## `run_server_actor` -/

/-- Where `run_server_actor` stands. -/
inductive Phase
  | connecting
  /-- About to send `OPTION_REQ`. -/
  | negotiate (conn : Connection)
  /-- Waiting for the reply to it. -/
  | negotiated (conn : Connection)
  /-- About to set `connected`. -/
  | ready (conn : Connection)
  /-- About to set `attempted` and enter `actor_loop`. -/
  | entering (conn : Connection)
  | looping (conn : Connection) (s : LoopState)
  /-- `actor_loop` has ended; about to clear `connected`. -/
  | ended (outcome : ActorOutcome)
  /-- About to set `attempted` at the end of an iteration. -/
  | settling
  | sleeping
  | returned

/-- `run_server_actor` with what it shares with the client. Times are in milliseconds. -/
structure Actor where
  phase : Phase
  /-- Commands not yet taken, oldest first. -/
  queue : List ClientCommand
  /-- Some sender of the command channel is alive. -/
  senders : Bool
  connected : Bool
  attempted : Bool
  backoff : Nat

/-- `MAX_BACKOFF`. -/
def maxBackoff : Nat := 30000

def Actor.new : Actor := ⟨.connecting, [], true, false, false, 100⟩

inductive ActorInput
  /-- A client queues a command. -/
  | queue (cmd : ClientCommand)
  /-- The last sender of the command channel is dropped. -/
  | dropSenders
  | connect (ok : Bool)
  | sent (io : Io)
  | recv (pkt : Received)
  | tick (closed : StreamId → Bool)
  /-- `cmd_rx.recv()` is ready; `io` is how a packet sent for it fares. -/
  | command (io : Io)
  /-- The next step needs nothing from outside. -/
  | go

/-- An iteration of `actor_loop` within `run_server_actor`. -/
def Actor.iterate (a : Actor) (conn : Connection) (s : LoopState) (i : LoopInput) :
    Actor × List Effect :=
  match actorLoop conn s i with
  | (.next conn s, effects) => ({ a with phase := .looping conn s }, effects)
  | (.break outcome, effects) => ({ a with phase := .ended outcome }, effects)

/-- One step of `run_server_actor` or of the clients it serves. -/
def Actor.step (withExceptions : Bool) (a : Actor) : ActorInput → Option (Actor × List Effect)
  | .queue cmd => if a.senders then some ({ a with queue := a.queue ++ [cmd] }, []) else none
  | .dropSenders => some ({ a with senders := false }, [])
  | .connect ok =>
    match a.phase with
    | .connecting =>
      if ok then
        if withExceptions then some ({ a with phase := .negotiate .fromStream }, [])
        else some ({ a with phase := .ready .fromStream }, [])
      else some ({ a with phase := .settling }, [])
    | _ => none
  | .sent io =>
    match a.phase with
    | .negotiate conn =>
      match conn.send optionReq io with
      | (.error _, _) => some ({ a with phase := .settling }, [])
      | (.ok (), conn) => some ({ a with phase := .negotiated conn }, [])
    | _ => none
  | .recv pkt =>
    match a.phase with
    | .negotiated conn =>
      match negotiationReply pkt with
      | .ok reply => some ({ a with phase := .ready conn }, [.negotiated reply])
      | .error _ => some ({ a with phase := .settling }, [])
    | .looping conn s => some (a.iterate conn s (.recv pkt))
    | _ => none
  | .tick closed =>
    match a.phase with
    | .looping conn s => some (a.iterate conn s (.tick closed))
    | _ => none
  | .command io =>
    match a.phase, a.queue with
    | .looping conn s, cmd :: queue =>
      some ({ a with queue := queue }.iterate conn s (.command (some cmd) io))
    | .looping conn s, [] =>
      -- the channel only reports its end once it is empty and has no senders
      if a.senders then none else some (a.iterate conn s (.command none io))
    | _, _ => none
  | .go =>
    match a.phase with
    | .ready conn => some ({ a with phase := .entering conn, connected := true }, [])
    | .entering conn =>
      some ({ a with phase := .looping conn .new, attempted := true, backoff := 100 }, [])
    | .ended .clientDropped => some ({ a with phase := .returned, connected := false }, [])
    | .ended .connectionLost => some ({ a with phase := .settling, connected := false }, [])
    | .settling => some ({ a with phase := .sleeping, attempted := true }, [])
    | .sleeping =>
      some ({ a with phase := .connecting, backoff := min (a.backoff * 2) maxBackoff }, [])
    | _ => none

end Gearman.Client

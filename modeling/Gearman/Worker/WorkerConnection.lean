import Gearman.Lib.Broadcast
import Gearman.Worker.GrabLoop

/-!
# A worker's connection

`run_worker_connection` with the part of a `Worker` it shares: the registry,
the shutdown flag and the channel of unregister notifications. Each access to
one of these is a step of its own; between two steps of the task the `Worker`
may do anything.
-/

namespace Gearman.Worker

open Protocol

/-- What the task does next. -/
inductive ConnectionPc (H : Type)
  /-- Look at the shutdown flag. -/
  | head
  /-- Call `crate::net::connect`. -/
  | dial
  | connecting
  /-- `register_functions`: wait for the read lock of the registry. -/
  | connected (conn : Connection)
  /-- `register_functions`: under the read lock, with these entries to go. -/
  | registering (conn : Connection) (todo : List (String × RegisteredHandler H))
  /-- Discard queued notifications. -/
  | discarding (conn : Connection)
  | grabbing (l : GrabLoop H)
  /-- `interruptible_backoff`. -/
  | backingOff
  | returned

/-- Where the grab loop stands, if the task is in it. -/
def ConnectionPc.grab {H : Type} : ConnectionPc H → Option (GrabPc H)
  | .grabbing l => some l.pc
  | _ => none

/-- The capacity of the channel of notifications. -/
def notificationCap : Nat := 16

/-- `MAX_BACKOFF`, in milliseconds. -/
def maxBackoff : Nat := 30000

structure WorkerConnection (H : Type) where
  pc : ConnectionPc H
  backoff : Nat
  registry : Registry H
  /-- The value of the shutdown channel. -/
  shutdown : Bool
  /-- `shutdown_rx` has been notified of it. -/
  notified : Bool
  /-- The calls of `Worker::unregister` between removal and broadcast. -/
  unregistering : List String
  notifications : Broadcast String

inductive ConnectionInput (H : Type)
  /-- `Worker::shutdown` sets its flag. -/
  | shutdown
  /-- `Worker::unregister` removes a function, under the write lock. -/
  | remove (function : String)
  /-- `Worker::unregister` broadcasts it. -/
  | broadcast (function : String)
  /-- The task looks at the shutdown flag. -/
  | borrow
  | dial
  | connect (ok : Bool)
  /-- The task takes the read lock of the registry. -/
  | lock
  /-- The packet the task is about to send is sent. -/
  | sent (io : Io)
  /-- All functions are registered; the read lock is released. -/
  | unlock
  /-- `unregister_rx.try_recv`; `io` is how a `CANT_DO` for it fares. -/
  | tryRecv (io : Io)
  | recv (pkt : Received)
  /-- `dispatch_job` looks up the handler. -/
  | lookup
  /-- The handler returns. -/
  | returned (outcome : Except WorkError Bytes)
  | report (handle : String) (report : Report) (io : Io)
  /-- `shutdown_rx.changed` is ready. -/
  | changed
  /-- The backoff elapses. -/
  | elapsed
  /-- `run_grab_loop` returns. -/
  | leave

/-- What the grab loop makes of `unregister_rx.try_recv`. -/
def unregistration : Broadcast.TryRecv String → Unregistration
  | .ok function => .ok function
  | .lagged => .lagged
  | .empty => .none

namespace WorkerConnection

variable {H : Type}

/-- The task as `WorkerBuilder::run` spawns it. -/
def start (registry : Registry H) : WorkerConnection H where
  pc := .head
  backoff := 100
  registry := registry
  shutdown := false
  notified := false
  unregistering := []
  notifications := .subscribe []

/-- A step of `run_grab_loop`. -/
def grab (mode : GrabMode) (s : WorkerConnection H) (i : GrabInput H) :
    Option (WorkerConnection H) :=
  match s.pc with
  | .grabbing l => (l.step mode i).map fun l => { s with pc := .grabbing l }
  | _ => none

def step (mode : GrabMode) (s : WorkerConnection H) :
    ConnectionInput H → Option (WorkerConnection H)
  -- `Worker::shutdown` consumes the worker
  | .shutdown => if s.shutdown then none else some { s with shutdown := true }
  | .remove function =>
    match s.pc with
    | .registering _ _ => none
    | _ =>
      some { s with
        registry := s.registry.remove function
        unregistering := s.unregistering ++ [function] }
  | .broadcast function =>
    if function ∈ s.unregistering then
      some { s with
        unregistering := s.unregistering.erase function
        notifications := s.notifications.send function }
    else none
  | .borrow =>
    match s.pc with
    | .head => some { s with pc := if s.shutdown then .returned else .dial }
    | _ => s.grab mode (.shutdown s.shutdown)
  | .dial =>
    match s.pc with
    | .dial => some { s with pc := .connecting }
    | _ => none
  | .connect ok =>
    match s.pc with
    | .connecting => some { s with pc := if ok then .connected .fromStream else .backingOff }
    | _ => none
  | .lock =>
    match s.pc with
    | .connected conn => some { s with pc := .registering conn s.registry.entries }
    | _ => none
  | .sent io =>
    match s.pc with
    | .registering conn ((name, reg) :: todo) =>
      match conn.send (registerPacket name reg) io with
      | (.ok (), conn) => some { s with pc := .registering conn todo }
      | (.error _, _) => some { s with pc := .backingOff }
    | _ => s.grab mode (.sent io)
  | .unlock =>
    match s.pc with
    | .registering conn [] => some { s with pc := .discarding conn, backoff := 100 }
    | _ => none
  | .tryRecv io =>
    let (found, notifications) := s.notifications.tryRecv notificationCap
    match s.pc with
    | .discarding conn =>
      match found with
      | .ok _ => some { s with notifications := notifications }
      -- the loop ends at any error, `Lagged` included
      | .lagged | .empty =>
        some { s with pc := .grabbing (.start conn), notifications := notifications }
    | _ =>
      ({ s with notifications := notifications }).grab mode
        (.unregistered (unregistration found) io)
  | .recv pkt => s.grab mode (.recv pkt)
  | .lookup => s.grab mode (.registry s.registry)
  | .returned outcome => s.grab mode (.returned outcome)
  | .report handle report io => s.grab mode (.report handle report io)
  | .changed =>
    if s.shutdown && !s.notified then
      match s.pc with
      | .backingOff => some { s with pc := .returned, notified := true }
      | _ => ({ s with notified := true }).grab mode .changed
    else none
  | .elapsed =>
    match s.pc with
    | .backingOff => some { s with pc := .head, backoff := min (s.backoff * 2) maxBackoff }
    | _ => none
  | .leave =>
    match s.pc with
    | .grabbing l =>
      match l.pc with
      | .done .shuttingDown => some { s with pc := .returned }
      | .done .connectionLost => some { s with pc := .backingOff }
      | _ => none
    | _ => none

end WorkerConnection

end Gearman.Worker

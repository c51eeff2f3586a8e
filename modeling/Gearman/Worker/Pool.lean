import Gearman.Worker.WorkerConnection

/-!
# A worker

`WorkerBuilder` and the `Worker` it runs: as many tasks a server as its
concurrency, each one `run_worker_connection`, over one registry, one shutdown
flag and one channel of notifications. The `Worker` and every task take their
steps in any order.
-/

namespace Gearman.Worker

open Protocol

variable {H : Type}

/-! ## `WorkerBuilder` -/

structure WorkerBuilder (H : Type) where
  servers : List String
  concurrency : Nat
  concurrency_pos : 0 < concurrency
  grabMode : GrabMode
  registry : Registry H

/-- A call of one of the builder's setters. -/
inductive BuilderCall (H : Type)
  | servers (servers : List String)
  | concurrency (n : Nat)
  | grabMode (mode : GrabMode)
  | register (function : String) (handler : H)
  | registerWithTimeout (function : String) (handler : H) (timeout : Duration)

namespace WorkerBuilder

/-- `WorkerBuilder::new`; `parallelism` is what `available_parallelism` returns. -/
def new : Option { n : Nat // 0 < n } → WorkerBuilder H
  | some parallelism => ⟨[], parallelism, parallelism.property, .uniq, .empty⟩
  | none => ⟨[], 1, Nat.one_pos, .uniq, .empty⟩

def apply (b : WorkerBuilder H) : BuilderCall H → WorkerBuilder H
  | .servers servers => { b with servers := servers }
  | .concurrency n =>
    { b with concurrency := max n 1, concurrency_pos := Nat.le_max_right n 1 }
  | .grabMode mode => { b with grabMode := mode }
  | .register function handler => { b with registry := b.registry.register function handler }
  | .registerWithTimeout function handler timeout =>
    { b with registry := b.registry.registerWithTimeout function handler timeout }

/-- The builder after these calls, in order. -/
def build (parallelism : Option { n : Nat // 0 < n }) (calls : List (BuilderCall H)) :
    WorkerBuilder H :=
  calls.foldl apply (new parallelism)

end WorkerBuilder

/-! ## The tasks -/

/-- What the tasks of a worker share. -/
structure Shared (H : Type) where
  registry : Registry H
  /-- The value of the shutdown channel. -/
  shutdown : Bool
  /-- The calls of `Worker::unregister` between removal and broadcast. -/
  unregistering : List String
  /-- The notifications broadcast so far, oldest first. -/
  sent : List String

/-- A task of the `JoinSet`, with what is its own of a `WorkerConnection`. -/
structure Task (H : Type) where
  addr : String
  pc : ConnectionPc H
  backoff : Nat
  /-- Its `shutdown_rx` has been notified. -/
  notified : Bool
  /-- How many notifications its `unregister_rx` is past. -/
  received : Nat
  /-- Its handler has panicked, and the task with it. -/
  panicked : Bool
  /-- `join_next` has returned it. -/
  joined : Bool

namespace Task

/-- The task as `WorkerBuilder::run` spawns it. -/
def spawn (addr : String) : Task H := ⟨addr, .head, 100, false, 0, false, false⟩

/-- The task with what it shares. -/
def within (t : Task H) (shared : Shared H) : WorkerConnection H where
  pc := t.pc
  backoff := t.backoff
  registry := shared.registry
  shutdown := shared.shutdown
  notified := t.notified
  unregistering := shared.unregistering
  notifications := ⟨shared.sent, t.received⟩

/-- The task after a step. -/
def resume (t : Task H) (s : WorkerConnection H) : Task H :=
  { t with
    pc := s.pc
    backoff := s.backoff
    notified := s.notified
    received := s.notifications.next }

/-- The task holds the read lock of the registry. -/
def readsRegistry (t : Task H) : Bool :=
  match t.pc with
  | .registering _ _ => true
  | _ => false

/-- The task waits for a handler. -/
def inHandler (t : Task H) : Bool :=
  match t.pc.grab with
  | some (.running _ _) => true
  | _ => false

def ended (t : Task H) : Bool :=
  t.panicked ||
    match t.pc with
    | .returned => true
    | _ => false

end Task

/-- A use of a `Reporter`. -/
def ConnectionInput.isReport : ConnectionInput H → Bool
  | .report _ _ _ => true
  | _ => false

/-- The steps of the `Worker`, not of a task. -/
def ConnectionInput.ofWorker : ConnectionInput H → Bool
  | .shutdown | .remove _ | .broadcast _ => true
  | _ => false

/-- The inputs a task takes. Of a task that has panicked a clone of a
`Reporter` may be left. -/
def Task.takes (t : Task H) (i : ConnectionInput H) : Bool :=
  !i.ofWorker && (!t.panicked || i.isReport)

/-! ## `Worker` -/

structure Pool (H : Type) where
  shared : Shared H
  tasks : List (Task H)
  /-- `Worker::shutdown` has returned. -/
  returned : Bool

/-- `WorkerBuilder::run`. -/
def WorkerBuilder.run (b : WorkerBuilder H) : Pool H where
  shared := ⟨b.registry, false, [], []⟩
  tasks := b.servers.flatMap fun addr => List.replicate b.concurrency (Task.spawn addr)
  returned := false

inductive PoolAct (H : Type)
  /-- `Worker::unregister` removes a function, under the write lock. -/
  | remove (function : String)
  /-- `Worker::unregister` broadcasts it. -/
  | broadcast (function : String)
  /-- `Worker::shutdown` sets its flag. -/
  | shutdown
  /-- `join_next` returns a task that has ended. -/
  | join (n : Nat)
  /-- `join_next` finds no task left, and `Worker::shutdown` returns. -/
  | drained
  | task (n : Nat) (i : ConnectionInput H)
  /-- The handler of a task panics. -/
  | panic (n : Nat)

namespace Pool

def step (mode : GrabMode) (p : Pool H) : PoolAct H → Option (Pool H)
  -- `shutdown` takes the `Worker` by value: no `unregister` is under way or follows
  | .remove function =>
    if !p.shared.shutdown && !p.tasks.any Task.readsRegistry then
      some { p with shared := { p.shared with
        registry := p.shared.registry.remove function
        unregistering := p.shared.unregistering ++ [function] } }
    else none
  | .broadcast function =>
    if function ∈ p.shared.unregistering then
      some { p with shared := { p.shared with
        unregistering := p.shared.unregistering.erase function
        sent := p.shared.sent ++ [function] } }
    else none
  | .shutdown =>
    if !p.shared.shutdown && p.shared.unregistering.isEmpty then
      some { p with shared := { p.shared with shutdown := true } }
    else none
  | .join n =>
    match p.tasks[n]? with
    | some t =>
      if p.shared.shutdown && t.ended && !t.joined then
        some { p with tasks := p.tasks.set n { t with joined := true } }
      else none
    | none => none
  | .drained =>
    if p.shared.shutdown && p.tasks.all Task.joined && !p.returned then
      some { p with returned := true }
    else none
  | .task n i =>
    match p.tasks[n]? with
    | some t =>
      if t.takes i then
        ((t.within p.shared).step mode i).map fun s =>
          { p with tasks := p.tasks.set n (t.resume s) }
      else none
    | none => none
  | .panic n =>
    match p.tasks[n]? with
    | some t =>
      if t.inHandler && !t.panicked then
        some { p with tasks := p.tasks.set n { t with panicked := true } }
      else none
    | none => none

end Pool

end Gearman.Worker

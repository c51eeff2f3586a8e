import Gearman.Conn
import Gearman.Worker.Job
import Gearman.Worker.Registry

/-!
# The grab loop

`run_grab_loop` with `dispatch_job` inlined. A step runs from one point where
the task may be suspended, or reads something shared, to the next. What it
finds there is the input of the step.
-/

namespace Gearman.Worker

open Protocol

/-- A new connection on which `register_functions` has succeeded. -/
def registered {H : Type} (registry : Registry H) : Connection where
  tried := registry.entries.map fun e => registerPacket e.1 e.2
  written := registry.entries.map fun e => registerPacket e.1 e.2
  broken := false

inductive GrabMode
  | uniq
  | plain
  | all
  deriving DecidableEq, Repr

def GrabMode.grabType : GrabMode → PacketType
  | uniq => .grabJobUniq
  | plain => .grabJob
  | all => .grabJobAll

inductive LoopOutcome
  | connectionLost
  | shuttingDown
  deriving DecidableEq, Repr

/-- What the loop does next. -/
inductive GrabPc (H : Type)
  /-- Look at the shutdown flag. -/
  | head
  /-- `flush_unregistrations`: look for the next notification. -/
  | flush
  | grab
  /-- Wait for the packet after a `GRAB_JOB*`. -/
  | answer
  /-- `dispatch_job`: look up the handler. -/
  | dispatch (pkt : Packet)
  /-- Wait for the handler, which has been given the job. -/
  | running (handler : H) (job : WorkerJob)
  | respond (response : Packet)
  | preSleep
  /-- Wait for a packet or for shutdown. -/
  | asleep
  | done (outcome : LoopOutcome)
  deriving DecidableEq, Repr

/-- What `unregister_rx.try_recv` finds. -/
inductive Unregistration
  | ok (function : String)
  | lagged
  /-- `Empty` or `Closed`. -/
  | none
  deriving DecidableEq, Repr

inductive GrabInput (H : Type)
  | shutdown (set : Bool)
  | unregistered (notification : Unregistration) (io : Io)
  /-- The packet the loop is about to send is sent. -/
  | sent (io : Io)
  | recv (pkt : Received)
  /-- The registry under its read lock. -/
  | registry (registry : Registry H)
  /-- The handler returns. -/
  | returned (outcome : Except WorkError Bytes)
  /-- `shutdown_rx.changed` is ready. -/
  | changed
  /-- A `Reporter` is used, by the handler or by what it gave a clone to. -/
  | report (handle : String) (report : Report) (io : Io)

/-- The packet the loop reads. -/
def GrabInput.packet {H : Type} : GrabInput H → Option Packet
  | .recv (.ok pkt) => pkt
  | _ => none

structure GrabLoop (H : Type) where
  pc : GrabPc H
  conn : Connection
  /-- The handles `Reporter`s were made for. -/
  reporters : List String

namespace GrabLoop

variable {H : Type}

def start (conn : Connection) : GrabLoop H := ⟨.head, conn, []⟩

/-- Send a packet; the loop ends if that fails. -/
def sendOr (l : GrabLoop H) (pkt : Packet) (io : Io) (next : GrabPc H) : GrabLoop H :=
  match l.conn.send pkt io with
  | (.ok (), conn) => { l with pc := next, conn := conn }
  | (.error _, conn) => { l with pc := .done .connectionLost, conn := conn }

/-- Send a packet, whatever comes of it. -/
def sendAnd (l : GrabLoop H) (pkt : Packet) (io : Io) (next : GrabPc H) : GrabLoop H :=
  { l with pc := next, conn := (l.conn.send pkt io).2 }

/-- Where a packet read after a `GRAB_JOB*` leads. -/
def onAnswer (pkt : Packet) : GrabPc H :=
  if isAssign pkt.ptype then .dispatch pkt
  else if pkt.ptype = .noJob then .preSleep
  else .head

def step (mode : GrabMode) (l : GrabLoop H) (i : GrabInput H) : Option (GrabLoop H) :=
  match l.pc, i with
  | _, .report handle report io =>
    if handle ∈ l.reporters then some (l.sendAnd (report.packet handle) io l.pc) else none
  | .head, .shutdown set =>
    some { l with pc := if set then .done .shuttingDown else .flush }
  | .flush, .unregistered (.ok function) io =>
    some (l.sendOr (.request .cantDo [asBytes function]) io .flush)
  | .flush, .unregistered .lagged _ => some l
  | .flush, .unregistered .none _ => some { l with pc := .grab }
  | .grab, .sent io => some (l.sendOr (.request mode.grabType []) io .answer)
  | .answer, .recv (.ok (some pkt)) => some { l with pc := onAnswer pkt }
  | .answer, .recv (.ok none) | .answer, .recv (.error _) =>
    some { l with pc := .done .connectionLost }
  | .dispatch pkt, .registry registry =>
    let job := assignedJob pkt
    match (registry.get job.function).map RegisteredHandler.handler with
    | none => some { l with pc := .respond (unregisteredResponse job.handle) }
    | some handler =>
      some { l with pc := .running handler job, reporters := l.reporters ++ [job.handle] }
  | .running _ job, .returned outcome =>
    some { l with pc := .respond (jobResponse job.handle outcome) }
  -- the result of this send is ignored
  | .respond response, .sent io => some (l.sendAnd response io .head)
  | .preSleep, .sent io => some (l.sendOr (.request .preSleep []) io .asleep)
  -- a packet that is no NOOP is only warned about
  | .asleep, .recv (.ok (some _)) => some { l with pc := .head }
  | .asleep, .recv (.ok none) | .asleep, .recv (.error _) =>
    some { l with pc := .done .connectionLost }
  | .asleep, .changed => some { l with pc := .done .shuttingDown }
  | _, _ => none

end GrabLoop

end Gearman.Worker

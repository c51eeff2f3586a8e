import Gearman.Client.Verify.Streams

/-!
# Calls of a client

What the callers of a `Client` see: every method that talks to a server queues
one command for that server's actor and waits for its reply, and `submit_fg`
goes on to wait for the result of the job. A client has one actor for each of
its servers, and any number of calls are under way at once.

The reply channel of a call and its event channel are named by the number of
the call. What has been sent on them is read off the history of the actor.
-/

namespace Gearman.Client

open Protocol

/-- What a caller asks of a `Client`. -/
inductive Request
  /-- `submit`, and with it `submit_bg`, `submit_epoch` and `submit_reduce_job`. -/
  | submit (s : Submission)
  /-- `submit_fg_unique`. -/
  | foreground (function : String) (unique : Option String) (payload : Bytes)
  | status (handle : JobHandle)
  | statusUnique (handle : JobHandle)
  deriving DecidableEq, Repr

/-- `Client::submit_fg`. -/
def submitFg (function : String) (payload : Bytes) : Request := .foreground function none payload

/-- `Client::submit_bg`. -/
def submitBg (function : String) (payload : Bytes) : Request :=
  .submit (submit function none payload .inBackground)

/-- A job handle and, for a foreground submission, its event channel. -/
structure SubmittedJob where
  handle : JobHandle
  events : Option StreamId
  deriving DecidableEq, Repr

/-- What a call that succeeds returns. -/
inductive Outcome
  | submitted (job : SubmittedJob)
  /-- The result of a foreground job. -/
  | result (payload : Bytes)
  | status (status : JobStatus)
  deriving DecidableEq, Repr

/-- Where a call stands. -/
inductive CallPc
  /-- In `select_for_submit`. -/
  | picking (s : Submission)
  /-- About to queue its command at a server. -/
  | sending (server : Nat) (cmd : ClientCommand)
  /-- Waiting for the reply of that server. -/
  | waiting (server : Nat)
  /-- In the loop of `submit_fg_unique`, which has taken this many events. -/
  | streaming (handle : JobHandle) (taken : Nat)
  | returned (result : Except GearmanError Outcome)
  /-- `ServerPool::get` has been asked for a server there is not. -/
  | panicked
  /-- The caller has dropped the call while it waited. -/
  | dropped
  deriving DecidableEq, Repr

namespace Request

/-- The submission a request makes, if it makes one. -/
def submission : Request → Option Submission
  | submit s => some s
  | foreground function unique payload => some (Client.submit function unique payload .foreground)
  | status _ | statusUnique _ => none

/-- Where call `id` begins. -/
def start (id : Nat) : Request → CallPc
  | submit s => .picking s
  | foreground function unique payload =>
    .picking (Client.submit function unique payload .foreground)
  | status handle => .sending handle.serverIndex (getStatus handle id)
  | statusUnique handle =>
    match getStatusUnique handle id with
    | .ok cmd => .sending handle.serverIndex cmd
    | .error e => .returned (.error e)

/-- What call `id` makes of the reply of a server. A reply channel carries either
handles or statuses, so no request gets the other's. -/
def onReply (server id : Nat) : Request → Answer → Option CallPc
  | _, .error e => some (.returned (.error e))
  | submit s, .handle handle =>
    some (.returned (.ok (.submitted
      ⟨⟨server, handle, s.unique⟩, if s.background then none else some id⟩)))
  | foreground _ unique _, .handle handle => some (.streaming ⟨server, handle, unique⟩ 0)
  | status _, .status found | statusUnique _, .status found =>
    some (.returned (.ok (.status found)))
  | _, _ => none

end Request

/-- One turn of the loop of `submit_fg_unique`; `none` is `continue`. -/
def onEvent (handle : String) : Option JobEvent → Option (Except GearmanError Bytes)
  | some (.complete result) => some (.ok result)
  | some .fail => some (.error (.jobFailed handle))
  | some (.exception payload) => some (.error (.jobException handle payload))
  | some (.status _ _) | some (.data _) | some (.warning _) => none
  | none => some (.error .connectionClosed)

/-- The call ends without handing its event channel on, which is dropped. -/
def CallPc.closes : CallPc → Bool
  | .returned (.ok (.submitted _)) => false
  | .returned _ | .panicked | .dropped => true
  | _ => false

structure Call where
  request : Request
  pc : CallPc
  deriving DecidableEq, Repr

/-- A client with its servers and the calls made so far. -/
structure ClientRun where
  servers : List StreamRun
  calls : List Call
  /-- The client or a clone of it is alive. -/
  alive : Bool

inductive ClientAct
  /-- Somebody calls a method of the client. -/
  | call (request : Request)
  /-- `select_for_submit` returns. What it reads of the servers may change meanwhile,
  so what it returns is an input. -/
  | pick (call : Nat) (server : Option Nat)
  /-- The command is queued. -/
  | send (call : Nat)
  /-- The reply channel is ready. -/
  | reply (call : Nat)
  /-- The event channel is ready. -/
  | next (call : Nat)
  /-- The caller drops the call. -/
  | drop (call : Nat)
  /-- The caller drops the events of a job it has submitted. -/
  | dropEvents (call : Nat)
  /-- The last clone of the client is dropped. -/
  | dropClient
  /-- The actor of a server takes a step. -/
  | server (server : Nat) (act : StreamAct)

/-- The steps an actor takes without its clients. Its command channel ends once
the client is gone. -/
def StreamAct.own (alive : Bool) : StreamAct → Bool
  | .actor (.queue _) | .dropStream _ => false
  | .actor .dropSenders => !alive
  | .actor _ | .tick => true

/-- The receiver of an event channel is dropped. -/
def StreamRun.close (s : StreamRun) (stream : StreamId) : StreamRun :=
  { s with closed := stream :: s.closed }

/-- The actor has a sender of the event channel of a job with this handle. -/
def StreamRun.HoldsSender (s : StreamRun) (stream : StreamId) (handle : String) : Prop :=
  stream ∈ s.server.actor.queue.flatMap ClientCommand.streams ∨
  stream ∈ s.server.actor.pending.flatMap PendingReply.streams ∨
  some stream ∈ (s.server.actor.jobs.of handle).slots

instance (s : StreamRun) (stream : StreamId) (handle : String) :
    Decidable (s.HoldsSender stream handle) :=
  inferInstanceAs (Decidable (_ ∨ _ ∨ _))

namespace ClientRun

/-- A client of this many servers, its actors spawned. -/
def start (servers : Nat) : ClientRun := ⟨List.replicate servers .start, [], true⟩

/-- Call `id` goes on at `pc`, at most with the events of its server dropped. -/
def proceed (r : ClientRun) (id : Nat) (call : Call) (server : Nat) (pc : CallPc) : ClientRun where
  servers :=
    if pc.closes then r.servers.modify server (·.close id) else r.servers
  calls := r.calls.set id { call with pc := pc }
  alive := r.alive

/-- The call is over, or hands on what it got. -/
def settled (call : Call) : Bool :=
  match call.pc with
  | .returned _ | .panicked | .dropped => true
  | _ => false

def step (withExceptions : Bool) (r : ClientRun) : ClientAct → Option ClientRun
  | .call request =>
    if r.alive then
      some { r with calls := r.calls ++ [⟨request, request.start r.calls.length⟩] }
    else none
  | .pick id server =>
    match r.calls[id]? with
    | some ⟨request, .picking s⟩ =>
      match server with
      | none =>
        let pc := .returned (.error .noServersAvailable)
        some { r with calls := r.calls.set id ⟨request, pc⟩ }
      | some server =>
        if server < r.servers.length then
          some { r with calls := r.calls.set id ⟨request, .sending server (s.command id id)⟩ }
        else none
    | _ => none
  | .send id =>
    match r.calls[id]? with
    | some ⟨request, .sending server cmd⟩ =>
      match r.servers[server]? with
      | none => some { r with calls := r.calls.set id ⟨request, .panicked⟩ }
      | some s =>
        match s.server.actor.phase with
        | .returned =>
          some { r with calls := r.calls.set id ⟨request, .returned (.error .connectionClosed)⟩ }
        | _ =>
          (s.step withExceptions (.actor (.queue cmd))).map fun s =>
            { r with
              servers := r.servers.set server s
              calls := r.calls.set id ⟨request, .waiting server⟩ }
    | _ => none
  | .reply id =>
    match r.calls[id]? with
    | some ⟨request, .waiting server⟩ =>
      (r.servers[server]?).bind fun s =>
        ((resolutions s.server.log).lookup id).bind fun answer =>
          (request.onReply server id answer).map fun pc =>
            r.proceed id ⟨request, .waiting server⟩ server pc
    | _ => none
  | .next id =>
    match r.calls[id]? with
    | some ⟨request, .streaming handle taken⟩ =>
      (r.servers[handle.serverIndex]?).bind fun s =>
        let event := (s.yields id)[taken]?
        -- an empty channel ends when the actor has no sender of it
        if event.isNone ∧ s.HoldsSender id handle.handle then none
        else
          let pc :=
            match onEvent handle.handle event with
            | none => .streaming handle (taken + 1)
            | some result => .returned (result.map .result)
          some (r.proceed id ⟨request, .streaming handle taken⟩ handle.serverIndex pc)
    | _ => none
  | .drop id =>
    match r.calls[id]? with
    | some ⟨request, .waiting server⟩ =>
      some (r.proceed id ⟨request, .waiting server⟩ server .dropped)
    | some ⟨request, .streaming handle taken⟩ =>
      some (r.proceed id ⟨request, .streaming handle taken⟩ handle.serverIndex .dropped)
    | _ => none
  | .dropEvents id =>
    match r.calls[id]? with
    | some ⟨_, .returned (.ok (.submitted ⟨handle, some stream⟩))⟩ =>
      some { r with servers := r.servers.modify handle.serverIndex (·.close stream) }
    | _ => none
  | .dropClient => if r.calls.all settled then some { r with alive := false } else none
  | .server k act =>
    if act.own r.alive then
      (r.servers[k]?).bind fun s =>
        (s.step withExceptions act).map fun s => { r with servers := r.servers.set k s }
    else none

end ClientRun

end Gearman.Client

import Gearman.Client.Subscribers

/-!
# Incoming packets

`handle_incoming` matches a packet from the server to the oldest request
waiting for a reply, or to the subscribers of a job. What it does to the
callers' channels is recorded as a list of effects.
-/

namespace Gearman.Client

open Protocol

inductive PendingReply
  | jobCreated (reply : ReplyId) (events : Option StreamId)
  | status (reply : ReplyId)
  | statusUnique (reply : ReplyId)
  deriving DecidableEq, Repr

def PendingReply.reply : PendingReply → ReplyId
  | jobCreated r _ | status r | statusUnique r => r

/-- What a caller is sent on its reply channel. -/
inductive Answer
  | handle (handle : String)
  | status (status : JobStatus)
  | error (e : GearmanError)
  deriving DecidableEq, Repr

/-- What `negotiate_exceptions` takes the first packet after its `OPTION_REQ` for. -/
inductive Negotiation
  | acknowledged
  | rejected (code text : String)
  /-- An unexpected reply, of this type. -/
  | unexpected (ptype : PacketType)
  deriving DecidableEq, Repr

/-- What an actor does to the world outside its own state. -/
inductive Effect
  /-- The packet of this command was handed to `conn.send`. -/
  | handed (reply : ReplyId)
  | replied (reply : ReplyId) (answer : Answer)
  /-- The reply channel was dropped unused: its caller sees `ConnectionClosed`. -/
  | dropped (reply : ReplyId)
  | event (stream : StreamId) (event : JobEvent)
  | warn (message : String)
  /-- `negotiate_exceptions` has read a packet, and logs what is no acknowledgement. -/
  | negotiated (reply : Negotiation)
  deriving DecidableEq, Repr

/-- The local state of `actor_loop`. -/
structure LoopState where
  pending : List PendingReply
  jobs : JobEventSubscribers

def LoopState.new : LoopState := ⟨[], .new⟩

/-! ## Parsing -/

/-- `packet.arg_str(i).and_then(|s| s.parse().ok()).unwrap_or(0)` at `u64`. -/
def argU64 (packet : Packet) (index : Nat) : UInt64 :=
  ((packet.argStr index).bind parseU64).getD 0

/-- `parse_status_res`. -/
def parseStatusRes (packet : Packet) : JobStatus where
  known := packet.argStr 1 = some "1"
  running := packet.argStr 2 = some "1"
  numerator := argU64 packet 3
  denominator := argU64 packet 4
  clientCount := none

/-- `parse_status_res_unique`. -/
def parseStatusResUnique (packet : Packet) : JobStatus where
  known := packet.argStr 1 = some "1"
  running := packet.argStr 2 = some "1"
  numerator := argU64 packet 3
  denominator := argU64 packet 4
  clientCount := (packet.argStr 5).bind parseU32

/-- The `ServerError` of an `ERROR` packet. -/
def serverError (packet : Packet) : GearmanError :=
  .serverError ((packet.argStr 0).getD "") ((packet.argStr 1).getD "")

/-- The `WORK_*` types `handle_incoming` passes on to `dispatch_work_event`. -/
def isWork : PacketType → Bool
  | .workStatus | .workComplete | .workFail | .workData | .workWarning | .workException => true
  | _ => false

/-- The types after which a job sends no more events. -/
def isTerminal : PacketType → Bool
  | .workComplete | .workFail | .workException => true
  | _ => false

/-- The event a `WORK_*` packet stands for; `none` where the source is `unreachable!`. -/
def jobEvent (packet : Packet) : Option JobEvent :=
  match packet.ptype with
  | .workStatus => some (.status (argU64 packet 1) (argU64 packet 2))
  | .workComplete => some (.complete (packet.args[1]?.getD []))
  | .workFail => some .fail
  | .workData => some (.data (packet.args[1]?.getD []))
  | .workWarning => some (.warning (packet.args[1]?.getD []))
  | .workException => some (.exception (packet.args[1]?.getD []))
  | _ => none

/-! ## Dispatch -/

/-- `dispatch_work_event`. -/
def dispatchWorkEvent (packet : Packet) (jobs : JobEventSubscribers) :
    JobEventSubscribers × List Effect :=
  match packet.argStr 0, jobEvent packet with
  | some handle, some event =>
    match jobs handle with
    | none => (jobs, [])
    | some subs =>
      let (remain, subs, stream) := subs.deliver (isTerminal packet.ptype)
      (Function.update jobs handle (if remain then some subs else none),
        (stream.map fun s => Effect.event s event).toList)
  | _, _ => (jobs, [])

/-- `handle_incoming`. -/
def handleIncoming (packet : Packet) (s : LoopState) : LoopState × List Effect :=
  match packet.ptype with
  | .jobCreated =>
    match s.pending with
    | .jobCreated reply events :: pending =>
      let handle := (packet.argStr 0).getD ""
      let jobs := match events with
        | some sender => s.jobs.add handle sender
        | none => s.jobs
      (⟨pending, jobs⟩, [.replied reply (.handle handle)])
    | other :: pending =>
      (⟨pending, s.jobs⟩,
        [.dropped other.reply, .warn "unexpected JOB_CREATED with no pending submit"])
    | [] => (s, [.warn "unexpected JOB_CREATED with no pending submit"])
  | .statusRes =>
    match s.pending with
    | .status reply :: pending =>
      (⟨pending, s.jobs⟩, [.replied reply (.status (parseStatusRes packet))])
    | other :: pending =>
      (⟨pending, s.jobs⟩,
        [.dropped other.reply, .warn "unexpected STATUS_RES with no pending request"])
    | [] => (s, [.warn "unexpected STATUS_RES with no pending request"])
  | .statusResUnique =>
    match s.pending with
    | .statusUnique reply :: pending =>
      (⟨pending, s.jobs⟩, [.replied reply (.status (parseStatusResUnique packet))])
    | other :: pending =>
      (⟨pending, s.jobs⟩,
        [.dropped other.reply, .warn "unexpected STATUS_RES_UNIQUE with no pending request"])
    | [] => (s, [.warn "unexpected STATUS_RES_UNIQUE with no pending request"])
  | .error =>
    match s.pending with
    | oldest :: pending =>
      (⟨pending, s.jobs⟩, [.replied oldest.reply (.error (serverError packet))])
    | [] => (s, [.warn "unsolicited ERROR from job server"])
  | .workStatus | .workComplete | .workFail | .workData | .workWarning | .workException =>
    let (jobs, effects) := dispatchWorkEvent packet s.jobs
    (⟨s.pending, jobs⟩, effects)
  | _ => (s, [])

/-- `fail_all_pending`. -/
def failAllPending (pending : List PendingReply) : List Effect :=
  pending.map fun p => .replied p.reply (.error .connectionClosed)

end Gearman.Client

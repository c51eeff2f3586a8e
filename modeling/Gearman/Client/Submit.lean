import Gearman.Protocol.Packet
import Gearman.Client.Job

/-!
# Requests of the public API

`Client::submit` and its relatives build an argument list and hand it to
`submit_packet`, which makes a request packet of it and sends it to a server
actor together with the channels its answer goes to.
-/

namespace Gearman.Client

open Protocol

/-- What the submitting functions hand to `submit_packet`. -/
structure Submission where
  ptype : PacketType
  args : List Bytes
  unique : Option String
  background : Bool
  deriving DecidableEq, Repr

/-- `submit_packet_type`. -/
def submitPacketType : Priority → Bool → PacketType
  | .normal, false => .submitJob
  | .normal, true => .submitJobBg
  | .high, false => .submitJobHigh
  | .high, true => .submitJobHighBg
  | .low, false => .submitJobLow
  | .low, true => .submitJobLowBg

/-- `Client::submit`. -/
def submit (function : String) (unique : Option String) (payload : Bytes) (opts : SubmitOptions) :
    Submission where
  ptype := submitPacketType opts.priority opts.background
  args := [asBytes function, asBytes (unique.getD ""), payload]
  unique := unique
  background := opts.background

/-- `Client::submit_epoch`. -/
def submitEpoch (function : String) (unique : Option String) (epoch : UInt64) (payload : Bytes) :
    Submission where
  ptype := .submitJobEpoch
  args := [asBytes function, asBytes (unique.getD ""), asBytes (decimal epoch.toNat), payload]
  unique := unique
  background := true

/-- `Client::submit_reduce_job`. -/
def submitReduceJob (function : String) (unique : Option String) (reducer : String)
    (payload : Bytes) (background : Bool) : Submission where
  ptype := if background then .submitReduceJobBackground else .submitReduceJob
  -- the fourth field is a real field on the wire, ignored by the server
  args := [asBytes function, asBytes (unique.getD ""), asBytes reducer, [], payload]
  unique := unique
  background := background

/-- The packet `submit_packet` sends. -/
def Submission.packet (s : Submission) : Packet := .request s.ptype s.args

/-- The reply channel of one command. -/
abbrev ReplyId := Nat

/-- The event channel of one foreground submission. -/
abbrev StreamId := Nat

/-- A request from a `Client` to the actor of one server. -/
inductive ClientCommand
  | submit (packet : Packet) (reply : ReplyId) (events : Option StreamId)
  | status (packet : Packet) (reply : ReplyId)
  | statusUnique (packet : Packet) (reply : ReplyId)
  deriving DecidableEq, Repr

namespace ClientCommand

def packet : ClientCommand → Packet
  | submit p _ _ | status p _ | statusUnique p _ => p

def reply : ClientCommand → ReplyId
  | submit _ r _ | status _ r | statusUnique _ r => r

end ClientCommand

/-- The command `submit_packet` queues. Only foreground jobs get an event channel. -/
def Submission.command (s : Submission) (reply : ReplyId) (events : StreamId) : ClientCommand :=
  .submit s.packet reply (if s.background then none else some events)

/-- The command `Client::get_status` queues. -/
def getStatus (handle : JobHandle) (reply : ReplyId) : ClientCommand :=
  .status (.request .getStatus [asBytes handle.handle]) reply

/-- The command `Client::get_status_unique` queues. -/
def getStatusUnique (handle : JobHandle) (reply : ReplyId) : Except GearmanError ClientCommand :=
  match handle.unique with
  | none => .error (.noUniqueId handle.handle)
  | some unique => .ok (.statusUnique (.request .getStatusUnique [asBytes unique]) reply)

end Gearman.Client

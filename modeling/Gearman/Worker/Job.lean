import Gearman.Protocol.Packet

/-!
# Jobs as a worker sees them
-/

namespace Gearman.Worker

open Protocol

inductive WorkError
  | fail
  | exception (payload : Bytes)
  deriving DecidableEq, Repr

/-- A job as its handler gets it, less the `Reporter`. -/
structure WorkerJob where
  handle : String
  function : String
  unique : Option String
  reducer : Option String
  payload : Bytes
  deriving DecidableEq, Repr

/-- What a `Reporter` is asked to send. -/
inductive Report
  | status (numerator denominator : UInt64)
  | data (bytes : Bytes)
  | warning (bytes : Bytes)
  deriving DecidableEq, Repr

/-- The packet of a report: `report_status`, `send_data` and `warn`. -/
def Report.packet (handle : String) : Report → Packet
  | status numerator denominator =>
    .request .workStatus
      [asBytes handle, asBytes (decimal numerator.toNat), asBytes (decimal denominator.toNat)]
  | data bytes => .request .workData [asBytes handle, bytes]
  | warning bytes => .request .workWarning [asBytes handle, bytes]

/-- The `JOB_ASSIGN*` types. -/
def isAssign : PacketType → Bool
  | .jobAssign | .jobAssignUniq | .jobAssignAll => true
  | _ => false

/-- What `dispatch_job` reads off an assignment. -/
def assignedJob (pkt : Packet) : WorkerJob where
  handle := (pkt.argStr 0).getD ""
  function := (pkt.argStr 1).getD ""
  unique :=
    match pkt.ptype with
    | .jobAssignAll | .jobAssignUniq => pkt.argStr 2
    | _ => none
  reducer :=
    match pkt.ptype with
    | .jobAssignAll => pkt.argStr 3
    | _ => none
  payload :=
    match pkt.ptype with
    | .jobAssignAll => pkt.args[4]?.getD []
    | .jobAssignUniq => pkt.args[3]?.getD []
    | _ => pkt.args[2]?.getD []

/-- What `dispatch_job` answers when a handler returns. -/
def jobResponse (handle : String) : Except WorkError Bytes → Packet
  | .ok payload => .request .workComplete [asBytes handle, payload]
  | .error .fail => .request .workFail [asBytes handle]
  | .error (.exception payload) => .request .workException [asBytes handle, payload]

/-- What `dispatch_job` answers when no handler is registered. -/
def unregisteredResponse (handle : String) : Packet := .request .workFail [asBytes handle]

end Gearman.Worker

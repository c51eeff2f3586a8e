import Gearman.Text

/-!
# Jobs as the client sees them
-/

namespace Gearman.Client

inductive Priority
  | high
  | normal
  | low
  deriving DecidableEq, Repr

structure SubmitOptions where
  priority : Priority
  background : Bool
  deriving DecidableEq, Repr

/-- `SubmitOptions::default`, which is also `SubmitOptions::foreground`. -/
def SubmitOptions.foreground : SubmitOptions := ⟨.normal, false⟩

/-- `SubmitOptions::background`. -/
def SubmitOptions.inBackground : SubmitOptions := ⟨.normal, true⟩

/-- A job handle with the server that issued it. -/
structure JobHandle where
  serverIndex : Nat
  handle : String
  unique : Option String
  deriving DecidableEq, Repr

/-- One `WORK_*` event of a foreground job. -/
inductive JobEvent
  | status (numerator denominator : UInt64)
  | data (payload : Bytes)
  | warning (payload : Bytes)
  | complete (payload : Bytes)
  | fail
  | exception (payload : Bytes)
  deriving DecidableEq, Repr

/-- A `GET_STATUS`/`GET_STATUS_UNIQUE` response. -/
structure JobStatus where
  known : Bool
  running : Bool
  numerator : UInt64
  denominator : UInt64
  clientCount : Option UInt32
  deriving DecidableEq, Repr

end Gearman.Client

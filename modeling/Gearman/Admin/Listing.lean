import Gearman.Admin.Line

/-!
# Listings

The rows of the multi-line replies, and the operations that ask for them. A
parser takes its fields from the front of what is left of the line, and reports
the whole line when a field is missing or no number.
-/

namespace Gearman.Admin

structure WorkerInfo where
  fd : Int32
  ip : String
  clientId : String
  functions : List String
  deriving DecidableEq, Repr

structure FunctionStatus where
  function : String
  total : UInt64
  running : UInt64
  workerCount : UInt64
  deriving DecidableEq, Repr

structure PriorityFunctionStatus where
  function : String
  high : UInt64
  normal : UInt64
  low : UInt64
  workerCount : UInt64
  deriving DecidableEq, Repr

structure JobListEntry where
  handle : String
  retries : UInt32
  ignoreJob : Bool
  queued : Bool
  deriving DecidableEq, Repr

structure UniqueJobEntry where
  handle : Option String
  unique : String
  deriving DecidableEq, Repr

/-! ## Parsing -/

/-- `next_field` and `next_field2`. -/
def nextField (fields : List String) (line : String) :
    Except GearmanError (String × List String) :=
  match fields with
  | [] => .error (.adminProtocolError line)
  | field :: fields => .ok (field, fields)

/-- A number, or the error of the line it stands in. -/
def parsed {α : Type} (value : Option α) (line : String) : Except GearmanError α :=
  match value with
  | none => .error (.adminProtocolError line)
  | some n => .ok n

@[simp] theorem nextField_cons (field : String) (fields : List String) (line : String) :
    nextField (field :: fields) line = .ok (field, fields) := rfl

@[simp] theorem parsed_some {α : Type} (value : α) (line : String) :
    parsed (some value) line = .ok value := rfl

@[simp] theorem ok_bind {α β : Type} (a : α) (f : α → Except GearmanError β) :
    (Except.ok a >>= f) = f a := rfl

/-- `parse_status_line`. -/
def parseStatusLine (line : String) : Except GearmanError FunctionStatus := do
  let fields := split '\t' line
  let (function, fields) ← nextField fields line
  let (field, fields) ← nextField fields line
  let total ← parsed (parseU64 field) line
  let (field, fields) ← nextField fields line
  let running ← parsed (parseU64 field) line
  let (field, _) ← nextField fields line
  let workerCount ← parsed (parseU64 field) line
  return ⟨function, total, running, workerCount⟩

/-- `parse_priority_status_line`. -/
def parsePriorityStatusLine (line : String) : Except GearmanError PriorityFunctionStatus := do
  let fields := split '\t' line
  let (function, fields) ← nextField fields line
  let (field, fields) ← nextField fields line
  let high ← parsed (parseU64 field) line
  let (field, fields) ← nextField fields line
  let normal ← parsed (parseU64 field) line
  let (field, fields) ← nextField fields line
  let low ← parsed (parseU64 field) line
  let (field, _) ← nextField fields line
  let workerCount ← parsed (parseU64 field) line
  return ⟨function, high, normal, low, workerCount⟩

/-- `parse_job_list_line`. -/
def parseJobListLine (line : String) : Except GearmanError JobListEntry := do
  let fields := split '\t' line
  let (handle, fields) ← nextField fields line
  let (field, fields) ← nextField fields line
  let retries ← parsed (parseU32 field) line
  let (ignoreJob, fields) ← nextField fields line
  let (queued, _) ← nextField fields line
  return ⟨handle, retries, ignoreJob ≠ "0", queued ≠ "0"⟩

/-- `parse_unique_job_line`. -/
def parseUniqueJobLine (line : String) : UniqueJobEntry :=
  match splitOnce '\t' line with
  | some (handle, unique) => ⟨some handle, unique⟩
  | none => ⟨none, line⟩

/-- `parse_worker_line`. -/
def parseWorkerLine (line : String) : Except GearmanError WorkerInfo := do
  let fields := splitWhitespace line
  let (field, fields) ← nextField fields line
  let fd ← parsed (parseI32 field) line
  let (ip, fields) ← nextField fields line
  let (clientId, fields) ← nextField fields line
  let (delimiter, functions) ← nextField fields line
  if delimiter ≠ ":" then
    throw (.adminProtocolError line)
  return ⟨fd, ip, clientId, functions⟩

/-! ## Operations -/

namespace AdminClient

/-- The operations whose reply is a listing. -/
def listing {α : Type} (command : String) (parse : String → Except GearmanError α)
    (client : AdminClient) (io : Io) : Except GearmanError (List α) × AdminClient :=
  match client.sendLine command io with
  | (.error e, client) => (.error e, client)
  | (.ok (), client) =>
    match client.readDotTerminated with
    | (.error e, client) => (.error e, client)
    | (.ok lines, client) => (lines.mapM parse, client)

/-- `AdminClient::status`. -/
def status : AdminClient → Io → Except GearmanError (List FunctionStatus) × AdminClient :=
  listing "status" parseStatusLine

/-- `AdminClient::workers`. -/
def workers : AdminClient → Io → Except GearmanError (List WorkerInfo) × AdminClient :=
  listing "workers" parseWorkerLine

/-- `AdminClient::priority_status`. -/
def priorityStatus :
    AdminClient → Io → Except GearmanError (List PriorityFunctionStatus) × AdminClient :=
  listing "prioritystatus" parsePriorityStatusLine

/-- `AdminClient::show_jobs`. -/
def showJobs : AdminClient → Io → Except GearmanError (List JobListEntry) × AdminClient :=
  listing "show jobs" parseJobListLine

/-- `AdminClient::show_unique_jobs`. -/
def showUniqueJobs : AdminClient → Io → Except GearmanError (List UniqueJobEntry) × AdminClient :=
  listing "show unique jobs" fun line => .ok (parseUniqueJobLine line)

end AdminClient

example : (parseStatusLine "reverse\t3\t1").toOption = none := by decide
example : parseUniqueJobLine "H:lap:1\ta\tb" = ⟨some "H:lap:1", "a\tb"⟩ := by decide

end Gearman.Admin

import Gearman.Admin.Line

/-!
# Single-line replies

The operations that the server answers with one line, `OK`, `OK <value>` or
`ERR <CODE> <text>`.
-/

namespace Gearman.Admin

inductive MaxQueueSize
  | default
  | uniform (n : UInt32)
  | perPriority (high normal low : UInt32)
  deriving DecidableEq, Repr

/-- `parse_ack_line`. -/
def parseAckLine (line : String) : Except GearmanError (Option String) :=
  match stripPrefix "OK" line with
  | some rest =>
    let rest := trimStart rest
    .ok (if rest = "" then none else some rest)
  | none =>
    match stripPrefix "ERR" line with
    | some rest =>
      let rest := trimStart rest
      -- `splitn(2, ' ')`
      match splitOnce ' ' rest with
      | some (code, text) => .error (.serverError code text)
      | none => .error (.serverError rest "")
    | none => .error (.adminProtocolError line)

example : parseAckLine "OK" = .ok none := by decide
example : parseAckLine "ERR UNKNOWN_COMMAND Unknown+server+command" =
    .error (.serverError "UNKNOWN_COMMAND" "Unknown+server+command") := by decide

namespace AdminClient

/-- `read_ack`. -/
def readAck (client : AdminClient) : Except GearmanError (Option String) × AdminClient :=
  match client.readLine with
  | (.error e, client) => (.error e, client)
  | (.ok line, client) => (parseAckLine line, client)

/-- `read_ack_value`. -/
def readAckValue (client : AdminClient) : Except GearmanError String × AdminClient :=
  match client.readAck with
  | (.error e, client) => (.error e, client)
  | (.ok none, client) => (.error (.adminProtocolError "OK"), client)
  | (.ok (some value), client) => (.ok value, client)

/-- The operations that are acknowledged. -/
def acknowledged (command : String) (client : AdminClient) (io : Io) :
    Except GearmanError Unit × AdminClient :=
  match client.sendLine command io with
  | (.error e, client) => (.error e, client)
  | (.ok (), client) =>
    match client.readAck with
    | (.error e, client) => (.error e, client)
    | (.ok _, client) => (.ok (), client)

/-- The operations that are answered with a value. -/
def valued {α : Type} (command : String) (parse : String → Except GearmanError α)
    (client : AdminClient) (io : Io) : Except GearmanError α × AdminClient :=
  match client.sendLine command io with
  | (.error e, client) => (.error e, client)
  | (.ok (), client) =>
    match client.readAckValue with
    | (.error e, client) => (.error e, client)
    | (.ok value, client) => (parse value, client)

/-- `AdminClient::cancel_job`. -/
def cancelJob (handle : String) : AdminClient → Io → Except GearmanError Unit × AdminClient :=
  acknowledged s!"cancel job {handle}"

/-- `AdminClient::create_function`. -/
def createFunction (name : String) : AdminClient → Io → Except GearmanError Unit × AdminClient :=
  acknowledged s!"create function {name}"

/-- `AdminClient::drop_function`. -/
def dropFunction (name : String) : AdminClient → Io → Except GearmanError Unit × AdminClient :=
  acknowledged s!"drop function {name}"

/-- The `cmd` of `set_max_queue`. -/
def maxQueueCommand (function : String) : MaxQueueSize → String
  | .default => s!"maxqueue {function}"
  | .uniform n => s!"maxqueue {function} {decimal n.toNat}"
  | .perPriority high normal low =>
    s!"maxqueue {function} {decimal high.toNat} {decimal normal.toNat} {decimal low.toNat}"

/-- `AdminClient::set_max_queue`. -/
def setMaxQueue (function : String) (size : MaxQueueSize) :
    AdminClient → Io → Except GearmanError Unit × AdminClient :=
  acknowledged (maxQueueCommand function size)

/-- The parse of `getpid`. -/
def parsePid (value : String) : Except GearmanError UInt32 :=
  match parseU32 value with
  | some pid => .ok pid
  | none => .error (.adminProtocolError s!"OK {value}")

/-- `AdminClient::getpid`. -/
def getpid : AdminClient → Io → Except GearmanError UInt32 × AdminClient :=
  valued "getpid" parsePid

/-- `AdminClient::verbose`. -/
def verbose : AdminClient → Io → Except GearmanError String × AdminClient :=
  valued "verbose" .ok

/-- `AdminClient::version`. -/
def version : AdminClient → Io → Except GearmanError String × AdminClient :=
  valued "version" .ok

end AdminClient

end Gearman.Admin

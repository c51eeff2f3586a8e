import Gearman.Admin.Text
import Gearman.Conn

/-!
# Lines of the admin protocol

How an `AdminClient` sends a command line and reads reply lines. Everything the
peer has sent and will send before it closes the connection is in `unread`; the
bytes a read takes are gone from it, also if the read fails.
-/

namespace Gearman.Admin

/-- `MAX_ADMIN_LINE_LEN`. -/
def maxAdminLineLen : Nat := 64 * 1024

structure AdminClient where
  /-- What the peer sends and has not been read. -/
  unread : Bytes
  /-- The lines written in full. -/
  written : Bytes
  deriving DecidableEq, Repr

/-- `read_until` a line feed on `take(n)`: what is read, and what is left. -/
def readUntil : Nat → Bytes → Bytes × Bytes
  | 0, src => ([], src)
  | _ + 1, [] => ([], [])
  | n + 1, b :: src =>
    if b = 10 then ([b], src)
    else
      let (line, src) := readUntil n src
      (b :: line, src)

namespace AdminClient

/-- `send_line`. -/
def sendLine (client : AdminClient) (line : String) (io : Io) :
    Except GearmanError Unit × AdminClient :=
  match io with
  | .accepted => (.ok (), { client with written := client.written ++ asBytes line ++ [13, 10] })
  | .failed => (.error .io, client)

/-- `read_line`. -/
def readLine (client : AdminClient) : Except GearmanError String × AdminClient :=
  let (raw, unread) := readUntil maxAdminLineLen client.unread
  let client := { client with unread := unread }
  match fromUtf8 raw with
  | none => (.error .io, client)
  | some line =>
    if raw.length = 0 then (.error .connectionClosed, client)
    else if !endsWith line '\n' && decide (maxAdminLineLen ≤ raw.length) then
      (.error (.adminLineTooLong maxAdminLineLen), client)
    else (.ok (trimLineEnd line), client)

/-- The loop of `read_dot_terminated`, for at most `n` lines. -/
def readLines : Nat → AdminClient → Except GearmanError (List String) × AdminClient
  | 0, client => (.error .connectionClosed, client)
  | n + 1, client =>
    match client.readLine with
    | (.error e, client) => (.error e, client)
    | (.ok line, client) =>
      if line = "." then (.ok [], client)
      else
        match readLines n client with
        | (.error e, client) => (.error e, client)
        | (.ok lines, client) => (.ok (line :: lines), client)

/-- `read_dot_terminated`. Each line takes a byte, so one turn for each byte and
one to find that none is left do. -/
def readDotTerminated (client : AdminClient) : Except GearmanError (List String) × AdminClient :=
  readLines (client.unread.length + 1) client

end AdminClient

end Gearman.Admin

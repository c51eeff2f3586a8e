import Gearman.Admin.Text
import Gearman.Error
import Gearman.Lib.IpLiteral

/-!
# Addresses of servers

Where `net::connect` goes for a `host:port`, as the standard library reads it, and
the name a TLS certificate is checked against. The ring takes the same text apart
with `splitHostPort`.
-/

namespace Gearman

open Admin (stripPrefix splitOnce)

/-- `str::rsplit_once` at a character. -/
def rsplitOnce (sep : Char) (s : String) : Option (String × String) :=
  (Delimited.cut sep s.toList.reverse).map fun p => (.ofList p.2.reverse, .ofList p.1.reverse)

/-- `str::strip_suffix`. -/
def stripSuffix (tail s : String) : Option String :=
  if tail.toList.isSuffixOf s.toList then
    some (.ofList (s.toList.take (s.toList.length - tail.toList.length)))
  else none

/-- The port of a socket address literal: digits only, leading zeros allowed. -/
def readPort (s : String) : Option UInt16 := if s.toList.all Char.isDigit then parseU16 s else none

/-- `Ipv6Addr` with or without a `%` and a numeric scope. -/
def isScopedIpv6 (s : String) : Bool :=
  match splitOnce '%' s with
  | none => IpLiteral.isIpv6 s.toList
  | some (ip, scope) =>
    IpLiteral.isIpv6 ip.toList && scope.toList.all Char.isDigit && (parseU32 scope).isSome

/-- `str::parse` at `SocketAddr`: the address as it is written, and the port. -/
def parseSocketAddr (s : String) : Option (String × UInt16) :=
  match stripPrefix "[" s with
  | some rest =>
    (splitOnce ']' rest).bind fun (ip, port) =>
      if isScopedIpv6 ip then (stripPrefix ":" port).bind readPort |>.map fun port => (ip, port)
      else none
  | none =>
    (splitOnce ':' s).bind fun (ip, port) =>
      if IpLiteral.isIpv4 ip.toList then (readPort port).map fun port => (ip, port) else none

/-- `ToSocketAddrs` of a string, up to the lookup of the host: a socket address
literal is taken as it is, anything else is split at its last colon. -/
def toSocketAddrs (s : String) : Option (String × UInt16) :=
  match parseSocketAddr s with
  | some addr => some addr
  | none =>
    (rsplitOnce ':' s).bind fun (host, port) => (parseU16 port).map fun port => (host, port)

/-- `tls::server_name`; `tryFrom` is `ServerName::try_from` of the TLS library. -/
def serverName {Name : Type} (tryFrom : String → Option Name) (addr : String) :
    Except GearmanError Name :=
  let host := ((rsplitOnce ':' addr).map Prod.fst).getD addr
  let host := ((stripPrefix "[" host).bind (stripSuffix "]")).getD host
  match tryFrom host with
  | some name => .ok name
  | none => .error (.invalidServerName host)

example : toSocketAddrs "[::1]:4730" = some ("::1", 4730) := by decide
example : serverName some "[::1]:4730" = .ok "::1" := by decide

end Gearman

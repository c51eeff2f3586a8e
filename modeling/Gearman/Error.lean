import Gearman.Text
import Gearman.Protocol.PacketType

/-!
# The crate's error type
-/

namespace Gearman

open Protocol (PacketType)

/-- The errors the modelled operations return. The content of an I/O error is
never inspected, so it carries none here. -/
inductive GearmanError
  | io
  | badMagic (magic : Bytes)
  | unknownPacketType (value : UInt32)
  | payloadTooLarge (len : UInt32)
  | malformedBody (ptype : PacketType) (reason : String)
  | wrongArgCount (ptype : PacketType) (expected actual : Nat)
  | serverError (code text : String)
  | jobFailed (handle : String)
  | jobException (handle : String) (payload : Bytes)
  | noServersAvailable
  | noUniqueId (handle : String)
  | connectionClosed
  | adminProtocolError (line : String)
  | adminLineTooLong (max : Nat)
  | invalidServerName (host : String)
  deriving DecidableEq, Repr

end Gearman

/-!
# The packet types of the wire protocol
-/

namespace Gearman.Protocol

/-- Gearman wire packet types. Types 0 and 5 have no variant. -/
inductive PacketType
  | canDo | cantDo | resetAbilities | preSleep | noop | submitJob | jobCreated | grabJob
  | noJob | jobAssign | workStatus | workComplete | workFail | getStatus | echoReq | echoRes
  | submitJobBg | error | statusRes | submitJobHigh | setClientId | canDoTimeout | allYours
  | workException | optionReq | optionRes | workData | workWarning | grabJobUniq
  | jobAssignUniq | submitJobHighBg | submitJobLow | submitJobLowBg | submitJobSched
  | submitJobEpoch | submitReduceJob | submitReduceJobBackground | grabJobAll | jobAssignAll
  | getStatusUnique | statusResUnique
  deriving DecidableEq, Repr

end Gearman.Protocol

import Gearman.Error

/-!
# Wire codes and argument counts
-/

namespace Gearman.Protocol

/-- `GEARMAN_COMMAND_MAX`. -/
def commandMax : UInt32 := 43

namespace PacketType

/-- `From<PacketType> for u32`: the discriminants of the enum. -/
def toU32 : PacketType → UInt32
  | canDo => 1
  | cantDo => 2
  | resetAbilities => 3
  | preSleep => 4
  | noop => 6
  | submitJob => 7
  | jobCreated => 8
  | grabJob => 9
  | noJob => 10
  | jobAssign => 11
  | workStatus => 12
  | workComplete => 13
  | workFail => 14
  | getStatus => 15
  | echoReq => 16
  | echoRes => 17
  | submitJobBg => 18
  | error => 19
  | statusRes => 20
  | submitJobHigh => 21
  | setClientId => 22
  | canDoTimeout => 23
  | allYours => 24
  | workException => 25
  | optionReq => 26
  | optionRes => 27
  | workData => 28
  | workWarning => 29
  | grabJobUniq => 30
  | jobAssignUniq => 31
  | submitJobHighBg => 32
  | submitJobLow => 33
  | submitJobLowBg => 34
  | submitJobSched => 35
  | submitJobEpoch => 36
  | submitReduceJob => 37
  | submitReduceJobBackground => 38
  | grabJobAll => 39
  | jobAssignAll => 40
  | getStatusUnique => 41
  | statusResUnique => 42

/-- `TryFrom<u32> for PacketType`. -/
def tryFrom (value : UInt32) : Except GearmanError PacketType :=
  match value with
  | 1 => .ok canDo
  | 2 => .ok cantDo
  | 3 => .ok resetAbilities
  | 4 => .ok preSleep
  | 6 => .ok noop
  | 7 => .ok submitJob
  | 8 => .ok jobCreated
  | 9 => .ok grabJob
  | 10 => .ok noJob
  | 11 => .ok jobAssign
  | 12 => .ok workStatus
  | 13 => .ok workComplete
  | 14 => .ok workFail
  | 15 => .ok getStatus
  | 16 => .ok echoReq
  | 17 => .ok echoRes
  | 18 => .ok submitJobBg
  | 19 => .ok error
  | 20 => .ok statusRes
  | 21 => .ok submitJobHigh
  | 22 => .ok setClientId
  | 23 => .ok canDoTimeout
  | 24 => .ok allYours
  | 25 => .ok workException
  | 26 => .ok optionReq
  | 27 => .ok optionRes
  | 28 => .ok workData
  | 29 => .ok workWarning
  | 30 => .ok grabJobUniq
  | 31 => .ok jobAssignUniq
  | 32 => .ok submitJobHighBg
  | 33 => .ok submitJobLow
  | 34 => .ok submitJobLowBg
  | 35 => .ok submitJobSched
  | 36 => .ok submitJobEpoch
  | 37 => .ok submitReduceJob
  | 38 => .ok submitReduceJobBackground
  | 39 => .ok grabJobAll
  | 40 => .ok jobAssignAll
  | 41 => .ok getStatusUnique
  | 42 => .ok statusResUnique
  | other => .error (.unknownPacketType other)

/-- Number of NUL-separated arguments of a packet type's payload. -/
def argCount : PacketType → Nat
  | resetAbilities | preSleep | noop | grabJob | noJob | allYours | grabJobUniq
  | grabJobAll => 0
  | canDo | cantDo | jobCreated | workFail | getStatus | echoReq | echoRes | setClientId
  | optionReq | optionRes | getStatusUnique => 1
  | error | canDoTimeout | workComplete | workException | workData | workWarning => 2
  | submitJob | submitJobBg | submitJobHigh | submitJobHighBg | submitJobLow
  | submitJobLowBg | workStatus | jobAssign => 3
  | submitJobEpoch | jobAssignUniq => 4
  | submitReduceJob | submitReduceJobBackground | jobAssignAll | statusRes => 5
  | statusResUnique => 6
  | submitJobSched => 8

theorem tryFrom_toU32 (t : PacketType) : tryFrom t.toU32 = .ok t := by
  cases t <;> rfl

/-- The wire codes and the variants are in bijection: a code decodes to the
type whose code it is, and to nothing else. -/
theorem tryFrom_eq_ok {value : UInt32} {t : PacketType} :
    tryFrom value = .ok t ↔ value = t.toU32 := by
  constructor
  · intro h
    unfold tryFrom at h
    split at h <;> cases h <;> rfl
  · rintro rfl
    exact tryFrom_toU32 t

/-- The assigned codes: all from 1 up to `GEARMAN_COMMAND_MAX`, except 5. -/
theorem exists_tryFrom_eq_ok {value : UInt32} :
    (∃ t, tryFrom value = .ok t) ↔ 0 < value ∧ value ≠ 5 ∧ value < commandMax := by
  constructor
  · intro ⟨t, ht⟩
    rw [tryFrom_eq_ok.mp ht]
    cases t <;> decide
  · intro ⟨hpos, hunused, hlt⟩
    have hcodes : ∀ n : Fin 43, 0 < n.val → n.val ≠ 5 →
        (tryFrom (UInt32.ofNat n.val)).toOption.isSome = true := by decide
    have hvalue : value.toNat < 43 := UInt32.lt_iff_toNat_lt.mp hlt
    have hfive : value.toNat ≠ 5 := fun h => hunused (UInt32.toNat_inj.mp h)
    have hsome := hcodes ⟨value.toNat, hvalue⟩ (UInt32.lt_iff_toNat_lt.mp hpos) hfive
    rw [UInt32.ofNat_toNat] at hsome
    cases h : tryFrom value with
    | ok t => exact ⟨t, rfl⟩
    | error e =>
      rw [h] at hsome
      cases hsome

end PacketType

end Gearman.Protocol

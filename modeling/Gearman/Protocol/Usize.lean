import Gearman.Lib.MachineWord
import Gearman.Protocol.Codec

/-!
# The codec on a target

`decode` and `encode` with the arithmetic of `usize` and the bounds of their buffers:
`none` is a panic. An addition that overflows panics in a build with overflow checks
and wraps in one without. Slicing, `advance` and `split_to` panic out of bounds, and
every growth of a buffer panics where the target cannot hold it.
-/

namespace Gearman.Protocol

/-- A build of the crate: the width of `usize`, whether overflow is checked for, and
the lengths a `BytesMut` can grow to. -/
structure Target where
  usize : MachineWord
  width : usize.bits = 32 ∨ usize.bits = 64
  canHold : Nat → Bool
  /-- A length is a `usize`. -/
  held : ∀ n, canHold n = true → n < 2 ^ usize.bits

/-- Buffers grow up to `isize::MAX`. -/
def Target.ofBits (bits : Nat) (width : bits = 32 ∨ bits = 64) (overflowChecks : Bool) :
    Target where
  usize := ⟨bits, overflowChecks⟩
  width := width
  canHold n := decide (n < 2 ^ (bits - 1))
  held _ h := Nat.lt_of_lt_of_le (of_decide_eq_true h)
    (Nat.pow_le_pow_right Nat.zero_lt_two (Nat.sub_le bits 1))

/-! ## Buffers -/

/-- `src[start..stop]`. -/
def slice (start stop : Nat) (src : Bytes) : Option Bytes :=
  if start ≤ stop ∧ stop ≤ src.length then some ((src.drop start).take (stop - start)) else none

/-- `Buf::advance`. -/
def advance (n : Nat) (src : Bytes) : Option Bytes :=
  if n ≤ src.length then some (src.drop n) else none

/-- `split_to`: what is split off, and what is left. -/
def splitTo (n : Nat) (src : Bytes) : Option (Bytes × Bytes) :=
  if n ≤ src.length then some (src.take n, src.drop n) else none

namespace Target

/-- `BytesMut::reserve`. -/
def reserve (target : Target) (buf : Bytes) (additional : Nat) : Option Unit :=
  if target.canHold (buf.length + additional) then some () else none

/-- `extend_from_slice`, and `put_u8` of one byte. -/
def extend (target : Target) (dst bytes : Bytes) : Option Bytes :=
  (target.reserve dst bytes.length).map fun _ => dst ++ bytes

/-! ## `Packet` -/

/-- `Packet::encoded_body_len`. -/
def encodedBodyLen (target : Target) (pkt : Packet) : Option Nat := do
  -- `saturating_sub`
  let separators := pkt.args.length - 1
  let sum ← target.usize.sum 0 (pkt.args.map List.length)
  target.usize.add sum separators

end Target

/-- The loop of `split_args`. -/
def splitLoopChecked (ptype : PacketType) : Nat → Bytes →
    Option (Except GearmanError (List Bytes))
  | 0, payload => some (.ok [payload])
  | n + 1, payload =>
    match payload.findIdx? (· == 0) with
    | none => some (.error (.malformedBody ptype "missing NUL argument separator"))
    | some nulPos => do
      let (arg, payload) ← splitTo nulPos payload
      let payload ← advance 1 payload
      match ← splitLoopChecked ptype n payload with
      | .error e => some (.error e)
      | .ok args => some (.ok (arg :: args))

/-- `Packet::split_args`. -/
def splitArgsChecked (ptype : PacketType) (payload : Bytes) :
    Option (Except GearmanError (List Bytes)) :=
  if ptype.argCount = 0 then
    if payload.isEmpty then some (.ok [])
    else some (.error (.malformedBody ptype "expected empty payload"))
  else splitLoopChecked ptype (ptype.argCount - 1) payload

namespace Target

/-! ## `GearmanCodec` -/

/-- What a `decode` returns and leaves in `src`, and how much it reserves. -/
abbrev Decoded := (Except GearmanError (Option Packet) × Bytes) × Nat

/-- `decode` from the length of the payload on. -/
def decodeBody (target : Target) (src : Bytes) (magic : PacketMagic) (ptype : PacketType)
    (len : UInt32) : Option Decoded := do
  let whole ← target.usize.add headerLen len.toNat
  if src.length < whole then
    let additional ← target.usize.sub whole src.length
    target.reserve src additional
    return ((.ok none, src), additional)
  else
    let src ← advance headerLen src
    let (payload, src) ← splitTo len.toNat src
    match ← splitArgsChecked ptype payload with
    | .error e => return ((.error e, src), 0)
    | .ok args => return ((.ok (some ⟨magic, ptype, args⟩), src), 0)

/-- `GearmanCodec::decode`. -/
def decode (target : Target) (codec : GearmanCodec) (src : Bytes) : Option Decoded :=
  if src.length < headerLen then some ((.ok none, src), 0)
  else do
    let magicBytes ← slice 0 4 src
    match PacketMagic.ofBytes magicBytes with
    | none => return ((.error (.badMagic magicBytes), src), 0)
    | some magic =>
      let rawType ← slice 4 8 src
      match PacketType.tryFrom (fromBeBytes rawType) with
      | .error e => return ((.error e, src), 0)
      | .ok ptype =>
        let len ← (slice 8 12 src).map fromBeBytes
        if codec.maxPayloadSize < len then return ((.error (.payloadTooLarge len), src), 0)
        else target.decodeBody src magic ptype len

/-- The argument loop of `encode`. -/
def putArgs (target : Target) (dst : Bytes) : List Bytes → Nat → Option Bytes
  | [], _ => some dst
  | a :: args, i =>
    (if 0 < i then target.extend dst [0] else some dst).bind fun dst =>
      (target.extend dst a).bind fun dst => target.putArgs dst args (i + 1)

/-- `GearmanCodec::encode`. -/
def encode (target : Target) (codec : GearmanCodec) (pkt : Packet) (dst : Bytes) :
    Option (Except GearmanError Unit × Bytes) :=
  let expected := pkt.ptype.argCount
  if pkt.args.length ≠ expected then
    some (.error (.wrongArgCount pkt.ptype expected pkt.args.length), dst)
  else do
    let bodyLen ← target.encodedBodyLen pkt
    if codec.maxPayloadSize.toNat < bodyLen then
      return (.error (.payloadTooLarge codec.maxPayloadSize), dst)
    else
      let whole ← target.usize.add headerLen bodyLen
      target.reserve dst whole
      let dst ← target.extend dst pkt.magic.bytes
      let dst ← target.extend dst (toBeBytes pkt.ptype.toU32)
      -- `body_len as u32`
      let dst ← target.extend dst (toBeBytes (UInt32.ofNat bodyLen))
      let dst ← target.putArgs dst pkt.args 0
      return (.ok (), dst)

end Target

end Gearman.Protocol

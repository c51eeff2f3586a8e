import Gearman.Protocol.Packet

/-!
# The codec

`GearmanCodec::decode` and `GearmanCodec::encode`. Both take the buffer they
read or write and return it as it is afterwards, next to the result, so that
what an error leaves behind can be stated.
-/

namespace Gearman.Protocol

/-- Default cap on a single packet's declared payload length. -/
def defaultMaxPayloadSize : UInt32 := 64 * 1024 * 1024

structure GearmanCodec where
  maxPayloadSize : UInt32
  deriving DecidableEq, Repr

namespace GearmanCodec

/-- `GearmanCodec::new`. -/
def new : GearmanCodec := ⟨defaultMaxPayloadSize⟩

/-- `GearmanCodec::decode`: the result and what is left in `src`. -/
def decode (codec : GearmanCodec) (src : Bytes) : Except GearmanError (Option Packet) × Bytes :=
  if src.length < headerLen then (.ok none, src)
  else
    let magicBytes := src.take 4
    match PacketMagic.ofBytes magicBytes with
    | none => (.error (.badMagic magicBytes), src)
    | some magic =>
      match PacketType.tryFrom (fromBeBytes ((src.drop 4).take 4)) with
      | .error e => (.error e, src)
      | .ok ptype =>
        let len := fromBeBytes ((src.drop 8).take 4)
        if codec.maxPayloadSize < len then (.error (.payloadTooLarge len), src)
        else if src.length < headerLen + len.toNat then (.ok none, src)
        else
          -- the header and the payload are gone from `src` before the payload is split
          let src := src.drop headerLen
          let payload := src.take len.toNat
          let src := src.drop len.toNat
          match Packet.splitArgs ptype payload with
          | .error e => (.error e, src)
          | .ok args => (.ok (some ⟨magic, ptype, args⟩), src)

/-- The argument loop of `encode`: a NUL in front of every argument but the first. -/
def putArgs (dst : Bytes) : List Bytes → Nat → Bytes
  | [], _ => dst
  | a :: args, i => putArgs ((if 0 < i then dst ++ [0] else dst) ++ a) args (i + 1)

/-- `GearmanCodec::encode`: the result and `dst` after it. -/
def encode (codec : GearmanCodec) (pkt : Packet) (dst : Bytes) : Except GearmanError Unit × Bytes :=
  let expected := pkt.ptype.argCount
  if pkt.args.length ≠ expected then
    (.error (.wrongArgCount pkt.ptype expected pkt.args.length), dst)
  else
    let bodyLen := pkt.encodedBodyLen
    if codec.maxPayloadSize.toNat < bodyLen then
      (.error (.payloadTooLarge codec.maxPayloadSize), dst)
    else
      let dst := dst ++ pkt.magic.bytes
      let dst := dst ++ toBeBytes pkt.ptype.toU32
      let dst := dst ++ toBeBytes (UInt32.ofNat bodyLen)
      (.ok (), putArgs dst pkt.args 0)

/-- What `encode` writes for a packet it accepts. -/
def frame (pkt : Packet) : Bytes :=
  pkt.magic.bytes ++ toBeBytes pkt.ptype.toU32 ++ toBeBytes (UInt32.ofNat pkt.encodedBodyLen) ++
    Delimited.join 0 pkt.args

/-- `encode` has no objection to the packet. -/
structure Accepts (codec : GearmanCodec) (pkt : Packet) : Prop where
  count : pkt.args.length = pkt.ptype.argCount
  fits : pkt.encodedBodyLen ≤ codec.maxPayloadSize.toNat

instance (codec : GearmanCodec) (pkt : Packet) : Decidable (codec.Accepts pkt) :=
  decidable_of_iff (pkt.args.length = pkt.ptype.argCount ∧
    pkt.encodedBodyLen ≤ codec.maxPayloadSize.toNat)
    ⟨fun h => ⟨h.1, h.2⟩, fun h => ⟨h.count, h.fits⟩⟩

/-! ## What `encode` does -/

/-- Past the first argument, the loop appends each argument behind a separator. -/
theorem putArgs_eq (dst : Bytes) (args : List Bytes) (i : Nat) :
    putArgs dst args (i + 1) = dst ++ args.flatMap fun a => 0 :: a := by
  induction args generalizing dst i with
  | nil => simp [putArgs]
  | cons a args ih => simp [putArgs, ih]

theorem join_eq_flatMap (a : Bytes) (args : List Bytes) :
    Delimited.join 0 (a :: args) = a ++ args.flatMap fun b => 0 :: b := by
  induction args generalizing a with
  | nil => simp
  | cons b args ih =>
    rw [Delimited.join_cons_of_ne_nil 0 a (by simp), ih]
    simp

theorem putArgs_zero (dst : Bytes) (args : List Bytes) :
    putArgs dst args 0 = dst ++ Delimited.join 0 args := by
  cases args with
  | nil => simp [putArgs]
  | cons a args =>
    rw [join_eq_flatMap, putArgs, putArgs_eq]
    simp

theorem encode_of_accepts {codec : GearmanCodec} {pkt : Packet} (h : codec.Accepts pkt)
    (dst : Bytes) : codec.encode pkt dst = (.ok (), dst ++ frame pkt) := by
  unfold encode
  simp only [h.count, ne_eq, not_true_eq_false, ↓reduceIte, Nat.not_lt.mpr h.fits, putArgs_zero,
    frame, List.append_assoc]

/-- A refused packet leaves the buffer as it was. -/
theorem encode_of_not_accepts {codec : GearmanCodec} {pkt : Packet} (h : ¬ codec.Accepts pkt)
    (dst : Bytes) : ∃ e, codec.encode pkt dst = (.error e, dst) := by
  unfold encode
  by_cases hcount : pkt.args.length = pkt.ptype.argCount
  · have hfits : codec.maxPayloadSize.toNat < pkt.encodedBodyLen := by
      by_contra hle
      exact h ⟨hcount, Nat.not_lt.mp hle⟩
    exact ⟨.payloadTooLarge codec.maxPayloadSize, by simp [hcount, hfits]⟩
  · exact ⟨.wrongArgCount pkt.ptype pkt.ptype.argCount pkt.args.length, by simp [hcount]⟩

theorem encode_eq_ok {codec : GearmanCodec} {pkt : Packet} {dst out : Bytes} :
    codec.encode pkt dst = (.ok (), out) ↔ codec.Accepts pkt ∧ out = dst ++ frame pkt := by
  by_cases h : codec.Accepts pkt
  · simp [encode_of_accepts h, h, eq_comm]
  · obtain ⟨e, he⟩ := encode_of_not_accepts h dst
    simp [he, h]

theorem length_frame (pkt : Packet) : (frame pkt).length = headerLen + pkt.encodedBodyLen := by
  simp only [frame, List.length_append, PacketMagic.length_bytes, length_toBeBytes,
    pkt.encodedBodyLen_eq, headerLen]

/-- The length field of an accepted packet is the real length of its body. -/
theorem toNat_lengthField {codec : GearmanCodec} {pkt : Packet} (h : codec.Accepts pkt) :
    (UInt32.ofNat pkt.encodedBodyLen).toNat = pkt.encodedBodyLen := by
  have hcap := codec.maxPayloadSize.toNat_lt
  have hfits := h.fits
  rw [UInt32.toNat_ofNat', Nat.mod_eq_of_lt (by omega)]

end GearmanCodec

end Gearman.Protocol

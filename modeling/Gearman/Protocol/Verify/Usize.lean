import Gearman.Protocol.Usize
import Gearman.Protocol.Verify.Codec

/-!
# Lengths on every target

A `decode` that does not panic is the `decode` of unbounded lengths. It panics exactly
where the header and a payload it waits for, of a length that the cap allows, are more
than a buffer can hold: on a target of 32 bits with a cap near `u32::MAX`. What `encode`
writes is what it writes with unbounded lengths.
-/

namespace Gearman.Protocol

variable {src payload : Bytes}

theorem slice_eq {start stop : Nat} (hle : start ≤ stop) (hstop : stop ≤ src.length) :
    slice start stop src = some ((src.drop start).take (stop - start)) := if_pos ⟨hle, hstop⟩

theorem advance_eq {n : Nat} (h : n ≤ src.length) : advance n src = some (src.drop n) := if_pos h

theorem splitTo_eq {n : Nat} (h : n ≤ src.length) :
    splitTo n src = some (src.take n, src.drop n) := if_pos h

theorem splitTo_eq_none {n : Nat} (h : src.length < n) : splitTo n src = none :=
  if_neg (Nat.not_le.mpr h)

/-! ## Splitting a payload -/

theorem splitLoopChecked_eq (ptype : PacketType) (n : Nat) (payload : Bytes) :
    splitLoopChecked ptype n payload = some (Packet.splitLoop ptype n payload) := by
  induction n generalizing payload with
  | zero => rfl
  | succ n ih =>
    unfold splitLoopChecked Packet.splitLoop
    cases hnul : payload.findIdx? (· == 0) with
    | none => rfl
    | some nulPos =>
      have hlt : nulPos < payload.length := (List.findIdx?_eq_some_iff_getElem.mp hnul).1
      have hrest : 1 ≤ (payload.drop nulPos).length := by
        rw [List.length_drop]
        omega
      dsimp only
      rw [splitTo_eq (Nat.le_of_lt hlt), Option.bind_eq_bind, Option.bind_some]
      dsimp only
      rw [advance_eq hrest, Option.bind_eq_bind, Option.bind_some, ih, Option.bind_eq_bind,
        Option.bind_some, List.drop_drop]
      cases Packet.splitLoop ptype n (payload.drop (nulPos + 1)) <;> rfl

theorem splitArgsChecked_eq (ptype : PacketType) (payload : Bytes) :
    splitArgsChecked ptype payload = some (Packet.splitArgs ptype payload) := by
  unfold splitArgsChecked Packet.splitArgs
  split
  · split <;> rfl
  · exact splitLoopChecked_eq ..

/-! ## `decode` -/

/-- The length of the payload, where `decode` has no objection to the header. -/
def GearmanCodec.acceptedLen (codec : GearmanCodec) (src : Bytes) : Option UInt32 :=
  if src.length < headerLen then none
  else
    let rawType := fromBeBytes ((src.drop 4).take 4)
    match PacketMagic.ofBytes (src.take 4), PacketType.tryFrom rawType with
    | some _, .ok _ =>
      let len := fromBeBytes ((src.drop 8).take 4)
      if codec.maxPayloadSize < len then none else some len
    | _, _ => none

/-- How many bytes of a packet are not there yet. -/
def GearmanCodec.missing (codec : GearmanCodec) (src : Bytes) : Nat :=
  match codec.acceptedLen src with
  | some len => headerLen + len.toNat - src.length
  | none => 0

theorem GearmanCodec.le_cap_of_acceptedLen {codec : GearmanCodec} {len : UInt32}
    (h : codec.acceptedLen src = some len) : len.toNat ≤ codec.maxPayloadSize.toNat := by
  unfold acceptedLen at h
  split at h
  · cases h
  · dsimp only at h
    split at h
    · split at h
      · cases h
      · next hcap =>
        obtain rfl := Option.some.inj h
        exact UInt32.le_iff_toNat_le.mp (UInt32.not_lt.mp hcap)
    · cases h

namespace Target

variable {target : Target}

/-- A buffer can hold the packet that a header announces, where it has to grow for it. -/
def CanWait (target : Target) (codec : GearmanCodec) (src : Bytes) : Prop :=
  ∀ len ∈ codec.acceptedLen src, src.length < headerLen + len.toNat →
    target.canHold (headerLen + len.toNat) = true

theorem two_pow_32_le (target : Target) : 2 ^ 32 ≤ 2 ^ target.usize.bits := by
  rcases target.width with h | h
  · rw [h]
  · rw [h]
    decide

/-- A packet that is there. -/
theorem decodeBody_whole {len : UInt32} (hsrc : src.length < 2 ^ target.usize.bits)
    (hwhole : headerLen + len.toNat ≤ src.length) (magic : PacketMagic) (ptype : PacketType) :
    let rest := src.drop headerLen
    target.decodeBody src magic ptype len =
      some
        ((match Packet.splitArgs ptype (rest.take len.toNat) with
          | .error e => (.error e, rest.drop len.toNat)
          | .ok args => (.ok (some ⟨magic, ptype, args⟩), rest.drop len.toNat)), 0) := by
  intro rest
  have hrest : len.toNat ≤ rest.length := by
    rw [List.length_drop]
    omega
  unfold decodeBody MachineWord.add
  rw [MachineWord.ofNat_of_lt (Nat.lt_of_le_of_lt hwhole hsrc), Option.bind_eq_bind,
    Option.bind_some, if_neg (Nat.not_lt.mpr hwhole), advance_eq (by omega), Option.bind_eq_bind,
    Option.bind_some, splitTo_eq hrest, Option.bind_eq_bind, Option.bind_some]
  dsimp only
  rw [splitArgsChecked_eq, Option.bind_eq_bind, Option.bind_some]
  cases Packet.splitArgs ptype (rest.take len.toNat) <;> rfl

/-- The rest of a packet is waited for, if a buffer can hold it. -/
theorem decodeBody_wait {len : UInt32} (hheader : headerLen ≤ src.length)
    (hwait : src.length < headerLen + len.toNat) (magic : PacketMagic) (ptype : PacketType) :
    target.decodeBody src magic ptype len =
      if target.canHold (headerLen + len.toNat) then
        some ((.ok none, src), headerLen + len.toNat - src.length)
      else none := by
  have hlen := len.toNat_lt
  have hwidth := target.two_pow_32_le
  unfold decodeBody MachineWord.add
  by_cases hfits : headerLen + len.toNat < 2 ^ target.usize.bits
  · rw [MachineWord.ofNat_of_lt hfits, Option.bind_eq_bind, Option.bind_some, if_pos hwait,
      MachineWord.sub_of_le (Nat.le_of_lt hwait), Option.bind_eq_bind, Option.bind_some, reserve,
      Nat.add_sub_cancel' (Nat.le_of_lt hwait)]
    split <;> rfl
  · have hheld : target.canHold (headerLen + len.toNat) = false :=
      Bool.eq_false_iff.mpr fun h => hfits (target.held _ h)
    rw [hheld, if_neg Bool.false_ne_true]
    unfold MachineWord.ofNat
    rw [if_neg hfits]
    cases target.usize.overflowChecks with
    | true => rfl
    | false =>
      -- the sum wraps to less than a header, and the payload is not there
      have hwrapped : (headerLen + len.toNat) % 2 ^ target.usize.bits < headerLen := by
        unfold headerLen at *
        rw [Nat.mod_eq_sub_mod (Nat.le_of_not_lt hfits), Nat.mod_eq_of_lt (by omega)]
        omega
      have hmissing : (src.drop headerLen).length < len.toNat := by
        rw [List.length_drop]
        omega
      rw [if_neg Bool.false_ne_true, Option.bind_eq_bind, Option.bind_some,
        if_neg (by omega), advance_eq hheader, Option.bind_eq_bind, Option.bind_some,
        splitTo_eq_none hmissing]
      rfl

/-- The fields of a header are there. -/
theorem slice_header (h : headerLen ≤ src.length) :
    slice 0 4 src = some (src.take 4) ∧ slice 4 8 src = some ((src.drop 4).take 4) ∧
      slice 8 12 src = some ((src.drop 8).take 4) := by
  unfold headerLen at h
  exact ⟨slice_eq (by omega) (by omega), slice_eq (by omega) (by omega),
    slice_eq (by omega) (by omega)⟩

/-- **What `decode` does.** It panics exactly where a packet cannot be waited for, and
is the `decode` of unbounded lengths elsewhere. -/
theorem decode_eq (codec : GearmanCodec) (hsrc : src.length < 2 ^ target.usize.bits) :
    (target.CanWait codec src ∧
      target.decode codec src = some (codec.decode src, codec.missing src)) ∨
    (¬target.CanWait codec src ∧ target.decode codec src = none) := by
  unfold Target.decode GearmanCodec.decode GearmanCodec.missing CanWait GearmanCodec.acceptedLen
  by_cases hshort : src.length < headerLen
  · simp [hshort]
  · obtain ⟨hmagicBytes, hrawType, hlenBytes⟩ := slice_header (Nat.le_of_not_lt hshort)
    simp only [hshort, if_false, hmagicBytes, hrawType, hlenBytes, Option.bind_eq_bind,
      Option.bind_some, Option.map_some]
    cases hmagic : PacketMagic.ofBytes (src.take 4) with
    | none => simp
    | some magic =>
      cases htype : PacketType.tryFrom (fromBeBytes ((src.drop 4).take 4)) with
      | error e => simp
      | ok ptype =>
        dsimp only
        generalize fromBeBytes ((src.drop 8).take 4) = len
        by_cases hcap : codec.maxPayloadSize < len
        · simp [hcap]
        · simp only [hcap, if_false]
          by_cases hwait : src.length < headerLen + len.toNat
          · rw [decodeBody_wait (Nat.le_of_not_lt hshort) hwait]
            cases hheld : target.canHold (headerLen + len.toNat) with
            | true => simp [hwait, hheld]
            | false => simp [hwait, hheld]
          · rw [decodeBody_whole hsrc (Nat.le_of_not_lt hwait), if_neg hwait,
              Nat.sub_eq_zero_of_le (Nat.le_of_not_lt hwait)]
            left
            refine ⟨fun _ hlen hwait' => ?_, rfl⟩
            obtain rfl := Option.some.inj hlen
            exact absurd hwait' hwait

theorem decode_isSome_iff (codec : GearmanCodec) (hsrc : src.length < 2 ^ target.usize.bits) :
    (target.decode codec src).isSome = true ↔ target.CanWait codec src := by
  rcases target.decode_eq codec hsrc with ⟨hwait, hdecode⟩ | ⟨hwait, hdecode⟩
  · rw [hdecode]
    exact iff_of_true rfl hwait
  · rw [hdecode]
    exact iff_of_false (fun h => by cases h) hwait

/-- On 64 bits, and with a cap that leaves room on 32, nothing is too long to wait for. -/
theorem canWait_of_cap {bits : Nat} (width : bits = 32 ∨ bits = 64) (overflowChecks : Bool)
    {codec : GearmanCodec} (hcap : headerLen + codec.maxPayloadSize.toNat < 2 ^ (bits - 1))
    (src : Bytes) : (ofBits bits width overflowChecks).CanWait codec src := by
  intro len hlen _
  have hle := GearmanCodec.le_cap_of_acceptedLen hlen
  exact decide_eq_true (by omega)

/-- No more is reserved than the header and the cap. -/
theorem reserved_le {codec : GearmanCodec} (hsrc : src.length < 2 ^ target.usize.bits)
    {result : Except GearmanError (Option Packet) × Bytes} {reserved : Nat}
    (h : target.decode codec src = some (result, reserved)) :
    reserved ≤ headerLen + codec.maxPayloadSize.toNat := by
  rcases target.decode_eq codec hsrc with ⟨-, hdecode⟩ | ⟨-, hdecode⟩
  · rw [hdecode] at h
    obtain ⟨-, rfl⟩ := Prod.mk.inj (Option.some.inj h)
    unfold GearmanCodec.missing
    split
    · next len hlen =>
      have hcap := GearmanCodec.le_cap_of_acceptedLen hlen
      omega
    · exact Nat.zero_le _
  · rw [hdecode] at h
    cases h

/-! ## `encode` -/

theorem encodedBodyLen_eq (target : Target) (pkt : Packet) :
    target.encodedBodyLen pkt = target.usize.ofNat pkt.encodedBodyLen := by
  unfold encodedBodyLen
  rw [MachineWord.sum_eq]
  exact MachineWord.ofNat_bind_add ..

theorem extend_eq_some {dst bytes out : Bytes} (h : target.extend dst bytes = some out) :
    out = dst ++ bytes ∧ out.length < 2 ^ target.usize.bits := by
  unfold extend reserve at h
  split at h
  · next hheld =>
    obtain rfl := Option.some.inj h
    refine ⟨rfl, ?_⟩
    rw [List.length_append]
    exact target.held _ hheld
  · cases h

theorem putArgs_eq_some {args : List Bytes} {dst out : Bytes} {i : Nat}
    (hdst : dst.length < 2 ^ target.usize.bits) (h : target.putArgs dst args i = some out) :
    out = GearmanCodec.putArgs dst args i ∧ out.length < 2 ^ target.usize.bits := by
  induction args generalizing dst i with
  | nil =>
    obtain rfl := Option.some.inj h
    exact ⟨rfl, hdst⟩
  | cons a args ih =>
    rw [Target.putArgs] at h
    obtain ⟨separated, hseparated, h⟩ := Option.bind_eq_some_iff.mp h
    obtain ⟨dst', hdst', h⟩ := Option.bind_eq_some_iff.mp h
    obtain ⟨rfl, hlt⟩ := extend_eq_some hdst'
    obtain ⟨rfl, hout⟩ := ih hlt h
    refine ⟨?_, hout⟩
    rw [GearmanCodec.putArgs]
    split at hseparated
    · next hi =>
      obtain ⟨rfl, -⟩ := extend_eq_some hseparated
      rw [if_pos hi]
    · next hi =>
      obtain rfl := Option.some.inj hseparated
      rw [if_neg hi]

/-- **What `encode` writes.** Unless it panics, it does what it does with unbounded
lengths. -/
theorem encode_eq {codec : GearmanCodec} {pkt : Packet} {dst : Bytes}
    {result : Except GearmanError Unit × Bytes} (h : target.encode codec pkt dst = some result) :
    result = codec.encode pkt dst := by
  unfold Target.encode at h
  unfold GearmanCodec.encode
  dsimp only at h ⊢
  split at h
  · next hcount =>
    obtain rfl := Option.some.inj h
    rw [if_pos hcount]
  · next hcount =>
    rw [if_neg hcount]
    obtain ⟨bodyLen, hbodyLen, h⟩ := Option.bind_eq_some_iff.mp h
    rw [encodedBodyLen_eq] at hbodyLen
    have hexact := MachineWord.ofNat_eq_some hbodyLen
    split at h
    · next hcap =>
      obtain rfl := Option.some.inj h
      rw [if_pos (by omega)]
    · next hcap =>
      obtain ⟨whole, -, h⟩ := Option.bind_eq_some_iff.mp h
      obtain ⟨-, -, h⟩ := Option.bind_eq_some_iff.mp h
      obtain ⟨magic, hmagic, h⟩ := Option.bind_eq_some_iff.mp h
      obtain ⟨ptype, hptype, h⟩ := Option.bind_eq_some_iff.mp h
      obtain ⟨header, hheader, h⟩ := Option.bind_eq_some_iff.mp h
      obtain ⟨out, hout, h⟩ := Option.bind_eq_some_iff.mp h
      obtain rfl := Option.some.inj h
      obtain ⟨rfl, -⟩ := extend_eq_some hmagic
      obtain ⟨rfl, -⟩ := extend_eq_some hptype
      obtain ⟨rfl, hlt⟩ := extend_eq_some hheader
      obtain ⟨rfl, hall⟩ := putArgs_eq_some hlt hout
      -- all of the arguments have been written, so their length has not wrapped
      have hbody : bodyLen = pkt.encodedBodyLen := by
        rw [GearmanCodec.putArgs_zero, List.length_append, ← pkt.encodedBodyLen_eq] at hall
        omega
      rw [hbody] at hcap ⊢
      rw [if_neg hcap]

/-! ## Both -/

/-- Both checks of `encode` let the packet through. -/
structure Accepts (target : Target) (codec : GearmanCodec) (pkt : Packet) : Prop where
  count : pkt.args.length = pkt.ptype.argCount
  fits : ∃ bodyLen ∈ target.encodedBodyLen pkt, bodyLen ≤ codec.maxPayloadSize.toNat

/-- No arithmetic of a length goes wrong. -/
structure LengthSafe (target : Target) (codec : GearmanCodec) (src : Bytes) (pkt : Packet)
    (dst : Bytes) : Prop where
  noPanic : (target.decode codec src).isSome = true
  reserved : ∀ result reserved, target.decode codec src = some (result, reserved) →
    reserved ≤ headerLen + codec.maxPayloadSize.toNat
  noOverflow : target.Accepts codec pkt →
    headerLen + pkt.encodedBodyLen < 2 ^ target.usize.bits
  lengthField : ∀ out, target.encode codec pkt dst = some (.ok (), out) →
    ∃ (len : UInt32) (payload : Bytes), payload = Delimited.join 0 pkt.args ∧
      out = dst ++ pkt.magic.bytes ++ toBeBytes pkt.ptype.toU32 ++ toBeBytes len ++ payload ∧
      len.toNat = payload.length

/-- The lengths of a buffer and of a packet fit the target. -/
structure LengthsFit (target : Target) (codec : GearmanCodec) (src : Bytes) (pkt : Packet) :
    Prop where
  wait : target.CanWait codec src
  /-- A body within the cap leaves room for the header. -/
  room : pkt.args.length = pkt.ptype.argCount →
    pkt.encodedBodyLen ≤ codec.maxPayloadSize.toNat →
    headerLen + pkt.encodedBodyLen < 2 ^ target.usize.bits
  /-- Arguments longer together than a `usize` do not wrap to within the cap. -/
  wrapped : pkt.args.length = pkt.ptype.argCount → target.usize.overflowChecks = false →
    2 ^ target.usize.bits ≤ pkt.encodedBodyLen →
    codec.maxPayloadSize.toNat < pkt.encodedBodyLen % 2 ^ target.usize.bits

theorem noOverflow_iff {codec : GearmanCodec} {pkt : Packet} :
    (target.Accepts codec pkt → headerLen + pkt.encodedBodyLen < 2 ^ target.usize.bits) ↔
    (pkt.args.length = pkt.ptype.argCount →
      pkt.encodedBodyLen ≤ codec.maxPayloadSize.toNat →
      headerLen + pkt.encodedBodyLen < 2 ^ target.usize.bits) ∧
    (pkt.args.length = pkt.ptype.argCount → target.usize.overflowChecks = false →
      2 ^ target.usize.bits ≤ pkt.encodedBodyLen →
      codec.maxPayloadSize.toNat < pkt.encodedBodyLen % 2 ^ target.usize.bits) := by
  have hcap := codec.maxPayloadSize.toNat_lt
  have hwidth := target.two_pow_32_le
  constructor
  · intro hsafe
    refine ⟨fun hcount hfits => ?_, fun hcount hbuild hlong => ?_⟩
    · refine hsafe ⟨hcount, pkt.encodedBodyLen, ?_, hfits⟩
      rw [encodedBodyLen_eq, MachineWord.ofNat_of_lt (by omega)]
      rfl
    · by_contra hfits
      have haccepts : target.Accepts codec pkt := by
        refine ⟨hcount, pkt.encodedBodyLen % 2 ^ target.usize.bits, ?_, Nat.le_of_not_lt hfits⟩
        rw [encodedBodyLen_eq, MachineWord.ofNat, if_neg (Nat.not_lt.mpr hlong), hbuild]
        rfl
      have hroom := hsafe haccepts
      omega
  · rintro ⟨hroom, hwrapped⟩ ⟨hcount, bodyLen, hbodyLen, hfits⟩
    rw [encodedBodyLen_eq] at hbodyLen
    by_cases hlong : 2 ^ target.usize.bits ≤ pkt.encodedBodyLen
    · exfalso
      unfold MachineWord.ofNat at hbodyLen
      rw [if_neg (Nat.not_lt.mpr hlong)] at hbodyLen
      cases hbuild : target.usize.overflowChecks with
      | true =>
        rw [hbuild] at hbodyLen
        cases hbodyLen
      | false =>
        rw [hbuild] at hbodyLen
        obtain rfl := Option.some.inj hbodyLen
        exact absurd (hwrapped hcount hbuild hlong) (Nat.not_lt.mpr hfits)
    · rw [MachineWord.ofNat_of_lt (Nat.lt_of_not_le hlong)] at hbodyLen
      obtain rfl := Option.some.inj hbodyLen
      exact hroom hcount hfits

/-- **Lengths on every target.** The arithmetic of lengths is safe for a buffer that is
decoded and a packet that is encoded if and only if they fit the target. -/
theorem lengthSafe_iff (target : Target) (codec : GearmanCodec) {src : Bytes}
    (hsrc : src.length < 2 ^ target.usize.bits) (pkt : Packet) (dst : Bytes) :
    target.LengthSafe codec src pkt dst ↔ target.LengthsFit codec src pkt := by
  constructor
  · intro h
    have hencode := noOverflow_iff.mp h.noOverflow
    exact ⟨(decode_isSome_iff codec hsrc).mp h.noPanic, hencode.1, hencode.2⟩
  · intro h
    refine ⟨(decode_isSome_iff codec hsrc).mpr h.wait, fun result reserved => reserved_le hsrc,
      noOverflow_iff.mpr ⟨h.room, h.wrapped⟩, fun out hout => ?_⟩
    obtain ⟨haccepts, rfl⟩ := GearmanCodec.encode_eq_ok.mp (encode_eq hout).symm
    refine ⟨UInt32.ofNat pkt.encodedBodyLen, _, rfl, ?_, ?_⟩
    · simp only [GearmanCodec.frame, List.append_assoc]
    · rw [GearmanCodec.toNat_lengthField haccepts, pkt.encodedBodyLen_eq]

/-- A header that waits for five bytes, on 32 bits. -/
theorem lengthSafe_iff_echo :
    (ofBits 32 (.inl rfl) false).LengthSafe .new (reqMagic ++ toBeBytes 16 ++ toBeBytes 5)
      (.request .echoReq [[0]]) [] := by
  have hlen : GearmanCodec.new.acceptedLen (reqMagic ++ toBeBytes 16 ++ toBeBytes 5) = some 5 := by
    decide
  refine (lengthSafe_iff _ _ (by decide) _ _).mpr ⟨fun len hwaits _ => ?_, fun _ _ => by decide,
    fun _ _ => by decide⟩
  rw [hlen] at hwaits
  cases hwaits
  decide

/-- With a cap of `u32::MAX` twelve bytes panic a target of 32 bits, in every build. -/
theorem decode_panics :
    (ofBits 32 (.inl rfl) true).decode ⟨0xFFFFFFFF⟩
        (reqMagic ++ toBeBytes 1 ++ toBeBytes 0xFFFFFFFF) = none ∧
      (ofBits 32 (.inl rfl) false).decode ⟨0xFFFFFFFF⟩
        (reqMagic ++ toBeBytes 1 ++ toBeBytes 0xFFFFFFFF) = none := by
  decide

end Target

end Gearman.Protocol

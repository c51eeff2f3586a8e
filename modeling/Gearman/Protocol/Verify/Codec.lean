import Gearman.Protocol.Codec
import Gearman.Lib.Incremental

/-!
# Decoding inverts encoding

`decode_eq_item` is the specification of `decode` the rest builds on: it
returns a packet exactly when the buffer starts with the bytes `encode` writes
for it. From it follow the round trip over whole streams, the converse that
only encodings decode, and, through `decode_stable`, that the chunks a stream
arrives in do not matter.
-/

namespace Gearman.Protocol.GearmanCodec

open Incremental (Outcome drain feedAll)

/-- A packet that survives the wire: `encode` accepts it and the peer's
splitting gives its arguments back. -/
structure Admissible (codec : GearmanCodec) (pkt : Packet) : Prop where
  layout : pkt.Layout
  fits : pkt.encodedBodyLen ≤ codec.maxPayloadSize.toNat

theorem Admissible.accepts {codec : GearmanCodec} {pkt : Packet} (h : codec.Admissible pkt) :
    codec.Accepts pkt :=
  ⟨h.layout.count, h.fits⟩

theorem admissible_iff {codec : GearmanCodec} {pkt : Packet} :
    codec.Admissible pkt ↔ codec.Accepts pkt ∧ pkt.Layout :=
  ⟨fun h => ⟨h.accepts, h.layout⟩, fun h => ⟨h.2, h.1.fits⟩⟩

/-! ## The header -/

/-- The twelve bytes in front of a body. -/
def header (magic : PacketMagic) (ptype : PacketType) (len : UInt32) : Bytes :=
  magic.bytes ++ toBeBytes ptype.toU32 ++ toBeBytes len

@[simp] theorem length_header (magic : PacketMagic) (ptype : PacketType) (len : UInt32) :
    (header magic ptype len).length = headerLen := by
  simp [header, headerLen]

theorem frame_eq (pkt : Packet) :
    frame pkt = header pkt.magic pkt.ptype (UInt32.ofNat pkt.encodedBodyLen) ++
      Delimited.join 0 pkt.args := rfl

/-- What `decode` does once the header is complete and well formed. -/
theorem decode_header (codec : GearmanCodec) (magic : PacketMagic) (ptype : PacketType)
    (len : UInt32) (body : Bytes) :
    codec.decode (header magic ptype len ++ body) =
      if codec.maxPayloadSize < len then
        (.error (.payloadTooLarge len), header magic ptype len ++ body)
      else if body.length < len.toNat then (.ok none, header magic ptype len ++ body)
      else
        match Packet.splitArgs ptype (body.take len.toNat) with
        | .error e => (.error e, body.drop len.toNat)
        | .ok args => (.ok (some ⟨magic, ptype, args⟩), body.drop len.toNat) := by
  have hlen : (header magic ptype len ++ body).length = headerLen + body.length := by simp
  have h4 : (header magic ptype len ++ body).take 4 = magic.bytes := by cases magic <;> rfl
  have h8 : ((header magic ptype len ++ body).drop 4).take 4 = toBeBytes ptype.toU32 := by
    cases magic <;> rfl
  have h12 : ((header magic ptype len ++ body).drop 8).take 4 = toBeBytes len := by
    cases magic <;> rfl
  have hbody : (header magic ptype len ++ body).drop headerLen = body := by cases magic <;> rfl
  unfold decode
  simp only [hlen, h4, h8, h12, hbody, fromBeBytes_toBeBytes, PacketType.tryFrom_toU32,
    PacketMagic.ofBytes_eq_some.mpr rfl]
  have hfull : ¬ headerLen + body.length < headerLen := by omega
  rw [if_neg hfull]
  exact if_congr Iff.rfl rfl (if_congr Nat.add_lt_add_iff_left rfl rfl)

/-- Every buffer that holds a header `decode` understands is that header
followed by the rest. -/
theorem eq_header_append {src : Bytes} {magic : PacketMagic} {ptype : PacketType}
    (hlen : headerLen ≤ src.length) (hmagic : PacketMagic.ofBytes (src.take 4) = some magic)
    (htype : PacketType.tryFrom (fromBeBytes ((src.drop 4).take 4)) = .ok ptype) :
    src = header magic ptype (fromBeBytes ((src.drop 8).take 4)) ++ src.drop headerLen := by
  unfold headerLen at hlen ⊢
  have hm := PacketMagic.ofBytes_eq_some.mp hmagic
  have ht := PacketType.tryFrom_eq_ok.mp htype
  have ht' : (src.drop 4).take 4 = toBeBytes ptype.toU32 := by
    rw [← ht, toBeBytes_fromBeBytes (by simp; omega)]
  have hl' : toBeBytes (fromBeBytes ((src.drop 8).take 4)) = (src.drop 8).take 4 :=
    toBeBytes_fromBeBytes (by simp; omega)
  rw [header, hl', ← hm, ← ht', List.append_assoc, List.append_assoc]
  have h8 : src.drop 8 = (src.drop 4).drop 4 := by simp
  have h12 : src.drop 12 = (src.drop 8).drop 4 := by simp
  rw [h12, List.take_append_drop, h8, List.take_append_drop, List.take_append_drop]

/-- The four ways `decode` can come out, by what it finds in the buffer. -/
theorem decode_cases (codec : GearmanCodec) (src : Bytes) :
    src.length < headerLen ∧ codec.decode src = (.ok none, src) ∨
    headerLen ≤ src.length ∧ (∃ e, ∀ x, codec.decode (src ++ x) = (.error e, src ++ x)) ∨
    ∃ magic ptype len body, src = header magic ptype len ++ body ∧ len ≤ codec.maxPayloadSize := by
  by_cases hlen : src.length < headerLen
  · exact .inl ⟨hlen, by simp [decode, hlen]⟩
  have hlen' : headerLen ≤ src.length := Nat.not_lt.mp hlen
  have hlong : 12 ≤ src.length := hlen'
  have h4 (x : Bytes) : (src ++ x).take 4 = src.take 4 :=
    List.take_append_of_le_length (by omega)
  have h8 (x : Bytes) : ((src ++ x).drop 4).take 4 = (src.drop 4).take 4 := by
    rw [List.drop_append_of_le_length (by omega), List.take_append_of_le_length (by simp; omega)]
  have h12 (x : Bytes) : ((src ++ x).drop 8).take 4 = (src.drop 8).take 4 := by
    rw [List.drop_append_of_le_length (by omega), List.take_append_of_le_length (by simp; omega)]
  have hfull (x : Bytes) : ¬ (src ++ x).length < headerLen := by
    simp only [List.length_append]
    omega
  right
  cases hmagic : PacketMagic.ofBytes (src.take 4) with
  | none =>
    refine .inl ⟨hlen', .badMagic (src.take 4), fun x => ?_⟩
    unfold decode
    simp only [hfull x, ↓reduceIte, h4 x, hmagic]
  | some magic =>
    cases htype : PacketType.tryFrom (fromBeBytes ((src.drop 4).take 4)) with
    | error e =>
      refine .inl ⟨hlen', e, fun x => ?_⟩
      unfold decode
      simp only [hfull x, ↓reduceIte, h4 x, hmagic, h8 x, htype]
    | ok ptype =>
      by_cases hcap : codec.maxPayloadSize < fromBeBytes ((src.drop 8).take 4)
      · refine .inl ⟨hlen', .payloadTooLarge (fromBeBytes ((src.drop 8).take 4)), fun x => ?_⟩
        unfold decode
        simp only [hfull x, ↓reduceIte, h4 x, hmagic, h8 x, htype, h12 x, hcap]
      · exact .inr ⟨magic, ptype, _, _, eq_header_append hlen' hmagic htype,
          UInt32.not_lt.mp hcap⟩

/-! ## Packets and encodings -/

/-- An admissible packet at the front of the buffer is decoded and removed. -/
theorem decode_frame {codec : GearmanCodec} {pkt : Packet} (h : codec.Admissible pkt)
    (rest : Bytes) : codec.decode (frame pkt ++ rest) = (.ok (some pkt), rest) := by
  have hlen := toNat_lengthField h.accepts
  have hcap : ¬ codec.maxPayloadSize < UInt32.ofNat pkt.encodedBodyLen := by
    rw [UInt32.lt_iff_toNat_lt, hlen]
    exact Nat.not_lt.mpr h.fits
  have hbody : pkt.encodedBodyLen = (Delimited.join (0 : UInt8) pkt.args).length :=
    pkt.encodedBodyLen_eq
  have hsplit : Packet.splitArgs pkt.ptype (Delimited.join 0 pkt.args) = .ok pkt.args :=
    (Packet.splitArgs_eq_ok pkt.magic).mpr ⟨h.layout, rfl⟩
  rw [frame_eq, List.append_assoc, decode_header]
  have hfull : ¬ (Delimited.join (0 : UInt8) pkt.args ++ rest).length < pkt.encodedBodyLen := by
    simp only [List.length_append]
    omega
  rw [if_neg hcap, hlen, if_neg hfull, hbody, List.take_left, List.drop_left, hsplit]

/-- **The specification of `decode`.** It returns a packet, leaving `rest`,
exactly when the packet is admissible and the buffer is its encoding followed
by `rest`. -/
theorem decode_eq_item {codec : GearmanCodec} {src rest : Bytes} {pkt : Packet} :
    codec.decode src = (.ok (some pkt), rest) ↔
      codec.Admissible pkt ∧ src = frame pkt ++ rest := by
  constructor
  · intro h
    obtain ⟨-, hnone⟩ | ⟨-, e, he⟩ | ⟨magic, ptype, len, body, rfl, hcap⟩ := decode_cases codec src
    · rw [hnone] at h
      cases h
    · have := he []
      rw [List.append_nil, h] at this
      cases this
    · have hle : len.toNat ≤ codec.maxPayloadSize.toNat := UInt32.le_iff_toNat_le.mp hcap
      rw [decode_header, if_neg (UInt32.not_lt.mpr hcap)] at h
      split at h
      · cases h
      next hlong =>
      split at h
      · cases h
      next args hargs =>
      cases h
      obtain ⟨hlay, hjoin⟩ := (Packet.splitArgs_eq_ok magic).mp hargs
      have hbody : Packet.encodedBodyLen ⟨magic, ptype, args⟩ = len.toNat := by
        rw [Packet.encodedBodyLen_eq, ← hjoin, List.length_take]
        omega
      refine ⟨⟨hlay, by rw [hbody]; exact hle⟩, ?_⟩
      rw [frame_eq, hbody, UInt32.ofNat_toNat, ← hjoin, List.append_assoc, List.take_append_drop]
  · rintro ⟨hadm, rfl⟩
    exact decode_frame hadm rest

/-- A proper prefix of an encoding is left alone. -/
theorem decode_prefix {codec : GearmanCodec} {pkt : Packet} (h : codec.Admissible pkt)
    {pre : Bytes} (hpre : pre <+: frame pkt) (hlt : pre.length < (frame pkt).length) :
    codec.decode pre = (.ok none, pre) := by
  obtain ⟨-, hnone⟩ | ⟨-, e, he⟩ | ⟨magic, ptype, len, body, rfl, hcap⟩ := decode_cases codec pre
  · exact hnone
  · -- an error would also be raised on the whole encoding
    obtain ⟨tail, htail⟩ := hpre
    have hwhole := decode_frame h []
    rw [List.append_nil, ← htail, he tail] at hwhole
    cases hwhole
  · obtain ⟨tail, htail⟩ := hpre
    have hlen := toNat_lengthField h.accepts
    have hdecode := decode_frame h []
    rw [List.append_nil, ← htail, List.append_assoc, decode_header,
      if_neg (UInt32.not_lt.mpr hcap)] at hdecode
    rw [decode_header, if_neg (UInt32.not_lt.mpr hcap)]
    split at hdecode
    · cases hdecode
    next hlong =>
    have hshort : body.length < len.toNat := by
      by_contra hle
      -- with the body complete the encoding would end before its own last byte
      have hdrop : ((body ++ tail).drop len.toNat).length = 0 := by
        split at hdecode
        · cases hdecode
        · have := congrArg (fun r => r.2.length) hdecode
          simpa using this
      have hsize := congrArg List.length htail
      simp only [List.length_append, length_header, List.length_drop] at hlt hsize hdrop
      omega
    rw [if_pos hshort]

/-! ## Streams -/

/-- More bytes at the end of the buffer never change what `decode` answered. -/
theorem decode_stable (codec : GearmanCodec) : Incremental.Stable codec.decode where
  more := by
    intro buf rest h
    obtain ⟨-, hnone⟩ | ⟨-, e, he⟩ | ⟨magic, ptype, len, body, rfl, hcap⟩ := decode_cases codec buf
    · rw [hnone] at h
      cases h
      rfl
    · have := he []
      rw [List.append_nil, h] at this
      cases this
    · rw [decode_header, if_neg (UInt32.not_lt.mpr hcap)] at h
      split at h
      · cases h
        rfl
      · split at h <;> cases h
  item := by
    intro buf pkt rest x h
    obtain ⟨hadm, rfl⟩ := decode_eq_item.mp h
    rw [List.append_assoc]
    exact decode_frame hadm (rest ++ x)
  progress := by
    intro buf pkt rest h
    obtain ⟨-, rfl⟩ := decode_eq_item.mp h
    simp only [List.length_append, length_frame, headerLen]
    omega
  failed := by
    intro buf e rest x h
    obtain ⟨-, hnone⟩ | ⟨-, e', he⟩ | ⟨magic, ptype, len, body, rfl, hcap⟩ := decode_cases codec buf
    · rw [hnone] at h
      cases h
    · have hbuf := he []
      rw [List.append_nil, h] at hbuf
      cases hbuf
      exact he x
    · rw [decode_header, if_neg (UInt32.not_lt.mpr hcap)] at h
      rw [List.append_assoc, decode_header, if_neg (UInt32.not_lt.mpr hcap)]
      split at h
      · cases h
      next hlong =>
      have hlong' : len.toNat ≤ body.length := Nat.not_lt.mp hlong
      have hfull : ¬ (body ++ x).length < len.toNat := by
        simp only [List.length_append]
        omega
      rw [if_neg hfull, List.take_append_of_le_length hlong', List.drop_append_of_le_length hlong']
      split at h
      · next e' hsplit =>
        cases h
        rfl
      · cases h

theorem decode_nil (codec : GearmanCodec) : codec.decode [] = (.ok none, []) := rfl

/-- Encodes packets one after another into one buffer, stopping at a refusal. -/
def encodeAll (codec : GearmanCodec) : List Packet → Bytes → Except GearmanError Unit × Bytes
  | [], dst => (.ok (), dst)
  | pkt :: pkts, dst =>
    match codec.encode pkt dst with
    | (.error e, dst) => (.error e, dst)
    | (.ok (), dst) => encodeAll codec pkts dst

theorem encodeAll_of_accepts {codec : GearmanCodec} {pkts : List Packet}
    (h : ∀ pkt ∈ pkts, codec.Accepts pkt) (dst : Bytes) :
    codec.encodeAll pkts dst = (.ok (), dst ++ pkts.flatMap frame) := by
  induction pkts generalizing dst with
  | nil => simp [encodeAll]
  | cons pkt pkts ih =>
    rw [List.forall_mem_cons] at h
    simp [encodeAll, encode_of_accepts h.1, ih h.2]

/-- Admissible packets at the front of a buffer come out first. -/
theorem drain_frames {codec : GearmanCodec} {pkts : List Packet}
    (h : ∀ pkt ∈ pkts, codec.Admissible pkt) (rest : Bytes) :
    drain codec.decode (pkts.flatMap frame ++ rest) =
      (drain codec.decode rest).prepend pkts := by
  induction pkts with
  | nil => rfl
  | cons pkt pkts ih =>
    rw [List.forall_mem_cons] at h
    rw [List.flatMap_cons, List.append_assoc,
      codec.decode_stable.drain_item (decode_frame h.1 _), ih h.2, Outcome.prepend_prepend]
    rfl

end Gearman.Protocol.GearmanCodec

import Gearman.Protocol.Verify.Codec

/-!
# Packet streams

What the codec promises about whole streams: a list of packets comes back
unchanged from its encodings, only encodings decode, and the way the bytes
arrive in does not matter.
-/

namespace Gearman.Protocol.GearmanCodec

open Incremental (Outcome drain feedAll)

/-- **Encoding then decoding is the identity on packet streams.** Admissible
packets encode into one buffer; decoding that buffer, followed by the start of
one more encoding, gives the packets back in order and then asks for more with
the started encoding left in the buffer. -/
theorem drain_encodeAll (codec : GearmanCodec) (pkts : List Packet)
    (hpkts : ∀ pkt ∈ pkts, codec.Admissible pkt) :
    ∃ buf, codec.encodeAll pkts [] = (.ok (), buf) ∧
      ∀ next enc, codec.Admissible next → codec.encode next [] = (.ok (), enc) →
        ∀ pre, pre <+: enc → pre ≠ enc →
          drain codec.decode (buf ++ pre) = ⟨pkts, none, pre⟩ ∧
            codec.decode pre = (.ok none, pre) := by
  refine ⟨pkts.flatMap frame, encodeAll_of_accepts (fun pkt h => (hpkts pkt h).accepts) [], ?_⟩
  intro next enc hnext henc pre hpre hne
  obtain ⟨-, rfl⟩ := encode_eq_ok.mp henc
  rw [List.nil_append] at hpre hne
  have hlt : pre.length < (frame next).length :=
    Nat.lt_of_le_of_ne hpre.length_le fun h => hne (hpre.eq_of_length h)
  have hmore := decode_prefix hnext hpre hlt
  refine ⟨?_, hmore⟩
  rw [drain_frames hpkts, Incremental.drain_more hmore]
  simp [Outcome.prepend]

/-- Two packets, one of them with a NUL in its opaque argument, and three
bytes of a third. -/
theorem drain_encodeAll_work :
    let work : Packet := .response .workData [[72, 58, 49], [97, 0, 98]]
    let noop : Packet := .response .noop []
    ∃ buf, (new.encodeAll [work, noop] []) = (.ok (), buf) ∧
      ∀ next enc, new.Admissible next → new.encode next [] = (.ok (), enc) →
        ∀ pre, pre <+: enc → pre ≠ enc →
          drain new.decode (buf ++ pre) = ⟨[work, noop], none, pre⟩ ∧
            new.decode pre = (.ok none, pre) :=
  drain_encodeAll new _ (by
    intro pkt h
    simp only [List.mem_cons, List.not_mem_nil, or_false] at h
    rcases h with rfl | rfl
    · exact ⟨by decide, by decide⟩
    · exact ⟨by decide, by decide⟩)

/-- **The decoder accepts exactly the encoder's language.** A packet is decoded
from the first `k` bytes exactly when they are what `encode` writes for it and
its arguments have the layout of its type; and whatever is decoded, `encode`
accepts and writes as the very bytes consumed. -/
theorem decode_iff_encode (codec : GearmanCodec) (src : Bytes) (pkt : Packet) :
    (∀ k, k ≤ src.length ∧ codec.decode src = (.ok (some pkt), src.drop k) ↔
      k ≤ src.length ∧ codec.encode pkt [] = (.ok (), src.take k) ∧ pkt.Layout) ∧
    ∀ rest, codec.decode src = (.ok (some pkt), rest) →
      ∃ consumed, src = consumed ++ rest ∧ codec.encode pkt [] = (.ok (), consumed) := by
  have hitem : ∀ k, k ≤ src.length →
      (codec.decode src = (.ok (some pkt), src.drop k) ↔
        codec.encode pkt [] = (.ok (), src.take k) ∧ pkt.Layout) := by
    intro k hk
    rw [decode_eq_item, encode_eq_ok, admissible_iff, List.nil_append, and_assoc, and_assoc]
    have hcut : src = frame pkt ++ src.drop k ↔ src.take k = frame pkt := by
      conv_lhs => lhs; rw [← List.take_append_drop k src]
      exact List.append_left_inj _
    rw [hcut]
    exact ⟨fun ⟨ha, hl, h⟩ => ⟨ha, h, hl⟩, fun ⟨ha, h, hl⟩ => ⟨ha, hl, h⟩⟩
  refine ⟨fun k => and_congr_right (hitem k), fun rest h => ?_⟩
  obtain ⟨hadm, rfl⟩ := decode_eq_item.mp h
  exact ⟨frame pkt, rfl, encode_eq_ok.mpr ⟨hadm.accepts, rfl⟩⟩

/-- **Decoding does not depend on how the bytes arrive.** Two ways of cutting
one stream into chunks produce the same packets up to and including the first
error; asking for more leaves the buffer alone; and chunks that contain the
encodings of some packets yield these packets, whatever follows. -/
theorem feedAll_chunks (codec : GearmanCodec) {chunks chunks' : List Bytes}
    (h : chunks.flatten = chunks'.flatten) :
    ((feedAll codec.decode chunks).items = (feedAll codec.decode chunks').items ∧
      (feedAll codec.decode chunks).error = (feedAll codec.decode chunks').error) ∧
    (∀ src rest, codec.decode src = (.ok none, rest) → rest = src) ∧
    ∀ pkts buf tail, (∀ pkt ∈ pkts, codec.Admissible pkt) →
      codec.encodeAll pkts [] = (.ok (), buf) →
      ∀ arrived, arrived.flatten = buf ++ tail → pkts <+: (feedAll codec.decode arrived).items := by
  refine ⟨?_, fun _ _ => codec.decode_stable.more, ?_⟩
  · rw [codec.decode_stable.feedAll_eq codec.decode_nil, h,
      ← codec.decode_stable.feedAll_eq codec.decode_nil]
    exact ⟨rfl, rfl⟩
  · intro pkts buf tail hpkts henc arrived harrived
    rw [encodeAll_of_accepts fun pkt hp => (hpkts pkt hp).accepts] at henc
    cases henc
    rw [List.nil_append] at harrived
    rw [codec.decode_stable.feedAll_eq codec.decode_nil, harrived, drain_frames hpkts]
    exact List.prefix_append _ _

/-- A packet in one chunk and byte by byte. -/
theorem feedAll_chunks_bytewise :
    let stream : Bytes := [0, 82, 69, 83, 0, 0, 0, 6, 0, 0, 0, 0, 1]
    ((feedAll new.decode [stream]).items = (feedAll new.decode (stream.map ([·]))).items ∧
      (feedAll new.decode [stream]).error = (feedAll new.decode (stream.map ([·]))).error) ∧
    (∀ src rest, new.decode src = (.ok none, rest) → rest = src) ∧
    ∀ pkts buf tail, (∀ pkt ∈ pkts, new.Admissible pkt) →
      new.encodeAll pkts [] = (.ok (), buf) →
      ∀ arrived, arrived.flatten = buf ++ tail → pkts <+: (feedAll new.decode arrived).items :=
  feedAll_chunks new (by decide)

/-- A type without arguments takes no body, whatever its bytes are. -/
example : (new.decode [0, 82, 69, 83, 0, 0, 0, 6, 0, 0, 0, 1, 0]).1 =
    .error (.malformedBody .noop "expected empty payload") := by decide

end Gearman.Protocol.GearmanCodec

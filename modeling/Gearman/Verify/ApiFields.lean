import Gearman.Client.Submit
import Gearman.Worker.Registry
import Gearman.Protocol.Verify.Codec

/-!
# The fields of the public API on the wire

A caller's function name, unique id and reducer are written in front of
separators that nothing on the way keeps them free of. Calls whose strings
contain no NUL reach the peer field by field; a call with a NUL in one of them
is written just the same and reads back as something else.
-/

namespace Gearman

open Protocol Client Worker

/-- A call that puts caller-supplied fields on the wire. -/
inductive ApiCall
  | submit (function : String) (unique : Option String) (payload : Bytes) (opts : SubmitOptions)
  | submitEpoch (function : String) (unique : Option String) (epoch : UInt64) (payload : Bytes)
  | submitReduceJob (function : String) (unique : Option String) (reducer : String)
      (payload : Bytes) (background : Bool)
  | registerWithTimeout (function : String) (timeout : Duration)

namespace ApiCall

/-- The packet sent for the call. -/
def packet : ApiCall → Packet
  | submit function unique payload opts => (Client.submit function unique payload opts).packet
  | submitEpoch function unique epoch payload =>
    (Client.submitEpoch function unique epoch payload).packet
  | submitReduceJob function unique reducer payload background =>
    (Client.submitReduceJob function unique reducer payload background).packet
  | registerWithTimeout function timeout => registerPacket function ⟨(), some timeout⟩

/-- The fields the caller passed, in their positions. -/
def fields : ApiCall → List Bytes
  | submit function unique payload _ => [asBytes function, asBytes (unique.getD ""), payload]
  | submitEpoch function unique epoch payload =>
    [asBytes function, asBytes (unique.getD ""), asBytes (decimal epoch.toNat), payload]
  | submitReduceJob function unique reducer payload _ =>
    [asBytes function, asBytes (unique.getD ""), asBytes reducer, [], payload]
  | registerWithTimeout function timeout =>
    [asBytes function, asBytes (decimal timeout.secs.toNat)]

/-- The caller's strings that a separator follows. -/
def text : ApiCall → List String
  | submit function unique _ _ | submitEpoch function unique _ _ => [function, unique.getD ""]
  | submitReduceJob function unique reducer _ _ => [function, unique.getD "", reducer]
  | registerWithTimeout function _ => [function]

/-- No function name, unique id or reducer of the call contains the separator. -/
def NulFree (call : ApiCall) : Prop := ∀ s ∈ call.text, (0 : UInt8) ∉ asBytes s

/-- The call fails without writing a byte of its packet. -/
def Refused (codec : GearmanCodec) (call : ApiCall) : Prop :=
  ∀ dst, ∃ e, codec.encode call.packet dst = (.error e, dst)

/-- `out` are the bytes written for the call's packet. -/
def Writes (codec : GearmanCodec) (call : ApiCall) (out : Bytes) : Prop :=
  ∀ dst, codec.encode call.packet dst = (.ok (), dst ++ out)

/-- The bytes written decode to the fields the caller passed. -/
def ReadsBack (codec : GearmanCodec) (call : ApiCall) : Prop :=
  ∃ out, call.Writes codec out ∧
    codec.decode out = (.ok (some (.request call.packet.ptype call.fields)), [])

theorem packet_eq (call : ApiCall) : call.packet = .request call.packet.ptype call.fields := by
  cases call <;> rfl

theorem count_args (call : ApiCall) : call.packet.args.length = call.packet.ptype.argCount := by
  cases call with
  | submit function unique payload opts =>
    obtain ⟨priority, background⟩ := opts
    cases priority <;> cases background <;> rfl
  | submitReduceJob function unique reducer payload background => cases background <;> rfl
  | submitEpoch | registerWithTimeout => rfl

/-- The packet has the layout of its type exactly when the caller's strings are
free of separators: numbers are, and the last field may hold anything. -/
theorem layout_iff (call : ApiCall) : call.packet.Layout ↔ call.NulFree := by
  have hnul : call.NulFree ↔ ∀ a ∈ call.packet.args.dropLast, (0 : UInt8) ∉ a := by
    cases call with
    | submit function unique payload opts =>
      simp [NulFree, text, packet, Submission.packet, Client.submit, Packet.request]
    | submitEpoch function unique epoch payload =>
      simp [NulFree, text, packet, Submission.packet, Client.submitEpoch, Packet.request,
        nul_notMem_decimal]
    | submitReduceJob function unique reducer payload background =>
      simp [NulFree, text, packet, Submission.packet, Client.submitReduceJob, Packet.request]
    | registerWithTimeout function timeout =>
      simp [NulFree, text, packet, registerPacket, Packet.request]
  rw [hnul]
  exact ⟨fun h => h.nulFree, fun h => ⟨call.count_args, h⟩⟩

theorem writes_iff {codec : GearmanCodec} {call : ApiCall} {out : Bytes} :
    call.Writes codec out ↔
      codec.Accepts call.packet ∧ out = GearmanCodec.frame call.packet := by
  constructor
  · intro h
    simpa using GearmanCodec.encode_eq_ok.mp (h [])
  · rintro ⟨hacc, rfl⟩ dst
    exact GearmanCodec.encode_of_accepts hacc dst

/-- A written packet reads back as the fields passed exactly when these are
free of separators. -/
theorem readsBack_iff {codec : GearmanCodec} {call : ApiCall} :
    call.ReadsBack codec ↔ codec.Accepts call.packet ∧ call.NulFree := by
  simp only [ReadsBack, writes_iff]
  constructor
  · rintro ⟨out, ⟨hacc, rfl⟩, hdec⟩
    obtain ⟨hadm, -⟩ := GearmanCodec.decode_eq_item.mp hdec
    rw [← packet_eq] at hadm
    exact ⟨hacc, (layout_iff call).mp hadm.layout⟩
  · rintro ⟨hacc, hfree⟩
    refine ⟨_, ⟨hacc, rfl⟩, ?_⟩
    rw [← packet_eq]
    simpa using GearmanCodec.decode_frame ⟨(layout_iff call).mpr hfree, hacc.fits⟩ []

end ApiCall

open ApiCall

/-- **Fields without separators reach the peer.** A call whose function name,
unique id and reducer contain no NUL is either refused with nothing written or
reads back as exactly the fields passed, and two such calls that write the
same bytes passed the same fields. A call with a NUL in one of them never reads
back as the fields passed. -/
theorem api_fields_preserved (codec : GearmanCodec) :
    (∀ call : ApiCall, call.NulFree → call.Refused codec ∨ call.ReadsBack codec) ∧
    (∀ call call' : ApiCall, call.NulFree → call'.NulFree →
      ∀ out, call.Writes codec out → call'.Writes codec out →
        call.packet.ptype = call'.packet.ptype ∧ call.fields = call'.fields) ∧
    ∀ call : ApiCall, ¬ call.NulFree → ¬ call.ReadsBack codec := by
  refine ⟨fun call hfree => ?_, fun call call' hfree hfree' out hw hw' => ?_,
    fun call hnul hrb => ?_⟩
  · by_cases hacc : codec.Accepts call.packet
    · exact .inr (readsBack_iff.mpr ⟨hacc, hfree⟩)
    · exact .inl (GearmanCodec.encode_of_not_accepts hacc)
  · obtain ⟨hacc, rfl⟩ := writes_iff.mp hw
    obtain ⟨hacc', hout⟩ := writes_iff.mp hw'
    -- the same bytes decode to one packet only
    have hdec := GearmanCodec.decode_frame ⟨(layout_iff call).mpr hfree, hacc.fits⟩ []
    rw [hout, GearmanCodec.decode_frame ⟨(layout_iff call').mpr hfree', hacc'.fits⟩ []] at hdec
    have hpkt : call'.packet = call.packet := by simpa using congrArg Prod.fst hdec
    rw [packet_eq, packet_eq call] at hpkt
    simp only [Packet.request, Packet.mk.injEq, true_and] at hpkt
    exact ⟨hpkt.1.symm, hpkt.2.symm⟩
  · exact hnul (readsBack_iff.mp hrb).2

/-- A foreground job with a unique id and separators in its payload. -/
theorem api_fields_preserved_resize :
    (ApiCall.submit "resize" (some "u") [1, 0, 2] .foreground).ReadsBack .new := by
  have hfree : (ApiCall.submit "resize" (some "u") [1, 0, 2] .foreground).NulFree := by
    intro s hs
    simp only [text, Option.getD_some, List.mem_cons, List.not_mem_nil, or_false] at hs
    rcases hs with rfl | rfl <;> decide
  have hacc : GearmanCodec.new.Accepts
      (ApiCall.submit "resize" (some "u") [1, 0, 2] .foreground).packet := by decide
  rcases (api_fields_preserved .new).1 _ hfree with hrefused | hread
  · obtain ⟨e, he⟩ := hrefused []
    rw [GearmanCodec.encode_of_accepts hacc] at he
    cases he
  · exact hread

/-- Submitting function `a\0b` is neither refused nor read back, and writes the
bytes of another call. -/
theorem api_fields_injected :
    ¬ (∀ (codec : GearmanCodec) (call : ApiCall), call.Refused codec ∨ call.ReadsBack codec) ∧
    ¬ ∀ (codec : GearmanCodec) (call call' : ApiCall) (out : Bytes), call.Writes codec out →
      call'.Writes codec out → call.fields = call'.fields := by
  let call : ApiCall := .submit "a\x00b" none [1] .inBackground
  let call' : ApiCall := .submit "a" (some "b") [0, 1] .inBackground
  have hacc : GearmanCodec.new.Accepts call.packet := by decide
  have hacc' : GearmanCodec.new.Accepts call'.packet := by decide
  constructor
  · intro h
    rcases h .new call with hrefused | hread
    · obtain ⟨e, he⟩ := hrefused []
      rw [GearmanCodec.encode_of_accepts hacc] at he
      cases he
    · exact absurd ((readsBack_iff.mp hread).2 "a\x00b" (by simp [call, text])) (by decide)
  · intro h
    have hsame : GearmanCodec.frame call.packet = GearmanCodec.frame call'.packet := by decide
    have hfields := h .new call call' _ (writes_iff.mpr ⟨hacc, rfl⟩) (writes_iff.mpr ⟨hacc', hsame⟩)
    exact absurd hfields (by decide)

end Gearman

import Gearman.Protocol.Command
import Gearman.Protocol.Header
import Gearman.Lib.Delimited

/-!
# Packets

A decoded (or to-be-encoded) packet: a magic, a type and the arguments in wire
order. On the wire the arguments stand one after another with a NUL between
neighbours; `splitArgs` takes them apart again.
-/

namespace Gearman.Protocol

structure Packet where
  magic : PacketMagic
  ptype : PacketType
  args : List Bytes
  deriving DecidableEq, Repr

namespace Packet

/-- `Packet::request`. -/
def request (ptype : PacketType) (args : List Bytes) : Packet := ⟨.req, ptype, args⟩

/-- `Packet::response`. -/
def response (ptype : PacketType) (args : List Bytes) : Packet := ⟨.res, ptype, args⟩

/-- The argument at `index`, if present. -/
def arg (pkt : Packet) (index : Nat) : Option Bytes := pkt.args[index]?

/-- The argument at `index` as a string, if present and valid UTF-8. -/
def argStr (pkt : Packet) (index : Nat) : Option String := (pkt.arg index).bind fromUtf8

/-- Length of the payload on the wire: the arguments plus the separators
between them. -/
def encodedBodyLen (pkt : Packet) : Nat :=
  let separators := pkt.args.length - 1
  (pkt.args.map List.length).sum + separators

/-- The loop of `split_args`: `n` times, the bytes up to the next NUL become an
argument and the NUL is skipped; what is left is the last argument. -/
def splitLoop (ptype : PacketType) : Nat → Bytes → Except GearmanError (List Bytes)
  | 0, payload => .ok [payload]
  | n + 1, payload =>
    match payload.findIdx? (· == 0) with
    | none => .error (.malformedBody ptype "missing NUL argument separator")
    | some nulPos =>
      match splitLoop ptype n (payload.drop (nulPos + 1)) with
      | .error e => .error e
      | .ok args => .ok (payload.take nulPos :: args)

/-- Splits a raw payload into `ptype.argCount` arguments. -/
def splitArgs (ptype : PacketType) (payload : Bytes) : Except GearmanError (List Bytes) :=
  if ptype.argCount = 0 then
    if payload.isEmpty then .ok []
    else .error (.malformedBody ptype "expected empty payload")
  else splitLoop ptype (ptype.argCount - 1) payload

/-- The arguments as a peer can read them back: as many as the type asks for,
and no NUL in any but the last. -/
structure Layout (pkt : Packet) : Prop where
  count : pkt.args.length = pkt.ptype.argCount
  nulFree : ∀ a ∈ pkt.args.dropLast, (0 : UInt8) ∉ a

instance (pkt : Packet) : Decidable pkt.Layout :=
  decidable_of_iff (pkt.args.length = pkt.ptype.argCount ∧ ∀ a ∈ pkt.args.dropLast, (0 : UInt8) ∉ a)
    ⟨fun h => ⟨h.1, h.2⟩, fun h => ⟨h.count, h.nulFree⟩⟩

/-! ## Splitting inverts joining -/

theorem findIdx_eq_cut (payload : Bytes) :
    Delimited.cut 0 payload =
      (payload.findIdx? (· == 0)).map fun i => (payload.take i, payload.drop (i + 1)) := by
  induction payload with
  | nil => rfl
  | cons b payload ih =>
    by_cases hb : b = 0
    · simp [Delimited.cut, List.findIdx?_cons, hb]
    · simp only [Delimited.cut, hb, ↓reduceIte, ih, List.findIdx?_cons, beq_iff_eq,
        Option.map_map]
      rfl

/-- The loop reads exactly the fields the payload splits into. -/
theorem splitLoop_eq_ok {ptype : PacketType} {n : Nat} {payload : Bytes} {args : List Bytes} :
    splitLoop ptype n payload = .ok args ↔ Delimited.split 0 n payload = some args := by
  induction n generalizing payload args with
  | zero => simp [splitLoop, Delimited.split]
  | succ n ih =>
    simp only [splitLoop, Delimited.split, findIdx_eq_cut]
    cases payload.findIdx? (· == 0) with
    | none => simp
    | some i =>
      simp only [Option.map_some, Option.bind_some, Option.map_eq_some_iff]
      cases hrest : splitLoop ptype n (payload.drop (i + 1)) with
      | error e =>
        simp only [reduceCtorEq, false_iff, not_exists, not_and]
        intro fs hfs
        rw [ih.mpr hfs] at hrest
        cases hrest
      | ok fs =>
        simp only [Except.ok.injEq]
        constructor
        · rintro rfl
          exact ⟨fs, ih.mp hrest, rfl⟩
        · rintro ⟨gs, hgs, rfl⟩
          rw [ih.mpr hgs] at hrest
          cases hrest
          rfl

/-- `splitArgs` is the unique inverse of joining: it returns `args` exactly
when they have the layout of the type and the payload is their join. -/
theorem splitArgs_eq_ok (magic : PacketMagic) {ptype : PacketType} {payload : Bytes}
    {args : List Bytes} :
    splitArgs ptype payload = .ok args ↔
      Layout ⟨magic, ptype, args⟩ ∧ payload = Delimited.join 0 args := by
  unfold splitArgs
  by_cases hcount : ptype.argCount = 0
  · simp only [hcount, ↓reduceIte]
    constructor
    · intro h
      split at h
      · next hp =>
        cases h
        exact ⟨⟨hcount.symm, by simp⟩, by simpa using hp⟩
      · cases h
    · rintro ⟨hlay, rfl⟩
      have hargs : args = [] := by simpa [hcount] using hlay.count
      subst hargs
      rfl
  · simp only [hcount, ↓reduceIte, splitLoop_eq_ok, Delimited.split_eq_some_iff]
    constructor
    · rintro ⟨hlen, hfree, hp⟩
      exact ⟨⟨by simp only; omega, hfree⟩, hp⟩
    · rintro ⟨hlay, hp⟩
      have hlen := hlay.count
      simp only at hlen
      exact ⟨by omega, hlay.nulFree, hp⟩

theorem encodedBodyLen_eq (pkt : Packet) :
    pkt.encodedBodyLen = (Delimited.join (0 : UInt8) pkt.args).length :=
  (Delimited.length_join 0 pkt.args).symm

end Packet

end Gearman.Protocol

import Gearman.Text
import Mathlib.Tactic.Common

/-!
# The packet header

Twelve bytes: a magic, the packet type and the payload length, both as
big-endian `u32`.
-/

namespace Gearman.Protocol

/-- `\0REQ`. -/
def reqMagic : Bytes := [0, 82, 69, 81]

/-- `\0RES`. -/
def resMagic : Bytes := [0, 82, 69, 83]

/-- `HEADER_LEN`: 4 (magic) + 4 (type) + 4 (payload length). -/
def headerLen : Nat := 12

inductive PacketMagic
  | req
  | res
  deriving DecidableEq, Repr

/-- `PacketMagic::bytes`. -/
def PacketMagic.bytes : PacketMagic → Bytes
  | .req => reqMagic
  | .res => resMagic

/-- The magic `decode` compares the first four bytes with. -/
def PacketMagic.ofBytes (b : Bytes) : Option PacketMagic :=
  if b = reqMagic then some .req else if b = resMagic then some .res else none

theorem PacketMagic.ofBytes_eq_some {b : Bytes} {m : PacketMagic} :
    ofBytes b = some m ↔ b = m.bytes := by
  unfold ofBytes
  constructor
  · intro h
    split at h
    · next hb =>
      cases h
      exact hb
    · split at h
      · next hb =>
        cases h
        exact hb
      · cases h
  · rintro rfl
    cases m <;> rfl

@[simp] theorem PacketMagic.length_bytes (m : PacketMagic) : m.bytes.length = 4 := by
  cases m <;> rfl

/-! ## Big-endian words -/

/-- `u32::to_be_bytes`. -/
def toBeBytes (n : UInt32) : Bytes :=
  [UInt8.ofNat (n.toNat / 2 ^ 24), UInt8.ofNat (n.toNat / 2 ^ 16),
    UInt8.ofNat (n.toNat / 2 ^ 8), UInt8.ofNat n.toNat]

/-- `u32::from_be_bytes`. -/
def fromBeBytes (b : Bytes) : UInt32 :=
  UInt32.ofNat (b.foldl (fun acc x => acc * 2 ^ 8 + x.toNat) 0)

@[simp] theorem length_toBeBytes (n : UInt32) : (toBeBytes n).length = 4 := rfl

@[simp] theorem fromBeBytes_toBeBytes (n : UInt32) : fromBeBytes (toBeBytes n) = n := by
  have hn : n.toNat < 2 ^ 32 := n.toNat_lt
  apply UInt32.toNat_inj.mp
  simp only [fromBeBytes, toBeBytes, List.foldl_cons, List.foldl_nil, UInt32.toNat_ofNat',
    UInt8.toNat_ofNat']
  omega

theorem toBeBytes_fromBeBytes {b : Bytes} (h : b.length = 4) : toBeBytes (fromBeBytes b) = b := by
  obtain ⟨b₀, b₁, b₂, b₃, rfl⟩ := List.length_eq_four.mp h
  have h₀ := b₀.toNat_lt
  have h₁ := b₁.toNat_lt
  have h₂ := b₂.toNat_lt
  have h₃ := b₃.toNat_lt
  simp only [fromBeBytes, toBeBytes, List.foldl_cons, List.foldl_nil, UInt32.toNat_ofNat',
    List.cons.injEq, and_true, ← UInt8.toNat_inj, UInt8.toNat_ofNat']
  omega

end Gearman.Protocol

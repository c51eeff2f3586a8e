import Mathlib.Algebra.Ring.Nat
import Mathlib.Data.List.Basic

/-!
# Bytes, strings and decimal numbers

The byte buffers and strings the crate passes around, with the pieces of the
standard library it reads and writes them with. `Bytes` and `&[u8]` are lists
of bytes; `String` and `&str` are Lean strings, which are UTF-8 byte arrays
with the same validity condition.
-/

namespace Gearman

/-- `Bytes`, `BytesMut` and `&[u8]`. -/
abbrev Bytes := List UInt8

/-- `str::as_bytes`. -/
def asBytes (s : String) : Bytes := s.toByteArray.data.toList

/-- `std::str::from_utf8`, up to the error value. -/
def fromUtf8 (b : Bytes) : Option String := String.fromUTF8? ⟨b.toArray⟩

@[simp] theorem fromUtf8_asBytes (s : String) : fromUtf8 (asBytes s) = some s := by
  unfold fromUtf8 asBytes String.fromUTF8?
  simp only [Array.toArray_toList]
  rw [dif_pos s.isValidUTF8]
  rfl

theorem fromUtf8_eq_some {b : Bytes} {s : String} : fromUtf8 b = some s ↔ b = asBytes s := by
  constructor
  · intro h
    unfold fromUtf8 String.fromUTF8? at h
    split at h
    · cases h
      simp [asBytes, String.fromUTF8]
    · cases h
  · rintro rfl
    exact fromUtf8_asBytes s

@[simp] theorem asBytes_empty : asBytes "" = [] := rfl

/-! ## Decimal numbers -/

/-- The value of an ASCII digit. -/
def digitVal (b : UInt8) : Option Nat :=
  if 48 ≤ b ∧ b ≤ 57 then some (b.toNat - 48) else none

/-- The digit loop of `from_str_radix`: `checked_mul` by ten, then `checked_add`. -/
def parseDigits (max : Nat) : Nat → Bytes → Option Nat
  | acc, [] => some acc
  | acc, b :: bs =>
    match digitVal b with
    | none => none
    | some d => if acc * 10 + d ≤ max then parseDigits max (acc * 10 + d) bs else none

/-- `str::parse` at an unsigned type with largest value `max`: one leading
`+` is allowed, the rest is one or more digits. -/
def parseUnsigned (max : Nat) (s : String) : Option Nat :=
  match asBytes s with
  | [] => none
  | [43] => none
  | 43 :: ds => parseDigits max 0 ds
  | ds => parseDigits max 0 ds

/-- `s.parse::<u16>().ok()`. -/
def parseU16 (s : String) : Option UInt16 := (parseUnsigned (2 ^ 16 - 1) s).map UInt16.ofNat

/-- `s.parse::<u64>().ok()`. -/
def parseU64 (s : String) : Option UInt64 := (parseUnsigned (2 ^ 64 - 1) s).map UInt64.ofNat

/-- `s.parse::<u32>().ok()`. -/
def parseU32 (s : String) : Option UInt32 := (parseUnsigned (2 ^ 32 - 1) s).map UInt32.ofNat

/-- `to_string` of an unsigned integer. -/
def decimal (n : Nat) : String := toString n

theorem asBytes_ofList (l : List Char) :
    asBytes (String.ofList l) = l.flatMap String.utf8EncodeChar := by
  unfold asBytes
  rw [String.toByteArray_ofList]
  unfold List.utf8Encode
  simp

/-- A digit is written as one ASCII byte. -/
theorem utf8EncodeChar_of_isDigit {c : Char} (h : c.isDigit = true) :
    ∃ b : UInt8, String.utf8EncodeChar c = [b] ∧ 48 ≤ b ∧ b ≤ 57 := by
  simp only [Char.isDigit, Bool.and_eq_true, decide_eq_true_eq] at h
  have hlow : 48 ≤ c.val.toNat := h.1
  have hhigh : c.val.toNat ≤ 57 := h.2
  refine ⟨UInt8.ofNat c.val.toNat, ?_, ?_, ?_⟩
  · unfold String.utf8EncodeChar
    simp only
    rw [if_pos (by omega)]
  · rw [UInt8.le_iff_toNat_le, UInt8.toNat_ofNat']
    show 48 ≤ _
    omega
  · rw [UInt8.le_iff_toNat_le, UInt8.toNat_ofNat']
    show _ ≤ 57
    omega

/-- Numbers are written with digits only. -/
theorem digit_of_mem_decimal {n : Nat} {b : UInt8} (h : b ∈ asBytes (decimal n)) :
    48 ≤ b ∧ b ≤ 57 := by
  unfold decimal at h
  rw [Nat.toString_eq_ofList_toDigits, asBytes_ofList, List.mem_flatMap] at h
  obtain ⟨c, hc, hb⟩ := h
  obtain ⟨b', hcb, hlow, hhigh⟩ :=
    utf8EncodeChar_of_isDigit (Nat.isDigit_of_mem_toDigits (by omega) (by omega) hc)
  rw [hcb, List.mem_singleton] at hb
  subst hb
  exact ⟨hlow, hhigh⟩

theorem nul_notMem_decimal (n : Nat) : (0 : UInt8) ∉ asBytes (decimal n) := by
  intro h
  exact absurd (digit_of_mem_decimal h).1 (by decide)

example : parseU64 "18446744073709551615" = some 18446744073709551615 := by decide
example : parseU64 "18446744073709551616" = none := by decide

end Gearman

import Gearman.Text

/-!
# Bytes of strings and numbers

The bytes of a string determine it and follow its characters, and what
`to_string` writes for an unsigned number `parse` reads back.
-/

namespace Gearman

/-! ## Strings -/

theorem asBytes_append (a b : String) : asBytes (a ++ b) = asBytes a ++ asBytes b := by
  simp [asBytes]

theorem asBytes_eq_flatMap (s : String) : asBytes s = s.toList.flatMap String.utf8EncodeChar := by
  rw [← asBytes_ofList, String.ofList_toList]

/-- An ASCII byte comes from its own character only: the bytes of a longer
sequence have the top bit set. -/
theorem eq_of_mem_utf8EncodeChar {c : Char} {b : UInt8} (h : b ∈ String.utf8EncodeChar c)
    (hascii : b < 128) : c.val.toNat = b.toNat := by
  have htop : ∀ n, 128 ≤ n → n < 256 → b ≠ UInt8.ofNat n := by
    rintro n hlow hhigh rfl
    rw [UInt8.lt_iff_toNat_lt, UInt8.toNat_ofNat', Nat.mod_eq_of_lt hhigh] at hascii
    exact absurd hascii (Nat.not_lt.mpr hlow)
  unfold String.utf8EncodeChar at h
  dsimp only at h
  split at h
  · rw [List.mem_singleton.mp h, UInt8.toNat_ofNat']
    omega
  · split at h
    · simp only [List.mem_cons, List.not_mem_nil, or_false] at h
      rcases h with h | h <;> exact absurd h (htop _ (by omega) (by omega))
    · split at h
      · simp only [List.mem_cons, List.not_mem_nil, or_false] at h
        rcases h with h | h | h <;> exact absurd h (htop _ (by omega) (by omega))
      · simp only [List.mem_cons, List.not_mem_nil, or_false] at h
        rcases h with h | h | h | h <;> exact absurd h (htop _ (by omega) (by omega))

theorem char_eq_of_mem_utf8EncodeChar {c d : Char} {b : UInt8} (hascii : b < 128)
    (hd : String.utf8EncodeChar d = [b]) (h : b ∈ String.utf8EncodeChar c) : c = d := by
  have hmem : b ∈ String.utf8EncodeChar d := hd ▸ List.mem_singleton_self b
  have hval := eq_of_mem_utf8EncodeChar h hascii
  exact Char.ext (UInt32.toNat_inj.mp (hval.trans (eq_of_mem_utf8EncodeChar hmem hascii).symm))

/-- An ASCII character shows as its byte. -/
theorem mem_asBytes_iff {s : String} {c : Char} {b : UInt8} (hascii : b < 128)
    (hc : String.utf8EncodeChar c = [b]) : b ∈ asBytes s ↔ c ∈ s.toList := by
  rw [asBytes_eq_flatMap, List.mem_flatMap]
  constructor
  · rintro ⟨d, hd, hmem⟩
    exact char_eq_of_mem_utf8EncodeChar hascii hc hmem ▸ hd
  · intro hmem
    exact ⟨c, hmem, hc ▸ List.mem_singleton_self b⟩

theorem lf_mem_asBytes_iff {s : String} : (10 : UInt8) ∈ asBytes s ↔ '\n' ∈ s.toList :=
  mem_asBytes_iff (by decide) rfl

theorem cr_mem_asBytes_iff {s : String} : (13 : UInt8) ∈ asBytes s ↔ '\r' ∈ s.toList :=
  mem_asBytes_iff (by decide) rfl

theorem asBytes_injective {a b : String} (h : asBytes a = asBytes b) : a = b := by
  have hb := fromUtf8_asBytes b
  rw [← h, fromUtf8_asBytes] at hb
  exact Option.some.inj hb

/-! ## Numbers -/

theorem asBytes_decimal (n : Nat) :
    asBytes (decimal n) = (Nat.toDigits 10 n).flatMap String.utf8EncodeChar := by
  rw [decimal, Nat.toString_eq_ofList_toDigits, asBytes_ofList]

/-- The byte of a digit. -/
theorem utf8EncodeChar_digitChar : ∀ d < 10,
    String.utf8EncodeChar (Nat.digitChar d) = [UInt8.ofNat (48 + d)] ∧
      digitVal (UInt8.ofNat (48 + d)) = some d := by
  decide

theorem parseDigits_append (max acc : Nat) (xs ys : Bytes) :
    parseDigits max acc (xs ++ ys) =
      (parseDigits max acc xs).bind fun v => parseDigits max v ys := by
  induction xs generalizing acc with
  | nil => rfl
  | cons b xs ih =>
    rw [List.cons_append, parseDigits, parseDigits]
    cases digitVal b with
    | none => rfl
    | some d =>
      dsimp only
      split
      · exact ih _
      · rfl

theorem parseDigits_digit {max acc d : Nat} (hd : d < 10) (h : acc * 10 + d ≤ max) :
    parseDigits max acc (String.utf8EncodeChar (Nat.digitChar d)) = some (acc * 10 + d) := by
  obtain ⟨hbyte, hval⟩ := utf8EncodeChar_digitChar d hd
  rw [hbyte, parseDigits, hval]
  exact if_pos h

/-- The digits of a number that is not too large are read one by one. -/
theorem parseDigits_decimal {max n : Nat} (h : n ≤ max) :
    parseDigits max 0 (asBytes (decimal n)) = some n := by
  rw [asBytes_decimal]
  induction n using Nat.strong_induction_on with
  | _ n ih =>
    rcases Nat.lt_or_ge n 10 with hlt | hge
    · rw [Nat.toDigits_of_lt_base hlt, List.flatMap_singleton, parseDigits_digit hlt (by omega)]
      simp
    · have hprefix := ih (n / 10) (by omega) (by omega)
      rw [Nat.toDigits_of_base_le (by omega) hge, List.flatMap_append, parseDigits_append, hprefix,
        List.flatMap_singleton, Option.bind_some, parseDigits_digit (by omega) (by omega)]
      congr 1
      omega

theorem asBytes_decimal_ne_nil (n : Nat) : asBytes (decimal n) ≠ [] := by
  rw [asBytes_decimal]
  obtain ⟨c, cs, hdigits⟩ := List.exists_cons_of_ne_nil (Nat.toDigits_ne_nil (n := n) (b := 10))
  have hpos := c.utf8Size_pos
  intro h
  rw [hdigits, List.flatMap_cons, List.append_eq_nil_iff] at h
  have hlength := congrArg List.length h.1
  rw [String.length_utf8EncodeChar] at hlength
  simp at hlength
  omega

theorem parseUnsigned_decimal {max n : Nat} (h : n ≤ max) :
    parseUnsigned max (decimal n) = some n := by
  have hparse := parseDigits_decimal h
  have hdigit : ∀ b ∈ asBytes (decimal n), b ≠ 43 := by
    rintro b hb rfl
    exact absurd (digit_of_mem_decimal hb).1 (by decide)
  unfold parseUnsigned
  split
  · exact absurd ‹_› (asBytes_decimal_ne_nil n)
  · rename_i hbytes
    exact absurd rfl (hdigit 43 (hbytes ▸ List.mem_cons_self))
  · rename_i hbytes
    exact absurd rfl (hdigit 43 (hbytes ▸ List.mem_cons_self))
  · exact hparse

@[simp] theorem parseU64_decimal (n : UInt64) : parseU64 (decimal n.toNat) = some n := by
  have h : n.toNat ≤ 2 ^ 64 - 1 := by
    have hlt := n.toNat_lt
    omega
  rw [parseU64, parseUnsigned_decimal h, Option.map_some, UInt64.ofNat_toNat]

@[simp] theorem parseU32_decimal (n : UInt32) : parseU32 (decimal n.toNat) = some n := by
  have h : n.toNat ≤ 2 ^ 32 - 1 := by
    have hlt := n.toNat_lt
    omega
  rw [parseU32, parseUnsigned_decimal h, Option.map_some, UInt32.ofNat_toNat]

end Gearman

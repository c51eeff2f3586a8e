import Mathlib.Algebra.Ring.Nat
import Mathlib.Tactic.Common

/-!
# Unsigned machine arithmetic

Sums and differences of unsigned words of some width, as a build with overflow checks
computes them (`none` where it panics) and as one without them does (modulo the width).
A sum of several words comes out as their sum does if it is reduced once at the end.
-/

structure MachineWord where
  bits : Nat
  overflowChecks : Bool
  deriving DecidableEq, Repr

namespace MachineWord

/-- What an operation makes of its exact result. -/
def ofNat (word : MachineWord) (n : Nat) : Option Nat :=
  if n < 2 ^ word.bits then some n
  else if word.overflowChecks then none
  else some (n % 2 ^ word.bits)

def add (word : MachineWord) (m n : Nat) : Option Nat := word.ofNat (m + n)

def sub (word : MachineWord) (m n : Nat) : Option Nat :=
  if n ≤ m then some (m - n)
  else if word.overflowChecks then none
  else some ((m + 2 ^ word.bits - n) % 2 ^ word.bits)

/-- Adding up from the left. -/
def sum (word : MachineWord) : Nat → List Nat → Option Nat
  | acc, [] => some acc
  | acc, n :: ns => (word.add acc n).bind fun acc => word.sum acc ns

variable {word : MachineWord} {m n : Nat}

theorem ofNat_of_lt (h : n < 2 ^ word.bits) : word.ofNat n = some n := if_pos h

theorem sub_of_le (h : n ≤ m) : word.sub m n = some (m - n) := if_pos h

/-- A result is the exact one, or wrapped around to less. -/
theorem ofNat_eq_some (h : word.ofNat n = some m) : m = n ∨ 2 ^ word.bits ≤ n ∧ m < n := by
  unfold ofNat at h
  split at h
  · exact .inl (Option.some.inj h).symm
  · next hwrap =>
    split at h
    · cases h
    · obtain rfl := Option.some.inj h
      have hmod : n % 2 ^ word.bits < 2 ^ word.bits := Nat.mod_lt _ (Nat.two_pow_pos _)
      exact .inr ⟨Nat.le_of_not_lt hwrap, by omega⟩

/-- An overflow before an addition shows after it. -/
theorem ofNat_bind_add (word : MachineWord) (m n : Nat) :
    ((word.ofNat m).bind fun m => word.add m n) = word.ofNat (m + n) := by
  by_cases hm : m < 2 ^ word.bits
  · rw [ofNat_of_lt hm]
    rfl
  · have hsum : ¬m + n < 2 ^ word.bits := by omega
    unfold add ofNat
    rw [if_neg hm, if_neg hsum]
    cases word.overflowChecks with
    | true => rfl
    | false =>
      rw [if_neg Bool.false_ne_true, if_neg Bool.false_ne_true, Option.bind_some]
      split
      · next hlt => rw [← Nat.mod_eq_of_lt hlt, Nat.mod_add_mod]
      · rw [if_neg Bool.false_ne_true, Nat.mod_add_mod]

theorem ofNat_bind_sum (word : MachineWord) (m : Nat) (ns : List Nat) :
    ((word.ofNat m).bind fun m => word.sum m ns) = word.ofNat (m + ns.sum) := by
  induction ns generalizing m with
  | nil =>
    unfold sum
    rw [Option.bind_fun_some, List.sum_nil, Nat.add_zero]
  | cons n ns ih =>
    unfold sum
    rw [← Option.bind_assoc, ofNat_bind_add, ih, List.sum_cons, Nat.add_assoc]

theorem sum_eq (word : MachineWord) (ns : List Nat) : word.sum 0 ns = word.ofNat ns.sum := by
  have hsum := ofNat_bind_sum word 0 ns
  rwa [ofNat_of_lt (Nat.two_pow_pos _), Option.bind_some, Nat.zero_add] at hsum

end MachineWord

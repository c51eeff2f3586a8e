import Mathlib.Data.List.Nodup
import Mathlib.Data.List.Perm.Subperm
import Mathlib.Data.Nat.ModEq

/-!
# A wrapping counter modulo a length

A counter that wraps at `M` and is taken modulo `n`, as where turns are given out by
a machine integer. `n` turns in a row take all the places below `n`, each once, if
the counter does not wrap among them or `n` divides `M`, and only then: where it wraps
in the middle of a round, some place is taken twice.
-/

namespace WrappingCounter

/-- The place of the turn `i` turns after the counter was `v`. -/
def place (M n v i : Nat) : Nat := (v + i) % M % n

variable {M n v i j : Nat}

theorem place_lt (hn : 0 < n) (M v i : Nat) : place M n v i < n := Nat.mod_lt _ hn

theorem place_of_lt (h : v + i < M) : place M n v i = (v + i) % n := by
  rw [place, Nat.mod_eq_of_lt h]

theorem place_of_dvd (h : n ∣ M) (v i : Nat) : place M n v i = (v + i) % n :=
  Nat.mod_mod_of_dvd _ h

/-- Two turns of one place are a multiple of `n` apart. -/
theorem eq_of_add_mod_eq (hi : i < n) (hj : j < n) (h : (v + i) % n = (v + j) % n) : i = j := by
  have hmod : i ≡ j [MOD n] := Nat.ModEq.add_left_cancel' v h
  rwa [Nat.ModEq, Nat.mod_eq_of_lt hi, Nat.mod_eq_of_lt hj] at hmod

/-- Some place is taken twice where the counter wraps in the middle of a round. -/
theorem exists_place_eq (hv : v < M) (hwrap : M < v + n) (hdvd : ¬n ∣ M) :
    ∃ i j, i < j ∧ j < n ∧ place M n v i = place M n v j := by
  have hpos : 0 < n := by omega
  have hrest : 0 < M % n := Nat.pos_of_ne_zero fun h => hdvd (Nat.dvd_of_mod_eq_zero h)
  have hlt : M % n < n := Nat.mod_lt _ hpos
  have hle : M % n ≤ M := Nat.mod_le M n
  have hround : n * (M / n) + M % n = M := Nat.div_add_mod M n
  by_cases hcase : M - v ≤ M % n
  · -- the last round is cut short after its turn number `M % n`
    refine ⟨0, M % n, hrest, hlt, ?_⟩
    have hafter : (v + M % n) % M = v + M % n - M := by
      rw [Nat.mod_eq_sub_mod (by omega), Nat.mod_eq_of_lt (by omega)]
    have hv' : v = n * (M / n) + (v + M % n - M) := by omega
    rw [place, place, hafter, Nat.add_zero, Nat.mod_eq_of_lt hv]
    conv_lhs => rw [hv']
    exact Nat.mul_add_mod ..
  · -- the place 0 at the start of the last round, and again after the wrap
    refine ⟨M - v - M % n, M - v, by omega, by omega, ?_⟩
    have hbefore : v + (M - v - M % n) = n * (M / n) := by omega
    have hafter : v + (M - v) = M := by omega
    rw [place_of_lt (by omega), place, hbefore, hafter, Nat.mod_self, Nat.mul_mod_right,
      Nat.zero_mod]

/-- **A fair round.** `n` turns take each place once if and only if the counter does not
wrap among them or `n` divides the value it wraps at. -/
theorem perm_range_iff (hv : v < M) :
    ((List.range n).map (place M n v)).Perm (List.range n) ↔ v + n ≤ M ∨ n ∣ M := by
  constructor
  · intro hperm
    by_contra h
    obtain ⟨hwrap, hdvd⟩ := not_or.mp h
    obtain ⟨i, j, hij, hj, heq⟩ := exists_place_eq hv (Nat.lt_of_not_le hwrap) hdvd
    have hnodup := hperm.nodup_iff.mpr List.nodup_range
    have hinj := List.inj_on_of_nodup_map hnodup (List.mem_range.mpr (Nat.lt_trans hij hj))
      (List.mem_range.mpr hj) heq
    omega
  · intro h
    have hplace : ∀ i < n, place M n v i = (v + i) % n := by
      intro i hi
      rcases h with h | h
      · exact place_of_lt (by omega)
      · exact place_of_dvd h v i
    have hnodup : ((List.range n).map (place M n v)).Nodup := by
      refine List.nodup_range.map_on fun i hi j hj heq => ?_
      rw [List.mem_range] at hi hj
      rw [hplace i hi, hplace j hj] at heq
      exact eq_of_add_mod_eq hi hj heq
    have hsub : (List.range n).map (place M n v) ⊆ List.range n := by
      intro s hs
      obtain ⟨i, hi, rfl⟩ := List.mem_map.mp hs
      exact List.mem_range.mpr (place_lt (Nat.zero_lt_of_lt (List.mem_range.mp hi)) M v i)
    exact (List.subperm_of_subset hnodup hsub).perm_of_length_le (by simp)

end WrappingCounter

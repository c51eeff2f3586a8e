import Mathlib.Data.List.Rotate
import Mathlib.Order.Lattice

/-!
# The next point on a circle

The elements of a list have keys in a linear order, read as places on a circle.
A search in a list sorted by key finds the first element whose key is not below
`h`, or the first of all where there is none. `IsNext` says the same without
reference to the order of the list: no other element comes earlier on the way
round from `h`. What is next among more elements is next among fewer.
-/

namespace Clockwise

variable {κ α : Type*} [LinearOrder κ]

/-- On the way round from `h`, the key `a` comes no later than `b`. -/
def Before (h a b : κ) : Prop := (h ≤ b → h ≤ a ∧ a ≤ b) ∧ (b < h → a < h → a ≤ b)

theorem Before.antisymm {h a b : κ} (hab : Before h a b) (hba : Before h b a) : a = b := by
  rcases le_or_gt h b with hb | hb
  · obtain ⟨ha, hle⟩ := hab.1 hb
    exact le_antisymm hle (hba.1 ha).2
  · rcases le_or_gt h a with ha | ha
    · exact absurd (hba.1 ha).1 (not_le_of_gt hb)
    · exact le_antisymm (hab.2 hb ha) (hba.2 ha hb)

/-- `a` is the first element of `l` on the way round from `h`. -/
structure IsNext (key : α → κ) (h : κ) (l : List α) (a : α) : Prop where
  mem : a ∈ l
  before : ∀ b ∈ l, Before h (key a) (key b)

variable {key : α → κ} {h : κ} {l l' : List α} {a b : α}

theorem IsNext.key_eq (ha : IsNext key h l a) (hb : IsNext key h l b) : key a = key b :=
  (ha.before b hb.mem).antisymm (hb.before a ha.mem)

theorem IsNext.of_subset (ha : IsNext key h l' a) (hsub : l ⊆ l') (hmem : a ∈ l) :
    IsNext key h l a :=
  ⟨hmem, fun b hb => ha.before b (hsub hb)⟩

/-- Only the keys matter. -/
theorem isNext_map {β : Type*} {key' : β → κ} {f : α → β} (hf : ∀ a ∈ l, key' (f a) = key a)
    (ha : a ∈ l) : IsNext key' h (l.map f) (f a) ↔ IsNext key h l a := by
  constructor
  · intro hnext
    refine ⟨ha, fun b hb => ?_⟩
    have hbefore := hnext.before (f b) (List.mem_map_of_mem hb)
    rwa [hf a ha, hf b hb] at hbefore
  · intro hnext
    refine ⟨List.mem_map_of_mem ha, fun b' hb' => ?_⟩
    obtain ⟨b, hb, rfl⟩ := List.mem_map.mp hb'
    rw [hf a ha, hf b hb]
    exact hnext.before b hb

/-- The binary search finds the next element. -/
theorem isNext_search (hsorted : l.Pairwise fun a b => key a ≤ key b)
    (ha : l[(l.findIdx fun a => !decide (key a < h)) % l.length]? = some a) :
    IsNext key h l a := by
  refine ⟨List.mem_of_getElem? ha, fun b hb => ?_⟩
  obtain ⟨j, hj, rfl⟩ := List.mem_iff_getElem.mp hb
  have hle := List.pairwise_iff_getElem.mp hsorted
  rcases Nat.lt_or_ge (l.findIdx fun a => !decide (key a < h)) l.length with hfound | hnone
  · rw [Nat.mod_eq_of_lt hfound, List.getElem?_eq_getElem hfound] at ha
    cases ha
    have hnot : h ≤ key l[l.findIdx fun a => !decide (key a < h)] := by
      have hp := List.findIdx_getElem (w := hfound)
      exact not_lt.mp (by simpa using hp)
    refine ⟨fun hb => ⟨hnot, ?_⟩, fun _ hlt => absurd hlt (not_lt_of_ge hnot)⟩
    -- elements in front of the one found are below `h`
    rcases Nat.lt_trichotomy j (l.findIdx fun a => !decide (key a < h)) with hlt | rfl | hgt
    · have hp := List.not_of_lt_findIdx hlt
      exact absurd hb (not_le_of_gt (by simpa using hp))
    · exact le_refl _
    · exact hle _ _ hfound hj hgt
  · have hall : ∀ k (hk : k < l.length), key l[k] < h := by
      intro k hk
      have hp := List.not_of_lt_findIdx (Nat.lt_of_lt_of_le hk hnone)
      simpa using hp
    have hlength := Nat.le_antisymm List.findIdx_le_length hnone
    rw [hlength, Nat.mod_self, List.getElem?_eq_getElem (Nat.zero_lt_of_lt hj)] at ha
    cases ha
    refine ⟨fun hb => absurd hb (not_le_of_gt (hall j hj)), fun _ _ => ?_⟩
    rcases Nat.eq_zero_or_pos j with rfl | hpos
    · exact le_refl _
    · exact hle 0 j _ hj hpos

end Clockwise

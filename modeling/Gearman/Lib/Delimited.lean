import Mathlib.Algebra.Ring.Nat
import Mathlib.Data.List.Basic
import Mathlib.Tactic.Common

/-!
# Fields separated by a delimiter

A list cut into a fixed number of fields at its first delimiters, the last
field taking everything that is left. `split_eq_some_iff` says that cutting is
the unique inverse of joining: the fields but the last are free of the
delimiter, and joining them gives the list back. `fieldsBy` and `words` cut at
every delimiter, of which there may be several.
-/

namespace Delimited

variable {α : Type*}

/-- What stands before the first `sep`, and what follows it. -/
def cut [DecidableEq α] (sep : α) : List α → Option (List α × List α)
  | [] => none
  | a :: l => if a = sep then some ([], l) else (cut sep l).map fun p => (a :: p.1, p.2)

/-- `n` fields cut off at the first `n` separators, and the rest as a last field. -/
def split [DecidableEq α] (sep : α) : Nat → List α → Option (List (List α))
  | 0, l => some [l]
  | n + 1, l => (cut sep l).bind fun p => (split sep n p.2).map fun fs => p.1 :: fs

/-- The fields with one `sep` between neighbours. -/
def join (sep : α) : List (List α) → List α
  | [] => []
  | [f] => f
  | f :: fs => f ++ sep :: join sep fs

@[simp] theorem join_nil (sep : α) : join sep [] = [] := rfl

@[simp] theorem join_singleton (sep : α) (f : List α) : join sep [f] = f := rfl

theorem join_cons_of_ne_nil (sep : α) (f : List α) {fs : List (List α)} (h : fs ≠ []) :
    join sep (f :: fs) = f ++ sep :: join sep fs := by
  cases fs with
  | nil => exact absurd rfl h
  | cons g gs => rfl

theorem length_join (sep : α) (fs : List (List α)) :
    (join sep fs).length = (fs.map List.length).sum + (fs.length - 1) := by
  induction fs with
  | nil => rfl
  | cons f fs ih =>
    cases fs with
    | nil => simp
    | cons g gs =>
      rw [join_cons_of_ne_nil sep f (by simp)]
      simp only [List.length_append, List.length_cons, ih, List.map_cons, List.sum_cons]
      omega

theorem join_concat (sep : α) {fs : List (List α)} (h : fs ≠ []) (f : List α) :
    join sep (fs ++ [f]) = join sep fs ++ sep :: f := by
  induction fs with
  | nil => exact absurd rfl h
  | cons g gs ih =>
    cases gs with
    | nil => rfl
    | cons g' gs =>
      rw [List.cons_append, join_cons_of_ne_nil sep g (by simp),
        join_cons_of_ne_nil sep g (by simp), ih (by simp)]
      simp

theorem mem_join {sep a : α} {fs : List (List α)} (h : a ∈ join sep fs) :
    a = sep ∨ ∃ f ∈ fs, a ∈ f := by
  induction fs with
  | nil => cases h
  | cons f fs ih =>
    cases fs with
    | nil => exact .inr ⟨f, List.mem_cons_self, h⟩
    | cons g gs =>
      rw [join_cons_of_ne_nil sep f (by simp)] at h
      rcases List.mem_append.mp h with h | h
      · exact .inr ⟨f, List.mem_cons_self, h⟩
      · rcases List.mem_cons.mp h with h | h
        · exact .inl h
        · rcases ih h with h | ⟨f', hf', h⟩
          · exact .inl h
          · exact .inr ⟨f', List.mem_cons_of_mem _ hf', h⟩

/-! ## All fields -/

/-- The fields between the elements with `p`, empty ones included. -/
def fieldsBy (p : α → Bool) : List α → List (List α)
  | [] => [[]]
  | a :: l =>
    if p a then [] :: fieldsBy p l
    else
      match fieldsBy p l with
      | [] => [[a]]
      | f :: fs => (a :: f) :: fs

/-- The fields that are not empty. -/
def words (p : α → Bool) (l : List α) : List (List α) := (fieldsBy p l).filter fun f => !f.isEmpty

theorem fieldsBy_append {p : α → Bool} {f : List α} (hf : ∀ a ∈ f, p a = false) {l g : List α}
    {gs : List (List α)} (hl : fieldsBy p l = g :: gs) :
    fieldsBy p (f ++ l) = (f ++ g) :: gs := by
  induction f with
  | nil => exact hl
  | cons a f ih =>
    rw [List.forall_mem_cons] at hf
    rw [List.cons_append, fieldsBy, hf.1, ih hf.2]
    rfl

/-- Fields without the separator come back from their join. -/
theorem fieldsBy_join {p : α → Bool} {sep : α} (hsep : p sep = true) {fs : List (List α)}
    (hne : fs ≠ []) (h : ∀ f ∈ fs, ∀ a ∈ f, p a = false) : fieldsBy p (join sep fs) = fs := by
  induction fs with
  | nil => exact absurd rfl hne
  | cons f fs ih =>
    rw [List.forall_mem_cons] at h
    cases fs with
    | nil =>
      have hfield := fieldsBy_append h.1 (l := []) rfl
      rwa [List.append_nil] at hfield
    | cons g gs =>
      have hrest : fieldsBy p (sep :: join sep (g :: gs)) = [] :: g :: gs := by
        rw [fieldsBy, hsep, ih (by simp) h.2]
        rfl
      rw [join_cons_of_ne_nil sep f (by simp), fieldsBy_append h.1 hrest, List.append_nil]

theorem fieldsBy_ne_nil (p : α → Bool) (l : List α) : fieldsBy p l ≠ [] := by
  cases l with
  | nil => exact List.cons_ne_nil _ _
  | cons a l =>
    unfold fieldsBy
    split
    · exact List.cons_ne_nil _ _
    · split <;> exact List.cons_ne_nil _ _

/-- Joining the fields gives the list back. -/
theorem join_fieldsBy {p : α → Bool} {sep : α} (hsep : ∀ a, p a = true → a = sep) (l : List α) :
    join sep (fieldsBy p l) = l := by
  induction l with
  | nil => rfl
  | cons a l ih =>
    unfold fieldsBy
    by_cases ha : p a = true
    · rw [if_pos ha, join_cons_of_ne_nil sep [] (fieldsBy_ne_nil p l), ih, hsep a ha]
      rfl
    · rw [if_neg ha]
      rcases hfields : fieldsBy p l with _ | ⟨f, fs⟩
      · exact absurd hfields (fieldsBy_ne_nil p l)
      · rw [hfields] at ih
        rw [← ih]
        cases fs with
        | nil => rfl
        | cons g gs =>
          rw [join_cons_of_ne_nil sep _ (List.cons_ne_nil g gs),
            join_cons_of_ne_nil sep _ (List.cons_ne_nil g gs)]
          rfl

theorem eq_false_of_mem_fieldsBy {p : α → Bool} {l f : List α} (hf : f ∈ fieldsBy p l) {a : α}
    (ha : a ∈ f) : p a = false := by
  induction l generalizing f with
  | nil =>
    rw [List.mem_singleton.mp hf] at ha
    cases ha
  | cons b l ih =>
    unfold fieldsBy at hf
    by_cases hb : p b = true
    · rw [if_pos hb] at hf
      rcases List.mem_cons.mp hf with rfl | hf
      · cases ha
      · exact ih hf ha
    · rw [if_neg hb] at hf
      rcases hfields : fieldsBy p l with _ | ⟨g, gs⟩
      · exact absurd hfields (fieldsBy_ne_nil p l)
      · rw [hfields] at hf ih
        rcases List.mem_cons.mp hf with rfl | hf
        · rcases List.mem_cons.mp ha with rfl | ha
          · exact Bool.not_eq_true _ ▸ hb
          · exact ih List.mem_cons_self ha
        · exact ih (List.mem_cons_of_mem _ hf) ha

theorem words_join {p : α → Bool} {sep : α} (hsep : p sep = true) {fs : List (List α)}
    (hne : fs ≠ []) (h : ∀ f ∈ fs, f ≠ [] ∧ ∀ a ∈ f, p a = false) :
    words p (join sep fs) = fs := by
  rw [words, fieldsBy_join hsep hne fun f hf => (h f hf).2, List.filter_eq_self]
  intro f hf
  simpa using (h f hf).1

/-! ## A fixed number of fields -/

variable [DecidableEq α]

theorem cut_eq_some_iff {sep : α} {l f r : List α} :
    cut sep l = some (f, r) ↔ sep ∉ f ∧ l = f ++ sep :: r := by
  induction l generalizing f with
  | nil => simp [cut]
  | cons a l ih =>
    by_cases ha : a = sep
    · subst ha
      constructor
      · intro h
        simp only [cut, ↓reduceIte, Option.some.injEq, Prod.mk.injEq] at h
        obtain ⟨rfl, rfl⟩ := h
        simp
      · rintro ⟨hf, hl⟩
        cases f with
        | nil => simp_all [cut]
        | cons b f =>
          simp only [List.cons_append, List.cons.injEq] at hl
          exact absurd (hl.1 ▸ List.mem_cons_self) hf
    · simp only [cut, ha, ↓reduceIte, Option.map_eq_some_iff, Prod.mk.injEq, Prod.exists]
      constructor
      · rintro ⟨g, r', hc, rfl, rfl⟩
        obtain ⟨hg, rfl⟩ := ih.mp hc
        simp [hg, Ne.symm ha]
      · rintro ⟨hf, hl⟩
        cases f with
        | nil => simp_all
        | cons b f =>
          simp only [List.cons_append, List.cons.injEq] at hl
          obtain ⟨rfl, rfl⟩ := hl
          exact ⟨f, r, ih.mpr ⟨fun h => hf (List.mem_cons_of_mem _ h), rfl⟩, rfl, rfl⟩

theorem cut_eq_none {sep : α} {l : List α} (h : sep ∉ l) : cut sep l = none := by
  apply Option.eq_none_iff_forall_not_mem.mpr
  rintro ⟨f, r⟩ hcut
  obtain ⟨-, rfl⟩ := cut_eq_some_iff.mp hcut
  exact h (List.mem_append_right _ List.mem_cons_self)

/-- **Cutting inverts joining.** A list cuts into `fs` exactly when `fs` has
`n + 1` fields, none but the last contains the separator, and the list is
their join. -/
theorem split_eq_some_iff {sep : α} {n : Nat} {l : List α} {fs : List (List α)} :
    split sep n l = some fs ↔
      fs.length = n + 1 ∧ (∀ f ∈ fs.dropLast, sep ∉ f) ∧ l = join sep fs := by
  induction n generalizing l fs with
  | zero =>
    simp only [split, Option.some.injEq]
    constructor
    · rintro rfl
      exact ⟨rfl, by simp, rfl⟩
    · rintro ⟨hlen, -, rfl⟩
      obtain ⟨f, rfl⟩ := List.length_eq_one_iff.mp hlen
      rfl
  | succ n ih =>
    simp only [split, Option.bind_eq_some_iff, Option.map_eq_some_iff, Prod.exists]
    constructor
    · rintro ⟨f, r, hc, gs, hgs, rfl⟩
      obtain ⟨hf, rfl⟩ := cut_eq_some_iff.mp hc
      obtain ⟨hlen, hfree, rfl⟩ := ih.mp hgs
      have hne : gs ≠ [] := List.ne_nil_of_length_eq_add_one hlen
      refine ⟨by simp [hlen], ?_, (join_cons_of_ne_nil sep f hne).symm⟩
      rw [List.dropLast_cons_of_ne_nil hne]
      simpa [hf] using hfree
    · rintro ⟨hlen, hfree, rfl⟩
      cases fs with
      | nil => cases hlen
      | cons f gs =>
        have hlen' : gs.length = n + 1 := by simpa using hlen
        have hne : gs ≠ [] := List.ne_nil_of_length_eq_add_one hlen'
        rw [List.dropLast_cons_of_ne_nil hne] at hfree
        simp only [List.mem_cons, forall_eq_or_imp] at hfree
        exact ⟨f, join sep gs,
          cut_eq_some_iff.mpr ⟨hfree.1, join_cons_of_ne_nil sep f hne⟩,
          gs, ih.mpr ⟨hlen', hfree.2, rfl⟩, rfl⟩

/-- Where there are enough separators, there is a way to cut. -/
theorem exists_split {sep : α} {n : Nat} {l : List α} (h : n ≤ l.count sep) :
    ∃ fs, split sep n l = some fs := by
  induction n generalizing l with
  | zero => exact ⟨[l], rfl⟩
  | succ n ih =>
    have hmem : sep ∈ l := List.count_pos_iff.mp (Nat.lt_of_lt_of_le n.succ_pos h)
    obtain ⟨f, r, rfl, hf⟩ := List.eq_append_cons_of_mem hmem
    rw [List.count_append, List.count_cons_self, List.count_eq_zero.mpr hf] at h
    obtain ⟨fs, hfs⟩ := ih (l := r) (by omega)
    refine ⟨f :: fs, ?_⟩
    rw [split, cut_eq_some_iff.mpr ⟨hf, rfl⟩, Option.bind_some, hfs]
    rfl

theorem length_le_count_join (sep : α) (fs : List (List α)) :
    fs.length ≤ (join sep fs).count sep + 1 := by
  induction fs with
  | nil => exact Nat.zero_le _
  | cons f fs ih =>
    cases fs with
    | nil => exact Nat.le_add_left _ _
    | cons g gs =>
      rw [join_cons_of_ne_nil sep f (List.cons_ne_nil _ _), List.count_append,
        List.count_cons_self, List.length_cons]
      omega

end Delimited

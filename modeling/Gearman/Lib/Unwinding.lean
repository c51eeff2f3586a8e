import Mathlib.Tactic.Common

/-!
# What an observer sees of two runs

A machine some of whose inputs are visible to an observer, who is shown something
at each of them. `Unwinds R` says that the observer cannot tell states related by
`R` apart: an invisible input does not lead out of the relation, and at a visible
one related states show the same and stay related. Then runs with the same visible
inputs show the same, wherever the invisible ones fall.
-/

namespace Unwinding

variable {σ ι ο : Type*}

/-- What is seen of a run. -/
def observe (step : σ → ι → σ) (see : σ → ι → ο) (visible : ι → Bool) : σ → List ι → List ο
  | _, [] => []
  | s, i :: is =>
    if visible i then see s i :: observe step see visible (step s i) is
    else observe step see visible (step s i) is

structure Unwinds (step : σ → ι → σ) (see : σ → ι → ο) (visible : ι → Bool)
    (R : σ → σ → Prop) : Prop where
  hidden : ∀ s t i, R s t → visible i = false → R (step s i) t
  shared : ∀ s t i, R s t → visible i = true → R (step s i) (step t i)
  shown : ∀ s t i, R s t → visible i = true → see s i = see t i

variable {step : σ → ι → σ} {see : σ → ι → ο} {visible : ι → Bool} {R : σ → σ → Prop}

theorem observe_cons_visible {i : ι} (h : visible i = true) (s : σ) (is : List ι) :
    observe step see visible s (i :: is) =
      see s i :: observe step see visible (step s i) is := by
  rw [observe, if_pos h]

theorem observe_cons_invisible {i : ι} (h : visible i = false) (s : σ) (is : List ι) :
    observe step see visible s (i :: is) = observe step see visible (step s i) is := by
  rw [observe, if_neg (by rw [h]; exact Bool.false_ne_true)]

/-- A run shows what the run of its visible inputs shows. -/
theorem Unwinds.observe_filter (h : Unwinds step see visible R) {s t : σ} (hst : R s t)
    (is : List ι) :
    observe step see visible s is = observe step see visible t (is.filter visible) := by
  induction is generalizing s t with
  | nil => rfl
  | cons i is ih =>
    cases hi : visible i with
    | false =>
      rw [observe_cons_invisible hi, List.filter_cons_of_neg (by rw [hi]; exact Bool.false_ne_true)]
      exact ih (h.hidden s t i hst hi)
    | true =>
      rw [observe_cons_visible hi, List.filter_cons_of_pos hi, observe_cons_visible hi,
        h.shown s t i hst hi, ih (h.shared s t i hst hi)]

/-- **Noninterference.** Runs with the same visible inputs show the same. -/
theorem Unwinds.observe_eq (h : Unwinds step see visible R) {s : σ} (hs : R s s) {is js : List ι}
    (hsame : is.filter visible = js.filter visible) :
    observe step see visible s is = observe step see visible s js := by
  rw [h.observe_filter hs is, h.observe_filter hs js, hsame]

end Unwinding

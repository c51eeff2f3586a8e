import Mathlib.Data.List.Induction
import Mathlib.Tactic.Common

/-!
# Runs of a partial machine

A machine is a function that says, for a state and an input, which state comes
next, or `none` where the input does not apply there. A run feeds it a list of
inputs. The rules below carry a property of one step to whole runs:
`run_induction` for a property of the inputs so far and the state,
`invariant` for one of the state alone, `invariant_of_meets` for one that only
the steps satisfying a condition preserve. `countP_le_of_uses_up` bounds the
steps of a run by what they use up.
-/

namespace Machine

variable {σ ι : Type*}

/-- The state after all the inputs, if each applied when its turn came. -/
def run (step : σ → ι → Option σ) : σ → List ι → Option σ
  | s, [] => some s
  | s, i :: is => (step s i).bind fun t => run step t is

/-- Every step taken satisfies `c`, a condition on the state before the step
and the input. -/
def Meets (step : σ → ι → Option σ) (c : σ → ι → Prop) : σ → List ι → Prop
  | _, [] => True
  | s, i :: is => c s i ∧ ∀ t, step s i = some t → Meets step c t is

/-- Some run whose steps satisfy `c` gets from `s` to a state with `P`. -/
def Reaches (step : σ → ι → Option σ) (c : σ → ι → Prop) (P : σ → Prop) (s : σ) : Prop :=
  ∃ is t, Meets step c s is ∧ run step s is = some t ∧ P t

variable {step : σ → ι → Option σ}

@[simp] theorem run_nil (s : σ) : run step s [] = some s := rfl

theorem run_cons (s : σ) (i : ι) (is : List ι) :
    run step s (i :: is) = (step s i).bind fun t => run step t is := rfl

theorem run_append (s : σ) (is js : List ι) :
    run step s (is ++ js) = (run step s is).bind fun t => run step t js := by
  induction is generalizing s with
  | nil => rfl
  | cons i is ih =>
    rw [List.cons_append, run_cons, run_cons, Option.bind_assoc]
    exact congrArg _ (funext fun t => ih t)

theorem run_concat_eq_some {s t : σ} {is : List ι} {i : ι} :
    run step s (is ++ [i]) = some t ↔ ∃ m, run step s is = some m ∧ step m i = some t := by
  rw [run_append, Option.bind_eq_some_iff]
  simp [run_cons]

/-- A property of the inputs so far and the state holds after every run if it
holds at the start and each step keeps it. -/
theorem run_induction {s : σ} {P : List ι → σ → Prop} (start : P [] s)
    (next : ∀ is m i t, run step s is = some m → P is m → step m i = some t → P (is ++ [i]) t)
    {is : List ι} {t : σ} (h : run step s is = some t) : P is t := by
  induction is using List.reverseRecOn generalizing t with
  | nil =>
    cases h
    exact start
  | append_singleton is i ih =>
    obtain ⟨m, hm, hi⟩ := run_concat_eq_some.mp h
    exact next is m i t hm (ih hm) hi

/-- What every step keeps, every run keeps. -/
theorem invariant {Inv : σ → Prop} (next : ∀ s i t, Inv s → step s i = some t → Inv t)
    {s t : σ} (start : Inv s) {is : List ι} (h : run step s is = some t) : Inv t :=
  run_induction (P := fun _ => Inv) start (fun _ m i t _ hm hi => next m i t hm hi) h

theorem Meets.cons {c : σ → ι → Prop} {s t : σ} {i : ι} {is : List ι} (hc : c s i)
    (ht : step s i = some t) (h : Meets step c t is) : Meets step c s (i :: is) :=
  ⟨hc, fun _ hu => Option.some.inj (ht.symm.trans hu) ▸ h⟩

theorem Meets.append {c : σ → ι → Prop} {s t : σ} {is js : List ι} (h : Meets step c s is)
    (ht : run step s is = some t) (h' : Meets step c t js) : Meets step c s (is ++ js) := by
  induction is generalizing s with
  | nil =>
    cases ht
    exact h'
  | cons i is ih =>
    obtain ⟨m, hm, ht⟩ := Option.bind_eq_some_iff.mp ht
    exact .cons h.1 hm (ih (h.2 m hm) ht)

theorem meets_concat {c : σ → ι → Prop} {s m : σ} {is : List ι} {i : ι}
    (hm : run step s is = some m) :
    Meets step c s (is ++ [i]) ↔ Meets step c s is ∧ c m i := by
  induction is generalizing s with
  | nil =>
    cases hm
    exact ⟨fun h => ⟨trivial, h.1⟩, fun h => ⟨h.2, fun _ _ => trivial⟩⟩
  | cons j is ih =>
    obtain ⟨t, ht, hm⟩ := Option.bind_eq_some_iff.mp hm
    constructor
    · intro h
      obtain ⟨hrest, hlast⟩ := (ih hm).mp (h.2 t ht)
      exact ⟨.cons h.1 ht hrest, hlast⟩
    · intro h
      exact .cons h.1.1 ht ((ih hm).mpr ⟨h.1.2 t ht, h.2⟩)

instance {c : σ → ι → Prop} [∀ s i, Decidable (c s i)] (s : σ) (is : List ι) :
    Decidable (Meets step c s is) :=
  match is with
  | [] => inferInstanceAs (Decidable True)
  | i :: is =>
    match hm : step s i with
    | none => decidable_of_iff (c s i) ⟨fun hc => ⟨hc, by simp [hm]⟩, And.left⟩
    | some t =>
      have : Decidable (Meets step c t is) := instDecidableMeets t is
      decidable_of_iff (c s i ∧ Meets step c t is)
        ⟨fun h => .cons h.1 hm h.2, fun h => ⟨h.1, h.2 t hm⟩⟩

theorem Reaches.here {c : σ → ι → Prop} {P : σ → Prop} {s : σ} (h : P s) :
    Reaches step c P s :=
  ⟨[], s, trivial, rfl, h⟩

theorem Reaches.after {c : σ → ι → Prop} {P : σ → Prop} {s t : σ} (i : ι) (hc : c s i)
    (ht : step s i = some t) (h : Reaches step c P t) : Reaches step c P s := by
  obtain ⟨is, u, hmeets, hrun, hu⟩ := h
  refine ⟨i :: is, u, .cons hc ht hmeets, ?_, hu⟩
  rw [run_cons, ht]
  exact hrun

/-- A condition that the inputs satisfy in every state. -/
theorem meets_of_forall {c : σ → ι → Prop} {is : List ι} (h : ∀ i ∈ is, ∀ s, c s i) (s : σ) :
    Meets step c s is := by
  induction is generalizing s with
  | nil => trivial
  | cons i is ih =>
    exact ⟨h i List.mem_cons_self s, fun t _ =>
      ih (fun j hj => h j (List.mem_cons_of_mem _ hj)) t⟩

/-- What every step satisfying `c` keeps, every run of such steps keeps. -/
theorem invariant_of_meets {Inv : σ → Prop} {c : σ → ι → Prop}
    (next : ∀ s i t, Inv s → c s i → step s i = some t → Inv t)
    {s t : σ} (start : Inv s) {is : List ι} (hc : Meets step c s is)
    (h : run step s is = some t) : Inv t := by
  induction is generalizing s with
  | nil =>
    cases h
    exact start
  | cons i is ih =>
    obtain ⟨m, hm, ht⟩ := Option.bind_eq_some_iff.mp h
    exact ih (next s i m start hc.1 hm) (hc.2 m hm) ht

/-- Steps that each use up some of a measure are no more than there is of it at
first and `k` for each step that adds to it. -/
theorem countP_le_of_meets {Inv : σ → Prop} {c : σ → ι → Prop} {spends gains : ι → Bool}
    {measure : σ → Nat} {k : Nat}
    (next : ∀ s i t, Inv s → c s i → step s i = some t → Inv t ∧
      measure t + (if spends i then 1 else 0) ≤ measure s + if gains i then k else 0)
    {s t : σ} (start : Inv s) {is : List ι} (hc : Meets step c s is)
    (h : run step s is = some t) :
    is.countP spends + measure t ≤ measure s + k * is.countP gains := by
  induction is generalizing s with
  | nil =>
    cases h
    simp
  | cons i is ih =>
    obtain ⟨m, hm, h⟩ := Option.bind_eq_some_iff.mp h
    obtain ⟨hinv, hle⟩ := next s i m start hc.1 hm
    have hrest := ih hinv (hc.2 m hm) h
    rw [List.countP_cons, List.countP_cons, Nat.mul_add]
    have hgains : k * (if gains i then 1 else 0) = if gains i then k else 0 := by
      split <;> simp
    omega

/-- Steps that each use up some of a measure, between others that do not add to
it, are no more than there is of it. -/
theorem countP_le_of_uses_up {Inv : σ → Prop} {c : ι → Bool} {measure : σ → Nat}
    (next : ∀ s i t, Inv s → step s i = some t → Inv t ∧
      measure t + (if c i then 1 else 0) ≤ measure s)
    {s t : σ} (start : Inv s) {is : List ι} (h : run step s is = some t) :
    is.countP c + measure t ≤ measure s := by
  have hmeets : Meets step (fun _ _ => True) s is := meets_of_forall (fun _ _ _ => trivial) s
  have hcount : is.countP c + measure t ≤ measure s + 0 * is.countP fun _ => false :=
    countP_le_of_meets (fun s i t hs _ hi => by simpa using next s i t hs hi) start hmeets h
  omega

end Machine

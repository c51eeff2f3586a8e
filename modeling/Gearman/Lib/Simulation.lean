import Gearman.Lib.Machine

/-!
# One machine seen through another

Part of a large machine is often a machine of its own, and a machine often
keeps to an abstract one: each of its steps shows as a few inputs of the other.
`trace` reads these off a run, and `run_simulated` says that the other machine
runs through them.
-/

namespace Machine

variable {σ τ ι κ : Type*} {step : σ → ι → Option σ} {step' : τ → κ → Option τ}
variable {shows : σ → ι → List κ}

/-- What the inputs of a run show, each in the state it meets. -/
def trace (step : σ → ι → Option σ) (shows : σ → ι → List κ) : σ → List ι → List κ
  | _, [] => []
  | s, i :: is => shows s i ++ (step s i).elim [] fun t => trace step shows t is

/-- Where an input always shows the same, the inputs say all. -/
theorem trace_eq_flatMap {f : ι → List κ} {s t : σ} {is : List ι} (h : run step s is = some t) :
    trace step (fun _ => f) s is = is.flatMap f := by
  induction is generalizing s with
  | nil => rfl
  | cons i is ih =>
    obtain ⟨m, hm, h⟩ := Option.bind_eq_some_iff.mp h
    rw [trace, hm, Option.elim_some, ih h, List.flatMap_cons]

/-- Related states stay related while one machine takes a step and the other
takes what it shows. -/
def Simulates (step : σ → ι → Option σ) (step' : τ → κ → Option τ) (R : σ → τ → Prop)
    (shows : σ → ι → List κ) : Prop :=
  ∀ s i t u, R s u → step s i = some t → ∃ v, run step' u (shows s i) = some v ∧ R t v

variable {R : σ → τ → Prop}

theorem run_simulated (h : Simulates step step' R shows) {s t : σ} {u : τ} (start : R s u)
    {is : List ι} (hrun : run step s is = some t) :
    ∃ v, run step' u (trace step shows s is) = some v ∧ R t v := by
  induction is generalizing s u with
  | nil =>
    cases hrun
    exact ⟨u, rfl, start⟩
  | cons i is ih =>
    obtain ⟨m, hm, hrun⟩ := Option.bind_eq_some_iff.mp hrun
    obtain ⟨w, hw, hmw⟩ := h s i m u start hm
    obtain ⟨v, hv, htv⟩ := ih hmw hrun
    refine ⟨v, ?_, htv⟩
    rw [trace, run_append, hw, hm]
    exact hv

end Machine

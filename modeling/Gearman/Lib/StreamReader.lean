import Gearman.Lib.Delimited
import Mathlib.Data.List.Basic
import Mathlib.Tactic.Common

/-!
# Readers of a stream

A reader answers from the front of a stream and says what it leaves. It takes a
code if it reads exactly that code, whatever follows, so that its answer depends
on nothing else; it is framed if of every stream it takes a code off the front or
reads to the end. Readers in a row cut every stream into their codes
(`runAll_cut`), and there is only one way to cut it (`flatten_injective`).
-/

/-- An answer to a stream, and what is left of it. -/
abbrev StreamReader (β α : Type*) := List β → α × List β

namespace StreamReader

variable {β α γ ι : Type*} {f : StreamReader β α}

/-- Exactly the code is read, whatever follows. -/
def Takes (f : StreamReader β α) (code : List β) : Prop :=
  ∀ rest, f (code ++ rest) = ((f code).1, rest)

/-- No code stands in front of what another code is in front of. -/
theorem Takes.unique {code code' rest rest' : List β} (h : f.Takes code) (h' : f.Takes code')
    (heq : code ++ rest = code' ++ rest') : code = code' ∧ rest = rest' := by
  have hrest : ((f code).1, rest) = ((f code').1, rest') := by rw [← h rest, heq, h' rest']
  obtain rfl := (Prod.mk.inj hrest).2
  exact ⟨List.append_cancel_right heq, rfl⟩

/-- **There is only one way to cut a stream.** -/
theorem flatten_injective {cs ds : List (List β)} (hcs : ∀ c ∈ cs, f.Takes c ∧ c ≠ [])
    (hds : ∀ d ∈ ds, f.Takes d ∧ d ≠ []) (h : cs.flatten = ds.flatten) : cs = ds := by
  induction cs generalizing ds with
  | nil =>
    rcases ds with _ | ⟨d, ds⟩
    · rfl
    · exact absurd (List.append_eq_nil_iff.mp h.symm).1 (hds d List.mem_cons_self).2
  | cons c cs ih =>
    rw [List.forall_mem_cons] at hcs
    rcases ds with _ | ⟨d, ds⟩
    · exact absurd (List.append_eq_nil_iff.mp h).1 hcs.1.2
    · rw [List.forall_mem_cons] at hds
      obtain ⟨rfl, hrest⟩ := hcs.1.1.unique hds.1.1 h
      rw [ih hcs.2 hds.2 hrest]

/-- Codes are taken, and of every stream one is taken or everything is read. -/
structure FramedBy (f : StreamReader β α) (Code : List β → Prop) : Prop where
  takes : ∀ {code}, Code code → f.Takes code
  front : ∀ stream, (∃ code rest, stream = code ++ rest ∧ Code code) ∨ (f stream).2 = []

namespace FramedBy

variable {Code : List β → Prop} {code : List β}

/-- A framed reader takes nothing but its codes. -/
theorem takes_iff [Nonempty β] (hf : f.FramedBy Code) : f.Takes code ↔ Code code := by
  refine ⟨fun h => ?_, hf.takes⟩
  obtain ⟨b⟩ := ‹Nonempty β›
  rcases hf.front (code ++ [b]) with ⟨code', rest, heq, hcode'⟩ | hend
  · rw [(h.unique (hf.takes hcode') heq).1]
    exact hcode'
  · rw [h [b]] at hend
    cases hend

/-- At the end of the stream there is nothing to leave. -/
theorem nil (hf : f.FramedBy Code) : (f []).2 = [] := by
  rcases hf.front [] with ⟨code, rest, heq, hcode⟩ | hend
  · obtain ⟨rfl, rfl⟩ := List.append_eq_nil_iff.mp heq.symm
    exact congrArg Prod.snd (hf.takes hcode [])
  · exact hend

theorem eq_nil_of_no_code (hf : f.FramedBy Code) {stream : List β}
    (hnone : ∀ code, code <+: stream → ¬Code code) : (f stream).2 = [] := by
  rcases hf.front stream with ⟨code, rest, rfl, hcode⟩ | hend
  · exact absurd hcode (hnone code (List.prefix_append code rest))
  · exact hend

end FramedBy

/-- What is made of an answer does not change what is read. -/
def andThen (f : StreamReader β α) (k : α → γ) : StreamReader β γ :=
  fun stream => (k (f stream).1, (f stream).2)

theorem FramedBy.andThen {Code : List β → Prop} (hf : f.FramedBy Code) (k : α → γ) :
    (f.andThen k).FramedBy Code where
  takes hcode rest := by simp only [StreamReader.andThen, hf.takes hcode rest]
  front := hf.front

/-- What stands before the first `sep`. -/
def upTo [DecidableEq β] (sep : β) : StreamReader β (Option (List β)) := fun stream =>
  match Delimited.cut sep stream with
  | some (field, rest) => (some field, rest)
  | none => (none, [])

theorem upTo_takes [DecidableEq β] {sep : β} {field : List β} (h : sep ∉ field) :
    (upTo sep).Takes (field ++ [sep]) := by
  have hcut : ∀ rest, Delimited.cut sep (field ++ [sep] ++ rest) = some (field, rest) := by
    intro rest
    rw [List.append_assoc, Delimited.cut_eq_some_iff]
    exact ⟨h, rfl⟩
  have hself := hcut []
  rw [List.append_nil] at hself
  intro rest
  rw [upTo, upTo, hcut, hself]

/-! ## Readers in a row -/

section row

variable (reader : ι → StreamReader β α)

/-- One reader after the other. -/
def runAll : List ι → StreamReader β (List α)
  | [], stream => ([], stream)
  | i :: is, stream =>
    let (a, stream) := reader i stream
    let (as, stream) := runAll is stream
    (a :: as, stream)

theorem runAll_cons (i : ι) (is : List ι) (stream : List β) :
    runAll reader (i :: is) stream =
      ((reader i stream).1 :: (runAll reader is (reader i stream).2).1,
        (runAll reader is (reader i stream).2).2) := rfl

/-- What the readers answer, each from its own code. -/
def answers (es : List (ι × List β)) : List α := es.map fun e => (reader e.1 e.2).1

/-- Each reader takes its own code. -/
theorem runAll_codes {es : List (ι × List β)} (h : ∀ e ∈ es, (reader e.1).Takes e.2)
    (rest : List β) :
    runAll reader (es.map Prod.fst) (es.flatMap Prod.snd ++ rest) = (answers reader es, rest) := by
  induction es with
  | nil => rfl
  | cons e es ih =>
    rw [List.forall_mem_cons] at h
    rw [List.map_cons, List.flatMap_cons, List.append_assoc, runAll_cons, h.1, ih h.2]
    rfl

variable {reader} {Code : ι → List β → Prop}

theorem runAll_nil (hframed : ∀ i, (reader i).FramedBy (Code i)) (is : List ι) :
    runAll reader is [] = (is.map fun i => (reader i []).1, []) := by
  induction is with
  | nil => rfl
  | cons i is ih => rw [runAll_cons, (hframed i).nil, ih, List.map_cons]

/-- **Every stream is cut into codes.** Framed readers in a row each take a code, or
one of them finds no code and reads to the end, where the others then are. -/
theorem runAll_cut (hframed : ∀ i, (reader i).FramedBy (Code i)) (is : List ι) (stream : List β) :
    ∃ (es : List (ι × List β)) (rest : List β),
      stream = es.flatMap Prod.snd ++ rest ∧ (∀ e ∈ es, Code e.1 e.2) ∧
      ((is = es.map Prod.fst ∧ runAll reader is stream = (answers reader es, rest)) ∨
        ∃ i later, is = es.map Prod.fst ++ i :: later ∧ (∀ code, code <+: rest → ¬Code i code) ∧
          runAll reader is stream = (answers reader es ++ (reader i rest).1 ::
            later.map fun j => (reader j []).1, [])) := by
  induction is generalizing stream with
  | nil => exact ⟨[], stream, rfl, fun _ h => absurd h List.not_mem_nil, .inl ⟨rfl, rfl⟩⟩
  | cons i is ih =>
    by_cases hcode : ∃ code, code <+: stream ∧ Code i code
    · obtain ⟨code, ⟨tail, rfl⟩, hcode⟩ := hcode
      obtain ⟨es, rest, rfl, hes, hcases⟩ := ih tail
      refine ⟨(i, code) :: es, rest, ?_, List.forall_mem_cons.mpr ⟨hcode, hes⟩, ?_⟩
      · rw [List.flatMap_cons, List.append_assoc]
      · rw [runAll_cons, (hframed i).takes hcode]
        rcases hcases with ⟨rfl, hrun⟩ | ⟨j, later, rfl, hnone, hrun⟩
        · refine .inl ⟨rfl, ?_⟩
          rw [hrun]
          rfl
        · refine .inr ⟨j, later, rfl, hnone, ?_⟩
          rw [hrun]
          rfl
    · have hnone : ∀ code, code <+: stream → ¬Code i code := fun code hprefix h =>
        hcode ⟨code, hprefix, h⟩
      refine ⟨[], stream, rfl, fun _ h => absurd h List.not_mem_nil, .inr ⟨i, is, rfl, hnone, ?_⟩⟩
      rw [runAll_cons, (hframed i).eq_nil_of_no_code hnone, runAll_nil hframed]
      rfl

end row

end StreamReader

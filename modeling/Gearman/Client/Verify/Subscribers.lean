import Gearman.Client.Incoming
import Mathlib.Data.List.Basic

/-!
# One copy per subscriber

Copies of one event go to the slots behind the cursor, first to last. Those of a
terminal event also take their slot away, and the slot moved into its place is
served next, so every slot still gets exactly one.
-/

namespace Gearman.Client

open Protocol

theorem swapRemove_concat {α : Type} (xs : List α) (x : α) (i : Nat) :
    swapRemove (xs ++ [x]) i = ((xs ++ [x]).set i x).dropLast := by
  rw [swapRemove, List.getLast?_concat]

/-- Only the element at the index goes. -/
theorem swapRemove_perm {α : Type} {xs : List α} {i : Nat} (hi : i < xs.length) :
    (xs[i] :: swapRemove xs i).Perm xs := by
  rcases List.eq_nil_or_concat' xs with rfl | ⟨ys, y, rfl⟩
  · cases hi
  · rw [swapRemove_concat]
    by_cases hlt : i < ys.length
    · rw [List.getElem_append_left hlt, List.set_append_left i y hlt, List.dropLast_concat]
      have hsplit : ys = ys.take i ++ ys[i] :: ys.drop (i + 1) := by simp
      have hset : ys.set i y = ys.take i ++ y :: ys.drop (i + 1) := by
        rw [List.set_eq_take_append_cons_drop, if_pos hlt]
      rw [hset]
      calc List.Perm (ys[i] :: (ys.take i ++ y :: ys.drop (i + 1)))
            (ys[i] :: y :: (ys.take i ++ ys.drop (i + 1))) := List.perm_middle.cons _
        List.Perm _ (y :: ys[i] :: (ys.take i ++ ys.drop (i + 1))) := .swap ..
        List.Perm _ (y :: (ys.take i ++ ys[i] :: ys.drop (i + 1))) := List.perm_middle.symm.cons _
        List.Perm _ (y :: ys) := .of_eq (congrArg _ hsplit.symm)
        List.Perm _ (ys ++ [y]) := (List.perm_append_singleton y ys).symm
    · have heq : i = ys.length := by
        rw [List.length_append, List.length_singleton] at hi
        omega
      subst heq
      simp only [List.getElem_concat_length, List.set_append_right, Nat.le_refl, Nat.sub_self,
        List.set_cons_zero, List.dropLast_concat]
      exact (List.perm_append_singleton y ys).symm

namespace HandleSubscribers

/-- The slots the rest of the current batch of copies is for. -/
def owed (subs : HandleSubscribers) : List (Option StreamId) := subs.slots.drop subs.cursor

/-- What one copy of an event does to the slots: it goes to the first of those
due one, and the others stay due. -/
structure Delivers (subs : HandleSubscribers) (terminal : Bool) (slot : Option StreamId)
    (rest : List (Option StreamId)) (subs' : HandleSubscribers) : Prop where
  result : subs.deliver terminal = (!subs'.slots.isEmpty, subs', slot)
  event : terminal = false → subs'.slots = subs.slots
  terminal : terminal = true → subs'.slots.Perm rest ∧ subs'.cursor = 0
  last : rest = [] → subs'.cursor = 0
  owed : rest ≠ [] → subs'.owed.Perm rest

theorem delivers {subs : HandleSubscribers} {terminal : Bool} {slot : Option StreamId}
    {rest : List (Option StreamId)} (howed : subs.owed = slot :: rest)
    (hcursor : terminal = true → subs.cursor = 0) :
    ∃ subs', subs.Delivers terminal slot rest subs' := by
  have hlt : subs.cursor < subs.slots.length := by
    by_contra h
    rw [owed, List.drop_eq_nil_of_le (by omega)] at howed
    cases howed
  have hne : subs.slots.isEmpty = false := by
    rw [List.isEmpty_eq_false_iff]
    exact List.ne_nil_of_length_pos (by omega)
  have hslot : subs.slots[subs.cursor]?.join = slot := by
    rw [← List.head?_drop, ← owed, howed]
    rfl
  have hrest : subs.slots.drop (subs.cursor + 1) = rest := by
    rw [← List.tail_drop, ← owed, howed, List.tail_cons]
  cases terminal with
  | false =>
    refine ⟨⟨subs.slots, if subs.slots.length ≤ subs.cursor + 1 then 0 else subs.cursor + 1⟩,
      ?_, fun _ => rfl, (fun h => by cases h), fun h => ?_, fun h => ?_⟩
    · simp [deliver, hne, hslot, Nat.not_le.mpr hlt]
    · rw [h, List.drop_eq_nil_iff] at hrest
      exact if_pos hrest
    · have hmore : ¬subs.slots.length ≤ subs.cursor + 1 := by
        intro hle
        exact h (hrest.symm.trans (List.drop_eq_nil_of_le hle))
      rw [owed, if_neg hmore, hrest]
  | true =>
    have hzero := hcursor rfl
    have hslots : subs.slots = slot :: rest := by
      rw [owed, hzero, List.drop_zero] at howed
      exact howed
    have hperm : (swapRemove subs.slots 0).Perm rest := by
      rw [hslots]
      exact (swapRemove_perm (Nat.zero_lt_succ rest.length)).cons_inv
    refine ⟨⟨swapRemove subs.slots 0, 0⟩, ?_, (fun h => by cases h), fun _ => ⟨hperm, rfl⟩,
      fun _ => rfl, fun _ => hperm⟩
    rw [hzero] at hslot
    simp [deliver, hzero, hne, hslot]

/-- What one copy of an event does to the slots, wherever the cursor is: it goes to
one of them, and a terminal one takes that slot away. -/
theorem deliver_cases (subs : HandleSubscribers) (terminal : Bool) :
    (subs.slots = [] ∧ subs.deliver terminal = (false, subs, none)) ∨
    ∃ slot subs', subs.deliver terminal = (!subs'.slots.isEmpty, subs', slot) ∧
      slot ∈ subs.slots ∧ (terminal = false → subs'.slots = subs.slots) ∧
      (terminal = true → (slot :: subs'.slots).Perm subs.slots) := by
  rcases hslots : subs.slots with _ | ⟨x, xs⟩
  · exact .inl ⟨rfl, by rw [deliver, hslots]; rfl⟩
  · rw [← hslots]
    have hpos : 0 < subs.slots.length := by
      rw [hslots]
      exact Nat.zero_lt_succ _
    have hne : subs.slots.isEmpty = false := by rw [hslots]; rfl
    generalize hcursor : (if subs.slots.length ≤ subs.cursor then 0 else subs.cursor) = cursor
    have hlt : cursor < subs.slots.length := by
      rw [← hcursor]
      split <;> omega
    have hslot : subs.slots[cursor]?.join = subs.slots[cursor] := by
      rw [List.getElem?_eq_getElem hlt]
      rfl
    cases terminal with
    | false =>
      refine .inr ⟨subs.slots[cursor],
        ⟨subs.slots, if subs.slots.length ≤ cursor + 1 then 0 else cursor + 1⟩, ?_,
        List.getElem_mem hlt, fun _ => rfl, (fun h => by cases h)⟩
      simp [deliver, hne, hcursor, hslot]
    | true =>
      refine .inr ⟨subs.slots[cursor], ⟨swapRemove subs.slots cursor,
        if (swapRemove subs.slots cursor).length ≤ cursor then 0 else cursor⟩, ?_,
        List.getElem_mem hlt, (fun h => by cases h), fun _ => swapRemove_perm hlt⟩
      simp [deliver, hne, hcursor, hslot]

theorem mem_prune {closed : StreamId → Bool} {subs : HandleSubscribers} {s : StreamId} :
    some s ∈ (subs.prune closed).slots ↔ some s ∈ subs.slots ∧ closed s = false := by
  simp only [prune, List.mem_map, Option.filter_eq_some_iff, Bool.not_eq_true']
  constructor
  · intro ⟨slot, hslot, hs, hopen⟩
    exact ⟨hs ▸ hslot, hopen⟩
  · intro ⟨hslot, hopen⟩
    exact ⟨_, hslot, rfl, hopen⟩

theorem filterMap_prune (closed : StreamId → Bool) (subs : HandleSubscribers) :
    (subs.prune closed).slots.filterMap id =
      (subs.slots.filterMap id).filter fun s => !closed s := by
  rw [prune, List.filterMap_map, List.filter_filterMap]
  rfl

theorem owed_prune (closed : StreamId → Bool) (subs : HandleSubscribers) :
    (subs.prune closed).owed = (HandleSubscribers.prune closed ⟨subs.owed, 0⟩).slots := by
  simp only [owed, prune, List.map_drop]

end HandleSubscribers

/-! ## All handles -/

namespace JobEventSubscribers

/-- The subscribers of a handle; a handle without an entry has none. -/
def of (jobs : JobEventSubscribers) (handle : String) : HandleSubscribers :=
  (jobs handle).getD .empty

theorem of_add (jobs : JobEventSubscribers) (handle : String) (sender : StreamId) :
    (jobs.add handle sender).of = Function.update jobs.of handle ((jobs.of handle).add sender) := by
  funext h
  by_cases hh : h = handle
  · subst hh
    simp only [of, add, Function.update_self, Option.getD_some]
  · simp only [of, add, Function.update_of_ne hh]

theorem of_prune (closed : StreamId → Bool) (jobs : JobEventSubscribers) (handle : String) :
    of (pruneClosedSubscribers closed jobs) handle = (jobs.of handle).prune closed := by
  unfold of pruneClosedSubscribers
  cases jobs handle <;> rfl

end JobEventSubscribers

theorem jobEvent_of_isWork {packet : Packet} (h : isWork packet.ptype = true) :
    ∃ event, jobEvent packet = some event := by
  unfold jobEvent
  revert h
  cases packet.ptype <;> simp [isWork]

/-- What a packet does to the slots, whatever the server means by it. -/
theorem dispatchWorkEvent_cases (packet : Packet) (jobs : JobEventSubscribers) :
    ((dispatchWorkEvent packet jobs).2 = [] ∧
      ∀ h, ((dispatchWorkEvent packet jobs).1.of h).slots = (jobs.of h).slots) ∨
    ∃ handle event slot, packet.argStr 0 = some handle ∧ jobEvent packet = some event ∧
      slot ∈ (jobs.of handle).slots ∧
      (dispatchWorkEvent packet jobs).2 = (slot.map fun s => Effect.event s event).toList ∧
      (∀ h, h ≠ handle → (dispatchWorkEvent packet jobs).1.of h = jobs.of h) ∧
      (isTerminal packet.ptype = false →
        ((dispatchWorkEvent packet jobs).1.of handle).slots = (jobs.of handle).slots) ∧
      (isTerminal packet.ptype = true →
        (slot :: ((dispatchWorkEvent packet jobs).1.of handle).slots).Perm
          (jobs.of handle).slots) := by
  rcases hhandle : packet.argStr 0 with _ | handle
  · exact .inl (by simp [dispatchWorkEvent, hhandle])
  · rcases hevent : jobEvent packet with _ | event
    · exact .inl (by simp [dispatchWorkEvent, hhandle, hevent])
    · rcases hjobs : jobs handle with _ | subs
      · exact .inl (by simp [dispatchWorkEvent, hhandle, hevent, hjobs])
      · have hof : jobs.of handle = subs := by rw [JobEventSubscribers.of, hjobs, Option.getD_some]
        rcases subs.deliver_cases (isTerminal packet.ptype) with
          ⟨hslots, hresult⟩ | ⟨slot, subs', hresult, hmem, hevents, hterminal⟩
        · refine .inl ⟨by simp [dispatchWorkEvent, hhandle, hevent, hjobs, hresult], fun h => ?_⟩
          simp only [dispatchWorkEvent, hhandle, hevent, hjobs, hresult]
          by_cases hh : h = handle
          · subst hh
            rw [hof, hslots, JobEventSubscribers.of, Function.update_self]
            rfl
          · simp only [JobEventSubscribers.of, Function.update_of_ne hh]
        · have hslots : ((dispatchWorkEvent packet jobs).1.of handle).slots = subs'.slots := by
            simp only [dispatchWorkEvent, hhandle, hevent, hjobs, hresult,
              JobEventSubscribers.of, Function.update_self]
            cases hempty : subs'.slots with
            | nil => rfl
            | cons x xs => exact hempty
          refine .inr ⟨handle, event, slot, rfl, rfl, ?_, ?_, fun h hh => ?_, ?_, ?_⟩
          · rw [hof]
            exact hmem
          · simp only [dispatchWorkEvent, hhandle, hevent, hjobs, hresult]
          · simp only [dispatchWorkEvent, hhandle, hevent, hjobs, hresult, JobEventSubscribers.of,
              Function.update_of_ne hh]
          · rw [hslots, hof]
            exact hevents
          · rw [hslots, hof]
            exact hterminal

/-- A copy of an event goes to the first slot its handle owes one. -/
theorem dispatchWorkEvent_delivers {packet : Packet} {jobs : JobEventSubscribers} {handle : String}
    {event : JobEvent} {slot : Option StreamId} {rest : List (Option StreamId)}
    (hhandle : packet.argStr 0 = some handle) (hevent : jobEvent packet = some event)
    (howed : (jobs.of handle).owed = slot :: rest)
    (hcursor : isTerminal packet.ptype = true → (jobs.of handle).cursor = 0) :
    ∃ subs', (jobs.of handle).Delivers (isTerminal packet.ptype) slot rest subs' ∧
      (dispatchWorkEvent packet jobs).1.of = Function.update jobs.of handle subs' ∧
      (dispatchWorkEvent packet jobs).2 = (slot.map fun s => Effect.event s event).toList := by
  obtain ⟨subs', hdelivers⟩ := HandleSubscribers.delivers howed hcursor
  obtain ⟨subs, hsubs⟩ : ∃ subs, jobs handle = some subs := by
    cases hjobs : jobs handle with
    | none =>
      rw [JobEventSubscribers.of, hjobs] at howed
      cases howed
    | some subs => exact ⟨subs, rfl⟩
  have hof : jobs.of handle = subs := by rw [JobEventSubscribers.of, hsubs, Option.getD_some]
  have hresult := hdelivers.result
  rw [hof] at hresult
  refine ⟨subs', hdelivers, ?_, ?_⟩
  · funext h
    simp only [dispatchWorkEvent, hhandle, hevent, hsubs, hresult]
    by_cases hh : h = handle
    · subst hh
      simp only [JobEventSubscribers.of, Function.update_self]
      cases hslots : subs'.slots with
      | nil =>
        -- the entry is dropped with its last slot; the cursor is back at the front
        have hempty : subs' = .empty := by
          obtain ⟨slots, cursor⟩ := subs'
          cases ht : isTerminal packet.ptype with
          | true =>
            have hzero := (hdelivers.terminal ht).2
            cases hslots
            cases hzero
            rfl
          | false =>
            have hsame := hdelivers.event ht
            rw [hof] at hsame howed
            rw [HandleSubscribers.owed, ← hsame, hslots, List.drop_nil] at howed
            cases howed
        rw [hempty]
        rfl
      | cons x xs => rfl
    · simp only [JobEventSubscribers.of, Function.update_of_ne hh]
  · simp only [dispatchWorkEvent, hhandle, hevent, hsubs, hresult]

end Gearman.Client

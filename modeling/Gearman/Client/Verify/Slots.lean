import Gearman.Client.Verify.Invisible
import Gearman.Client.Verify.Incoming
import Mathlib.Data.List.DropRight

/-!
# One slot per registration

Whatever packets come in, and however often, the cursor of a handle stands at one
of its slots, and a handle without slots has no entry. A handle has one slot for each
foreground `JOB_CREATED` less one for each terminal packet, both counted since it last
had no entry. Each stream that joined it and is not dropped is in a slot or has been
sent a terminal event.
-/

namespace Gearman.Client

open Protocol

namespace HandleSubscribers

/-- The cursor stands at a slot. -/
def Sound (subs : HandleSubscribers) : Prop := subs.cursor < subs.slots.length

theorem Sound.ne_nil {subs : HandleSubscribers} (h : subs.Sound) : subs.slots ≠ [] :=
  List.ne_nil_of_length_pos (Nat.zero_lt_of_lt h)

/-- The end of the slots is their front. -/
theorem wrap_lt {length : Nat} (h : 0 < length) (cursor : Nat) :
    (if length ≤ cursor then 0 else cursor) < length := by
  split
  · exact h
  · omega

/-- `HandleSubscribers::deliver` as it is checked: `none` is the panic of `swap_remove`
and of the index behind the last slot. -/
def deliverChecked (subs : HandleSubscribers) (terminal : Bool) :
    Option (Bool × HandleSubscribers × Option StreamId) :=
  if subs.slots.isEmpty then some (false, subs, none)
  else
    let cursor := if subs.slots.length ≤ subs.cursor then 0 else subs.cursor
    (subs.slots[cursor]?).map fun slot =>
      let slots := if terminal then swapRemove subs.slots cursor else subs.slots
      let cursor := if terminal then cursor else cursor + 1
      let cursor := if slots.length ≤ cursor then 0 else cursor
      (!slots.isEmpty, ⟨slots, cursor⟩, slot)

theorem deliverChecked_eq (subs : HandleSubscribers) (terminal : Bool) :
    subs.deliverChecked terminal = some (subs.deliver terminal) := by
  unfold deliverChecked deliver
  cases hempty : subs.slots.isEmpty with
  | true => rfl
  | false =>
    have hpos : 0 < subs.slots.length :=
      List.length_pos_of_ne_nil (List.isEmpty_eq_false_iff.mp hempty)
    dsimp only [Bool.false_eq_true, if_false]
    rw [List.getElem?_eq_getElem (wrap_lt hpos _)]
    rfl

/-- What remains after an event has its cursor back in range. -/
theorem sound_of_deliver {subs : HandleSubscribers} {terminal : Bool}
    (h : (subs.deliver terminal).1 = true) : (subs.deliver terminal).2.1.Sound := by
  unfold deliver at h ⊢
  split at h
  · cases h
  · next hne =>
    rw [if_neg hne]
    dsimp only at h ⊢
    rw [Bool.not_eq_true', List.isEmpty_eq_false_iff] at h
    exact wrap_lt (List.length_pos_of_ne_nil h) _

theorem Sound.add {subs : HandleSubscribers} (h : subs.Sound) (sender : StreamId) :
    (subs.add sender).Sound := by
  unfold Sound HandleSubscribers.add at *
  rw [List.length_append]
  exact Nat.lt_add_right _ h

theorem sound_add_empty (sender : StreamId) : (HandleSubscribers.empty.add sender).Sound :=
  Nat.zero_lt_one

theorem Sound.prune {subs : HandleSubscribers} (h : subs.Sound) (closed : StreamId → Bool) :
    (subs.prune closed).Sound := by
  unfold Sound HandleSubscribers.prune at *
  rwa [List.length_map]

theorem prune_never (subs : HandleSubscribers) : subs.prune (fun _ => false) = subs := by
  obtain ⟨slots, cursor⟩ := subs
  have hmap : slots.map (fun slot => slot.filter fun _ => !false) = slots := by
    conv_rhs => rw [← List.map_id slots]
    refine List.map_congr_left fun slot _ => ?_
    cases slot <;> rfl
  rw [prune, hmap]

theorem count_prune {closed : StreamId → Bool} {s : StreamId} (hs : closed s = false)
    (subs : HandleSubscribers) :
    (subs.prune closed).slots.count (some s) = subs.slots.count (some s) := by
  unfold prune
  rw [List.count_eq_countP, List.countP_map, List.count_eq_countP]
  refine List.countP_congr fun slot _ => ?_
  rcases slot with _ | t
  · rfl
  · by_cases heq : t = s
    · subst heq
      simp [hs]
    · simp [heq]

end HandleSubscribers

/-! ## What becomes of an entry -/

namespace JobEventSubscribers

/-- The cursor of every entry stands at a slot. -/
def Sound (jobs : JobEventSubscribers) : Prop := ∀ handle, ∀ subs ∈ jobs handle, subs.Sound

theorem sound_new : Sound .new := fun _ _ h => by cases h

theorem Sound.add {jobs : JobEventSubscribers} (h : jobs.Sound) (handle : String)
    (sender : StreamId) : (jobs.add handle sender).Sound := by
  intro handle' subs hsubs
  unfold JobEventSubscribers.add at hsubs
  by_cases hh : handle' = handle
  · subst hh
    rw [Function.update_self] at hsubs
    obtain rfl := Option.some.inj hsubs
    rcases hold : jobs handle' with _ | subs
    · exact HandleSubscribers.sound_add_empty sender
    · exact (h handle' subs hold).add sender
  · rw [Function.update_of_ne hh] at hsubs
    exact h handle' subs hsubs

theorem Sound.prune {jobs : JobEventSubscribers} (h : jobs.Sound) (closed : StreamId → Bool) :
    Sound (pruneClosedSubscribers closed jobs) := by
  intro handle subs hsubs
  obtain ⟨subs', hsubs', rfl⟩ := Option.map_eq_some_iff.mp hsubs
  exact (h handle subs' hsubs').prune closed

theorem prune_never (jobs : JobEventSubscribers) :
    pruneClosedSubscribers (fun _ => false) jobs = jobs := by
  funext handle
  unfold pruneClosedSubscribers
  cases jobs handle with
  | none => rfl
  | some subs => rw [Option.map_some, HandleSubscribers.prune_never]

end JobEventSubscribers

/-- An event goes to a handle that has an entry, or nowhere. -/
theorem dispatchWorkEvent_entry {packet : Packet} (hwork : isWork packet.ptype = true)
    (jobs : JobEventSubscribers) :
    (dispatchWorkEvent packet jobs = (jobs, []) ∧
      ∀ handle ∈ packet.argStr 0, jobs handle = none) ∨
    ∃ handle subs event, packet.argStr 0 = some handle ∧ jobs handle = some subs ∧
      dispatchWorkEvent packet jobs =
        (Function.update jobs handle
          (if (subs.deliver (isTerminal packet.ptype)).1
            then some (subs.deliver (isTerminal packet.ptype)).2.1 else none),
          ((subs.deliver (isTerminal packet.ptype)).2.2.map fun s => .event s event).toList) := by
  obtain ⟨event, hevent⟩ := jobEvent_of_isWork hwork
  unfold dispatchWorkEvent
  rw [hevent]
  rcases hhandle : packet.argStr 0 with _ | handle
  · exact .inl ⟨rfl, fun _ h => by cases h⟩
  · rcases hjobs : jobs handle with _ | subs
    · refine .inl ⟨by simp only [hjobs], ?_⟩
      rintro _ ⟨⟩
      exact hjobs
    · exact .inr ⟨handle, subs, event, rfl, hjobs, by simp only [hjobs]⟩

/-- All other packets leave the entries alone. -/
theorem handleIncoming_jobs {packet : Packet} (hwork : isWork packet.ptype = false)
    (hcreated : packet.ptype ≠ .jobCreated) (s : LoopState) :
    (handleIncoming packet s).1.jobs = s.jobs := by
  cases hreply : isReply packet.ptype with
  | false => rw [handleIncoming_other hwork hreply]
  | true =>
    rcases hpending : s.pending with _ | ⟨oldest, pending⟩
    · obtain ⟨message, h⟩ := handleIncoming_unexpected hreply hpending
      rw [h]
    · rcases handleIncoming_reply hreply hpending with ⟨answer, -, h⟩ | ⟨-, message, h⟩
      · rw [h]
        dsimp only
        unfold PendingReply.join
        split
        · next hptype => exact absurd hptype hcreated
        · rfl
      · rw [h]

theorem sound_dispatchWorkEvent {packet : Packet} (hwork : isWork packet.ptype = true)
    {jobs : JobEventSubscribers} (h : jobs.Sound) : (dispatchWorkEvent packet jobs).1.Sound := by
  rcases dispatchWorkEvent_entry hwork jobs with ⟨hsame, -⟩ | ⟨handle, subs, event, -, -, hupdate⟩
  · rwa [hsame]
  · rw [hupdate]
    intro handle' subs' hsubs'
    dsimp only at hsubs'
    by_cases hh : handle' = handle
    · subst hh
      rw [Function.update_self] at hsubs'
      split at hsubs'
      · next hremain =>
        obtain rfl := Option.some.inj hsubs'
        exact HandleSubscribers.sound_of_deliver hremain
      · cases hsubs'
    · rw [Function.update_of_ne hh] at hsubs'
      exact h handle' subs' hsubs'

namespace Listeners

/-- The handle and the stream of a `JOB_CREATED` that answers a foreground submission. -/
def joined (c : Listeners) (act : ListenAct) : Option (String × StreamId) :=
  match act, c.loop.pending with
  | .packet packet, .jobCreated _ (some stream) :: _ =>
    if packet.ptype = .jobCreated then some ((packet.argStr 0).getD "", stream) else none
  | _, _ => none

/-- The handle of a terminal packet. -/
def ended : ListenAct → Option String
  | .packet packet => if isTerminal packet.ptype then packet.argStr 0 else none
  | _ => none

theorem ended_of_not_work {packet : Packet} (h : isWork packet.ptype = false) :
    ended (.packet packet) = none := by
  refine if_neg fun hterminal => ?_
  revert h hterminal
  cases packet.ptype <;> simp [isWork, isTerminal]

theorem joined_of_ne {c : Listeners} {packet : Packet} (h : packet.ptype ≠ .jobCreated) :
    joined c (.packet packet) = none := by
  unfold joined
  split
  · exact if_neg (by next heq _ => cases heq; exact h)
  · rfl

/-- What one act does to the entries: a stream joins, an event comes in, or dropped
streams are swept. -/
theorem step_entries (c : Listeners) (act : ListenAct) :
    (∃ handle stream, joined c act = some (handle, stream) ∧ ended act = none ∧
      (c.step act).loop.jobs = c.loop.jobs.add handle stream) ∨
    (joined c act = none ∧ ∃ packet, act = .packet packet ∧ isWork packet.ptype = true ∧
      (c.step act).loop.jobs = (dispatchWorkEvent packet c.loop.jobs).1 ∧
      c.effects act = (dispatchWorkEvent packet c.loop.jobs).2) ∨
    (joined c act = none ∧ ended act = none ∧ ∃ closed : StreamId → Bool,
      (∀ s, closed s = true → s ∈ c.dropped) ∧
      (c.step act).loop.jobs = pruneClosedSubscribers closed c.loop.jobs) := by
  have hkept {c' : Listeners} (hjobs : c'.loop.jobs = c.loop.jobs) :
      ∃ closed : StreamId → Bool, (∀ s, closed s = true → s ∈ c.dropped) ∧
        c'.loop.jobs = pruneClosedSubscribers closed c.loop.jobs :=
    ⟨fun _ => false, (fun _ h => by cases h),
      hjobs.trans (JobEventSubscribers.prune_never c.loop.jobs).symm⟩
  cases act with
  | request | dropStream => exact .inr (.inr ⟨rfl, rfl, hkept rfl⟩)
  | tick => exact .inr (.inr ⟨rfl, rfl, _, fun _ => of_decide_eq_true, rfl⟩)
  | packet packet =>
    cases hwork : isWork packet.ptype with
    | true =>
      have hjoined : joined c (.packet packet) = none :=
        joined_of_ne fun h => by
          rw [h] at hwork
          cases hwork
      refine .inr (.inl ⟨hjoined, packet, rfl, hwork, ?_, ?_⟩)
      · rw [step, handleIncoming_work hwork]
      · rw [effects, handleIncoming_work hwork]
    | false =>
      have hended := ended_of_not_work hwork
      by_cases hcreated : packet.ptype = .jobCreated
      · rcases hpending : c.loop.pending with _ | ⟨⟨reply, _ | stream⟩ | reply | reply, pending⟩
        case cons.jobCreated.some =>
          refine .inl ⟨(packet.argStr 0).getD "", stream, ?_, hended, ?_⟩
          · simp only [joined, hpending, hcreated, if_true]
          · simp only [step, handleIncoming, hcreated, hpending]
        all_goals
          refine .inr (.inr ⟨by simp only [joined, hpending], hended, hkept ?_⟩)
          simp only [step, handleIncoming, hcreated, hpending]
      · refine .inr (.inr ⟨joined_of_ne hcreated, hended, hkept ?_⟩)
        exact handleIncoming_jobs hwork hcreated c.loop

/-! ## One act -/

/-- A step of a run: the state before it, and the act. -/
abbrev Step := Listeners × ListenAct

/-- The step answers a foreground submission with the handle. -/
def creates (handle : String) (p : Step) : Bool := (joined p.1 p.2).map Prod.fst = some handle

/-- The step is a terminal packet for the handle. -/
def ends (handle : String) (p : Step) : Bool := ended p.2 = some handle

/-- The handle has an entry after the step. -/
def present (handle : String) (p : Step) : Bool := ((p.1.step p.2).loop.jobs handle).isSome

/-- The step is the `JOB_CREATED` that gives the stream its handle. -/
def joins (handle : String) (s : StreamId) (p : Step) : Bool :=
  joined p.1 p.2 = some (handle, s)

/-- The step sends the stream a terminal event of the handle. -/
def endsFor (handle : String) (s : StreamId) (p : Step) : Bool :=
  ends handle p && !(eventsTo s (p.1.effects p.2)).isEmpty

theorem sound_step {c : Listeners} (h : c.loop.jobs.Sound) (act : ListenAct) :
    (c.step act).loop.jobs.Sound := by
  rcases step_entries c act with ⟨handle, stream, -, -, hjobs⟩ |
    ⟨-, packet, -, hwork, hjobs, -⟩ | ⟨-, -, closed, -, hjobs⟩
  · rw [hjobs]
    exact h.add handle stream
  · rw [hjobs]
    exact sound_dispatchWorkEvent hwork h
  · rw [hjobs]
    exact h.prune closed

theorem ended_eq_some {packet : Packet} {handle : String} :
    ended (.packet packet) = some handle ↔
      isTerminal packet.ptype = true ∧ packet.argStr 0 = some handle := by
  rw [ended]
  cases isTerminal packet.ptype with
  | false => simp
  | true => simp

/-- A terminal packet takes a slot away from an entry that stays. -/
theorem slots_dispatch {packet : Packet} (hwork : isWork packet.ptype = true)
    {jobs : JobEventSubscribers} (hsound : jobs.Sound) {handle : String}
    (hpresent : ((dispatchWorkEvent packet jobs).1 handle).isSome = true) :
    (((dispatchWorkEvent packet jobs).1.of handle).slots.length
      + if ended (.packet packet) = some handle then 1 else 0)
      = (jobs.of handle).slots.length := by
  rcases dispatchWorkEvent_entry hwork jobs with
    ⟨hsame, habsent⟩ | ⟨handle', subs, event, hhandle, hsubs, hupdate⟩
  · rw [hsame] at hpresent ⊢
    dsimp only at hpresent
    rw [if_neg, Nat.add_zero]
    intro hended
    rw [habsent handle (ended_eq_some.mp hended).2] at hpresent
    cases hpresent
  · rw [hupdate] at hpresent ⊢
    dsimp only at hpresent ⊢
    unfold JobEventSubscribers.of
    by_cases hh : handle = handle'
    · subst hh
      rw [Function.update_self] at hpresent ⊢
      rcases subs.deliver_cases (isTerminal packet.ptype) with
        ⟨hempty, -⟩ | ⟨slot, subs', hresult, -, hevent, hterminal⟩
      · exact absurd hempty (hsound handle subs hsubs).ne_nil
      · rw [hresult] at hpresent ⊢
        dsimp only at hpresent ⊢
        have hremain : (!subs'.slots.isEmpty) = true := by
          by_contra hgone
          rw [if_neg hgone] at hpresent
          cases hpresent
        rw [if_pos hremain, hsubs, Option.getD_some, Option.getD_some]
        cases hend : isTerminal packet.ptype with
        | false =>
          rw [hevent hend, if_neg, Nat.add_zero]
          intro hended
          rw [(ended_eq_some.mp hended).1] at hend
          cases hend
        | true => rw [← (hterminal hend).length_eq, if_pos (ended_eq_some.mpr ⟨hend, hhandle⟩)]; rfl
    · rw [Function.update_of_ne hh, if_neg, Nat.add_zero]
      intro hended
      exact hh (Option.some.inj ((ended_eq_some.mp hended).2.symm.trans hhandle))

/-- A `JOB_CREATED` adds a slot, and a terminal packet takes one away. -/
theorem slots_step {c : Listeners} (hsound : c.loop.jobs.Sound) {act : ListenAct}
    {handle : String} (hpresent : present handle (c, act) = true) :
    ((c.step act).loop.jobs.of handle).slots.length + (if ends handle (c, act) then 1 else 0)
      = (c.loop.jobs.of handle).slots.length + if creates handle (c, act) then 1 else 0 := by
  unfold present at hpresent
  unfold ends creates
  dsimp only at hpresent ⊢
  rcases step_entries c act with ⟨handle', stream, hjoined, hended, hjobs⟩ |
    ⟨hjoined, packet, rfl, hwork, hjobs, -⟩ | ⟨hjoined, hended, closed, -, hjobs⟩
  · rw [hjoined, hended, hjobs, JobEventSubscribers.of_add]
    by_cases hh : handle' = handle
    · subst hh
      simp [HandleSubscribers.add]
    · rw [Function.update_of_ne (Ne.symm hh)]
      simp [hh]
  · rw [hjobs] at hpresent ⊢
    have hslots := slots_dispatch hwork hsound hpresent
    simpa [hjoined] using hslots
  · rw [hjoined, hended, hjobs, JobEventSubscribers.of_prune]
    simp [HandleSubscribers.prune]

theorem eventsTo_toList (s : StreamId) (slot : Option StreamId) (event : JobEvent) :
    (eventsTo s (slot.map fun t => Effect.event t event).toList).isEmpty = false ↔
      slot = some s := by
  rcases slot with _ | t
  · simp [eventsTo]
  · by_cases hs : t = s <;> simp [eventsTo, hs]

/-- A stream goes from its slot with its terminal event. -/
theorem live_dispatch (packet : Packet) (jobs : JobEventSubscribers) (handle : String)
    (s : StreamId) :
    ((dispatchWorkEvent packet jobs).1.of handle).slots.count (some s)
      + (if ended (.packet packet) = some handle ∧
          (eventsTo s (dispatchWorkEvent packet jobs).2).isEmpty = false then 1 else 0)
      = (jobs.of handle).slots.count (some s) := by
  rcases dispatchWorkEvent_cases packet jobs with ⟨hes, hslots⟩ |
    ⟨handle', event, slot, hhandle, -, -, hes, hframe, hprogress, hterminal⟩
  · rw [hes, hslots, if_neg, Nat.add_zero]
    rintro ⟨-, hsent⟩
    cases hsent
  · rw [hes]
    by_cases hh : handle = handle'
    · subst hh
      cases hend : isTerminal packet.ptype with
      | false =>
        rw [hprogress hend, if_neg, Nat.add_zero]
        rintro ⟨hended, -⟩
        rw [(ended_eq_some.mp hended).1] at hend
        cases hend
      | true =>
        rw [← (hterminal hend).count_eq, List.count_cons]
        refine congrArg _ (if_congr ?_ rfl rfl)
        rw [eventsTo_toList, beq_iff_eq]
        exact and_iff_right (ended_eq_some.mpr ⟨hend, hhandle⟩)
    · rw [hframe handle hh, if_neg, Nat.add_zero]
      rintro ⟨hended, -⟩
      exact hh (Option.some.inj ((ended_eq_some.mp hended).2.symm.trans hhandle))

/-- A stream that is not dropped gets a slot when it joins, and keeps it up to its
terminal event. -/
theorem live_step {c : Listeners} {s : StreamId} (hs : s ∉ c.dropped) (act : ListenAct)
    (handle : String) :
    ((c.step act).loop.jobs.of handle).slots.count (some s)
      + (if endsFor handle s (c, act) then 1 else 0)
      = (c.loop.jobs.of handle).slots.count (some s)
        + if joins handle s (c, act) then 1 else 0 := by
  unfold endsFor ends joins
  dsimp only
  rcases step_entries c act with ⟨handle', stream, hjoined, hended, hjobs⟩ |
    ⟨hjoined, packet, rfl, hwork, hjobs, heffects⟩ | ⟨hjoined, hended, closed, hclosed, hjobs⟩
  · rw [hjoined, hended, hjobs, JobEventSubscribers.of_add]
    by_cases hh : handle' = handle
    · subst hh
      simp [HandleSubscribers.add, List.count_append, List.count_singleton]
    · rw [Function.update_of_ne (Ne.symm hh)]
      simp [hh]
  · rw [hjobs, heffects, hjoined]
    have hlive := live_dispatch packet c.loop.jobs handle s
    simpa using hlive
  · rw [hjoined, hended, hjobs, JobEventSubscribers.of_prune, HandleSubscribers.count_prune]
    · simp
    · by_contra h
      exact hs (hclosed s (Bool.not_eq_false _ ▸ h))

/-! ## Runs -/

def run (c : Listeners) (acts : List ListenAct) : Listeners := acts.foldl step c

/-- The steps of a run. -/
def steps (c : Listeners) : List ListenAct → List Step
  | [] => []
  | act :: acts => (c, act) :: (c.step act).steps acts

theorem run_concat (c : Listeners) (acts : List ListenAct) (act : ListenAct) :
    c.run (acts ++ [act]) = (c.run acts).step act :=
  List.foldl_concat ..

theorem steps_concat (c : Listeners) (acts : List ListenAct) (act : ListenAct) :
    c.steps (acts ++ [act]) = c.steps acts ++ [(c.run acts, act)] := by
  induction acts generalizing c with
  | nil => rfl
  | cons first acts ih =>
    rw [List.cons_append, steps, steps, ih]
    rfl

/-- The steps since the handle last had no entry. -/
def since (c : Listeners) (handle : String) (acts : List ListenAct) : List Step :=
  (c.steps acts).rtakeWhile (present handle)

variable (acts : List ListenAct)

theorem sound_run {c : Listeners} (h : c.loop.jobs.Sound) : (c.run acts).loop.jobs.Sound := by
  induction acts using List.reverseRecOn with
  | nil => exact h
  | append_singleton acts act ih =>
    rw [run_concat]
    exact sound_step ih act

theorem mem_dropped_step {c : Listeners} {s : StreamId} (h : s ∈ c.dropped) (act : ListenAct) :
    s ∈ (c.step act).dropped := by
  cases act with
  | dropStream stream => exact List.mem_cons_of_mem _ h
  | packet | request | tick => exact h

/-- A handle has a slot for each `JOB_CREATED` but those ended. -/
theorem slots_run {c : Listeners} (hnew : c.loop.jobs = .new) (handle : String) :
    ((c.run acts).loop.jobs.of handle).slots.length
      + (c.since handle acts).countP (ends handle)
      = (c.since handle acts).countP (creates handle) := by
  have hsound : c.loop.jobs.Sound := hnew ▸ JobEventSubscribers.sound_new
  induction acts using List.reverseRecOn with
  | nil =>
    rw [run, List.foldl_nil, hnew]
    rfl
  | append_singleton acts act ih =>
    rw [since, steps_concat]
    by_cases hpresent : present handle (c.run acts, act) = true
    · have hstep := slots_step (sound_run acts hsound) hpresent
      rw [List.rtakeWhile_concat_pos _ _ _ hpresent, run_concat, List.countP_append,
        List.countP_append, List.countP_singleton, List.countP_singleton]
      unfold since at ih
      omega
    · have hnone : ((c.run acts).step act).loop.jobs handle = none := by
        rwa [present, Bool.not_eq_true, Option.isSome_eq_false_iff, Option.isNone_iff_eq_none]
          at hpresent
      rw [List.rtakeWhile_concat_neg _ _ _ hpresent, run_concat, JobEventSubscribers.of, hnone]
      rfl

/-- A stream that is not dropped has a slot for each time it joined but those ended. -/
theorem live_run {c : Listeners} (hnew : c.loop.jobs = .new) (handle : String) {s : StreamId}
    (hs : s ∉ (c.run acts).dropped) :
    ((c.run acts).loop.jobs.of handle).slots.count (some s)
      + (c.steps acts).countP (endsFor handle s)
      = (c.steps acts).countP (joins handle s) := by
  induction acts using List.reverseRecOn with
  | nil =>
    rw [run, List.foldl_nil, hnew]
    rfl
  | append_singleton acts act ih =>
    rw [run_concat] at hs ⊢
    have hkept : s ∉ (c.run acts).dropped := fun h => hs (mem_dropped_step h act)
    have hstep := live_step hkept act handle
    have hrest := ih hkept
    rw [steps_concat, List.countP_append, List.countP_append, List.countP_singleton,
      List.countP_singleton]
    omega

/-- **The bookkeeping of subscribers.** After any acts from an empty map, the cursor of
a handle with an entry stands at one of its slots, whoever joined a handle without an
entry and is not dropped has been sent its terminal events, and a handle has one slot
for each foreground `JOB_CREATED` less one for each terminal packet since it last had
no entry. -/
theorem subscribers_bookkeeping (pending : List PendingReply) (dropped : List StreamId)
    (acts : List ListenAct) (handle : String) :
    let start : Listeners := ⟨⟨pending, .new⟩, dropped⟩
    let c := start.run acts
    (∀ subs ∈ c.loop.jobs handle, subs.slots ≠ [] ∧ subs.cursor < subs.slots.length ∧
      ∀ terminal, subs.deliverChecked terminal = some (subs.deliver terminal)) ∧
    (c.loop.jobs handle = none → ∀ s ∉ c.dropped,
      (start.steps acts).countP (joins handle s) = (start.steps acts).countP (endsFor handle s)) ∧
    (c.loop.jobs.of handle).slots.length + (start.since handle acts).countP (ends handle)
      = (start.since handle acts).countP (creates handle) := by
  intro start c
  refine ⟨fun subs hsubs => ?_, fun hnone s hs => ?_, slots_run acts rfl handle⟩
  · have hsound : subs.Sound :=
      sound_run (c := start) acts JobEventSubscribers.sound_new handle subs hsubs
    exact ⟨hsound.ne_nil, hsound, subs.deliverChecked_eq⟩
  · have hlive := live_run (c := start) acts rfl handle hs
    have hslots : (c.loop.jobs.of handle).slots = [] := by
      rw [JobEventSubscribers.of, hnone]
      rfl
    rw [← hlive, hslots, List.count_nil, Nat.zero_add]

end Listeners

end Gearman.Client

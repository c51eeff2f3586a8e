import Gearman.Client.Verify.Subscribers
import Gearman.Lib.Unwinding

/-!
# A dropped stream and the others

The slot of a dropped stream stays, so whether and when the other streams are
dropped and swept shows in nothing that one stream gets. To it, the subscribers
look like those left when all the others are swept (`seenBy`): slots, order and
cursor move alike.
-/

namespace Gearman.Client

open Protocol

/-! ## A sweep and an event -/

theorem swapRemove_map {α β : Type} (f : α → β) (xs : List α) (i : Nat) :
    swapRemove (xs.map f) i = (swapRemove xs i).map f := by
  unfold swapRemove
  rw [List.getLast?_map]
  rcases xs.getLast? with _ | last
  · rfl
  · simp only [Option.map_some]
    rw [← List.map_set, List.map_dropLast]

namespace HandleSubscribers

theorem prune_prune (closed closed' : StreamId → Bool) (subs : HandleSubscribers) :
    (subs.prune closed).prune closed' = subs.prune fun s => closed s || closed' s := by
  simp only [prune, List.map_map]
  congr 1
  refine List.map_congr_left fun slot _ => ?_
  rw [Function.comp, Option.filter_filter]
  simp only [Bool.not_or]

/-- An event goes to the same slot before and after a sweep. -/
theorem deliver_prune (closed : StreamId → Bool) (subs : HandleSubscribers) (terminal : Bool) :
    (subs.prune closed).deliver terminal =
      ((subs.deliver terminal).1, (subs.deliver terminal).2.1.prune closed,
        (subs.deliver terminal).2.2.filter fun s => !closed s) := by
  have hjoin : ∀ slot : Option (Option StreamId),
      (slot.map fun s => s.filter fun s => !closed s).join =
        slot.join.filter fun s => !closed s := by
    rintro (_ | slot) <;> rfl
  unfold deliver prune
  simp only [List.isEmpty_map, List.length_map, List.getElem?_map, hjoin]
  cases subs.slots.isEmpty
  · cases terminal
    · simp
    · simp [swapRemove_map]
  · simp

/-- Who is swept away afterwards may as well be swept away before. -/
theorem prune_add_prune (closed : StreamId → Bool) (subs : HandleSubscribers) (sender : StreamId) :
    ((subs.prune closed).add sender).prune closed = (subs.add sender).prune closed := by
  have hidem := congrArg slots (prune_prune closed closed subs)
  simp only [Bool.or_self] at hidem
  simp only [prune, add, List.map_append] at hidem ⊢
  rw [hidem]

end HandleSubscribers

theorem pruneClosedSubscribers_add (closed : StreamId → Bool) (jobs : JobEventSubscribers)
    (handle : String) (sender : StreamId) :
    pruneClosedSubscribers closed ((pruneClosedSubscribers closed jobs).add handle sender) =
      pruneClosedSubscribers closed (jobs.add handle sender) := by
  funext h
  unfold pruneClosedSubscribers JobEventSubscribers.add
  by_cases hh : h = handle
  · subst hh
    simp only [Function.update_self, Option.map_some]
    rcases jobs h with _ | subs
    · rfl
    · exact congrArg some (HandleSubscribers.prune_add_prune closed subs sender)
  · simp only [Function.update_of_ne hh, Option.map_map]
    rcases jobs h with _ | subs
    · rfl
    · simp only [Option.map_some, Function.comp, HandleSubscribers.prune_prune, Bool.or_self]

theorem pruneClosedSubscribers_update (closed : StreamId → Bool) (jobs : JobEventSubscribers)
    (handle : String) (subs : Option HandleSubscribers) :
    pruneClosedSubscribers closed (Function.update jobs handle subs) =
      Function.update (pruneClosedSubscribers closed jobs) handle (subs.map (.prune closed)) := by
  funext h
  unfold pruneClosedSubscribers
  by_cases hh : h = handle
  · subst hh
    rw [Function.update_self, Function.update_self]
  · rw [Function.update_of_ne hh, Function.update_of_ne hh]

/-- The events among some effects that go to one stream. -/
def eventsTo (s : StreamId) (es : List Effect) : List JobEvent :=
  es.filterMap fun
    | .event stream event => if stream = s then some event else none
    | _ => none

theorem dispatchWorkEvent_prune (closed : StreamId → Bool) (packet : Packet)
    (jobs : JobEventSubscribers) :
    (dispatchWorkEvent packet (pruneClosedSubscribers closed jobs)).1 =
        pruneClosedSubscribers closed (dispatchWorkEvent packet jobs).1 ∧
      ∀ s, closed s = false →
        eventsTo s (dispatchWorkEvent packet (pruneClosedSubscribers closed jobs)).2 =
          eventsTo s (dispatchWorkEvent packet jobs).2 := by
  unfold dispatchWorkEvent
  rcases packet.argStr 0 with _ | handle
  · exact ⟨rfl, fun _ _ => rfl⟩
  · rcases jobEvent packet with _ | event
    · exact ⟨rfl, fun _ _ => rfl⟩
    · rcases hsubs : jobs handle with _ | subs
      · have hnone : pruneClosedSubscribers closed jobs handle = none := by
          rw [pruneClosedSubscribers, hsubs, Option.map_none]
        simp only [hnone, hsubs]
        exact ⟨trivial, fun _ _ => trivial⟩
      · have hsome : pruneClosedSubscribers closed jobs handle = some (subs.prune closed) := by
          rw [pruneClosedSubscribers, hsubs, Option.map_some]
        simp only [hsome, hsubs, HandleSubscribers.deliver_prune, pruneClosedSubscribers_update]
        refine ⟨?_, fun s hopen => ?_⟩
        · split <;> rfl
        · rcases (subs.deliver (isTerminal packet.ptype)).2.2 with _ | stream
          · rfl
          · by_cases hs : stream = s
            · subst hs
              rw [Option.filter_some, hopen]
              rfl
            · have hother : eventsTo s [.event stream event] = [] := by
                simp only [eventsTo, List.filterMap_cons, if_neg hs, List.filterMap_nil]
              rw [Option.filter_some]
              split
              · rfl
              · exact hother.symm

theorem pruneClosedSubscribers_prune (closed closed' : StreamId → Bool)
    (jobs : JobEventSubscribers) :
    pruneClosedSubscribers closed' (pruneClosedSubscribers closed jobs) =
      pruneClosedSubscribers (fun s => closed s || closed' s) jobs := by
  unfold pruneClosedSubscribers
  simp only [Option.map_map, Function.comp_def, HandleSubscribers.prune_prune]

/-- The local state of `actor_loop` as far as it concerns one stream. -/
def LoopState.seenBy (s : StreamId) (l : LoopState) : LoopState :=
  ⟨l.pending, pruneClosedSubscribers (fun stream => stream != s) l.jobs⟩

theorem LoopState.seenBy_seenBy (s : StreamId) (l : LoopState) :
    (l.seenBy s).seenBy s = l.seenBy s := by
  simp only [seenBy, pruneClosedSubscribers_prune, Bool.or_self]

/-- What a packet does to a stream can be told from what concerns it. -/
theorem handleIncoming_seenBy (s : StreamId) (packet : Packet) (l : LoopState) :
    (handleIncoming packet (l.seenBy s)).1.seenBy s = (handleIncoming packet l).1.seenBy s ∧
      eventsTo s (handleIncoming packet (l.seenBy s)).2 =
        eventsTo s (handleIncoming packet l).2 := by
  have hsame : ∀ pending, LoopState.seenBy s ⟨pending, (l.seenBy s).jobs⟩ =
      LoopState.seenBy s ⟨pending, l.jobs⟩ := fun pending =>
    LoopState.seenBy_seenBy s ⟨pending, l.jobs⟩
  have hwork : LoopState.seenBy s ⟨l.pending, (dispatchWorkEvent packet (l.seenBy s).jobs).1⟩ =
        LoopState.seenBy s ⟨l.pending, (dispatchWorkEvent packet l.jobs).1⟩ ∧
      eventsTo s (dispatchWorkEvent packet (l.seenBy s).jobs).2 =
        eventsTo s (dispatchWorkEvent packet l.jobs).2 := by
    obtain ⟨hjobs, hevents⟩ :=
      dispatchWorkEvent_prune (fun stream => stream != s) packet l.jobs
    refine ⟨?_, hevents s (bne_self_eq_false s)⟩
    rw [LoopState.seenBy, LoopState.seenBy, hjobs]
    exact LoopState.seenBy_seenBy s ⟨l.pending, (dispatchWorkEvent packet l.jobs).1⟩
  have hpending : (l.seenBy s).pending = l.pending := rfl
  unfold handleIncoming
  simp only [hpending]
  split
  case h_1 =>
    rcases l.pending with _ | ⟨⟨reply, _ | sender⟩ | reply | reply, pending⟩
    case cons.jobCreated.some =>
      refine ⟨?_, rfl⟩
      simp only [LoopState.seenBy, pruneClosedSubscribers_add]
    all_goals exact ⟨hsame _, rfl⟩
  case h_2 | h_3 =>
    rcases l.pending with _ | ⟨_ | reply | reply, pending⟩ <;> exact ⟨hsame _, rfl⟩
  case h_4 => rcases l.pending with _ | ⟨oldest, pending⟩ <;> exact ⟨hsame _, rfl⟩
  case h_5 | h_6 | h_7 | h_8 | h_9 | h_10 => exact hwork
  case h_11 => exact ⟨hsame _, rfl⟩

theorem eventsTo_congr {s : StreamId} {l l' : LoopState} (h : l.seenBy s = l'.seenBy s)
    (packet : Packet) :
    (handleIncoming packet l).1.seenBy s = (handleIncoming packet l').1.seenBy s ∧
      eventsTo s (handleIncoming packet l).2 = eventsTo s (handleIncoming packet l').2 := by
  obtain ⟨hstate, hevents⟩ := handleIncoming_seenBy s packet l
  obtain ⟨hstate', hevents'⟩ := handleIncoming_seenBy s packet l'
  rw [← hstate, ← hevents, ← hstate', ← hevents', h]
  exact ⟨rfl, rfl⟩

/-! ## Runs -/

/-- The local state of `actor_loop`, and the streams its callers have dropped. -/
structure Listeners where
  loop : LoopState
  dropped : List StreamId

inductive ListenAct
  /-- A packet arrives. -/
  | packet (packet : Packet)
  /-- A request is sent. -/
  | request (pending : PendingReply)
  | dropStream (stream : StreamId)
  /-- `prune_closed_subscribers`. -/
  | tick

namespace Listeners

def step (c : Listeners) : ListenAct → Listeners
  | .packet packet => { c with loop := (handleIncoming packet c.loop).1 }
  | .request pending => { c with loop := ⟨c.loop.pending ++ [pending], c.loop.jobs⟩ }
  | .dropStream stream => { c with dropped := stream :: c.dropped }
  | .tick =>
    { c with
      loop := ⟨c.loop.pending,
        pruneClosedSubscribers (fun stream => decide (stream ∈ c.dropped)) c.loop.jobs⟩ }

/-- What an act sends to the streams. -/
def effects (c : Listeners) : ListenAct → List Effect
  | .packet packet => (handleIncoming packet c.loop).2
  | _ => []

/-- Some sender of the stream is left: it has not ended. -/
def Open (s : StreamId) (l : LoopState) : Prop :=
  (∃ reply, PendingReply.jobCreated reply (some s) ∈ l.pending) ∨
    ∃ handle, some s ∈ (l.jobs.of handle).slots

/-- All that differs between two runs is the drops of other streams, and the ticks. -/
def shared (s : StreamId) : ListenAct → Bool
  | .packet _ | .request _ => true
  | .dropStream stream => stream == s
  | .tick => false

/-- What the owner of a stream sees at an act: the events that come in, and whether
the stream has ended. Nothing once the stream is dropped. -/
def see (s : StreamId) (c : Listeners) (act : ListenAct) : List JobEvent × Prop :=
  if s ∈ c.dropped then ([], False) else (eventsTo s (c.effects act), ¬Open s (c.step act).loop)

/-- The two states are alike for the stream, if it is not dropped. -/
def Alike (s : StreamId) (c c' : Listeners) : Prop :=
  (s ∈ c.dropped ↔ s ∈ c'.dropped) ∧ (s ∉ c.dropped → c.loop.seenBy s = c'.loop.seenBy s)

theorem open_seenBy (s : StreamId) (l : LoopState) : Open s (l.seenBy s) ↔ Open s l := by
  unfold Open LoopState.seenBy
  simp only [JobEventSubscribers.of_prune, HandleSubscribers.mem_prune, bne_self_eq_false,
    and_true]

theorem open_congr {s : StreamId} {l l' : LoopState} (h : l.seenBy s = l'.seenBy s) :
    Open s l ↔ Open s l' := by
  rw [← open_seenBy, h, open_seenBy]

/-- A shared act does the same for the stream. -/
theorem step_seenBy {s : StreamId} {c c' : Listeners} (h : c.loop.seenBy s = c'.loop.seenBy s)
    {act : ListenAct} (hshared : shared s act = true) :
    (c.step act).loop.seenBy s = (c'.step act).loop.seenBy s ∧
      eventsTo s (c.effects act) = eventsTo s (c'.effects act) := by
  cases act with
  | packet packet => exact eventsTo_congr h packet
  | request pending =>
    refine ⟨?_, rfl⟩
    simp only [LoopState.seenBy, LoopState.mk.injEq] at h
    simp only [step, LoopState.seenBy, h]
  | dropStream stream => exact ⟨h, rfl⟩
  | tick => cases hshared

theorem shared_alike {s : StreamId} {c c' : Listeners} {act : ListenAct} (h : Alike s c c')
    (hshared : shared s act = true) : Alike s (c.step act) (c'.step act) := by
  obtain ⟨hdropped, hloop⟩ := h
  cases act with
  | packet | request => exact ⟨hdropped, fun hs => (step_seenBy (hloop hs) hshared).1⟩
  | dropStream stream =>
    obtain rfl : stream = s := beq_iff_eq.mp hshared
    exact ⟨iff_of_true List.mem_cons_self List.mem_cons_self,
      fun hs => absurd List.mem_cons_self hs⟩
  | tick => cases hshared

theorem hidden_alike {s : StreamId} {c c' : Listeners} {act : ListenAct} (h : Alike s c c')
    (hhidden : shared s act = false) : Alike s (c.step act) c' := by
  obtain ⟨hdropped, hloop⟩ := h
  cases act with
  | packet | request => cases hhidden
  | dropStream stream =>
    have hne : s ≠ stream := fun h => by
      rw [h, shared, beq_self_eq_true] at hhidden
      cases hhidden
    have hmem : s ∈ stream :: c.dropped ↔ s ∈ c.dropped :=
      ⟨fun h => (List.mem_cons.mp h).resolve_left hne, List.mem_cons_of_mem _⟩
    exact ⟨hmem.trans hdropped, fun hs => hloop (mt hmem.mpr hs)⟩
  | tick =>
    refine ⟨hdropped, fun (hs : s ∉ c.dropped) => ?_⟩
    rw [← hloop hs]
    -- a sweep that leaves the stream clears only slots of others
    have hclosed : (fun stream => decide (stream ∈ c.dropped) || stream != s) =
        fun stream => stream != s := by
      funext stream
      by_cases heq : stream = s
      · subst heq
        rw [decide_eq_false hs, Bool.false_or]
      · rw [bne_iff_ne.mpr heq, Bool.or_true]
    simp only [step, LoopState.seenBy, pruneClosedSubscribers_prune, hclosed]

/-- To a stream, states that are alike for it stay so, and look the same. -/
theorem unwinds (s : StreamId) : Unwinding.Unwinds step (see s) (shared s) (Alike s) where
  hidden _ _ _ := hidden_alike
  shared _ _ _ := shared_alike
  shown c c' act h hshared := by
    unfold see
    by_cases hs : s ∈ c.dropped
    · rw [if_pos hs, if_pos (h.1.mp hs)]
    · obtain ⟨hstate, hevents⟩ := step_seenBy (h.2 hs) hshared
      rw [if_neg hs, if_neg (mt h.1.mpr hs), hevents, open_congr hstate]

/-- **Dropped streams are invisible to the others.** Two runs from one state with
the same packets and requests, and the stream itself dropped at the same point if
at all, show its owner the same at each of them, whichever other streams are dropped
when and wherever the sweeps fall. -/
theorem drops_invisible (s : StreamId) (c : Listeners) {acts acts' : List ListenAct}
    (hsame : acts.filter (shared s) = acts'.filter (shared s)) :
    Unwinding.observe step (see s) (shared s) c acts =
      Unwinding.observe step (see s) (shared s) c acts' :=
  (unwinds s).observe_eq ⟨Iff.rfl, fun _ => rfl⟩ hsame

/-- Two submissions share a job. -/
def twoJoined : Listeners := ⟨⟨[], (JobEventSubscribers.new.add "H" 1).add "H" 2⟩, []⟩

/-- The two copies of one event. -/
def twoCopies : List ListenAct :=
  [.packet (.response .workData [asBytes "H", [0]]),
    .packet (.response .workData [asBytes "H", [0]])]

theorem drops_invisible_twoCopies :
    Unwinding.observe step (see 1) (shared 1) twoJoined twoCopies =
      Unwinding.observe step (see 1) (shared 1) twoJoined ([.dropStream 2, .tick] ++ twoCopies) :=
  drops_invisible 1 twoJoined rfl

end Listeners

end Gearman.Client

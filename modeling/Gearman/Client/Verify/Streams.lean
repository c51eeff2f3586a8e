import Gearman.Client.Verify.Actor
import Gearman.Client.Verify.Talks
import Mathlib.Data.List.Nodup
import Mathlib.Data.List.Pairwise

/-!
# Event streams are well formed

Nothing is assumed about the server here: it may send any packets in any order.
A sender of a stream sits in at most one slot, the one of the handle its
submission was given, and a terminal event takes it out of there. So a stream
gets no event after a terminal one and none of another handle's.
-/

namespace Gearman.Client

open Protocol

/-! ## Sequences of events -/

/-- `Complete`, `Fail` and `Exception`. -/
def JobEvent.isTerminal : JobEvent → Bool
  | complete _ | fail | exception _ => true
  | status _ _ | data _ | warning _ => false

/-- Progress, then at most one result. -/
def WellFormed (events : List JobEvent) : Prop :=
  ∃ progress result, events = progress ++ result ∧ (∀ e ∈ progress, e.isTerminal = false) ∧
    result.length ≤ 1 ∧ ∀ e ∈ result, e.isTerminal = true

theorem wellFormed_of_progress {events : List JobEvent} (h : ∀ e ∈ events, e.isTerminal = false) :
    WellFormed events :=
  ⟨events, [], (List.append_nil _).symm, h, Nat.zero_le 1, fun e he => by cases he⟩

theorem wellFormed_concat {events : List JobEvent} (h : ∀ e ∈ events, e.isTerminal = false)
    (event : JobEvent) : WellFormed (events ++ [event]) := by
  cases hevent : event.isTerminal with
  | true =>
    refine ⟨events, [event], rfl, h, Nat.le_refl 1, fun e he => ?_⟩
    rw [List.mem_singleton.mp he]
    exact hevent
  | false =>
    refine wellFormed_of_progress fun e he => ?_
    rcases List.mem_append.mp he with he | he
    · exact h e he
    · rw [List.mem_singleton.mp he]
      exact hevent

theorem isTerminal_of_jobEvent {packet : Packet} {event : JobEvent}
    (h : jobEvent packet = some event) : event.isTerminal = isTerminal packet.ptype := by
  unfold jobEvent at h
  split at h <;> cases h <;> rename_i hptype <;> rw [hptype] <;> rfl

theorem isWork_of_jobEvent {packet : Packet} {event : JobEvent}
    (h : jobEvent packet = some event) : isWork packet.ptype = true := by
  unfold jobEvent at h
  split at h <;> cases h <;> rename_i hptype <;> rw [hptype] <;> rfl

/-! ## The table of subscribers -/

/-- Each sender is in one slot, of the handle its submission was given, and its
stream has had no terminal event. -/
structure Table (jobs : JobEventSubscribers) (given : StreamId → String → Prop)
    (yields : StreamId → List JobEvent) : Prop where
  nodup : ∀ h, ((jobs.of h).slots.filterMap id).Nodup
  home : ∀ h s, some s ∈ (jobs.of h).slots → given s h
  progress : ∀ h s, some s ∈ (jobs.of h).slots → ∀ e ∈ yields s, e.isTerminal = false

namespace Table

variable {jobs : JobEventSubscribers} {given given' : StreamId → String → Prop}
  {yields yields' : StreamId → List JobEvent}

theorem new : Table .new given yields where
  nodup _ := List.nodup_nil
  home _ _ h := by cases h
  progress _ _ h := by cases h

theorem mono (ht : Table jobs given yields) (h : ∀ s handle, given s handle → given' s handle) :
    Table jobs given' yields where
  nodup := ht.nodup
  home handle s hs := h s handle (ht.home handle s hs)
  progress := ht.progress

theorem prune (ht : Table jobs given yields) (closed : StreamId → Bool) :
    Table (pruneClosedSubscribers closed jobs) given yields where
  nodup h := by
    rw [JobEventSubscribers.of_prune, HandleSubscribers.filterMap_prune]
    exact (ht.nodup h).filter _
  home h s hs := by
    rw [JobEventSubscribers.of_prune] at hs
    exact ht.home h s (HandleSubscribers.mem_prune.mp hs).1
  progress h s hs := by
    rw [JobEventSubscribers.of_prune] at hs
    exact ht.progress h s (HandleSubscribers.mem_prune.mp hs).1

/-- A stream that was given no handle before joins one. -/
theorem add (ht : Table jobs given yields) {handle : String} {s : StreamId}
    (hnew : ∀ h, ¬given s h) (hyields : yields s = [])
    (hgiven : given' s handle) (hmono : ∀ t h, given t h → given' t h) :
    Table (jobs.add handle s) given' yields := by
  have hslots : ∀ h, ((jobs.add handle s).of h).slots =
      if h = handle then (jobs.of h).slots ++ [some s] else (jobs.of h).slots := by
    intro h
    rw [JobEventSubscribers.of_add]
    by_cases hh : h = handle
    · subst hh
      rw [Function.update_self, if_pos rfl]
      rfl
    · rw [Function.update_of_ne hh, if_neg hh]
  have hmem : ∀ h t, some t ∈ ((jobs.add handle s).of h).slots →
      some t ∈ (jobs.of h).slots ∨ h = handle ∧ t = s := by
    intro h t ht
    rw [hslots] at ht
    split at ht
    · rcases List.mem_append.mp ht with ht | ht
      · exact .inl ht
      · exact .inr ⟨‹_›, Option.some.inj (List.mem_singleton.mp ht)⟩
    · exact .inl ht
  refine ⟨fun h => ?_, fun h t hmemt => ?_, fun h t hmemt => ?_⟩
  · rw [hslots]
    split
    · rw [List.filterMap_append]
      refine (List.perm_append_singleton s _).nodup_iff.mpr (List.nodup_cons.mpr ⟨fun hs => ?_, ?_⟩)
      · exact hnew h (ht.home h s (some_mem_iff.mpr hs))
      · exact ht.nodup h
    · exact ht.nodup h
  · rcases hmem h t hmemt with hold | ⟨rfl, rfl⟩
    · exact hmono t h (ht.home h t hold)
    · exact hgiven
  · rcases hmem h t hmemt with hold | ⟨rfl, rfl⟩
    · exact ht.progress h t hold
    · intro e he
      rw [hyields] at he
      cases he

/-- The stream an event goes to has its slot under the handle of the packet. -/
theorem event_mem {packet : Packet} {s : StreamId} {e : JobEvent}
    (h : .event s e ∈ (dispatchWorkEvent packet jobs).2) :
    ∃ handle, packet.argStr 0 = some handle ∧ jobEvent packet = some e ∧
      some s ∈ (jobs.of handle).slots ∧ (dispatchWorkEvent packet jobs).2 = [.event s e] := by
  rcases dispatchWorkEvent_cases packet jobs with
    ⟨hes, -⟩ | ⟨handle, event, slot, hhandle, hevent, hmem, hes, -⟩
  · rw [hes] at h
    cases h
  · rw [hes] at h ⊢
    cases slot with
    | none => cases h
    | some t =>
      obtain ⟨rfl, rfl⟩ : s = t ∧ e = event := by simpa using h
      exact ⟨handle, hhandle, hevent, hmem, rfl⟩

/-- An event is added to at most one stream, and if it is terminal that stream's
sender is gone. -/
theorem dispatch (ht : Table jobs given yields)
    (hunique : ∀ s h h', given s h → given s h' → h = h') (packet : Packet)
    (hyields : ∀ s, yields' s = yields s ∨
      ∃ e, .event s e ∈ (dispatchWorkEvent packet jobs).2 ∧ yields' s = yields s ++ [e]) :
    Table (dispatchWorkEvent packet jobs).1 given yields' := by
  have hold : ∀ {h s}, some s ∈ (jobs.of h).slots → yields' s = yields s →
      ∀ e ∈ yields' s, e.isTerminal = false := by
    intro h s hs hsame
    rw [hsame]
    exact ht.progress h s hs
  rcases dispatchWorkEvent_cases packet jobs with
    ⟨hes, hslots⟩ | ⟨handle, event, slot, -, hevent, hmem, hes, hframe, hprogress, hterminal⟩
  · refine ⟨fun h => ?_, fun h s hs => ?_, fun h s hs => ?_⟩
    · rw [hslots]
      exact ht.nodup h
    · rw [hslots] at hs
      exact ht.home h s hs
    · rw [hslots] at hs
      rcases hyields s with hsame | ⟨e, he, -⟩
      · exact hold hs hsame
      · rw [hes] at he
        cases he
  · have hsub : ∀ h s, some s ∈ ((dispatchWorkEvent packet jobs).1.of h).slots →
        some s ∈ (jobs.of h).slots := by
      intro h s hs
      by_cases hh : h = handle
      · subst hh
        cases hend : isTerminal packet.ptype with
        | false => rwa [hprogress hend] at hs
        | true => exact (hterminal hend).mem_iff.mp (List.mem_cons_of_mem _ hs)
      · rwa [hframe h hh] at hs
    refine ⟨fun h => ?_, fun h s hs => ht.home h s (hsub h s hs), fun h s hs => ?_⟩
    · by_cases hh : h = handle
      · subst hh
        cases hend : isTerminal packet.ptype with
        | false =>
          rw [hprogress hend]
          exact ht.nodup h
        | true =>
          have hnodup := ((hterminal hend).filterMap id).nodup_iff.mpr (ht.nodup h)
          exact ((List.sublist_cons_self _ _).filterMap id).nodup hnodup
      · rw [hframe h hh]
        exact ht.nodup h
    · rcases hyields s with hsame | ⟨e, he, hgrown⟩
      · exact hold (hsub h s hs) hsame
      · obtain ⟨rfl, rfl⟩ : slot = some s ∧ e = event := by
          rw [hes] at he
          cases slot with
          | none => cases he
          | some t =>
            obtain ⟨rfl, rfl⟩ : s = t ∧ e = event := by simpa using he
            exact ⟨rfl, rfl⟩
        obtain rfl : h = handle := hunique s h handle (ht.home h s (hsub h s hs))
          (ht.home handle s hmem)
        cases hend : isTerminal packet.ptype with
        | false =>
          intro e' he'
          rw [hgrown] at he'
          rcases List.mem_append.mp he' with he' | he'
          · exact ht.progress h s hmem e' he'
          · rw [List.mem_singleton.mp he', isTerminal_of_jobEvent hevent, hend]
        | true =>
          -- the only slot with this sender has been taken away
          have hnodup := ((hterminal hend).filterMap id).nodup_iff.mpr (ht.nodup h)
          exact absurd (some_mem_iff.mp hs) (List.nodup_cons.mp hnodup).1

end Table

/-! ## Runs -/

/-- What a stream was sent: the number of the packet read, and the event. -/
structure Arrival where
  reading : Nat
  stream : StreamId
  event : JobEvent

/-- A server actor with the streams of its submissions. -/
structure StreamRun where
  server : ServerRun
  /-- Streams their callers have dropped. -/
  closed : List StreamId
  /-- The packets read, oldest first. -/
  read : List Packet
  /-- What arrived on open streams. -/
  arrived : List Arrival
  /-- What was said on each connection, the latest first. -/
  talks : List Talk

inductive StreamAct
  | actor (i : ActorInput)
  | dropStream (stream : StreamId)
  /-- The prune interval elapses. -/
  | tick

/-- The packet a step reads. -/
def ActorInput.packet : ActorInput → Option Packet
  | .recv (.ok pkt) => pkt
  | _ => none

/-- The event channel a request brings. -/
def PendingReply.streams : PendingReply → List StreamId
  | jobCreated _ (some s) => [s]
  | _ => []

/-- The subscribers of the actor's connection. -/
def Actor.jobs (a : Actor) : JobEventSubscribers :=
  match a.phase with
  | .looping _ s => s.jobs
  | _ => .new

namespace StreamRun

def start : StreamRun := ⟨.new, [], [], [], []⟩

/-- Every foreground submission brings an event channel of its own. -/
def Fresh (r : StreamRun) (i : ActorInput) : Prop :=
  ∀ cmd ∈ i.queued, ∀ s ∈ cmd.streams, s ∉ r.server.submitted.flatMap ClientCommand.streams

instance (r : StreamRun) (i : ActorInput) : Decidable (r.Fresh i) :=
  inferInstanceAs (Decidable (∀ cmd ∈ i.queued, ∀ s ∈ cmd.streams,
    s ∉ r.server.submitted.flatMap ClientCommand.streams))

/-- The run after a step of the actor. -/
def after (r : StreamRun) (i : ActorInput) (actor : Actor) (es : List Effect) : StreamRun where
  server := ⟨actor, r.server.submitted ++ i.queued, r.server.log ++ es⟩
  closed := r.closed
  read := r.read ++ i.packet.toList
  arrived := r.arrived ++ (Session.heard r.closed es).map fun x => ⟨r.read.length, x.1, x.2⟩
  talks := Talk.after r.server.actor i (Talk.hearers r.closed es) r.talks

def advance (withExceptions : Bool) (r : StreamRun) (i : ActorInput) : Option StreamRun :=
  if r.server.Fresh i ∧ r.Fresh i then
    (r.server.actor.step withExceptions i).map fun (actor, es) => r.after i actor es
  else none

def step (withExceptions : Bool) (r : StreamRun) : StreamAct → Option StreamRun
  | .actor (.tick _) => none
  | .actor i => r.advance withExceptions i
  | .dropStream s => some { r with closed := s :: r.closed }
  | .tick => r.advance withExceptions (.tick fun s => s ∈ r.closed)

/-- What a stream yields. -/
def yields (r : StreamRun) (stream : StreamId) : List JobEvent :=
  eventsOf (r.arrived.map fun x => (x.stream, x.event)) stream

/-- The submission of this stream was given this handle. -/
def Given (r : StreamRun) (stream : StreamId) (handle : String) : Prop :=
  ∃ cmd ∈ r.server.submitted, stream ∈ cmd.streams ∧
    (cmd.reply, .handle handle) ∈ resolutions r.server.log

/-- The actor has a sender of this stream, in a command, a request or a slot. -/
def Holds (r : StreamRun) (stream : StreamId) : Prop :=
  stream ∈ r.server.actor.queue.flatMap ClientCommand.streams ∨
  stream ∈ r.server.actor.pending.flatMap PendingReply.streams ∨
  ∃ handle, some stream ∈ (r.server.actor.jobs.of handle).slots

/-- An arrival is the event of the packet it is numbered after, and that packet
names the handle the stream was given. -/
def CameFrom (r : StreamRun) (x : Arrival) : Prop :=
  ∃ packet handle, r.read[x.reading]? = some packet ∧ isWork packet.ptype = true ∧
    jobEvent packet = some x.event ∧ packet.argStr 0 = some handle ∧ r.Given x.stream handle

structure Inv (r : StreamRun) : Prop where
  server : r.server.Inv
  fresh : (r.server.submitted.flatMap ClientCommand.streams).Nodup
  waiting : ∀ p ∈ r.server.actor.pending, ∃ cmd ∈ r.server.submitted, p = cmd.pendingReply
  table : Table r.server.actor.jobs r.Given r.yields
  origin : ∀ x ∈ r.arrived, r.CameFrom x
  once : (r.arrived.map Arrival.reading).Nodup
  wellFormed : ∀ s, WellFormed (r.yields s)

namespace Inv

variable {r : StreamRun} {s : StreamId}

/-- A stream belongs to one submission. -/
theorem owner_unique (hr : r.Inv) {cmd cmd' : ClientCommand} (hcmd : cmd ∈ r.server.submitted)
    (hcmd' : cmd' ∈ r.server.submitted) (hs : s ∈ cmd.streams) (hs' : s ∈ cmd'.streams) :
    cmd = cmd' := by
  by_contra hne
  have : Std.Symm (Function.onFun List.Disjoint ClientCommand.streams) :=
    ⟨fun _ _ h _ hs hs' => h hs' hs⟩
  exact (List.nodup_flatMap.mp hr.fresh).2.forall hcmd hcmd' hne hs hs'

theorem given_unique (hr : r.Inv) {h h' : String} (hg : r.Given s h) (hg' : r.Given s h') :
    h = h' := by
  obtain ⟨cmd, hcmd, hs, hres⟩ := hg
  obtain ⟨cmd', hcmd', hs', hres'⟩ := hg'
  obtain rfl := hr.owner_unique hcmd hcmd' hs hs'
  have hnodup := (List.nodup_append.mp (hr.server.places.nodup_iff.mpr hr.server.fresh)).2.1
  have hsame := List.inj_on_of_nodup_map hnodup hres hres' rfl
  cases hsame
  rfl

/-- A submission that waits for its reply has been given nothing. -/
theorem not_given_of_waiting (hr : r.Inv) {cmd : ClientCommand} (hcmd : cmd ∈ r.server.submitted)
    (hs : s ∈ cmd.streams)
    (hwaits : cmd.reply ∈ r.server.actor.queue.map ClientCommand.reply ++
      r.server.actor.pending.map PendingReply.reply) (h : String) : ¬r.Given s h := by
  intro ⟨cmd', hcmd', hs', hres⟩
  obtain rfl := hr.owner_unique hcmd hcmd' hs hs'
  have hnodup := List.nodup_append.mp (hr.server.places.nodup_iff.mpr hr.server.fresh)
  exact hnodup.2.2 _ hwaits _ (List.mem_map_of_mem hres) rfl

theorem given_of_mem_yields (hr : r.Inv) {e : JobEvent} (he : e ∈ r.yields s) :
    ∃ h, r.Given s h := by
  obtain ⟨x, hx, hxe⟩ := List.mem_filterMap.mp he
  obtain ⟨y, hy, rfl⟩ := List.mem_map.mp hx
  obtain ⟨hstream, -⟩ := Option.ite_none_right_eq_some.mp hxe
  obtain ⟨packet, handle, -, -, -, -, hgiven⟩ := hr.origin y hy
  exact ⟨handle, hstream ▸ hgiven⟩

theorem mem_submitted_of_queue (hr : r.Inv) {cmd : ClientCommand}
    (h : cmd ∈ r.server.actor.queue) : cmd ∈ r.server.submitted := by
  obtain ⟨taken, hsubmitted, -⟩ := hr.server.order
  rw [hsubmitted]
  exact List.mem_append_right _ h

end Inv

/-! ## One step -/

section

variable {withExceptions : Bool} {a a' : Actor} {i : ActorInput} {es : List Effect}

/-- A step sends no event, takes at most a command off the queue and at most
removes senders, or it reads a packet. -/
theorem step_streams (h : a.Steps withExceptions i a' es) :
    ((∀ s e, .event s e ∉ es) ∧
      (∀ p ∈ a'.pending, p ∈ a.pending ∨ ∃ cmd ∈ a.queue, p = cmd.pendingReply) ∧
      (a'.jobs = a.jobs ∨ a'.jobs = .new ∨
        ∃ closed, a'.jobs = pruneClosedSubscribers closed a.jobs)) ∨
    ∃ packet conn s, i.packet = some packet ∧ a.phase = .looping conn s ∧
      a'.phase = .looping conn (handleIncoming packet s).1 ∧ es = (handleIncoming packet s).2 := by
  have hfail : ∀ (pending : List PendingReply) s e, .event s e ∉ failAllPending pending := by
    intro pending s e hmem
    obtain ⟨p, -, hp⟩ := List.mem_map.mp hmem
    cases hp
  cases h with
  | queue _ | dropSenders =>
    exact .inl ⟨fun _ _ => List.not_mem_nil, fun p hp => .inl hp, .inl rfl⟩
  | @recv conn s pkt hp =>
    match pkt with
    | .ok (some packet) => exact .inr ⟨packet, conn, s, rfl, hp, rfl, rfl⟩
    | .ok none | .error _ =>
      exact .inl ⟨hfail s.pending, fun p hmem => (by cases hmem), .inr (.inl rfl)⟩
  | @tick conn s closed hp =>
    refine .inl ⟨fun _ _ => List.not_mem_nil, fun p hmem => .inl ?_, .inr (.inr ⟨closed, ?_⟩)⟩
    · rw [Actor.pending, hp]
      exact hmem
    · rw [Actor.jobs, Actor.jobs, hp]
      rfl
  | @command conn s cmd queue io hp hq =>
    rcases hsend : conn.send cmd.packet io with ⟨e | _, conn'⟩
    · have hloop : actorLoop conn s (.command (some cmd) io) = (.break .connectionLost,
          .handed cmd.reply :: .replied cmd.reply (.error e) :: failAllPending s.pending) := by
        rw [actorLoop, hsend]
      refine .inl ⟨fun t event hmem => ?_, fun p hmem => ?_, .inr (.inl ?_)⟩
      · simp only [Actor.iterate, hloop, List.mem_cons, reduceCtorEq, false_or] at hmem
        exact hfail s.pending t event hmem
      · simp only [Actor.iterate, hloop, Actor.pending] at hmem
        cases hmem
      · simp only [Actor.iterate, hloop, Actor.jobs]
    · have hloop : actorLoop conn s (.command (some cmd) io) =
          (.next conn' ⟨s.pending ++ [cmd.pendingReply], s.jobs⟩, [.handed cmd.reply]) := by
        rw [actorLoop, hsend]
      refine .inl ⟨fun t event hmem => ?_, fun p hmem => ?_, .inl ?_⟩
      · simp only [Actor.iterate, hloop, List.mem_singleton, reduceCtorEq] at hmem
      · simp only [Actor.iterate, hloop, Actor.pending] at hmem
        rcases List.mem_append.mp hmem with hmem | hmem
        · left
          rw [Actor.pending, hp]
          exact hmem
        · exact .inr ⟨cmd, hq ▸ List.mem_cons_self, List.mem_singleton.mp hmem⟩
      · rw [Actor.jobs, Actor.jobs, hp]
        simp only [Actor.iterate, hloop]
  | @close conn s io hp _ _ =>
    exact .inl ⟨hfail s.pending, fun p hmem => (by cases hmem), .inr (.inl rfl)⟩
  | negotiated hp hreply =>
    exact .inl ⟨fun t event hmem => (by cases List.mem_singleton.mp hmem),
      fun p hmem => (by cases hmem), .inr (.inl rfl)⟩
  | _ =>
    exact .inl ⟨fun _ _ => List.not_mem_nil, fun p hmem => (by cases hmem), .inr (.inl rfl)⟩

end

section

variable {withExceptions : Bool} {r : StreamRun} {a' : Actor} {i : ActorInput} {es : List Effect}

theorem given_mono {s : StreamId} {h : String} (hg : r.Given s h) :
    (r.after i a' es).Given s h := by
  obtain ⟨cmd, hcmd, hs, hres⟩ := hg
  refine ⟨cmd, List.mem_append_left _ hcmd, hs, ?_⟩
  rw [after, resolutions_append]
  exact List.mem_append_left _ hres

theorem yields_after (r : StreamRun) (i : ActorInput) (a' : Actor) (es : List Effect)
    (s : StreamId) :
    (r.after i a' es).yields s = r.yields s ++ eventsOf (Session.heard r.closed es) s := by
  rw [yields, yields, after, List.map_append, eventsOf_append, List.map_map]
  exact congrArg (fun l => _ ++ eventsOf l s) (List.map_id _)

/-- The streams of a command that is queued are fresh. -/
theorem fresh_after (hr : r.Inv) (hfresh : r.Fresh i) :
    ((r.after i a' es).server.submitted.flatMap ClientCommand.streams).Nodup := by
  rw [after, List.flatMap_append]
  refine List.nodup_append.mpr ⟨hr.fresh, ?_, fun s hs t ht hst => ?_⟩
  · cases i with
    | queue cmd => cases cmd with
      | submit packet reply events =>
        cases events <;> simp [ActorInput.queued, ClientCommand.streams]
      | _ => exact List.nodup_nil
    | _ => exact List.nodup_nil
  · obtain ⟨cmd, hcmd, ht⟩ := List.mem_flatMap.mp ht
    exact hfresh cmd hcmd t ht (hst ▸ hs)

/-- What waits for a reply is a command that was submitted. -/
theorem waiting_after (hr : r.Inv)
    (hpending : ∀ p ∈ a'.pending,
      p ∈ r.server.actor.pending ∨ ∃ cmd ∈ r.server.actor.queue, p = cmd.pendingReply) :
    ∀ p ∈ a'.pending, ∃ cmd ∈ (r.after i a' es).server.submitted, p = cmd.pendingReply := by
  intro p hp
  rcases hpending p hp with hp | ⟨cmd, hcmd, rfl⟩
  · obtain ⟨cmd, hcmd, rfl⟩ := hr.waiting p hp
    exact ⟨cmd, List.mem_append_left _ hcmd, rfl⟩
  · exact ⟨cmd, List.mem_append_left _ (hr.mem_submitted_of_queue hcmd), rfl⟩

/-- What arrived before still comes from the packet it came from. -/
theorem cameFrom_after (hr : r.Inv) : ∀ x ∈ r.arrived, (r.after i a' es).CameFrom x := by
  intro x hx
  obtain ⟨packet, handle, hread, hwork, hevent, hhandle, hgiven⟩ := hr.origin x hx
  obtain ⟨hlt, -⟩ := List.getElem?_eq_some_iff.mp hread
  refine ⟨packet, handle, ?_, hwork, hevent, hhandle, given_mono hgiven⟩
  rw [after, List.getElem?_append_left hlt]
  exact hread

/-- A step is harmless if the table of subscribers stays sound and what arrives is
the event of the packet read, on a stream that has a slot under its handle. -/
theorem inv_after (hr : r.Inv) (hserver : (r.after i a' es).server.Inv) (hfresh : r.Fresh i)
    (hpending : ∀ p ∈ a'.pending,
      p ∈ r.server.actor.pending ∨ ∃ cmd ∈ r.server.actor.queue, p = cmd.pendingReply)
    (htable : Table a'.jobs (r.after i a' es).Given (r.after i a' es).yields)
    (harrived : Session.heard r.closed es = [] ∨
      ∃ packet handle s e, Session.heard r.closed es = [(s, e)] ∧ i.packet = some packet ∧
        jobEvent packet = some e ∧ packet.argStr 0 = some handle ∧
        some s ∈ (r.server.actor.jobs.of handle).slots) :
    (r.after i a' es).Inv := by
  have hfreshAll : ((r.after i a' es).server.submitted.flatMap ClientCommand.streams).Nodup :=
    fresh_after hr hfresh
  have hwaiting : ∀ p ∈ a'.pending, ∃ cmd ∈ (r.after i a' es).server.submitted,
      p = cmd.pendingReply := waiting_after hr hpending
  rcases harrived with hnone | ⟨packet, handle, s, e, hone, hpacket, hevent, hhandle, hslot⟩
  · have harrived : (r.after i a' es).arrived = r.arrived := by
      rw [after, hnone]
      exact List.append_nil _
    refine ⟨hserver, hfreshAll, hwaiting, htable, fun x hx => ?_, ?_, fun s => ?_⟩
    · rw [harrived] at hx
      exact cameFrom_after hr x hx
    · rw [harrived]
      exact hr.once
    · rw [yields_after, hnone]
      simpa [eventsOf] using hr.wellFormed s
  · have harrived : (r.after i a' es).arrived = r.arrived ++ [⟨r.read.length, s, e⟩] := by
      rw [after, hone]
      rfl
    refine ⟨hserver, hfreshAll, hwaiting, htable, fun x hx => ?_, ?_, fun t => ?_⟩
    · rw [harrived] at hx
      rcases List.mem_append.mp hx with hx | hx
      · exact cameFrom_after hr x hx
      · rw [List.mem_singleton.mp hx]
        refine ⟨packet, handle, ?_, isWork_of_jobEvent hevent, hevent, hhandle,
          given_mono (hr.table.home handle s hslot)⟩
        rw [after, hpacket]
        exact List.getElem?_concat_length
    · -- the numbers used so far are below the number of packets read
      rw [harrived, List.map_append]
      refine (List.perm_append_singleton _ _).nodup_iff.mpr
        (List.nodup_cons.mpr ⟨fun hmem => ?_, hr.once⟩)
      obtain ⟨x, hx, hreading⟩ := List.mem_map.mp hmem
      obtain ⟨_, _, hread, -⟩ := hr.origin x hx
      obtain ⟨hlt, -⟩ := List.getElem?_eq_some_iff.mp hread
      dsimp only at hreading
      omega
    · rw [yields_after, hone]
      by_cases ht : s = t
      · subst ht
        simp only [eventsOf, List.filterMap_cons, if_pos, List.filterMap_nil]
        exact wellFormed_concat (hr.table.progress handle s hslot) e
      · simp only [eventsOf, List.filterMap_cons, if_neg ht, List.filterMap_nil, List.append_nil]
        exact hr.wellFormed t

theorem heard_eq_nil (closed : List StreamId) (h : ∀ s e, .event s e ∉ es) :
    Session.heard closed es = [] := by
  refine List.filterMap_eq_nil_iff.mpr fun x hx => ?_
  split
  · exact absurd hx (h _ _)
  · rfl

/-- Where nothing is heard, a sound table is enough. -/
theorem inv_silent (hr : r.Inv) (hserver : (r.after i a' es).server.Inv) (hfresh : r.Fresh i)
    (hevents : ∀ s e, .event s e ∉ es)
    (hpending : ∀ p ∈ a'.pending,
      p ∈ r.server.actor.pending ∨ ∃ cmd ∈ r.server.actor.queue, p = cmd.pendingReply)
    (htable : Table a'.jobs (r.after i a' es).Given r.yields) : (r.after i a' es).Inv := by
  have hheard := heard_eq_nil r.closed hevents
  have hyields : (r.after i a' es).yields = r.yields := by
    funext s
    rw [yields_after, hheard]
    exact List.append_nil _
  exact inv_after hr hserver hfresh hpending (hyields ▸ htable) (.inl hheard)

/-- A `JOB_CREATED` that answers a foreground submit adds its stream. -/
theorem table_join (hr : r.Inv) {packet : Packet} {oldest : PendingReply} {answer : Answer}
    (holdest : oldest ∈ r.server.actor.pending) (hanswer : oldest.answer packet = some answer) :
    Table (oldest.join packet r.server.actor.jobs)
      (r.after i a' [.replied oldest.reply answer]).Given r.yields := by
  unfold PendingReply.join
  split
  · rename_i reply sender hptype
    obtain ⟨cmd, hcmd, hcmdEq⟩ := hr.waiting _ holdest
    obtain ⟨pkt, rfl⟩ : ∃ pkt, cmd = .submit pkt reply (some sender) := by
      cases cmd <;> cases hcmdEq
      exact ⟨_, rfl⟩
    have hnew := hr.not_given_of_waiting (s := sender) hcmd List.mem_cons_self
      (List.mem_append_right _ (List.mem_map_of_mem holdest))
    refine hr.table.add hnew ?_ ?_ (fun t h => given_mono)
    · refine List.eq_nil_iff_forall_not_mem.mpr fun e he => ?_
      obtain ⟨h, hgiven⟩ := hr.given_of_mem_yields he
      exact hnew h hgiven
    · refine ⟨_, List.mem_append_left _ hcmd, List.mem_cons_self, ?_⟩
      obtain rfl : .handle ((packet.argStr 0).getD "") = answer := by
        simpa [PendingReply.answer, hptype] using hanswer
      rw [after, resolutions_append]
      exact List.mem_append_right _ List.mem_cons_self
  · exact hr.table.mono fun s h => given_mono

/-- A `WORK_*` packet goes to at most one stream, one that has a slot under its handle. -/
theorem inv_work (hr : r.Inv) {packet : Packet}
    (hserver : (r.after i a' (dispatchWorkEvent packet r.server.actor.jobs).2).server.Inv)
    (hfresh : r.Fresh i) (hpacket : i.packet = some packet)
    (hpending : a'.pending = r.server.actor.pending)
    (hjobs : a'.jobs = (dispatchWorkEvent packet r.server.actor.jobs).1) :
    (r.after i a' (dispatchWorkEvent packet r.server.actor.jobs).2).Inv := by
  have hunique : ∀ s h h', r.Given s h → r.Given s h' → h = h' := fun _ _ _ => hr.given_unique
  have hkept : ∀ p ∈ a'.pending,
      p ∈ r.server.actor.pending ∨ ∃ cmd ∈ r.server.actor.queue, p = cmd.pendingReply := by
    intro p hp
    rw [hpending] at hp
    exact .inl hp
  rcases hes : (dispatchWorkEvent packet r.server.actor.jobs).2 with _ | ⟨x, xs⟩
  · rw [hes] at hserver
    refine inv_silent hr hserver hfresh (fun _ _ => List.not_mem_nil) hkept ?_
    rw [hjobs]
    exact (hr.table.dispatch hunique packet fun _ => .inl rfl).mono fun s h => given_mono
  · obtain ⟨s, e, rfl⟩ := dispatchWorkEvent_effects packet r.server.actor.jobs x
      (hes ▸ List.mem_cons_self)
    have hmem : .event s e ∈ (dispatchWorkEvent packet r.server.actor.jobs).2 := by
      rw [hes]
      exact List.mem_cons_self
    obtain ⟨handle, hhandle, hevent, hslot, hone⟩ := Table.event_mem hmem
    rw [← hes]
    refine inv_after hr hserver hfresh hkept ?_ ?_
    · rw [hjobs]
      refine (hr.table.dispatch hunique packet fun t => ?_).mono fun s h => given_mono
      rw [yields_after, hone]
      by_cases hmem : s ∈ r.closed ∨ s ≠ t
      · left
        rcases hmem with hmem | hmem <;> simp [Session.heard, eventsOf, hmem]
      · right
        obtain ⟨hopen, rfl⟩ : s ∉ r.closed ∧ s = t := by simpa using hmem
        exact ⟨e, List.mem_cons_self, by simp [Session.heard, eventsOf, hopen]⟩
    · rw [hone]
      by_cases hmem : s ∈ r.closed
      · exact .inl (by simp [Session.heard, hmem])
      · exact .inr ⟨packet, handle, s, e, by simp [Session.heard, hmem], hpacket, hevent, hhandle,
          hslot⟩

theorem inv_packet (hr : r.Inv) (hserver : (r.after i a' es).server.Inv) (hfresh : r.Fresh i)
    {packet : Packet} {conn : Connection} {s : LoopState} (hpacket : i.packet = some packet)
    (hp : r.server.actor.phase = .looping conn s)
    (hp' : a'.phase = .looping conn (handleIncoming packet s).1)
    (hes : es = (handleIncoming packet s).2) : (r.after i a' es).Inv := by
  have hjobs : r.server.actor.jobs = s.jobs := by rw [Actor.jobs, hp]
  have hjobs' : a'.jobs = (handleIncoming packet s).1.jobs := by rw [Actor.jobs, hp']
  have hpend : r.server.actor.pending = s.pending := by rw [Actor.pending, hp]
  have hpend' : a'.pending = (handleIncoming packet s).1.pending := by rw [Actor.pending, hp']
  subst hes
  cases hwork : isWork packet.ptype with
  | true =>
    rw [handleIncoming_work hwork, ← hjobs] at hjobs' hpend' hserver ⊢
    exact inv_work hr hserver hfresh hpacket (hpend'.trans hpend.symm) hjobs'
  | false =>
    cases hreply : isReply packet.ptype with
    | false =>
      rw [handleIncoming_other hwork hreply] at hjobs' hpend' hserver ⊢
      refine inv_silent hr hserver hfresh (fun _ _ => List.not_mem_nil) (fun p hmem => .inl ?_) ?_
      · rw [hpend]
        rwa [hpend'] at hmem
      · rw [hjobs', ← hjobs]
        exact hr.table.mono fun s h => given_mono
    | true =>
      rcases hs : s.pending with _ | ⟨oldest, pending⟩
      · obtain ⟨message, h⟩ := handleIncoming_unexpected hreply hs
        rw [h] at hjobs' hpend' hserver ⊢
        refine inv_silent hr hserver hfresh (by simp) (fun p hmem => .inl ?_) ?_
        · rw [hpend]
          rwa [hpend'] at hmem
        · rw [hjobs', ← hjobs]
          exact hr.table.mono fun s h => given_mono
      · have htail : ∀ p ∈ pending, p ∈ r.server.actor.pending := by
          intro p hmem
          rw [hpend, hs]
          exact List.mem_cons_of_mem _ hmem
        rcases handleIncoming_reply hreply hs with ⟨answer, hanswer, h⟩ | ⟨-, message, h⟩ <;>
          rw [h] at hjobs' hpend' hserver ⊢
        · refine inv_silent hr hserver hfresh (by simp) (fun p hmem => .inl ?_) ?_
          · rw [hpend'] at hmem
            exact htail p hmem
          · rw [hjobs', ← hjobs]
            refine table_join hr ?_ hanswer
            rw [hpend, hs]
            exact List.mem_cons_self
        · refine inv_silent hr hserver hfresh (by simp) (fun p hmem => .inl ?_) ?_
          · rw [hpend'] at hmem
            exact htail p hmem
          · rw [hjobs', ← hjobs]
            exact hr.table.mono fun s h => given_mono

theorem inv_advance {r' : StreamRun} (hr : r.Inv) (h : r.advance withExceptions i = some r') :
    r'.Inv := by
  obtain ⟨⟨hf, hfresh⟩, h⟩ := Option.ite_none_right_eq_some.mp h
  obtain ⟨⟨a', es⟩, hstep, rfl⟩ := Option.map_eq_some_iff.mp h
  have hserver : (r.after i a' es).server.Inv := by
    have hrun : r.server.step withExceptions i = some (r.after i a' es).server := by
      rw [ServerRun.step, if_pos hf, hstep]
      rfl
    exact ServerRun.inv_step hr.server hrun
  rcases step_streams (Actor.steps_of_step hstep) with
    ⟨hevents, hpending, hjobs⟩ | ⟨packet, conn, s, hpacket, hp, hp', hes⟩
  · refine inv_silent hr hserver hfresh hevents hpending ?_
    rcases hjobs with hjobs | hjobs | ⟨closed, hjobs⟩ <;> rw [hjobs]
    · exact hr.table.mono fun s h => given_mono
    · exact Table.new
    · exact (hr.table.prune closed).mono fun s h => given_mono
  · exact inv_packet hr hserver hfresh hpacket hp hp' hes

theorem inv_step {r' : StreamRun} {act : StreamAct} (hr : r.Inv)
    (h : r.step withExceptions act = some r') : r'.Inv := by
  match act with
  | .actor (.tick _) => cases h
  | .actor (.queue _) | .actor .dropSenders | .actor (.connect _) | .actor (.sent _)
  | .actor (.recv _) | .actor (.command _) | .actor .go => exact inv_advance hr h
  | .dropStream s =>
    cases h
    exact ⟨hr.server, hr.fresh, hr.waiting, hr.table, hr.origin, hr.once, hr.wellFormed⟩
  | .tick => exact inv_advance hr h

theorem inv_start : start.Inv where
  server := ServerRun.inv_new
  fresh := List.nodup_nil
  waiting _ h := by cases h
  table := Table.new
  origin _ h := by cases h
  once := List.nodup_nil
  wellFormed _ := wellFormed_of_progress fun e he => by cases he

/-- A stream that may still get something has had no terminal event. -/
theorem Inv.progress_of_holds (hr : r.Inv) {s : StreamId} (hs : r.Holds s) :
    ∀ e ∈ r.yields s, e.isTerminal = false := by
  have waiting : ∀ cmd ∈ r.server.submitted, s ∈ cmd.streams →
      cmd.reply ∈ r.server.actor.queue.map ClientCommand.reply ++
        r.server.actor.pending.map PendingReply.reply →
      ∀ e ∈ r.yields s, e.isTerminal = false := by
    intro cmd hcmd hstream hwaits e he
    obtain ⟨h, hgiven⟩ := hr.given_of_mem_yields he
    exact absurd hgiven (hr.not_given_of_waiting hcmd hstream hwaits h)
  rcases hs with hs | hs | ⟨handle, hs⟩
  · obtain ⟨cmd, hcmd, hstream⟩ := List.mem_flatMap.mp hs
    exact waiting cmd (hr.mem_submitted_of_queue hcmd) hstream
      (List.mem_append_left _ (List.mem_map_of_mem hcmd))
  · obtain ⟨p, hp, hstream⟩ := List.mem_flatMap.mp hs
    obtain ⟨cmd, hcmd, rfl⟩ := hr.waiting p hp
    have hstreams : cmd.pendingReply.streams = cmd.streams := by
      cases cmd with
      | submit packet reply events => cases events <;> rfl
      | _ => rfl
    rw [hstreams] at hstream
    refine waiting cmd hcmd hstream (List.mem_append_right _ (List.mem_map.mpr ⟨_, hp, ?_⟩))
    exact cmd.reply_pendingReply
  · exact hr.table.progress handle s hs

/-- **Event streams are well formed.** After every run, whatever the server sent,
each stream has yielded progress and then at most one result; once it has yielded
a result the actor holds no sender of it; each event is that of a `WORK_*` packet
read, whose handle is the one the stream's submission was given; and no packet
was delivered twice. -/
theorem streams_wellFormed (withExceptions : Bool) {acts : List StreamAct} {r : StreamRun}
    (h : Machine.run (step withExceptions) start acts = some r) :
    (∀ s, WellFormed (r.yields s)) ∧
    (∀ s, ∀ e ∈ r.yields s, e.isTerminal = true → ¬r.Holds s) ∧
    (∀ x ∈ r.arrived, ∃ packet handle, r.read[x.reading]? = some packet ∧
      isWork packet.ptype = true ∧ jobEvent packet = some x.event ∧
      packet.argStr 0 = some handle ∧ ∀ h, r.Given x.stream h ↔ h = handle) ∧
    (r.arrived.map Arrival.reading).Nodup := by
  have hr : r.Inv := Machine.invariant (fun _ _ _ hr hs => inv_step hr hs) inv_start h
  refine ⟨hr.wellFormed, fun s e he hterminal hs => ?_, fun x hx => ?_, hr.once⟩
  · rw [hr.progress_of_holds hs e he] at hterminal
    cases hterminal
  · obtain ⟨packet, handle, hread, hwork, hevent, hhandle, hgiven⟩ := hr.origin x hx
    refine ⟨packet, handle, hread, hwork, hevent, hhandle, fun h => ⟨fun hg => ?_, fun hh => ?_⟩⟩
    · exact hr.given_unique hg hgiven
    · rw [hh]
      exact hgiven

end

/-- Two submissions share a handle. The first gets both the data and the result,
the second the surplus copy of the result. -/
def sharedRun : List StreamAct :=
  [.actor (.queue ((submit "echo" (some "u") [] .foreground).command 0 0)),
    .actor (.queue ((submit "echo" (some "u") [] .foreground).command 1 1)),
    .actor (.connect true), .actor .go, .actor .go, .actor (.command .accepted),
    .actor (.command .accepted), .actor (.recv (.ok (some (.response .jobCreated [asBytes "H"])))),
    .actor (.recv (.ok (some (.response .workData [asBytes "H", [1]])))),
    .actor (.recv (.ok (some (.response .jobCreated [asBytes "H"])))),
    .actor (.recv (.ok (some (.response .workComplete [asBytes "H", [2]])))),
    .tick, .actor (.recv (.ok (some (.response .workComplete [asBytes "H", [2]])))),
    .actor (.recv (.ok (some (.response .workComplete [asBytes "H", [2]]))))]

theorem streams_wellFormed_sharedRun :
    ∃ r, Machine.run (step false) start sharedRun = some r ∧
      r.yields 0 = [.data [1], .complete [2]] ∧ r.yields 1 = [.complete [2]] ∧ ¬r.Holds 0 := by
  have hrun : Machine.run (step false) start sharedRun = some _ := rfl
  refine ⟨_, hrun, by decide +kernel, by decide +kernel, ?_⟩
  exact (streams_wellFormed false hrun).2.1 0 (.complete [2]) (by decide +kernel) rfl

end StreamRun

end Gearman.Client

import Gearman.Client.Verify.Replies
import Gearman.Client.Verify.Subscribers

/-!
# Coalesced delivery is exactly-once and in order

A session is one connection together with a server that answers every request
once and in order, registers every foreground submission for the events of the
handle it answers with, sends each event as one copy per registration, and
forgets the registrations after the copies of a terminal event. What a stream
should get is read off the history of what the server did; what it does get is
what the client sends to its channel.
-/

namespace Gearman.Client

open Protocol

/-! ## What a stream should get -/

/-- What the server did, as far as it matters to event streams. -/
inductive Issue
  /-- It answered the submission of this stream with this handle. -/
  | joined (stream : StreamId) (handle : String)
  /-- An event of this handle happened. -/
  | issued (handle : String) (packet : Packet)

/-- One stream in the eyes of a history. -/
structure View where
  /-- The handle it joined. -/
  handle : Option String
  /-- A terminal event has come since. -/
  ended : Bool
  /-- The events since, up to and including the terminal one. -/
  events : List Packet

def View.step (stream : StreamId) (v : View) : Issue → View
  | .joined s handle => if s = stream ∧ v.handle = none then ⟨some handle, false, []⟩ else v
  | .issued handle packet =>
    if v.handle = some handle ∧ v.ended = false then
      { v with ended := isTerminal packet.ptype, events := v.events ++ [packet] }
    else v

/-- The events issued for the handle of `stream` after its `JOB_CREATED`, up to
and including a terminal one. -/
def view (history : List Issue) (stream : StreamId) : View :=
  history.foldl (View.step stream) ⟨none, false, []⟩

theorem view_concat (history : List Issue) (i : Issue) (stream : StreamId) :
    view (history ++ [i]) stream = (view history stream).step stream i := by
  rw [view, List.foldl_append]
  rfl

/-- Nothing comes after a terminal event, even if the handle is used again. -/
theorem view_append_of_ended {history : List Issue} {stream : StreamId} {handle : String}
    (hjoined : (view history stream).handle = some handle)
    (hended : (view history stream).ended = true) (more : List Issue) :
    view (history ++ more) stream = view history stream := by
  induction more using List.reverseRecOn with
  | nil => rw [List.append_nil]
  | append_singleton more i ih =>
    rw [← List.append_assoc, view_concat, ih]
    cases i with
    | joined s h => exact if_neg fun h => by rw [hjoined] at h; cases h.2
    | issued h packet => exact if_neg fun h => by rw [hended] at h; cases h.2

/-! ## Sessions -/

/-- What the server keeps for a handle. -/
structure Registrations where
  count : Nat
  /-- The event being sent, and how many copies of it are still to go. -/
  batch : Option (Packet × Nat)

/-- The registrations when an event happens: a copy for each is to go out. -/
def Registrations.issue (r : Registrations) (packet : Packet) : Registrations :=
  { r with batch := if r.count = 0 then none else some (packet, r.count) }

/-- The registrations after a copy of an event has gone out and so many are left. -/
def Registrations.sent (r : Registrations) (packet : Packet) : Nat → Registrations
  | 0 => ⟨if isTerminal packet.ptype then 0 else r.count, none⟩
  | n + 1 => ⟨r.count, some (packet, n + 1)⟩

structure Session where
  conn : Connection
  client : LoopState
  /-- The requests the server has not answered, oldest first. -/
  waiting : List ClientCommand
  regs : String → Registrations
  history : List Issue
  /-- Streams their callers have dropped. -/
  closed : List StreamId
  /-- What arrived on open streams. -/
  received : List (StreamId × JobEvent)

inductive SessionAct
  | command (cmd : ClientCommand) (io : Io)
  /-- The server answers the oldest request. -/
  | reply (packet : Packet)
  /-- An event happens to a job. -/
  | issue (packet : Packet)
  /-- The next copy of the current event of this handle arrives. -/
  | copy (handle : String)
  /-- A packet of some other type arrives. -/
  | other (packet : Packet)
  | dropStream (stream : StreamId)
  | tick

/-- The event channel a command brings. -/
def ClientCommand.streams : ClientCommand → List StreamId
  | submit _ _ (some s) => [s]
  | _ => []

/-- The events that arrived on one stream, in order. -/
def eventsOf (received : List (StreamId × JobEvent)) (stream : StreamId) : List JobEvent :=
  received.filterMap fun x => if x.1 = stream then some x.2 else none

theorem eventsOf_append (received more : List (StreamId × JobEvent)) (stream : StreamId) :
    eventsOf (received ++ more) stream = eventsOf received stream ++ eventsOf more stream :=
  List.filterMap_append

namespace Session

def start : Session := ⟨.fromStream, .new, [], fun _ => ⟨0, none⟩, [], [], []⟩

/-- The events a stream that is still open gets. -/
def heard (closed : List StreamId) (es : List Effect) : List (StreamId × JobEvent) :=
  es.filterMap fun
    | .event s event => if s ∈ closed then none else some (s, event)
    | _ => none

/-- The client does an iteration that does not end `actor_loop`. -/
def iterate (c : Session) (i : LoopInput) : Option Session :=
  match actorLoop c.conn c.client i with
  | (.next conn s, es) =>
    some { c with conn := conn, client := s, received := c.received ++ heard c.closed es }
  | (.break _, _) => none

/-- A `JOB_CREATED` for a foreground submit registers it. -/
def register (c : Session) (packet : Packet) (cmd : ClientCommand) : Session :=
  match packet.ptype, packet.argStr 0, cmd with
  | .jobCreated, some handle, .submit _ _ (some s) =>
    { c with
      regs := Function.update c.regs handle
        { c.regs handle with count := (c.regs handle).count + 1 }
      history := c.history ++ [.joined s handle] }
  | _, _, _ => c

/-- No copies of an event are on their way for the handle of a `JOB_CREATED`. -/
def Between (c : Session) (packet : Packet) : Prop :=
  packet.ptype = .jobCreated → ∀ handle ∈ packet.argStr 0, (c.regs handle).batch.isNone

instance (c : Session) (packet : Packet) : Decidable (c.Between packet) :=
  inferInstanceAs (Decidable (_ → ∀ handle ∈ packet.argStr 0, (c.regs handle).batch.isNone))

def step (c : Session) : SessionAct → Option Session
  | .command cmd io =>
    if cmd.wellFormed ∧ ∀ s ∈ cmd.streams,
        s ∉ c.waiting.flatMap ClientCommand.streams ∧ (view c.history s).handle = none then
      { c with waiting := c.waiting ++ [cmd] }.iterate (.command (some cmd) io)
    else none
  | .reply packet =>
    match c.waiting with
    | [] => none
    | cmd :: waiting =>
      if answers cmd.packet.ptype packet ∧ c.Between packet then
        ({ c with waiting := waiting }.register packet cmd).iterate (.recv (.ok (some packet)))
      else none
  | .issue packet =>
    match packet.argStr 0 with
    | none => none
    | some handle =>
      if isWork packet.ptype ∧ (c.regs handle).batch.isNone then
        some { c with
          regs := Function.update c.regs handle ((c.regs handle).issue packet)
          history := c.history ++ [.issued handle packet] }
      else none
  | .copy handle =>
    match (c.regs handle).batch with
    | some (packet, n + 1) =>
      { c with
        regs := Function.update c.regs handle ((c.regs handle).sent packet n) }.iterate
          (.recv (.ok (some packet)))
    | _ => none
  | .other packet =>
    if isReply packet.ptype ∨ isWork packet.ptype then none
    else c.iterate (.recv (.ok (some packet)))
  | .dropStream s => some { c with closed := s :: c.closed }
  | .tick => c.iterate (.tick fun s => s ∈ c.closed)

end Session

/-! ## One handle -/

/-- The client's slots for a handle mirror the server's registrations: as many,
and as many due a copy as copies are still to come. -/
structure Mirror (subs : HandleSubscribers) (r : Registrations) (v : StreamId → View)
    (handle : String) : Prop where
  nodup : (subs.slots.filterMap id).Nodup
  home : ∀ s, some s ∈ subs.slots → (v s).handle = some handle
  /-- A stream outlives its terminal event only while copies of it are sent. -/
  ended : ∀ s, some s ∈ subs.slots → (v s).ended = true →
    ∃ packet n, r.batch = some (packet, n) ∧ isTerminal packet.ptype = true
  finished : ∀ packet n, r.batch = some (packet, n) → isTerminal packet.ptype = true →
    ∀ s, (v s).handle = some handle → (v s).ended = true
  idle : r.batch = none → subs.cursor = 0 ∧ subs.slots.length = r.count
  busy : ∀ packet n, r.batch = some (packet, n) →
    0 < n ∧ subs.owed.length = n ∧ packet.argStr 0 = some handle ∧ isWork packet.ptype = true ∧
      (isTerminal packet.ptype = true → subs.cursor = 0) ∧
      (isTerminal packet.ptype = false → subs.slots.length = r.count)

/-- The events a subscriber is still to be sent a copy of. -/
def owes (subs : HandleSubscribers) (r : Registrations) (s : StreamId) : List JobEvent :=
  match r.batch with
  | some (packet, _) => if some s ∈ subs.owed then (jobEvent packet).toList else []
  | none => []

theorem owes_length_le (subs : HandleSubscribers) (r : Registrations) (s : StreamId) :
    (owes subs r s).length ≤ 1 := by
  unfold owes
  split
  · split
    · cases jobEvent _ <;> simp
    · exact Nat.zero_le _
  · exact Nat.zero_le _

theorem owes_prune (closed : StreamId → Bool) {s : StreamId} (hs : closed s = false)
    (subs : HandleSubscribers) (r : Registrations) :
    owes (subs.prune closed) r s = owes subs r s := by
  have hmem : some s ∈ (subs.prune closed).owed ↔ some s ∈ subs.owed := by
    rw [HandleSubscribers.owed_prune, HandleSubscribers.mem_prune]
    exact and_iff_left hs
  simp only [owes, hmem]

theorem some_mem_iff {slots : List (Option StreamId)} {s : StreamId} :
    some s ∈ slots ↔ s ∈ slots.filterMap id := by
  simp

namespace Mirror

variable {subs : HandleSubscribers} {r : Registrations} {v v' : StreamId → View} {handle : String}

/-- Only the streams that joined the handle matter. -/
theorem congr_view (hm : Mirror subs r v handle)
    (h : ∀ s, (v s).handle = some handle ∨ (v' s).handle = some handle → v' s = v s) :
    Mirror subs r v' handle where
  nodup := hm.nodup
  home s hs := by
    have hhome := hm.home s hs
    rwa [h s (.inl hhome)]
  ended s hs hended := by
    rw [h s (.inl (hm.home s hs))] at hended
    exact hm.ended s hs hended
  finished packet n hbatch hterminal s hs := by
    have hsame := h s (.inr hs)
    rw [hsame] at hs ⊢
    exact hm.finished packet n hbatch hterminal s hs
  idle := hm.idle
  busy := hm.busy

theorem prune (hm : Mirror subs r v handle) (closed : StreamId → Bool) :
    Mirror (subs.prune closed) r v handle where
  nodup := by
    rw [HandleSubscribers.filterMap_prune]
    exact hm.nodup.filter _
  home s hs := hm.home s (HandleSubscribers.mem_prune.mp hs).1
  ended s hs := hm.ended s (HandleSubscribers.mem_prune.mp hs).1
  finished := hm.finished
  idle h := by
    obtain ⟨hcursor, hlength⟩ := hm.idle h
    exact ⟨hcursor, by rw [← hlength]; exact List.length_map _⟩
  busy packet n h := by
    obtain ⟨hn, howed, hhandle, hwork, hterminal, hlength⟩ := hm.busy packet n h
    refine ⟨hn, ?_, hhandle, hwork, hterminal, fun ht => ?_⟩
    · rw [HandleSubscribers.owed_prune, ← howed]
      exact List.length_map _
    · rw [← hlength ht]
      exact List.length_map _

/-- A new registration between two events. -/
theorem add (hm : Mirror subs r v handle) (hidle : r.batch = none) {s : StreamId}
    (hfresh : (v s).handle = none) (hjoined : v' s = ⟨some handle, false, []⟩)
    (hframe : ∀ t, t ≠ s → v' t = v t) :
    Mirror (subs.add s) { r with count := r.count + 1 } v' handle := by
  have hnew : some s ∉ subs.slots := by
    intro hs
    rw [hm.home s hs] at hfresh
    cases hfresh
  have hold : ∀ t, some t ∈ subs.slots → v' t = v t := by
    intro t ht
    refine hframe t fun h => hnew (h ▸ ht)
  have hmem : ∀ t, some t ∈ (subs.add s).slots → some t ∈ subs.slots ∨ t = s := by
    intro t ht
    simpa [HandleSubscribers.add] using ht
  have hnone : ∀ packet n, r.batch ≠ some (packet, n) := by simp [hidle]
  refine ⟨?_, fun t ht => ?_, fun t ht hended => ?_, fun p n h => absurd h (hnone p n), fun _ => ?_,
    fun p n h => absurd h (hnone p n)⟩
  · rw [HandleSubscribers.add, List.filterMap_append]
    exact (List.perm_append_singleton _ _).nodup_iff.mpr
      (List.nodup_cons.mpr ⟨fun h => hnew (some_mem_iff.mpr h), hm.nodup⟩)
  · rcases hmem t ht with ht | rfl
    · rw [hold t ht]
      exact hm.home t ht
    · rw [hjoined]
  · rcases hmem t ht with ht | rfl
    · rw [hold t ht] at hended
      exact hm.ended t ht hended
    · rw [hjoined] at hended
      cases hended
  · obtain ⟨hcursor, hlength⟩ := hm.idle hidle
    refine ⟨hcursor, ?_⟩
    rw [HandleSubscribers.add, List.length_append, hlength]
    rfl

theorem issue (hm : Mirror subs r v handle) (hidle : r.batch = none) {packet : Packet}
    (hhandle : packet.argStr 0 = some handle) (hwork : isWork packet.ptype = true)
    (hview : ∀ s, v' s = (v s).step s (.issued handle packet)) :
    Mirror subs (r.issue packet) v' handle := by
  obtain ⟨hcursor, hlength⟩ := hm.idle hidle
  have hlive : ∀ s, some s ∈ subs.slots → (v s).ended = false := by
    intro s hs
    by_contra h
    obtain ⟨p, n, hbatch, -⟩ := hm.ended s hs (Bool.not_eq_false _ ▸ h)
    exact absurd (hidle.symm.trans hbatch) (by simp)
  have hstep : ∀ s, some s ∈ subs.slots →
      v' s = ⟨some handle, isTerminal packet.ptype, (v s).events ++ [packet]⟩ := by
    intro s hs
    rw [hview, View.step, if_pos ⟨hm.home s hs, hlive s hs⟩, hm.home s hs]
  refine ⟨hm.nodup, fun s hs => ?_, fun s hs hended => ?_, fun p n h ht s hs => ?_, fun h => ?_,
    fun p n h => ?_⟩
  · rw [hstep s hs]
  · rw [hstep s hs] at hended
    have hcount : r.count ≠ 0 := by
      rw [← hlength]
      exact Nat.ne_of_gt (List.length_pos_of_mem hs)
    exact ⟨packet, r.count, if_neg hcount, hended⟩
  · have hp : p = packet := by
      simp only [Registrations.issue] at h
      split at h <;> cases h
      rfl
    rw [hview, View.step] at hs ⊢
    split
    · exact hp ▸ ht
    · rename_i hnot
      rw [if_neg hnot] at hs
      exact Bool.not_eq_false _ ▸ fun hended => hnot ⟨hs, hended⟩
  · exact ⟨hcursor, hlength⟩
  · simp only [Registrations.issue] at h
    split at h
    · cases h
    · cases h
      refine ⟨by omega, ?_, hhandle, hwork, fun _ => hcursor, fun _ => hlength⟩
      rw [HandleSubscribers.owed, hcursor, List.drop_zero, hlength]

/-- An event is due to all subscribers. -/
theorem owes_issue (hm : Mirror subs r v handle) (hidle : r.batch = none) (packet : Packet)
    (s : StreamId) :
    owes subs (r.issue packet) s =
      if some s ∈ subs.slots then (jobEvent packet).toList else [] := by
  obtain ⟨hcursor, hlength⟩ := hm.idle hidle
  unfold Registrations.issue owes
  by_cases hcount : r.count = 0
  · have hnil : subs.slots = [] := List.length_eq_zero_iff.mp (hlength.trans hcount)
    simp [hcount, hnil]
  · simp only [hcount, if_false, HandleSubscribers.owed, hcursor, List.drop_zero]

/-- One copy: what is due afterwards is what was due before, less the slot it went to. -/
theorem copy (hm : Mirror subs r v handle) {packet : Packet} {n : Nat}
    (hbatch : r.batch = some (packet, n + 1)) {slot : Option StreamId}
    {rest : List (Option StreamId)} (howed : subs.owed = slot :: rest) {subs' : HandleSubscribers}
    (hd : subs.Delivers (isTerminal packet.ptype) slot rest subs') :
    Mirror subs' (r.sent packet n) v handle := by
  obtain ⟨-, hlength, hhandle, hwork, hcursor, hcount⟩ := hm.busy packet (n + 1) hbatch
  have hrest : rest.length = n := by
    rw [howed] at hlength
    exact Nat.succ.inj hlength
  have hsub : (slot :: rest).Sublist subs.slots := howed ▸ List.drop_sublist _ _
  have hsubset : ∀ s, some s ∈ subs'.slots → some s ∈ subs.slots := by
    intro s hs
    cases ht : isTerminal packet.ptype with
    | true =>
      have hs' := (hd.terminal ht).1.mem_iff.mp hs
      exact hsub.subset (List.mem_cons_of_mem _ hs')
    | false => exact hd.event ht ▸ hs
  have hnodup : (subs'.slots.filterMap id).Nodup := by
    cases ht : isTerminal packet.ptype with
    | true =>
      refine ((hd.terminal ht).1.filterMap id).nodup_iff.mpr ?_
      exact hm.nodup.sublist (((List.sublist_cons_self _ _).trans hsub).filterMap id)
    | false =>
      rw [hd.event ht]
      exact hm.nodup
  have hended : ∀ s, some s ∈ subs'.slots → (v s).ended = true →
      0 < n ∧ isTerminal packet.ptype = true := by
    intro s hs hended
    obtain ⟨p, m, hp, ht⟩ := hm.ended s (hsubset s hs) hended
    cases hbatch.symm.trans hp
    refine ⟨?_, ht⟩
    rw [← hrest, ← (hd.terminal ht).1.length_eq]
    exact List.length_pos_of_mem hs
  refine ⟨hnodup, fun s hs => hm.home s (hsubset s hs), fun s hs he => ?_, fun p m h ht => ?_,
    fun h => ?_, fun p m h => ?_⟩
  · obtain ⟨hn, ht⟩ := hended s hs he
    obtain ⟨m, rfl⟩ := Nat.exists_eq_succ_of_ne_zero (Nat.ne_of_gt hn)
    exact ⟨packet, m + 1, rfl, ht⟩
  · cases n with
    | zero => cases h
    | succ n =>
      cases h
      exact hm.finished packet (n + 2) hbatch ht
  · cases n with
    | zero =>
      have hnil := List.length_eq_zero_iff.mp hrest
      refine ⟨hd.last hnil, ?_⟩
      cases ht : isTerminal packet.ptype with
      | true =>
        rw [(hd.terminal ht).1.length_eq, hnil]
        simp [Registrations.sent, ht]
      | false =>
        rw [hd.event ht, hcount ht]
        simp [Registrations.sent, ht]
    | succ n => cases h
  · cases n with
    | zero => cases h
    | succ n =>
      cases h
      have hne : rest ≠ [] := List.ne_nil_of_length_pos (by omega)
      refine ⟨Nat.succ_pos n, ?_, hhandle, hwork, fun ht => (hd.terminal ht).2, fun ht => ?_⟩
      · rw [(hd.owed hne).length_eq, hrest]
      · rw [hd.event ht, hcount ht]
        rfl

/-- A copy pays one event to the stream it goes to, and nothing to the others. -/
theorem owes_copy (hm : Mirror subs r v handle) {packet : Packet} {n : Nat} {event : JobEvent}
    (hbatch : r.batch = some (packet, n + 1)) (hevent : jobEvent packet = some event)
    {slot : Option StreamId} {rest : List (Option StreamId)} (howed : subs.owed = slot :: rest)
    {subs' : HandleSubscribers} (hd : subs.Delivers (isTerminal packet.ptype) slot rest subs')
    (s : StreamId) :
    (if slot = some s then [event] else []) ++ owes subs' (r.sent packet n) s = owes subs r s := by
  obtain ⟨-, hlength, -⟩ := hm.busy packet (n + 1) hbatch
  have hrest : rest.length = n := by
    rw [howed] at hlength
    exact Nat.succ.inj hlength
  have hbefore : owes subs r s = if slot = some s ∨ some s ∈ rest then [event] else [] := by
    simp only [owes, hbatch, hevent, howed, List.mem_cons, Option.toList_some, eq_comm]
  have hafter : owes subs' (r.sent packet n) s = if some s ∈ rest then [event] else [] := by
    cases n with
    | zero =>
      rw [List.length_eq_zero_iff.mp hrest]
      simp [owes, Registrations.sent]
    | succ n =>
      have hne : rest ≠ [] := List.ne_nil_of_length_pos (by omega)
      simp only [owes, Registrations.sent, hevent, (hd.owed hne).mem_iff, Option.toList_some]
  rw [hbefore, hafter]
  by_cases hslot : slot = some s
  · have hdistinct : some s ∉ rest := by
      have hnodup : ((slot :: rest).filterMap id).Nodup :=
        hm.nodup.sublist ((howed ▸ List.drop_sublist _ _ : (slot :: rest).Sublist _).filterMap id)
      rw [hslot, List.filterMap_cons_some (f := id) (b := s) rfl, List.nodup_cons] at hnodup
      exact fun h => hnodup.1 (some_mem_iff.mp h)
    have hdue : slot = some s ∨ some s ∈ rest := .inl hslot
    rw [if_pos hslot, if_pos hdue, if_neg hdistinct, List.append_nil]
  · simp only [hslot, if_false, false_or, List.nil_append]

end Mirror

/-! ## All handles -/

namespace Session

structure Inv (c : Session) : Prop where
  pending : c.client.pending = c.waiting.map ClientCommand.pendingReply
  wellFormed : ∀ cmd ∈ c.waiting, cmd.wellFormed = true
  distinct : (c.waiting.flatMap ClientCommand.streams).Nodup
  unjoined : ∀ s ∈ c.waiting.flatMap ClientCommand.streams, (view c.history s).handle = none
  mirror : ∀ handle, Mirror (c.client.jobs.of handle) (c.regs handle) (view c.history) handle
  live : ∀ s handle, s ∉ c.closed → (view c.history s).handle = some handle →
    (view c.history s).ended = false → some s ∈ (c.client.jobs.of handle).slots
  received : ∀ s handle, s ∉ c.closed → (view c.history s).handle = some handle →
    eventsOf c.received s ++ owes (c.client.jobs.of handle) (c.regs handle) s =
      (view c.history s).events.filterMap jobEvent
  unheard : ∀ s, (view c.history s).handle = none →
    eventsOf c.received s = [] ∧ (view c.history s).events = []

theorem inv_start : start.Inv where
  pending := rfl
  wellFormed _ h := by cases h
  distinct := List.nodup_nil
  unjoined _ h := by cases h
  mirror _ := ⟨List.nodup_nil, (fun _ h => by cases h), (fun _ h => by cases h),
    (fun _ _ h => by cases h), fun _ => ⟨rfl, rfl⟩, fun _ _ h => by cases h⟩
  live _ _ _ h := by cases h
  received _ _ _ h := by cases h
  unheard _ _ := ⟨rfl, rfl⟩

/-- An iteration that goes on. -/
theorem iterate_eq_some {c c' : Session} {i : LoopInput} (h : c.iterate i = some c') :
    ∃ conn s es, actorLoop c.conn c.client i = (.next conn s, es) ∧
      c' = { c with conn := conn, client := s, received := c.received ++ heard c.closed es } := by
  unfold iterate at h
  split at h
  · exact ⟨_, _, _, ‹_›, (Option.some.inj h).symm⟩
  · cases h

/-- The handle, if any, whose registrations a reply adds to. -/
theorem register_cases {cmd : ClientCommand} {packet : Packet}
    (h : answers cmd.packet.ptype packet = true) :
    (∃ handle pkt reply s, packet.ptype = .jobCreated ∧ packet.argStr 0 = some handle ∧
      cmd = .submit pkt reply (some s)) ∨
    (∀ c : Session, c.register packet cmd = c) ∧
      ∀ jobs, cmd.pendingReply.join packet jobs = jobs := by
  by_cases ht : packet.ptype = .jobCreated
  · have hhandle : ∃ handle, packet.argStr 0 = some handle := by
      rcases answers_cases h with ht' | ⟨-, -, ht'⟩ | ⟨ht', -⟩ | ⟨ht', -⟩
      · cases ht.symm.trans ht'
      · exact ht'
      · cases ht.symm.trans ht'
      · cases ht.symm.trans ht'
    obtain ⟨handle, hhandle⟩ := hhandle
    rcases cmd with ⟨pkt, reply, _ | s⟩ | ⟨pkt, reply⟩ | ⟨pkt, reply⟩
    · exact .inr ⟨fun c => by simp [register], fun jobs => by
        simp [ClientCommand.pendingReply, PendingReply.join]⟩
    · exact .inl ⟨handle, pkt, reply, s, ht, hhandle, rfl⟩
    · exact .inr ⟨fun c => by simp [register], fun jobs => by
        simp [ClientCommand.pendingReply, PendingReply.join]⟩
    · exact .inr ⟨fun c => by simp [register], fun jobs => by
        simp [ClientCommand.pendingReply, PendingReply.join]⟩
  · exact .inr ⟨fun c => by simp [register, ht], fun jobs => by simp [PendingReply.join, ht]⟩

/-- The stream a copy is sent to gets it if it is open. -/
theorem eventsOf_heard (closed : List StreamId) (slot : Option StreamId) (event : JobEvent)
    (s : StreamId) :
    eventsOf (heard closed (slot.map fun s => Effect.event s event).toList) s =
      if slot = some s ∧ s ∉ closed then [event] else [] := by
  rcases slot with _ | t
  · rfl
  · by_cases ht : t = s
    · subst ht
      by_cases hclosed : t ∈ closed <;> simp [heard, eventsOf, hclosed]
    · by_cases hclosed : t ∈ closed <;> simp [heard, eventsOf, ht, hclosed]

theorem Inv.command {c c' : Session} (hc : c.Inv) {cmd : ClientCommand} {io : Io}
    (hwf : cmd.wellFormed = true)
    (hfresh : ∀ s ∈ cmd.streams,
      s ∉ c.waiting.flatMap ClientCommand.streams ∧ (view c.history s).handle = none)
    (h : ({ c with waiting := c.waiting ++ [cmd] }).iterate (.command (some cmd) io) = some c') :
    c'.Inv := by
  obtain ⟨conn, s, es, hloop, rfl⟩ := iterate_eq_some h
  simp only [actorLoop] at hloop
  split at hloop <;> cases hloop
  have hstreams : (c.waiting ++ [cmd]).flatMap ClientCommand.streams =
      c.waiting.flatMap ClientCommand.streams ++ cmd.streams := by simp
  have hheard : heard c.closed [.handed cmd.reply] = [] := rfl
  refine ⟨?_, ?_, ?_, ?_, hc.mirror, hc.live, ?_, ?_⟩
  · simp only [hc.pending, List.map_append, List.map_singleton]
  · intro cmd' hcmd'
    rcases List.mem_append.mp hcmd' with hcmd' | hcmd'
    · exact hc.wellFormed cmd' hcmd'
    · rwa [List.mem_singleton.mp hcmd']
  · simp only [hstreams]
    refine List.nodup_append.mpr ⟨hc.distinct, ?_, ?_⟩
    · unfold ClientCommand.streams
      split <;> simp
    · intro s hs t ht hst
      exact (hfresh t ht).1 (hst ▸ hs)
  · intro s hs
    simp only [hstreams, List.mem_append] at hs
    rcases hs with hs | hs
    · exact hc.unjoined s hs
    · exact (hfresh s hs).2
  · simpa only [hheard, List.append_nil] using hc.received
  · simpa only [hheard, List.append_nil] using hc.unheard

theorem Inv.other {c c' : Session} (hc : c.Inv) {packet : Packet}
    (hreply : isReply packet.ptype = false) (hwork : isWork packet.ptype = false)
    (h : c.iterate (.recv (.ok (some packet))) = some c') : c'.Inv := by
  obtain ⟨conn, s, es, hloop, rfl⟩ := iterate_eq_some h
  simp only [actorLoop, handleIncoming_other hwork hreply] at hloop
  cases hloop
  have hheard : heard c.closed [] = [] := rfl
  refine ⟨hc.pending, hc.wellFormed, hc.distinct, hc.unjoined, hc.mirror, hc.live, ?_, ?_⟩
  · simpa only [hheard, List.append_nil] using hc.received
  · simpa only [hheard, List.append_nil] using hc.unheard

theorem Inv.dropStream {c : Session} (hc : c.Inv) (s : StreamId) :
    ({ c with closed := s :: c.closed }).Inv := by
  refine ⟨hc.pending, hc.wellFormed, hc.distinct, hc.unjoined, hc.mirror, ?_, ?_, hc.unheard⟩
  · intro t handle ht
    exact hc.live t handle fun h => ht (List.mem_cons_of_mem s h)
  · intro t handle ht
    exact hc.received t handle fun h => ht (List.mem_cons_of_mem s h)

theorem Inv.tick {c c' : Session} (hc : c.Inv)
    (h : c.iterate (.tick fun s => s ∈ c.closed) = some c') : c'.Inv := by
  obtain ⟨conn, s, es, hloop, rfl⟩ := iterate_eq_some h
  cases hloop
  have hheard : heard c.closed [] = [] := rfl
  have hof : ∀ handle, JobEventSubscribers.of
      (pruneClosedSubscribers (fun s => s ∈ c.closed) c.client.jobs) handle =
        (c.client.jobs.of handle).prune fun s => s ∈ c.closed :=
    fun handle => JobEventSubscribers.of_prune _ _ handle
  refine ⟨hc.pending, hc.wellFormed, hc.distinct, hc.unjoined, fun handle => ?_, ?_, ?_, ?_⟩
  · rw [hof]
    exact (hc.mirror handle).prune _
  · intro s handle hs hhandle hended
    rw [hof]
    exact HandleSubscribers.mem_prune.mpr ⟨hc.live s handle hs hhandle hended, by simpa using hs⟩
  · intro s handle hs hhandle
    simp only [hheard, List.append_nil, hof,
      owes_prune (fun s => decide (s ∈ c.closed)) (decide_eq_false hs)]
    exact hc.received s handle hs hhandle
  · simpa only [hheard, List.append_nil] using hc.unheard

theorem Inv.issue {c : Session} (hc : c.Inv) {packet : Packet} {handle : String}
    (hhandle : packet.argStr 0 = some handle) (hwork : isWork packet.ptype = true)
    (hidle : (c.regs handle).batch = none) :
    ({ c with
      regs := Function.update c.regs handle ((c.regs handle).issue packet)
      history := c.history ++ [Issue.issued handle packet] }).Inv := by
  have hview : ∀ s, view (c.history ++ [Issue.issued handle packet]) s =
      (view c.history s).step s (.issued handle packet) := view_concat _ _
  have hkeep : ∀ s, (view (c.history ++ [Issue.issued handle packet]) s).handle =
      (view c.history s).handle := by
    intro s
    rw [hview, View.step]
    split <;> rfl
  have haway : ∀ s, (view c.history s).handle ≠ some handle →
      view (c.history ++ [Issue.issued handle packet]) s = view c.history s := by
    intro s hs
    rw [hview, View.step, if_neg fun h => hs h.1]
  refine ⟨hc.pending, hc.wellFormed, hc.distinct, ?_, fun h => ?_, ?_, ?_, ?_⟩
  · intro s hs
    rw [hkeep]
    exact hc.unjoined s hs
  · by_cases hh : h = handle
    · subst hh
      simp only [Function.update_self]
      exact (hc.mirror h).issue hidle hhandle hwork hview
    · simp only [Function.update_of_ne hh]
      refine (hc.mirror h).congr_view fun s hs => haway s ?_
      rw [hkeep, or_self] at hs
      rw [hs, ne_eq, Option.some.injEq]
      exact hh
  · intro s h hs hjoined hended
    rw [hkeep] at hjoined
    refine hc.live s h hs hjoined ?_
    rw [hview, View.step] at hended
    split at hended
    · exact (‹_ ∧ _›).2
    · exact hended
  · intro s h hs hjoined
    rw [hkeep] at hjoined
    have hreceived := hc.received s h hs hjoined
    by_cases hh : h = handle
    · subst hh
      have hbefore : owes (c.client.jobs.of h) (c.regs h) s = [] := by rw [owes, hidle]
      rw [hbefore, List.append_nil] at hreceived
      simp only [Function.update_self]
      rw [(hc.mirror h).owes_issue hidle, hreceived, hview, View.step]
      cases hended : (view c.history s).ended with
      | true =>
        have hgone : some s ∉ (c.client.jobs.of h).slots := by
          intro hs
          obtain ⟨p, n, hbatch, -⟩ := (hc.mirror h).ended s hs hended
          exact absurd (hidle.symm.trans hbatch) (by simp)
        rw [if_neg hgone, if_neg (by simp), List.append_nil]
      | false =>
        rw [if_pos (hc.live s h hs hjoined hended), if_pos ⟨hjoined, rfl⟩, List.filterMap_append]
        cases hevent : jobEvent packet <;> simp [hevent]
    · simp only [Function.update_of_ne hh]
      rw [haway s (by rw [hjoined]; exact fun heq => hh (Option.some.inj heq))]
      exact hreceived
  · intro s hs
    rw [hkeep] at hs
    rw [haway s (by rw [hs]; exact fun heq => by cases heq)]
    exact hc.unheard s hs

/-- The session after the client has read the reply to its oldest request. -/
theorem iterate_reply {c c' : Session} (hc : c.Inv) {packet : Packet} {cmd : ClientCommand}
    {waiting : List ClientCommand} (hwaiting : c.waiting = cmd :: waiting)
    (hanswers : answers cmd.packet.ptype packet = true)
    (h : (({ c with waiting := waiting }).register packet cmd).iterate
      (.recv (.ok (some packet))) = some c')
    (hclient : (({ c with waiting := waiting }).register packet cmd).client = c.client) :
    c' = { ({ c with waiting := waiting }).register packet cmd with
      client := ⟨waiting.map ClientCommand.pendingReply,
        cmd.pendingReply.join packet c.client.jobs⟩ } := by
  obtain ⟨conn, s, es, hloop, rfl⟩ := iterate_eq_some h
  have hpending := hc.pending
  rw [hwaiting, List.map_cons] at hpending
  have hwf := hc.wellFormed cmd (by rw [hwaiting]; exact List.mem_cons_self)
  rw [hclient] at hloop
  rcases handleIncoming_reply (isReply_of_answers hanswers) hpending with
    ⟨answer, -, hreply⟩ | ⟨hnone, -⟩
  · simp only [actorLoop, hreply] at hloop
    cases hloop
    have hheard : heard (({ c with waiting := waiting }).register packet cmd).closed
        [.replied cmd.pendingReply.reply answer] = [] := rfl
    rw [hheard, List.append_nil]
  · rw [PendingReply.answer_eq_outcome hwf hanswers] at hnone
    cases hnone

/-- A submission is answered with a handle: its stream joins that handle. -/
theorem Inv.join {c : Session} (hc : c.Inv) {pkt : Packet} {reply : ReplyId} {s : StreamId}
    {waiting : List ClientCommand} (hwaiting : c.waiting = .submit pkt reply (some s) :: waiting)
    {handle : String} (hidle : (c.regs handle).batch = none) :
    ({ c with
      client := ⟨waiting.map ClientCommand.pendingReply, c.client.jobs.add handle s⟩
      waiting := waiting
      regs := Function.update c.regs handle
        { c.regs handle with count := (c.regs handle).count + 1 }
      history := c.history ++ [Issue.joined s handle] }).Inv := by
  have hdistinct := hc.distinct
  have hunjoined := hc.unjoined
  rw [hwaiting, List.flatMap_cons] at hdistinct hunjoined
  obtain ⟨hlater, hdistinct⟩ := List.nodup_cons.mp hdistinct
  have hfresh := hunjoined s List.mem_cons_self
  have hview : ∀ t, t ≠ s → view (c.history ++ [Issue.joined s handle]) t = view c.history t := by
    intro t hts
    rw [view_concat, View.step, if_neg fun h => hts h.1.symm]
  have hjoined : view (c.history ++ [Issue.joined s handle]) s = ⟨some handle, false, []⟩ := by
    rw [view_concat, View.step, if_pos ⟨rfl, hfresh⟩]
  have hof := JobEventSubscribers.of_add c.client.jobs handle s
  have hm := (hc.mirror handle).add hidle hfresh hjoined hview
  refine ⟨rfl, ?_, hdistinct, ?_, fun h => ?_, ?_, ?_, ?_⟩
  · intro cmd hcmd
    exact hc.wellFormed cmd (by rw [hwaiting]; exact List.mem_cons_of_mem _ hcmd)
  · intro t ht
    rw [hview t fun hts => hlater (hts ▸ ht)]
    exact hunjoined t (List.mem_cons_of_mem _ ht)
  · by_cases hh : h = handle
    · subst hh
      simp only [hof, Function.update_self]
      exact hm
    · simp only [hof, Function.update_of_ne hh]
      refine (hc.mirror h).congr_view fun t ht => hview t fun hts => ?_
      rw [hts, hfresh, hjoined] at ht
      rcases ht with ht | ht
      · cases ht
      · exact hh (Option.some.inj ht).symm
  · intro t h ht hjoins hended
    by_cases hts : t = s
    · rw [hts, hjoined] at hjoins
      cases hjoins
      simp only [hof, Function.update_self, HandleSubscribers.add, hts]
      exact List.mem_append_right _ (List.mem_singleton_self _)
    · rw [hview t hts] at hjoins hended
      have hslot := hc.live t h ht hjoins hended
      by_cases hh : h = handle
      · subst hh
        simp only [hof, Function.update_self, HandleSubscribers.add]
        exact List.mem_append_left _ hslot
      · simpa only [hof, Function.update_of_ne hh] using hslot
  · intro t h ht hjoins
    by_cases hts : t = s
    · rw [hts, hjoined] at hjoins
      cases hjoins
      rw [hts, hjoined]
      simp only [Function.update_self, owes, hidle, (hc.unheard s hfresh).1]
      rfl
    · rw [hview t hts] at hjoins ⊢
      have hreceived := hc.received t h ht hjoins
      by_cases hh : h = handle
      · subst hh
        simp only [owes, hidle] at hreceived
        simpa only [Function.update_self, owes, hidle] using hreceived
      · simpa only [hof, Function.update_of_ne hh] using hreceived
  · intro t hnone
    have hts : t ≠ s := by
      intro hts
      rw [hts, hjoined] at hnone
      cases hnone
    rw [hview t hts] at hnone ⊢
    exact hc.unheard t hnone

/-- Any other reply: nobody joins. -/
theorem Inv.answered {c : Session} (hc : c.Inv) {cmd : ClientCommand}
    {waiting : List ClientCommand} (hwaiting : c.waiting = cmd :: waiting) :
    ({ c with
      client := ⟨waiting.map ClientCommand.pendingReply, c.client.jobs⟩
      waiting := waiting }).Inv := by
  have hdistinct := hc.distinct
  have hunjoined := hc.unjoined
  rw [hwaiting, List.flatMap_cons] at hdistinct hunjoined
  refine ⟨rfl, ?_, (List.nodup_append.mp hdistinct).2.1, ?_, hc.mirror, hc.live, hc.received,
    hc.unheard⟩
  · intro cmd' hcmd'
    exact hc.wellFormed cmd' (by rw [hwaiting]; exact List.mem_cons_of_mem _ hcmd')
  · intro t ht
    exact hunjoined t (List.mem_append_right _ ht)

theorem Inv.reply {c c' : Session} (hc : c.Inv) {packet : Packet} {cmd : ClientCommand}
    {waiting : List ClientCommand} (hwaiting : c.waiting = cmd :: waiting)
    (hanswers : answers cmd.packet.ptype packet = true) (hbetween : c.Between packet)
    (h : (({ c with waiting := waiting }).register packet cmd).iterate
      (.recv (.ok (some packet))) = some c') : c'.Inv := by
  rcases register_cases hanswers with ⟨handle, pkt, reply, s, ht, hhandle, rfl⟩ | ⟨hreg, hjoin⟩
  · have hreg : ∀ c : Session, c.register packet (.submit pkt reply (some s)) =
        { c with
          regs := Function.update c.regs handle
            { c.regs handle with count := (c.regs handle).count + 1 }
          history := c.history ++ [Issue.joined s handle] } := by
      intro c
      simp only [register, ht, hhandle]
    have hjoin : (ClientCommand.submit pkt reply (some s)).pendingReply.join packet c.client.jobs =
        c.client.jobs.add handle s := by
      simp [PendingReply.join, ClientCommand.pendingReply, ht, hhandle]
    have hc' := iterate_reply hc hwaiting hanswers h (by rw [hreg])
    rw [hreg, hjoin] at hc'
    rw [hc']
    exact hc.join hwaiting (Option.isNone_iff_eq_none.mp (hbetween ht handle hhandle))
  · have hc' := iterate_reply hc hwaiting hanswers h (by rw [hreg])
    rw [hreg, hjoin] at hc'
    rw [hc']
    exact hc.answered hwaiting

theorem Inv.copy {c c' : Session} (hc : c.Inv) {handle : String} {packet : Packet} {n : Nat}
    (hbatch : (c.regs handle).batch = some (packet, n + 1))
    (h : ({ c with
        regs := Function.update c.regs handle ((c.regs handle).sent packet n) }).iterate
      (.recv (.ok (some packet))) = some c') : c'.Inv := by
  obtain ⟨conn, s, es, hloop, rfl⟩ := iterate_eq_some h
  have hm := hc.mirror handle
  obtain ⟨-, hlength, hhandle, hwork, hcursor, -⟩ := hm.busy packet (n + 1) hbatch
  obtain ⟨event, hevent⟩ := jobEvent_of_isWork hwork
  obtain ⟨slot, rest, howed⟩ := List.exists_cons_of_length_eq_add_one hlength
  obtain ⟨subs', hd, hof, heffects⟩ := dispatchWorkEvent_delivers hhandle hevent howed hcursor
  simp only [actorLoop, handleIncoming_work hwork] at hloop
  cases hloop
  have hlive : isTerminal packet.ptype = true → ∀ s, (view c.history s).handle = some handle →
      (view c.history s).ended = true := hm.finished packet (n + 1) hbatch
  have hslot : ∀ s, slot = some s → (view c.history s).handle = some handle := by
    intro s hs
    have hs' : some s ∈ (c.client.jobs.of handle).owed := by
      rw [howed, hs]
      exact List.mem_cons_self
    exact hm.home s (List.mem_of_mem_drop hs')
  refine ⟨hc.pending, hc.wellFormed, hc.distinct, hc.unjoined, fun h => ?_, ?_, ?_, ?_⟩
  · by_cases hh : h = handle
    · subst hh
      simp only [hof, Function.update_self]
      exact hm.copy hbatch howed hd
    · simp only [hof, Function.update_of_ne hh]
      exact hc.mirror h
  · intro s h hs hjoined hended
    have hold := hc.live s h hs hjoined hended
    by_cases hh : h = handle
    · subst hh
      simp only [hof, Function.update_self]
      cases ht : isTerminal packet.ptype with
      | true => exact absurd ((hlive ht s hjoined).symm.trans hended) (by simp)
      | false => rwa [hd.event ht]
    · simpa only [hof, Function.update_of_ne hh] using hold
  · intro s h hs hjoined
    have hreceived := hc.received s h hs hjoined
    simp only [heffects, eventsOf_append, eventsOf_heard, hs, not_false_eq_true, and_true]
    by_cases hh : h = handle
    · subst hh
      simp only [hof, Function.update_self]
      rw [List.append_assoc, hm.owes_copy hbatch hevent howed hd]
      exact hreceived
    · have hother : slot ≠ some s := by
        intro heq
        rw [hslot s heq] at hjoined
        exact hh (Option.some.inj hjoined).symm
      simpa only [hof, Function.update_of_ne hh, hother, if_false, List.append_nil] using hreceived
  · intro s hnone
    have hother : slot ≠ some s := by
      intro heq
      cases (hslot s heq).symm.trans hnone
    simpa only [heffects, eventsOf_append, eventsOf_heard, hother, false_and, if_false,
      List.append_nil] using hc.unheard s hnone

theorem inv_step {c c' : Session} {act : SessionAct} (hc : c.Inv) (h : c.step act = some c') :
    c'.Inv := by
  cases act with
  | command cmd io =>
    obtain ⟨⟨hwf, hfresh⟩, h⟩ := Option.ite_none_right_eq_some.mp h
    exact hc.command hwf hfresh h
  | reply packet =>
    rcases hwaiting : c.waiting with _ | ⟨cmd, waiting⟩ <;> simp only [step, hwaiting] at h
    · cases h
    · obtain ⟨⟨hanswers, hbetween⟩, h⟩ := Option.ite_none_right_eq_some.mp h
      exact hc.reply hwaiting hanswers hbetween h
  | issue packet =>
    rcases hhandle : packet.argStr 0 with _ | handle <;> simp only [step, hhandle] at h
    · cases h
    · obtain ⟨⟨hwork, hidle⟩, h⟩ := Option.ite_none_right_eq_some.mp h
      cases h
      exact hc.issue hhandle hwork (Option.isNone_iff_eq_none.mp hidle)
  | copy handle =>
    rcases hbatch : (c.regs handle).batch with _ | ⟨packet, _ | n⟩ <;>
      simp only [step, hbatch, reduceCtorEq] at h
    exact hc.copy hbatch h
  | other packet =>
    obtain ⟨hother, h⟩ := Option.ite_none_left_eq_some.mp h
    rw [not_or, Bool.not_eq_true, Bool.not_eq_true] at hother
    exact hc.other hother.1 hother.2 h
  | dropStream s =>
    cases h
    exact hc.dropStream s
  | tick => exact hc.tick h

theorem iterate_extends {c c' : Session} {i : LoopInput} (h : c.iterate i = some c') :
    c'.history = c.history ∧ c.received <+: c'.received := by
  obtain ⟨conn, s, es, -, rfl⟩ := iterate_eq_some h
  exact ⟨rfl, List.prefix_append _ _⟩

/-- History and what was received only grow. -/
theorem step_extends {c c' : Session} {act : SessionAct} (h : c.step act = some c') :
    c.history <+: c'.history ∧ c.received <+: c'.received := by
  have hiterate : ∀ {b : Session} {i : LoopInput}, b.iterate i = some c' →
      c.history <+: b.history → c.received <+: b.received →
      c.history <+: c'.history ∧ c.received <+: c'.received := by
    intro b i hb hhistory hreceived
    obtain ⟨hh, hr⟩ := iterate_extends hb
    exact ⟨hh ▸ hhistory, hreceived.trans hr⟩
  cases act with
  | command cmd io =>
    exact hiterate (Option.ite_none_right_eq_some.mp h).2 List.prefix_rfl List.prefix_rfl
  | reply packet =>
    rcases hwaiting : c.waiting with _ | ⟨cmd, waiting⟩ <;> simp only [step, hwaiting] at h
    · cases h
    · refine hiterate (Option.ite_none_right_eq_some.mp h).2 ?_ ?_ <;> unfold register <;> split
      · exact List.prefix_append _ _
      · exact List.prefix_rfl
      · exact List.prefix_rfl
      · exact List.prefix_rfl
  | issue packet =>
    rcases hhandle : packet.argStr 0 with _ | handle <;> simp only [step, hhandle] at h
    · cases h
    · obtain ⟨-, h⟩ := Option.ite_none_right_eq_some.mp h
      cases h
      exact ⟨List.prefix_append _ _, List.prefix_rfl⟩
  | copy handle =>
    rcases hbatch : (c.regs handle).batch with _ | ⟨packet, _ | n⟩ <;>
      simp only [step, hbatch, reduceCtorEq] at h
    exact hiterate h List.prefix_rfl List.prefix_rfl
  | other packet =>
    exact hiterate (Option.ite_none_left_eq_some.mp h).2 List.prefix_rfl List.prefix_rfl
  | dropStream s =>
    cases h
    exact ⟨List.prefix_rfl, List.prefix_rfl⟩
  | tick =>
    exact hiterate (b := c) (i := .tick fun s => s ∈ c.closed) h List.prefix_rfl List.prefix_rfl

theorem run_extends {c c' : Session} {acts : List SessionAct}
    (h : Machine.run step c acts = some c') :
    c.history <+: c'.history ∧ c.received <+: c'.received := by
  have next : ∀ (b : Session) act (b' : Session),
      c.history <+: b.history ∧ c.received <+: b.received → b.step act = some b' →
        c.history <+: b'.history ∧ c.received <+: b'.received := by
    intro b act b' hb hstep
    exact ⟨hb.1.trans (step_extends hstep).1, hb.2.trans (step_extends hstep).2⟩
  exact Machine.invariant next ⟨List.prefix_rfl, List.prefix_rfl⟩ h

theorem inv_run {acts : List SessionAct} {c : Session}
    (h : Machine.run step start acts = some c) : c.Inv :=
  Machine.invariant (fun _ _ _ hc hstep => inv_step hc hstep) inv_start h

/-- What a stream got when its terminal event was out is all it ever gets. -/
theorem complete_of_ended {c c' : Session} {acts : List SessionAct} (hc : c.Inv)
    (h : Machine.run step c acts = some c') {s : StreamId} {handle : String}
    (hopen : s ∉ c.closed) (hopen' : s ∉ c'.closed)
    (hjoined : (view c.history s).handle = some handle) (hended : (view c.history s).ended = true)
    (hidle : (c.regs handle).batch = none) :
    eventsOf c'.received s = (view c.history s).events.filterMap jobEvent := by
  have hc' : c'.Inv := Machine.invariant (fun _ _ _ hc hstep => inv_step hc hstep) hc h
  obtain ⟨⟨more, hhistory⟩, ⟨later, hreceived⟩⟩ := run_extends h
  have hview := view_append_of_ended hjoined hended more
  rw [hhistory] at hview
  have hbefore := hc.received s handle hopen hjoined
  rw [owes, hidle, List.append_nil] at hbefore
  have hafter := hc'.received s handle hopen' (by rw [hview]; exact hjoined)
  rw [hview, ← hbefore, ← hreceived, eventsOf_append, List.append_assoc] at hafter
  have hnothing := (List.append_eq_nil_iff.mp (List.append_right_eq_self.mp hafter)).1
  rw [← hreceived, eventsOf_append, hnothing, List.append_nil, hbefore]

/-- **Coalesced delivery is exactly-once and in order.** After every run, a
stream that is still open and has joined a handle got the events issued for it
since, up to and including a terminal one, each once and in order; all of them,
except that the last may still be on its way while the copies of an event of
that handle are being sent. Once those of the terminal event are out, no later
event reaches the stream, however its handle is used again. -/
theorem open_stream_receives_events {acts : List SessionAct} {c : Session}
    (h : Machine.run step start acts = some c) {s : StreamId} {handle : String}
    (hopen : s ∉ c.closed) (hjoined : (view c.history s).handle = some handle) :
    (∃ owed, eventsOf c.received s ++ owed = (view c.history s).events.filterMap jobEvent ∧
      owed.length ≤ 1 ∧ ((c.regs handle).batch = none → owed = [])) ∧
    ((view c.history s).ended = true → (c.regs handle).batch = none →
      ∀ more c', Machine.run step c more = some c' → s ∉ c'.closed →
        eventsOf c'.received s = (view c.history s).events.filterMap jobEvent) := by
  have hc := inv_run h
  refine ⟨⟨_, hc.received s handle hopen hjoined, owes_length_le _ _ s, fun hidle => ?_⟩, ?_⟩
  · rw [owes, hidle]
  · intro hended hidle more c' hmore hopen'
    exact complete_of_ended hc hmore hopen hopen' hjoined hended hidle

/-- Two submissions of one job, an event, and its end. -/
def coalesced : List SessionAct :=
  let submission := submit "f" (some "u") [] .foreground
  [.command (submission.command 0 0) .accepted, .command (submission.command 1 1) .accepted,
    .reply (.response .jobCreated [asBytes "H"]), .reply (.response .jobCreated [asBytes "H"]),
    .issue (.response .workData [asBytes "H", [1]]), .copy "H", .copy "H",
    .issue (.response .workFail [asBytes "H"]), .copy "H", .copy "H"]

theorem open_stream_receives_events_coalesced :
    ∃ c, Machine.run step start coalesced = some c ∧
      eventsOf c.received 1 = [.data [1], .fail] := by
  have hrun : (Machine.run step start coalesced).map (fun c => (c.closed,
      (view c.history 1).handle, (view c.history 1).events.filterMap jobEvent,
      (c.regs "H").batch.isNone)) = some ([], some "H", [.data [1], .fail], true) := by
    decide +kernel
  obtain ⟨c, hc, hfacts⟩ := Option.map_eq_some_iff.mp hrun
  simp only [Prod.mk.injEq] at hfacts
  obtain ⟨hopen, hjoined, hevents, hidle⟩ := hfacts
  obtain ⟨⟨owed, howed, -, hnone⟩, -⟩ :=
    open_stream_receives_events hc (hopen ▸ List.not_mem_nil) hjoined
  rw [hnone (Option.isNone_iff_eq_none.mp hidle), List.append_nil, hevents] at howed
  exact ⟨c, hc, howed⟩

end Session

end Gearman.Client

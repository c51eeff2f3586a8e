import Gearman.Client.Actor

/-!
# Replies to callers

Reading the log of an actor: which commands were handed to the connection, and
what the callers got. One packet answers at most the oldest pending request;
one iteration of `actor_loop` accounts for every request it held or took.
-/

namespace Gearman.Client

open Protocol

/-- The caller an effect resolves, and with what. `submit_packet` and
`get_status` report a dropped reply channel as `ConnectionClosed`. -/
def Effect.resolution : Effect → Option (ReplyId × Answer)
  | .replied r a => some (r, a)
  | .dropped r => some (r, .error .connectionClosed)
  | _ => none

def Effect.handedReply : Effect → Option ReplyId
  | .handed r => some r
  | _ => none

/-- What a branch for an unexpected packet leaves in the log. -/
def Effect.isUnexpected : Effect → Bool
  | .warn _ | .negotiated (.unexpected _) => true
  | _ => false

/-- The answers the callers got, in order. -/
def resolutions (log : List Effect) : List (ReplyId × Answer) := log.filterMap Effect.resolution

/-- The commands handed to `conn.send`, in order. -/
def handedOver (log : List Effect) : List ReplyId := log.filterMap Effect.handedReply

@[simp] theorem resolutions_append (log es : List Effect) :
    resolutions (log ++ es) = resolutions log ++ resolutions es :=
  List.filterMap_append

@[simp] theorem handedOver_append (log es : List Effect) :
    handedOver (log ++ es) = handedOver log ++ handedOver es :=
  List.filterMap_append

@[simp] theorem resolutions_nil : resolutions [] = [] := rfl

@[simp] theorem handedOver_nil : handedOver [] = [] := rfl

@[simp] theorem ClientCommand.reply_pendingReply (cmd : ClientCommand) :
    cmd.pendingReply.reply = cmd.reply := by
  cases cmd <;> rfl

/-! ## One packet -/

/-- The types that answer a request. -/
def isReply : PacketType → Bool
  | .jobCreated | .statusRes | .statusResUnique | .error => true
  | _ => false

/-- What a reply packet tells the request it answers; `none` if it answers
another kind of request. -/
def PendingReply.answer (packet : Packet) (oldest : PendingReply) : Option Answer :=
  match packet.ptype, oldest with
  | .error, _ => some (.error (serverError packet))
  | .jobCreated, .jobCreated _ _ => some (.handle ((packet.argStr 0).getD ""))
  | .statusRes, .status _ => some (.status (parseStatusRes packet))
  | .statusResUnique, .statusUnique _ => some (.status (parseStatusResUnique packet))
  | _, _ => none

/-- The subscribers after a reply packet: `JOB_CREATED` adds those of a foreground submit. -/
def PendingReply.join (packet : Packet) (jobs : JobEventSubscribers) (oldest : PendingReply) :
    JobEventSubscribers :=
  match packet.ptype, oldest with
  | .jobCreated, .jobCreated _ (some sender) => jobs.add ((packet.argStr 0).getD "") sender
  | _, _ => jobs

theorem isWork_eq_true {t : PacketType} (h : isWork t = true) :
    t = .workStatus ∨ t = .workComplete ∨ t = .workFail ∨ t = .workData ∨ t = .workWarning ∨
      t = .workException := by
  revert h
  cases t <;> simp [isWork]

theorem isReply_eq_true {t : PacketType} (h : isReply t = true) :
    t = .jobCreated ∨ t = .statusRes ∨ t = .statusResUnique ∨ t = .error := by
  revert h
  cases t <;> simp [isReply]

/-- A `WORK_*` packet leaves the pending requests alone. -/
theorem handleIncoming_work {packet : Packet} (h : isWork packet.ptype = true) (s : LoopState) :
    handleIncoming packet s =
      (⟨s.pending, (dispatchWorkEvent packet s.jobs).1⟩, (dispatchWorkEvent packet s.jobs).2) := by
  rcases isWork_eq_true h with h | h | h | h | h | h <;> simp [handleIncoming, h]

theorem handleIncoming_other {packet : Packet} (hwork : isWork packet.ptype = false)
    (hreply : isReply packet.ptype = false) (s : LoopState) :
    handleIncoming packet s = (s, []) := by
  unfold handleIncoming
  revert hwork hreply
  cases packet.ptype <;> simp [isWork, isReply]

theorem handleIncoming_unexpected {packet : Packet} (h : isReply packet.ptype = true)
    {s : LoopState} (hs : s.pending = []) :
    ∃ message, handleIncoming packet s = (s, [.warn message]) := by
  rcases isReply_eq_true h with h | h | h | h <;> simp [handleIncoming, h, hs]

/-- A reply packet takes the oldest request off the queue, and either answers
it or drops its channel. -/
theorem handleIncoming_reply {packet : Packet} (h : isReply packet.ptype = true) {s : LoopState}
    {oldest : PendingReply} {pending : List PendingReply} (hs : s.pending = oldest :: pending) :
    (∃ answer, oldest.answer packet = some answer ∧
      handleIncoming packet s =
        (⟨pending, oldest.join packet s.jobs⟩, [.replied oldest.reply answer])) ∨
    (oldest.answer packet = none ∧ ∃ message,
      handleIncoming packet s =
        (⟨pending, s.jobs⟩, [.dropped oldest.reply, .warn message])) := by
  rcases isReply_eq_true h with h | h | h | h <;> cases oldest with
  | jobCreated reply events =>
    cases events <;>
      simp [handleIncoming, PendingReply.answer, PendingReply.join, PendingReply.reply, h, hs]
  | status reply | statusUnique reply =>
    simp [handleIncoming, PendingReply.answer, PendingReply.join, PendingReply.reply, h, hs]

/-- All that `dispatch_work_event` does outside is to send events. -/
theorem dispatchWorkEvent_effects (packet : Packet) (jobs : JobEventSubscribers) :
    ∀ e ∈ (dispatchWorkEvent packet jobs).2, ∃ stream event, e = .event stream event := by
  unfold dispatchWorkEvent
  split
  · split
    · intro e he
      cases he
    · intro e he
      obtain ⟨stream, -, rfl⟩ := Option.map_eq_some_iff.mp (Option.mem_toList.mp he)
      exact ⟨stream, _, rfl⟩
  · intro e he
    cases he

theorem resolutions_of_events {es : List Effect}
    (h : ∀ e ∈ es, ∃ stream event, e = Effect.event stream event) :
    resolutions es = [] ∧ handedOver es = [] := by
  constructor <;> refine List.filterMap_eq_nil_iff.mpr fun e he => ?_ <;>
    obtain ⟨stream, event, rfl⟩ := h e he <;> rfl

/-- A packet that answers nothing leaves the requests alone and only sends events. -/
theorem handleIncoming_quiet {packet : Packet} (h : isReply packet.ptype = false) (s : LoopState) :
    (handleIncoming packet s).1.pending = s.pending ∧
      ∀ e ∈ (handleIncoming packet s).2, ∃ stream event, e = .event stream event := by
  rcases hwork : isWork packet.ptype
  · rw [handleIncoming_other hwork h]
    exact ⟨rfl, fun e he => by cases he⟩
  · rw [handleIncoming_work hwork]
    exact ⟨rfl, dispatchWorkEvent_effects packet s.jobs⟩

/-- One packet resolves nobody and leaves the pending requests alone, or
resolves the oldest of them and nobody else. It hands nothing over. -/
theorem handleIncoming_pending (packet : Packet) (s : LoopState) :
    handedOver (handleIncoming packet s).2 = [] ∧
    (((handleIncoming packet s).1.pending = s.pending ∧
        resolutions (handleIncoming packet s).2 = []) ∨
      ∃ oldest answer, s.pending = oldest :: (handleIncoming packet s).1.pending ∧
        resolutions (handleIncoming packet s).2 = [(oldest.reply, answer)]) := by
  rcases hreply : isReply packet.ptype
  · obtain ⟨hpending, hevents⟩ := handleIncoming_quiet hreply s
    obtain ⟨hres, hhanded⟩ := resolutions_of_events hevents
    exact ⟨hhanded, .inl ⟨hpending, hres⟩⟩
  · rcases hs : s.pending with _ | ⟨oldest, pending⟩
    · obtain ⟨message, h⟩ := handleIncoming_unexpected hreply hs
      rw [h]
      exact ⟨rfl, .inl ⟨hs, rfl⟩⟩
    · rcases handleIncoming_reply hreply hs with ⟨answer, -, h⟩ | ⟨-, message, h⟩ <;> rw [h]
      · exact ⟨rfl, .inr ⟨oldest, answer, rfl, rfl⟩⟩
      · exact ⟨rfl, .inr ⟨oldest, .error .connectionClosed, rfl, rfl⟩⟩

/-! ## One iteration -/

/-- The command an iteration takes from the channel. -/
def LoopInput.taken : LoopInput → List ClientCommand
  | .command (some cmd) _ => [cmd]
  | _ => []

/-- The requests that still wait for a reply after an iteration. -/
def Flow.pending : Flow → List PendingReply
  | .next _ s => s.pending
  | .break _ => []

theorem failAllPending_effects (pending : List PendingReply) :
    (resolutions (failAllPending pending)).map Prod.fst = pending.map PendingReply.reply ∧
      handedOver (failAllPending pending) = [] := by
  induction pending with
  | nil => exact ⟨rfl, rfl⟩
  | cons p pending ih =>
    have hcons : failAllPending (p :: pending) =
        .replied p.reply (.error .connectionClosed) :: failAllPending pending := rfl
    constructor
    · rw [hcons, List.map_cons, ← ih.1]
      rfl
    · rw [hcons, ← ih.2]
      rfl

/-- An iteration hands over exactly the command it takes. -/
theorem actorLoop_handedOver (conn : Connection) (s : LoopState) (i : LoopInput) :
    handedOver (actorLoop conn s i).2 = i.taken.map ClientCommand.reply := by
  match i with
  | .tick _ => rfl
  | .command none _ => exact (failAllPending_effects s.pending).2
  | .command (some cmd) io =>
    simp only [actorLoop]
    rcases conn.send cmd.packet io with ⟨_ | _, _⟩
    · have hfail := (failAllPending_effects s.pending).2
      simp only [handedOver, List.filterMap_cons, Effect.handedReply] at hfail ⊢
      rw [hfail]
      rfl
    · rfl
  | .recv (.ok (some packet)) => exact (handleIncoming_pending packet s).1
  | .recv (.ok none) => exact (failAllPending_effects s.pending).2
  | .recv (.error _) => exact (failAllPending_effects s.pending).2

/-- **Accounting of one iteration.** Every request that was pending or is taken
is pending afterwards or resolved, not both and not twice. -/
theorem actorLoop_account (conn : Connection) (s : LoopState) (i : LoopInput) :
    ((actorLoop conn s i).1.pending.map PendingReply.reply ++
        (resolutions (actorLoop conn s i).2).map Prod.fst).Perm
      (s.pending.map PendingReply.reply ++ i.taken.map ClientCommand.reply) := by
  have hfail := (failAllPending_effects s.pending).1
  match i with
  | .tick _ => exact .refl _
  | .command none _ =>
    simp only [actorLoop, Flow.pending, LoopInput.taken, List.map_nil, List.append_nil,
      List.nil_append, hfail]
    exact .refl _
  | .command (some cmd) io =>
    simp only [actorLoop]
    rcases conn.send cmd.packet io with ⟨_ | _, _⟩
    · simp only [resolutions, List.filterMap_cons, Effect.resolution] at hfail ⊢
      simp only [Flow.pending, LoopInput.taken, List.map_nil, List.nil_append, List.map_cons,
        hfail]
      exact List.perm_append_singleton _ _ |>.symm
    · simp only [Flow.pending, LoopInput.taken, List.map_append, List.map_cons, List.map_nil,
        ClientCommand.reply_pendingReply]
      exact .of_eq (List.append_nil _)
  | .recv (.ok (some packet)) =>
    simp only [actorLoop, Flow.pending, LoopInput.taken, List.map_nil, List.append_nil]
    rcases (handleIncoming_pending packet s).2 with
      ⟨hpending, hres⟩ | ⟨oldest, answer, hpending, hres⟩
    · rw [hpending, hres, List.map_nil, List.append_nil]
    · rw [hpending, hres]
      exact List.perm_append_singleton _ _
  | .recv (.ok none) | .recv (.error _) =>
    simp only [actorLoop, Flow.pending, LoopInput.taken, List.map_nil, List.append_nil,
      List.nil_append, hfail]
    exact .refl _

/-- Accounting carries over to a log that grows by what the iteration did. -/
theorem perm_account {pending resolved new before taken handed : List ReplyId}
    (hstep : (pending ++ new).Perm (before ++ taken)) (h : (before ++ resolved).Perm handed) :
    (pending ++ (resolved ++ new)).Perm (handed ++ taken) :=
  calc List.Perm (pending ++ (resolved ++ new)) (pending ++ (new ++ resolved)) :=
        List.perm_append_comm.append_left pending
    List.Perm _ (pending ++ new ++ resolved) := .of_eq (List.append_assoc ..).symm
    List.Perm _ (before ++ taken ++ resolved) := hstep.append_right resolved
    List.Perm _ (before ++ resolved ++ taken) := by
        rw [List.append_assoc, List.append_assoc]
        exact List.perm_append_comm.append_left before
    List.Perm _ (handed ++ taken) := h.append_right taken

/-- An iteration that reads no reply keeps the requests it does not end with, and
finds nothing unexpected. -/
theorem actorLoop_quiet (conn : Connection) (s : LoopState) {i : LoopInput}
    (hi : ∀ packet, i = .recv (.ok (some packet)) → isReply packet.ptype = false) :
    (∀ e ∈ (actorLoop conn s i).2, e.isUnexpected = false) ∧
    ∀ conn' s', (actorLoop conn s i).1 = .next conn' s' →
      s'.pending = s.pending ++ i.taken.map ClientCommand.pendingReply ∧
        resolutions (actorLoop conn s i).2 = [] := by
  have hfail : ∀ e ∈ failAllPending s.pending, e.isUnexpected = false := by
    intro e h
    obtain ⟨p, -, rfl⟩ := List.mem_map.mp h
    rfl
  match i with
  | .tick _ =>
    refine ⟨fun _ h => absurd h List.not_mem_nil, fun conn' s' h => ?_⟩
    cases h
    exact ⟨(List.append_nil _).symm, rfl⟩
  | .command none _ | .recv (.ok none) | .recv (.error _) =>
    exact ⟨hfail, fun conn' s' h => by cases h⟩
  | .command (some cmd) io =>
    simp only [actorLoop]
    rcases conn.send cmd.packet io with ⟨_ | _, _⟩
    · refine ⟨?_, fun conn' s' h => by cases h⟩
      exact List.forall_mem_cons.mpr ⟨rfl, List.forall_mem_cons.mpr ⟨rfl, hfail⟩⟩
    · refine ⟨List.forall_mem_singleton.mpr rfl, fun conn' s' h => ?_⟩
      cases h
      exact ⟨rfl, rfl⟩
  | .recv (.ok (some packet)) =>
    obtain ⟨hpending, hevents⟩ := handleIncoming_quiet (hi packet rfl) s
    refine ⟨fun e h => ?_, fun conn' s' h => ?_⟩
    · obtain ⟨stream, event, rfl⟩ := hevents e h
      rfl
    · cases h
      exact ⟨hpending.trans (List.append_nil _).symm, (resolutions_of_events hevents).1⟩

end Gearman.Client

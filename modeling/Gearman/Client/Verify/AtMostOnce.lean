import Gearman.Client.Verify.Incoming
import Gearman.Lib.Machine

/-!
# Submission is at most once and always resolved

A run of `run_server_actor` over any number of connections. Each command is in
the queue, pending on the current connection, or resolved. Nothing is handed to
a connection twice, and no connection ends with a request left over.
-/

namespace Gearman.Client

/-! ## One step of the actor -/

/-- The requests waiting for a reply on the actor's connection. -/
def Actor.pending (a : Actor) : List PendingReply :=
  match a.phase with
  | .looping _ s => s.pending
  | _ => []

/-- `actor_loop` has found the command channel at its end. -/
def Actor.Closing (a : Actor) : Prop := a.phase = .ended .clientDropped ∨ a.phase = .returned

def ActorInput.queued : ActorInput → List ClientCommand
  | .queue cmd => [cmd]
  | _ => []

/-- A step outside `actor_loop` at most adds to the queue, and no caller hears of it. -/
def Actor.Quiet (a a' : Actor) (i : ActorInput) (es : List Effect) : Prop :=
  (resolutions es = [] ∧ handedOver es = []) ∧ a'.pending = a.pending ∧
    a'.queue = a.queue ++ i.queued ∧
    (a.senders = false → a'.senders = false ∧ i.queued = []) ∧ (a'.Closing → a.Closing)

/-- A step that is the iteration `j` of `actor_loop`. It may take the oldest
command, and sees the end of the channel only when no command is left. -/
def Actor.Iterates (a a' : Actor) (i : ActorInput) (es : List Effect) (j : LoopInput) : Prop :=
  ∃ conn s, a.phase = .looping conn s ∧ i.queued = [] ∧ a.queue = j.taken ++ a'.queue ∧
    (∀ io, j = .command none io → a.queue = [] ∧ a.senders = false) ∧
    ({ a with queue := a'.queue }).iterate conn s j = (a', es)

theorem Actor.iterate_frame (a : Actor) (conn : Connection) (s : LoopState) (j : LoopInput) :
    (a.iterate conn s j).1.queue = a.queue ∧ (a.iterate conn s j).1.senders = a.senders := by
  unfold Actor.iterate
  split <;> exact ⟨rfl, rfl⟩

section

variable {a a' : Actor} {i : ActorInput} {es : List Effect}

theorem Actor.quiet_of_eq {b : Actor} {fs : List Effect} (h : some (b, fs) = some (a', es))
    (hfs : resolutions fs = [] ∧ handedOver fs = []) (hpending : b.pending = a.pending)
    (hqueue : b.queue = a.queue) (hi : i.queued = []) (hsenders : b.senders = a.senders)
    (hclosing : b.Closing → a.Closing) : a.Quiet a' i es := by
  obtain ⟨rfl, rfl⟩ := Prod.mk.inj (Option.some.inj h)
  exact ⟨hfs, hpending, by rw [hqueue, hi, List.append_nil], fun hs => ⟨hsenders.trans hs, hi⟩,
    hclosing⟩

theorem Actor.iterates_of_eq (j : LoopInput) (queue : List ClientCommand) {conn : Connection}
    {s : LoopState}
    (h : some (({ a with queue := queue }).iterate conn s j) = some (a', es))
    (hp : a.phase = .looping conn s) (hi : i.queued = []) (hqueue : a.queue = j.taken ++ queue)
    (hend : ∀ io, j = .command none io → a.queue = [] ∧ a.senders = false) :
    ∃ j, a.Iterates a' i es j := by
  have h := Option.some.inj h
  have hframe := iterate_frame { a with queue := queue } conn s j
  rw [h] at hframe
  obtain ⟨rfl, -⟩ := hframe
  exact ⟨j, conn, s, hp, hi, hqueue, hend, h⟩

/-- All that a step can do. -/
theorem Actor.step_cases {withExceptions : Bool} (h : a.step withExceptions i = some (a', es)) :
    a.Quiet a' i es ∨ ∃ j, a.Iterates a' i es j := by
  cases i with
  | queue cmd =>
    simp only [step, Option.ite_none_right_eq_some, Option.some.injEq, Prod.mk.injEq] at h
    obtain ⟨hsenders, rfl, rfl⟩ := h
    exact .inl ⟨⟨rfl, rfl⟩, rfl, rfl, fun hs => by simp [hs] at hsenders, id⟩
  | dropSenders =>
    obtain ⟨rfl, rfl⟩ := Prod.mk.inj (Option.some.inj h)
    exact .inl ⟨⟨rfl, rfl⟩, rfl, (List.append_nil _).symm, fun _ => ⟨rfl, rfl⟩, id⟩
  | connect ok =>
    rcases hp : a.phase <;> simp only [step, hp, reduceCtorEq] at h
    split at h
    · split at h <;>
        exact .inl
          (quiet_of_eq h ⟨rfl, rfl⟩ (by simp [pending, hp]) rfl rfl rfl (by simp [Closing]))
    · exact .inl (quiet_of_eq h ⟨rfl, rfl⟩ (by simp [pending, hp]) rfl rfl rfl (by simp [Closing]))
  | sent io =>
    rcases hp : a.phase <;> simp only [step, hp, reduceCtorEq] at h
    split at h <;>
      exact .inl (quiet_of_eq h ⟨rfl, rfl⟩ (by simp [pending, hp]) rfl rfl rfl (by simp [Closing]))
  | recv pkt =>
    rcases hp : a.phase with _ | _ | conn | _ | _ | ⟨conn, s⟩ | _ | _ | _ | _ <;>
      simp only [step, hp, reduceCtorEq] at h
    · split at h <;>
        exact .inl
          (quiet_of_eq h ⟨rfl, rfl⟩ (by simp [pending, hp]) rfl rfl rfl (by simp [Closing]))
    · exact .inr (iterates_of_eq (.recv pkt) a.queue h hp rfl rfl (by simp))
  | tick closed =>
    rcases hp : a.phase with _ | _ | _ | _ | _ | ⟨conn, s⟩ | _ | _ | _ | _ <;>
      simp only [step, hp, reduceCtorEq] at h
    exact .inr (iterates_of_eq (.tick closed) a.queue h hp rfl rfl (by simp))
  | command io =>
    rcases hp : a.phase with _ | _ | _ | _ | _ | ⟨conn, s⟩ | _ | _ | _ | _ <;>
      rcases hq : a.queue with _ | ⟨cmd, queue⟩ <;> simp only [step, hp, hq, reduceCtorEq] at h
    · simp only [Option.ite_none_left_eq_some, Bool.not_eq_true] at h
      exact .inr (iterates_of_eq (.command none io) a.queue h.2 hp rfl rfl
        (fun _ _ => ⟨hq, h.1⟩))
    · exact .inr (iterates_of_eq (.command (some cmd) io) queue h hp rfl hq (by simp))
  | go =>
    rcases hp : a.phase with _ | _ | _ | _ | _ | _ | ⟨_ | _⟩ | _ | _ | _ <;>
      simp only [step, hp, reduceCtorEq] at h <;>
      refine .inl (quiet_of_eq h ⟨rfl, rfl⟩ ?_ rfl rfl rfl ?_) <;>
      simp [pending, Closing, LoopState.new, hp]

end

/-- The phase an iteration leaves the actor in. -/
theorem Actor.iterate_eq {a a' : Actor} {conn : Connection} {s : LoopState} {j : LoopInput}
    {es : List Effect} (h : a.iterate conn s j = (a', es)) :
    es = (actorLoop conn s j).2 ∧ a'.pending = (actorLoop conn s j).1.pending ∧
      (a'.Closing → ∃ io, j = .command none io) := by
  unfold iterate at h
  split at h <;> rename_i hloop <;> obtain ⟨rfl, rfl⟩ := Prod.mk.inj h <;> rw [hloop]
  · exact ⟨rfl, rfl, by simp [Closing]⟩
  · refine ⟨rfl, rfl, fun hc => ?_⟩
    rename_i outcome _
    obtain rfl : outcome = .clientDropped := by simpa [Closing] using hc
    match j with
    | .command none io => exact ⟨io, rfl⟩
    | .command (some cmd) io =>
      simp only [actorLoop] at hloop
      split at hloop <;> cases hloop

/-! ## Runs -/

/-- A server actor with the commands its clients queued and what it did so far. -/
structure ServerRun where
  actor : Actor
  submitted : List ClientCommand
  log : List Effect

namespace ServerRun

def new : ServerRun := ⟨.new, [], []⟩

/-- Every command brings a reply channel of its own. -/
def Fresh (r : ServerRun) (i : ActorInput) : Prop :=
  ∀ cmd ∈ i.queued, cmd.reply ∉ r.submitted.map ClientCommand.reply

instance (r : ServerRun) (i : ActorInput) : Decidable (r.Fresh i) :=
  inferInstanceAs (Decidable (∀ cmd ∈ i.queued, cmd.reply ∉ r.submitted.map ClientCommand.reply))

def step (withExceptions : Bool) (r : ServerRun) (i : ActorInput) : Option ServerRun :=
  if r.Fresh i then
    (r.actor.step withExceptions i).map fun (actor, es) =>
      ⟨actor, r.submitted ++ i.queued, r.log ++ es⟩
  else none

/-- The callers that got an outcome. -/
def resolved (r : ServerRun) : List ReplyId := (resolutions r.log).map Prod.fst

/-- Commands leave the queue in order, each is handed to `conn.send` as it
leaves, and is then pending or resolved. -/
structure Inv (r : ServerRun) : Prop where
  fresh : (r.submitted.map ClientCommand.reply).Nodup
  order : ∃ taken, r.submitted = taken ++ r.actor.queue ∧
    taken.map ClientCommand.reply = handedOver r.log
  account : (r.actor.pending.map PendingReply.reply ++ r.resolved).Perm (handedOver r.log)
  closing : r.actor.Closing → r.actor.senders = false ∧ r.actor.queue = []

theorem inv_new : Inv new := by
  refine ⟨List.nodup_nil, ⟨[], rfl, rfl⟩, .refl _, fun h => ?_⟩
  simp [new, Actor.new, Actor.Closing] at h

theorem nodup_submitted {r : ServerRun} {i : ActorInput} (hf : r.Fresh i)
    (h : (r.submitted.map ClientCommand.reply).Nodup) :
    ((r.submitted ++ i.queued).map ClientCommand.reply).Nodup := by
  cases i with
  | queue cmd =>
    have hcmd := hf cmd (List.mem_singleton_self cmd)
    rw [ActorInput.queued, List.map_append, List.map_singleton]
    exact (List.perm_append_singleton _ _).nodup_iff.mpr (List.nodup_cons.mpr ⟨hcmd, h⟩)
  | _ =>
    rw [ActorInput.queued, List.append_nil]
    · exact h
    · exact fun cmd hcmd => by cases hcmd

theorem inv_step {withExceptions : Bool} {r r' : ServerRun} {i : ActorInput} (hr : r.Inv)
    (h : r.step withExceptions i = some r') : r'.Inv := by
  obtain ⟨hf, ⟨actor, es⟩, hstep, rfl⟩ : r.Fresh i ∧ ∃ p, r.actor.step withExceptions i = some p ∧
      ⟨p.1, r.submitted ++ i.queued, r.log ++ p.2⟩ = r' := by
    simpa only [step, Option.ite_none_right_eq_some, Option.map_eq_some_iff] using h
  have hnodup := nodup_submitted hf hr.fresh
  obtain ⟨taken, hsubmitted, htaken⟩ := hr.order
  rcases Actor.step_cases hstep with
    ⟨⟨hnone, hhanded⟩, hpending, hqueue, hsenders, hclosing⟩ |
    ⟨j, conn, s, hphase, hqueued, hqueue, hend, hit⟩
  · refine ⟨hnodup, ⟨taken, ?_, ?_⟩, ?_, fun hc => ?_⟩
    · simp only [hsubmitted, hqueue, List.append_assoc]
    · simpa [hhanded] using htaken
    · simpa only [resolved, resolutions_append, handedOver_append, hnone, hhanded, hpending,
        List.append_nil] using hr.account
    · obtain ⟨hs, hq⟩ := hr.closing (hclosing hc)
      obtain ⟨hs', hi⟩ := hsenders hs
      exact ⟨hs', by simp only [hqueue, hq, hi, List.append_nil]⟩
  · obtain ⟨rfl, hpending, hclosing⟩ := Actor.iterate_eq hit
    have hbefore : r.actor.pending = s.pending := by simp only [Actor.pending, hphase]
    refine ⟨hnodup, ⟨taken ++ j.taken, ?_, ?_⟩, ?_, fun hc => ?_⟩
    · simp only [hsubmitted, hqueued, hqueue, List.append_nil, List.append_assoc]
    · rw [List.map_append, htaken, handedOver_append, actorLoop_handedOver]
    · -- what was pending before is pending or resolved by this iteration
      have haccount := hr.account
      rw [hbefore] at haccount
      simp only [resolved, resolutions_append, handedOver_append, actorLoop_handedOver, hpending,
        List.map_append]
      exact perm_account (actorLoop_account conn s j) haccount
    · obtain ⟨io, rfl⟩ := hclosing hc
      obtain ⟨hq, hs⟩ := hend io rfl
      have hsenders := (Actor.iterate_frame { r.actor with queue := actor.queue } conn s
        (.command none io)).2
      rw [hit] at hsenders
      rw [hq] at hqueue
      exact ⟨hsenders.trans hs, hqueue.symm⟩

theorem inv_run {withExceptions : Bool} {is : List ActorInput} {r : ServerRun}
    (h : Machine.run (step withExceptions) new is = some r) : r.Inv :=
  Machine.invariant (fun _ _ _ hr hs => inv_step hr hs) inv_new h

/-- Every command is in exactly one place, once. -/
theorem Inv.places {r : ServerRun} (hr : r.Inv) :
    (r.actor.queue.map ClientCommand.reply ++ r.actor.pending.map PendingReply.reply ++
      r.resolved).Perm (r.submitted.map ClientCommand.reply) := by
  obtain ⟨taken, hsubmitted, htaken⟩ := hr.order
  rw [hsubmitted, List.map_append, htaken, List.append_assoc]
  exact (hr.account.append_left _).trans List.perm_append_comm

/-- **Submission is at most once and always resolved.** After every run each
command is in exactly one of the queue, the pending requests and the resolved
ones; none was handed to a connection twice; while no `actor_loop` runs, all
that were handed over are resolved; and the commands still queued are the last
ones submitted, in order. -/
theorem submission_resolved_once (withExceptions : Bool) {is : List ActorInput} {r : ServerRun}
    (h : Machine.run (step withExceptions) new is = some r) :
    (r.actor.queue.map ClientCommand.reply ++ r.actor.pending.map PendingReply.reply ++
      r.resolved).Perm (r.submitted.map ClientCommand.reply) ∧
    (r.actor.queue.map ClientCommand.reply ++ r.actor.pending.map PendingReply.reply ++
      r.resolved).Nodup ∧
    (handedOver r.log).Nodup ∧
    ((∀ conn s, r.actor.phase ≠ .looping conn s) → ∀ id ∈ handedOver r.log, id ∈ r.resolved) ∧
    (∃ taken, r.submitted = taken ++ r.actor.queue ∧
      taken.map ClientCommand.reply = handedOver r.log) ∧
    (r.actor.phase = .returned → r.actor.queue = []) := by
  have hr := inv_run h
  refine ⟨hr.places, hr.places.nodup_iff.mpr hr.fresh, ?_, ?_, hr.order,
    fun hreturned => (hr.closing (.inr hreturned)).2⟩
  · obtain ⟨taken, hsubmitted, htaken⟩ := hr.order
    have hnodup := hr.fresh
    rw [hsubmitted, List.map_append, htaken] at hnodup
    exact (List.nodup_append.mp hnodup).1
  · intro hidle id hid
    have hpending : r.actor.pending = [] := by
      unfold Actor.pending
      split
      · exact absurd ‹_› (hidle _ _)
      · rfl
    have haccount := hr.account
    rw [hpending] at haccount
    exact haccount.mem_iff.mpr hid

/-- A connection that is lost with one request pending and one queued. -/
def lostRun : List ActorInput :=
  [.queue (getStatus ⟨0, "H", none⟩ 0), .queue (getStatus ⟨0, "H", none⟩ 1), .connect true, .go,
    .go, .command .accepted, .recv (.ok none)]

theorem submission_resolved_once_lost :
    ∃ r, Machine.run (step false) new lostRun = some r ∧ handedOver r.log = [0] ∧
      r.actor.queue.map ClientCommand.reply = [1] ∧ 0 ∈ r.resolved := by
  refine ⟨_, rfl, rfl, rfl, ?_⟩
  have hrun : Machine.run (step false) new lostRun = some _ := rfl
  exact (submission_resolved_once false hrun).2.2.2.1 (fun _ _ => Phase.noConfusion) 0
    (List.mem_singleton_self 0)

end ServerRun

end Gearman.Client

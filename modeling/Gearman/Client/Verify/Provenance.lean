import Gearman.Client.Verify.Streams

/-!
# Where answers come from

What a caller is answered is what the server answered its own command, or tells
of the failed send of that very command, or of the end of the connection before
the server's answer came. What a stream yields was heard on the connection on
which its job was created. Nothing that has been queued, sent, answered or heard
is taken back.
-/

namespace Gearman.Client

open Protocol

/-! ## One step of an actor -/

/-- A step is an iteration of `actor_loop`, or enters it, or nobody hears of it. -/
inductive Actor.Turns (a : Actor) (i : ActorInput) (a' : Actor) (es : List Effect) : Prop
  | quiet (hres : resolutions es = [])
      (hevents : ∀ stream event, .event stream event ∉ es)
      (htalks : ∀ heard talks, Talk.after a i heard talks = talks)
      (hphase : a'.phase = a.phase ∨
        (∀ conn l, a.phase ≠ .looping conn l) ∧ ∀ conn l, a'.phase ≠ .looping conn l)
  | enters {conn : Connection} (hes : es = []) (hphase : a.phase = .entering conn)
      (hphase' : a'.phase = .looping conn .new)
      (htalks : ∀ heard talks, Talk.after a i heard talks = .new conn :: talks)
  | iterates {conn : Connection} {l : LoopState} {j : LoopInput}
      (hes : es = (actorLoop conn l j).2) (hphase : a.phase = .looping conn l)
      (hnext : ∀ conn' l', a'.phase = .looping conn' l' → (actorLoop conn l j).1 = .next conn' l')
      (hbreak : (∀ conn' l', a'.phase ≠ .looping conn' l') →
        ∃ outcome, (actorLoop conn l j).1 = .break outcome)
      (htalks : ∀ heard talks,
        Talk.after a i heard talks = talks.modifyHead fun talk => talk.iterate conn heard j)
      (hqueue : a.queue = j.taken ++ a'.queue)
      (htick : ∀ dropped, j = .tick dropped → i = .tick dropped)

theorem Actor.iterate_phase (a : Actor) (conn : Connection) (l : LoopState) (j : LoopInput) :
    (a.iterate conn l j).2 = (actorLoop conn l j).2 ∧
    (∀ conn' l', (a.iterate conn l j).1.phase = .looping conn' l' →
      (actorLoop conn l j).1 = .next conn' l') ∧
    ((∀ conn' l', (a.iterate conn l j).1.phase ≠ .looping conn' l') →
      ∃ outcome, (actorLoop conn l j).1 = .break outcome) := by
  unfold iterate
  split <;> rename_i hloop <;> rw [hloop]
  · refine ⟨rfl, fun conn' l' h => ?_, fun h => absurd rfl (h _ _)⟩
    cases h
    rfl
  · refine ⟨rfl, fun conn' l' h => ?_, fun _ => ⟨_, rfl⟩⟩
    cases h

theorem Actor.turns_of_steps {withExceptions : Bool} {a a' : Actor} {i : ActorInput}
    {es : List Effect} (h : a.Steps withExceptions i a' es) : a.Turns i a' es := by
  have iterates : ∀ {b : Actor} {conn l} (j : LoopInput), a.phase = .looping conn l →
      (∀ heard talks, Talk.after a i heard talks =
        talks.modifyHead fun talk => talk.iterate conn heard j) →
      a.queue = j.taken ++ b.queue → (∀ dropped, j = .tick dropped → i = .tick dropped) →
      a.Turns i (b.iterate conn l j).1 (b.iterate conn l j).2 := by
    intro b conn l j hphase htalks hqueue htick
    obtain ⟨hes, hnext, hbreak⟩ := b.iterate_phase conn l j
    refine .iterates hes hphase hnext hbreak htalks ?_ htick
    rw [(b.iterate_frame conn l j).1]
    exact hqueue
  cases h with
  | queue _ | dropSenders =>
    refine .quiet rfl (fun _ _ => List.not_mem_nil) (fun _ _ => ?_) (.inl rfl)
    unfold Talk.after
    cases a.phase <;> rfl
  | recv hp =>
    exact iterates _ hp (fun _ _ => by simp only [Talk.after, hp]) rfl (fun _ h => by cases h)
  | tick hp =>
    refine iterates _ hp (fun _ _ => by simp only [Talk.after, hp]) rfl fun _ h => ?_
    cases h
    rfl
  | command hp hq =>
    refine iterates _ hp (fun _ _ => ?_) hq (fun _ h => by cases h)
    simp only [Talk.after, hp, hq, List.head?_cons]
  | close hp hq _ =>
    refine iterates _ hp (fun _ _ => ?_) rfl (fun _ h => by cases h)
    simp only [Talk.after, hp, hq, List.head?_nil]
  | enter hp => exact .enters rfl hp rfl fun _ _ => by simp only [Talk.after, hp]
  | negotiated hp _ =>
    refine .quiet rfl (fun _ _ h => by cases List.mem_singleton.mp h)
      (fun _ _ => by simp only [Talk.after, hp]) (.inr ⟨fun _ _ h => ?_, fun _ _ h => by cases h⟩)
    rw [hp] at h
    cases h
  | refused hp | negotiate hp _ | connected hp _ | asked hp _ | unasked hp _ | unnegotiated hp _
  | ready hp | dropped hp | lost hp | settle hp | slept hp =>
    refine .quiet rfl (fun _ _ => List.not_mem_nil) (fun _ _ => by simp only [Talk.after, hp])
      (.inr ⟨fun _ _ h => ?_, fun _ _ h => by cases h⟩)
    rw [hp] at h
    cases h

/-- Events are those of a `WORK_*` packet, on a stream that has a slot under its handle. -/
theorem event_actorLoop {conn : Connection} {l : LoopState} {j : LoopInput} {stream : StreamId}
    {event : JobEvent} (h : .event stream event ∈ (actorLoop conn l j).2) :
    ∃ packet handle, j = .recv (.ok (some packet)) ∧ packet.argStr 0 = some handle ∧
      jobEvent packet = some event ∧ some stream ∈ (l.jobs.of handle).slots := by
  have hfail : .event stream event ∉ failAllPending l.pending := by
    intro h
    obtain ⟨p, -, hp⟩ := List.mem_map.mp h
    cases hp
  match j with
  | .tick _ => cases h
  | .command none _ | .recv (.ok none) | .recv (.error _) => exact absurd h hfail
  | .command (some cmd) io =>
    rcases hsend : conn.send cmd.packet io with ⟨e | _, conn'⟩ <;>
      simp only [actorLoop, hsend, List.mem_cons, reduceCtorEq, false_or] at h
    · exact absurd h hfail
    · cases h
  | .recv (.ok (some packet)) =>
    simp only [actorLoop] at h
    cases hwork : isWork packet.ptype with
    | true =>
      rw [handleIncoming_work hwork] at h
      obtain ⟨handle, hhandle, hevent, hslot, -⟩ := Table.event_mem h
      exact ⟨packet, handle, rfl, hhandle, hevent, hslot⟩
    | false =>
      cases hreply : isReply packet.ptype with
      | false =>
        rw [handleIncoming_other hwork hreply] at h
        cases h
      | true =>
        rcases hl : l.pending with _ | ⟨oldest, pending⟩
        · obtain ⟨message, hin⟩ := handleIncoming_unexpected hreply hl
          simp [hin] at h
        · rcases handleIncoming_reply hreply hl with ⟨answer, -, hin⟩ | ⟨-, message, hin⟩ <;>
            simp [hin] at h

namespace Talk

/-- The stream was sent this event of the job with this handle. -/
def Sent (talk : Talk) (stream : StreamId) (handle : String) (event : JobEvent) : Prop :=
  ∃ packet, (packet, stream) ∈ talk.heard ∧ packet.argStr 0 = some handle ∧
    jobEvent packet = some event

/-- The event is one of the stream's own job, created on this connection. -/
def Delivered (talk : Talk) (stream : StreamId) (event : JobEvent) : Prop :=
  ∃ cmd handle, talk.Gave cmd handle ∧ stream ∈ cmd.streams ∧ talk.Sent stream handle event

variable {talk talk' : Talk} {conn : Connection} {heard : List StreamId} {j : LoopInput}

theorem Sent.mono {stream : StreamId} {handle : String} {event : JobEvent}
    (hg : talk.Grows talk') (h : talk.Sent stream handle event) :
    talk'.Sent stream handle event := by
  obtain ⟨packet, hheard, h⟩ := h
  exact ⟨packet, hg.heard.subset hheard, h⟩

theorem Delivered.mono {stream : StreamId} {event : JobEvent} (hg : talk.Grows talk')
    (h : talk.Delivered stream event) : talk'.Delivered stream event := by
  obtain ⟨cmd, handle, hgave, hstream, hsent⟩ := h
  exact ⟨cmd, handle, hgave.mono hg, hstream, hsent.mono hg⟩

/-- At most the command that was taken has been sent. -/
theorem sent_iterate (talk : Talk) (conn : Connection) (heard : List StreamId) (j : LoopInput) :
    (talk.iterate conn heard j).sent = talk.sent ∨
    (talk.iterate conn heard j).sent = talk.sent ++ j.taken := by
  match j with
  | .tick _ | .command none _ | .recv (.ok none) | .recv (.error _) => exact .inl rfl
  | .recv (.ok (some _)) => exact .inl rfl
  | .command (some cmd) io =>
    unfold iterate
    dsimp only
    split
    · exact .inr rfl
    · exact .inl rfl

theorem heard_iterate {x : Packet × StreamId} (h : x ∈ (talk.iterate conn heard j).heard) :
    x ∈ talk.heard ∨ j = .recv (.ok (some x.1)) ∧ x.2 ∈ heard := by
  match j with
  | .tick _ | .command none _ | .recv (.ok none) | .recv (.error _) => exact .inl h
  | .command (some cmd) io =>
    unfold iterate at h
    dsimp only at h
    split at h <;> exact .inl h
  | .recv (.ok (some packet)) =>
    rcases List.mem_append.mp h with h | h
    · exact .inl h
    · obtain ⟨stream, hstream, rfl⟩ := List.mem_map.mp h
      exact .inr ⟨rfl, hstream⟩

theorem ended_iterate {l : LoopState} {outcome : ActorOutcome}
    (h : (actorLoop conn l j).1 = .break outcome) : (talk.iterate conn heard j).ended = true := by
  match j with
  | .tick _ | .recv (.ok (some _)) => cases h
  | .command none _ | .recv (.ok none) | .recv (.error _) => rfl
  | .command (some cmd) io =>
    rcases hsend : conn.send cmd.packet io with ⟨e | _, conn'⟩ <;>
      simp only [actorLoop, hsend] at h
    · simp only [iterate, hsend]
    · cases h

end Talk

namespace StreamRun

variable {withExceptions : Bool} {s s' : StreamRun} {i : ActorInput} {actor : Actor}
  {es : List Effect}

/-! ## What holds in every state -/

/-- What the actor does is what its talks say. -/
structure Spoken (s : StreamRun) : Prop where
  current : ∀ conn l, s.server.actor.phase = .looping conn l → ∃ talk talks,
    s.talks = talk :: talks ∧ talk.Matches conn l ∧ talk.Serves s.closed l.jobs
  idle : (∀ conn l, s.server.actor.phase ≠ .looping conn l) → ∀ talk ∈ s.talks, talk.ended = true
  past : ∀ talk ∈ s.talks.tail, talk.ended = true
  handed : ∀ talk ∈ s.talks, ∀ cmd ∈ talk.sent,
    cmd ∈ s.server.submitted ∧ cmd.reply ∈ handedOver s.server.log
  once : (s.talks.flatMap Talk.sent).Nodup
  answered : ∀ x ∈ resolutions s.server.log, ∃ cmd ∈ s.server.submitted, cmd.reply = x.1 ∧
    ∃ talk ∈ s.talks, x.2.From talk cmd
  told : ∀ talk ∈ s.talks, ∀ cmd packet answer, talk.Replied cmd packet →
    cmd.pendingReply.answer packet = some answer → (cmd.reply, answer) ∈ resolutions s.server.log
  delivered : ∀ x ∈ s.arrived, ∃ talk ∈ s.talks, talk.Delivered x.stream x.event
  heard : ∀ talk ∈ s.talks, ∀ x ∈ talk.heard,
    ∃ event, jobEvent x.1 = some event ∧ event ∈ s.yields x.2

/-- The history of one state goes on that of another. -/
structure Extends (s s' : StreamRun) : Prop where
  submitted : s.server.submitted <+: s'.server.submitted
  log : s.server.log <+: s'.server.log
  talks : ∀ talk ∈ s.talks, ∃ talk' ∈ s'.talks, talk.Grows talk'
  yields : ∀ stream, s.yields stream <+: s'.yields stream

theorem Extends.refl (s : StreamRun) : s.Extends s :=
  ⟨List.prefix_rfl, List.prefix_rfl, fun talk h => ⟨talk, h, .refl talk⟩, fun _ => List.prefix_rfl⟩

theorem Extends.resolutions (h : s.Extends s') :
    resolutions s.server.log <+: resolutions s'.server.log := by
  obtain ⟨es, hes⟩ := h.log
  rw [← hes, resolutions_append]
  exact List.prefix_append _ _

theorem advance_eq_some (h : s.advance withExceptions i = some s') :
    s.server.Fresh i ∧ s.Fresh i ∧ ∃ actor es,
      s.server.actor.Steps withExceptions i actor es ∧ s' = s.after i actor es := by
  obtain ⟨⟨hf, hfresh⟩, h⟩ := Option.ite_none_right_eq_some.mp h
  obtain ⟨⟨actor, es⟩, hstep, rfl⟩ := Option.map_eq_some_iff.mp h
  exact ⟨hf, hfresh, actor, es, Actor.steps_of_step hstep, rfl⟩

/-- A step is one of the actor, or a receiver is dropped. -/
theorem step_cases {act : StreamAct} (h : s.step withExceptions act = some s') :
    (∃ i, s.advance withExceptions i = some s' ∧
      (∀ dropped, i = .tick dropped → ∀ stream, dropped stream = true → stream ∈ s.closed) ∧
      (act = .actor i ∨ act = .tick ∧ ∃ closed, i = .tick closed)) ∨
    ∃ stream, act = .dropStream stream ∧ s' = { s with closed := stream :: s.closed } := by
  match act with
  | .actor (.tick _) => cases h
  | .actor (.queue _) | .actor .dropSenders | .actor (.connect _) | .actor (.sent _)
  | .actor (.recv _) | .actor (.command _) | .actor .go =>
    exact .inl ⟨_, h, fun _ hi => (by cases hi), .inl rfl⟩
  | .tick =>
    refine .inl ⟨_, h, fun dropped hi stream hdropped => ?_, .inr ⟨rfl, _, rfl⟩⟩
    cases hi
    exact of_decide_eq_true hdropped
  | .dropStream stream =>
    cases h
    exact .inr ⟨stream, rfl, rfl⟩

theorem mem_yields_after {stream : StreamId} {event : JobEvent}
    (h : (stream, event) ∈ Session.heard s.closed es) :
    event ∈ (s.after i actor es).yields stream := by
  rw [yields_after]
  exact List.mem_append_right _ (List.mem_filterMap.mpr ⟨_, h, if_pos rfl⟩)

theorem mem_heard {closed : List StreamId} {stream : StreamId} {event : JobEvent} :
    (stream, event) ∈ Session.heard closed es ↔ .event stream event ∈ es ∧ stream ∉ closed := by
  unfold Session.heard
  rw [List.mem_filterMap]
  constructor
  · rintro ⟨e, he, h⟩
    split at h
    · obtain ⟨hopen, h⟩ := Option.ite_none_left_eq_some.mp h
      cases h
      exact ⟨he, hopen⟩
    · cases h
  · rintro ⟨he, hopen⟩
    exact ⟨_, he, if_neg hopen⟩

theorem extends_after (s : StreamRun) (i : ActorInput) (actor : Actor) (es : List Effect)
    (htalks : ∀ talk ∈ s.talks, ∃ talk' ∈ (s.after i actor es).talks, talk.Grows talk') :
    s.Extends (s.after i actor es) := by
  refine ⟨List.prefix_append _ _, List.prefix_append _ _, htalks, fun stream => ?_⟩
  rw [yields_after]
  exact List.prefix_append _ _

theorem Extends.handedOver (h : s.Extends s') :
    handedOver s.server.log <+: handedOver s'.server.log := by
  obtain ⟨es, hes⟩ := h.log
  rw [← hes, handedOver_append]
  exact List.prefix_append _ _

/-! What was said before still is. -/

theorem Spoken.handed_mono (h : s.Spoken) (hext : s.Extends s') {talk : Talk}
    (htalk : talk ∈ s.talks) {cmd : ClientCommand} (hcmd : cmd ∈ talk.sent) :
    cmd ∈ s'.server.submitted ∧ cmd.reply ∈ handedOver s'.server.log := by
  obtain ⟨hsubmitted, hmem⟩ := h.handed talk htalk cmd hcmd
  exact ⟨hext.submitted.subset hsubmitted, hext.handedOver.subset hmem⟩

theorem Spoken.answered_mono (h : s.Spoken) (hext : s.Extends s') {x : ReplyId × Answer}
    (hx : x ∈ resolutions s.server.log) :
    ∃ cmd ∈ s'.server.submitted, cmd.reply = x.1 ∧ ∃ talk ∈ s'.talks, x.2.From talk cmd := by
  obtain ⟨cmd, hcmd, hreply, talk, htalk, hfrom⟩ := h.answered x hx
  obtain ⟨talk', htalk', hg⟩ := hext.talks talk htalk
  exact ⟨cmd, hext.submitted.subset hcmd, hreply, talk', htalk', hfrom.mono hg⟩

theorem Spoken.told_mono (h : s.Spoken) (hext : s.Extends s') {talk : Talk}
    (htalk : talk ∈ s.talks) {cmd : ClientCommand} {packet : Packet} {answer : Answer}
    (hreplied : talk.Replied cmd packet) (hanswer : cmd.pendingReply.answer packet = some answer) :
    (cmd.reply, answer) ∈ resolutions s'.server.log :=
  hext.resolutions.subset (h.told talk htalk cmd packet answer hreplied hanswer)

theorem Spoken.delivered_mono (h : s.Spoken) (hext : s.Extends s') {x : Arrival}
    (hx : x ∈ s.arrived) : ∃ talk ∈ s'.talks, talk.Delivered x.stream x.event := by
  obtain ⟨talk, htalk, hdelivered⟩ := h.delivered x hx
  obtain ⟨talk', htalk', hg⟩ := hext.talks talk htalk
  exact ⟨talk', htalk', hdelivered.mono hg⟩

theorem Spoken.heard_mono (h : s.Spoken) (hext : s.Extends s') {talk : Talk}
    (htalk : talk ∈ s.talks) {x : Packet × StreamId} (hx : x ∈ talk.heard) :
    ∃ event, jobEvent x.1 = some event ∧ event ∈ s'.yields x.2 := by
  obtain ⟨event, hevent, hyields⟩ := h.heard talk htalk x hx
  exact ⟨event, hevent, (hext.yields x.2).subset hyields⟩

/-! ## One step keeps it -/

/-- A step nobody hears of. -/
theorem spoken_quiet (h : s.Spoken) (hres : resolutions es = [])
    (hevents : ∀ stream event, .event stream event ∉ es)
    (htalks : (s.after i actor es).talks = s.talks)
    (hphase : actor.phase = s.server.actor.phase ∨
      (∀ conn l, s.server.actor.phase ≠ .looping conn l) ∧
        ∀ conn l, actor.phase ≠ .looping conn l) :
    (s.after i actor es).Spoken ∧ s.Extends (s.after i actor es) := by
  have hext : s.Extends (s.after i actor es) := by
    refine s.extends_after i actor es fun talk htalk => ?_
    rw [htalks]
    exact ⟨talk, htalk, .refl talk⟩
  have harrived : (s.after i actor es).arrived = s.arrived := by
    rw [after, heard_eq_nil s.closed hevents]
    exact List.append_nil _
  have hresolutions : resolutions (s.after i actor es).server.log = resolutions s.server.log := by
    rw [after, resolutions_append, hres, List.append_nil]
  refine ⟨⟨fun conn l hl => ?_, fun hidle => ?_, ?_, ?_, ?_, fun x hx => ?_, ?_, fun x hx => ?_,
    ?_⟩, hext⟩
  · rw [htalks]
    rcases hphase with hphase | ⟨-, hphase⟩
    · exact h.current conn l (hphase ▸ hl)
    · exact absurd hl (hphase conn l)
  · rw [htalks]
    rcases hphase with hphase | ⟨hphase, -⟩
    · exact h.idle fun conn l => hphase ▸ hidle conn l
    · exact h.idle hphase
  · rw [htalks]
    exact h.past
  · rw [htalks]
    exact fun talk htalk cmd hcmd => h.handed_mono hext htalk hcmd
  · rw [htalks]
    exact h.once
  · exact h.answered_mono hext (hresolutions ▸ hx)
  · rw [htalks]
    exact fun talk htalk cmd packet answer => h.told_mono hext htalk
  · exact h.delivered_mono hext (harrived ▸ hx)
  · rw [htalks]
    exact fun talk htalk x hx => h.heard_mono hext htalk hx

/-- `actor_loop` is entered. -/
theorem spoken_enter (h : s.Spoken) {conn : Connection}
    (hphase : s.server.actor.phase = .entering conn) (hphase' : actor.phase = .looping conn .new)
    (htalks : (s.after i actor []).talks = .new conn :: s.talks) :
    (s.after i actor []).Spoken ∧ s.Extends (s.after i actor []) := by
  have hidle : ∀ conn l, s.server.actor.phase ≠ .looping conn l := by
    intro conn l hl
    rw [hphase] at hl
    cases hl
  have hext : s.Extends (s.after i actor []) := by
    refine s.extends_after i actor [] fun talk htalk => ⟨talk, ?_, .refl talk⟩
    rw [htalks]
    exact List.mem_cons_of_mem _ htalk
  have harrived : (s.after i actor []).arrived = s.arrived := List.append_nil _
  have hlog : (s.after i actor []).server.log = s.server.log := List.append_nil _
  refine ⟨⟨fun conn' l hl => ?_, fun hno => absurd hphase' (hno _ _), ?_, ?_, ?_, fun x hx => ?_,
    ?_, fun x hx => ?_, ?_⟩, hext⟩
  · rw [htalks]
    obtain ⟨rfl, rfl⟩ : conn = conn' ∧ .new = l := by
      have heq := hphase'.symm.trans hl
      cases heq
      exact ⟨rfl, rfl⟩
    exact ⟨_, _, rfl, Talk.matches_new conn, Talk.serves_new conn _ _⟩
  · rw [htalks]
    exact h.idle hidle
  · rw [htalks]
    refine List.forall_mem_cons.mpr ⟨fun cmd hcmd => (by cases hcmd), fun talk htalk cmd hcmd => ?_⟩
    exact h.handed_mono hext htalk hcmd
  · rw [htalks]
    exact h.once
  · exact h.answered_mono hext (hlog ▸ hx)
  · rw [htalks]
    refine List.forall_mem_cons.mpr ⟨?_, fun talk htalk cmd packet answer =>
      h.told_mono hext htalk⟩
    rintro cmd packet answer ⟨n, hcmd, -⟩
    cases hcmd
  · exact h.delivered_mono hext (harrived ▸ hx)
  · rw [htalks]
    exact List.forall_mem_cons.mpr ⟨fun x hx => (by cases hx),
      fun talk htalk x hx => h.heard_mono hext htalk hx⟩

/-- What an iteration takes has been queued here and was not handed over before. -/
theorem fresh_taken (hs : s.Inv) {j : LoopInput}
    (hqueue : s.server.actor.queue = j.taken ++ actor.queue) {cmd : ClientCommand}
    (hcmd : cmd ∈ j.taken) :
    cmd ∈ s.server.submitted ∧ cmd.reply ∉ handedOver s.server.log := by
  have hin : cmd ∈ s.server.actor.queue := hqueue ▸ List.mem_append_left _ hcmd
  refine ⟨hs.mem_submitted_of_queue hin, fun hmem => ?_⟩
  obtain ⟨taken, hsubmitted, htaken⟩ := hs.server.order
  have hnodup := hs.server.fresh
  rw [hsubmitted, List.map_append, htaken] at hnodup
  exact (List.nodup_append.mp hnodup).2.2 _ hmem _ (List.mem_map_of_mem hin) rfl

theorem nodup_taken (j : LoopInput) : j.taken.Nodup := by
  match j with
  | .command (some cmd) _ => exact List.nodup_singleton cmd
  | .command none _ | .tick _ | .recv _ => exact List.nodup_nil

/-- No command goes out twice. -/
theorem Spoken.once_iterate (hs : s.Inv) (h : s.Spoken) {talk : Talk} {talks : List Talk}
    (heq : s.talks = talk :: talks) {j : LoopInput}
    (hqueue : s.server.actor.queue = j.taken ++ actor.queue) (conn : Connection)
    (heard : List StreamId) :
    ((talk.iterate conn heard j :: talks).flatMap Talk.sent).Nodup := by
  have honce := h.once
  rw [heq, List.flatMap_cons] at honce
  rw [List.flatMap_cons]
  rcases talk.sent_iterate conn heard j with hsent | hsent <;> rw [hsent]
  · exact honce
  · have hperm : (j.taken ++ (talk.sent ++ talks.flatMap Talk.sent)).Perm
        (talk.sent ++ j.taken ++ talks.flatMap Talk.sent) := by
      rw [← List.append_assoc]
      exact List.perm_append_comm.append_right _
    refine hperm.nodup_iff.mp (List.nodup_append.mpr
      ⟨nodup_taken j, honce, fun cmd hcmd cmd' hcmd' hsame => ?_⟩)
    subst hsame
    have hsaid : cmd ∈ s.talks.flatMap Talk.sent := by
      rw [heq, List.flatMap_cons]
      exact hcmd'
    obtain ⟨t, ht, hmem⟩ := List.mem_flatMap.mp hsaid
    exact (fresh_taken hs hqueue hcmd).2 (h.handed t ht cmd hmem).2

/-- An iteration of `actor_loop`. -/
theorem spoken_iterate (hs : s.Inv) (h : s.Spoken) {conn : Connection} {l : LoopState}
    {j : LoopInput} (hes : es = (actorLoop conn l j).2)
    (hphase : s.server.actor.phase = .looping conn l)
    (hnext : ∀ conn' l', actor.phase = .looping conn' l' →
      (actorLoop conn l j).1 = .next conn' l')
    (hbreak : (∀ conn' l', actor.phase ≠ .looping conn' l') →
      ∃ outcome, (actorLoop conn l j).1 = .break outcome)
    (htalks : (s.after i actor es).talks =
      s.talks.modifyHead fun talk => talk.iterate conn (Talk.hearers s.closed es) j)
    (hqueue : s.server.actor.queue = j.taken ++ actor.queue)
    (htick : ∀ dropped, j = .tick dropped → ∀ stream, dropped stream = true → stream ∈ s.closed) :
    (s.after i actor es).Spoken ∧ s.Extends (s.after i actor es) := by
  obtain ⟨talk, talks, heq, hmatches, hserves⟩ := h.current conn l hphase
  rw [heq, List.modifyHead_cons] at htalks
  obtain ⟨talk', htalk'⟩ : ∃ talk', talk' = talk.iterate conn (Talk.hearers s.closed es) j :=
    ⟨_, rfl⟩
  rw [← htalk'] at htalks
  have hg : talk.Grows talk' := htalk' ▸ Talk.grows_iterate hmatches.goesOn conn _ j
  have hhead : talk ∈ s.talks := heq ▸ List.mem_cons_self
  have htail : ∀ t ∈ talks, t ∈ s.talks := fun t ht => heq ▸ List.mem_cons_of_mem _ ht
  have hpast : ∀ t ∈ talks, t.ended = true := by
    have hpast := h.past
    rwa [heq] at hpast
  have hext : s.Extends (s.after i actor es) := by
    refine s.extends_after i actor es fun t ht => ?_
    rw [htalks]
    rw [heq] at ht
    rcases List.mem_cons.mp ht with rfl | ht
    · exact ⟨talk', List.mem_cons_self, hg⟩
    · exact ⟨t, List.mem_cons_of_mem _ ht, .refl t⟩
  have hresolutions : resolutions (s.after i actor es).server.log =
      resolutions s.server.log ++ resolutions es := resolutions_append _ _
  have hhanded : handedOver (s.after i actor es).server.log =
      handedOver s.server.log ++ j.taken.map ClientCommand.reply := by
    rw [← actorLoop_handedOver conn l j, ← hes]
    exact handedOver_append _ _
  refine ⟨⟨fun conn' l' hl => ?_, fun hidle => ?_, ?_, ?_, ?_, fun x hx => ?_, ?_, fun x hx => ?_,
    ?_⟩, hext⟩
  · have hloop := hnext conn' l' hl
    subst htalk' hes
    exact ⟨_, talks, htalks, hmatches.iterate _ hloop, hserves.iterate hmatches htick hloop⟩
  · obtain ⟨outcome, hloop⟩ := hbreak hidle
    rw [htalks]
    exact List.forall_mem_cons.mpr ⟨htalk' ▸ Talk.ended_iterate hloop, hpast⟩
  · rw [htalks]
    exact hpast
  · rw [htalks]
    refine List.forall_mem_cons.mpr
      ⟨fun cmd hcmd => ?_, fun t ht cmd hcmd => h.handed_mono hext (htail t ht) hcmd⟩
    rcases talk.sent_iterate conn (Talk.hearers s.closed es) j with hsent | hsent <;>
      rw [htalk', hsent] at hcmd
    · exact h.handed_mono hext hhead hcmd
    · rcases List.mem_append.mp hcmd with hcmd | hcmd
      · exact h.handed_mono hext hhead hcmd
      · exact ⟨hext.submitted.subset (fresh_taken hs hqueue hcmd).1,
          hhanded ▸ List.mem_append_right _ (List.mem_map_of_mem hcmd)⟩
  · rw [htalks, htalk']
    exact h.once_iterate hs heq hqueue conn _
  · rw [hresolutions] at hx
    rcases List.mem_append.mp hx with hx | hx
    · exact h.answered_mono hext hx
    · rw [hes] at hx
      obtain ⟨id, answer⟩ := x
      obtain ⟨cmd, hcmd, hid, hfrom⟩ := hmatches.answers (Talk.hearers s.closed es) hx
      refine ⟨cmd, hext.submitted.subset ?_, hid, talk', ?_, htalk' ▸ hfrom⟩
      · rcases hcmd with hcmd | hcmd
        · exact (h.handed talk hhead cmd hcmd).1
        · exact (fresh_taken hs hqueue hcmd).1
      · rw [htalks]
        exact List.mem_cons_self
  · rw [htalks]
    refine List.forall_mem_cons.mpr ⟨fun cmd packet answer hreplied hanswer => ?_,
      fun t ht cmd packet answer => h.told_mono hext (htail t ht)⟩
    subst htalk'
    rcases hmatches.told hreplied hanswer with hold | hnew
    · exact h.told_mono hext hhead hold hanswer
    · rw [hresolutions]
      exact List.mem_append_right _ (hes ▸ hnew)
  · rcases List.mem_append.mp hx with hx | hx
    · exact h.delivered_mono hext hx
    · obtain ⟨⟨stream, event⟩, hhears, rfl⟩ := List.mem_map.mp hx
      obtain ⟨hevent, -⟩ := mem_heard.mp hhears
      rw [hes] at hevent
      obtain ⟨packet, handle, rfl, hhandle, hjob, hslot⟩ := event_actorLoop hevent
      obtain ⟨cmd, hgave, hstream⟩ := hmatches.slots handle stream hslot
      refine ⟨talk', htalks ▸ List.mem_cons_self, cmd, handle, hgave.mono hg, hstream, packet, ?_,
        hhandle, hjob⟩
      rw [htalk']
      exact List.mem_append_right _ (List.mem_map_of_mem (List.mem_map_of_mem hhears))
  · rw [htalks]
    refine List.forall_mem_cons.mpr
      ⟨fun x hx => ?_, fun t ht x hx => h.heard_mono hext (htail t ht) hx⟩
    rcases Talk.heard_iterate (htalk' ▸ hx) with hx | ⟨hj, hx⟩
    · exact h.heard_mono hext hhead hx
    · obtain ⟨packet, stream⟩ := x
      obtain ⟨⟨_, event⟩, hhears, rfl⟩ := List.mem_map.mp hx
      obtain ⟨hevent, -⟩ := mem_heard.mp hhears
      rw [hes] at hevent
      obtain ⟨packet', handle, hj', -, hjob, -⟩ := event_actorLoop hevent
      obtain rfl : packet = packet' := by
        rw [hj] at hj'
        cases hj'
        rfl
      exact ⟨event, hjob, mem_yields_after hhears⟩

theorem spoken_step {act : StreamAct} (hs : s.Inv) (h : s.Spoken)
    (hstep : s.step withExceptions act = some s') : s'.Spoken ∧ s.Extends s' := by
  rcases step_cases hstep with ⟨i, hadvance, htick, -⟩ | ⟨stream, -, rfl⟩
  · obtain ⟨-, -, actor, es, hactor, rfl⟩ := advance_eq_some hadvance
    cases Actor.turns_of_steps hactor with
    | quiet hres hevents htalks hphase =>
      exact spoken_quiet h hres hevents (htalks _ _) hphase
    | enters hes hphase hphase' htalks =>
      subst hes
      exact spoken_enter h hphase hphase' (htalks _ _)
    | iterates hes hphase hnext hbreak htalks hqueue hj =>
      exact spoken_iterate hs h hes hphase hnext hbreak (htalks _ _) hqueue
        fun dropped hdropped => htick dropped (hj dropped hdropped)
  · refine ⟨⟨fun conn l hl => ?_, h.idle, h.past, h.handed, h.once, h.answered, h.told, h.delivered,
      h.heard⟩, ⟨List.prefix_rfl, List.prefix_rfl, fun talk ht => ⟨talk, ht, .refl talk⟩,
      fun _ => List.prefix_rfl⟩⟩
    obtain ⟨talk, talks, heq, hmatches, hserves⟩ := h.current conn l hl
    refine ⟨talk, talks, heq, hmatches, fun cmd handle t hgave ht hopen => ?_⟩
    exact hserves cmd handle t hgave ht fun hclosed => hopen (List.mem_cons_of_mem _ hclosed)

theorem spoken_start : start.Spoken where
  current _ _ h := by cases h
  idle _ talk htalk := by cases htalk
  past talk htalk := by cases htalk
  handed talk htalk := by cases htalk
  once := List.nodup_nil
  answered x hx := by cases hx
  told talk htalk := by cases htalk
  delivered x hx := by cases hx
  heard talk htalk := by cases htalk

/-- The talk a stream's job was created in has ended, if no sender of the stream is left
and the stream has not heard of the end of the job. -/
theorem Spoken.ended (h : s.Spoken) {talk : Talk} (htalk : talk ∈ s.talks) {cmd : ClientCommand}
    {handle : String} {stream : StreamId} (hgave : talk.Gave cmd handle)
    (hstream : stream ∈ cmd.streams) (hopen : stream ∉ s.closed)
    (hunfinished : ¬talk.Finished stream)
    (hgone : some stream ∉ (s.server.actor.jobs.of handle).slots) : talk.ended = true := by
  by_cases hphase : ∀ conn l, s.server.actor.phase ≠ .looping conn l
  · exact h.idle hphase talk htalk
  · obtain ⟨conn, l, hphase⟩ : ∃ conn l, s.server.actor.phase = .looping conn l := by
      simpa using hphase
    obtain ⟨head, talks, heq, -, hserves⟩ := h.current conn l hphase
    rw [heq] at htalk
    rcases List.mem_cons.mp htalk with rfl | htail
    · rw [Actor.jobs, hphase] at hgone
      rcases hserves cmd handle stream hgave hstream hopen with hfinished | hslot
      · exact absurd hfinished hunfinished
      · exact absurd hslot hgone
    · refine h.past talk ?_
      rw [heq]
      exact htail

end StreamRun

end Gearman.Client

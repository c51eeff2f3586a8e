import Gearman.Client.Verify.AtMostOnce
import Gearman.Client.Verify.Coalesced

/-!
# What is said on a connection

A talk is what `actor_loop` and its server said to each other on one connection:
the commands that went out, the replies that came in, and the `WORK_*` packets
that reached a caller. Replies carry no request id. The server answers in order,
so the `n`-th reply is the answer to the `n`-th command, and a reply that comes
while no command is unanswered answers nothing.
-/

namespace Gearman.Client

open Protocol

structure Talk where
  /-- What the connection carried before the first command. -/
  opening : List Packet
  /-- The commands whose packet went out, oldest first. -/
  sent : List ClientCommand
  /-- The replies that came while a command was unanswered, oldest first. -/
  replies : List Packet
  /-- The `WORK_*` packets that reached a caller, each with the stream it went to. -/
  heard : List (Packet × StreamId)
  /-- The command whose packet could not be sent. -/
  unsent : Option (ClientCommand × GearmanError)
  /-- `actor_loop` has ended. -/
  ended : Bool

namespace Talk

/-- `actor_loop` is entered. -/
def new (conn : Connection) : Talk := ⟨conn.written, [], [], [], none, false⟩

/-- An iteration of `actor_loop` in which these streams get an event. -/
def iterate (talk : Talk) (conn : Connection) (heard : List StreamId) : LoopInput → Talk
  | .tick _ => talk
  | .command (some cmd) io =>
    match (conn.send cmd.packet io).1 with
    | .ok () => { talk with sent := talk.sent ++ [cmd] }
    | .error e => { talk with unsent := some (cmd, e), ended := true }
  | .recv (.ok (some packet)) =>
    { talk with
      replies :=
        if isReply packet.ptype ∧ talk.replies.length < talk.sent.length then
          talk.replies ++ [packet]
        else talk.replies
      heard := talk.heard ++ heard.map fun stream => (packet, stream) }
  | .command none _ | .recv (.ok none) | .recv (.error _) => { talk with ended := true }

/-- The talks of an actor after a step, latest first. -/
def after (a : Actor) (i : ActorInput) (heard : List StreamId) (talks : List Talk) : List Talk :=
  match a.phase, i with
  | .entering conn, .go => .new conn :: talks
  | .looping conn _, .tick closed => talks.modifyHead (·.iterate conn heard (.tick closed))
  | .looping conn _, .command io =>
    talks.modifyHead (·.iterate conn heard (.command a.queue.head? io))
  | .looping conn _, .recv pkt => talks.modifyHead (·.iterate conn heard (.recv pkt))
  | _, _ => talks

/-- The packet is what the server answered the command. -/
def Replied (talk : Talk) (cmd : ClientCommand) (packet : Packet) : Prop :=
  ∃ n : Nat, talk.sent[n]? = some cmd ∧ talk.replies[n]? = some packet

/-- The server answered the command with a `JOB_CREATED` of this handle. -/
def Gave (talk : Talk) (cmd : ClientCommand) (handle : String) : Prop :=
  ∃ packet, talk.Replied cmd packet ∧ packet.ptype = .jobCreated ∧
    (packet.argStr 0).getD "" = handle

/-- The stream has heard of the end of its job. -/
def Finished (talk : Talk) (stream : StreamId) : Prop :=
  ∃ packet, (packet, stream) ∈ talk.heard ∧ isTerminal packet.ptype = true

end Talk

/-- Where the answer to a command comes from. -/
inductive Answer.From (talk : Talk) (cmd : ClientCommand) : Answer → Prop
  | replied {packet : Packet} {answer : Answer} (h : talk.Replied cmd packet)
      (hanswer : cmd.pendingReply.answer packet = some answer) : From talk cmd answer
  /-- The server's answer is one to another kind of request. -/
  | mismatched {packet : Packet} (h : talk.Replied cmd packet)
      (hnone : cmd.pendingReply.answer packet = none) : From talk cmd (.error .connectionClosed)
  /-- The command's own packet could not be sent. -/
  | unsent {e : GearmanError} (hended : talk.ended = true) (h : talk.unsent = some (cmd, e))
      (hsend : ∃ (conn : Connection) (io : Io), (conn.send cmd.packet io).1 = .error e) :
      From talk cmd (.error e)
  /-- `actor_loop` ended before the server had answered. -/
  | lost (hended : talk.ended = true) (h : cmd ∈ talk.sent.drop talk.replies.length) :
      From talk cmd (.error .connectionClosed)

namespace Talk

/-! ## Talks only go on -/

/-- A talk goes on another, and does not once it has ended. -/
structure Grows (talk talk' : Talk) : Prop where
  sent : talk.sent <+: talk'.sent
  replies : talk.replies <+: talk'.replies
  heard : talk.heard <+: talk'.heard
  final : talk.ended = true → talk' = talk

variable {talk talk' : Talk} {cmd : ClientCommand} {packet : Packet} {handle : String}

theorem Grows.refl (talk : Talk) : talk.Grows talk :=
  ⟨List.prefix_rfl, List.prefix_rfl, List.prefix_rfl, fun _ => rfl⟩

theorem grows_iterate (h : talk.ended = false) (conn : Connection) (heard : List StreamId)
    (i : LoopInput) : talk.Grows (talk.iterate conn heard i) := by
  have hfinal : ∀ talk' : Talk, talk.ended = true → talk' = talk :=
    fun _ hended => absurd (h.symm.trans hended) Bool.false_ne_true
  match i with
  | .tick _ => exact .refl talk
  | .command none _ | .recv (.ok none) | .recv (.error _) =>
    exact ⟨List.prefix_rfl, List.prefix_rfl, List.prefix_rfl, hfinal _⟩
  | .command (some cmd) io =>
    unfold iterate
    dsimp only
    split
    · exact ⟨List.prefix_append _ _, List.prefix_rfl, List.prefix_rfl, hfinal _⟩
    · exact ⟨List.prefix_rfl, List.prefix_rfl, List.prefix_rfl, hfinal _⟩
  | .recv (.ok (some packet)) =>
    refine ⟨List.prefix_rfl, ?_, List.prefix_append _ _, hfinal _⟩
    dsimp only [iterate]
    split
    · exact List.prefix_append _ _
    · exact List.prefix_rfl

theorem getElem?_of_prefix {α : Type} {xs ys : List α} {n : Nat} {a : α} (h : xs <+: ys)
    (ha : xs[n]? = some a) : ys[n]? = some a := by
  obtain ⟨more, rfl⟩ := h
  obtain ⟨hlt, -⟩ := List.getElem?_eq_some_iff.mp ha
  rw [List.getElem?_append_left hlt]
  exact ha

theorem Replied.mono (hg : talk.Grows talk') (h : talk.Replied cmd packet) :
    talk'.Replied cmd packet := by
  obtain ⟨n, hcmd, hpacket⟩ := h
  exact ⟨n, getElem?_of_prefix hg.sent hcmd, getElem?_of_prefix hg.replies hpacket⟩

theorem Gave.mono (hg : talk.Grows talk') (h : talk.Gave cmd handle) : talk'.Gave cmd handle := by
  obtain ⟨packet, hreplied, h⟩ := h
  exact ⟨packet, hreplied.mono hg, h⟩

theorem Finished.mono {stream : StreamId} (hg : talk.Grows talk') (h : talk.Finished stream) :
    talk'.Finished stream := by
  obtain ⟨packet, hheard, hterminal⟩ := h
  exact ⟨packet, hg.heard.subset hheard, hterminal⟩

theorem mem_sent_of_replied (h : talk.Replied cmd packet) : cmd ∈ talk.sent := by
  obtain ⟨n, hcmd, -⟩ := h
  exact List.mem_of_getElem? hcmd

end Talk

theorem Answer.From.mono {talk talk' : Talk} {cmd : ClientCommand} {answer : Answer}
    (hg : talk.Grows talk') (h : answer.From talk cmd) : answer.From talk' cmd := by
  cases h with
  | replied h hanswer => exact .replied (h.mono hg) hanswer
  | mismatched h hnone => exact .mismatched (h.mono hg) hnone
  | unsent hended h hsend =>
    rw [hg.final hended]
    exact .unsent hended h hsend
  | lost hended h =>
    rw [hg.final hended]
    exact .lost hended h

namespace Talk

/-! ## One iteration -/

/-- `actor_loop` waits for the replies that have not come yet, on the connection that
carried the commands, and its slots are those of jobs whose handle it was given here. -/
structure Matches (talk : Talk) (conn : Connection) (l : LoopState) : Prop where
  goesOn : talk.ended = false
  replies_le : talk.replies.length ≤ talk.sent.length
  pending : l.pending = (talk.sent.drop talk.replies.length).map ClientCommand.pendingReply
  written : conn.written = talk.opening ++ talk.sent.map ClientCommand.packet
  slots : ∀ handle stream, some stream ∈ (l.jobs.of handle).slots →
    ∃ cmd, talk.Gave cmd handle ∧ stream ∈ cmd.streams

variable {talk : Talk} {conn conn' : Connection} {l l' : LoopState} {i : LoopInput}
  {es : List Effect} {cmd : ClientCommand} {packet : Packet} {heard : List StreamId}

theorem matches_new (conn : Connection) : (new conn).Matches conn .new :=
  ⟨rfl, Nat.le_refl 0, rfl, (List.append_nil _).symm, fun _ _ h => by cases h⟩

/-- The oldest pending request is that of the oldest unanswered command. -/
theorem Matches.oldest (h : talk.Matches conn l) {oldest : PendingReply}
    {pending : List PendingReply} (hl : l.pending = oldest :: pending) :
    ∃ cmd, talk.sent[talk.replies.length]? = some cmd ∧ oldest = cmd.pendingReply ∧
      pending = (talk.sent.drop (talk.replies.length + 1)).map ClientCommand.pendingReply := by
  have hpending := h.pending
  rw [hl] at hpending
  rcases hdrop : talk.sent.drop talk.replies.length with _ | ⟨cmd, rest⟩ <;> rw [hdrop] at hpending
  · cases hpending
  · obtain ⟨rfl, rfl⟩ := List.cons.inj hpending
    refine ⟨cmd, ?_, rfl, ?_⟩
    · rw [← List.head?_drop, hdrop, List.head?_cons]
    · rw [← List.tail_drop, hdrop, List.tail_cons]

/-- A reply is taken down if a command is unanswered. -/
theorem Matches.replies_iterate (h : talk.Matches conn l) (heard : List StreamId)
    (hreply : isReply packet.ptype = true) :
    (talk.iterate conn heard (.recv (.ok (some packet)))).replies =
      if l.pending = [] then talk.replies else talk.replies ++ [packet] := by
  have hlt : talk.replies.length < talk.sent.length ↔ l.pending ≠ [] := by
    rw [h.pending, Ne, List.map_eq_nil_iff, List.drop_eq_nil_iff]
    omega
  by_cases hp : l.pending = []
  · simp only [iterate, hreply, hlt, hp, ne_eq, not_true_eq_false, and_false, if_false, if_true]
  · simp only [iterate, hreply, hlt, hp, ne_eq, not_false_eq_true, and_self, if_false, if_true]

theorem replies_iterate_other (talk : Talk) (conn : Connection) (heard : List StreamId)
    (hreply : isReply packet.ptype = false) :
    (talk.iterate conn heard (.recv (.ok (some packet)))).replies = talk.replies := by
  simp only [iterate, hreply, Bool.false_eq_true, false_and, if_false]

/-- A command that has its reply after an iteration had it before, or is the oldest
unanswered one, and the packet read is the reply. -/
theorem Matches.replied_iterate (h : talk.Matches conn l)
    (hreplied : (talk.iterate conn heard i).Replied cmd packet) :
    talk.Replied cmd packet ∨
    i = .recv (.ok (some packet)) ∧ isReply packet.ptype = true ∧
      talk.sent[talk.replies.length]? = some cmd := by
  obtain ⟨n, hcmd, hpacket⟩ := hreplied
  match i with
  | .tick _ => exact .inl ⟨n, hcmd, hpacket⟩
  | .command none _ | .recv (.ok none) | .recv (.error _) => exact .inl ⟨n, hcmd, hpacket⟩
  | .command (some new) io =>
    unfold iterate at hcmd hpacket
    dsimp only at hcmd hpacket
    split at hcmd <;> rename_i hsend <;> rw [hsend] at hpacket
    · have hn := (List.getElem?_eq_some_iff.mp hpacket).1
      rw [List.getElem?_append_left (Nat.lt_of_lt_of_le hn h.replies_le)] at hcmd
      exact .inl ⟨n, hcmd, hpacket⟩
    · exact .inl ⟨n, hcmd, hpacket⟩
  | .recv (.ok (some new)) =>
    cases hreply : isReply new.ptype with
    | false =>
      rw [replies_iterate_other talk conn heard hreply] at hpacket
      exact .inl ⟨n, hcmd, hpacket⟩
    | true =>
      rw [h.replies_iterate heard hreply] at hpacket
      split at hpacket
      · exact .inl ⟨n, hcmd, hpacket⟩
      · rcases Nat.lt_trichotomy n talk.replies.length with hn | rfl | hn
        · rw [List.getElem?_append_left hn] at hpacket
          exact .inl ⟨n, hcmd, hpacket⟩
        · rw [List.getElem?_concat_length] at hpacket
          cases hpacket
          exact .inr ⟨rfl, hreply, hcmd⟩
        · rw [List.getElem?_eq_none (by rw [List.length_append]; exact hn)] at hpacket
          cases hpacket

/-- The packet read answers the oldest unanswered command. -/
theorem Matches.replied_oldest (h : talk.Matches conn l) (heard : List StreamId)
    (hreply : isReply packet.ptype = true)
    (hcmd : talk.sent[talk.replies.length]? = some cmd) :
    (talk.iterate conn heard (.recv (.ok (some packet)))).Replied cmd packet := by
  have hpending : l.pending ≠ [] := by
    intro hp
    have hlt := (List.getElem?_eq_some_iff.mp hcmd).1
    have hempty := h.pending.symm.trans hp
    rw [List.map_eq_nil_iff, List.drop_eq_nil_iff] at hempty
    omega
  refine ⟨talk.replies.length, hcmd, ?_⟩
  rw [h.replies_iterate heard hreply, if_neg hpending]
  exact List.getElem?_concat_length

/-! ### The loop and the talk go on together -/

theorem slots_dispatch (packet : Packet) (jobs : JobEventSubscribers) {handle : String}
    {stream : StreamId}
    (h : some stream ∈ ((dispatchWorkEvent packet jobs).1.of handle).slots) :
    some stream ∈ (jobs.of handle).slots := by
  rcases dispatchWorkEvent_cases packet jobs with
    ⟨-, hslots⟩ | ⟨name, event, slot, -, -, -, -, hframe, hprogress, hterminal⟩
  · rwa [hslots] at h
  · by_cases hname : handle = name
    · subst hname
      cases hend : isTerminal packet.ptype with
      | false => rwa [hprogress hend] at h
      | true => exact (hterminal hend).mem_iff.mp (List.mem_cons_of_mem _ h)
    · rwa [hframe handle hname] at h

/-- A stream that has a slot after a reply had it before, or its job was given the handle. -/
theorem slots_join {oldest : PendingReply} {jobs : JobEventSubscribers} {handle : String}
    {stream : StreamId} (h : some stream ∈ ((oldest.join packet jobs).of handle).slots) :
    some stream ∈ (jobs.of handle).slots ∨ packet.ptype = .jobCreated ∧
      (packet.argStr 0).getD "" = handle ∧ ∃ reply, oldest = .jobCreated reply (some stream) := by
  unfold PendingReply.join at h
  split at h
  · rename_i reply sender hptype
    rw [JobEventSubscribers.of_add] at h
    by_cases hhandle : handle = (packet.argStr 0).getD ""
    · subst hhandle
      rw [Function.update_self] at h
      rcases List.mem_append.mp h with h | h
      · exact .inl h
      · obtain rfl := Option.some.inj (List.mem_singleton.mp h)
        exact .inr ⟨hptype, rfl, reply, rfl⟩
    · rw [Function.update_of_ne hhandle] at h
      exact .inl h
  · exact .inl h

theorem streams_of_pendingReply {reply : ReplyId} {stream : StreamId}
    (h : PendingReply.jobCreated reply (some stream) = cmd.pendingReply) :
    stream ∈ cmd.streams := by
  cases cmd <;> cases h
  exact List.mem_singleton_self stream

theorem Matches.recv (h : talk.Matches conn l) (packet : Packet) (heard : List StreamId) :
    (talk.iterate conn heard (.recv (.ok (some packet)))).Matches conn
      (handleIncoming packet l).1 := by
  have hg := grows_iterate h.goesOn conn heard (.recv (.ok (some packet)))
  have kept : ∀ jobs : JobEventSubscribers,
      (∀ handle stream, some stream ∈ (jobs.of handle).slots →
        some stream ∈ (l.jobs.of handle).slots) →
      ∀ handle stream, some stream ∈ (jobs.of handle).slots →
        ∃ cmd, (talk.iterate conn heard (.recv (.ok (some packet)))).Gave cmd handle ∧
          stream ∈ cmd.streams := by
    intro jobs hjobs handle stream hslot
    obtain ⟨cmd, hgave, hstream⟩ := h.slots handle stream (hjobs handle stream hslot)
    exact ⟨cmd, hgave.mono hg, hstream⟩
  cases hreply : isReply packet.ptype with
  | false =>
    have hreplies := replies_iterate_other talk conn heard hreply
    cases hwork : isWork packet.ptype with
    | false =>
      rw [handleIncoming_other hwork hreply]
      refine ⟨h.goesOn, ?_, ?_, h.written, kept l.jobs fun _ _ hslot => hslot⟩ <;> rw [hreplies]
      · exact h.replies_le
      · exact h.pending
    | true =>
      rw [handleIncoming_work hwork]
      refine ⟨h.goesOn, ?_, ?_, h.written, kept _ fun _ _ => slots_dispatch packet l.jobs⟩ <;>
        rw [hreplies]
      · exact h.replies_le
      · exact h.pending
  | true =>
    have hreplies := h.replies_iterate heard hreply
    rcases hl : l.pending with _ | ⟨oldest, pending⟩
    · obtain ⟨message, hin⟩ := handleIncoming_unexpected hreply hl
      rw [if_pos hl] at hreplies
      rw [hin]
      refine ⟨h.goesOn, ?_, ?_, h.written, kept l.jobs fun _ _ hslot => hslot⟩ <;> rw [hreplies]
      · exact h.replies_le
      · exact h.pending
    · obtain ⟨cmd, hcmd, rfl, hrest⟩ := h.oldest hl
      rw [if_neg (by rw [hl]; exact List.cons_ne_nil _ _)] at hreplies
      have hlt := (List.getElem?_eq_some_iff.mp hcmd).1
      have hle : (talk.replies ++ [packet]).length ≤ talk.sent.length := by
        rw [List.length_append]
        exact hlt
      have hpending : pending =
          (talk.sent.drop (talk.replies ++ [packet]).length).map ClientCommand.pendingReply := by
        rw [List.length_append]
        exact hrest
      rcases handleIncoming_reply hreply hl with ⟨answer, -, hin⟩ | ⟨-, message, hin⟩ <;> rw [hin]
      · refine ⟨h.goesOn, hreplies ▸ hle, hreplies ▸ hpending, h.written, ?_⟩
        intro handle stream hslot
        rcases slots_join hslot with hslot | ⟨hptype, hhandle, reply, hcmdEq⟩
        · exact kept l.jobs (fun _ _ hslot => hslot) handle stream hslot
        · exact ⟨cmd, ⟨packet, h.replied_oldest heard hreply hcmd, hptype, hhandle⟩,
            streams_of_pendingReply hcmdEq.symm⟩
      · exact ⟨h.goesOn, hreplies ▸ hle, hreplies ▸ hpending, h.written,
          kept l.jobs fun _ _ hslot => hslot⟩

theorem Matches.iterate (h : talk.Matches conn l) (heard : List StreamId)
    (hloop : (actorLoop conn l i).1 = .next conn' l') :
    (talk.iterate conn heard i).Matches conn' l' := by
  match i with
  | .tick closed =>
    cases hloop
    refine ⟨h.goesOn, h.replies_le, h.pending, h.written, fun handle stream hslot => ?_⟩
    rw [JobEventSubscribers.of_prune] at hslot
    exact h.slots handle stream (HandleSubscribers.mem_prune.mp hslot).1
  | .command none _ | .recv (.ok none) | .recv (.error _) => cases hloop
  | .command (some cmd) io =>
    have hg := grows_iterate h.goesOn conn heard (.command (some cmd) io)
    rcases hsend : conn.send cmd.packet io with ⟨e | _, sent⟩ <;>
      simp only [actorLoop, hsend] at hloop
    · cases hloop
    · cases hloop
      simp only [Talk.iterate, hsend] at hg ⊢
      refine ⟨h.goesOn, ?_, ?_, ?_, fun handle stream hslot => ?_⟩
      · exact Nat.le_trans h.replies_le (by simp)
      · rw [List.drop_append_of_le_length h.replies_le, List.map_append, h.pending]
        rfl
      · rw [Connection.written_of_send hsend, h.written, List.map_append, List.append_assoc]
        rfl
      · obtain ⟨cmd, hgave, hstream⟩ := h.slots handle stream hslot
        exact ⟨cmd, hgave.mono hg, hstream⟩
  | .recv (.ok (some packet)) =>
    cases hloop
    exact h.recv packet heard

/-! ### Answers -/

theorem mem_failAllPending {pending : List PendingReply} {id : ReplyId} {answer : Answer}
    (h : (id, answer) ∈ resolutions (failAllPending pending)) :
    answer = .error .connectionClosed ∧ ∃ p ∈ pending, p.reply = id := by
  induction pending with
  | nil => cases h
  | cons p pending ih =>
    rcases List.mem_cons.mp h with h | h
    · cases h
      exact ⟨rfl, p, List.mem_cons_self, rfl⟩
    · obtain ⟨hanswer, q, hq, hid⟩ := ih h
      exact ⟨hanswer, q, List.mem_cons_of_mem _ hq, hid⟩

/-- What an iteration answers, and to whom. -/
theorem Matches.answers (h : talk.Matches conn l) (heard : List StreamId) {id : ReplyId}
    {answer : Answer} (hanswer : (id, answer) ∈ resolutions (actorLoop conn l i).2) :
    ∃ cmd, (cmd ∈ talk.sent ∨ cmd ∈ i.taken) ∧ cmd.reply = id ∧
      answer.From (talk.iterate conn heard i) cmd := by
  have lost : ∀ talk' : Talk, talk'.ended = true → talk'.sent = talk.sent →
      talk'.replies = talk.replies → (id, answer) ∈ resolutions (failAllPending l.pending) →
      ∃ cmd, (cmd ∈ talk.sent ∨ cmd ∈ i.taken) ∧ cmd.reply = id ∧ answer.From talk' cmd := by
    intro talk' hended hsent hreplies hmem
    obtain ⟨rfl, p, hp, hid⟩ := mem_failAllPending hmem
    rw [h.pending] at hp
    obtain ⟨cmd, hcmd, rfl⟩ := List.mem_map.mp hp
    refine ⟨cmd, .inl (List.mem_of_mem_drop hcmd), cmd.reply_pendingReply ▸ hid, .lost hended ?_⟩
    rw [hsent, hreplies]
    exact hcmd
  match i with
  | .tick _ => cases hanswer
  | .command none _ | .recv (.ok none) | .recv (.error _) => exact lost _ rfl rfl rfl hanswer
  | .command (some cmd) io =>
    rcases hsend : conn.send cmd.packet io with ⟨e | _, conn'⟩ <;>
      simp only [actorLoop, hsend] at hanswer
    · simp only [Talk.iterate, hsend] at lost ⊢
      rcases List.mem_cons.mp hanswer with hmem | hmem
      · cases hmem
        exact ⟨cmd, .inr (List.mem_singleton_self cmd), rfl,
          .unsent rfl rfl ⟨conn, io, by rw [hsend]⟩⟩
      · exact lost _ rfl rfl rfl hmem
    · cases hanswer
  | .recv (.ok (some packet)) =>
    cases hreply : isReply packet.ptype with
    | false =>
      obtain ⟨-, hevents⟩ := handleIncoming_quiet hreply l
      rw [actorLoop, (resolutions_of_events hevents).1] at hanswer
      cases hanswer
    | true =>
      rcases hl : l.pending with _ | ⟨oldest, pending⟩
      · obtain ⟨message, hin⟩ := handleIncoming_unexpected hreply hl
        simp only [actorLoop, hin] at hanswer
        cases hanswer
      · obtain ⟨cmd, hcmd, rfl, -⟩ := h.oldest hl
        have hsent : cmd ∈ talk.sent := List.mem_of_getElem? hcmd
        have hreplied := h.replied_oldest heard hreply hcmd
        rcases handleIncoming_reply hreply hl with ⟨a, ha, hin⟩ | ⟨hnone, message, hin⟩ <;>
          simp only [actorLoop, hin] at hanswer <;> cases List.mem_singleton.mp hanswer
        · exact ⟨cmd, .inl hsent, cmd.reply_pendingReply.symm, .replied hreplied ha⟩
        · exact ⟨cmd, .inl hsent, cmd.reply_pendingReply.symm, .mismatched hreplied hnone⟩

/-- A reply that answers its command is passed on. -/
theorem Matches.told (h : talk.Matches conn l) {answer : Answer}
    (hreplied : (talk.iterate conn heard i).Replied cmd packet)
    (hanswer : cmd.pendingReply.answer packet = some answer) :
    talk.Replied cmd packet ∨ (cmd.reply, answer) ∈ resolutions (actorLoop conn l i).2 := by
  rcases h.replied_iterate hreplied with hold | ⟨rfl, hreply, hcmd⟩
  · exact .inl hold
  · right
    rcases hl : l.pending with _ | ⟨oldest, pending⟩
    · have hlt := (List.getElem?_eq_some_iff.mp hcmd).1
      have hempty := h.pending.symm.trans hl
      rw [List.map_eq_nil_iff, List.drop_eq_nil_iff] at hempty
      omega
    · obtain ⟨cmd', hcmd', rfl, -⟩ := h.oldest hl
      rw [hcmd] at hcmd'
      cases hcmd'
      rcases handleIncoming_reply hreply hl with ⟨a, ha, hin⟩ | ⟨hnone, -⟩
      · rw [hanswer] at ha
        cases ha
        simp only [actorLoop, hin]
        exact List.mem_singleton.mpr (by rw [cmd.reply_pendingReply])
      · rw [hanswer] at hnone
        cases hnone

/-! ### Streams -/

/-- The streams that hear of an event. -/
def hearers (closed : List StreamId) (es : List Effect) : List StreamId :=
  (Session.heard closed es).map Prod.fst

/-- Every open stream whose job was given a handle has heard of the end of the job,
or has a slot. -/
def Serves (talk : Talk) (closed : List StreamId) (jobs : JobEventSubscribers) : Prop :=
  ∀ cmd handle stream, talk.Gave cmd handle → stream ∈ cmd.streams → stream ∉ closed →
    talk.Finished stream ∨ some stream ∈ (jobs.of handle).slots

theorem serves_new (conn : Connection) (closed : List StreamId) (jobs : JobEventSubscribers) :
    (new conn).Serves closed jobs := by
  rintro cmd handle stream ⟨packet, ⟨n, hcmd, -⟩, -⟩
  cases hcmd

/-- A slot is only lost to the stream that hears of the end of its job. -/
theorem slots_of_dispatch (packet : Packet) {closed : List StreamId} {jobs : JobEventSubscribers}
    {handle : String} {stream : StreamId} (hopen : stream ∉ closed)
    (h : some stream ∈ (jobs.of handle).slots) :
    some stream ∈ ((dispatchWorkEvent packet jobs).1.of handle).slots ∨
      isTerminal packet.ptype = true ∧
        stream ∈ hearers closed (dispatchWorkEvent packet jobs).2 := by
  rcases dispatchWorkEvent_cases packet jobs with
    ⟨-, hslots⟩ | ⟨name, event, slot, -, -, -, hes, hframe, hprogress, hterminal⟩
  · exact .inl (hslots handle ▸ h)
  · by_cases hname : handle = name
    · subst hname
      cases hend : isTerminal packet.ptype with
      | false => exact .inl (hprogress hend ▸ h)
      | true =>
        rcases List.mem_cons.mp ((hterminal hend).mem_iff.mpr h) with rfl | hslot
        · refine .inr ⟨rfl, ?_⟩
          rw [hes]
          simp [hearers, Session.heard, hopen]
        · exact .inl hslot
    · exact .inl (hframe handle hname ▸ h)

theorem slots_of_join {oldest : PendingReply} {jobs : JobEventSubscribers} {handle : String}
    {stream : StreamId} (h : some stream ∈ (jobs.of handle).slots) :
    some stream ∈ ((oldest.join packet jobs).of handle).slots := by
  unfold PendingReply.join
  split
  · rw [JobEventSubscribers.of_add]
    by_cases hhandle : handle = (packet.argStr 0).getD ""
    · subst hhandle
      rw [Function.update_self]
      exact List.mem_append_left _ h
    · rw [Function.update_of_ne hhandle]
      exact h
  · exact h

/-- The job that a `JOB_CREATED` answers gets its slot. -/
theorem slot_joined {jobs : JobEventSubscribers} {stream : StreamId}
    (hptype : packet.ptype = .jobCreated) (hstream : stream ∈ cmd.streams) :
    some stream ∈
      ((cmd.pendingReply.join packet jobs).of ((packet.argStr 0).getD "")).slots := by
  cases cmd with
  | submit pkt reply events =>
    cases events with
    | none => cases hstream
    | some sender =>
      obtain rfl := List.mem_singleton.mp hstream
      have hjoin : PendingReply.join packet jobs (.jobCreated reply (some stream)) =
          jobs.add ((packet.argStr 0).getD "") stream := by
        simp only [PendingReply.join, hptype]
      rw [ClientCommand.pendingReply, hjoin, JobEventSubscribers.of_add, Function.update_self]
      exact List.mem_append_right _ (List.mem_singleton_self _)
  | status _ _ | statusUnique _ _ => cases hstream

theorem Serves.recv {closed : List StreamId} (hm : talk.Matches conn l)
    (hs : talk.Serves closed l.jobs) (packet : Packet) :
    (talk.iterate conn (hearers closed (handleIncoming packet l).2)
      (.recv (.ok (some packet)))).Serves closed (handleIncoming packet l).1.jobs := by
  intro cmd handle stream hgave hstream hopen
  have hg := grows_iterate hm.goesOn conn (hearers closed (handleIncoming packet l).2)
    (.recv (.ok (some packet)))
  obtain ⟨reply, hreplied, hptype, hhandle⟩ := hgave
  have hslots : some stream ∈ (l.jobs.of handle).slots →
      (talk.iterate conn (hearers closed (handleIncoming packet l).2)
        (.recv (.ok (some packet)))).Finished stream ∨
      some stream ∈ ((handleIncoming packet l).1.jobs.of handle).slots := by
    intro hslot
    cases hwork : isWork packet.ptype with
    | true =>
      rw [handleIncoming_work hwork]
      rcases slots_of_dispatch packet hopen hslot with hslot | ⟨hend, hhears⟩
      · exact .inr hslot
      · exact .inl ⟨packet, List.mem_append_right _ (List.mem_map_of_mem hhears), hend⟩
    | false =>
      cases hreply : isReply packet.ptype with
      | false =>
        rw [handleIncoming_other hwork hreply]
        exact .inr hslot
      | true =>
        rcases hl : l.pending with _ | ⟨oldest, pending⟩
        · obtain ⟨message, hin⟩ := handleIncoming_unexpected hreply hl
          rw [hin]
          exact .inr hslot
        · rcases handleIncoming_reply hreply hl with ⟨answer, -, hin⟩ | ⟨-, message, hin⟩ <;>
            rw [hin]
          · exact .inr (slots_of_join hslot)
          · exact .inr hslot
  rcases hm.replied_iterate hreplied with hold | ⟨heq, hreply, hcmd⟩
  · rcases hs cmd handle stream ⟨reply, hold, hptype, hhandle⟩ hstream hopen with hfinished | hslot
    · exact .inl (hfinished.mono hg)
    · exact hslots hslot
  · cases heq
    right
    subst hhandle
    rcases hl : l.pending with _ | ⟨oldest, pending⟩
    · have hlt := (List.getElem?_eq_some_iff.mp hcmd).1
      have hempty := hm.pending.symm.trans hl
      rw [List.map_eq_nil_iff, List.drop_eq_nil_iff] at hempty
      omega
    · obtain ⟨cmd', hcmd', rfl, -⟩ := hm.oldest hl
      rw [hcmd] at hcmd'
      cases hcmd'
      rcases handleIncoming_reply hreply hl with ⟨answer, -, hin⟩ | ⟨hnone, -⟩
      · rw [hin]
        exact slot_joined hptype hstream
      · cases cmd with
        | submit _ _ _ =>
          simp only [PendingReply.answer, ClientCommand.pendingReply, hptype] at hnone
          cases hnone
        | status _ _ | statusUnique _ _ => cases hstream

theorem Serves.iterate {closed : List StreamId} (hm : talk.Matches conn l)
    (hs : talk.Serves closed l.jobs)
    (htick : ∀ dropped, i = .tick dropped → ∀ stream, dropped stream = true → stream ∈ closed)
    (hloop : (actorLoop conn l i).1 = .next conn' l') :
    (talk.iterate conn (hearers closed (actorLoop conn l i).2) i).Serves closed l'.jobs := by
  match i with
  | .tick dropped =>
    cases hloop
    intro cmd handle stream hgave hstream hopen
    rcases hs cmd handle stream hgave hstream hopen with hfinished | hslot
    · exact .inl hfinished
    · right
      rw [JobEventSubscribers.of_prune]
      refine HandleSubscribers.mem_prune.mpr ⟨hslot, Bool.not_eq_true _ ▸ fun hdropped => ?_⟩
      exact hopen (htick dropped rfl stream hdropped)
  | .command none _ | .recv (.ok none) | .recv (.error _) => cases hloop
  | .command (some new) io =>
    intro cmd handle stream hgave hstream hopen
    obtain ⟨reply, hreplied, hptype, hhandle⟩ := hgave
    rcases hm.replied_iterate hreplied with hold | ⟨heq, -⟩
    · have hold : talk.Gave cmd handle := ⟨reply, hold, hptype, hhandle⟩
      have hg := grows_iterate hm.goesOn conn
        (hearers closed (actorLoop conn l (.command (some new) io)).2) (.command (some new) io)
      rcases hsend : conn.send new.packet io with ⟨e | _, sent⟩ <;>
        simp only [actorLoop, hsend] at hloop hg ⊢ <;> cases hloop
      exact (hs cmd handle stream hold hstream hopen).imp_left fun hfinished => hfinished.mono hg
    · cases heq
  | .recv (.ok (some packet)) =>
    cases hloop
    exact hs.recv hm packet

end Talk

end Gearman.Client

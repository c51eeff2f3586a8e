import Gearman.Client.Verify.Incoming
import Gearman.Lib.Machine

/-!
# Replies reach the request they answer

A conversation is one connection of the client together with a server that
answers the `OPTION_REQ` of the handshake, then each request in order. Replies
carry no request id; what is answered to whom rests on both sides keeping the
requests in the same order.

`negotiate_exceptions` takes whatever packet comes first for the answer to its
`OPTION_REQ`. If the server sends some other packet before that answer, the
branch for an unexpected reply is taken, and if the answer is then an `ERROR`,
`actor_loop` takes it for a reply to one of its own requests. The theorem below
is about the conversations where the answer to the `OPTION_REQ` comes first.
-/

namespace Gearman.Client

open Protocol

/-! ## Requests and their answers -/

/-- The types `submit_packet` is called with. -/
def isSubmit : PacketType → Bool
  | .submitJob | .submitJobBg | .submitJobHigh | .submitJobHighBg | .submitJobLow
  | .submitJobLowBg | .submitJobEpoch | .submitReduceJob | .submitReduceJobBackground => true
  | _ => false

/-- The packet of a command is a request of the command's kind. -/
def ClientCommand.wellFormed : ClientCommand → Bool
  | submit p _ _ => isSubmit p.ptype
  | status p _ => p.ptype = .getStatus
  | statusUnique p _ => p.ptype = .getStatusUnique

/-- A server answers a request with `reply`. A handle is a string. -/
def answers (request : PacketType) (reply : Packet) : Bool :=
  match reply.ptype with
  | .error => true
  | .jobCreated => isSubmit request && (reply.argStr 0).isSome
  | .statusRes => request = .getStatus
  | .statusResUnique => request = .getStatusUnique
  | _ => false

/-- A server answers the `OPTION_REQ` with `reply`. -/
def answersOption (reply : Packet) : Bool := reply.ptype = .optionRes || reply.ptype = .error

/-- What the caller of a request has to get when the server answers `reply`. -/
def ClientCommand.outcome (cmd : ClientCommand) (reply : Packet) : Answer :=
  if reply.ptype = .error then .error (serverError reply)
  else
    match cmd with
    | submit _ _ _ => .handle ((reply.argStr 0).getD "")
    | status _ _ => .status (parseStatusRes reply)
    | statusUnique _ _ => .status (parseStatusResUnique reply)

/-- Every command a client queues is well formed. -/
theorem wellFormed_of_client (reply : ReplyId) (events : StreamId) :
    (∀ function unique payload opts,
      ((submit function unique payload opts).command reply events).wellFormed = true) ∧
    (∀ function unique epoch payload,
      ((submitEpoch function unique epoch payload).command reply events).wellFormed = true) ∧
    (∀ function unique reducer payload background,
      ((submitReduceJob function unique reducer payload background).command
        reply events).wellFormed = true) ∧
    (∀ handle, (getStatus handle reply).wellFormed = true) ∧
    ∀ handle cmd, getStatusUnique handle reply = .ok cmd → cmd.wellFormed = true := by
  refine ⟨?_, fun _ _ _ _ => rfl, ?_, fun _ => rfl, ?_⟩
  · intro function unique payload opts
    obtain ⟨_ | _ | _, _ | _⟩ := opts <;> rfl
  · intro function unique reducer payload background
    cases background <;> rfl
  · intro handle cmd h
    unfold getStatusUnique at h
    split at h <;> cases h
    rfl

theorem answers_cases {request : PacketType} {reply : Packet} (h : answers request reply = true) :
    reply.ptype = .error ∨
    (reply.ptype = .jobCreated ∧ isSubmit request = true ∧ ∃ handle, reply.argStr 0 = some handle) ∨
    (reply.ptype = .statusRes ∧ request = .getStatus) ∨
    (reply.ptype = .statusResUnique ∧ request = .getStatusUnique) := by
  unfold answers at h
  split at h
  · exact .inl ‹_›
  · obtain ⟨hsubmit, hhandle⟩ := Bool.and_eq_true_iff.mp h
    exact .inr (.inl ⟨‹_›, hsubmit, Option.isSome_iff_exists.mp hhandle⟩)
  · exact .inr (.inr (.inl ⟨‹_›, of_decide_eq_true h⟩))
  · exact .inr (.inr (.inr ⟨‹_›, of_decide_eq_true h⟩))
  · cases h

theorem isReply_of_answers {request : PacketType} {reply : Packet}
    (h : answers request reply = true) : isReply reply.ptype = true := by
  rcases answers_cases h with h | ⟨h, -⟩ | ⟨h, -⟩ | ⟨h, -⟩ <;> rw [h] <;> rfl

/-- What `handle_incoming` makes of a reply is what it has to. -/
theorem PendingReply.answer_eq_outcome {cmd : ClientCommand} {reply : Packet}
    (hcmd : cmd.wellFormed = true) (h : answers cmd.packet.ptype reply = true) :
    cmd.pendingReply.answer reply = some (cmd.outcome reply) := by
  unfold PendingReply.answer ClientCommand.outcome
  rcases answers_cases h with ht | ⟨ht, hr, -⟩ | ⟨ht, hr⟩ | ⟨ht, hr⟩ <;> rw [ht]
  · rfl
  all_goals
    cases cmd <;>
      simp only [ClientCommand.wellFormed, ClientCommand.packet, decide_eq_true_eq] at hcmd hr <;>
      first
        | rfl
        | (rw [hr] at hcmd; cases hcmd)
        | (rw [hcmd] at hr; cases hr)

/-! ## Conversations -/

/-- Why the server sent a packet. -/
inductive Origin
  /-- It answers the `OPTION_REQ`. -/
  | option
  /-- It answers a request. -/
  | reply
  | other
  deriving DecidableEq, Repr

inductive ConversationPhase
  /-- Waiting for the answer to the `OPTION_REQ`. -/
  | negotiating (conn : Connection)
  | looping (conn : Connection) (s : LoopState)
  | ended

structure Conversation where
  phase : ConversationPhase
  /-- Sent by the server and not yet read. -/
  wire : List (Origin × Packet)
  /-- The server has yet to answer the `OPTION_REQ`. -/
  optionDue : Bool
  /-- The commands whose packet was sent, in order. -/
  sent : List ClientCommand
  /-- What the server answered them, in order. -/
  replies : List Packet
  /-- How many replies `actor_loop` has read. -/
  read : Nat
  log : List Effect

inductive ConversationAct
  | command (cmd : ClientCommand) (io : Io)
  | tick (closed : StreamId → Bool)
  /-- The client reads a packet. -/
  | recv
  | serverOption (packet : Packet)
  | serverReply (packet : Packet)
  /-- The server sends a `WORK_*` or any other packet that answers nothing. -/
  | serverOther (packet : Packet)

namespace Conversation

/-- The connection is up and the `OPTION_REQ`, if any, is sent. -/
def start (withExceptions : Bool) : Conversation where
  phase :=
    if withExceptions then .negotiating (Connection.fromStream.send optionReq .accepted).2
    else .looping .fromStream .new
  wire := []
  optionDue := withExceptions
  sent := []
  replies := []
  read := 0
  log := []

/-- The client does an iteration of `actor_loop`. -/
def iterate (c : Conversation) (conn : Connection) (s : LoopState) (i : LoopInput) : Conversation :=
  match actorLoop conn s i with
  | (.next conn s, es) =>
    { c with phase := .looping conn s, sent := c.sent ++ i.taken, log := c.log ++ es }
  | (.break _, es) => { c with phase := .ended, log := c.log ++ es }

/-- The client reads a packet. -/
def recv (c : Conversation) : Option Conversation :=
  match c.wire, c.phase with
  | (_, packet) :: wire, .negotiating conn =>
    match negotiationReply (.ok (some packet)) with
    | .ok reply =>
      some { c with
        phase := .looping conn .new, wire := wire, log := c.log ++ [.negotiated reply] }
    | .error _ => none
  | (origin, packet) :: wire, .looping conn s =>
    let c := { c with wire := wire, read := if origin = Origin.reply then c.read + 1 else c.read }
    some (c.iterate conn s (.recv (.ok (some packet))))
  | _, _ => none

/-- The server sends a packet. -/
def serve (c : Conversation) (origin : Origin) (packet : Packet) : Conversation :=
  { c with
    wire := c.wire ++ [(origin, packet)]
    optionDue := c.optionDue && origin ≠ .option
    replies := if origin = .reply then c.replies ++ [packet] else c.replies }

def step (c : Conversation) : ConversationAct → Option Conversation
  | .command cmd io =>
    match c.phase with
    | .looping conn s =>
      if cmd.wellFormed ∧ cmd.reply ∉ handedOver c.log then
        some (c.iterate conn s (.command (some cmd) io))
      else none
    | _ => none
  | .tick closed =>
    match c.phase with
    | .looping conn s => some (c.iterate conn s (.tick closed))
    | _ => none
  | .recv => c.recv
  | .serverOption packet =>
    if c.optionDue ∧ answersOption packet then
      some (c.serve .option packet)
    else none
  | .serverReply packet =>
    match c.sent[c.replies.length]? with
    | none => none
    | some cmd =>
      if c.optionDue = false ∧ answers cmd.packet.ptype packet then
        some (c.serve .reply packet)
      else none
  | .serverOther packet =>
    if isReply packet.ptype ∨ packet.ptype = .optionRes then none
    else some (c.serve .other packet)

/-! ## The invariant -/

def pending (c : Conversation) : List PendingReply :=
  match c.phase with
  | .looping _ s => s.pending
  | _ => []

/-- The replies on the wire. -/
def unread (wire : List (Origin × Packet)) : List Packet :=
  (wire.filter fun x => x.1 = .reply).map Prod.snd

/-- The packets on the wire that `negotiate_exceptions` will not take. -/
def forLoop (c : Conversation) : List (Origin × Packet) :=
  match c.phase with
  | .negotiating _ => c.wire.tail
  | _ => c.wire

/-- The answer to the `OPTION_REQ` is the first packet the server sends. -/
def Prompt (c : Conversation) (act : ConversationAct) : Prop :=
  ∀ packet, act = .serverOther packet → c.optionDue = false

/-- The server's side: its answer to the `OPTION_REQ` comes first, its replies
answer the requests in order, and no other packet `actor_loop` gets to see can
be mistaken for one. -/
structure ServerInv (c : Conversation) : Prop where
  matched : ∀ (n : Nat) (cmd : ClientCommand) (packet : Packet), c.sent[n]? = some cmd →
    c.replies[n]? = some packet → answers cmd.packet.ptype packet = true
  replies_le : c.replies.length ≤ c.sent.length
  read_le : c.read ≤ c.replies.length
  onWire : unread c.wire = c.replies.drop c.read
  quiet : ∀ x ∈ c.forLoop, x.1 ≠ .reply → isReply x.2.ptype = false
  due : c.optionDue = true → c.wire = [] ∧ ∃ conn, c.phase = .negotiating conn
  first : ∀ conn, c.phase = .negotiating conn → c.optionDue = true ∨
    ∃ packet wire, c.wire = (.option, packet) :: wire ∧ answersOption packet = true
  negotiating : ∀ conn, c.phase = .negotiating conn → c.sent = []

/-- The client's side: it has resolved the requests whose replies it read and
holds the others. -/
structure ClientInv (c : Conversation) : Prop where
  wellFormed : ∀ cmd ∈ c.sent, cmd.wellFormed = true
  nodup : (handedOver c.log).Nodup
  account : (c.pending.map PendingReply.reply ++ (resolutions c.log).map Prod.fst).Perm
    (handedOver c.log)
  holds : ∀ conn s, c.phase = .looping conn s →
    s.pending = (c.sent.drop c.read).map ClientCommand.pendingReply ∧
      (resolutions c.log).length = c.read
  negotiating : ∀ conn, c.phase = .negotiating conn → c.read = 0 ∧ c.log = []
  resolved : ∀ (n : Nat) (cmd : ClientCommand) (packet : Packet), n < c.read →
    c.sent[n]? = some cmd → c.replies[n]? = some packet →
    (resolutions c.log)[n]? = some (cmd.reply, cmd.outcome packet)
  expected : ∀ e ∈ c.log, e.isUnexpected = false

theorem serverInv_start (withExceptions : Bool) : (start withExceptions).ServerInv := by
  cases withExceptions with
  | false =>
    exact ⟨by simp [start], by simp [start], by simp [start], rfl, by simp [start, forLoop],
      by simp [start], by simp [start], by simp [start]⟩
  | true =>
    exact ⟨by simp [start], by simp [start], by simp [start], rfl, by simp [start, forLoop],
      fun _ => ⟨rfl, _, rfl⟩, fun _ _ => .inl rfl, by simp [start]⟩

theorem clientInv_start (withExceptions : Bool) : (start withExceptions).ClientInv := by
  cases withExceptions <;>
    exact ⟨by simp [start], List.nodup_nil, .refl _, by simp [start, LoopState.new],
      by simp [start], by simp [start], by simp [start]⟩

/-! ## Packets from the server -/

theorem unread_append (wire more : List (Origin × Packet)) :
    unread (wire ++ more) = unread wire ++ unread more := by
  simp only [unread, List.filter_append, List.map_append]

theorem unread_cons_reply (packet : Packet) (wire : List (Origin × Packet)) :
    unread ((.reply, packet) :: wire) = packet :: unread wire := rfl

theorem unread_cons_of_ne {origin : Origin} (h : origin ≠ .reply) (packet : Packet)
    (wire : List (Origin × Packet)) : unread ((origin, packet) :: wire) = unread wire := by
  simp [unread, h]

theorem mem_forLoop_serve {c : Conversation} {origin : Origin} {packet : Packet}
    {x : Origin × Packet} (hx : x ∈ (c.serve origin packet).forLoop) :
    x ∈ c.forLoop ∨ x = (origin, packet) := by
  have happend : ∀ wire : List (Origin × Packet), x ∈ wire ++ [(origin, packet)] →
      x ∈ wire ∨ x = (origin, packet) := by
    intro wire h
    rwa [List.mem_append, List.mem_singleton] at h
  rcases hp : c.phase with _ | _ | _ <;>
    simp only [forLoop, serve, hp] at hx ⊢
  · rcases hw : c.wire with _ | ⟨y, wire⟩ <;> rw [hw] at hx
    · cases hx
    · exact happend wire hx
  · exact happend c.wire hx
  · exact happend c.wire hx

/-- A packet that is no reply, and that `actor_loop` will not mistake for one. -/
theorem ServerInv.serve {c : Conversation} (hc : c.ServerInv) {origin : Origin} {packet : Packet}
    (hreply : origin = .reply →
      ∃ cmd, c.sent[c.replies.length]? = some cmd ∧ answers cmd.packet.ptype packet = true)
    (hoption : c.optionDue = true → origin = .option ∧ answersOption packet = true)
    (hother : origin ≠ .reply → isReply packet.ptype = true → c.optionDue = true) :
    (c.serve origin packet).ServerInv where
  matched := by
    intro n cmd p hcmd hp
    by_cases horigin : origin = .reply
    · simp only [Conversation.serve, horigin, if_true] at hcmd hp
      rcases Nat.lt_trichotomy n c.replies.length with hn | rfl | hn
      · rw [List.getElem?_append_left hn] at hp
        exact hc.matched n cmd p hcmd hp
      · obtain ⟨cmd', hcmd', hanswers⟩ := hreply horigin
        rw [hcmd] at hcmd'
        rw [List.getElem?_concat_length] at hp
        cases hcmd'
        cases hp
        exact hanswers
      · rw [List.getElem?_eq_none (by rw [List.length_append]; exact hn)] at hp
        cases hp
    · simp only [Conversation.serve, horigin, if_false] at hcmd hp
      exact hc.matched n cmd p hcmd hp
  replies_le := by
    by_cases horigin : origin = .reply
    · obtain ⟨cmd, hcmd, -⟩ := hreply horigin
      have hlt := (List.getElem?_eq_some_iff.mp hcmd).1
      simp only [Conversation.serve, horigin, if_true, List.length_append]
      exact hlt
    · simpa [Conversation.serve, horigin] using hc.replies_le
  read_le := by
    have hread := hc.read_le
    by_cases horigin : origin = .reply
    · simp only [Conversation.serve, horigin, if_true, List.length_append]
      omega
    · simpa [Conversation.serve, horigin] using hread
  onWire := by
    have honWire := hc.onWire
    by_cases horigin : origin = .reply
    · subst horigin
      simp only [Conversation.serve, if_true, unread_append, honWire,
        List.drop_append_of_le_length hc.read_le]
      rfl
    · simp only [Conversation.serve, horigin, if_false, unread_append, honWire,
        unread_cons_of_ne horigin]
      exact List.append_nil _
  quiet := by
    intro x hx hne
    by_cases hmistaken : origin ≠ .reply ∧ isReply packet.ptype = true
    · -- the answer to the `OPTION_REQ` comes first, and `negotiate_exceptions` takes it
      obtain ⟨hwire, conn, hphase⟩ := hc.due (hother hmistaken.1 hmistaken.2)
      simp only [forLoop, Conversation.serve, hphase, hwire] at hx
      cases hx
    · rcases mem_forLoop_serve hx with hx | rfl
      · exact hc.quiet x hx hne
      · exact Bool.not_eq_true _ ▸ fun h => hmistaken ⟨hne, h⟩
  due := by
    intro h
    simp only [Conversation.serve, Bool.and_eq_true, decide_eq_true_eq] at h
    exact absurd (hoption h.1).1 h.2
  first := by
    intro conn hphase
    rcases hc.first conn hphase with hdue | ⟨first, wire, hwire, hfirst⟩
    · obtain ⟨rfl, hanswers⟩ := hoption hdue
      refine .inr ⟨packet, [], ?_, hanswers⟩
      simp only [Conversation.serve, (hc.due hdue).1, List.nil_append]
    · refine .inr ⟨first, wire ++ [(origin, packet)], ?_, hfirst⟩
      simp only [Conversation.serve, hwire, List.cons_append]
  negotiating := hc.negotiating

theorem ClientInv.serve {c : Conversation} (hc : c.ClientInv) (hs : c.ServerInv) (origin : Origin)
    (packet : Packet) : (c.serve origin packet).ClientInv := by
  refine ⟨hc.wellFormed, hc.nodup, hc.account, hc.holds, hc.negotiating, ?_, hc.expected⟩
  intro n cmd p hn hcmd hp
  refine hc.resolved n cmd p hn hcmd ?_
  simp only [Conversation.serve] at hp
  split at hp
  · rwa [List.getElem?_append_left (Nat.lt_of_lt_of_le hn hs.read_le)] at hp
  · exact hp

/-! ## Iterations of the client -/

theorem iterate_cases (c : Conversation) (conn : Connection) (s : LoopState) (i : LoopInput) :
    (∃ conn' s', (actorLoop conn s i).1 = .next conn' s' ∧
      c.iterate conn s i =
        { c with
          phase := .looping conn' s', sent := c.sent ++ i.taken,
          log := c.log ++ (actorLoop conn s i).2 }) ∨
    ((actorLoop conn s i).1.pending = [] ∧
      c.iterate conn s i = { c with phase := .ended, log := c.log ++ (actorLoop conn s i).2 }) := by
  unfold iterate
  rcases hloop : actorLoop conn s i with ⟨⟨conn', s'⟩ | outcome, es⟩
  · exact .inl ⟨conn', s', rfl, rfl⟩
  · exact .inr ⟨rfl, rfl⟩

theorem ServerInv.iterate {c : Conversation} (hc : c.ServerInv) {conn : Connection} {s : LoopState}
    (hphase : c.phase = .looping conn s) (i : LoopInput) : (c.iterate conn s i).ServerInv := by
  have hdue : c.optionDue ≠ true := by
    intro h
    obtain ⟨-, conn', h⟩ := hc.due h
    rw [hphase] at h
    cases h
  have hquiet := hc.quiet
  rw [forLoop, hphase] at hquiet
  rcases iterate_cases c conn s i with ⟨conn', s', -, h⟩ | ⟨-, h⟩ <;> rw [h]
  · refine ⟨fun n cmd packet hcmd hp => ?_, ?_, hc.read_le, hc.onWire, hquiet,
      fun h => absurd h hdue, fun _ h => ConversationPhase.noConfusion h,
      fun _ h => ConversationPhase.noConfusion h⟩
    · have hn := (List.getElem?_eq_some_iff.mp hp).1
      rw [List.getElem?_append_left (Nat.lt_of_lt_of_le hn hc.replies_le)] at hcmd
      exact hc.matched n cmd packet hcmd hp
    · exact Nat.le_trans hc.replies_le (by simp)
  · exact ⟨hc.matched, hc.replies_le, hc.read_le, hc.onWire, hquiet, fun h => absurd h hdue,
      fun _ h => ConversationPhase.noConfusion h, fun _ h => ConversationPhase.noConfusion h⟩

/-- Taking the next packet off the wire. -/
theorem ServerInv.pop {c : Conversation} (hc : c.ServerInv) {origin : Origin} {packet : Packet}
    {wire : List (Origin × Packet)} (hwire : c.wire = (origin, packet) :: wire)
    {conn : Connection} {s : LoopState} (hphase : c.phase = .looping conn s) :
    ({ c with
      wire := wire
      read := if origin = Origin.reply then c.read + 1 else c.read }).ServerInv := by
  have honWire := hc.onWire
  have hquiet := hc.quiet
  rw [forLoop, hphase, hwire] at hquiet
  rw [hwire] at honWire
  refine ⟨hc.matched, hc.replies_le, ?_, ?_, ?_, fun h => ?_, fun _ h => ?_, hc.negotiating⟩
  · by_cases horigin : origin = .reply
    · subst horigin
      rw [unread_cons_reply] at honWire
      have hlt : c.read < c.replies.length := by
        by_contra hge
        rw [List.drop_eq_nil_of_le (by omega)] at honWire
        cases honWire
      simp only [reduceIte]
      exact hlt
    · simpa [horigin] using hc.read_le
  · by_cases horigin : origin = .reply
    · subst horigin
      rw [unread_cons_reply] at honWire
      have htail := congrArg List.tail honWire
      rwa [List.tail_drop] at htail
    · rw [unread_cons_of_ne horigin] at honWire
      simpa [horigin] using honWire
  · intro x hx
    simp only [forLoop, hphase] at hx
    exact hquiet x (List.mem_cons_of_mem _ hx)
  · rw [(hc.due h).1] at hwire
    cases hwire
  · rw [hphase] at h
    cases h

/-- The accounts after an iteration that takes no command, or a fresh one. -/
theorem account_iterate {c : Conversation} (hnodup : (handedOver c.log).Nodup)
    (haccount : (c.pending.map PendingReply.reply ++ (resolutions c.log).map Prod.fst).Perm
      (handedOver c.log))
    {conn : Connection} {s : LoopState} (hphase : c.phase = .looping conn s) {i : LoopInput}
    (hfresh : ∀ cmd ∈ i.taken, cmd.reply ∉ handedOver c.log) :
    (handedOver (c.iterate conn s i).log).Nodup ∧
    ((c.iterate conn s i).pending.map PendingReply.reply ++
      (resolutions (c.iterate conn s i).log).map Prod.fst).Perm
        (handedOver (c.iterate conn s i).log) := by
  have hlog : (c.iterate conn s i).log = c.log ++ (actorLoop conn s i).2 := by
    rcases iterate_cases c conn s i with ⟨conn', s', -, h⟩ | ⟨-, h⟩ <;> rw [h]
  have hpending : (c.iterate conn s i).pending = (actorLoop conn s i).1.pending := by
    rcases iterate_cases c conn s i with ⟨conn', s', hflow, h⟩ | ⟨hflow, h⟩ <;> rw [h, hflow] <;>
      rfl
  simp only [pending, hphase] at haccount
  rw [hlog, hpending, resolutions_append, handedOver_append, actorLoop_handedOver, List.map_append]
  refine ⟨?_, perm_account (actorLoop_account conn s i) haccount⟩
  match i with
  | .command (some cmd) io =>
    exact (List.perm_append_singleton _ _).nodup_iff.mpr
      (List.nodup_cons.mpr ⟨hfresh cmd (List.mem_singleton_self cmd), hnodup⟩)
  | .command none _ | .tick _ | .recv _ =>
    rw [LoopInput.taken, List.map_nil, List.append_nil]
    · exact hnodup
    all_goals exact fun cmd io h => by cases h

/-- An iteration that reads no reply. -/
theorem ClientInv.iterate {c : Conversation} (hc : c.ClientInv) (hs : c.ServerInv)
    {conn : Connection} {s : LoopState} (hphase : c.phase = .looping conn s) {i : LoopInput}
    (hi : ∀ packet, i = .recv (.ok (some packet)) → isReply packet.ptype = false)
    (hfresh : ∀ cmd ∈ i.taken, cmd.reply ∉ handedOver c.log)
    (hwf : ∀ cmd ∈ i.taken, cmd.wellFormed = true) : (c.iterate conn s i).ClientInv := by
  obtain ⟨hnodup, haccount⟩ := account_iterate hc.nodup hc.account hphase hfresh
  obtain ⟨hpending, hcount⟩ := hc.holds conn s hphase
  obtain ⟨hwarn, hgoes⟩ := actorLoop_quiet conn s hi
  have hexpected := List.forall_mem_append.mpr ⟨hc.expected, hwarn⟩
  have hresolved : ∀ (n : Nat) (cmd : ClientCommand) (packet : Packet), n < c.read →
      c.sent[n]? = some cmd → c.replies[n]? = some packet →
      (resolutions (c.log ++ (actorLoop conn s i).2))[n]? =
        some (cmd.reply, cmd.outcome packet) := by
    intro n cmd packet hn hcmd hpacket
    rw [resolutions_append, List.getElem?_append_left (hcount ▸ hn)]
    exact hc.resolved n cmd packet hn hcmd hpacket
  have hread : c.read ≤ c.sent.length := Nat.le_trans hs.read_le hs.replies_le
  rcases iterate_cases c conn s i with ⟨conn', s', hflow, h⟩ | ⟨hflow, h⟩ <;>
    rw [h] at hnodup haccount ⊢
  · obtain ⟨hpending', hnone⟩ := hgoes conn' s' hflow
    refine ⟨?_, hnodup, haccount, ?_, fun _ h => ConversationPhase.noConfusion h, ?_, hexpected⟩
    · intro cmd hcmd
      rcases List.mem_append.mp hcmd with hcmd | hcmd
      · exact hc.wellFormed cmd hcmd
      · exact hwf cmd hcmd
    · intro conn s h
      cases h
      refine ⟨?_, ?_⟩
      · rw [hpending', hpending, List.drop_append_of_le_length hread, List.map_append]
      · rw [resolutions_append, hnone, List.append_nil, hcount]
    · intro n cmd packet hn hcmd hpacket
      rw [List.getElem?_append_left (Nat.lt_of_lt_of_le hn hread)] at hcmd
      exact hresolved n cmd packet hn hcmd hpacket
  · exact ⟨hc.wellFormed, hnodup, haccount, fun _ _ h => ConversationPhase.noConfusion h,
      fun _ h => ConversationPhase.noConfusion h, hresolved, hexpected⟩

/-- The iteration that reads the reply to the oldest unanswered request. -/
theorem ClientInv.reply {c : Conversation} (hc : c.ClientInv) (hs : c.ServerInv)
    {conn : Connection} {s : LoopState} (hphase : c.phase = .looping conn s) {packet : Packet}
    {wire : List (Origin × Packet)} (hwire : c.wire = (.reply, packet) :: wire) :
    ∃ cmd, c.sent[c.read]? = some cmd ∧ c.replies[c.read]? = some packet ∧
      answers cmd.packet.ptype packet = true ∧
      ({ c with wire := wire, read := c.read + 1 }).iterate conn s (.recv (.ok (some packet))) =
        { c with
          wire := wire
          read := c.read + 1
          phase := .looping conn
            ⟨(c.sent.drop (c.read + 1)).map ClientCommand.pendingReply,
              cmd.pendingReply.join packet s.jobs⟩
          log := c.log ++ [.replied cmd.reply (cmd.outcome packet)] } := by
  have honWire := hs.onWire
  rw [hwire, unread_cons_reply] at honWire
  have hpacket : c.replies[c.read]? = some packet := by
    rw [← List.head?_drop, ← honWire, List.head?_cons]
  have hlt : c.read < c.sent.length :=
    Nat.lt_of_lt_of_le (List.getElem?_eq_some_iff.mp hpacket).1 hs.replies_le
  have hcmd : c.sent[c.read]? = some c.sent[c.read] := List.getElem?_eq_getElem hlt
  have hanswers := hs.matched _ _ _ hcmd hpacket
  have hwf := hc.wellFormed _ (List.getElem_mem hlt)
  have hpending := (hc.holds conn s hphase).1
  rw [List.drop_eq_getElem_cons hlt, List.map_cons] at hpending
  refine ⟨c.sent[c.read], hcmd, hpacket, hanswers, ?_⟩
  rcases handleIncoming_reply (isReply_of_answers hanswers) hpending with
    ⟨answer, hanswer, h⟩ | ⟨hnone, -⟩
  · rw [PendingReply.answer_eq_outcome hwf hanswers] at hanswer
    cases hanswer
    simp only [Conversation.iterate, actorLoop, h, LoopInput.taken, List.append_nil,
      ClientCommand.reply_pendingReply]
  · rw [PendingReply.answer_eq_outcome hwf hanswers] at hnone
    cases hnone

theorem ClientInv.iterate_reply {c : Conversation} (hc : c.ClientInv) (hs : c.ServerInv)
    {conn : Connection} {s : LoopState} (hphase : c.phase = .looping conn s) {packet : Packet}
    {wire : List (Origin × Packet)} (hwire : c.wire = (.reply, packet) :: wire) :
    (({ c with wire := wire, read := c.read + 1 }).iterate conn s
      (.recv (.ok (some packet)))).ClientInv := by
  obtain ⟨cmd, hcmd, hpacket, -, h⟩ := hc.reply hs hphase hwire
  obtain ⟨hnodup, haccount⟩ :=
    account_iterate (c := { c with wire := wire, read := c.read + 1 })
      (i := .recv (.ok (some packet))) hc.nodup hc.account hphase (fun cmd hcmd => by cases hcmd)
  have hcount := (hc.holds conn s hphase).2
  rw [h] at hnodup haccount ⊢
  refine ⟨hc.wellFormed, hnodup, haccount, ?_, fun _ h => ConversationPhase.noConfusion h, ?_, ?_⟩
  · intro conn' s' h
    cases h
    refine ⟨rfl, ?_⟩
    rw [resolutions_append, List.length_append, hcount]
    rfl
  · intro n cmd' packet' hn hcmd' hpacket'
    simp only at hn hcmd' hpacket' ⊢
    rw [resolutions_append]
    rcases Nat.lt_or_ge n c.read with hlt | hge
    · rw [List.getElem?_append_left (hcount ▸ hlt)]
      exact hc.resolved n cmd' packet' hlt hcmd' hpacket'
    · obtain rfl : n = c.read := by omega
      rw [hcmd] at hcmd'
      rw [hpacket] at hpacket'
      cases hcmd'
      cases hpacket'
      rw [List.getElem?_append_right (by omega), hcount, Nat.sub_self]
      rfl
  · exact List.forall_mem_append.mpr ⟨hc.expected, List.forall_mem_singleton.mpr rfl⟩

/-! ## Every conversation -/

/-- What the server answers to the `OPTION_REQ` is no surprise to the client. -/
theorem negotiationReply_expected {packet : Packet} {reply : Negotiation}
    (h : negotiationReply (.ok (some packet)) = .ok reply)
    (hanswers : answersOption packet = true) :
    (Effect.negotiated reply).isUnexpected = false := by
  simp only [answersOption, Bool.or_eq_true, decide_eq_true_eq] at hanswers
  rcases hanswers with ht | ht <;> simp only [negotiationReply, ht] at h <;> cases h <;> rfl

theorem ServerInv.recv {c c' : Conversation} (hc : c.ServerInv) (h : c.recv = some c') :
    c'.ServerInv := by
  unfold Conversation.recv at h
  split at h
  · rename_i packet wire conn hwire hphase
    have hsent := hc.negotiating conn hphase
    have hreplies : c.replies = [] := by
      have := hc.replies_le
      rw [hsent] at this
      exact List.length_eq_zero_iff.mp (Nat.le_zero.mp this)
    have hdue : c.optionDue ≠ true := by
      intro h
      rw [(hc.due h).1] at hwire
      cases hwire
    split at h <;> cases h
    refine ⟨hc.matched, hc.replies_le, hc.read_le, ?_, ?_, fun h => absurd h hdue,
      fun _ h => ConversationPhase.noConfusion h, fun _ h => ConversationPhase.noConfusion h⟩
    · have honWire := hc.onWire
      rw [hwire, hreplies, List.drop_nil] at honWire
      have hnone : unread wire = [] :=
        (List.append_eq_nil_iff.mp ((unread_append [_] wire).symm.trans honWire)).2
      simp only [hnone, hreplies, List.drop_nil]
    · have hquiet := hc.quiet
      rwa [forLoop, hphase, hwire] at hquiet
  · rename_i origin packet wire conn s hwire hphase
    cases h
    exact (hc.pop hwire hphase).iterate hphase _
  · cases h

theorem ClientInv.recv {c c' : Conversation} (hc : c.ClientInv) (hs : c.ServerInv)
    (h : c.recv = some c') : c'.ClientInv := by
  unfold Conversation.recv at h
  split at h
  · rename_i packet wire conn hwire hphase
    obtain ⟨hread, hlog⟩ := hc.negotiating conn hphase
    have hsent := hs.negotiating conn hphase
    have haccount := hc.account
    simp only [pending, hphase] at haccount
    split at h
    · rename_i reply hreply
      cases h
      have hexpected : (Effect.negotiated reply).isUnexpected = false := by
        rcases hs.first conn hphase with hdue | ⟨first, rest, hfirst, hanswers⟩
        · rw [(hs.due hdue).1] at hwire
          cases hwire
        · rw [hwire] at hfirst
          cases hfirst
          exact negotiationReply_expected hreply hanswers
      have hresolutions : resolutions (c.log ++ [.negotiated reply]) = resolutions c.log := by
        rw [resolutions_append]
        exact List.append_nil _
      have hhanded : handedOver (c.log ++ [.negotiated reply]) = handedOver c.log := by
        rw [handedOver_append]
        exact List.append_nil _
      refine ⟨hc.wellFormed, hhanded ▸ hc.nodup, ?_, ?_,
        fun _ h => ConversationPhase.noConfusion h, ?_,
        List.forall_mem_append.mpr ⟨hc.expected, List.forall_mem_singleton.mpr hexpected⟩⟩
      · simp only [hresolutions, hhanded]
        exact haccount
      · intro conn' s' h
        cases h
        simp only [hsent, hlog, hread]
        exact ⟨rfl, rfl⟩
      · simp only [hresolutions]
        exact hc.resolved
    · cases h
  · rename_i origin packet wire conn s hwire hphase
    cases h
    by_cases horigin : origin = .reply
    · subst horigin
      exact hc.iterate_reply hs hphase hwire
    · have hquiet : isReply packet.ptype = false := by
        refine hs.quiet (origin, packet) ?_ horigin
        simp only [forLoop, hphase, hwire]
        exact List.mem_cons_self
      have hpopped := hs.pop hwire hphase
      rw [if_neg horigin] at hpopped ⊢
      exact ClientInv.iterate (c := { c with wire := wire })
        ⟨hc.wellFormed, hc.nodup, hc.account, hc.holds, hc.negotiating, hc.resolved, hc.expected⟩
        hpopped hphase (fun p h => by cases h; exact hquiet) (fun cmd hcmd => by cases hcmd)
        (fun cmd hcmd => by cases hcmd)
  · cases h

theorem inv_step {c c' : Conversation} {act : ConversationAct} (hs : c.ServerInv)
    (hc : c.ClientInv) (hprompt : c.Prompt act) (h : c.step act = some c') :
    c'.ServerInv ∧ c'.ClientInv := by
  cases act with
  | command cmd io =>
    rcases hphase : c.phase with _ | ⟨conn, s⟩ | _ <;> simp only [step, hphase, reduceCtorEq] at h
    obtain ⟨⟨hwf, hfresh⟩, h⟩ := Option.ite_none_right_eq_some.mp h
    cases h
    refine ⟨hs.iterate hphase _, hc.iterate hs hphase (fun _ h => by cases h) ?_ ?_⟩ <;>
      intro cmd' hcmd <;> cases List.mem_singleton.mp hcmd
    · exact hfresh
    · exact hwf
  | tick closed =>
    rcases hphase : c.phase with _ | ⟨conn, s⟩ | _ <;> simp only [step, hphase, reduceCtorEq] at h
    cases h
    exact ⟨hs.iterate hphase _, hc.iterate hs hphase (fun _ h => by cases h)
      (fun _ h => by cases h) (fun _ h => by cases h)⟩
  | recv => exact ⟨hs.recv h, hc.recv hs h⟩
  | serverOption packet =>
    obtain ⟨⟨hdue, hanswers⟩, h⟩ := Option.ite_none_right_eq_some.mp h
    cases h
    exact ⟨hs.serve (fun h => by cases h) (fun _ => ⟨rfl, hanswers⟩) fun _ _ => hdue,
      hc.serve hs _ _⟩
  | serverReply packet =>
    rcases hcmd : c.sent[c.replies.length]? with _ | cmd <;> simp only [step, hcmd] at h
    · cases h
    · obtain ⟨⟨hdone, hanswers⟩, h⟩ := Option.ite_none_right_eq_some.mp h
      cases h
      exact ⟨hs.serve (fun _ => ⟨cmd, hcmd, hanswers⟩) (fun hdue => by simp [hdue] at hdone)
        (fun h => absurd rfl h), hc.serve hs _ _⟩
  | serverOther packet =>
    obtain ⟨hother, h⟩ := Option.ite_none_left_eq_some.mp h
    cases h
    have hdone := hprompt packet rfl
    exact ⟨hs.serve (fun h => by cases h) (fun hdue => by simp [hdue] at hdone)
      fun _ hreply => absurd (.inl hreply) hother, hc.serve hs _ _⟩

theorem inv_run {withExceptions : Bool} {acts : List ConversationAct} {c : Conversation}
    (hprompt : Machine.Meets step Prompt (start withExceptions) acts)
    (h : Machine.run step (start withExceptions) acts = some c) : c.ServerInv ∧ c.ClientInv := by
  have next : ∀ (c : Conversation) act (c' : Conversation), c.ServerInv ∧ c.ClientInv →
      c.Prompt act → c.step act = some c' → c'.ServerInv ∧ c'.ClientInv := by
    intro c act c' hinv hact hstep
    exact inv_step hinv.1 hinv.2 hact hstep
  exact Machine.invariant_of_meets next
    ⟨serverInv_start withExceptions, clientInv_start withExceptions⟩ hprompt h

/-! ## The property -/

/-- Replies reach the request they answer: the `n`-th command is resolved by the
`n`-th reply as soon as `actor_loop` has read it, nobody is resolved twice and
nobody without a reply while the connection is up, the unexpected-packet
branches are not taken, and a `JOB_CREATED` registers the stream of the submit
it answers within the same step. -/
structure Correct (c : Conversation) : Prop where
  inOrder : c.replies.drop c.read = unread c.wire
  resolved : ∀ n < c.read, ∃ cmd packet, c.sent[n]? = some cmd ∧ c.replies[n]? = some packet ∧
    (resolutions c.log)[n]? = some (cmd.reply, cmd.outcome packet)
  only : ∀ conn s, c.phase = .looping conn s → (resolutions c.log).length = c.read
  once : ((resolutions c.log).map Prod.fst).Nodup
  expected : ∀ e ∈ c.log, e.isUnexpected = false
  registered : ∀ c' packet wire pkt reply stream, c.recv = some c' →
    c.wire = (.reply, packet) :: wire → packet.ptype = .jobCreated →
    c.sent[c.read]? = some (.submit pkt reply (some stream)) →
    ∃ handle conn s subs, packet.argStr 0 = some handle ∧
      c'.log = c.log ++ [.replied reply (.handle handle)] ∧ c'.phase = .looping conn s ∧
      s.jobs handle = some subs ∧ subs.slots.getLast? = some (some stream)

theorem registered_of_inv {c c' : Conversation} (hs : c.ServerInv) (hc : c.ClientInv)
    {packet pkt : Packet} {wire : List (Origin × Packet)} {reply : ReplyId} {stream : StreamId}
    (h : c.recv = some c') (hwire : c.wire = (.reply, packet) :: wire)
    (htype : packet.ptype = .jobCreated)
    (hsubmit : c.sent[c.read]? = some (.submit pkt reply (some stream))) :
    ∃ handle conn s subs, packet.argStr 0 = some handle ∧
      c'.log = c.log ++ [.replied reply (.handle handle)] ∧ c'.phase = .looping conn s ∧
      s.jobs handle = some subs ∧ subs.slots.getLast? = some (some stream) := by
  rcases hphase : c.phase with conn | ⟨conn, s⟩ | _
  · rw [hs.negotiating conn hphase] at hsubmit
    cases hsubmit
  · obtain ⟨cmd, hcmd, -, hanswers, hit⟩ := hc.reply hs hphase hwire
    rw [hsubmit] at hcmd
    cases hcmd
    obtain ⟨handle, hhandle⟩ : ∃ handle, packet.argStr 0 = some handle := by
      rcases answers_cases hanswers with ht | ⟨-, -, ht⟩ | ⟨ht, -⟩ | ⟨ht, -⟩
      · cases htype.symm.trans ht
      · exact ht
      · cases htype.symm.trans ht
      · cases htype.symm.trans ht
    simp only [Conversation.recv, hwire, hphase, if_true, Option.some.injEq] at h
    rw [hphase] at hit
    rw [hit] at h
    subst h
    refine ⟨handle, conn, _, ((s.jobs handle).getD .empty).add stream, hhandle, ?_, rfl, ?_, ?_⟩
    · simp [ClientCommand.outcome, ClientCommand.reply, htype, hhandle]
    · simp [ClientCommand.pendingReply, PendingReply.join, JobEventSubscribers.add, htype, hhandle]
    · simp [HandleSubscribers.add]
  · simp only [Conversation.recv, hwire, hphase] at h
    cases h

/-- **Replies reach the request they answer**, in every conversation in which
the server's answer to the `OPTION_REQ`, if there was one, is the first packet
it sends. -/
theorem replies_reach_requests (withExceptions : Bool) {acts : List ConversationAct}
    {c : Conversation} (hprompt : Machine.Meets step Prompt (start withExceptions) acts)
    (h : Machine.run step (start withExceptions) acts = some c) : c.Correct := by
  obtain ⟨hs, hc⟩ := inv_run hprompt h
  refine ⟨hs.onWire.symm, ?_, fun conn s hphase => (hc.holds conn s hphase).2, ?_, hc.expected,
    fun _ _ _ _ _ _ hrecv hwire htype hsubmit =>
      registered_of_inv hs hc hrecv hwire htype hsubmit⟩
  · intro n hn
    have hreplies := Nat.lt_of_lt_of_le hn hs.read_le
    have hsent := Nat.lt_of_lt_of_le hreplies hs.replies_le
    have hcmd := List.getElem?_eq_getElem hsent
    have hpacket := List.getElem?_eq_getElem hreplies
    exact ⟨_, _, hcmd, hpacket, hc.resolved n _ _ hn hcmd hpacket⟩
  · exact (List.nodup_append.mp (hc.account.nodup_iff.mpr hc.nodup)).2.1

/-- A server that accepts the option and creates a job. -/
def created : List ConversationAct :=
  [.serverOption (.response .optionRes [asBytes "exceptions"]), .recv,
    .command ((submit "f" none [] .foreground).command 0 0) .accepted,
    .serverReply (.response .jobCreated [asBytes "H"]), .recv]

theorem replies_reach_requests_created :
    ∃ c, Machine.run step (start true) created = some c ∧
      resolutions c.log = [(0, .handle "H")] ∧ c.Correct := by
  have hrun : Machine.run step (start true) created = some _ := rfl
  refine ⟨_, hrun, by decide, replies_reach_requests true (Machine.meets_of_forall ?_ _) hrun⟩
  intro act hact c packet hother
  subst hother
  simp [created] at hact

/-- A server that sends a `NOOP` before it rejects the option. -/
def misread : List ConversationAct :=
  [.serverOther (.response .noop []), .recv,
    .serverOption (.response .error [asBytes "UNKNOWN_OPTION", []]),
    .command ((submit "f" none [] .foreground).command 0 0) .accepted, .recv]

/-- The submit fails with the answer to the `OPTION_REQ`. -/
theorem replies_misread :
    ∃ c, Machine.run step (start true) misread = some c ∧ c.replies = [] ∧
      resolutions c.log = [(0, .error (.serverError "UNKNOWN_OPTION" ""))] ∧ ¬c.Correct := by
  refine ⟨_, rfl, rfl, by decide, fun hc => ?_⟩
  have honly := hc.only _ _ rfl
  exact absurd honly (by decide)

/-- The condition is exact: a packet `negotiate_exceptions` reads in place of the
answer to its `OPTION_REQ` is an unexpected one. -/
theorem not_correct_of_other_first {c c' : Conversation} {conn : Connection} {packet : Packet}
    {wire : List (Origin × Packet)} (hphase : c.phase = .negotiating conn)
    (hwire : c.wire = (.other, packet) :: wire) (hother : answersOption packet = false)
    (h : c.recv = some c') : ¬c'.Correct := by
  intro hcorrect
  simp only [answersOption, Bool.or_eq_false_iff, decide_eq_false_iff_not] at hother
  simp only [recv, hwire, hphase, negotiationReply, if_neg hother.1, if_neg hother.2,
    Option.some.injEq] at h
  subst h
  have hexpected := hcorrect.expected (.negotiated (.unexpected packet.ptype))
    (List.mem_append_right _ (List.mem_singleton_self _))
  cases hexpected

end Conversation

end Gearman.Client

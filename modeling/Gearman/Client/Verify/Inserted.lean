import Gearman.Client.Verify.Replies

/-!
# Replies of the wrong type

A server that answers every request in order, and also sends `JOB_CREATED`,
`STATUS_RES` and `STATUS_RES_UNIQUE` packets that answer nothing. For such a
packet `handle_incoming` takes the oldest request off the queue before it looks
at its type, and drops it: its caller is told `ConnectionClosed`, and every later
reply goes to the wrong request. With nothing outstanding it is ignored.
-/

namespace Gearman.Client

open Protocol

/-- The types `handle_incoming` takes for the reply to one kind of request. -/
def PendingReply.expects : PendingReply → PacketType → Bool
  | .jobCreated _ _, .jobCreated | .status _, .statusRes
  | .statusUnique _, .statusResUnique => true
  | _, _ => false

/-- The types that answer one kind of request. -/
def isTypedReply : PacketType → Bool
  | .jobCreated | .statusRes | .statusResUnique => true
  | _ => false

theorem isReply_of_isTypedReply {ptype : PacketType} (h : isTypedReply ptype = true) :
    isReply ptype = true := by
  cases ptype with
  | jobCreated | statusRes | statusResUnique => rfl
  | _ => cases h

/-- One connection of the client, from its `actor_loop` on. Packets arrive when
they are read. -/
structure Exchange where
  /-- `none` once the loop has ended. -/
  loop : Option (Connection × LoopState)
  /-- The commands whose packet was sent, in order. -/
  sent : List ClientCommand
  /-- What the server answered them, in order. -/
  replies : List Packet
  /-- The local state before and after each packet that was inserted. -/
  inserted : List (LoopState × LoopState)
  log : List Effect

inductive ExchangeAct
  | command (cmd : ClientCommand) (io : Io)
  | tick (closed : StreamId → Bool)
  /-- The server's answer to the oldest outstanding request. -/
  | reply (packet : Packet)
  /-- A packet of a type that the oldest outstanding request does not expect. -/
  | insert (packet : Packet)
  /-- A packet that is no reply. -/
  | other (packet : Packet)
  /-- The stream ends, or fails. -/
  | close (pkt : Received)
  /-- The client is dropped. -/
  | leave (io : Io)

namespace Exchange

def start : Exchange := ⟨some (.fromStream, .new), [], [], [], []⟩

/-- The requests the server has yet to answer. -/
def outstanding (c : Exchange) : List ClientCommand := c.sent.drop c.replies.length

/-- An iteration of `actor_loop`. -/
def iterate (c : Exchange) (conn : Connection) (s : LoopState) (i : LoopInput) : Exchange :=
  match actorLoop conn s i with
  | (.next conn s, es) =>
    { c with loop := some (conn, s), sent := c.sent ++ i.taken, log := c.log ++ es }
  | (.break _, es) => { c with loop := none, log := c.log ++ es }

def step (c : Exchange) (act : ExchangeAct) : Option Exchange :=
  match c.loop with
  | none => none
  | some (conn, s) =>
    match act with
    | .command cmd io =>
      if cmd.wellFormed then some (c.iterate conn s (.command (some cmd) io)) else none
    | .tick closed => some (c.iterate conn s (.tick closed))
    | .reply packet =>
      match c.outstanding with
      | [] => none
      | cmd :: _ =>
        if answers cmd.packet.ptype packet then
          some (({ c with replies := c.replies ++ [packet] }).iterate conn s
            (.recv (.ok (some packet))))
        else none
    | .insert packet =>
      if isTypedReply packet.ptype ∧
          ∀ cmd ∈ c.outstanding.head?, cmd.pendingReply.expects packet.ptype = false then
        some (({ c with inserted := c.inserted ++ [(s, (handleIncoming packet s).1)] }).iterate
          conn s (.recv (.ok (some packet))))
      else none
    | .other packet =>
      if isReply packet.ptype then none else some (c.iterate conn s (.recv (.ok (some packet))))
    | .close pkt =>
      match pkt with
      | .ok (some _) => none
      | pkt => some (c.iterate conn s (.recv pkt))
    | .leave io => some (c.iterate conn s (.command none io))

/-- Nothing is taken away: every inserted packet left the requests and the
subscribers as they were, every answered caller has the reply to its own request,
and as long as the connection is up nobody else has been told anything and the
other requests wait. -/
structure Intact (c : Exchange) : Prop where
  ignored : ∀ x ∈ c.inserted, x.1 = x.2
  answered : ∀ (n : Nat) (packet : Packet), c.replies[n]? = some packet → ∃ cmd : ClientCommand,
    c.sent[n]? = some cmd ∧ (resolutions c.log)[n]? = some (cmd.reply, cmd.outcome packet)
  only : ∀ conn s, c.loop = some (conn, s) → (resolutions c.log).length = c.replies.length
  waiting : ∀ conn s, c.loop = some (conn, s) →
    s.pending = c.outstanding.map ClientCommand.pendingReply

/-- What is inserted arrives with nothing outstanding. -/
def Idle (c : Exchange) (act : ExchangeAct) : Prop :=
  ∀ packet, act = .insert packet → c.outstanding = []

/-! ## What one act does -/

theorem iterate_next {c : Exchange} {conn conn' : Connection} {s s' : LoopState} {i : LoopInput}
    {es : List Effect} (h : actorLoop conn s i = (.next conn' s', es)) :
    c.iterate conn s i =
      { c with loop := some (conn', s'), sent := c.sent ++ i.taken, log := c.log ++ es } := by
  rw [iterate, h]

/-- The invariant of the runs in which nothing is inserted out of turn. -/
structure Inv (c : Exchange) : Prop where
  wellFormed : ∀ cmd ∈ c.sent, cmd.wellFormed = true
  replies_le : c.replies.length ≤ c.sent.length
  intact : c.Intact

theorem inv_start : start.Inv where
  wellFormed cmd h := by cases h
  replies_le := Nat.le_refl _
  intact :=
    { ignored := fun x h => by cases h
      answered := fun n packet h => by cases h
      only := fun conn s _ => rfl
      waiting := fun conn s h => by cases h; rfl }

/-- An iteration that reads no reply. -/
theorem Inv.iterate {c : Exchange} (hc : c.Inv) {conn : Connection} {s : LoopState}
    (hloop : c.loop = some (conn, s)) {i : LoopInput}
    (hi : ∀ packet, i = .recv (.ok (some packet)) → isReply packet.ptype = false)
    (hwf : ∀ cmd ∈ i.taken, cmd.wellFormed = true) : (c.iterate conn s i).Inv := by
  have honly := hc.intact.only conn s hloop
  have hwaiting := hc.intact.waiting conn s hloop
  have hquiet := (actorLoop_quiet conn s hi).2
  have hanswered : ∀ (sent : List ClientCommand) (es : List Effect) (n : Nat) (packet : Packet),
      c.replies[n]? = some packet → ∃ cmd : ClientCommand,
        (c.sent ++ sent)[n]? = some cmd ∧
          (resolutions (c.log ++ es))[n]? = some (cmd.reply, cmd.outcome packet) := by
    intro sent es n packet hpacket
    obtain ⟨cmd, hcmd, hres⟩ := hc.intact.answered n packet hpacket
    refine ⟨cmd, ?_, ?_⟩
    · rw [List.getElem?_append_left (List.getElem?_eq_some_iff.mp hcmd).1, hcmd]
    · rw [resolutions_append, List.getElem?_append_left (List.getElem?_eq_some_iff.mp hres).1,
        hres]
  unfold Exchange.iterate
  rcases hflow : actorLoop conn s i with ⟨⟨conn', s'⟩ | outcome, es⟩
  · obtain ⟨hpending, hnone⟩ := hquiet conn' s' (by rw [hflow])
    rw [hflow] at hnone
    refine ⟨?_, ?_, hc.intact.ignored, hanswered i.taken es, fun conn s h => ?_, fun conn s h => ?_⟩
    · intro cmd hcmd
      rcases List.mem_append.mp hcmd with hcmd | hcmd
      · exact hc.wellFormed cmd hcmd
      · exact hwf cmd hcmd
    · rw [List.length_append]
      exact Nat.le_add_right_of_le hc.replies_le
    · rw [resolutions_append, hnone, List.append_nil]
      exact honly
    · cases h
      rw [hpending, hwaiting, outstanding, outstanding,
        List.drop_append_of_le_length hc.replies_le, List.map_append]
  · refine ⟨hc.wellFormed, hc.replies_le, hc.intact.ignored, ?_, (fun conn s h => by cases h),
      fun conn s h => by cases h⟩
    simpa only [List.append_nil] using hanswered [] es

/-- The answer to the oldest outstanding request reaches its caller. -/
theorem Inv.reply {c : Exchange} (hc : c.Inv) {conn : Connection} {s : LoopState}
    (hloop : c.loop = some (conn, s)) {cmd : ClientCommand} {rest : List ClientCommand}
    (hcmd : c.outstanding = cmd :: rest) {packet : Packet}
    (hanswers : answers cmd.packet.ptype packet = true) :
    (({ c with replies := c.replies ++ [packet] }).iterate conn s
      (.recv (.ok (some packet)))).Inv := by
  have hat : c.sent[c.replies.length]? = some cmd := by
    rw [← List.head?_drop, ← outstanding, hcmd, List.head?_cons]
  obtain ⟨hlt, hget⟩ := List.getElem?_eq_some_iff.mp hat
  have hwf := hc.wellFormed cmd (hget ▸ List.getElem_mem hlt)
  have hrest : c.sent.drop (c.replies.length + 1) = rest := by
    rw [← List.tail_drop, ← outstanding, hcmd, List.tail_cons]
  have honly := hc.intact.only conn s hloop
  have hpending := hc.intact.waiting conn s hloop
  rw [hcmd, List.map_cons] at hpending
  have hanswer := PendingReply.answer_eq_outcome hwf hanswers
  rcases handleIncoming_reply (isReply_of_answers hanswers) hpending with
    ⟨answer, hsome, hincoming⟩ | ⟨hnone, -⟩
  · obtain rfl : cmd.outcome packet = answer := Option.some.inj (hanswer.symm.trans hsome)
    have hloop' : actorLoop conn s (.recv (.ok (some packet))) =
        (.next conn ⟨rest.map ClientCommand.pendingReply, cmd.pendingReply.join packet s.jobs⟩,
          [.replied cmd.reply (cmd.outcome packet)]) := by
      rw [actorLoop, hincoming, ClientCommand.reply_pendingReply]
    rw [iterate_next hloop']
    simp only [LoopInput.taken, List.append_nil]
    refine ⟨hc.wellFormed, ?_, hc.intact.ignored, fun n packet' hn => ?_, fun conn s h => ?_,
      fun conn s h => ?_⟩
    · rw [List.length_append]
      exact hlt
    · rcases Nat.lt_trichotomy n c.replies.length with hn' | rfl | hn'
      · rw [List.getElem?_append_left hn'] at hn
        obtain ⟨cmd', hcmd', hres⟩ := hc.intact.answered n packet' hn
        refine ⟨cmd', hcmd', ?_⟩
        rw [resolutions_append, List.getElem?_append_left (honly ▸ hn'), hres]
      · rw [List.getElem?_concat_length] at hn
        cases hn
        refine ⟨cmd, hat, ?_⟩
        rw [resolutions_append, ← honly]
        exact List.getElem?_concat_length
      · rw [List.getElem?_eq_none (by rw [List.length_append]; exact hn')] at hn
        cases hn
    · rw [resolutions_append, List.length_append, List.length_append, honly]
      rfl
    · cases h
      simp only [outstanding, List.length_append, List.length_singleton, hrest]
  · cases hanswer.symm.trans hnone

/-- A packet of a type the oldest request does not expect takes it away. -/
theorem handleIncoming_unfit {packet : Packet} {s : LoopState} {oldest : PendingReply}
    {pending : List PendingReply} (htype : isTypedReply packet.ptype = true)
    (hunfit : oldest.expects packet.ptype = false) (hs : s.pending = oldest :: pending) :
    ∃ message, handleIncoming packet s =
      (⟨pending, s.jobs⟩, [.dropped oldest.reply, .warn message]) := by
  rcases handleIncoming_reply (isReply_of_isTypedReply htype) hs with ⟨answer, hanswer, -⟩ | ⟨-, h⟩
  · unfold PendingReply.answer at hanswer
    split at hanswer <;> rename_i hptype
    · rw [hptype] at htype
      cases htype
    · rw [hptype] at hunfit
      cases hunfit
    · rw [hptype] at hunfit
      cases hunfit
    · rw [hptype] at hunfit
      cases hunfit
    · cases hanswer
  · exact h

/-- With nothing outstanding an inserted packet is ignored. -/
theorem Inv.insert {c : Exchange} (hc : c.Inv) {conn : Connection} {s : LoopState}
    (hloop : c.loop = some (conn, s)) {packet : Packet}
    (htype : isTypedReply packet.ptype = true) (hidle : c.outstanding = []) :
    (({ c with inserted := c.inserted ++ [(s, (handleIncoming packet s).1)] }).iterate conn s
      (.recv (.ok (some packet)))).Inv := by
  have hpending := hc.intact.waiting conn s hloop
  rw [hidle, List.map_nil] at hpending
  obtain ⟨message, hincoming⟩ :=
    handleIncoming_unexpected (isReply_of_isTypedReply htype) hpending
  have hloop' : actorLoop conn s (.recv (.ok (some packet))) = (.next conn s, [.warn message]) := by
    rw [actorLoop, hincoming]
  have hres : resolutions (c.log ++ [.warn message]) = resolutions c.log := by
    rw [resolutions_append]
    exact List.append_nil _
  rw [iterate_next hloop', hincoming]
  simp only [LoopInput.taken, List.append_nil]
  refine ⟨hc.wellFormed, hc.replies_le, fun x hx => ?_, fun n packet' hn => ?_,
    fun conn' s' h => ?_, fun conn' s' h => ?_⟩
  · rcases List.mem_append.mp hx with hx | hx
    · exact hc.intact.ignored x hx
    · rw [List.mem_singleton.mp hx]
  · rw [hres]
    exact hc.intact.answered n packet' hn
  · rw [hres]
    exact hc.intact.only conn s hloop
  · cases h
    exact hc.intact.waiting conn s hloop

@[simp] theorem inserted_iterate (c : Exchange) (conn : Connection) (s : LoopState)
    (i : LoopInput) : (c.iterate conn s i).inserted = c.inserted := by
  unfold iterate
  split <;> rfl

/-- What an act does, and what it needs. -/
inductive Steps (c : Exchange) (conn : Connection) (s : LoopState) : ExchangeAct → Exchange → Prop
  /-- An iteration that reads no reply. -/
  | iterate {act : ExchangeAct} (i : LoopInput)
      (hi : ∀ packet, i = .recv (.ok (some packet)) → isReply packet.ptype = false)
      (hwf : ∀ cmd ∈ i.taken, cmd.wellFormed = true) (hact : ∀ packet, act ≠ .insert packet) :
      Steps c conn s act (c.iterate conn s i)
  | reply {packet : Packet} {cmd : ClientCommand} {rest : List ClientCommand}
      (hcmd : c.outstanding = cmd :: rest) (hanswers : answers cmd.packet.ptype packet = true) :
      Steps c conn s (.reply packet) (({ c with replies := c.replies ++ [packet] }).iterate conn s
        (.recv (.ok (some packet))))
  | insert {packet : Packet} (htype : isTypedReply packet.ptype = true)
      (hunfit : ∀ cmd ∈ c.outstanding.head?, cmd.pendingReply.expects packet.ptype = false) :
      Steps c conn s (.insert packet)
        (({ c with inserted := c.inserted ++ [(s, (handleIncoming packet s).1)] }).iterate conn s
          (.recv (.ok (some packet))))

theorem steps_of_step {c c' : Exchange} {act : ExchangeAct} (h : c.step act = some c') :
    ∃ conn s, c.loop = some (conn, s) ∧ c.Steps conn s act c' := by
  rcases hloop : c.loop with _ | ⟨conn, s⟩
  · rw [step, hloop] at h
    cases h
  · refine ⟨conn, s, rfl, ?_⟩
    rw [step, hloop] at h
    cases act with
    | command cmd io =>
      obtain ⟨hwf, h⟩ := Option.ite_none_right_eq_some.mp h
      cases h
      refine .iterate _ (fun packet h => by cases h) (fun cmd' hcmd' => ?_)
        fun packet h => by cases h
      obtain rfl := List.mem_singleton.mp hcmd'
      exact hwf
    | tick closed =>
      cases h
      exact .iterate _ (fun packet h => by cases h) (fun cmd h => by cases h)
        fun packet h => by cases h
    | reply packet =>
      rcases hcmd : c.outstanding with _ | ⟨cmd, rest⟩
      · simp only [hcmd, reduceCtorEq] at h
      · simp only [hcmd] at h
        obtain ⟨hanswers, h⟩ := Option.ite_none_right_eq_some.mp h
        cases h
        exact .reply hcmd hanswers
    | insert packet =>
      obtain ⟨⟨htype, hunfit⟩, h⟩ := Option.ite_none_right_eq_some.mp h
      cases h
      exact .insert htype hunfit
    | other packet =>
      obtain ⟨hother, h⟩ := Option.ite_none_left_eq_some.mp h
      cases h
      refine .iterate _ (fun packet' h => ?_) (fun cmd h => by cases h) fun packet h => by cases h
      cases h
      exact Bool.not_eq_true _ ▸ hother
    | close pkt =>
      rcases pkt with _ | _ | packet <;> cases h <;>
        exact .iterate _ (fun packet h => by cases h) (fun cmd h => by cases h)
          fun packet h => by cases h
    | leave io =>
      cases h
      exact .iterate _ (fun packet h => by cases h) (fun cmd h => by cases h)
        fun packet h => by cases h

theorem inv_step {c c' : Exchange} {act : ExchangeAct} (hc : c.Inv) (hidle : c.Idle act)
    (h : c.step act = some c') : c'.Inv := by
  obtain ⟨conn, s, hloop, hsteps⟩ := steps_of_step h
  cases hsteps with
  | iterate i hi hwf _ => exact hc.iterate hloop hi hwf
  | reply hcmd hanswers => exact hc.reply hloop hcmd hanswers
  | insert htype _ => exact hc.insert hloop htype (hidle _ rfl)

/-- What an inserted packet has changed once stays on record. -/
theorem inserted_step {c c' : Exchange} {act : ExchangeAct} (h : c.step act = some c') :
    c.inserted ⊆ c'.inserted := by
  obtain ⟨conn, s, -, hsteps⟩ := steps_of_step h
  cases hsteps with
  | iterate | reply => exact (inserted_iterate _ _ _ _).symm ▸ List.Subset.refl _
  | insert => exact (inserted_iterate _ _ _ _).symm ▸ List.subset_append_left _ _

/-- A packet inserted while a request waits takes it off the queue. -/
theorem inserted_unfit {c c' : Exchange} {act : ExchangeAct} (hc : c.Inv) (hidle : ¬ c.Idle act)
    (h : c.step act = some c') : ∃ x ∈ c'.inserted, x.1 ≠ x.2 := by
  obtain ⟨conn, s, hloop, hsteps⟩ := steps_of_step h
  cases hsteps with
  | iterate i hi hwf hact => exact absurd (fun packet h => absurd h (hact packet)) hidle
  | reply => exact absurd (fun packet h => by cases h) hidle
  | @insert packet htype hunfit =>
    rcases hcmd : c.outstanding with _ | ⟨cmd, rest⟩
    · exact absurd (fun _ _ => hcmd) hidle
    · have hpending := hc.intact.waiting conn s hloop
      rw [hcmd, List.map_cons] at hpending
      have hunfit := hunfit cmd (by rw [hcmd]; rfl)
      obtain ⟨message, hincoming⟩ := handleIncoming_unfit htype hunfit hpending
      refine ⟨(s, (handleIncoming packet s).1), ?_, fun heq => ?_⟩
      · rw [inserted_iterate]
        exact List.mem_append_right _ List.mem_cons_self
      · rw [hincoming] at heq
        rw [show s = _ from heq] at hpending
        exact List.cons_ne_self _ _ hpending.symm

/-- As long as inserted packets arrive with nothing outstanding the invariant
holds. After one that does not, what it has changed stays on record. -/
theorem inv_run {acts : List ExchangeAct} {c : Exchange}
    (h : Machine.run step start acts = some c) :
    (Machine.Meets step Idle start acts ∧ c.Inv) ∨
      (¬ Machine.Meets step Idle start acts ∧ ∃ x ∈ c.inserted, x.1 ≠ x.2) := by
  apply Machine.run_induction (P := fun acts c =>
    (Machine.Meets step Idle start acts ∧ c.Inv) ∨
      (¬ Machine.Meets step Idle start acts ∧ ∃ x ∈ c.inserted, x.1 ≠ x.2)) _ _ h
  · exact .inl ⟨trivial, inv_start⟩
  · rintro acts c act c' hrun (⟨hmeets, hc⟩ | ⟨hmeets, x, hx, hne⟩) hstep
    · by_cases hidle : c.Idle act
      · exact .inl ⟨(Machine.meets_concat hrun).mpr ⟨hmeets, hidle⟩, inv_step hc hidle hstep⟩
      · exact .inr ⟨fun h => hidle ((Machine.meets_concat hrun).mp h).2,
          inserted_unfit hc hidle hstep⟩
    · exact .inr ⟨fun h => hmeets ((Machine.meets_concat hrun).mp h).1, x,
        inserted_step hstep hx, hne⟩

/-- **Inserted replies.** A run in which the server answers every request in
order takes nothing away from anyone exactly if each further `JOB_CREATED`,
`STATUS_RES` and `STATUS_RES_UNIQUE` arrives while nothing is outstanding. -/
theorem intact_iff_idle {acts : List ExchangeAct} {c : Exchange}
    (h : Machine.run step start acts = some c) :
    c.Intact ↔ Machine.Meets step Idle start acts := by
  rcases inv_run h with ⟨hmeets, hc⟩ | ⟨hmeets, x, hx, hne⟩
  · exact ⟨fun _ => hmeets, fun _ => hc.intact⟩
  · exact ⟨fun hc => absurd (hc.ignored x hx) hne, fun h => absurd h hmeets⟩

/-- A `STATUS_RES` ahead of the submit, which is then answered. -/
def strayRun : List ExchangeAct :=
  [.insert (.response .statusRes []), .command ((submit "f" none [] .foreground).command 0 0)
    .accepted, .reply (.response .jobCreated [asBytes "H"])]

theorem intact_iff_idle_strayRun :
    ∃ c, Machine.run step start strayRun = some c ∧ resolutions c.log = [(0, .handle "H")] ∧
      c.Intact := by
  have hrun : Machine.run step start strayRun = some _ := rfl
  refine ⟨_, hrun, by decide, (intact_iff_idle hrun).mpr ?_⟩
  exact .cons (fun _ _ => rfl) rfl (.cons (fun _ h => by cases h) rfl
    (.cons (fun _ h => by cases h) rfl trivial))

/-- The same `STATUS_RES` while the submit waits. -/
def stolenRun : List ExchangeAct :=
  [.command ((submit "f" none [] .foreground).command 0 0) .accepted,
    .insert (.response .statusRes []), .reply (.response .jobCreated [asBytes "H"])]

/-- The connection is up, the server has created the job, and the caller was told
`ConnectionClosed`. -/
theorem inserted_takes_reply :
    ∃ c, Machine.run step start stolenRun = some c ∧ c.loop.isSome = true ∧
      c.replies = [.response .jobCreated [asBytes "H"]] ∧
      resolutions c.log = [(0, .error .connectionClosed)] ∧ ¬c.Intact := by
  refine ⟨_, rfl, rfl, rfl, by decide, fun hc => ?_⟩
  have hnone := congrArg LoopState.pending (hc.ignored _ List.mem_cons_self)
  exact absurd hnone (by decide)

end Exchange

end Gearman.Client

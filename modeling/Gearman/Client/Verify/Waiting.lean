import Gearman.Client.Verify.Results

/-!
# No call is left waiting

A call that is under way can go on, or its command is in the queue of its
server, or its request or its event channel is held by the connection that its
server's actor has. So when that connection is lost every call that waited on it
can go on, and ends.

Handles are local to their server. As long as callers only ask for the handles
that this client gave them, every status query goes to the server that issued
the handle.
-/

namespace Gearman.Client

open Protocol

namespace ClientRun

variable {withExceptions : Bool} {r r' : ClientRun} {k : Nat}

/-! ## Who is waited for -/

/-- The call waits for its server: its command is queued there, its request is pending on
the connection that is up, or its event channel is subscribed there. -/
def Awaited (r : ClientRun) (id : Nat) (call : Call) : Prop :=
  match call.pc with
  | .waiting k =>
    ∃ s cmd, r.servers[k]? = some s ∧ cmd.reply = id ∧
      (cmd ∈ s.server.actor.queue ∨ ∃ conn l, s.server.actor.phase = .looping conn l ∧
        cmd.pendingReply ∈ l.pending)
  | .streaming handle _ =>
    ∃ s conn l, r.servers[handle.serverIndex]? = some s ∧
      s.server.actor.phase = .looping conn l ∧ some id ∈ (l.jobs.of handle.handle).slots
  | _ => False

end ClientRun

/-- The step is one of call `id` itself. -/
def ClientAct.advances (id : Nat) : ClientAct → Bool
  | .pick i _ | .send i | .reply i | .next i => i = id
  | _ => false

namespace ClientRun

variable {withExceptions : Bool} {r : ClientRun} {k : Nat} {s : StreamRun} {id : Nat}
  {request : Request} {cmd : ClientCommand}

/-- The call has a step. -/
def Goes (withExceptions : Bool) (r : ClientRun) (id : Nat) : Prop :=
  ∃ act, act.advances id = true ∧ (r.step withExceptions act).isSome = true

/-- A call that has not queued its command yet is known to no server. -/
theorem not_submitted (hr : r.Inv) (hat : r.servers[k]? = some s) {pc : CallPc}
    (hcall : r.calls[id]? = some ⟨request, pc⟩) (hpc : ¬pc.Sent) :
    ∀ cmd ∈ s.server.submitted, cmd.reply ≠ id ∧ id ∉ cmd.streams := by
  intro cmd hcmd
  obtain ⟨call, hj, hmakes, hsent⟩ := hr.owner k s hat cmd hcmd
  have hne : cmd.reply ≠ id := by
    rintro rfl
    rw [hj] at hcall
    cases hcall
    exact hpc hsent
  exact ⟨hne, fun hstream => hne (hmakes.streams id hstream).symm⟩

theorem goes_sending (hr : r.Inv) (hheld : r.Held)
    (hcall : r.calls[id]? = some ⟨request, .sending k cmd⟩) : r.Goes withExceptions id := by
  refine ⟨.send id, ?_⟩
  cases hat : r.servers[k]? with
  | none => exact ⟨decide_eq_true rfl, by simp only [step, hcall, hat, Option.isSome_some]⟩
  | some s =>
    have hsenders : s.server.actor.senders = true :=
      hheld.senders (hheld.alive _ (List.mem_of_getElem? hcall) rfl) k s hat
    have hnew := not_submitted hr hat hcall (fun h => h)
    have hmakes := (hr.good id _ hcall).1
    have hfresh : s.server.Fresh (.queue cmd) ∧ s.Fresh (.queue cmd) := by
      refine ⟨fun c hc hmem => ?_, fun c hc t ht hmem => ?_⟩
      · obtain rfl := List.mem_singleton.mp hc
        obtain ⟨old, hold, hreply⟩ := List.mem_map.mp hmem
        exact (hnew old hold).1 (hreply.trans hmakes.reply)
      · obtain rfl := List.mem_singleton.mp hc
        obtain ⟨old, hold, hstream⟩ := List.mem_flatMap.mp hmem
        exact (hnew old hold).2 (hmakes.streams t ht ▸ hstream)
    obtain ⟨s', hs'⟩ : ∃ s', s.advance withExceptions (.queue cmd) = some s' := by
      let actor : Actor := { s.server.actor with queue := s.server.actor.queue ++ [cmd] }
      refine ⟨s.after (.queue cmd) actor [], ?_⟩
      rw [StreamRun.advance, if_pos hfresh, Actor.step, if_pos hsenders]
      rfl
    refine ⟨decide_eq_true rfl, ?_⟩
    cases hphase : s.server.actor.phase <;>
      simp only [step, StreamRun.step, hcall, hat, hphase, hs', Option.map_some,
        Option.isSome_some]

/-- A reply is of the kind that its call asked for. -/
theorem onReply_of_answer {packet : Packet} {answer : Answer} (hmakes : request.Makes id k cmd)
    (h : cmd.pendingReply.answer packet = some answer) :
    ∃ pc, request.onReply k id answer = some pc := by
  unfold PendingReply.answer at h
  split at h
  · cases h
    cases request <;> exact ⟨_, rfl⟩
  all_goals cases h
  all_goals
    cases hmakes with
    | submit | foreground | status =>
      first
        | exact ⟨_, rfl⟩
        | (rename_i hpending; cases hpending)
    | statusUnique h =>
      obtain ⟨unique, -, rfl⟩ := getStatusUnique_eq_ok h
      first
        | exact ⟨_, rfl⟩
        | (rename_i hpending; cases hpending)

theorem goes_replied (hr : r.Inv) (hat : r.servers[k]? = some s)
    (hcall : r.calls[id]? = some ⟨request, .waiting k⟩) (hmakes : request.Makes id k cmd)
    (hqueued : cmd ∈ s.server.submitted) (h : id ∈ s.server.resolved) :
    r.Goes withExceptions id := by
  obtain ⟨hinv, hspoken⟩ := hr.sound k s hat
  obtain ⟨⟨j, found⟩, hx, rfl⟩ := List.mem_map.mp h
  obtain ⟨answer, hanswer⟩ : ∃ answer, (resolutions s.server.log).lookup j = some answer :=
    Option.isSome_iff_exists.mp (List.lookup_isSome_iff.mpr ⟨_, hx, beq_self_eq_true _⟩)
  have hreplied : (j, answer) ∈ resolutions s.server.log := by
    obtain ⟨before, after, hsplit, -⟩ := List.lookup_eq_some_iff.mp hanswer
    rw [hsplit]
    exact List.mem_append_right _ List.mem_cons_self
  obtain ⟨cmd', hqueued', hreply, talk, -, hfrom⟩ := hspoken.answered _ hreplied
  obtain rfl : cmd = cmd' :=
    List.inj_on_of_nodup_map hinv.server.fresh hqueued hqueued' (hmakes.reply.trans hreply.symm)
  obtain ⟨pc, hpc⟩ : ∃ pc, request.onReply k j answer = some pc := by
    cases hfrom with
    | replied _ h => exact onReply_of_answer hmakes h
    | mismatched _ _ | unsent _ _ _ | lost _ _ => cases request <;> exact ⟨_, rfl⟩
  refine ⟨.reply j, decide_eq_true rfl, ?_⟩
  simp only [step, hcall, hat, hanswer, hpc, Option.bind_some, Option.map_some,
    Option.isSome_some]

theorem waiting_awaited (hr : r.Inv) (hcall : r.calls[id]? = some ⟨request, .waiting k⟩) :
    r.Goes withExceptions id ∨ r.Awaited id ⟨request, .waiting k⟩ := by
  obtain ⟨s, cmd, hat, hmakes, hqueued⟩ := hr.good id _ hcall
  have hinv := (hr.sound k s hat).1
  have hplace := hinv.server.places.mem_iff.mpr
    (List.mem_map_of_mem (f := ClientCommand.reply) hqueued)
  rcases List.mem_append.mp hplace with hplace | hresolved
  · right
    rcases List.mem_append.mp hplace with hplace | hplace
    · obtain ⟨c, hc, hreply⟩ := List.mem_map.mp hplace
      exact ⟨s, c, hat, hreply.trans hmakes.reply, .inl hc⟩
    · obtain ⟨p, hp, hreply⟩ := List.mem_map.mp hplace
      obtain ⟨c, -, rfl⟩ := hinv.waiting p hp
      rw [c.reply_pendingReply] at hreply
      refine ⟨s, c, hat, hreply.trans hmakes.reply, .inr ?_⟩
      unfold Actor.pending at hp
      split at hp
      · exact ⟨_, _, ‹_›, hp⟩
      · cases hp
  · rw [hmakes.reply] at hresolved
    exact .inl (goes_replied hr hat hcall hmakes hqueued hresolved)

/-- The event channel of a job is where its handle is subscribed. -/
theorem slot_of_holdsSender (hr : r.Inv) (hat : r.servers[k]? = some s) {handle : String}
    (hreplied : id ∈ s.server.resolved) (h : s.HoldsSender id handle) :
    ∃ conn l, s.server.actor.phase = .looping conn l ∧ some id ∈ (l.jobs.of handle).slots := by
  have hinv := (hr.sound k s hat).1
  have hnodup := List.nodup_append.mp (hinv.server.places.nodup_iff.mpr hinv.server.fresh)
  have waits : ∀ cmd ∈ s.server.submitted, id ∈ cmd.streams →
      cmd.reply ∉ s.server.actor.queue.map ClientCommand.reply ++
        s.server.actor.pending.map PendingReply.reply := by
    intro cmd hcmd hstream hwaits
    obtain ⟨call, -, hmakes, -⟩ := hr.owner k s hat cmd hcmd
    exact hnodup.2.2 _ hwaits _ hreplied (hmakes.streams id hstream).symm
  rcases h with h | h | h
  · obtain ⟨cmd, hcmd, hstream⟩ := List.mem_flatMap.mp h
    exact absurd (List.mem_append_left _ (List.mem_map_of_mem hcmd))
      (waits cmd (hinv.mem_submitted_of_queue hcmd) hstream)
  · obtain ⟨p, hp, hstream⟩ := List.mem_flatMap.mp h
    obtain ⟨cmd, hcmd, rfl⟩ := hinv.waiting p hp
    have hstreams : cmd.pendingReply.streams = cmd.streams := by
      cases cmd with
      | submit packet reply events => cases events <;> rfl
      | _ => rfl
    have hmem := List.mem_map_of_mem (f := PendingReply.reply) hp
    rw [cmd.reply_pendingReply] at hmem
    exact absurd (List.mem_append_right _ hmem) (waits cmd hcmd (hstreams ▸ hstream))
  · unfold Actor.jobs at h
    split at h
    · exact ⟨_, _, ‹_›, h⟩
    · cases h

theorem streaming_awaited (hr : r.Inv) {handle : JobHandle} {taken : Nat}
    (hcall : r.calls[id]? = some ⟨request, .streaming handle taken⟩) :
    r.Goes withExceptions id ∨ r.Awaited id ⟨request, .streaming handle taken⟩ := by
  obtain ⟨s, talk, function, unique, payload, hat, -, htalk, hgave, -⟩ := hr.good id _ hcall
  have hreplied := (hr.sound _ s hat).2.told_of_gave htalk hgave
  by_cases hready : ((s.yields id)[taken]?).isNone ∧ s.HoldsSender id handle.handle
  · right
    obtain ⟨conn, l, hphase, hslot⟩ := slot_of_holdsSender hr hat
      (List.mem_map_of_mem (f := Prod.fst) hreplied) hready.2
    exact ⟨s, conn, l, hat, hphase, hslot⟩
  · left
    refine ⟨.next id, decide_eq_true rfl, ?_⟩
    simp only [step, hcall, hat, Option.bind_some, if_neg hready, Option.isSome_some]

/-- **No call is left waiting.** In every state of every run each call is over, or has a
step, or is waited for by its server: its command is queued there, or the server's actor
has a connection that holds its request or its event channel. -/
theorem no_call_left_waiting (withExceptions : Bool) {servers : Nat} {acts : List ClientAct}
    {r : ClientRun} (h : Machine.run (step withExceptions) (start servers) acts = some r)
    (id : Nat) (call : Call) (hcall : r.calls[id]? = some call) :
    settled call = true ∨ r.Goes withExceptions id ∨ r.Awaited id call := by
  obtain ⟨hheld, hr⟩ := inv_run h
  obtain ⟨request, pc⟩ := call
  cases pc with
  | picking s =>
    refine .inr (.inl ⟨.pick id none, decide_eq_true rfl, ?_⟩)
    simp only [step, hcall, Option.isSome_some]
  | sending k cmd => exact .inr (.inl (goes_sending hr hheld hcall))
  | waiting k => exact .inr (waiting_awaited hr hcall)
  | streaming handle taken => exact .inr (streaming_awaited hr hcall)
  | returned _ | panicked | dropped => exact .inl rfl

/-- A call that waits for the result of a job whose connection is up. -/
theorem no_call_left_waiting_echoRun :
    ∃ r, Machine.run (step false) (start 1) (echoRun.take 9) = some r ∧
      r.calls = [⟨submitFg "echo" [7], .streaming ⟨0, "H", none⟩ 0⟩] ∧
      (r.Goes false 0 ∨ r.Awaited 0 ⟨submitFg "echo" [7], .streaming ⟨0, "H", none⟩ 0⟩) := by
  have hrun : Machine.run (step false) (start 1) (echoRun.take 9) = some _ := rfl
  refine ⟨_, hrun, rfl, ?_⟩
  rcases no_call_left_waiting false hrun 0 _ rfl with hover | h
  · cases hover
  · exact h

/-! ## Status queries -/

/-- Callers ask for the status of jobs that this client has submitted. -/
def Own (r : ClientRun) : ClientAct → Prop
  | .call (.status handle) | .call (.statusUnique handle) =>
    ∃ call ∈ r.calls, ∃ job, call.pc = .returned (.ok (.submitted job)) ∧ job.handle = handle
  | _ => True

/-- The server the handle names gave it to a submission of this client with the handle's
unique id. -/
def Issued (r : ClientRun) (handle : JobHandle) : Prop :=
  ∃ s talk, r.servers[handle.serverIndex]? = some s ∧ talk ∈ s.talks ∧
    ∃ (sub : Submission) (id : Nat), talk.Gave (sub.command id id) handle.handle ∧
      sub.unique = handle.unique

theorem Issued.mono {r' : ClientRun} {handle : JobHandle} (hg : r.Grows r')
    (h : r.Issued handle) : r'.Issued handle := by
  obtain ⟨s, talk, hat, htalk, sub, id, hgave, hunique⟩ := h
  obtain ⟨s', hat', hext⟩ := hg.servers _ s hat
  obtain ⟨talk', htalk', hgt⟩ := hext.talks talk htalk
  exact ⟨s', talk', hat', htalk', sub, id, hgave.mono hgt, hunique⟩

/-- Only a new call brings a new request. -/
theorem request_of_steps {r' : ClientRun} {act : ClientAct} {call' : Call}
    (h : r.Steps withExceptions act r') (hcall' : call' ∈ r'.calls) :
    (∃ call ∈ r.calls, call.request = call'.request) ∨ act = .call call'.request := by
  have set : ∀ {id : Nat} {old : Call} {pc : CallPc}, r.calls[id]? = some old →
      call' ∈ r.calls.set id { old with pc := pc } →
      ∃ call ∈ r.calls, call.request = call'.request := by
    intro id old pc hold hmem
    rcases List.mem_or_eq_of_mem_set hmem with hmem | rfl
    · exact ⟨call', hmem, rfl⟩
    · exact ⟨old, List.mem_of_getElem? hold, rfl⟩
  cases h with
  | call _ =>
    rcases List.mem_append.mp hcall' with hmem | hmem
    · exact .inl ⟨call', hmem, rfl⟩
    · rw [List.mem_singleton.mp hmem]
      exact .inr rfl
  | unpicked hcall | picked hcall _ | panic hcall _ | refuse hcall _ _ | send hcall _ _
  | reply hcall _ _ _ | event hcall _ _ _ | result hcall _ _ _ | ended hcall _ _ _
  | drop hcall _ => exact .inl (set hcall hcall')
  | dropEvents _ | dropClient _ | server _ _ _ => exact .inl ⟨call', hcall', rfl⟩

/-- Every handle asked for has been issued. -/
def AsksOwn (r : ClientRun) : Prop :=
  ∀ call ∈ r.calls, ∀ handle, call.request = .status handle ∨ call.request = .statusUnique handle →
    r.Issued handle

theorem issued_of_submitted (hr : r.Inv) {call : Call} (hcall : call ∈ r.calls)
    {job : SubmittedJob} (hpc : call.pc = .returned (.ok (.submitted job))) :
    r.Issued job.handle := by
  obtain ⟨id, hid⟩ := List.getElem?_of_mem hcall
  have hgood := hr.good id call hid
  obtain ⟨request, pc⟩ := call
  obtain rfl : pc = _ := hpc
  cases hgood with
  | @submitted k s talk sub handle hat htalk hgave =>
    exact ⟨s, talk, hat, htalk, sub, id, hgave, rfl⟩

theorem asksOwn_step {r' : ClientRun} {act : ClientAct} (hr : (r.Held ∧ r.Inv) ∧ r.AsksOwn)
    (hown : r.Own act) (h : r.step withExceptions act = some r') :
    (r'.Held ∧ r'.Inv) ∧ r'.AsksOwn := by
  obtain ⟨⟨hheld, hinv⟩, hasks⟩ := hr
  have hsteps := steps_of_step h
  have hg := grows_of_steps hinv hsteps
  refine ⟨⟨held_step hheld h, inv_step hheld hinv h⟩, fun call' hcall' handle hrequest => ?_⟩
  rcases request_of_steps hsteps hcall' with ⟨call, hcall, heq⟩ | rfl
  · exact (hasks call hcall handle (heq ▸ hrequest)).mono hg
  · obtain ⟨call, hcall, job, hpc, hjob⟩ : ∃ call ∈ r.calls, ∃ job,
        call.pc = .returned (.ok (.submitted job)) ∧ job.handle = handle := by
      rcases hrequest with hrequest | hrequest <;> rw [hrequest] at hown <;> exact hown
    rw [← hjob]
    exact (issued_of_submitted hinv hcall hpc).mono hg

/-- The command of a status query, and that it goes to the server its handle names. -/
theorem makes_of_query {request : Request} {id k : Nat} {cmd : ClientCommand} {handle : JobHandle}
    (h : request.Makes id k cmd)
    (hrequest : request = .status handle ∨ request = .statusUnique handle) :
    k = handle.serverIndex ∧ (request = .status handle ∧ cmd = getStatus handle id ∨
      request = .statusUnique handle ∧ getStatusUnique handle id = .ok cmd) := by
  rcases hrequest with rfl | rfl
  · cases h
    exact ⟨rfl, .inl ⟨rfl, rfl⟩⟩
  · cases h with
    | statusUnique h => exact ⟨rfl, .inr ⟨rfl, h⟩⟩

/-- **Status queries go home.** If callers ask only for handles that this client has
returned, no call ever asks for a server there is not, and for each status query the server
that the handle names has answered a submission of this client, one with the handle's unique
id, with the text of the handle. The query is the command it ought to be, it is queued at
that server and, whatever other servers call their jobs, at no other; and a call that waits
for its reply has queued it. -/
theorem status_queries_go_home (withExceptions : Bool) {servers : Nat} {acts : List ClientAct}
    {r : ClientRun} (hown : Machine.Meets (step withExceptions) Own (start servers) acts)
    (h : Machine.run (step withExceptions) (start servers) acts = some r) :
    (∀ call ∈ r.calls, call.pc ≠ .panicked) ∧
    ∀ (id : Nat) (call : Call) (handle : JobHandle), r.calls[id]? = some call →
      call.request = .status handle ∨ call.request = .statusUnique handle →
      r.Issued handle ∧
      (∀ (k : Nat) (s : StreamRun), r.servers[k]? = some s → ∀ cmd ∈ s.server.submitted,
        cmd.reply = id → k = handle.serverIndex ∧
          (call.request = .status handle ∧ cmd = getStatus handle id ∨
            call.request = .statusUnique handle ∧ getStatusUnique handle id = .ok cmd)) ∧
      ∀ k, call.pc = .waiting k → k = handle.serverIndex ∧
        ∃ s, r.servers[k]? = some s ∧ ∃ cmd ∈ s.server.submitted, cmd.reply = id := by
  have hstart : (start servers).AsksOwn := fun call hcall => absurd hcall List.not_mem_nil
  obtain ⟨⟨-, hr⟩, hasks⟩ :=
    @Machine.invariant_of_meets _ _ _ (fun r => (r.Held ∧ r.Inv) ∧ r.AsksOwn) _
      (fun _ _ _ hr hc hs => asksOwn_step hr hc hs) _ _
      ⟨⟨held_start servers, inv_start servers⟩, hstart⟩ _ hown h
  refine ⟨fun call hcall hpc => ?_, fun id call handle hcall hrequest => ⟨?_, ?_, ?_⟩⟩
  · obtain ⟨id, hid⟩ := List.getElem?_of_mem hcall
    have hgood := hr.good id call hid
    rw [Good, hpc] at hgood
    obtain ⟨handle, hrequest, hlength⟩ := hgood
    obtain ⟨s, talk, hat, -⟩ := hasks call hcall handle hrequest
    rw [List.getElem?_eq_none hlength] at hat
    cases hat
  · exact hasks call (List.mem_of_getElem? hcall) handle hrequest
  · intro k s hat cmd hcmd hreply
    obtain ⟨owner, hcall', hmakes, -⟩ := hr.owner k s hat cmd hcmd
    rw [hreply] at hcall' hmakes
    rw [hcall] at hcall'
    cases hcall'
    exact makes_of_query hmakes hrequest
  · intro k hpc
    have hgood := hr.good id call hcall
    rw [Good, hpc] at hgood
    obtain ⟨s, cmd, hat, hmakes, hqueued⟩ := hgood
    exact ⟨(makes_of_query hmakes hrequest).1, s, hat, cmd, hqueued, hmakes.reply⟩

/-- A background job is submitted to server `k` as call `id`. -/
def submitRun (id k : Nat) : List ClientAct :=
  [.call (submitBg "echo" [7]), .server k (.actor (.connect true)), .server k (.actor .go),
    .server k (.actor .go), .pick id (some k), .send id, .server k (.actor (.command .accepted)),
    .server k (.actor (.recv (.ok (some (.response .jobCreated [asBytes "H"]))))), .reply id]

theorem own_submitRun (id k : Nat) : ∀ act ∈ submitRun id k, ∀ r, Own r act := by
  intro act hact r
  simp only [submitRun, submitBg, List.mem_cons, List.not_mem_nil, or_false] at hact
  rcases hact with rfl | rfl | rfl | rfl | rfl | rfl | rfl | rfl | rfl <;> trivial

/-- Two servers call their jobs `H`, and the second one is asked for its own. -/
theorem status_queries_go_home_twins :
    ∃ r, Machine.run (step false) (start 2)
        (submitRun 0 0 ++ submitRun 1 1 ++ [.call (.status ⟨1, "H", none⟩), .send 2]) = some r ∧
      r.Issued ⟨0, "H", none⟩ ∧ r.Issued ⟨1, "H", none⟩ ∧
      ∀ (k : Nat) (s : StreamRun), r.servers[k]? = some s → ∀ cmd ∈ s.server.submitted,
        cmd.reply = 2 → k = 1 := by
  have hfirst : Machine.run (step false) (start 2) (submitRun 0 0 ++ submitRun 1 1) = some _ := rfl
  have hrun : Machine.run (step false) (start 2)
      (submitRun 0 0 ++ submitRun 1 1 ++ [.call (.status ⟨1, "H", none⟩), .send 2]) = some _ := rfl
  have hown : Machine.Meets (step false) Own (start 2)
      (submitRun 0 0 ++ submitRun 1 1 ++ [.call (.status ⟨1, "H", none⟩), .send 2]) := by
    refine .append (Machine.meets_of_forall (fun act hact => ?_) _) hfirst ?_
    · rcases List.mem_append.mp hact with hact | hact
      · exact own_submitRun 0 0 act hact
      · exact own_submitRun 1 1 act hact
    · exact ⟨⟨_, List.mem_cons_of_mem _ (List.mem_singleton_self _), _, rfl, rfl⟩,
        fun _ _ => ⟨trivial, fun _ _ => trivial⟩⟩
  obtain ⟨-, hhome⟩ := status_queries_go_home false hown hrun
  obtain ⟨hissued, hat, -⟩ := hhome 2 _ ⟨1, "H", none⟩ rfl (.inl rfl)
  refine ⟨_, hrun, ?_, hissued, fun k s hs cmd hcmd hreply => (hat k s hs cmd hcmd hreply).1⟩
  exact ⟨_, _, rfl, List.mem_singleton_self _, submit "echo" none [7] .inBackground, 0,
    ⟨_, ⟨0, rfl, rfl⟩, rfl, by decide⟩, rfl⟩

end ClientRun

end Gearman.Client

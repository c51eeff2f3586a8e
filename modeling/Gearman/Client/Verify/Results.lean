import Gearman.Client.Verify.Calls

/-!
# Calls get what is theirs

What a call returns is what the server it went to answered the call's own
command: the handle of the `JOB_CREATED` that answered its submission, the
status of the reply that answered its query, the error that answered either. The
result of a foreground job is the event of a `WORK_*` packet for that very
handle, heard on the connection on which the job was created. A call is told
that its connection is closed only if its own connection has ended without its
answer, or without the end of its job.
-/

namespace Gearman.Client

open Protocol

/-! ## What a call may return -/

/-- The command has been queued, if it ever was to be. -/
def CallPc.Sent : CallPc → Prop
  | .picking _ | .sending _ _ => False
  | _ => True

/-- What a call may return, and why. Everything is about a talk of the server at which
the call's own command was queued. -/
inductive ClientRun.Justified (r : ClientRun) (id : Nat) :
    Request → Except GearmanError Outcome → Prop
  | submitted {k : Nat} {s : StreamRun} {talk : Talk} {sub : Submission} {handle : String}
      (hat : r.servers[k]? = some s) (htalk : talk ∈ s.talks)
      (h : talk.Gave (sub.command id id) handle) :
      Justified r id (.submit sub)
        (.ok (.submitted ⟨⟨k, handle, sub.unique⟩, if sub.background then none else some id⟩))
  | completed {k : Nat} {s : StreamRun} {talk : Talk} {function : String} {unique : Option String}
      {payload result : Bytes} {handle : String} (hat : r.servers[k]? = some s)
      (htalk : talk ∈ s.talks)
      (h : talk.Gave ((submit function unique payload .foreground).command id id) handle)
      (hsent : talk.Sent id handle (.complete result)) :
      Justified r id (.foreground function unique payload) (.ok (.result result))
  | failed {k : Nat} {s : StreamRun} {talk : Talk} {function : String} {unique : Option String}
      {payload : Bytes} {handle : String} (hat : r.servers[k]? = some s)
      (htalk : talk ∈ s.talks)
      (h : talk.Gave ((submit function unique payload .foreground).command id id) handle)
      (hsent : talk.Sent id handle .fail) :
      Justified r id (.foreground function unique payload) (.error (.jobFailed handle))
  | exception {k : Nat} {s : StreamRun} {talk : Talk} {function : String} {unique : Option String}
      {payload exception : Bytes} {handle : String} (hat : r.servers[k]? = some s)
      (htalk : talk ∈ s.talks)
      (h : talk.Gave ((submit function unique payload .foreground).command id id) handle)
      (hsent : talk.Sent id handle (.exception exception)) :
      Justified r id (.foreground function unique payload)
        (.error (.jobException handle exception))
  /-- The connection on which the job was created has ended, and not the job. -/
  | cut {k : Nat} {s : StreamRun} {talk : Talk} {function : String} {unique : Option String}
      {payload : Bytes} {handle : String} (hat : r.servers[k]? = some s)
      (htalk : talk ∈ s.talks)
      (h : talk.Gave ((submit function unique payload .foreground).command id id) handle)
      (hended : talk.ended = true) (hunfinished : ¬talk.Finished id) :
      Justified r id (.foreground function unique payload) (.error .connectionClosed)
  | status {handle : JobHandle} {s : StreamRun} {talk : Talk} {packet : Packet}
      (hat : r.servers[handle.serverIndex]? = some s) (htalk : talk ∈ s.talks)
      (h : talk.Replied (getStatus handle id) packet) (htype : packet.ptype = .statusRes) :
      Justified r id (.status handle) (.ok (.status (parseStatusRes packet)))
  | statusUnique {handle : JobHandle} {cmd : ClientCommand} {s : StreamRun} {talk : Talk}
      {packet : Packet} (hat : r.servers[handle.serverIndex]? = some s) (htalk : talk ∈ s.talks)
      (hcmd : getStatusUnique handle id = .ok cmd) (h : talk.Replied cmd packet)
      (htype : packet.ptype = .statusResUnique) :
      Justified r id (.statusUnique handle) (.ok (.status (parseStatusResUnique packet)))
  /-- The error is what the call's own command got. -/
  | refused {request : Request} {k : Nat} {s : StreamRun} {talk : Talk} {cmd : ClientCommand}
      {e : GearmanError} (hat : r.servers[k]? = some s) (htalk : talk ∈ s.talks)
      (hmakes : request.Makes id k cmd) (h : (Answer.error e).From talk cmd) :
      Justified r id request (.error e)
  | noServers {request : Request} (h : request.submission.isSome = true) :
      Justified r id request (.error .noServersAvailable)
  | noUniqueId {handle : JobHandle} (h : handle.unique = none) :
      Justified r id (.statusUnique handle) (.error (.noUniqueId handle.handle))

/-! ## Talks of one server -/

namespace StreamRun

variable {s : StreamRun} {talk : Talk}

/-- The handle that a submission was given has been passed on to its caller. -/
theorem Spoken.told_of_gave (h : s.Spoken) (htalk : talk ∈ s.talks) {sub : Submission} {id : Nat}
    {handle : String} (hgave : talk.Gave (sub.command id id) handle) :
    (id, .handle handle) ∈ resolutions s.server.log := by
  obtain ⟨packet, hreplied, hptype, rfl⟩ := hgave
  refine h.told talk htalk (sub.command id id) packet _ hreplied ?_
  simp only [PendingReply.answer, Submission.command, ClientCommand.pendingReply, hptype]

theorem Spoken.submitted_of_gave (h : s.Spoken) (htalk : talk ∈ s.talks) {cmd : ClientCommand}
    {handle : String} (hgave : talk.Gave cmd handle) : cmd ∈ s.server.submitted := by
  obtain ⟨packet, hreplied, -⟩ := hgave
  exact (h.handed talk htalk cmd (Talk.mem_sent_of_replied hreplied)).1

/-- An event of a stream was heard where the job was created, and is one of its own. -/
theorem Spoken.sent_of_yields (hs : s.Inv) (h : s.Spoken) (htalk : talk ∈ s.talks)
    {sub : Submission} {id : Nat} {handle : String} {event : JobEvent}
    (hgave : talk.Gave (sub.command id id) handle) (hstream : id ∈ (sub.command id id).streams)
    (hevent : event ∈ s.yields id) :
    ∃ talk ∈ s.talks, talk.Gave (sub.command id id) handle ∧ talk.Sent id handle event := by
  obtain ⟨y, hy, hyevent⟩ := List.mem_filterMap.mp hevent
  obtain ⟨x, hx, rfl⟩ := List.mem_map.mp hy
  obtain ⟨hid, hxevent⟩ : x.stream = id ∧ some x.event = some event :=
    Option.ite_none_right_eq_some.mp hyevent
  obtain ⟨talk', htalk', cmd, name, hgave', hstream', hsent⟩ := h.delivered x hx
  rw [hid] at hstream' hsent
  obtain rfl := Option.some.inj hxevent
  obtain rfl : cmd = sub.command id id := hs.owner_unique
    (h.submitted_of_gave htalk' hgave') (h.submitted_of_gave htalk hgave) hstream' hstream
  have hgiven : ∀ {talk : Talk} {name : String}, talk ∈ s.talks →
      talk.Gave (sub.command id id) name → s.Given id name := by
    intro talk name htalk hgave
    exact ⟨_, h.submitted_of_gave htalk hgave, hstream, h.told_of_gave htalk hgave⟩
  obtain rfl := hs.given_unique (hgiven htalk' hgave') (hgiven htalk hgave)
  exact ⟨talk', htalk', hgave', hsent⟩

/-- A stream that has heard of the end of its job has yielded the result. -/
theorem Spoken.yields_of_finished (h : s.Spoken) (htalk : talk ∈ s.talks) {stream : StreamId}
    (hfinished : talk.Finished stream) : ∃ event ∈ s.yields stream, event.isTerminal = true := by
  obtain ⟨packet, hheard, hterminal⟩ := hfinished
  obtain ⟨event, hevent, hyields⟩ := h.heard talk htalk _ hheard
  exact ⟨event, hyields, (isTerminal_of_jobEvent hevent).trans hterminal⟩

end StreamRun

namespace ClientRun

variable {withExceptions : Bool} {r r' : ClientRun}

/-! ## What holds in every state -/

/-- The command is that of a call, which has queued it here. -/
def Owns (r : ClientRun) (k : Nat) (cmd : ClientCommand) : Prop :=
  ∃ call, r.calls[cmd.reply]? = some call ∧ call.request.Makes cmd.reply k cmd ∧ call.pc.Sent

/-- A call got where it is by what its server did. -/
def Good (r : ClientRun) (id : Nat) (call : Call) : Prop :=
  match call.pc with
  | .picking s => call.request.submission = some s
  | .sending k cmd =>
    call.request.Makes id k cmd ∧ (call.request.submission.isSome = true → k < r.servers.length)
  | .waiting k =>
    ∃ s cmd, r.servers[k]? = some s ∧ call.request.Makes id k cmd ∧ cmd ∈ s.server.submitted
  | .streaming handle taken =>
    ∃ s talk function unique payload, r.servers[handle.serverIndex]? = some s ∧
      call.request = .foreground function unique payload ∧ talk ∈ s.talks ∧
      talk.Gave ((submit function unique payload .foreground).command id id) handle.handle ∧
      taken ≤ (s.yields id).length ∧ ∀ e ∈ (s.yields id).take taken, e.isTerminal = false
  | .returned result => r.Justified id call.request result
  | .panicked =>
    ∃ handle, (call.request = .status handle ∨ call.request = .statusUnique handle) ∧
      r.servers.length ≤ handle.serverIndex
  | .dropped => True

structure Inv (r : ClientRun) : Prop where
  sound : ∀ (k : Nat) (s : StreamRun), r.servers[k]? = some s → s.Inv ∧ s.Spoken
  owner : ∀ (k : Nat) (s : StreamRun), r.servers[k]? = some s →
    ∀ cmd ∈ s.server.submitted, r.Owns k cmd
  closed : ∀ (k : Nat) (s : StreamRun), r.servers[k]? = some s → ∀ id ∈ s.closed,
    ∃ call, r.calls[id]? = some call ∧ settled call = true
  good : ∀ (id : Nat) (call : Call), r.calls[id]? = some call → r.Good id call

/-- What the steps of others leave a call: its servers, with their histories gone on. -/
structure Grows (r r' : ClientRun) : Prop where
  length : r'.servers.length = r.servers.length
  servers : ∀ (k : Nat) (s : StreamRun), r.servers[k]? = some s →
    ∃ s', r'.servers[k]? = some s' ∧ s.Extends s'

theorem grows_of_steps {act : ClientAct} (hr : r.Inv) (h : r.Steps withExceptions act r') :
    r.Grows r' := by
  have hlength := length_of_steps h
  refine ⟨hlength, fun k s hat => ?_⟩
  have hlt : k < r'.servers.length := by
    rw [hlength]
    exact (List.getElem?_eq_some_iff.mp hat).1
  obtain ⟨t, ht, hacts⟩ := acts_of_steps h (List.getElem?_eq_getElem hlt)
  obtain rfl : s = t := Option.some.inj (hat.symm.trans ht)
  exact ⟨_, List.getElem?_eq_getElem hlt, (hacts.sound (hr.sound k s hat)).2⟩

theorem Justified.mono {id : Nat} {request : Request} {result : Except GearmanError Outcome}
    (hg : r.Grows r') (h : r.Justified id request result) : r'.Justified id request result := by
  cases h with
  | submitted hat htalk h =>
    obtain ⟨s', hat', hext⟩ := hg.servers _ _ hat
    obtain ⟨talk', htalk', hgt⟩ := hext.talks _ htalk
    exact .submitted hat' htalk' (h.mono hgt)
  | completed hat htalk h hsent =>
    obtain ⟨s', hat', hext⟩ := hg.servers _ _ hat
    obtain ⟨talk', htalk', hgt⟩ := hext.talks _ htalk
    exact .completed hat' htalk' (h.mono hgt) (hsent.mono hgt)
  | failed hat htalk h hsent =>
    obtain ⟨s', hat', hext⟩ := hg.servers _ _ hat
    obtain ⟨talk', htalk', hgt⟩ := hext.talks _ htalk
    exact .failed hat' htalk' (h.mono hgt) (hsent.mono hgt)
  | exception hat htalk h hsent =>
    obtain ⟨s', hat', hext⟩ := hg.servers _ _ hat
    obtain ⟨talk', htalk', hgt⟩ := hext.talks _ htalk
    exact .exception hat' htalk' (h.mono hgt) (hsent.mono hgt)
  | cut hat htalk h hended hunfinished =>
    obtain ⟨s', hat', hext⟩ := hg.servers _ _ hat
    obtain ⟨talk', htalk', hgt⟩ := hext.talks _ htalk
    obtain rfl := hgt.final hended
    exact .cut hat' htalk' h hended hunfinished
  | status hat htalk h htype =>
    obtain ⟨s', hat', hext⟩ := hg.servers _ _ hat
    obtain ⟨talk', htalk', hgt⟩ := hext.talks _ htalk
    exact .status hat' htalk' (h.mono hgt) htype
  | statusUnique hat htalk hcmd h htype =>
    obtain ⟨s', hat', hext⟩ := hg.servers _ _ hat
    obtain ⟨talk', htalk', hgt⟩ := hext.talks _ htalk
    exact .statusUnique hat' htalk' hcmd (h.mono hgt) htype
  | refused hat htalk hmakes h =>
    obtain ⟨s', hat', hext⟩ := hg.servers _ _ hat
    obtain ⟨talk', htalk', hgt⟩ := hext.talks _ htalk
    exact .refused hat' htalk' hmakes (h.mono hgt)
  | noServers h => exact .noServers h
  | noUniqueId h => exact .noUniqueId h

theorem Good.mono {id : Nat} {call : Call} (hg : r.Grows r') (h : r.Good id call) :
    r'.Good id call := by
  obtain ⟨request, pc⟩ := call
  cases pc with
  | picking s | dropped => exact h
  | sending k cmd => exact ⟨h.1, fun hsub => hg.length ▸ h.2 hsub⟩
  | waiting k =>
    obtain ⟨s, cmd, hat, hmakes, hqueued⟩ := h
    obtain ⟨s', hat', hext⟩ := hg.servers k s hat
    exact ⟨s', cmd, hat', hmakes, hext.submitted.subset hqueued⟩
  | streaming handle taken =>
    obtain ⟨s, talk, function, unique, payload, hat, hrequest, htalk, h, hle, htaken⟩ := h
    obtain ⟨s', hat', hext⟩ := hg.servers _ s hat
    obtain ⟨talk', htalk', hgt⟩ := hext.talks talk htalk
    obtain ⟨more, hmore⟩ := hext.yields id
    refine ⟨s', talk', function, unique, payload, hat', hrequest, htalk', h.mono hgt, ?_, ?_⟩ <;>
      rw [← hmore]
    · exact Nat.le_trans hle (by simp)
    · rw [List.take_append_of_le_length hle]
      exact htaken
  | returned result => exact Justified.mono hg h
  | panicked =>
    obtain ⟨handle, hrequest, hlength⟩ := h
    exact ⟨handle, hrequest, hg.length ▸ hlength⟩

/-! ## One step keeps it -/

/-- What the server's answer to its command makes of a call. -/
theorem good_answer {k : Nat} {s : StreamRun} {talk : Talk} {id : Nat} {request : Request}
    {cmd : ClientCommand} {packet : Packet} {answer : Answer} {pc : CallPc}
    (hat : r.servers[k]? = some s) (htalk : talk ∈ s.talks) (hmakes : request.Makes id k cmd)
    (hreplied : talk.Replied cmd packet) (h : cmd.pendingReply.answer packet = some answer)
    (hpc : request.onReply k id answer = some pc) : r.Good id ⟨request, pc⟩ := by
  have hfrom : answer.From talk cmd := .replied hreplied h
  unfold PendingReply.answer at h
  split at h
  · cases h
    obtain rfl : .returned (.error (serverError packet)) = pc := by
      cases request <;> exact Option.some.inj hpc
    exact .refused hat htalk hmakes hfrom
  · cases h
    have hgave : talk.Gave cmd ((packet.argStr 0).getD "") := ⟨packet, hreplied, ‹_›, rfl⟩
    cases hmakes with
    | submit =>
      cases hpc
      exact .submitted hat htalk hgave
    | foreground =>
      cases hpc
      refine ⟨s, talk, _, _, _, hat, rfl, htalk, hgave, Nat.zero_le _, fun e he => ?_⟩
      cases he
    | status | statusUnique _ => cases hpc
  · cases h
    cases hmakes with
    | submit | foreground => cases hpc
    | status =>
      cases hpc
      exact .status hat htalk hreplied ‹_›
    | statusUnique h =>
      obtain ⟨unique, -, rfl⟩ := getStatusUnique_eq_ok h
      rename_i hpending
      cases hpending
  · cases h
    cases hmakes with
    | submit | foreground => cases hpc
    | status =>
      rename_i hpending
      cases hpending
    | statusUnique h =>
      cases hpc
      exact .statusUnique hat htalk h hreplied ‹_›
  · cases h

theorem good_reply {k : Nat} {s : StreamRun} {id : Nat} {request : Request} {answer : Answer}
    {pc : CallPc} (hr : r.Inv) (hgood : r.Good id ⟨request, .waiting k⟩)
    (hat : r.servers[k]? = some s) (hanswer : (resolutions s.server.log).lookup id = some answer)
    (hpc : request.onReply k id answer = some pc) : r.Good id ⟨request, pc⟩ := by
  obtain ⟨t, cmd, ht, hmakes, hqueued⟩ := hgood
  obtain rfl : s = t := Option.some.inj (hat.symm.trans ht)
  obtain ⟨hinv, hspoken⟩ := hr.sound k s hat
  have hreplied : (id, answer) ∈ resolutions s.server.log := by
    obtain ⟨before, after, hsplit, -⟩ := List.lookup_eq_some_iff.mp hanswer
    rw [hsplit]
    exact List.mem_append_right _ List.mem_cons_self
  obtain ⟨cmd', hqueued', hreply, talk, htalk, hfrom⟩ := hspoken.answered _ hreplied
  obtain rfl : cmd = cmd' :=
    List.inj_on_of_nodup_map hinv.server.fresh hqueued hqueued' (hmakes.reply.trans hreply.symm)
  have error : ∀ e, answer = .error e → r.Good id ⟨request, pc⟩ := by
    rintro e rfl
    obtain rfl : .returned (.error e) = pc := by
      cases request <;> exact Option.some.inj hpc
    exact .refused hat htalk hmakes hfrom
  cases hfrom with
  | replied hreplied h => exact good_answer hat htalk hmakes hreplied h hpc
  | mismatched _ _ | unsent _ _ _ | lost _ _ => exact error _ rfl

/-- What ends the loop of `submit_fg_unique` is an event of its own job. -/
theorem good_event {s : StreamRun} {id taken : Nat} {request : Request} {handle : JobHandle}
    {event : JobEvent} {result : Except GearmanError Bytes} (hr : r.Inv)
    (hgood : r.Good id ⟨request, .streaming handle taken⟩)
    (hat : r.servers[handle.serverIndex]? = some s) (hevent : (s.yields id)[taken]? = some event)
    (h : onEvent handle.handle (some event) = some result) :
    r.Justified id request (result.map .result) := by
  obtain ⟨t, talk, function, unique, payload, ht, hrequest, htalk, hgave, -⟩ := hgood
  obtain rfl : request = _ := hrequest
  obtain rfl : s = t := Option.some.inj (hat.symm.trans ht)
  obtain ⟨hinv, hspoken⟩ := hr.sound _ s hat
  obtain ⟨talk', htalk', hgave', hsent⟩ := hspoken.sent_of_yields hinv htalk hgave
    (List.mem_singleton_self id) (List.mem_of_getElem? hevent)
  cases event with
  | status _ _ | data _ | warning _ => cases h
  | complete result =>
    cases h
    exact .completed hat htalk' hgave' hsent
  | fail =>
    cases h
    exact .failed hat htalk' hgave' hsent
  | exception exception =>
    cases h
    exact .exception hat htalk' hgave' hsent

/-- A turn of that loop that goes on has taken no result. -/
theorem good_turn {s : StreamRun} {id taken : Nat} {request : Request} {handle : JobHandle}
    {event : JobEvent} (hgood : r.Good id ⟨request, .streaming handle taken⟩)
    (hat : r.servers[handle.serverIndex]? = some s) (hevent : (s.yields id)[taken]? = some event)
    (h : onEvent handle.handle (some event) = none) :
    r.Good id ⟨request, .streaming handle (taken + 1)⟩ := by
  obtain ⟨t, talk, function, unique, payload, ht, hrequest, htalk, hgave, -, htaken⟩ := hgood
  obtain rfl : s = t := Option.some.inj (hat.symm.trans ht)
  refine ⟨s, talk, function, unique, payload, hat, hrequest, htalk, hgave,
    (List.getElem?_eq_some_iff.mp hevent).1, fun e he => ?_⟩
  rw [List.take_add_one, hevent] at he
  rcases List.mem_append.mp he with he | he
  · exact htaken e he
  · obtain rfl := List.mem_singleton.mp he
    cases e with
    | status _ _ | data _ | warning _ => rfl
    | complete _ | fail | exception _ => cases h

/-- The event channel ends before the job does only if the job's connection has ended. -/
theorem good_ended {s : StreamRun} {id taken : Nat} {request : Request} {handle : JobHandle}
    (hr : r.Inv) (hcall : r.calls[id]? = some ⟨request, .streaming handle taken⟩)
    (hat : r.servers[handle.serverIndex]? = some s) (hevent : (s.yields id)[taken]? = none)
    (hgone : ¬s.HoldsSender id handle.handle) :
    r.Justified id request (.error .connectionClosed) := by
  obtain ⟨t, talk, function, unique, payload, ht, hrequest, htalk, hgave, -, htaken⟩ :=
    hr.good id _ hcall
  obtain rfl : request = _ := hrequest
  obtain rfl : s = t := Option.some.inj (hat.symm.trans ht)
  have hspoken := (hr.sound _ s hat).2
  have hopen : id ∉ s.closed := by
    intro hclosed
    obtain ⟨call, hcall', hover⟩ := hr.closed _ s hat id hclosed
    rw [hcall] at hcall'
    cases hcall'
    cases hover
  rw [List.take_of_length_le (List.getElem?_eq_none_iff.mp hevent)] at htaken
  have hunfinished : ¬talk.Finished id := by
    intro hfinished
    obtain ⟨event, hyields, hterminal⟩ := hspoken.yields_of_finished htalk hfinished
    rw [htaken event hyields] at hterminal
    cases hterminal
  have hended := hspoken.ended htalk hgave (List.mem_singleton_self id) hopen hunfinished
    fun hslot => hgone (.inr (.inr hslot))
  exact .cut hat htalk hgave hended hunfinished

/-- The events of a submission are those of the call that made it. -/
theorem stream_of_submitted (hr : r.Inv) {id : Nat} {request : Request} {handle : JobHandle}
    {stream : StreamId}
    (hcall : r.calls[id]? = some ⟨request, .returned (.ok (.submitted ⟨handle, some stream⟩))⟩) :
    stream = id := by
  have hgood : r.Justified id request (.ok (.submitted ⟨handle, some stream⟩)) :=
    hr.good id _ hcall
  generalize hevents : some stream = events at hgood
  cases hgood with
  | @submitted k s talk sub name hat htalk h =>
    split at hevents
    · cases hevents
    · exact Option.some.inj hevents

/-- The receivers that are dropped after a step are those of calls that are over. -/
theorem closed_of_acts {k : Nat} {s s' : StreamRun} (hr : r.Inv)
    (hacts : Acts withExceptions r r' k s s')
    (hkept : ∀ id ∈ s.closed, ∃ call, r'.calls[id]? = some call ∧ settled call = true) :
    ∀ id ∈ s'.closed, ∃ call, r'.calls[id]? = some call ∧ settled call = true := by
  rcases hacts.closes with hsame | ⟨stream, hnew, hover⟩
  · rw [hsame]
    exact hkept
  · rw [hnew]
    refine List.forall_mem_cons.mpr ⟨?_, hkept⟩
    rcases hover with hover | ⟨id, request, handle, hcalls, hcall⟩
    · exact hover
    · rw [stream_of_submitted hr hcall, hcalls]
      exact ⟨_, hcall, rfl⟩

/-- The step of a call that leaves the servers to the rest. -/
theorem inv_of_call {id : Nat} {request : Request} {pc pc' : CallPc} (hr : r.Inv)
    (hg : r.Grows r')
    (hservers : ∀ (k : Nat) (s' : StreamRun), r'.servers[k]? = some s' →
      ∃ s, r.servers[k]? = some s ∧ Acts withExceptions r r' k s s')
    (hcall : r.calls[id]? = some ⟨request, pc⟩) (hunder : settled ⟨request, pc⟩ = false)
    (hcalls : r'.calls = r.calls.set id ⟨request, pc'⟩) (hsent : pc.Sent → pc'.Sent)
    (hgood : r'.Good id ⟨request, pc'⟩) : r'.Inv := by
  have hlt : id < r.calls.length := (List.getElem?_eq_some_iff.mp hcall).1
  have hself : r'.calls[id]? = some ⟨request, pc'⟩ := by
    rw [hcalls]
    exact List.getElem?_set_self hlt
  have hother : ∀ {j : Nat}, id ≠ j → r'.calls[j]? = r.calls[j]? := by
    intro j hne
    rw [hcalls]
    exact List.getElem?_set_ne hne
  refine ⟨fun k s' hat => ?_, fun k s' hat cmd hcmd => ?_, fun k s' hat => ?_,
    fun j call hj => ?_⟩
  · obtain ⟨s, hs, hacts⟩ := hservers k s' hat
    exact (hacts.sound (hr.sound k s hs)).1
  · obtain ⟨s, hs, hacts⟩ := hservers k s' hat
    have old : cmd ∈ s.server.submitted → r'.Owns k cmd := by
      intro hold
      obtain ⟨call, hj, hmakes, hpc⟩ := hr.owner k s hs cmd hold
      rcases eq_or_ne id cmd.reply with heq | hne
      · rw [← heq, hcall] at hj
        cases hj
        exact ⟨⟨request, pc'⟩, heq ▸ hself, hmakes, hsent hpc⟩
      · exact ⟨call, (hother hne).trans hj, hmakes, hpc⟩
    rcases hacts.submitted with hsame | ⟨j, req, new, hnew, hj, hj'⟩
    · exact old (hsame ▸ hcmd)
    · rw [hnew] at hcmd
      rcases List.mem_append.mp hcmd with hcmd | hcmd
      · exact old hcmd
      · obtain rfl := List.mem_singleton.mp hcmd
        have hmakes := (hr.good j _ hj).1
        rw [← hmakes.reply] at hj' hmakes
        exact ⟨_, hj', hmakes, trivial⟩
  · obtain ⟨s, hs, hacts⟩ := hservers k s' hat
    -- a call that is over is not the one that goes on
    have kept : ∀ {j : Nat} {call : Call}, r.calls[j]? = some call → settled call = true →
        ∃ call, r'.calls[j]? = some call ∧ settled call = true := by
      intro j call hj hover
      rcases eq_or_ne id j with rfl | hne
      · rw [hcall] at hj
        cases hj
        rw [hunder] at hover
        cases hover
      · exact ⟨call, (hother hne).trans hj, hover⟩
    refine closed_of_acts hr hacts fun j hclosed => ?_
    obtain ⟨call, hj, hover⟩ := hr.closed k s hs j hclosed
    exact kept hj hover
  · rcases eq_or_ne id j with rfl | hne
    · rw [hself] at hj
      cases hj
      exact hgood
    · exact (hr.good j call ((hother hne).symm.trans hj)).mono hg

/-- The step of a server, or of what holds the client. -/
theorem inv_of_servers (hr : r.Inv) (hg : r.Grows r')
    (hservers : ∀ (k : Nat) (s' : StreamRun), r'.servers[k]? = some s' →
      ∃ s, r.servers[k]? = some s ∧ Acts withExceptions r r' k s s')
    (hcalls : r'.calls = r.calls) : r'.Inv := by
  refine ⟨fun k s' hat => ?_, fun k s' hat cmd hcmd => ?_, fun k s' hat => ?_,
    fun j call hj => ?_⟩
  · obtain ⟨s, hs, hacts⟩ := hservers k s' hat
    exact (hacts.sound (hr.sound k s hs)).1
  · obtain ⟨s, hs, hacts⟩ := hservers k s' hat
    rcases hacts.submitted with hsame | ⟨j, req, new, -, hj, hj'⟩
    · obtain ⟨call, hcall, h⟩ := hr.owner k s hs cmd (hsame ▸ hcmd)
      exact ⟨call, hcalls ▸ hcall, h⟩
    · rw [hcalls, hj] at hj'
      cases hj'
  · obtain ⟨s, hs, hacts⟩ := hservers k s' hat
    refine closed_of_acts hr hacts fun j hclosed => ?_
    rw [hcalls]
    exact hr.closed k s hs j hclosed
  · rw [hcalls] at hj
    exact (hr.good j call hj).mono hg

theorem good_start (r : ClientRun) (id : Nat) (request : Request) :
    r.Good id ⟨request, request.start id⟩ := by
  cases request with
  | submit s | foreground _ _ _ => rfl
  | status handle => exact ⟨.status, fun h => by cases h⟩
  | statusUnique handle =>
    unfold Request.start
    dsimp only
    split
    · exact ⟨.statusUnique ‹_›, fun h => by cases h⟩
    · rename_i e h
      unfold getStatusUnique at h
      split at h <;> cases h
      exact .noUniqueId ‹_›

theorem inv_call {request : Request} (hr : r.Inv) :
    Inv { r with calls := r.calls ++ [⟨request, request.start r.calls.length⟩] } := by
  have hg : r.Grows { r with calls := r.calls ++ [⟨request, request.start r.calls.length⟩] } :=
    ⟨rfl, fun k s hat => ⟨s, hat, .refl s⟩⟩
  refine ⟨hr.sound, fun k s hat cmd hcmd => ?_, fun k s hat id hclosed => ?_,
    fun j call hj => ?_⟩
  · obtain ⟨call, hcall, h⟩ := hr.owner k s hat cmd hcmd
    exact ⟨call, (List.getElem?_append_left (List.getElem?_eq_some_iff.mp hcall).1).trans hcall, h⟩
  · obtain ⟨call, hcall, h⟩ := hr.closed k s hat id hclosed
    exact ⟨call, (List.getElem?_append_left (List.getElem?_eq_some_iff.mp hcall).1).trans hcall, h⟩
  · rcases Nat.lt_trichotomy j r.calls.length with hlt | rfl | hgt
    · refine (hr.good j call ?_).mono hg
      rw [← hj]
      exact (List.getElem?_append_left hlt).symm
    · rw [List.getElem?_concat_length] at hj
      cases hj
      exact good_start _ _ request
    · rw [List.getElem?_eq_none (by rw [List.length_append, List.length_singleton]; omega)] at hj
      cases hj

theorem inv_step {act : ClientAct} (hheld : r.Held) (hr : r.Inv)
    (h : r.step withExceptions act = some r') : r'.Inv := by
  have hsteps := steps_of_step h
  have hg := grows_of_steps hr hsteps
  have hservers : ∀ (k : Nat) (s' : StreamRun), r'.servers[k]? = some s' →
      ∃ s, r.servers[k]? = some s ∧ Acts withExceptions r r' k s s' :=
    fun k s' => acts_of_steps hsteps
  cases hsteps with
  | call _ => exact inv_call hr
  | unpicked hcall =>
    have hgood : _ = some _ := hr.good _ _ hcall
    refine inv_of_call hr hg hservers hcall rfl rfl (fun _ => trivial) (.noServers ?_)
    rw [hgood]
    rfl
  | @picked id k request s hcall hk =>
    have hgood : request.submission = some s := hr.good _ _ hcall
    refine inv_of_call hr hg hservers hcall rfl rfl (fun h => h) ⟨?_, fun _ => hk⟩
    cases request with
    | submit _ | foreground _ _ _ =>
      cases hgood
      constructor
    | status _ | statusUnique _ => cases hgood
  | @panic id k request cmd hcall hat =>
    refine inv_of_call hr hg hservers hcall rfl rfl (fun _ => trivial) ?_
    obtain ⟨hmakes, hk⟩ := hr.good _ _ hcall
    have hlength := List.getElem?_eq_none_iff.mp hat
    cases hmakes with
    | submit | foreground => exact absurd (hk rfl) (Nat.not_lt.mpr hlength)
    | status => exact ⟨_, .inl rfl, hlength⟩
    | statusUnique _ => exact ⟨_, .inr rfl, hlength⟩
  | @refuse id k request cmd s hcall hat hphase =>
    -- an actor only returns once the client is gone
    have hsenders := hheld.senders (hheld.alive _ (List.mem_of_getElem? hcall) rfl) k s hat
    rw [((hr.sound k s hat).1.server.closing (.inr hphase)).1] at hsenders
    cases hsenders
  | @send id k request cmd s s' hcall hat hstep =>
    refine inv_of_call hr hg hservers hcall rfl rfl (fun _ => trivial) ?_
    obtain ⟨-, -, actor, es, -, rfl⟩ := StreamRun.advance_eq_some hstep
    refine ⟨_, cmd, List.getElem?_set_self (List.getElem?_eq_some_iff.mp hat).1,
      (hr.good _ _ hcall).1, ?_⟩
    exact List.mem_append_right _ (List.mem_singleton_self cmd)
  | @reply id k request s answer pc hcall hat hanswer hpc =>
    refine inv_of_call hr hg hservers hcall rfl rfl (fun _ => ?_)
      ((good_reply hr (hr.good _ _ hcall) hat hanswer hpc).mono hg)
    unfold Request.onReply at hpc
    split at hpc <;> cases hpc <;> trivial
  | event hcall hat hevent hturn =>
    exact inv_of_call hr hg hservers hcall rfl rfl (fun _ => trivial)
      ((good_turn (hr.good _ _ hcall) hat hevent hturn).mono hg)
  | result hcall hat hevent hturn =>
    exact inv_of_call hr hg hservers hcall rfl rfl (fun _ => trivial)
      ((good_event hr (hr.good _ _ hcall) hat hevent hturn).mono hg)
  | ended hcall hat hevent hgone =>
    exact inv_of_call hr hg hservers hcall rfl rfl (fun _ => trivial)
      ((good_ended hr hcall hat hevent hgone).mono hg)
  | @drop id k call hcall hpc =>
    refine inv_of_call hr hg hservers hcall ?_ rfl (fun _ => trivial) trivial
    unfold settled
    rcases hpc with hpc | ⟨handle, taken, hpc, -⟩ <;> rw [hpc]
  | dropEvents _ | dropClient _ | server _ _ _ => exact inv_of_servers hr hg hservers rfl

theorem inv_start (servers : Nat) : (start servers).Inv := by
  have hnew : ∀ (k : Nat) (s : StreamRun), (start servers).servers[k]? = some s → s = .start :=
    fun k s hat => List.eq_of_mem_replicate (List.mem_of_getElem? hat)
  refine ⟨fun k s hat => ?_, fun k s hat cmd hcmd => ?_, fun k s hat id hclosed => ?_,
    fun id call hcall => ?_⟩
  · obtain rfl := hnew k s hat
    exact ⟨StreamRun.inv_start, StreamRun.spoken_start⟩
  · obtain rfl := hnew k s hat
    cases hcmd
  · obtain rfl := hnew k s hat
    cases hclosed
  · cases hcall

theorem inv_run {servers : Nat} {acts : List ClientAct}
    (h : Machine.run (step withExceptions) (start servers) acts = some r) : r.Held ∧ r.Inv := by
  have next : ∀ (r : ClientRun) act (r' : ClientRun), r.Held ∧ r.Inv →
      r.step withExceptions act = some r' → r'.Held ∧ r'.Inv := by
    intro r act r' hr hstep
    exact ⟨held_step hr.1 hstep, inv_step hr.1 hr.2 hstep⟩
  exact Machine.invariant next ⟨held_start servers, inv_start servers⟩ h

/-- A foreground job from its submission to its result. -/
def echoRun : List ClientAct :=
  [.call (submitFg "echo" [7]), .server 0 (.actor (.connect true)), .server 0 (.actor .go),
    .server 0 (.actor .go), .pick 0 (some 0), .send 0, .server 0 (.actor (.command .accepted)),
    .server 0 (.actor (.recv (.ok (some (.response .jobCreated [asBytes "H"]))))), .reply 0,
    .server 0 (.actor (.recv (.ok (some (.response .workData [asBytes "H", [1]]))))),
    .server 0 (.actor (.recv (.ok (some (.response .workComplete [asBytes "H", [7]]))))),
    .next 0, .next 0]

end ClientRun

end Gearman.Client

import Gearman.Client.Calls
import Gearman.Client.Verify.Provenance

/-!
# Steps of a client

Any number of calls run against any number of servers, whose actors take their
steps in between. A step of the client leaves each server as it is, drops a
receiver of an event channel, queues the command of a call, or is a step of the
server's actor.
-/

namespace Gearman.Client

open Protocol

/-! ## The command of a call -/

/-- The command that call `id` queues for a request, and the server it queues it at. -/
inductive Request.Makes (id : Nat) : Request → Nat → ClientCommand → Prop
  | submit {s : Submission} {k : Nat} : Makes id (.submit s) k (s.command id id)
  | foreground {function : String} {unique : Option String} {payload : Bytes} {k : Nat} :
      Makes id (.foreground function unique payload) k
        ((Client.submit function unique payload .foreground).command id id)
  | status {handle : JobHandle} :
      Makes id (.status handle) handle.serverIndex (getStatus handle id)
  | statusUnique {handle : JobHandle} {cmd : ClientCommand}
      (h : getStatusUnique handle id = .ok cmd) :
      Makes id (.statusUnique handle) handle.serverIndex cmd

variable {request : Request} {id k : Nat} {cmd : ClientCommand}

theorem getStatusUnique_eq_ok {handle : JobHandle} (h : getStatusUnique handle id = .ok cmd) :
    ∃ unique, handle.unique = some unique ∧
      cmd = .statusUnique (.request .getStatusUnique [asBytes unique]) id := by
  unfold getStatusUnique at h
  split at h <;> cases h
  exact ⟨_, ‹_›, rfl⟩

theorem Request.Makes.reply (h : request.Makes id k cmd) : cmd.reply = id := by
  cases h with
  | submit | foreground | status => rfl
  | statusUnique h =>
    obtain ⟨unique, -, rfl⟩ := getStatusUnique_eq_ok h
    rfl

theorem Request.Makes.streams (h : request.Makes id k cmd) : ∀ s ∈ cmd.streams, s = id := by
  cases h with
  | @submit s _ =>
    intro t ht
    unfold Submission.command at ht
    cases hb : s.background <;> rw [hb] at ht
    · exact List.mem_singleton.mp ht
    · cases ht
  | foreground => exact fun t ht => List.mem_singleton.mp ht
  | status => exact fun t ht => by cases ht
  | statusUnique h =>
    obtain ⟨unique, -, rfl⟩ := getStatusUnique_eq_ok h
    exact fun t ht => by cases ht

namespace ClientRun

variable {withExceptions : Bool} {r r' : ClientRun}

/-! ## One step -/

/-- All that a step can do. -/
inductive Steps (withExceptions : Bool) (r : ClientRun) : ClientAct → ClientRun → Prop
  | call {request : Request} (halive : r.alive = true) :
      Steps withExceptions r (.call request)
        { r with calls := r.calls ++ [⟨request, request.start r.calls.length⟩] }
  | unpicked {id : Nat} {request : Request} {s : Submission}
      (hcall : r.calls[id]? = some ⟨request, .picking s⟩) :
      Steps withExceptions r (.pick id none)
        { r with calls := r.calls.set id ⟨request, .returned (.error .noServersAvailable)⟩ }
  | picked {id k : Nat} {request : Request} {s : Submission}
      (hcall : r.calls[id]? = some ⟨request, .picking s⟩) (hk : k < r.servers.length) :
      Steps withExceptions r (.pick id (some k))
        { r with calls := r.calls.set id ⟨request, .sending k (s.command id id)⟩ }
  | panic {id k : Nat} {request : Request} {cmd : ClientCommand}
      (hcall : r.calls[id]? = some ⟨request, .sending k cmd⟩) (hat : r.servers[k]? = none) :
      Steps withExceptions r (.send id) { r with calls := r.calls.set id ⟨request, .panicked⟩ }
  | refuse {id k : Nat} {request : Request} {cmd : ClientCommand} {s : StreamRun}
      (hcall : r.calls[id]? = some ⟨request, .sending k cmd⟩) (hat : r.servers[k]? = some s)
      (hphase : s.server.actor.phase = .returned) :
      Steps withExceptions r (.send id)
        { r with calls := r.calls.set id ⟨request, .returned (.error .connectionClosed)⟩ }
  | send {id k : Nat} {request : Request} {cmd : ClientCommand} {s s' : StreamRun}
      (hcall : r.calls[id]? = some ⟨request, .sending k cmd⟩) (hat : r.servers[k]? = some s)
      (hstep : s.step withExceptions (.actor (.queue cmd)) = some s') :
      Steps withExceptions r (.send id)
        { r with
          servers := r.servers.set k s'
          calls := r.calls.set id ⟨request, .waiting k⟩ }
  | reply {id k : Nat} {request : Request} {s : StreamRun} {answer : Answer} {pc : CallPc}
      (hcall : r.calls[id]? = some ⟨request, .waiting k⟩) (hat : r.servers[k]? = some s)
      (hanswer : (resolutions s.server.log).lookup id = some answer)
      (hpc : request.onReply k id answer = some pc) :
      Steps withExceptions r (.reply id) (r.proceed id ⟨request, .waiting k⟩ k pc)
  | event {id taken : Nat} {request : Request} {handle : JobHandle} {s : StreamRun}
      {event : JobEvent} (hcall : r.calls[id]? = some ⟨request, .streaming handle taken⟩)
      (hat : r.servers[handle.serverIndex]? = some s)
      (hevent : (s.yields id)[taken]? = some event)
      (h : onEvent handle.handle (some event) = none) :
      Steps withExceptions r (.next id)
        (r.proceed id ⟨request, .streaming handle taken⟩ handle.serverIndex
          (.streaming handle (taken + 1)))
  | result {id taken : Nat} {request : Request} {handle : JobHandle} {s : StreamRun}
      {event : JobEvent} {result : Except GearmanError Bytes}
      (hcall : r.calls[id]? = some ⟨request, .streaming handle taken⟩)
      (hat : r.servers[handle.serverIndex]? = some s)
      (hevent : (s.yields id)[taken]? = some event)
      (h : onEvent handle.handle (some event) = some result) :
      Steps withExceptions r (.next id)
        (r.proceed id ⟨request, .streaming handle taken⟩ handle.serverIndex
          (.returned (result.map .result)))
  | ended {id taken : Nat} {request : Request} {handle : JobHandle} {s : StreamRun}
      (hcall : r.calls[id]? = some ⟨request, .streaming handle taken⟩)
      (hat : r.servers[handle.serverIndex]? = some s)
      (hevent : (s.yields id)[taken]? = none) (hgone : ¬s.HoldsSender id handle.handle) :
      Steps withExceptions r (.next id)
        (r.proceed id ⟨request, .streaming handle taken⟩ handle.serverIndex
          (.returned (.error .connectionClosed)))
  | drop {id k : Nat} {call : Call} (hcall : r.calls[id]? = some call)
      (hpc : call.pc = .waiting k ∨
        ∃ handle taken, call.pc = .streaming handle taken ∧ handle.serverIndex = k) :
      Steps withExceptions r (.drop id) (r.proceed id call k .dropped)
  | dropEvents {id stream : Nat} {request : Request} {handle : JobHandle}
      (hcall : r.calls[id]? = some
        ⟨request, .returned (.ok (.submitted ⟨handle, some stream⟩))⟩) :
      Steps withExceptions r (.dropEvents id)
        { r with servers := r.servers.modify handle.serverIndex (·.close stream) }
  | dropClient (hover : ∀ call ∈ r.calls, settled call = true) :
      Steps withExceptions r .dropClient { r with alive := false }
  | server {k : Nat} {act : StreamAct} {s s' : StreamRun} (hown : act.own r.alive = true)
      (hat : r.servers[k]? = some s) (hstep : s.step withExceptions act = some s') :
      Steps withExceptions r (.server k act) { r with servers := r.servers.set k s' }

theorem steps_of_step {act : ClientAct} (h : r.step withExceptions act = some r') :
    r.Steps withExceptions act r' := by
  cases act with
  | call request =>
    obtain ⟨halive, h⟩ := Option.ite_none_right_eq_some.mp h
    cases h
    exact .call halive
  | pick id server =>
    unfold step at h
    dsimp only at h
    split at h
    · split at h
      · cases h
        exact .unpicked ‹_›
      · obtain ⟨hk, h⟩ := Option.ite_none_right_eq_some.mp h
        cases h
        exact .picked ‹_› hk
    · cases h
  | send id =>
    unfold step at h
    dsimp only at h
    split at h
    · split at h
      · cases h
        exact .panic ‹_› ‹_›
      · split at h
        · cases h
          exact .refuse ‹_› ‹_› ‹_›
        · obtain ⟨s', hstep, rfl⟩ := Option.map_eq_some_iff.mp h
          exact .send ‹_› ‹_› hstep
    · cases h
  | reply id =>
    unfold step at h
    dsimp only at h
    split at h
    · obtain ⟨s, hat, h⟩ := Option.bind_eq_some_iff.mp h
      obtain ⟨answer, hanswer, h⟩ := Option.bind_eq_some_iff.mp h
      obtain ⟨pc, hpc, rfl⟩ := Option.map_eq_some_iff.mp h
      exact .reply ‹_› hat hanswer hpc
    · cases h
  | next id =>
    unfold step at h
    dsimp only at h
    split at h
    · next request handle taken hcall =>
      obtain ⟨s, hat, h⟩ := Option.bind_eq_some_iff.mp h
      obtain ⟨hready, h⟩ := Option.ite_none_left_eq_some.mp h
      cases hevent : (s.yields id)[taken]? with
      | none =>
        rw [hevent] at h hready
        cases h
        exact .ended hcall hat hevent fun hholds => hready ⟨rfl, hholds⟩
      | some event =>
        rw [hevent] at h
        cases hturn : onEvent handle.handle (some event) with
        | none =>
          rw [hturn] at h
          cases h
          exact .event hcall hat hevent hturn
        | some result =>
          rw [hturn] at h
          cases h
          exact .result hcall hat hevent hturn
    · cases h
  | drop id =>
    unfold step at h
    dsimp only at h
    split at h
    · cases h
      exact .drop ‹_› (.inl rfl)
    · cases h
      exact .drop ‹_› (.inr ⟨_, _, rfl, rfl⟩)
    · cases h
  | dropEvents id =>
    unfold step at h
    dsimp only at h
    split at h
    · cases h
      exact .dropEvents ‹_›
    · cases h
  | dropClient =>
    obtain ⟨hover, h⟩ := Option.ite_none_right_eq_some.mp h
    cases h
    exact .dropClient (List.all_eq_true.mp hover)
  | server k act =>
    obtain ⟨hown, h⟩ := Option.ite_none_right_eq_some.mp h
    obtain ⟨s, hat, h⟩ := Option.bind_eq_some_iff.mp h
    obtain ⟨s', hstep, rfl⟩ := Option.map_eq_some_iff.mp h
    exact .server hown hat hstep

/-! ## What a step does to the servers -/

/-- What a step of the client is to its server `k`. -/
inductive Acts (withExceptions : Bool) (r r' : ClientRun) (k : Nat) (s : StreamRun) :
    StreamRun → Prop
  | idle : Acts withExceptions r r' k s s
  /-- A call that is over has dropped its events. -/
  | closed {id : Nat} {call : Call} (hcall' : r'.calls[id]? = some call)
      (hover : settled call = true) : Acts withExceptions r r' k s (s.close id)
  /-- The events of a submitted job are dropped. -/
  | dropped {id : Nat} {request : Request} {handle : JobHandle} {stream : StreamId}
      (hcall : r.calls[id]? = some
        { request := request, pc := .returned (.ok (.submitted ⟨handle, some stream⟩)) })
      (hcalls : r'.calls = r.calls) : Acts withExceptions r r' k s (s.close stream)
  | own {act : StreamAct} {s' : StreamRun} (hown : act.own r.alive = true)
      (hstep : s.step withExceptions act = some s') : Acts withExceptions r r' k s s'
  /-- The command of a call is queued. -/
  | queued {id : Nat} {request : Request} {cmd : ClientCommand} {s' : StreamRun}
      (hcall : r.calls[id]? = some { request := request, pc := .sending k cmd })
      (hcall' : r'.calls[id]? = some { request := request, pc := .waiting k })
      (hstep : s.step withExceptions (.actor (.queue cmd)) = some s') :
      Acts withExceptions r r' k s s'

theorem acts_of_eq {k : Nat} {s' : StreamRun} (hservers : r'.servers = r.servers)
    (hat : r'.servers[k]? = some s') :
    ∃ s, r.servers[k]? = some s ∧ Acts withExceptions r r' k s s' :=
  ⟨s', hservers ▸ hat, .idle⟩

theorem acts_of_modify {j k : Nat} {stream : StreamId} {s' : StreamRun}
    (hservers : r'.servers = r.servers.modify j (·.close stream))
    (hacts : ∀ s, Acts withExceptions r r' k s (s.close stream))
    (hat : r'.servers[k]? = some s') :
    ∃ s, r.servers[k]? = some s ∧ Acts withExceptions r r' k s s' := by
  rw [hservers, List.getElem?_modify] at hat
  obtain ⟨s, hs, rfl⟩ := Option.map_eq_some_iff.mp hat
  by_cases hj : j = k
  · rw [if_pos hj]
    exact ⟨s, hs, hacts s⟩
  · rw [if_neg hj]
    exact ⟨s, hs, .idle⟩

theorem settled_of_closes {request : Request} {pc : CallPc} (h : pc.closes = true) :
    settled ⟨request, pc⟩ = true := by
  cases pc with
  | returned _ | panicked | dropped => rfl
  | picking _ | sending _ _ | waiting _ | streaming _ _ => cases h

theorem acts_of_proceed {id j k : Nat} {call : Call} {pc : CallPc} {s' : StreamRun}
    (hcall : r.calls[id]? = some call) (hat : (r.proceed id call j pc).servers[k]? = some s') :
    ∃ s, r.servers[k]? = some s ∧ Acts withExceptions r (r.proceed id call j pc) k s s' := by
  cases hcloses : pc.closes with
  | true =>
    refine acts_of_modify (by rw [proceed, hcloses, if_pos rfl]) (fun s => ?_) hat
    exact .closed (List.getElem?_set_self (List.getElem?_eq_some_iff.mp hcall).1)
      (settled_of_closes hcloses)
  | false => exact acts_of_eq (by rw [proceed, hcloses]; rfl) hat

theorem acts_of_set {j k : Nat} {s t s' : StreamRun} (hj : r.servers[j]? = some s)
    (hservers : r'.servers = r.servers.set j t) (hacts : Acts withExceptions r r' j s t)
    (hat : r'.servers[k]? = some s') :
    ∃ s, r.servers[k]? = some s ∧ Acts withExceptions r r' k s s' := by
  rw [hservers] at hat
  rcases eq_or_ne j k with rfl | hne
  · rw [List.getElem?_set_self (List.getElem?_eq_some_iff.mp hj).1] at hat
    cases hat
    exact ⟨s, hj, hacts⟩
  · rw [List.getElem?_set_ne hne] at hat
    exact ⟨s', hat, .idle⟩

/-- A step leaves a server as it is, drops a receiver, queues the command of a call, or is
one of the server's actor. -/
theorem acts_of_steps {act : ClientAct} {k : Nat} {s' : StreamRun}
    (h : r.Steps withExceptions act r') (hat : r'.servers[k]? = some s') :
    ∃ s, r.servers[k]? = some s ∧ Acts withExceptions r r' k s s' := by
  cases h with
  | call _ | unpicked _ | picked _ _ | panic _ _ | refuse _ _ _ | dropClient _ =>
    exact acts_of_eq rfl hat
  | reply hcall _ _ _ | event hcall _ _ _ | result hcall _ _ _ | ended hcall _ _ _
  | drop hcall _ => exact acts_of_proceed hcall hat
  | dropEvents hcall => exact acts_of_modify rfl (fun s => .dropped hcall rfl) hat
  | send hcall hj hstep =>
    refine acts_of_set hj rfl (.queued hcall ?_ hstep) hat
    exact List.getElem?_set_self (List.getElem?_eq_some_iff.mp hcall).1
  | server hown hj hstep => exact acts_of_set hj rfl (.own hown hstep) hat

theorem length_of_steps {act : ClientAct} (h : r.Steps withExceptions act r') :
    r'.servers.length = r.servers.length := by
  have proceeds : ∀ id call j pc,
      (r.proceed id call j pc).servers.length = r.servers.length := by
    intro id call j pc
    unfold proceed
    dsimp only
    split
    · exact List.length_modify ..
    · rfl
  cases h with
  | call _ | unpicked _ | picked _ _ | panic _ _ | refuse _ _ _ | dropClient _ => rfl
  | reply _ _ _ _ | event _ _ _ _ | result _ _ _ _ | ended _ _ _ _ | drop _ _ =>
    exact proceeds _ _ _ _
  | dropEvents _ => exact List.length_modify ..
  | send _ _ _ | server _ _ _ => exact List.length_set

theorem Acts.sound {k : Nat} {s s' : StreamRun} (h : Acts withExceptions r r' k s s')
    (hs : s.Inv ∧ s.Spoken) : (s'.Inv ∧ s'.Spoken) ∧ s.Extends s' := by
  have step : ∀ {act : StreamAct} {t : StreamRun}, s.step withExceptions act = some t →
      (t.Inv ∧ t.Spoken) ∧ s.Extends t := by
    intro act t hstep
    obtain ⟨hspoken, hext⟩ := StreamRun.spoken_step hs.1 hs.2 hstep
    exact ⟨⟨StreamRun.inv_step hs.1 hstep, hspoken⟩, hext⟩
  cases h with
  | idle => exact ⟨hs, .refl s⟩
  | @closed stream _ _ _ | @dropped _ _ _ stream _ _ =>
    have hstep : s.step withExceptions (.dropStream stream) = some (s.close stream) := rfl
    exact step hstep
  | own _ hstep | queued _ _ hstep => exact step hstep

/-- Only a call gets a command into the queue. -/
theorem Acts.submitted {k : Nat} {s s' : StreamRun} (h : Acts withExceptions r r' k s s') :
    s'.server.submitted = s.server.submitted ∨
    ∃ (id : Nat) (request : Request) (cmd : ClientCommand),
      s'.server.submitted = s.server.submitted ++ [cmd] ∧
      r.calls[id]? = some { request := request, pc := .sending k cmd } ∧
      r'.calls[id]? = some { request := request, pc := .waiting k } := by
  cases h with
  | idle | closed _ _ | dropped _ _ => exact .inl rfl
  | @own act _ hown hstep =>
    left
    rcases StreamRun.step_cases hstep with ⟨i, hadvance, -, hact⟩ | ⟨stream, -, rfl⟩
    · obtain ⟨-, -, actor, es, -, rfl⟩ := StreamRun.advance_eq_some hadvance
      rcases hact with rfl | ⟨-, closed, rfl⟩
      · cases i with
        | queue cmd => cases hown
        | _ => exact List.append_nil _
      · exact List.append_nil _
    · rfl
  | @queued id request cmd _ hcall hcall' hstep =>
    obtain ⟨-, -, actor, es, -, rfl⟩ := StreamRun.advance_eq_some hstep
    exact .inr ⟨id, request, cmd, rfl, hcall, hcall'⟩

/-- A step keeps the receivers that were dropped, and drops at most those of a call that
is over or of a job that was submitted. -/
theorem Acts.closes {k : Nat} {s s' : StreamRun} (h : Acts withExceptions r r' k s s') :
    s'.closed = s.closed ∨ ∃ stream, s'.closed = stream :: s.closed ∧
      ((∃ call, r'.calls[stream]? = some call ∧ settled call = true) ∨
        ∃ (id : Nat) (request : Request) (handle : JobHandle), r'.calls = r.calls ∧
          r.calls[id]? = some
            { request := request, pc := .returned (.ok (.submitted ⟨handle, some stream⟩)) }) := by
  cases h with
  | idle => exact .inl rfl
  | closed hcall' hover => exact .inr ⟨_, rfl, .inl ⟨_, hcall', hover⟩⟩
  | dropped hcall hcalls => exact .inr ⟨_, rfl, .inr ⟨_, _, _, hcalls, hcall⟩⟩
  | @own act _ hown hstep =>
    rcases StreamRun.step_cases hstep with ⟨i, hadvance, -⟩ | ⟨stream, rfl, -⟩
    · obtain ⟨-, -, actor, es, -, rfl⟩ := StreamRun.advance_eq_some hadvance
      exact .inl rfl
    · cases hown
  | queued _ _ hstep =>
    obtain ⟨-, -, actor, es, -, rfl⟩ := StreamRun.advance_eq_some hstep
    exact .inl rfl

end ClientRun

/-! ## Senders -/

namespace StreamRun

variable {withExceptions : Bool} {s s' : StreamRun}

theorem senders_of_steps {a a' : Actor} {i : ActorInput} {es : List Effect}
    (h : a.Steps withExceptions i a' es) (hi : i ≠ .dropSenders) : a'.senders = a.senders := by
  cases h with
  | dropSenders => exact absurd rfl hi
  | recv _ | tick _ | close _ _ _ => exact (Actor.iterate_frame ..).2
  | command _ _ => exact (Actor.iterate_frame ..).2
  | _ => rfl

theorem senders_of_step {act : StreamAct} (h : s.step withExceptions act = some s')
    (hact : act ≠ .actor .dropSenders) :
    s'.server.actor.senders = s.server.actor.senders := by
  rcases step_cases h with ⟨i, hadvance, -, hi⟩ | ⟨stream, -, rfl⟩
  · obtain ⟨-, -, actor, es, hactor, rfl⟩ := advance_eq_some hadvance
    refine senders_of_steps hactor ?_
    rcases hi with rfl | ⟨-, closed, rfl⟩
    · exact fun hi => hact (congrArg _ hi)
    · exact ActorInput.noConfusion
  · rfl

end StreamRun

namespace ClientRun

variable {withExceptions : Bool} {r r' : ClientRun} {k : Nat}

/-- While the client is alive so are its command channels, and only a client that
is alive has calls under way. -/
structure Held (r : ClientRun) : Prop where
  alive : ∀ call ∈ r.calls, settled call = false → r.alive = true
  senders : r.alive = true → ∀ (k : Nat) (s : StreamRun), r.servers[k]? = some s →
    s.server.actor.senders = true

theorem Acts.senders {s s' : StreamRun} (halive : r.alive = true)
    (h : Acts withExceptions r r' k s s') :
    s'.server.actor.senders = s.server.actor.senders := by
  cases h with
  | idle | closed _ _ | dropped _ _ => rfl
  | own hown hstep =>
    refine StreamRun.senders_of_step hstep ?_
    rintro rfl
    rw [StreamAct.own, halive] at hown
    cases hown
  | queued _ _ hstep =>
    exact StreamRun.senders_of_step hstep (fun h => by cases h)

/-- A step that changes one call changes no other, and what it changes was under way. -/
theorem alive_of_set {id : Nat} {old new : Call} (hr : r.Held) (hcall : r.calls[id]? = some old)
    (hunder : settled old = false) :
    ∀ call ∈ r.calls.set id new, settled call = false → r.alive = true :=
  fun _ _ _ => hr.alive old (List.mem_of_getElem? hcall) hunder

theorem held_step {act : ClientAct} (hr : r.Held) (h : r.step withExceptions act = some r') :
    r'.Held := by
  have hsteps := steps_of_step h
  have hsenders : r.alive = true → ∀ (k : Nat) (s : StreamRun), r'.servers[k]? = some s →
      s.server.actor.senders = true := by
    intro halive k s' hat
    obtain ⟨s, hs, hacts⟩ := acts_of_steps hsteps hat
    rw [hacts.senders halive]
    exact hr.senders halive k s hs
  cases hsteps with
  | call halive => exact ⟨fun _ _ _ => halive, hsenders⟩
  | unpicked hcall | picked hcall _ | panic hcall _ | refuse hcall _ _ | send hcall _ _
  | reply hcall _ _ _ | event hcall _ _ _ | result hcall _ _ _ | ended hcall _ _ _ =>
    exact ⟨alive_of_set hr hcall rfl, hsenders⟩
  | @drop id k call hcall hpc =>
    refine ⟨alive_of_set hr hcall ?_, hsenders⟩
    unfold settled
    rcases hpc with hpc | ⟨handle, taken, hpc, -⟩ <;> rw [hpc]
  | dropEvents _ | server _ _ _ => exact ⟨hr.alive, hsenders⟩
  | dropClient hover =>
    refine ⟨fun call hcall hunder => ?_, fun halive => by cases halive⟩
    rw [hover call hcall] at hunder
    cases hunder

theorem held_start (servers : Nat) : (start servers).Held := by
  refine ⟨fun call hcall => absurd hcall List.not_mem_nil, fun _ k s hat => ?_⟩
  obtain rfl := List.eq_of_mem_replicate (List.mem_of_getElem? hat)
  rfl

end ClientRun

end Gearman.Client

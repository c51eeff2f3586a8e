import Gearman.Lib.Machine
import Gearman.Verify.Text
import Gearman.Worker.Verify.Unregister

/-!
# Unregistering while a connection is set up

A connection registers what the registry holds, releases the lock, and then
discards every notification that is queued, as one that predates its
registration. A function removed and broadcast in between is discarded with
them: the connection goes on advertising it. Otherwise no function is lost.
-/

namespace Gearman.Worker

open Protocol

variable {H : Type} {mode : GrabMode}

def Registry.names (r : Registry H) : List String := r.entries.map Prod.fst

theorem mem_names_remove {r : Registry H} {f function : String} :
    f ∈ (r.remove function).names ↔ f ∈ r.names ∧ f ≠ function := by
  simp only [Registry.names, Registry.remove, List.mem_map, List.mem_filter, decide_eq_true_eq]
  constructor
  · rintro ⟨e, ⟨he, hne⟩, rfl⟩
    exact ⟨⟨e, he, rfl⟩, hne⟩
  · rintro ⟨⟨e, he, rfl⟩, hne⟩
    exact ⟨e, ⟨he, hne⟩, rfl⟩

theorem head_registerPacket (name : String) (reg : RegisteredHandler H) :
    (registerPacket name reg).args.head? = some (asBytes name) := by
  unfold registerPacket
  split <;> rfl

/-- A registration advertises its function and no other. -/
theorem advertised_of_registers {conn conn' : Connection} {name : String}
    {reg : RegisteredHandler H} {io : Io}
    (h : conn.send (registerPacket name reg) io = (.ok (), conn')) {f : String}
    (hf : Advertised conn' f) : Advertised conn f ∨ f = name := by
  rcases conn.send_cases (registerPacket name reg) io with ⟨-, -, -, hsend⟩ | ⟨e, b, hsend, -⟩
  · rw [hsend] at h
    obtain rfl : _ = conn' := congrArg Prod.snd h
    obtain ⟨pkt, hmem, htype, hhead⟩ := hf
    rcases List.mem_append.mp hmem with hmem | hmem
    · exact .inl ⟨pkt, hmem, htype, hhead⟩
    · rw [List.mem_singleton.mp hmem, head_registerPacket] at hhead
      exact .inr (asBytes_injective (Option.some.inj hhead)).symm
  · rw [hsend] at h
    cases h

namespace WorkerConnection

/-- What discarding a notification costs nothing: the connection has not
advertised the function, or is to be told again. -/
def DiscardsStale (s : WorkerConnection H) : Prop :=
  ∀ conn f rest, s.pc = .discarding conn → s.notifications.queued = f :: rest →
    Advertised conn f → f ∈ rest

/-- Fewer than 16 calls are pending, and what is discarded is stale. -/
def Gentle (s : WorkerConnection H) (i : ConnectionInput H) : Prop :=
  ∀ io, i = .tryRecv io → s.notifications.queued.length < notificationCap ∧ s.DiscardsStale

/-- What the connection advertises, from its registration on. -/
def Advertises (s : WorkerConnection H) : Prop :=
  match s.pc with
  | .connected conn => conn.written = []
  | .registering conn todo =>
    (∀ f, Advertised conn f → f ∈ s.registry.names) ∧ ∀ e ∈ todo, e.1 ∈ s.registry.names
  | .discarding conn => Covered conn s.notifications 0
  | .grabbing l => l.Responds ∧ (l.pc = .done .connectionLost ∨ Covered l.conn s.notifications 0)
  | _ => True

structure SetUpInv (s : WorkerConnection H) : Prop where
  next_le : s.notifications.next ≤ s.notifications.sent.length
  /-- What is to be withdrawn is not registered any more. -/
  removed : ∀ f, f ∈ s.notifications.sent ∨ f ∈ s.unregistering → f ∉ s.registry.names
  advertises : s.Advertises

theorem setUpInv_start (registry : Registry H) : (start registry).SetUpInv where
  next_le := Nat.le_refl _
  removed f h := by rcases h with h | h <;> cases h
  advertises := trivial

variable {s s' : WorkerConnection H} {i : ConnectionInput H}

/-- The head of the queue is discarded. -/
theorem covered_discard {conn : Connection} {b : Broadcast String} (h : Covered conn b 0)
    (hstale : ∀ f rest, b.queued = f :: rest → Advertised conn f → f ∈ rest)
    (hfew : b.queued.length < notificationCap) :
    Covered conn (b.tryRecv notificationCap).2 0 := by
  have hlag : (b.tryRecv notificationCap).1 ≠ .lagged := by
    apply Broadcast.tryRecv_ne_lagged
    rw [Broadcast.queued, List.length_drop] at hfew
    omega
  have hsent := Broadcast.sent_tryRecv notificationCap b
  have hreceives := b.receives notificationCap
  generalize (b.tryRecv notificationCap).1 = found at hreceives hlag
  generalize (b.tryRecv notificationCap).2 = after at hreceives hsent ⊢
  cases hreceives with
  | @ok message rest _ hqueued hrest =>
    intro f hf hadvertised
    rw [hrest]
    rcases h f (hsent ▸ hf) hadvertised with h | h
    · exact .inl h
    · rw [hqueued] at h
      rcases List.mem_cons.mp h with rfl | h
      · exact .inr (hstale f rest hqueued hadvertised)
      · exact .inr h
  | lagged _ _ => exact absurd rfl hlag
  | empty _ => exact h

/-- A receiver with fewer than 16 notifications to go keeps up. -/
theorem keepsUp_of_few {conn : Connection} {b : Broadcast String}
    (hfew : b.queued.length < notificationCap) : KeepsUp conn b := by
  intro f hf
  have hnone : b.missed notificationCap = [] := by
    rw [Broadcast.missed, List.drop_eq_nil_iff, List.length_take]
    rw [Broadcast.queued, List.length_drop] at hfew
    unfold Broadcast.oldest
    omega
  rw [hnone] at hf
  cases hf

theorem setUpInv_grab {j : GrabInput H} {l l' : GrabLoop H} {notifications : Broadcast String}
    {notified : Bool} (hs : s.SetUpInv) (hc : s.Gentle i) (hpc : s.pc = .grabbing l)
    (hfeeds : s.Feeds i j notifications notified) (h : l.step mode j = some l') :
    ({ s with
      pc := .grabbing l', notifications := notifications, notified := notified } :
      WorkerConnection H).SetUpInv := by
  obtain ⟨hsent, hnext⟩ := next_le_feeds hfeeds hs.next_le
  have hadvertises := hs.advertises
  rw [Advertises, hpc] at hadvertises
  obtain ⟨hresponds, hcover⟩ := hadvertises
  refine ⟨hnext, fun f hf => hs.removed f (hsent ▸ hf), GrabLoop.responds_step hresponds h, ?_⟩
  rcases hcover with hlost | hcover
  · exact .inl (lost_step hlost h)
  · exact covered_grab hresponds hfeeds h hcover fun io hi => keepsUp_of_few (hc io hi).1

/-- A step that leaves the task where it is, and what it registers from alone. -/
theorem advertises_same (h : s.Advertises) (hpc : s'.pc = s.pc)
    (hregistry : s'.registry = s.registry ∨ ∀ conn todo, s.pc ≠ .registering conn todo)
    (hcovered : ∀ conn, Covered conn s.notifications 0 → Covered conn s'.notifications 0) :
    s'.Advertises := by
  unfold Advertises at h ⊢
  rw [hpc]
  cases hat : s.pc with
  | connected conn =>
    rw [hat] at h
    exact h
  | registering conn todo =>
    rw [hat] at h
    rcases hregistry with hregistry | hne
    · rw [hregistry]
      exact h
    · exact absurd hat (hne conn todo)
  | discarding conn =>
    rw [hat] at h
    exact hcovered conn h
  | grabbing l =>
    rw [hat] at h
    exact ⟨h.1, h.2.imp_right (hcovered l.conn)⟩
  | _ => trivial

/-- What is removed is no longer registered. -/
theorem removed_remove (hs : s.SetUpInv) (function f : String)
    (hf : f ∈ s.notifications.sent ∨ f ∈ s.unregistering ++ [function]) :
    f ∉ (s.registry.remove function).names := by
  rw [mem_names_remove]
  rintro ⟨hmem, hne⟩
  apply hs.removed f ?_ hmem
  rcases hf with hf | hf
  · exact .inl hf
  · rcases List.mem_append.mp hf with hf | hf
    · exact .inr hf
    · exact absurd (List.mem_singleton.mp hf) hne

/-- What is broadcast has been removed. -/
theorem removed_broadcast (hs : s.SetUpInv) {function : String}
    (hpending : function ∈ s.unregistering) (f : String)
    (hf : f ∈ s.notifications.sent ++ [function] ∨ f ∈ s.unregistering.erase function) :
    f ∉ s.registry.names := by
  apply hs.removed
  rcases hf with hf | hf
  · rcases List.mem_append.mp hf with hf | hf
    · exact .inl hf
    · exact .inr (List.mem_singleton.mp hf ▸ hpending)
  · exact .inr (List.mem_of_mem_erase hf)

theorem setUpInv_step (hs : s.SetUpInv) (hc : s.Gentle i) (h : s.step mode i = some s') :
    s'.SetUpInv := by
  have hadvertises := hs.advertises
  cases steps_of_step h with
  | shutdown _ =>
    exact ⟨hs.next_le, hs.removed, advertises_same hadvertises rfl (.inl rfl) fun _ => id⟩
  | @remove function hidle =>
    exact ⟨hs.next_le, removed_remove hs function,
      advertises_same hadvertises rfl (.inr hidle) fun _ => id⟩
  | @broadcast function hpending =>
    exact ⟨Broadcast.next_le_send hs.next_le function, removed_broadcast hs hpending,
      advertises_same hadvertises rfl (.inl rfl)
        fun conn hcover => covered_send hcover hs.next_le function⟩
  | borrow _ =>
    refine ⟨hs.next_le, hs.removed, ?_⟩
    unfold Advertises
    dsimp only
    cases s.shutdown <;> trivial
  | @connect ok _ =>
    refine ⟨hs.next_le, hs.removed, ?_⟩
    cases ok
    · trivial
    · rfl
  | dial _ | unregistered _ _ | stop _ _ _ | elapsed _ | shuttingDown _ _ | connectionLost _ _ =>
    exact ⟨hs.next_le, hs.removed, trivial⟩
  | @lock conn hpc =>
    rw [Advertises, hpc] at hadvertises
    refine ⟨hs.next_le, hs.removed, fun f ⟨pkt, hmem, _⟩ => ?_, fun e he => List.mem_map_of_mem he⟩
    rw [hadvertises] at hmem
    cases hmem
  | @registered conn conn' name reg todo io hpc hsend =>
    rw [Advertises, hpc] at hadvertises
    obtain ⟨hnames, htodo⟩ := hadvertises
    refine ⟨hs.next_le, hs.removed, fun f hf => ?_, fun e he => htodo e (List.mem_cons_of_mem _ he)⟩
    rcases advertised_of_registers hsend hf with hf | rfl
    · exact hnames f hf
    · exact htodo _ List.mem_cons_self
  | @unlock conn hpc =>
    rw [Advertises, hpc] at hadvertises
    -- whatever is queued now was removed before the lock was taken
    exact ⟨hs.next_le, hs.removed, fun f hf hadvertised =>
      absurd (hadvertises.1 f hadvertised) (hs.removed f (.inl hf))⟩
  | @discard conn function io hpc _ =>
    rw [Advertises, hpc] at hadvertises
    obtain ⟨hfew, hstale⟩ := hc io rfl
    refine ⟨Broadcast.next_le_tryRecv hs.next_le,
      fun f hf => hs.removed f (by rwa [Broadcast.sent_tryRecv] at hf), ?_⟩
    rw [Advertises]
    simp only [hpc]
    exact covered_discard hadvertises (fun f rest => hstale conn f rest hpc) hfew
  | @enter conn io hpc _ =>
    rw [Advertises, hpc] at hadvertises
    obtain ⟨hfew, hstale⟩ := hc io rfl
    refine ⟨Broadcast.next_le_tryRecv hs.next_le,
      fun f hf => hs.removed f (by rwa [Broadcast.sent_tryRecv] at hf),
      (fun response hpc => by cases hpc), .inr ?_⟩
    exact covered_discard hadvertises (fun f rest => hstale conn f rest hpc) hfew
  | grab hpc hfeeds hl => exact setUpInv_grab hs hc hpc hfeeds hl

/-- **Unregistering while a connection is set up.** In every run in which fewer
than 16 notifications are ever pending and what is discarded is stale, an
advertised function whose `unregister` has returned has had its `CANT_DO`, or its
notification is queued, from the entry to the loop until the loop gives its
connection up. -/
theorem unregister_reaches_connection (mode : GrabMode) (registry : Registry H)
    {acts : List (ConnectionInput H)} {s : WorkerConnection H} {l : GrabLoop H} {f : String}
    (hgentle : Machine.Meets (step mode) Gentle (start registry) acts)
    (h : Machine.run (step mode) (start registry) acts = some s)
    (hpc : s.pc = .grabbing l) (hlive : l.pc ≠ .done .connectionLost)
    (hreturned : f ∈ s.notifications.sent) (hadvertised : Advertised l.conn f) :
    Withdrawn l.conn f ∨ f ∈ s.notifications.queued := by
  have hs : s.SetUpInv := Machine.invariant_of_meets
    (fun _ _ _ hs hc hstep => setUpInv_step hs hc hstep) (setUpInv_start registry) hgentle h
  have hadvertises := hs.advertises
  rw [Advertises, hpc] at hadvertises
  rcases hadvertises.2 with hlost | hcover
  · exact absurd hlost hlive
  · exact hcover f hreturned hadvertised

theorem gentle_of_ne (h : ∀ io, i ≠ .tryRecv io) : s.Gentle i :=
  fun io hi => absurd hi (h io)

theorem gentle_of_empty (h : s.notifications.queued = []) : s.Gentle i := by
  refine fun io _ => ⟨by simp [h, notificationCap], fun conn f rest _ hqueued => ?_⟩
  cases h.symm.trans hqueued

theorem gentle_of_grabbing {l : GrabLoop H} (hpc : s.pc = .grabbing l)
    (hfew : s.notifications.queued.length < notificationCap) : s.Gentle i := by
  refine fun io _ => ⟨hfew, fun conn f rest hdiscarding => ?_⟩
  cases hpc.symm.trans hdiscarding

/-- A connection registers `echo` and releases the lock. -/
def connectedEcho : List (ConnectionInput Unit) :=
  [.borrow, .dial, .connect true, .lock, .sent .accepted, .unlock]

/-- A function is removed during the set-up, and broadcast after it. -/
def lateBroadcast : List (ConnectionInput Unit) :=
  connectedEcho ++ [.remove "echo", .tryRecv .accepted, .broadcast "echo"]

theorem unregister_reaches_connection_lateBroadcast :
    ∃ (s : WorkerConnection Unit) (l : GrabLoop Unit),
      Machine.run (step .uniq) (start (Registry.empty.register "echo" ())) lateBroadcast = some s ∧
      s.pc = .grabbing l ∧ "echo" ∈ s.notifications.sent ∧ Advertised l.conn "echo" ∧
      (Withdrawn l.conn "echo" ∨ "echo" ∈ s.notifications.queued) := by
  have hrun : Machine.run (step .uniq) (start (Registry.empty.register "echo" ())) lateBroadcast =
    some _ := rfl
  have hgentle : Machine.Meets (step .uniq) Gentle
      (start (Registry.empty.register "echo" ())) lateBroadcast := by
    have hsetUp : ∀ i ∈ connectedEcho ++ [.remove "echo"], ∀ s : WorkerConnection Unit,
        s.Gentle i := by
      intro i hi s
      apply gentle_of_ne
      rintro io rfl
      simp [connectedEcho] at hi
    have hbefore : Machine.Meets (step .uniq) Gentle _ (connectedEcho ++ [.remove "echo"]) :=
      Machine.meets_of_forall hsetUp (start (Registry.empty.register "echo" ()))
    exact hbefore.append rfl (.cons (gentle_of_empty rfl) rfl
      (.cons (gentle_of_ne fun io => by simp) rfl trivial))
  refine ⟨_, _, hrun, rfl, List.mem_cons_self, ?_, ?_⟩
  · exact ⟨.request .canDo [asBytes "echo"], List.mem_cons_self, .inl rfl, rfl⟩
  · exact unregister_reaches_connection .uniq _ hgentle hrun rfl (by simp [GrabLoop.start])
      List.mem_cons_self ⟨.request .canDo [asBytes "echo"], List.mem_cons_self, .inl rfl, rfl⟩

/-- A function is removed and broadcast between the registration and the discard loop. -/
def discardedUnregister : List (ConnectionInput Unit) :=
  connectedEcho ++ [.remove "echo", .broadcast "echo", .tryRecv .accepted, .tryRecv .accepted]

theorem unregister_lost_in_setUp :
    ¬∀ (mode : GrabMode) (registry : Registry Unit) (acts : List (ConnectionInput Unit))
      (s : WorkerConnection Unit) (l : GrabLoop Unit) (f : String),
      Machine.Meets (step mode)
        (fun s _ => s.notifications.queued.length + s.unregistering.length < notificationCap)
        (start registry) acts →
      Machine.run (step mode) (start registry) acts = some s → s.pc = .grabbing l →
      l.pc ≠ .done .connectionLost → f ∈ s.notifications.sent → Advertised l.conn f →
      Withdrawn l.conn f ∨ f ∈ s.notifications.queued := by
  intro h
  have hrun : Machine.run (step .uniq) (start (Registry.empty.register "echo" ()))
    discardedUnregister = some _ := rfl
  have hlost := h .uniq _ _ _ _ "echo" ?_ hrun rfl (by simp [GrabLoop.start]) List.mem_cons_self
    ⟨.request .canDo [asBytes "echo"], List.mem_cons_self, .inl rfl, rfl⟩
  · revert hlost
    unfold Withdrawn
    decide +kernel
  · decide +kernel

end WorkerConnection

/-! ## From the set-up to the grab -/

namespace UnregisterRun

/-- The functions whose `unregister` had returned when the last flush began, be
it during the set-up or before. -/
def called (r : UnregisterRun H) : List String := r.state.notifications.sent.take r.flushed

structure Settled (r : UnregisterRun H) : Prop where
  setUp : r.state.SetUpInv
  flushed_le : r.flushed ≤ r.state.notifications.sent.length
  flushing : ∀ l, r.state.pc = .grabbing l → r.Flushing 0 l

theorem settled_start (registry : Registry H) : (start registry).Settled where
  setUp := WorkerConnection.setUpInv_start registry
  flushed_le := Nat.le_refl _
  flushing l h := by cases h

variable {r : UnregisterRun H} {s : WorkerConnection H} {i : ConnectionInput H}

/-- Outside the loop. -/
theorem settled_outside (hr : r.Settled) (hs : s.SetUpInv)
    (hsent : s.notifications.sent = r.state.notifications.sent)
    (hpc : ∀ l, s.pc ≠ .grabbing l) : (r.after s).Settled where
  setUp := hs
  flushed_le := flushed_le_after hr.flushed_le (Nat.le_of_eq (congrArg List.length hsent.symm))
  flushing l h := absurd h (hpc l)

/-- A step of the `Worker`. -/
theorem settled_same (hr : r.Settled) (hs : s.SetUpInv) (hpc : s.pc = r.state.pc)
    (hsent : ∃ more, s.notifications.sent = r.state.notifications.sent ++ more)
    (hcovered : ∀ conn, Covered conn r.state.notifications 0 → Covered conn s.notifications 0) :
    (r.after s).Settled := by
  refine ⟨hs, flushed_le_after hr.flushed_le ?_, fun l hl => ?_⟩
  · obtain ⟨more, hsent⟩ := hsent
    rw [hsent, List.length_append]
    omega
  · have hl : r.state.pc = .grabbing l := hpc ▸ hl
    exact (hr.flushing l hl).same hr.flushed_le hpc hsent hcovered

theorem settled_step {r' : UnregisterRun H} (hr : r.Settled) (hc : r.state.Gentle i)
    (h : r.step mode i = some r') : r'.Settled := by
  obtain ⟨s, hs, rfl⟩ := Option.map_eq_some_iff.mp h
  have hsetUp : s.SetUpInv := WorkerConnection.setUpInv_step hr.setUp hc hs
  cases WorkerConnection.steps_of_step hs with
  | shutdown _ | remove _ => exact settled_same hr hsetUp rfl ⟨[], by simp⟩ fun _ => id
  | @broadcast function _ =>
    exact settled_same hr hsetUp rfl ⟨[function], rfl⟩
      fun conn hcover => covered_send hcover hr.setUp.next_le function
  | borrow _ | connect _ =>
    refine settled_outside hr hsetUp rfl fun l => ?_
    dsimp only
    split <;> simp
  | dial _ | lock _ | registered _ _ | unregistered _ _ | unlock _ | stop _ _ _ | elapsed _
  | shuttingDown _ _ | connectionLost _ _ =>
    exact settled_outside hr hsetUp rfl fun l => by simp
  | discard hpc _ => exact settled_outside hr hsetUp (by simp) fun l => by simp [hpc]
  | @enter conn io hpc _ =>
    refine ⟨hsetUp, flushed_le_after hr.flushed_le (by simp), fun l hl => ?_⟩
    obtain rfl : GrabLoop.start conn = l := by injection hl
    have hadvertises := hsetUp.advertises
    exact ⟨hadvertises.1, hadvertises.2, fun hgrab => by cases hgrab⟩
  | @grab i l l' j notifications notified hpc hfeeds hl =>
    obtain ⟨hsent, -⟩ := next_le_feeds hfeeds hr.setUp.next_le
    refine ⟨hsetUp,
      flushed_le_after hr.flushed_le (Nat.le_of_eq (congrArg List.length hsent.symm)), ?_⟩
    intro l₁ hl₁
    obtain rfl : l' = l₁ := by injection hl₁
    exact (hr.flushing l hpc).grab hr.flushed_le hsent
      (fun io hi => WorkerConnection.keepsUp_of_few (hc io hi).1) hfeeds hl

/-- **From the set-up to every grab.** In every run in which fewer than 16
notifications are ever pending and what a set-up discards is stale, when the loop
is about to send its `GRAB_JOB*` every function its connection has advertised
whose `unregister` had returned before the flush began, during the set-up or
since, has had its `CANT_DO`. -/
theorem withdrawn_since_setUp (mode : GrabMode) (registry : Registry H)
    {acts : List (ConnectionInput H)} {r : UnregisterRun H} {l : GrabLoop H}
    (hgentle : Machine.Meets (step mode) (fun r i => r.state.Gentle i) (start registry) acts)
    (h : Machine.run (step mode) (start registry) acts = some r)
    (hpc : r.state.pc = .grabbing l) (hgrab : l.pc = .grab) :
    ∀ f ∈ r.called, Advertised l.conn f → Withdrawn l.conn f :=
  have hr : r.Settled := Machine.invariant_of_meets
    (fun _ _ _ hr hc hs => settled_step hr hc hs) (settled_start registry) hgentle h
  (hr.flushing l hpc).flushed hgrab

/-- The notification of `lateBroadcast` is taken up by the first flush. -/
def lateWithdrawal : List (ConnectionInput Unit) :=
  [.borrow, .tryRecv .accepted, .tryRecv .accepted]

theorem withdrawn_since_setUp_lateBroadcast :
    ∃ (r : UnregisterRun Unit) (l : GrabLoop Unit),
      Machine.run (step .uniq) (start (Registry.empty.register "echo" ()))
        (WorkerConnection.lateBroadcast ++ lateWithdrawal) = some r ∧
      r.state.pc = .grabbing l ∧ l.pc = .grab ∧ "echo" ∈ r.called ∧
      Advertised l.conn "echo" ∧ Withdrawn l.conn "echo" := by
  have hrun : Machine.run (step .uniq) (start (Registry.empty.register "echo" ()))
    (WorkerConnection.lateBroadcast ++ lateWithdrawal) = some _ := rfl
  have hgentle : Machine.Meets (step .uniq) (fun (r : UnregisterRun Unit) i => r.state.Gentle i)
      (start (Registry.empty.register "echo" ()))
      (WorkerConnection.lateBroadcast ++ lateWithdrawal) := by
    have hsetUp : ∀ i ∈ WorkerConnection.connectedEcho ++ [.remove "echo"],
        ∀ r : UnregisterRun Unit, r.state.Gentle i := by
      intro i hi r
      apply WorkerConnection.gentle_of_ne
      rintro io rfl
      simp [WorkerConnection.connectedEcho] at hi
    have hbefore : Machine.Meets (step .uniq) (fun (r : UnregisterRun Unit) i => r.state.Gentle i)
        _ (WorkerConnection.connectedEcho ++ [.remove "echo"]) :=
      Machine.meets_of_forall hsetUp (start (Registry.empty.register "echo" ()))
    refine hbefore.append rfl (.cons (WorkerConnection.gentle_of_empty rfl) rfl ?_)
    refine .cons (WorkerConnection.gentle_of_ne fun io => by simp) rfl ?_
    refine .cons (WorkerConnection.gentle_of_ne fun io => by simp) rfl ?_
    refine .cons (WorkerConnection.gentle_of_grabbing rfl (by decide)) rfl ?_
    exact .cons (WorkerConnection.gentle_of_empty rfl) rfl trivial
  refine ⟨_, _, hrun, rfl, rfl, List.mem_cons_self, ?_, ?_⟩
  · exact ⟨.request .canDo [asBytes "echo"], List.mem_cons_self, .inl rfl, rfl⟩
  · exact withdrawn_since_setUp .uniq _ hgentle hrun rfl rfl "echo"
      List.mem_cons_self ⟨.request .canDo [asBytes "echo"], List.mem_cons_self, .inl rfl, rfl⟩

end UnregisterRun

end Gearman.Worker

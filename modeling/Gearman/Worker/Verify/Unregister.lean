import Gearman.Lib.Machine
import Gearman.Worker.Verify.Notifications

/-!
# Withdrawn before the next grab

`flush_unregistrations` goes through the queued notifications before each
`GRAB_JOB*`. The channel keeps 16 of them. A loop that is busy for longer finds
itself lagging, and carries on with what is kept: the functions it missed stay
advertised. As long as nothing it missed mattered, all is withdrawn in time.
-/

namespace Gearman.Worker

open Protocol

/-- A task with the notifications the grab loop has to act on. -/
structure UnregisterRun (H : Type) where
  state : WorkerConnection H
  /-- The notifications the receiver was past when the loop was entered. -/
  entered : Nat
  /-- The notifications sent when the last flush began. -/
  flushed : Nat

namespace UnregisterRun

variable {H : Type} {mode : GrabMode}

def start (registry : Registry H) : UnregisterRun H := ⟨.start registry, 0, 0⟩

/-- The loop goes from its head to its flush. -/
def flushBegins : Option (GrabPc H) → Option (GrabPc H) → Bool
  | some .head, some .flush => true
  | _, _ => false

/-- The run after a step of the task or of its `Worker`. -/
def after (r : UnregisterRun H) (s : WorkerConnection H) : UnregisterRun H where
  state := s
  entered := if r.state.pc.grab.isNone then s.notifications.next else r.entered
  flushed :=
    if flushBegins r.state.pc.grab s.pc.grab then s.notifications.sent.length else r.flushed

def step (mode : GrabMode) (r : UnregisterRun H) (i : ConnectionInput H) :
    Option (UnregisterRun H) :=
  (r.state.step mode i).map r.after

/-- The functions whose `unregister` had returned, with the loop entered before,
when the last flush began. -/
def due (r : UnregisterRun H) : List String :=
  (r.state.notifications.sent.take r.flushed).drop r.entered

/-- A flush that lags loses nothing the connection has to be told. -/
def Prompt (r : UnregisterRun H) (i : ConnectionInput H) : Prop :=
  ∀ io l, i = .tryRecv io → r.state.pc = .grabbing l → KeepsUp l.conn r.state.notifications

/-- What holds of the loop, of the notifications behind the first `n`. -/
structure Flushing (r : UnregisterRun H) (n : Nat) (l : GrabLoop H) : Prop where
  responds : l.Responds
  covered : l.pc = .done .connectionLost ∨ Covered l.conn r.state.notifications n
  flushed : l.pc = .grab → ∀ f ∈ (r.state.notifications.sent.take r.flushed).drop n,
    Advertised l.conn f → Withdrawn l.conn f

structure Inv (r : UnregisterRun H) : Prop where
  next_le : r.state.notifications.next ≤ r.state.notifications.sent.length
  flushed_le : r.flushed ≤ r.state.notifications.sent.length
  flushing : ∀ l, r.state.pc = .grabbing l → r.Flushing r.entered l

theorem inv_start (registry : Registry H) : (start registry).Inv where
  next_le := Nat.le_refl _
  flushed_le := Nat.le_refl _
  flushing l h := by cases h

/-- The loop gets to its `GRAB_JOB*` through an empty queue. -/
theorem to_grab {l l' : GrabLoop H} {j : GrabInput H} (h : l.step mode j = some l')
    (hpc : l'.pc = .grab) :
    l.pc = .grab ∨ (∃ io, j = .unregistered .none io) ∧ l'.conn = l.conn := by
  cases GrabLoop.steps_of_step h with
  | report _ => exact .inl hpc
  | @shutdown set _ => cases set <;> cases hpc
  | withdraw _ | grab _ | preSleep _ =>
    rcases l.sendOr_cases _ _ _ with ⟨-, hsend⟩ | ⟨broken, hsend⟩ <;> rw [hsend] at hpc <;>
      cases hpc
  | lagged _ => exact .inl hpc
  | @flushed io _ => exact .inr ⟨⟨io, rfl⟩, rfl⟩
  | @answer pkt _ =>
    have hpc : (GrabLoop.onAnswer pkt : GrabPc H) = .grab := hpc
    rcases GrabLoop.onAnswer_cases (H := H) pkt with h | h | h <;> rw [h] at hpc <;> cases hpc
  | _ => cases hpc

variable {r : UnregisterRun H} {s : WorkerConnection H} {n : Nat}

theorem flushBegins_iff {pc pc' : Option (GrabPc H)} :
    flushBegins pc pc' = true ↔ pc = some .head ∧ pc' = some .flush := by
  constructor
  · intro h
    unfold flushBegins at h
    split at h
    · exact ⟨rfl, rfl⟩
    · cases h
  · rintro ⟨rfl, rfl⟩
    rfl

theorem flushed_le_after (hr : r.flushed ≤ r.state.notifications.sent.length)
    (hsent : r.state.notifications.sent.length ≤ s.notifications.sent.length) :
    (r.after s).flushed ≤ s.notifications.sent.length := by
  unfold after
  dsimp only
  split
  · exact Nat.le_refl _
  · exact Nat.le_trans hr hsent

/-- Outside the loop nothing is due. -/
theorem inv_outside (hr : r.Inv) (hnext : s.notifications.next ≤ s.notifications.sent.length)
    (hsent : s.notifications.sent = r.state.notifications.sent)
    (hpc : ∀ l, s.pc ≠ .grabbing l) : (r.after s).Inv where
  next_le := hnext
  flushed_le := flushed_le_after hr.flushed_le (Nat.le_of_eq (congrArg List.length hsent.symm))
  flushing l h := absurd h (hpc l)

theorem entered_after {l : GrabLoop H} (hpc : r.state.pc = .grabbing l) :
    (r.after s).entered = r.entered := by
  simp [after, hpc, ConnectionPc.grab]

/-- Unless a flush begins, what was broadcast before the last one stays as it was. -/
theorem taken_after (hr : r.flushed ≤ r.state.notifications.sent.length)
    (hsent : ∃ more, s.notifications.sent = r.state.notifications.sent ++ more)
    (hflush : ¬(r.state.pc.grab = some .head ∧ s.pc.grab = some .flush)) :
    s.notifications.sent.take (r.after s).flushed =
      r.state.notifications.sent.take r.flushed := by
  obtain ⟨more, hsent⟩ := hsent
  have hflushed : (r.after s).flushed = r.flushed := if_neg (mt flushBegins_iff.mp hflush)
  rw [hflushed, hsent, List.take_append_of_le_length hr]

/-- Where the loop stays where it is. -/
theorem Flushing.same {l : GrabLoop H} (h : r.Flushing n l)
    (hr : r.flushed ≤ r.state.notifications.sent.length) (hpc : s.pc = r.state.pc)
    (hsent : ∃ more, s.notifications.sent = r.state.notifications.sent ++ more)
    (hcovered : ∀ conn, Covered conn r.state.notifications n → Covered conn s.notifications n) :
    (r.after s).Flushing n l := by
  have hflush : ¬(r.state.pc.grab = some .head ∧ s.pc.grab = some .flush) := by
    rintro ⟨hhead, hflush⟩
    rw [hpc, hhead] at hflush
    cases hflush
  refine ⟨h.responds, h.covered.imp_right (hcovered l.conn), fun hgrab => ?_⟩
  have htaken := taken_after hr hsent hflush
  intro f hf
  rw [show (r.after s).state.notifications = s.notifications from rfl, htaken] at hf
  exact h.flushed hgrab f hf

/-- A step of the `Worker`. -/
theorem inv_same (hr : r.Inv) (hpc : s.pc = r.state.pc)
    (hnext : s.notifications.next ≤ s.notifications.sent.length)
    (hsent : ∃ more, s.notifications.sent = r.state.notifications.sent ++ more)
    (hcovered : ∀ conn, Covered conn r.state.notifications r.entered →
      Covered conn s.notifications r.entered) : (r.after s).Inv := by
  refine ⟨hnext, flushed_le_after hr.flushed_le ?_, fun l hl => ?_⟩
  · obtain ⟨more, hsent⟩ := hsent
    rw [hsent, List.length_append]
    omega
  · have hl : r.state.pc = .grabbing l := hpc ▸ hl
    rw [entered_after hl]
    exact (hr.flushing l hl).same hr.flushed_le hpc hsent hcovered

theorem queued_of_flushed {i : ConnectionInput H} {io : Io} {notifications : Broadcast String}
    {notified : Bool} {s : WorkerConnection H}
    (h : s.Feeds i (.unregistered .none io) notifications notified) :
    notifications.queued = [] := by
  generalize hj : GrabInput.unregistered .none io = j at h
  cases h with
  | tryRecv io' =>
    have hfound : Unregistration.none =
        unregistration (s.notifications.tryRecv notificationCap).1 := by injection hj
    have hreceives := s.notifications.receives notificationCap
    generalize (s.notifications.tryRecv notificationCap).1 = found at hreceives hfound
    generalize (s.notifications.tryRecv notificationCap).2 = after at hreceives ⊢
    cases hreceives with
    | ok _ _ _ | lagged _ _ => cases hfound
    | empty h => exact h
  | _ => cases hj

/-- A step of the loop that loses nothing it needs. -/
theorem Flushing.grab {i : ConnectionInput H} {j : GrabInput H} {l l' : GrabLoop H}
    {notifications : Broadcast String} {notified : Bool} (hl : r.Flushing n l)
    (hr : r.flushed ≤ r.state.notifications.sent.length)
    (hsent : notifications.sent = r.state.notifications.sent)
    (hkeeps : ∀ io, i = .tryRecv io → KeepsUp l.conn r.state.notifications)
    (hfeeds : r.state.Feeds i j notifications notified) (h : l.step mode j = some l') :
    (r.after { r.state with
      pc := .grabbing l'
      notifications := notifications
      notified := notified }).Flushing n l' := by
  have hcover' : l'.pc = .done .connectionLost ∨ Covered l'.conn notifications n := by
    rcases hl.covered with hlost | hcover
    · exact .inl (lost_step hlost h)
    · exact covered_grab hl.responds hfeeds h hcover hkeeps
  refine ⟨GrabLoop.responds_step hl.responds h, hcover', fun hgrab f hf hadvertised => ?_⟩
  have hflush : ¬(r.state.pc.grab = some .head ∧
      (ConnectionPc.grabbing l').grab = some .flush) := by
    rintro ⟨-, hflush⟩
    rw [ConnectionPc.grab, hgrab] at hflush
    cases hflush
  have htaken := taken_after (s := { r.state with
    pc := .grabbing l', notifications := notifications, notified := notified }) hr
    ⟨[], by rw [List.append_nil]; exact hsent⟩ hflush
  have hf : f ∈ (r.state.notifications.sent.take r.flushed).drop n := htaken ▸ hf
  have hgrows := grows_step hl.responds h
  rcases to_grab h hgrab with hgrab' | ⟨⟨io, rfl⟩, hconn⟩
  · exact hgrows.withdrawn f (hl.flushed hgrab' f hf (hgrows.advertised f hadvertised))
  · have hcover : Covered l'.conn notifications n := by
      rcases hcover' with hlost | hcover
      · cases hgrab.symm.trans hlost
      · exact hcover
    have hf : f ∈ notifications.sent.drop n := by
      rw [List.drop_take, ← hsent] at hf
      exact List.mem_of_mem_take hf
    rcases hcover f hf hadvertised with h | h
    · exact h
    · rw [queued_of_flushed hfeeds] at h
      cases h

theorem inv_grab {i : ConnectionInput H} {j : GrabInput H} {l l' : GrabLoop H}
    {notifications : Broadcast String} {notified : Bool} (hr : r.Inv) (hc : r.Prompt i)
    (hpc : r.state.pc = .grabbing l) (hfeeds : r.state.Feeds i j notifications notified)
    (h : l.step mode j = some l') :
    (r.after { r.state with
      pc := .grabbing l', notifications := notifications, notified := notified }).Inv := by
  obtain ⟨hsent, hnext⟩ := next_le_feeds hfeeds hr.next_le
  refine ⟨hnext,
    flushed_le_after hr.flushed_le (Nat.le_of_eq (congrArg List.length hsent.symm)), ?_⟩
  intro l₁ hl₁
  obtain rfl : l' = l₁ := by injection hl₁
  rw [entered_after hpc]
  exact (hr.flushing l hpc).grab hr.flushed_le hsent (fun io hi => hc io l hi hpc) hfeeds h

theorem inv_step {r' : UnregisterRun H} {i : ConnectionInput H} (hr : r.Inv) (hc : r.Prompt i)
    (h : r.step mode i = some r') : r'.Inv := by
  obtain ⟨s, hs, rfl⟩ := Option.map_eq_some_iff.mp h
  cases WorkerConnection.steps_of_step hs with
  | shutdown _ | remove _ => exact inv_same hr rfl hr.next_le ⟨[], by simp⟩ fun _ => id
  | @broadcast function _ =>
    exact inv_same hr rfl (Broadcast.next_le_send hr.next_le function) ⟨[function], rfl⟩
      fun conn hcover => covered_send hcover hr.next_le function
  | borrow _ =>
    refine inv_outside hr hr.next_le rfl fun l => ?_
    dsimp only
    split <;> simp
  | @connect ok _ =>
    refine inv_outside hr hr.next_le rfl fun l => ?_
    dsimp only
    split <;> simp
  | dial _ | lock _ | registered _ _ | unregistered _ _ | unlock _ | stop _ _ _ | elapsed _
  | shuttingDown _ _ | connectionLost _ _ => exact inv_outside hr hr.next_le rfl fun l => by simp
  | discard hpc _ =>
    exact inv_outside hr (Broadcast.next_le_tryRecv hr.next_le) (by simp) fun l => by simp [hpc]
  | @enter conn io hpc _ =>
    refine ⟨Broadcast.next_le_tryRecv hr.next_le, flushed_le_after hr.flushed_le (by simp),
      fun l hl => ?_⟩
    obtain rfl : GrabLoop.start conn = l := by injection hl
    -- all that is queued is still to be received
    have hentered : (r.after { r.state with
        pc := .grabbing (.start conn)
        notifications := (r.state.notifications.tryRecv notificationCap).2 }).entered =
        (r.state.notifications.tryRecv notificationCap).2.next := by
      simp [after, hpc, ConnectionPc.grab]
    refine ⟨(fun response h => by cases h), .inr ?_, (fun h => by cases h)⟩
    rw [hentered]
    exact fun f hf _ => .inr hf
  | grab hpc hfeeds hl => exact inv_grab hr hc hpc hfeeds hl

/-- The notifications that some inputs broadcast. -/
def broadcasts (acts : List (ConnectionInput H)) : Nat :=
  acts.countP fun
    | .broadcast _ => true
    | _ => false

theorem sent_length_step {i : ConnectionInput H} {s s' : WorkerConnection H}
    (h : s.step mode i = some s') :
    s'.notifications.sent.length ≤ s.notifications.sent.length + broadcasts [i] := by
  cases WorkerConnection.steps_of_step h with
  | @broadcast function _ => exact Nat.le_of_eq List.length_append
  | discard _ _ | enter _ _ => simp
  | grab _ hfeeds _ =>
    cases hfeeds <;> simp
  | _ => exact Nat.le_add_right _ _

/-- Sixteen calls of `unregister` do not make a flush lag. -/
theorem prompt_of_few (mode : GrabMode) {acts : List (ConnectionInput H)} {r : UnregisterRun H}
    (h : r.state.notifications.sent.length + broadcasts acts ≤ notificationCap) :
    Machine.Meets (step mode) Prompt r acts := by
  induction acts generalizing r with
  | nil => trivial
  | cons i acts ih =>
    have hcount : broadcasts (i :: acts) = broadcasts [i] + broadcasts acts := by
      rw [broadcasts, ← List.singleton_append, List.countP_append]
      rfl
    refine ⟨fun io l _ _ f hf => ?_, fun r' hr' => ih ?_⟩
    · have holdest : r.state.notifications.oldest notificationCap = 0 := by
        unfold Broadcast.oldest
        omega
      rw [Broadcast.missed, holdest, List.take_zero, List.drop_nil] at hf
      cases hf
    · obtain ⟨s, hs, rfl⟩ := Option.map_eq_some_iff.mp hr'
      have hlength : (r.after s).state.notifications.sent.length ≤ _ := sent_length_step hs
      omega

/-- **A function is withdrawn before the next grab.** In every run in which no
flush lags behind a notification that the connection still needs, when the loop
is about to send its `GRAB_JOB*` every advertised function whose `unregister` had
returned before the flush began has had its `CANT_DO`. -/
theorem withdrawn_before_grab (mode : GrabMode) (registry : Registry H)
    {acts : List (ConnectionInput H)} {r : UnregisterRun H} {l : GrabLoop H}
    (hprompt : Machine.Meets (step mode) Prompt (start registry) acts)
    (h : Machine.run (step mode) (start registry) acts = some r)
    (hpc : r.state.pc = .grabbing l) (hgrab : l.pc = .grab) :
    ∀ f ∈ r.due, Advertised l.conn f → Withdrawn l.conn f :=
  have hr : r.Inv := Machine.invariant_of_meets (fun _ _ _ hr hc hs => inv_step hr hc hs)
    (inv_start registry) hprompt h
  (hr.flushing l hpc).flushed hgrab

/-- A job is assigned to a worker that handles `echo`. -/
def jobRunning : List (ConnectionInput Unit) :=
  [.borrow, .dial, .connect true, .lock, .sent .accepted, .unlock, .tryRecv .accepted, .borrow,
    .tryRecv .accepted, .sent .accepted, .recv (.ok (some GrabLoop.assignment)), .lookup]

/-- The handler returns, and the loop gets to the flush. -/
def jobDone : List (ConnectionInput Unit) :=
  [.returned (.ok [1]), .sent .accepted, .borrow]

/-- `Worker::unregister`. -/
def unregister (function : String) : List (ConnectionInput Unit) :=
  [.remove function, .broadcast function]

/-- A function is unregistered while its job runs. -/
def busyUnregister : List (ConnectionInput Unit) :=
  jobRunning ++ unregister "echo" ++ jobDone ++ [.tryRecv .accepted, .tryRecv .accepted]

theorem withdrawn_before_grab_busyUnregister :
    ∃ (r : UnregisterRun Unit) (l : GrabLoop Unit),
      Machine.run (step .uniq) (start (Registry.empty.register "echo" ())) busyUnregister =
        some r ∧
      r.state.pc = .grabbing l ∧ l.pc = .grab ∧ "echo" ∈ r.due ∧ Advertised l.conn "echo" ∧
      Withdrawn l.conn "echo" := by
  have hrun : Machine.run (step .uniq) (start (Registry.empty.register "echo" ())) busyUnregister =
    some _ := rfl
  refine ⟨_, _, hrun, rfl, rfl, List.mem_cons_self, ?_, ?_⟩
  · exact ⟨.request .canDo [asBytes "echo"], List.mem_cons_self, .inl rfl, rfl⟩
  · exact withdrawn_before_grab .uniq _ (prompt_of_few .uniq (by decide)) hrun rfl rfl "echo"
      List.mem_cons_self ⟨.request .canDo [asBytes "echo"], List.mem_cons_self, .inl rfl, rfl⟩

/-- Sixteen more calls push the notification out of the channel. -/
def laggingFlush : List (ConnectionInput Unit) :=
  jobRunning ++ unregister "echo" ++ (List.replicate 16 (unregister "x")).flatten ++ jobDone ++
    List.replicate 18 (.tryRecv .accepted)

theorem flush_skips_cantDo :
    ¬∀ (mode : GrabMode) (registry : Registry Unit) (acts : List (ConnectionInput Unit))
      (r : UnregisterRun Unit) (l : GrabLoop Unit),
      Machine.run (step mode) (start registry) acts = some r → r.state.pc = .grabbing l →
      l.pc = .grab → ∀ f ∈ r.due, Advertised l.conn f → Withdrawn l.conn f := by
  intro h
  have hrun : Machine.run (step .uniq) (start (Registry.empty.register "echo" ())) laggingFlush =
    some _ := rfl
  have hwithdrawn := h .uniq _ _ _ _ hrun rfl rfl "echo" List.mem_cons_self
    ⟨.request .canDo [asBytes "echo"], List.mem_cons_self, .inl rfl, rfl⟩
  revert hwithdrawn
  unfold Withdrawn
  decide +kernel

end UnregisterRun

end Gearman.Worker

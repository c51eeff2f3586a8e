import Gearman.Worker.Verify.Pool

/-!
# Shutdown comes to an end

After the flag is set every step of a task, uses of a `Reporter` apart, brings
it nearer to its end, and so does every step of `Worker::shutdown`. What keeps a
task waiting then is a connection attempt, a write, the answer to a grab or a
handler, never the end of a backoff and never a `NOOP`.
-/

namespace Gearman.Worker

open Protocol

variable {H : Type} {mode : GrabMode}

/-! ## Steps left to a task -/

/-- With the flag set, the steps the loop has left, if these many notifications
are queued. -/
def GrabPc.left (queued : Nat) : GrabPc H → Nat
  | .done .shuttingDown => 1
  | .head => 2
  | .done .connectionLost | .respond _ => 3
  | .running _ _ | .asleep => 4
  | .dispatch _ | .preSleep => 5
  | .answer => 6
  | .grab => 7
  | .flush => 8 + queued

/-- With the flag set, the steps the task has left, if these many functions are
registered and these many notifications are queued. -/
def ConnectionPc.left (registered queued : Nat) : ConnectionPc H → Nat
  | .returned => 0
  | .head => 1
  | .backingOff => 2
  | .grabbing l => l.pc.left queued
  | .discarding _ => 3 + queued
  | .registering _ todo => 4 + todo.length + queued
  | .connected _ => 5 + registered + queued
  | .connecting => 6 + registered + queued
  | .dial => 7 + registered + queued

namespace GrabLoop

variable {l l' : GrabLoop H}

theorem pc_sendOr (l : GrabLoop H) (pkt : Packet) (io : Io) (next : GrabPc H) :
    (l.sendOr pkt io next).pc = next ∨ (l.sendOr pkt io next).pc = .done .connectionLost := by
  rcases l.sendOr_cases pkt io next with ⟨-, h⟩ | ⟨b, h⟩
  · exact .inl (by rw [h])
  · exact .inr (by rw [h])

/-- A step takes a notification and goes on with the flush, or leaves fewer
steps, whatever is queued. -/
theorem left_of_step {i : GrabInput H} (h : l.step mode i = some l')
    (hreport : ∀ handle report io, i ≠ .report handle report io)
    (hset : ∀ set, i = .shutdown set → set = true) :
    (∀ queued queued', l'.pc.left queued' < l.pc.left queued) ∨
      l.pc = .flush ∧ l'.pc = .flush ∧
        ∃ found io, i = .unregistered found io ∧ found ≠ .none := by
  have leads : ∀ {pc : GrabPc H} (pc' : GrabPc H), l.pc = pc → l'.pc = pc' →
      (∀ queued queued', pc'.left queued' < pc.left queued) →
      (∀ queued queued', l'.pc.left queued' < l.pc.left queued) ∨ l.pc = .flush ∧ l'.pc = .flush ∧
        ∃ found io, i = .unregistered found io ∧ found ≠ .none := by
    intro pc pc' hpc hpc' hlt
    rw [hpc, hpc']
    exact .inl hlt
  cases steps_of_step h with
  | report _ => exact absurd rfl (hreport _ _ _)
  | @shutdown set hpc =>
    cases hset set rfl
    exact leads (.done .shuttingDown) hpc rfl (by simp [GrabPc.left])
  | @withdraw function io hpc =>
    rcases l.pc_sendOr (.request .cantDo [asBytes function]) io .flush with h | h
    · exact .inr ⟨hpc, h, _, _, rfl, by simp⟩
    · exact leads _ hpc h fun queued queued' => by simp only [GrabPc.left]; omega
  | lagged hpc => exact .inr ⟨hpc, hpc, _, _, rfl, by simp⟩
  | flushed hpc => exact leads .grab hpc rfl fun queued queued' => by simp only [GrabPc.left]; omega
  | @grab io hpc =>
    rcases l.pc_sendOr (.request mode.grabType []) io .answer with h | h
    · exact leads _ hpc h (by simp [GrabPc.left])
    · exact leads _ hpc h (by simp [GrabPc.left])
  | @preSleep io hpc =>
    rcases l.pc_sendOr (.request .preSleep []) io .asleep with h | h
    · exact leads _ hpc h (by simp [GrabPc.left])
    · exact leads _ hpc h (by simp [GrabPc.left])
  | @answer pkt hpc =>
    rcases onAnswer_cases (H := H) pkt with hanswer | hanswer | hanswer <;>
      exact leads _ hpc hanswer (by simp [GrabPc.left])
  | lost hpc _ =>
    rcases hpc with hpc | hpc
    · exact leads (.done .connectionLost) hpc rfl (by simp [GrabPc.left])
    · exact leads (.done .connectionLost) hpc rfl (by simp [GrabPc.left])
  | @unregistered pkt registry hpc _ =>
    exact leads (.respond (unregisteredResponse (assignedJob pkt).handle)) hpc rfl
      (by simp [GrabPc.left])
  | @registered pkt registry reg hpc _ =>
    exact leads (.running reg.handler (assignedJob pkt)) hpc rfl (by simp [GrabPc.left])
  | @returned handler job outcome hpc =>
    exact leads (.respond (jobResponse job.handle outcome)) hpc rfl (by simp [GrabPc.left])
  | respond hpc => exact leads .head hpc rfl (by simp [GrabPc.left])
  | wake hpc => exact leads .head hpc rfl (by simp [GrabPc.left])
  | changed hpc => exact leads (.done .shuttingDown) hpc rfl (by simp [GrabPc.left])

end GrabLoop

namespace WorkerConnection

variable {s s' : WorkerConnection H} {i : ConnectionInput H}

def left (s : WorkerConnection H) : Nat :=
  s.pc.left s.registry.entries.length s.notifications.queued.length

/-- After the flag a step of the task leaves it fewer. -/
theorem left_of_step (hset : s.shutdown = true) (hi : i.ofWorker = false)
    (h : s.step mode i = some s') : s'.left + (if !i.isReport then 1 else 0) ≤ s.left := by
  have hcounts : (if !i.isReport then 1 else 0) ≤ 1 := by
    split <;> omega
  have hqueued := Broadcast.length_queued_tryRecv_le notificationCap s.notifications
  unfold left
  cases steps_of_step h with
  | shutdown _ | remove _ | broadcast _ => cases hi
  | borrow hpc =>
    simp only [hpc, hset, if_true, ConnectionPc.left]
    omega
  | dial hpc | lock hpc | elapsed hpc | unregistered hpc _ | stop hpc _ _ =>
    simp only [hpc, ConnectionPc.left]
    omega
  | @connect ok hpc =>
    cases ok <;> simp only [hpc, ConnectionPc.left, if_true, Bool.false_eq_true, if_false] <;> omega
  | registered hpc _ | unlock hpc =>
    simp only [hpc, ConnectionPc.left, List.length_cons, List.length_nil]
    omega
  | discard hpc hfound =>
    have hsome : (s.notifications.tryRecv notificationCap).1 ≠ .empty := by
      rw [hfound]
      nofun
    have hlt := Broadcast.length_queued_tryRecv hsome
    simp only [hpc, ConnectionPc.left]
    omega
  | enter hpc _ =>
    simp only [hpc, ConnectionPc.left, GrabLoop.start, GrabPc.left]
    omega
  | shuttingDown hpc hdone | connectionLost hpc hdone =>
    simp only [hpc, hdone, ConnectionPc.left, GrabPc.left]
    omega
  | @grab i l l' j notifications notified hpc hfeeds hl =>
    simp only [hpc, ConnectionPc.left]
    by_cases hreport : ∃ handle report io, j = .report handle report io
    · obtain ⟨handle, report, io, rfl⟩ := hreport
      cases hfeeds
      cases GrabLoop.steps_of_step hl with
      | report _ => exact Nat.le_refl _
    · have hj : ∀ handle report io, j ≠ .report handle report io :=
        fun handle report io h => hreport ⟨handle, report, io, h⟩
      have hflag : ∀ set, j = .shutdown set → set = true := by
        rintro set rfl
        cases hfeeds
        exact hset
      rcases GrabLoop.left_of_step hl hj hflag with
        hlt | ⟨hflush, hflush', found, io, rfl, hfound⟩
      · have hlt := hlt s.notifications.queued.length notifications.queued.length
        omega
      · cases hfeeds with
        | tryRecv io =>
          have hsome : (s.notifications.tryRecv notificationCap).1 ≠ .empty := by
            intro hempty
            rw [hempty] at hfound
            exact hfound rfl
          have hlt := Broadcast.length_queued_tryRecv hsome
          rw [hflush, hflush']
          simp only [GrabPc.left]
          omega

end WorkerConnection

/-! ## Steps left to a worker -/

theorem sum_map_set {α : Type*} (f : α → Nat) {l : List α} {n : Nat} {a : α} (b : α)
    (h : l[n]? = some a) : ((l.set n b).map f).sum + f a = (l.map f).sum + f b := by
  induction l generalizing n with
  | nil => cases h
  | cons c l ih =>
    cases n with
    | zero =>
      cases h
      simp only [List.set_cons_zero, List.map_cons, List.sum_cons]
      omega
    | succ n =>
      have htail := ih h
      simp only [List.set_cons_succ, List.map_cons, List.sum_cons]
      omega

def Task.left (shared : Shared H) (t : Task H) : Nat :=
  (if t.panicked then 0 else (t.within shared).left) + if t.joined then 0 else 1

/-- A use of a `Reporter` by what one of the tasks runs. -/
def PoolAct.isReport : PoolAct H → Bool
  | .task _ i => i.isReport
  | _ => false

namespace Pool

variable {p p' : Pool H} {act : PoolAct H}

def left (p : Pool H) : Nat :=
  (p.tasks.map (Task.left p.shared)).sum + if p.returned then 0 else 1

/-- The flag is set, and no call of `unregister` is left. -/
def Stopping (p : Pool H) : Prop := p.shared.shutdown = true ∧ p.shared.unregistering = []

theorem left_set {n k : Nat} {t t' : Task H} (ht : p.tasks[n]? = some t)
    (hle : t'.left p.shared + k ≤ t.left p.shared) :
    left { p with tasks := p.tasks.set n t' } + k ≤ p.left := by
  have hsum := sum_map_set (Task.left p.shared) t' ht
  unfold left
  dsimp only
  omega

theorem Task.left_resume {t : Task H} {shared : Shared H} {i : ConnectionInput H}
    {s : WorkerConnection H} (hset : shared.shutdown = true) (htakes : t.takes i = true)
    (h : (t.within shared).step mode i = some s) :
    (t.resume s).left shared + (if !i.isReport then 1 else 0) ≤ t.left shared := by
  obtain ⟨hi, hreport⟩ := Task.takes_iff.mp htakes
  have hwithin := Task.within_resume hi h
  have hjoined : (t.resume s).joined = t.joined := rfl
  have hpanicked : (t.resume s).panicked = t.panicked := rfl
  unfold Task.left
  rw [hwithin, hjoined, hpanicked]
  cases hp : t.panicked with
  | true => simp [hreport hp]
  | false =>
    have hleft := WorkerConnection.left_of_step (s := t.within shared) hset hi h
    simp only [Bool.false_eq_true, if_false]
    omega

theorem left_step (hp : p.Stopping) (h : p.step mode act = some p') :
    p'.Stopping ∧ p'.left + (if !act.isReport then 1 else 0) ≤ p.left := by
  obtain ⟨hset, hnone⟩ := hp
  cases steps_of_step h with
  | remove hunset _ | shutdown hunset _ =>
    rw [hset] at hunset
    cases hunset
  | broadcast hmem =>
    rw [hnone] at hmem
    cases hmem
  | join ht _ _ hjoined =>
    refine ⟨⟨hset, hnone⟩, left_set ht ?_⟩
    simp only [Task.left, Task.within, hjoined, PoolAct.isReport]
    simp
  | drained _ _ hreturned =>
    refine ⟨⟨hset, hnone⟩, ?_⟩
    simp [left, hreturned, PoolAct.isReport]
  | task ht htakes hs => exact ⟨⟨hset, hnone⟩, left_set ht (Task.left_resume hset htakes hs)⟩
  | panic ht hrunning hpanicked =>
    refine ⟨⟨hset, hnone⟩, left_set ht ?_⟩
    obtain ⟨handler, job, hjob⟩ := Task.inHandler_iff.mp hrunning
    obtain ⟨l, hpc, hl⟩ := ConnectionPc.grab_eq_some.mp hjob
    simp only [Task.left, Task.within, WorkerConnection.left, hpanicked, hpc, ConnectionPc.left, hl,
      GrabPc.left, PoolAct.isReport, Bool.false_eq_true, Bool.not_false, if_true, if_false]
    omega

/-! ## How many there are -/

/-- What is to be registered is registered. -/
theorem WorkerConnection.todo_step {s s' : WorkerConnection H} {i : ConnectionInput H}
    (hs : ∀ conn todo, s.pc = .registering conn todo → todo.length ≤ s.registry.entries.length)
    (h : s.step mode i = some s') :
    ∀ conn todo, s'.pc = .registering conn todo → todo.length ≤ s'.registry.entries.length := by
  intro conn todo hpc'
  cases WorkerConnection.steps_of_step h with
  | shutdown _ | broadcast _ | discard _ _ => exact hs conn todo hpc'
  | remove hfree => exact absurd hpc' (hfree conn todo)
  | lock _ =>
    cases hpc'
    exact Nat.le_refl _
  | registered hpc _ =>
    cases hpc'
    exact Nat.le_of_succ_le (hs _ _ hpc)
  | borrow _ | connect _ =>
    dsimp only at hpc'
    split at hpc' <;> cases hpc'
  | _ => cases hpc'

theorem WorkerConnection.left_le {s : WorkerConnection H}
    (hs : ∀ conn todo, s.pc = .registering conn todo → todo.length ≤ s.registry.entries.length) :
    s.left ≤ 8 + s.registry.entries.length + s.notifications.sent.length := by
  have hqueued : s.notifications.queued.length ≤ s.notifications.sent.length := by
    rw [Broadcast.queued, List.length_drop]
    exact Nat.sub_le _ _
  unfold WorkerConnection.left
  cases hpc : s.pc with
  | registering conn todo =>
    have htodo := hs conn todo hpc
    simp only [ConnectionPc.left]
    omega
  | grabbing l =>
    have hl : l.pc.left s.notifications.queued.length ≤ 8 + s.notifications.queued.length := by
      unfold GrabPc.left
      split <;> omega
    simp only [ConnectionPc.left]
    omega
  | _ =>
    simp only [ConnectionPc.left]
    omega

theorem sum_map_le {α : Type*} {f : α → Nat} {l : List α} {k : Nat} (h : ∀ a ∈ l, f a ≤ k) :
    (l.map f).sum ≤ l.length * k := by
  induction l with
  | nil => simp
  | cons a l ih =>
    have hrest := ih fun b hb => h b (List.mem_cons_of_mem a hb)
    have ha := h a List.mem_cons_self
    rw [List.map_cons, List.sum_cons, List.length_cons, Nat.succ_mul]
    omega

/-- No `unregister` is under way once the flag is set. -/
theorem stopping_of_run {b : WorkerBuilder H} {acts : List (PoolAct H)}
    (h : Machine.run (step mode) b.run acts = some p) (hset : p.shared.shutdown = true) :
    p.Stopping := by
  refine ⟨hset, ?_⟩
  revert hset
  refine Machine.run_induction
    (P := fun _ (p : Pool H) => p.shared.shutdown = true → p.shared.unregistering = [])
    (fun _ => rfl) ?_ h
  intro _ p act p' _ hp hs hset
  cases steps_of_step hs with
  | remove hunset _ =>
    rw [show p.shared.shutdown = true from hset] at hunset
    cases hunset
  | broadcast hmem =>
    rw [hp hset] at hmem
    cases hmem
  | shutdown _ hnone => exact hnone
  | join _ _ _ _ | drained _ _ _ | task _ _ _ | panic _ _ _ => exact hp hset

theorem left_le {b : WorkerBuilder H} {acts : List (PoolAct H)}
    (h : Machine.run (step mode) b.run acts = some p) :
    p.left ≤ p.tasks.length *
      (9 + p.shared.registry.entries.length + p.shared.sent.length) + 1 := by
  have htasks : ∀ t ∈ p.tasks, t.left p.shared ≤
      9 + p.shared.registry.entries.length + p.shared.sent.length := by
    intro t ht
    obtain ⟨n, hn⟩ := List.getElem?_of_mem ht
    obtain ⟨r, hr, hstate⟩ := alone_of_run h hn
    have htodo : ∀ conn todo, r.state.pc = .registering conn todo →
        todo.length ≤ r.state.registry.entries.length := by
      refine Machine.run_induction
        (P := fun _ (r : ShutdownRun H) => ∀ conn todo, r.state.pc = .registering conn todo →
          todo.length ≤ r.state.registry.entries.length) (fun _ _ h => by cases h) ?_ hr
      intro _ r i r' _ hr hs
      obtain ⟨s, hstep, rfl⟩ := Option.map_eq_some_iff.mp hs
      exact WorkerConnection.todo_step hr hstep
    rw [hstate] at htodo
    have hle := WorkerConnection.left_le htodo
    have hle : (t.within p.shared).left ≤
        8 + p.shared.registry.entries.length + p.shared.sent.length := hle
    unfold Task.left
    split <;> split <;> omega
  have hsum := sum_map_le htasks
  unfold left
  split <;> omega

end Pool

/-! ## What there is to wait for -/

/-- The task waits for a connection, for a write, for the answer to a grab or
for a handler. -/
def ConnectionPc.outside : ConnectionPc H → Bool
  | .connecting | .registering _ (_ :: _) => true
  | .grabbing l =>
    match l.pc with
    | .grab | .answer | .running _ _ | .respond _ | .preSleep => true
    | _ => false
  | _ => false

/-- Steps that need nothing from outside, and no backoff to end;
`flush_unregistrations` writes within its own. -/
def ConnectionInput.inner : ConnectionInput H → Bool
  | .borrow | .dial | .lock | .unlock | .tryRecv _ | .lookup | .changed | .leave => true
  | _ => false

def PoolAct.inner : PoolAct H → Bool
  | .join _ | .drained => true
  | .task _ i => i.inner
  | _ => false

theorem WorkerConnection.inner_grab {s : WorkerConnection H} {l : GrabLoop H}
    (hpc : s.pc = .grabbing l) (hset : s.shutdown = true)
    (hnew : l.pc = .asleep → s.notified = false) (hinside : s.pc.outside = false) :
    ∃ i, i.inner = true ∧ i.ofWorker = false ∧ (s.step mode i).isSome := by
  rw [hpc] at hinside
  unfold ConnectionPc.outside at hinside
  dsimp only at hinside
  cases hl : l.pc with
  | head => exact ⟨.borrow, rfl, rfl, by simp [step, grab, hpc, GrabLoop.step, hl]⟩
  | flush =>
    refine ⟨.tryRecv .accepted, rfl, rfl, ?_⟩
    simp only [step, grab, hpc]
    cases (s.notifications.tryRecv notificationCap).1 <;>
      simp [unregistration, GrabLoop.step, hl]
  | dispatch pkt =>
    refine ⟨.lookup, rfl, rfl, ?_⟩
    simp only [step, grab, hpc, GrabLoop.step, hl]
    split <;> rfl
  | asleep =>
    exact ⟨.changed, rfl, rfl, by simp [step, grab, hset, hnew hl, hpc, GrabLoop.step, hl]⟩
  | done outcome => cases outcome <;> exact ⟨.leave, rfl, rfl, by simp [step, hpc, hl]⟩
  | grab | answer | running _ _ | respond _ | preSleep =>
    rw [hl] at hinside
    cases hinside

/-- Where the task watches the flag it has yet to be notified. -/
def WorkerConnection.Watches (s : WorkerConnection H) : Prop :=
  s.pc = .backingOff ∨ s.pc.grab = some .asleep → s.notified = false

theorem ShutdownRun.watches_of_inv {r : ShutdownRun H} (hr : r.Inv) : r.state.Watches := by
  intro hwaits
  by_contra hnotified
  rcases hr.notified (Bool.not_eq_false _ ▸ hnotified) with h | h
  · rcases hwaits with hpc | hpc
    · rw [hpc] at h
      cases h
    · rw [hpc] at h
      cases h
  · rcases hwaits with hpc | hpc
    · rw [hpc] at h
      cases h
    · rw [h] at hpc
      cases hpc

/-- A task that waits for nothing outside has a step to take, in a backoff the
one that the flag ends it with. -/
theorem WorkerConnection.inner_step {s : WorkerConnection H} (hset : s.shutdown = true)
    (hnew : s.Watches) (hpc : s.pc ≠ .returned) (hinside : s.pc.outside = false) :
    ∃ i, i.inner = true ∧ i.ofWorker = false ∧ (s.step mode i).isSome := by
  cases h : s.pc with
  | head => exact ⟨.borrow, rfl, rfl, by simp [step, h]⟩
  | dial => exact ⟨.dial, rfl, rfl, by simp [step, h]⟩
  | connected conn => exact ⟨.lock, rfl, rfl, by simp [step, h]⟩
  | backingOff => exact ⟨.changed, rfl, rfl, by simp [step, hset, hnew (.inl h), h]⟩
  | registering conn todo =>
    cases todo with
    | nil => exact ⟨.unlock, rfl, rfl, by simp [step, h]⟩
    | cons e todo =>
      rw [h] at hinside
      cases hinside
  | discarding conn =>
    refine ⟨.tryRecv .accepted, rfl, rfl, ?_⟩
    simp only [step, h]
    split <;> rfl
  | grabbing l =>
    have hasleep : l.pc = .asleep → s.notified = false := fun hl =>
      hnew (.inr (by rw [h, ConnectionPc.grab, hl]))
    exact inner_grab h hset hasleep hinside
  | connecting =>
    rw [h] at hinside
    cases hinside
  | returned => exact absurd h hpc

namespace Pool

variable {p p' : Pool H}

/-- While `Worker::shutdown` waits, it or a task has a step to take, or a task
waits for something outside. -/
theorem inner_or_outside {b : WorkerBuilder H} {acts : List (PoolAct H)}
    (h : Machine.run (step mode) b.run acts = some p) (hset : p.shared.shutdown = true)
    (hreturned : p.returned = false) :
    (∃ act, act.inner = true ∧ (p.step mode act).isSome) ∨
      ∃ t ∈ p.tasks, t.ended = false ∧ t.pc.outside = true := by
  by_cases hall : ∀ t ∈ p.tasks, t.joined = true
  · have hguard : (p.shared.shutdown && p.tasks.all Task.joined && !p.returned) = true := by
      simpa [hset, hreturned] using hall
    exact .inl ⟨.drained, rfl, by simp only [step, hguard, if_true, Option.isSome_some]⟩
  · obtain ⟨t, hmem, hjoined⟩ : ∃ t ∈ p.tasks, t.joined = false := by
      simpa using hall
    obtain ⟨n, ht⟩ := List.getElem?_of_mem hmem
    cases hended : t.ended with
    | true =>
      exact .inl ⟨.join n, rfl, by simp [step, ht, hset, hended, hjoined]⟩
    | false =>
      cases hinside : t.pc.outside with
      | true => exact .inr ⟨t, hmem, hended, hinside⟩
      | false =>
        left
        obtain ⟨r, hrun, hstate⟩ := alone_of_run h ht
        have hr : r.Inv := Machine.invariant (fun _ _ _ hr hs => ShutdownRun.inv_step hr hs)
          (ShutdownRun.inv_start b.registry) hrun
        have halive : ¬(t.panicked = true ∨ t.pc = .returned) := by
          rw [← Task.ended_iff, hended]
          exact Bool.false_ne_true
        obtain ⟨hpanicked, hpc⟩ := not_or.mp halive
        have hnew : (t.within p.shared).Watches := hstate ▸ ShutdownRun.watches_of_inv hr
        obtain ⟨i, hinner, hi, hs⟩ : ∃ i, i.inner = true ∧ i.ofWorker = false ∧
            ((t.within p.shared).step mode i).isSome :=
          WorkerConnection.inner_step hset hnew hpc hinside
        obtain ⟨s, hs⟩ := Option.isSome_iff_exists.mp hs
        obtain ⟨p', hp', -⟩ := step_task ht (Bool.not_eq_true _ ▸ hpanicked) hi hs
        exact ⟨.task n i, hinner, by rw [hp']; rfl⟩

/-- **Shutdown comes to an end.** However the tasks and `Worker::shutdown`
interleave once the flag is set, uses of `Reporter`s apart there are at most so
many steps: for each connection 9, and one for each function still registered
and each notification sent. And as long as `Worker::shutdown` has not returned,
it or some task has a step to take, and be it in a backoff or asleep, unless a
task waits for a connection attempt, a write, the answer to its last grab or a
handler. -/
theorem shutdown_comes_to_end (b : WorkerBuilder H) {before after : List (PoolAct H)}
    (h : Machine.run (step b.grabMode) b.run before = some p) (hset : p.shared.shutdown = true)
    (hafter : Machine.run (step b.grabMode) p after = some p') :
    after.countP (fun act => !act.isReport) ≤ b.servers.length * b.concurrency *
        (9 + p.shared.registry.entries.length + p.shared.sent.length) + 1 ∧
      (p'.returned = false →
        (∃ act, act.inner = true ∧ (p'.step b.grabMode act).isSome) ∨
          ∃ t ∈ p'.tasks, t.ended = false ∧ t.pc.outside = true) := by
  have hstopping := stopping_of_run h hset
  refine ⟨?_, fun hreturned => ?_⟩
  · have hle := left_le h
    rw [length_run h] at hle
    have hcount := Machine.countP_le_of_uses_up (c := fun act => !PoolAct.isReport act)
      (fun _ _ _ hp hs => left_step hp hs) hstopping hafter
    omega
  · have hrun : Machine.run (step b.grabMode) b.run (before ++ after) = some p' := by
      rw [Machine.run_append, h]
      exact hafter
    have hstopping' : p'.Stopping :=
      Machine.invariant (fun _ _ _ hp hs => (left_step hp hs).1) hstopping hafter
    exact inner_or_outside hrun hstopping'.1 hreturned

/-- One task backs off and the other is yet to start when the flag is set. -/
def failedDial : List (PoolAct Unit) :=
  [.task 0 .borrow, .task 0 .dial, .task 0 (.connect false), .shutdown]

theorem shutdown_comes_to_end_finishBoth :
    (∃ p p' : Pool Unit, Machine.run (step .uniq) echoBuilder.run grabBoth = some p ∧
      Machine.run (step .uniq) p finishBoth = some p' ∧
      finishBoth.countP (fun act => !act.isReport) ≤ 2 * (9 + 1 + 0) + 1) ∧
    ∃ p : Pool Unit, Machine.run (step .uniq) echoBuilder.run failedDial = some p ∧
      ∃ act, act.inner = true ∧ (p.step .uniq act).isSome := by
  constructor
  · have hgrab : Machine.run (step echoBuilder.grabMode) echoBuilder.run grabBoth = some _ := rfl
    exact ⟨_, _, hgrab, rfl, (shutdown_comes_to_end echoBuilder hgrab rfl rfl).1⟩
  · have hdial : Machine.run (step echoBuilder.grabMode) echoBuilder.run failedDial = some _ := rfl
    refine ⟨_, hdial, ?_⟩
    have hinside : ∀ p : Pool Unit,
        Machine.run (step echoBuilder.grabMode) echoBuilder.run failedDial = some p →
          p.tasks.all (fun t => !t.pc.outside) = true := by
      rintro p hp
      cases hp
      rfl
    rcases (shutdown_comes_to_end echoBuilder hdial rfl (Machine.run_nil _)).2 rfl with
      hinner | ⟨t, ht, -, houtside⟩
    · exact hinner
    · have hnot := List.all_eq_true.mp (hinside _ hdial) t ht
      rw [houtside] at hnot
      cases hnot

end Pool

end Gearman.Worker

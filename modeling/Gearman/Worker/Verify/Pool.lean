import Gearman.Lib.Simulation
import Gearman.Worker.Pool
import Gearman.Worker.Verify.Shutdown

/-!
# The tasks of a worker

Whatever the other tasks and the `Worker` do, what one task of a `Worker` goes
through is a run of `run_worker_connection` alone, so that all that holds of
every such run holds of every task.
-/

namespace Gearman.Worker

open Protocol

variable {H : Type} {mode : GrabMode}

/-- A step of the task leaves alone what it shares. -/
theorem WorkerConnection.shared_of_step {s s' : WorkerConnection H} {i : ConnectionInput H}
    (hi : i.ofWorker = false) (h : s.step mode i = some s') :
    s'.registry = s.registry ∧ s'.shutdown = s.shutdown ∧
      s'.unregistering = s.unregistering ∧ s'.notifications.sent = s.notifications.sent := by
  cases steps_of_step h with
  | shutdown _ | remove _ | broadcast _ => cases hi
  | borrow _ | dial _ | connect _ | lock _ | registered _ _ | unregistered _ _ | unlock _
  | stop _ _ _ | elapsed _ | shuttingDown _ _ | connectionLost _ _ =>
    exact ⟨rfl, rfl, rfl, rfl⟩
  | discard _ _ | enter _ _ => exact ⟨rfl, rfl, rfl, Broadcast.sent_tryRecv _ _⟩
  | grab _ hfeeds _ =>
    refine ⟨rfl, rfl, rfl, ?_⟩
    cases hfeeds with
    | tryRecv io => exact Broadcast.sent_tryRecv _ _
    | _ => rfl

/-- A task that has returned takes no step. -/
theorem WorkerConnection.step_returned {s : WorkerConnection H} {i : ConnectionInput H}
    (hpc : s.pc = .returned) (hi : i.ofWorker = false) : s.step mode i = none := by
  cases hs : s.step mode i with
  | none => rfl
  | some s' =>
    have habsurd : ∀ {pc : ConnectionPc H}, s.pc = pc → pc ≠ .returned → False := by
      intro pc h hne
      exact hne (h.symm.trans hpc)
    cases steps_of_step hs with
    | shutdown _ | remove _ | broadcast _ => cases hi
    | borrow h | dial h | connect h | lock h | unlock h | elapsed h => cases habsurd h nofun
    | registered h _ | unregistered h _ | discard h _ | enter h _ | shuttingDown h _
    | connectionLost h _ => cases habsurd h nofun
    | grab h _ _ | stop h _ _ => cases habsurd h nofun

/-- A `Reporter` leaves the loop where it is. -/
theorem WorkerConnection.grab_report {s s' : WorkerConnection H} {i : ConnectionInput H}
    (hi : i.isReport = true) (h : s.step mode i = some s') : s'.pc.grab = s.pc.grab := by
  cases i with
  | report handle report io =>
    cases steps_of_step h with
    | grab hpc hfeeds hl =>
      cases hfeeds
      cases GrabLoop.steps_of_step hl with
      | report _ => rw [hpc]; rfl
  | _ => cases hi

theorem ConnectionPc.grab_eq_some {pc : ConnectionPc H} {g : GrabPc H} :
    pc.grab = some g ↔ ∃ l, pc = .grabbing l ∧ l.pc = g := by
  cases pc <;> simp [grab]

namespace Task

variable {t : Task H} {shared : Shared H} {s : WorkerConnection H} {i : ConnectionInput H}

theorem within_resume (hi : i.ofWorker = false)
    (h : (t.within shared).step mode i = some s) : (t.resume s).within shared = s := by
  obtain ⟨hregistry, hshutdown, hunregistering, hsent⟩ :=
    WorkerConnection.shared_of_step hi h
  rcases s with ⟨pc, backoff, registry, shutdown, notified, unregistering, ⟨sent, next⟩⟩
  simp only [within] at hregistry hshutdown hunregistering hsent
  subst hregistry hshutdown hunregistering hsent
  rfl

theorem takes_iff : t.takes i = true ↔
    i.ofWorker = false ∧ (t.panicked = true → i.isReport = true) := by
  cases hw : i.ofWorker <;> cases hp : t.panicked <;> simp [takes, hw, hp]

theorem inHandler_iff : t.inHandler = true ↔
    ∃ handler job, t.pc.grab = some (.running handler job) := by
  unfold inHandler
  split
  · simp [*]
  · rename_i hrunning
    simp only [Bool.false_eq_true, false_iff, not_exists]
    exact hrunning

theorem ended_iff : t.ended = true ↔ t.panicked = true ∨ t.pc = .returned := by
  unfold ended
  rw [Bool.or_eq_true]
  split
  · simp [*]
  · rename_i hne
    exact or_congr_right ⟨nofun, fun h => absurd h hne⟩

end Task

namespace Pool

variable {p p' : Pool H} {act : PoolAct H}

/-- All that a step can do. -/
inductive Steps (mode : GrabMode) (p : Pool H) : PoolAct H → Pool H → Prop
  | remove {function : String} (hset : p.shared.shutdown = false)
      (hfree : ∀ t ∈ p.tasks, t.readsRegistry = false) :
      Steps mode p (.remove function)
        { p with shared := { p.shared with
          registry := p.shared.registry.remove function
          unregistering := p.shared.unregistering ++ [function] } }
  | broadcast {function : String} (h : function ∈ p.shared.unregistering) :
      Steps mode p (.broadcast function)
        { p with shared := { p.shared with
          unregistering := p.shared.unregistering.erase function
          sent := p.shared.sent ++ [function] } }
  | shutdown (hset : p.shared.shutdown = false) (hnone : p.shared.unregistering = []) :
      Steps mode p .shutdown { p with shared := { p.shared with shutdown := true } }
  | join {n : Nat} {t : Task H} (ht : p.tasks[n]? = some t) (hset : p.shared.shutdown = true)
      (hended : t.ended = true) (hjoined : t.joined = false) :
      Steps mode p (.join n) { p with tasks := p.tasks.set n { t with joined := true } }
  | drained (hset : p.shared.shutdown = true) (hjoined : ∀ t ∈ p.tasks, t.joined = true)
      (hreturned : p.returned = false) : Steps mode p .drained { p with returned := true }
  | task {n : Nat} {i : ConnectionInput H} {t : Task H} {s : WorkerConnection H}
      (ht : p.tasks[n]? = some t) (htakes : t.takes i = true)
      (h : (t.within p.shared).step mode i = some s) :
      Steps mode p (.task n i) { p with tasks := p.tasks.set n (t.resume s) }
  | panic {n : Nat} {t : Task H} (ht : p.tasks[n]? = some t) (hrunning : t.inHandler = true)
      (hpanicked : t.panicked = false) :
      Steps mode p (.panic n) { p with tasks := p.tasks.set n { t with panicked := true } }

theorem steps_of_step (h : p.step mode act = some p') : Steps mode p act p' := by
  cases act with
  | remove function =>
    obtain ⟨hguard, h⟩ := Option.ite_none_right_eq_some.mp h
    cases h
    simp only [Bool.and_eq_true, Bool.not_eq_true', List.any_eq_false] at hguard
    exact .remove hguard.1 fun t ht => Bool.not_eq_true _ ▸ hguard.2 t ht
  | broadcast function =>
    obtain ⟨hmem, h⟩ := Option.ite_none_right_eq_some.mp h
    cases h
    exact .broadcast hmem
  | shutdown =>
    obtain ⟨hguard, h⟩ := Option.ite_none_right_eq_some.mp h
    cases h
    simp only [Bool.and_eq_true, Bool.not_eq_true', List.isEmpty_iff] at hguard
    exact .shutdown hguard.1 hguard.2
  | join n =>
    simp only [step] at h
    split at h
    · obtain ⟨hguard, h⟩ := Option.ite_none_right_eq_some.mp h
      cases h
      simp only [Bool.and_eq_true, Bool.not_eq_true'] at hguard
      exact .join ‹_› hguard.1.1 hguard.1.2 hguard.2
    · cases h
  | drained =>
    obtain ⟨hguard, h⟩ := Option.ite_none_right_eq_some.mp h
    cases h
    simp only [Bool.and_eq_true, Bool.not_eq_true', List.all_eq_true] at hguard
    exact .drained hguard.1.1 hguard.1.2 hguard.2
  | task n i =>
    simp only [step] at h
    split at h
    · obtain ⟨htakes, h⟩ := Option.ite_none_right_eq_some.mp h
      obtain ⟨s, hs, rfl⟩ := Option.map_eq_some_iff.mp h
      exact .task ‹_› htakes hs
    · cases h
  | panic n =>
    simp only [step] at h
    split at h
    · obtain ⟨hguard, h⟩ := Option.ite_none_right_eq_some.mp h
      cases h
      simp only [Bool.and_eq_true, Bool.not_eq_true'] at hguard
      exact .panic ‹_› hguard.1 hguard.2
    · cases h

/-! ## One task -/

end Pool

/-- What an act is to the task with this number. -/
def PoolAct.shownTo (n : Nat) : PoolAct H → List (ConnectionInput H)
  | .remove function => [.remove function]
  | .broadcast function => [.broadcast function]
  | .shutdown => [.shutdown]
  | .task m i => if m = n then [i] else []
  | .join _ | .drained | .panic _ => []

namespace Pool

variable {p p' : Pool H} {act : PoolAct H}

/-- The task with this number stands where the task alone does. -/
def Shows (n : Nat) (p : Pool H) (r : ShutdownRun H) : Prop :=
  ∃ t, p.tasks[n]? = some t ∧ r.state = t.within p.shared

/-- After an act on another task, or one that leaves the task where it is. -/
theorem shows_set {n m : Nat} {r : ShutdownRun H} {t t' : Task H} (hr : p.Shows n r)
    (ht : p.tasks[m]? = some t) (hsame : m = n → t'.within p.shared = t.within p.shared) :
    Shows n { p with tasks := p.tasks.set m t' } r := by
  obtain ⟨u, hu, hr⟩ := hr
  by_cases hmn : m = n
  · subst hmn
    cases ht.symm.trans hu
    obtain ⟨hlt, -⟩ := List.getElem?_eq_some_iff.mp ht
    exact ⟨t', by simp [hlt], hr.trans (hsame rfl).symm⟩
  · exact ⟨u, by simp [List.getElem?_set_ne hmn, hu], hr⟩

theorem simulates_shows (mode : GrabMode) (n : Nat) :
    Machine.Simulates (step mode) (ShutdownRun.step mode) (Shows (H := H) n)
      fun _ act => act.shownTo n := by
  intro p act p' r hr h
  have moves : ∀ {s : WorkerConnection H} {i : ConnectionInput H}, r.state.step mode i = some s →
      Machine.run (ShutdownRun.step mode) r [i] = some (r.after i s) := by
    intro s i hs
    simp only [Machine.run_cons, ShutdownRun.step, hs, Option.map_some, Option.bind_some,
      Machine.run_nil]
  cases steps_of_step h with
  | @remove function hset hfree =>
    obtain ⟨t, ht, hr⟩ := hr
    have hpc : (t.within p.shared).step mode (.remove function) = some
        { t.within p.shared with
          registry := p.shared.registry.remove function
          unregistering := p.shared.unregistering ++ [function] } := by
      have hfree := hfree t (List.mem_of_getElem? ht)
      unfold Task.readsRegistry at hfree
      simp only [WorkerConnection.step]
      split
      · rename_i hpc
        rw [show t.pc = _ from hpc] at hfree
        cases hfree
      · rfl
    exact ⟨_, moves (hr ▸ hpc), t, ht, rfl⟩
  | @broadcast function hmem =>
    obtain ⟨t, ht, hr⟩ := hr
    have hs : (t.within p.shared).step mode (.broadcast function) = some _ := if_pos hmem
    exact ⟨_, moves (hr ▸ hs), t, ht, rfl⟩
  | shutdown hset _ =>
    obtain ⟨t, ht, hr⟩ := hr
    have hs : (t.within p.shared).step mode .shutdown = some _ :=
      if_neg (by rw [Task.within, hset]; simp)
    exact ⟨_, moves (hr ▸ hs), t, ht, rfl⟩
  | join ht _ _ _ => exact ⟨r, rfl, shows_set hr ht fun _ => rfl⟩
  | panic ht _ _ => exact ⟨r, rfl, shows_set hr ht fun _ => rfl⟩
  | drained _ _ _ => exact ⟨r, rfl, hr⟩
  | @task m i t s ht htakes hs =>
    by_cases hmn : m = n
    · simp only [PoolAct.shownTo, if_pos hmn]
      subst hmn
      obtain ⟨u, hu, hr⟩ := hr
      cases ht.symm.trans hu
      obtain ⟨hlt, -⟩ := List.getElem?_eq_some_iff.mp ht
      refine ⟨_, moves (hr ▸ hs), t.resume s, by simp [hlt], ?_⟩
      exact (Task.within_resume (Task.takes_iff.mp htakes).1 hs).symm
    · simp only [PoolAct.shownTo, if_neg hmn]
      exact ⟨r, rfl, shows_set hr ht fun h => absurd h hmn⟩

/-! ## The `JoinSet` -/

/-- What `join_next` has returned has ended, and `Worker::shutdown` waits for
every task. -/
structure Inv (p : Pool H) : Prop where
  joined : ∀ t ∈ p.tasks, t.joined = true → t.ended = true
  panicked : ∀ t ∈ p.tasks, t.panicked = true → t.inHandler = true
  returned : p.returned = true → p.shared.shutdown = true ∧ ∀ t ∈ p.tasks, t.joined = true

theorem mem_run {b : WorkerBuilder H} {t : Task H} (h : t ∈ b.run.tasks) :
    ∃ addr ∈ b.servers, t = Task.spawn addr := by
  obtain ⟨addr, haddr, h⟩ := List.mem_flatMap.mp h
  exact ⟨addr, haddr, List.eq_of_mem_replicate h⟩

theorem inv_run (b : WorkerBuilder H) : b.run.Inv where
  joined t ht h := by
    obtain ⟨addr, -, rfl⟩ := mem_run ht
    cases h
  panicked t ht h := by
    obtain ⟨addr, -, rfl⟩ := mem_run ht
    cases h
  returned h := by cases h

/-- A task is replaced by one that keeps what `Inv` says of it. -/
theorem inv_set {n : Nat} {t t' : Task H} (hp : p.Inv) (ht : p.tasks[n]? = some t)
    (hjoined : t'.joined = true → t'.ended = true)
    (hpanicked : t'.panicked = true → t'.inHandler = true)
    (hkept : t.joined = true → t'.joined = true) :
    Inv { p with tasks := p.tasks.set n t' } where
  joined u hu h := by
    rcases List.mem_or_eq_of_mem_set hu with hu | rfl
    · exact hp.joined u hu h
    · exact hjoined h
  panicked u hu h := by
    rcases List.mem_or_eq_of_mem_set hu with hu | rfl
    · exact hp.panicked u hu h
    · exact hpanicked h
  returned h := by
    obtain ⟨hset, hall⟩ := hp.returned h
    refine ⟨hset, fun u hu => ?_⟩
    rcases List.mem_or_eq_of_mem_set hu with hu | rfl
    · exact hall u hu
    · exact hkept (hall t (List.mem_of_getElem? ht))

theorem inv_step (hp : p.Inv) (h : p.step mode act = some p') : p'.Inv := by
  cases steps_of_step h with
  | remove hset _ | shutdown hset _ =>
    refine ⟨hp.joined, hp.panicked, fun hreturned => ?_⟩
    rw [(hp.returned hreturned).1] at hset
    cases hset
  | broadcast _ => exact ⟨hp.joined, hp.panicked, hp.returned⟩
  | @join n t ht _ hended _ =>
    exact inv_set hp ht (fun _ => hended) (hp.panicked t (List.mem_of_getElem? ht)) fun _ => rfl
  | drained hset hjoined _ => exact ⟨hp.joined, hp.panicked, fun _ => ⟨hset, hjoined⟩⟩
  | @panic n t ht hrunning _ =>
    exact inv_set hp ht (fun _ => rfl) (fun _ => hrunning) id
  | @task n i t s ht htakes hs =>
    have hmem := List.mem_of_getElem? ht
    obtain ⟨hi, hreport⟩ := Task.takes_iff.mp htakes
    refine inv_set hp ht (fun hjoined => ?_) (fun hpanicked => ?_) id
    · rcases Task.ended_iff.mp (hp.joined t hmem hjoined) with hpanicked | hpc
      · exact Task.ended_iff.mpr (.inl hpanicked)
      · rw [WorkerConnection.step_returned (s := t.within p.shared) hpc hi] at hs
        cases hs
    · obtain ⟨handler, job, hjob⟩ := Task.inHandler_iff.mp (hp.panicked t hmem hpanicked)
      have hpc := WorkerConnection.grab_report (hreport hpanicked) hs
      exact Task.inHandler_iff.mpr ⟨handler, job, hpc.trans hjob⟩

/-- The step of a task that has not panicked. -/
theorem step_task {n : Nat} {t : Task H} {i : ConnectionInput H} {s : WorkerConnection H}
    (ht : p.tasks[n]? = some t) (halive : t.panicked = false) (hi : i.ofWorker = false)
    (h : (t.within p.shared).step mode i = some s) :
    ∃ p', p.step mode (.task n i) = some p' ∧ p'.tasks[n]? = some (t.resume s) := by
  have htakes : t.takes i = true := Task.takes_iff.mpr ⟨hi, fun hp => by
    rw [halive] at hp
    cases hp⟩
  obtain ⟨hlt, -⟩ := List.getElem?_eq_some_iff.mp ht
  refine ⟨{ p with tasks := p.tasks.set n (t.resume s) }, ?_, by simp [hlt]⟩
  simp only [step, ht, htakes, if_true, h, Option.map_some]

theorem length_step (h : p.step mode act = some p') : p'.tasks.length = p.tasks.length := by
  cases steps_of_step h <;> first | rfl | exact List.length_set

theorem length_run {b : WorkerBuilder H} {acts : List (PoolAct H)}
    (h : Machine.run (step mode) b.run acts = some p) :
    p.tasks.length = b.servers.length * b.concurrency := by
  refine Machine.run_induction
    (P := fun _ (p : Pool H) => p.tasks.length = b.servers.length * b.concurrency) ?_
    (fun _ _ _ _ _ hp hs => (length_step hs).trans hp) h
  simp [WorkerBuilder.run, List.length_flatMap]

/-- What a task of the worker goes through is a run of `run_worker_connection` alone. -/
theorem alone_of_run {b : WorkerBuilder H} {acts : List (PoolAct H)}
    (h : Machine.run (step mode) b.run acts = some p) {n : Nat} {t : Task H}
    (ht : p.tasks[n]? = some t) :
    ∃ r, Machine.run (ShutdownRun.step mode) (ShutdownRun.start b.registry)
        (acts.flatMap (PoolAct.shownTo n)) = some r ∧ r.state = t.within p.shared := by
  have hstart : Machine.run (step mode) b.run [] = some b.run := rfl
  have hlength := (length_run h).trans (length_run hstart).symm
  obtain ⟨hlt, -⟩ := List.getElem?_eq_some_iff.mp ht
  obtain ⟨t₀, ht₀⟩ : ∃ t₀, b.run.tasks[n]? = some t₀ :=
    ⟨_, List.getElem?_eq_getElem (hlength ▸ hlt)⟩
  obtain ⟨addr, -, rfl⟩ := mem_run (List.mem_of_getElem? ht₀)
  have hstart : Shows n b.run (ShutdownRun.start b.registry) := ⟨_, ht₀, rfl⟩
  obtain ⟨r, hr, u, hu, hstate⟩ :=
    Machine.run_simulated (simulates_shows mode n) hstart h
  rw [Machine.trace_eq_flatMap h] at hr
  cases ht.symm.trans hu
  exact ⟨r, hr, hstate⟩

/-- **Shutdown waits for every job.** Once `Worker::shutdown` has returned,
every task has ended, and what each did, whatever the others and the `Worker`
did meanwhile, is a run of `run_worker_connection` alone in which at most one
`GRAB_JOB*` was handed to a connection and one connection attempt started after
the flag was set. A task whose handlers all returned has run each of them to its
end and handed its connection one terminal packet for each assignment it took
on; one that a handler's panic ended owes just that job's. -/
theorem shutdown_waits_for_jobs (b : WorkerBuilder H) {acts : List (PoolAct H)}
    (h : Machine.run (step b.grabMode) b.run acts = some p) (hreturned : p.returned = true)
    {n : Nat} {t : Task H} (ht : p.tasks[n]? = some t) :
    t.ended = true ∧
    ∃ r, Machine.run (ShutdownRun.step b.grabMode) (ShutdownRun.start b.registry)
        (acts.flatMap (PoolAct.shownTo n)) = some r ∧
      r.state = t.within p.shared ∧ r.lateGrabs ≤ 1 ∧ r.lateDials ≤ 1 ∧
      (t.panicked = false → r.journal.finished = r.journal.started ∧
        List.Forall₂ Journal.Answers r.journal.assigned r.journal.answered) ∧
      (t.panicked = true → ∃ done pkt handler, r.journal.assigned = done ++ [pkt] ∧
        r.journal.started = r.journal.finished ++ [(handler, assignedJob pkt)] ∧
        List.Forall₂ Journal.Answers done r.journal.answered) := by
  have hp : p.Inv :=
    Machine.invariant (fun _ _ _ hp hs => inv_step hp hs) (inv_run b) h
  have hmem := List.mem_of_getElem? ht
  have hended : t.ended = true := hp.joined t hmem ((hp.returned hreturned).2 t hmem)
  obtain ⟨r, hrun, hstate⟩ := alone_of_run h ht
  have hr : r.Inv := Machine.invariant (fun _ _ _ hr hs => ShutdownRun.inv_step hr hs)
    (ShutdownRun.inv_start b.registry) hrun
  have hgrab : r.state.pc.grab = t.pc.grab := by
    rw [hstate]
    rfl
  have hbalanced := hr.balanced
  rw [hgrab] at hbalanced
  refine ⟨hended, r, hrun, hstate, ?_, ?_, fun hpanicked => ?_, fun hpanicked => ?_⟩
  · rcases hr.grabbed with h | h <;> omega
  · rcases hr.dialled with h | h <;> omega
  · rcases Task.ended_iff.mp hended with h | hpc
    · rw [h] at hpanicked
      cases hpanicked
    · rw [hpc] at hbalanced
      exact ⟨hbalanced.2, hbalanced.1⟩
  · obtain ⟨handler, job, hjob⟩ := Task.inHandler_iff.mp (hp.panicked t hmem hpanicked)
    rw [hjob] at hbalanced
    obtain ⟨done, pkt, hassigned, rfl, hanswered, hstarted⟩ := hbalanced
    exact ⟨done, pkt, handler, hassigned, hstarted, hanswered⟩

/-- Two tasks for one server. -/
def echoBuilder : WorkerBuilder Unit :=
  .build none [.servers ["localhost:4730"], .concurrency 2, .register "echo" ()]

/-- Both tasks run a job when the flag is set. -/
def grabBoth : List (PoolAct Unit) :=
  let grab : List (ConnectionInput Unit) :=
    [.borrow, .dial, .connect true, .lock, .sent .accepted, .unlock, .tryRecv .accepted, .borrow,
      .tryRecv .accepted, .sent .accepted, .recv (.ok (some GrabLoop.assignment)), .lookup]
  grab.map (.task 0) ++ grab.map (.task 1) ++ [.shutdown]

/-- One handler panics, the other returns. -/
def finishBoth : List (PoolAct Unit) :=
  [.panic 1] ++ [.returned (.ok [1]), .sent .accepted, .borrow, .leave].map (.task 0) ++
    [.join 1, .join 0, .drained]

def busyPool : List (PoolAct Unit) := grabBoth ++ finishBoth

theorem shutdown_waits_for_jobs_busyPool :
    ∃ p : Pool Unit, Machine.run (step .uniq) echoBuilder.run busyPool = some p ∧
      p.returned = true ∧
      ∃ r, Machine.run (ShutdownRun.step .uniq) (ShutdownRun.start echoBuilder.registry)
        (busyPool.flatMap (PoolAct.shownTo 0)) = some r ∧
        r.journal.finished = r.journal.started := by
  have hrun : Machine.run (step echoBuilder.grabMode) echoBuilder.run busyPool = some _ := rfl
  obtain ⟨-, r, hr, -, -, -, hjobs, -⟩ :=
    shutdown_waits_for_jobs echoBuilder hrun rfl (n := 0) rfl
  exact ⟨_, hrun, rfl, r, hr, (hjobs rfl).1⟩

end Pool

end Gearman.Worker

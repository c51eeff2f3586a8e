import Gearman.Worker.Verify.Pool

/-!
# Which handler runs

The last registration of a function counts, until `Worker::unregister` removes
it. From then on, on every connection, a job for it is failed back, and a
connection set up anew does not advertise it.
-/

namespace Gearman.Worker

open Protocol

variable {H : Type}

/-! ## The registry -/

namespace Registry

variable {r : Registry H} {f function : String} {reg reg' : RegisteredHandler H}

theorem mem_entries_iff : (f, reg) ∈ r.entries ↔ r.get f = some reg := by
  unfold get
  obtain ⟨entries, hnodup⟩ := r
  dsimp only
  induction entries with
  | nil => simp
  | cons e entries ih =>
    obtain ⟨g, reg'⟩ := e
    rw [List.map_cons, List.nodup_cons] at hnodup
    rw [List.mem_cons, ih hnodup.2, List.lookup_cons]
    by_cases hf : f = g
    · subst hf
      have hnone : entries.lookup f = none := by
        rw [List.lookup_eq_none_iff]
        intro e he
        simp only [bne_iff_ne, ne_eq]
        rintro rfl
        exact hnodup.1 (List.mem_map.mpr ⟨e, he, rfl⟩)
      simp [hnone, eq_comm]
    · have hne : (f == g) = false := beq_false_of_ne hf
      simp [hne, hf]

theorem get_remove : (r.remove function).get f = if f = function then none else r.get f := by
  refine Option.ext fun reg => ?_
  rw [← mem_entries_iff]
  simp only [remove, List.mem_filter, decide_eq_true_eq]
  split
  · simp [*]
  · simp [*, mem_entries_iff]

theorem get_insert :
    (r.insert function reg).get f = if f = function then some reg else r.get f := by
  have hget : (r.insert function reg).get f =
      match f == function with
      | true => some reg
      | false => (r.remove function).get f := List.lookup_cons
  rw [hget, get_remove]
  by_cases hf : f = function
  · simp [hf]
  · simp [hf, beq_false_of_ne hf]

end Registry

/-- What a call of the builder registers. -/
def BuilderCall.registration : BuilderCall H → Option (String × RegisteredHandler H)
  | .register function handler => some (function, ⟨handler, none⟩)
  | .registerWithTimeout function handler timeout => some (function, ⟨handler, some timeout⟩)
  | _ => none

/-- The last registration of a function. -/
def lastRegistered (calls : List (BuilderCall H)) (function : String) :
    Option (RegisteredHandler H) :=
  (calls.filterMap BuilderCall.registration).reverse.lookup function

theorem get_build (parallelism : Option { n : Nat // 0 < n }) (calls : List (BuilderCall H))
    (f : String) :
    (WorkerBuilder.build parallelism calls).registry.get f = lastRegistered calls f := by
  unfold WorkerBuilder.build lastRegistered
  induction calls using List.reverseRecOn with
  | nil => cases parallelism <;> rfl
  | append_singleton calls call ih =>
    rw [List.foldl_concat, List.filterMap_append, List.reverse_append, List.lookup_append, ← ih]
    generalize calls.foldl WorkerBuilder.apply (.new parallelism) = b
    have registers : ∀ (function : String) (reg : RegisteredHandler H),
        (b.registry.insert function reg).get f =
          ([(function, reg)].lookup f).or (b.registry.get f) := by
      intro function reg
      rw [Registry.get_insert, List.lookup_cons]
      by_cases hf : f = function
      · simp [hf]
      · simp [hf, beq_false_of_ne hf]
    cases call with
    | servers _ | concurrency _ | grabMode _ => rfl
    | register function handler => exact registers function ⟨handler, none⟩
    | registerWithTimeout function handler timeout =>
      exact registers function ⟨handler, some timeout⟩

/-! ## Over a run -/

namespace Pool

variable {mode : GrabMode} {p p' : Pool H} {act : PoolAct H}

theorem mem_registry_step (h : p.step mode act = some p') {f : String}
    {reg : RegisteredHandler H} :
    (f, reg) ∈ p'.shared.registry.entries ↔
      act ≠ .remove f ∧ (f, reg) ∈ p.shared.registry.entries := by
  cases steps_of_step h with
  | @remove function _ _ =>
    simp only [Registry.remove, List.mem_filter, decide_eq_true_eq, ne_eq, PoolAct.remove.injEq]
    rw [and_comm, eq_comm]
  | _ => simp

/-- What is registered is what was registered last and has not been removed. -/
theorem mem_registry_run {parallelism : Option { n : Nat // 0 < n }}
    {calls : List (BuilderCall H)} {acts : List (PoolAct H)}
    (h : Machine.run (step mode) (WorkerBuilder.build parallelism calls).run acts = some p)
    {f : String} {reg : RegisteredHandler H} :
    (f, reg) ∈ p.shared.registry.entries ↔
      PoolAct.remove f ∉ acts ∧ lastRegistered calls f = some reg := by
  refine Machine.run_induction (P := fun acts p => (f, reg) ∈ p.shared.registry.entries ↔
    PoolAct.remove f ∉ acts ∧ lastRegistered calls f = some reg) ?_ ?_ h
  · rw [← get_build parallelism calls f, ← Registry.mem_entries_iff]
    simp [WorkerBuilder.run]
  · intro acts m act p' _ hm hs
    rw [mem_registry_step hs, hm, List.mem_append, List.mem_singleton, not_or]
    constructor
    · rintro ⟨hact, hacts, hreg⟩
      exact ⟨⟨hacts, fun h => hact h.symm⟩, hreg⟩
    · rintro ⟨⟨hacts, hact⟩, hreg⟩
      exact ⟨fun h => hact h.symm, hacts, hreg⟩

/-! ## Set-ups -/

/-- On a connection that is set up, a registration has been written for each
entry of the registry that `register_functions` is through with. -/
def SetsUp (s : WorkerConnection H) : Prop :=
  (∀ conn, s.pc = .connected conn → conn.written = []) ∧
  ∀ conn todo, s.pc = .registering conn todo →
    ∃ done, s.registry.entries = done ++ todo ∧
      conn.written = done.map fun e => registerPacket e.1 e.2

/-- Where no connection is being set up. -/
theorem setsUp_elsewhere {s : WorkerConnection H} (hconnected : ∀ conn, s.pc ≠ .connected conn)
    (hregistering : ∀ conn todo, s.pc ≠ .registering conn todo) : SetsUp s :=
  ⟨fun conn h => absurd h (hconnected conn), fun conn todo h => absurd h (hregistering conn todo)⟩

theorem setsUp_step {s s' : WorkerConnection H} {i : ConnectionInput H} (hs : SetsUp s)
    (h : s.step mode i = some s') : SetsUp s' := by
  cases WorkerConnection.steps_of_step h with
  | shutdown _ | broadcast _ => exact hs
  | remove hfree => exact ⟨hs.1, fun conn todo hpc => absurd hpc (hfree conn todo)⟩
  | borrow _ => refine setsUp_elsewhere ?_ ?_ <;> intros <;> dsimp only <;> split <;> simp
  | @connect ok _ =>
    cases ok with
    | false => exact setsUp_elsewhere (by simp) (by simp)
    | true =>
      refine ⟨fun conn hpc => ?_, fun conn todo hpc => by cases hpc⟩
      cases hpc
      rfl
  | @lock conn hpc =>
    refine ⟨fun conn h => (by cases h), fun conn todo h => ?_⟩
    cases h
    exact ⟨[], rfl, hs.1 conn hpc⟩
  | @registered conn conn' name reg todo io hpc hsent =>
    obtain ⟨done, hentries, hwritten⟩ := hs.2 conn _ hpc
    refine ⟨fun conn h => (by cases h), fun conn todo h => ?_⟩
    cases h
    refine ⟨done ++ [(name, reg)], ?_, ?_⟩
    · rw [List.append_assoc]
      exact hentries
    · rw [Connection.written_of_send hsent, hwritten, List.map_append]
      rfl
  | discard hpc _ => exact setsUp_elsewhere (by simp [hpc]) (by simp [hpc])
  | _ => exact setsUp_elsewhere (by simp) (by simp)

/-- When a set-up is through, it has written a registration for each entry of the registry. -/
theorem written_of_setUp {parallelism : Option { n : Nat // 0 < n }}
    {calls : List (BuilderCall H)} {acts : List (PoolAct H)}
    (h : Machine.run (step mode) (WorkerBuilder.build parallelism calls).run acts = some p)
    {n : Nat} {t : Task H} (ht : p.tasks[n]? = some t) {conn : Connection}
    (hpc : t.pc = .registering conn []) :
    conn.written = p.shared.registry.entries.map fun e => registerPacket e.1 e.2 := by
  obtain ⟨r, hrun, hstate⟩ := alone_of_run h ht
  have hsteps : ∀ (r : ShutdownRun H) i r', SetsUp r.state →
      r.step mode i = some r' → SetsUp r'.state := by
    intro r i r' hr hstep
    obtain ⟨s, hs, rfl⟩ := Option.map_eq_some_iff.mp hstep
    exact setsUp_step hr hs
  have hstart : SetsUp (WorkerConnection.start (WorkerBuilder.build parallelism calls).registry) :=
    setsUp_elsewhere (by simp [WorkerConnection.start]) (by simp [WorkerConnection.start])
  have hsetsUp : SetsUp r.state := Machine.invariant hsteps hstart hrun
  rw [hstate] at hsetsUp
  obtain ⟨done, hentries, hwritten⟩ := hsetsUp.2 conn [] hpc
  rw [List.append_nil] at hentries
  rw [hwritten, ← hentries]
  rfl

/-- **The last registration counts, until it is removed.** In every state of a
run, on every connection, a set-up starts out to register exactly the functions
registered with the builder and not removed since, each as it was registered
last, and when it is through it has written exactly these registrations, once
each; and a job is run by the handler registered last for its function if that
has not been removed, and failed back if it has been or there is none. -/
theorem handlers_follow_registrations (parallelism : Option { n : Nat // 0 < n })
    (calls : List (BuilderCall H)) {acts : List (PoolAct H)}
    (h : Machine.run (step mode) (WorkerBuilder.build parallelism calls).run acts = some p)
    {n : Nat} {t : Task H} (ht : p.tasks[n]? = some t) (halive : t.panicked = false) :
    (∀ conn, t.pc = .connected conn →
      ∃ p' t' todo, p.step mode (.task n .lock) = some p' ∧ p'.tasks[n]? = some t' ∧
        t'.pc = .registering conn todo ∧
        ∀ f reg, (f, reg) ∈ todo ↔
          PoolAct.remove f ∉ acts ∧ lastRegistered calls f = some reg) ∧
    (∀ conn, t.pc = .registering conn [] →
      ∃ entries : List (String × RegisteredHandler H),
        conn.written = entries.map (fun e => registerPacket e.1 e.2) ∧
        (entries.map Prod.fst).Nodup ∧
        ∀ f reg, (f, reg) ∈ entries ↔
          PoolAct.remove f ∉ acts ∧ lastRegistered calls f = some reg) ∧
    ∀ l pkt, t.pc = .grabbing l → l.pc = .dispatch pkt →
      ∃ p' t' l', p.step mode (.task n .lookup) = some p' ∧ p'.tasks[n]? = some t' ∧
        t'.pc = .grabbing l' ∧
        ((∃ reg, PoolAct.remove (assignedJob pkt).function ∉ acts ∧
            lastRegistered calls (assignedJob pkt).function = some reg ∧
            l'.pc = .running reg.handler (assignedJob pkt)) ∨
          (PoolAct.remove (assignedJob pkt).function ∈ acts ∨
            lastRegistered calls (assignedJob pkt).function = none) ∧
            l'.pc = .respond (unregisteredResponse (assignedJob pkt).handle)) := by
  refine ⟨fun conn hpc => ?_, fun conn hpc => ?_, fun l pkt hpc hl => ?_⟩
  · have hs : (t.within p.shared).step mode .lock =
        some { t.within p.shared with pc := .registering conn p.shared.registry.entries } := by
      simp only [WorkerConnection.step, Task.within, hpc]
    obtain ⟨p', hp', ht'⟩ := step_task ht halive rfl hs
    exact ⟨p', _, p.shared.registry.entries, hp', ht', rfl, fun f reg => mem_registry_run h⟩
  · exact ⟨p.shared.registry.entries, written_of_setUp h ht hpc, p.shared.registry.nodup,
      fun f reg => mem_registry_run h⟩
  · have hfeeds : ∀ l', l.step mode (.registry p.shared.registry) = some l' →
        (t.within p.shared).step mode .lookup =
          some { t.within p.shared with pc := .grabbing l' } := by
      intro l' hl'
      simp only [WorkerConnection.step, WorkerConnection.grab, Task.within, hpc, hl',
        Option.map_some]
    cases hget : p.shared.registry.get (assignedJob pkt).function with
    | some reg =>
      have hl' : l.step mode (.registry p.shared.registry) = some { l with
          pc := .running reg.handler (assignedJob pkt)
          reporters := l.reporters ++ [(assignedJob pkt).handle] } := by
        simp only [GrabLoop.step, hl, hget, Option.map_some]
      obtain ⟨p', hp', ht'⟩ := step_task ht halive rfl (hfeeds _ hl')
      obtain ⟨hacts, hreg⟩ := (mem_registry_run h).mp (Registry.mem_entries_iff.mpr hget)
      exact ⟨p', _, _, hp', ht', rfl, .inl ⟨reg, hacts, hreg, rfl⟩⟩
    | none =>
      have hl' : l.step mode (.registry p.shared.registry) = some { l with
          pc := .respond (unregisteredResponse (assignedJob pkt).handle) } := by
        simp only [GrabLoop.step, hl, hget, Option.map_none]
      obtain ⟨p', hp', ht'⟩ := step_task ht halive rfl (hfeeds _ hl')
      refine ⟨p', _, _, hp', ht', rfl, .inr ⟨?_, rfl⟩⟩
      by_contra hnot
      obtain ⟨hacts, hsome⟩ := not_or.mp hnot
      obtain ⟨reg, hreg⟩ := Option.ne_none_iff_exists'.mp hsome
      have hmem := (mem_registry_run h).mpr ⟨hacts, hreg⟩
      rw [Registry.mem_entries_iff, hget] at hmem
      cases hmem

/-- `echo` is registered twice, and a job for it is handed over on one connection. -/
def dispatchedEcho : List (PoolAct Nat) :=
  [.borrow, .dial, .connect true, .lock, .sent .accepted, .unlock, .tryRecv .accepted, .borrow,
    .tryRecv .accepted, .sent .accepted, .recv (.ok (some GrabLoop.assignment))].map (.task 0)

/-- The second registration of `echo` runs the job; after a removal it is failed back. -/
theorem handlers_follow_registrations_dispatchedEcho :
    (∃ p : Pool Nat, Machine.run (step .uniq) (WorkerBuilder.build none
        [.servers ["localhost:4730"], .register "echo" 1, .register "echo" 2]).run
          dispatchedEcho = some p ∧
      ∃ p' t' l', p.step .uniq (.task 0 .lookup) = some p' ∧ p'.tasks[0]? = some t' ∧
        t'.pc = .grabbing l' ∧ l'.pc = .running 2 (assignedJob GrabLoop.assignment)) ∧
    ∃ p : Pool Nat, Machine.run (step .uniq) (WorkerBuilder.build none
        [.servers ["localhost:4730"], .register "echo" 1, .register "echo" 2]).run
          (dispatchedEcho ++ [.remove "echo"]) = some p ∧
      ∃ p' t' l', p.step .uniq (.task 0 .lookup) = some p' ∧ p'.tasks[0]? = some t' ∧
        t'.pc = .grabbing l' ∧
        l'.pc = .respond (unregisteredResponse (assignedJob GrabLoop.assignment).handle) := by
  have hfunction : (assignedJob GrabLoop.assignment).function = "echo" := by decide
  constructor
  · have hrun : Machine.run (step .uniq) (WorkerBuilder.build none
      [.servers ["localhost:4730"], .register "echo" 1, .register "echo" 2]).run
        dispatchedEcho = some _ := rfl
    obtain ⟨p', t', l', hp', ht', hpc, hl'⟩ :=
      (handlers_follow_registrations none _ hrun (n := 0) rfl rfl).2.2 _ _ rfl rfl
    refine ⟨_, hrun, p', t', l', hp', ht', hpc, ?_⟩
    rw [hfunction] at hl'
    rcases hl' with ⟨reg, -, hreg, hl'⟩ | ⟨hremoved | hnone, -⟩
    · cases hreg
      exact hl'
    · exact absurd hremoved (by simp [dispatchedEcho])
    · cases hnone
  · have hrun : Machine.run (step .uniq) (WorkerBuilder.build none
      [.servers ["localhost:4730"], .register "echo" 1, .register "echo" 2]).run
        (dispatchedEcho ++ [.remove "echo"]) = some _ := rfl
    obtain ⟨p', t', l', hp', ht', hpc, hl'⟩ :=
      (handlers_follow_registrations none _ hrun (n := 0) rfl rfl).2.2 _ _ rfl rfl
    refine ⟨_, hrun, p', t', l', hp', ht', hpc, ?_⟩
    rcases hl' with ⟨reg, hacts, -⟩ | ⟨-, hl'⟩
    · rw [hfunction] at hacts
      exact absurd (by simp) hacts
    · exact hl'

end Pool

end Gearman.Worker

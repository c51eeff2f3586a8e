import Gearman.Worker.Verify.GrabLoop
import Gearman.Worker.WorkerConnection

/-!
# Steps of a worker's connection

What one step can do. A step of the grab loop is one constructor, with what the
loop is fed by the state around it.
-/

namespace Gearman.Worker

open Protocol

/-- The connection the task has. -/
def ConnectionPc.conn {H : Type} : ConnectionPc H → Option Connection
  | .connected conn | .registering conn _ | .discarding conn => some conn
  | .grabbing l => some l.conn
  | _ => none

/-- What is written on the connection between two places. -/
def ConnectionPc.writes {H : Type} (pc pc' : ConnectionPc H) : List Packet :=
  match pc.conn, pc'.conn with
  | some conn, some conn' => conn'.written.drop conn.written.length
  | _, _ => []

/-- What is handed to the connection between two places, whatever becomes of it. -/
def ConnectionPc.handedOver {H : Type} (pc pc' : ConnectionPc H) : List Packet :=
  match pc.conn, pc'.conn with
  | some conn, some conn' => conn'.tried.drop conn.tried.length
  | _, _ => []

namespace ConnectionPc

variable {H : Type} {pc pc' : ConnectionPc H} {conn conn' : Connection} {pkts : List Packet}

theorem writes_append (hconn : pc.conn = some conn) (hconn' : pc'.conn = some conn')
    (h : conn'.written = conn.written ++ pkts) : pc.writes pc' = pkts := by
  simp only [writes, hconn, hconn', h, List.drop_left]

theorem handedOver_append (hconn : pc.conn = some conn) (hconn' : pc'.conn = some conn')
    (h : conn'.tried = conn.tried ++ pkts) : pc.handedOver pc' = pkts := by
  simp only [handedOver, hconn, hconn', h, List.drop_left]

theorem handedOver_none (h : pc.conn = none ∨ pc'.conn = none) : pc.handedOver pc' = [] := by
  unfold handedOver
  split
  · rename_i hconn hconn'
    rcases h with h | h
    · rw [h] at hconn
      cases hconn
    · rw [h] at hconn'
      cases hconn'
  · rfl

theorem handedOver_same (h : pc'.conn = pc.conn) : pc.handedOver pc' = [] := by
  cases hconn : pc.conn with
  | none => exact handedOver_none (.inl hconn)
  | some conn => exact handedOver_append hconn (h.trans hconn) (List.append_nil _).symm

end ConnectionPc

namespace WorkerConnection

variable {H : Type} {mode : GrabMode} {s s' : WorkerConnection H} {i : ConnectionInput H}

/-- What a step of the grab loop gets from the state around it, and what it does
to the receivers there. -/
inductive Feeds (s : WorkerConnection H) :
    ConnectionInput H → GrabInput H → Broadcast String → Bool → Prop
  | borrow : Feeds s .borrow (.shutdown s.shutdown) s.notifications s.notified
  | sent (io : Io) : Feeds s (.sent io) (.sent io) s.notifications s.notified
  | tryRecv (io : Io) :
      Feeds s (.tryRecv io)
        (.unregistered (unregistration (s.notifications.tryRecv notificationCap).1) io)
        (s.notifications.tryRecv notificationCap).2 s.notified
  | recv (pkt : Received) : Feeds s (.recv pkt) (.recv pkt) s.notifications s.notified
  | lookup : Feeds s .lookup (.registry s.registry) s.notifications s.notified
  | returned (outcome : Except WorkError Bytes) :
      Feeds s (.returned outcome) (.returned outcome) s.notifications s.notified
  | report (handle : String) (report : Report) (io : Io) :
      Feeds s (.report handle report io) (.report handle report io) s.notifications s.notified
  | changed (hset : s.shutdown = true) (hnew : s.notified = false) :
      Feeds s .changed .changed s.notifications true

/-- All that a step can do. -/
inductive Steps (mode : GrabMode) (s : WorkerConnection H) :
    ConnectionInput H → WorkerConnection H → Prop
  | shutdown (h : s.shutdown = false) : Steps mode s .shutdown { s with shutdown := true }
  | remove {function : String} (h : ∀ conn todo, s.pc ≠ .registering conn todo) :
      Steps mode s (.remove function)
        { s with
          registry := s.registry.remove function
          unregistering := s.unregistering ++ [function] }
  | broadcast {function : String} (h : function ∈ s.unregistering) :
      Steps mode s (.broadcast function)
        { s with
          unregistering := s.unregistering.erase function
          notifications := s.notifications.send function }
  | borrow (hpc : s.pc = .head) :
      Steps mode s .borrow { s with pc := if s.shutdown then .returned else .dial }
  | dial (hpc : s.pc = .dial) : Steps mode s .dial { s with pc := .connecting }
  | connect {ok : Bool} (hpc : s.pc = .connecting) :
      Steps mode s (.connect ok)
        { s with pc := if ok then .connected .fromStream else .backingOff }
  | lock {conn : Connection} (hpc : s.pc = .connected conn) :
      Steps mode s .lock { s with pc := .registering conn s.registry.entries }
  | registered {conn conn' : Connection} {name : String} {reg : RegisteredHandler H}
      {todo : List (String × RegisteredHandler H)} {io : Io}
      (hpc : s.pc = .registering conn ((name, reg) :: todo))
      (h : conn.send (registerPacket name reg) io = (.ok (), conn')) :
      Steps mode s (.sent io) { s with pc := .registering conn' todo }
  | unregistered {conn conn' : Connection} {name : String} {reg : RegisteredHandler H}
      {todo : List (String × RegisteredHandler H)} {io : Io} {e : GearmanError}
      (hpc : s.pc = .registering conn ((name, reg) :: todo))
      (h : conn.send (registerPacket name reg) io = (.error e, conn')) :
      Steps mode s (.sent io) { s with pc := .backingOff }
  | unlock {conn : Connection} (hpc : s.pc = .registering conn []) :
      Steps mode s .unlock { s with pc := .discarding conn, backoff := 100 }
  | discard {conn : Connection} {function : String} {io : Io} (hpc : s.pc = .discarding conn)
      (h : (s.notifications.tryRecv notificationCap).1 = .ok function) :
      Steps mode s (.tryRecv io)
        { s with notifications := (s.notifications.tryRecv notificationCap).2 }
  | enter {conn : Connection} {io : Io} (hpc : s.pc = .discarding conn)
      (h : ∀ function, (s.notifications.tryRecv notificationCap).1 ≠ .ok function) :
      Steps mode s (.tryRecv io)
        { s with
          pc := .grabbing (.start conn)
          notifications := (s.notifications.tryRecv notificationCap).2 }
  | grab {i : ConnectionInput H} {l l' : GrabLoop H} {j : GrabInput H}
      {notifications : Broadcast String} {notified : Bool} (hpc : s.pc = .grabbing l)
      (hfeeds : s.Feeds i j notifications notified)
      (h : l.step mode j = some l') :
      Steps mode s i
        { s with pc := .grabbing l', notifications := notifications, notified := notified }
  | stop (hpc : s.pc = .backingOff) (hset : s.shutdown = true) (hnew : s.notified = false) :
      Steps mode s .changed { s with pc := .returned, notified := true }
  | elapsed (hpc : s.pc = .backingOff) :
      Steps mode s .elapsed
        { s with pc := .head, backoff := min (s.backoff * 2) maxBackoff }
  | shuttingDown {l : GrabLoop H} (hpc : s.pc = .grabbing l) (h : l.pc = .done .shuttingDown) :
      Steps mode s .leave { s with pc := .returned }
  | connectionLost {l : GrabLoop H} (hpc : s.pc = .grabbing l) (h : l.pc = .done .connectionLost) :
      Steps mode s .leave { s with pc := .backingOff }

theorem grab_eq_some {j : GrabInput H} (h : s.grab mode j = some s') :
    ∃ l l', s.pc = .grabbing l ∧ l.step mode j = some l' ∧ s' = { s with pc := .grabbing l' } := by
  unfold grab at h
  split at h
  · obtain ⟨l', hl, rfl⟩ := Option.map_eq_some_iff.mp h
    exact ⟨_, l', ‹_›, hl, rfl⟩
  · cases h

/-- A step that only the grab loop can take. -/
theorem steps_of_grab {j : GrabInput H} (hfeeds : s.Feeds i j s.notifications s.notified)
    (h : s.grab mode j = some s') : Steps mode s i s' := by
  obtain ⟨l, l', hpc, hl, rfl⟩ := grab_eq_some h
  exact .grab hpc hfeeds hl

theorem steps_of_step (h : s.step mode i = some s') : Steps mode s i s' := by
  cases i with
  | shutdown =>
    obtain ⟨hset, h⟩ := Option.ite_none_left_eq_some.mp h
    cases h
    exact .shutdown (Bool.not_eq_true _ ▸ hset)
  | remove function =>
    unfold step at h
    dsimp only at h
    split at h
    · cases h
    · rename_i hpc
      cases h
      exact .remove hpc
  | broadcast function =>
    obtain ⟨hmem, h⟩ := Option.ite_none_right_eq_some.mp h
    cases h
    exact .broadcast hmem
  | borrow =>
    unfold step at h
    dsimp only at h
    split at h
    · cases h
      exact .borrow ‹_›
    · exact steps_of_grab .borrow h
  | dial =>
    rcases hpc : s.pc <;> simp only [step, hpc, reduceCtorEq] at h
    cases h
    exact .dial hpc
  | connect ok =>
    rcases hpc : s.pc <;> simp only [step, hpc, reduceCtorEq] at h
    cases h
    exact .connect hpc
  | lock =>
    rcases hpc : s.pc <;> simp only [step, hpc, reduceCtorEq] at h
    cases h
    exact .lock hpc
  | sent io =>
    unfold step at h
    dsimp only at h
    split at h
    · split at h
      · cases h
        exact .registered ‹_› ‹_›
      · cases h
        exact .unregistered ‹_› ‹_›
    · exact steps_of_grab (.sent io) h
  | unlock =>
    rcases hpc : s.pc with _ | _ | _ | _ | ⟨conn, _ | _⟩ | _ | _ | _ | _ <;>
      simp only [step, hpc, reduceCtorEq] at h
    cases h
    exact .unlock hpc
  | tryRecv io =>
    unfold step at h
    dsimp only at h
    split at h
    · split at h <;> cases h
      · exact .discard ‹_› ‹_›
      · rename_i hfound
        exact .enter ‹_› fun function hok => by rw [hfound] at hok; cases hok
      · rename_i hfound
        exact .enter ‹_› fun function hok => by rw [hfound] at hok; cases hok
    · obtain ⟨l, l', hpc, hl, rfl⟩ := grab_eq_some h
      exact Steps.grab (s := s) hpc (.tryRecv io) hl
  | recv pkt => exact steps_of_grab (.recv pkt) h
  | lookup => exact steps_of_grab .lookup h
  | returned outcome => exact steps_of_grab (.returned outcome) h
  | report handle report io => exact steps_of_grab (.report handle report io) h
  | changed =>
    obtain ⟨hset, h⟩ := Option.ite_none_right_eq_some.mp h
    obtain ⟨hset, hnew⟩ : s.shutdown = true ∧ s.notified = false := by simpa using hset
    split at h
    · cases h
      exact .stop ‹_› hset hnew
    · obtain ⟨l, l', hpc, hl, rfl⟩ := grab_eq_some h
      exact Steps.grab (s := s) hpc (.changed hset hnew) hl
  | elapsed =>
    rcases hpc : s.pc <;> simp only [step, hpc, reduceCtorEq] at h
    cases h
    exact .elapsed hpc
  | leave =>
    rcases hpc : s.pc with _ | _ | _ | _ | _ | _ | l | _ | _ <;>
      simp only [step, hpc, reduceCtorEq] at h
    split at h <;> cases h
    · exact .shuttingDown hpc ‹_›
    · exact .connectionLost hpc ‹_›

end WorkerConnection

end Gearman.Worker

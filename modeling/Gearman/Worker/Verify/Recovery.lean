import Gearman.Worker.Verify.Termination

/-!
# A worker gets back to grabbing

Whatever has gone wrong before, as long as the flag is not set a task has a step
to take, and while connections come up, writes are accepted, handlers return and
the server goes on sending packets, every step of its own brings the task nearer
to its next grab.
-/

namespace Gearman.Worker

open Protocol

variable {H : Type} {mode : GrabMode}

/-- A `CANT_DO` for the function fits a packet. -/
def Withdrawable (function : String) : Prop :=
  GearmanCodec.new.Accepts (.request .cantDo [asBytes function])

/-- The functions can be announced. -/
def Announceable (entries : List (String × RegisteredHandler H)) : Prop :=
  ∀ e ∈ entries, GearmanCodec.new.Accepts (registerPacket e.1 e.2)

/-- Nothing fails, and the worker is not shut down. -/
def GrabInput.Cooperates : GrabInput H → Prop
  | .shutdown set => set = false
  | .unregistered found io =>
    io = .accepted ∧ ∀ function, found = .ok function → Withdrawable function
  | .sent io | .report _ _ io => io = .accepted
  | .recv pkt => ∃ p, pkt = .ok (some p)
  | .changed => False
  | _ => True

def ConnectionInput.Cooperates : ConnectionInput H → Prop
  | .shutdown => False
  | .remove function => Withdrawable function
  | .connect ok => ok = true
  | .sent io | .tryRecv io | .report _ _ io => io = .accepted
  | .recv pkt => ∃ p, pkt = .ok (some p)
  | _ => True

/-- A step of the task, not of what its handler gave a `Reporter` to. -/
def ConnectionInput.isOwn (i : ConnectionInput H) : Bool := !i.ofWorker && !i.isReport

def ConnectionInput.isBroadcast : ConnectionInput H → Bool
  | .broadcast _ => true
  | _ => false

/-! ## Steps to the next grab -/

/-- The steps of the loop to its next grab, if these many functions are registered and
these many notifications are queued. On a broken connection there is another way to go. -/
def GrabPc.toGrab (registered queued : Nat) (broken : Bool) (pc : GrabPc H) : Nat :=
  let again := if broken then 11 + registered + 2 * queued else 0
  match pc with
  | .done _ => 10 + registered + 2 * queued
  | .grab => again
  | .flush => again + queued + 1
  | .head => again + queued + 2
  | .asleep | .respond _ => again + queued + 3
  | .running _ _ | .preSleep => again + queued + 4
  | .dispatch _ => again + queued + 5
  | .answer => again + queued + 6

def ConnectionPc.toGrab (registered queued : Nat) : ConnectionPc H → Nat
  | .grabbing l => l.pc.toGrab registered queued l.conn.broken
  | .discarding _ => 3 + 2 * queued
  | .registering _ todo => 4 + todo.length + 2 * queued
  | .connected _ => 5 + registered + 2 * queued
  | .connecting => 6 + registered + 2 * queued
  | .dial => 7 + registered + 2 * queued
  | .head => 8 + registered + 2 * queued
  | .backingOff => 9 + registered + 2 * queued
  | .returned => 0

/-- Fewer functions make the way shorter, and a notification at most three steps longer. -/
theorem GrabPc.toGrab_le (pc : GrabPc H) (broken : Bool)
    {registered registered' queued queued' k : Nat}
    (hr : registered' ≤ registered) (hq : queued' ≤ queued + k) :
    pc.toGrab registered' queued' broken ≤ pc.toGrab registered queued broken + 3 * k := by
  cases pc <;> cases broken <;>
    simp only [GrabPc.toGrab, if_true, Bool.false_eq_true, if_false] <;> omega

theorem ConnectionPc.toGrab_le (pc : ConnectionPc H) {registered registered' queued queued' k : Nat}
    (hr : registered' ≤ registered) (hq : queued' ≤ queued + k) :
    pc.toGrab registered' queued' ≤ pc.toGrab registered queued + 3 * k := by
  cases pc with
  | grabbing l => exact l.pc.toGrab_le l.conn.broken hr hq
  | _ =>
    simp only [ConnectionPc.toGrab]
    omega

namespace GrabLoop

variable {l l' : GrabLoop H}

/-- A packet the codec takes is sent unless the connection is broken. -/
theorem pc_sendOr_accepted (l : GrabLoop H) {pkt : Packet} (hacc : GearmanCodec.new.Accepts pkt)
    (next : GrabPc H) :
    (l.sendOr pkt .accepted next).conn.broken = l.conn.broken ∧
      (l.sendOr pkt .accepted next).pc =
        if l.conn.broken then .done .connectionLost else next := by
  unfold sendOr Connection.send
  rw [GearmanCodec.encode_of_accepts hacc]
  cases hbroken : l.conn.broken <;> simp

theorem isGrab_grabType (mode : GrabMode) : isGrab mode.grabType = true := by
  cases mode <;> rfl

theorem toGrab_report (l : GrabLoop H) (pkt : Packet) (registered queued : Nat) :
    (l.sendAnd pkt .accepted l.pc).pc.toGrab registered queued
        (l.sendAnd pkt .accepted l.pc).conn.broken =
      l.pc.toGrab registered queued l.conn.broken := by
  unfold sendAnd
  rw [Connection.broken_send_accepted]

/-- Only the flag ends the loop for good. -/
theorem goes_on {j : GrabInput H} {pc pc' : GrabPc H} (h : Moves j pc pc')
    (hset : j ≠ .shutdown true) (hchanged : j ≠ .changed) (hpc : pc ≠ .done .shuttingDown) :
    pc' ≠ .done .shuttingDown := by
  cases h with
  | stay => exact hpc
  | @shutdown set =>
    cases set with
    | true => exact absurd rfl hset
    | false => simp
  | @answered _ pkt => rcases onAnswer_cases (H := H) pkt with h | h | h <;> simp [h]
  | changed => exact absurd rfl hchanged
  | _ => simp

/-- A step brings the loop nearer to a grab, or is one. -/
theorem toGrab_of_step {j : GrabInput H} {registered queued queued' : Nat}
    (hj : j.Cooperates) (hreport : ∀ handle report io, j ≠ .report handle report io)
    (hgrab : ∀ io, j = .sent io → l.pc = .grab → l.conn.broken = true) (hle : queued' ≤ queued)
    (hlt : ∀ found io, j = .unregistered found io → found ≠ .none → queued' < queued)
    (h : l.step mode j = some l') :
    l'.pc.toGrab registered queued' l'.conn.broken + 1 ≤
      l.pc.toGrab registered queued l.conn.broken := by
  have leads : ∀ {pc : GrabPc H} (pc' : GrabPc H), l.pc = pc → l'.pc = pc' →
      l'.conn.broken = l.conn.broken →
      pc'.toGrab registered queued' l.conn.broken + 1 ≤
        pc.toGrab registered queued l.conn.broken →
      l'.pc.toGrab registered queued' l'.conn.broken + 1 ≤
        l.pc.toGrab registered queued l.conn.broken := by
    intro pc pc' hpc hpc' hbroken hnear
    rw [hpc, hpc', hbroken]
    exact hnear
  -- a packet is sent, or the connection turns out to be broken
  have sends : ∀ {pc : GrabPc H} (pkt : Packet) (next : GrabPc H), GearmanCodec.new.Accepts pkt →
      l.pc = pc → l' = l.sendOr pkt .accepted next →
      (l.conn.broken = true → 11 + registered + 2 * queued' ≤
        pc.toGrab registered queued true) →
      (l.conn.broken = false → next.toGrab registered queued' false + 1 ≤
        pc.toGrab registered queued false) →
      l'.pc.toGrab registered queued' l'.conn.broken + 1 ≤
        l.pc.toGrab registered queued l.conn.broken := by
    rintro pc pkt next hacc hpc rfl hlost hnear
    obtain ⟨hbroken, hpc'⟩ := l.pc_sendOr_accepted hacc next
    cases hconn : l.conn.broken with
    | true =>
      rw [hconn, if_pos rfl] at hpc'
      rw [hbroken, hpc, hpc', hconn]
      have hfar := hlost hconn
      have hlast : GrabPc.toGrab (H := H) registered queued' true (.done .connectionLost) =
          10 + registered + 2 * queued' := rfl
      omega
    | false =>
      rw [hconn, if_neg Bool.false_ne_true] at hpc'
      rw [hbroken, hpc, hpc', hconn]
      exact hnear hconn
  cases steps_of_step h with
  | report _ => exact absurd rfl (hreport _ _ _)
  | @shutdown set hpc =>
    obtain rfl : set = false := hj
    exact leads .flush hpc rfl rfl (by simp only [GrabPc.toGrab]; split <;> omega)
  | @withdraw function io hpc =>
    obtain ⟨rfl, hacc⟩ := hj
    have hless := hlt _ _ rfl (by simp)
    refine sends _ .flush (hacc function rfl) hpc rfl ?_ ?_ <;> intro hconn <;>
      simp only [GrabPc.toGrab, if_true, Bool.false_eq_true, if_false] <;> omega
  | lagged hpc =>
    have hless := hlt _ _ rfl (by simp)
    exact leads .flush hpc hpc rfl (by simp only [GrabPc.toGrab]; split <;> omega)
  | flushed hpc =>
    exact leads .grab hpc rfl rfl (by simp only [GrabPc.toGrab]; split <;> omega)
  | @grab io hpc =>
    obtain rfl : io = .accepted := hj
    have hconn := hgrab .accepted rfl hpc
    refine sends _ .answer (accepts_grab mode) hpc rfl ?_ ?_
    · intro _
      simp only [GrabPc.toGrab, if_true]
      omega
    · intro hintact
      rw [hconn] at hintact
      cases hintact
  | @preSleep io hpc =>
    obtain rfl : io = .accepted := hj
    have hacc : GearmanCodec.new.Accepts (.request .preSleep []) := ⟨rfl, Nat.zero_le _⟩
    refine sends _ .asleep hacc hpc rfl ?_ ?_ <;> intro hconn <;>
      simp only [GrabPc.toGrab, if_true, Bool.false_eq_true, if_false] <;> omega
  | @answer pkt hpc =>
    rcases onAnswer_cases (H := H) pkt with hanswer | hanswer | hanswer <;>
      exact leads _ hpc hanswer rfl (by simp only [GrabPc.toGrab]; split <;> omega)
  | lost hpc hnone =>
    obtain ⟨p, hp⟩ := hj
    exact absurd hp (hnone p)
  | @unregistered pkt registry hpc _ =>
    exact leads (.respond (unregisteredResponse (assignedJob pkt).handle)) hpc rfl rfl
      (by simp only [GrabPc.toGrab]; split <;> omega)
  | @registered pkt registry reg hpc _ =>
    exact leads (.running reg.handler (assignedJob pkt)) hpc rfl rfl
      (by simp only [GrabPc.toGrab]; split <;> omega)
  | @returned handler job outcome hpc =>
    exact leads (.respond (jobResponse job.handle outcome)) hpc rfl rfl
      (by simp only [GrabPc.toGrab]; split <;> omega)
  | @respond response io hpc =>
    obtain rfl : io = .accepted := hj
    exact leads .head hpc rfl (Connection.broken_send_accepted _ _)
      (by simp only [GrabPc.toGrab]; split <;> omega)
  | wake hpc =>
    exact leads .head hpc rfl rfl (by simp only [GrabPc.toGrab]; split <;> omega)
  | changed _ => exact hj.elim

end GrabLoop

namespace WorkerConnection

variable {s s' : WorkerConnection H} {i : ConnectionInput H}

/-! ## What the task needs to get there -/

/-- The step writes a `GRAB_JOB*`. -/
def grabs (mode : GrabMode) (s : WorkerConnection H) (i : ConnectionInput H) : Bool :=
  match s.step mode i with
  | some s' => (s.pc.writes s'.pc).any fun pkt => isGrab pkt.ptype
  | none => false

end WorkerConnection

/-- A connection being set up is intact, and the functions to go can be announced. -/
def ConnectionPc.Ready (registered : Nat) : ConnectionPc H → Prop
  | .connected conn | .discarding conn => conn.broken = false
  | .registering conn todo =>
    conn.broken = false ∧ Announceable todo ∧ todo.length ≤ registered
  | .grabbing l => l.pc ≠ .done .shuttingDown
  | .returned => False
  | _ => True

namespace WorkerConnection

variable {s s' : WorkerConnection H} {i : ConnectionInput H}

/-- The task has not been told to stop, and the codec takes all it has to announce. -/
structure Ready (s : WorkerConnection H) : Prop where
  unset : s.shutdown = false
  pc : s.pc.Ready s.registry.entries.length
  announceable : Announceable s.registry.entries
  unregistering : ∀ function ∈ s.unregistering, Withdrawable function
  sent : ∀ function ∈ s.notifications.sent, Withdrawable function

theorem ready_start {registry : Registry H} (h : Announceable registry.entries) :
    (start registry).Ready where
  unset := rfl
  pc := trivial
  announceable := h
  unregistering _ hmem := nomatch hmem
  sent _ hmem := nomatch hmem

/-- The flag is never cleared. -/
theorem unset_of_step (h : s.step mode i = some s') (hunset : s'.shutdown = false) :
    s.shutdown = false := by
  cases hi : i.ofWorker with
  | false => exact (shared_of_step hi h).2.1 ▸ hunset
  | true =>
    cases steps_of_step h with
    | shutdown hset => exact hset
    | _ => exact hunset

/-- Where a step of the task leads while it is not to stop. -/
theorem ready_pc (hs : s.Ready) (hi : i.ofWorker = false) (h : s.step mode i = some s') :
    s'.pc.Ready s.registry.entries.length := by
  have hpc' := hs.pc
  have hunset := hs.unset
  cases steps_of_step h with
  | shutdown _ | remove _ | broadcast _ => cases hi
  | borrow _ =>
    simp only [hunset, Bool.false_eq_true, if_false]
    trivial
  | @connect ok _ =>
    cases ok
    · exact trivial
    · exact (rfl : Connection.fromStream.broken = false)
  | lock hpc =>
    rw [hpc] at hpc'
    exact ⟨hpc', hs.announceable, Nat.le_refl _⟩
  | @registered conn conn' name reg todo io hpc hsend =>
    rw [hpc] at hpc'
    obtain ⟨hintact, htodo, hlength⟩ := hpc'
    refine ⟨?_, fun e he => htodo e (List.mem_cons_of_mem _ he), Nat.le_of_succ_le hlength⟩
    rcases conn.send_cases (registerPacket name reg) io with ⟨-, -, -, hok⟩ | ⟨e, b, herror, -⟩
    · rw [hok] at hsend
      cases hsend
      exact hintact
    · rw [herror] at hsend
      cases hsend
  | unlock hpc =>
    rw [hpc] at hpc'
    exact hpc'.1
  | discard hpc _ => exact hpc'
  | enter _ _ => exact (by simp : (GrabPc.head) ≠ .done .shuttingDown)
  | @grab i l l' j notifications notified hpc hfeeds hl =>
    rw [hpc] at hpc'
    refine GrabLoop.goes_on (GrabLoop.moves_of_step hl) ?_ ?_ hpc'
    · intro hj
      cases hfeeds with
      | borrow =>
        rw [hunset] at hj
        cases hj
      | _ => cases hj
    · rintro rfl
      cases hfeeds with
      | changed hset _ =>
        rw [hunset] at hset
        cases hset
  | stop _ hset _ =>
    rw [hunset] at hset
    cases hset
  | shuttingDown hpc hdone =>
    rw [hpc] at hpc'
    exact hpc' hdone
  | dial _ | unregistered _ _ | elapsed _ | connectionLost _ _ => trivial

theorem ready_step (hs : s.Ready) (hi : ∀ function, i = .remove function → Withdrawable function)
    (hunset : s'.shutdown = false) (h : s.step mode i = some s') : s'.Ready := by
  cases hworker : i.ofWorker with
  | false =>
    obtain ⟨hregistry, -, hunregistering, hsent⟩ := shared_of_step hworker h
    refine ⟨hunset, ?_, ?_, ?_, ?_⟩
    · rw [hregistry]
      exact ready_pc hs hworker h
    · rw [hregistry]
      exact hs.announceable
    · rw [hunregistering]
      exact hs.unregistering
    · rw [hsent]
      exact hs.sent
  | true =>
    cases steps_of_step h with
    | shutdown _ => cases hunset
    | @remove function hfree =>
      refine ⟨hunset, ?_, ?_, ?_, hs.sent⟩
      · have hpc := hs.pc
        dsimp only
        cases hpc' : s.pc with
        | registering conn todo => exact absurd hpc' (hfree conn todo)
        | _ =>
          rw [hpc'] at hpc
          exact hpc
      · intro e he
        exact hs.announceable e (List.mem_of_mem_filter he)
      · intro f hf
        rcases List.mem_append.mp hf with hf | hf
        · exact hs.unregistering f hf
        · exact hi f (by rw [List.mem_singleton.mp hf])
    | @broadcast function hmem =>
      refine ⟨hunset, hs.pc, hs.announceable, ?_, ?_⟩
      · intro f hf
        exact hs.unregistering f (List.mem_of_mem_erase hf)
      · intro f hf
        rcases List.mem_append.mp hf with hf | hf
        · exact hs.sent f hf
        · rw [List.mem_singleton.mp hf]
          exact hs.unregistering function hmem
    | grab _ hfeeds _ => cases hfeeds <;> cases hworker
    | _ => cases hworker

theorem ready_cooperates (hs : s.Ready) (hi : i.Cooperates) (h : s.step mode i = some s') :
    s'.Ready := by
  apply ready_step hs _ _ h
  · rintro function rfl
    exact hi
  · cases hworker : i.ofWorker with
    | false => exact (shared_of_step hworker h).2.1.trans hs.unset
    | true =>
      cases steps_of_step h with
      | shutdown _ => exact hi.elim
      | _ => exact hs.unset

/-! ## The way to the next grab -/

/-- The steps of the task to its next grab. -/
def toGrab (s : WorkerConnection H) : Nat :=
  s.pc.toGrab s.registry.entries.length s.notifications.queued.length

/-- On an intact connection that takes its packet the loop's `GRAB_JOB*` is written. -/
theorem grabs_of_grab {l : GrabLoop H} (hpc : s.pc = .grabbing l) (hl : l.pc = .grab)
    (hintact : l.conn.broken = false) : s.grabs mode (.sent .accepted) = true := by
  have hstep : s.step mode (.sent .accepted) = some
      { s with pc := .grabbing (l.sendOr (.request mode.grabType []) .accepted .answer) } := by
    simp only [step, grab, hpc, GrabLoop.step, hl, Option.map_some]
  have hwritten : (l.sendOr (.request mode.grabType []) .accepted .answer).conn.written =
      l.conn.written ++ [.request mode.grabType []] := by
    rw [GrabLoop.conn_sendOr, Connection.send_accepted (GrabLoop.accepts_grab mode) hintact]
  have hwrites : s.pc.writes
      (.grabbing (l.sendOr (.request mode.grabType []) .accepted .answer)) =
        [.request mode.grabType []] :=
    ConnectionPc.writes_append (by rw [hpc]; rfl) rfl hwritten
  have hgrab : isGrab (Packet.request mode.grabType []).ptype = true :=
    GrabLoop.isGrab_grabType mode
  simp only [grabs, hstep, hwrites, List.any_cons, hgrab, Bool.true_or]

/-- What the loop is fed when nothing fails. -/
theorem cooperates_of_feeds {j : GrabInput H} {notifications : Broadcast String} {notified : Bool}
    (hs : s.Ready) (hi : i.Cooperates) (hfeeds : s.Feeds i j notifications notified) :
    j.Cooperates := by
  cases hfeeds with
  | borrow => exact hs.unset
  | sent io | recv pkt | report handle report io => exact hi
  | tryRecv io =>
    refine ⟨hi, fun function hfound => hs.sent function ?_⟩
    cases hreceived : (s.notifications.tryRecv notificationCap).1 <;> rw [hreceived] at hfound <;>
      cases hfound
    exact Broadcast.mem_sent_of_tryRecv hreceived
  | lookup | returned outcome => trivial
  | changed hset _ =>
    rw [hs.unset] at hset
    cases hset

theorem toGrab_of_grab {j : GrabInput H} {l l' : GrabLoop H} {notifications : Broadcast String}
    {notified : Bool} (hs : s.Ready) (hi : i.Cooperates) (hgrab : s.grabs mode i = false)
    (hpc : s.pc = .grabbing l) (hfeeds : s.Feeds i j notifications notified)
    (hl : l.step mode j = some l') :
    l'.pc.toGrab s.registry.entries.length notifications.queued.length l'.conn.broken +
        (if i.isOwn then 1 else 0) ≤
      l.pc.toGrab s.registry.entries.length s.notifications.queued.length l.conn.broken := by
  by_cases hreport : ∃ handle report io, j = .report handle report io
  · obtain ⟨handle, report, io, rfl⟩ := hreport
    cases hfeeds
    obtain rfl : io = .accepted := hi
    cases GrabLoop.steps_of_step hl with
    | report _ => exact Nat.le_of_eq (l.toGrab_report _ _ _)
  · have hnear : l'.pc.toGrab s.registry.entries.length notifications.queued.length
          l'.conn.broken + 1 ≤
        l.pc.toGrab s.registry.entries.length s.notifications.queued.length l.conn.broken := by
      apply GrabLoop.toGrab_of_step (cooperates_of_feeds hs hi hfeeds)
        (fun handle report io hj => hreport ⟨handle, report, io, hj⟩) _ _ _ hl
      · rintro io rfl hpc'
        cases hfeeds
        obtain rfl : io = .accepted := hi
        by_contra hintact
        rw [grabs_of_grab hpc hpc' (Bool.not_eq_true _ ▸ hintact)] at hgrab
        cases hgrab
      · cases hfeeds with
        | tryRecv io => exact Broadcast.length_queued_tryRecv_le notificationCap s.notifications
        | _ => exact Nat.le_refl _
      · rintro found io rfl hfound
        cases hfeeds with
        | tryRecv io =>
          apply Broadcast.length_queued_tryRecv
          intro hempty
          rw [hempty] at hfound
          exact hfound rfl
    split <;> omega

/-- A step of the task brings it nearer to a grab, or is one. -/
theorem toGrab_of_step (hs : s.Ready) (hi : i.Cooperates) (hgrab : s.grabs mode i = false)
    (h : s.step mode i = some s') :
    s'.toGrab + (if i.isOwn then 1 else 0) ≤ s.toGrab + if i.isBroadcast then 3 else 0 := by
  have hcounts : (if i.isOwn then 1 else 0) ≤ 1 := by
    split <;> omega
  have hqueued := Broadcast.length_queued_tryRecv_le notificationCap s.notifications
  have hunset := hs.unset
  have hready := hs.pc
  unfold toGrab
  cases steps_of_step h with
  | shutdown _ => exact hi.elim
  | @remove function _ =>
    have hlength : (s.registry.remove function).entries.length ≤ s.registry.entries.length :=
      List.length_filter_le _ _
    exact s.pc.toGrab_le hlength (Nat.le_refl (_ + 0))
  | @broadcast function _ =>
    have hlength : (s.notifications.send function).queued.length ≤
        s.notifications.queued.length + 1 := by
      simp only [Broadcast.queued, Broadcast.send, List.length_drop, List.length_append,
        List.length_singleton]
      omega
    exact s.pc.toGrab_le (Nat.le_refl _) hlength
  | borrow hpc =>
    simp only [hpc, hunset, Bool.false_eq_true, if_false, ConnectionPc.toGrab]
    omega
  | @connect ok hpc =>
    obtain rfl : ok = true := hi
    simp only [hpc, if_true, ConnectionPc.toGrab]
    omega
  | dial hpc | lock hpc | elapsed hpc =>
    simp only [hpc, ConnectionPc.toGrab]
    omega
  | registered hpc _ | unlock hpc =>
    simp only [hpc, ConnectionPc.toGrab, List.length_cons, List.length_nil]
    omega
  | @unregistered conn conn' name reg todo io e hpc hsend =>
    obtain rfl : io = .accepted := hi
    rw [hpc] at hready
    obtain ⟨hintact, htodo, -⟩ := hready
    rw [Connection.send_accepted (htodo _ List.mem_cons_self) hintact] at hsend
    cases hsend
  | discard hpc hfound =>
    have hsome : (s.notifications.tryRecv notificationCap).1 ≠ .empty := by
      rw [hfound]
      simp
    have hlt := Broadcast.length_queued_tryRecv hsome
    simp only [hpc, ConnectionPc.toGrab]
    omega
  | enter hpc _ =>
    rw [hpc] at hready
    have hintact : Connection.broken _ = false := hready
    simp only [hpc, ConnectionPc.toGrab, GrabLoop.start, GrabPc.toGrab, hintact,
      Bool.false_eq_true, if_false]
    omega
  | grab hpc hfeeds hl =>
    rw [hpc]
    have hgrabbing := toGrab_of_grab hs hi hgrab hpc hfeeds hl
    exact Nat.le_add_right_of_le hgrabbing
  | stop _ hset _ =>
    rw [hunset] at hset
    cases hset
  | shuttingDown hpc hdone =>
    rw [hpc] at hready
    exact absurd hdone hready
  | connectionLost hpc hdone =>
    simp only [hpc, hdone, ConnectionPc.toGrab, GrabPc.toGrab]
    omega

theorem toGrab_le (hs : s.Ready) :
    s.toGrab ≤ 17 + s.registry.entries.length + 3 * s.notifications.queued.length := by
  have hready := hs.pc
  unfold toGrab
  cases hpc : s.pc with
  | registering conn todo =>
    rw [hpc] at hready
    have hlength := hready.2.2
    simp only [ConnectionPc.toGrab]
    omega
  | grabbing l =>
    simp only [ConnectionPc.toGrab]
    cases l.pc <;> cases l.conn.broken <;>
      simp only [GrabPc.toGrab, if_true, Bool.false_eq_true, if_false] <;> omega
  | _ =>
    simp only [ConnectionPc.toGrab]
    omega

/-! ## There is always a step to take -/

theorem own_grab {l : GrabLoop H} (hpc : s.pc = .grabbing l) (hl : l.pc ≠ .done .shuttingDown) :
    ∃ i, i.Cooperates ∧ i.isOwn = true ∧ (s.step mode i).isSome := by
  cases hstand : l.pc with
  | head => exact ⟨.borrow, trivial, rfl, by simp [step, grab, hpc, GrabLoop.step, hstand]⟩
  | flush =>
    refine ⟨.tryRecv .accepted, rfl, rfl, ?_⟩
    simp only [step, grab, hpc]
    cases (s.notifications.tryRecv notificationCap).1 <;>
      simp [unregistration, GrabLoop.step, hstand]
  | grab | respond response | preSleep =>
    exact ⟨.sent .accepted, rfl, rfl, by simp [step, grab, hpc, GrabLoop.step, hstand]⟩
  | answer | asleep =>
    refine ⟨.recv (.ok (some (.response .noop []))), ⟨_, rfl⟩, rfl, ?_⟩
    simp [step, grab, hpc, GrabLoop.step, hstand]
  | dispatch pkt =>
    refine ⟨.lookup, trivial, rfl, ?_⟩
    simp only [step, grab, hpc, GrabLoop.step, hstand]
    split <;> rfl
  | running handler job =>
    exact ⟨.returned (.ok []), trivial, rfl, by simp [step, grab, hpc, GrabLoop.step, hstand]⟩
  | done outcome =>
    cases outcome with
    | connectionLost => exact ⟨.leave, trivial, rfl, by simp [step, hpc, hstand]⟩
    | shuttingDown => exact absurd hstand hl

theorem own_step (hs : s.Ready) :
    ∃ i, i.Cooperates ∧ i.isOwn = true ∧ (s.step mode i).isSome := by
  have hready := hs.pc
  cases hpc : s.pc with
  | head => exact ⟨.borrow, trivial, rfl, by simp [step, hpc]⟩
  | dial => exact ⟨.dial, trivial, rfl, by simp [step, hpc]⟩
  | connecting => exact ⟨.connect true, rfl, rfl, by simp [step, hpc]⟩
  | connected conn => exact ⟨.lock, trivial, rfl, by simp [step, hpc]⟩
  | registering conn todo =>
    cases todo with
    | nil => exact ⟨.unlock, trivial, rfl, by simp [step, hpc]⟩
    | cons e todo =>
      refine ⟨.sent .accepted, rfl, rfl, ?_⟩
      simp only [step, hpc]
      split <;> rfl
  | discarding conn =>
    refine ⟨.tryRecv .accepted, rfl, rfl, ?_⟩
    simp only [step, hpc]
    split <;> rfl
  | grabbing l =>
    rw [hpc] at hready
    exact own_grab hpc hready
  | backingOff => exact ⟨.elapsed, trivial, rfl, by simp [step, hpc]⟩
  | returned =>
    rw [hpc] at hready
    exact hready.elim

/-! ## Runs -/

/-- Whatever the connections and the server did, before the flag the task is ready to go on. -/
theorem ready_of_run {registry : Registry H} {is : List (ConnectionInput H)}
    (hannounce : Announceable registry.entries)
    (hwithdraw : ∀ function, .remove function ∈ is → Withdrawable function)
    (h : Machine.run (step mode) (start registry) is = some s) (hunset : s.shutdown = false) :
    s.Ready := by
  revert hunset hwithdraw
  refine Machine.run_induction
    (P := fun is (s : WorkerConnection H) =>
      (∀ function, .remove function ∈ is → Withdrawable function) → s.shutdown = false → s.Ready)
    (fun _ _ => ready_start hannounce) ?_ h
  intro is s i s' _ hs hstep hwithdraw hunset
  have hready : s.Ready :=
    hs (fun function hmem => hwithdraw function (List.mem_append_left _ hmem))
      (unset_of_step hstep hunset)
  refine ready_step hready (fun function hi => hwithdraw function ?_) hunset hstep
  rw [hi]
  exact List.mem_append_right _ List.mem_cons_self

/-- **A worker gets back to grabbing.** Before the flag is set, however many
connections, writes and servers have failed and however the task fell behind
with its notifications: while connections come up, writes are accepted,
handlers return and the server goes on sending packets, there is always a step
for the task to take, and within 17 of its steps, one for each function registered
and three for each notification queued or sent meanwhile, it writes a `GRAB_JOB*`. -/
theorem grabs_again {mode : GrabMode} {registry : Registry H}
    {before after : List (ConnectionInput H)}
    (hannounce : Announceable registry.entries)
    (hwithdraw : ∀ function, .remove function ∈ before → Withdrawable function)
    (h : Machine.run (step mode) (start registry) before = some s) (hunset : s.shutdown = false)
    (hmeets : Machine.Meets (step mode) (fun s i => i.Cooperates ∧ s.grabs mode i = false) s after)
    (hafter : Machine.run (step mode) s after = some s') :
    after.countP ConnectionInput.isOwn ≤
        17 + s.registry.entries.length + 3 * s.notifications.queued.length +
          3 * after.countP ConnectionInput.isBroadcast ∧
      ∃ i, i.Cooperates ∧ i.isOwn = true ∧ (s'.step mode i).isSome := by
  have hready := ready_of_run hannounce hwithdraw h hunset
  have hstep : ∀ (s : WorkerConnection H) (i : ConnectionInput H) (t : WorkerConnection H),
      s.Ready → (i.Cooperates ∧ s.grabs mode i = false) → s.step mode i = some t → t.Ready ∧
        t.toGrab + (if i.isOwn then 1 else 0) ≤ s.toGrab + if i.isBroadcast then 3 else 0 := by
    rintro s i t hs ⟨hi, hgrab⟩ hstep
    exact ⟨ready_cooperates hs hi hstep, toGrab_of_step hs hi hgrab hstep⟩
  constructor
  · have hcount := Machine.countP_le_of_meets hstep hready hmeets hafter
    have hle := toGrab_le hready
    omega
  · exact own_step (Machine.invariant_of_meets
      (fun s i t hs hc hi => (hstep s i t hs hc hi).1) hready hmeets hafter)

/-- A connection attempt fails, then a `GRAB_JOB_UNIQ`. -/
def twoFailures : List (ConnectionInput Unit) :=
  [.borrow, .dial, .connect false, .elapsed, .borrow, .dial, .connect true, .lock, .sent .accepted,
    .unlock, .tryRecv .accepted, .borrow, .tryRecv .accepted, .sent .failed]

def nextGrab : List (ConnectionInput Unit) :=
  [.leave, .elapsed, .borrow, .dial, .connect true, .lock, .sent .accepted, .unlock,
    .tryRecv .accepted, .borrow, .tryRecv .accepted]

theorem grabs_again_twoFailures :
    ∃ s t : WorkerConnection Unit,
      Machine.run (step .uniq) (start (Registry.empty.register "echo" ())) twoFailures = some s ∧
      Machine.run (step .uniq) s nextGrab = some t ∧ t.pc.grab = some .grab ∧
      nextGrab.countP ConnectionInput.isOwn ≤ 17 + 1 + 3 * 0 + 3 * 0 := by
  have hannounce : Announceable (Registry.empty.register "echo" ()).entries := by
    intro e he
    obtain rfl := List.mem_singleton.mp he
    exact ⟨rfl, by decide⟩
  have hrun : Machine.run (step .uniq) (start (Registry.empty.register "echo" ())) twoFailures =
    some _ := rfl
  refine ⟨_, _, hrun, rfl, rfl, (grabs_again hannounce ?_ hrun rfl ?_ rfl).1⟩
  · intro function hmem
    simp [twoFailures] at hmem
  · refine .cons ⟨trivial, rfl⟩ rfl ?_
    refine .cons ⟨trivial, rfl⟩ rfl ?_
    refine .cons ⟨trivial, rfl⟩ rfl ?_
    refine .cons ⟨trivial, rfl⟩ rfl ?_
    refine .cons ⟨rfl, rfl⟩ rfl ?_
    refine .cons ⟨trivial, rfl⟩ rfl ?_
    refine .cons ⟨rfl, rfl⟩ rfl ?_
    refine .cons ⟨trivial, rfl⟩ rfl ?_
    refine .cons ⟨rfl, rfl⟩ rfl ?_
    refine .cons ⟨trivial, rfl⟩ rfl ?_
    exact .cons ⟨rfl, rfl⟩ rfl trivial

end WorkerConnection

end Gearman.Worker

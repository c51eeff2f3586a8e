import Gearman.Worker.Verify.GrabLoop
import Gearman.Client.Incoming

/-!
# One grab in flight

A worker connection together with a server that answers each `GRAB_JOB*` once
and in order, sends `NOOP` to a worker that sleeps, and may send `ERROR` at any
time. The grab loop takes any packet behind a `GRAB_JOB*` for its answer. Where
that packet is an `ERROR` or a late `NOOP` it grabs again, with the first grab
still unanswered; the theorem is about the runs in which this does not happen.
-/

namespace Gearman.Worker

open Protocol
open Client (isTerminal)

def isGrab : PacketType → Bool
  | .grabJob | .grabJobUniq | .grabJobAll => true
  | _ => false

/-- The types that answer a `GRAB_JOB*`. -/
def isGrabAnswer (t : PacketType) : Bool := isAssign t || t = .noJob

/-- How many packets of the types `p` there are. -/
def countOf (p : PacketType → Bool) (pkts : List Packet) : Nat := pkts.countP fun pkt => p pkt.ptype

theorem countOf_concat (p : PacketType → Bool) (pkts : List Packet) (pkt : Packet) :
    countOf p (pkts ++ [pkt]) = countOf p pkts + if p pkt.ptype then 1 else 0 := by
  simp only [countOf, List.countP_append, List.countP_singleton]

/-- The worker's connection is in the state that a server takes for sleeping:
it sent `PRE_SLEEP` and no `GRAB_JOB*` since. -/
def sleepsIn (pkts : List Packet) : Bool :=
  pkts.foldl (fun sleeps pkt => pkt.ptype = .preSleep || (sleeps && !isGrab pkt.ptype)) false

structure GrabSession (H : Type) where
  loop : GrabLoop H
  /-- Sent by the server and not yet read. -/
  wire : List Packet
  /-- How many of the packets written the server has read. -/
  seen : Nat
  /-- How many grabs the server has answered. -/
  answered : Nat
  /-- How many of these answers the worker has read. -/
  answersRead : Nat

inductive GrabAct (H : Type)
  /-- The worker does a step that reads no packet. -/
  | worker (i : GrabInput H)
  /-- The worker reads the next packet. -/
  | recv
  /-- The server reads the next packet. -/
  | serverRecv
  | serverAnswer (pkt : Packet)
  | serverNoop
  | serverError (pkt : Packet)

namespace GrabSession

variable {H : Type} {mode : GrabMode}

def start (registry : Registry H) : GrabSession H where
  loop := .start (registered registry)
  wire := []
  seen := 0
  answered := 0
  answersRead := 0

def grabs (s : GrabSession H) : Nat := countOf isGrab s.loop.conn.written

def preSleeps (s : GrabSession H) : Nat := countOf (· = .preSleep) s.loop.conn.written

def step (mode : GrabMode) (s : GrabSession H) : GrabAct H → Option (GrabSession H)
  | .worker i =>
    if i.packet = none then (s.loop.step mode i).map fun l => { s with loop := l } else none
  | .recv =>
    match s.wire with
    | [] => none
    | pkt :: wire =>
      (s.loop.step (H := H) mode (.recv (.ok (some pkt)))).map fun l =>
        { s with
          loop := l
          wire := wire
          answersRead := if isGrabAnswer pkt.ptype then s.answersRead + 1 else s.answersRead }
  | .serverRecv =>
    if s.seen < s.loop.conn.written.length then some { s with seen := s.seen + 1 } else none
  | .serverAnswer pkt =>
    if isGrabAnswer pkt.ptype ∧ s.answered < countOf isGrab (s.loop.conn.written.take s.seen) then
      some { s with wire := s.wire ++ [pkt], answered := s.answered + 1 }
    else none
  | .serverNoop =>
    if sleepsIn (s.loop.conn.written.take s.seen) then
      some { s with wire := s.wire ++ [.response .noop []] }
    else none
  | .serverError pkt =>
    if pkt.ptype = .error then some { s with wire := s.wire ++ [pkt] } else none

/-- The packet the worker takes for the answer to its grab is one. -/
def ReadsAnswer (s : GrabSession H) : GrabAct H → Prop
  | .recv => s.loop.pc = .answer → ∀ pkt ∈ s.wire.head?, isGrabAnswer pkt.ptype = true
  | _ => True

/-- The grabs sent so far are answered, except for the one the worker waits for. -/
def Balanced (pc : GrabPc H) (grabs answersRead : Nat) : Prop :=
  match pc with
  | .answer => grabs = answersRead + 1
  | .done _ => answersRead ≤ grabs ∧ grabs ≤ answersRead + 1
  | _ => grabs = answersRead

structure Inv (s : GrabSession H) : Prop where
  balanced : Balanced s.loop.pc s.grabs s.answersRead
  answered : s.answered = s.answersRead + countOf isGrabAnswer s.wire
  answered_le : s.answered ≤ s.grabs
  response : ∀ pkt, s.loop.pc = .respond pkt → isTerminal pkt.ptype = true

theorem balanced_done {pc : GrabPc H} {grabs answersRead : Nat} (h : Balanced pc grabs answersRead)
    (outcome : LoopOutcome) : Balanced (H := H) (.done outcome) grabs answersRead := by
  unfold Balanced at h
  change answersRead ≤ grabs ∧ grabs ≤ answersRead + 1
  split at h <;> omega

theorem Balanced.le {pc : GrabPc H} {grabs answersRead : Nat} (h : Balanced pc grabs answersRead) :
    grabs ≤ answersRead + 1 := by
  unfold Balanced at h
  split at h <;> omega

/-! ## What is written -/

/-- A type that is neither a `GRAB_JOB*` nor `PRE_SLEEP`. -/
def Neutral (t : PacketType) : Prop := isGrab t = false ∧ t ≠ .preSleep

theorem neutral_of_isTerminal {t : PacketType} (h : isTerminal t = true) : Neutral t := by
  revert h
  cases t <;> simp [isTerminal, isGrab, Neutral]

theorem neutral_report (handle : String) (report : Report) :
    Neutral (report.packet handle).ptype := by
  cases report <;> exact ⟨rfl, by simp [Report.packet, Packet.request]⟩

theorem countOf_sendAnd {p : PacketType → Bool} (l : GrabLoop H) {pkt : Packet} (io : Io)
    (next : GrabPc H) (h : p pkt.ptype = false) :
    countOf p (l.sendAnd pkt io next).conn.written = countOf p l.conn.written := by
  rcases l.sendAnd_cases pkt io next with ⟨-, -, hsend⟩ | ⟨b, hsend, -⟩ <;> rw [hsend]
  rw [countOf_concat, h]
  rfl

theorem countOf_sendOr {p : PacketType → Bool} (l : GrabLoop H) {pkt : Packet} (io : Io)
    (next : GrabPc H) (h : p pkt.ptype = false) :
    countOf p (l.sendOr pkt io next).conn.written = countOf p l.conn.written := by
  rcases l.sendOr_cases pkt io next with ⟨-, hsend⟩ | ⟨b, hsend⟩ <;> rw [hsend]
  rw [countOf_concat, h]
  rfl

theorem pc_sendOr (l : GrabLoop H) (pkt : Packet) (io : Io) (next : GrabPc H) :
    (l.sendOr pkt io next).pc = next ∨ (l.sendOr pkt io next).pc = .done .connectionLost := by
  rcases l.sendOr_cases pkt io next with ⟨-, hsend⟩ | ⟨b, hsend⟩ <;> rw [hsend]
  · exact .inl rfl
  · exact .inr rfl

/-! ## Steps of the worker -/

/-- A step that sends no grab and goes on to where none is waited for. -/
theorem Inv.worker {s : GrabSession H} (hs : s.Inv) {l : GrabLoop H}
    (hgrabs : countOf isGrab l.conn.written = s.grabs)
    (hbalanced : Balanced l.pc s.grabs s.answersRead)
    (hresponse : ∀ pkt, l.pc = .respond pkt → isTerminal pkt.ptype = true) :
    ({ s with loop := l }).Inv := by
  refine ⟨?_, hs.answered, ?_, hresponse⟩
  · rw [grabs, hgrabs]
    exact hbalanced
  · rw [grabs, hgrabs]
    exact hs.answered_le

theorem Inv.sendOr {s : GrabSession H} (hs : s.Inv) {pkt : Packet} {io : Io} {next : GrabPc H}
    (hpkt : isGrab pkt.ptype = false) (hnext : Balanced next s.grabs s.answersRead)
    (hresponse : ∀ pkt, next ≠ .respond pkt) :
    ({ s with loop := s.loop.sendOr pkt io next }).Inv := by
  refine hs.worker (countOf_sendOr s.loop io next hpkt) ?_ fun p hp => ?_
  · rcases pc_sendOr s.loop pkt io next with hpc | hpc <;> rw [hpc]
    · exact hnext
    · exact balanced_done hnext _
  · rcases pc_sendOr s.loop pkt io next with hpc | hpc <;> rw [hpc] at hp
    · exact absurd hp (hresponse p)
    · cases hp

/-- The grab itself: the one unanswered grab, if it is written at all. -/
theorem Inv.grab {s : GrabSession H} (hs : s.Inv) (hpc : s.loop.pc = .grab) (io : Io) :
    ({ s with loop := s.loop.sendOr (.request mode.grabType []) io .answer }).Inv := by
  have hbalanced := hs.balanced
  rw [hpc] at hbalanced
  rcases s.loop.sendOr_cases (.request mode.grabType []) io .answer with ⟨-, h⟩ | ⟨b, h⟩ <;> rw [h]
  · have hgrabs : countOf isGrab (s.loop.conn.written ++ [.request mode.grabType []]) =
        s.grabs + 1 := by
      rw [countOf_concat]
      cases mode <;> rfl
    refine ⟨?_, hs.answered, ?_, fun p hp => by cases hp⟩
    · simp only [grabs, hgrabs]
      exact congrArg (· + 1) hbalanced
    · simp only [grabs, hgrabs]
      exact Nat.le_succ_of_le hs.answered_le
  · exact hs.worker rfl (balanced_done hbalanced _) fun p hp => by cases hp

theorem inv_worker {s : GrabSession H} {i : GrabInput H} {l : GrabLoop H} (hs : s.Inv)
    (hi : i.packet = none) (h : s.loop.step mode i = some l) :
    ({ s with loop := l }).Inv := by
  have hbalanced := hs.balanced
  cases GrabLoop.steps_of_step h with
  | @report handle report io _ =>
    exact hs.worker (countOf_sendAnd _ _ _ (neutral_report handle report).1) hbalanced hs.response
  | shutdown hpc =>
    rw [hpc] at hbalanced
    refine hs.worker rfl ?_ fun p hp => ?_
    · dsimp only
      split
      · exact balanced_done hbalanced _
      · exact hbalanced
    · dsimp only at hp
      split at hp <;> cases hp
  | withdraw hpc =>
    rw [hpc] at hbalanced
    exact hs.sendOr rfl hbalanced fun p hp => by cases hp
  | lagged _ => exact hs
  | flushed hpc | registered hpc _ =>
    rw [hpc] at hbalanced
    exact hs.worker rfl hbalanced fun p hp => by cases hp
  | grab hpc => exact hs.grab hpc _
  | answer _ | wake _ => cases hi
  | lost _ _ | changed _ =>
    exact hs.worker rfl (balanced_done hbalanced _) fun p hp => by cases hp
  | unregistered hpc _ =>
    rw [hpc] at hbalanced
    refine hs.worker rfl hbalanced fun p hp => ?_
    cases hp
    rfl
  | @returned _ job outcome hpc =>
    rw [hpc] at hbalanced
    refine hs.worker rfl hbalanced fun p hp => ?_
    cases hp
    rcases outcome with (_ | _) | _ <;> rfl
  | @respond response io hpc =>
    rw [hpc] at hbalanced
    have hneutral := neutral_of_isTerminal (hs.response response hpc)
    exact hs.worker (countOf_sendAnd _ _ _ hneutral.1) hbalanced fun p hp => by cases hp
  | preSleep hpc =>
    rw [hpc] at hbalanced
    exact hs.sendOr rfl hbalanced fun p hp => by cases hp

/-- The worker reads a packet: the answer to its grab, or asleep one that answers nothing. -/
theorem inv_recv {s : GrabSession H} {pkt : Packet} {wire : List Packet} {l : GrabLoop H}
    (hs : s.Inv) (hwire : s.wire = pkt :: wire)
    (hreads : s.loop.pc = .answer → isGrabAnswer pkt.ptype = true)
    (h : s.loop.step (H := H) mode (.recv (.ok (some pkt))) = some l) :
    ({ s with
      loop := l
      wire := wire
      answersRead :=
        if isGrabAnswer pkt.ptype then s.answersRead + 1 else s.answersRead }).Inv := by
  have hbalanced := hs.balanced
  have hanswered := hs.answered
  have hle := hs.answered_le
  have hcount : countOf isGrabAnswer s.wire =
      countOf isGrabAnswer wire + if isGrabAnswer pkt.ptype then 1 else 0 := by
    rw [hwire, countOf, List.countP_cons]
    rfl
  cases GrabLoop.steps_of_step h with
  | answer hpc =>
    have hans := hreads hpc
    rw [hpc] at hbalanced
    simp only [hans, if_true] at hcount ⊢
    refine ⟨?_, ?_, hle, fun p hp => ?_⟩
    · rcases GrabLoop.onAnswer_cases (H := H) pkt with hpc' | hpc' | hpc' <;> rw [hpc'] <;>
        exact hbalanced
    · simp only
      omega
    · unfold GrabLoop.onAnswer at hp
      dsimp only at hp
      split at hp
      · cases hp
      · split at hp <;> cases hp
  | wake hpc =>
    rw [hpc] at hbalanced
    have hbalanced : s.grabs = s.answersRead := hbalanced
    -- every grab has been answered, and the worker has read the answers
    have hnone : isGrabAnswer pkt.ptype = false := by
      by_contra hans
      rw [Bool.not_eq_false] at hans
      rw [if_pos hans] at hcount
      omega
    simp only [hnone] at hcount ⊢
    refine ⟨hbalanced, ?_, hle, fun p hp => by cases hp⟩
    simp only [Bool.false_eq_true, if_false] at hcount ⊢
    omega
  | lost _ hlost => exact absurd rfl (hlost pkt)

/-! ## Runs -/

theorem inv_start (registry : Registry H) : (start registry).Inv := by
  have hnone : (start registry).grabs = 0 := by
    refine List.countP_eq_zero.mpr fun pkt hpkt => ?_
    obtain ⟨⟨name, reg⟩, -, rfl⟩ := List.mem_map.mp hpkt
    unfold registerPacket
    split <;> exact Bool.false_ne_true
  exact ⟨hnone, rfl, Nat.zero_le _, fun p hp => by cases hp⟩

theorem inv_step {s s' : GrabSession H} {act : GrabAct H} (hs : s.Inv) (hreads : s.ReadsAnswer act)
    (h : s.step mode act = some s') : s'.Inv := by
  cases act with
  | worker i =>
    obtain ⟨hi, h⟩ := Option.ite_none_right_eq_some.mp h
    obtain ⟨l, hl, rfl⟩ := Option.map_eq_some_iff.mp h
    exact inv_worker hs hi hl
  | recv =>
    rcases hwire : s.wire with _ | ⟨pkt, wire⟩ <;> simp only [step, hwire] at h
    · cases h
    · obtain ⟨l, hl, rfl⟩ := Option.map_eq_some_iff.mp h
      exact inv_recv hs hwire (fun hpc => hreads hpc pkt (by rw [hwire]; rfl)) hl
  | serverRecv =>
    obtain ⟨-, h⟩ := Option.ite_none_right_eq_some.mp h
    cases h
    exact ⟨hs.balanced, hs.answered, hs.answered_le, hs.response⟩
  | serverAnswer pkt =>
    obtain ⟨⟨hans, hlt⟩, h⟩ := Option.ite_none_right_eq_some.mp h
    cases h
    have hseen : countOf isGrab (s.loop.conn.written.take s.seen) ≤ s.grabs :=
      (List.take_sublist _ _).countP_le
    have hanswered := hs.answered
    refine ⟨hs.balanced, ?_, Nat.le_trans hlt hseen, hs.response⟩
    simp only [countOf_concat, hans, if_true]
    omega
  | serverNoop =>
    obtain ⟨-, h⟩ := Option.ite_none_right_eq_some.mp h
    cases h
    refine ⟨hs.balanced, ?_, hs.answered_le, hs.response⟩
    rw [countOf_concat]
    exact hs.answered
  | serverError pkt =>
    obtain ⟨herror, h⟩ := Option.ite_none_right_eq_some.mp h
    cases h
    refine ⟨hs.balanced, ?_, hs.answered_le, hs.response⟩
    rw [countOf_concat, herror]
    exact hs.answered

/-- `PRE_SLEEP` is only sent where the loop is about to sleep. -/
theorem preSleeps_worker {s : GrabSession H} {i : GrabInput H} {l : GrabLoop H} (hs : s.Inv)
    (h : s.loop.step mode i = some l)
    (hlt : s.preSleeps < countOf (· = .preSleep) l.conn.written) : s.loop.pc = .preSleep := by
  have same : ∀ {n : Nat}, n = s.preSleeps → s.preSleeps < n → s.loop.pc = .preSleep := by
    intro n hn hlt
    omega
  cases GrabLoop.steps_of_step h with
  | @report handle report io _ =>
    exact same (countOf_sendAnd _ _ _ (decide_eq_false (neutral_report handle report).2)) hlt
  | withdraw _ | grab _ =>
    refine same (countOf_sendOr _ _ _ ?_) hlt
    cases mode <;> rfl
  | respond hpc =>
    have hneutral := neutral_of_isTerminal (hs.response _ hpc)
    exact same (countOf_sendAnd _ _ _ (decide_eq_false hneutral.2)) hlt
  | preSleep hpc => exact hpc
  | _ => exact same rfl hlt

/-- **One grab in flight.** In every run in which the packet read behind each
`GRAB_JOB*` is a `NO_JOB` or an assignment, at most one grab is unanswered at
any moment, also when an answer counts only once the worker has read it, and
`PRE_SLEEP` is sent only when none is. -/
theorem one_grab_in_flight (mode : GrabMode) (registry : Registry H) {acts : List (GrabAct H)}
    {s : GrabSession H} (hreads : Machine.Meets (step mode) ReadsAnswer (start registry) acts)
    (h : Machine.run (step mode) (start registry) acts = some s) :
    s.grabs ≤ s.answered + 1 ∧ s.grabs ≤ s.answersRead + 1 ∧
      ∀ (act : GrabAct H) (s' : GrabSession H), s.step mode act = some s' →
        s.preSleeps < s'.preSleeps → s.grabs = s.answered ∧ s.grabs = s.answersRead := by
  have hs : s.Inv := Machine.invariant_of_meets (fun _ _ _ hs hc hstep => inv_step hs hc hstep)
    (inv_start registry) hreads h
  have hle := hs.balanced.le
  have hanswered := hs.answered
  refine ⟨by omega, hle, fun act s' hstep hlt => ?_⟩
  have hpc : s.loop.pc = .preSleep := by
    cases act with
    | worker i =>
      obtain ⟨-, hstep⟩ := Option.ite_none_right_eq_some.mp hstep
      obtain ⟨l, hl, rfl⟩ := Option.map_eq_some_iff.mp hstep
      exact preSleeps_worker hs hl hlt
    | recv =>
      rcases hwire : s.wire with _ | ⟨pkt, wire⟩ <;> simp only [step, hwire] at hstep
      · cases hstep
      · obtain ⟨l, hl, rfl⟩ := Option.map_eq_some_iff.mp hstep
        exact preSleeps_worker hs hl hlt
    | serverRecv | serverAnswer _ | serverNoop | serverError _ =>
      obtain ⟨-, hstep⟩ := Option.ite_none_right_eq_some.mp hstep
      cases hstep
      exact absurd hlt (Nat.lt_irrefl _)
  have hbalanced := hs.balanced
  rw [hpc] at hbalanced
  have hbalanced : s.grabs = s.answersRead := hbalanced
  have hanswered_le := hs.answered_le
  omega

/-- A worker that finds no job and goes to sleep. -/
def sleepRun : List (GrabAct Unit) :=
  [.worker (.shutdown false), .worker (.unregistered .none .accepted), .worker (.sent .accepted),
    .serverRecv, .serverAnswer (.response .noJob []), .recv]

theorem one_grab_in_flight_sleepRun :
    ∃ s s' : GrabSession Unit,
      Machine.run (step .uniq) (start (Registry.empty : Registry Unit)) sleepRun = some s ∧
      s.step (H := Unit) .uniq (.worker (.sent .accepted)) = some s' ∧ s.grabs = s.answered := by
  have hrun : Machine.run (step .uniq) (start (Registry.empty : Registry Unit)) sleepRun =
    some _ := rfl
  have hreads : Machine.Meets (step .uniq) ReadsAnswer (start (Registry.empty : Registry Unit))
      sleepRun := by
    refine .cons trivial rfl (.cons trivial rfl (.cons trivial rfl (.cons trivial rfl
      (.cons trivial rfl (.cons ?_ rfl trivial)))))
    intro _ pkt hpkt
    cases hpkt
    rfl
  refine ⟨_, _, hrun, rfl, ?_⟩
  exact ((one_grab_in_flight .uniq .empty hreads hrun).2.2 (.worker (.sent .accepted)) _ rfl
    (by decide)).1

/-- An `ERROR` behind a grab, for a job the server has given up on. -/
def strayError : List (GrabAct Unit) :=
  [.worker (.shutdown false), .worker (.unregistered .none .accepted), .worker (.sent .accepted),
    .serverError (.response .error [asBytes "JOB_NOT_FOUND", []]), .recv,
    .worker (.shutdown false), .worker (.unregistered .none .accepted), .worker (.sent .accepted)]

theorem two_grabs_in_flight :
    ∃ s : GrabSession Unit,
      Machine.run (step .uniq) (start (Registry.empty : Registry Unit)) strayError = some s ∧
      s.grabs = 2 ∧ s.answered = 0 ∧ s.answersRead = 0 :=
  ⟨_, rfl, rfl, rfl, rfl⟩

end GrabSession

end Gearman.Worker

import Gearman.Worker.Verify.GrabLoop
import Gearman.Worker.Verify.OneGrab

/-!
# Reports behind a result

A `Reporter` can be cloned and kept for as long as its holder likes. It shares
the connection of the grab loop through a lock, which the loop holds while it
waits for a packet, and at no other time. So a `Reporter` that outlives its
handler can write between the result of its job and the loop's next wait, also
with a `GRAB_JOB*` sent in between. One that is used only while its job is in
hand never does.
-/

namespace Gearman.Worker

open Protocol
open Client (isTerminal)
open GrabSession (Neutral neutral_of_isTerminal)

/-- The packets that a `Reporter` sends. -/
def isReport : PacketType → Bool
  | .workStatus | .workData | .workWarning => true
  | _ => false

theorem isReport_of_isTerminal {t : PacketType} (h : isTerminal t = true) :
    isReport t = false := by
  revert h
  cases t <;> simp [isReport, isTerminal]

theorem isTerminal_of_isReport {t : PacketType} (h : isReport t = true) :
    isTerminal t = false := by
  revert h
  cases t <;> simp [isReport, isTerminal]

theorem neutral_of_isReport {t : PacketType} (h : isReport t = true) : Neutral t := by
  revert h
  cases t <;> simp [isReport, Neutral, isGrab]

/-- What passes over the connection. -/
inductive Wire
  /-- A packet is written, for this job if for any. -/
  | wrote (job : Option Nat) (pkt : Packet)
  /-- The loop reads a packet. -/
  | read (pkt : Packet)
  deriving DecidableEq, Repr

namespace Wire

/-- A report of the job is written. -/
def reports (job : Nat) : Wire → Bool
  | .wrote writer pkt => writer = some job && isReport pkt.ptype
  | .read _ => false

/-- The result of the job is written. -/
def ends (job : Nat) : Wire → Bool
  | .wrote writer pkt => writer = some job && isTerminal pkt.ptype
  | .read _ => false

end Wire

/-- The `GRAB_JOB*`s and whether a `PRE_SLEEP` is unanswered. -/
structure Unanswered where
  grabs : Nat
  sleep : Bool
  deriving DecidableEq, Repr

namespace Unanswered

def none : Unanswered := ⟨0, false⟩

/-- A `GRAB_JOB*` is answered by a `NO_JOB` or a `JOB_ASSIGN*`, a `PRE_SLEEP` by a `NOOP`. -/
def after (u : Unanswered) : Wire → Unanswered
  | .wrote _ pkt =>
    if isGrab pkt.ptype then { u with grabs := u.grabs + 1 }
    else if pkt.ptype = .preSleep then { u with sleep := true }
    else u
  | .read pkt =>
    if isGrabAnswer pkt.ptype then { u with grabs := u.grabs - 1 }
    else if pkt.ptype = .noop then { u with sleep := false }
    else u

theorem after_neutral (u : Unanswered) (job : Option Nat) {pkt : Packet}
    (h : Neutral pkt.ptype) : u.after (.wrote job pkt) = u := by
  simp [after, h.1, h.2]

end Unanswered

/-- What has been written and not been answered by what was read. -/
def unanswered (log : List Wire) : Unanswered := log.foldl Unanswered.after .none

/-- Each report is written before the result of its job, and with nothing unanswered. -/
def Orderly (log : List Wire) : Prop :=
  ∀ before e after job, log = before ++ e :: after → e.reports job = true →
    (∀ e' ∈ before, e'.ends job = false) ∧ unanswered before = .none

@[simp] theorem unanswered_concat (log : List Wire) (e : Wire) :
    unanswered (log ++ [e]) = (unanswered log).after e := by
  rw [unanswered, List.foldl_append]
  rfl

theorem orderly_concat {log : List Wire} {e : Wire} (h : Orderly log)
    (he : ∀ job, e.reports job = true →
      (∀ e' ∈ log, e'.ends job = false) ∧ unanswered log = .none) : Orderly (log ++ [e]) := by
  intro before e' after job hlog hreports
  rcases List.eq_nil_or_concat after with rfl | ⟨after, last, rfl⟩
  · obtain ⟨rfl, hlast⟩ := List.append_inj' hlog rfl
    obtain rfl : e = e' := by injection hlast
    exact he job hreports
  · rw [List.concat_eq_append, ← List.cons_append, ← List.append_assoc] at hlog
    exact h before e' after job (List.append_inj' hlog rfl).1 hreports

/-- The grab loop with the `Reporter`s it made, which are numbered. -/
structure ReporterRun (H : Type) where
  loop : GrabLoop H
  /-- `recv_packet` holds the lock of the connection. -/
  locked : Bool
  /-- The job whose handler runs or whose result is to be sent. -/
  inHand : Option Nat
  log : List Wire

inductive ReporterInput (H : Type)
  /-- `recv_packet` takes the lock. -/
  | lock
  | loop (i : GrabInput H)
  /-- A `Reporter` of this job is used. -/
  | report (job : Nat) (report : Report) (io : Io)

namespace ReporterRun

variable {H : Type} {mode : GrabMode}

def start (conn : Connection) : ReporterRun H := ⟨.start conn, false, none, []⟩

/-- What is written from `conn` to `conn'`. -/
def newWrites (job : Option Nat) (conn conn' : Connection) : List Wire :=
  (conn'.written.drop conn.written.length).map (.wrote job)

def newRead (i : GrabInput H) : List Wire := i.packet.toList.map .read

/-- The run after a step of the loop, which lets go of the lock. -/
def afterLoop (r : ReporterRun H) (i : GrabInput H) (l : GrabLoop H) : ReporterRun H where
  loop := l
  locked := false
  inHand :=
    match r.loop.pc, l.pc with
    | .dispatch _, .running _ _ => some r.loop.reporters.length
    | .respond _, .head => none
    | _, _ => r.inHand
  log := r.log ++ newWrites r.inHand r.loop.conn l.conn ++ newRead i

def afterReport (r : ReporterRun H) (job : Nat) (l : GrabLoop H) : ReporterRun H :=
  { r with loop := l, log := r.log ++ newWrites (some job) r.loop.conn l.conn }

/-- The loop is about to call `recv_packet`. -/
def receives (l : GrabLoop H) : Bool :=
  match l.pc with
  | .answer | .asleep => true
  | _ => false

def step (mode : GrabMode) (r : ReporterRun H) : ReporterInput H → Option (ReporterRun H)
  | .lock => if !r.locked && receives r.loop then some { r with locked := true } else none
  | .loop (.report _ _ _) => none
  | .loop (.recv pkt) =>
    if r.locked then (r.loop.step (H := H) mode (.recv pkt)).map (r.afterLoop (H := H) (.recv pkt))
    else none
  | .loop i => (r.loop.step mode i).map (r.afterLoop i)
  | .report job report io =>
    if r.locked then none
    else
      r.loop.reporters[job]?.bind fun handle =>
        (r.loop.step (H := H) mode (.report handle report io)).map (r.afterReport job)

/-- A `Reporter` gets a packet onto the connection only while its job is in hand. -/
def Timely (r : ReporterRun H) : ReporterInput H → Prop
  | .report job report io =>
    ∀ handle ∈ r.loop.reporters[job]?, GearmanCodec.new.Accepts (report.packet handle) →
      r.loop.conn.broken = false → io = .accepted → r.inHand = some job
  | _ => True

/-- A packet the loop takes for the answer to its `GRAB_JOB*` or `PRE_SLEEP` is one. -/
def ReadsAnswer (r : ReporterRun H) : ReporterInput H → Prop
  | .loop (.recv (.ok (some pkt))) =>
    (r.loop.pc = .answer → isGrabAnswer pkt.ptype = true) ∧
      (r.loop.pc = .asleep → pkt.ptype = .noop)
  | _ => True

theorem newWrites_same {job : Option Nat} {conn conn' : Connection}
    (h : conn'.written = conn.written) : newWrites job conn conn' = [] := by
  rw [newWrites, h, List.drop_length]
  rfl

theorem newWrites_concat {job : Option Nat} {conn conn' : Connection} {pkt : Packet}
    (h : conn'.written = conn.written ++ [pkt]) :
    newWrites job conn conn' = [.wrote job pkt] := by
  rw [newWrites, h, List.drop_left]
  rfl

/-- What the place of the loop says about the job in hand and about what it waits for. -/
def Stands (log : List Wire) (inHand : Option Nat) : GrabPc H → Prop
  | .running _ _ | .respond _ => unanswered log = .none
  | .answer => inHand = none ∧ unanswered log = ⟨1, false⟩
  | .asleep => inHand = none ∧ unanswered log = ⟨0, true⟩
  | .done _ => inHand = none
  | _ => inHand = none ∧ unanswered log = .none

structure Inv (r : ReporterRun H) : Prop where
  orderly : Orderly r.log
  ended : ∀ job, ∀ e ∈ r.log, e.ends job = true → job < r.loop.reporters.length
  inHand : ∀ job, r.inHand = some job →
    job < r.loop.reporters.length ∧ ∀ e ∈ r.log, e.ends job = false
  stands : Stands r.log r.inHand r.loop.pc
  responds : r.loop.Responds

theorem inv_start (conn : Connection) : (start (H := H) conn).Inv where
  orderly before e after job h := by
    have hlength := congrArg List.length h
    simp [start] at hlength
  ended job e h := by cases h
  inHand job h := by cases h
  stands := ⟨rfl, rfl⟩
  responds response h := by cases h

variable {r r' : ReporterRun H} {l : GrabLoop H}

/-- The log after a step: as before, with a packet that is read, or with one that
is written and is no report. -/
inductive Logs (r : ReporterRun H) : List Wire → Prop
  | same : Logs r r.log
  | read (pkt : Packet) : Logs r (r.log ++ [.read pkt])
  | wrote {pkt : Packet} (h : isReport pkt.ptype = false) :
      Logs r (r.log ++ [.wrote r.inHand pkt])

theorem orderly_of_logs (hr : r.Inv) {log : List Wire} (h : Logs r log) : Orderly log := by
  cases h with
  | same => exact hr.orderly
  | read pkt => exact orderly_concat hr.orderly fun job h => by cases h
  | wrote h =>
    refine orderly_concat hr.orderly fun job hreports => ?_
    simp [Wire.reports, h] at hreports

theorem ended_of_logs (hr : r.Inv) {log : List Wire} (h : Logs r log) (job : Nat) :
    ∀ e ∈ log, e.ends job = true → job < r.loop.reporters.length := by
  intro e he hends
  cases h with
  | same => exact hr.ended job e he hends
  | read pkt =>
    rcases List.mem_append.mp he with he | he
    · exact hr.ended job e he hends
    · rw [List.mem_singleton.mp he] at hends
      cases hends
  | wrote h =>
    rcases List.mem_append.mp he with he | he
    · exact hr.ended job e he hends
    · rw [List.mem_singleton.mp he] at hends
      have hjob : r.inHand = some job := by
        simp only [Wire.ends, Bool.and_eq_true, decide_eq_true_eq] at hends
        exact hends.1
      exact (hr.inHand job hjob).1

/-- A step that leaves no job in hand. -/
theorem inv_idle {i : GrabInput H} (hr : r.Inv) (hlogs : Logs r (r.afterLoop i l).log)
    (hreporters : l.reporters = r.loop.reporters) (hnone : (r.afterLoop i l).inHand = none)
    (hstands : Stands (r.afterLoop i l).log none l.pc) (hresponds : l.Responds) :
    (r.afterLoop i l).Inv where
  orderly := orderly_of_logs hr hlogs
  ended job e he hends := by
    show job < l.reporters.length
    rw [hreporters]
    exact ended_of_logs hr hlogs job e he hends
  inHand job h := by
    rw [hnone] at h
    cases h
  stands := hnone ▸ hstands
  responds := hresponds

theorem log_afterLoop_same {i : GrabInput H} (hread : i.packet = none)
    (hwritten : l.conn.written = r.loop.conn.written) : (r.afterLoop i l).log = r.log := by
  rw [afterLoop, newWrites_same hwritten, newRead, hread]
  simp

theorem log_afterLoop_read {i : GrabInput H} {pkt : Packet} (hread : i.packet = some pkt)
    (hwritten : l.conn.written = r.loop.conn.written) :
    (r.afterLoop i l).log = r.log ++ [.read pkt] := by
  rw [afterLoop, newWrites_same hwritten, newRead, hread]
  simp

theorem log_afterLoop_wrote {i : GrabInput H} {pkt : Packet} (hread : i.packet = none)
    (hwritten : l.conn.written = r.loop.conn.written ++ [pkt]) :
    (r.afterLoop i l).log = r.log ++ [.wrote r.inHand pkt] := by
  rw [afterLoop, newWrites_concat hwritten, newRead, hread]
  simp

theorem inHand_afterLoop {i : GrabInput H} (hdispatch : ∀ pkt, r.loop.pc ≠ .dispatch pkt)
    (hrespond : ∀ response, r.loop.pc ≠ .respond response) :
    (r.afterLoop i l).inHand = r.inHand := by
  unfold afterLoop
  dsimp only
  split
  · exact absurd ‹_› (hdispatch _)
  · exact absurd ‹_› (hrespond _)
  · rfl

/-- A step that neither reads nor writes. -/
theorem inv_quiet {i : GrabInput H} (hr : r.Inv) (hread : i.packet = none)
    (hconn : l.conn = r.loop.conn) (hreporters : l.reporters = r.loop.reporters)
    (hnone : (r.afterLoop i l).inHand = none) (hstands : Stands r.log none l.pc)
    (hresponds : l.Responds) : (r.afterLoop i l).Inv := by
  have hlog : (r.afterLoop i l).log = r.log :=
    log_afterLoop_same hread (congrArg Connection.written hconn)
  refine inv_idle hr ?_ hreporters hnone (hlog ▸ hstands) hresponds
  rw [hlog]
  exact .same

/-- A packet is read, and answers what the loop waited for. -/
theorem inv_read {i : GrabInput H} {pkt : Packet} (hr : r.Inv) (hread : i.packet = some pkt)
    (hconn : l.conn = r.loop.conn) (hreporters : l.reporters = r.loop.reporters)
    (hnone : (r.afterLoop i l).inHand = none)
    (hstands : Stands (r.log ++ [.read pkt]) none l.pc) (hresponds : l.Responds) :
    (r.afterLoop i l).Inv := by
  have hlog : (r.afterLoop i l).log = r.log ++ [.read pkt] :=
    log_afterLoop_read hread (congrArg Connection.written hconn)
  refine inv_idle hr ?_ hreporters hnone (hlog ▸ hstands) hresponds
  rw [hlog]
  exact .read pkt

/-- A send of the loop that it has no job in hand for. -/
theorem inv_sendOr {i : GrabInput H} {pkt : Packet} {io : Io} {next : GrabPc H} (hr : r.Inv)
    (hpc : r.loop.pc = .flush ∨ r.loop.pc = .grab ∨ r.loop.pc = .preSleep)
    (hread : i.packet = none) (hreport : isReport pkt.ptype = false)
    (hnext : ∀ response, next ≠ .respond response)
    (hstands : Stands (r.log ++ [.wrote none pkt]) none next) :
    (r.afterLoop i (r.loop.sendOr pkt io next)).Inv := by
  have hnone : r.inHand = none := by
    have hstands := hr.stands
    rcases hpc with hpc | hpc | hpc <;> rw [hpc] at hstands <;> exact hstands.1
  have hafter : ∀ l, (r.afterLoop i l).inHand = none := by
    intro l
    rw [inHand_afterLoop, hnone]
    · rcases hpc with hpc | hpc | hpc <;> simp [hpc]
    · rcases hpc with hpc | hpc | hpc <;> simp [hpc]
  rcases r.loop.sendOr_cases pkt io next with ⟨-, hsend⟩ | ⟨b, hsend⟩ <;> rw [hsend]
  · have hlog := log_afterLoop_wrote (r := r) hread (l := { r.loop with
      pc := next
      conn := { r.loop.conn with
        tried := r.loop.conn.tried ++ [pkt], written := r.loop.conn.written ++ [pkt] } }) rfl
    refine inv_idle hr ?_ rfl (hafter _) ?_ (fun response h => absurd h (hnext response))
    · rw [hlog]
      exact .wrote hreport
    · rw [hlog, hnone]
      exact hstands
  · have hlog := log_afterLoop_same (r := r) hread (l := { r.loop with
      pc := .done .connectionLost
      conn := { r.loop.conn with tried := r.loop.conn.tried ++ [pkt], broken := b } }) rfl
    refine inv_idle hr ?_ rfl (hafter _) rfl (fun response h => by cases h)
    rw [hlog]
    exact .same

/-- The result of the job in hand is sent. -/
theorem inv_respond {response : Packet} {io : Io} (hr : r.Inv)
    (hpc : r.loop.pc = .respond response) :
    (r.afterLoop (H := H) (.sent io) (r.loop.sendAnd response io .head)).Inv := by
  have hterminal := hr.responds response hpc
  have hanswered : unanswered r.log = .none := by
    have hstands := hr.stands
    rw [hpc] at hstands
    exact hstands
  have hreport := isReport_of_isTerminal hterminal
  have hneutral := neutral_of_isTerminal hterminal
  have hafter : ∀ l : GrabLoop H, l.pc = .head →
      (r.afterLoop (H := H) (.sent io) l).inHand = none := by
    intro l hl
    simp [afterLoop, hpc, hl]
  rcases r.loop.sendAnd_cases response io .head with ⟨-, -, hsend⟩ | ⟨b, hsend, -⟩ <;> rw [hsend]
  · have hlog := log_afterLoop_wrote (r := r) (i := (.sent io : GrabInput H)) rfl
      (l := { r.loop with
        pc := .head
        conn := { r.loop.conn with
          tried := r.loop.conn.tried ++ [response]
          written := r.loop.conn.written ++ [response] } }) rfl
    refine inv_idle hr ?_ rfl (hafter _ rfl) ?_ (fun response h => by cases h)
    · rw [hlog]
      exact .wrote hreport
    · rw [hlog]
      exact ⟨rfl, by rw [unanswered_concat, hanswered, Unanswered.after_neutral _ _ hneutral]⟩
  · have hlog := log_afterLoop_same (r := r) (i := (.sent io : GrabInput H)) rfl
      (l := { r.loop with
        pc := .head
        conn := { r.loop.conn with tried := r.loop.conn.tried ++ [response], broken := b } }) rfl
    refine inv_idle hr ?_ rfl (hafter _ rfl) ?_ (fun response h => by cases h)
    · rw [hlog]
      exact .same
    · rw [hlog]
      exact ⟨rfl, hanswered⟩

/-- `dispatch_job` makes a `Reporter` and calls the handler. -/
theorem inv_registered {pkt : Packet} {registry : Registry H} {handler : H} (hr : r.Inv)
    (hpc : r.loop.pc = .dispatch pkt) :
    (r.afterLoop (.registry registry) { r.loop with
      pc := .running handler (assignedJob pkt)
      reporters := r.loop.reporters ++ [(assignedJob pkt).handle] }).Inv := by
  have hstands := hr.stands
  rw [hpc] at hstands
  have hlog := log_afterLoop_same (r := r) (i := .registry registry) rfl (l := { r.loop with
    pc := .running handler (assignedJob pkt)
    reporters := r.loop.reporters ++ [(assignedJob pkt).handle] }) rfl
  have hlength : (r.loop.reporters ++ [(assignedJob pkt).handle]).length =
    r.loop.reporters.length + 1 := List.length_append
  refine ⟨?_, fun job e he hends => ?_, fun job hjob => ?_, ?_, (fun response h => by cases h)⟩
  · rw [hlog]
    exact hr.orderly
  · rw [hlog] at he
    have hlt := hr.ended job e he hends
    show job < (r.loop.reporters ++ [(assignedJob pkt).handle]).length
    omega
  · have hnew : job = r.loop.reporters.length := by
      simp only [afterLoop, hpc, Option.some.injEq] at hjob
      exact hjob.symm
    show job < (r.loop.reporters ++ [(assignedJob pkt).handle]).length ∧ _
    refine ⟨by omega, fun e he => ?_⟩
    rw [hlog] at he
    cases hends : e.ends job
    · rfl
    · have hlt := hr.ended job e he hends
      omega
  · rw [hlog]
    exact hstands.2

/-- The handler returns. -/
theorem inv_returned {handler : H} {job : WorkerJob} {outcome : Except WorkError Bytes}
    (hr : r.Inv) (hpc : r.loop.pc = .running handler job) :
    (r.afterLoop (H := H) (.returned outcome)
      { r.loop with pc := .respond (jobResponse job.handle outcome) }).Inv := by
  have hstands := hr.stands
  rw [hpc] at hstands
  have hlog := log_afterLoop_same (r := r) (i := (.returned outcome : GrabInput H)) rfl
    (l := { r.loop with pc := .respond (jobResponse job.handle outcome) }) rfl
  have hinHand := inHand_afterLoop (r := r) (i := (.returned outcome : GrabInput H))
    (l := { r.loop with pc := .respond (jobResponse job.handle outcome) })
    (by simp [hpc]) (by simp [hpc])
  refine ⟨?_, ?_, ?_, ?_, fun response h => ?_⟩
  · rw [hlog]
    exact hr.orderly
  · rw [hlog]
    exact hr.ended
  · rw [hlog, hinHand]
    exact hr.inHand
  · rw [hlog]
    exact hstands
  · cases h
    exact GrabLoop.isTerminal_jobResponse job.handle outcome

theorem inv_loop {i : GrabInput H} (hr : r.Inv)
    (hi : ∀ handle report io, i ≠ .report handle report io) (hreads : r.ReadsAnswer (.loop i))
    (h : r.loop.step mode i = some l) : (r.afterLoop i l).Inv := by
  have hstands := hr.stands
  have hresponds := GrabLoop.responds_step hr.responds h
  cases GrabLoop.steps_of_step h with
  | report _ => exact absurd rfl (hi _ _ _)
  | @shutdown set hpc =>
    rw [hpc] at hstands
    refine inv_quiet hr rfl rfl rfl ?_ ?_ hresponds
    · rw [inHand_afterLoop (by simp [hpc]) (by simp [hpc]), hstands.1]
    · cases set
      · exact ⟨rfl, hstands.2⟩
      · rfl
  | withdraw hpc =>
    rw [hpc] at hstands
    refine inv_sendOr hr (.inl hpc) rfl rfl (by simp) ⟨rfl, ?_⟩
    rw [unanswered_concat, hstands.2]
    exact Unanswered.after_neutral _ _ ⟨rfl, by simp [Packet.request]⟩
  | lagged hpc | flushed hpc =>
    rw [hpc] at hstands
    refine inv_quiet hr rfl rfl rfl ?_ ?_ hresponds
    · rw [inHand_afterLoop (by simp [hpc]) (by simp [hpc]), hstands.1]
    · first
        | exact hpc ▸ ⟨rfl, hstands.2⟩
        | exact ⟨rfl, hstands.2⟩
  | grab hpc =>
    rw [hpc] at hstands
    have hlog : unanswered (r.log ++ [.wrote none (.request mode.grabType [])]) = ⟨1, false⟩ := by
      rw [unanswered_concat, hstands.2]
      cases mode <;> rfl
    refine inv_sendOr hr (.inr (.inl hpc)) rfl ?_ (by simp) ⟨rfl, hlog⟩
    cases mode <;> rfl
  | @answer pkt hpc =>
    rw [hpc] at hstands
    have hlog : unanswered (r.log ++ [.read pkt]) = .none := by
      rw [unanswered_concat, hstands.2, Unanswered.after, if_pos (hreads.1 hpc)]
      rfl
    refine inv_read hr rfl rfl rfl ?_ ?_ hresponds
    · rw [inHand_afterLoop (by simp [hpc]) (by simp [hpc])]
      exact hstands.1
    · show Stands _ none (GrabLoop.onAnswer (H := H) pkt)
      rcases GrabLoop.onAnswer_cases (H := H) pkt with h | h | h <;> rw [h] <;> exact ⟨rfl, hlog⟩
  | @lost pkt hpc hlost =>
    have hread : (GrabInput.recv pkt : GrabInput H).packet = none := by
      rcases pkt with e | _ | p
      · rfl
      · rfl
      · exact absurd rfl (hlost p)
    have hnone : r.inHand = none := by
      rcases hpc with hpc | hpc <;> rw [hpc] at hstands <;> exact hstands.1
    refine inv_quiet hr hread rfl rfl ?_ rfl hresponds
    rcases hpc with hpc | hpc <;>
      rw [inHand_afterLoop (by simp [hpc]) (by simp [hpc]), hnone]
  | unregistered hpc _ =>
    rw [hpc] at hstands
    refine inv_quiet hr rfl rfl rfl ?_ hstands.2 hresponds
    simp [afterLoop, hpc, hstands.1]
  | registered hpc _ => exact inv_registered hr hpc
  | returned hpc => exact inv_returned hr hpc
  | respond hpc => exact inv_respond hr hpc
  | preSleep hpc =>
    rw [hpc] at hstands
    have hlog : unanswered (r.log ++ [.wrote none (.request .preSleep [])]) = ⟨0, true⟩ := by
      rw [unanswered_concat, hstands.2]
      rfl
    exact inv_sendOr hr (.inr (.inr hpc)) rfl rfl (by simp) ⟨rfl, hlog⟩
  | @wake pkt hpc =>
    rw [hpc] at hstands
    have hlog : unanswered (r.log ++ [.read pkt]) = .none := by
      rw [unanswered_concat, hstands.2, Unanswered.after, hreads.2 hpc]
      rfl
    refine inv_read hr rfl rfl rfl ?_ ⟨rfl, hlog⟩ hresponds
    rw [inHand_afterLoop (by simp [hpc]) (by simp [hpc])]
    exact hstands.1
  | changed hpc =>
    rw [hpc] at hstands
    refine inv_quiet hr rfl rfl rfl ?_ rfl hresponds
    rw [inHand_afterLoop (by simp [hpc]) (by simp [hpc])]
    exact hstands.1

theorem isReport_packet (handle : String) (report : Report) :
    isReport (report.packet handle).ptype = true := by
  cases report <;> rfl

/-- A `Reporter` is used and writes nothing. -/
theorem inv_unreported {job : Nat} (hr : r.Inv) (hpc : l.pc = r.loop.pc)
    (hreporters : l.reporters = r.loop.reporters)
    (hwritten : l.conn.written = r.loop.conn.written) : (r.afterReport job l).Inv := by
  have hlog : (r.afterReport job l).log = r.log := by
    rw [afterReport, newWrites_same hwritten, List.append_nil]
  refine ⟨hlog ▸ hr.orderly, ?_, ?_, ?_, ?_⟩
  · show ∀ job', ∀ e ∈ (r.afterReport job l).log, _ → job' < l.reporters.length
    rw [hlog, hreporters]
    exact hr.ended
  · show ∀ job', r.inHand = some job' → job' < l.reporters.length ∧
      ∀ e ∈ (r.afterReport job l).log, _
    rw [hlog, hreporters]
    exact hr.inHand
  · show Stands (r.afterReport job l).log r.inHand l.pc
    rw [hlog, hpc]
    exact hr.stands
  · show ∀ response, l.pc = .respond response → _
    rw [hpc]
    exact hr.responds

/-- With a job in hand the loop runs its handler or sends its result. -/
theorem pc_of_inHand {job : Nat} (hr : r.Inv) (hinHand : r.inHand = some job) :
    (∃ handler j, r.loop.pc = .running handler j) ∨ ∃ response, r.loop.pc = .respond response := by
  have hstands := hr.stands
  rw [hinHand] at hstands
  cases hpc : r.loop.pc with
  | running handler j => exact .inl ⟨handler, j, rfl⟩
  | respond response => exact .inr ⟨response, rfl⟩
  | done _ =>
    rw [hpc] at hstands
    cases hstands
  | head | flush | grab | answer | dispatch _ | preSleep | asleep =>
    rw [hpc] at hstands
    cases hstands.1

theorem stands_iff_of_inHand {job : Nat} (hr : r.Inv) (hinHand : r.inHand = some job)
    (log : List Wire) : Stands log r.inHand r.loop.pc ↔ unanswered log = .none := by
  rcases pc_of_inHand hr hinHand with ⟨handler, j, hpc⟩ | ⟨response, hpc⟩ <;> rw [hpc] <;> rfl

/-- A `Reporter` is used in time. -/
theorem inv_reported {job : Nat} {pkt : Packet} (hr : r.Inv) (hreport : isReport pkt.ptype = true)
    (hinHand : r.inHand = some job) (hpc : l.pc = r.loop.pc)
    (hreporters : l.reporters = r.loop.reporters)
    (hwritten : l.conn.written = r.loop.conn.written ++ [pkt]) : (r.afterReport job l).Inv := by
  have hterminal := isTerminal_of_isReport hreport
  have hneutral := neutral_of_isReport hreport
  have hanswered := (stands_iff_of_inHand hr hinHand r.log).mp hr.stands
  have hlog : (r.afterReport job l).log = r.log ++ [.wrote (some job) pkt] := by
    rw [afterReport, newWrites_concat hwritten]
  have hunended : ∀ job', ∀ e ∈ r.log ++ [.wrote (some job) pkt], e.ends job' = true →
      e ∈ r.log := by
    intro job' e he hends
    rcases List.mem_append.mp he with he | he
    · exact he
    · rw [List.mem_singleton.mp he] at hends
      simp [Wire.ends, hterminal] at hends
  refine ⟨?_, ?_, ?_, ?_, ?_⟩
  · rw [hlog]
    refine orderly_concat hr.orderly fun job' hreports => ?_
    obtain rfl : job = job' := by
      simp only [Wire.reports, Bool.and_eq_true, decide_eq_true_eq, Option.some.injEq] at hreports
      exact hreports.1
    exact ⟨(hr.inHand job hinHand).2, hanswered⟩
  · show ∀ job', ∀ e ∈ (r.afterReport job l).log, _ → job' < l.reporters.length
    rw [hlog, hreporters]
    exact fun job' e he hends => hr.ended job' e (hunended job' e he hends) hends
  · show ∀ job', r.inHand = some job' → job' < l.reporters.length ∧
      ∀ e ∈ (r.afterReport job l).log, _
    rw [hlog, hreporters]
    intro job' hjob'
    obtain ⟨hlt, hnone⟩ := hr.inHand job' hjob'
    refine ⟨hlt, fun e he => ?_⟩
    cases hends : e.ends job'
    · rfl
    · rw [hnone e (hunended job' e he hends)] at hends
      cases hends
  · show Stands (r.afterReport job l).log r.inHand l.pc
    rw [hlog, hpc]
    apply (stands_iff_of_inHand hr hinHand _).mpr
    rw [unanswered_concat, hanswered, Unanswered.after_neutral _ _ hneutral]
  · show ∀ response, l.pc = .respond response → _
    rw [hpc]
    exact hr.responds

theorem inv_report {job : Nat} {handle : String} {report : Report} {io : Io} (hr : r.Inv)
    (hhandle : r.loop.reporters[job]? = some handle)
    (hc : r.Timely (H := H) (.report job report io)) :
    (r.afterReport job (r.loop.sendAnd (report.packet handle) io r.loop.pc)).Inv := by
  rcases r.loop.conn.send_cases (report.packet handle) io with
    ⟨hacc, hintact, hio, hsend⟩ | ⟨e, b, hsend, -⟩
  · refine inv_reported hr (isReport_packet handle report) (hc handle hhandle hacc hintact hio)
      rfl rfl ?_
    rw [GrabLoop.sendAnd, hsend]
  · refine inv_unreported hr rfl rfl ?_
    rw [GrabLoop.sendAnd, hsend]

theorem inv_step {act : ReporterInput H} (hr : r.Inv) (hc : r.Timely act)
    (hreads : r.ReadsAnswer act) (h : r.step mode act = some r') : r'.Inv := by
  cases act with
  | lock =>
    obtain ⟨-, h⟩ := Option.ite_none_right_eq_some.mp h
    cases h
    exact ⟨hr.orderly, hr.ended, hr.inHand, hr.stands, hr.responds⟩
  | loop i =>
    cases i with
    | report handle report io => cases h
    | recv pkt =>
      obtain ⟨-, h⟩ := Option.ite_none_right_eq_some.mp h
      obtain ⟨l, hl, rfl⟩ := Option.map_eq_some_iff.mp h
      exact inv_loop hr (by simp) hreads hl
    | _ =>
      obtain ⟨l, hl, rfl⟩ := Option.map_eq_some_iff.mp h
      exact inv_loop hr (by simp) hreads hl
  | report job report io =>
    obtain ⟨-, h⟩ := Option.ite_none_left_eq_some.mp h
    obtain ⟨handle, hhandle, h⟩ := Option.bind_eq_some_iff.mp h
    obtain ⟨l, hl, rfl⟩ := Option.map_eq_some_iff.mp h
    cases GrabLoop.steps_of_step hl with
    | report _ => exact inv_report hr hhandle hc

/-- **Nothing is reported behind a result.** In every run in which a `Reporter`
gets a packet onto the connection only while its job is in hand, and the loop
takes nothing for an answer that is none, no report is written behind the result
of its job, and none while a `GRAB_JOB*` or a `PRE_SLEEP` is unanswered. -/
theorem reports_before_result (mode : GrabMode) (conn : Connection)
    {acts : List (ReporterInput H)} {r : ReporterRun H}
    (hmeets : Machine.Meets (step mode) (fun r act => Timely r act ∧ ReadsAnswer r act)
      (start conn) acts)
    (h : Machine.run (step mode) (start conn) acts = some r) : Orderly r.log :=
  (Machine.invariant_of_meets (fun _ _ _ hr hc hs => inv_step hr hc.1 hc.2 hs) (inv_start conn)
    hmeets h).orderly

/-- A job is assigned. -/
def assigned : List (ReporterInput Unit) :=
  [.loop (.shutdown false), .loop (.unregistered .none .accepted), .loop (.sent .accepted), .lock,
    .loop (.recv (.ok (some GrabLoop.assignment))),
    .loop (.registry (Registry.empty.register "echo" ()))]

/-- The handler returns, its result is sent, and the loop grabs the next job. -/
def nextGrab : List (ReporterInput Unit) :=
  [.loop (.returned (.ok [1])), .loop (.sent .accepted), .loop (.shutdown false),
    .loop (.unregistered .none .accepted), .loop (.sent .accepted)]

def reportData : ReporterInput Unit := .report 0 (.data [2]) .accepted

/-- The handler reports and returns. -/
theorem reports_before_result_handlerReports :
    ∃ r, Machine.run (step .uniq) (start .fromStream) (assigned ++ reportData :: nextGrab) =
        some r ∧
      r.log.any (Wire.reports 0) ∧ r.log.any (Wire.ends 0) ∧ Orderly r.log := by
  have hrun : Machine.run (step .uniq) (start .fromStream) (assigned ++ reportData :: nextGrab) =
    some _ := rfl
  refine ⟨_, hrun, by decide +kernel, by decide +kernel, reports_before_result .uniq _ ?_ hrun⟩
  have hrest : ∀ r : ReporterRun Unit, Machine.Meets (step .uniq)
      (fun r act => Timely r act ∧ ReadsAnswer r act) r nextGrab := by
    apply Machine.meets_of_forall
    simp [nextGrab, Timely, ReadsAnswer]
  refine .cons ⟨trivial, trivial⟩ rfl ?_
  refine .cons ⟨trivial, trivial⟩ rfl ?_
  refine .cons ⟨trivial, trivial⟩ rfl ?_
  refine .cons ⟨trivial, trivial⟩ rfl ?_
  -- the assignment is read as the answer to the grab
  have hawake : (GrabPc.answer : GrabPc Unit) = .asleep → GrabLoop.assignment.ptype = .noop :=
    fun h => by cases h
  refine .cons ⟨trivial, fun _ => rfl, hawake⟩ rfl ?_
  refine .cons ⟨trivial, trivial⟩ rfl ?_
  exact .cons ⟨fun _ _ _ _ _ => rfl, trivial⟩ rfl (hrest _)

/-- A `Reporter` that outlives its handler is used before the loop waits for its answer. -/
theorem report_behind_result :
    ¬∀ (mode : GrabMode) (conn : Connection) (acts : List (ReporterInput Unit))
      (r : ReporterRun Unit),
      Machine.run (step mode) (start conn) acts = some r → Orderly r.log := by
  intro h
  have hrun : Machine.run (step .uniq) (start .fromStream) (assigned ++ nextGrab ++ [reportData]) =
    some _ := rfl
  have horderly := h .uniq _ _ _ hrun
    [.wrote none (.request .grabJobUniq []), .read GrabLoop.assignment,
      .wrote (some 0) (.request .workComplete [asBytes "H", [1]]),
      .wrote none (.request .grabJobUniq [])]
    (.wrote (some 0) (.request .workData [asBytes "H", [2]])) [] 0 rfl rfl
  cases horderly.2

end ReporterRun

end Gearman.Worker

import Gearman.Client.Incoming
import Gearman.Worker.GrabLoop
import Gearman.Lib.Machine

/-!
# Steps of the grab loop

What one step can do, case by case, and what a send leaves behind.
-/

namespace Gearman.Worker.GrabLoop

open Protocol

variable {H : Type} {mode : GrabMode} {l l' : GrabLoop H} {i : GrabInput H}

/-- All that a step can do. -/
inductive Steps (mode : GrabMode) (l : GrabLoop H) : GrabInput H → GrabLoop H → Prop
  | report {handle : String} {report : Report} {io : Io} (h : handle ∈ l.reporters) :
      Steps mode l (.report handle report io) (l.sendAnd (report.packet handle) io l.pc)
  | shutdown {set : Bool} (hpc : l.pc = .head) :
      Steps mode l (.shutdown set) { l with pc := if set then .done .shuttingDown else .flush }
  | withdraw {function : String} {io : Io} (hpc : l.pc = .flush) :
      Steps mode l (.unregistered (.ok function) io)
        (l.sendOr (.request .cantDo [asBytes function]) io .flush)
  | lagged {io : Io} (hpc : l.pc = .flush) : Steps mode l (.unregistered .lagged io) l
  | flushed {io : Io} (hpc : l.pc = .flush) :
      Steps mode l (.unregistered .none io) { l with pc := .grab }
  | grab {io : Io} (hpc : l.pc = .grab) :
      Steps mode l (.sent io) (l.sendOr (.request mode.grabType []) io .answer)
  | answer {pkt : Packet} (hpc : l.pc = .answer) :
      Steps mode l (.recv (.ok (some pkt))) { l with pc := onAnswer pkt }
  | lost {pkt : Received} (hpc : l.pc = .answer ∨ l.pc = .asleep) (h : ∀ p, pkt ≠ .ok (some p)) :
      Steps mode l (.recv pkt) { l with pc := .done .connectionLost }
  | unregistered {pkt : Packet} {registry : Registry H} (hpc : l.pc = .dispatch pkt)
      (h : registry.get (assignedJob pkt).function = none) :
      Steps mode l (.registry registry)
        { l with pc := .respond (unregisteredResponse (assignedJob pkt).handle) }
  | registered {pkt : Packet} {registry : Registry H} {reg : RegisteredHandler H}
      (hpc : l.pc = .dispatch pkt) (h : registry.get (assignedJob pkt).function = some reg) :
      Steps mode l (.registry registry)
        { l with
          pc := .running reg.handler (assignedJob pkt)
          reporters := l.reporters ++ [(assignedJob pkt).handle] }
  | returned {handler : H} {job : WorkerJob} {outcome : Except WorkError Bytes}
      (hpc : l.pc = .running handler job) :
      Steps mode l (.returned outcome) { l with pc := .respond (jobResponse job.handle outcome) }
  | respond {response : Packet} {io : Io} (hpc : l.pc = .respond response) :
      Steps mode l (.sent io) (l.sendAnd response io .head)
  | preSleep {io : Io} (hpc : l.pc = .preSleep) :
      Steps mode l (.sent io) (l.sendOr (.request .preSleep []) io .asleep)
  | wake {pkt : Packet} (hpc : l.pc = .asleep) :
      Steps mode l (.recv (.ok (some pkt))) { l with pc := .head }
  | changed (hpc : l.pc = .asleep) : Steps mode l .changed { l with pc := .done .shuttingDown }

theorem steps_of_step (h : l.step mode i = some l') : Steps mode l i l' := by
  unfold step at h
  split at h
  · obtain ⟨hmem, h⟩ := Option.ite_none_right_eq_some.mp h
    cases h
    exact .report hmem
  · cases h
    exact .shutdown ‹_›
  · cases h
    exact .withdraw ‹_›
  · cases h
    exact .lagged ‹_›
  · cases h
    exact .flushed ‹_›
  · cases h
    exact .grab ‹_›
  · cases h
    exact .answer ‹_›
  · cases h
    exact .lost (.inl ‹_›) (fun p hp => by cases hp)
  · cases h
    exact .lost (.inl ‹_›) (fun p hp => by cases hp)
  · dsimp only at h
    split at h <;> cases h
    · exact .unregistered ‹_› (Option.map_eq_none_iff.mp ‹_›)
    · obtain ⟨reg, hget, rfl⟩ := Option.map_eq_some_iff.mp ‹_›
      exact .registered ‹_› hget
  · cases h
    exact .returned ‹_›
  · cases h
    exact .respond ‹_›
  · cases h
    exact .preSleep ‹_›
  · cases h
    exact .wake ‹_›
  · cases h
    exact .lost (.inr ‹_›) (fun p hp => by cases hp)
  · cases h
    exact .lost (.inr ‹_›) (fun p hp => by cases hp)
  · cases h
    exact .changed ‹_›
  · cases h

/-! ## Sends -/

theorem accepts_grab (mode : GrabMode) : GearmanCodec.new.Accepts (.request mode.grabType []) := by
  cases mode <;> exact ⟨rfl, Nat.zero_le _⟩

/-- `sendAnd` goes on whatever comes of the send. -/
theorem sendAnd_cases (l : GrabLoop H) (pkt : Packet) (io : Io) (next : GrabPc H) :
    (GearmanCodec.new.Accepts pkt ∧ l.conn.broken = false ∧
      l.sendAnd pkt io next =
        { l with
          pc := next
          conn := { l.conn with
            tried := l.conn.tried ++ [pkt], written := l.conn.written ++ [pkt] } }) ∨
    ∃ b, l.sendAnd pkt io next =
        { l with
          pc := next, conn := { l.conn with tried := l.conn.tried ++ [pkt], broken := b } } ∧
      (l.conn.broken = true → b = true) ∧ (GearmanCodec.new.Accepts pkt → b = true) := by
  rcases l.conn.send_cases pkt io with ⟨hacc, hintact, -, h⟩ | ⟨e, b, h, hb⟩
  · exact .inl ⟨hacc, hintact, by rw [sendAnd, h]⟩
  · exact .inr ⟨b, by rw [sendAnd, h], hb⟩

/-- `sendOr` goes on only with the packet written. -/
theorem sendOr_cases (l : GrabLoop H) (pkt : Packet) (io : Io) (next : GrabPc H) :
    (l.conn.broken = false ∧
      l.sendOr pkt io next =
        { l with
          pc := next
          conn := { l.conn with
            tried := l.conn.tried ++ [pkt], written := l.conn.written ++ [pkt] } }) ∨
    ∃ b, l.sendOr pkt io next =
      { l with
        pc := .done .connectionLost
        conn := { l.conn with tried := l.conn.tried ++ [pkt], broken := b } } := by
  rcases l.conn.send_cases pkt io with ⟨-, hintact, -, h⟩ | ⟨e, b, h, -⟩
  · exact .inl ⟨hintact, by rw [sendOr, h]⟩
  · exact .inr ⟨b, by rw [sendOr, h]⟩

/-- The packet a step hands to the connection. -/
def sends (mode : GrabMode) (pc : GrabPc H) (i : GrabInput H) : List Packet :=
  match pc, i with
  | _, .report handle report _ => [report.packet handle]
  | .flush, .unregistered (.ok function) _ => [.request .cantDo [asBytes function]]
  | .grab, .sent _ => [.request mode.grabType []]
  | .respond response, .sent _ => [response]
  | .preSleep, .sent _ => [.request .preSleep []]
  | _, _ => []

@[simp] theorem conn_sendOr (l : GrabLoop H) (pkt : Packet) (io : Io) (next : GrabPc H) :
    (l.sendOr pkt io next).conn = (l.conn.send pkt io).2 := by
  unfold sendOr
  split <;> simp [*]

/-- What a step hands to the connection is what the connection is asked to send. -/
theorem tried_of_step (h : l.step mode i = some l') :
    l'.conn.tried = l.conn.tried ++ sends mode l.pc i := by
  cases steps_of_step h with
  | report _ => simp [sends, sendAnd]
  | withdraw hpc | grab hpc | preSleep hpc => simp [sends, hpc]
  | respond hpc => simp [sends, hpc, sendAnd]
  | shutdown _ | lagged _ | flushed _ | unregistered _ _ | registered _ _ | returned _
  | changed _ | answer _ | lost _ _ | wake _ => simp [sends]

/-! ## Control flow -/

/-- Where a step leads, whatever becomes of the packets it sends. -/
inductive Moves : GrabInput H → GrabPc H → GrabPc H → Prop
  | stay {i : GrabInput H} {pc : GrabPc H} : Moves i pc pc
  | shutdown {set : Bool} :
      Moves (.shutdown set) .head (if set then .done .shuttingDown else .flush)
  | flushed {i : GrabInput H} : Moves i .flush .grab
  | grabbed {i : GrabInput H} : Moves i .grab .answer
  | answered {i : GrabInput H} {pkt : Packet} : Moves i .answer (onAnswer pkt)
  | unregistered {i : GrabInput H} {pkt : Packet} :
      Moves i (.dispatch pkt) (.respond (unregisteredResponse (assignedJob pkt).handle))
  | registered {i : GrabInput H} {pkt : Packet} {handler : H} :
      Moves i (.dispatch pkt) (.running handler (assignedJob pkt))
  | returned {i : GrabInput H} {handler : H} {job : WorkerJob}
      {outcome : Except WorkError Bytes} :
      Moves i (.running handler job) (.respond (jobResponse job.handle outcome))
  | responded {i : GrabInput H} {response : Packet} : Moves i (.respond response) .head
  | slept {i : GrabInput H} : Moves i .preSleep .asleep
  | woken {i : GrabInput H} : Moves i .asleep .head
  | changed : Moves .changed .asleep (.done .shuttingDown)
  | lost {i : GrabInput H} {pc : GrabPc H}
      (h : pc = .flush ∨ pc = .grab ∨ pc = .answer ∨ pc = .preSleep ∨ pc = .asleep) :
      Moves i pc (.done .connectionLost)

theorem moves_sendOr {pkt : Packet} {io : Io} {next : GrabPc H} (hnext : Moves i l.pc next)
    (hpc : l.pc = .flush ∨ l.pc = .grab ∨ l.pc = .preSleep) :
    Moves i l.pc (l.sendOr pkt io next).pc := by
  rcases l.sendOr_cases pkt io next with ⟨-, hsend⟩ | ⟨b, hsend⟩ <;> rw [hsend]
  · exact hnext
  · refine .lost ?_
    rcases hpc with hpc | hpc | hpc <;> simp [hpc]

theorem moves_of_step (h : l.step mode i = some l') : Moves i l.pc l'.pc := by
  cases steps_of_step h with
  | report _ | lagged _ => exact .stay
  | shutdown hpc => rw [hpc]; exact .shutdown
  | withdraw hpc => exact moves_sendOr (hpc ▸ .stay) (.inl hpc)
  | flushed hpc => rw [hpc]; exact .flushed
  | grab hpc => exact moves_sendOr (hpc ▸ .grabbed) (.inr (.inl hpc))
  | answer hpc => rw [hpc]; exact .answered
  | lost hpc _ =>
    refine .lost ?_
    rcases hpc with hpc | hpc <;> simp [hpc]
  | unregistered hpc _ => rw [hpc]; exact .unregistered
  | registered hpc _ => rw [hpc]; exact .registered
  | returned hpc => rw [hpc]; exact .returned
  | respond hpc => rw [hpc]; exact .responded
  | preSleep hpc => exact moves_sendOr (hpc ▸ .slept) (.inr (.inr hpc))
  | wake hpc => rw [hpc]; exact .woken
  | changed hpc => rw [hpc]; exact .changed

/-- Once it has returned the loop only has `Reporter`s to serve. -/
theorem moves_done {outcome : LoopOutcome} {pc : GrabPc H} (h : Moves i (.done outcome) pc) :
    pc = .done outcome := by
  cases h with
  | stay => rfl
  | lost h => simp at h

theorem onAnswer_cases (pkt : Packet) :
    (onAnswer pkt : GrabPc H) = .dispatch pkt ∨ (onAnswer pkt : GrabPc H) = .preSleep ∨
      (onAnswer pkt : GrabPc H) = .head := by
  unfold onAnswer
  split
  · exact .inl rfl
  · split
    · exact .inr (.inl rfl)
    · exact .inr (.inr rfl)

/-- The result of a handler ends its job. -/
theorem isTerminal_jobResponse (handle : String) (outcome : Except WorkError Bytes) :
    Client.isTerminal (jobResponse handle outcome).ptype = true := by
  rcases outcome with (_ | _) | _ <;> rfl

/-- A report does not. -/
theorem isTerminal_report (handle : String) (report : Report) :
    Client.isTerminal (report.packet handle).ptype = false := by
  cases report <;> rfl

/-- What the loop is about to answer is the end of a job. -/
def Responds (l : GrabLoop H) : Prop := ∀ response, l.pc = .respond response →
  Client.isTerminal response.ptype = true

/-- Only `dispatch_job` leads to a response. -/
theorem responds_of_moves {pc pc' : GrabPc H} {response : Packet} (h : Moves i pc pc')
    (hpc' : pc' = .respond response) :
    pc = .respond response ∨ Client.isTerminal response.ptype = true := by
  cases h with
  | stay => exact .inl hpc'
  | @shutdown set => cases set <;> cases hpc'
  | @answered _ pkt =>
    rcases onAnswer_cases (H := H) pkt with h | h | h <;> rw [h] at hpc' <;> cases hpc'
  | @returned _ _ job outcome =>
    cases hpc'
    exact .inr (isTerminal_jobResponse job.handle outcome)
  | unregistered =>
    cases hpc'
    exact .inr rfl
  | _ => cases hpc'

theorem responds_step (hl : Responds l) (h : l.step mode i = some l') : Responds l' := by
  intro response hpc
  rcases responds_of_moves (moves_of_step h) hpc with hpc | hterminal
  · exact hl response hpc
  · exact hterminal

/-- An assignment for the concrete runs. -/
def assignment : Packet :=
  .response .jobAssignUniq [asBytes "H", asBytes "echo", asBytes "u", asBytes "x"]

end Gearman.Worker.GrabLoop

import Gearman.Client.Incoming
import Gearman.Worker.Verify.OneGrab
import Gearman.Worker.Verify.WorkerConnection
import Mathlib.Data.List.Forall2

/-!
# Shutdown takes no new work and abandons none

The flag may be set between any two steps of the task. The task looks at it at
the head of both its loops, and waits for a change of it wherever it waits for
anything but a packet it asked for or a handler. So after the flag at most the
grab and the connection attempt already decided on are started, and a job in
hand is carried through.
-/

namespace Gearman.Worker

open Protocol
open Client (isTerminal)

/-! ## What the task did -/

/-- The jobs of one task, in order. -/
structure Journal (H : Type) where
  /-- Assignments read in answer to a `GRAB_JOB*`. -/
  assigned : List Packet
  /-- Handlers called, with their jobs. -/
  started : List (H × WorkerJob)
  /-- Handlers that returned. -/
  finished : List (H × WorkerJob)
  /-- Terminal packets handed to the connection. -/
  answered : List Packet

namespace Journal

variable {H : Type}

def empty : Journal H := ⟨[], [], [], []⟩

def newAssigned : Option (GrabPc H) → Option Packet → List Packet
  | some .answer, some pkt => if isAssign pkt.ptype then [pkt] else []
  | _, _ => []

def newStarted : Option (GrabPc H) → Option (GrabPc H) → List (H × WorkerJob)
  | some (.dispatch _), some (.running handler job) => [(handler, job)]
  | _, _ => []

def newFinished : Option (GrabPc H) → Option (GrabPc H) → List (H × WorkerJob)
  | some (.running handler job), some (.respond _) => [(handler, job)]
  | _, _ => []

/-- The journal after the grab loop goes from `pc` to `pc'`, with the packet it
reads and those it hands to the connection. -/
def after (j : Journal H) (pc pc' : Option (GrabPc H)) (read : Option Packet)
    (handed : List Packet) : Journal H where
  assigned := j.assigned ++ newAssigned pc read
  started := j.started ++ newStarted pc pc'
  finished := j.finished ++ newFinished pc pc'
  answered := j.answered ++ handed.filter fun pkt => isTerminal pkt.ptype

/-- A terminal packet of the job that was assigned: with its handle, if that is UTF-8. -/
def Answers (pkt response : Packet) : Prop :=
  isTerminal response.ptype = true ∧ ((pkt.argStr 0).isSome → response.arg 0 = pkt.arg 0)

theorem answers_of_handle {pkt response : Packet} (hterminal : isTerminal response.ptype = true)
    (hhandle : response.arg 0 = some (asBytes (assignedJob pkt).handle)) :
    Answers pkt response := by
  refine ⟨hterminal, fun hstr => ?_⟩
  obtain ⟨handle, hstr⟩ := Option.isSome_iff_exists.mp hstr
  have hjob : (assignedJob pkt).handle = handle := by
    change (pkt.argStr 0).getD "" = handle
    rw [hstr]
    rfl
  obtain ⟨bytes, harg, hutf8⟩ := Option.bind_eq_some_iff.mp hstr
  rw [hhandle, hjob, harg, fromUtf8_eq_some.mp hutf8]

theorem answers_jobResponse (pkt : Packet) (outcome : Except WorkError Bytes) :
    Answers pkt (jobResponse (assignedJob pkt).handle outcome) := by
  apply answers_of_handle (GrabLoop.isTerminal_jobResponse _ outcome)
  rcases outcome with ⟨_ | _⟩ | _ <;> rfl

theorem answers_unregisteredResponse (pkt : Packet) :
    Answers pkt (unregisteredResponse (assignedJob pkt).handle) := answers_of_handle rfl rfl

/-- Every assignment but the one in hand is answered, and every handler called
has returned but the one that runs. -/
def Balanced (j : Journal H) : Option (GrabPc H) → Prop
  | some (.dispatch pkt) =>
    ∃ done, j.assigned = done ++ [pkt] ∧ List.Forall₂ Answers done j.answered ∧
      j.finished = j.started
  | some (.running handler job) =>
    ∃ done pkt, j.assigned = done ++ [pkt] ∧ job = assignedJob pkt ∧
      List.Forall₂ Answers done j.answered ∧ j.started = j.finished ++ [(handler, job)]
  | some (.respond response) =>
    ∃ done pkt, j.assigned = done ++ [pkt] ∧ Answers pkt response ∧
      List.Forall₂ Answers done j.answered ∧ j.finished = j.started
  | _ => List.Forall₂ Answers j.assigned j.answered ∧ j.finished = j.started

/-- No job is in hand. -/
def Idle : Option (GrabPc H) → Prop
  | some (.dispatch _) | some (.running _ _) | some (.respond _) => False
  | _ => True

variable {j : Journal H}

theorem balanced_of_idle {pc : Option (GrabPc H)} (h : Idle pc) :
    j.Balanced pc =
      (List.Forall₂ Answers j.assigned j.answered ∧ j.finished = j.started) := by
  rcases pc with _ | pc
  · rfl
  · cases pc <;> first | exact h.elim | rfl

theorem newStarted_of_idle {pc : Option (GrabPc H)} (h : Idle pc) (pc' : Option (GrabPc H)) :
    newStarted pc pc' = [] := by
  unfold newStarted
  split
  · exact h.elim
  · rfl

theorem newFinished_of_idle {pc : Option (GrabPc H)} (h : Idle pc) (pc' : Option (GrabPc H)) :
    newFinished pc pc' = [] := by
  unfold newFinished
  split
  · exact h.elim
  · rfl

theorem newAssigned_of_ne {pc : Option (GrabPc H)} (h : pc ≠ some .answer)
    (read : Option Packet) : newAssigned pc read = [] := by
  unfold newAssigned
  split
  · exact absurd rfl h
  · rfl

@[simp] theorem newAssigned_none (pc : Option (GrabPc H)) : newAssigned pc none = [] := by
  unfold newAssigned
  split
  · cases ‹none = some _›
  · rfl

theorem after_quiet {pc pc' : Option (GrabPc H)} {read : Option Packet} {handed : List Packet}
    (ha : newAssigned pc read = []) (hs : newStarted pc pc' = []) (hf : newFinished pc pc' = [])
    (hquiet : ∀ pkt ∈ handed, isTerminal pkt.ptype = false) : j.after pc pc' read handed = j := by
  have hnone : handed.filter (fun pkt => isTerminal pkt.ptype) = [] :=
    List.filter_eq_nil_iff.mpr fun pkt hpkt => by rw [hquiet pkt hpkt]; exact Bool.false_ne_true
  simp only [after, ha, hs, hf, hnone, List.append_nil]

/-- Between two points with no job in hand nothing is entered. -/
theorem Balanced.idle {pc pc' : Option (GrabPc H)} {read : Option Packet} {handed : List Packet}
    (hj : j.Balanced pc) (hpc : Idle pc) (hpc' : Idle pc') (ha : newAssigned pc read = [])
    (hquiet : ∀ pkt ∈ handed, isTerminal pkt.ptype = false) :
    (j.after pc pc' read handed).Balanced pc' := by
  rw [after_quiet ha (newStarted_of_idle hpc pc') (newFinished_of_idle hpc pc') hquiet,
    balanced_of_idle hpc']
  rw [balanced_of_idle hpc] at hj
  exact hj

/-- While the loop stays where it is only reports pass. -/
theorem Balanced.stay {pc : Option (GrabPc H)} {handed : List Packet} (hj : j.Balanced pc)
    (hquiet : ∀ pkt ∈ handed, isTerminal pkt.ptype = false) :
    (j.after pc pc none handed).Balanced pc := by
  rw [after_quiet (newAssigned_none pc) ?_ ?_ hquiet]
  · exact hj
  all_goals
    rcases pc with _ | pc
    · rfl
    · cases pc <;> rfl

end Journal

/-- A packet that is sent with no job in hand. -/
theorem GrabLoop.not_isTerminal_sends {H : Type} {mode : GrabMode} {l : GrabLoop H}
    {i : GrabInput H} (hpc : ∀ response, l.pc ≠ .respond response) :
    ∀ pkt ∈ sends mode l.pc i, isTerminal pkt.ptype = false := by
  intro pkt hpkt
  unfold sends at hpkt
  split at hpkt
  · rw [List.mem_singleton.mp hpkt]
    exact isTerminal_report _ _
  · rw [List.mem_singleton.mp hpkt]
    rfl
  · rw [List.mem_singleton.mp hpkt]
    cases mode <;> rfl
  · exact absurd ‹_› (hpc _)
  · rw [List.mem_singleton.mp hpkt]
    rfl
  · cases hpkt

namespace Journal

variable {H : Type} {mode : GrabMode} {j : Journal H} {l l' : GrabLoop H} {i : GrabInput H}

theorem idle_sendOr {pkt : Packet} {io : Io} {next : GrabPc H} (h : Idle (some next)) :
    Idle (some (l.sendOr pkt io next).pc) := by
  rcases l.sendOr_cases pkt io next with ⟨-, hsend⟩ | ⟨b, hsend⟩ <;> rw [hsend]
  · exact h
  · trivial

/-- A step of the grab loop keeps the journal balanced. -/
theorem Balanced.grab (hj : j.Balanced (some l.pc)) (h : l.step mode i = some l') :
    (j.after (some l.pc) (some l'.pc) i.packet (GrabLoop.sends mode l.pc i)).Balanced
      (some l'.pc) := by
  -- with no job in hand before or after
  have idle : ∀ {pc : GrabPc H}, l.pc = pc → Idle (some pc) → Idle (some l'.pc) →
      newAssigned (some pc) i.packet = [] →
      (j.after (some l.pc) (some l'.pc) i.packet (GrabLoop.sends mode l.pc i)).Balanced
        (some l'.pc) := by
    intro pc hpc hidle hidle' hnew
    refine hj.idle (hpc ▸ hidle) hidle' (hpc ▸ hnew)
      (GrabLoop.not_isTerminal_sends fun response hrespond => ?_)
    rw [← hpc, hrespond] at hidle
    exact hidle
  cases GrabLoop.steps_of_step h with
  | @report handle report io _ =>
    refine hj.stay fun pkt hpkt => ?_
    rw [GrabLoop.sends, List.mem_singleton] at hpkt
    rw [hpkt]
    exact GrabLoop.isTerminal_report handle report
  | @shutdown set hpc => exact idle hpc trivial (by cases set <;> trivial) rfl
  | withdraw hpc | grab hpc | preSleep hpc => exact idle hpc trivial (idle_sendOr trivial) rfl
  | lagged hpc => exact idle hpc trivial (hpc ▸ trivial) rfl
  | flushed hpc | wake hpc | changed hpc => exact idle hpc trivial trivial rfl
  | @lost pkt hpc hnone =>
    have hread : (GrabInput.recv pkt : GrabInput H).packet = none := by
      rcases pkt with e | _ | p
      · rfl
      · rfl
      · exact absurd rfl (hnone p)
    rcases hpc with hpc | hpc <;> exact idle hpc trivial trivial (by rw [hread, newAssigned_none])
  | @answer pkt hpc =>
    by_cases hassign : isAssign pkt.ptype = true
    · have hanswer : (GrabLoop.onAnswer pkt : GrabPc H) = .dispatch pkt := if_pos hassign
      rw [hpc] at hj
      dsimp only
      rw [hpc, hanswer]
      refine ⟨j.assigned, ?_, ?_, ?_⟩
      · simp only [after, newAssigned, GrabInput.packet, hassign, if_true]
      · simpa [after, GrabLoop.sends] using hj.1
      · simpa [after, newStarted, newFinished] using hj.2
    · refine idle hpc trivial ?_ (if_neg hassign)
      dsimp only [GrabLoop.onAnswer]
      rw [if_neg hassign]
      split <;> trivial
  | @unregistered pkt registry hpc _ =>
    rw [hpc] at hj ⊢
    obtain ⟨done, hd, ha, hf⟩ := hj
    refine ⟨done, pkt, ?_, answers_unregisteredResponse pkt, ?_, ?_⟩
    · simpa [after, newAssigned] using hd
    · simpa [after, GrabLoop.sends] using ha
    · simpa [after, newStarted, newFinished] using hf
  | @registered pkt registry reg hpc _ =>
    rw [hpc] at hj ⊢
    obtain ⟨done, hd, ha, hf⟩ := hj
    refine ⟨done, pkt, ?_, rfl, ?_, ?_⟩
    · simpa [after, newAssigned] using hd
    · simpa [after, GrabLoop.sends] using ha
    · simp [after, newStarted, newFinished, hf]
  | @returned handler job outcome hpc =>
    rw [hpc] at hj ⊢
    obtain ⟨done, pkt, hd, rfl, ha, hs⟩ := hj
    refine ⟨done, pkt, ?_, answers_jobResponse pkt outcome, ?_, ?_⟩
    · simpa [after, newAssigned] using hd
    · simpa [after, GrabLoop.sends] using ha
    · simp [after, newStarted, newFinished, hs]
  | @respond response io hpc =>
    rw [hpc] at hj ⊢
    obtain ⟨done, pkt, hd, hanswers, ha, hf⟩ := hj
    refine ⟨?_, ?_⟩
    · have hnew : (GrabLoop.sends (H := H) mode (.respond response) (.sent io)).filter
          (fun pkt => isTerminal pkt.ptype) = [response] :=
        List.filter_singleton.trans (by rw [hanswers.1, cond_true])
      simp only [after, newAssigned, List.append_nil, hd, hnew]
      exact List.rel_append ha (.cons hanswers .nil)
    · simpa [after, newStarted, newFinished] using hf

end Journal

/-! ## Runs -/

/-- The packet the task reads. -/
def ConnectionInput.packet {H : Type} : ConnectionInput H → Option Packet
  | .recv (.ok pkt) => pkt
  | _ => none

/-- A task with what it did, and what it took up after the shutdown flag was set. -/
structure ShutdownRun (H : Type) where
  state : WorkerConnection H
  journal : Journal H
  /-- `GRAB_JOB*`s handed to the connection, whatever became of them. -/
  lateGrabs : Nat
  /-- Connection attempts started. -/
  lateDials : Nat

namespace ShutdownRun

variable {H : Type} {mode : GrabMode}

def start (registry : Registry H) : ShutdownRun H := ⟨.start registry, .empty, 0, 0⟩

def dials : ConnectionPc H → ConnectionPc H → Nat
  | .dial, .connecting => 1
  | _, _ => 0

/-- The run after a step of the task or of its `Worker`. -/
def after (r : ShutdownRun H) (i : ConnectionInput H) (s : WorkerConnection H) : ShutdownRun H where
  state := s
  journal :=
    r.journal.after r.state.pc.grab s.pc.grab i.packet (r.state.pc.handedOver s.pc)
  lateGrabs := r.lateGrabs +
    if r.state.shutdown then countOf isGrab (r.state.pc.handedOver s.pc) else 0
  lateDials := r.lateDials + if r.state.shutdown then dials r.state.pc s.pc else 0

def step (mode : GrabMode) (r : ShutdownRun H) (i : ConnectionInput H) : Option (ShutdownRun H) :=
  (r.state.step mode i).map (r.after i)

structure Inv (r : ShutdownRun H) : Prop where
  balanced : r.journal.Balanced r.state.pc.grab
  early : r.state.shutdown = false → r.lateGrabs = 0 ∧ r.lateDials = 0
  grabbed : r.lateGrabs = 0 ∨
    r.lateGrabs = 1 ∧ r.state.pc.grab ≠ some .flush ∧ r.state.pc.grab ≠ some .grab
  dialled : r.lateDials = 0 ∨ r.lateDials = 1 ∧ r.state.pc ≠ .dial
  /-- The notification is used up only to stop. -/
  notified : r.state.notified = true →
    r.state.pc.grab = some (.done .shuttingDown) ∨ r.state.pc = .returned

theorem inv_start (registry : Registry H) : (start registry).Inv where
  balanced := ⟨.nil, rfl⟩
  early _ := ⟨rfl, rfl⟩
  grabbed := .inl rfl
  dialled := .inl rfl
  notified h := by cases h

theorem dials_of_ne {pc : ConnectionPc H} (h : pc ≠ .dial) (pc' : ConnectionPc H) :
    dials pc pc' = 0 := by
  cases pc <;> first | rfl | exact absurd rfl h

theorem dials_le (pc pc' : ConnectionPc H) : dials pc pc' ≤ 1 := by
  unfold dials
  split <;> omega

variable {r : ShutdownRun H} {s : WorkerConnection H} {i : ConnectionInput H}

/-- After the flag only an attempt decided on before is started. -/
theorem dialled_after (hr : r.Inv) (hdial : s.pc = .dial → r.state.shutdown = false) :
    (r.after i s).lateDials = 0 ∨ (r.after i s).lateDials = 1 ∧ s.pc ≠ .dial := by
  unfold after
  dsimp only
  cases hset : r.state.shutdown with
  | false =>
    left
    simp only [(hr.early hset).2, Bool.false_eq_true, if_false]
  | true =>
    have hne : s.pc ≠ .dial := by
      intro h
      rw [hdial h] at hset
      cases hset
    rw [if_pos rfl]
    by_cases hpc : r.state.pc = .dial
    · have hzero : r.lateDials = 0 := by
        rcases hr.dialled with h | h
        · exact h
        · exact absurd hpc h.2
      have hle := dials_le r.state.pc s.pc
      rcases Nat.eq_zero_or_pos (dials r.state.pc s.pc) with h | h
      · left
        omega
      · right
        exact ⟨by omega, hne⟩
    · rw [dials_of_ne hpc, Nat.add_zero]
      rcases hr.dialled with h | h
      · exact .inl h
      · exact .inr ⟨h.1, hne⟩

/-- Outside the grab loop, and where it starts and ends. -/
def Outside : Option (GrabPc H) → Prop
  | none | some .head | some (.done _) => True
  | _ => False

theorem idle_of_outside {pc : Option (GrabPc H)} (h : Outside pc) : Journal.Idle pc := by
  rcases pc with _ | pc
  · trivial
  · cases pc <;> first | exact h | trivial

theorem newAssigned_of_outside {pc : Option (GrabPc H)} (h : Outside pc) (read : Option Packet) :
    Journal.newAssigned pc read = [] := by
  apply Journal.newAssigned_of_ne
  rintro rfl
  exact h

/-- A packet that is no concern of the journal. -/
def Aside (pkt : Packet) : Prop := isTerminal pkt.ptype = false ∧ isGrab pkt.ptype = false

theorem countOf_aside {pkts : List Packet} (h : ∀ pkt ∈ pkts, Aside pkt) :
    countOf isGrab pkts = 0 :=
  List.countP_eq_zero.mpr fun pkt hpkt => by rw [(h pkt hpkt).2]; exact Bool.false_ne_true

/-- A step outside the grab loop takes up at most a connection attempt. -/
theorem inv_outside (hr : r.Inv) (hout : Outside r.state.pc.grab) (hout' : Outside s.pc.grab)
    (hflag : s.shutdown = r.state.shutdown) (hdial : s.pc = .dial → r.state.shutdown = false)
    (haside : ∀ pkt ∈ r.state.pc.handedOver s.pc, Aside pkt)
    (hnotified : s.notified = true →
      s.pc.grab = some (.done .shuttingDown) ∨ s.pc = .returned) :
    (r.after i s).Inv := by
  have hlate : (r.after i s).lateGrabs = r.lateGrabs := by
    simp only [after, countOf_aside haside, ite_self, Nat.add_zero]
  refine ⟨?_, fun hset => ?_, ?_, dialled_after hr hdial, hnotified⟩
  · exact hr.balanced.idle (idle_of_outside hout) (idle_of_outside hout')
      (newAssigned_of_outside hout _) fun pkt hpkt => (haside pkt hpkt).1
  · have hset : r.state.shutdown = false := hflag ▸ hset
    refine ⟨hlate.trans (hr.early hset).1, ?_⟩
    simp only [after, hset, (hr.early hset).2, Bool.false_eq_true, if_false]
  · rw [hlate]
    rcases hr.grabbed with h | h
    · exact .inl h
    · refine .inr ⟨h.1, fun hpc => ?_, fun hpc => ?_⟩
      · have hpc : s.pc.grab = some .flush := hpc
        rw [hpc] at hout'
        exact hout'
      · have hpc : s.pc.grab = some .grab := hpc
        rw [hpc] at hout'
        exact hout'

/-- A step that leaves the task where it is. -/
theorem inv_same (hr : r.Inv) (hpc : s.pc = r.state.pc) (hread : i.packet = none)
    (hflag : s.shutdown = false → r.state.shutdown = false)
    (hnotified : s.notified = r.state.notified) : (r.after i s).Inv := by
  have hnone : r.state.pc.handedOver r.state.pc = [] := ConnectionPc.handedOver_same rfl
  have hlate : (r.after i s).lateGrabs = r.lateGrabs := by
    simp only [after, hpc, hnone, countOf, List.countP_nil, ite_self, Nat.add_zero]
  have hdials : (r.after i s).lateDials = r.lateDials := by
    have hzero : dials r.state.pc r.state.pc = 0 := by
      cases r.state.pc <;> rfl
    simp only [after, hpc, hzero, ite_self, Nat.add_zero]
  have hstate : (r.after i s).state.pc = r.state.pc := hpc
  refine ⟨?_, fun hset => ?_, ?_, ?_, fun h => ?_⟩
  · simp only [after, hpc, hnone, hread]
    exact hr.balanced.stay fun pkt hpkt => by cases hpkt
  · rw [hlate, hdials]
    exact hr.early (hflag hset)
  · rw [hlate, hstate]
    exact hr.grabbed
  · rw [hdials, hstate]
    exact hr.dialled
  · rw [hstate]
    exact hr.notified (hnotified ▸ h)

/-- A step of the loop that sends no `GRAB_JOB*` and does not lead to one. -/
theorem beyond {pc pc' : GrabPc H} {n k : Nat}
    (hn : n = 0 ∨ n = 1 ∧ some pc ≠ some .flush ∧ some pc ≠ some .grab) (hk : k = 0)
    (hflush : pc' ≠ .flush) (hgrab : pc' ≠ .grab) :
    n + k = 0 ∨ n + k = 1 ∧ some pc' ≠ some .flush ∧ some pc' ≠ some .grab := by
  rw [hk, Nat.add_zero]
  rcases hn with hn | ⟨hn, -⟩
  · exact .inl hn
  · exact .inr ⟨hn, by simpa using hflush, by simpa using hgrab⟩

/-- With the flag set the loop gets to a grab only from where it is past its head. -/
theorem grabbed_step {j : GrabInput H} {l l' : GrabLoop H} {n : Nat}
    (hflag : ∀ set, j = .shutdown set → set = true) (hl : l.Responds)
    (h : l.step mode j = some l')
    (hn : n = 0 ∨ n = 1 ∧ some l.pc ≠ some .flush ∧ some l.pc ≠ some .grab) :
    n + countOf isGrab (GrabLoop.sends mode l.pc j) = 0 ∨
      n + countOf isGrab (GrabLoop.sends mode l.pc j) = 1 ∧
        some l'.pc ≠ some .flush ∧ some l'.pc ≠ some .grab := by
  have early : l.pc = .flush → n = 0 := by
    intro hpc
    rcases hn with hn | ⟨-, hflush, -⟩
    · exact hn
    · exact absurd (congrArg some hpc) hflush
  cases GrabLoop.steps_of_step h with
  | @report handle report io _ =>
    have hzero : countOf isGrab (GrabLoop.sends mode l.pc (.report handle report io)) = 0 := by
      cases report <;> rfl
    rw [hzero, Nat.add_zero]
    exact hn
  | @shutdown set hpc =>
    rw [hflag set rfl]
    exact beyond hn (by rw [hpc]; rfl) (by simp) (by simp)
  | withdraw hpc | lagged hpc | flushed hpc =>
    left
    rw [early hpc, hpc]
    rfl
  | @grab io hpc =>
    have hone : countOf isGrab (GrabLoop.sends mode l.pc (.sent io)) = 1 := by
      rw [hpc]
      cases mode <;> rfl
    have hzero : n = 0 := by
      rcases hn with hn | ⟨-, -, hgrab⟩
      · exact hn
      · exact absurd (congrArg some hpc) hgrab
    right
    rw [hone, hzero]
    rcases l.sendOr_cases (.request mode.grabType []) io .answer with ⟨-, hsend⟩ | ⟨b, hsend⟩ <;>
      rw [hsend] <;> exact ⟨rfl, by simp, by simp⟩
  | @answer pkt hpc =>
    rcases GrabLoop.onAnswer_cases (H := H) pkt with hanswer | hanswer | hanswer <;>
      exact beyond hn (by rw [hpc]; rfl) (by simp [hanswer]) (by simp [hanswer])
  | @lost pkt hpc _ =>
    refine beyond hn ?_ (by simp) (by simp)
    rcases hpc with hpc | hpc <;> rw [hpc] <;> rfl
  | unregistered hpc _ | registered hpc _ | returned hpc | wake hpc | changed hpc =>
    exact beyond hn (by rw [hpc]; rfl) (by simp) (by simp)
  | @respond response io hpc =>
    refine beyond hn ?_ (by simp [GrabLoop.sendAnd]) (by simp [GrabLoop.sendAnd])
    have hneutral := GrabSession.neutral_of_isTerminal (hl response hpc)
    rw [hpc, GrabLoop.sends, countOf, List.countP_singleton, hneutral.1]
    rfl
  | @preSleep io hpc =>
    rcases l.sendOr_cases (.request .preSleep []) io .asleep with ⟨-, hsend⟩ | ⟨b, hsend⟩ <;>
      rw [hsend] <;> exact beyond hn (by rw [hpc]; rfl) (by simp) (by simp)

theorem responds_of_balanced {j : Journal H} {l : GrabLoop H} (h : j.Balanced (some l.pc)) :
    l.Responds := by
  intro response hpc
  rw [hpc] at h
  obtain ⟨done, pkt, -, hanswers, -⟩ := h
  exact hanswers.1

theorem packet_of_feeds {j : GrabInput H} {notifications : Broadcast String} {notified : Bool}
    {s : WorkerConnection H} (h : s.Feeds i j notifications notified) : i.packet = j.packet := by
  cases h with
  | recv pkt => rcases pkt with e | pkt <;> rfl
  | _ => rfl

theorem inv_grab (hr : r.Inv) {j : GrabInput H} {l l' : GrabLoop H}
    {notifications : Broadcast String} {notified : Bool} (hpc : r.state.pc = .grabbing l)
    (hfeeds : r.state.Feeds i j notifications notified) (h : l.step mode j = some l') :
    (r.after i { r.state with
      pc := .grabbing l', notifications := notifications, notified := notified }).Inv := by
  have hgrab : r.state.pc.grab = some l.pc := by rw [hpc]; rfl
  have hhanded : r.state.pc.handedOver (.grabbing l') = GrabLoop.sends mode l.pc j :=
    ConnectionPc.handedOver_append (by rw [hpc]; rfl) rfl (GrabLoop.tried_of_step h)
  have hbalanced := hr.balanced
  have hgrabbed := hr.grabbed
  have hnotified := hr.notified
  rw [hgrab] at hbalanced hgrabbed hnotified
  refine ⟨?_, fun hset => ?_, ?_, dialled_after hr (by simp), fun hnew => ?_⟩
  · simp only [after, hgrab, hhanded, packet_of_feeds hfeeds]
    exact hbalanced.grab h
  · have hset : r.state.shutdown = false := hset
    simp only [after, hset, hr.early hset, Bool.false_eq_true, if_false, Nat.add_zero, and_self]
  · cases hset : r.state.shutdown with
    | false =>
      left
      simp only [after, hset, hr.early hset, Bool.false_eq_true, if_false, Nat.add_zero]
    | true =>
      simp only [after, hset, if_true, hhanded]
      refine grabbed_step (fun set hj => ?_) (responds_of_balanced hbalanced) h hgrabbed
      subst hj
      cases hfeeds
      exact hset
  · left
    have hnew : notified = true := hnew
    cases hfeeds with
    | changed _ _ =>
      cases GrabLoop.steps_of_step h with
      | changed _ => rfl
    | _ =>
      rcases hnotified hnew with hdone | hreturned
      · have hmoves := GrabLoop.moves_of_step h
        rw [Option.some.inj hdone] at hmoves
        exact congrArg some (GrabLoop.moves_done hmoves)
      · rw [hpc] at hreturned
        cases hreturned

theorem aside_registerPacket (name : String) (reg : RegisteredHandler H) :
    Aside (registerPacket name reg) := by
  unfold registerPacket
  split <;> exact ⟨rfl, rfl⟩

theorem inv_step {r' : ShutdownRun H} (hr : r.Inv) (h : r.step mode i = some r') : r'.Inv := by
  obtain ⟨s, hs, rfl⟩ := Option.map_eq_some_iff.mp h
  have hnotified : ∀ pc, r.state.pc = pc → pc.grab ≠ some (.done .shuttingDown) →
      pc ≠ .returned → r.state.notified = true → False := by
    intro pc hpc hdone hreturned hset
    rcases hr.notified hset with h | h <;> rw [hpc] at h
    · exact hdone h
    · exact hreturned h
  -- nothing is sent where the connection stays as it is, or is given up
  have quiet : ∀ {pc' : ConnectionPc H}, r.state.pc.handedOver pc' = [] →
      ∀ pkt ∈ r.state.pc.handedOver pc', Aside pkt := by
    intro pc' hnone pkt hpkt
    rw [hnone] at hpkt
    cases hpkt
  cases WorkerConnection.steps_of_step hs with
  | shutdown hset => exact inv_same hr rfl rfl (fun _ => hset) rfl
  | remove _ | broadcast _ | discard _ _ => exact inv_same hr rfl rfl id rfl
  | borrow hpc =>
    refine inv_outside hr (by rw [hpc]; trivial) ?_ rfl (fun hdial => ?_)
      (quiet (ConnectionPc.handedOver_none (.inl (by rw [hpc]; rfl)))) (fun hset => ?_)
    · dsimp only
      split <;> trivial
    · dsimp only at hdial
      split at hdial
      · cases hdial
      · exact Bool.not_eq_true _ ▸ ‹_›
    · exact (hnotified _ hpc (by simp [ConnectionPc.grab]) (by simp) hset).elim
  | connect hpc =>
    refine inv_outside hr (by rw [hpc]; trivial) ?_ rfl (fun hdial => ?_)
      (quiet (ConnectionPc.handedOver_none (.inl (by rw [hpc]; rfl)))) (fun hset => ?_)
    · dsimp only
      split <;> trivial
    · dsimp only at hdial
      split at hdial <;> cases hdial
    · exact (hnotified _ hpc (by simp [ConnectionPc.grab]) (by simp) hset).elim
  | dial hpc | elapsed hpc =>
    exact inv_outside hr (by rw [hpc]; trivial) trivial rfl (by simp)
      (quiet (ConnectionPc.handedOver_none (.inl (by rw [hpc]; rfl))))
      fun hset => (hnotified _ hpc (by simp [ConnectionPc.grab]) (by simp) hset).elim
  | lock hpc | unlock hpc | enter hpc _ =>
    exact inv_outside hr (by rw [hpc]; trivial) trivial rfl (by simp)
      (quiet (ConnectionPc.handedOver_same (by rw [hpc]; rfl)))
      fun hset => (hnotified _ hpc (by simp [ConnectionPc.grab]) (by simp) hset).elim
  | unregistered hpc _ =>
    exact inv_outside hr (by rw [hpc]; trivial) trivial rfl (by simp)
      (quiet (ConnectionPc.handedOver_none (.inr rfl)))
      fun hset => (hnotified _ hpc (by simp [ConnectionPc.grab]) (by simp) hset).elim
  | @registered conn conn' name reg todo io hpc hsend =>
    refine inv_outside hr (by rw [hpc]; trivial) trivial rfl (by simp) ?_
      fun hset => (hnotified _ hpc (by simp [ConnectionPc.grab]) (by simp) hset).elim
    have htried : conn'.tried = conn.tried ++ [registerPacket name reg] := by
      rw [← conn.tried_send (registerPacket name reg) io, hsend]
    rw [ConnectionPc.handedOver_append (by rw [hpc]; rfl) rfl htried]
    intro pkt hpkt
    rw [List.mem_singleton.mp hpkt]
    exact aside_registerPacket name reg
  | grab hpc hfeeds hl => exact inv_grab hr hpc hfeeds hl
  | stop hpc _ _ =>
    exact inv_outside hr (by rw [hpc]; trivial) trivial rfl (by simp)
      (quiet (ConnectionPc.handedOver_none (.inr rfl))) fun _ => .inr rfl
  | shuttingDown hpc hl =>
    refine inv_outside hr ?_ trivial rfl (by simp) (quiet (ConnectionPc.handedOver_none (.inr rfl)))
      fun _ => .inr rfl
    rw [hpc, ConnectionPc.grab, hl]
    trivial
  | connectionLost hpc hl =>
    refine inv_outside hr ?_ trivial rfl (by simp) (quiet (ConnectionPc.handedOver_none (.inr rfl)))
      fun hset => ?_
    · rw [hpc, ConnectionPc.grab, hl]
      trivial
    · exact (hnotified _ hpc (by simp [ConnectionPc.grab, hl]) (by simp) hset).elim

/-- **Shutdown takes no new work and abandons none.** In every state of a run at
most one `GRAB_JOB*` has been handed to a connection and at most one connection
attempt started since the flag was set; once the task has returned, every
handler it called has returned and for every assignment it took on one terminal
packet has been handed to the connection; and whenever the flag is set and the
task waits, in a backoff or behind a `PRE_SLEEP`, the flag ends the wait and the
task returns. -/
theorem shutdown_finishes_jobs (mode : GrabMode) (registry : Registry H)
    {acts : List (ConnectionInput H)} {r : ShutdownRun H}
    (h : Machine.run (step mode) (start registry) acts = some r) :
    r.lateGrabs ≤ 1 ∧ r.lateDials ≤ 1 ∧
    (r.state.pc = .returned → r.journal.finished = r.journal.started ∧
      List.Forall₂ Journal.Answers r.journal.assigned r.journal.answered) ∧
    (r.state.shutdown = true →
      (r.state.pc = .backingOff →
        ∃ s, r.state.step mode .changed = some s ∧ s.pc = .returned) ∧
      ∀ l, r.state.pc = .grabbing l → l.pc = .asleep →
        ∃ s s', r.state.step mode .changed = some s ∧ s.step mode .leave = some s' ∧
          s'.pc = .returned) := by
  have hr : r.Inv :=
    Machine.invariant (fun _ _ _ hr hs => inv_step hr hs) (inv_start registry) h
  have hwaiting : r.state.pc.grab ≠ some (.done .shuttingDown) → r.state.pc ≠ .returned →
      r.state.notified = false := by
    intro hdone hreturned
    by_contra hset
    rcases hr.notified (Bool.not_eq_false _ ▸ hset) with h | h
    · exact hdone h
    · exact hreturned h
  refine ⟨?_, ?_, fun hpc => ?_, fun hset => ⟨fun hpc => ?_, fun l hpc hasleep => ?_⟩⟩
  · rcases hr.grabbed with h | h <;> omega
  · rcases hr.dialled with h | h <;> omega
  · have hbalanced := hr.balanced
    rw [hpc] at hbalanced
    exact ⟨hbalanced.2, hbalanced.1⟩
  · have hnew := hwaiting (by rw [hpc]; simp [ConnectionPc.grab]) (by rw [hpc]; simp)
    exact ⟨{ r.state with pc := .returned, notified := true },
      by simp [WorkerConnection.step, hset, hnew, hpc], rfl⟩
  · have hnew := hwaiting (by rw [hpc]; simp [ConnectionPc.grab, hasleep]) (by rw [hpc]; simp)
    refine ⟨{ r.state with
      pc := .grabbing { l with pc := .done .shuttingDown }, notified := true },
      { r.state with pc := .returned, notified := true }, ?_, rfl, rfl⟩
    simp [WorkerConnection.step, WorkerConnection.grab, hset, hnew, hpc, GrabLoop.step, hasleep]

/-- The flag is set while a handler runs. -/
def busyShutdown : List (ConnectionInput Unit) :=
  [.borrow, .dial, .connect true, .lock, .sent .accepted, .unlock, .tryRecv .accepted, .borrow,
    .tryRecv .accepted, .sent .accepted, .recv (.ok (some GrabLoop.assignment)), .lookup,
    .shutdown, .returned (.ok [1]), .sent .accepted, .borrow, .leave]

theorem shutdown_finishes_jobs_busyShutdown :
    ∃ r : ShutdownRun Unit,
      Machine.run (step .uniq) (start (Registry.empty.register "echo" ())) busyShutdown = some r ∧
      r.journal.finished.length = 1 ∧ r.journal.finished = r.journal.started ∧
      r.lateGrabs ≤ 1 := by
  have hrun : Machine.run (step .uniq) (start (Registry.empty.register "echo" ())) busyShutdown =
    some _ := rfl
  obtain ⟨hgrabs, -, hfinished, -⟩ := shutdown_finishes_jobs .uniq _ hrun
  exact ⟨_, hrun, rfl, (hfinished rfl).1, hgrabs⟩

end ShutdownRun

end Gearman.Worker

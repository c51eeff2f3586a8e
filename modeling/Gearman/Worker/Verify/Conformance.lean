import Gearman.Lib.Backoff
import Gearman.Worker.Pool
import Gearman.Worker.Verify.Reporters
import Gearman.Worker.Verify.Shutdown

/-!
# A worker's connection keeps to the protocol

The protocol as both sides are to keep it: a worker announces its functions,
then withdraws functions and grabs; told that there is no job it announces its
sleep and waits for a `NOOP`; given a job it owes one terminal packet with that
job's handle. Whatever `run_worker_connection` meets, it is not the first to
break it: up to the first packet of the server that the protocol does not allow,
all it writes, reports aside, is allowed, on every connection. The one thing it
may leave out is a result that the codec refuses.
-/

namespace Gearman.Worker

open Protocol
open Client (isTerminal)

variable {H : Type} {mode : GrabMode}

/-! ## The protocol -/

/-- What passes over a connection, reports aside. -/
inductive ProtocolEvent
  | wrote (pkt : Packet)
  | read (pkt : Packet)
  /-- A terminal packet is refused by the codec. -/
  | refused (pkt : Packet)
  deriving DecidableEq, Repr

/-- Where a connection stands. -/
inductive Standing
  /-- These announcements are still to come. -/
  | announcing (todo : List Packet)
  | free
  | grabbed
  /-- The job of this packet is to be answered. -/
  | assigned (pkt : Packet)
  /-- There is no job; the sleep is to be announced. -/
  | jobless
  | asleep
  deriving DecidableEq, Repr

namespace Standing

/-- What may be written between two jobs. -/
def nextFree (mode : GrabMode) (pkt : Packet) : Option Standing :=
  if pkt.ptype = .cantDo then some .free
  else if pkt = .request mode.grabType [] then some .grabbed
  else none

/-- What the server may answer a `GRAB_JOB*` with. -/
def granted (pkt : Packet) : Option Standing :=
  if isAssign pkt.ptype ∧ (pkt.argStr 0).isSome then some (.assigned pkt)
  else if pkt.ptype = .noJob then some .jobless
  else none

def next (mode : GrabMode) : Standing → ProtocolEvent → Option Standing
  | .announcing (pkt :: todo), .wrote p => if p = pkt then some (.announcing todo) else none
  | .announcing [], .wrote p | .free, .wrote p => nextFree mode p
  | .grabbed, .read p => granted p
  | .assigned pkt, .wrote p =>
    if isTerminal p.ptype ∧ p.arg 0 = pkt.arg 0 then some .free else none
  | .jobless, .wrote p => if p = .request .preSleep [] then some .asleep else none
  | .asleep, .read p => if p.ptype = .noop then some .free else none
  | _, _ => none

end Standing

/-! ## A task with what passed over its connection -/

structure ProtocolRun (H : Type) where
  state : WorkerConnection H
  /-- What the connection announces. -/
  announced : List Packet
  /-- What passed over it, reports aside. -/
  log : List ProtocolEvent
  /-- The backoffs since a connection was last set up. -/
  waits : Nat

def ProtocolEvent.written : ProtocolEvent → Option Packet
  | .wrote pkt => some pkt
  | _ => none

namespace ProtocolRun

def start (registry : Registry H) : ProtocolRun H := ⟨.start registry, [], [], 0⟩

def newWrites (pc pc' : ConnectionPc H) : List ProtocolEvent := (pc.writes pc').map .wrote

def newRead : ConnectionInput H → List ProtocolEvent
  | .recv (.ok (some pkt)) => [.read pkt]
  | _ => []

/-- The terminal packets that are handed over and refused by the codec. -/
def newRefused (pc pc' : ConnectionPc H) : List ProtocolEvent :=
  ((pc.handedOver pc').filter fun pkt =>
    isTerminal pkt.ptype && !decide (GearmanCodec.new.Accepts pkt)).map .refused

/-- What passes over the connection in a step. -/
def events (i : ConnectionInput H) (pc pc' : ConnectionPc H) : List ProtocolEvent :=
  if i.isReport then [] else newWrites pc pc' ++ newRead i ++ newRefused pc pc'

def newAnnounced (announced : List Packet) : ConnectionPc H → ConnectionPc H → List Packet
  | .connected _, .registering _ todo => todo.map fun e => registerPacket e.1 e.2
  | _, _ => announced

def newLog (log : List ProtocolEvent) (es : List ProtocolEvent) :
    ConnectionPc H → List ProtocolEvent
  | .connected _ => []
  | _ => log ++ es

def waited (waits : Nat) : ConnectionPc H → ConnectionPc H → Nat
  | .backingOff, .head => waits + 1
  | .registering _ _, .discarding _ => 0
  | _, _ => waits

def after (r : ProtocolRun H) (i : ConnectionInput H) (s : WorkerConnection H) : ProtocolRun H where
  state := s
  announced := newAnnounced r.announced r.state.pc s.pc
  log := newLog r.log (events i r.state.pc s.pc) s.pc
  waits := waited r.waits r.state.pc s.pc

def step (mode : GrabMode) (r : ProtocolRun H) (i : ConnectionInput H) : Option (ProtocolRun H) :=
  (r.state.step mode i).map (r.after i)

/-- Where the loop is when the connection stands there. -/
def GrabStands : GrabPc H → Standing → Prop
  | .head, w | .flush, w | .grab, w => w = .free ∨ w = .announcing []
  | .answer, w => w = .grabbed
  | .dispatch pkt, w => w = .assigned pkt ∧ (pkt.argStr 0).isSome
  | .running _ job, w => ∃ pkt, w = .assigned pkt ∧ (pkt.argStr 0).isSome ∧ job = assignedJob pkt
  | .respond response, w => ∃ pkt, w = .assigned pkt ∧ response.arg 0 = pkt.arg 0
  | .preSleep, w => w = .jobless
  | .asleep, w => w = .asleep
  | .done _, _ => True

/-- Between two jobs, or at the end. -/
def Idle : GrabPc H → Prop
  | .head | .flush | .grab | .done _ => True
  | _ => False

/-- Where the task is when the connection stands there. On a broken connection
nothing is written any more, whatever is owed. -/
def Stands : ConnectionPc H → Standing → Prop
  | .registering _ todo, w => w = .announcing (todo.map fun e => registerPacket e.1 e.2)
  | .discarding _, w => w = .announcing []
  | .grabbing l, w => GrabStands l.pc w ∨ l.conn.broken = true ∧ Idle l.pc
  | _, _ => True

/-- The packets written, reports aside. -/
def unreported (conn : Connection) : List Packet :=
  conn.written.filter fun pkt => !isReport pkt.ptype

/-- The protocol was kept to so far, and the task is where the connection stands. -/
def Keeps (mode : GrabMode) (announced : List Packet) (log : List ProtocolEvent)
    (pc : ConnectionPc H) : Prop :=
  ∃ w, Machine.run (Standing.next mode) (.announcing announced) log = some w ∧ Stands pc w

/-- The protocol was kept to up to a packet read that it does not allow, or a
terminal packet that the codec refuses. -/
def BreaksOff (mode : GrabMode) (announced : List Packet) (log : List ProtocolEvent) : Prop :=
  ∃ kept e rest w, log = kept ++ e :: rest ∧
    Machine.run (Standing.next mode) (.announcing announced) kept = some w ∧
    Standing.next mode w e = none ∧ e.written = none

structure Inv (mode : GrabMode) (r : ProtocolRun H) : Prop where
  allowed : Keeps mode r.announced r.log r.state.pc ∨ BreaksOff mode r.announced r.log
  fresh : ∀ conn, r.state.pc = .connected conn → conn.written = [] ∧ r.log = []
  written : ∀ conn, r.state.pc.conn = some conn →
    r.log.filterMap ProtocolEvent.written = unreported conn
  responds : ∀ l, r.state.pc = .grabbing l → l.Responds
  backoff : r.state.backoff = Backoff.delay 100 maxBackoff r.waits

theorem inv_start (registry : Registry H) : (start registry).Inv mode where
  allowed := .inl ⟨_, rfl, trivial⟩
  fresh conn h := by cases h
  written conn h := by cases h
  responds l h := by cases h
  backoff := by
    have hfirst : 100 ≤ maxBackoff := by decide
    exact (Backoff.delay_zero hfirst).symm

variable {r r' : ProtocolRun H} {s : WorkerConnection H} {i : ConnectionInput H}

theorem events_own {pc pc' : ConnectionPc H} (hi : i.isReport = false) :
    events i pc pc' = newWrites pc pc' ++ newRead i ++ newRefused pc pc' := by
  rw [events, hi, if_neg Bool.false_ne_true]

theorem newWrites_same {pc pc' : ConnectionPc H} {conn conn' : Connection}
    (hconn : pc.conn = some conn) (hconn' : pc'.conn = some conn')
    (h : conn'.written = conn.written) : newWrites pc pc' = [] := by
  rw [newWrites, ConnectionPc.writes_append hconn hconn' (h.trans (List.append_nil _).symm),
    List.map_nil]

theorem newWrites_concat {pc pc' : ConnectionPc H} {conn conn' : Connection} {pkt : Packet}
    (hconn : pc.conn = some conn) (hconn' : pc'.conn = some conn')
    (h : conn'.written = conn.written ++ [pkt]) : newWrites pc pc' = [.wrote pkt] := by
  rw [newWrites, ConnectionPc.writes_append hconn hconn' h, List.map_singleton]

/-- Nothing that is handed over is a terminal packet the codec refuses. -/
theorem newRefused_nil {pc pc' : ConnectionPc H}
    (h : ∀ pkt ∈ pc.handedOver pc', isTerminal pkt.ptype = true → GearmanCodec.new.Accepts pkt) :
    newRefused pc pc' = [] := by
  rw [newRefused, List.map_eq_nil_iff, List.filter_eq_nil_iff]
  intro pkt hpkt hrefused
  obtain ⟨hterminal, hnot⟩ : isTerminal pkt.ptype = true ∧ ¬GearmanCodec.new.Accepts pkt := by
    simpa using hrefused
  exact hnot (h pkt hpkt hterminal)

theorem newRefused_none {pc pc' : ConnectionPc H} (h : pc.handedOver pc' = []) :
    newRefused pc pc' = [] :=
  newRefused_nil fun pkt hpkt => by rw [h] at hpkt; cases hpkt

theorem newRefused_refused {pc pc' : ConnectionPc H} {pkt : Packet}
    (h : pc.handedOver pc' = [pkt]) (hterminal : isTerminal pkt.ptype = true)
    (hrefused : ¬GearmanCodec.new.Accepts pkt) : newRefused pc pc' = [.refused pkt] := by
  simp [newRefused, h, hterminal, hrefused]

theorem waited_self (waits : Nat) (pc : ConnectionPc H) : waited waits pc pc = waits := by
  cases pc <;> rfl

/-- What has broken off stays so. -/
theorem BreaksOff.append {announced : List Packet} {log : List ProtocolEvent}
    (h : BreaksOff mode announced log) (es : List ProtocolEvent) :
    BreaksOff mode announced (log ++ es) := by
  obtain ⟨kept, e, rest, w, rfl, hrun⟩ := h
  exact ⟨kept, e, rest ++ es, w, by simp, hrun⟩

/-- Where these events lead: on with the protocol, or out of it by what the
server sends or the codec refuses. -/
def Leads (mode : GrabMode) (w : Standing) (es : List ProtocolEvent) (pc : ConnectionPc H) : Prop :=
  (∃ w', Machine.run (Standing.next mode) w es = some w' ∧ Stands pc w') ∨
    ∃ e, es = [e] ∧ Standing.next mode w e = none ∧ e.written = none

theorem Leads.allowed {announced : List Packet} {log es : List ProtocolEvent} {w : Standing}
    {pc : ConnectionPc H} (h : Leads mode w es pc)
    (hrun : Machine.run (Standing.next mode) (.announcing announced) log = some w) :
    Keeps mode announced (log ++ es) pc ∨ BreaksOff mode announced (log ++ es) := by
  rcases h with ⟨w', hrun', hw'⟩ | ⟨e, rfl, hnext, hwritten⟩
  · refine .inl ⟨w', ?_, hw'⟩
    rw [Machine.run_append, hrun]
    exact hrun'
  · exact .inr ⟨log, e, [], w, rfl, hrun, hnext, hwritten⟩

/-- A step on the connection that is there, with what passes over it. -/
theorem inv_on {conn conn' : Connection} (es : List ProtocolEvent) (hr : r.Inv mode)
    (hconn : r.state.pc.conn = some conn) (hconn' : s.pc.conn = some conn')
    (hold : ∀ conn, r.state.pc ≠ .connected conn) (hnew : ∀ conn, s.pc ≠ .connected conn)
    (hevents : events i r.state.pc s.pc = es)
    (hleads : ∀ w, Stands r.state.pc w → Leads mode w es s.pc)
    (hwritten : unreported conn' = unreported conn ++ es.filterMap ProtocolEvent.written)
    (hresponds : ∀ l, s.pc = .grabbing l → l.Responds)
    (hbackoff : s.backoff = Backoff.delay 100 maxBackoff (r.after i s).waits) :
    (r.after i s).Inv mode := by
  have hannounced : (r.after i s).announced = r.announced := by
    unfold after newAnnounced
    dsimp only
    split
    · exact absurd ‹_› (hold _)
    · rfl
  have hlog : (r.after i s).log = r.log ++ es := by
    unfold after newLog
    dsimp only
    split
    · exact absurd ‹_› (hnew _)
    · rw [hevents]
  refine ⟨?_, fun conn h => absurd h (hnew conn), ?_, hresponds, hbackoff⟩
  · rw [hannounced, hlog]
    rcases hr.allowed with ⟨w, hrun, hw⟩ | hbroken
    · exact (hleads w hw).allowed hrun
    · exact .inr (hbroken.append es)
  · intro conn₁ hconn₁
    rw [show s.pc.conn = some conn₁ from hconn₁] at hconn'
    cases hconn'
    rw [hlog, List.filterMap_append, hr.written conn hconn, hwritten]

/-- A step that leaves the task where it is, or brings it on over nothing that passes. -/
theorem inv_still (hr : r.Inv mode) (hpc : s.pc = r.state.pc) (hread : newRead i = [])
    (hbackoff : s.backoff = r.state.backoff) : (r.after i s).Inv mode := by
  have hevents : events i r.state.pc s.pc = [] := by
    unfold events
    split
    · rfl
    · rw [hpc, hread, newRefused_none (ConnectionPc.handedOver_same rfl)]
      cases hconn : r.state.pc.conn with
      | none => simp [newWrites, ConnectionPc.writes, hconn]
      | some conn => simp [newWrites_same hconn hconn rfl]
  have hwaits : (r.after i s).waits = r.waits := by
    rw [after, hpc, waited_self]
  have hannounced : (r.after i s).announced = r.announced := by
    unfold after
    rw [hpc]
    cases r.state.pc <;> rfl
  have hlog : (r.after i s).log = r.log := by
    unfold after
    rw [hevents, hpc]
    cases h : r.state.pc with
    | connected conn => exact (hr.fresh conn h).2.symm
    | _ => exact List.append_nil _
  refine ⟨?_, ?_, ?_, ?_, ?_⟩
  · rw [hannounced, hlog]
    change Keeps mode r.announced r.log s.pc ∨ _
    rw [hpc]
    exact hr.allowed
  · rw [hlog]
    change ∀ conn, s.pc = .connected conn → _
    rw [hpc]
    exact hr.fresh
  · rw [hlog]
    change ∀ conn, s.pc.conn = some conn → _
    rw [hpc]
    exact hr.written
  · change ∀ l, s.pc = .grabbing l → _
    rw [hpc]
    exact hr.responds
  · rw [hwaits]
    exact hbackoff.trans hr.backoff

/-- A step that ends without a connection. -/
theorem inv_off (hr : r.Inv mode) (hnone : s.pc.conn = none) (hread : newRead i = [])
    (hbackoff : s.backoff = Backoff.delay 100 maxBackoff (r.after i s).waits) :
    (r.after i s).Inv mode := by
  have hevents : events i r.state.pc s.pc = [] := by
    unfold events
    split
    · rfl
    · simp [newWrites, ConnectionPc.writes, hnone, hread,
        newRefused_none (ConnectionPc.handedOver_none (.inr hnone))]
  have hfresh : ∀ conn, s.pc ≠ .connected conn := by
    intro conn h
    rw [h] at hnone
    cases hnone
  have hregistering : ∀ conn todo, s.pc ≠ .registering conn todo := by
    intro conn todo h
    rw [h] at hnone
    cases hnone
  have hannounced : (r.after i s).announced = r.announced := by
    unfold after newAnnounced
    dsimp only
    split
    · exact absurd ‹_› (hregistering _ _)
    · rfl
  have hlog : (r.after i s).log = r.log := by
    unfold after newLog
    dsimp only
    split
    · exact absurd ‹_› (hfresh _)
    · rw [hevents, List.append_nil]
  have hstands : ∀ w, Stands s.pc w := by
    intro w
    cases h : s.pc with
    | registering conn todo => exact absurd h (hregistering conn todo)
    | discarding conn | grabbing l =>
      rw [h] at hnone
      cases hnone
    | _ => trivial
  refine ⟨?_, fun conn h => absurd h (hfresh conn), ?_, fun l h => ?_, hbackoff⟩
  · rw [hannounced, hlog]
    rcases hr.allowed with ⟨w, hrun, -⟩ | hbroken
    · exact .inl ⟨w, hrun, hstands w⟩
    · exact .inr hbroken
  · intro conn hconn
    have hconn : s.pc.conn = some conn := hconn
    rw [hnone] at hconn
    cases hconn
  · have h : s.pc = .grabbing l := h
    rw [h] at hnone
    cases hnone

/-! ## The grab loop -/

variable {l l' : GrabLoop H}

/-- A step of the loop that writes nothing. -/
theorem inv_move (es : List ProtocolEvent) (hr : r.Inv mode) (hpc : r.state.pc = .grabbing l)
    (hpc' : s.pc = .grabbing l') (hi : i.isReport = false)
    (hwritten : l'.conn.written = l.conn.written) (hbackoff : s.backoff = r.state.backoff)
    (hresponds : l'.Responds)
    (hevents : newRead i ++ newRefused (H := H) (.grabbing l) (.grabbing l') = es)
    (hnone : es.filterMap ProtocolEvent.written = [])
    (hleads : ∀ w, Stands (H := H) (.grabbing l) w → Leads (H := H) mode w es (.grabbing l')) :
    (r.after i s).Inv mode := by
  have hconn : r.state.pc.conn = some l.conn := by rw [hpc]; rfl
  have hconn' : s.pc.conn = some l'.conn := by rw [hpc']; rfl
  refine inv_on es hr hconn hconn' (by simp [hpc]) (by simp [hpc']) ?_ ?_ ?_ ?_ ?_
  · rw [events_own hi, newWrites_same hconn hconn' hwritten, List.nil_append, hpc, hpc']
    exact hevents
  · rw [hpc, hpc']
    exact hleads
  · rw [hnone, List.append_nil, unreported, unreported, hwritten]
  · rw [hpc']
    rintro _ ⟨⟩
    exact hresponds
  · rw [after, hpc, hpc', hbackoff]
    exact hr.backoff

theorem written_newRead (i : ConnectionInput H) :
    (newRead i).filterMap ProtocolEvent.written = [] := by
  unfold newRead
  split <;> rfl

/-- A step of the loop that leaves the connection as it is. -/
theorem inv_pass (hr : r.Inv mode) (hpc : r.state.pc = .grabbing l) (hpc' : s.pc = .grabbing l')
    (hi : i.isReport = false) (hconn : l'.conn = l.conn) (hbackoff : s.backoff = r.state.backoff)
    (hresponds : l'.Responds)
    (hleads : ∀ w, Stands (H := H) (.grabbing l) w →
      Leads (H := H) mode w (newRead i) (.grabbing l')) : (r.after i s).Inv mode := by
  have hrefused : newRefused (H := H) (.grabbing l) (.grabbing l') = [] :=
    newRefused_none (ConnectionPc.handedOver_same (congrArg some hconn))
  exact inv_move (newRead i) hr hpc hpc' hi (by rw [hconn]) hbackoff hresponds
    (by rw [hrefused, List.append_nil]) (written_newRead i) hleads

/-- A step of the loop that writes a packet of its own. -/
theorem inv_put (pkt : Packet) (hr : r.Inv mode) (hpc : r.state.pc = .grabbing l)
    (hpc' : s.pc = .grabbing l') (hi : i.isReport = false)
    (hwritten : l'.conn.written = l.conn.written ++ [pkt]) (hbackoff : s.backoff = r.state.backoff)
    (hresponds : l'.Responds) (hread : newRead i = [])
    (hrefused : newRefused (H := H) (.grabbing l) (.grabbing l') = [])
    (hpkt : isReport pkt.ptype = false)
    (hstands : ∀ w, Stands (H := H) (.grabbing l) w →
      ∃ w', Standing.next mode w (.wrote pkt) = some w' ∧
        Stands (H := H) (.grabbing l') w') : (r.after i s).Inv mode := by
  have hconn : r.state.pc.conn = some l.conn := by rw [hpc]; rfl
  have hconn' : s.pc.conn = some l'.conn := by rw [hpc']; rfl
  refine inv_on [.wrote pkt] hr hconn hconn' (by simp [hpc]) (by simp [hpc'])
    ?_ ?_ ?_ ?_ ?_
  · rw [events_own hi, newWrites_concat hconn hconn' hwritten, hread, hpc, hpc', hrefused]
    rfl
  · rw [hpc, hpc']
    intro w hw
    obtain ⟨w', hnext, hw'⟩ := hstands w hw
    exact .inl ⟨w', by rw [Machine.run_cons, hnext]; rfl, hw'⟩
  · simp [unreported, hwritten, hpkt, ProtocolEvent.written]
  · rw [hpc']
    rintro _ ⟨⟩
    exact hresponds
  · rw [after, hpc, hpc', hbackoff]
    exact hr.backoff

/-- A `Reporter` is used. -/
theorem inv_report (hr : r.Inv mode) (hpc : r.state.pc = .grabbing l)
    (hpc' : s.pc = .grabbing l') (hi : i.isReport = true) (hl : l'.pc = l.pc)
    (hwritten : unreported l'.conn = unreported l.conn)
    (hbroken : l.conn.broken = true → l'.conn.broken = true)
    (hbackoff : s.backoff = r.state.backoff) : (r.after i s).Inv mode := by
  have hconn : r.state.pc.conn = some l.conn := by rw [hpc]; rfl
  have hconn' : s.pc.conn = some l'.conn := by rw [hpc']; rfl
  refine inv_on [] hr hconn hconn' (by simp [hpc]) (by simp [hpc']) ?_ ?_ ?_ ?_ ?_
  · unfold events
    rw [hi, if_pos rfl]
  · rw [hpc, hpc']
    intro w hw
    refine .inl ⟨w, rfl, ?_⟩
    rcases hw with hw | ⟨hb, hidle⟩
    · exact .inl (hl ▸ hw)
    · exact .inr ⟨hbroken hb, hl ▸ hidle⟩
  · rw [hwritten]
    exact (List.append_nil _).symm
  · rw [hpc']
    rintro _ ⟨⟩ response hresponse
    exact hr.responds l hpc response (hl ▸ hresponse)
  · rw [after, hpc, hpc', hbackoff]
    exact hr.backoff

/-- What a free connection may carry. -/
theorem next_of_idle {w : Standing} {pkt : Packet} (hw : w = .free ∨ w = .announcing []) :
    Standing.next mode w (.wrote pkt) = Standing.nextFree mode pkt := by
  rcases hw with rfl | rfl <;> rfl

theorem isReport_grabType (mode : GrabMode) : isReport mode.grabType = false := by
  cases mode <;> rfl

theorem nextFree_grab (mode : GrabMode) :
    Standing.nextFree mode (.request mode.grabType []) = some .grabbed := by
  cases mode <;> rfl

theorem isReport_of_isTerminal {t : PacketType} (h : isTerminal t = true) :
    isReport t = false := by
  revert h
  cases t <;> simp [isTerminal, isReport]

/-- A send that ends the loop where it fails. -/
theorem inv_sendOr {pkt : Packet} {io : Io} {next : GrabPc H} (hr : r.Inv mode)
    (hpc : r.state.pc = .grabbing l) (hpc' : s.pc = .grabbing (l.sendOr pkt io next))
    (hi : i.isReport = false) (hbackoff : s.backoff = r.state.backoff) (hread : newRead i = [])
    (hnext : ∀ response, next ≠ .respond response) (hpkt : isReport pkt.ptype = false)
    (hterminal : isTerminal pkt.ptype = false)
    (hstands : ∀ w, GrabStands l.pc w →
      ∃ w', Standing.next mode w (.wrote pkt) = some w' ∧ GrabStands next w') :
    (r.after i s).Inv mode := by
  have hrefused : newRefused (H := H) (.grabbing l) (.grabbing (l.sendOr pkt io next)) = [] := by
    apply newRefused_nil
    have hone : ConnectionPc.handedOver (H := H) (.grabbing l) (.grabbing (l.sendOr pkt io next)) =
        [pkt] := ConnectionPc.handedOver_append rfl rfl (by simp)
    rw [hone]
    intro p hp hp'
    rw [List.mem_singleton.mp hp, hterminal] at hp'
    cases hp'
  rcases l.sendOr_cases pkt io next with ⟨hintact, h⟩ | ⟨b, h⟩ <;> rw [h] at hpc' hrefused
  · refine inv_put pkt hr hpc hpc' hi rfl hbackoff
      (fun response hresponse => absurd hresponse (hnext response)) hread hrefused hpkt ?_
    intro w hw
    rcases hw with hw | ⟨hb, -⟩
    · obtain ⟨w', hnext, hw'⟩ := hstands w hw
      exact ⟨w', hnext, .inl hw'⟩
    · rw [hintact] at hb
      cases hb
  · refine inv_move [] hr hpc hpc' hi rfl hbackoff
      (fun response hresponse => by cases hresponse) (by rw [hread, hrefused]; rfl) rfl ?_
    intro w _
    exact .inl ⟨w, rfl, .inl trivial⟩

/-- The last send of `dispatch_job`: the packet is written, or refused by the
codec, or the connection is broken. -/
theorem inv_respond {response : Packet} {io : Io} (hr : r.Inv mode)
    (hpc : r.state.pc = .grabbing l) (hpc' : s.pc = .grabbing (l.sendAnd response io .head))
    (hi : i.isReport = false) (hbackoff : s.backoff = r.state.backoff) (hread : newRead i = [])
    (hl : l.pc = .respond response) : (r.after i s).Inv mode := by
  have hterminal := hr.responds l hpc response hl
  have howed : ∀ w, Stands (H := H) (.grabbing l) w →
      ∃ pkt, w = .assigned pkt ∧ response.arg 0 = pkt.arg 0 := by
    intro w hw
    rcases hw with hw | ⟨-, hidle⟩
    · rw [hl] at hw
      exact hw
    · rw [hl] at hidle
      exact hidle.elim
  have hhanded : (ConnectionPc.grabbing l).handedOver
      (.grabbing (l.sendAnd response io .head)) = [response] :=
    ConnectionPc.handedOver_append rfl rfl (by simp [GrabLoop.sendAnd])
  by_cases hacc : GearmanCodec.new.Accepts response
  · have hrefused : newRefused (H := H) (.grabbing l)
        (.grabbing (l.sendAnd response io .head)) = [] := by
      apply newRefused_nil
      rw [hhanded]
      intro p hp _
      rw [List.mem_singleton.mp hp]
      exact hacc
    rcases l.sendAnd_cases response io .head with ⟨-, -, h⟩ | ⟨b, h, -, hb⟩ <;>
      rw [h] at hpc' hrefused
    · refine inv_put response hr hpc hpc' hi rfl hbackoff
        (fun response hresponse => by cases hresponse) hread hrefused
        (isReport_of_isTerminal hterminal) ?_
      intro w hw
      obtain ⟨pkt, rfl, hhandle⟩ := howed w hw
      exact ⟨.free, if_pos ⟨hterminal, hhandle⟩, .inl (.inl rfl)⟩
    · refine inv_move [] hr hpc hpc' hi rfl hbackoff
        (fun response hresponse => by cases hresponse) (by rw [hread, hrefused]; rfl) rfl ?_
      intro w _
      exact .inl ⟨w, rfl, .inr ⟨hb hacc, trivial⟩⟩
  · have hrefused := newRefused_refused hhanded hterminal hacc
    rcases l.sendAnd_cases response io .head with ⟨hacc', -, -⟩ | ⟨b, h, -, -⟩
    · exact absurd hacc' hacc
    · rw [h] at hpc' hrefused
      refine inv_move [.refused response] hr hpc hpc' hi rfl hbackoff
        (fun response hresponse => by cases hresponse) (by rw [hread, hrefused]; rfl) rfl ?_
      intro w hw
      obtain ⟨pkt, rfl, -⟩ := howed w hw
      exact .inr ⟨_, rfl, rfl, rfl⟩

/-- Where an answer to a `GRAB_JOB*` leads. -/
theorem leads_answer (pkt : Packet) {conn : Connection} {reporters : List String} :
    Leads (H := H) mode .grabbed [.read pkt]
      (.grabbing ⟨GrabLoop.onAnswer pkt, conn, reporters⟩) := by
  have hrun : Machine.run (Standing.next mode) .grabbed [.read pkt] = Standing.granted pkt := by
    rw [Machine.run_cons]
    exact Option.bind_fun_some _
  unfold Leads
  rw [hrun]
  by_cases hassign : isAssign pkt.ptype = true
  · have hanswer : (GrabLoop.onAnswer pkt : GrabPc H) = .dispatch pkt := if_pos hassign
    by_cases hstr : (pkt.argStr 0).isSome = true
    · refine .inl ⟨.assigned pkt, if_pos ⟨hassign, hstr⟩, .inl ?_⟩
      rw [hanswer]
      exact ⟨rfl, hstr⟩
    · have hnone : Standing.granted pkt = none := by
        have hjob : pkt.ptype ≠ .noJob := by
          intro h
          rw [h] at hassign
          cases hassign
        rw [Standing.granted, if_neg (fun h => hstr h.2), if_neg hjob]
      exact .inr ⟨_, rfl, hnone, rfl⟩
  · have hskip : Standing.granted pkt = if pkt.ptype = .noJob then some .jobless else none :=
      if_neg fun h => hassign h.1
    by_cases hjob : pkt.ptype = .noJob
    · refine .inl ⟨.jobless, hskip.trans (if_pos hjob), .inl ?_⟩
      rw [GrabLoop.onAnswer, if_neg hassign, if_pos hjob]
      rfl
    · exact .inr ⟨_, rfl, hskip.trans (if_neg hjob), rfl⟩

/-- Where the end of a sleep leads. -/
theorem leads_wake (pkt : Packet) {conn : Connection} {reporters : List String} :
    Leads (H := H) mode .asleep [.read pkt] (.grabbing ⟨.head, conn, reporters⟩) := by
  by_cases hnoop : pkt.ptype = .noop
  · refine .inl ⟨.free, ?_, .inl (.inl rfl)⟩
    rw [Machine.run_cons, Standing.next, if_pos hnoop]
    rfl
  · exact .inr ⟨_, rfl, if_neg hnoop, rfl⟩

/-- The loop reads. -/
theorem inv_recv {pkt : Received} (hr : r.Inv mode) (hpc : r.state.pc = .grabbing l)
    (hpc' : s.pc = .grabbing l') (hbackoff : s.backoff = r.state.backoff)
    (hresponds : l'.Responds) (h : l.step mode (.recv pkt) = some l') :
    (r.after (.recv pkt) s).Inv mode := by
  cases GrabLoop.steps_of_step h with
  | @answer pkt hl =>
    refine inv_pass hr hpc hpc' rfl rfl hbackoff hresponds fun w hw => ?_
    rw [Stands, hl] at hw
    rcases hw with hw | ⟨-, hidle⟩
    · cases hw
      exact leads_answer pkt
    · exact hidle.elim
  | lost hl hnone =>
    have hread : newRead (H := H) (.recv pkt) = [] := by
      rcases pkt with e | _ | p
      · rfl
      · rfl
      · exact absurd rfl (hnone p)
    refine inv_pass hr hpc hpc' rfl rfl hbackoff hresponds fun w _ => ?_
    rw [hread]
    exact .inl ⟨w, rfl, .inl trivial⟩
  | @wake pkt hl =>
    refine inv_pass hr hpc hpc' rfl rfl hbackoff hresponds fun w hw => ?_
    rw [Stands, hl] at hw
    rcases hw with hw | ⟨-, hidle⟩
    · cases hw
      exact leads_wake pkt
    · exact hidle.elim

theorem inv_grab {j : GrabInput H} {notifications : Broadcast String} {notified : Bool}
    (hr : r.Inv mode) (hpc : r.state.pc = .grabbing l)
    (hfeeds : r.state.Feeds i j notifications notified) (h : l.step mode j = some l') :
    (r.after i { r.state with
      pc := .grabbing l', notifications := notifications, notified := notified }).Inv mode := by
  have hresponds : l'.Responds := GrabLoop.responds_step (hr.responds l hpc) h
  -- the loop goes on and nothing passes
  have stays : ∀ {pc : GrabPc H} {reporters : List String},
      l' = { l with pc := pc, reporters := reporters } → i.isReport = false → newRead i = [] →
      (∀ w, Stands (H := H) (.grabbing l) w → GrabStands pc w ∨ l.conn.broken = true ∧ Idle pc) →
      (r.after i { r.state with
        pc := .grabbing l', notifications := notifications, notified := notified }).Inv mode := by
    rintro pc reporters rfl hi hread hstands
    refine inv_pass hr hpc rfl hi rfl rfl hresponds fun w hw => ?_
    rw [hread]
    exact .inl ⟨w, rfl, hstands w hw⟩
  cases hfeeds with
  | borrow =>
    cases GrabLoop.steps_of_step h with
    | shutdown hl =>
      refine stays rfl rfl rfl ?_
      intro w hw
      rw [Stands, hl] at hw
      cases r.state.shutdown with
      | true => exact .inl trivial
      | false => exact hw.imp id id
  | sent io =>
    cases GrabLoop.steps_of_step h with
    | grab hl =>
      refine inv_sendOr hr hpc rfl rfl rfl rfl (by simp) (isReport_grabType mode)
        (by cases mode <;> rfl) ?_
      intro w hw
      rw [hl] at hw
      exact ⟨.grabbed, (next_of_idle hw).trans (nextFree_grab mode), rfl⟩
    | respond hl => exact inv_respond hr hpc rfl rfl rfl rfl hl
    | preSleep hl =>
      refine inv_sendOr hr hpc rfl rfl rfl rfl (by simp) rfl rfl ?_
      intro w hw
      rw [hl] at hw
      cases hw
      exact ⟨.asleep, by simp [Standing.next], rfl⟩
  | tryRecv io =>
    generalize unregistration (r.state.notifications.tryRecv notificationCap).1 = found at h
    cases GrabLoop.steps_of_step h with
    | @withdraw function _ hl =>
      refine inv_sendOr hr hpc rfl rfl rfl rfl (by simp) rfl rfl ?_
      intro w hw
      rw [hl] at hw
      exact ⟨.free, (next_of_idle hw).trans (if_pos rfl), .inl rfl⟩
    | lagged hl => exact stays rfl rfl rfl fun w hw => hw
    | flushed hl =>
      refine stays rfl rfl rfl ?_
      intro w hw
      rw [Stands, hl] at hw
      exact hw.imp id id
  | recv pkt => exact inv_recv hr hpc rfl rfl hresponds h
  | lookup =>
    cases GrabLoop.steps_of_step h with
    | @unregistered pkt _ hl _ =>
      refine stays rfl rfl rfl ?_
      intro w hw
      rw [Stands, hl] at hw
      rcases hw with ⟨hw, hstr⟩ | ⟨-, hidle⟩
      · exact .inl ⟨pkt, hw, (Journal.answers_unregisteredResponse pkt).2 hstr⟩
      · exact hidle.elim
    | @registered pkt _ _ hl _ =>
      refine stays rfl rfl rfl ?_
      intro w hw
      rw [Stands, hl] at hw
      rcases hw with ⟨hw, hstr⟩ | ⟨-, hidle⟩
      · exact .inl ⟨pkt, hw, hstr, rfl⟩
      · exact hidle.elim
  | returned outcome =>
    cases GrabLoop.steps_of_step h with
    | @returned handler job _ hl =>
      refine stays rfl rfl rfl ?_
      intro w hw
      rw [Stands, hl] at hw
      rcases hw with hw | ⟨-, hidle⟩
      · obtain ⟨pkt, hassigned, hstr, rfl⟩ := hw
        exact .inl ⟨pkt, hassigned, (Journal.answers_jobResponse pkt outcome).2 hstr⟩
      · exact hidle.elim
  | report handle report io =>
    cases GrabLoop.steps_of_step h with
    | report _ =>
      rcases l.sendAnd_cases (report.packet handle) io l.pc with ⟨-, -, hl⟩ | ⟨b, hl, hb, -⟩
      · refine inv_report hr hpc rfl rfl ?_ ?_ ?_ rfl <;> rw [hl]
        · simp [unreported, ReporterRun.isReport_packet]
        · exact id
      · refine inv_report hr hpc rfl rfl ?_ ?_ ?_ rfl <;> rw [hl]
        · rfl
        · exact hb
  | changed _ _ =>
    cases GrabLoop.steps_of_step h with
    | changed hl => exact stays rfl rfl rfl fun w _ => .inl trivial

/-! ## Runs -/

theorem isReport_registerPacket (name : String) (reg : RegisteredHandler H) :
    isReport (registerPacket name reg).ptype = false := by
  unfold registerPacket
  split <;> rfl

/-- A function is announced. -/
theorem inv_registered {conn conn' : Connection} {name : String} {reg : RegisteredHandler H}
    {todo : List (String × RegisteredHandler H)} {io : Io} (hr : r.Inv mode)
    (hpc : r.state.pc = .registering conn ((name, reg) :: todo))
    (h : conn.send (registerPacket name reg) io = (.ok (), conn')) :
    (r.after (.sent io) { r.state with pc := .registering conn' todo }).Inv mode := by
  have hconn : r.state.pc.conn = some conn := by rw [hpc]; rfl
  have hwritten := Connection.written_of_send h
  have htried : conn'.tried = conn.tried ++ [registerPacket name reg] := by
    rw [← conn.tried_send (registerPacket name reg) io, h]
  have hrefused : newRefused r.state.pc (.registering conn' todo) = [] := by
    apply newRefused_nil
    rw [ConnectionPc.handedOver_append hconn rfl htried]
    intro pkt hpkt hterminal
    rw [List.mem_singleton.mp hpkt, (ShutdownRun.aside_registerPacket name reg).1] at hterminal
    cases hterminal
  refine inv_on [.wrote (registerPacket name reg)] hr hconn (rfl : _ = some conn')
    (by simp [hpc]) (by simp) ?_ ?_ ?_ (by simp) ?_
  · rw [events_own rfl, newWrites_concat hconn rfl hwritten, hrefused]
    rfl
  · intro w hw
    rw [hpc] at hw
    cases hw
    exact .inl ⟨_, by simp [Machine.run_cons, Standing.next], rfl⟩
  · simp [unreported, hwritten, isReport_registerPacket, ProtocolEvent.written]
  · rw [after, hpc]
    exact hr.backoff

/-- A step of the set-up over which nothing passes. -/
theorem inv_setUp {conn : Connection} (hr : r.Inv mode) (hconn : r.state.pc.conn = some conn)
    (hconn' : s.pc.conn = some conn) (hold : ∀ conn, r.state.pc ≠ .connected conn)
    (hnew : ∀ conn, s.pc ≠ .connected conn) (hi : i.isReport = false) (hread : newRead i = [])
    (hstands : ∀ w, Stands r.state.pc w → Stands s.pc w)
    (hresponds : ∀ l, s.pc = .grabbing l → l.Responds)
    (hbackoff : s.backoff = Backoff.delay 100 maxBackoff (r.after i s).waits) :
    (r.after i s).Inv mode := by
  refine inv_on [] hr hconn hconn' hold hnew ?_ ?_ (List.append_nil _).symm hresponds
    hbackoff
  · rw [events_own hi, newWrites_same hconn hconn' rfl, hread,
      newRefused_none (ConnectionPc.handedOver_same (hconn'.trans hconn.symm))]
    rfl
  · intro w hw
    exact .inl ⟨w, rfl, hstands w hw⟩

theorem inv_step (hr : r.Inv mode) (h : r.step mode i = some r') : r'.Inv mode := by
  obtain ⟨s, hs, rfl⟩ := Option.map_eq_some_iff.mp h
  have hbackoff := hr.backoff
  cases WorkerConnection.steps_of_step hs with
  | shutdown _ | remove _ | broadcast _ | discard _ _ => exact inv_still hr rfl rfl rfl
  | borrow hpc =>
    refine inv_off hr ?_ rfl ?_
    · dsimp only
      split <;> rfl
    · rw [after, hpc]
      exact hbackoff
  | dial hpc | stop hpc _ _ | unregistered hpc _ | shuttingDown hpc _ | connectionLost hpc _ =>
    exact inv_off hr rfl rfl (by rw [after, hpc]; exact hbackoff)
  | elapsed hpc =>
    refine inv_off hr rfl rfl ?_
    rw [after, hpc]
    change min (r.state.backoff * 2) maxBackoff = Backoff.delay 100 maxBackoff (r.waits + 1)
    rw [hbackoff, Backoff.delay_succ]
  | @connect ok hpc =>
    cases ok with
    | false => exact inv_off hr rfl rfl (by rw [after, hpc]; exact hbackoff)
    | true =>
      refine ⟨.inl ⟨_, rfl, trivial⟩, ?_, ?_, (fun l hl => by cases hl), ?_⟩
      · rintro conn hconn
        cases hconn
        exact ⟨rfl, rfl⟩
      · rintro conn hconn
        cases hconn
        rfl
      · rw [after, hpc]
        exact hbackoff
  | @lock conn hpc =>
    obtain ⟨hempty, hlog⟩ := hr.fresh conn hpc
    have hlog' : (r.after .lock
        { r.state with pc := .registering conn r.state.registry.entries }).log = [] := by
      have hconn : r.state.pc.conn = some conn := by rw [hpc]; rfl
      have hevents : events (H := H) .lock r.state.pc
          (.registering conn r.state.registry.entries) = [] := by
        rw [events_own rfl, newWrites_same hconn rfl rfl,
          newRefused_none (ConnectionPc.handedOver_same (by rw [hpc]; rfl))]
        rfl
      simp only [after, newLog, hevents, hlog, List.append_nil]
    refine ⟨.inl ⟨_, by rw [hlog']; rfl, ?_⟩, ?_, ?_, (fun l hl => by cases hl), ?_⟩
    · rw [after, hpc]
      rfl
    · rintro conn' hfresh
      cases hfresh
    · rintro conn' hconn
      cases hconn
      rw [hlog', unreported, hempty]
      rfl
    · rw [after, hpc]
      exact hbackoff
  | registered hpc hsent => exact inv_registered hr hpc hsent
  | @unlock conn hpc =>
    refine inv_setUp hr (by rw [hpc]; rfl) rfl (by simp [hpc]) (by simp) rfl rfl
      ?_ (by simp) ?_
    · intro w hw
      rw [hpc] at hw
      exact hw
    · have hfirst : 100 ≤ maxBackoff := by decide
      rw [after, hpc]
      exact (Backoff.delay_zero hfirst).symm
  | @enter conn io hpc _ =>
    refine inv_setUp hr (by rw [hpc]; rfl) rfl (by simp [hpc]) (by simp) rfl rfl
      ?_ ?_ ?_
    · intro w hw
      rw [hpc] at hw
      exact .inl (.inr hw)
    · rintro _ ⟨⟩ response hresponse
      cases hresponse
    · rw [after, hpc]
      exact hbackoff
  | grab hpc hfeeds hl => exact inv_grab hr hpc hfeeds hl

end ProtocolRun

end Gearman.Worker

import Gearman.Client.Verify.Reconnect
import Gearman.Protocol.Verify.Codec
import Gearman.Worker.Verify.Conformance

/-!
# What the server hears

Both ends of a connection are modelled by the packets that are written; the server
gets bytes, in whatever chunks, and of the last packets perhaps only a part. It
decodes one packet for each that was written, in order, and never loses the frame:
a NUL in an argument that is not the last moves the bounds of arguments, but only
within its own packet. Without such a NUL the server hears what was written.
-/

namespace Gearman

open Protocol Client Worker
open GearmanCodec (frame)

/-! ## One packet -/

/-- The packet a peer decodes from the bytes of a packet. -/
def Protocol.Packet.heard (pkt : Packet) : Packet :=
  match Packet.splitArgs pkt.ptype (Delimited.join 0 pkt.args) with
  | .ok args => { pkt with args := args }
  | .error _ => pkt

/-- As many arguments as there are can be split off again, if not the same ones. -/
theorem exists_splitArgs_join {pkt : Packet} (h : pkt.args.length = pkt.ptype.argCount) :
    ∃ args, Packet.splitArgs pkt.ptype (Delimited.join 0 pkt.args) = .ok args := by
  unfold Packet.splitArgs
  by_cases hcount : pkt.ptype.argCount = 0
  · rw [hcount] at h
    rw [if_pos hcount, List.length_eq_zero_iff.mp h]
    exact ⟨[], rfl⟩
  · rw [if_neg hcount]
    have hseps := Delimited.length_le_count_join (0 : UInt8) pkt.args
    have hsplit : ∃ args, Delimited.split 0 (pkt.ptype.argCount - 1)
        (Delimited.join 0 pkt.args) = some args := Delimited.exists_split (by omega)
    obtain ⟨args, hargs⟩ := hsplit
    exact ⟨args, Packet.splitLoop_eq_ok.mpr hargs⟩

/-- What is heard of a packet has its bytes, and is a packet that survives the wire. -/
theorem heard_spec {pkt : Packet} (h : GearmanCodec.new.Accepts pkt) :
    GearmanCodec.new.Admissible pkt.heard ∧ frame pkt.heard = frame pkt ∧
      pkt.heard.magic = pkt.magic ∧ pkt.heard.ptype = pkt.ptype := by
  obtain ⟨args, hargs⟩ := exists_splitArgs_join h.count
  obtain ⟨hlayout, hjoin⟩ := (Packet.splitArgs_eq_ok pkt.magic).mp hargs
  have hheard : pkt.heard = ⟨pkt.magic, pkt.ptype, args⟩ := by
    rw [Packet.heard, hargs]
  have hlength : Packet.encodedBodyLen ⟨pkt.magic, pkt.ptype, args⟩ = pkt.encodedBodyLen := by
    rw [Packet.encodedBodyLen_eq, Packet.encodedBodyLen_eq, hjoin]
  rw [hheard]
  refine ⟨⟨hlayout, ?_⟩, ?_, rfl, rfl⟩
  · rw [hlength]
    exact h.fits
  · rw [GearmanCodec.frame_eq, GearmanCodec.frame_eq, hlength, hjoin]

/-- Exactly a packet that survives the wire is heard as it is. -/
theorem heard_eq_self_iff {pkt : Packet} (h : GearmanCodec.new.Accepts pkt) :
    pkt.heard = pkt ↔ pkt.Layout := by
  constructor
  · intro heq
    exact heq ▸ (heard_spec h).1.layout
  · intro hlayout
    rw [Packet.heard, (Packet.splitArgs_eq_ok pkt.magic).mpr ⟨hlayout, rfl⟩]

/-! ## What is written on a connection -/

/-- All packets are accepted by the codec and of a kind. -/
def Carried (P : Packet → Prop) (written : List Packet) : Prop :=
  ∀ pkt ∈ written, GearmanCodec.new.Accepts pkt ∧ P pkt

/-- What has been decoded of the bytes that have arrived, in whatever chunks they
came in: what is heard of each packet that has arrived in full, of no other, and
no error. What has arrived of the next packet is kept. -/
def Understood (hear : Packet → Packet) (written : List Packet) : Prop :=
  ∀ chunks : List Bytes, chunks.flatten <+: written.flatMap frame →
    ∃ rest, Incremental.feedAll GearmanCodec.new.decode chunks =
        ⟨(Incremental.inFull frame written chunks.flatten.length).map hear, none, rest⟩ ∧
      chunks.flatten =
        (Incremental.inFull frame written chunks.flatten.length).flatMap frame ++ rest

/-- Once all has arrived, all is heard. -/
theorem Understood.all {hear : Packet → Packet} {written : List Packet} {chunks : List Bytes}
    (h : Understood hear written) (hall : chunks.flatten = written.flatMap frame) :
    Incremental.feedAll GearmanCodec.new.decode chunks = ⟨written.map hear, none, []⟩ := by
  obtain ⟨rest, hdecoded, hbytes⟩ := h chunks (hall ▸ List.prefix_rfl)
  have hfull : Incremental.inFull frame written chunks.flatten.length = written :=
    Incremental.inFull_all (Nat.le_of_eq (congrArg List.length hall.symm))
  rw [hfull] at hdecoded hbytes
  have hrest : rest = [] := by
    rw [hall] at hbytes
    exact List.append_right_eq_self.mp hbytes.symm
  rw [hdecoded, hrest]

namespace Carried

variable {P : Packet → Prop} {written : List Packet}

theorem understood (h : Carried P written) : Understood Packet.heard written := by
  intro chunks harrived
  have hadm : ∀ pkt ∈ written.map Packet.heard, GearmanCodec.new.Admissible pkt := by
    intro pkt hpkt
    obtain ⟨p, hp, rfl⟩ := List.mem_map.mp hpkt
    exact (heard_spec (h p hp).1).1
  have hframe : ∀ pkt ∈ written, frame pkt.heard = frame pkt := fun pkt hpkt =>
    (heard_spec (h pkt hpkt).1).2.1
  have hframes : ∀ {pkts : List Packet}, (∀ pkt ∈ pkts, pkt ∈ written) →
      (pkts.map Packet.heard).flatMap frame = pkts.flatMap frame := by
    intro pkts hpkts
    rw [List.flatMap_map]
    exact List.flatMap_congr fun pkt hpkt => hframe pkt (hpkts pkt hpkt)
  rw [← hframes fun _ hpkt => hpkt] at harrived
  obtain ⟨rest, hdrain, hbytes⟩ :=
    GearmanCodec.new.decode_stable.drain_prefix GearmanCodec.new.decode_nil
      (fun pkt hpkt x => GearmanCodec.decode_frame (hadm pkt hpkt) x)
      (fun pkt hpkt pre hpre hlt => GearmanCodec.decode_prefix (hadm pkt hpkt) hpre hlt) harrived
  rw [Incremental.inFull_map Packet.heard hframe] at hdrain hbytes
  refine ⟨rest, ?_, ?_⟩
  · rw [GearmanCodec.new.decode_stable.feedAll_eq GearmanCodec.new.decode_nil, hdrain]
  · rw [← hframes fun _ hpkt => (Incremental.inFull_prefix _ _).subset hpkt]
    exact hbytes

theorem understood_as_is (h : Carried Packet.Layout written) : Understood id written := by
  intro chunks harrived
  obtain ⟨rest, hdecoded, hbytes⟩ := h.understood chunks harrived
  refine ⟨rest, ?_, hbytes⟩
  rw [hdecoded]
  have hmap : (Incremental.inFull frame written chunks.flatten.length).map Packet.heard =
      (Incremental.inFull frame written chunks.flatten.length).map id := by
    apply List.map_congr_left
    intro pkt hpkt
    obtain ⟨hacc, hlayout⟩ := h pkt ((Incremental.inFull_prefix _ _).subset hpkt)
    exact (heard_eq_self_iff hacc).mpr hlayout
  rw [hmap]

end Carried

def Connection.Carries (P : Packet → Prop) (conn : Connection) : Prop := Carried P conn.written

theorem Connection.carries_fromStream {P : Packet → Prop} : Connection.fromStream.Carries P :=
  fun _ h => absurd h List.not_mem_nil

theorem Connection.Carries.send {P : Packet → Prop} {conn : Connection} (h : conn.Carries P)
    {pkt : Packet} (hpkt : P pkt) (io : Io) : (conn.send pkt io).2.Carries P := by
  rcases conn.send_cases pkt io with ⟨hacc, -, -, hsend⟩ | ⟨e, b, hsend, -⟩
  · rw [hsend]
    intro p hp
    rcases List.mem_append.mp hp with hp | hp
    · exact h p hp
    · obtain rfl := List.mem_singleton.mp hp
      exact ⟨hacc, hpkt⟩
  · rw [hsend]
    exact h

/-! ## The client -/

section client

variable {P : Packet → Prop} {withExceptions : Bool} {a a' : Actor} {i : ActorInput}
  {es : List Effect}

/-- The connection of a server actor, and the commands in its queue. -/
structure Client.Actor.Carries (P : Packet → Prop) (a : Actor) : Prop where
  conn : ∀ conn, a.phase.conn = some conn → conn.Carries P
  queue : ∀ cmd ∈ a.queue, P cmd.packet

/-- The commands that are queued are of a kind. -/
def Client.ActorInput.Queues (P : Packet → Prop) (i : ActorInput) : Prop :=
  ∀ cmd ∈ i.queued, P cmd.packet

theorem carries_actorLoop {conn conn' : Connection} {s s' : LoopState} {j : LoopInput}
    (hconn : conn.Carries P) (htaken : ∀ cmd ∈ j.taken, P cmd.packet)
    (h : actorLoop conn s j = (.next conn' s', es)) : conn'.Carries P := by
  cases j with
  | tick closed =>
    cases h
    exact hconn
  | command cmd io =>
    cases cmd with
    | none => cases h
    | some cmd =>
      have hsent := hconn.send (htaken cmd List.mem_cons_self) io
      rcases hsend : conn.send cmd.packet io with ⟨_ | _, conn''⟩
      · simp only [actorLoop, hsend] at h
        cases h
      · simp only [actorLoop, hsend] at h
        cases h
        rw [hsend] at hsent
        exact hsent
  | recv pkt =>
    rcases pkt with e | _ | packet
    · cases h
    · cases h
    · cases h
      exact hconn

/-- An iteration of `actor_loop` writes at most the command it takes. -/
theorem carries_iterate {conn : Connection} {s : LoopState} {j : LoopInput}
    {queue : List ClientCommand} (hconn : conn.Carries P)
    (htaken : ∀ cmd ∈ j.taken, P cmd.packet) (hqueue : ∀ cmd ∈ queue, P cmd.packet) :
    ({ a with queue := queue }.iterate conn s j).1.Carries P := by
  unfold Actor.iterate
  rcases hloop : actorLoop conn s j with ⟨⟨conn', s'⟩ | outcome, es⟩
  · refine ⟨fun c hc => ?_, hqueue⟩
    cases hc
    exact carries_actorLoop hconn htaken hloop
  · exact ⟨fun c hc => (by cases hc), hqueue⟩

theorem carries_actor (hoption : P optionReq) (ha : a.Carries P) (hi : i.Queues P)
    (h : a.step withExceptions i = some (a', es)) : a'.Carries P := by
  have hphase : ∀ {conn}, a.phase.conn = some conn → conn.Carries P := fun hconn =>
    ha.conn _ hconn
  cases Actor.steps_of_step h with
  | queue _ =>
    refine ⟨ha.conn, fun cmd hcmd => ?_⟩
    rcases List.mem_append.mp hcmd with hcmd | hcmd
    · exact ha.queue cmd hcmd
    · exact hi cmd hcmd
  | dropSenders => exact ⟨ha.conn, ha.queue⟩
  | refused _ | unasked _ _ | unnegotiated _ _ | dropped _ | lost _ | settle _ | slept _ =>
    exact ⟨fun conn hconn => (by cases hconn), ha.queue⟩
  | negotiate _ _ | connected _ _ =>
    refine ⟨fun conn hconn => ?_, ha.queue⟩
    cases hconn
    exact Connection.carries_fromStream
  | @asked conn conn' io hp hsend =>
    refine ⟨fun conn'' hconn => ?_, ha.queue⟩
    cases hconn
    have hcarries := (ha.conn conn (by rw [hp]; rfl)).send hoption io
    rw [hsend] at hcarries
    exact hcarries
  | negotiated hp _ | ready hp | enter hp =>
    refine ⟨fun conn hconn => ?_, ha.queue⟩
    cases hconn
    exact hphase (by rw [hp]; rfl)
  | recv hp | tick hp | close hp _ _ =>
    exact carries_iterate (hphase (by rw [hp]; rfl)) (fun _ h => absurd h List.not_mem_nil) ha.queue
  | command hp hq =>
    have hqueue := ha.queue
    rw [hq, List.forall_mem_cons] at hqueue
    refine carries_iterate (hphase (by rw [hp]; rfl)) (fun cmd hcmd => ?_) hqueue.2
    obtain rfl := List.mem_singleton.mp hcmd
    exact hqueue.1

/-- The actor's connection and all it has given up. -/
structure Client.CarriedRun.Carries (P : Packet → Prop) (r : CarriedRun) : Prop where
  actor : r.actor.Carries P
  closed : ∀ l ∈ r.closed, Carried P l

/-- All that any of the connections carried. -/
theorem carries_connections (hoption : P optionReq) {is : List ActorInput} {r : CarriedRun}
    (his : ∀ i ∈ is, i.Queues P)
    (h : Machine.run (CarriedRun.step withExceptions) .new is = some r) :
    ∀ l ∈ r.connections, Carried P l := by
  have hcurrent : ∀ {a : Actor}, a.Carries P → ∀ l ∈ CarriedRun.current a, Carried P l := by
    intro a ha l hl
    obtain ⟨conn, hconn, rfl⟩ := List.mem_map.mp hl
    exact ha.conn conn (Option.mem_toList.mp hconn)
  have hstart : CarriedRun.new.Carries P :=
    ⟨⟨fun _ hconn => (by cases hconn), fun _ h => absurd h List.not_mem_nil⟩,
      fun _ h => absurd h List.not_mem_nil⟩
  have hr : r.Carries P := by
    refine Machine.invariant_of_meets (c := fun _ i => i.Queues P) ?_ hstart
      (Machine.meets_of_forall (fun i hi _ => his i hi) _) h
    rintro s i t ⟨hactor, hclosed⟩ hi hstep
    obtain ⟨⟨a, es⟩, ha, rfl⟩ := Option.map_eq_some_iff.mp hstep
    refine ⟨carries_actor hoption hactor hi ha, fun l hl => ?_⟩
    rcases List.mem_append.mp hl with hl | hl
    · exact hclosed l hl
    · split at hl
      · exact hcurrent hactor l hl
      · cases hl
  intro l hl
  rcases List.mem_append.mp hl with hl | hl
  · exact hr.closed l hl
  · exact hcurrent hr.actor l hl

end client

/-! ## The worker -/

section worker

variable {H : Type} {P : Packet → Prop} {mode : GrabMode}

/-- The packets that a handle is put in. -/
structure JobPackets (P : Packet → Prop) (handle : String) : Prop where
  report : ∀ report : Report, P (report.packet handle)
  response : ∀ outcome, P (jobResponse handle outcome)

/-- The packets that the loop makes up itself. -/
structure OwnPackets (P : Packet → Prop) (mode : GrabMode) : Prop where
  cantDo : ∀ function, P (.request .cantDo [asBytes function])
  grab : P (.request mode.grabType [])
  preSleep : P (.request .preSleep [])

/-- What the loop has in hand to write. -/
def InHand (P : Packet → Prop) : GrabPc H → Prop
  | .dispatch pkt => JobPackets P (assignedJob pkt).handle
  | .running _ job => JobPackets P job.handle
  | .respond response => P response
  | _ => True

structure Worker.GrabLoop.Carries (P : Packet → Prop) (l : GrabLoop H) : Prop where
  conn : l.conn.Carries P
  inHand : InHand P l.pc
  reporters : ∀ handle ∈ l.reporters, JobPackets P handle

/-- The handles of the assignments that are read. -/
def Assigns (P : Packet → Prop) (received : Received) : Prop :=
  ∀ pkt, received = .ok (some pkt) → isAssign pkt.ptype = true →
    JobPackets P (assignedJob pkt).handle

namespace Worker.GrabLoop.Carries

variable {l l' : GrabLoop H} {i : GrabInput H}

theorem sendAnd (h : l.Carries P) {pkt : Packet} (hpkt : P pkt) (io : Io) {next : GrabPc H}
    (hnext : InHand P next) : (l.sendAnd pkt io next).Carries P :=
  ⟨h.conn.send hpkt io, hnext, h.reporters⟩

theorem sendOr (h : l.Carries P) {pkt : Packet} (hpkt : P pkt) (io : Io) {next : GrabPc H}
    (hnext : InHand P next) : (l.sendOr pkt io next).Carries P := by
  have hsent := h.conn.send hpkt io
  unfold GrabLoop.sendOr
  rcases hsend : l.conn.send pkt io with ⟨_ | _, conn⟩ <;> rw [hsend] at hsent
  · exact ⟨hsent, trivial, h.reporters⟩
  · exact ⟨hsent, hnext, h.reporters⟩

theorem step (hown : OwnPackets P mode) (hl : l.Carries P)
    (hassigns : ∀ received, i = .recv received → Assigns P received)
    (h : l.step mode i = some l') : l'.Carries P := by
  have hinHand := hl.inHand
  cases GrabLoop.steps_of_step h with
  | report hmem => exact hl.sendAnd ((hl.reporters _ hmem).report _) _ hinHand
  | @shutdown set _ => exact ⟨hl.conn, by cases set <;> trivial, hl.reporters⟩
  | withdraw _ => exact hl.sendOr (hown.cantDo _) _ trivial
  | lagged _ => exact hl
  | flushed _ | lost _ _ | wake _ | changed _ => exact ⟨hl.conn, trivial, hl.reporters⟩
  | grab _ => exact hl.sendOr hown.grab _ trivial
  | @answer pkt _ =>
    refine ⟨hl.conn, ?_, hl.reporters⟩
    unfold GrabLoop.onAnswer
    split
    · exact hassigns _ rfl pkt rfl ‹_›
    · split <;> trivial
  | unregistered hpc _ =>
    rw [hpc] at hinHand
    exact ⟨hl.conn, hinHand.response (.error .fail), hl.reporters⟩
  | registered hpc _ =>
    rw [hpc] at hinHand
    refine ⟨hl.conn, hinHand, fun handle hmem => ?_⟩
    rcases List.mem_append.mp hmem with hmem | hmem
    · exact hl.reporters handle hmem
    · rw [List.mem_singleton.mp hmem]
      exact hinHand
  | @returned handler job outcome hpc =>
    rw [hpc] at hinHand
    exact ⟨hl.conn, hinHand.response outcome, hl.reporters⟩
  | respond hpc =>
    rw [hpc] at hinHand
    exact hl.sendAnd hinHand _ trivial
  | preSleep _ => exact hl.sendOr hown.preSleep _ trivial

end Worker.GrabLoop.Carries

/-- The packets that announce functions. -/
def Announces (P : Packet → Prop) (entries : List (String × RegisteredHandler H)) : Prop :=
  ∀ e ∈ entries, P (registerPacket e.1 e.2)

/-- The connection of a task, and what it is to announce. -/
def TaskCarries (P : Packet → Prop) : ConnectionPc H → Prop
  | .connected conn | .discarding conn => conn.Carries P
  | .registering conn todo => conn.Carries P ∧ Announces P todo
  | .grabbing l => l.Carries P
  | _ => True

structure Worker.WorkerConnection.Carries (P : Packet → Prop) (s : WorkerConnection H) : Prop where
  task : TaskCarries P s.pc
  registry : Announces P s.registry.entries

theorem assigns_of_feeds {s : WorkerConnection H} {i : ConnectionInput H} {j : GrabInput H}
    {notifications : Broadcast String} {notified : Bool}
    (hassigns : ∀ received, i = .recv received → Assigns P received)
    (h : s.Feeds i j notifications notified) :
    ∀ received, j = .recv received → Assigns P received := by
  intro received hj
  cases h with
  | recv pkt =>
    cases hj
    exact hassigns _ rfl
  | borrow | sent _ | tryRecv _ | lookup | returned _ | report _ _ _ | changed _ _ => cases hj

theorem carries_task (hown : OwnPackets P mode) {s s' : WorkerConnection H} {i : ConnectionInput H}
    (hs : s.Carries P) (hassigns : ∀ received, i = .recv received → Assigns P received)
    (h : s.step mode i = some s') : s'.Carries P := by
  have htask := hs.task
  cases WorkerConnection.steps_of_step h with
  | shutdown _ | broadcast _ | discard _ _ => exact ⟨htask, hs.registry⟩
  | remove _ => exact ⟨htask, fun e he => hs.registry e (List.mem_of_mem_filter he)⟩
  | borrow _ =>
    refine ⟨?_, hs.registry⟩
    dsimp only
    split <;> trivial
  | @connect ok _ =>
    refine ⟨?_, hs.registry⟩
    cases ok
    · trivial
    · exact Connection.carries_fromStream
  | dial _ | unregistered _ _ | stop _ _ _ | elapsed _ | shuttingDown _ _ | connectionLost _ _ =>
    exact ⟨trivial, hs.registry⟩
  | lock hpc =>
    rw [hpc] at htask
    exact ⟨⟨htask, hs.registry⟩, hs.registry⟩
  | @registered conn conn' name reg todo io hpc hsend =>
    rw [hpc] at htask
    obtain ⟨hconn, hannounces⟩ := htask
    unfold Announces at hannounces
    rw [List.forall_mem_cons] at hannounces
    have hsent := hconn.send hannounces.1 io
    rw [hsend] at hsent
    exact ⟨⟨hsent, hannounces.2⟩, hs.registry⟩
  | unlock hpc =>
    rw [hpc] at htask
    exact ⟨htask.1, hs.registry⟩
  | enter hpc _ =>
    rw [hpc] at htask
    exact ⟨⟨htask, trivial, fun _ h => absurd h List.not_mem_nil⟩, hs.registry⟩
  | grab hpc hfeeds hl =>
    rw [hpc] at htask
    exact ⟨htask.step hown (assigns_of_feeds hassigns hfeeds) hl, hs.registry⟩

/-- All that the connection of a task carries. -/
theorem carries_connection (hown : OwnPackets P mode) {registry : Registry H}
    (hregistry : Announces P registry.entries) {is : List (ConnectionInput H)}
    {s : WorkerConnection H} (his : ∀ i ∈ is, ∀ received, i = .recv received → Assigns P received)
    (h : Machine.run (WorkerConnection.step mode) (.start registry) is = some s)
    {conn : Connection} (hconn : s.pc.conn = some conn) : Carried P conn.written := by
  have hstart : (WorkerConnection.start registry).Carries P := ⟨trivial, hregistry⟩
  have hs : s.Carries P :=
    Machine.invariant_of_meets
      (c := fun _ i => ∀ received, i = .recv received → Assigns P received)
      (fun _ _ _ hs hi hstep => carries_task hown hs hi hstep) hstart
      (Machine.meets_of_forall (fun i hi _ => his i hi) _) h
  have htask := hs.task
  rcases hpc : s.pc <;> rw [hpc] at htask hconn <;> cases hconn
  · exact htask
  · exact htask.1
  · exact htask
  · exact htask.conn

end worker

/-! ## Both ends -/

/-- **The wire keeps packets apart.** In every run of a server actor, on each of its
connections, and in every run of a worker's task, whatever part of what was written
has arrived and in whatever chunks, the server decodes from it one packet for each
that has arrived in full, in order, and no error; each has the magic and the type of
the one that was written, and is this very packet if and only if that has as many
arguments as its type asks for and no NUL in any but the last. -/
theorem wire_keeps_packets_apart :
    (∀ (withExceptions : Bool) (is : List ActorInput) (r : CarriedRun),
      Machine.run (CarriedRun.step withExceptions) .new is = some r →
        ∀ l ∈ r.connections, Understood Packet.heard l) ∧
    (∀ (H : Type) (mode : GrabMode) (registry : Registry H) (is : List (ConnectionInput H))
      (s : WorkerConnection H),
      Machine.run (WorkerConnection.step mode) (.start registry) is = some s →
        ∀ conn, s.pc.conn = some conn → Understood Packet.heard conn.written) ∧
    ∀ pkt : Packet, GearmanCodec.new.Accepts pkt →
      pkt.heard.magic = pkt.magic ∧ pkt.heard.ptype = pkt.ptype ∧
        (pkt.heard = pkt ↔ pkt.Layout) := by
  refine ⟨fun withExceptions is r h l hl => ?_, fun H mode registry is s h conn hconn => ?_,
    fun pkt hacc => ?_⟩
  · have hany : ∀ i ∈ is, i.Queues fun _ => True := fun _ _ _ _ => trivial
    exact (carries_connections trivial hany h l hl).understood
  · have hjob : ∀ handle, JobPackets (fun _ => True) handle := fun _ =>
      ⟨fun _ => trivial, fun _ => trivial⟩
    have hcarried := carries_connection ⟨fun _ => trivial, trivial, trivial⟩
      (fun _ _ => trivial) (fun _ _ _ _ pkt _ _ => hjob _) h hconn
    exact hcarried.understood
  · exact ⟨(heard_spec hacc).2.2.1, (heard_spec hacc).2.2.2, heard_eq_self_iff hacc⟩

theorem wire_keeps_packets_apart_lostBetween :
    ∃ r, Machine.run (CarriedRun.step true) .new CarriedRun.lostBetween = some r ∧
      r.connections.length = 2 ∧ ∀ l ∈ r.connections, Understood Packet.heard l := by
  have hrun : Machine.run (CarriedRun.step true) .new CarriedRun.lostBetween = some _ := rfl
  exact ⟨_, hrun, rfl, wire_keeps_packets_apart.1 true _ _ hrun⟩

theorem nulFree_handle {pkt : Packet} (hlayout : pkt.Layout) (hassign : isAssign pkt.ptype = true) :
    (0 : UInt8) ∉ asBytes (assignedJob pkt).handle := by
  have hcount : 1 < pkt.args.length := by
    rw [hlayout.count]
    cases hptype : pkt.ptype <;> rw [hptype] at hassign <;> first | decide | cases hassign
  obtain ⟨magic, ptype, args⟩ := pkt
  rcases args with _ | ⟨a, _ | ⟨b, args⟩⟩
  · exact absurd hcount (Nat.not_lt_zero _)
  · exact absurd hcount (Nat.lt_irrefl _)
  · have hfree := hlayout.nulFree a List.mem_cons_self
    change (0 : UInt8) ∉ asBytes ((fromUtf8 a).getD "")
    rcases hstring : fromUtf8 a with _ | s
    · exact List.not_mem_nil
    · rw [fromUtf8_eq_some.mp hstring] at hfree
      exact hfree

theorem jobPackets_layout {handle : String} (h : (0 : UInt8) ∉ asBytes handle) :
    JobPackets Packet.Layout handle where
  report report := by
    cases report <;>
      exact ⟨rfl, by simp [Report.packet, Packet.request, h, nul_notMem_decimal]⟩
  response outcome := by
    rcases outcome with ⟨_ | _⟩ | _ <;> exact ⟨rfl, by simp [jobResponse, Packet.request, h]⟩

theorem ownPackets_layout (mode : GrabMode) : OwnPackets Packet.Layout mode where
  cantDo function := ⟨rfl, fun _ h => absurd h List.not_mem_nil⟩
  grab := ⟨by cases mode <;> rfl, fun _ h => absurd h List.not_mem_nil⟩
  preSleep := ⟨rfl, fun _ h => absurd h List.not_mem_nil⟩

theorem layout_registerPacket {H : Type} {name : String} {reg : RegisteredHandler H}
    (h : reg.timeout = none ∨ (0 : UInt8) ∉ asBytes name) : (registerPacket name reg).Layout := by
  unfold registerPacket
  rcases hreg : reg.timeout with _ | timeout
  · exact ⟨rfl, fun _ h => absurd h List.not_mem_nil⟩
  · rw [hreg] at h
    have hname := h.resolve_left (Option.some_ne_none _)
    exact ⟨rfl, by simp [Packet.request, hname]⟩

/-- **The server hears what was written**, whatever part of it has arrived and in
whatever chunks: on each connection of a server actor if the commands queued have no
NUL in an argument but the last; from a worker's task if no function registered with
a timeout has one in its name, and the packets it reads are decoded ones. -/
theorem server_hears_what_is_written :
    (∀ (withExceptions : Bool) (is : List ActorInput) (r : CarriedRun),
      (∀ i ∈ is, i.Queues Packet.Layout) →
      Machine.run (CarriedRun.step withExceptions) .new is = some r →
        ∀ l ∈ r.connections, Understood id l) ∧
    ∀ (H : Type) (mode : GrabMode) (registry : Registry H) (is : List (ConnectionInput H))
      (s : WorkerConnection H),
      (∀ e ∈ registry.entries, e.2.timeout = none ∨ (0 : UInt8) ∉ asBytes e.1) →
      (∀ pkt, ConnectionInput.recv (.ok (some pkt)) ∈ is → pkt.Layout) →
      Machine.run (WorkerConnection.step mode) (.start registry) is = some s →
        ∀ conn, s.pc.conn = some conn → Understood id conn.written := by
  constructor
  · intro withExceptions is r hqueued h l hl
    have hoption : optionReq.Layout := by decide
    exact (carries_connections hoption hqueued h l hl).understood_as_is
  · intro H mode registry is s hnames hdecoded h conn hconn
    have hassigns : ∀ i ∈ is, ∀ received, i = .recv received → Assigns Packet.Layout received := by
      rintro i hi received rfl pkt rfl hassign
      exact jobPackets_layout (nulFree_handle (hdecoded pkt hi) hassign)
    have hregistry : Announces Packet.Layout registry.entries := fun e he =>
      layout_registerPacket (hnames e he)
    exact (carries_connection (ownPackets_layout mode) hregistry hassigns h hconn).understood_as_is

theorem server_hears_what_is_written_busyShutdown :
    ∃ s conn, Machine.run (WorkerConnection.step .uniq)
        (.start (Registry.empty.register "echo" ())) (ShutdownRun.busyShutdown.take 15) = some s ∧
      s.pc.conn = some conn ∧ conn.written.length = 3 ∧
      Incremental.feedAll GearmanCodec.new.decode (conn.written.map frame) =
        ⟨conn.written, none, []⟩ := by
  obtain ⟨s, conn, hrun, hconn, hlength⟩ : ∃ s conn, Machine.run (WorkerConnection.step .uniq)
        (.start (Registry.empty.register "echo" ())) (ShutdownRun.busyShutdown.take 15) = some s ∧
      s.pc.conn = some conn ∧ conn.written.length = 3 := ⟨_, _, rfl, rfl, rfl⟩
  have hunderstood : Understood id conn.written := by
    apply server_hears_what_is_written.2 Unit .uniq _ _ _ ?_ ?_ hrun _ hconn
    · intro e he
      obtain rfl := List.mem_singleton.mp he
      exact .inl rfl
    · intro pkt hpkt
      simp only [ShutdownRun.busyShutdown, List.take_succ_cons, List.mem_cons, reduceCtorEq,
        ConnectionInput.recv.injEq, Except.ok.injEq, Option.some.injEq, false_or, List.take_zero,
        List.not_mem_nil, or_false] at hpkt
      rw [hpkt]
      decide
  refine ⟨s, conn, hrun, hconn, hlength, ?_⟩
  rw [hunderstood.all List.flatMap_def.symm, List.map_id]

end Gearman

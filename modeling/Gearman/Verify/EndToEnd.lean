import Gearman.Client.Verify.Incoming
import Gearman.Lib.Machine
import Gearman.Protocol.Verify.Stream
import Gearman.Verify.Text
import Gearman.Worker.GrabLoop

/-!
# Worker and client agree

One job from its assignment to its last event. The server hands a submission to
a worker in the layout of the worker's grab mode, and passes each `WORK_*`
request of the worker on to the client as a response. The worker packs reports
and results, the codec carries them, the client takes them apart: the positions
of the arguments and the text of the numbers have to agree.
-/

namespace Gearman

open Protocol Client Worker

/-! ## The server's part -/

/-- A submission under the handle the server gave it. -/
structure Submitted where
  handle : String
  function : String
  unique : String
  reducer : String
  payload : Bytes
  deriving DecidableEq, Repr

namespace Submitted

/-- The assignment in the layout of a grab mode. -/
def assign (job : Submitted) : GrabMode → Packet
  | .plain => .response .jobAssign [asBytes job.handle, asBytes job.function, job.payload]
  | .uniq =>
    .response .jobAssignUniq
      [asBytes job.handle, asBytes job.function, asBytes job.unique, job.payload]
  | .all =>
    .response .jobAssignAll
      [asBytes job.handle, asBytes job.function, asBytes job.unique, asBytes job.reducer,
        job.payload]

/-- The job as a handler is to get it: what the layout carries. -/
def delivered (job : Submitted) (mode : GrabMode) : WorkerJob where
  handle := job.handle
  function := job.function
  unique :=
    match mode with
    | .plain => none
    | .uniq | .all => some job.unique
  reducer :=
    match mode with
    | .plain | .uniq => none
    | .all => some job.reducer
  payload := job.payload

/-- None of the strings contains the separator. -/
def NulFree (job : Submitted) : Prop :=
  ∀ s ∈ [job.handle, job.function, job.unique, job.reducer], (0 : UInt8) ∉ asBytes s

instance (job : Submitted) : Decidable job.NulFree :=
  inferInstanceAs (Decidable (∀ s ∈ [_, _, _, _], _))

end Submitted

/-- A `WORK_*` request as the server passes it on. -/
def forwarded (pkt : Packet) : Packet := .response pkt.ptype pkt.args

/-! ## What is to arrive -/

/-- The event a report is meant for. -/
def Worker.Report.event : Report → JobEvent
  | status numerator denominator => .status numerator denominator
  | data bytes => .data bytes
  | warning bytes => .warning bytes

/-- The event the result of a handler is meant for. -/
def resultEvent : Except WorkError Bytes → JobEvent
  | .ok payload => .complete payload
  | .error .fail => .fail
  | .error (.exception payload) => .exception payload

/-! ## The wire -/

/-- The packets decoded from the encodings of the packets sent, which arrive in
the chunks that the network cuts them into. -/
def transmitted (cut : Bytes → List Bytes) (pkts : List Packet) : List Packet :=
  match GearmanCodec.new.encodeAll pkts [] with
  | (.ok (), bytes) => (Incremental.feedAll GearmanCodec.new.decode (cut bytes)).items
  | (.error _, _) => []

theorem transmitted_eq {cut : Bytes → List Bytes} (hcut : ∀ bytes, (cut bytes).flatten = bytes)
    {pkts : List Packet} (h : ∀ pkt ∈ pkts, GearmanCodec.new.Admissible pkt) :
    transmitted cut pkts = pkts := by
  have hencode := GearmanCodec.encodeAll_of_accepts (fun pkt hpkt => (h pkt hpkt).accepts) []
  have hdrain := GearmanCodec.drain_frames h []
  rw [List.append_nil] at hdrain
  rw [transmitted, hencode, List.nil_append]
  dsimp only
  rw [GearmanCodec.new.decode_stable.feedAll_eq GearmanCodec.new.decode_nil, hcut, hdrain,
    Incremental.drain_more GearmanCodec.new.decode_nil]
  exact List.append_nil _

/-- What the packets do, one after another, at a client. -/
def heard : List Packet → LoopState → List Effect
  | [], _ => []
  | pkt :: pkts, s => (handleIncoming pkt s).2 ++ heard pkts (handleIncoming pkt s).1

/-! ## The worker -/

section

variable {H : Type} {mode : GrabMode} {registry : Registry H} {job : Submitted}

theorem admissible_assign (hnul : job.NulFree)
    (hfits : (job.assign mode).encodedBodyLen ≤ GearmanCodec.new.maxPayloadSize.toNat) :
    GearmanCodec.new.Admissible (job.assign mode) := by
  obtain ⟨hhandle, hfunction, hunique, hreducer⟩ : _ ∧ _ ∧ _ ∧ _ := by
    simpa [Submitted.NulFree] using hnul
  refine ⟨⟨?_, ?_⟩, hfits⟩
  · cases mode <;> rfl
  · cases mode <;> simp [Submitted.assign, Packet.response, hhandle, hfunction, hunique, hreducer]

/-- `dispatch_job` finds every field where the layout has it. -/
theorem assignedJob_assign (job : Submitted) (mode : GrabMode) :
    assignedJob (job.assign mode) = job.delivered mode := by
  cases mode <;>
    simp [assignedJob, Submitted.assign, Submitted.delivered, Packet.response, Packet.argStr,
      Packet.arg]

/-- The handler registered for the function gets the job. -/
theorem run_assigned {reg : RegisteredHandler H} (hreg : registry.get job.function = some reg)
    (conn : Connection) (reporters : List String) :
    Machine.run (GrabLoop.step mode) ⟨.answer, conn, reporters⟩
        [.recv (.ok (some (job.assign mode))), .registry registry] =
      some ⟨.running reg.handler (job.delivered mode), conn, reporters ++ [job.handle]⟩ := by
  have hanswer : GrabLoop.onAnswer (H := H) (job.assign mode) = .dispatch (job.assign mode) := by
    cases mode <;> rfl
  have hfunction : (job.delivered mode).function = job.function := rfl
  simp only [Machine.run_cons, GrabLoop.step, Option.bind_some, hanswer, assignedJob_assign,
    hfunction, hreg, Option.map_some, Machine.run_nil]
  rfl

theorem admissible_report {report : Report} {handle : String} (hnul : (0 : UInt8) ∉ asBytes handle)
    (hfits : (report.packet handle).encodedBodyLen ≤ GearmanCodec.new.maxPayloadSize.toNat) :
    GearmanCodec.new.Admissible (report.packet handle) := by
  refine ⟨⟨?_, ?_⟩, hfits⟩
  · cases report <;> rfl
  · cases report <;> simp [Report.packet, Packet.request, hnul, nul_notMem_decimal]

theorem admissible_jobResponse {outcome : Except WorkError Bytes} {handle : String}
    (hnul : (0 : UInt8) ∉ asBytes handle)
    (hfits : (jobResponse handle outcome).encodedBodyLen ≤
      GearmanCodec.new.maxPayloadSize.toNat) :
    GearmanCodec.new.Admissible (jobResponse handle outcome) := by
  refine ⟨⟨?_, ?_⟩, hfits⟩
  · rcases outcome with ⟨_ | _⟩ | _ <;> rfl
  · rcases outcome with ⟨_ | _⟩ | _ <;> simp [jobResponse, Packet.request, hnul]

/-- The reports of a handler are written in order while it runs. -/
theorem run_reports {handler : H} {j : WorkerJob} {tried written : List Packet}
    {handle : String} {reporters : List String} (hmem : handle ∈ reporters)
    {reports : List Report}
    (h : ∀ report ∈ reports, GearmanCodec.new.Accepts (report.packet handle)) :
    Machine.run (GrabLoop.step mode) ⟨.running handler j, ⟨tried, written, false⟩, reporters⟩
        (reports.map fun report => .report handle report .accepted) =
      some ⟨.running handler j,
        ⟨tried ++ reports.map (·.packet handle), written ++ reports.map (·.packet handle), false⟩,
        reporters⟩ := by
  induction reports generalizing tried written with
  | nil => simp
  | cons report reports ih =>
    rw [List.forall_mem_cons] at h
    have hstep : GrabLoop.step mode ⟨.running handler j, ⟨tried, written, false⟩, reporters⟩
        (.report handle report .accepted) =
        some ⟨.running handler j,
          ⟨tried ++ [report.packet handle], written ++ [report.packet handle], false⟩,
          reporters⟩ := by
      rw [GrabLoop.step, if_pos hmem, GrabLoop.sendAnd, Connection.send_accepted h.1 rfl]
    rw [List.map_cons, Machine.run_cons, hstep, Option.bind_some, ih h.2]
    simp

theorem run_handler (mode : GrabMode) (handler : H) {j : WorkerJob}
    (tried written : List Packet) {reporters : List String} (hmem : j.handle ∈ reporters)
    {reports : List Report} {outcome : Except WorkError Bytes}
    (h : ∀ report ∈ reports, GearmanCodec.new.Accepts (report.packet j.handle))
    (hresult : GearmanCodec.new.Accepts (jobResponse j.handle outcome)) :
    ∃ l, Machine.run (GrabLoop.step mode)
        ⟨.running handler j, ⟨tried, written, false⟩, reporters⟩
        ((reports.map fun report => .report j.handle report .accepted) ++
          [.returned outcome, .sent .accepted]) = some l ∧
      l.conn.written =
        written ++ (reports.map (·.packet j.handle) ++ [jobResponse j.handle outcome]) := by
  rw [Machine.run_append, run_reports hmem h, Option.bind_some]
  simp only [Machine.run_cons, GrabLoop.step, Option.bind_some, Machine.run_nil, GrabLoop.sendAnd]
  rw [Connection.send_accepted hresult rfl]
  exact ⟨_, rfl, List.append_assoc _ _ _⟩

end

/-! ## The client -/

section

variable {handle : String} {stream : StreamId}

theorem deliver_single (stream : StreamId) (cursor : Nat) (terminal : Bool) :
    HandleSubscribers.deliver ⟨[some stream], cursor⟩ terminal =
      (!terminal, ⟨if terminal then [] else [some stream], 0⟩, some stream) := by
  cases cursor <;> cases terminal <;> simp [HandleSubscribers.deliver, swapRemove]

/-- A `WORK_*` packet of a job with one subscriber reaches it. -/
theorem heard_work {pkt : Packet} {event : JobEvent} {s : LoopState} {cursor : Nat}
    (hwork : isWork pkt.ptype = true) (hhandle : pkt.argStr 0 = some handle)
    (hevent : jobEvent pkt = some event) (hsub : s.jobs handle = some ⟨[some stream], cursor⟩)
    (pkts : List Packet) :
    ∃ s', heard (pkt :: pkts) s = .event stream event :: heard pkts s' ∧
      (isTerminal pkt.ptype = false → s'.jobs handle = some ⟨[some stream], 0⟩) := by
  have hdispatch : dispatchWorkEvent pkt s.jobs =
      (Function.update s.jobs handle
        (if isTerminal pkt.ptype then none else some ⟨[some stream], 0⟩),
        [.event stream event]) := by
    simp only [dispatchWorkEvent, hhandle, hevent, hsub, deliver_single]
    cases isTerminal pkt.ptype <;> rfl
  refine ⟨(handleIncoming pkt s).1, ?_, fun hterminal => ?_⟩
  · rw [heard, handleIncoming_work hwork, hdispatch]
    rfl
  · rw [handleIncoming_work hwork, hdispatch, hterminal]
    exact Function.update_self _ _ _

/-- Each report is taken for what it was. -/
theorem jobEvent_report (handle : String) (report : Report) :
    jobEvent (forwarded (report.packet handle)) = some report.event := by
  cases report <;>
    simp [forwarded, Report.packet, Report.event, Packet.request, Packet.response, jobEvent,
      argU64, Packet.argStr, Packet.arg]

theorem jobEvent_jobResponse (handle : String) (outcome : Except WorkError Bytes) :
    jobEvent (forwarded (jobResponse handle outcome)) = some (resultEvent outcome) := by
  rcases outcome with ⟨_ | _⟩ | _ <;> rfl

theorem argStr_report (handle : String) (report : Report) :
    (forwarded (report.packet handle)).argStr 0 = some handle := by
  cases report <;> exact fromUtf8_asBytes handle

theorem argStr_jobResponse (handle : String) (outcome : Except WorkError Bytes) :
    (forwarded (jobResponse handle outcome)).argStr 0 = some handle := by
  rcases outcome with ⟨_ | _⟩ | _ <;> exact fromUtf8_asBytes handle

/-- The reports and the result of a job reach its subscriber in order. -/
theorem heard_handler {s : LoopState} {cursor : Nat}
    (hsub : s.jobs handle = some ⟨[some stream], cursor⟩) (reports : List Report)
    (outcome : Except WorkError Bytes) :
    heard ((reports.map (·.packet handle) ++ [jobResponse handle outcome]).map forwarded) s =
      (reports.map Report.event ++ [resultEvent outcome]).map (.event stream) := by
  induction reports generalizing s cursor with
  | nil =>
    have hwork : isWork (forwarded (jobResponse handle outcome)).ptype = true := by
      rcases outcome with ⟨_ | _⟩ | _ <;> rfl
    obtain ⟨s', hheard, -⟩ := heard_work hwork (argStr_jobResponse handle outcome)
      (jobEvent_jobResponse handle outcome) hsub []
    exact hheard
  | cons report reports ih =>
    have hwork : isWork (forwarded (report.packet handle)).ptype = true := by
      cases report <;> rfl
    have hterminal : isTerminal (forwarded (report.packet handle)).ptype = false := by
      cases report <;> rfl
    obtain ⟨s', hheard, hsub'⟩ := heard_work hwork (argStr_report handle report)
      (jobEvent_report handle report) hsub
      ((reports.map (·.packet handle) ++ [jobResponse handle outcome]).map forwarded)
    rw [List.map_cons, List.cons_append, List.map_cons, hheard, ih (hsub' hterminal)]
    rfl

end

/-! ## Both together -/

theorem admissible_forwarded {pkt : Packet} (h : GearmanCodec.new.Admissible pkt) :
    GearmanCodec.new.Admissible (forwarded pkt) :=
  ⟨⟨h.layout.count, h.layout.nulFree⟩, h.fits⟩

/-- **Worker and client agree.** The handler registered for the function of an
assigned job gets the fields of the submission that the layout carries, and what
it reports, followed by its result, is what the subscriber of the job gets. -/
theorem worker_and_client_agree {H : Type} (mode : GrabMode) (registry : Registry H)
    (job : Submitted) (conn : Connection) (reporters : List String) (reports : List Report)
    (outcome : Except WorkError Bytes) (s : LoopState) {reg : RegisteredHandler H}
    {stream : StreamId} {cursor : Nat}
    {cut : Bytes → List Bytes} (hcut : ∀ bytes, (cut bytes).flatten = bytes) (hnul : job.NulFree)
    (hassign : (job.assign mode).encodedBodyLen ≤ GearmanCodec.new.maxPayloadSize.toNat)
    (hreg : registry.get job.function = some reg) (hintact : conn.broken = false)
    (hreports : ∀ report ∈ reports,
      (report.packet job.handle).encodedBodyLen ≤ GearmanCodec.new.maxPayloadSize.toNat)
    (hresult : (jobResponse job.handle outcome).encodedBodyLen ≤
      GearmanCodec.new.maxPayloadSize.toNat)
    (hsub : s.jobs job.handle = some ⟨[some stream], cursor⟩) :
    Machine.run (GrabLoop.step mode) ⟨.answer, conn, reporters⟩
        (((transmitted cut [job.assign mode]).map fun pkt => .recv (.ok (some pkt))) ++
          [.registry registry]) =
      some ⟨.running reg.handler (job.delivered mode), conn, reporters ++ [job.handle]⟩ ∧
    ∃ l sent,
      Machine.run (GrabLoop.step mode)
          ⟨.running reg.handler (job.delivered mode), conn, reporters ++ [job.handle]⟩
          ((reports.map fun report => .report job.handle report .accepted) ++
            [.returned outcome, .sent .accepted]) =
        some l ∧
      l.conn.written = conn.written ++ sent ∧
      heard (transmitted cut ((transmitted cut sent).map forwarded)) s =
        (reports.map Report.event ++ [resultEvent outcome]).map (.event stream) := by
  have hhandle : (0 : UInt8) ∉ asBytes job.handle := hnul _ List.mem_cons_self
  have hsent : ∀ pkt ∈ reports.map (·.packet job.handle) ++ [jobResponse job.handle outcome],
      GearmanCodec.new.Admissible pkt := by
    intro pkt hpkt
    rcases List.mem_append.mp hpkt with hpkt | hpkt
    · obtain ⟨report, hreport, rfl⟩ := List.mem_map.mp hpkt
      exact admissible_report hhandle (hreports report hreport)
    · rw [List.mem_singleton.mp hpkt]
      exact admissible_jobResponse hhandle hresult
  obtain ⟨tried, written, broken⟩ := conn
  obtain rfl : broken = false := hintact
  have hmem : (job.delivered mode).handle ∈ reporters ++ [job.handle] :=
    List.mem_append_right _ List.mem_cons_self
  obtain ⟨l, hrun, hwritten⟩ :=
    run_handler mode reg.handler tried written hmem
      (fun report hreport => (admissible_report hhandle (hreports report hreport)).accepts)
      (admissible_jobResponse hhandle hresult).accepts
  refine ⟨?_, l, reports.map (·.packet job.handle) ++ [jobResponse job.handle outcome], hrun,
    hwritten, ?_⟩
  · rw [transmitted_eq hcut fun pkt hpkt =>
      List.mem_singleton.mp hpkt ▸ admissible_assign hnul hassign]
    exact run_assigned hreg ⟨tried, written, false⟩ reporters
  · rw [transmitted_eq hcut hsent, transmitted_eq hcut]
    · exact heard_handler hsub reports outcome
    · intro pkt hpkt
      obtain ⟨sent, hmem, rfl⟩ := List.mem_map.mp hpkt
      exact admissible_forwarded (hsent sent hmem)

/-- A job with a NUL in its payload, for one of two handlers, reported on at the
ends of the number range, its bytes arriving one by one. -/
theorem worker_and_client_agree_bytewise :
    let job : Submitted := ⟨"H:1", "echo", "u", "r", [0, 255]⟩
    let registry := (Registry.empty.register "echo" 1).register "reverse" 2
    let reports := [Report.status 0 18446744073709551615, .data [], .warning [0]]
    let s : LoopState := ⟨[], JobEventSubscribers.new.add "H:1" 7⟩
    let cut : Bytes → List Bytes := fun bytes => bytes.map ([·])
    Machine.run (GrabLoop.step .all) ⟨.answer, .fromStream, []⟩
        (((transmitted cut [job.assign .all]).map fun pkt => .recv (.ok (some pkt))) ++
          [.registry registry]) =
      some ⟨.running 1 (job.delivered .all), .fromStream, ["H:1"]⟩ ∧
    ∃ l sent,
      Machine.run (GrabLoop.step .all) ⟨.running 1 (job.delivered .all), .fromStream, ["H:1"]⟩
          ((reports.map fun report => .report "H:1" report .accepted) ++
            [.returned (.ok [1, 0]), .sent .accepted]) =
        some l ∧
      l.conn.written = sent ∧
      heard (transmitted cut ((transmitted cut sent).map forwarded)) s =
        [.event 7 (.status 0 18446744073709551615), .event 7 (.data []), .event 7 (.warning [0]),
          .event 7 (.complete [1, 0])] := by
  intro job registry reports s cut
  have hcut : ∀ bytes, (cut bytes).flatten = bytes := by
    intro bytes
    induction bytes with
    | nil => rfl
    | cons b bytes ih => exact congrArg (b :: ·) ih
  have hreg : registry.get job.function = some ⟨1, none⟩ := rfl
  exact worker_and_client_agree .all registry job .fromStream [] reports (.ok [1, 0]) s hcut
    (by decide) (by decide) hreg rfl (by decide) (by decide) rfl

end Gearman

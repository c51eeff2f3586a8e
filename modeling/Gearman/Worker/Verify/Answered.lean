import Gearman.Worker.Verify.GrabLoop
import Gearman.Client.Incoming
import Gearman.Protocol.Verify.Codec

/-!
# What becomes of an assignment

From the call of `dispatch_job` to the next `GRAB_JOB*`. `dispatch_job` ignores
the result of its last send, and copies the handle through a `String`. So a
response the codec refuses is dropped while the loop goes on grabbing, and a
handle that is not UTF-8 is answered as the empty one. All other assignments
are answered once under their own handle.
-/

namespace Gearman.Worker.GrabLoop

open Protocol
open Client (isTerminal)

variable {H : Type} {mode : GrabMode} {registry : Registry H} {outcome : Except WorkError Bytes}
  {pkt : Packet} {n : Nat}

/-- The terminal packets written behind the first `n` packets. -/
def terminalsSince (n : Nat) (conn : Connection) : List Packet :=
  (conn.written.drop n).filter fun w => isTerminal w.ptype

/-- The next `GRAB_JOB*` is sent, or the loop has ended. -/
def settled : GrabPc H → Bool
  | .answer | .done _ => true
  | _ => false

/-- Exactly one terminal packet, with the handle of the assignment, unless the
connection is lost. -/
def AnsweredOnce (pkt : Packet) (n : Nat) (l : GrabLoop H) : Prop :=
  (∃ w, terminalsSince n l.conn = [w] ∧ w.arg 0 = pkt.arg 0) ∨ l.pc = .done .connectionLost

/-- A step on the way to the next `GRAB_JOB*`, with the registry and the outcome
of the handler as given. Shutdown is not requested while an I/O error has kept
the response from being written. -/
def Within (registry : Registry H) (outcome : Except WorkError Bytes) (n : Nat) (l : GrabLoop H)
    (i : GrabInput H) : Prop :=
  settled l.pc = false ∧
    match i with
    | .registry r => r = registry
    | .returned o => o = outcome
    | .shutdown set => l.conn.broken = true → terminalsSince n l.conn = [] → set = false
    | _ => True

/-- The payload a handler's outcome is answered with. -/
def responsePayload : Except WorkError Bytes → Option Bytes
  | .ok payload | .error (.exception payload) => some payload
  | .error .fail => none

/-- The handle is UTF-8, and where a handler runs, the handle, a NUL and what
the handler returns fit into a packet. -/
def Answerable (pkt : Packet) (registry : Registry H) (outcome : Except WorkError Bytes) : Prop :=
  ∃ handle, pkt.argStr 0 = some handle ∧
    ((registry.get (assignedJob pkt).function).isSome → ∀ payload ∈ responsePayload outcome,
      (asBytes handle).length + 1 + payload.length ≤ defaultMaxPayloadSize.toNat)

/-- What `dispatch_job` answers. -/
def answerOf (pkt : Packet) (registry : Registry H) (outcome : Except WorkError Bytes) : Packet :=
  match registry.get (assignedJob pkt).function with
  | none => unregisteredResponse (assignedJob pkt).handle
  | some _ => jobResponse (assignedJob pkt).handle outcome

/-! ## The response -/

theorem isTerminal_answerOf (pkt : Packet) (registry : Registry H)
    (outcome : Except WorkError Bytes) :
    isTerminal (answerOf pkt registry outcome).ptype = true := by
  unfold answerOf
  split
  · rfl
  · exact isTerminal_jobResponse _ _

theorem arg_answerOf (pkt : Packet) (registry : Registry H) (outcome : Except WorkError Bytes) :
    (answerOf pkt registry outcome).arg 0 = some (asBytes (assignedJob pkt).handle) := by
  unfold answerOf
  split
  · rfl
  · rcases outcome with (_ | _) | _ <;> rfl

/-- When the codec takes the response of a handler. -/
theorem accepts_jobResponse (handle : String) (outcome : Except WorkError Bytes) :
    GearmanCodec.new.Accepts (jobResponse handle outcome) ↔
      (asBytes handle).length ≤ defaultMaxPayloadSize.toNat ∧
        ∀ payload ∈ responsePayload outcome,
          (asBytes handle).length + 1 + payload.length ≤ defaultMaxPayloadSize.toNat := by
  have hlen : (jobResponse handle outcome).encodedBodyLen =
      (asBytes handle).length + (responsePayload outcome).elim 0 fun p => 1 + p.length := by
    rcases outcome with (_ | _) | _ <;>
      simp [jobResponse, responsePayload, Packet.encodedBodyLen, Packet.request]
    all_goals omega
  have hcount : (jobResponse handle outcome).args.length =
      (jobResponse handle outcome).ptype.argCount := by
    rcases outcome with (_ | _) | _ <;> rfl
  have hcap : GearmanCodec.new.maxPayloadSize = defaultMaxPayloadSize := rfl
  constructor
  · intro hacc
    have hfits := hacc.fits
    rw [hlen, hcap] at hfits
    refine ⟨Nat.le_trans (Nat.le_add_right _ _) hfits, fun payload hpayload => ?_⟩
    rw [Option.mem_def.mp hpayload, Option.elim_some, ← Nat.add_assoc] at hfits
    exact hfits
  · intro ⟨hhandle, hpayload⟩
    refine ⟨hcount, ?_⟩
    rw [hlen, hcap]
    cases hp : responsePayload outcome with
    | none => exact hhandle
    | some payload =>
      rw [Option.elim_some, ← Nat.add_assoc]
      exact hpayload payload hp

theorem argCount_pos_of_isAssign {t : PacketType} (h : isAssign t = true) : 0 < t.argCount := by
  revert h
  cases t <;> decide

/-- The first argument of an assignment, which fits into a packet. -/
theorem arg_of_assign (hpkt : GearmanCodec.new.Admissible pkt)
    (hassign : isAssign pkt.ptype = true) :
    ∃ handle, pkt.arg 0 = some handle ∧ handle.length ≤ defaultMaxPayloadSize.toNat := by
  have hcount := hpkt.layout.count
  have hfits : pkt.encodedBodyLen ≤ defaultMaxPayloadSize.toNat := hpkt.fits
  obtain ⟨magic, ptype, args⟩ := pkt
  cases args with
  | nil => exact absurd hcount (Nat.ne_of_lt (argCount_pos_of_isAssign hassign))
  | cons handle args =>
    refine ⟨handle, rfl, Nat.le_trans ?_ hfits⟩
    simp only [Packet.encodedBodyLen, List.map_cons, List.sum_cons]
    omega

/-- An assignment is answerable exactly if the codec takes the response and the
response names the job. -/
theorem answerable_iff (hpkt : GearmanCodec.new.Admissible pkt)
    (hassign : isAssign pkt.ptype = true) :
    Answerable pkt registry outcome ↔
      GearmanCodec.new.Accepts (answerOf pkt registry outcome) ∧
        (answerOf pkt registry outcome).arg 0 = pkt.arg 0 := by
  obtain ⟨bytes, harg, hlen⟩ := arg_of_assign hpkt hassign
  rw [arg_answerOf, harg]
  constructor
  · intro ⟨handle, hstr, hfits⟩
    have hjob : (assignedJob pkt).handle = handle := by
      change (pkt.argStr 0).getD "" = handle
      rw [hstr]
      rfl
    rw [Packet.argStr, harg, Option.bind_some, fromUtf8_eq_some] at hstr
    subst hstr
    refine ⟨?_, by rw [hjob]⟩
    unfold answerOf
    rw [hjob]
    split
    · exact ⟨rfl, hlen⟩
    · next hget =>
      refine (accepts_jobResponse handle outcome).mpr ⟨hlen, hfits ?_⟩
      rw [hget]
      rfl
  · intro ⟨hacc, hhandle⟩
    obtain rfl := Option.some.inj hhandle
    refine ⟨(assignedJob pkt).handle, ?_, fun hget => ?_⟩
    · rw [Packet.argStr, harg, Option.bind_some, fromUtf8_asBytes]
    · obtain ⟨reg, hget⟩ := Option.isSome_iff_exists.mp hget
      rw [answerOf, hget] at hacc
      exact ((accepts_jobResponse _ outcome).mp hacc).2

/-! ## Answerable assignments are answered -/

/-- What has come of the assignment so far. -/
def Progress (pkt : Packet) (registry : Registry H) (response : Packet) (sent : List Packet)
    (broken : Bool) : GrabPc H → Prop
  | .dispatch p => p = pkt ∧ sent = []
  | .running _ job =>
    job = assignedJob pkt ∧ (registry.get (assignedJob pkt).function).isSome ∧ sent = []
  | .respond r => r = response ∧ sent = []
  | .head | .flush | .grab => sent = [response] ∨ sent = [] ∧ broken = true
  | .answer | .done .shuttingDown => sent = [response]
  | .done .connectionLost => True
  | .preSleep | .asleep => False

structure Underway (pkt : Packet) (registry : Registry H) (response : Packet) (n : Nat)
    (l : GrabLoop H) : Prop where
  le_written : n ≤ l.conn.written.length
  progress : Progress pkt registry response (terminalsSince n l.conn) l.conn.broken l.pc

theorem Progress.broken_mono {response : Packet} {sent : List Packet} {broken b : Bool}
    {pc : GrabPc H} (h : Progress pkt registry response sent broken pc)
    (hb : broken = true → b = true) : Progress pkt registry response sent b pc := by
  cases pc with
  | head | flush | grab =>
    rcases h with h | ⟨h, hbroken⟩
    · exact .inl h
    · exact .inr ⟨h, hb hbroken⟩
  | done o => cases o <;> exact h
  | _ => exact h

theorem terminalsSince_concat {conn : Connection} {tried : List Packet}
    (hn : n ≤ conn.written.length) (w : Packet) :
    terminalsSince n { conn with tried := tried, written := conn.written ++ [w] } =
      terminalsSince n conn ++ if isTerminal w.ptype then [w] else [] := by
  rw [terminalsSince, terminalsSince, List.drop_append_of_le_length hn, List.filter_append,
    List.filter_singleton, Bool.cond_eq_ite]

section Step

variable {l l' : GrabLoop H} {i : GrabInput H} {response : Packet}

theorem Underway.goto (hl : Underway pkt registry response n l) (pc : GrabPc H)
    (reporters : List String)
    (h : Progress pkt registry response (terminalsSince n l.conn) l.conn.broken pc) :
    Underway pkt registry response n { l with pc := pc, reporters := reporters } :=
  ⟨hl.le_written, h⟩

/-- A packet that is not terminal is written on the way. -/
theorem Underway.write (hl : Underway pkt registry response n l) {w : Packet} {pc : GrabPc H}
    (hw : isTerminal w.ptype = false)
    (h : Progress pkt registry response (terminalsSince n l.conn) l.conn.broken pc) :
    Underway pkt registry response n
      { l with
        pc := pc
        conn := { l.conn with
          tried := l.conn.tried ++ [w], written := l.conn.written ++ [w] } } := by
  refine ⟨?_, ?_⟩
  · rw [List.length_append]
    exact Nat.le_add_right_of_le hl.le_written
  · rw [terminalsSince_concat hl.le_written, hw]
    simpa using h

/-- A send that ends the loop when it fails: it gets through only on an intact
connection, and there the response has been written. -/
theorem Underway.sendOr (hl : Underway pkt registry response n l) {w : Packet} {io : Io}
    {next : GrabPc H} (hw : isTerminal w.ptype = false)
    (hpc : Progress pkt registry response (terminalsSince n l.conn) l.conn.broken .head)
    (hnext : ∀ b, Progress pkt registry response [response] b next) :
    Underway pkt registry response n (l.sendOr w io next) := by
  rcases l.sendOr_cases w io next with ⟨hintact, h⟩ | ⟨b, h⟩ <;> rw [h]
  · refine hl.write hw ?_
    rcases hpc with hsent | ⟨-, hbroken⟩
    · rw [hsent]
      exact hnext _
    · rw [hintact] at hbroken
      cases hbroken
  · exact ⟨hl.le_written, trivial⟩

/-- One step on the way. -/
theorem underway_step (hacc : GearmanCodec.new.Accepts (answerOf pkt registry outcome))
    (hl : Underway pkt registry (answerOf pkt registry outcome) n l)
    (hi : Within registry outcome n l i) (h : l.step mode i = some l') :
    Underway pkt registry (answerOf pkt registry outcome) n l' := by
  have hprogress := hl.progress
  obtain ⟨hunsettled, hi⟩ := hi
  cases steps_of_step h with
  | @report handle report io _ =>
    have hreport := isTerminal_report handle report
    rcases l.sendAnd_cases (report.packet handle) io l.pc with ⟨-, -, hsend⟩ | ⟨b, hsend, hb, -⟩ <;>
      rw [hsend]
    · exact hl.write hreport hprogress
    · exact ⟨hl.le_written, hprogress.broken_mono hb⟩
  | @shutdown set hpc =>
    rw [hpc] at hprogress
    refine hl.goto _ _ ?_
    cases set with
    | false => exact hprogress
    | true =>
      rcases hprogress with hsent | ⟨hsent, hbroken⟩
      · exact hsent
      · cases hi hbroken hsent
  | withdraw hpc =>
    rw [hpc] at hprogress
    exact hl.sendOr rfl hprogress fun b => .inl rfl
  | lagged _ => exact hl
  | flushed hpc =>
    rw [hpc] at hprogress
    exact hl.goto .grab _ hprogress
  | grab hpc =>
    rw [hpc] at hprogress
    refine hl.sendOr ?_ hprogress fun b => rfl
    cases mode <;> rfl
  | answer hpc =>
    rw [hpc] at hunsettled
    cases hunsettled
  | lost hpc _ =>
    rcases hpc with hpc | hpc
    · rw [hpc] at hunsettled
      cases hunsettled
    · rw [hpc] at hprogress
      exact hprogress.elim
  | @unregistered p r hpc hget =>
    rw [hpc] at hprogress
    obtain ⟨rfl, hsent⟩ := hprogress
    obtain rfl : r = registry := hi
    refine hl.goto (.respond _) _ ⟨?_, hsent⟩
    rw [answerOf, hget]
  | @registered p r reg hpc hget =>
    rw [hpc] at hprogress
    obtain ⟨rfl, hsent⟩ := hprogress
    obtain rfl : r = registry := hi
    exact hl.goto (.running _ _) _ ⟨rfl, Option.isSome_of_eq_some hget, hsent⟩
  | @returned _ job o hpc =>
    rw [hpc] at hprogress
    obtain ⟨rfl, hget, hsent⟩ := hprogress
    obtain rfl : o = outcome := hi
    obtain ⟨handler, hget⟩ := Option.isSome_iff_exists.mp hget
    refine hl.goto (.respond _) _ ⟨?_, hsent⟩
    rw [answerOf, hget]
  | @respond w io hpc =>
    rw [hpc] at hprogress
    obtain ⟨rfl, hsent⟩ := hprogress
    rcases l.sendAnd_cases (answerOf pkt registry outcome) io .head with
      ⟨-, -, hsend⟩ | ⟨b, hsend, -, hb⟩ <;> rw [hsend]
    · refine ⟨?_, .inl ?_⟩
      · rw [List.length_append]
        exact Nat.le_add_right_of_le hl.le_written
      · rw [terminalsSince_concat hl.le_written, hsent, isTerminal_answerOf]
        rfl
    · exact ⟨hl.le_written, .inr ⟨hsent, hb hacc⟩⟩
  | preSleep hpc | wake hpc | changed hpc =>
    rw [hpc] at hprogress
    exact hprogress.elim

/-- At the dispatch nothing has been sent yet. -/
theorem underway_of_dispatch (hpc : l.pc = .dispatch pkt) (registry : Registry H)
    (response : Packet) : Underway pkt registry response l.conn.written.length l := by
  refine ⟨Nat.le_refl _, ?_⟩
  rw [hpc]
  refine ⟨rfl, ?_⟩
  rw [terminalsSince, List.drop_length]
  rfl

theorem Underway.answered (hl : Underway pkt registry response n l)
    (hsettled : settled l.pc = true) (hhandle : response.arg 0 = pkt.arg 0) :
    AnsweredOnce pkt n l := by
  have hprogress := hl.progress
  cases hpc : l.pc with
  | answer =>
    rw [hpc] at hprogress
    exact .inl ⟨response, hprogress, hhandle⟩
  | done o =>
    cases o with
    | connectionLost => exact .inr hpc
    | shuttingDown =>
      rw [hpc] at hprogress
      exact .inl ⟨response, hprogress, hhandle⟩
  | _ =>
    rw [hpc] at hsettled
    cases hsettled

end Step

/-! ## What an intact connection does -/

theorem sendAnd_accepted (pc next : GrabPc H) (tried written : List Packet)
    (reporters : List String) (w : Packet) :
    sendAnd ⟨pc, ⟨tried, written, false⟩, reporters⟩ w .accepted next =
      ⟨next,
        ⟨tried ++ [w], written ++ if GearmanCodec.new.Accepts w then [w] else [], false⟩,
        reporters⟩ := by
  by_cases hacc : GearmanCodec.new.Accepts w
  · rw [sendAnd, Connection.send_accepted hacc rfl, if_pos hacc]
  · obtain ⟨e, h⟩ := Connection.send_refused hacc ⟨tried, written, false⟩ .accepted
    rw [sendAnd, h, if_neg hacc, List.append_nil]

theorem sendOr_accepted (pc next : GrabPc H) (tried written : List Packet)
    (reporters : List String) {w : Packet} (hacc : GearmanCodec.new.Accepts w) :
    sendOr ⟨pc, ⟨tried, written, false⟩, reporters⟩ w .accepted next =
      ⟨next, ⟨tried ++ [w], written ++ [w], false⟩, reporters⟩ := by
  rw [sendOr, Connection.send_accepted hacc rfl]

/-- The next `GRAB_JOB*` has been sent, and before it the response, if the codec takes it. -/
def GrabsAgain (mode : GrabMode) (response : Packet) (written : List Packet) (l : GrabLoop H) :
    Prop :=
  l.pc = .answer ∧ l.conn.written =
    (written ++ if GearmanCodec.new.Accepts response then [response] else []) ++
      [.request mode.grabType []]

theorem reaches_of_respond (mode : GrabMode) (response : Packet) (tried written : List Packet)
    (reporters : List String) :
    Machine.Reaches (step mode) (Within registry outcome n) (GrabsAgain mode response written)
      ⟨.respond response, ⟨tried, written, false⟩, reporters⟩ := by
  refine .after (.sent .accepted) ⟨rfl, trivial⟩
    (congrArg some (sendAnd_accepted _ .head tried written reporters response)) ?_
  refine .after (.shutdown false) ⟨rfl, fun _ _ => rfl⟩ rfl ?_
  refine .after (.unregistered .none .accepted) ⟨rfl, trivial⟩ rfl ?_
  refine .after (.sent .accepted) ⟨rfl, trivial⟩
    (congrArg some (sendOr_accepted _ .answer _ _ reporters (accepts_grab mode))) ?_
  exact .here ⟨rfl, rfl⟩

/-- On a connection that takes what it is given, `dispatch_job` is followed by the next grab. -/
theorem reaches_of_dispatch (mode : GrabMode) (pkt : Packet) (registry : Registry H)
    (outcome : Except WorkError Bytes) (n : Nat) (tried written : List Packet)
    (reporters : List String) :
    Machine.Reaches (step mode) (Within registry outcome n)
      (GrabsAgain mode (answerOf pkt registry outcome) written)
      ⟨.dispatch pkt, ⟨tried, written, false⟩, reporters⟩ := by
  cases hget : registry.get (assignedJob pkt).function with
  | none =>
    refine .after (.registry registry) ⟨rfl, rfl⟩ ?_
      (reaches_of_respond mode _ tried written reporters)
    simp only [step, answerOf, hget, Option.map_none]
  | some reg =>
    have hrunning : step mode ⟨.dispatch pkt, ⟨tried, written, false⟩, reporters⟩
        (.registry registry) =
        some ⟨.running reg.handler (assignedJob pkt), ⟨tried, written, false⟩,
          reporters ++ [(assignedJob pkt).handle]⟩ := by
      simp only [step, hget, Option.map_some]
    refine .after (.registry registry) ⟨rfl, rfl⟩ hrunning ?_
    refine .after (.returned outcome) ⟨rfl, rfl⟩ ?_
      (reaches_of_respond mode _ tried written (reporters ++ [(assignedJob pkt).handle]))
    simp only [step, answerOf, hget]

/-- A new worker can be assigned any job. -/
theorem exists_dispatch (mode : GrabMode) (registry : Registry H) {pkt : Packet}
    (hassign : isAssign pkt.ptype = true) :
    ∃ (before : List (GrabInput H)) (tried written : List Packet),
      Machine.run (step mode) (start (registered registry)) before =
        some ⟨.dispatch pkt, ⟨tried, written, false⟩, []⟩ := by
  refine ⟨[.shutdown false, .unregistered .none .accepted, .sent .accepted,
    .recv (.ok (some pkt))], (registered registry).tried ++ [.request mode.grabType []],
    (registered registry).written ++ [.request mode.grabType []], ?_⟩
  have hgrab : step (H := H) mode ⟨.grab, registered registry, []⟩ (.sent .accepted) =
      some ⟨.answer,
        ⟨(registered registry).tried ++ [.request mode.grabType []],
          (registered registry).written ++ [.request mode.grabType []], false⟩, []⟩ :=
    congrArg some (sendOr_accepted _ .answer _ _ [] (accepts_grab mode))
  have hanswer : onAnswer (H := H) pkt = .dispatch pkt := if_pos hassign
  change ((step (H := H) mode ⟨.grab, registered registry, []⟩ (.sent .accepted)).bind fun l =>
    Machine.run (step mode) l [.recv (.ok (some pkt))]) = _
  rw [hgrab, ← hanswer]
  rfl

/-- A run from the start over the dispatch of an assignment to the next grab. -/
theorem exists_grabsAgain (mode : GrabMode) (initial registry : Registry H)
    (outcome : Except WorkError Bytes) {pkt : Packet} (hassign : isAssign pkt.ptype = true) :
    ∃ (before is : List (GrabInput H)) (l l' : GrabLoop H),
      Machine.run (step mode) (start (registered initial)) before = some l ∧
      l.pc = .dispatch pkt ∧ Machine.run (step mode) l is = some l' ∧
      Machine.Meets (step mode) (Within registry outcome l.conn.written.length) l is ∧
      GrabsAgain mode (answerOf pkt registry outcome) l.conn.written l' := by
  obtain ⟨before, tried, written, hbefore⟩ := exists_dispatch (H := H) mode initial hassign
  obtain ⟨is, l', hmeets, hrun, hagain⟩ :=
    reaches_of_dispatch mode pkt registry outcome written.length tried written []
  exact ⟨before, is, _, l', hbefore, rfl, hrun, hmeets, hagain⟩

/-- The terminal packets of such a run. -/
theorem GrabsAgain.terminals {mode : GrabMode} {response : Packet} {written : List Packet}
    {l : GrabLoop H} (h : GrabsAgain mode response written l)
    (hresponse : isTerminal response.ptype = true) :
    terminalsSince written.length l.conn =
      if GearmanCodec.new.Accepts response then [response] else [] := by
  have hgrab : ([.request mode.grabType []] : List Packet).filter
      (fun w => isTerminal w.ptype) = [] := by cases mode <;> rfl
  rw [terminalsSince, h.2, List.append_assoc, List.drop_left, List.filter_append, hgrab,
    List.append_nil]
  split
  · exact List.filter_singleton.trans (by rw [hresponse, cond_true])
  · rfl

/-! ## Answered once -/

/-- **Every answerable assignment is answered once.** Between the dispatch of an
assignment and the next `GRAB_JOB*`, in every run, exactly one terminal packet
is written and has the handle of the assignment, or the loop ends with
`ConnectionLost`, if and only if the assignment is answerable. -/
theorem assignment_answered_once (mode : GrabMode) (initial registry : Registry H)
    (outcome : Except WorkError Bytes) {src rest : Bytes} {pkt : Packet}
    (hpkt : GearmanCodec.new.decode src = (.ok (some pkt), rest))
    (hassign : isAssign pkt.ptype = true) :
    (∀ (before is : List (GrabInput H)) (l l' : GrabLoop H),
      Machine.run (step mode) (start (registered initial)) before = some l →
      l.pc = .dispatch pkt → Machine.run (step mode) l is = some l' →
      Machine.Meets (step mode) (Within registry outcome l.conn.written.length) l is →
      settled l'.pc = true → AnsweredOnce pkt l.conn.written.length l') ↔
    Answerable pkt registry outcome := by
  have hadm := (GearmanCodec.decode_eq_item.mp hpkt).1
  rw [answerable_iff hadm hassign]
  constructor
  · intro hruns
    obtain ⟨before, is, l, l', hbefore, hpc, hrun, hmeets, hagain⟩ :=
      exists_grabsAgain mode initial registry outcome hassign
    have hanswered := hruns before is l l' hbefore hpc hrun hmeets (by rw [hagain.1]; rfl)
    rcases hanswered with ⟨w, hw, hhandle⟩ | hlost
    · rw [hagain.terminals (isTerminal_answerOf _ _ _)] at hw
      split at hw
      · next hacc =>
        obtain rfl : answerOf pkt registry outcome = w := List.singleton_inj.mp hw
        exact ⟨hacc, hhandle⟩
      · cases hw
    · rw [hagain.1] at hlost
      cases hlost
  · intro ⟨hacc, hhandle⟩ before is l l' _ hpc hrun hmeets hsettled
    have hend := Machine.invariant_of_meets
      (fun _ _ _ hl hi hstep => underway_step hacc hl hi hstep)
      (underway_of_dispatch hpc registry _) hmeets hrun
    exact hend.answered hsettled hhandle

/-- A worker that handles `echo`. -/
def echoing : Registry Unit := Registry.empty.register "echo" ()

theorem answerOf_assignment (outcome : Except WorkError Bytes) :
    answerOf assignment echoing outcome = jobResponse "H" outcome := by
  have hhandle : (assignedJob assignment).handle = "H" := by decide
  have hfunction : (assignedJob assignment).function = "echo" := by decide
  rw [answerOf, hhandle, hfunction]
  rfl

theorem assignment_answered_once_echo :
    ∃ (before is : List (GrabInput Unit)) (l l' : GrabLoop Unit),
      Machine.run (step .uniq) (start (registered echoing)) before = some l ∧
      l.pc = .dispatch assignment ∧ Machine.run (step .uniq) l is = some l' ∧
      l'.pc = .answer ∧ AnsweredOnce assignment l.conn.written.length l' := by
  have hassign : isAssign assignment.ptype = true := rfl
  have hframe : GearmanCodec.new.decode (GearmanCodec.frame assignment) =
      (.ok (some assignment), []) :=
    GearmanCodec.decode_eq_item.mpr ⟨⟨by decide, by decide⟩, (List.append_nil _).symm⟩
  have hanswerable : Answerable assignment echoing (.ok [120]) := by
    refine ⟨"H", by decide, fun _ payload hpayload => ?_⟩
    cases hpayload
    decide
  obtain ⟨before, is, l, l', hbefore, hpc, hrun, hmeets, hagain⟩ :=
    exists_grabsAgain .uniq echoing echoing (.ok [120]) hassign
  refine ⟨before, is, l, l', hbefore, hpc, hrun, hagain.1, ?_⟩
  exact (assignment_answered_once .uniq echoing echoing (.ok [120]) hframe hassign).mpr hanswerable
    before is l l' hbefore hpc hrun hmeets (by rw [hagain.1]; rfl)

/-- A result one byte too long for a packet is dropped, and the worker grabs again. -/
theorem oversized_result_dropped :
    ∃ (before is : List (GrabInput Unit)) (l l' : GrabLoop Unit),
      Machine.run (step .uniq) (start (registered echoing)) before = some l ∧
      l.pc = .dispatch assignment ∧ Machine.run (step .uniq) l is = some l' ∧
      Machine.Meets (step .uniq) (Within echoing
        (.ok (List.replicate (defaultMaxPayloadSize.toNat - 1) 0)) l.conn.written.length) l is ∧
      l'.pc = .answer ∧ terminalsSince l.conn.written.length l'.conn = [] := by
  have hassign : isAssign assignment.ptype = true := rfl
  have hrefused : ¬GearmanCodec.new.Accepts (answerOf assignment echoing
      (.ok (List.replicate (defaultMaxPayloadSize.toNat - 1) 0))) := by
    intro hacc
    rw [answerOf_assignment] at hacc
    have hfits := ((accepts_jobResponse "H" _).mp hacc).2 _ rfl
    rw [List.length_replicate] at hfits
    exact absurd hfits (by decide)
  obtain ⟨before, is, l, l', hbefore, hpc, hrun, hmeets, hagain⟩ :=
    exists_grabsAgain .uniq echoing echoing
      (.ok (List.replicate (defaultMaxPayloadSize.toNat - 1) 0)) hassign
  refine ⟨before, is, l, l', hbefore, hpc, hrun, hmeets, hagain.1, ?_⟩
  rw [hagain.terminals (isTerminal_answerOf _ _ _), if_neg hrefused]

end Gearman.Worker.GrabLoop

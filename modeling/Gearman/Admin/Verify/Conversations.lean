import Gearman.Admin.Verify.Sessions

/-!
# Conversations with a server

Both sides of a session in which the server keeps to the protocol: it answers a
listing with its rows and everything else with a line of the grammar, as it likes.
What it says is what the calls return, refusals included; and the bytes that it has
got tell it the calls, as long as no argument has a line break and no name of a
`maxqueue` has a space.
-/

namespace Gearman.Admin

open StreamReader

/-! ## What the server says -/

/-- The rows, each on a line within the cap, and a dot. -/
def Renders {α : Type} (line : α → String) (Valid : α → Prop) (rows : List α) (reply : Bytes) :
    Prop :=
  ∃ (lines : List (α × LineEnd)) (last : LineEnd), rows = lines.map Prod.fst ∧
    (∀ r ∈ lines, Valid r.1 ∧ (lineBytes (line r.1) r.2).length ≤ maxAdminLineLen) ∧
    reply = replyBytes (lines.map fun r => (line r.1, r.2)) last

/-- A line of the grammar, within the cap. -/
def RepliesWith (said : Except GearmanError (Option String)) (reply : Bytes) : Prop :=
  ∃ (line : String) (last : LineEnd), AckForm line said ∧ Unbroken line ∧
    (lineBytes line last).length ≤ maxAdminLineLen ∧ reply = lineBytes line last

def AdminOp.oneLine : AdminOp → Bool
  | .call _ | .getpid | .verbose | .version => true
  | _ => false

/-- What the server says to a call, and the bytes it says it with. -/
inductive Says : AdminOp → Except GearmanError Answer → Bytes → Prop
  | functions {rows : List FunctionStatus} {reply : Bytes}
      (h : Renders FunctionStatus.line FunctionStatus.Valid rows reply) :
      Says .status (.ok (.functions rows)) reply
  | priorities {rows : List PriorityFunctionStatus} {reply : Bytes}
      (h : Renders PriorityFunctionStatus.line PriorityFunctionStatus.Valid rows reply) :
      Says .priorityStatus (.ok (.priorities rows)) reply
  | workers {rows : List WorkerInfo} {reply : Bytes}
      (h : Renders WorkerInfo.line WorkerInfo.Valid rows reply) :
      Says .workers (.ok (.workers rows)) reply
  | jobs {rows : List JobListEntry} {reply : Bytes}
      (h : Renders JobListEntry.line JobListEntry.Valid rows reply) :
      Says .showJobs (.ok (.jobs rows)) reply
  | uniqueJobs {rows : List UniqueJobEntry} {reply : Bytes}
      (h : Renders UniqueJobEntry.line UniqueJobEntry.Valid rows reply) :
      Says .showUniqueJobs (.ok (.uniqueJobs rows)) reply
  | done {call : AdminCall} {value : Option String} {reply : Bytes}
      (h : RepliesWith (.ok value) reply) : Says (.call call) (.ok .done) reply
  | pid {pid : UInt32} {reply : Bytes}
      (h : RepliesWith (.ok (some (decimal pid.toNat))) reply) : Says .getpid (.ok (.pid pid)) reply
  | verbose {text : String} {reply : Bytes} (h : RepliesWith (.ok (some text)) reply) :
      Says .verbose (.ok (.text text)) reply
  | version {text : String} {reply : Bytes} (h : RepliesWith (.ok (some text)) reply) :
      Says .version (.ok (.text text)) reply
  | refused {op : AdminOp} (hop : op.oneLine = true) {code text : String} {reply : Bytes}
      (h : RepliesWith (.error (.serverError code text)) reply) :
      Says op (.error (.serverError code text)) reply

theorem Renders.run {α : Type} {command : String} {parse : String → Except GearmanError α}
    {line : α → String} {Valid : α → Prop} {rows : List α} {reply : Bytes}
    (hrenders : Renders line Valid rows reply) (honLine : ∀ {row}, Valid row → OnLine (line row))
    (hparse : ∀ {row}, Valid row → parse (line row) = .ok row) (k : List α → Answer)
    (rest written : Bytes) :
    answering k (AdminClient.listing command parse ⟨reply ++ rest, written⟩ .accepted) =
      (.ok (k rows), ⟨rest, written ++ (asBytes command ++ [13, 10])⟩) := by
  obtain ⟨lines, last, rfl, hlines, rfl⟩ := hrenders
  rw [listing_readsBack honLine hparse lines last rest written hlines, List.append_assoc]
  rfl

theorem RepliesWith.reads {said : Except GearmanError (Option String)} {reply : Bytes}
    (h : RepliesWith said reply) :
    ∃ line, parseAckLine line = said ∧
      ∀ {α : Type} (parse : String → Except GearmanError α) (k : α → Answer) (rest : Bytes),
        replyReader parse k (reply ++ rest) = ((parse line).map k, rest) := by
  obtain ⟨line, last, hform, hunbroken, hfits, rfl⟩ := h
  refine ⟨line, parseAckLine_of_form hform, fun parse k rest => ?_⟩
  have hread := readLine_line hunbroken hfits rest []
  rw [readLine_eq] at hread
  simp only [Prod.mk.injEq, AdminClient.mk.injEq, and_true] at hread
  unfold replyReader StreamReader.andThen
  rw [hread.1, hread.2]
  rfl

/-- A refusal is returned by every call that reads one line. -/
theorem reads_refused {op : AdminOp} (hop : op.oneLine = true) {code text : String} {reply : Bytes}
    (h : RepliesWith (.error (.serverError code text)) reply) (rest : Bytes) :
    op.reader (reply ++ rest) = (.error (.serverError code text), rest) := by
  obtain ⟨line, hline, hreads⟩ := h.reads
  have hdone : AdminClient.parseDone line = .error (.serverError code text) := by
    rw [AdminClient.parseDone, hline]
    rfl
  have hvalue : ∀ {α : Type} (parse : String → Except GearmanError α),
      AdminClient.parseValue parse line = .error (.serverError code text) := by
    intro α parse
    rw [AdminClient.parseValue, hline]
    rfl
  cases op with
  | status | priorityStatus | workers | showJobs | showUniqueJobs => cases hop
  | call _ => rw [AdminOp.reader, hreads, hdone]; rfl
  | getpid | verbose | version => rw [AdminOp.reader, hreads, hvalue]; rfl

/-- **What the server says is what a call returns**, and nothing else is read. -/
theorem Says.run {op : AdminOp} {answer : Except GearmanError Answer} {reply : Bytes}
    (h : Says op answer reply) (rest written : Bytes) :
    op.run ⟨reply ++ rest, written⟩ .accepted = (answer, ⟨rest, written ++ op.sent⟩) := by
  have hvalue : ∀ {α : Type} {parse : String → Except GearmanError α} {line value : String},
      parseAckLine line = .ok (some value) → AdminClient.parseValue parse line = parse value := by
    intro α parse line value hline
    rw [AdminClient.parseValue, hline]
    rfl
  cases h with
  | functions h => exact h.run FunctionStatus.onLine parseStatusLine_line _ rest written
  | priorities h =>
    exact h.run PriorityFunctionStatus.onLine parsePriorityStatusLine_line _ rest written
  | workers h => exact h.run WorkerInfo.onLine parseWorkerLine_line _ rest written
  | jobs h => exact h.run JobListEntry.onLine parseJobListLine_line _ rest written
  | uniqueJobs h =>
    exact h.run UniqueJobEntry.onLine
      (fun hvalid => congrArg Except.ok (parseUniqueJobLine_line hvalid)) _ rest written
  | done h =>
    obtain ⟨line, hline, hreads⟩ := h.reads
    rw [AdminOp.run_eq, AdminOp.reader, hreads, AdminClient.parseDone, hline]
    rfl
  | @pid pid _ h =>
    obtain ⟨line, hline, hreads⟩ := h.reads
    rw [AdminOp.run_eq, AdminOp.reader, hreads, hvalue hline, AdminClient.parsePid,
      parseU32_decimal]
    rfl
  | verbose h | version h =>
    obtain ⟨line, hline, hreads⟩ := h.reads
    rw [AdminOp.run_eq, AdminOp.reader, hreads, hvalue hline]
    rfl
  | refused hop h => rw [AdminOp.run_eq, reads_refused hop h]

/-! ## What the server hears -/

/-- The words a command begins with. -/
inductive Verb
  | status | prioritystatus | workers | showJobs | showUniqueJobs | cancelJob | createFunction
  | dropFunction | maxqueue | getpid | verbose | version

def Verb.text : Verb → String
  | status => "status"
  | prioritystatus => "prioritystatus"
  | workers => "workers"
  | showJobs => "show jobs"
  | showUniqueJobs => "show unique jobs"
  | cancelJob => "cancel job "
  | createFunction => "create function "
  | dropFunction => "drop function "
  | maxqueue => "maxqueue "
  | getpid => "getpid"
  | verbose => "verbose"
  | version => "version"

/-- No verb begins with another. -/
theorem Verb.eq_of_prefix {v w : Verb} (h : v.text.toList <+: w.text.toList) : v = w := by
  cases v <;> cases w <;> first | rfl | exact absurd h (by decide)

namespace AdminOp

def verb : AdminOp → Verb
  | status => .status
  | priorityStatus => .prioritystatus
  | workers => .workers
  | showJobs => .showJobs
  | showUniqueJobs => .showUniqueJobs
  | call (.cancelJob _) => .cancelJob
  | call (.createFunction _) => .createFunction
  | call (.dropFunction _) => .dropFunction
  | call (.setMaxQueue _ _) => .maxqueue
  | getpid => .getpid
  | verbose => .verbose
  | version => .version

/-- What follows the verb. -/
def object : AdminOp → String
  | call (.cancelJob handle) => handle
  | call (.createFunction name) | call (.dropFunction name) => name
  | call (.setMaxQueue function size) => function ++ spaced size.numbers
  | _ => ""

/-- No line break in the argument, and no space in a name that numbers follow. -/
def Plain : AdminOp → Prop
  | call (.setMaxQueue function _) => NoBreak function ∧ ' ' ∉ function.toList
  | call c => NoBreak c.argument
  | _ => True

theorem command_eq (op : AdminOp) : op.command = op.verb.text ++ op.object := by
  cases op with
  | call c =>
    cases c with
    | setMaxQueue function size => exact maxQueueCommand_eq function size
    | cancelJob _ | createFunction _ | dropFunction _ => rfl
  | status | priorityStatus | workers | showJobs | showUniqueJobs | getpid | verbose | version =>
    rfl

theorem Plain.noBreak {op : AdminOp} (h : op.Plain) : NoBreak op.command := by
  cases op with
  | call c =>
    apply c.noBreak_command.mpr
    cases c with
    | setMaxQueue function size => exact h.1
    | cancelJob _ | createFunction _ | dropFunction _ => exact h
  | status | priorityStatus | workers | showJobs | showUniqueJobs | getpid | verbose | version =>
    exact ⟨by decide, by decide⟩

/-- A command tells which operation is called. -/
theorem command_injective {op op' : AdminOp} (h : op.Plain) (h' : op'.Plain)
    (heq : op.command = op'.command) : op = op' := by
  have hlist := congrArg String.toList heq
  rw [command_eq, command_eq, String.toList_append, String.toList_append] at hlist
  have hverb : op.verb = op'.verb := by
    rcases List.append_eq_append_iff.mp hlist with ⟨tail, hverb, -⟩ | ⟨tail, hverb, -⟩
    · exact Verb.eq_of_prefix ⟨tail, hverb.symm⟩
    · exact (Verb.eq_of_prefix ⟨tail, hverb.symm⟩).symm
  have hobject : op.object = op'.object := by
    rw [hverb] at hlist
    exact String.toList_inj.mp (List.append_cancel_left hlist)
  cases op with
  | call c =>
    cases op' with
    | call c' =>
      cases c with
      | cancelJob handle => cases c' <;> cases hverb; rw [show handle = _ from hobject]; rfl
      | createFunction name => cases c' <;> cases hverb; rw [show name = _ from hobject]; rfl
      | dropFunction name => cases c' <;> cases hverb; rw [show name = _ from hobject]; rfl
      | setMaxQueue function size =>
        cases c' with
        | setMaxQueue function' size' =>
          obtain ⟨rfl, rfl⟩ := maxQueueCommand_injective h.2 h'.2 heq
          rfl
        | cancelJob _ | createFunction _ | dropFunction _ => cases hverb
    | _ => cases c <;> cases hverb
  | _ =>
    cases op' with
    | call c' => cases c' <;> cases hverb
    | _ => first | rfl | cases hverb

theorem Plain.takes {op : AdminOp} (h : op.Plain) :
    (upTo (10 : UInt8)).Takes op.sent ∧ op.sent ≠ [] := by
  have hsent : op.sent = (asBytes op.command ++ [13]) ++ [10] := by
    rw [sent, List.append_assoc]
    rfl
  rw [hsent]
  refine ⟨upTo_takes fun hmem => ?_, List.append_ne_nil_of_right_ne_nil _ (List.cons_ne_nil _ _)⟩
  rcases List.mem_append.mp hmem with hmem | hmem
  · exact ((noBreak_iff _).mp h.noBreak).2 hmem
  · exact absurd (List.mem_singleton.mp hmem) (by decide)

end AdminOp

/-! ## Both sides -/

/-- A call, and what the server says to it. -/
structure Exchange where
  op : AdminOp
  answer : Except GearmanError Answer
  reply : Bytes
  said : Says op answer reply

namespace Exchange

theorem reads (e : Exchange) (rest : Bytes) :
    e.op.reader (e.reply ++ rest) = (e.answer, rest) := by
  have hrun := e.said.run rest []
  rw [AdminOp.run_eq] at hrun
  simp only [Prod.mk.injEq, AdminClient.mk.injEq] at hrun
  exact Prod.ext hrun.1 hrun.2.1

theorem answer_eq (e : Exchange) : (e.op.reader e.reply).1 = e.answer := by
  have hreads := e.reads []
  rw [List.append_nil] at hreads
  rw [hreads]

theorem takes (e : Exchange) : e.op.reader.Takes e.reply := by
  intro rest
  rw [e.reads, e.answer_eq]

end Exchange

/-- **Both sides of a session agree.** The bytes of the commands tell the calls that
were made, and in which order; and whatever the server says to each call, as long as
it keeps to the protocol, the session returns just that, one answer for each call,
and leaves what follows. -/
theorem conversations_agree :
    (Function.Injective fun ops : List {op : AdminOp // op.Plain} =>
      ops.flatMap fun op => op.1.sent) ∧
    ∀ (es : List Exchange) (rest written : Bytes),
      runSession (es.map Exchange.op) ⟨es.flatMap Exchange.reply ++ rest, written⟩ =
        (es.map Exchange.answer, ⟨rest, written ++ (es.map Exchange.op).flatMap AdminOp.sent⟩) := by
  constructor
  · intro ops ops' heq
    have hmap : ops.map (fun op => op.1.sent) = ops'.map fun op => op.1.sent := by
      have htakes : ∀ (ops : List {op : AdminOp // op.Plain}),
          ∀ code ∈ ops.map fun op => op.1.sent, (upTo (10 : UInt8)).Takes code ∧ code ≠ [] := by
        intro ops code hcode
        obtain ⟨op, -, rfl⟩ := List.mem_map.mp hcode
        exact op.2.takes
      apply flatten_injective (htakes ops) (htakes ops')
      rw [← List.flatMap_def, ← List.flatMap_def]
      exact heq
    have hinjective : Function.Injective fun op : {op : AdminOp // op.Plain} => op.1.sent := by
      intro op op' hsent
      have hcommand := asBytes_injective (List.append_cancel_right hsent)
      exact Subtype.ext (AdminOp.command_injective op.2 op'.2 hcommand)
    exact List.map_injective_iff.mpr hinjective hmap
  · intro es rest written
    have htakes : ∀ p ∈ es.map fun e => (e.op, e.reply), (AdminOp.reader p.1).Takes p.2 := by
      intro p hp
      obtain ⟨e, -, rfl⟩ := List.mem_map.mp hp
      exact e.takes
    have hcodes := runAll_codes AdminOp.reader htakes rest
    simp only [answers, List.map_map, List.flatMap_map, Function.comp_def,
      Exchange.answer_eq] at hcodes
    rw [runSession_eq, hcodes]

/-- A listing of one function, the server's process id, and a refusal. -/
def statusExchange : Exchange where
  op := .status
  answer := .ok (.functions [⟨"resize", 3, 1, 2⟩])
  reply := replyBytes [(FunctionStatus.line ⟨"resize", 3, 1, 2⟩, .lf)] .crlf
  said := by
    refine .functions ⟨[(⟨"resize", 3, 1, 2⟩, .lf)], .crlf, rfl, ?_, rfl⟩
    exact List.forall_mem_singleton.mpr
      ⟨⟨⟨by decide, by decide⟩, by decide⟩, by decide +kernel⟩

def pidExchange : Exchange where
  op := .getpid
  answer := .ok (.pid 17)
  reply := lineBytes "OK 17" .lf
  said := by
    refine .pid ⟨"OK 17", .lf, ?_, ⟨by decide, by decide⟩, by decide, rfl⟩
    exact @AckForm.value " " "17" (by decide) (by decide) ⟨'1', by decide, by decide⟩

def refusedExchange : Exchange where
  op := .call (.dropFunction "resize")
  answer := .error (.serverError "there" "are workers")
  reply := lineBytes "ERR there are workers" .crlf
  said := by
    refine .refused rfl ⟨"ERR there are workers", .crlf, ?_, ⟨by decide, by decide⟩, by decide, rfl⟩
    exact @AckForm.errText " " "there" "are workers" (by decide) (by decide)
      ⟨⟨'t', by decide, by decide⟩, by decide⟩

/-- The three in one session. -/
theorem conversations_agree_mixed :
    runSession [.status, .getpid, .call (.dropFunction "resize")]
        ⟨[statusExchange, pidExchange, refusedExchange].flatMap Exchange.reply, []⟩ =
      ([.ok (.functions [⟨"resize", 3, 1, 2⟩]), .ok (.pid 17),
          .error (.serverError "there" "are workers")],
        ⟨[], asBytes "status\r\ngetpid\r\ndrop function resize\r\n"⟩) := by
  have hrun := conversations_agree.2 [statusExchange, pidExchange, refusedExchange] [] []
  rw [List.append_nil] at hrun
  exact hrun.trans (congrArg _ (by decide +kernel))

end Gearman.Admin

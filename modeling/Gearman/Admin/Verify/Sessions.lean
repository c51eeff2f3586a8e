import Gearman.Admin.Verify.Commands
import Gearman.Lib.StreamReader

/-!
# Sessions of an admin client

A session calls any of the twelve operations in any order on one connection. Each
operation is a framed reader of what the server sends, so every stream is cut into
the portions that the calls take, and a call's result depends on its own portion
only. Where the server says what the protocol has for it to say, the results are
what it said, and it can tell from the bytes it got which operations were called.
-/

namespace Gearman.Admin

open StreamReader

/-! ## Portions of a stream -/

/-- What a read of at most `n` bytes takes. -/
def LinePortion (n : Nat) (raw : Bytes) : Prop :=
  (∃ content : Bytes, (10 : UInt8) ∉ content ∧ content.length < n ∧ raw = content ++ [10]) ∨
    (10 : UInt8) ∉ raw ∧ raw.length = n

/-- A portion is in front, or the stream is all that is left of a line. -/
theorem exists_linePortion (n : Nat) (stream : Bytes) :
    (∃ raw rest, stream = raw ++ rest ∧ LinePortion n raw) ∨
      (10 : UInt8) ∉ stream ∧ stream.length < n := by
  induction n generalizing stream with
  | zero => exact .inl ⟨[], stream, rfl, .inr ⟨List.not_mem_nil, rfl⟩⟩
  | succ n ih =>
    rcases stream with _ | ⟨b, stream⟩
    · exact .inr ⟨List.not_mem_nil, Nat.succ_pos n⟩
    · by_cases hb : b = 10
      · subst hb
        exact .inl ⟨[10], stream, rfl, .inl ⟨[], List.not_mem_nil, Nat.succ_pos n, rfl⟩⟩
      · have hcons : ∀ {raw : Bytes}, (10 : UInt8) ∉ raw → (10 : UInt8) ∉ b :: raw :=
          fun hraw hmem => (List.mem_cons.mp hmem).elim (Ne.symm hb) hraw
        rcases ih stream with ⟨raw, rest, rfl, hraw⟩ | ⟨hfree, hlength⟩
        · refine .inl ⟨b :: raw, rest, rfl, ?_⟩
          rcases hraw with ⟨content, hcontent, hfits, rfl⟩ | ⟨hfree, rfl⟩
          · exact .inl ⟨b :: content, hcons hcontent, Nat.succ_lt_succ hfits, rfl⟩
          · exact .inr ⟨hcons hfree, rfl⟩
        · exact .inr ⟨hcons hfree, Nat.succ_lt_succ hlength⟩

theorem LinePortion.takes {n : Nat} {raw : Bytes} (h : LinePortion n raw) :
    Takes (readUntil n) raw := by
  intro rest
  rcases h with ⟨content, hcontent, hfits, rfl⟩ | ⟨hfree, rfl⟩
  · rw [List.append_assoc, List.singleton_append, readUntil_line hcontent hfits,
      readUntil_line hcontent hfits]
  · have hread := readUntil_short hfree (Nat.le_refl _) rest
    have hself := readUntil_short hfree (Nat.le_refl _) []
    rw [List.take_length, List.drop_length] at hread hself
    rw [List.append_nil] at hself
    rw [hread, hself]
    rfl

theorem readUntil_framed (n : Nat) : FramedBy (readUntil n) (LinePortion n) where
  takes h := h.takes
  front stream := by
    rcases exists_linePortion n stream with hportion | ⟨hfree, hlength⟩
    · exact .inl hportion
    · rw [readUntil_eof hfree hlength]
      exact .inr rfl

/-- What `read_line` makes of the bytes it has read. -/
def lineResult (raw : Bytes) : Except GearmanError String :=
  match fromUtf8 raw with
  | none => .error .io
  | some line =>
    if raw.length = 0 then .error .connectionClosed
    else if !endsWith line '\n' && decide (maxAdminLineLen ≤ raw.length) then
      .error (.adminLineTooLong maxAdminLineLen)
    else .ok (trimLineEnd line)

/-- `read_line` on a stream. -/
def lineReader : StreamReader UInt8 (Except GearmanError String) :=
  StreamReader.andThen (readUntil maxAdminLineLen) lineResult

theorem readLine_eq (stream written : Bytes) :
    AdminClient.readLine ⟨stream, written⟩ =
      ((lineReader stream).1, ⟨(lineReader stream).2, written⟩) := by
  unfold AdminClient.readLine lineReader StreamReader.andThen lineResult
  generalize readUntil maxAdminLineLen stream = read
  dsimp only
  rcases fromUtf8 read.1 with _ | line
  · rfl
  · dsimp only
    split
    · rfl
    · split <;> rfl

theorem lineReader_framed : FramedBy lineReader (LinePortion maxAdminLineLen) :=
  (readUntil_framed _).andThen _

theorem lineReader_portion {raw : Bytes} (h : LinePortion maxAdminLineLen raw)
    (rest : Bytes) : lineReader (raw ++ rest) = ((lineReader raw).1, rest) :=
  lineReader_framed.takes h rest

/-- What the reading of a listing takes: lines, and one that is a dot or fails. -/
inductive ListPortion : Bytes → Prop
  | last {raw : Bytes} (h : LinePortion maxAdminLineLen raw)
      (hend : ∀ line, (lineReader raw).1 = .ok line → line = ".") : ListPortion raw
  | line {raw more : Bytes} {line : String} (h : LinePortion maxAdminLineLen raw)
      (hline : (lineReader raw).1 = .ok line) (hdot : line ≠ ".") (hmore : ListPortion more) :
      ListPortion (raw ++ more)

theorem LinePortion.length_pos {raw : Bytes} (h : LinePortion maxAdminLineLen raw) :
    0 < raw.length := by
  rcases h with ⟨content, -, -, rfl⟩ | ⟨-, hlength⟩
  · rw [List.length_append]
    exact Nat.succ_pos _
  · rw [hlength]
    decide

namespace AdminClient

/-- A portion is read with as many turns as it has bytes. -/
theorem readLines_portion {raw : Bytes} (h : ListPortion raw) :
    ∃ result, ∀ n rest written, raw.length ≤ n →
      readLines n ⟨raw ++ rest, written⟩ = (result, ⟨rest, written⟩) := by
  induction h with
  | @last raw h hend =>
    have hpos := h.length_pos
    rcases hresult : (lineReader raw).1 with e | line
    · refine ⟨.error e, fun n rest written hn => ?_⟩
      obtain ⟨n, rfl⟩ := Nat.exists_eq_add_one_of_ne_zero (Nat.ne_of_gt (hpos.trans_le hn))
      apply readLines_error
      rw [readLine_eq, lineReader_portion h, hresult]
    · obtain rfl := hend line hresult
      refine ⟨.ok [], fun n rest written hn => ?_⟩
      obtain ⟨n, rfl⟩ := Nat.exists_eq_add_one_of_ne_zero (Nat.ne_of_gt (hpos.trans_le hn))
      apply readLines_dot
      rw [readLine_eq, lineReader_portion h, hresult]
  | @line raw more line h hline hdot hmore ih =>
    have hpos := h.length_pos
    obtain ⟨result, hread⟩ := ih
    refine ⟨(consLine line (result, ⟨[], []⟩)).1, fun n rest written hn => ?_⟩
    obtain ⟨n, rfl⟩ := Nat.exists_eq_add_one_of_ne_zero
      (Nat.ne_of_gt (hpos.trans_le ((Nat.le_add_right _ _).trans (List.length_append ▸ hn))))
    have hmore : more.length ≤ n := by
      rw [List.length_append] at hn
      omega
    have hfirst :
        readLine ⟨raw ++ more ++ rest, written⟩ = (.ok line, ⟨more ++ rest, written⟩) := by
      rw [List.append_assoc, readLine_eq, lineReader_portion h, hline]
    rw [readLines_ok hfirst hdot, hread n rest written hmore]
    rcases result with e | lines <;> rfl

/-- A portion is in front, or the reading comes to the end of the stream. -/
theorem exists_listPortion {n : Nat} {stream : Bytes} (hn : stream.length < n) :
    (∃ raw rest, stream = raw ++ rest ∧ ListPortion raw) ∨
      ∃ result, ∀ written, readLines n ⟨stream, written⟩ = (result, ⟨[], written⟩) := by
  induction n generalizing stream with
  | zero => exact absurd hn (Nat.not_lt_zero _)
  | succ n ih =>
    rcases lineReader_framed.front stream with ⟨raw, rest, rfl, hraw⟩ | hend
    · rcases hresult : (lineReader raw).1 with e | line
      · refine .inl ⟨raw, rest, rfl, .last hraw fun line hline => ?_⟩
        rw [hresult] at hline
        cases hline
      · by_cases hdot : line = "."
        · refine .inl ⟨raw, rest, rfl, .last hraw fun line' hline => ?_⟩
          rw [hresult] at hline
          cases hline
          exact hdot
        · have hpos := hraw.length_pos
          have hrest : rest.length < n := by
            rw [List.length_append] at hn
            omega
          have hfirst : ∀ written,
              readLine ⟨raw ++ rest, written⟩ = (.ok line, ⟨rest, written⟩) := by
            intro written
            rw [readLine_eq, lineReader_portion hraw, hresult]
          rcases ih hrest with ⟨more, rest, rfl, hmore⟩ | ⟨result, hread⟩
          · exact .inl ⟨raw ++ more, rest, (List.append_assoc ..).symm,
              .line hraw hresult hdot hmore⟩
          · refine .inr ⟨(consLine line (result, ⟨[], []⟩)).1, fun written => ?_⟩
            rw [readLines_ok (hfirst written) hdot, hread written]
            rcases result with e | lines <;> rfl
    · have hfirst : ∀ written,
          readLine ⟨stream, written⟩ = ((lineReader stream).1, ⟨[], written⟩) := by
        intro written
        rw [readLine_eq, hend]
      refine .inr ?_
      rcases hresult : (lineReader stream).1 with e | line
      · rw [hresult] at hfirst
        exact ⟨.error e, fun written => readLines_error (hfirst written)⟩
      · rw [hresult] at hfirst
        by_cases hdot : line = "."
        · subst hdot
          exact ⟨.ok [], fun written => readLines_dot (hfirst written)⟩
        · cases n with
          | zero =>
            obtain rfl := List.length_eq_zero_iff.mp (Nat.lt_one_iff.mp hn)
            cases hresult
          | succ n =>
            refine ⟨.error .connectionClosed, fun written => ?_⟩
            rw [readLines_ok (hfirst written) hdot, readLines_error (readLine_eof written)]
            rfl

end AdminClient

/-- `read_dot_terminated` on a stream. -/
def linesReader : StreamReader UInt8 (Except GearmanError (List String)) := fun stream =>
  ((AdminClient.readDotTerminated ⟨stream, []⟩).1,
    (AdminClient.readDotTerminated ⟨stream, []⟩).2.unread)

theorem linesReader_framed : FramedBy linesReader ListPortion where
  takes := by
    intro raw h rest
    obtain ⟨result, hread⟩ := AdminClient.readLines_portion h
    have hself := hread (raw.length + 1) [] [] (Nat.le_succ _)
    rw [List.append_nil] at hself
    have hmore := hread ((raw ++ rest).length + 1) rest [] (by rw [List.length_append]; omega)
    unfold linesReader AdminClient.readDotTerminated
    rw [hself, hmore]
  front stream := by
    rcases AdminClient.exists_listPortion (Nat.lt_succ_self stream.length) with
      hportion | ⟨result, hread⟩
    · exact .inl hportion
    · refine .inr ?_
      unfold linesReader AdminClient.readDotTerminated
      rw [hread]

theorem readDotTerminated_eq (stream written : Bytes) :
    AdminClient.readDotTerminated ⟨stream, written⟩ =
      ((linesReader stream).1, ⟨(linesReader stream).2, written⟩) := by
  unfold linesReader AdminClient.readDotTerminated
  rcases AdminClient.exists_listPortion (Nat.lt_succ_self stream.length) with
    ⟨raw, rest, rfl, h⟩ | ⟨result, hread⟩
  · obtain ⟨result, hread⟩ := AdminClient.readLines_portion h
    have hturns : raw.length ≤ (raw ++ rest).length + 1 := by
      rw [List.length_append]
      omega
    rw [hread _ rest written hturns, hread _ rest [] hturns]
  · rw [hread, hread]

/-! ## Operations -/

/-- A call of an operation. -/
inductive AdminOp
  | status
  | priorityStatus
  | workers
  | showJobs
  | showUniqueJobs
  | call (call : AdminCall)
  | getpid
  | verbose
  | version
  deriving DecidableEq, Repr

/-- What a call returns. -/
inductive Answer
  | functions (rows : List FunctionStatus)
  | priorities (rows : List PriorityFunctionStatus)
  | workers (rows : List WorkerInfo)
  | jobs (rows : List JobListEntry)
  | uniqueJobs (rows : List UniqueJobEntry)
  | done
  | pid (pid : UInt32)
  | text (text : String)
  deriving DecidableEq, Repr

/-- A result among the results of all operations. -/
def answering {α : Type} (k : α → Answer) (r : Except GearmanError α × AdminClient) :
    Except GearmanError Answer × AdminClient :=
  (r.1.map k, r.2)

/-- A reader of a listing. -/
def listingReader {α : Type} (parse : String → Except GearmanError α) (k : List α → Answer) :
    StreamReader UInt8 (Except GearmanError Answer) :=
  linesReader.andThen fun r => (r.bind fun lines => lines.mapM parse).map k

/-- A reader of a reply of one line. -/
def replyReader {α : Type} (parse : String → Except GearmanError α) (k : α → Answer) :
    StreamReader UInt8 (Except GearmanError Answer) :=
  lineReader.andThen fun r => (r.bind parse).map k

theorem listingReader_framed {α : Type} (parse : String → Except GearmanError α)
    (k : List α → Answer) : (listingReader parse k).FramedBy ListPortion :=
  linesReader_framed.andThen _

theorem replyReader_framed {α : Type} (parse : String → Except GearmanError α) (k : α → Answer) :
    (replyReader parse k).FramedBy (LinePortion maxAdminLineLen) :=
  lineReader_framed.andThen _

namespace AdminOp

def run : AdminOp → AdminClient → Io → Except GearmanError Answer × AdminClient
  | status, client, io => answering .functions (client.status io)
  | priorityStatus, client, io => answering .priorities (client.priorityStatus io)
  | workers, client, io => answering .workers (client.workers io)
  | showJobs, client, io => answering .jobs (client.showJobs io)
  | showUniqueJobs, client, io => answering .uniqueJobs (client.showUniqueJobs io)
  | call c, client, io => answering (fun _ => .done) (c.run client io)
  | getpid, client, io => answering .pid (client.getpid io)
  | verbose, client, io => answering .text (client.verbose io)
  | version, client, io => answering .text (client.version io)

/-- What is sent, up to the line end. -/
def command : AdminOp → String
  | status => "status"
  | priorityStatus => "prioritystatus"
  | workers => "workers"
  | showJobs => "show jobs"
  | showUniqueJobs => "show unique jobs"
  | call c => c.command
  | getpid => "getpid"
  | verbose => "verbose"
  | version => "version"

/-- The bytes of a call. -/
def sent (op : AdminOp) : Bytes := asBytes op.command ++ [13, 10]

/-- What a call makes of the stream. -/
def reader : AdminOp → StreamReader UInt8 (Except GearmanError Answer)
  | status => listingReader parseStatusLine .functions
  | priorityStatus => listingReader parsePriorityStatusLine .priorities
  | workers => listingReader parseWorkerLine .workers
  | showJobs => listingReader parseJobListLine .jobs
  | showUniqueJobs => listingReader (fun line => .ok (parseUniqueJobLine line)) .uniqueJobs
  | call _ => replyReader AdminClient.parseDone fun _ => .done
  | getpid => replyReader (AdminClient.parseValue AdminClient.parsePid) .pid
  | verbose | version => replyReader (AdminClient.parseValue .ok) .text

/-- What a call takes of the stream. -/
def Portion : AdminOp → Bytes → Prop
  | status | priorityStatus | workers | showJobs | showUniqueJobs => ListPortion
  | call _ | getpid | verbose | version => LinePortion maxAdminLineLen

theorem framed (op : AdminOp) : op.reader.FramedBy op.Portion := by
  cases op with
  | status | priorityStatus | workers | showJobs | showUniqueJobs =>
    exact listingReader_framed _ _
  | call _ | getpid | verbose | version => exact replyReader_framed _ _

theorem run_listing {α : Type} (command : String) (parse : String → Except GearmanError α)
    (k : List α → Answer) (stream written : Bytes) :
    answering k (AdminClient.listing command parse ⟨stream, written⟩ .accepted) =
      ((listingReader parse k stream).1,
        ⟨(listingReader parse k stream).2, written ++ (asBytes command ++ [13, 10])⟩) := by
  rw [AdminClient.listing_eq, readDotTerminated_eq, List.append_assoc]
  rfl

theorem run_reply {α : Type} {command : String} {parse : String → Except GearmanError α}
    {operation : AdminClient → Io → Except GearmanError α × AdminClient} {accepts : String → Prop}
    (h : AdminClient.OneLine command parse operation accepts) (k : α → Answer)
    (stream written : Bytes) :
    answering k (operation ⟨stream, written⟩ .accepted) =
      ((replyReader parse k stream).1,
        ⟨(replyReader parse k stream).2, written ++ (asBytes command ++ [13, 10])⟩) := by
  rw [h.reads, readLine_eq, List.append_assoc]
  rfl

/-- A call sends its command and reads the stream. -/
theorem run_eq (op : AdminOp) (stream written : Bytes) :
    op.run ⟨stream, written⟩ .accepted =
      ((op.reader stream).1, ⟨(op.reader stream).2, written ++ op.sent⟩) := by
  have hvalue : ∀ command, AdminClient.OneLine command (AdminClient.parseValue .ok)
      (AdminClient.valued command .ok) (AdminClient.AckedWith fun _ => True) := fun command =>
    AdminClient.oneLine_valued _ _ fun value => iff_of_true ⟨value, rfl⟩ trivial
  cases op with
  | status | priorityStatus | workers | showJobs | showUniqueJobs =>
    exact run_listing _ _ _ stream written
  | call c =>
    have hcall := AdminClient.oneLine_acknowledged c.command
    rw [← c.run_eq] at hcall
    exact run_reply hcall _ stream written
  | getpid =>
    exact run_reply (AdminClient.oneLine_valued _ _ fun _ => AdminClient.parsePid_ok_iff) _
      stream written
  | verbose | version => exact run_reply (hvalue _) _ stream written

/-- What a call returns that meets these bytes only. -/
def result (op : AdminOp) (stream : Bytes) : Except GearmanError Answer :=
  (op.run ⟨stream, []⟩ .accepted).1

theorem result_eq (op : AdminOp) (stream : Bytes) : op.result stream = (op.reader stream).1 := by
  rw [result, run_eq]

theorem result_nil (op : AdminOp) : op.result [] = .error .connectionClosed := by
  rw [result_eq]
  cases op <;> rfl

end AdminOp

/-! ## Sessions -/

/-- One call after the other. -/
def runSession : List AdminOp → AdminClient → List (Except GearmanError Answer) × AdminClient
  | [], client => ([], client)
  | op :: ops, client =>
    let (result, client) := op.run client .accepted
    let (results, client) := runSession ops client
    (result :: results, client)

/-- A session sends its commands and has its calls read the stream one after the other. -/
theorem runSession_eq (ops : List AdminOp) (stream written : Bytes) :
    runSession ops ⟨stream, written⟩ =
      ((runAll AdminOp.reader ops stream).1,
        ⟨(runAll AdminOp.reader ops stream).2, written ++ ops.flatMap AdminOp.sent⟩) := by
  induction ops generalizing stream written with
  | nil =>
    rw [List.flatMap_nil, List.append_nil]
    rfl
  | cons op ops ih =>
    rw [runSession, op.run_eq]
    dsimp only
    rw [ih, runAll_cons, List.flatMap_cons, List.append_assoc]

/-- What the calls return that get these portions. -/
def results (es : List (AdminOp × Bytes)) : List (Except GearmanError Answer) :=
  es.map fun e => e.1.result e.2

theorem results_eq (es : List (AdminOp × Bytes)) : results es = answers AdminOp.reader es :=
  List.map_congr_left fun e _ => e.1.result_eq e.2

/-- **Sessions keep step with the stream.** A call reads exactly some bytes, whatever
follows them, and then returns the same whatever follows, if and only if they are a
`Portion` for it. A session of any calls cuts any stream into portions, one for each
call, which returns what its own portion gives, until a call finds no portion; this
one reads all that is left, and all later ones report the end of the connection. -/
theorem sessions_keep_step :
    (∀ (op : AdminOp) (reply : Bytes),
      (∀ rest written, op.run ⟨reply ++ rest, written⟩ .accepted =
        (op.result reply, ⟨rest, written ++ op.sent⟩)) ↔ op.Portion reply) ∧
    ∀ (ops : List AdminOp) (stream written : Bytes),
      ∃ (es : List (AdminOp × Bytes)) (rest : Bytes),
        stream = es.flatMap Prod.snd ++ rest ∧ (∀ e ∈ es, e.1.Portion e.2) ∧
        ((ops = es.map Prod.fst ∧
          runSession ops ⟨stream, written⟩ =
            (results es, ⟨rest, written ++ ops.flatMap AdminOp.sent⟩)) ∨
          ∃ op later, ops = es.map Prod.fst ++ op :: later ∧
            (∀ reply, reply <+: rest → ¬op.Portion reply) ∧
            runSession ops ⟨stream, written⟩ =
              (results es ++ op.result rest :: later.map fun _ => .error .connectionClosed,
                ⟨[], written ++ ops.flatMap AdminOp.sent⟩)) := by
  refine ⟨fun op reply => ?_, fun ops stream written => ?_⟩
  · rw [← op.framed.takes_iff]
    simp only [AdminOp.run_eq, AdminOp.result_eq, Takes]
    constructor
    · intro h rest
      have hrun := h rest []
      simp only [Prod.mk.injEq, AdminClient.mk.injEq] at hrun
      exact Prod.ext hrun.1 hrun.2.1
    · intro h rest written
      rw [h rest]
  · obtain ⟨es, rest, hstream, hportions, hcases⟩ := runAll_cut AdminOp.framed ops stream
    refine ⟨es, rest, hstream, hportions, ?_⟩
    rw [results_eq, runSession_eq]
    rcases hcases with ⟨hops, hrun⟩ | ⟨op, later, hops, hnone, hrun⟩
    · refine .inl ⟨hops, ?_⟩
      rw [hrun]
    · refine .inr ⟨op, later, hops, hnone, ?_⟩
      have hlater : (fun op : AdminOp => (op.reader []).1) = fun _ => .error .connectionClosed :=
        funext fun op => (op.result_eq []).symm.trans op.result_nil
      rw [hrun, hlater, op.result_eq]

end Gearman.Admin

import Gearman.Admin.Verify.Failures

/-!
# Calls and command lines

What the operations with an argument write. The argument is written as it is: a
call writes one line if it has no line break, and two calls of `set_max_queue` write
the same line where the name of one is that of the other with its leading numbers.
Calls whose arguments have no line break keep step with their replies.
-/

namespace Gearman.Admin

/-- A call of an operation with an argument. -/
inductive AdminCall
  | cancelJob (handle : String)
  | createFunction (name : String)
  | dropFunction (name : String)
  | setMaxQueue (function : String) (size : MaxQueueSize)
  deriving DecidableEq, Repr

namespace AdminCall

def argument : AdminCall → String
  | cancelJob handle => handle
  | createFunction name | dropFunction name => name
  | setMaxQueue function _ => function

/-- What is sent, up to the line end. -/
def command : AdminCall → String
  | cancelJob handle => s!"cancel job {handle}"
  | createFunction name => s!"create function {name}"
  | dropFunction name => s!"drop function {name}"
  | setMaxQueue function size => AdminClient.maxQueueCommand function size

def run : AdminCall → AdminClient → Io → Except GearmanError Unit × AdminClient
  | cancelJob handle => AdminClient.cancelJob handle
  | createFunction name => AdminClient.createFunction name
  | dropFunction name => AdminClient.dropFunction name
  | setMaxQueue function size => AdminClient.setMaxQueue function size

theorem run_eq (call : AdminCall) : call.run = AdminClient.acknowledged call.command := by
  cases call <;> rfl

end AdminCall

/-- One call after the other. -/
def runCalls : List AdminCall → AdminClient → List (Except GearmanError Unit) × AdminClient
  | [], client => ([], client)
  | call :: calls, client =>
    let (result, client) := call.run client .accepted
    let (results, client) := runCalls calls client
    (result :: results, client)

/-! ## Line breaks -/

/-- No line break. -/
def NoBreak (s : String) : Prop := '\r' ∉ s.toList ∧ '\n' ∉ s.toList

/-- Exactly one line, ended by CR LF. -/
def OneCommandLine (sent : Bytes) : Prop :=
  ∃ line : Bytes, sent = line ++ [13, 10] ∧ (13 : UInt8) ∉ line ∧ (10 : UInt8) ∉ line

theorem noBreak_iff (s : String) :
    NoBreak s ↔ (13 : UInt8) ∉ asBytes s ∧ (10 : UInt8) ∉ asBytes s := by
  rw [cr_mem_asBytes_iff, lf_mem_asBytes_iff]
  exact Iff.rfl

theorem oneCommandLine_iff (command : String) :
    OneCommandLine (asBytes command ++ [13, 10]) ↔ NoBreak command := by
  rw [noBreak_iff]
  constructor
  · rintro ⟨line, heq, hfree⟩
    rwa [List.append_cancel_right heq]
  · exact fun hfree => ⟨_, rfl, hfree⟩

/-! ## The numbers of a queue size -/

def MaxQueueSize.numbers : MaxQueueSize → List UInt32
  | .default => []
  | .uniform n => [n]
  | .perPriority high normal low => [high, normal, low]

theorem MaxQueueSize.numbers_injective {size size' : MaxQueueSize}
    (h : size.numbers = size'.numbers) : size = size' := by
  cases size <;> cases size' <;> cases h <;> rfl

/-- Numbers, each with a space in front. -/
def spaced (ns : List UInt32) : String :=
  String.ofList (ns.flatMap fun n => ' ' :: (decimal n.toNat).toList)

theorem toList_spaced (ns : List UInt32) :
    (spaced ns).toList = ns.flatMap fun n => ' ' :: (decimal n.toNat).toList :=
  String.toList_ofList

theorem spaced_append (ns ms : List UInt32) : spaced (ns ++ ms) = spaced ns ++ spaced ms := by
  rw [← String.toList_inj, String.toList_append, toList_spaced, toList_spaced, toList_spaced,
    List.flatMap_append]

theorem maxQueueCommand_eq (function : String) (size : MaxQueueSize) :
    AdminClient.maxQueueCommand function size =
      "maxqueue " ++ (function ++ spaced size.numbers) := by
  rw [← String.toList_inj, String.toList_append, String.toList_append, toList_spaced]
  cases size with
  | default =>
    show ("maxqueue " ++ function).toList = _
    simp [MaxQueueSize.numbers]
  | uniform n =>
    show ("maxqueue " ++ function ++ " " ++ decimal n.toNat).toList = _
    simp [MaxQueueSize.numbers]
  | perPriority high normal low =>
    show ("maxqueue " ++ function ++ " " ++ decimal high.toNat ++ " " ++ decimal normal.toNat ++
      " " ++ decimal low.toNat).toList = _
    simp [MaxQueueSize.numbers]

theorem decimal_injective {n m : UInt32} (h : decimal n.toNat = decimal m.toNat) : n = m := by
  have hn := parseU32_decimal n
  rw [h, parseU32_decimal] at hn
  exact (Option.some.inj hn).symm

theorem space_notMem_decimal (n : Nat) : ' ' ∉ (decimal n).toList := fun hmem =>
  absurd ((word_decimal n).solid _ hmem) (by decide)

/-- What stands behind the last space. -/
theorem last_space_inj {a b x y : List Char} (hx : ' ' ∉ x) (hy : ' ' ∉ y)
    (h : a ++ ' ' :: x = b ++ ' ' :: y) : a = b ∧ x = y := by
  have hcut : ∀ {a x : List Char}, ' ' ∉ x →
      Delimited.cut ' ' (a ++ ' ' :: x).reverse = some (x.reverse, a.reverse) := by
    intro a x hx
    rw [Delimited.cut_eq_some_iff]
    exact ⟨fun hmem => hx (List.mem_reverse.mp hmem), by simp⟩
  have hpair := hcut (a := a) hx
  rw [h, hcut hy, Option.some.injEq, Prod.mk.injEq, List.reverse_inj, List.reverse_inj] at hpair
  exact ⟨hpair.2.symm, hpair.1.symm⟩

/-- Names with numbers behind them are the same text where the name of one takes up
leading numbers of the other. -/
theorem append_spaced_inj {a b : String} {ns ms : List UInt32}
    (h : a ++ spaced ns = b ++ spaced ms) :
    (∃ ks, a = b ++ spaced ks ∧ ms = ks ++ ns) ∨ ∃ ks, b = a ++ spaced ks ∧ ns = ks ++ ms := by
  induction ns using List.reverseRecOn generalizing ms with
  | nil =>
    refine .inl ⟨ms, ?_, (List.append_nil ms).symm⟩
    rw [← h, ← String.toList_inj, String.toList_append, toList_spaced]
    simp
  | append_singleton ns n ih =>
    rcases List.eq_nil_or_concat ms with rfl | ⟨ms, m, rfl⟩
    · refine .inr ⟨ns ++ [n], ?_, (List.append_nil _).symm⟩
      rw [h, ← String.toList_inj, String.toList_append, toList_spaced]
      simp
    · rw [List.concat_eq_append, spaced_append, spaced_append, ← String.append_assoc,
        ← String.append_assoc] at h
      have hlist := congrArg String.toList h
      rw [String.toList_append, String.toList_append (s := b ++ spaced ms), toList_spaced [n],
        toList_spaced [m], List.flatMap_singleton, List.flatMap_singleton] at hlist
      obtain ⟨hfront, hlast⟩ :=
        last_space_inj (space_notMem_decimal n.toNat) (space_notMem_decimal m.toNat) hlist
      obtain rfl := decimal_injective (String.toList_inj.mp hlast)
      rw [List.concat_eq_append]
      rcases ih (String.toList_inj.mp hfront) with ⟨ks, ha, rfl⟩ | ⟨ks, hb, rfl⟩
      · exact .inl ⟨ks, ha, List.append_assoc _ _ _⟩
      · exact .inr ⟨ks, hb, List.append_assoc _ _ _⟩

/-- When two calls of `set_max_queue` write the same line. -/
theorem maxQueueCommand_eq_iff {function function' : String} {size size' : MaxQueueSize} :
    AdminClient.maxQueueCommand function size = AdminClient.maxQueueCommand function' size' ↔
      (∃ ks, function = function' ++ spaced ks ∧ size'.numbers = ks ++ size.numbers) ∨
        ∃ ks, function' = function ++ spaced ks ∧ size.numbers = ks ++ size'.numbers := by
  rw [maxQueueCommand_eq, maxQueueCommand_eq]
  constructor
  · intro h
    apply append_spaced_inj
    have hlist := congrArg String.toList h
    rw [String.toList_append, String.toList_append (s := "maxqueue ")] at hlist
    exact String.toList_inj.mp (List.append_cancel_left hlist)
  · rintro (⟨ks, rfl, hnumbers⟩ | ⟨ks, rfl, hnumbers⟩)
    · rw [hnumbers, spaced_append, String.append_assoc]
    · rw [hnumbers, spaced_append, String.append_assoc]

/-- Calls of `set_max_queue` with names without spaces write different lines. -/
theorem maxQueueCommand_injective {function function' : String} {size size' : MaxQueueSize}
    (hfunction : ' ' ∉ function.toList) (hfunction' : ' ' ∉ function'.toList)
    (h : AdminClient.maxQueueCommand function size = AdminClient.maxQueueCommand function' size') :
    function = function' ∧ size = size' := by
  have hnone : ∀ {name taker : String} {ks : List UInt32}, ' ' ∉ taker.toList →
      taker = name ++ spaced ks → ks = [] := by
    intro name taker ks hfree heq
    rcases ks with _ | ⟨k, ks⟩
    · rfl
    · rw [heq, String.toList_append, toList_spaced, List.flatMap_cons] at hfree
      exact absurd (List.mem_append_right _ (List.mem_append_left _ List.mem_cons_self)) hfree
  have hempty : ∀ name : String, name ++ spaced [] = name := fun name => by
    rw [← String.toList_inj, String.toList_append, toList_spaced, List.flatMap_nil,
      List.append_nil]
  rcases maxQueueCommand_eq_iff.mp h with ⟨ks, heq, hnumbers⟩ | ⟨ks, heq, hnumbers⟩
  · obtain rfl := hnone hfunction heq
    exact ⟨heq.trans (hempty _), MaxQueueSize.numbers_injective hnumbers.symm⟩
  · obtain rfl := hnone hfunction' heq
    exact ⟨(heq.trans (hempty _)).symm, MaxQueueSize.numbers_injective hnumbers⟩

theorem noBreak_spaced (ns : List UInt32) : NoBreak (spaced ns) := by
  have hfree : ∀ c : Char, isWhitespace c = true → c ≠ ' ' → c ∉ (spaced ns).toList := by
    intro c hc hne hmem
    rw [toList_spaced, List.mem_flatMap] at hmem
    obtain ⟨n, -, hmem⟩ := hmem
    rcases List.mem_cons.mp hmem with heq | hmem
    · exact hne heq
    · rw [(word_decimal n.toNat).solid c hmem] at hc
      cases hc
  exact ⟨hfree '\r' (by decide) (by decide), hfree '\n' (by decide) (by decide)⟩

theorem noBreak_append {s t : String} : NoBreak (s ++ t) ↔ NoBreak s ∧ NoBreak t := by
  unfold NoBreak
  simp only [String.toList_append, List.mem_append, not_or]
  exact and_and_and_comm

/-- A line break in a command is one in its argument. -/
theorem AdminCall.noBreak_command (call : AdminCall) :
    NoBreak call.command ↔ NoBreak call.argument := by
  have hverb : ∀ verb argument : String, NoBreak verb →
      (NoBreak (verb ++ argument) ↔ NoBreak argument) := fun verb argument hverb =>
    noBreak_append.trans (and_iff_right hverb)
  cases call with
  | cancelJob handle => exact hverb "cancel job " handle ⟨by decide, by decide⟩
  | createFunction name => exact hverb "create function " name ⟨by decide, by decide⟩
  | dropFunction name => exact hverb "drop function " name ⟨by decide, by decide⟩
  | setMaxQueue function size =>
    have hargument : NoBreak (function ++ spaced size.numbers) ↔ NoBreak function :=
      noBreak_append.trans (and_iff_left (noBreak_spaced size.numbers))
    show NoBreak (AdminClient.maxQueueCommand function size) ↔ NoBreak function
    rw [maxQueueCommand_eq]
    exact (hverb "maxqueue " _ ⟨by decide, by decide⟩).trans hargument

/-! ## Calls and replies -/

/-- What a call makes of a reply of one line that fits the cap. -/
def replyResult (reply : Bytes) : Except GearmanError Unit :=
  match lineOf reply with
  | some line => AdminClient.parseDone line
  | none => .error .io

/-- The bytes of a call. -/
def AdminCall.sent (call : AdminCall) : Bytes := asBytes call.command ++ [13, 10]

theorem AdminCall.sent_inj (call call' : AdminCall) :
    call.sent = call'.sent ↔ call.command = call'.command := by
  constructor
  · exact fun h => asBytes_injective (List.append_cancel_right h)
  · intro h
    rw [sent, sent, h]

theorem AdminCall.run_reply (call : AdminCall) {reply : Bytes} (hline : (10 : UInt8) ∉ reply)
    (hfits : reply.length < maxAdminLineLen) (rest written : Bytes) :
    call.run ⟨reply ++ 10 :: rest, written⟩ .accepted =
      (replyResult reply, ⟨rest, written ++ call.sent⟩) := by
  rw [run_eq, (AdminClient.oneLine_acknowledged call.command).reads, replyResult, sent,
    ← List.append_assoc]
  rcases hread : lineOf reply with _ | line
  · rw [lineOf, if_pos hfits, Option.map_eq_none_iff] at hread
    have hstring : fromUtf8 (reply ++ [10]) = none := by
      rw [fromUtf8_concat_lf, hread, Option.map_none]
    unfold AdminClient.readLine
    simp only [readUntil_line hline hfits rest, hstring]
    rfl
  · rw [AdminClient.readLine_of_lineOf hline hread]
    rfl

theorem AdminCall.run_written (call : AdminCall) (unread written : Bytes) :
    (call.run ⟨unread, written⟩ .accepted).2.written = written ++ call.sent := by
  rw [run_eq, (AdminClient.oneLine_acknowledged call.command).reads, sent, ← List.append_assoc]
  unfold AdminClient.readLine
  dsimp only
  split
  · rfl
  · split
    · rfl
    · split <;> rfl

theorem runCalls_replies {calls : List AdminCall} {replies : List Bytes}
    (hlength : replies.length = calls.length)
    (hreplies : ∀ reply ∈ replies, (10 : UInt8) ∉ reply ∧ reply.length < maxAdminLineLen)
    (rest written : Bytes) :
    runCalls calls ⟨rowsBytes replies ++ rest, written⟩ =
      (replies.map replyResult, ⟨rest, written ++ calls.flatMap AdminCall.sent⟩) := by
  induction calls generalizing replies written with
  | nil =>
    obtain rfl := List.length_eq_zero_iff.mp hlength
    rw [List.flatMap_nil, List.append_nil]
    rfl
  | cons call calls ih =>
    rcases replies with _ | ⟨reply, replies⟩
    · cases hlength
    · rw [List.forall_mem_cons] at hreplies
      rw [rowsBytes_cons, List.append_assoc, List.cons_append, runCalls,
        call.run_reply hreplies.1.1 hreplies.1.2]
      dsimp only
      rw [ih (Nat.succ.inj hlength) hreplies.2, List.map_cons, List.flatMap_cons,
        List.append_assoc]

/-- The lines a server sees of what is sent: those that a line feed has ended, less the
carriage return, and what has not been ended. -/
theorem cutLines_sent {calls : List AdminCall} (h : ∀ call ∈ calls, NoBreak call.argument) :
    AdminClient.cutLines (calls.flatMap AdminCall.sent) =
      (calls.map fun call => asBytes call.command ++ [13]) ++ [[]] := by
  induction calls with
  | nil => rfl
  | cons call calls ih =>
    rw [List.forall_mem_cons] at h
    have hbreak := (noBreak_iff _).mp (call.noBreak_command.mpr h.1)
    have hfree : ∀ b ∈ asBytes call.command ++ [13], decide (b = (10 : UInt8)) = false := by
      intro b hb
      apply decide_eq_false
      rintro rfl
      rcases List.mem_append.mp hb with hb | hb
      · exact hbreak.2 hb
      · exact absurd (List.mem_singleton.mp hb) (by decide)
    have hbytes : (call :: calls).flatMap AdminCall.sent =
        (asBytes call.command ++ [13]) ++ (10 :: calls.flatMap AdminCall.sent) := by
      simp [AdminCall.sent]
    rw [hbytes, AdminClient.cutLines, Delimited.fieldsBy_append hfree (g := []) rfl]
    rw [List.append_nil, List.map_cons, List.cons_append, ← ih h.2]
    rfl

/-- **One call, one line.** A call writes exactly one line, ended by CR LF, if and only
if its argument has no line break. Two calls of `set_max_queue` write the same line
exactly where one name takes up leading numbers of the other, and a name without
spaces takes up none. Over any calls whose arguments have no line break the server
sees one command line for each, and each gets the result of its own reply, whatever
the replies are that fit the cap. -/
theorem calls_keep_step :
    (∀ (call : AdminCall) (unread written : Bytes),
      (call.run ⟨unread, written⟩ .accepted).2.written = written ++ call.sent ∧
        (OneCommandLine call.sent ↔ NoBreak call.argument)) ∧
    (∀ (function function' : String) (size size' : MaxQueueSize),
      ((AdminCall.setMaxQueue function size).sent = (AdminCall.setMaxQueue function' size').sent ↔
        (∃ ks, function = function' ++ spaced ks ∧ size'.numbers = ks ++ size.numbers) ∨
          ∃ ks, function' = function ++ spaced ks ∧ size.numbers = ks ++ size'.numbers) ∧
      (' ' ∉ function.toList → ' ' ∉ function'.toList →
        (AdminCall.setMaxQueue function size).sent = (AdminCall.setMaxQueue function' size').sent →
          function = function' ∧ size = size')) ∧
    ∀ calls : List AdminCall, (∀ call ∈ calls, NoBreak call.argument) →
      AdminClient.cutLines (calls.flatMap AdminCall.sent) =
          (calls.map fun call => asBytes call.command ++ [13]) ++ [[]] ∧
        ∀ (replies : List Bytes) (rest written : Bytes), replies.length = calls.length →
          (∀ reply ∈ replies, (10 : UInt8) ∉ reply ∧ reply.length < maxAdminLineLen) →
            runCalls calls ⟨rowsBytes replies ++ rest, written⟩ =
              (replies.map replyResult, ⟨rest, written ++ calls.flatMap AdminCall.sent⟩) := by
  refine ⟨fun call unread written => ⟨call.run_written unread written, ?_⟩,
    fun function function' size size' => ?_, fun calls hcalls =>
      ⟨cutLines_sent hcalls, fun replies rest written hlength hreplies =>
        runCalls_replies hlength hreplies rest written⟩⟩
  · rw [AdminCall.sent, oneCommandLine_iff, call.noBreak_command]
  · have hsent := AdminCall.sent_inj (.setMaxQueue function size) (.setMaxQueue function' size')
    exact ⟨hsent.trans maxQueueCommand_eq_iff, fun hfunction hfunction' h =>
      maxQueueCommand_injective hfunction hfunction' (hsent.mp h)⟩

/-- Two calls, of which the server refuses the second. -/
theorem calls_keep_step_refused :
    runCalls [.createFunction "f", .setMaxQueue "g" (.uniform 1)]
        ⟨rowsBytes [asBytes "OK\r", asBytes "ERR UNKNOWN_FUNCTION g"], []⟩ =
      ([.ok (), .error (.serverError "UNKNOWN_FUNCTION" "g")],
        ⟨[], asBytes "create function f\r\nmaxqueue g 1\r\n"⟩) := by
  have hreplies : ∀ reply ∈ [asBytes "OK\r", asBytes "ERR UNKNOWN_FUNCTION g"],
      (10 : UInt8) ∉ reply ∧ reply.length < maxAdminLineLen := by decide +kernel
  have hcalls : ∀ call ∈ [AdminCall.createFunction "f", .setMaxQueue "g" (.uniform 1)],
      NoBreak call.argument := by
    intro call hcall
    simp only [List.mem_cons, List.not_mem_nil, or_false] at hcall
    rcases hcall with rfl | rfl <;> exact ⟨by decide, by decide⟩
  have hrun := (calls_keep_step.2.2 _ hcalls).2 _ [] [] rfl hreplies
  rw [List.append_nil] at hrun
  rw [hrun]
  decide +kernel

/-- A name with a line break becomes two commands, and a name with a number and a limit
are the same command. -/
theorem calls_out_of_step :
    ¬OneCommandLine (AdminCall.createFunction "f\r\nshutdown").sent ∧
      AdminCall.setMaxQueue "f 1" .default ≠ AdminCall.setMaxQueue "f" (.uniform 1) ∧
      (AdminCall.setMaxQueue "f 1" .default).sent =
        (AdminCall.setMaxQueue "f" (.uniform 1)).sent := by
  refine ⟨?_, by decide, by decide +kernel⟩
  rw [AdminCall.sent, oneCommandLine_iff]
  exact fun h => h.1 (by decide)

end Gearman.Admin

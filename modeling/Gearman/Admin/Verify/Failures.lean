import Gearman.Admin.Verify.Ack
import Gearman.Admin.Verify.Listing
import Gearman.Admin.Verify.Operations

/-!
# Failed replies

What an operation leaves of a reply it fails on, what it makes of a reply that is
cut off, and which operations report a refusal. A listing is given up at its first
line that is over the cap or no UTF-8, and the lines behind it become the reply of
the next operation. The end of the stream counts as the end of a line, so a reply
that is cut off passes for a whole one if what is left of it is acceptable. And
only the operations that read one line know of `ERR`.
-/

namespace Gearman.Admin

namespace AdminClient

/-! ## After an error -/

/-- The operation has failed for good or has left just what follows the reply. -/
def Usable {α : Type} (r : Except GearmanError α × AdminClient) (rest : Bytes) : Prop :=
  ∀ e, r.1 = .error e → e ≠ .connectionClosed → r.2.unread = rest

/-- A reply of several lines, closed by a dot. -/
def listReply (rows : List Bytes) (last : LineEnd) : Bytes := rowsBytes rows ++ lineBytes "." last

/-- Every line that is read is readable, and if one of them is mistaken for the dot,
the rows in front of it parse. -/
def Consumed {α : Type} (parse : String → Except GearmanError α) (rows : List Bytes) : Prop :=
  (∀ row ∈ upToDot rows, lineOf row ≠ none) ∧
    (upToDot rows = rows ∨ ∀ line ∈ (upToDot rows).filterMap lineOf, ∃ row, parse line = .ok row)

theorem length_lt_lineBytes (line : String) (lineEnd : LineEnd) (rest : Bytes) :
    rest.length < (lineBytes line lineEnd ++ rest).length := by
  have hpos : 0 < (asBytes lineEnd.text).length := by cases lineEnd <;> decide
  rw [lineBytes, asBytes_append, List.length_append, List.length_append]
  omega

theorem usable_listing_iff {α : Type} (command : String) {parse : String → Except GearmanError α}
    (hparse : Reports parse) {rows : List Bytes} (hrows : ∀ row ∈ rows, (10 : UInt8) ∉ row)
    (last : LineEnd) (rest written : Bytes) :
    Usable (listing command parse ⟨listReply rows last ++ rest, written⟩ .accepted) rest ↔
      Consumed parse rows := by
  -- something is left whenever the reading stops short of the dot
  have hleft : ∀ unread : Bytes, (lineBytes "." last ++ rest).length ≤ unread.length →
      unread ≠ rest := by
    rintro unread hle rfl
    exact absurd (length_lt_lineBytes "." last unread) (Nat.not_lt.mpr hle)
  rw [listing_eq, listReply, List.append_assoc]
  rcases readDotTerminated_cases hrows (lineBytes "." last ++ rest)
      (written ++ asBytes command ++ [13, 10]) with
    ⟨hall, hread, n, -, hlines⟩ | ⟨hall, hread, unread, hle, hlines⟩ |
      ⟨⟨row, hrow, hnone⟩, e, unread, he, hle, hlines⟩
  · rw [hlines, readLines_dot (readLine_dot last rest _), foldr_consLine_ok]
    exact iff_of_true (fun _ _ _ => rfl) ⟨hall.symm ▸ hread, .inl hall⟩
  · rw [hlines]
    show (∀ e, ((upToDot rows).filterMap lineOf).mapM parse = .error e → _ → unread = rest) ↔ _
    constructor
    · intro husable
      refine ⟨hread, .inr (mapM_ok_iff.mp ?_)⟩
      rcases hresult : ((upToDot rows).filterMap lineOf).mapM parse with e | result
      · obtain ⟨line, -, herror⟩ := mapM_error hresult
        have hreport := hparse line e herror
        exact absurd (husable e hresult (by rw [hreport]; exact GearmanError.noConfusion))
          (hleft unread hle)
      · exact ⟨result, rfl⟩
    · rintro ⟨-, hcase⟩ e herror -
      obtain ⟨result, hresult⟩ := mapM_ok_iff.mpr (hcase.resolve_left hall)
      cases herror.symm.trans hresult
  · rw [hlines]
    exact iff_of_false (fun husable => hleft unread hle (husable e rfl he)) fun h =>
      h.1 row hrow hnone

theorem usable_oneLine_iff {α : Type} {command : String} {parse : String → Except GearmanError α}
    {operation : AdminClient → Io → Except GearmanError α × AdminClient} {accepts : String → Prop}
    (h : OneLine command parse operation accepts) {line : Bytes} (hline : (10 : UInt8) ∉ line)
    (rest written : Bytes) :
    Usable (operation ⟨line ++ 10 :: rest, written⟩ .accepted) rest ↔
      line.length < maxAdminLineLen := by
  rw [h.reads]
  rcases hread : lineOf line with _ | s
  · obtain ⟨e, unread, heq, he, hfits, hlong⟩ := readLine_unreadable hline hread rest
      (written ++ asBytes command ++ [13, 10])
    rw [heq]
    constructor
    · intro husable
      by_contra hge
      exact absurd (congrArg List.length (husable e rfl he))
        (Nat.ne_of_gt (hlong (Nat.not_lt.mp hge)))
    · intro hlt e' _ _
      exact hfits hlt
  · rw [readLine_of_lineOf hline hread]
    exact iff_of_true (fun _ _ _ => rfl) (Option.ite_none_right_eq_some.mp hread).1

/-- **After an error.** For any content of a complete reply, an operation that fails
with another error than `ConnectionClosed` has read just its reply if and only if:
for a listing, the rows are `Consumed`; for one line, it fits the cap. -/
theorem usable_after_error_iff {rows : List Bytes} (hrows : ∀ row ∈ rows, (10 : UInt8) ∉ row)
    {line : Bytes} (hline : (10 : UInt8) ∉ line) (last : LineEnd) (rest written : Bytes) :
    (ForListings fun operation parse =>
      Usable (operation ⟨listReply rows last ++ rest, written⟩ .accepted) rest ↔
        Consumed parse rows) ∧
    ForLines fun operation _ =>
      Usable (operation ⟨line ++ 10 :: rest, written⟩ .accepted) rest ↔
        line.length < maxAdminLineLen := by
  constructor
  · apply forListings
    intro α command parse hparse
    exact usable_listing_iff command hparse hrows last rest written
  · apply forLines
    intro α command parse operation accepts h
    exact usable_oneLine_iff h hline rest written

theorem usable_after_error_iff_noNumber :
    Usable (status ⟨listReply [asBytes "a\tx"] .lf ++ asBytes "OK 2.2.0\n", []⟩ .accepted)
        (asBytes "OK 2.2.0\n") ∧
      Usable (getpid ⟨asBytes "OK x" ++ 10 :: asBytes "OK 2.2.0\n", []⟩ .accepted)
        (asBytes "OK 2.2.0\n") := by
  have hrows : ∀ row ∈ [asBytes "a\tx"], (10 : UInt8) ∉ row := by decide
  have hline : (10 : UInt8) ∉ asBytes "OK x" := by decide
  obtain ⟨hlistings, hlines⟩ := usable_after_error_iff hrows hline .lf (asBytes "OK 2.2.0\n") []
  exact ⟨hlistings.1.mpr ⟨by decide +kernel, .inl (by decide +kernel)⟩,
    hlines.2.2.2.2.1.mpr (by decide)⟩

/-- After a row that is no UTF-8, `version` is answered with a row of the listing. -/
theorem next_reads_rest :
    workers ⟨[255, 10] ++ asBytes "OK no worker\n.\nOK 2.2.0\n", []⟩ .accepted =
        (.error .io, ⟨asBytes "OK no worker\n.\nOK 2.2.0\n", asBytes "workers\r\n"⟩) ∧
      (version ⟨asBytes "OK no worker\n.\nOK 2.2.0\n", []⟩ .accepted).1 = .ok "no worker" ∧
      ¬Usable (workers
        ⟨listReply [[255], asBytes "OK no worker"] .lf ++ asBytes "OK 2.2.0\n", []⟩ .accepted)
        (asBytes "OK 2.2.0\n") := by
  refine ⟨by decide +kernel, by decide +kernel, fun h => ?_⟩
  exact absurd (h .io (by decide +kernel) GearmanError.noConfusion) (by decide +kernel)

/-! ## A reply that is cut off -/

/-- The lines of what has arrived, the last one without its line feed. -/
def cutLines (cut : Bytes) : List Bytes := Delimited.fieldsBy (fun b => decide (b = 10)) cut

/-- One of the lines, whole or cut off, is read as a dot, and the lines in front of
the first such line are readable and parse. -/
def TakenForWhole {α : Type} (parse : String → Except GearmanError α) (lines : List Bytes) :
    Prop :=
  upToDot lines ≠ lines ∧
    ∀ row ∈ upToDot lines, ∃ line, lineOf row = some line ∧ ∃ a, parse line = .ok a

theorem join_lf (rows : List Bytes) (last : Bytes) :
    Delimited.join 10 (rows ++ [last]) = rowsBytes rows ++ last := by
  induction rows with
  | nil => rfl
  | cons row rows ih =>
    rw [List.cons_append, Delimited.join_cons_of_ne_nil _ _ (List.append_ne_nil_of_right_ne_nil _
      (List.cons_ne_nil _ _)), ih, rowsBytes_cons, List.append_assoc, List.cons_append]

/-- What has arrived is whole lines and the beginning of one. -/
theorem exists_cutLines (cut : Bytes) :
    ∃ rows last, cutLines cut = rows ++ [last] ∧ cut = rowsBytes rows ++ last ∧
      (∀ row ∈ rows, (10 : UInt8) ∉ row) ∧ (10 : UInt8) ∉ last := by
  have hfree : ∀ row ∈ cutLines cut, (10 : UInt8) ∉ row := fun row hrow hmem =>
    absurd (Delimited.eq_false_of_mem_fieldsBy hrow hmem) (by decide)
  have hjoin := Delimited.join_fieldsBy (p := fun b => decide (b = (10 : UInt8)))
    (fun _ => of_decide_eq_true) cut
  rcases List.eq_nil_or_concat (cutLines cut) with hnil | ⟨rows, last, hconcat⟩
  · exact absurd hnil (Delimited.fieldsBy_ne_nil _ cut)
  · rw [List.concat_eq_append] at hconcat
    rw [← cutLines, hconcat, join_lf] at hjoin
    rw [hconcat, List.forall_mem_append, List.forall_mem_singleton] at hfree
    exact ⟨rows, last, hconcat, hjoin.symm, hfree.1, hfree.2⟩

theorem upToDot_append (rows : List Bytes) (last : Bytes) :
    upToDot (rows ++ [last]) =
      if upToDot rows = rows then rows ++ upToDot [last] else upToDot rows := by
  unfold upToDot
  rw [List.takeWhile_append]
  have hlength : ((rows.takeWhile fun row => decide (lineOf row ≠ some ".")).length = rows.length) ↔
      (rows.takeWhile fun row => decide (lineOf row ≠ some ".")) = rows :=
    ⟨(List.takeWhile_prefix _).eq_of_length, congrArg List.length⟩
  simp only [hlength]

/-- What is left of a line at the end of the stream. -/
theorem readLines_cut {last : Bytes} (h : (10 : UInt8) ∉ last) {n : Nat} (hn : last.length ≤ n)
    (written : Bytes) :
    (lineOf last = some "." → readLines (n + 1) ⟨last, written⟩ = (.ok [], ⟨[], written⟩)) ∧
    (lineOf last ≠ some "." →
      ∃ e client, readLines (n + 1) ⟨last, written⟩ = (.error e, client)) := by
  by_cases hne : last = []
  · subst hne
    exact ⟨fun hdot => absurd hdot (by decide), fun _ =>
      ⟨_, _, readLines_error (readLine_eof written)⟩⟩
  · obtain ⟨hok, herror⟩ := readLine_cut h hne written
    refine ⟨fun hdot => readLines_dot (hok _ hdot), fun hdot => ?_⟩
    rcases hline : lineOf last with _ | line
    · obtain ⟨e, client, hread⟩ := herror hline
      exact ⟨e, client, readLines_error hread⟩
    · -- the next turn finds the end of the stream
      obtain ⟨n, rfl⟩ : ∃ m, n = m + 1 := Nat.exists_eq_add_one_of_ne_zero (by
        have hpos := List.length_pos_iff.mpr hne
        omega)
      have hne : line ≠ "." := fun heq => hdot (hline.trans (congrArg some heq))
      rw [readLines_ok (hok line hline) hne, readLines_error (readLine_eof written)]
      exact ⟨_, _, rfl⟩

theorem taken_iff {α : Type} {parse : String → Except GearmanError α} {rows : List Bytes}
    (hread : ∀ row ∈ rows, lineOf row ≠ none) :
    (∀ row ∈ rows, ∃ line, lineOf row = some line ∧ ∃ a, parse line = .ok a) ↔
      ∃ result, (rows.filterMap lineOf).mapM parse = .ok result := by
  rw [mapM_ok_iff]
  constructor
  · intro h line hline
    obtain ⟨row, hrow, heq⟩ := List.mem_filterMap.mp hline
    obtain ⟨line', hline', ha⟩ := h row hrow
    exact Option.some.inj (heq.symm.trans hline') ▸ ha
  · intro h row hrow
    obtain ⟨line, hline⟩ := Option.ne_none_iff_exists'.mp (hread row hrow)
    exact ⟨line, hline, h line (List.mem_filterMap.mpr ⟨row, hrow, hline⟩)⟩

theorem upToDot_ne_concat (rows : List Bytes) (last : Bytes) : upToDot rows ≠ rows ++ [last] := by
  intro heq
  have hle : (upToDot rows).length ≤ rows.length := (List.takeWhile_prefix _).length_le
  have hlength := congrArg List.length heq
  rw [List.length_append, List.length_singleton] at hlength
  omega

theorem listing_cut_ok_iff {α : Type} (command : String) (parse : String → Except GearmanError α)
    (cut written : Bytes) :
    (∃ result, (listing command parse ⟨cut, written⟩ .accepted).1 = .ok result) ↔
      TakenForWhole parse (cutLines cut) := by
  obtain ⟨rows, last, hlines, hcut, hrows, hlast⟩ := exists_cutLines cut
  rw [listing_eq, hlines, hcut, TakenForWhole, upToDot_append]
  rcases readDotTerminated_cases hrows last (written ++ asBytes command ++ [13, 10]) with
    ⟨hall, hread, n, hn, hlines⟩ | ⟨hall, hread, unread, -, hlines⟩ |
      ⟨⟨row, hrow, hnone⟩, e, unread, -, -, hlines⟩
  · obtain ⟨hwhole, hlost⟩ := readLines_cut hlast hn (written ++ asBytes command ++ [13, 10])
    rw [hlines, if_pos hall]
    by_cases hdot : lineOf last = some "."
    · rw [hwhole hdot, foldr_consLine_ok, List.append_nil, upToDot_cons_dot hdot,
        List.append_nil, taken_iff hread]
      have hne : rows ≠ rows ++ [last] := fun heq => upToDot_ne_concat rows last (hall.trans heq)
      exact (and_iff_right hne).symm
    · obtain ⟨e, client, herror⟩ := hlost hdot
      rw [herror, foldr_consLine_error, upToDot_cons hdot]
      exact iff_of_false not_ok_error fun h => h.1 rfl
  · rw [hlines, if_neg hall, taken_iff hread]
    exact (and_iff_right (upToDot_ne_concat rows last)).symm
  · rw [hlines]
    refine iff_of_false not_ok_error fun ⟨_, htaken⟩ => ?_
    have hmem : row ∈ if upToDot rows = rows then rows ++ upToDot [last] else upToDot rows := by
      split
      · next hall => exact List.mem_append_left _ (hall ▸ hrow)
      · exact hrow
    obtain ⟨line, hline, -⟩ := htaken row hmem
    cases hnone.symm.trans hline

theorem oneLine_cut_ok_iff {α : Type} {command : String} {parse : String → Except GearmanError α}
    {operation : AdminClient → Io → Except GearmanError α × AdminClient} {accepts : String → Prop}
    (h : OneLine command parse operation accepts) {cut : Bytes} (hcut : (10 : UInt8) ∉ cut)
    (written : Bytes) :
    (∃ a, (operation ⟨cut, written⟩ .accepted).1 = .ok a) ↔
      ∃ line, lineOf cut = some line ∧ accepts line := by
  rw [h.reads]
  by_cases hne : cut = []
  · subst hne
    rw [readLine_eof]
    refine iff_of_false not_ok_error ?_
    rintro ⟨line, hline, haccepts⟩
    obtain ⟨a, ha⟩ := (h.accepts_iff line).mpr haccepts
    obtain rfl : "" = line := Option.some.inj hline
    rw [h.refuses "" (.adminProtocolError "") rfl] at ha
    cases ha
  · obtain ⟨hok, herror⟩ := readLine_cut hcut hne (written ++ asBytes command ++ [13, 10])
    rcases hline : lineOf cut with _ | line
    · obtain ⟨e, client, hread⟩ := herror hline
      rw [hread]
      exact iff_of_false not_ok_error fun ⟨_, h, _⟩ => by cases h
    · rw [hok line hline]
      constructor
      · rintro ⟨a, ha⟩
        exact ⟨line, rfl, (h.accepts_iff line).mp ⟨a, ha⟩⟩
      · rintro ⟨_, hsome, haccepts⟩
        cases hsome
        exact (h.accepts_iff line).mpr haccepts

/-- **A reply that is cut off.** Where the peer closes the connection in front of the
last byte of the content of the last line, the operation fails if and only if: what
has arrived of a listing is not `TakenForWhole`; what has arrived of one line is not
readable, or is no line the operation accepts. -/
theorem cut_reply_fails_iff (cut written : Bytes) :
    (ForListings fun operation parse => ∀ rows : List Bytes,
      (∀ row ∈ rows, (10 : UInt8) ∉ row) → cut <+: rowsBytes rows →
        ((∃ e, (operation ⟨cut, written⟩ .accepted).1 = .error e) ↔
          ¬TakenForWhole parse (cutLines cut))) ∧
    ForLines fun operation accepts => ∀ line : Bytes,
      (10 : UInt8) ∉ line → cut <+: line → cut ≠ line →
        ((∃ e, (operation ⟨cut, written⟩ .accepted).1 = .error e) ↔
          ¬∃ s, lineOf cut = some s ∧ accepts s) := by
  constructor
  · apply forListings
    intro α command parse _ rows _ _
    rw [error_iff, listing_cut_ok_iff]
  · apply forLines
    intro α command parse operation accepts h line hline hcut _
    rw [error_iff, oneLine_cut_ok_iff h fun hmem => hline (hcut.subset hmem)]

theorem cut_reply_fails_iff_noLine :
    (∃ e, (status ⟨asBytes "a\t0\t0\t1\n", []⟩ .accepted).1 = .error e) ∧
      ∃ e, (version ⟨asBytes "O", []⟩ .accepted).1 = .error e := by
  have hrow : ∀ row ∈ [asBytes "a\t0\t0\t1"], (10 : UInt8) ∉ row := by decide
  have hall : upToDot (cutLines (asBytes "a\t0\t0\t1\n")) = cutLines (asBytes "a\t0\t0\t1\n") := by
    decide +kernel
  have hnone : stripPrefix "OK" "O" = none := by decide
  have hline : lineOf (asBytes "O") = some "O" := by decide +kernel
  refine ⟨((cut_reply_fails_iff _ []).1.1 _ hrow (by decide)).mpr fun htaken => htaken.1 hall,
    ((cut_reply_fails_iff _ []).2.2.2.2.2.2.2 (asBytes "OK 2.2.0") (by decide) (by decide)
      (by decide)).mpr ?_⟩
  rintro ⟨s, hs, rest, hrest, -⟩
  cases hline.symm.trans hs
  cases hnone.symm.trans hrest

/-- The pid 1234 cut off after its second digit, and a function name cut off after
its first letter, a dot. -/
theorem cut_reply_taken :
    (getpid ⟨asBytes "OK 12", []⟩ .accepted).1 = .ok 12 ∧
      asBytes "OK 12" <+: asBytes "OK 1234" ∧
      (status ⟨asBytes "a\t0\t0\t1\n.", []⟩ .accepted).1 = .ok [⟨"a", 0, 0, 1⟩] ∧
      asBytes "a\t0\t0\t1\n." <+:
        rowsBytes [asBytes "a\t0\t0\t1", asBytes ".b\t7\t7\t1"] := by
  refine ⟨by decide +kernel, by decide, by decide +kernel, by decide⟩

/-! ## A refusal -/

/-- The operation has reported the refusal and read nothing behind it. -/
def Refused {α : Type} (r : Except GearmanError α × AdminClient) (code text : String)
    (rest : Bytes) : Prop :=
  r.1 = .error (.serverError code text) ∧ r.2.unread = rest

/-- `ERR <CODE> <text>`. -/
def errLine (code text : String) : String := s!"ERR {code} {text}"

theorem readLine_ne_serverError {client client' : AdminClient} {e : GearmanError}
    (h : client.readLine = (.error e, client')) (code text : String) :
    e ≠ .serverError code text := by
  unfold readLine at h
  dsimp only at h
  split at h
  · cases h
    exact GearmanError.noConfusion
  · split at h
    · cases h
      exact GearmanError.noConfusion
    · split at h
      · cases h
        exact GearmanError.noConfusion
      · cases h

theorem readLines_ne_serverError {n : Nat} {client client' : AdminClient} {e : GearmanError}
    (h : readLines n client = (.error e, client')) (code text : String) :
    e ≠ .serverError code text := by
  induction n generalizing client client' with
  | zero =>
    cases h
    exact GearmanError.noConfusion
  | succ n ih =>
    rcases hread : client.readLine with ⟨e' | line, client''⟩
    · rw [readLines_error hread] at h
      cases h
      exact readLine_ne_serverError hread code text
    · by_cases hdot : line = "."
      · subst hdot
        rw [readLines_dot hread] at h
        cases h
      · rw [readLines_ok hread hdot, consLine] at h
        rcases hrest : readLines n client'' with ⟨e' | lines, last⟩
        · rw [hrest] at h
          cases h
          exact ih hrest
        · rw [hrest] at h
          cases h

/-- No listing reports a refusal. -/
theorem listing_ne_serverError {α : Type} (command : String)
    {parse : String → Except GearmanError α} (hparse : Reports parse) (unread written : Bytes)
    (code text : String) :
    (listing command parse ⟨unread, written⟩ .accepted).1 ≠ .error (.serverError code text) := by
  rw [listing_eq]
  rcases hread : readDotTerminated ⟨unread, written ++ asBytes command ++ [13, 10]⟩ with
    ⟨e | lines, client⟩
  · intro h
    cases h
    exact readLines_ne_serverError hread code text rfl
  · intro h
    obtain ⟨line, -, herror⟩ := mapM_error h
    cases hparse line _ herror

theorem toList_errLine (code text : String) :
    (errLine code text).toList = ['E', 'R', 'R', ' '] ++ code.toList ++ ' ' :: text.toList := by
  show ("ERR " ++ code ++ " " ++ text).toList = _
  simp

theorem code_of_word {code : String} (h : Word code) : Code code where
  solid := by
    obtain ⟨c, cs, hcs⟩ := List.exists_cons_of_ne_nil h.ne_nil
    exact ⟨c, by rw [hcs]; rfl, h.solid c (hcs ▸ List.mem_cons_self)⟩
  spaceFree hmem := absurd (h.solid _ hmem) (by decide)

/-- A refusal is of the form that the grammar has for one. -/
theorem parseAckLine_errLine {code : String} (hcode : Word code) (text : String) :
    parseAckLine (errLine code text) = .error (.serverError code text) := by
  have hline : errLine code text = "ERR" ++ (" " ++ (code ++ " " ++ text)) := by
    rw [← String.toList_inj, toList_errLine]
    simp
  have hgap : Blank " " := by
    intro c hc
    rw [List.mem_singleton.mp hc]
    rfl
  rw [hline]
  apply parseAckLine_of_form
  exact .errText hgap (by decide) (code_of_word hcode)

theorem unbroken_errLine {code text : String} (hcode : Word code) (htext : Unbroken text) :
    Unbroken (errLine code text) := by
  have hline := toList_errLine code text
  constructor
  · rw [hline]
    simp only [List.mem_append, List.mem_cons, not_or]
    exact ⟨⟨by decide, hcode.plain.lf⟩, by decide, htext.lf⟩
  · rw [hline, List.getLast?_append_of_ne_nil _ (List.cons_ne_nil _ _), List.getLast?_cons]
    have hcr := htext.cr
    rcases hlast : text.toList.getLast? with _ | c
    · decide
    · rw [hlast] at hcr
      exact hcr

theorem refused_oneLine_iff {α : Type} {command : String} {parse : String → Except GearmanError α}
    {operation : AdminClient → Io → Except GearmanError α × AdminClient} {accepts : String → Prop}
    (h : OneLine command parse operation accepts) {code text : String} (hcode : Word code)
    (htext : Unbroken text) (last : LineEnd) (rest written : Bytes) :
    Refused (operation ⟨lineBytes (errLine code text) last ++ rest, written⟩ .accepted)
        code text rest ↔
      (lineBytes (errLine code text) last).length ≤ maxAdminLineLen := by
  have hunbroken := unbroken_errLine hcode htext
  rw [h.reads]
  constructor
  · rintro ⟨hresult, -⟩
    by_contra hlong
    -- the line is over the cap, so reading it fails otherwise
    obtain ⟨body, hbytes, hbody⟩ := lineBytes_eq hunbroken last
    rw [hbytes, List.length_append, List.length_singleton] at hlong
    obtain ⟨e, hread, -⟩ := readLine_long hbody (by omega) ([10] ++ rest)
      (written ++ asBytes command ++ [13, 10])
    rw [hbytes, List.append_assoc, hread] at hresult
    cases hresult
    exact readLine_ne_serverError hread code text rfl
  · intro hfits
    rw [readLine_line hunbroken hfits]
    exact ⟨h.refuses _ _ (parseAckLine_errLine hcode text), rfl⟩

/-- **A refusal.** Of the operations that read one line each reports a refusal, with its
code and text and without reading on, if and only if the line fits the cap. No listing
ever reports one. -/
theorem refusal_reported_iff {code text : String} (hcode : Word code) (htext : Unbroken text)
    (last : LineEnd) (rest written : Bytes) :
    (ForListings fun operation _ =>
      ¬Refused (operation ⟨lineBytes (errLine code text) last ++ rest, written⟩ .accepted)
        code text rest) ∧
    ForLines fun operation _ =>
      Refused (operation ⟨lineBytes (errLine code text) last ++ rest, written⟩ .accepted)
          code text rest ↔
        (lineBytes (errLine code text) last).length ≤ maxAdminLineLen := by
  constructor
  · apply forListings
    intro α command parse hparse hrefused
    exact listing_ne_serverError command hparse _ written code text hrefused.1
  · apply forLines
    intro α command parse operation accepts h
    exact refused_oneLine_iff h hcode htext last rest written

theorem refusal_reported_iff_unknownCommand :
    Refused (version
        ⟨lineBytes (errLine "UNKNOWN_COMMAND" "Unknown+server+command") .crlf ++
          asBytes "OK 1234\n", []⟩ .accepted)
      "UNKNOWN_COMMAND" "Unknown+server+command" (asBytes "OK 1234\n") := by
  have hcode : Word "UNKNOWN_COMMAND" := by decide
  have htext : Unbroken "Unknown+server+command" := ⟨by decide, by decide⟩
  obtain ⟨-, hlines⟩ := refusal_reported_iff hcode htext .crlf (asBytes "OK 1234\n") []
  exact hlines.2.2.2.2.2.2.mpr (by decide +kernel)

/-- `show unique jobs` on a server that does not know it takes the refusal and the
reply to the next command for ids. -/
theorem refusal_swallowed :
    showUniqueJobs
        ⟨lineBytes (errLine "UNKNOWN_COMMAND" "Unknown+server+command") .crlf ++
          asBytes "H:a:1\tu\n.\n", []⟩ .accepted =
      (.ok [⟨none, "ERR UNKNOWN_COMMAND Unknown+server+command"⟩, ⟨some "H:a:1", "u"⟩],
        ⟨[], asBytes "show unique jobs\r\n"⟩) := by
  decide +kernel

end AdminClient

end Gearman.Admin

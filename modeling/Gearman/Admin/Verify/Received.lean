import Gearman.Admin.Ack
import Gearman.Admin.Listing
import Gearman.Admin.Verify.Lines

/-!
# Whatever the server sends

What a read makes of any bytes. A line is readable if it is UTF-8 and fits the cap
together with its line feed. `lineOf` is what it is read as. A line that is cut off
by the end of the stream is read in the same way as a whole one.
-/

namespace Gearman.Admin

/-! ## UTF-8 and line feeds -/

theorem asBytes_lf : asBytes "\n" = [10] := rfl

theorem utf8EncodeChar_lf : String.utf8EncodeChar '\n' = [10] := rfl

/-- A string whose last byte is a line feed ends in one. -/
theorem exists_of_asBytes_concat_lf {s : String} {content : Bytes}
    (h : asBytes s = content ++ [10]) : ∃ t, s = t ++ "\n" ∧ asBytes t = content := by
  rcases List.eq_nil_or_concat s.toList with hnil | ⟨cs, c, hconcat⟩
  · rw [asBytes_eq_flatMap, hnil] at h
    exact absurd (congrArg List.length h) (by simp)
  · rw [List.concat_eq_append] at hconcat
    rw [asBytes_eq_flatMap, hconcat, List.flatMap_append, List.flatMap_singleton] at h
    have hlast : (10 : UInt8) ∈ String.utf8EncodeChar c := by
      have hlast := congrArg List.getLast? h
      rw [List.getLast?_concat, List.getLast?_append_of_ne_nil _ (by
        intro hnil
        have hlength := congrArg List.length hnil
        rw [String.length_utf8EncodeChar] at hlength
        exact absurd hlength (Nat.ne_of_gt c.utf8Size_pos))] at hlast
      exact List.mem_of_getLast? hlast
    obtain rfl := char_eq_of_mem_utf8EncodeChar (by decide) utf8EncodeChar_lf hlast
    refine ⟨String.ofList cs, ?_, ?_⟩
    · rw [← String.toList_inj, String.toList_append, String.toList_ofList, hconcat]
      rfl
    · rw [asBytes_ofList]
      exact List.append_cancel_right (h.trans (congrArg (content ++ ·) utf8EncodeChar_lf.symm))

theorem fromUtf8_concat_lf (content : Bytes) :
    fromUtf8 (content ++ [10]) = (fromUtf8 content).map (· ++ "\n") := by
  rcases hcontent : fromUtf8 content with _ | s
  · rcases hline : fromUtf8 (content ++ [10]) with _ | t
    · rfl
    · obtain ⟨s, -, hs⟩ := exists_of_asBytes_concat_lf (fromUtf8_eq_some.mp hline).symm
      rw [fromUtf8_eq_some.mpr hs.symm] at hcontent
      cases hcontent
  · rw [fromUtf8_eq_some.mp hcontent, ← asBytes_lf, ← asBytes_append, fromUtf8_asBytes]
    rfl

theorem trimLineEnd_lf (s : String) : trimLineEnd (s ++ "\n") = trimLineEnd s := by
  rw [trimLineEnd, String.toList_append]
  exact congrArg String.ofList (List.rdropWhile_concat_pos _ s.toList '\n' rfl)

theorem endsWith_lf (s : String) : endsWith (s ++ "\n") '\n' = true := by
  simp [endsWith]

theorem endsWith_of_lf_notMem {s : String} (h : (10 : UInt8) ∉ asBytes s) :
    endsWith s '\n' = false :=
  decide_eq_false fun hlast => h (lf_mem_asBytes_iff.mpr (List.mem_of_getLast? hlast))

/-! ## One line -/

/-- What a line is read as, if it is readable. -/
def lineOf (content : Bytes) : Option String :=
  if content.length < maxAdminLineLen then (fromUtf8 content).map trimLineEnd else none

/-- A line feed that is out of reach. -/
theorem readUntil_short {n : Nat} {content : Bytes} (h : (10 : UInt8) ∉ content)
    (hn : n ≤ content.length) (rest : Bytes) :
    readUntil n (content ++ rest) = (content.take n, content.drop n ++ rest) := by
  induction content generalizing n with
  | nil =>
    obtain rfl := Nat.le_zero.mp hn
    rfl
  | cons b content ih =>
    rw [List.mem_cons, not_or] at h
    cases n with
    | zero => rfl
    | succ n =>
      rw [List.cons_append, readUntil, if_neg (Ne.symm h.1), ih h.2 (Nat.le_of_succ_le_succ hn)]
      rfl

/-- No line feed before the end of the stream. -/
theorem readUntil_eof {n : Nat} {content : Bytes} (h : (10 : UInt8) ∉ content)
    (hn : content.length < n) : readUntil n content = (content, []) := by
  induction content generalizing n with
  | nil =>
    obtain ⟨n, rfl⟩ := Nat.exists_eq_add_one_of_ne_zero (Nat.ne_of_gt hn)
    rfl
  | cons b content ih =>
    obtain ⟨n, rfl⟩ := Nat.exists_eq_add_one_of_ne_zero (Nat.ne_of_gt (Nat.zero_lt_of_lt hn))
    rw [List.mem_cons, not_or] at h
    rw [readUntil, if_neg (Ne.symm h.1), ih h.2 (Nat.lt_of_succ_lt_succ hn)]

namespace AdminClient

/-- A line that does not fit the cap: the first bytes up to the cap are taken. -/
theorem readLine_long {content : Bytes} (h : (10 : UInt8) ∉ content)
    (hlong : maxAdminLineLen ≤ content.length) (rest written : Bytes) :
    ∃ e, readLine ⟨content ++ rest, written⟩ =
        (.error e, ⟨content.drop maxAdminLineLen ++ rest, written⟩) ∧ e ≠ .connectionClosed := by
  have hlength : (content.take maxAdminLineLen).length = maxAdminLineLen :=
    List.length_take_of_le hlong
  have hpos : maxAdminLineLen ≠ 0 := by decide
  unfold readLine
  simp only [readUntil_short h hlong, hlength, if_neg hpos]
  rcases hstring : fromUtf8 (content.take maxAdminLineLen) with _ | s
  · exact ⟨.io, rfl, GearmanError.noConfusion⟩
  · have hends : endsWith s '\n' = false := by
      apply endsWith_of_lf_notMem
      rw [← fromUtf8_eq_some.mp hstring]
      exact fun hmem => h (List.mem_of_mem_take hmem)
    refine ⟨.adminLineTooLong maxAdminLineLen, ?_, GearmanError.noConfusion⟩
    simp only [hends, Nat.le_refl, decide_true, Bool.not_false, Bool.and_self, if_true]

/-- A readable line is read whole. -/
theorem readLine_of_lineOf {content : Bytes} {line : String} (h : (10 : UInt8) ∉ content)
    (hline : lineOf content = some line) (rest written : Bytes) :
    readLine ⟨content ++ 10 :: rest, written⟩ = (.ok line, ⟨rest, written⟩) := by
  unfold lineOf at hline
  obtain ⟨hfits, hline⟩ := Option.ite_none_right_eq_some.mp hline
  obtain ⟨s, hs, rfl⟩ := Option.map_eq_some_iff.mp hline
  have hstring : fromUtf8 (content ++ [10]) = some (s ++ "\n") := by
    rw [fromUtf8_concat_lf, hs, Option.map_some]
  have hpos : (content ++ [10]).length ≠ 0 := by simp
  unfold readLine
  simp only [readUntil_line h hfits rest, hstring, endsWith_lf, trimLineEnd_lf, if_neg hpos]
  rfl

/-- A line that is not readable: a line that fits the cap is taken all the same, of
one that does not something is left. -/
theorem readLine_unreadable {content : Bytes} (h : (10 : UInt8) ∉ content)
    (hline : lineOf content = none) (rest written : Bytes) :
    ∃ e unread, readLine ⟨content ++ 10 :: rest, written⟩ = (.error e, ⟨unread, written⟩) ∧
      e ≠ .connectionClosed ∧ (content.length < maxAdminLineLen → unread = rest) ∧
      (maxAdminLineLen ≤ content.length → rest.length < unread.length) := by
  rcases Nat.lt_or_ge content.length maxAdminLineLen with hfits | hlong
  · rw [lineOf, if_pos hfits, Option.map_eq_none_iff] at hline
    have hstring : fromUtf8 (content ++ [10]) = none := by
      rw [fromUtf8_concat_lf, hline, Option.map_none]
    refine ⟨.io, rest, ?_, GearmanError.noConfusion, fun _ => rfl,
      fun hlong => absurd hfits (Nat.not_lt.mpr hlong)⟩
    unfold readLine
    simp only [readUntil_line h hfits rest, hstring]
  · obtain ⟨e, hread, he⟩ := readLine_long h hlong (10 :: rest) written
    refine ⟨e, _, hread, he, fun hfits => absurd hlong (Nat.not_le.mpr hfits), fun _ => ?_⟩
    rw [List.length_append, List.length_cons]
    omega

theorem readLine_eof (written : Bytes) :
    readLine ⟨[], written⟩ = (.error .connectionClosed, ⟨[], written⟩) := rfl

/-- A line cut off by the end of the stream is read as if it were whole. -/
theorem readLine_cut {content : Bytes} (h : (10 : UInt8) ∉ content) (hne : content ≠ [])
    (written : Bytes) :
    (∀ line, lineOf content = some line →
      readLine ⟨content, written⟩ = (.ok line, ⟨[], written⟩)) ∧
    (lineOf content = none → ∃ e client, readLine ⟨content, written⟩ = (.error e, client)) := by
  rcases Nat.lt_or_ge content.length maxAdminLineLen with hfits | hlong
  · rw [lineOf, if_pos hfits]
    unfold readLine
    simp only [readUntil_eof h hfits]
    rcases hstring : fromUtf8 content with _ | s
    · exact ⟨(fun line hline => by cases hline), fun _ => ⟨.io, _, rfl⟩⟩
    · have hends : endsWith s '\n' = false :=
        endsWith_of_lf_notMem (fromUtf8_eq_some.mp hstring ▸ h)
      have hpos : content.length ≠ 0 := fun hzero => hne (List.length_eq_zero_iff.mp hzero)
      have hcap : decide (maxAdminLineLen ≤ content.length) = false :=
        decide_eq_false (Nat.not_le.mpr hfits)
      refine ⟨fun line hline => ?_, fun hnone => by cases hnone⟩
      cases hline
      simp only [hpos, hcap, Bool.and_false, if_false, Bool.false_eq_true]
  · rw [lineOf, if_neg (Nat.not_lt.mpr hlong)]
    obtain ⟨e, hread, -⟩ := readLine_long h hlong [] written
    rw [List.append_nil] at hread
    exact ⟨(fun line hline => by cases hline), fun _ => ⟨e, _, hread⟩⟩

end AdminClient

/-! ## Rows -/

/-- Lines, each with its line feed. -/
def rowsBytes (rows : List Bytes) : Bytes := rows.flatMap fun row => row ++ [10]

/-- The rows in front of the first one that is read as a dot. -/
def upToDot (rows : List Bytes) : List Bytes := rows.takeWhile fun row => lineOf row ≠ some "."

@[simp] theorem rowsBytes_nil : rowsBytes [] = [] := rfl

theorem rowsBytes_cons (row : Bytes) (rows : List Bytes) :
    rowsBytes (row :: rows) = row ++ 10 :: rowsBytes rows := by
  simp [rowsBytes]

theorem length_le_rowsBytes (rows : List Bytes) : rows.length ≤ (rowsBytes rows).length := by
  induction rows with
  | nil => exact Nat.zero_le _
  | cons row rows ih =>
    rw [rowsBytes_cons, List.length_append, List.length_cons, List.length_cons]
    omega

theorem upToDot_cons_dot {row : Bytes} (h : lineOf row = some ".") (rows : List Bytes) :
    upToDot (row :: rows) = [] :=
  List.takeWhile_cons_of_neg (by simp [h])

theorem upToDot_cons {row : Bytes} (h : lineOf row ≠ some ".") (rows : List Bytes) :
    upToDot (row :: rows) = row :: upToDot rows :=
  List.takeWhile_cons_of_pos (by simp [h])

namespace AdminClient

/-- Rows that are all readable and no dots are read one by one. -/
theorem readLines_rows {rows : List Bytes} (hrows : ∀ row ∈ rows, (10 : UInt8) ∉ row)
    (hread : ∀ row ∈ rows, ∃ line, lineOf row = some line ∧ line ≠ ".") (n : Nat)
    (tail written : Bytes) :
    readLines (rows.length + n) ⟨rowsBytes rows ++ tail, written⟩ =
      (rows.filterMap lineOf).foldr consLine (readLines n ⟨tail, written⟩) := by
  induction rows with
  | nil => rw [List.length_nil, Nat.zero_add, rowsBytes_nil, List.nil_append]; rfl
  | cons row rows ih =>
    rw [List.forall_mem_cons] at hrows hread
    obtain ⟨⟨line, hline, hdot⟩, hread⟩ := hread
    rw [List.length_cons, Nat.add_right_comm, rowsBytes_cons, List.append_assoc, List.cons_append,
      readLines_ok (readLine_of_lineOf hrows.1 hline _ written) hdot, ih hrows.2 hread,
      List.filterMap_cons_some hline, List.foldr_cons]

theorem foldr_consLine_ok (lines more : List String) (client : AdminClient) :
    lines.foldr consLine (.ok more, client) = (.ok (lines ++ more), client) := by
  induction lines with
  | nil => rfl
  | cons line lines ih =>
    rw [List.foldr_cons, ih]
    rfl

theorem foldr_consLine_error (lines : List String) (e : GearmanError) (client : AdminClient) :
    lines.foldr consLine (.error e, client) = (.error e, client) := by
  induction lines with
  | nil => rfl
  | cons line lines ih =>
    rw [List.foldr_cons, ih]
    rfl

/-- The turns of `read_dot_terminated` are never short. -/
theorem readDotTerminated_rows {rows : List Bytes} (hrows : ∀ row ∈ rows, (10 : UInt8) ∉ row)
    (hread : ∀ row ∈ rows, ∃ line, lineOf row = some line ∧ line ≠ ".") (tail written : Bytes) :
    ∃ n, tail.length ≤ n ∧ readDotTerminated ⟨rowsBytes rows ++ tail, written⟩ =
      (rows.filterMap lineOf).foldr consLine (readLines (n + 1) ⟨tail, written⟩) := by
  have hle := length_le_rowsBytes rows
  refine ⟨(rowsBytes rows).length - rows.length + tail.length, by omega, ?_⟩
  rw [← readLines_rows hrows hread, readDotTerminated, List.length_append]
  congr 1
  omega

/-- At the first row that is not readable the reading stops, with the rest of the
reply unread. -/
theorem readLines_unreadable {rows : List Bytes} (hrows : ∀ row ∈ rows, (10 : UInt8) ∉ row)
    (hbad : ∃ row ∈ upToDot rows, lineOf row = none) (tail written : Bytes) {n : Nat}
    (hn : rows.length < n) :
    ∃ e unread, readLines n ⟨rowsBytes rows ++ tail, written⟩ = (.error e, ⟨unread, written⟩) ∧
      e ≠ .connectionClosed ∧ tail.length ≤ unread.length := by
  induction rows generalizing n with
  | nil =>
    obtain ⟨row, hrow, -⟩ := hbad
    cases hrow
  | cons row rows ih =>
    obtain ⟨n, rfl⟩ := Nat.exists_eq_add_one_of_ne_zero (Nat.ne_of_gt (Nat.zero_lt_of_lt hn))
    rw [List.forall_mem_cons] at hrows
    rw [rowsBytes_cons, List.append_assoc, List.cons_append]
    rcases hline : lineOf row with _ | line
    · obtain ⟨e, unread, hread, he, hfits, hlong⟩ :=
        readLine_unreadable hrows.1 hline (rowsBytes rows ++ tail) written
      refine ⟨e, unread, readLines_error hread, he, ?_⟩
      have hle : (rowsBytes rows ++ tail).length ≤ unread.length := by
        rcases Nat.lt_or_ge row.length maxAdminLineLen with hlt | hge
        · rw [hfits hlt]
        · exact Nat.le_of_lt (hlong hge)
      rw [List.length_append] at hle
      omega
    · have hdot : line ≠ "." := by
        rintro rfl
        rw [upToDot_cons_dot hline] at hbad
        obtain ⟨row, hrow, -⟩ := hbad
        cases hrow
      have hne : lineOf row ≠ some "." := fun h => hdot (Option.some.inj (hline.symm.trans h))
      rw [upToDot_cons hne] at hbad
      have hbad : ∃ row ∈ upToDot rows, lineOf row = none := by
        obtain ⟨bad, hmem, hnone⟩ := hbad
        rcases List.mem_cons.mp hmem with rfl | hmem
        · cases hline.symm.trans hnone
        · exact ⟨bad, hmem, hnone⟩
      obtain ⟨e, unread, hread, he, hle⟩ := ih hrows.2 hbad (Nat.lt_of_succ_lt_succ hn)
      refine ⟨e, unread, ?_, he, hle⟩
      rw [readLines_ok (readLine_of_lineOf hrows.1 hline _ written) hdot, hread]
      rfl

theorem upToDot_spec {rows : List Bytes} (hread : ∀ row ∈ upToDot rows, lineOf row ≠ none) :
    ∀ row ∈ upToDot rows, ∃ line, lineOf row = some line ∧ line ≠ "." := by
  intro row hrow
  obtain ⟨line, hline⟩ := Option.ne_none_iff_exists'.mp (hread row hrow)
  have hnot := List.mem_takeWhile_imp (p := fun row => decide (lineOf row ≠ some ".")) hrow
  refine ⟨line, hline, ?_⟩
  rintro rfl
  exact of_decide_eq_true hnot hline

/-- A row that is read as a dot ends the reading. -/
theorem readDotTerminated_dot {rows : List Bytes} (hrows : ∀ row ∈ rows, (10 : UInt8) ∉ row)
    (hread : ∀ row ∈ upToDot rows, lineOf row ≠ none) (hdot : upToDot rows ≠ rows)
    (tail written : Bytes) :
    ∃ unread, readDotTerminated ⟨rowsBytes rows ++ tail, written⟩ =
        (.ok ((upToDot rows).filterMap lineOf), ⟨unread, written⟩) ∧
      tail.length ≤ unread.length := by
  have hsplit : upToDot rows ++ rows.dropWhile (fun row => lineOf row ≠ some ".") = rows :=
    List.takeWhile_append_dropWhile
  rcases hdrop : rows.dropWhile (fun row => lineOf row ≠ some ".") with _ | ⟨row, later⟩
  · rw [hdrop, List.append_nil] at hsplit
    exact absurd hsplit hdot
  · have hrow : lineOf row = some "." := by
      have hnot := List.head?_dropWhile_not (fun row => lineOf row ≠ some ".") rows
      rw [hdrop] at hnot
      simpa using hnot
    rw [hdrop] at hsplit
    have hbytes : rowsBytes rows ++ tail =
        rowsBytes (upToDot rows) ++ (row ++ 10 :: (rowsBytes later ++ tail)) := by
      conv_lhs => rw [← hsplit]
      simp [rowsBytes]
    rw [← hsplit, List.forall_mem_append, List.forall_mem_cons] at hrows
    obtain ⟨n, -, hlines⟩ := readDotTerminated_rows hrows.1 (upToDot_spec hread)
      (row ++ 10 :: (rowsBytes later ++ tail)) written
    refine ⟨rowsBytes later ++ tail, ?_, ?_⟩
    · rw [hbytes, hlines, readLines_dot (readLine_of_lineOf hrows.2.1 hrow _ written),
        foldr_consLine_ok, List.append_nil]
    · rw [List.length_append]
      omega

/-- What the reading makes of rows: all of them are lines of the reply, or one that
reads as a dot ends it, or one that is not readable does. -/
theorem readDotTerminated_cases {rows : List Bytes} (hrows : ∀ row ∈ rows, (10 : UInt8) ∉ row)
    (tail written : Bytes) :
    (upToDot rows = rows ∧ (∀ row ∈ rows, lineOf row ≠ none) ∧
      ∃ n, tail.length ≤ n ∧ readDotTerminated ⟨rowsBytes rows ++ tail, written⟩ =
        (rows.filterMap lineOf).foldr consLine (readLines (n + 1) ⟨tail, written⟩)) ∨
    (upToDot rows ≠ rows ∧ (∀ row ∈ upToDot rows, lineOf row ≠ none) ∧
      ∃ unread, tail.length ≤ unread.length ∧
        readDotTerminated ⟨rowsBytes rows ++ tail, written⟩ =
          (.ok ((upToDot rows).filterMap lineOf), ⟨unread, written⟩)) ∨
    (∃ row ∈ upToDot rows, lineOf row = none) ∧
      ∃ e unread, e ≠ .connectionClosed ∧ tail.length ≤ unread.length ∧
        readDotTerminated ⟨rowsBytes rows ++ tail, written⟩ = (.error e, ⟨unread, written⟩) := by
  by_cases hread : ∀ row ∈ upToDot rows, lineOf row ≠ none
  · by_cases hall : upToDot rows = rows
    · rw [hall] at hread
      refine .inl ⟨hall, hread, ?_⟩
      exact readDotTerminated_rows hrows (fun row hrow =>
        upToDot_spec (hall.symm ▸ hread) row (hall.symm ▸ hrow)) tail written
    · obtain ⟨unread, hlines, hle⟩ := readDotTerminated_dot hrows hread hall tail written
      exact .inr (.inl ⟨hall, hread, unread, hle, hlines⟩)
  · push Not at hread
    have hturns : rows.length < (rowsBytes rows ++ tail).length + 1 := by
      have hle := length_le_rowsBytes rows
      rw [List.length_append]
      omega
    obtain ⟨e, unread, hlines, he, hle⟩ := readLines_unreadable hrows hread tail written hturns
    exact .inr (.inr ⟨hread, e, unread, he, hle, hlines⟩)

end AdminClient

end Gearman.Admin

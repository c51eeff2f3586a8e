import Gearman.Admin.Line
import Gearman.Verify.Text

/-!
# Lines read back

A line that is free of line feeds, ends in no carriage return and fits the cap
together with its end is read as it was written, and no byte behind it is
touched. A reply is such lines up to one that is a dot.
-/

namespace Gearman.Admin

inductive LineEnd
  | lf
  | crlf
  deriving DecidableEq, Repr

def LineEnd.text : LineEnd → String
  | lf => "\n"
  | crlf => "\r\n"

/-- The line with its end. -/
def lineBytes (line : String) (lineEnd : LineEnd) : Bytes := asBytes (line ++ lineEnd.text)

/-- A reply of several lines, closed by a dot. -/
def replyBytes (lines : List (String × LineEnd)) (last : LineEnd) : Bytes :=
  (lines.flatMap fun l => lineBytes l.1 l.2) ++ lineBytes "." last

/-- A line that trimming leaves as it is. -/
structure Unbroken (line : String) : Prop where
  lf : '\n' ∉ line.toList
  cr : line.toList.getLast? ≠ some '\r'

theorem Unbroken.trimLineEnd {line : String} (h : Unbroken line) (lineEnd : LineEnd) :
    trimLineEnd (line ++ lineEnd.text) = line := by
  have hline : (line.toList.rdropWhile fun c => decide (c = '\n' ∨ c = '\r')) = line.toList := by
    rw [List.rdropWhile_eq_self_iff]
    intro hne hlast
    rcases of_decide_eq_true hlast with hlast | hlast
    · exact h.lf (hlast ▸ List.getLast_mem hne)
    · exact h.cr (hlast ▸ List.getLast?_eq_some_getLast hne)
  have hends : ((line ++ lineEnd.text).toList.rdropWhile fun c => decide (c = '\n' ∨ c = '\r')) =
      line.toList := by
    cases lineEnd with
    | lf =>
      rw [String.toList_append]
      exact (List.rdropWhile_concat_pos _ line.toList '\n' rfl).trans hline
    | crlf =>
      have htext : (line ++ LineEnd.crlf.text).toList = line.toList ++ ['\r'] ++ ['\n'] := by
        simp [LineEnd.text]
      rw [htext, List.rdropWhile_concat_pos _ _ _ rfl, List.rdropWhile_concat_pos _ _ _ rfl, hline]
  rw [Admin.trimLineEnd, hends, String.ofList_toList]

/-! ## One line -/

theorem readUntil_line {n : Nat} {line : Bytes} (hline : (10 : UInt8) ∉ line)
    (hfits : line.length < n) (rest : Bytes) :
    readUntil n (line ++ 10 :: rest) = (line ++ [10], rest) := by
  induction line generalizing n with
  | nil =>
    obtain ⟨n, rfl⟩ := Nat.exists_eq_add_one_of_ne_zero (Nat.ne_of_gt hfits)
    rfl
  | cons b line ih =>
    obtain ⟨n, rfl⟩ := Nat.exists_eq_add_one_of_ne_zero (Nat.ne_of_gt (Nat.zero_lt_of_lt hfits))
    rw [List.mem_cons, not_or] at hline
    have hrest := ih hline.2 (Nat.lt_of_succ_lt_succ hfits)
    rw [List.cons_append, readUntil, if_neg (Ne.symm hline.1), hrest]
    rfl

/-- The bytes of a line end in its only line feed. -/
theorem lineBytes_eq {line : String} (h : Unbroken line) (lineEnd : LineEnd) :
    ∃ body, lineBytes line lineEnd = body ++ [10] ∧ (10 : UInt8) ∉ body := by
  have hline : (10 : UInt8) ∉ asBytes line := fun hmem => h.lf (lf_mem_asBytes_iff.mp hmem)
  rw [lineBytes, asBytes_append]
  cases lineEnd with
  | lf => exact ⟨asBytes line, rfl, hline⟩
  | crlf =>
    refine ⟨asBytes line ++ [13], by simp [LineEnd.text]; rfl, ?_⟩
    simp [hline]

theorem readLine_line {line : String} {lineEnd : LineEnd} (h : Unbroken line)
    (hfits : (lineBytes line lineEnd).length ≤ maxAdminLineLen) (rest written : Bytes) :
    AdminClient.readLine ⟨lineBytes line lineEnd ++ rest, written⟩ =
      (.ok line, ⟨rest, written⟩) := by
  obtain ⟨body, hbytes, hbody⟩ := lineBytes_eq h lineEnd
  have hread : readUntil maxAdminLineLen (lineBytes line lineEnd ++ rest) =
      (lineBytes line lineEnd, rest) := by
    rw [hbytes] at hfits ⊢
    rw [List.append_assoc]
    apply readUntil_line hbody
    rw [List.length_append, List.length_singleton] at hfits
    omega
  have hstring : fromUtf8 (lineBytes line lineEnd) = some (line ++ lineEnd.text) :=
    fromUtf8_asBytes _
  have hends : endsWith (line ++ lineEnd.text) '\n' = true := by
    cases lineEnd <;> simp [endsWith, LineEnd.text]
  have hpos : (lineBytes line lineEnd).length ≠ 0 := by
    rw [hbytes]
    simp
  unfold AdminClient.readLine
  simp only [hread, hstring, hends, h.trimLineEnd lineEnd, if_neg hpos]
  rfl

/-! ## A turn of the loop -/

namespace AdminClient

/-- One more line in front. -/
def consLine (line : String) (r : Except GearmanError (List String) × AdminClient) :
    Except GearmanError (List String) × AdminClient :=
  (r.1.map (line :: ·), r.2)

theorem readLines_ok {n : Nat} {client client' : AdminClient} {line : String}
    (h : client.readLine = (.ok line, client')) (hdot : line ≠ ".") :
    readLines (n + 1) client = consLine line (readLines n client') := by
  rw [readLines, h]
  dsimp only
  rw [if_neg hdot, consLine]
  rcases readLines n client' with ⟨_ | _, _⟩ <;> rfl

theorem readLines_dot {n : Nat} {client client' : AdminClient}
    (h : client.readLine = (.ok ".", client')) : readLines (n + 1) client = (.ok [], client') := by
  rw [readLines, h]
  rfl

theorem readLines_error {n : Nat} {client client' : AdminClient} {e : GearmanError}
    (h : client.readLine = (.error e, client')) :
    readLines (n + 1) client = (.error e, client') := by
  rw [readLines, h]

end AdminClient

/-! ## A reply -/

/-- A line that may stand in a reply: it is read back and is not the dot. -/
structure Listed (line : String) (lineEnd : LineEnd) : Prop where
  unbroken : Unbroken line
  ne_dot : line ≠ "."
  fits : (lineBytes line lineEnd).length ≤ maxAdminLineLen

theorem readLine_dot (last : LineEnd) (rest written : Bytes) :
    AdminClient.readLine ⟨lineBytes "." last ++ rest, written⟩ = (.ok ".", ⟨rest, written⟩) :=
  readLine_line ⟨by decide, by decide⟩ (by cases last <;> decide) rest written

theorem readLines_reply {lines : List (String × LineEnd)} {last : LineEnd} {n : Nat}
    (hn : lines.length < n) (h : ∀ l ∈ lines, Listed l.1 l.2) (rest written : Bytes) :
    AdminClient.readLines n ⟨replyBytes lines last ++ rest, written⟩ =
      (.ok (lines.map Prod.fst), ⟨rest, written⟩) := by
  induction lines generalizing n with
  | nil =>
    obtain ⟨n, rfl⟩ := Nat.exists_eq_add_one_of_ne_zero (Nat.ne_of_gt hn)
    exact AdminClient.readLines_dot (readLine_dot last rest written)
  | cons l lines ih =>
    obtain ⟨n, rfl⟩ := Nat.exists_eq_add_one_of_ne_zero (Nat.ne_of_gt (Nat.zero_lt_of_lt hn))
    rw [List.forall_mem_cons] at h
    have hline := readLine_line h.1.unbroken h.1.fits (replyBytes lines last ++ rest) written
    have hlines := ih (Nat.lt_of_succ_lt_succ hn) h.2
    have hbytes : replyBytes (l :: lines) last ++ rest =
        lineBytes l.1 l.2 ++ (replyBytes lines last ++ rest) := by
      simp [replyBytes]
    rw [hbytes, AdminClient.readLines_ok hline h.1.ne_dot, hlines]
    rfl

theorem length_le_replyBytes (lines : List (String × LineEnd)) (last : LineEnd) :
    lines.length ≤ (replyBytes lines last).length := by
  induction lines with
  | nil => exact Nat.zero_le _
  | cons l lines ih =>
    have hpos : 0 < (lineBytes l.1 l.2).length := by
      rw [lineBytes, asBytes_append, List.length_append]
      cases l.2 <;> exact Nat.lt_of_lt_of_le (by decide) (Nat.le_add_left _ _)
    have hlength : (replyBytes (l :: lines) last).length =
        (lineBytes l.1 l.2).length + (replyBytes lines last).length := by
      simp [replyBytes]
    rw [hlength, List.length_cons]
    omega

/-- A reply is read line by line up to its dot. -/
theorem readDotTerminated_reply {lines : List (String × LineEnd)} {last : LineEnd}
    (h : ∀ l ∈ lines, Listed l.1 l.2) (rest written : Bytes) :
    AdminClient.readDotTerminated ⟨replyBytes lines last ++ rest, written⟩ =
      (.ok (lines.map Prod.fst), ⟨rest, written⟩) := by
  apply readLines_reply _ h
  have hle := length_le_replyBytes lines last
  rw [List.length_append]
  omega

end Gearman.Admin

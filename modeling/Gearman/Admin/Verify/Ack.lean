import Gearman.Admin.Ack

/-!
# The grammar of an acknowledgement

`OK[ <value>]` and `ERR <CODE> <text>` as a grammar, next to what `parse_ack_line`
makes of a line. All lines of the grammar are parsed as it says. The parser looks
for no word boundary behind `OK` and `ERR` and for no code behind `ERR`, so it also
takes lines that are not of the grammar: exactly those that do not `WordsEnd`.
-/

namespace Gearman.Admin

/-- White space only. -/
def Blank (s : String) : Prop := ∀ c ∈ s.toList, isWhitespace c = true

instance (s : String) : Decidable (Blank s) :=
  decidable_of_iff (s.toList.all isWhitespace = true) List.all_eq_true

/-- The first character is there, and no white space. -/
def Solid (s : String) : Prop := ∃ c ∈ s.toList.head?, isWhitespace c = false

/-- A code: no space, and no white space in front. -/
structure Code (s : String) : Prop where
  solid : Solid s
  spaceFree : ' ' ∉ s.toList

/-- The lines of a reply of one line, with what they say. -/
inductive AckForm : String → Except GearmanError (Option String) → Prop
  | ok {gap : String} (hgap : Blank gap) : AckForm ("OK" ++ gap) (.ok none)
  | value {gap value : String} (hgap : Blank gap) (hne : gap ≠ "") (hvalue : Solid value) :
      AckForm ("OK" ++ (gap ++ value)) (.ok (some value))
  | err {gap code : String} (hgap : Blank gap) (hne : gap ≠ "") (hcode : Code code) :
      AckForm ("ERR" ++ (gap ++ code)) (.error (.serverError code ""))
  | errText {gap code text : String} (hgap : Blank gap) (hne : gap ≠ "") (hcode : Code code) :
      AckForm ("ERR" ++ (gap ++ (code ++ " " ++ text))) (.error (.serverError code text))

/-- What the grammar says of a line. -/
inductive AckLine (line : String) : Except GearmanError (Option String) → Prop
  | form {result : Except GearmanError (Option String)} (h : AckForm line result) :
      AckLine line result
  | other (h : ∀ result, ¬AckForm line result) : AckLine line (.error (.adminProtocolError line))

/-- `OK` and `ERR` stand alone, and something stands behind `ERR`. -/
structure WordsEnd (line : String) : Prop where
  ok : ∀ rest, line = "OK" ++ rest → ¬Solid rest
  err : ∀ rest, line = "ERR" ++ rest → ¬Solid rest ∧ ¬Blank rest

/-! ## Prefixes and white space -/

theorem ok_ne_err (rest rest' : String) : "OK" ++ rest ≠ "ERR" ++ rest' := by
  intro h
  have hlist := congrArg String.toList h
  rw [String.toList_append, String.toList_append] at hlist
  cases hlist

/-- White space in front of a word, and the word. -/
theorem trimStart_append {gap word : String} (hgap : Blank gap) (hword : Solid word) :
    trimStart (gap ++ word) = word := by
  obtain ⟨c, hc, hsolid⟩ := hword
  obtain ⟨cs, hcs⟩ := List.head?_eq_some_iff.mp hc
  rw [trimStart, String.toList_append, List.dropWhile_append_of_pos hgap, hcs,
    List.dropWhile_cons_of_neg (by rw [hsolid]; exact Bool.false_ne_true), ← hcs,
    String.ofList_toList]

theorem trimStart_blank {gap : String} (hgap : Blank gap) : trimStart gap = "" := by
  rw [trimStart, List.dropWhile_eq_nil_iff.mpr hgap]

/-- A text is white space, or white space and a word. -/
theorem blank_or_word (s : String) :
    Blank s ∨ ∃ gap word, s = gap ++ word ∧ Blank gap ∧ Solid word := by
  rcases hdrop : s.toList.dropWhile isWhitespace with _ | ⟨c, cs⟩
  · exact .inl (List.dropWhile_eq_nil_iff.mp hdrop)
  · refine .inr ⟨.ofList (s.toList.takeWhile isWhitespace), .ofList (c :: cs), ?_, ?_, c, ?_, ?_⟩
    · rw [← String.toList_inj, String.toList_append, String.toList_ofList, String.toList_ofList,
        ← hdrop, List.takeWhile_append_dropWhile]
    · intro d hd
      rw [String.toList_ofList] at hd
      exact List.mem_takeWhile_imp hd
    · rw [String.toList_ofList]
      rfl
    · have hnot := List.head?_dropWhile_not isWhitespace s.toList
      rw [hdrop] at hnot
      simpa using hnot

theorem not_solid_of_blank {s : String} (h : Blank s) : ¬Solid s := by
  rintro ⟨c, hc, hsolid⟩
  rw [h c (List.mem_of_head? hc)] at hsolid
  cases hsolid

/-- With white space in front it is no word. -/
theorem not_solid_append {gap word : String} (hgap : Blank gap) (hne : gap ≠ "") :
    ¬Solid (gap ++ word) := by
  rintro ⟨c, hc, hsolid⟩
  have hnil : gap.toList ≠ [] := fun heq => hne (String.toList_inj.mp heq)
  rw [String.toList_append, List.head?_append_of_ne_nil _ hnil] at hc
  rw [hgap c (List.mem_of_head? hc)] at hsolid
  cases hsolid

theorem Solid.ne_empty {s : String} (h : Solid s) : s ≠ "" := by
  rintro rfl
  obtain ⟨c, hc, -⟩ := h
  cases hc

/-! ## What the parser makes of a line -/

theorem parseAckLine_ok (rest : String) :
    parseAckLine ("OK" ++ rest) =
      .ok (if trimStart rest = "" then none else some (trimStart rest)) := by
  unfold parseAckLine
  rw [stripPrefix_eq_some_iff.mpr rfl]

theorem parseAckLine_err (rest : String) :
    parseAckLine ("ERR" ++ rest) =
      match splitOnce ' ' (trimStart rest) with
      | some (code, text) => .error (.serverError code text)
      | none => .error (.serverError (trimStart rest) "") := by
  have hok : stripPrefix "OK" ("ERR" ++ rest) = none := by
    rcases hstrip : stripPrefix "OK" ("ERR" ++ rest) with _ | rest'
    · rfl
    · exact absurd (stripPrefix_eq_some_iff.mp hstrip).symm (ok_ne_err rest' rest)
  unfold parseAckLine
  rewrite [hok, stripPrefix_eq_some_iff.mpr rfl]
  rfl

theorem parseAckLine_other {line : String} (hok : ∀ rest, line ≠ "OK" ++ rest)
    (herr : ∀ rest, line ≠ "ERR" ++ rest) :
    parseAckLine line = .error (.adminProtocolError line) := by
  have hnone : ∀ start : String, (∀ rest, line ≠ start ++ rest) →
      stripPrefix start line = none := by
    intro start hstart
    rcases hstrip : stripPrefix start line with _ | rest
    · rfl
    · exact absurd (stripPrefix_eq_some_iff.mp hstrip) (hstart rest)
  unfold parseAckLine
  rw [hnone "OK" hok, hnone "ERR" herr]

/-- The code of a word goes up to its first space. -/
theorem exists_code {word : String} (h : Solid word) :
    Code word ∨ ∃ code text, word = code ++ " " ++ text ∧ Code code := by
  obtain ⟨c, hc, hsolid⟩ := h
  by_cases hspace : ' ' ∈ word.toList
  · obtain ⟨front, rest, hword, hfree⟩ := List.eq_append_cons_of_mem hspace
    refine .inr ⟨.ofList front, .ofList rest, ?_, ⟨c, ?_, hsolid⟩, ?_⟩
    · rw [← String.toList_inj, hword]
      simp
    · -- a word does not begin with a space
      rw [String.toList_ofList]
      rcases front with _ | ⟨d, front⟩
      · rw [hword] at hc
        cases hc
        cases hsolid
      · rw [hword] at hc
        exact hc
    · rwa [String.toList_ofList]
  · exact .inl ⟨⟨c, hc, hsolid⟩, hspace⟩

theorem Code.solid_append {code text : String} (h : Code code) : Solid (code ++ " " ++ text) := by
  obtain ⟨c, hc, hsolid⟩ := h.solid
  refine ⟨c, ?_, hsolid⟩
  rw [String.append_assoc, String.toList_append, List.head?_append, hc]
  rfl

/-- Every line of the grammar is parsed as it says. -/
theorem parseAckLine_of_form {line : String} {result : Except GearmanError (Option String)}
    (h : AckForm line result) : parseAckLine line = result := by
  cases h with
  | ok hgap => rw [parseAckLine_ok, trimStart_blank hgap, if_pos rfl]
  | value hgap hne hvalue =>
    rw [parseAckLine_ok, trimStart_append hgap hvalue, if_neg hvalue.ne_empty]
  | err hgap hne hcode =>
    rw [parseAckLine_err, trimStart_append hgap hcode.solid, splitOnce_eq_none hcode.spaceFree]
  | @errText gap code text hgap hne hcode =>
    have hcut : splitOnce ' ' (code ++ " " ++ text) = some (code, text) :=
      splitOnce_eq_some_iff.mpr ⟨hcode.spaceFree, by simp⟩
    rw [parseAckLine_err, trimStart_append hgap hcode.solid_append, hcut]

/-- White space that a word stands behind is there, or the word is all there is. -/
theorem gap_ne_empty {gap word : String} (hword : Solid word) (h : ¬Solid (gap ++ word)) :
    gap ≠ "" := by
  rintro rfl
  rw [String.empty_append] at h
  exact h hword

/-- A line whose words end is of the grammar, or neither an acknowledgement nor an
error. -/
theorem WordsEnd.ackLine {line : String} (h : WordsEnd line) :
    AckLine line (parseAckLine line) := by
  by_cases hok : ∃ rest, line = "OK" ++ rest
  · obtain ⟨rest, rfl⟩ := hok
    have hrest := h.ok rest rfl
    rcases blank_or_word rest with hblank | ⟨gap, word, rfl, hgap, hword⟩
    · have hform := AckForm.ok hblank
      exact parseAckLine_of_form hform ▸ .form hform
    · have hform := AckForm.value hgap (gap_ne_empty hword hrest) hword
      exact parseAckLine_of_form hform ▸ .form hform
  · by_cases herr : ∃ rest, line = "ERR" ++ rest
    · obtain ⟨rest, rfl⟩ := herr
      obtain ⟨hsolid, hblank⟩ := h.err rest rfl
      rcases blank_or_word rest with hrest | ⟨gap, word, rfl, hgap, hword⟩
      · exact absurd hrest hblank
      · have hne := gap_ne_empty hword hsolid
        rcases exists_code hword with hcode | ⟨code, text, rfl, hcode⟩
        · have hform := AckForm.err hgap hne hcode
          exact parseAckLine_of_form hform ▸ .form hform
        · have hform : AckForm ("ERR" ++ (gap ++ (code ++ " " ++ text))) _ :=
            .errText hgap hne hcode
          exact parseAckLine_of_form hform ▸ .form hform
    · rw [parseAckLine_other (fun rest heq => hok ⟨rest, heq⟩) fun rest heq => herr ⟨rest, heq⟩]
      refine .other fun result hform => ?_
      cases hform with
      | ok | value => exact hok ⟨_, rfl⟩
      | err | errText => exact herr ⟨_, rfl⟩

theorem not_blank_append {gap word : String} (hword : Solid word) : ¬Blank (gap ++ word) := by
  intro hblank
  obtain ⟨c, hc, hsolid⟩ := hword
  rw [hblank c (by
    rw [String.toList_append]
    exact List.mem_append_right _ (List.mem_of_head? hc))] at hsolid
  cases hsolid

/-- In the grammar words end. -/
theorem AckForm.wordsEnd {line : String} {result : Except GearmanError (Option String)}
    (h : AckForm line result) : WordsEnd line := by
  have hafterOk : ∀ rest, ¬Solid rest → WordsEnd ("OK" ++ rest) := by
    intro rest hrest
    refine ⟨fun rest' heq => ?_, fun rest' heq => absurd heq (ok_ne_err rest rest')⟩
    rwa [← (String.append_right_inj _).mp heq]
  have hafterErr : ∀ rest, ¬Solid rest → ¬Blank rest → WordsEnd ("ERR" ++ rest) := by
    intro rest hrest hblank
    refine ⟨fun rest' heq => absurd heq.symm (ok_ne_err rest' rest), fun rest' heq => ?_⟩
    rw [← (String.append_right_inj _).mp heq]
    exact ⟨hrest, hblank⟩
  cases h with
  | ok hgap => exact hafterOk _ (not_solid_of_blank hgap)
  | value hgap hne _ => exact hafterOk _ (not_solid_append hgap hne)
  | err hgap hne hcode =>
    exact hafterErr _ (not_solid_append hgap hne) (not_blank_append hcode.solid)
  | errText hgap hne hcode =>
    exact hafterErr _ (not_solid_append hgap hne) (not_blank_append hcode.solid_append)

/-- The parser rejects nothing that begins with `OK` or `ERR`. -/
theorem not_prefix_of_rejected {line line' : String}
    (h : parseAckLine line = .error (.adminProtocolError line')) (rest : String) :
    line ≠ "OK" ++ rest ∧ line ≠ "ERR" ++ rest := by
  constructor
  · rintro rfl
    rw [parseAckLine_ok] at h
    cases h
  · rintro rfl
    rw [parseAckLine_err] at h
    split at h <;> cases h

/-- **The acknowledgement parser.** What it makes of a line is what the grammar says
of it, neither more nor less, if and only if `OK` and `ERR` stand alone in the line
and something stands behind `ERR`. -/
theorem parseAckLine_exact_iff (line : String) :
    (∀ result, parseAckLine line = result ↔ AckLine line result) ↔ WordsEnd line := by
  constructor
  · intro hexact
    have hline := (hexact _).mp rfl
    generalize hresult : parseAckLine line = result at hline
    cases hline with
    | form hform => exact hform.wordsEnd
    | other =>
      have hnone := not_prefix_of_rejected hresult
      exact ⟨fun rest heq => absurd heq (hnone rest).1, fun rest heq => absurd heq (hnone rest).2⟩
  · intro hwords result
    constructor
    · rintro rfl
      exact hwords.ackLine
    · intro hline
      cases hline with
      | form hform => exact parseAckLine_of_form hform
      | other hnone =>
        have hline := hwords.ackLine
        generalize parseAckLine line = result at hline
        cases hline with
        | form hform => exact absurd hform (hnone _)
        | other => rfl

/-- A word that begins with `OK` is taken for an acknowledgement, and `ERR` alone for
an error without a code. -/
theorem parseAckLine_inexact :
    (parseAckLine "OKAY" = .ok (some "AY") ∧ ¬AckLine "OKAY" (.ok (some "AY"))) ∧
      parseAckLine "ERR" = .error (.serverError "" "") ∧
      ¬AckLine "ERR" (.error (.serverError "" "")) := by
  refine ⟨⟨by decide, fun hline => ?_⟩, by decide, fun hline => ?_⟩
  · have hsolid : Solid "AY" := ⟨'A', by decide, by decide⟩
    cases hline with
    | form hform => exact hform.wordsEnd.ok "AY" rfl hsolid
  · have hblank : Blank "" := fun c hc => by cases hc
    cases hline with
    | form hform => exact (hform.wordsEnd.err "" rfl).2 hblank

end Gearman.Admin

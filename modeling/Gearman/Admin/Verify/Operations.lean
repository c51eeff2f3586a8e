import Gearman.Admin.Verify.Received

/-!
# The operations of an admin client

The five operations that read a listing and the seven that read one line, each with
what it makes of a row or of its line, so that a result can be stated for all of
them at once. Every parse error of a row names the row.
-/

namespace Gearman.Admin

namespace AdminClient

/-- Something holds of every operation that reads a listing, with its row parser. -/
def ForListings (P : {α : Type} → (AdminClient → Io → Except GearmanError (List α) × AdminClient) →
    (String → Except GearmanError α) → Prop) : Prop :=
  P status parseStatusLine ∧ P priorityStatus parsePriorityStatusLine ∧
    P workers parseWorkerLine ∧ P showJobs parseJobListLine ∧
    P showUniqueJobs fun line => .ok (parseUniqueJobLine line)

/-- An acknowledgement. -/
def Acked (line : String) : Prop := ∃ rest, stripPrefix "OK" line = some rest

/-- An acknowledgement with a value of a kind. -/
def AckedWith (kind : String → Prop) (line : String) : Prop :=
  ∃ rest, stripPrefix "OK" line = some rest ∧ trimStart rest ≠ "" ∧ kind (trimStart rest)

/-- Something holds of every operation that reads one line, with the lines it
accepts. -/
def ForLines (P : {α : Type} → (AdminClient → Io → Except GearmanError α × AdminClient) →
    (String → Prop) → Prop) : Prop :=
  (∀ handle, P (cancelJob handle) Acked) ∧ (∀ name, P (createFunction name) Acked) ∧
    (∀ name, P (dropFunction name) Acked) ∧
    (∀ function size, P (setMaxQueue function size) Acked) ∧
    P getpid (AckedWith fun value => (parseU32 value).isSome = true) ∧
    P verbose (AckedWith fun _ => True) ∧ P version (AckedWith fun _ => True)

/-! ## Listings -/

/-- All errors of a parser are about the line it was given. -/
def Reports {α : Type} (parse : String → Except GearmanError α) : Prop :=
  ∀ line e, parse line = .error e → e = .adminProtocolError line

section reports

variable {α β : Type} {e : GearmanError}

/-- The only error. -/
def ErrorIs (e : GearmanError) (result : Except GearmanError α) : Prop :=
  ∀ e', result = .error e' → e' = e

theorem ErrorIs.bind {result : Except GearmanError α} {f : α → Except GearmanError β}
    (h : ErrorIs e result) (hf : ∀ a, ErrorIs e (f a)) : ErrorIs e (result >>= f) := by
  rcases result with e' | a
  · intro e'' h'
    cases h'
    exact h e' rfl
  · exact hf a

theorem errorIs_ok (a : α) : ErrorIs e (.ok a) := fun _ h => by cases h

theorem errorIs_nextField (fields : List String) (line : String) :
    ErrorIs (.adminProtocolError line) (nextField fields line) := by
  cases fields with
  | nil => intro e' h; cases h; rfl
  | cons field fields => exact errorIs_ok _

theorem errorIs_parsed (value : Option α) (line : String) :
    ErrorIs (.adminProtocolError line) (parsed value line) := by
  cases value with
  | none => intro e' h; cases h; rfl
  | some n => exact errorIs_ok _

theorem reports_parseStatusLine : Reports parseStatusLine := by
  intro line
  refine (errorIs_nextField _ _).bind fun _ => (errorIs_nextField _ _).bind fun _ => ?_
  refine (errorIs_parsed _ _).bind fun _ => (errorIs_nextField _ _).bind fun _ => ?_
  refine (errorIs_parsed _ _).bind fun _ => (errorIs_nextField _ _).bind fun _ => ?_
  exact (errorIs_parsed _ _).bind fun _ => errorIs_ok _

theorem reports_parsePriorityStatusLine : Reports parsePriorityStatusLine := by
  intro line
  refine (errorIs_nextField _ _).bind fun _ => (errorIs_nextField _ _).bind fun _ => ?_
  refine (errorIs_parsed _ _).bind fun _ => (errorIs_nextField _ _).bind fun _ => ?_
  refine (errorIs_parsed _ _).bind fun _ => (errorIs_nextField _ _).bind fun _ => ?_
  refine (errorIs_parsed _ _).bind fun _ => (errorIs_nextField _ _).bind fun _ => ?_
  exact (errorIs_parsed _ _).bind fun _ => errorIs_ok _

theorem reports_parseJobListLine : Reports parseJobListLine := by
  intro line
  refine (errorIs_nextField _ _).bind fun _ => (errorIs_nextField _ _).bind fun _ => ?_
  refine (errorIs_parsed _ _).bind fun _ => (errorIs_nextField _ _).bind fun _ => ?_
  exact (errorIs_nextField _ _).bind fun _ => errorIs_ok _

theorem reports_parseWorkerLine : Reports parseWorkerLine := by
  intro line
  refine (errorIs_nextField _ _).bind fun _ => (errorIs_parsed _ _).bind fun _ => ?_
  refine (errorIs_nextField _ _).bind fun _ => (errorIs_nextField _ _).bind fun _ => ?_
  refine (errorIs_nextField _ _).bind fun _ => ?_
  dsimp only
  split
  · intro e' h; cases h; rfl
  · exact errorIs_ok _

end reports

/-- What holds of a listing with any command and any parser that reports holds of
every operation. -/
theorem forListings {P : {α : Type} →
    (AdminClient → Io → Except GearmanError (List α) × AdminClient) →
    (String → Except GearmanError α) → Prop}
    (h : ∀ {α : Type} (command : String) (parse : String → Except GearmanError α),
      Reports parse → P (listing command parse) parse) : ForListings P :=
  ⟨h _ _ reports_parseStatusLine, h _ _ reports_parsePriorityStatusLine,
    h _ _ reports_parseWorkerLine, h _ _ reports_parseJobListLine,
    h _ _ fun _ _ h => by cases h⟩

theorem not_ok_error {α : Type} {e : GearmanError} :
    ¬∃ a : α, (.error e : Except GearmanError α) = .ok a := fun ⟨_, h⟩ => by cases h

/-- A result is an error or not. -/
theorem error_iff {α : Type} {result : Except GearmanError α} :
    (∃ e, result = .error e) ↔ ¬∃ a, result = .ok a := by
  rcases result with e | a
  · exact iff_of_true ⟨e, rfl⟩ not_ok_error
  · exact iff_of_false (fun ⟨_, h⟩ => by cases h) (not_not_intro ⟨a, rfl⟩)

theorem mapM_ok_iff {α : Type} {parse : String → Except GearmanError α} {lines : List String} :
    (∃ rows, lines.mapM parse = .ok rows) ↔ ∀ line ∈ lines, ∃ row, parse line = .ok row := by
  induction lines with
  | nil => exact ⟨fun _ _ h => absurd h List.not_mem_nil, fun _ => ⟨[], rfl⟩⟩
  | cons line lines ih =>
    rw [List.forall_mem_cons, ← ih, List.mapM_cons]
    rcases parse line with e | row
    · exact iff_of_false not_ok_error fun h => not_ok_error h.1
    · rcases lines.mapM parse with e | rows
      · exact iff_of_false not_ok_error fun h => not_ok_error h.2
      · exact ⟨fun _ => ⟨⟨row, rfl⟩, ⟨rows, rfl⟩⟩, fun _ => ⟨row :: rows, rfl⟩⟩

theorem mapM_error {α : Type} {parse : String → Except GearmanError α} {lines : List String}
    {e : GearmanError} (h : lines.mapM parse = .error e) :
    ∃ line ∈ lines, parse line = .error e := by
  induction lines with
  | nil => cases h
  | cons line lines ih =>
    rw [List.mapM_cons] at h
    rcases hline : parse line with e' | row
    · rw [hline] at h
      cases h
      exact ⟨line, List.mem_cons_self, hline⟩
    · rw [hline] at h
      rcases hlines : lines.mapM parse with e' | rows
      · rw [hlines] at h
        cases h
        obtain ⟨line', hmem, herror⟩ := ih hlines
        exact ⟨line', List.mem_cons_of_mem _ hmem, herror⟩
      · rw [hlines] at h
        cases h

/-- A listing is the lines up to the dot, parsed. -/
theorem listing_eq {α : Type} (command : String) (parse : String → Except GearmanError α)
    (unread written : Bytes) :
    listing command parse ⟨unread, written⟩ .accepted =
      ((readDotTerminated ⟨unread, written ++ asBytes command ++ [13, 10]⟩).1.bind
          fun lines => lines.mapM parse,
        (readDotTerminated ⟨unread, written ++ asBytes command ++ [13, 10]⟩).2) := by
  unfold listing sendLine
  dsimp only
  rcases readDotTerminated ⟨unread, written ++ asBytes command ++ [13, 10]⟩ with ⟨_ | _, _⟩ <;> rfl

/-! ## One line -/

/-- The operation reads one line, parses it, and accepts these lines. -/
structure OneLine {α : Type} (command : String) (parse : String → Except GearmanError α)
    (operation : AdminClient → Io → Except GearmanError α × AdminClient)
    (accepts : String → Prop) : Prop where
  reads : ∀ unread written, operation ⟨unread, written⟩ .accepted =
    ((readLine ⟨unread, written ++ asBytes command ++ [13, 10]⟩).1.bind parse,
      (readLine ⟨unread, written ++ asBytes command ++ [13, 10]⟩).2)
  accepts_iff : ∀ line, (∃ a, parse line = .ok a) ↔ accepts line
  refuses : ∀ line e, parseAckLine line = .error e → parse line = .error e

/-- The parse of an acknowledgement. -/
def parseDone (line : String) : Except GearmanError Unit := (parseAckLine line).map fun _ => ()

/-- The parse of an acknowledgement with a value. -/
def parseValue {α : Type} (parse : String → Except GearmanError α) (line : String) :
    Except GearmanError α :=
  (parseAckLine line).bind fun value =>
    match value with
    | none => .error (.adminProtocolError "OK")
    | some value => parse value

/-- What an acknowledgement is. -/
theorem parseAckLine_ok_iff {line : String} {value : Option String} :
    parseAckLine line = .ok value ↔ ∃ rest, stripPrefix "OK" line = some rest ∧
      value = if trimStart rest = "" then none else some (trimStart rest) := by
  unfold parseAckLine
  rcases stripPrefix "OK" line with _ | rest
  · dsimp only
    constructor
    · intro h
      repeat' split at h
      all_goals cases h
    · rintro ⟨_, h, -⟩
      cases h
  · constructor
    · intro h
      cases h
      exact ⟨rest, rfl, rfl⟩
    · rintro ⟨_, h, rfl⟩
      cases h
      rfl

theorem parseDone_ok_iff {line : String} : (∃ a, parseDone line = .ok a) ↔ Acked line := by
  unfold parseDone Acked
  constructor
  · rintro ⟨_, h⟩
    rcases hack : parseAckLine line with e | value
    · rw [hack] at h
      cases h
    · obtain ⟨rest, hrest, -⟩ := parseAckLine_ok_iff.mp hack
      exact ⟨rest, hrest⟩
  · rintro ⟨rest, hrest⟩
    rw [parseAckLine_ok_iff.mpr ⟨rest, hrest, rfl⟩]
    exact ⟨(), rfl⟩

theorem parseValue_ok_iff {α : Type} {parse : String → Except GearmanError α} {line : String} :
    (∃ a, parseValue parse line = .ok a) ↔
      AckedWith (fun value => ∃ a, parse value = .ok a) line := by
  unfold parseValue AckedWith
  constructor
  · rintro ⟨a, h⟩
    rcases hack : parseAckLine line with e | value
    · rw [hack] at h
      cases h
    · obtain ⟨rest, hrest, rfl⟩ := parseAckLine_ok_iff.mp hack
      rw [hack] at h
      by_cases hempty : trimStart rest = ""
      · rw [if_pos hempty] at h
        cases h
      · rw [if_neg hempty] at h
        exact ⟨rest, hrest, hempty, a, h⟩
  · rintro ⟨rest, hrest, hne, a, h⟩
    rw [parseAckLine_ok_iff.mpr ⟨rest, hrest, rfl⟩, if_neg hne]
    exact ⟨a, h⟩

theorem oneLine_acknowledged (command : String) :
    OneLine command parseDone (acknowledged command) Acked where
  reads unread written := by
    unfold acknowledged sendLine readAck
    dsimp only
    rcases readLine ⟨unread, written ++ asBytes command ++ [13, 10]⟩ with ⟨e | line, client⟩
    · rfl
    · show _ = (parseDone line, client)
      dsimp only
      rw [parseDone]
      rcases parseAckLine line with _ | _ <;> rfl
  accepts_iff _ := parseDone_ok_iff
  refuses line e h := by
    rw [parseDone, h]
    rfl

theorem oneLine_valued {α : Type} (command : String) (parse : String → Except GearmanError α)
    {kind : String → Prop} (hkind : ∀ value, (∃ a, parse value = .ok a) ↔ kind value) :
    OneLine command (parseValue parse) (valued command parse) (AckedWith kind) where
  reads unread written := by
    unfold valued sendLine readAckValue readAck
    dsimp only
    rcases readLine ⟨unread, written ++ asBytes command ++ [13, 10]⟩ with ⟨e | line, client⟩
    · rfl
    · show _ = (parseValue parse line, client)
      dsimp only
      rw [parseValue]
      rcases parseAckLine line with _ | _ | _ <;> rfl
  accepts_iff line := by
    rw [parseValue_ok_iff]
    simp only [AckedWith, hkind]
  refuses line e h := by
    rw [parseValue, h]
    rfl

theorem parsePid_ok_iff {value : String} :
    (∃ pid, parsePid value = .ok pid) ↔ (parseU32 value).isSome = true := by
  unfold parsePid
  rcases parseU32 value with _ | pid
  · exact iff_of_false not_ok_error Bool.false_ne_true
  · exact ⟨fun _ => rfl, fun _ => ⟨pid, rfl⟩⟩

/-- What holds of everything that reads one line holds of every operation. -/
theorem forLines {P : {α : Type} → (AdminClient → Io → Except GearmanError α × AdminClient) →
    (String → Prop) → Prop}
    (h : ∀ {α : Type} {command : String} {parse : String → Except GearmanError α}
      {operation : AdminClient → Io → Except GearmanError α × AdminClient}
      {accepts : String → Prop},
      OneLine command parse operation accepts → P operation accepts) : ForLines P :=
  ⟨fun _ => h (oneLine_acknowledged _), fun _ => h (oneLine_acknowledged _),
    fun _ => h (oneLine_acknowledged _), fun _ _ => h (oneLine_acknowledged _),
    h (oneLine_valued _ _ fun _ => parsePid_ok_iff),
    h (oneLine_valued _ _ fun value => iff_of_true ⟨value, rfl⟩ trivial),
    h (oneLine_valued _ _ fun value => iff_of_true ⟨value, rfl⟩ trivial)⟩

end AdminClient

end Gearman.Admin

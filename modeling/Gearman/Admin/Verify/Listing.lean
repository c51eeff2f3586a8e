import Gearman.Admin.Listing
import Gearman.Admin.Verify.Lines

/-!
# Listings read back

The lines that gearmand documents for the rows of each listing, and that every
operation reads its own back: no row is taken for the closing dot, no field for
two, and nothing behind the dot is read.
-/

namespace Gearman.Admin

/-- Fields with one separator between neighbours. -/
def joined (sep : Char) (fields : List String) : String :=
  String.ofList (Delimited.join sep (fields.map String.toList))

/-- A flag of a `show jobs` line. -/
def flag (b : Bool) : String := if b then "1" else "0"

/-! ## Lines -/

/-- `FUNCTION\tTOTAL\tRUNNING\tWORKER_COUNT`. -/
def FunctionStatus.line (row : FunctionStatus) : String :=
  joined '\t'
    [row.function, decimal row.total.toNat, decimal row.running.toNat,
      decimal row.workerCount.toNat]

/-- `FUNCTION\tHIGH\tNORMAL\tLOW\tWORKER_COUNT`. -/
def PriorityFunctionStatus.line (row : PriorityFunctionStatus) : String :=
  joined '\t'
    [row.function, decimal row.high.toNat, decimal row.normal.toNat, decimal row.low.toNat,
      decimal row.workerCount.toNat]

/-- `HANDLE\tRETRIES\tIGNORE_JOB\tQUEUED`. -/
def JobListEntry.line (row : JobListEntry) : String :=
  joined '\t' [row.handle, decimal row.retries.toNat, flag row.ignoreJob, flag row.queued]

/-- `HANDLE\tUNIQUE`, or just `UNIQUE` from a server older than 2.2.0. -/
def UniqueJobEntry.line (row : UniqueJobEntry) : String :=
  match row.handle with
  | some handle => joined '\t' [handle, row.unique]
  | none => row.unique

/-- `FD IP CLIENT_ID : FUNC1 FUNC2 ...`. -/
def WorkerInfo.line (row : WorkerInfo) : String :=
  joined ' ' ([decimalI32 row.fd, row.ip, row.clientId, ":"] ++ row.functions)

/-! ## Rows -/

/-- A name, handle or id without tab, line feed or trailing carriage return. -/
structure Plain (s : String) : Prop extends Unbroken s where
  tab : '\t' ∉ s.toList

/-- A string that is not empty and free of whitespace. -/
structure Word (s : String) : Prop where
  ne_nil : s.toList ≠ []
  solid : ∀ c ∈ s.toList, isWhitespace c = false

instance (s : String) : Decidable (Word s) :=
  decidable_of_iff (s.toList ≠ [] ∧ s.toList.all (fun c => !isWhitespace c) = true)
    ⟨fun h => ⟨h.1, fun c hc => by simpa using List.all_eq_true.mp h.2 c hc⟩,
      fun h => ⟨h.ne_nil, List.all_eq_true.mpr fun c hc => by simp [h.solid c hc]⟩⟩

def FunctionStatus.Valid (row : FunctionStatus) : Prop := Plain row.function

def PriorityFunctionStatus.Valid (row : PriorityFunctionStatus) : Prop := Plain row.function

def JobListEntry.Valid (row : JobListEntry) : Prop := Plain row.handle

def UniqueJobEntry.Valid (row : UniqueJobEntry) : Prop :=
  match row.handle with
  | some handle => Plain handle ∧ Unbroken row.unique
  | none => Plain row.unique ∧ row.unique ≠ "."

def WorkerInfo.Valid (row : WorkerInfo) : Prop :=
  Word row.ip ∧ Word row.clientId ∧ ∀ function ∈ row.functions, Word function

/-! ## Words -/

theorem Word.plain {s : String} (h : Word s) : Plain s where
  lf hmem := absurd (h.solid _ hmem) (by decide)
  cr hlast := absurd (h.solid _ (List.mem_of_getLast? hlast)) (by decide)
  tab hmem := absurd (h.solid _ hmem) (by decide)

theorem toList_decimal (n : Nat) : (decimal n).toList = Nat.toDigits 10 n := by
  rw [decimal, Nat.toString_eq_ofList_toDigits, String.toList_ofList]

theorem isWhitespace_of_isDigit {c : Char} (h : c.isDigit = true) : isWhitespace c = false := by
  simp only [Char.isDigit, Bool.and_eq_true, decide_eq_true_eq] at h
  have hlow : 48 ≤ c.toNat := h.1
  have hhigh : c.toNat ≤ 57 := h.2
  simp only [isWhitespace, Bool.or_eq_false_iff, Bool.and_eq_false_iff, decide_eq_false_iff_not]
  omega

theorem word_decimal (n : Nat) : Word (decimal n) where
  ne_nil := by
    rw [toList_decimal]
    exact Nat.toDigits_ne_nil
  solid c hc := by
    rw [toList_decimal] at hc
    exact isWhitespace_of_isDigit (Nat.isDigit_of_mem_toDigits (by omega) (by omega) hc)

theorem word_decimalI32 (i : Int32) : Word (decimalI32 i) := by
  have hdecimal := word_decimal i.toInt.natAbs
  unfold decimalI32
  split
  · refine ⟨?_, fun c hc => ?_⟩
    · rw [String.toList_append]
      exact List.append_ne_nil_of_right_ne_nil _ hdecimal.ne_nil
    · rw [String.toList_append] at hc
      rcases List.mem_append.mp hc with hc | hc
      · rw [List.mem_singleton.mp hc]
        decide
      · exact hdecimal.solid c hc
  · exact hdecimal

theorem word_flag (b : Bool) : Word (flag b) := by
  cases b <;> decide

/-- What `to_string` writes for an `i32`, `parse` reads back. -/
theorem parseI32_decimalI32 (i : Int32) : parseI32 (decimalI32 i) = some i := by
  have hlow := i.le_toInt
  have hhigh := i.toInt_lt
  obtain ⟨b, bs, hbytes⟩ := List.exists_cons_of_ne_nil (asBytes_decimal_ne_nil i.toInt.natAbs)
  unfold decimalI32
  split
  · have hparse : parseDigits (2 ^ 31) 0 (asBytes (decimal i.toInt.natAbs)) = some _ :=
      parseDigits_decimal (by omega)
    have hminus : asBytes ("-" ++ decimal i.toInt.natAbs) = 45 :: b :: bs := by
      rw [asBytes_append, hbytes]
      rfl
    have hvalue : -(i.toInt.natAbs : Int) = i.toInt := by omega
    rw [hbytes] at hparse
    rw [parseI32, hminus]
    show (parseDigits (2 ^ 31) 0 (b :: bs)).map (fun n : Nat => Int32.ofInt (-n)) = some i
    rw [hparse, Option.map_some, hvalue, Int32.ofInt_toInt]
  · have hparse : parseDigits (2 ^ 31 - 1) 0 (asBytes (decimal i.toInt.natAbs)) = some _ :=
      parseDigits_decimal (by omega)
    have hdigit : ∀ a ∈ asBytes (decimal i.toInt.natAbs), 48 ≤ a :=
      fun a ha => (digit_of_mem_decimal ha).1
    have hvalue : (i.toInt.natAbs : Int) = i.toInt := by omega
    unfold parseI32
    split
    · exact absurd ‹_› (asBytes_decimal_ne_nil _)
    · rename_i hsign
      exact absurd (hdigit 43 (hsign ▸ List.mem_cons_self)) (by decide)
    · rename_i hsign
      exact absurd (hdigit 45 (hsign ▸ List.mem_cons_self)) (by decide)
    · rename_i hsign
      exact absurd (hdigit 43 (hsign ▸ List.mem_cons_self)) (by decide)
    · rename_i hsign
      exact absurd (hdigit 45 (hsign ▸ List.mem_cons_self)) (by decide)
    · rw [hparse, Option.map_some, hvalue, Int32.ofInt_toInt]

/-! ## Joined fields -/

theorem split_joined {sep : Char} {fields : List String} (hne : fields ≠ [])
    (h : ∀ f ∈ fields, sep ∉ f.toList) : split sep (joined sep fields) = fields := by
  have hfields : ∀ f ∈ fields.map String.toList, ∀ c ∈ f, decide (c = sep) = false := by
    intro f hf c hc
    obtain ⟨s, hs, rfl⟩ := List.mem_map.mp hf
    exact decide_eq_false fun heq => h s hs (heq ▸ hc)
  have hsep : decide (sep = sep) = true := decide_eq_true rfl
  have hcut := Delimited.fieldsBy_join (p := fun c => decide (c = sep)) hsep
    (by simpa using hne) hfields
  rw [split, joined, String.toList_ofList, hcut, List.map_map]
  simp

theorem splitWhitespace_joined {fields : List String} (hne : fields ≠ [])
    (h : ∀ f ∈ fields, Word f) : splitWhitespace (joined ' ' fields) = fields := by
  have hfields : ∀ f ∈ fields.map String.toList, f ≠ [] ∧ ∀ c ∈ f, isWhitespace c = false := by
    intro f hf
    obtain ⟨s, hs, rfl⟩ := List.mem_map.mp hf
    exact ⟨(h s hs).ne_nil, (h s hs).solid⟩
  rw [splitWhitespace, joined, String.toList_ofList,
    Delimited.words_join (by decide) (by simpa using hne) hfields, List.map_map]
  simp

theorem toList_joined_concat (sep : Char) {fields : List String} (hne : fields ≠ [])
    (last : String) :
    (joined sep (fields ++ [last])).toList =
      Delimited.join sep (fields.map String.toList) ++ sep :: last.toList := by
  have hfields : fields.map String.toList ≠ [] := by simpa using hne
  rw [joined, String.toList_ofList, List.map_append]
  exact Delimited.join_concat sep hfields last.toList

theorem mem_joined {sep c : Char} {fields : List String} (h : c ∈ (joined sep fields).toList) :
    c = sep ∨ ∃ f ∈ fields, c ∈ f.toList := by
  rw [joined, String.toList_ofList] at h
  rcases Delimited.mem_join h with h | ⟨f, hf, h⟩
  · exact .inl h
  · obtain ⟨s, hs, rfl⟩ := List.mem_map.mp hf
    exact .inr ⟨s, hs, h⟩

/-- The end of a line of several fields is that of its last field, if it has any. -/
theorem getLast?_joined_concat {sep c : Char} {fields : List String} {last : String}
    (hne : fields ≠ []) (h : (joined sep (fields ++ [last])).toList.getLast? = some c) :
    c = sep ∨ last.toList.getLast? = some c := by
  rw [toList_joined_concat sep hne, List.getLast?_append, List.getLast?_cons] at h
  cases hlast : last.toList.getLast? with
  | none =>
    rw [hlast] at h
    exact .inl (by simpa using h.symm)
  | some d =>
    rw [hlast] at h
    exact .inr (by simpa using h)

/-- A line of several fields is no dot and survives trimming, if its fields do. -/
theorem unbroken_joined {sep : Char} {fields : List String} {last : String} (hne : fields ≠ [])
    (hsep : sep ≠ '\n' ∧ sep ≠ '\r' ∧ sep ≠ '.') (h : ∀ f ∈ fields, '\n' ∉ f.toList)
    (hlast : Unbroken last) :
    Unbroken (joined sep (fields ++ [last])) ∧ joined sep (fields ++ [last]) ≠ "." := by
  refine ⟨⟨fun hlf => ?_, fun hcr => ?_⟩, fun hdot => ?_⟩
  · rcases mem_joined hlf with hlf | ⟨f, hf, hlf⟩
    · exact hsep.1 hlf.symm
    · rcases List.mem_append.mp hf with hf | hf
      · exact h f hf hlf
      · exact hlast.lf (List.mem_singleton.mp hf ▸ hlf)
  · rcases getLast?_joined_concat hne hcr with hcr | hcr
    · exact hsep.2.1 hcr.symm
    · exact hlast.cr hcr
  · have hmem : sep ∈ (joined sep (fields ++ [last])).toList := by
      rw [toList_joined_concat sep hne]
      exact List.mem_append_right _ List.mem_cons_self
    rw [hdot] at hmem
    exact hsep.2.2 (List.mem_singleton.mp hmem)

/-! ## Rows read back -/

theorem parseStatusLine_line {row : FunctionStatus} (h : row.Valid) :
    parseStatusLine row.line = .ok row := by
  have hfields : split '\t' row.line = _ :=
    split_joined (by simp) (by simp [h.tab, (word_decimal _).plain.tab])
  rw [parseStatusLine, hfields]
  simp only [nextField_cons, ok_bind, parseU64_decimal, parsed_some]
  rfl

theorem parsePriorityStatusLine_line {row : PriorityFunctionStatus} (h : row.Valid) :
    parsePriorityStatusLine row.line = .ok row := by
  have hfields : split '\t' row.line = _ :=
    split_joined (by simp) (by simp [h.tab, (word_decimal _).plain.tab])
  rw [parsePriorityStatusLine, hfields]
  simp only [nextField_cons, ok_bind, parseU64_decimal, parsed_some]
  rfl

theorem flag_ne_zero (b : Bool) : decide (flag b ≠ "0") = b := by
  cases b <;> decide

theorem parseJobListLine_line {row : JobListEntry} (h : row.Valid) :
    parseJobListLine row.line = .ok row := by
  have hfields : split '\t' row.line = _ :=
    split_joined (by simp) (by simp [h.tab, (word_decimal _).plain.tab, (word_flag _).plain.tab])
  rw [parseJobListLine, hfields]
  simp only [nextField_cons, ok_bind, parseU32_decimal, parsed_some, flag_ne_zero]
  rfl

theorem parseUniqueJobLine_line {row : UniqueJobEntry} (h : row.Valid) :
    parseUniqueJobLine row.line = row := by
  obtain ⟨_ | handle, unique⟩ := row
  · have hcut : Delimited.cut '\t' unique.toList = none := Delimited.cut_eq_none h.1.tab
    have hsplit : splitOnce '\t' unique = none := by
      rw [splitOnce, hcut]
      rfl
    rw [parseUniqueJobLine, UniqueJobEntry.line, hsplit]
  · have hcut : Delimited.cut '\t' (joined '\t' [handle, unique]).toList =
        some (handle.toList, unique.toList) := by
      rw [joined, String.toList_ofList]
      exact Delimited.cut_eq_some_iff.mpr ⟨h.1.tab, rfl⟩
    have hsplit : splitOnce '\t' (joined '\t' [handle, unique]) = some (handle, unique) := by
      rw [splitOnce, hcut]
      simp
    rw [parseUniqueJobLine, UniqueJobEntry.line, hsplit]

theorem parseWorkerLine_line {row : WorkerInfo} (h : row.Valid) :
    parseWorkerLine row.line = .ok row := by
  obtain ⟨hip, hclient, hfunctions⟩ := h
  have hcolon : Word ":" := by decide
  have hfields : splitWhitespace row.line = _ := splitWhitespace_joined (by simp) (by
    intro f hf
    simp only [List.cons_append, List.nil_append, List.mem_cons] at hf
    rcases hf with rfl | rfl | rfl | rfl | hf
    · exact word_decimalI32 row.fd
    · exact hip
    · exact hclient
    · exact hcolon
    · exact hfunctions f hf)
  rw [parseWorkerLine, hfields]
  simp only [List.cons_append, List.nil_append, nextField_cons, ok_bind, parseI32_decimalI32,
    parsed_some]
  rfl

/-! ## Rows on their lines -/

/-- The line is read whole and is not taken for the dot. -/
def OnLine (line : String) : Prop := Unbroken line ∧ line ≠ "."

theorem tabbed_onLine (fields : List String) (last : String) (hne : fields ≠ [])
    (h : ∀ f ∈ fields, Plain f) (hlast : Unbroken last) : OnLine (joined '\t' (fields ++ [last])) :=
  unbroken_joined hne (by decide) (fun f hf => (h f hf).lf) hlast

theorem FunctionStatus.onLine {row : FunctionStatus} (h : row.Valid) : OnLine row.line := by
  apply tabbed_onLine [row.function, decimal row.total.toNat, decimal row.running.toNat]
  · simp
  · have hfunction : Plain row.function := h
    simp [hfunction, (word_decimal _).plain]
  · exact (word_decimal _).plain.toUnbroken

theorem PriorityFunctionStatus.onLine {row : PriorityFunctionStatus} (h : row.Valid) :
    OnLine row.line := by
  apply tabbed_onLine
    [row.function, decimal row.high.toNat, decimal row.normal.toNat, decimal row.low.toNat]
  · simp
  · have hfunction : Plain row.function := h
    simp [hfunction, (word_decimal _).plain]
  · exact (word_decimal _).plain.toUnbroken

theorem JobListEntry.onLine {row : JobListEntry} (h : row.Valid) : OnLine row.line := by
  apply tabbed_onLine [row.handle, decimal row.retries.toNat, flag row.ignoreJob]
  · simp
  · have hhandle : Plain row.handle := h
    simp [hhandle, (word_decimal _).plain, (word_flag _).plain]
  · exact (word_flag _).plain.toUnbroken

theorem UniqueJobEntry.onLine {row : UniqueJobEntry} (h : row.Valid) : OnLine row.line := by
  obtain ⟨_ | handle, unique⟩ := row
  · exact ⟨h.1.toUnbroken, h.2⟩
  · apply tabbed_onLine [handle] unique
    · simp
    · simp [h.1]
    · exact h.2

theorem WorkerInfo.onLine {row : WorkerInfo} (h : row.Valid) : OnLine row.line := by
  obtain ⟨hip, hclient, hfunctions⟩ := h
  have hcolon : Word ":" := by decide
  have hspaced : ∀ (fields : List String) (last : String), fields ≠ [] →
      (∀ f ∈ fields, Word f) → Word last → OnLine (joined ' ' (fields ++ [last])) := by
    intro fields last hne hfields hlast
    exact unbroken_joined hne (by decide) (fun f hf => (hfields f hf).plain.lf)
      hlast.plain.toUnbroken
  unfold WorkerInfo.line
  -- the last field is the colon or the last function
  rcases List.eq_nil_or_concat row.functions with hnil | ⟨functions, last, hconcat⟩
  · rw [hnil, List.append_nil]
    apply hspaced [decimalI32 row.fd, row.ip, row.clientId] ":"
    · simp
    · simp [word_decimalI32, hip, hclient]
    · exact hcolon
  · rw [List.concat_eq_append] at hconcat
    rw [hconcat, List.forall_mem_append] at hfunctions
    rw [hconcat, ← List.append_assoc]
    apply hspaced
    · simp
    · intro f hf
      rcases List.mem_append.mp hf with hf | hf
      · simp only [List.mem_cons, List.not_mem_nil, or_false] at hf
        rcases hf with rfl | rfl | rfl | rfl
        · exact word_decimalI32 row.fd
        · exact hip
        · exact hclient
        · exact hcolon
      · exact hfunctions.1 f hf
    · exact hfunctions.2 last List.mem_cons_self

/-! ## Listings -/

/-- The operation reads back the rows of every reply made of their lines, each
with its line end within the cap, and nothing of what follows the dot. -/
def ReadsBack {α : Type} (command : String)
    (operation : AdminClient → Io → Except GearmanError (List α) × AdminClient)
    (line : α → String) (Valid : α → Prop) : Prop :=
  ∀ (rows : List (α × LineEnd)) (last : LineEnd) (rest written : Bytes),
    (∀ r ∈ rows, Valid r.1 ∧ (lineBytes (line r.1) r.2).length ≤ maxAdminLineLen) →
    operation ⟨replyBytes (rows.map fun r => (line r.1, r.2)) last ++ rest, written⟩ .accepted =
      (.ok (rows.map Prod.fst), ⟨rest, written ++ asBytes command ++ [13, 10]⟩)

theorem mapM_lines {α : Type} {parse : String → Except GearmanError α} {line : α → String}
    {rows : List α} (h : ∀ row ∈ rows, parse (line row) = .ok row) :
    (rows.map line).mapM parse = .ok rows := by
  induction rows with
  | nil => rfl
  | cons row rows ih =>
    rw [List.forall_mem_cons] at h
    rw [List.map_cons, List.mapM_cons, h.1, ok_bind, ih h.2]
    rfl

theorem listing_readsBack {α : Type} {command : String} {parse : String → Except GearmanError α}
    {line : α → String} {Valid : α → Prop} (honLine : ∀ {row}, Valid row → OnLine (line row))
    (hparse : ∀ {row}, Valid row → parse (line row) = .ok row) :
    ReadsBack command (AdminClient.listing command parse) line Valid := by
  intro rows last rest written h
  have hlisted : ∀ l ∈ rows.map fun r => (line r.1, r.2), Listed l.1 l.2 := by
    intro l hl
    obtain ⟨r, hr, rfl⟩ := List.mem_map.mp hl
    obtain ⟨hunbroken, hdot⟩ := honLine (h r hr).1
    exact ⟨hunbroken, hdot, (h r hr).2⟩
  have hread : AdminClient.readDotTerminated ⟨replyBytes _ last ++ rest, _⟩ = _ :=
    readDotTerminated_reply hlisted rest (written ++ asBytes command ++ [13, 10])
  have hlines : (rows.map fun r => (line r.1, r.2)).map Prod.fst =
      (rows.map Prod.fst).map line := by
    simp
  have hrows : ∀ row ∈ rows.map Prod.fst, parse (line row) = .ok row := by
    intro row hrow
    obtain ⟨r, hr, rfl⟩ := List.mem_map.mp hrow
    exact hparse (h r hr).1
  unfold AdminClient.listing AdminClient.sendLine
  dsimp only
  rw [hread, hlines]
  dsimp only
  rw [mapM_lines hrows]

/-- **Every listing is read back.** -/
theorem listings_read_back :
    ReadsBack "status" AdminClient.status FunctionStatus.line FunctionStatus.Valid ∧
    ReadsBack "prioritystatus" AdminClient.priorityStatus PriorityFunctionStatus.line
      PriorityFunctionStatus.Valid ∧
    ReadsBack "workers" AdminClient.workers WorkerInfo.line WorkerInfo.Valid ∧
    ReadsBack "show jobs" AdminClient.showJobs JobListEntry.line JobListEntry.Valid ∧
    ReadsBack "show unique jobs" AdminClient.showUniqueJobs UniqueJobEntry.line
      UniqueJobEntry.Valid := by
  refine ⟨?_, ?_, ?_, ?_, ?_⟩
  · exact listing_readsBack FunctionStatus.onLine parseStatusLine_line
  · exact listing_readsBack PriorityFunctionStatus.onLine parsePriorityStatusLine_line
  · exact listing_readsBack WorkerInfo.onLine parseWorkerLine_line
  · exact listing_readsBack JobListEntry.onLine parseJobListLine_line
  · exact listing_readsBack UniqueJobEntry.onLine
      fun h => congrArg Except.ok (parseUniqueJobLine_line h)

/-- Two workers, the second without functions, on lines with either end. -/
theorem listings_read_back_workers :
    AdminClient.workers
        ⟨asBytes "7 ::1 client1 : reverse wc\r\n-1 ::1 - :\n.\r\nOK\n", []⟩ .accepted =
      (.ok [⟨7, "::1", "client1", ["reverse", "wc"]⟩, ⟨-1, "::1", "-", []⟩],
        ⟨asBytes "OK\n", asBytes "workers\r\n"⟩) := by
  have hreply : asBytes "7 ::1 client1 : reverse wc\r\n-1 ::1 - :\n.\r\nOK\n" = _ :=
    show _ = replyBytes [("7 ::1 client1 : reverse wc", .crlf), ("-1 ::1 - :", .lf)] .crlf ++
      asBytes "OK\n" by decide
  rw [hreply]
  apply listings_read_back.2.2.1 [(⟨7, "::1", "client1", ["reverse", "wc"]⟩, .crlf),
    (⟨-1, "::1", "-", []⟩, .lf)]
  rw [List.forall_mem_cons, List.forall_mem_singleton]
  refine ⟨⟨⟨by decide, by decide, ?_⟩, by decide⟩, ⟨⟨by decide, by decide, ?_⟩, by decide⟩⟩
  · rw [List.forall_mem_cons, List.forall_mem_singleton]
    exact ⟨by decide, by decide⟩
  · exact fun _ h => absurd h List.not_mem_nil

end Gearman.Admin

import Netcatty.SysManager.Inventory

/-! # Process listings

A snapshot that the listing command prints is read back to one entry for each process that has an
identity and a row, and each entry can be sent a signal, as long as no row looks like the header of a
listing (`listing_iff`).  A row that does is not shown, and it changes the layout of the rows after
it: a command line blanks the list (`list_blanked`). -/

namespace Netcatty.SysManager

open Serial (isWhitespace)
open Vault (Text stripPrefix stripPrefix_append splitOnce splitOnce_append)
open Words

/-! ### What is printed -/

structure IdentityRow where
  pid : ℕ
  bootId : Text
  startTicks : ℕ
  pid_lt : pid < 2 ^ 31
  bootId_valid : validBootId bootId = true
  startTicks_pos : 0 < startTicks
  startTicks_lt : startTicks < 2 ^ 64

def IdentityRow.line (row : IdentityRow) : Text :=
  decimal row.pid ++ '\t' :: (row.bootId ++ '\t' :: decimal row.startTicks)

def IdentityRow.token (row : IdentityRow) : Text := linuxToken row.bootId row.startTicks

def IsWord (text : Text) : Prop := text ≠ [] ∧ ∀ c ∈ text, isWhitespace c = false

def IsGap (text : Text) : Prop := (∀ c ∈ text, isWhitespace c = true) ∧ '\n' ∉ text

instance (text : Text) : Decidable (IsWord text) :=
  decidable_of_iff (text ≠ [] ∧ text.all (!isWhitespace ·) = true) (by simp [IsWord])

instance (text : Text) : Decidable (IsGap text) :=
  decidable_of_iff (text.all isWhitespace = true ∧ '\n' ∉ text) (by simp [IsGap])

abbrev Column := { text : Text // IsWord text }

/-- The blanks between two columns. -/
abbrev Gap := { text : Text // text ≠ [] ∧ IsGap text }

structure ProcessRow where
  pid : ℕ
  parentPid : ℕ
  user : Column
  state : Column
  cpuPercent : Column
  memoryPercent : Column
  resident : Column
  elapsed : Column
  command : Text
  indent : Text
  gap : ℕ → Gap
  pid_lt : pid < 2 ^ 31
  parentPid_lt : parentPid < 2 ^ 32
  command_line : '\n' ∉ command
  command_words : ∃ c ∈ command, isWhitespace c = false
  indent_gap : IsGap indent

/-- The columns from one on, and what follows them. -/
def padColumns (gap : ℕ → Gap) (rest : Text) : ℕ → List Text → Text
  | _, [] => rest
  | index, column :: columns => column ++ (gap index).val ++ padColumns gap rest (index + 1) columns

namespace ProcessRow

variable (row : ProcessRow)

def columns : List Text :=
  [decimal row.pid, decimal row.parentPid, row.user.val, row.state.val, row.cpuPercent.val,
    row.memoryPercent.val, row.resident.val, row.elapsed.val]

def line : Text := row.indent ++ padColumns row.gap row.command 0 row.columns

/-- The entry of a process, with its blanks normalized. -/
def entry (token : Text) : RemoteProcess where
  pid := row.pid
  parentPid := row.parentPid
  user := row.user.val
  state := row.state.val
  cpuPercent := row.cpuPercent.val
  memoryPercent := row.memoryPercent.val
  residentKib := (parseUnsigned 64 row.resident.val).getD 0
  elapsed := row.elapsed.val
  command := joinWords (splitWhitespace row.command)
  startTimeToken := token

/-- Whether the row is taken for the header of a listing. -/
def isHeader : Bool := (header (splitWhitespace row.line)).isSome

end ProcessRow

structure Snapshot where
  identities : List IdentityRow
  rows : List ProcessRow
  identities_nodup : (identities.map IdentityRow.pid).Nodup
  rows_nodup : (rows.map ProcessRow.pid).Nodup

namespace Snapshot

variable (s : Snapshot)

def print : Text :=
  endLines '\n' (identitiesHeader :: linuxMode :: s.identities.map IdentityRow.line ++
    rowsHeader :: s.rows.map ProcessRow.line)

def tokenOf (pid : ℕ) : Option Text :=
  (s.identities.find? fun row => row.pid = pid).map IdentityRow.token

/-- One entry for each process with an identity and a row. -/
def expected : List RemoteProcess :=
  s.rows.filterMap fun row => (s.tokenOf row.pid).map row.entry

/-- The list is as expected, and a signal can be sent to each process on it. -/
def Lists : Prop :=
  parseProcesses s.print = s.expected ∧
    ∀ process ∈ parseProcesses s.print, ∀ signal,
      (signalActionPlan signal process.pid process.startTimeToken).isSome

def NoHeaderRow : Prop := ∀ row ∈ s.rows, row.isHeader = false

end Snapshot

/-! ### Numbers -/

theorem decimal_isDigit {n : ℕ} {c : Char} (h : c ∈ decimal n) : c.isDigit = true :=
  Nat.isDigit_of_mem_toDigits (by decide) (by decide) h

theorem decimal_ne_nil (n : ℕ) : decimal n ≠ [] := Nat.toDigits_ne_nil

theorem notMem_decimal {c : Char} (h : c.isDigit = false) (n : ℕ) : c ∉ decimal n := by
  intro hmem
  rw [decimal_isDigit hmem] at h
  nomatch h

theorem parseUnsigned_decimal {bits n : ℕ} (h : n < 2 ^ bits) :
    parseUnsigned bits (decimal n) = some n := by
  have hplus : stripPrefix "+" (decimal n) = none := by
    have hhead : '+' ∉ decimal n := notMem_decimal (by decide) n
    cases hdigits : decimal n with
    | nil => rfl
    | cons c rest =>
        have hne : '+' ≠ c := by
          rintro rfl
          rw [hdigits] at hhead
          exact hhead List.mem_cons_self
        have hlit : "+".toList = ['+'] := rfl
        simp only [stripPrefix, hlit, List.isPrefixOf?, beq_eq_false_iff_ne.mpr hne]
        rfl
  have hall : (decimal n).all Char.isDigit = true :=
    List.all_eq_true.mpr fun c hc => decimal_isDigit hc
  have hempty : (decimal n).isEmpty = false := by
    rw [List.isEmpty_eq_false_iff]
    exact decimal_ne_nil n
  have hvalue : Nat.ofDigitChars 10 (decimal n) 0 = n := Nat.ofDigitChars_ten_toDigits
  simp only [parseUnsigned, hplus, Option.getD_none, hempty, hall, hvalue, Bool.not_true,
    Bool.or_self, Bool.false_eq_true, if_false, if_pos h]

theorem isWhitespace_eq_false_of_isDigit {c : Char} (h : c.isDigit = true) :
    isWhitespace c = false := by
  have hrange : 48 ≤ c.toNat ∧ c.toNat ≤ 57 := by
    simp only [Char.isDigit, Bool.and_eq_true, decide_eq_true_eq, ge_iff_le,
      UInt32.le_iff_toNat_le] at h
    exact h
  simp only [isWhitespace, Bool.or_eq_false_iff, Bool.and_eq_false_iff, decide_eq_false_iff_not,
    beq_eq_false_iff_ne]
  omega

theorem isWord_decimal (n : ℕ) : IsWord (decimal n) :=
  ⟨decimal_ne_nil n, fun _ hc => isWhitespace_eq_false_of_isDigit (decimal_isDigit hc)⟩

/-! ### Tokens -/

theorem isHexDigit_of_bootId {bootId : Text} (h : validBootId bootId = true) {c : Char}
    (hc : c ∈ bootId) : c = '-' ∨ isHexDigit c = true := by
  rw [validBootId, Bool.and_eq_true, List.all_eq_true] at h
  obtain ⟨index, hindex, rfl⟩ := List.mem_iff_getElem.mp hc
  have hmem : (bootId[index], index) ∈ bootId.zipIdx := by
    rw [List.mem_zipIdx_iff_getElem?]
    exact List.getElem?_eq_getElem hindex
  have hchar := h.2 _ hmem
  dsimp only at hchar
  by_cases hsep : index = 8 ∨ index = 13 ∨ index = 18 ∨ index = 23
  · rw [if_pos hsep, decide_eq_true_eq] at hchar
    exact .inl hchar
  · rw [if_neg hsep] at hchar
    exact .inr hchar

theorem notMem_bootId {bootId : Text} (h : validBootId bootId = true) {c : Char} (hdash : c ≠ '-')
    (hhex : isHexDigit c = false) : c ∉ bootId := by
  intro hc
  obtain hdash' | hhex' := isHexDigit_of_bootId h hc
  · exact hdash hdash'
  · rw [hhex] at hhex'
    nomatch hhex'

/-- The token of a process on the list is one that a signal is sent with. -/
theorem parseProcessIdentity_token (row : IdentityRow) :
    parseProcessIdentity row.token = some (.linux row.bootId row.startTicks) := by
  have htoken : row.token = "linux:".toList ++ (row.bootId ++ ':' :: decimal row.startTicks) :=
    List.append_assoc _ _ _
  have hstrip : stripPrefix "linux:" row.token =
      some (row.bootId ++ ':' :: decimal row.startTicks) :=
    (congrArg _ htoken).trans (stripPrefix_append _ _)
  have hsplit : splitOnce ':' (row.bootId ++ ':' :: decimal row.startTicks) =
      some (row.bootId, decimal row.startTicks) :=
    splitOnce_append (notMem_bootId row.bootId_valid (by decide) (by decide)) _
  have hticks : (parseUnsigned 64 (decimal row.startTicks)).filter (0 < ·) =
      some row.startTicks := by
    rw [parseUnsigned_decimal row.startTicks_lt]
    exact Option.filter_some_pos (by simpa using row.startTicks_pos)
  unfold parseProcessIdentity
  rw [hstrip]
  simp only [hsplit, Option.bind_eq_bind, Option.bind_some, hticks, row.bootId_valid, if_true]
  rfl

theorem signalActionPlan_isSome {pid : ℕ} (hpos : pid ≠ 0) (hlt : pid < 2 ^ 31) (row : IdentityRow)
    (signal : ProcessSignal) : (signalActionPlan signal pid row.token).isSome := by
  have hpid : ¬ (pid = 0 ∨ 2 ^ 31 - 1 < pid) := by omega
  rw [signalActionPlan, if_neg hpid, parseProcessIdentity_token]
  rfl

/-- Process group zero is never sent a signal. -/
theorem signalActionPlan_zero (signal : ProcessSignal) (token : Text) :
    signalActionPlan signal 0 token = none := if_pos (.inl rfl)

theorem linuxIdentity_line (row : IdentityRow) :
    linuxIdentity row.line = some (row.pid, row.token) := by
  have htab : '\t' ∉ row.bootId := notMem_bootId row.bootId_valid (by decide) (by decide)
  have hsplit : row.line.splitOn '\t' = [decimal row.pid, row.bootId, decimal row.startTicks] := by
    rw [IdentityRow.line, List.splitOn_append_cons_self_of_not_mem (notMem_decimal (by decide) _),
      List.splitOn_append_cons_self_of_not_mem htab,
      List.splitOn_eq_singleton (notMem_decimal (by decide) _)]
  have hpid : row.pid < 2 ^ 32 := Nat.lt_trans row.pid_lt (by decide)
  have hticks : (parseUnsigned 64 (decimal row.startTicks)).filter (0 < ·) =
      some row.startTicks := by
    rw [parseUnsigned_decimal row.startTicks_lt]
    exact Option.filter_some_pos (by simpa using row.startTicks_pos)
  simp only [linuxIdentity, hsplit, parseUnsigned_decimal hpid, Option.bind_eq_bind,
    Option.bind_some, hticks, row.bootId_valid, if_true]
  rfl

theorem insertIdentity_line (row : IdentityRow) (identities : Identities) :
    insertIdentity linuxIdentity identities row.line =
      Function.update identities row.pid (some row.token) := by
  rw [insertIdentity, linuxIdentity_line]

/-- With one identity for each process, the order of the rows is of no account. -/
theorem collectIdentities_lines {rows : List IdentityRow}
    (h : (rows.map IdentityRow.pid).Nodup) :
    collectIdentities linuxIdentity (rows.map IdentityRow.line) =
      fun pid => (rows.find? fun row => row.pid = pid).map IdentityRow.token := by
  have key : ∀ (rows : List IdentityRow) (identities : Identities),
      (rows.map IdentityRow.pid).Nodup →
      (rows.map IdentityRow.line).foldl (insertIdentity linuxIdentity) identities =
      fun pid => ((rows.find? fun row => row.pid = pid).map IdentityRow.token).or
        (identities pid) := by
    intro rows
    induction rows with
    | nil => exact fun identities _ => rfl
    | cons row rest ih =>
        intro identities hnodup
        rw [List.map_cons, List.nodup_cons] at hnodup
        rw [List.map_cons, List.foldl_cons, insertIdentity_line, ih _ hnodup.2]
        funext pid
        by_cases hpid : row.pid = pid
        · subst hpid
          have hrest : rest.find? (fun other => other.pid = row.pid) = none := by
            rw [List.find?_eq_none]
            intro other hother heq
            exact hnodup.1 (List.mem_map.mpr ⟨other, hother, of_decide_eq_true heq⟩)
          rw [hrest, List.find?_cons_of_pos (by simp), Function.update_self]
          rfl
        · rw [List.find?_cons_of_neg (by simpa using hpid), Function.update_of_ne (Ne.symm hpid)]
  rw [collectIdentities, key rows _ h]
  funext pid
  exact Option.or_none

/-! ### Lines -/

theorem stripCarriageReturn_of_notMem {line : Text} (h : '\r' ∉ line) :
    stripCarriageReturn line = line := by
  rw [stripCarriageReturn, if_neg]
  exact fun hlast => h (List.mem_of_getLast? hlast)

theorem notMem_stripCarriageReturn {c : Char} {line : Text} (h : c ∉ line) :
    c ∉ stripCarriageReturn line := by
  unfold stripCarriageReturn
  by_cases hlast : line.getLast? = some '\r'
  · rw [if_pos hlast]
    exact fun hmem => h (List.dropLast_subset _ hmem)
  · rwa [if_neg hlast]

/-- A carriage return at the end is a blank. -/
theorem splitWhitespace_stripCarriageReturn (line : Text) :
    splitWhitespace (stripCarriageReturn line) = splitWhitespace line := by
  unfold stripCarriageReturn
  by_cases hlast : line.getLast? = some '\r'
  · rw [if_pos hlast]
    obtain ⟨init, rfl⟩ := List.getLast?_eq_some_iff.mp hlast
    rw [List.dropLast_concat]
    exact (wordsBy_append_gap _ (List.forall_iff_forall_mem.mp (by decide))).symm
  · rw [if_neg hlast]

theorem normalizeLineEnds_append {line : Text} (h : '\n' ∉ line) (rest : Text) :
    normalizeLineEnds (line ++ '\n' :: rest) =
      stripCarriageReturn line ++ '\n' :: normalizeLineEnds rest := by
  induction line with
  | nil => simp [normalizeLineEnds, stripCarriageReturn]
  | cons c line ih =>
      rw [List.mem_cons, not_or] at h
      cases line with
      | nil =>
          by_cases hc : c = '\r'
          · subst hc
            simp [normalizeLineEnds, stripCarriageReturn]
          · have hstrip : stripCarriageReturn [c] = [c] :=
              stripCarriageReturn_of_notMem (by simpa using Ne.symm hc)
            rw [hstrip]
            simp [normalizeLineEnds, hc]
      | cons d line =>
          rw [List.mem_cons, not_or] at h
          have hstrip : stripCarriageReturn (c :: d :: line) =
              c :: stripCarriageReturn (d :: line) := by
            unfold stripCarriageReturn
            rw [List.getLast?_cons_cons]
            by_cases hlast : (d :: line).getLast? = some '\r'
            · rw [if_pos hlast, if_pos hlast]
              rfl
            · rw [if_neg hlast, if_neg hlast]
          have hnext : normalizeLineEnds (c :: d :: (line ++ '\n' :: rest)) =
              c :: normalizeLineEnds (d :: (line ++ '\n' :: rest)) := by
            rw [normalizeLineEnds]
            rintro rest' rfl heq
            exact h.2.1 (List.cons.inj heq).1.symm
          have ih' := ih (by rw [List.mem_cons, not_or]; exact h.2)
          rw [List.cons_append, List.cons_append, hnext, hstrip, List.cons_append]
          rw [List.cons_append] at ih'
          rw [ih']

theorem normalizeLineEnds_endLines {rows : List Text} (h : ∀ line ∈ rows, '\n' ∉ line) :
    normalizeLineEnds (endLines '\n' rows) = endLines '\n' (rows.map stripCarriageReturn) := by
  induction rows with
  | nil => rfl
  | cons line rows ih =>
      rw [endLines_cons, normalizeLineEnds_append (h line List.mem_cons_self),
        ih fun other hother => h other (List.mem_cons_of_mem _ hother), List.map_cons, endLines_cons]

theorem lines_endLines {rows : List Text} (h : ∀ line ∈ rows, '\n' ∉ line) :
    lines (endLines '\n' rows) = rows.map stripCarriageReturn := by
  rw [lines, splitOn_endLines h]
  simp

/-- Lines with a line feed between them. -/
theorem lines_intercalate {rows : List Text} (hne : rows ≠ [])
    (h : ∀ line ∈ rows, '\n' ∉ line ∧ '\r' ∉ line ∧ line ≠ []) :
    lines (['\n'].intercalate rows) = rows := by
  rw [lines, List.splitOn_intercalate _ (fun line hline => (h line hline).1) hne]
  have hsplit : rows.dropLast ++ [rows.getLast hne] = rows := List.dropLast_append_getLast hne
  have hlast : rows.getLast? = some (rows.getLast hne) := List.getLast?_eq_some_getLast hne
  have hmap : rows.dropLast.map stripCarriageReturn = rows.dropLast := by
    conv_rhs => rw [← List.map_id rows.dropLast]
    refine List.map_congr_left fun line hline => ?_
    exact stripCarriageReturn_of_notMem (h line (List.dropLast_subset _ hline)).2.1
  have hfilter : (some (rows.getLast hne)).filter (· ≠ []) = some (rows.getLast hne) :=
    Option.filter_some_pos (by simpa using (h _ (List.getLast_mem hne)).2.2)
  simp only [hmap, hlast, hfilter, Option.toList_some]
  exact hsplit

/-! ### Rows -/

theorem splitWhitespace_padColumns (gap : ℕ → Gap) (rest : Text) (index : ℕ) {columns : List Text}
    (h : ∀ column ∈ columns, IsWord column) :
    splitWhitespace (padColumns gap rest index columns) = columns ++ splitWhitespace rest := by
  induction columns generalizing index with
  | nil => rfl
  | cons column columns ih =>
      obtain ⟨hne, hword⟩ := h column List.mem_cons_self
      obtain ⟨hgap, hblank, -⟩ := (gap index).property
      rw [padColumns, splitWhitespace, wordsBy_word_gap hne hword hgap hblank]
      exact congrArg _ (ih (index + 1) fun other hother => h other (List.mem_cons_of_mem _ hother))

theorem notMem_padColumns (gap : ℕ → Gap) {rest : Text} (hrest : '\n' ∉ rest) (index : ℕ)
    {columns : List Text} (h : ∀ column ∈ columns, IsWord column) :
    '\n' ∉ padColumns gap rest index columns := by
  induction columns generalizing index with
  | nil => exact hrest
  | cons column columns ih =>
      have hword := (h column List.mem_cons_self).2
      have hgap := (gap index).property.2.2
      rw [padColumns, List.mem_append, List.mem_append, not_or, not_or]
      refine ⟨⟨fun hmem => ?_, hgap⟩, ih (index + 1) fun other hother =>
        h other (List.mem_cons_of_mem _ hother)⟩
      exact absurd (hword _ hmem) (by decide)

namespace ProcessRow

variable (row : ProcessRow)

theorem columns_words : ∀ column ∈ row.columns, IsWord column := by
  simp only [columns, List.forall_mem_cons]
  exact ⟨isWord_decimal _, isWord_decimal _, row.user.property, row.state.property,
    row.cpuPercent.property, row.memoryPercent.property, row.resident.property,
    row.elapsed.property, List.forall_mem_nil _⟩

theorem splitWhitespace_line :
    splitWhitespace row.line = row.columns ++ splitWhitespace row.command := by
  rw [line, splitWhitespace, wordsBy_gap_append row.indent_gap.1]
  exact splitWhitespace_padColumns _ _ _ row.columns_words

theorem newline_notMem_line : '\n' ∉ row.line := by
  rw [line, List.mem_append, not_or]
  exact ⟨row.indent_gap.2, notMem_padColumns _ row.command_line _ row.columns_words⟩

theorem joinWords_command_ne : (joinWords (splitWhitespace row.command)).isEmpty = false := by
  obtain ⟨word, rest, hwords, hne⟩ := exists_word row.command_words
  rw [splitWhitespace, hwords, joinWords, List.isEmpty_eq_false_iff]
  cases rest with
  | nil => simpa using hne
  | cons next rest =>
      rw [List.intercalate_cons_cons]
      simp

/-- A row that is no header is read to the entry of its process. -/
theorem parseRow_line : parseRow (splitWhitespace row.line) = some (row.entry []) := by
  have hpid : row.pid < 2 ^ 32 := Nat.lt_trans row.pid_lt (by decide)
  rw [splitWhitespace_line]
  simp only [columns, List.cons_append, List.nil_append, parseRow, parseUnsigned_decimal hpid,
    parseUnsigned_decimal row.parentPid_lt, Option.bind_eq_bind, Option.bind_some,
    row.joinWords_command_ne, Bool.false_eq_true, if_false]
  rfl

end ProcessRow

/-! ### The listing -/

theorem parseRows_lines {rows : List ProcessRow} (h : ∀ row ∈ rows, row.isHeader = false) :
    parseRows none (rows.map fun row => splitWhitespace row.line) =
      rows.map fun row => row.entry [] := by
  induction rows with
  | nil => rfl
  | cons row rest ih =>
      have hne : (splitWhitespace row.line).isEmpty = false := by
        rw [row.splitWhitespace_line]
        rfl
      have hheader : header (splitWhitespace row.line) = none := by
        have := h row List.mem_cons_self
        rwa [ProcessRow.isHeader, Option.isSome_eq_false_iff, Option.isNone_iff_eq_none] at this
      rw [List.map_cons, parseRows, hne, hheader, List.map_cons,
        ih fun other hother => h other (List.mem_cons_of_mem _ hother)]
      simp only [Bool.false_eq_true, if_false, parseWith, row.parseRow_line, Option.toList_some,
        List.singleton_append]

/-- Every row gives one entry at most, and a header none. -/
theorem length_parseRows_le (detectedHeader : Option Header) (rows : List (List Text)) :
    (parseRows detectedHeader rows).length +
      rows.countP (fun parts => (header parts).isSome) ≤ rows.length := by
  induction rows generalizing detectedHeader with
  | nil => exact Nat.le_refl _
  | cons parts rest ih =>
      rw [parseRows, List.countP_cons, List.length_cons]
      by_cases hempty : parts.isEmpty = true
      · have hnone : header parts = none := by
          rw [List.isEmpty_iff.mp hempty]
          rfl
        have := ih detectedHeader
        rw [if_pos hempty, hnone]
        simp only [Option.isSome_none, Bool.false_eq_true, if_false]
        omega
      · rw [if_neg hempty]
        cases hheader : header parts with
        | some nextHeader =>
            have := ih (some nextHeader)
            simp only [Option.isSome_some, if_true]
            omega
        | none =>
            have := ih detectedHeader
            have hone : (parseWith detectedHeader parts).toList.length ≤ 1 := by
              cases parseWith detectedHeader parts <;> simp
            simp only [Option.isSome_none, Bool.false_eq_true, if_false, List.length_append]
            omega

theorem length_bindIdentities_le (identities : Identities) (processes : List RemoteProcess) :
    (bindIdentities identities processes).length ≤ processes.length := by
  induction processes generalizing identities with
  | nil => exact Nat.le_refl _
  | cons process rest ih =>
      rw [bindIdentities]
      cases identities process.pid with
      | none => exact Nat.le_succ_of_le (ih identities)
      | some token => exact Nat.succ_le_succ (ih _)

/-- Each row is bound to the identity of its own process. -/
theorem bindIdentities_entries {identities : Identities} {rows : List ProcessRow}
    (h : (rows.map ProcessRow.pid).Nodup) :
    bindIdentities identities (rows.map fun row => row.entry []) =
      rows.filterMap fun row => (identities row.pid).map row.entry := by
  induction rows generalizing identities with
  | nil => rfl
  | cons row rest ih =>
      rw [List.map_cons, List.nodup_cons] at h
      have hpid : (row.entry []).pid = row.pid := rfl
      rw [List.map_cons, bindIdentities, hpid, List.filterMap_cons]
      cases htoken : identities row.pid with
      | none => exact ih h.2
      | some token =>
          simp only [Option.map_some]
          rw [ih h.2]
          refine congrArg₂ _ rfl (List.filterMap_congr fun other hother => ?_)
          rw [Function.update_of_ne]
          exact fun heq => h.1 (List.mem_map.mpr ⟨other, hother, heq⟩)

namespace Snapshot

variable (s : Snapshot)

theorem identityLines {line : Text} (h : line ∈ s.identities.map IdentityRow.line) :
    '\n' ∉ line ∧ '\r' ∉ line ∧ line ≠ [] ∧ line ≠ rowsHeader := by
  obtain ⟨row, -, rfl⟩ := List.mem_map.mp h
  have hboot : ∀ {c : Char}, c ≠ '-' → isHexDigit c = false → c ∉ row.bootId :=
    notMem_bootId row.bootId_valid
  have hnotMem : ∀ {c : Char}, c.isDigit = false → c ≠ '-' → isHexDigit c = false → c ≠ '\t' →
      c ∉ row.line := by
    intro c hdigit hdash hhex htab
    rw [IdentityRow.line, List.mem_append, List.mem_cons, List.mem_append, List.mem_cons]
    rintro (hmem | heq | hmem | heq | hmem)
    · exact notMem_decimal hdigit _ hmem
    · exact htab heq
    · exact hboot hdash hhex hmem
    · exact htab heq
    · exact notMem_decimal hdigit _ hmem
  refine ⟨hnotMem (by decide) (by decide) (by decide) (by decide),
    hnotMem (by decide) (by decide) (by decide) (by decide), ?_, fun heq => ?_⟩
  · rw [IdentityRow.line]
    simp
  · have hmem : '_' ∈ row.line := heq ▸ (by decide)
    exact hnotMem (by decide) (by decide) (by decide) (by decide) hmem

/-- The lines of a snapshot after normalizing their ends. -/
theorem normalizeLineEnds_print :
    normalizeLineEnds s.print = identitiesHeader ++ '\n' ::
      (endLines '\n' (linuxMode :: s.identities.map IdentityRow.line) ++ rowsHeader ++
        '\n' :: endLines '\n' (s.rows.map fun row => stripCarriageReturn row.line)) := by
  have hheader : '\n' ∉ identitiesHeader ∧ '\r' ∉ identitiesHeader := by decide
  have hmode : '\n' ∉ linuxMode ∧ '\r' ∉ linuxMode := by decide
  have hrows : '\n' ∉ rowsHeader ∧ '\r' ∉ rowsHeader := by decide
  have hstrip : (s.identities.map IdentityRow.line).map stripCarriageReturn =
      s.identities.map IdentityRow.line := by
    conv_rhs => rw [← List.map_id (s.identities.map IdentityRow.line)]
    exact List.map_congr_left fun line hline =>
      stripCarriageReturn_of_notMem (s.identityLines hline).2.1
  rw [print, normalizeLineEnds_endLines]
  · rw [List.map_append, List.map_cons, List.map_cons, List.map_cons, hstrip, List.map_map,
      stripCarriageReturn_of_notMem hheader.2, stripCarriageReturn_of_notMem hmode.2,
      stripCarriageReturn_of_notMem hrows.2, endLines_append, endLines_cons, endLines_cons]
    simp only [List.append_assoc, List.cons_append, Function.comp_def]
    rfl
  · intro line hline
    rw [List.mem_append, List.mem_cons, List.mem_cons, List.mem_cons] at hline
    obtain (rfl | rfl | hline) | rfl | hline := hline
    · exact hheader.1
    · exact hmode.1
    · exact (s.identityLines hline).1
    · exact hrows.1
    · obtain ⟨row, -, rfl⟩ := List.mem_map.mp hline
      exact row.newline_notMem_line

/-- What the parser takes from a snapshot. -/
theorem framedSnapshot_print :
    framedSnapshot (normalizeLineEnds s.print) =
      some (s.tokenOf, endLines '\n' (s.rows.map fun row => stripCarriageReturn row.line)) := by
  have hstrip : ∀ rest : Text, identitiesHeader.isPrefixOf? (identitiesHeader ++ rest) = some rest :=
    fun rest => stripPrefix_append "__GORAL_PROCESS_IDENTITIES_V1__" rest
  have hnewline : ∀ rest : Text, stripPrefix "\n" ('\n' :: rest) = some rest :=
    fun rest => stripPrefix_append "\n" rest
  have hmode : '\n' ∉ linuxMode ∧ '\r' ∉ linuxMode ∧ linuxMode ≠ [] := by decide
  have hsplit : splitAtPart ('\n' :: (rowsHeader ++ ['\n']))
      (endLines '\n' (linuxMode :: s.identities.map IdentityRow.line) ++ rowsHeader ++
        '\n' :: endLines '\n' (s.rows.map fun row => stripCarriageReturn row.line)) =
      some (['\n'].intercalate (linuxMode :: s.identities.map IdentityRow.line),
        endLines '\n' (s.rows.map fun row => stripCarriageReturn row.line)) :=
    splitAtPart_line (by decide) hmode.1
      (fun line hline => ⟨(s.identityLines hline).1, (s.identityLines hline).2.2.2⟩) _
  have hlines : lines (['\n'].intercalate (linuxMode :: s.identities.map IdentityRow.line)) =
      linuxMode :: s.identities.map IdentityRow.line := by
    refine lines_intercalate (List.cons_ne_nil _ _) fun line hline => ?_
    obtain rfl | hline := List.mem_cons.mp hline
    · exact hmode
    · obtain ⟨h₁, h₂, h₃, -⟩ := s.identityLines hline
      exact ⟨h₁, h₂, h₃⟩
  have hcollect := collectIdentities_lines s.identities_nodup
  rw [normalizeLineEnds_print]
  simp only [framedSnapshot, hstrip, hnewline, hsplit, hlines, Option.bind_eq_bind,
    Option.bind_some, List.head?_cons, List.tail_cons, modeIdentities, if_true, hcollect]
  rfl

theorem processRowParts_print :
    processRowParts (endLines '\n' (s.rows.map fun row => stripCarriageReturn row.line)) =
      s.rows.map fun row => splitWhitespace row.line := by
  rw [processRowParts, lines_endLines]
  · rw [List.map_map, List.map_map]
    refine List.map_congr_left fun row _ => ?_
    simp only [Function.comp_apply, splitWhitespace_stripCarriageReturn]
  · intro line hline
    obtain ⟨row, -, rfl⟩ := List.mem_map.mp hline
    exact notMem_stripCarriageReturn row.newline_notMem_line

theorem parseProcesses_print :
    parseProcesses s.print =
      bindIdentities s.tokenOf (parseRows none (s.rows.map fun row => splitWhitespace row.line)) := by
  have hbegins : identitiesHeader.isPrefixOf (normalizeLineEnds s.print) = true := by
    rw [normalizeLineEnds_print, List.isPrefixOf_iff_prefix]
    exact List.prefix_append _ _
  simp only [parseProcesses, hbegins, if_true, framedSnapshot_print, processRowParts_print]

/-- A list without header rows is read as expected. -/
theorem parseProcesses_eq_expected (h : s.NoHeaderRow) : parseProcesses s.print = s.expected := by
  rw [parseProcesses_print, parseRows_lines h, bindIdentities_entries s.rows_nodup]
  rfl

theorem exists_identity {pid : ℕ} {token : Text} (h : s.tokenOf pid = some token) :
    ∃ row : IdentityRow, row.pid = pid ∧ row.token = token := by
  obtain ⟨row, hrow, rfl⟩ := Option.map_eq_some_iff.mp h
  have hfound := List.find?_some hrow
  exact ⟨row, of_decide_eq_true hfound, rfl⟩

theorem lists_of_noHeaderRow (h : s.NoHeaderRow)
    (hpid : ∀ row ∈ s.rows, (s.tokenOf row.pid).isSome → row.pid ≠ 0) : s.Lists := by
  have heq := s.parseProcesses_eq_expected h
  refine ⟨heq, fun process hprocess signal => ?_⟩
  rw [heq] at hprocess
  obtain ⟨row, hrow, hentry⟩ := List.mem_filterMap.mp hprocess
  obtain ⟨token, htoken, rfl⟩ := Option.map_eq_some_iff.mp hentry
  obtain ⟨identity, -, rfl⟩ := s.exists_identity htoken
  exact signalActionPlan_isSome (hpid row hrow (by rw [htoken]; rfl)) row.pid_lt identity signal

theorem length_expected (h : ∀ row ∈ s.rows, (s.tokenOf row.pid).isSome) :
    s.expected.length = s.rows.length := by
  have key : ∀ rows : List ProcessRow, (∀ row ∈ rows, (s.tokenOf row.pid).isSome) →
      (rows.filterMap fun row => (s.tokenOf row.pid).map row.entry).length = rows.length := by
    intro rows
    induction rows with
    | nil => exact fun _ => rfl
    | cons row rest ih =>
        intro hrows
        obtain ⟨token, htoken⟩ := Option.isSome_iff_exists.mp (hrows row List.mem_cons_self)
        rw [List.filterMap_cons, htoken]
        exact congrArg Nat.succ (ih fun other hother => hrows other (List.mem_cons_of_mem _ hother))
  exact key s.rows h

/-- A header row is missing in the list, and nothing makes up for it. -/
theorem noHeaderRow_of_lists (h : ∀ row ∈ s.rows, (s.tokenOf row.pid).isSome) (hlists : s.Lists) :
    s.NoHeaderRow := by
  intro row hrow
  cases hheader : row.isHeader with
  | false => rfl
  | true =>
      have hcount : 0 < (s.rows.map fun row => splitWhitespace row.line).countP
          fun parts => (header parts).isSome :=
        List.countP_pos_iff.mpr ⟨_, List.mem_map.mpr ⟨row, hrow, rfl⟩, hheader⟩
      have hrows := length_parseRows_le none (s.rows.map fun row => splitWhitespace row.line)
      have hbound := length_bindIdentities_le s.tokenOf
        (parseRows none (s.rows.map fun row => splitWhitespace row.line))
      have hlength := congrArg List.length hlists.1
      rw [parseProcesses_print, s.length_expected h] at hlength
      rw [List.length_map] at hrows
      omega

/-- **When the list is right**: where no row looks like a header (and none is of process zero), every
process with an identity and a row is listed with its own values and a token that a signal is sent
with.  Where every row has an identity, that is the exact condition. -/
theorem listing_iff :
    (s.NoHeaderRow ∧ (∀ row ∈ s.rows, (s.tokenOf row.pid).isSome → row.pid ≠ 0) → s.Lists) ∧
    ((∀ row ∈ s.rows, (s.tokenOf row.pid).isSome) →
      (s.Lists ↔ s.NoHeaderRow ∧ ∀ row ∈ s.rows, row.pid ≠ 0)) := by
  refine ⟨fun h => s.lists_of_noHeaderRow h.1 h.2, fun hall => ⟨fun hlists => ?_, fun h => ?_⟩⟩
  · have hnone := s.noHeaderRow_of_lists hall hlists
    refine ⟨hnone, fun row hrow hzero => ?_⟩
    obtain ⟨token, htoken⟩ := Option.isSome_iff_exists.mp (hall row hrow)
    have hmem : row.entry token ∈ parseProcesses s.print := by
      rw [hlists.1]
      exact List.mem_filterMap.mpr ⟨row, hrow, by rw [htoken]; rfl⟩
    have hplan := hlists.2 _ hmem .term
    have hpid : (row.entry token).pid = 0 := hzero
    rw [hpid, signalActionPlan_zero] at hplan
    nomatch hplan
  · exact s.lists_of_noHeaderRow h.1 fun row hrow _ => h.2 row hrow

end Snapshot

/-! ### A list that a command line blanks -/

def word (text : Text) (h : IsWord text := by decide) : Column := ⟨text, h⟩

def oneBlank : Gap := ⟨[' '], by decide, by decide⟩

def identityOf (pid : ℕ) (h : pid < 2 ^ 31 := by decide) : IdentityRow where
  pid := pid
  bootId := "01234567-89ab-cdef-0123-456789abcdef".toList
  startTicks := 100 + pid
  pid_lt := h
  bootId_valid := by decide
  startTicks_pos := by omega
  startTicks_lt := by omega

/-- A process of a user whose command line ends with the names of two columns. -/
def headerProcess : ProcessRow where
  pid := 5
  parentPid := 1
  user := word "eve".toList
  state := word "S".toList
  cpuPercent := word "0.5".toList
  memoryPercent := word "1.2".toList
  resident := word "54321".toList
  elapsed := word "00:10".toList
  command := "x PID CMD".toList
  indent := []
  gap _ := oneBlank
  pid_lt := by decide
  parentPid_lt := by decide
  command_line := by decide
  command_words := ⟨'x', by decide, by decide⟩
  indent_gap := by decide

def daemonProcess : ProcessRow where
  pid := 6
  parentPid := 1
  user := word "root".toList
  state := word "S".toList
  cpuPercent := word "0.0".toList
  memoryPercent := word "0.1".toList
  resident := word "10".toList
  elapsed := word "00:01".toList
  command := "sshd".toList
  indent := []
  gap _ := oneBlank
  pid_lt := by decide
  parentPid_lt := by decide
  command_line := by decide
  command_words := ⟨'s', by decide, by decide⟩
  indent_gap := by decide

def blankedSnapshot : Snapshot where
  identities := [identityOf 5, identityOf 6]
  rows := [headerProcess, daemonProcess]
  identities_nodup := by decide
  rows_nodup := by decide

/-- Neither process is listed: the first row is a header, and the second one has no number in the
column that the first one names. -/
theorem list_blanked :
    parseProcesses blankedSnapshot.print = [] ∧
      blankedSnapshot.expected.map RemoteProcess.pid = [5, 6] ∧ ¬ blankedSnapshot.Lists := by
  have hnone : parseProcesses blankedSnapshot.print = [] := by decide +kernel
  have hpids : blankedSnapshot.expected.map RemoteProcess.pid = [5, 6] := by decide
  refine ⟨hnone, hpids, fun h => ?_⟩
  rw [← h.1, hnone] at hpids
  nomatch hpids

end Netcatty.SysManager

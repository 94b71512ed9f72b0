import Mathlib.Algebra.BigOperators.Group.List.Basic
import Mathlib.Algebra.Order.Group.Nat
import Netcatty.LogExport.Terminal

/-! # Bounds of the renderer

`Bounded` is what holds of the renderer after every character, whatever the input: the cell count is
that of the lines, which stay within their limits, and the cursor is in the screen.  Each operation
is shown to return, and to keep it (`writeCharacter_total`, `eraseDisplay_total` and so on);
`consume_total` and `feed_total` follow. -/

namespace Netcatty.LogExport

open Vault (Text)

/-! ### Cells of lines -/

section Lines

variable {lines : List Line} {line : Line}

theorem cellTotal_append (lines more : List Line) :
    cellTotal (lines ++ more) = cellTotal lines + cellTotal more := by
  simp [cellTotal]

@[simp] theorem cellTotal_replicate_nil (n : ℕ) : cellTotal (List.replicate n []) = 0 := by
  simp [cellTotal]

theorem cellTotal_reverse (lines : List Line) : cellTotal lines.reverse = cellTotal lines := by
  simp [cellTotal]

theorem cellTotal_take_add_drop (lines : List Line) (n : ℕ) :
    cellTotal (lines.take n) + cellTotal (lines.drop n) = cellTotal lines := by
  rw [← cellTotal_append, List.take_append_drop]

theorem cellTotal_set {i : ℕ} (h : lines[i]? = some line) (line' : Line) :
    cellTotal (lines.set i line') + line.length = cellTotal lines + line'.length := by
  induction lines generalizing i with
  | nil => simp at h
  | cons head lines ih =>
      cases i with
      | zero =>
          obtain rfl : head = line := by simpa using h
          simp only [List.set_cons_zero, cellTotal, List.map_cons, List.sum_cons]
          omega
      | succ i =>
          have := ih (i := i) (by simpa using h)
          simp only [List.set_cons_succ, cellTotal, List.map_cons, List.sum_cons] at this ⊢
          omega

theorem trimFrom_spec {cells : Line} {length : ℕ} (h : length ≤ cells.length) :
    ∃ n, trimFrom cells length = some n ∧ n ≤ length ∧
      ∀ i, n ≤ i → i < length → ∀ cell, cells[i]? = some cell → isBlank cell.character = true := by
  induction length with
  | zero => exact ⟨0, rfl, Nat.le_refl _, fun i _ hi => absurd hi (Nat.not_lt_zero _)⟩
  | succ length ih =>
      have hcell : cells[length]? = some cells[length] := List.getElem?_eq_getElem (by omega)
      rw [trimFrom, hcell]
      by_cases hstop : !isBlank cells[length].character || !(styleToCss cells[length].style).isEmpty
      · refine ⟨length + 1, ?_, Nat.le_refl _, fun i hi hi' => absurd hi' (by omega)⟩
        simp only [Option.bind_eq_bind, Option.bind_some, hstop, if_true]
        rfl
      · obtain ⟨n, hn, hle, hblank⟩ := ih (by omega)
        refine ⟨n, ?_, by omega, fun i hi hi' cell hget => ?_⟩
        · simp only [Option.bind_eq_bind, Option.bind_some, hstop]
          exact hn
        · by_cases heq : i = length
          · subst heq
            rw [hcell] at hget
            cases hget
            simp only [Bool.or_eq_true, Bool.not_eq_true', not_or, Bool.not_eq_false] at hstop
            exact hstop.1
          · exact hblank i hi (by omega) cell hget

theorem exists_trimmedLineLength (line : Line) : ∃ n, trimmedLineLength line = some n := by
  obtain ⟨n, hn, -⟩ := trimFrom_spec (Nat.le_refl _)
  exact ⟨n, hn⟩

theorem exists_hasContent (lines : List Line) : ∃ content, hasContent lines = some content := by
  induction lines with
  | nil => exact ⟨false, rfl⟩
  | cons line lines ih =>
      obtain ⟨n, hn⟩ := exists_trimmedLineLength line
      obtain ⟨content, hcontent⟩ := ih
      unfold hasContent at hcontent ⊢
      cases hpos : decide (0 < n) with
      | true => exact ⟨true, by simp [List.anyM, hn, hpos]⟩
      | false => exact ⟨content, by simpa [List.anyM, hn, hpos] using hcontent⟩

/-- What is left is a part of the lines, and the cells of the rest have been taken from the count. -/
theorem popBlankLines_spec (lines : List Line) (count : ℕ) :
    ∃ kept count', popBlankLines lines count = some (kept, count') ∧ kept.length ≤ lines.length ∧
      cellTotal kept ≤ cellTotal lines ∧
      (cellTotal lines ≤ count → count' + cellTotal lines = count + cellTotal kept) := by
  induction lines generalizing count with
  | nil => exact ⟨[], count, rfl, Nat.le_refl _, Nat.le_refl _, fun _ => rfl⟩
  | cons line lines ih =>
      have hcons : cellTotal (line :: lines) = line.length + cellTotal lines := by simp [cellTotal]
      obtain ⟨n, hn⟩ := exists_trimmedLineLength line
      simp only [popBlankLines, hn, Option.bind_eq_bind, Option.bind_some]
      by_cases hzero : n = 0
      · obtain ⟨kept, count', hpop, hlen, hle, hcount⟩ := ih (count - line.length)
        refine ⟨kept, count', by rw [if_pos hzero, hpop], ?_, by omega, fun h => ?_⟩
        · rw [List.length_cons]
          omega
        · have := hcount (by omega)
          omega
      · refine ⟨line :: lines, count, ?_, Nat.le_refl _, Nat.le_refl _, fun _ => rfl⟩
        rw [if_neg hzero]
        rfl

theorem trimTrailingBlankLines_spec (lines : List Line) :
    ∃ kept, trimTrailingBlankLines lines = some kept ∧ cellTotal kept ≤ cellTotal lines := by
  obtain ⟨kept, count', hpop, -, hle, -⟩ := popBlankLines_spec lines.reverse 0
  refine ⟨kept.reverse, ?_, ?_⟩
  · simp [trimTrailingBlankLines, hpop]
  · rwa [cellTotal_reverse, ← cellTotal_reverse lines]

end Lines

/-! ### The invariant -/

structure Bounded (s : TerminalTextRenderer) : Prop where
  cells : s.storedCellCount = cellTotal s.lines
  virtual_le : s.storedCellCount + s.pendingCellCount ≤ maxVirtualCells
  rows_le : s.lines.length ≤ maxVirtualRows
  base_le_row : s.screenBaseRow ≤ s.row
  base_lt : s.screenBaseRow < s.lines.length
  row_lt : s.row < maxVirtualRows
  pending : ∀ pending, s.pendingClearedScreen = some pending →
    pending.cellCount = cellTotal pending.lines

variable {s t : TerminalTextRenderer}

theorem satAdd_eq {a b : ℕ} (h : a + b < usizeLimit) : satAdd a b = a + b :=
  Nat.min_eq_left (by omega)

theorem Bounded.virtualCellCount_eq (h : Bounded s) :
    s.virtualCellCount = s.storedCellCount + s.pendingCellCount := by
  have := h.virtual_le
  refine satAdd_eq (Nat.lt_of_le_of_lt this ?_)
  decide

/-- The cursor moves, and nothing that is stored changes. -/
theorem Bounded.move (h : Bounded s) (hlines : t.lines = s.lines)
    (hcells : t.storedCellCount = s.storedCellCount)
    (hpending : t.pendingClearedScreen = s.pendingClearedScreen)
    (hbase : t.screenBaseRow = s.screenBaseRow) (hrow : s.screenBaseRow ≤ t.row)
    (hlt : t.row < maxVirtualRows) : Bounded t where
  cells := by rw [hcells, hlines, h.cells]
  virtual_le := by
    rw [hcells, TerminalTextRenderer.pendingCellCount, hpending]
    exact h.virtual_le
  rows_le := by rw [hlines]; exact h.rows_le
  base_le_row := by rw [hbase]; exact hrow
  base_lt := by rw [hbase, hlines]; exact h.base_lt
  row_lt := hlt
  pending := by rw [hpending]; exact h.pending

/-- Nor does the cursor change its row. -/
theorem Bounded.keep (h : Bounded s) (hlines : t.lines = s.lines)
    (hcells : t.storedCellCount = s.storedCellCount)
    (hpending : t.pendingClearedScreen = s.pendingClearedScreen)
    (hbase : t.screenBaseRow = s.screenBaseRow) (hrow : t.row = s.row) : Bounded t :=
  h.move hlines hcells hpending hbase (hrow ▸ h.base_le_row) (hrow ▸ h.row_lt)

/-- Lines are put in the place of others, with no more cells than there is room for. -/
theorem Bounded.store (h : Bounded s) {lines : List Line} (hlines : t.lines = lines)
    (hcells : t.storedCellCount = cellTotal lines)
    (hroom : cellTotal lines + s.pendingCellCount ≤ maxVirtualCells)
    (hlength : lines.length ≤ maxVirtualRows) (hlt : s.screenBaseRow < lines.length)
    (hpending : t.pendingClearedScreen = s.pendingClearedScreen)
    (hbase : t.screenBaseRow = s.screenBaseRow) (hrow : t.row = s.row) : Bounded t where
  cells := by rw [hcells, hlines]
  virtual_le := by
    rw [hcells, TerminalTextRenderer.pendingCellCount, hpending]
    exact hroom
  rows_le := by rw [hlines]; exact hlength
  base_le_row := by rw [hbase, hrow]; exact h.base_le_row
  base_lt := by rw [hbase, hlines]; exact hlt
  row_lt := by rw [hrow]; exact h.row_lt
  pending := by rw [hpending]; exact h.pending

/-- Without a pending screen there is only the rest to check. -/
theorem Bounded.withoutPending {lines : List Line} (hlines : t.lines = lines)
    (hpending : t.pendingClearedScreen = none) (hcells : t.storedCellCount = cellTotal lines)
    (hroom : cellTotal lines ≤ maxVirtualCells) (hlength : lines.length ≤ maxVirtualRows)
    (hbase : t.screenBaseRow ≤ t.row) (hlt : t.screenBaseRow < lines.length)
    (hrow : t.row < maxVirtualRows) : Bounded t where
  cells := by rw [hcells, hlines]
  virtual_le := by
    rw [hcells, TerminalTextRenderer.pendingCellCount, hpending]
    exact hroom
  rows_le := by rw [hlines]; exact hlength
  base_le_row := hbase
  base_lt := by rw [hlines]; exact hlt
  row_lt := hrow
  pending := by
    rw [hpending]
    exact fun _ hnone => nomatch hnone

/-! ### Lines -/

namespace TerminalTextRenderer

theorem cellTotal_ensureLine (s : TerminalTextRenderer) :
    cellTotal s.ensureLine.lines = cellTotal s.lines := by
  simp [ensureLine, cellTotal_append]

theorem row_ensureLine (h : s.row < maxVirtualRows) : s.ensureLine.row = s.row := by
  refine Nat.min_eq_left ?_
  omega

theorem row_lt_ensureLine (s : TerminalTextRenderer) :
    s.ensureLine.row < s.ensureLine.lines.length := by
  simp only [ensureLine, List.length_append, List.length_replicate]
  omega

theorem length_ensureLine_le (h : s.lines.length ≤ maxVirtualRows) :
    s.lines.length ≤ s.ensureLine.lines.length ∧ s.ensureLine.lines.length ≤ maxVirtualRows := by
  have hmax : 0 < maxVirtualRows := by decide
  simp only [ensureLine, List.length_append, List.length_replicate]
  omega

theorem ensureLine_bounded (h : Bounded s) : Bounded s.ensureLine := by
  have hlength := length_ensureLine_le h.rows_le
  have hbase := h.base_lt
  have htotal := cellTotal_ensureLine s
  refine h.store rfl ?_ ?_ hlength.2 (by omega) rfl rfl (row_ensureLine h.row_lt)
  · rw [htotal]
    exact h.cells
  · rw [htotal, ← h.cells]
    exact h.virtual_le

/-- A line of the screen is replaced, and its cells are counted. -/
theorem set_bounded (h : Bounded s) {i : ℕ} {line line' : Line} (hline : s.lines[i]? = some line)
    {n : ℕ} (hcount : n + line.length = s.storedCellCount + line'.length)
    (hroom : n + s.pendingCellCount ≤ maxVirtualCells) (hlines : t.lines = s.lines.set i line')
    (hcells : t.storedCellCount = n)
    (hpending : t.pendingClearedScreen = s.pendingClearedScreen)
    (hbase : t.screenBaseRow = s.screenBaseRow) (hrow : t.row = s.row) : Bounded t := by
  have hset := cellTotal_set hline line'
  have hcells' := h.cells
  have htotal : n = cellTotal (s.lines.set i line') := by omega
  refine h.store hlines (hcells.trans htotal) (htotal ▸ hroom) ?_ ?_ hpending hbase hrow
  · rw [List.length_set]
    exact h.rows_le
  · rw [List.length_set]
    exact h.base_lt

theorem length_le_cells (h : Bounded s) {i : ℕ} {line : Line} (hline : s.lines[i]? = some line) :
    line.length ≤ s.storedCellCount := by
  have hset := cellTotal_set hline []
  rw [h.cells]
  simp only [List.length_nil, Nat.add_zero] at hset
  omega

/-- The lines with some of them cleared. -/
def cleared (lines : List Line) (start n : ℕ) : List Line :=
  lines.take start ++ List.replicate n [] ++ lines.drop (start + n)

theorem cleared_zero (lines : List Line) (start : ℕ) : cleared lines start 0 = lines := by
  simp [cleared]

theorem cleared_succ {lines : List Line} {start : ℕ} (h : start < lines.length) (n : ℕ) :
    cleared (lines.set start []) (start + 1) n = cleared lines start (n + 1) := by
  have hset : lines.set start [] = lines.take start ++ [[]] ++ lines.drop (start + 1) := by
    rw [List.set_eq_take_append_cons_drop, if_pos h, List.append_assoc]
    rfl
  have htake : (lines.take start ++ [[]]).length = start + 1 := by
    rw [List.length_append, List.length_take, Nat.min_eq_left h.le]
    rfl
  have hdrop : (lines.drop (start + 1)).drop n = lines.drop (start + (n + 1)) := by
    rw [List.drop_drop]
    congr 1
    omega
  unfold cleared
  rw [hset, List.take_append_of_le_length htake.ge, List.take_of_length_le htake.le,
    ← List.drop_drop, List.drop_append_of_le_length htake.ge, List.drop_of_length_le htake.le,
    List.nil_append, hdrop, List.replicate_succ, List.append_assoc (lines.take start)]
  rfl

theorem length_cleared {lines : List Line} {start n : ℕ} (h : start + n ≤ lines.length) :
    (cleared lines start n).length = lines.length := by
  simp only [cleared, List.length_append, List.length_take, List.length_replicate,
    List.length_drop]
  omega

theorem cellTotal_cleared (lines : List Line) (start n : ℕ) :
    cellTotal (cleared lines start n) =
      cellTotal (lines.take start) + cellTotal (lines.drop (start + n)) := by
  simp [cleared, cellTotal_append]

/-- **A run of lines is cleared.** -/
theorem clearLines_range (n : ℕ) {i : ℕ} (hcells : s.storedCellCount = cellTotal s.lines)
    (hn : i + n ≤ s.lines.length) :
    s.clearLines (List.range' i n) = some { s with
      lines := cleared s.lines i n
      storedCellCount := cellTotal (cleared s.lines i n) } := by
  induction n generalizing s i with
  | zero => rw [cleared_zero, ← hcells]; rfl
  | succ n ih =>
      have hlt : i < s.lines.length := by omega
      have hline : s.lines[i]? = some s.lines[i] := List.getElem?_eq_getElem hlt
      have hset := cellTotal_set hline []
      simp only [List.length_nil, Nat.add_zero] at hset
      have hclear : s.clearLine i = some { s with
          lines := s.lines.set i []
          storedCellCount := cellTotal (s.lines.set i []) } := by
        have hcount : s.storedCellCount - s.lines[i].length =
            cellTotal (s.lines.set i []) := by omega
        simp only [clearLine, hline, Option.bind_eq_bind, Option.bind_some, hcount]
        rfl
      rw [clearLines, List.range'_succ, List.foldlM_cons, hclear, Option.bind_eq_bind,
        Option.bind_some]
      have hrest := ih (s := { s with
        lines := s.lines.set i []
        storedCellCount := cellTotal (s.lines.set i []) }) (i := i + 1) rfl
        (by rw [List.length_set]; omega)
      rw [clearLines] at hrest
      rw [hrest]
      simp only [cleared_succ hlt]

theorem clearLines_total (h : Bounded s) (start n : ℕ)
    (hn : start + n ≤ s.lines.length) :
    ∃ t, s.clearLines (List.range' start n) = some t ∧ Bounded t := by
  refine ⟨_, clearLines_range n h.cells hn, ?_⟩
  have htotal := cellTotal_cleared s.lines start n
  have htake := cellTotal_take_add_drop s.lines start
  have hdrop := cellTotal_take_add_drop (s.lines.drop start) n
  rw [List.drop_drop] at hdrop
  have hcells := h.cells
  have hroom := h.virtual_le
  have hle : cellTotal (cleared s.lines start n) + s.pendingCellCount ≤ maxVirtualCells := by
    omega
  refine h.store rfl rfl hle ?_ ?_ rfl rfl rfl
  · rw [length_cleared hn]
    exact h.rows_le
  · rw [length_cleared hn]
    exact h.base_lt

/-! ### Screens -/

theorem startNewLogScreen_total (h : Bounded s) (hrow : s.row < s.lines.length) :
    ∃ t, s.startNewLogScreen = some t ∧ Bounded t := by
  unfold startNewLogScreen
  by_cases hstarted : s.justStartedLogScreen = true
  · exact ⟨s, by simp [hstarted], h⟩
  · obtain ⟨content, hcontent⟩ := exists_hasContent s.lines
    have hroom := h.virtual_le
    have hrows := h.rows_le
    simp only [hstarted, Bool.false_eq_true, if_false, hcontent, Option.bind_eq_bind,
      Option.bind_some]
    cases content with
    | false =>
        simp only [Bool.false_and, Bool.false_eq_true, if_false, Bool.not_false, if_true]
        refine ⟨_, rfl, Bounded.withoutPending rfl rfl rfl (Nat.zero_le _) ?_
          (Nat.le_refl _) Nat.zero_lt_one ?_⟩
        · change 1 ≤ maxVirtualRows
          decide
        · change 0 < maxVirtualRows
          decide
    | true =>
        have hcells : cellTotal s.lines ≤ maxVirtualCells := by
          rw [← h.cells]
          omega
        by_cases hlt : s.lines.length < maxVirtualRows
        · have hlength : (s.lines ++ [[]]).length = s.lines.length + 1 := List.length_append
          have hsub : subOrPanic (s.lines ++ [[]]).length 1 = some s.lines.length := by
            rw [hlength]
            exact if_pos (Nat.le_add_left 1 _)
          have htotal : cellTotal (s.lines ++ [[]]) = cellTotal s.lines := by
            simp [cellTotal]
          simp only [hlt, decide_true, Bool.and_self, if_true, hsub, Option.bind_some]
          refine ⟨_, rfl, Bounded.withoutPending rfl rfl (h.cells.trans htotal.symm)
            (htotal.trans_le hcells) (hlength.trans_le hlt) (Nat.le_refl _) ?_ hlt⟩
          rw [hlength]
          exact Nat.lt_succ_self _
        · simp only [hlt, decide_false, Bool.and_false, Bool.false_eq_true, if_false,
            Bool.not_true]
          exact ⟨_, rfl, Bounded.withoutPending rfl rfl h.cells hcells hrows (Nat.le_refl _) hrow
            h.row_lt⟩

/-- The lines of the screen are cleared, and the cells before it have room next to what is
pending. -/
theorem blankScreen_total (hcells : s.storedCellCount = cellTotal s.lines)
    (hpending : ∀ pending, s.pendingClearedScreen = some pending →
      pending.cellCount = cellTotal pending.lines)
    (hroom : cellTotal (s.lines.take s.screenBaseRow) + s.pendingCellCount ≤ maxVirtualCells)
    (hrows : s.lines.length ≤ maxVirtualRows) (hbase : s.screenBaseRow < s.lines.length)
    (targetRow : ℕ) :
    ∃ t, s.blankScreen targetRow = some t ∧ Bounded t := by
  have hsum : s.screenBaseRow + (s.lines.length - s.screenBaseRow) = s.lines.length := by omega
  rw [blankScreen, clearLines_range _ hcells (by omega), Option.bind_eq_bind, Option.bind_some]
  have htotal := cellTotal_cleared s.lines s.screenBaseRow (s.lines.length - s.screenBaseRow)
  have hlength : (cleared s.lines s.screenBaseRow (s.lines.length - s.screenBaseRow)).length =
      s.lines.length := length_cleared (by omega)
  rw [hsum, List.drop_length] at htotal
  refine ⟨_, rfl, ?_⟩
  refine Bounded.keep (ensureLine_bounded ?_) rfl rfl rfl rfl rfl
  refine ⟨rfl, ?_, ?_, ?_, ?_, ?_, hpending⟩
  · refine Nat.le_trans (Nat.le_of_eq ?_) hroom
    exact congrArg (· + s.pendingCellCount) htotal
  · exact hlength.trans_le hrows
  · change s.screenBaseRow ≤ min (max s.screenBaseRow targetRow) (maxVirtualRows - 1)
    omega
  · exact hbase.trans_eq hlength.symm
  · change min (max s.screenBaseRow targetRow) (maxVirtualRows - 1) < maxVirtualRows
    omega

theorem clearCurrentLogScreen_total (h : Bounded s) (keepPending : Bool) :
    ∃ t, s.clearCurrentLogScreen keepPending = some t ∧ Bounded t := by
  have hcells := h.cells
  have hroom := h.virtual_le
  have hbase := h.base_lt
  have hsplit := cellTotal_take_add_drop s.lines s.screenBaseRow
  obtain ⟨content, hcontent⟩ := exists_hasContent (s.lines.drop s.screenBaseRow)
  have hslice : sliceFrom s.lines s.screenBaseRow = some (s.lines.drop s.screenBaseRow) :=
    if_pos hbase.le
  have hkeep : ∃ kept, s.keepClearedScreen keepPending = some kept ∧ kept.lines = s.lines ∧
      kept.storedCellCount = s.storedCellCount ∧ kept.screenBaseRow = s.screenBaseRow ∧
      cellTotal (s.lines.take s.screenBaseRow) + kept.pendingCellCount ≤ maxVirtualCells ∧
      ∀ pending, kept.pendingClearedScreen = some pending →
        pending.cellCount = cellTotal pending.lines := by
    unfold keepClearedScreen currentLogScreenHasContent
    simp only [hcontent, Option.bind_eq_bind, Option.bind_some]
    cases keepPending with
    | false =>
        refine ⟨_, rfl, rfl, rfl, rfl, ?_, fun _ hnone => (nomatch hnone)⟩
        change cellTotal (s.lines.take s.screenBaseRow) + 0 ≤ maxVirtualCells
        omega
    | true =>
        cases content with
        | false => exact ⟨_, rfl, rfl, rfl, rfl, by omega, h.pending⟩
        | true =>
            simp only [Bool.and_self, if_true, hslice, Option.bind_some]
            refine ⟨_, rfl, rfl, rfl, rfl, ?_, ?_⟩
            · change cellTotal (s.lines.take s.screenBaseRow) +
                cellTotal (s.lines.drop s.screenBaseRow) ≤ maxVirtualCells
              omega
            · intro pending hpending
              cases hpending
              rfl
  obtain ⟨kept, hkept, hlines, hstored, hkeptBase, hkeptRoom, hpending⟩ := hkeep
  rw [clearCurrentLogScreen, hkept, Option.bind_eq_bind, Option.bind_some]
  refine blankScreen_total ?_ hpending ?_ ?_ ?_ s.row
  · rw [hstored, hlines, hcells]
  · rwa [hlines, hkeptBase]
  · rw [hlines]
    exact h.rows_le
  · rwa [hlines, hkeptBase]

/-- What is pending is put back before the screen, in whose place it was. -/
theorem buildLines_total (h : Bounded s) {pending : PendingClearedScreen}
    (hpending : s.pendingClearedScreen = some pending) :
    ∃ lines base, s.buildLinesWithPendingClearedScreen pending = some (lines, base) ∧
      cellTotal lines ≤ maxVirtualCells ∧ lines.length ≤ maxVirtualRows ∧
      base < maxVirtualRows := by
  have hcells := h.cells
  have hroom := h.virtual_le
  have hcount := h.pending pending hpending
  have hpendingCells : s.pendingCellCount = pending.cellCount := by
    rw [pendingCellCount, hpending]
    rfl
  obtain ⟨kept, hkept, hle⟩ := trimTrailingBlankLines_spec pending.lines
  have hsplit := cellTotal_take_add_drop s.lines pending.baseRow
  have hbefore : sliceTo s.lines (min pending.baseRow s.lines.length) =
      some (s.lines.take pending.baseRow) := by
    rw [sliceTo, if_pos (Nat.min_le_right _ _), ← List.take_eq_take_min]
  have hafter : ∃ after, s.linesFrom pending.baseRow = some after ∧
      cellTotal after ≤ cellTotal (s.lines.drop pending.baseRow) := by
    by_cases hlt : pending.baseRow < s.lines.length
    · exact ⟨_, by rw [linesFrom, if_pos hlt, sliceFrom, if_pos hlt.le], Nat.le_refl _⟩
    · exact ⟨[[]], by rw [linesFrom, if_neg hlt], Nat.zero_le _⟩
  obtain ⟨after, hafter, hafterCells⟩ := hafter
  unfold buildLinesWithPendingClearedScreen
  simp only [hbefore, hkept, hafter, Option.bind_eq_bind, Option.bind_some]
  refine ⟨_, _, rfl, ?_, List.length_take_le _ _, ?_⟩
  · have htake := cellTotal_take_add_drop
      (s.lines.take pending.baseRow ++ kept ++ [[]] ++ after) maxVirtualRows
    have htotal : cellTotal (s.lines.take pending.baseRow ++ kept ++ [[]] ++ after) =
        cellTotal (s.lines.take pending.baseRow) + cellTotal kept + cellTotal after := by
      simp only [cellTotal_append]
      rfl
    omega
  · have hpos : 0 < maxVirtualRows := by decide
    omega

theorem commitPendingClearedScreen_total (h : Bounded s) :
    ∃ t, s.commitPendingClearedScreen = some t ∧ Bounded t := by
  unfold commitPendingClearedScreen
  cases hpending : s.pendingClearedScreen with
  | none => exact ⟨s, rfl, h⟩
  | some pending =>
      obtain ⟨lines, base, hbuild, hcells, hlength, hbase⟩ := buildLines_total h hpending
      simp only [hbuild, Option.bind_eq_bind, Option.bind_some]
      have hbase' : ∀ n, min base (maxVirtualRows - 1) ≤
          min (min (satAdd (min base (maxVirtualRows - 1)) n) (maxVirtualRows - 1))
            (maxVirtualRows - 1) := by
        intro n
        have hlimit : maxVirtualRows - 1 ≤ usizeLimit - 1 := by decide
        unfold satAdd
        omega
      refine ⟨_, rfl, Bounded.withoutPending rfl rfl rfl ?_ ?_ (hbase' _) ?_ ?_⟩
      · rw [cellTotal_ensureLine]
        exact hcells
      · exact (length_ensureLine_le hlength).2
      · have hle := hbase' (s.row - pending.baseRow)
        simp only [ensureLine, List.length_append, List.length_replicate]
        omega
      · refine Nat.lt_of_le_of_lt (Nat.min_le_right _ _) ?_
        decide

/-! ### Erasing -/

/-- The line of the cursor is there, and what is done to it keeps the cursor in place. -/
theorem eraseLine_total (h : Bounded s) (mode : ℕ) :
    ∃ t, s.eraseLine mode = some t ∧ Bounded t ∧ t.row < t.lines.length := by
  have hbounded := ensureLine_bounded h
  have hrow := row_lt_ensureLine s
  have hline : s.ensureLine.lines[s.ensureLine.row]? = some s.ensureLine.lines[s.ensureLine.row] :=
    List.getElem?_eq_getElem hrow
  generalize s.ensureLine.lines[s.ensureLine.row] = line at hline
  have hcells := length_le_cells hbounded hline
  have hroom := hbounded.virtual_le
  unfold eraseLine
  simp only [hline, Option.bind_eq_bind, Option.bind_some]
  by_cases h₁ : mode = 1
  · rw [if_pos h₁]
    refine ⟨_, rfl, set_bounded hbounded hline ?_ hroom rfl
      rfl rfl rfl rfl, by rwa [List.length_set]⟩
    simp only [List.length_append, List.length_map, List.length_take, List.length_drop]
    omega
  · rw [if_neg h₁]
    by_cases h₂ : mode = 2
    · rw [if_pos h₂]
      refine ⟨_, rfl, set_bounded hbounded hline
        (n := s.ensureLine.storedCellCount - line.length) ?_ (by omega) rfl rfl rfl rfl rfl,
        by rwa [List.length_set]⟩
      rw [List.length_nil]
      omega
    · rw [if_neg h₂]
      have hsub : subOrPanic line.length (min line.length s.ensureLine.column) =
          some (line.length - min line.length s.ensureLine.column) := if_pos (Nat.min_le_left _ _)
      have hslice : sliceTo line (min line.length s.ensureLine.column) =
          some (line.take (min line.length s.ensureLine.column)) := if_pos (Nat.min_le_left _ _)
      simp only [hsub, Option.bind_some]
      by_cases hremoved : 0 < line.length - min line.length s.ensureLine.column
      · rw [if_pos hremoved, hslice, Option.bind_some]
        refine ⟨_, rfl, set_bounded hbounded hline (n := s.ensureLine.storedCellCount -
          (line.length - min line.length s.ensureLine.column)) ?_ (by omega) rfl rfl rfl rfl rfl,
          by rwa [List.length_set]⟩
        rw [List.length_take]
        omega
      · rw [if_neg hremoved]
        refine ⟨_, rfl, set_bounded hbounded hline (n := s.ensureLine.storedCellCount -
          (line.length - min line.length s.ensureLine.column)) (by omega) (by omega) rfl rfl rfl rfl
          rfl, by rwa [List.length_set]⟩

theorem eraseBelow_total (h : Bounded s) : ∃ t, s.eraseBelow = some t ∧ Bounded t := by
  obtain ⟨t, ht, hbounded, hrow⟩ := eraseLine_total h 0
  have hlt := hbounded.row_lt
  have hlimit : maxVirtualRows < usizeLimit := by decide
  have hsat : satAdd t.row 1 = t.row + 1 := satAdd_eq (by omega)
  have hadd : addOrPanic t.row 1 = some (t.row + 1) := if_pos (by omega)
  have hsplit := cellTotal_take_add_drop t.lines (t.row + 1)
  have hcells := hbounded.cells
  have hroom := hbounded.virtual_le
  have hbase := hbounded.base_le_row
  have hrows := hbounded.rows_le
  have hlength : (t.lines.take (t.row + 1)).length = t.row + 1 := by
    rw [List.length_take]
    omega
  rw [eraseBelow, ht, Option.bind_eq_bind, Option.bind_some, hsat, hadd, Option.bind_eq_bind,
    Option.bind_some]
  have hstored : t.storedCellCount - cellTotal (t.lines.drop (t.row + 1)) =
      cellTotal (t.lines.take (t.row + 1)) := by omega
  have hle : cellTotal (t.lines.take (t.row + 1)) + t.pendingCellCount ≤ maxVirtualCells := by omega
  have hlength' : (t.lines.take (t.row + 1)).length ≤ maxVirtualRows := by omega
  have hbase' : t.screenBaseRow < (t.lines.take (t.row + 1)).length := by omega
  exact ⟨_, rfl, hbounded.store rfl hstored hle hlength' hbase' rfl rfl rfl⟩

theorem eraseDisplay_total (h : Bounded s) (mode : ℕ) :
    ∃ t, s.eraseDisplay mode = some t ∧ Bounded t := by
  have hbounded := ensureLine_bounded h
  have hrow := row_lt_ensureLine s
  unfold eraseDisplay
  dsimp only
  by_cases h₃ : mode = 3
  · rw [if_pos h₃]
    exact commitPendingClearedScreen_total hbounded
  · rw [if_neg h₃]
    by_cases h₂ : mode = 2
    · rw [if_pos h₂]
      by_cases hhistory : s.ensureLine.hasPreservedScreenHistory = true
      · rw [if_pos hhistory]
        exact clearCurrentLogScreen_total hbounded true
      · rw [if_neg hhistory]
        exact startNewLogScreen_total hbounded hrow
    · rw [if_neg h₂]
      by_cases h₁ : mode = 1
      · have hbase := hbounded.base_le_row
        obtain ⟨t, ht, hcleared⟩ := clearLines_total hbounded s.ensureLine.screenBaseRow
          (min s.ensureLine.row s.ensureLine.lines.length - s.ensureLine.screenBaseRow) (by omega)
        obtain ⟨u, hu, hu', -⟩ := eraseLine_total hcleared 1
        rw [if_pos h₁, ht, Option.bind_eq_bind, Option.bind_some]
        exact ⟨u, hu, hu'⟩
      · rw [if_neg h₁]
        by_cases hhome : s.ensureLine.row = s.ensureLine.screenBaseRow ∧ s.ensureLine.column = 0 ∧
            s.ensureLine.cursorMovedHomeByCsi ∧ !s.ensureLine.hasPreservedScreenHistory
        · rw [if_pos hhome]
          exact startNewLogScreen_total hbounded hrow
        · rw [if_neg hhome]
          exact eraseBelow_total hbounded

/-! ### Writing -/

theorem writeCharacter_total (h : Bounded s) (character : Char)
    (printable : isTerminalPrintable character = true) :
    ∃ t, s.writeCharacter character printable = some t ∧ Bounded t := by
  unfold writeCharacter
  by_cases hcolumn : maxVirtualColumns ≤ s.column
  · exact ⟨s, if_pos hcolumn, h⟩
  · rw [if_neg hcolumn]
    have hbounded := ensureLine_bounded h
    have hrow := row_lt_ensureLine s
    have hline : s.ensureLine.lines[s.ensureLine.row]? =
        some s.ensureLine.lines[s.ensureLine.row] := List.getElem?_eq_getElem hrow
    generalize s.ensureLine.lines[s.ensureLine.row] = line at hline
    have hlimit : maxVirtualColumns + maxVirtualCells + 1 < usizeLimit := by decide
    have hcolumn' : s.ensureLine.column < maxVirtualColumns := by
      change s.column < maxVirtualColumns
      omega
    have hsat : satAdd s.ensureLine.column 1 = s.ensureLine.column + 1 := satAdd_eq (by omega)
    have hadd : addOrPanic s.ensureLine.column 1 = some (s.ensureLine.column + 1) :=
      if_pos (by omega)
    have hvirtual := hbounded.virtualCellCount_eq
    have hroom := hbounded.virtual_le
    simp only [hline, Option.bind_eq_bind, Option.bind_some, hsat, hvirtual, hadd]
    by_cases hfull : maxVirtualCells < satAdd
        (s.ensureLine.storedCellCount + s.ensureLine.pendingCellCount)
        (s.ensureLine.column + 1 - line.length)
    · exact ⟨s.ensureLine, if_pos hfull, hbounded⟩
    · rw [if_neg hfull]
      rw [satAdd_eq (by omega)] at hfull
      have hstored : satAdd s.ensureLine.storedCellCount
          (s.ensureLine.column + 1 - line.length) =
            s.ensureLine.storedCellCount + (s.ensureLine.column + 1 - line.length) :=
        satAdd_eq (by omega)
      refine ⟨_, rfl, set_bounded hbounded hline ?_ (by omega) rfl hstored rfl rfl rfl⟩
      by_cases hin : s.ensureLine.column < (line ++ List.replicate
          (s.ensureLine.column - line.length) Cell.blank).length
      · rw [if_pos hin, List.length_set]
        rw [List.length_append, List.length_replicate] at hin ⊢
        omega
      · rw [if_neg hin]
        simp only [List.length_append, List.length_replicate, List.length_singleton] at hin ⊢
        omega

theorem writeSpaces_total (h : Bounded s) (count : ℕ) :
    ∃ t, writeSpaces count s = some t ∧ Bounded t := by
  induction count generalizing s with
  | zero => exact ⟨s, rfl, h⟩
  | succ count ih =>
      obtain ⟨t, ht, hbounded⟩ := writeCharacter_total h ' ' (by decide)
      obtain ⟨u, hu, hbounded'⟩ := ih hbounded
      exact ⟨u, by rw [writeSpaces, ht]; exact hu, hbounded'⟩

theorem applyRisReset_total (h : Bounded s) : ∃ t, s.applyRisReset = some t ∧ Bounded t := by
  have hcells := h.cells
  have hroom := h.virtual_le
  have hrows := h.rows_le
  have hbase := h.base_lt
  obtain ⟨kept, count, hpop, hlength, hkept, hcount⟩ :=
    popBlankLines_spec s.lines.reverse s.storedCellCount
  rw [cellTotal_reverse] at hkept hcount
  rw [List.length_reverse] at hlength
  have htotal := hcount hcells.ge
  have hstored : count = cellTotal kept.reverse := by
    rw [cellTotal_reverse]
    omega
  have hle : cellTotal kept.reverse ≤ maxVirtualCells := by
    rw [cellTotal_reverse]
    omega
  unfold applyRisReset
  simp only [hpop, Option.bind_eq_bind, Option.bind_some]
  by_cases hempty : kept.reverse.isEmpty = true
  · have hnil : kept.reverse = [] := by simpa using hempty
    rw [hnil] at hstored
    simp only [hempty, if_true]
    refine ⟨_, rfl, Bounded.withoutPending rfl rfl hstored (Nat.zero_le _) ?_
      (Nat.le_refl _) Nat.zero_lt_one ?_⟩
    · change 1 ≤ maxVirtualRows
      decide
    · change 0 < maxVirtualRows
      decide
  · simp only [hempty, Bool.false_eq_true, if_false]
    by_cases hlt : kept.reverse.length < maxVirtualRows
    · have hpush : (kept.reverse ++ [[]]).length = kept.reverse.length + 1 := List.length_append
      have hsub : subOrPanic (kept.reverse ++ [[]]).length 1 = some kept.reverse.length := by
        rw [hpush]
        exact if_pos (Nat.le_add_left 1 _)
      have hcells' : cellTotal (kept.reverse ++ [[]]) = cellTotal kept.reverse := by
        rw [cellTotal_append]
        rfl
      simp only [hlt, if_true, hsub, Option.bind_some]
      refine ⟨_, rfl, Bounded.withoutPending rfl rfl (hstored.trans hcells'.symm)
        (hcells'.trans_le hle) (hpush.trans_le hlt) (Nat.le_refl _) ?_ hlt⟩
      rw [hpush]
      exact Nat.lt_succ_self _
    · -- Nothing has been taken away, so that the screen is where it was.
      have hsame : kept.reverse.length = s.lines.length := by
        rw [List.length_reverse] at hlt ⊢
        omega
      simp only [hlt, if_false]
      exact ⟨_, rfl, Bounded.withoutPending rfl rfl hstored hle (hsame.trans_le hrows) h.base_le_row
        (hbase.trans_eq hsame.symm) h.row_lt⟩

/-! ### Styles -/

theorem exists_getElem? (colors : List Color) {code base : ℕ} (h : base ≤ code)
    (h' : code < base + colors.length) :
    ∃ color, (do let index ← subOrPanic code base; colors[index]?) = some color := by
  have hlt : code - base < colors.length := by omega
  rw [subOrPanic, if_pos h, Option.bind_eq_bind, Option.bind_some]
  exact ⟨_, List.getElem?_eq_getElem hlt⟩

theorem exists_colorFromAnsi256 (value : ℕ) : ∃ color, colorFromAnsi256 value = some color := by
  unfold colorFromAnsi256
  by_cases h₁ : value ≤ 7
  · have hlt : value < basicColors.length := Nat.lt_succ_of_le h₁
    exact ⟨_, by rw [if_pos h₁, List.getElem?_eq_getElem hlt]; rfl⟩
  · rw [if_neg h₁]
    by_cases h₂ : value ≤ 15
    · have hlt : value - 8 < brightColors.length := by
        change value - 8 < 8
        omega
      rw [if_pos h₂, subOrPanic, if_pos (by omega), Option.bind_eq_bind, Option.bind_some,
        List.getElem?_eq_getElem hlt]
      exact ⟨_, rfl⟩
    · rw [if_neg h₂]
      by_cases h₃ : value ≤ 231
      · rw [if_pos h₃, subOrPanic, if_pos (by omega)]
        exact ⟨_, rfl⟩
      · rw [if_neg h₃]
        by_cases h₄ : value ≤ 255
        · rw [if_pos h₄, subOrPanic, if_pos (by omega)]
          exact ⟨_, rfl⟩
        · rw [if_neg h₄]
          exact ⟨_, rfl⟩

theorem exists_paletteColor (value : Option ℕ) : ∃ color, paletteColor value = some color := by
  cases value with
  | none => exact ⟨none, rfl⟩
  | some value => exact exists_colorFromAnsi256 value

/-- A choice of two that both return. -/
theorem exists_ite {α : Type} {p : Prop} [Decidable p] {x y : Option α}
    (hx : p → ∃ a, x = some a) (hy : ¬ p → ∃ a, y = some a) :
    ∃ a, (if p then x else y) = some a := by
  by_cases h : p
  · rw [if_pos h]
    exact hx h
  · rw [if_neg h]
    exact hy h

/-- A color of a table, at a code in the range of the table. -/
theorem exists_color {β : Type} {colors : List Color} {code base : ℕ} (hlength : colors.length = 8)
    (h : base ≤ code ∧ code ≤ base + 7) (f : Color → β) :
    ∃ next, (do
      let index ← subOrPanic code base
      let color ← colors[index]?
      return f color) = some next := by
  obtain ⟨color, hcolor⟩ := exists_getElem? colors h.1 (by omega)
  rw [subOrPanic, if_pos h.1, Option.bind_eq_bind, Option.bind_some] at hcolor ⊢
  exact ⟨f color, by rw [hcolor]; rfl⟩

theorem exists_applySgrCode (style : Style) (code : ℕ) (rest : List (Option ℕ)) :
    ∃ next, applySgrCode style code rest = some next := by
  unfold applySgrCode
  iterate 9 refine exists_ite (fun _ => ⟨_, rfl⟩) fun _ => ?_
  refine exists_ite (fun h => exists_color rfl h _) fun _ => ?_
  refine exists_ite (fun _ => ⟨_, rfl⟩) fun _ => ?_
  refine exists_ite (fun h => exists_color rfl h _) fun _ => ?_
  refine exists_ite (fun _ => ⟨_, rfl⟩) fun _ => ?_
  refine exists_ite (fun h => exists_color rfl h _) fun _ => ?_
  refine exists_ite (fun h => exists_color rfl h _) fun _ => ?_
  refine exists_ite (fun _ => ?_) fun _ => exists_ite (fun _ => ⟨_, rfl⟩) fun _ => ⟨_, rfl⟩
  obtain ⟨color, hcolor⟩ := exists_paletteColor rest[1]?.join
  exact ⟨_, by rw [hcolor]; rfl⟩

theorem exists_applySgrCodes (skip : ℕ) (style : Style) (codes : List (Option ℕ)) :
    ∃ style', applySgrCodes skip style codes = some style' := by
  induction codes generalizing skip style with
  | nil =>
      cases skip with
      | zero => exact ⟨style, rfl⟩
      | succ skip => exact ⟨style, rfl⟩
  | cons code codes ih =>
      cases skip with
      | succ skip => exact ih skip style
      | zero =>
          obtain ⟨⟨style', skip⟩, hnext⟩ := exists_applySgrCode style (code.getD 0) codes
          obtain ⟨style'', hrest⟩ := ih skip style'
          exact ⟨style'', by rw [applySgrCodes, hnext]; exact hrest⟩

theorem applySgr_total (h : Bounded s) (values : List (Option ℕ)) :
    ∃ t, s.applySgr values = some t ∧ Bounded t := by
  obtain ⟨style, hstyle⟩ :=
    exists_applySgrCodes 0 s.style (if values.isEmpty then [some 0] else values)
  refine ⟨{ s with style }, ?_, h.keep rfl rfl rfl rfl rfl⟩
  rw [applySgr, hstyle]
  rfl

/-! ### Sequences -/

theorem cursorUp_bounded (h : Bounded s) (count : ℕ) : Bounded (s.cursorUp count) := by
  have hrow := h.row_lt
  have hbase := h.base_le_row
  refine ensureLine_bounded (h.move rfl rfl rfl rfl (Nat.le_max_right _ _) ?_)
  exact Nat.max_lt.mpr ⟨by omega, by omega⟩

theorem cursorDown_bounded (h : Bounded s) (count : ℕ) (toStart : Bool) :
    Bounded (s.cursorDown count toStart) := by
  have hbase := h.base_le_row
  unfold cursorDown
  by_cases hroom : s.row + count < usizeLimit ∧ s.row + count < maxVirtualRows
  · simp only [hroom, and_self, if_true]
    refine Bounded.keep (ensureLine_bounded ?_) rfl rfl rfl rfl rfl
    exact h.move rfl rfl rfl rfl (Nat.le_add_right_of_le hbase) hroom.2
  · simp only [hroom, if_false]
    exact h.keep rfl rfl rfl rfl rfl

theorem cursorPosition_bounded (h : Bounded s) (values : List (Option ℕ)) :
    Bounded (s.cursorPosition values) := by
  unfold cursorPosition
  dsimp only
  by_cases hroom : s.screenBaseRow + (countOf values[0]?.join - 1) < usizeLimit ∧
      s.screenBaseRow + (countOf values[0]?.join - 1) < maxVirtualRows ∧
      countOf values[1]?.join - 1 < maxVirtualColumns
  · rw [if_pos hroom]
    refine Bounded.keep (ensureLine_bounded ?_) rfl rfl rfl rfl rfl
    exact h.move rfl rfl rfl rfl (Nat.le_add_right _ _) hroom.2.1
  · rw [if_neg hroom]
    exact h.keep rfl rfl rfl rfl rfl

theorem applyFinal_total (h : Bounded s) (final : Char) (values : List (Option ℕ)) :
    ∃ t, s.applyFinal final values = some t ∧ Bounded t := by
  unfold applyFinal
  dsimp only
  split
  · exact ⟨_, rfl, cursorUp_bounded h _⟩
  · exact ⟨_, rfl, cursorDown_bounded h _ _⟩
  · exact ⟨_, rfl, cursorDown_bounded h _ _⟩
  · refine ⟨_, rfl, ?_⟩
    by_cases hadd : s.column + countOf values[0]?.join < usizeLimit
    · rw [if_pos hadd]
      exact h.keep rfl rfl rfl rfl rfl
    · rw [if_neg hadd]
      exact h.keep rfl rfl rfl rfl rfl
  · exact ⟨_, rfl, h.keep rfl rfl rfl rfl rfl⟩
  · have hstart : Bounded { s with column := 0 } := h.keep rfl rfl rfl rfl rfl
    exact ⟨_, rfl, cursorUp_bounded hstart _⟩
  · exact ⟨_, rfl, h.keep rfl rfl rfl rfl rfl⟩
  · exact ⟨_, rfl, cursorPosition_bounded h _⟩
  · exact ⟨_, rfl, cursorPosition_bounded h _⟩
  · exact eraseDisplay_total h _
  · obtain ⟨t, ht, hbounded, -⟩ := eraseLine_total h (values[0]?.join.getD 0)
    exact ⟨t, ht, hbounded⟩
  · exact applySgr_total h _
  · exact ⟨s, rfl, h⟩

theorem applyCsi_total (h : Bounded s) (sequence : Text) :
    ∃ t, s.applyCsi sequence = some t ∧ Bounded t := by
  unfold applyCsi
  cases sequence.getLast? with
  | none => exact ⟨s, rfl, h⟩
  | some final =>
      dsimp only
      by_cases htoggle :
          togglesAlternateScreen final sequence.dropLast (csiValues sequence.dropLast) = true
      · rw [if_pos htoggle]
        exact ⟨_, rfl, h.keep rfl rfl rfl rfl rfl⟩
      · rw [if_neg htoggle]
        by_cases halternate : s.alternateScreenActive = true
        · rw [if_pos halternate]
          exact ⟨s, rfl, h⟩
        · rw [if_neg halternate]
          exact applyFinal_total h final _

/-! ### Characters -/

theorem consumeEscape_total (h : Bounded s) (character : Char) :
    ∃ t, s.consumeEscape character = some t ∧ Bounded t := by
  have hcleared : Bounded { s with escapeBuffer := [] } := h.keep rfl rfl rfl rfl rfl
  obtain ⟨reset, hreset, hbounded⟩ := applyRisReset_total hcleared
  unfold consumeEscape
  dsimp only
  by_cases h₁ : character = '['
  · exact ⟨_, if_pos h₁, h.keep rfl rfl rfl rfl rfl⟩
  · rw [if_neg h₁]
    by_cases h₂ : character = ']'
    · exact ⟨_, if_pos h₂, h.keep rfl rfl rfl rfl rfl⟩
    · rw [if_neg h₂]
      by_cases h₃ : character = 'c'
      · rw [if_pos h₃, hreset, Option.bind_eq_bind, Option.bind_some]
        exact ⟨_, rfl, hbounded.keep rfl rfl rfl rfl rfl⟩
      · rw [if_neg h₃]
        exact ⟨_, rfl, h.keep rfl rfl rfl rfl rfl⟩

theorem consumeCsi_total (h : Bounded s) (character : Char) :
    ∃ t, s.consumeCsi character = some t ∧ Bounded t := by
  unfold consumeCsi
  by_cases hlong : maxCsiBytes ≤ Vault.utf8Len s.escapeBuffer
  · exact ⟨_, if_pos hlong, h.keep rfl rfl rfl rfl rfl⟩
  · rw [if_neg hlong]
    dsimp only
    by_cases hfinal : isCsiFinal character = true
    · have hcleared : Bounded { s with escapeBuffer := [] } := h.keep rfl rfl rfl rfl rfl
      obtain ⟨t, ht, hbounded⟩ := applyCsi_total hcleared (s.escapeBuffer ++ [character])
      rw [if_pos hfinal, ht, Option.bind_eq_bind, Option.bind_some]
      exact ⟨_, rfl, hbounded.keep rfl rfl rfl rfl rfl⟩
    · rw [if_neg hfinal]
      exact ⟨_, rfl, h.keep rfl rfl rfl rfl rfl⟩

theorem lineFeed_total (h : Bounded s) : ∃ t, s.lineFeed = some t ∧ Bounded t := by
  have hrow := h.row_lt
  have hbase := h.base_le_row
  have hlimit : maxVirtualRows < usizeLimit := by decide
  have hadd : addOrPanic s.row 1 = some (s.row + 1) := if_pos (by omega)
  unfold lineFeed
  rw [hadd, Option.bind_eq_bind, Option.bind_some]
  by_cases hlt : s.row + 1 < maxVirtualRows
  · simp only [hlt, if_true]
    refine ⟨_, rfl, Bounded.keep (ensureLine_bounded ?_) rfl rfl rfl rfl rfl⟩
    exact h.move rfl rfl rfl rfl (Nat.le_succ_of_le hbase) hlt
  · simp only [hlt, if_false]
    exact ⟨_, rfl, h.keep rfl rfl rfl rfl rfl⟩

theorem consumeText_total (h : Bounded s) (character : Char) :
    ∃ t, s.consumeText character = some t ∧ Bounded t := by
  unfold consumeText
  by_cases h₁ : character = '\x08'
  · exact ⟨_, if_pos h₁, h.keep rfl rfl rfl rfl rfl⟩
  · rw [if_neg h₁]
    by_cases h₂ : character = '\r'
    · exact ⟨_, if_pos h₂, h.keep rfl rfl rfl rfl rfl⟩
    · rw [if_neg h₂]
      by_cases h₃ : character = '\n'
      · rw [if_pos h₃]
        exact lineFeed_total h
      · rw [if_neg h₃]
        by_cases h₄ : character = '\t'
        · have hsub : subOrPanic 8 (s.column % 8) = some (8 - s.column % 8) := if_pos (by omega)
          rw [if_pos h₄, hsub, Option.bind_eq_bind, Option.bind_some]
          exact writeSpaces_total h _
        · rw [if_neg h₄]
          by_cases hprintable : isTerminalPrintable character = true
          · rw [dif_pos hprintable]
            exact writeCharacter_total h character hprintable
          · rw [dif_neg hprintable]
            exact ⟨s, rfl, h⟩

theorem consumeNormal_total (h : Bounded s) (character : Char) :
    ∃ t, s.consumeNormal character = some t ∧ Bounded t := by
  unfold consumeNormal
  by_cases h₁ : character = '\x1b'
  · exact ⟨_, if_pos h₁, h.keep rfl rfl rfl rfl rfl⟩
  · rw [if_neg h₁]
    by_cases h₂ : character = '\u009b'
    · exact ⟨_, if_pos h₂, h.keep rfl rfl rfl rfl rfl⟩
    · rw [if_neg h₂]
      by_cases halternate : s.alternateScreenActive = true
      · exact ⟨s, if_pos halternate, h⟩
      · rw [if_neg halternate]
        exact consumeText_total h character

/-- **One character.**  Whatever the state of the parser, it is taken without a panic. -/
theorem consume_total (h : Bounded s) (character : Char) :
    ∃ t, s.consume character = some t ∧ Bounded t := by
  unfold consume
  cases s.state with
  | escape => exact consumeEscape_total h character
  | csi => exact consumeCsi_total h character
  | csiDiscard =>
      refine ⟨_, rfl, ?_⟩
      by_cases hfinal : isCsiFinal character = true
      · rw [if_pos hfinal]
        exact h.keep rfl rfl rfl rfl rfl
      · rw [if_neg hfinal]
        exact h
  | osc =>
      refine ⟨_, rfl, ?_⟩
      by_cases hbell : character = '\x07'
      · rw [if_pos hbell]
        exact h.keep rfl rfl rfl rfl rfl
      · rw [if_neg hbell]
        by_cases hescape : character = '\x1b'
        · rw [if_pos hescape]
          exact h.keep rfl rfl rfl rfl rfl
        · rw [if_neg hescape]
          exact h
  | oscEscape => exact ⟨_, rfl, h.keep rfl rfl rfl rfl rfl⟩
  | normal => exact consumeNormal_total h character

theorem consumeAll_total (h : Bounded s) (input : Text) :
    ∃ t, input.foldlM consume s = some t ∧ Bounded t := by
  induction input generalizing s with
  | nil => exact ⟨s, rfl, h⟩
  | cons character input ih =>
      obtain ⟨t, ht, hbounded⟩ := consume_total h character
      obtain ⟨u, hu, hbounded'⟩ := ih hbounded
      exact ⟨u, by rw [List.foldlM_cons, ht]; exact hu, hbounded'⟩

theorem finish_total (h : Bounded s) : ∃ t, s.finish = some t ∧ Bounded t :=
  commitPendingClearedScreen_total (s := { s with state := .normal, escapeBuffer := [] })
    (h.keep rfl rfl rfl rfl rfl)

theorem bounded_start : Bounded ({} : TerminalTextRenderer).ensureLine := by
  refine ⟨rfl, ?_, ?_, ?_, ?_, ?_, fun _ hnone => nomatch hnone⟩
  all_goals decide

end TerminalTextRenderer

/-- **The renderer is total and bounded**: it takes every input and is then within its bounds, and so
it is after every character of it. -/
theorem feed_total (input : Text) :
    ∃ s, ({} : TerminalTextRenderer).feed input = some s ∧ Bounded s :=
  TerminalTextRenderer.consumeAll_total TerminalTextRenderer.bounded_start input

end Netcatty.LogExport

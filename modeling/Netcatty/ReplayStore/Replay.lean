import Netcatty.Library.Boundary
import Netcatty.ReplayStore.Bundles

/-! # The replay of a connection log

A replay keeps the newest text of a terminal: what is appended to it goes to the end, and what no
longer fits goes from the front, a whole character at a time.  Whatever chunks the text comes in,
the replay holds the longest part at its end that fits (`terminalData_appended`). -/

namespace Netcatty.ReplayStore

open Boundary
open Vault (Text utf8Len)

/-- The cut of `newest_utf8_suffix`: the start moves on to the next boundary of a character. -/
def sliceNewest (maxBytes : ℕ) (value : Text) : Text :=
  if utf8Len value ≤ maxBytes then value
  else
    let start := nextBoundary Char.utf8Size value maxBytes (utf8Len value - maxBytes)
    sliceFrom Char.utf8Size value start

namespace SavedConnectionLogReplay

def append (replay : SavedConnectionLogReplay) (chunk : Text) : SavedConnectionLogReplay :=
  if chunk.isEmpty then replay
  else if maxConnectionLogReplayBytes ≤ utf8Len chunk then
    { replay with terminalData := newestUtf8Suffix maxConnectionLogReplayBytes chunk }
  else
    let terminalData := replay.terminalData ++ chunk
    if maxConnectionLogReplayBytes < utf8Len terminalData then
      { replay with terminalData := newestUtf8Suffix maxConnectionLogReplayBytes terminalData }
    else { replay with terminalData }

end SavedConnectionLogReplay

/-- The longest part at the end of a text that has at most so many bytes. -/
abbrev IsNewest (maxBytes : ℕ) (text kept : Text) : Prop :=
  IsLongestSuffix Char.utf8Size maxBytes text kept

/-! ### One cut -/

theorem newestUtf8Suffix_isNewest (maxBytes : ℕ) (text : Text) :
    IsNewest maxBytes text (newestUtf8Suffix maxBytes text) := by
  induction text with
  | nil => exact .refl (Nat.zero_le _)
  | cons c rest ih =>
      rw [newestUtf8Suffix]
      split_ifs with hfits
      · exact .refl hfits
      · refine ⟨ih.suffix.trans (List.suffix_cons c rest), ih.fits, fun other hother hle => ?_⟩
        rcases List.suffix_cons_iff.mp hother with rfl | hrest
        · exact absurd hle hfits
        · exact ih.longest other hrest hle

/-- The part that `newestUtf8Suffix` keeps begins where the search for a boundary ends. -/
theorem newestUtf8Suffix_eq_slice (maxBytes : ℕ) (text : Text) :
    newestUtf8Suffix maxBytes text = sliceNewest maxBytes text := by
  have hnewest := newestUtf8Suffix_isNewest maxBytes text
  unfold sliceNewest
  split_ifs with hfits
  · exact hnewest.unique (.refl hfits)
  · exact hnewest.unique
      (sliceFrom_nextBoundary (fun c => Char.utf8Size_pos c) (Nat.le_of_not_le hfits))

/-! ### Any number of chunks -/

variable {replay : SavedConnectionLogReplay} {text : Text}

/-- One chunk: the replay goes on to hold the newest part of the text so far. -/
theorem append_isNewest
    (h : IsNewest maxConnectionLogReplayBytes text replay.terminalData) (chunk : Text) :
    IsNewest maxConnectionLogReplayBytes (text ++ chunk) (replay.append chunk).terminalData := by
  unfold SavedConnectionLogReplay.append
  simp only
  split_ifs with hempty hfilled hover
  · rw [List.isEmpty_iff.mp hempty, List.append_nil]
    exact h
  · exact (newestUtf8Suffix_isNewest _ chunk).of_filled Char.utf8Size_pos hfilled text
  · exact h.append (newestUtf8Suffix_isNewest _ _)
  · exact h.append (.refl (Nat.le_of_not_lt hover))

theorem appended_isNewest
    (h : IsNewest maxConnectionLogReplayBytes text replay.terminalData) (chunks : List Text) :
    IsNewest maxConnectionLogReplayBytes (text ++ chunks.flatten)
      (chunks.foldl SavedConnectionLogReplay.append replay).terminalData := by
  induction chunks generalizing replay text with
  | nil =>
      rw [List.flatten_nil, List.append_nil]
      exact h
  | cons chunk chunks ih =>
      rw [List.flatten_cons, ← List.append_assoc, List.foldl_cons]
      exact ih (append_isNewest h chunk)

/-- **A replay does not depend on how its text is cut into chunks.**  It holds the longest part at
the end of the whole text that begins at a character and fits. -/
theorem terminalData_appended {logId initial : Text}
    (h : SavedConnectionLogReplay.new logId initial = some replay) (chunks : List Text) :
    IsNewest maxConnectionLogReplayBytes (initial ++ chunks.flatten)
      (chunks.foldl SavedConnectionLogReplay.append replay).terminalData := by
  refine appended_isNewest ?_ chunks
  unfold SavedConnectionLogReplay.new at h
  split_ifs at h
  rw [← Option.some.inj h]
  exact newestUtf8Suffix_isNewest _ _

/-- A replay that gets a text of two chunks. -/
theorem terminalData_appended_twoChunks :
    SavedConnectionLogReplay.new ['a'] ['日'] = some ⟨['a'], ['日']⟩ ∧
      IsNewest maxConnectionLogReplayBytes (['日'] ++ [['b'], ['日', 'c']].flatten)
        (([['b'], ['日', 'c']] : List Text).foldl SavedConnectionLogReplay.append
          ⟨['a'], ['日']⟩).terminalData := by
  have hnew : SavedConnectionLogReplay.new ['a'] ['日'] = some ⟨['a'], ['日']⟩ := rfl
  exact ⟨hnew, terminalData_appended hnew _⟩

end Netcatty.ReplayStore

import Mathlib.Data.List.Basic
import Mathlib.Tactic.Common

/-! # Words and lines

`wordsBy p` are the parts of a list between the elements that satisfy `p`, without empty ones: a word
and a gap after it can be taken off (`wordsBy_word_gap`), and blanks around a list are of no account.

`endLines` writes lines, each with a separator after it.  Where no line holds the separator they are
read back (`splitOn_endLines`), and `splitAtPart` finds the first line that is equal to a given one
(`splitAtPart_line`). -/

namespace Netcatty.Words

variable {α : Type} {p : α → Bool}

/-! ### Words -/

def wordsBy (p : α → Bool) (l : List α) : List (List α) := (l.splitOnP p).filter (!·.isEmpty)

theorem wordsBy_append_sep (l more : List α) {sep : α} (hsep : p sep = true) :
    wordsBy p (l ++ sep :: more) = wordsBy p l ++ wordsBy p more := by
  rw [wordsBy, List.splitOnP_append_cons _ _ hsep, List.filter_append]
  rfl

@[simp] theorem wordsBy_nil : wordsBy p [] = [] := rfl

theorem wordsBy_sep_cons (l : List α) {sep : α} (hsep : p sep = true) :
    wordsBy p (sep :: l) = wordsBy p l := by
  have h := wordsBy_append_sep [] l hsep
  rwa [wordsBy_nil, List.nil_append] at h

theorem wordsBy_gap_append {gap : List α} (hgap : ∀ a ∈ gap, p a = true) (l : List α) :
    wordsBy p (gap ++ l) = wordsBy p l := by
  induction gap with
  | nil => rfl
  | cons a gap ih =>
      rw [List.cons_append, wordsBy_sep_cons _ (hgap a List.mem_cons_self)]
      exact ih fun b hb => hgap b (List.mem_cons_of_mem _ hb)

theorem wordsBy_append_gap (l : List α) {gap : List α} (hgap : ∀ a ∈ gap, p a = true) :
    wordsBy p (l ++ gap) = wordsBy p l := by
  cases gap with
  | nil => rw [List.append_nil]
  | cons a gap =>
      have hrest : wordsBy p gap = [] := by
        have h := wordsBy_gap_append (fun b hb => hgap b (List.mem_cons_of_mem _ hb)) ([] : List α)
        rwa [List.append_nil, wordsBy_nil] at h
      rw [wordsBy_append_sep _ _ (hgap a List.mem_cons_self), hrest, List.append_nil]

theorem wordsBy_word {word : List α} (hne : word ≠ []) (hword : ∀ a ∈ word, p a = false) :
    wordsBy p word = [word] := by
  rw [wordsBy, List.splitOnP_eq_singleton hword]
  simp [hne]

/-- A word with a gap after it is the first one. -/
theorem wordsBy_word_gap {word gap : List α} (hne : word ≠ []) (hword : ∀ a ∈ word, p a = false)
    (hgap : gap ≠ []) (hgap' : ∀ a ∈ gap, p a = true) (l : List α) :
    wordsBy p (word ++ gap ++ l) = word :: wordsBy p l := by
  cases gap with
  | nil => exact absurd rfl hgap
  | cons a gap =>
      rw [List.append_assoc, List.cons_append, wordsBy_append_sep _ _ (hgap' a List.mem_cons_self),
        wordsBy_word hne hword,
        wordsBy_gap_append fun b hb => hgap' b (List.mem_cons_of_mem _ hb)]
      rfl

/-- Where something is no separator there is a word. -/
theorem exists_word {l : List α} (h : ∃ a ∈ l, p a = false) :
    ∃ word rest, wordsBy p l = word :: rest ∧ word ≠ [] := by
  induction l with
  | nil =>
      obtain ⟨a, ha, -⟩ := h
      nomatch ha
  | cons a l ih =>
      cases ha : p a with
      | true =>
          obtain ⟨b, hb, hfalse⟩ := h
          rw [wordsBy_sep_cons _ ha]
          obtain rfl | hmem := List.mem_cons.mp hb
          · rw [ha] at hfalse
            nomatch hfalse
          · exact ih ⟨b, hmem, hfalse⟩
      | false =>
          cases hparts : l.splitOnP p with
          | nil => exact absurd hparts (List.splitOnP_ne_nil _ _)
          | cons part parts =>
              refine ⟨a :: part, parts.filter (!·.isEmpty), ?_, List.cons_ne_nil _ _⟩
              rw [wordsBy, List.splitOnP_cons_eq_if_modifyHead, ha, hparts]
              rfl

/-! ### Lines -/

section Lines

variable {sep : α}

def endLines (sep : α) (lines : List (List α)) : List α := lines.flatMap (· ++ [sep])

theorem endLines_cons (line : List α) (lines : List (List α)) :
    endLines sep (line :: lines) = line ++ sep :: endLines sep lines := by
  rw [endLines, List.flatMap_cons, List.append_assoc]
  rfl

theorem endLines_append (lines more : List (List α)) :
    endLines sep (lines ++ more) = endLines sep lines ++ endLines sep more := List.flatMap_append

/-- A whole line is no beginning of other lines. -/
theorem line_prefix_iff {line other : List α} (hline : sep ∉ line) (hother : sep ∉ other)
    (l : List α) : line ++ [sep] <+: other ++ sep :: l ↔ line = other := by
  induction line generalizing other with
  | nil =>
      cases other with
      | nil => simp
      | cons b other =>
          rw [List.mem_cons, not_or] at hother
          simp only [List.nil_append, List.cons_append, List.cons_prefix_cons, reduceCtorEq,
            iff_false]
          exact fun h => hother.1 h.1
  | cons a line ih =>
      rw [List.mem_cons, not_or] at hline
      cases other with
      | nil =>
          simp only [List.nil_append, List.cons_append, List.cons_prefix_cons, reduceCtorEq,
            iff_false]
          exact fun h => hline.1 h.1.symm
      | cons b other =>
          rw [List.mem_cons, not_or] at hother
          rw [List.cons_append, List.cons_append, List.cons_prefix_cons, ih hline.2 hother.2,
            List.cons.injEq]

variable [DecidableEq α]

/-- Lines are read back, with nothing after the last one. -/
theorem splitOn_endLines {lines : List (List α)} (h : ∀ line ∈ lines, sep ∉ line) :
    (endLines sep lines).splitOn sep = lines ++ [[]] := by
  induction lines with
  | nil => rfl
  | cons line lines ih =>
      rw [endLines_cons, List.splitOn_append_cons_self_of_not_mem (h line List.mem_cons_self),
        ih fun other hother => h other (List.mem_cons_of_mem _ hother)]
      rfl

/-- What stands before and after the first occurrence of a part. -/
def splitAtPart (part : List α) : List α → Option (List α × List α)
  | [] => if part = [] then some ([], []) else none
  | a :: l =>
      if part.isPrefixOf (a :: l) then some ([], (a :: l).drop part.length)
      else (splitAtPart part l).map fun (before, after) => (a :: before, after)

theorem splitAtPart_append {part l : List α} (h : part ≠ []) :
    splitAtPart part (part ++ l) = some ([], l) := by
  cases part with
  | nil => exact absurd rfl h
  | cons a part =>
      have hbegins : (a :: part).isPrefixOf (a :: (part ++ l)) = true :=
        List.isPrefixOf_iff_prefix.mpr (List.prefix_append _ _)
      rw [List.cons_append, splitAtPart, if_pos hbegins, ← List.cons_append, List.drop_left]

/-- A part that begins with a separator is not in the middle of a line. -/
theorem splitAtPart_skip {line : List α} (hline : sep ∉ line) (part l : List α) :
    splitAtPart (sep :: part) (line ++ l) =
      (splitAtPart (sep :: part) l).map fun (before, after) => (line ++ before, after) := by
  induction line with
  | nil =>
      rw [List.nil_append]
      cases splitAtPart (sep :: part) l with
      | none => rfl
      | some parts => rfl
  | cons a line ih =>
      rw [List.mem_cons, not_or] at hline
      have hbegins : ¬ (sep :: part).isPrefixOf (a :: (line ++ l)) = true := by
        rw [List.isPrefixOf_iff_prefix, List.cons_prefix_cons]
        exact fun h => hline.1 h.1
      rw [List.cons_append, splitAtPart, if_neg hbegins, ih hline.2, Option.map_map]
      rfl

/-- **The first line that is equal to a given one** is found, with the separators around it. -/
theorem splitAtPart_line {marker : List α} (hmarker : sep ∉ marker) {first : List α}
    {lines : List (List α)} (hfirst : sep ∉ first)
    (hlines : ∀ line ∈ lines, sep ∉ line ∧ line ≠ marker) (l : List α) :
    splitAtPart (sep :: (marker ++ [sep])) (endLines sep (first :: lines) ++ marker ++ sep :: l) =
      some ([sep].intercalate (first :: lines), l) := by
  induction lines generalizing first with
  | nil =>
      have hfound : endLines sep [first] ++ marker ++ sep :: l =
          first ++ ((sep :: (marker ++ [sep])) ++ l) := by
        simp [endLines]
      rw [hfound, splitAtPart_skip hfirst, splitAtPart_append (List.cons_ne_nil _ _)]
      simp
  | cons line lines ih =>
      obtain ⟨hline, hne⟩ := hlines line List.mem_cons_self
      have hsplit : endLines sep (first :: line :: lines) ++ marker ++ sep :: l =
          first ++ (sep :: (endLines sep (line :: lines) ++ marker ++ sep :: l)) := by
        rw [endLines_cons]
        simp only [List.append_assoc, List.cons_append]
      have hbegins : ¬ (sep :: (marker ++ [sep])).isPrefixOf
          (sep :: (endLines sep (line :: lines) ++ marker ++ sep :: l)) = true := by
        have hrest : endLines sep (line :: lines) ++ marker ++ sep :: l =
            line ++ sep :: (endLines sep lines ++ marker ++ sep :: l) := by
          rw [endLines_cons]
          simp only [List.append_assoc, List.cons_append]
        rw [List.isPrefixOf_iff_prefix, List.cons_prefix_cons, hrest, line_prefix_iff hmarker hline]
        exact fun h => hne h.2.symm
      rw [hsplit, splitAtPart_skip hfirst, splitAtPart, if_neg hbegins,
        ih hline fun other hother => hlines other (List.mem_cons_of_mem _ hother),
        List.intercalate_cons_cons]
      simp

end Lines

end Netcatty.Words

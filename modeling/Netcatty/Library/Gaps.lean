import Mathlib.Algebra.Ring.Nat
import Netcatty.Library.Words

/-! # Gaps

A `Scanner` tells which blanks of a list are gaps: those that it meets in an open state, say outside
of quotes.  Two lists are `Relaid` if they differ by the blanks in their gaps alone.  What ignores
blanks (`Relaid.wordsBy_eq`, `Relaid.filter_eq`, `Relaid.infix_iff`) cannot tell relaid lists apart.
What looks for one certain blank finds it most often where each gap is that blank
(`infix_respace`), and least often where each gap is another one (`infix_of_respace`). -/

namespace Netcatty.Gaps

open Words (wordsBy wordsBy_append_sep wordsBy_gap_append)

variable {α σ : Type}

/-- A blank in an open state leaves the state as it was. -/
structure Scanner (α σ : Type) where
  next : σ → α → σ
  isOpen : σ → Bool
  isBlank : α → Bool
  next_blank : ∀ q a, isOpen q = true → isBlank a = true → next q a = q

variable (S : Scanner α σ)

/-- Gaps may change, but neither vanish nor appear. -/
inductive Relaid : σ → List α → List α → Prop
  | nil (q : σ) : Relaid q [] []
  | keep {q : σ} (a : α) {s t : List α} (h : Relaid (S.next q a) s t) : Relaid q (a :: s) (a :: t)
  | gap {q : σ} {run run' s t : List α} (hopen : S.isOpen q = true)
      (hrun : run ≠ [] ∧ ∀ a ∈ run, S.isBlank a = true)
      (hrun' : run' ≠ [] ∧ ∀ a ∈ run', S.isBlank a = true) (h : Relaid q s t) :
      Relaid q (run ++ s) (run' ++ t)

variable {S}

theorem Relaid.refl (q : σ) (s : List α) : Relaid S q s s := by
  induction s generalizing q with
  | nil => exact .nil q
  | cons a s ih => exact .keep a (ih _)

/-- One gap is replaced. -/
theorem Relaid.replace {q : σ} {front run run' : List α}
    (hopen : S.isOpen (front.foldl S.next q) = true)
    (hrun : run ≠ [] ∧ ∀ a ∈ run, S.isBlank a = true)
    (hrun' : run' ≠ [] ∧ ∀ a ∈ run', S.isBlank a = true) (rest : List α) :
    Relaid S q (front ++ (run ++ rest)) (front ++ (run' ++ rest)) := by
  induction front generalizing q with
  | nil =>
      rw [List.nil_append, List.nil_append]
      exact .gap hopen hrun hrun' (.refl _ _)
  | cons a front ih => exact .keep a (ih hopen)

theorem Relaid.map {f : α → α} (hnext : ∀ q a, S.next q (f a) = S.next q a)
    (hblank : ∀ a, S.isBlank (f a) = S.isBlank a) {q : σ} {s t : List α} (h : Relaid S q s t) :
    Relaid S q (s.map f) (t.map f) := by
  have hmap : ∀ {run : List α}, run ≠ [] ∧ (∀ a ∈ run, S.isBlank a = true) →
      run.map f ≠ [] ∧ ∀ a ∈ run.map f, S.isBlank a = true := by
    intro run hrun
    refine ⟨fun h => hrun.1 (List.map_eq_nil_iff.mp h), fun b hb => ?_⟩
    obtain ⟨a, ha, rfl⟩ := List.mem_map.mp hb
    rw [hblank]
    exact hrun.2 a ha
  induction h with
  | nil q => exact .nil q
  | keep a h ih =>
      refine .keep (f a) ?_
      rw [hnext]
      exact ih
  | gap hopen hrun hrun' h ih =>
      rw [List.map_append, List.map_append]
      exact .gap hopen (hmap hrun) (hmap hrun') ih

/-! ### What ignores blanks -/

section Blind

variable {p : α → Bool} {q : σ} {s t : List α}

/-- Words that blanks separate. -/
theorem Relaid.wordsBy_eq (hp : ∀ a, S.isBlank a = true → p a = true) (h : Relaid S q s t) :
    wordsBy p s = wordsBy p t := by
  have hgap : ∀ {run : List α}, run ≠ [] ∧ (∀ a ∈ run, S.isBlank a = true) →
      ∀ front more, wordsBy p (front ++ (run ++ more)) = wordsBy p front ++ wordsBy p more := by
    intro run hrun front more
    obtain ⟨a, run, rfl⟩ := List.exists_cons_of_ne_nil hrun.1
    rw [List.cons_append, wordsBy_append_sep _ _ (hp a (hrun.2 a List.mem_cons_self)),
      wordsBy_gap_append fun b hb => hp b (hrun.2 b (List.mem_cons_of_mem _ hb))]
  suffices hfront : ∀ front, wordsBy p (front ++ s) = wordsBy p (front ++ t) from hfront []
  induction h with
  | nil q => exact fun front => rfl
  | keep a h ih =>
      intro front
      have hsnoc := ih (front ++ [a])
      rwa [List.append_assoc, List.append_assoc] at hsnoc
  | gap hopen hrun hrun' h ih =>
      intro front
      rw [hgap hrun, hgap hrun']
      exact congrArg (wordsBy p front ++ ·) (ih [])

/-- Parts that blanks do not separate. -/
theorem Relaid.splitOnP (hp : ∀ a, S.isBlank a = true → p a = false) (h : Relaid S q s t) :
    List.Forall₂ (fun s t => ∃ q, Relaid S q s t) (s.splitOnP p) (t.splitOnP p) ∧
      ∃ part parts part' parts', s.splitOnP p = part :: parts ∧ t.splitOnP p = part' :: parts' ∧
        Relaid S q part part' := by
  have hgap : ∀ {run : List α}, (∀ a ∈ run, S.isBlank a = true) → ∀ {l : List α} {part parts},
      l.splitOnP p = part :: parts → (run ++ l).splitOnP p = (run ++ part) :: parts := by
    intro run hrun l part parts hl
    induction run with
    | nil => exact hl
    | cons a run ih =>
        rw [List.cons_append, List.splitOnP_cons_eq_if_modifyHead,
          hp a (hrun a List.mem_cons_self), ih fun b hb => hrun b (List.mem_cons_of_mem _ hb)]
        rfl
  induction h with
  | nil q =>
      exact ⟨.cons ⟨q, .nil q⟩ .nil, [], [], [], [], rfl, rfl, .nil q⟩
  | @keep q a s t h ih =>
      obtain ⟨hall, part, parts, part', parts', hs, ht, hpart⟩ := ih
      rw [List.splitOnP_cons_eq_if_modifyHead, List.splitOnP_cons_eq_if_modifyHead]
      cases ha : p a with
      | true =>
          rw [if_pos rfl, if_pos rfl]
          exact ⟨.cons ⟨q, .nil q⟩ hall, [], _, [], _, rfl, rfl, .nil q⟩
      | false =>
          rw [hs, ht] at hall
          rw [if_neg Bool.false_ne_true, if_neg Bool.false_ne_true, hs, ht]
          cases hall with
          | cons _ htail =>
              exact ⟨.cons ⟨q, .keep a hpart⟩ htail, _, _, _, _, rfl, rfl, .keep a hpart⟩
  | @gap q run run' s t hopen hrun hrun' h ih =>
      obtain ⟨hall, part, parts, part', parts', hs, ht, hpart⟩ := ih
      rw [hs, ht] at hall
      rw [hgap hrun.2 hs, hgap hrun'.2 ht]
      have hparts := Relaid.gap hopen hrun hrun' hpart
      cases hall with
      | cons _ htail => exact ⟨.cons ⟨q, hparts⟩ htail, _, _, _, _, rfl, rfl, hparts⟩

theorem Relaid.filter_eq (hp : ∀ a, S.isBlank a = true → p a = false) (h : Relaid S q s t) :
    s.filter p = t.filter p := by
  have hgap : ∀ {run : List α}, (∀ a ∈ run, S.isBlank a = true) → run.filter p = [] := by
    intro run hrun
    rw [List.filter_eq_nil_iff]
    intro a ha
    rw [hp a (hrun a ha)]
    exact Bool.false_ne_true
  induction h with
  | nil q => rfl
  | keep a h ih => rw [List.filter_cons, List.filter_cons, ih]
  | gap hopen hrun hrun' h ih =>
      rw [List.filter_append, List.filter_append, hgap hrun.2, hgap hrun'.2, ih]

theorem Relaid.prefix_of {needle : List α} (hneedle : ∀ a ∈ needle, S.isBlank a = false)
    (h : Relaid S q s t) (hs : needle <+: s) : needle <+: t := by
  induction h generalizing needle with
  | nil q => exact hs
  | keep a h ih =>
      cases needle with
      | nil => exact List.nil_prefix
      | cons b needle =>
          obtain ⟨rfl, hrest⟩ := List.cons_prefix_cons.mp hs
          rw [List.cons_prefix_cons]
          exact ⟨rfl, ih (fun a ha => hneedle a (List.mem_cons_of_mem _ ha)) hrest⟩
  | gap hopen hrun hrun' h ih =>
      cases needle with
      | nil => exact List.nil_prefix
      | cons b needle =>
          obtain ⟨a, run, rfl⟩ := List.exists_cons_of_ne_nil hrun.1
          obtain ⟨rfl, -⟩ := List.cons_prefix_cons.mp hs
          have hblank := hrun.2 b List.mem_cons_self
          rw [hneedle b List.mem_cons_self] at hblank
          cases hblank

theorem infix_append_of_infix {needle s : List α} (run : List α) (h : needle <:+: s) :
    needle <:+: run ++ s := h.trans (List.suffix_append run s).isInfix

/-- What begins with no blank does not begin in a gap. -/
theorem infix_of_infix_gap {needle run s : List α} (hne : needle ≠ [])
    (hneedle : ∀ a ∈ needle, S.isBlank a = false) (hrun : ∀ a ∈ run, S.isBlank a = true)
    (h : needle <:+: run ++ s) : needle <:+: s := by
  induction run with
  | nil => exact h
  | cons a run ih =>
      rw [List.cons_append, List.infix_cons_iff] at h
      rcases h with h | h
      · obtain ⟨b, needle, rfl⟩ := List.exists_cons_of_ne_nil hne
        obtain ⟨rfl, -⟩ := List.cons_prefix_cons.mp h
        have hblank := hrun b List.mem_cons_self
        rw [hneedle b List.mem_cons_self] at hblank
        cases hblank
      · exact ih (fun b hb => hrun b (List.mem_cons_of_mem _ hb)) h

theorem Relaid.symm (h : Relaid S q s t) : Relaid S q t s := by
  induction h with
  | nil q => exact .nil q
  | keep a h ih => exact .keep a ih
  | gap hopen hrun hrun' h ih => exact .gap hopen hrun' hrun ih

theorem Relaid.infix_of {needle : List α} (hneedle : ∀ a ∈ needle, S.isBlank a = false)
    (h : Relaid S q s t) (hs : needle <:+: s) : needle <:+: t := by
  by_cases hne : needle = []
  · rw [hne]
    exact List.nil_infix
  induction h with
  | nil q => exact hs
  | keep a h ih =>
      rcases List.infix_cons_iff.mp hs with hs | hs
      · exact ((Relaid.keep a h).prefix_of hneedle hs).isInfix
      · exact List.infix_cons (ih hs)
  | gap hopen hrun hrun' h ih =>
      exact infix_append_of_infix _ (ih (infix_of_infix_gap hne hneedle hrun.2 hs))

theorem Relaid.infix_iff {needle : List α} (hneedle : ∀ a ∈ needle, S.isBlank a = false)
    (h : Relaid S q s t) : needle <:+: s ↔ needle <:+: t :=
  ⟨h.infix_of hneedle, h.symm.infix_of hneedle⟩

end Blind

/-! ### Every gap the same -/

variable (S) in
/-- Every gap becomes one `blank`.  The flag tells that one was written for the gap already. -/
def respace (blank : α) : σ → Bool → List α → List α
  | _, _, [] => []
  | q, inGap, a :: s =>
    if S.isOpen q && S.isBlank a then
      if inGap then respace blank q true s else blank :: respace blank q true s
    else a :: respace blank (S.next q a) false s

section Respace

variable {blank : α} {q : σ} {a : α} {s t : List α}

theorem respace_gap (h : S.isOpen q = true ∧ S.isBlank a = true) (s : List α) :
    respace S blank q false (a :: s) = blank :: respace S blank q true s ∧
      respace S blank q true (a :: s) = respace S blank q true s := by
  constructor <;> (rw [respace, h.1, h.2]; rfl)

theorem respace_keep (h : ¬(S.isOpen q = true ∧ S.isBlank a = true)) (inGap : Bool)
    (s : List α) :
    respace S blank q inGap (a :: s) = a :: respace S blank (S.next q a) false s := by
  rw [respace, if_neg]
  rwa [Bool.and_eq_true]

theorem respace_map {f : α → α} (hnext : ∀ q a, S.next q (f a) = S.next q a)
    (hblank : ∀ a, S.isBlank (f a) = S.isBlank a) (hf : f blank = blank) (q : σ) (inGap : Bool)
    (s : List α) :
    (respace S blank q inGap s).map f = respace S blank q inGap (s.map f) := by
  induction s generalizing q inGap with
  | nil => rfl
  | cons a s ih =>
      rw [List.map_cons]
      by_cases h : S.isOpen q = true ∧ S.isBlank a = true
      · have h' : S.isOpen q = true ∧ S.isBlank (f a) = true := by rwa [hblank]
        cases inGap with
        | true => rw [(respace_gap h s).2, (respace_gap h' _).2, ih]
        | false => rw [(respace_gap h s).1, (respace_gap h' _).1, List.map_cons, hf, ih]
      · have h' : ¬(S.isOpen q = true ∧ S.isBlank (f a) = true) := by rwa [hblank]
        rw [respace_keep h, respace_keep h', List.map_cons, hnext, ih]

/-- Relaid lists become the same. -/
theorem Relaid.respace_eq (h : Relaid S q s t) (inGap : Bool) :
    respace S blank q inGap s = respace S blank q inGap t := by
  have hgap : ∀ {q : σ} {run : List α}, S.isOpen q = true →
      run ≠ [] ∧ (∀ a ∈ run, S.isBlank a = true) → ∀ (inGap : Bool) (l : List α),
      respace S blank q inGap (run ++ l) =
        if inGap then respace S blank q true l else blank :: respace S blank q true l := by
    intro q run hopen hrun inGap l
    obtain ⟨a, run, rfl⟩ := List.exists_cons_of_ne_nil hrun.1
    have hinside : respace S blank q true (run ++ l) = respace S blank q true l := by
      have hblank := fun b hb => hrun.2 b (List.mem_cons_of_mem a hb)
      clear hrun
      induction run with
      | nil => rfl
      | cons b run ih =>
          rw [List.cons_append, (respace_gap ⟨hopen, hblank b List.mem_cons_self⟩ _).2]
          exact ih fun c hc => hblank c (List.mem_cons_of_mem _ hc)
    have ha := @respace_gap _ _ S blank q a ⟨hopen, hrun.2 a List.mem_cons_self⟩ (run ++ l)
    cases inGap with
    | true => exact ha.2.trans hinside
    | false => exact ha.1.trans (congrArg (blank :: ·) hinside)
  induction h generalizing inGap with
  | nil q => rfl
  | @keep q a s t h ih =>
      by_cases hopen : S.isOpen q = true ∧ S.isBlank a = true
      · have hnext := S.next_blank q a hopen.1 hopen.2
        rw [hnext] at ih
        cases inGap with
        | true => rw [(respace_gap hopen s).2, (respace_gap hopen t).2, ih]
        | false => rw [(respace_gap hopen s).1, (respace_gap hopen t).1, ih]
      · rw [respace_keep hopen, respace_keep hopen, ih]
  | gap hopen hrun hrun' h ih => rw [hgap hopen hrun, hgap hopen hrun', ih]

/-- A list is relaid by making every gap the same, also one that is under way. -/
theorem relaid_respace_gap (hblank : S.isBlank blank = true) (q : σ) (s : List α) :
    Relaid S q s (respace S blank q false s) ∧
      (S.isOpen q = true → ∀ run, run ≠ [] ∧ (∀ a ∈ run, S.isBlank a = true) →
        Relaid S q (run ++ s) (blank :: respace S blank q true s)) := by
  have hone : ∀ {b : α}, S.isBlank b = true → [b] ≠ [] ∧ ∀ a ∈ [b], S.isBlank a = true :=
    fun hb => ⟨List.cons_ne_nil _ _, fun a ha => by rwa [List.mem_singleton.mp ha]⟩
  induction s generalizing q with
  | nil => exact ⟨.nil q, fun hopen run hrun => .gap hopen hrun (hone hblank) (.nil q)⟩
  | cons b s ih =>
      by_cases h : S.isOpen q = true ∧ S.isBlank b = true
      · obtain ⟨hfirst, hlater⟩ := @respace_gap _ _ S blank q b h s
        rw [hfirst, hlater]
        refine ⟨(ih q).2 h.1 [b] (hone h.2), fun hopen run hrun => ?_⟩
        have hmore := (ih q).2 hopen (run ++ [b])
          ⟨List.append_ne_nil_of_left_ne_nil hrun.1 _, fun a ha => ?_⟩
        · rwa [List.append_assoc] at hmore
        · rcases List.mem_append.mp ha with ha | ha
          · exact hrun.2 a ha
          · exact (hone h.2).2 a ha
      · rw [respace_keep h, respace_keep h]
        have hkeep := Relaid.keep b (ih (S.next q b)).1
        exact ⟨hkeep, fun hopen run hrun => .gap hopen hrun (hone hblank) hkeep⟩

/-- A list is relaid by making every gap the same. -/
theorem relaid_respace (hblank : S.isBlank blank = true) (q : σ) (s : List α) :
    Relaid S q s (respace S blank q false s) := (relaid_respace_gap hblank q s).1

theorem mem_respace {inGap : Bool} {b : α} (h : b ∈ respace S blank q inGap s) :
    b ∈ s ∨ b = blank := by
  induction s generalizing q inGap with
  | nil => exact .inl h
  | cons a s ih =>
      by_cases hgap : S.isOpen q = true ∧ S.isBlank a = true
      · cases inGap with
        | true =>
            rw [(respace_gap hgap s).2] at h
            exact (ih h).imp_left (List.mem_cons_of_mem _)
        | false =>
            rw [(respace_gap hgap s).1] at h
            rcases List.mem_cons.mp h with rfl | h
            · exact .inr rfl
            · exact (ih h).imp_left (List.mem_cons_of_mem _)
      · rw [respace_keep hgap] at h
        rcases List.mem_cons.mp h with rfl | h
        · exact .inl List.mem_cons_self
        · exact (ih h).imp_left (List.mem_cons_of_mem _)

/-- A light blank makes no list heavier. -/
theorem sum_respace_le {w : α → ℕ} (hw : ∀ a, w blank ≤ w a) (q : σ) (inGap : Bool)
    (s : List α) : ((respace S blank q inGap s).map w).sum ≤ (s.map w).sum := by
  induction s generalizing q inGap with
  | nil => exact Nat.le_refl _
  | cons a s ih =>
      rw [List.map_cons, List.sum_cons]
      by_cases hgap : S.isOpen q = true ∧ S.isBlank a = true
      · have hrest := ih q true
        have ha := hw a
        cases inGap with
        | true =>
            rw [(respace_gap hgap s).2]
            omega
        | false =>
            rw [(respace_gap hgap s).1, List.map_cons, List.sum_cons]
            omega
      · rw [respace_keep hgap, List.map_cons, List.sum_cons]
        have hrest := ih (S.next q a) false
        omega

variable (S) in
/-- No two blanks in a row, and none but `blank`. -/
structure Spaced (blank : α) (needle : List α) : Prop where
  only : ∀ a ∈ needle, S.isBlank a = true → a = blank
  apart : needle.IsChain fun a b => ¬(S.isBlank a = true ∧ S.isBlank b = true)

theorem Spaced.tail {needle : List α} (h : Spaced S blank (a :: needle)) : Spaced S blank needle :=
  ⟨fun b hb => h.only b (List.mem_cons_of_mem _ hb), h.apart.of_cons⟩

theorem Spaced.prefix_respace {needle : List α} (hneedle : Spaced S blank needle)
    (h : needle <+: s) (q : σ) : needle <+: respace S blank q false s := by
  induction s generalizing needle q with
  | nil => exact h
  | cons a s ih =>
      cases needle with
      | nil => exact List.nil_prefix
      | cons b needle =>
          obtain ⟨rfl, hrest⟩ := List.cons_prefix_cons.mp h
          by_cases hgap : S.isOpen q = true ∧ S.isBlank b = true
          · rw [(respace_gap hgap s).1, hneedle.only b List.mem_cons_self hgap.2,
              List.cons_prefix_cons]
            refine ⟨rfl, ?_⟩
            cases needle with
            | nil => exact List.nil_prefix
            | cons c needle =>
                -- The gap ends here, so that nothing of it is left out.
                have hc : ¬(S.isOpen q = true ∧ S.isBlank c = true) := fun hc =>
                  List.isChain_cons_cons.mp hneedle.apart |>.1 ⟨hgap.2, hc.2⟩
                obtain ⟨rest, rfl⟩ := hrest
                have hsame : respace S blank q true (c :: needle ++ rest) =
                    respace S blank q false (c :: needle ++ rest) := by
                  rw [List.cons_append, respace_keep hc, respace_keep hc]
                rw [hsame]
                exact ih hneedle.tail (List.prefix_append _ _) q
          · rw [respace_keep hgap, List.cons_prefix_cons]
            exact ⟨rfl, ih hneedle.tail hrest _⟩

/-- Where each gap is the blank that is looked for, it is found. -/
theorem Spaced.infix_respace_gap {needle : List α} (hneedle : Spaced S blank needle)
    (h : needle <:+: s) (q : σ) :
    needle <:+: respace S blank q false s ∧
      (S.isOpen q = true → needle <:+: blank :: respace S blank q true s) := by
  induction s generalizing q with
  | nil =>
      rw [List.infix_nil.mp h]
      exact ⟨List.nil_infix, fun _ => List.nil_infix⟩
  | cons a s ih =>
      have hkept : ∀ hgap : ¬(S.isOpen q = true ∧ S.isBlank a = true),
          needle <:+: a :: respace S blank (S.next q a) false s := by
        intro hgap
        rcases List.infix_cons_iff.mp h with h | h
        · have hfound := hneedle.prefix_respace h q
          rw [respace_keep hgap] at hfound
          exact hfound.isInfix
        · exact List.infix_cons (ih h _).1
      by_cases hgap : S.isOpen q = true ∧ S.isBlank a = true
      · rw [(respace_gap hgap s).1, (respace_gap hgap s).2]
        suffices hfound : needle <:+: blank :: respace S blank q true s from
          ⟨hfound, fun _ => hfound⟩
        rcases List.infix_cons_iff.mp h with h | h
        · have hfound := hneedle.prefix_respace h q
          rw [(respace_gap hgap s).1] at hfound
          exact hfound.isInfix
        · exact (ih h q).2 hgap.1
      · rw [respace_keep hgap, respace_keep hgap]
        exact ⟨hkept hgap, fun _ => List.infix_cons (hkept hgap)⟩

theorem Spaced.infix_respace {needle : List α} (hneedle : Spaced S blank needle)
    (h : needle <:+: s) (q : σ) : needle <:+: respace S blank q false s :=
  (hneedle.infix_respace_gap h q).1

theorem prefix_of_respace {needle : List α} (hneedle : blank ∉ needle) {q : σ}
    (h : needle <+: respace S blank q false s) : needle <+: s := by
  induction s generalizing needle q with
  | nil => exact h
  | cons a s ih =>
      cases needle with
      | nil => exact List.nil_prefix
      | cons b needle =>
          rw [List.mem_cons, not_or] at hneedle
          by_cases hgap : S.isOpen q = true ∧ S.isBlank a = true
          · rw [(respace_gap hgap s).1, List.cons_prefix_cons] at h
            exact absurd h.1.symm hneedle.1
          · rw [respace_keep hgap, List.cons_prefix_cons] at h
            rw [List.cons_prefix_cons]
            exact ⟨h.1, ih hneedle.2 h.2⟩

/-- What is found where each gap is a blank that is not looked for, is there. -/
theorem infix_of_respace {needle : List α} (hneedle : blank ∉ needle) {q : σ} {inGap : Bool}
    (h : needle <:+: respace S blank q inGap s) : needle <:+: s := by
  induction s generalizing q inGap with
  | nil => exact h
  | cons a s ih =>
      by_cases hgap : S.isOpen q = true ∧ S.isBlank a = true
      · cases inGap with
        | true =>
            rw [(respace_gap hgap s).2] at h
            exact List.infix_cons (ih h)
        | false =>
            rw [(respace_gap hgap s).1] at h
            rcases List.infix_cons_iff.mp h with h | h
            · cases needle with
              | nil => exact List.nil_infix
              | cons b needle =>
                  rw [List.mem_cons, not_or] at hneedle
                  exact absurd (List.cons_prefix_cons.mp h).1.symm hneedle.1
            · exact List.infix_cons (ih h)
      · rw [respace_keep hgap] at h
        rcases List.infix_cons_iff.mp h with h | h
        · rw [← respace_keep hgap false] at h
          exact (prefix_of_respace hneedle h).isInfix
        · exact List.infix_cons (ih h)

end Respace

end Netcatty.Gaps

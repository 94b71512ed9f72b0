import Netcatty.Library.PosixShell

/-! # A quoted text inserted in a command

A text is put in single quotes, its own quotes written as `'\''`, and inserted in a command wherever
the command has got to.  The characters of the text stand for themselves exactly when the text fits
there (`inserted_spec`): everything fits where the first quote opens; between double quotes
nothing may fit that double quotes do not quote, and where the first quote is itself quoted or
closes, only ordinary characters do.  In backquotes the text must also get through the removal of
backslashes.  What follows a text that fits is read as it would be after any other that fits
(`run_inserted`).

The characters carry marks: `m` is that of the text itself, and `q` that of the quotes around it. -/

namespace Netcatty.PosixShell

/-! ### What fits -/

/-- No backslash stands before a character that it would escape. -/
def escapesNone (p : Char → Bool) : List Char → Bool
  | [] => true
  | c :: rest => !(c = '\\' && rest.head?.any p) && escapesNone p rest

/-- What is itself between double quotes, but for backslashes in front of some characters. -/
def isKept (frames : List Frame) (c : Char) : Bool :=
  c ≠ '$' && c ≠ '`' && c ≠ '"' && !(c = '\x7d' && isBrace frames)

def quotedFits (frames : List Frame) (value : List Char) : Bool :=
  value.all (isKept frames) && escapesNone (isEscapable frames) value

/-- What gets through the removal of backslashes. -/
def backquotedFits (value : List Char) : Bool :=
  !value.contains '`' && escapesNone isBackquoteEscapable value

/-- What fits after the first quote. -/
def openedFits : Shell → List Char → Bool
  | .direct _ .single, _ => true
  | .direct frames _, value =>
      if isQuoted frames then quotedFits frames value else value.all (isOrdinary frames)
  | _, _ => false

/-- What fits where a reader has got to. -/
def Shell.fits : Shell → List Char → Bool
  | .direct frames pending, value => openedFits (directNext frames pending '\'') value
  | .backquoted _ inner, value => backquotedFits value && inner.fits value
  | .escaped _ _ after, value => backquotedFits value && after.fits value

/-! ### Marks -/

variable {μ : Type}

/-- A character between the quotes. -/
def insertedChar (q m : μ) (c : Char) : List (Char × μ) :=
  if c = '\'' then [('\'', q), ('\\', q), (c, m), ('\'', q)] else [(c, m)]

/-- The text without the first quote. -/
def insertedTail (q m : μ) (value : List Char) : List (Char × μ) :=
  value.flatMap (insertedChar q m) ++ [('\'', q)]

def inserted (q m : μ) (value : List Char) : List (Char × μ) :=
  ('\'', q) :: insertedTail q m value

/-- The characters with a mark are read as themselves. -/
def DataIn (m : μ) (s : Shell) (l : List (Char × μ)) (after : List Char) : Prop :=
  ∀ e ∈ readings Prod.fst s l after, e.1.2 = m → e.2.2 = .data

section DataIn

variable {m q : μ} {s : Shell} {after : List Char}

theorem dataIn_nil : DataIn m s [] after := fun _ h => absurd h List.not_mem_nil

theorem dataIn_cons {e : Char × μ} {l : List (Char × μ)} :
    DataIn m s (e :: l) after ↔
      (e.2 = m → s.role e.1 (l.map Prod.fst ++ after) = .data) ∧ DataIn m (s.next e.1) l after := by
  simp [DataIn, readings]

theorem dataIn_quoting (hq : q ≠ m) {c : Char} {l : List (Char × μ)} :
    DataIn m s ((c, q) :: l) after ↔ DataIn m (s.next c) l after := by
  rw [dataIn_cons]
  exact and_iff_right fun h => absurd h hq

theorem dataIn_own {c : Char} {l : List (Char × μ)} :
    DataIn m s ((c, m) :: l) after ↔
      s.role c (l.map Prod.fst ++ after) = .data ∧ DataIn m (s.next c) l after := by
  rw [dataIn_cons]
  exact and_congr_left' (forall_prop_of_true rfl)

theorem dataIn_append {l more : List (Char × μ)} :
    DataIn m s (l ++ more) after ↔
      DataIn m s l (more.map Prod.fst ++ after) ∧ DataIn m (s.run (l.map Prod.fst)) more after := by
  simp only [DataIn, readings_append, List.mem_append]
  constructor
  · intro h
    exact ⟨fun e he => h e (.inl he), fun e he => h e (.inr he)⟩
  · rintro ⟨hl, hmore⟩ e (he | he)
    · exact hl e he
    · exact hmore e he

end DataIn

section Tails

variable {q m : μ}

@[simp] theorem insertedTail_nil : insertedTail q m [] = [('\'', q)] := rfl

theorem insertedTail_quote (value : List Char) :
    insertedTail q m ('\'' :: value) =
      ('\'', q) :: ('\\', q) :: ('\'', m) :: ('\'', q) :: insertedTail q m value := rfl

theorem insertedTail_cons {c : Char} (h : c ≠ '\'') (value : List Char) :
    insertedTail q m (c :: value) = (c, m) :: insertedTail q m value := by
  rw [insertedTail, List.flatMap_cons, insertedChar, if_neg h]
  rfl

/-- What comes next is the next character of the text, or a quote. -/
theorem head?_insertedTail (value after : List Char) (p : Char → Bool) (hp : p '\'' = false) :
    ((insertedTail q m value).map Prod.fst ++ after).head?.any p = value.head?.any p := by
  cases value with
  | nil => exact hp
  | cons c value =>
      by_cases hc : c = '\''
      · subst hc
        rw [insertedTail_quote]
        rfl
      · rw [insertedTail_cons hc]
        rfl

theorem escapesNone_cons {p : Char → Bool} {c : Char} (h : c ≠ '\\') (value : List Char) :
    escapesNone p (c :: value) = escapesNone p value := by
  rw [escapesNone, decide_eq_false h]
  rfl

end Tails

/-! ### Where the first quote opens -/

section Direct

variable {q m : μ} {frames : List Frame}

theorem dataIn_single (hq : q ≠ m) (hframes : isQuoted frames = false)
    (value after : List Char) :
    DataIn m (inQuotes frames) (insertedTail q m value) after ∧
      (inQuotes frames).run ((insertedTail q m value).map Prod.fst) = .direct frames .ready := by
  induction value with
  | nil =>
      refine ⟨?_, rfl⟩
      rw [insertedTail_nil, dataIn_quoting hq]
      exact dataIn_nil
  | cons c value ih =>
      by_cases hc : c = '\''
      · subst hc
        have hescape : (Shell.direct frames .ready).next '\\' = .direct frames .escape := by
          show readyNext frames '\\' = _
          rw [readyNext, hframes]
          rfl
        have hopen : (Shell.direct frames .ready).next '\'' = inQuotes frames := by
          show readyNext frames '\'' = _
          rw [readyNext, hframes]
          rfl
        have hready : (Shell.direct frames .escape).next '\'' = .direct frames .ready := rfl
        rw [insertedTail_quote, dataIn_quoting hq, inQuotes_next_quote, dataIn_quoting hq, hescape,
          dataIn_own, hready, dataIn_quoting hq, hopen]
        refine ⟨⟨rfl, ih.1⟩, ?_⟩
        rw [List.map_cons, List.map_cons, List.map_cons, List.map_cons, run_cons, run_cons,
          run_cons, run_cons, inQuotes_next_quote, hescape, hready, hopen]
        exact ih.2
      · rw [insertedTail_cons hc, dataIn_own, inQuotes_next hc, List.map_cons, run_cons,
          inQuotes_next hc]
        exact ⟨⟨inQuotes_role hc _ _, ih.1⟩, ih.2⟩

/-! ### Where it does not -/

/-- Without quotes only ordinary characters are themselves. -/
theorem dataIn_unquoted (hq : q ≠ m) (hframes : isQuoted frames = false)
    (value after : List Char) :
    (DataIn m (.direct frames .ready) (insertedTail q m value) after ↔
      value.all (isOrdinary frames) = true) ∧
    (value.all (isOrdinary frames) = true →
      (Shell.direct frames .ready).run ((insertedTail q m value).map Prod.fst) =
        inQuotes frames) := by
  have hnext : ∀ c, (Shell.direct frames .ready).next c = unquotedNext frames c := by
    intro c
    show readyNext frames c = _
    rw [readyNext, hframes]
    rfl
  have hrole : ∀ c rest, (Shell.direct frames .ready).role c rest = unquotedRole frames c := by
    intro c rest
    show readyRole frames c rest = _
    rw [readyRole, hframes]
    rfl
  have hopen : (Shell.direct frames .ready).next '\'' = inQuotes frames := hnext '\''
  induction value with
  | nil =>
      refine ⟨?_, fun _ => hopen⟩
      rw [insertedTail_nil, dataIn_quoting hq]
      exact iff_of_true dataIn_nil rfl
  | cons c value ih =>
      rw [List.all_cons, Bool.and_eq_true]
      by_cases hc : c = '\''
      · subst hc
        have hrefused : isOrdinary frames '\'' = false := rfl
        have hquote : ∀ rest, (inQuotes frames).role '\'' rest = .quote := fun _ => rfl
        rw [insertedTail_quote, dataIn_quoting hq, hopen, dataIn_quoting hq,
          inQuotes_next (by decide), dataIn_own, hquote, hrefused]
        simp
      · rw [insertedTail_cons hc, dataIn_own, hrole, unquotedRole_eq_data_iff]
        cases hordinary : isOrdinary frames c with
        | false => simp
        | true =>
            have hstay : (Shell.direct frames .ready).next c = .direct frames .ready :=
              (hnext c).trans (unquotedNext_of_isOrdinary hordinary)
            rw [hstay, List.map_cons, run_cons, hstay, ih.1]
            simpa using ih.2

/-- A reader between double quotes, perhaps after a backslash. -/
def betweenQuotes (frames : List Frame) (escape : Bool) : Shell :=
  .direct frames (if escape then .escape else .ready)

theorem isKept_iff {c : Char} : isKept frames c = true ↔
    c ≠ '$' ∧ c ≠ '`' ∧ c ≠ '"' ∧ (c = '\x7d' && isBrace frames) = false := by
  simp only [isKept, Bool.and_eq_true, decide_eq_true_eq, Bool.not_eq_true', and_assoc]

theorem quotedFits_cons {c : Char} {value : List Char} :
    quotedFits frames (c :: value) = true ↔
      isKept frames c = true ∧ ¬ (c = '\\' ∧ value.head?.any (isEscapable frames) = true) ∧
        quotedFits frames value = true := by
  rw [quotedFits, quotedFits, List.all_cons, escapesNone, Bool.and_eq_true, Bool.and_eq_true,
    Bool.and_eq_true, Bool.and_eq_true, Bool.not_eq_true', Bool.and_eq_false_iff,
    decide_eq_false_iff_not, not_and_or, Bool.not_eq_true]
  constructor
  · rintro ⟨⟨hkept, hall⟩, hpair, hrest⟩
    exact ⟨hkept, hpair, hall, hrest⟩
  · rintro ⟨hkept, hpair, hall, hrest⟩
    exact ⟨⟨hkept, hall⟩, hpair, hrest⟩

theorem quotedRole_eq_data_iff {c : Char} (h : c ≠ '\\') {rest : List Char} :
    quotedRole frames c rest = .data ↔ isKept frames c = true := by
  rw [isKept_iff, quotedRole, if_neg h]
  by_cases hquote : c = '"'
  · rw [if_pos hquote]
    simp [hquote]
  · rw [if_neg hquote]
    by_cases hactive : (c = '$' || c = '`' || (c = '\x7d' && isBrace frames)) = true
    · rw [if_pos hactive]
      simp only [Bool.or_eq_true, decide_eq_true_eq] at hactive
      constructor
      · intro hdata
        nomatch hdata
      · rintro ⟨hdollar, hback, -, hbrace⟩
        obtain (hc | hc) | hc := hactive
        · exact absurd hc hdollar
        · exact absurd hc hback
        · rw [hbrace] at hc
          nomatch hc
    · rw [if_neg hactive]
      simp only [Bool.or_eq_true, decide_eq_true_eq, not_or, Bool.not_eq_true] at hactive
      exact iff_of_true rfl ⟨hactive.1.1, hactive.1.2, hquote, hactive.2⟩

theorem quotedNext_of_isKept {c : Char} (h : c ≠ '\\') (hkept : isKept frames c = true) :
    quotedNext frames c = .direct frames .ready := by
  obtain ⟨hdollar, hback, hquote, hbrace⟩ := isKept_iff.mp hkept
  unfold quotedNext
  rw [if_neg h, if_neg hquote, if_neg hback, if_neg hdollar, hbrace, if_neg Bool.false_ne_true]

theorem quotedNext_quote (frames : List Frame) :
    quotedNext frames '\'' = .direct frames .ready :=
  quotedNext_of_isKept (by decide) (isKept_iff.mpr ⟨by decide, by decide, by decide, rfl⟩)

/-- What a backslash does not escape is itself between double quotes. -/
theorem isKept_of_not_isEscapable {c : Char} (h : isEscapable frames c = false) :
    isKept frames c = true ∧ c ≠ '\\' ∧ c ≠ '\n' := by
  rw [isEscapable, Bool.or_eq_false_iff] at h
  obtain ⟨hlist, hbrace⟩ := h
  simp only [List.contains_eq_mem, List.mem_cons, List.not_mem_nil, or_false,
    decide_eq_false_iff_not, not_or] at hlist
  obtain ⟨hdollar, hback, hquote, hslash, hfeed⟩ := hlist
  rw [Bool.and_comm] at hbrace
  exact ⟨isKept_iff.mpr ⟨hdollar, hback, hquote, hbrace⟩, hslash, hfeed⟩

/-- **Between double quotes** the text stands for itself where double quotes quote it.  A backslash
is itself in front of what it does not escape. -/
theorem dataIn_quoted (hq : q ≠ m) (hframes : isQuoted frames = true) (value after : List Char)
    (escape : Bool) (hescape : escape = true → value.head?.any (isEscapable frames) = false) :
    (DataIn m (betweenQuotes frames escape) (insertedTail q m value) after ↔
      quotedFits frames value = true) ∧
    (quotedFits frames value = true →
      (betweenQuotes frames escape).run ((insertedTail q m value).map Prod.fst) =
        betweenQuotes frames false) := by
  have hnext : ∀ c, (betweenQuotes frames false).next c = quotedNext frames c := by
    intro c
    show readyNext frames c = _
    rw [readyNext, hframes]
    rfl
  have hrole : ∀ c rest, (betweenQuotes frames false).role c rest = quotedRole frames c rest := by
    intro c rest
    show readyRole frames c rest = _
    rw [readyRole, hframes]
    rfl
  have hafter : ∀ c, (betweenQuotes frames true).next c = betweenQuotes frames false :=
    fun _ => rfl
  have hquote : ∀ escape, (betweenQuotes frames escape).next '\'' = betweenQuotes frames false := by
    intro escape
    cases escape with
    | true => rfl
    | false => exact hnext '\''
  have hslash : (betweenQuotes frames false).next '\\' = betweenQuotes frames true := hnext '\\'
  induction value generalizing escape with
  | nil =>
      refine ⟨?_, fun _ => hquote escape⟩
      rw [insertedTail_nil, dataIn_quoting hq]
      exact iff_of_true dataIn_nil rfl
  | cons c value ih =>
      rw [quotedFits_cons]
      by_cases hc : c = '\''
      · subst hc
        have hdata : ∀ rest, (betweenQuotes frames true).role '\'' rest = .data := fun _ => rfl
        have hkept : isKept frames '\'' = true :=
          isKept_iff.mpr ⟨by decide, by decide, by decide, rfl⟩
        obtain ⟨hiff, hrun⟩ := ih false (fun h => nomatch h)
        rw [insertedTail_quote, dataIn_quoting hq, hquote, dataIn_quoting hq, hslash, dataIn_own,
          hdata, hafter, dataIn_quoting hq, hquote, hiff, List.map_cons, List.map_cons,
          List.map_cons, List.map_cons, run_cons, run_cons, run_cons, run_cons, hquote, hslash,
          hafter, hquote]
        constructor
        · simp [hkept]
        · exact fun h => hrun h.2.2
      · rw [insertedTail_cons hc, dataIn_own, List.map_cons, run_cons]
        cases escape with
        | true =>
            -- the character is not escaped by the backslash before it
            have hplain : isEscapable frames c = false := by simpa using hescape rfl
            obtain ⟨hkept, hslash', hfeed⟩ := isKept_of_not_isEscapable hplain
            have hdata : ∀ rest, (betweenQuotes frames true).role c rest = .data :=
              fun _ => if_neg hfeed
            obtain ⟨hiff, hrun⟩ := ih false (fun h => nomatch h)
            rw [hdata, hafter, hiff]
            constructor
            · simp [hkept, hslash']
            · exact fun h => hrun h.2.2
        | false =>
            rw [hrole]
            by_cases hc' : c = '\\'
            · subst hc'
              have hkept : isKept frames '\\' = true :=
                isKept_iff.mpr ⟨by decide, by decide, by decide, rfl⟩
              have hmark : isEscapable frames '\'' = false := by simp [isEscapable]
              rw [quotedRole, if_pos rfl, head?_insertedTail value after (isEscapable frames) hmark,
                hslash]
              cases hhead : value.head?.any (isEscapable frames) with
              | true => simp
              | false =>
                  obtain ⟨hiff, hrun⟩ := ih true fun _ => hhead
                  rw [hiff]
                  constructor
                  · simp [hkept]
                  · exact fun h => hrun h.2.2
            · rw [quotedRole_eq_data_iff hc']
              cases hkept : isKept frames c with
              | false => simp
              | true =>
                  obtain ⟨hiff, hrun⟩ := ih false (fun h => nomatch h)
                  have hstay : (betweenQuotes frames false).next c = betweenQuotes frames false :=
                    (hnext c).trans (quotedNext_of_isKept hc' hkept)
                  rw [hstay, hiff]
                  constructor
                  · simp [hc']
                  · exact fun h => hrun h.2.2

end Direct

/-! ### Between backquotes -/

/-- A reader that is in backquotes, with the reader of the text between them. -/
def Sees (frames : List Frame) (s t : Shell) : Prop :=
  s = .backquoted frames t ∨ ∃ before, s = .escaped frames before t

/-- Whether the last character was a backslash that may be removed. -/
def Shell.holds : Shell → Bool
  | .escaped _ _ _ => true
  | _ => false

/-- A character that gets through is read by the inner reader. -/
theorem sees_next {frames : List Frame} {s t : Shell} (h : Sees frames s t) {c : Char}
    {rest : List Char} (hheld : s.holds = true → isBackquoteEscapable c = false)
    (hfree : s.holds = false →
      c ≠ '`' ∧ ¬ (c = '\\' ∧ rest.head?.any isBackquoteEscapable = true)) :
    s.role c rest = t.role c (unescape rest) ∧ Sees frames (s.next c) (t.next c) ∧
      ((s.next c).holds = true → c = '\\') := by
  obtain rfl | ⟨before, rfl⟩ := h
  · obtain ⟨hback, hpair⟩ := hfree rfl
    refine ⟨?_, ?_⟩
    · have hpair' : ¬ ((c = '\\' && rest.head?.any isBackquoteEscapable) = true) := by
        simpa using hpair
      rw [Shell.role, if_neg hback, if_neg hpair']
    · rw [Shell.next, if_neg hback]
      by_cases hc : c = '\\'
      · rw [if_pos hc]
        exact ⟨.inr ⟨_, rfl⟩, fun _ => hc⟩
      · rw [if_neg hc]
        exact ⟨.inl rfl, fun h => nomatch h⟩
  · have hplain := hheld rfl
    refine ⟨?_, ?_⟩
    · rw [Shell.role, hplain, if_neg Bool.false_ne_true]
    · rw [Shell.next, hplain, if_neg Bool.false_ne_true]
      exact ⟨.inl rfl, fun h => nomatch h⟩

theorem unescape_cons {c : Char} {rest : List Char} (hback : c ≠ '`')
    (hpair : ¬ (c = '\\' ∧ rest.head?.any isBackquoteEscapable = true)) :
    unescape (c :: rest) = c :: unescape rest := by
  by_cases hc : c = '\\'
  · subst hc
    cases rest with
    | nil => rfl
    | cons d rest =>
        have hd : ¬ isBackquoteEscapable d = true := fun h => hpair ⟨rfl, h⟩
        rw [unescape, if_neg hd]
  · rw [unescape]
    · exact fun d r h _ => hc h
    · exact hback

theorem backquotedFits_cons {c : Char} {text : List Char} :
    backquotedFits (c :: text) = true ↔
      c ≠ '`' ∧ ¬ (c = '\\' ∧ text.head?.any isBackquoteEscapable = true) ∧
        backquotedFits text = true := by
  simp only [backquotedFits, escapesNone, Bool.and_eq_true, Bool.not_eq_true',
    Bool.and_eq_false_iff, decide_eq_false_iff_not, List.contains_cons, Bool.or_eq_false_iff,
    beq_eq_false_iff_ne, not_and_or, Bool.not_eq_true]
  constructor
  · rintro ⟨⟨hback, hnone⟩, hpair, hrest⟩
    exact ⟨Ne.symm hback, hpair, hnone, hrest⟩
  · rintro ⟨hback, hpair, hnone, hrest⟩
    exact ⟨⟨Ne.symm hback, hnone⟩, hpair, hrest⟩

/-- What gets through is seen as it is, with a quote at its end. -/
theorem unescape_append {text : List Char} (h : backquotedFits (text ++ ['\'']) = true)
    (rest : List Char) : unescape (text ++ '\'' :: rest) = text ++ '\'' :: unescape rest := by
  induction text with
  | nil => exact unescape_cons (by decide) (fun hpair => absurd hpair.1 (by decide))
  | cons c text ih =>
      rw [List.cons_append, backquotedFits_cons] at h
      obtain ⟨hback, hpair, htext⟩ := h
      rw [List.cons_append, unescape_cons hback, ih htext, List.cons_append]
      rintro ⟨hc, hhead⟩
      refine hpair ⟨hc, ?_⟩
      cases text with
      | nil => exact hhead
      | cons d text => exact hhead

section Backquotes

variable {m : μ} {frames : List Frame} {s t : Shell} {after : List Char}

/-- **What gets through is read by the inner reader**, character by character. -/
theorem dataIn_sees (h : Sees frames s t) {l : List (Char × μ)} {k : μ}
    (hfits : backquotedFits (l.map Prod.fst ++ ['\'']) = true)
    (hheld : s.holds = true →
      (l.map Prod.fst ++ ['\'']).head?.any isBackquoteEscapable = false) :
    (DataIn m s (l ++ [('\'', k)]) after ↔ DataIn m t (l ++ [('\'', k)]) (unescape after)) ∧
      Sees frames (s.run (l.map Prod.fst ++ ['\''])) (t.run (l.map Prod.fst ++ ['\''])) ∧
      (s.run (l.map Prod.fst ++ ['\''])).holds = false := by
  induction l generalizing s t with
  | nil =>
      have hstep : s.role '\'' after = t.role '\'' (unescape after) ∧
          Sees frames (s.next '\'') (t.next '\'') ∧ ((s.next '\'').holds = true → '\'' = '\\') :=
        sees_next h (fun _ => rfl) fun _ => ⟨by decide, fun hpair => absurd hpair.1 (by decide)⟩
      obtain ⟨hrole, hsees, hholds⟩ := hstep
      refine ⟨?_, hsees, ?_⟩
      · rw [List.nil_append, dataIn_cons, dataIn_cons, List.map_nil, List.nil_append,
          List.nil_append, hrole]
        exact and_congr_right' (iff_of_true dataIn_nil dataIn_nil)
      · rw [← Bool.not_eq_true]
        exact fun hheld => absurd (hholds hheld) (by decide)
  | cons a l ih =>
      obtain ⟨c, mark⟩ := a
      rw [List.map_cons, List.cons_append, backquotedFits_cons] at hfits
      obtain ⟨hback, hpair, htext⟩ := hfits
      have hhead : ((l.map Prod.fst ++ ['\'']) ++ after).head? =
          (l.map Prod.fst ++ ['\'']).head? := by
        cases l with
        | nil => rfl
        | cons b l => rfl
      have hfree : s.holds = false → c ≠ '`' ∧
          ¬ (c = '\\' ∧
            ((l.map Prod.fst ++ ['\'']) ++ after).head?.any isBackquoteEscapable = true) := by
        intro _
        rw [hhead]
        exact ⟨hback, hpair⟩
      obtain ⟨hrole, hsees, hholds⟩ := sees_next h hheld hfree
      have hnext : (s.next c).holds = true →
          (l.map Prod.fst ++ ['\'']).head?.any isBackquoteEscapable = false := by
        intro hslash
        rw [← Bool.not_eq_true]
        exact fun hescaped => hpair ⟨hholds hslash, hescaped⟩
      obtain ⟨hiff, hrest⟩ := ih hsees htext hnext
      refine ⟨?_, hrest⟩
      rw [List.cons_append, dataIn_cons, dataIn_cons, hiff, List.map_append, List.map_singleton,
        hrole, List.append_assoc, List.singleton_append, unescape_append htext]
      simp

/-- The marks that are not the text's own are quotes, and backslashes in front of quotes. -/
def Harmless (m : μ) : List (Char × μ) → Prop
  | [] => True
  | (c, k) :: l =>
      (k ≠ m → c ≠ '`' ∧ (c = '\\' → l.head?.map Prod.fst = some '\'')) ∧ Harmless m l

/-- What is read as itself is not removed, and does not end the command. -/
theorem through_of_role (h : Sees frames s t) {c : Char} {rest : List Char}
    (hheld : s.holds = true → isBackquoteEscapable c = false) (hrole : s.role c rest = .data) :
    c ≠ '`' ∧ ¬ (c = '\\' ∧ rest.head?.any isBackquoteEscapable = true) := by
  obtain rfl | ⟨before, rfl⟩ := h
  · constructor
    · rintro rfl
      nomatch hrole
    · rintro ⟨rfl, hhead⟩
      rw [Shell.role, if_neg (by decide), hhead, if_pos (by decide)] at hrole
      nomatch hrole
  · have hplain := hheld rfl
    constructor
    · rintro rfl
      nomatch hplain
    · rintro ⟨rfl, -⟩
      nomatch hplain

/-- **A text that is read as itself gets through.** -/
theorem backquotedFits_of_dataIn (h : Sees frames s t) {l : List (Char × μ)} (hmarks : Harmless m l)
    (hheld : s.holds = true → (l.map Prod.fst).head?.any isBackquoteEscapable = false)
    (hdata : DataIn m s l after) (hafter : l.getLast?.map Prod.fst ≠ some '\\') :
    backquotedFits (l.map Prod.fst) = true := by
  induction l generalizing s t with
  | nil => rfl
  | cons a l ih =>
      obtain ⟨c, k⟩ := a
      obtain ⟨hmark, hmarks⟩ := hmarks
      obtain ⟨hrole, hdata⟩ := dataIn_cons.mp hdata
      have hheld' : s.holds = true → isBackquoteEscapable c = false := fun hs => hheld hs
      have hlast : l.getLast?.map Prod.fst ≠ some '\\' := by
        cases l with
        | nil => simp
        | cons b l => simpa using hafter
      have hhead : c = '\\' → ((l.map Prod.fst) ++ after).head? = (l.map Prod.fst).head? := by
        rintro rfl
        cases l with
        | nil => exact absurd rfl hafter
        | cons b l => rfl
      have hthrough : c ≠ '`' ∧
          ¬ (c = '\\' ∧ (l.map Prod.fst ++ after).head?.any isBackquoteEscapable = true) := by
        by_cases hk : k = m
        · exact through_of_role h hheld' (hrole hk)
        · obtain ⟨hback, hquote⟩ := hmark hk
          refine ⟨hback, ?_⟩
          rintro ⟨hc, hescaped⟩
          rw [hhead hc, List.head?_map, hquote hc] at hescaped
          nomatch hescaped
      obtain ⟨-, hsees, hholds⟩ := sees_next h hheld' fun _ => hthrough
      rw [List.map_cons, backquotedFits_cons]
      refine ⟨hthrough.1, ?_, ?_⟩
      · rintro ⟨hc, hescaped⟩
        rw [← hhead hc] at hescaped
        exact hthrough.2 ⟨hc, hescaped⟩
      · refine ih hsees hmarks ?_ hdata hlast
        intro hslash
        have hc := hholds hslash
        rw [← hhead hc, ← Bool.not_eq_true]
        exact fun hescaped => hthrough.2 ⟨hc, hescaped⟩

end Backquotes

/-! ### The inserted text -/

section Inserted

variable {q m : μ}

theorem harmless_insertedTail (value : List Char) :
    Harmless m (insertedTail q m value) := by
  induction value with
  | nil => exact ⟨fun _ => ⟨by decide, fun h => absurd h (by decide)⟩, trivial⟩
  | cons c value ih =>
      by_cases hc : c = '\''
      · subst hc
        rw [insertedTail_quote]
        refine ⟨fun _ => ⟨by decide, fun h => absurd h (by decide)⟩,
          fun _ => ⟨by decide, fun _ => rfl⟩, fun h => absurd rfl h,
          fun _ => ⟨by decide, fun h => absurd h (by decide)⟩, ih⟩
      · rw [insertedTail_cons hc]
        exact ⟨fun h => absurd rfl h, ih⟩

/-- The quotes that are written for a quote get through. -/
theorem backquotedFits_insertedTail (value : List Char) :
    backquotedFits ((insertedTail q m value).map Prod.fst) = backquotedFits value := by
  induction value with
  | nil => rfl
  | cons c value ih =>
      have hhead : ((insertedTail q m value).map Prod.fst).head?.any isBackquoteEscapable =
          value.head?.any isBackquoteEscapable := by
        have h := head?_insertedTail (q := q) (m := m) value [] isBackquoteEscapable rfl
        rwa [List.append_nil] at h
      rw [Bool.eq_iff_iff]
      by_cases hc : c = '\''
      · subst hc
        rw [insertedTail_quote, List.map_cons, List.map_cons, List.map_cons, List.map_cons,
          backquotedFits_cons, backquotedFits_cons, backquotedFits_cons, backquotedFits_cons, ih,
          backquotedFits_cons]
        simp [isBackquoteEscapable]
      · rw [insertedTail_cons hc, List.map_cons, backquotedFits_cons, backquotedFits_cons, hhead,
          ih]

/-- After the first quote the reader is between single quotes, or not in any that it opened. -/
theorem directNext_quote (frames : List Frame) (pending : Pending) :
    ∃ opened, directNext frames pending '\'' = .direct opened .ready ∨
      (directNext frames pending '\'' = inQuotes opened ∧ isQuoted opened = false) := by
  have hready : readyNext frames '\'' = .direct frames .ready ∨
      (readyNext frames '\'' = inQuotes frames ∧ isQuoted frames = false) := by
    unfold readyNext
    cases hquoted : isQuoted frames with
    | true => exact .inl (quotedNext_quote frames)
    | false => exact .inr ⟨rfl, rfl⟩
  cases pending with
  | ready => exact ⟨frames, hready⟩
  | escape => exact ⟨frames, .inl rfl⟩
  | single => exact ⟨frames, .inl rfl⟩
  | dollar => exact ⟨frames, hready⟩
  | parameter => exact ⟨frames, hready⟩

theorem inserted_direct (hq : q ≠ m) (frames : List Frame) (pending : Pending)
    (value after : List Char) :
    (DataIn m (.direct frames pending) (inserted q m value) after ↔
      (Shell.direct frames pending).fits value = true) ∧
    ((Shell.direct frames pending).fits value = true →
      (Shell.direct frames pending).run ((inserted q m value).map Prod.fst) =
        ((Shell.direct frames pending).next '\'').next '\'') := by
  rw [inserted, dataIn_quoting hq, List.map_cons, run_cons]
  show (DataIn m (directNext frames pending '\'') _ after ↔ openedFits _ value = true) ∧
    (openedFits _ value = true → (directNext frames pending '\'').run _ =
      (directNext frames pending '\'').next '\'')
  obtain ⟨opened, h | ⟨h, hquoted⟩⟩ := directNext_quote frames pending
  · rw [h, openedFits]
    cases hquoted : isQuoted opened with
    | true =>
        have hstay : (Shell.direct opened .ready).next '\'' = .direct opened .ready := by
          show readyNext opened '\'' = _
          rw [readyNext, hquoted]
          exact quotedNext_quote opened
        obtain ⟨hiff, hrun⟩ := dataIn_quoted hq hquoted value after false (fun h => nomatch h)
        rw [if_pos rfl, hstay]
        exact ⟨hiff, hrun⟩
    | false =>
        have hopen : (Shell.direct opened .ready).next '\'' = inQuotes opened := by
          show readyNext opened '\'' = _
          rw [readyNext, hquoted]
          rfl
        obtain ⟨hiff, hrun⟩ := dataIn_unquoted hq hquoted value after
        rw [if_neg Bool.false_ne_true, hopen]
        exact ⟨hiff, hrun⟩
    · exact Pending.noConfusion
  · rw [h]
    obtain ⟨hdata, hrun⟩ := dataIn_single hq hquoted value after
    exact ⟨iff_of_true hdata rfl, fun _ => hrun⟩

theorem inserted_sees {frames : List Frame} {s t : Shell} (h : Sees frames s t)
    (value after : List Char)
    (ht : (DataIn m t (inserted q m value) (unescape after) ↔ t.fits value = true) ∧
      (t.fits value = true →
        t.run ((inserted q m value).map Prod.fst) = (t.next '\'').next '\'')) :
    (DataIn m s (inserted q m value) after ↔ (backquotedFits value && t.fits value) = true) ∧
    ((backquotedFits value && t.fits value) = true →
      s.run ((inserted q m value).map Prod.fst) =
        .backquoted frames ((t.next '\'').next '\'')) := by
  obtain ⟨hiff, hrun⟩ := ht
  have htext : backquotedFits ((inserted q m value).map Prod.fst) = backquotedFits value := by
    rw [inserted, List.map_cons, Bool.eq_iff_iff, backquotedFits_cons, backquotedFits_insertedTail]
    simp
  have hsplit : inserted q m value =
      (('\'', q) :: value.flatMap (insertedChar q m)) ++ [('\'', q)] := rfl
  have hsees : backquotedFits value = true →
      (DataIn m s (inserted q m value) after ↔ DataIn m t (inserted q m value) (unescape after)) ∧
        Sees frames (s.run ((inserted q m value).map Prod.fst))
          (t.run ((inserted q m value).map Prod.fst)) ∧
        (s.run ((inserted q m value).map Prod.fst)).holds = false := by
    intro hfits
    rw [← htext, hsplit, List.map_append] at hfits
    rw [hsplit, List.map_append]
    exact dataIn_sees h hfits fun _ => rfl
  have hthrough : DataIn m s (inserted q m value) after → backquotedFits value = true := by
    intro hdata
    rw [← htext]
    refine backquotedFits_of_dataIn h ?_ (fun _ => rfl) hdata ?_
    · exact ⟨fun _ => ⟨by decide, fun h => absurd h (by decide)⟩, harmless_insertedTail value⟩
    · rw [hsplit, List.getLast?_concat]
      simp
  rw [Bool.and_eq_true]
  refine ⟨?_, ?_⟩
  · constructor
    · intro hdata
      have hfits := hthrough hdata
      exact ⟨hfits, hiff.mp ((hsees hfits).1.mp hdata)⟩
    · rintro ⟨hfits, hinner⟩
      exact (hsees hfits).1.mpr (hiff.mpr hinner)
  · rintro ⟨hfits, hinner⟩
    obtain ⟨-, hlast, hholds⟩ := hsees hfits
    rw [hrun hinner] at hlast
    obtain hlast | ⟨before, hlast⟩ := hlast
    · exact hlast
    · rw [hlast] at hholds
      nomatch hholds

/-- **An inserted text is read as itself exactly where it fits**, and then the reader goes on as
after any other text that fits. -/
theorem inserted_spec (hq : q ≠ m) (s : Shell) (value after : List Char) :
    (DataIn m s (inserted q m value) after ↔ s.fits value = true) ∧
    (s.fits value = true →
      s.run ((inserted q m value).map Prod.fst) = (s.next '\'').next '\'') := by
  induction s generalizing after with
  | direct frames pending => exact inserted_direct hq frames pending value after
  | backquoted frames inner ih => exact inserted_sees (.inl rfl) value after (ih _)
  | escaped frames before inner _ ih => exact inserted_sees (.inr ⟨before, rfl⟩) value after (ih _)

theorem mark_of_mem_inserted {value : List Char} {e : Char × μ} (he : e ∈ inserted q m value) :
    e.2 = q ∨ e.2 = m := by
  obtain rfl | he := List.mem_cons.mp he
  · exact .inl rfl
  obtain he | he := List.mem_append.mp he
  · obtain ⟨c, -, he⟩ := List.mem_flatMap.mp he
    unfold insertedChar at he
    split_ifs at he with hc
    · simp only [List.mem_cons, List.not_mem_nil, or_false] at he
      obtain rfl | rfl | rfl | rfl := he
      · exact .inl rfl
      · exact .inl rfl
      · exact .inr rfl
      · exact .inl rfl
    · rw [List.mem_singleton.mp he]
      exact .inr rfl
  · rw [List.mem_singleton.mp he]
    exact .inl rfl

theorem mark_of_mem_readings {s : Shell} {value after : List Char} {e : (Char × μ) × Shell × Role}
    (he : e ∈ readings Prod.fst s (inserted q m value) after) : e.1.2 = q ∨ e.1.2 = m :=
  mark_of_mem_inserted (fst_mem_of_mem_readings Prod.fst he)

/-- Other marks are of no account. -/
theorem dataIn_inserted_of_ne {k : μ} (hq : q ≠ k) (hm : m ≠ k) (s : Shell)
    (value after : List Char) : DataIn k s (inserted q m value) after := by
  intro e he hk
  obtain h | h := mark_of_mem_readings he
  · exact absurd (h.symm.trans hk) hq
  · exact absurd (h.symm.trans hk) hm

end Inserted

/-! ### Plain words -/

theorem escapesNone_of_notMem {p : Char → Bool} {value : List Char} (h : '\\' ∉ value) :
    escapesNone p value = true := by
  induction value with
  | nil => rfl
  | cons c value ih =>
      rw [List.mem_cons, not_or] at h
      rw [escapesNone_cons (Ne.symm h.1)]
      exact ih h.2

/-- Letters and digits fit everywhere. -/
theorem fits_of_isAlphanum {value : List Char} (h : ∀ c ∈ value, c.isAlphanum = true) (s : Shell) :
    s.fits value = true := by
  have hne : ∀ d, d.isAlphanum = false → d ∉ value := by
    intro d hd hmem
    rw [h d hmem] at hd
    nomatch hd
  have hback : backquotedFits value = true := by
    rw [backquotedFits, escapesNone_of_notMem (hne '\\' (by decide)), Bool.and_true,
      Bool.not_eq_true', List.contains_eq_mem, decide_eq_false_iff_not]
    exact hne '`' (by decide)
  have hquoted : ∀ frames, quotedFits frames value = true := by
    intro frames
    rw [quotedFits, escapesNone_of_notMem (hne '\\' (by decide)), Bool.and_true, List.all_eq_true]
    intro c hc
    have hother : ∀ d, d.isAlphanum = false → c ≠ d := by
      rintro d hd rfl
      exact hne c hd hc
    exact isKept_iff.mpr ⟨hother _ (by decide), hother _ (by decide), hother _ (by decide), by
      simp [hother '\x7d' (by decide)]⟩
  induction s with
  | direct frames pending =>
      show openedFits (directNext frames pending '\'') value = true
      obtain ⟨opened, hnext | ⟨hnext, -⟩⟩ := directNext_quote frames pending
      · rw [hnext, openedFits]
        · split_ifs
          · exact hquoted opened
          · exact List.all_eq_true.mpr fun c hc => isOrdinary_of_isAlphanum (h c hc) opened
        · exact Pending.noConfusion
      · rw [hnext]
        rfl
  | backquoted frames inner ih =>
      rw [Shell.fits, hback, ih]
      rfl
  | escaped frames before inner _ ih =>
      rw [Shell.fits, hback, ih]
      rfl

/-! ### Texts that differ after a quote -/

/-- Two texts that are the same up to a quote, or all along. -/
inductive SameHead : List Char → List Char → Prop
  | nil : SameHead [] []
  | quote (a b : List Char) : SameHead ('\'' :: a) ('\'' :: b)
  | cons (c : Char) {a b : List Char} : SameHead a b → SameHead (c :: a) (c :: b)

namespace SameHead

theorem head? {a b : List Char} (h : SameHead a b) : a.head? = b.head? := by
  cases h with
  | nil => rfl
  | quote a b => rfl
  | cons c h => rfl

theorem unescape_both {a b : List Char} (h : SameHead a b) :
    SameHead (unescape a) (unescape b) ∧
      SameHead (unescape ('\\' :: a)) (unescape ('\\' :: b)) := by
  induction h with
  | nil => exact ⟨.nil, .cons _ .nil⟩
  | quote a b =>
      have hquote : ∀ l, unescape ('\'' :: l) = '\'' :: unescape l := fun l =>
        unescape_cons (by decide) fun h => absurd h.1 (by decide)
      have hslash : ∀ l, unescape ('\\' :: '\'' :: l) = '\\' :: unescape ('\'' :: l) := fun l =>
        unescape_cons (by decide) fun h => Bool.false_ne_true h.2
      rw [hslash, hslash, hquote, hquote]
      exact ⟨.quote _ _, .cons _ (.quote _ _)⟩
  | @cons c a b h ih =>
      have hfirst : SameHead (unescape (c :: a)) (unescape (c :: b)) := by
        by_cases hslash : c = '\\'
        · subst hslash
          exact ih.2
        · by_cases hback : c = '`'
          · subst hback
            exact .nil
          · rw [unescape_cons hback fun h => hslash h.1, unescape_cons hback fun h => hslash h.1]
            exact .cons c ih.1
      refine ⟨hfirst, ?_⟩
      by_cases hescaped : isBackquoteEscapable c = true
      · rw [unescape, if_pos hescaped, unescape, if_pos hescaped]
        exact .cons c ih.1
      · rw [unescape, if_neg hescaped, unescape, if_neg hescaped]
        exact .cons _ hfirst

/-- **The role of a character only depends on what comes next up to a quote.** -/
theorem role {a b : List Char} (h : SameHead a b) (s : Shell) (c : Char) :
    s.role c a = s.role c b := by
  induction s generalizing a b with
  | direct frames pending =>
      have hquoted : quotedRole frames c a = quotedRole frames c b := by
        rw [quotedRole, quotedRole, h.head?]
      have hready : readyRole frames c a = readyRole frames c b := by
        rw [readyRole, readyRole, hquoted]
      show directRole frames pending c a = directRole frames pending c b
      cases pending with
      | ready => exact hready
      | escape => rfl
      | single => rfl
      | dollar => rw [directRole, directRole, hready]
      | parameter => rw [directRole, directRole, hready]
  | backquoted frames inner ih =>
      rw [Shell.role, Shell.role, h.head?, ih h.unescape_both.1]
  | escaped frames before after ih₁ ih₂ =>
      rw [Shell.role, Shell.role, ih₁ h.unescape_both.1, ih₂ h.unescape_both.1]

end SameHead

end Netcatty.PosixShell

import Netcatty.Library.Words

/-! # How a POSIX shell reads a text

The quoting rules of the shell command language, one character after another: backslashes, single
and double quotes, parameters and `${…}`, commands in `$(…)`, in parentheses and in backquotes.  A
`Shell` is what is open where a character is read; `role` says what the character is taken for,
which for a backslash depends on what comes next.  The text between backquotes is read by a reader
of its own, which does not see the backslashes that are removed first (`unescape`).

Comments and here-documents are not read as such.  In a `${…}` in double quotes the quotes around
it are in force, as they are for the forms that do not match patterns.

`splitFields` splits a simple command into its words, and fails where a character that is not quoted
would be more than itself.  `commandWords` are the words of a list of commands. -/

namespace Netcatty.PosixShell

/-! ### Readers -/

/-- What a character is taken for: itself, a mark that quotes or is removed, a blank or an operator
between words, or the beginning or a part of an expansion or a pattern. -/
inductive Role
  | data | quote | blank | operator | active
  deriving DecidableEq, Repr

/-- What is open, the innermost first. -/
inductive Frame
  | double
  | substitution
  | subshell
  | brace (quoted : Bool)
  deriving DecidableEq, Repr

/-- What was read just before; `single` is the inside of single quotes. -/
inductive Pending
  | ready | escape | single | dollar | parameter
  deriving DecidableEq, Repr

/-- A reader; `escaped` is one in backquotes after a backslash, with its inner readers before and
after that backslash. -/
inductive Shell
  | direct (frames : List Frame) (pending : Pending)
  | backquoted (frames : List Frame) (inner : Shell)
  | escaped (frames : List Frame) (before after : Shell)
  deriving DecidableEq, Repr

def isQuoted : List Frame → Bool
  | .double :: _ => true
  | .brace quoted :: _ => quoted
  | _ => false

def isBrace : List Frame → Bool
  | .brace _ :: _ => true
  | _ => false

/-- Operators end a word. -/
def isOperator (c : Char) : Bool := ['|', '&', ';', '<', '>', '(', ')', '\n'].contains c

/-- The characters that are to be quoted to stand for themselves, always or in some places. -/
def needsQuoting (c : Char) : Bool :=
  isOperator c ||
    ['$', '`', '\\', '"', '\'', ' ', '\t', '*', '?', '[', '#', '~', '=', '%'].contains c

/-- What a backslash escapes in double quotes. -/
def isEscapable (frames : List Frame) (c : Char) : Bool :=
  ['$', '`', '"', '\\', '\n'].contains c || (isBrace frames && c = '\x7d')

/-- What a backslash escapes in backquotes. -/
def isBackquoteEscapable (c : Char) : Bool := ['$', '`', '\\'].contains c

def isNameStart (c : Char) : Bool := c.isAlpha || c = '_'

def isNameChar (c : Char) : Bool := isNameStart c || c.isDigit

def isSpecialParameter (c : Char) : Bool :=
  c.isDigit || ['@', '*', '#', '?', '-', '$', '!'].contains c

def start : Shell := .direct [] .ready

def quotedNext (frames : List Frame) (c : Char) : Shell :=
  if c = '\\' then .direct frames .escape
  else if c = '"' then
    match frames with
    | .double :: outer => .direct outer .ready
    | _ => .direct (.double :: frames) .ready
  else if c = '`' then .backquoted frames start
  else if c = '$' then .direct frames .dollar
  else if c = '\x7d' && isBrace frames then .direct frames.tail .ready
  else .direct frames .ready

def closeParenthesis : List Frame → List Frame
  | .substitution :: outer => outer
  | .subshell :: outer => outer
  | frames => frames

def unquotedNext (frames : List Frame) (c : Char) : Shell :=
  if c = '\\' then .direct frames .escape
  else if c = '\'' then .direct frames .single
  else if c = '"' then .direct (.double :: frames) .ready
  else if c = '`' then .backquoted frames start
  else if c = '$' then .direct frames .dollar
  else if c = '\x7d' && isBrace frames then .direct frames.tail .ready
  else if c = '(' && !isBrace frames then .direct (.subshell :: frames) .ready
  else if c = ')' then .direct (closeParenthesis frames) .ready
  else .direct frames .ready

def readyNext (frames : List Frame) (c : Char) : Shell :=
  if isQuoted frames then quotedNext frames c else unquotedNext frames c

def directNext (frames : List Frame) (pending : Pending) (c : Char) : Shell :=
  match pending with
  | .escape => .direct frames .ready
  | .single => if c = '\'' then .direct frames .ready else .direct frames .single
  | .dollar =>
      if c = '(' then .direct (.substitution :: frames) .ready
      else if c = '\x7b' then .direct (.brace (isQuoted frames) :: frames) .ready
      else if isNameStart c then .direct frames .parameter
      else if isSpecialParameter c then .direct frames .ready
      else readyNext frames c
  | .parameter => if isNameChar c then .direct frames .parameter else readyNext frames c
  | .ready => readyNext frames c

def Shell.next : Shell → Char → Shell
  | .direct frames pending, c => directNext frames pending c
  | .backquoted frames inner, c =>
      if c = '`' then .direct frames .ready
      else if c = '\\' then .escaped frames inner (inner.next c)
      else .backquoted frames (inner.next c)
  | .escaped frames before after, c =>
      if isBackquoteEscapable c then .backquoted frames (before.next c)
      else .backquoted frames (after.next c)

def Shell.run (s : Shell) (text : List Char) : Shell := text.foldl Shell.next s

/-! ### Roles -/

def quotedRole (frames : List Frame) (c : Char) (rest : List Char) : Role :=
  if c = '\\' then if rest.head?.any (isEscapable frames) then .quote else .data
  else if c = '"' then .quote
  else if c = '$' || c = '`' || (c = '\x7d' && isBrace frames) then .active
  else .data

def unquotedRole (frames : List Frame) (c : Char) : Role :=
  if c = '\\' || c = '\'' || c = '"' then .quote
  else if c = ' ' || c = '\t' then .blank
  else if isOperator c then .operator
  else if needsQuoting c || (c = '\x7d' && isBrace frames) then .active
  else .data

def readyRole (frames : List Frame) (c : Char) (rest : List Char) : Role :=
  if isQuoted frames then quotedRole frames c rest else unquotedRole frames c

/-- An escaped line feed is removed. -/
def directRole (frames : List Frame) (pending : Pending) (c : Char) (rest : List Char) : Role :=
  match pending with
  | .escape => if c = '\n' then .quote else .data
  | .single => if c = '\'' then .quote else .data
  | .dollar =>
      if c = '(' || c = '\x7b' || isNameStart c || isSpecialParameter c then .active
      else readyRole frames c rest
  | .parameter => if isNameChar c then .active else readyRole frames c rest
  | .ready => readyRole frames c rest

/-- What the reader of the text between backquotes sees of a text. -/
def unescape : List Char → List Char
  | '\\' :: c :: rest =>
      if isBackquoteEscapable c then c :: unescape rest else '\\' :: unescape (c :: rest)
  | '`' :: _ => []
  | c :: rest => c :: unescape rest
  | [] => []

/-- The role of a character in front of the rest of the text. -/
def Shell.role : Shell → Char → List Char → Role
  | .direct frames pending, c, rest => directRole frames pending c rest
  | .backquoted _ inner, c, rest =>
      if c = '`' then .active
      else if c = '\\' && rest.head?.any isBackquoteEscapable then .quote
      else inner.role c (unescape rest)
  | .escaped _ before after, c, rest =>
      if isBackquoteEscapable c then before.role c (unescape rest)
      else after.role c (unescape rest)

section Readings

variable {α : Type} (char : α → Char)

/-- The characters of a text, each with the reader that reads it and its role; `after` is what
follows the text. -/
def readings (s : Shell) : List α → List Char → List (α × Shell × Role)
  | [], _ => []
  | a :: rest, after =>
      (a, s, s.role (char a) (rest.map char ++ after)) :: readings (s.next (char a)) rest after

@[simp] theorem run_nil (s : Shell) : s.run [] = s := rfl

@[simp] theorem run_cons (s : Shell) (c : Char) (text : List Char) :
    s.run (c :: text) = (s.next c).run text := rfl

theorem run_append (s : Shell) (text more : List Char) :
    s.run (text ++ more) = (s.run text).run more := List.foldl_append

/-- Texts that leave a reader as it is leave it so one after another. -/
theorem run_flatMap {β : Type} {s : Shell} {f : β → List Char} {l : List β}
    (h : ∀ b ∈ l, s.run (f b) = s) : s.run (l.flatMap f) = s := by
  induction l with
  | nil => rfl
  | cons b l ih =>
      rw [List.flatMap_cons, run_append, h b List.mem_cons_self]
      exact ih fun d hd => h d (List.mem_cons_of_mem _ hd)

theorem readings_append (s : Shell) (l more : List α) (after : List Char) :
    readings char s (l ++ more) after =
      readings char s l (more.map char ++ after) ++
        readings char (s.run (l.map char)) more after := by
  induction l generalizing s with
  | nil => rfl
  | cons a l ih =>
      rw [List.cons_append, readings, readings, ih, List.map_append, List.append_assoc,
        List.cons_append, List.map_cons, run_cons]

theorem fst_mem_of_mem_readings {s : Shell} {l : List α} {after : List Char}
    {e : α × Shell × Role} (he : e ∈ readings char s l after) : e.1 ∈ l := by
  induction l generalizing s with
  | nil => nomatch he
  | cons a l ih =>
      obtain rfl | he := List.mem_cons.mp he
      · exact List.mem_cons_self
      · exact List.mem_cons_of_mem _ (ih he)

end Readings

theorem readings_id_append (s : Shell) (text more after : List Char) :
    readings id s (text ++ more) after =
      readings id s text (more ++ after) ++ readings id (s.run text) more after := by
  have h := readings_append id s text more after
  rwa [List.map_id, List.map_id] at h

theorem readings_id_cons (s : Shell) (c : Char) (text after : List Char) :
    readings id s (c :: text) after =
      (c, s, s.role c (text ++ after)) :: readings id (s.next c) text after := by
  rw [readings, List.map_id]
  rfl

/-- The characters of a text with their roles. -/
def roles (s : Shell) (text after : List Char) : List (Char × Role) :=
  (readings id s text after).map fun (c, _, role) => (c, role)

@[simp] theorem roles_nil (s : Shell) (after : List Char) : roles s [] after = [] := rfl

theorem roles_cons (s : Shell) (c : Char) (text after : List Char) :
    roles s (c :: text) after = (c, s.role c (text ++ after)) :: roles (s.next c) text after := by
  rw [roles, readings_id_cons]
  rfl

theorem roles_append (s : Shell) (text more after : List Char) :
    roles s (text ++ more) after =
      roles s text (more ++ after) ++ roles (s.run text) more after := by
  rw [roles, readings_id_append, List.map_append]
  rfl

/-! ### Words -/

/-- The words of a simple command: blanks separate them, and nothing else may be unquoted that is
not itself.  The word that is being read is `none` between words. -/
def fieldsFrom : Option (List Char) → List (Char × Role) → Option (List (List Char))
  | word, [] => some word.toList
  | word, (c, .data) :: rest => fieldsFrom (some (word.getD [] ++ [c])) rest
  | word, (_, .quote) :: rest => fieldsFrom (some (word.getD [])) rest
  | word, (_, .blank) :: rest => (fieldsFrom none rest).map (word.toList ++ ·)
  | _, (_, .operator) :: _ => none
  | _, (_, .active) :: _ => none

def splitFields (text : List Char) : Option (List (List Char)) :=
  if start.run text = start then fieldsFrom none (roles start text []) else none

/-- Blanks and operators separate the words of commands, where nothing is open. -/
def separates : Char × Shell × Role → Bool
  | (_, .direct [] _, .blank) => true
  | (_, .direct [] _, .operator) => true
  | _ => false

/-- The words of a list of commands, each with its characters and their roles. -/
def commandWords (text : List Char) : List (List (Char × Role)) :=
  (Words.wordsBy separates (readings id start text [])).map fun word =>
    word.map fun (c, _, role) => (c, role)

/-! ### Single quotes -/

/-- A reader in single quotes. -/
def inQuotes (frames : List Frame) : Shell := .direct frames .single

@[simp] theorem start_next_quote : start.next '\'' = inQuotes [] := rfl

theorem inQuotes_next {c : Char} (h : c ≠ '\'') (frames : List Frame) :
    (inQuotes frames).next c = inQuotes frames := if_neg h

@[simp] theorem inQuotes_next_quote (frames : List Frame) :
    (inQuotes frames).next '\'' = .direct frames .ready := rfl

theorem inQuotes_role {c : Char} (h : c ≠ '\'') (frames : List Frame) (rest : List Char) :
    (inQuotes frames).role c rest = .data := if_neg h

/-! ### Ordinary characters -/

/-- What stands for itself where nothing quotes it. -/
def isOrdinary (frames : List Frame) (c : Char) : Bool :=
  !needsQuoting c && !(c = '\x7d' && isBrace frames)

theorem isOrdinary_iff {frames : List Frame} {c : Char} :
    isOrdinary frames c = true ↔
      needsQuoting c = false ∧ (c = '\x7d' && isBrace frames) = false := by
  rw [isOrdinary, Bool.and_eq_true, Bool.not_eq_true', Bool.not_eq_true']

theorem needsQuoting_of_isAlphanum {c : Char} (h : c.isAlphanum = true) :
    needsQuoting c = false := by
  have hlist : (['|', '&', ';', '<', '>', '(', ')', '\n', '$', '`', '\\', '"', '\'', ' ', '\t',
      '*', '?', '[', '#', '~', '=', '%'].all fun d => !d.isAlphanum) = true := by decide
  rw [Bool.eq_false_iff]
  intro hneeds
  rw [needsQuoting, isOperator, Bool.or_eq_true, List.contains_iff_mem, List.contains_iff_mem,
    ← List.mem_append] at hneeds
  have hnot := List.all_eq_true.mp hlist c hneeds
  rw [h] at hnot
  cases hnot

theorem isOrdinary_of_isAlphanum {c : Char} (h : c.isAlphanum = true) (frames : List Frame) :
    isOrdinary frames c = true := by
  have hbrace : c ≠ '\x7d' := by
    rintro rfl
    exact absurd h (by decide)
  simp [isOrdinary_iff, needsQuoting_of_isAlphanum h, hbrace]

theorem ne_of_needsQuoting {c d : Char} (h : needsQuoting c = false) (hd : needsQuoting d = true) :
    c ≠ d := by
  rintro rfl
  rw [h] at hd
  nomatch hd

theorem unquotedNext_of_isOrdinary {frames : List Frame} {c : Char}
    (h : isOrdinary frames c = true) : unquotedNext frames c = .direct frames .ready := by
  obtain ⟨hneeds, hbrace⟩ := isOrdinary_iff.mp h
  have hopen : ¬ ((c = '(' && !isBrace frames) = true) := by
    simp [ne_of_needsQuoting hneeds (d := '(') (by decide)]
  rw [unquotedNext, if_neg (ne_of_needsQuoting hneeds (by decide)),
    if_neg (ne_of_needsQuoting hneeds (by decide)), if_neg (ne_of_needsQuoting hneeds (by decide)),
    if_neg (ne_of_needsQuoting hneeds (by decide)), if_neg (ne_of_needsQuoting hneeds (by decide)),
    hbrace, if_neg Bool.false_ne_true, if_neg hopen,
    if_neg (ne_of_needsQuoting hneeds (by decide))]

theorem unquotedRole_eq_data_iff {frames : List Frame} {c : Char} :
    unquotedRole frames c = .data ↔ isOrdinary frames c = true := by
  rw [isOrdinary_iff]
  unfold unquotedRole
  by_cases hquote : (c = '\\' || c = '\'' || c = '"') = true
  · rw [if_pos hquote]
    have hneeds : needsQuoting c = true := by
      simp only [Bool.or_eq_true, decide_eq_true_eq] at hquote
      obtain (rfl | rfl) | rfl := hquote
      · decide
      · decide
      · decide
    simp [hneeds]
  rw [if_neg hquote]
  by_cases hblank : (c = ' ' || c = '\t') = true
  · rw [if_pos hblank]
    have hneeds : needsQuoting c = true := by
      simp only [Bool.or_eq_true, decide_eq_true_eq] at hblank
      obtain rfl | rfl := hblank
      · decide
      · decide
    simp [hneeds]
  rw [if_neg hblank]
  cases hoperator : isOperator c with
  | true =>
      have hneeds : needsQuoting c = true := by rw [needsQuoting, hoperator, Bool.true_or]
      simp [hneeds]
  | false =>
      rw [if_neg Bool.false_ne_true]
      cases hneeds : needsQuoting c with
      | true => simp
      | false => simp

theorem start_next_of_isOrdinary {c : Char} (h : isOrdinary [] c = true) : start.next c = start :=
  unquotedNext_of_isOrdinary h

/-- Ordinary characters are read as they are. -/
theorem run_ordinary {text : List Char} (h : ∀ c ∈ text, isOrdinary [] c = true) :
    start.run text = start := by
  induction text with
  | nil => rfl
  | cons c text ih =>
      rw [run_cons, start_next_of_isOrdinary (h c List.mem_cons_self)]
      exact ih fun d hd => h d (List.mem_cons_of_mem _ hd)

theorem roles_ordinary {text : List Char} (h : ∀ c ∈ text, isOrdinary [] c = true)
    (after : List Char) : roles start text after = text.map fun c => (c, .data) := by
  induction text with
  | nil => rfl
  | cons c text ih =>
      have hrole : start.role c (text ++ after) = .data :=
        unquotedRole_eq_data_iff.mpr (h c List.mem_cons_self)
      rw [roles_cons, start_next_of_isOrdinary (h c List.mem_cons_self), hrole, List.map_cons]
      congr 1
      exact ih fun d hd => h d (List.mem_cons_of_mem _ hd)

/-! ### Words of commands -/

theorem readings_eq_nil_iff {s : Shell} {text after : List Char} :
    readings id s text after = [] ↔ text = [] := by
  cases text with
  | nil => simp [readings]
  | cons c text => simp [readings]

/-- **A word between separators** is one of the words of the commands, with the roles that its
characters have there. -/
theorem mem_commandWords {before word after : List Char} {sep sep' : Char}
    (hbefore : start.run before = start) (hsep : start.next sep = start)
    (hsepRole : ∀ rest, separates (sep, start, start.role sep rest) = true)
    (hsepRole' : ∀ rest, separates (sep', start, start.role sep' rest) = true)
    (hne : word ≠ []) (hword : start.run word = start)
    (hroles : ∀ e ∈ roles start word (sep' :: after), e.2 ≠ .blank ∧ e.2 ≠ .operator) :
    roles start word (sep' :: after) ∈
      commandWords (before ++ sep :: (word ++ sep' :: after)) := by
  have hread : readings id start (before ++ sep :: (word ++ sep' :: after)) [] =
      readings id start before (sep :: (word ++ sep' :: after)) ++
        (sep, start, start.role sep (word ++ sep' :: after)) ::
          (readings id start word (sep' :: after) ++
            (sep', start, start.role sep' after) :: readings id (start.next sep') after []) := by
    rw [readings_id_append, hbefore, readings_id_cons, hsep, readings_id_append, hword,
      readings_id_cons]
    simp only [List.append_nil]
  have hkept : ∀ e ∈ readings id start word (sep' :: after), separates e = false := by
    rintro ⟨c, s, role⟩ he
    obtain ⟨hblank, hoperator⟩ := hroles (c, role) (List.mem_map.mpr ⟨_, he, rfl⟩)
    unfold separates
    split
    · rename_i heq
      cases heq
      exact (hblank rfl).elim
    · rename_i heq
      cases heq
      exact (hoperator rfl).elim
    · rfl
  have hwords : readings id start word (sep' :: after) ∈ Words.wordsBy separates
      (readings id start (before ++ sep :: (word ++ sep' :: after)) []) := by
    rw [hread, Words.wordsBy_append_sep _ _ (hsepRole _),
      Words.wordsBy_append_sep _ _ (hsepRole' _),
      Words.wordsBy_word (fun h => hne (readings_eq_nil_iff.mp h)) hkept]
    simp
  exact List.mem_map.mpr ⟨_, hwords, rfl⟩

end Netcatty.PosixShell

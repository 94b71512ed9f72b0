import Netcatty.Ai.Turn
import Netcatty.Library.Gaps
import Mathlib.Data.List.Infix

/-! # Laws of the blocklist

A blocked command stays blocked when another is put beside it, before or after any separator
(`Grows`), and in either case of its letters.  Its layout matters to two rules alone
(`spaceRules`), which look for spaces and find neither tabs nor longer gaps: the other rules
are `Blind` to blanks.  So a command is decided alike in every layout unless these two rules find
something where each gap is a space, and nothing where each gap is a tab
(`blockedTerminalCommand_laws`). -/

namespace Netcatty.Ai

open Gaps (Scanner Relaid respace Spaced)
open Serial (isControl isWhitespace trim)
open Vault (Text containsText utf8Len)

theorem contains_iff {needle : String} {s : Text} :
    contains needle s = true ↔ needle.toList <:+: s := by
  unfold contains containsText
  rw [List.any_eq_true, List.infix_iff_prefix_suffix]
  simp only [List.mem_tails, List.isPrefixOf_iff_prefix, and_comm]

/-! ### The two rules that look for spaces -/

def chmodRule (lower : Text) : Bool :=
  hasWord lower "chmod" && (contains " -r" lower || contains "--recursive" lower) &&
    contains "777" lower && contains " /" lower

def mvRule (lower : Text) : Bool := hasWord lower "mv" && contains "mv / " lower

def spaceRules (lower : Text) : Bool := chmodRule lower || mvRule lower

def compact (lower : Text) : Text := lower.filter (!isWhitespace ·)

def otherRules (lower : Text) : Bool :=
  shellWrapperIsBlocked lower || windowsDestructiveCommandIsBlocked lower ||
    (splitSegments lower).any recursiveForceRm ||
    contains "mkfs." lower ||
    (hasWord lower "dd" && contains "of=/dev/" lower) ||
    haltingWords.any (hasWord lower) ||
    contains ":()\x7b:|:&\x7d;:" (compact lower) ||
    (lower.contains '>' && contains "/dev/sd" lower) ||
    (contains ":>" (compact lower) && contains "/etc/" lower) ||
    hasShellPipe lower ||
    hasWord lower "eval" ||
    contains "$(" lower ||
    2 ≤ lower.count '`'

theorem blockedTerminalCommand_eq (command : Text) :
    blockedTerminalCommand command =
      (otherRules (toAsciiLowercase command) || spaceRules (toAsciiLowercase command)) := by
  unfold blockedTerminalCommand otherRules spaceRules chmodRule mvRule compact
  simp only
  ac_rfl

/-! ### Segments -/

theorem splitWhitespace_trim (s : Text) : splitWhitespace (trim s) = splitWhitespace s := by
  have hfront : splitWhitespace (s.takeWhile isWhitespace ++ s.dropWhile isWhitespace) =
      splitWhitespace (s.dropWhile isWhitespace) :=
    Words.wordsBy_gap_append (fun c hc => List.mem_takeWhile_imp hc) _
  have hback : splitWhitespace (trim s ++ (s.dropWhile isWhitespace).rtakeWhile isWhitespace) =
      splitWhitespace (trim s) :=
    Words.wordsBy_append_gap _ fun c hc => List.mem_rtakeWhile_imp hc
  rw [List.takeWhile_append_dropWhile] at hfront
  rw [trim, List.rdropWhile_append_rtakeWhile] at hback
  exact hback.symm.trans hfront.symm

/-- A rule about the words of a segment need not be told of the empty ones. -/
theorem any_trimmed {rule : List Text → Bool} (hnil : rule [] = false) (segments : List Text) :
    ((segments.map trim).filter (!·.isEmpty)).any (fun s => rule (splitWhitespace s)) =
      segments.any fun s => rule (splitWhitespace s) := by
  induction segments with
  | nil => rfl
  | cons segment segments ih =>
      rw [List.map_cons, List.filter_cons, List.any_cons, ← ih, ← splitWhitespace_trim segment]
      cases htrim : trim segment with
      | nil =>
          have hempty : rule (splitWhitespace []) = false := hnil
          rw [hempty]
          rfl
      | cons c cs => rfl

theorem shellWrapperIsBlocked_eq (command : Text) :
    shellWrapperIsBlocked command =
      (splitSegments command).any fun s => shellWrapperTokens (splitWhitespace s) :=
  any_trimmed rfl _

/-- What `windowsDestructiveLine` says of the words of a line. -/
def windowsDestructiveTokens (tokens : List Text) : Bool :=
  let executable := lastComponent (trimMatches isQuote (tokens.head?.getD []))
  if isOneOf executable ["format", "format.com", "diskpart", "diskpart.exe"] then true
  else if isOneOf executable ["restart-computer", "stop-computer", "shutdown.exe"] then true
  else
    let broadTarget := tokens.any windowsTargetIsBroad
    if executable = "remove-item".toList then
      (tokens.any fun token =>
        isOneOf (trimMatches isQuote token) ["-recurse", "-force", "-rf", "-fr"]) && broadTarget
    else if isOneOf executable ["del", "del.exe", "erase", "erase.exe", "rd", "rd.exe", "rmdir",
        "rmdir.exe"] then
      tokens.any (equalsIgnoreAsciiCase "/s") && tokens.any (equalsIgnoreAsciiCase "/q") &&
        broadTarget
    else false

theorem windowsDestructiveCommandIsBlocked_eq (command : Text) :
    windowsDestructiveCommandIsBlocked command =
      (splitSegments command).any fun s => windowsDestructiveTokens (splitWhitespace s) :=
  any_trimmed (show windowsDestructiveTokens [] = false by decide) _

/-- What `recursiveForceRm` says of the words of a line. -/
def recursiveForceTokens (tokens : List Text) : Bool :=
  match tokens.dropWhile fun token => lastComponent token ≠ "rm".toList with
  | [] => false
  | _ :: flags => hasFlag "--recursive" 'r' flags && hasFlag "--force" 'f' flags

/-! ### Beside another command -/

/-- One command beside another, with a separator between them. -/
def Beside (s t : Text) : Prop :=
  ∃ c, isSegmentEnd c = true ∧ ((∃ more, t = s ++ c :: more) ∨ ∃ front, t = front ++ c :: s)

/-- What holds of a command holds of it beside another. -/
def Grows (rule : Text → Bool) : Prop := ∀ s t, Beside s t → rule s = true → rule t = true

section Grows

variable {rule rule' : Text → Bool}

theorem Grows.or (h : Grows rule) (h' : Grows rule') : Grows fun s => rule s || rule' s := by
  intro s t hst hs
  rw [Bool.or_eq_true] at hs ⊢
  exact hs.imp (h s t hst) (h' s t hst)

theorem Grows.and (h : Grows rule) (h' : Grows rule') : Grows fun s => rule s && rule' s := by
  intro s t hst hs
  rw [Bool.and_eq_true] at hs ⊢
  exact ⟨h s t hst hs.1, h' s t hst hs.2⟩

theorem Beside.isInfix {s t : Text} (h : Beside s t) : s <:+: t := by
  obtain ⟨c, -, ⟨more, rfl⟩ | ⟨front, rfl⟩⟩ := h
  · exact (List.prefix_append s _).isInfix
  · exact ⟨front ++ [c], [], by simp⟩

/-- The parts of a command are parts of it beside another. -/
theorem Beside.splitOnP {p : Char → Bool} (hp : ∀ c, isSegmentEnd c = true → p c = true)
    {s t : Text} (h : Beside s t) : s.splitOnP p ⊆ t.splitOnP p := by
  obtain ⟨c, hc, ⟨more, rfl⟩ | ⟨front, rfl⟩⟩ := h
  · rw [List.splitOnP_append_cons _ _ (hp c hc)]
    exact List.subset_append_left _ _
  · rw [List.splitOnP_append_cons _ _ (hp c hc)]
    exact List.subset_append_right _ _

theorem any_of_subset {α : Type} {p : α → Bool} {l l' : List α} (hsub : l ⊆ l')
    (h : l.any p = true) : l'.any p = true := by
  obtain ⟨a, ha, hp⟩ := List.any_eq_true.mp h
  exact List.any_eq_true.mpr ⟨a, hsub ha, hp⟩

theorem grows_segments (rule : Text → Bool) : Grows fun s => (splitSegments s).any rule :=
  fun _ _ hst hs => any_of_subset (hst.splitOnP fun _ hc => hc) hs

theorem grows_contains (needle : String) : Grows (contains needle) := by
  intro s t hst hs
  rw [contains_iff] at hs ⊢
  exact hs.trans hst.isInfix

theorem grows_contains_compact (needle : String) : Grows fun s => contains needle (compact s) := by
  intro s t hst hs
  rw [contains_iff] at hs ⊢
  obtain ⟨front, more, rfl⟩ := hst.isInfix
  refine hs.trans ⟨compact front, compact more, ?_⟩
  simp only [compact, List.filter_append]

theorem not_isWordChar_of_isSegmentEnd {c : Char} (h : isSegmentEnd c = true) :
    (!isWordChar c) = true := by
  simp only [isSegmentEnd, Bool.or_eq_true, decide_eq_true_eq] at h
  rcases h with ((rfl | rfl) | rfl) | rfl <;> decide

theorem grows_hasWord (word : String) : Grows fun s => hasWord s word :=
  fun _ _ hst hs => any_of_subset (hst.splitOnP fun _ hc => not_isWordChar_of_isSegmentEnd hc) hs

theorem grows_contains_char (c : Char) : Grows fun s => s.contains c := by
  intro s t hst hs
  rw [List.contains_iff_mem] at hs ⊢
  exact hst.isInfix.subset hs

theorem grows_halting : Grows fun s => haltingWords.any (hasWord s) := by
  intro s t hst hs
  obtain ⟨word, hword, hs⟩ := List.any_eq_true.mp hs
  exact List.any_eq_true.mpr ⟨word, hword, grows_hasWord word s t hst hs⟩

theorem grows_backquotes : Grows fun s => decide (2 ≤ s.count '`') := by
  intro s t hst hs
  rw [decide_eq_true_eq] at hs ⊢
  exact hs.trans (hst.isInfix.sublist.count_le '`')

theorem grows_hasShellPipe : Grows hasShellPipe :=
  ((((grows_contains "curl").or (grows_contains "wget")).or (grows_contains "base64")).and
    (grows_contains_char '|')).and ((grows_hasWord "bash").or (grows_hasWord "sh"))

theorem grows_spaceRules : Grows spaceRules :=
  ((((grows_hasWord "chmod").and ((grows_contains " -r").or (grows_contains "--recursive"))).and
    (grows_contains "777")).and (grows_contains " /")).or
    ((grows_hasWord "mv").and (grows_contains "mv / "))

theorem grows_otherRules : Grows otherRules := by
  have hshell : Grows shellWrapperIsBlocked := by
    have h := grows_segments fun s => shellWrapperTokens (splitWhitespace s)
    rwa [← funext shellWrapperIsBlocked_eq] at h
  have hwindows : Grows windowsDestructiveCommandIsBlocked := by
    have h := grows_segments fun s => windowsDestructiveTokens (splitWhitespace s)
    rwa [← funext windowsDestructiveCommandIsBlocked_eq] at h
  exact (((((((((((hshell.or hwindows).or (grows_segments recursiveForceRm)).or
    (grows_contains "mkfs.")).or ((grows_hasWord "dd").and (grows_contains "of=/dev/"))).or
    grows_halting).or (grows_contains_compact ":()\x7b:|:&\x7d;:")).or
    ((grows_contains_char '>').and (grows_contains "/dev/sd"))).or
    ((grows_contains_compact ":>").and (grows_contains "/etc/"))).or grows_hasShellPipe).or
    (grows_hasWord "eval")).or (grows_contains "$(")).or grows_backquotes

end Grows

/-- **A blocked command stays blocked beside another one.** -/
theorem grows_blockedTerminalCommand : Grows blockedTerminalCommand := by
  intro s t hst hs
  have hlower : Beside (toAsciiLowercase s) (toAsciiLowercase t) := by
    have hmap : ∀ {c}, isSegmentEnd c = true → isSegmentEnd c.toLower = true := by
      intro c hc
      simp only [isSegmentEnd, Bool.or_eq_true, decide_eq_true_eq] at hc
      rcases hc with ((rfl | rfl) | rfl) | rfl <;> decide
    obtain ⟨c, hc, ⟨more, rfl⟩ | ⟨front, rfl⟩⟩ := hst
    · exact ⟨c.toLower, hmap hc, .inl ⟨more.map Char.toLower, by simp [toAsciiLowercase]⟩⟩
    · exact ⟨c.toLower, hmap hc, .inr ⟨front.map Char.toLower, by simp [toAsciiLowercase]⟩⟩
  rw [blockedTerminalCommand_eq] at hs ⊢
  exact (grows_otherRules.or grows_spaceRules) _ _ hlower hs

/-! ### Layout -/

/-- Where a reader of a command line is among quotes and escapes. -/
inductive Quoting
  | plain | escaped | single | double | doubleEscaped
  deriving DecidableEq, Repr

def Quoting.next : Quoting → Char → Quoting
  | plain, '\\' => escaped
  | plain, '\'' => single
  | plain, '"' => double
  | plain, _ => plain
  | escaped, _ => plain
  | single, '\'' => plain
  | single, _ => single
  | double, '"' => plain
  | double, '\\' => doubleEscaped
  | double, _ => double
  | doubleEscaped, _ => double

def isBlank (c : Char) : Bool := c = ' ' || c = '\t'

theorem isBlank_iff {c : Char} : isBlank c = true ↔ c = ' ' ∨ c = '\t' := by
  unfold isBlank
  rw [Bool.or_eq_true, decide_eq_true_eq, decide_eq_true_eq]

/-- Spaces and tabs outside of quotes. -/
def shell : Scanner Char Quoting where
  next := Quoting.next
  isOpen q := q = .plain
  isBlank := isBlank
  next_blank q c hopen hblank := by
    rw [decide_eq_true_eq] at hopen
    obtain rfl := hopen
    obtain rfl | rfl := isBlank_iff.mp hblank <;> rfl

/-- A command with each gap made one blank. -/
def relaidWith (blank : Char) (command : Text) : Text := respace shell blank .plain false command

/-- What does not depend on the layout. -/
def Blind {β : Type} (rule : Text → β) : Prop := ∀ q s t, Relaid shell q s t → rule s = rule t

section Blind

variable {rule rule' : Text → Bool}

theorem Blind.or (h : Blind rule) (h' : Blind rule') : Blind fun s => rule s || rule' s :=
  fun q s t hst => congrArg₂ (· || ·) (h q s t hst) (h' q s t hst)

theorem Blind.and (h : Blind rule) (h' : Blind rule') : Blind fun s => rule s && rule' s :=
  fun q s t hst => congrArg₂ (· && ·) (h q s t hst) (h' q s t hst)

theorem isWhitespace_of_isBlank {c : Char} (h : isBlank c = true) : isWhitespace c = true := by
  obtain rfl | rfl := isBlank_iff.mp h <;> decide

theorem blind_splitWhitespace : Blind splitWhitespace :=
  fun _ _ _ hst => hst.wordsBy_eq fun _ hc => isWhitespace_of_isBlank hc

theorem blind_segments (rule : List Text → Bool) :
    Blind fun s => (splitSegments s).any fun s => rule (splitWhitespace s) := by
  intro q s t hst
  have hparts := (hst.splitOnP (p := isSegmentEnd) fun c hc => by
    obtain rfl | rfl := isBlank_iff.mp hc <;> decide).1
  show (s.splitOnP isSegmentEnd).any _ = (t.splitOnP isSegmentEnd).any _
  generalize s.splitOnP isSegmentEnd = parts, t.splitOnP isSegmentEnd = parts' at hparts
  induction hparts with
  | nil => rfl
  | cons hpart _ ih =>
      obtain ⟨q, hpart⟩ := hpart
      rw [List.any_cons, List.any_cons, ih, blind_splitWhitespace q _ _ hpart]

theorem blind_hasWord {word : String} (hword : word.toList ≠ []) :
    Blind fun s => hasWord s word := by
  intro q s t hst
  have hwords : ∀ s, hasWord s word = (Words.wordsBy (!isWordChar ·) s).any (· = word.toList) := by
    intro s
    unfold hasWord Words.wordsBy
    rw [List.any_filter]
    refine List.any_congr rfl fun part => ?_
    cases part with
    | nil =>
        rw [decide_eq_false hword.symm]
        rfl
    | cons c part => rfl
  show hasWord s word = hasWord t word
  rw [hwords, hwords, hst.wordsBy_eq fun c hc => by
    obtain rfl | rfl := isBlank_iff.mp hc <;> decide]

theorem blind_contains {needle : String} (h : (needle.toList.all (!isBlank ·)) = true) :
    Blind (contains needle) := by
  intro q s t hst
  rw [Bool.eq_iff_iff, contains_iff, contains_iff]
  refine hst.infix_iff fun c hc => ?_
  have hblank : (!isBlank c) = true := List.all_eq_true.mp h c hc
  rwa [Bool.not_eq_eq_eq_not, Bool.not_true] at hblank

theorem blind_compact : Blind compact :=
  fun _ _ _ hst => hst.filter_eq fun c hc => by rw [isWhitespace_of_isBlank hc]; rfl

theorem blind_contains_compact (needle : String) : Blind fun s => contains needle (compact s) :=
  fun q s t hst => congrArg (contains needle) (blind_compact q s t hst)

theorem blind_count {c : Char} (hc : isBlank c = false) : Blind fun s => s.count c := by
  intro q s t hst
  have hkeep : ∀ s : Text, (s.filter (!isBlank ·)).count c = s.count c := fun s =>
    List.count_filter (by rw [hc]; rfl)
  have hsame := hst.filter_eq (p := (!isBlank ·)) fun d hd => by
    rw [show isBlank d = true from hd]
    rfl
  show s.count c = t.count c
  rw [← hkeep s, ← hkeep t, hsame]

theorem blind_contains_char {c : Char} (hc : isBlank c = false) : Blind fun s => s.contains c := by
  intro q s t hst
  rw [Bool.eq_iff_iff, List.contains_iff_mem, List.contains_iff_mem, ← List.count_pos_iff,
    ← List.count_pos_iff]
  have hcount : s.count c = t.count c := blind_count hc q s t hst
  rw [hcount]

theorem blind_halting : Blind fun s => haltingWords.any (hasWord s) := by
  intro q s t hst
  have hne : (haltingWords.all fun word => !word.toList.isEmpty) = true := by decide
  have hwords : ∀ words : List String, (words.all fun word => !word.toList.isEmpty) = true →
      words.any (hasWord s) = words.any (hasWord t) := by
    intro words hall
    induction words with
    | nil => rfl
    | cons word words ih =>
        rw [List.all_cons, Bool.and_eq_true] at hall
        have hword : word.toList ≠ [] := by
          intro hnil
          rw [hnil] at hall
          cases hall.1
        rw [List.any_cons, List.any_cons, ih hall.2,
          show hasWord s word = hasWord t word from blind_hasWord hword q s t hst]
  exact hwords haltingWords hne

theorem blind_hasShellPipe : Blind hasShellPipe :=
  ((((blind_contains (by decide)).or (blind_contains (by decide))).or
    (blind_contains (by decide))).and (blind_contains_char (by decide))).and
    ((blind_hasWord (by decide)).or (blind_hasWord (by decide)))

theorem blind_otherRules : Blind otherRules := by
  have hshell : Blind shellWrapperIsBlocked := by
    have h := blind_segments shellWrapperTokens
    rwa [← funext shellWrapperIsBlocked_eq] at h
  have hwindows : Blind windowsDestructiveCommandIsBlocked := by
    have h := blind_segments windowsDestructiveTokens
    rwa [← funext windowsDestructiveCommandIsBlocked_eq] at h
  have hrm : Blind fun s => (splitSegments s).any recursiveForceRm :=
    blind_segments recursiveForceTokens
  have hbackquotes : Blind fun s => decide (2 ≤ s.count '`') := fun q s t hst =>
    congrArg (fun n => decide (2 ≤ n)) (blind_count (by decide) q s t hst)
  exact (((((((((((hshell.or hwindows).or hrm).or
    (blind_contains (by decide))).or ((blind_hasWord (by decide)).and
    (blind_contains (by decide)))).or blind_halting).or (blind_contains_compact _)).or
    ((blind_contains_char (by decide)).and (blind_contains (by decide)))).or
    ((blind_contains_compact _).and (blind_contains (by decide)))).or
    blind_hasShellPipe).or (blind_hasWord (by decide))).or
    (blind_contains (by decide))).or hbackquotes

end Blind

/-- What is found most often where each gap is a space, and least often where it is a tab. -/
def Between (rule : Text → Bool) : Prop :=
  ∀ s, (rule (relaidWith '\t' s) = true → rule s = true) ∧
    (rule s = true → rule (relaidWith ' ' s) = true)

section Between

variable {rule rule' : Text → Bool}

theorem Between.or (h : Between rule) (h' : Between rule') :
    Between fun s => rule s || rule' s := by
  intro s
  simp only [Bool.or_eq_true]
  exact ⟨Or.imp (h s).1 (h' s).1, Or.imp (h s).2 (h' s).2⟩

theorem Between.and (h : Between rule) (h' : Between rule') :
    Between fun s => rule s && rule' s := by
  intro s
  simp only [Bool.and_eq_true]
  exact ⟨And.imp (h s).1 (h' s).1, And.imp (h s).2 (h' s).2⟩

theorem relaid_relaidWith {blank : Char} (hblank : isBlank blank = true) (s : Text) :
    Relaid shell .plain s (relaidWith blank s) := Gaps.relaid_respace hblank Quoting.plain s

theorem Blind.between (h : Blind rule) : Between rule := by
  intro s
  rw [← h _ _ _ (relaid_relaidWith (by decide) s), ← h _ _ _ (relaid_relaidWith (by decide) s)]
  exact ⟨id, id⟩

theorem between_contains {needle : String} (hspaced : Spaced shell ' ' needle.toList)
    (htab : '\t' ∉ needle.toList) : Between (contains needle) := by
  intro s
  simp only [contains_iff]
  exact ⟨Gaps.infix_of_respace htab, fun h => hspaced.infix_respace h Quoting.plain⟩

theorem between_spaceRules : Between spaceRules := by
  have hdash : Between (contains " -r") := by
    have hlist : " -r".toList = [' ', '-', 'r'] := by decide
    refine between_contains ⟨?_, ?_⟩ ?_
    · rw [hlist]
      exact List.forall_iff_forall_mem.mp (by decide)
    · rw [hlist]
      decide
    · rw [hlist]
      decide
  have hslash : Between (contains " /") := by
    have hlist : " /".toList = [' ', '/'] := by decide
    refine between_contains ⟨?_, ?_⟩ ?_
    · rw [hlist]
      exact List.forall_iff_forall_mem.mp (by decide)
    · rw [hlist]
      decide
    · rw [hlist]
      decide
  have hroot : Between (contains "mv / ") := by
    have hlist : "mv / ".toList = ['m', 'v', ' ', '/', ' '] := by decide
    refine between_contains ⟨?_, ?_⟩ ?_
    · rw [hlist]
      exact List.forall_iff_forall_mem.mp (by decide)
    · rw [hlist]
      decide
    · rw [hlist]
      decide
  exact (((((blind_hasWord (by decide)).between.and
    (hdash.or (blind_contains (by decide)).between)).and
    (blind_contains (by decide)).between).and hslash).or
    ((blind_hasWord (by decide)).between.and hroot))

end Between

/-! ### Letters in either case -/

theorem toLower_spec (c : Char) :
    c.toLower.isAlpha = c.isAlpha ∧ (c.isAlpha = false → c.toLower = c) := by
  by_cases hascii : c.toNat < 128
  · have key : ∀ n < 128, (Char.ofNat n).toLower.isAlpha = (Char.ofNat n).isAlpha ∧
        ((Char.ofNat n).isAlpha = false → (Char.ofNat n).toLower = Char.ofNat n) := by
      decide
    have h := key c.toNat hascii
    rwa [Char.ofNat_toNat] at h
  · have hsame : c.toLower = c := by
      unfold Char.toLower
      refine dif_neg fun h => hascii ?_
      have hle : c.val.toNat ≤ 90 := h.2
      exact Nat.lt_of_le_of_lt hle (by omega)
    rw [hsame]
    exact ⟨rfl, fun _ => rfl⟩

theorem toLower_eq_iff {c d : Char} (hd : d.isAlpha = false) : c.toLower = d ↔ c = d := by
  obtain ⟨halpha, hsame⟩ := toLower_spec c
  constructor
  · intro h
    rw [h, hd] at halpha
    exact (hsame halpha.symm).symm.trans h
  · rintro rfl
    exact hsame hd

theorem next_toLower (q : Quoting) (c : Char) : q.next c.toLower = q.next c := by
  have hother : ∀ {d}, d ≠ '\\' → d ≠ '\'' → d ≠ '"' → q.next d = q.next 'a' := by
    intro d h₁ h₂ h₃
    cases q <;> (unfold Quoting.next; split <;> simp_all)
  by_cases h₁ : c = '\\'
  · rw [h₁]
    rfl
  by_cases h₂ : c = '\''
  · rw [h₂]
    rfl
  by_cases h₃ : c = '"'
  · rw [h₃]
    rfl
  rw [hother h₁ h₂ h₃, hother]
  · rwa [ne_eq, toLower_eq_iff (by decide)]
  · rwa [ne_eq, toLower_eq_iff (by decide)]
  · rwa [ne_eq, toLower_eq_iff (by decide)]

theorem isBlank_toLower (c : Char) : isBlank c.toLower = isBlank c := by
  unfold isBlank
  simp only [toLower_eq_iff (show ' '.isAlpha = false by decide),
    toLower_eq_iff (show '\t'.isAlpha = false by decide)]

theorem toAsciiLowercase_relaidWith {blank : Char} (hblank : isBlank blank = true) (s : Text) :
    toAsciiLowercase (relaidWith blank s) = relaidWith blank (toAsciiLowercase s) := by
  refine Gaps.respace_map (S := shell) next_toLower isBlank_toLower ?_ _ _ _
  obtain rfl | rfl := isBlank_iff.mp hblank <;> rfl

theorem relaid_toAsciiLowercase {q : Quoting} {s t : Text} (h : Relaid shell q s t) :
    Relaid shell q (toAsciiLowercase s) (toAsciiLowercase t) :=
  h.map next_toLower isBlank_toLower

/-! ### Valid commands -/

theorem trim_isEmpty_iff (s : Text) : (trim s).isEmpty = true ↔ ∀ c ∈ s, isWhitespace c = true := by
  rw [List.isEmpty_iff, trim, List.rdropWhile_eq_nil_iff]
  refine ⟨fun h c hc => ?_, fun h c hc => h c ((List.dropWhile_suffix _).subset hc)⟩
  rw [← List.takeWhile_append_dropWhile (p := isWhitespace) (l := s), List.mem_append] at hc
  exact hc.elim (fun hc => List.mem_takeWhile_imp hc) (h c)

theorem validateTerminalCommand_ok_iff (command : Text) :
    validateTerminalCommand command = .ok () ↔
      (∃ c ∈ command, isWhitespace c = false) ∧ utf8Len command ≤ maxAiTerminalCommandBytes ∧
        ∀ c ∈ command, c ≠ '\x00' ∧ (isControl c = true → c = '\n' ∨ c = '\t') := by
  have htrim : (trim command).isEmpty = false ↔ ∃ c ∈ command, isWhitespace c = false := by
    rw [← Bool.not_eq_true, trim_isEmpty_iff]
    push Not
    simp only [Bool.not_eq_true]
  have hcontrol : (command.any fun c => isControl c && c ≠ '\n' && c ≠ '\t') = false ↔
      ∀ c ∈ command, isControl c = true → c = '\n' ∨ c = '\t' := by
    rw [List.any_eq_false]
    refine forall₂_congr fun c _ => ?_
    by_cases hn : c = '\n' <;> by_cases ht : c = '\t' <;> simp [hn, ht]
  have hnul : command.contains '\x00' = false ↔ ∀ c ∈ command, c ≠ '\x00' := by
    rw [← Bool.not_eq_true, List.contains_iff_mem]
    exact ⟨fun h c hc hnul => h (hnul ▸ hc), fun h hmem => h _ hmem rfl⟩
  have hok : validateTerminalCommand command = .ok () ↔
      ((trim command).isEmpty || decide (maxAiTerminalCommandBytes < utf8Len command) ||
        command.contains '\x00' ||
        command.any fun c => isControl c && c ≠ '\n' && c ≠ '\t') = false := by
    unfold validateTerminalCommand
    split
    · rename_i h
      rw [h]
      simp
    · rename_i h
      simpa using h
  rw [hok, Bool.or_eq_false_iff, Bool.or_eq_false_iff, Bool.or_eq_false_iff, htrim, hnul, hcontrol,
    decide_eq_false_iff_not, Nat.not_lt]
  constructor
  · rintro ⟨⟨⟨h₁, h₂⟩, h₃⟩, h₄⟩
    exact ⟨h₁, h₂, fun c hc => ⟨h₃ c hc, h₄ c hc⟩⟩
  · rintro ⟨h₁, h₂, h₃⟩
    exact ⟨⟨⟨h₁, h₂⟩, fun c hc => (h₃ c hc).1⟩, fun c hc => (h₃ c hc).2⟩

theorem validateTerminalCommand_relaidWith {blank : Char} (hblank : isBlank blank = true)
    {command : Text} (h : validateTerminalCommand command = .ok ()) :
    validateTerminalCommand (relaidWith blank command) = .ok () := by
  rw [validateTerminalCommand_ok_iff] at h ⊢
  obtain ⟨⟨c, hc, hspace⟩, hlen, hchars⟩ := h
  have hwidth : ∀ d : Char, blank.utf8Size ≤ d.utf8Size := by
    intro d
    have hone : blank.utf8Size = 1 := by obtain rfl | rfl := isBlank_iff.mp hblank <;> rfl
    rw [hone]
    exact d.utf8Size_pos
  refine ⟨⟨c, ?_, hspace⟩, (Gaps.sum_respace_le hwidth _ _ _).trans hlen, fun d hd => ?_⟩
  · have hnot : (!isBlank c) = true := by
      cases hb : isBlank c with
      | true => rw [isWhitespace_of_isBlank hb] at hspace; cases hspace
      | false => rfl
    have hsame := (relaid_relaidWith hblank command).filter_eq (p := (!isBlank ·)) fun d hd => by
      rw [show isBlank d = true from hd]
      rfl
    exact (List.mem_filter.mp (hsame ▸ List.mem_filter.mpr ⟨hc, hnot⟩)).1
  · rcases Gaps.mem_respace hd with hd | rfl
    · exact hchars d hd
    · obtain rfl | rfl := isBlank_iff.mp hblank <;> decide

/-! ### The laws -/

def separators : List String := ["\n", ";", "&", "&&", "|", "||"]

theorem beside_of_separator {sep : String} (h : sep ∈ separators) (a b : Text) :
    Beside a (a ++ sep.toList ++ b) ∧ Beside a (b ++ sep.toList ++ a) := by
  have hends : (separators.all fun sep =>
      !sep.toList.isEmpty && sep.toList.all isSegmentEnd) = true := by decide
  have hsep := List.all_eq_true.mp hends sep h
  rw [Bool.and_eq_true] at hsep
  have hne : sep.toList ≠ [] := by
    intro hnil
    rw [hnil] at hsep
    cases hsep.1
  have hall := List.all_eq_true.mp hsep.2
  constructor
  · obtain ⟨c, rest, hlist⟩ := List.exists_cons_of_ne_nil hne
    refine ⟨c, hall c (hlist ▸ List.mem_cons_self), .inl ⟨rest ++ b, ?_⟩⟩
    rw [hlist, List.append_assoc, List.cons_append]
  · refine ⟨sep.toList.getLast hne, hall _ (List.getLast_mem hne),
      .inr ⟨b ++ sep.toList.dropLast, ?_⟩⟩
    conv_lhs => rw [← List.dropLast_append_getLast hne]
    simp only [List.append_assoc, List.cons_append, List.nil_append]

/-- **Composition, letters and layout.**  Putting another command before or after a blocked one
never lifts the block, and the case of letters is of no account.  Over all layouts of a valid
command the decision is the same exactly if a rule that ignores blanks blocks it, or the two rules
that look for spaces find nothing where each gap is a space, or something where each is a tab. -/
theorem blockedTerminalCommand_laws (command : Text) :
    (∀ b : Text, ∀ sep ∈ separators, blockedTerminalCommand command = true →
      blockedTerminalCommand (command ++ sep.toList ++ b) = true ∧
        blockedTerminalCommand (b ++ sep.toList ++ command) = true) ∧
    (∀ command' : Text, toAsciiLowercase command = toAsciiLowercase command' →
      blockedTerminalCommand command = blockedTerminalCommand command') ∧
    (validateTerminalCommand command = .ok () →
      ((∀ command', validateTerminalCommand command' = .ok () →
          Relaid shell .plain command command' →
          blockedTerminalCommand command' = blockedTerminalCommand command) ↔
        otherRules (toAsciiLowercase command) = true ∨
          spaceRules (toAsciiLowercase (relaidWith ' ' command)) = false ∨
          spaceRules (toAsciiLowercase (relaidWith '\t' command)) = true)) := by
  refine ⟨?beside, ?letters, ?layout⟩
  case beside =>
    intro b sep hsep hcommand
    obtain ⟨hfront, hback⟩ := beside_of_separator hsep command b
    exact ⟨grows_blockedTerminalCommand _ _ hfront hcommand,
      grows_blockedTerminalCommand _ _ hback hcommand⟩
  case letters =>
    intro command' h
    rw [blockedTerminalCommand_eq, blockedTerminalCommand_eq, h]
  case layout =>
    intro hvalid
    have hother : ∀ {command'}, Relaid shell .plain command command' →
        otherRules (toAsciiLowercase command') = otherRules (toAsciiLowercase command) :=
      fun h => (blind_otherRules _ _ _ (relaid_toAsciiLowercase h)).symm
    have hspace : isBlank ' ' = true := by decide
    have htab : isBlank '\t' = true := by decide
    -- Whatever the layout, the two rules are between their answers for spaces and for tabs.
    have hbetween : ∀ {command'}, Relaid shell .plain command command' →
        (spaceRules (toAsciiLowercase (relaidWith '\t' command)) = true →
          spaceRules (toAsciiLowercase command') = true) ∧
        (spaceRules (toAsciiLowercase command') = true →
          spaceRules (toAsciiLowercase (relaidWith ' ' command)) = true) := by
      intro command' h
      have htabs : relaidWith '\t' command = relaidWith '\t' command' := h.respace_eq false
      have hspaces : relaidWith ' ' command = relaidWith ' ' command' := h.respace_eq false
      rw [htabs, hspaces, toAsciiLowercase_relaidWith htab, toAsciiLowercase_relaidWith hspace]
      exact between_spaceRules (toAsciiLowercase command')
    constructor
    · intro hsame
      by_contra hnot
      push Not at hnot
      obtain ⟨hother', hspaces, htabs⟩ := hnot
      rw [ne_eq, Bool.not_eq_true] at hother' htabs
      rw [ne_eq, Bool.not_eq_false] at hspaces
      have h₁ := hsame _ (validateTerminalCommand_relaidWith hspace hvalid)
        (relaid_relaidWith hspace command)
      have h₂ := hsame _ (validateTerminalCommand_relaidWith htab hvalid)
        (relaid_relaidWith htab command)
      rw [blockedTerminalCommand_eq, hother (relaid_relaidWith hspace command), hother', hspaces]
        at h₁
      rw [blockedTerminalCommand_eq, hother (relaid_relaidWith htab command), hother', htabs] at h₂
      exact absurd (h₁.trans h₂.symm) (by decide)
    · rintro hcondition command' - h
      rw [blockedTerminalCommand_eq, blockedTerminalCommand_eq, hother h]
      rcases hcondition with hblocked | hnone | hfound
      · rw [hblocked, Bool.true_or, Bool.true_or]
      · have hnever : ∀ {command'}, Relaid shell .plain command command' →
            spaceRules (toAsciiLowercase command') = false := by
          intro command' h
          rw [← Bool.not_eq_true]
          intro hsome
          have := (hbetween h).2 hsome
          rw [hnone] at this
          cases this
        rw [hnever h, hnever (.refl _ _)]
      · rw [(hbetween h).1 hfound, (hbetween (.refl _ _)).1 hfound]

/-- A second space, or a tab for a space, lifts the block. -/
theorem blockedTerminalCommand_layout :
    (validateTerminalCommand "mv / /mnt".toList = .ok () ∧
      validateTerminalCommand "mv  / /mnt".toList = .ok () ∧
      Relaid shell .plain "mv / /mnt".toList "mv  / /mnt".toList ∧
      blockedTerminalCommand "mv / /mnt".toList = true ∧
      blockedTerminalCommand "mv  / /mnt".toList = false) ∧
    (validateTerminalCommand "chmod -R 777 /".toList = .ok () ∧
      validateTerminalCommand "chmod\t-R 777 /".toList = .ok () ∧
      Relaid shell .plain "chmod -R 777 /".toList "chmod\t-R 777 /".toList ∧
      blockedTerminalCommand "chmod -R 777 /".toList = true ∧
      blockedTerminalCommand "chmod\t-R 777 /".toList = false) := by
  have hrun : ∀ run : Text, (!run.isEmpty && run.all isBlank) = true →
      run ≠ [] ∧ ∀ c ∈ run, shell.isBlank c = true := by
    intro run h
    rw [Bool.and_eq_true, Bool.not_eq_true', List.isEmpty_eq_false_iff, List.all_eq_true] at h
    exact h
  refine ⟨⟨by decide, by decide, ?_, by decide, by decide⟩,
    ⟨by decide, by decide, ?_, by decide, by decide⟩⟩
  · have h : Relaid shell .plain (['m', 'v'] ++ ([' '] ++ "/ /mnt".toList))
        (['m', 'v'] ++ ([' ', ' '] ++ "/ /mnt".toList)) :=
      Relaid.replace rfl (hrun [' '] rfl) (hrun [' ', ' '] rfl) _
    rwa [show ['m', 'v'] ++ ([' '] ++ "/ /mnt".toList) = "mv / /mnt".toList by decide,
      show ['m', 'v'] ++ ([' ', ' '] ++ "/ /mnt".toList) = "mv  / /mnt".toList by
        decide] at h
  · have h : Relaid shell .plain ("chmod".toList ++ ([' '] ++ "-R 777 /".toList))
        ("chmod".toList ++ (['\t'] ++ "-R 777 /".toList)) :=
      Relaid.replace (by decide) (hrun [' '] rfl) (hrun ['\t'] rfl) _
    rwa [show "chmod".toList ++ ([' '] ++ "-R 777 /".toList) = "chmod -R 777 /".toList by
        decide,
      show "chmod".toList ++ (['\t'] ++ "-R 777 /".toList) = "chmod\t-R 777 /".toList by
        decide] at h

end Netcatty.Ai

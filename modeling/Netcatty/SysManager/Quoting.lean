import Netcatty.Library.PosixShell
import Netcatty.SysManager.Listing
import Netcatty.SysManager.Tmux
import Netcatty.Library.Catalog

/-! # Quoting in remote commands

What `shellQuote` writes is read by a shell as one word, the text itself, whatever stands in it
(`fieldsFrom_shellQuote_words`).  A tmux command is therefore split into its words, and the command of a
signal into `sh`, `-c` and a script, in which the expected identity is again one quoted word
(`commands_carry_data`). -/

namespace Netcatty.SysManager

open PosixShell
open Vault (Text splitOnce stripPrefix)

/-! ### Quoted texts -/

/-- How the characters of a quoted text are read. -/
def quotedChar (c : Char) : List (Char × Role) :=
  if c = '\'' then
    [('\'', .quote), ('"', .quote), ('\'', .data), ('"', .quote), ('\'', .quote)]
  else [(c, .data)]

/-- How a quoted text is read: its characters stand for themselves. -/
def quotedWord (value : Text) : List (Char × Role) :=
  ('\'', .quote) :: value.flatMap quotedChar ++ [('\'', .quote)]

theorem quotedWord_data (value : Text) :
    (quotedWord value).filter (fun e => e.2 ≠ .quote) = value.map fun c => (c, .data) := by
  have hbody : (value.flatMap quotedChar).filter (fun e => e.2 ≠ .quote) =
      value.map fun c => (c, .data) := by
    induction value with
    | nil => rfl
    | cons c value ih =>
        rw [List.flatMap_cons, List.filter_append, ih, List.map_cons, quotedChar]
        by_cases hc : c = '\''
        · subst hc
          rfl
        · rw [if_neg hc]
          rfl
  rw [quotedWord, List.filter_append, List.filter_cons_of_neg (by simp), hbody]
  exact List.append_nil _

def escapedQuote : Char → Text := fun c => if c = '\'' then ['\'', '"', '\'', '"', '\''] else [c]

theorem run_escapedQuote (c : Char) : (inQuotes []).run (escapedQuote c) = inQuotes [] := by
  unfold escapedQuote
  by_cases hc : c = '\''
  · rw [if_pos hc]
    rfl
  · rw [if_neg hc]
    exact inQuotes_next hc []

theorem run_shellQuote (value : Text) : start.run (shellQuote value) = start := by
  have hbody : (inQuotes []).run (value.flatMap escapedQuote) = inQuotes [] :=
    run_flatMap fun c _ => run_escapedQuote c
  show start.run ('\'' :: value.flatMap escapedQuote ++ ['\'']) = start
  rw [List.cons_append, run_cons, start_next_quote, run_append, hbody]
  rfl

theorem roles_escapedQuote (c : Char) (after : Text) :
    roles (inQuotes []) (escapedQuote c) after = quotedChar c := by
  unfold escapedQuote quotedChar
  by_cases hc : c = '\''
  · rw [if_pos hc, if_pos hc]
    rfl
  · rw [if_neg hc, if_neg hc, roles_cons, inQuotes_role hc]
    rfl

theorem roles_flatMap_escapedQuote (value after : Text) :
    roles (inQuotes []) (value.flatMap escapedQuote) after = value.flatMap quotedChar := by
  induction value with
  | nil => rfl
  | cons c value ih =>
      rw [List.flatMap_cons, roles_append, roles_escapedQuote, run_escapedQuote, ih,
        List.flatMap_cons]

/-- **A quoted text is read as itself**, each of its characters as data. -/
theorem roles_shellQuote (value after : Text) :
    roles start (shellQuote value) after = quotedWord value := by
  have hrun : (inQuotes []).run (value.flatMap escapedQuote) = inQuotes [] :=
    run_flatMap fun c _ => run_escapedQuote c
  show roles start ('\'' :: (value.flatMap escapedQuote ++ ['\''])) after = _
  rw [roles_cons, start_next_quote, roles_append, roles_flatMap_escapedQuote, hrun]
  rfl

/-! ### Words of a command -/

/-- In a quoted text the word goes on with the text. -/
theorem fieldsFrom_quotedWord (word : Option Text) (value : Text) (rest : List (Char × Role)) :
    fieldsFrom word (quotedWord value ++ rest) =
      fieldsFrom (some (word.getD [] ++ value)) rest := by
  have hbody : ∀ (value word : Text) (rest : List (Char × Role)),
      fieldsFrom (some word) (value.flatMap quotedChar ++ rest) =
        fieldsFrom (some (word ++ value)) rest := by
    intro value
    induction value with
    | nil => simp
    | cons c value ih =>
        intro word rest
        rw [List.flatMap_cons, List.append_assoc, quotedChar]
        have hword : word ++ c :: value = (word ++ [c]) ++ value := by simp
        by_cases hc : c = '\''
        · subst hc
          rw [if_pos rfl, hword, ← ih]
          simp [fieldsFrom]
        · rw [if_neg hc, hword, ← ih]
          simp [fieldsFrom]
  rw [quotedWord, List.cons_append, List.cons_append, List.append_assoc, fieldsFrom, hbody]
  simp [fieldsFrom]

/-- Words that are quoted, with a blank in front of each. -/
theorem fieldsFrom_shellQuote_words (word : Text) (args : List Text) :
    fieldsFrom (some word) (roles start (args.flatMap fun arg => ' ' :: shellQuote arg) []) =
      some (word :: args) := by
  induction args generalizing word with
  | nil => rfl
  | cons arg args ih =>
      have hblank : ∀ rest, start.role ' ' rest = .blank := fun _ => rfl
      have hnext : start.next ' ' = start := rfl
      rw [List.flatMap_cons, List.cons_append, roles_cons, hblank, hnext, roles_append,
        roles_shellQuote, run_shellQuote, fieldsFrom, fieldsFrom_quotedWord, Option.getD_none,
        List.nil_append, ih]
      rfl

theorem run_shellQuote_words (args : List Text) :
    start.run (args.flatMap fun arg => ' ' :: shellQuote arg) = start := by
  apply run_flatMap
  intro arg _
  rw [run_cons]
  exact run_shellQuote arg

/-- The words of an invocation are those of its plan. -/
theorem splitFields_renderShellCommand (args : List Text) :
    splitFields (Tmux.renderShellCommand args) = some ("tmux".toList :: args) := by
  have hprogram : start.run "tmux".toList = start := by decide
  have hroles : ∀ after, roles start "tmux".toList after =
      [('t', .data), ('m', .data), ('u', .data), ('x', .data)] := fun _ => rfl
  have hrun : start.run (Tmux.renderShellCommand args) = start := by
    unfold Tmux.renderShellCommand
    rw [run_append, hprogram]
    exact run_shellQuote_words args
  rw [splitFields, if_pos hrun, Tmux.renderShellCommand, roles_append, hroles, hprogram]
  exact fieldsFrom_shellQuote_words "tmux".toList args

def boundScript (check command : Text) : Text :=
  "LC_ALL=C; export LC_ALL; set -f; ".toList ++ check ++ command

theorem splitFields_identityBoundCommand (check command : Text) :
    splitFields (identityBoundCommand check command) =
      some ["sh".toList, "-c".toList, boundScript check command] := by
  have hcommand : identityBoundCommand check command =
      "sh -c".toList ++ [boundScript check command].flatMap fun arg => ' ' :: shellQuote arg := by
    have hwords : "sh -c ".toList = "sh -c".toList ++ [' '] := by decide
    delta identityBoundCommand boundScript
    rw [hwords, List.append_assoc, List.flatMap_singleton]
    rfl
  have hprogram : start.run "sh -c".toList = start := by decide
  have hroles : ∀ after, roles start "sh -c".toList after =
      [('s', .data), ('h', .data), (' ', .blank), ('-', .data), ('c', .data)] := fun _ => rfl
  have hrun : start.run (identityBoundCommand check command) = start := by
    rw [hcommand, run_append, hprogram]
    exact run_shellQuote_words _
  rw [splitFields, if_pos hrun, hcommand, roles_append, hroles, hprogram]
  show (fieldsFrom (some "-c".toList) (roles start _ [])).map ("sh".toList :: ·) = _
  rw [fieldsFrom_shellQuote_words]
  rfl

/-! ### Words of a script -/

/-- How `name=value` is read, the value as given. -/
def assignment (name : Text) (value : List (Char × Role)) : List (Char × Role) :=
  name.map (fun c => (c, .data)) ++ ('=', .active) :: value

def plainWord (value : Text) : List (Char × Role) := value.map fun c => (c, .data)

theorem isOrdinary_decimal (n : ℕ) : ∀ c ∈ decimal n, isOrdinary [] c = true := by
  intro c hc
  apply isOrdinary_of_isAlphanum
  rw [Char.isAlphanum, decimal_isDigit hc, Bool.or_true]

/-- An assignment to an ordinary name, between separators, is a word of a script. -/
theorem assignment_mem_commandWords {before name value after : Text}
    {valueRoles : List (Char × Role)} (hbefore : start.run before = start)
    (hname : ∀ c ∈ name, isOrdinary [] c = true)
    (hvalue : start.run value = start) (hroles : ∀ more, roles start value more = valueRoles)
    (hdata : ∀ e ∈ valueRoles, e.2 ≠ .blank ∧ e.2 ≠ .operator) :
    assignment name valueRoles ∈
      commandWords (before ++ ' ' :: ((name ++ '=' :: value) ++ ';' :: after)) := by
  have hword : ∀ more, roles start (name ++ '=' :: value) more = assignment name valueRoles := by
    intro more
    have hrole : ∀ rest, start.role '=' rest = .active := fun _ => rfl
    have hnext : start.next '=' = start := rfl
    rw [roles_append, roles_ordinary hname, run_ordinary hname, roles_cons, hrole, hnext, hroles]
    rfl
  have hrun : start.run (name ++ '=' :: value) = start := by
    rw [run_append, run_ordinary hname]
    exact hvalue
  rw [← hword (';' :: after)]
  apply mem_commandWords hbefore rfl (fun _ => rfl) (fun _ => rfl)
    (List.append_ne_nil_of_right_ne_nil _ (List.cons_ne_nil _ _)) hrun
  rw [hword]
  intro e he
  obtain he | he := List.mem_append.mp he
  · obtain ⟨c, -, rfl⟩ := List.mem_map.mp he
    exact ⟨Role.noConfusion, Role.noConfusion⟩
  · obtain rfl | he := List.mem_cons.mp he
    · exact ⟨Role.noConfusion, Role.noConfusion⟩
    · exact hdata e he

theorem quotedWord_ne (value : Text) : ∀ e ∈ quotedWord value, e.2 ≠ .blank ∧ e.2 ≠ .operator := by
  intro e he
  have hquote : e.2 = .quote ∨ e.2 = .data := by
    by_cases hrole : e.2 = .quote
    · exact .inl hrole
    · have hmem : e ∈ (quotedWord value).filter fun e => e.2 ≠ .quote :=
        List.mem_filter.mpr ⟨he, by simpa using hrole⟩
      rw [quotedWord_data] at hmem
      obtain ⟨c, -, rfl⟩ := List.mem_map.mp hmem
      exact .inr rfl
  obtain h | h := hquote
  · simp [h]
  · simp [h]

theorem plainWord_ne (value : Text) : ∀ e ∈ plainWord value, e.2 ≠ .blank ∧ e.2 ≠ .operator := by
  intro e he
  obtain ⟨c, -, rfl⟩ := List.mem_map.mp he
  exact ⟨Role.noConfusion, Role.noConfusion⟩

theorem identityCheckScript_linux (pid : ℕ) (bootId : Text) (startTicks : ℕ) :
    ∃ tail, identityCheckScript pid (.linux bootId startTicks) =
      "pid=".toList ++ decimal pid ++ "; expected_boot=".toList ++ shellQuote bootId ++
        "; expected_start=".toList ++ decimal startTicks ++ ';' :: tail := by
  obtain ⟨rest, hrest⟩ : ∃ rest,
      "; boot=$(tr -d \"\\r\\n\" < /proc/sys/kernel/random/boot_id 2>/dev/null) ".toList =
        [';'] ++ rest := by simp
  suffices h : "pid=".toList ++ decimal pid ++ "; expected_boot=".toList ++ shellQuote bootId ++
      "; expected_start=".toList ++ decimal startTicks ++ [';'] <+:
      identityCheckScript pid (.linux bootId startTicks) by
    obtain ⟨tail, htail⟩ := h
    exact ⟨tail, by rw [← htail, List.append_assoc _ [';']]; rfl⟩
  delta identityCheckScript
  dsimp only
  rw [hrest]
  simp only [List.append_assoc, List.prefix_append_right_inj, List.prefix_append]

theorem identityCheckScript_posixPs (pid : ℕ) (longStart : Text) :
    ∃ tail, identityCheckScript pid (.posixPs longStart) =
      "pid=".toList ++ decimal pid ++ "; expected_start=".toList ++ shellQuote longStart ++
        ';' :: tail := by
  obtain ⟨rest, hrest⟩ : ∃ rest,
      "; current_start=$(ps -p \"$pid\" -o lstart= 2>/dev/null) ".toList = [';'] ++ rest := by simp
  suffices h : "pid=".toList ++ decimal pid ++ "; expected_start=".toList ++ shellQuote longStart ++
      [';'] <+: identityCheckScript pid (.posixPs longStart) by
    obtain ⟨tail, htail⟩ := h
    exact ⟨tail, by rw [← htail, List.append_assoc _ [';']]; rfl⟩
  delta identityCheckScript
  dsimp only
  rw [hrest]
  simp only [List.append_assoc, List.prefix_append_right_inj, List.prefix_append]

/-- The beginning of a script, up to the process. -/
def scriptHead (pid : ℕ) : Text :=
  "LC_ALL=C; export LC_ALL; set -f; ".toList ++ ("pid=".toList ++ (decimal pid ++ [';']))

theorem run_scriptHead (pid : ℕ) : start.run (scriptHead pid) = start := by
  have hfirst : start.run "LC_ALL=C; export LC_ALL; set -f; ".toList = start := by decide
  have hpid : start.run "pid=".toList = start := by decide
  delta scriptHead
  rw [run_append, hfirst, run_append, hpid, run_append, run_ordinary (isOrdinary_decimal pid)]
  rfl

/-- The identity that a script expects is one quoted word of it. -/
def ProcessIdentity.InScript (script : Text) : ProcessIdentity → Prop
  | .linux bootId startTicks =>
      assignment "expected_boot".toList (quotedWord bootId) ∈ commandWords script ∧
        assignment "expected_start".toList (plainWord (decimal startTicks)) ∈ commandWords script
  | .posixPs longStart =>
      assignment "expected_start".toList (quotedWord longStart) ∈ commandWords script

theorem inScript_boundScript (pid : ℕ) (identity : ProcessIdentity) (command : Text) :
    identity.InScript (boundScript (identityCheckScript pid identity) command) := by
  have hboot : "; expected_boot=".toList = ';' :: ' ' :: ("expected_boot".toList ++ ['=']) := by
    decide
  have hstart : "; expected_start=".toList = ';' :: ' ' :: ("expected_start".toList ++ ['=']) := by
    decide
  have hbootName : ∀ c ∈ "expected_boot".toList, isOrdinary [] c = true :=
    List.all_eq_true.mp (by decide)
  have hstartName : ∀ c ∈ "expected_start".toList, isOrdinary [] c = true :=
    List.all_eq_true.mp (by decide)
  cases identity with
  | linux bootId startTicks =>
      obtain ⟨tail, htail⟩ := identityCheckScript_linux pid bootId startTicks
      have hfirst : boundScript (identityCheckScript pid (.linux bootId startTicks)) command =
          scriptHead pid ++ ' ' :: (("expected_boot".toList ++ '=' :: shellQuote bootId) ++
            ';' :: (' ' :: ("expected_start".toList ++ ['='] ++ decimal startTicks) ++
              ';' :: tail ++ command)) := by
        delta boundScript scriptHead
        rw [htail, hboot, hstart]
        simp only [List.append_assoc, List.cons_append, List.nil_append]
      have hsecond : boundScript (identityCheckScript pid (.linux bootId startTicks)) command =
          (scriptHead pid ++
            ' ' :: (("expected_boot".toList ++ '=' :: shellQuote bootId) ++ [';'])) ++
            ' ' :: (("expected_start".toList ++ '=' :: decimal startTicks) ++
              ';' :: (tail ++ command)) := by
        rw [hfirst]
        simp only [List.append_assoc, List.cons_append, List.nil_append]
      have hrun : start.run (scriptHead pid ++
          ' ' :: (("expected_boot".toList ++ '=' :: shellQuote bootId) ++ [';'])) = start := by
        have hquoted := run_shellQuote bootId
        have hblank : start.next ' ' = start := rfl
        have hequals : start.next '=' = start := rfl
        rw [run_append, run_scriptHead, run_cons, hblank, run_append, run_append,
          run_ordinary hbootName, run_cons _ '=', hequals, hquoted]
        rfl
      constructor
      · rw [hfirst]
        exact assignment_mem_commandWords (run_scriptHead pid) hbootName (run_shellQuote bootId)
          (roles_shellQuote bootId) (quotedWord_ne bootId)
      · rw [hsecond]
        exact assignment_mem_commandWords hrun hstartName
          (run_ordinary (isOrdinary_decimal startTicks))
          (roles_ordinary (isOrdinary_decimal startTicks)) (plainWord_ne _)
  | posixPs longStart =>
      obtain ⟨tail, htail⟩ := identityCheckScript_posixPs pid longStart
      have hfirst : boundScript (identityCheckScript pid (.posixPs longStart)) command =
          scriptHead pid ++ ' ' :: (("expected_start".toList ++ '=' :: shellQuote longStart) ++
            ';' :: (tail ++ command)) := by
        delta boundScript scriptHead
        rw [htail, hstart]
        simp only [List.append_assoc, List.cons_append, List.nil_append]
      show assignment _ _ ∈ commandWords _
      rw [hfirst]
      exact assignment_mem_commandWords (run_scriptHead pid) hstartName (run_shellQuote longStart)
        (roles_shellQuote longStart) (quotedWord_ne longStart)

/-! ### The commands of a plan -/

def InventoryActionPlan.commands (plan : InventoryActionPlan) : List Text :=
  [plan.plainProbeCommand, plan.elevatedProbeCommand, plan.plainCommand, plan.elevatedCommand]

/-- The token of an identity, from which it was parsed. -/
def ProcessIdentity.HasToken (token : Text) : ProcessIdentity → Prop
  | .linux bootId startTicks => ∃ digits, token = "linux:".toList ++ (bootId ++ ':' :: digits) ∧
      parseUnsigned 64 digits = some startTicks
  | .posixPs longStart => token = "ps:".toList ++ longStart

theorem eq_of_splitOnce {separator : Char} {s before after : Text}
    (h : splitOnce separator s = some (before, after)) : s = before ++ separator :: after := by
  unfold splitOnce at h
  have hparts : s.takeWhile (· ≠ separator) ++ s.dropWhile (· ≠ separator) = s :=
    List.takeWhile_append_dropWhile
  have hhead := List.head?_dropWhile_not (fun c => decide (c ≠ separator)) s
  cases hrest : s.dropWhile (· ≠ separator) with
  | nil =>
      rw [hrest] at h
      nomatch h
  | cons c rest =>
      rw [hrest] at h hparts hhead
      obtain ⟨rfl, rfl⟩ := Prod.mk.inj (Option.some.inj h)
      have hc : c = separator := by simpa using hhead
      obtain rfl : separator = c := hc.symm
      exact hparts.symm

/-- A plan that is executed has the command of its words. -/
theorem exists_execPlan {operation : Tmux.TmuxOperation} {plan : Tmux.TmuxExecPlan}
    (h : Tmux.planOperation operation = .ok (.exec plan)) :
    ∃ kind args, plan = Tmux.execPlan kind args := by
  cases operation with
  | listSessions =>
      obtain rfl := Tmux.TmuxOperationPlan.exec.inj (Except.ok.inj h)
      exact ⟨_, _, rfl⟩
  | createSession name =>
      obtain ⟨-, -, h⟩ := Catalog.bind_ok_iff.mp h
      obtain rfl := Tmux.TmuxOperationPlan.exec.inj (Except.ok.inj h)
      exact ⟨_, _, rfl⟩
  | attachSession name =>
      obtain ⟨-, -, h⟩ := Catalog.bind_ok_iff.mp h
      nomatch h
  | killSession name =>
      obtain ⟨-, -, h⟩ := Catalog.bind_ok_iff.mp h
      obtain rfl := Tmux.TmuxOperationPlan.exec.inj (Except.ok.inj h)
      exact ⟨_, _, rfl⟩
  | renameSession name newName =>
      obtain ⟨-, -, h⟩ := Catalog.bind_ok_iff.mp h
      obtain ⟨-, -, h⟩ := Catalog.bind_ok_iff.mp h
      split_ifs at h with hsame
      obtain rfl := Tmux.TmuxOperationPlan.exec.inj (Except.ok.inj h)
      exact ⟨_, _, rfl⟩

theorem hasToken_of_parseProcessIdentity {token : Text} {identity : ProcessIdentity}
    (h : parseProcessIdentity token = some identity) : identity.HasToken token := by
  unfold parseProcessIdentity at h
  cases hlinux : stripPrefix "linux:" token with
  | some value =>
      rw [hlinux] at h
      have htoken : "linux:".toList ++ value = token := List.append_eq_of_isPrefixOf?_eq_some hlinux
      obtain ⟨⟨bootId, digits⟩, hsplit, h⟩ := Option.bind_eq_some_iff.mp h
      obtain ⟨startTicks, hticks, h⟩ := Option.bind_eq_some_iff.mp h
      have hparsed : parseUnsigned 64 digits = some startTicks :=
        (Option.filter_eq_some_iff.mp hticks).1
      split_ifs at h with hvalid
      obtain rfl := Option.some.inj h
      exact ⟨digits, by rw [← htoken, eq_of_splitOnce hsplit], hparsed⟩
  | none =>
      rw [hlinux] at h
      obtain ⟨longStart, hps, h⟩ := Option.bind_eq_some_iff.mp h
      have htoken : "ps:".toList ++ longStart = token := List.append_eq_of_isPrefixOf?_eq_some hps
      split_ifs at h with hvalid
      obtain rfl := Option.some.inj h
      exact htoken.symm

/-- **Data is carried as data**: the command of every tmux plan is split into its words, and the
commands of every signal into `sh`, `-c` and a script with the identity of the token as one quoted
word. -/
theorem commands_carry_data :
    (∀ operation plan, Tmux.planOperation operation = .ok (.exec plan) →
      splitFields plan.shellCommand = some (Tmux.TmuxExecPlan.program :: plan.args)) ∧
    ∀ signal pid token plan, signalActionPlan signal pid token = some plan →
      ∃ identity : ProcessIdentity, identity.HasToken token ∧ ∀ command ∈ plan.commands,
        ∃ script, splitFields command = some ["sh".toList, "-c".toList, script] ∧
          identity.InScript script := by
  constructor
  · intro operation plan h
    obtain ⟨kind, args, rfl⟩ := exists_execPlan h
    exact splitFields_renderShellCommand args
  · intro signal pid token plan h
    unfold signalActionPlan at h
    split_ifs at h with hpid
    obtain ⟨identity, hidentity, h⟩ := Option.bind_eq_some_iff.mp h
    obtain rfl := Option.some.inj h
    refine ⟨identity, hasToken_of_parseProcessIdentity hidentity, ?_⟩
    intro command hcommand
    obtain ⟨tail, rfl⟩ :
        ∃ tail, command = identityBoundCommand (identityCheckScript pid identity) tail := by
      simp only [InventoryActionPlan.commands, List.mem_cons, List.not_mem_nil, or_false]
        at hcommand
      obtain rfl | rfl | rfl | rfl := hcommand
      · exact ⟨_, rfl⟩
      · exact ⟨_, rfl⟩
      · exact ⟨_, rfl⟩
      · exact ⟨_, rfl⟩
    exact ⟨_, splitFields_identityBoundCommand _ _, inScript_boundScript pid identity tail⟩

theorem commands_carry_data_session :
    splitFields (Tmux.execPlan .killSession
        ["kill-session".toList, "-t".toList, "=it's; $(id)".toList]).shellCommand =
      some ["tmux".toList, "kill-session".toList, "-t".toList, "=it's; $(id)".toList] ∧
    ∃ plan, signalActionPlan .term 42 "ps:Mon Jan 1 10:20:30 2024".toList = some plan ∧
      ∃ identity : ProcessIdentity, identity.HasToken "ps:Mon Jan 1 10:20:30 2024".toList ∧
        ∀ command ∈ plan.commands, ∃ script,
          splitFields command = some ["sh".toList, "-c".toList, script] ∧
            identity.InScript script :=
  ⟨commands_carry_data.1 (.killSession "it's; $(id)".toList) _ (by decide), _, rfl,
    commands_carry_data.2 .term 42 "ps:Mon Jan 1 10:20:30 2024".toList _ rfl⟩

end Netcatty.SysManager

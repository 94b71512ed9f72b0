import Netcatty.Telnet.AutoLogin

/-! # What an auto-login discloses

`Advances` says what a step may do with the login values; it is closed under composition, and every
part of a call meets it.  `Discreet` collects what follows for every list of calls
(`trace_discreet`): each value is sent at most once, the password only by a call that ends at a
password prompt, the startup command only after the answer to a prompt, and nothing at all once the
login is over.  The tail is a suffix of the text without escape sequences (`strip`). -/

namespace Netcatty.Telnet

open Vault (Text utf8Len)

/-! ### Escape sequences -/

def AnsiState.next : AnsiState → Char → AnsiState
  | .text, c => if c = '\x1b' then .escape else .text
  | .escape, c => if c = '[' then .csi else if c = ']' then .osc else .text
  | .csi, c => if '@' ≤ c ∧ c ≤ '~' then .text else .csi
  | .osc, c => if c = '\x07' then .text else if c = '\x1b' then .oscEscape else .osc
  | .oscEscape, c => if c = '\\' then .text else if c = '\x1b' then .oscEscape else .osc

/-- The text without its escape sequences, with line feeds for carriage returns. -/
def strip : AnsiState → Text → Text
  | _, [] => []
  | state, c :: text =>
    if state = .text ∧ c ≠ '\x1b' then normalizeCr c :: strip .text text
    else strip (state.next c) text

theorem strip_append (state : AnsiState) (text more : Text) :
    strip state (text ++ more) =
      strip state text ++ strip (text.foldl AnsiState.next state) more := by
  induction text generalizing state with
  | nil => rfl
  | cons c text ih =>
      rw [List.cons_append, strip, strip, List.foldl_cons]
      by_cases h : state = .text ∧ c ≠ '\x1b'
      · obtain ⟨rfl, hc⟩ := h
        have hnext : AnsiState.next .text c = .text := if_neg hc
        rw [if_pos ⟨rfl, hc⟩, if_pos ⟨rfl, hc⟩, ih, hnext, List.cons_append]
      · rw [if_neg h, if_neg h, ih]

/-! ### The tail -/

theorem dropToBoundary_suffix (n : ℕ) (text : Text) : dropToBoundary n text <:+ text := by
  induction n, text using dropToBoundary.induct with
  | case1 text => simp [dropToBoundary]
  | case2 n => simp [dropToBoundary]
  | case3 n c text ih =>
      rw [dropToBoundary]
      exact ih.trans (List.suffix_cons c text)

theorem utf8Len_dropToBoundary (n : ℕ) (text : Text) :
    utf8Len (dropToBoundary n text) ≤ utf8Len text - n := by
  induction n, text using dropToBoundary.induct with
  | case1 text => simp [dropToBoundary]
  | case2 n => simp [dropToBoundary, utf8Len]
  | case3 n c text ih =>
      rw [dropToBoundary]
      have hcons : utf8Len (c :: text) = c.utf8Size + utf8Len text := by simp [utf8Len]
      omega

theorem pushBoundedChar_suffix (tail : Text) (c : Char) :
    pushBoundedChar tail c <:+ tail ++ [c] := by
  unfold pushBoundedChar
  simp only
  split_ifs
  · exact List.suffix_rfl
  · exact dropToBoundary_suffix _ _

theorem utf8Len_pushBoundedChar (tail : Text) (c : Char) :
    utf8Len (pushBoundedChar tail c) ≤ promptTailLimit := by
  unfold pushBoundedChar
  simp only
  split_ifs with h
  · exact h
  · have := utf8Len_dropToBoundary (utf8Len (tail ++ [c]) - promptTailLimit) (tail ++ [c])
    omega

namespace AutoLogin

/-- The tail is bounded, and a suffix of what was shown before and the text without its escape
sequences. -/
theorem pushTextWithoutAnsi_spec (s : AutoLogin) (text : Text) {shown : Text}
    (hsuffix : s.tail <:+ shown) (hbound : utf8Len s.tail ≤ promptTailLimit) :
    (s.pushTextWithoutAnsi text).tail <:+ shown ++ strip s.ansiState text ∧
      utf8Len (s.pushTextWithoutAnsi text).tail ≤ promptTailLimit ∧
      (s.pushTextWithoutAnsi text).ansiState = text.foldl AnsiState.next s.ansiState := by
  unfold pushTextWithoutAnsi
  induction text generalizing s shown with
  | nil => exact ⟨by simpa [strip] using hsuffix, hbound, rfl⟩
  | cons c text ih =>
      have hansi : (s.pushChar c).ansiState = s.ansiState.next c := by
        unfold pushChar AnsiState.next
        cases hstate : s.ansiState
        all_goals
          simp only
          split_ifs
          all_goals first
            | rfl
            | exact hstate
      rw [List.foldl_cons, List.foldl_cons, strip, ← hansi]
      by_cases h : s.ansiState = .text ∧ c ≠ '\x1b'
      · obtain ⟨hstate, hc⟩ := h
        have hpush : s.pushChar c =
            { s with tail := pushBoundedChar s.tail (normalizeCr c) } := by
          unfold pushChar
          rw [hstate]
          exact if_neg hc
        have htail : (s.pushChar c).tail <:+ shown ++ [normalizeCr c] := by
          rw [hpush]
          refine (pushBoundedChar_suffix _ _).trans ?_
          obtain ⟨front, rfl⟩ := hsuffix
          exact ⟨front, by simp⟩
        have hle : utf8Len (s.pushChar c).tail ≤ promptTailLimit := by
          rw [hpush]
          exact utf8Len_pushBoundedChar _ _
        have hstate' : (s.pushChar c).ansiState = .text := by rw [hpush, hstate]
        have hrest := ih (s.pushChar c) htail hle
        rw [if_pos ⟨hstate, hc⟩]
        rw [List.append_assoc, List.singleton_append, hstate'] at hrest
        rw [hstate']
        exact hrest
      · have htail : (s.pushChar c).tail = s.tail := by
          unfold pushChar
          cases hstate : s.ansiState with
          | text =>
              have hc : c = '\x1b' := by
                by_contra hne
                exact h ⟨hstate, hne⟩
              simp [hc]
          | escape | csi | osc | oscEscape =>
              simp only
              split_ifs <;> rfl
        rw [if_neg h]
        exact ih (s.pushChar c) (htail ▸ hsuffix) (htail ▸ hbound)

/-- Only the tail and the escape state move while text is pushed. -/
theorem pushTextWithoutAnsi_frame (s : AutoLogin) (text : Text) :
    ∃ tail ansiState, s.pushTextWithoutAnsi text = { s with tail, ansiState } := by
  unfold pushTextWithoutAnsi
  induction text generalizing s with
  | nil => exact ⟨s.tail, s.ansiState, rfl⟩
  | cons c text ih =>
      have hchar : ∃ tail ansiState, s.pushChar c = { s with tail, ansiState } := by
        unfold pushChar
        split <;> split_ifs <;> exact ⟨_, _, rfl⟩
      obtain ⟨tail, ansiState, hchar⟩ := hchar
      obtain ⟨tail', ansiState', hrest⟩ := ih (s.pushChar c)
      refine ⟨tail', ansiState', ?_⟩
      rw [List.foldl_cons, hrest, hchar]

end AutoLogin

/-! ### What a step may disclose -/

def AutoLoginAction.sends (origin : LineOrigin) : AutoLoginAction → Bool
  | .sendLine answered _ => answered = origin
  | _ => false

def AutoLoginAction.startsUp : AutoLoginAction → Bool
  | .completed (some _) => true
  | _ => false

/-- The answer to a username or password prompt. -/
def AutoLoginAction.Answers (a : AutoLoginAction) : Prop :=
  a.sends .username = true ∨ a.sends .password = true

namespace AutoLogin

open AutoLoginAction (sends startsUp Answers)

/-- The startup command has been handed out, or it is not there to be. -/
def started (s : AutoLogin) : ℕ := if s.state = .completed then 1 else 0

/-- From `s` to `t` with the actions queued on the way: a value is sent at most once, and is kept
until then; a line holds the value it answers with; the startup command follows an answer. -/
structure Advances (s : AutoLogin) (actions : List AutoLoginAction) (t : AutoLogin) : Prop where
  username : actions.countP (sends .username) + s.sentUsername.toNat = t.sentUsername.toNat
  password : actions.countP (sends .password) + s.sentPassword.toNat = t.sentPassword.toNat
  startup : actions.countP startsUp + s.started ≤ t.started
  usernameKept : t.sentUsername = false → t.username = s.username
  passwordKept : t.sentPassword = false → t.password = s.password
  startupKept : t.state ≠ .completed → t.startupCommand = s.startupCommand
  wakeLine : ∀ line, .sendLine .wake line ∈ actions → line = ['\r']
  usernameLine : ∀ line, .sendLine .username line ∈ actions →
    line = s.username.takeLine.2.getD ['\r']
  passwordLine : ∀ line, .sendLine .password line ∈ actions → s.password.takeLine.2 = some line
  startupLine : ∀ command, .completed (some command) ∈ actions → s.startupCommand = some command
  startupAfter : ∀ before command after, actions = before ++ .completed (some command) :: after →
    s.hasSentCredentials = true ∨ ∃ a ∈ before, a.Answers

namespace Advances

variable {s t u : AutoLogin} {actions more : List AutoLoginAction}

/-- A step that discloses nothing. -/
theorem quiet (husername : t.sentUsername = s.sentUsername ∧ t.username = s.username)
    (hpassword : t.sentPassword = s.sentPassword ∧ t.password = s.password)
    (hstartup : t.startupCommand = s.startupCommand)
    (hstate : s.state = .completed → t.state = .completed)
    (hactions : ∀ a ∈ actions, a.startsUp = false ∧
      ∀ origin line, a = .sendLine origin line → origin = .wake ∧ line = ['\r']) :
    Advances s actions t := by
  have hsends : ∀ origin, origin ≠ .wake → actions.countP (sends origin) = 0 := by
    intro origin horigin
    rw [List.countP_eq_zero]
    intro a ha hsends
    cases a with
    | sendLine answered line =>
        have := ((hactions _ ha).2 answered line rfl).1
        subst this
        simp only [sends, decide_eq_true_eq] at hsends
        exact horigin hsends.symm
    | completed _ | cancelled | timedOut => cases hsends
  have hnone : ∀ origin line, origin ≠ .wake → .sendLine origin line ∉ actions :=
    fun origin line hne hmem => hne ((hactions _ hmem).2 origin line rfl).1
  have hcommand : ∀ command, .completed (some command) ∉ actions := fun command hmem => by
    cases (hactions _ hmem).1
  exact {
    username := by rw [hsends _ (by simp), husername.1, Nat.zero_add]
    password := by rw [hsends _ (by simp), hpassword.1, Nat.zero_add]
    startup := by
      have hzero : actions.countP startsUp = 0 := by
        rw [List.countP_eq_zero]
        intro a ha
        rw [(hactions a ha).1]
        simp
      rw [hzero, Nat.zero_add]
      unfold started
      split_ifs with h h'
      · exact le_rfl
      · exact absurd (hstate h) h'
      · exact Nat.zero_le _
      · exact le_rfl
    usernameKept := fun _ => husername.2
    passwordKept := fun _ => hpassword.2
    startupKept := fun _ => hstartup
    wakeLine := fun line hmem => ((hactions _ hmem).2 _ line rfl).2
    usernameLine := fun line hmem => absurd hmem (hnone _ line (by simp))
    passwordLine := fun line hmem => absurd hmem (hnone _ line (by simp))
    startupLine := fun command hmem => absurd hmem (hcommand command)
    startupAfter := fun before command after h =>
      absurd (by rw [h]; simp) (hcommand command) }

/-- What has been answered since was answered on the way. -/
theorem answered (h : Advances s actions t) (ht : t.hasSentCredentials = true) :
    s.hasSentCredentials = true ∨ ∃ a ∈ actions, a.Answers := by
  by_cases hs : s.hasSentCredentials = true
  · exact .inl hs
  · refine .inr ?_
    unfold hasSentCredentials at ht hs
    rw [Bool.or_eq_true] at ht hs
    obtain ⟨hs₁, hs₂⟩ := not_or.mp hs
    rw [Bool.not_eq_true] at hs₁ hs₂
    rcases ht with ht | ht
    · have hcount := h.username
      rw [ht, hs₁] at hcount
      obtain ⟨a, ha, hsends⟩ := List.countP_pos_iff.mp
        (show 0 < actions.countP (sends .username) by
          simp only [Bool.toNat_false, Bool.toNat_true] at hcount
          omega)
      exact ⟨a, ha, .inl hsends⟩
    · have hcount := h.password
      rw [ht, hs₂] at hcount
      obtain ⟨a, ha, hsends⟩ := List.countP_pos_iff.mp
        (show 0 < actions.countP (sends .password) by
          simp only [Bool.toNat_false, Bool.toNat_true] at hcount
          omega)
      exact ⟨a, ha, .inr hsends⟩

theorem trans (h : Advances s actions t) (h' : Advances t more u) :
    Advances s (actions ++ more) u where
  username := by
    rw [List.countP_append]
    have := h.username
    have := h'.username
    omega
  password := by
    rw [List.countP_append]
    have := h.password
    have := h'.password
    omega
  startup := by
    rw [List.countP_append]
    have := h.startup
    have := h'.startup
    omega
  usernameKept hu := by
    have ht : t.sentUsername = false := by
      have := h'.username
      rw [hu] at this
      cases hsent : t.sentUsername with
      | false => rfl
      | true => simp [hsent] at this
    exact (h'.usernameKept hu).trans (h.usernameKept ht)
  passwordKept hu := by
    have ht : t.sentPassword = false := by
      have := h'.password
      rw [hu] at this
      cases hsent : t.sentPassword with
      | false => rfl
      | true => simp [hsent] at this
    exact (h'.passwordKept hu).trans (h.passwordKept ht)
  startupKept hu := by
    have ht : t.state ≠ .completed := by
      intro hcompleted
      have := h'.startup
      simp [started, hu, hcompleted] at this
    exact (h'.startupKept hu).trans (h.startupKept ht)
  wakeLine line hmem := by
    rcases List.mem_append.mp hmem with hmem | hmem
    · exact h.wakeLine line hmem
    · exact h'.wakeLine line hmem
  usernameLine line hmem := by
    rcases List.mem_append.mp hmem with hmem | hmem
    · exact h.usernameLine line hmem
    · have hpos : 0 < more.countP (sends .username) :=
        List.countP_pos_iff.mpr ⟨_, hmem, by simp [sends]⟩
      have ht : t.sentUsername = false := by
        have := h'.username
        cases hsent : t.sentUsername with
        | false => rfl
        | true =>
            have := Bool.toNat_le u.sentUsername
            simp only [hsent, Bool.toNat_true] at *
            omega
      rw [← h.usernameKept ht]
      exact h'.usernameLine line hmem
  passwordLine line hmem := by
    rcases List.mem_append.mp hmem with hmem | hmem
    · exact h.passwordLine line hmem
    · have hpos : 0 < more.countP (sends .password) :=
        List.countP_pos_iff.mpr ⟨_, hmem, by simp [sends]⟩
      have ht : t.sentPassword = false := by
        have := h'.password
        cases hsent : t.sentPassword with
        | false => rfl
        | true =>
            have := Bool.toNat_le u.sentPassword
            simp only [hsent, Bool.toNat_true] at *
            omega
      rw [← h.passwordKept ht]
      exact h'.passwordLine line hmem
  startupLine command hmem := by
    rcases List.mem_append.mp hmem with hmem | hmem
    · exact h.startupLine command hmem
    · have hpos : 0 < more.countP startsUp := List.countP_pos_iff.mpr ⟨_, hmem, rfl⟩
      have ht : t.state ≠ .completed := by
        intro hcompleted
        have hle := h'.startup
        have hone : u.started ≤ 1 := by
          unfold started
          split_ifs <;> simp
        have ht : t.started = 1 := if_pos hcompleted
        omega
      rw [← h.startupKept ht]
      exact h'.startupLine command hmem
  startupAfter before command after heq := by
    -- what is handed out in the second step follows an answer of either step
    have hlater : ∀ front, before = actions ++ front →
        more = front ++ .completed (some command) :: after →
        s.hasSentCredentials = true ∨ ∃ a ∈ before, a.Answers := by
      rintro front rfl hmore
      rcases h'.startupAfter front command after hmore with hsent | ⟨a, ha, hanswers⟩
      · rcases h.answered hsent with hs | ⟨a, ha, hanswers⟩
        · exact .inl hs
        · exact .inr ⟨a, List.mem_append_left _ ha, hanswers⟩
      · exact .inr ⟨a, List.mem_append_right _ ha, hanswers⟩
    rcases List.append_eq_append_iff.mp heq with ⟨front, hbefore, hmore⟩ | ⟨rest, hactions, hrest⟩
    · exact hlater front hbefore hmore
    · cases rest with
      | nil => exact hlater [] (by simpa using hactions.symm) (by simpa using hrest.symm)
      | cons a rest =>
          obtain ⟨rfl, rfl⟩ := List.cons.inj hrest
          exact h.startupAfter before command rest hactions

end Advances

/-! ### The parts of a call -/

theorem line_not_completed {origin : LineOrigin} {line : SecretText}
    {command : Option SecretText} {before after : List AutoLoginAction} :
    [AutoLoginAction.sendLine origin line] ≠ before ++ .completed command :: after := by
  intro h
  have hmem : AutoLoginAction.completed command ∈ [AutoLoginAction.sendLine origin line] := by
    rw [h]
    simp
  simp at hmem

section Parts

variable (toLowercase : Text → Text) (s : AutoLogin)

theorem advances_answerUsername :
    Advances s (s.answerUsername toLowercase).2 (s.answerUsername toLowercase).1 := by
  unfold answerUsername
  simp only
  split_ifs with h
  · simp only [Bool.and_eq_true, Bool.not_eq_true'] at h
    obtain ⟨⟨hsent, -⟩, -⟩ := h
    exact {
      username := by simp [sends, hsent]
      password := by simp [sends]
      startup := by simp [startsUp, started]
      usernameKept := fun h => by cases h
      passwordKept := fun _ => rfl
      startupKept := fun _ => rfl
      wakeLine := by simp
      usernameLine := fun line hmem => by
        simp only [List.mem_singleton, AutoLoginAction.sendLine.injEq, true_and] at hmem
        exact hmem
      passwordLine := by simp
      startupLine := by simp
      startupAfter := fun _ _ _ h => absurd h line_not_completed }
  · exact .quiet ⟨rfl, rfl⟩ ⟨rfl, rfl⟩ rfl id (by simp)

theorem advances_answerPassword :
    Advances s (s.answerPassword toLowercase).2 (s.answerPassword toLowercase).1 := by
  unfold answerPassword
  simp only
  split_ifs with h
  · obtain ⟨-, hsent, hconfigured, -⟩ := h
    obtain ⟨line, hline⟩ : ∃ line, s.password.takeLine.2 = some line := by
      cases hvalue : s.password with
      | absent =>
          rw [hvalue] at hconfigured
          cases hconfigured
      | explicitEmpty | present value => exact ⟨_, rfl⟩
    rw [hline]
    exact {
      username := by simp [sends]
      password := by simp [sends, hsent]
      startup := by simp [startsUp, started]
      usernameKept := fun _ => rfl
      passwordKept := fun h => by cases h
      startupKept := fun _ => rfl
      wakeLine := by simp
      usernameLine := by simp
      passwordLine := fun line' hmem => by
        simp only [Option.toList_some, List.map_cons, List.map_nil, List.mem_singleton,
          AutoLoginAction.sendLine.injEq, true_and] at hmem
        rw [hline, hmem]
      startupLine := by simp
      startupAfter := fun _ _ _ h => absurd h line_not_completed }
  · exact .quiet ⟨rfl, rfl⟩ ⟨rfl, rfl⟩ rfl id (by simp)

theorem advances_complete (hsent : s.hasSentCredentials = true) :
    Advances s s.complete.2 s.complete.1 := by
  unfold complete
  split_ifs with h
  · exact .quiet ⟨rfl, rfl⟩ ⟨rfl, rfl⟩ rfl id (by simp)
  · rw [not_not] at h
    exact {
      username := by simp [sends]
      password := by simp [sends]
      startup := by
        have hle := List.countP_le_length (p := startsUp) (l := [.completed s.startupCommand])
        simpa [started, h] using hle
      usernameKept := fun _ => rfl
      passwordKept := fun _ => rfl
      startupKept := fun h => absurd rfl h
      wakeLine := by simp
      usernameLine := by simp
      passwordLine := by simp
      startupLine := fun command hmem => by
        simp only [List.mem_singleton, AutoLoginAction.completed.injEq] at hmem
        exact hmem.symm
      startupAfter := fun _ _ _ _ => .inl hsent }

theorem advances_completeAtPrompt :
    Advances s (s.completeAtPrompt toLowercase).2 (s.completeAtPrompt toLowercase).1 := by
  unfold completeAtPrompt
  split_ifs with h
  · rw [Bool.and_eq_true] at h
    exact advances_complete s h.1
  · exact .quiet ⟨rfl, rfl⟩ ⟨rfl, rfl⟩ rfl id (by simp)

theorem tail_answerUsername : (s.answerUsername toLowercase).1.tail = s.tail := by
  unfold answerUsername
  simp only
  split_ifs <;> rfl

theorem tail_answerPassword : (s.answerPassword toLowercase).1.tail = s.tail := by
  unfold answerPassword
  split_ifs <;> rfl

theorem tail_completeAtPrompt : (s.completeAtPrompt toLowercase).1.tail = s.tail := by
  unfold completeAtPrompt complete
  split_ifs <;> rfl

/-- The call goes one of three ways. -/
theorem answerPrompts_cases :
    (s.hasSentCredentials = true ∧ s.answerPrompts toLowercase = s.complete) ∨
    s.answerPrompts toLowercase =
      ({ s with sentWake := true }, [.sendLine .wake (SecretText.appendCarriageReturn [])]) ∨
    ∃ t u, t = (s.answerUsername toLowercase).1 ∧ u = (t.answerPassword toLowercase).1 ∧
      s.answerPrompts toLowercase = ((u.completeAtPrompt toLowercase).1,
        (s.answerUsername toLowercase).2 ++ (t.answerPassword toLowercase).2 ++
          (u.completeAtPrompt toLowercase).2) := by
  unfold answerPrompts
  split_ifs with hcommand
  · rw [Bool.and_eq_true] at hcommand
    exact .inl ⟨hcommand.1, rfl⟩
  · exact .inr (.inl rfl)
  · exact .inr (.inr ⟨_, _, rfl, rfl, rfl⟩)

theorem advances_answerPrompts :
    Advances s (s.answerPrompts toLowercase).2 (s.answerPrompts toLowercase).1 := by
  rcases answerPrompts_cases toLowercase s with ⟨hsent, h⟩ | h | ⟨t, u, rfl, rfl, h⟩
  · rw [h]
    exact advances_complete s hsent
  · rw [h]
    refine .quiet ⟨rfl, rfl⟩ ⟨rfl, rfl⟩ rfl id fun a ha => ?_
    obtain rfl := List.mem_singleton.mp ha
    refine ⟨rfl, fun origin line hline => ?_⟩
    obtain ⟨rfl, rfl⟩ := AutoLoginAction.sendLine.inj hline
    exact ⟨rfl, rfl⟩
  · rw [h]
    exact ((advances_answerUsername toLowercase s).trans
      (advances_answerPassword toLowercase _)).trans (advances_completeAtPrompt toLowercase _)

theorem tail_answerPrompts : (s.answerPrompts toLowercase).1.tail = s.tail := by
  rcases answerPrompts_cases toLowercase s with ⟨-, h⟩ | h | ⟨t, u, rfl, rfl, h⟩
  · rw [h]
    unfold complete
    split_ifs <;> rfl
  · rw [h]
  · rw [h, tail_completeAtPrompt, tail_answerPassword, tail_answerUsername]

theorem ansiState_answerPrompts :
    (s.answerPrompts toLowercase).1.ansiState = s.ansiState := by
  have hcomplete : ∀ v : AutoLogin, v.complete.1.ansiState = v.ansiState := by
    intro v
    unfold complete
    split_ifs <;> rfl
  rcases answerPrompts_cases toLowercase s with ⟨-, h⟩ | h | ⟨t, u, rfl, rfl, h⟩
  · rw [h, hcomplete]
  · rw [h]
  · rw [h]
    unfold completeAtPrompt answerPassword answerUsername
    simp only
    split_ifs <;> simp [hcomplete]

/-- The password is sent where the tail is a password prompt. -/
theorem answerPrompts_prompted {line : SecretText}
    (h : .sendLine .password line ∈ (s.answerPrompts toLowercase).2) :
    isPasswordPrompt toLowercase s.tail = true := by
  have hcomplete : ∀ v : AutoLogin, .sendLine .password line ∉ v.complete.2 := by
    intro v
    unfold complete
    split_ifs <;> simp
  rcases answerPrompts_cases toLowercase s with ⟨-, heq⟩ | heq | ⟨t, u, rfl, rfl, heq⟩
  · rw [heq] at h
    exact absurd h (hcomplete s)
  · rw [heq] at h
    simp at h
  · rw [heq] at h
    rcases List.mem_append.mp h with h | h
    · rcases List.mem_append.mp h with h | h
      · unfold answerUsername at h
        simp only at h
        split_ifs at h
        · simp at h
        · cases h
      · unfold answerPassword at h
        split_ifs at h with hguard
        · rw [← tail_answerUsername toLowercase s]
          exact hguard.2.2.2
        · cases h
    · unfold completeAtPrompt at h
      split_ifs at h
      · exact absurd h (hcomplete _)
      · cases h

end Parts

/-! ### Calls -/

inductive Call
  | handleText (text : Text) (now : ℕ)
  | handleUserInput
  deriving DecidableEq, Repr

section Calls

variable (toLowercase : Text → Text)

/-- The machine after a call, with the actions it hands out. -/
def call (s : AutoLogin) : Call → AutoLogin × List AutoLoginAction
  | .handleText text now =>
    match s.handleTextAt toLowercase text now with
    | (s, .ok actions) => (s, actions)
    | (s, .error _) => (s, [])
  | .handleUserInput => s.handleUserInput

/-- The text of a call that reaches the tail. -/
def handled (s : AutoLogin) : Call → Text
  | .handleText text now =>
    if s.state = .active ∧ utf8Len text ≤ inputChunkLimit ∧ now - s.startedAt ≤ s.timeout then text
    else []
  | .handleUserInput => []

variable (s : AutoLogin) (c : Call)

/-- A call of a login that is not active does nothing. -/
theorem call_of_not_active (h : s.state ≠ .active) : s.call toLowercase c = (s, []) := by
  cases c with
  | handleText text now => simp [call, handleTextAt, h]
  | handleUserInput => simp [call, handleUserInput, h]

/-- What a call of an active login does. -/
theorem call_cases (h : s.state = .active) :
    (∃ text now, c = .handleText text now ∧ s.handled c = text ∧
      s.call toLowercase c = (s.pushTextWithoutAnsi text).answerPrompts toLowercase) ∨
    ∃ state actions, s.handled c = [] ∧ s.call toLowercase c = ({ s with state }, actions) ∧
      ∀ a ∈ actions, a = .timedOut ∨ a = .cancelled := by
  cases c with
  | handleText text now =>
      have hactive : ¬ s.state ≠ .active := not_not.mpr h
      by_cases hlong : utf8Len text > inputChunkLimit
      · exact .inr ⟨.faulted, [], if_neg (by omega),
          by simp only [call, handleTextAt, if_neg hactive, if_pos hlong], by simp⟩
      by_cases hlate : now - s.startedAt > s.timeout
      · exact .inr ⟨.timedOut, [.timedOut], if_neg (by omega),
          by simp only [call, handleTextAt, if_neg hactive, if_neg hlong, if_pos hlate], by simp⟩
      · refine .inl ⟨text, now, rfl, if_pos ⟨h, by omega, by omega⟩, ?_⟩
        simp only [call, handleTextAt, if_neg hactive, if_neg hlong, if_neg hlate]
  | handleUserInput =>
      refine .inr ⟨.cancelled, [.cancelled], rfl, ?_, by simp⟩
      simp [call, handleUserInput, h]

theorem advances_call : Advances s (s.call toLowercase c).2 (s.call toLowercase c).1 := by
  by_cases h : s.state = .active
  · rcases call_cases toLowercase s c h with ⟨text, now, -, -, heq⟩ |
      ⟨state, actions, -, heq, hactions⟩
    · rw [heq]
      obtain ⟨tail, ansiState, hpush⟩ := pushTextWithoutAnsi_frame s text
      have hquiet : Advances s [] (s.pushTextWithoutAnsi text) := by
        rw [hpush]
        exact .quiet ⟨rfl, rfl⟩ ⟨rfl, rfl⟩ rfl id (by simp)
      exact hquiet.trans (advances_answerPrompts toLowercase _)
    · rw [heq]
      refine .quiet ⟨rfl, rfl⟩ ⟨rfl, rfl⟩ rfl (fun hs => by simp [h] at hs) fun a ha => ?_
      rcases hactions a ha with rfl | rfl <;> exact ⟨rfl, by simp⟩
  · rw [call_of_not_active toLowercase s c h]
    exact .quiet ⟨rfl, rfl⟩ ⟨rfl, rfl⟩ rfl id (by simp)

theorem call_prompted {line : SecretText}
    (h : .sendLine .password line ∈ (s.call toLowercase c).2) :
    isPasswordPrompt toLowercase (s.call toLowercase c).1.tail = true := by
  by_cases hs : s.state = .active
  · rcases call_cases toLowercase s c hs with ⟨text, now, -, -, heq⟩ |
      ⟨state, actions, -, heq, hactions⟩
    · rw [heq] at h ⊢
      rw [tail_answerPrompts]
      exact answerPrompts_prompted toLowercase _ h
    · rw [heq] at h
      rcases hactions _ h with h | h <;> cases h
  · rw [call_of_not_active toLowercase s c hs] at h
    cases h

/-- A call keeps the tail a suffix of what is shown, within its limit. -/
theorem call_tail {shown : Text} (hsuffix : s.tail <:+ shown)
    (hbound : utf8Len s.tail ≤ promptTailLimit) :
    (s.call toLowercase c).1.tail <:+ shown ++ strip s.ansiState (s.handled c) ∧
      utf8Len (s.call toLowercase c).1.tail ≤ promptTailLimit ∧
      (s.call toLowercase c).1.ansiState = (s.handled c).foldl AnsiState.next s.ansiState := by
  by_cases h : s.state = .active
  · rcases call_cases toLowercase s c h with ⟨text, now, -, htext, heq⟩ |
      ⟨state, actions, htext, heq, -⟩
    · have hansi : ((s.pushTextWithoutAnsi text).answerPrompts toLowercase).1.ansiState =
          (s.pushTextWithoutAnsi text).ansiState := ansiState_answerPrompts toLowercase _
      rw [heq, htext, tail_answerPrompts, hansi]
      exact pushTextWithoutAnsi_spec s text hsuffix hbound
    · rw [heq, htext]
      exact ⟨by simpa [strip] using hsuffix, hbound, rfl⟩
  · have htext : s.handled c = [] := by
      cases c with
      | handleText text now => exact if_neg fun hactive => h hactive.1
      | handleUserInput => rfl
    rw [call_of_not_active toLowercase s c h, htext]
    exact ⟨by simpa [strip] using hsuffix, hbound, rfl⟩

end Calls

/-! ### Lists of calls -/

/-- A call with the machine before it. -/
structure Entry where
  before : AutoLogin
  call : Call

section Trace

variable (toLowercase : Text → Text)

namespace Entry

def after (e : Entry) : AutoLogin := (e.before.call toLowercase e.call).1

def actions (e : Entry) : List AutoLoginAction := (e.before.call toLowercase e.call).2

def text (e : Entry) : Text := e.before.handled e.call

end Entry

/-- The calls in their order, each with the machine it is made on. -/
def trace (s : AutoLogin) : List Call → List Entry
  | [] => []
  | c :: calls => ⟨s, c⟩ :: trace (s.call toLowercase c).1 calls

def actionsOf (entries : List Entry) : List AutoLoginAction :=
  entries.flatMap (Entry.actions toLowercase)

theorem advances_trace (s : AutoLogin) (calls : List Call) :
    ∃ t, Advances s (actionsOf toLowercase (s.trace toLowercase calls)) t := by
  induction calls generalizing s with
  | nil => exact ⟨s, .quiet ⟨rfl, rfl⟩ ⟨rfl, rfl⟩ rfl id (by simp [trace, actionsOf])⟩
  | cons c calls ih =>
      obtain ⟨t, ht⟩ := ih (s.call toLowercase c).1
      exact ⟨t, (advances_call toLowercase s c).trans ht⟩

/-- The rest of a trace is the trace of the machine reached. -/
theorem trace_split {s : AutoLogin} {calls : List Call} {before after : List Entry} {e : Entry}
    (h : s.trace toLowercase calls = before ++ e :: after) :
    ∃ rest, after = (e.after toLowercase).trace toLowercase rest := by
  induction calls generalizing s before with
  | nil => simp [trace] at h
  | cons c calls ih =>
      cases before with
      | nil =>
          obtain ⟨rfl, rfl⟩ := List.cons.inj h
          exact ⟨calls, rfl⟩
      | cons first before => exact ih (List.cons.inj h).2

theorem trace_of_not_active {s : AutoLogin} (h : s.state ≠ .active) (calls : List Call) :
    ∀ e ∈ s.trace toLowercase calls, e.actions toLowercase = [] := by
  induction calls with
  | nil => simp [trace]
  | cons c calls ih =>
      have hcall := call_of_not_active toLowercase s c h
      intro e he
      rw [trace, hcall] at he
      rcases List.mem_cons.mp he with rfl | he
      · exact congrArg Prod.snd hcall
      · exact ih e he

theorem trace_tail {s : AutoLogin} {shown : Text} (hsuffix : s.tail <:+ shown)
    (hbound : utf8Len s.tail ≤ promptTailLimit) {calls : List Call} {before after : List Entry}
    {e : Entry} (h : s.trace toLowercase calls = before ++ e :: after) :
    (e.after toLowercase).tail <:+ shown ++ strip s.ansiState ((before ++ [e]).flatMap Entry.text) ∧
      utf8Len (e.after toLowercase).tail ≤ promptTailLimit := by
  induction calls generalizing s before shown with
  | nil => simp [trace] at h
  | cons c calls ih =>
      obtain ⟨hsuffix', hbound', hansi⟩ := call_tail toLowercase s c hsuffix hbound
      cases before with
      | nil =>
          obtain ⟨rfl, rfl⟩ := List.cons.inj h
          refine ⟨?_, hbound'⟩
          rw [List.nil_append, List.flatMap_singleton]
          exact hsuffix'
      | cons first before =>
          obtain ⟨rfl, hrest⟩ := List.cons.inj h
          have hspec := ih hsuffix' hbound' hrest
          rw [hansi, List.append_assoc, ← strip_append] at hspec
          exact hspec

/-- The login is over. -/
def IsOver (state : AutoLoginState) : Prop :=
  state = .completed ∨ state = .cancelled ∨ state = .timedOut ∨ state = .faulted

/-- What the calls of a login with the configuration disclose. -/
structure Discreet (config : AutoLoginConfig) (entries : List Entry) : Prop where
  usernameOnce : (actionsOf toLowercase entries).countP (sends .username) ≤ 1
  passwordOnce : (actionsOf toLowercase entries).countP (sends .password) ≤ 1
  startupOnce : (actionsOf toLowercase entries).countP startsUp ≤ 1
  passwordPrompted : ∀ e ∈ entries, ∀ line, .sendLine .password line ∈ e.actions toLowercase →
    isPasswordPrompt toLowercase (e.after toLowercase).tail = true
  startupAfter : ∀ before command after,
    actionsOf toLowercase entries = before ++ .completed (some command) :: after →
      ∃ a ∈ before, a.Answers
  wakeLine : ∀ line, .sendLine .wake line ∈ actionsOf toLowercase entries → line = ['\r']
  usernameLine : ∀ line, .sendLine .username line ∈ actionsOf toLowercase entries →
    line = config.username.trimmed.takeLine.2.getD ['\r']
  passwordLine : ∀ line, .sendLine .password line ∈ actionsOf toLowercase entries →
    config.password.takeLine.2 = some line
  startupLine : ∀ command, .completed (some command) ∈ actionsOf toLowercase entries →
    config.startupCommand = some command
  finished : ∀ before e after, entries = before ++ e :: after →
    IsOver (e.after toLowercase).state → ∀ e' ∈ after, e'.actions toLowercase = []
  tailBounded : ∀ e ∈ entries, utf8Len (e.after toLowercase).tail ≤ promptTailLimit
  tailSuffix : ∀ before e after, entries = before ++ e :: after →
    (e.after toLowercase).tail <:+ strip .text ((before ++ [e]).flatMap Entry.text)

/-- **An auto-login is discreet**, whatever it is configured with and whatever the calls. -/
theorem trace_discreet (config : AutoLoginConfig) (startedAt : ℕ) (calls : List Call) :
    Discreet toLowercase config ((new config startedAt).trace toLowercase calls) := by
  obtain ⟨t, hadvances⟩ := advances_trace toLowercase (new config startedAt) calls
  have hsuffix : (new config startedAt).tail <:+ [] := List.suffix_rfl
  have hbound : utf8Len (new config startedAt).tail ≤ promptTailLimit := Nat.zero_le _
  exact {
    usernameOnce := by
      have hcount := hadvances.username
      have := Bool.toNat_le t.sentUsername
      omega
    passwordOnce := by
      have hcount := hadvances.password
      have := Bool.toNat_le t.sentPassword
      omega
    startupOnce := by
      have hle := hadvances.startup
      have hone : t.started ≤ 1 := by
        unfold started
        split_ifs <;> simp
      omega
    passwordPrompted := fun e _ _ hline => call_prompted toLowercase e.before e.call hline
    startupAfter := fun before command after h =>
      (hadvances.startupAfter before command after h).resolve_left
        (by simp [hasSentCredentials, new])
    wakeLine := hadvances.wakeLine
    usernameLine := hadvances.usernameLine
    passwordLine := hadvances.passwordLine
    startupLine := hadvances.startupLine
    finished := fun before e after h hover => by
      obtain ⟨rest, rfl⟩ := trace_split toLowercase h
      refine trace_of_not_active toLowercase ?_ rest
      rcases hover with h | h | h | h <;> simp [h]
    tailBounded := fun e he => by
      obtain ⟨before, after, h⟩ := List.append_of_mem he
      exact (trace_tail toLowercase hsuffix hbound h).2
    tailSuffix := fun before e after h => (trace_tail toLowercase hsuffix hbound h).1 }

/-! ### A login without a username -/

/-- A password, but no username, and a command to run afterwards. -/
def passwordOnly : AutoLoginConfig where
  password := .present "secret".toList
  startupCommand := some "show version".toList

/-- The calls of a login that is not asked for the password, and a chunk that comes too late. -/
def passwordlessCalls : List Call :=
  [.handleText "Username: ".toList 0, .handleText "\nrouter# ".toList 0, .handleText ['x'] 0]

/-- The startup command is handed out though no value was sent, and the tail is no suffix of all
the text once a chunk is not handled. -/
theorem startup_without_credentials :
    let entries := (new passwordOnly 0).trace (·.map Char.toLower) passwordlessCalls
    actionsOf (·.map Char.toLower) entries =
        [.sendLine .username ['\r'], .completed (some "show version".toList)] ∧
      entries.getLast?.map (fun e => decide ((e.after (·.map Char.toLower)).tail <:+
        strip .text "Username: \nrouter# x".toList)) = some false := by
  decide

end Trace

end AutoLogin

end Netcatty.Telnet

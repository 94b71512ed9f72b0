import Netcatty.Vault.Model

/-! # Telnet auto-login

The machine that answers the prompts of a telnet login: it keeps the tail of the text without its
escape sequences, sends the username and the password where the last line of the tail asks for
them, and hands out the startup command at the first command prompt after that.

Unicode lower-casing is the parameter `toLowercase`; nothing is assumed of it. -/

namespace Netcatty.Telnet

open Serial (isWhitespace trim)
open Vault (Text utf8Len containsText)

def defaultTimeout : ℕ := 60 * 1_000_000_000
def promptTailLimit : ℕ := 2_048
def inputChunkLimit : ℕ := 64 * 1_024
def loginValueLimit : ℕ := 4 * 1_024
def startupCommandLimit : ℕ := 64 * 1_024

inductive AutoLoginError
  | valueTooLarge | inputChunkTooLarge
  deriving DecidableEq, Repr

/-! ### Login values -/

abbrev SecretText := Text

namespace SecretText

def withLimit (value : Text) (limit : ℕ) : Except AutoLoginError SecretText :=
  if utf8Len value > limit then .error .valueTooLarge else .ok value

def new (value : Text) : Except AutoLoginError SecretText := withLimit value loginValueLimit

def startupCommand (value : Text) : Except AutoLoginError SecretText :=
  withLimit value startupCommandLimit

def appendCarriageReturn (value : SecretText) : SecretText := value ++ ['\r']

end SecretText

inductive LoginValue
  | absent | explicitEmpty
  | present (value : SecretText)
  deriving DecidableEq, Repr

namespace LoginValue

def isConfigured : LoginValue → Bool
  | absent => false
  | _ => true

/-- The line that answers a prompt with the value, which is no longer kept. -/
def takeLine : LoginValue → LoginValue × Option SecretText
  | absent => (absent, none)
  | explicitEmpty => (absent, some (SecretText.appendCarriageReturn []))
  | present value => (absent, some value.appendCarriageReturn)

def trimmed : LoginValue → LoginValue
  | present value => present (trim value)
  | value => value

end LoginValue

/-! ### Prompts -/

section Prompts

variable (toLowercase : Text → Text)

def normalizeCr (c : Char) : Char := if c = '\r' then '\n' else c

/-- The text without its first `n` bytes, cut at the next boundary of a character. -/
def dropToBoundary : ℕ → Text → Text
  | 0, text => text
  | _ + 1, [] => []
  | n + 1, c :: text => dropToBoundary (n + 1 - c.utf8Size) text

def pushBoundedChar (tail : Text) (c : Char) : Text :=
  let tail := tail ++ [c]
  if utf8Len tail ≤ promptTailLimit then tail
  else dropToBoundary (utf8Len tail - promptTailLimit) tail

def lastPromptSlice (line : Text) : Text := dropToBoundary (utf8Len line - 320) line

def promptLines (text : Text) : List Text := (text.splitOn '\n').map lastPromptSlice

def lastPromptLine (text : Text) : Text := (promptLines text).getLast?.getD []

def trimEnd (text : Text) : Text := text.rdropWhile isWhitespace

def isPromptMark (c : Char) : Bool := [':', '：', '?', '？'].contains c

def promptCore (line : Text) : Text :=
  toLowercase (trimEnd ((trimEnd line).rdropWhile isPromptMark))

def endsWith (text suffix : Text) : Bool := suffix.isSuffixOf text

def isLastLogin (line : Text) : Bool :=
  let core := promptCore toLowercase line
  ["last login", "previous login"].any fun value => endsWith core value.toList

def endsWithPromptToken (core token : Text) : Bool :=
  endsWith core token &&
    match (core.take (core.length - token.length)).getLast? with
    | none => true
    | some c => !c.isAlphanum

def usernameTokens : List String :=
  ["user name", "username", "login", "logon", "account", "userid", "user id", "user", "用户名",
    "帳號", "帐号", "账号", "登录", "登入"]

def passwordTokens : List String :=
  ["password", "passwd", "passcode", "passphrase", "pass phrase", "pin", "密码", "密碼", "口令"]

def isUsernamePrompt (text : Text) : Bool :=
  let line := lastPromptLine text
  !isLastLogin toLowercase line &&
    usernameTokens.any fun token => endsWithPromptToken (promptCore toLowercase line) token.toList

def isPasswordPrompt (text : Text) : Bool :=
  let core := promptCore toLowercase (lastPromptLine text)
  passwordTokens.any fun token => endsWithPromptToken core token.toList

def isContinuePrompt (text : Text) : Bool :=
  let line := promptCore toLowercase (lastPromptLine text)
  let contains (needle : String) : Bool := containsText needle.toList line
  (contains "press" || contains "hit") &&
    (contains "return" || contains "enter" || contains "any key" || contains "space")

def isCommandPrompt (text : Text) : Bool :=
  let line := trimEnd (lastPromptLine text)
  !line.isEmpty && decide (utf8Len line ≤ 200) && !isLastLogin toLowercase line &&
    !isUsernamePrompt toLowercase line && !isPasswordPrompt toLowercase line &&
    !isContinuePrompt toLowercase line &&
    (line.getLast? = some '$' || line.getLast? = some '#' || line.getLast? = some '>')

/-- Some line before the last password prompt is a username prompt. -/
def hasUsernamePromptBeforePassword (text : Text) : Bool :=
  let lines := promptLines text
  match lines.reverse.dropWhile (!isPasswordPrompt toLowercase ·) with
  | [] => false
  | _ :: before => before.any (isUsernamePrompt toLowercase)

end Prompts

/-! ### The machine -/

structure AutoLoginConfig where
  username : LoginValue := .absent
  password : LoginValue := .absent
  startupCommand : Option SecretText := none
  timeout : ℕ := defaultTimeout

inductive AutoLoginState
  | active | disabled | completed | cancelled | timedOut | faulted
  deriving DecidableEq, Repr

/-- What a line answers.  The source keeps only the bytes of the line. -/
inductive LineOrigin
  | wake | username | password
  deriving DecidableEq, Repr

inductive AutoLoginAction
  | sendLine (origin : LineOrigin) (line : SecretText)
  | completed (startupCommand : Option SecretText)
  | cancelled
  | timedOut
  deriving DecidableEq, Repr

inductive AnsiState
  | text | escape | csi | osc | oscEscape
  deriving DecidableEq, Repr

structure AutoLogin where
  username : LoginValue
  password : LoginValue
  startupCommand : Option SecretText
  timeout : ℕ
  startedAt : ℕ
  tail : Text
  ansiState : AnsiState
  sentWake : Bool
  sentUsername : Bool
  sentPassword : Bool
  state : AutoLoginState
  deriving DecidableEq, Repr

namespace AutoLogin

def new (config : AutoLoginConfig) (startedAt : ℕ) : AutoLogin where
  username := config.username.trimmed
  password := config.password
  startupCommand := config.startupCommand
  timeout := config.timeout
  startedAt
  tail := []
  ansiState := .text
  sentWake := false
  sentUsername := false
  sentPassword := false
  state := if config.username.isConfigured || config.password.isConfigured then .active
    else .disabled

def hasSentCredentials (s : AutoLogin) : Bool := s.sentUsername || s.sentPassword

def pushChar (s : AutoLogin) (c : Char) : AutoLogin :=
  match s.ansiState with
  | .text =>
    if c = '\x1b' then { s with ansiState := .escape }
    else { s with tail := pushBoundedChar s.tail (normalizeCr c) }
  | .escape =>
    if c = '[' then { s with ansiState := .csi }
    else if c = ']' then { s with ansiState := .osc }
    else { s with ansiState := .text }
  | .csi => if '@' ≤ c ∧ c ≤ '~' then { s with ansiState := .text } else s
  | .osc =>
    if c = '\x07' then { s with ansiState := .text }
    else if c = '\x1b' then { s with ansiState := .oscEscape }
    else s
  | .oscEscape =>
    if c = '\\' then { s with ansiState := .text }
    else if c = '\x1b' then s
    else { s with ansiState := .osc }

def pushTextWithoutAnsi (s : AutoLogin) (text : Text) : AutoLogin := text.foldl pushChar s

def complete (s : AutoLogin) : AutoLogin × List AutoLoginAction :=
  if s.state ≠ .active then (s, [])
  else ({ s with state := .completed, startupCommand := none }, [.completed s.startupCommand])

section Answers

variable (toLowercase : Text → Text)

def answerUsername (s : AutoLogin) : AutoLogin × List AutoLoginAction :=
  let usernamePrompt := isUsernamePrompt toLowercase s.tail ||
    hasUsernamePromptBeforePassword toLowercase s.tail
  if !s.sentUsername && (s.username.isConfigured || s.password.isConfigured) && usernamePrompt then
    let (username, line) := s.username.takeLine
    ({ s with sentUsername := true, username },
      [.sendLine .username (line.getD (SecretText.appendCarriageReturn []))])
  else (s, [])

def answerPassword (s : AutoLogin) : AutoLogin × List AutoLoginAction :=
  if s.state = .active ∧ s.sentPassword = false ∧ s.password.isConfigured ∧
      isPasswordPrompt toLowercase s.tail then
    let (password, line) := s.password.takeLine
    ({ s with sentPassword := true, password }, line.toList.map (.sendLine .password))
  else (s, [])

def completeAtPrompt (s : AutoLogin) : AutoLogin × List AutoLoginAction :=
  if s.hasSentCredentials && isCommandPrompt toLowercase s.tail then s.complete else (s, [])

/-- The answers to the prompts in the tail. -/
def answerPrompts (s : AutoLogin) : AutoLogin × List AutoLoginAction :=
  if s.hasSentCredentials && isCommandPrompt toLowercase s.tail then s.complete
  else if !s.sentWake && isContinuePrompt toLowercase s.tail then
    ({ s with sentWake := true }, [.sendLine .wake (SecretText.appendCarriageReturn [])])
  else
    let (s, usernameActions) := s.answerUsername toLowercase
    let (s, passwordActions) := s.answerPassword toLowercase
    let (s, actions) := s.completeAtPrompt toLowercase
    (s, usernameActions ++ passwordActions ++ actions)

def handleTextAt (s : AutoLogin) (text : Text) (now : ℕ) :
    AutoLogin × Except AutoLoginError (List AutoLoginAction) :=
  if s.state ≠ .active then (s, .ok [])
  else if utf8Len text > inputChunkLimit then
    ({ s with state := .faulted }, .error .inputChunkTooLarge)
  else if now - s.startedAt > s.timeout then ({ s with state := .timedOut }, .ok [.timedOut])
  else
    let (s, actions) := (s.pushTextWithoutAnsi text).answerPrompts toLowercase
    (s, .ok actions)

def handleUserInput (s : AutoLogin) : AutoLogin × List AutoLoginAction :=
  if s.state ≠ .active then (s, []) else ({ s with state := .cancelled }, [.cancelled])

end Answers

end AutoLogin

end Netcatty.Telnet
